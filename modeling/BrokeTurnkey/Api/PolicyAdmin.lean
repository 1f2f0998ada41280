import BrokeTurnkey.Api.AuthService
import BrokeTurnkey.PolicyService

/-!
# Creating, listing and deleting policies

The three methods of `libs/policy/src/policy.service.ts` behind the policy routes.  A
configuration is checked and normalised when the policy is created.
-/

namespace BrokeTurnkey

open Interaction

namespace PolicyService

def invalidAddresses : JsError :=
  badRequest "address policy ruleConfig.addresses must be an array of Ethereum addresses"

def invalidEntries : JsError :=
  badRequest "calldata_allowlist ruleConfig.entries must be an array of { to, selector } with a valid address and 4-byte selector"

def invalidWindow : JsError :=
  badRequest "time_lock ruleConfig requires valid start_time and end_time values with start_time before end_time"

/-- `/^0x[0-9a-fA-F]{8}$/`. -/
def isSelector : Text → Bool
  | '0' :: 'x' :: digits => digits.length = 8 && Text.isHex digits
  | _ => false

def validateAddresses (cfg : ApiConfig) (config : Json) : Except JsError Json :=
  match isAddressList (config.get? "addresses".toList) with
  | some addresses =>
    if addresses.all cfg.isAddress then
      .ok (.obj [("addresses".toList, .arr (addresses.map fun address => .str (Text.lower address)))])
    else .error invalidAddresses
  | none => .error invalidAddresses

def validateSpendLimit (config : Json) : Except JsError Json :=
  match (config.get? "max_amount_wei".toList).bind Json.str? with
  | some maxAmount =>
    if isDecimalString maxAmount then .ok (.obj [("max_amount_wei".toList, .str maxAmount)])
    else .error (badRequest
      "spend_limit ruleConfig.max_amount_wei must be a non-negative decimal wei string")
  | none => .error (badRequest
      "spend_limit ruleConfig.max_amount_wei must be a non-negative decimal wei string")

def normaliseEntry (entry : Text × Text) : Json :=
  .obj [("to".toList, .str (Text.lower entry.1)), ("selector".toList, .str (Text.lower entry.2))]

def validateEntries (cfg : ApiConfig) (config : Json) : Except JsError Json :=
  match isCalldataAllowlist (config.get? "entries".toList) with
  | some entries =>
    if entries.all fun entry => cfg.isAddress entry.1 && isSelector entry.2 then
      .ok (.obj [("entries".toList, .arr (entries.map normaliseEntry))])
    else .error invalidEntries
  | none => .error invalidEntries

def validateTimeLock (cfg : ApiConfig) (config : Json) : Except JsError Json :=
  match (config.get? "start_time".toList).bind Json.str?,
      (config.get? "end_time".toList).bind Json.str? with
  | some start, some finish =>
    match cfg.services.parseDate start, cfg.services.parseDate finish with
    | some startTime, some endTime =>
      if startTime ≥ endTime then .error invalidWindow
      else .ok (.obj [("start_time".toList, .str start), ("end_time".toList, .str finish)])
    | _, _ => .error invalidWindow
  | _, _ => .error invalidWindow

def validateRuleConfig (cfg : ApiConfig) (ruleType : RuleType) (ruleConfig : Json) :
    Except JsError Json :=
  match ruleConfig with
  | .obj _ =>
    match ruleType with
    | .addressAllowlist | .addressBlocklist => validateAddresses cfg ruleConfig
    | .spendLimit => validateSpendLimit ruleConfig
    | .calldataAllowlist => validateEntries cfg ruleConfig
    | .timeLock => validateTimeLock cfg ruleConfig
    | .other name =>
      .error (.ofKind .badRequest ("Unsupported policy rule type: ".toList ++ name))
  | _ => .error (badRequest "policy ruleConfig must be an object")

/-- The controller fills in the defaults, the service the org and the configuration. -/
def createPolicy (cfg : ApiConfig) (orgId : Text) (body : CreatePolicyDto) : Api Policy := do
  let ruleConfig ← Api.ofExcept (validateRuleConfig cfg body.ruleType body.ruleConfig)
  Api.sql (.policyCreate
    { orgId, name := body.name, ruleType := body.ruleType, ruleConfig,
      appliesTo := body.appliesTo.getD .all, targetId := body.targetId,
      priority := body.priority.getD 0, status := .active })

def listPolicies (orgId : Text) : Api (List Policy) :=
  (Js.sql (.policyFindByOrgId orgId .active)).api

def deletePolicy (orgId policyId : Text) : Api Unit := do
  match ← Api.sql (.policyFindById policyId) with
  | none => throw (badRequest "Policy not found")
  | some policy =>
    if policy.orgId.toText ≠ orgId then
      throw (badRequest "Policy does not belong to this organization")
    else do
      Api.sql (.policyUpdate policyId .inactive)
      Api.sql (.auditCreate { orgId, event := .policyDeleted policyId policy.name })

end PolicyService

end BrokeTurnkey
