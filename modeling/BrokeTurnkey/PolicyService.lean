import BrokeTurnkey.GasService

/-!
# The policy engine

`libs/policy/src`: the active policies of an org that apply to the wallet are
checked in the order the database returns them.  The first denial decides,
nothing applicable denies, and a configuration the evaluator cannot read denies.
Every outcome is written to the audit log before it is returned.
-/

namespace BrokeTurnkey

inductive Decision where
  | allow
  | deny
deriving DecidableEq, Repr

structure PolicyEvaluationResult where
  decision : Decision
  reason : Option Text
deriving DecidableEq

namespace PolicyService

/-- `policy.applies_to` and `target_id` against the wallet id as it was given. -/
def appliesToWallet (policy : Policy) (walletId : Text) : Bool :=
  policy.appliesTo = .all ||
    (policy.appliesTo = .wallet && policy.targetId.map Uuid.toText = some walletId)

/-! ### Reading configurations -/

def isAddressList : Option Json → Option (List Text)
  | some (.arr items) => items.mapM Json.str?
  | _ => none

def isCalldataAllowlist : Option Json → Option (List (Text × Text))
  | some (.arr items) => items.mapM fun entry => do
      let toAddr ← (← entry.get? "to".toList).str?
      let selector ← (← entry.get? "selector".toList).str?
      return (toAddr, selector)
  | _ => none

/-- `/^(0|[1-9]\d*)$/`. -/
def isDecimalString : Text → Bool
  | ['0'] => true
  | c :: digits => c ≠ '0' && c.isDigit && digits.all Char.isDigit
  | [] => false

def allowed : PolicyEvaluationResult := ⟨.allow, none⟩

def denied (reason : Text) : PolicyEvaluationResult := ⟨.deny, some reason⟩

def invalidConfig (policy : Policy) : PolicyEvaluationResult :=
  denied ("Policy ".toList ++ policy.id.toText ++ " has invalid configuration".toList)

/-! ### Rules -/

/-- The list rules, on the addresses of the configuration. -/
def addressRule (policy : Policy) (check : List Text → PolicyEvaluationResult) :
    PolicyEvaluationResult :=
  match isAddressList (policy.ruleConfig.get? "addresses".toList) with
  | none => invalidConfig policy
  | some addresses => check addresses

def addressBlocklist (policy : Policy) (txPayload : TxPayload) : PolicyEvaluationResult :=
  addressRule policy fun blocklist =>
    if blocklist.contains (Text.lower txPayload.toAddr) then
      denied ("Recipient address ".toList ++ txPayload.toAddr ++ " is on the blocklist".toList)
    else allowed

def addressAllowlist (policy : Policy) (txPayload : TxPayload) : PolicyEvaluationResult :=
  addressRule policy fun allowlist =>
    if 0 < allowlist.length ∧ ¬allowlist.contains (Text.lower txPayload.toAddr) then
      denied ("Recipient address ".toList ++ txPayload.toAddr ++
        " is not on the allowlist".toList)
    else allowed

def spendLimit (policy : Policy) (txPayload : TxPayload) :
    Except JsError PolicyEvaluationResult :=
  match (policy.ruleConfig.get? "max_amount_wei".toList).bind Json.str? with
  | none => .ok (invalidConfig policy)
  | some maxAmountValue =>
    if isDecimalString maxAmountValue = false then .ok (invalidConfig policy)
    else match bigInt maxAmountValue, bigInt txPayload.value with
      | some maxAmount, some txValue =>
        if txValue > maxAmount then
          .ok (denied ("Transaction value ".toList ++ Text.decimalInt txValue ++
            " exceeds limit ".toList ++ Text.decimalInt maxAmount))
        else .ok allowed
      | _, _ => .error syntaxError

def calldataAllowlist (policy : Policy) (txPayload : TxPayload) : PolicyEvaluationResult :=
  match isCalldataAllowlist (policy.ruleConfig.get? "entries".toList) with
  | none => invalidConfig policy
  | some entries =>
    match txPayload.dataSelector with
    | none => allowed -- plain transfer, no calldata
    | some dataSelector =>
      if entries.any fun entry => entry.1 = Text.lower txPayload.toAddr ∧
          entry.2 = Text.lower dataSelector then allowed
      else denied ("Calldata selector ".toList ++ dataSelector ++ " on ".toList ++
        txPayload.toAddr ++ " is not allowlisted".toList)

def timeLock (cfg : Config) (policy : Policy) (now : Int) : PolicyEvaluationResult :=
  match (policy.ruleConfig.get? "start_time".toList).bind Json.str?,
      (policy.ruleConfig.get? "end_time".toList).bind Json.str? with
  | some start, some «end» =>
    match cfg.parseDate start, cfg.parseDate «end» with
    | some startTime, some endTime =>
      if startTime ≥ endTime then invalidConfig policy
      else if now < startTime ∨ now > endTime then
        denied "Current time is outside the allowed signing window".toList
      else allowed
    | _, _ => invalidConfig policy
  | _, _ => invalidConfig policy

def evaluateRule (cfg : Config) (policy : Policy) (txPayload : TxPayload) (now : Int) :
    Except JsError PolicyEvaluationResult :=
  match policy.ruleType with
  | .addressBlocklist => .ok (addressBlocklist policy txPayload)
  | .addressAllowlist => .ok (addressAllowlist policy txPayload)
  | .spendLimit => spendLimit policy txPayload
  | .calldataAllowlist => .ok (calldataAllowlist policy txPayload)
  | .timeLock => .ok (timeLock cfg policy now)
  | .other _ => .ok (invalidConfig policy)

/-! ### Evaluation -/

/-- The audit row of an evaluation. -/
def auditEvaluation (orgId walletId : Text) (status : AuditStatus) (metadata : AuditMetadata) :
    Js Unit :=
  Js.sql (.auditCreate
    { orgId, walletId := some walletId, event := .policyEvaluation, status, metadata })

def noPolicyReason : Text := "No applicable active policy for this wallet".toList

/-- Check the policies in order; `policiesChecked` is their total number. -/
def evaluatePolicies (cfg : Config) (orgId walletId : Text) (txPayload : TxPayload)
    (policiesChecked : Nat) : List Policy → Js PolicyEvaluationResult
  | [] => do
    auditEvaluation orgId walletId .allowed (.allowedBy policiesChecked txPayload)
    return allowed
  | policy :: rest => do
    let now ← Js.now
    match evaluateRule cfg policy txPayload now with
    | .error error => throw error
    | .ok result =>
      if result.decision = .deny then do
        auditEvaluation orgId walletId .denied
          (.deniedBy policy.id.toText policy.name policy.ruleType result.reason txPayload)
        return result
      else evaluatePolicies cfg orgId walletId txPayload policiesChecked rest

def applicable (policies : List Policy) (walletId : Text) : List Policy :=
  policies.filter fun policy => appliesToWallet policy walletId

def evaluate (cfg : Config) (orgId walletId : Text) (txPayload : TxPayload) :
    Js PolicyEvaluationResult := do
  let policies ← Js.sql (.policyFindByOrgId orgId .active)
  match applicable policies walletId with
  | [] => do
    auditEvaluation orgId walletId .denied (.noPolicy noPolicyReason txPayload)
    return denied noPolicyReason
  | policy :: rest =>
    evaluatePolicies cfg orgId walletId txPayload (rest.length + 1) (policy :: rest)

end PolicyService

end BrokeTurnkey
