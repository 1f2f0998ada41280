import BrokeTurnkey.Api.Endpoints
import BrokeTurnkey.Api.Footprint
import BrokeTurnkey.Effects

/-!
# What a call may issue

A call of a service has the effects it is named for, writes no row of `organizations`
but that of its org, and every statement it issues is lawful: a key is inserted active,
under a drawn id and with known scopes, and is updated to be revoked; a policy is
inserted with a configuration that was checked; users and policies are updated to be
deleted.  One walk through the calls says all of this, and what is said of runs
elsewhere follows from it.
-/

namespace BrokeTurnkey

open Interaction

/-! ### Effects -/

/-- An update that notes the use of a key changes nothing else of it. -/
def ApiKeyUpdate.isTouch (fields : ApiKeyUpdate) : Bool :=
  fields.status = none ∧ fields.revokedAt = none

def ApiSql.effect : ApiSql → Option Effect
  | .orgCreate _ _ | .orgUpdate _ _ => some .organizations
  | .keyCreate _ => some .apiKeys
  | .keyUpdate _ fields => if fields.isTouch then none else some .apiKeys
  | .userCreate _ | .userUpdate _ _ => some .users
  | .policyCreate _ | .policyUpdate _ _ => some .policies
  | _ => none

def ApiCmd.effect : ApiCmd → Option Effect
  | .base command => command.effect
  | .sql statement => statement.effect
  | .signHash _ _ _ => some .signing
  | .randomUUID | .fork _ => none

def ApiCall.effects : ApiCall → List Effect
  | .onBoardOrganization => [.onboarding, .wallets]
  | .deriveWallet _ _ _ => [.wallets]
  | .requestSign _ _ | .signEip712 _ _ | .signPersonalMessage _ _ => [.signing]
  | .createPolicy _ | .deletePolicy _ => [.policies]
  | .createUser _ | .deleteUser _ => [.users]
  | .registerApiKey _ _ _ => [.apiKeys, .organizations]
  | .revokeApiKey _ => [.apiKeys]
  | .generateBootstrapToken => [.organizations]
  | _ => []

/-! ### Lawful statements -/

/-- Scopes a key may be given. -/
def ValidScopes (scopes : List Text) : Prop :=
  scopes ≠ [] ∧ ∀ scope ∈ scopes, scope ∈ AuthService.validScopes

structure NewApiKey.Granted (data : NewApiKey) : Prop where
  scopes : ValidScopes data.scopes
  drawn : ∃ id : Uuid, data.keyId = id.toText
  status : data.status = .active

/-- The key is revoked at some time. -/
structure ApiKeyUpdate.Revokes (fields : ApiKeyUpdate) : Prop where
  status : fields.status = some .revoked
  revokedAt : fields.revokedAt ≠ none

/-- The configuration came out of the check. -/
def Validated (cfg : ApiConfig) (ruleType : RuleType) (ruleConfig : Json) : Prop :=
  ∃ given, PolicyService.validateRuleConfig cfg ruleType given = .ok ruleConfig

/-- What the API may ask its own tables to become. -/
def ApiSql.Lawful (cfg : ApiConfig) : ApiSql → Prop
  | .keyCreate data => data.Granted
  | .keyUpdate _ fields => fields.isTouch = true ∨ fields.Revokes
  | .userCreate data => data.status = .active
  | .userUpdate _ status => status = .deleted
  | .policyCreate data => Validated cfg data.ruleType data.ruleConfig ∧ data.status = .active
  | .policyUpdate _ status => status = .inactive
  | _ => True

def ApiCmd.Lawful (cfg : ApiConfig) : ApiCmd → Prop
  | .sql statement => statement.Lawful cfg
  | _ => True

/-- Of `organizations` the command writes at most the row of this org. -/
def ApiCmd.Administers (orgId : Text) : ApiCmd → Prop
  | .sql (.orgCreate _ _) => False
  | .sql (.orgUpdate id _) => id = orgId
  | _ => True

/-- The command has no effect but these. -/
def ApiCmd.Affects (effects : List Effect) (command : ApiCmd) : Prop :=
  ∀ effect, command.effect = some effect → effect ∈ effects

/-- The command has no effect but these, is lawful, and administers the org alone. -/
structure ApiCmd.Permitted (cfg : ApiConfig) (orgId : Text) (effects : List Effect)
    (command : ApiCmd) : Prop where
  affects : command.Affects effects
  lawful : command.Lawful cfg
  administers : command.Administers orgId

/-- What a reading statement leaves to be said. -/
theorem ApiSql.of_query {statement : ApiSql} (h : statement.isQuery = true) (cfg : ApiConfig)
    (orgId : Text) : statement.effect = none ∧ statement.Lawful cfg ∧
      (ApiCmd.sql statement).Administers orgId := by
  cases statement with
  | orgCreate name slug => cases h
  | orgUpdate id hash => cases h
  | keyCreate data => cases h
  | keyUpdate id fields => cases h
  | userCreate data => cases h
  | userUpdate id status => cases h
  | policyCreate data => cases h
  | policyUpdate id status => cases h
  | auditCreate data => cases h
  | _ => exact ⟨rfl, trivial, trivial⟩

namespace ApiCmd.Permitted

variable {cfg : ApiConfig} {orgId : Text} {effects : List Effect}

theorem of_none {command : ApiCmd} (heffect : command.effect = none) (hlawful : command.Lawful cfg)
    (hown : command.Administers orgId) : Permitted cfg orgId effects command := by
  refine ⟨fun effect h => ?_, hlawful, hown⟩
  rw [heffect] at h
  cases h

theorem of_mem {command : ApiCmd} {effect : Effect} (heffect : command.effect = some effect)
    (hmem : effect ∈ effects) (hlawful : command.Lawful cfg) (hown : command.Administers orgId) :
    Permitted cfg orgId effects command := by
  refine ⟨fun other h => ?_, hlawful, hown⟩
  rw [heffect, Option.some.injEq] at h
  exact h ▸ hmem

theorem of_query {statement : ApiSql} (h : statement.isQuery = true) :
    Permitted cfg orgId effects (.sql statement) := by
  obtain ⟨heffect, hlawful, hown⟩ := statement.of_query h cfg orgId
  exact of_none heffect hlawful hown

theorem audit (data : NewAdminAudit) : Permitted cfg orgId effects (.sql (.auditCreate data)) :=
  of_none rfl trivial trivial

end ApiCmd.Permitted

/-! ### The calls -/

section Calls

variable {cfg : ApiConfig} {orgId : Text} {effects : List Effect} {α : Type}

open ApiCmd (Permitted)

theorem select_permitted {statement : ApiSql} (h : statement.isQuery = true) :
    (Api.sql statement).All (Permitted cfg orgId effects) := Prog.All.perform (.of_query h)

theorem audit_permitted (data : NewAdminAudit) :
    (Api.sql (.auditCreate data)).All (Permitted cfg orgId effects) :=
  Prog.All.perform (.audit data)

/-- A method of the signing services has its own effects. -/
theorem api_permitted {p : Js α} (h : p.All (Cmd.Affects effects)) :
    p.api.All (Permitted cfg orgId effects) :=
  Prog.All.lift (h.mono fun _ haffects => ⟨haffects, trivial, trivial⟩)

theorem now_permitted : Api.now.All (Permitted cfg orgId effects) :=
  Prog.All.perform (.of_none rfl trivial trivial)

theorem randomUUID_permitted : Api.randomUUID.All (Permitted cfg orgId effects) :=
  Prog.All.perform (.of_none rfl trivial trivial)

/-- A computed value is passed on without a command. -/
theorem all_ofExcept_bind {P : ApiCmd → Prop} {β : Type} {result : Except JsError β}
    {f : β → Api α} (h : ∀ value, result = .ok value → (f value).All P) :
    (Api.ofExcept result >>= f).All P := by
  cases result with
  | ok value => exact h value rfl
  | error error => trivial

/-- What a call may issue beyond reading are its effects. -/
theorem affects_of_permitted {p : Api α} (h : p.All (Permitted cfg orgId effects)) :
    p.All (ApiCmd.Affects effects) :=
  h.mono fun _ hpermitted => hpermitted.affects

/-! #### Wallets -/

theorem WalletService.ownWallet_permitted (walletId : Text) :
    (ownWallet orgId walletId).All (Permitted cfg orgId effects) := by
  refine Prog.All.bind (api_permitted (queries_affects (sql_queries rfl))) fun wallet => ?_
  split
  · trivial
  · exact Prog.All.unless trivial

theorem WalletService.getSigningRequestById_permitted (walletId requestId : Text) :
    (getSigningRequestById orgId walletId requestId).All (Permitted cfg orgId effects) := by
  refine Prog.All.bind (ownWallet_permitted walletId) fun _ => ?_
  refine Prog.All.bind (select_permitted rfl) fun request => ?_
  split
  · trivial
  · exact Prog.All.unless trivial

/-- Typed data and messages. -/
theorem SigningService.issuable_permitted (hsigning : .signing ∈ effects) (walletId : Text) :
    Issuable (Permitted cfg orgId effects) orgId walletId where
  seed := .of_none rfl trivial trivial
  wallet := .of_none rfl trivial trivial
  sign _ _ _ := .of_mem rfl hsigning trivial trivial
  audit _ := .audit _

/-! #### Policies -/

theorem PolicyService.createPolicy_permitted (hpolicies : .policies ∈ effects)
    (body : CreatePolicyDto) :
    (createPolicy cfg orgId body).All (Permitted cfg orgId effects) := by
  refine all_ofExcept_bind fun ruleConfig hconfig => ?_
  exact Prog.All.perform (.of_mem rfl hpolicies ⟨⟨_, hconfig⟩, rfl⟩ trivial)

theorem PolicyService.deletePolicy_permitted (hpolicies : .policies ∈ effects) (policyId : Text) :
    (deletePolicy orgId policyId).All (Permitted cfg orgId effects) := by
  refine Prog.All.bind (select_permitted rfl) fun policy => ?_
  split
  · trivial
  · refine Prog.All.unless ?_
    refine Prog.All.bind (Prog.All.perform (.of_mem rfl hpolicies ?_ trivial)) fun _ => ?_
    · exact rfl
    · exact audit_permitted _

/-! #### Users -/

theorem UserService.createUser_permitted (husers : .users ∈ effects) (data : CreateUserDto) :
    (createUser orgId data).All (Permitted cfg orgId effects) := by
  refine Prog.All.bind (select_permitted rfl) fun found => ?_
  cases found with
  | some user => trivial
  | none =>
    refine Prog.All.bind (Prog.All.perform (.of_mem rfl husers ?_ trivial)) fun user => ?_
    · exact rfl
    · exact Prog.All.bind (audit_permitted _) fun _ => trivial

theorem UserService.ownUser_permitted (userId : Text) :
    (ownUser orgId userId).All (Permitted cfg orgId effects) := by
  refine Prog.All.bind (select_permitted rfl) fun user => ?_
  split
  · trivial
  · exact Prog.All.unless trivial

theorem UserService.deleteUser_permitted (husers : .users ∈ effects) (userId : Text) :
    (deleteUser orgId userId).All (Permitted cfg orgId effects) := by
  refine Prog.All.bind (ownUser_permitted userId) fun user => ?_
  refine Prog.All.bind (Prog.All.perform (.of_mem rfl husers ?_ trivial)) fun _ => ?_
  · exact rfl
  · exact audit_permitted _

/-! #### Keys -/

namespace AuthService

/-- Scopes that are granted are known. -/
theorem resolveScopes_valid {requested : Option (List Text)} {bootstrapped : Bool}
    {scopes : List Text} (h : resolveScopes requested bootstrapped = .ok scopes) :
    ValidScopes scopes := by
  simp only [resolveScopes] at h
  split at h
  · split at h
    · cases h
      exact ⟨by decide, fun scope hscope => List.mem_append_left _ hscope⟩
    · cases h
  · rename_i asked hasked
    split at h
    · cases h
    · split at h
      · cases h
      · rename_i hknown
        cases h
        refine ⟨of_decide_eq_true (Option.filter_eq_some_iff.mp hasked).2, fun scope hscope => ?_⟩
        have hnone := List.filter_eq_nil_iff.mp (not_not.mp hknown) scope hscope
        simpa using hnone

/-- Without a bootstrap token there is none to clear. -/
theorem clearToken_permitted {bootstrapToken : Option Text}
    (horgs : truthy bootstrapToken ≠ none → .organizations ∈ effects) :
    (clearToken orgId bootstrapToken).All (Permitted cfg orgId effects) := by
  rw [clearToken]
  split
  · trivial
  · rename_i token htoken
    exact Prog.All.perform (.of_mem rfl (horgs (by simp [htoken])) trivial rfl)

theorem mintKey_permitted (hkeys : .apiKeys ∈ effects) (data : RegisterApiKeyDto)
    {bootstrapToken : Option Text}
    (horgs : truthy bootstrapToken ≠ none → .organizations ∈ effects) :
    (mintKey cfg orgId data bootstrapToken).All (Permitted cfg orgId effects) := by
  refine Prog.All.bind (all_ofExcept _) fun _ => ?_
  refine Prog.All.bind randomUUID_permitted fun keyId => ?_
  refine all_ofExcept_bind fun scopes hscopes => ?_
  have hgranted : NewApiKey.Granted
      { orgId, name := data.name, publicKey := data.publicKey, keyId := keyId.toText, scopes,
        status := .active } := ⟨resolveScopes_valid hscopes, ⟨keyId, rfl⟩, rfl⟩
  refine Prog.All.bind (Prog.All.tryCatch ?_ fun error => ?_) fun apiKey => ?_
  · exact Prog.All.perform (.of_mem rfl hkeys hgranted trivial)
  · split
    · trivial
    · trivial
  · refine Prog.All.bind (clearToken_permitted horgs) fun _ => ?_
    exact Prog.All.bind (audit_permitted _) fun _ => trivial

theorem registerApiKey_permitted (hkeys : .apiKeys ∈ effects) (horgs : .organizations ∈ effects)
    (data : RegisterApiKeyDto) (bootstrapToken requestingKeyId : Option Text) :
    (registerApiKey cfg orgId data bootstrapToken requestingKeyId).All
      (Permitted cfg orgId effects) := by
  refine Prog.All.bind (select_permitted rfl) fun org => ?_
  cases org with
  | none => trivial
  | some org =>
    refine Prog.All.bind (authorise_all (.of_query rfl) (fun _ => .of_query rfl) ..) fun _ => ?_
    exact mintKey_permitted hkeys data fun _ => horgs

theorem revokeApiKey_permitted (hkeys : .apiKeys ∈ effects) (keyId : Text) :
    (revokeApiKey orgId keyId).All (Permitted cfg orgId effects) := by
  refine Prog.All.bind (select_permitted rfl) fun apiKey => ?_
  split
  · trivial
  · refine Prog.All.unless (Prog.All.bind now_permitted fun now => ?_)
    refine Prog.All.bind (Prog.All.perform (.of_mem rfl hkeys ?_ trivial)) fun _ => ?_
    · exact .inr ⟨rfl, Option.some_ne_none _⟩
    · exact audit_permitted _

theorem generateBootstrapToken_permitted (horgs : .organizations ∈ effects) :
    (generateBootstrapToken cfg orgId).All (Permitted cfg orgId effects) := by
  refine Prog.All.bind randomUUID_permitted fun token => ?_
  refine Prog.All.bind (Prog.All.perform (.of_mem rfl horgs trivial rfl)) fun _ => trivial

end AuthService

/-- **What a call may issue.** -/
theorem ApiCall.start_permitted (operation : ApiCall) :
    (operation.start cfg orgId).All (Permitted cfg orgId operation.effects) := by
  cases operation with
  | onBoardOrganization =>
    exact all_map (api_permitted (WalletService.onBoardOrganization_affects (.head _)
      (.tail _ (.head _))))
  | deriveWallet userId label chainId =>
    exact all_map (api_permitted
      (WalletService.deriveWallet_affects (.head _) userId label chainId))
  | listWalletsByOrgId =>
    exact all_map (Prog.All.bind (select_permitted rfl) fun _ => trivial)
  | getWalletById walletId =>
    exact all_map (Prog.All.bind (WalletService.ownWallet_permitted walletId) fun _ => trivial)
  | listSigningRequestsByOrgId =>
    exact all_map (Prog.All.bind (select_permitted rfl) fun _ => trivial)
  | queryAuditLog params => exact all_map (select_permitted rfl)
  | listSigningRequestsByWalletId walletId =>
    refine all_map (Prog.All.bind (WalletService.ownWallet_permitted walletId) fun _ => ?_)
    exact Prog.All.bind (select_permitted rfl) fun _ => trivial
  | getSigningRequestById walletId requestId =>
    exact all_map (WalletService.getSigningRequestById_permitted walletId requestId)
  | requestSign walletId req =>
    exact all_map (api_permitted (WalletService.requestSign_affects (.head _) req))
  | signEip712 walletId req =>
    exact all_map ((SigningService.issuable_permitted (.head _) walletId).signEip712_all cfg req)
  | signPersonalMessage walletId message =>
    exact all_map ((SigningService.issuable_permitted (.head _) walletId).signPersonalMessage_all
      cfg message)
  | createPolicy body => exact all_map (PolicyService.createPolicy_permitted (.head _) body)
  | listPolicies => exact all_map (api_permitted (queries_affects (sql_queries rfl)))
  | deletePolicy policyId =>
    exact all_map (PolicyService.deletePolicy_permitted (.head _) policyId)
  | createUser body => exact all_map (UserService.createUser_permitted (.head _) body)
  | listUsers => exact all_map (Prog.All.bind (select_permitted rfl) fun _ => trivial)
  | getUser userId =>
    exact all_map (Prog.All.bind (UserService.ownUser_permitted userId) fun _ => trivial)
  | deleteUser userId => exact all_map (UserService.deleteUser_permitted (.head _) userId)
  | registerApiKey body bootstrapToken requestingKeyId =>
    exact all_map (AuthService.registerApiKey_permitted (.head _) (.tail _ (.head _)) body _ _)
  | listApiKeys => exact all_map (Prog.All.bind (select_permitted rfl) fun _ => trivial)
  | revokeApiKey keyId => exact all_map (AuthService.revokeApiKey_permitted (.head _) keyId)
  | generateBootstrapToken => exact all_map (AuthService.generateBootstrapToken_permitted (.head _))

end Calls

end BrokeTurnkey
