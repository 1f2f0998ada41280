import BrokeTurnkey.Api.Effects
import BrokeTurnkey.EdgeAuthority
import BrokeTurnkey.KeyRegistration

/-!
# Registering a key

A key is inserted for an org on one of two grounds: the request presents the bootstrap
token whose hash the org stores, or its stamp is of a key of the org and a key with
`key:write` is found by the row id of this key.  One walk through `POST /api-keys` says
what it inserts on which ground.
-/

namespace BrokeTurnkey

open Interaction

/-! ### The grounds -/

/-- The request presents the bootstrap token whose hash the org stored. -/
structure Bootstrapped (cfg : ApiConfig) (run : ApiWorld → Prop) (request : HttpRequest)
    (orgId token hash : Text) (org : Organization) : Prop where
  presented : truthy request.xBootstrapToken = some token
  found : ∃ w, run w ∧ org ∈ w.tables.organizations
  named : Uuid.ofText orgId = some org.id
  stored : truthy org.bootstrapTokenHash = some hash
  matching : AuthService.tokenMatches cfg token hash = true

/-- The request is stamped by a key of the org, and the key that has the row id of this
    key for its key id may write keys. -/
structure Registrar (cfg : ApiConfig) (run : ApiWorld → Prop) (request : HttpRequest)
    (orgId : Text) (stamp : StampVerifierGuard.Parsed) (key row : ApiKey) : Prop where
  admitted : StampVerifierGuard.Admitted cfg run request stamp key
  own : orgId = key.orgId.toText
  found : ∃ w, run w ∧ row ∈ w.tables.apiKeys
  named : row.keyId = key.id.toText
  scope : AuthService.keyWrite ∈ row.scopes

/-- What lets a key be registered for the org. -/
inductive MayRegister (cfg : ApiConfig) (run : ApiWorld → Prop) (request : HttpRequest)
    (orgId : Text) : Prop where
  | bootstrap {token hash : Text} {org : Organization} :
      Bootstrapped cfg run request orgId token hash org → MayRegister cfg run request orgId
  | registrar {stamp : StampVerifierGuard.Parsed} {key row : ApiKey} :
      Registrar cfg run request orgId stamp key row → MayRegister cfg run request orgId

/-- What `POST /api-keys` issues, where key ids come from the drawn ones: it reads, inserts
    the key it was asked for, and clears the token it was shown. -/
inductive Registers (cfg : ApiConfig) (run : ApiWorld → Prop) (request : HttpRequest)
    (Drawn : Uuid → Prop) (body : RegisterApiKeyDto) : ApiCmd → Prop where
  | reads {command : ApiCmd} : command.effect = none →
      Registers cfg run request Drawn body command
  | inserts {data : NewApiKey} {keyId : Uuid} : MayRegister cfg run request data.orgId →
      data.name = body.name → data.publicKey = body.publicKey → Drawn keyId →
      data.keyId = keyId.toText → Registers cfg run request Drawn body (.sql (.keyCreate data))
  | clears {orgId token hash : Text} {org : Organization} :
      Bootstrapped cfg run request orgId token hash org →
      Registers cfg run request Drawn body (.sql (.orgUpdate orgId none))

/-! ### The walk -/

section Given

variable {cfg : ApiConfig} {run : ApiWorld → Prop} {P : ApiCmd → Prop}
  {Fact : (command : ApiCmd) → Except JsError command.Reply → Prop}
  (hfact : StampVerifierGuard.Tells run Fact)

section Authorise

variable (hquery : ∀ statement : ApiSql, statement.isQuery = true → P (.sql statement))
include hfact hquery

theorem AuthService.validateBootstrapToken_given (request : HttpRequest) (orgId : Text)
    {token : Text} (htoken : truthy request.xBootstrapToken = some token) :
    (validateBootstrapToken cfg orgId token).Given Fact P fun outcome => outcome = .ok () →
      ∃ hash org, Bootstrapped cfg run request orgId token hash org := by
  refine Prog.Given.bind (Prog.Given.perform (hquery _ rfl) fun _ h => h) ?_ (by rintro _ _ ⟨⟩)
  intro row hrow
  cases row with
  | none => rintro ⟨⟩
  | some org =>
    obtain ⟨w, hw, hfound⟩ := hfact.org orgId (some org) hrow
    obtain ⟨hmem, hid⟩ := mem_of_findById hfound rfl
    cases hhash : truthy org.bootstrapTokenHash with
    | none =>
      simp only [Option.bind_some, hhash]
      rintro ⟨⟩
    | some hash =>
      simp only [Option.bind_some, hhash]
      split
      · rename_i hmatches
        exact fun _ => ⟨hash, org, htoken, ⟨w, hw, hmem⟩, hid, hhash, hmatches⟩
      · rintro ⟨⟩

theorem hasScope_given (keyId scope : Text) :
    (hasScope keyId scope).Given Fact P fun outcome => outcome = .ok true →
      ∃ row, (∃ w, run w ∧ row ∈ w.tables.apiKeys) ∧ row.keyId = keyId ∧ scope ∈ row.scopes := by
  refine Prog.Given.bind (Prog.Given.perform (hquery _ rfl) fun _ h => h) ?_ (by rintro _ _ ⟨⟩)
  intro row hrow
  cases row with
  | none => rintro ⟨⟩
  | some row =>
    intro hscope
    obtain ⟨w, hw, hfound⟩ := hfact.key keyId (some row) hrow
    exact ⟨row, ⟨w, hw, List.mem_of_find?_eq_some hfound⟩, by simpa using List.find?_some hfound,
      List.contains_iff_mem.mp (Except.ok.inj hscope)⟩

/-- The authorisation step, for the arguments the controller hands on. -/
theorem AuthService.authorise_given {request : HttpRequest} {route : Route} {orgId : Text}
    {user : Option AuthUser} (huser : StampVerifierGuard.Identified cfg run route request user)
    (hown : ∀ u, user = some u → orgId = u.orgId) :
    (authorise cfg orgId (truthy request.xBootstrapToken)
      (truthy (user.map AuthUser.apiKeyId))).Given Fact P fun outcome => outcome = .ok () →
        ∃ _ : MayRegister cfg run request orgId, ∀ token, truthy request.xBootstrapToken = some token →
          ∃ hash org, Bootstrapped cfg run request orgId token hash org := by
  have hidem : ∀ s, truthy (truthy s) = truthy s := fun s => by simp [truthy, Option.filter_filter]
  simp only [authorise, hidem]
  split
  · rename_i token htoken
    refine (validateBootstrapToken_given hfact hquery request orgId htoken).mono (fun _ h => h) ?_
    intro outcome h hok
    obtain ⟨hash, org, hpresented⟩ := h hok
    refine ⟨.bootstrap hpresented, fun other hother => ?_⟩
    rw [htoken, Option.some.injEq] at hother
    exact hother ▸ ⟨hash, org, hpresented⟩
  · rename_i hnone
    split
    · rename_i keyId hkeyId
      refine Prog.Given.bind (hasScope_given hfact hquery keyId keyWrite) ?_ (by rintro _ _ ⟨⟩)
      intro permitted hpermitted
      split
      · rename_i hpassed
        obtain ⟨row, hfound, hnamed, hscope⟩ := hpermitted (congrArg Except.ok hpassed)
        cases user with
        | none => cases hkeyId
        | some u =>
          cases huser with
          | @stamped stamp key hadmitted =>
            have hid : keyId = key.id.toText :=
              (Option.some.inj (Option.filter_eq_some_iff.mp hkeyId).1).symm
            refine fun _ => ⟨.registrar ⟨hadmitted, hown _ rfl, hfound, hnamed.trans hid, hscope⟩, ?_⟩
            intro token htoken
            rw [hnone] at htoken
            cases htoken
      · rintro ⟨⟩
    · rintro ⟨⟩

end Authorise

/-- The org of a stamp is the org of its key. -/
theorem ApiKeysController.resolveOrgId_given
    (hquery : ∀ statement : ApiSql, statement.isQuery = true → P (.sql statement))
    {request : HttpRequest} {route : Route} {user : Option AuthUser}
    (huser : StampVerifierGuard.Identified cfg run route request user) (token : Option Text) :
    (resolveOrgId cfg user token).Given Fact P fun outcome =>
      ∀ orgId, outcome = .ok (some orgId) → ∀ u, user = some u → orgId = u.orgId := by
  cases huser with
  | stamped hadmitted =>
    rename_i stamp key
    have horg : truthy (Option.map AuthUser.orgId (some key.user)) = some key.user.orgId := by
      simp [truthy, ApiKey.user, Uuid.toText_ne_nil]
    simp only [resolveOrgId, horg]
    rintro orgId ⟨⟩ u ⟨⟩
    rfl
  | _ =>
    simp only [resolveOrgId, Option.map_none, truthy_none]
    have hall : ∀ t, (AuthService.resolveOrgIdFromBootstrapToken cfg t).All P := fun t =>
      Prog.All.bind (Prog.All.perform (hquery (.orgFindByBootstrapTokenHash _) rfl)) fun _ => trivial
    split
    · rename_i hnone
      cases hnone
    · exact (Prog.Given.of_all (hall _)).mono (fun _ h => h) (by rintro _ _ _ _ _ ⟨⟩)
    · rintro _ ⟨⟩

/-- **What a registration issues**, and on which ground. -/
theorem ApiKeysController.registerApiKey_given (hfact : StampVerifierGuard.Tells run Fact)
    {Drawn : Uuid → Prop} (hdrawn : ∀ id, Fact .randomUUID (.ok id) → Drawn id)
    {request : HttpRequest} {route : Route} {user : Option AuthUser}
    (huser : StampVerifierGuard.Identified cfg run route request user) (body : RegisterApiKeyDto) :
    (registerApiKey cfg body request user).Given Fact (Registers cfg run request Drawn body)
      fun _ => True := by
  have hquery : ∀ statement : ApiSql, statement.isQuery = true →
      Registers cfg run request Drawn body (.sql statement) :=
    fun statement h => .reads (statement.of_query h cfg []).1
  refine Prog.Given.bind (resolveOrgId_given hquery huser _) (fun named hown => ?_)
    (fun _ _ => trivial)
  split
  · trivial
  · rename_i orgId horg
    have hnamed : named = some orgId := (Option.filter_eq_some_iff.mp horg).1
    refine Prog.Given.bind (Q := fun _ => True) (Prog.Given.perform (hquery _ rfl) fun _ _ => trivial)
      (fun org _ => ?_) fun _ _ => trivial
    cases org with
    | none => trivial
    | some org =>
      refine Prog.Given.bind (AuthService.authorise_given hfact hquery huser
        (hown orgId (congrArg Except.ok hnamed))) (fun _ hpassed => ?_) (fun _ _ => trivial)
      obtain ⟨hmay, htoken⟩ := hpassed rfl
      refine given_ofExcept_bind (fun _ _ => ?_) fun _ _ => trivial
      refine Prog.Given.bind (Q := fun outcome => ∀ keyId, outcome = .ok keyId → Drawn keyId)
        (Prog.Given.perform (.reads rfl) fun reply h keyId hreply => hdrawn keyId (hreply ▸ h))
        (fun keyId hkeyId => ?_) fun _ _ => trivial
      refine given_ofExcept_bind (fun scopes _ => ?_) fun _ _ => trivial
      refine .of_all (Prog.All.bind (Prog.All.tryCatch ?_ fun error => ?_) fun apiKey => ?_)
      · exact Prog.All.perform (.inserts hmay rfl rfl (hkeyId keyId rfl) rfl)
      · split
        · trivial
        · trivial
      · refine Prog.All.bind ?_ fun _ => ?_
        · rw [AuthService.clearToken]
          split
          · trivial
          · rename_i token hpresented
            obtain ⟨hash, org, hboot⟩ := htoken token (by
              simpa [truthy, Option.filter_filter] using hpresented)
            exact Prog.All.perform (.clears hboot)
        · exact Prog.All.bind (Prog.All.perform (.reads rfl)) fun _ => trivial

end Given

end BrokeTurnkey
