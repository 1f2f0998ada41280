import BrokeTurnkey.Api.StampGuard

/-!
# Who may register a key

The controller hands the service the row id of the key that made the request, and the
service looks that up among the key ids.  Row ids and key ids are drawn independently,
so the lookup finds no row, and a request without a bootstrap token is refused
whatever scopes its key has.
-/

namespace BrokeTurnkey

open Interaction

/-- No key id is the row id of a key. -/
def IndependentIds (t : ApiTables) : Prop :=
  ∀ key ∈ t.apiKeys, ∀ other ∈ t.apiKeys, key.keyId ≠ other.id.toText

/-- Some run of the authorisation step passes, for the arguments the controller hands on. -/
def PassesAuthorisation (cfg : ApiConfig) (request : HttpRequest) (user : AuthUser) (w : ApiWorld) : Prop :=
  ∃ history w' history', Completes (api cfg) Guard.any
    (AuthService.authorise cfg user.orgId (truthy request.xBootstrapToken)
      (truthy (some user.apiKeyId))) w history (.ok ()) w' history'

theorem IndependentIds.lookup {t : ApiTables} (h : IndependentIds t) {key : ApiKey}
    (hkey : key ∈ t.apiKeys) :
    t.apiKeys.find? (fun row => row.keyId = key.id.toText) = none := by
  apply List.find?_eq_none.mpr
  intro row hrow
  simpa using h row hrow key hkey

theorem Uuid.toText_ne_nil (u : Uuid) : u.toText ≠ [] := by
  obtain ⟨bytes, hlen⟩ := u
  cases bytes with
  | nil => cases hlen
  | cons byte rest => simp [toText, writeBytes]

variable {cfg : ApiConfig} {request : HttpRequest} {w : ApiWorld}

/-- The lookup by row id finds no key. -/
theorem hasScope_meets {guard : Guard ApiCmd Choice ApiEvent ApiWorld} {key : ApiKey}
    {scope : Text} {history : List ApiEntry} (hids : IndependentIds w.tables)
    (hkey : key ∈ w.tables.apiKeys) :
    Meets (api cfg) guard (fun outcome w' _ => w' = w ∧ outcome ≠ .ok true)
      (hasScope key.id.toText scope) w history := by
  refine meets_select_bind rfl (fun row id history' hrow => ?_) (fun _ _ => ⟨rfl, nofun⟩)
  have hnone : row = none := (Except.ok.inj hrow).symm.trans (hids.lookup hkey)
  rw [hnone]
  exact ⟨rfl, by simp⟩

theorem truthy_apiKeyId (key : ApiKey) :
    truthy (some key.user.apiKeyId) = some key.id.toText := by
  simp [truthy, ApiKey.user, Uuid.toText_ne_nil]

/-- The authorisation step of a request without a bootstrap token fails. -/
theorem authorise_meets {guard : Guard ApiCmd Choice ApiEvent ApiWorld} {key : ApiKey}
    {orgId : Text} {history : List ApiEntry} (hids : IndependentIds w.tables)
    (hkey : key ∈ w.tables.apiKeys) :
    Meets (api cfg) guard (fun outcome w' _ => w' = w ∧ outcome ≠ .ok ())
      (AuthService.authorise cfg orgId none (truthy (some key.user.apiKeyId))) w history := by
  have hsome : truthy (some key.id.toText) = some key.id.toText := truthy_apiKeyId key
  simp only [truthy_apiKeyId, AuthService.authorise, truthy_none, hsome]
  refine Meets.bind (hasScope_meets hids hkey) ?_ ?_
  · rintro passed w' history' ⟨rfl, hpassed⟩
    rw [if_neg (fun htrue => hpassed (by rw [htrue]))]
    exact ⟨rfl, by simp⟩
  · rintro error w' history' ⟨hw, _⟩
    exact ⟨hw, by simp⟩

/-- **The authorisation step is right exactly for the keys without `key:write`**: for a
    request without a bootstrap token that the guard accepted for a key, it passes if
    and only if the key's scopes contain `key:write`, precisely when they do not. -/
theorem authorise_scope_iff {w' : ApiWorld} {history : List ApiEntry} {key : ApiKey}
    (hids : IndependentIds w.tables) (hkey : key ∈ w.tables.apiKeys)
    (htoken : truthy request.xBootstrapToken = none)
    (haccepted : Completes (api cfg) Guard.any
      (StampVerifierGuard.canActivate cfg ApiKeysController.registerRoute request) w []
      (.ok (some key.user)) w' history) :
    (PassesAuthorisation cfg request key.user w' ↔ AuthService.keyWrite ∈ key.scopes) ↔
      AuthService.keyWrite ∉ key.scopes := by
  have hsame : w' = w := (haccepted.meets StampVerifierGuard.canActivate_meets).1
  have hrefused : ¬PassesAuthorisation cfg request key.user w' := by
    rintro ⟨history', w'', history'', hrun⟩
    rw [hsame, htoken] at hrun
    exact (hrun.meets (authorise_meets hids hkey)).2 rfl
  simp [hrefused]

/-- A service call on behalf of the key, without a bootstrap token, registers nothing. -/
theorem registerApiKey_meets {guard : Guard ApiCmd Choice ApiEvent ApiWorld} {key : ApiKey}
    {orgId : Text} {body : RegisterApiKeyDto} {history : List ApiEntry}
    (hids : IndependentIds w.tables) (hkey : key ∈ w.tables.apiKeys) :
    Meets (api cfg) guard (fun outcome w' _ => w' = w ∧ ∀ registered, outcome ≠ .ok registered)
      (AuthService.registerApiKey cfg orgId body none (truthy (some key.user.apiKeyId)))
      w history := by
  refine meets_select_bind rfl (fun org id history' _ => ?_) (fun _ _ => ⟨rfl, nofun⟩)
  cases org with
  | none => exact ⟨rfl, nofun⟩
  | some org =>
    refine Meets.bind (authorise_meets hids hkey) ?_ (fun error w' history' h => ⟨h.1, nofun⟩)
    rintro _ w' history' ⟨_, hpassed⟩
    exact absurd rfl hpassed

/-- So no request without a bootstrap token ever registers a key. -/
theorem post_registers_nothing {guard : Guard ApiCmd Choice ApiEvent ApiWorld}
    {body : RegisterApiKeyDto} {history : List ApiEntry} (hids : IndependentIds w.tables)
    (htoken : truthy request.xBootstrapToken = none) :
    Meets (api cfg) guard (fun outcome w' _ => w' = w ∧ ∀ registered, outcome ≠ .ok registered)
      (ApiKeysController.post cfg body request) w history := by
  refine Meets.bind StampVerifierGuard.canActivate_meets ?_
    (fun error w' history' h => ⟨h.1, nofun⟩)
  rintro user w' history' ⟨rfl, haccepts⟩
  rw [ApiKeysController.registerApiKey, htoken]
  cases user with
  | none => exact ⟨rfl, nofun⟩
  | some user =>
    obtain ⟨stamp, key, hkey, rfl⟩ := haccepts user rfl
    have horg : truthy (some key.user.orgId) = some key.user.orgId := by
      simp [truthy, ApiKey.user, Uuid.toText_ne_nil]
    simp only [ApiKeysController.resolveOrgId, Option.map_some, horg]
    refine Meets.bind (P := fun outcome w'' _ => outcome = .ok (some key.user.orgId) ∧ w'' = w')
      ⟨rfl, rfl⟩ ?_ (fun error w'' history' h => nomatch h.1)
    rintro orgId w'' history' ⟨hvalue, rfl⟩
    rw [Except.ok.inj hvalue, horg]
    exact registerApiKey_meets hids (List.mem_of_find?_eq_some hkey.found)

namespace ApiSample

theorem independentIds (scopes : List Text) : IndependentIds (world [key scopes]).tables := by
  have hne : keyId ≠ keyRow.toText := by decide
  simpa [IndependentIds, world, key] using hne

/-- The key makes a `POST /api-keys`. -/
theorem accepted (scopes : List Text) :
    ∃ history, Completes (api config) Guard.any
      (StampVerifierGuard.canActivate config ApiKeysController.registerRoute
        (stamped "POST".toList "/api-keys".toList)) (world [key scopes]) []
      (.ok (some (key scopes).user)) (world [key scopes]) history :=
  (accepts scopes _ _).attains rfl []

end ApiSample

theorem authorise_scope_iff_keyWrite :
    (PassesAuthorisation ApiSample.config (ApiSample.stamped "POST".toList "/api-keys".toList)
      (ApiSample.key [AuthService.keyWrite]).user
      (ApiSample.world [ApiSample.key [AuthService.keyWrite]]) ↔
        AuthService.keyWrite ∈ (ApiSample.key [AuthService.keyWrite]).scopes) ↔
      AuthService.keyWrite ∉ (ApiSample.key [AuthService.keyWrite]).scopes := by
  obtain ⟨history, hrun⟩ := ApiSample.accepted [AuthService.keyWrite]
  exact authorise_scope_iff (ApiSample.independentIds _) (List.mem_singleton.mpr rfl) rfl hrun

/-- A key whose scopes contain `key:write` is refused. -/
theorem authorise_refuses_keyWrite :
    AuthService.keyWrite ∈ (ApiSample.key [AuthService.keyWrite]).scopes ∧
      (∃ history, Completes (api ApiSample.config) Guard.any
        (StampVerifierGuard.canActivate ApiSample.config ApiKeysController.registerRoute
          (ApiSample.stamped "POST".toList "/api-keys".toList))
        (ApiSample.world [ApiSample.key [AuthService.keyWrite]]) []
        (.ok (some (ApiSample.key [AuthService.keyWrite]).user))
        (ApiSample.world [ApiSample.key [AuthService.keyWrite]]) history) ∧
      ¬PassesAuthorisation ApiSample.config (ApiSample.stamped "POST".toList "/api-keys".toList)
        (ApiSample.key [AuthService.keyWrite]).user
        (ApiSample.world [ApiSample.key [AuthService.keyWrite]]) := by
  refine ⟨List.mem_singleton.mpr rfl, ApiSample.accepted _, ?_⟩
  rintro ⟨history, w', history', hrun⟩
  exact (hrun.meets (authorise_meets (ApiSample.independentIds _)
    (List.mem_singleton.mpr rfl))).2 rfl

end BrokeTurnkey
