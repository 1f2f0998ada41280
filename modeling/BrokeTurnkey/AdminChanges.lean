import BrokeTurnkey.Api.Footprint
import BrokeTurnkey.Growth

/-!
# What the administrative calls change

The eight calls that create and end policies, keys, users and wallets.  For each of them,
what the tables are after a call that succeeded: the row that was inserted or updated and
the row that was written to `audit_log`.
-/

namespace BrokeTurnkey

open Interaction

/-- The calls that change who and what an org consists of. -/
def ApiCall.isAdministrative : ApiCall → Bool
  | .createPolicy _ | .deletePolicy _ | .registerApiKey _ _ _ | .revokeApiKey _ | .createUser _
  | .deleteUser _ | .deriveWallet _ _ _ | .onBoardOrganization => true
  | _ => false

def ApiCall.isPolicyCreation : ApiCall → Bool
  | .createPolicy _ => true
  | _ => false

namespace ApiTables

/-- The tables with one more row in `audit_log`. -/
def audited (t : ApiTables) (orgId : Uuid) (userId : Option Uuid) (event : AdminEvent)
    (createdAt : Int) : ApiTables :=
  { t with adminAudit := t.adminAudit ++ [⟨orgId, userId, none, event, createdAt⟩] }

/-- The tables with a wallet and the row of `audit_log` that comes with it. -/
def addWallet (t : ApiTables) (seeds : List OrganizationSeed) (row : Wallet) (audit : AuditLog) :
    ApiTables :=
  { t with base := { t.base with
      seeds := seeds
      wallets := t.base.wallets ++ [row]
      auditLog := t.base.auditLog ++ [audit] } }

end ApiTables

/-- The tables after a call that succeeded. -/
inductive AdminChange (t : ApiTables) : ApiCall → ApiTables → Prop
  | createPolicy {body : CreatePolicyDto} (row : Policy) :
      (∀ other ∈ t.base.policies, other.id ≠ row.id) → row.status = .active →
      AdminChange t (.createPolicy body) (t.setPolicies (t.base.policies ++ [row]))
  | deletePolicy {policyId : Text} (row : Policy) (createdAt : Int) :
      row ∈ t.base.policies → Uuid.ofText policyId = some row.id →
      AdminChange t (.deletePolicy policyId)
        ((t.setPolicies
          (t.base.policies.map (PolicyRowRepository.updateRow row.id .inactive))).audited
            row.orgId none (.policyDeleted policyId row.name) createdAt)
  | registerApiKey {body : RegisterApiKeyDto} {bootstrapToken requestingKeyId : Option Text}
      (row : ApiKey) (organizations : List Organization) (createdAt : Int) :
      (∀ other ∈ t.apiKeys, other.id ≠ row.id) → row.status = .active →
      AdminChange t (.registerApiKey body bootstrapToken requestingKeyId)
        ({ t with organizations, apiKeys := t.apiKeys ++ [row] }.audited row.orgId none
          (.apiKeyCreated row.id.toText row.keyId row.name row.scopes) createdAt)
  | revokeApiKey {keyId : Text} (row : ApiKey) (revokedAt createdAt : Int) :
      row ∈ t.apiKeys →
      AdminChange t (.revokeApiKey keyId)
        ({ t with apiKeys := t.apiKeys.map (ApiKeyRepository.updateRow row.id
            { status := some .revoked, revokedAt := some revokedAt }) }.audited row.orgId none
          (.apiKeyRevoked row.id.toText row.keyId row.name) createdAt)
  | createUser {body : CreateUserDto} (row : UserRow) (createdAt : Int) :
      (∀ other ∈ t.users, other.id ≠ row.id) → row.status = .active →
      AdminChange t (.createUser body)
        ({ t with users := t.users ++ [row] }.audited row.orgId (some row.id)
          (.userCreated row.id.toText row.externalId row.email row.role) createdAt)
  | deleteUser {userId : Text} (row : UserRow) (createdAt : Int) :
      row ∈ t.users → Uuid.ofText userId = some row.id →
      AdminChange t (.deleteUser userId)
        ({ t with users := t.users.map (UserRowRepository.updateRow row.id .deleted) }.audited
          row.orgId (some row.id) (.userDeleted userId row.externalId) createdAt)
  | deriveWallet {userId : Option Text} {label : Text} {chainId : Option Nat} (row : Wallet)
      (user : Option Uuid) (createdAt : Int) :
      AdminChange t (.deriveWallet userId label chainId)
        (t.addWallet t.base.seeds row
          ⟨row.orgId, user, some row.id, .walletCreated, .success, .none, createdAt⟩)
  | onBoardOrganization (seed : OrganizationSeed) (row : Wallet) (createdAt : Int) :
      row.orgId = seed.orgId → row.derivationPath = WalletService.firstDerivationPath →
      AdminChange t .onBoardOrganization
        (t.addWallet (t.base.seeds ++ [seed]) row
          ⟨seed.orgId, none, none, .orgOnboarded, .success, .none, createdAt⟩)

namespace AdminChanges

/-! ### Statements -/

section Statements

variable {id : Uuid} {now : Int} {t t' : ApiTables}

theorem exec_audit {data : NewAdminAudit} {u : Unit} (hwallet : data.walletId = none)
    (h : (ApiSql.auditCreate data).exec id now t = (.ok u, t')) :
    ∃ org user, Uuid.ofText data.orgId = some org ∧ parseOptionUuid data.userId = .ok user ∧
      t' = t.audited org user data.event now := by
  obtain ⟨org, user, wallet, horg, huser, hnone, rfl⟩ :=
    AdminAuditRepository.create_eq_ok (ApiTables.write_eq_ok h)
  rw [hwallet] at hnone
  cases hnone
  exact ⟨org, user, horg, huser, rfl⟩

theorem parseOptionUuid_some {s : Text} {user : Option Uuid} {u : Uuid}
    (hs : Uuid.ofText s = some u) (h : parseOptionUuid (some s) = .ok user) : user = some u := by
  obtain ⟨value, hvalue, rfl⟩ := map_eq_ok.mp h
  rw [parseUuid_eq_ok.mp hvalue] at hs
  exact hs

end Statements

section Calls

variable {cfg : ApiConfig} {w : ApiWorld} {orgId : Text}

/-- A row whose org is the caller's is audited for its org. -/
theorem org_of_toText {u org : Uuid} (hown : u.toText = orgId)
    (horg : Uuid.ofText orgId = some org) : org = u := by
  rw [← hown, Uuid.ofText_toText, Option.some.injEq] at horg
  exact horg.symm

theorem createPolicy_returns (body : CreatePolicyDto) :
    Returns (api cfg) .any (fun _ w' => AdminChange w.tables (.createPolicy body) w'.tables)
      (PolicyService.createPolicy cfg orgId body) w := by
  refine returns_ofExcept_bind fun ruleConfig _ => ?_
  refine returns_write fun id value t hfresh hexec => ?_
  obtain ⟨org, target, _, _, rfl, rfl⟩ :=
    PolicyRowRepository.create_eq_ok (ApiTables.write_eq_ok hexec)
  have hunused : ∀ other ∈ w.tables.base.policies, other.id ≠ id := by
    simpa [ApiSql.isFresh] using hfresh
  exact .createPolicy _ hunused rfl

theorem deletePolicy_returns (policyId : Text) :
    Returns (api cfg) .any (fun _ w' => AdminChange w.tables (.deletePolicy policyId) w'.tables)
      (PolicyService.deletePolicy orgId policyId) w := by
  refine returns_select_bind rfl fun _ found hfound => ?_
  cases found with
  | none => exact .throw _
  | some policy =>
    obtain ⟨hmem, hid⟩ := mem_of_findById hfound rfl
    refine .unless fun hown => ?_
    refine returns_write_bind fun _ _ t _ hupdate => ?_
    obtain ⟨u, hu, hupdate⟩ := map_eq_ok.mp (ApiTables.write_eq_ok hupdate)
    cases hupdate
    rw [parseUuid_eq_ok.mp hu, Option.some.injEq] at hid
    subst hid
    refine returns_write fun _ _ t' _ haudit => ?_
    obtain ⟨org, user, horg, huser, rfl⟩ := exec_audit rfl haudit
    cases huser
    rw [org_of_toText (not_not.mp hown) horg]
    exact .deletePolicy policy _ hmem (parseUuid_eq_ok.mp hu)

theorem createUser_returns (body : CreateUserDto) :
    Returns (api cfg) .any (fun _ w' => AdminChange w.tables (.createUser body) w'.tables)
      (UserService.createUser orgId body) w := by
  refine returns_select_bind rfl fun _ found _ => ?_
  cases found with
  | some user => exact .throw _
  | none =>
    refine returns_write_bind fun id user t hfresh hinsert => ?_
    obtain ⟨org, horg, rfl, rfl⟩ := UserRowRepository.create_eq_ok (ApiTables.write_eq_ok hinsert)
    have hunused : ∀ other ∈ w.tables.users, other.id ≠ id := by
      simpa [ApiSql.isFresh] using hfresh
    refine returns_write_bind fun _ _ t' _ haudit => ?_
    obtain ⟨org', user', horg', huser', rfl⟩ := exec_audit rfl haudit
    rw [parseOptionUuid_some (Uuid.ofText_toText id) huser']
    rw [horg, Option.some.injEq] at horg'
    subst horg'
    exact .ret (.createUser _ _ hunused rfl)

theorem ownUser_returns (userId : Text) :
    Returns (api cfg) .any (fun user w' => w' = w ∧ user ∈ w.tables.users ∧
      user.orgId.toText = orgId ∧ Uuid.ofText userId = some user.id)
      (UserService.ownUser orgId userId) w := by
  refine returns_select_bind rfl fun _ found hfound => ?_
  cases found with
  | none => exact .throw _
  | some user =>
    obtain ⟨hmem, hid⟩ := mem_of_findById hfound rfl
    refine .unless fun hown => ?_
    exact .ret ⟨rfl, hmem, not_not.mp hown, hid⟩

theorem deleteUser_returns (userId : Text) :
    Returns (api cfg) .any (fun _ w' => AdminChange w.tables (.deleteUser userId) w'.tables)
      (UserService.deleteUser orgId userId) w := by
  refine .bind (ownUser_returns userId) ?_
  rintro user _ ⟨rfl, hmem, hown, hid⟩
  refine returns_write_bind fun _ _ t _ hupdate => ?_
  obtain ⟨u, hu, hupdate⟩ := map_eq_ok.mp (ApiTables.write_eq_ok hupdate)
  cases hupdate
  rw [parseUuid_eq_ok.mp hu, Option.some.injEq] at hid
  subst hid
  refine returns_write fun _ _ t' _ haudit => ?_
  obtain ⟨org, user', horg, huser', rfl⟩ := exec_audit rfl haudit
  rw [parseOptionUuid_some (parseUuid_eq_ok.mp hu) huser', org_of_toText hown horg]
  exact .deleteUser user _ hmem (parseUuid_eq_ok.mp hu)

theorem revokeApiKey_returns (keyId : Text) :
    Returns (api cfg) .any (fun _ w' => AdminChange w.tables (.revokeApiKey keyId) w'.tables)
      (AuthService.revokeApiKey orgId keyId) w := by
  refine returns_select_bind rfl fun _ found hfound => ?_
  have hread : found = w.tables.apiKeys.find? fun row => row.keyId = keyId :=
    (Except.ok.inj hfound).symm
  cases found with
  | none => exact .throw _
  | some apiKey =>
    refine .unless fun hown => ?_
    refine Returns.bind (P := fun _ w' => w' = w) ?_ ?_
    · exact Returns.perform fun _ _ _ _ hexec => (ApiCmd.exec_now hexec).2
    · rintro now _ rfl
      refine returns_write_bind fun _ _ t _ hupdate => ?_
      cases hupdate
      refine returns_write fun _ _ t' _ haudit => ?_
      obtain ⟨org, user, horg, huser, rfl⟩ := exec_audit rfl haudit
      cases huser
      rw [org_of_toText (not_not.mp hown) horg]
      exact .revokeApiKey apiKey now _ (List.mem_of_find?_eq_some hread.symm)

/-! ### registerApiKey -/

/-- The key that is inserted. -/
theorem insertKey_returns (data : NewApiKey) :
    Returns (api cfg) .any (fun row w' => (∀ other ∈ w.tables.apiKeys, other.id ≠ row.id) ∧
      Uuid.ofText data.orgId = some row.orgId ∧ row.status = data.status ∧
      w'.tables = { w.tables with apiKeys := w.tables.apiKeys ++ [row] })
      (AuthService.insertKey data) w := by
  refine Returns.rethrow (returns_write fun id row t hfresh hinsert => ?_) fun error => ?_
  · obtain ⟨org, horg, _, rfl, rfl⟩ :=
      ApiKeyRepository.create_eq_ok (ApiTables.write_eq_ok hinsert)
    have hunused : ∀ other ∈ w.tables.apiKeys, other.id ≠ id := by
      simp only [ApiSql.isFresh, Bool.and_eq_true] at hfresh
      simpa using hfresh.1
    exact ⟨hunused, horg, rfl, rfl⟩
  · split
    · exact ⟨_, rfl⟩
    · exact ⟨_, rfl⟩

theorem clearToken_returns (bootstrapToken : Option Text) :
    Returns (api cfg) .any (fun _ w' => ∃ organizations,
      w'.tables = { w.tables with organizations }) (AuthService.clearToken orgId bootstrapToken)
      w := by
  simp only [AuthService.clearToken]
  cases truthy bootstrapToken with
  | none => exact .ret ⟨_, rfl⟩
  | some token =>
    refine returns_write fun _ _ t _ hupdate => ?_
    obtain ⟨u, _, hupdate⟩ := map_eq_ok.mp (ApiTables.write_eq_ok hupdate)
    cases hupdate
    exact ⟨_, rfl⟩

theorem registerApiKey_returns (body : RegisterApiKeyDto)
    (bootstrapToken requestingKeyId : Option Text) :
    Returns (api cfg) .any (fun _ w' =>
      AdminChange w.tables (.registerApiKey body bootstrapToken requestingKeyId) w'.tables)
      (AuthService.registerApiKey cfg orgId body bootstrapToken requestingKeyId) w := by
  refine returns_select_bind rfl fun _ found _ => ?_
  cases found with
  | none => exact .throw _
  | some org =>
    refine Api.returns_tables_bind
      (AuthService.authorise_all (.inl rfl) (fun _ => .inl rfl) ..) fun _ w₁ hw₁ => ?_
    refine returns_ofExcept_bind fun _ _ => ?_
    have hrandom : Api.randomUUID.All
        fun command => command.isQuery = true ∨ command = .randomUUID :=
      Prog.All.perform (.inr rfl)
    refine Api.returns_tables_bind hrandom fun keyId w₂ hw₂ => ?_
    refine returns_ofExcept_bind fun scopes _ => ?_
    refine .bind (insertKey_returns _) ?_
    rintro row w₃ ⟨hfresh, horg, hstatus, hw₃⟩
    refine .bind (clearToken_returns bootstrapToken) ?_
    rintro _ w₄ ⟨organizations, hw₄⟩
    refine returns_write_bind fun _ _ t _ haudit => ?_
    obtain ⟨org', user, horg', huser, rfl⟩ := exec_audit rfl haudit
    cases huser
    cases horg.symm.trans horg'
    rw [hw₂, hw₁] at hfresh hw₃
    rw [hw₄, hw₃]
    exact .ret (.registerApiKey row organizations _ hfresh hstatus)

end Calls

/-! ### Wallets -/

section Wallets

variable {cfg : Config} {w : World} {orgId : Text}

theorem exec_walletCreate {data : NewWallet} {id : Uuid} {now : Int} {t t' : Tables} {row : Wallet}
    (h : (Sql.walletCreate data).exec id now t = (.ok row, t')) :
    Uuid.ofText data.orgId = some row.orgId ∧ row.derivationPath = data.derivationPath ∧
      t' = { t with wallets := t.wallets ++ [row] } := by
  rcases walletCreate_cases data id t with ⟨org, user, horg, _, heq⟩ | ⟨error, heq⟩
  · cases heq.symm.trans h
    exact ⟨horg, rfl, rfl⟩
  · cases heq.symm.trans h

theorem exec_walletAudit {data : NewAuditLog} {id : Uuid} {now : Int} {t t' : Tables} {u : Unit}
    (h : (Sql.auditCreate data).exec id now t = (.ok u, t')) :
    ∃ org, Uuid.ofText data.orgId = some org ∧ t' = { t with auditLog := t.auditLog ++
      [⟨org, data.userId.bind Uuid.ofText, data.walletId.bind Uuid.ofText, data.event, data.status,
        data.metadata, now⟩] } := by
  obtain ⟨org, horg, h⟩ := withUuid_eq_ok h
  cases withOptionUuid_eq_ok (withOptionUuid_eq_ok h)
  exact ⟨org, horg, rfl⟩

/-- The tables of the signing services with a wallet and its row of `audit_log`. -/
def Added (t : Tables) (seeds : List OrganizationSeed) (row : Wallet) (audit : AuditLog)
    (t' : Tables) : Prop :=
  t' = { t with
    seeds := seeds
    wallets := t.wallets ++ [row]
    auditLog := t.auditLog ++ [audit] }

theorem onBoardOrganization_returns :
    Returns (services cfg) .any (fun _ w' => ∃ seed row createdAt, row.orgId = seed.orgId ∧
      row.derivationPath = WalletService.firstDerivationPath ∧
      Added w.tables (w.tables.seeds ++ [seed]) row
        ⟨seed.orgId, none, none, .orgOnboarded, .success, .none, createdAt⟩ w'.tables)
      (WalletService.onBoardOrganization orgId) w := by
  refine returns_tables_bind (sql_queries rfl |>.mono fun _ => Cmd.writes_of_query) ?_
  intro found w₁ hw₁
  cases found with
  | some row => exact .throw _
  | none =>
    refine returns_tables_bind (Prog.All.perform rfl) fun created w₂ hw₂ => ?_
    refine returns_sql_bind fun _ _ t hseed => ?_
    rcases seedCreate_cases _ w₂.tables with ⟨org, horg, _, heq⟩ | ⟨error, heq⟩
    · cases heq.symm.trans hseed
      refine returns_sql_bind fun id row t' hwallet => ?_
      obtain ⟨horg', hpath, rfl⟩ := exec_walletCreate hwallet
      refine returns_sql_bind fun _ _ t'' haudit => ?_
      obtain ⟨org'', horg'', rfl⟩ := exec_walletAudit haudit
      cases horg.symm.trans horg'
      cases horg.symm.trans horg''
      refine .ret ⟨⟨row.orgId, created.encryptedSeed, created.seedNonce, created.encryptedDek⟩,
        row, w₂.clock, rfl, hpath, ?_⟩
      rw [← hw₁, ← hw₂]
      rfl
    · cases heq.symm.trans hseed

theorem walletAudit_code {data : NewAuditLog} {id : Uuid} {now : Int} {t : Tables} {error : JsError}
    (h : ((Sql.auditCreate data).exec id now t).1 = .error error) :
    error.code ≠ some uniqueViolation := by
  simp only [Sql.exec, AuditLogRepository.create, withUuid, withOptionUuid] at h
  repeat' split at h
  all_goals cases h
  all_goals simp [JsError.sql, invalidTextRepresentation, uniqueViolation]

/-- An insert that is refused as a duplicate leaves the tables as they were. -/
theorem walletCreate_meets (data : NewWallet) (history : List (Entry Cmd Choice)) :
    Meets (services cfg) .any (fun (outcome : Except JsError Wallet) w' _ =>
      (∀ row, outcome = .ok row → Uuid.ofText data.orgId = some row.orgId ∧
        w'.tables = { w.tables with wallets := w.tables.wallets ++ [row] }) ∧
      ∀ error, outcome = .error error → error.code = some uniqueViolation →
        w'.tables = w.tables)
      (Js.sql (.walletCreate data)) w history := by
  refine Meets.perform fun choice reply w' _ hexec => ⟨?_, ?_⟩
  · rintro row rfl
    obtain ⟨id, t, hinsert, rfl⟩ := exec_sql_ok hexec
    obtain ⟨horg, _, rfl⟩ := exec_walletCreate hinsert
    exact ⟨horg, rfl⟩
  · rintro error rfl hunique
    rcases exec_sql hexec with ⟨id, _, rfl, ⟨_, hreply⟩ | ⟨_, _, hcode, hreply⟩⟩ | ⟨_, _, _, _, rfl⟩
    · simp only [Sql.exec] at hreply ⊢
      rcases walletCreate_cases data id w.tables with ⟨org, user, _, _, heq⟩ | ⟨error', heq⟩
      · rw [heq] at hreply
        cases hreply
      · rw [heq]
    · cases hreply
      exact absurd hunique hcode
    · rfl

/-- A row of `audit_log` is never refused as a duplicate. -/
theorem walletAudit_meets (data : NewAuditLog) (history : List (Entry Cmd Choice)) :
    Meets (services cfg) .any (fun (outcome : Except JsError Unit) w' _ =>
      (outcome = .ok () → ∃ org, Uuid.ofText data.orgId = some org ∧
        w'.tables = { w.tables with auditLog := w.tables.auditLog ++ [⟨org,
          data.userId.bind Uuid.ofText, data.walletId.bind Uuid.ofText, data.event, data.status,
          data.metadata, w.clock⟩] }) ∧
      ∀ error, outcome = .error error → error.code ≠ some uniqueViolation)
      (Js.sql (.auditCreate data)) w history := by
  refine Meets.perform fun choice reply w' _ hexec => ⟨?_, ?_⟩
  · rintro rfl
    obtain ⟨id, t, haudit, rfl⟩ := exec_sql_ok hexec
    exact exec_walletAudit haudit
  · rintro error rfl
    rcases exec_sql hexec with ⟨id, _, _, ⟨_, hreply⟩ | ⟨_, _, hcode, hreply⟩⟩ |
      ⟨_, _, hcode, hreply, _⟩
    · exact walletAudit_code hreply.symm
    · cases hreply
      exact hcode
    · cases hreply
      exact hcode

theorem insertDerived_meets (userId : Option Text) (label : Text) (chainId : Nat)
    (derived : DeriveWalletResponse) (history : List (Entry Cmd Choice)) :
    Meets (services cfg) .any (fun outcome w' _ =>
      (∀ value, outcome = .ok value → ∃ row user createdAt, Added w.tables w.tables.seeds row
        ⟨row.orgId, user, some row.id, .walletCreated, .success, .none, createdAt⟩ w'.tables) ∧
      ∀ error, outcome = .error error → error.code = some uniqueViolation →
        w'.tables = w.tables)
      (WalletService.insertDerived orgId userId label chainId derived) w history := by
  refine Meets.bind (walletCreate_meets _ history) ?_ ?_
  · rintro row w₁ history₁ ⟨hrow, _⟩
    obtain ⟨horg, hw₁⟩ := hrow row rfl
    refine Meets.bind (walletAudit_meets _ history₁) ?_ ?_
    · rintro _ w₂ history₂ ⟨hok, _⟩
      obtain ⟨org, horg', hw₂⟩ := hok rfl
      cases horg.symm.trans horg'
      refine ⟨fun _ _ => ⟨row, userId.bind Uuid.ofText, w₁.clock, ?_⟩, by rintro error ⟨⟩⟩
      rw [Option.bind_some, Uuid.ofText_toText] at hw₂
      rw [hw₁] at hw₂
      exact hw₂
    · rintro error w₂ history₂ ⟨_, hcode⟩
      refine ⟨by rintro value ⟨⟩, ?_⟩
      rintro _ ⟨⟩ hunique
      exact absurd hunique (hcode error rfl)
  · rintro error w₁ history₁ ⟨_, herror⟩
    refine ⟨by rintro value ⟨⟩, ?_⟩
    rintro _ ⟨⟩ hunique
    exact herror error rfl hunique

theorem deriveAttempts_returns (userId : Option Text) (label : Text) (chainId : Nat)
    (seedRow : OrganizationSeed) (attempts : Nat) : ∀ (derivIndex : Nat) (w' : World),
    w'.tables = w.tables →
    Returns (services cfg) .any (fun _ w' => ∃ row user createdAt, Added w.tables w.tables.seeds row
        ⟨row.orgId, user, some row.id, .walletCreated, .success, .none, createdAt⟩ w'.tables)
      (WalletService.deriveAttempts orgId userId label chainId seedRow attempts derivIndex)
      w' := by
  induction attempts with
  | zero => exact fun _ _ _ => .throw _
  | succ attempts ih =>
    intro derivIndex w₁ hw₁
    refine returns_tables_bind (Prog.All.perform rfl) fun derived w₂ hw₂ => ?_
    refine Returns.tryCatch fun history =>
      (insertDerived_meets userId label chainId derived history).mono ?_
    rintro outcome w₃ _ ⟨hok, herror⟩
    rw [hw₂, hw₁] at hok
    refine ⟨hok, fun error hthrown => ?_⟩
    refine .unless fun hunique => ?_
    refine .unless fun _ => ?_
    have hw₃ := herror error hthrown (not_not.mp hunique)
    refine returns_tables_bind (sql_queries rfl |>.mono fun _ => Cmd.writes_of_query) ?_
    intro derivIndex' w₄ hw₄
    exact ih derivIndex' w₄ (hw₄.trans (hw₃.trans (hw₂.trans hw₁)))

theorem deriveWallet_returns (userId : Option Text) (label : Text) (chainId : Option Nat) :
    Returns (services cfg) .any (fun _ w' => ∃ row user createdAt, Added w.tables w.tables.seeds row
        ⟨row.orgId, user, some row.id, .walletCreated, .success, .none, createdAt⟩ w'.tables)
      (WalletService.deriveWallet orgId userId label chainId) w := by
  refine returns_tables_bind (sql_queries rfl |>.mono fun _ => Cmd.writes_of_query) ?_
  intro found w₁ hw₁
  cases found with
  | none => exact .throw _
  | some seedRow =>
    refine returns_tables_bind
      ((WalletService.checkUser_queries orgId _).mono fun _ => Cmd.writes_of_query) fun _ w₂ hw₂ => ?_
    refine returns_tables_bind (sql_queries rfl |>.mono fun _ => Cmd.writes_of_query) ?_
    intro derivIndex w₃ hw₃
    exact deriveAttempts_returns userId label _ seedRow _ derivIndex w₃
      (hw₃.trans (hw₂.trans hw₁))

end Wallets

/-- A wallet added by the signing services, in the tables of the API. -/
theorem Added.put {w : ApiWorld} {base : World} {seeds : List OrganizationSeed} {row : Wallet}
    {audit : AuditLog} (h : Added w.view.tables seeds row audit base.tables) :
    (w.put base).tables = w.tables.addWallet seeds row audit := by
  simp only [ApiWorld.put]
  rw [h]
  rfl

/-- **What a successful administrative call changes.** -/
theorem start_returns {cfg : ApiConfig} {w : ApiWorld} {orgId : Text} {call : ApiCall}
    (hadmin : call.isAdministrative = true) :
    Returns (api cfg) .any (fun _ w' => AdminChange w.tables call w'.tables)
      (call.start cfg orgId) w := by
  cases call with
  | createPolicy body => exact .map (createPolicy_returns body)
  | deletePolicy policyId => exact .map (deletePolicy_returns policyId)
  | registerApiKey body bootstrapToken requestingKeyId =>
    exact .map (registerApiKey_returns body bootstrapToken requestingKeyId)
  | revokeApiKey keyId => exact .map (revokeApiKey_returns keyId)
  | createUser body => exact .map (createUser_returns body)
  | deleteUser userId => exact .map (deleteUser_returns userId)
  | deriveWallet userId label chainId =>
    refine .map ((returns_api (deriveWallet_returns userId label chainId)).mono ?_)
    rintro value w' ⟨base, ⟨row, user, createdAt, hadded⟩, rfl⟩
    rw [hadded.put]
    exact .deriveWallet row user createdAt
  | onBoardOrganization =>
    refine .map ((returns_api onBoardOrganization_returns).mono ?_)
    rintro value w' ⟨base, ⟨seed, row, createdAt, horg, hpath, hadded⟩, rfl⟩
    rw [hadded.put]
    exact .onBoardOrganization seed row createdAt horg hpath
  | _ => cases hadmin

end AdminChanges

end BrokeTurnkey
