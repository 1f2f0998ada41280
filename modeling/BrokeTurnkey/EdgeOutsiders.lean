import BrokeTurnkey.EdgeKeys
import BrokeTurnkey.EdgeTenancy

/-!
# Outsiders

A request reaches an org in one of two ways: a key of the org has signed it, or it
presents the bootstrap token whose hash the org stores.  Requests that do neither,
however many arrive and however they interleave, leave the org as it was, and what they
are answered is not the org's.
-/

namespace BrokeTurnkey

open Interaction

/-! ### What outsiders keep -/

/-- The request has a credential of the org: a stamp that one of its active keys verifies,
    or the bootstrap token whose hash it stores. -/
inductive Authenticates (cfg : ApiConfig) (t : ApiTables) (org : Uuid) (request : HttpRequest) :
    Prop where
  | stamp {stamp : StampVerifierGuard.Parsed} {key : ApiKey} :
      (truthy request.xStamp).map StampVerifierGuard.parseStamp = some (.ok stamp) →
      key ∈ t.apiKeys → key.orgId = org → key.keyId = stamp.keyId → key.status = .active →
      StampVerifierGuard.checkSignature cfg key.publicKey stamp.signatureB64
        (StampVerifierGuard.signedPayload cfg stamp.timestamp request.rawBody) = .ok () →
      Authenticates cfg t org request
  | token {token : Text} {row : Organization} :
      truthy request.xBootstrapToken = some token → row ∈ t.organizations → row.id = org →
      row.bootstrapTokenHash = some (AuthService.tokenHash cfg token) →
      Authenticates cfg t org request

/-- Every counter that is synced in the background is of a wallet of another org. -/
def OthersJobs (org : Uuid) (t : Tables) (history : List ServiceEntry) : Prop :=
  ∀ entry ∈ history, ∀ walletId chainId walletAddress,
    entry.command = .fork (.syncNonce walletId chainId walletAddress) →
      ∃ orgId, isOrg orgId org = false ∧ HoldsWallet orgId walletId t

/-- What the signing services see of outsiders that started on the tables `t₀`. -/
structure Aside (cfg : Config) (org : Uuid) (t₀ : Tables) (w : World)
    (history : List ServiceEntry) : Prop where
  linked : Linked cfg w.tables
  untouched : t₀.Untouched org w.tables
  jobs : OthersJobs org w.tables history

/-- The same of the other tables; the keys whose use is noted are of other orgs. -/
structure AsideRest (org : Uuid) (t₀ t : ApiTables) (history : List ApiEntry) : Prop where
  ids : OwnIds t history
  users : Spares UserRow.orgId (others org) t₀.users t.users
  apiKeys : Spares ApiKey.orgId (others org) t₀.apiKeys t.apiKeys
  adminAudit : Spares AdminAudit.orgId (others org) t₀.adminAudit t.adminAudit
  touches : ∀ entry ∈ history, ∀ id lastUsedAt, entry.command = .fork (.touch id lastUsedAt) →
    ∃ orgId, isOrg orgId org = false ∧ HoldsKey orgId id t

/-- The invariant of calls on behalf of other orgs. -/
abbrev AsideInv (cfg : ApiConfig) (org : Uuid) (t₀ : ApiTables) :
    ApiWorld → List ApiEntry → Prop :=
  ApiInv (Aside cfg.services org t₀.view) (AsideRest org t₀)

/-- The invariant of outsiders. -/
abbrev OutsideInv (cfg : ApiConfig) (org : Uuid) (t₀ : ApiTables) (w : ApiWorld)
    (history : List ApiEntry) : Prop :=
  AsideInv cfg org t₀ w history ∧ RootKept org t₀ w.tables

section Aside

variable {cfg : ApiConfig} {org : Uuid} {orgId : Text} {t₀ : ApiTables}

theorem OthersJobs.mono {t t' : Tables} {history : List ServiceEntry} (h : OthersJobs org t history)
    (hwallets : t.wallets <+: t'.wallets) : OthersJobs org t' history := by
  intro entry hentry walletId chainId walletAddress hcommand
  obtain ⟨orgId, hother, hheld⟩ := h entry hentry walletId chainId walletAddress hcommand
  exact ⟨orgId, hother, hheld.mono hwallets⟩

/-- A job that is started is for another org. -/
theorem OthersJobs.cons {t t' : Tables} {history : List ServiceEntry} (h : OthersJobs org t history)
    (hother : isOrg orgId org = false) (hwallets : t.wallets <+: t'.wallets) {entry : ServiceEntry}
    (hwithin : entry.command.Within cfg.services orgId t) : OthersJobs org t' (entry :: history) := by
  intro later hlater walletId chainId walletAddress hcommand
  rcases List.mem_cons.mp hlater with rfl | hold
  · rw [hcommand] at hwithin
    exact ⟨orgId, hother, HoldsWallet.mono hwithin hwallets⟩
  · exact h.mono hwallets later hold walletId chainId walletAddress hcommand

theorem AsideRest.touches_mono {t t' : ApiTables} {history : List ApiEntry}
    (h : AsideRest org t₀ t history) (hkeys : Extends ApiKey.fixed t.apiKeys t'.apiKeys)
    {entry : ApiEntry} (hentry : entry ∈ history) {id : Uuid} {lastUsedAt : Int}
    (hcommand : entry.command = .fork (.touch id lastUsedAt)) :
    ∃ orgId, isOrg orgId org = false ∧ HoldsKey orgId id t' := by
  obtain ⟨orgId, hother, hheld⟩ := h.touches entry hentry id lastUsedAt hcommand
  exact ⟨orgId, hother, Has.apiKeys (fun id => id) hheld hkeys⟩

/-- What is done for another org. -/
theorem asideKeeper (cfg : ApiConfig) (hother : isOrg orgId org = false) (t₀ : ApiTables) :
    ApiKeeper cfg orgId (Aside cfg.services org t₀.view) (AsideRest org t₀) := by
  constructor
  case base =>
    constructor
    case linked => exact Aside.linked
    case step =>
      intro w history i command choice reply w' h hwithin hexec
      constructor
      case linked =>
        refine h.linked.exec hexec ?_
        rintro data rfl
        exact hwithin.2
      case untouched =>
        exact h.untouched.trans (.of_spared (exec_spared hexec h.linked hwithin) hother)
      case jobs => exact h.jobs.cons hother (exec_appends hexec).wallets hwithin
  case put =>
    intro w base history i command choice reply h
    refine ⟨⟨h.ids.users, h.ids.apiKeys⟩, h.users, h.apiKeys, h.adminAudit, ?_⟩
    intro entry hentry id lastUsedAt hcommand
    rcases List.mem_cons.mp hentry with rfl | hold
    · cases hcommand
    · exact h.touches entry hold id lastUsedAt hcommand
  case linked => exact fun hlinked h => ⟨hlinked, h.ids.users, h.ids.apiKeys⟩
  case step =>
    intro w history i command choice reply w' hbase hrest hwithin hexec
    have hlinked : ApiLinked cfg w.tables := ⟨hbase.linked, hrest.ids.users, hrest.ids.apiKeys⟩
    have hspared := ApiCmd.exec_spared hexec hlinked hwithin
    have hgrows := ApiCmd.exec_grows hexec
    have hafter : ApiLinked cfg w'.tables := by
      refine hlinked.exec hexec ?_
      rintro data rfl
      exact hwithin.2
    have hjobs : OthersJobs org w'.view.tables
        (past (entryOf i command choice reply :: history)) := by
      cases command with
      | base command => exact hbase.jobs.cons hother hgrows.wallets hwithin
      | _ => exact hbase.jobs.mono hgrows.wallets
    refine ⟨⟨hafter.base, hbase.untouched.trans (.of_spared hspared.base hother), hjobs⟩, ?_⟩
    refine ⟨⟨hafter.users, hafter.apiKeys⟩,
      hrest.users.trans (hspared.users.mono (others_of_isOrg hother)),
      hrest.apiKeys.trans (hspared.apiKeys.mono (others_of_isOrg hother)),
      hrest.adminAudit.trans (hspared.adminAudit.mono (others_of_isOrg hother)), ?_⟩
    intro entry hentry id lastUsedAt hcommand
    rcases List.mem_cons.mp hentry with rfl | hold
    · have hfork : command = .fork (.touch id lastUsedAt) := hcommand
      rw [hfork] at hwithin
      exact absurd hwithin not_false
    · exact hrest.touches_mono hgrows.apiKeys hold hcommand

/-- Next to the rows an org begins with. -/
theorem outside_of_aside {β : Type} {P : β → ApiWorld → List ApiEntry → Prop} {p : Api β}
    {w : ApiWorld} {history : List ApiEntry}
    (h : Yields (apiGrowth cfg .any) (AsideInv cfg org t₀) P p w history)
    (hp : p.All (ApiCmd.SparesRoot org)) :
    Yields (apiGrowth cfg .any) (OutsideInv cfg org t₀) P p w history :=
  Keeps.and (hp.mono fun _ hspares _ _ _ _ _ _ _ hroot _ hexec => exec_root hroot hspares hexec) h

/-- A command that is for no org at all. -/
theorem outside_harmless {command : ApiCmd} (hwithin : ∀ t, command.Within cfg [] t)
    (hspares : command.SparesRoot org) :
    Harmless Guard.any (api cfg) (OutsideInv cfg org t₀) command := by
  intro i choice reply w w' history hinv _ hexec
  exact ⟨(asideKeeper cfg rfl t₀).step hinv.1.1 hinv.1.2 (hwithin _) hexec,
    exec_root hinv.2 hspares hexec⟩

theorem now_outside : Api.now.All (Harmless Guard.any (api cfg) (OutsideInv cfg org t₀)) :=
  Prog.All.perform (outside_harmless (fun _ => trivial) trivial)

theorem ApiCmd.sparesRoot_of_query {statement : ApiSql} (h : statement.isQuery = true) :
    (ApiCmd.sql statement).SparesRoot org := by
  cases statement with
  | orgUpdate id hash => cases h
  | _ => trivial

/-- A statement that reads, and what its answer tells. -/
theorem outside_select {statement : ApiSql} (hquery : statement.isQuery = true)
    {P : statement.Reply → ApiWorld → Prop} {w : ApiWorld} {history : List ApiEntry}
    (hpost : ∀ id value (s : ApiWorld) history', OutsideInv cfg org t₀ s history' →
      (statement.exec id s.clock s.tables).1 = .ok value → P value s) :
    Yields (apiGrowth cfg .any) (OutsideInv cfg org t₀) (fun value w' _ => P value w')
      (Api.sql statement) w history := by
  refine Yields.perform fun i choice reply s t history' _ hinv hguard hexec =>
    ⟨outside_harmless (fun _ => ApiCmd.within_of_query hquery) (ApiCmd.sparesRoot_of_query hquery)
      i choice reply s t history' hinv hguard hexec, ?_⟩
  rintro value rfl
  obtain ⟨rfl, id, hanswer⟩ := ApiCmd.exec_select hquery hexec
  exact hpost id value t history' hinv hanswer

theorem ApiCmd.Permitted.sparesRoot {effects : List Effect} {command : ApiCmd}
    (h : command.Permitted cfg orgId effects) (hother : isOrg orgId org = false)
    (honboarding : .onboarding ∉ effects) : command.SparesRoot org := by
  cases command with
  | base command =>
    cases command with
    | sql statement =>
      cases statement with
      | seedCreate data => exact absurd (h.affects .onboarding rfl) honboarding
      | _ => trivial
    | _ => trivial
  | sql statement =>
    cases statement with
    | orgUpdate id hash =>
      have hid : id = orgId := h.administers
      exact hid ▸ hother
    | _ => trivial
  | _ => trivial

end Aside

/-- A computed value is passed on without a command. -/
theorem yields_ofExcept_bind {cfg : ApiConfig} {Inv : ApiWorld → List ApiEntry → Prop} {α β : Type}
    {P : α → ApiWorld → List ApiEntry → Prop} {result : Except JsError β} {f : β → Api α}
    {w : ApiWorld} {history : List ApiEntry}
    (h : ∀ value, result = .ok value → Yields (apiGrowth cfg .any) Inv P (f value) w history) :
    Yields (apiGrowth cfg .any) Inv P (Api.ofExcept result >>= f) w history := by
  cases result with
  | ok value => exact h value rfl
  | error error => exact .throw error

/-! ### The guard -/

section Walks

variable {cfg : ApiConfig} {org : Uuid} {t₀ : ApiTables} {request : HttpRequest}
  (houtside : ¬Authenticates cfg t₀ org request) {w : ApiWorld} {history : List ApiEntry}

theorem isOrg_toText_of_ne {other : Uuid} (h : other ≠ org) : isOrg other.toText org = false := by
  simp [isOrg, h]

/-- Its use is noted for a key of another org. -/
theorem touch_outside {key : ApiKey} {lastUsedAt : Int} (hne : key.orgId ≠ org)
    (hkey : HoldsKey key.orgId.toText key.id w.tables) :
    Yields (apiGrowth cfg .any) (OutsideInv cfg org t₀) (fun _ _ _ => True)
      (Api.fork (.touch key.id lastUsedAt)) w history := by
  refine Yields.perform fun i choice reply s t history' hgrows hinv _ hexec => ⟨?_, fun _ _ => trivial⟩
  obtain rfl := ApiCmd.exec_query rfl hexec
  obtain ⟨⟨haside, hrest⟩, hroot⟩ := hinv
  refine ⟨⟨haside, ⟨hrest.ids.users, hrest.ids.apiKeys⟩, hrest.users, hrest.apiKeys,
    hrest.adminAudit, ?_⟩, hroot⟩
  intro entry hentry id time hcommand
  rcases List.mem_cons.mp hentry with rfl | hold
  · cases hcommand
    exact ⟨_, isOrg_toText_of_ne hne, Has.apiKeys (fun id => id) hkey hgrows.1.apiKeys⟩
  · exact hrest.touches entry hold id time hcommand

/-- A key of the org that is looked up is one it began with. -/
theorem findByKeyId_outside (keyId : Text) :
    Yields (apiGrowth cfg .any) (OutsideInv cfg org t₀)
      (fun found w' _ => ∀ key, found = some key → key.keyId = keyId ∧
        HoldsKey key.orgId.toText key.id w'.tables ∧ (key.orgId = org → key ∈ t₀.apiKeys))
      (Api.sql (.keyFindByKeyId keyId)) w history := by
  refine outside_select rfl ?_
  rintro id _ s history' hinv hanswer key rfl
  have hfound : s.tables.apiKeys.find? (fun row => row.keyId = keyId) = some key :=
    Except.ok.inj hanswer
  have hmem := List.mem_of_find?_eq_some hfound
  refine ⟨by simpa using List.find?_some hfound, ⟨key, hmem, rfl, by simp [isOrg]⟩, ?_⟩
  exact fun hown => (hinv.1.2.apiKeys.mem_iff (others_eq_false.mpr hown)).mp hmem

namespace StampVerifierGuard

include houtside

/-- A key that is accepted is of another org. -/
theorem acceptKey_outside {stamp : Parsed} {key : ApiKey}
    (hparsed : (truthy request.xStamp).map parseStamp = some (.ok stamp))
    (hkeyId : key.keyId = stamp.keyId) (hkey : HoldsKey key.orgId.toText key.id w.tables)
    (hold : key.orgId = org → key ∈ t₀.apiKeys) :
    Yields (apiGrowth cfg .any) (OutsideInv cfg org t₀)
      (fun user _ _ => isOrg user.orgId org = false) (acceptKey cfg request stamp key) w
      history := by
  have hexpired : (isExpired key.expiresAt).All
      (Harmless Guard.any (api cfg) (OutsideInv cfg org t₀)) := by
    cases key.expiresAt with
    | none => trivial
    | some time => exact Prog.All.bind now_outside fun _ => trivial
  rw [acceptKey]
  split
  · exact .throw _
  · rename_i hactive
    refine Yields.harmless_bind hexpired fun expired s₁ h₁ hgrows₁ => ?_
    split
    · exact .throw _
    · refine yields_ofExcept_bind fun _ hsigned => ?_
      have hne : key.orgId ≠ org := fun hown => houtside
        (.stamp hparsed (hold hown) hown hkeyId (of_not_not hactive) hsigned)
      refine Yields.harmless_bind now_outside fun now s₂ h₂ hgrows₂ => ?_
      have hheld : HoldsKey key.orgId.toText key.id s₂.tables :=
        Has.apiKeys (fun id => id) hkey (hgrows₁.1.trans hgrows₂.1).apiKeys
      exact Yields.bind (touch_outside hne hheld) fun _ s₃ h₃ _ _ => .ret (isOrg_toText_of_ne hne)

theorem canActivate_outside (route : Route) :
    Yields (apiGrowth cfg .any) (OutsideInv cfg org t₀)
      (fun user _ _ => ∀ u, user = some u → isOrg u.orgId org = false)
      (canActivate cfg route request) w history := by
  rw [canActivate]
  split
  · exact .ret (by rintro _ ⟨⟩)
  · split
    · split
      · exact .ret (by rintro _ ⟨⟩)
      · exact .throw _
    · rename_i header hheader
      have hverify : Yields (apiGrowth cfg .any) (OutsideInv cfg org t₀)
          (fun user _ _ => isOrg user.orgId org = false) (verifyStamp cfg request header) w
          history := by
        refine yields_ofExcept_bind fun stamp hparse => ?_
        have hparsed : (truthy request.xStamp).map parseStamp = some (.ok stamp) := by
          rw [hheader, Option.map_some, hparse]
        refine Yields.harmless_bind now_outside fun now s₁ h₁ _ => ?_
        split
        · exact .throw _
        · refine Yields.bind (findByKeyId_outside stamp.keyId) fun found s₂ h₂ _ hfound => ?_
          cases found with
          | none => exact .throw _
          | some key =>
            obtain ⟨hkeyId, hkey, hold⟩ := hfound key rfl
            exact acceptKey_outside houtside hparsed hkeyId hkey hold
      refine Yields.bind hverify fun user s history' _ huser => .ret ?_
      rintro _ ⟨⟩
      exact huser

end StampVerifierGuard

/-! ### The handlers -/

/-- A reply that is not about the org: it is about the row of another one, or about
    records of another one. -/
def Response.OfOther (org : Uuid) (t : ApiTables) : Response → Prop
  | .service outcome =>
    (∃ result, outcome = .created result ∧ isOrg result.org.id org = false) ∨
      ∃ orgId, isOrg orgId org = false ∧ outcome.Belongs orgId t
  | .organization shown => ∀ found, shown = some found → isOrg found.id org = false

theorem Response.OfOther.grow {t t' : ApiTables} (h : t.Grows t') {response : Response}
    (hother : response.OfOther org t) : response.OfOther org t' := by
  cases response with
  | service outcome =>
    rcases hother with hcreated | ⟨orgId, hne, hbelongs⟩
    · exact .inl hcreated
    · exact .inr ⟨orgId, hne, hbelongs.grow h⟩
  | organization shown => exact hother

/-- A call on behalf of another org. -/
theorem callService_outside (hsha : Function.Injective cfg.services.sha256) {user : Option AuthUser}
    (huser : ∀ u, user = some u → isOrg u.orgId org = false) {operation : ApiCall}
    (honboarding : .onboarding ∉ operation.effects) :
    Yields (apiGrowth cfg .any) (OutsideInv cfg org t₀)
      (fun response w' _ => response.OfOther org w'.tables) (callService cfg user operation) w
      history := by
  cases user with
  | none => exact .throw _
  | some user =>
    have hother := huser user rfl
    have hcall : Yields (apiGrowth cfg .any) (AsideInv cfg org t₀)
        (fun outcome w' _ => outcome.Belongs user.orgId w'.tables)
        (operation.start cfg user.orgId) w history :=
      (asideKeeper cfg hother t₀).start_yields hsha operation
    have houtcome := outside_of_aside hcall (operation.start_permitted.mono fun _ hpermitted =>
      hpermitted.sparesRoot hother honboarding)
    exact Yields.map (houtcome.mono fun _ _ _ hbelongs => .inr ⟨_, hother, hbelongs⟩)

/-- The row of an organization that is looked up by its id. -/
theorem findOne_outside {orgId : Text} (hother : isOrg orgId org = false) :
    Yields (apiGrowth cfg .any) (OutsideInv cfg org t₀)
      (fun shown _ _ => ∀ found, shown = some found → isOrg found.id org = false)
      (OrganizationsService.findOne orgId) w history := by
  have hselect : Yields (apiGrowth cfg .any) (OutsideInv cfg org t₀)
      (fun (row : Option Organization) _ _ => ∀ found, row = some found → found.id ≠ org)
      (Api.sql (.orgFindById orgId)) w history := by
    refine outside_select rfl ?_
    rintro id _ s history' _ hanswer found rfl hid
    obtain ⟨_, hnamed⟩ := mem_of_findById hanswer rfl
    rw [isOrg, hnamed, hid] at hother
    simp at hother
  refine Yields.bind hselect fun row s history' _ hrow => .ret ?_
  intro found hfound
  obtain ⟨found, rfl, rfl⟩ := Option.map_eq_some_iff.mp hfound
  exact isOrg_toText_of_ne (hrow found rfl)

/-- An organization is shown to its own keys only. -/
theorem findBySlug_outside {orgId slug : Text} (hother : isOrg orgId org = false) :
    Yields (apiGrowth cfg .any) (OutsideInv cfg org t₀)
      (fun shown _ _ => ∀ found, shown = some found → isOrg found.id org = false)
      (OrganizationsController.findBySlug orgId slug) w history := by
  have hselect : (OrganizationsService.findBySlug slug).All
      (Harmless Guard.any (api cfg) (OutsideInv cfg org t₀)) :=
    Prog.All.bind (Prog.All.perform (outside_harmless (fun _ => trivial) trivial)) fun _ => trivial
  refine Yields.harmless_bind hselect fun row s history' _ => .ret ?_
  intro found hfound
  have hown : found.id = orgId := of_decide_eq_true (Option.filter_eq_some_iff.mp hfound).2
  exact hown ▸ hother

theorem WalletService.onBoardOrganization_sparesRoot {orgId : Text}
    (hother : isOrg orgId org = false) :
    (onBoardOrganization orgId).api.All (ApiCmd.SparesRoot org) := by
  refine Prog.All.lift (Prog.All.bind (Prog.All.perform trivial) fun seedRow => ?_)
  cases seedRow with
  | some seedRow => trivial
  | none =>
    refine Prog.All.bind (Prog.All.perform trivial) fun created => ?_
    refine Prog.All.bind (Prog.All.perform hother) fun _ => ?_
    refine Prog.All.bind (Prog.All.perform trivial) fun _ => ?_
    exact Prog.All.bind (Prog.All.perform trivial) fun _ => trivial

/-- An organization that is created is another one. -/
theorem OrganizationsService.create_outside (name slug : Text) :
    Yields (apiGrowth cfg .any) (OutsideInv cfg org t₀)
      (fun result _ _ => isOrg result.org.id org = false) (create cfg name slug) w history := by
  have hselect : (Api.sql (.orgFindBySlug slug)).All
      (Harmless Guard.any (api cfg) (OutsideInv cfg org t₀)) :=
    Prog.All.perform (outside_harmless (fun _ => trivial) trivial)
  refine Yields.harmless_bind hselect fun found s₁ h₁ _ => ?_
  cases found with
  | some row => exact .throw _
  | none =>
    have hcreate : Yields (apiGrowth cfg .any) (OutsideInv cfg org t₀)
        (fun (row : Organization) _ _ => row.id ≠ org) (Api.sql (.orgCreate name slug)) s₁ h₁ := by
      have hharmless : Harmless Guard.any (api cfg) (OutsideInv cfg org t₀)
          (.sql (.orgCreate name slug)) := outside_harmless (fun _ => trivial) trivial
      refine Yields.perform fun i choice reply s t history' _ hinv hguard hexec =>
        ⟨hharmless i choice reply s t history' hinv hguard hexec, ?_⟩
      rintro row rfl
      obtain ⟨id, _, hfresh, hanswer, _⟩ := ApiCmd.exec_sql_ok hexec
      rcases orgCreate_cases hfresh hinv.2.founded s.clock with ⟨_, hne, heq⟩ | ⟨error, heq⟩
      · cases heq.symm.trans hanswer
        exact of_decide_eq_true hne
      · cases heq.symm.trans hanswer
    refine Yields.bind hcreate fun row s₂ h₂ _ hne => ?_
    have hother := isOrg_toText_of_ne hne
    have hK := asideKeeper cfg hother t₀
    refine Yields.bind (outside_of_aside (hK.lift hK.base.onBoardOrganization_yields)
      (WalletService.onBoardOrganization_sparesRoot hother)) fun wallet s₃ h₃ _ _ => ?_
    refine Yields.bind (outside_of_aside hK.generateBootstrapToken_yields
      ((AuthService.generateBootstrapToken_permitted (.head [])).mono fun _ hpermitted =>
        hpermitted.sparesRoot hother (by decide))) fun token s₄ h₄ _ _ => ?_
    exact .ret hother

include houtside in
/-- The org a key is registered for is another one. -/
theorem ApiKeysController.resolveOrgId_outside {user : Option AuthUser}
    (huser : ∀ u, user = some u → isOrg u.orgId org = false) :
    Yields (apiGrowth cfg .any) (OutsideInv cfg org t₀)
      (fun orgId _ _ => ∀ named, orgId = some named → isOrg named org = false)
      (resolveOrgId cfg user (truthy request.xBootstrapToken)) w history := by
  simp only [resolveOrgId]
  split
  · rename_i orgId horg
    obtain ⟨u, hu, rfl⟩ := Option.map_eq_some_iff.mp (Option.filter_eq_some_iff.mp horg).1
    refine .ret ?_
    rintro _ ⟨⟩
    exact huser u hu
  · rename_i token _ htoken
    have hselect : Yields (apiGrowth cfg .any) (OutsideInv cfg org t₀)
        (fun (row : Option Organization) _ _ => ∀ found, row = some found → found.id ≠ org)
        (Api.sql (.orgFindByBootstrapTokenHash (AuthService.tokenHash cfg token))) w history := by
      refine outside_select rfl ?_
      rintro id _ s history' hinv hanswer found rfl hid
      have hfound := Except.ok.inj hanswer
      have hmem := List.mem_of_find?_eq_some hfound
      have hhash : found.bootstrapTokenHash = some (AuthService.tokenHash cfg token) := by
        simpa using List.find?_some hfound
      have hold := (hinv.2.organizations.mem_iff (others_eq_false.mpr hid)).mp hmem
      exact houtside (.token htoken hold hid hhash)
    refine Yields.bind hselect fun row s history' _ hrow => .ret ?_
    intro named hnamed
    obtain ⟨found, rfl, rfl⟩ := Option.map_eq_some_iff.mp hnamed
    exact isOrg_toText_of_ne (hrow found rfl)
  · exact .ret (by rintro _ ⟨⟩)

include houtside in
theorem ApiKeysController.registerApiKey_outside {user : Option AuthUser}
    (huser : ∀ u, user = some u → isOrg u.orgId org = false) (body : RegisterApiKeyDto) :
    Yields (apiGrowth cfg .any) (OutsideInv cfg org t₀)
      (fun key w' _ => ∃ orgId, isOrg orgId org = false ∧ HasApiKey orgId key.id w'.tables)
      (registerApiKey cfg body request user) w history := by
  refine Yields.bind (resolveOrgId_outside houtside huser) fun named s₁ h₁ _ hnamed => ?_
  split
  · exact .throw _
  · rename_i orgId horg
    have hother : isOrg orgId org = false := hnamed orgId (Option.filter_eq_some_iff.mp horg).1
    have hspares : ∀ keyId, (AuthService.registerApiKey cfg orgId body
        (truthy request.xBootstrapToken) keyId).All (ApiCmd.SparesRoot org) := by
      intro keyId
      refine (AuthService.registerApiKey_permitted (.head [.organizations]) (.tail _ (.head []))
        body _ keyId).mono fun _ hpermitted => hpermitted.sparesRoot hother (by decide)
    refine (outside_of_aside ((asideKeeper cfg hother t₀).registerApiKey_yields body _ _)
      (hspares _)).mono ?_
    exact fun key s history' hhas => ⟨orgId, hother, hhas⟩

include houtside in
/-- What a handler does for a caller of another org. -/
theorem Endpoint.handler_outside (hsha : Function.Injective cfg.services.sha256)
    {user : Option AuthUser} (huser : ∀ u, user = some u → isOrg u.orgId org = false)
    (endpoint : Endpoint) :
    Yields (apiGrowth cfg .any) (OutsideInv cfg org t₀)
      (fun response w' _ => response.OfOther org w'.tables) (endpoint.handler cfg request user) w
      history := by
  have horganization : ∀ {p : Text → Api (Option PublicOrganization)},
      (∀ u, isOrg u org = false → Yields (apiGrowth cfg .any) (OutsideInv cfg org t₀)
        (fun shown _ _ => ∀ found, shown = some found → isOrg found.id org = false) (p u) w
        history) →
      Yields (apiGrowth cfg .any) (OutsideInv cfg org t₀)
        (fun response w' _ => Response.OfOther org w'.tables response)
        (Api.ofExcept (currentOrgId user) >>= fun orgId => Response.organization <$> p orgId) w
        history := by
    intro p hp
    refine yields_ofExcept_bind fun orgId horg => Yields.map (hp orgId ?_)
    cases user with
    | none => cases horg
    | some user =>
      cases horg
      exact huser user rfl
  cases endpoint with
  | createOrganization body =>
    refine Yields.map ((OrganizationsService.create_outside body.name body.slug).mono ?_)
    exact fun result _ _ hother => .inl ⟨result, rfl, hother⟩
  | findOrganization => exact horganization fun orgId => findOne_outside
  | findBySlug slug => exact horganization fun orgId => findBySlug_outside
  | registerApiKey body =>
    refine Yields.map ((ApiKeysController.registerApiKey_outside houtside huser body).mono ?_)
    exact fun _ _ _ hhas => .inr hhas
  | _ => exact callService_outside hsha huser (by simp [ApiCall.effects])

include houtside in
/-- What the request of an outsider does. -/
theorem Incoming.handle_outside (hsha : Function.Injective cfg.services.sha256)
    {incoming : Incoming} (hrequest : incoming.request = request) :
    Yields (apiGrowth cfg .any) (OutsideInv cfg org t₀)
      (fun response w' _ => response.OfOther org w'.tables) (incoming.handle cfg) w history := by
  rw [← hrequest] at houtside
  refine Yields.bind (StampVerifierGuard.canActivate_outside houtside _) ?_
  intro user s history' _ huser
  refine yields_ofExcept_bind fun _ _ => ?_
  refine yields_ofExcept_bind fun _ _ => ?_
  refine yields_ofExcept_bind fun _ _ => ?_
  exact Endpoint.handler_outside houtside hsha huser _

end Walks

/-! ### Runs of outsiders -/

section Runs

variable {cfg : ApiConfig} {org : Uuid} {orgId : Text} {t₀ : ApiTables} {w : ApiWorld}
  {history : List ApiEntry}

/-- A job that is done for another org while a fact holds that stays true. -/
theorem job_outside {α : Type} (hother : isOrg orgId org = false) {F : ApiTables → Prop}
    (hstable : ∀ t t', t.Grows t' → F t → F t') {p : Api α} {f : α → ApiOutcome}
    (hdone : ∀ value, f value = .done)
    (hwithin : p.All fun command => ∀ t, F t → command.Within cfg orgId t)
    (hspares : p.All (ApiCmd.SparesRoot org)) (hF : F w.tables) :
    Yields (apiGrowth cfg .any) (OutsideInv cfg org t₀)
      (fun response w' _ => Response.OfOther org w'.tables response)
      (Response.service <$> f <$> p) w history := by
  have hkept : Yields (apiGrowth cfg .any) (AsideInv cfg org t₀) (fun _ _ _ => True) p w history :=
    (asideKeeper cfg hother t₀).of_within hstable hwithin hF
  refine Yields.map (Yields.map ((outside_of_aside hkept hspares).mono fun value _ _ _ => ?_))
  rw [hdone value]
  exact .inr ⟨orgId, hother, trivial⟩

/-- What a request leaves running is for another org. -/
theorem spawned_outside {i : Nat} {command : ApiCmd} {choice : Choice}
    {reply : Except JsError command.Reply}
    (hinv : OutsideInv cfg org t₀ w (entryOf i command choice reply :: history))
    {thread : Api Response} (hthread : thread ∈ (edge cfg).spawns command) :
    Yields (apiGrowth cfg .any) (OutsideInv cfg org t₀)
      (fun response w' _ => response.OfOther org w'.tables) thread w
      (entryOf i command choice reply :: history) := by
  obtain ⟨job, hjob, rfl⟩ := List.mem_map.mp hthread
  cases command with
  | base command =>
    cases command with
    | fork job =>
      rw [List.mem_singleton.mp hjob]
      cases job with
      | syncNonce walletId chainId walletAddress =>
        obtain ⟨orgId, hother, hheld⟩ :=
          hinv.1.1.jobs _ List.mem_cons_self walletId chainId walletAddress rfl
        have hstable : ∀ t t' : ApiTables, t.Grows t' → HoldsWallet orgId walletId t.view →
            HoldsWallet orgId walletId t'.view :=
          fun _ _ hgrows hheld => HoldsWallet.mono hheld hgrows.wallets
        refine job_outside hother hstable (fun _ => rfl) ?_ ?_ hheld
        · exact Prog.All.lift ((Job.start_within chainId walletAddress).mono
            fun _ hwithin (t : ApiTables) => hwithin t.view)
        · refine Prog.All.lift (Prog.All.bind (Prog.All.bind ?_ fun _ => ?_) fun _ => trivial)
          · exact rpcCallWithRetry_all (fun _ => trivial) cfg.services chainId
          · exact Prog.All.perform trivial
    | _ => cases hjob
  | fork job =>
    rw [List.mem_singleton.mp hjob]
    cases job with
    | touch apiKeyId lastUsedAt =>
      obtain ⟨orgId, hother, hheld⟩ :=
        hinv.1.2.touches _ List.mem_cons_self apiKeyId lastUsedAt rfl
      have hstable : ∀ t t' : ApiTables, t.Grows t' → HoldsKey orgId apiKeyId t →
          HoldsKey orgId apiKeyId t' :=
        fun _ _ hgrows hheld => Has.apiKeys (fun id => id) hheld hgrows.apiKeys
      refine job_outside hother hstable (fun _ => rfl) ?_ ?_ hheld
      · exact Prog.All.tryCatch (Prog.All.perform fun _ hheld => hheld) fun _ => trivial
      · exact Prog.All.tryCatch (Prog.All.perform trivial) fun _ => trivial
  | _ => cases hjob

/-- Outsiders start with nothing done. -/
theorem outside_start (hlinked : ApiLinked cfg w.tables)
    (horg : ∃ row ∈ w.tables.organizations, row.id = org) : OutsideInv cfg org w.tables w [] := by
  have hnone : ∀ entry : ApiEntry, entry ∉ [] := fun _ => List.not_mem_nil
  refine ⟨⟨⟨hlinked.base, .refl _ _, ?_⟩, ⟨hlinked.users, hlinked.apiKeys⟩, .refl _ _ _,
    .refl _ _ _, .refl _ _ _, fun entry hentry => absurd hentry (hnone entry)⟩,
    .refl _ _ _, .refl _ _ _, horg⟩
  exact fun _ hentry => absurd hentry List.not_mem_nil

theorem outside_event (h : OutsideInv cfg org t₀ w history) (event : ApiEvent) :
    OutsideInv cfg org t₀ (w.event event) history := by
  cases event with
  | tick duration => exact ⟨⟨⟨h.1.1.linked, h.1.1.untouched, h.1.1.jobs⟩, h.1.2⟩, h.2⟩
  | evict keep => exact ⟨⟨⟨h.1.1.linked, h.1.1.untouched, h.1.1.jobs⟩, h.1.2⟩, h.2⟩

/-- **Outsiders leave an org alone.**  Take any state that is reached through the edge from
    empty tables, an org that exists in it, and any requests of which none carries a
    credential of the org.  However they interleave, every row of the org stays as it is,
    the counters of its wallets too, and no reply is about the org. -/
theorem outsiders_leave_alone (hsha : Function.Injective cfg.services.sha256)
    {arrivals : List Arrival} {clock : Int} {violation : JsError} {p : EdgePool}
    (hreach : Reach (edge cfg) .any (edgePool cfg arrivals (ApiWorld.empty clock violation)) p)
    (horg : ∃ row ∈ p.state.tables.organizations, row.id = org) {requests : List Incoming}
    (houtside : ∀ incoming ∈ requests, ¬Authenticates cfg p.state.tables org incoming.request)
    {p' : EdgePool}
    (hrun : Reach (edge cfg) .any (edgePool cfg (requests.map Arrival.request) p.state) p') :
    p.state.tables.Untouched org p'.state.tables ∧
      ∀ response, .ret response ∈ p'.threads → response.OfOther org p'.state.tables := by
  have hstart := outside_start (edge_linked hsha hreach) horg
  have hthreads : ∀ thread ∈ (edgePool cfg (requests.map Arrival.request) p.state).threads,
      Yields (edgeGrowth cfg) (OutsideInv cfg org p.state.tables)
        (fun response w' _ => response.OfOther org w'.tables) thread p.state [] := by
    intro thread hthread
    obtain ⟨arrival, harrival, rfl⟩ := List.mem_map.mp hthread
    obtain ⟨incoming, hincoming, rfl⟩ := List.mem_map.mp harrival
    exact keeps_edge (Incoming.handle_outside (houtside incoming hincoming) hsha rfl)
  have hstable : ∀ (outcome : Except JsError Response) s history s' history',
      (edgeGrowth cfg).Grows s history s' history' →
      (∀ value, outcome = .ok value → value.OfOther org s.tables) →
        ∀ value, outcome = .ok value → value.OfOther org s'.tables :=
    fun _ _ _ _ _ hgrows h value hvalue => (h value hvalue).grow hgrows.1
  obtain ⟨⟨⟨hbase, hrest⟩, hroot⟩, hends⟩ := Reach.outcomes_of_issued (edgeGrowth cfg) hstable hrun
    hstart hthreads (fun _ _ _ _ _ _ hinv _ hthread => keeps_edge (spawned_outside hinv hthread))
    fun event _ _ _ h _ henv => Option.some.inj henv ▸ outside_event h event
  refine ⟨⟨hroot.organizations, hroot.seeds, hbase.untouched, hrest.users, hrest.apiKeys,
    hrest.adminAudit⟩, ?_⟩
  exact fun response hresponse => hends _ hresponse response rfl

end Runs

namespace ApiSample

/-- Another organization is created. -/
def newcomer : Incoming :=
  sent "/organizations".toList none none (.createOrganization ⟨"Two".toList, "two".toList⟩)

theorem newcomer_outside (t : ApiTables) : ¬Authenticates config t org newcomer.request := by
  rintro (⟨hstamp, _⟩ | ⟨htoken, _⟩)
  · cases hstamp
  · cases htoken

/-- An organization with a key and a wallet, and then a newcomer. -/
theorem settled : ∃ p p',
    Reach (edge config) .any
      (edgePool config (founding listing) (ApiWorld.empty 0 wrappedViolation)) p ∧
      (∃ row ∈ p.state.tables.organizations, row.id = org) ∧
      Reach (edge config) .any (edgePool config [.request newcomer] p.state) p' ∧
      p'.state.tables.organizations.length = 2 := by
  obtain ⟨p, hreach, hp⟩ := Reach.exists_of_run (edge config) .any
    (edgePool config (founding listing) (ApiWorld.empty 0 wrappedViolation)) foundingMoves
    (fun p => (p.state.tables.organizations.any fun row => row.id = org) &&
      ((edge config).run Guard.any (TenantSample.creation 0 (Sample.freshId 11) (Sample.freshId 4)
        (Sample.freshId 6) "0xtwo") (edgePool config [.request newcomer] p.state)).any
          fun p' => p'.state.tables.organizations.length = 2)
    (by decide)
  obtain ⟨horg, hlength⟩ := Bool.and_eq_true_iff.mp hp
  obtain ⟨row, hrow, hid⟩ := List.any_eq_true.mp horg
  obtain ⟨p', hrun, hp'⟩ := Reach.exists_of_run _ _ _ _ _ hlength
  exact ⟨p, p', hreach, ⟨row, hrow, of_decide_eq_true hid⟩, hrun, of_decide_eq_true hp'⟩

end ApiSample

open ApiSample in
/-- A second organization is created, and the first does not notice. -/
theorem outsiders_leave_alone_newcomer : ∃ p p',
    Reach (edge config) .any
      (edgePool config (founding listing) (ApiWorld.empty 0 wrappedViolation)) p ∧
      Reach (edge config) .any (edgePool config [.request newcomer] p.state) p' ∧
      p'.state.tables.organizations.length = 2 ∧
      p.state.tables.Untouched org p'.state.tables := by
  obtain ⟨p, p', hreach, horg, hrun, hlength⟩ := settled
  refine ⟨p, p', hreach, hrun, hlength, ?_⟩
  have houtside : ∀ incoming ∈ [newcomer],
      ¬Authenticates config p.state.tables org incoming.request := by
    intro incoming hincoming
    rw [List.mem_singleton.mp hincoming]
    exact newcomer_outside p.state.tables
  exact (outsiders_leave_alone Function.injective_id hreach horg houtside hrun).1

end BrokeTurnkey
