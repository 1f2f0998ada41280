import BrokeTurnkey.Api.Tenancy

/-!
# The calls of the API on behalf of one org

Each of the calls looks up what it is given by an id of any org, compares the org, and
goes on.  Whatever the ids are, its commands are for the org it is called with, and
what it returns is the org's.
-/

namespace BrokeTurnkey

open Interaction

/-! ### What is returned -/

/-- The text names the same org. -/
def SameOrg (orgId shown : Text) : Prop := Uuid.ofText shown = Uuid.ofText orgId

theorem SameOrg.of_isOrg {orgId : Text} {org : Uuid} (h : isOrg orgId org = true) :
    SameOrg orgId org.toText := by
  rw [SameOrg, Uuid.ofText_toText, isOrg_iff.mp h]

/-- The wallet with this id is the org's. -/
def HasWallet (orgId id : Text) (t : ApiTables) : Prop :=
  Has (fun row => row.id.toText) Wallet.orgId (isOrg orgId) id t.base.wallets

/-- The signing request with this id is the org's. -/
def HasRequest (orgId id : Text) (t : ApiTables) : Prop :=
  Has (fun row => row.id.toText) SigningRequest.orgId (isOrg orgId) id t.base.requests

/-- The user with this id is the org's. -/
def HasUser (orgId id : Text) (t : ApiTables) : Prop :=
  Has (fun row => row.id.toText) UserRow.orgId (isOrg orgId) id t.users

/-- The API key with this id is the org's. -/
def HasApiKey (orgId id : Text) (t : ApiTables) : Prop :=
  Has (fun row => row.id.toText) ApiKey.orgId (isOrg orgId) id t.apiKeys

def WalletView.Belongs (orgId : Text) (t : ApiTables) (wallet : WalletView) : Prop :=
  HasWallet orgId wallet.id t ∧ SameOrg orgId wallet.orgId

def SigningRequestView.Belongs (orgId : Text) (t : ApiTables) (request : SigningRequestView) :
    Prop :=
  HasRequest orgId request.id t ∧ SameOrg orgId request.orgId

def Policy.Belongs (orgId : Text) (t : ApiTables) (policy : Policy) : Prop :=
  Has Policy.id Policy.orgId (isOrg orgId) policy.id t.base.policies ∧
    isOrg orgId policy.orgId = true

def UserView.Belongs (orgId : Text) (t : ApiTables) (user : UserView) : Prop :=
  HasUser orgId user.id t ∧ ∀ shown, user.orgId = some shown → SameOrg orgId shown

/-- The event records this signature of the hash. -/
def AdminEvent.Records (result : TypedSignResult) : AdminEvent → Prop
  | .typedDataSigned _ hash signature | .messageSigned hash signature =>
    hash = result.hash ∧ signature = result.signature
  | _ => False

/-- The signature is one the audit log of the org has. -/
def TypedSignResult.Belongs (orgId : Text) (t : ApiTables) (result : TypedSignResult) : Prop :=
  ∃ audit ∈ t.adminAudit, isOrg orgId audit.orgId = true ∧ audit.event.Records result

/-- A row of `audit_log` that is the org's. -/
def AuditEntry.Belongs (orgId : Text) (t : ApiTables) (entry : AuditEntry) : Prop :=
  entry ∈ AuditLogRepository.entries t ∧ isOrg orgId entry.orgId = true

/-- Every record that is returned is the org's; a token is a random value. -/
def ApiOutcome.Belongs (orgId : Text) (t : ApiTables) : ApiOutcome → Prop
  | .onboarded result => result.orgId = orgId
  | .derived result => HasWallet orgId result.walletId t
  | .wallet view => view.Belongs orgId t
  | .wallets views => ∀ view ∈ views, view.Belongs orgId t
  | .signingRequest view => view.Belongs orgId t
  | .signingRequests views => ∀ view ∈ views, view.Belongs orgId t
  | .signResult result => HasRequest orgId result.signingRequestId t
  | .policy row => row.Belongs orgId t
  | .policies rows => ∀ row ∈ rows, row.Belongs orgId t
  | .user view => view.Belongs orgId t
  | .users views => ∀ view ∈ views, view.Belongs orgId t
  | .registered key => HasApiKey orgId key.id t
  | .apiKeys keys => ∀ key ∈ keys, HasApiKey orgId key.id t
  | .auditLog entries => ∀ entry ∈ entries, entry.Belongs orgId t
  | .typedSignResult result => result.Belongs orgId t
  | .bootstrapToken token => ∃ drawn : Uuid, token = drawn.toText
  | .done => True
  -- no call returns these
  | .created _ | .admitted _ => False

section Grow

variable {orgId : Text} {t t' : ApiTables} (h : t.Grows t')
include h

theorem HasWallet.grow {id : Text} (hhas : HasWallet orgId id t) : HasWallet orgId id t' :=
  Has.of_prefix hhas h.wallets

theorem HasRequest.grow {id : Text} (hhas : HasRequest orgId id t) : HasRequest orgId id t' :=
  Has.requests Uuid.toText hhas h.requests

theorem HasUser.grow {id : Text} (hhas : HasUser orgId id t) : HasUser orgId id t' :=
  Has.users Uuid.toText hhas h.users

theorem HasApiKey.grow {id : Text} (hhas : HasApiKey orgId id t) : HasApiKey orgId id t' :=
  Has.apiKeys Uuid.toText hhas h.apiKeys

theorem Policy.Belongs.grow {policy : Policy} (hbelongs : policy.Belongs orgId t) :
    policy.Belongs orgId t' :=
  ⟨Has.policies (fun id => id) hbelongs.1 h.policies, hbelongs.2⟩

theorem TypedSignResult.Belongs.grow {result : TypedSignResult}
    (hbelongs : result.Belongs orgId t) : result.Belongs orgId t' := by
  obtain ⟨audit, haudit, hown⟩ := hbelongs
  exact ⟨audit, h.adminAudit.subset haudit, hown⟩

theorem AuditEntry.Belongs.grow {entry : AuditEntry} (hbelongs : entry.Belongs orgId t) :
    entry.Belongs orgId t' := by
  obtain ⟨hentry, hown⟩ := hbelongs
  refine ⟨?_, hown⟩
  simp only [AuditLogRepository.entries, List.mem_append, List.mem_map] at hentry ⊢
  rcases hentry with ⟨row, hrow, rfl⟩ | ⟨row, hrow, rfl⟩
  · exact .inl ⟨row, h.auditLog.subset hrow, rfl⟩
  · exact .inr ⟨row, h.adminAudit.subset hrow, rfl⟩

/-- What was the org's stays the org's. -/
theorem ApiOutcome.Belongs.grow {outcome : ApiOutcome} (hbelongs : outcome.Belongs orgId t) :
    outcome.Belongs orgId t' := by
  cases outcome with
  | onboarded result => exact hbelongs
  | derived wallet => exact HasWallet.grow h hbelongs
  | wallet wallet => exact ⟨hbelongs.1.grow h, hbelongs.2⟩
  | wallets wallets =>
    intro wallet hwallet
    exact ⟨(hbelongs wallet hwallet).1.grow h, (hbelongs wallet hwallet).2⟩
  | signingRequest request => exact ⟨hbelongs.1.grow h, hbelongs.2⟩
  | signingRequests requests =>
    intro request hrequest
    exact ⟨(hbelongs request hrequest).1.grow h, (hbelongs request hrequest).2⟩
  | signResult result => exact HasRequest.grow h hbelongs
  | typedSignResult result => exact TypedSignResult.Belongs.grow h hbelongs
  | policy policy => exact Policy.Belongs.grow h hbelongs
  | policies policies => exact fun policy hpolicy => (hbelongs policy hpolicy).grow h
  | user user => exact ⟨hbelongs.1.grow h, hbelongs.2⟩
  | users users =>
    intro user huser
    exact ⟨(hbelongs user huser).1.grow h, (hbelongs user huser).2⟩
  | registered key => exact HasApiKey.grow h hbelongs
  | apiKeys keys => exact fun key hkey => (hbelongs key hkey).grow h
  | auditLog entries => exact fun entry hentry => (hbelongs entry hentry).grow h
  | bootstrapToken token => exact hbelongs
  | created result => cases hbelongs
  | admitted user => cases hbelongs
  | done => trivial

end Grow

/-! ### Invariants of the API -/

/-- What the signing services see of an entry. -/
def serviceEntry (entry : ApiEntry) : Option ServiceEntry :=
  match entry.command with
  | .base command => some ⟨entry.thread, command, entry.choice, entry.answered⟩
  | _ => none

/-- What the signing services see of a history. -/
def past (history : List ApiEntry) : List ServiceEntry := history.filterMap serviceEntry

/-- An invariant of what the signing services see, next to one of the other tables, that
    every command issued for the org keeps. -/
structure ApiKeeper (cfg : ApiConfig) (orgId : Text) (J : World → List ServiceEntry → Prop)
    (Rest : ApiTables → List ApiEntry → Prop) : Prop where
  base : Keeper cfg.services orgId J
  put : ∀ {w base history i command choice}
    {reply : Except JsError (ApiCmd.Reply (.base command))}, Rest (ApiWorld.tables w) history →
      Rest (w.put base).tables (entryOf i (.base command) choice reply :: history)
  linked : ∀ {t history}, Linked cfg.services t.view → Rest t history → ApiLinked cfg t
  step : ∀ {w history i command choice reply w'}, J (ApiWorld.view w) (past history) →
    Rest w.tables history → command.Within cfg orgId w.tables →
    ApiCmd.exec command choice w = some (reply, w') →
    J w'.view (past (entryOf i command choice reply :: history)) ∧
      Rest w'.tables (entryOf i command choice reply :: history)

/-- Both invariants. -/
def ApiInv (J : World → List ServiceEntry → Prop) (Rest : ApiTables → List ApiEntry → Prop)
    (w : ApiWorld) (history : List ApiEntry) : Prop :=
  J w.view (past history) ∧ Rest w.tables history

namespace ApiKeeper

variable {cfg : ApiConfig} {orgId : Text} {J : World → List ServiceEntry → Prop}
  {Rest : ApiTables → List ApiEntry → Prop} (hK : ApiKeeper cfg orgId J Rest) {α β : Type}
  {w : ApiWorld} {history : List ApiEntry}
include hK

/-! ### Rules for the programs of the API -/

/-- A method of the signing services. -/
theorem lift {P : β → World → List ServiceEntry → Prop} {p : Js β}
    (hp : Yields (owners cfg.services) J P p w.view (past history)) :
    Yields (apiGrowth cfg .any) (ApiInv J Rest)
      (fun value w' history' => P value w'.view (past history')) p.api w history := by
  have hpast : ∀ i command choice (reply : Except JsError (ApiCmd.Reply (.base command))) history,
      past (entryOf i (.base command) choice reply :: history) =
        ⟨i, command, choice, reply.isOk⟩ :: past history := fun _ _ _ _ _ => rfl
  have hgrows : ∀ {s history s' history'}, (apiGrowth cfg .any).Grows s history s' history' →
      (owners cfg.services).Grows s.view (past history) s'.view (past history') := by
    rintro s history s' history' ⟨hgrows, hsuffix⟩
    exact ⟨hgrows.wallets, hgrows.requests, hsuffix.filterMap _⟩
  have hrest : ∀ i command choice (reply : Except JsError (ApiCmd.Reply (.base command)))
      (s : ApiWorld) t history, Rest s.tables history →
        Rest (s.put t).tables (entryOf i (.base command) choice reply :: history) :=
    fun _ _ _ _ _ _ _ hrest => hK.put hrest
  exact (services_embedding cfg).keeps (fun hexec => ApiCmd.exec_base hexec) hpast hgrows hrest hp

theorem harmless_of_within {F : ApiTables → Prop} {p : Api α}
    (hp : p.All fun command => ∀ t, F t → command.Within cfg orgId t) :
    p.All (HarmlessWhile .any (api cfg) (ApiInv J Rest) fun w => F w.tables) :=
  hp.mono fun _ hwithin _ _ _ s _ _ hs hinv _ hexec =>
    hK.step hinv.1 hinv.2 (hwithin s.tables hs) hexec

omit hK in
theorem stays_of_grows {F : ApiTables → Prop} (hstable : ∀ t t', t.Grows t' → F t → F t') :
    ∀ s history s' history', (apiGrowth cfg .any).Grows s history s' history' →
      F s.tables → F s'.tables :=
  fun s _ s' _ hgrows => hstable s.tables s'.tables hgrows.1

/-- Continue after a program whose commands are for the org as long as a fact holds. -/
theorem while_bind {F : ApiTables → Prop} (hstable : ∀ t t', t.Grows t' → F t → F t')
    {P : β → ApiWorld → List ApiEntry → Prop} {p : Api α} {f : α → Api β}
    (hp : p.All fun command => ∀ t, F t → command.Within cfg orgId t) (hw : F w.tables)
    (hf : ∀ value w' history', w.tables.Grows w'.tables → F w'.tables →
      Yields (apiGrowth cfg .any) (ApiInv J Rest) P (f value) w' history') :
    Yields (apiGrowth cfg .any) (ApiInv J Rest) P (p >>= f) w history :=
  Yields.while_bind (stays_of_grows hstable) (hK.harmless_of_within hp) hw
    fun value w' history' hgrows hF => hf value w' history' hgrows.1 hF

/-- A program whose commands are for the org as long as a fact holds. -/
theorem of_within {F : ApiTables → Prop} (hstable : ∀ t t', t.Grows t' → F t → F t') {p : Api α}
    (hp : p.All fun command => ∀ t, F t → command.Within cfg orgId t) (hw : F w.tables) :
    Yields (apiGrowth cfg .any) (ApiInv J Rest) (fun _ _ _ => True) p w history :=
  (Keeps.of_harmlessWhile (stays_of_grows hstable) (hK.harmless_of_within hp) hw).mono
    fun _ _ _ _ _ _ => trivial

/-- Continue after a program whose commands are for the org whatever is stored. -/
theorem skip {P : β → ApiWorld → List ApiEntry → Prop} {p : Api α} {f : α → Api β}
    (hp : p.All fun command => ∀ t, command.Within cfg orgId t)
    (hf : ∀ value w' history', w.tables.Grows w'.tables →
      Yields (apiGrowth cfg .any) (ApiInv J Rest) P (f value) w' history') :
    Yields (apiGrowth cfg .any) (ApiInv J Rest) P (p >>= f) w history := by
  refine hK.while_bind (F := fun _ => True) (fun _ _ _ h => h) ?_ trivial
    fun value w' history' hgrows _ => hf value w' history' hgrows
  exact hp.mono fun command hwithin t _ => hwithin t

/-- A statement for the org, and what its answer tells. -/
theorem sql {statement : ApiSql} {P : statement.Reply → ApiWorld → Prop}
    (hwithin : ∀ t, w.tables.Grows t → (ApiCmd.sql statement).Within cfg orgId t)
    (hpost : ∀ id value (s : ApiWorld) t, ApiLinked cfg s.tables → w.tables.Grows s.tables →
      statement.exec id s.clock s.tables = (.ok value, t) → P value { s with tables := t }) :
    Yields (apiGrowth cfg .any) (ApiInv J Rest) (fun value w' _ => P value w')
      (Api.sql statement) w history := by
  refine Yields.perform fun i choice reply s t history' hgrows hinv _ hexec =>
    ⟨hK.step hinv.1 hinv.2 (hwithin s.tables hgrows.1) hexec, ?_⟩
  rintro value rfl
  obtain ⟨id, t', _, hanswer, rfl⟩ := ApiCmd.exec_sql_ok hexec
  exact hpost id value s t' (hK.linked (hK.base.linked hinv.1) hinv.2) hgrows.1 hanswer

/-- A statement that reads, and what its answer tells. -/
theorem select {statement : ApiSql} (hquery : statement.isQuery = true)
    {P : statement.Reply → ApiWorld → Prop}
    (hpost : ∀ id value (s : ApiWorld), ApiLinked cfg s.tables → w.tables.Grows s.tables →
      (statement.exec id s.clock s.tables).1 = .ok value → P value s) :
    Yields (apiGrowth cfg .any) (ApiInv J Rest) (fun value w' _ => P value w')
      (Api.sql statement) w history := by
  refine hK.sql (fun _ _ => ApiCmd.within_of_query hquery) ?_
  intro id value s t hlinked hgrows hanswer
  have hsame : t = s.tables := by
    rw [← ApiSql.exec_isQuery hquery id s.clock s.tables, hanswer]
  rw [hsame]
  exact hpost id value s hlinked hgrows (congrArg Prod.fst hanswer)

/-! ### WalletService -/

open WalletService

theorem ownWallet_yields (walletId : Text) :
    Yields (apiGrowth cfg .any) (ApiInv J Rest)
      (fun row w' _ => row ∈ w'.tables.base.wallets ∧ Uuid.ofText walletId = some row.id ∧
        isOrg orgId row.orgId = true)
      (ownWallet orgId walletId) w history := by
  refine Yields.bind (hK.lift (hK.base.walletFindById_yields walletId)) ?_
  intro found s history' _ hfound
  cases found with
  | none => exact .throw _
  | some row =>
    refine Yields.unless fun horg => .ret ?_
    obtain ⟨hrow, hid⟩ := hfound row rfl
    exact ⟨hrow, hid, isOrg_iff.mpr (Uuid.ofText_of_toText (not_not.mp horg))⟩

theorem getWalletById_yields (walletId : Text) :
    Yields (apiGrowth cfg .any) (ApiInv J Rest)
      (fun view w' _ => view.Belongs orgId w'.tables) (getWalletById walletId orgId) w
      history := by
  refine Yields.bind (hK.ownWallet_yields walletId) fun row s history' _ hrow => .ret ?_
  exact ⟨⟨row, hrow.1, rfl, hrow.2.2⟩, .of_isOrg hrow.2.2⟩

theorem listWalletsByOrgId_yields :
    Yields (apiGrowth cfg .any) (ApiInv J Rest)
      (fun views w' _ => ∀ view ∈ views, view.Belongs orgId w'.tables)
      (listWalletsByOrgId orgId) w history := by
  have hselect : Yields (apiGrowth cfg .any) (ApiInv J Rest) (fun (rows : List Wallet) w' _ =>
      ∀ row ∈ rows, row ∈ w'.tables.base.wallets ∧ isOrg orgId row.orgId = true)
      (Api.sql (.walletFindByOrgId orgId)) w history := by
    refine hK.select rfl ?_
    intro id rows s _ _ hanswer row hrow
    obtain ⟨hmem, hown⟩ := mem_of_findByOrgId hanswer hrow
    exact ⟨hmem, isOrg_iff.mpr hown⟩
  refine Yields.bind hselect fun rows s history' _ hrows => .ret fun view hview => ?_
  obtain ⟨row, hrow, rfl⟩ := List.mem_map.mp hview
  obtain ⟨hmem, hown⟩ := hrows row hrow
  exact ⟨⟨row, hmem, rfl, hown⟩, .of_isOrg hown⟩

omit hK in
/-- A request that is shown. -/
theorem mapSigningRequest_belongs {t : ApiTables} {row : SigningRequest}
    (hrow : row ∈ t.base.requests) (hown : isOrg orgId row.orgId = true) :
    (mapSigningRequest row).Belongs orgId t :=
  ⟨⟨row, hrow, rfl, hown⟩, .of_isOrg hown⟩

omit hK in
theorem mem_newestFirst {rows : List SigningRequest} {row : SigningRequest} :
    row ∈ SigningRequestRepository.newestFirst rows ↔ row ∈ rows :=
  (List.perm_insertionSort _ rows).mem_iff

theorem listSigningRequestsByOrgId_yields :
    Yields (apiGrowth cfg .any) (ApiInv J Rest)
      (fun views w' _ => ∀ view ∈ views, view.Belongs orgId w'.tables)
      (listSigningRequestsByOrgId orgId) w history := by
  have hselect : Yields (apiGrowth cfg .any) (ApiInv J Rest)
      (fun (rows : List SigningRequest) w' _ =>
        ∀ row ∈ rows, row ∈ w'.tables.base.requests ∧ isOrg orgId row.orgId = true)
      (Api.sql (.requestFindByOrgId orgId)) w history := by
    refine hK.select rfl ?_
    intro id rows s _ _ hanswer row hrow
    obtain ⟨org, horg, rfl⟩ := map_eq_ok.mp hanswer
    obtain ⟨hmem, hown⟩ := List.mem_filter.mp (mem_newestFirst.mp hrow)
    rw [of_decide_eq_true hown]
    exact ⟨hmem, isOrg_iff.mpr (parseUuid_eq_ok.mp horg)⟩
  refine Yields.bind hselect fun rows s history' _ hrows => .ret fun view hview => ?_
  obtain ⟨row, hrow, rfl⟩ := List.mem_map.mp hview
  exact mapSigningRequest_belongs (hrows row hrow).1 (hrows row hrow).2

/-- The requests of a wallet of the org are the org's. -/
theorem listSigningRequestsByWalletId_yields (walletId : Text) :
    Yields (apiGrowth cfg .any) (ApiInv J Rest)
      (fun views w' _ => ∀ view ∈ views, view.Belongs orgId w'.tables)
      (listSigningRequestsByWalletId walletId orgId) w history := by
  refine Yields.bind (hK.ownWallet_yields walletId) fun wallet s history' _ hwallet => ?_
  obtain ⟨hmem, hid, hown⟩ := hwallet
  have hheld : HoldsWallet orgId walletId s.tables.view := ⟨wallet, hmem, hid.symm, hown⟩
  have hselect : Yields (apiGrowth cfg .any) (ApiInv J Rest)
      (fun (rows : List SigningRequest) w' _ =>
        ∀ row ∈ rows, row ∈ w'.tables.base.requests ∧ isOrg orgId row.orgId = true)
      (Api.sql (.requestFindByWalletId walletId)) s history' := by
    refine hK.select rfl ?_
    intro id rows s hlinked hgrows hanswer row hrow
    obtain ⟨named, hnamed, rfl⟩ := map_eq_ok.mp hanswer
    obtain ⟨hmem, hfor⟩ := List.mem_filter.mp (mem_newestFirst.mp hrow)
    rw [parseUuid_eq_ok, ← of_decide_eq_true hfor] at hnamed
    exact ⟨hmem, hlinked.base.own (hheld.mono hgrows.wallets) hmem hnamed⟩
  refine Yields.bind hselect fun rows t history'' _ hrows => .ret fun view hview => ?_
  obtain ⟨row, hrow, rfl⟩ := List.mem_map.mp hview
  exact mapSigningRequest_belongs (hrows row hrow).1 (hrows row hrow).2

theorem getSigningRequestById_yields (walletId requestId : Text) :
    Yields (apiGrowth cfg .any) (ApiInv J Rest)
      (fun view w' _ => view.Belongs orgId w'.tables)
      (getSigningRequestById orgId walletId requestId) w history := by
  refine Yields.bind (hK.ownWallet_yields walletId) fun wallet s history' _ hwallet => ?_
  obtain ⟨hmem, hid, hown⟩ := hwallet
  have hheld : HoldsWallet orgId walletId s.tables.view := ⟨wallet, hmem, hid.symm, hown⟩
  have hselect : Yields (apiGrowth cfg .any) (ApiInv J Rest)
      (fun (found : Option SigningRequest) w' _ => ∀ row, found = some row →
        row.walletId.toText = walletId →
          row ∈ w'.tables.base.requests ∧ isOrg orgId row.orgId = true)
      (Api.sql (.requestFindById requestId)) s history' := by
    refine hK.select rfl ?_
    intro id found s hlinked hgrows hanswer row hrow hfor
    obtain ⟨named, _, rfl⟩ := map_eq_ok.mp hanswer
    have hmem := List.mem_of_find?_eq_some hrow
    have hfor' := Uuid.ofText_of_toText hfor
    exact ⟨hmem, hlinked.base.own (hheld.mono hgrows.wallets) hmem hfor'⟩
  refine Yields.bind hselect fun found t history'' _ hfound => ?_
  cases found with
  | none => exact .throw _
  | some row =>
    refine Yields.unless fun hfor => .ret ?_
    obtain ⟨hrow, hown⟩ := hfound row rfl (not_not.mp hfor)
    exact mapSigningRequest_belongs hrow hown

/-! ### SigningService -/

open SigningService

omit hK in
/-- A signature is for the org, whichever the wallet. -/
theorem loadWallet_within (walletId : Text) :
    (loadWallet orgId walletId).All fun command => ∀ t, command.Within cfg orgId t :=
  Issuable.loadWallet_all
    ⟨fun _ => trivial, fun _ => trivial, fun _ _ _ _ => trivial, fun _ _ => rfl⟩

/-- The signature is returned once it is recorded. -/
theorem signWith_yields (walletId : Text) {hash : Text} {event : Text → AdminEvent}
    (hevent : ∀ signature, (event signature).Records ⟨signature, hash⟩)
    (seedRow : OrganizationSeed) (wallet : Wallet) :
    Yields (apiGrowth cfg .any) (ApiInv J Rest)
      (fun result w' _ => result.Belongs orgId w'.tables)
      (signWith orgId walletId hash event seedRow wallet) w history := by
  refine hK.skip (Prog.All.perform fun _ => trivial) fun signature s₁ h₁ _ => ?_
  have hrecord : Yields (apiGrowth cfg .any) (ApiInv J Rest)
      (fun _ w' _ => TypedSignResult.Belongs orgId w'.tables ⟨signature, hash⟩)
      (Api.sql (.auditCreate { orgId, walletId := some walletId, event := event signature })) s₁
      h₁ := by
    refine hK.sql (fun _ _ => rfl) fun id value s t _ _ hanswer => ?_
    obtain ⟨org, user, named, horg, _, _, rfl⟩ :=
      AdminAuditRepository.create_eq_ok (ApiTables.write_eq_ok hanswer)
    exact ⟨_, List.mem_append_right _ List.mem_cons_self, isOrg_iff.mpr horg, hevent signature⟩
  exact Yields.bind hrecord fun _ s₂ h₂ _ hbelongs => .ret hbelongs

theorem signEip712_yields (walletId : Text) (req : Eip712SignRequest) :
    Yields (apiGrowth cfg .any) (ApiInv J Rest)
      (fun result w' _ => result.Belongs orgId w'.tables)
      (signEip712 cfg orgId walletId req) w history := by
  refine hK.skip (all_ofExcept _) fun _ s₁ h₁ _ => ?_
  refine hK.skip (loadWallet_within walletId) fun loaded s₂ h₂ _ => ?_
  refine hK.skip (all_ofExcept _) fun hash s₃ h₃ _ => ?_
  have hevent : ∀ signature,
      (AdminEvent.typedDataSigned req.primaryType hash signature).Records ⟨signature, hash⟩ :=
    fun _ => ⟨rfl, rfl⟩
  exact hK.signWith_yields walletId hevent loaded.1 loaded.2

theorem signPersonalMessage_yields (walletId message : Text) :
    Yields (apiGrowth cfg .any) (ApiInv J Rest)
      (fun result w' _ => result.Belongs orgId w'.tables)
      (signPersonalMessage cfg orgId walletId message) w history := by
  simp only [signPersonalMessage]
  split
  · exact .throw _
  · refine hK.skip (loadWallet_within walletId) fun loaded s₁ h₁ _ => ?_
    have hevent : ∀ signature, (AdminEvent.messageSigned (cfg.hashMessage message)
        signature).Records ⟨signature, cfg.hashMessage message⟩ := fun _ => ⟨rfl, rfl⟩
    exact hK.signWith_yields walletId hevent loaded.1 loaded.2

/-! ### OrganizationsController -/

theorem queryAuditLog_yields (params : AuditLogParams) :
    Yields (apiGrowth cfg .any) (ApiInv J Rest)
      (fun entries w' _ => ∀ entry ∈ entries, entry.Belongs orgId w'.tables)
      (OrganizationsController.queryAuditLog cfg orgId params) w history := by
  refine hK.select rfl fun id entries s _ _ hanswer entry hentry => ?_
  obtain ⟨hmem, hown⟩ := AuditLogRepository.mem_of_query hanswer hentry
  exact ⟨hmem, isOrg_iff.mpr hown⟩

/-! ### PolicyService -/

omit hK in
theorem policyCreate_belongs {data : NewPolicy} {id : Uuid} {now : Int} {t t' : ApiTables}
    {row : Policy} (hanswer : (ApiSql.policyCreate data).exec id now t = (.ok row, t')) :
    row.Belongs data.orgId t' := by
  obtain ⟨org, target, horg, _, rfl, rfl⟩ :=
    PolicyRowRepository.create_eq_ok (ApiTables.write_eq_ok hanswer)
  have hmine : isOrg data.orgId org = true := isOrg_iff.mpr horg
  exact ⟨⟨_, List.mem_append_right _ List.mem_cons_self, rfl, hmine⟩, hmine⟩

theorem createPolicy_yields (body : CreatePolicyDto) :
    Yields (apiGrowth cfg .any) (ApiInv J Rest) (fun row w' _ => row.Belongs orgId w'.tables)
      (PolicyService.createPolicy cfg orgId body) w history := by
  refine hK.skip (all_ofExcept _) fun ruleConfig s history' _ => ?_
  refine hK.sql (fun _ _ => rfl) fun id row s t _ _ hanswer => ?_
  exact policyCreate_belongs hanswer

theorem listPolicies_yields :
    Yields (apiGrowth cfg .any) (ApiInv J Rest)
      (fun rows w' _ => ∀ row ∈ rows, row.Belongs orgId w'.tables)
      (PolicyService.listPolicies orgId) w history := by
  refine (hK.lift hK.base.policyFindByOrgId_yields).mono fun rows w' history' hrows row hrow => ?_
  obtain ⟨hmem, hown⟩ := hrows row hrow
  exact ⟨⟨row, hmem, rfl, hown⟩, hown⟩

theorem deletePolicy_yields (policyId : Text) :
    Yields (apiGrowth cfg .any) (ApiInv J Rest) (fun _ _ _ => True)
      (PolicyService.deletePolicy orgId policyId) w history := by
  have hselect : Yields (apiGrowth cfg .any) (ApiInv J Rest)
      (fun (found : Option Policy) w' _ => ∀ row, found = some row →
        row ∈ w'.tables.base.policies ∧ Uuid.ofText policyId = some row.id)
      (Api.sql (.policyFindById policyId)) w history := by
    refine hK.select rfl ?_
    intro id found s _ _ hanswer row hrow
    exact mem_of_findById hanswer hrow
  refine Yields.bind hselect fun found s history' _ hfound => ?_
  cases found with
  | none => exact .throw _
  | some row =>
    refine Yields.unless fun horg => ?_
    obtain ⟨hrow, hid⟩ := hfound row rfl
    have hheld : HoldsPolicy orgId policyId s.tables :=
      ⟨row, hrow, hid.symm, isOrg_iff.mpr (Uuid.ofText_of_toText (not_not.mp horg))⟩
    refine hK.while_bind (F := HoldsPolicy orgId policyId)
      (fun _ _ hgrows h => Has.policies some h hgrows.policies) (Prog.All.perform fun _ h => h) hheld
      fun _ s' history'' _ _ => ?_
    exact hK.sql (fun _ _ => rfl) fun _ _ _ _ _ _ _ => trivial

/-! ### UserService -/

omit hK in
/-- A user that is shown. -/
theorem viewOf_belongs {t : ApiTables} {row : UserRow} (hrow : row ∈ t.users)
    (hown : isOrg orgId row.orgId = true) {shown : Option Text}
    (hshown : ∀ text, shown = some text → SameOrg orgId text) :
    (UserService.viewOf row shown).Belongs orgId t :=
  ⟨⟨row, hrow, rfl, hown⟩, hshown⟩

theorem createUser_yields (data : CreateUserDto) :
    Yields (apiGrowth cfg .any) (ApiInv J Rest) (fun view w' _ => view.Belongs orgId w'.tables)
      (UserService.createUser orgId data) w history := by
  refine hK.skip (Prog.All.perform fun _ => trivial) fun found s₁ h₁ _ => ?_
  cases found with
  | some user => exact .throw _
  | none =>
    have hcreate : Yields (apiGrowth cfg .any) (ApiInv J Rest)
        (fun (row : UserRow) w' _ => HasUser orgId row.id.toText w'.tables)
        (Api.sql (.userCreate
          { orgId, externalId := data.externalId, email := truthy data.email,
            role := (truthy data.role).getD "member".toList, status := .active })) s₁ h₁ := by
      refine hK.sql (fun _ _ => rfl) fun id row s t _ _ hanswer => ?_
      obtain ⟨org, horg, rfl, rfl⟩ :=
        UserRowRepository.create_eq_ok (ApiTables.write_eq_ok hanswer)
      exact ⟨_, List.mem_append_right _ List.mem_cons_self, rfl, isOrg_iff.mpr horg⟩
    refine Yields.bind hcreate fun row s₂ h₂ _ hrow => ?_
    refine hK.while_bind (F := HasUser orgId row.id.toText) (fun _ _ hgrows h => h.grow hgrows)
      (Prog.All.perform fun _ _ => rfl) hrow fun _ s₃ h₃ _ hrow => .ret ⟨hrow, nofun⟩

theorem listUsers_yields :
    Yields (apiGrowth cfg .any) (ApiInv J Rest)
      (fun views w' _ => ∀ view ∈ views, view.Belongs orgId w'.tables)
      (UserService.listUsers orgId) w history := by
  have hselect : Yields (apiGrowth cfg .any) (ApiInv J Rest) (fun (rows : List UserRow) w' _ =>
      ∀ row ∈ rows, row ∈ w'.tables.users ∧ isOrg orgId row.orgId = true)
      (Api.sql (.userFindByOrgId orgId)) w history := by
    refine hK.select rfl ?_
    intro id rows s _ _ hanswer row hrow
    obtain ⟨hmem, hown⟩ := mem_of_findByOrgId hanswer hrow
    exact ⟨hmem, isOrg_iff.mpr hown⟩
  refine Yields.bind hselect fun rows s history' _ hrows => .ret fun view hview => ?_
  obtain ⟨row, hrow, rfl⟩ := List.mem_map.mp hview
  exact viewOf_belongs (hrows row hrow).1 (hrows row hrow).2 nofun

theorem ownUser_yields (userId : Text) :
    Yields (apiGrowth cfg .any) (ApiInv J Rest)
      (fun row w' _ => row ∈ w'.tables.users ∧ Uuid.ofText userId = some row.id ∧
        isOrg orgId row.orgId = true)
      (UserService.ownUser orgId userId) w history := by
  have hselect : Yields (apiGrowth cfg .any) (ApiInv J Rest)
      (fun (found : Option UserRow) w' _ => ∀ row, found = some row →
        row ∈ w'.tables.users ∧ Uuid.ofText userId = some row.id)
      (Api.sql (.userFindById userId)) w history := by
    refine hK.select rfl ?_
    intro id found s _ _ hanswer row hrow
    exact mem_of_findById hanswer hrow
  refine Yields.bind hselect fun found s history' _ hfound => ?_
  cases found with
  | none => exact .throw _
  | some row =>
    refine Yields.unless fun horg => .ret ?_
    obtain ⟨hrow, hid⟩ := hfound row rfl
    exact ⟨hrow, hid, isOrg_iff.mpr (Uuid.ofText_of_toText (not_not.mp horg))⟩

theorem getUser_yields (userId : Text) :
    Yields (apiGrowth cfg .any) (ApiInv J Rest) (fun view w' _ => view.Belongs orgId w'.tables)
      (UserService.getUser orgId userId) w history := by
  refine Yields.bind (hK.ownUser_yields userId) fun row s history' _ hrow => .ret ?_
  obtain ⟨hmem, _, hown⟩ := hrow
  refine viewOf_belongs hmem hown ?_
  rintro _ ⟨⟩
  exact .of_isOrg hown

theorem deleteUser_yields (userId : Text) :
    Yields (apiGrowth cfg .any) (ApiInv J Rest) (fun _ _ _ => True)
      (UserService.deleteUser orgId userId) w history := by
  refine Yields.bind (hK.ownUser_yields userId) fun row s history' _ hrow => ?_
  obtain ⟨hmem, hid, hown⟩ := hrow
  have hheld : HoldsUser orgId userId s.tables := ⟨row, hmem, hid.symm, hown⟩
  refine hK.while_bind (F := HoldsUser orgId userId)
    (fun _ _ hgrows h => Has.users some h hgrows.users) (Prog.All.perform fun _ h => h) hheld
    fun _ s' history'' _ _ => ?_
  exact hK.sql (fun _ _ => rfl) fun _ _ _ _ _ _ _ => trivial

/-! ### AuthService -/

theorem insertKey_yields {data : NewApiKey} (hdata : data.orgId = orgId) :
    Yields (apiGrowth cfg .any) (ApiInv J Rest)
      (fun row w' _ => HasApiKey orgId row.id.toText w'.tables) (AuthService.insertKey data) w
      history := by
  refine Yields.tryCatch ?_ fun error s history' _ => ?_
  · refine hK.sql (fun _ _ => hdata) fun id row s t _ _ hanswer => ?_
    obtain ⟨org, horg, _, rfl, rfl⟩ :=
      ApiKeyRepository.create_eq_ok (ApiTables.write_eq_ok hanswer)
    exact ⟨_, List.mem_append_right _ List.mem_cons_self, rfl, isOrg_iff.mpr (hdata ▸ horg)⟩
  · split
    · exact .throw _
    · exact .throw _

theorem registerApiKey_yields (data : RegisterApiKeyDto)
    (bootstrapToken requestingKeyId : Option Text) :
    Yields (apiGrowth cfg .any) (ApiInv J Rest)
      (fun key w' _ => HasApiKey orgId key.id w'.tables)
      (AuthService.registerApiKey cfg orgId data bootstrapToken requestingKeyId) w history := by
  refine hK.skip (Prog.All.perform fun _ => trivial) fun org s₁ h₁ _ => ?_
  cases org with
  | none => exact .throw _
  | some org =>
    refine hK.skip (AuthService.authorise_all (fun _ => trivial) (fun _ _ => trivial) ..)
      fun _ s₂ h₂ _ => ?_
    refine hK.skip (all_ofExcept _) fun _ s₃ h₃ _ => ?_
    refine hK.skip (Prog.All.perform fun _ => trivial) fun keyId s₄ h₄ _ => ?_
    refine hK.skip (all_ofExcept _) fun scopes s₅ h₅ _ => ?_
    refine Yields.bind (hK.insertKey_yields rfl) fun row s₆ h₆ _ hrow => ?_
    have hclear : (AuthService.clearToken orgId bootstrapToken).All fun command =>
        ∀ t, HasApiKey orgId row.id.toText t → command.Within cfg orgId t :=
      AuthService.clearToken_all (fun _ _ => trivial) bootstrapToken
    refine hK.while_bind (fun _ _ hgrows h => h.grow hgrows) hclear hrow fun _ s₇ h₇ _ hrow => ?_
    exact hK.while_bind (fun _ _ hgrows h => h.grow hgrows) (Prog.All.perform fun _ _ => rfl) hrow
      fun _ s₈ h₈ _ hrow => .ret hrow

theorem listApiKeys_yields :
    Yields (apiGrowth cfg .any) (ApiInv J Rest)
      (fun keys w' _ => ∀ key ∈ keys, HasApiKey orgId key.id w'.tables)
      (AuthService.listApiKeys orgId) w history := by
  have hselect : Yields (apiGrowth cfg .any) (ApiInv J Rest) (fun (rows : List ApiKey) w' _ =>
      ∀ row ∈ rows, HasApiKey orgId row.id.toText w'.tables)
      (Api.sql (.keyFindByOrgId orgId .active)) w history := by
    refine hK.select rfl ?_
    intro id rows s _ _ hanswer row hrow
    obtain ⟨org, horg, rfl⟩ := map_eq_ok.mp hanswer
    obtain ⟨hmem, hown⟩ := List.mem_filter.mp hrow
    have horgId : row.orgId = org := (of_decide_eq_true hown).1
    exact ⟨row, hmem, rfl, isOrg_iff.mpr (horgId ▸ parseUuid_eq_ok.mp horg)⟩
  refine Yields.bind hselect fun rows s history' _ hrows => .ret fun key hkey => ?_
  obtain ⟨row, hrow, rfl⟩ := List.mem_map.mp hkey
  exact hrows row hrow

theorem revokeApiKey_yields (keyId : Text) :
    Yields (apiGrowth cfg .any) (ApiInv J Rest) (fun _ _ _ => True)
      (AuthService.revokeApiKey orgId keyId) w history := by
  have hselect : Yields (apiGrowth cfg .any) (ApiInv J Rest)
      (fun (found : Option ApiKey) w' _ => ∀ row, found = some row → row ∈ w'.tables.apiKeys)
      (Api.sql (.keyFindByKeyId keyId)) w history := by
    refine hK.select rfl ?_
    intro id found s _ _ hanswer row hrow
    cases hanswer
    exact List.mem_of_find?_eq_some hrow
  refine Yields.bind hselect fun found s history' _ hfound => ?_
  cases found with
  | none => exact .throw _
  | some row =>
    refine Yields.unless fun horg => ?_
    have hheld : HoldsKey orgId row.id s.tables := ⟨row, hfound row rfl, rfl,
      isOrg_iff.mpr (Uuid.ofText_of_toText (not_not.mp horg))⟩
    have hstable : ∀ t t' : ApiTables, t.Grows t' → HoldsKey orgId row.id t →
        HoldsKey orgId row.id t' := fun _ _ hgrows h => Has.apiKeys (fun id => id) h hgrows.apiKeys
    refine hK.while_bind hstable (Prog.All.perform fun _ _ => trivial) hheld
      fun now s' history'' _ hheld => ?_
    refine hK.while_bind hstable (Prog.All.perform fun _ h => h) hheld
      fun _ s'' history''' _ _ => ?_
    exact hK.sql (fun _ _ => rfl) fun _ _ _ _ _ _ _ => trivial

theorem generateBootstrapToken_yields :
    Yields (apiGrowth cfg .any) (ApiInv J Rest)
      (fun (token : Text) _ _ => ∃ drawn : Uuid, token = drawn.toText)
      (AuthService.generateBootstrapToken cfg orgId) w history := by
  refine hK.skip (Prog.All.perform fun _ => trivial) fun token s₁ h₁ _ => ?_
  exact hK.skip (Prog.All.perform fun _ => trivial) fun _ s₂ h₂ _ => .ret ⟨token, rfl⟩

/-! ### Every call -/

/-- **What a call is for.**  Every command it issues is for its org, and every record it
    returns is the org's. -/
theorem start_yields (hsha : Function.Injective cfg.services.sha256) (operation : ApiCall) :
    Yields (apiGrowth cfg .any) (ApiInv J Rest)
      (fun outcome w' _ => outcome.Belongs orgId w'.tables) (operation.start cfg orgId) w
      history := by
  cases operation with
  | onBoardOrganization => exact .map (hK.lift hK.base.onBoardOrganization_yields)
  | deriveWallet userId label chainId =>
    exact .map (hK.lift (hK.base.deriveWallet_yields userId label chainId))
  | listWalletsByOrgId => exact .map hK.listWalletsByOrgId_yields
  | getWalletById walletId => exact .map (hK.getWalletById_yields walletId)
  | listSigningRequestsByOrgId => exact .map hK.listSigningRequestsByOrgId_yields
  | queryAuditLog params => exact .map (hK.queryAuditLog_yields params)
  | listSigningRequestsByWalletId walletId =>
    exact .map (hK.listSigningRequestsByWalletId_yields walletId)
  | getSigningRequestById walletId requestId =>
    exact .map (hK.getSigningRequestById_yields walletId requestId)
  | requestSign walletId req => exact .map (hK.lift (hK.base.requestSign_yields hsha req))
  | signEip712 walletId req =>
    exact .map (hK.signEip712_yields walletId req)
  | signPersonalMessage walletId message =>
    exact .map (hK.signPersonalMessage_yields walletId message)
  | createPolicy body => exact .map (hK.createPolicy_yields body)
  | listPolicies => exact .map hK.listPolicies_yields
  | deletePolicy policyId => exact .map (hK.deletePolicy_yields policyId)
  | createUser body => exact .map (hK.createUser_yields body)
  | listUsers => exact .map hK.listUsers_yields
  | getUser userId => exact .map (hK.getUser_yields userId)
  | deleteUser userId => exact .map (hK.deleteUser_yields userId)
  | registerApiKey body bootstrapToken requestingKeyId =>
    exact .map (hK.registerApiKey_yields body bootstrapToken requestingKeyId)
  | listApiKeys => exact .map hK.listApiKeys_yields
  | revokeApiKey keyId => exact .map (hK.revokeApiKey_yields keyId)
  | generateBootstrapToken => exact .map hK.generateBootstrapToken_yields

end ApiKeeper

end BrokeTurnkey
