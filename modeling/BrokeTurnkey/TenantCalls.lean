import BrokeTurnkey.Tenancy

/-!
# The signing services on behalf of one org

`onBoardOrganization`, `deriveWallet` and `requestSign` compare the org of the wallet
with the one they are called with, and after that go by the texts and ids they were
given.  Every command they issue is for the org, since no row ever changes its org, and
so is the row they answer with.
-/

namespace BrokeTurnkey

open Interaction

variable {cfg : Config} {orgId walletId : Text} {t : Tables}

/-! ### What the answers tell -/

/-- A request with the key of a call for a wallet of the org is the org's. -/
theorem Linked.holdsRequest (h : Linked cfg t) (hsha : Function.Injective cfg.sha256)
    (hheld : HoldsWallet orgId walletId t) {row : SigningRequest} (hrow : row ∈ t.requests)
    {req : SignRequest}
    (hkey : row.idempotencyKey = WalletService.computeIdempotencyKey cfg walletId req) :
    HoldsRequest orgId row.id t := by
  obtain ⟨walletId', req', hid', _, hkey'⟩ := h.keyed row hrow
  have hheld' := hheld
  obtain ⟨wallet, _, hid, _⟩ := hheld'
  obtain ⟨hsame, _⟩ := PolicyAuthority.key_injective hsha hid.symm hid' (hkey.symm.trans hkey')
  exact ⟨row, hrow, rfl, h.own hheld hrow (hid.symm.trans (congrArg some hsame))⟩

/-- The request that was created. -/
theorem holdsRequest_of_create {data : NewSigningRequest} {choice : Choice} {w w' : World}
    {row : SigningRequest}
    (hexec : exec (.sql (.requestCreate data)) choice w = some (.ok row, w')) :
    HoldsRequest data.orgId row.id w'.tables := by
  rcases exec_insert hexec with ⟨id, org, wallet, horg, _, _, _, rfl, hok | herror⟩ | ⟨_, herror⟩
  · cases hok
    exact ⟨_, List.mem_append_right _ List.mem_cons_self, rfl, isOrg_iff.mpr horg⟩
  · cases herror
  · cases herror

/-- A wallet of the org has this id. -/
def HoldsWalletId (orgId : Text) (id : Uuid) (t : Tables) : Prop :=
  Has Wallet.id Wallet.orgId (isOrg orgId) id t.wallets

theorem HoldsWalletId.mono {id : Uuid} {t' : Tables} (h : HoldsWalletId orgId id t)
    (hwallets : t.wallets <+: t'.wallets) : HoldsWalletId orgId id t' :=
  Has.of_prefix h hwallets

/-- The wallet that was created. -/
theorem holdsWalletId_of_create {data : NewWallet} {choice : Choice} {w w' : World} {row : Wallet}
    (hexec : exec (.sql (.walletCreate data)) choice w = some (.ok row, w')) :
    HoldsWalletId data.orgId row.id w'.tables := by
  obtain ⟨id, t, hanswer, rfl⟩ := exec_sql_ok hexec
  rcases walletCreate_cases data id w.tables with ⟨org, user, horg, _, heq⟩ | ⟨error, heq⟩
  · cases heq.symm.trans hanswer
    exact ⟨_, List.mem_append_right _ List.mem_cons_self, rfl, isOrg_iff.mpr horg⟩
  · cases heq.symm.trans hanswer

/-- What `requestSign` returns is about a request of the org. -/
def SignResult.Held (orgId : Text) (result : SignResult) (t : Tables) : Prop :=
  Has (fun row => row.id.toText) SigningRequest.orgId (isOrg orgId) result.signingRequestId
    t.requests

/-- The row that a call works on, or answers with. -/
def WalletService.Claimed.Held (orgId : Text) (t : Tables) : Claimed → Prop
  | .own signingRequestId => HoldsRequest orgId signingRequestId t
  | .existing result => result.Held orgId t

/-- What `deriveWallet` returns is about a wallet of the org. -/
def DerivedWallet.Held (orgId : Text) (wallet : DerivedWallet) (t : Tables) : Prop :=
  Has (fun row => row.id.toText) Wallet.orgId (isOrg orgId) wallet.walletId t.wallets

/-! ### Commands that are for the org -/

/-- What only looks is for any org. -/
theorem within_of_queries {α : Type} {p : Js α} (h : Queries p) :
    p.All fun command => ∀ t, command.Within cfg orgId t :=
  h.mono fun _ hquery _ => Cmd.within_of_query hquery

theorem WalletService.evaluatePolicy_within (req : SignRequest) :
    (evaluatePolicy cfg orgId walletId req).All fun command => ∀ t, command.Within cfg orgId t :=
  evaluatePolicy_all (fun _ hquery _ => Cmd.within_of_query hquery) (fun _ _ _ => rfl) cfg req

/-- What `submit` relies on. -/
def Submits (orgId walletId : Text) (id : Uuid) (t : Tables) : Prop :=
  HoldsWallet orgId walletId t ∧ HoldsRequest orgId id t

section Submit

variable {id : Uuid}

theorem submits_update (fields : SigningRequestUpdate) :
    (Js.sql (.requestUpdate id fields)).All fun command =>
      ∀ t, Submits orgId walletId id t → command.Within cfg orgId t :=
  Prog.All.perform fun _ h => h.2

theorem submits_of_queries {α : Type} {p : Js α} (h : Queries p) :
    p.All fun command => ∀ t, Submits orgId walletId id t → command.Within cfg orgId t :=
  h.mono fun _ hquery _ _ => Cmd.within_of_query hquery

theorem WalletService.prepareFields_within (req : SignRequest) (fees : FeeEstimate) :
    (prepareFields walletId req fees id).All fun command =>
      ∀ t, Submits orgId walletId id t → command.Within cfg orgId t := by
  refine Prog.All.bind (Prog.All.perform fun _ h => h.1) fun nonce => ?_
  exact Prog.All.bind (submits_update _) fun _ => trivial

theorem WalletService.signStep_within (seedRow : OrganizationSeed) (wallet : Wallet)
    (txFields : TxFields) :
    (signStep seedRow wallet walletId txFields id).All fun command =>
      ∀ t, Submits orgId walletId id t → command.Within cfg orgId t := by
  refine Prog.All.tryCatch (Prog.All.perform fun _ _ => trivial) fun error => ?_
  refine Prog.All.bind (submits_update _) fun _ => ?_
  exact Prog.All.bind (Prog.All.perform fun _ h => h.1) fun _ => trivial

theorem WalletService.storeSigned_within (signResult : SignTransactionResult) :
    (storeSigned id signResult).All fun command =>
      ∀ t, Submits orgId walletId id t → command.Within cfg orgId t :=
  Prog.All.bind (submits_of_queries now_queries) fun _ => submits_update _

theorem WalletService.broadcastStep_within (wallet : Wallet) (chainId : Nat)
    (signResult : SignTransactionResult) :
    (broadcastStep cfg wallet walletId chainId signResult id).All fun command =>
      ∀ t, Submits orgId walletId id t → command.Within cfg orgId t := by
  refine Prog.All.tryCatch ?_ fun error => ?_
  · refine Prog.All.bind (Prog.All.bind (Prog.All.perform fun _ _ => trivial) fun _ => ?_) fun _ => ?_
    · exact rpcCallWithRetry_all (fun _ _ _ => trivial) cfg chainId
    · exact Prog.All.bind (submits_of_queries now_queries) fun _ => submits_update _
  · refine Prog.All.bind (submits_update _) fun _ => ?_
    exact Prog.All.bind (Prog.All.perform fun _ h => h.1) fun _ => trivial

end Submit

/-- The job reads the chain and syncs the counter of the wallet. -/
theorem Job.start_within (chainId : Nat) (walletAddress : Text) :
    ((Job.syncNonce walletId chainId walletAddress).start cfg).All fun command =>
      ∀ t, HoldsWallet orgId walletId t → command.Within cfg orgId t := by
  refine Prog.All.bind (Prog.All.bind ?_ fun chainNonce => ?_) fun _ => trivial
  · exact rpcCallWithRetry_all (fun _ _ _ => trivial) cfg chainId
  · exact Prog.All.perform fun _ h => h

/-! ### The calls -/

namespace Keeper

open WalletService

variable {J : World → List ServiceEntry → Prop} (hJ : Keeper cfg orgId J) {w : World}
  {history : List ServiceEntry}
include hJ

theorem walletFindById_yields (walletId : Text) :
    Yields (owners cfg) J (fun found w' _ => ∀ row, found = some row →
      row ∈ w'.tables.wallets ∧ Uuid.ofText walletId = some row.id)
      (Js.sql (.walletFindById walletId)) w history := by
  refine hJ.sql (fun _ _ _ => trivial) ?_
  rintro choice found s t _ _ hexec row rfl
  obtain ⟨hid, hrow⟩ := exec_walletFindById hexec
  exact ⟨List.mem_of_find?_eq_some hrow, hid⟩

theorem policyFindByOrgId_yields :
    Yields (owners cfg) J (fun (rows : List Policy) w' _ => ∀ row ∈ rows,
      row ∈ w'.tables.policies ∧ isOrg orgId row.orgId = true)
      (Js.sql (.policyFindByOrgId orgId .active)) w history := by
  refine hJ.sql (fun _ _ _ => trivial) ?_
  intro choice rows s t _ _ hexec row hrow
  obtain ⟨id, t, hanswer, rfl⟩ := exec_sql_ok hexec
  obtain ⟨org, horg, heq⟩ := withUuid_eq_ok hanswer
  cases heq
  obtain ⟨hmem, hown⟩ := List.mem_filter.mp ((List.perm_insertionSort _ _).mem_iff.mp hrow)
  rw [(of_decide_eq_true hown).1]
  exact ⟨hmem, isOrg_iff.mpr horg⟩

theorem loadPrerequisites_yields :
    Yields (owners cfg) J (fun _ w' _ => HoldsWallet orgId walletId w'.tables)
      (loadPrerequisites orgId walletId) w history := by
  refine hJ.skip (within_of_queries (sql_queries rfl)) fun seedRow s history' _ => ?_
  refine Yields.bind (hJ.walletFindById_yields walletId) fun found t history'' _ hfound => ?_
  cases seedRow with
  | none => exact .throw _
  | some seedRow =>
    cases found with
    | none => exact .throw _
    | some row =>
      refine Yields.unless fun horg => .ret ?_
      obtain ⟨hrow, hid⟩ := hfound row rfl
      exact ⟨row, hrow, hid.symm, isOrg_iff.mpr (Uuid.ofText_of_toText (not_not.mp horg))⟩

/-- The row with the key of the call, if there is one. -/
theorem find_yields (hsha : Function.Injective cfg.sha256)
    (hheld : HoldsWallet orgId walletId w.tables) (req : SignRequest) :
    Yields (owners cfg) J
      (fun found w' _ => ∀ row, found = some row → HoldsRequest orgId row.id w'.tables)
      (Js.sql (.requestFindByIdempotencyKey (computeIdempotencyKey cfg walletId req))) w
      history := by
  refine hJ.sql (fun _ _ _ => trivial) ?_
  rintro choice found s t hlinked hgrows hexec row rfl
  obtain ⟨rfl, hrow, hkey⟩ := exec_find hexec
  exact hlinked.holdsRequest hsha (hheld.mono hgrows) hrow hkey

/-- The request a call works on, or answers with, is the org's. -/
theorem reuseRow_yields (hsha : Function.Injective cfg.sha256)
    (hheld : HoldsWallet orgId walletId w.tables) (req : SignRequest) (conflict : JsError) :
    Yields (owners cfg) J (fun claimed w' _ => claimed.Held orgId w'.tables)
      (reuseRow (computeIdempotencyKey cfg walletId req) conflict) w history := by
  refine Yields.bind (hJ.find_yields hsha hheld req) fun raced s history' _ hraced => ?_
  split
  · rename_i row hrow
    obtain ⟨hsome, _⟩ := Option.filter_eq_some_iff.mp hrow
    exact .ret ((hraced row hsome).comp Uuid.toText)
  · cases raced with
    | none => exact .throw _
    | some row =>
      refine hJ.while_bind (F := HoldsRequest orgId row.id) ?_ ?_ (hraced row rfl)
        fun _ t history'' _ hrow => .ret hrow
      · exact fun _ _ _ _ hgrows hrow => HoldsRequest.mono hrow hgrows.2.1
      · exact Prog.All.perform fun _ hrow => hrow

theorem createOrReuse_yields (hsha : Function.Injective cfg.sha256)
    (hheld : HoldsWallet orgId walletId w.tables) (req : SignRequest) :
    Yields (owners cfg) J (fun claimed w' _ => claimed.Held orgId w'.tables)
      (createOrReuse orgId walletId req (computeIdempotencyKey cfg walletId req)) w history := by
  have hcreate : Yields (owners cfg) J (fun row w' _ => HoldsRequest orgId row.id w'.tables)
      (Js.sql (.requestCreate
        { orgId, walletId, chainId := req.chainId, status := .pending,
          idempotencyKey := computeIdempotencyKey cfg walletId req })) w history := by
    refine hJ.sql ?_ ?_
    · intro s history' hgrows
      exact ⟨rfl, hheld.mono hgrows.1, req, rfl, rfl⟩
    · intro choice row s t _ _ hexec
      exact holdsRequest_of_create hexec
  refine Yields.tryCatch ?_ ?_
  · exact Yields.bind hcreate fun row s history' _ hrow => .ret hrow
  · intro error s history' hgrows
    split
    · exact .throw _
    · exact hJ.reuseRow_yields hsha (hheld.mono hgrows.1) req error

/-- What `requestSign` answers is the org's. -/
theorem submit_yields {id : Uuid} (h : Submits orgId walletId id w.tables) (req : SignRequest)
    (seedRow : OrganizationSeed) (wallet : Wallet) (idempotencyKey : Text) (fees : FeeEstimate) :
    Yields (owners cfg) J (fun result w' _ => result.Held orgId w'.tables)
      (submit cfg orgId walletId req seedRow wallet idempotencyKey fees id) w history := by
  have hstable : ∀ s history s' history', (owners cfg).Grows s history s' history' →
      Submits orgId walletId id s.tables → Submits orgId walletId id s'.tables :=
    fun _ _ _ _ hgrows h => ⟨h.1.mono hgrows.1, h.2.mono hgrows.2.1⟩
  refine hJ.while_bind hstable (prepareFields_within req fees) h fun txFields s₁ h₁ _ h => ?_
  refine hJ.while_bind hstable (signStep_within seedRow wallet txFields) h
    fun signResult s₂ h₂ _ h => ?_
  refine hJ.while_bind hstable (storeSigned_within signResult) h fun _ s₃ h₃ _ h => ?_
  refine hJ.while_bind hstable (broadcastStep_within wallet req.chainId signResult) h
    fun _ s₄ h₄ _ h => ?_
  refine hJ.while_bind hstable (Prog.All.perform fun _ _ => rfl) h fun _ s₅ h₅ _ h => ?_
  exact .ret (h.2.comp Uuid.toText)

theorem requestSign_yields (hsha : Function.Injective cfg.sha256) (req : SignRequest) :
    Yields (owners cfg) J (fun result w' _ => result.Held orgId w'.tables)
      (requestSign cfg orgId walletId req) w history := by
  refine Yields.bind hJ.loadPrerequisites_yields fun loaded s₁ h₁ _ hheld => ?_
  refine Yields.bind (hJ.find_yields hsha hheld req) fun existing s₂ h₂ hgrows hfound => ?_
  replace hheld : HoldsWallet orgId walletId s₂.tables := hheld.mono hgrows.1
  split
  · rename_i row hrow
    obtain ⟨hsome, _⟩ := Option.filter_eq_some_iff.mp hrow
    exact .ret ((hfound row hsome).comp Uuid.toText)
  · refine hJ.skip (evaluatePolicy_within req) fun _ s₃ h₃ hgrows => ?_
    replace hheld : HoldsWallet orgId walletId s₃.tables := hheld.mono hgrows.1
    refine hJ.skip (within_of_queries (estimateFees_queries ..)) fun fees s₄ h₄ hgrows => ?_
    replace hheld : HoldsWallet orgId walletId s₄.tables := hheld.mono hgrows.1
    refine Yields.bind (hJ.createOrReuse_yields hsha hheld req) fun claimed s₅ h₅ hgrows hclaimed => ?_
    replace hheld : HoldsWallet orgId walletId s₅.tables := hheld.mono hgrows.1
    cases claimed with
    | existing result => exact .ret hclaimed
    | own id => exact hJ.submit_yields ⟨hheld, hclaimed⟩ req _ _ _ fees

theorem insertDerived_yields (userId : Option Text) (label : Text) (chainId : Nat)
    (derived : DeriveWalletResponse) :
    Yields (owners cfg) J (fun wallet w' _ => wallet.Held orgId w'.tables)
      (insertDerived orgId userId label chainId derived) w history := by
  have hcreate : Yields (owners cfg) J (fun row w' _ => HoldsWalletId orgId row.id w'.tables)
      (Js.sql (.walletCreate
        { orgId, userId, label := some label, address := derived.address,
          derivationPath := derived.derivationPath, chainId })) w history := by
    refine hJ.sql (fun _ _ _ => rfl) fun choice row s t _ _ hexec => ?_
    exact holdsWalletId_of_create hexec
  refine Yields.bind hcreate fun row s history' _ hrow => ?_
  refine hJ.while_bind (F := HoldsWalletId orgId row.id) ?_ (Prog.All.perform fun _ _ => rfl) hrow
    fun _ s' history'' _ hrow => .ret (hrow.comp Uuid.toText)
  exact fun _ _ _ _ hgrows hrow => HoldsWalletId.mono hrow hgrows.1

theorem deriveAttempts_yields (userId : Option Text) (label : Text) (chainId : Nat)
    (seedRow : OrganizationSeed) (attempts : Nat) :
    ∀ (derivIndex : Nat) (w : World) (history : List ServiceEntry),
      Yields (owners cfg) J (fun wallet w' _ => wallet.Held orgId w'.tables)
        (deriveAttempts orgId userId label chainId seedRow attempts derivIndex) w history := by
  induction attempts with
  | zero => exact fun _ _ _ => .throw _
  | succ attempts ih =>
    intro derivIndex w history
    refine hJ.skip (Prog.All.perform fun _ => trivial) fun derived s history' _ => ?_
    refine Yields.tryCatch (hJ.insertDerived_yields userId label chainId derived) ?_
    intro error s' history'' _
    refine Yields.unless fun _ => Yields.unless fun _ => ?_
    exact hJ.skip (within_of_queries (sql_queries rfl)) fun derivIndex s h _ => ih derivIndex s h

theorem deriveWallet_yields (userId : Option Text) (label : Text) (chainId : Option Nat) :
    Yields (owners cfg) J (fun wallet w' _ => wallet.Held orgId w'.tables)
      (deriveWallet orgId userId label chainId) w history := by
  refine hJ.skip (within_of_queries (sql_queries rfl)) fun seedRow s₁ h₁ _ => ?_
  cases seedRow with
  | none => exact .throw _
  | some seedRow =>
    refine hJ.skip (within_of_queries (checkUser_queries orgId _)) fun _ s₂ h₂ _ => ?_
    refine hJ.skip (within_of_queries (sql_queries rfl)) fun derivIndex s₃ h₃ _ => ?_
    exact hJ.deriveAttempts_yields userId label _ seedRow _ derivIndex s₃ h₃

theorem onBoardOrganization_yields :
    Yields (owners cfg) J (fun result _ _ => result.orgId = orgId) (onBoardOrganization orgId) w
      history := by
  refine hJ.skip (within_of_queries (sql_queries rfl)) fun seedRow s₁ h₁ _ => ?_
  cases seedRow with
  | some seedRow => exact .throw _
  | none =>
    refine hJ.skip (Prog.All.perform fun _ => trivial) fun created s₂ h₂ _ => ?_
    refine hJ.skip (Prog.All.perform fun _ => trivial) fun _ s₃ h₃ _ => ?_
    refine hJ.skip (Prog.All.perform fun _ => rfl) fun _ s₄ h₄ _ => ?_
    exact hJ.skip (Prog.All.perform fun _ => rfl) fun _ s₅ h₅ _ => .ret rfl

end Keeper

end BrokeTurnkey
