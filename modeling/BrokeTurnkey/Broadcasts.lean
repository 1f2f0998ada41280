import BrokeTurnkey.Footprint
import BrokeTurnkey.Growth
import BrokeTurnkey.Interaction.Given

/-!
# What is handed to the providers

A transaction leaves the API in two places: at the end of a `requestSign` call and where
the monitor replaces a stuck one.  In both it is what the sidecar returned for the key of
a stored wallet; in the first for the wallet and the fields the call was asked for, in the
second for the wallet of the row that is replaced.
-/

namespace BrokeTurnkey

open Interaction

/-- The ciphertexts and the path that name the key of a wallet to the sidecar. -/
def keyMaterial (seedRow : OrganizationSeed) (row : Wallet) : KeyMaterial :=
  ⟨seedRow.encryptedSeed, seedRow.seedNonce, seedRow.encryptedDek, row.derivationPath⟩

/-- The tables have a request for this wallet and chain under the id. -/
def HasRequestFor (t : Tables) (id wallet : Uuid) (chainId : Nat) : Prop :=
  ∃ row ∈ t.requests, row.id = id ∧ row.walletId = wallet ∧ row.chainId = chainId

/-- What replies tell of rows, on the tables they are looked for in, and of signatures. -/
structure TellsRows (t : Tables)
    (Fact : (command : Cmd) → Except JsError command.Reply → Prop) : Prop where
  seed : ∀ orgId (row : OrganizationSeed),
    Fact (.sql (.seedFindByOrgId orgId)) (.ok (some row)) →
      Uuid.ofText orgId = some row.orgId ∧ t.seed? row.orgId = some row
  wallet : ∀ walletId (row : Wallet), Fact (.sql (.walletFindById walletId)) (.ok (some row)) →
    row ∈ t.wallets ∧ Uuid.ofText walletId = some row.id
  broadcasted : ∀ rows : List SigningRequest, Fact (.sql .requestFindBroadcasted) (.ok rows) →
    ∀ row ∈ rows, HasRequestFor t row.id row.walletId row.chainId
  signed : ∀ wallet origin key txFields (result : SignTransactionResult),
    Fact (.sidecar (.signTransaction wallet origin key txFields)) (.ok result) →
      result.rawTx.origin = origin ∧ result.rawTx.fields = txFields

/-- The sidecar returned the transaction for the key of the wallet. -/
structure SignedFor (t : Tables) (Fact : (command : Cmd) → Except JsError command.Reply → Prop)
    (rawTx : RawTx) (row : Wallet) (seedRow : OrganizationSeed) (result : SignTransactionResult) :
    Prop where
  stored : row ∈ t.wallets
  seed : t.seed? row.orgId = some seedRow
  answered : Fact (.sidecar (.signTransaction row.id rawTx.origin (keyMaterial seedRow row)
    rawTx.fields)) (.ok result)
  returned : result.rawTx = rawTx

/-- What is handed to a provider was returned for the key of a wallet, and `P` says whose
    it is and what it was signed for. -/
def HandsOver (t : Tables) (Fact : (command : Cmd) → Except JsError command.Reply → Prop)
    (P : RawTx → Wallet → Prop) (command : Cmd) : Prop :=
  ∀ rawTx, command.submits = some rawTx →
    ∃ row seedRow result, SignedFor t Fact rawTx row seedRow result ∧ P rawTx row

section

variable {t : Tables} {Fact : (command : Cmd) → Except JsError command.Reply → Prop}
  {P : RawTx → Wallet → Prop} {cfg : Config} {α β : Type}

theorem HandsOver.of_none {command : Cmd} (h : command.submits = none) :
    HandsOver t Fact P command := by
  intro rawTx hsubmits
  rw [h] at hsubmits
  cases hsubmits

theorem HandsOver.of_query {command : Cmd} (h : command.isQuery = true) :
    HandsOver t Fact P command := .of_none (Cmd.submits_of_query h)

theorem handsOver_queries {p : Js α} (h : Queries p) : p.All (HandsOver t Fact P) :=
  h.mono fun _ => .of_query

theorem handsOver_sql (statement : Sql) : (Js.sql statement).All (HandsOver t Fact P) :=
  Prog.All.perform (.of_none rfl)

/-- Go on where nothing was handed over. -/
theorem given_bind_of_all {Q : Except JsError β → Prop} {p : Js α} {f : α → Js β}
    (hp : p.All (HandsOver t Fact P)) (hf : ∀ value, (f value).Given Fact (HandsOver t Fact P) Q)
    (herr : ∀ error, Q (.error error)) : (p >>= f).Given Fact (HandsOver t Fact P) Q :=
  Prog.Given.bind (.of_all hp) (fun value _ => hf value) fun error _ => herr error

theorem broadcastTransaction_handsOver {row : Wallet} {seedRow : OrganizationSeed}
    {result : SignTransactionResult} (hsigned : SignedFor t Fact result.rawTx row seedRow result)
    (hP : P result.rawTx row) (chainId : Nat) :
    (broadcastTransaction cfg result.rawTx chainId).All (HandsOver t Fact P) := by
  refine Prog.All.bind (Prog.All.perform (.of_none rfl)) fun _ => ?_
  refine rpcCallWithRetry_all (fun rpcUrl => ?_) cfg chainId
  rintro rawTx ⟨⟩
  exact ⟨row, seedRow, result, hsigned, hP⟩

/-! ### requestSign -/

/-- The transaction of a call, with the key of the wallet it names. -/
structure ForRequest (orgId walletId : Text) (req : SignRequest) (rawTx : RawTx) (row : Wallet) :
    Prop where
  org : row.orgId.toText = orgId
  named : Uuid.ofText walletId = some row.id
  chainId : rawTx.fields.chainId = req.chainId
  toAddr : rawTx.fields.toAddr = req.toAddr
  value : rawTx.fields.value = req.value
  data : rawTx.fields.data = req.data

namespace WalletService

variable {orgId walletId : Text} {req : SignRequest}

/-- The wallet is the org's, and the seed is the org's. -/
theorem loadPrerequisites_given (hfact : TellsRows t Fact) :
    (loadPrerequisites orgId walletId).Given Fact (HandsOver t Fact P) fun outcome =>
      ∀ seedRow row, outcome = .ok (seedRow, row) → row ∈ t.wallets ∧
        t.seed? row.orgId = some seedRow ∧ row.orgId.toText = orgId ∧
        Uuid.ofText walletId = some row.id := by
  refine Prog.Given.bind (Prog.Given.perform (.of_none rfl) fun _ h => h) ?_ (by rintro _ _ _ _ ⟨⟩)
  intro seedRow hseedRow
  refine Prog.Given.bind (Prog.Given.perform (.of_none rfl) fun _ h => h) ?_ (by rintro _ _ _ _ ⟨⟩)
  intro row hrow
  cases seedRow with
  | none => rintro _ _ ⟨⟩
  | some seedRow =>
    cases row with
    | none => rintro _ _ ⟨⟩
    | some row =>
      simp only
      split
      · rintro _ _ ⟨⟩
      · rename_i horg
        rintro _ _ ⟨⟩
        obtain ⟨hnamed, hseed⟩ := hfact.seed _ _ hseedRow
        obtain ⟨hmem, hid⟩ := hfact.wallet _ _ hrow
        rw [not_not] at horg
        rw [← horg, Uuid.ofText_toText, Option.some.injEq] at hnamed
        rw [← hnamed] at hseed
        exact ⟨hmem, hseed, horg, hid⟩

theorem createOrReuse_handsOver (idempotencyKey : Text) :
    (createOrReuse orgId walletId req idempotencyKey).All (HandsOver t Fact P) :=
  createOrReuse_all (fun _ => .of_query) (fun _ => .of_none rfl) (fun _ _ => .of_none rfl)
    orgId walletId req idempotencyKey

/-- The fields are those of the request. -/
theorem prepareFields_given (fees : FeeEstimate) (id : Uuid) :
    (prepareFields walletId req fees id).Given Fact (HandsOver t Fact P) fun outcome =>
      ∀ txFields, outcome = .ok txFields → txFields.chainId = req.chainId ∧
        txFields.toAddr = req.toAddr ∧ txFields.value = req.value ∧ txFields.data = req.data := by
  refine given_bind_of_all (handsOver_sql _) (fun nonce => ?_) (by rintro _ _ ⟨⟩)
  refine given_bind_of_all (handsOver_sql _) (fun _ => ?_) (by rintro _ _ ⟨⟩)
  rintro _ ⟨⟩
  exact ⟨rfl, rfl, rfl, rfl⟩

/-- What is returned was signed with the key of the wallet. -/
theorem signStep_given (hfact : TellsRows t Fact) {seedRow : OrganizationSeed} {row : Wallet}
    (hrow : row ∈ t.wallets) (hseed : t.seed? row.orgId = some seedRow) (txFields : TxFields)
    (id : Uuid) :
    (signStep seedRow row walletId txFields id).Given Fact (HandsOver t Fact P) fun outcome =>
      ∀ result, outcome = .ok result → result.rawTx.fields = txFields ∧
        SignedFor t Fact result.rawTx row seedRow result := by
  refine Prog.Given.andThen (Prog.Given.perform (.of_none rfl) fun _ h => h) fun outcome h => ?_
  cases outcome with
  | ok result =>
    rintro _ ⟨⟩
    obtain ⟨horigin, hfields⟩ := hfact.signed _ _ _ _ _ h
    refine ⟨hfields, hrow, hseed, ?_, rfl⟩
    rw [horigin, hfields]
    exact h
  | error error =>
    refine given_bind_of_all (handsOver_sql _) (fun _ => ?_) (by rintro _ _ ⟨⟩)
    refine given_bind_of_all (handsOver_sql _) (fun _ => ?_) (by rintro _ _ ⟨⟩)
    rintro _ ⟨⟩

theorem broadcastStep_handsOver {row : Wallet} {seedRow : OrganizationSeed}
    {result : SignTransactionResult} (hsigned : SignedFor t Fact result.rawTx row seedRow result)
    (hP : P result.rawTx row) (chainId : Nat) (id : Uuid) :
    (broadcastStep cfg row walletId chainId result id).All (HandsOver t Fact P) := by
  refine Prog.All.tryCatch ?_ fun error => ?_
  · refine Prog.All.bind (broadcastTransaction_handsOver hsigned hP chainId) fun _ => ?_
    exact Prog.All.bind (handsOver_queries now_queries) fun _ => handsOver_sql _
  · refine Prog.All.bind (handsOver_sql _) fun _ => ?_
    exact Prog.All.bind (Prog.All.perform (.of_none rfl)) fun _ => trivial

theorem submit_given (hfact : TellsRows t Fact) {seedRow : OrganizationSeed} {row : Wallet}
    (hrow : row ∈ t.wallets) (hseed : t.seed? row.orgId = some seedRow)
    (horg : row.orgId.toText = orgId) (hnamed : Uuid.ofText walletId = some row.id)
    (idempotencyKey : Text) (fees : FeeEstimate) (id : Uuid) :
    (submit cfg orgId walletId req seedRow row idempotencyKey fees id).Given Fact
      (HandsOver t Fact (ForRequest orgId walletId req)) fun _ => True := by
  refine Prog.Given.bind (prepareFields_given fees id) (fun txFields hfields => ?_)
    fun _ _ => trivial
  obtain ⟨hchain, hto, hvalue, hdata⟩ := hfields txFields rfl
  refine Prog.Given.bind (signStep_given hfact hrow hseed txFields id) (fun result hresult => ?_)
    fun _ _ => trivial
  obtain ⟨hsent, hsigned⟩ := hresult result rfl
  have hfor : ForRequest orgId walletId req result.rawTx row := by
    constructor
    case org => exact horg
    case named => exact hnamed
    case chainId => rw [hsent, hchain]
    case toAddr => rw [hsent, hto]
    case value => rw [hsent, hvalue]
    case data => rw [hsent, hdata]
  have hstored : (storeSigned id result).All (HandsOver t Fact (ForRequest orgId walletId req)) :=
    Prog.All.bind (handsOver_queries now_queries) fun _ => handsOver_sql _
  refine given_bind_of_all hstored (fun _ => ?_) fun _ => trivial
  refine given_bind_of_all (broadcastStep_handsOver hsigned hfor req.chainId id) (fun _ => ?_)
    fun _ => trivial
  exact given_bind_of_all (handsOver_sql _) (fun _ => trivial) fun _ => trivial

/-- **What a call hands over is what it was asked for.** -/
theorem requestSign_given (hfact : TellsRows t Fact) :
    (requestSign cfg orgId walletId req).Given Fact
      (HandsOver t Fact (ForRequest orgId walletId req)) fun _ => True := by
  refine Prog.Given.bind (loadPrerequisites_given hfact) (fun loaded hloaded => ?_)
    fun _ _ => trivial
  obtain ⟨hrow, hseed, horg, hnamed⟩ := hloaded loaded.1 loaded.2 rfl
  refine given_bind_of_all (handsOver_sql _) (fun existing => ?_) fun _ => trivial
  split
  · trivial
  · refine given_bind_of_all (evaluatePolicy_all (fun _ => .of_query) (fun _ _ => .of_none rfl) cfg
      req) (fun _ => ?_) fun _ => trivial
    refine given_bind_of_all (handsOver_queries (estimateFees_queries ..)) (fun fees => ?_)
      fun _ => trivial
    refine given_bind_of_all (createOrReuse_handsOver _) (fun claimed => ?_) fun _ => trivial
    cases claimed with
    | existing result => trivial
    | own id => exact submit_given hfact hrow hseed horg hnamed _ fees id

end WalletService

/-! ### The monitor -/

/-- A replacement for a request of the tables, with the key of its wallet. -/
def Replaces (t : Tables) (rawTx : RawTx) (row : Wallet) : Prop :=
  HasRequestFor t rawTx.origin row.id rawTx.fields.chainId

namespace Monitor

variable {row : SigningRequest}

theorem updateRow_handsOver (fields : SigningRequestUpdate) :
    (updateRow row fields).All (HandsOver t Fact P) := handsOver_sql _

/-- The replacement is for the same chain. -/
theorem rebuild_given (txPayload : TxFields) :
    (rebuild cfg row txPayload).Given Fact (HandsOver t Fact P) fun outcome =>
      ∀ txFields, outcome = .ok txFields → txFields.chainId = row.chainId := by
  refine given_bind_of_all (handsOver_queries (estimateFees_queries ..)) (fun fees => ?_)
    (by rintro _ _ ⟨⟩)
  split
  · rintro _ ⟨⟩
    rfl
  · rintro _ ⟨⟩

theorem sendReplacement_handsOver {wallet : Wallet} {seedRow : OrganizationSeed}
    {result : SignTransactionResult} (hsigned : SignedFor t Fact result.rawTx wallet seedRow result)
    (hP : P result.rawTx wallet) :
    (sendReplacement cfg row result).All (HandsOver t Fact P) := by
  refine Prog.All.bind (Prog.All.tryCatch ?_ fun error => ?_) fun sent => ?_
  · refine Prog.All.bind (broadcastTransaction_handsOver hsigned hP _) fun value => ?_
    split
    · trivial
    · trivial
  · exact Prog.All.bind (updateRow_handsOver _) fun _ => trivial
  · split
    · refine Prog.All.bind (handsOver_queries now_queries) fun _ => ?_
      exact Prog.All.bind (handsOver_queries now_queries) fun _ => updateRow_handsOver _
    · trivial

theorem signReplacement_given (hfact : TellsRows t Fact) {wallet : Wallet}
    {seedRow : OrganizationSeed} (hwallet : wallet ∈ t.wallets)
    (hseed : t.seed? wallet.orgId = some seedRow) {txFields : TxFields}
    (hrow : HasRequestFor t row.id wallet.id txFields.chainId) :
    (signReplacement cfg row wallet seedRow txFields).Given Fact
      (HandsOver t Fact (Replaces t)) fun _ => True := by
  refine Prog.Given.bind (Q := fun outcome => ∀ result, outcome = .ok (some result) →
    Replaces t result.rawTx wallet ∧ SignedFor t Fact result.rawTx wallet seedRow result) ?_ ?_
    fun _ _ => trivial
  · refine Prog.Given.andThen (Q := fun outcome => ∀ result, outcome = .ok (some result) →
      Replaces t result.rawTx wallet ∧ SignedFor t Fact result.rawTx wallet seedRow result) ?_ ?_
    · refine Prog.Given.bind (Prog.Given.perform (.of_none rfl) fun _ h => h) ?_
        (by rintro _ _ _ ⟨⟩)
      rintro result h _ ⟨⟩
      obtain ⟨horigin, hfields⟩ := hfact.signed _ _ _ _ _ h
      refine ⟨?_, hwallet, hseed, ?_, rfl⟩
      · rw [Replaces, horigin, hfields]
        exact hrow
      · rw [horigin, hfields]
        exact h
    · intro outcome h
      cases outcome with
      | ok result => exact h
      | error error =>
        refine given_bind_of_all (updateRow_handsOver _) (fun _ => ?_) (by rintro _ _ ⟨⟩)
        rintro _ ⟨⟩
  · intro result hresult
    cases result with
    | none => trivial
    | some result =>
      obtain ⟨hreplaces, hsigned⟩ := hresult result rfl
      exact .of_all (sendReplacement_handsOver hsigned hreplaces)

theorem speedUp_given (hfact : TellsRows t Fact)
    (hrow : HasRequestFor t row.id row.walletId row.chainId) :
    (speedUp cfg row).Given Fact (HandsOver t Fact (Replaces t)) fun _ => True := by
  rw [speedUp]
  split
  · exact .of_all (updateRow_handsOver _)
  · split
    · exact .of_all (updateRow_handsOver _)
    · refine Prog.Given.bind (Prog.Given.perform (.of_none rfl) fun _ h => h) ?_ fun _ _ => trivial
      intro wallet hfound
      cases wallet with
      | none => exact .of_all (updateRow_handsOver _)
      | some wallet =>
        obtain ⟨hwallet, hnamed⟩ := hfact.wallet _ _ hfound
        rw [Uuid.ofText_toText, Option.some.injEq] at hnamed
        refine Prog.Given.bind (Prog.Given.perform (.of_none rfl) fun _ h => h) ?_
          fun _ _ => trivial
        intro seedRow hstored
        cases seedRow with
        | none => exact .of_all (updateRow_handsOver _)
        | some seedRow =>
          obtain ⟨hown, hseed⟩ := hfact.seed _ _ hstored
          rw [Uuid.ofText_toText, Option.some.injEq] at hown
          rw [← hown] at hseed
          refine Prog.Given.bind (rebuild_given _) (fun txFields hfields => ?_) fun _ _ => trivial
          rw [hnamed, ← hfields txFields rfl] at hrow
          exact signReplacement_given hfact hwallet hseed hrow

theorem settle_handsOver (receipt : TransactionReceipt) :
    (settle row receipt).All (HandsOver t Fact P) := by
  rw [settle]
  split
  · exact Prog.All.bind (handsOver_queries now_queries) fun now => updateRow_handsOver _
  · exact updateRow_handsOver _

theorem processRow_given (hfact : TellsRows t Fact)
    (hrow : HasRequestFor t row.id row.walletId row.chainId) :
    (processRow cfg row).Given Fact (HandsOver t Fact (Replaces t)) fun _ => True := by
  rw [processRow]
  split
  · exact .of_all (updateRow_handsOver _)
  · refine given_bind_of_all (Prog.All.tryCatch ?_ fun _ => trivial) (fun receipt => ?_)
      fun _ => trivial
    · exact Prog.All.bind (handsOver_queries (getTransactionReceipt_queries ..)) fun _ => trivial
    · split
      · trivial
      · exact .of_all (settle_handsOver _)
      · refine given_bind_of_all (handsOver_queries now_queries) (fun now => ?_) fun _ => trivial
        dsimp only
        split
        · trivial
        · refine given_bind_of_all (handsOver_queries (getTransactionByHash_queries ..))
            (fun _ => ?_) fun _ => trivial
          split
          · exact .of_all (updateRow_handsOver _)
          · exact speedUp_given hfact hrow

theorem processRows_given (hfact : TellsRows t Fact) {rows : List SigningRequest}
    (hrows : ∀ row ∈ rows, HasRequestFor t row.id row.walletId row.chainId) :
    (processRows cfg rows).Given Fact (HandsOver t Fact (Replaces t)) fun _ => True := by
  induction rows with
  | nil => trivial
  | cons row rest ih =>
    refine Prog.Given.bind (Q := fun _ => True) ?_ (fun _ _ => ?_) fun _ _ => trivial
    · refine Prog.Given.andThen (processRow_given hfact (hrows row List.mem_cons_self)) ?_
      intro outcome _
      cases outcome with
      | ok _ => trivial
      | error error => trivial
    · exact ih fun row hrow => hrows row (List.mem_cons_of_mem _ hrow)

/-- **What the monitor hands over replaces a transaction of a stored request.** -/
theorem monitor_given (hfact : TellsRows t Fact) (cycles : Nat) :
    (monitor cfg cycles).Given Fact (HandsOver t Fact (Replaces t)) fun _ => True := by
  induction cycles with
  | zero => trivial
  | succ cycles ih =>
    refine Prog.Given.bind (Q := fun _ => True) ?_ (fun _ _ => ih) fun _ _ => trivial
    refine Prog.Given.bind (Q := fun outcome => ∀ rows : List SigningRequest, outcome = .ok rows →
      ∀ row ∈ rows, HasRequestFor t row.id row.walletId row.chainId) ?_
      (fun rows hrows => processRows_given hfact (hrows rows rfl)) fun _ _ => trivial
    refine Prog.Given.andThen (Prog.Given.perform (.of_none rfl) fun _ h => h) fun outcome h => ?_
    cases outcome with
    | ok rows =>
      rintro _ ⟨⟩
      exact hfact.broadcasted rows h
    | error error => rintro _ ⟨⟩ _ ⟨⟩

end Monitor

end

end BrokeTurnkey
