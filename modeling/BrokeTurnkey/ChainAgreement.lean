import BrokeTurnkey.Rows
import BrokeTurnkey.Interaction.Sequential

/-!
# The monitor against the chain

After a speed-up several transactions with one nonce compete, and the miner may
include any of them.  The row names the hash of the latest one only, and
`processRow` looks at nothing else.  Against a chain that stands still, with every
lookup and every write answered, it agrees with the chain exactly if the mined
transaction is the one the row tracks and what its receipt says fits the columns.
-/

namespace BrokeTurnkey

open Interaction

/-! ### A chain that stands still -/

/-- What the providers know while a row is processed. -/
structure Chain where
  receipt : Text → Option TransactionReceipt
  /-- the transaction is mined or in the mempool -/
  known : Text → Bool

namespace Chain

/-- The transaction is mined and has succeeded. -/
def Mined (chain : Chain) (txHash : Text) : Prop :=
  ∃ receipt, chain.receipt txHash = some receipt ∧ receipt.status = some 1

/-- The `result` member of an answer to a lookup. -/
def lookup (chain : Chain) : RpcRequest → Option RpcResult
  | .getTransactionReceipt txHash => some ((chain.receipt txHash).elim .null .receipt)
  | .getTransactionByHash txHash => some (if chain.known txHash then .transaction else .null)
  | _ => none

/-- Lookups are answered with the chain, and writes of the row reach the database and are
    answered. -/
def Answers (chain : Chain) : Cmd → Choice → Bool
  | .fetch _ request, .fetched outcome _ =>
    match chain.lookup request with
    | some value =>
      match outcome with
      | .ok (.result answer) => answer = value
      | _ => false
    | none => true
  | .sql (.requestUpdate _ _), .done _ => true
  | .sql (.requestUpdate _ _), _ => false
  | _, _ => true

def answers (chain : Chain) : Guard Cmd Choice Event World where
  command := fun command choice _ => chain.Answers command choice = true
  event := fun _ _ => True

instance (chain : Chain) : chain.answers.Decides where
  command := fun command choice _ =>
    inferInstanceAs (Decidable (chain.Answers command choice = true))
  event := fun _ _ => isTrue trivial

end Chain

/-! ### What is being claimed -/

/-- The entry marks a row dropped or failed, or submits a transaction. -/
def contradicts (entry : ServiceEntry) : Bool :=
  match entry.command with
  | .sql (.requestUpdate _ fields) =>
    fields.status = some .dropped || fields.status = some .failed
  | .fetch _ (.sendRawTransaction _) => true
  | _ => false

def Calm (history : List ServiceEntry) : Prop := ∀ entry ∈ history, contradicts entry = false

/-- `hashes` are the transactions broadcast for the row, by whatever history of
    speed-ups.  If one of them is mined, processing the row leaves it confirmed,
    and does nothing else about it. -/
def MonitorAgrees (cfg : Config) (chain : Chain) (hashes : List Text) (row : SigningRequest)
    (w : World) : Prop :=
  (∃ txHash ∈ hashes, chain.Mined txHash) →
    ∀ outcome w' history,
      Completes (services cfg) chain.answers (Monitor.processRow cfg row) w [] outcome w' history →
      Stored row.id (fun row => row.status = .confirmed) w'.tables ∧ Calm history

/-- The values fit the columns `block_number`, `gas_used` and `effective_gas_price`. -/
def TransactionReceipt.FitsColumns (receipt : TransactionReceipt) : Prop :=
  (receipt.blockNumber : Int) ≤ int4Max ∧ (receipt.gasUsed.getD "undefined".toList).length ≤ 50 ∧
    (receipt.effectiveGasPrice.getD "undefined".toList).length ≤ 50

/-- On a chain with a provider the transaction the row tracks is mined, with a receipt that
    can be stored. -/
def MinesTracked (cfg : Config) (chain : Chain) (row : SigningRequest) : Prop :=
  (∃ rpcUrl rest, cfg.rpcUrls row.chainId = some (rpcUrl :: rest)) ∧
    ∃ txHash receipt, row.txHash = some txHash ∧ txHash ≠ [] ∧
      chain.receipt txHash = some receipt ∧ receipt.status = some 1 ∧ receipt.FitsColumns

/-- If a transaction of the row is mined, it is the one the row tracks. -/
def TracksMined (cfg : Config) (chain : Chain) (hashes : List Text) (row : SigningRequest) : Prop :=
  (∃ txHash ∈ hashes, chain.Mined txHash) → MinesTracked cfg chain row

namespace ChainAgreement

variable {cfg : Config} {chain : Chain} {row : SigningRequest} {w : World}
  {history : List ServiceEntry}

theorem calm_cons {i : Nat} {command : Cmd} {choice : Choice}
    {reply : Except JsError command.Reply} (h : Calm history)
    (hentry : contradicts (entryOf i command choice reply) = false) :
    Calm (entryOf i command choice reply :: history) :=
  List.forall_mem_cons.mpr ⟨hentry, h⟩

/-! ### Lookups -/

section Lookup

variable {request : RpcRequest} {value : RpcResult}
  (hlookup : chain.lookup request = some value)
include hlookup

theorem isQuery_of_lookup : request.isQuery = true := by
  cases request with
  | sendRawTransaction rawTx => cases hlookup
  | _ => rfl

/-- The guard leaves a provider one answer. -/
theorem reply_of_lookup {rpcUrl : Text} {choice : Choice} {reply : Except JsError HttpReply}
    {w' : World} (hguard : chain.answers.command (.fetch rpcUrl request) choice w)
    (hexec : exec (.fetch rpcUrl request) choice w = some (reply, w')) :
    reply = .ok (.result value) ∧ w' = w := by
  obtain ⟨accepted, rfl, rfl⟩ := exec_fetch hexec
  refine ⟨?_, World.accept_query (isQuery_of_lookup hlookup) w accepted⟩
  have hanswers : chain.Answers (.fetch rpcUrl request) (.fetched reply accepted) = true := hguard
  simp only [Chain.Answers, hlookup] at hanswers
  split at hanswers
  · rw [of_decide_eq_true hanswers]
  · cases hanswers

/-- The first provider asked answers with the chain. -/
theorem callProvider_meets (rpcUrl : Text) (hcalm : Calm history) :
    Meets (services cfg) chain.answers
      (fun outcome w' history' => outcome = .ok value ∧ w' = w ∧ Calm history')
      (callProvider request rpcUrl) w history := by
  refine Meets.bind (P := fun outcome w' history' =>
    outcome = .ok (.result value) ∧ w' = w ∧ Calm history') (Meets.perform ?_) ?_ ?_
  · intro choice reply w' hguard hexec
    obtain ⟨rfl, rfl⟩ := reply_of_lookup hlookup hguard hexec
    refine ⟨rfl, rfl, calm_cons hcalm ?_⟩
    cases request with
    | sendRawTransaction rawTx => cases hlookup
    | _ => rfl
  · rintro reply w' history' ⟨heq, hw, hcalm'⟩
    cases heq
    exact ⟨rfl, hw, hcalm'⟩
  · rintro error w' history' ⟨heq, _⟩
    cases heq

theorem lookup_meets {chainId : Nat} {rpcUrl : Text} {rest : List Text}
    (hurls : cfg.rpcUrls chainId = some (rpcUrl :: rest)) (hcalm : Calm history) :
    Meets (services cfg) chain.answers
      (fun outcome w' history' => outcome = .ok value ∧ w' = w ∧ Calm history')
      (rpcCallWithRetry cfg request chainId) w history := by
  have hcall : Meets (services cfg) chain.answers
      (fun outcome w' history' => outcome = .ok value ∧ w' = w ∧ Calm history')
      (callProvider request rpcUrl) w history := callProvider_meets hlookup rpcUrl hcalm
  refine Meets.tryCatch (P := fun outcome w' history' =>
    outcome = .ok value ∧ w' = w ∧ Calm history') ?_ (fun _ _ _ h => h) ?_
  · rw [rpcCall, hurls]
    cases rest with
    | nil => exact hcall
    | cons next rest =>
      refine Meets.tryCatch hcall (fun _ _ _ h => h) ?_
      rintro error w' history' ⟨heq, _⟩
      cases heq
  · rintro error w' history' ⟨heq, _⟩
    cases heq

end Lookup

/-- A chain without providers answers nothing. -/
theorem rpcAttempts_noProvider {request : RpcRequest} {chainId : Nat}
    (hurls : ∀ rpcUrl rest, cfg.rpcUrls chainId ≠ some (rpcUrl :: rest)) (attempts : Nat)
    (lastError : JsError) :
    Meets (services cfg) chain.answers
      (fun outcome w' _ => outcome.isOk = false ∧ w' = w)
      (rpcAttempts cfg request chainId attempts lastError) w history := by
  induction attempts generalizing lastError with
  | zero => exact ⟨rfl, rfl⟩
  | succ attempts ih =>
    have hcall : ∃ error, rpcCall cfg request chainId = .throw error := by
      simp only [rpcCall]
      split
      · exact ⟨_, rfl⟩
      · rename_i rpcUrls heq
        cases rpcUrls with
        | nil => exact ⟨_, rfl⟩
        | cons rpcUrl rest => exact absurd heq (hurls rpcUrl rest)
    obtain ⟨error, hcall⟩ := hcall
    rw [rpcAttempts, hcall]
    change Meets _ _ _ (if classifyError error = .permanent then Prog.throw error else
      rpcAttempts cfg request chainId attempts error) w history
    split
    · exact ⟨rfl, rfl⟩
    · exact ih error

/-- The receipt lookup of `processRow`, with its `catch` block. -/
def readReceipt (cfg : Config) (row : SigningRequest) (txHash : Text) :
    Js (Option (Option TransactionReceipt)) :=
  tryCatch
    (do
      let receipt ← getTransactionReceipt cfg txHash row.chainId
      return some receipt)
    fun _ => return none

theorem readReceipt_meets {rpcUrl : Text} {rest : List Text}
    (hurls : cfg.rpcUrls row.chainId = some (rpcUrl :: rest)) (txHash : Text)
    (hcalm : Calm history) :
    Meets (services cfg) chain.answers
      (fun outcome w' history' =>
        outcome = .ok (some (chain.receipt txHash)) ∧ w' = w ∧ Calm history')
      (readReceipt cfg row txHash) w history := by
  have hget : Meets (services cfg) chain.answers
      (fun outcome w' history' => outcome = .ok (chain.receipt txHash) ∧ w' = w ∧ Calm history')
      (getTransactionReceipt cfg txHash row.chainId) w history := by
    have hlookup : chain.lookup (.getTransactionReceipt txHash) =
        some ((chain.receipt txHash).elim .null .receipt) := rfl
    refine Meets.bind (lookup_meets hlookup hurls hcalm) ?_ ?_
    · rintro value w' history' ⟨heq, hw, hcalm'⟩
      cases heq
      cases hreceipt : chain.receipt txHash with
      | none => exact ⟨rfl, hw, hcalm'⟩
      | some receipt => exact ⟨rfl, hw, hcalm'⟩
    · rintro error w' history' ⟨heq, _⟩
      cases heq
  refine Meets.tryCatch (P := fun outcome w' history' =>
    outcome = .ok (some (chain.receipt txHash)) ∧ w' = w ∧ Calm history') ?_
    (fun _ _ _ h => h) ?_
  · refine Meets.bind hget ?_ ?_
    · rintro value w' history' ⟨heq, hw, hcalm'⟩
      cases heq
      exact ⟨rfl, hw, hcalm'⟩
    · rintro error w' history' ⟨heq, _⟩
      cases heq
  · rintro error w' history' ⟨heq, _⟩
    cases heq

theorem readReceipt_noProvider
    (hurls : ∀ rpcUrl rest, cfg.rpcUrls row.chainId ≠ some (rpcUrl :: rest)) (txHash : Text) :
    Meets (services cfg) chain.answers (fun outcome w' _ => outcome = .ok none ∧ w' = w)
      (readReceipt cfg row txHash) w history := by
  refine Meets.tryCatch (P := fun outcome w' _ => outcome.isOk = false ∧ w' = w) ?_ ?_ ?_
  · refine Meets.bind (P := fun outcome w' _ => outcome.isOk = false ∧ w' = w) ?_ ?_ ?_
    · refine Meets.bind (rpcAttempts_noProvider hurls _ _) ?_ (fun _ _ _ h => h)
      rintro value w' history' ⟨hok, _⟩
      cases hok
    · rintro value w' history' ⟨hok, _⟩
      cases hok
    · exact fun _ _ _ h => h
  · rintro value w' history' ⟨hok, _⟩
    cases hok
  · rintro error w' history' ⟨_, hw⟩
    exact ⟨rfl, hw⟩

/-! ### The tracked transaction is mined -/

theorem fits_iff (receipt : TransactionReceipt) (now : Int) : SigningRequestUpdate.Fits
    { status := some .confirmed
      blockNumber := some receipt.blockNumber
      gasUsed := some (receipt.gasUsed.getD "undefined".toList)
      effectiveGasPrice := some (receipt.effectiveGasPrice.getD "undefined".toList)
      confirmedAt := some now } ↔ receipt.FitsColumns := by
  simp only [SigningRequestUpdate.Fits, SigningRequestRepository.outOfRange,
    SigningRequestRepository.tooLong, TransactionReceipt.FitsColumns, Option.any_some,
    Option.any_none, Bool.or_false, Bool.false_or, Bool.or_eq_false_iff, decide_eq_false_iff_not,
    not_lt, gt_iff_lt]

theorem settle_meets {receipt : TransactionReceipt} (hreceipt : receipt.status = some 1)
    (hfits : receipt.FitsColumns) (hrow : HasRow row.id w.tables) (hcalm : Calm history) :
    Meets (services cfg) chain.answers
      (fun _ w' history' =>
        Stored row.id (fun row => row.status = .confirmed) w'.tables ∧ Calm history')
      (Monitor.settle row receipt) w history := by
  rw [Monitor.settle, if_pos hreceipt]
  refine Meets.bind (P := fun outcome w' history' =>
    outcome.isOk = true ∧ w' = w ∧ Calm history') (Meets.perform ?_) ?_ ?_
  · intro choice reply w' _ hexec
    obtain ⟨hok, rfl⟩ := exec_local rfl hexec
    exact ⟨hok, rfl, calm_cons hcalm rfl⟩
  · rintro now w' history' ⟨_, rfl, hcalm'⟩
    refine Meets.perform fun choice reply w'' hguard hexec => ?_
    have hran : choice.ran = true := by
      cases choice with
      | done id => rfl
      | _ => cases hguard
    rcases exec_update_of_fits ((fits_iff receipt now).mpr hfits) hexec with
      ⟨_, rfl, _⟩ | ⟨hreject, _, _⟩
    · have hstored : Stored row.id (fun _ => True) w'.tables := ⟨hrow, everyRow_true _ _⟩
      exact ⟨hstored.update fun _ _ => rfl, calm_cons hcalm' rfl⟩
    · cases hran.symm.trans hreject
  · rintro error w' history' ⟨hok, _⟩
    cases hok

theorem processRow_confirms {rpcUrl : Text} {rest : List Text}
    (hurls : cfg.rpcUrls row.chainId = some (rpcUrl :: rest)) {txHash : Text}
    {receipt : TransactionReceipt} (htracked : row.txHash = some txHash) (hne : txHash ≠ [])
    (hreceipt : chain.receipt txHash = some receipt) (hstatus : receipt.status = some 1)
    (hfits : receipt.FitsColumns) (hrow : HasRow row.id w.tables) (hcalm : Calm history) :
    Meets (services cfg) chain.answers
      (fun _ w' history' =>
        Stored row.id (fun row => row.status = .confirmed) w'.tables ∧ Calm history')
      (Monitor.processRow cfg row) w history := by
  have hfound : row.txHash.filter (fun txHash => decide (txHash ≠ [])) = some txHash := by
    rw [htracked, Option.filter_some, if_pos (decide_eq_true hne)]
  rw [Monitor.processRow, hfound]
  refine Meets.bind (readReceipt_meets hurls txHash hcalm) ?_ ?_
  · rintro value w' history' ⟨heq, rfl, hcalm'⟩
    rw [hreceipt] at heq
    cases heq
    exact settle_meets hstatus hfits hrow hcalm'
  · rintro error w' history' ⟨heq, _⟩
    cases heq

/-! ### The tracked transaction is not mined, or cannot be recorded -/

/-- The command writes that the row is confirmed. -/
def confirms : Cmd → Bool
  | .sql (.requestUpdate _ fields) => fields.status = some .confirmed
  | _ => false

/-- Methods that never confirm a row. -/
abbrev Unconfirming {α : Type} (p : Js α) : Prop := p.All fun command => confirms command = false

theorem unconfirming_of_queries {α : Type} {p : Js α} (h : Queries p) : Unconfirming p := by
  refine Prog.All.mono (fun command hquery => ?_) h
  cases command with
  | sql statement =>
    cases statement with
    | requestUpdate id fields => cases hquery
    | _ => rfl
  | _ => rfl

theorem updateRow_unconfirming {fields : SigningRequestUpdate}
    (h : fields.status ≠ some .confirmed) : Unconfirming (Monitor.updateRow row fields) :=
  Prog.All.perform (decide_eq_false h)

theorem markFailed_unconfirming (errorType : ErrorType) (failureReason : Text) :
    Unconfirming (Monitor.markFailed row errorType failureReason) :=
  updateRow_unconfirming (by nofun)

theorem sendReplacement_unconfirming (result : SignTransactionResult) :
    Unconfirming (Monitor.sendReplacement cfg row result) := by
  refine Prog.All.bind (Prog.All.tryCatch ?_ fun error => ?_) fun sent => ?_
  · refine Prog.All.bind (Prog.All.bind (Prog.All.perform rfl) fun _ => ?_) fun value => ?_
    · exact rpcCallWithRetry_all (fun _ => rfl) cfg row.chainId
    · split <;> trivial
  · exact Prog.All.bind (markFailed_unconfirming _ _) fun _ => trivial
  · split
    · refine Prog.All.bind (Prog.All.perform rfl) fun _ => ?_
      refine Prog.All.bind (Prog.All.perform rfl) fun _ => ?_
      exact updateRow_unconfirming (by nofun)
    · trivial

theorem signReplacement_unconfirming (wallet : Wallet) (seedRow : OrganizationSeed)
    (txFields : TxFields) :
    Unconfirming (Monitor.signReplacement cfg row wallet seedRow txFields) := by
  refine Prog.All.bind (Prog.All.tryCatch ?_ fun error => ?_) fun result => ?_
  · exact Prog.All.bind (Prog.All.perform rfl) fun _ => trivial
  · exact Prog.All.bind (markFailed_unconfirming _ _) fun _ => trivial
  · cases result with
    | none => trivial
    | some result => exact sendReplacement_unconfirming result

theorem speedUp_unconfirming : Unconfirming (Monitor.speedUp cfg row) := by
  rw [Monitor.speedUp]
  split
  · exact markFailed_unconfirming _ _
  · split
    · exact markFailed_unconfirming _ _
    · refine Prog.All.bind (Prog.All.perform rfl) fun wallet => ?_
      split
      · exact markFailed_unconfirming _ _
      · refine Prog.All.bind (Prog.All.perform rfl) fun seedRow => ?_
        split
        · exact markFailed_unconfirming _ _
        · refine Prog.All.bind (unconfirming_of_queries (Monitor.rebuild_queries ..)) fun _ => ?_
          exact signReplacement_unconfirming _ _ _

theorem checkStuck_unconfirming (txHash : Text) :
    Unconfirming (Monitor.checkStuck cfg row txHash) := by
  refine Prog.All.bind (Prog.All.perform rfl) fun now => ?_
  dsimp only
  split
  · trivial
  · refine Prog.All.bind (unconfirming_of_queries (getTransactionByHash_queries ..)) fun _ => ?_
    split
    · exact updateRow_unconfirming (by nofun)
    · exact speedUp_unconfirming

/-- The row is not confirmed. -/
def Unconfirmed (id : Uuid) (w : World) : Prop :=
  Stored id (fun row => row.status ≠ .confirmed) w.tables

theorem unconfirmed_meets {α : Type} {p : Js α} (hp : Unconfirming p)
    (h : Unconfirmed row.id w) :
    Meets (services cfg) chain.answers (fun _ w' _ => Unconfirmed row.id w') p w history := by
  refine Meets.of_all (J := fun w' _ => Unconfirmed row.id w') ?_ h
  refine Prog.All.mono (fun command hcommand choice reply s s' history hj _ hexec => ?_) hp
  refine stored_exec hexec hj ?_
  rintro fields rfl old hold
  have hstatus : fields.status ≠ some .confirmed := of_decide_eq_false hcommand
  cases hfields : fields.status with
  | none => simpa only [SigningRequestUpdate.apply, hfields, Option.getD_none] using hold
  | some status =>
    simp only [SigningRequestUpdate.apply, hfields, Option.getD_some]
    rintro rfl
    exact hstatus hfields

/-- A receipt that cannot be stored changes nothing. -/
theorem settle_unfit {receipt : TransactionReceipt} (hstatus : receipt.status = some 1)
    (hunfit : ¬receipt.FitsColumns) :
    Meets (services cfg) chain.answers (fun _ w' _ => w' = w) (Monitor.settle row receipt) w
      history := by
  rw [Monitor.settle, if_pos hstatus]
  refine Meets.bind (P := fun _ w' _ => w' = w) (Meets.perform ?_) ?_ (fun _ _ _ h => h)
  · intro choice reply w' _ hexec
    exact (exec_local rfl hexec).2
  · rintro now w' history' rfl
    refine Meets.perform fun choice reply w'' _ hexec => ?_
    rcases exec_update hexec with ⟨_, hfits, _⟩ | ⟨_, rfl, _⟩
    · exact absurd ((fits_iff receipt now).mp hfits) hunfit
    · rfl

/-- A row that does not track a mined transaction is not confirmed. -/
theorem processRow_unconfirmed (huntracked : ¬MinesTracked cfg chain row)
    (h : Unconfirmed row.id w) (hcalm : Calm history) :
    Meets (services cfg) chain.answers (fun _ w' _ => Unconfirmed row.id w')
      (Monitor.processRow cfg row) w history := by
  rw [Monitor.processRow]
  split
  · exact unconfirmed_meets (markFailed_unconfirming _ _) h
  · rename_i txHash hfound
    rw [Option.filter_eq_some_iff] at hfound
    by_cases hurls : ∃ rpcUrl rest, cfg.rpcUrls row.chainId = some (rpcUrl :: rest)
    · obtain ⟨rpcUrl, rest, hurls'⟩ := hurls
      refine Meets.bind (readReceipt_meets hurls' txHash hcalm) ?_ ?_
      · rintro value w' history' ⟨heq, rfl, _⟩
        cases heq
        cases hreceipt : chain.receipt txHash with
        | none => exact unconfirmed_meets (checkStuck_unconfirming txHash) h
        | some receipt =>
          dsimp only
          by_cases hstatus : receipt.status = some 1
          · have hunfit : ¬receipt.FitsColumns := fun hfits =>
              huntracked ⟨⟨rpcUrl, rest, hurls'⟩, txHash, receipt, hfound.1,
                of_decide_eq_true hfound.2, hreceipt, hstatus, hfits⟩
            apply Meets.mono ?_ (settle_unfit hstatus hunfit)
            rintro outcome w'' history'' rfl
            exact h
          · rw [Monitor.settle, if_neg hstatus]
            exact unconfirmed_meets (markFailed_unconfirming _ _) h
      · rintro error w' history' ⟨heq, _⟩
        cases heq
    · refine Meets.bind (readReceipt_noProvider (fun rpcUrl rest heq =>
        hurls ⟨rpcUrl, rest, heq⟩) txHash) ?_ ?_
      · rintro value w' history' ⟨heq, rfl⟩
        cases heq
        exact h
      · rintro error w' history' ⟨heq, _⟩
        cases heq

/-! ### A run exists -/

/-- Every command has an answer the guard admits. -/
theorem answers_total (cfg : Config) (chain : Chain) (command : Cmd) (w : World) :
    ∃ choice reply w', chain.answers.command command choice w ∧
      (services cfg).exec command choice w = some (reply, w') := by
  cases command with
  | sql statement =>
    by_cases hupdate : ∃ id fields, statement = .requestUpdate id fields
    · obtain ⟨id, fields, rfl⟩ := hupdate
      exact ⟨.done id, _, _, rfl, rfl⟩
    · refine ⟨.reject (.error []), .error (.error []), w, ?_, rfl⟩
      cases statement with
      | requestUpdate id fields => exact absurd ⟨id, fields, rfl⟩ hupdate
      | _ => exact rfl
  | fetch rpcUrl request =>
    cases hlookup : chain.lookup request with
    | none =>
      refine ⟨.fetched (.error (.error [])) false, _, _, ?_, rfl⟩
      change chain.Answers _ _ = true
      simp only [Chain.Answers, hlookup]
    | some value =>
      refine ⟨.fetched (.ok (.result value)) false, _, _, ?_, rfl⟩
      change chain.Answers _ _ = true
      simp only [Chain.Answers, hlookup, decide_true]
  | sidecar request =>
    refine ⟨.reject (.error []), .error (.error []), w, rfl, ?_⟩
    cases request with
    | _ => rfl
  | now => exact ⟨Sample.run, _, _, rfl, rfl⟩
  | log line => exact ⟨Sample.run, _, _, rfl, rfl⟩
  | fork job => exact ⟨Sample.run, _, _, rfl, rfl⟩

end ChainAgreement

open ChainAgreement in
/-- **The monitor agrees with the chain exactly if the mined transaction is the one the
    row tracks**, and its receipt fits the columns of the row. -/
theorem processRow_agrees_iff {cfg : Config} {chain : Chain} {hashes : List Text}
    {row : SigningRequest} {w : World} (hstatus : row.status = .broadcasted)
    (hstored : Stored row.id (· = row) w.tables) :
    MonitorAgrees cfg chain hashes row w ↔ TracksMined cfg chain hashes row := by
  refine ⟨fun hagrees hmined => ?_, fun htracks hmined outcome w' history hrun => ?_⟩
  · by_contra huntracked
    have hunconfirmed : Unconfirmed row.id w := by
      refine hstored.mono ?_
      rintro _ rfl hconfirmed
      cases hstatus.symm.trans hconfirmed
    obtain ⟨outcome, w', history, hrun⟩ :=
      Completes.exists_of_total (answers_total cfg chain) (Monitor.processRow cfg row) w []
    have hconfirmed := (hagrees hmined outcome w' history hrun).1
    have hkept := hrun.meets (processRow_unconfirmed huntracked hunconfirmed
      fun _ h => absurd h List.not_mem_nil)
    obtain ⟨stored, hyes, hno⟩ := hconfirmed.and hkept.2
    exact hno hyes
  · obtain ⟨⟨rpcUrl, rest, hurls⟩, txHash, receipt, htracked, hne, hreceipt, hsucceeded, hfits⟩ :=
      htracks hmined
    exact hrun.meets (processRow_confirms hurls htracked hne hreceipt hsucceeded hfits hstored.1
      fun _ h => absurd h List.not_mem_nil)

namespace ChainAgreement

def firstHash : Text := "first".toList

/-- A row whose transaction has been in the mempool since time 0. -/
def stuckRow : SigningRequest where
  id := Sample.freshId 1
  orgId := Sample.org
  walletId := Sample.wallet
  chainId := 1
  txHash := some firstHash
  txPayload := some ⟨1, 0, "0xto".toList, "5".toList, 25200, "15".toList, "1".toList, "0x".toList⟩
  signature := some "signature".toList
  status := .broadcasted
  failureReason := none
  errorType := none
  blockNumber := none
  gasUsed := none
  effectiveGasPrice := none
  idempotencyKey := "key".toList
  speedUpAttempts := 0
  originalTxHash := none
  lastSpeedUpAt := none
  createdAt := 0
  signedAt := some 0
  broadcastedAt := some 0
  confirmedAt := none

def stuckWorld : World :=
  { Sample.world with
    tables := { Sample.world.tables with requests := [stuckRow] }, clock := 2000 }

/-- The row is found stuck, and a replacement is signed and sent. -/
def replaced : List Choice :=
  [Sample.answer .null, Sample.run, Sample.answer .transaction, Sample.run, Sample.run,
    Sample.answer (.quantity 21000), Sample.answer (.feeHistory [7] [[1]]),
    .signed "signature".toList "second".toList, Sample.run,
    Sample.answer (.hash "second".toList), Sample.run, Sample.run, Sample.run]

/-- The chain on which the first transaction was mined after all. -/
def minesFirst : Chain where
  receipt := fun txHash =>
    if txHash = firstHash then some ⟨firstHash, 1, some 1, none, none⟩ else none
  known := fun txHash => txHash = firstHash

/-- The replacement has no receipt, is old, and is not known. -/
def dropped : List Choice :=
  [Sample.answer .null, Sample.run, Sample.answer .null, Sample.run]

def later (w : World) : World := { w with clock := w.clock + 2000 }

theorem not_agrees_of_dropped {cfg : Config} {chain : Chain} {hashes : List Text}
    {row : SigningRequest} {w : World} (hmined : ∃ txHash ∈ hashes, chain.Mined txHash)
    {outcome : Except JsError Unit} {w' : World} {history : List ServiceEntry}
    (hrun : Completes (services cfg) chain.answers (Monitor.processRow cfg row) w []
      outcome w' history)
    (hdropped : ∀ stored ∈ w'.tables.requests, stored.status = .dropped) :
    ¬ MonitorAgrees cfg chain hashes row w := by
  intro hagrees
  obtain ⟨⟨⟨stored, hmem, hid⟩, hconfirmed⟩, _⟩ := hagrees hmined outcome w' history hrun
  cases (hdropped stored hmem).symm.trans (hconfirmed stored hmem hid)

end ChainAgreement

open ChainAgreement in
/-- After a speed-up the first transaction is mined, and the row is marked dropped. -/
theorem processRow_drops_mined :
    ∃ outcome w history row,
      Completes (services Sample.config) Guard.any (Monitor.processRow Sample.config stuckRow)
        stuckWorld [] outcome w history ∧
      row ∈ w.tables.requests ∧ row.status = .broadcasted ∧
      row.originalTxHash = some firstHash ∧
      ¬ MonitorAgrees Sample.config minesFirst [firstHash, "second".toList] row (later w) := by
  obtain ⟨outcome, w, history, hrun, hsecond⟩ :=
    Completes.exists_of_complete (services Sample.config) Guard.any
      (Monitor.processRow Sample.config stuckRow) stuckWorld replaced
      (fun final => final.2.1.tables.requests.any fun row =>
        row.status = .broadcasted && row.originalTxHash = some firstHash &&
        ((services Sample.config).complete minesFirst.answers dropped
          (Monitor.processRow Sample.config row) (later final.2.1) []).any fun final' =>
            final'.2.1.tables.requests.all fun stored => stored.status = .dropped)
      (by decide)
  obtain ⟨row, hrow, hP⟩ := List.any_eq_true.mp hsecond
  simp only [Bool.and_eq_true, decide_eq_true_eq, Option.any_eq_true] at hP
  obtain ⟨⟨hstatus, horiginal⟩, final, hcomplete, hdropped⟩ := hP
  refine ⟨outcome, w, history, row, hrun, hrow, hstatus, horiginal, ?_⟩
  refine not_agrees_of_dropped ⟨firstHash, List.mem_cons_self, _, rfl, rfl⟩
    (.of_complete dropped hcomplete) fun stored hstored => ?_
  exact of_decide_eq_true (List.all_eq_true.mp hdropped stored hstored)

open ChainAgreement in
/-- Before any speed-up the monitor agrees. -/
theorem processRow_agrees_iff_original :
    MonitorAgrees Sample.config minesFirst [firstHash] stuckRow stuckWorld :=
  (processRow_agrees_iff rfl
    ⟨⟨stuckRow, List.mem_cons_self, rfl⟩, fun _ hrow _ => List.mem_singleton.mp hrow⟩).mpr
    fun _ => ⟨⟨_, _, rfl⟩, firstHash, _, rfl, by decide, rfl, rfl, by decide, by decide, by decide⟩

end BrokeTurnkey
