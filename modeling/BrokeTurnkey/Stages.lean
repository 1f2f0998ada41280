import BrokeTurnkey.Rows
import BrokeTurnkey.Interaction.Automaton

/-!
# The stages of a call and of a poll cycle

What a thread may do next, as an automaton: a `requestSign` call moves through the
phases of its steps 5 to 9, a monitor works on the rows of one snapshot after the
other, and a background `syncNonce` asks the chain and then raises the counter.  The
transitions carry the row, the nonce and the transaction the thread is about, and
leave out everything that only reads.

The service methods follow the automaton.
-/

namespace BrokeTurnkey

open Interaction

/-! ### The automaton -/

/-- Where a `requestSign` call stands. -/
inductive Phase where
  /-- before step 5 is won -/
  | start
  /-- the insert was turned away by the index, and its error says so -/
  | conflicted
  /-- the `catch` block of step 5 has read a failed row -/
  | seen (id : Uuid)
  | owner (id : Uuid)
  | held (id : Uuid) (nonce : Int)
  | paying (id : Uuid) (txFields : TxFields)
  /-- the sidecar has not signed -/
  | refused (id : Uuid) (txFields : TxFields)
  | releasing (txFields : TxFields)
  /-- the release found a later reservation, or was not answered -/
  | wasted (nonce : Int)
  | signed (id : Uuid) (txFields : TxFields) (result : SignTransactionResult)
  | stored (id : Uuid) (txFields : TxFields) (result : SignTransactionResult)
  | sending (id : Uuid) (txFields : TxFields) (result : SignTransactionResult)
  /-- a provider answered with a result -/
  | taken (id : Uuid) (txFields : TxFields)
  | unrecorded (id : Uuid) (txFields : TxFields)
  /-- past the `catch` block of step 9 -/
  | rejected (txFields : TxFields)
  | recorded (txFields : TxFields)
  | done

/-- The phases a call may end in. -/
def Phase.isEnd : Phase → Bool
  | .start | .conflicted | .wasted _ | .rejected _ | .recorded _ | .done => true
  | _ => false

/-- The write that gives a row up as failed. -/
def failedFields (failureReason : Text) (errorType : ErrorType) : SigningRequestUpdate :=
  { status := some .failed, failureReason := some failureReason, errorType := some errorType }

def broadcastedFields (now : Int) : SigningRequestUpdate :=
  { status := some .broadcasted, broadcastedAt := some now }

def signedFields (result : SignTransactionResult) (now : Int) : SigningRequestUpdate :=
  { txHash := some result.txHash, signature := some result.signature,
    status := some .signed, signedAt := some now }

/-- The transitions of a call.  A write that is not answered ends it, except for the
    write that records the broadcast. -/
inductive ClientStep (call : SignCall) :
    Phase → (command : Cmd) → Except JsError command.Reply → Phase → Prop where
  | found {key : Text} {row : SigningRequest} (hfailed : row.status = .failed) :
      ClientStep call .conflicted (.sql (.requestFindByIdempotencyKey key)) (.ok (some row))
        (.seen row.id)
  | created {data : NewSigningRequest} {row : SigningRequest} (hpending : data.status = .pending) :
      ClientStep call .start (.sql (.requestCreate data)) (.ok row) (.owner row.id)
  | notCreated {data : NewSigningRequest} {error : JsError} (hpending : data.status = .pending)
      (hother : error.code ≠ some uniqueViolation) :
      ClientStep call .start (.sql (.requestCreate data)) (.error error) .start
  | conflicts {data : NewSigningRequest} {error : JsError} (hpending : data.status = .pending)
      (hconflict : error.code = some uniqueViolation) :
      ClientStep call .start (.sql (.requestCreate data)) (.error error) .conflicted
  | reset {id : Uuid} {value : Unit} :
      ClientStep call (.seen id) (.sql (.requestUpdate id WalletService.resetFields)) (.ok value)
        (.owner id)
  | notReset {id : Uuid} {error : JsError} :
      ClientStep call (.seen id) (.sql (.requestUpdate id WalletService.resetFields))
        (.error error) .done
  | reserved {id : Uuid} {nonce : Int} :
      ClientStep call (.owner id) (.sql (.nonceReserve call.walletId call.req.chainId))
        (.ok nonce) (.held id nonce)
  | notReserved {id : Uuid} {error : JsError} :
      ClientStep call (.owner id) (.sql (.nonceReserve call.walletId call.req.chainId))
        (.error error) .done
  | prepared {id : Uuid} {nonce : Int} {txFields : TxFields} {value : Unit}
      (hnonce : txFields.nonce = nonce) (hchain : txFields.chainId = call.req.chainId) :
      ClientStep call (.held id nonce) (.sql (.requestUpdate id { txPayload := some txFields }))
        (.ok value) (.paying id txFields)
  | notPrepared {id : Uuid} {nonce : Int} {txFields : TxFields} {error : JsError} :
      ClientStep call (.held id nonce) (.sql (.requestUpdate id { txPayload := some txFields }))
        (.error error) .done
  | signs {id wallet : Uuid} {key : KeyMaterial} {txFields : TxFields}
      {result : SignTransactionResult} :
      ClientStep call (.paying id txFields) (.sidecar (.signTransaction wallet id key txFields))
        (.ok result) (.signed id txFields result)
  | refuses {id wallet : Uuid} {key : KeyMaterial} {txFields : TxFields} {error : JsError} :
      ClientStep call (.paying id txFields) (.sidecar (.signTransaction wallet id key txFields))
        (.error error) (.refused id txFields)
  | unsigned {id : Uuid} {txFields : TxFields} {reason : Text} {errorType : ErrorType}
      {value : Unit} :
      ClientStep call (.refused id txFields)
        (.sql (.requestUpdate id (failedFields reason errorType))) (.ok value)
        (.releasing txFields)
  | notUnsigned {id : Uuid} {txFields : TxFields} {reason : Text} {errorType : ErrorType}
      {error : JsError} :
      ClientStep call (.refused id txFields)
        (.sql (.requestUpdate id (failedFields reason errorType))) (.error error) .done
  | released {txFields : TxFields} :
      ClientStep call (.releasing txFields)
        (.sql (.nonceRelease call.walletId txFields.chainId txFields.nonce)) (.ok true) .done
  | notReleased {txFields : TxFields} {reply : Except JsError Bool} (hreply : reply ≠ .ok true) :
      ClientStep call (.releasing txFields)
        (.sql (.nonceRelease call.walletId txFields.chainId txFields.nonce)) reply
        (.wasted txFields.nonce)
  | stores {id : Uuid} {txFields : TxFields} {result : SignTransactionResult} {now : Int}
      {value : Unit} :
      ClientStep call (.signed id txFields result)
        (.sql (.requestUpdate id (signedFields result now))) (.ok value)
        (.stored id txFields result)
  | notStores {id : Uuid} {txFields : TxFields} {result : SignTransactionResult} {now : Int}
      {error : JsError} :
      ClientStep call (.signed id txFields result)
        (.sql (.requestUpdate id (signedFields result now))) (.error error) .done
  | enters {id : Uuid} {txFields : TxFields} {result : SignTransactionResult} {chainId : Nat}
      {reply : Except JsError Unit} :
      ClientStep call (.stored id txFields result) (.log (.broadcasting result.rawTx chainId))
        reply (.sending id txFields result)
  | takes {id : Uuid} {txFields : TxFields} {result : SignTransactionResult} {rpcUrl : Text}
      {value : RpcResult} :
      ClientStep call (.sending id txFields result)
        (.fetch rpcUrl (.sendRawTransaction result.rawTx)) (.ok (.result value))
        (.taken id txFields)
  | notTakes {id : Uuid} {txFields : TxFields} {result : SignTransactionResult} {rpcUrl : Text}
      {reply : Except JsError HttpReply} (hreply : ∀ value, reply ≠ .ok (.result value)) :
      ClientStep call (.sending id txFields result)
        (.fetch rpcUrl (.sendRawTransaction result.rawTx)) reply (.sending id txFields result)
  | records {id : Uuid} {txFields : TxFields} {now : Int} {value : Unit} :
      ClientStep call (.taken id txFields) (.sql (.requestUpdate id (broadcastedFields now)))
        (.ok value) (.recorded txFields)
  | notRecords {id : Uuid} {txFields : TxFields} {now : Int} {error : JsError} :
      ClientStep call (.taken id txFields) (.sql (.requestUpdate id (broadcastedFields now)))
        (.error error) (.unrecorded id txFields)
  | unsent {id : Uuid} {txFields : TxFields} {result : SignTransactionResult} {reason : Text}
      {errorType : ErrorType} {reply : Except JsError Unit} :
      ClientStep call (.sending id txFields result)
        (.sql (.requestUpdate id (failedFields reason errorType))) reply (.rejected txFields)
  | disowned {id : Uuid} {txFields : TxFields} {reason : Text} {errorType : ErrorType}
      {reply : Except JsError Unit} :
      ClientStep call (.unrecorded id txFields)
        (.sql (.requestUpdate id (failedFields reason errorType))) reply (.rejected txFields)
  | forks {txFields : TxFields} {job : Job} {reply : Except JsError Unit} :
      ClientStep call (.rejected txFields) (.fork job) reply (.rejected txFields)

/-- Where a monitor stands: the rows of the snapshot that are not behind it, and the
    replacement it is sending. -/
inductive MonitorPhase where
  | cycle (rows : List SigningRequest)
  | replacing (row : SigningRequest) (result : SignTransactionResult)
      (rows : List SigningRequest)
  | replaced (row : SigningRequest) (result : SignTransactionResult)
      (rows : List SigningRequest)

/-- The writes that end the work on a row without a replacement. -/
inductive Verdict : SigningRequestUpdate → Prop where
  | failed (reason : Text) (errorType : ErrorType) : Verdict (failedFields reason errorType)
  | confirmed (blockNumber : Nat) (gasUsed effectiveGasPrice : Text) (now : Int) :
      Verdict { status := some .confirmed, blockNumber := some blockNumber,
                gasUsed := some gasUsed, effectiveGasPrice := some effectiveGasPrice,
                confirmedAt := some now }
  | dropped (reason : Text) :
      Verdict { status := some .dropped, failureReason := some reason }

/-- The write that lets a row track its replacement. -/
def replacedFields (row : SigningRequest) (result : SignTransactionResult)
    (lastSpeedUpAt broadcastedAt : Int) : SigningRequestUpdate :=
  { txHash := some result.txHash
    originalTxHash := row.originalTxHash.or row.txHash
    speedUpAttempts := some (row.speedUpAttempts + 1)
    lastSpeedUpAt := some lastSpeedUpAt
    broadcastedAt := some broadcastedAt
    status := some .broadcasted }

/-- The transitions of a monitor. -/
inductive MonitorStep (cfg : Config) :
    MonitorPhase → (command : Cmd) → Except JsError command.Reply → MonitorPhase → Prop where
  | snapshot {old rows : List SigningRequest} :
      MonitorStep cfg (.cycle old) (.sql .requestFindBroadcasted) (.ok rows) (.cycle rows)
  | noSnapshot {old : List SigningRequest} {error : JsError} :
      MonitorStep cfg (.cycle old) (.sql .requestFindBroadcasted) (.error error) (.cycle [])
  | settles {rows rest : List SigningRequest} {row : SigningRequest}
      {fields : SigningRequestUpdate} {reply : Except JsError Unit}
      (hrow : (row :: rest) <:+ rows) (hfields : Verdict fields) :
      MonitorStep cfg (.cycle rows) (.sql (.requestUpdate row.id fields)) reply (.cycle rest)
  | signs {rows rest : List SigningRequest} {row : SigningRequest} {wallet : Uuid}
      {key : KeyMaterial} {txFields : TxFields} {result : SignTransactionResult}
      (hrow : (row :: rest) <:+ rows) (hbudget : row.speedUpAttempts < cfg.maxSpeedUpAttempts)
      (hnonce : row.txPayload.map TxFields.nonce = some txFields.nonce) :
      MonitorStep cfg (.cycle rows) (.sidecar (.signTransaction wallet row.id key txFields))
        (.ok result) (.replacing row result rest)
  | refuses {rows : List SigningRequest} {wallet origin : Uuid} {key : KeyMaterial}
      {txFields : TxFields} {error : JsError} :
      MonitorStep cfg (.cycle rows) (.sidecar (.signTransaction wallet origin key txFields))
        (.error error) (.cycle rows)
  | enters {row : SigningRequest} {result : SignTransactionResult} {rest : List SigningRequest}
      {chainId : Nat} {reply : Except JsError Unit} :
      MonitorStep cfg (.replacing row result rest) (.log (.broadcasting result.rawTx chainId))
        reply (.replacing row result rest)
  | takes {row : SigningRequest} {result : SignTransactionResult} {rest : List SigningRequest}
      {rpcUrl hash : Text} :
      MonitorStep cfg (.replacing row result rest)
        (.fetch rpcUrl (.sendRawTransaction result.rawTx)) (.ok (.result (.hash hash)))
        (.replaced row result rest)
  | notTakes {row : SigningRequest} {result : SignTransactionResult} {rest : List SigningRequest}
      {rpcUrl : Text} {reply : Except JsError HttpReply}
      (hreply : ∀ hash, reply ≠ .ok (.result (.hash hash))) :
      MonitorStep cfg (.replacing row result rest)
        (.fetch rpcUrl (.sendRawTransaction result.rawTx)) reply (.replacing row result rest)
  | unsent {row : SigningRequest} {result : SignTransactionResult} {rest : List SigningRequest}
      {reason : Text} {errorType : ErrorType} {reply : Except JsError Unit} :
      MonitorStep cfg (.replacing row result rest)
        (.sql (.requestUpdate row.id (failedFields reason errorType))) reply (.cycle rest)
  | records {row : SigningRequest} {result : SignTransactionResult} {rest : List SigningRequest}
      {lastSpeedUpAt broadcastedAt : Int} {reply : Except JsError Unit} :
      MonitorStep cfg (.replaced row result rest)
        (.sql (.requestUpdate row.id (replacedFields row result lastSpeedUpAt broadcastedAt)))
        reply (.cycle rest)

/-- The count a `getTransactionCount` result stands for. -/
def RpcResult.count : RpcResult → Option Int
  | .quantity n => some n
  | _ => none

inductive Stage where
  | client (call : SignCall) (phase : Phase)
  | monitor (phase : MonitorPhase)
  /-- a background `syncNonce`, with what the chain answered -/
  | background (answer : Option RpcResult)

/-- The transitions of all threads.  Reads and audit rows change no stage, and what is
    always answered leads anywhere where it is not. -/
inductive Step (cfg : Config) :
    Stage → (command : Cmd) → Except JsError command.Reply → Stage → Prop where
  | query {stage : Stage} {command : Cmd} {reply : Except JsError command.Reply}
      (hquery : command.isQuery = true) : Step cfg stage command reply stage
  | audit {stage : Stage} {data : NewAuditLog} {reply : Except JsError Unit} :
      Step cfg stage (.sql (.auditCreate data)) reply stage
  | never {stage stage' : Stage} {command : Cmd} {error : JsError}
      (hlocal : command.isLocal = true) : Step cfg stage command (.error error) stage'
  | client {call : SignCall} {phase phase' : Phase} {command : Cmd}
      {reply : Except JsError command.Reply} (hstep : ClientStep call phase command reply phase') :
      Step cfg (.client call phase) command reply (.client call phase')
  | monitor {phase phase' : MonitorPhase} {command : Cmd} {reply : Except JsError command.Reply}
      (hstep : MonitorStep cfg phase command reply phase') :
      Step cfg (.monitor phase) command reply (.monitor phase')
  | asks {rpcUrl address : Text} {value : RpcResult} :
      Step cfg (.background none) (.fetch rpcUrl (.getTransactionCount address))
        (.ok (.result value)) (.background (some value))
  | syncs {walletId : Text} {chainId : Nat} {value : RpcResult} {reply : Except JsError Unit} :
      Step cfg (.background (some value))
        (.sql (.nonceSyncFromChain walletId chainId value.count)) reply (.background (some value))

/-! ### What a transition tells -/

/-- A call comes to see a row by reading it as failed. -/
theorem read_of_step {cfg : Config} {stage : Stage} {command : Cmd} {call : SignCall} {id : Uuid}
    {choice : Choice} {w w' : World} {reply : Except JsError command.Reply}
    (hstep : Step cfg stage command reply (.client call (.seen id)))
    (hexec : exec command choice w = some (reply, w')) :
    stage = .client call (.seen id) ∨
      w' = w ∧ ∃ row ∈ w.tables.requests, row.id = id ∧ row.status = .failed := by
  cases hstep with
  | query => exact .inl rfl
  | audit => exact .inl rfl
  | never hlocal => cases (exec_local hlocal hexec).1
  | client h =>
    cases h with
    | found hfailed =>
      obtain ⟨hw, hrow, _⟩ := exec_find hexec
      exact .inr ⟨hw, _, hrow, rfl, hfailed⟩

/-- A reset is issued for the row that was read as failed. -/
theorem seen_of_step {cfg : Config} {stage stage' : Stage} {command : Cmd} {id : Uuid}
    {reply : Except JsError command.Reply} (hstep : Step cfg stage command reply stage')
    (hresets : command.resets = some id) : ∃ call, stage = .client call (.seen id) := by
  cases hstep with
  | query hquery =>
    cases command with
    | sql statement =>
      cases statement with
      | requestUpdate => cases hquery
      | _ => cases hresets
    | _ => cases hresets
  | never hlocal =>
    cases command with
    | sql statement => cases hlocal
    | _ => cases hresets
  | client h =>
    cases h with
    | reset => cases hresets; exact ⟨_, rfl⟩
    | notReset => cases hresets; exact ⟨_, rfl⟩
    | _ => cases hresets
  | monitor h =>
    cases h with
    | settles hrow hfields => cases hfields <;> cases hresets
    | _ => cases hresets
  | _ => cases hresets

/-! ### The programs follow it -/

section Follows

variable {cfg : Config} {stage : Stage}

theorem stays_of_query {command : Cmd} (h : command.isQuery = true)
    (reply : Except JsError command.Reply) : Step cfg stage command reply stage := .query h

theorem stays_of_queries {α : Type} {p : Js α} (h : Queries p) :
    p.All fun command => ∀ reply, Step cfg stage command reply stage :=
  h.mono fun _ => stays_of_query

/-- A request to the providers: a result leads to another stage, everything else
    leaves the stage as it is. -/
theorem rpcCallWithRetry_follows {request : RpcRequest} (next : RpcResult → Stage)
    (hresult : ∀ rpcUrl value, Step cfg stage (.fetch rpcUrl request) (.ok (.result value))
      (next value))
    (hfailure : ∀ rpcUrl reply, (∀ value, reply ≠ .ok (.result value)) →
      Step cfg stage (.fetch rpcUrl request) reply stage) (chainId : Nat) :
    Follows (Step cfg) (LeadsOr next stage) stage (rpcCallWithRetry cfg request chainId) := by
  have hcall : ∀ rpcUrl, Follows (Step cfg) (LeadsOr next stage) stage
      (callProvider request rpcUrl) := by
    intro rpcUrl reply
    cases reply with
    | error error => exact ⟨stage, hfailure rpcUrl _ (by rintro value ⟨⟩), rfl⟩
    | ok response =>
      cases response with
      | notOk status statusText =>
        exact ⟨stage, hfailure rpcUrl _ (by rintro value ⟨⟩), rfl⟩
      | rpcError message => exact ⟨stage, hfailure rpcUrl _ (by rintro value ⟨⟩), rfl⟩
      | result value => exact ⟨next value, hresult rpcUrl value, rfl⟩
  have hproviders : ∀ rpcUrls, Follows (Step cfg) (LeadsOr next stage) stage
      (tryProviders request rpcUrls) := by
    intro rpcUrls
    induction rpcUrls with
    | nil => rfl
    | cons rpcUrl rest ih =>
      cases rest with
      | nil => exact hcall rpcUrl
      | cons _ rest => exact Follows.leadsOr_tryCatch (hcall rpcUrl) (fun _ => rfl) fun _ => ih
  have hattempts : ∀ attempts lastError, Follows (Step cfg) (LeadsOr next stage) stage
      (rpcAttempts cfg request chainId attempts lastError) := by
    intro attempts
    induction attempts with
    | zero =>
      intro lastError
      rfl
    | succ attempts ih =>
      intro lastError
      have hall : Follows (Step cfg) (LeadsOr next stage) stage
          (rpcCall cfg request chainId) := by
        simp only [rpcCall]
        split
        · rfl
        · exact hproviders _
      apply Follows.leadsOr_tryCatch hall
      · intro value
        rfl
      · intro error
        split
        · rfl
        · exact ih error
  exact hattempts maxRetries typeError

end Follows

/-! ### A call -/

section Client

variable {cfg : Config} {call : SignCall} {stage : Stage}

/-- The call may end here. -/
def Ended (call : SignCall) (stage : Stage) : Prop :=
  ∃ phase, stage = .client call phase ∧ phase.isEnd = true

theorem ended_of {phase : Phase} (h : phase.isEnd = true) : Ended call (.client call phase) :=
  ⟨phase, rfl, h⟩

/-- A look at the clock, with any stage for the error that never comes. -/
theorem now_follows (failed : Stage) :
    Follows (Step cfg) (LeadsOr (fun _ => stage) failed) stage Js.now :=
  Follows.perform_leadsOr (fun _ => .query rfl) fun _ => .never rfl

/-- A call that owns its row is at the stage of its owner. -/
def OwnsAt (call : SignCall) (stage : Stage) : Except JsError WalletService.Claimed → Prop
  | .ok (.own id) => stage = .client call (.owner id)
  | _ => Ended call stage

/-- Where a claim leads. -/
def claimedStage (call : SignCall) : WalletService.Claimed → Stage
  | .own id => .client call (.owner id)
  | .existing _ => .client call .start

/-- Where the error of the insert leads. -/
def refusedPhase (error : JsError) : Phase :=
  if error.code = some uniqueViolation then .conflicted else .start

/-- Where the lookup of the `catch` block leads. -/
def lookedUp : Option SigningRequest → Phase
  | some row => if row.status = .failed then .seen row.id else .conflicted
  | none => .conflicted

theorem reuseRow_follows (key : Text) (conflict : JsError) :
    Follows (Step cfg) (OwnsAt call) (.client call .conflicted)
      (WalletService.reuseRow key conflict) := by
  apply Follows.leads_bind (n := fun raced => .client call (lookedUp raced))
    (F := Ended call)
  · apply Follows.perform_leads
    · intro raced
      cases raced with
      | none => exact .query rfl
      | some row =>
        by_cases hfailed : row.status = .failed
        · simp only [lookedUp, hfailed, if_true]
          exact .client (.found hfailed)
        · simp only [lookedUp, hfailed, if_false]
          exact .query rfl
    · intro error
      exact ⟨_, .query rfl, ended_of rfl⟩
  · intro raced
    cases raced with
    | none => exact ended_of rfl
    | some row =>
      by_cases hfailed : row.status = .failed
      · simp only [lookedUp, WalletService.unlessFailed, Option.filter, hfailed, if_true,
          ne_eq, not_true_eq_false, decide_false]
        apply Follows.leads_bind (Follows.perform_leads (F := Ended call)
          (fun _ => .client .reset) fun _ => ⟨_, .client .notReset, ended_of rfl⟩)
        · intro _
          rfl
        · intro stage error hended
          exact hended
      · simp only [lookedUp, WalletService.unlessFailed, Option.filter, hfailed, if_false,
          ne_eq, not_false_eq_true, decide_true, if_true]
        exact ended_of rfl
  · intro stage error hended
    exact hended

/-- What the insert leads to. -/
def Tries (call : SignCall) (stage : Stage) : Except JsError WalletService.Claimed → Prop
  | .ok claimed => stage = claimedStage call claimed
  | .error error => stage = .client call (refusedPhase error)

theorem createOrReuse_follows (orgId walletId : Text) (req : SignRequest) (key : Text) :
    Follows (Step cfg) (OwnsAt call) (.client call .start)
      (WalletService.createOrReuse orgId walletId req key) := by
  apply Follows.tryCatch (P := Tries call)
  · intro reply
    cases reply with
    | ok row => exact ⟨_, .client (.created rfl), rfl⟩
    | error error =>
      refine ⟨.client call (refusedPhase error), ?_, rfl⟩
      by_cases hconflict : error.code = some uniqueViolation
      · rw [refusedPhase, if_pos hconflict]
        exact .client (.conflicts rfl hconflict)
      · rw [refusedPhase, if_neg hconflict]
        exact .client (.notCreated rfl hconflict)
  · intro stage claimed h
    cases claimed with
    | own id => exact h
    | existing result => exact ⟨_, h, rfl⟩
  · intro stage error h
    rw [h]
    by_cases hconflict : error.code = some uniqueViolation
    · rw [refusedPhase, if_pos hconflict, if_neg (not_not_intro hconflict)]
      exact reuseRow_follows key error
    · rw [refusedPhase, if_neg hconflict, if_pos hconflict]
      exact ended_of rfl

theorem prepareFields_follows (fees : FeeEstimate) (id : Uuid) :
    Follows (Step cfg) (Leads (fun txFields => .client call (.paying id txFields)) (Ended call))
      (.client call (.owner id))
      (WalletService.prepareFields call.walletId call.req fees id) := by
  apply Follows.leads_bind (Follows.perform_leads (F := Ended call)
    (fun _ => .client .reserved) fun _ => ⟨_, .client .notReserved, ended_of rfl⟩)
  · intro nonce
    apply Follows.leads_bind (Follows.perform_leads (F := Ended call)
      (fun _ => .client (.prepared rfl rfl)) fun _ => ⟨_, .client .notPrepared, ended_of rfl⟩)
    · intro _
      rfl
    · intro stage error hended
      exact hended
  · intro stage error hended
    exact hended

theorem releaseNonce_follows (txFields : TxFields) :
    Follows (Step cfg) (fun stage _ => Ended call stage) (.client call (.releasing txFields))
      (releaseNonce call.walletId txFields.chainId txFields.nonce) := by
  apply Follows.perform
  intro reply
  by_cases hreply : reply = .ok true
  · rw [hreply]
    exact ⟨_, .client .released, ended_of rfl⟩
  · exact ⟨_, .client (.notReleased hreply), ended_of rfl⟩

theorem signStep_follows (seedRow : OrganizationSeed) (wallet : Wallet) {txFields : TxFields}
    (id : Uuid) :
    Follows (Step cfg)
      (Leads (fun result => .client call (.signed id txFields result)) (Ended call))
      (.client call (.paying id txFields))
      (WalletService.signStep seedRow wallet call.walletId txFields id) := by
  apply Follows.leadsOr_tryCatch
    (Follows.perform_leadsOr (fun _ => .client .signs) fun _ => .client .refuses)
  · intro _
    rfl
  · intro error
    apply Follows.leads_bind (Follows.perform_leads (F := Ended call)
      (fun _ => .client .unsigned) fun _ => ⟨_, .client .notUnsigned, ended_of rfl⟩)
    · intro _
      apply Follows.bind (releaseNonce_follows txFields)
      · intro stage released hended
        exact hended
      · intro stage error hended
        exact hended
    · intro stage error hended
      exact hended

theorem storeSigned_follows {txFields : TxFields} (id : Uuid) (result : SignTransactionResult) :
    Follows (Step cfg) (Leads (fun _ => .client call (.stored id txFields result)) (Ended call))
      (.client call (.signed id txFields result)) (WalletService.storeSigned id result) := by
  apply Follows.leadsOr_bind (now_follows (.client call .done))
  · intro now
    exact Follows.perform_leads (fun _ => .client .stores)
      fun _ => ⟨_, .client .notStores, ended_of rfl⟩
  · intro _
    exact ended_of rfl

theorem broadcastTransaction_follows {txFields : TxFields} (id : Uuid)
    (result : SignTransactionResult) (chainId : Nat) :
    Follows (Step cfg)
      (LeadsOr (fun _ => .client call (.taken id txFields))
        (.client call (.sending id txFields result)))
      (.client call (.stored id txFields result))
      (broadcastTransaction cfg result.rawTx chainId) := by
  apply Follows.leadsOr_bind
    (Follows.perform_leadsOr (fun _ => .client .enters) fun _ => .client .enters)
  · intro _
    exact rpcCallWithRetry_follows _ (fun _ _ => .client .takes)
      (fun _ _ hreply => .client (.notTakes hreply)) chainId
  · intro _
    rfl

/-- What broadcasting and recording it leads to, before the `catch` block. -/
def Broadcast (call : SignCall) (id : Uuid) (txFields : TxFields)
    (result : SignTransactionResult) (stage : Stage) : Except JsError Unit → Prop
  | .ok _ => stage = .client call (.recorded txFields)
  | .error _ => stage = .client call (.sending id txFields result) ∨
      stage = .client call (.unrecorded id txFields)

theorem broadcastStep_follows {txFields : TxFields} (wallet : Wallet) (id : Uuid)
    (result : SignTransactionResult) (walletId : Text) (chainId : Nat) :
    Follows (Step cfg) (Leads (fun _ => .client call (.recorded txFields)) (Ended call))
      (.client call (.stored id txFields result))
      (WalletService.broadcastStep cfg wallet walletId chainId result id) := by
  apply Follows.tryCatch (P := Broadcast call id txFields result)
  · apply Follows.leadsOr_bind (broadcastTransaction_follows id result chainId)
    · intro _
      apply Follows.leadsOr_bind (now_follows (.client call (.unrecorded id txFields)))
      · intro now
        apply (Follows.perform_leadsOr (fun _ => .client .records)
          fun _ => .client .notRecords).mono
        intro stage outcome h
        cases outcome with
        | ok value => exact h
        | error error => exact .inr h
      · intro _
        exact .inr rfl
    · intro _
      exact .inl rfl
  · intro stage value h
    exact h
  · intro stage error h
    apply Follows.bind (P := fun stage _ => stage = .client call (.rejected txFields))
    · apply Follows.perform
      intro reply
      rcases h with hstage | hstage
      · rw [hstage]
        exact ⟨_, .client .unsent, rfl⟩
      · rw [hstage]
        exact ⟨_, .client .disowned, rfl⟩
    · intro stage' value hrejected
      rw [hrejected]
      apply Follows.bind (P := fun stage _ => stage = .client call (.rejected txFields))
      · apply Follows.perform
        intro reply
        exact ⟨_, .client .forks, rfl⟩
      · intro stage'' value' hrejected
        rw [hrejected]
        exact ended_of rfl
      · intro stage'' error' hrejected
        rw [hrejected]
        exact ended_of rfl
    · intro stage' error' hrejected
      rw [hrejected]
      exact ended_of rfl

theorem submit_follows (orgId : Text) (seedRow : OrganizationSeed) (wallet : Wallet) (key : Text)
    (fees : FeeEstimate) (id : Uuid) :
    Follows (Step cfg) (fun stage _ => Ended call stage) (.client call (.owner id))
      (WalletService.submit cfg orgId call.walletId call.req seedRow wallet key fees id) := by
  apply Follows.leads_bind (prepareFields_follows fees id)
  · intro txFields
    apply Follows.leads_bind (signStep_follows seedRow wallet id)
    · intro result
      apply Follows.leads_bind (storeSigned_follows id result)
      · intro _
        apply Follows.leads_bind (broadcastStep_follows wallet id result call.walletId _)
        · intro _
          apply Follows.stay_bind (Prog.All.perform fun _ => .audit)
          · intro _
            exact ended_of rfl
          · intro _
            exact ended_of rfl
        · intro stage error hended
          exact hended
      · intro stage error hended
        exact hended
    · intro stage error hended
      exact hended
  · intro stage error hended
    exact hended

theorem requestSign_follows :
    Follows (Step cfg) (fun stage _ => Ended call stage) (.client call .start)
      (WalletService.requestSign cfg call.orgId call.walletId call.req) := by
  apply Follows.stay_bind
    (stays_of_queries (WalletService.loadPrerequisites_queries call.orgId call.walletId))
  · intro prerequisites
    apply Follows.stay_bind (stays_of_queries (sql_queries rfl))
    · intro existing
      split
      · exact ended_of rfl
      · apply Follows.stay_bind (WalletService.evaluatePolicy_all
          (fun _ hquery _ => .query hquery) (fun _ _ _ => .audit) cfg call.req)
        · intro _
          apply Follows.stay_bind (stays_of_queries (estimateFees_queries ..))
          · intro fees
            apply Follows.bind (createOrReuse_follows call.orgId call.walletId call.req _)
            · intro stage claimed hclaimed
              cases claimed with
              | existing result => exact hclaimed
              | own id =>
                rw [hclaimed]
                exact submit_follows call.orgId _ _ _ fees id
            · intro stage error hended
              exact hended
          · intro _
            exact ended_of rfl
        · intro _
          exact ended_of rfl
    · intro _
      exact ended_of rfl
  · intro _
    exact ended_of rfl

theorem start_follows : Follows (Step cfg) (fun stage _ => Ended call stage)
    (.client call .start) (call.start cfg) := by
  apply Follows.bind requestSign_follows
  · intro stage result hended
    exact hended
  · intro stage error hended
    exact hended

end Client

/-! ### A monitor -/

section Monitor

variable {cfg : Config} {row : SigningRequest} {rest : List SigningRequest}

/-- The monitor is past a row, with the rest still before it. -/
def Past (rest : List SigningRequest) (stage : Stage) : Prop :=
  ∃ rows, stage = .monitor (.cycle rows) ∧ rest <:+ rows

theorem past_rest : Past rest (.monitor (.cycle rest)) := ⟨rest, rfl, List.suffix_refl rest⟩

/-- A row that was read and left as it is. -/
theorem past_of_suffix {rows : List SigningRequest} (hrow : (row :: rest) <:+ rows) :
    Past rest (.monitor (.cycle rows)) :=
  ⟨rows, rfl, (List.suffix_cons row rest).trans hrow⟩

theorem updateRow_follows {rows : List SigningRequest} {fields : SigningRequestUpdate}
    (hrow : (row :: rest) <:+ rows) (hfields : Verdict fields) :
    Follows (Step cfg) (fun stage _ => Past rest stage) (.monitor (.cycle rows))
      (Monitor.updateRow row fields) := by
  apply Follows.perform
  intro reply
  exact ⟨_, .monitor (.settles hrow hfields), past_rest⟩

/-- The stage a result of the submission leads to. -/
def replacementStage (row : SigningRequest) (result : SignTransactionResult)
    (rest : List SigningRequest) : RpcResult → Stage
  | .hash _ => .monitor (.replaced row result rest)
  | _ => .monitor (.replacing row result rest)

/-- What sending a replacement leads to: a hash is tracked, everything else is not. -/
def Sent (row : SigningRequest) (result : SignTransactionResult) (rest : List SigningRequest) :
    Stage → Except JsError RpcResult → Prop
  | stage, .ok (.hash _) => stage = .monitor (.replaced row result rest)
  | stage, _ => stage = .monitor (.replacing row result rest)

theorem broadcastReplacement_follows (result : SignTransactionResult) :
    Follows (Step cfg) (Sent row result rest) (.monitor (.replacing row result rest))
      (broadcastTransaction cfg result.rawTx row.chainId) := by
  apply Follows.leadsOr_bind
    (Follows.perform_leadsOr (fun _ => .monitor .enters) fun _ => .monitor .enters)
  · intro _
    apply (rpcCallWithRetry_follows (replacementStage row result rest) ?_ ?_ row.chainId).mono
    · intro stage outcome h
      cases outcome with
      | ok value =>
        cases value with
        | hash hash => exact h
        | _ => exact h
      | error error => exact h
    · intro rpcUrl value
      cases value with
      | hash hash => exact .monitor .takes
      | _ => exact .monitor (.notTakes (by rintro hash ⟨⟩))
    · intro rpcUrl reply hreply
      exact .monitor (.notTakes fun hash => hreply (.hash hash))
  · intro _
    rfl

/-- What the `try` block of the broadcast leads to. -/
def Tried (row : SigningRequest) (result : SignTransactionResult) (rest : List SigningRequest)
    (stage : Stage) : Except JsError Bool → Prop
  | .ok sent => sent = true ∧ stage = .monitor (.replaced row result rest)
  | .error _ => stage = .monitor (.replacing row result rest)

/-- What the block and its `catch` lead to. -/
def Tracked (row : SigningRequest) (result : SignTransactionResult) (rest : List SigningRequest)
    (stage : Stage) : Except JsError Bool → Prop
  | .ok true => stage = .monitor (.replaced row result rest)
  | _ => Past rest stage

theorem sendReplacement_follows (result : SignTransactionResult) :
    Follows (Step cfg) (fun stage _ => Past rest stage) (.monitor (.replacing row result rest))
      (Monitor.sendReplacement cfg row result) := by
  apply Follows.bind (P := Tracked row result rest)
  · apply Follows.tryCatch (P := Tried row result rest)
    · apply Follows.bind (broadcastReplacement_follows result)
      · intro stage value h
        cases value with
        | hash hash => exact ⟨rfl, h⟩
        | _ => exact h
      · intro stage error h
        exact h
    · rintro stage sent ⟨rfl, h⟩
      exact h
    · intro stage error h
      rw [h]
      apply Follows.bind (P := fun stage _ => Past rest stage)
      · apply Follows.perform
        intro reply
        exact ⟨_, .monitor .unsent, past_rest⟩
      · intro stage' _ hpast
        exact hpast
      · intro stage' error' hpast
        exact hpast
  · intro stage sent h
    cases sent with
    | false => exact h
    | true =>
      rw [h]
      apply Follows.leadsOr_bind (now_follows (.monitor (.cycle rest)))
      · intro lastSpeedUpAt
        apply Follows.leadsOr_bind (now_follows (.monitor (.cycle rest)))
        · intro broadcastedAt
          apply Follows.perform
          intro reply
          exact ⟨_, .monitor .records, past_rest⟩
        · intro _
          exact past_rest
      · intro _
        exact past_rest
  · intro stage error h
    exact h

/-- What signing a replacement and its `catch` lead to. -/
def Resigned (row : SigningRequest) (rest : List SigningRequest) (stage : Stage) :
    Except JsError (Option SignTransactionResult) → Prop
  | .ok (some result) => stage = .monitor (.replacing row result rest)
  | _ => Past rest stage

/-- What the `try` block of the signature leads to. -/
def Signed (row : SigningRequest) (rest rows : List SigningRequest) (stage : Stage) :
    Except JsError (Option SignTransactionResult) → Prop
  | .ok result => Resigned row rest stage (.ok result)
  | .error _ => stage = .monitor (.cycle rows)

theorem signReplacement_follows {rows : List SigningRequest} (hrow : (row :: rest) <:+ rows)
    (hbudget : row.speedUpAttempts < cfg.maxSpeedUpAttempts) (wallet : Wallet)
    (seedRow : OrganizationSeed) {txFields : TxFields}
    (hnonce : row.txPayload.map TxFields.nonce = some txFields.nonce) :
    Follows (Step cfg) (fun stage _ => Past rest stage) (.monitor (.cycle rows))
      (Monitor.signReplacement cfg row wallet seedRow txFields) := by
  apply Follows.bind (P := Resigned row rest)
  · apply Follows.tryCatch (P := Signed row rest rows)
    · apply Follows.leadsOr_bind (Follows.perform_leadsOr
        (fun _ => .monitor (.signs hrow hbudget hnonce)) fun _ => .monitor .refuses)
      · intro result
        rfl
      · intro error
        rfl
    · intro stage result h
      exact h
    · intro stage error h
      rw [h]
      apply Follows.bind (updateRow_follows hrow (.failed _ .retryable))
      · intro stage' _ hpast
        exact hpast
      · intro stage' _ hpast
        exact hpast
  · intro stage result h
    cases result with
    | none => exact h
    | some result =>
      rw [h]
      exact sendReplacement_follows result
  · intro stage error h
    exact h

/-- A replacement is rebuilt with the nonce of the payload. -/
theorem rebuild_follows {stage : Stage} (row : SigningRequest) (txPayload : TxFields) :
    Follows (Step cfg) (fun stage' outcome => stage' = stage ∧
        ∀ txFields, outcome = .ok txFields → txFields.nonce = txPayload.nonce)
      stage (Monitor.rebuild cfg row txPayload) := by
  apply Follows.stay_bind (stays_of_queries (estimateFees_queries ..))
  · intro feeEstimate
    split
    · refine ⟨rfl, ?_⟩
      rintro txFields ⟨⟩
      rfl
    · exact ⟨rfl, nofun⟩
  · intro error
    exact ⟨rfl, nofun⟩

theorem speedUp_follows {rows : List SigningRequest} (hrow : (row :: rest) <:+ rows) :
    Follows (Step cfg) (fun stage _ => Past rest stage) (.monitor (.cycle rows))
      (Monitor.speedUp cfg row) := by
  have hpast : Past rest (.monitor (.cycle rows)) := past_of_suffix hrow
  simp only [Monitor.speedUp]
  split
  · exact updateRow_follows hrow (.failed _ .permanent)
  · rename_i hbudget
    split
    · exact updateRow_follows hrow (.failed _ .unknown)
    · rename_i txPayload hpayload
      apply Follows.stay_bind (stays_of_queries (sql_queries rfl))
      · intro wallet
        cases wallet with
        | none => exact updateRow_follows hrow (.failed _ .permanent)
        | some wallet =>
          apply Follows.stay_bind (stays_of_queries (sql_queries rfl))
          · intro seedRow
            cases seedRow with
            | none => exact updateRow_follows hrow (.failed _ .permanent)
            | some seedRow =>
              apply Follows.bind (rebuild_follows row txPayload)
              · rintro stage txFields ⟨rfl, hnonce⟩
                refine signReplacement_follows hrow (by omega) wallet seedRow ?_
                rw [hpayload, Option.map_some, hnonce txFields rfl]
              · rintro stage error ⟨rfl, _⟩
                exact hpast
          · intro _
            exact hpast
      · intro _
        exact hpast

theorem settle_follows {rows : List SigningRequest} (hrow : (row :: rest) <:+ rows)
    (receipt : TransactionReceipt) :
    Follows (Step cfg) (fun stage _ => Past rest stage) (.monitor (.cycle rows))
      (Monitor.settle row receipt) := by
  simp only [Monitor.settle]
  split
  · apply Follows.stay_bind (stays_of_queries now_queries)
    · intro now
      exact updateRow_follows hrow (.confirmed ..)
    · intro _
      exact past_of_suffix hrow
  · exact updateRow_follows hrow (.failed _ .permanent)

theorem checkStuck_follows {rows : List SigningRequest} (hrow : (row :: rest) <:+ rows)
    (txHash : Text) :
    Follows (Step cfg) (fun stage _ => Past rest stage) (.monitor (.cycle rows))
      (Monitor.checkStuck cfg row txHash) := by
  have hpast : Past rest (.monitor (.cycle rows)) := past_of_suffix hrow
  apply Follows.stay_bind (stays_of_queries now_queries)
  · intro now
    dsimp only
    split
    · exact hpast
    · apply Follows.stay_bind (stays_of_queries (getTransactionByHash_queries ..))
      · intro txData
        split
        · exact updateRow_follows hrow (.dropped _)
        · exact speedUp_follows hrow
      · intro _
        exact hpast
  · intro _
    exact hpast

theorem processRow_follows {rows : List SigningRequest} (hrow : (row :: rest) <:+ rows) :
    Follows (Step cfg) (fun stage _ => Past rest stage) (.monitor (.cycle rows))
      (Monitor.processRow cfg row) := by
  have hpast : Past rest (.monitor (.cycle rows)) := past_of_suffix hrow
  simp only [Monitor.processRow]
  split
  · exact updateRow_follows hrow (.failed _ .unknown)
  · apply Follows.stay_bind
    · apply stays_of_queries
      apply Prog.All.tryCatch
      · exact Prog.All.bind (getTransactionReceipt_queries ..) fun _ => trivial
      · intro _
        trivial
    · intro receipt
      split
      · exact hpast
      · exact settle_follows hrow _
      · exact checkStuck_follows hrow _
    · intro _
      exact hpast

theorem processRows_follows : ∀ (rows : List SigningRequest) {stage : Stage}, Past rows stage →
    Follows (Step cfg) (fun stage _ => ∃ rows, stage = .monitor (.cycle rows)) stage
      (Monitor.processRows cfg rows) := by
  intro rows
  induction rows with
  | nil =>
    rintro stage ⟨rows, hstage, _⟩
    exact ⟨rows, hstage⟩
  | cons row rest ih =>
    rintro stage ⟨rows, rfl, hrow⟩
    apply Follows.bind (P := fun stage _ => Past rest stage)
    · apply Follows.tryCatch (processRow_follows hrow)
      · intro stage _ hpast
        exact hpast
      · intro stage error hpast
        exact hpast
    · intro stage _ hpast
      exact ih hpast
    · rintro stage error ⟨rows', hstage, _⟩
      exact ⟨rows', hstage⟩

theorem poll_follows (old : List SigningRequest) :
    Follows (Step cfg) (fun stage _ => ∃ rows, stage = .monitor (.cycle rows))
      (.monitor (.cycle old)) (Monitor.poll cfg) := by
  apply Follows.bind (P := fun stage outcome => ∃ rows, outcome = .ok rows ∧
    stage = .monitor (.cycle rows))
  · apply Follows.leadsOr_tryCatch (Follows.perform_leadsOr
      (fun _ => .monitor .snapshot) fun _ => .monitor .noSnapshot)
    · intro rows
      exact ⟨rows, rfl, rfl⟩
    · intro error
      exact ⟨[], rfl, rfl⟩
  · rintro stage rows ⟨rows', heq, hstage⟩
    cases heq
    rw [hstage]
    exact processRows_follows rows past_rest
  · rintro stage error ⟨rows, heq, _⟩
    cases heq

theorem monitor_follows (cycles : Nat) (old : List SigningRequest) :
    Follows (Step cfg) (fun stage _ => ∃ rows, stage = .monitor (.cycle rows))
      (.monitor (.cycle old)) (monitor cfg cycles) := by
  induction cycles generalizing old with
  | zero => exact ⟨old, rfl⟩
  | succ cycles ih =>
    apply Follows.bind (poll_follows old)
    · rintro stage value ⟨rows, rfl⟩
      exact ih rows
    · intro stage error h
      exact h

end Monitor

/-! ### A background job, and the deployment -/

theorem syncNonce_follows {cfg : Config} (walletId : Text) (chainId : Nat) (walletAddress : Text) :
    Follows (Step cfg) (fun stage _ => ∃ answer, stage = .background answer) (.background none)
      (syncNonce cfg walletId chainId walletAddress) := by
  apply Follows.leadsOr_bind (rpcCallWithRetry_follows (fun value => .background (some value))
    (fun _ _ => .asks) (fun _ _ _ => .query rfl) chainId)
  · intro value
    apply Follows.perform
    intro reply
    cases value with
    | _ => exact ⟨_, .syncs, _, rfl⟩
  · intro error
    exact ⟨none, rfl⟩

theorem spawned_follows {cfg : Config} (command : Cmd) (thread : Js Outcome)
    (hmem : thread ∈ (services cfg).spawns command) :
    Follows (Step cfg) (fun stage _ => ∃ answer, stage = .background answer) (.background none)
      thread := by
  cases command with
  | fork job =>
    simp only [services, spawns, List.mem_singleton] at hmem
    rw [hmem]
    cases job with
    | syncNonce walletId chainId walletAddress =>
      apply Follows.bind (syncNonce_follows walletId chainId walletAddress)
      · intro stage _ hanswer
        exact hanswer
      · intro stage error hanswer
        exact hanswer
  | _ => cases hmem

/-- Calls and monitors, started together; a monitor runs so many cycles in a row. -/
def deployment (cfg : Config) (calls : List SignCall) (polls : List Nat) (w : World) :
    ServicePool where
  state := w
  threads := calls.map (SignCall.start cfg) ++ polls.map (monitor cfg)
  history := []

/-- The stages the threads of a deployment start at. -/
def startStage (calls : List SignCall) (polls : List Nat) (i : Nat) : Stage :=
  match calls[i]? with
  | some call => .client call .start
  | none => if i < calls.length + polls.length then .monitor (.cycle []) else .background none

/-- The stages a thread may end at. -/
def Stage.isRest : Stage → Bool
  | .client _ phase => phase.isEnd
  | .monitor (.cycle _) => true
  | .monitor _ => false
  | .background _ => true

theorem startStage_client {calls : List SignCall} {polls : List Nat} {i : Nat} {call : SignCall}
    (h : calls[i]? = some call) : startStage calls polls i = .client call .start := by
  simp only [startStage, h]

theorem startStage_monitor {calls : List SignCall} {polls : List Nat} {i : Nat}
    (hge : calls.length ≤ i) (hlt : i < calls.length + polls.length) :
    startStage calls polls i = .monitor (.cycle []) := by
  simp only [startStage, List.getElem?_eq_none hge, hlt, if_true]

theorem startStage_idle {calls : List SignCall} {polls : List Nat} {i : Nat}
    (hge : calls.length + polls.length ≤ i) : startStage calls polls i = .background none := by
  have hnone : calls[i]? = none := List.getElem?_eq_none (by omega)
  have hnot : ¬ i < calls.length + polls.length := by omega
  simp only [startStage, hnone, hnot, if_false]

/-- All threads of the services follow the automaton. -/
abbrev ServicesStaged (cfg : Config) : ServicePool → (Nat → Stage) → Prop :=
  Staged (Step cfg) (fun stage _ => stage.isRest = true) (.background none)

/-- The threads of a deployment do. -/
theorem deployment_staged (cfg : Config) (calls : List SignCall) (polls : List Nat) (w : World) :
    ServicesStaged cfg (deployment cfg calls polls w) (startStage calls polls) := by
  constructor
  · intro i thread hthread
    simp only [deployment, List.getElem?_append, List.length_map] at hthread
    split at hthread
    · rw [List.getElem?_map, Option.map_eq_some_iff] at hthread
      obtain ⟨call, hcall, rfl⟩ := hthread
      rw [startStage_client hcall]
      apply start_follows.mono
      rintro stage outcome ⟨phase, rfl, hend⟩
      exact hend
    · rename_i hge
      rw [List.getElem?_map, Option.map_eq_some_iff] at hthread
      obtain ⟨cycles, hcycles, rfl⟩ := hthread
      have hlt := (List.getElem?_eq_some_iff.mp hcycles).1
      rw [startStage_monitor (by omega) (by omega)]
      apply (monitor_follows cycles []).mono
      rintro stage outcome ⟨rows, rfl⟩
      rfl
  · intro i hi
    simp only [deployment, List.length_append, List.length_map] at hi
    exact startStage_idle hi

section Deployment

variable {cfg : Config} {guard : Guard Cmd Choice Event World}
  {Inv : World → List ServiceEntry → (Nat → Stage) → Prop}

/-- **What the transitions keep, every run keeps.** -/
theorem services_invariant (hkeeps : Automaton.Keeps (Step cfg) (services cfg) guard Inv)
    (henv : ∀ event w w' history stage, Inv w history stage → guard.event event w →
      w.event event = some w' → Inv w' history stage)
    {start p : ServicePool} {stage : Nat → Stage} (hstaged : ServicesStaged cfg start stage)
    (hstart : Inv start.state start.history stage)
    (hreach : Reach (services cfg) guard start p) :
    ∃ stage', ServicesStaged cfg p stage' ∧ Inv p.state p.history stage' := by
  apply Reach.staged hkeeps hstaged hstart _ henv hreach
  intro command thread hmem
  apply (spawned_follows command thread hmem).mono
  rintro stage outcome ⟨answer, rfl⟩
  rfl

end Deployment

/-! ### The snapshots of one monitor -/

/-- The rows a monitor may still write to. -/
def MonitorPhase.tracked : MonitorPhase → List SigningRequest
  | .cycle rows => rows
  | .replacing row _ rest => row :: rest
  | .replaced row _ rest => row :: rest

def Stage.tracked : Stage → List SigningRequest
  | .monitor phase => phase.tracked
  | _ => []

def Stage.isMonitor : Stage → Bool
  | .monitor _ => true
  | _ => false

theorem Stage.tracked_of_not_monitor {stage : Stage} (h : stage.isMonitor = false) :
    stage.tracked = [] := by
  cases stage with
  | monitor phase => cases h
  | _ => rfl

def Stage.isClient : Stage → Bool
  | .client _ _ => true
  | _ => false

section Snapshots

variable {cfg : Config} {command : Cmd} {choice : Choice} {w w' : World}
  {reply : Except JsError command.Reply} {s s' : Stage}

/-- The rows of a monitor are those it had, or those it has just read. -/
theorem tracked_of_step (hstep : Step cfg s command reply s')
    (hexec : exec command choice w = some (reply, w')) :
    s'.tracked <:+ s.tracked ∨ w' = w ∧
      s'.tracked.Perm (w.tables.requests.filter fun row => row.status = .broadcasted) := by
  cases hstep with
  | query => exact .inl (List.suffix_refl _)
  | audit => exact .inl (List.suffix_refl _)
  | never hlocal => cases (exec_local hlocal hexec).1
  | client h => exact .inl (List.suffix_refl _)
  | asks => exact .inl (List.suffix_refl _)
  | syncs => exact .inl (List.suffix_refl _)
  | monitor h =>
    cases h with
    | snapshot => exact .inr (exec_findBroadcasted_perm hexec)
    | noSnapshot => exact .inl (List.nil_suffix)
    | settles hrow => exact .inl ((List.suffix_cons _ _).trans hrow)
    | signs hrow => exact .inl hrow
    | unsent => exact .inl (List.suffix_cons _ _)
    | records => exact .inl (List.suffix_cons _ _)
    | _ => exact .inl (List.suffix_refl _)

theorem isMonitor_of_step (hstep : Step cfg s command reply s')
    (hexec : exec command choice w = some (reply, w')) : s'.isMonitor = s.isMonitor := by
  cases hstep with
  | never hlocal => cases (exec_local hlocal hexec).1
  | _ => rfl

theorem isClient_of_step (hstep : Step cfg s command reply s')
    (hexec : exec command choice w = some (reply, w')) : s'.isClient = s.isClient := by
  cases hstep with
  | never hlocal => cases (exec_local hlocal hexec).1
  | _ => rfl

/-- One thread is the monitor, the threads before it are calls, and the rows of its
    snapshot have different ids. -/
structure Snapshots (monitor : Nat) (w : World) (stage : Nat → Stage) : Prop where
  unique : UniqueIds w.tables
  distinct : ∀ i, ((stage i).tracked.map SigningRequest.id).Nodup
  single : ∀ i, (stage i).isMonitor = true → i = monitor
  clients : ∀ i, (stage i).isClient = true → i < monitor

variable {monitor i : Nat} {stage : Nat → Stage}

theorem Snapshots.monitor_of_tracked (hinv : Snapshots monitor w stage) {j : Nat}
    {row : SigningRequest} (hrow : row ∈ (stage j).tracked) : j = monitor := by
  apply hinv.single j
  cases hmonitor : (stage j).isMonitor with
  | true => rfl
  | false =>
    rw [Stage.tracked_of_not_monitor hmonitor] at hrow
    cases hrow

/-- The rows behind the one that is written have other ids. -/
theorem Snapshots.not_behind (hinv : Snapshots monitor w stage) {row : SigningRequest}
    {rest : List SigningRequest} (htracked : (row :: rest) <:+ (stage i).tracked) :
    ∀ other ∈ rest, other.id ≠ row.id := by
  have hnodup := (hinv.distinct i).sublist (htracked.sublist.map SigningRequest.id)
  rw [List.map_cons, List.nodup_cons] at hnodup
  intro other hother hid
  exact hnodup.1 (hid ▸ List.mem_map_of_mem hother)

theorem Snapshots.step (h : Snapshots monitor w stage) (hstep : Step cfg (stage i) command reply s')
    (hexec : exec command choice w = some (reply, w')) :
    Snapshots monitor w' (Function.update stage i s') := by
  constructor
  · exact h.unique.exec hexec
  · intro j
    by_cases hji : j = i
    · rw [hji, Function.update_self]
      rcases tracked_of_step hstep hexec with hsuffix | ⟨_, hperm⟩
      · exact (h.distinct i).sublist (hsuffix.sublist.map SigningRequest.id)
      · exact h.unique.poll hperm
    · rw [Function.update_of_ne hji]
      exact h.distinct j
  · intro j hj
    by_cases hji : j = i
    · rw [hji, Function.update_self, isMonitor_of_step hstep hexec] at hj
      rw [hji]
      exact h.single i hj
    · rw [Function.update_of_ne hji] at hj
      exact h.single j hj
  · intro j hj
    by_cases hji : j = i
    · rw [hji, Function.update_self, isClient_of_step hstep hexec] at hj
      rw [hji]
      exact h.clients i hj
    · rw [Function.update_of_ne hji] at hj
      exact h.clients j hj

theorem Snapshots.of_eq (h : Snapshots monitor w stage)
    (heq : w'.tables.requests = w.tables.requests) : Snapshots monitor w' stage :=
  ⟨h.unique.of_eq heq, h.distinct, h.single, h.clients⟩

theorem startStage_cases (calls : List SignCall) (cycles i : Nat) :
    (i < calls.length ∧ ∃ call, startStage calls [cycles] i = .client call .start) ∨
      (i = calls.length ∧ startStage calls [cycles] i = .monitor (.cycle [])) ∨
      startStage calls [cycles] i = .background none := by
  rcases Nat.lt_trichotomy i calls.length with hlt | heq | hgt
  · exact .inl ⟨hlt, _, startStage_client (List.getElem?_eq_getElem hlt)⟩
  · exact .inr (.inl ⟨heq, startStage_monitor heq.ge (by simp [heq])⟩)
  · exact .inr (.inr (startStage_idle hgt))

theorem startStage_tracked (calls : List SignCall) (cycles i : Nat) :
    (startStage calls [cycles] i).tracked = [] := by
  rcases startStage_cases calls cycles i with ⟨_, call, hi⟩ | ⟨_, hi⟩ | hi <;> rw [hi] <;> rfl

theorem start_snapshots {calls : List SignCall} {cycles : Nat} (hunique : UniqueIds w.tables) :
    Snapshots calls.length w (startStage calls [cycles]) := by
  constructor
  · exact hunique
  · intro i
    rw [startStage_tracked]
    exact List.nodup_nil
  · intro i hi
    rcases startStage_cases calls cycles i with ⟨_, call, hclient⟩ | ⟨heq, _⟩ | hidle
    · rw [hclient] at hi
      cases hi
    · exact heq
    · rw [hidle] at hi
      cases hi
  · intro i hi
    rcases startStage_cases calls cycles i with ⟨hlt, _⟩ | ⟨_, hmonitor⟩ | hidle
    · exact hlt
    · rw [hmonitor] at hi
      cases hi
    · rw [hidle] at hi
      cases hi

end Snapshots

/-! ### A driver that wraps the error of a taken key -/

section Wraps

variable {cfg : Config} {command : Cmd} {choice : Choice} {w w' : World}
  {reply : Except JsError command.Reply} {i : Nat} {stage : Nat → Stage} {s' : Stage}

/-- The errors of the database are wrapped, and no call has got past the test for the code
    of a taken key. -/
structure Unconflicted (w : World) (stage : Nat → Stage) : Prop where
  wraps : w.tables.Wraps
  conflicted : ∀ i call, stage i ≠ .client call .conflicted
  seen : ∀ i call id, stage i ≠ .client call (.seen id)

theorem Unconflicted.step (h : Unconflicted w stage) (hstep : Step cfg (stage i) command reply s')
    (hexec : exec command choice w = some (reply, w')) :
    Unconflicted w' (Function.update stage i s') := by
  have hconflicted : ∀ call, s' ≠ .client call .conflicted := by
    rintro call rfl
    generalize hs : stage i = s at hstep
    cases hstep with
    | query => exact h.conflicted i call hs
    | audit => exact h.conflicted i call hs
    | never hlocal => cases (exec_local hlocal hexec).1
    | client hclient =>
      cases hclient with
      | conflicts _ hconflict => exact exec_create_wrapped h.wraps hexec hconflict
  have hseen : ∀ call id, s' ≠ .client call (.seen id) := by
    rintro call id rfl
    generalize hs : stage i = s at hstep
    cases hstep with
    | query => exact h.seen i call id hs
    | audit => exact h.seen i call id hs
    | never hlocal => cases (exec_local hlocal hexec).1
    | client hclient =>
      cases hclient with
      | found => exact h.conflicted i call hs
  refine ⟨exec_wraps hexec h.wraps, fun j call hj => ?_, fun j call id hj => ?_⟩
  · by_cases hji : j = i
    · rw [hji, Function.update_self] at hj
      exact hconflicted call hj
    · rw [Function.update_of_ne hji] at hj
      exact h.conflicted j call hj
  · by_cases hji : j = i
    · rw [hji, Function.update_self] at hj
      exact hseen call id hj
    · rw [Function.update_of_ne hji] at hj
      exact h.seen j call id hj

theorem Unconflicted.event (h : Unconflicted w stage) {event : Event}
    (hevent : w.event event = some w') : Unconflicted w' stage :=
  ⟨World.event_wraps hevent h.wraps, h.conflicted, h.seen⟩

theorem start_unconflicted {calls : List SignCall} {polls : List Nat} (hwraps : w.tables.Wraps) :
    Unconflicted w (startStage calls polls) := by
  have hstart : ∀ i call phase, startStage calls polls i = .client call phase → phase = .start := by
    intro i call phase h
    simp only [startStage] at h
    split at h
    · cases h
      rfl
    · split at h <;> cases h
  refine ⟨hwraps, fun i call h => ?_, fun i call id h => ?_⟩
  · cases hstart i call _ h
  · cases hstart i call _ h

end Wraps

end BrokeTurnkey
