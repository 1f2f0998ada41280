import BrokeTurnkey.Retry

/-!
# What a speed-up bids

A replacement carries the bumped estimate of the moment.  The fees of the transaction
it replaces are not looked at, and the stored payload keeps the fees of the first one.
So whether a node takes the replacement depends on how far the market has moved since
the pending transaction was priced: an estimate that was bumped once already is not
bumped above itself.
-/

namespace BrokeTurnkey

open Interaction

namespace SpeedUpFees

/-! ### Bids -/

/-- The two fees of a transaction, in wei. -/
def Fees (fields : TxFields) (maxFee maxPriority : Nat) : Prop :=
  Text.parseDecimal fields.maxFeePerGas = some maxFee ∧
    Text.parseDecimal fields.maxPriorityFeePerGas = some maxPriority

/-- At least 110% of the fee, and above it. -/
def Outbid (fee bid : Nat) : Prop := 11 * fee ≤ 10 * bid ∧ fee < bid

/-- Both fees of the replacement outbid those of the pending transaction. -/
def Outbids (pending replacement : TxFields) : Prop :=
  ∃ maxFee maxPriority maxBid maxPriorityBid, Fees pending maxFee maxPriority ∧
    Fees replacement maxBid maxPriorityBid ∧ Outbid maxFee maxBid ∧
    Outbid maxPriority maxPriorityBid

/-- The least bid that outbids a fee. -/
def leastBid (fee : Nat) : Nat := max (fee + 1) ((11 * fee + 9) / 10)

theorem outbid_iff {fee bid : Nat} : Outbid fee bid ↔ leastBid fee ≤ bid := by
  simp only [Outbid, leastBid, Nat.max_le, Nat.succ_le_iff]
  constructor
  · rintro ⟨hpercent, hlt⟩
    exact ⟨hlt, by omega⟩
  · rintro ⟨hlt, hpercent⟩
    exact ⟨by omega, hlt⟩

/-- The estimate has not fallen below five sixths of the least bid. -/
def Clears (fee : Nat) (estimate : Int) : Prop := 5 * ((leastBid fee : Int) - 1) < 6 * estimate

instance (fee : Nat) (estimate : Int) : Decidable (Clears fee estimate) :=
  inferInstanceAs (Decidable (5 * ((leastBid fee : Int) - 1) < 6 * estimate))

theorem parseDecimal_decimalInt {n : Int} {m : Nat} :
    Text.parseDecimal (Text.decimalInt n) = some m ↔ n = m := by
  cases n with
  | ofNat n =>
    rw [Text.decimalInt, Text.parseDecimal_decimal, Option.some.injEq]
    exact Int.ofNat_inj.symm
  | negSucc n =>
    constructor
    · intro h
      have hdigit := (Text.parseDecimal_eq_some h).2 '-' (by simp [Text.decimalInt])
      exact absurd hdigit (by decide)
    · intro h
      simp at h

theorem bump_of_nonneg {cfg : Config} (hmultiplier : cfg.multiplierNumerator = 120) {estimate : Int}
    (h : 0 ≤ estimate) : Monitor.bump cfg estimate = (estimate * 120 + 99) / 100 := by
  rw [Monitor.bump, hmultiplier, Int.tdiv_eq_ediv_of_nonneg (by omega)]
  omega

theorem bump_of_neg {cfg : Config} (hmultiplier : cfg.multiplierNumerator = 120) {estimate : Int}
    (h : estimate < 0) : Monitor.bump cfg estimate ≤ 0 := by
  have hneg : 0 ≤ (-(estimate * 120 + 100 - 1)).tdiv 100 := Int.tdiv_nonneg (by omega) (by decide)
  rw [Int.neg_tdiv] at hneg
  rw [Monitor.bump, hmultiplier]
  omega

/-- The bump by a fifth reaches the least bid exactly from an estimate that clears it. -/
theorem bump_outbids {cfg : Config} (hmultiplier : cfg.multiplierNumerator = 120) {fee : Nat}
    {estimate : Int} :
    (∃ bid : Nat, Monitor.bump cfg estimate = bid ∧ Outbid fee bid) ↔ Clears fee estimate := by
  have hleast : 1 ≤ leastBid fee := by simp [leastBid]
  simp only [outbid_iff, Clears]
  by_cases hestimate : 0 ≤ estimate
  · rw [bump_of_nonneg hmultiplier hestimate]
    constructor
    · rintro ⟨bid, hbump, hle⟩
      omega
    · intro hclears
      exact ⟨((estimate * 120 + 99) / 100).toNat, by omega, by omega⟩
  · have hbump := bump_of_neg hmultiplier (Int.not_le.mp hestimate)
    constructor
    · rintro ⟨bid, heq, hle⟩
      omega
    · intro hclears
      omega

/-! ### What a run shows of them -/

/-- What the sidecar was asked to sign, for which row, and the hash it returned. -/
structure Signed where
  origin : Uuid
  txHash : Text
  fields : TxFields
deriving DecidableEq

def signedBy (entry : ServiceEntry) : Option Signed :=
  match entry.command, entry.choice with
  | .sidecar (.signTransaction _ origin _ fields), .signed _ txHash => some ⟨origin, txHash, fields⟩
  | _, _ => none

/-- The newest signature of a run. -/
def signed (history : List ServiceEntry) : Option Signed := history.findSome? signedBy

def marketBy (entry : ServiceEntry) : Option (Int × Int) :=
  match entry.command, entry.choice.result with
  | .fetch _ .feeHistory, some (.feeHistory baseFeePerGas reward) => feeData baseFeePerGas reward
  | _, _ => none

/-- The newest fee estimate of a run. -/
def market (history : List ServiceEntry) : Option (Int × Int) := history.findSome? marketBy

/-- A command that neither signs nor asks for fees. -/
def isPlain : Cmd → Bool
  | .sidecar (.signTransaction _ _ _ _) => false
  | .fetch _ .feeHistory => false
  | _ => true

/-- A command that does not sign. -/
def isUnsigned : Cmd → Bool
  | .sidecar (.signTransaction _ _ _ _) => false
  | _ => true

theorem isUnsigned_of_query {command : Cmd} (h : command.isQuery = true) :
    isUnsigned command = true := by
  cases command with
  | sidecar request => cases request <;> simp_all [Cmd.isQuery]
  | _ => rfl

theorem signedBy_of_unsigned {entry : ServiceEntry} (h : isUnsigned entry.command = true) :
    signedBy entry = none := by
  unfold signedBy
  split
  · simp_all [isUnsigned]
  · rfl

theorem signedBy_of_plain {entry : ServiceEntry} (h : isPlain entry.command = true) :
    signedBy entry = none := by
  unfold signedBy
  split
  · simp_all [isPlain]
  · rfl

theorem marketBy_of_plain {entry : ServiceEntry} (h : isPlain entry.command = true) :
    marketBy entry = none := by
  unfold marketBy
  split
  · simp_all [isPlain]
  · rfl

/-! ### The run of a speed-up -/

section Run

variable {cfg : Config} {guard : Guard Cmd Choice Event World} {w : World}
  {history : List ServiceEntry}

theorem signed_cons_unsigned {entry : ServiceEntry} (hcommand : isUnsigned entry.command = true)
    (h : signed history = none) : signed (entry :: history) = none := by
  rw [signed, List.findSome?_cons, signedBy_of_unsigned hcommand]
  exact h

/-- What signs nothing is left with nothing signed. -/
theorem unsigned_bind {α β : Type} {Q : Except JsError β → World → List ServiceEntry → Prop}
    {p : Js α} {f : α → Js β} (hp : p.All fun command => isUnsigned command = true)
    (h : signed history = none)
    (hok : ∀ value w' history', signed history' = none →
      Meets (services cfg) guard Q (f value) w' history')
    (herr : ∀ error w' history', signed history' = none → Q (.error error) w' history') :
    Meets (services cfg) guard Q (p >>= f) w history := by
  refine Meets.keep_bind (J := fun _ history => signed history = none) ?_ h hok herr
  refine Prog.All.mono (fun command hcommand choice reply _ _ _ hnone _ _ => ?_) hp
  exact @signed_cons_unsigned _ (entryOf 0 command choice reply) hcommand hnone

/-- The fees that are returned are those of the last answer. -/
theorem fetchFeeData_meets (h : signed history = none) (chainId : Nat) :
    Meets (services cfg) guard (fun outcome _ history' => signed history' = none ∧
      ∀ fees, outcome = .ok fees → market history' = some fees)
      (fetchFeeData cfg chainId) w history := by
  have rule : ReplyRule .feeHistory (fun _ history => signed history = none)
      fun value _ history => signed history = none ∧
        ∀ baseFeePerGas reward fees, value = .feeHistory baseFeePerGas reward →
          feeData baseFeePerGas reward = some fees → market history = some fees := by
    constructor
    · intro rpcUrl value accepted w history hnone
      refine ⟨signed_cons_unsigned rfl hnone, fun baseFeePerGas reward fees hvalue hfees => ?_⟩
      simp [market, marketBy, Choice.result, hvalue, hfees]
    · intro rpcUrl reply accepted w history _ hnone
      exact signed_cons_unsigned rfl hnone
  refine Meets.bind (rule.rpcCallWithRetry h chainId) (fun value w' history' hvalue => ?_)
    fun error w' history' hnone => ⟨hnone, by simp⟩
  obtain ⟨hnone, hmarket⟩ := hvalue
  cases value with
  | feeHistory baseFeePerGas reward =>
    have hmarket := fun fees => hmarket baseFeePerGas reward fees rfl
    dsimp only
    split
    · rename_i fees hfees
      refine ⟨hnone, fun returned hreturned => ?_⟩
      rw [Except.ok.injEq] at hreturned
      rw [← hreturned]
      exact hmarket fees hfees
    · exact ⟨hnone, by simp⟩
  | _ => exact ⟨hnone, by simp⟩

/-- The estimate is of the market as it was last seen. -/
theorem estimateFees_meets (h : signed history = none) (toAddr value data : Text) (chainId : Nat)
    (sender : Option Text) :
    Meets (services cfg) guard (fun outcome _ history' => signed history' = none ∧
      ∀ fees, outcome = .ok fees → ∃ maxFee maxPriority,
        market history' = some (maxFee, maxPriority) ∧
        fees.maxFeePerGas = Text.decimalInt maxFee ∧
        fees.maxPriorityFeePerGas = Text.decimalInt maxPriority)
      (estimateFees cfg toAddr value data chainId sender) w history := by
  refine unsigned_bind (Prog.All.mono (fun _ => isUnsigned_of_query) (estimateGas_queries ..)) h
    (fun gasLimit w' history' h => ?_) fun _ _ _ h => ⟨h, by simp⟩
  refine Meets.bind (fetchFeeData_meets h chainId) (fun fees w'' history'' hfees => ?_)
    fun _ _ _ h => ⟨h.1, by simp⟩
  refine ⟨hfees.1, fun estimate hestimate => ?_⟩
  rw [Except.ok.injEq] at hestimate
  rw [← hestimate]
  exact ⟨fees.1, fees.2, hfees.2 fees rfl, rfl, rfl⟩

/-- What is signed carries the bumped fees of the market as it was last seen. -/
def Bumped (cfg : Config) (history : List ServiceEntry) : Prop :=
  ∀ signature, signed history = some signature → ∃ maxFee maxPriority,
    market history = some (maxFee, maxPriority) ∧
    signature.fields.maxFeePerGas = Text.decimalInt (Monitor.bump cfg maxFee) ∧
    signature.fields.maxPriorityFeePerGas = Text.decimalInt (Monitor.bump cfg maxPriority)

theorem Bumped.of_unsigned (h : signed history = none) : Bumped cfg history := by
  intro signature hsigned
  simp [h] at hsigned

theorem Bumped.cons_plain {entry : ServiceEntry} (h : Bumped cfg history)
    (hcommand : isPlain entry.command = true) : Bumped cfg (entry :: history) := by
  unfold Bumped signed market
  rw [List.findSome?_cons, List.findSome?_cons, signedBy_of_plain hcommand,
    marketBy_of_plain hcommand]
  exact h

theorem sendReplacement_plain (row : SigningRequest) (result : SignTransactionResult) :
    (Monitor.sendReplacement cfg row result).All fun command => isPlain command = true := by
  refine Prog.All.bind (Prog.All.tryCatch ?_ fun error => ?_) fun sent => ?_
  · refine Prog.All.bind (Prog.All.bind (Prog.All.perform rfl) fun _ => ?_) fun value => ?_
    · exact rpcCallWithRetry_all (fun _ => rfl) cfg row.chainId
    · split <;> trivial
  · exact Prog.All.bind (Prog.All.perform rfl) fun _ => trivial
  · split
    · refine Prog.All.bind (Prog.All.perform rfl) fun _ => ?_
      refine Prog.All.bind (Prog.All.perform rfl) fun _ => ?_
      exact Prog.All.perform rfl
    · trivial

theorem rebuild_meets (h : signed history = none) (row : SigningRequest) (txPayload : TxFields) :
    Meets (services cfg) guard (fun outcome _ history' => signed history' = none ∧
      ∀ fields, outcome = .ok fields → ∃ maxFee maxPriority,
        market history' = some (maxFee, maxPriority) ∧
        fields.maxFeePerGas = Text.decimalInt (Monitor.bump cfg maxFee) ∧
        fields.maxPriorityFeePerGas = Text.decimalInt (Monitor.bump cfg maxPriority))
      (Monitor.rebuild cfg row txPayload) w history := by
  refine Meets.bind (estimateFees_meets h ..) (fun estimate w' history' hestimate => ?_)
    fun _ _ _ h => ⟨h.1, by simp⟩
  obtain ⟨hnone, hfees⟩ := hestimate
  obtain ⟨maxFee, maxPriority, hmarket, hmax, hpriority⟩ := hfees estimate rfl
  simp only [hmax, hpriority, bigInt_decimalInt]
  refine ⟨hnone, fun fields hfields => ⟨maxFee, maxPriority, hmarket, ?_⟩⟩
  rw [Except.ok.injEq] at hfields
  rw [← hfields]
  exact ⟨rfl, rfl⟩

/-- Either nothing is signed, or these fields are. -/
theorem signReplacement_meets {fields : TxFields} {maxFee maxPriority : Int}
    (h : signed history = none) (hmarket : market history = some (maxFee, maxPriority))
    (hmax : fields.maxFeePerGas = Text.decimalInt (Monitor.bump cfg maxFee))
    (hpriority : fields.maxPriorityFeePerGas = Text.decimalInt (Monitor.bump cfg maxPriority))
    (row : SigningRequest) (wallet : Wallet) (seedRow : OrganizationSeed) :
    Meets (services cfg) guard (fun _ _ history' => Bumped cfg history')
      (Monitor.signReplacement cfg row wallet seedRow fields) w history := by
  have hplain : ∀ {α : Type} {p : Js α} {w' : World} {history' : List ServiceEntry},
      (p.All fun command => isPlain command = true) → Bumped cfg history' →
      Meets (services cfg) guard (fun _ _ history' => Bumped cfg history') p w' history' := by
    intro α p w' history' hp hbumped
    exact Meets.of_all (J := fun _ history => Bumped cfg history) (Prog.All.mono
      (fun _ hcommand _ _ _ _ _ hkept _ _ => hkept.cons_plain hcommand) hp) hbumped
  refine Meets.bind (P := fun _ _ history' => Bumped cfg history') ?_
    (fun result w' history' hbumped => ?_) fun _ _ _ h => h
  · refine Meets.tryCatch (P := fun _ _ history' => Bumped cfg history') ?_ (fun _ _ _ h => h)
      fun error w' history' h => hplain (Prog.All.bind (Prog.All.perform rfl) fun _ => trivial) h
    refine Meets.bind (P := fun _ _ history' => Bumped cfg history')
      (Meets.perform fun choice reply w' _ hexec => ?_) (fun _ _ _ h => h) fun _ _ _ h => h
    obtain ⟨hanswer, _⟩ := exec_sidecar hexec
    cases choice with
    | signed signature txHash =>
      intro found hfound
      simp only [signed, List.findSome?_cons, signedBy, entryOf, Option.some.injEq] at hfound
      refine ⟨maxFee, maxPriority, ?_, by rw [← hfound, hmax], by rw [← hfound, hpriority]⟩
      exact hmarket
    | reject error =>
      apply Bumped.of_unsigned
      simpa [signed, signedBy, entryOf] using h
    | _ => cases hanswer
  · cases result with
    | none => exact hbumped
    | some result => exact hplain (sendReplacement_plain row result) hbumped

/-- **A speed-up signs the bumped estimate of the moment.** -/
theorem speedUp_meets (h : signed history = none) (row : SigningRequest) :
    Meets (services cfg) guard (fun _ _ history' => Bumped cfg history')
      (Monitor.speedUp cfg row) w history := by
  have hfailed : ∀ (errorType : ErrorType) (failureReason : Text) (w' : World)
      (history' : List ServiceEntry), signed history' = none →
      Meets (services cfg) guard (fun _ _ history' => Bumped cfg history')
        (Monitor.markFailed row errorType failureReason) w' history' := by
    intro errorType failureReason w' history' hnone
    exact Meets.perform fun choice reply w'' _ _ =>
      .of_unsigned (signed_cons_unsigned rfl hnone)
  unfold Monitor.speedUp
  split
  · exact hfailed _ _ _ _ h
  · cases row.txPayload with
    | none => exact hfailed _ _ _ _ h
    | some txPayload =>
      refine unsigned_bind (Prog.All.perform rfl) h (fun wallet w' history' h => ?_)
        fun _ _ _ h => .of_unsigned h
      cases wallet with
      | none => exact hfailed _ _ _ _ h
      | some wallet =>
        refine unsigned_bind (Prog.All.perform rfl) h (fun seedRow w' history' h => ?_)
          fun _ _ _ h => .of_unsigned h
        cases seedRow with
        | none => exact hfailed _ _ _ _ h
        | some seedRow =>
          refine Meets.bind (rebuild_meets h row txPayload) (fun fields w' history' hfields => ?_)
            fun _ _ _ h => .of_unsigned h.1
          obtain ⟨maxFee, maxPriority, hmarket, hmax, hpriority⟩ := hfields.2 fields rfl
          exact signReplacement_meets hfields.1 hmarket hmax hpriority row wallet seedRow

end Run

/-- The transaction behind the hash of a row: the one a request submitted, or the one the
    last speed-up of the row sent.  The sidecar signs no fee below zero. -/
inductive Behind (cfg : Config) : SigningRequest → TxFields → Prop where
  | requested {orgId walletId : Text} {req : SignRequest} {w w' : World}
      {outcome : Except JsError SignResult} {history : List ServiceEntry} {signature : Signed}
      {row : SigningRequest} {maxFee maxPriority : Nat}
      (hrun : Completes (services cfg) .any (WalletService.requestSign cfg orgId walletId req)
        w [] outcome w' history)
      (hsigned : signed history = some signature)
      (hfees : Fees signature.fields maxFee maxPriority)
      (hrow : row ∈ w'.tables.requests) (hid : row.id = signature.origin)
      (hhash : row.txHash = some signature.txHash) : Behind cfg row signature.fields
  | replaced {row row' : SigningRequest} {pending : TxFields} {w w' : World}
      {outcome : Except JsError Unit} {history : List ServiceEntry} {signature : Signed}
      {maxFee maxPriority : Nat} (hpending : Behind cfg row pending)
      (hrun : Completes (services cfg) .any (Monitor.speedUp cfg row) w [] outcome w' history)
      (hsigned : signed history = some signature)
      (hfees : Fees signature.fields maxFee maxPriority)
      (hrow : row' ∈ w'.tables.requests) (hid : row'.id = row.id)
      (hhash : row'.txHash = some signature.txHash) : Behind cfg row' signature.fields

theorem Behind.fees {cfg : Config} {row : SigningRequest} {pending : TxFields}
    (h : Behind cfg row pending) : ∃ maxFee maxPriority, Fees pending maxFee maxPriority := by
  cases h with
  | requested _ _ hfees => exact ⟨_, _, hfees⟩
  | replaced _ _ _ hfees => exact ⟨_, _, hfees⟩

/-- Of known fees, the bumped estimates outbid them exactly where both clear. -/
theorem outbids_iff {cfg : Config} (hmultiplier : cfg.multiplierNumerator = 120)
    {pending fields : TxFields} {maxFee maxPriority : Nat} {estimate : Int × Int}
    (hpending : Fees pending maxFee maxPriority)
    (hmax : fields.maxFeePerGas = Text.decimalInt (Monitor.bump cfg estimate.1))
    (hpriority : fields.maxPriorityFeePerGas = Text.decimalInt (Monitor.bump cfg estimate.2)) :
    Outbids pending fields ↔ Clears maxFee estimate.1 ∧ Clears maxPriority estimate.2 := by
  rw [← bump_outbids hmultiplier, ← bump_outbids hmultiplier]
  constructor
  · rintro ⟨p, q, bid, priorityBid, hfees, hbids, hbid, hpriorityBid⟩
    simp only [Fees, hmax, hpriority, parseDecimal_decimalInt] at hbids
    rw [Fees, hpending.1, hpending.2, Option.some.injEq, Option.some.injEq] at hfees
    obtain ⟨rfl, rfl⟩ := hfees
    exact ⟨⟨bid, hbids.1, hbid⟩, priorityBid, hbids.2, hpriorityBid⟩
  · rintro ⟨⟨bid, hbump, hbid⟩, priorityBid, hpriorityBump, hpriorityBid⟩
    refine ⟨maxFee, maxPriority, bid, priorityBid, hpending, ?_, hbid, hpriorityBid⟩
    simp only [Fees, hmax, hpriority, parseDecimal_decimalInt]
    exact ⟨hbump, hpriorityBump⟩

/-- An estimate that the pending fee was bumped from does not clear it again. -/
theorem not_clears_twice {cfg : Config} (hmultiplier : cfg.multiplierNumerator = 120) {fee : Nat}
    {estimate : Int} (hfee : Monitor.bump cfg estimate = fee) : ¬Clears fee estimate := by
  intro hclears
  obtain ⟨bid, hbid, _, hlt⟩ := (bump_outbids hmultiplier).mpr hclears
  omega

end SpeedUpFees

open SpeedUpFees in
/-- **When a replacement outbids.**  Whatever the history of the row, the transaction that a
    speed-up signs outbids the one behind the hash exactly when both fees of the fresh
    estimate clear the pending ones. -/
theorem speedUp_outbids_iff {cfg : Config} (hmultiplier : cfg.multiplierNumerator = 120)
    {row : SigningRequest} {pending : TxFields} (hpending : Behind cfg row pending) {w w' : World}
    {outcome : Except JsError Unit} {history : List ServiceEntry} {signature : Signed}
    (hrun : Completes (services cfg) .any (Monitor.speedUp cfg row) w [] outcome w' history)
    (hsigned : signed history = some signature) :
    ∃ maxFee maxPriority estimate, Fees pending maxFee maxPriority ∧
      market history = some estimate ∧
      (Outbids pending signature.fields ↔
        Clears maxFee estimate.1 ∧ Clears maxPriority estimate.2) := by
  obtain ⟨maxFee, maxPriority, hfees⟩ := hpending.fees
  have hbumped : Bumped cfg history := hrun.meets (speedUp_meets rfl row)
  obtain ⟨estimatedMax, estimatedPriority, hmarket, hmax, hpriority⟩ := hbumped signature hsigned
  exact ⟨maxFee, maxPriority, (estimatedMax, estimatedPriority), hfees, hmarket,
    outbids_iff hmultiplier hfees hmax hpriority⟩

namespace SpeedUpFees

open Sample

/-- The row of a transfer that is submitted at fees 15 and 1. -/
def submittedRow : SigningRequest where
  id := freshId 1
  orgId := org
  walletId := wallet
  chainId := 1
  txHash := some "0x1".toList
  txPayload := some (sent 1 "1" 0 "s").fields
  signature := some "s".toList
  status := .broadcasted
  failureReason := none
  errorType := none
  blockNumber := none
  gasUsed := none
  effectiveGasPrice := none
  idempotencyKey := WalletService.computeIdempotencyKey config wallet.toText
    (transfer "1".toList).req
  speedUpAttempts := 0
  originalTxHash := none
  lastSpeedUpAt := none
  createdAt := 0
  signedAt := some 0
  broadcastedAt := some 0
  confirmedAt := none

/-- The row after one speed-up. -/
def spedUpRow : SigningRequest :=
  { submittedRow with
    txHash := some "0x2".toList, originalTxHash := some "0x1".toList, speedUpAttempts := 1,
    lastSpeedUpAt := some 0 }

def holding (row : SigningRequest) : World :=
  { world with tables := { world.tables with requests := [row] } }

/-- A replacement in the market of the request, with the hash it gets. -/
def bids (txHash : String) : List Choice :=
  [run, run, answer (.quantity 21000), answer (.feeHistory [7] [[1]]),
    .signed "s".toList txHash.toList, run, accepts, run, run, run]

/-- What is signed at these fees. -/
def transaction (maxFeePerGas maxPriorityFeePerGas : String) : TxFields :=
  { (sent 1 "1" 0 "s").fields with
    maxFeePerGas := maxFeePerGas.toList
    maxPriorityFeePerGas := maxPriorityFeePerGas.toList }

theorem behind_submitted : Behind config submittedRow (transaction "15" "1") := by
  obtain ⟨outcome, w', history, hrun, hP⟩ := Completes.exists_of_complete (services config) .any
    (WalletService.requestSign config org.toText wallet.toText (transfer "1".toList).req) world
    (untilFees ++ .done (freshId 1) :: signs "s".toList "0x1".toList ++
      [run, accepts, run, run, run])
    (fun final => submittedRow ∈ final.2.1.tables.requests ∧
      signed final.2.2 = some ⟨freshId 1, "0x1".toList, transaction "15" "1"⟩)
    (by decide)
  obtain ⟨hrow, hsigned⟩ := of_decide_eq_true hP
  have hfees : Fees (transaction "15" "1") 15 1 := ⟨by decide, by decide⟩
  exact .requested hrun hsigned hfees hrow rfl rfl

theorem speedUp_exists (row : SigningRequest) (txHash : String) {final : SigningRequest}
    {fields : TxFields}
    (h : (((services config).complete .any (bids txHash) (Monitor.speedUp config row)
      (holding row) []).any fun run => final ∈ run.2.1.tables.requests ∧
        signed run.2.2 = some ⟨row.id, txHash.toList, fields⟩) = true) :
    ∃ outcome w' history, Completes (services config) .any (Monitor.speedUp config row)
        (holding row) [] outcome w' history ∧ final ∈ w'.tables.requests ∧
      signed history = some ⟨row.id, txHash.toList, fields⟩ := by
  obtain ⟨outcome, w', history, hrun, hP⟩ := Completes.exists_of_complete (services config) .any
    (Monitor.speedUp config row) (holding row) (bids txHash)
    (fun run => final ∈ run.2.1.tables.requests ∧
      signed run.2.2 = some ⟨row.id, txHash.toList, fields⟩) h
  exact ⟨outcome, w', history, hrun, of_decide_eq_true hP⟩

theorem behind_spedUp : Behind config spedUpRow (transaction "18" "2") := by
  obtain ⟨outcome, w', history, hrun, hrow, hsigned⟩ :=
    @speedUp_exists submittedRow "0x2" spedUpRow (transaction "18" "2") (by decide)
  have hfees : Fees (transaction "18" "2") 18 2 := ⟨by decide, by decide⟩
  exact .replaced behind_submitted hrun hsigned hfees hrow rfl rfl

end SpeedUpFees

open SpeedUpFees Sample in
/-- The first speed-up in an unchanged market outbids the request. -/
theorem speedUp_outbids_iff_once :
    ∃ outcome w' history signature, Completes (services config) .any
        (Monitor.speedUp config submittedRow) (holding submittedRow) [] outcome w' history ∧
      signed history = some signature ∧
      ∃ maxFee maxPriority estimate, Fees (transaction "15" "1") maxFee maxPriority ∧
        market history = some estimate ∧
        (Outbids (transaction "15" "1") signature.fields ↔
          Clears maxFee estimate.1 ∧ Clears maxPriority estimate.2) := by
  obtain ⟨outcome, w', history, hrun, _, hsigned⟩ :=
    @speedUp_exists submittedRow "0x2" spedUpRow (transaction "18" "2") (by decide)
  exact ⟨outcome, w', history, _, hrun, hsigned,
    speedUp_outbids_iff rfl behind_submitted hrun hsigned⟩

open SpeedUpFees Sample in
/-- The second speed-up in an unchanged market signs the fees of the first once more. -/
theorem speedUp_bids_again :
    ∃ row pending outcome w w' history signature, config.multiplierNumerator = 120 ∧
      Behind config row pending ∧
      Completes (services config) .any (Monitor.speedUp config row) w [] outcome w' history ∧
      signed history = some signature ∧ ¬Outbids pending signature.fields := by
  obtain ⟨outcome, w', history, hrun, _, hsigned⟩ :=
    @speedUp_exists spedUpRow "0x3" { spedUpRow with
      txHash := some "0x3".toList, speedUpAttempts := 2 } (transaction "18" "2") (by decide)
  refine ⟨spedUpRow, _, outcome, _, w', history, _, rfl, behind_spedUp, hrun, hsigned, ?_⟩
  rintro ⟨maxFee, maxPriority, maxBid, maxPriorityBid, hfees, hbids, ⟨_, hlt⟩, _⟩
  have hsame := hfees.1.symm.trans hbids.1
  rw [Option.some.injEq] at hsame
  omega

end BrokeTurnkey
