import BrokeTurnkey.Stages

/-!
# One payment per signing request

Calls come and come again, monitors poll one cycle after the other, and all of them work
on the same rows.  Every transaction that was signed for a row and can still be mined
should carry one nonce, so that at most one of them takes effect.

A row is given its payload once, by the call that inserted it and before anything is
signed for it, and a monitor only re-signs the nonce of the payload it finds.  A failed
row would be given a second payload by the call that resets it.  But the reset follows
an error with the code of the index, and drizzle-orm throws one without a code: the
retry of a failed request is turned away.

So it is the driver that the property rests on.  With one that shows the code it fails:
the monitor marks a row failed although the transaction it could not replace is still
pending, and the next retry signs with a new nonce.
-/

namespace BrokeTurnkey

open Interaction

/-! ### One nonce for each request -/

/-- The transactions that can still be mined carry one nonce for each request. -/
def OneNonce (w : World) : Prop :=
  ∀ rawTx ∈ w.live, ∀ rawTx' ∈ w.live, rawTx.origin = rawTx'.origin →
    rawTx.fields.nonce = rawTx'.fields.nonce

/-- The row signs with this nonce. -/
def PaysWith (nonce : Int) (row : SigningRequest) : Prop :=
  row.txPayload.map TxFields.nonce = some nonce

/-- The row a transaction was signed for signs with its nonce. -/
def PaidFor (t : Tables) (rawTx : RawTx) : Prop :=
  Stored rawTx.origin (PaysWith rawTx.fields.nonce) t

/-- Ids are unique, and what can still be mined carries the nonce of its row. -/
structure Settled (w : World) : Prop where
  ids : UniqueIds w.tables
  live : ∀ rawTx ∈ w.live, PaidFor w.tables rawTx

theorem Settled.oneNonce {w : World} (h : Settled w) : OneNonce w := by
  intro rawTx hraw rawTx' hraw' horigin
  have hlive' := h.live rawTx' hraw'
  rw [PaidFor, ← horigin] at hlive'
  obtain ⟨row, hnonce, hnonce'⟩ := (h.live rawTx hraw).and hlive'.2
  exact Option.some.inj (hnonce.symm.trans hnonce')

namespace OnePayment

/-! ### What a thread knows of its rows -/

/-- The row has no payload yet. -/
def Unpaid (row : SigningRequest) : Prop := row.txPayload = none

/-- The row whose payload the call has still to write. -/
def freshRow : Stage → Option Uuid
  | .client _ (.owner id) => some id
  | .client _ (.held id _) => some id
  | _ => none

/-- A row as it was read signs with the nonce it had then. -/
def Backed (t : Tables) (row : SigningRequest) : Prop :=
  ∀ nonce, PaysWith nonce row → Stored row.id (PaysWith nonce) t

def KnownToCall (t : Tables) : Phase → Prop
  | .owner id => Stored id Unpaid t
  | .held id _ => Stored id Unpaid t
  | .paying id txFields => Stored id (PaysWith txFields.nonce) t
  | .signed _ _ result => PaidFor t result.rawTx
  | .stored _ _ result => PaidFor t result.rawTx
  | .sending _ _ result => PaidFor t result.rawTx
  | _ => True

def KnownToMonitor (t : Tables) : MonitorPhase → Prop
  | .replacing _ result _ => PaidFor t result.rawTx
  | _ => True

def Known (t : Tables) : Stage → Prop
  | .client _ phase => KnownToCall t phase
  | .monitor phase => (∀ row ∈ phase.tracked, Backed t row) ∧ KnownToMonitor t phase
  | .background _ => True

/-- Only the rows matter. -/
theorem Known.of_requests {t t' : Tables} {stage : Stage} (h : Known t stage)
    (heq : t'.requests = t.requests) : Known t' stage := by
  cases stage with
  | background answer => trivial
  | monitor phase =>
    refine ⟨fun row hrow nonce hpays => (h.1 row hrow nonce hpays).of_eq heq, ?_⟩
    cases phase with
    | replacing row result rest => exact Stored.of_eq h.2 heq
    | _ => trivial
  | client call phase =>
    cases phase with
    | owner id => exact Stored.of_eq h heq
    | held id nonce => exact Stored.of_eq h heq
    | paying id txFields => exact Stored.of_eq h heq
    | signed id txFields result => exact Stored.of_eq h heq
    | stored id txFields result => exact Stored.of_eq h heq
    | sending id txFields result => exact Stored.of_eq h heq
    | _ => trivial

/-- What holds throughout a run. -/
structure Inv (w : World) (_ : List ServiceEntry) (stage : Nat → Stage) : Prop
    extends Unconflicted w stage where
  settled : Settled w
  apart : ∀ i j id, freshRow (stage i) = some id → freshRow (stage j) = some id → i = j
  known : ∀ i, Known w.tables (stage i)

/-- A fresh row is stored. -/
theorem Inv.hasRow {w : World} {history : List ServiceEntry} {stage : Nat → Stage}
    (hinv : Inv w history stage) {i : Nat} {id : Uuid} (h : freshRow (stage i) = some id) :
    HasRow id w.tables := by
  have hknown := hinv.known i
  generalize stage i = s at h hknown
  cases s with
  | client call phase =>
    cases phase with
    | owner id' => cases h; exact hknown.1
    | held id' nonce => cases h; exact hknown.1
    | _ => cases h
  | _ => cases h

/-! ### What a transition does -/

/-- An update without a payload leaves the nonce of the row. -/
theorem paysWith_apply {nonce : Int} {fields : SigningRequestUpdate} (h : fields.txPayload = none)
    {row : SigningRequest} (hrow : PaysWith nonce row) : PaysWith nonce (fields.apply row) := by
  rw [PaysWith, SigningRequestUpdate.apply, h, Option.none_or]
  exact hrow

theorem unpaid_apply {fields : SigningRequestUpdate} (h : fields.txPayload = none)
    {row : SigningRequest} (hrow : Unpaid row) : Unpaid (fields.apply row) := by
  rw [Unpaid, SigningRequestUpdate.apply, h, Option.none_or]
  exact hrow

/-- A payload is written by the call that has reserved its nonce, and nobody else. -/
theorem payload_of_step {cfg : Config} {stage stage' : Stage} {id : Uuid}
    {fields : SigningRequestUpdate} {reply : Except JsError Unit}
    (hstep : Step cfg stage (.sql (.requestUpdate id fields)) reply stage') :
    fields.txPayload = none ∨ ∃ call nonce, stage = .client call (.held id nonce) := by
  cases hstep with
  | query hquery => cases hquery
  | never hlocal => cases hlocal
  | client h =>
    cases h with
    | prepared => exact .inr ⟨_, _, rfl⟩
    | notPrepared => exact .inr ⟨_, _, rfl⟩
    | _ => exact .inl rfl
  | monitor h =>
    cases h with
    | settles hrow hfields => cases hfields <;> exact .inl rfl
    | unsent => exact .inl rfl
    | records => exact .inl rfl

section Step

variable {cfg : Config} {i : Nat} {command : Cmd} {choice : Choice} {w w' : World}
  {history : List ServiceEntry} {stage : Nat → Stage} {s' : Stage}
  {reply : Except JsError command.Reply}

/-- The nonce of a row is there to stay. -/
theorem Inv.keeps_nonce (hinv : Inv w history stage) (hstep : Step cfg (stage i) command reply s')
    (hexec : exec command choice w = some (reply, w')) {id : Uuid} {nonce : Int}
    (h : Stored id (PaysWith nonce) w.tables) : Stored id (PaysWith nonce) w'.tables := by
  apply stored_exec hexec h
  intro fields hcommand row hrow
  subst hcommand
  rcases payload_of_step hstep with hnone | ⟨call, held, hs⟩
  · exact paysWith_apply hnone hrow
  · -- the writer of a payload knows that there is none
    have hunpaid := hinv.known i
    rw [hs] at hunpaid
    obtain ⟨stored, hpays, hnone⟩ := h.and hunpaid.2
    rw [PaysWith, hnone] at hpays
    cases hpays

theorem Inv.keeps_backed (hinv : Inv w history stage)
    (hstep : Step cfg (stage i) command reply s')
    (hexec : exec command choice w = some (reply, w')) {row : SigningRequest}
    (h : Backed w.tables row) : Backed w'.tables row :=
  fun nonce hpays => hinv.keeps_nonce hstep hexec (h nonce hpays)

/-- A row without a payload gets it from the call that has it as fresh. -/
theorem keeps_unpaid (hstep : Step cfg (stage i) command reply s')
    (hexec : exec command choice w = some (reply, w')) {id : Uuid}
    (hother : freshRow (stage i) ≠ some id) (h : Stored id Unpaid w.tables) :
    Stored id Unpaid w'.tables := by
  apply stored_exec hexec h
  intro fields hcommand row hrow
  subst hcommand
  rcases payload_of_step hstep with hnone | ⟨call, held, hs⟩
  · exact unpaid_apply hnone hrow
  · rw [hs] at hother
    exact absurd rfl hother

/-- What the other threads know stays true. -/
theorem Inv.keeps_known (hinv : Inv w history stage) (hstep : Step cfg (stage i) command reply s')
    (hexec : exec command choice w = some (reply, w')) {j : Nat} (hji : j ≠ i) :
    Known w'.tables (stage j) := by
  have hknown := hinv.known j
  have hother : ∀ id, freshRow (stage j) = some id → freshRow (stage i) ≠ some id :=
    fun id hj hi => hji (hinv.apart j i id hj hi)
  cases hj : stage j with
  | background answer => trivial
  | monitor phase =>
    rw [hj] at hknown
    refine ⟨fun row hrow => hinv.keeps_backed hstep hexec (hknown.1 row hrow), ?_⟩
    cases phase with
    | replacing row result rest => exact hinv.keeps_nonce hstep hexec hknown.2
    | _ => trivial
  | client call phase =>
    rw [hj] at hknown hother
    cases phase with
    | owner id => exact keeps_unpaid hstep hexec (hother id rfl) hknown
    | held id nonce => exact keeps_unpaid hstep hexec (hother id rfl) hknown
    | paying id txFields => exact hinv.keeps_nonce hstep hexec hknown
    | signed id txFields result => exact hinv.keeps_nonce hstep hexec hknown
    | stored id txFields result => exact hinv.keeps_nonce hstep hexec hknown
    | sending id txFields result => exact hinv.keeps_nonce hstep hexec hknown
    | _ => trivial

/-- The call that moves, and what it knows then. -/
theorem Inv.known_of_clientStep (hinv : Inv w history stage) {call : SignCall}
    {phase phase' : Phase} (hs : stage i = .client call phase)
    (hclient : ClientStep call phase command reply phase')
    (hstep : Step cfg (stage i) command reply (.client call phase'))
    (hexec : exec command choice w = some (reply, w')) : KnownToCall w'.tables phase' := by
  have hknown := hinv.known i
  rw [hs] at hknown
  cases hclient with
  | created =>
    obtain ⟨⟨id, org, wallet, _, hrow⟩, hstored⟩ := exec_create hexec
    apply hstored.mono
    rintro _ rfl
    rw [hrow]
    rfl
  | reset => exact absurd hs (hinv.seen i call _)
  | reserved => exact Stored.of_eq hknown ((exec_agree hexec).requests nofun)
  | prepared hnonce hchain =>
    rcases exec_update hexec with ⟨_, _, rfl, _⟩ | ⟨_, _, hfails⟩
    · exact Stored.update hknown fun _ _ => rfl
    · cases hfails
  | signs =>
    obtain ⟨horigin, hfields⟩ := exec_signTransaction hexec
    rw [KnownToCall, PaidFor, horigin, hfields]
    exact hinv.keeps_nonce hstep hexec hknown
  | stores => exact hinv.keeps_nonce hstep hexec hknown
  | enters => exact hinv.keeps_nonce hstep hexec hknown
  | notTakes => exact hinv.keeps_nonce hstep hexec hknown
  | _ => trivial

/-- The monitor that moves, and what it knows then. -/
theorem Inv.known_of_monitorStep (hinv : Inv w history stage) {phase phase' : MonitorPhase}
    (hs : stage i = .monitor phase) (hmonitor : MonitorStep cfg phase command reply phase')
    (hexec : exec command choice w = some (reply, w')) :
    Known w'.tables (.monitor phase') := by
  have hknown := hinv.known i
  have hstep : Step cfg (stage i) command reply (.monitor phase') := hs ▸ .monitor hmonitor
  rw [hs] at hknown
  have hbacked : ∀ rows : List SigningRequest, (∀ row ∈ rows, row ∈ phase.tracked) →
      ∀ row ∈ rows, Backed w'.tables row :=
    fun rows hrows row hrow => hinv.keeps_backed hstep hexec (hknown.1 row (hrows row hrow))
  cases hmonitor with
  | snapshot =>
    obtain ⟨rfl, hrows⟩ := exec_findBroadcasted hexec
    refine ⟨fun row hrow nonce hpays => ?_, trivial⟩
    apply (hinv.settled.ids.stored (hrows row hrow)).mono
    rintro _ rfl
    exact hpays
  | noSnapshot => exact ⟨fun _ hrow => absurd hrow List.not_mem_nil, trivial⟩
  | settles hrow hfields =>
    exact ⟨hbacked _ fun row hmem => hrow.subset (List.mem_cons_of_mem _ hmem), trivial⟩
  | @signs rows rest row wallet key txFields result hrow hbudget hnonce =>
    refine ⟨hbacked _ fun row hmem => hrow.subset hmem, ?_⟩
    obtain ⟨horigin, hfields⟩ := exec_signTransaction hexec
    rw [KnownToMonitor, PaidFor, horigin, hfields]
    exact hbacked [row] (fun _ hmem => hrow.subset (List.mem_singleton.mp hmem ▸
      List.mem_cons_self)) row (List.mem_singleton_self row) txFields.nonce hnonce
  | refuses => exact ⟨hbacked _ fun _ hmem => hmem, trivial⟩
  | enters => exact ⟨hbacked _ fun _ hmem => hmem, hinv.keeps_nonce hstep hexec hknown.2⟩
  | takes => exact ⟨hbacked _ fun _ hmem => hmem, trivial⟩
  | notTakes => exact ⟨hbacked _ fun _ hmem => hmem, hinv.keeps_nonce hstep hexec hknown.2⟩
  | unsent => exact ⟨hbacked _ fun _ hmem => List.mem_cons_of_mem _ hmem, trivial⟩
  | records => exact ⟨hbacked _ fun _ hmem => List.mem_cons_of_mem _ hmem, trivial⟩

theorem Inv.known_of_step (hinv : Inv w history stage) (hstep : Step cfg (stage i) command reply s')
    (hexec : exec command choice w = some (reply, w')) : Known w'.tables s' := by
  have hknown := hinv.known i
  generalize hs : stage i = s at hstep hknown
  cases hstep with
  | query hquery =>
    rw [exec_query hquery hexec]
    exact hknown
  | audit => exact hknown.of_requests ((exec_agree hexec).requests nofun)
  | never hlocal => cases (exec_local hlocal hexec).1
  | @client call phase phase' _ _ hclient =>
    have hmoved : Step cfg (stage i) command reply (.client call phase') := by
      rw [hs]
      exact .client hclient
    exact hinv.known_of_clientStep hs hclient hmoved hexec
  | monitor hmonitor => exact hinv.known_of_monitorStep hs hmonitor hexec
  | asks => trivial
  | syncs => trivial

/-- What is submitted is a transaction its thread has had signed. -/
theorem Inv.paidFor (hinv : Inv w history stage) (hstep : Step cfg (stage i) command reply s')
    {rawTx : RawTx} (hsubmits : command.submits = some rawTx) : PaidFor w.tables rawTx := by
  have hknown := hinv.known i
  generalize hs : stage i = s at hstep hknown
  cases hstep with
  | query hquery => cases (Cmd.submits_of_query hquery).symm.trans hsubmits
  | never hlocal =>
    cases command with
    | fetch rpcUrl request => cases hlocal
    | _ => cases hsubmits
  | client hclient =>
    cases hclient with
    | takes => cases hsubmits; exact hknown
    | notTakes => cases hsubmits; exact hknown
    | _ => cases hsubmits
  | monitor hmonitor =>
    cases hmonitor with
    | takes => cases hsubmits; exact hknown.2
    | notTakes => cases hsubmits; exact hknown.2
    | _ => cases hsubmits
  | _ => cases hsubmits

theorem Inv.settled_step (hinv : Inv w history stage) (hstep : Step cfg (stage i) command reply s')
    (hexec : exec command choice w = some (reply, w')) : Settled w' := by
  refine ⟨hinv.settled.ids.exec hexec, fun rawTx hraw => ?_⟩
  rcases mem_live hexec hraw with hold | hsubmits
  · exact hinv.keeps_nonce hstep hexec (hinv.settled.live rawTx hold)
  · exact hinv.keeps_nonce hstep hexec (hinv.paidFor hstep hsubmits)

/-- A row is fresh to the call that has inserted it. -/
theorem Inv.fresh_of_step (hinv : Inv w history stage)
    (hstep : Step cfg (stage i) command reply s')
    (hexec : exec command choice w = some (reply, w')) {id : Uuid}
    (hfresh : freshRow s' = some id) :
    freshRow (stage i) = some id ∨ ¬ HasRow id w.tables := by
  generalize hs : stage i = s at hstep
  cases hstep with
  | query => exact .inl hfresh
  | audit => exact .inl hfresh
  | never hlocal => cases (exec_local hlocal hexec).1
  | client hclient =>
    cases hclient with
    | created =>
      cases hfresh
      exact .inr (exec_create_fresh hexec)
    | reset => exact absurd hs (hinv.seen i _ _)
    | reserved => exact .inl hfresh
    | _ => cases hfresh
  | _ => cases hfresh

theorem Inv.apart_step (hinv : Inv w history stage) (hstep : Step cfg (stage i) command reply s')
    (hexec : exec command choice w = some (reply, w')) {j : Nat} (hji : j ≠ i) {id : Uuid}
    (hj : freshRow (stage j) = some id) : freshRow s' ≠ some id := by
  intro hi
  rcases hinv.fresh_of_step hstep hexec hi with hold | hnew
  · exact hji (hinv.apart j i id hj hold)
  · exact hnew (hinv.hasRow hj)

end Step

theorem keeps {cfg : Config} : Automaton.Keeps (Step cfg) (services cfg) .any Inv := by
  intro i command choice w w' history stage s' reply hstep hinv _ hexec
  refine ⟨hinv.toUnconflicted.step hstep hexec, hinv.settled_step hstep hexec,
    fun j k id hj hk => ?_, fun j => ?_⟩
  · by_cases hji : j = i <;> by_cases hki : k = i
    · rw [hji, hki]
    · rw [hji, Function.update_self] at hj
      rw [Function.update_of_ne hki] at hk
      exact absurd hj (hinv.apart_step hstep hexec hki hk)
    · rw [hki, Function.update_self] at hk
      rw [Function.update_of_ne hji] at hj
      exact absurd hk (hinv.apart_step hstep hexec hji hj)
    · rw [Function.update_of_ne hji] at hj
      rw [Function.update_of_ne hki] at hk
      exact hinv.apart j k id hj hk
  · by_cases hji : j = i
    · rw [hji, Function.update_self]
      exact hinv.known_of_step hstep hexec
    · rw [Function.update_of_ne hji]
      exact hinv.keeps_known hstep hexec hji

theorem Inv.event {w w' : World} {event : Event} {history : List ServiceEntry}
    {stage : Nat → Stage} (h : Inv w history stage) (hevent : w.event event = some w') :
    Inv w' history stage := by
  have heq := (World.event_tables hevent).1
  refine ⟨h.toUnconflicted.event hevent, ⟨h.settled.ids.of_eq heq, fun rawTx hraw => ?_⟩, h.apart,
    fun i => (h.known i).of_requests heq⟩
  exact (h.settled.live rawTx (World.event_live hevent rawTx hraw)).of_eq heq

theorem start_inv {calls : List SignCall} {polls : List Nat} {w : World}
    (hwraps : w.tables.Wraps) (hsettled : Settled w) : Inv w [] (startStage calls polls) := by
  refine ⟨start_unconflicted hwraps, hsettled, fun i j id hi => ?_, fun i => ?_⟩
  · simp only [startStage] at hi
    split at hi
    · cases hi
    · split at hi <;> cases hi
  · simp only [startStage]
    split
    · trivial
    · split
      · exact ⟨fun _ hrow => absurd hrow List.not_mem_nil, trivial⟩
      · trivial

end OnePayment

/-- **One payment per request.**  Take any calls and any monitors, and any state to start
    from in which what can still be mined carries the nonce of its row.  In every
    interleaving, and whatever becomes of the mempool, all transactions of one request
    that can still be mined carry one nonce, at every moment. -/
theorem requestSign_one_payment {cfg : Config} {calls : List SignCall} {polls : List Nat}
    {w : World} {p : ServicePool} (hwraps : w.tables.Wraps) (hstart : Settled w)
    (hreach : Reach (services cfg) .any (deployment cfg calls polls w) p) :
    OneNonce p.state := by
  obtain ⟨stage, _, hinv⟩ := services_invariant OnePayment.keeps
    (fun event w w' history stage hinv _ hevent => hinv.event hevent)
    (deployment_staged cfg calls polls w) (OnePayment.start_inv hwraps hstart) hreach
  exact hinv.settled.oneNonce

namespace OnePayment

open Sample

/-- The request goes through and is stuck a cycle later. -/
def stuck : List (Move Choice Event) :=
  moves 0 (untilFees ++ .done (freshId 1) :: signs "first".toList "hash1".toList ++
    [run, accepts, run, run, run]) ++
  [.env (.tick 2000)]

/-- Its replacement is taken; a cycle later that is stuck too, and cannot be replaced. -/
def replacedOnce : List (Move Choice Event) :=
  moves 2 (run :: replaces "second" "hash2") ++ [.env (.tick 2000)]

/-- The replacement, at higher fees. -/
def replacement : RawTx :=
  { sent 1 "1" 0 "second" with
    fields := { (sent 1 "1" 0 "second").fields with
      maxFeePerGas := "18".toList, maxPriorityFeePerGas := "2".toList } }

/-- A cycle that finds the row stuck, and whose replacement the sidecar does not sign. -/
def givenUp : List (Move Choice Event) :=
  moves 2 [run, answer .null, run, answer .transaction, run, run, answer (.quantity 21000),
    answer (.feeHistory [7] [[1]]), .reject (.error "signer unavailable".toList), run]

/-- The retry of the request, up to its insert. -/
def retried : List (Move Choice Event) := moves 1 (untilFees ++ [.done (freshId 2)])

end OnePayment

open Sample OnePayment in
/-- A request is replaced once and then given up as failed, and its retry is turned away.
    Both transactions can be mined, and carry one nonce. -/
theorem requestSign_one_payment_replaced :
    ∃ p, Reach (services config) .any
        (deployment config [transfer "1".toList, transfer "1".toList] [2] world) p ∧
      p.state.live = [replacement, sent 1 "1" 0 "first"] ∧
      p.state.tables.requests.map SigningRequest.status = [.failed] ∧
      p.threads[1]?.any isRejected = true ∧ OneNonce p.state := by
  obtain ⟨p, hreach, hp⟩ := Reach.exists_of_run (services config) .any
    (deployment config [transfer "1".toList, transfer "1".toList] [2] world)
    (stuck ++ replacedOnce ++ givenUp ++ retried)
    (fun p => p.state.live = [replacement, sent 1 "1" 0 "first"] &&
      p.state.tables.requests.map SigningRequest.status = [.failed] &&
      p.threads[1]?.any isRejected) (by decide)
  simp only [Bool.and_eq_true, decide_eq_true_eq] at hp
  have hstart : Settled world :=
    ⟨List.nodup_nil, fun _ hraw => absurd hraw List.not_mem_nil⟩
  exact ⟨p, hreach, hp.1.1, hp.1.2, hp.2, requestSign_one_payment (w := world) rfl hstart hreach⟩

/-! ### A driver that shows the code -/

/-- Whoever does not answer with a hash has not taken the transaction. -/
def Honest : Cmd → Choice → Bool
  | .fetch _ (.sendRawTransaction _), .fetched (.ok (.result (.hash _))) _ => true
  | .fetch _ (.sendRawTransaction _), .fetched _ accepted => !accepted
  | _, _ => true

/-- Broadcast errors are honest. -/
def honestBroadcasts : Guard Cmd Choice Event World where
  command := fun command choice _ => Honest command choice = true
  event := fun _ _ => True

instance : honestBroadcasts.Decides where
  command := fun command choice _ => inferInstanceAs (Decidable (Honest command choice = true))
  event := fun _ _ => isTrue trivial

open Sample OnePayment in
/-- The hypothesis on the driver is needed: with one that shows the code, the monitor fails
    to replace a pending transaction and marks its row failed; the retry resets the row and
    signs with the next nonce, and both transactions can be mined. -/
theorem requestSign_two_payments :
    ∃ p, Reach (services config) honestBroadcasts
        (deployment config [transfer "1".toList, transfer "1".toList] [1] (exposing world)) p ∧
      p.state.live = [sent 1 "1" 1 "second", sent 1 "1" 0 "first"] ∧ ¬ OneNonce p.state := by
  obtain ⟨p, hreach, hp⟩ := Reach.exists_of_run (services config) honestBroadcasts
    (deployment config [transfer "1".toList, transfer "1".toList] [1] (exposing world))
    (stuck ++ givenUp ++ retried ++ moves 1 ([run, run] ++
      signs "second".toList "hash2".toList ++ [run, accepts]))
    (fun p => p.state.live = [sent 1 "1" 1 "second", sent 1 "1" 0 "first"]) (by decide)
  have hlive := of_decide_eq_true hp
  refine ⟨p, hreach, hlive, fun hone => ?_⟩
  have hnonce := hone (sent 1 "1" 1 "second") (by rw [hlive]; exact List.mem_cons_self)
    (sent 1 "1" 0 "first") (by rw [hlive]; exact List.mem_cons_of_mem _ List.mem_cons_self) rfl
  exact absurd hnonce (by decide)

end BrokeTurnkey
