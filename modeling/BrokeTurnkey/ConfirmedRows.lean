import BrokeTurnkey.Rows
import BrokeTurnkey.Stages

/-!
# Whether `confirmed` is terminal

Every write to a row is unconditional, so a row stays confirmed only if nobody is left
who would write to it.  A call writes to the row it owns, which is then pending or
signed; a reset is issued for a row that was read as failed; a monitor writes to the rows
of its snapshot, which were broadcasted when it was taken.

These pictures stay true where one cycle ends before the next begins, a reset still finds
the row failed, and the answer to the write that records a broadcast is not lost.  Then
no write meets a confirmed row.
-/

namespace BrokeTurnkey

open Interaction

/-- The row a call may still write to. -/
def Phase.owned : Phase → Option Uuid
  | .owner id => some id
  | .held id _ => some id
  | .paying id _ => some id
  | .refused id _ => some id
  | .signed id _ _ => some id
  | .stored id _ _ => some id
  | .sending id _ _ => some id
  | .taken id _ => some id
  | .unrecorded id _ => some id
  | _ => none

def Stage.owned : Stage → Option Uuid
  | .client _ phase => phase.owned
  | _ => none

namespace ConfirmedRows

/-- The status of a row that a call is working on. -/
def Open (row : SigningRequest) : Prop := row.status = .pending ∨ row.status = .signed

/-- Who writes to a row, and what becomes of the claims on it. -/
inductive Write : Stage → Uuid → SigningRequestUpdate → Bool → Stage → Prop where
  | keeps {stage stage' : Stage} {id : Uuid} {fields : SigningRequestUpdate} {ok : Bool}
      (howned : stage.owned = some id) (howned' : stage'.owned = some id)
      (hfields : fields.status = none ∨ fields.status = some .signed) :
      Write stage id fields ok stage'
  | leaves {stage stage' : Stage} {id : Uuid} {fields : SigningRequestUpdate} {ok : Bool}
      (howned : stage.owned = some id) (howned' : stage'.owned = none) :
      Write stage id fields ok stage'
  /-- the record of the broadcast was not answered -/
  | unrecorded {stage stage' : Stage} {id : Uuid} {now : Int}
      (howned : stage.owned = some id) (howned' : stage'.owned = some id) :
      Write stage id (broadcastedFields now) false stage'
  | reset {call : SignCall} {stage' : Stage} {id : Uuid} {ok : Bool}
      (howned' : stage'.owned = if ok = true then some id else none) :
      Write (.client call (.seen id)) id WalletService.resetFields ok stage'
  | monitor {stage stage' : Stage} {row : SigningRequest} {rest : List SigningRequest}
      {fields : SigningRequestUpdate} {ok : Bool} (htracked : (row :: rest) <:+ stage.tracked)
      (htracked' : stage'.tracked = rest) (howned : stage.owned = none)
      (howned' : stage'.owned = none) : Write stage row.id fields ok stage'

theorem write_of_step {cfg : Config} {stage stage' : Stage} {id : Uuid}
    {fields : SigningRequestUpdate} {reply : Except JsError Unit}
    (hstep : Step cfg stage (.sql (.requestUpdate id fields)) reply stage') :
    Write stage id fields reply.isOk stage' := by
  cases hstep with
  | query hquery => cases hquery
  | never hlocal => cases hlocal
  | client h =>
    cases h with
    | reset => exact .reset rfl
    | notReset => exact .reset rfl
    | prepared => exact .keeps rfl rfl (.inl rfl)
    | stores => exact .keeps rfl rfl (.inr rfl)
    | notRecords => exact .unrecorded rfl rfl
    | _ => exact .leaves rfl rfl
  | monitor h =>
    cases h with
    | settles hrow hfields => exact .monitor hrow rfl rfl rfl
    | unsent => exact .monitor (List.suffix_refl _) rfl rfl rfl
    | records => exact .monitor (List.suffix_refl _) rfl rfl rfl

/-! ### The condition -/

/-- The reset of a row runs only while the row is still failed. -/
def resetsFailed : Guard Cmd Choice Event World where
  command := fun command choice w => choice.ran = true → ∀ id ∈ command.resets,
    ∀ row ∈ w.tables.requests, row.id = id → row.status = .failed
  event := fun _ _ => True

instance : resetsFailed.Decides where
  command := fun command choice w => inferInstanceAs (Decidable (choice.ran = true →
    ∀ id ∈ command.resets, ∀ row ∈ w.tables.requests, row.id = id → row.status = .failed))
  event := fun _ _ => isTrue trivial

/-- The write with which a call records its broadcast. -/
def recordsBroadcast : Cmd → Bool
  | .sql (.requestUpdate _ fields) => fields.status = some .broadcasted && fields.txHash = none
  | _ => false

/-- Resets find the row failed, and the record of a broadcast is not left unanswered
    after it ran. -/
def inOrder : Guard Cmd Choice Event World where
  command := fun command choice w => resetsFailed.command command choice w ∧
    (recordsBroadcast command = true → choice.isLost = false)
  event := fun _ _ => True

instance : inOrder.Decides where
  command := fun command choice w =>
    have := (inferInstance : resetsFailed.Decides).command command choice w
    inferInstanceAs (Decidable (resetsFailed.command command choice w ∧
      (recordsBroadcast command = true → choice.isLost = false)))
  event := fun _ _ => isTrue trivial

/-! ### The invariant -/

/-- What holds throughout a run with one monitor. -/
structure Inv (monitor : Nat) (w : World) (_ : List ServiceEntry) (stage : Nat → Stage) : Prop
    extends Snapshots monitor w stage where
  seen : ∀ i call id, stage i = .client call (.seen id) → HasRow id w.tables
  owned : ∀ i id, (stage i).owned = some id → Stored id Open w.tables
  sole : ∀ i j id, (stage i).owned = some id → (stage j).owned = some id → i = j
  tracked : ∀ i, ∀ row ∈ (stage i).tracked,
    Stored row.id (fun row => row.status = .broadcasted) w.tables

section Step

variable {cfg : Config} {monitor i : Nat} {command : Cmd} {choice : Choice} {w w' : World}
  {history : List ServiceEntry} {stage : Nat → Stage} {stage' : Stage}
  {reply : Except JsError command.Reply}

/-- The row that a write meets is open, failed or broadcasted, as its writer has it. -/
inductive Target (w : World) (stage stage' : Stage) (id : Uuid) : SigningRequestUpdate → Prop where
  | call {fields : SigningRequestUpdate} (howned : stage.owned = some id)
      (hstored : Stored id Open w.tables) : Target w stage stage' id fields
  | reset (howned : stage.owned = none) (hmonitor : stage.isMonitor = false)
      (hstored : Stored id (fun row => row.status = .failed) w.tables) :
      Target w stage stage' id WalletService.resetFields
  | monitor {fields : SigningRequestUpdate} {row : SigningRequest} {rest : List SigningRequest}
      (hid : row.id = id) (htracked : (row :: rest) <:+ stage.tracked)
      (htracked' : stage'.tracked = rest) (howned : stage.owned = none)
      (hstored : Stored id (fun row => row.status = .broadcasted) w.tables) :
      Target w stage stage' id fields

theorem Inv.target (hinv : Inv monitor w history stage) {id : Uuid} {fields : SigningRequestUpdate}
    {ok : Bool} (hwrite : Write (stage i) id fields ok stage')
    (hguard : inOrder.command (.sql (.requestUpdate id fields)) choice w)
    (hran : choice.ran = true) : Target w (stage i) stage' id fields := by
  generalize hs : stage i = s at hwrite
  cases hwrite with
  | keeps howned => exact .call howned (hinv.owned i id (hs ▸ howned))
  | leaves howned => exact .call howned (hinv.owned i id (hs ▸ howned))
  | unrecorded howned => exact .call howned (hinv.owned i id (hs ▸ howned))
  | reset =>
    apply Target.reset rfl rfl
    exact ⟨hinv.seen i _ id hs, hguard.1 hran id rfl⟩
  | monitor htracked htracked' howned =>
    apply Target.monitor rfl htracked htracked' howned
    apply hinv.tracked i
    rw [hs]
    exact htracked.subset List.mem_cons_self

/-- The row that a write meets is not confirmed. -/
theorem no_confirmed_target {id : Uuid} {fields : SigningRequestUpdate} {s s' : Stage}
    (htarget : Target w s s' id fields)
    (hstored : Stored id (fun row => row.status = .confirmed) w.tables) : False := by
  cases htarget with
  | call howned hopen =>
    obtain ⟨row, hconfirmed, hopen⟩ := hstored.and hopen.2
    rcases hopen with hpending | hsigned
    · cases hconfirmed.symm.trans hpending
    · cases hconfirmed.symm.trans hsigned
  | reset howned hmonitor hfailed =>
    obtain ⟨row, hconfirmed, hfailed⟩ := hstored.and hfailed.2
    cases hconfirmed.symm.trans hfailed
  | monitor hid htracked htracked' howned hbroadcasted =>
    obtain ⟨row, hconfirmed, hbroadcasted⟩ := hstored.and hbroadcasted.2
    cases hconfirmed.symm.trans hbroadcasted

/-- **No step changes a confirmed row.** -/
theorem Inv.confirmed_step (hinv : Inv monitor w history stage)
    (hstep : Step cfg (stage i) command reply stage') (hguard : inOrder.command command choice w)
    (hexec : exec command choice w = some (reply, w')) {id : Uuid}
    (hstored : Stored id (fun row => row.status = .confirmed) w.tables) :
    Stored id (fun row => row.status = .confirmed) w'.tables := by
  apply stored_exec_of_ran hexec hstored
  intro hran fields hcommand
  subst hcommand
  exact (no_confirmed_target (hinv.target (write_of_step hstep) hguard hran) hstored).elim

/-! ### One obligation for each part of the invariant -/

/-- A call comes to own a row by inserting or by resetting it. -/
theorem owned_of_step {s : Stage} {id : Uuid} (hstep : Step cfg s command reply stage')
    (hexec : exec command choice w = some (reply, w')) (howned' : stage'.owned = some id) :
    s.owned = some id ∨ (¬ HasRow id w.tables ∧ Stored id Open w'.tables) ∨
      (∃ call, s = .client call (.seen id)) ∧ choice.ran = true ∧
        command = .sql (.requestUpdate id WalletService.resetFields) := by
  cases hstep with
  | query => exact .inl howned'
  | audit => exact .inl howned'
  | never hlocal => cases (exec_local hlocal hexec).1
  | monitor h => cases howned'
  | asks => cases howned'
  | syncs => cases howned'
  | client h =>
    cases h with
    | created hpending =>
      cases howned'
      refine .inr (.inl ⟨exec_create_fresh hexec, ?_⟩)
      obtain ⟨⟨id, org, wallet, _, hrow⟩, hstored⟩ := exec_create hexec
      apply hstored.mono
      rintro _ rfl
      rw [hrow]
      exact .inl hpending
    | reset =>
      cases howned'
      refine .inr (.inr ⟨⟨_, rfl⟩, ?_, rfl⟩)
      rcases exec_update hexec with ⟨hran, _⟩ | ⟨_, _, hok⟩
      · exact hran
      · cases hok
    | _ => first | exact .inl howned' | cases howned'

/-- Another thread's open row is not the one that is written. -/
theorem Inv.other_owned (hinv : Inv monitor w history stage)
    (hstep : Step cfg (stage i) command reply stage') (hguard : inOrder.command command choice w)
    (hexec : exec command choice w = some (reply, w')) {j : Nat} (hji : j ≠ i) {id : Uuid}
    (howned : (stage j).owned = some id) : Stored id Open w'.tables := by
  have hopen := hinv.owned j id howned
  apply stored_exec_of_ran hexec hopen
  intro hran fields hcommand
  subst hcommand
  cases hinv.target (write_of_step hstep) hguard hran with
  | call howned' => exact absurd (hinv.sole j i id howned howned') hji
  | reset _ _ hfailed =>
    obtain ⟨row, hrow, hfailed⟩ := hopen.and hfailed.2
    rcases hrow with hpending | hsigned
    · cases hfailed.symm.trans hpending
    · cases hfailed.symm.trans hsigned
  | monitor _ _ _ _ hbroadcasted =>
    obtain ⟨row, hrow, hbroadcasted⟩ := hopen.and hbroadcasted.2
    rcases hrow with hpending | hsigned
    · cases hbroadcasted.symm.trans hpending
    · cases hbroadcasted.symm.trans hsigned

/-- The row of a call stays open as long as the call owns it. -/
theorem Inv.own_owned (hinv : Inv monitor w history stage)
    (hstep : Step cfg (stage i) command reply stage') (hguard : inOrder.command command choice w)
    (hexec : exec command choice w = some (reply, w')) {id : Uuid}
    (howned' : stage'.owned = some id) : Stored id Open w'.tables := by
  rcases owned_of_step hstep hexec howned' with howned | ⟨_, hopen⟩ | ⟨⟨call, hseen⟩, hran, hcommand⟩
  · apply stored_exec_of_ran hexec (hinv.owned i id howned)
    intro hran fields hcommand row hopen
    subst hcommand
    obtain ⟨ok, hok, hwrite⟩ : ∃ ok, reply.isOk = ok ∧ Write (stage i) id fields ok stage' :=
      ⟨_, rfl, write_of_step hstep⟩
    generalize hs : stage i = s at hwrite howned
    cases hwrite with
    | keeps _ _ hfields =>
      rcases hfields with hnone | hsigned
      · simp only [Open, SigningRequestUpdate.apply, hnone, Option.getD_none]
        exact hopen
      · simp only [Open, SigningRequestUpdate.apply, hsigned, Option.getD_some]
        exact .inr trivial
    | leaves _ hnone => cases hnone.symm.trans howned'
    | unrecorded =>
      rcases exec_update_of_fits ⟨rfl, rfl⟩ hexec with ⟨_, _, hreply | ⟨hlost, _⟩⟩ | ⟨hnot, _⟩
      · rw [hreply] at hok
        cases hok
      · cases hlost.symm.trans (hguard.2 rfl)
      · cases hnot.symm.trans hran
    | reset => cases howned
    | monitor _ _ _ hnone => cases hnone.symm.trans howned'
  · exact hopen
  · subst hcommand
    have hrow := hinv.seen i call id hseen
    rcases exec_update_of_fits ⟨rfl, rfl⟩ hexec with ⟨_, rfl, _⟩ | ⟨hnot, _⟩
    · refine ⟨hrow.update id _, (everyRow_true id w.tables).update ?_⟩
      intro row _
      exact .inl rfl
    · cases hnot.symm.trans hran

theorem Inv.owned_step (hinv : Inv monitor w history stage)
    (hstep : Step cfg (stage i) command reply stage') (hguard : inOrder.command command choice w)
    (hexec : exec command choice w = some (reply, w')) {j : Nat} {id : Uuid}
    (howned : (Function.update stage i stage' j).owned = some id) : Stored id Open w'.tables := by
  by_cases hji : j = i
  · rw [hji, Function.update_self] at howned
    exact hinv.own_owned hstep hguard hexec howned
  · rw [Function.update_of_ne hji] at howned
    exact hinv.other_owned hstep hguard hexec hji howned

/-- Nobody else owns the row that a call comes to own. -/
theorem Inv.own_sole (hinv : Inv monitor w history stage)
    (hstep : Step cfg (stage i) command reply stage') (hguard : inOrder.command command choice w)
    (hexec : exec command choice w = some (reply, w')) {j : Nat} {id : Uuid}
    (howned' : stage'.owned = some id) (hother : (stage j).owned = some id) : j = i := by
  have hopen := hinv.owned j id hother
  rcases owned_of_step hstep hexec howned' with howned | ⟨hfresh, _⟩ | ⟨⟨call, hseen⟩, hran, hcommand⟩
  · exact hinv.sole j i id hother howned
  · exact absurd hopen.1 hfresh
  · subst hcommand
    obtain ⟨row, hrow, hfailed⟩ := hopen.and (hguard.1 hran id rfl)
    rcases hrow with hpending | hsigned
    · cases hfailed.symm.trans hpending
    · cases hfailed.symm.trans hsigned

theorem Inv.sole_step (hinv : Inv monitor w history stage)
    (hstep : Step cfg (stage i) command reply stage') (hguard : inOrder.command command choice w)
    (hexec : exec command choice w = some (reply, w')) {j k : Nat} {id : Uuid}
    (hj : (Function.update stage i stage' j).owned = some id)
    (hk : (Function.update stage i stage' k).owned = some id) : j = k := by
  by_cases hji : j = i
  · by_cases hki : k = i
    · exact hji.trans hki.symm
    · rw [hji, Function.update_self] at hj
      rw [Function.update_of_ne hki] at hk
      exact absurd (hinv.own_sole hstep hguard hexec hj hk) hki
  · rw [Function.update_of_ne hji] at hj
    by_cases hki : k = i
    · rw [hki, Function.update_self] at hk
      exact absurd (hinv.own_sole hstep hguard hexec hk hj) hji
    · rw [Function.update_of_ne hki] at hk
      exact hinv.sole j k id hj hk

/-- A row that is still to be worked on is written by the one monitor alone. -/
theorem Inv.still_tracked (hinv : Inv monitor w history stage)
    (hstep : Step cfg (stage i) command reply stage') (hguard : inOrder.command command choice w)
    (hexec : exec command choice w = some (reply, w')) {j : Nat} {row : SigningRequest}
    (hold : row ∈ (stage j).tracked) (hrow : row ∈ (Function.update stage i stage' j).tracked) :
    Stored row.id (fun row => row.status = .broadcasted) w'.tables := by
  have hbroadcasted := hinv.tracked j row hold
  apply stored_exec_of_ran hexec hbroadcasted
  intro hran fields hcommand
  subst hcommand
  cases hinv.target (write_of_step hstep) hguard hran with
  | call _ hopen =>
    obtain ⟨row', hstatus, hopen⟩ := hbroadcasted.and hopen.2
    rcases hopen with hpending | hsigned
    · cases hstatus.symm.trans hpending
    · cases hstatus.symm.trans hsigned
  | reset _ _ hfailed =>
    obtain ⟨row', hstatus, hfailed⟩ := hbroadcasted.and hfailed.2
    cases hstatus.symm.trans hfailed
  | @monitor _ written rest hid htracked htracked' =>
    have hi := hinv.monitor_of_tracked (htracked.subset List.mem_cons_self)
    have hj := hinv.monitor_of_tracked hold
    rw [hj, ← hi, Function.update_self, htracked'] at hrow
    exact absurd hid.symm (hinv.not_behind htracked row hrow)

theorem Inv.tracked_step (hinv : Inv monitor w history stage)
    (hstep : Step cfg (stage i) command reply stage') (hguard : inOrder.command command choice w)
    (hexec : exec command choice w = some (reply, w')) {j : Nat} {row : SigningRequest}
    (hrow : row ∈ (Function.update stage i stage' j).tracked) :
    Stored row.id (fun row => row.status = .broadcasted) w'.tables := by
  by_cases hold : row ∈ (stage j).tracked
  · exact hinv.still_tracked hstep hguard hexec hold hrow
  · by_cases hji : j = i
    · rw [hji, Function.update_self] at hrow
      rw [hji] at hold
      rcases tracked_of_step hstep hexec with hsuffix | ⟨rfl, hperm⟩
      · exact absurd (hsuffix.subset hrow) hold
      · obtain ⟨hmem, hstatus⟩ := List.mem_filter.mp (hperm.mem_iff.mp hrow)
        apply (hinv.unique.stored hmem).mono
        rintro _ rfl
        exact of_decide_eq_true hstatus
    · rw [Function.update_of_ne hji] at hrow
      exact absurd hrow hold

/-- A call that has read a row as failed knows a row that exists. -/
theorem Inv.seen_step (hinv : Inv monitor w history stage)
    (hstep : Step cfg (stage i) command reply stage')
    (hexec : exec command choice w = some (reply, w')) {j : Nat} {call : SignCall} {id : Uuid}
    (hseen : Function.update stage i stage' j = .client call (.seen id)) :
    HasRow id w'.tables := by
  by_cases hji : j = i
  · rw [hji, Function.update_self] at hseen
    subst hseen
    rcases read_of_step hstep hexec with hseen | ⟨rfl, row, hrow, hid, _⟩
    · exact hasRow_exec hexec (hinv.seen i call id hseen)
    · exact ⟨row, hrow, hid⟩
  · rw [Function.update_of_ne hji] at hseen
    exact hasRow_exec hexec (hinv.seen j call id hseen)

theorem keeps : Automaton.Keeps (Step cfg) (services cfg) inOrder (Inv monitor) := by
  intro i command choice w w' history stage stage' reply hstep hinv hguard hexec
  constructor
  · exact hinv.toSnapshots.step hstep hexec
  · intro j call id hseen
    exact hinv.seen_step hstep hexec hseen
  · intro j id howned
    exact hinv.owned_step hstep hguard hexec howned
  · intro j k id hj hk
    exact hinv.sole_step hstep hguard hexec hj hk
  · intro j row hrow
    exact hinv.tracked_step hstep hguard hexec hrow

end Step

theorem Inv.event {monitor : Nat} {w w' : World} {event : Event} {history : List ServiceEntry}
    {stage : Nat → Stage} (h : Inv monitor w history stage) (hevent : w.event event = some w') :
    Inv monitor w' history stage := by
  have heq := (World.event_tables hevent).1
  constructor
  · exact h.toSnapshots.of_eq heq
  · intro i call id hseen
    exact (h.seen i call id hseen).of_eq heq
  · intro i id howned
    exact (h.owned i id howned).of_eq heq
  · exact h.sole
  · intro i row hrow
    exact (h.tracked i row hrow).of_eq heq

/-- At the start nobody owns or tracks a row. -/
theorem start_inv {calls : List SignCall} {cycles : Nat} {w : World} (hunique : UniqueIds w.tables) :
    Inv calls.length w [] (startStage calls [cycles]) := by
  have howned : ∀ i, (startStage calls [cycles] i).owned = none := by
    intro i
    rcases startStage_cases calls cycles i with ⟨_, call, hi⟩ | ⟨_, hi⟩ | hi <;> rw [hi] <;> rfl
  constructor
  · exact start_snapshots hunique
  · intro i call id hseen
    rcases startStage_cases calls cycles i with ⟨_, call, hi⟩ | ⟨_, hi⟩ | hi <;>
      cases hi.symm.trans hseen
  · intro i id hi
    cases (howned i).symm.trans hi
  · intro i j id hi
    cases (howned i).symm.trans hi
  · intro i row hrow
    rw [startStage_tracked] at hrow
    cases hrow

/-- From some state on, the row is part of the invariant. -/
def ConfirmedInv (monitor : Nat) (id : Uuid) (w : World) (history : List ServiceEntry)
    (stage : Nat → Stage) : Prop :=
  Inv monitor w history stage ∧ Stored id (fun row => row.status = .confirmed) w.tables

theorem keeps_confirmed {cfg : Config} {monitor : Nat} {id : Uuid} :
    Automaton.Keeps (Step cfg) (services cfg) inOrder (ConfirmedInv monitor id) := by
  intro i command choice w w' history stage stage' reply hstep hinv hguard hexec
  constructor
  · exact keeps hstep hinv.1 hguard hexec
  · exact hinv.1.confirmed_step hstep hguard hexec hinv.2

end ConfirmedRows

open ConfirmedRows in
/-- **`confirmed` is terminal** in every run of calls and one monitor, however many
    cycles it makes: a row that is confirmed in a reachable state is confirmed in every
    state reached from there. -/
theorem confirmed_terminal {cfg : Config} {calls : List SignCall} {cycles : Nat} {w : World}
    (hunique : UniqueIds w.tables) {p p' : ServicePool}
    (hreach : Reach (services cfg) inOrder (deployment cfg calls [cycles] w) p)
    (hreach' : Reach (services cfg) inOrder p p') {row : SigningRequest}
    (hrow : row ∈ p.state.tables.requests) (hconfirmed : row.status = .confirmed) :
    Stored row.id (fun row => row.status = .confirmed) p'.state.tables := by
  obtain ⟨stage, hstaged, hinv⟩ := services_invariant keeps
    (fun event w w' history stage hinv _ hevent => hinv.event hevent)
    (deployment_staged cfg calls [cycles] w) (start_inv hunique) hreach
  have hstored : Stored row.id (fun row => row.status = .confirmed) p.state.tables := by
    apply (hinv.unique.stored hrow).mono
    rintro _ rfl
    exact hconfirmed
  obtain ⟨_, _, _, hstored'⟩ := services_invariant keeps_confirmed
    (fun event w w' history stage hinv _ hevent =>
      ⟨hinv.1.event hevent, hinv.2.of_eq (World.event_tables hevent).1⟩)
    hstaged ⟨hinv, hstored⟩ hreach'
  exact hstored'

namespace ConfirmedRows

open Sample

def mined : RpcResult := .receipt ⟨"0x1".toList, 7, some 1, none, none⟩

/-- The first cycle looks for the receipt too early, the second one finds it. -/
def overtaken : List (Move Choice Event) :=
  moves 1 [run, answer .null] ++ moves 2 [run, answer mined, run, run]

/-- The first cycle goes on: the transaction is known, so it is replaced, and the
    provider does not take the replacement. -/
def overtakes : List (Move Choice Event) :=
  moves 1 [run, answer .transaction, run, run, answer (.quantity 21000),
    answer (.feeHistory [7] [[1]]), .signed "t".toList "0x2".toList, run,
    .fetched (.ok (.rpcError "nonce too low".toList)) false, run]

/-- The one row has this status. -/
def hasStatus (status : Status) (p : ServicePool) : Bool :=
  p.state.tables.requests.map (fun row => (row.id, row.status)) = [(freshId 1, status)]

theorem row_of_hasStatus {status : Status} {p : ServicePool} (h : hasStatus status p = true) :
    ∃ row ∈ p.state.tables.requests, row.id = freshId 1 ∧ row.status = status := by
  have hmap := of_decide_eq_true h
  have hmem : (freshId 1, status) ∈ p.state.tables.requests.map fun row => (row.id, row.status) := by
    rw [hmap]
    exact List.mem_singleton_self _
  obtain ⟨row, hrow, heq⟩ := List.mem_map.mp hmem
  exact ⟨row, hrow, congrArg Prod.fst heq, congrArg Prod.snd heq⟩

end ConfirmedRows

open Sample ConfirmedRows in
/-- Two cycles overlap: the second one confirms the row, and the first one fails it. -/
theorem confirmed_not_terminal :
    ∃ p p', Reach (services config) inOrder
        (deployment config [transfer "1".toList] [1, 1] world) p ∧
      Reach (services config) inOrder p p' ∧
      (∃ row ∈ p.state.tables.requests, row.id = freshId 1 ∧ row.status = .confirmed) ∧
      ∃ row ∈ p'.state.tables.requests, row.id = freshId 1 ∧ row.status = .failed := by
  obtain ⟨p, hreach, hp⟩ := Reach.exists_of_run (services config) inOrder
    (deployment config [transfer "1".toList] [1, 1] world) (submitted ++ overtaken)
    (fun p => hasStatus .confirmed p &&
      ((services config).run inOrder overtakes p).any (hasStatus .failed))
    (by decide)
  rw [Bool.and_eq_true] at hp
  obtain ⟨p', hreach', hp'⟩ := Reach.exists_of_run (services config) inOrder p overtakes
    (hasStatus .failed) hp.2
  exact ⟨p, p', hreach, hreach', row_of_hasStatus hp.1, row_of_hasStatus hp'⟩

open Sample ConfirmedRows in
/-- One monitor confirms the row in its first cycle and makes a second one. -/
theorem confirmed_terminal_polled :
    ∃ p p', Reach (services config) inOrder
        (deployment config [transfer "1".toList] [2] world) p ∧
      Reach (services config) inOrder p p' ∧ p'.threads[1]?.any Prog.isDone = true ∧
      Stored (freshId 1) (fun row => row.status = .confirmed) p'.state.tables := by
  obtain ⟨p, hreach, hp⟩ := Reach.exists_of_run (services config) inOrder
    (deployment config [transfer "1".toList] [2] world)
    (submitted ++ moves 1 [run, answer mined, run, run])
    (fun p => hasStatus .confirmed p &&
      ((services config).run inOrder (moves 1 [run]) p).any fun p' =>
        p'.threads[1]?.any Prog.isDone)
    (by decide)
  rw [Bool.and_eq_true] at hp
  obtain ⟨p', hreach', hp'⟩ := Reach.exists_of_run (services config) inOrder p (moves 1 [run])
    (fun p' => p'.threads[1]?.any Prog.isDone) hp.2
  obtain ⟨row, hrow, hid, hconfirmed⟩ := row_of_hasStatus hp.1
  have hunique : UniqueIds world.tables := List.nodup_nil
  refine ⟨p, p', hreach, hreach', hp', ?_⟩
  rw [← hid]
  exact confirmed_terminal hunique hreach hreach' hrow hconfirmed

end BrokeTurnkey
