import BrokeTurnkey.Stages

/-!
# The speed-up budget

A cycle checks the number of speed-ups of the row as it was read, and after the
replacement has been sent it writes that number plus one.  With one cycle at a time, the
stored number and the replacements that were sent agree between cycles; during one they
differ by the replacement that is sent and not yet recorded.  Two cycles that overlap
read the same number twice.
-/

namespace BrokeTurnkey

open Interaction

namespace SpeedUpBudget

/-- The provider answered with a hash. -/
def answersHash : Choice → Bool
  | .fetched (.ok (.result (.hash _))) _ => true
  | _ => false

/-- A monitor, which comes after the calls, has a transaction of the row taken. -/
def isReplacement (calls : Nat) (id : Uuid) (entry : ServiceEntry) : Bool :=
  calls ≤ entry.thread && (entry.command.submits.any fun rawTx => rawTx.origin = id) &&
    entry.choice.accepted

/-- The replacements that were broadcast for a row. -/
def replacements (calls : Nat) (history : List ServiceEntry) (id : Uuid) : Nat :=
  history.countP (isReplacement calls id)

/-- The write counts a speed-up. -/
def countsSpeedUp : Cmd → Bool
  | .sql (.requestUpdate _ fields) => fields.speedUpAttempts.isSome
  | _ => false

/-- A monitor is answered with a hash where its replacement is taken, and only there; and
    the write that counts a replacement is executed. -/
def Booked (calls : Nat) (entry : ServiceEntry) : Prop :=
  (calls ≤ entry.thread → entry.command.submits.isSome = true →
    entry.choice.accepted = answersHash entry.choice) ∧
  (countsSpeedUp entry.command = true → entry.choice.ran = true ∧ entry.command.fits = true)

instance (calls : Nat) (entry : ServiceEntry) : Decidable (Booked calls entry) :=
  inferInstanceAs (Decidable ((calls ≤ entry.thread → entry.command.submits.isSome = true →
    entry.choice.accepted = answersHash entry.choice) ∧
    (countsSpeedUp entry.command = true → entry.choice.ran = true ∧ entry.command.fits = true)))

/-- The row of a replacement that is taken and not yet recorded. -/
def due : Stage → Option Uuid
  | .monitor (.replaced row _ _) => some row.id
  | _ => none

/-- What a transition means for the books. -/
inductive Effect (cfg : Config) (calls : Nat) (entry : ServiceEntry) : Stage → Stage → Prop where
  | none {stage stage' : Stage} (hcount : ∀ id, isReplacement calls id entry = false)
      (hdue : due stage' = due stage) (hfields : countsSpeedUp entry.command = false) :
      Effect cfg calls entry stage stage'
  | takes {row : SigningRequest} {result : SignTransactionResult} {rest : List SigningRequest}
      (hcount : ∀ id, isReplacement calls id entry = decide (result.rawTx.origin = id))
      (hwrites : entry.command.writes = Option.none) :
      Effect cfg calls entry (.monitor (.replacing row result rest))
        (.monitor (.replaced row result rest))
  | records {row : SigningRequest} {result : SignTransactionResult} {rest : List SigningRequest}
      {lastSpeedUpAt broadcastedAt : Int} (hran : entry.choice.ran = true)
      (hfits : (replacedFields row result lastSpeedUpAt broadcastedAt).Fits)
      (hcommand : entry.command = .sql (.requestUpdate row.id
        (replacedFields row result lastSpeedUpAt broadcastedAt))) :
      Effect cfg calls entry (.monitor (.replaced row result rest)) (.monitor (.cycle rest))

theorem countsSpeedUp_of_query {command : Cmd} (h : command.isQuery = true) :
    countsSpeedUp command = false := by
  cases command with
  | sql statement =>
    cases statement with
    | requestUpdate => cases h
    | _ => rfl
  | _ => rfl

/-- Only a submission is a replacement. -/
theorem not_replacement {calls : Nat} {entry : ServiceEntry} (h : entry.command.submits = none)
    (id : Uuid) : isReplacement calls id entry = false := by
  simp only [isReplacement, h, Option.any_none, Bool.and_false, Bool.false_and]

theorem answersHash_of_not {reply : Except JsError HttpReply}
    (h : ∀ hash, reply ≠ .ok (.result (.hash hash))) (taken : Bool) :
    answersHash (.fetched reply taken) = false := by
  cases reply with
  | error error => rfl
  | ok response =>
    cases response with
    | result value =>
      cases value with
      | hash hash => exact absurd rfl (h hash)
      | _ => rfl
    | _ => rfl

theorem effect_of_step {cfg : Config} {calls i : Nat} {stage stage' : Stage} {command : Cmd}
    {choice : Choice} {w w' : World} {reply : Except JsError command.Reply}
    (hstep : Step cfg stage command reply stage') (hexec : exec command choice w = some (reply, w'))
    (hclient : stage.isClient = true → i < calls) (hmonitor : stage.isMonitor = true → calls ≤ i)
    (hbooked : Booked calls (entryOf i command choice reply)) :
    Effect cfg calls (entryOf i command choice reply) stage stage' := by
  cases hstep with
  | query hquery =>
    exact .none (not_replacement (Cmd.submits_of_query hquery)) rfl (countsSpeedUp_of_query hquery)
  | audit => exact .none (not_replacement rfl) rfl rfl
  | never hlocal => cases (exec_local hlocal hexec).1
  | asks => exact .none (not_replacement rfl) rfl rfl
  | syncs => exact .none (not_replacement rfl) rfl rfl
  | client h =>
    have hlt : ¬ calls ≤ i := Nat.not_le.mpr (hclient rfl)
    have hcount : ∀ id, isReplacement calls id (entryOf i command choice reply) = false := by
      intro id
      simp only [isReplacement, entryOf, hlt, decide_false, Bool.false_and]
    cases h with
    | _ => exact .none hcount rfl rfl
  | monitor h =>
    have hge : calls ≤ i := hmonitor rfl
    cases h with
    | settles hrow hfields =>
      refine .none (not_replacement rfl) rfl ?_
      cases hfields with
      | _ => rfl
    | @takes row result rest rpcUrl hash =>
      obtain ⟨taken, rfl, _⟩ := exec_fetch hexec
      have htaken : taken = true := hbooked.1 hge rfl
      apply Effect.takes _ rfl
      intro id
      simp only [isReplacement, entryOf, hge, decide_true, Cmd.submits, Option.any_some, Choice.accepted,
        htaken, Bool.true_and, Bool.and_true]
    | @notTakes row result rest rpcUrl reply hreply =>
      obtain ⟨taken, rfl, _⟩ := exec_fetch hexec
      have htaken : taken = false := (hbooked.1 hge rfl).trans (answersHash_of_not hreply taken)
      refine .none (fun id => ?_) rfl rfl
      simp only [isReplacement, entryOf, Choice.accepted, htaken, Bool.and_false]
    | records =>
      obtain ⟨hran, hfits⟩ := hbooked.2 rfl
      exact .records hran (of_decide_eq_true hfits) rfl
    | _ => exact .none (not_replacement rfl) rfl rfl

/-! ### The invariant -/

/-- What holds throughout a run with one monitor whose steps are all booked. -/
structure Inv (cfg : Config) (calls : Nat) (w : World) (history : List ServiceEntry)
    (stage : Nat → Stage) : Prop extends Snapshots calls w stage where
  /-- the row as it was read has the number that is stored -/
  tracked : ∀ i, ∀ row ∈ (stage i).tracked,
    Stored row.id (fun stored => stored.speedUpAttempts = row.speedUpAttempts) w.tables
  budget : ∀ i row result rest, stage i = .monitor (.replacing row result rest) ∨
    stage i = .monitor (.replaced row result rest) →
    result.rawTx.origin = row.id ∧ row.speedUpAttempts < cfg.maxSpeedUpAttempts
  bounded : ∀ row ∈ w.tables.requests,
    row.speedUpAttempts = 0 ∨ row.speedUpAttempts ≤ cfg.maxSpeedUpAttempts
  fresh : ∀ id, ¬ HasRow id w.tables → replacements calls history id = 0
  counted : ∀ row ∈ w.tables.requests, (replacements calls history row.id : Int) =
    row.speedUpAttempts + if due (stage calls) = some row.id then 1 else 0

theorem replacements_cons_of_not {calls : Nat} {entry : ServiceEntry} {id : Uuid}
    (h : isReplacement calls id entry = false) (history : List ServiceEntry) :
    replacements calls (entry :: history) id = replacements calls history id := by
  apply List.countP_cons_of_neg
  rw [h]
  exact Bool.false_ne_true

theorem replacements_cons_of {calls : Nat} {entry : ServiceEntry} {id : Uuid}
    (h : isReplacement calls id entry = true) (history : List ServiceEntry) :
    replacements calls (entry :: history) id = replacements calls history id + 1 :=
  List.countP_cons_of_pos h

/-- A write that does not count leaves the count. -/
theorem apply_speedUpAttempts {id : Uuid} {fields : SigningRequestUpdate}
    (h : countsSpeedUp (.sql (.requestUpdate id fields)) = false) (row : SigningRequest) :
    (fields.apply row).speedUpAttempts = row.speedUpAttempts := by
  have hnone : fields.speedUpAttempts = none := Option.not_isSome_iff_eq_none.mp fun hsome =>
    Bool.noConfusion (h.symm.trans hsome)
  simp only [SigningRequestUpdate.apply, hnone, Option.getD_none]

section Step

variable {cfg : Config} {calls i : Nat} {command : Cmd} {choice : Choice} {w w' : World}
  {history : List ServiceEntry} {stage : Nat → Stage} {stage' : Stage}
  {reply : Except JsError command.Reply}

theorem Inv.effect (hinv : Inv cfg calls w history stage)
    (hstep : Step cfg (stage i) command reply stage')
    (hexec : exec command choice w = some (reply, w'))
    (hbooked : Booked calls (entryOf i command choice reply)) :
    Effect cfg calls (entryOf i command choice reply) (stage i) stage' :=
  effect_of_step hstep hexec (hinv.clients i) (fun h => (hinv.single i h).ge) hbooked

theorem Inv.still_tracked (hinv : Inv cfg calls w history stage)
    (hexec : exec command choice w = some (reply, w'))
    (heffect : Effect cfg calls (entryOf i command choice reply) (stage i) stage') {j : Nat}
    {row : SigningRequest} (hold : row ∈ (stage j).tracked)
    (hrow : row ∈ (Function.update stage i stage' j).tracked) :
    Stored row.id (fun stored => stored.speedUpAttempts = row.speedUpAttempts) w'.tables := by
  apply stored_exec hexec (hinv.tracked j row hold)
  intro fields hcommand stored hstored
  subst hcommand
  generalize hs : stage i = s at heffect
  cases heffect with
  | none _ _ hfields => exact (apply_speedUpAttempts hfields stored).trans hstored
  | takes _ hwrites => cases hwrites
  | @records written result rest _ _ _ _ hcommand =>
    -- the written row is behind the monitor, and the row is not
    have htracked : (written :: rest) <:+ (stage i).tracked := by
      rw [hs]
      exact List.suffix_refl _
    have hi := hinv.monitor_of_tracked (htracked.subset List.mem_cons_self)
    rw [hinv.monitor_of_tracked hold, ← hi, Function.update_self] at hrow
    have hid : row.id = written.id := (Sql.requestUpdate.inj (Cmd.sql.inj hcommand)).1
    exact absurd hid (hinv.not_behind htracked row hrow)

theorem Inv.tracked_step (hinv : Inv cfg calls w history stage)
    (hstep : Step cfg (stage i) command reply stage')
    (hexec : exec command choice w = some (reply, w'))
    (heffect : Effect cfg calls (entryOf i command choice reply) (stage i) stage') {j : Nat}
    {row : SigningRequest} (hrow : row ∈ (Function.update stage i stage' j).tracked) :
    Stored row.id (fun stored => stored.speedUpAttempts = row.speedUpAttempts) w'.tables := by
  by_cases hold : row ∈ (stage j).tracked
  · exact hinv.still_tracked hexec heffect hold hrow
  · by_cases hji : j = i
    · rw [hji, Function.update_self] at hrow
      rw [hji] at hold
      rcases tracked_of_step hstep hexec with hsuffix | ⟨rfl, hperm⟩
      · exact absurd (hsuffix.subset hrow) hold
      · apply (hinv.unique.stored (List.mem_filter.mp (hperm.mem_iff.mp hrow)).1).mono
        rintro _ rfl
        rfl
    · rw [Function.update_of_ne hji] at hrow
      exact absurd hrow hold

/-- A replacement is signed for the row it replaces, within the budget. -/
theorem budget_of_step {s : Stage} (hstep : Step cfg s command reply stage')
    (hexec : exec command choice w = some (reply, w')) {row : SigningRequest}
    {result : SignTransactionResult} {rest : List SigningRequest}
    (h : stage' = .monitor (.replacing row result rest) ∨
      stage' = .monitor (.replaced row result rest)) :
    (s = .monitor (.replacing row result rest) ∨ s = .monitor (.replaced row result rest)) ∨
      result.rawTx.origin = row.id ∧ row.speedUpAttempts < cfg.maxSpeedUpAttempts := by
  cases hstep with
  | query => exact .inl h
  | audit => exact .inl h
  | never hlocal => cases (exec_local hlocal hexec).1
  | asks => rcases h with h | h <;> cases h
  | syncs => rcases h with h | h <;> cases h
  | client hstep => rcases h with h | h <;> cases h
  | monitor hstep =>
    cases hstep with
    | signs hrow hbudget _ =>
      rcases h with h | h
      · cases h
        exact .inr ⟨(exec_signTransaction hexec).1, hbudget⟩
      · cases h
    | enters => exact .inl h
    | notTakes => exact .inl h
    | takes =>
      rcases h with h | h
      · cases h
      · cases h
        exact .inl (.inl rfl)
    | _ => rcases h with h | h <;> cases h

theorem Inv.budget_step (hinv : Inv cfg calls w history stage)
    (hstep : Step cfg (stage i) command reply stage')
    (hexec : exec command choice w = some (reply, w')) {j : Nat} {row : SigningRequest}
    {result : SignTransactionResult} {rest : List SigningRequest}
    (h : Function.update stage i stage' j = .monitor (.replacing row result rest) ∨
      Function.update stage i stage' j = .monitor (.replaced row result rest)) :
    result.rawTx.origin = row.id ∧ row.speedUpAttempts < cfg.maxSpeedUpAttempts := by
  by_cases hji : j = i
  · rw [hji, Function.update_self] at h
    rcases budget_of_step hstep hexec h with hbefore | hsigned
    · exact hinv.budget i row result rest hbefore
    · exact hsigned
  · rw [Function.update_of_ne hji] at h
    exact hinv.budget j row result rest h

/-- A transition to the books happens at the monitor. -/
theorem Inv.monitor_eq (hinv : Inv cfg calls w history stage) {phase : MonitorPhase}
    (hs : stage i = .monitor phase) : i = calls := by
  apply hinv.single i
  rw [hs]
  rfl

theorem Inv.bounded_step (hinv : Inv cfg calls w history stage)
    (hexec : exec command choice w = some (reply, w'))
    (heffect : Effect cfg calls (entryOf i command choice reply) (stage i) stage') :
    ∀ row ∈ w'.tables.requests,
      row.speedUpAttempts = 0 ∨ row.speedUpAttempts ≤ cfg.maxSpeedUpAttempts := by
  apply rows_exec hexec hinv.bounded
  · intro id fields hcommand row hrow hbounded
    subst hcommand
    by_cases hid : row.id = id
    · rw [updateRow_of_id hid]
      generalize hs : stage i = s at heffect
      cases heffect with
      | none _ _ hfields =>
        rw [apply_speedUpAttempts hfields]
        exact hbounded
      | takes _ hwrites => cases hwrites
      | @records written result rest _ _ _ _ hcommand =>
        have hlt := (hinv.budget i written result rest (.inr hs)).2
        obtain ⟨_, rfl⟩ := Sql.requestUpdate.inj (Cmd.sql.inj hcommand)
        simp only [SigningRequestUpdate.apply, replacedFields, Option.getD_some]
        omega
    · rw [updateRow_of_ne hid]
      exact hbounded
  · intro data id org wallet _ _ _
    exact .inl rfl

/-- A replacement that is counted is one of a row that is there. -/
theorem Inv.fresh_step (hinv : Inv cfg calls w history stage)
    (hexec : exec command choice w = some (reply, w'))
    (heffect : Effect cfg calls (entryOf i command choice reply) (stage i) stage') {id : Uuid}
    (hnone : ¬ HasRow id w'.tables) :
    replacements calls (entryOf i command choice reply :: history) id = 0 := by
  have hbefore : ¬ HasRow id w.tables := fun h => hnone (hasRow_exec hexec h)
  have hnot : isReplacement calls id (entryOf i command choice reply) = false := by
    generalize hs : stage i = s at heffect
    cases heffect with
    | none hcount => exact hcount id
    | @takes row result rest hcount =>
      rw [hcount]
      apply decide_eq_false
      intro horigin
      rw [(hinv.budget i row result rest (.inl hs)).1] at horigin
      apply hbefore
      rw [← horigin]
      refine (hinv.tracked i row ?_).1
      rw [hs]
      exact List.mem_cons_self
    | records _ _ hcommand =>
      apply not_replacement
      rw [hcommand]
      rfl
  rw [replacements_cons_of_not hnot]
  exact hinv.fresh id hbefore

/-- The stored number and the replacements agree, up to the one that is due. -/
def Counted (calls : Nat) (history : List ServiceEntry) (due : Option Uuid)
    (row : SigningRequest) : Prop :=
  (replacements calls history row.id : Int) =
    row.speedUpAttempts + if due = some row.id then 1 else 0

theorem Inv.due_hasRow (hinv : Inv cfg calls w history stage) {j : Nat} {id : Uuid}
    (hdue : due (stage j) = some id) : HasRow id w.tables := by
  generalize hs : stage j = s at hdue
  cases s with
  | client call phase => cases hdue
  | background answer => cases hdue
  | monitor phase =>
    cases phase with
    | cycle rows => cases hdue
    | replacing row result rest => cases hdue
    | replaced row result rest =>
      cases hdue
      refine (hinv.tracked j row ?_).1
      rw [hs]
      exact List.mem_cons_self

theorem Inv.counted_none (hinv : Inv cfg calls w history stage)
    (hexec : exec command choice w = some (reply, w'))
    (hcount : ∀ id, isReplacement calls id (entryOf i command choice reply) = false)
    (hdue : due stage' = due (stage i)) (hfields : countsSpeedUp command = false) :
    ∀ row ∈ w'.tables.requests, Counted calls (entryOf i command choice reply :: history)
      (due (Function.update stage i stage' calls)) row := by
  have hsame : due (Function.update stage i stage' calls) = due (stage calls) := by
    by_cases heq : calls = i
    · rw [heq, Function.update_self, hdue]
    · rw [Function.update_of_ne heq]
  intro row hrow
  rw [Counted, replacements_cons_of_not (hcount row.id), hsame]
  rcases exec_requests hexec with heq | ⟨id, fields, hcommand, heq⟩ |
      ⟨data, id, org, wallet, hcommand, _, _, hfresh, heq⟩
  · rw [heq] at hrow
    exact hinv.counted row hrow
  · rw [heq] at hrow
    obtain ⟨old, hold, rfl⟩ := List.mem_map.mp hrow
    subst hcommand
    rw [updateRow_id]
    by_cases hid : old.id = id
    · rw [updateRow_of_id hid, apply_speedUpAttempts hfields]
      exact hinv.counted old hold
    · rw [updateRow_of_ne hid]
      exact hinv.counted old hold
  · rw [heq] at hrow
    rcases List.mem_append.mp hrow with hrow | hrow
    · exact hinv.counted row hrow
    · -- an inserted row has had no speed-up
      have hnew : ¬ HasRow id w.tables := fun ⟨other, hother, hid⟩ => hfresh other hother hid
      have hnotdue : due (stage calls) ≠ some id := fun h => hnew (hinv.due_hasRow h)
      rw [List.mem_singleton.mp hrow]
      simp only [SigningRequestRepository.newRow, hinv.fresh id hnew, hnotdue, if_false]
      rfl

theorem Inv.counted_takes (hinv : Inv cfg calls w history stage) {row : SigningRequest}
    {result : SignTransactionResult} {rest : List SigningRequest}
    (hs : stage i = .monitor (.replacing row result rest))
    (hcount : ∀ id, isReplacement calls id (entryOf i command choice reply) =
      decide (result.rawTx.origin = id)) :
    ∀ stored ∈ w.tables.requests, Counted calls (entryOf i command choice reply :: history)
      (due (Function.update stage i (.monitor (.replaced row result rest)) calls)) stored := by
  intro stored hstored
  have hi := hinv.monitor_eq hs
  subst hi
  have hcounted := hinv.counted stored hstored
  rw [(hinv.budget i row result rest (.inl hs)).1] at hcount
  rw [hs] at hcounted
  rw [Counted, Function.update_self]
  by_cases hid : row.id = stored.id
  · rw [replacements_cons_of ((hcount stored.id).trans (decide_eq_true hid))]
    simp only [due, hid, if_true]
    simp only [due, reduceCtorEq, if_false] at hcounted
    omega
  · have hne : some row.id ≠ some stored.id := fun heq => hid (Option.some.inj heq)
    rw [replacements_cons_of_not ((hcount stored.id).trans (decide_eq_false hid))]
    simp only [due, hne, if_false]
    simp only [due, reduceCtorEq, if_false] at hcounted
    exact hcounted

theorem Inv.counted_records (hinv : Inv cfg calls w history stage) {row : SigningRequest}
    {result : SignTransactionResult} {rest : List SigningRequest} {lastSpeedUpAt broadcastedAt : Int}
    (hs : stage i = .monitor (.replaced row result rest))
    (hcommand : command = .sql (.requestUpdate row.id
      (replacedFields row result lastSpeedUpAt broadcastedAt)))
    (hran : choice.ran = true)
    (hfits : (replacedFields row result lastSpeedUpAt broadcastedAt).Fits)
    (hexec : exec command choice w = some (reply, w')) :
    ∀ stored ∈ w'.tables.requests, Counted calls (entryOf i command choice reply :: history)
      (due (Function.update stage i (.monitor (.cycle rest)) calls)) stored := by
  have hi := hinv.monitor_eq hs
  subst hi hcommand
  have hnot : ∀ id, isReplacement i id (entryOf i (.sql (.requestUpdate row.id
      (replacedFields row result lastSpeedUpAt broadcastedAt))) choice reply) = false :=
    not_replacement rfl
  have htracked : Stored row.id (fun stored => stored.speedUpAttempts = row.speedUpAttempts)
      w.tables := by
    apply hinv.tracked i
    rw [hs]
    exact List.mem_cons_self
  rcases exec_update_of_fits hfits hexec with ⟨_, rfl, _⟩ | ⟨hrejected, _⟩
  · intro stored hstored
    obtain ⟨old, hold, rfl⟩ := mem_update hstored
    have hcounted := hinv.counted old hold
    rw [hs] at hcounted
    rw [Counted, replacements_cons_of_not (hnot _), Function.update_self, updateRow_id]
    by_cases hid : old.id = row.id
    · rw [updateRow_of_id hid]
      have hattempts := htracked.2 old hold hid
      simp only [due, hid, if_true] at hcounted
      simp only [SigningRequestUpdate.apply, replacedFields, Option.getD_some, due, reduceCtorEq,
        if_false, hid]
      omega
    · have hne : some row.id ≠ some old.id := fun heq => hid (Option.some.inj heq).symm
      rw [updateRow_of_ne hid]
      simp only [due, hne, if_false] at hcounted
      simp only [due, reduceCtorEq, if_false]
      exact hcounted
  · cases hrejected.symm.trans hran

end Step

/-- The invariant of the runs whose steps are booked. -/
def BookedInv (cfg : Config) (calls : Nat) (w : World) (history : List ServiceEntry)
    (stage : Nat → Stage) : Prop :=
  (∀ entry ∈ history, Booked calls entry) → Inv cfg calls w history stage

theorem keeps {cfg : Config} {calls : Nat} :
    Automaton.Keeps (Step cfg) (services cfg) .any (BookedInv cfg calls) := by
  intro i command choice w w' history stage stage' reply hstep hinv _ hexec hbooked
  have hinv := hinv fun entry hentry => hbooked entry (List.mem_cons_of_mem _ hentry)
  have heffect := hinv.effect hstep hexec (hbooked _ List.mem_cons_self)
  constructor
  · exact hinv.toSnapshots.step hstep hexec
  · intro j row hrow
    exact hinv.tracked_step hstep hexec heffect hrow
  · intro j row result rest h
    exact hinv.budget_step hstep hexec h
  · exact hinv.bounded_step hexec heffect
  · intro id hnone
    exact hinv.fresh_step hexec heffect hnone
  · generalize hs : stage i = s at heffect
    cases heffect with
    | none hcount hdue hfields => exact hinv.counted_none hexec hcount (hs ▸ hdue) hfields
    | takes hcount hwrites =>
      have heq : w'.tables.requests = w.tables.requests := by
        apply (exec_agree hexec).requests
        rw [show command.writes = none from hwrites]
        exact nofun
      rw [heq]
      exact hinv.counted_takes hs hcount
    | records hran hfits hcommand => exact hinv.counted_records hs hcommand hran hfits hexec

theorem start_inv {cfg : Config} {calls : List SignCall} {cycles : Nat} {w : World}
    (hempty : w.tables.requests = []) :
    Inv cfg calls.length w [] (startStage calls [cycles]) := by
  constructor
  · apply start_snapshots
    rw [UniqueIds, hempty]
    exact List.nodup_nil
  · intro i row hrow
    rw [startStage_tracked] at hrow
    cases hrow
  · intro i row result rest h
    rcases startStage_cases calls cycles i with ⟨_, call, hi⟩ | ⟨_, hi⟩ | hi <;>
      rw [hi] at h <;> rcases h with h | h <;> cases h
  · rw [hempty]
    intro row hrow
    cases hrow
  · intro id _
    rfl
  · rw [hempty]
    intro row hrow
    cases hrow

theorem Inv.event {cfg : Config} {calls : Nat} {w w' : World} {event : Event}
    {history : List ServiceEntry} {stage : Nat → Stage} (h : Inv cfg calls w history stage)
    (hevent : w.event event = some w') : Inv cfg calls w' history stage := by
  have heq := (World.event_tables hevent).1
  constructor
  · exact h.toSnapshots.of_eq heq
  · intro i row hrow
    exact (h.tracked i row hrow).of_eq heq
  · exact h.budget
  · rw [heq]
    exact h.bounded
  · intro id hnone
    exact h.fresh id fun hrow => hnone (hrow.of_eq heq)
  · rw [heq]
    exact h.counted

/-- A replacement that is due was within the budget before it. -/
theorem Inv.due_within {cfg : Config} {calls : Nat} {w : World} {history : List ServiceEntry}
    {stage : Nat → Stage} (hinv : Inv cfg calls w history stage) {stored : SigningRequest}
    (hstored : stored ∈ w.tables.requests) (hdue : due (stage calls) = some stored.id) :
    stored.speedUpAttempts < cfg.maxSpeedUpAttempts := by
  generalize hs : stage calls = s at hdue
  cases s with
  | client call phase => cases hdue
  | background answer => cases hdue
  | monitor phase =>
    cases phase with
    | cycle rows => cases hdue
    | replacing row result rest => cases hdue
    | replaced row result rest =>
      have htracked : row ∈ (stage calls).tracked := by
        rw [hs]
        exact List.mem_cons_self
      have hattempts := (hinv.tracked calls row htracked).2 stored hstored
        (Option.some.inj hdue).symm
      rw [hattempts]
      exact (hinv.budget calls row result rest (.inr hs)).2

/-- Within the budget, if there was a replacement at all. -/
theorem Inv.within {cfg : Config} {calls : Nat} {w : World} {history : List ServiceEntry}
    {stage : Nat → Stage} (hinv : Inv cfg calls w history stage) (id : Uuid) :
    replacements calls history id = 0 ∨
      (replacements calls history id : Int) ≤ cfg.maxSpeedUpAttempts := by
  by_cases hrow : HasRow id w.tables
  · obtain ⟨row, hmem, rfl⟩ := hrow
    have hcounted := hinv.counted row hmem
    by_cases hdue : due (stage calls) = some row.id
    · have hlt := hinv.due_within hmem hdue
      rw [if_pos hdue] at hcounted
      exact .inr (by omega)
    · have hbounded := hinv.bounded row hmem
      rw [if_neg hdue] at hcounted
      omega
  · exact .inl (hinv.fresh id hrow)

/-- Between two cycles no replacement is due. -/
theorem due_of_monitor {cfg : Config} (cycles : Nat) : ∀ {stage : Stage},
    Follows (Step cfg) (fun stage _ => stage.isRest = true) stage (monitor cfg cycles) →
    due stage = none := by
  induction cycles with
  | zero =>
    intro stage h
    cases stage with
    | client call phase => rfl
    | background answer => rfl
    | monitor phase =>
      cases phase with
      | cycle rows => rfl
      | replacing row result rest => rfl
      | replaced row result rest => cases h
  | succ cycles ih =>
    intro stage h
    -- the next cycle may find nothing to do
    obtain ⟨stage', hstep, hnext⟩ := h (.ok [])
    cases hstep with
    | query => exact ih hnext
    | client h => rfl
    | monitor h =>
      cases h with
      | snapshot => rfl

end SpeedUpBudget

open SpeedUpBudget in
/-- **The budget is kept** in every run of calls and one monitor whose steps are booked,
    and whenever a cycle is complete the row has the number of its replacements. -/
theorem speedUp_budget {cfg : Config} {calls : List SignCall} {cycles : Nat} {w : World}
    (hempty : w.tables.requests = []) {p : ServicePool}
    (hreach : Reach (services cfg) .any (deployment cfg calls [cycles] w) p)
    (hbooked : ∀ entry ∈ p.history, Booked calls.length entry) :
    (∀ id, replacements calls.length p.history id = 0 ∨
      (replacements calls.length p.history id : Int) ≤ cfg.maxSpeedUpAttempts) ∧
    ∀ remaining, p.threads[calls.length]? = some (monitor cfg remaining) →
      ∀ row ∈ p.state.tables.requests,
        row.speedUpAttempts = replacements calls.length p.history row.id := by
  have hstart : BookedInv cfg calls.length w [] (startStage calls [cycles]) :=
    fun _ => start_inv hempty
  obtain ⟨stage, hstaged, hinv⟩ := services_invariant keeps
    (fun event w w' history stage hinv _ hevent hbooked => (hinv hbooked).event hevent)
    (deployment_staged cfg calls [cycles] w) hstart hreach
  have hinv := hinv hbooked
  refine ⟨hinv.within, fun remaining hthread row hrow => ?_⟩
  have hdue := due_of_monitor remaining (hstaged.follows _ _ hthread)
  have hcounted := hinv.counted row hrow
  rw [hdue, if_neg (by simp)] at hcounted
  omega

namespace SpeedUpBudget

open Sample

/-- One replacement is allowed. -/
def once : Config := { config with maxSpeedUpAttempts := 1 }

/-- Two cycles read the row before either of them replaces the transaction. -/
def overlapping : List (Move Choice Event) :=
  submitted ++ moves 1 [run] ++ moves 2 [run] ++ moves 1 (replaces "t" "0x2") ++
    moves 2 (replaces "u" "0x3")

/-- A cycle that replaces the transaction, and one that finds the budget spent. -/
def successive : List (Move Choice Event) :=
  submitted ++ moves 1 (run :: replaces "t" "0x2") ++ .env (.tick 2000) ::
    moves 1 [run, answer .null, run, answer .transaction, run]

/-- What the row says, and the replacements there were. -/
def books (calls : Nat) (p : ServicePool) : List (Status × Int × Nat) :=
  p.state.tables.requests.map fun row =>
    (row.status, row.speedUpAttempts, replacements calls p.history row.id)

end SpeedUpBudget

open Sample SpeedUpBudget in
/-- Two cycles overlap: both have returned, the row says one speed-up, the budget is one,
    and there were two replacements. -/
theorem speedUp_budget_exceeded :
    ∃ p, Reach (services once) .any (deployment once [transfer "1".toList] [1, 1] world) p ∧
      (∀ entry ∈ p.history, Booked 1 entry) ∧
      p.threads[1]?.any Prog.isDone = true ∧ p.threads[2]?.any Prog.isDone = true ∧
      books 1 p = [(.broadcasted, 1, 2)] := by
  obtain ⟨p, hreach, hp⟩ := Reach.exists_of_run (services once) .any
    (deployment once [transfer "1".toList] [1, 1] world) overlapping
    (fun p => decide ((∀ entry ∈ p.history, Booked 1 entry) ∧
      p.threads[1]?.any Prog.isDone = true ∧ p.threads[2]?.any Prog.isDone = true ∧
      books 1 p = [(.broadcasted, 1, 2)]))
    (by decide)
  exact ⟨p, hreach, of_decide_eq_true hp⟩

open Sample SpeedUpBudget in
/-- One cycle after the other: the second one finds the budget spent. -/
theorem speedUp_budget_spent :
    ∃ p, Reach (services once) .any (deployment once [transfer "1".toList] [2] world) p ∧
      books 1 p = [(.failed, 1, 1)] ∧
      ∀ id, replacements 1 p.history id = 0 ∨
        (replacements 1 p.history id : Int) ≤ once.maxSpeedUpAttempts := by
  obtain ⟨p, hreach, hp⟩ := Reach.exists_of_run (services once) .any
    (deployment once [transfer "1".toList] [2] world) successive
    (fun p => decide ((∀ entry ∈ p.history, Booked 1 entry) ∧ books 1 p = [(.failed, 1, 1)]))
    (by decide)
  obtain ⟨hbooked, hbooks⟩ := of_decide_eq_true hp
  exact ⟨p, hreach, hbooks, (speedUp_budget rfl hreach hbooked).1⟩

end BrokeTurnkey
