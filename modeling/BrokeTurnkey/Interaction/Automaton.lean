import BrokeTurnkey.Interaction.Pool

/-!
# Programs that follow an automaton

An automaton says, stage by stage, which commands a thread may issue and to which
stage each reply leads.  A program that follows it is abstracted to its stages, and
an invariant over states and stages that every transition keeps is kept by every
interleaving of such programs.  What a protocol does is then argued once for each
transition, and the program text is walked through once for all invariants.
-/

namespace BrokeTurnkey.Interaction

variable {C : Type} {R : C → Type} {ε α β γ S σ O E : Type}

/-- The transitions between the stages `S` of a thread. -/
abbrev Automaton (C : Type) (R : C → Type) (ε S : Type) :=
  S → (command : C) → Except ε (R command) → S → Prop

/-- From a stage on, every reply to every command leads to a stage, and the outcome
    satisfies `Q` at the last one. -/
def Follows (T : Automaton C R ε S) {β : Type} (Q : S → Except ε β → Prop) :
    S → Prog C R ε β → Prop
  | s, .ret value => Q s (.ok value)
  | s, .throw error => Q s (.error error)
  | s, .call command next => ∀ reply, ∃ s', T s command reply s' ∧ Follows T Q s' (next reply)

section Rules

variable {T : Automaton C R ε S}

theorem Follows.mono {P Q : S → Except ε β → Prop} (himp : ∀ s outcome, P s outcome → Q s outcome)
    {p : Prog C R ε β} : ∀ {s : S}, Follows T P s p → Follows T Q s p := by
  induction p with
  | ret value => intro s h; exact himp s _ h
  | throw error => intro s h; exact himp s _ h
  | call command next ih =>
    intro s h reply
    obtain ⟨s', hstep, hnext⟩ := h reply
    exact ⟨s', hstep, ih reply hnext⟩

theorem Follows.andThen {P : S → Except ε β → Prop} {Q : S → Except ε γ → Prop}
    {f : Except ε β → Prog C R ε γ} (hf : ∀ s outcome, P s outcome → Follows T Q s (f outcome))
    {p : Prog C R ε β} : ∀ {s : S}, Follows T P s p → Follows T Q s (p.andThen f) := by
  induction p with
  | ret value => intro s h; exact hf s _ h
  | throw error => intro s h; exact hf s _ h
  | call command next ih =>
    intro s h reply
    obtain ⟨s', hstep, hnext⟩ := h reply
    exact ⟨s', hstep, ih reply hnext⟩

theorem Follows.bind {P : S → Except ε β → Prop} {Q : S → Except ε γ → Prop}
    {p : Prog C R ε β} {f : β → Prog C R ε γ} {s : S} (hp : Follows T P s p)
    (hok : ∀ s' value, P s' (.ok value) → Follows T Q s' (f value))
    (herr : ∀ s' error, P s' (.error error) → Q s' (.error error)) :
    Follows T Q s (p >>= f) := by
  apply Follows.andThen _ hp
  intro s' outcome h
  cases outcome with
  | ok value => exact hok s' value h
  | error error => exact herr s' error h

theorem Follows.tryCatch {P Q : S → Except ε β → Prop} {p : Prog C R ε β}
    {handler : ε → Prog C R ε β} {s : S} (hp : Follows T P s p)
    (hok : ∀ s' value, P s' (.ok value) → Q s' (.ok value))
    (herr : ∀ s' error, P s' (.error error) → Follows T Q s' (handler error)) :
    Follows T Q s (MonadExcept.tryCatch p handler) := by
  apply Follows.andThen _ hp
  intro s' outcome h
  cases outcome with
  | ok value => exact hok s' value h
  | error error => exact herr s' error h

theorem Follows.perform {command : C} {Q : S → Except ε (R command) → Prop} {s : S}
    (h : ∀ reply, ∃ s', T s command reply s' ∧ Q s' reply) :
    Follows T Q s (Prog.perform command) := by
  intro reply
  obtain ⟨s', hstep, hpost⟩ := h reply
  refine ⟨s', hstep, ?_⟩
  cases reply with
  | ok value => exact hpost
  | error error => exact hpost

/-- A program whose commands leave the stage as it is. -/
theorem Follows.stay {p : Prog C R ε β} {s : S}
    (h : p.All fun command => ∀ reply, T s command reply s) :
    Follows T (fun s' _ => s' = s) s p := by
  induction p with
  | ret value => rfl
  | throw error => rfl
  | call command next ih =>
    intro reply
    exact ⟨s, h.1 reply, ih reply (h.2 reply)⟩

/-- Continue after a program that leaves the stage as it is. -/
theorem Follows.stay_bind {Q : S → Except ε γ → Prop} {p : Prog C R ε β}
    {f : β → Prog C R ε γ} {s : S} (hp : p.All fun command => ∀ reply, T s command reply s)
    (hok : ∀ value, Follows T Q s (f value)) (herr : ∀ error, Q s (.error error)) :
    Follows T Q s (p >>= f) := by
  apply Follows.bind (Follows.stay hp)
  · intro s' value hs
    rw [hs]
    exact hok value
  · intro s' error hs
    rw [hs]
    exact herr error

/-! ### Outcomes that tell the stage -/

/-- A value leads to the stage it says, an error to one of the failed stages. -/
def Leads (next : β → S) (Failed : S → Prop) : S → Except ε β → Prop
  | s, .ok value => s = next value
  | s, .error _ => Failed s

/-- A value leads to one stage, an error to another. -/
abbrev LeadsOr (next : β → S) (failed : S) : S → Except ε β → Prop :=
  Leads next (· = failed)

theorem Follows.perform_leads {command : C} {s : S} {n : R command → S} {F : S → Prop}
    (hok : ∀ value, T s command (.ok value) (n value))
    (herr : ∀ error, ∃ s', T s command (.error error) s' ∧ F s') :
    Follows T (Leads n F) s (Prog.perform command) := by
  apply Follows.perform
  intro reply
  cases reply with
  | ok value => exact ⟨n value, hok value, rfl⟩
  | error error => exact herr error

theorem Follows.perform_leadsOr {command : C} {s failed : S} {n : R command → S}
    (hok : ∀ value, T s command (.ok value) (n value))
    (herr : ∀ error, T s command (.error error) failed) :
    Follows T (LeadsOr n failed) s (Prog.perform command) := by
  apply Follows.perform_leads hok
  intro error
  exact ⟨failed, herr error, rfl⟩

/-- Continue from the stage a value leads to. -/
theorem Follows.leads_bind {n : β → S} {F : S → Prop} {Q : S → Except ε γ → Prop}
    {p : Prog C R ε β} {f : β → Prog C R ε γ} {s : S} (hp : Follows T (Leads n F) s p)
    (hok : ∀ value, Follows T Q (n value) (f value))
    (herr : ∀ s' error, F s' → Q s' (.error error)) :
    Follows T Q s (p >>= f) := by
  apply Follows.bind hp
  · intro s' value hs
    rw [hs]
    exact hok value
  · intro s' error hs
    exact herr s' error hs

/-- The same where an error leads to one stage. -/
theorem Follows.leadsOr_bind {n : β → S} {failed : S} {Q : S → Except ε γ → Prop}
    {p : Prog C R ε β} {f : β → Prog C R ε γ} {s : S} (hp : Follows T (LeadsOr n failed) s p)
    (hok : ∀ value, Follows T Q (n value) (f value)) (herr : ∀ error, Q failed (.error error)) :
    Follows T Q s (p >>= f) := by
  apply Follows.leads_bind hp hok
  intro s' error hs
  rw [hs]
  exact herr error

theorem Follows.leadsOr_tryCatch {n : β → S} {failed : S} {Q : S → Except ε β → Prop}
    {p : Prog C R ε β} {handler : ε → Prog C R ε β} {s : S}
    (hp : Follows T (LeadsOr n failed) s p) (hok : ∀ value, Q (n value) (.ok value))
    (herr : ∀ error, Follows T Q failed (handler error)) :
    Follows T Q s (MonadExcept.tryCatch p handler) := by
  apply Follows.tryCatch hp
  · intro s' value hs
    rw [hs]
    exact hok value
  · intro s' error hs
    rw [hs]
    exact herr error

end Rules

/-! ### Invariants over stages -/

/-- Every transition keeps the invariant. -/
def Automaton.Keeps (T : Automaton C R ε S) (sys : System C R ε α σ O E) (guard : Guard C O E σ)
    (Inv : σ → List (Entry C O) → (Nat → S) → Prop) : Prop :=
  ∀ ⦃i : Nat⦄ ⦃command : C⦄ ⦃choice : O⦄ ⦃s s' : σ⦄ ⦃history : List (Entry C O)⦄
    ⦃stage : Nat → S⦄ ⦃stage' : S⦄ ⦃reply : Except ε (R command)⦄,
    T (stage i) command reply stage' → Inv s history stage → guard.command command choice s →
    sys.exec command choice s = some (reply, s') →
    Inv s' (entryOf i command choice reply :: history) (Function.update stage i stage')

/-- A pool whose threads all follow the automaton, each from its stage. -/
structure Staged (T : Automaton C R ε S) (Q : S → Except ε α → Prop) (idle : S)
    (p : Pool C R ε α σ O) (stage : Nat → S) : Prop where
  follows : ∀ i thread, p.threads[i]? = some thread → Follows T Q (stage i) thread
  idle : ∀ i, p.threads.length ≤ i → stage i = idle

section Staged

variable {T : Automaton C R ε S} {sys : System C R ε α σ O E} {guard : Guard C O E σ}
  {Inv : σ → List (Entry C O) → (Nat → S) → Prop} {Q : S → Except ε α → Prop} {idle : S}
  {stage : Nat → S} {p : Pool C R ε α σ O}

/-- A thread that has returned satisfies `Q` at its stage. -/
theorem Staged.returned (h : Staged T Q idle p stage) {i : Nat} {value : α}
    (hthread : p.threads[i]? = some (.ret value)) : Q (stage i) (.ok value) :=
  h.follows i _ hthread

theorem Staged.thrown (h : Staged T Q idle p stage) {i : Nat} {error : ε}
    (hthread : p.threads[i]? = some (.throw error)) : Q (stage i) (.error error) :=
  h.follows i _ hthread

/-- The thread that moves makes a transition; the threads it starts are idle. -/
theorem Staged.thread_step (h : Staged T Q idle p stage)
    (hspawn : ∀ command thread, thread ∈ sys.spawns command → Follows T Q idle thread)
    {i : Nat} {command : C} {next : Except ε (R command) → Prog C R ε α}
    (hthread : p.threads[i]? = some (.call command next)) (reply : Except ε (R command)) (s' : σ)
    (history : List (Entry C O)) :
    ∃ stage', T (stage i) command reply stage' ∧
      Staged T Q idle
        { state := s', threads := p.threads.set i (next reply) ++ sys.spawns command,
          history := history } (Function.update stage i stage') := by
  have hlt : i < p.threads.length := (List.getElem?_eq_some_iff.mp hthread).1
  obtain ⟨stage', hstep, hnext⟩ := h.follows i _ hthread reply
  obtain ⟨hfollows, hidle⟩ := labels_move h.follows h.idle hlt hnext (hspawn command)
  exact ⟨stage', hstep, hfollows, hidle⟩

/-- A property of the pool and of the stages of its threads that every move keeps. -/
theorem Reach.staged_pool {J : Pool C R ε α σ O → (Nat → S) → Prop} {start : Pool C R ε α σ O}
    (hkeeps : ∀ p p' stage i command next choice reply stage', Reach sys guard start p →
      J p stage → p.threads[i]? = some (.call command next) →
      guard.Admits p (.thread i choice) → sys.step p (.thread i choice) = some p' →
      sys.exec command choice p.state = some (reply, p'.state) →
      p'.history = entryOf i command choice reply :: p.history →
      T (stage i) command reply stage' → J p' (Function.update stage i stage'))
    (hstart : Staged T Q idle start stage) (hinv : J start stage)
    (hspawn : ∀ command thread, thread ∈ sys.spawns command → Follows T Q idle thread)
    (henv : ∀ p p' stage event, Reach sys guard start p → J p stage →
      guard.Admits p (.env event) → sys.step p (.env event) = some p' →
      sys.env event p.state = some p'.state → p'.history = p.history → J p' stage)
    (hreach : Reach sys guard start p) : ∃ stage', Staged T Q idle p stage' ∧ J p stage' := by
  induction hreach with
  | refl => exact ⟨stage, hstart, hinv⟩
  | @move p p' m hp hadm hstep ih =>
    obtain ⟨stage', hstaged, hinv'⟩ := ih
    cases m with
    | thread i choice =>
      have hmoved := hstep
      simp only [System.step] at hmoved
      split at hmoved
      · rename_i command next hthread
        rw [Option.map_eq_some_iff] at hmoved
        obtain ⟨⟨reply, s'⟩, hexec, rfl⟩ := hmoved
        obtain ⟨next', htransition, hstaged'⟩ := hstaged.thread_step hspawn hthread reply s'
          (entryOf i command choice reply :: p.history)
        exact ⟨_, hstaged', hkeeps p _ stage' i command next choice reply next' hp hinv' hthread
          hadm hstep hexec rfl htransition⟩
      · cases hmoved
    | env event =>
      have hmoved := hstep
      simp only [System.step] at hmoved
      rw [Option.map_eq_some_iff] at hmoved
      obtain ⟨s', hexec, rfl⟩ := hmoved
      exact ⟨stage', ⟨hstaged.follows, hstaged.idle⟩,
        henv p _ stage' event hp hinv' hadm hstep hexec rfl⟩

/-- **Threads that follow an automaton whose transitions keep the invariant keep it in
    every reachable pool**, and follow it from there. -/
theorem Reach.staged (hkeeps : T.Keeps sys guard Inv) {start : Pool C R ε α σ O}
    (hstart : Staged T Q idle start stage) (hinv : Inv start.state start.history stage)
    (hspawn : ∀ command thread, thread ∈ sys.spawns command → Follows T Q idle thread)
    (henv : ∀ event s s' history stage, Inv s history stage → guard.event event s →
      sys.env event s = some s' → Inv s' history stage)
    (hreach : Reach sys guard start p) :
    ∃ stage', Staged T Q idle p stage' ∧ Inv p.state p.history stage' := by
  apply Reach.staged_pool (J := fun p stage => Inv p.state p.history stage) _ hstart hinv hspawn _
    hreach
  · intro p p' stage i command next choice reply stage' _ hinv hthread hadm _ hexec hhistory hstep
    rw [hhistory]
    exact hkeeps hstep hinv (hadm command next hthread) hexec
  · intro p p' stage event _ hinv hadm _ hexec hhistory
    rw [hhistory]
    exact henv event _ _ _ _ hinv hadm hexec

end Staged

/-! ### Runs under a condition on the whole pool

What a guard cannot say, because it depends on how far the other threads are, is a
condition on the pool a move is made in. -/

/-- The pools a run leads to whose every move the guard admits and the condition allows. -/
inductive ReachWithin (sys : System C R ε α σ O E) (guard : Guard C O E σ)
    (Allowed : Pool C R ε α σ O → Move O E → Prop) (start : Pool C R ε α σ O) :
    Pool C R ε α σ O → Prop where
  | refl : ReachWithin sys guard Allowed start start
  | move {p p' : Pool C R ε α σ O} {m : Move O E} :
      ReachWithin sys guard Allowed start p → guard.Admits p m → Allowed p m →
      sys.step p m = some p' → ReachWithin sys guard Allowed start p'

/-- Make a list of moves in order, each admitted by the guard and passing the check. -/
def System.runWithin (sys : System C R ε α σ O E) (guard : Guard C O E σ) [guard.Decides]
    (check : Pool C R ε α σ O → Move O E → Bool) :
    List (Move O E) → Pool C R ε α σ O → Option (Pool C R ε α σ O)
  | [], p => some p
  | move :: moves, p =>
    if guard.check p move && check p move then
      (sys.step p move).bind (runWithin sys guard check moves)
    else none

theorem ReachWithin.of_run {sys : System C R ε α σ O E} {guard : Guard C O E σ} [guard.Decides]
    {Allowed : Pool C R ε α σ O → Move O E → Prop} {check : Pool C R ε α σ O → Move O E → Bool}
    (hcheck : ∀ p m, check p m = true → Allowed p m) {start : Pool C R ε α σ O}
    (moves : List (Move O E)) : ∀ {p p' : Pool C R ε α σ O}, ReachWithin sys guard Allowed start p →
      sys.runWithin guard check moves p = some p' → ReachWithin sys guard Allowed start p' := by
  induction moves with
  | nil =>
    intro p p' hp hrun
    rw [System.runWithin, Option.some.injEq] at hrun
    exact hrun ▸ hp
  | cons m moves ih =>
    intro p p' hp hrun
    rw [System.runWithin] at hrun
    split at hrun
    · rename_i hpassed
      rw [Bool.and_eq_true] at hpassed
      rw [Option.bind_eq_some_iff] at hrun
      obtain ⟨q, hstep, hrest⟩ := hrun
      exact ih (hp.move (Guard.admits_of_check hpassed.1) (hcheck p m hpassed.2) hstep) hrest
    · cases hrun

/-- A list of moves that pass shows that a pool with a decidable property is reachable. -/
theorem ReachWithin.exists_of_run (sys : System C R ε α σ O E) (guard : Guard C O E σ)
    [guard.Decides] {Allowed : Pool C R ε α σ O → Move O E → Prop}
    {check : Pool C R ε α σ O → Move O E → Bool}
    (hcheck : ∀ p m, check p m = true → Allowed p m) (start : Pool C R ε α σ O)
    (moves : List (Move O E)) (P : Pool C R ε α σ O → Bool)
    (hrun : (sys.runWithin guard check moves start).any P = true) :
    ∃ p, ReachWithin sys guard Allowed start p ∧ P p = true := by
  rw [Option.any_eq_true] at hrun
  obtain ⟨p, hp, hP⟩ := hrun
  exact ⟨p, .of_run hcheck moves .refl hp, hP⟩

/-- Some path of the program issues a `target` command with no `stop` command before. -/
def Prog.MayIssue (target stop : C → Bool) : Prog C R ε α → Prop
  | .ret _ => False
  | .throw _ => False
  | .call command next =>
    target command = true ∨
      stop command = false ∧ ∃ reply, (next reply).MayIssue target stop

section ReachWithin

variable {T : Automaton C R ε S} {sys : System C R ε α σ O E} {guard : Guard C O E σ}
  {Allowed : Pool C R ε α σ O → Move O E → Prop} {Inv : σ → (Nat → S) → Prop}
  {Q : S → Except ε α → Prop} {idle : S} {stage : Nat → S} {start p : Pool C R ε α σ O}

/-- The rule of `Reach.staged` where the argument for a transition may look at the pool. -/
theorem ReachWithin.staged
    (hkeeps : ∀ p stage i command next choice reply s' stage', Staged T Q idle p stage →
      Inv p.state stage → p.threads[i]? = some (.call command next) →
      guard.command command choice p.state → Allowed p (.thread i choice) →
      sys.exec command choice p.state = some (reply, s') → T (stage i) command reply stage' →
      Follows T Q stage' (next reply) → Inv s' (Function.update stage i stage'))
    (hstart : Staged T Q idle start stage) (hinv : Inv start.state stage)
    (hspawn : ∀ command thread, thread ∈ sys.spawns command → Follows T Q idle thread)
    (henv : ∀ event s s' stage, Inv s stage → guard.event event s → sys.env event s = some s' →
      Inv s' stage)
    (hreach : ReachWithin sys guard Allowed start p) :
    ∃ stage', Staged T Q idle p stage' ∧ Inv p.state stage' := by
  induction hreach with
  | refl => exact ⟨stage, hstart, hinv⟩
  | @move p p' m _ hadm hallowed hstep ih =>
    obtain ⟨stage', hp, hinv'⟩ := ih
    cases m with
    | thread i choice =>
      simp only [System.step] at hstep
      split at hstep
      · rename_i command next hthread
        rw [Option.map_eq_some_iff] at hstep
        obtain ⟨⟨reply, s'⟩, hexec, rfl⟩ := hstep
        obtain ⟨next', htransition, hp'⟩ := hp.thread_step hspawn hthread reply s'
          (entryOf i command choice reply :: p.history)
        refine ⟨_, hp', hkeeps p stage' i command next choice reply s' next' hp hinv' hthread
          (hadm command next hthread) hallowed hexec htransition ?_⟩
        have hlt : i < p.threads.length := (List.getElem?_eq_some_iff.mp hthread).1
        have hmoved := hp'.follows i (next reply) (by
          rw [List.getElem?_append_left (by simpa using hlt), List.getElem?_set_self hlt])
        rwa [Function.update_self] at hmoved
      · cases hstep
    | env event =>
      simp only [System.step] at hstep
      rw [Option.map_eq_some_iff] at hstep
      obtain ⟨s', hexec, rfl⟩ := hstep
      exact ⟨stage', ⟨hp.follows, hp.idle⟩, henv event _ _ _ hinv' hadm hexec⟩

end ReachWithin

end BrokeTurnkey.Interaction
