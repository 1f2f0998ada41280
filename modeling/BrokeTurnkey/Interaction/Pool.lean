import BrokeTurnkey.Interaction.Prog

/-!
# Thread pools over shared state

Any number of interaction programs run against one shared state.  One move lets
one thread issue its next command, which the state answers atomically, or lets
the environment change the state.  The answer depends on a *choice* the
environment makes, so a finite list of moves describes one interleaving with
everything that was not determined by the programs.

A `Guard` restricts the moves of a run by a condition on the state before the
move.  Every answered command is entered into the history, latest first.

The second half is a proof method.  Each thread carries a ghost value, and an
invariant speaks about the state, the history and the ghosts of all threads.
`Spec` says that one command keeps the invariant, `Safe` says so of a whole
program, and `Reach.invariant` concludes it of every reachable pool.  Programs
are proved safe one at a time, so the interleaving is dealt with only here.
-/

namespace BrokeTurnkey.Interaction

/-! ### Pools and their moves -/

/-- How commands act on the shared state.  `exec` answers a command under a
    choice, `none` meaning that the choice does not fit the command. `spawns`
    are the threads a command starts, and `env` is what else may happen. -/
structure System (C : Type) (R : C → Type) (ε α σ O E : Type) where
  exec : (command : C) → O → σ → Option (Except ε (R command) × σ)
  spawns : C → List (Prog C R ε α)
  env : E → σ → Option σ

/-- One answered command. -/
structure Entry (C O : Type) where
  thread : Nat
  command : C
  choice : O
  answered : Bool

structure Pool (C : Type) (R : C → Type) (ε α σ O : Type) where
  state : σ
  threads : List (Prog C R ε α)
  history : List (Entry C O)

inductive Move (O E : Type) where
  | thread (i : Nat) (choice : O)
  | env (event : E)

/-- A condition on the moves of a run. -/
structure Guard (C O E σ : Type) where
  command : C → O → σ → Prop
  event : E → σ → Prop

/-- The guard that admits every move. -/
def Guard.any {C O E σ : Type} : Guard C O E σ := ⟨fun _ _ _ => True, fun _ _ => True⟩

variable {C : Type} {R : C → Type} {ε α σ O E : Type}

def entryOf (i : Nat) (command : C) (choice : O) (reply : Except ε (R command)) : Entry C O :=
  ⟨i, command, choice, reply.isOk⟩

namespace System

variable (sys : System C R ε α σ O E)

def step (p : Pool C R ε α σ O) : Move O E → Option (Pool C R ε α σ O)
  | .thread i choice =>
    match p.threads[i]? with
    | some (.call command next) =>
      (sys.exec command choice p.state).map fun answer =>
        { state := answer.2
          threads := p.threads.set i (next answer.1) ++ sys.spawns command
          history := entryOf i command choice answer.1 :: p.history }
    | _ => none
  | .env event => (sys.env event p.state).map fun state => { p with state := state }

end System

/-- The guard lets the pool make this move. -/
def Guard.Admits (guard : Guard C O E σ) (p : Pool C R ε α σ O) : Move O E → Prop
  | .thread i choice =>
    ∀ command next, p.threads[i]? = some (.call command next) → guard.command command choice p.state
  | .env event => guard.event event p.state

/-- The pools some run of admitted moves leads to. -/
inductive Reach (sys : System C R ε α σ O E) (guard : Guard C O E σ)
    (start : Pool C R ε α σ O) : Pool C R ε α σ O → Prop where
  | refl : Reach sys guard start start
  | move {p p' : Pool C R ε α σ O} {m : Move O E} :
      Reach sys guard start p → guard.Admits p m → sys.step p m = some p' →
      Reach sys guard start p'

theorem Reach.trans {sys : System C R ε α σ O E} {guard : Guard C O E σ}
    {p p' p'' : Pool C R ε α σ O} (h : Reach sys guard p p') (h' : Reach sys guard p' p'') :
    Reach sys guard p p'' := by
  induction h' with
  | refl => exact h
  | move _ hadm hstep ih => exact ih.move hadm hstep

/-- A guard that admits more leads at least as far. -/
theorem Reach.mono {sys : System C R ε α σ O E} {guard guard' : Guard C O E σ}
    (hcommand : ∀ command choice s, guard.command command choice s →
      guard'.command command choice s)
    (hevent : ∀ event s, guard.event event s → guard'.event event s)
    {start p : Pool C R ε α σ O} (hreach : Reach sys guard start p) :
    Reach sys guard' start p := by
  induction hreach with
  | refl => exact .refl
  | @move p p' m _ hadm hstep ih =>
    apply Reach.move ih _ hstep
    cases m with
    | thread i choice =>
      intro command next hthread
      exact hcommand _ _ _ (hadm command next hthread)
    | env event => exact hevent _ _ hadm

/-- In the course of a run from `start` to `p` the thread got this reply to this command. -/
def Answered (sys : System C R ε α σ O E) (guard : Guard C O E σ) (start p : Pool C R ε α σ O)
    (i : Nat) (command : C) (reply : Except ε (R command)) : Prop :=
  ∃ q q' choice next, Reach sys guard start q ∧ guard.Admits q (.thread i choice) ∧
    q.threads[i]? = some (.call command next) ∧ sys.step q (.thread i choice) = some q' ∧
    sys.exec command choice q.state = some (reply, q'.state) ∧ Reach sys guard q' p

theorem Answered.trans {sys : System C R ε α σ O E} {guard : Guard C O E σ}
    {start p p' : Pool C R ε α σ O} {i : Nat} {command : C} {reply : Except ε (R command)}
    (h : Answered sys guard start p i command reply) (hreach : Reach sys guard p p') :
    Answered sys guard start p' i command reply := by
  obtain ⟨q, q', choice, next, hq, hadm, hthread, hstep, hexec, hq'⟩ := h
  exact ⟨q, q', choice, next, hq, hadm, hthread, hstep, hexec, hq'.trans hreach⟩

/-! ### Running a list of moves -/

/-- A guard whose conditions can be evaluated. -/
class Guard.Decides (guard : Guard C O E σ) where
  command : ∀ command choice s, Decidable (guard.command command choice s)
  event : ∀ event s, Decidable (guard.event event s)

instance : (Guard.any : Guard C O E σ).Decides where
  command := fun _ _ _ => isTrue trivial
  event := fun _ _ => isTrue trivial

/-- The guard's verdict on one move. -/
def Guard.check (guard : Guard C O E σ) [dec : guard.Decides] (p : Pool C R ε α σ O) :
    Move O E → Bool
  | .thread i choice =>
    match p.threads[i]? with
    | some (.call command _) =>
      @decide (guard.command command choice p.state) (dec.command command choice p.state)
    | _ => true
  | .env event => @decide (guard.event event p.state) (dec.event event p.state)

theorem Guard.admits_of_check {guard : Guard C O E σ} [dec : guard.Decides]
    {p : Pool C R ε α σ O} {m : Move O E} (h : guard.check p m = true) : guard.Admits p m := by
  cases m with
  | thread i choice =>
    intro command next hthread
    simp only [check, hthread] at h
    exact @of_decide_eq_true _ (dec.command command choice p.state) h
  | env event => exact @of_decide_eq_true _ (dec.event event p.state) h

/-- Make a list of moves in order, each admitted by the guard. -/
def System.run (sys : System C R ε α σ O E) (guard : Guard C O E σ) [guard.Decides] :
    List (Move O E) → Pool C R ε α σ O → Option (Pool C R ε α σ O)
  | [], p => some p
  | move :: moves, p =>
    if guard.check p move then (sys.step p move).bind (run sys guard moves) else none

theorem Reach.of_run {sys : System C R ε α σ O E} {guard : Guard C O E σ} [guard.Decides]
    {start : Pool C R ε α σ O} (moves : List (Move O E)) : ∀ {p p' : Pool C R ε α σ O},
      Reach sys guard start p → sys.run guard moves p = some p' → Reach sys guard start p' := by
  induction moves with
  | nil =>
    intro p p' hp hrun
    rw [System.run, Option.some.injEq] at hrun
    exact hrun ▸ hp
  | cons m moves ih =>
    intro p p' hp hrun
    rw [System.run] at hrun
    split at hrun
    · rename_i hcheck
      rw [Option.bind_eq_some_iff] at hrun
      obtain ⟨q, hstep, hrest⟩ := hrun
      exact ih (hp.move (Guard.admits_of_check hcheck) hstep) hrest
    · cases hrun

/-- A list of moves shows that a pool with a decidable property is reachable. -/
theorem Reach.exists_of_run (sys : System C R ε α σ O E) (guard : Guard C O E σ) [guard.Decides]
    (start : Pool C R ε α σ O) (moves : List (Move O E)) (P : Pool C R ε α σ O → Bool)
    (hrun : (sys.run guard moves start).any P = true) :
    ∃ p, Reach sys guard start p ∧ P p = true := by
  rw [Option.any_eq_true] at hrun
  obtain ⟨p, hp, hP⟩ := hrun
  exact ⟨p, .of_run moves .refl hp, hP⟩

/-! ### Safe programs -/

section Safe

variable (sys : System C R ε α σ O E) (guard : Guard C O E σ)
variable {G : Type} (Inv : σ → List (Entry C O) → (Nat → G) → Prop)

/-- Issued by a thread with ghost `g`, the command keeps the invariant for some
    new ghost of the thread, and the new ghost and the reply satisfy `Post`. -/
def Spec (g : G) (command : C) (Post : G → Except ε (R command) → Prop) : Prop :=
  ∀ i choice s history gs reply s', gs i = g → Inv s history gs →
    guard.command command choice s → sys.exec command choice s = some (reply, s') →
    ∃ g', Inv s' (entryOf i command choice reply :: history) (Function.update gs i g') ∧
      Post g' reply

/-- Every command of the program keeps the invariant, and the outcome satisfies `Q`. -/
def Safe {β : Type} (Q : G → Except ε β → Prop) : G → Prog C R ε β → Prop
  | g, .ret value => Q g (.ok value)
  | g, .throw error => Q g (.error error)
  | g, .call command next => Spec sys guard Inv g command fun g' reply => Safe Q g' (next reply)

variable {sys guard Inv} {β γ : Type}

/-- A postcondition on values; nothing is said of errors. -/
def AtValue (P : G → β → Prop) : G → Except ε β → Prop
  | g, .ok value => P g value
  | _, .error _ => True

theorem Spec.mono {g : G} {command : C} {P Q : G → Except ε (R command) → Prop}
    (h : Spec sys guard Inv g command P) (himp : ∀ g' reply, P g' reply → Q g' reply) :
    Spec sys guard Inv g command Q := by
  intro i choice s history gs reply s' hg hinv hguard hexec
  obtain ⟨g', hinv', hpost⟩ := h i choice s history gs reply s' hg hinv hguard hexec
  exact ⟨g', hinv', himp g' reply hpost⟩

/-- A command that keeps the invariant with all ghosts as they are. -/
theorem Spec.frame {g : G} {command : C}
    (h : ∀ i choice s history gs reply s', gs i = g → Inv s history gs →
      guard.command command choice s → sys.exec command choice s = some (reply, s') →
      Inv s' (entryOf i command choice reply :: history) gs) :
    Spec sys guard Inv g command fun g' _ => g' = g := by
  intro i choice s history gs reply s' hg hinv hguard hexec
  refine ⟨g, ?_, rfl⟩
  rw [← hg, Function.update_eq_self]
  exact h i choice s history gs reply s' hg hinv hguard hexec

theorem Safe.mono {P Q : G → Except ε β → Prop} (himp : ∀ g outcome, P g outcome → Q g outcome)
    {p : Prog C R ε β} : ∀ {g : G}, Safe sys guard Inv P g p → Safe sys guard Inv Q g p := by
  induction p with
  | ret value => intro g h; exact himp g _ h
  | throw error => intro g h; exact himp g _ h
  | call command next ih => intro g h; exact Spec.mono h fun g' reply => ih reply

theorem Safe.perform {Q : G → Except ε (R command) → Prop} {g : G}
    (h : Spec sys guard Inv g command Q) :
    Safe sys guard Inv Q g (Prog.perform command) := by
  refine Spec.mono h fun g' reply hpost => ?_
  cases reply with
  | ok value => exact hpost
  | error error => exact hpost

theorem Safe.andThen {P : G → Except ε β → Prop} {Q : G → Except ε γ → Prop}
    {f : Except ε β → Prog C R ε γ}
    (hf : ∀ g outcome, P g outcome → Safe sys guard Inv Q g (f outcome))
    {p : Prog C R ε β} : ∀ {g : G}, Safe sys guard Inv P g p →
      Safe sys guard Inv Q g (p.andThen f) := by
  induction p with
  | ret value => intro g h; exact hf g _ h
  | throw error => intro g h; exact hf g _ h
  | call command next ih => intro g h; exact Spec.mono h fun g' reply => ih reply

theorem Safe.bind {P : G → Except ε β → Prop} {Q : G → Except ε γ → Prop}
    {p : Prog C R ε β} {f : β → Prog C R ε γ} {g : G} (hp : Safe sys guard Inv P g p)
    (hok : ∀ g' value, P g' (.ok value) → Safe sys guard Inv Q g' (f value))
    (herr : ∀ g' error, P g' (.error error) → Q g' (.error error)) :
    Safe sys guard Inv Q g (p >>= f) := by
  refine Safe.andThen (fun g' outcome h => ?_) hp
  cases outcome with
  | ok value => exact hok g' value h
  | error error => exact herr g' error h

theorem Safe.tryCatch {P Q : G → Except ε β → Prop}
    {p : Prog C R ε β} {handler : ε → Prog C R ε β} {g : G} (hp : Safe sys guard Inv P g p)
    (hok : ∀ g' value, P g' (.ok value) → Q g' (.ok value))
    (herr : ∀ g' error, P g' (.error error) → Safe sys guard Inv Q g' (handler error)) :
    Safe sys guard Inv Q g (tryCatch p handler) := by
  refine Safe.andThen (fun g' outcome h => ?_) hp
  cases outcome with
  | ok value => exact hok g' value h
  | error error => exact herr g' error h

/-- A program whose commands all leave the ghosts alone leaves them alone. -/
theorem Safe.of_all {g : G} {p : Prog C R ε β}
    (h : p.All fun command => Spec sys guard Inv g command fun g' _ => g' = g) :
    Safe sys guard Inv (fun g' _ => g' = g) g p := by
  induction p with
  | ret value => exact rfl
  | throw error => exact rfl
  | call command next ih =>
    refine Spec.mono h.1 fun g' reply hg' => ?_
    subst hg'
    exact ih reply (h.2 reply)

/-- Continue after a program that leaves the ghosts alone. -/
theorem Safe.frame_bind {Q : G → Except ε γ → Prop} {p : Prog C R ε β} {f : β → Prog C R ε γ}
    {g : G} (hp : p.All fun command => Spec sys guard Inv g command fun g' _ => g' = g)
    (hok : ∀ value, Safe sys guard Inv Q g (f value)) (herr : ∀ error, Q g (.error error)) :
    Safe sys guard Inv Q g (p >>= f) := by
  refine Safe.bind (Safe.of_all hp) (fun g' value hg' => ?_) (fun g' error hg' => ?_)
  · subst hg'
    exact hok value
  · subst hg'
    exact herr error

/-- Every thread fits its label, and so do the threads once one of them has moved to a new
    label and started others. -/
theorem labels_move {T L : Type} {Fits : L → T → Prop} {idle new : L} {label : Nat → L}
    {threads spawned : List T} {next : T} {i : Nat}
    (hfits : ∀ j thread, threads[j]? = some thread → Fits (label j) thread)
    (hidle : ∀ j, threads.length ≤ j → label j = idle) (hlt : i < threads.length)
    (hnext : Fits new next) (hspawned : ∀ thread ∈ spawned, Fits idle thread) :
    (∀ j thread, (threads.set i next ++ spawned)[j]? = some thread →
      Fits (Function.update label i new j) thread) ∧
    ∀ j, (threads.set i next ++ spawned).length ≤ j → Function.update label i new j = idle := by
  constructor
  · intro j thread hj
    rw [List.getElem?_append] at hj
    simp only [List.length_set] at hj
    split at hj
    · by_cases hji : j = i
      · subst hji
        rw [List.getElem?_set_self hlt, Option.some.injEq] at hj
        rw [Function.update_self, ← hj]
        exact hnext
      · rw [List.getElem?_set_ne (Ne.symm hji)] at hj
        rw [Function.update_of_ne hji]
        exact hfits j thread hj
    · rename_i hge
      have hne : j ≠ i := fun heq => hge (heq ▸ hlt)
      rw [Function.update_of_ne hne, hidle j (Nat.le_of_not_lt hge)]
      exact hspawned thread (List.mem_of_getElem? hj)
  · intro j hj
    simp only [List.length_append, List.length_set] at hj
    have hne : j ≠ i := by omega
    rw [Function.update_of_ne hne]
    exact hidle j (by omega)

/-- What is known of a pool whose threads are all safe. -/
structure Invariant (sys : System C R ε α σ O E) (guard : Guard C O E σ)
    (Inv : σ → List (Entry C O) → (Nat → G) → Prop) (Q : G → Except ε α → Prop) (idle : G)
    (p : Pool C R ε α σ O) (gs : Nat → G) : Prop where
  inv : Inv p.state p.history gs
  safe : ∀ i thread, p.threads[i]? = some thread → Safe sys guard Inv Q (gs i) thread
  idle : ∀ i, p.threads.length ≤ i → gs i = idle

theorem Invariant.thread_step {Q : G → Except ε α → Prop} {idle : G} {gs : Nat → G}
    {p : Pool C R ε α σ O} (hp : Invariant sys guard Inv Q idle p gs)
    (hspawn : ∀ command thread, thread ∈ sys.spawns command →
      Safe sys guard Inv Q idle thread)
    {i : Nat} {choice : O} {command : C} {next : Except ε (R command) → Prog C R ε α}
    (hthread : p.threads[i]? = some (.call command next))
    (hguard : guard.command command choice p.state)
    {reply : Except ε (R command)} {s' : σ}
    (hexec : sys.exec command choice p.state = some (reply, s')) :
    ∃ gs', Invariant sys guard Inv Q idle
      { state := s'
        threads := p.threads.set i (next reply) ++ sys.spawns command
        history := entryOf i command choice reply :: p.history } gs' := by
  have hlt : i < p.threads.length := (List.getElem?_eq_some_iff.mp hthread).1
  obtain ⟨g', hinv', hnext⟩ :=
    hp.safe i _ hthread i choice p.state p.history gs reply s' rfl hp.inv hguard hexec
  obtain ⟨hsafe, hidle⟩ := labels_move hp.safe hp.idle hlt hnext (hspawn command)
  exact ⟨Function.update gs i g', hinv', hsafe, hidle⟩

/-- **Safe threads keep the invariant in every reachable pool.**  The threads of
    the start pool are safe at their ghosts, every thread a command spawns is
    safe at the idle ghost, and no event breaks the invariant. -/
theorem Reach.invariant {Q : G → Except ε α → Prop} {idle : G} {gs : Nat → G}
    {start : Pool C R ε α σ O} (hstart : Invariant sys guard Inv Q idle start gs)
    (hspawn : ∀ command thread, thread ∈ sys.spawns command →
      Safe sys guard Inv Q idle thread)
    (henv : ∀ event s s' history gs, Inv s history gs → guard.event event s →
      sys.env event s = some s' → Inv s' history gs)
    {p : Pool C R ε α σ O} (hreach : Reach sys guard start p) :
    ∃ gs', Invariant sys guard Inv Q idle p gs' := by
  induction hreach with
  | refl => exact ⟨gs, hstart⟩
  | @move p p' m _ hadm hstep ih =>
    obtain ⟨gs', hp⟩ := ih
    cases m with
    | thread i choice =>
      simp only [System.step] at hstep
      split at hstep
      · rename_i command next hthread
        rw [Option.map_eq_some_iff] at hstep
        obtain ⟨⟨reply, s'⟩, hexec, rfl⟩ := hstep
        exact hp.thread_step hspawn hthread (hadm command next hthread) hexec
      · cases hstep
    | env event =>
      simp only [System.step] at hstep
      rw [Option.map_eq_some_iff] at hstep
      obtain ⟨s', hexec, rfl⟩ := hstep
      exact ⟨gs', henv event _ _ _ _ hp.inv hadm hexec, hp.safe, hp.idle⟩

end Safe

end BrokeTurnkey.Interaction
