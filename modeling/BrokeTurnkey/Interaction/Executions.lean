import BrokeTurnkey.Interaction.Given

/-!
# What a thread has executed

A thread that runs `p` and goes on with what `p` comes to is within `p`, or has executed
it: one command of `p` after the other, each answered where it was issued, while other
threads moved in between.  `Executes` follows the thread through `p`, and so a run can be
asked which of the calls in its programs have come to which outcome.
-/

namespace BrokeTurnkey.Interaction

variable {C : Type} {R : C → Type} {ε α β γ σ O E : Type}

theorem Prog.andThen_assoc {δ : Type} (p : Prog C R ε β) (f : Except ε β → Prog C R ε γ)
    (g : Except ε γ → Prog C R ε δ) :
    (p.andThen f).andThen g = p.andThen fun outcome => (f outcome).andThen g := by
  induction p with
  | ret value => rfl
  | throw error => rfl
  | call command next ih =>
    simp only [Prog.andThen]
    congr 1
    funext reply
    exact ih reply

theorem Prog.bind_assoc {δ : Type} (p : Prog C R ε β) (f : β → Prog C R ε γ)
    (g : γ → Prog C R ε δ) :
    (p >>= f) >>= g = p >>= fun value => f value >>= g := by
  refine (Prog.andThen_assoc p _ _).trans (congrArg (Prog.andThen p) ?_)
  funext outcome
  cases outcome with
  | ok value => rfl
  | error error => rfl

/-- What goes on with the outcome of a program that has ended. -/
theorem Prog.ended_andThen (outcome : Except ε β) (k : Except ε β → Prog C R ε γ) :
    (Prog.ended outcome : Prog C R ε β).andThen k = k outcome := by
  cases outcome <;> rfl

/-- A program is at a command or has ended. -/
theorem Prog.cases_ended (p : Prog C R ε β) :
    (∃ command next, p = .call command next) ∨ ∃ outcome, p = .ended outcome := by
  cases p with
  | ret value => exact .inr ⟨.ok value, rfl⟩
  | throw error => exact .inr ⟨.error error, rfl⟩
  | call command next => exact .inl ⟨command, next, rfl⟩

/-- What is left of a program after any replies. -/
def Prog.Closed (J : Prog C R ε β → Prop) : Prop :=
  ∀ command next reply, J (.call command next) → J (next reply)

theorem Prog.closed_all (P : C → Prop) :
    Prog.Closed (fun p : Prog C R ε β => p.All P) := fun _ _ reply h => h.2 reply

theorem Prog.closed_ended (outcome : Except ε β) :
    Prog.Closed (fun p : Prog C R ε β => p = .ended outcome) := by
  intro command next reply h
  cases outcome <;> cases h

/-! ### From pool to pool -/

section Executes

variable (sys : System C R ε α σ O E) (guard : Guard C O E σ) (i : Nat)
  (k : Except ε β → Prog C R ε α)

/-- The thread goes on with `k` after `p`, and between the two pools it has executed `p` up
    to what is left of it; other threads have moved, too. -/
inductive Executes (start : Pool C R ε α σ O) (p : Prog C R ε β) :
    Pool C R ε α σ O → Prog C R ε β → Prop where
  | refl (hthread : start.threads[i]? = some (p.andThen k)) : Executes start p start p
  | own {q q' : Pool C R ε α σ O} {command : C} {next : Except ε (R command) → Prog C R ε β}
      {choice : O} {reply : Except ε (R command)} (h : Executes start p q (.call command next))
      (hadm : guard.Admits q (.thread i choice)) (hstep : sys.step q (.thread i choice) = some q')
      (hexec : sys.exec command choice q.state = some (reply, q'.state)) :
      Executes start p q' (next reply)
  | other {q q' : Pool C R ε α σ O} {rest : Prog C R ε β} {m : Move O E}
      (h : Executes start p q rest) (hother : ∀ choice, m ≠ .thread i choice)
      (hadm : guard.Admits q m) (hstep : sys.step q m = some q') : Executes start p q' rest

/-- In the course of the run some thread has executed the program, and this is what it came
    to. -/
def Executed (start pool : Pool C R ε α σ O) (p : Prog C R ε β) (outcome : Except ε β) : Prop :=
  ∃ i k q q', Reach sys guard start q ∧ Executes sys guard i k q p q' (.ended outcome) ∧
    Reach sys guard q' pool

end Executes

section Rules

variable {sys : System C R ε α σ O E} {guard : Guard C O E σ} {i : Nat}
  {k : Except ε β → Prog C R ε α} {start q : Pool C R ε α σ O} {p rest : Prog C R ε β}

theorem Executes.reach (h : Executes sys guard i k start p q rest) : Reach sys guard start q := by
  induction h with
  | refl hthread => exact .refl
  | own _ hadm hstep _ ih => exact ih.move hadm hstep
  | other _ _ hadm hstep ih => exact ih.move hadm hstep

/-- A move of another thread, or of the environment, leaves the thread alone. -/
theorem step_other {q q' : Pool C R ε α σ O} {m : Move O E} {thread : Prog C R ε α}
    (hother : ∀ choice, m ≠ .thread i choice) (hstep : sys.step q m = some q')
    (hthread : q.threads[i]? = some thread) : q'.threads[i]? = some thread := by
  have hlt : i < q.threads.length := (List.getElem?_eq_some_iff.mp hthread).1
  cases m with
  | env event =>
    simp only [System.step, Option.map_eq_some_iff] at hstep
    obtain ⟨s', _, rfl⟩ := hstep
    exact hthread
  | thread j choice =>
    have hji : j ≠ i := fun heq => hother choice (heq ▸ rfl)
    simp only [System.step] at hstep
    split at hstep
    · rw [Option.map_eq_some_iff] at hstep
      obtain ⟨⟨reply, s'⟩, _, rfl⟩ := hstep
      rw [List.getElem?_append_left (by simpa using hlt), List.getElem?_set_ne hji]
      exact hthread
    · cases hstep

/-- The command a thread is at is answered, and the thread goes on. -/
theorem step_own {q q' : Pool C R ε α σ O} {command : C}
    {next : Except ε (R command) → Prog C R ε α} {choice : O}
    (hstep : sys.step q (.thread i choice) = some q')
    (hthread : q.threads[i]? = some (.call command next)) :
    ∃ reply, sys.exec command choice q.state = some (reply, q'.state) ∧
      q'.threads[i]? = some (next reply) ∧
      q'.history = entryOf i command choice reply :: q.history := by
  have hlt : i < q.threads.length := (List.getElem?_eq_some_iff.mp hthread).1
  simp only [System.step, hthread, Option.map_eq_some_iff] at hstep
  obtain ⟨⟨reply, s'⟩, hexec, rfl⟩ := hstep
  refine ⟨reply, hexec, ?_, rfl⟩
  rw [List.getElem?_append_left (by simpa using hlt), List.getElem?_set_self hlt]

/-- A thread that is at no command does not move. -/
theorem step_ended {q q' : Pool C R ε α σ O} {outcome : Except ε α} {choice : O}
    (hthread : q.threads[i]? = some (.ended outcome)) :
    sys.step q (.thread i choice) ≠ some q' := by
  intro hstep
  cases outcome <;> simp only [System.step, hthread, Prog.ended, reduceCtorEq] at hstep

theorem Executes.thread (h : Executes sys guard i k start p q rest) :
    q.threads[i]? = some (rest.andThen k) := by
  induction h with
  | refl hthread => exact hthread
  | @own q q' command next choice reply _ _ hstep hexec ih =>
    obtain ⟨reply', hexec', hthread, _⟩ := step_own hstep ih
    cases hexec.symm.trans hexec'
    exact hthread
  | other _ hother _ hstep ih => exact step_other hother hstep ih

/-- What is left of the program. -/
theorem Executes.residual {J : Prog C R ε β → Prop} (hclosed : Prog.Closed J)
    (h : Executes sys guard i k start p q rest) (hp : J p) : J rest := by
  induction h with
  | refl hthread => exact hp
  | own _ _ _ _ ih => exact hclosed _ _ _ ih
  | other _ _ _ _ ih => exact ih

/-- **A thread is within the program, or has executed it.** -/
theorem Reach.executes {pool : Pool C R ε α σ O}
    (hthread : start.threads[i]? = some (p.andThen k)) (hreach : Reach sys guard start pool) :
    (∃ command next, Executes sys guard i k start p pool (.call command next)) ∨
      ∃ outcome q, Executes sys guard i k start p q (.ended outcome) ∧
        Reach sys guard q pool := by
  have hmade : ∀ {q : Pool C R ε α σ O} {rest : Prog C R ε β},
      Executes sys guard i k start p q rest →
      (∃ command next, Executes sys guard i k start p q (.call command next)) ∨
        ∃ outcome q', Executes sys guard i k start p q' (.ended outcome) ∧
          Reach sys guard q' q := by
    intro q rest h
    rcases rest.cases_ended with ⟨command, next, rfl⟩ | ⟨outcome, rfl⟩
    · exact .inl ⟨command, next, h⟩
    · exact .inr ⟨outcome, q, h, .refl⟩
  induction hreach with
  | refl => exact hmade (.refl hthread)
  | @move q q' m _ hadm hstep ih =>
    rcases ih with ⟨command, next, h⟩ | ⟨outcome, r, h, hr⟩
    · by_cases hown : ∃ choice, m = .thread i choice
      · obtain ⟨choice, rfl⟩ := hown
        obtain ⟨reply, hexec, _⟩ := step_own hstep h.thread
        exact hmade (.own h hadm hstep hexec)
      · exact hmade (.other h (fun choice heq => hown ⟨choice, heq⟩) hadm hstep)
    · exact .inr ⟨outcome, r, h, hr.move hadm hstep⟩

/-- What is left of a thread. -/
theorem Reach.residual {J : Prog C R ε α → Prop} (hclosed : Prog.Closed J)
    {thread : Prog C R ε α} (hthread : start.threads[i]? = some thread) (hJ : J thread)
    (hreach : Reach sys guard start q) : ∃ rest, q.threads[i]? = some rest ∧ J rest := by
  induction hreach with
  | refl => exact ⟨thread, hthread, hJ⟩
  | @move q q' m _ hadm hstep ih =>
    obtain ⟨rest, hrest, hJrest⟩ := ih
    by_cases hown : ∃ choice, m = .thread i choice
    · obtain ⟨choice, rfl⟩ := hown
      rcases rest.cases_ended with ⟨command, next, rfl⟩ | ⟨outcome, rfl⟩
      · obtain ⟨reply, _, hnext, _⟩ := step_own hstep hrest
        exact ⟨next reply, hnext, hclosed _ _ _ hJrest⟩
      · exact absurd hstep (step_ended hrest)
    · exact ⟨rest, step_other (fun choice heq => hown ⟨choice, heq⟩) hstep hrest, hJrest⟩

/-- A thread that goes on only with commands that satisfy `P` is at one of them. -/
theorem Reach.at_command {P : C → Prop} {thread : Prog C R ε α} {command : C}
    {next : Except ε (R command) → Prog C R ε α} (hthread : start.threads[i]? = some thread)
    (hall : thread.All P) (hreach : Reach sys guard start q)
    (hcall : q.threads[i]? = some (.call command next)) : P command := by
  obtain ⟨rest, hrest, hJ⟩ := Reach.residual (Prog.closed_all P) hthread hall hreach
  rw [hrest, Option.some.injEq] at hcall
  subst hcall
  exact hJ.1

/-- **Past the first part of a thread.**  A thread that is at a command the first part does
    not issue has executed the first part. -/
theorem Reach.past {P : C → Prop} {command : C} {next : Except ε (R command) → Prog C R ε α}
    (hthread : start.threads[i]? = some (p.andThen k)) (hall : p.All P)
    (hreach : Reach sys guard start q) (hcall : q.threads[i]? = some (.call command next))
    (hnot : ¬P command) :
    ∃ outcome q', q'.threads[i]? = some (k outcome) ∧
      Executes sys guard i k start p q' (.ended outcome) ∧ Reach sys guard q' q := by
  rcases Reach.executes hthread hreach with ⟨command', next', h⟩ | ⟨outcome, q', h, hq'⟩
  · have hcall' := h.thread
    rw [hcall] at hcall'
    cases hcall'
    exact absurd (h.residual (Prog.closed_all P) hall).1 hnot
  · refine ⟨outcome, q', ?_, h, hq'⟩
    rw [h.thread, Prog.ended_andThen]

/-- The same where an error of the first part ends the thread. -/
theorem Reach.past_bind {P : C → Prop} {f : β → Prog C R ε α} {command : C}
    {next : Except ε (R command) → Prog C R ε α} (hthread : start.threads[i]? = some (p >>= f))
    (hall : p.All P) (hreach : Reach sys guard start q)
    (hcall : q.threads[i]? = some (.call command next)) (hnot : ¬P command) :
    ∃ value q', q'.threads[i]? = some (f value) ∧
      Executes sys guard i (Prog.onValue f) start p q' (.ended (.ok value)) ∧
      Reach sys guard q' q := by
  obtain ⟨outcome, q', hat, h, hq'⟩ :=
    Reach.past (k := Prog.onValue f) hthread hall hreach hcall hnot
  cases outcome with
  | ok value => exact ⟨value, q', hat, h, hq'⟩
  | error error =>
    obtain ⟨rest, hrest, hJ⟩ := Reach.residual (Prog.closed_ended (.error error)) hat rfl hq'
    rw [hrest, hJ] at hcall
    cases hcall

/-- An entry of the history was made in a pool of the run. -/
theorem Reach.entered {pool : Pool C R ε α σ O} (hfresh : start.history = [])
    (hreach : Reach sys guard start pool) {later earlier : List (Entry C O)} {entry : Entry C O}
    (hhistory : pool.history = later ++ entry :: earlier) :
    ∃ q q' choice command next reply, Reach sys guard start q ∧ q.history = earlier ∧
      q.threads[entry.thread]? = some (.call command next) ∧
      guard.Admits q (.thread entry.thread choice) ∧
      sys.step q (.thread entry.thread choice) = some q' ∧
      sys.exec command choice q.state = some (reply, q'.state) ∧
      entry = entryOf entry.thread command choice reply ∧ Reach sys guard q' pool := by
  induction hreach generalizing later with
  | refl =>
    rw [hfresh] at hhistory
    cases later <;> cases hhistory
  | @move q q' m hq hadm hstep ih =>
    cases m with
    | env event =>
      have hmoved := hstep
      simp only [System.step, Option.map_eq_some_iff] at hmoved
      obtain ⟨s', _, rfl⟩ := hmoved
      obtain ⟨r, r', choice, command, next, reply, hr, hold, hthread, hadm', hstep', hexec, heq,
        hr'⟩ := ih hhistory
      exact ⟨r, r', choice, command, next, reply, hr, hold, hthread, hadm', hstep', hexec, heq,
        hr'.move hadm hstep⟩
    | thread i choice =>
      obtain ⟨command, next, hthread⟩ : ∃ command next,
          q.threads[i]? = some (.call command next) := by
        cases hat : q.threads[i]? with
        | none => simp only [System.step, hat, reduceCtorEq] at hstep
        | some thread =>
          rcases thread.cases_ended with ⟨command, next, rfl⟩ | ⟨outcome, rfl⟩
          · exact ⟨command, next, rfl⟩
          · exact absurd hstep (step_ended hat)
      obtain ⟨reply, hexec, _, hentries⟩ := step_own hstep hthread
      rw [hentries] at hhistory
      cases later with
      | nil =>
        obtain ⟨rfl, rfl⟩ := List.cons.inj hhistory
        exact ⟨q, q', choice, command, next, reply, hq, rfl, hthread, hadm,
          hstep, hexec, rfl, .refl⟩
      | cons first later =>
        obtain ⟨_, hhistory⟩ := List.cons.inj hhistory
        obtain ⟨r, r', choice', command', next', reply', hr, hold, hthread', hadm', hstep', hexec',
          heq, hr'⟩ := ih hhistory
        exact ⟨r, r', choice', command', next', reply', hr, hold, hthread', hadm', hstep', hexec',
          heq, hr'.move hadm hstep⟩

end Rules

end BrokeTurnkey.Interaction
