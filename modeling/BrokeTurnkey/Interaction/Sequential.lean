import BrokeTurnkey.Interaction.Pool

/-!
# One program on its own

A single program run to its end with nothing interleaved.  `Completes` is the
big-step relation, and `Meets` is the weakest precondition: from this state and
history every completed run of the program ends with the postcondition.
-/

namespace BrokeTurnkey.Interaction

variable {C : Type} {R : C → Type} {ε α σ O E : Type}

/-- The program runs to its end, from one state and history to another. -/
inductive Completes (sys : System C R ε α σ O E) (guard : Guard C O E σ) {β : Type} :
    Prog C R ε β → σ → List (Entry C O) → Except ε β → σ → List (Entry C O) → Prop where
  | ret (value : β) (s : σ) (history : List (Entry C O)) :
      Completes sys guard (.ret value) s history (.ok value) s history
  | throw (error : ε) (s : σ) (history : List (Entry C O)) :
      Completes sys guard (.throw error) s history (.error error) s history
  | call {command : C} {next : Except ε (R command) → Prog C R ε β} {choice : O} {s s' t : σ}
      {history history' : List (Entry C O)} {reply : Except ε (R command)}
      {outcome : Except ε β} :
      guard.command command choice s → sys.exec command choice s = some (reply, s') →
      Completes sys guard (next reply) s' (entryOf 0 command choice reply :: history)
        outcome t history' →
      Completes sys guard (.call command next) s history outcome t history'

/-- A program runs to its end where every command can be answered. -/
theorem Completes.exists_of_total {sys : System C R ε α σ O E} {guard : Guard C O E σ}
    (htotal : ∀ command s, ∃ choice reply s', guard.command command choice s ∧
      sys.exec command choice s = some (reply, s')) {β : Type} (p : Prog C R ε β) :
    ∀ s history, ∃ outcome s' history', Completes sys guard p s history outcome s' history' := by
  induction p with
  | ret value => exact fun s history => ⟨_, _, _, .ret value s history⟩
  | throw error => exact fun s history => ⟨_, _, _, .throw error s history⟩
  | call command next ih =>
    intro s history
    obtain ⟨choice, reply, s', hguard, hexec⟩ := htotal command s
    obtain ⟨outcome, t, history', hrun⟩ := ih reply s' (entryOf 0 command choice reply :: history)
    exact ⟨outcome, t, history', .call hguard hexec hrun⟩

/-- Run a program with the choices of a list. -/
def System.complete (sys : System C R ε α σ O E) (guard : Guard C O E σ) [dec : guard.Decides]
    {β : Type} : List O → Prog C R ε β → σ → List (Entry C O) →
      Option (Except ε β × σ × List (Entry C O))
  | _, .ret value, s, history => some (.ok value, s, history)
  | _, .throw error, s, history => some (.error error, s, history)
  | choice :: choices, .call command next, s, history =>
    if @decide (guard.command command choice s) (dec.command command choice s) then
      (sys.exec command choice s).bind fun answer =>
        sys.complete guard choices (next answer.1) answer.2
          (entryOf 0 command choice answer.1 :: history)
    else none
  | [], .call _ _, _, _ => none

theorem Completes.of_complete {sys : System C R ε α σ O E} {guard : Guard C O E σ}
    [dec : guard.Decides] {β : Type} (choices : List O) :
    ∀ {p : Prog C R ε β} {s : σ} {history : List (Entry C O)}
      {final : Except ε β × σ × List (Entry C O)},
      sys.complete guard choices p s history = some final →
      Completes sys guard p s history final.1 final.2.1 final.2.2 := by
  induction choices with
  | nil =>
    intro p s history final h
    cases p with
    | ret value => cases h; exact .ret ..
    | throw error => cases h; exact .throw ..
    | call command next => cases h
  | cons choice choices ih =>
    intro p s history final h
    cases p with
    | ret value => cases h; exact .ret ..
    | throw error => cases h; exact .throw ..
    | call command next =>
      rw [System.complete] at h
      split at h
      · rename_i hguard
        rw [Option.bind_eq_some_iff] at h
        obtain ⟨⟨reply, s'⟩, hexec, hrest⟩ := h
        exact .call (@of_decide_eq_true _ (dec.command command choice s) hguard) hexec (ih hrest)
      · cases h

/-- A list of choices shows that a run with a decidable property exists. -/
theorem Completes.exists_of_complete (sys : System C R ε α σ O E) (guard : Guard C O E σ)
    [guard.Decides] {β : Type} (p : Prog C R ε β) (s : σ) (choices : List O)
    (P : Except ε β × σ × List (Entry C O) → Bool)
    (h : (sys.complete guard choices p s []).any P = true) :
    ∃ outcome s' history, Completes sys guard p s [] outcome s' history ∧
      P (outcome, s', history) = true := by
  rw [Option.any_eq_true] at h
  obtain ⟨⟨outcome, s', history⟩, hrun, hP⟩ := h
  exact ⟨outcome, s', history, .of_complete choices hrun, hP⟩

/-- What is entered in the course of a run, the program issued. -/
theorem Completes.issues {sys : System C R ε α σ O E} {guard : Guard C O E σ} {β : Type}
    {p : Prog C R ε β} {s t : σ} {history history' : List (Entry C O)} {outcome : Except ε β}
    (hrun : Completes sys guard p s history outcome t history') :
    ∀ entry ∈ history', entry ∈ history ∨ p.Issues entry.command := by
  induction hrun with
  | ret value s history => exact fun _ hentry => .inl hentry
  | throw error s history => exact fun _ hentry => .inl hentry
  | call _ _ _ ih =>
    intro entry hentry
    rcases ih entry hentry with hold | hlater
    · rcases List.mem_cons.mp hold with rfl | hold
      · exact .inr (.here _ _)
      · exact .inl hold
    · exact .inr (.later _ hlater)

/-- The program that has ended so. -/
def Prog.ended : Except ε α → Prog C R ε α
  | .ok value => .ret value
  | .error error => .throw error

/-- A thread of a pool runs to its end while the others stand still. -/
theorem Completes.in_pool {sys : System C R ε α σ O E} {guard : Guard C O E σ}
    {q : Prog C R ε α} {s t : σ} {history history' : List (Entry C O)} {outcome : Except ε α}
    (hrun : Completes sys guard q s history outcome t history') :
    ∀ {p : Pool C R ε α σ O} {i : Nat}, p.state = s → p.threads[i]? = some q →
      ∃ p', Reach sys guard p p' ∧ p'.state = t ∧
        p'.threads[i]? = some (.ended outcome) ∧
        p.threads.length ≤ p'.threads.length ∧
        ∀ j, j < p.threads.length → j ≠ i → p'.threads[j]? = p.threads[j]? := by
  induction hrun with
  | ret value s history =>
    intro p i hs hthread
    exact ⟨p, .refl, hs, hthread, Nat.le_refl _, fun _ _ _ => rfl⟩
  | throw error s history =>
    intro p i hs hthread
    exact ⟨p, .refl, hs, hthread, Nat.le_refl _, fun _ _ _ => rfl⟩
  | @call command next choice s s' t _ _ reply outcome hguard hexec _ ih =>
    intro p i hs hthread
    subst hs
    have hlt : i < p.threads.length := (List.getElem?_eq_some_iff.mp hthread).1
    have hstep : sys.step p (.thread i choice) = some
        { state := s'
          threads := p.threads.set i (next reply) ++ sys.spawns command
          history := entryOf i command choice reply :: p.history } := by
      simp only [System.step, hthread, hexec, Option.map_some]
    have hadmits : guard.Admits p (.thread i choice) := by
      intro command' next' hthread'
      rw [hthread, Option.some.injEq] at hthread'
      cases hthread'
      exact hguard
    have hnext : (p.threads.set i (next reply) ++ sys.spawns command)[i]? = some (next reply) := by
      rw [List.getElem?_append_left (by simpa using hlt), List.getElem?_set_self hlt]
    obtain ⟨p', hreach, hstate, hdone, hlength, hothers⟩ := @ih
      { state := s'
        threads := p.threads.set i (next reply) ++ sys.spawns command
        history := entryOf i command choice reply :: p.history } i rfl hnext
    simp only [List.length_append, List.length_set] at hlength hothers
    refine ⟨p', .trans (.move .refl hadmits hstep) hreach, hstate, hdone, by omega, ?_⟩
    intro j hj hji
    rw [hothers j (by omega) hji, List.getElem?_append_left (by simpa using hj),
      List.getElem?_set_ne (Ne.symm hji)]

/-! ### Runs that exist -/

section Attains

variable (sys : System C R ε α σ O E) (guard : Guard C O E σ) {β γ : Type}

/-- With any history, some run of the program from `s` ends with the outcome at `t`. -/
def Attains (p : Prog C R ε β) (s : σ) (outcome : Except ε β) (t : σ) : Prop :=
  ∀ history, ∃ history', Completes sys guard p s history outcome t history'

variable {sys guard}

theorem Attains.ret (value : β) (s : σ) : Attains sys guard (.ret value) s (.ok value) s :=
  fun history => ⟨history, .ret value s history⟩

theorem Completes.andThen {f : Except ε β → Prog C R ε γ} {p : Prog C R ε β} {s t u : σ}
    {history history' history'' : List (Entry C O)} {outcome : Except ε β}
    {outcome' : Except ε γ} (hp : Completes sys guard p s history outcome t history')
    (hf : Completes sys guard (f outcome) t history' outcome' u history'') :
    Completes sys guard (p.andThen f) s history outcome' u history'' := by
  induction hp with
  | ret value s history => exact hf
  | throw error s history => exact hf
  | call hguard hexec _ ih => exact .call hguard hexec (ih hf)

/-- What was computed from a result was computed from the result of such a run. -/
theorem Completes.of_map {f : β → γ} {p : Prog C R ε β} {s t : σ}
    {history history' : List (Entry C O)} {value : γ}
    (hrun : Completes sys guard (f <$> p) s history (.ok value) t history') :
    ∃ result, f result = value ∧ Completes sys guard p s history (.ok result) t history' := by
  induction p generalizing s history with
  | ret result =>
    cases hrun
    exact ⟨result, rfl, .ret result _ _⟩
  | throw error => cases hrun
  | call command next ih =>
    cases hrun with
    | call hguard hexec hrest =>
      obtain ⟨result, heq, hp⟩ := ih _ hrest
      exact ⟨result, heq, .call hguard hexec hp⟩

theorem Attains.bind {p : Prog C R ε β} {f : β → Prog C R ε γ} {s t u : σ} {value : β}
    {outcome : Except ε γ} (hp : Attains sys guard p s (.ok value) t)
    (hf : Attains sys guard (f value) t outcome u) : Attains sys guard (p >>= f) s outcome u := by
  intro history
  obtain ⟨history', hp⟩ := hp history
  obtain ⟨history'', hf⟩ := hf history'
  exact ⟨history'', hp.andThen (f := Prog.onValue f) hf⟩

theorem Attains.perform {command : C} {choice : O} {s t : σ} {value : R command}
    (hguard : guard.command command choice s)
    (hexec : sys.exec command choice s = some (.ok value, t)) :
    Attains sys guard (Prog.perform command) s (.ok value) t :=
  fun _ => ⟨_, .call hguard hexec (.ret ..)⟩

end Attains

section Meets

variable (sys : System C R ε α σ O E) (guard : Guard C O E σ)

/-- Every completed run of the program ends with `Q`. -/
def Meets {β : Type} (Q : Except ε β → σ → List (Entry C O) → Prop) :
    Prog C R ε β → σ → List (Entry C O) → Prop
  | .ret value, s, history => Q (.ok value) s history
  | .throw error, s, history => Q (.error error) s history
  | .call command next, s, history =>
    ∀ choice reply s', guard.command command choice s →
      sys.exec command choice s = some (reply, s') →
      Meets Q (next reply) s' (entryOf 0 command choice reply :: history)

variable {sys guard} {β γ : Type}

theorem Completes.meets {Q : Except ε β → σ → List (Entry C O) → Prop} {p : Prog C R ε β}
    {s t : σ} {history history' : List (Entry C O)} {outcome : Except ε β}
    (hrun : Completes sys guard p s history outcome t history')
    (hp : Meets sys guard Q p s history) : Q outcome t history' := by
  induction hrun with
  | ret value s history => exact hp
  | throw error s history => exact hp
  | call hguard hexec _ ih => exact ih (hp _ _ _ hguard hexec)

theorem Meets.mono {P Q : Except ε β → σ → List (Entry C O) → Prop}
    (himp : ∀ outcome s history, P outcome s history → Q outcome s history)
    {p : Prog C R ε β} : ∀ {s : σ} {history : List (Entry C O)},
      Meets sys guard P p s history → Meets sys guard Q p s history := by
  induction p with
  | ret value => intro s history h; exact himp _ _ _ h
  | throw error => intro s history h; exact himp _ _ _ h
  | call command next ih =>
    intro s history h choice reply s' hguard hexec
    exact ih reply (h choice reply s' hguard hexec)

theorem Meets.andThen {P : Except ε β → σ → List (Entry C O) → Prop}
    {Q : Except ε γ → σ → List (Entry C O) → Prop} {f : Except ε β → Prog C R ε γ}
    (hf : ∀ outcome s history, P outcome s history → Meets sys guard Q (f outcome) s history)
    {p : Prog C R ε β} : ∀ {s : σ} {history : List (Entry C O)},
      Meets sys guard P p s history → Meets sys guard Q (p.andThen f) s history := by
  induction p with
  | ret value => intro s history h; exact hf _ _ _ h
  | throw error => intro s history h; exact hf _ _ _ h
  | call command next ih =>
    intro s history h choice reply s' hguard hexec
    exact ih reply (h choice reply s' hguard hexec)

theorem Meets.bind {P : Except ε β → σ → List (Entry C O) → Prop}
    {Q : Except ε γ → σ → List (Entry C O) → Prop} {p : Prog C R ε β}
    {f : β → Prog C R ε γ} {s : σ} {history : List (Entry C O)}
    (hp : Meets sys guard P p s history)
    (hok : ∀ value s' history', P (.ok value) s' history' →
      Meets sys guard Q (f value) s' history')
    (herr : ∀ error s' history', P (.error error) s' history' →
      Q (.error error) s' history') :
    Meets sys guard Q (p >>= f) s history := by
  refine Meets.andThen (fun outcome s' history' h => ?_) hp
  cases outcome with
  | ok value => exact hok value s' history' h
  | error error => exact herr error s' history' h

theorem Meets.tryCatch {P Q : Except ε β → σ → List (Entry C O) → Prop} {p : Prog C R ε β}
    {handler : ε → Prog C R ε β} {s : σ} {history : List (Entry C O)}
    (hp : Meets sys guard P p s history)
    (hok : ∀ value s' history', P (.ok value) s' history' → Q (.ok value) s' history')
    (herr : ∀ error s' history', P (.error error) s' history' →
      Meets sys guard Q (handler error) s' history') :
    Meets sys guard Q (MonadExcept.tryCatch p handler) s history := by
  refine Meets.andThen (fun outcome s' history' h => ?_) hp
  cases outcome with
  | ok value => exact hok value s' history' h
  | error error => exact herr error s' history' h

theorem Meets.perform {command : C} {Q : Except ε (R command) → σ → List (Entry C O) → Prop}
    {s : σ} {history : List (Entry C O)}
    (h : ∀ choice reply s', guard.command command choice s →
      sys.exec command choice s = some (reply, s') →
      Q reply s' (entryOf 0 command choice reply :: history)) :
    Meets sys guard Q (Prog.perform command) s history := by
  intro choice reply s' hguard hexec
  have hpost := h choice reply s' hguard hexec
  cases reply with
  | ok value => exact hpost
  | error error => exact hpost

/-- A relation kept by every command the program may issue holds across its runs. -/
theorem Meets.of_all {J : σ → List (Entry C O) → Prop} {p : Prog C R ε β}
    (h : p.All fun command => ∀ choice reply s s' history, J s history →
      guard.command command choice s → sys.exec command choice s = some (reply, s') →
      J s' (entryOf 0 command choice reply :: history)) :
    ∀ {s : σ} {history : List (Entry C O)}, J s history →
      Meets sys guard (fun _ s' history' => J s' history') p s history := by
  induction p with
  | ret value => intro s history hj; exact hj
  | throw error => intro s history hj; exact hj
  | call command next ih =>
    intro s history hj choice reply s' hguard hexec
    exact ih reply (h.2 reply) (h.1 choice reply s s' history hj hguard hexec)

/-- Continue after a program whose commands keep a relation. -/
theorem Meets.keep_bind {J : σ → List (Entry C O) → Prop}
    {Q : Except ε γ → σ → List (Entry C O) → Prop} {p : Prog C R ε β} {f : β → Prog C R ε γ}
    {s : σ} {history : List (Entry C O)}
    (hp : p.All fun command => ∀ choice reply s s' history, J s history →
      guard.command command choice s → sys.exec command choice s = some (reply, s') →
      J s' (entryOf 0 command choice reply :: history))
    (hj : J s history)
    (hok : ∀ value s' history', J s' history' → Meets sys guard Q (f value) s' history')
    (herr : ∀ error s' history', J s' history' → Q (.error error) s' history') :
    Meets sys guard Q (p >>= f) s history :=
  Meets.bind (Meets.of_all hp hj) hok herr

end Meets

/-! ### Runs that return -/

section Returns

variable (sys : System C R ε α σ O E) (guard : Guard C O E σ) {β γ : Type}

/-- A run of the program that returns, returns with `P`. -/
def Returns (P : β → σ → Prop) (p : Prog C R ε β) (s : σ) : Prop :=
  ∀ history, Meets sys guard (fun outcome t _ => ∀ value, outcome = .ok value → P value t) p s
    history

variable {sys guard} {P Q : β → σ → Prop} {s : σ}

theorem Completes.returns {p : Prog C R ε β} {value : β} {t : σ}
    {history history' : List (Entry C O)}
    (hrun : Completes sys guard p s history (.ok value) t history')
    (hp : Returns sys guard P p s) : P value t :=
  hrun.meets (hp history) value rfl

theorem Returns.ret {value : β} (h : P value s) : Returns sys guard P (.ret value) s := by
  rintro history _ ⟨⟩
  exact h

theorem Returns.throw (error : ε) : Returns sys guard P (.throw error) s := by
  rintro history _ ⟨⟩

theorem Returns.mono {p : Prog C R ε β} (h : Returns sys guard P p s)
    (himp : ∀ value t, P value t → Q value t) : Returns sys guard Q p s := fun history =>
  (h history).mono fun _ t _ hpost value hvalue => himp value t (hpost value hvalue)

theorem Returns.bind {P : γ → σ → Prop} {p : Prog C R ε γ} {f : γ → Prog C R ε β}
    (hp : Returns sys guard P p s)
    (hf : ∀ value t, P value t → Returns sys guard Q (f value) t) :
    Returns sys guard Q (p >>= f) s := by
  intro history
  refine Meets.bind (hp history) ?_ ?_
  · intro value t history' hpost
    exact hf value t (hpost value rfl) history'
  · rintro error t history' _ _ ⟨⟩

theorem Returns.map {f : γ → β} {p : Prog C R ε γ}
    (hp : Returns sys guard (fun value t => P (f value) t) p s) :
    Returns sys guard P (f <$> p) s :=
  .bind hp fun _ _ h => .ret h

theorem Returns.perform {command : C} {P : R command → σ → Prop}
    (h : ∀ choice value t, guard.command command choice s →
      sys.exec command choice s = some (.ok value, t) → P value t) :
    Returns sys guard P (Prog.perform command) s := by
  intro history
  refine Meets.perform ?_
  rintro choice reply t hguard hexec value rfl
  exact h choice value t hguard hexec

/-- Go on unless a check fails. -/
theorem Returns.unless {c : Prop} [Decidable c] {error : ε} {p : Prog C R ε β}
    (h : ¬c → Returns sys guard P p s) :
    Returns sys guard P (if c then MonadExcept.throw error else p) s := by
  by_cases hc : c
  · rw [if_pos hc]
    exact .throw error
  · rw [if_neg hc]
    exact h hc

/-- What was caught is handled where it was thrown. -/
theorem Returns.tryCatch {p : Prog C R ε β} {handler : ε → Prog C R ε β}
    (hp : ∀ history, Meets sys guard (fun outcome t _ =>
      (∀ value, outcome = .ok value → P value t) ∧
        ∀ error, outcome = .error error → Returns sys guard P (handler error) t) p s history) :
    Returns sys guard P (MonadExcept.tryCatch p handler) s := by
  intro history
  refine Meets.tryCatch (hp history) ?_ ?_
  · intro value t history' hpost
    exact hpost.1
  · intro error t history' hpost
    exact hpost.2 error rfl history'

/-- A handler that throws returns nothing. -/
theorem Returns.rethrow {p : Prog C R ε β} {handler : ε → Prog C R ε β}
    (hp : Returns sys guard P p s) (hthrows : ∀ error, ∃ error', handler error = .throw error') :
    Returns sys guard P (MonadExcept.tryCatch p handler) s := by
  refine .tryCatch fun history => (hp history).mono fun outcome t _ hpost => ⟨hpost, ?_⟩
  rintro error _
  obtain ⟨error', hthrow⟩ := hthrows error
  rw [hthrow]
  exact .throw error'

end Returns

end BrokeTurnkey.Interaction
