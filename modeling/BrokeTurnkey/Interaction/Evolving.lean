import BrokeTurnkey.Interaction.Pool

/-!
# Programs over a state that only grows

Often what one thread has learned stays true whatever the other threads do: a row
that was found is never removed, an answered command stays in the history.  An
`Evolution` is a preorder every command and every event respects.  `Keeps` says
of a program, started now, that each of its commands keeps an invariant when it
is issued at any later state, and speaks of what the program has learned in
plain propositions that the preorder carries along.
-/

namespace BrokeTurnkey.Interaction

variable {C : Type} {R : C → Type} {ε α σ O E : Type}

/-- A preorder on states with their history that the moves of a run respect. -/
structure Evolution (sys : System C R ε α σ O E) (guard : Guard C O E σ) where
  Grows : σ → List (Entry C O) → σ → List (Entry C O) → Prop
  refl : ∀ s history, Grows s history s history
  trans : ∀ {s s' s'' history history' history''}, Grows s history s' history' →
    Grows s' history' s'' history'' → Grows s history s'' history''
  command : ∀ {i command choice reply s s'} (history), guard.command command choice s →
    sys.exec command choice s = some (reply, s') →
    Grows s history s' (entryOf i command choice reply :: history)
  event : ∀ {event s s'} (history), guard.event event s → sys.env event s = some s' →
    Grows s history s' history

section Keeps

variable {sys : System C R ε α σ O E} {guard : Guard C O E σ} (ev : Evolution sys guard)
  (Inv : σ → List (Entry C O) → Prop)

/-- From this state and history on, every command of the program keeps the
    invariant, and the program ends with `Q`. -/
def Keeps {β : Type} (Q : Except ε β → σ → List (Entry C O) → Prop) :
    Prog C R ε β → σ → List (Entry C O) → Prop
  | .ret value, s, history => Q (.ok value) s history
  | .throw error, s, history => Q (.error error) s history
  | .call command next, s, history =>
    ∀ i choice reply s' t history', ev.Grows s history s' history' → Inv s' history' →
      guard.command command choice s' → sys.exec command choice s' = some (reply, t) →
      Inv t (entryOf i command choice reply :: history') ∧
        Keeps Q (next reply) t (entryOf i command choice reply :: history')

variable {ev Inv} {β γ : Type}

theorem Keeps.mono {P Q : Except ε β → σ → List (Entry C O) → Prop}
    (himp : ∀ outcome s history, P outcome s history → Q outcome s history)
    {p : Prog C R ε β} : ∀ {s : σ} {history : List (Entry C O)},
      Keeps ev Inv P p s history → Keeps ev Inv Q p s history := by
  induction p with
  | ret value => intro s history h; exact himp _ _ _ h
  | throw error => intro s history h; exact himp _ _ _ h
  | call command next ih =>
    intro s history h i choice reply s' t history' hgrows hinv hguard hexec
    obtain ⟨hinv', hnext⟩ := h i choice reply s' t history' hgrows hinv hguard hexec
    exact ⟨hinv', ih reply hnext⟩

theorem Keeps.andThen {P : Except ε β → σ → List (Entry C O) → Prop}
    {Q : Except ε γ → σ → List (Entry C O) → Prop} {f : Except ε β → Prog C R ε γ}
    (hf : ∀ outcome s history, P outcome s history → Keeps ev Inv Q (f outcome) s history)
    {p : Prog C R ε β} : ∀ {s : σ} {history : List (Entry C O)},
      Keeps ev Inv P p s history → Keeps ev Inv Q (p.andThen f) s history := by
  induction p with
  | ret value => intro s history h; exact hf _ _ _ h
  | throw error => intro s history h; exact hf _ _ _ h
  | call command next ih =>
    intro s history h i choice reply s' t history' hgrows hinv hguard hexec
    obtain ⟨hinv', hnext⟩ := h i choice reply s' t history' hgrows hinv hguard hexec
    exact ⟨hinv', ih reply hnext⟩

/-- A program ends at a later state than it starts at. -/
theorem Keeps.grown {Q : Except ε β → σ → List (Entry C O) → Prop} {p : Prog C R ε β} :
    ∀ {s t : σ} {history past : List (Entry C O)}, ev.Grows t past s history →
      Keeps ev Inv Q p s history →
      Keeps ev Inv (fun outcome s' history' =>
        ev.Grows t past s' history' ∧ Q outcome s' history') p s history := by
  induction p with
  | ret value => intro s t history past hlater h; exact ⟨hlater, h⟩
  | throw error => intro s t history past hlater h; exact ⟨hlater, h⟩
  | call command next ih =>
    intro s t history past hlater h i choice reply s' t' history' hgrows hinv hguard hexec
    obtain ⟨hinv', hnext⟩ := h i choice reply s' t' history' hgrows hinv hguard hexec
    exact ⟨hinv', ih reply (ev.trans hlater (ev.trans hgrows
      (ev.command history' hguard hexec))) hnext⟩

theorem Keeps.bind {P : Except ε β → σ → List (Entry C O) → Prop}
    {Q : Except ε γ → σ → List (Entry C O) → Prop} {p : Prog C R ε β}
    {f : β → Prog C R ε γ} {s : σ} {history : List (Entry C O)}
    (hp : Keeps ev Inv P p s history)
    (hok : ∀ value s' history', ev.Grows s history s' history' → P (.ok value) s' history' →
      Keeps ev Inv Q (f value) s' history')
    (herr : ∀ error s' history', P (.error error) s' history' → Q (.error error) s' history') :
    Keeps ev Inv Q (p >>= f) s history := by
  refine Keeps.andThen (fun outcome s' history' h => ?_) (Keeps.grown (ev.refl s history) hp)
  cases outcome with
  | ok value => exact hok value s' history' h.1 h.2
  | error error => exact herr error s' history' h.2

/-- What is computed from the result is kept by nothing more. -/
theorem Keeps.map {f : β → γ} {p : Prog C R ε β} {s : σ} {history : List (Entry C O)}
    (hp : Keeps ev Inv (fun _ _ _ => True) p s history) :
    Keeps ev Inv (fun _ _ _ => True) (f <$> p) s history :=
  Keeps.bind hp (fun _ _ _ _ _ => trivial) fun _ _ _ _ => trivial

theorem Keeps.tryCatch {P Q : Except ε β → σ → List (Entry C O) → Prop} {p : Prog C R ε β}
    {handler : ε → Prog C R ε β} {s : σ} {history : List (Entry C O)}
    (hp : Keeps ev Inv P p s history)
    (hok : ∀ value s' history', P (.ok value) s' history' → Q (.ok value) s' history')
    (herr : ∀ error s' history', ev.Grows s history s' history' →
      P (.error error) s' history' → Keeps ev Inv Q (handler error) s' history') :
    Keeps ev Inv Q (MonadExcept.tryCatch p handler) s history := by
  refine Keeps.andThen (fun outcome s' history' h => ?_) (Keeps.grown (ev.refl s history) hp)
  cases outcome with
  | ok value => exact hok value s' history' h.2
  | error error => exact herr error s' history' h.1 h.2

theorem Keeps.perform {command : C} {Q : Except ε (R command) → σ → List (Entry C O) → Prop}
    {s : σ} {history : List (Entry C O)}
    (h : ∀ i choice reply s' t history', ev.Grows s history s' history' → Inv s' history' →
      guard.command command choice s' → sys.exec command choice s' = some (reply, t) →
      Inv t (entryOf i command choice reply :: history') ∧
        Q reply t (entryOf i command choice reply :: history')) :
    Keeps ev Inv Q (Prog.perform command) s history := by
  intro i choice reply s' t history' hgrows hinv hguard hexec
  obtain ⟨hinv', hpost⟩ := h i choice reply s' t history' hgrows hinv hguard hexec
  refine ⟨hinv', ?_⟩
  cases reply with
  | ok value => exact hpost
  | error error => exact hpost

/-- What is true of the end stays true later on, if `Q` does. -/
theorem Keeps.grow {Q : Except ε β → σ → List (Entry C O) → Prop}
    (hstable : ∀ outcome s history s' history', ev.Grows s history s' history' →
      Q outcome s history → Q outcome s' history')
    {p : Prog C R ε β} {s s' : σ} {history history' : List (Entry C O)}
    (hgrows : ev.Grows s history s' history') (h : Keeps ev Inv Q p s history) :
    Keeps ev Inv Q p s' history' := by
  cases p with
  | ret value => exact hstable _ _ _ _ _ hgrows h
  | throw error => exact hstable _ _ _ _ _ hgrows h
  | call command next =>
    intro i choice reply t t' history'' hgrows' hinv hguard hexec
    exact h i choice reply t t' history'' (ev.trans hgrows hgrows') hinv hguard hexec

/-- The command keeps the invariant, whoever issues it and when. -/
def Harmless (guard : Guard C O E σ) (sys : System C R ε α σ O E)
    (Inv : σ → List (Entry C O) → Prop) (command : C) : Prop :=
  ∀ i choice reply s s' history, Inv s history → guard.command command choice s →
    sys.exec command choice s = some (reply, s') →
    Inv s' (entryOf i command choice reply :: history)

theorem Keeps.of_harmless {p : Prog C R ε β} (hp : p.All (Harmless guard sys Inv)) :
    ∀ (s : σ) (history : List (Entry C O)), Keeps ev Inv (fun _ _ _ => True) p s history := by
  induction p with
  | ret value => exact fun _ _ => trivial
  | throw error => exact fun _ _ => trivial
  | call command next ih =>
    intro s history i choice reply s' t history' _ hinv hguard hexec
    exact ⟨hp.1 i choice reply s' t history' hinv hguard hexec, ih reply (hp.2 reply) _ _⟩

/-- The same of a command issued while `F` holds. -/
def HarmlessWhile (guard : Guard C O E σ) (sys : System C R ε α σ O E)
    (Inv : σ → List (Entry C O) → Prop) (F : σ → Prop) (command : C) : Prop :=
  ∀ i choice reply s s' history, F s → Inv s history → guard.command command choice s →
    sys.exec command choice s = some (reply, s') →
    Inv s' (entryOf i command choice reply :: history)

/-- A fact that stays true makes the commands harmless that are so while it holds. -/
theorem Keeps.of_harmlessWhile {F : σ → Prop}
    (hstable : ∀ s history s' history', ev.Grows s history s' history' → F s → F s')
    {p : Prog C R ε β} (hp : p.All (HarmlessWhile guard sys Inv F)) :
    ∀ {s : σ} {history : List (Entry C O)}, F s → Keeps ev Inv (fun _ s' _ => F s') p s history := by
  induction p with
  | ret value => exact fun hs => hs
  | throw error => exact fun hs => hs
  | call command next ih =>
    intro s history hs i choice reply s' t history' hgrows hinv hguard hexec
    have hs' : F s' := hstable _ _ _ _ hgrows hs
    have hnow := ev.command (i := i) history' hguard hexec
    exact ⟨hp.1 i choice reply s' t history' hs' hinv hguard hexec,
      ih reply (hp.2 reply) (hstable _ _ _ _ hnow hs')⟩

/-- Continue after a program of harmless commands. -/
theorem Keeps.harmless_bind {Q : Except ε γ → σ → List (Entry C O) → Prop}
    {p : Prog C R ε β} {f : β → Prog C R ε γ} {s : σ} {history : List (Entry C O)}
    (hp : p.All (Harmless guard sys Inv))
    (hok : ∀ value s' history', ev.Grows s history s' history' →
      Keeps ev Inv Q (f value) s' history')
    (herr : ∀ error s' history', ev.Grows s history s' history' → Q (.error error) s' history') :
    Keeps ev Inv Q (p >>= f) s history := by
  refine Keeps.bind (P := fun _ s' history' => ev.Grows s history s' history') ?_
    (fun value s' history' hgrows _ => hok value s' history' hgrows) herr
  exact Keeps.mono (fun _ _ _ h => h.1)
    (Keeps.grown (ev.refl s history) (Keeps.of_harmless hp s history))

/-- A second invariant next to the first, which each command keeps while the first holds. -/
theorem Keeps.and {Inv' : σ → List (Entry C O) → Prop}
    {Q : Except ε β → σ → List (Entry C O) → Prop} {p : Prog C R ε β}
    (hp : p.All fun command => ∀ i choice reply s s' history, Inv s history → Inv' s history →
      guard.command command choice s → sys.exec command choice s = some (reply, s') →
      Inv' s' (entryOf i command choice reply :: history)) :
    ∀ {s : σ} {history : List (Entry C O)}, Keeps ev Inv Q p s history →
      Keeps ev (fun s history => Inv s history ∧ Inv' s history) Q p s history := by
  induction p with
  | ret value => exact fun h => h
  | throw error => exact fun h => h
  | call command next ih =>
    intro s history h i choice reply s' t history' hgrows hinv hguard hexec
    obtain ⟨hinv', hnext⟩ := h i choice reply s' t history' hgrows hinv.1 hguard hexec
    exact ⟨⟨hinv', hp.1 i choice reply s' t history' hinv.1 hinv.2 hguard hexec⟩,
      ih reply (hp.2 reply) hnext⟩

/-- What a program keeps depends on what commands do, and not on what they spawn. -/
theorem Keeps.of_exec {α' : Type} {sys' : System C R ε α' σ O E} {ev' : Evolution sys' guard}
    {Q : Except ε β → σ → List (Entry C O) → Prop} {p : Prog C R ε β} {s : σ}
    {history : List (Entry C O)} (h : Keeps ev Inv Q p s history)
    (hexec : ∀ command choice s, sys'.exec command choice s = sys.exec command choice s)
    (hgrows : ∀ s history s' history', ev'.Grows s history s' history' →
      ev.Grows s history s' history') : Keeps ev' Inv Q p s history := by
  induction p generalizing s history with
  | ret value => exact h
  | throw error => exact h
  | call command next ih =>
    intro i choice reply s' t history' hlater hinv hguard hran
    rw [hexec] at hran
    obtain ⟨hinv', hnext⟩ :=
      h i choice reply s' t history' (hgrows _ _ _ _ hlater) hinv hguard hran
    exact ⟨hinv', ih reply hnext⟩

/-- **Threads that keep the invariant keep it together**, and what they promise of
    their outcomes holds from then on.  Of a command that spawns a thread it is known
    that it has just been issued. -/
theorem Reach.outcomes_of_issued (ev : Evolution sys guard)
    {Q : Except ε α → σ → List (Entry C O) → Prop}
    (hstable : ∀ outcome s history s' history', ev.Grows s history s' history' →
      Q outcome s history → Q outcome s' history')
    {start p : Pool C R ε α σ O} (hreach : Reach sys guard start p)
    (hinv : Inv start.state start.history)
    (hthreads : ∀ thread ∈ start.threads, Keeps ev Inv Q thread start.state start.history)
    (hspawn : ∀ i command choice (reply : Except ε (R command)) s history,
      Inv s (entryOf i command choice reply :: history) → ∀ thread ∈ sys.spawns command,
        Keeps ev Inv Q thread s (entryOf i command choice reply :: history))
    (henv : ∀ event s s' history, Inv s history → guard.event event s →
      sys.env event s = some s' → Inv s' history) :
    Inv p.state p.history ∧ ∀ thread ∈ p.threads, Keeps ev Inv Q thread p.state p.history := by
  induction hreach with
  | refl => exact ⟨hinv, hthreads⟩
  | @move p p' m _ hadm hstep ih =>
    obtain ⟨hp, hall⟩ := ih
    cases m with
    | thread i choice =>
      simp only [System.step] at hstep
      split at hstep
      · rename_i command next hthread
        rw [Option.map_eq_some_iff] at hstep
        obtain ⟨⟨reply, s'⟩, hexec, rfl⟩ := hstep
        have hguard := hadm command next hthread
        have hgrows := ev.command (i := i) p.history hguard hexec
        obtain ⟨hinv', hnext⟩ := hall _ (List.mem_of_getElem? hthread) i choice reply p.state s'
          p.history (ev.refl _ _) hp hguard hexec
        refine ⟨hinv', fun thread hmem => ?_⟩
        rcases List.mem_append.mp hmem with hmem | hmem
        · rcases List.mem_or_eq_of_mem_set hmem with hmem | rfl
          · exact Keeps.grow hstable hgrows (hall thread hmem)
          · exact hnext
        · exact hspawn i command choice reply s' p.history hinv' thread hmem
      · cases hstep
    | env event =>
      simp only [System.step] at hstep
      rw [Option.map_eq_some_iff] at hstep
      obtain ⟨s', hexec, rfl⟩ := hstep
      exact ⟨henv event _ _ _ hp hadm hexec, fun thread hmem =>
        Keeps.grow hstable (ev.event _ hadm hexec) (hall thread hmem)⟩

/-- The same where a spawned thread is kept whatever it was spawned by. -/
theorem Reach.outcomes (ev : Evolution sys guard) {Q : Except ε α → σ → List (Entry C O) → Prop}
    (hstable : ∀ outcome s history s' history', ev.Grows s history s' history' →
      Q outcome s history → Q outcome s' history')
    {start p : Pool C R ε α σ O} (hreach : Reach sys guard start p)
    (hinv : Inv start.state start.history)
    (hthreads : ∀ thread ∈ start.threads, Keeps ev Inv Q thread start.state start.history)
    (hspawn : ∀ command thread s history, thread ∈ sys.spawns command →
      Keeps ev Inv Q thread s history)
    (henv : ∀ event s s' history, Inv s history → guard.event event s →
      sys.env event s = some s' → Inv s' history) :
    Inv p.state p.history ∧ ∀ thread ∈ p.threads, Keeps ev Inv Q thread p.state p.history :=
  Reach.outcomes_of_issued ev hstable hreach hinv hthreads
    (fun _ command _ _ s _ _ thread hmem => hspawn command thread s _ hmem) henv

/-- The same where nothing is said of outcomes and a command spawns harmless threads. -/
theorem Reach.keeps (ev : Evolution sys guard) {start p : Pool C R ε α σ O}
    (hreach : Reach sys guard start p)
    (hinv : Inv start.state start.history)
    (hthreads : ∀ thread ∈ start.threads,
      Keeps ev Inv (fun _ _ _ => True) thread start.state start.history)
    (hspawn : ∀ command thread, thread ∈ sys.spawns command →
      thread.All (Harmless guard sys Inv))
    (henv : ∀ event s s' history, Inv s history → guard.event event s →
      sys.env event s = some s' → Inv s' history) :
    Inv p.state p.history ∧ ∀ thread ∈ p.threads,
      Keeps ev Inv (fun _ _ _ => True) thread p.state p.history := by
  apply Reach.outcomes ev (fun _ _ _ _ _ _ _ => trivial) hreach hinv hthreads _ henv
  intro command thread s history hmem
  exact Keeps.of_harmless (hspawn command thread hmem) s history

/-- One thread keeps what it promises, whatever the others are. -/
theorem Reach.thread_keeps (ev : Evolution sys guard)
    {Q : Except ε α → σ → List (Entry C O) → Prop}
    (hstable : ∀ outcome s history s' history', ev.Grows s history s' history' →
      Q outcome s history → Q outcome s' history')
    {start p : Pool C R ε α σ O} (hreach : Reach sys guard start p) {i : Nat}
    {thread : Prog C R ε α} (hthread : start.threads[i]? = some thread)
    (hkeeps : Keeps ev (fun _ _ => True) Q thread start.state start.history) :
    ∃ thread', p.threads[i]? = some thread' ∧
      Keeps ev (fun _ _ => True) Q thread' p.state p.history := by
  induction hreach with
  | refl => exact ⟨thread, hthread, hkeeps⟩
  | @move p p' m _ hadm hstep ih =>
    obtain ⟨thread', hp, hkept⟩ := ih
    cases m with
    | thread j choice =>
      simp only [System.step] at hstep
      split at hstep
      · rename_i command next hmoving
        rw [Option.map_eq_some_iff] at hstep
        obtain ⟨⟨reply, s'⟩, hexec, rfl⟩ := hstep
        have hguard := hadm command next hmoving
        have hlt : i < p.threads.length := (List.getElem?_eq_some_iff.mp hp).1
        rw [List.getElem?_append_left (by simpa using hlt)]
        by_cases hij : j = i
        · subst hij
          rw [hp, Option.some.injEq] at hmoving
          subst hmoving
          obtain ⟨_, hnext⟩ :=
            hkept j choice reply p.state s' p.history (ev.refl _ _) trivial hguard hexec
          exact ⟨_, List.getElem?_set_self hlt, hnext⟩
        · rw [List.getElem?_set_ne hij]
          exact ⟨thread', hp, Keeps.grow hstable (ev.command p.history hguard hexec) hkept⟩
      · cases hstep
    | env event =>
      simp only [System.step] at hstep
      rw [Option.map_eq_some_iff] at hstep
      obtain ⟨s', hexec, rfl⟩ := hstep
      exact ⟨thread', hp, Keeps.grow hstable (ev.event _ hadm hexec) hkept⟩

end Keeps

/-! ### Programs that return -/

section Yields

variable {sys : System C R ε α σ O E} {guard : Guard C O E σ} (ev : Evolution sys guard)
  (Inv : σ → List (Entry C O) → Prop) {β γ : Type}

/-- Every command of the program keeps the invariant, and what it returns satisfies `P`;
    nothing is said of errors. -/
abbrev Yields (P : β → σ → List (Entry C O) → Prop) (p : Prog C R ε β) (s : σ)
    (history : List (Entry C O)) : Prop :=
  Keeps ev Inv (fun outcome s' history' => ∀ value, outcome = .ok value → P value s' history') p s
    history

variable {ev Inv} {P Q : β → σ → List (Entry C O) → Prop} {s : σ} {history : List (Entry C O)}

theorem Yields.ret {value : β} (h : P value s history) : Yields ev Inv P (.ret value) s history := by
  rintro _ ⟨⟩
  exact h

theorem Yields.throw (error : ε) : Yields ev Inv P (.throw error) s history := by
  rintro _ ⟨⟩

theorem Yields.mono {p : Prog C R ε β} (h : Yields ev Inv P p s history)
    (himp : ∀ value s' history', P value s' history' → Q value s' history') :
    Yields ev Inv Q p s history :=
  Keeps.mono (fun _ s' history' hpost value hvalue => himp value s' history' (hpost value hvalue)) h

theorem Yields.bind {P : γ → σ → List (Entry C O) → Prop} {p : Prog C R ε γ}
    {f : γ → Prog C R ε β} (hp : Yields ev Inv P p s history)
    (hf : ∀ value s' history', ev.Grows s history s' history' → P value s' history' →
      Yields ev Inv Q (f value) s' history') :
    Yields ev Inv Q (p >>= f) s history := by
  refine Keeps.bind hp ?_ ?_
  · intro value s' history' hgrows hpost
    exact hf value s' history' hgrows (hpost value rfl)
  · rintro error s' history' _ _ ⟨⟩

theorem Yields.map {f : γ → β} {p : Prog C R ε γ}
    (hp : Yields ev Inv (fun value s' history' => P (f value) s' history') p s history) :
    Yields ev Inv P (f <$> p) s history :=
  .bind hp fun _ _ _ _ h => .ret h

theorem Yields.perform {command : C} {P : R command → σ → List (Entry C O) → Prop}
    (h : ∀ i choice reply s' t history', ev.Grows s history s' history' → Inv s' history' →
      guard.command command choice s' → sys.exec command choice s' = some (reply, t) →
      Inv t (entryOf i command choice reply :: history') ∧
        ∀ value, reply = .ok value → P value t (entryOf i command choice reply :: history')) :
    Yields ev Inv P (Prog.perform command) s history :=
  Keeps.perform h

/-- Go on unless a check fails. -/
theorem Yields.unless {c : Prop} [Decidable c] {error : ε} {p : Prog C R ε β}
    (h : ¬c → Yields ev Inv P p s history) :
    Yields ev Inv P (if c then MonadExcept.throw error else p) s history := by
  by_cases hc : c
  · rw [if_pos hc]
    exact .throw error
  · rw [if_neg hc]
    exact h hc

/-- Both the program and what handles its errors return with `P`. -/
theorem Yields.tryCatch {p : Prog C R ε β} {handler : ε → Prog C R ε β}
    (hp : Yields ev Inv P p s history)
    (hh : ∀ error s' history', ev.Grows s history s' history' →
      Yields ev Inv P (handler error) s' history') :
    Yields ev Inv P (MonadExcept.tryCatch p handler) s history :=
  Keeps.tryCatch hp (fun _ _ _ h => h) fun error s' history' hgrows _ =>
    hh error s' history' hgrows

/-- Continue after a program of harmless commands. -/
theorem Yields.harmless_bind {p : Prog C R ε γ} {f : γ → Prog C R ε β}
    (hp : p.All (Harmless guard sys Inv))
    (hf : ∀ value s' history', ev.Grows s history s' history' →
      Yields ev Inv P (f value) s' history') : Yields ev Inv P (p >>= f) s history := by
  refine Keeps.harmless_bind hp hf ?_
  rintro error s' history' _ _ ⟨⟩

/-- Continue after a program that is harmless while a fact holds that stays true. -/
theorem Yields.while_bind {F : σ → Prop}
    (hstable : ∀ s history s' history', ev.Grows s history s' history' → F s → F s')
    {p : Prog C R ε γ} {f : γ → Prog C R ε β} (hp : p.All (HarmlessWhile guard sys Inv F))
    (hs : F s)
    (hf : ∀ value s' history', ev.Grows s history s' history' → F s' →
      Yields ev Inv P (f value) s' history') :
    Yields ev Inv P (p >>= f) s history := by
  have hkept : Keeps ev Inv (fun _ s' _ => F s') p s history := .of_harmlessWhile hstable hp hs
  refine Keeps.bind hkept hf ?_
  rintro error s' history' _ _ ⟨⟩

end Yields

end BrokeTurnkey.Interaction
