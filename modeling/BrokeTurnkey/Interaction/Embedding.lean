import BrokeTurnkey.Interaction.Evolving
import BrokeTurnkey.Interaction.Sequential

/-!
# Programs inside a larger interface

A program over one set of commands is also a program over a larger one.  `lift`
renames its commands, and an `Embedding` says that the larger system answers the
renamed commands as the smaller one does, on the part of its state the smaller one
sees.  The runs of a program over the smaller state are then runs over the larger one.
-/

namespace BrokeTurnkey.Interaction

variable {C C' : Type} {R : C → Type} {R' : C' → Type} {ε α β γ σ σ' O E E' : Type}

namespace Prog

/-- Issue the commands under other names.  `back` reads a reply of the larger
    interface as one of the smaller. -/
def lift (name : C → C') (back : ∀ c, Except ε (R' (name c)) → Except ε (R c)) :
    Prog C R ε α → Prog C' R' ε α
  | .ret value => .ret value
  | .throw error => .throw error
  | .call command next => .call (name command) fun reply => (next (back command reply)).lift name back

variable {name : C → C'} {back : ∀ c, Except ε (R' (name c)) → Except ε (R c)}

theorem All.lift {P : C' → Prop} {p : Prog C R ε α} (h : p.All fun command => P (name command)) :
    (p.lift name back).All P := by
  induction p with
  | ret value => trivial
  | throw error => trivial
  | call command next ih => exact ⟨h.1, fun reply => ih _ (h.2 _)⟩

end Prog

/-- The larger system answers the commands of the smaller one on what the smaller one
    sees of its state, and keeps the rest. -/
structure Embedding (sys : System C R ε α σ O E) (sys' : System C' R' ε β σ' O E')
    (name : C → C') (back : ∀ c, Except ε (R' (name c)) → Except ε (R c)) (view : σ' → σ)
    (put : σ' → σ → σ') : Prop where
  put_view : ∀ s, put s (view s) = s
  answers : ∀ {command choice s reply t}, sys.exec command choice (view s) = some (reply, t) →
    ∃ reply', back command reply' = reply ∧
      sys'.exec (name command) choice s = some (reply', put s t) ∧ view (put s t) = t ∧
      ∀ u, put (put s t) u = put s u

section Embedding

variable {sys : System C R ε α σ O E} {sys' : System C' R' ε β σ' O E'} {name : C → C'}
  {back : ∀ c, Except ε (R' (name c)) → Except ε (R c)} {view : σ' → σ} {put : σ' → σ → σ'}

/-- A run over the smaller state is a run over the larger one. -/
theorem Embedding.completes (h : Embedding sys sys' name back view put) {p : Prog C R ε γ}
    {s t : σ} {history history₁ : List (Entry C O)} {outcome : Except ε γ}
    (hrun : Completes sys .any p s history outcome t history₁) :
    ∀ {s' : σ'} (history' : List (Entry C' O)), view s' = s →
      ∃ history₁', Completes sys' .any (p.lift name back) s' history' outcome (put s' t)
        history₁' := by
  induction hrun with
  | ret value s history =>
    rintro s' history' rfl
    rw [h.put_view]
    exact ⟨history', .ret value s' history'⟩
  | throw error s history =>
    rintro s' history' rfl
    rw [h.put_view]
    exact ⟨history', .throw error s' history'⟩
  | @call command next choice s s₁ t history history₁ reply outcome _ hexec _ ih =>
    rintro s' history' rfl
    obtain ⟨reply', rfl, hexec', hview, hput⟩ := h.answers hexec
    obtain ⟨history₁', hrun'⟩ := ih (entryOf 0 (name command) choice reply' :: history') hview
    rw [hput] at hrun'
    exact ⟨history₁', .call trivial hexec' hrun'⟩

theorem Embedding.attains (h : Embedding sys sys' name back view put) {p : Prog C R ε γ}
    {s : σ'} {t : σ} {outcome : Except ε γ} (hp : Attains sys .any p (view s) outcome t) :
    Attains sys' .any (p.lift name back) s outcome (put s t) := by
  intro history'
  obtain ⟨history₁, hrun⟩ := hp []
  exact h.completes hrun history' rfl

/-- Where the larger system answers a renamed command only as the smaller one does, what
    the runs over the smaller state meet, the runs over the larger one meet. -/
theorem Embedding.meets (h : Embedding sys sys' name back view put)
    (honly : ∀ {command choice s reply s'}, sys'.exec (name command) choice s = some (reply, s') →
      ∃ t, sys.exec command choice (view s) = some (back command reply, t) ∧ s' = put s t)
    {Q : Except ε γ → σ → Prop} {p : Prog C R ε γ} :
    ∀ {s : σ'} {history : List (Entry C O)} {history' : List (Entry C' O)},
      Meets sys .any (fun outcome t _ => Q outcome t) p (view s) history →
      Meets sys' .any (fun outcome s' _ => ∃ t, Q outcome t ∧ s' = put s t) (p.lift name back) s
        history' := by
  induction p with
  | ret value => exact fun {s} _ _ hp => ⟨view s, hp, (h.put_view s).symm⟩
  | throw error => exact fun {s} _ _ hp => ⟨view s, hp, (h.put_view s).symm⟩
  | call command next ih =>
    intro s history history' hp choice reply s' _ hexec
    obtain ⟨t, hanswer, rfl⟩ := honly hexec
    obtain ⟨_, _, _, hview, hput⟩ := h.answers hanswer
    have hnext := hp choice _ t trivial hanswer
    rw [← hview] at hnext
    refine (ih _ hnext).mono ?_
    rintro outcome s' _ ⟨u, hu, rfl⟩
    exact ⟨u, hu, hput u⟩

theorem Embedding.returns (h : Embedding sys sys' name back view put)
    (honly : ∀ {command choice s reply s'}, sys'.exec (name command) choice s = some (reply, s') →
      ∃ t, sys.exec command choice (view s) = some (back command reply, t) ∧ s' = put s t)
    {P : γ → σ → Prop} {p : Prog C R ε γ} {s : σ'} (hp : Returns sys .any P p (view s)) :
    Returns sys' .any (fun value s' => ∃ t, P value t ∧ s' = put s t) (p.lift name back) s := by
  intro history
  refine (h.meets honly (Q := fun outcome t => ∀ value, outcome = .ok value → P value t)
    (hp [])).mono ?_
  rintro outcome s' _ ⟨t, ht, rfl⟩ value hvalue
  exact ⟨t, ht value hvalue, rfl⟩

/-- A program that keeps an invariant of the smaller system keeps it in the larger one,
    next to whatever else is known there.  `past` is what the smaller system sees of a
    history. -/
theorem Embedding.keeps_guarded (h : Embedding sys sys' name back view put)
    (honly : ∀ {command choice s reply s'}, sys'.exec (name command) choice s = some (reply, s') →
      ∃ t, sys.exec command choice (view s) = some (back command reply, t) ∧ s' = put s t)
    {guard : Guard C O E σ} {guard' : Guard C' O E' σ'}
    (hguard : ∀ {command choice s}, guard'.command (name command) choice s →
      guard.command command choice (view s))
    {past : List (Entry C' O) → List (Entry C O)}
    (hpast : ∀ i command choice (reply : Except ε (R' (name command))) history,
      past (entryOf i (name command) choice reply :: history) =
        entryOf i command choice (back command reply) :: past history)
    {ev : Evolution sys guard} {ev' : Evolution sys' guard'}
    (hgrows : ∀ {s history s' history'}, ev'.Grows s history s' history' →
      ev.Grows (view s) (past history) (view s') (past history'))
    {J : σ → List (Entry C O) → Prop} {Rest : σ' → List (Entry C' O) → Prop}
    (hrest : ∀ i command choice (reply : Except ε (R' (name command))) s t history,
      Rest s history → Rest (put s t) (entryOf i (name command) choice reply :: history))
    {Q : Except ε γ → σ → List (Entry C O) → Prop} {p : Prog C R ε γ} :
    ∀ {s : σ'} {history : List (Entry C' O)}, Keeps ev J Q p (view s) (past history) →
      Keeps ev' (fun s' history' => J (view s') (past history') ∧ Rest s' history')
        (fun outcome s' history' => Q outcome (view s') (past history')) (p.lift name back) s
        history := by
  induction p with
  | ret value => exact fun hp => hp
  | throw error => exact fun hp => hp
  | call command next ih =>
    intro s history hp i choice reply s' t history' hlater hinv hadm hexec
    obtain ⟨u, hanswer, rfl⟩ := honly hexec
    obtain ⟨_, _, _, hview, _⟩ := h.answers hanswer
    obtain ⟨hkept, hnext⟩ := hp i choice _ (view s') u (past history') (hgrows hlater) hinv.1
      (hguard hadm) hanswer
    rw [← hpast, ← hview] at hkept hnext
    exact ⟨⟨hkept, hrest i command choice reply s' u history' hinv.2⟩, ih _ hnext⟩

/-- The same where all choices are admitted. -/
theorem Embedding.keeps (h : Embedding sys sys' name back view put)
    (honly : ∀ {command choice s reply s'}, sys'.exec (name command) choice s = some (reply, s') →
      ∃ t, sys.exec command choice (view s) = some (back command reply, t) ∧ s' = put s t)
    {past : List (Entry C' O) → List (Entry C O)}
    (hpast : ∀ i command choice (reply : Except ε (R' (name command))) history,
      past (entryOf i (name command) choice reply :: history) =
        entryOf i command choice (back command reply) :: past history)
    {ev : Evolution sys .any} {ev' : Evolution sys' .any}
    (hgrows : ∀ {s history s' history'}, ev'.Grows s history s' history' →
      ev.Grows (view s) (past history) (view s') (past history'))
    {J : σ → List (Entry C O) → Prop} {Rest : σ' → List (Entry C' O) → Prop}
    (hrest : ∀ i command choice (reply : Except ε (R' (name command))) s t history,
      Rest s history → Rest (put s t) (entryOf i (name command) choice reply :: history))
    {Q : Except ε γ → σ → List (Entry C O) → Prop} {p : Prog C R ε γ} {s : σ'}
    {history : List (Entry C' O)} (hp : Keeps ev J Q p (view s) (past history)) :
    Keeps ev' (fun s' history' => J (view s') (past history') ∧ Rest s' history')
      (fun outcome s' history' => Q outcome (view s') (past history')) (p.lift name back) s
      history :=
  h.keeps_guarded honly (fun _ => trivial) hpast hgrows hrest hp

end Embedding

end BrokeTurnkey.Interaction
