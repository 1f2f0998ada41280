import Mathlib.Data.List.Forall2

/-!
# Tables whose rows only advance

A table that is added to at the end, and whose rows are updated in place along an order,
keeps of every row what the order keeps: a row that has reached a state from which the
order does not lead back stays there, and what was found by columns the order keeps is
found again.
-/

namespace BrokeTurnkey.Interaction

variable {ρ : Type} {R : ρ → ρ → Prop} {rows rows' rows'' : List ρ}

/-- The first rows of the later table are those of the earlier one, each advanced. -/
def Advances (R : ρ → ρ → Prop) (rows rows' : List ρ) : Prop :=
  ∃ updated, List.Forall₂ R rows updated ∧ updated <+: rows'

namespace Advances

theorem refl (hrefl : ∀ row, R row row) (rows : List ρ) : Advances R rows rows :=
  ⟨rows, List.forall₂_same.mpr fun row _ => hrefl row, List.prefix_refl _⟩

theorem of_eq (hrefl : ∀ row, R row row) (h : rows' = rows) : Advances R rows rows' :=
  h ▸ refl hrefl rows

theorem of_prefix (hrefl : ∀ row, R row row) (h : rows <+: rows') : Advances R rows rows' :=
  ⟨rows, List.forall₂_same.mpr fun row _ => hrefl row, h⟩

theorem forall₂_trans {l l' l'' : List ρ}
    (htrans : ∀ {row row' row''}, R row row' → R row' row'' → R row row'')
    (h : List.Forall₂ R l l') (h' : List.Forall₂ R l' l'') : List.Forall₂ R l l'' := by
  induction h generalizing l'' with
  | nil => exact h'
  | cons hrow _ ih =>
    cases h' with
    | cons hrow' hrest => exact .cons (htrans hrow hrow') (ih hrest)

theorem trans (htrans : ∀ {row row' row''}, R row row' → R row' row'' → R row row'')
    (h : Advances R rows rows') (h' : Advances R rows' rows'') : Advances R rows rows'' := by
  obtain ⟨updated, hupdated, added, rfl⟩ := h
  obtain ⟨later, hlater, hinitial⟩ := h'
  have hfirst : List.Forall₂ R updated (later.take updated.length) := by
    simpa using List.forall₂_take updated.length hlater
  refine ⟨later.take updated.length, ?_, (List.take_prefix _ _).trans hinitial⟩
  exact forall₂_trans htrans hupdated hfirst

/-- An insert. -/
theorem append (hrefl : ∀ row, R row row) (rows added : List ρ) :
    Advances R rows (rows ++ added) :=
  of_prefix hrefl (List.prefix_append rows added)

/-- An update that advances the rows. -/
theorem map {update : ρ → ρ} (h : ∀ row, R row (update row)) (rows : List ρ) :
    Advances R rows (rows.map update) := by
  refine ⟨rows.map update, ?_, List.prefix_refl _⟩
  rw [List.forall₂_map_right_iff]
  exact List.forall₂_same.mpr fun row _ => h row

/-- A row is still there, advanced. -/
theorem mem (h : Advances R rows rows') {row : ρ} (hrow : row ∈ rows) :
    ∃ row' ∈ rows', R row row' := by
  obtain ⟨updated, hupdated, hinitial⟩ := h
  obtain ⟨i, hi, rfl⟩ := List.getElem_of_mem hrow
  have hlt : i < updated.length := hupdated.length_eq ▸ hi
  exact ⟨updated[i], hinitial.subset (List.getElem_mem hlt), hupdated.get hi hlt⟩

/-- What is found by such columns is the row that was found before, advanced. -/
theorem find? {P : ρ → Bool} (hkeeps : ∀ row row', R row row' → P row' = P row)
    (h : Advances R rows rows') {row : ρ} (hrow : rows.find? P = some row) :
    ∃ row', rows'.find? P = some row' ∧ R row row' := by
  obtain ⟨updated, hupdated, added, rfl⟩ := h
  rw [List.find?_append]
  induction hupdated with
  | nil => cases hrow
  | @cons first first' rest rest' hfirst _ ih =>
    rw [List.find?_cons] at hrow
    rw [List.find?_cons, hkeeps first first' hfirst]
    split at hrow
    · cases hrow
      exact ⟨first', rfl, hfirst⟩
    · exact ih hrow

end Advances

end BrokeTurnkey.Interaction
