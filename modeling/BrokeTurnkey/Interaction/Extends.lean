import Mathlib.Data.List.Infix

/-!
# Tables that are only added to

A table whose rows are inserted at the end and updated in place keeps, of every row, the
columns no update names.  `Extends key` says so of the columns `key` picks out: what
was found by them is found again.
-/

namespace BrokeTurnkey.Interaction

variable {ρ κ : Type} {key : ρ → κ} {rows rows' rows'' : List ρ}

/-- The picked columns of the rows are those of the first rows of the later table. -/
def Extends (key : ρ → κ) (rows rows' : List ρ) : Prop := rows.map key <+: rows'.map key

namespace Extends

theorem refl (key : ρ → κ) (rows : List ρ) : Extends key rows rows := List.prefix_refl _

theorem trans (h : Extends key rows rows') (h' : Extends key rows' rows'') :
    Extends key rows rows'' :=
  List.IsPrefix.trans h h'

theorem of_eq (h : rows' = rows) : Extends key rows rows' := h ▸ refl key rows

theorem of_prefix (h : rows <+: rows') : Extends key rows rows' := h.map key

/-- An insert. -/
theorem append (key : ρ → κ) (rows added : List ρ) : Extends key rows (rows ++ added) :=
  of_prefix (List.prefix_append rows added)

/-- An update that keeps the picked columns. -/
theorem map {update : ρ → ρ} (hkey : ∀ row, key (update row) = key row) (rows : List ρ) :
    Extends key rows (rows.map update) := by
  have hsame : key ∘ update = key := funext hkey
  rw [Extends, List.map_map, hsame]

/-- A row is still there, with its picked columns. -/
theorem mem (h : Extends key rows rows') {row : ρ} (hrow : row ∈ rows) :
    ∃ row' ∈ rows', key row' = key row := by
  have hkey : key row ∈ rows'.map key := h.subset (List.mem_map_of_mem hrow)
  exact List.mem_map.mp hkey

/-- A lookup by the picked columns finds the same ones again. -/
theorem find? (h : Extends key rows rows') {P : κ → Bool} {row : ρ}
    (hrow : rows.find? (fun row => P (key row)) = some row) :
    ∃ row', rows'.find? (fun row => P (key row)) = some row' ∧ key row' = key row := by
  obtain ⟨added, hadded⟩ := h
  have hkeys : (rows.map key).find? P = some (key row) := by
    rw [List.find?_map, Option.map_eq_some_iff]
    exact ⟨row, hrow, rfl⟩
  have hlater : (rows'.map key).find? P = some (key row) := by
    rw [← hadded, List.find?_append, hkeys, Option.some_or]
  rw [List.find?_map, Option.map_eq_some_iff] at hlater
  exact hlater

end Extends

end BrokeTurnkey.Interaction
