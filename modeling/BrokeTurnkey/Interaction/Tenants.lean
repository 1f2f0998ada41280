import BrokeTurnkey.Interaction.Extends
import Mathlib.Data.List.Nodup

/-!
# Tables with several owners

The rows of one table belong to different owners, and a statement issued for one of
them should leave the rows of all others alone, in their order.  An insert does if the
new row is the owner's own.  An update by id does if some row with that id is, since
ids are not shared.
-/

namespace BrokeTurnkey.Interaction

variable {ρ ι κ ω : Type} {id : ρ → ι} {owner : ρ → ω} {mine : ω → Bool}
  {rows rows' rows'' : List ρ} {row : ρ} {update : ρ → ρ} {i : ι}

/-! ### Ids -/

/-- No two rows share an id. -/
def UniqueBy (id : ρ → ι) (rows : List ρ) : Prop := (rows.map id).Nodup

namespace UniqueBy

theorem nil (id : ρ → ι) : UniqueBy id [] := List.nodup_nil

theorem eq (h : UniqueBy id rows) {row row' : ρ} (hrow : row ∈ rows) (hrow' : row' ∈ rows)
    (hid : id row = id row') : row = row' :=
  List.inj_on_of_nodup_map h hrow hrow' hid

/-- An insert under an unused id. -/
theorem append (h : UniqueBy id rows) (hfresh : ∀ other ∈ rows, id other ≠ id row) :
    UniqueBy id (rows ++ [row]) := by
  rw [UniqueBy, List.map_append, List.nodup_append]
  refine ⟨h, List.nodup_singleton _, fun i hi i' hi' heq => ?_⟩
  obtain ⟨other, hother, rfl⟩ := List.mem_map.mp hi
  rw [List.map_singleton, List.mem_singleton] at hi'
  exact hfresh other hother (heq.trans hi')

/-- An update that keeps the ids. -/
theorem map (h : UniqueBy id rows) (hid : ∀ row, id (update row) = id row) :
    UniqueBy id (rows.map update) := by
  have hsame : id ∘ update = id := funext hid
  rw [UniqueBy, List.map_map, hsame]
  exact h

/-- Ids under another name. -/
theorem comp (h : UniqueBy id rows) {name : ι → κ} (hname : Function.Injective name) :
    UniqueBy (fun row => name (id row)) rows := by
  have hsame : rows.map (fun row => name (id row)) = (rows.map id).map name := by
    rw [List.map_map]
    rfl
  rw [UniqueBy, hsame]
  exact List.Nodup.map hname h

end UniqueBy

/-! ### A row of the owner -/

/-- A row of the owner has this id. -/
def Has (id : ρ → ι) (owner : ρ → ω) (mine : ω → Bool) (i : ι) (rows : List ρ) : Prop :=
  ∃ row ∈ rows, id row = i ∧ mine (owner row) = true

namespace Has

/-- No row of another owner has the id. -/
theorem ne (h : Has id owner mine i rows) (hunique : UniqueBy id rows) (hrow : row ∈ rows)
    (hnot : mine (owner row) = false) : id row ≠ i := by
  rintro rfl
  obtain ⟨other, hother, hid, hmine⟩ := h
  rw [hunique.eq hother hrow hid, hnot] at hmine
  cases hmine

/-- The row with the id is the owner's. -/
theorem mine_of_id (h : Has id owner mine i rows) (hunique : UniqueBy id rows) (hrow : row ∈ rows)
    (hid : id row = i) : mine (owner row) = true := by
  cases hmine : mine (owner row) with
  | true => rfl
  | false => exact absurd hid (h.ne hunique hrow hmine)

/-- Where ids and owners stay, the row stays. -/
theorem stays {key : ρ → κ} (h : Has id owner mine i rows) (hextends : Extends key rows rows')
    (hkey : ∀ row row', key row' = key row → id row' = id row ∧ owner row' = owner row) :
    Has id owner mine i rows' := by
  obtain ⟨row, hrow, rfl, hmine⟩ := h
  obtain ⟨row', hrow', hsame⟩ := hextends.mem hrow
  obtain ⟨hid, howner⟩ := hkey row row' hsame
  exact ⟨row', hrow', hid, howner ▸ hmine⟩

theorem of_prefix (h : Has id owner mine i rows) (hinitial : rows <+: rows') :
    Has id owner mine i rows' := by
  obtain ⟨row, hrow, hown⟩ := h
  exact ⟨row, hinitial.subset hrow, hown⟩

/-- The id under another name. -/
theorem comp (h : Has id owner mine i rows) (name : ι → κ) :
    Has (fun row => name (id row)) owner mine (name i) rows := by
  obtain ⟨row, hrow, rfl, hmine⟩ := h
  exact ⟨row, hrow, rfl, hmine⟩

end Has

/-! ### Rows of the others -/

/-- The rows that are not of one owner are the same before and after. -/
def Spares (owner : ρ → ω) (mine : ω → Bool) (rows rows' : List ρ) : Prop :=
  (rows'.filter fun row => !mine (owner row)) = rows.filter fun row => !mine (owner row)

namespace Spares

theorem refl (owner : ρ → ω) (mine : ω → Bool) (rows : List ρ) : Spares owner mine rows rows := rfl

theorem trans (h : Spares owner mine rows rows') (h' : Spares owner mine rows' rows'') :
    Spares owner mine rows rows'' :=
  Eq.trans h' h

theorem of_eq (h : rows' = rows) : Spares owner mine rows rows' := h ▸ refl owner mine rows

/-- What spares all but some owners spares all but more. -/
theorem mono {mine' : ω → Bool} (h : Spares owner mine rows rows')
    (hmine : ∀ other, mine other = true → mine' other = true) :
    Spares owner mine' rows rows' := by
  have hfilter : ∀ rows : List ρ, rows.filter (fun row => !mine' (owner row)) =
      (rows.filter fun row => !mine (owner row)).filter fun row => !mine' (owner row) := by
    intro rows
    rw [List.filter_filter]
    refine List.filter_congr fun row _ => ?_
    cases hrow : mine (owner row) with
    | true => simp [hmine _ hrow]
    | false => simp
  rw [Spares, hfilter rows', h, ← hfilter rows]

/-- The others have the rows they had. -/
theorem mem_iff (h : Spares owner mine rows rows') (hrow : mine (owner row) = false) :
    row ∈ rows' ↔ row ∈ rows := by
  have hfilter : row ∈ rows'.filter (fun row => !mine (owner row)) ↔
      row ∈ rows.filter fun row => !mine (owner row) := by
    rw [h]
  simpa [hrow] using hfilter

/-- An insert of a row of the owner. -/
theorem append (hrow : mine (owner row) = true) : Spares owner mine rows (rows ++ [row]) := by
  rw [Spares, List.filter_append]
  simp [hrow]

/-- An update that keeps the owners and changes no row of another one. -/
theorem map (howner : ∀ row, owner (update row) = owner row)
    (hfixed : ∀ row ∈ rows, mine (owner row) = false → update row = row) :
    Spares owner mine rows (rows.map update) := by
  rw [Spares]
  induction rows with
  | nil => rfl
  | cons row rest ih =>
    have hrest := ih fun other hother => hfixed other (List.mem_cons_of_mem _ hother)
    rw [List.map_cons, List.filter_cons, List.filter_cons, howner, hrest]
    split
    · rename_i hnot
      rw [hfixed row List.mem_cons_self (Bool.not_eq_true' _ ▸ hnot)]
    · rfl

/-- An update of the rows with one id, where a row of the owner has it. -/
theorem map_id (hunique : UniqueBy id rows) (hhas : Has id owner mine i rows)
    (howner : ∀ other, owner (update other) = owner other)
    (hupdate : ∀ other, id other ≠ i → update other = other) :
    Spares owner mine rows (rows.map update) :=
  map howner fun other hother hnot => hupdate other (hhas.ne hunique hother hnot)

end Spares

end BrokeTurnkey.Interaction
