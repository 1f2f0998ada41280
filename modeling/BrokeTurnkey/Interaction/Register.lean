import Mathlib.Data.List.Nodup

/-!
# Registers and their journals

A register is a table of rows that are added and later ended; a journal is a log of
entries that say that something was opened or closed.  From the entries of one owner the
ids that were opened and never closed can be computed, and the journal accounts for the
register if for every owner these are the ids of the rows that stand.
-/

namespace BrokeTurnkey.Interaction

variable {ρ ε ι ω : Type}

/-- What is read of a row: its id, its owner, and whether it stands. -/
structure Register (ρ ι ω : Type) where
  id : ρ → ι
  owner : ρ → ω
  stands : ρ → Bool

/-- What is read of an entry: its owner, and the id it opens or closes. -/
structure Journal (ε ι ω : Type) where
  owner : ε → ω
  opens : ε → Option ι
  closes : ε → Option ι

/-- The entries of one owner. -/
def Journal.entriesOf [DecidableEq ω] (j : Journal ε ι ω) (o : ω) (log : List ε) : List ε :=
  log.filter fun e => j.owner e = o

/-- The ids that some entry opens and none closes. -/
def Journal.standing [DecidableEq ι] (j : Journal ε ι ω) (log : List ε) : List ι :=
  (log.filterMap j.opens).filter fun i => i ∉ log.filterMap j.closes

/-- The update ends the row and leaves the rows with other ids alone. -/
structure Register.Ends (r : Register ρ ι ω) (row : ρ) (update : ρ → ρ) : Prop where
  id : ∀ other, r.id (update other) = r.id other
  owner : ∀ other, r.owner (update other) = r.owner other
  others : ∀ other, r.id other ≠ r.id row → update other = other
  ended : r.stands (update row) = false

/-- The entry says what the row is: that it was opened, or that it was closed. -/
def Journal.Describes (j : Journal ε ι ω) (r : Register ρ ι ω) (e : ε) (row : ρ) : Prop :=
  j.owner e = r.owner row ∧
    (if r.stands row then j.opens e else j.closes e) = some (r.id row)

theorem Journal.describes_opened {r : Register ρ ι ω} {j : Journal ε ι ω} {e : ε} {row : ρ}
    (howner : j.owner e = r.owner row) (hstands : r.stands row = true)
    (hopens : j.opens e = some (r.id row)) : j.Describes r e row := by
  refine ⟨howner, ?_⟩
  rw [if_pos hstands]
  exact hopens

theorem Journal.describes_closed {r : Register ρ ι ω} {j : Journal ε ι ω} {e : ε} {row : ρ}
    {update : ρ → ρ} (hends : r.Ends row update) (howner : j.owner e = r.owner row)
    (hcloses : j.closes e = some (r.id row)) : j.Describes r e (update row) := by
  refine ⟨howner.trans (hends.owner row).symm, ?_⟩
  rw [hends.ended, if_neg Bool.false_ne_true, hends.id]
  exact hcloses

/-! ### Changes that are recorded -/

section Recorded

variable {id : ρ → ι} {describes : ε → ρ → Prop} {rows : List ρ} {written : List ε} {row : ρ} {e : ε}

/-- No row is removed, and every row that is new or not as it was is described by an
    entry. -/
def Recorded (id : ρ → ι) (describes : ε → ρ → Prop) (rows rows' : List ρ) (written : List ε) :
    Prop :=
  (∀ row ∈ rows, ∃ row' ∈ rows', id row' = id row) ∧
    ∀ row ∈ rows', row ∉ rows → ∃ e ∈ written, describes e row

theorem Recorded.refl (id : ρ → ι) (describes : ε → ρ → Prop) (rows : List ρ) (written : List ε) :
    Recorded id describes rows rows written :=
  ⟨fun row hrow => ⟨row, hrow, rfl⟩, fun _ hrow hnew => absurd hrow hnew⟩

theorem Recorded.append (he : e ∈ written) (hdescribes : describes e row) :
    Recorded id describes rows (rows ++ [row]) written := by
  constructor
  · intro old hold
    exact ⟨old, List.mem_append_left _ hold, rfl⟩
  · intro new hnew hnot
    rcases List.mem_append.mp hnew with hold | hadded
    · exact absurd hold hnot
    · rw [List.mem_singleton.mp hadded]
      exact ⟨e, he, hdescribes⟩

/-- A row is ended, where ids are not shared. -/
theorem Recorded.ended {r : Register ρ ι ω} {update : ρ → ρ} (hids : (rows.map r.id).Nodup)
    (hrow : row ∈ rows) (hends : r.Ends row update) (he : e ∈ written)
    (hdescribes : describes e (update row)) :
    Recorded r.id describes rows (rows.map update) written := by
  constructor
  · intro old hold
    exact ⟨update old, List.mem_map_of_mem hold, hends.id old⟩
  · intro new hnew hnot
    obtain ⟨old, hold, rfl⟩ := List.mem_map.mp hnew
    by_cases hsame : r.id old = r.id row
    · rw [List.inj_on_of_nodup_map hids hold hrow hsame]
      exact ⟨e, he, hdescribes⟩
    · rw [hends.others old hsame] at hnot
      exact absurd hold hnot

end Recorded

section Accounts

variable [DecidableEq ι] [DecidableEq ω] {r : Register ρ ι ω} {j : Journal ε ι ω} {rows : List ρ}
  {log : List ε} {row : ρ} {e : ε}

/-! ### Journals that account for their register -/

/-- The ids that stand are those the journal of the owner alone yields. -/
def Recomputes (r : Register ρ ι ω) (j : Journal ε ι ω) (rows : List ρ) (log : List ε) : Prop :=
  ∀ o i, i ∈ j.standing (j.entriesOf o log) ↔
    ∃ row ∈ rows, r.owner row = o ∧ r.id row = i ∧ r.stands row = true

theorem mem_standing {o : ω} {i : ι} :
    i ∈ j.standing (j.entriesOf o log) ↔
      (∃ e ∈ log, j.owner e = o ∧ j.opens e = some i) ∧
        ∀ e ∈ log, j.owner e = o → j.closes e ≠ some i := by
  simp only [Journal.standing, Journal.entriesOf, List.mem_filter, List.mem_filterMap,
    decide_eq_true_eq, not_exists, not_and, and_assoc]

/-- The journal accounts for the register: ids are not shared, the entries name rows of
    their owner, and what stands can be recomputed. -/
structure Accounts (r : Register ρ ι ω) (j : Journal ε ι ω) (rows : List ρ) (log : List ε) :
    Prop where
  ids : (rows.map r.id).Nodup
  named : ∀ e ∈ log, ∀ i, j.opens e = some i ∨ j.closes e = some i →
    ∃ row ∈ rows, r.owner row = j.owner e ∧ r.id row = i
  recomputes : Recomputes r j rows log

namespace Accounts

theorem nil : Accounts r j [] [] where
  ids := List.nodup_nil
  named := fun e he => absurd he List.not_mem_nil
  recomputes := fun o i => by simp [Journal.standing, Journal.entriesOf]

/-- An entry that opens and closes nothing. -/
theorem silent (h : Accounts r j rows log) (hopens : j.opens e = none)
    (hcloses : j.closes e = none) : Accounts r j rows (log ++ [e]) where
  ids := h.ids
  named := by
    intro e' he' i hnamed
    rcases List.mem_append.mp he' with hold | hadded
    · exact h.named e' hold i hnamed
    · rw [List.mem_singleton.mp hadded, hopens, hcloses] at hnamed
      simp at hnamed
  recomputes := by
    intro o i
    rw [← h.recomputes o i, mem_standing, mem_standing]
    simp [or_and_right, exists_or, forall_and, or_imp, hopens, hcloses]

/-- A row is added under an unused id, and an entry opens it. -/
theorem opened (h : Accounts r j rows log) (hfresh : ∀ other ∈ rows, r.id other ≠ r.id row)
    (hstands : r.stands row = true) (howner : j.owner e = r.owner row)
    (hopens : j.opens e = some (r.id row)) (hcloses : j.closes e = none) :
    Accounts r j (rows ++ [row]) (log ++ [e]) where
  ids := by
    rw [List.map_append, List.nodup_append]
    refine ⟨h.ids, by simp, ?_⟩
    rintro _ hold _ hadded rfl
    obtain ⟨other, hother, hid⟩ := List.mem_map.mp hold
    exact hfresh other hother (hid.trans (List.mem_singleton.mp hadded))
  named := by
    intro e' he' i hnamed
    rcases List.mem_append.mp he' with hold | hadded
    · obtain ⟨other, hother, hsame⟩ := h.named e' hold i hnamed
      exact ⟨other, List.mem_append_left _ hother, hsame⟩
    · rw [List.mem_singleton.mp hadded, hopens, hcloses] at hnamed
      refine ⟨row, List.mem_append_right _ List.mem_cons_self, ?_, by simpa using hnamed⟩
      rw [List.mem_singleton.mp hadded, howner]
  recomputes := by
    intro o i
    -- no earlier entry closes the new id
    have hnot : ∀ e' ∈ log, j.closes e' ≠ some (r.id row) := by
      intro e' he' hclosed
      obtain ⟨other, hother, _, hid⟩ := h.named e' he' _ (.inr hclosed)
      exact hfresh other hother hid
    have hold := h.recomputes o i
    rw [mem_standing] at hold ⊢
    simp only [List.mem_append, List.mem_singleton, or_and_right, exists_or, or_imp, forall_and,
      forall_eq, exists_eq_left, hcloses, hopens]
    grind

/-- A row is ended, and an entry closes it. -/
theorem closed {update : ρ → ρ} (h : Accounts r j rows log) (hrow : row ∈ rows)
    (hends : r.Ends row update) (howner : j.owner e = r.owner row) (hopens : j.opens e = none)
    (hcloses : j.closes e = some (r.id row)) :
    Accounts r j (rows.map update) (log ++ [e]) where
  ids := by
    have hsame : r.id ∘ update = r.id := funext hends.id
    rw [List.map_map, hsame]
    exact h.ids
  named := by
    intro e' he' i hnamed
    rcases List.mem_append.mp he' with hold | hadded
    · obtain ⟨other, hother, hown, hi⟩ := h.named e' hold i hnamed
      exact ⟨update other, List.mem_map_of_mem hother, (hends.owner other).trans hown,
        (hends.id other).trans hi⟩
    · rw [List.mem_singleton.mp hadded, hopens, hcloses] at hnamed
      refine ⟨update row, List.mem_map_of_mem hrow, ?_, ?_⟩
      · rw [List.mem_singleton.mp hadded, hends.owner, howner]
      · rw [hends.id]
        simpa using hnamed
  recomputes := by
    intro o i
    have hold := h.recomputes o i
    rw [mem_standing] at hold ⊢
    simp only [List.mem_append, List.mem_singleton, or_and_right, exists_or, or_imp, forall_and,
      forall_eq, exists_eq_left, hcloses, hopens, List.mem_map, exists_exists_and_eq_and,
      hends.id, hends.owner]
    have hothers := hends.others
    have hended := hends.ended
    by_cases hi : r.id row = i
    · -- no other row has the id
      have hsame : ∀ other ∈ rows, r.id other = i → other = row := fun other hother hother' =>
        List.inj_on_of_nodup_map h.ids hother hrow (hother'.trans hi.symm)
      grind
    · grind

end Accounts

end Accounts

end BrokeTurnkey.Interaction
