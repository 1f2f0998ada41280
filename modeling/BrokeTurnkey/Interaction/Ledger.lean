import Mathlib.Logic.Function.Basic

/-!
# Counters that hand out numbers

A counter for each slot hands out numbers to holders.  It can be advanced by the
holder of a new number, rewound by the holder of the newest one, and raised by
anybody.  `Ledger` is the invariant that makes all three safe: every number that
is out is below its counter, and no two holders have the same number of a slot.

A holder has at most one number at a time, and holds what it does not give back
for good.
-/

namespace BrokeTurnkey.Interaction

variable {S : Type}

/-- Who holds which number of which slot, against the counters. -/
structure Ledger (counter : S → Option Int) (ticket : Nat → Option (S × Int)) : Prop where
  below : ∀ {i slot n}, ticket i = some (slot, n) → ∃ c, counter slot = some c ∧ n < c
  distinct : ∀ {i j slot n}, ticket i = some (slot, n) → ticket j = some (slot, n) → i = j

namespace Ledger

variable {counter : S → Option Int} {ticket : Nat → Option (S × Int)}
  {slot : S} {i : Nat}

/-- Raising a counter, or starting one, keeps every number below it. -/
theorem raise [DecidableEq S] (h : Ledger counter ticket) {m : Int}
    (hm : ∀ c, counter slot = some c → c ≤ m) :
    Ledger (Function.update counter slot (some m)) ticket := by
  refine ⟨fun {j slot' n} hj => ?_, h.distinct⟩
  obtain ⟨c, hc, hlt⟩ := h.below hj
  by_cases heq : slot' = slot
  · subst heq
    rw [Function.update_self]
    exact ⟨m, rfl, Int.lt_of_lt_of_le hlt (hm c hc)⟩
  · rw [Function.update_of_ne heq]
    exact ⟨c, hc, hlt⟩

/-- A holder may give a number up without telling the counter. -/
theorem drop (h : Ledger counter ticket) (i : Nat) :
    Ledger counter (Function.update ticket i none) := by
  have hkeep : ∀ {j t}, Function.update ticket i none j = some t → ticket j = some t := by
    intro j t hj
    by_cases hji : j = i
    · rw [hji, Function.update_self] at hj
      cases hj
    · rwa [Function.update_of_ne hji] at hj
  exact ⟨fun hj => h.below (hkeep hj), fun hj hk => h.distinct (hkeep hj) (hkeep hk)⟩

/-- The holder takes a number no one else has, below the counter. -/
theorem take (h : Ledger counter ticket) {n c : Int} (hc : counter slot = some c) (hlt : n < c)
    (hfree : ∀ j, j ≠ i → ticket j ≠ some (slot, n)) :
    Ledger counter (Function.update ticket i (some (slot, n))) := by
  refine ⟨fun {j slot' m} hj => ?_, fun {j k slot' m} hj hk => ?_⟩
  · by_cases hji : j = i
    · rw [hji, Function.update_self, Option.some.injEq, Prod.mk.injEq] at hj
      obtain ⟨rfl, rfl⟩ := hj
      exact ⟨c, hc, hlt⟩
    · rw [Function.update_of_ne hji] at hj
      exact h.below hj
  · by_cases hji : j = i <;> by_cases hki : k = i
    · rw [hji, hki]
    · rw [hji, Function.update_self, Option.some.injEq, Prod.mk.injEq] at hj
      obtain ⟨rfl, rfl⟩ := hj
      rw [Function.update_of_ne hki] at hk
      exact absurd hk (hfree k hki)
    · rw [hki, Function.update_self, Option.some.injEq, Prod.mk.injEq] at hk
      obtain ⟨rfl, rfl⟩ := hk
      rw [Function.update_of_ne hji] at hj
      exact absurd hj (hfree j hji)
    · rw [Function.update_of_ne hji] at hj
      rw [Function.update_of_ne hki] at hk
      exact h.distinct hj hk

/-- Numbers at or above the counter are not out. -/
theorem free (h : Ledger counter ticket) {n : Int} (hn : ∀ c, counter slot = some c → c ≤ n)
    (j : Nat) : ticket j ≠ some (slot, n) := by
  intro hj
  obtain ⟨c, hc, hlt⟩ := h.below hj
  exact absurd (hn c hc) (Int.not_le.mpr hlt)

/-- Advance the counter and take the number it had, or zero from a counter that
    was not there. -/
theorem reserve [DecidableEq S] (h : Ledger counter ticket) {n : Int}
    (hn : counter slot = some n ∨ counter slot = none) :
    Ledger (Function.update counter slot (some (n + 1)))
      (Function.update ticket i (some (slot, n))) := by
  have hle : ∀ c, counter slot = some c → c ≤ n := by
    intro c hc
    rcases hn with hn | hn
    · rw [hn, Option.some.injEq] at hc
      exact Int.le_of_eq hc.symm
    · rw [hn] at hc
      cases hc
  have hraised : Ledger (Function.update counter slot (some (n + 1))) ticket :=
    h.raise fun c hc => Int.le_trans (hle c hc) (Int.le_of_lt (Int.lt_succ n))
  exact hraised.take (Function.update_self ..) (Int.lt_succ n) fun j _ => h.free hle j

/-- Rewind the counter by the newest number, which its holder gives up. -/
theorem release [DecidableEq S] (h : Ledger counter ticket) {n : Int}
    (hi : ticket i = some (slot, n)) (hc : counter slot = some (n + 1)) :
    Ledger (Function.update counter slot (some n)) (Function.update ticket i none) := by
  have hdropped := h.drop i
  refine ⟨fun {j slot' m} hj => ?_, hdropped.distinct⟩
  obtain ⟨c, hbelow, hlt⟩ := hdropped.below hj
  by_cases heq : slot' = slot
  · subst heq
    rw [hc, Option.some.injEq] at hbelow
    subst hbelow
    -- the number just below the counter is the one given up
    have hne : m ≠ n := by
      rintro rfl
      by_cases hji : j = i
      · rw [hji, Function.update_self] at hj
        cases hj
      · rw [Function.update_of_ne hji] at hj
        exact hji (h.distinct hj hi)
    rw [Function.update_self]
    exact ⟨n, rfl, by omega⟩
  · rw [Function.update_of_ne heq]
    exact ⟨c, hbelow, hlt⟩

end Ledger

/-! ### Numbers that are all out -/

/-- The numbers from `first` up to a counter are out, each with one holder. -/
structure AllOut (first next : Int) (ticket : Nat → Option Int) : Prop where
  low : first ≤ next
  range : ∀ {i n}, ticket i = some n → first ≤ n ∧ n < next
  distinct : ∀ {i j n}, ticket i = some n → ticket j = some n → i = j
  cover : ∀ {n}, first ≤ n → n < next → ∃ i, ticket i = some n

namespace AllOut

variable {first next : Int} {ticket : Nat → Option Int} {i : Nat}

theorem start (first : Int) : AllOut first first fun _ => none where
  low := Int.le_refl first
  range := fun h => by cases h
  distinct := fun h => by cases h
  cover := fun hle hlt => absurd (Int.lt_of_le_of_lt hle hlt) (Int.lt_irrefl first)

/-- A thread without a number takes the next one. -/
theorem reserve (h : AllOut first next ticket) (hi : ticket i = none) :
    AllOut first (next + 1) (Function.update ticket i (some next)) := by
  have hother : ∀ {j n}, j ≠ i → Function.update ticket i (some next) j = some n →
      ticket j = some n := by
    intro j n hji hj
    rwa [Function.update_of_ne hji] at hj
  have hown : ∀ {n}, Function.update ticket i (some next) i = some n → n = next := by
    intro n hn
    rw [Function.update_self, Option.some.injEq] at hn
    exact hn.symm
  constructor
  · have hlow := h.low
    omega
  · intro j n hj
    have hlow := h.low
    by_cases hji : j = i
    · have hn := hown (hji ▸ hj)
      omega
    · have hrange := h.range (hother hji hj)
      omega
  · intro j k n hj hk
    by_cases hji : j = i
    · by_cases hki : k = i
      · exact hji.trans hki.symm
      · have hn := hown (hji ▸ hj)
        have hrange := h.range (hother hki hk)
        omega
    · by_cases hki : k = i
      · have hn := hown (hki ▸ hk)
        have hrange := h.range (hother hji hj)
        omega
      · exact h.distinct (hother hji hj) (hother hki hk)
  · intro n hle hlt
    by_cases hn : n = next
    · exact ⟨i, by rw [Function.update_self, hn]⟩
    · obtain ⟨j, hj⟩ := h.cover hle (by omega)
      have hji : j ≠ i := by
        rintro rfl
        cases hi.symm.trans hj
      exact ⟨j, by rw [Function.update_of_ne hji, hj]⟩

/-- The holder of the newest number gives it back. -/
theorem release {n : Int} (h : AllOut first (n + 1) ticket) (hi : ticket i = some n) :
    AllOut first n (Function.update ticket i none) := by
  have hother : ∀ {j m}, Function.update ticket i none j = some m → j ≠ i ∧ ticket j = some m := by
    intro j m hj
    by_cases hji : j = i
    · rw [hji, Function.update_self] at hj
      cases hj
    · rw [Function.update_of_ne hji] at hj
      exact ⟨hji, hj⟩
  constructor
  · exact (h.range hi).1
  · intro j m hj
    obtain ⟨hji, hj⟩ := hother hj
    have hrange := h.range hj
    have hne : m ≠ n := by
      rintro rfl
      exact hji (h.distinct hj hi)
    omega
  · intro j k m hj hk
    exact h.distinct (hother hj).2 (hother hk).2
  · intro m hle hlt
    obtain ⟨j, hj⟩ := h.cover hle (by omega)
    have hji : j ≠ i := by
      rintro rfl
      rw [hi, Option.some.injEq] at hj
      omega
    exact ⟨j, by rw [Function.update_of_ne hji, hj]⟩

end AllOut

end BrokeTurnkey.Interaction
