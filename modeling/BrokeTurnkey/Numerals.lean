import Mathlib.Data.List.Lex
import Mathlib.Data.List.Shortlex
import Mathlib.Algebra.Order.Ring.Nat
import BrokeTurnkey.Text

/-!
# Numerals in the order of their texts

A program that checks the length of a decimal text before it reads it compares
numbers by their spelling.  Without leading zeros the order of the numbers is the
shortlex order of the texts: shorter first, texts of one length digit by digit.
-/

namespace BrokeTurnkey.Text

/-- The number a run of decimal digits stands for. -/
abbrev digitsValue (s : Text) : Nat := Nat.ofDigitChars 10 s 0

def Digits (s : Text) : Prop := ∀ c ∈ s, c.isDigit = true

/-- The digits that decide the order: those from the first one that is not zero. -/
def significant (s : Text) : Text := s.dropWhile (· = '0')

/-- The order of numerals, read off their spelling. -/
abbrev Precedes (s t : Text) : Prop := List.Shortlex (· < ·) s t

theorem Digits.of_cons {c : Char} {s : Text} (h : Digits (c :: s)) : Digits s :=
  fun d hd => h d (List.mem_cons_of_mem c hd)

theorem Digits.significant {s : Text} (h : Digits s) : Digits (significant s) :=
  fun c hc => h c ((List.dropWhile_sublist _).subset hc)

theorem digits_decimal (n : Nat) : Digits (decimal n) := fun _ hc => isDigit_of_mem_decimal hc

theorem parseDecimal_of_digits {s : Text} (hne : s ≠ []) (h : Digits s) :
    parseDecimal s = some (digitsValue s) :=
  if_pos ⟨hne, List.all_eq_true.mpr h⟩

theorem digitsValue_decimal (n : Nat) : digitsValue (decimal n) = n :=
  Nat.ofDigitChars_ten_toDigits

theorem digitsValue_cons (c : Char) (s : Text) :
    digitsValue (c :: s) = 10 ^ s.length * (c.toNat - 48) + digitsValue s := by
  rw [digitsValue, Nat.ofDigitChars_cons, Nat.ofDigitChars_eq_ofDigitChars_zero, Nat.mul_zero,
    Nat.zero_add]
  rfl

theorem digitsValue_lt {s : Text} (h : Digits s) : digitsValue s < 10 ^ s.length := by
  induction s with
  | nil => decide
  | cons c rest ih =>
    have hrest := ih h.of_cons
    have hc := isDigit_range (h c List.mem_cons_self)
    have hlead : 10 ^ rest.length * (c.toNat - 48) ≤ 10 ^ rest.length * 9 :=
      Nat.mul_le_mul_left _ (by omega)
    rw [digitsValue_cons, List.length_cons, Nat.pow_succ]
    omega

theorem digitsValue_significant (s : Text) : digitsValue (significant s) = digitsValue s := by
  induction s with
  | nil => rfl
  | cons c rest ih =>
    by_cases hzero : c = '0'
    · subst hzero
      rw [digitsValue_cons, ← ih]
      simp [significant]
    · simp [significant, hzero]

/-- A numeral that does not start with zero uses its length. -/
theorem pow_le_digitsValue {s : Text} (h : Digits s) (hne : s ≠ []) (hhead : s.head? ≠ some '0') :
    10 ^ (s.length - 1) ≤ digitsValue s := by
  cases s with
  | nil => exact absurd rfl hne
  | cons c rest =>
    have hc := isDigit_range (h c List.mem_cons_self)
    have hpositive : 1 ≤ c.toNat - 48 := by
      have hzero : c.toNat ≠ 48 := by
        intro heq
        apply hhead
        rw [List.head?_cons, ← Char.ofNat_toNat c, heq]
      omega
    have hlead : 10 ^ rest.length * 1 ≤ 10 ^ rest.length * (c.toNat - 48) :=
      Nat.mul_le_mul_left _ hpositive
    rw [digitsValue_cons, List.length_cons, Nat.add_sub_cancel]
    omega

/-- Numerals of one length are ordered as dictionaries are. -/
theorem lex_iff_digitsValue : ∀ {s t : Text}, Digits s → Digits t → s.length = t.length →
    (List.Lex (· < ·) s t ↔ digitsValue s < digitsValue t)
  | [], [], _, _, _ => by simp
  | c :: s, d :: t, hs, ht, hlength => by
    have hrest := lex_iff_digitsValue hs.of_cons ht.of_cons (Nat.succ.inj hlength)
    have hsrest := digitsValue_lt hs.of_cons
    have htrest := digitsValue_lt ht.of_cons
    have hc := isDigit_range (hs c List.mem_cons_self)
    have hd := isDigit_range (ht d List.mem_cons_self)
    have hsame : s.length = t.length := Nat.succ.inj hlength
    have hstep : ∀ {m n : Nat}, m < n → 10 ^ t.length * m + 10 ^ t.length ≤ 10 ^ t.length * n :=
      fun {m n} hlt => by
        have hmul := Nat.mul_le_mul_left (10 ^ t.length) (Nat.succ_le_of_lt hlt)
        rwa [Nat.mul_succ] at hmul
    rw [List.cons_lex_cons_iff, hrest, digitsValue_cons, digitsValue_cons, hsame]
    rw [hsame] at hsrest
    rcases Nat.lt_trichotomy c.toNat d.toNat with hlt | heq | hgt
    · have hlow := hstep (m := c.toNat - 48) (n := d.toNat - 48) (by omega)
      constructor
      · intro _
        omega
      · intro _
        exact .inl hlt
    · have hchar : c = d := Char.toNat_inj.mp heq
      subst hchar
      simp
    · have hlow := hstep (m := d.toNat - 48) (n := c.toNat - 48) (by omega)
      constructor
      · rintro (hlt | ⟨rfl, _⟩)
        · exact absurd (show c.toNat < d.toNat from hlt) (by omega)
        · exact absurd hgt (by omega)
      · intro _
        omega

/-- **Numbers are ordered as their texts are.** -/
theorem precedes_iff {s t : Text} (hs : Digits s) (ht : Digits t) (hshead : s.head? ≠ some '0')
    (hthead : t.head? ≠ some '0') : Precedes s t ↔ digitsValue s < digitsValue t := by
  rw [Precedes, List.shortlex_def]
  rcases Nat.lt_trichotomy s.length t.length with hlt | heq | hgt
  · have hne : t ≠ [] := List.ne_nil_of_length_pos (by omega)
    have hpow : 10 ^ s.length ≤ 10 ^ (t.length - 1) :=
      Nat.pow_le_pow_right (by decide) (by omega)
    have hvalue : digitsValue s < digitsValue t :=
      Nat.lt_of_lt_of_le (digitsValue_lt hs) (hpow.trans (pow_le_digitsValue ht hne hthead))
    exact iff_of_true (.inl hlt) hvalue
  · rw [← lex_iff_digitsValue hs ht heq]
    simp [heq]
  · have hne : s ≠ [] := List.ne_nil_of_length_pos (by omega)
    have hpow : 10 ^ t.length ≤ 10 ^ (s.length - 1) :=
      Nat.pow_le_pow_right (by decide) (by omega)
    have hvalue : digitsValue t < digitsValue s :=
      Nat.lt_of_lt_of_le (digitsValue_lt ht) (hpow.trans (pow_le_digitsValue hs hne hshead))
    apply iff_of_false
    · rintro (hlt | ⟨heq, _⟩)
      · omega
      · omega
    · omega

theorem head_significant (s : Text) : (significant s).head? ≠ some '0' := by
  intro hhead
  have hzero := List.head?_dropWhile_not (· = '0') s
  rw [significant] at hhead
  rw [hhead] at hzero
  simp at hzero

theorem precedes_significant_iff {s t : Text} (hs : Digits s) (ht : Digits t) :
    Precedes (significant s) (significant t) ↔ digitsValue s < digitsValue t := by
  rw [precedes_iff hs.significant ht.significant (head_significant s) (head_significant t),
    digitsValue_significant, digitsValue_significant]

/-! ### The printed numeral -/

/-- What is printed is no longer than what was read. -/
theorem length_decimal_le {s : Text} {n : Nat} (h : parseDecimal s = some n) :
    (decimal n).length ≤ s.length := by
  have hdigits := parseDecimal_eq_some h
  rw [parseDecimal_of_digits hdigits.1 hdigits.2, Option.some.injEq] at h
  have hlt := digitsValue_lt hdigits.2
  rw [h] at hlt
  exact (Nat.length_toDigits_le_iff (by decide) (List.length_pos_iff.mpr hdigits.1)).mpr hlt

/-- A numeral is printed as it was read, unless zeros stand before its first digit. -/
theorem decimal_eq_iff {s : Text} {n : Nat} (h : parseDecimal s = some n) :
    decimal n = s ↔ (s.head? = some '0' → s = ['0']) := by
  have hdigits := parseDecimal_eq_some h
  rw [parseDecimal_of_digits hdigits.1 hdigits.2, Option.some.injEq] at h
  cases s with
  | nil => exact absurd rfl hdigits.1
  | cons c rest =>
    have hrest : Digits rest := Digits.of_cons hdigits.2
    rw [List.head?_cons, Option.some.injEq]
    by_cases hzero : c = '0'
    · subst hzero
      have hvalue : digitsValue rest = n := by
        rw [← h, digitsValue_cons]
        simp
      constructor
      · intro heq _
        by_contra hlong
        have hpositive : 0 < rest.length := by
          cases rest with
          | nil => exact absurd rfl hlong
          | cons d others => simp
        have hlt := digitsValue_lt hrest
        rw [hvalue] at hlt
        have hlength := (Nat.length_toDigits_le_iff (b := 10) (by decide) hpositive).mpr hlt
        have hsame := congrArg List.length heq
        rw [List.length_cons, decimal] at hsame
        omega
      · intro hone
        have hnil : rest = [] := (List.cons.inj (hone rfl)).2
        rw [hnil] at hvalue ⊢
        rw [← hvalue]
        rfl
    · have hc := isDigit_range (hdigits.2 c List.mem_cons_self)
      have hne : c.toNat ≠ 48 := by
        intro heq
        apply hzero
        rw [← Char.ofNat_toNat c, heq]
      apply iff_of_true _ (fun heq => absurd heq hzero)
      have hzeronat : '0'.toNat = 48 := by decide
      rw [← h, digitsValue, Nat.ofDigitChars_cons, Nat.mul_zero, Nat.zero_add, decimal,
        toDigits_ofDigitChars (List.all_eq_true.mpr hrest) (by omega),
        Nat.toDigits_of_lt_base (by omega), digitChar_of_isDigit (hdigits.2 c List.mem_cons_self)]
      rfl

end BrokeTurnkey.Text
