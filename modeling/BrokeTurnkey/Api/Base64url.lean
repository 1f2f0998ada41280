import BrokeTurnkey.Signer.Base64
import Mathlib.Data.List.TakeWhile

/-!
# The base64url encoding of the runtime

`digest('base64url')` writes the URL alphabet without padding.
`Buffer.from(s, 'base64url')` reads both alphabets, stops at the first `=` and skips
every other character of neither alphabet, so it never fails.
-/

namespace BrokeTurnkey.Base64url

def digit (n : Nat) : Char :=
  if n = 62 then '-' else if n = 63 then '_' else Signer.Base64.digit n

/-- The value of a character of either alphabet. -/
def value (c : Char) : Option Nat :=
  if c = '-' then some 62 else if c = '_' then some 63 else Signer.Base64.value c

def encode : List UInt8 → Text
  | [] => []
  | [a] => [digit (a.toNat / 4), digit (a.toNat % 4 * 16)]
  | [a, b] =>
    [digit (a.toNat / 4), digit (a.toNat % 4 * 16 + b.toNat / 16), digit (b.toNat % 16 * 4)]
  | a :: b :: c :: rest =>
    digit (a.toNat / 4) :: digit (a.toNat % 4 * 16 + b.toNat / 16) ::
      digit (b.toNat % 16 * 4 + c.toNat / 64) :: digit (c.toNat % 64) :: encode rest

/-- Groups of four values are three bytes; a shorter last group is the bytes it fills. -/
def decodeValues : List Nat → List UInt8
  | x :: y :: z :: w :: rest =>
    UInt8.ofNat (x * 4 + y / 16) :: UInt8.ofNat (y % 16 * 16 + z / 4) ::
      UInt8.ofNat (z % 4 * 64 + w) :: decodeValues rest
  | [x, y, z] => [UInt8.ofNat (x * 4 + y / 16), UInt8.ofNat (y % 16 * 16 + z / 4)]
  | [x, y] => [UInt8.ofNat (x * 4 + y / 16)]
  | _ => []

/-- What stands in front of the padding. -/
def unpadded (s : Text) : Text := s.takeWhile (· ≠ '=')

def decode (s : Text) : List UInt8 := decodeValues ((unpadded s).filterMap value)

theorem value_digit {n : Nat} (h : n < 64) : value (digit n) = some n := by
  have hall : ∀ k < 64, value (digit k) = some k := by decide
  exact hall n h

theorem decodeValues_encode (bytes : List UInt8) :
    decodeValues ((encode bytes).filterMap value) = bytes := by
  fun_induction encode bytes with
  | case1 => rfl
  | case2 a =>
    have ha := a.toNat_lt
    have h1 := value_digit (n := a.toNat / 4) (by omega)
    have h2 := value_digit (n := a.toNat % 4 * 16) (by omega)
    simp only [List.filterMap_cons, h1, h2, List.filterMap_nil, decodeValues]
    rw [Signer.Base64.ofNat_toNat (a := a) (by omega)]
  | case3 a b =>
    have ha := a.toNat_lt
    have hb := b.toNat_lt
    have h1 := value_digit (n := a.toNat / 4) (by omega)
    have h2 := value_digit (n := a.toNat % 4 * 16 + b.toNat / 16) (by omega)
    have h3 := value_digit (n := b.toNat % 16 * 4) (by omega)
    simp only [List.filterMap_cons, h1, h2, h3, List.filterMap_nil, decodeValues]
    rw [Signer.Base64.ofNat_toNat (a := a) (by omega),
      Signer.Base64.ofNat_toNat (a := b) (by omega)]
  | case4 a b c rest ih =>
    have ha := a.toNat_lt
    have hb := b.toNat_lt
    have hc := c.toNat_lt
    have h1 := value_digit (n := a.toNat / 4) (by omega)
    have h2 := value_digit (n := a.toNat % 4 * 16 + b.toNat / 16) (by omega)
    have h3 := value_digit (n := b.toNat % 16 * 4 + c.toNat / 64) (by omega)
    have h4 := value_digit (n := c.toNat % 64) (by omega)
    simp only [List.filterMap_cons, h1, h2, h3, h4, decodeValues, ih]
    rw [Signer.Base64.ofNat_toNat (a := a) (by omega),
      Signer.Base64.ofNat_toNat (a := b) (by omega),
      Signer.Base64.ofNat_toNat (a := c) (by omega)]

/-! ### The one spelling that is written -/

/-- A character of the url alphabet. -/
def isUrlDigit (c : Char) : Bool := c ≠ '+' ∧ c ≠ '/' ∧ (value c).isSome

/-- The last digit leaves no bits over that no byte takes. -/
def TailUsed (length last : Nat) : Prop :=
  (length % 4 = 2 → last % 16 = 0) ∧ (length % 4 = 3 → last % 4 = 0)

/-- The spelling of the encoder: the url alphabet alone, no digit on its own, and no bits
    that are left over. -/
structure Canonical (s : Text) : Prop where
  alphabet : ∀ c ∈ s, isUrlDigit c = true
  length : s.length % 4 ≠ 1
  tail : ∀ c ∈ s.getLast?, ∀ last, value c = some last → TailUsed s.length last

theorem digit_inj {m n : Nat} (hm : m < 64) (hn : n < 64) : digit m = digit n ↔ m = n := by
  constructor
  · intro heq
    have hvalue := congrArg value heq
    rw [value_digit hm, value_digit hn] at hvalue
    exact Option.some.inj hvalue
  · rintro rfl
    rfl

theorem isUrlDigit_digit {n : Nat} (h : n < 64) : isUrlDigit (digit n) = true := by
  have hall : ∀ k < 64, isUrlDigit (digit k) = true := by decide
  exact hall n h

theorem value_ascii {c : Char} {n : Nat} (h : value c = some n) : c.toNat < 128 := by
  simp only [value, Signer.Base64.value] at h
  by_contra hlarge
  have hminus : c ≠ '-' := by rintro rfl; exact hlarge (by decide)
  have hunder : c ≠ '_' := by rintro rfl; exact hlarge (by decide)
  have hplus : c ≠ '+' := by rintro rfl; exact hlarge (by decide)
  have hslash : c ≠ '/' := by rintro rfl; exact hlarge (by decide)
  rw [if_neg hminus, if_neg hunder, if_neg (by omega), if_neg (by omega), if_neg (by omega),
    if_neg hplus, if_neg hslash] at h
  cases h

/-- A character of the alphabet is the digit of its value. -/
theorem exists_digit {c : Char} (h : isUrlDigit c = true) :
    ∃ n < 64, value c = some n ∧ c = digit n := by
  have hall : ∀ k < 128, isUrlDigit (Char.ofNat k) = true →
      ∃ n < 64, value (Char.ofNat k) = some n ∧ Char.ofNat k = digit n := by decide +kernel
  obtain ⟨_, _, hsome⟩ := of_decide_eq_true h
  obtain ⟨n, hn⟩ := Option.isSome_iff_exists.mp hsome
  have hc := hall c.toNat (value_ascii hn)
  rw [Char.ofNat_toNat] at hc
  exact hc h

theorem mem_encode {bytes : List UInt8} {c : Char} (h : c ∈ encode bytes) :
    isUrlDigit c = true := by
  fun_induction encode bytes with
  | case1 => cases h
  | case2 a =>
    have ha := a.toNat_lt
    simp only [List.mem_cons, List.not_mem_nil, or_false] at h
    rcases h with rfl | rfl
    · exact isUrlDigit_digit (by omega)
    · exact isUrlDigit_digit (by omega)
  | case3 a b =>
    have ha := a.toNat_lt
    have hb := b.toNat_lt
    simp only [List.mem_cons, List.not_mem_nil, or_false] at h
    rcases h with rfl | rfl | rfl
    · exact isUrlDigit_digit (by omega)
    · exact isUrlDigit_digit (by omega)
    · exact isUrlDigit_digit (by omega)
  | case4 a b c rest ih =>
    have ha := a.toNat_lt
    have hb := b.toNat_lt
    have hc := c.toNat_lt
    simp only [List.mem_cons] at h
    rcases h with rfl | rfl | rfl | rfl | h
    · exact isUrlDigit_digit (by omega)
    · exact isUrlDigit_digit (by omega)
    · exact isUrlDigit_digit (by omega)
    · exact isUrlDigit_digit (by omega)
    · exact ih h

theorem unpadded_of_alphabet {s : Text} (h : ∀ c ∈ s, isUrlDigit c = true) : unpadded s = s := by
  apply List.takeWhile_eq_self_iff.mpr
  intro c hc
  have hdigit := h c hc
  simp only [ne_eq, decide_not, Bool.not_eq_eq_eq_not, Bool.not_true, decide_eq_false_iff_not]
  rintro rfl
  exact absurd hdigit (by decide)

/-- What is encoded is decoded. -/
@[simp] theorem decode_encode (bytes : List UInt8) : decode (encode bytes) = bytes := by
  rw [decode, unpadded_of_alphabet fun _ hc => mem_encode hc]
  exact decodeValues_encode bytes

theorem encode_injective : Function.Injective encode := by
  intro left right heq
  have hread := congrArg decode heq
  rw [decode_encode, decode_encode] at hread
  exact hread

theorem toNat_ofNat {n : Nat} (h : n < 256) : (UInt8.ofNat n).toNat = n :=
  UInt8.toNat_ofNat_of_lt' h

/-- The three bytes of a group are encoded as its four digits. -/
theorem encode_group {x y z w : Nat} (hx : x < 64) (hy : y < 64) (hz : z < 64) (hw : w < 64)
    (bytes : List UInt8) :
    encode (UInt8.ofNat (x * 4 + y / 16) :: UInt8.ofNat (y % 16 * 16 + z / 4) ::
      UInt8.ofNat (z % 4 * 64 + w) :: bytes) =
      digit x :: digit y :: digit z :: digit w :: encode bytes := by
  have ha : (UInt8.ofNat (x * 4 + y / 16)).toNat = x * 4 + y / 16 :=
    toNat_ofNat (by omega)
  have hb : (UInt8.ofNat (y % 16 * 16 + z / 4)).toNat = y % 16 * 16 + z / 4 :=
    toNat_ofNat (by omega)
  have hc : (UInt8.ofNat (z % 4 * 64 + w)).toNat = z % 4 * 64 + w :=
    toNat_ofNat (by omega)
  have hxv : (x * 4 + y / 16) / 4 = x := by omega
  have hyv : (x * 4 + y / 16) % 4 * 16 + (y % 16 * 16 + z / 4) / 16 = y := by omega
  have hzv : (y % 16 * 16 + z / 4) % 16 * 4 + (z % 4 * 64 + w) / 64 = z := by omega
  have hwv : (z % 4 * 64 + w) % 64 = w := by omega
  rw [encode, ha, hb, hc, hxv, hyv, hzv, hwv]

/-- In front of more digits a group leaves no bits over. -/
theorem tailUsed_group (x y z w : Nat) (rest : List Nat) :
    (∀ last ∈ (x :: y :: z :: w :: rest).getLast?,
      TailUsed (x :: y :: z :: w :: rest).length last) ↔
      ∀ last ∈ rest.getLast?, TailUsed rest.length last := by
  have hlength : (x :: y :: z :: w :: rest).length % 4 = rest.length % 4 := by
    simp only [List.length_cons]
    omega
  cases rest with
  | nil => simp [TailUsed]
  | cons v others =>
    have hlast : (x :: y :: z :: w :: v :: others).getLast? = (v :: others).getLast? := by
      simp [List.getLast?_cons_cons]
    rw [hlast]
    simp only [TailUsed, hlength]

/-- Digits that are decoded and encoded again come back if they make up whole bytes. -/
theorem encode_decodeValues_iff (values : List Nat) : (∀ n ∈ values, n < 64) →
    (encode (decodeValues values) = values.map digit ↔
      values.length % 4 ≠ 1 ∧ ∀ last ∈ values.getLast?, TailUsed values.length last) := by
  fun_induction decodeValues values with
  | case1 x y z w rest ih =>
    intro hlt
    simp only [List.forall_mem_cons] at hlt
    obtain ⟨hx, hy, hz, hw, hrest⟩ := hlt
    have hlength : (x :: y :: z :: w :: rest).length % 4 = rest.length % 4 := by
      simp only [List.length_cons]
      omega
    rw [encode_group hx hy hz hw, hlength, tailUsed_group, ← ih hrest]
    simp
  | case2 x y z =>
    intro hlt
    simp only [List.forall_mem_cons] at hlt
    obtain ⟨hx, hy, hz, _⟩ := hlt
    have ha : (UInt8.ofNat (x * 4 + y / 16)).toNat = x * 4 + y / 16 :=
      toNat_ofNat (by omega)
    have hb : (UInt8.ofNat (y % 16 * 16 + z / 4)).toNat = y % 16 * 16 + z / 4 :=
      toNat_ofNat (by omega)
    have hxv : (x * 4 + y / 16) / 4 = x := by omega
    have hyv : (x * 4 + y / 16) % 4 * 16 + (y % 16 * 16 + z / 4) / 16 = y := by omega
    have hzv : (y % 16 * 16 + z / 4) % 16 * 4 = z / 4 * 4 := by omega
    have hlast : digit (z / 4 * 4) = digit z ↔ z % 4 = 0 := by
      rw [digit_inj (by omega) hz]
      omega
    rw [encode, ha, hb, hxv, hyv, hzv]
    simp [TailUsed, hlast]
  | case3 x y =>
    intro hlt
    simp only [List.forall_mem_cons] at hlt
    obtain ⟨hx, hy, _⟩ := hlt
    have ha : (UInt8.ofNat (x * 4 + y / 16)).toNat = x * 4 + y / 16 :=
      toNat_ofNat (by omega)
    have hxv : (x * 4 + y / 16) / 4 = x := by omega
    have hyv : (x * 4 + y / 16) % 4 * 16 = y / 16 * 16 := by omega
    have hlast : digit (y / 16 * 16) = digit y ↔ y % 16 = 0 := by
      rw [digit_inj (by omega) hy]
      omega
    rw [encode, ha, hxv, hyv]
    simp [TailUsed, hlast]
  | case4 values hfour hthree htwo =>
    intro _
    match values with
    | [] => simp [encode]
    | [x] => simp [encode]
    | [x, y] => exact absurd rfl (htwo x y)
    | [x, y, z] => exact absurd rfl (hthree x y z)
    | x :: y :: z :: w :: rest => exact absurd rfl (hfour x y z w rest)

theorem exists_values {s : Text} (h : ∀ c ∈ s, isUrlDigit c = true) :
    ∃ values : List Nat, (∀ n ∈ values, n < 64) ∧ s = values.map digit := by
  induction s with
  | nil => exact ⟨[], by simp, rfl⟩
  | cons c rest ih =>
    obtain ⟨values, hlt, rfl⟩ := ih fun d hd => h d (List.mem_cons_of_mem c hd)
    obtain ⟨n, hn, _, rfl⟩ := exists_digit (h c List.mem_cons_self)
    exact ⟨n :: values, List.forall_mem_cons.mpr ⟨hn, hlt⟩, rfl⟩

theorem filterMap_digits {values : List Nat} (h : ∀ n ∈ values, n < 64) :
    (values.map digit).filterMap value = values := by
  induction values with
  | nil => rfl
  | cons n rest ih =>
    rw [List.forall_mem_cons] at h
    rw [List.map_cons, List.filterMap_cons, value_digit h.1]
    simp only [ih h.2]

theorem canonical_digits_iff {values : List Nat} (h : ∀ n ∈ values, n < 64) :
    Canonical (values.map digit) ↔
      values.length % 4 ≠ 1 ∧ ∀ last ∈ values.getLast?, TailUsed values.length last := by
  constructor
  · intro hcanonical
    have hlength := hcanonical.length
    have htail := hcanonical.tail
    rw [List.length_map] at hlength htail
    refine ⟨hlength, ?_⟩
    intro last hlast
    have hmem : last ∈ values := List.mem_of_getLast? hlast
    refine htail (digit last) ?_ last (value_digit (h last hmem))
    rw [List.getLast?_map, Option.mem_def.mp hlast]
    rfl
  · rintro ⟨hlength, htail⟩
    constructor
    case alphabet =>
      intro c hc
      obtain ⟨n, hn, rfl⟩ := List.mem_map.mp hc
      exact isUrlDigit_digit (h n hn)
    case length =>
      rw [List.length_map]
      exact hlength
    case tail =>
      intro c hc last hlast
      rw [List.getLast?_map, Option.mem_def, Option.map_eq_some_iff] at hc
      obtain ⟨n, hn, rfl⟩ := hc
      rw [value_digit (h n (List.mem_of_getLast? hn)), Option.some.injEq] at hlast
      rw [List.length_map, ← hlast]
      exact htail n hn

/-- **Decoding loses nothing of a canonical text, and of no other.** -/
theorem encode_decode_iff (s : Text) : encode (decode s) = s ↔ Canonical s := by
  have hdigits : (∀ c ∈ s, isUrlDigit c = true) → (encode (decode s) = s ↔ Canonical s) := by
    intro halphabet
    obtain ⟨values, hlt, rfl⟩ := exists_values halphabet
    rw [decode, unpadded_of_alphabet halphabet, filterMap_digits hlt,
      encode_decodeValues_iff values hlt, canonical_digits_iff hlt]
  constructor
  · intro heq
    refine (hdigits ?_).mp heq
    intro c hc
    rw [← heq] at hc
    exact mem_encode hc
  · intro h
    exact (hdigits h.alphabet).mpr h

end BrokeTurnkey.Base64url
