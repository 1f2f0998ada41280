import BrokeTurnkey.Signer.GoText

/-!
# Base64

`base64.StdEncoding`: three bytes are four digits, a shorter last group is padded,
and the decoder skips line breaks.  What is encoded is decoded.
-/

namespace BrokeTurnkey.Signer.Base64

/-- The digit of a value below sixty-four. -/
def digit (n : Nat) : Char :=
  if n < 26 then Char.ofNat (65 + n)
  else if n < 52 then Char.ofNat (71 + n)
  else if n < 62 then Char.ofNat (n - 4)
  else if n = 62 then '+' else '/'

def value (c : Char) : Option Nat :=
  if 65 ≤ c.toNat ∧ c.toNat ≤ 90 then some (c.toNat - 65)
  else if 97 ≤ c.toNat ∧ c.toNat ≤ 122 then some (c.toNat - 71)
  else if 48 ≤ c.toNat ∧ c.toNat ≤ 57 then some (c.toNat + 4)
  else if c = '+' then some 62
  else if c = '/' then some 63
  else none

def encodeToString : Bytes → Text
  | [] => []
  | [a] => [digit (a.toNat / 4), digit (a.toNat % 4 * 16), '=', '=']
  | [a, b] =>
    [digit (a.toNat / 4), digit (a.toNat % 4 * 16 + b.toNat / 16), digit (b.toNat % 16 * 4), '=']
  | a :: b :: c :: rest =>
    digit (a.toNat / 4) :: digit (a.toNat % 4 * 16 + b.toNat / 16) ::
      digit (b.toNat % 16 * 4 + c.toNat / 64) :: digit (c.toNat % 64) :: encodeToString rest

/-- Decode groups of four digits; padding ends the text. -/
def decodeGroups : Text → Option Bytes
  | [] => some []
  | [c, d, '=', '='] => do
    let x ← value c
    let y ← value d
    return [UInt8.ofNat (x * 4 + y / 16)]
  | [c, d, e, '='] => do
    let x ← value c
    let y ← value d
    let z ← value e
    return [UInt8.ofNat (x * 4 + y / 16), UInt8.ofNat (y % 16 * 16 + z / 4)]
  | c :: d :: e :: f :: rest => do
    let x ← value c
    let y ← value d
    let z ← value e
    let w ← value f
    let bytes ← decodeGroups rest
    return UInt8.ofNat (x * 4 + y / 16) :: UInt8.ofNat (y % 16 * 16 + z / 4) ::
      UInt8.ofNat (z % 4 * 64 + w) :: bytes
  | _ => none

def decodeString (s : Text) : Option Bytes :=
  decodeGroups (s.filter fun c => c ≠ '\n' ∧ c ≠ '\r')

/-! ### The round trip -/

theorem value_digit {n : Nat} (h : n < 64) : value (digit n) = some n := by
  have hall : ∀ k < 64, value (digit k) = some k := by decide
  exact hall n h

theorem digit_ne_pad {n : Nat} (h : n < 64) : digit n ≠ '=' := by
  have hall : ∀ k < 64, digit k ≠ '=' := by decide
  exact hall n h

theorem digit_ne_break {n : Nat} (h : n < 64) : digit n ≠ '\n' ∧ digit n ≠ '\r' := by
  have hall : ∀ k < 64, digit k ≠ '\n' ∧ digit k ≠ '\r' := by decide
  exact hall n h

theorem ofNat_toNat {a : UInt8} {n : Nat} (h : n = a.toNat) : UInt8.ofNat n = a := by
  rw [h, UInt8.ofNat_toNat]

/-- Nothing the encoder writes is a line break. -/
theorem filter_encodeToString (bytes : Bytes) :
    (encodeToString bytes).filter (fun c => c ≠ '\n' ∧ c ≠ '\r') = encodeToString bytes := by
  fun_induction encodeToString bytes with
  | case1 => rfl
  | case2 a =>
    have ha := a.toNat_lt
    have h1 := digit_ne_break (n := a.toNat / 4) (by omega)
    have h2 := digit_ne_break (n := a.toNat % 4 * 16) (by omega)
    simp [h1, h2]
  | case3 a b =>
    have ha := a.toNat_lt
    have hb := b.toNat_lt
    have h1 := digit_ne_break (n := a.toNat / 4) (by omega)
    have h2 := digit_ne_break (n := a.toNat % 4 * 16 + b.toNat / 16) (by omega)
    have h3 := digit_ne_break (n := b.toNat % 16 * 4) (by omega)
    simp [h1, h2, h3]
  | case4 a b c rest ih =>
    have ha := a.toNat_lt
    have hb := b.toNat_lt
    have hc := c.toNat_lt
    have h1 := digit_ne_break (n := a.toNat / 4) (by omega)
    have h2 := digit_ne_break (n := a.toNat % 4 * 16 + b.toNat / 16) (by omega)
    have h3 := digit_ne_break (n := b.toNat % 16 * 4 + c.toNat / 64) (by omega)
    have h4 := digit_ne_break (n := c.toNat % 64) (by omega)
    rw [List.filter_cons_of_pos (by simp [h1]), List.filter_cons_of_pos (by simp [h2]),
      List.filter_cons_of_pos (by simp [h3]), List.filter_cons_of_pos (by simp [h4]), ih]

theorem decodeGroups_encodeToString (bytes : Bytes) :
    decodeGroups (encodeToString bytes) = some bytes := by
  fun_induction encodeToString bytes with
  | case1 => rfl
  | case2 a =>
    have ha := a.toNat_lt
    have h1 := value_digit (n := a.toNat / 4) (by omega)
    have h2 := value_digit (n := a.toNat % 4 * 16) (by omega)
    simp only [decodeGroups, h1, h2, Option.bind_eq_bind, Option.bind_some, Option.pure_def]
    rw [ofNat_toNat (a := a) (by omega)]
  | case3 a b =>
    have ha := a.toNat_lt
    have hb := b.toNat_lt
    have h1 := value_digit (n := a.toNat / 4) (by omega)
    have h2 := value_digit (n := a.toNat % 4 * 16 + b.toNat / 16) (by omega)
    have h3 := value_digit (n := b.toNat % 16 * 4) (by omega)
    have hpad := digit_ne_pad (n := b.toNat % 16 * 4) (by omega)
    rw [decodeGroups.eq_3 _ _ _ hpad]
    simp only [h1, h2, h3, Option.bind_eq_bind, Option.bind_some, Option.pure_def]
    rw [ofNat_toNat (a := a) (by omega), ofNat_toNat (a := b) (by omega)]
  | case4 a b c rest ih =>
    have ha := a.toNat_lt
    have hb := b.toNat_lt
    have hc := c.toNat_lt
    have h1 := value_digit (n := a.toNat / 4) (by omega)
    have h2 := value_digit (n := a.toNat % 4 * 16 + b.toNat / 16) (by omega)
    have h3 := value_digit (n := b.toNat % 16 * 4 + c.toNat / 64) (by omega)
    have h4 := value_digit (n := c.toNat % 64) (by omega)
    have hpad := digit_ne_pad (n := c.toNat % 64) (by omega)
    rw [decodeGroups.eq_4 _ _ _ _ _ (fun _ hf => absurd hf hpad) (fun hf => absurd hf hpad)]
    simp only [h1, h2, h3, h4, ih, Option.bind_eq_bind, Option.bind_some, Option.pure_def]
    rw [ofNat_toNat (a := a) (by omega), ofNat_toNat (a := b) (by omega),
      ofNat_toNat (a := c) (by omega)]

/-- **What is encoded is decoded.** -/
theorem decodeString_encodeToString (bytes : Bytes) :
    decodeString (encodeToString bytes) = some bytes := by
  rw [decodeString, filter_encodeToString, decodeGroups_encodeToString]

end BrokeTurnkey.Signer.Base64
