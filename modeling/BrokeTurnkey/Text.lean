import Mathlib.Data.List.Basic

/-!
# Text, decimal numbers and hexadecimal bytes

Strings as lists of characters, with the operations of the JavaScript and Go
standard libraries the program uses on them.  The facts that carry the later
arguments are the round trips: a printed number is read back, written bytes are
read back, and lower-casing a hexadecimal string gives the one spelling the
encoder writes.

Case folding is ASCII only.  Beyond ASCII, `toLowerCase` and `ToLower` bring two
characters into it, U+0130 and U+212A, with `i` and `k`.  Neither is a digit, so of
what is compared in lower case only the message of a provider's error could show it.
-/

namespace BrokeTurnkey

abbrev Text := List Char

namespace Text

def lower (s : Text) : Text := s.map Char.toLower

/-- `String.prototype.includes`. -/
def includes : Text → Text → Bool
  | [], pattern => pattern.isEmpty
  | c :: rest, pattern => pattern.isPrefixOf (c :: rest) || includes rest pattern

/-- The length of the UTF-8 encoding, Go's `len` of a string. -/
def byteLength (s : Text) : Nat := s.foldl (fun length c => length + c.utf8Size) 0

/-- `strings.TrimPrefix`. -/
def trimPrefix (start s : Text) : Text := if start.isPrefixOf s then s.drop start.length else s

/-- `unicode.IsSpace`. -/
def isSpace (c : Char) : Bool :=
  let n := c.toNat
  (9 ≤ n && n ≤ 13) || n == 0x20 || n == 0x85 || n == 0xA0 || n == 0x1680 ||
    (0x2000 ≤ n && n ≤ 0x200A) || n == 0x2028 || n == 0x2029 || n == 0x202F || n == 0x205F ||
    n == 0x3000

/-- The white space of JavaScript, to which U+FEFF belongs and U+0085 does not. -/
def isWhiteSpace (c : Char) : Bool := c.toNat == 0xFEFF || (c.toNat != 0x85 && isSpace c)

/-- The text without the spaces at its ends. -/
def trimBy (space : Char → Bool) (s : Text) : Text :=
  ((s.dropWhile space).reverse.dropWhile space).reverse

/-- `strings.TrimSpace`. -/
def trimSpace (s : Text) : Text := trimBy isSpace s

/-- `String.prototype.trim`. -/
def trim (s : Text) : Text := trimBy isWhiteSpace s

theorem isDigit_range {c : Char} (h : c.isDigit = true) : 48 ≤ c.toNat ∧ c.toNat ≤ 57 := by
  simpa [Char.isDigit, UInt32.le_iff_toNat_le] using h

theorem isWhiteSpace_of_isDigit {c : Char} (h : c.isDigit = true) : isWhiteSpace c = false := by
  have hrange := isDigit_range h
  simp only [isWhiteSpace, isSpace]
  grind

theorem dropWhile_space {space : Char → Bool} {s : Text} (h : ∀ c ∈ s.head?, space c = false) :
    s.dropWhile space = s := by
  cases s with
  | nil => rfl
  | cons c rest => simp [List.dropWhile, h c rfl]

/-- Nothing is trimmed between two ends that are no spaces. -/
theorem trim_eq {s : Text} (hfirst : ∀ c ∈ s.head?, isWhiteSpace c = false)
    (hlast : ∀ c ∈ s.getLast?, isWhiteSpace c = false) : trim s = s := by
  have hend : s.reverse.dropWhile isWhiteSpace = s.reverse :=
    dropWhile_space (by simpa using hlast)
  rw [trim, trimBy, dropWhile_space hfirst, hend, List.reverse_reverse]

/-- What stands before the first separator is determined by the whole. -/
theorem append_cons_inj {sep : Char} : ∀ {s t rest rest' : Text}, sep ∉ s → sep ∉ t →
    s ++ sep :: rest = t ++ sep :: rest' → s = t ∧ rest = rest'
  | [], [], _, _, _, _, heq => ⟨rfl, (List.cons.inj heq).2⟩
  | [], c :: t, _, _, _, ht, heq => absurd ((List.cons.inj heq).1 ▸ List.mem_cons_self) ht
  | c :: s, [], _, _, hs, _, heq => absurd ((List.cons.inj heq).1 ▸ List.mem_cons_self) hs
  | c :: s, d :: t, _, _, hs, ht, heq => by
    obtain ⟨rfl, hrest⟩ := List.cons.inj heq
    obtain ⟨rfl, hend⟩ := append_cons_inj (fun h => hs (List.mem_cons_of_mem _ h))
      (fun h => ht (List.mem_cons_of_mem _ h)) hrest
    exact ⟨rfl, hend⟩

/-! ### Decimal numbers -/

/-- A non-empty run of decimal digits. -/
def parseDecimal (s : Text) : Option Nat :=
  if s ≠ [] ∧ s.all Char.isDigit = true then some (Nat.ofDigitChars 10 s 0) else none

/-- What reads as a decimal number is digits only. -/
theorem parseDecimal_eq_some {s : Text} {n : Nat} (h : parseDecimal s = some n) :
    s ≠ [] ∧ ∀ c ∈ s, c.isDigit = true := by
  simp only [parseDecimal] at h
  split at h
  · rename_i hdigits
    exact ⟨hdigits.1, List.all_eq_true.mp hdigits.2⟩
  · cases h

/-- `parseInt(s, 10)`, with `none` for `NaN`; what follows the digits is ignored. -/
def parseInt (s : Text) : Option Int :=
  match s.dropWhile isWhiteSpace with
  | '-' :: rest => (digits rest).map fun n => -(n : Int)
  | '+' :: rest => (digits rest).map Int.ofNat
  | rest => (digits rest).map Int.ofNat
where
  digits (s : Text) : Option Nat := parseDecimal (s.takeWhile Char.isDigit)

example : parseInt " -12 rows".toList = some (-12) := by decide

theorem not_mem_of_parseDecimal {c : Char} (hc : c.isDigit = false) {s : Text} {n : Nat}
    (h : parseDecimal s = some n) : c ∉ s := by
  intro hmem
  have hdigit := (parseDecimal_eq_some h).2 c hmem
  rw [hc] at hdigit
  cases hdigit

def decimal (n : Nat) : Text := Nat.toDigits 10 n

theorem parseDecimal_decimal (n : Nat) : parseDecimal (decimal n) = some n := by
  have hdigits : (decimal n).all Char.isDigit = true :=
    List.all_eq_true.mpr fun c hc =>
      Nat.isDigit_of_mem_toDigits (by decide) (by decide) hc
  simp only [parseDecimal, hdigits, and_true]
  simp [decimal]

theorem not_mem_decimal {c : Char} (hc : c.isDigit = false) (n : Nat) : c ∉ decimal n :=
  not_mem_of_parseDecimal hc (parseDecimal_decimal n)

theorem decimal_injective : Function.Injective decimal := by
  intro m n heq
  have hread := congrArg parseDecimal heq
  rw [parseDecimal_decimal, parseDecimal_decimal] at hread
  exact Option.some.inj hread

theorem isDigit_of_mem_decimal {n : Nat} {c : Char} (hc : c ∈ decimal n) : c.isDigit = true :=
  Nat.isDigit_of_mem_toDigits (by decide) (by decide) hc

theorem digitChar_of_isDigit {c : Char} (h : c.isDigit = true) :
    Nat.digitChar (c.toNat - '0'.toNat) = c := by
  have hall : ∀ k < 58, 48 ≤ k → Nat.digitChar (k - 48) = Char.ofNat k := by decide
  obtain ⟨hlow, hhigh⟩ := isDigit_range h
  have hc := hall c.toNat (by omega) hlow
  rwa [Char.ofNat_toNat] at hc

/-- Digits that are read onto a positive number are printed behind it. -/
theorem toDigits_ofDigitChars {digits : Text} (h : digits.all Char.isDigit = true) :
    ∀ {n : Nat}, 0 < n →
      Nat.toDigits 10 (Nat.ofDigitChars 10 digits n) = Nat.toDigits 10 n ++ digits := by
  induction digits with
  | nil => simp
  | cons c rest ih =>
    intro n hn
    simp only [List.all_cons, Bool.and_eq_true] at h
    obtain ⟨hlow, hhigh⟩ := isDigit_range h.1
    have hzero : '0'.toNat = 48 := by decide
    have hdigit : c.toNat - '0'.toNat < 10 := by omega
    have hcons := Nat.toDigits_append_toDigits (b := 10) (by decide) hn hdigit
    rw [Nat.toDigits_of_lt_base hdigit, digitChar_of_isDigit h.1] at hcons
    rw [Nat.ofDigitChars_cons, ih h.2 (by omega), ← hcons, List.append_assoc]
    rfl

/-- The decimal spelling of an integer. -/
def decimalInt : Int → Text
  | .ofNat n => decimal n
  | .negSucc n => '-' :: decimal (n + 1)

/-! ### Hexadecimal digits -/

/-- The value of a hexadecimal digit of either case. -/
def hexVal (c : Char) : Option Nat :=
  if 48 ≤ c.toNat ∧ c.toNat ≤ 57 then some (c.toNat - 48)
  else if 97 ≤ c.toNat ∧ c.toNat ≤ 102 then some (c.toNat - 87)
  else if 65 ≤ c.toNat ∧ c.toNat ≤ 70 then some (c.toNat - 55)
  else none

/-- The lower-case digit of a value below sixteen. -/
def hexDigit (n : Nat) : Char := if n < 10 then Char.ofNat (48 + n) else Char.ofNat (87 + n)

def isHex (s : Text) : Bool := s.all fun c => (hexVal c).isSome

theorem hexVal_hexDigit {n : Nat} (h : n < 16) : hexVal (hexDigit n) = some n := by
  have hall : ∀ k < 16, hexVal (hexDigit k) = some k := by decide
  exact hall n h

/-- What is no hex digit is not written. -/
theorem hexDigit_ne {c : Char} (hc : hexVal c = none) {n : Nat} (h : n < 16) :
    hexDigit n ≠ c := by
  rintro rfl
  rw [hexVal_hexDigit h] at hc
  cases hc

theorem toLower_hexDigit {n : Nat} (h : n < 16) : (hexDigit n).toLower = hexDigit n := by
  have hall : ∀ k < 16, (hexDigit k).toLower = hexDigit k := by decide
  exact hall n h

theorem hexVal_lt {c : Char} {n : Nat} (h : hexVal c = some n) : n < 16 := by
  simp only [hexVal] at h
  grind

/-- Both cases of a digit fold to the digit the encoder writes. -/
theorem toLower_of_hexVal {c : Char} {n : Nat} (h : hexVal c = some n) :
    c.toLower = hexDigit n := by
  have hall : ∀ k < 128, ∀ v < 16, hexVal (Char.ofNat k) = some v →
      (Char.ofNat k).toLower = hexDigit v := by decide
  have hlt : c.toNat < 128 := by
    simp only [hexVal] at h
    grind
  have hc := hall c.toNat hlt n (hexVal_lt h)
  rw [Char.ofNat_toNat] at hc
  exact hc h

theorem toLower_of_not_ascii {c : Char} (h : ¬ c.toNat < 128) : c.toLower = c := by
  apply dif_neg
  rintro ⟨_, hle⟩
  have hnat : c.toNat ≤ 'Z'.toNat := hle
  exact h (Nat.lt_of_le_of_lt hnat (by decide))

/-- A statement about one character holds if it holds of the ASCII characters and
    of those that have no case. -/
theorem char_cases {P : Char → Prop} (hascii : ∀ k < 128, P (Char.ofNat k))
    (hother : ∀ c : Char, ¬ c.toNat < 128 → P c) (c : Char) : P c := by
  by_cases h : c.toNat < 128
  · have hc := hascii c.toNat h
    rwa [Char.ofNat_toNat] at hc
  · exact hother c h

theorem hexVal_toLower (c : Char) : hexVal c.toLower = hexVal c := by
  apply char_cases (P := fun c => hexVal c.toLower = hexVal c)
  · decide
  · intro d hd
    rw [toLower_of_not_ascii hd]

theorem toLower_toLower (c : Char) : c.toLower.toLower = c.toLower := by
  apply char_cases (P := fun c => c.toLower.toLower = c.toLower)
  · decide
  · intro d hd
    rw [toLower_of_not_ascii hd, toLower_of_not_ascii hd]

theorem toLower_eq_zero {c : Char} (h : c.toLower = '0') : c = '0' := by
  revert h
  apply char_cases (P := fun c => c.toLower = '0' → c = '0')
  · decide
  · intro d hd
    rw [toLower_of_not_ascii hd]
    exact id

theorem toLower_eq_x {c : Char} (h : c.toLower = 'x') : c = 'x' ∨ c = 'X' := by
  revert h
  apply char_cases (P := fun c => c.toLower = 'x' → c = 'x' ∨ c = 'X')
  · decide
  · intro d hd
    rw [toLower_of_not_ascii hd]
    exact Or.inl

theorem lower_lower (s : Text) : lower (lower s) = lower s := by
  simp only [lower, List.map_map]
  apply List.map_congr_left
  intro c _
  exact toLower_toLower c

/-- A non-empty run of digits in a base up to sixteen. -/
def parseRadix (base : Nat) (s : Text) : Option Nat :=
  if s = [] then none
  else s.foldlM (fun value c =>
    match hexVal c with
    | some digit => if digit < base then some (base * value + digit) else none
    | none => none) 0

/-! ### Hexadecimal bytes -/

def byteOf (high low : Nat) : UInt8 := UInt8.ofNat (16 * high + low)

theorem toNat_byteOf {high low : Nat} (hhigh : high < 16) (hlow : low < 16) :
    (byteOf high low).toNat = 16 * high + low :=
  UInt8.toNat_ofNat_of_lt' (show 16 * high + low < 256 by omega)

@[simp] theorem byteOf_halves (byte : UInt8) :
    byteOf (byte.toNat / 16) (byte.toNat % 16) = byte := by
  have hbyte : byte.toNat < 256 := byte.toNat_lt
  rw [← UInt8.toNat_inj, toNat_byteOf (by omega) (by omega)]
  omega

def hexEncode : List UInt8 → Text
  | [] => []
  | byte :: rest => hexDigit (byte.toNat / 16) :: hexDigit (byte.toNat % 16) :: hexEncode rest

/-- `hex.DecodeString` where it succeeds. -/
def hexDecode : Text → Option (List UInt8)
  | [] => some []
  | [_] => none
  | high :: low :: rest => do
    let h ← hexVal high
    let l ← hexVal low
    let bytes ← hexDecode rest
    return byteOf h l :: bytes

/-- The bytes `hex.DecodeString` returns next to its error: those before it. -/
def hexDecodePrefix : Text → List UInt8
  | high :: low :: rest =>
    match hexVal high, hexVal low with
    | some h, some l => byteOf h l :: hexDecodePrefix rest
    | _, _ => []
  | _ => []

/-- A pair of digits is read before the rest. -/
theorem hexDecode_cons_eq_some {high low : Char} {rest : Text} {bytes : List UInt8} :
    hexDecode (high :: low :: rest) = some bytes ↔
      ∃ x, hexVal high = some x ∧ ∃ y, hexVal low = some y ∧
        ∃ tail, hexDecode rest = some tail ∧ byteOf x y :: tail = bytes := by
  simp only [hexDecode, Option.bind_eq_bind, Option.bind_eq_some_iff, Option.pure_def,
    Option.some.injEq]

@[simp] theorem hexDecode_hexEncode (bytes : List UInt8) :
    hexDecode (hexEncode bytes) = some bytes := by
  induction bytes with
  | nil => rfl
  | cons byte rest ih =>
    have hbyte : byte.toNat < 256 := byte.toNat_lt
    have hhigh : byte.toNat / 16 < 16 := by omega
    have hlow : byte.toNat % 16 < 16 := by omega
    simp [hexEncode, hexDecode, hexVal_hexDigit hhigh, hexVal_hexDigit hlow, ih]

theorem hexEncode_injective : Function.Injective hexEncode := by
  intro left right heq
  have hread := congrArg hexDecode heq
  rw [hexDecode_hexEncode, hexDecode_hexEncode] at hread
  exact Option.some.inj hread

@[simp] theorem length_hexEncode (bytes : List UInt8) :
    (hexEncode bytes).length = 2 * bytes.length := by
  induction bytes with
  | nil => rfl
  | cons byte rest ih => simp only [hexEncode, List.length_cons, ih]; omega

theorem mem_hexEncode {bytes : List UInt8} {c : Char} (hc : c ∈ hexEncode bytes) :
    ∃ n < 16, c = hexDigit n := by
  induction bytes with
  | nil => cases hc
  | cons byte rest ih =>
    have hbyte : byte.toNat < 256 := byte.toNat_lt
    rw [hexEncode, List.mem_cons, List.mem_cons] at hc
    rcases hc with rfl | rfl | hc
    · exact ⟨byte.toNat / 16, by omega, rfl⟩
    · exact ⟨byte.toNat % 16, by omega, rfl⟩
    · exact ih hc

theorem lower_hexEncode (bytes : List UInt8) : lower (hexEncode bytes) = hexEncode bytes := by
  have hid : ∀ c ∈ hexEncode bytes, c.toLower = c := by
    intro c hc
    obtain ⟨n, hn, rfl⟩ := mem_hexEncode hc
    exact toLower_hexDigit hn
  exact (List.map_congr_left hid).trans (List.map_id _)

/-- **Lower-casing is the canonical spelling.**  A string that decodes is, up to
    case, what the encoder writes for its bytes. -/
theorem lower_of_hexDecode : ∀ {s : Text} {bytes : List UInt8},
    hexDecode s = some bytes → lower s = hexEncode bytes
  | [], bytes, h => by
    rw [hexDecode, Option.some.injEq] at h
    subst h
    rfl
  | [_], _, h => by cases h
  | high :: low :: rest, bytes, h => by
    obtain ⟨x, hx, y, hy, tail, htail, rfl⟩ := hexDecode_cons_eq_some.mp h
    have hylt := hexVal_lt hy
    have hbyte := toNat_byteOf (hexVal_lt hx) hylt
    have hhigh : (byteOf x y).toNat / 16 = x := by omega
    have hlow : (byteOf x y).toNat % 16 = y := by omega
    have hrest := lower_of_hexDecode htail
    simp only [lower, List.map_cons] at hrest ⊢
    rw [hexEncode, hhigh, hlow, toLower_of_hexVal hx, toLower_of_hexVal hy, hrest]

theorem hexDecode_lower : ∀ s : Text, hexDecode (lower s) = hexDecode s
  | [] => rfl
  | [_] => rfl
  | high :: low :: rest => by
    have hrest := hexDecode_lower rest
    simp only [lower, List.map_cons] at hrest ⊢
    simp only [hexDecode, hexVal_toLower, hrest]

theorem length_of_hexDecode {s : Text} {bytes : List UInt8} (h : hexDecode s = some bytes) :
    s.length = 2 * bytes.length := by
  have hlen := congrArg List.length (lower_of_hexDecode h)
  simpa [lower] using hlen

/-- Hexadecimal digits in even number decode. -/
theorem exists_hexDecode : ∀ {s : Text}, isHex s = true → s.length % 2 = 0 →
    ∃ bytes, hexDecode s = some bytes
  | [], _, _ => ⟨[], rfl⟩
  | [_], _, hlen => by simp at hlen
  | high :: low :: rest, hhex, hlen => by
    simp only [isHex, List.all_cons, Bool.and_eq_true] at hhex
    obtain ⟨hhigh, hlow, hrest⟩ := hhex
    obtain ⟨x, hx⟩ := Option.isSome_iff_exists.mp hhigh
    obtain ⟨y, hy⟩ := Option.isSome_iff_exists.mp hlow
    obtain ⟨tail, htail⟩ := exists_hexDecode (s := rest) hrest (by simp at hlen; omega)
    exact ⟨byteOf x y :: tail, by simp [hexDecode, hx, hy, htail]⟩

theorem isHex_of_hexDecode : ∀ {s : Text} {bytes : List UInt8}, hexDecode s = some bytes →
    isHex s = true
  | [], _, _ => rfl
  | [_], _, h => by cases h
  | high :: low :: rest, bytes, h => by
    obtain ⟨x, hx, y, hy, tail, htail, rfl⟩ := hexDecode_cons_eq_some.mp h
    have hrest := isHex_of_hexDecode htail
    simp only [isHex] at hrest ⊢
    simp [hx, hy, hrest]

theorem hexDecodePrefix_of_hexDecode : ∀ {s : Text} {bytes : List UInt8},
    hexDecode s = some bytes → hexDecodePrefix s = bytes
  | [], bytes, h => by
    rw [hexDecode, Option.some.injEq] at h
    subst h
    rfl
  | [_], _, h => by cases h
  | high :: low :: rest, bytes, h => by
    obtain ⟨x, hx, y, hy, tail, htail, rfl⟩ := hexDecode_cons_eq_some.mp h
    simp only [hexDecodePrefix, hx, hy, hexDecodePrefix_of_hexDecode htail]

end Text

end BrokeTurnkey
