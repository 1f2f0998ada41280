import Mathlib.Data.List.Induction
import Mathlib.Data.Nat.Size
import Mathlib.Tactic.Ring

/-!
# The distinguished encoding

Integers and sequences of them in the distinguished encoding rules: a tag, the length
in the definite form and the contents.  The contents of an integer are the shortest
two's complement, so a number takes a byte less whenever its highest nine bits are
clear, and what is made of numbers has no fixed length.
-/

namespace BrokeTurnkey.Der

/-! ### Bytes -/

/-- The last `k` bytes of a number, the highest one first. -/
def bigEndian : Nat → Nat → List UInt8
  | 0, _ => []
  | k + 1, n => bigEndian k (n / 256) ++ [UInt8.ofNat (n % 256)]

/-- The number the bytes make. -/
def unsigned (bytes : List UInt8) : Nat := bytes.foldl (fun n byte => 256 * n + byte.toNat) 0

/-- The integer the bytes make in two's complement. -/
def signed : List UInt8 → Int
  | [] => 0
  | first :: rest =>
    if first.toNat < 128 then unsigned (first :: rest)
    else unsigned (first :: rest) - 256 ^ (rest.length + 1)

@[simp] theorem length_bigEndian (k : Nat) : ∀ n, (bigEndian k n).length = k := by
  induction k with
  | zero => exact fun _ => rfl
  | succ k ih =>
    intro n
    rw [bigEndian, List.length_append, ih, List.length_singleton]

theorem unsigned_concat (bytes : List UInt8) (last : UInt8) :
    unsigned (bytes ++ [last]) = 256 * unsigned bytes + last.toNat := by
  simp only [unsigned, List.foldl_append, List.foldl_cons, List.foldl_nil]

theorem unsigned_bigEndian (k : Nat) : ∀ n, unsigned (bigEndian k n) = n % 256 ^ k := by
  induction k with
  | zero => exact fun n => (Nat.mod_one n).symm
  | succ k ih =>
    intro n
    have hbyte : (UInt8.ofNat (n % 256)).toNat = n % 256 :=
      UInt8.toNat_ofNat_of_lt' (Nat.mod_lt n (by decide))
    rw [bigEndian, unsigned_concat, ih, hbyte, pow_succ', Nat.mod_mul, Nat.add_comm]

theorem unsigned_lt (bytes : List UInt8) : unsigned bytes < 256 ^ bytes.length := by
  induction bytes using List.reverseRecOn with
  | nil => exact Nat.one_pos
  | append_singleton bytes last ih =>
    have hlast : last.toNat < 256 := last.toNat_lt
    rw [unsigned_concat, List.length_append, List.length_singleton, pow_succ']
    omega

theorem unsigned_cons (first : UInt8) (rest : List UInt8) :
    unsigned (first :: rest) = first.toNat * 256 ^ rest.length + unsigned rest := by
  induction rest using List.reverseRecOn with
  | nil => simp [unsigned]
  | append_singleton rest last ih =>
    rw [← List.cons_append, unsigned_concat, unsigned_concat, ih, List.length_append,
      List.length_singleton, pow_succ']
    ring

/-- The first bit is clear for the lower half of the numbers. -/
theorem unsigned_lt_half_iff (first : UInt8) (rest : List UInt8) :
    unsigned (first :: rest) < 128 * 256 ^ rest.length ↔ first.toNat < 128 := by
  have hrest := unsigned_lt rest
  rw [unsigned_cons]
  constructor
  · intro h
    by_contra hlarge
    have hle : 128 * 256 ^ rest.length ≤ first.toNat * 256 ^ rest.length :=
      Nat.mul_le_mul_right _ (Nat.not_lt.mp hlarge)
    omega
  · intro h
    have hle : (first.toNat + 1) * 256 ^ rest.length ≤ 128 * 256 ^ rest.length :=
      Nat.mul_le_mul_right _ h
    rw [Nat.succ_mul] at hle
    omega

/-! ### Integers -/

/-- How many bytes a number takes. -/
def contentLength (n : Nat) : Nat := n.size / 8 + 1

/-- The contents of an integer. -/
def contents (n : Nat) : List UInt8 := bigEndian (contentLength n) n

@[simp] theorem length_contents (n : Nat) : (contents n).length = contentLength n :=
  length_bigEndian _ n

/-- A number takes more than `k` bytes unless it leaves the first of `8 * (k + 1)` bits
    clear. -/
theorem contentLength_le_iff {n k : Nat} : contentLength n ≤ k + 1 ↔ n < 128 * 256 ^ k := by
  have hpow : 128 * 256 ^ k = 2 ^ (8 * k + 7) := by
    rw [pow_add, pow_mul]
    ring
  rw [hpow, ← Nat.size_le, contentLength]
  omega

/-- The contents denote the number. -/
theorem signed_contents (n : Nat) : signed (contents n) = n := by
  have hlt : n < 128 * 256 ^ (n.size / 8) := contentLength_le_iff.mp le_rfl
  have hvalue : unsigned (contents n) = n := by
    rw [contents, unsigned_bigEndian, contentLength, pow_succ']
    exact Nat.mod_eq_of_lt (by omega)
  have hlength := length_contents n
  cases hcontents : contents n with
  | nil =>
    rw [hcontents] at hlength
    cases hlength
  | cons first rest =>
    rw [hcontents] at hvalue hlength
    have hrest : rest.length = n.size / 8 := Nat.succ.inj hlength
    have hfirst : first.toNat < 128 := by
      rw [← unsigned_lt_half_iff first rest, hvalue, hrest]
      exact hlt
    rw [signed, if_pos hfirst, hvalue]

/-- Nothing shorter denotes it. -/
theorem contentLength_le_of_signed {bytes : List UInt8} {n : Nat} (hbytes : bytes ≠ [])
    (h : signed bytes = n) : contentLength n ≤ bytes.length := by
  cases bytes with
  | nil => exact absurd rfl hbytes
  | cons first rest =>
    rw [List.length_cons, contentLength_le_iff]
    by_cases hfirst : first.toNat < 128
    · rw [signed, if_pos hfirst, Int.natCast_inj] at h
      rw [← h, unsigned_lt_half_iff]
      exact hfirst
    · have hlt := unsigned_lt (first :: rest)
      rw [List.length_cons] at hlt
      rw [signed, if_neg hfirst] at h
      have hpow : ((256 ^ (rest.length + 1) : Nat) : Int) = 256 ^ (rest.length + 1) := by
        rw [Nat.cast_pow]
        rfl
      rw [← hpow] at h
      omega

/-! ### Elements -/

/-- The length in the definite form. -/
def lengthOctets (n : Nat) : List UInt8 :=
  if n < 128 then [UInt8.ofNat n]
  else
    let digits := (n.size + 7) / 8
    UInt8.ofNat (128 + digits) :: bigEndian digits n

def element (tag : UInt8) (contents : List UInt8) : List UInt8 :=
  tag :: (lengthOctets contents.length ++ contents)

def integer (n : Nat) : List UInt8 := element 0x02 (contents n)

def sequence (elements : List (List UInt8)) : List UInt8 := element 0x30 elements.flatten

/-- The two numbers of an ECDSA signature. -/
def signature (r s : Nat) : List UInt8 := sequence [integer r, integer s]

theorem length_element {tag : UInt8} {contents : List UInt8} (h : contents.length < 128) :
    (element tag contents).length = contents.length + 2 := by
  rw [element, lengthOctets, if_pos h, List.length_cons, List.length_append,
    List.length_singleton]
  omega

/-- The length of a signature over a curve of 256 bits. -/
theorem length_signature {r s : Nat} (hr : r < 2 ^ 256) (hs : s < 2 ^ 256) :
    (signature r s).length = 6 + contentLength r + contentLength s ∧
      (signature r s).length ≤ 72 := by
  have hbound : ∀ n, n < 2 ^ 256 → contentLength n ≤ 33 := fun n hn =>
    contentLength_le_iff.mpr (hn.trans (by decide))
  have hrlength := hbound r hr
  have hslength := hbound s hs
  have hinteger : ∀ n, contentLength n ≤ 33 → (integer n).length = contentLength n + 2 := by
    intro n hn
    rw [integer, length_element, length_contents]
    rw [length_contents]
    omega
  have hflat : ([integer r, integer s].flatten).length =
      contentLength r + 2 + (contentLength s + 2) := by
    simp [hinteger r hrlength, hinteger s hslength]
  rw [signature, sequence, length_element, hflat]
  · omega
  · rw [hflat]
    omega

end BrokeTurnkey.Der
