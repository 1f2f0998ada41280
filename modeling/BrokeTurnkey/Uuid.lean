import BrokeTurnkey.Text

/-!
# The uuid column type

A uuid column stores sixteen bytes.  Text that is compared with such a column is
first read by the database, which accepts both cases of the hexadecimal digits,
hyphens after every second byte and an optional pair of braces. What the
database hands back is always the one canonical spelling.
-/

namespace BrokeTurnkey

structure Uuid where
  bytes : List UInt8
  length_bytes : bytes.length = 16
deriving DecidableEq

namespace Uuid

open Text

/-- The hyphen that may follow a byte. -/
def dropHyphen : Text → Text
  | '-' :: rest => rest
  | s => s

/-- Read `n` bytes of a uuid, a hyphen allowed after every second one. -/
def readBytes : Nat → Text → Option (List UInt8 × Text)
  | 0, s => some ([], s)
  | n + 1, high :: low :: rest => do
    let h ← hexVal high
    let l ← hexVal low
    let (bytes, rest) ← readBytes n (if n % 2 = 0 ∧ n ≠ 0 then dropHyphen rest else rest)
    return (byteOf h l :: bytes, rest)
  | _ + 1, _ => none

/-- The input function of the column type. -/
def ofText (s : Text) : Option Uuid :=
  let read := match s with
    | '{' :: rest => (readBytes 16 rest).bind fun (bytes, rest) =>
        if rest = ['}'] then some bytes else none
    | s => (readBytes 16 s).bind fun (bytes, rest) => if rest = [] then some bytes else none
  read.bind fun bytes => if h : bytes.length = 16 then some ⟨bytes, h⟩ else none

/-- The digits of the last bytes of a uuid, with the hyphens of the 8-4-4-4-12 grouping. -/
def writeBytes : List UInt8 → Text
  | [] => []
  | byte :: rest =>
    hexDigit (byte.toNat / 16) :: hexDigit (byte.toNat % 16) ::
      (if rest.length ∈ [12, 10, 8, 6] then '-' :: writeBytes rest else writeBytes rest)

/-- The output function of the column type. -/
def toText (u : Uuid) : Text := writeBytes u.bytes

theorem dropHyphen_writeBytes (bytes : List UInt8) :
    dropHyphen (writeBytes bytes) = writeBytes bytes := by
  cases bytes with
  | nil => rfl
  | cons byte rest =>
    have hbyte : byte.toNat < 256 := byte.toNat_lt
    have hne : hexDigit (byte.toNat / 16) ≠ '-' := hexDigit_ne (by decide) (by omega)
    simp only [writeBytes]
    exact dropHyphen.eq_2 _ fun rest' heq => hne (List.cons.inj heq).1

theorem readBytes_writeBytes (bytes : List UInt8) :
    readBytes bytes.length (writeBytes bytes) = some (bytes, []) := by
  induction bytes with
  | nil => rfl
  | cons byte rest ih =>
    have hbyte : byte.toNat < 256 := byte.toNat_lt
    have hhigh := hexVal_hexDigit (n := byte.toNat / 16) (by omega)
    have hlow := hexVal_hexDigit (n := byte.toNat % 16) (by omega)
    -- a hyphen is written only where the reader skips one
    have hskip : (if rest.length % 2 = 0 ∧ rest.length ≠ 0 then
        dropHyphen (if rest.length ∈ [12, 10, 8, 6] then '-' :: writeBytes rest
          else writeBytes rest)
        else if rest.length ∈ [12, 10, 8, 6] then '-' :: writeBytes rest
          else writeBytes rest) = writeBytes rest := by
      by_cases hmem : rest.length ∈ [12, 10, 8, 6]
      · have heven : rest.length % 2 = 0 ∧ rest.length ≠ 0 := by
          simp only [List.mem_cons, List.not_mem_nil, or_false] at hmem
          omega
        rw [if_pos hmem, if_pos heven]
        rfl
      · rw [if_neg hmem, dropHyphen_writeBytes, ite_self]
    simp only [writeBytes, List.length_cons, readBytes, hhigh, hlow, Option.bind_eq_bind,
      Option.bind_some, hskip, ih, byteOf_halves, Option.pure_def]

/-- What the database writes it reads back. -/
@[simp] theorem ofText_toText (u : Uuid) : ofText (toText u) = some u := by
  obtain ⟨bytes, hlen⟩ := u
  have hread := readBytes_writeBytes bytes
  rw [hlen] at hread
  cases bytes with
  | nil => cases hlen
  | cons byte rest =>
    have hbyte : byte.toNat < 256 := byte.toNat_lt
    have hne : hexDigit (byte.toNat / 16) ≠ '{' := hexDigit_ne (by decide) (by omega)
    simp only [ofText, toText]
    split
    · rename_i heq
      simp only [writeBytes, List.cons.injEq] at heq
      exact absurd heq.1 hne
    · rw [hread]
      simp [hlen]

/-- A text that is compared with a printed id names this id. -/
theorem ofText_of_toText {u : Uuid} {s : Text} (h : u.toText = s) : ofText s = some u := by
  rw [← h, ofText_toText]

theorem toText_injective : Function.Injective toText := by
  intro left right heq
  have hread := congrArg ofText heq
  rw [ofText_toText, ofText_toText] at hread
  exact Option.some.inj hread

/-! ### No colons

A text the database reads as a uuid contains no colon. -/

theorem hexVal_colon : hexVal ':' = none := by decide

theorem dropHyphen_colon {s : Text} (h : ':' ∈ s) : ':' ∈ dropHyphen s := by
  cases s with
  | nil => exact h
  | cons c rest =>
    by_cases hc : c = '-'
    · subst hc
      exact (List.mem_cons.mp h).resolve_left (by decide)
    · rw [dropHyphen.eq_2 _ fun rest' heq => hc (List.cons.inj heq).1]
      exact h

theorem readBytes_colon (n : Nat) : ∀ {s rest : Text} {bytes : List UInt8},
    readBytes n s = some (bytes, rest) → ':' ∈ s → ':' ∈ rest := by
  induction n with
  | zero =>
    intro s rest bytes h hmem
    cases h
    exact hmem
  | succ n ih =>
    intro s rest bytes h hmem
    match s, h with
    | high :: low :: tail, h =>
      simp only [readBytes, Option.bind_eq_bind, Option.bind_eq_some_iff, Option.pure_def,
        Option.some.injEq, Prod.mk.injEq] at h
      obtain ⟨x, hx, y, hy, ⟨bytes', rest'⟩, hread, _, rfl⟩ := h
      have htail : ':' ∈ tail := by
        rcases List.mem_cons.mp hmem with rfl | hmem
        · rw [hexVal_colon] at hx
          cases hx
        · rcases List.mem_cons.mp hmem with rfl | hmem
          · rw [hexVal_colon] at hy
            cases hy
          · exact hmem
      refine ih hread ?_
      split
      · exact dropHyphen_colon htail
      · exact htail

theorem colon_notMem_of_ofText {s : Text} {u : Uuid} (h : ofText s = some u) : ':' ∉ s := by
  intro hmem
  simp only [ofText, Option.bind_eq_some_iff] at h
  obtain ⟨bytes, hread, _⟩ := h
  split at hread
  · rename_i rest
    rw [Option.bind_eq_some_iff] at hread
    obtain ⟨⟨bytes', rest'⟩, hread, hend⟩ := hread
    have hmem' := readBytes_colon 16 hread ((List.mem_cons.mp hmem).resolve_left (by decide))
    dsimp only at hend
    split at hend
    · rename_i hrest
      subst hrest
      exact absurd hmem' (by decide)
    · cases hend
  · rw [Option.bind_eq_some_iff] at hread
    obtain ⟨⟨bytes', rest'⟩, hread, hend⟩ := hread
    have hmem' := readBytes_colon 16 hread hmem
    dsimp only at hend
    split at hend
    · rename_i hrest
      subst hrest
      cases hmem'
    · cases hend

end Uuid

end BrokeTurnkey
