import Mathlib.Algebra.Group.Int.Defs
import Mathlib.Algebra.Group.Nat.Defs
import BrokeTurnkey.Text

/-!
# Strings, numbers and addresses of the signer

The functions of the Go standard library that the signer reads its configuration and
its requests with, and what it relies on in `go-ethereum/common`.  An address has many
spellings, in either case and with or without a prefix, and `AddressText` says
which twenty bytes a spelling stands for.  The spelling that `Hex` writes depends on
a hash, but in lower case it is the plain encoding of the bytes.
-/

namespace BrokeTurnkey.Signer

open Text

abbrev Bytes := List UInt8

/-! ### Numbers and flags -/

/-- `big.Int.SetString` in base 10. -/
def setString : Text → Option Int
  | '-' :: digits => (parseDecimal digits).map fun n => -(n : Int)
  | '+' :: digits => (parseDecimal digits).map Int.ofNat
  | digits => (parseDecimal digits).map Int.ofNat

/-- `strconv.ParseUint` in base 10. -/
def parseUint (bitSize : Nat) (s : Text) : Option Nat :=
  (parseDecimal s).filter fun n => n < 2 ^ bitSize

/-- `strconv.ParseBool`. -/
def parseBool (s : Text) : Option Bool :=
  if ["1", "t", "T", "TRUE", "true", "True"].any fun word => word.toList = s then some true
  else if ["0", "f", "F", "FALSE", "false", "False"].any fun word => word.toList = s then some false
  else none

/-! ### Addresses -/

/-- `common.Address`. -/
structure Address where
  bytes : Bytes
  length_bytes : bytes.length = 20
deriving DecidableEq

theorem Address.ext_bytes {a b : Address} (h : a.bytes = b.bytes) : a = b := by
  cases a
  cases b
  simp_all

def has0xPrefix : Text → Bool
  | '0' :: 'x' :: _ => true
  | '0' :: 'X' :: _ => true
  | _ => false

def drop0xPrefix (s : Text) : Text := if has0xPrefix s then s.drop 2 else s

/-- The text is a spelling of the address. -/
def AddressText (s : Text) (a : Address) : Prop := hexDecode (drop0xPrefix s) = some a.bytes

theorem AddressText.eq {s : Text} {a b : Address} (ha : AddressText s a) (hb : AddressText s b) :
    a = b := by
  apply Address.ext_bytes
  exact Option.some.inj (ha.symm.trans hb)

/-- The package `go-ethereum/common`, as much of it as is called, and what the signer
    relies on: which texts are taken for an address, which bytes they are read as, and
    that apart from the case of its letters an address is written as its bytes. -/
structure Common where
  isHexAddress : Text → Bool
  hexToAddress : Text → Address
  /-- `Address.Hex` -/
  hex : Address → Text
  isHexAddress_iff : ∀ s, isHexAddress s = true ↔ ∃ a, AddressText s a
  hexToAddress_eq : ∀ s a, AddressText s a → hexToAddress s = a
  lower_hex : ∀ a, lower (hex a) = '0' :: 'x' :: hexEncode a.bytes

/-- What is accepted is a spelling of what is read. -/
theorem Common.addressText (common : Common) {s : Text} (h : common.isHexAddress s = true) :
    AddressText s (common.hexToAddress s) := by
  obtain ⟨a, ha⟩ := (common.isHexAddress_iff s).mp h
  rw [common.hexToAddress_eq s a ha]
  exact ha

theorem foldl_utf8Size (s : Text) : ∀ n : Nat,
    s.foldl (fun length c => length + c.utf8Size) n = n + byteLength s := by
  induction s with
  | nil => intro n; rfl
  | cons c rest ih =>
    intro n
    simp only [byteLength, List.foldl_cons] at ih ⊢
    rw [ih, ih (0 + c.utf8Size)]
    omega

theorem byteLength_cons (c : Char) (s : Text) :
    byteLength (c :: s) = c.utf8Size + byteLength s := by
  have h := foldl_utf8Size s (0 + c.utf8Size)
  simp only [byteLength, List.foldl_cons] at h ⊢
  rw [h]
  omega

/-- Hexadecimal digits take one byte each. -/
theorem byteLength_of_isHex {s : Text} (h : isHex s = true) : byteLength s = s.length := by
  induction s with
  | nil => rfl
  | cons c rest ih =>
    simp only [isHex, List.all_cons, Bool.and_eq_true] at h
    obtain ⟨n, hn⟩ := Option.isSome_iff_exists.mp h.1
    have hsize : c.utf8Size = 1 := by
      have hlt : c.toNat < 128 := by
        simp only [hexVal] at hn
        grind
      rw [Char.utf8Size_eq_one_iff]
      exact Nat.le_of_lt_succ hlt
    rw [byteLength_cons, ih h.2, hsize, List.length_cons]
    omega

/-! ### The package, given a hash -/

namespace GoEthereum

def isHexAddress (s : Text) : Bool :=
  byteLength (drop0xPrefix s) = 40 && isHex (drop0xPrefix s)

/-- `FromHex`. -/
def fromHex (s : Text) : Bytes :=
  let digits := drop0xPrefix s
  hexDecodePrefix (if byteLength digits % 2 = 1 then '0' :: digits else digits)

/-- `BytesToAddress`: the last twenty bytes, with zeros in front of fewer. -/
def bytesToAddress (b : Bytes) : Address where
  bytes := List.replicate (20 - b.length) 0 ++ b.drop (b.length - 20)
  length_bytes := by simp; omega

def hexToAddress (s : Text) : Address := bytesToAddress (fromHex s)

def hashNibble (hash : Bytes) (i : Nat) : Nat :=
  let hashByte := (hash[i / 2]?.getD 0).toNat
  if i % 2 = 0 then hashByte / 16 else hashByte % 16

/-- A letter whose nibble of the hash is above seven is capitalised. -/
def checksumDigit (hash : Bytes) (i : Nat) (c : Char) : Char :=
  if c.toNat > 57 ∧ hashNibble hash i > 7 then Char.ofNat (c.toNat - 32) else c

/-- `Address.Hex`. -/
def hex (keccak256 : Bytes → Bytes) (a : Address) : Text :=
  let digits := hexEncode a.bytes
  let hash := keccak256 (digits.map fun c => UInt8.ofNat c.toNat)
  '0' :: 'x' :: digits.mapIdx (checksumDigit hash)

theorem toLower_checksumDigit (hash : Bytes) (i : Nat) {c : Char}
    (h : ∃ n < 16, c = hexDigit n) : (checksumDigit hash i c).toLower = c := by
  obtain ⟨n, hn, rfl⟩ := h
  have hall : ∀ k < 16, (hexDigit k).toNat > 57 →
      (Char.ofNat ((hexDigit k).toNat - 32)).toLower = hexDigit k := by decide
  simp only [checksumDigit]
  split
  · rename_i hletter
    exact hall n hn hletter.1
  · exact toLower_hexDigit hn

/-- **In lower case the checksum is gone.** -/
theorem lower_hex (keccak256 : Bytes → Bytes) (a : Address) :
    lower (hex keccak256 a) = '0' :: 'x' :: hexEncode a.bytes := by
  have hdigits : ∀ hash, lower ((hexEncode a.bytes).mapIdx (checksumDigit hash)) =
      hexEncode a.bytes := by
    intro hash
    apply List.ext_getElem
    · simp [lower]
    · intro i hi hi'
      simp only [lower, List.getElem_map, List.getElem_mapIdx]
      exact toLower_checksumDigit hash i (mem_hexEncode (List.getElem_mem hi'))
  simp only [hex]
  have hcons : ∀ s : Text, lower ('0' :: 'x' :: s) = '0' :: 'x' :: lower s := fun s => rfl
  rw [hcons, hdigits]

/-- What `IsHexAddress` accepts, `HexToAddress` reads. -/
theorem addressText_of_isHexAddress {s : Text} (h : isHexAddress s = true) :
    AddressText s (hexToAddress s) := by
  simp only [isHexAddress, Bool.and_eq_true, decide_eq_true_eq] at h
  obtain ⟨hbytes, hhex⟩ := h
  have hlength : (drop0xPrefix s).length = 40 := by rw [← byteLength_of_isHex hhex, hbytes]
  obtain ⟨bytes, hdecode⟩ := exists_hexDecode hhex (by rw [hlength])
  have hbyteslength : bytes.length = 20 := by
    have hdouble := length_of_hexDecode hdecode
    omega
  have hread : fromHex s = bytes := by
    simp only [fromHex, hbytes]
    exact hexDecodePrefix_of_hexDecode hdecode
  rw [AddressText, hdecode, hexToAddress, hread, bytesToAddress]
  simp [hbyteslength]

theorem isHexAddress_of_addressText {s : Text} {a : Address} (h : AddressText s a) :
    isHexAddress s = true := by
  have hhex := isHex_of_hexDecode h
  have hlength := length_of_hexDecode h
  rw [a.length_bytes] at hlength
  rw [isHexAddress, byteLength_of_isHex hhex, hlength, hhex]
  rfl

/-- The package with this hash for the checksums. -/
def common (keccak256 : Bytes → Bytes) : Common where
  isHexAddress
  hexToAddress
  hex := hex keccak256
  isHexAddress_iff := fun _ =>
    ⟨fun h => ⟨_, addressText_of_isHexAddress h⟩, fun ⟨_, ha⟩ => isHexAddress_of_addressText ha⟩
  hexToAddress_eq := fun _ _ ha =>
    (addressText_of_isHexAddress (isHexAddress_of_addressText ha)).eq ha
  lower_hex := lower_hex keccak256

end GoEthereum

end BrokeTurnkey.Signer
