import BrokeTurnkey.Schema
import BrokeTurnkey.Signer.Handlers

/-!
# JSON bodies

`decodeJSON` of `cmd/crypto/handlers.go`, with what `encoding/json` makes of a value and
a struct.  A value is decoded into a variable: `null` leaves it as it is, the members of
an object are matched to the fields of a struct up to case, a later member overwrites an
earlier one, and a field without a member stays zero.
-/

namespace BrokeTurnkey.Signer

open Text

def maxBodyBytes : Nat := 2 ^ 20

/-! ### Values -/

/-- Decode a value into a variable that holds something already. -/
abbrev Decode (α : Type) := α → Json → Option α

namespace Decode

def string : Decode Text
  | current, .null => some current
  | _, .str s => some s
  | _, _ => none

/-- An unsigned integer below `bound`. -/
def uint {α : Type} (bound : Nat) (ofNat : Nat → α) : Decode α
  | current, .null => some current
  | _, .num n => if 0 ≤ n ∧ n < bound then some (ofNat n.toNat) else none
  | _, _ => none

def uint32 : Decode UInt32 := uint (2 ^ 32) UInt32.ofNat

def uint64 : Decode UInt64 := uint (2 ^ 64) UInt64.ofNat

/-! ### Structs -/

/-- `foldRune`, as far as ASCII names can tell: two other letters fold to ASCII ones. -/
def foldRune (c : Char) : Char :=
  if c = '\u017f' then 's' else if c = '\u212a' then 'k' else c.toLower

def foldName (name : Text) : Text := name.map foldRune

/-- Decode the members with this name, one after the other. -/
def field {α : Type} (decode : Decode α) (name : String) (current : α)
    (members : List (Text × Json)) : Option α :=
  (members.filter fun member => foldName member.1 = foldName name.toList).foldlM
    (fun current member => decode current member.2) current

def struct {α : Type} (fields : α → List (Text × Json) → Option α) : Decode α
  | current, .null => some current
  | current, .obj members => fields current members
  | _, _ => none

theorem struct_obj {α : Type} (fields : α → List (Text × Json) → Option α) (current : α)
    (members : List (Text × Json)) :
    struct fields current (.obj members) = fields current members :=
  rfl

/-- No two names agree up to case. -/
def Distinct (members : List (Text × Json)) : Prop :=
  (members.map fun member => foldName member.1).Nodup

section

variable {α : Type} {decode : Decode α} {name : String} {current : α}
  {members : List (Text × Json)}

/-- A field is decoded from its own member. -/
theorem field_eq {value : Json} (hdistinct : Distinct members)
    (hmem : (name.toList, value) ∈ members) :
    decode.field name current members = decode current value := by
  have hfilter : (members.filter fun member => foldName member.1 = foldName name.toList) =
      [(name.toList, value)] := by
    induction members with
    | nil => cases hmem
    | cons member rest ih =>
      obtain ⟨hnew, hrest⟩ := List.nodup_cons.mp hdistinct
      rcases List.mem_cons.mp hmem with rfl | hmem
      · rw [List.filter_cons_of_pos (by simp)]
        have hothers : (rest.filter fun other => foldName other.1 = foldName name.toList) = [] := by
          rw [List.filter_eq_nil_iff]
          intro other hother heq
          exact hnew (List.mem_map.mpr ⟨other, hother, of_decide_eq_true heq⟩)
        rw [hothers]
      · have hne : foldName member.1 ≠ foldName name.toList := by
          intro heq
          exact hnew (List.mem_map.mpr ⟨_, hmem, heq.symm⟩)
        rw [List.filter_cons_of_neg (by simpa using hne)]
        exact ih hrest hmem
  unfold field
  rw [hfilter]
  simp

theorem string_field {s : Text} {current : Text} (hdistinct : Distinct members)
    (hmem : (name.toList, .str s) ∈ members) : string.field name current members = some s :=
  field_eq hdistinct hmem

theorem uint_field {bound : Nat} {ofNat : Nat → α} {n : Int} (hdistinct : Distinct members)
    (hmem : (name.toList, .num n) ∈ members) :
    (uint bound ofNat).field name current members =
      if 0 ≤ n ∧ n < bound then some (ofNat n.toNat) else none :=
  field_eq hdistinct hmem

end

/-- A number is decoded to itself or not at all. -/
theorem uint32_eq_some {n : Int} {x : UInt32} :
    (if 0 ≤ n ∧ n < (2 ^ 32 : Nat) then some (UInt32.ofNat n.toNat) else none) = some x ↔
      (x.toNat : Int) = n := by
  constructor
  · intro h
    split at h
    · rename_i hrange
      cases h
      rw [UInt32.toNat_ofNat_of_lt' (by simp only [UInt32.size]; omega)]
      omega
    · cases h
  · rintro rfl
    have hlt := x.toNat_lt
    rw [if_pos (by omega)]
    simp

theorem uint64_eq_some {n : Int} {x : UInt64} :
    (if 0 ≤ n ∧ n < (2 ^ 64 : Nat) then some (UInt64.ofNat n.toNat) else none) = some x ↔
      (x.toNat : Int) = n := by
  constructor
  · intro h
    split at h
    · rename_i hrange
      cases h
      rw [UInt64.toNat_ofNat_of_lt' (by simp only [UInt64.size]; omega)]
      omega
    · cases h
  · rintro rfl
    have hlt := x.toNat_lt
    rw [if_pos (by omega)]
    simp

end Decode

/-! ### The bodies -/

def DeriveWalletRequest.zero : DeriveWalletRequest := ⟨[], [], [], 0⟩

def TxFieldsJSON.zero : TxFieldsJSON := ⟨0, 0, [], [], 0, [], [], []⟩

def SignTxRequest.zero : SignTxRequest := ⟨[], [], [], [], TxFieldsJSON.zero⟩

def SignHashRequest.zero : SignHashRequest := ⟨[], [], [], [], []⟩

open Decode

def DeriveWalletRequest.fields (current : DeriveWalletRequest) (members : List (Text × Json)) :
    Option DeriveWalletRequest := do
  let encryptedSeed ← string.field "encryptedSeed" current.encryptedSeed members
  let seedNonce ← string.field "seedNonce" current.seedNonce members
  let encryptedDek ← string.field "encryptedDek" current.encryptedDek members
  let derivIndex ← uint32.field "derivIndex" current.derivIndex members
  return { encryptedSeed, seedNonce, encryptedDek, derivIndex }

def DeriveWalletRequest.decode : Decode DeriveWalletRequest := struct fields

def TxFieldsJSON.fields (current : TxFieldsJSON) (members : List (Text × Json)) :
    Option TxFieldsJSON := do
  let chainId ← uint32.field "chainId" current.chainId members
  let nonce ← uint64.field "nonce" current.nonce members
  let toAddr ← string.field "to" current.toAddr members
  let value ← string.field "value" current.value members
  let gasLimit ← uint64.field "gasLimit" current.gasLimit members
  let maxFeePerGas ← string.field "maxFeePerGas" current.maxFeePerGas members
  let maxPriorityFeePerGas ←
    string.field "maxPriorityFeePerGas" current.maxPriorityFeePerGas members
  let data ← string.field "data" current.data members
  return { chainId, nonce, toAddr, value, gasLimit, maxFeePerGas, maxPriorityFeePerGas, data }

def TxFieldsJSON.decode : Decode TxFieldsJSON := struct fields

def SignTxRequest.fields (current : SignTxRequest) (members : List (Text × Json)) :
    Option SignTxRequest := do
  let encryptedSeed ← string.field "encryptedSeed" current.encryptedSeed members
  let seedNonce ← string.field "seedNonce" current.seedNonce members
  let encryptedDek ← string.field "encryptedDek" current.encryptedDek members
  let derivationPath ← string.field "derivationPath" current.derivationPath members
  let txFields ← TxFieldsJSON.decode.field "txFields" current.txFields members
  return { encryptedSeed, seedNonce, encryptedDek, derivationPath, txFields }

def SignTxRequest.decode : Decode SignTxRequest := struct fields

def SignHashRequest.fields (current : SignHashRequest) (members : List (Text × Json)) :
    Option SignHashRequest := do
  let encryptedSeed ← string.field "encryptedSeed" current.encryptedSeed members
  let seedNonce ← string.field "seedNonce" current.seedNonce members
  let encryptedDek ← string.field "encryptedDek" current.encryptedDek members
  let derivationPath ← string.field "derivationPath" current.derivationPath members
  let hashHex ← string.field "hashHex" current.hashHex members
  return { encryptedSeed, seedNonce, encryptedDek, derivationPath, hashHex }

def SignHashRequest.decode : Decode SignHashRequest := struct fields

/-- `decodeJSON`, where `body` is `none` if it is too large or no JSON. -/
def decodeJSON {α : Type} (decode : Decode α) (zero : α) (body : Option Json) : Option α :=
  body.bind (decode zero)

end BrokeTurnkey.Signer
