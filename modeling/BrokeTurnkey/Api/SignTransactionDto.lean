import BrokeTurnkey.Numerals
import BrokeTurnkey.WalletService

/-!
# Validated sign requests

`SignTransactionDto` in `apps/api/src/wallets/dto`: what a request that reached
`requestSign` through the controller is known to look like.
-/

namespace BrokeTurnkey

/-- `@IsEthereumAddress()`: `0x` in either case and forty hexadecimal digits. -/
def isEthereumAddress : Text → Bool
  | '0' :: 'x' :: digits | '0' :: 'X' :: digits => digits.length = 40 && Text.isHex digits
  | _ => false

/-- `/^0x(?:[0-9a-fA-F]{2})*$/`. -/
def isCalldata : Text → Bool
  | '0' :: 'x' :: digits => digits.length % 2 = 0 && Text.isHex digits
  | _ => false

def valueMaxDigits : Nat := 78

def dataMaxBytes : Nat := 32 * 1024

def dataMaxHexLength : Nat := 2 + dataMaxBytes * 2

/-- The fields of a request, each within its decorators. -/
structure SignTransactionDto where
  txFields : SignRequest
  chainId_range : 1 ≤ txFields.chainId ∧ txFields.chainId ≤ 99999999
  toAddr_address : isEthereumAddress txFields.toAddr = true
  value_decimal : PolicyService.isDecimalString txFields.value = true
  value_length : txFields.value.length ≤ valueMaxDigits
  data_calldata : isCalldata txFields.data = true
  data_length : txFields.data.length ≤ dataMaxHexLength

theorem isEthereumAddress_eq_true {s : Text} (h : isEthereumAddress s = true) :
    ∃ x digits, s = '0' :: x :: digits ∧ (x = 'x' ∨ x = 'X') ∧ digits.length = 40 ∧
      Text.isHex digits = true := by
  unfold isEthereumAddress at h
  split at h
  · rename_i digits
    simp only [Bool.and_eq_true, decide_eq_true_eq] at h
    exact ⟨'x', digits, rfl, .inl rfl, h⟩
  · rename_i digits
    simp only [Bool.and_eq_true, decide_eq_true_eq] at h
    exact ⟨'X', digits, rfl, .inr rfl, h⟩
  · simp at h

theorem isCalldata_eq_true {s : Text} (h : isCalldata s = true) :
    ∃ digits, s = '0' :: 'x' :: digits ∧ digits.length % 2 = 0 ∧ Text.isHex digits = true := by
  unfold isCalldata at h
  split at h
  · rename_i digits
    simp only [Bool.and_eq_true, decide_eq_true_eq] at h
    exact ⟨digits, rfl, h⟩
  · simp at h

/-- A decimal string reads as a number. -/
theorem parseDecimal_of_isDecimalString {s : Text} (h : PolicyService.isDecimalString s = true) :
    ∃ n, Text.parseDecimal s = some n := by
  have hdigits : s ≠ [] ∧ s.all Char.isDigit = true := by
    unfold PolicyService.isDecimalString at h
    split at h
    · exact ⟨by simp, by decide⟩
    · simp only [Bool.and_eq_true] at h
      exact ⟨by simp, by rw [List.all_cons, h.1.2, h.2, Bool.and_self]⟩
    · simp at h
  exact ⟨_, by rw [Text.parseDecimal, if_pos hdigits]⟩

/-- A decimal string is the printed form of its number. -/
theorem decimal_of_isDecimalString {s : Text} {n : Nat}
    (h : PolicyService.isDecimalString s = true) (hn : Text.parseDecimal s = some n) :
    Text.decimal n = s := by
  apply (Text.decimal_eq_iff hn).mpr
  intro hzero
  unfold PolicyService.isDecimalString at h
  split at h
  · rfl
  · rename_i c digits hother
    simp only [Bool.and_eq_true, decide_eq_true_eq] at h
    rw [List.head?_cons, Option.some.injEq] at hzero
    exact absurd hzero h.1.1
  · cases h

theorem bigInt_of_isDecimalString {s : Text} (h : PolicyService.isDecimalString s = true) :
    ∃ n : Nat, Text.parseDecimal s = some n ∧ bigInt s = some (n : Int) := by
  obtain ⟨n, hn⟩ := parseDecimal_of_isDecimalString h
  exact ⟨n, hn, bigInt_of_parseDecimal hn⟩

end BrokeTurnkey
