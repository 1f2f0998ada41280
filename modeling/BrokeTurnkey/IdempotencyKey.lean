import BrokeTurnkey.Api.SignTransactionDto
import BrokeTurnkey.PolicyCoverage
import BrokeTurnkey.PolicyAuthority

/-!
# What the idempotency key identifies

The key is a hash of the request as it is spelled.  The chain id and the value have one
spelling each, the wallet id, the recipient and the calldata have one for every choice of
letter case.  So equal keys belong to one transaction, and one transaction has as many
keys as it has spellings.
-/

namespace BrokeTurnkey

open Interaction WalletService

/-- The two requests are about one transaction: the same row of `wallets`, chain, twenty
    bytes of recipient, number of wei and bytes of calldata. -/
structure SameTransaction (t : Tables) (walletId walletId' : Text) (req req' : SignRequest) :
    Prop where
  wallet : ∃ row, Resolves t walletId row ∧ Resolves t walletId' row
  chainId : req.chainId = req'.chainId
  recipient : Text.hexDecode (req.toAddr.drop 2) = Text.hexDecode (req'.toAddr.drop 2)
  value : bigInt req.value = bigInt req'.value
  calldata : Text.hexDecode (req.data.drop 2) = Text.hexDecode (req'.data.drop 2)

/-- What can be spelled in several ways is spelled alike. -/
structure SpelledAlike (walletId walletId' : Text) (req req' : SignRequest) : Prop where
  walletId : walletId = walletId'
  toAddr : req.toAddr = req'.toAddr
  data : req.data = req'.data

namespace IdempotencyKey

/-- A number of wei has one spelling. -/
theorem value_eq_of_bigInt {s s' : Text} (hs : PolicyService.isDecimalString s = true)
    (hs' : PolicyService.isDecimalString s' = true) (h : bigInt s = bigInt s') : s = s' := by
  obtain ⟨n, hread, hn⟩ := bigInt_of_isDecimalString hs
  obtain ⟨n', hread', hn'⟩ := bigInt_of_isDecimalString hs'
  rw [hn, hn', Option.some.injEq] at h
  rw [← decimal_of_isDecimalString hs hread, ← decimal_of_isDecimalString hs' hread',
    Int.ofNat_inj.mp h]

theorem colon_notMem_of_isEthereumAddress {s : Text} (h : isEthereumAddress s = true) :
    ':' ∉ s := by
  obtain ⟨x, digits, rfl, hx, _, hhex⟩ := isEthereumAddress_eq_true h
  intro hmem
  simp only [List.mem_cons] at hmem
  rcases hmem with hmem | hmem | hmem
  · exact absurd hmem (by decide)
  · rcases hx with rfl | rfl
    · exact absurd hmem (by decide)
    · exact absurd hmem (by decide)
  · have hdigit := List.all_eq_true.mp hhex ':' hmem
    exact absurd hdigit (by decide)

theorem colon_notMem_of_isDecimalString {s : Text} (h : PolicyService.isDecimalString s = true) :
    ':' ∉ s := by
  obtain ⟨n, hn⟩ := parseDecimal_of_isDecimalString h
  intro hmem
  exact absurd ((Text.parseDecimal_eq_some hn).2 ':' hmem) (by decide)

theorem signRequest_ext {req req' : SignRequest} (hchain : req.chainId = req'.chainId)
    (hto : req.toAddr = req'.toAddr) (hvalue : req.value = req'.value)
    (hdata : req.data = req'.data) : req = req' := by
  rcases req with ⟨chainId, toAddr, value, data⟩
  rcases req' with ⟨chainId', toAddr', value', data'⟩
  simp_all

/-- The hashed text can be taken apart again. -/
theorem payload_injective {walletId walletId' : Text} {wallet wallet' : Uuid}
    (hid : Uuid.ofText walletId = some wallet) (hid' : Uuid.ofText walletId' = some wallet')
    {dto dto' : SignTransactionDto}
    (h : idempotencyPayload walletId dto.txFields = idempotencyPayload walletId' dto'.txFields) :
    walletId = walletId' ∧ dto.txFields = dto'.txFields := by
  obtain ⟨hwallet, h⟩ := Text.append_cons_inj (Uuid.colon_notMem_of_ofText hid)
    (Uuid.colon_notMem_of_ofText hid') h
  obtain ⟨hchain, h⟩ := Text.append_cons_inj (Text.not_mem_decimal (by decide) _)
    (Text.not_mem_decimal (by decide) _) h
  obtain ⟨hto, h⟩ := Text.append_cons_inj
    (colon_notMem_of_isEthereumAddress dto.toAddr_address)
    (colon_notMem_of_isEthereumAddress dto'.toAddr_address) h
  obtain ⟨hvalue, hdata⟩ := Text.append_cons_inj
    (colon_notMem_of_isDecimalString dto.value_decimal)
    (colon_notMem_of_isDecimalString dto'.value_decimal) h
  exact ⟨hwallet, signRequest_ext (Text.decimal_injective hchain) hto hvalue hdata⟩

end IdempotencyKey

open IdempotencyKey in
/-- **The key identifies the transaction and its spelling.**  Where SHA-256 has no collision,
    two validated requests on existing wallets have one key exactly if they denote the same
    transaction and spell wallet id, recipient and calldata alike. -/
theorem computeIdempotencyKey_eq_iff {cfg : Config} (hsha : Function.Injective cfg.sha256)
    {t : Tables} {walletId walletId' : Text} {row row' : Wallet}
    (hrow : Resolves t walletId row) (hrow' : Resolves t walletId' row')
    (dto dto' : SignTransactionDto) :
    computeIdempotencyKey cfg walletId dto.txFields =
        computeIdempotencyKey cfg walletId' dto'.txFields ↔
      SameTransaction t walletId walletId' dto.txFields dto'.txFields ∧
        SpelledAlike walletId walletId' dto.txFields dto'.txFields := by
  constructor
  · intro hkey
    obtain ⟨hwallet, hreq⟩ := payload_injective (PolicyCoverage.uuid_of_resolves hrow)
      (PolicyCoverage.uuid_of_resolves hrow') (hsha hkey)
    rw [← hreq, ← hwallet]
    exact ⟨⟨⟨row, hrow, hrow⟩, rfl, rfl, rfl, rfl⟩, ⟨rfl, rfl, rfl⟩⟩
  · rintro ⟨hsame, halike⟩
    have hvalue := value_eq_of_bigInt dto.value_decimal dto'.value_decimal hsame.value
    rw [halike.walletId, signRequest_ext hsame.chainId halike.toAddr hvalue halike.data]

namespace IdempotencyKey

open Sample

/-- A payment to an address that is spelled with its checksum. -/
def checksummed : SignTransactionDto where
  txFields :=
    { chainId := 1, toAddr := "0x5aAeb6053F3E94C9b9A09f33669435E7Ef1BeAed".toList,
      value := "1".toList, data := "0x".toList }
  chainId_range := by decide
  toAddr_address := by decide
  value_decimal := by decide
  value_length := by decide
  data_calldata := by decide
  data_length := by decide

/-- The same payment in lower case. -/
def lowerCase : SignTransactionDto where
  txFields := { checksummed.txFields with
    toAddr := "0x5aaeb6053f3e94c9b9a09f33669435e7ef1beaed".toList }
  chainId_range := by decide
  toAddr_address := by decide
  value_decimal := by decide
  value_length := by decide
  data_calldata := by decide
  data_length := by decide

theorem resolves_wallet : Resolves world.tables wallet.toText walletRow := rfl

end IdempotencyKey

open IdempotencyKey Sample in
/-- Two spellings of the recipient give one payment two keys. -/
theorem computeIdempotencyKey_two_spellings :
    Function.Injective config.sha256 ∧
      Resolves world.tables wallet.toText walletRow ∧
      SameTransaction world.tables wallet.toText wallet.toText checksummed.txFields
        lowerCase.txFields ∧
      computeIdempotencyKey config wallet.toText checksummed.txFields ≠
        computeIdempotencyKey config wallet.toText lowerCase.txFields := by
  have hrecipient : Text.hexDecode (checksummed.txFields.toAddr.drop 2) =
      Text.hexDecode (lowerCase.txFields.toAddr.drop 2) := by decide
  have hspelling : checksummed.txFields.toAddr ≠ lowerCase.txFields.toAddr := by decide
  refine ⟨Function.injective_id, resolves_wallet,
    ⟨⟨walletRow, resolves_wallet, resolves_wallet⟩, rfl, hrecipient, rfl, rfl⟩, ?_⟩
  intro hkey
  have hpayload : idempotencyPayload wallet.toText checksummed.txFields =
      idempotencyPayload wallet.toText lowerCase.txFields := hkey
  have hid := PolicyCoverage.uuid_of_resolves resolves_wallet
  obtain ⟨_, hreq⟩ := payload_injective hid hid hpayload
  exact hspelling (congrArg SignRequest.toAddr hreq)

open IdempotencyKey Sample in
theorem computeIdempotencyKey_eq_iff_spelled :
    computeIdempotencyKey config wallet.toText checksummed.txFields =
        computeIdempotencyKey config wallet.toText lowerCase.txFields ↔
      SameTransaction world.tables wallet.toText wallet.toText checksummed.txFields
        lowerCase.txFields ∧
        SpelledAlike wallet.toText wallet.toText checksummed.txFields lowerCase.txFields :=
  computeIdempotencyKey_eq_iff Function.injective_id resolves_wallet resolves_wallet checksummed
    lowerCase

end BrokeTurnkey
