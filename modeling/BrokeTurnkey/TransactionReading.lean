import BrokeTurnkey.Footprint
import BrokeTurnkey.Api.SignTransactionDto
import BrokeTurnkey.Signer.LimitsMeaning

/-!
# Three readings of one transaction

A sign request is read by the validator of the API, by the policy engine and by the
signer, each with its own rules for digits, prefixes, case and length.  `SameReading`
says that what the signer parsed is what the engine judged.
-/

namespace BrokeTurnkey

open Interaction

/-- The transaction fields a command sends to the sidecar. -/
def Cmd.signedFields : Cmd → Option TxFields
  | .sidecar (.signTransaction _ _ _ fields) => some fields
  | _ => none

theorem Cmd.signedFields_eq_some {command : Cmd} {fields : TxFields}
    (h : command.signedFields = some fields) :
    ∃ wallet origin key, command = .sidecar (.signTransaction wallet origin key fields) := by
  cases command with
  | sidecar request =>
    cases request with
    | signTransaction wallet origin key fields' =>
      cases h
      exact ⟨wallet, origin, key, rfl⟩
    | _ => cases h
  | _ => cases h

/-- JSON carries the fields, the numbers exactly. -/
structure Encodes (fields : TxFields) (jsonTx : Signer.TxFieldsJSON) : Prop where
  chainId : jsonTx.chainId.toNat = fields.chainId
  nonce : (jsonTx.nonce.toNat : Int) = fields.nonce
  toAddr : jsonTx.toAddr = fields.toAddr
  value : jsonTx.value = fields.value
  gasLimit : (jsonTx.gasLimit.toNat : Int) = fields.gasLimit
  maxFeePerGas : jsonTx.maxFeePerGas = fields.maxFeePerGas
  maxPriorityFeePerGas : jsonTx.maxPriorityFeePerGas = fields.maxPriorityFeePerGas
  data : jsonTx.data = fields.data

/-- A positive number of at most 78 digits. -/
def PositiveFee (s : Text) : Prop :=
  s.length ≤ Signer.maxDecimalDigits ∧ ∃ n, Text.parseDecimal s = some n ∧ 0 < n

/-- The estimates of the gas service are positive and fit. -/
structure Priced (fields : TxFields) : Prop where
  gasLimit : 0 < fields.gasLimit
  maxFeePerGas : PositiveFee fields.maxFeePerGas
  maxPriorityFeePerGas : PositiveFee fields.maxPriorityFeePerGas

/-- The parsed transaction is the one that was sent, and the one whose payload the policy
    engine was shown. -/
structure SameReading (common : Signer.Common) (fields : TxFields) (payload : TxPayload)
    (tx : Signer.TxFields) : Prop where
  chainId : tx.chainId = payload.chainId
  nonce : (tx.nonce.toNat : Int) = fields.nonce
  gasLimit : (tx.gasLimit.toNat : Int) = fields.gasLimit
  maxFeePerGas : bigInt fields.maxFeePerGas = some tx.maxFeePerGas
  maxPriorityFeePerGas : bigInt fields.maxPriorityFeePerGas = some tx.maxPriorityFeePerGas
  value : bigInt payload.value = some tx.value
  /-- An address of a policy spells the bytes that are signed exactly if the engine takes
      it for the recipient. -/
  recipient : ∀ address, isEthereumAddress address = true →
    (Signer.AddressText address (common.hexToAddress tx.toAddr) ↔
      Text.lower payload.toAddr = Text.lower address)
  data : Text.hexDecode (fields.data.drop 2) = some tx.data
  selector : 4 ≤ tx.data.length →
    payload.dataSelector = some ("0x".toList ++ Text.hexEncode (tx.data.take 4))

namespace TransactionReading

open Signer Text

/-! ### Amounts -/

theorem utf8Size_of_isDigit {c : Char} (h : c.isDigit = true) : c.utf8Size = 1 := by
  obtain ⟨_, hhigh⟩ := isDigit_range h
  have hlt : c.toNat < 128 := by omega
  rw [Char.utf8Size_eq_one_iff]
  exact Nat.le_of_lt_succ hlt

/-- Decimal digits take one byte each. -/
theorem byteLength_of_isDigit {s : Text} (h : ∀ c ∈ s, c.isDigit = true) :
    byteLength s = s.length := by
  induction s with
  | nil => rfl
  | cons c rest ih =>
    rw [byteLength_cons, utf8Size_of_isDigit (h c List.mem_cons_self),
      ih fun d hd => h d (List.mem_cons_of_mem _ hd), List.length_cons]
    omega

/-- `SetString` reads decimal digits as the number they spell, like `BigInt`. -/
theorem setString_of_parseDecimal {s : Text} {n : Nat} (h : parseDecimal s = some n) :
    setString s = some (n : Int) := by
  obtain ⟨_, hdigits⟩ := parseDecimal_eq_some h
  unfold setString
  split
  · exact absurd (hdigits '-' (by simp)) (by decide)
  · exact absurd (hdigits '+' (by simp)) (by decide)
  · simp [h]

theorem parseAmount_of_parseDecimal {name requirement : String} {least : Int} {s : Text} {n : Nat}
    (hread : parseDecimal s = some n) (hlength : s.length ≤ maxDecimalDigits)
    (hleast : least ≤ n) : parseAmount name least requirement s = .ok (n : Int) := by
  have hbytes := byteLength_of_isDigit (parseDecimal_eq_some hread).2
  have hfits : ¬ byteLength s > maxDecimalDigits := by omega
  rw [parseAmount, if_neg hfits, setString_of_parseDecimal hread]
  simp only [if_neg (Int.not_lt.mpr hleast)]

/-! ### Addresses -/

/-- What the validator accepts is prefixed, and the signer reads the digits. -/
theorem isEthereumAddress_digits {s : Text} (h : isEthereumAddress s = true) :
    has0xPrefix s = true ∧ (∃ a, AddressText s a) ∧
      lower s = '0' :: 'x' :: lower (drop0xPrefix s) := by
  obtain ⟨x, digits, rfl, hx, hlength, hhex⟩ := isEthereumAddress_eq_true h
  have hleading : has0xPrefix ('0' :: x :: digits) = true :=
    has0xPrefix_iff.mpr ⟨x, digits, rfl, hx⟩
  have hdrop : drop0xPrefix ('0' :: x :: digits) = digits := by
    rw [drop0xPrefix, if_pos hleading]
    rfl
  refine ⟨hleading, ?_, ?_⟩
  · obtain ⟨bytes, hdecode⟩ := exists_hexDecode hhex (by rw [hlength])
    have hbytes : bytes.length = 20 := by
      have hdouble := length_of_hexDecode hdecode
      omega
    exact ⟨⟨bytes, hbytes⟩, by rw [AddressText, hdrop, hdecode]⟩
  · rw [hdrop]
    rcases hx with rfl | rfl
    · rfl
    · rfl

/-- **Two addresses are spellings of the same bytes exactly if they agree up to case.** -/
theorem addressText_iff_lower (common : Common) {s t : Text} (hs : isEthereumAddress s = true)
    (ht : isEthereumAddress t = true) :
    AddressText t (common.hexToAddress s) ↔ lower s = lower t := by
  obtain ⟨_, ⟨a, ha⟩, hslower⟩ := isEthereumAddress_digits hs
  obtain ⟨_, _, htlower⟩ := isEthereumAddress_digits ht
  have hread : hexDecode (drop0xPrefix s) = some (common.hexToAddress s).bytes := by
    rw [common.hexToAddress_eq s a ha]
    exact ha
  rw [hslower, htlower, List.cons.injEq, List.cons.injEq]
  simp only [true_and]
  constructor
  · intro hspells
    exact (lower_of_hexDecode hread).trans (lower_of_hexDecode hspells).symm
  · intro hlower
    rw [AddressText, ← hexDecode_lower, ← hlower, hexDecode_lower]
    exact hread

/-! ### Calldata -/

theorem byteLength_of_isCalldata {digits : Text} (h : isHex digits = true) :
    byteLength ('0' :: 'x' :: digits) = ('0' :: 'x' :: digits).length := by
  have hzero : ('0').utf8Size = 1 := by decide
  have hx : ('x').utf8Size = 1 := by decide
  rw [byteLength_cons, byteLength_cons, byteLength_of_isHex h, hzero, hx]
  simp only [List.length_cons]
  omega

/-- The signer decodes the calldata the validator accepts. -/
theorem parseData_of_isCalldata {s : Text} (h : isCalldata s = true)
    (hlength : s.length ≤ dataMaxHexLength) :
    ∃ bytes, parseData s = .ok bytes ∧ hexDecode (s.drop 2) = some bytes := by
  obtain ⟨digits, rfl, heven, hhex⟩ := isCalldata_eq_true h
  obtain ⟨bytes, hbytes⟩ := exists_hexDecode hhex heven
  refine ⟨bytes, ?_, hbytes⟩
  unfold parseData
  split
  · rename_i hempty
    have hdigits : digits = [] := by simpa using hempty
    subst hdigits
    rw [hexDecode, Option.some.injEq] at hbytes
    rw [hbytes]
  · have hfits : ¬ byteLength ('0' :: 'x' :: digits) > 2 + maxCalldataBytes * 2 := by
      rw [byteLength_of_isCalldata hhex]
      exact Nat.not_lt.mpr hlength
    have htrim : trimPrefix "0x".toList ('0' :: 'x' :: digits) = digits := rfl
    rw [if_neg hfits]
    simp only [htrim, hbytes, orError]

/-- The digits of the first bytes stand first. -/
theorem lower_take_of_hexDecode {s : Text} {bytes : Bytes} (h : hexDecode s = some bytes)
    (count : Nat) : lower (s.take (2 * count)) = hexEncode (bytes.take count) := by
  have hencode : ∀ (bytes : Bytes) (count : Nat),
      (hexEncode bytes).take (2 * count) = hexEncode (bytes.take count) := by
    intro bytes
    induction bytes with
    | nil => simp [hexEncode]
    | cons byte rest ih =>
      intro count
      cases count with
      | zero => rfl
      | succ count =>
        have htwo : 2 * (count + 1) = 2 * count + 1 + 1 := by omega
        rw [htwo, hexEncode, List.take_succ_cons, List.take_succ_cons, ih, List.take_succ_cons,
          hexEncode]
  rw [← hencode, ← lower_of_hexDecode h]
  exact List.map_take

/-- The selector of the engine is that of the calldata the signer decodes. -/
theorem dataSelector_of_hexDecode {cfg : Config} {req : SignRequest} {bytes : Bytes}
    (hcalldata : isCalldata req.data = true) (hbytes : hexDecode (req.data.drop 2) = some bytes)
    (hlength : 4 ≤ bytes.length) :
    (WalletService.policyPayload cfg req).dataSelector =
      some ("0x".toList ++ hexEncode (bytes.take 4)) := by
  obtain ⟨digits, hdata, _, _⟩ := isCalldata_eq_true hcalldata
  rw [hdata] at hbytes
  have hdigits : digits.length = 2 * bytes.length := length_of_hexDecode hbytes
  have hlong : req.data.length ≥ 10 := by
    rw [hdata, List.length_cons, List.length_cons]
    omega
  have hselector : lower (digits.take 8) = hexEncode (bytes.take 4) :=
    lower_take_of_hexDecode hbytes 4
  simp only [WalletService.policyPayload, if_pos hlong]
  rw [hdata, ← hselector]
  rfl

/-! ### What a call sends -/

/-- A command that signs, signs the transaction of the request. -/
def SendsRequest (req : SignRequest) (command : Cmd) : Prop :=
  ∀ fields ∈ command.signedFields, fields.chainId = req.chainId ∧ fields.toAddr = req.toAddr ∧
    fields.value = req.value ∧ fields.data = req.data

section Sends

variable {req : SignRequest}

theorem sends_of_none {command : Cmd} (h : command.signedFields = none) :
    SendsRequest req command := by
  simp [SendsRequest, h]

theorem sends_of_query {command : Cmd} (h : command.isQuery = true) : SendsRequest req command := by
  apply sends_of_none
  cases command with
  | sidecar request => simp [Cmd.isQuery] at h
  | _ => rfl

/-- The fields of step 6 are those of the request. -/
theorem submit_sends (cfg : Config) (orgId walletId : Text) (seedRow : OrganizationSeed)
    (wallet : Wallet) (idempotencyKey : Text) (fees : FeeEstimate) (id : Uuid) :
    (WalletService.submit cfg orgId walletId req seedRow wallet idempotencyKey fees id).All
      (SendsRequest req) := by
  apply WalletService.submit_all
  case hsign =>
    rintro key nonce fields ⟨⟩
    exact ⟨rfl, rfl, rfl, rfl⟩
  all_goals intros; exact sends_of_none rfl

/-- **Every transaction a call sends to the sidecar is the one it was asked for.** -/
theorem requestSign_sends (cfg : Config) (orgId walletId : Text) :
    (WalletService.requestSign cfg orgId walletId req).All (SendsRequest req) := by
  have hqueries : ∀ {α : Type} {p : Js α}, Queries p → p.All (SendsRequest req) :=
    fun h => Prog.All.mono (fun _ => sends_of_query) h
  refine Prog.All.bind (hqueries (WalletService.loadPrerequisites_queries orgId walletId)) ?_
  rintro ⟨seedRow, wallet⟩
  refine Prog.All.bind (Prog.All.perform (sends_of_none rfl)) fun existing => ?_
  split
  · trivial
  · refine Prog.All.bind (WalletService.evaluatePolicy_all (fun _ => sends_of_query)
      (fun _ _ => sends_of_none rfl) cfg req) fun _ => ?_
    refine Prog.All.bind (hqueries (estimateFees_queries ..)) fun fees => ?_
    refine Prog.All.bind (WalletService.createOrReuse_all (fun _ => sends_of_query)
      (fun _ => sends_of_none rfl) (fun _ _ => sends_of_none rfl) ..) fun claimed => ?_
    cases claimed with
    | existing result => trivial
    | own id => exact submit_sends cfg orgId walletId seedRow wallet _ fees id

end Sends

end TransactionReading

open TransactionReading in
/-- **The signer reads the transaction the policy engine judged.**  Whatever a call sends to
    the sidecar for a validated request, the signer parses, and every part of the result
    means what the engine and the gas service took it for. -/
theorem parseTxFields_reads_request (cfg : Config) (lib : Signer.Libraries) {orgId walletId : Text}
    (dto : SignTransactionDto) {wallet origin : Uuid} {key : KeyMaterial} {fields : TxFields}
    (hissues : (WalletService.requestSign cfg orgId walletId dto.txFields).Issues
      (.sidecar (.signTransaction wallet origin key fields)))
    (hpriced : Priced fields) {jsonTx : Signer.TxFieldsJSON} (hjson : Encodes fields jsonTx) :
    ∃ tx, Signer.parseTxFields lib jsonTx = .ok tx ∧
      SameReading lib.common fields (WalletService.policyPayload cfg dto.txFields) tx := by
  obtain ⟨hchain, hto, hvalue, hdata⟩ :=
    Prog.All.of_issues hissues (requestSign_sends cfg orgId walletId) fields rfl
  obtain ⟨value, hread, hbig⟩ := bigInt_of_isDecimalString dto.value_decimal
  obtain ⟨hfeeLength, maxFee, hfee, hfeePos⟩ := hpriced.maxFeePerGas
  obtain ⟨hpriorityLength, maxPriority, hpriority, _⟩ := hpriced.maxPriorityFeePerGas
  obtain ⟨bytes, hparse, hbytes⟩ := parseData_of_isCalldata dto.data_calldata dto.data_length
  have haddress := (isEthereumAddress_digits dto.toAddr_address).2.1
  have hchainPos : jsonTx.chainId ≠ 0 := by
    intro hzero
    have hrange := dto.chainId_range.1
    rw [← hchain, ← hjson.chainId, hzero] at hrange
    exact absurd hrange (by decide)
  have hgasPos : jsonTx.gasLimit ≠ 0 := by
    intro hzero
    have hgas := hpriced.gasLimit
    rw [← hjson.gasLimit, hzero] at hgas
    exact absurd hgas (by decide)
  have hvalueOk : Signer.parseAmount "tx value" 0 "non-negative" jsonTx.value =
      .ok (value : Int) := by
    rw [hjson.value, hvalue]
    exact parseAmount_of_parseDecimal hread dto.value_length (Int.natCast_nonneg _)
  have hfeeOk : Signer.parseAmount "maxFeePerGas" 1 "positive" jsonTx.maxFeePerGas =
      .ok (maxFee : Int) := by
    rw [hjson.maxFeePerGas]
    exact parseAmount_of_parseDecimal hfee hfeeLength (by omega)
  have hpriorityOk : Signer.parseAmount "maxPriorityFeePerGas" 0 "non-negative"
      jsonTx.maxPriorityFeePerGas = .ok (maxPriority : Int) := by
    rw [hjson.maxPriorityFeePerGas]
    exact parseAmount_of_parseDecimal hpriority hpriorityLength (Int.natCast_nonneg _)
  have htoOk : ¬(jsonTx.toAddr ≠ [] ∧ lib.common.isHexAddress jsonTx.toAddr = false) := by
    rw [hjson.toAddr, hto, (lib.common.isHexAddress_iff _).mpr haddress]
    simp
  have hdataOk : Signer.parseData jsonTx.data = .ok bytes := by
    rw [hjson.data, hdata]
    exact hparse
  let tx : Signer.TxFields :=
    { chainId := jsonTx.chainId.toNat, nonce := jsonTx.nonce, maxFeePerGas := maxFee,
      maxPriorityFeePerGas := maxPriority, gasLimit := jsonTx.gasLimit,
      toAddr := jsonTx.toAddr, value := value, data := bytes }
  refine ⟨tx, ?_, ?_⟩
  · exact Signer.parseTxFields_eq_ok.mpr ⟨hchainPos, hvalueOk, hfeeOk, hpriorityOk, hgasPos, htoOk,
      hdataOk, rfl, rfl, rfl, rfl⟩
  constructor
  case chainId => exact congrArg Int.ofNat (hjson.chainId.trans hchain)
  case nonce => exact hjson.nonce
  case gasLimit => exact hjson.gasLimit
  case maxFeePerGas => exact bigInt_of_parseDecimal hfee
  case maxPriorityFeePerGas => exact bigInt_of_parseDecimal hpriority
  case value => exact hbig
  case recipient =>
    intro address hshape
    have hsent : tx.toAddr = dto.txFields.toAddr := hjson.toAddr.trans hto
    rw [hsent]
    exact addressText_iff_lower lib.common dto.toAddr_address hshape
  case data =>
    rw [hdata]
    exact hbytes
  case selector => exact dataSelector_of_hexDecode dto.data_calldata hbytes

namespace TransactionReading

open Sample

/-- A call of a token contract whose address is given with its checksum. -/
def tokenTransfer : SignTransactionDto where
  txFields :=
    { chainId := 1, toAddr := "0XdAC17F958D2ee523a2206206994597C13D831ec7".toList,
      value := "1000".toList, data := "0xA9059CBB00".toList }
  chainId_range := by decide
  toAddr_address := by decide
  value_decimal := by decide
  value_length := by decide
  data_calldata := by decide
  data_length := by decide

def tokenFields : TxFields where
  chainId := 1
  nonce := 0
  toAddr := tokenTransfer.txFields.toAddr
  value := tokenTransfer.txFields.value
  gasLimit := 25200
  maxFeePerGas := "15".toList
  maxPriorityFeePerGas := "1".toList
  data := tokenTransfer.txFields.data

def tokenJSON : Signer.TxFieldsJSON where
  chainId := 1
  nonce := 0
  toAddr := tokenTransfer.txFields.toAddr
  value := tokenTransfer.txFields.value
  gasLimit := 25200
  maxFeePerGas := "15".toList
  maxPriorityFeePerGas := "1".toList
  data := tokenTransfer.txFields.data

end TransactionReading

open TransactionReading Sample in
/-- The signer reads a token transfer as the engine does. -/
theorem parseTxFields_reads_request_token :
    ∃ tx, Signer.parseTxFields Signer.Sample.libraries tokenJSON = .ok tx ∧
      SameReading Signer.Sample.libraries.common tokenFields
        (WalletService.policyPayload config tokenTransfer.txFields) tx := by
  obtain ⟨outcome, w, history, hrun, hsigned⟩ :=
    Completes.exists_of_complete (services config) .any
      (WalletService.requestSign config org.toText wallet.toText tokenTransfer.txFields) world
      (untilFees ++ .done (freshId 1) :: signs "signature".toList "hash".toList ++
        [run, accepts, run, run, run])
      (fun final => final.2.2.any fun entry => entry.command.signedFields = some tokenFields)
      (by decide)
  simp only [List.any_eq_true, decide_eq_true_eq] at hsigned
  obtain ⟨entry, hentry, hfields⟩ := hsigned
  have hissues := (hrun.issues entry hentry).resolve_left (by simp)
  obtain ⟨wallet, origin, key, hcommand⟩ := Cmd.signedFields_eq_some hfields
  rw [hcommand] at hissues
  have hpriced : Priced tokenFields :=
    ⟨by decide, ⟨by decide, 15, rfl, by decide⟩, ⟨by decide, 1, rfl, by decide⟩⟩
  have hjson : Encodes tokenFields tokenJSON := ⟨rfl, rfl, rfl, rfl, rfl, rfl, rfl, rfl⟩
  exact parseTxFields_reads_request config Signer.Sample.libraries tokenTransfer
    hissues hpriced hjson

end BrokeTurnkey
