import BrokeTurnkey.Numerals
import BrokeTurnkey.Signer.ValidatedSigning

/-!
# The bounds of the fields that are signed

An amount is bounded by the length of its text and calldata by the length of its
hexadecimal spelling, prefix included.  What these lengths say about the number and
about the bytes depends on the spelling: on signs, zeros in front and the prefix
that may be left out.
-/

namespace BrokeTurnkey.Signer

open Interaction Text

/-! ### Amounts -/

/-- The numeral behind the sign. -/
def unsigned : Text → Text
  | '-' :: digits => digits
  | '+' :: digits => digits
  | digits => digits

/-- The numeral is below 2^256, judged by its digits. -/
def FitsUint256 (s : Text) : Prop := Precedes (significant (unsigned s)) (decimal (2 ^ 256))

/-- The spellings of the three amounts that stand for amounts of the protocol. -/
structure TxFieldsJSON.AmountsFit (jsonTx : TxFieldsJSON) : Prop where
  value : FitsUint256 jsonTx.value
  maxFee : FitsUint256 jsonTx.maxFeePerGas
  maxPriority : FitsUint256 jsonTx.maxPriorityFeePerGas
  tip : ¬Precedes (significant (unsigned jsonTx.maxFeePerGas))
    (significant (unsigned jsonTx.maxPriorityFeePerGas))

/-- Amounts an EIP-1559 transaction may have. -/
structure WellFormedAmounts (value maxFee maxPriority : Int) : Prop where
  value_lt : value < 2 ^ 256
  maxFee_lt : maxFee < 2 ^ 256
  maxPriority_lt : maxPriority < 2 ^ 256
  maxFee_pos : 0 < maxFee
  tip_le : maxPriority ≤ maxFee

theorem digits_of_parseDecimal {s : Text} {n : Nat} (h : parseDecimal s = some n) :
    Digits s ∧ n = digitsValue s := by
  have hdigits := parseDecimal_eq_some h
  rw [parseDecimal_of_digits hdigits.1 hdigits.2, Option.some.injEq] at h
  exact ⟨hdigits.2, h.symm⟩

/-- A text that is read as a non-negative number is its digits. -/
theorem setString_nonneg {s : Text} {amount : Int} (h : setString s = some amount)
    (hnonneg : 0 ≤ amount) : Digits (unsigned s) ∧ amount = digitsValue (unsigned s) := by
  simp only [setString] at h
  split at h
  · rename_i digits
    cases hparse : parseDecimal digits with
    | none => simp [hparse] at h
    | some n =>
      obtain ⟨hdigits, hn⟩ := digits_of_parseDecimal hparse
      have hamount : -(n : Int) = amount := by simpa [hparse] using h
      refine ⟨hdigits, ?_⟩
      simp only [unsigned]
      omega
  · rename_i digits
    obtain ⟨n, hread, hamount⟩ := Option.map_eq_some_iff.mp h
    obtain ⟨hdigits, hn⟩ := digits_of_parseDecimal hread
    refine ⟨hdigits, ?_⟩
    rw [← hamount, hn]
    rfl
  · rename_i hminus hplus
    obtain ⟨n, hread, hamount⟩ := Option.map_eq_some_iff.mp h
    obtain ⟨hdigits, hn⟩ := digits_of_parseDecimal hread
    have hunsigned : unsigned s = s := by
      simp only [unsigned]
    rw [hunsigned]
    refine ⟨hdigits, ?_⟩
    rw [← hamount, hn]
    rfl

theorem parseAmount_eq_ok {name requirement : String} {least amount : Int} {s : Text}
    (h : parseAmount name least requirement s = .ok amount) :
    setString s = some amount ∧ least ≤ amount := by
  simp only [parseAmount, ite_error_eq_ok] at h
  obtain ⟨_, h⟩ := h
  split at h
  · cases h
  · rename_i value hread
    rw [ite_error_eq_ok, Except.ok.injEq] at h
    obtain ⟨hleast, rfl⟩ := h
    exact ⟨hread, Int.not_lt.mp hleast⟩

theorem fitsUint256_iff {s : Text} (h : Digits (unsigned s)) :
    FitsUint256 s ↔ digitsValue (unsigned s) < 2 ^ 256 := by
  have hhead : (decimal (2 ^ 256)).head? ≠ some '0' := by decide
  rw [FitsUint256, precedes_iff h.significant (digits_decimal _) (head_significant _) hhead,
    digitsValue_significant, digitsValue_decimal]

/-- **The numbers are well formed if their spellings say so.** -/
theorem TxFieldsJSON.Reads.amounts_iff {lib : Libraries} {jsonTx : TxFieldsJSON}
    {tx : TxFields} (h : jsonTx.Reads lib tx) :
    WellFormedAmounts tx.value tx.maxFeePerGas tx.maxPriorityFeePerGas ↔ jsonTx.AmountsFit := by
  obtain ⟨hvalueread, hvaluesign⟩ := parseAmount_eq_ok h.value
  obtain ⟨hfeeread, hfeesign⟩ := parseAmount_eq_ok h.maxFee
  obtain ⟨htipread, htipsign⟩ := parseAmount_eq_ok h.maxPriority
  obtain ⟨hvaluedigits, hvalue⟩ := setString_nonneg hvalueread hvaluesign
  obtain ⟨hfeedigits, hfee⟩ := setString_nonneg hfeeread (by omega)
  obtain ⟨htipdigits, htip⟩ := setString_nonneg htipread htipsign
  have hvaluefits := fitsUint256_iff hvaluedigits
  have hfeefits := fitsUint256_iff hfeedigits
  have htipfits := fitsUint256_iff htipdigits
  have horder := precedes_significant_iff hfeedigits htipdigits
  constructor
  · intro hwell
    have hvaluelt := hwell.value_lt
    have hfeelt := hwell.maxFee_lt
    have htiplt := hwell.maxPriority_lt
    have hle := hwell.tip_le
    constructor
    case value => exact hvaluefits.mpr (by omega)
    case maxFee => exact hfeefits.mpr (by omega)
    case maxPriority => exact htipfits.mpr (by omega)
    case tip =>
      rw [horder]
      omega
  · intro hfit
    have hvaluelt := hvaluefits.mp hfit.value
    have hfeelt := hfeefits.mp hfit.maxFee
    have htiplt := htipfits.mp hfit.maxPriority
    have hle : ¬digitsValue (unsigned jsonTx.maxFeePerGas) <
        digitsValue (unsigned jsonTx.maxPriorityFeePerGas) := fun hlt => hfit.tip (horder.mpr hlt)
    constructor
    case value_lt => omega
    case maxFee_lt => omega
    case maxPriority_lt => omega
    case maxFee_pos => omega
    case tip_le => omega

/-- **When the amounts are those of the protocol.**  A request that is accepted has
    well-formed amounts exactly if its three numerals are below 2^256 and that of the
    tip does not come after that of the fee cap; and a signature that is returned is
    made over a transaction whose amounts are well formed in the same case. -/
theorem signed_amounts_iff (lib : Libraries) (limits : SignerLimits) :
    (∀ jsonTx tx, parseTxFields lib jsonTx = .ok tx →
      (WellFormedAmounts tx.value tx.maxFeePerGas tx.maxPriorityFeePerGas ↔
        jsonTx.AmountsFit)) ∧
    ∀ (r : Request SignTxRequest) response s history,
      Completes (signer lib) Guard.any (handleSignTx lib limits r) () [] (.ok response)
        s history → response.status = 200 →
      ∃ req answer index fields tx, r.body = some req ∧ response.payload = .signTx answer ∧
        Carries fields tx ∧
        SignedWith lib Guard.any req.encryptedSeed req.seedNonce req.encryptedDek index
          (lib.londonHash fields.chainId tx) answer.signature ∧
        (WellFormedAmounts tx.value tx.gasFeeCap tx.gasTipCap ↔ req.txFields.AmountsFit) := by
  constructor
  · intro jsonTx tx hparse
    exact (parseTxFields_eq_ok.mp hparse).amounts_iff
  · intro r response s history hrun hstatus
    obtain ⟨req, answer, index, fields, raw, hbody, hpayload, hsigned⟩ :=
      hrun.meets (meets_handleSignTx limits r) response rfl hstatus
    have hparse := hsigned.checked.parsed
    obtain ⟨tx, hcarries, hhash⟩ := exists_buildTxHash lib (parseTxFields_ok hparse).2
    refine ⟨req, answer, index, fields, tx, hbody, hpayload, hcarries, ?_, ?_⟩
    · rw [← hhash]
      exact hsigned.signed
    · rw [hcarries.value, hcarries.gasFeeCap, hcarries.gasTipCap]
      exact (parseTxFields_eq_ok.mp hparse).amounts_iff

/-- The amounts of a transfer are well formed. -/
theorem signed_amounts_iff_transfer : WellFormedAmounts 5 15 1 ↔ Sample.txFieldsJSON.AmountsFit :=
  (signed_amounts_iff Sample.libraries Sample.limits).1 Sample.txFieldsJSON Sample.txFields
    sample_parse

/-- 2^256 is accepted as a value, and so is a tip above the fee cap. -/
theorem parseTxFields_malformed :
    (∃ jsonTx tx, parseTxFields Sample.libraries jsonTx = .ok tx ∧ tx.value = 2 ^ 256) ∧
      ∃ jsonTx tx, parseTxFields Sample.libraries jsonTx = .ok tx ∧
        tx.maxFeePerGas < tx.maxPriorityFeePerGas := by
  constructor
  · exact ⟨{ Sample.txFieldsJSON with value := decimal (2 ^ 256) },
      { Sample.txFields with value := 2 ^ 256 }, by decide +kernel, rfl⟩
  · exact ⟨{ Sample.txFieldsJSON with maxPriorityFeePerGas := "16".toList },
      { Sample.txFields with maxPriorityFeePerGas := 16 }, by decide, by decide⟩

/-! ### Calldata -/

/-- The text is prefixed as the API prefixes it. -/
def Prefixed (data : Text) : Prop := ∃ digits, data = '0' :: 'x' :: digits

theorem trimPrefix_of_prefixed (digits : Text) :
    trimPrefix "0x".toList ('0' :: 'x' :: digits) = digits := rfl

theorem trimPrefix_of_not_prefixed {data : Text} (h : ¬Prefixed data) :
    trimPrefix "0x".toList data = data := by
  apply if_neg
  rw [List.isPrefixOf_iff_prefix]
  rintro ⟨digits, rfl⟩
  exact h ⟨digits, rfl⟩

/-- Calldata takes two characters for each byte, and two more if it is prefixed. -/
theorem byteLength_of_prefixed {digits : Text} {bytes : Bytes}
    (h : hexDecode digits = some bytes) :
    byteLength ('0' :: 'x' :: digits) = 2 + 2 * bytes.length := by
  have hzero : '0'.utf8Size = 1 := by decide
  have hx : 'x'.utf8Size = 1 := by decide
  rw [byteLength_cons, byteLength_cons, byteLength_of_isHex (isHex_of_hexDecode h),
    length_of_hexDecode h, hzero, hx]
  omega

theorem parseData_eq_ok {data : Text} {bytes : Bytes} :
    parseData data = .ok bytes ↔ byteLength data ≤ 2 + maxCalldataBytes * 2 ∧
      hexDecode (trimPrefix "0x".toList data) = some bytes := by
  by_cases hempty : data = [] ∨ data = "0x".toList
  · rw [parseData, if_pos hempty]
    have hlength : byteLength data ≤ 2 + maxCalldataBytes * 2 := by
      rcases hempty with rfl | rfl
      · decide
      · decide
    have hdecode : hexDecode (trimPrefix "0x".toList data) = some [] := by
      rcases hempty with rfl | rfl
      · rfl
      · rfl
    rw [hdecode, Except.ok.injEq, Option.some.injEq]
    exact (and_iff_right hlength).symm
  · rw [parseData, if_neg hempty, ite_error_eq_ok, orError_eq_ok, Nat.not_lt]

/-- The calldata is within the cap if it is prefixed, or leaves the two characters
    of the prefix unused. -/
theorem length_data_le_iff {data : Text} {bytes : Bytes} (h : parseData data = .ok bytes) :
    bytes.length ≤ maxCalldataBytes ↔ Prefixed data ∨ data.length ≤ maxCalldataBytes * 2 := by
  obtain ⟨hbytes, hdecode⟩ := parseData_eq_ok.mp h
  by_cases hprefixed : Prefixed data
  · obtain ⟨digits, rfl⟩ := hprefixed
    rw [trimPrefix_of_prefixed] at hdecode
    rw [byteLength_of_prefixed hdecode] at hbytes
    exact iff_of_true (by omega) (.inl ⟨digits, rfl⟩)
  · rw [trimPrefix_of_not_prefixed hprefixed] at hdecode
    have hlength := length_of_hexDecode hdecode
    constructor
    · intro hle
      right
      omega
    · rintro (hyes | hle)
      · exact absurd hyes hprefixed
      · omega

/-- Prefixed calldata within the cap is read as the bytes it denotes. -/
theorem parseData_prefixed {digits : Text} {bytes : Bytes} (hdecode : hexDecode digits = some bytes)
    (hle : bytes.length ≤ maxCalldataBytes) : parseData ('0' :: 'x' :: digits) = .ok bytes := by
  apply parseData_eq_ok.mpr
  rw [byteLength_of_prefixed hdecode, trimPrefix_of_prefixed]
  exact ⟨by omega, hdecode⟩

/-- The calldata is judged by itself. -/
theorem replaceData {lib : Libraries} {jsonTx : TxFieldsJSON} {tx : TxFields} {data : Text}
    {bytes : Bytes} (hparse : parseTxFields lib jsonTx = .ok tx)
      (hdata : parseData data = .ok bytes) :
    parseTxFields lib { jsonTx with data } = .ok { tx with data := bytes } := by
  have hreads := parseTxFields_eq_ok.mp hparse
  apply parseTxFields_eq_ok.mpr
  constructor
  case chain => exact hreads.chain
  case value => exact hreads.value
  case maxFee => exact hreads.maxFee
  case maxPriority => exact hreads.maxPriority
  case gas => exact hreads.gas
  case toAddr => exact hreads.toAddr
  case data => exact hdata
  case copied => exact hreads.copied

/-- **When the calldata cap is exact.**  The calldata of an accepted request is within
    the cap exactly if it is prefixed or has no more digits than the cap allows.  The
    converse always holds: prefixed calldata within the cap is accepted wherever the
    rest of the request is, and is read as the bytes it denotes. -/
theorem calldata_cap_iff (lib : Libraries) (jsonTx : TxFieldsJSON) :
    (∀ tx, parseTxFields lib jsonTx = .ok tx →
      (tx.data.length ≤ maxCalldataBytes ↔
        Prefixed jsonTx.data ∨ jsonTx.data.length ≤ maxCalldataBytes * 2)) ∧
    ∀ tx digits bytes, parseTxFields lib { jsonTx with data := [] } = .ok tx →
      hexDecode digits = some bytes → bytes.length ≤ maxCalldataBytes →
      parseTxFields lib { jsonTx with data := '0' :: 'x' :: digits } =
        .ok { tx with data := bytes } := by
  constructor
  · intro tx hparse
    exact length_data_le_iff (parseTxFields_eq_ok.mp hparse).data
  · intro tx digits bytes hparse hdecode hle
    have haccepted := replaceData hparse (parseData_prefixed hdecode hle)
    exact haccepted

/-- A prefixed call, and the same call put in place of no calldata. -/
theorem calldata_cap_iff_call :
    (4 ≤ maxCalldataBytes ↔ Prefixed "0xa9059cbb".toList ∨ 10 ≤ maxCalldataBytes * 2) ∧
      parseTxFields Sample.libraries Sample.txFieldsJSON = .ok Sample.txFields := by
  constructor
  · exact (calldata_cap_iff Sample.libraries Sample.txFieldsJSON).1 Sample.txFields sample_parse
  · exact (calldata_cap_iff Sample.libraries Sample.txFieldsJSON).2
      { Sample.txFields with data := [] } "a9059cbb".toList (Sample.bytes 4 0xa9059cbb)
      (by decide) (by decide) (by decide)

theorem hexDecode_zeros (n : Nat) :
    hexDecode (List.replicate (2 * n) '0') = some (List.replicate n 0) := by
  induction n with
  | zero => rfl
  | succ n ih =>
    rw [Nat.mul_succ, List.replicate_succ, List.replicate_succ, List.replicate_succ]
    simp [hexDecode, ih, hexVal, byteOf]

/-- Without the prefix 32769 bytes are accepted. -/
theorem calldata_cap_exceeded : ∃ jsonTx tx,
    parseTxFields Sample.libraries jsonTx = .ok tx ∧ tx.data.length = maxCalldataBytes + 1 := by
  have hdecode := hexDecode_zeros (maxCalldataBytes + 1)
  have hunprefixed : ¬Prefixed (List.replicate (2 * (maxCalldataBytes + 1)) '0') := by
    rintro ⟨digits, heq⟩
    have hmem : 'x' ∈ List.replicate (2 * (maxCalldataBytes + 1)) '0' := by
      rw [heq]
      simp
    exact absurd (List.eq_of_mem_replicate hmem) (by decide)
  have hlength : byteLength (List.replicate (2 * (maxCalldataBytes + 1)) '0') ≤
      2 + maxCalldataBytes * 2 := by
    rw [byteLength_of_isHex (isHex_of_hexDecode hdecode), List.length_replicate]
    omega
  refine ⟨{ Sample.txFieldsJSON with data := List.replicate (2 * (maxCalldataBytes + 1)) '0' },
    { Sample.txFields with data := List.replicate (maxCalldataBytes + 1) 0 }, ?_, ?_⟩
  · apply replaceData sample_parse
    apply parseData_eq_ok.mpr
    rw [trimPrefix_of_not_prefixed hunprefixed]
    exact ⟨hlength, hdecode⟩
  · exact List.length_replicate

end BrokeTurnkey.Signer
