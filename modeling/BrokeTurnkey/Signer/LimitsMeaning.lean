import Mathlib.Data.List.TakeWhile
import BrokeTurnkey.Signer.System

/-!
# What the limits of the signer mean

The environment is written by hand: lists with blanks, addresses and selectors in
any case and with any prefix.  The signer compares normalised texts, once made from
an entry of a list and once from a request.  Both normalisations give the same text
exactly if the entry and the request denote the same bytes, so the checks are those
of `Permitted`, which never mentions a spelling.
-/

namespace BrokeTurnkey.Signer

open Text

/-! ### What the environment says -/

/-- What stands between the commas of a list, without surrounding blanks. -/
def entries (raw : Text) : List Text :=
  ((raw.splitOn ',').map trimSpace).filter fun entry => entry ≠ []

/-- The text is a prefixed spelling of the selector, in either case. -/
def SelectorText (s : Text) (selector : Bytes) : Prop :=
  has0xPrefix (trimSpace s) = true ∧ hexDecode (drop0xPrefix (trimSpace s)) = some selector

/-- The entry allows calls of the selector at the address. -/
def SelectorEntry (entry : Text) (a : Address) (selector : Bytes) : Prop :=
  ∃ toText selectorText, entry.splitOn ':' = [toText, selectorText] ∧ AddressText toText a ∧
    SelectorText selectorText selector

/-- A variable with its default. -/
def setting (env : Environment) (name default : String) : Text :=
  if trimSpace (env name) = [] then default.toList else trimSpace (env name)

/-- What the environment allows the signer to sign. -/
structure Permitted (env : Environment) (tx : TxFields) : Prop where
  value : ∃ limit, setString (setting env "SIGNER_MAX_VALUE_WEI" "0") = some limit ∧
    tx.value ≤ limit
  chain : entries (env "SIGNER_ALLOWED_CHAIN_IDS") = [] ∨
    ∃ entry ∈ entries (env "SIGNER_ALLOWED_CHAIN_IDS"), ∃ n,
      parseDecimal entry = some n ∧ tx.chainId = n
  gas : ∃ limit, parseDecimal (setting env "SIGNER_MAX_GAS_LIMIT" "1000000") = some limit ∧
    tx.gasLimit.toNat ≤ limit
  creation : tx.toAddr = [] →
    parseBool (setting env "SIGNER_ALLOW_CONTRACT_CREATION" "false") = some true ∧ tx.data = []
  destination : tx.toAddr ≠ [] → entries (env "SIGNER_ALLOWED_TO") = [] ∨
    ∃ entry ∈ entries (env "SIGNER_ALLOWED_TO"), ∃ a,
      AddressText entry a ∧ AddressText tx.toAddr a
  calldata : tx.data ≠ [] → 4 ≤ tx.data.length ∧
    ∃ entry ∈ entries (env "SIGNER_ALLOWED_SELECTORS"), ∃ a,
      AddressText tx.toAddr a ∧ SelectorEntry entry a (tx.data.take 4)

/-! ### Case and prefix -/

/-- A text in lower case is the encoder's spelling of what it denotes. -/
theorem eq_hexEncode_of_lower {s : Text} {bytes : Bytes} (hlower : lower s = s)
    (h : hexDecode s = some bytes) : s = hexEncode bytes := by
  rw [← hlower]
  exact lower_of_hexDecode h

theorem has0xPrefix_iff {s : Text} :
    has0xPrefix s = true ↔ ∃ x rest, s = '0' :: x :: rest ∧ (x = 'x' ∨ x = 'X') := by
  constructor
  · intro h
    simp only [has0xPrefix] at h
    split at h
    · exact ⟨'x', _, rfl, .inl rfl⟩
    · exact ⟨'X', _, rfl, .inr rfl⟩
    · cases h
  · rintro ⟨x, rest, rfl, rfl | rfl⟩
    · rfl
    · rfl

/-- The prefix in either case is the prefix of the text in lower case. -/
theorem isPrefixOf_lower (s : Text) :
    "0x".toList.isPrefixOf (lower s) = true ↔ has0xPrefix s = true := by
  rw [has0xPrefix_iff, List.isPrefixOf_iff_prefix]
  constructor
  · rintro ⟨rest, hrest⟩
    cases s with
    | nil => simp [lower] at hrest
    | cons c tail =>
      cases tail with
      | nil => simp [lower] at hrest
      | cons d tail =>
        have hcons : '0' :: 'x' :: rest = c.toLower :: d.toLower :: lower tail := hrest
        rw [List.cons.injEq, List.cons.injEq] at hcons
        exact ⟨d, tail, by rw [toLower_eq_zero hcons.1.symm], toLower_eq_x hcons.2.1.symm⟩
  · rintro ⟨x, rest, rfl, rfl | rfl⟩
    · exact ⟨lower rest, rfl⟩
    · exact ⟨lower rest, rfl⟩

/-- Without the prefix of its lower-case form, a prefixed text has its own digits. -/
theorem trimPrefix_lower {s : Text} (h : has0xPrefix s = true) :
    trimPrefix "0x".toList (lower s) = lower (drop0xPrefix s) := by
  have hleading := (isPrefixOf_lower s).mpr h
  rw [trimPrefix, if_pos hleading, drop0xPrefix, if_pos h]
  exact List.map_drop.symm

/-! ### The normalised texts -/

section

variable {lib : Libraries}

theorem addressKey_eq (a : Address) : addressKey lib a = '0' :: 'x' :: hexEncode a.bytes :=
  lib.common.lower_hex a

theorem addressKey_injective : Function.Injective (addressKey lib) := by
  intro a b heq
  rw [addressKey_eq, addressKey_eq] at heq
  apply Address.ext_bytes
  apply hexEncode_injective
  exact (List.cons.inj (List.cons.inj heq).2).2

theorem selectorKey_eq (a : Address) (selector : Bytes) :
    selectorKey lib a ("0x".toList ++ hexEncode selector) =
      addressKey lib a ++ ':' :: '0' :: 'x' :: hexEncode selector := by
  have hlower : lower ("0x".toList ++ hexEncode selector) = '0' :: 'x' :: hexEncode selector := by
    have hdigits := lower_hexEncode selector
    simp only [lower] at hdigits ⊢
    simp only [List.map_append, hdigits]
    rfl
  rw [selectorKey, hlower]

/-- **A key stands for one address and one selector.** -/
theorem selectorKey_inj {a b : Address} {s t : Bytes}
    (heq : selectorKey lib a ("0x".toList ++ hexEncode s) =
      selectorKey lib b ("0x".toList ++ hexEncode t)) : a = b ∧ s = t := by
  rw [selectorKey_eq, selectorKey_eq] at heq
  have hlength : (addressKey lib a).length = (addressKey lib b).length := by
    simp only [addressKey_eq, List.length_cons, length_hexEncode, a.length_bytes, b.length_bytes]
  obtain ⟨hkey, hrest⟩ := List.append_inj heq hlength
  constructor
  · exact addressKey_injective hkey
  · simp only [List.cons.injEq, true_and] at hrest
    exact hexEncode_injective hrest

end

/-! ### Reading the lists -/

theorem isSpace_comma : isSpace ',' = false := by decide

theorem trimSpace_eq_nil {s : Text} (h : trimSpace s = []) : ∀ c ∈ s, isSpace c = true := by
  rw [trimSpace, trimBy, List.reverse_eq_nil_iff, List.dropWhile_eq_nil_iff] at h
  apply List.dropWhile_eq_nil_iff.mp
  by_contra hrest
  have hhead := List.head_dropWhile_not isSpace hrest
  have hspace := h _ (List.mem_reverse.mpr (List.head_mem hrest))
  rw [hspace] at hhead
  cases hhead

theorem splitList_eq (raw : Text) : splitList raw = entries raw := by
  have hfilter : ∀ parts : List Text,
      (parts.filterMap fun part => if trimSpace part ≠ [] then some (trimSpace part) else none) =
        (parts.map trimSpace).filter fun entry => entry ≠ [] := by
    intro parts
    induction parts with
    | nil => rfl
    | cons part rest ih =>
      by_cases hpart : trimSpace part = []
      · simpa [hpart] using ih
      · simpa [hpart] using ih
  simp only [splitList]
  split
  · rename_i hblank
    have hcomma : ',' ∉ raw := by
      intro hmem
      have hspace := trimSpace_eq_nil hblank ',' hmem
      rw [isSpace_comma] at hspace
      cases hspace
    rw [entries, List.splitOn_eq_singleton hcomma]
    simp [hblank]
  · exact hfilter _

theorem SelectorEntry.eq {entry : Text} {a b : Address} {s t : Bytes}
    (ha : SelectorEntry entry a s) (hb : SelectorEntry entry b t) : a = b ∧ s = t := by
  obtain ⟨toText, selectorText, hsplit, haddress, hselector⟩ := ha
  obtain ⟨toText', selectorText', hsplit', haddress', hselector'⟩ := hb
  rw [hsplit, List.cons.injEq, List.cons.injEq] at hsplit'
  obtain ⟨rfl, rfl, _⟩ := hsplit'
  constructor
  · exact haddress.eq haddress'
  · exact Option.some.inj (hselector.2.symm.trans hselector'.2)

theorem parseSelectorEntry_ok {lib : Libraries} {entry selector : Text} {a : Address}
    (h : parseSelectorEntry lib entry = .ok (a, selector)) :
    ∃ bytes, selector = "0x".toList ++ hexEncode bytes ∧ SelectorEntry entry a bytes := by
  simp only [parseSelectorEntry] at h
  split at h
  · rename_i toText selectorText hsplit
    split at h
    · cases h
    · rename_i haddress
      split at h
      · cases h
      · rename_i hshape
        split at h
        · cases h
        · rename_i hhex
          rw [not_or, Bool.not_eq_false] at hshape
          rw [Bool.not_eq_false] at haddress
          have hleading := (isPrefixOf_lower _).mp hshape.2
          obtain ⟨bytes, hbytes⟩ := Option.ne_none_iff_exists'.mp hhex
          rw [trimPrefix_lower hleading] at hbytes
          have hselector : SelectorText selectorText bytes := by
            constructor
            · exact hleading
            · rw [← hbytes, hexDecode_lower]
          obtain ⟨x, rest, hrest, hx⟩ := has0xPrefix_iff.mp hleading
          have hlower : lower (trimSpace selectorText) = "0x".toList ++ hexEncode bytes := by
            have hdigits := eq_hexEncode_of_lower (lower_lower _) hbytes
            rw [drop0xPrefix, if_pos hleading, hrest] at hdigits
            rw [hrest, ← hdigits]
            rcases hx with rfl | rfl
            · rfl
            · rfl
          cases h
          exact ⟨bytes, hlower, toText, selectorText, hsplit,
            lib.common.addressText haddress, hselector⟩
  · cases h

/-! ### The limits that are loaded -/

theorem wrap_eq_ok {α : Type} {context : Text} {x : Except GoError α} {value : α} :
    wrap context x = .ok value ↔ x = .ok value := by
  cases x with
  | ok other => simp [wrap]
  | error error => simp [wrap]

theorem parseUint_eq_some {bitSize n : Nat} {s : Text} :
    parseUint bitSize s = some n ↔ parseDecimal s = some n ∧ n < 2 ^ bitSize := by
  simp [parseUint, Option.filter_eq_some_iff]

theorem envBool_ok {lib : Libraries} {env : Environment} {name : String} {flag : Bool}
    (h : envBool lib env name false = .ok flag) :
    parseBool (setting env name "false") = some flag := by
  simp only [envBool] at h
  split at h
  · rename_i hempty
    cases h
    rw [setting, if_pos hempty]
    decide
  · rename_i hset
    rw [setting, if_neg hset]
    exact orError_eq_ok.mp h

theorem loadMaxValue_ok {env : Environment} {limit : Int} (h : loadMaxValue env = .ok limit) :
    setString (setting env "SIGNER_MAX_VALUE_WEI" "0") = some limit := by
  have hraw : setting env "SIGNER_MAX_VALUE_WEI" "0" =
      if trimSpace (env "SIGNER_MAX_VALUE_WEI") = [] then "0".toList
      else trimSpace (env "SIGNER_MAX_VALUE_WEI") := rfl
  simp only [loadMaxValue, ← hraw] at h
  split at h
  · cases h
  · split at h
    · cases h
    · rename_i hread
      split at h
      · cases h
      · cases h
        exact hread

theorem loadMaxGas_ok {env : Environment} {limit : Nat} (h : loadMaxGas env = .ok limit) :
    parseDecimal (setting env "SIGNER_MAX_GAS_LIMIT" "1000000") = some limit := by
  simp only [loadMaxGas] at h
  split at h
  · rename_i hempty
    cases h
    rw [setting, if_pos hempty]
    decide
  · rename_i hset
    rw [setting, if_neg hset]
    exact (parseUint_eq_some.mp (orError_eq_ok.mp h)).1

theorem loadAllowedTo_ok {lib : Libraries} {entry key : Text}
    (h : loadAllowedTo lib entry = .ok key) :
    ∃ a, AddressText entry a ∧ key = addressKey lib a := by
  simp only [loadAllowedTo] at h
  split at h
  · cases h
  · rename_i haddress
    cases h
    rw [Bool.not_eq_false] at haddress
    exact ⟨_, lib.common.addressText haddress, rfl⟩

theorem loadAllowedSelector_ok {lib : Libraries} {entry key : Text}
    (h : loadAllowedSelector lib entry = .ok key) :
    ∃ a selector, SelectorEntry entry a selector ∧
      key = selectorKey lib a ("0x".toList ++ hexEncode selector) := by
  simp only [loadAllowedSelector, bind_eq_ok, pure_eq_ok, wrap_eq_ok] at h
  obtain ⟨⟨a, text⟩, hparsed, rfl⟩ := h
  obtain ⟨selector, rfl, hentry⟩ := parseSelectorEntry_ok hparsed
  exact ⟨a, selector, hentry, rfl⟩

/-- What the fields of loaded limits say about the environment. -/
structure SignerLimits.Reflect (limits : SignerLimits) (lib : Libraries) (env : Environment) :
    Prop where
  value : setString (setting env "SIGNER_MAX_VALUE_WEI" "0") = some limits.maxValueWei
  chains : limits.allowedChainIds = [] ↔ entries (env "SIGNER_ALLOWED_CHAIN_IDS") = []
  chain : ∀ n < 2 ^ 64, n ∈ limits.allowedChainIds ↔
    ∃ entry ∈ entries (env "SIGNER_ALLOWED_CHAIN_IDS"), parseDecimal entry = some n
  destinations : limits.allowedTo = [] ↔ entries (env "SIGNER_ALLOWED_TO") = []
  destination : ∀ a, addressKey lib a ∈ limits.allowedTo ↔
    ∃ entry ∈ entries (env "SIGNER_ALLOWED_TO"), AddressText entry a
  selector : ∀ a bytes, selectorKey lib a ("0x".toList ++ hexEncode bytes) ∈
    limits.allowedSelectors ↔
      ∃ entry ∈ entries (env "SIGNER_ALLOWED_SELECTORS"), SelectorEntry entry a bytes
  creation : parseBool (setting env "SIGNER_ALLOW_CONTRACT_CREATION" "false") =
    some limits.allowContractCreation
  gas : parseDecimal (setting env "SIGNER_MAX_GAS_LIMIT" "1000000") = some limits.maxGasLimit

theorem loadSignerLimits_reflect {lib : Libraries} {env : Environment} {limits : SignerLimits}
    (hload : loadSignerLimits lib env = .ok limits) : limits.Reflect lib env := by
  simp only [loadSignerLimits, bind_eq_ok, pure_eq_ok, wrap_eq_ok, parseUintSet,
    splitList_eq] at hload
  obtain ⟨maxValueWei, hvalue, chains, hchains, allowedTo, hto, selectors, hselectors,
    creation, hcreation, hashSigning, _, maxGas, hgas, rfl⟩ := hload
  constructor
  case value => exact loadMaxValue_ok hvalue
  case chains => exact eq_nil_of_mapM_eq_ok hchains
  case chain =>
    intro n hn
    rw [mem_of_mapM_eq_ok hchains]
    simp only [orError_eq_ok, parseUint_eq_some, hn, and_true]
  case destinations => exact eq_nil_of_mapM_eq_ok hto
  case destination =>
    intro a
    rw [mem_of_mapM_eq_ok hto]
    constructor
    · rintro ⟨entry, hentry, hkey⟩
      obtain ⟨b, hb, heq⟩ := loadAllowedTo_ok hkey
      exact ⟨entry, hentry, addressKey_injective heq ▸ hb⟩
    · rintro ⟨entry, hentry, ha⟩
      obtain ⟨key, hkey⟩ := exists_of_mapM_eq_ok hto entry hentry
      obtain ⟨b, hb, rfl⟩ := loadAllowedTo_ok hkey
      exact ⟨entry, hentry, ha.eq hb ▸ hkey⟩
  case selector =>
    intro a bytes
    rw [mem_of_mapM_eq_ok hselectors]
    constructor
    · rintro ⟨entry, hentry, hkey⟩
      obtain ⟨b, selector, hb, heq⟩ := loadAllowedSelector_ok hkey
      obtain ⟨rfl, rfl⟩ := selectorKey_inj heq
      exact ⟨entry, hentry, hb⟩
    · rintro ⟨entry, hentry, ha⟩
      obtain ⟨key, hkey⟩ := exists_of_mapM_eq_ok hselectors entry hentry
      obtain ⟨b, selector, hb, rfl⟩ := loadAllowedSelector_ok hkey
      obtain ⟨rfl, rfl⟩ := ha.eq hb
      exact ⟨entry, hentry, hkey⟩
  case creation => exact envBool_ok hcreation
  case gas => exact loadMaxGas_ok hgas

/-! ### Parsed transactions -/

theorem ite_error_eq_ok {ε α : Type} {P : Prop} [Decidable P] {error : ε} {x : Except ε α}
    {value : α} : (if P then .error error else x) = .ok value ↔ ¬P ∧ x = .ok value := by
  split
  · simp [*]
  · simp [*]

/-- The request passes every check of `parseTxFields`, and this is read from it. -/
structure TxFieldsJSON.Reads (lib : Libraries) (jsonTx : TxFieldsJSON) (tx : TxFields) : Prop where
  chain : jsonTx.chainId ≠ 0
  value : parseAmount "tx value" 0 "non-negative" jsonTx.value = .ok tx.value
  maxFee : parseAmount "maxFeePerGas" 1 "positive" jsonTx.maxFeePerGas = .ok tx.maxFeePerGas
  maxPriority : parseAmount "maxPriorityFeePerGas" 0 "non-negative" jsonTx.maxPriorityFeePerGas =
    .ok tx.maxPriorityFeePerGas
  gas : jsonTx.gasLimit ≠ 0
  toAddr : ¬(jsonTx.toAddr ≠ [] ∧ lib.common.isHexAddress jsonTx.toAddr = false)
  data : parseData jsonTx.data = .ok tx.data
  copied : tx.chainId = jsonTx.chainId.toNat ∧ tx.nonce = jsonTx.nonce ∧
    tx.gasLimit = jsonTx.gasLimit ∧ tx.toAddr = jsonTx.toAddr

theorem parseTxFields_eq_ok {lib : Libraries} {jsonTx : TxFieldsJSON} {tx : TxFields} :
    parseTxFields lib jsonTx = .ok tx ↔ jsonTx.Reads lib tx := by
  simp only [parseTxFields, ite_error_eq_ok, bind_eq_ok, pure_eq_ok]
  constructor
  · rintro ⟨hchain, value, hvalue, maxFee, hmaxFee, maxPriority, hmaxPriority, hgas, hto, data,
      hdata, rfl⟩
    exact ⟨hchain, hvalue, hmaxFee, hmaxPriority, hgas, hto, hdata, rfl, rfl, rfl, rfl⟩
  · intro h
    obtain ⟨hchainId, hnonce, hgasLimit, hto⟩ := h.copied
    refine ⟨h.chain, _, h.value, _, h.maxFee, _, h.maxPriority, h.gas, h.toAddr, _, h.data, ?_⟩
    cases tx
    simp only at hchainId hnonce hgasLimit hto
    simp [hchainId, hnonce, hgasLimit, hto]

/-- What `parseTxFields` guarantees of the fields the limits look at. -/
theorem parseTxFields_ok {lib : Libraries} {jsonTx : TxFieldsJSON} {tx : TxFields}
    (h : parseTxFields lib jsonTx = .ok tx) :
    (0 < tx.chainId ∧ tx.chainId < 2 ^ 32) ∧
      (tx.toAddr ≠ [] → lib.common.isHexAddress tx.toAddr = true) := by
  have hreads := parseTxFields_eq_ok.mp h
  obtain ⟨hchainId, _, _, hto⟩ := hreads.copied
  have hpos : 0 < jsonTx.chainId.toNat := by
    rcases Nat.eq_zero_or_pos jsonTx.chainId.toNat with hzero | hpos
    · exact absurd (UInt32.toNat_inj.mp hzero) hreads.chain
    · exact hpos
  have hlt := jsonTx.chainId.toNat_lt
  rw [hchainId, hto]
  refine ⟨⟨Int.natCast_pos.mpr hpos, Int.ofNat_lt.mpr hlt⟩, fun hne => ?_⟩
  by_contra hhex
  exact hreads.toAddr ⟨hne, Bool.eq_false_of_not_eq_true hhex⟩

theorem chainKey_of_parsed {chainId : Int} (h : 0 < chainId ∧ chainId < 2 ^ 32) :
    ∃ n < 2 ^ 64, chainKey chainId = some n ∧ chainId = n := by
  refine ⟨chainId.toNat, by omega, ?_, by omega⟩
  rw [chainKey, if_pos ⟨by omega, by omega⟩, Int.emod_eq_of_lt (by omega) (by omega)]

/-! ### The checks -/

/-- The checks of the signer as conditions on its limits. -/
theorem validateSignTxLimits_eq_ok (lib : Libraries) (limits : SignerLimits) (tx : TxFields) :
    limits.validateSignTxLimits lib tx = .ok () ↔
      tx.value ≤ limits.maxValueWei ∧
      (limits.allowedChainIds = [] ∨
        ∃ key, chainKey tx.chainId = some key ∧ key ∈ limits.allowedChainIds) ∧
      tx.gasLimit.toNat ≤ limits.maxGasLimit ∧
      (tx.toAddr = [] → limits.allowContractCreation = true ∧ tx.data = []) ∧
      (tx.toAddr ≠ [] → limits.allowedTo = [] ∨
        addressKey lib (lib.common.hexToAddress tx.toAddr) ∈ limits.allowedTo) ∧
      (tx.data ≠ [] → 4 ≤ tx.data.length ∧ selectorKey lib (lib.common.hexToAddress tx.toAddr)
        ("0x".toList ++ hexEncode (tx.data.take 4)) ∈ limits.allowedSelectors) := by
  have hchain : ¬(limits.allowedChainIds ≠ [] ∧
      (chainKey tx.chainId).all (fun key => key ∉ limits.allowedChainIds) = true) ↔
      (limits.allowedChainIds = [] ∨
        ∃ key, chainKey tx.chainId = some key ∧ key ∈ limits.allowedChainIds) := by
    cases chainKey tx.chainId with
    | none => simp
    | some key => simp [imp_iff_not_or]
  have hselector : ∀ key : Text,
      ¬(limits.allowedSelectors = [] ∨ tx.data.length < 4 ∨ key ∉ limits.allowedSelectors) ↔
        4 ≤ tx.data.length ∧ key ∈ limits.allowedSelectors := by
    intro key
    constructor
    · intro h
      rw [not_or, not_or, not_not, Nat.not_lt] at h
      exact h.2
    · rintro ⟨hlength, hkey⟩ (hempty | hshort | hmissing)
      · exact List.ne_nil_of_mem hkey hempty
      · exact Nat.not_lt.mpr hlength hshort
      · exact hmissing hkey
  have hdestination : ∀ key : Text,
      ¬(tx.toAddr ≠ [] ∧ limits.allowedTo ≠ [] ∧ key ∉ limits.allowedTo) ↔
        (tx.toAddr ≠ [] → limits.allowedTo = [] ∨ key ∈ limits.allowedTo) := by
    intro key
    simp only [not_and, not_not, or_iff_not_imp_left]
  simp only [SignerLimits.validateSignTxLimits, ite_error_eq_ok, hchain, hdestination]
  by_cases hto : tx.toAddr = []
  · by_cases hdata : tx.data = []
    · simp [hto, hdata]
    · simp [hto, hdata]
  · by_cases hdata : tx.data = []
    · simp [hto, hdata]
    · simp only [hdata, if_false, hto, ite_error_eq_ok, hselector]
      simp [hdata]

/-- **The limits mean what the environment says.**  For every environment the signer
    starts with and every parsed transaction, the checks pass exactly if the
    transaction is permitted. -/
theorem validateSignTxLimits_iff_permitted (lib : Libraries) {env : Environment}
    {limits : SignerLimits} (hload : loadSignerLimits lib env = .ok limits)
    {jsonTx : TxFieldsJSON} {tx : TxFields} (hparse : parseTxFields lib jsonTx = .ok tx) :
    limits.validateSignTxLimits lib tx = .ok () ↔ Permitted env tx := by
  have hlimits := loadSignerLimits_reflect hload
  obtain ⟨hchainId, hto⟩ := parseTxFields_ok hparse
  obtain ⟨n, hn, hkey, hchain⟩ := chainKey_of_parsed hchainId
  have haddress : tx.toAddr ≠ [] → AddressText tx.toAddr (lib.common.hexToAddress tx.toAddr) :=
    fun hne => lib.common.addressText (hto hne)
  rw [validateSignTxLimits_eq_ok]
  constructor
  · rintro ⟨hvalue, hchains, hgas, hcreation, hdestination, hcalldata⟩
    constructor
    case value => exact ⟨_, hlimits.value, hvalue⟩
    case chain =>
      rcases hchains with hempty | ⟨key, hsome, hmem⟩
      · exact .inl (hlimits.chains.mp hempty)
      · rw [hkey, Option.some.injEq] at hsome
        subst hsome
        obtain ⟨entry, hentry, hread⟩ := (hlimits.chain n hn).mp hmem
        exact .inr ⟨entry, hentry, n, hread, hchain⟩
    case gas => exact ⟨_, hlimits.gas, hgas⟩
    case creation =>
      intro hempty
      obtain ⟨hallowed, hdata⟩ := hcreation hempty
      exact ⟨hallowed ▸ hlimits.creation, hdata⟩
    case destination =>
      intro hne
      rcases hdestination hne with hempty | hmem
      · exact .inl (hlimits.destinations.mp hempty)
      · obtain ⟨entry, hentry, ha⟩ := (hlimits.destination _).mp hmem
        exact .inr ⟨entry, hentry, _, ha, haddress hne⟩
    case calldata =>
      intro hdata
      have hne : tx.toAddr ≠ [] := fun hempty => hdata (hcreation hempty).2
      obtain ⟨hlength, hmem⟩ := hcalldata hdata
      obtain ⟨entry, hentry, hselector⟩ := (hlimits.selector _ _).mp hmem
      exact ⟨hlength, entry, hentry, _, haddress hne, hselector⟩
  · intro h
    refine ⟨?_, ?_, ?_, ?_, ?_, ?_⟩
    · obtain ⟨limit, hread, hle⟩ := h.value
      rw [hlimits.value, Option.some.injEq] at hread
      exact hread ▸ hle
    · rcases h.chain with hempty | ⟨entry, hentry, m, hread, hm⟩
      · exact .inl (hlimits.chains.mpr hempty)
      · have hmn : m = n := by omega
        subst hmn
        exact .inr ⟨m, hkey, (hlimits.chain m hn).mpr ⟨entry, hentry, hread⟩⟩
    · obtain ⟨limit, hread, hle⟩ := h.gas
      rw [hlimits.gas, Option.some.injEq] at hread
      exact hread ▸ hle
    · intro hempty
      obtain ⟨hallowed, hdata⟩ := h.creation hempty
      rw [hlimits.creation, Option.some.injEq] at hallowed
      exact ⟨hallowed, hdata⟩
    · intro hne
      rcases h.destination hne with hempty | ⟨entry, hentry, a, ha, hto⟩
      · exact .inl (hlimits.destinations.mpr hempty)
      · have heq := hto.eq (haddress hne)
        exact .inr ((hlimits.destination _).mpr ⟨entry, hentry, heq ▸ ha⟩)
    · intro hdata
      have hne : tx.toAddr ≠ [] := fun hempty => hdata (h.creation hempty).2
      obtain ⟨hlength, entry, hentry, a, hto, hselector⟩ := h.calldata hdata
      have heq := hto.eq (haddress hne)
      exact ⟨hlength, (hlimits.selector _ _).mpr ⟨entry, hentry, heq ▸ hselector⟩⟩

theorem sample_limits :
    loadSignerLimits Sample.libraries Sample.environment = .ok Sample.limits := by
  decide

theorem sample_parse :
    parseTxFields Sample.libraries Sample.txFieldsJSON = .ok Sample.txFields := by
  decide

theorem sample_validate :
    Sample.limits.validateSignTxLimits Sample.libraries Sample.txFields = .ok () := by
  decide

/-- A call is permitted whose address stands in the lists in other spellings. -/
theorem validateSignTxLimits_iff_permitted_spellings :
    Permitted Sample.environment Sample.txFields := by
  apply (validateSignTxLimits_iff_permitted Sample.libraries sample_limits sample_parse).mp
  exact sample_validate

end BrokeTurnkey.Signer
