import BrokeTurnkey.Signer.Signing

/-!
# The limits of the signer

`cmd/crypto/limits.go`: the limits are read from the environment at start-up and
checked before any key is touched.  A set is the list of what was put into it.
-/

namespace BrokeTurnkey.Signer

open Text

/-- `SignerLimits`; the keys of the sets are normalised texts. -/
structure SignerLimits where
  maxValueWei : Int
  allowedChainIds : List Nat
  allowedTo : List Text
  allowedSelectors : List Text
  allowContractCreation : Bool
  allowHashSigning : Bool
  maxGasLimit : Nat
deriving DecidableEq

def defaultSignerLimits : SignerLimits where
  maxValueWei := 0
  allowedChainIds := []
  allowedTo := []
  allowedSelectors := []
  allowContractCreation := false
  allowHashSigning := false
  maxGasLimit := 1000000

/-- The uint256 maximum has 78 decimal digits. -/
def maxDecimalDigits : Nat := 78

/-- `os.Getenv`: an unset variable is empty. -/
abbrev Environment := String → Text

def splitList (raw : Text) : List Text :=
  if trimSpace raw = [] then []
  else (raw.splitOn ',').filterMap fun part =>
    if trimSpace part ≠ [] then some (trimSpace part) else none

section

variable (lib : Libraries)

/-- The text of a `strconv.NumError`. -/
def parseUintError (entry : Text) : GoError :=
  let reason := if (parseDecimal entry).isSome then "value out of range" else "invalid syntax"
  "strconv.ParseUint: parsing ".toList ++ lib.quote entry ++ ": ".toList ++ reason.toList

def parseUintSet (raw : Text) : Except GoError (List Nat) :=
  (splitList raw).mapM fun entry => orError (parseUintError lib entry) (parseUint 64 entry)

def envBool (env : Environment) (name : String) (fallback : Bool) : Except GoError Bool :=
  let raw := trimSpace (env name)
  if raw = [] then .ok fallback
  else orError ("strconv.ParseBool: parsing ".toList ++ lib.quote raw ++ ": invalid syntax".toList)
    (parseBool raw)

/-- Add context to an error, the `%w` of `fmt.Errorf`. -/
def wrap {α : Type} (context : Text) : Except GoError α → Except GoError α
  | .ok value => .ok value
  | .error error => .error (context ++ error)

def parseSelectorEntry (entry : Text) : Except GoError (Address × Text) :=
  match entry.splitOn ':' with
  | [toText, selectorText] =>
    if lib.common.isHexAddress toText = false then .error "invalid to address".toList
    else
      let selector := lower (trimSpace selectorText)
      if byteLength selector ≠ 10 ∨ "0x".toList.isPrefixOf selector = false then
        .error "selector must be 0x-prefixed 4-byte hex".toList
      else if hexDecode (trimPrefix "0x".toList selector) = none then
        .error "invalid selector hex".toList
      else .ok (lib.common.hexToAddress toText, selector)
  | _ => .error "expected to:selector".toList

/-- The spelling under which an address is put into a set and looked up. -/
def addressKey (a : Address) : Text := lower (lib.common.hex a)

def selectorKey (toAddr : Address) (selector : Text) : Text :=
  addressKey lib toAddr ++ ':' :: lower selector

def loadAllowedTo (entry : Text) : Except GoError Text :=
  if lib.common.isHexAddress entry = false then
    .error ("invalid address in SIGNER_ALLOWED_TO: ".toList ++ entry)
  else .ok (addressKey lib (lib.common.hexToAddress entry))

def loadAllowedSelector (entry : Text) : Except GoError Text := do
  let parsed ← wrap ("invalid SIGNER_ALLOWED_SELECTORS entry ".toList ++ lib.quote entry ++
    ": ".toList) (parseSelectorEntry lib entry)
  return selectorKey lib parsed.1 parsed.2

def loadMaxValue (env : Environment) : Except GoError Int :=
  let trimmed := trimSpace (env "SIGNER_MAX_VALUE_WEI")
  let rawMax := if trimmed = [] then "0".toList else trimmed
  if byteLength rawMax > maxDecimalDigits then .error "SIGNER_MAX_VALUE_WEI too large".toList
  else match setString rawMax with
    | none => .error "invalid SIGNER_MAX_VALUE_WEI".toList
    | some maxValue =>
      if maxValue < 0 then .error "invalid SIGNER_MAX_VALUE_WEI".toList else .ok maxValue

def loadMaxGas (env : Environment) : Except GoError Nat :=
  let rawGas := trimSpace (env "SIGNER_MAX_GAS_LIMIT")
  if rawGas = [] then .ok defaultSignerLimits.maxGasLimit
  else orError "invalid SIGNER_MAX_GAS_LIMIT".toList (parseUint 64 rawGas)

def loadSignerLimits (env : Environment) : Except GoError SignerLimits := do
  let maxValueWei ← loadMaxValue env
  let allowedChainIds ← wrap "invalid SIGNER_ALLOWED_CHAIN_IDS: ".toList
    (parseUintSet lib (env "SIGNER_ALLOWED_CHAIN_IDS"))
  let allowedTo ← (splitList (env "SIGNER_ALLOWED_TO")).mapM (loadAllowedTo lib)
  let allowedSelectors ← (splitList (env "SIGNER_ALLOWED_SELECTORS")).mapM
    (loadAllowedSelector lib)
  let allowContractCreation ← wrap "invalid SIGNER_ALLOW_CONTRACT_CREATION: ".toList
    (envBool lib env "SIGNER_ALLOW_CONTRACT_CREATION" false)
  let allowHashSigning ← wrap "invalid SIGNER_ALLOW_HASH_SIGNING: ".toList
    (envBool lib env "SIGNER_ALLOW_HASH_SIGNING" false)
  let maxGasLimit ← loadMaxGas env
  return ⟨maxValueWei, allowedChainIds, allowedTo, allowedSelectors, allowContractCreation,
    allowHashSigning, maxGasLimit⟩

/-! ### The checks -/

/-- The chain id as a key of the set: `uint64(chainId.Int64())` where it fits. -/
def chainKey (chainId : Int) : Option Nat :=
  if -2 ^ 63 ≤ chainId ∧ chainId < 2 ^ 63 then some (chainId % 2 ^ 64).toNat else none

def SignerLimits.validateSignTxLimits (limits : SignerLimits) (tx : TxFields) :
    Except GoError Unit :=
  if tx.value > limits.maxValueWei then
    .error "transaction value exceeds signer limit".toList
  else if limits.allowedChainIds ≠ [] ∧
      (chainKey tx.chainId).all (fun key => key ∉ limits.allowedChainIds) = true then
    .error "chainId not allowed by signer".toList
  else if tx.gasLimit.toNat > limits.maxGasLimit then
    .error "gasLimit exceeds signer limit".toList
  else if tx.toAddr = [] ∧ limits.allowContractCreation = false then
    .error "contract creation not allowed by signer".toList
  else if tx.toAddr ≠ [] ∧ limits.allowedTo ≠ [] ∧
      addressKey lib (lib.common.hexToAddress tx.toAddr) ∉ limits.allowedTo then
    .error "destination not allowed by signer".toList
  else if tx.data = [] then .ok ()
  else if tx.toAddr = [] then
    .error "calldata contract creation not allowed by signer".toList
  else if limits.allowedSelectors = [] ∨ tx.data.length < 4 ∨
      selectorKey lib (lib.common.hexToAddress tx.toAddr)
        ("0x".toList ++ hexEncode (tx.data.take 4)) ∉
        limits.allowedSelectors then
    .error "calldata selector not allowed by signer".toList
  else .ok ()

def SignerLimits.validateHashSigning (limits : SignerLimits) : Except GoError Unit :=
  if limits.allowHashSigning = false then .error "raw hash signing disabled by signer".toList
  else .ok ()

end

end BrokeTurnkey.Signer
