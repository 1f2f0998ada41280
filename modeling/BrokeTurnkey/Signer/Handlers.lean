import BrokeTurnkey.Signer.Limits
import BrokeTurnkey.Signer.Crypto
import BrokeTurnkey.Commands

/-!
# The HTTP handlers of the signer

`cmd/crypto/handlers.go`.  A request is given by its method and by what
`decodeJSON` makes of its body, `none` where the body is too large, not JSON or
not of the expected types.
-/

namespace BrokeTurnkey.Signer

open Interaction Text

/-! ### Requests and responses -/

structure Request (α : Type) where
  method : Text
  body : Option α

structure DeriveWalletRequest where
  encryptedSeed : Text
  seedNonce : Text
  encryptedDek : Text
  derivIndex : UInt32

structure TxFieldsJSON where
  chainId : UInt32
  nonce : UInt64
  toAddr : Text
  value : Text
  gasLimit : UInt64
  maxFeePerGas : Text
  maxPriorityFeePerGas : Text
  data : Text

structure SignTxRequest where
  encryptedSeed : Text
  seedNonce : Text
  encryptedDek : Text
  derivationPath : Text
  txFields : TxFieldsJSON

structure SignTxResponse where
  signature : Text
  txHash : Text
  rawTx : Text
deriving DecidableEq

structure SignHashRequest where
  encryptedSeed : Text
  seedNonce : Text
  encryptedDek : Text
  derivationPath : Text
  hashHex : Text

structure SignHashResponse where
  signature : Text
deriving DecidableEq

/-- The JSON that is written. -/
inductive Payload where
  | error (message : Text)
  | createWallet (response : CreateWalletResponse)
  | deriveWallet (response : DeriveWalletResponse)
  | signTx (response : SignTxResponse)
  | signHash (response : SignHashResponse)
deriving DecidableEq

structure Response where
  status : Nat
  payload : Payload
deriving DecidableEq

def writeError (status : Nat) (message : Text) : Response := ⟨status, .error message⟩

/-- `x, err := f()`, where an error is answered and ends the handler. -/
def ifOk {α : Type} (p : Go α) (onError : GoError → Response) (next : α → Go Response) :
    Go Response :=
  p.andThen fun
    | .ok value => next value
    | .error error => .ret (onError error)

/-- The method check and the decoding every handler starts with. -/
def withBody {α : Type} (r : Request α) (next : α → Go Response) : Go Response :=
  if r.method ≠ "POST".toList then .ret (writeError 405 "method not allowed".toList)
  else match r.body with
    | none => .ret (writeError 400 "invalid JSON body".toList)
    | some req => next req

/-! ### Parsing -/

def parseDerivIndex (path : Text) : Except GoError UInt32 :=
  match path.splitOn '/' with
  | [master, purpose, coin, account, change, indexStr] =>
    if master ≠ "m".toList ∨ purpose ≠ "44'".toList ∨ coin ≠ "60'".toList ∨
        account ≠ "0'".toList ∨ change ≠ "0".toList then
      .error ("invalid derivation path format: ".toList ++ path)
    else match parseUint 32 indexStr with
      | none => .error ("invalid derivation index: ".toList ++ indexStr)
      | some index => .ok (UInt32.ofNat index)
  | _ => .error ("invalid derivation path format: ".toList ++ path)

/-- An amount in decimal; the length is checked before the digits are read. -/
def parseAmount (name : String) (least : Int) (requirement : String) (s : Text) :
    Except GoError Int :=
  if byteLength s > maxDecimalDigits then
    .error (name.toList ++ " too large (max ".toList ++ decimal maxDecimalDigits ++
      " digits)".toList)
  else match setString s with
    | none => .error ("invalid ".toList ++ name.toList ++ ": ".toList ++ s)
    | some amount =>
      if amount < least then .error (name.toList ++ " must be ".toList ++ requirement.toList)
      else .ok amount

def maxCalldataBytes : Nat := 32 * 1024

/-- `%#U` of a byte: its code point and, if it can be printed, the character. -/
def unicodeOf (byte : Nat) : Text :=
  let c := Char.ofNat byte
  let point := "U+00".toList ++ [hexDigit (byte / 16), hexDigit (byte % 16)].map Char.toUpper
  if (0x20 ≤ byte ∧ byte ≤ 0x7e) ∨ (0xa1 ≤ byte ∧ byte ≠ 0xad) then
    point ++ " '".toList ++ [c] ++ "'".toList
  else point

/-- The text of the error of `hex.DecodeString`. -/
def hexError (s : Text) : GoError :=
  match s.find? fun c => (hexVal c).isNone with
  | some c =>
    let first := (String.utf8EncodeChar c).head?.getD 0
    "encoding/hex: invalid byte: ".toList ++ unicodeOf first.toNat
  | none => "encoding/hex: odd length hex string".toList

def parseData (data : Text) : Except GoError Bytes :=
  if data = [] ∨ data = "0x".toList then .ok []
  else if byteLength data > 2 + maxCalldataBytes * 2 then
    .error ("tx data too large (max ".toList ++ decimal maxCalldataBytes ++ " bytes)".toList)
  else
    let digits := trimPrefix "0x".toList data
    orError ("invalid tx data hex: ".toList ++ hexError digits) (hexDecode digits)

def parseTxFields (lib : Libraries) (jsonTx : TxFieldsJSON) : Except GoError TxFields :=
  if jsonTx.chainId = 0 then .error "chainId must be positive".toList
  else do
    let value ← parseAmount "tx value" 0 "non-negative" jsonTx.value
    let maxFee ← parseAmount "maxFeePerGas" 1 "positive" jsonTx.maxFeePerGas
    let maxPriority ←
      parseAmount "maxPriorityFeePerGas" 0 "non-negative" jsonTx.maxPriorityFeePerGas
    if jsonTx.gasLimit = 0 then .error "gasLimit must be positive".toList
    else if jsonTx.toAddr ≠ [] ∧ lib.common.isHexAddress jsonTx.toAddr = false then
      .error ("invalid to address: ".toList ++ jsonTx.toAddr)
    else do
      let data ← parseData jsonTx.data
      return {
        chainId := jsonTx.chainId.toNat
        nonce := jsonTx.nonce
        maxFeePerGas := maxFee
        maxPriorityFeePerGas := maxPriority
        gasLimit := jsonTx.gasLimit
        toAddr := jsonTx.toAddr
        value
        data }

def parseHash (hashHex : Text) : Except GoError Bytes := do
  let hashBytes ← orError "invalid hashHex encoding".toList
    (hexDecode (trimPrefix "0x".toList hashHex))
  if hashBytes.length ≠ 32 then
    .error ("hash must be 32 bytes, got ".toList ++ decimal hashBytes.length)
  else .ok hashBytes

/-! ### Handlers -/

section

variable (lib : Libraries)

def decryptOrgSeed (encSeedB64 nonceB64 encDek : Text) : Go Bytes := do
  let dek ← decryptDEK encDek
  let encSeedBytes ← Go.ofExcept (orError "base64 decode encrypted seed".toList
    (Base64.decodeString encSeedB64))
  let nonceBytes ← Go.ofExcept (orError "base64 decode nonce".toList
    (Base64.decodeString nonceB64))
  decryptSeed encSeedBytes nonceBytes dek

def handleCreateWallet (r : Request Unit) : Go Response :=
  withBody r fun _ =>
  let cryptoError := fun _ => writeError 500 "internal crypto error".toList
  ifOk (generateMnemonic lib) cryptoError fun mnemonic =>
  ifOk (Go.ofExcept (mnemonicToSeed lib mnemonic)) cryptoError fun seed =>
  ifOk generateDEK cryptoError fun dek =>
  ifOk (encryptSeed lib seed dek) cryptoError fun encrypted =>
  ifOk (encryptDEK dek) (fun _ => writeError 500 "vault encryption error".toList) fun encDekStr =>
  ifOk (Go.ofExcept (deriveAddress lib seed 0))
    (fun _ => writeError 500 "internal derivation error".toList) fun first =>
  .ret ⟨201, .createWallet
    { encryptedSeed := Base64.encodeToString encrypted.1
      seedNonce := Base64.encodeToString encrypted.2
      encryptedDek := encDekStr
      firstAddress := first.1 }⟩

def handleDeriveWallet (r : Request DeriveWalletRequest) : Go Response :=
  withBody r fun req =>
  ifOk (decryptOrgSeed req.encryptedSeed req.seedNonce req.encryptedDek)
    (fun _ => writeError 500 "decryption error".toList) fun seed =>
  let path := "m/44'/60'/0'/0/".toList ++ decimal req.derivIndex.toNat
  ifOk (Go.ofExcept (deriveAddress lib seed req.derivIndex))
    (fun _ => writeError 500 "internal derivation error".toList) fun derived =>
  .ret ⟨200, .deriveWallet { address := derived.1, derivationPath := path }⟩

def handleSignTx (limits : SignerLimits) (r : Request SignTxRequest) : Go Response :=
  withBody r fun req =>
  ifOk (Go.ofExcept (parseDerivIndex req.derivationPath)) (writeError 400) fun index =>
  ifOk (Go.ofExcept (parseTxFields lib req.txFields)) (writeError 400) fun txFields =>
  -- the limits come before any key material
  ifOk (Go.ofExcept (limits.validateSignTxLimits lib txFields)) (writeError 403) fun _ =>
  ifOk (decryptOrgSeed req.encryptedSeed req.seedNonce req.encryptedDek)
    (fun _ => writeError 500 "decryption error".toList) fun seed =>
  ifOk (Go.ofExcept (deriveAddress lib seed index))
    (fun _ => writeError 500 "internal derivation error".toList) fun derived =>
  let txHash := buildTxHash lib txFields
  ifOk (Go.ofExcept (signTxHash lib txHash derived.2))
    (fun _ => writeError 500 "signing error".toList) fun signature =>
  ifOk (Go.ofExcept (buildSignedTx lib txFields signature))
    (fun _ => writeError 500 "tx serialization error".toList) fun rawTxBytes =>
  .ret ⟨200, .signTx
    { signature
      txHash := "0x".toList ++ hexEncode (lib.keccak256 rawTxBytes)
      rawTx := "0x".toList ++ hexEncode rawTxBytes }⟩

def handleSignHash (limits : SignerLimits) (r : Request SignHashRequest) : Go Response :=
  withBody r fun req =>
  ifOk (Go.ofExcept (parseDerivIndex req.derivationPath)) (writeError 400) fun index =>
  ifOk (Go.ofExcept (parseHash req.hashHex)) (writeError 400) fun hashBytes =>
  ifOk (Go.ofExcept limits.validateHashSigning) (writeError 403) fun _ =>
  ifOk (decryptOrgSeed req.encryptedSeed req.seedNonce req.encryptedDek)
    (fun _ => writeError 500 "decryption error".toList) fun seed =>
  ifOk (Go.ofExcept (deriveAddress lib seed index))
    (fun _ => writeError 500 "internal derivation error".toList) fun derived =>
  ifOk (Go.ofExcept (signTxHash lib hashBytes derived.2))
    (fun _ => writeError 500 "signing error".toList) fun signature =>
  .ret ⟨200, .signHash { signature }⟩

end

end BrokeTurnkey.Signer
