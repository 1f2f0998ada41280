import BrokeTurnkey.Signer.Libraries

/-!
# Hashing and signing a transaction

`cmd/crypto/signing.go`.  The transaction is built from the same fields twice, once
for its hash and once for its serialised form.
-/

namespace BrokeTurnkey.Signer

open Text

/-- `TxFields` of the signer: the parameters of an EIP-1559 transaction. -/
structure TxFields where
  chainId : Int
  nonce : UInt64
  maxFeePerGas : Int
  maxPriorityFeePerGas : Int
  gasLimit : UInt64
  toAddr : Text
  value : Int
  data : Bytes
deriving DecidableEq

section

variable (lib : Libraries)

def buildTxHash (fields : TxFields) : Bytes :=
  let toAddr := if fields.toAddr ≠ [] then some (lib.common.hexToAddress fields.toAddr) else none
  let tx : DynamicFeeTx :=
    { chainId := fields.chainId
      nonce := fields.nonce
      gasTipCap := fields.maxPriorityFeePerGas
      gasFeeCap := fields.maxFeePerGas
      gas := fields.gasLimit
      toAddr
      value := fields.value
      data := fields.data }
  lib.londonHash fields.chainId tx

def signTxHash (txHash privKey : Bytes) : Except GoError Text :=
  if privKey.length ≠ 32 then
    .error ("private key must be 32 bytes, got ".toList ++ decimal privKey.length)
  else if txHash.length ≠ 32 then
    .error ("tx hash must be 32 bytes, got ".toList ++ decimal txHash.length)
  else do
    let ecPrivKey ← orError "parse ECDSA private key".toList (lib.toECDSA privKey)
    let signature ← orError "secp256k1 sign".toList (lib.sign txHash ecPrivKey)
    return "0x".toList ++ hexEncode signature

def buildSignedTx (fields : TxFields) (signatureHex : Text) : Except GoError Bytes := do
  let sigBytes ← orError "decode signature hex".toList
    (hexDecode (trimPrefix "0x".toList signatureHex))
  if sigBytes.length ≠ 65 then
    .error ("signature must be 65 bytes, got ".toList ++ decimal sigBytes.length)
  else do
    let toAddr := if fields.toAddr ≠ [] then some (lib.common.hexToAddress fields.toAddr) else none
    let unsignedTx : DynamicFeeTx :=
      { chainId := fields.chainId
        nonce := fields.nonce
        gasTipCap := fields.maxPriorityFeePerGas
        gasFeeCap := fields.maxFeePerGas
        gas := fields.gasLimit
        toAddr
        value := fields.value
        data := fields.data }
    let signedTx ← orError "attach signature to tx".toList
      (lib.withSignature fields.chainId unsignedTx sigBytes)
    orError "marshal signed tx to binary".toList (lib.marshalBinary signedTx)

end

end BrokeTurnkey.Signer
