import BrokeTurnkey.Signer.Server
import BrokeTurnkey.TransactionReading
import BrokeTurnkey.WalletKeys

/-!
# The client of the signer

`libs/crypto-client/src/crypto-client.service.ts`: what is posted for each request, and
what becomes of the answer.  A posted body is decoded to what was sent, numbers included,
or not at all.
-/

namespace BrokeTurnkey

open Interaction Signer

namespace CryptoClientService

/-! ### Requests -/

/-- The request of `post`, with the members of the object that is sent.  `stringify` is
    `JSON.stringify`, in UTF-8; too large a body is not read. -/
def request (stringify : Json → Bytes) (authToken : Text) (path : String)
    (body : List (Text × Json)) : ServerRequest where
  method := "POST".toList
  path := path.toList
  token := authToken
  body := if (stringify (.obj body)).length > maxBodyBytes then none else some (.obj body)

def createWalletBody : List (Text × Json) := []

def deriveWalletBody (encryptedSeed seedNonce encryptedDek : Text) (derivIndex : Nat) :
    List (Text × Json) := [
  ("encryptedSeed".toList, .str encryptedSeed),
  ("seedNonce".toList, .str seedNonce),
  ("encryptedDek".toList, .str encryptedDek),
  ("derivIndex".toList, .num derivIndex)]

def txFieldsBody (txFields : BrokeTurnkey.TxFields) : List (Text × Json) := [
  ("chainId".toList, .num txFields.chainId),
  ("nonce".toList, .num txFields.nonce),
  ("to".toList, .str txFields.toAddr),
  ("value".toList, .str txFields.value),
  ("gasLimit".toList, .num txFields.gasLimit),
  ("maxFeePerGas".toList, .str txFields.maxFeePerGas),
  ("maxPriorityFeePerGas".toList, .str txFields.maxPriorityFeePerGas),
  ("data".toList, .str txFields.data)]

def signTransactionBody (key : KeyMaterial) (txFields : BrokeTurnkey.TxFields) :
    List (Text × Json) := [
  ("encryptedSeed".toList, .str key.encryptedSeed),
  ("seedNonce".toList, .str key.seedNonce),
  ("encryptedDek".toList, .str key.encryptedDek),
  ("derivationPath".toList, .str key.derivationPath),
  ("txFields".toList, .obj (txFieldsBody txFields))]

def signHashBody (key : KeyMaterial) (hashHex : Text) : List (Text × Json) := [
  ("encryptedSeed".toList, .str key.encryptedSeed),
  ("seedNonce".toList, .str key.seedNonce),
  ("encryptedDek".toList, .str key.encryptedDek),
  ("derivationPath".toList, .str key.derivationPath),
  ("hashHex".toList, .str hashHex)]

/-! ### Answers -/

/-- The error `post` throws. -/
def failed (path : String) (status : Nat) (text : Text) : JsError :=
  .error ("Crypto service ".toList ++ path.toList ++ " failed [".toList ++ Text.decimal status ++
    "]: ".toList ++ text)

/-- `response.ok`. -/
def isOk (status : Nat) : Bool := 200 ≤ status ∧ status ≤ 299

/-- What `post` returns for an answer.  `render` is the JSON the signer writes. -/
def read (render : Payload → Text) (path : String) : Written → Except JsError Payload
  | .text status body => .error (if isOk status then syntaxError else failed path status body)
  | .json response =>
    if isOk response.status then .ok response.payload
    else .error (failed path response.status (render response.payload))

end CryptoClientService

/-! ### What is posted is decoded -/

namespace CryptoClientService

open Decode

theorem distinct_deriveWalletBody (encryptedSeed seedNonce encryptedDek : Text) (derivIndex : Nat) :
    Distinct (deriveWalletBody encryptedSeed seedNonce encryptedDek derivIndex) := by
  simp only [Distinct, deriveWalletBody, List.map_cons, List.map_nil]
  decide

theorem distinct_txFieldsBody (txFields : BrokeTurnkey.TxFields) :
    Distinct (txFieldsBody txFields) := by
  simp only [Distinct, txFieldsBody, List.map_cons, List.map_nil]
  decide

theorem distinct_signTransactionBody (key : KeyMaterial) (txFields : BrokeTurnkey.TxFields) :
    Distinct (signTransactionBody key txFields) := by
  simp only [Distinct, signTransactionBody, List.map_cons, List.map_nil]
  decide

theorem distinct_signHashBody (key : KeyMaterial) (hashHex : Text) :
    Distinct (signHashBody key hashHex) := by
  simp only [Distinct, signHashBody, List.map_cons, List.map_nil]
  decide

theorem decode_deriveWallet (encryptedSeed seedNonce encryptedDek : Text) (derivIndex : Nat) :
    DeriveWalletRequest.decode .zero
        (.obj (deriveWalletBody encryptedSeed seedNonce encryptedDek derivIndex)) =
      (deriveRequest encryptedSeed seedNonce encryptedDek derivIndex).body := by
  have hdistinct := distinct_deriveWalletBody encryptedSeed seedNonce encryptedDek derivIndex
  rw [DeriveWalletRequest.decode, struct_obj, DeriveWalletRequest.fields,
    string_field hdistinct (.head _), string_field hdistinct (.tail _ (.head _)),
    string_field hdistinct (.tail _ (.tail _ (.head _))),
    uint32, uint_field hdistinct (.tail _ (.tail _ (.tail _ (.head _)))), deriveRequest]
  by_cases h : derivIndex < 2 ^ 32
  · have hrange : 0 ≤ (derivIndex : Int) ∧ (derivIndex : Int) < (2 ^ 32 : Nat) := by omega
    rw [if_pos h, if_pos hrange]
    rfl
  · have hrange : ¬(0 ≤ (derivIndex : Int) ∧ (derivIndex : Int) < (2 ^ 32 : Nat)) := by omega
    rw [if_neg h, if_neg hrange]
    rfl

/-- The fields arrive exactly, or not at all. -/
theorem decode_txFields {txFields : BrokeTurnkey.TxFields} {jsonTx : TxFieldsJSON} :
    TxFieldsJSON.decode .zero (.obj (txFieldsBody txFields)) = some jsonTx ↔
      Encodes txFields jsonTx := by
  have hdistinct := distinct_txFieldsBody txFields
  rw [TxFieldsJSON.decode, struct_obj, TxFieldsJSON.fields, uint32, uint64,
    uint_field hdistinct (.head _),
    uint_field hdistinct (.tail _ (.head _)), string_field hdistinct (.tail _ (.tail _ (.head _))),
    string_field hdistinct (.tail _ (.tail _ (.tail _ (.head _)))),
    uint_field hdistinct (.tail _ (.tail _ (.tail _ (.tail _ (.head _))))),
    string_field hdistinct (.tail _ (.tail _ (.tail _ (.tail _ (.tail _ (.head _)))))),
    string_field hdistinct
      (.tail _ (.tail _ (.tail _ (.tail _ (.tail _ (.tail _ (.head _))))))),
    string_field hdistinct
      (.tail _ (.tail _ (.tail _ (.tail _ (.tail _ (.tail _ (.tail _ (.head _))))))))]
  simp only [Option.bind_eq_bind, Option.bind_eq_some_iff, uint32_eq_some, uint64_eq_some]
  constructor
  · rintro ⟨chainId, hchainId, nonce, hnonce, _, ⟨⟩, _, ⟨⟩, gasLimit, hgasLimit, _, ⟨⟩, _, ⟨⟩, _,
      ⟨⟩, ⟨⟩⟩
    constructor
    case chainId => exact Int.ofNat.inj hchainId
    case nonce => exact hnonce
    case gasLimit => exact hgasLimit
    all_goals rfl
  · intro h
    have hchain : (jsonTx.chainId.toNat : Int) = txFields.chainId := congrArg Int.ofNat h.chainId
    refine ⟨_, hchain, _, h.nonce, _, rfl, _, rfl, _, h.gasLimit, _, rfl, _, rfl, _, rfl, ?_⟩
    rw [← h.toAddr, ← h.value, ← h.maxFeePerGas, ← h.maxPriorityFeePerGas, ← h.data]
    rfl

theorem decode_signTransaction {key : KeyMaterial} {txFields : BrokeTurnkey.TxFields} :
    SignTxRequest.decode .zero (.obj (signTransactionBody key txFields)) =
      (TxFieldsJSON.decode .zero (.obj (txFieldsBody txFields))).bind fun jsonTx =>
        some ⟨key.encryptedSeed, key.seedNonce, key.encryptedDek, key.derivationPath, jsonTx⟩ := by
  have hdistinct := distinct_signTransactionBody key txFields
  have hzero : SignTxRequest.zero.txFields = TxFieldsJSON.zero := rfl
  rw [SignTxRequest.decode, struct_obj, SignTxRequest.fields, string_field hdistinct (.head _),
    string_field hdistinct (.tail _ (.head _)),
    string_field hdistinct (.tail _ (.tail _ (.head _))),
    string_field hdistinct (.tail _ (.tail _ (.tail _ (.head _)))),
    field_eq hdistinct (.tail _ (.tail _ (.tail _ (.tail _ (.head _))))), hzero]
  generalize TxFieldsJSON.decode .zero (.obj (txFieldsBody txFields)) = decoded
  cases decoded with
  | none => rfl
  | some jsonTx => rfl

theorem decode_signHash {key : KeyMaterial} {hashHex : Text} :
    SignHashRequest.decode .zero (.obj (signHashBody key hashHex)) =
      some ⟨key.encryptedSeed, key.seedNonce, key.encryptedDek, key.derivationPath, hashHex⟩ := by
  have hdistinct := distinct_signHashBody key hashHex
  rw [SignHashRequest.decode, struct_obj, SignHashRequest.fields, string_field hdistinct (.head _),
    string_field hdistinct (.tail _ (.head _)),
    string_field hdistinct (.tail _ (.tail _ (.head _))),
    string_field hdistinct (.tail _ (.tail _ (.tail _ (.head _)))),
    string_field hdistinct (.tail _ (.tail _ (.tail _ (.tail _ (.head _)))))]
  rfl

end CryptoClientService

end BrokeTurnkey
