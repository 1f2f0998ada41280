import BrokeTurnkey.Signer.Libraries
import BrokeTurnkey.Signer.Base64
import BrokeTurnkey.Interaction.Prog

/-!
# Seeds, keys and addresses

`cmd/crypto/crypto.go` and the two Transit calls of `vault.go`.  What leaves the
process is a command: random bytes, the two requests to Vault, and, so that a
property can speak of it, the attempt to open a sealed seed.
-/

namespace BrokeTurnkey.Signer

open Interaction Text

inductive KeyCmd where
  | random (count : Nat)
  | transitEncrypt (plaintext : Text)
  | transitDecrypt (ciphertext : Text)
  | gcmOpen (dek nonce encryptedSeed : Bytes)
deriving DecidableEq

def KeyCmd.Reply : KeyCmd → Type
  | .random _ => Bytes
  | .transitEncrypt _ => Text
  | .transitDecrypt _ => Text
  | .gcmOpen _ _ _ => Bytes

/-- A Go function with its trailing `error` result. -/
abbrev Go (α : Type) := Prog KeyCmd KeyCmd.Reply GoError α

namespace Go

/-- A Go function that does not leave the process. -/
def ofExcept {α : Type} : Except GoError α → Go α
  | .ok value => .ret value
  | .error error => .throw error

def random (count : Nat) : Go Bytes := Prog.perform (KeyCmd.random count)

def transitEncrypt (plaintext : Text) : Go Text := Prog.perform (KeyCmd.transitEncrypt plaintext)

def transitDecrypt (ciphertext : Text) : Go Text :=
  Prog.perform (KeyCmd.transitDecrypt ciphertext)

def gcmOpen (dek nonce encryptedSeed : Bytes) : Go Bytes :=
  Prog.perform (KeyCmd.gcmOpen dek nonce encryptedSeed)

end Go

section

variable (lib : Libraries)

def generateMnemonic : Go Text := do
  let entropy ← Go.random 32
  Go.ofExcept (orError "generate mnemonic".toList (lib.newMnemonic entropy))

def mnemonicToSeed (mnemonic : Text) : Except GoError Bytes :=
  if lib.isMnemonicValid mnemonic = false then .error "invalid mnemonic phrase".toList
  else orError "derive seed".toList (lib.newSeed mnemonic)

def generateDEK : Go Bytes := Go.random 32

/-- Returns the ciphertext and the nonce. -/
def encryptSeed (seed dek : Bytes) : Go (Bytes × Bytes) :=
  if dek.length ≠ 32 then
    throw ("DEK must be 32 bytes, got ".toList ++ decimal dek.length)
  else do
    let nonce ← Go.random 12
    return (lib.gcmSeal dek nonce seed, nonce)

def decryptSeed (encryptedSeed nonce dek : Bytes) : Go Bytes :=
  if dek.length ≠ 32 then
    throw ("DEK must be 32 bytes, got ".toList ++ decimal dek.length)
  else if nonce.length ≠ 12 then
    throw ("nonce must be 12 bytes, got ".toList ++ decimal nonce.length)
  else Go.gcmOpen dek nonce encryptedSeed

/-- `bip32.FirstHardenedChild`. -/
def firstHardenedChild : UInt32 := 0x80000000

/-- The levels of the path m/44'/60'/0'/0/index. -/
def derivationLevels (index : UInt32) : List UInt32 :=
  [firstHardenedChild + 44, firstHardenedChild + 60, firstHardenedChild + 0, 0, index]

def deriveAddress (seed : Bytes) (index : UInt32) : Except GoError (Text × Bytes) := do
  let masterKey ← orError "derive master key".toList (lib.newMasterKey seed)
  let key ← (derivationLevels index).foldlM (fun key level =>
    orError ("derive child key at level ".toList ++ decimal level.toNat)
      (lib.newChildKey key level)) masterKey
  let privKeyBytes := lib.keyBytes key
  let ecPrivKey ← orError "parse ECDSA private key".toList (lib.toECDSA privKeyBytes)
  return (lib.common.hex (lib.pubkeyToAddress ecPrivKey), privKeyBytes)

end

/-! ### Vault Transit -/

def encryptDEK (dek : Bytes) : Go Text := do
  let ciphertext ← Go.transitEncrypt (Base64.encodeToString dek)
  if ciphertext = [] then throw "empty ciphertext in response".toList
  else return ciphertext

def decryptDEK (ciphertext : Text) : Go Bytes := do
  let plaintext ← Go.transitDecrypt ciphertext
  if plaintext = [] then throw "empty plaintext in response".toList
  else Go.ofExcept (orError "base64 decode plaintext".toList (Base64.decodeString plaintext))

end BrokeTurnkey.Signer
