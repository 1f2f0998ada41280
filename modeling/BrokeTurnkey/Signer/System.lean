import BrokeTurnkey.Signer.Handlers
import BrokeTurnkey.Interaction.Sequential

/-!
# The signer at work

How the commands of a handler are answered.  The random source and Vault answer as
the environment chooses or fail; opening a sealed seed is a function of the key, the
nonce and the ciphertext.  A handler keeps nothing between two requests.
-/

namespace BrokeTurnkey.Signer

open Interaction Text

inductive KeyChoice where
  | bytes (b : Bytes)
  | text (t : Text)
  | done
  | fail (error : GoError)

def KeyCmd.exec (lib : Libraries) :
    (command : KeyCmd) → KeyChoice → Option (Except GoError command.Reply)
  | .random count, .bytes b => if b.length = count then some (.ok b) else none
  | .transitEncrypt _, .text t => some (.ok t)
  | .transitDecrypt _, .text t => some (.ok t)
  | .gcmOpen dek nonce encryptedSeed, .done =>
    some (orError "decrypt seed: authentication failed".toList
      (lib.gcmOpen dek nonce encryptedSeed))
  | .random _, .fail error => some (.error error)
  | .transitEncrypt _, .fail error => some (.error error)
  | .transitDecrypt _, .fail error => some (.error error)
  | _, _ => none

def signer (lib : Libraries) : System KeyCmd KeyCmd.Reply GoError Response Unit KeyChoice Empty where
  exec := fun command choice s => (command.exec lib choice).map fun reply => (reply, s)
  spawns := fun _ => []
  env := fun event _ => nomatch event

abbrev KeyEntry := Entry KeyCmd KeyChoice

/-! ### Handlers step by step -/

section

variable {lib : Libraries} {guard : Guard KeyCmd KeyChoice Empty Unit} {α : Type}
  {Q : Except GoError Response → Unit → List KeyEntry → Prop} {s : Unit} {history : List KeyEntry}

theorem meets_ifOk {P : Except GoError α → Unit → List KeyEntry → Prop} {p : Go α}
    {onError : GoError → Response} {next : α → Go Response}
    (hp : Meets (signer lib) guard P p s history)
    (hok : ∀ value s' history', P (.ok value) s' history' →
      Meets (signer lib) guard Q (next value) s' history')
    (herr : ∀ error s' history', P (.error error) s' history' →
      Q (.ok (onError error)) s' history') :
    Meets (signer lib) guard Q (ifOk p onError next) s history := by
  apply Meets.andThen _ hp
  intro outcome s' history' h
  cases outcome with
  | ok value => exact hok value s' history' h
  | error error => exact herr error s' history' h

theorem meets_ofExcept {P : Except GoError α → Unit → List KeyEntry → Prop}
    {x : Except GoError α} (h : P x s history) :
    Meets (signer lib) guard P (Go.ofExcept x) s history := by
  cases x with
  | ok value => exact h
  | error error => exact h

/-- The handler goes on with the value of a function that does not leave the process. -/
theorem meets_ifOk_ofExcept {x : Except GoError α} {onError : GoError → Response}
    {next : α → Go Response}
    (hok : ∀ value, x = .ok value → Meets (signer lib) guard Q (next value) s history)
    (herr : ∀ error, Q (.ok (onError error)) s history) :
    Meets (signer lib) guard Q (ifOk (Go.ofExcept x) onError next) s history := by
  apply meets_ifOk (P := fun outcome s' history' => outcome = x ∧ s' = s ∧ history' = history)
  · exact meets_ofExcept ⟨rfl, rfl, rfl⟩
  · rintro value s' history' ⟨heq, rfl, rfl⟩
    exact hok value heq.symm
  · rintro error s' history' ⟨_, rfl, rfl⟩
    exact herr error

theorem meets_withBody {r : Request α} {next : α → Go Response}
    (hbody : ∀ req, r.body = some req → Meets (signer lib) guard Q (next req) s history)
    (hmethod : Q (.ok (writeError 405 "method not allowed".toList)) s history)
    (hjson : Q (.ok (writeError 400 "invalid JSON body".toList)) s history) :
    Meets (signer lib) guard Q (withBody r next) s history := by
  simp only [withBody]
  split
  · exact hmethod
  · split
    · exact hjson
    · rename_i req hreq
      exact hbody req hreq

end

section

variable {P : KeyCmd → Prop} {α : Type}

/-- What a handler issues after a check it issues only if the check passes. -/
theorem ifOk_ofExcept_all {x : Except GoError α} {onError : GoError → Response}
    {next : α → Go Response} (hnext : ∀ value, x = .ok value → (next value).All P) :
    (ifOk (Go.ofExcept x) onError next).All P := by
  cases x with
  | ok value => exact hnext value rfl
  | error error => trivial

theorem withBody_all {r : Request α} {next : α → Go Response}
    (hnext : ∀ req, r.body = some req → (next req).All P) : (withBody r next).All P := by
  simp only [withBody]
  split
  · trivial
  · split
    · trivial
    · rename_i req hreq
      exact hnext req hreq

end

/-! ### What a decryption yields -/

/-- The seed in the ciphertexts, for the key that Vault returns as `plaintext`. -/
def openedWith (lib : Libraries) (plaintext encSeedB64 nonceB64 : Text) : Option Bytes := do
  let dek ← Base64.decodeString plaintext
  let encSeedBytes ← Base64.decodeString encSeedB64
  let nonceBytes ← Base64.decodeString nonceB64
  if dek.length = 32 ∧ nonceBytes.length = 12 then lib.gcmOpen dek nonceBytes encSeedBytes else none

section

variable {lib : Libraries} {guard : Guard KeyCmd KeyChoice Empty Unit} {s : Unit}
  {history : List KeyEntry}

/-- A key is what Vault returned, in base64. -/
theorem meets_decryptDEK (ciphertext : Text) :
    Meets (signer lib) guard (fun outcome _ _ => ∀ dek, outcome = .ok dek →
      ∃ plaintext, guard.command (.transitDecrypt ciphertext) (.text plaintext) () ∧
        Base64.decodeString plaintext = some dek) (decryptDEK ciphertext) s history := by
  apply Meets.bind (P := fun outcome _ _ => ∀ plaintext : Text, outcome = .ok plaintext →
    guard.command (.transitDecrypt ciphertext) (.text plaintext) ())
  · apply Meets.perform
    rintro choice reply s' hguard hexec plaintext rfl
    cases choice with
    | text t => cases hexec; exact hguard
    | bytes b => cases hexec
    | done => cases hexec
    | fail error => cases hexec
  · intro plaintext s' history' hanswer
    split
    · intro dek heq
      cases heq
    · apply meets_ofExcept
      intro dek heq
      exact ⟨plaintext, hanswer plaintext rfl, orError_eq_ok.mp heq⟩
  · intro error s' history' _ dek heq
    cases heq

theorem meets_decryptSeed (encryptedSeed nonce dek : Bytes) :
    Meets (signer lib) guard (fun outcome _ _ => ∀ seed, outcome = .ok seed →
      (dek.length = 32 ∧ nonce.length = 12) ∧ lib.gcmOpen dek nonce encryptedSeed = some seed)
      (decryptSeed encryptedSeed nonce dek) s history := by
  simp only [decryptSeed]
  split
  · intro seed heq
    cases heq
  · rename_i hdek
    split
    · intro seed heq
      cases heq
    · rename_i hnonce
      apply Meets.perform
      rintro choice reply s' _ hexec seed rfl
      refine ⟨⟨not_not.mp hdek, not_not.mp hnonce⟩, ?_⟩
      cases choice with
      | done =>
        simp only [signer, KeyCmd.exec, Option.map_some, Option.some.injEq] at hexec
        exact orError_eq_ok.mp (congrArg Prod.fst hexec)
      | bytes b => cases hexec
      | text t => cases hexec
      | fail error => cases hexec

theorem meets_decryptOrgSeed (encSeedB64 nonceB64 encDek : Text) :
    Meets (signer lib) guard (fun outcome _ _ => ∀ seed, outcome = .ok seed →
      ∃ plaintext, guard.command (.transitDecrypt encDek) (.text plaintext) () ∧
        openedWith lib plaintext encSeedB64 nonceB64 = some seed)
      (decryptOrgSeed encSeedB64 nonceB64 encDek) s history := by
  apply Meets.bind (meets_decryptDEK encDek)
  · intro dek s' history' hdek
    obtain ⟨plaintext, hguard, hplaintext⟩ := hdek dek rfl
    apply Meets.bind (P := fun outcome _ _ => ∀ bytes, outcome = .ok bytes →
      Base64.decodeString encSeedB64 = some bytes)
    · exact meets_ofExcept fun bytes heq => orError_eq_ok.mp heq
    · intro encSeedBytes s' history' hseed
      apply Meets.bind (P := fun outcome _ _ => ∀ bytes, outcome = .ok bytes →
        Base64.decodeString nonceB64 = some bytes)
      · exact meets_ofExcept fun bytes heq => orError_eq_ok.mp heq
      · intro nonceBytes s' history' hnonce
        apply Meets.mono _ (meets_decryptSeed encSeedBytes nonceBytes dek)
        intro outcome s' history' hopen seed heq
        obtain ⟨hlengths, hopened⟩ := hopen seed heq
        refine ⟨plaintext, hguard, ?_⟩
        simp only [openedWith, hplaintext, hseed _ rfl, hnonce _ rfl, Option.bind_eq_bind,
          Option.bind_some, if_pos hlengths, hopened]
      · intro error s' history' _ seed heq
        cases heq
    · intro error s' history' _ seed heq
      cases heq
  · intro error s' history' _ seed heq
    cases heq

end

/-! ### One request

What the libraries return for one seed, its first two keys, and one transaction that
the first key signs. -/

namespace Sample

/-- The bytes of a hexadecimal number. -/
def bytes (length value : Nat) : Bytes :=
  (List.range length).map fun i => UInt8.ofNat (value / 256 ^ (length - 1 - i))

def seed : Bytes :=
  bytes 32 0x408b285c123836004f4b8842c89324c1f01382450c0d439af345ba7fc49acf70 ++
    bytes 32 0x5489c6fc77dbd4e3dc1dd8cc6bc9f043db8ada1e243c4a0eafb290d399480840

def dek : Bytes := List.replicate 32 1

def gcmNonce : Bytes := List.replicate 12 2

def sealedSeed : Bytes :=
  bytes 32 0x475de115586ff7fd9c87348a9434e67352a653aae7bcceeb2ec25a84bc61bb0f ++
    bytes 32 0x23f6d8cb1ab4770c9b338a25f4eeac3871ff04c98366972864f12361fa7c45ca ++
    bytes 16 0x5683dbc915bed22549346d04d27cd6fe

/-- The key and chain code at each level of the path, down to m/44'/60'/0'/0. -/
def levels : List (Bytes × Bytes) :=
  [(bytes 32 0x235b34cd7c9f6d7e4595ffe9ae4b1cb5606df8aca2b527d20a07c8f56b2342f4,
    bytes 32 0xf40eaad21641ca7cb5ac00f9ce21cac9ba070bb673a237f7bce57acda54386a4),
   (bytes 32 0xcfacd9b16c3dbbb212919ae27c26d3157016fc0af48b931e59a32d969c7ab869,
    bytes 32 0xcfab712b87837428e6e7e0536ef2ee5b6f832ddeb655122cd1013bdd86f9bc2b),
   (bytes 32 0xd30e2b86ea68a8203dc8a6abda459f55d6ed922b5cccb796dfe5302b815c91e2,
    bytes 32 0x43703171a4f0d5ad8846a6cb5d04db4808b44778396b8baee1dd6170d881a212),
   (bytes 32 0x34d51b6c75d62be8130b482405660c8c6a7b5017d14269c926652f3521f2df27,
    bytes 32 0x8a7bb4e42a4afe8afd3bc74b8a1980da037d96873f5e17004edb78d4c73daa73),
   (bytes 32 0x904956e25379c509cd20d2bf52f0eac8e871c7e5f5c1d534a86ede3549a3ec49,
    bytes 32 0x5fe0bba0f831edc439bda43f2bec33af298594b53be98c716395ae80d4b22450)]

def key0 : Bytes :=
  bytes 32 0x1053fae1b3ac64f178bcc21026fd06a3f4544ec2f35338b001f02d1d8efa3d5f

def key1 : Bytes :=
  bytes 32 0x0855b75d03a8830e390b5483d81694c9c7121d971e092145cf8b9c6fa3a5b373

/-- The children with index 0 and 1 of the last level. -/
def children : List (Bytes × Bytes) :=
  [(key0, bytes 32 0x97782609836183f899d640dd4f607eddaf39f72e2fc8aa008c01e02a5aeb21e7),
   (key1, bytes 32 0x337a958aa63124c1c6d6fda837ea2fda5538915f2c445e5a38ad68b2ec1b0136)]

def address0 : Bytes := bytes 20 0xf278cf59f82edcf871d630f28ecc8056f25c1cdb

def address1 : Bytes := bytes 20 0xf785bd075874b8423d3583728a981399f31e95aa

def recipient : Bytes := bytes 20 0x5aaeb6053f3e94c9b9a09f33669435e7ef1beaed

/-- The hashes of the three addresses, which give their checksums. -/
def checksums : List (Bytes × Bytes) :=
  [(address0, bytes 32 0xbd2e3876abe1b72eb93b6a9dc96c98783fcc7743581a3764d13452329fee4f59),
   (address1, bytes 32 0x1f8d1ac1f78866f11cc5240954e40ed30ef1bd1c58860758c6cda2ff72d02f36),
   (recipient, bytes 32 0xd385650ce8fdc6db7ee3a091d34814dbc4ce18219ffae52182efff4034d707e5)]

def tx : DynamicFeeTx where
  chainId := 1
  nonce := 7
  gasTipCap := 1
  gasFeeCap := 15
  gas := 50000
  toAddr := some (GoEthereum.bytesToAddress recipient)
  value := 5
  data := bytes 4 0xa9059cbb

def signingHash : Bytes :=
  bytes 32 0x441aed0f93dccebb7d5dae116cb5ac09657da4d6431ab2747b5a8bd1e01f2218

def signature : Bytes :=
  bytes 32 0xdade7bd3bae522753378109a4e32ff6c91c85d16c2c8ee52ab4d01738f19d277 ++
    bytes 32 0x49379ac889cf270fc0b73595f9a1595c722811e37792cf1c439636bc54063cfb ++
    bytes 1 0x00

def rawTx : Bytes :=
  bytes 32 0x02f8660107010f82c350945aaeb6053f3e94c9b9a09f33669435e7ef1beaed05 ++
    bytes 32 0x84a9059cbbc080a0dade7bd3bae522753378109a4e32ff6c91c85d16c2c8ee52 ++
    bytes 32 0xab4d01738f19d277a049379ac889cf270fc0b73595f9a1595c722811e37792cf ++
    bytes 9 0x1c439636bc54063cfb

def txHash : Bytes :=
  bytes 32 0x54b181f084480a297cc192c831d069a7a87b19051c5f96815b3a2c9b6e8ac606

/-- The text an address is hashed as for its checksum. -/
def asciiHex (address : Bytes) : Bytes := (hexEncode address).map fun c => UInt8.ofNat c.toNat

def keccak256 (b : Bytes) : Bytes :=
  if b = rawTx then txHash
  else ((checksums.find? fun entry => asciiHex entry.1 = b).map Prod.snd).getD []

def newChildKey (parent : Bytes × Bytes) (level : UInt32) : Option (Bytes × Bytes) :=
  match levels.idxOf? parent with
  | some 4 => children[level.toNat]?
  | some depth => if (derivationLevels 0)[depth]? = some level then levels[depth + 1]? else none
  | none => none

/-- A ciphertext carries a tag of sixteen bytes. -/
def gcmSeal (key nonce plaintext : Bytes) : Bytes :=
  if key = dek ∧ nonce = gcmNonce ∧ plaintext = seed then sealedSeed
  else plaintext ++ List.replicate 16 0

def gcmOpen (key nonce ciphertext : Bytes) : Option Bytes :=
  if key = dek ∧ nonce = gcmNonce ∧ ciphertext = sealedSeed then some seed
  else if 16 ≤ ciphertext.length then some (ciphertext.take (ciphertext.length - 16)) else none

def mnemonic : Text :=
  "abandon abandon abandon abandon abandon abandon abandon abandon ".toList ++
  "abandon abandon abandon abandon abandon abandon abandon abandon ".toList ++
  "abandon abandon abandon abandon abandon abandon abandon art".toList

def libraries : Libraries where
  PrivateKey := Bytes
  ExtendedKey := Bytes × Bytes
  common := GoEthereum.common keccak256
  keccak256
  toECDSA := fun b => if b.length = 32 then some b else none
  pubkeyToAddress := fun key =>
    GoEthereum.bytesToAddress (if key = key0 then address0 else address1)
  sign := fun hash key => if hash = signingHash ∧ key = key0 then some signature else none
  londonHash := fun chainId unsigned => if chainId = 1 ∧ unsigned = tx then signingHash else []
  withSignature := fun chainId unsigned sig =>
    if chainId = unsigned.chainId then some ⟨unsigned, sig⟩ else none
  marshalBinary := fun signed => if signed = ⟨tx, signature⟩ then some rawTx else none
  unmarshalBinary := fun raw => if raw = rawTx then some ⟨tx, signature⟩ else none
  newMnemonic := fun entropy => if entropy = List.replicate 32 0 then some mnemonic else none
  isMnemonicValid := fun words => words = mnemonic
  newSeed := fun words => if words = mnemonic then some seed else none
  newMasterKey := fun s => if s = seed then levels.head? else none
  newChildKey
  keyBytes := Prod.fst
  gcmSeal
  gcmOpen
  quote := fun s => '"' :: s ++ ['"']

/-- A call of the selector at the recipient, with the addresses in mixed spellings. -/
def txFieldsJSON : TxFieldsJSON where
  chainId := 1
  nonce := 7
  toAddr := "0x5aAeb6053F3E94C9b9A09f33669435E7Ef1BeAed".toList
  value := "5".toList
  gasLimit := 50000
  maxFeePerGas := "15".toList
  maxPriorityFeePerGas := "1".toList
  data := "0xa9059cbb".toList

def txFields : TxFields where
  chainId := 1
  nonce := 7
  maxFeePerGas := 15
  maxPriorityFeePerGas := 1
  gasLimit := 50000
  toAddr := "0x5aAeb6053F3E94C9b9A09f33669435E7Ef1BeAed".toList
  value := 5
  data := bytes 4 0xa9059cbb

def signTxRequest : SignTxRequest where
  encryptedSeed := Base64.encodeToString sealedSeed
  seedNonce := Base64.encodeToString gcmNonce
  encryptedDek := "vault:v1:dek".toList
  derivationPath := "m/44'/60'/0'/0/0".toList
  txFields := txFieldsJSON

def signTxResponse : SignTxResponse where
  signature := "0x".toList ++ hexEncode signature
  txHash := "0x".toList ++ hexEncode txHash
  rawTx := "0x".toList ++ hexEncode rawTx

/-- A request as the API sends it. -/
def post {α : Type} (req : α) : Request α := ⟨"POST".toList, some req⟩

/-- Vault decrypts the key and the seed opens. -/
def decrypts : List KeyChoice := [.text (Base64.encodeToString dek), .done]

/-- Lists with blanks, and the recipient in lower case without a prefix. -/
def environment : Environment
  | "SIGNER_MAX_VALUE_WEI" => " 100 ".toList
  | "SIGNER_ALLOWED_CHAIN_IDS" => "1, 137,".toList
  | "SIGNER_ALLOWED_TO" => " 5aaeb6053f3e94c9b9a09f33669435e7ef1beaed ".toList
  | "SIGNER_ALLOWED_SELECTORS" =>
    "0X5AAEB6053F3E94C9B9A09F33669435E7EF1BEAED:0XA9059CBB".toList
  | _ => []

/-- The limits that are loaded from it. -/
def limits : SignerLimits where
  maxValueWei := 100
  allowedChainIds := [1, 137]
  allowedTo := ["0x5aaeb6053f3e94c9b9a09f33669435e7ef1beaed".toList]
  allowedSelectors := ["0x5aaeb6053f3e94c9b9a09f33669435e7ef1beaed:0xa9059cbb".toList]
  allowContractCreation := false
  allowHashSigning := false
  maxGasLimit := 1000000

end Sample

end BrokeTurnkey.Signer
