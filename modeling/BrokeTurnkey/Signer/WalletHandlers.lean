import BrokeTurnkey.Signer.ValidatedSigning

/-!
# Wallets that are created and keys that are found again

Creating a wallet seals a fresh seed and returns the address of its first key;
deriving one opens a sealed seed and returns an address and the path it was derived
at.  Under a Vault that decrypts what it encrypted, the ciphertexts of a wallet open
to one seed for good, and the path of a wallet reads back as the index it was printed
from.  So a later signature is made with the key behind the address.
-/

namespace BrokeTurnkey.Signer

open Interaction Text

/-! ### An honest Vault -/

/-- Vault decrypts with a fixed function, and encrypts to what decrypts to the same. -/
def answersHonestly (transit : Text → Option Text) : KeyCmd → KeyChoice → Bool
  | .transitEncrypt plaintext, .text ciphertext => transit ciphertext = some plaintext
  | .transitDecrypt ciphertext, .text plaintext => transit ciphertext = some plaintext
  | _, _ => true

def honestVault (transit : Text → Option Text) : Guard KeyCmd KeyChoice Empty Unit where
  command := fun command choice _ => answersHonestly transit command choice = true
  event := fun _ _ => True

instance (transit : Text → Option Text) : (honestVault transit).Decides where
  command := fun command choice _ =>
    inferInstanceAs (Decidable (answersHonestly transit command choice = true))
  event := fun _ _ => isTrue trivial

/-- The seed that the three ciphertexts of an org open to. -/
def seedOf (lib : Libraries) (transit : Text → Option Text)
    (encryptedSeed seedNonce encryptedDek : Text) : Option Bytes := do
  let plaintext ← transit encryptedDek
  openedWith lib plaintext encryptedSeed seedNonce

theorem seedOf_eq {lib : Libraries} {transit : Text → Option Text}
    {encryptedSeed seedNonce encryptedDek plaintext : Text} {seed : Bytes}
    (hvault : (honestVault transit).command (.transitDecrypt encryptedDek) (.text plaintext) ())
    (hopen : openedWith lib plaintext encryptedSeed seedNonce = some seed) :
    seedOf lib transit encryptedSeed seedNonce encryptedDek = some seed := by
  have htransit : transit encryptedDek = some plaintext := of_decide_eq_true hvault
  simp only [seedOf, htransit, Option.bind_eq_bind, Option.bind_some, hopen]

/-! ### What is answered -/

section Answered

variable {lib : Libraries} {transit : Text → Option Text} {α : Type} {s t u : Unit}

theorem attains_ofExcept {guard : Guard KeyCmd KeyChoice Empty Unit} {x : Except GoError α}
    {value : α} (h : x = .ok value) :
    Attains (signer lib) guard (Go.ofExcept x) s (.ok value) s := by
  rw [h]
  exact .ret value s

/-- A step that succeeds goes on. -/
theorem attains_ifOk {guard : Guard KeyCmd KeyChoice Empty Unit} {p : Go α}
    {onError : GoError → Response} {next : α → Go Response} {value : α}
    {outcome : Except GoError Response} (hp : Attains (signer lib) guard p s (.ok value) t)
    (hnext : Attains (signer lib) guard (next value) t outcome u) :
    Attains (signer lib) guard (ifOk p onError next) s outcome u := by
  intro history
  obtain ⟨history', hp⟩ := hp history
  obtain ⟨history'', hnext⟩ := hnext history'
  exact ⟨history'', hp.andThen hnext⟩

theorem attains_decryptDEK {encryptedDek plaintext : Text} {dek : Bytes}
    (hvault : transit encryptedDek = some plaintext) (hplaintext : plaintext ≠ [])
    (hdek : Base64.decodeString plaintext = some dek) :
    Attains (signer lib) (honestVault transit) (decryptDEK encryptedDek) () (.ok dek) () := by
  have hguard : (honestVault transit).command (.transitDecrypt encryptedDek) (.text plaintext) () :=
    decide_eq_true hvault
  have hexec : (signer lib).exec (.transitDecrypt encryptedDek) (.text plaintext) () =
      some (.ok plaintext, ()) := rfl
  refine Attains.bind (.perform hguard hexec) ?_
  rw [if_neg hplaintext]
  exact attains_ofExcept (orError_eq_ok.mpr hdek)

/-- What opens to a seed is decrypted by a Vault that answers. -/
theorem attains_decryptOrgSeed {encryptedSeed seedNonce encryptedDek : Text} {seed : Bytes}
    (h : seedOf lib transit encryptedSeed seedNonce encryptedDek = some seed) :
    Attains (signer lib) (honestVault transit)
      (decryptOrgSeed encryptedSeed seedNonce encryptedDek) () (.ok seed) () := by
  simp only [seedOf, openedWith, Option.bind_eq_bind, Option.bind_eq_some_iff,
    Option.ite_none_right_eq_some] at h
  obtain ⟨plaintext, hvault, dek, hdek, encSeedBytes, hseed, nonceBytes, hnonce, ⟨hlong, hshort⟩,
    hopen⟩ := h
  have hplaintext : plaintext ≠ [] := by
    rintro rfl
    have hempty : Base64.decodeString [] = some [] := by decide
    rw [hempty, Option.some.injEq] at hdek
    simp [← hdek] at hlong
  refine Attains.bind (attains_decryptDEK hvault hplaintext hdek) ?_
  refine Attains.bind (attains_ofExcept (orError_eq_ok.mpr hseed)) ?_
  refine Attains.bind (attains_ofExcept (orError_eq_ok.mpr hnonce)) ?_
  rw [decryptSeed, if_neg (not_not.mpr hlong), if_neg (not_not.mpr hshort)]
  have hexec : (signer lib).exec (.gcmOpen dek nonceBytes encSeedBytes) .done () =
      some (.ok seed, ()) := by
    simp only [signer, KeyCmd.exec, hopen, orError, Option.map_some]
  exact .perform rfl hexec

variable {encryptedSeed seedNonce encryptedDek address : Text} {seed key : Bytes} {index : UInt32}
  (hseed : seedOf lib transit encryptedSeed seedNonce encryptedDek = some seed)
  (hkey : deriveAddress lib seed index = .ok (address, key))
include hseed hkey

/-- **A checked hash is signed**, with the key at the index. -/
theorem attains_handleSignHash {limits : SignerLimits} {r : Request SignHashRequest}
    {hash : Bytes} {signature hashHex derivationPath : Text} (hmethod : r.method = "POST".toList)
    (hbody : r.body = some ⟨encryptedSeed, seedNonce, encryptedDek, derivationPath, hashHex⟩)
    (hpath : parseDerivIndex derivationPath = .ok index) (hhash : parseHash hashHex = .ok hash)
    (hlimits : limits.validateHashSigning = .ok ())
      (hsign : signTxHash lib hash key = .ok signature) :
    Attains (signer lib) (honestVault transit) (handleSignHash lib limits r) ()
      (.ok ⟨200, .signHash ⟨signature⟩⟩) () := by
  simp only [handleSignHash, withBody, hmethod, hbody, ne_eq, not_true, if_false]
  refine attains_ifOk (attains_ofExcept hpath) ?_
  refine attains_ifOk (attains_ofExcept hhash) ?_
  refine attains_ifOk (attains_ofExcept hlimits) ?_
  refine attains_ifOk (attains_decryptOrgSeed hseed) ?_
  refine attains_ifOk (attains_ofExcept hkey) ?_
  refine attains_ifOk (attains_ofExcept hsign) ?_
  exact .ret _ _

/-- **A checked transaction is signed**, with the key at the index. -/
theorem attains_handleSignTx {limits : SignerLimits} {r : Request SignTxRequest}
    {jsonTx : TxFieldsJSON} {fields : TxFields} {raw : Bytes} {signature derivationPath : Text}
    (hmethod : r.method = "POST".toList)
    (hbody : r.body = some ⟨encryptedSeed, seedNonce, encryptedDek, derivationPath, jsonTx⟩)
    (hpath : parseDerivIndex derivationPath = .ok index)
    (hfields : parseTxFields lib jsonTx = .ok fields)
    (hlimits : limits.validateSignTxLimits lib fields = .ok ())
    (hsign : signTxHash lib (buildTxHash lib fields) key = .ok signature)
    (hraw : buildSignedTx lib fields signature = .ok raw) :
    Attains (signer lib) (honestVault transit) (handleSignTx lib limits r) ()
      (.ok ⟨200, .signTx
        { signature
          txHash := "0x".toList ++ hexEncode (lib.keccak256 raw)
          rawTx := "0x".toList ++ hexEncode raw }⟩) () := by
  simp only [handleSignTx, withBody, hmethod, hbody, ne_eq, not_true, if_false]
  refine attains_ifOk (attains_ofExcept hpath) ?_
  refine attains_ifOk (attains_ofExcept hfields) ?_
  refine attains_ifOk (attains_ofExcept hlimits) ?_
  refine attains_ifOk (attains_decryptOrgSeed hseed) ?_
  refine attains_ifOk (attains_ofExcept hkey) ?_
  refine attains_ifOk (attains_ofExcept hsign) ?_
  refine attains_ifOk (attains_ofExcept hraw) ?_
  exact .ret _ _

end Answered

/-! ### Paths -/

/-- The path a wallet with this index is stored under. -/
def derivationPath (index : Nat) : Text := "m/44'/60'/0'/0/".toList ++ decimal index

theorem splitOn_path {last : Text} (hslash : '/' ∉ last) :
    ("m/44'/60'/0'/0/".toList ++ last).splitOn '/' =
      ["m".toList, "44'".toList, "60'".toList, "0'".toList, "0".toList, last] := by
  have hpath : "m/44'/60'/0'/0/".toList ++ last = "m".toList ++ '/' :: ("44'".toList ++ '/' ::
      ("60'".toList ++ '/' :: ("0'".toList ++ '/' :: ("0".toList ++ '/' :: last)))) := rfl
  rw [hpath, List.splitOn_append_cons_self_of_not_mem (by decide),
    List.splitOn_append_cons_self_of_not_mem (by decide),
    List.splitOn_append_cons_self_of_not_mem (by decide),
    List.splitOn_append_cons_self_of_not_mem (by decide),
    List.splitOn_append_cons_self_of_not_mem (by decide), List.splitOn_eq_singleton hslash]

theorem splitOn_derivationPath (index : Nat) : (derivationPath index).splitOn '/' =
    ["m".toList, "44'".toList, "60'".toList, "0'".toList, "0".toList, decimal index] :=
  splitOn_path (not_mem_decimal (by decide) index)

/-- **What is printed is parsed.** -/
theorem parseDerivIndex_derivationPath {index : Nat} (h : index < 2 ^ 32) :
    parseDerivIndex (derivationPath index) = .ok (UInt32.ofNat index) := by
  have hread : parseUint 32 (decimal index) = some index :=
    parseUint_eq_some.mpr ⟨parseDecimal_decimal index, h⟩
  simp only [parseDerivIndex, splitOn_derivationPath, ne_eq, not_true_eq_false, or_self, if_false,
    hread]

theorem derivationPath_injective : Function.Injective derivationPath := by
  intro i j heq
  exact decimal_injective (List.append_cancel_left heq)

/-! ### The handlers -/

section

variable {lib : Libraries} {s : Unit} {history : List KeyEntry}

/-- The key's address, as `Hex` writes it. -/
def KeyAddress (lib : Libraries) (key : Bytes) (address : Text) : Prop :=
  ∃ ecPrivKey, lib.toECDSA key = some ecPrivKey ∧
    address = lib.common.hex (lib.pubkeyToAddress ecPrivKey)

theorem deriveAddress_key {seed key : Bytes} {index : UInt32} {address : Text}
    (h : deriveAddress lib seed index = .ok (address, key)) : KeyAddress lib key address := by
  simp only [deriveAddress, bind_eq_ok, orError_eq_ok, pure_eq_ok] at h
  obtain ⟨_, _, extended, _, ecPrivKey, hkey, heq⟩ := h
  cases heq
  exact ⟨ecPrivKey, hkey, rfl⟩

/-- What the answer of `HandleCreateWallet` promises: ciphertexts that open to a seed
    whose first key has the address. -/
def Created (lib : Libraries) (transit : Text → Option Text) (response : CreateWalletResponse) :
    Prop :=
  ∃ seed key, seedOf lib transit response.encryptedSeed response.seedNonce
    response.encryptedDek = some seed ∧
    deriveAddress lib seed 0 = .ok (response.firstAddress, key)

/-- What the answer of `HandleDeriveWallet` promises. -/
def Derived (lib : Libraries) (transit : Text → Option Text) (req : DeriveWalletRequest)
    (response : DeriveWalletResponse) : Prop :=
  response.derivationPath = derivationPath req.derivIndex.toNat ∧
  ∃ seed key, seedOf lib transit req.encryptedSeed req.seedNonce req.encryptedDek = some seed ∧
    deriveAddress lib seed req.derivIndex = .ok (response.address, key)

theorem meets_encryptSeed {guard : Guard KeyCmd KeyChoice Empty Unit} (seed dek : Bytes) :
    Meets (signer lib) guard (fun outcome _ _ => ∀ encrypted, outcome = .ok encrypted →
      encrypted.1 = lib.gcmSeal dek encrypted.2 seed ∧ dek.length = 32 ∧
        encrypted.2.length = 12) (encryptSeed lib seed dek) s history := by
  simp only [encryptSeed]
  split
  · intro encrypted heq
    cases heq
  · rename_i hdek
    apply Meets.bind (P := fun outcome _ _ => ∀ nonce : Bytes, outcome = .ok nonce →
      nonce.length = 12)
    · apply Meets.perform
      rintro choice reply s' _ hexec nonce rfl
      cases choice with
      | bytes b =>
        simp only [signer, KeyCmd.exec, Option.map_eq_some_iff] at hexec
        obtain ⟨answer, hanswer, heq⟩ := hexec
        split at hanswer
        · rename_i hlength
          cases hanswer
          cases heq
          exact hlength
        · cases hanswer
      | text t => cases hexec
      | done => cases hexec
      | fail error => cases hexec
    · intro nonce s' history' hnonce encrypted heq
      cases heq
      exact ⟨rfl, Decidable.not_not.mp hdek, hnonce nonce rfl⟩
    · intro error s' history' _ encrypted heq
      cases heq

theorem meets_encryptDEK (transit : Text → Option Text) (dek : Bytes) :
    Meets (signer lib) (honestVault transit) (fun outcome _ _ => ∀ ciphertext,
      outcome = .ok ciphertext → transit ciphertext = some (Base64.encodeToString dek))
      (encryptDEK dek) s history := by
  apply Meets.bind (P := fun outcome _ _ => ∀ ciphertext : Text, outcome = .ok ciphertext →
    transit ciphertext = some (Base64.encodeToString dek))
  · apply Meets.perform
    rintro choice reply s' hguard hexec ciphertext rfl
    cases choice with
    | text t => cases hexec; exact of_decide_eq_true hguard
    | bytes b => cases hexec
    | done => cases hexec
    | fail error => cases hexec
  · intro ciphertext s' history' hanswer
    split
    · intro other heq
      cases heq
    · intro other heq
      cases heq
      exact hanswer ciphertext rfl
  · intro error s' history' _ ciphertext heq
    cases heq

theorem meets_true {α : Type} {guard : Guard KeyCmd KeyChoice Empty Unit} (p : Go α) :
    Meets (signer lib) guard (fun _ _ _ => True) p s history := by
  apply Meets.of_all (J := fun _ _ => True) _ trivial
  exact Prog.All.mono (fun _ _ _ _ _ _ _ _ _ _ => trivial) (Prog.all_true p)

/-- What was sealed with a key and a nonce of the right length can be opened. -/
def OpensSealed (lib : Libraries) : Prop :=
  ∀ dek nonce seed : Bytes, dek.length = 32 → nonce.length = 12 →
    lib.gcmOpen dek nonce (lib.gcmSeal dek nonce seed) = some seed

theorem meets_handleCreateWallet (hopen : OpensSealed lib)
    (transit : Text → Option Text) (r : Request Unit) :
    Meets (signer lib) (honestVault transit) (fun outcome _ _ => ∀ response,
      outcome = .ok ⟨201, .createWallet response⟩ → Created lib transit response)
      (handleCreateWallet lib r) s history := by
  apply meets_withBody
  · intro _ _
    apply meets_ifOk (meets_true _)
    · intro mnemonic s' history' _
      apply meets_ifOk_ofExcept
      · intro seed _
        apply meets_ifOk (meets_true _)
        · intro dek s' history' _
          apply meets_ifOk (meets_encryptSeed seed dek)
          · intro encrypted s' history' hseal
            apply meets_ifOk (meets_encryptDEK transit dek)
            · intro encDekStr s' history' hvault
              apply meets_ifOk_ofExcept
              · rintro ⟨address, key⟩ hderive response heq
                cases heq
                refine ⟨seed, key, ?_, hderive⟩
                simp only [seedOf, hvault encDekStr rfl, openedWith,
                  Base64.decodeString_encodeToString, Option.bind_eq_bind, Option.bind_some]
                obtain ⟨hsealed, hdek, hnonce⟩ := hseal encrypted rfl
                rw [if_pos ⟨hdek, hnonce⟩, hsealed, hopen dek encrypted.2 seed hdek hnonce]
              · intro error response heq
                cases heq
            · intro error s' history' _ response heq
              cases heq
          · intro error s' history' _ response heq
            cases heq
        · intro error s' history' _ response heq
          cases heq
      · intro error response heq
        cases heq
    · intro error s' history' _ response heq
      cases heq
  · intro response heq
    cases heq
  · intro response heq
    cases heq

theorem meets_handleDeriveWallet (transit : Text → Option Text) (r : Request DeriveWalletRequest) :
    Meets (signer lib) (honestVault transit) (fun outcome _ _ => ∀ response,
      outcome = .ok ⟨200, .deriveWallet response⟩ →
        ∃ req, r.body = some req ∧ Derived lib transit req response)
      (handleDeriveWallet lib r) s history := by
  apply meets_withBody
  · intro req hbody
    apply meets_ifOk (meets_decryptOrgSeed req.encryptedSeed req.seedNonce req.encryptedDek)
    · intro seed s' history' hseed
      obtain ⟨plaintext, hvault, hopen⟩ := hseed seed rfl
      apply meets_ifOk_ofExcept
      · rintro ⟨address, key⟩ hderive response heq
        cases heq
        exact ⟨req, hbody, rfl, seed, key, seedOf_eq hvault hopen, hderive⟩
      · intro error response heq
        cases heq
    · intro error s' history' _ response heq
      cases heq
  · intro response heq
    cases heq
  · intro response heq
    cases heq

end

end BrokeTurnkey.Signer
