import BrokeTurnkey.WalletKeys

/-!
# The stored address is the address that signs

What the invariant of the wallet rows says to the outside.  A signature is requested
with the ciphertexts of the org's seed row and the path of the wallet's row, and is
made with the key whose address is in the row.  The indices of an org's wallets are
the numbers below their count.
-/

namespace BrokeTurnkey

open Interaction Signer

/-- Whatever the signing handlers return for the ciphertexts and the path is signed
    with the key, and what passes their checks is signed. -/
structure SignsWith (lib : Libraries) (transit : Text → Option Text) (seedRow : OrganizationSeed)
    (path : Text) (key : Bytes) : Prop where
  signTx : ∀ limits (r : Request SignTxRequest) req answer s history, r.body = some req →
    req.encryptedSeed = seedRow.encryptedSeed → req.seedNonce = seedRow.seedNonce →
    req.encryptedDek = seedRow.encryptedDek → req.derivationPath = path →
    Completes (signer lib) (honestVault transit) (handleSignTx lib limits r) () []
      (.ok ⟨200, .signTx answer⟩) s history →
    ∃ fields, parseTxFields lib req.txFields = .ok fields ∧
      signTxHash lib (buildTxHash lib fields) key = .ok answer.signature
  signHash : ∀ limits (r : Request SignHashRequest) req answer s history, r.body = some req →
    req.encryptedSeed = seedRow.encryptedSeed → req.seedNonce = seedRow.seedNonce →
    req.encryptedDek = seedRow.encryptedDek → req.derivationPath = path →
    Completes (signer lib) (honestVault transit) (handleSignHash lib limits r) () []
      (.ok ⟨200, .signHash answer⟩) s history →
    ∃ hash, parseHash req.hashHex = .ok hash ∧ signTxHash lib hash key = .ok answer.signature
  answersTx : ∀ (limits : SignerLimits) jsonTx fields signature raw,
    parseTxFields lib jsonTx = .ok fields → limits.validateSignTxLimits lib fields = .ok () →
    signTxHash lib (buildTxHash lib fields) key = .ok signature →
    buildSignedTx lib fields signature = .ok raw →
    ∃ answer history, Completes (signer lib) (honestVault transit)
      (handleSignTx lib limits ⟨"POST".toList, some ⟨seedRow.encryptedSeed, seedRow.seedNonce,
        seedRow.encryptedDek, path, jsonTx⟩⟩) () [] (.ok ⟨200, .signTx answer⟩) () history
  answersHash : ∀ (limits : SignerLimits) hashHex hash signature, parseHash hashHex = .ok hash →
    limits.validateHashSigning = .ok () → signTxHash lib hash key = .ok signature →
    ∃ history, Completes (signer lib) (honestVault transit)
      (handleSignHash lib limits ⟨"POST".toList, some ⟨seedRow.encryptedSeed, seedRow.seedNonce,
        seedRow.encryptedDek, path, hashHex⟩⟩) () [] (.ok ⟨200, .signHash ⟨signature⟩⟩) () history

/-- The index that a stored path stands for. -/
def indexOf (path : Text) : Option Nat := (parseDerivIndex path).toOption.map UInt32.toNat

/-- The derivation indices of the wallets of an org. -/
def indices (org : Uuid) (t : Tables) : List Nat := (paths org t).filterMap indexOf

/-- The address is the one derived at the index that the row's path stands for. -/
def DerivedAtPath (lib : Libraries) (transit : Text → Option Text) (t : Tables) (row : Wallet)
    (seedRow : OrganizationSeed) (key : Bytes) : Prop :=
  t.seed? row.orgId = some seedRow ∧
    ∃ index seed, parseDerivIndex row.derivationPath = .ok index ∧
      seedOf lib transit seedRow.encryptedSeed seedRow.seedNonce seedRow.encryptedDek =
        some seed ∧
      deriveAddress lib seed index = .ok (row.address, key)

section

variable {lib : Libraries} {transit : Text → Option Text}

theorem Keyed.derivedAtPath {t : Tables} {row : Wallet} (h : Keyed lib transit t row) :
    ∃ seedRow key, DerivedAtPath lib transit t row seedRow key := by
  obtain ⟨seedRow, index, hstored, hpath, hindex, seed, key, hseed, hkey⟩ := h
  refine ⟨seedRow, key, hstored, UInt32.ofNat index, seed, ?_, hseed, hkey⟩
  rw [hpath]
  exact parseDerivIndex_derivationPath hindex

/-- The key a signature is made with is the one at the path. -/
theorem signTxHash_of_signedWith {encryptedSeed seedNonce encryptedDek : Text} {index : UInt32}
    {hash : Bytes} {signature : Text} {seed key : Bytes} {address : Text}
    (h : SignedWith lib (honestVault transit) encryptedSeed seedNonce encryptedDek index hash
      signature)
    (hseed : seedOf lib transit encryptedSeed seedNonce encryptedDek = some seed)
    (hkey : deriveAddress lib seed index = .ok (address, key)) :
    signTxHash lib hash key = .ok signature := by
  obtain ⟨plaintext, seed', address', key', hvault, hopen, hderive, hsign⟩ := h
  have hseed' := seedOf_eq hvault hopen
  rw [hseed, Option.some.injEq] at hseed'
  subst hseed'
  rw [hkey, Except.ok.injEq, Prod.mk.injEq] at hderive
  rw [hderive.2]
  exact hsign

theorem DerivedAtPath.signsWith {t : Tables} {row : Wallet} {seedRow : OrganizationSeed}
    {key : Bytes} (h : DerivedAtPath lib transit t row seedRow key) :
    SignsWith lib transit seedRow row.derivationPath key := by
  obtain ⟨_, index, seed, hpath, hseed, hkey⟩ := h
  constructor
  · rintro limits r req answer s history hbody hes hsn hed hdp hrun
    obtain ⟨req', answer', index', fields, raw, hbody', hpayload, hsigned⟩ :=
      hrun.meets (meets_handleSignTx limits r) _ rfl rfl
    cases hbody.symm.trans hbody'
    cases hpayload
    have hindex := hsigned.checked.path
    rw [hdp, hpath, Except.ok.injEq] at hindex
    subst hindex
    have hmade := hsigned.signed
    rw [hes, hsn, hed] at hmade
    exact ⟨fields, hsigned.checked.parsed, signTxHash_of_signedWith hmade hseed hkey⟩
  · rintro limits r req answer s history hbody hes hsn hed hdp hrun
    obtain ⟨req', answer', index', hash, hbody', hpayload, hchecked, hmade⟩ :=
      hrun.meets (meets_handleSignHash limits r) _ rfl rfl
    cases hbody.symm.trans hbody'
    cases hpayload
    have hindex := hchecked.path
    rw [hdp, hpath, Except.ok.injEq] at hindex
    subst hindex
    rw [hes, hsn, hed] at hmade
    exact ⟨hash, hchecked.parseHash, signTxHash_of_signedWith hmade hseed hkey⟩
  · intro limits jsonTx fields signature raw hfields hlimits hsign hraw
    exact ⟨_, attains_handleSignTx hseed hkey rfl rfl hpath hfields hlimits hsign hraw []⟩
  · intro limits hashHex hash signature hhash hlimits hsign
    exact attains_handleSignHash hseed hkey rfl rfl hpath hhash hlimits hsign []

end

/-- **The stored address is the address that signs.**  In every state that calls of
    `onBoardOrganization` and `deriveWallet` reach together, failing wherever they
    may, the path of each wallet names a key of its org's seed, the key's address is
    the stored one, and both signing handlers sign with this key. -/
theorem wallet_address_signs {cfg : Config} {lib : Libraries} {transit : Text → Option Text}
    (hopen : OpensSealed lib) {calls : List WalletCall} {w : World}
    (hwallets : w.tables.wallets = []) {p : ServicePool}
    (hreach : Reach (services cfg) (honestSigner lib transit) (WalletCall.pool calls w) p) :
    ∀ row ∈ p.state.tables.wallets, ∃ seedRow key,
      DerivedAtPath lib transit p.state.tables row seedRow key ∧ KeyAddress lib key row.address ∧
        SignsWith lib transit seedRow row.derivationPath key := by
  intro row hrow
  have hrows := (walletRows_of_reach hopen hwallets hreach).1
  obtain ⟨seedRow, key, hderived⟩ := (hrows.keyed row hrow).derivedAtPath
  obtain ⟨_, index, seed, _, _, hkey⟩ := id hderived
  exact ⟨seedRow, key, hderived, deriveAddress_key hkey, hderived.signsWith⟩

/-- The indices of the rows are those their paths are printed from. -/
theorem indices_perm {lib : Libraries} {transit : Text → Option Text} {t : Tables}
    (h : WalletRows lib transit t) (org : Uuid) :
    (indices org t).Perm (List.range (t.wallets.countP fun row => row.orgId = org)) := by
  have hdense := h.dense org
  have hindex : ∀ i ∈ List.range (paths org t).length, indexOf (derivationPath i) = some i := by
    intro i hi
    have hmem : derivationPath i ∈ paths org t :=
      hdense.mem_iff.mpr (List.mem_map_of_mem hi)
    obtain ⟨row, hrow, hpath⟩ := List.mem_map.mp hmem
    obtain ⟨seedRow, index, _, hindex, hlt, _⟩ := h.keyed row (List.mem_filter.mp hrow).1
    have heq : i = index := derivationPath_injective (hpath.symm.trans hindex)
    rw [heq, indexOf, parseDerivIndex_derivationPath hlt]
    simp [Except.toOption, UInt32.toNat_ofNat_of_lt' hlt]
  have hmap : ((List.range (paths org t).length).map derivationPath).filterMap indexOf =
      List.range (paths org t).length := by
    rw [List.filterMap_map]
    have hcongr := List.filterMap_congr (f := indexOf ∘ derivationPath) (g := some) hindex
    rw [hcongr, List.filterMap_some]
  rw [← length_paths, ← hmap]
  exact hdense.filterMap indexOf

/-- **Wallet indices are dense and unique.**  In every state that calls of
    `onBoardOrganization` and `deriveWallet` reach together, the indices of an org's
    wallets are the numbers below their count, each once, and a wallet that
    `deriveWallet` returned is stored with the address derived at its index. -/
theorem wallet_indices_dense {cfg : Config} {lib : Libraries} {transit : Text → Option Text}
    (hopen : OpensSealed lib) {calls : List WalletCall} {w : World}
    (hwallets : w.tables.wallets = []) {p : ServicePool}
    (hreach : Reach (services cfg) (honestSigner lib transit) (WalletCall.pool calls w) p) :
    (∀ org, (indices org p.state.tables).Perm
      (List.range (p.state.tables.wallets.countP fun row => row.orgId = org))) ∧
    ∀ result, .ret (.derived result) ∈ p.threads → ∃ row ∈ p.state.tables.wallets,
      row.id.toText = result.walletId ∧ row.address = result.address ∧
        ∃ seedRow key, DerivedAtPath lib transit p.state.tables row seedRow key := by
  obtain ⟨hrows, hreturned⟩ := walletRows_of_reach hopen hwallets hreach
  constructor
  · exact indices_perm hrows
  · intro result hmem
    obtain ⟨row, hrow, hid, haddress⟩ := hreturned result hmem
    exact ⟨row, hrow, hid, haddress, (hrows.keyed row hrow).derivedAtPath⟩

/-! ### An org with two wallets -/

namespace TwoWallets

def transit (ciphertext : Text) : Option Text :=
  if ciphertext = "vault:v1:dek".toList then
    some (Signer.Base64.encodeToString Signer.Sample.dek) else none

def created : CreateWalletResponse where
  encryptedSeed := Signer.Base64.encodeToString Signer.Sample.sealedSeed
  seedNonce := Signer.Base64.encodeToString Signer.Sample.gcmNonce
  encryptedDek := "vault:v1:dek".toList
  firstAddress := "0xF278cF59F82eDcf871d630F28EcC8056f25C1cdb".toList

def derived : DeriveWalletResponse where
  address := "0xf785bD075874b8423D3583728a981399f31e95aA".toList
  derivationPath := derivationPath 1

def entropy : Bytes := List.replicate 32 0

theorem opensSealed : OpensSealed Signer.Sample.libraries := by
  intro dek nonce seed _ _
  simp only [Signer.Sample.libraries, Signer.Sample.gcmSeal]
  split
  · rename_i h
    simp only [Signer.Sample.gcmOpen, h.1, h.2.1, h.2.2, and_self, if_true]
  · have htag : seed ++ List.replicate 16 0 ≠ Signer.Sample.sealedSeed := by
      intro heq
      have hlast := congrArg List.getLast? heq
      rw [List.getLast?_append_of_ne_nil _ (by decide)] at hlast
      revert hlast
      decide
    have hlength : 16 ≤ (seed ++ List.replicate 16 0 : Bytes).length := by simp
    rw [Signer.Sample.gcmOpen, if_neg fun h => htag h.2.2, if_pos hlength]
    simp

/-- The sidecar's answers are those of the handlers for the sample seed. -/
def recorded : Cmd → Choice → Bool
  | .sidecar .createWallet, .created response => response = created
  | .sidecar (.deriveWallet encryptedSeed seedNonce encryptedDek derivIndex), .derived response =>
    encryptedSeed = created.encryptedSeed ∧ seedNonce = created.seedNonce ∧
      encryptedDek = created.encryptedDek ∧ derivIndex = 1 ∧ response = derived
  | _, _ => true

def recordedGuard : Guard Cmd Choice Event World where
  command := fun command choice _ => recorded command choice = true
  event := fun _ _ => False

instance : recordedGuard.Decides where
  command := fun command choice _ =>
    inferInstanceAs (Decidable (recorded command choice = true))
  event := fun _ _ => isFalse id

theorem recorded_created : ∃ r s history, Completes (signer Signer.Sample.libraries)
    (honestVault transit) (handleCreateWallet Signer.Sample.libraries r) () []
    (.ok ⟨201, .createWallet created⟩) s history := by
  obtain ⟨outcome, s, history, hrun, hanswer⟩ := Completes.exists_of_complete
    (signer Signer.Sample.libraries) (honestVault transit)
    (handleCreateWallet Signer.Sample.libraries (Signer.Sample.post ())) ()
    [.bytes entropy, .bytes Signer.Sample.dek, .bytes Signer.Sample.gcmNonce,
      .text "vault:v1:dek".toList]
    (fun final => final.1 = .ok ⟨201, .createWallet created⟩) (by decide +kernel)
  have houtcome : outcome = .ok ⟨201, .createWallet created⟩ := of_decide_eq_true hanswer
  exact ⟨_, s, history, houtcome ▸ hrun⟩

theorem recorded_derived : ∃ s history, Completes (signer Signer.Sample.libraries)
    (honestVault transit) (handleDeriveWallet Signer.Sample.libraries
      (deriveRequest created.encryptedSeed created.seedNonce created.encryptedDek 1)) () []
    (.ok ⟨200, .deriveWallet derived⟩) s history := by
  obtain ⟨outcome, s, history, hrun, hanswer⟩ := Completes.exists_of_complete
    (signer Signer.Sample.libraries) (honestVault transit)
    (handleDeriveWallet Signer.Sample.libraries
      (deriveRequest created.encryptedSeed created.seedNonce created.encryptedDek 1)) ()
    Signer.Sample.decrypts
    (fun final => final.1 = .ok ⟨200, .deriveWallet derived⟩) (by decide)
  have houtcome : outcome = .ok ⟨200, .deriveWallet derived⟩ := of_decide_eq_true hanswer
  exact ⟨s, history, houtcome ▸ hrun⟩

theorem honest_of_recorded (command : Cmd) (choice : Choice) (w : World)
    (h : recordedGuard.command command choice w) :
    (honestSigner Signer.Sample.libraries transit).command command choice w := by
  cases command with
  | sidecar request =>
    cases request with
    | createWallet =>
      cases choice with
      | created response =>
        have heq : response = created := of_decide_eq_true h
        rw [heq]
        exact recorded_created
      | _ => trivial
    | deriveWallet encryptedSeed seedNonce encryptedDek derivIndex =>
      cases choice with
      | derived response =>
        have heq : encryptedSeed = created.encryptedSeed ∧ seedNonce = created.seedNonce ∧
          encryptedDek = created.encryptedDek ∧ derivIndex = 1 ∧ response = derived :=
          of_decide_eq_true h
        obtain ⟨rfl, rfl, rfl, rfl, rfl⟩ := heq
        exact recorded_derived
      | _ => trivial
    | signTransaction wallet origin key txFields => trivial
  | _ => trivial

/-- A deployment without orgs. -/
def world : World :=
  { Sample.world with tables := { Sample.world.tables with seeds := [], wallets := [] } }

def calls : List WalletCall :=
  [.onBoardOrganization Sample.org.toText,
    .deriveWallet Sample.org.toText none "second".toList none]

/-- The second call counts one wallet, derives at index 1 and inserts. -/
def moves : List (Move Choice Event) :=
  Sample.moves 0 [Sample.run, .created created, Sample.run, .done (Sample.freshId 1), Sample.run] ++
  Sample.moves 1 [Sample.run, Sample.run, .derived derived, .done (Sample.freshId 2), Sample.run]

theorem two_rows : ∃ p,
    Reach (services Sample.config) (honestSigner Signer.Sample.libraries transit)
      (WalletCall.pool calls world) p ∧
      p.state.tables.wallets.map Wallet.derivationPath = [derivationPath 0, derivationPath 1] ∧
      ∃ row ∈ p.state.tables.wallets, ∃ seedRow, p.state.tables.seed? row.orgId = some seedRow ∧
        SignTxRequest.mk seedRow.encryptedSeed seedRow.seedNonce seedRow.encryptedDek
          row.derivationPath Signer.Sample.txFieldsJSON = Signer.Sample.signTxRequest := by
  obtain ⟨p, hreach, hp⟩ := Reach.exists_of_run (services Sample.config) recordedGuard
    (WalletCall.pool calls world) moves
    (fun p => p.state.tables.wallets.map Wallet.derivationPath =
        [derivationPath 0, derivationPath 1] ∧
      ∃ row ∈ p.state.tables.wallets, ∃ seedRow ∈ p.state.tables.seed? row.orgId,
        seedRow.encryptedSeed = created.encryptedSeed ∧ seedRow.seedNonce = created.seedNonce ∧
          seedRow.encryptedDek = created.encryptedDek ∧ row.derivationPath = derivationPath 0)
    (by decide)
  obtain ⟨hrows, row, hrow, seedRow, hseedRow, hseed, hnonce, hdek, hpath⟩ := of_decide_eq_true hp
  refine ⟨p, hreach.mono honest_of_recorded fun _ _ h => h.elim, hrows, row, hrow, seedRow,
    hseedRow, ?_⟩
  rw [hseed, hnonce, hdek, hpath]
  rfl

end TwoWallets

open Signer.Sample in
/-- The two wallets of an org sign with the keys behind their addresses, and the first one
    signs. -/
theorem wallet_address_signs_two : ∃ t : Tables, t.wallets.length = 2 ∧
    (∀ row ∈ t.wallets, ∃ seedRow key,
      DerivedAtPath libraries TwoWallets.transit t row seedRow key ∧
        KeyAddress libraries key row.address ∧
        SignsWith libraries TwoWallets.transit seedRow row.derivationPath key) ∧
    ∃ row ∈ t.wallets, ∃ seedRow history, t.seed? row.orgId = some seedRow ∧
      Completes (signer libraries) (honestVault TwoWallets.transit)
        (handleSignTx libraries limits (post ⟨seedRow.encryptedSeed, seedRow.seedNonce,
          seedRow.encryptedDek, row.derivationPath, txFieldsJSON⟩)) () []
        (.ok ⟨200, .signTx signTxResponse⟩) () history := by
  obtain ⟨p, hreach, hrows, row, hrow, seedRow, hseedRow, hrequest⟩ := TwoWallets.two_rows
  refine ⟨p.state.tables, ?_, wallet_address_signs TwoWallets.opensSealed rfl hreach, row, hrow,
    seedRow, ?_⟩
  · have hlength := congrArg List.length hrows
    simpa using hlength
  · rw [hrequest]
    obtain ⟨outcome, s, history, hrun, hanswer⟩ := Completes.exists_of_complete (signer libraries)
      (honestVault TwoWallets.transit) (handleSignTx libraries limits (post signTxRequest)) ()
      decrypts (fun final => final.1 = .ok ⟨200, .signTx signTxResponse⟩) (by decide +kernel)
    have houtcome : outcome = .ok ⟨200, .signTx signTxResponse⟩ := of_decide_eq_true hanswer
    exact ⟨history, hseedRow, houtcome ▸ hrun⟩

/-- Their indices are 0 and 1. -/
theorem wallet_indices_dense_two : ∃ t : Tables, t.wallets.length = 2 ∧
    ∀ org, (indices org t).Perm (List.range (t.wallets.countP fun row => row.orgId = org)) := by
  obtain ⟨p, hreach, hrows, _⟩ := TwoWallets.two_rows
  refine ⟨p.state.tables, ?_, (wallet_indices_dense TwoWallets.opensSealed rfl hreach).1⟩
  have hlength := congrArg List.length hrows
  simpa using hlength

end BrokeTurnkey
