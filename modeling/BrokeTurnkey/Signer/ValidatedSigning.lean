import BrokeTurnkey.Signer.LimitsMeaning
import BrokeTurnkey.Signer.System

/-!
# Nothing leaves the signer unvalidated

The fields of a request are read three times: by the limits, for the hash that is
signed, and for the transaction that is sent.  `Carries` says what a transaction of
the library has to do with the fields, so that all three readings are compared with
one statement.  The other half is an order of events: no key is decrypted before
every check of the request has passed.
-/

namespace BrokeTurnkey.Signer

open Interaction Text

/-- The transaction has exactly the eight fields. -/
structure Carries (fields : TxFields) (tx : DynamicFeeTx) : Prop where
  chainId : tx.chainId = fields.chainId
  nonce : tx.nonce = fields.nonce
  gasTipCap : tx.gasTipCap = fields.maxPriorityFeePerGas
  gasFeeCap : tx.gasFeeCap = fields.maxFeePerGas
  gas : tx.gas = fields.gasLimit
  creation : fields.toAddr = [] → tx.toAddr = none
  toAddr : fields.toAddr ≠ [] → ∃ a, tx.toAddr = some a ∧ AddressText fields.toAddr a
  value : tx.value = fields.value
  data : tx.data = fields.data

/-- Two transactions with the same fields are the same. -/
theorem Carries.eq {fields : TxFields} {tx tx' : DynamicFeeTx} (h : Carries fields tx)
    (h' : Carries fields tx') : tx = tx' := by
  have hto : tx.toAddr = tx'.toAddr := by
    by_cases hempty : fields.toAddr = []
    · rw [h.creation hempty, h'.creation hempty]
    · obtain ⟨a, ha, haddress⟩ := h.toAddr hempty
      obtain ⟨a', ha', haddress'⟩ := h'.toAddr hempty
      rw [ha, ha', haddress.eq haddress']
  cases tx
  cases tx'
  simp only [DynamicFeeTx.mk.injEq]
  exact ⟨h.chainId.trans h'.chainId.symm, h.nonce.trans h'.nonce.symm,
    h.gasTipCap.trans h'.gasTipCap.symm, h.gasFeeCap.trans h'.gasFeeCap.symm,
    h.gas.trans h'.gas.symm, hto, h.value.trans h'.value.symm, h.data.trans h'.data.symm⟩

/-! ### The checks -/

/-- The request passed every check of `HandleSignTx`. -/
structure TxChecked (lib : Libraries) (limits : SignerLimits) (req : SignTxRequest)
    (index : UInt32) (fields : TxFields) : Prop where
  path : parseDerivIndex req.derivationPath = .ok index
  parsed : parseTxFields lib req.txFields = .ok fields
  limited : limits.validateSignTxLimits lib fields = .ok ()

/-- The request passed every check of `HandleSignHash`. -/
structure HashChecked (limits : SignerLimits) (req : SignHashRequest) (index : UInt32)
    (hash : Bytes) : Prop where
  path : parseDerivIndex req.derivationPath = .ok index
  decoded : hexDecode (trimPrefix "0x".toList req.hashHex) = some hash
  length : hash.length = 32
  enabled : limits.allowHashSigning = true

/-- The signature is made over the hash with the key at the index of the seed that the
    request's ciphertexts open to, under what the guard lets Vault answer. -/
def SignedWith (lib : Libraries) (guard : Guard KeyCmd KeyChoice Empty Unit)
    (encSeedB64 nonceB64 encDek : Text) (index : UInt32) (hash : Bytes) (signature : Text) :
    Prop :=
  ∃ plaintext seed address key, guard.command (.transitDecrypt encDek) (.text plaintext) () ∧
    openedWith lib plaintext encSeedB64 nonceB64 = some seed ∧
    deriveAddress lib seed index = .ok (address, key) ∧ signTxHash lib hash key = .ok signature

/-- What a successful answer of `HandleSignTx` promises. -/
structure SignTxAnswer (lib : Libraries) (guard : Guard KeyCmd KeyChoice Empty Unit)
    (limits : SignerLimits) (req : SignTxRequest) (response : SignTxResponse) (index : UInt32)
    (fields : TxFields) (tx : DynamicFeeTx) (raw : Bytes) (decoded : SignedTx) : Prop where
  checked : TxChecked lib limits req index fields
  carries : Carries fields tx
  signed : SignedWith lib guard req.encryptedSeed req.seedNonce req.encryptedDek index
    (lib.londonHash fields.chainId tx) response.signature
  rawTx : response.rawTx = "0x".toList ++ hexEncode raw
  decodes : lib.unmarshalBinary raw = some decoded
  exactly : Carries fields decoded.tx
  hash : lib.londonHash decoded.tx.chainId decoded.tx = lib.londonHash fields.chainId tx
  attached : response.signature = "0x".toList ++ hexEncode decoded.signature

/-- The two commands that touch key material. -/
def KeyCmd.decrypts : KeyCmd → Bool
  | .transitDecrypt _ | .gcmOpen _ _ _ => true
  | _ => false

/-! ### Building the transaction -/

section

variable {lib : Libraries}

theorem parseHash_ok {hashHex : Text} {hash : Bytes} (h : parseHash hashHex = .ok hash) :
    hexDecode (trimPrefix "0x".toList hashHex) = some hash ∧ hash.length = 32 := by
  simp only [parseHash, bind_eq_ok, orError_eq_ok] at h
  obtain ⟨bytes, hdecode, h⟩ := h
  split at h
  · cases h
  · rename_i hlength
    cases h
    exact ⟨hdecode, Decidable.not_not.mp hlength⟩

theorem HashChecked.parseHash {limits : SignerLimits} {req : SignHashRequest} {index : UInt32}
    {hash : Bytes} (h : HashChecked limits req index hash) :
    Signer.parseHash req.hashHex = .ok hash := by
  simp only [Signer.parseHash, h.decoded, bind_eq_ok, orError_eq_ok]
  exact ⟨hash, rfl, if_neg (not_not.mpr h.length)⟩

theorem validateHashSigning_ok {limits : SignerLimits}
    (h : limits.validateHashSigning = .ok ()) : limits.allowHashSigning = true := by
  simp only [SignerLimits.validateHashSigning, ite_error_eq_ok, Bool.not_eq_false] at h
  exact h.1

theorem signTxHash_ok {hash key : Bytes} {signature : Text}
    (h : signTxHash lib hash key = .ok signature) :
    ∃ bytes, signature = "0x".toList ++ hexEncode bytes := by
  simp only [signTxHash, ite_error_eq_ok, bind_eq_ok, pure_eq_ok] at h
  obtain ⟨_, _, _, _, bytes, _, rfl⟩ := h
  exact ⟨bytes, rfl⟩

/-- The signing hash is that of a transaction with exactly these fields. -/
theorem exists_buildTxHash (lib : Libraries) {fields : TxFields}
    (hto : fields.toAddr ≠ [] → lib.common.isHexAddress fields.toAddr = true) :
    ∃ tx, Carries fields tx ∧ buildTxHash lib fields = lib.londonHash fields.chainId tx := by
  refine ⟨_, ?_, rfl⟩
  constructor
  case creation => intro hempty; simp [hempty]
  case toAddr =>
    intro hne
    exact ⟨_, if_pos hne, lib.common.addressText (hto hne)⟩
  all_goals rfl

/-- The transaction that is sent has exactly these fields too, and the signature that
    was made. -/
theorem buildSignedTx_ok {fields : TxFields} {bytes raw : Bytes}
    (hdecode : ∀ stx raw, lib.marshalBinary stx = some raw → lib.unmarshalBinary raw = some stx)
    (hattach : ∀ chainId tx signature stx, lib.withSignature chainId tx signature = some stx →
      stx = ⟨tx, signature⟩)
    (hto : fields.toAddr ≠ [] → lib.common.isHexAddress fields.toAddr = true)
    (h : buildSignedTx lib fields ("0x".toList ++ hexEncode bytes) = .ok raw) :
    ∃ decoded, lib.unmarshalBinary raw = some decoded ∧ Carries fields decoded.tx ∧
      decoded.signature = bytes := by
  have hsignature : hexDecode (trimPrefix "0x".toList ("0x".toList ++ hexEncode bytes)) =
      some bytes := hexDecode_hexEncode bytes
  simp only [buildSignedTx, bind_eq_ok, orError_eq_ok, ite_error_eq_ok, hsignature] at h
  obtain ⟨sigBytes, hsig, _, stx, hattached, hmarshal⟩ := h
  have hstx := hattach _ _ _ _ hattached
  cases hsig
  refine ⟨stx, hdecode stx raw hmarshal, ?_, by rw [hstx]⟩
  rw [hstx]
  constructor
  case creation => intro hempty; simp [hempty]
  case toAddr =>
    intro hne
    exact ⟨_, if_pos hne, lib.common.addressText (hto hne)⟩
  all_goals rfl

/-! ### Answers -/

section

variable {guard : Guard KeyCmd KeyChoice Empty Unit} {s : Unit} {history : List KeyEntry}

/-- A successful answer has a payload with `P`. -/
def Answers (P : Payload → Prop) (outcome : Except GoError Response) (_ : Unit)
    (_ : List KeyEntry) : Prop :=
  ∀ response, outcome = .ok response → response.status = 200 → P response.payload

theorem answers_writeError {P : Payload → Prop} {status : Nat} (hstatus : status ≠ 200)
    (message : Text) : Answers P (.ok (writeError status message)) s history := by
  intro response heq hok
  cases heq
  exact absurd hok hstatus

/-- Decrypt, derive, and go on with the seed and the key. -/
theorem meets_withKey {P : Payload → Prop} {encSeedB64 nonceB64 encDek : Text} {index : UInt32}
    {next : Text × Bytes → Go Response}
    (hnext : ∀ plaintext seed derived s' history',
      guard.command (.transitDecrypt encDek) (.text plaintext) () →
      openedWith lib plaintext encSeedB64 nonceB64 = some seed →
      deriveAddress lib seed index = .ok derived →
      Meets (signer lib) guard (Answers P) (next derived) s' history') :
    Meets (signer lib) guard (Answers P)
      (ifOk (decryptOrgSeed encSeedB64 nonceB64 encDek)
        (fun _ => writeError 500 "decryption error".toList) fun seed =>
        ifOk (Go.ofExcept (deriveAddress lib seed index))
          (fun _ => writeError 500 "internal derivation error".toList) next) s history := by
  apply meets_ifOk (meets_decryptOrgSeed encSeedB64 nonceB64 encDek)
  · intro seed s' history' hseed
    obtain ⟨plaintext, hvault, hopen⟩ := hseed seed rfl
    apply meets_ifOk_ofExcept
    · intro derived hderive
      exact hnext plaintext seed derived s' history' hvault hopen hderive
    · intro error
      exact answers_writeError (by decide) _
  · intro error s' history' _
    exact answers_writeError (by decide) _

/-- What is signed and returned by a successful run of `HandleSignTx`, as computed. -/
structure TxSigned (lib : Libraries) (guard : Guard KeyCmd KeyChoice Empty Unit)
    (limits : SignerLimits) (req : SignTxRequest) (response : SignTxResponse) (index : UInt32)
    (fields : TxFields) (raw : Bytes) : Prop where
  checked : TxChecked lib limits req index fields
  signed : SignedWith lib guard req.encryptedSeed req.seedNonce req.encryptedDek index
    (buildTxHash lib fields) response.signature
  serialised : buildSignedTx lib fields response.signature = .ok raw
  rawTx : response.rawTx = "0x".toList ++ hexEncode raw

theorem meets_handleSignTx (limits : SignerLimits) (r : Request SignTxRequest) :
    Meets (signer lib) guard (Answers fun payload => ∃ req response index fields raw,
      r.body = some req ∧ payload = .signTx response ∧
        TxSigned lib guard limits req response index fields raw)
      (handleSignTx lib limits r) s history := by
  apply meets_withBody
  · intro req hbody
    apply meets_ifOk_ofExcept
    · intro index hpath
      apply meets_ifOk_ofExcept
      · intro fields hfields
        apply meets_ifOk_ofExcept
        · rintro ⟨⟩ hlimits
          apply meets_withKey
          intro plaintext seed derived s' history' hvault hopen hderive
          apply meets_ifOk_ofExcept
          · intro signature hsign
            apply meets_ifOk_ofExcept
            · rintro raw hraw response heq hstatus
              cases heq
              refine ⟨req, _, index, fields, raw, hbody, rfl, ?_⟩
              constructor
              case checked => exact ⟨hpath, hfields, hlimits⟩
              case signed =>
                exact ⟨plaintext, seed, derived.1, derived.2, hvault, hopen, hderive, hsign⟩
              case serialised => exact hraw
              case rawTx => rfl
            · intro error
              exact answers_writeError (by decide) _
          · intro error
            exact answers_writeError (by decide) _
        · intro error
          exact answers_writeError (by decide) _
      · intro error
        exact answers_writeError (by decide) _
    · intro error
      exact answers_writeError (by decide) _
  · exact answers_writeError (by decide) _
  · exact answers_writeError (by decide) _

/-- What is computed is what is promised. -/
theorem TxSigned.answer
    (hdecode : ∀ stx raw, lib.marshalBinary stx = some raw → lib.unmarshalBinary raw = some stx)
    (hattach : ∀ chainId tx signature stx, lib.withSignature chainId tx signature = some stx →
      stx = ⟨tx, signature⟩) {limits : SignerLimits} {req : SignTxRequest}
    {response : SignTxResponse} {index : UInt32} {fields : TxFields} {raw : Bytes}
    (h : TxSigned lib guard limits req response index fields raw) :
    ∃ tx decoded, SignTxAnswer lib guard limits req response index fields tx raw decoded := by
  have hto := (parseTxFields_ok h.checked.parsed).2
  obtain ⟨tx, hcarries, hhash⟩ := exists_buildTxHash lib hto
  obtain ⟨plaintext, seed, address, key, hvault, hopen, hderive, hsign⟩ := h.signed
  obtain ⟨bytes, hsignature⟩ := signTxHash_ok hsign
  have hserialised := h.serialised
  rw [hsignature] at hserialised
  obtain ⟨decoded, hdecoded, hexactly, hattached⟩ :=
    buildSignedTx_ok hdecode hattach hto hserialised
  refine ⟨tx, decoded, ?_⟩
  constructor
  case checked => exact h.checked
  case carries => exact hcarries
  case signed => exact ⟨plaintext, seed, address, key, hvault, hopen, hderive, hhash ▸ hsign⟩
  case rawTx => exact h.rawTx
  case decodes => exact hdecoded
  case exactly => exact hexactly
  case hash => rw [hexactly.eq hcarries, hcarries.chainId]
  case attached => rw [hattached, hsignature]

/-- Every successful answer of `HandleSignHash` is the signature of the checked hash. -/
theorem meets_handleSignHash (limits : SignerLimits) (r : Request SignHashRequest) :
    Meets (signer lib) guard (Answers fun payload => ∃ req response index hash,
      r.body = some req ∧ payload = .signHash response ∧ HashChecked limits req index hash ∧
        SignedWith lib guard req.encryptedSeed req.seedNonce req.encryptedDek index hash
          response.signature)
      (handleSignHash lib limits r) s history := by
  apply meets_withBody
  · intro req hbody
    apply meets_ifOk_ofExcept
    · intro index hpath
      apply meets_ifOk_ofExcept
      · intro hash hhash
        apply meets_ifOk_ofExcept
        · rintro ⟨⟩ henabled
          apply meets_withKey
          intro plaintext seed derived s' history' hvault hopen hderive
          apply meets_ifOk_ofExcept
          · rintro signature hsign response heq hstatus
            cases heq
            obtain ⟨hdecoded, hlength⟩ := parseHash_ok hhash
            refine ⟨req, _, index, hash, hbody, rfl, ?_, ?_⟩
            · exact ⟨hpath, hdecoded, hlength, validateHashSigning_ok henabled⟩
            · exact ⟨plaintext, seed, derived.1, derived.2, hvault, hopen, hderive, hsign⟩
          · intro error
            exact answers_writeError (by decide) _
        · intro error
          exact answers_writeError (by decide) _
      · intro error
        exact answers_writeError (by decide) _
    · intro error
      exact answers_writeError (by decide) _
  · exact answers_writeError (by decide) _
  · exact answers_writeError (by decide) _

end

/-! ### The order of events -/

/-- `HandleSignTx` issues a command only after every check has passed. -/
theorem handleSignTx_all (lib : Libraries) (limits : SignerLimits) (r : Request SignTxRequest) :
    (handleSignTx lib limits r).All fun _ => ∃ req index fields,
      r.body = some req ∧ TxChecked lib limits req index fields := by
  apply withBody_all
  intro req hbody
  apply ifOk_ofExcept_all
  intro index hpath
  apply ifOk_ofExcept_all
  intro fields hfields
  apply ifOk_ofExcept_all
  rintro ⟨⟩ hlimits
  have hchecked : ∃ req index fields, r.body = some req ∧ TxChecked lib limits req index fields :=
    ⟨req, index, fields, hbody, hpath, hfields, hlimits⟩
  exact Prog.All.mono (fun _ _ => hchecked) (Prog.all_true _)

/-- `HandleSignHash` issues a command only after every check has passed. -/
theorem handleSignHash_all (lib : Libraries) (limits : SignerLimits) (r : Request SignHashRequest) :
    (handleSignHash lib limits r).All fun _ => ∃ req index hash,
      r.body = some req ∧ HashChecked limits req index hash := by
  apply withBody_all
  intro req hbody
  apply ifOk_ofExcept_all
  intro index hpath
  apply ifOk_ofExcept_all
  intro hash hhash
  apply ifOk_ofExcept_all
  rintro ⟨⟩ henabled
  obtain ⟨hdecoded, hlength⟩ := parseHash_ok hhash
  have hchecked : ∃ req index hash, r.body = some req ∧ HashChecked limits req index hash :=
    ⟨req, index, hash, hbody, hpath, hdecoded, hlength, validateHashSigning_ok henabled⟩
  exact Prog.All.mono (fun _ _ => hchecked) (Prog.all_true _)

end

/-- **Nothing leaves the signer unvalidated.**  For every library that decodes what it
    encodes and only attaches signatures, every configuration and every request: a
    successful answer of `HandleSignTx` is the signature of the checked fields and the
    transaction with exactly these fields, one of `HandleSignHash` is the signature of
    the checked hash, and neither handler decrypts anything before all checks pass. -/
theorem signing_validated (lib : Libraries)
    (hdecode : ∀ stx raw, lib.marshalBinary stx = some raw → lib.unmarshalBinary raw = some stx)
    (hattach : ∀ chainId tx signature stx, lib.withSignature chainId tx signature = some stx →
      stx = ⟨tx, signature⟩)
    (limits : SignerLimits) :
    (∀ (r : Request SignTxRequest),
      (∀ response s history,
        Completes (signer lib) Guard.any (handleSignTx lib limits r) () [] (.ok response)
          s history → response.status = 200 →
        ∃ req answer index fields tx raw decoded, r.body = some req ∧
          response.payload = .signTx answer ∧
          SignTxAnswer lib Guard.any limits req answer index fields tx raw decoded) ∧
      (handleSignTx lib limits r).All fun command => command.decrypts = true →
        ∃ req index fields, r.body = some req ∧ TxChecked lib limits req index fields) ∧
    ∀ (r : Request SignHashRequest),
      (∀ response s history,
        Completes (signer lib) Guard.any (handleSignHash lib limits r) () [] (.ok response)
          s history → response.status = 200 →
        ∃ req answer index hash, r.body = some req ∧ response.payload = .signHash answer ∧
          HashChecked limits req index hash ∧
          SignedWith lib Guard.any req.encryptedSeed req.seedNonce req.encryptedDek index hash
            answer.signature) ∧
      (handleSignHash lib limits r).All fun command => command.decrypts = true →
        ∃ req index hash, r.body = some req ∧ HashChecked limits req index hash := by
  constructor
  · intro r
    constructor
    · intro response s history hrun hstatus
      obtain ⟨req, answer, index, fields, raw, hbody, hpayload, hsigned⟩ :=
        hrun.meets (meets_handleSignTx limits r) response rfl hstatus
      obtain ⟨tx, decoded, hanswer⟩ := hsigned.answer hdecode hattach
      exact ⟨req, answer, index, fields, tx, raw, decoded, hbody, hpayload, hanswer⟩
    · apply Prog.All.mono _ (handleSignTx_all lib limits r)
      intro _ h _
      exact h
  · intro r
    constructor
    · intro response s history hrun hstatus
      exact hrun.meets (meets_handleSignHash limits r) response rfl hstatus
    · apply Prog.All.mono _ (handleSignHash_all lib limits r)
      intro _ h _
      exact h

theorem sample_decodes (stx : SignedTx) (raw : Bytes)
    (h : Sample.libraries.marshalBinary stx = some raw) :
    Sample.libraries.unmarshalBinary raw = some stx := by
  simp only [Sample.libraries] at h ⊢
  split at h
  · rename_i hstx
    cases h
    rw [if_pos rfl, hstx]
  · cases h

theorem sample_attaches (chainId : Int) (tx : DynamicFeeTx) (signature : Bytes) (stx : SignedTx)
    (h : Sample.libraries.withSignature chainId tx signature = some stx) :
    stx = ⟨tx, signature⟩ := by
  simp only [Sample.libraries] at h
  split at h
  · cases h
    rfl
  · cases h

/-- The request is answered, and the answer is as promised. -/
theorem signing_validated_answered : ∃ answer index fields tx raw decoded,
    SignTxAnswer Sample.libraries Guard.any Sample.limits Sample.signTxRequest answer index fields
      tx raw decoded := by
  obtain ⟨outcome, s, history, hrun, hanswer⟩ := Completes.exists_of_complete
    (signer Sample.libraries) Guard.any
    (handleSignTx Sample.libraries Sample.limits (Sample.post Sample.signTxRequest)) ()
    Sample.decrypts (fun final => final.1 = .ok ⟨200, .signTx Sample.signTxResponse⟩)
    (by decide +kernel)
  have houtcome := of_decide_eq_true hanswer
  dsimp only at houtcome
  subst houtcome
  obtain ⟨req, answer, index, fields, tx, raw, decoded, hbody, _, h⟩ :=
    ((signing_validated Sample.libraries sample_decodes sample_attaches Sample.limits).1
      (Sample.post Sample.signTxRequest)).1 _ s history hrun rfl
  cases hbody
  exact ⟨answer, index, fields, tx, raw, decoded, h⟩

end BrokeTurnkey.Signer
