import BrokeTurnkey.Signer.GoText

/-!
# The libraries the signer calls

Hashing, elliptic curves, key derivation, authenticated encryption and the
transaction type come from packages outside the repository.  They are the fields
of `Libraries`, functions without any law but those of `Common`; a result that relies on
what another package documents says so in a hypothesis.
-/

namespace BrokeTurnkey.Signer

/-- A Go `error`, by its text.  Of an error that is only logged the cause a
    library adds is left out. -/
abbrev GoError := Text

/-- `types.DynamicFeeTx` before it is signed. -/
structure DynamicFeeTx where
  chainId : Int
  nonce : UInt64
  gasTipCap : Int
  gasFeeCap : Int
  gas : UInt64
  toAddr : Option Address
  value : Int
  data : Bytes
deriving DecidableEq

/-- A `types.Transaction` with a signature attached. -/
structure SignedTx where
  tx : DynamicFeeTx
  signature : Bytes
deriving DecidableEq

structure Libraries where
  /-- a secp256k1 private key -/
  PrivateKey : Type
  /-- a BIP32 key with its chain code -/
  ExtendedKey : Type
  common : Common
  keccak256 : Bytes → Bytes
  toECDSA : Bytes → Option PrivateKey
  pubkeyToAddress : PrivateKey → Address
  sign : Bytes → PrivateKey → Option Bytes
  /-- `types.NewLondonSigner(chainId).Hash(tx)` -/
  londonHash : Int → DynamicFeeTx → Bytes
  /-- `tx.WithSignature(types.NewLondonSigner(chainId), sig)` -/
  withSignature : Int → DynamicFeeTx → Bytes → Option SignedTx
  marshalBinary : SignedTx → Option Bytes
  unmarshalBinary : Bytes → Option SignedTx
  newMnemonic : Bytes → Option Text
  isMnemonicValid : Text → Bool
  newSeed : Text → Option Bytes
  newMasterKey : Bytes → Option ExtendedKey
  newChildKey : ExtendedKey → UInt32 → Option ExtendedKey
  keyBytes : ExtendedKey → Bytes
  /-- AES-256-GCM, with the key and nonce first -/
  gcmSeal : Bytes → Bytes → Bytes → Bytes
  gcmOpen : Bytes → Bytes → Bytes → Option Bytes
  /-- `strconv.Quote` -/
  quote : Text → Text

/-- `x, err := f()` of a library, with the text the caller wraps the error in. -/
def orError {α : Type} (message : Text) : Option α → Except GoError α
  | some value => .ok value
  | none => .error message

@[simp] theorem orError_eq_ok {α : Type} {message : Text} {x : Option α} {value : α} :
    orError message x = .ok value ↔ x = some value := by
  cases x with
  | none => simp [orError]
  | some other => simp [orError]

/-! ### Functions that return an error -/

section

variable {ε α β : Type}

@[simp] theorem bind_eq_ok {x : Except ε α} {f : α → Except ε β} {result : β} :
    (x >>= f) = .ok result ↔ ∃ value, x = .ok value ∧ f value = .ok result := by
  cases x with
  | ok value => simp [Bind.bind, Except.bind]
  | error error => simp [Bind.bind, Except.bind]

@[simp] theorem pure_eq_ok {value result : α} :
    (pure value : Except ε α) = .ok result ↔ value = result := by
  simp [pure, Except.pure]

/-- A loop that collects results collects those of its elements. -/
theorem mem_of_mapM_eq_ok {f : α → Except ε β} {l : List α} : ∀ {results : List β},
    l.mapM f = .ok results → ∀ result, result ∈ results ↔ ∃ x ∈ l, f x = .ok result := by
  induction l with
  | nil =>
    intro results h result
    rw [List.mapM_nil, pure_eq_ok] at h
    simp [← h]
  | cons x rest ih =>
    intro results h result
    simp only [List.mapM_cons, bind_eq_ok, pure_eq_ok] at h
    obtain ⟨first, hfirst, others, hothers, rfl⟩ := h
    have hx : f x = .ok result ↔ result = first := by
      rw [hfirst, Except.ok.injEq, eq_comm]
    simp only [List.mem_cons, ih hothers result, exists_eq_or_imp, hx]

theorem exists_of_mapM_eq_ok {f : α → Except ε β} {l : List α} : ∀ {results : List β},
    l.mapM f = .ok results → ∀ x ∈ l, ∃ result, f x = .ok result := by
  induction l with
  | nil => intro results _ x hx; cases hx
  | cons first rest ih =>
    intro results h x hx
    simp only [List.mapM_cons, bind_eq_ok, pure_eq_ok] at h
    obtain ⟨result, hfirst, others, hothers, rfl⟩ := h
    rcases List.mem_cons.mp hx with rfl | hx
    · exact ⟨result, hfirst⟩
    · exact ih hothers x hx

theorem eq_nil_of_mapM_eq_ok {f : α → Except ε β} {l : List α} {results : List β}
    (h : l.mapM f = .ok results) : results = [] ↔ l = [] := by
  cases l with
  | nil =>
    rw [List.mapM_nil, pure_eq_ok] at h
    simp [← h]
  | cons x rest =>
    simp only [List.mapM_cons, bind_eq_ok, pure_eq_ok] at h
    obtain ⟨first, _, others, _, rfl⟩ := h
    simp

end

end BrokeTurnkey.Signer
