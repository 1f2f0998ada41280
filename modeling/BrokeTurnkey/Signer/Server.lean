import BrokeTurnkey.Interaction.Given
import BrokeTurnkey.Signer.ValidatedSigning
import BrokeTurnkey.Signer.Wire

/-!
# The signer as a server

`cmd/crypto/main.go`: the routes, and the shared token that every route but the health
check asks for.  For the server to touch key material a request has to present the token,
be a POST to one of the routes, and pass every check of the handler behind it; and however
many requests are served at a time, a seed is only opened with the key that Vault returned
for the ciphertext of the same request.
-/

namespace BrokeTurnkey.Signer

open Interaction Text

/-! ### Routes -/

/-- A request as the mux sees it, with a clean path; the body is `none` if it is too large
    or no JSON, the token empty if the header `X-Crypto-Token` is missing. -/
structure ServerRequest where
  method : Text
  path : Text
  token : Text
  body : Option Json

/-- What is written; the health check and the fallback write plain text. -/
inductive Written where
  | text (status : Nat) (body : Text)
  | json (response : Response)
deriving DecidableEq

def requireAuth (authToken : Text) (r : ServerRequest) (next : Go Response) : Go Response :=
  if r.token ≠ authToken then .ret (writeError 401 "unauthorized".toList) else next

section

variable (lib : Libraries) (limits : SignerLimits)

/-- The handler a path is registered with behind `requireAuth`. -/
def route (r : ServerRequest) : Option (Go Response) :=
  if r.path = "/wallet/create".toList then
    some (handleCreateWallet lib ⟨r.method, r.body.map fun _ => ()⟩)
  else if r.path = "/wallet/derive".toList then
    some (handleDeriveWallet lib
      ⟨r.method, decodeJSON DeriveWalletRequest.decode .zero r.body⟩)
  -- the second path is an alias
  else if r.path = "/wallet/sign-transaction".toList ∨ r.path = "/wallet/sign".toList then
    some (handleSignTx lib limits ⟨r.method, decodeJSON SignTxRequest.decode .zero r.body⟩)
  else if r.path = "/wallet/sign-hash".toList then
    some (handleSignHash lib limits ⟨r.method, decodeJSON SignHashRequest.decode .zero r.body⟩)
  else none

def notFound : Written := .text 404 "\x7b\"error\":\"route not found\"\x7d\n".toList

def serveHTTP (authToken : Text) (r : ServerRequest) : Go Written :=
  if r.path = "/health".toList then .ret (.text 200 "OK\n".toList)
  else match route lib limits r with
    | some handler => .json <$> requireAuth authToken r handler
    | none => .ret notFound

end

/-! ### What a request is entitled to -/

section

variable (Fact : (command : KeyCmd) → Except GoError command.Reply → Prop)

/-- A step of making a wallet: fresh bytes, or the sealing of a key that was drawn for it. -/
def KeyCmd.Makes : KeyCmd → Prop
  | .random _ => True
  | .transitEncrypt plaintext =>
    ∃ dek : Bytes, Fact (.random 32) (.ok dek) ∧ plaintext = Base64.encodeToString dek
  | _ => False

/-- A step of opening these ciphertexts, with the key that Vault returned for them. -/
def KeyCmd.Opens (encSeedB64 nonceB64 encDek : Text) : KeyCmd → Prop
  | .transitDecrypt ciphertext => ciphertext = encDek
  | .gcmOpen dek nonce encryptedSeed =>
    Base64.decodeString nonceB64 = some nonce ∧
    Base64.decodeString encSeedB64 = some encryptedSeed ∧
      ∃ plaintext : Text, Fact (.transitDecrypt encDek) (.ok plaintext) ∧
        Base64.decodeString plaintext = some dek
  | _ => False

/-- The request presents the token and posts to the path. -/
structure ServerRequest.Posts (authToken : Text) (path : String) (r : ServerRequest) : Prop where
  token : r.token = authToken
  method : r.method = "POST".toList
  path : r.path = path.toList

/-- The grounds on which the signer draws, seals or opens something for a request. -/
inductive Entitled (lib : Libraries) (limits : SignerLimits) (authToken : Text)
    (r : ServerRequest) : KeyCmd → Prop where
  | create {command : KeyCmd} : r.Posts authToken "/wallet/create" → r.body.isSome = true →
      command.Makes Fact → Entitled lib limits authToken r command
  | derive {req : DeriveWalletRequest} {command : KeyCmd} : r.Posts authToken "/wallet/derive" →
      decodeJSON DeriveWalletRequest.decode .zero r.body = some req →
      command.Opens Fact req.encryptedSeed req.seedNonce req.encryptedDek →
      Entitled lib limits authToken r command
  | signTx {req : SignTxRequest} {index : UInt32} {fields : TxFields} {command : KeyCmd} :
      r.Posts authToken "/wallet/sign-transaction" ∨ r.Posts authToken "/wallet/sign" →
      decodeJSON SignTxRequest.decode .zero r.body = some req →
      TxChecked lib limits req index fields →
      command.Opens Fact req.encryptedSeed req.seedNonce req.encryptedDek →
      Entitled lib limits authToken r command
  | signHash {req : SignHashRequest} {index : UInt32} {hash : Bytes} {command : KeyCmd} :
      r.Posts authToken "/wallet/sign-hash" →
      decodeJSON SignHashRequest.decode .zero r.body = some req →
      HashChecked limits req index hash →
      command.Opens Fact req.encryptedSeed req.seedNonce req.encryptedDek →
      Entitled lib limits authToken r command

end

/-! ### The handlers -/

section

variable {Fact : (command : KeyCmd) → Except GoError command.Reply → Prop} {P : KeyCmd → Prop}
  {α : Type}

theorem ofExcept_given (x : Except GoError α) :
    (Go.ofExcept x).Given Fact P fun outcome => outcome = x := by
  cases x with
  | ok value => exact rfl
  | error error => exact rfl

theorem ifOk_given {Q : Except GoError α → Prop} {p : Go α} {onError : GoError → Response}
    {next : α → Go Response} (hp : p.Given Fact P Q)
    (hnext : ∀ value, Q (.ok value) → (next value).Given Fact P fun _ => True) :
    (ifOk p onError next).Given Fact P fun _ => True := by
  refine Prog.Given.andThen hp fun outcome h => ?_
  cases outcome with
  | ok value => exact hnext value h
  | error error => trivial

theorem ifOk_ofExcept_given {x : Except GoError α} {onError : GoError → Response}
    {next : α → Go Response}
    (hnext : ∀ value, x = .ok value → (next value).Given Fact P fun _ => True) :
    (ifOk (Go.ofExcept x) onError next).Given Fact P fun _ => True :=
  ifOk_given (ofExcept_given x) fun value h => hnext value h.symm

theorem withBody_given {r : Request α} {next : α → Go Response}
    (hnext : ∀ req, r.method = "POST".toList → r.body = some req →
      (next req).Given Fact P fun _ => True) :
    (withBody r next).Given Fact P fun _ => True := by
  unfold withBody
  split
  · trivial
  · rename_i hmethod
    split
    · trivial
    · rename_i req hbody
      exact hnext req (not_not.mp hmethod) hbody

/-- A key is what Vault returned for the ciphertext. -/
theorem decryptDEK_given {encDek : Text} (h : P (.transitDecrypt encDek)) :
    (decryptDEK encDek).Given Fact P fun outcome => ∀ dek, outcome = .ok dek →
      ∃ plaintext : Text, Fact (.transitDecrypt encDek) (.ok plaintext) ∧
        Base64.decodeString plaintext = some dek := by
  refine Prog.Given.bind (Prog.Given.perform h fun _ hfact => hfact) ?_ ?_
  · intro plaintext hplaintext
    split
    · rintro dek ⟨⟩
    · refine Prog.Given.mono (ofExcept_given _) (fun _ hcommand => hcommand) ?_
      rintro outcome rfl dek hdek
      exact ⟨plaintext, hplaintext, orError_eq_ok.mp hdek⟩
  · rintro error _ dek ⟨⟩

/-- A seed is opened with it. -/
theorem decryptOrgSeed_given {encSeedB64 nonceB64 encDek : Text}
    (h : ∀ command : KeyCmd, command.Opens Fact encSeedB64 nonceB64 encDek → P command) :
    (decryptOrgSeed encSeedB64 nonceB64 encDek).Given Fact P fun _ => True := by
  refine Prog.Given.bind (decryptDEK_given (h _ rfl)) (fun dek hdek => ?_) fun _ _ => trivial
  refine Prog.Given.bind (ofExcept_given _) (fun encSeedBytes hseed => ?_) fun _ _ => trivial
  refine Prog.Given.bind (ofExcept_given _) (fun nonceBytes hnonce => ?_) fun _ _ => trivial
  unfold decryptSeed
  split
  · trivial
  · split
    · trivial
    · have hopens := h (.gcmOpen dek nonceBytes encSeedBytes)
        ⟨orError_eq_ok.mp hnonce.symm, orError_eq_ok.mp hseed.symm, hdek dek rfl⟩
      exact Prog.Given.perform hopens fun _ _ => trivial

/-- Open the seed and derive the key, then go on without leaving the process. -/
theorem withKey_given {lib : Libraries} {encSeedB64 nonceB64 encDek : Text} {index : UInt32}
    {next : Text × Bytes → Go Response}
    (h : ∀ command : KeyCmd, command.Opens Fact encSeedB64 nonceB64 encDek → P command)
    (hnext : ∀ derived, (next derived).Given Fact P fun _ => True) :
    (ifOk (decryptOrgSeed encSeedB64 nonceB64 encDek)
      (fun _ => writeError 500 "decryption error".toList) fun seed =>
      ifOk (Go.ofExcept (deriveAddress lib seed index))
        (fun _ => writeError 500 "internal derivation error".toList) next).Given Fact P
      fun _ => True :=
  ifOk_given (decryptOrgSeed_given h) fun _ _ => ifOk_ofExcept_given fun derived _ => hnext derived

end

section

variable {Fact : (command : KeyCmd) → Except GoError command.Reply → Prop} {lib : Libraries}
  {limits : SignerLimits} {authToken : Text} {r : ServerRequest}

/-- A wallet is made of what was drawn for it. -/
theorem handleCreateWallet_entitled (htoken : r.token = authToken)
    (hpath : r.path = "/wallet/create".toList) :
    (handleCreateWallet lib ⟨r.method, r.body.map fun _ => ()⟩).Given Fact
      (Entitled Fact lib limits authToken r) fun _ => True := by
  apply withBody_given
  intro _ hmethod hbody
  have hsome : r.body.isSome = true := by
    have h := congrArg Option.isSome hbody
    rwa [Option.isSome_map] at h
  have hmakes : ∀ command : KeyCmd, command.Makes Fact →
      Entitled Fact lib limits authToken r command :=
    fun _ => .create ⟨htoken, hmethod, hpath⟩ hsome
  have hrandom : ∀ count, Entitled Fact lib limits authToken r (.random count) :=
    fun count => hmakes _ trivial
  refine ifOk_given (Q := fun _ => True) ?_ fun mnemonic _ => ?_
  · refine Prog.Given.bind (Prog.Given.perform (hrandom 32) fun _ h => h) ?_ fun _ _ => trivial
    intro entropy _
    exact (ofExcept_given _).mono (fun _ h => h) fun _ _ => trivial
  · apply ifOk_ofExcept_given
    intro seed _
    refine ifOk_given (Prog.Given.perform (hrandom 32) fun _ h => h) fun dek hdek => ?_
    refine ifOk_given (Q := fun _ => True) ?_ fun encrypted _ => ?_
    · unfold encryptSeed
      split
      · trivial
      · exact .of_all (Prog.All.bind (Prog.All.perform (hrandom 12)) fun _ => trivial)
    · refine ifOk_given (Q := fun _ => True) ?_ fun encDekStr _ => ?_
      · have hseal := hmakes (.transitEncrypt (Base64.encodeToString dek)) ⟨dek, hdek, rfl⟩
        refine .of_all (Prog.All.bind (Prog.All.perform hseal) fun ciphertext => ?_)
        split
        · trivial
        · trivial
      · exact ifOk_ofExcept_given fun _ _ => trivial

theorem handleDeriveWallet_entitled (htoken : r.token = authToken)
    (hpath : r.path = "/wallet/derive".toList) :
    (handleDeriveWallet lib ⟨r.method, decodeJSON DeriveWalletRequest.decode .zero r.body⟩).Given
      Fact (Entitled Fact lib limits authToken r) fun _ => True := by
  apply withBody_given
  intro req hmethod hbody
  exact withKey_given (fun _ => .derive ⟨htoken, hmethod, hpath⟩ hbody) fun _ => trivial

theorem handleSignTx_entitled (htoken : r.token = authToken)
    (hpath : r.path = "/wallet/sign-transaction".toList ∨ r.path = "/wallet/sign".toList) :
    (handleSignTx lib limits ⟨r.method, decodeJSON SignTxRequest.decode .zero r.body⟩).Given Fact
      (Entitled Fact lib limits authToken r) fun _ => True := by
  apply withBody_given
  intro req hmethod hbody
  apply ifOk_ofExcept_given
  intro index hindex
  apply ifOk_ofExcept_given
  intro fields hfields
  apply ifOk_ofExcept_given
  rintro ⟨⟩ hlimits
  have hposts : r.Posts authToken "/wallet/sign-transaction" ∨ r.Posts authToken "/wallet/sign" :=
    hpath.imp (fun h => ⟨htoken, hmethod, h⟩) fun h => ⟨htoken, hmethod, h⟩
  refine withKey_given (fun _ => .signTx hposts hbody ⟨hindex, hfields, hlimits⟩) fun derived => ?_
  exact ifOk_ofExcept_given fun _ _ => ifOk_ofExcept_given fun _ _ => trivial

theorem handleSignHash_entitled (htoken : r.token = authToken)
    (hpath : r.path = "/wallet/sign-hash".toList) :
    (handleSignHash lib limits ⟨r.method, decodeJSON SignHashRequest.decode .zero r.body⟩).Given
      Fact (Entitled Fact lib limits authToken r) fun _ => True := by
  apply withBody_given
  intro req hmethod hbody
  apply ifOk_ofExcept_given
  intro index hindex
  apply ifOk_ofExcept_given
  intro hash hhash
  apply ifOk_ofExcept_given
  rintro ⟨⟩ henabled
  obtain ⟨hdecoded, hlength⟩ := parseHash_ok hhash
  refine withKey_given (fun _ => .signHash ⟨htoken, hmethod, hpath⟩ hbody
    ⟨hindex, hdecoded, hlength, validateHashSigning_ok henabled⟩) fun derived => ?_
  exact ifOk_ofExcept_given fun _ _ => trivial

/-- A handler does only what its request is entitled to. -/
theorem route_entitled (htoken : r.token = authToken) {handler : Go Response}
    (hroute : route lib limits r = some handler) :
    handler.Given Fact (Entitled Fact lib limits authToken r) fun _ => True := by
  unfold route at hroute
  split at hroute
  · rename_i hpath
    cases hroute
    exact handleCreateWallet_entitled htoken hpath
  · split at hroute
    · rename_i hpath
      cases hroute
      exact handleDeriveWallet_entitled htoken hpath
    · split at hroute
      · rename_i hpath
        cases hroute
        exact handleSignTx_entitled htoken hpath
      · split at hroute
        · rename_i hpath
          cases hroute
          exact handleSignHash_entitled htoken hpath
        · cases hroute

theorem serveHTTP_entitled :
    (serveHTTP lib limits authToken r).Given Fact (Entitled Fact lib limits authToken r)
      fun _ => True := by
  unfold serveHTTP
  split
  · trivial
  · split
    · rename_i handler hroute
      refine Prog.Given.bind (Q := fun _ => True) ?_ (fun _ _ => trivial) fun _ _ => trivial
      unfold requireAuth
      split
      · trivial
      · rename_i htoken
        exact route_entitled (not_not.mp htoken) hroute
    · trivial

end

/-! ### Every run -/

/-- The server at work: requests are served together and share nothing. -/
def server (lib : Libraries) : System KeyCmd KeyCmd.Reply GoError Written Unit KeyChoice Empty where
  exec := (signer lib).exec
  spawns := fun _ => []
  env := fun event _ => nomatch event

abbrev ServerPool := Pool KeyCmd KeyCmd.Reply GoError Written Unit KeyChoice

/-- The requests that are served together. -/
def serverPool (lib : Libraries) (limits : SignerLimits) (authToken : Text)
    (requests : List ServerRequest) : ServerPool where
  state := ()
  threads := requests.map (serveHTTP lib limits authToken)
  history := []

/-- What is answered where the token is missing or wrong. -/
def refusal (lib : Libraries) (limits : SignerLimits) (r : ServerRequest) : Written :=
  if r.path = "/health".toList then .text 200 "OK\n".toList
  else if (route lib limits r).isSome then .json (writeError 401 "unauthorized".toList)
  else notFound

theorem serveHTTP_refuses {lib : Libraries} {limits : SignerLimits} {authToken : Text}
    {r : ServerRequest} (htoken : r.token ≠ authToken) :
    serveHTTP lib limits authToken r = .ret (refusal lib limits r) := by
  unfold serveHTTP refusal
  split
  · rfl
  · cases hroute : route lib limits r with
    | none => simp
    | some handler =>
      simp only [requireAuth, if_pos htoken, Option.isSome_some, if_true]
      rfl

/-- **Complete mediation at the signer.**  Whatever requests are served together and
    however their steps interleave, each step that touches key material is one its request
    is entitled to, on what this very request was answered; and a request without the
    token is refused at once. -/
theorem signer_mediates {lib : Libraries} {limits : SignerLimits} {authToken : Text}
    {requests : List ServerRequest} {p : ServerPool}
    (hreach : Reach (server lib) .any (serverPool lib limits authToken requests) p) :
    (∀ entry ∈ p.history, ∃ r, requests[entry.thread]? = some r ∧
      Entitled
        (Answered (server lib) .any (serverPool lib limits authToken requests) p entry.thread)
        lib limits authToken r entry.command) ∧
      ∀ (i : Nat) (r : ServerRequest), requests[i]? = some r → r.token ≠ authToken →
        p.threads[i]? = some (.ret (refusal lib limits r)) := by
  have hthread : ∀ (i : Nat) (r : ServerRequest), requests[i]? = some r →
      (serverPool lib limits authToken requests).threads[i]? =
        some (serveHTTP lib limits authToken r) := by
    intro i r hr
    simp [serverPool, hr]
  constructor
  · intro entry hentry
    rcases (Reach.origin rfl hreach).1 entry hentry with hfirst | ⟨_, _, _, hspawned, _⟩
    · have hlt : entry.thread < requests.length := by simpa [serverPool] using hfirst
      have hr := List.getElem?_eq_getElem hlt
      refine ⟨_, hr, ?_⟩
      exact (Reach.given rfl hreach (hthread _ _ hr) serveHTTP_entitled).1 entry hentry rfl
    · cases hspawned
  · intro i r hr htoken
    have hstart := hthread i r hr
    rw [serveHTTP_refuses htoken] at hstart
    exact hreach.returned rfl hstart

namespace Sample

/-- The body of the sample request. -/
def signTxBody : Json :=
  .obj [
    ("encryptedSeed".toList, .str signTxRequest.encryptedSeed),
    ("seedNonce".toList, .str signTxRequest.seedNonce),
    ("encryptedDek".toList, .str signTxRequest.encryptedDek),
    ("derivationPath".toList, .str signTxRequest.derivationPath),
    ("txFields".toList, .obj [
      ("chainId".toList, .num 1),
      ("nonce".toList, .num 7),
      ("to".toList, .str txFieldsJSON.toAddr),
      ("value".toList, .str txFieldsJSON.value),
      ("gasLimit".toList, .num 50000),
      ("maxFeePerGas".toList, .str txFieldsJSON.maxFeePerGas),
      ("maxPriorityFeePerGas".toList, .str txFieldsJSON.maxPriorityFeePerGas),
      ("data".toList, .str txFieldsJSON.data)])]

/-- The request as the API posts it, with a token. -/
def served (token : Text) : ServerRequest where
  method := "POST".toList
  path := "/wallet/sign-transaction".toList
  token
  body := some signTxBody

end Sample

open Sample in
/-- Of two requests only the one with the token is served, and it opens a seed. -/
theorem signer_mediates_served : ∃ p,
    Reach (server libraries) .any
      (serverPool libraries limits "token".toList [served [], served "token".toList]) p ∧
    (∃ entry ∈ p.history, entry.command.decrypts = true ∧
      Entitled (Answered (server libraries) .any
        (serverPool libraries limits "token".toList [served [], served "token".toList]) p
        entry.thread) libraries limits "token".toList (served "token".toList) entry.command) ∧
    p.threads[0]? = some (.ret (.json (writeError 401 "unauthorized".toList))) := by
  obtain ⟨p, hreach, hp⟩ := Reach.exists_of_run (server libraries) .any
    (serverPool libraries limits "token".toList [served [], served "token".toList])
    (decrypts.map (Move.thread 1))
    (fun p => p.history.any fun entry => entry.thread = 1 ∧ entry.command.decrypts = true)
    (by decide +kernel)
  obtain ⟨entry, hentry, hboth⟩ := List.any_eq_true.mp hp
  obtain ⟨hthread, hdecrypts⟩ := of_decide_eq_true hboth
  obtain ⟨hentitled, hrefused⟩ := signer_mediates hreach
  obtain ⟨r, hr, h⟩ := hentitled entry hentry
  rw [hthread] at hr
  cases hr
  exact ⟨p, hreach, ⟨entry, hentry, hdecrypts, h⟩, hrefused 0 _ rfl (by decide)⟩

end BrokeTurnkey.Signer
