import BrokeTurnkey.Api.Commands
import BrokeTurnkey.CryptoClient
import BrokeTurnkey.WalletAddresses

/-!
# The API and the signer together

The API knows the signer by what its client reads, and the signer knows the API by what
it is posted.  Here the two are joined: an answer of the signer is what some run of its
server writes for the request the client posts, under a Vault that decrypts what it
encrypted.  What the calls of the API were shown to keep under an honest signer they keep
under the signer as it is, and what it signs are the very fields they sent.
-/

namespace BrokeTurnkey

open Interaction Signer CryptoClientService

/-- The deployment of the signer, and the two ends of the connection to it. -/
structure Sidecar where
  lib : Libraries
  limits : SignerLimits
  /-- what Vault decrypts a ciphertext to -/
  transit : Text → Option Text
  /-- the token the server asks for -/
  serverToken : Text
  /-- the token the client sends -/
  clientToken : Text
  /-- `JSON.stringify`, in UTF-8 -/
  stringify : Json → Bytes
  /-- `json.NewEncoder` -/
  render : Payload → Text

/-! ### Statuses -/

section

variable {lib : Libraries} {guard : Guard KeyCmd KeyChoice Empty Unit} {s : Unit}
  {history : List KeyEntry} {status : Nat} {limits : SignerLimits}

/-- A response the client takes for a success has this status. -/
def SucceedsWith (status : Nat) (outcome : Except GoError Signer.Response) (_ : Unit)
    (_ : List KeyEntry) : Prop :=
  ∀ response, outcome = .ok response → isOk response.status = true → response.status = status

theorem succeedsWith_failure {response : Signer.Response} (h : isOk response.status = false) :
    SucceedsWith status (.ok response) s history := by
  rintro _ ⟨⟩ hok
  rw [h] at hok
  cases hok

theorem succeedsWith_ifOk {α : Type} {p : Go α} {onError : GoError → Signer.Response}
    {next : α → Go Signer.Response} (herror : ∀ error, isOk (onError error).status = false)
    (hnext : ∀ value s' history',
      Meets (signer lib) guard (SucceedsWith status) (next value) s' history') :
    Meets (signer lib) guard (SucceedsWith status) (ifOk p onError next) s history :=
  meets_ifOk (meets_true p) (fun value s' history' _ => hnext value s' history')
    fun error _ _ _ => succeedsWith_failure (herror error)

theorem succeedsWith_withBody {α : Type} {r : Request α} {next : α → Go Signer.Response}
    (hnext : ∀ req, Meets (signer lib) guard (SucceedsWith status) (next req) s history) :
    Meets (signer lib) guard (SucceedsWith status) (withBody r next) s history :=
  meets_withBody (fun req _ => hnext req) (succeedsWith_failure rfl) (succeedsWith_failure rfl)

theorem succeedsWith_ret (payload : Payload) :
    Meets (signer lib) guard (SucceedsWith status) (.ret ⟨status, payload⟩) s history := by
  rintro _ ⟨⟩ _
  rfl

theorem handleCreateWallet_status (r : Request Unit) :
    Meets (signer lib) guard (SucceedsWith 201) (handleCreateWallet lib r) s history := by
  refine succeedsWith_withBody fun _ => ?_
  refine succeedsWith_ifOk (fun _ => rfl) fun mnemonic _ _ => ?_
  refine succeedsWith_ifOk (fun _ => rfl) fun seed _ _ => ?_
  refine succeedsWith_ifOk (fun _ => rfl) fun dek _ _ => ?_
  refine succeedsWith_ifOk (fun _ => rfl) fun encrypted _ _ => ?_
  refine succeedsWith_ifOk (fun _ => rfl) fun encDekStr _ _ => ?_
  exact succeedsWith_ifOk (fun _ => rfl) fun first _ _ => succeedsWith_ret _

theorem handleDeriveWallet_status (r : Request DeriveWalletRequest) :
    Meets (signer lib) guard (SucceedsWith 200) (handleDeriveWallet lib r) s history := by
  refine succeedsWith_withBody fun req => ?_
  refine succeedsWith_ifOk (fun _ => rfl) fun seed _ _ => ?_
  exact succeedsWith_ifOk (fun _ => rfl) fun derived _ _ => succeedsWith_ret _

theorem handleSignTx_status (r : Request SignTxRequest) :
    Meets (signer lib) guard (SucceedsWith 200) (handleSignTx lib limits r) s history := by
  refine succeedsWith_withBody fun req => ?_
  refine succeedsWith_ifOk (fun _ => rfl) fun index _ _ => ?_
  refine succeedsWith_ifOk (fun _ => rfl) fun txFields _ _ => ?_
  refine succeedsWith_ifOk (fun _ => rfl) fun _ _ _ => ?_
  refine succeedsWith_ifOk (fun _ => rfl) fun seed _ _ => ?_
  refine succeedsWith_ifOk (fun _ => rfl) fun derived _ _ => ?_
  refine succeedsWith_ifOk (fun _ => rfl) fun signature _ _ => ?_
  exact succeedsWith_ifOk (fun _ => rfl) fun rawTxBytes _ _ => succeedsWith_ret _

theorem handleSignHash_status (r : Request SignHashRequest) :
    Meets (signer lib) guard (SucceedsWith 200) (handleSignHash lib limits r) s history := by
  refine succeedsWith_withBody fun req => ?_
  refine succeedsWith_ifOk (fun _ => rfl) fun index _ _ => ?_
  refine succeedsWith_ifOk (fun _ => rfl) fun hashBytes _ _ => ?_
  refine succeedsWith_ifOk (fun _ => rfl) fun _ _ _ => ?_
  refine succeedsWith_ifOk (fun _ => rfl) fun seed _ _ => ?_
  refine succeedsWith_ifOk (fun _ => rfl) fun derived _ _ => ?_
  exact succeedsWith_ifOk (fun _ => rfl) fun signature _ _ => succeedsWith_ret _

end

/-! ### What the client reads -/

namespace Sidecar

/-- The request the client posts. -/
def posted (sc : Sidecar) (path : String) (body : List (Text × Json)) : ServerRequest :=
  request sc.stringify sc.clientToken path body

/-- Some run of the server answers the client's request so that it reads this payload. -/
def Answers (sc : Sidecar) (path : String) (body : List (Text × Json)) (payload : Payload) :
    Prop :=
  ∃ written s history,
    Completes (signer sc.lib) (honestVault sc.transit)
      (serveHTTP sc.lib sc.limits sc.serverToken (sc.posted path body)) () [] (.ok written) s
      history ∧
    CryptoClientService.read sc.render path written = .ok payload

section

variable {sc : Sidecar} {path : String} {body : List (Text × Json)} {payload : Payload}

theorem of_read {render : Payload → Text} {written : Written}
    (h : CryptoClientService.read render path written = .ok payload) :
    ∃ response, written = .json response ∧ isOk response.status = true ∧
      response.payload = payload := by
  cases written with
  | text status body => cases h
  | json response =>
    simp only [CryptoClientService.read] at h
    split at h
    · rename_i hok
      cases h
      exact ⟨response, rfl, hok, rfl⟩
    · cases h

/-- What the client reads is what the handler behind the route answered. -/
theorem Answers.handled (h : sc.Answers path body payload) {handler : Go Signer.Response}
    (hhealth : path.toList ≠ "/health".toList)
    (hroute : route sc.lib sc.limits (sc.posted path body) = some handler) {status : Nat}
    (hstatus : Meets (signer sc.lib) (honestVault sc.transit) (SucceedsWith status) handler () []) :
    ∃ s history, Completes (signer sc.lib) (honestVault sc.transit) handler () []
      (.ok ⟨status, payload⟩) s history := by
  obtain ⟨written, s, history, hrun, hread⟩ := h
  obtain ⟨response, rfl, hok, rfl⟩ := of_read hread
  have hpath : (sc.posted path body).path ≠ "/health".toList := hhealth
  rw [serveHTTP, if_neg hpath, hroute] at hrun
  obtain ⟨answer, heq, hrun⟩ := hrun.of_map
  cases heq
  rw [requireAuth] at hrun
  split at hrun
  · cases hrun
    cases hok
  · have hsuccess : response.status = status := hrun.meets hstatus response rfl hok
    subst hsuccess
    exact ⟨s, history, hrun⟩

/-- A body that is not too large arrives as it was sent. -/
theorem posted_body {α : Type} {decode : Decode α} {zero value : α}
    (h : decodeJSON decode zero (sc.posted path body).body = some value) :
    decode zero (.obj body) = some value := by
  simp only [posted, request, decodeJSON] at h
  split at h
  · cases h
  · exact h

/-- An answer that a wallet was created is an answer of `HandleCreateWallet`. -/
theorem Answers.created {response : CreateWalletResponse}
    (h : sc.Answers "/wallet/create" createWalletBody (.createWallet response)) :
    ∃ r s history, Completes (signer sc.lib) (honestVault sc.transit) (handleCreateWallet sc.lib r)
      () [] (.ok ⟨201, .createWallet response⟩) s history :=
  ⟨_, h.handled (by decide) (if_pos rfl) (handleCreateWallet_status _)⟩

/-- An answer that a wallet was derived is one to the request as it was sent. -/
theorem Answers.derived {encryptedSeed seedNonce encryptedDek : Text} {derivIndex : Nat}
    {response : DeriveWalletResponse}
    (h : sc.Answers "/wallet/derive"
      (deriveWalletBody encryptedSeed seedNonce encryptedDek derivIndex) (.deriveWallet response)) :
    ∃ s history, Completes (signer sc.lib) (honestVault sc.transit)
      (handleDeriveWallet sc.lib (deriveRequest encryptedSeed seedNonce encryptedDek derivIndex))
      () [] (.ok ⟨200, .deriveWallet response⟩) s history := by
  obtain ⟨s, history, hrun⟩ := h.handled (by decide) rfl (handleDeriveWallet_status _)
  obtain ⟨req, hbody, _⟩ := hrun.meets (meets_handleDeriveWallet sc.transit _) response rfl
  have hsent := posted_body hbody
  rw [decode_deriveWallet] at hsent
  refine ⟨s, history, ?_⟩
  have hrequest : deriveRequest encryptedSeed seedNonce encryptedDek derivIndex =
      ⟨"POST".toList, some req⟩ := by
    rw [← hsent]
    rfl
  rw [hrequest, ← hbody]
  exact hrun

/-- What is signed are the fields that were sent. -/
theorem Answers.signedTx {key : KeyMaterial} {fields : BrokeTurnkey.TxFields}
    {answer : SignTxResponse}
    (h : sc.Answers "/wallet/sign-transaction" (signTransactionBody key fields) (.signTx answer)) :
    ∃ jsonTx index parsed raw, Encodes fields jsonTx ∧
      TxSigned sc.lib (honestVault sc.transit) sc.limits
        ⟨key.encryptedSeed, key.seedNonce, key.encryptedDek, key.derivationPath, jsonTx⟩ answer
        index parsed raw := by
  obtain ⟨s, history, hrun⟩ := h.handled (by decide) rfl (handleSignTx_status _)
  obtain ⟨req, response, index, parsed, raw, hbody, hpayload, hsigned⟩ :=
    hrun.meets (meets_handleSignTx sc.limits _) _ rfl rfl
  cases hpayload
  have hsent := posted_body hbody
  rw [decode_signTransaction, Option.bind_eq_some_iff] at hsent
  obtain ⟨jsonTx, hdecoded, heq⟩ := hsent
  cases heq
  exact ⟨jsonTx, index, parsed, raw, decode_txFields.mp hdecoded, hsigned⟩

/-- What is signed is the hash that was sent. -/
theorem Answers.signedHash {key : KeyMaterial} {hashHex : Text} {answer : SignHashResponse}
    (h : sc.Answers "/wallet/sign-hash" (signHashBody key hashHex) (.signHash answer)) :
    ∃ index hash, HashChecked sc.limits
        ⟨key.encryptedSeed, key.seedNonce, key.encryptedDek, key.derivationPath, hashHex⟩ index
        hash ∧
      SignedWith sc.lib (honestVault sc.transit) key.encryptedSeed key.seedNonce key.encryptedDek
        index hash answer.signature := by
  obtain ⟨s, history, hrun⟩ := h.handled (by decide) rfl (handleSignHash_status _)
  obtain ⟨req, response, index, hash, hbody, hpayload, hchecked, hsigned⟩ :=
    hrun.meets (meets_handleSignHash sc.limits _) _ rfl rfl
  cases hpayload
  have hsent := posted_body hbody
  rw [decode_signHash] at hsent
  cases hsent
  exact ⟨index, hash, hchecked, hsigned⟩

end

/-! ### The answers the API gets -/

/-- The sidecar answers as the signer does; that it does not answer, or too late, is not
    ruled out. -/
def guard (sc : Sidecar) : Guard ApiCmd Choice ApiEvent ApiWorld where
  command
    | .base (.sidecar .createWallet), .created response, _ =>
      sc.Answers "/wallet/create" createWalletBody (.createWallet response)
    | .base (.sidecar (.deriveWallet encryptedSeed seedNonce encryptedDek derivIndex)),
        .derived response, _ =>
      sc.Answers "/wallet/derive" (deriveWalletBody encryptedSeed seedNonce encryptedDek derivIndex)
        (.deriveWallet response)
    | .base (.sidecar (.signTransaction _ _ key txFields)), .signed signature txHash, _ =>
      ∃ rawTx, sc.Answers "/wallet/sign-transaction" (signTransactionBody key txFields)
        (.signTx ⟨signature, txHash, rawTx⟩)
    | .signHash _ key hash, .signed signature _, _ =>
      sc.Answers "/wallet/sign-hash" (signHashBody key hash) (.signHash ⟨signature⟩)
    | _, _, _ => True
  event := fun _ _ => True

/-- The signer as it is, is honest. -/
theorem guard_honest (sc : Sidecar) {command : Cmd} {choice : Choice} {w : ApiWorld}
    (h : sc.guard.command (.base command) choice w) :
    (honestSigner sc.lib sc.transit).command command choice w.view := by
  cases command with
  | sidecar request =>
    cases request with
    | createWallet =>
      cases choice with
      | created response => exact Answers.created h
      | _ => trivial
    | deriveWallet encryptedSeed seedNonce encryptedDek derivIndex =>
      cases choice with
      | derived response => exact Answers.derived h
      | _ => trivial
    | signTransaction wallet origin key txFields => trivial
  | _ => trivial

end Sidecar

end BrokeTurnkey
