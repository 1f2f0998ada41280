import BrokeTurnkey.EdgePayments

/-!
# Signed messages from end to end

Who is answered with a signature over a typed message or a text has asked for the very
hash that was signed, may sign for the org of the wallet, and gets what the key at the
address of the wallet signed: in every run of the API and the signer together.
-/

namespace BrokeTurnkey

open Interaction Signer

/-! ### What a response says -/

/-- The signature over a hash that a response carries. -/
def Response.signature? : Response → Option TypedSignResult
  | .service (.typedSignResult result) => some result
  | _ => none

/-- The sidecar returned the signature for the hash that is asked for and the key of a
    wallet of the org. -/
structure SignatureFor (cfg : ApiConfig) (org : Uuid) (t : ApiTables)
    (Fact : (command : ApiCmd) → Except JsError command.Reply → Prop) (endpoint : Endpoint)
    (result : TypedSignResult) (walletId : Text) (seedRow : OrganizationSeed) (row : Wallet) :
    Prop where
  asked : AsksFor cfg endpoint walletId result.hash
  own : OwnKey org t walletId row.id (keyMaterial seedRow row) seedRow row
  seed : t.view.seed? row.orgId = some seedRow
  answered : Fact (.signHash row.id (keyMaterial seedRow row) result.hash) (.ok result.signature)

section Given

variable {cfg : ApiConfig} {org : Uuid} {t : ApiTables} {run : ApiWorld → Prop}
  {incoming : Incoming} {user : Option AuthUser}
  {Fact : (command : ApiCmd) → Except JsError command.Reply → Prop} {walletId : Text}

/-! ### The services -/

namespace SigningService

/-- The seed is the one that is found for the org of the wallet. -/
theorem loadWallet_seed (hrows : TellsRows t.view (OfServices Fact)) :
    (loadWallet org.toText walletId).Given Fact (fun _ => True) fun outcome =>
      ∀ seedRow row, outcome = .ok (seedRow, row) → t.view.seed? row.orgId = some seedRow := by
  have hseed : (Js.sql (.seedFindByOrgId org.toText)).api.Given Fact (fun _ => True)
      fun outcome => ∀ row, outcome = .ok (some row) →
        Uuid.ofText org.toText = some row.orgId ∧ t.view.seed? row.orgId = some row := by
    refine ⟨trivial, fun reply hreply => ?_⟩
    cases reply with
    | error error => rintro row ⟨⟩
    | ok found =>
      rintro row ⟨⟩
      exact hrows.seed _ row hreply
  refine Prog.Given.bind hseed (fun found hfound => ?_) (by rintro _ _ _ _ ⟨⟩)
  refine Prog.Given.bind (.any _) (fun stored _ => ?_) (by rintro _ _ _ _ ⟨⟩)
  cases found with
  | none => rintro _ _ ⟨⟩
  | some seedRow =>
    cases stored with
    | none => rintro _ _ ⟨⟩
    | some row =>
      simp only
      split
      · rintro _ _ ⟨⟩
      · rename_i horg
        rintro _ _ ⟨⟩
        obtain ⟨hnamed, hfound⟩ := hfound seedRow rfl
        have hrow : row.orgId = org := Uuid.toText_injective (not_not.mp horg)
        rw [Uuid.ofText_toText, Option.some.injEq] at hnamed
        rw [hrow, hnamed]
        exact hfound

/-- What is returned is what the sidecar returned for the hash. -/
theorem signWith_returns {hash : Text} (event : Text → AdminEvent) (seedRow : OrganizationSeed)
    (row : Wallet) :
    (signWith org.toText walletId hash event seedRow row).Given Fact (fun _ => True) fun outcome =>
      ∀ result, outcome = .ok result → result.hash = hash ∧
        Fact (.signHash row.id (keyMaterial seedRow row) hash) (.ok result.signature) := by
  have hsign : (Api.signHash row.id (keyMaterial seedRow row) hash).Given Fact (fun _ => True)
      fun outcome => ∀ signature, outcome = .ok signature →
        Fact (.signHash row.id (keyMaterial seedRow row) hash) (.ok signature) := by
    refine ⟨trivial, fun reply hreply => ?_⟩
    cases reply with
    | error error => rintro signature ⟨⟩
    | ok signature =>
      rintro _ ⟨⟩
      exact hreply
  refine Prog.Given.bind hsign (fun signature hsigned => ?_) (by rintro _ _ _ ⟨⟩)
  refine Prog.Given.bind (.any _) (fun _ _ => ?_) (by rintro _ _ _ ⟨⟩)
  rintro _ ⟨⟩
  exact ⟨rfl, hsigned signature rfl⟩

theorem signed_given {endpoint : Endpoint} {hash : Text}
    (hasks : AsksFor cfg endpoint walletId hash) (event : Text → AdminEvent)
    {seedRow : OrganizationSeed} {row : Wallet}
    (hown : OwnKey org t walletId row.id (keyMaterial seedRow row) seedRow row)
    (hseed : t.view.seed? row.orgId = some seedRow) :
    (signWith org.toText walletId hash event seedRow row).Given Fact (fun _ => True) fun outcome =>
      ∀ result, outcome = .ok result → ∃ seedRow row,
        SignatureFor cfg org t Fact endpoint result walletId seedRow row := by
  refine (signWith_returns event seedRow row).mono (fun _ h => h) ?_
  intro outcome houtcome result heq
  obtain ⟨rfl, hanswered⟩ := houtcome result heq
  exact ⟨seedRow, row, hasks, hown, hseed, hanswered⟩

section

variable (hkeys : TellsKeys t Fact) (hrows : TellsRows t.view (OfServices Fact))

include hkeys hrows

theorem loadWallet_key (cfg : ApiConfig) :
    (loadWallet org.toText walletId).Given Fact (fun _ => True) fun outcome =>
      ∀ seedRow row, outcome = .ok (seedRow, row) →
        OwnKey org t walletId row.id (keyMaterial seedRow row) seedRow row ∧
          t.view.seed? row.orgId = some seedRow := by
  have hown : (loadWallet org.toText walletId).Given Fact (SignsFor cfg org t .listWallets) _ :=
    loadWallet_given hkeys
  refine (hown.and (loadWallet_seed hrows)).mono (fun _ _ => trivial) ?_
  rintro outcome ⟨hkey, hseed⟩ seedRow row heq
  exact ⟨hkey seedRow row heq, hseed seedRow row heq⟩

theorem signEip712_signs (body : Eip712SignRequest) :
    (signEip712 cfg org.toText walletId body).Given Fact (fun _ => True) fun outcome =>
      ∀ result, outcome = .ok result → ∃ seedRow row,
        SignatureFor cfg org t Fact (.signTyped walletId body) result walletId seedRow row := by
  refine given_ofExcept_bind (fun _ hallowed => ?_) (by rintro _ _ _ ⟨⟩)
  refine Prog.Given.bind (loadWallet_key hkeys hrows cfg) (fun loaded hloaded => ?_)
    (by rintro _ _ _ ⟨⟩)
  obtain ⟨hown, hseed⟩ := hloaded _ _ rfl
  refine given_ofExcept_bind (fun hash hhash => ?_) (by rintro _ _ _ ⟨⟩)
  exact signed_given (.typedData hallowed hhash) _ hown hseed

theorem signPersonalMessage_signs (message : Text) :
    (signPersonalMessage cfg org.toText walletId message).Given Fact (fun _ => True) fun outcome =>
      ∀ result, outcome = .ok result → ∃ seedRow row,
        SignatureFor cfg org t Fact (.signMessage walletId message) result walletId seedRow
          row := by
  rw [signPersonalMessage]
  split
  · rintro _ ⟨⟩
  · rename_i henabled
    refine Prog.Given.bind (loadWallet_key hkeys hrows cfg) (fun loaded hloaded => ?_)
      (by rintro _ _ _ ⟨⟩)
    obtain ⟨hown, hseed⟩ := hloaded _ _ rfl
    exact signed_given (.message (by simpa using henabled)) _ hown hseed

end

end SigningService

/-! ### The handlers -/

/-- No signature over a hash is returned. -/
def Unsigned (outcome : Except JsError Response) : Prop :=
  ∀ response, outcome = .ok response → response.signature? = none

theorem Unsigned.map {α : Type} {f : α → Response} (h : ∀ value, (f value).signature? = none)
    (p : Api α) : (f <$> p).Given Fact (fun _ => True) Unsigned := by
  refine Prog.Given.bind (.any p) (fun value _ => ?_) (by rintro _ _ _ ⟨⟩)
  rintro _ ⟨⟩
  exact h value

/-- A service that returns something else. -/
theorem Unsigned.service {α : Type} {f : α → ApiOutcome}
    (h : ∀ value, (Response.service (f value)).signature? = none) (p : Api α) :
    (Response.service <$> f <$> p).Given Fact (fun _ => True) Unsigned := by
  refine Prog.Given.bind (Q := fun outcome => ∀ value, outcome = .ok value →
    (Response.service value).signature? = none) ?_ (fun value hvalue => ?_) (by rintro _ _ _ ⟨⟩)
  · refine Prog.Given.bind (.any p) (fun value _ => ?_) (by rintro _ _ _ ⟨⟩)
    rintro _ ⟨⟩
    exact h value
  · rintro _ ⟨⟩
    exact hvalue value rfl

theorem callService_unsigned {operation : ApiCall}
    (hother : (∀ walletId body, operation ≠ .signEip712 walletId body) ∧
      ∀ walletId message, operation ≠ .signPersonalMessage walletId message) :
    (callService cfg user operation).Given Fact (fun _ => True) Unsigned := by
  refine given_ofExcept_bind (fun orgId _ => ?_) (by rintro _ _ _ ⟨⟩)
  cases operation with
  | signEip712 walletId body => exact absurd rfl (hother.1 walletId body)
  | signPersonalMessage walletId message => exact absurd rfl (hother.2 walletId message)
  | _ => exact Unsigned.service (fun _ => rfl) _

/-- A signature that is returned was asked for with a key of the org that may sign. -/
structure SignatureAsked (cfg : ApiConfig) (run : ApiWorld → Prop) (t : ApiTables)
    (Fact : (command : ApiCmd) → Except JsError command.Reply → Prop) (incoming : Incoming)
    (result : TypedSignResult) (stamp : StampVerifierGuard.Parsed) (apiKey : ApiKey)
    (walletId : Text) (seedRow : OrganizationSeed) (row : Wallet) : Prop where
  admitted : StampVerifierGuard.Admitted cfg run incoming.request stamp apiKey
  scope : ScopesGuard.wildcard ∈ apiKey.scopes ∨ Endpoint.walletSign ∈ apiKey.scopes
  made : SignatureFor cfg apiKey.orgId t Fact incoming.endpoint result walletId seedRow row

/-- What is returned was asked for. -/
def ReturnsAsked (cfg : ApiConfig) (run : ApiWorld → Prop) (t : ApiTables)
    (Fact : (command : ApiCmd) → Except JsError command.Reply → Prop) (incoming : Incoming)
    (outcome : Except JsError Response) : Prop :=
  ∀ response result, outcome = .ok response → response.signature? = some result →
    ∃ stamp apiKey walletId seedRow row,
      SignatureAsked cfg run t Fact incoming result stamp apiKey walletId seedRow row

theorem ReturnsAsked.of_unsigned {outcome : Except JsError Response} (h : Unsigned outcome) :
    ReturnsAsked cfg run t Fact incoming outcome := by
  intro response result heq hsignature
  rw [h response heq] at hsignature
  cases hsignature

theorem ReturnsAsked.error (error : JsError) :
    ReturnsAsked cfg run t Fact incoming (.error error) := by
  rintro _ _ ⟨⟩

/-- A route that signs returns what it let sign. -/
theorem returnsAsked_of_signs (walletId : Text) (hthrough : LetThrough cfg run incoming user)
    {operation : ApiCall} {p : Text → Api TypedSignResult}
    (hscope : incoming.endpoint.scopes = [Endpoint.walletSign])
    (hoperation : ∀ orgId, operation.start cfg orgId = .typedSignResult <$> p orgId)
    (hcall : ∀ org : Uuid, (p org.toText).Given Fact (fun _ => True) fun outcome =>
      ∀ result, outcome = .ok result → ∃ seedRow row,
        SignatureFor cfg org t Fact incoming.endpoint result walletId seedRow row) :
    (callService cfg user operation).Given Fact (fun _ => True)
      (ReturnsAsked cfg run t Fact incoming) := by
  obtain ⟨stamp, apiKey, rfl, hadmitted, hholds⟩ := hthrough.holder hscope
  refine given_ofExcept_bind (fun orgId horg => ?_) fun error _ => .error error
  have horgId : orgId = apiKey.orgId.toText := (Except.ok.inj horg).symm
  rw [horgId, hoperation]
  refine Prog.Given.bind (Q := fun outcome => ∀ value, outcome = .ok value → ∃ result,
    value = .typedSignResult result ∧ ∃ seedRow row,
      SignatureFor cfg apiKey.orgId t Fact incoming.endpoint result walletId seedRow row) ?_
    (fun value hvalue => ?_) fun error _ => .error error
  · refine Prog.Given.bind (hcall apiKey.orgId) (fun result hresult => ?_) (by rintro _ _ _ ⟨⟩)
    rintro _ ⟨⟩
    exact ⟨result, rfl, hresult result rfl⟩
  · rintro _ _ ⟨⟩ hsignature
    obtain ⟨result, rfl, seedRow, row, hmade⟩ := hvalue value rfl
    cases hsignature
    exact ⟨stamp, apiKey, walletId, seedRow, row, hadmitted, hholds, hmade⟩

theorem Endpoint.handler_returns (hkeys : TellsKeys t Fact)
    (hrows : TellsRows t.view (OfServices Fact)) (hthrough : LetThrough cfg run incoming user) :
    (incoming.endpoint.handler cfg incoming.request user).Given Fact (fun _ => True)
      (ReturnsAsked cfg run t Fact incoming) := by
  have hother {p : Api Response} (h : p.Given Fact (fun _ => True) Unsigned) :
      p.Given Fact (fun _ => True) (ReturnsAsked cfg run t Fact incoming) :=
    h.mono (fun _ h => h) fun _ h => .of_unsigned h
  cases hendpoint : incoming.endpoint with
  | signTyped walletId body =>
    refine returnsAsked_of_signs walletId hthrough (by rw [hendpoint]; rfl) (fun _ => rfl)
      fun org => ?_
    rw [hendpoint]
    exact SigningService.signEip712_signs hkeys hrows body
  | signMessage walletId message =>
    refine returnsAsked_of_signs walletId hthrough (by rw [hendpoint]; rfl) (fun _ => rfl)
      fun org => ?_
    rw [hendpoint]
    exact SigningService.signPersonalMessage_signs hkeys hrows message
  | createOrganization body => exact hother (Unsigned.map (fun _ => rfl) _)
  | findOrganization =>
    exact hother (given_ofExcept_bind (fun _ _ => Unsigned.map (fun _ => rfl) _)
      (by rintro _ _ _ ⟨⟩))
  | findBySlug slug =>
    exact hother (given_ofExcept_bind (fun _ _ => Unsigned.map (fun _ => rfl) _)
      (by rintro _ _ _ ⟨⟩))
  | registerApiKey body => exact hother (Unsigned.map (fun _ => rfl) _)
  | _ => exact hother (callService_unsigned ⟨by rintro _ _ ⟨⟩, by rintro _ _ ⟨⟩⟩)

end Given

/-! ### Every run -/

/-- The signature is made over the bytes of the hash with the key at the address of the
    wallet, by a signer that is switched to sign hashes. -/
structure MessageMade (sc : Sidecar) (t : Tables) (result : TypedSignResult)
    (seedRow : OrganizationSeed) (row : Wallet) (key hash : Bytes) : Prop where
  derived : DerivedAtPath sc.lib sc.transit t row seedRow key
  address : KeyAddress sc.lib key row.address
  enabled : sc.limits.allowHashSigning = true
  parsed : parseHash result.hash = .ok hash
  signed : signTxHash sc.lib hash key = .ok result.signature

/-- What the signer answers for the key of a wallet is made with the key at its address. -/
theorem Sidecar.Answers.messageMade {sc : Sidecar} {t : Tables} {result : TypedSignResult}
    {seedRow : OrganizationSeed} {row : Wallet} (hrows : WalletRows sc.lib sc.transit t)
    (hstored : row ∈ t.wallets) (hseed : t.seed? row.orgId = some seedRow)
    (hanswers : sc.Answers "/wallet/sign-hash"
      (CryptoClientService.signHashBody (keyMaterial seedRow row) result.hash)
      (.signHash ⟨result.signature⟩)) :
    ∃ key hash, MessageMade sc t result seedRow row key hash := by
  obtain ⟨index, hash, hchecked, hsigned⟩ := hanswers.signedHash
  obtain ⟨key, hderived, haddress, hkey⟩ :=
    hrows.signedWith hstored hseed hchecked.path hsigned
  exact ⟨key, hash, hderived, haddress, hchecked.enabled, hchecked.parseHash, hkey⟩

/-- **Every signature is the wallet's.**  In every run of the API and the signer together,
    on tables with right wallet rows, whatever arrives and however it interleaves: who is
    answered with a signature over a hash asked for this hash, where the configuration
    admits it, with the stamp of a key with `wallet:sign` of the wallet's org; and the
    signature is made over it with the key whose address stands in the wallet's row. -/
theorem signatures_accounted {cfg : ApiConfig} {sc : Sidecar} (hopen : OpensSealed sc.lib)
    {arrivals : List Arrival} {w : ApiWorld} (hrows : WalletRows sc.lib sc.transit w.tables.view)
    {p : EdgePool} (hreach : Reach (edge cfg) sc.guard (edgePool cfg arrivals w) p) {i : Nat}
    {incoming : Incoming} (hat : arrivals[i]? = some (.request incoming)) {response : Response}
    (hret : p.threads[i]? = some (.ret response)) {result : TypedSignResult}
    (hsignature : response.signature? = some result) :
    ∃ stamp apiKey walletId seedRow row,
      SignatureAsked cfg (Visits (edge cfg) sc.guard (edgePool cfg arrivals w) p) p.state.tables
        (Answered (edge cfg) sc.guard (edgePool cfg arrivals w) p i) incoming result stamp apiKey
        walletId seedRow row ∧
      ∃ key hash, MessageMade sc p.state.tables.view result seedRow row key hash := by
  have hkeys := tellsKeys_of_answered hreach i
  have hgiven : (incoming.handle cfg).Given
      (Answered (edge cfg) sc.guard (edgePool cfg arrivals w) p i) (fun _ => True) _ :=
    Incoming.handle_given tells_of_answered (fun _ _ => trivial)
      (fun user hthrough => Endpoint.handler_returns hkeys (tellsRows_of_answered hreach i)
        hthrough) .error
  obtain ⟨stamp, apiKey, walletId, seedRow, row, hasked⟩ :=
    (Reach.given rfl hreach (edgePool_thread hat) hgiven).2 (.ok response) hret response result rfl
      hsignature
  obtain ⟨choice, s, s', _, hguard, hexec⟩ := hasked.made.answered.visits
  have hanswers : sc.Answers "/wallet/sign-hash"
      (CryptoClientService.signHashBody (keyMaterial seedRow row) result.hash)
      (.signHash ⟨result.signature⟩) := by
    cases choice with
    | signed signature txHash =>
      cases hexec
      exact hguard
    | _ => cases hexec
  have hkept := edge_walletRows hopen hrows hreach
  exact ⟨stamp, apiKey, walletId, seedRow, row, hasked,
    hanswers.messageMade hkept hasked.made.own.stored hasked.made.seed⟩

namespace ApiSample

/-- The hash of the greeting, and what the first key of the seed signs it with. -/
def greetingHash : Bytes :=
  Signer.Sample.bytes 32 0x50b2c43fd39106bafbba0da34fc430e1f91e3c96ea2acee2bc34119f92b37750

def greetingSignature : Bytes :=
  Signer.Sample.bytes 32 0xf3c725b7d1bc48c8679df92937f7d3625f54369ab55dbbc4769c562b2aa95a73 ++
    Signer.Sample.bytes 32 0x549ea9b779b550bd8043f0d99bdf623439991ef826cbd97ff58c1cb01cd5e6b2 ++
    Signer.Sample.bytes 1 1

/-- The signer signs hashes, and this one is known. -/
def hashSidecar : Sidecar :=
  { sidecar with
    lib := { Signer.Sample.libraries with
      sign := fun hash (key : Bytes) =>
        if hash = greetingHash ∧ key = Signer.Sample.key0 then some greetingSignature else none }
    limits := { Signer.Sample.limits with allowHashSigning := true } }

def greetingConfig : ApiConfig :=
  { switchedOn with
    hashMessage := fun message =>
      if message = "hello".toList then "0x".toList ++ Text.hexEncode greetingHash else [] }

def signHashResponse : SignHashResponse := ⟨"0x".toList ++ Text.hexEncode greetingSignature⟩

/-- The signer answers the one request that it was run on. -/
def recordedGreeting : ApiCmd → Choice → Bool
  | .signHash _ key hash, .signed signature _ =>
    key = keyMaterial sealedSeed firstWallet ∧
      hash = "0x".toList ++ Text.hexEncode greetingHash ∧ signature = signHashResponse.signature
  | .base (.sidecar _), _ => false
  | _, _ => true

theorem hashSidecar_answers : hashSidecar.Answers "/wallet/sign-hash"
    (CryptoClientService.signHashBody (keyMaterial sealedSeed firstWallet)
      ("0x".toList ++ Text.hexEncode greetingHash)) (.signHash signHashResponse) := by
  obtain ⟨outcome, s, history, hrun, hanswer⟩ := Completes.exists_of_complete
    (signer hashSidecar.lib) (honestVault hashSidecar.transit)
    (serveHTTP hashSidecar.lib hashSidecar.limits hashSidecar.serverToken
      (hashSidecar.posted "/wallet/sign-hash" (CryptoClientService.signHashBody
        (keyMaterial sealedSeed firstWallet) ("0x".toList ++ Text.hexEncode greetingHash)))) ()
    Signer.Sample.decrypts
    (fun final => final.1 = .ok (.json ⟨200, .signHash signHashResponse⟩))
    (by decide +kernel)
  have houtcome : outcome = .ok (.json ⟨200, .signHash signHashResponse⟩) :=
    of_decide_eq_true hanswer
  exact ⟨_, s, history, houtcome ▸ hrun, rfl⟩

theorem admits_of_recordedGreeting (command : ApiCmd) (choice : Choice) (w : ApiWorld)
    (h : (recordedGuard recordedGreeting).command command choice w) :
    hashSidecar.guard.command command choice w := by
  cases command with
  | base command =>
    cases command with
    | sidecar request => cases h
    | _ => trivial
  | signHash wallet key hash =>
    cases choice with
    | signed signature txHash =>
      obtain ⟨rfl, rfl, rfl⟩ := of_decide_eq_true h
      exact hashSidecar_answers
    | _ => trivial
  | _ => trivial

theorem greeted_signed : ∃ p, Reach (edge greetingConfig) hashSidecar.guard
    (edgePool greetingConfig [.request greeting] fundedWorld) p ∧
      ∃ response result, p.threads[0]? = some (.ret response) ∧
        response.signature? = some result := by
  obtain ⟨p, hreach, hp⟩ := Reach.exists_of_run (edge greetingConfig)
    (recordedGuard recordedGreeting) (edgePool greetingConfig [.request greeting] fundedWorld)
    ((List.replicate 6 Sample.run ++ [.signed signHashResponse.signature [], Sample.run]).map
      (Move.thread 0))
    (fun p => ((p.threads[0]?.bind Prog.value?).bind Response.signature?).isSome)
    (by decide +kernel)
  obtain ⟨result, hresult⟩ := Option.isSome_iff_exists.mp hp
  obtain ⟨response, hresponse, hsignature⟩ := Option.bind_eq_some_iff.mp hresult
  obtain ⟨thread, hthread, hvalue⟩ := Option.bind_eq_some_iff.mp hresponse
  rw [Prog.eq_ret_of_value? hvalue] at hthread
  exact ⟨p, hreach.mono admits_of_recordedGreeting fun _ _ h => h.elim, response, result, hthread,
    hsignature⟩

end ApiSample

open ApiSample in
/-- A key with `wallet:sign` gets the signature of the wallet over its greeting. -/
theorem signatures_accounted_greeting : ∃ p response result stamp apiKey walletId seedRow row key
    hash,
    Reach (edge greetingConfig) hashSidecar.guard
      (edgePool greetingConfig [.request greeting] fundedWorld) p ∧
    p.threads[0]? = some (.ret response) ∧ response.signature? = some result ∧
    SignatureAsked greetingConfig (Visits (edge greetingConfig) hashSidecar.guard
        (edgePool greetingConfig [.request greeting] fundedWorld) p) p.state.tables
      (Answered (edge greetingConfig) hashSidecar.guard
        (edgePool greetingConfig [.request greeting] fundedWorld) p 0)
      greeting result stamp apiKey walletId seedRow row ∧
    MessageMade hashSidecar p.state.tables.view result seedRow row key hash := by
  have hkey : KeyAt hashSidecar.lib hashSidecar.transit sealedSeed 0 firstWallet.address :=
    ⟨by decide, Signer.Sample.seed, Signer.Sample.key0, by decide +kernel, by decide +kernel⟩
  obtain ⟨p, hreach, response, result, hret, hsignature⟩ := greeted_signed
  obtain ⟨stamp, apiKey, walletId, seedRow, row, hasked, key, hash, hmade⟩ :=
    signatures_accounted TwoWallets.opensSealed (walletRows_funded hkey) hreach (i := 0) rfl hret
      hsignature
  exact ⟨p, response, result, stamp, apiKey, walletId, seedRow, row, key, hash, hreach, hret,
    hsignature, hasked, hmade⟩

end BrokeTurnkey
