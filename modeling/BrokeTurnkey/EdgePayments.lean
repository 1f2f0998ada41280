import BrokeTurnkey.Broadcasts
import BrokeTurnkey.EdgeSignatures
import BrokeTurnkey.EdgeWallets

/-!
# Payments from end to end

A payment passes through everything: the guards of the API, the call or the monitor, the
client of the signer, the wire, the checks and the libraries of the signer, and back.  In
every run of the two processes, a transaction that is handed to a provider was asked for
by a key of the wallet's org that may sign, or replaces one of a stored request; and it
was signed with the key whose address is in the wallet's row, over the very fields that
were sent, which the bytes of the signer decode to.
-/

namespace BrokeTurnkey

open Interaction Signer

/-- The transaction a command hands to a provider. -/
def ApiCmd.submits : ApiCmd → Option RawTx
  | .base command => command.submits
  | _ => none

/-- What is known of the replies to the services' commands. -/
abbrev OfServices (Fact : (command : ApiCmd) → Except JsError command.Reply → Prop)
    (command : Cmd) (reply : Except JsError command.Reply) : Prop :=
  Fact (.base command) reply

/-! ### Who asked -/

/-- The request asks for the transaction and carries the stamp of a key of the wallet's
    org that may sign. -/
structure PaymentAsked (cfg : ApiConfig) (run : ApiWorld → Prop) (incoming : Incoming)
    (rawTx : RawTx) (row : Wallet) (stamp : StampVerifierGuard.Parsed) (apiKey : ApiKey)
    (walletId : Text) (body : SignTransactionDto) : Prop where
  admitted : StampVerifierGuard.Admitted cfg run incoming.request stamp apiKey
  scope : ScopesGuard.wildcard ∈ apiKey.scopes ∨ Endpoint.walletSign ∈ apiKey.scopes
  asked : incoming.endpoint = .signTransaction walletId body
  own : ForRequest apiKey.orgId.toText walletId body.txFields rawTx row

/-- A request hands over what it asked for. -/
def Pays (cfg : ApiConfig) (run : ApiWorld → Prop) (t : Tables)
    (Fact : (command : ApiCmd) → Except JsError command.Reply → Prop) (incoming : Incoming)
    (command : ApiCmd) : Prop :=
  ∀ rawTx, command.submits = some rawTx → ∃ row seedRow result,
    SignedFor t (OfServices Fact) rawTx row seedRow result ∧
      ∃ stamp apiKey walletId body,
        PaymentAsked cfg run incoming rawTx row stamp apiKey walletId body

/-- A transaction is handed over for a request that asks for it, or by the monitor for a
    stored request. -/
inductive Initiated (cfg : ApiConfig) (run : ApiWorld → Prop) (t : Tables)
    (arrivals : List Arrival) (i : Nat) (rawTx : RawTx) (row : Wallet) : Prop where
  | request {incoming : Incoming} {stamp : StampVerifierGuard.Parsed} {apiKey : ApiKey}
      {walletId : Text} {body : SignTransactionDto} :
      arrivals[i]? = some (.request incoming) →
      PaymentAsked cfg run incoming rawTx row stamp apiKey walletId body →
      Initiated cfg run t arrivals i rawTx row
  | replacement {cycles : Nat} :
      arrivals[i]? = some (.monitor cycles) → Replaces t rawTx row →
      Initiated cfg run t arrivals i rawTx row

section Given

variable {cfg : ApiConfig} {run : ApiWorld → Prop} {t : Tables} {incoming : Incoming}
  {user : Option AuthUser} {Fact : (command : ApiCmd) → Except JsError command.Reply → Prop}

theorem ApiCmd.effect_of_submits {command : ApiCmd} {rawTx : RawTx}
    (h : command.submits = some rawTx) : command.effect = some .signing := by
  cases command with
  | base command =>
    cases command with
    | fetch rpcUrl request =>
      cases request with
      | sendRawTransaction other => rfl
      | _ => cases h
    | _ => cases h
  | _ => cases h

theorem Pays.of_effect {command : ApiCmd} (h : command.effect ≠ some .signing) :
    Pays cfg run t Fact incoming command :=
  fun _ hsubmits => absurd (ApiCmd.effect_of_submits hsubmits) h

theorem Pays.of_none {command : ApiCmd} (h : command.submits = none) :
    Pays cfg run t Fact incoming command := by
  intro rawTx hsubmits
  rw [h] at hsubmits
  cases hsubmits

/-- Hashes are not handed to providers. -/
theorem hashes_pay_nothing (orgId walletId : Text) :
    SigningService.Issuable (Pays cfg run t Fact incoming) orgId walletId where
  seed := .of_none rfl
  wallet := .of_none rfl
  sign _ _ _ := .of_none rfl
  audit _ := .of_none rfl

theorem requestSign_pays (hfact : TellsRows t (OfServices Fact))
    (hthrough : LetThrough cfg run incoming user) {walletId : Text} {body : SignTransactionDto}
    (hendpoint : incoming.endpoint = .signTransaction walletId body) :
    (callService cfg user (.requestSign walletId body.txFields)).Given Fact
      (Pays cfg run t Fact incoming) fun _ => True := by
  have hscope : incoming.endpoint.scopes = [Endpoint.walletSign] := by
    rw [hendpoint]
    rfl
  obtain ⟨stamp, apiKey, rfl, hadmitted, hholds⟩ := hthrough.holder hscope
  refine given_ofExcept_bind (fun orgId horg => ?_) fun _ _ => trivial
  have horgId : orgId = apiKey.orgId.toText := (Except.ok.inj horg).symm
  rw [horgId]
  have hcall : (WalletService.requestSign cfg.services apiKey.orgId.toText walletId
      body.txFields).api.Given Fact (Pays cfg run t Fact incoming) fun _ => True := by
    refine Prog.Given.lift ((WalletService.requestSign_given hfact).mono
      (fun command hover => ?_) fun _ h => h) fun _ _ h => h
    intro rawTx hsubmits
    obtain ⟨row, seedRow, result, hsigned, hfor⟩ := hover rawTx hsubmits
    exact ⟨row, seedRow, result, hsigned, stamp, apiKey, walletId, body, hadmitted, hholds,
      hendpoint, hfor⟩
  exact .map (.map hcall)

theorem Endpoint.handler_pays (hfact : TellsRows t (OfServices Fact))
    (hthrough : LetThrough cfg run incoming user) :
    (incoming.endpoint.handler cfg incoming.request user).Given Fact
      (Pays cfg run t Fact incoming) fun _ => True := by
  by_cases hsigning : Effect.signing ∈ incoming.endpoint.effects
  · cases hendpoint : incoming.endpoint with
    | signTransaction walletId body => exact requestSign_pays hfact hthrough hendpoint
    | signTyped walletId body =>
      refine .of_all (all_ofExcept_bind fun orgId _ => all_map (all_map ?_))
      exact (hashes_pay_nothing orgId walletId).signEip712_all cfg body
    | signMessage walletId message =>
      refine .of_all (all_ofExcept_bind fun orgId _ => all_map (all_map ?_))
      exact (hashes_pay_nothing orgId walletId).signPersonalMessage_all cfg message
    | _ =>
      rw [hendpoint] at hsigning
      simp [Endpoint.effects] at hsigning
  · refine .of_all ((Endpoint.handler_affects _ _).mono fun command haffects => ?_)
    exact .of_effect fun heffect => hsigning (haffects _ heffect)

theorem Incoming.handle_pays (htells : StampVerifierGuard.Tells run Fact)
    (hfact : TellsRows t (OfServices Fact)) :
    (incoming.handle cfg).Given Fact (Pays cfg run t Fact incoming) fun _ => True := by
  refine Incoming.handle_given htells (fun command hissued => ?_)
    (fun user hthrough => Endpoint.handler_pays hfact hthrough) fun _ => trivial
  cases hissued with
  | now => exact .of_none rfl
  | lookup hparsed => exact .of_none rfl
  | touch lastUsedAt hadmitted => exact .of_none rfl

end Given

/-! ### What runs show -/

section Runs

variable {cfg : ApiConfig} {sc : Sidecar} {arrivals : List Arrival} {w : ApiWorld} {p : EdgePool}

/-- What was read in a run is there in the end. -/
theorem tellsRows_of_answered
    (hreach : Reach (edge cfg) sc.guard (edgePool cfg arrivals w) p) (i : Nat) :
    TellsRows p.state.tables.view
      (OfServices (Answered (edge cfg) sc.guard (edgePool cfg arrivals w) p i)) := by
  have hadvance : ∀ {q : EdgePool}, Reach (edge cfg) sc.guard q p →
      q.state.tables.Advance p.state.tables :=
    fun hrest => advance_of_rest hreach.unguarded hrest.unguarded
  constructor
  case seed =>
    intro orgId row h
    obtain ⟨choice, s, s', ⟨q, _, rfl, hrest⟩, _, hexec⟩ := h.visits
    obtain ⟨base, hbase, _⟩ := ApiCmd.exec_base hexec
    obtain ⟨hnamed, hfound⟩ := exec_seedFindByOrgId hbase
    rw [exec_query rfl hbase] at hfound
    have happends : q.state.tables.view.Appends p.state.tables.view :=
      ⟨(hadvance hrest).wallets, (hadvance hrest).seeds⟩
    exact ⟨hnamed, happends.seed? hfound⟩
  case wallet =>
    intro walletId row h
    exact wallet_of_answered hreach h
  case broadcasted =>
    intro rows h row hrow
    obtain ⟨choice, s, s', ⟨q, _, rfl, hrest⟩, _, hexec⟩ := h.visits
    obtain ⟨base, hbase, _⟩ := ApiCmd.exec_base hexec
    obtain ⟨later, hmem, fields, hlater⟩ :=
      (hadvance hrest).requests.mem ((exec_findBroadcasted hbase).2 row hrow)
    refine ⟨later, hmem, ?_⟩
    rw [hlater]
    exact ⟨rfl, rfl, rfl⟩
  case signed =>
    intro wallet origin key txFields result h
    obtain ⟨choice, s, s', _, _, hexec⟩ := h.visits
    obtain ⟨base, hbase, _⟩ := ApiCmd.exec_base hexec
    exact exec_signTransaction hbase

/-- Nothing that runs in the background hands a transaction over. -/
theorem spawned_pays_nothing {command : ApiCmd} {thread : Api Response}
    (hthread : thread ∈ (edge cfg).spawns command) :
    thread.All fun later => later.submits = none := by
  obtain ⟨job, hjob, rfl⟩ := List.mem_map.mp hthread
  cases command with
  | base command =>
    cases command with
    | fork job =>
      rw [List.mem_singleton.mp hjob]
      cases job with
      | syncNonce walletId chainId walletAddress =>
        refine all_map (all_map (Prog.All.lift (Prog.All.bind ?_ fun _ => trivial)))
        refine Prog.All.bind (rpcCallWithRetry_all (fun _ => rfl) ..) fun _ => ?_
        exact Prog.All.perform rfl
    | _ => cases hjob
  | fork job =>
    rw [List.mem_singleton.mp hjob]
    cases job with
    | touch apiKeyId lastUsedAt =>
      exact all_map (all_map (Prog.All.tryCatch (Prog.All.perform rfl) fun _ => trivial))
  | _ => cases hjob

/-- What is handed over was asked for, and signed for the key of the wallet. -/
theorem entry_initiated (hreach : Reach (edge cfg) sc.guard (edgePool cfg arrivals w) p)
    {entry : Entry ApiCmd Choice} (hentry : entry ∈ p.history) {rawTx : RawTx}
    (hsubmits : entry.command.submits = some rawTx) : ∃ row seedRow result,
      SignedFor p.state.tables.view (OfServices
        (Answered (edge cfg) sc.guard (edgePool cfg arrivals w) p entry.thread)) rawTx row seedRow
        result ∧
      Initiated cfg (Visits (edge cfg) sc.guard (edgePool cfg arrivals w) p) p.state.tables.view
        arrivals entry.thread rawTx row := by
  have hfact := tellsRows_of_answered hreach entry.thread
  have hlength : (edgePool cfg arrivals w).threads.length = arrivals.length := List.length_map ..
  rcases (Reach.origin rfl hreach).1 entry hentry with hfirst | ⟨_, _, thread, hspawned, hissues⟩
  · rw [hlength] at hfirst
    have hat : arrivals[entry.thread]? = some arrivals[entry.thread] :=
      List.getElem?_eq_getElem hfirst
    cases harrival : arrivals[entry.thread] with
    | request incoming =>
      rw [harrival] at hat
      have hpays := (Reach.given rfl hreach (edgePool_thread hat)
        (incoming.handle_pays tells_of_answered hfact)).1 entry hentry rfl
      obtain ⟨row, seedRow, result, hsigned, stamp, apiKey, walletId, body, hasked⟩ :=
        hpays rawTx hsubmits
      exact ⟨row, seedRow, result, hsigned, .request hat hasked⟩
    | monitor cycles =>
      rw [harrival] at hat
      have hgiven : ((Arrival.monitor cycles).start cfg).Given
          (Answered (edge cfg) sc.guard (edgePool cfg arrivals w) p entry.thread)
          (fun command => ∀ rawTx, command.submits = some rawTx → ∃ row seedRow result,
            SignedFor p.state.tables.view (OfServices
              (Answered (edge cfg) sc.guard (edgePool cfg arrivals w) p entry.thread)) rawTx row
              seedRow result ∧ Replaces p.state.tables.view rawTx row) fun _ => True :=
        .map (.map (.lift (Monitor.monitor_given hfact cycles) fun _ _ h => h))
      obtain ⟨row, seedRow, result, hsigned, hreplaces⟩ :=
        (Reach.given rfl hreach (edgePool_arrival hat) hgiven).1 entry hentry rfl rawTx hsubmits
      exact ⟨row, seedRow, result, hsigned, .replacement hat hreplaces⟩
  · have hnone := Prog.All.of_issues hissues (spawned_pays_nothing hspawned)
    rw [hnone] at hsubmits
    cases hsubmits

end Runs

/-! ### What was signed -/

/-- The signer made the transaction: its limits admit the fields that were sent, the key
    behind the address of the wallet signed them, and the bytes it returned decode to
    them and to the signature. -/
structure SignerMade (sc : Sidecar) (t : Tables) (rawTx : RawTx) (row : Wallet)
    (seedRow : OrganizationSeed) (key : Bytes) (jsonTx : TxFieldsJSON) (fields : Signer.TxFields)
    (tx : DynamicFeeTx) (raw : Bytes) : Prop where
  derived : DerivedAtPath sc.lib sc.transit t row seedRow key
  address : KeyAddress sc.lib key row.address
  sent : Encodes rawTx.fields jsonTx
  parsed : parseTxFields sc.lib jsonTx = .ok fields
  limited : sc.limits.validateSignTxLimits sc.lib fields = .ok ()
  carries : Carries fields tx
  signed : signTxHash sc.lib (sc.lib.londonHash fields.chainId tx) key = .ok rawTx.signature
  returned : ∃ txHash, sc.Answers "/wallet/sign-transaction"
    (CryptoClientService.signTransactionBody (keyMaterial seedRow row) rawTx.fields)
    (.signTx ⟨rawTx.signature, txHash, "0x".toList ++ Text.hexEncode raw⟩)
  decodes : ∃ decoded, sc.lib.unmarshalBinary raw = some decoded ∧ decoded.tx = tx ∧
    rawTx.signature = "0x".toList ++ Text.hexEncode decoded.signature

/-- What go-ethereum is relied on for: it decodes what it encodes, and attaches the
    signature it is given. -/
structure Libraries.Faithful (lib : Libraries) : Prop where
  decodes : ∀ stx raw, lib.marshalBinary stx = some raw → lib.unmarshalBinary raw = some stx
  attaches : ∀ chainId tx signature stx, lib.withSignature chainId tx signature = some stx →
    stx = ⟨tx, signature⟩

section

variable {sc : Sidecar} {t : Tables} {rawTx : RawTx} {row : Wallet} {seedRow : OrganizationSeed}

/-- What is signed for the seed and the path of a stored wallet is signed with the key at
    its address. -/
theorem WalletRows.signedWith {lib : Libraries} {transit : Text → Option Text}
    (hrows : WalletRows lib transit t) (hstored : row ∈ t.wallets)
    (hseed : t.seed? row.orgId = some seedRow) {index : UInt32} {hash : Bytes} {signature : Text}
    (hpath : parseDerivIndex row.derivationPath = .ok index)
    (hsigned : SignedWith lib (honestVault transit) seedRow.encryptedSeed seedRow.seedNonce
      seedRow.encryptedDek index hash signature) :
    ∃ key, DerivedAtPath lib transit t row seedRow key ∧ KeyAddress lib key row.address ∧
      signTxHash lib hash key = .ok signature := by
  obtain ⟨seedRow', key, hderived⟩ := (hrows.keyed row hstored).derivedAtPath
  have hsame : seedRow' = seedRow := Option.some.inj (hderived.1.symm.trans hseed)
  subst hsame
  obtain ⟨_, index', seed, hindex, hopens, hkey⟩ := id hderived
  have hsame : index' = index := Except.ok.inj (hindex.symm.trans hpath)
  subst hsame
  exact ⟨key, hderived, deriveAddress_key hkey, signTxHash_of_signedWith hsigned hopens hkey⟩

/-- An answer of the signer for the key of a wallet is made with the key at its address. -/
theorem Sidecar.Answers.signerMade (hlib : Libraries.Faithful sc.lib)
    (hrows : WalletRows sc.lib sc.transit t) (hstored : row ∈ t.wallets)
    (hseed : t.seed? row.orgId = some seedRow) {txHash text : Text}
    (hanswers : sc.Answers "/wallet/sign-transaction"
      (CryptoClientService.signTransactionBody (keyMaterial seedRow row) rawTx.fields)
      (.signTx ⟨rawTx.signature, txHash, text⟩)) :
    ∃ key jsonTx fields tx raw, SignerMade sc t rawTx row seedRow key jsonTx fields tx raw := by
  obtain ⟨jsonTx, index, fields, raw, hsent, hsigned⟩ := hanswers.signedTx
  obtain ⟨tx, decoded, hmade⟩ := hsigned.answer hlib.decodes hlib.attaches
  obtain ⟨key, hderived, haddress, hkey⟩ :=
    hrows.signedWith hstored hseed hmade.checked.path hmade.signed
  have htext : text = "0x".toList ++ Text.hexEncode raw := hmade.rawTx
  rw [htext] at hanswers
  refine ⟨key, jsonTx, fields, tx, raw, ?_⟩
  constructor
  case derived => exact hderived
  case address => exact haddress
  case sent => exact hsent
  case parsed => exact hmade.checked.parsed
  case limited => exact hmade.checked.limited
  case carries => exact hmade.carries
  case signed => exact hkey
  case returned => exact ⟨txHash, hanswers⟩
  case decodes => exact ⟨decoded, hmade.decodes, hmade.exactly.eq hmade.carries, hmade.attached⟩

/-- What the sidecar answered in a run is an answer of the signer. -/
theorem answers_of_signTransaction {wallet origin : Uuid} {key : KeyMaterial}
    {txFields : BrokeTurnkey.TxFields} {choice : Choice} {w w' : ApiWorld}
    {result : SignTransactionResult}
    (hguard : sc.guard.command (.base (.sidecar (.signTransaction wallet origin key txFields)))
      choice w)
    (hexec : ApiCmd.exec (.base (.sidecar (.signTransaction wallet origin key txFields))) choice w =
      some (.ok result, w')) :
    ∃ txHash text, sc.Answers "/wallet/sign-transaction"
      (CryptoClientService.signTransactionBody key txFields)
      (.signTx ⟨result.rawTx.signature, txHash, text⟩) := by
  obtain ⟨base, hbase, _⟩ := ApiCmd.exec_base hexec
  have hreply := (exec_sidecar hbase).1
  cases choice with
  | signed signature txHash =>
    cases hreply
    exact ⟨txHash, hguard⟩
  | _ => cases hreply

end

/-- **Every payment is asked for and signed with the key of its wallet.**  In every run of
    the API and the signer together, on tables with right wallet rows, whatever arrives
    and however it interleaves: a transaction handed to a provider was asked for by a key
    of the wallet's org with `wallet:sign`, or replaces one of a stored request for the
    wallet; and the signer made it, of exactly the fields that were sent, with the key
    whose address stands in the wallet's row. -/
theorem payments_accounted {cfg : ApiConfig} {sc : Sidecar} (hlib : Libraries.Faithful sc.lib)
    (hopen : OpensSealed sc.lib) {arrivals : List Arrival} {w : ApiWorld}
    (hrows : WalletRows sc.lib sc.transit w.tables.view) {p : EdgePool}
    (hreach : Reach (edge cfg) sc.guard (edgePool cfg arrivals w) p)
    {entry : Entry ApiCmd Choice} (hentry : entry ∈ p.history) {rawTx : RawTx}
    (hsubmits : entry.command.submits = some rawTx) :
    ∃ row seedRow, Initiated cfg (Visits (edge cfg) sc.guard (edgePool cfg arrivals w) p)
        p.state.tables.view arrivals entry.thread rawTx row ∧
      ∃ key jsonTx fields tx raw,
        SignerMade sc p.state.tables.view rawTx row seedRow key jsonTx fields tx raw := by
  obtain ⟨row, seedRow, result, hsigned, hinitiated⟩ := entry_initiated hreach hentry hsubmits
  obtain ⟨choice, s, s', _, hguard, hexec⟩ := hsigned.answered.visits
  obtain ⟨txHash, text, hanswers⟩ := answers_of_signTransaction hguard hexec
  rw [hsigned.returned] at hanswers
  have hkept := edge_walletRows hopen hrows hreach
  exact ⟨row, seedRow, hinitiated, hanswers.signerMade hlib hkept hsigned.stored hsigned.seed⟩

/-! ### A payment -/

namespace ApiSample

/-- The deployment of the sample libraries. -/
def sidecar : Sidecar where
  lib := Signer.Sample.libraries
  limits := Signer.Sample.limits
  transit := TwoWallets.transit
  serverToken := "token".toList
  clientToken := "token".toList
  stringify := fun _ => []
  render := fun _ => []

def sealedSeed : OrganizationSeed where
  orgId := org
  encryptedSeed := TwoWallets.created.encryptedSeed
  seedNonce := TwoWallets.created.seedNonce
  encryptedDek := TwoWallets.created.encryptedDek

def firstWallet : Wallet :=
  { Sample.walletRow with
    address := TwoWallets.created.firstAddress
    derivationPath := derivationPath 0 }

/-- The org has its first wallet, seven transactions in. -/
def fundedWorld : ApiWorld :=
  { signerWorld with
    tables := { signerWorld.tables with
      base := { signerWorld.tables.base with
        seeds := [sealedSeed]
        wallets := [firstWallet]
        nonces := fun _ _ => some 7 } } }

def paymentBody : SignTransactionDto where
  txFields :=
    { chainId := 1
      toAddr := Signer.Sample.txFieldsJSON.toAddr
      value := Signer.Sample.txFieldsJSON.value
      data := Signer.Sample.txFieldsJSON.data }
  chainId_range := by decide
  toAddr_address := by decide
  value_decimal := by decide
  value_length := by decide
  data_calldata := by decide
  data_length := by decide

def payment : Incoming where
  endpoint := .signTransaction Sample.wallet.toText paymentBody
  request := stamped "POST".toList "/wallets/sign-transaction".toList
  ip := none
  throttle := fun _ => .ok ()
  validate := .ok ()

/-- The fields that are sent to the signer. -/
def paymentFields : BrokeTurnkey.TxFields where
  chainId := 1
  nonce := 7
  toAddr := paymentBody.txFields.toAddr
  value := paymentBody.txFields.value
  gasLimit := 50000
  maxFeePerGas := "15".toList
  maxPriorityFeePerGas := "1".toList
  data := paymentBody.txFields.data

/-- The signer answers the one request that it was run on. -/
def recordedPayment : ApiCmd → Choice → Bool
  | .base (.sidecar (.signTransaction _ _ key txFields)), .signed signature txHash =>
    key = keyMaterial sealedSeed firstWallet ∧ txFields = paymentFields ∧
      signature = Signer.Sample.signTxResponse.signature ∧
      txHash = Signer.Sample.signTxResponse.txHash
  | .base (.sidecar _), _ => false
  | .signHash _ _ _, _ => false
  | _, _ => true

def recordedGuard (recorded : ApiCmd → Choice → Bool) :
    Guard ApiCmd Choice ApiEvent ApiWorld where
  command := fun command choice _ => recorded command choice = true
  event := fun _ _ => False

instance (recorded : ApiCmd → Choice → Bool) : (recordedGuard recorded).Decides where
  command := fun command choice _ => inferInstanceAs (Decidable (recorded command choice = true))
  event := fun _ _ => isFalse id

theorem sidecar_answers : sidecar.Answers "/wallet/sign-transaction"
    (CryptoClientService.signTransactionBody (keyMaterial sealedSeed firstWallet) paymentFields)
    (.signTx Signer.Sample.signTxResponse) := by
  obtain ⟨outcome, s, history, hrun, hanswer⟩ := Completes.exists_of_complete
    (signer Signer.Sample.libraries) (honestVault TwoWallets.transit)
    (serveHTTP sidecar.lib sidecar.limits sidecar.serverToken
      (sidecar.posted "/wallet/sign-transaction" (CryptoClientService.signTransactionBody
        (keyMaterial sealedSeed firstWallet) paymentFields))) ()
    Signer.Sample.decrypts
    (fun final => final.1 = .ok (.json ⟨200, .signTx Signer.Sample.signTxResponse⟩))
    (by decide +kernel)
  have houtcome : outcome = .ok (.json ⟨200, .signTx Signer.Sample.signTxResponse⟩) :=
    of_decide_eq_true hanswer
  exact ⟨_, s, history, houtcome ▸ hrun, rfl⟩

theorem admits_of_recorded (command : ApiCmd) (choice : Choice) (w : ApiWorld)
    (h : (recordedGuard recordedPayment).command command choice w) :
    sidecar.guard.command command choice w := by
  cases command with
  | base command =>
    cases command with
    | sidecar request =>
      cases request with
      | signTransaction wallet origin key txFields =>
        cases choice with
        | signed signature txHash =>
          obtain ⟨rfl, rfl, rfl, rfl⟩ := of_decide_eq_true h
          exact ⟨_, sidecar_answers⟩
        | _ => trivial
      | _ => cases h
    | _ => trivial
  | signHash wallet key hash => cases h
  | _ => trivial

theorem walletRows_funded {lib : Libraries} {transit : Text → Option Text}
    (hkey : KeyAt lib transit sealedSeed 0 firstWallet.address) :
    WalletRows lib transit fundedWorld.tables.view := by
  constructor
  case keyed =>
    intro row hrow
    rw [List.mem_singleton.mp hrow]
    exact ⟨sealedSeed, 0, rfl, rfl, hkey⟩
  case dense =>
    intro org'
    by_cases horg : org = org'
    · subst horg
      have hpaths : paths org fundedWorld.tables.view = [derivationPath 0] := rfl
      rw [hpaths]
      exact List.Perm.refl _
    · have hpaths : paths org' fundedWorld.tables.view = [] := by
        have hnone : decide (firstWallet.orgId = org') = false := decide_eq_false horg
        show ([firstWallet].filter fun row => row.orgId = org').map _ = []
        rw [List.filter_cons_of_neg (by rw [hnone]; decide)]
        rfl
      rw [hpaths]
      exact List.Perm.refl _

/-- The guards let the call through, the signer signs and a provider takes the
    transaction. -/
def paymentMoves : List Choice :=
  List.replicate 10 Sample.run ++
  [Sample.answer (.quantity 41667), Sample.answer (.feeHistory [7] [[1]]),
    .done (Sample.freshId 1), Sample.run, Sample.run,
    .signed Signer.Sample.signTxResponse.signature Signer.Sample.signTxResponse.txHash,
    Sample.run, Sample.run, Sample.run, Sample.accepts]

theorem paid : ∃ p, Reach (edge config) sidecar.guard
    (edgePool config [.request payment] fundedWorld) p ∧
      ∃ entry ∈ p.history, (entry.command.submits).isSome = true := by
  obtain ⟨p, hreach, hp⟩ := Reach.exists_of_run (edge config) (recordedGuard recordedPayment)
    (edgePool config [.request payment] fundedWorld) (paymentMoves.map (Move.thread 0))
    (fun p => p.history.any fun entry => entry.command.submits.isSome) (by decide +kernel)
  exact ⟨p, hreach.mono admits_of_recorded fun _ _ h => h.elim, List.any_eq_true.mp hp⟩

end ApiSample

open ApiSample in
/-- The transaction that the key asks for is made by the signer and handed over. -/
theorem payments_accounted_transfer : ∃ p entry rawTx row seedRow key jsonTx fields tx raw,
    Reach (edge config) sidecar.guard (edgePool config [.request payment] fundedWorld) p ∧
      entry ∈ p.history ∧ entry.command.submits = some rawTx ∧
      Initiated config
        (Visits (edge config) sidecar.guard (edgePool config [.request payment] fundedWorld) p)
        p.state.tables.view [.request payment] entry.thread rawTx row ∧
      SignerMade sidecar p.state.tables.view rawTx row seedRow key jsonTx fields tx raw := by
  have hlib : Libraries.Faithful sidecar.lib := ⟨Signer.sample_decodes, Signer.sample_attaches⟩
  have hkey : KeyAt sidecar.lib sidecar.transit sealedSeed 0 firstWallet.address :=
    ⟨by decide, Signer.Sample.seed, Signer.Sample.key0, by decide, by decide⟩
  obtain ⟨p, hreach, entry, hentry, hsubmits⟩ := paid
  obtain ⟨rawTx, hrawTx⟩ := Option.isSome_iff_exists.mp hsubmits
  obtain ⟨row, seedRow, hinitiated, key, jsonTx, fields, tx, raw, hmade⟩ :=
    payments_accounted hlib TwoWallets.opensSealed (walletRows_funded hkey) hreach hentry hrawTx
  exact ⟨p, entry, rawTx, row, seedRow, key, jsonTx, fields, tx, raw, hreach, hentry, hrawTx,
    hinitiated, hmade⟩

end BrokeTurnkey
