import BrokeTurnkey.EdgeRecords

/-!
# Signatures over hashes

The sidecar signs any hash it is sent, so whether a typed message or a text may be signed
is decided in the API alone: by the allowlists and the switch of the configuration, by the
scope of the route, and by the org of the wallet.  In every run each hash that is sent
went through all three, and is sent with the key of a wallet of the caller's own org.
-/

namespace BrokeTurnkey

open Interaction

/-! ### What may be asked for -/

/-- The request asks for this hash to be signed with this wallet, and the configuration
    admits it. -/
inductive AsksFor (cfg : ApiConfig) : Endpoint → Text → Text → Prop where
  | typedData {walletId hash : Text} {body : Eip712SignRequest} :
      SigningService.assertEip712Allowed cfg body = .ok () →
      cfg.hashTypedData body.domain body.types body.primaryType body.message = .ok hash →
      AsksFor cfg (.signTyped walletId body) walletId hash
  | message {walletId message : Text} :
      SigningService.getBoolean cfg "PERSONAL_MESSAGE_SIGNING_ENABLED" false = true →
      AsksFor cfg (.signMessage walletId message) walletId (cfg.hashMessage message)

/-- The text names a wallet of the org, whose key this is: the seed of the org with the
    path of the wallet. -/
structure OwnKey (org : Uuid) (t : ApiTables) (walletId : Text) (wallet : Uuid)
    (key : KeyMaterial) (seedRow : OrganizationSeed) (row : Wallet) : Prop where
  seedStored : seedRow ∈ t.base.seeds
  seedOrg : seedRow.orgId = org
  stored : row ∈ t.base.wallets
  rowOrg : row.orgId = org
  named : Uuid.ofText walletId = some row.id
  wallet : wallet = row.id
  key : key = ⟨seedRow.encryptedSeed, seedRow.seedNonce, seedRow.encryptedDek, row.derivationPath⟩

/-- Nothing is sent to be signed but what is asked for, and with a key of the org.  The
    tables are those that are there in the end. -/
def SignsFor (cfg : ApiConfig) (org : Uuid) (t : ApiTables) (endpoint : Endpoint)
    (command : ApiCmd) : Prop :=
  ∀ wallet key hash, command = .signHash wallet key hash →
    ∃ walletId seedRow row, AsksFor cfg endpoint walletId hash ∧
      OwnKey org t walletId wallet key seedRow row

theorem SignsFor.of_effect {cfg : ApiConfig} {org : Uuid} {t : ApiTables} {endpoint : Endpoint}
    {command : ApiCmd} (h : command.effect ≠ some .signing) :
    SignsFor cfg org t endpoint command := by
  rintro wallet key hash rfl
  exact absurd rfl h

theorem SignsFor.base {cfg : ApiConfig} {org : Uuid} {t : ApiTables} {endpoint : Endpoint}
    (command : Cmd) : SignsFor cfg org t endpoint (.base command) := by
  rintro wallet key hash ⟨⟩

/-! ### The walk -/

/-- What the replies of a run tell of seeds and wallets, on the tables of its end. -/
structure TellsKeys (t : ApiTables)
    (Fact : (command : ApiCmd) → Except JsError command.Reply → Prop) : Prop where
  seed : ∀ orgId (row : OrganizationSeed),
    Fact (.base (.sql (.seedFindByOrgId orgId))) (.ok (some row)) →
      row ∈ t.base.seeds ∧ Uuid.ofText orgId = some row.orgId
  wallet : ∀ walletId (row : Wallet),
    Fact (.base (.sql (.walletFindById walletId))) (.ok (some row)) →
      row ∈ t.base.wallets ∧ Uuid.ofText walletId = some row.id

namespace SigningService

variable {cfg : ApiConfig} {org : Uuid} {t : ApiTables} {endpoint : Endpoint}
  {Fact : (command : ApiCmd) → Except JsError command.Reply → Prop} {walletId : Text}

/-- The seed and the wallet are of the org. -/
theorem loadWallet_given (hfact : TellsKeys t Fact) :
    (loadWallet org.toText walletId).Given Fact (SignsFor cfg org t endpoint) fun outcome =>
      ∀ seedRow row, outcome = .ok (seedRow, row) →
        OwnKey org t walletId row.id ⟨seedRow.encryptedSeed, seedRow.seedNonce,
          seedRow.encryptedDek, row.derivationPath⟩ seedRow row := by
  have hseed : (Js.sql (.seedFindByOrgId org.toText)).api.Given Fact (SignsFor cfg org t endpoint)
      fun outcome => ∀ row, outcome = .ok (some row) → row ∈ t.base.seeds ∧ row.orgId = org := by
    refine ⟨SignsFor.base _, fun reply hreply => ?_⟩
    cases reply with
    | error error => rintro row ⟨⟩
    | ok found =>
      rintro row ⟨⟩
      obtain ⟨hmem, hnamed⟩ := hfact.seed _ row hreply
      rw [Uuid.ofText_toText, Option.some.injEq] at hnamed
      exact ⟨hmem, hnamed.symm⟩
  have hwallet : (Js.sql (.walletFindById walletId)).api.Given Fact (SignsFor cfg org t endpoint)
      fun outcome => ∀ row, outcome = .ok (some row) →
        row ∈ t.base.wallets ∧ Uuid.ofText walletId = some row.id := by
    refine ⟨SignsFor.base _, fun reply hreply => ?_⟩
    cases reply with
    | error error => rintro row ⟨⟩
    | ok found =>
      rintro row ⟨⟩
      exact hfact.wallet _ row hreply
  refine Prog.Given.bind hseed (fun seedRow hseedRow => ?_) (by rintro _ _ _ _ ⟨⟩)
  refine Prog.Given.bind hwallet (fun row hrow => ?_) (by rintro _ _ _ _ ⟨⟩)
  cases seedRow with
  | none => rintro _ _ ⟨⟩
  | some seedRow =>
    cases row with
    | none => rintro _ _ ⟨⟩
    | some row =>
      simp only
      split
      · rintro _ _ ⟨⟩
      · rename_i horg
        rintro _ _ ⟨⟩
        obtain ⟨hseed, hseedOrg⟩ := hseedRow seedRow rfl
        obtain ⟨hmem, hnamed⟩ := hrow row rfl
        exact ⟨hseed, hseedOrg, hmem, Uuid.toText_injective (not_not.mp horg), hnamed, rfl, rfl⟩

/-- The hash is sent with the key of the wallet. -/
theorem signWith_signsFor {hash : Text} (hasks : AsksFor cfg endpoint walletId hash)
    (event : Text → AdminEvent) {seedRow : OrganizationSeed} {row : Wallet}
    (hown : OwnKey org t walletId row.id ⟨seedRow.encryptedSeed, seedRow.seedNonce,
      seedRow.encryptedDek, row.derivationPath⟩ seedRow row) :
    (signWith org.toText walletId hash event seedRow row).All (SignsFor cfg org t endpoint) := by
  refine Prog.All.bind (Prog.All.perform ?_) fun signature => ?_
  · rintro wallet key other ⟨⟩
    exact ⟨walletId, seedRow, row, hasks, hown⟩
  · exact Prog.All.bind (Prog.All.perform (.of_effect (by rintro ⟨⟩))) fun _ => trivial

theorem signEip712_given (hfact : TellsKeys t Fact) (body : Eip712SignRequest) :
    (signEip712 cfg org.toText walletId body).Given Fact
      (SignsFor cfg org t (.signTyped walletId body)) fun _ => True := by
  refine given_ofExcept_bind (fun _ hallowed => ?_) fun _ _ => trivial
  refine Prog.Given.bind (loadWallet_given hfact) (fun loaded hloaded => ?_) fun _ _ => trivial
  refine given_ofExcept_bind (fun hash hhash => ?_) fun _ _ => trivial
  exact .of_all (signWith_signsFor (.typedData hallowed hhash) _ (hloaded _ _ rfl))

theorem signPersonalMessage_given (hfact : TellsKeys t Fact) (message : Text) :
    (signPersonalMessage cfg org.toText walletId message).Given Fact
      (SignsFor cfg org t (.signMessage walletId message)) fun _ => True := by
  rw [signPersonalMessage]
  split
  · trivial
  · rename_i henabled
    refine Prog.Given.bind (loadWallet_given hfact) (fun loaded hloaded => ?_) fun _ _ => trivial
    exact .of_all (signWith_signsFor (.message (by simpa using henabled)) _ (hloaded _ _ rfl))

end SigningService

/-! ### One request -/

/-- Behind a hash that is sent stands a key with `wallet:sign`, that asks for the hash and
    whose org owns the wallet. -/
structure HashSigned (cfg : ApiConfig) (run : ApiWorld → Prop) (t : ApiTables)
    (incoming : Incoming) (wallet : Uuid) (key : KeyMaterial) (hash : Text)
    (stamp : StampVerifierGuard.Parsed) (apiKey : ApiKey) (walletId : Text)
    (seedRow : OrganizationSeed) (row : Wallet) : Prop where
  admitted : StampVerifierGuard.Admitted cfg run incoming.request stamp apiKey
  scope : ScopesGuard.wildcard ∈ apiKey.scopes ∨ Endpoint.walletSign ∈ apiKey.scopes
  asked : AsksFor cfg incoming.endpoint walletId hash
  own : OwnKey apiKey.orgId t walletId wallet key seedRow row

/-- The command sends no hash but such a one. -/
def HashAuthorised (cfg : ApiConfig) (run : ApiWorld → Prop) (t : ApiTables) (incoming : Incoming)
    (command : ApiCmd) : Prop :=
  ∀ wallet key hash, command = .signHash wallet key hash →
    ∃ stamp apiKey walletId seedRow row,
      HashSigned cfg run t incoming wallet key hash stamp apiKey walletId seedRow row

section Given

variable {cfg : ApiConfig} {run : ApiWorld → Prop} {t : ApiTables} {incoming : Incoming}
  {user : Option AuthUser} {Fact : (command : ApiCmd) → Except JsError command.Reply → Prop}

theorem HashAuthorised.of_effect {command : ApiCmd} (h : command.effect ≠ some .signing) :
    HashAuthorised cfg run t incoming command := by
  rintro wallet key hash rfl
  exact absurd rfl h

theorem HashAuthorised.base (command : Cmd) :
    HashAuthorised cfg run t incoming (.base command) := by
  rintro wallet key hash ⟨⟩

/-- A route that signs, for the org of a key that may. -/
theorem hashAuthorised_of_signsFor (hthrough : LetThrough cfg run incoming user)
    {operation : ApiCall}
    (hscope : incoming.endpoint.scopes = [Endpoint.walletSign])
    (hcall : ∀ org : Uuid, (operation.start cfg org.toText).Given Fact
      (SignsFor cfg org t incoming.endpoint) fun _ => True) :
    (callService cfg user operation).Given Fact (HashAuthorised cfg run t incoming)
      fun _ => True := by
  obtain ⟨stamp, apiKey, rfl, hadmitted, hholds⟩ := hthrough.holder hscope
  refine given_ofExcept_bind (fun orgId horg => ?_) fun _ _ => trivial
  have horgId : orgId = apiKey.orgId.toText := (Except.ok.inj horg).symm
  rw [horgId]
  refine Prog.Given.bind ((hcall apiKey.orgId).mono (fun command hsigns => ?_) fun _ h => h)
    (fun _ _ => trivial) fun _ _ => trivial
  intro wallet key hash hcommand
  obtain ⟨walletId, seedRow, row, hasks, hown⟩ := hsigns wallet key hash hcommand
  exact ⟨stamp, apiKey, walletId, seedRow, row, hadmitted, hholds, hasks, hown⟩

/-- What a handler sends to be signed. -/
theorem Endpoint.handler_hashAuthorised (hfact : StampVerifierGuard.Tells run Fact)
    (hkeys : TellsKeys t Fact) (hthrough : LetThrough cfg run incoming user) :
    (incoming.endpoint.handler cfg incoming.request user).Given Fact
      (HashAuthorised cfg run t incoming) fun _ => True := by
  by_cases hsigning : Effect.signing ∈ incoming.endpoint.effects
  · cases hendpoint : incoming.endpoint with
    | signTransaction walletId body =>
      refine given_ofExcept_bind (fun orgId _ => .of_all ?_) fun _ _ => trivial
      exact all_map (all_map (all_api HashAuthorised.base _))
    | signTyped walletId body =>
      refine hashAuthorised_of_signsFor hthrough (by rw [hendpoint]; rfl) fun org => ?_
      rw [hendpoint]
      exact Prog.Given.bind (SigningService.signEip712_given hkeys body) (fun _ _ => trivial)
        fun _ _ => trivial
    | signMessage walletId message =>
      refine hashAuthorised_of_signsFor hthrough (by rw [hendpoint]; rfl) fun org => ?_
      rw [hendpoint]
      exact Prog.Given.bind (SigningService.signPersonalMessage_given hkeys message)
        (fun _ _ => trivial) fun _ _ => trivial
    | _ =>
      rw [hendpoint] at hsigning
      simp [Endpoint.effects] at hsigning
  · -- a route without the effect sends nothing
    refine (Endpoint.handler_given hfact hthrough).mono (fun command hcovers => ?_) fun _ h => h
    exact .of_effect fun heffect => hsigning (hcovers .signing heffect).mem

theorem Incoming.handle_hashAuthorised (hfact : StampVerifierGuard.Tells run Fact)
    (hkeys : TellsKeys t Fact) :
    (incoming.handle cfg).Given Fact (HashAuthorised cfg run t incoming) fun _ => True := by
  refine Incoming.handle_given hfact (fun command hissued => ?_)
    (fun user hthrough => Endpoint.handler_hashAuthorised hfact hkeys hthrough) fun _ => trivial
  cases hissued with
  | now => exact .of_effect (by rintro ⟨⟩)
  | lookup hparsed => exact .of_effect (by rintro ⟨⟩)
  | touch lastUsedAt hadmitted => exact .of_effect (by rintro ⟨⟩)

end Given

/-! ### Every run -/

/-- A command that sends no hash. -/
def ApiCmd.SendsNone (command : ApiCmd) : Prop :=
  ∀ wallet key hash, command ≠ .signHash wallet key hash

theorem ApiCmd.sendsNone_base (command : Cmd) : (ApiCmd.base command).SendsNone := by
  rintro wallet key hash ⟨⟩

/-- What runs in the background sends no hash. -/
theorem spawned_sendsNone {cfg : ApiConfig} {command : ApiCmd} {thread : Api Response}
    (hthread : thread ∈ (edge cfg).spawns command) : thread.All ApiCmd.SendsNone := by
  obtain ⟨job, hjob, rfl⟩ := List.mem_map.mp hthread
  cases command with
  | base command =>
    cases command with
    | fork job =>
      rw [List.mem_singleton.mp hjob]
      exact all_map (all_map (all_api ApiCmd.sendsNone_base _))
    | _ => cases hjob
  | fork job =>
    rw [List.mem_singleton.mp hjob]
    cases job with
    | touch apiKeyId lastUsedAt =>
      refine all_map (all_map (Prog.All.tryCatch (Prog.All.perform ?_) fun _ => trivial))
      rintro wallet key hash ⟨⟩
  | _ => cases hjob

section Runs

variable {cfg : ApiConfig} {arrivals : List Arrival} {w : ApiWorld} {p : EdgePool}

/-- A wallet that was read in a run is there in the end. -/
theorem wallet_of_answered {guard : Guard ApiCmd Choice ApiEvent ApiWorld}
    (hreach : Reach (edge cfg) guard (edgePool cfg arrivals w) p) {i : Nat} {walletId : Text}
    {row : Wallet} (h : Answered (edge cfg) guard (edgePool cfg arrivals w) p i
      (.base (.sql (.walletFindById walletId))) (.ok (some row))) :
    row ∈ p.state.tables.base.wallets ∧ Uuid.ofText walletId = some row.id := by
  obtain ⟨choice, s, s', ⟨q, _, rfl, hrest⟩, _, hexec⟩ := h.visits
  obtain ⟨base, hbase, _⟩ := ApiCmd.exec_base hexec
  obtain ⟨hnamed, hfound⟩ := exec_walletFindById hbase
  rw [exec_query rfl hbase] at hfound
  have hmem : row ∈ q.state.tables.base.wallets := List.mem_of_find?_eq_some hfound
  exact ⟨(advance_of_rest hreach.unguarded hrest.unguarded).wallets.subset hmem, hnamed⟩

/-- What was read in a run is there in the end. -/
theorem tellsKeys_of_answered {guard : Guard ApiCmd Choice ApiEvent ApiWorld}
    (hreach : Reach (edge cfg) guard (edgePool cfg arrivals w) p) (i : Nat) :
    TellsKeys p.state.tables (Answered (edge cfg) guard (edgePool cfg arrivals w) p i) := by
  constructor
  case seed =>
    intro orgId row h
    obtain ⟨choice, s, s', ⟨q, _, rfl, hrest⟩, _, hexec⟩ := h.visits
    obtain ⟨base, hbase, _⟩ := ApiCmd.exec_base hexec
    obtain ⟨hnamed, hfound⟩ := exec_seedFindByOrgId hbase
    rw [exec_query rfl hbase] at hfound
    have hmem : row ∈ q.state.tables.base.seeds := List.mem_of_find?_eq_some hfound
    exact ⟨(advance_of_rest hreach.unguarded hrest.unguarded).seeds.subset hmem, hnamed⟩
  case wallet =>
    intro walletId row h
    exact wallet_of_answered hreach h

/-- **Every signature over a hash is authorised.**  In every run of the API, whatever
    arrives and however it interleaves, a hash is sent to the sidecar only by a request
    that carries the stamp of a key with `wallet:sign`, that asks for this very hash where
    the configuration admits it, and with the key of a wallet of the org of the stamp. -/
theorem hash_signatures_authorised
    (hreach : Reach (edge cfg) .any (edgePool cfg arrivals w) p) {entry : Entry ApiCmd Choice}
    (hentry : entry ∈ p.history) {wallet : Uuid} {key : KeyMaterial} {hash : Text}
    (hcommand : entry.command = .signHash wallet key hash) :
    ∃ incoming, arrivals[entry.thread]? = some (.request incoming) ∧
      ∃ stamp apiKey walletId seedRow row,
        HashSigned cfg (EdgeRun cfg arrivals w p) p.state.tables incoming wallet key hash stamp
          apiKey walletId seedRow row := by
  have hlength : (edgePool cfg arrivals w).threads.length = arrivals.length := List.length_map ..
  rcases (Reach.origin rfl hreach).1 entry hentry with hfirst | ⟨_, _, thread, hspawned, hissues⟩
  · rw [hlength] at hfirst
    have hat : arrivals[entry.thread]? = some arrivals[entry.thread] :=
      List.getElem?_eq_getElem hfirst
    cases harrival : arrivals[entry.thread] with
    | request incoming =>
      rw [harrival] at hat
      have hauthorised := (Reach.given rfl hreach (edgePool_thread hat)
        (incoming.handle_hashAuthorised tells_of_answered
          (tellsKeys_of_answered hreach entry.thread))).1 entry hentry rfl
      exact ⟨incoming, hat, hauthorised wallet key hash hcommand⟩
    | monitor cycles =>
      rw [harrival] at hat
      have hnone : ((Arrival.monitor cycles).start cfg).All ApiCmd.SendsNone :=
        all_map (all_map (all_api ApiCmd.sendsNone_base _))
      have hsends := (Reach.given rfl hreach (edgePool_arrival hat) (.of_all hnone)).1 entry hentry rfl
      exact absurd hcommand (hsends wallet key hash)
  · exact absurd hcommand (Prog.All.of_issues hissues (spawned_sendsNone hspawned) wallet key hash)

end Runs

namespace ApiSample

/-- The deployment with every switch on. -/
def switchedOn : ApiConfig := { config with env := fun _ => some "true".toList }

/-- The org has a wallet, and its key may sign. -/
def signerWorld : ApiWorld :=
  { world [key [Endpoint.walletSign]] with
    tables := { (world [key [Endpoint.walletSign]]).tables with base := Sample.world.tables } }

/-- The key asks for a text to be signed. -/
def greeting : Incoming where
  endpoint := .signMessage Sample.wallet.toText "hello".toList
  request := stamped "POST".toList "/wallets/sign-message".toList
  ip := none
  throttle := fun _ => .ok ()
  validate := .ok ()

/-- A hash was sent. -/
def isSignHash (command : ApiCmd) : Bool :=
  match command with
  | .signHash _ _ _ => true
  | _ => false

theorem isSignHash_iff {command : ApiCmd} (h : isSignHash command = true) :
    ∃ wallet key hash, command = .signHash wallet key hash := by
  cases command with
  | signHash wallet key hash => exact ⟨wallet, key, hash, rfl⟩
  | _ => cases h

theorem greeted : ∃ p,
    Reach (edge switchedOn) .any (edgePool switchedOn [.request greeting] signerWorld) p ∧
      ∃ entry ∈ p.history, isSignHash entry.command = true := by
  obtain ⟨p, hreach, hp⟩ := Reach.exists_of_run (edge switchedOn) .any
    (edgePool switchedOn [.request greeting] signerWorld)
    (((List.replicate 6 Sample.run) ++ [.signed "signature".toList [], Sample.run]).map
      (Move.thread 0))
    (fun p => p.history.any fun entry => isSignHash entry.command) (by decide)
  exact ⟨p, hreach, List.any_eq_true.mp hp⟩

end ApiSample

open ApiSample in
/-- A text is signed for a key with `wallet:sign`. -/
theorem hash_signatures_authorised_greeting : ∃ p entry wallet key hash stamp apiKey walletId
    seedRow row,
    Reach (edge switchedOn) .any (edgePool switchedOn [.request greeting] signerWorld) p ∧
      entry ∈ p.history ∧ entry.command = .signHash wallet key hash ∧
      HashSigned switchedOn (EdgeRun switchedOn [.request greeting] signerWorld p)
        p.state.tables greeting wallet key hash stamp apiKey walletId seedRow row := by
  obtain ⟨p, hreach, entry, hentry, hsends⟩ := greeted
  obtain ⟨wallet, key, hash, hcommand⟩ := isSignHash_iff hsends
  obtain ⟨incoming, hat, stamp, apiKey, walletId, seedRow, row, hsigned⟩ :=
    hash_signatures_authorised hreach hentry hcommand
  have hmem := List.mem_of_getElem? hat
  rw [List.mem_singleton, Arrival.request.injEq] at hmem
  exact ⟨p, entry, wallet, key, hash, stamp, apiKey, walletId, seedRow, row, hreach, hentry,
    hcommand, hmem ▸ hsigned⟩

end BrokeTurnkey
