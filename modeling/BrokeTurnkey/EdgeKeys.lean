import BrokeTurnkey.EdgeRecords

/-!
# Where keys come from

Key ids are drawn and row ids are not among the drawn ones, in every state that is
reached from empty tables.  So the lookup of a key by its row id finds none, no stamp
lets a key be registered, and every key there is was registered by a request that
presented the bootstrap token of the org it belongs to.
-/

namespace BrokeTurnkey

open Interaction

/-! ### Drawn ids -/

/-- Key ids come from the drawn ids, and row ids do not. -/
structure DrawnIds (w : ApiWorld) : Prop where
  keyIds : ∀ key ∈ w.tables.apiKeys, ∃ id ∈ w.drawn, key.keyId = id.toText
  rowIds : ∀ key ∈ w.tables.apiKeys, key.id ∉ w.drawn

theorem DrawnIds.independent {w : ApiWorld} (h : DrawnIds w) : IndependentIds w.tables := by
  intro key hkey other hother heq
  obtain ⟨id, hdrawn, hid⟩ := h.keyIds key hkey
  have hsame : id = other.id := Uuid.toText_injective (hid.symm.trans heq)
  exact h.rowIds other hother (hsame ▸ hdrawn)

section Exec

variable {command : ApiCmd} {choice : Choice} {w w' : ApiWorld}
  {reply : Except JsError command.Reply}

/-- Drawn ids stay drawn. -/
theorem ApiCmd.exec_drawn (hexec : command.exec choice w = some (reply, w')) :
    w.drawn ⊆ w'.drawn := by
  cases exec_keys hexec with
  | kept _ hdrawn => exact hdrawn ▸ List.Subset.refl _
  | drawn _ hdrawn => exact hdrawn ▸ List.subset_cons_self _ _
  | inserted _ _ _ hdrawn => exact hdrawn ▸ List.Subset.refl _
  | updated _ hdrawn => exact hdrawn ▸ List.Subset.refl _

theorem ApiCmd.exec_randomUUID_drawn {id : Uuid} {w w' : ApiWorld} {choice : Choice}
    (hexec : ApiCmd.randomUUID.exec choice w = some (.ok id, w')) : id ∈ w'.drawn := by
  cases choice with
  | done drawn =>
    simp only [exec] at hexec
    split at hexec
    · cases hexec
      exact .head _
    · cases hexec
  | _ => cases hexec

/-- A key that is inserted has a drawn key id. -/
theorem DrawnIds.exec (h : DrawnIds w) (hexec : command.exec choice w = some (reply, w'))
    (hinsert : ∀ data, command = .sql (.keyCreate data) →
      ∃ id ∈ w.drawn, data.keyId = id.toText) : DrawnIds w' := by
  cases ApiCmd.exec_keys hexec with
  | kept hkeys hdrawn => exact ⟨hkeys ▸ hdrawn ▸ h.keyIds, hkeys ▸ hdrawn ▸ h.rowIds⟩
  | @drawn id htables hdrawn hfresh =>
    constructor
    case keyIds =>
      intro key hkey
      obtain ⟨other, hother, hid⟩ := h.keyIds key (htables ▸ hkey)
      exact ⟨other, hdrawn ▸ List.mem_cons_of_mem _ hother, hid⟩
    case rowIds =>
      intro key hkey hmem
      rw [htables] at hkey
      rcases List.mem_cons.mp (hdrawn ▸ hmem) with hid | hold
      · exact hfresh key hkey hid
      · exact h.rowIds key hkey hold
  | @inserted data id org _ hunused hkeys hdrawn =>
    constructor
    case keyIds =>
      intro key hkey
      rw [hdrawn]
      rcases List.mem_append.mp (hkeys ▸ hkey) with hold | hnew
      · exact h.keyIds key hold
      · rw [List.mem_singleton.mp hnew]
        exact hinsert data rfl
    case rowIds =>
      intro key hkey
      rw [hdrawn]
      rcases List.mem_append.mp (hkeys ▸ hkey) with hold | hnew
      · exact h.rowIds key hold
      · rw [List.mem_singleton.mp hnew]
        exact hunused
  | @updated rowId fields hkeys hdrawn =>
    have hsame : ∀ key ∈ w'.tables.apiKeys, ∃ row ∈ w.tables.apiKeys,
        key.id = row.id ∧ key.keyId = row.keyId := by
      intro key hkey
      obtain ⟨row, hrow, rfl⟩ := List.mem_map.mp (hkeys ▸ hkey)
      have hfixed := @fixed_updateKey rowId fields row
      simp only [ApiKey.fixed, Prod.mk.injEq] at hfixed
      exact ⟨row, hrow, hfixed.1, hfixed.2.2.1⟩
    constructor
    case keyIds =>
      intro key hkey
      obtain ⟨row, hrow, _, hid⟩ := hsame key hkey
      rw [hdrawn, hid]
      exact h.keyIds row hrow
    case rowIds =>
      intro key hkey
      obtain ⟨row, hrow, hid, _⟩ := hsame key hkey
      rw [hdrawn, hid]
      exact h.rowIds row hrow

end Exec

/-! ### Runs -/

/-- A revocation inserts no key. -/
theorem AuthService.revokeApiKey_inserts_none (orgId keyId : Text) :
    (revokeApiKey orgId keyId).All fun command => ∀ data, command ≠ .sql (.keyCreate data) := by
  refine Prog.All.bind (Prog.All.perform (by rintro _ ⟨⟩)) fun apiKey => ?_
  split
  · trivial
  · refine Prog.All.unless (Prog.All.bind (Prog.All.perform (by rintro _ ⟨⟩)) fun now => ?_)
    refine Prog.All.bind (Prog.All.perform (by rintro _ ⟨⟩)) fun _ => ?_
    exact Prog.All.perform (by rintro _ ⟨⟩)

/-- A request that arrived registered the key, with the bootstrap token that its org had
    stored. -/
def Rooted (cfg : ApiConfig) (run : ApiWorld → Prop) (arrivals : List Arrival)
    (key : ApiKey) : Prop :=
  ∃ incoming body, .request incoming ∈ arrivals ∧ incoming.endpoint = .registerApiKey body ∧
    key.name = body.name ∧ key.publicKey = body.publicKey ∧
    ∃ orgId token hash org, Bootstrapped cfg run incoming.request orgId token hash org ∧
      org.id = key.orgId

theorem Rooted.mono {cfg : ApiConfig} {run run' : ApiWorld → Prop} {arrivals : List Arrival}
    {key : ApiKey} (h : Rooted cfg run arrivals key) (himp : ∀ w, run w → run' w) :
    Rooted cfg run' arrivals key := by
  obtain ⟨incoming, body, harrived, hendpoint, hname, hkey, orgId, token, hash, org, hboot, horg⟩ := h
  obtain ⟨w, hw, hmem⟩ := hboot.found
  exact ⟨incoming, body, harrived, hendpoint, hname, hkey, orgId, token, hash, org,
    { hboot with found := ⟨w, himp w hw, hmem⟩ }, horg⟩

/-- An update leaves the name, the public key and the org of a key. -/
theorem Rooted.updateRow {cfg : ApiConfig} {run : ApiWorld → Prop} {arrivals : List Arrival}
    {key : ApiKey} (h : Rooted cfg run arrivals key) (rowId : Uuid) (fields : ApiKeyUpdate) :
    Rooted cfg run arrivals (ApiKeyRepository.updateRow rowId fields key) := by
  rw [ApiKeyRepository.updateRow]
  split
  · exact h
  · exact h

section Runs

variable {cfg : ApiConfig} {arrivals : List Arrival} {w : ApiWorld} {q : EdgePool}

/-- An id that was drawn for a thread is among the drawn ones. -/
theorem drawn_of_answered {i : Nat} {id : Uuid}
    (h : Answered (edge cfg) .any (edgePool cfg arrivals w) q i .randomUUID (.ok id)) :
    id ∈ q.state.drawn := by
  obtain ⟨r, r', choice, next, _, _, _, _, hexec, hrest⟩ := h
  have hmem : id ∈ r'.state.drawn := ApiCmd.exec_randomUUID_drawn hexec
  have hkept := Reach.kept_or (fun w w' : ApiWorld => w.drawn ⊆ w'.drawn) (fun _ => False)
    (fun _ => List.Subset.refl _) (fun h h' => List.Subset.trans h h')
    (fun _ _ _ _ _ _ hexec => ApiCmd.exec_drawn hexec) ?_ hrest
  · exact (hkept.resolve_right fun ⟨_, _, hfalse⟩ => hfalse) hmem
  · rintro event w w' ⟨⟩
    cases event with
    | tick duration => exact List.Subset.refl _
    | evict keep => exact List.Subset.refl _

/-- A key is about to be inserted by a request that registers it. -/
theorem registered_of_pending (hreach : Reach (edge cfg) .any (edgePool cfg arrivals w) q)
    {i : Nat} {data : NewApiKey} {next : Except JsError ApiKey → Api Response}
    (hcall : q.threads[i]? = some (.call (.sql (.keyCreate data)) next)) :
    ∃ incoming body, .request incoming ∈ arrivals ∧ incoming.endpoint = .registerApiKey body ∧
      Registers cfg (EdgeRun cfg arrivals w q) incoming.request (· ∈ q.state.drawn) body
        (.sql (.keyCreate data)) := by
  obtain ⟨incoming, hat, hlicensed⟩ := licensed_of_pending hreach hcall rfl (by decide)
  have hthread : (edgePool cfg arrivals w).threads[i]? = some (incoming.handle cfg) :=
    edgePool_thread hat
  have heffects := hlicensed.mem
  cases hendpoint : incoming.endpoint with
  | registerApiKey body =>
    refine ⟨incoming, body, List.mem_of_getElem? hat, hendpoint, ?_⟩
    refine Reach.pending rfl hreach hthread (Q := fun _ => True) ?_ hcall
    refine Incoming.handle_given tells_of_answered (fun command hissued => ?_)
      (fun user hthrough => ?_) fun _ => trivial
    · cases hissued with
      | _ => exact .reads rfl
    · rw [hendpoint]
      refine Prog.Given.bind (ApiKeysController.registerApiKey_given tells_of_answered
        (fun id hid => drawn_of_answered hid) hthrough.identified body) ?_ ?_
      · exact fun _ _ => trivial
      · exact fun _ _ => trivial
  | revokeApiKey keyId =>
    have hnone := Reach.pending (P := fun command => ∀ data, command ≠ .sql (.keyCreate data)) rfl
      hreach hthread (Q := fun _ => True) ?_ hcall
    · exact absurd rfl (hnone data)
    · refine Incoming.handle_given tells_of_answered (fun command hissued => ?_)
        (fun user _ => ?_) fun _ => trivial
      · rintro _ rfl
        cases hissued
      · rw [hendpoint]
        refine given_ofExcept_bind (fun orgId _ => .of_all (all_map (all_map ?_))) fun _ _ => trivial
        exact AuthService.revokeApiKey_inserts_none orgId keyId
  | _ =>
    rw [hendpoint] at heffects
    simp [Endpoint.effects] at heffects

/-- Where ids are independent, only a bootstrap token lets a key be registered. -/
theorem bootstrapped_of_pending (hreach : Reach (edge cfg) .any (edgePool cfg arrivals w) q)
    (hids : IndependentIds q.state.tables) {request : HttpRequest} {orgId : Text}
    (h : MayRegister cfg (EdgeRun cfg arrivals w q) request orgId) :
    ∃ token hash org, Bootstrapped cfg (EdgeRun cfg arrivals w q) request orgId token hash org := by
  cases h with
  | bootstrap hpresented => exact ⟨_, _, _, hpresented⟩
  | @registrar stamp key row hregistrar =>
    -- both rows are still there, so that one has the row id of the other for its key id
    have hlater : ∀ {other : ApiKey}, (∃ w', EdgeRun cfg arrivals w q w' ∧
        other ∈ w'.tables.apiKeys) → ∃ later ∈ q.state.tables.apiKeys, other.Advance later := by
      rintro other ⟨_, ⟨r, _, rfl, hrest⟩, hmem⟩
      exact (advance_of_rest hreach hrest).apiKeys.mem hmem
    obtain ⟨w', hw', hfind⟩ := hregistrar.admitted.found
    obtain ⟨key', hkey', hkeyid⟩ := hlater ⟨w', hw', List.mem_of_find?_eq_some hfind⟩
    obtain ⟨row', hrow', hrowid⟩ := hlater hregistrar.found
    have hid : key'.id = key.id := (congrArg ApiKey.id hkeyid.same :)
    have hnamed : row'.keyId = row.keyId := (congrArg ApiKey.keyId hrowid.same :)
    refine absurd ?_ (hids row' hrow' key' hkey')
    rw [hnamed, hid, hregistrar.named]

/-- A key that is about to be inserted has a drawn key id, and its row will be rooted. -/
theorem rooted_of_pending (hreach : Reach (edge cfg) .any (edgePool cfg arrivals w) q)
    {i : Nat} {data : NewApiKey} {next : Except JsError ApiKey → Api Response}
    (hids : DrawnIds q.state) (hcall : q.threads[i]? = some (.call (.sql (.keyCreate data)) next)) :
    (∃ keyId ∈ q.state.drawn, data.keyId = keyId.toText) ∧ ∀ id org now,
      Uuid.ofText data.orgId = some org → Rooted cfg (EdgeRun cfg arrivals w q) arrivals
        (ApiKeyRepository.newRow data id org now) := by
  obtain ⟨incoming, body, harrived, hendpoint, hregisters⟩ := registered_of_pending hreach hcall
  cases hregisters with
  | reads hnone => cases hnone
  | @inserts _ keyId hmay hname hpublic hdrawn hid =>
    refine ⟨⟨keyId, hdrawn, hid⟩, fun id org now hparse => ?_⟩
    obtain ⟨token, hash, org', hboot⟩ := bootstrapped_of_pending hreach hids.independent hmay
    have hnamed := hboot.named
    rw [hparse, Option.some.injEq] at hnamed
    exact ⟨incoming, body, harrived, hendpoint, hname, hpublic, data.orgId, token, hash, org',
      hboot, hnamed.symm⟩

/-- **Only bootstrap tokens make keys.**  In every state that the API reaches from empty
    tables, whatever arrives and however it interleaves, every key was registered by a
    request that presented a token whose hash the key's org had stored; no stamp, of
    whatever scopes, has registered one. -/
theorem keys_bootstrapped {clock : Int} {violation : JsError} {p : EdgePool}
    (hreach : Reach (edge cfg) .any (edgePool cfg arrivals (ApiWorld.empty clock violation)) p) :
    ∀ key ∈ p.state.tables.apiKeys,
      Rooted cfg (EdgeRun cfg arrivals (ApiWorld.empty clock violation) p) arrivals key := by
  have hkept : DrawnIds p.state ∧ ∀ key ∈ p.state.tables.apiKeys,
      Rooted cfg (EdgeRun cfg arrivals (ApiWorld.empty clock violation) p) arrivals key := by
    refine Reach.forward (J := fun q => DrawnIds q.state ∧ ∀ key ∈ q.state.tables.apiKeys,
      Rooted cfg (EdgeRun cfg arrivals (ApiWorld.empty clock violation) p) arrivals key)
        ?_ ?_ ?_ hreach
    · exact ⟨⟨fun _ h => absurd h List.not_mem_nil, fun _ h => absurd h List.not_mem_nil⟩,
        fun _ h => absurd h List.not_mem_nil⟩
    · rintro q q' i choice command next reply hq ⟨hids, hrooted⟩ hcall hadm hstep hexec _ _ hq'
      have hrest : Reach (edge cfg) .any q p := Reach.trans (.move .refl hadm hstep) hq'
      constructor
      · refine hids.exec hexec ?_
        rintro data rfl
        exact (rooted_of_pending hq hids hcall).1
      · cases ApiCmd.exec_keys hexec with
        | kept hkeys => exact hkeys ▸ hrooted
        | drawn htables => exact htables ▸ hrooted
        | @updated rowId fields hkeys =>
          intro key hkey
          obtain ⟨row, hrow, rfl⟩ := List.mem_map.mp (hkeys ▸ hkey)
          exact (hrooted row hrow).updateRow rowId fields
        | @inserted data id org hparse _ hkeys =>
          intro key hkey
          rcases List.mem_append.mp (hkeys ▸ hkey) with hold | hnew
          · exact hrooted key hold
          · rw [List.mem_singleton.mp hnew]
            have hnew := (rooted_of_pending hq hids hcall).2 id org q.state.clock hparse
            exact hnew.mono fun _ hvisits => hvisits.mono hrest
    · rintro q q' event _ ⟨hids, hrooted⟩ _ hexec _ _ _
      rw [← Option.some.inj hexec]
      cases event with
      | tick duration => exact ⟨⟨hids.keyIds, hids.rowIds⟩, hrooted⟩
      | evict keep => exact ⟨⟨hids.keyIds, hids.rowIds⟩, hrooted⟩
  exact hkept.2

end Runs

namespace ApiSample

/-- The drawn id that is the bootstrap token. -/
def drawnToken : Uuid := Sample.freshId 5

/-- The drawn id of the first key. -/
def drawnKey : Uuid := Sample.freshId 7

/-- A request with these headers and no body. -/
def sent (path : Text) (xStamp xBootstrapToken : Option Text) (endpoint : Endpoint) : Incoming where
  endpoint := endpoint
  request := { method := "POST".toList, path, xStamp, xBootstrapToken, rawBody := none }
  ip := none
  throttle := fun _ => .ok ()
  validate := .ok ()

/-- A request with the stamp of the first key. -/
def firstUse (path : Text) (endpoint : Endpoint) : Incoming :=
  sent path (some (Base64url.encode signature ++ ".7.".toList ++ drawnKey.toText)) none endpoint

/-- An organization is created and registers its first key, which makes a request. -/
def founding (use : Incoming) : List Arrival :=
  [.request (sent "/organizations".toList none none
      (.createOrganization ⟨"Org".toList, "org".toList⟩)),
    .request (sent "/api-keys".toList none (some drawnToken.toText)
      (.registerApiKey ⟨"admin".toList, publicKey, none⟩)),
    .request use]

def foundingMoves : List (Move Choice ApiEvent) :=
  [Sample.run, .done org, Sample.run,
    .created ⟨"seed".toList, "nonce".toList, "dek".toList, "0xone".toList⟩, Sample.run,
    .done (Sample.freshId 3), Sample.run, .done drawnToken, Sample.run].map (Move.thread 0) ++
  [Sample.run, Sample.run, Sample.run, .done drawnKey, .done keyRow, Sample.run,
    Sample.run].map (Move.thread 1) ++
  (List.replicate 5 Sample.run).map (Move.thread 2)

/-- The key lists the wallets of its org. -/
def listing : Incoming := firstUse "/wallets".toList .listWallets

theorem founded : ∃ p,
    Reach (edge config) .any
      (edgePool config (founding listing) (ApiWorld.empty 0 wrappedViolation)) p ∧
    (∃ key ∈ p.state.tables.apiKeys, key.scopes = AuthService.bootstrapDefaultScopes) ∧
    ∃ response, p.threads[2]? = some (.ret response) := by
  obtain ⟨p, hreach, hp⟩ := Reach.exists_of_run (edge config) .any
    (edgePool config (founding listing) (ApiWorld.empty 0 wrappedViolation)) foundingMoves
    (fun p => p.threads[2]?.any answered && p.state.tables.apiKeys.any fun row =>
      decide (row.scopes = AuthService.bootstrapDefaultScopes)) (by decide)
  obtain ⟨hanswered, hscopes⟩ := Bool.and_eq_true_iff.mp hp
  obtain ⟨thread, hthread, hret⟩ := (Option.any_eq_true _ _).mp hanswered
  obtain ⟨response, rfl⟩ := answered_iff.mp hret
  obtain ⟨key, hkey, hdefault⟩ := List.any_eq_true.mp hscopes
  exact ⟨p, hreach, ⟨key, hkey, of_decide_eq_true hdefault⟩, response, hthread⟩

end ApiSample

open ApiSample in
/-- The first key of an organization. -/
theorem keys_bootstrapped_founding : ∃ p,
    Reach (edge config) .any
      (edgePool config (founding listing) (ApiWorld.empty 0 wrappedViolation)) p ∧
      ∃ key ∈ p.state.tables.apiKeys,
        Rooted config (EdgeRun config (founding listing) (ApiWorld.empty 0 wrappedViolation) p)
          (founding listing) key := by
  obtain ⟨p, hreach, ⟨key, hkey, _⟩, _⟩ := founded
  exact ⟨p, hreach, key, hkey, keys_bootstrapped hreach key hkey⟩

/-- **No request passes for a wildcard.**  In every run from empty tables, a request to a
    route that needs a scope and that is answered carries the stamp of a key that holds
    this very scope. -/
theorem answered_in_scope {cfg : ApiConfig} {arrivals : List Arrival}
    {clock : Int} {violation : JsError} {p : EdgePool}
    (hreach : Reach (edge cfg) .any
      (edgePool cfg arrivals (ApiWorld.empty clock violation)) p) {i : Nat}
    {incoming : Incoming} (hat : arrivals[i]? = some (.request incoming)) {scope : Text}
    (hscope : incoming.endpoint.scopes = [scope]) {response : Response}
    (hret : p.threads[i]? = some (.ret response)) :
    ∃ stamp key, StampVerifierGuard.Admitted cfg
      (EdgeRun cfg arrivals (ApiWorld.empty clock violation) p) incoming.request stamp key ∧
      scope ∈ key.scopes ∧ ScopesGuard.wildcard ∉ key.scopes := by
  obtain ⟨user, hthrough⟩ := (Reach.given rfl hreach (edgePool_thread hat)
    (incoming.handle_through cfg arrivals (ApiWorld.empty clock violation) p i)).2
      (.ok response) hret response rfl
  obtain ⟨stamp, key, _, hadmitted, hholds⟩ := hthrough.holder hscope
  obtain ⟨_, ⟨q, hq, rfl, _⟩, hfound⟩ := hadmitted.found
  have hsound := keys_sound hq key (List.mem_of_find?_eq_some hfound)
  exact ⟨stamp, key, hadmitted, hholds.resolve_left hsound.no_wildcard, hsound.no_wildcard⟩

open ApiSample in
/-- The first key reads the wallets. -/
theorem answered_in_scope_founding : ∃ p,
    Reach (edge config) .any
      (edgePool config (founding listing) (ApiWorld.empty 0 wrappedViolation)) p ∧
      ∃ stamp key, StampVerifierGuard.Admitted config
        (EdgeRun config (founding listing) (ApiWorld.empty 0 wrappedViolation) p)
          listing.request stamp key ∧
        Endpoint.walletRead ∈ key.scopes ∧ ScopesGuard.wildcard ∉ key.scopes := by
  obtain ⟨p, hreach, _, response, hret⟩ := founded
  exact ⟨p, hreach, answered_in_scope hreach (i := 2) rfl rfl hret⟩

end BrokeTurnkey
