import BrokeTurnkey.Api.Advances
import BrokeTurnkey.EdgeScopes

/-!
# Records of the API

Every command of every run is lawful.  So no run takes anything back: rows stay, what
they were inserted with stays, and what was revoked or deleted stays so.  A request that
carries the stamp of a revoked key is then refused, now and in every later run, and from
empty tables the keys of every state have known scopes only.
-/

namespace BrokeTurnkey

open Interaction

/-! ### Lawful threads -/

section Lawful

variable {cfg : ApiConfig}

theorem ApiCall.start_lawful (orgId : Text) (operation : ApiCall) :
    (operation.start cfg orgId).All (ApiCmd.Lawful cfg) :=
  operation.start_permitted.mono fun _ h => h.lawful

theorem callService_lawful (user : Option AuthUser) (operation : ApiCall) :
    (callService cfg user operation).All (ApiCmd.Lawful cfg) := by
  refine all_ofExcept_bind fun orgId _ => ?_
  exact all_map (operation.start_lawful orgId)

theorem OrganizationsService.create_lawful (name slug : Text) :
    (create cfg name slug).All (ApiCmd.Lawful cfg) := by
  refine Prog.All.bind (Prog.All.perform trivial) fun found => ?_
  cases found with
  | some org => trivial
  | none =>
    refine Prog.All.bind (Prog.All.perform trivial) fun org => ?_
    refine Prog.All.bind (all_api (fun _ => trivial) _) fun wallet => ?_
    refine Prog.All.bind (Prog.All.bind (Prog.All.perform trivial) fun token => ?_) fun _ => trivial
    exact Prog.All.bind (Prog.All.perform trivial) fun _ => trivial

theorem ApiKeysController.registerApiKey_lawful (body : RegisterApiKeyDto) (request : HttpRequest)
    (user : Option AuthUser) :
    (registerApiKey cfg body request user).All (ApiCmd.Lawful cfg) := by
  refine Prog.All.bind ?_ fun orgId => ?_
  · simp only [resolveOrgId]
    split
    · trivial
    · exact Prog.All.bind (Prog.All.perform trivial) fun _ => trivial
    · trivial
  · split
    · trivial
    · rename_i orgId _
      exact (AuthService.registerApiKey_permitted (.head _) (.tail _ (.head [])) body _ _).mono
        fun _ h => h.lawful

theorem Endpoint.handler_lawful (request : HttpRequest) (user : Option AuthUser)
    (endpoint : Endpoint) : (endpoint.handler cfg request user).All (ApiCmd.Lawful cfg) := by
  cases endpoint with
  | createOrganization body => exact all_map (OrganizationsService.create_lawful _ _)
  | registerApiKey body => exact all_map (ApiKeysController.registerApiKey_lawful body request user)
  | findOrganization =>
    refine all_ofExcept_bind fun orgId _ => all_map ?_
    exact Prog.All.bind (Prog.All.perform trivial) fun _ => trivial
  | findBySlug slug =>
    refine all_ofExcept_bind fun orgId _ => all_map ?_
    refine Prog.All.bind (Prog.All.bind (Prog.All.perform trivial) fun _ => trivial) fun _ => ?_
    trivial
  | _ => exact callService_lawful user _

theorem Arrival.start_lawful (arrival : Arrival) :
    (arrival.start cfg).All (ApiCmd.Lawful cfg) := by
  cases arrival with
  | request incoming =>
    refine Prog.All.bind (StampVerifierGuard.canActivate_all trivial (fun _ => trivial)
      (fun _ => trivial) _ _ _) fun user => ?_
    refine Prog.All.bind (all_ofExcept _) fun _ => ?_
    refine Prog.All.bind (all_ofExcept _) fun _ => ?_
    refine Prog.All.bind (all_ofExcept _) fun _ => ?_
    exact Endpoint.handler_lawful _ user _
  | monitor cycles => exact all_map (all_map (all_api (fun _ => trivial) _))

theorem edge_spawned_lawful (command : ApiCmd) :
    ∀ thread ∈ (edge cfg).spawns command, thread.All (ApiCmd.Lawful cfg) := by
  intro thread hthread
  obtain ⟨job, hjob, rfl⟩ := List.mem_map.mp hthread
  cases command with
  | base command =>
    cases command with
    | fork job =>
      rw [List.mem_singleton.mp hjob]
      exact all_map (all_map (all_api (fun _ => trivial) _))
    | _ => cases hjob
  | fork job =>
    rw [List.mem_singleton.mp hjob]
    cases job with
    | touch apiKeyId lastUsedAt =>
      exact all_map (all_map (Prog.All.tryCatch (Prog.All.perform (.inl rfl)) fun _ => trivial))
  | _ => cases hjob

end Lawful

section Runs

variable {cfg : ApiConfig} {arrivals : List Arrival} {w : ApiWorld} {p : EdgePool}

/-- Every command of every run is lawful. -/
theorem edge_lawful (hreach : Reach (edge cfg) .any (edgePool cfg arrivals w) p) :
    ∀ entry ∈ p.history, entry.command.Lawful cfg := by
  refine Reach.entries_all rfl (fun thread hthread => ?_) edge_spawned_lawful hreach
  obtain ⟨arrival, _, rfl⟩ := List.mem_map.mp hthread
  exact arrival.start_lawful

/-- What lawful commands keep, and time and the mempool leave alone, is kept by a run, and
    by the rest of a run. -/
theorem edge_kept (Same : ApiWorld → ApiWorld → Prop) (hrefl : ∀ w, Same w w)
    (htrans : ∀ {w w' w''}, Same w w' → Same w' w'' → Same w w'')
    (hcommand : ∀ (command : ApiCmd) choice reply w w', command.Lawful cfg →
      command.exec choice w = some (reply, w') → Same w w')
    (henv : ∀ (event : ApiEvent) (w : ApiWorld), Same w (w.event event))
    (hreach : Reach (edge cfg) .any (edgePool cfg arrivals w) p) {q : EdgePool}
    (hrest : Reach (edge cfg) .any q p) : Same q.state p.state := by
  refine Reach.kept Same hrefl htrans hcommand ?_ (edge_lawful hreach) hrest
  rintro event w w' ⟨⟩
  exact henv event w

/-- Nothing is taken back from any world that the run goes through. -/
theorem advance_of_rest (hreach : Reach (edge cfg) .any (edgePool cfg arrivals w) p) {q : EdgePool}
    (hrest : Reach (edge cfg) .any q p) : q.state.tables.Advance p.state.tables := by
  refine edge_kept (fun w w' => w.tables.Advance w'.tables) (fun w => .refl _)
    (fun h h' => h.trans h') (fun _ _ _ _ _ hlawful hexec => ApiCmd.exec_advance hlawful hexec) ?_
    hreach hrest
  intro event w
  cases event with
  | tick duration => exact .refl _
  | evict keep => exact .refl _

/-- **Nothing is taken back.**  In every run of the API, on whatever tables, every row is
    still there in the end with what it was inserted with, what was revoked or deleted
    stays so, a signing request only has columns filled in, and wallets, seeds and the
    audit log are only added to. -/
theorem nothing_taken_back (hreach : Reach (edge cfg) .any (edgePool cfg arrivals w) p) :
    w.tables.Advance p.state.tables :=
  advance_of_rest hreach hreach

/-! ### Revoked keys -/

/-- A revoked key is found under its key id, revoked, in every world of the run. -/
theorem revoked_of_visits {keyId : Text} {key : ApiKey}
    (hkey : w.tables.apiKeys.find? (fun row => row.keyId = keyId) = some key)
    (hrevoked : key.status = .revoked) {w' : ApiWorld} (h : EdgeRun cfg arrivals w p w') :
    ∃ row, w'.tables.apiKeys.find? (fun row => row.keyId = keyId) = some row ∧
      row.status = .revoked := by
  have hkeeps : ∀ row row' : ApiKey, row.Advance row' →
      decide (row'.keyId = keyId) = decide (row.keyId = keyId) := by
    intro row row' hadvance
    have hid : row'.keyId = row.keyId := (congrArg ApiKey.keyId hadvance.same :)
    rw [hid]
  obtain ⟨q, hq, rfl, _⟩ := h
  obtain ⟨row, hrow, hadvance⟩ := (advance_of_rest hq hq).apiKeys.find? hkeeps hkey
  exact ⟨row, hrow, hadvance.revoked hrevoked⟩

/-- **Revocation is final.**  In every run that starts after a key was revoked, a request
    to a route that is not public and that carries a stamp of this key reads the clock and
    looks up the key, does nothing else, and is not answered. -/
theorem revoked_key_refused {stamp : StampVerifierGuard.Parsed} {key : ApiKey}
    (hkey : w.tables.apiKeys.find? (fun row => row.keyId = stamp.keyId) = some key)
    (hrevoked : key.status = .revoked)
    (hreach : Reach (edge cfg) .any (edgePool cfg arrivals w) p) {i : Nat} {incoming : Incoming}
    (hat : arrivals[i]? = some (.request incoming))
    (hroute : incoming.endpoint.route.isPublic = false)
    (hstamp : (truthy incoming.request.xStamp).map StampVerifierGuard.parseStamp =
      some (.ok stamp)) :
    (∀ response, p.threads[i]? ≠ some (.ret response)) ∧
      ∀ entry ∈ p.history, entry.thread = i →
        entry.command = .base .now ∨ entry.command = .sql (.keyFindByKeyId stamp.keyId) := by
  have hnever : ∀ {other : StampVerifierGuard.Parsed} {row : ApiKey},
      ¬StampVerifierGuard.Admitted cfg (EdgeRun cfg arrivals w p) incoming.request other row := by
    intro other row hadmitted
    have hsame : other = stamp := by
      have hparsed := hadmitted.parsed
      rw [hstamp, Option.some.injEq, Except.ok.injEq] at hparsed
      exact hparsed.symm
    obtain ⟨w', hw', hfound⟩ := hadmitted.found
    obtain ⟨found, hfind, hstatus⟩ := revoked_of_visits hkey hrevoked hw'
    rw [hsame, hfind, Option.some.injEq] at hfound
    rw [hfound, hadmitted.active] at hstatus
    cases hstatus
  have hnoUser : ∀ user, ¬LetThrough cfg (EdgeRun cfg arrivals w p) incoming user := by
    intro user hthrough
    cases hthrough.identified with
    | anyone hpublic =>
      rw [hroute] at hpublic
      cases hpublic
    | unstamped _ hnone =>
      rw [hnone] at hstamp
      cases hstamp
    | stamped hadmitted => exact hnever hadmitted
  have hgiven : (incoming.handle cfg).Given (Answered (edge cfg) .any (edgePool cfg arrivals w) p i)
      (fun command => command = .base .now ∨ command = .sql (.keyFindByKeyId stamp.keyId))
      (fun outcome => ∀ response, outcome ≠ .ok response) := by
    refine Incoming.handle_given tells_of_answered (fun command hissued => ?_)
      (fun user hthrough => absurd hthrough (hnoUser user)) (by rintro _ _ ⟨⟩)
    cases hissued with
    | now => exact .inl rfl
    | lookup hparsed =>
      rw [hstamp, Option.some.injEq, Except.ok.injEq] at hparsed
      exact .inr (hparsed ▸ rfl)
    | touch lastUsedAt hadmitted => exact absurd hadmitted hnever
  obtain ⟨hentries, hended⟩ := Reach.given rfl hreach (edgePool_thread hat) hgiven
  exact ⟨fun response hret => hended (.ok response) hret response rfl, hentries⟩

/-! ### Keys from empty tables -/

/-- What holds of every key. -/
structure ApiKey.Sound (key : ApiKey) : Prop where
  scopes : ValidScopes key.scopes
  revokedAt : key.status = .revoked ↔ key.revokedAt ≠ none
  expiresAt : key.expiresAt = none

/-- No key holds the wildcard. -/
theorem ApiKey.Sound.no_wildcard {key : ApiKey} (h : key.Sound) :
    ScopesGuard.wildcard ∉ key.scopes :=
  fun hmem => absurd (h.scopes.2 _ hmem) (by decide)

theorem ApiKey.Sound.updateRow {key : ApiKey} (h : key.Sound) (id : Uuid) {fields : ApiKeyUpdate}
    (hlawful : fields.isTouch = true ∨ fields.Revokes) :
    (ApiKeyRepository.updateRow id fields key).Sound := by
  rw [ApiKeyRepository.updateRow]
  split
  · refine ⟨h.scopes, ?_, h.expiresAt⟩
    rcases hlawful with htouch | hrevokes
    · obtain ⟨hstatus, hrevokedAt⟩ := of_decide_eq_true htouch
      simp only [ApiKeyUpdate.apply, hstatus, hrevokedAt, Option.getD_none, Option.none_or]
      exact h.revokedAt
    · obtain ⟨time, htime⟩ := Option.ne_none_iff_exists'.mp hrevokes.revokedAt
      simp [ApiKeyUpdate.apply, hrevokes.status, htime]
  · exact h

theorem ApiCmd.exec_sound {command : ApiCmd} (hlawful : command.Lawful cfg) {choice : Choice}
    {w w' : ApiWorld} {reply : Except JsError command.Reply}
    (hexec : command.exec choice w = some (reply, w')) (h : ∀ key ∈ w.tables.apiKeys, key.Sound) :
    ∀ key ∈ w'.tables.apiKeys, key.Sound := by
  cases exec_keys hexec with
  | kept hkeys => exact hkeys ▸ h
  | drawn htables => exact htables ▸ h
  | @inserted data id org _ _ hkeys =>
    intro key hkey
    rw [hkeys] at hkey
    rcases List.mem_append.mp hkey with hold | hnew
    · exact h key hold
    · have hgranted : data.Granted := hlawful
      rw [List.mem_singleton.mp hnew]
      refine ⟨hgranted.scopes, ?_, rfl⟩
      simp [ApiKeyRepository.newRow, hgranted.status]
  | @updated rowId fields hkeys =>
    intro key hkey
    rw [hkeys] at hkey
    obtain ⟨row, hrow, rfl⟩ := List.mem_map.mp hkey
    exact (h row hrow).updateRow rowId hlawful

/-- In every state that is reached from empty tables every key has known scopes, at least
    one, is revoked exactly if it has a time of revocation, and never expires. -/
theorem keys_sound {clock : Int} {violation : JsError}
    (hreach : Reach (edge cfg) .any (edgePool cfg arrivals (ApiWorld.empty clock violation)) p) :
    ∀ key ∈ p.state.tables.apiKeys, key.Sound := by
  refine edge_kept (fun w w' => (∀ key ∈ w.tables.apiKeys, key.Sound) →
    ∀ key ∈ w'.tables.apiKeys, key.Sound) (fun _ h => h) (fun h h' hw => h' (h hw))
    (fun _ _ _ _ _ hlawful hexec => ApiCmd.exec_sound hlawful hexec) ?_ hreach hreach ?_
  · intro event w h
    cases event with
    | tick duration => exact h
    | evict keep => exact h
  · exact fun _ hkey => absurd hkey List.not_mem_nil

end Runs

open ApiSample in
/-- The rows are there after a key has revoked itself. -/
theorem nothing_taken_back_revocation : ∃ p,
    Reach (edge config) .any
      (edgePool config [.request revocation] (world [key [AuthService.keyWrite]])) p ∧
      (∃ row ∈ p.state.tables.apiKeys, row.status = .revoked) ∧
      (world [key [AuthService.keyWrite]]).tables.Advance p.state.tables := by
  obtain ⟨p, hreach, _, hrevoked⟩ := revoked
  exact ⟨p, hreach, hrevoked, nothing_taken_back hreach⟩

/-- The key of the deployment, after it was revoked. -/
def ApiSample.revokedKey : ApiKey :=
  { key [AuthService.keyWrite] with status := .revoked, revokedAt := some 0 }

open ApiSample in
/-- A revoked key does not revoke itself again: two statements, and a refusal. -/
theorem revoked_key_refused_again : ∃ p,
    Reach (edge config) .any (edgePool config [.request revocation] (world [revokedKey])) p ∧
      p.history.length = 2 ∧ p.threads.all Prog.isDone = true ∧
      ∀ response, p.threads[0]? ≠ some (.ret response) := by
  obtain ⟨p, hreach, hp⟩ := Reach.exists_of_run (edge config) .any
    (edgePool config [.request revocation] (world [revokedKey]))
    ((List.replicate 2 Sample.run).map (Move.thread 0))
    (fun p => decide (p.history.length = 2 ∧ p.threads.all Prog.isDone = true)) (by decide)
  obtain ⟨hlength, hdone⟩ := of_decide_eq_true hp
  have hstamp : (truthy revocation.request.xStamp).map StampVerifierGuard.parseStamp =
      some (.ok ⟨Base64url.encode signature, 7, keyId⟩) := by
    decide
  have hkey : (world [revokedKey]).tables.apiKeys.find? (fun row => row.keyId = keyId) =
      some revokedKey := rfl
  exact ⟨p, hreach, hlength, hdone,
    (revoked_key_refused hkey rfl hreach (i := 0) rfl rfl hstamp).1⟩

end BrokeTurnkey
