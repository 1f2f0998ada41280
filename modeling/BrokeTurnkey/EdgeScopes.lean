import BrokeTurnkey.EdgeRegistration

/-!
# What a scope protects

Every part of the world has one scope that guards it, or is opened by creating an
organization or by its bootstrap token.  In a run of the API a part changes only through
a request that was let through with that scope, or through the monitor, which signs.
-/

namespace BrokeTurnkey

open Interaction

/-! ### Effects of a request -/

/-- The scope that a request with this effect needs. -/
def Effect.scope : Effect → Option Text
  | .wallets => some Endpoint.walletCreate
  | .signing => some Endpoint.walletSign
  | .policies => some Endpoint.policyWrite
  | .users | .apiKeys => some AuthService.keyWrite
  | .onboarding | .organizations => none

def Endpoint.effects : Endpoint → List Effect
  | .createOrganization _ => [.organizations, .onboarding, .wallets]
  | .registerApiKey _ => [.apiKeys, .organizations]
  | .revokeApiKey _ => [.apiKeys]
  | .createPolicy _ | .deletePolicy _ => [.policies]
  | .createUser _ | .deleteUser _ => [.users]
  | .derive _ => [.wallets]
  | .signTransaction _ _ | .signTyped _ _ | .signMessage _ _ => [.signing]
  | _ => []

/-- Each effect of a route needs the scope of the route, except where an organization is
    created or a key is registered. -/
theorem Endpoint.scopes_of_effect {endpoint : Endpoint} {effect : Effect}
    (h : effect ∈ endpoint.effects) : (∃ body, endpoint = .createOrganization body) ∨
      (∃ body, endpoint = .registerApiKey body) ∨
      ∃ scope, endpoint.scopes = [scope] ∧ effect.scope = some scope := by
  cases endpoint with
  | createOrganization body => exact .inl ⟨body, rfl⟩
  | registerApiKey body => exact .inr (.inl ⟨body, rfl⟩)
  | _ => simp_all [effects, scopes, Effect.scope]

section

variable {cfg : ApiConfig} {user : Option AuthUser} {effects : List Effect}

theorem affects_query (cfg : ApiConfig) {statement : ApiSql} (h : statement.isQuery = true) :
    (ApiCmd.sql statement).Affects effects := by
  intro effect heffect
  rw [ApiCmd.effect, (statement.of_query h cfg []).1] at heffect
  cases heffect

theorem callService_affects {operation : ApiCall} (h : operation.effects = effects) :
    (callService cfg user operation).All (ApiCmd.Affects effects) := by
  refine all_ofExcept_bind fun orgId _ => ?_
  have hstart : (operation.start cfg orgId).All (ApiCmd.Permitted cfg orgId operation.effects) :=
    operation.start_permitted
  rw [h] at hstart
  exact all_map (affects_of_permitted hstart)

theorem OrganizationsService.create_affects (name slug : Text) :
    (create cfg name slug).All (ApiCmd.Affects [.organizations, .onboarding, .wallets]) := by
  refine Prog.All.bind (Prog.All.perform (affects_query cfg rfl)) fun found => ?_
  cases found with
  | some org => trivial
  | none =>
    refine Prog.All.bind (Prog.All.perform ?_) fun org => ?_
    · rintro _ ⟨⟩
      exact .head _
    · have hwallet : (WalletService.onBoardOrganization org.id.toText).api.All
          (ApiCmd.Permitted cfg org.id.toText [.organizations, .onboarding, .wallets]) :=
        api_permitted (WalletService.onBoardOrganization_affects (.tail _ (.head _))
          (.tail _ (.tail _ (.head _))))
      have htoken : (AuthService.generateBootstrapToken cfg org.id.toText).All
          (ApiCmd.Permitted cfg org.id.toText [.organizations, .onboarding, .wallets]) :=
        AuthService.generateBootstrapToken_permitted (.head _)
      refine Prog.All.bind (affects_of_permitted hwallet) fun wallet => ?_
      exact Prog.All.bind (affects_of_permitted htoken) fun _ => trivial

theorem ApiKeysController.registerApiKey_affects (body : RegisterApiKeyDto)
    (request : HttpRequest) :
    (registerApiKey cfg body request user).All (ApiCmd.Affects [.apiKeys, .organizations]) := by
  refine Prog.All.bind ?_ fun orgId => ?_
  · simp only [resolveOrgId]
    split
    · trivial
    · exact Prog.All.bind (Prog.All.perform (affects_query cfg rfl)) fun _ => trivial
    · trivial
  · split
    · trivial
    · exact affects_of_permitted
        (AuthService.registerApiKey_permitted (.head _) (.tail _ (.head [])) body _ _)

/-- What a handler does beyond reading is what its route is for. -/
theorem Endpoint.handler_affects (request : HttpRequest) (endpoint : Endpoint) :
    (endpoint.handler cfg request user).All (ApiCmd.Affects endpoint.effects) := by
  cases endpoint with
  | createOrganization body => exact all_map (OrganizationsService.create_affects _ _)
  | registerApiKey body =>
    exact all_map (ApiKeysController.registerApiKey_affects body request)
  | findOrganization =>
    refine all_ofExcept_bind fun orgId _ => all_map ?_
    exact Prog.All.bind (Prog.All.perform (affects_query cfg rfl)) fun _ => trivial
  | findBySlug slug =>
    refine all_ofExcept_bind fun orgId _ => all_map ?_
    refine Prog.All.bind (Prog.All.bind (Prog.All.perform (affects_query cfg rfl)) ?_) ?_
    · exact fun _ => trivial
    · exact fun _ => trivial
  | _ => exact callService_affects rfl

end

/-- The part of the world with this effect is as it was: the rows are the same, and no
    transaction was handed to a provider.  When a key was last used is no part of it. -/
def Effect.Unchanged (w w' : ApiWorld) : Effect → Prop
  | .onboarding => w'.tables.base.seeds = w.tables.base.seeds
  | .wallets => w'.tables.base.wallets = w.tables.base.wallets
  | .signing => w'.tables.base.requests = w.tables.base.requests ∧
      w'.tables.base.nonces = w.tables.base.nonces ∧ ∀ rawTx ∈ w'.live, rawTx ∈ w.live
  | .policies => w'.tables.base.policies = w.tables.base.policies
  | .users => w'.tables.users = w.tables.users
  | .apiKeys => w'.tables.apiKeys.map (fun key => { key with lastUsedAt := none }) =
      w.tables.apiKeys.map fun key => { key with lastUsedAt := none }
  | .organizations => w'.tables.organizations = w.tables.organizations

namespace Effect.Unchanged

theorem refl (w : ApiWorld) (effect : Effect) : effect.Unchanged w w := by
  cases effect with
  | signing => exact ⟨rfl, rfl, fun _ h => h⟩
  | _ => rfl

theorem trans {w w' w'' : ApiWorld} {effect : Effect} (h : effect.Unchanged w w')
    (h' : effect.Unchanged w' w'') : effect.Unchanged w w'' := by
  cases effect with
  | signing =>
    exact ⟨h'.1.trans h.1, h'.2.1.trans h.2.1, fun rawTx hlive => h.2.2 _ (h'.2.2 _ hlive)⟩
  | _ => exact Eq.trans h' h

end Effect.Unchanged

/-! ### One command -/

/-- The effect of writing a table of the signing services. -/
def Table.effect : Table → Option Effect
  | .seeds => some .onboarding
  | .wallets => some .wallets
  | .requests | .nonces => some .signing
  | .auditLog => none

theorem Cmd.effect_of_writes {command : Cmd} {table : Table} (h : command.writes = some table) :
    command.effect = table.effect := by
  cases command with
  | sql statement => cases statement <;> cases h <;> rfl
  | _ => cases h

theorem exec_unchanged {command : Cmd} {choice : Choice} {w : ApiWorld} {base : World}
    {reply : Except JsError command.Reply} {effect : Effect}
    (hexec : BrokeTurnkey.exec command choice w.view = some (reply, base))
    (hother : command.effect ≠ some effect) : effect.Unchanged w (w.put base) := by
  have hagree := exec_agree hexec
  have hwrites : ∀ table, table.effect = some effect → command.writes ≠ some table :=
    fun table htable hwrote => hother ((Cmd.effect_of_writes hwrote).trans htable)
  cases effect with
  | onboarding => exact hagree.seeds (hwrites _ rfl)
  | wallets => exact hagree.wallets (hwrites _ rfl)
  | signing =>
    have hsubmits : command.submits = none := by
      cases command with
      | fetch rpcUrl request =>
        cases request with
        | sendRawTransaction rawTx => exact absurd rfl hother
        | _ => rfl
      | _ => rfl
    refine ⟨hagree.requests (hwrites _ rfl), hagree.nonces (hwrites _ rfl), ?_⟩
    intro rawTx hlive
    have hsame : base.live = w.live := exec_live hsubmits hexec
    exact hsame ▸ hlive
  | policies => exact hagree.policies
  | users => rfl
  | apiKeys => rfl
  | organizations => rfl

/-- Noting a use leaves the rest of a key. -/
theorem map_touch (id : Uuid) {fields : ApiKeyUpdate} (h : fields.isTouch = true)
    (keys : List ApiKey) :
    (keys.map (ApiKeyRepository.updateRow id fields)).map
        (fun key => { key with lastUsedAt := none }) =
      keys.map fun key => { key with lastUsedAt := none } := by
  obtain ⟨hstatus, hrevoked⟩ := of_decide_eq_true h
  rw [List.map_map]
  refine List.map_congr_left fun key _ => ?_
  simp only [Function.comp_apply, ApiKeyRepository.updateRow, ApiKeyUpdate.apply, hstatus, hrevoked,
    Option.getD_none, Option.none_or]
  split <;> rfl

/-- The effect of writing a table of the management services. -/
def ApiTable.effect : ApiTable → Option Effect
  | .organizations => some .organizations
  | .apiKeys => some .apiKeys
  | .users => some .users
  | .policies => some .policies
  | .adminAudit => none

/-- A statement that writes has the effect of its table, unless it notes the use of a
    key. -/
theorem ApiSql.effect_of_writes {statement : ApiSql} {table : ApiTable}
    (h : statement.writes = some table) : statement.effect = table.effect ∨
      ∃ rowId fields, statement = .keyUpdate rowId fields ∧ fields.isTouch = true := by
  cases statement with
  | keyUpdate rowId fields =>
    cases h
    by_cases htouch : fields.isTouch = true
    · exact .inr ⟨rowId, fields, rfl, htouch⟩
    · exact .inl (if_neg htouch)
  | _ => cases h <;> exact .inl rfl

theorem ApiSql.exec_unchanged {statement : ApiSql} {w : ApiWorld} {id : Uuid} {effect : Effect}
    (hother : statement.effect ≠ some effect) :
    effect.Unchanged w { w with tables := (statement.exec id w.clock w.tables).2 } := by
  have hagree := statement.exec_agree id w.clock w.tables
  have hwrites : ∀ table, table.effect = some effect → table ≠ .apiKeys →
      statement.writes ≠ some table := by
    intro table htable hkeys hwrote
    rcases effect_of_writes hwrote with heffect | ⟨rowId, fields, rfl, _⟩
    · exact hother (heffect.trans htable)
    · exact hkeys (Option.some.inj hwrote).symm
  cases effect with
  | onboarding => exact (congrArg Tables.seeds hagree.base :)
  | wallets => exact (congrArg Tables.wallets hagree.base :)
  | signing =>
    exact ⟨(congrArg Tables.requests hagree.base :), (congrArg Tables.nonces hagree.base :),
      fun _ h => h⟩
  | policies => exact hagree.policies (hwrites _ rfl (by decide))
  | users => exact hagree.users (hwrites _ rfl (by decide))
  | organizations => exact hagree.organizations (hwrites _ rfl (by decide))
  | apiKeys =>
    by_cases hwrote : statement.writes = some .apiKeys
    · rcases effect_of_writes hwrote with heffect | ⟨rowId, fields, rfl, htouch⟩
      · exact absurd heffect hother
      · exact map_touch rowId htouch w.tables.apiKeys
    · exact congrArg _ (hagree.apiKeys hwrote)

/-- **A command changes only the part its effect is about.** -/
theorem ApiCmd.exec_unchanged {command : ApiCmd} {choice : Choice} {w w' : ApiWorld}
    {reply : Except JsError command.Reply} {effect : Effect}
    (hexec : command.exec choice w = some (reply, w')) (hother : command.effect ≠ some effect) :
    effect.Unchanged w w' := by
  cases command with
  | base command =>
    obtain ⟨base, hbase, rfl⟩ := exec_base hexec
    exact BrokeTurnkey.exec_unchanged hbase hother
  | sql statement =>
    rcases exec_sql hexec with ⟨id, _, rfl, _⟩ | ⟨error, _, _, _, rfl⟩
    · exact ApiSql.exec_unchanged hother
    · exact .refl _ _
  | randomUUID =>
    obtain ⟨id, rfl⟩ := exec_randomUUID hexec
    cases effect with
    | signing => exact ⟨rfl, rfl, fun _ h => h⟩
    | _ => rfl
  | signHash wallet key hash => exact exec_query rfl hexec ▸ .refl _ _
  | fork job => exact exec_query rfl hexec ▸ .refl _ _

/-! ### One request -/

/-- What lets a request have an effect, on what was seen in the worlds of a run. -/
inductive Licensed (cfg : ApiConfig) (run : ApiWorld → Prop) (incoming : Incoming) :
    Effect → Prop where
  /-- anyone may create an organization -/
  | creation {body : CreateOrganizationDto} {effect : Effect} :
      incoming.endpoint = .createOrganization body → effect ∈ incoming.endpoint.effects →
      Licensed cfg run incoming effect
  /-- a key is registered with the bootstrap token of the org it is for -/
  | bootstrap {body : RegisterApiKeyDto} {orgId token hash : Text} {org : Organization}
      {effect : Effect} :
      incoming.endpoint = .registerApiKey body → effect ∈ incoming.endpoint.effects →
      Bootstrapped cfg run incoming.request orgId token hash org →
      Licensed cfg run incoming effect
  /-- or on the word of a key of the org -/
  | registrar {body : RegisterApiKeyDto} {orgId : Text} {stamp : StampVerifierGuard.Parsed}
      {key row : ApiKey} :
      incoming.endpoint = .registerApiKey body →
      Registrar cfg run incoming.request orgId stamp key row → Licensed cfg run incoming .apiKeys
  /-- all else needs a key with the scope of the effect -/
  | stamped {stamp : StampVerifierGuard.Parsed} {key : ApiKey} {effect : Effect} {scope : Text} :
      StampVerifierGuard.Admitted cfg run incoming.request stamp key →
      effect ∈ incoming.endpoint.effects → effect.scope = some scope →
      (ScopesGuard.wildcard ∈ key.scopes ∨ scope ∈ key.scopes) →
      Licensed cfg run incoming effect

/-- The effect is one of the route. -/
theorem Licensed.mem {cfg : ApiConfig} {run : ApiWorld → Prop} {incoming : Incoming}
    {effect : Effect} (h : Licensed cfg run incoming effect) :
    effect ∈ incoming.endpoint.effects := by
  cases h with
  | creation _ hmem => exact hmem
  | bootstrap _ hmem => exact hmem
  | registrar hendpoint =>
    rw [hendpoint]
    exact .head _
  | stamped _ hmem => exact hmem

/-- Where scopes are required, a user with one of them is let through. -/
theorem ScopesGuard.of_canActivate {required : List Text} {user : Option AuthUser}
    (h : canActivate required user = .ok ()) : required = [] ∨
      ∃ u, user = some u ∧ (wildcard ∈ u.scopes ∨ ∃ scope ∈ required, scope ∈ u.scopes) := by
  simp only [canActivate] at h
  split at h
  · rename_i hnone
    exact .inl hnone
  · split at h
    · rename_i hscopes
      apply Or.inr
      cases user with
      | none => simp at hscopes
      | some u =>
        refine ⟨u, rfl, ?_⟩
        simpa [List.contains_iff_mem] using hscopes
    · cases h

section Given

variable {cfg : ApiConfig} {run : ApiWorld → Prop} {incoming : Incoming} {user : Option AuthUser}
  {Fact : (command : ApiCmd) → Except JsError command.Reply → Prop}

/-- The request has a license for whatever effect the command has. -/
abbrev Covers (cfg : ApiConfig) (run : ApiWorld → Prop) (incoming : Incoming)
    (command : ApiCmd) : Prop :=
  ∀ effect, command.effect = some effect → Licensed cfg run incoming effect

theorem covers_of_none {command : ApiCmd} (h : command.effect = none) :
    Covers cfg run incoming command := by
  intro effect heffect
  rw [h] at heffect
  cases heffect

theorem covers_query {statement : ApiSql} (h : statement.isQuery = true) :
    Covers cfg run incoming (.sql statement) :=
  covers_of_none (statement.of_query h cfg []).1

/-- Behind a route that needs a scope stands a key that has it. -/
theorem LetThrough.holder (h : LetThrough cfg run incoming user) {scope : Text}
    (hscope : incoming.endpoint.scopes = [scope]) : ∃ stamp key, user = some key.user ∧
      StampVerifierGuard.Admitted cfg run incoming.request stamp key ∧
      (ScopesGuard.wildcard ∈ key.scopes ∨ scope ∈ key.scopes) := by
  rcases ScopesGuard.of_canActivate h.inScope with hnone | ⟨u, rfl, hscopes⟩
  · rw [hscope] at hnone
    cases hnone
  · cases h.identified with
    | @stamped stamp key hadmitted =>
      refine ⟨stamp, key, rfl, hadmitted, hscopes.imp_right ?_⟩
      rintro ⟨other, hother, hmem⟩
      rw [hscope, List.mem_singleton] at hother
      exact hother ▸ hmem

/-- A route that needs a scope is licensed for what needs that scope. -/
theorem LetThrough.scoped (h : LetThrough cfg run incoming user) {scope : Text}
    (hscope : incoming.endpoint.scopes = [scope]) {effect : Effect}
    (heffect : effect ∈ incoming.endpoint.effects) (hneeds : effect.scope = some scope) :
    Licensed cfg run incoming effect := by
  obtain ⟨stamp, key, _, hadmitted, hholds⟩ := h.holder hscope
  exact .stamped hadmitted heffect hneeds hholds

/-- What was let through is licensed, registrations apart. -/
theorem LetThrough.licensed (h : LetThrough cfg run incoming user)
    (hendpoint : ∀ body, incoming.endpoint ≠ .registerApiKey body) {effect : Effect}
    (heffect : effect ∈ incoming.endpoint.effects) : Licensed cfg run incoming effect := by
  rcases Endpoint.scopes_of_effect heffect with ⟨body, hcreates⟩ | ⟨body, hregisters⟩ |
    ⟨scope, hscope, hneeds⟩
  · exact .creation hcreates heffect
  · exact absurd hregisters (hendpoint body)
  · exact h.scoped hscope heffect hneeds

/-- What a registration issues is licensed by the ground it is issued on. -/
theorem Registers.covers {Drawn : Uuid → Prop} {body : RegisterApiKeyDto}
    (hendpoint : incoming.endpoint = .registerApiKey body) {command : ApiCmd}
    (h : Registers cfg run incoming.request Drawn body command) :
    Covers cfg run incoming command := by
  have hkeys : .apiKeys ∈ incoming.endpoint.effects := by
    rw [hendpoint]
    exact .head _
  have horgs : .organizations ∈ incoming.endpoint.effects := by
    rw [hendpoint]
    exact .tail _ (.head _)
  cases h with
  | reads hnone => exact covers_of_none hnone
  | inserts hmay =>
    rintro _ ⟨⟩
    cases hmay with
    | bootstrap hpresented => exact .bootstrap hendpoint hkeys hpresented
    | registrar hregistrar => exact .registrar hendpoint hregistrar
  | clears hpresented =>
    rintro _ ⟨⟩
    exact .bootstrap hendpoint horgs hpresented

/-- **The effects of a request are licensed.** -/
theorem Endpoint.handler_given (hfact : StampVerifierGuard.Tells run Fact)
    (hthrough : LetThrough cfg run incoming user) :
    (incoming.endpoint.handler cfg incoming.request user).Given Fact (Covers cfg run incoming)
      fun _ => True := by
  by_cases hregisters : ∃ body, incoming.endpoint = .registerApiKey body
  · obtain ⟨body, hendpoint⟩ := hregisters
    rw [hendpoint]
    have hgiven : (ApiKeysController.registerApiKey cfg body incoming.request user).Given Fact
        (Registers cfg run incoming.request (fun _ => True) body) fun _ => True :=
      ApiKeysController.registerApiKey_given hfact (fun _ _ => trivial) hthrough.identified body
    refine Prog.Given.bind (hgiven.mono (fun _ h => h.covers hendpoint) fun _ h => h) ?_ ?_
    · exact fun _ _ => trivial
    · exact fun _ _ => trivial
  · refine .of_all ((Endpoint.handler_affects _ _).mono fun command haffects effect heffect => ?_)
    exact hthrough.licensed (fun body hendpoint => hregisters ⟨body, hendpoint⟩)
      (haffects effect heffect)

end Given

/-! ### Every run -/

/-- Threads that are started in the background only sign, and start no others. -/
theorem edge_spawned {cfg : ApiConfig} {command : ApiCmd} {thread : Api Response}
    (hthread : thread ∈ (edge cfg).spawns command) :
    thread.All fun later => (edge cfg).spawns later = [] ∧
      ∀ effect, later.effect = some effect → effect = .signing ∧ command.effect = some .signing := by
  obtain ⟨job, hjob, rfl⟩ := List.mem_map.mp hthread
  cases command with
  | base command =>
    cases command with
    | fork job =>
      rw [List.mem_singleton.mp hjob]
      cases job with
      | syncNonce walletId chainId walletAddress =>
        have hsync : (syncNonce cfg.services walletId chainId walletAddress).All fun later =>
            spawns cfg.services later = [] ∧ later.Affects [.signing] := by
          refine Prog.All.bind (rpcCallWithRetry_all (fun _ => ⟨rfl, .of_query rfl⟩) ..) fun _ => ?_
          exact Prog.All.perform ⟨rfl, .of_mem rfl (.head _)⟩
        refine all_map (all_map (Prog.All.lift (Prog.All.bind (hsync.mono ?_) fun _ => trivial)))
        rintro later ⟨hnone, haffects⟩
        refine ⟨?_, fun effect heffect => ⟨List.mem_singleton.mp (haffects effect heffect), rfl⟩⟩
        cases later with
        | fork job => cases hnone
        | _ => rfl
    | _ => cases hjob
  | fork job =>
    rw [List.mem_singleton.mp hjob]
    cases job with
    | touch apiKeyId lastUsedAt =>
      refine all_map (all_map (Prog.All.tryCatch (Prog.All.perform ⟨rfl, ?_⟩) fun _ => trivial))
      rintro _ ⟨⟩
  | _ => cases hjob

/-- The monitor only signs. -/
theorem Arrival.monitor_signs {cfg : ApiConfig} (cycles : Nat) :
    ((Arrival.monitor cycles).start cfg).All fun command =>
      ∀ effect, command.effect = some effect → effect = .signing := by
  refine all_map (all_map (Prog.All.lift ?_))
  refine (Monitor.monitor_affects (.head []) cycles).mono fun command haffects effect heffect => ?_
  exact List.mem_singleton.mp (haffects effect heffect)

section Runs

variable {cfg : ApiConfig} {arrivals : List Arrival} {w : ApiWorld} {p : EdgePool}

/-- What a request issues is licensed, in every run. -/
theorem Incoming.handle_covers (incoming : Incoming) (i : Nat) :
    (incoming.handle cfg).Given (Answered (edge cfg) .any (edgePool cfg arrivals w) p i)
      (Covers cfg (EdgeRun cfg arrivals w p) incoming) fun _ => True := by
  refine Incoming.handle_given tells_of_answered (fun command hissued => ?_)
    (fun user hthrough => Endpoint.handler_given tells_of_answered hthrough) fun _ => trivial
  cases hissued with
  | now => exact covers_of_none rfl
  | lookup hparsed => exact covers_query rfl
  | touch lastUsedAt hadmitted => exact covers_of_none rfl

/-- Something that arrived may have this effect in the run. -/
def Allowed (cfg : ApiConfig) (run : ApiWorld → Prop) (arrivals : List Arrival)
    (effect : Effect) : Prop :=
  (effect = .signing ∧ ∃ cycles, .monitor cycles ∈ arrivals) ∨
    ∃ incoming, .request incoming ∈ arrivals ∧ Licensed cfg run incoming effect

/-- What the thread of an arrival issues is allowed. -/
theorem arrival_allowed (hreach : Reach (edge cfg) .any (edgePool cfg arrivals w) p)
    {entry : Entry ApiCmd Choice} (hentry : entry ∈ p.history)
    (hthread : entry.thread < arrivals.length) {effect : Effect}
    (heffect : entry.command.effect = some effect) :
    Allowed cfg (EdgeRun cfg arrivals w p) arrivals effect := by
  have hat : arrivals[entry.thread]? = some arrivals[entry.thread] :=
    List.getElem?_eq_getElem hthread
  have hmem : arrivals[entry.thread] ∈ arrivals := List.getElem_mem hthread
  cases harrival : arrivals[entry.thread] with
  | request incoming =>
    rw [harrival] at hat hmem
    have hcovers := (Reach.given rfl hreach (edgePool_thread hat)
      (incoming.handle_covers entry.thread)).1 entry hentry rfl
    exact .inr ⟨incoming, hmem, hcovers effect heffect⟩
  | monitor cycles =>
    rw [harrival] at hat hmem
    have hsigns := (Reach.given rfl hreach (edgePool_arrival hat)
      (.of_all (Arrival.monitor_signs cycles))).1 entry hentry rfl
    exact .inl ⟨hsigns effect heffect, cycles, hmem⟩

/-- **Whatever a run does, somebody was allowed to do.** -/
theorem entry_allowed (hreach : Reach (edge cfg) .any (edgePool cfg arrivals w) p)
    {entry : Entry ApiCmd Choice} (hentry : entry ∈ p.history) {effect : Effect}
    (heffect : entry.command.effect = some effect) :
    Allowed cfg (EdgeRun cfg arrivals w p) arrivals effect := by
  have hlength : (edgePool cfg arrivals w).threads.length = arrivals.length := List.length_map ..
  have horigin := (Reach.origin rfl hreach).1
  rw [hlength] at horigin
  rcases horigin entry hentry with hfirst | ⟨earlier, hearlier, thread, hspawned, hissues⟩
  · exact arrival_allowed hreach hentry hfirst heffect
  · obtain ⟨hsigning, hforked⟩ := (Prog.All.of_issues hissues (edge_spawned hspawned)).2 effect
      heffect
    rcases horigin earlier hearlier with hfirst | ⟨first, _, other, hother, hissued⟩
    · rw [hsigning]
      exact arrival_allowed hreach hearlier hfirst hforked
    · -- a thread that was started in the background starts none
      rw [(Prog.All.of_issues hissued (edge_spawned hother)).1] at hspawned
      cases hspawned

/-- What is about to be done, and is not signing, a request is licensed to do. -/
theorem licensed_of_pending (hreach : Reach (edge cfg) .any (edgePool cfg arrivals w) p) {i : Nat}
    {command : ApiCmd} {next : Except JsError command.Reply → Api Response} {effect : Effect}
    (hcall : p.threads[i]? = some (.call command next)) (heffect : command.effect = some effect)
    (hne : effect ≠ .signing) : ∃ incoming, arrivals[i]? = some (.request incoming) ∧
      Licensed cfg (EdgeRun cfg arrivals w p) incoming effect := by
  have hlength : (edgePool cfg arrivals w).threads.length = arrivals.length := List.length_map ..
  rcases (Reach.origin rfl hreach).2 i _ hcall with hlt | ⟨_, _, thread, hspawned, hissues⟩
  · rw [hlength] at hlt
    have hat : arrivals[i]? = some arrivals[i] := List.getElem?_eq_getElem hlt
    cases harrival : arrivals[i] with
    | monitor cycles =>
      rw [harrival] at hat
      have hsigns := Reach.pending rfl hreach (edgePool_arrival hat)
        (.of_all (Arrival.monitor_signs cycles)) hcall
      exact absurd (hsigns effect heffect) hne
    | request incoming =>
      rw [harrival] at hat
      have hcovers :=
        Reach.pending rfl hreach (edgePool_thread hat) (incoming.handle_covers i) hcall
      exact ⟨incoming, hat, hcovers effect heffect⟩
  · -- what is started in the background only signs
    have hissued := hissues command (.here command next)
    exact absurd ((Prog.All.of_issues hissued (edge_spawned hspawned)).2 effect heffect).1 hne

/-- **Scopes protect the tables.**  In every run of the API, whatever arrives and however
    it interleaves, a part of the world is as it was, or what changed it is the monitor,
    which signs, or a request that was let through with the scope of that part, with the
    bootstrap token of an organization, or to create one. -/
theorem changes_licensed (hreach : Reach (edge cfg) .any (edgePool cfg arrivals w) p)
    (effect : Effect) : effect.Unchanged w p.state ∨
      (effect = .signing ∧ ∃ cycles, .monitor cycles ∈ arrivals) ∨
      ∃ incoming, .request incoming ∈ arrivals ∧
        Licensed cfg (EdgeRun cfg arrivals w p) incoming effect := by
  have hkept := Reach.kept_or (fun w w' => effect.Unchanged w w')
    (fun command => command.effect = some effect) (fun w => .refl w effect)
    (fun h h' => h.trans h') (fun _ _ _ _ _ hother hexec => ApiCmd.exec_unchanged hexec hother) ?_
    hreach
  · refine hkept.imp_right ?_
    rintro ⟨entry, hentry, heffect⟩
    exact entry_allowed hreach hentry heffect
  · rintro event w w' ⟨⟩
    cases event with
    | tick duration => exact .refl _ effect
    | evict keep =>
      cases effect with
      | signing => exact ⟨rfl, rfl, fun rawTx hlive => (List.mem_filter.mp hlive).1⟩
      | _ => rfl

end Runs

open ApiSample in
/-- The revocation of a key is licensed by its `key:write`. -/
theorem changes_licensed_revocation : ∃ p,
    Reach (edge config) .any
      (edgePool config [.request revocation] (world [key [AuthService.keyWrite]])) p ∧
      ¬Effect.apiKeys.Unchanged (world [key [AuthService.keyWrite]]) p.state ∧
      Licensed config (EdgeRun config [.request revocation] (world [key [AuthService.keyWrite]]) p)
        revocation .apiKeys := by
  obtain ⟨p, hreach, _, row, hrow, hrevoked⟩ := revoked
  have hchanged : ¬Effect.apiKeys.Unchanged (world [key [AuthService.keyWrite]]) p.state := by
    intro hsame
    have hmem := List.mem_map_of_mem (f := fun key : ApiKey => { key with lastUsedAt := none }) hrow
    rw [hsame] at hmem
    obtain ⟨before, hbefore, heq⟩ := List.mem_map.mp hmem
    rw [List.mem_singleton.mp hbefore] at heq
    have hstatus := congrArg ApiKey.status heq
    rw [hrevoked] at hstatus
    cases hstatus
  rcases changes_licensed hreach .apiKeys with hsame | ⟨hsigning, _⟩ | ⟨incoming, hmem, hlicensed⟩
  · exact absurd hsame hchanged
  · cases hsigning
  · rw [List.mem_singleton, Arrival.request.injEq] at hmem
    exact ⟨p, hreach, hchanged, hmem ▸ hlicensed⟩

end BrokeTurnkey
