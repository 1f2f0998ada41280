import BrokeTurnkey.Api.Services
import BrokeTurnkey.Api.TenantCalls

/-!
# Tenant isolation

In every state the API reaches from empty tables ids are not shared and a signing
request has the org of its wallet, whatever was called by whom.  Calls on behalf of one
org, in any order and also at the same time, then leave the rows of every other org as
they were, and return nothing that is another org's.
-/

namespace BrokeTurnkey

open Interaction

/-! ### Every state that is reached -/

section Reached

variable {cfg : ApiConfig}

/-- Ids are not shared in the tables of the management services. -/
structure OwnIds (t : ApiTables) (_ : List ApiEntry) : Prop where
  users : UniqueBy UserRow.id t.users
  apiKeys : UniqueBy ApiKey.id t.apiKeys

/-- The tables are linked. -/
abbrev LinkedInv (cfg : ApiConfig) : ApiWorld → List ApiEntry → Prop :=
  ApiInv (fun w _ => Linked cfg.services w.tables) OwnIds

/-- Calls on behalf of any org keep the tables linked. -/
theorem linkedKeeper (cfg : ApiConfig) (orgId : Text) :
    ApiKeeper cfg orgId (fun w _ => Linked cfg.services w.tables) OwnIds := by
  constructor
  case base =>
    constructor
    case linked => exact fun h => h
    case step =>
      intro w history i command choice reply w' hlinked hwithin hexec
      refine hlinked.exec hexec ?_
      rintro data rfl
      exact hwithin.2
  case put => exact fun hids => ⟨hids.users, hids.apiKeys⟩
  case linked => exact fun hlinked hids => ⟨hlinked, hids.users, hids.apiKeys⟩
  case step =>
    intro w history i command choice reply w' hlinked hids hwithin hexec
    have hboth : ApiLinked cfg w.tables := ⟨hlinked, hids.users, hids.apiKeys⟩
    have hafter : ApiLinked cfg w'.tables := by
      refine hboth.exec hexec ?_
      rintro data rfl
      exact hwithin.2
    exact ⟨hafter.base, hafter.users, hafter.apiKeys⟩

/-- The command inserts no signing request. -/
def ApiCmd.InsertsNone : ApiCmd → Prop
  | .base command => command.InsertsNone
  | _ => True

/-- Such a command keeps the tables linked, whoever issues it. -/
theorem insertsNone_harmless {command : ApiCmd} (h : command.InsertsNone) :
    Harmless Guard.any (api cfg) (LinkedInv cfg) command := by
  intro i choice reply w w' history hinv _ hexec
  have hboth : ApiLinked cfg w.tables := ⟨hinv.1, hinv.2.users, hinv.2.apiKeys⟩
  have hafter : ApiLinked cfg w'.tables := by
    refine hboth.exec hexec ?_
    rintro data rfl
    exact absurd h id
  exact ⟨hafter.base, hafter.users, hafter.apiKeys⟩

theorem insertsNone_all {α : Type} {p : Api α} (h : p.All ApiCmd.InsertsNone) :
    p.All (Harmless Guard.any (api cfg) (LinkedInv cfg)) :=
  h.mono fun _ => insertsNone_harmless

theorem StampVerifierGuard.canActivate_insertsNone (route : Route) (request : HttpRequest) :
    (canActivate cfg route request).All ApiCmd.InsertsNone :=
  canActivate_all trivial (fun _ => trivial) (fun _ => trivial) cfg route request

/-- `POST /api-keys` registers a key for the org that it resolves. -/
theorem ApiKeysController.post_keeps (body : RegisterApiKeyDto) (request : HttpRequest)
    {w : ApiWorld} {history : List ApiEntry} :
    Yields (apiGrowth cfg .any) (LinkedInv cfg) (fun _ _ _ => True) (post cfg body request) w
      history := by
  refine Keeps.harmless_bind
    (insertsNone_all (StampVerifierGuard.canActivate_insertsNone registerRoute request)) ?_
    fun _ _ _ _ _ _ => trivial
  intro user s₁ h₁ _
  refine Keeps.harmless_bind (insertsNone_all ?_) ?_ fun _ _ _ _ _ _ => trivial
  · simp only [resolveOrgId]
    split
    · trivial
    · exact Prog.All.bind (Prog.All.perform trivial) fun _ => trivial
    · trivial
  · intro orgId s₂ h₂ _
    split
    · exact Yields.throw _
    · rename_i orgId _
      exact ((linkedKeeper cfg orgId).registerApiKey_yields body _ _).mono fun _ _ _ _ => trivial

theorem OrganizationsService.create_keeps (name slug : Text) {w : ApiWorld}
    {history : List ApiEntry} :
    Yields (apiGrowth cfg .any) (LinkedInv cfg) (fun _ _ _ => True) (create cfg name slug) w
      history := by
  refine Keeps.harmless_bind (insertsNone_all (Prog.All.perform trivial)) ?_
    fun _ _ _ _ _ _ => trivial
  intro found s₁ h₁ _
  cases found with
  | some org => exact Yields.throw _
  | none =>
    refine Keeps.harmless_bind (insertsNone_all (Prog.All.perform trivial)) ?_
      fun _ _ _ _ _ _ => trivial
    intro org s₂ h₂ _
    have hK := linkedKeeper cfg org.id.toText
    refine Yields.bind (hK.lift hK.base.onBoardOrganization_yields) fun wallet s₃ h₃ _ _ => ?_
    exact Yields.bind hK.generateBootstrapToken_yields fun token s₄ h₄ _ _ => .ret trivial

/-- Whatever is started keeps the tables linked. -/
theorem Activity.start_keeps (hsha : Function.Injective cfg.services.sha256) (activity : Activity)
    (w : ApiWorld) (history : List ApiEntry) :
    Yields (apiGrowth cfg .any) (LinkedInv cfg) (fun _ _ _ => True) (activity.start cfg) w
      history := by
  cases activity with
  | call orgId operation =>
    exact ((linkedKeeper cfg orgId).start_yields hsha operation).mono fun _ _ _ _ => trivial
  | canActivate route request =>
    refine Keeps.mono (fun _ _ _ _ _ _ => trivial) (Keeps.of_harmless (insertsNone_all ?_) w history)
    exact all_map (StampVerifierGuard.canActivate_insertsNone route request)
  | registerApiKey body request => exact .map (ApiKeysController.post_keeps body request)
  | createOrganization name slug => exact .map (OrganizationsService.create_keeps name slug)
  | monitor cycles =>
    refine Keeps.mono (fun _ _ _ _ _ _ => trivial) (Keeps.of_harmless (insertsNone_all ?_) w history)
    exact all_map (Prog.All.lift (Monitor.monitor_insertsNone cycles))

theorem spawned_insertsNone (command : ApiCmd) (thread : Api ApiOutcome)
    (hthread : thread ∈ apiSpawns cfg command) : thread.All ApiCmd.InsertsNone := by
  cases command with
  | base command =>
    cases command with
    | fork job =>
      rw [List.mem_singleton.mp hthread]
      cases job with
      | syncNonce walletId chainId walletAddress =>
        refine all_map (Prog.All.lift (Prog.All.bind (Prog.All.bind ?_ fun _ => ?_) fun _ => ?_))
        · exact rpcCallWithRetry_all (fun _ => trivial) cfg.services chainId
        · exact Prog.All.perform trivial
        · trivial
    | _ => cases hthread
  | fork job =>
    rw [List.mem_singleton.mp hthread]
    cases job with
    | touch apiKeyId lastUsedAt =>
      exact all_map (Prog.All.tryCatch (Prog.All.perform trivial) fun _ => trivial)
  | _ => cases hthread

theorem linked_empty (clock : Int) (violation : JsError) :
    LinkedInv cfg (ApiWorld.empty clock violation) [] := by
  constructor
  · constructor
    case wallets => exact List.nodup_nil
    case requests => exact List.nodup_nil
    case policies => exact List.nodup_nil
    case owned => exact fun _ hrow => absurd hrow List.not_mem_nil
    case keyed => exact fun _ hrow => absurd hrow List.not_mem_nil
  · exact ⟨List.nodup_nil, List.nodup_nil⟩

/-- **Ids are not shared and a request has the org of its wallet**, in every state the
    API reaches from empty tables. -/
theorem apiLinked_of_reach (hsha : Function.Injective cfg.services.sha256)
    {activities : List Activity} {clock : Int} {violation : JsError} {p : ApiPool}
    (hreach : Reach (api cfg) .any (apiPool cfg activities (ApiWorld.empty clock violation)) p) :
    ApiLinked cfg p.state.tables := by
  have hthreads : ∀ thread ∈ (apiPool cfg activities (ApiWorld.empty clock violation)).threads,
      Keeps (apiGrowth cfg .any) (LinkedInv cfg) (fun _ _ _ => True) thread
        (ApiWorld.empty clock violation) [] := by
    intro thread hthread
    obtain ⟨activity, _, rfl⟩ := List.mem_map.mp hthread
    exact Keeps.mono (fun _ _ _ _ => trivial) (activity.start_keeps hsha _ _)
  have hspawned : ∀ command thread, thread ∈ (api cfg).spawns command →
      thread.All (Harmless Guard.any (api cfg) (LinkedInv cfg)) :=
    fun command thread hthread => insertsNone_all (spawned_insertsNone command thread hthread)
  have hinv : LinkedInv cfg p.state p.history := by
    refine (Reach.keeps (apiGrowth cfg .any) hreach (linked_empty clock violation)
      hthreads hspawned ?_).1
    intro event w w' history h _ henv
    cases henv
    cases event with
    | tick duration => exact h
    | evict keep => exact h
  exact ⟨hinv.1, hinv.2.users, hinv.2.apiKeys⟩

end Reached

/-! ### Calls of one org -/

section Calls

variable {cfg : ApiConfig} {orgId : Text}

/-- Every counter that is synced in the background is of a wallet of the org. -/
def OwnJobs (orgId : Text) (t : Tables) (history : List ServiceEntry) : Prop :=
  ∀ entry ∈ history, ∀ walletId chainId walletAddress,
    entry.command = .fork (.syncNonce walletId chainId walletAddress) →
      HoldsWallet orgId walletId t

theorem OwnJobs.mono {t t' : Tables} {history : List ServiceEntry} (h : OwnJobs orgId t history)
    (hwallets : t.wallets <+: t'.wallets) : OwnJobs orgId t' history := by
  intro entry hentry walletId chainId walletAddress hcommand
  exact (h entry hentry walletId chainId walletAddress hcommand).mono hwallets

/-- A job that is started is for the org. -/
theorem OwnJobs.cons {t t' : Tables} {history : List ServiceEntry} (h : OwnJobs orgId t history)
    (hwallets : t.wallets <+: t'.wallets) {entry : ServiceEntry}
    (hwithin : entry.command.Within cfg.services orgId t) : OwnJobs orgId t' (entry :: history) := by
  intro other hother walletId chainId walletAddress hcommand
  rcases List.mem_cons.mp hother with rfl | hold
  · rw [hcommand] at hwithin
    exact HoldsWallet.mono hwithin hwallets
  · exact h.mono hwallets other hold walletId chainId walletAddress hcommand

/-- What the signing services see of calls of one org, started on the tables `t₀`. -/
structure Confined (cfg : ApiConfig) (orgId : Text) (t₀ : Tables) (w : World)
    (history : List ServiceEntry) : Prop where
  linked : Linked cfg.services w.tables
  spared : t₀.Spared orgId w.tables
  jobs : OwnJobs orgId w.tables history

/-- The same of the other tables; the guard starts no job. -/
structure OwnConfined (orgId : Text) (t₀ t : ApiTables) (history : List ApiEntry) : Prop where
  ids : OwnIds t history
  users : Spares UserRow.orgId (isOrg orgId) t₀.users t.users
  apiKeys : Spares ApiKey.orgId (isOrg orgId) t₀.apiKeys t.apiKeys
  adminAudit : Spares AdminAudit.orgId (isOrg orgId) t₀.adminAudit t.adminAudit
  quiet : ∀ entry ∈ history, ∀ job, entry.command ≠ .fork job

/-- The invariant of calls of one org. -/
abbrev ConfinedInv (cfg : ApiConfig) (orgId : Text) (t₀ : ApiTables) :
    ApiWorld → List ApiEntry → Prop :=
  ApiInv (Confined cfg orgId t₀.view) (OwnConfined orgId t₀)

theorem confined_keeper (t₀ : Tables) : Keeper cfg.services orgId (Confined cfg orgId t₀) where
  linked := Confined.linked
  step := by
    intro w history i command choice reply w' h hwithin hexec
    constructor
    case linked =>
      refine h.linked.exec hexec ?_
      rintro data rfl
      exact hwithin.2
    case spared => exact h.spared.trans (exec_spared hexec h.linked hwithin)
    case jobs => exact h.jobs.cons (exec_appends hexec).wallets hwithin

theorem confinedKeeper (cfg : ApiConfig) (orgId : Text) (t₀ : ApiTables) :
    ApiKeeper cfg orgId (Confined cfg orgId t₀.view) (OwnConfined orgId t₀) := by
  constructor
  case base => exact confined_keeper _
  case put =>
    intro w base history i command choice reply h
    refine ⟨⟨h.ids.users, h.ids.apiKeys⟩, h.users, h.apiKeys, h.adminAudit, ?_⟩
    intro entry hentry job hcommand
    rcases List.mem_cons.mp hentry with rfl | hold
    · cases hcommand
    · exact h.quiet entry hold job hcommand
  case linked => exact fun hlinked h => ⟨hlinked, h.ids.users, h.ids.apiKeys⟩
  case step =>
    intro w history i command choice reply w' hbase hrest hwithin hexec
    have hlinked : ApiLinked cfg w.tables := ⟨hbase.linked, hrest.ids.users, hrest.ids.apiKeys⟩
    have hspared := ApiCmd.exec_spared hexec hlinked hwithin
    have hwallets := (ApiCmd.exec_grows hexec).wallets
    have hafter : ApiLinked cfg w'.tables := by
      refine hlinked.exec hexec ?_
      rintro data rfl
      exact hwithin.2
    have hjobs : OwnJobs orgId w'.view.tables (past (entryOf i command choice reply :: history)) := by
      cases command with
      | base command => exact hbase.jobs.cons hwallets hwithin
      | _ => exact hbase.jobs.mono hwallets
    refine ⟨⟨hafter.base, hbase.spared.trans hspared.base, hjobs⟩, ?_⟩
    refine ⟨⟨hafter.users, hafter.apiKeys⟩, hrest.users.trans hspared.users,
      hrest.apiKeys.trans hspared.apiKeys, hrest.adminAudit.trans hspared.adminAudit, ?_⟩
    intro entry hentry job hcommand
    rcases List.mem_cons.mp hentry with rfl | hold
    · have hfork : command = .fork job := hcommand
      rw [hfork] at hwithin
      exact hwithin
    · exact hrest.quiet entry hold job hcommand

/-- Calls start with nothing done. -/
theorem confined_start {w : ApiWorld} (hlinked : ApiLinked cfg w.tables) :
    ConfinedInv cfg orgId w.tables w [] := by
  constructor
  · constructor
    case linked => exact hlinked.base
    case spared => exact Tables.Spared.refl _ _
    case jobs => exact fun _ hentry => absurd hentry List.not_mem_nil
  · constructor
    case ids => exact ⟨hlinked.users, hlinked.apiKeys⟩
    case users => exact Spares.refl _ _ _
    case apiKeys => exact Spares.refl _ _ _
    case adminAudit => exact Spares.refl _ _ _
    case quiet => exact fun _ hentry => absurd hentry List.not_mem_nil

/-- Time passes and transactions leave the mempool. -/
theorem confined_event {t₀ : ApiTables} {w : ApiWorld} {history : List ApiEntry}
    (h : ConfinedInv cfg orgId t₀ w history) (event : ApiEvent) :
    ConfinedInv cfg orgId t₀ (w.event event) history := by
  cases event with
  | tick duration => exact ⟨⟨h.1.linked, h.1.spared, h.1.jobs⟩, h.2⟩
  | evict keep => exact ⟨⟨h.1.linked, h.1.spared, h.1.jobs⟩, h.2⟩

/-- What a call leaves running is for its org. -/
theorem spawned_yields {t₀ : ApiTables} {i : Nat} {command : ApiCmd} {choice : Choice}
    {reply : Except JsError command.Reply} {w : ApiWorld} {history : List ApiEntry}
    (hinv : ConfinedInv cfg orgId t₀ w (entryOf i command choice reply :: history))
    {thread : Api ApiOutcome} (hthread : thread ∈ apiSpawns cfg command) :
    Yields (apiGrowth cfg .any) (ConfinedInv cfg orgId t₀)
      (fun outcome w' _ => outcome.Belongs orgId w'.tables) thread w
      (entryOf i command choice reply :: history) := by
  have hK := confinedKeeper cfg orgId t₀
  cases command with
  | base command =>
    cases command with
    | fork job =>
      rw [List.mem_singleton.mp hthread]
      cases job with
      | syncNonce walletId chainId walletAddress =>
        have hheld : HoldsWallet orgId walletId w.tables.view :=
          hinv.1.jobs _ List.mem_cons_self walletId chainId walletAddress rfl
        refine .map (hK.of_within (F := fun t => HoldsWallet orgId walletId t.view) ?_ ?_ hheld)
        · exact fun _ _ hgrows h => HoldsWallet.mono h hgrows.wallets
        · exact Prog.All.lift ((Job.start_within chainId walletAddress).mono
            fun _ h (t : ApiTables) => h t.view)
    | _ => cases hthread
  | fork job => exact absurd rfl (hinv.2.quiet _ List.mem_cons_self job)
  | _ => cases hthread

end Calls

/-- **Tenant isolation.**  Let any operations be called on behalf of one org, with any
    ids, on any state the API reaches from empty tables.  However they interleave, no
    row of another org is created, changed or removed, nor a counter of its wallets, and
    every record that is returned is the org's.  A sequence of calls is one way to
    interleave them. -/
theorem tenant_isolation {cfg : ApiConfig} (hsha : Function.Injective cfg.services.sha256)
    {activities : List Activity} {clock : Int} {violation : JsError} {p : ApiPool}
    (hreach : Reach (api cfg) .any (apiPool cfg activities (ApiWorld.empty clock violation)) p)
    (orgId : Text) (operations : List ApiCall) {p' : ApiPool}
    (hrun : Reach (api cfg) .any
      (apiPool cfg (operations.map (Activity.call orgId)) p.state) p') :
    p.state.tables.Spared orgId p'.state.tables ∧
      ∀ outcome, .ret outcome ∈ p'.threads → outcome.Belongs orgId p'.state.tables := by
  have hlinked := apiLinked_of_reach hsha hreach
  have hK := confinedKeeper cfg orgId p.state.tables
  have hstart : ConfinedInv cfg orgId p.state.tables p.state [] := confined_start hlinked
  have hthreads : ∀ thread ∈ (apiPool cfg (operations.map (Activity.call orgId)) p.state).threads,
      Yields (apiGrowth cfg .any) (ConfinedInv cfg orgId p.state.tables)
        (fun outcome w' _ => outcome.Belongs orgId w'.tables) thread p.state [] := by
    intro thread hthread
    obtain ⟨activity, hactivity, rfl⟩ := List.mem_map.mp hthread
    obtain ⟨operation, _, rfl⟩ := List.mem_map.mp hactivity
    exact hK.start_yields hsha operation
  have hstable : ∀ (outcome : Except JsError ApiOutcome) s history s' history',
      (apiGrowth cfg .any).Grows s history s' history' →
      (∀ value, outcome = .ok value → value.Belongs orgId s.tables) →
        ∀ value, outcome = .ok value → value.Belongs orgId s'.tables :=
    fun _ _ _ _ _ hgrows h value hvalue => (h value hvalue).grow hgrows.1
  obtain ⟨hinv, hends⟩ := Reach.outcomes_of_issued (apiGrowth cfg .any) hstable hrun hstart hthreads
    (fun _ _ _ _ _ _ hinv _ hthread => spawned_yields hinv hthread)
    (fun event _ _ _ h _ henv => Option.some.inj henv ▸ confined_event h event)
  refine ⟨⟨hinv.1.spared, hinv.2.users, hinv.2.apiKeys, hinv.2.adminAudit⟩, ?_⟩
  exact fun outcome houtcome => hends _ houtcome outcome rfl

namespace TenantSample

def one : Uuid := Sample.freshId 1

def two : Uuid := Sample.freshId 2

def config : ApiConfig := ApiSample.config

/-- Two organizations are made, each with a wallet. -/
def activities : List Activity :=
  [.createOrganization "One".toList "one".toList, .createOrganization "Two".toList "two".toList]

/-- An organization is made from start to end. -/
def creation (i : Nat) (org wallet token : Uuid) (address : String) : List (Move Choice ApiEvent) :=
  [Sample.run, .done org, Sample.run,
    .created ⟨"seed".toList, "nonce".toList, "dek".toList, address.toList⟩, Sample.run,
    .done wallet, Sample.run, .done token, Sample.run].map (Move.thread i)

def moves : List (Move Choice ApiEvent) :=
  creation 0 one (Sample.freshId 3) (Sample.freshId 5) "0xone" ++
  creation 1 two (Sample.freshId 4) (Sample.freshId 6) "0xtwo"

/-- The first org lists its wallets and asks for the wallet of the second. -/
def operations : List ApiCall := [.listWalletsByOrgId, .getWalletById (Sample.freshId 4).toText]

/-- A list of wallets was returned, and is not empty. -/
def lists (thread : Api ApiOutcome) : Bool :=
  match thread with
  | .ret (.wallets (_ :: _)) => true
  | _ => false

theorem lists_iff {thread : Api ApiOutcome} (h : lists thread = true) :
    ∃ views, views ≠ [] ∧ thread = .ret (.wallets views) := by
  simp only [lists] at h
  split at h
  · exact ⟨_, List.cons_ne_nil _ _, rfl⟩
  · cases h

theorem listed : ∃ p p',
    Reach (api config) .any (apiPool config activities (ApiWorld.empty 0 wrappedViolation)) p ∧
      (∃ row ∈ p.state.tables.base.wallets, row.orgId = two) ∧
      Reach (api config) .any
        (apiPool config (operations.map (Activity.call one.toText)) p.state) p' ∧
      ∃ thread ∈ p'.threads, lists thread = true := by
  obtain ⟨p, hreach, hp⟩ := Reach.exists_of_run (api config) Guard.any
    (apiPool config activities (ApiWorld.empty 0 wrappedViolation)) moves
    (fun p => (p.state.tables.base.wallets.any fun row => row.orgId = two) &&
      ((api config).run Guard.any [.thread 0 Sample.run, .thread 1 Sample.run]
        (apiPool config (operations.map (Activity.call one.toText)) p.state)).any
          fun p' => p'.threads.any lists)
    (by decide)
  obtain ⟨htwo, hlists⟩ := Bool.and_eq_true_iff.mp hp
  obtain ⟨row, hrow, horg⟩ := List.any_eq_true.mp htwo
  obtain ⟨p', hrun, hp'⟩ := Reach.exists_of_run _ _ _ _ _ hlists
  exact ⟨p, p', hreach, ⟨row, hrow, of_decide_eq_true horg⟩, hrun, List.any_eq_true.mp hp'⟩

end TenantSample

open TenantSample in
/-- One of two orgs sees its own wallet. -/
theorem tenant_isolation_two_orgs : ∃ p p' : ApiPool,
    Reach (api config) .any (apiPool config activities (ApiWorld.empty 0 wrappedViolation)) p ∧
      (∃ row ∈ p.state.tables.base.wallets, row.orgId = two) ∧
      p.state.tables.Spared one.toText p'.state.tables ∧
      ∃ views, views ≠ [] ∧ .ret (.wallets views) ∈ p'.threads ∧
        ∀ view ∈ views, view.Belongs one.toText p'.state.tables := by
  obtain ⟨p, p', hreach, htwo, hrun, thread, hthread, hlists⟩ := listed
  obtain ⟨views, hne, rfl⟩ := lists_iff hlists
  obtain ⟨hspared, hbelongs⟩ :=
    tenant_isolation Function.injective_id hreach one.toText operations hrun
  exact ⟨p, p', hreach, htwo, hspared, views, hne, hthread, hbelongs _ hthread⟩

end BrokeTurnkey
