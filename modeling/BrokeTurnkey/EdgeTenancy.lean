import BrokeTurnkey.Api.Endpoints
import BrokeTurnkey.TenantIsolation

/-!
# Tenants behind the edge

Tables that are reached through the edge are linked as those of the API are.  What is done
on behalf of another org leaves the rows of an org alone in all tables but two: its row
in `organizations` and its seed are written by id, so commands are bounded there by the
org they name.
-/

namespace BrokeTurnkey

open Interaction

/-! ### Every state of the edge is linked -/

section Linked

variable {cfg : ApiConfig}

theorem ApiKeysController.resolveOrgId_insertsNone (user : Option AuthUser)
    (bootstrapToken : Option Text) :
    (resolveOrgId cfg user bootstrapToken).All ApiCmd.InsertsNone := by
  simp only [resolveOrgId]
  split
  · trivial
  · exact Prog.All.bind (Prog.All.perform trivial) fun _ => trivial
  · trivial

/-- A handler keeps the tables linked, whoever it runs for. -/
theorem Endpoint.handler_keeps (hsha : Function.Injective cfg.services.sha256)
    (request : HttpRequest) (user : Option AuthUser) (endpoint : Endpoint) (w : ApiWorld)
    (history : List ApiEntry) :
    Yields (apiGrowth cfg .any) (LinkedInv cfg) (fun _ _ _ => True)
      (endpoint.handler cfg request user) w history := by
  have hcall : ∀ operation : ApiCall, Yields (apiGrowth cfg .any) (LinkedInv cfg)
      (fun _ _ _ => True) (callService cfg user operation) w history := by
    intro operation
    refine Yields.harmless_bind (insertsNone_all (all_ofExcept _)) fun orgId s₁ h₁ _ => ?_
    exact Yields.map (((linkedKeeper cfg orgId).start_yields hsha operation).mono
      fun _ _ _ _ => trivial)
  have hreads : ∀ {p : Api Response}, p.All ApiCmd.InsertsNone →
      Yields (apiGrowth cfg .any) (LinkedInv cfg) (fun _ _ _ => True) p w history := by
    intro p hp
    exact Keeps.mono (fun _ _ _ _ _ _ => trivial) (Keeps.of_harmless (insertsNone_all hp) w history)
  cases endpoint with
  | createOrganization body => exact Yields.map (OrganizationsService.create_keeps body.name body.slug)
  | findOrganization =>
    refine hreads (Prog.All.bind (all_ofExcept _) fun orgId => all_map ?_)
    exact Prog.All.bind (Prog.All.perform trivial) fun _ => trivial
  | findBySlug slug =>
    refine hreads (Prog.All.bind (all_ofExcept _) fun orgId => all_map ?_)
    refine Prog.All.bind (Prog.All.bind (Prog.All.perform trivial) fun _ => trivial) fun _ => ?_
    trivial
  | registerApiKey body =>
    refine Yields.map (Yields.harmless_bind (insertsNone_all
      (ApiKeysController.resolveOrgId_insertsNone user _)) fun orgId s₁ h₁ _ => ?_)
    split
    · exact Yields.throw _
    · rename_i orgId _
      exact ((linkedKeeper cfg orgId).registerApiKey_yields body _ _).mono fun _ _ _ _ => trivial
  | _ => exact hcall _

theorem Arrival.start_keeps (hsha : Function.Injective cfg.services.sha256) (arrival : Arrival)
    (w : ApiWorld) (history : List ApiEntry) :
    Yields (apiGrowth cfg .any) (LinkedInv cfg) (fun _ _ _ => True) (arrival.start cfg) w
      history := by
  cases arrival with
  | request incoming =>
    refine Yields.harmless_bind (insertsNone_all
      (StampVerifierGuard.canActivate_insertsNone _ _)) fun user s₁ h₁ _ => ?_
    refine Yields.harmless_bind (insertsNone_all (all_ofExcept _)) fun _ s₂ h₂ _ => ?_
    refine Yields.harmless_bind (insertsNone_all (all_ofExcept _)) fun _ s₃ h₃ _ => ?_
    refine Yields.harmless_bind (insertsNone_all (all_ofExcept _)) fun _ s₄ h₄ _ => ?_
    exact Endpoint.handler_keeps hsha _ user _ s₄ h₄
  | monitor cycles => exact Yields.map ((Activity.monitor cycles).start_keeps hsha w history)

/-- The tables of the edge grow as those of the API. -/
def edgeGrowth (cfg : ApiConfig) : Evolution (edge cfg) .any where
  Grows := (apiGrowth cfg .any).Grows
  refl := (apiGrowth cfg .any).refl
  trans := (apiGrowth cfg .any).trans
  command := fun history hguard hexec => (apiGrowth cfg .any).command history hguard hexec
  event := fun history hguard henv => (apiGrowth cfg .any).event history hguard henv

/-- What a program keeps in the API it keeps behind its edge. -/
theorem keeps_edge {β : Type} {Inv : ApiWorld → List ApiEntry → Prop}
    {Q : Except JsError β → ApiWorld → List ApiEntry → Prop} {p : Api β} {w : ApiWorld}
    {history : List ApiEntry} (h : Keeps (apiGrowth cfg .any) Inv Q p w history) :
    Keeps (edgeGrowth cfg) Inv Q p w history :=
  h.of_exec (fun _ _ _ => rfl) fun _ _ _ _ hgrows => hgrows

/-- **Ids are not shared and a request has the org of its wallet**, in every state that
    is reached through the edge from empty tables. -/
theorem edge_linked (hsha : Function.Injective cfg.services.sha256) {arrivals : List Arrival}
    {clock : Int} {violation : JsError} {p : EdgePool}
    (hreach : Reach (edge cfg) .any (edgePool cfg arrivals (ApiWorld.empty clock violation)) p) :
    ApiLinked cfg p.state.tables := by
  have hthreads : ∀ thread ∈ (edgePool cfg arrivals (ApiWorld.empty clock violation)).threads,
      Keeps (edgeGrowth cfg) (LinkedInv cfg) (fun _ _ _ => True) thread
        (ApiWorld.empty clock violation)
        [] := by
    intro thread hthread
    obtain ⟨arrival, _, rfl⟩ := List.mem_map.mp hthread
    exact keeps_edge (Keeps.mono (fun _ _ _ _ => trivial) (arrival.start_keeps hsha _ _))
  have hspawned : ∀ command thread, thread ∈ (edge cfg).spawns command →
      thread.All (Harmless Guard.any (edge cfg) (LinkedInv cfg)) := by
    intro command thread hthread
    obtain ⟨job, hjob, rfl⟩ := List.mem_map.mp hthread
    exact all_map (insertsNone_all (spawned_insertsNone command job hjob))
  have hinv : LinkedInv cfg p.state p.history := by
    refine (Reach.keeps (edgeGrowth cfg) hreach (linked_empty clock violation)
      hthreads hspawned ?_).1
    rintro event w w' history h _ ⟨⟩
    cases event with
    | tick duration => exact h
    | evict keep => exact h
  exact ⟨hinv.1, hinv.2.users, hinv.2.apiKeys⟩

end Linked

/-! ### An org that is left alone -/

/-- Any other org. -/
def others (org other : Uuid) : Bool := other ≠ org

theorem others_eq_false {org other : Uuid} : others org other = false ↔ other = org := by
  simp [others]

/-- No row of the org was created, changed or removed, nor a counter of its wallets. -/
structure Tables.Untouched (org : Uuid) (t t' : Tables) : Prop where
  wallets : Spares Wallet.orgId (others org) t.wallets t'.wallets
  requests : Spares SigningRequest.orgId (others org) t.requests t'.requests
  policies : Spares Policy.orgId (others org) t.policies t'.policies
  auditLog : Spares AuditLog.orgId (others org) t.auditLog t'.auditLog
  nonces : ∀ row ∈ t.wallets, row.orgId = org → t'.nonces row.id = t.nonces row.id

/-- The same of all tables of the API. -/
structure ApiTables.Untouched (org : Uuid) (t t' : ApiTables) : Prop where
  organizations : Spares Organization.id (others org) t.organizations t'.organizations
  seeds : Spares OrganizationSeed.orgId (others org) t.base.seeds t'.base.seeds
  base : t.view.Untouched org t'.view
  users : Spares UserRow.orgId (others org) t.users t'.users
  apiKeys : Spares ApiKey.orgId (others org) t.apiKeys t'.apiKeys
  adminAudit : Spares AdminAudit.orgId (others org) t.adminAudit t'.adminAudit

section Spared

variable {org : Uuid} {orgId : Text}

theorem others_of_isOrg (hother : isOrg orgId org = false) (other : Uuid)
    (h : isOrg orgId other = true) : others org other = true := by
  refine decide_eq_true fun heq => ?_
  rw [heq, hother] at h
  cases h

namespace Tables.Untouched

theorem refl (org : Uuid) (t : Tables) : Untouched org t t :=
  ⟨.refl _ _ _, .refl _ _ _, .refl _ _ _, .refl _ _ _, fun _ _ _ => rfl⟩

theorem trans {t t' t'' : Tables} (h : Untouched org t t') (h' : Untouched org t' t'') :
    Untouched org t t'' where
  wallets := h.wallets.trans h'.wallets
  requests := h.requests.trans h'.requests
  policies := h.policies.trans h'.policies
  auditLog := h.auditLog.trans h'.auditLog
  nonces := by
    intro row hrow hown
    rw [h'.nonces row ((h.wallets.mem_iff (others_eq_false.mpr hown)).mpr hrow) hown,
      h.nonces row hrow hown]

/-- What another org does leaves the org alone. -/
theorem of_spared {t t' : Tables} (h : t.Spared orgId t') (hother : isOrg orgId org = false) :
    Untouched org t t' where
  wallets := h.wallets.mono (others_of_isOrg hother)
  requests := h.requests.mono (others_of_isOrg hother)
  policies := h.policies.mono (others_of_isOrg hother)
  auditLog := h.auditLog.mono (others_of_isOrg hother)
  nonces := fun row hrow hown => h.nonces row hrow (hown ▸ hother)

end Tables.Untouched

end Spared

/-! ### The rows an org begins with -/

/-- The command writes neither the row of the org in `organizations` nor its seed. -/
def ApiCmd.SparesRoot (org : Uuid) : ApiCmd → Prop
  | .sql (.orgUpdate orgId _) => isOrg orgId org = false
  | .base (.sql (.seedCreate data)) => isOrg data.orgId org = false
  | _ => True

/-- The org exists, and its row and its seed are the same as at the start. -/
structure RootKept (org : Uuid) (t₀ t : ApiTables) : Prop where
  organizations : Spares Organization.id (others org) t₀.organizations t.organizations
  seeds : Spares OrganizationSeed.orgId (others org) t₀.base.seeds t.base.seeds
  founded : ∃ row ∈ t.organizations, row.id = org

section Root

variable {org : Uuid} {t₀ : ApiTables} {command : ApiCmd} {choice : Choice} {w w' : ApiWorld}
  {reply : Except JsError command.Reply}

/-- The row of an org that is created is not that of the org. -/
theorem orgCreate_cases {name slug : Text} {id : Uuid} {drawn : List Uuid} {t : ApiTables}
    (hfresh : (ApiSql.orgCreate name slug).isFresh id drawn t = true)
    (hfounded : ∃ row ∈ t.organizations, row.id = org) (now : Int) :
    (∃ row : Organization, others org row.id = true ∧
      (ApiSql.orgCreate name slug).exec id now t =
        (.ok row, { t with organizations := t.organizations ++ [row] })) ∨
    ∃ error, (ApiSql.orgCreate name slug).exec id now t = (.error error, t) := by
  simp only [ApiSql.exec, OrganizationRepository.create]
  split
  · exact .inr ⟨_, rfl⟩
  · refine .inl ⟨_, ?_, rfl⟩
    obtain ⟨row, hrow, rfl⟩ := hfounded
    have hne := of_decide_eq_true (List.all_eq_true.mp hfresh row hrow)
    exact decide_eq_true fun heq => hne heq.symm

theorem ApiSql.exec_root {statement : ApiSql} {t : ApiTables} (h : RootKept org t₀ t)
    (hspares : (ApiCmd.sql statement).SparesRoot org) {id : Uuid} {drawn : List Uuid}
    (hfresh : statement.isFresh id drawn t = true) (now : Int) :
    RootKept org t₀ (statement.exec id now t).2 := by
  have hagree := statement.exec_agree id now t
  have hseeds : (statement.exec id now t).2.base.seeds = t.base.seeds := by rw [hagree.base]
  by_cases hwrites : statement.writes = some .organizations
  · cases statement with
    | orgCreate name slug =>
      rcases orgCreate_cases hfresh h.founded now with ⟨row, hother, heq⟩ | ⟨error, heq⟩
      · rw [heq]
        obtain ⟨first, hfirst, hid⟩ := h.founded
        exact ⟨h.organizations.trans (.append hother), h.seeds,
          first, List.mem_append_left _ hfirst, hid⟩
      · rw [heq]
        exact h
    | orgUpdate orgId hash =>
      rw [ApiSql.exec]
      cases hanswer : OrganizationRepository.update orgId hash now t with
      | error error => exact h
      | ok result =>
        obtain ⟨u, hu, rfl⟩ := map_eq_ok.mp hanswer
        have hne : u ≠ org := by
          rintro rfl
          have hnot : isOrg orgId u = false := hspares
          rw [isOrg_iff.mpr (parseUuid_eq_ok.mp hu)] at hnot
          cases hnot
        have hkept : ∀ row : Organization, row.id = org →
            OrganizationRepository.updateRow u hash now row = row :=
          fun row hid => if_neg fun heq => hne (heq.symm.trans hid)
        refine ⟨h.organizations.trans (.map (fun row => ?_) fun row _ hown => ?_), h.seeds, ?_⟩
        · simp only [OrganizationRepository.updateRow]
          split <;> rfl
        · exact hkept row (others_eq_false.mp hown)
        · obtain ⟨row, hrow, hid⟩ := h.founded
          exact ⟨row, List.mem_map.mpr ⟨row, hrow, hkept row hid⟩, hid⟩
    | _ => cases hwrites
  · have horgs := hagree.organizations hwrites
    exact ⟨horgs ▸ h.organizations, hseeds ▸ h.seeds, horgs ▸ h.founded⟩

theorem exec_root (h : RootKept org t₀ w.tables) (hspares : command.SparesRoot org)
    (hexec : command.exec choice w = some (reply, w')) : RootKept org t₀ w'.tables := by
  cases command with
  | base command =>
    obtain ⟨base, hbase, rfl⟩ := ApiCmd.exec_base hexec
    refine ⟨h.organizations, ?_, h.founded⟩
    by_cases hwrites : command.writes = some .seeds
    · cases command with
      | sql statement =>
        cases statement with
        | seedCreate data =>
          have hstored : Spares OrganizationSeed.orgId (others org) w.tables.base.seeds
              (OrganizationSeedRepository.create data w.tables.view).2.seeds := by
            rcases seedCreate_cases data w.tables.view with ⟨owner, howner, _, heq⟩ | ⟨error, heq⟩
            · rw [heq]
              exact .append (others_of_isOrg hspares _ (isOrg_iff.mpr howner))
            · rw [heq]
              exact .refl _ _ _
          rcases exec_sql hbase with ⟨_, _, rfl, _⟩ | ⟨error, _, _, _, rfl⟩
          · exact h.seeds.trans hstored
          · exact h.seeds
        | _ => cases hwrites
      | _ => cases hwrites
    · exact h.seeds.trans (.of_eq ((exec_agree hbase).seeds hwrites))
  | sql statement =>
    rcases ApiCmd.exec_sql hexec with ⟨id, hfresh, rfl, _⟩ | ⟨error, _, _, _, rfl⟩
    · exact statement.exec_root h hspares hfresh w.clock
    · exact h
  | randomUUID =>
    obtain ⟨id, rfl⟩ := ApiCmd.exec_randomUUID hexec
    exact h
  | signHash wallet key hash => exact ApiCmd.exec_query rfl hexec ▸ h
  | fork job => exact ApiCmd.exec_query rfl hexec ▸ h

end Root

end BrokeTurnkey
