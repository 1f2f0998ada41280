import BrokeTurnkey.Api.Growth

/-!
# What a failed creation of an organization leaves

`OrganizationsService.create` inserts the org and then makes its seed, its first wallet and
its bootstrap token, in separate statements.  The slug is unique and a taken slug is
refused, so a call that fails after the insert leaves the slug to an org nobody can use.
-/

namespace BrokeTurnkey

open Interaction

/-! ### What is claimed -/

def SlugTaken (slug : Text) (w : ApiWorld) : Prop :=
  ∃ org ∈ w.tables.organizations, org.slug = slug

/-- Some later call for the slug succeeds. -/
def CanCreate (cfg : ApiConfig) (slug : Text) (w : ApiWorld) : Prop :=
  ∃ name created w', Attains (api cfg) .any (OrganizationsService.create cfg name slug) w
    (.ok created) w'

/-- The org has its seed, its wallet at index 0, and a token that was returned. -/
structure Complete (cfg : ApiConfig) (outcome : Except JsError OrganizationsService.Created)
    (w : ApiWorld) (org : Organization) : Prop where
  seed : ∃ row ∈ w.tables.base.seeds, row.orgId = org.id
  wallet : ∃ row ∈ w.tables.base.wallets, row.orgId = org.id ∧
    row.derivationPath = WalletService.firstDerivationPath
  token : ∃ created, outcome = .ok created ∧
    org.bootstrapTokenHash = some (AuthService.tokenHash cfg created.bootstrapToken)

/-- After a call from `w` that ended at `w'`, the slug can still be used, or an org has it
    that was there before or is complete. -/
def AllOrNothing (cfg : ApiConfig) (slug : Text) (w : ApiWorld)
    (outcome : Except JsError OrganizationsService.Created) (w' : ApiWorld) : Prop :=
  CanCreate cfg slug w' ∨ ∃ org ∈ w'.tables.organizations, org.slug = slug ∧
    (org ∈ w.tables.organizations ∨ Complete cfg outcome w' org)

/-- The insert of the org reached the database. -/
def Inserted (history : List ApiEntry) : Prop :=
  ∃ entry ∈ history, (∃ name slug, entry.command = .sql (.orgCreate name slug)) ∧
    entry.choice.ran = true

/-- An id that `gen_random_uuid()` and `randomUUID` may draw. -/
structure Unused (id : Uuid) (w : ApiWorld) : Prop where
  organizations : ∀ row ∈ w.tables.organizations, row.id ≠ id
  seeds : ∀ row ∈ w.tables.base.seeds, row.orgId ≠ id
  wallets : ∀ row ∈ w.tables.base.wallets, row.id ≠ id ∧ row.orgId ≠ id
  apiKeys : ∀ row ∈ w.tables.apiKeys, row.id ≠ id
  drawn : id ∉ w.drawn

namespace OrganizationSetup

/-! ### A slug stays taken -/

theorem slug_updateRow (id : Uuid) (hash : Option Text) (now : Int) (row : Organization) :
    (OrganizationRepository.updateRow id hash now row).slug = row.slug := by
  simp only [OrganizationRepository.updateRow]
  split
  · rfl
  · rfl

theorem exec_slugs {command : ApiCmd} {choice : Choice} {w w' : ApiWorld}
    {reply : Except JsError command.Reply} (hexec : command.exec choice w = some (reply, w')) :
    Extends Organization.slug w.tables.organizations w'.tables.organizations := by
  cases command with
  | base command =>
    obtain ⟨base, _, rfl⟩ := ApiCmd.exec_base hexec
    exact .refl _ _
  | sql statement =>
    rcases ApiCmd.exec_sql hexec with ⟨id, _, rfl, _⟩ | ⟨error, _, _, _, rfl⟩
    · cases statement with
      | orgCreate name slug =>
        simp only [ApiSql.exec, OrganizationRepository.create]
        split
        · exact .refl _ _
        · exact .append _ _ _
      | orgUpdate orgId hash =>
        simp only [ApiSql.exec, OrganizationRepository.update]
        cases parseUuid orgId with
        | ok id => exact .map (slug_updateRow id hash w.clock) _
        | error error => exact .refl _ _
      | _ => exact .of_eq ((ApiSql.exec_agree _ id w.clock w.tables).organizations (by simp [ApiSql.writes]))
    · exact .refl _ _
  | randomUUID =>
    obtain ⟨id, rfl⟩ := ApiCmd.exec_randomUUID hexec
    exact .refl _ _
  | signHash wallet key hash =>
    rw [ApiCmd.exec_query rfl hexec]
    exact .refl _ _
  | fork job =>
    rw [ApiCmd.exec_query rfl hexec]
    exact .refl _ _

theorem slugTaken_exec {slug : Text} {w w' : ApiWorld} (h : SlugTaken slug w) {command : ApiCmd}
    {choice : Choice} {reply : Except JsError command.Reply}
    (hexec : command.exec choice w = some (reply, w')) : SlugTaken slug w' := by
  obtain ⟨org, horg, hslug⟩ := h
  obtain ⟨org', horg', hsame⟩ := (exec_slugs hexec).mem horg
  exact ⟨org', horg', hsame.trans hslug⟩

theorem findBySlug_eq_none {slug : Text} {w : ApiWorld} :
    (w.tables.organizations.find? fun row => row.slug = slug) = none ↔ ¬SlugTaken slug w := by
  simp [SlugTaken, List.find?_eq_none]

section Runs

variable {cfg : ApiConfig} {name slug : Text} {w : ApiWorld}

/-- A taken slug is refused. -/
theorem create_refuses (htaken : SlugTaken slug w) (history : List ApiEntry) :
    Meets (api cfg) .any (fun outcome _ _ => ∀ created, outcome ≠ .ok created)
      (OrganizationsService.create cfg name slug) w history := by
  apply meets_select_bind rfl
  · intro found id history' hfound
    have hread : found = w.tables.organizations.find? fun row => row.slug = slug :=
      (Except.ok.inj hfound).symm
    cases found with
    | some org =>
      intro created hcreated
      cases hcreated
    | none => exact absurd htaken (findBySlug_eq_none.mp hread.symm)
  · intro error history' created hcreated
    cases hcreated

theorem not_canCreate (htaken : SlugTaken slug w) : ¬CanCreate cfg slug w := by
  rintro ⟨name, created, w', hattains⟩
  obtain ⟨history, hrun⟩ := hattains []
  exact hrun.meets (create_refuses htaken []) created rfl

theorem inserted_cons {history : List ApiEntry} (h : Inserted history) (entry : ApiEntry) :
    Inserted (entry :: history) := by
  obtain ⟨inserted, hmem, hinserted⟩ := h
  exact ⟨inserted, List.mem_cons_of_mem _ hmem, hinserted⟩

/-- How a failed call leaves things: it inserted nothing and changed nothing, or it took a
    free slug. -/
def Leaves (slug : Text) (w : ApiWorld) (outcome : Except JsError OrganizationsService.Created)
    (w' : ApiWorld) (history : List ApiEntry) : Prop :=
  ∀ error, outcome = .error error →
    (¬Inserted history ∧ w' = w) ∨ (Inserted history ∧ ¬SlugTaken slug w ∧ SlugTaken slug w')

theorem insert_meets (hfree : ¬SlugTaken slug w) {history : List ApiEntry}
    (hnot : ¬Inserted history) :
    Meets (api cfg) .any (fun outcome w' history' =>
      (∃ error, outcome = .error error ∧ ¬Inserted history' ∧ w' = w) ∨
        (Inserted history' ∧ SlugTaken slug w'))
      (Api.sql (.orgCreate name slug)) w history := by
  refine Meets.perform fun choice reply w' _ hexec => ?_
  rcases ApiCmd.exec_sql hexec with ⟨id, _, rfl, hreply⟩ | ⟨error, rfl, _, rfl, rfl⟩
  · have hran : choice.ran = true := by
      rcases hreply with ⟨rfl, _⟩ | ⟨error, rfl, _, _⟩
      · rfl
      · rfl
    refine .inr ⟨⟨_, List.mem_cons_self, ⟨name, slug, rfl⟩, hran⟩, ?_⟩
    have hnone : ¬(w.tables.organizations.any fun row => row.slug = slug) = true := by
      simpa [SlugTaken] using hfree
    simp only [ApiSql.exec, OrganizationRepository.create, if_neg hnone]
    exact ⟨_, List.mem_append_right _ List.mem_cons_self, rfl⟩
  · refine .inl ⟨error, rfl, ?_, rfl⟩
    rintro ⟨entry, hentry, hinserted⟩
    rcases List.mem_cons.mp hentry with rfl | hold
    · exact absurd hinserted.2 (by simp [entryOf, Choice.ran])
    · exact hnot ⟨entry, hold, hinserted⟩

theorem create_leaves :
    Meets (api cfg) .any (Leaves slug w) (OrganizationsService.create cfg name slug) w [] := by
  refine Meets.bind (P := fun outcome w' history => w' = w ∧ ¬Inserted history ∧
    ∀ found, outcome = .ok found →
      found = w.tables.organizations.find? fun row => row.slug = slug) ?_ ?_ ?_
  · refine Meets.perform fun choice reply w' _ hexec => ?_
    refine ⟨@ApiCmd.exec_query (.sql (.orgFindBySlug slug)) rfl _ _ _ _ hexec, ?_, ?_⟩
    · simp [Inserted, entryOf]
    · rintro found rfl
      obtain ⟨_, id, hread⟩ := ApiCmd.exec_select rfl hexec
      exact (Except.ok.inj hread).symm
  · rintro found w' history ⟨rfl, hnot, hfound⟩
    have hread := hfound found rfl
    cases found with
    | some org =>
      intro error _
      exact .inl ⟨hnot, rfl⟩
    | none =>
      have hfree := findBySlug_eq_none.mp hread.symm
      refine Meets.bind (insert_meets hfree hnot) ?_ ?_
      · rintro org w'' history' (⟨error, herror, _⟩ | htaken)
        · cases herror
        · -- whatever the rest does, the slug stays taken
          apply Meets.mono (P := fun _ s history => Inserted history ∧ SlugTaken slug s)
          · intro outcome s history ⟨hinserted, hslug⟩ error _
            exact .inr ⟨hinserted, hfree, hslug⟩
          · refine Meets.of_all ((Prog.all_true _).mono fun command _ => ?_) htaken
            intro choice reply s s' history ⟨hinserted, hslug⟩ _ hexec
            exact ⟨inserted_cons hinserted _, slugTaken_exec hslug hexec⟩
      · rintro error w'' history' (⟨_, _, hnot', hsame⟩ | htaken) _ _
        · exact .inl ⟨hnot', hsame⟩
        · exact .inr ⟨htaken.1, hfree, htaken.2⟩
  · rintro error w' history ⟨hsame, hnot, _⟩ _ _
    exact .inl ⟨hnot, hsame⟩

end Runs

/-! ### A free slug can be used -/

/-- What the sidecar may answer. -/
def response : CreateWalletResponse := ⟨[], [], [], []⟩

/-- An org without a seed and without wallets can be onboarded. -/
theorem onBoardOrganization_attains {cfg : Config} {w : World} {id : Uuid}
    (hseeds : ∀ row ∈ w.tables.seeds, row.orgId ≠ id)
    (hwallets : ∀ row ∈ w.tables.wallets, row.id ≠ id ∧ row.orgId ≠ id) :
    ∃ onboarded w', Attains (services cfg) .any
      (WalletService.onBoardOrganization id.toText) w (.ok onboarded) w' := by
  have hnoseed : (w.tables.seeds.any fun row => row.orgId = id) = false := by
    simpa using hseeds
  have hnowallet : (w.tables.wallets.any fun row => row.orgId = id ∧
      (row.derivationPath = WalletService.firstDerivationPath ∨
        row.address = response.firstAddress)) = false := by
    simp only [List.any_eq_false, decide_eq_true_eq]
    intro row hrow hsame
    exact (hwallets row hrow).2 hsame.1
  have hfind : OrganizationSeedRepository.findByOrgId id.toText w.tables =
      (.ok none, w.tables) := by
    simpa [OrganizationSeedRepository.findByOrgId, withUuid, Uuid.ofText_toText] using hseeds
  obtain ⟨t₁, hseed, hsame⟩ : ∃ t₁, OrganizationSeedRepository.create ⟨id.toText,
      response.encryptedSeed, response.seedNonce, response.encryptedDek⟩ w.tables = (.ok (), t₁) ∧
      t₁.wallets = w.tables.wallets := by
    simp [OrganizationSeedRepository.create, withUuid, Uuid.ofText_toText, hnoseed]
  obtain ⟨row, t₂, hwallet⟩ : ∃ row t₂, WalletRepository.create
      { orgId := id.toText, userId := none, label := none, address := response.firstAddress,
        derivationPath := WalletService.firstDerivationPath } id t₁ = (.ok row, t₂) := by
    have hnone : ¬(t₁.wallets.any fun row => row.orgId = id ∧
        (row.derivationPath = WalletService.firstDerivationPath ∨
          row.address = response.firstAddress)) = true := by
      rw [hsame, hnowallet]
      simp
    simp only [WalletRepository.create, withUuid, withOptionUuid, Uuid.ofText_toText,
      if_neg hnone]
    exact ⟨_, _, rfl⟩
  obtain ⟨t₃, haudit⟩ : ∃ t₃, AuditLogRepository.create
      { orgId := id.toText, event := .orgOnboarded, status := .success } w.clock t₂ =
        (.ok (), t₃) := by
    simp [AuditLogRepository.create, withUuid, withOptionUuid, Uuid.ofText_toText]
  have hfresh : (t₁.wallets.all fun row => row.id ≠ id) = true := by
    rw [hsame]
    simpa using fun row hrow => (hwallets row hrow).1
  have hcreated : (services cfg).exec (.sidecar .createWallet) (.created response) w =
      some (.ok response, w) := rfl
  refine ⟨⟨id.toText, response.firstAddress⟩, { w with tables := t₃ }, ?_⟩
  refine Attains.bind (attains_sql id rfl hfind) ?_
  refine Attains.bind (Attains.perform trivial hcreated) ?_
  refine Attains.bind (attains_sql id rfl hseed) ?_
  refine Attains.bind (attains_sql id hfresh hwallet) ?_
  exact Attains.bind (attains_sql id rfl haudit) (.ret _ _)

theorem generateBootstrapToken_attains {cfg : ApiConfig} {w : ApiWorld} {id : Uuid}
    (hkeys : ∀ row ∈ w.tables.apiKeys, row.id ≠ id) (hdrawn : id ∉ w.drawn) :
    ∃ w', Attains (api cfg) .any (AuthService.generateBootstrapToken cfg id.toText) w
      (.ok id.toText) w' := by
  have hunused : ((w.tables.apiKeys.all fun row => row.id ≠ id) && !w.drawn.contains id) =
      true := by
    simpa using ⟨hkeys, hdrawn⟩
  have hdraws : (api cfg).exec .randomUUID (.done id) w =
      some (.ok id, { w with drawn := id :: w.drawn }) := by
    change (if (w.tables.apiKeys.all fun row => row.id ≠ id) && !w.drawn.contains id then _
      else none) = _
    rw [if_pos hunused]
  obtain ⟨t, hupdate⟩ : ∃ t, (ApiSql.orgUpdate id.toText
      (some (AuthService.tokenHash cfg id.toText))).exec id w.clock w.tables = (.ok (), t) := by
    simp only [ApiSql.exec, OrganizationRepository.update, parseUuid, Uuid.ofText_toText]
    exact ⟨_, rfl⟩
  have hstored : Attains (api cfg) .any (Api.sql (.orgUpdate id.toText
      (some (AuthService.tokenHash cfg id.toText)))) { w with drawn := id :: w.drawn } (.ok ())
      { w with tables := t, drawn := id :: w.drawn } :=
    ApiCmd.attains_sql id rfl hupdate
  exact ⟨_, Attains.bind (Attains.perform trivial hdraws) (Attains.bind hstored (.ret _ _))⟩

/-- **As long as ids are left, a free slug can be used.** -/
theorem canCreate_of_free {cfg : ApiConfig} {slug : Text} {w : ApiWorld} {id : Uuid}
    (hid : Unused id w) (hfree : ¬SlugTaken slug w) : CanCreate cfg slug w := by
  have hnotaken : ¬(w.tables.organizations.any fun row => row.slug = slug) = true := by
    simpa [SlugTaken] using hfree
  have hfind : (ApiSql.orgFindBySlug slug).exec id w.clock w.tables = (.ok none, w.tables) := by
    rw [← findBySlug_eq_none.mpr hfree]
    rfl
  have hfresh : (ApiSql.orgCreate [] slug).isFresh id w.drawn w.tables = true := by
    simpa [ApiSql.isFresh] using hid.organizations
  obtain ⟨org, t, hinsert, hbase, hkeys, horg⟩ : ∃ (org : Organization) (t : ApiTables),
      (ApiSql.orgCreate [] slug).exec id w.clock w.tables = (.ok org, t) ∧
        t.base = w.tables.base ∧ t.apiKeys = w.tables.apiKeys ∧ org.id = id := by
    simp only [ApiSql.exec, OrganizationRepository.create, if_neg hnotaken]
    exact ⟨_, _, rfl, rfl, rfl, rfl⟩
  have hseeds : ∀ row ∈ t.base.seeds, row.orgId ≠ id := by
    rw [hbase]
    exact hid.seeds
  have hwallets : ∀ row ∈ t.base.wallets, row.id ≠ id ∧ row.orgId ≠ id := by
    rw [hbase]
    exact hid.wallets
  have hapiKeys : ∀ row ∈ t.apiKeys, row.id ≠ id := by
    rw [hkeys]
    exact hid.apiKeys
  let inserted : ApiWorld := { w with tables := t }
  obtain ⟨onboarded, base, hboards⟩ :=
    @onBoardOrganization_attains cfg.services inserted.view id hseeds hwallets
  obtain ⟨w', hgenerates⟩ :=
    @generateBootstrapToken_attains cfg (inserted.put base) id hapiKeys hid.drawn
  refine ⟨[], ⟨OrganizationsService.toPublicOrg org, id.toText, onboarded.firstAddress⟩, w', ?_⟩
  refine Attains.bind (ApiCmd.attains_sql id rfl hfind) ?_
  refine Attains.bind (ApiCmd.attains_sql id hfresh hinsert) ?_
  rw [horg]
  refine Attains.bind ((services_embedding cfg).attains hboards) ?_
  exact Attains.bind hgenerates (.ret _ _)

/-- A failed call that took a free slug leaves it unusable. -/
theorem not_allOrNothing {cfg : ApiConfig} {slug : Text} {w w' : ApiWorld} {error : JsError}
    (hfree : ¬SlugTaken slug w) (htaken : SlugTaken slug w') :
    ¬AllOrNothing cfg slug w (.error error) w' := by
  rintro (hcreates | ⟨org, horg, hslug, hold | hcomplete⟩)
  · exact not_canCreate htaken hcreates
  · exact hfree ⟨org, hold, hslug⟩
  · obtain ⟨created, hcreated, _⟩ := hcomplete.token
    cases hcreated

def unavailable : JsError := .error "unavailable".toList

theorem failed_exists (choices : List Choice) {P : ApiWorld × List ApiEntry → Prop}
    [DecidablePred P]
    (h : (((api ApiSample.config).complete .any choices
      (OrganizationsService.create ApiSample.config "Org".toList "org".toList)
      (ApiWorld.empty 0 wrappedViolation) []).any
        fun final => final.1.toOption.isNone ∧ P final.2) = true) :
    ∃ error w' history, Completes (api ApiSample.config) .any
        (OrganizationsService.create ApiSample.config "Org".toList "org".toList)
        (ApiWorld.empty 0 wrappedViolation) [] (.error error) w' history ∧ P (w', history) := by
  obtain ⟨outcome, w', history, hrun, hfinal⟩ := Completes.exists_of_complete
    (api ApiSample.config) .any
    (OrganizationsService.create ApiSample.config "Org".toList "org".toList)
    (ApiWorld.empty 0 wrappedViolation) choices (fun final => final.1.toOption.isNone ∧ P final.2) h
  obtain ⟨hfailed, hP⟩ := of_decide_eq_true hfinal
  cases outcome with
  | ok created => cases hfailed
  | error error => exact ⟨error, w', history, hrun, hP⟩

end OrganizationSetup

end BrokeTurnkey
