import BrokeTurnkey.Rows
import BrokeTurnkey.Interaction.Evolving

/-!
# What never goes away

A stored seed, a stored wallet, the wallet and chain of a signing request and an
answered command are there for good: no statement removes or replaces them, and
neither does anything else that happens.  What a service has found out about them
is still true when it acts on it.
-/

namespace BrokeTurnkey

open Interaction

/-! ### Lookups by key -/

namespace Tables

def wallet? (t : Tables) (id : Uuid) : Option Wallet := t.wallets.find? fun row => row.id = id

def seed? (t : Tables) (org : Uuid) : Option OrganizationSeed :=
  t.seeds.find? fun row => row.orgId = org

/-- What was found is found again. -/
structure Grows (t t' : Tables) : Prop where
  wallets : ∀ id row, t.wallet? id = some row → t'.wallet? id = some row
  seeds : ∀ org row, t.seed? org = some row → t'.seed? org = some row
  requests : ∀ id wallet chainId,
    Stored id (fun row => row.walletId = wallet ∧ row.chainId = chainId) t →
    Stored id (fun row => row.walletId = wallet ∧ row.chainId = chainId) t'

theorem Grows.refl (t : Tables) : Grows t t :=
  ⟨fun _ _ h => h, fun _ _ h => h, fun _ _ _ h => h⟩

theorem Grows.trans {t t' t'' : Tables} (h : Grows t t') (h' : Grows t' t'') : Grows t t'' :=
  ⟨fun id row hrow => h'.wallets id row (h.wallets id row hrow),
    fun org row hrow => h'.seeds org row (h.seeds org row hrow),
    fun id wallet chainId hrow => h'.requests id wallet chainId (h.requests id wallet chainId hrow)⟩

/-- Seeds and wallets are only added, at the end. -/
structure Appends (t t' : Tables) : Prop where
  wallets : t.wallets <+: t'.wallets
  seeds : t.seeds <+: t'.seeds

theorem Appends.refl (t : Tables) : Appends t t :=
  ⟨List.prefix_refl _, List.prefix_refl _⟩

theorem Appends.trans {t t' t'' : Tables} (h : Appends t t') (h' : Appends t' t'') :
    Appends t t'' :=
  ⟨h.wallets.trans h'.wallets, h.seeds.trans h'.seeds⟩

theorem Appends.wallet? {t t' : Tables} (h : Appends t t') {id : Uuid} {row : Wallet}
    (hrow : t.wallet? id = some row) : t'.wallet? id = some row := by
  obtain ⟨rest, hrest⟩ := h.wallets
  rw [Tables.wallet?, ← hrest, List.find?_append]
  exact Option.or_eq_some_iff.mpr (.inl hrow)

theorem Appends.seed? {t t' : Tables} (h : Appends t t') {org : Uuid} {row : OrganizationSeed}
    (hrow : t.seed? org = some row) : t'.seed? org = some row := by
  obtain ⟨rest, hrest⟩ := h.seeds
  rw [Tables.seed?, ← hrest, List.find?_append]
  exact Option.or_eq_some_iff.mpr (.inl hrow)

theorem Appends.grows {t t' : Tables} (h : Appends t t')
    (hrequests : ∀ id wallet chainId,
      Stored id (fun row => row.walletId = wallet ∧ row.chainId = chainId) t →
      Stored id (fun row => row.walletId = wallet ∧ row.chainId = chainId) t') : Grows t t' :=
  ⟨fun _ _ => h.wallet?, fun _ _ => h.seed?, hrequests⟩

theorem wallet?_id {t : Tables} {id : Uuid} {row : Wallet} (h : t.wallet? id = some row) :
    row.id = id := by
  have hid := List.find?_some h
  exact of_decide_eq_true hid

theorem seed?_orgId {t : Tables} {org : Uuid} {row : OrganizationSeed}
    (h : t.seed? org = some row) : row.orgId = org := by
  have hid := List.find?_some h
  exact of_decide_eq_true hid

end Tables

/-! ### Every command and every event -/

/-- An insert of a seed adds a row, or changes nothing. -/
theorem seedCreate_cases (data : NewOrganizationSeed) (t : Tables) :
    (∃ org, Uuid.ofText data.orgId = some org ∧ t.seed? org = none ∧
      OrganizationSeedRepository.create data t = (.ok (), { t with
        seeds := t.seeds ++ [⟨org, data.encryptedSeed, data.seedNonce, data.encryptedDek⟩] })) ∨
    ∃ error, OrganizationSeedRepository.create data t = (.error error, t) := by
  simp only [OrganizationSeedRepository.create, withUuid]
  split
  · rename_i org horg
    split
    · exact .inr ⟨_, rfl⟩
    · rename_i hnone
      refine .inl ⟨org, horg, List.find?_eq_none.mpr fun row hrow hid => ?_, rfl⟩
      exact hnone (List.any_eq_true.mpr ⟨row, hrow, hid⟩)
  · exact .inr ⟨_, rfl⟩

/-- An insert into the audit log adds a row, or changes nothing. -/
theorem auditCreate_cases (data : NewAuditLog) (now : Int) (t : Tables) :
    (∃ org user wallet, Uuid.ofText data.orgId = some org ∧
      AuditLogRepository.create data now t = (.ok (), { t with
        auditLog := t.auditLog ++
          [⟨org, user, wallet, data.event, data.status, data.metadata, now⟩] })) ∨
    ∃ error, AuditLogRepository.create data now t = (.error error, t) := by
  simp only [AuditLogRepository.create]
  rcases withUuid_cases data.orgId t _ with ⟨org, horg, heq⟩ | ⟨error, heq⟩
  · rw [heq]
    rcases withOptionUuid_cases data.userId t _ with ⟨user, heq⟩ | ⟨error, heq⟩
    · rw [heq]
      rcases withOptionUuid_cases data.walletId t _ with ⟨wallet, heq⟩ | ⟨error, heq⟩
      · exact .inl ⟨org, user, wallet, horg, heq⟩
      · exact .inr ⟨error, heq⟩
    · exact .inr ⟨error, heq⟩
  · exact .inr ⟨error, heq⟩

/-- An insert of a wallet adds a row under a new path, or changes nothing. -/
theorem walletCreate_cases (data : NewWallet) (id : Uuid) (t : Tables) :
    (∃ org user, Uuid.ofText data.orgId = some org ∧
      (∀ row ∈ t.wallets, row.orgId = org → row.derivationPath ≠ data.derivationPath) ∧
      WalletRepository.create data id t = (.ok (WalletRepository.newRow data id org user),
        { t with wallets := t.wallets ++ [WalletRepository.newRow data id org user] })) ∨
    ∃ error, WalletRepository.create data id t = (.error error, t) := by
  have hnew : ∀ org, ¬ t.wallets.any (fun row => row.orgId = org ∧
      (row.derivationPath = data.derivationPath ∨ row.address = data.address)) = true →
      ∀ row ∈ t.wallets, row.orgId = org → row.derivationPath ≠ data.derivationPath := by
    intro org hnone row hrow horg hpath
    exact hnone (List.any_eq_true.mpr ⟨row, hrow, decide_eq_true ⟨horg, .inl hpath⟩⟩)
  simp only [WalletRepository.create, withOptionUuid, withUuid]
  split
  · rename_i org horg
    split
    · split
      · exact .inr ⟨_, rfl⟩
      · rename_i hnone
        exact .inl ⟨org, _, horg, hnew org hnone, rfl⟩
    · split
      · split
        · exact .inr ⟨_, rfl⟩
        · rename_i hnone
          exact .inl ⟨org, _, horg, hnew org hnone, rfl⟩
      · exact .inr ⟨_, rfl⟩
  · exact .inr ⟨_, rfl⟩

/-- A command leaves the wallets alone, or inserts a fresh one. -/
theorem exec_wallets {command : Cmd} {choice : Choice} {w w' : World}
    {reply : Except JsError command.Reply} (hexec : exec command choice w = some (reply, w')) :
    w'.tables.wallets = w.tables.wallets ∨
    ∃ data id org user, command = .sql (.walletCreate data) ∧
      (∀ row ∈ w.tables.wallets, row.id ≠ id) ∧
      w'.tables.wallets = w.tables.wallets ++ [WalletRepository.newRow data id org user] := by
  by_cases hwrites : command.writes = some .wallets
  · cases command with
    | sql statement =>
      rcases exec_sql hexec with ⟨id, hfresh, rfl, _⟩ | ⟨error, _, _, _, rfl⟩
      · cases statement with
        | walletCreate data =>
          simp only [Sql.exec]
          rcases walletCreate_cases data id w.tables with ⟨org, user, _, _, heq⟩ | ⟨error, heq⟩
          · rw [heq]
            exact .inr ⟨data, id, org, user, rfl, fun row hrow =>
              of_decide_eq_true (List.all_eq_true.mp hfresh row hrow), rfl⟩
          · rw [heq]
            exact .inl rfl
        | _ => cases hwrites
      · exact .inl rfl
    | _ => cases hwrites
  · exact .inl ((exec_agree hexec).wallets hwrites)

theorem exec_appends {command : Cmd} {choice : Choice} {w w' : World}
    {reply : Except JsError command.Reply} (hexec : exec command choice w = some (reply, w')) :
    w.tables.Appends w'.tables := by
  constructor
  · rcases exec_wallets hexec with heq | ⟨data, id, org, user, _, _, heq⟩
    · exact heq ▸ List.prefix_refl _
    · exact heq ▸ List.prefix_append _ _
  · by_cases hseeds : command.writes = some .seeds
    · cases command with
      | sql statement =>
        rcases exec_sql hexec with ⟨id, _, rfl, _⟩ | ⟨error, _, _, _, rfl⟩
        · cases statement with
          | seedCreate data =>
            simp only [Sql.exec]
            rcases seedCreate_cases data w.tables with ⟨org, _, _, heq⟩ | ⟨error, heq⟩
            · rw [heq]
              exact List.prefix_append _ _
            · exact heq ▸ List.prefix_refl _
          | _ => cases hseeds
        · exact List.prefix_refl _
      | _ => cases hseeds
    · exact (exec_agree hexec).seeds hseeds ▸ List.prefix_refl _

theorem exec_auditLog {command : Cmd} {choice : Choice} {w w' : World}
    {reply : Except JsError command.Reply}
    (hexec : exec command choice w = some (reply, w')) :
    w.tables.auditLog <+: w'.tables.auditLog := by
  by_cases hwrites : command.writes = some .auditLog
  · cases command with
    | sql statement =>
      rcases exec_sql hexec with ⟨id, _, rfl, _⟩ | ⟨error, _, _, _, rfl⟩
      · cases statement with
        | auditCreate data =>
          simp only [Sql.exec]
          rcases auditCreate_cases data w.clock w.tables with
            ⟨org, user, wallet, _, heq⟩ | ⟨error, heq⟩
          · exact heq ▸ List.prefix_append _ _
          · exact heq ▸ List.prefix_refl _
        | _ => cases hwrites
      · exact List.prefix_refl _
    | _ => cases hwrites
  · rw [(exec_agree hexec).auditLog hwrites]

theorem event_appends {w w' : World} {event : Event} (h : w.event event = some w') :
    w.tables.Appends w'.tables := by
  cases event with
  | tick duration => cases h; exact .refl _
  | evict keep => cases h; exact .refl _
  | policies rows => cases h; exact ⟨List.prefix_refl _, List.prefix_refl _⟩
  | newWallet row =>
    simp only [World.event] at h
    split at h
    · cases h
      exact ⟨List.prefix_append _ _, List.prefix_refl _⟩
    · cases h
  | newSeed row =>
    simp only [World.event] at h
    split at h
    · cases h
      exact ⟨List.prefix_refl _, List.prefix_append _ _⟩
    · cases h

theorem exec_grows {command : Cmd} {choice : Choice} {w w' : World}
    {reply : Except JsError command.Reply} (hexec : exec command choice w = some (reply, w')) :
    w.tables.Grows w'.tables := by
  apply (exec_appends hexec).grows
  intro id wallet chainId h
  exact stored_exec hexec h fun fields _ row hrow => hrow

theorem event_grows {w w' : World} {event : Event} (h : w.event event = some w') :
    w.tables.Grows w'.tables := by
  apply (event_appends h).grows
  intro id wallet chainId hstored
  rw [Stored, HasRow, EveryRow, (World.event_tables h).1]
  exact hstored

/-- A wallet that was found is stored under the id it was looked up with. -/
theorem exec_walletFindById {id : Text} {choice : Choice} {w w' : World} {row : Wallet}
    (hexec : exec (.sql (.walletFindById id)) choice w = some (.ok (some row), w')) :
    Uuid.ofText id = some row.id ∧ w'.tables.wallet? row.id = some row := by
  have hw : w' = w := exec_query rfl hexec
  rcases exec_sql hexec with ⟨_, _, _, ⟨_, heq⟩ | ⟨error, _, _, heq⟩⟩ | ⟨error, _, _, heq, _⟩
  · simp only [Sql.exec, WalletRepository.findById, withUuid] at heq
    split at heq
    · rename_i u hu
      have hrow : w.tables.wallet? u = some row := (Except.ok.inj heq).symm
      rw [Tables.wallet?_id hrow, hw]
      exact ⟨hu, hrow⟩
    · cases heq
  · cases heq
  · cases heq

/-- A seed that was found is stored under the org it was looked up with. -/
theorem exec_seedFindByOrgId {orgId : Text} {choice : Choice} {w w' : World}
    {row : OrganizationSeed}
    (hexec : exec (.sql (.seedFindByOrgId orgId)) choice w = some (.ok (some row), w')) :
    Uuid.ofText orgId = some row.orgId ∧ w'.tables.seed? row.orgId = some row := by
  have hw : w' = w := exec_query rfl hexec
  rcases exec_sql hexec with ⟨_, _, _, ⟨_, heq⟩ | ⟨error, _, _, heq⟩⟩ | ⟨error, _, _, heq, _⟩
  · simp only [Sql.exec, OrganizationSeedRepository.findByOrgId, withUuid] at heq
    split at heq
    · rename_i u hu
      have hrow : w.tables.seed? u = some row := (Except.ok.inj heq).symm
      rw [Tables.seed?_orgId hrow, hw]
      exact ⟨hu, hrow⟩
    · cases heq
  · cases heq
  · cases heq

/-- A seed whose insert was answered is stored. -/
theorem exec_seedCreate {data : NewOrganizationSeed} {choice : Choice} {w w' : World}
    (hexec : exec (.sql (.seedCreate data)) choice w = some (.ok (), w')) :
    ∃ org, Uuid.ofText data.orgId = some org ∧ w'.tables.seed? org =
      some ⟨org, data.encryptedSeed, data.seedNonce, data.encryptedDek⟩ := by
  rcases exec_sql hexec with ⟨_, _, rfl, ⟨_, hreply⟩ | ⟨error, _, _, hreply⟩⟩ |
    ⟨error, _, _, hreply, _⟩
  · simp only [Sql.exec] at hreply ⊢
    rcases seedCreate_cases data w.tables with ⟨org, horg, hnone, heq⟩ | ⟨error, heq⟩
    · rw [heq]
      refine ⟨org, horg, ?_⟩
      rw [Tables.seed?, List.find?_append, Option.or_eq_some_iff]
      refine .inr ⟨hnone, ?_⟩
      simp
    · rw [heq] at hreply
      cases hreply
  · cases hreply
  · cases hreply

/-- The tables and the history grow, under any guard. -/
def growth (cfg : Config) (guard : Guard Cmd Choice Event World) :
    Evolution (services cfg) guard where
  Grows := fun w history w' history' => w.tables.Grows w'.tables ∧ history <:+ history'
  refl := fun _ _ => ⟨.refl _, List.suffix_refl _⟩
  trans := fun h h' => ⟨h.1.trans h'.1, h.2.trans h'.2⟩
  command := fun _ _ hexec => ⟨exec_grows hexec, List.suffix_cons _ _⟩
  event := fun _ _ hexec => ⟨event_grows hexec, List.suffix_refl _⟩

end BrokeTurnkey
