import BrokeTurnkey.Api.Services
import BrokeTurnkey.Footprint
import BrokeTurnkey.Signer.Libraries
import BrokeTurnkey.Interaction.Sequential

/-!
# What only looks

The commands of the API that leave its world as it is, and the rules for programs of
such commands.
-/

namespace BrokeTurnkey

open Interaction

/-! ### Tables a statement writes -/

inductive ApiTable where
  | organizations
  | apiKeys
  | users
  | policies
  | adminAudit
deriving DecidableEq, Repr

/-- The one table a statement may change. -/
def ApiSql.writes : ApiSql → Option ApiTable
  | .orgCreate _ _ | .orgUpdate _ _ => some .organizations
  | .keyCreate _ | .keyUpdate _ _ => some .apiKeys
  | .userCreate _ | .userUpdate _ _ => some .users
  | .policyCreate _ | .policyUpdate _ _ => some .policies
  | .auditCreate _ => some .adminAudit
  | _ => none

/-- The tables agree, one of them excepted. -/
structure ApiTables.Agree (written : Option ApiTable) (t t' : ApiTables) : Prop where
  base : t'.base = { t.base with policies := t'.base.policies }
  organizations : written ≠ some .organizations → t'.organizations = t.organizations
  apiKeys : written ≠ some .apiKeys → t'.apiKeys = t.apiKeys
  users : written ≠ some .users → t'.users = t.users
  policies : written ≠ some .policies → t'.base.policies = t.base.policies
  adminAudit : written ≠ some .adminAudit → t'.adminAudit = t.adminAudit

theorem ApiTables.Agree.refl (written : Option ApiTable) (t : ApiTables) : Agree written t t :=
  ⟨rfl, fun _ => rfl, fun _ => rfl, fun _ => rfl, fun _ => rfl, fun _ => rfl⟩

/-- A write that fails leaves everything as it is. -/
theorem ApiTables.write_agree {α : Type} {written : Option ApiTable} {t : ApiTables}
    {answer : Except JsError (α × ApiTables)}
    (h : ∀ value t', answer = .ok (value, t') → Agree written t t') :
    Agree written t (t.write answer).2 := by
  cases answer with
  | ok result => exact h result.1 result.2 rfl
  | error error => exact .refl written t

theorem ApiTables.agree_organizations (t : ApiTables) (organizations : List Organization) :
    Agree (some .organizations) t { t with organizations } :=
  ⟨rfl, fun h => absurd rfl h, fun _ => rfl, fun _ => rfl, fun _ => rfl, fun _ => rfl⟩

theorem ApiTables.agree_apiKeys (t : ApiTables) (apiKeys : List ApiKey) :
    Agree (some .apiKeys) t { t with apiKeys } :=
  ⟨rfl, fun _ => rfl, fun h => absurd rfl h, fun _ => rfl, fun _ => rfl, fun _ => rfl⟩

theorem ApiTables.agree_users (t : ApiTables) (users : List UserRow) :
    Agree (some .users) t { t with users } :=
  ⟨rfl, fun _ => rfl, fun _ => rfl, fun h => absurd rfl h, fun _ => rfl, fun _ => rfl⟩

theorem ApiTables.agree_policies (t : ApiTables) (policies : List Policy) :
    Agree (some .policies) t (t.setPolicies policies) :=
  ⟨rfl, fun _ => rfl, fun _ => rfl, fun _ => rfl, fun h => absurd rfl h, fun _ => rfl⟩

theorem ApiTables.agree_adminAudit (t : ApiTables) (adminAudit : List AdminAudit) :
    Agree (some .adminAudit) t { t with adminAudit } :=
  ⟨rfl, fun _ => rfl, fun _ => rfl, fun _ => rfl, fun _ => rfl, fun h => absurd rfl h⟩

theorem map_eq_ok {ε α β : Type} {f : α → β} {x : Except ε α} {result : β} :
    x.map f = .ok result ↔ ∃ value, x = .ok value ∧ f value = result := by
  cases x with
  | ok value => simp [Except.map]
  | error error => simp [Except.map]

/-- A row found by its id. -/
theorem mem_of_findById {ρ : Type} {rows : List ρ} {column : ρ → Uuid} {s : Text}
    {found : Option ρ}
    (h : (parseUuid s).map (fun u => rows.find? fun row => column row = u) = .ok found) {row : ρ}
    (hrow : found = some row) : row ∈ rows ∧ Uuid.ofText s = some (column row) := by
  obtain ⟨u, hu, rfl⟩ := map_eq_ok.mp h
  have hid : column row = u := by simpa using List.find?_some hrow
  rw [hid]
  exact ⟨List.mem_of_find?_eq_some hrow, parseUuid_eq_ok.mp hu⟩

/-- Rows found by their org. -/
theorem mem_of_findByOrgId {ρ : Type} {rows found : List ρ} {column : ρ → Uuid} {s : Text}
    (h : (parseUuid s).map (fun u => rows.filter fun row => column row = u) = .ok found) {row : ρ}
    (hrow : row ∈ found) : row ∈ rows ∧ Uuid.ofText s = some (column row) := by
  obtain ⟨u, hu, rfl⟩ := map_eq_ok.mp h
  obtain ⟨hmem, hown⟩ := List.mem_filter.mp hrow
  rw [of_decide_eq_true hown]
  exact ⟨hmem, parseUuid_eq_ok.mp hu⟩

/-- What an insert of a key adds; its public key and its key id are new. -/
theorem ApiKeyRepository.create_eq_ok {data : NewApiKey} {id : Uuid} {now : Int}
    {t t' : ApiTables} {row : ApiKey} (h : create data id now t = .ok (row, t')) :
    ∃ org, Uuid.ofText data.orgId = some org ∧
      (∀ other ∈ t.apiKeys, other.publicKey ≠ data.publicKey ∧ other.keyId ≠ data.keyId) ∧
      row = newRow data id org now ∧ t' = { t with apiKeys := t.apiKeys ++ [row] } := by
  obtain ⟨org, horg, hrow⟩ := Signer.bind_eq_ok.mp h
  split at hrow
  · cases hrow
  · rename_i hfresh
    cases hrow
    exact ⟨org, parseUuid_eq_ok.mp horg, by simpa using hfresh, rfl, rfl⟩

/-- What an insert of a user adds. -/
theorem UserRowRepository.create_eq_ok {data : NewUser} {id : Uuid} {now : Int}
    {t t' : ApiTables} {row : UserRow} (h : create data id now t = .ok (row, t')) :
    ∃ org, Uuid.ofText data.orgId = some org ∧ row = newRow data id org now ∧
      t' = { t with users := t.users ++ [row] } := by
  obtain ⟨org, horg, hrow⟩ := Signer.bind_eq_ok.mp h
  split at hrow
  · cases hrow
  · cases hrow
    exact ⟨org, parseUuid_eq_ok.mp horg, rfl, rfl⟩

/-- What an insert of a policy adds. -/
theorem PolicyRowRepository.create_eq_ok {data : NewPolicy} {id : Uuid} {t t' : ApiTables}
    {row : Policy} (h : create data id t = .ok (row, t')) :
    ∃ org target, Uuid.ofText data.orgId = some org ∧
      parseOptionUuid data.targetId = .ok target ∧ row = newRow data id org target ∧
      t' = t.setPolicies (t.base.policies ++ [row]) := by
  simp only [create, Signer.bind_eq_ok] at h
  obtain ⟨org, horg, target, htarget, h⟩ := h
  cases h
  exact ⟨org, target, parseUuid_eq_ok.mp horg, htarget, rfl, rfl⟩

/-- What is written for an administrative event. -/
theorem AdminAuditRepository.create_eq_ok {data : NewAdminAudit} {now : Int} {t t' : ApiTables}
    {value : Unit} (h : create data now t = .ok (value, t')) :
    ∃ org user wallet, Uuid.ofText data.orgId = some org ∧
      parseOptionUuid data.userId = .ok user ∧ parseOptionUuid data.walletId = .ok wallet ∧
      t' = { t with adminAudit := t.adminAudit ++ [⟨org, user, wallet, data.event, now⟩] } := by
  simp only [create, Signer.bind_eq_ok] at h
  obtain ⟨org, horg, user, huser, wallet, hwallet, h⟩ := h
  cases h
  exact ⟨org, user, wallet, parseUuid_eq_ok.mp horg, huser, hwallet, rfl⟩

theorem AuditLogRepository.mem_of_newest {rows : List AuditEntry} {limit : Option Nat}
    {offset : Nat} {entry : AuditEntry}
    (h : entry ∈ limit.elim
      ((rows.insertionSort fun a b => b.createdAt ≤ a.createdAt).drop offset)
      ((rows.insertionSort fun a b => b.createdAt ≤ a.createdAt).drop offset).take) :
    entry ∈ rows := by
  rw [← (List.perm_insertionSort (fun a b => b.createdAt ≤ a.createdAt) rows).mem_iff]
  cases limit with
  | none => exact List.mem_of_mem_drop h
  | some limit => exact List.mem_of_mem_drop (List.mem_of_mem_take h)

/-- The entries of a query are stored for the org it is for. -/
theorem AuditLogRepository.mem_of_query {filters : AuditLogQuery} {t : ApiTables}
    {found : List AuditEntry} (h : query filters t = .ok found) {entry : AuditEntry}
    (hentry : entry ∈ found) :
    entry ∈ entries t ∧ Uuid.ofText filters.orgId = some entry.orgId := by
  simp only [query, Signer.bind_eq_ok] at h
  obtain ⟨startDate, _, endDate, _, org, horg, user, _, wallet, _, limit, _, offset, _, h⟩ := h
  cases h
  obtain ⟨hmem, hfilter⟩ := List.mem_filter.mp (mem_of_newest hentry)
  simp only [Bool.and_eq_true, decide_eq_true_eq] at hfilter
  exact ⟨hmem, hfilter.1.1.1.1.1 ▸ parseUuid_eq_ok.mp horg⟩

theorem ApiSql.exec_agree (statement : ApiSql) (id : Uuid) (now : Int) (t : ApiTables) :
    ApiTables.Agree statement.writes t (statement.exec id now t).2 := by
  cases statement with
  | orgCreate name slug =>
    refine ApiTables.write_agree fun value t' h => ?_
    simp only [OrganizationRepository.create] at h
    split at h
    · cases h
    · cases h
      exact t.agree_organizations _
  | orgUpdate orgId hash =>
    refine ApiTables.write_agree fun value t' h => ?_
    obtain ⟨u, _, heq⟩ := map_eq_ok.mp h
    cases heq
    exact t.agree_organizations _
  | keyCreate data =>
    refine ApiTables.write_agree fun value t' h => ?_
    obtain ⟨org, _, _, rfl, rfl⟩ := ApiKeyRepository.create_eq_ok h
    exact t.agree_apiKeys _
  | keyUpdate rowId fields => exact t.agree_apiKeys _
  | userCreate data =>
    refine ApiTables.write_agree fun value t' h => ?_
    obtain ⟨org, _, rfl, rfl⟩ := UserRowRepository.create_eq_ok h
    exact t.agree_users _
  | userUpdate userId status =>
    refine ApiTables.write_agree fun value t' h => ?_
    obtain ⟨u, _, heq⟩ := map_eq_ok.mp h
    cases heq
    exact t.agree_users _
  | policyCreate data =>
    refine ApiTables.write_agree fun value t' h => ?_
    obtain ⟨org, target, _, _, rfl, rfl⟩ := PolicyRowRepository.create_eq_ok h
    exact t.agree_policies _
  | policyUpdate policyId status =>
    refine ApiTables.write_agree fun value t' h => ?_
    obtain ⟨u, _, heq⟩ := map_eq_ok.mp h
    cases heq
    exact t.agree_policies _
  | auditCreate data =>
    refine ApiTables.write_agree fun value t' h => ?_
    obtain ⟨org, user, wallet, _, _, _, rfl⟩ := AdminAuditRepository.create_eq_ok h
    exact t.agree_adminAudit _
  | _ => exact .refl none t

/-! ### Commands that only look -/

/-- The statement only reads. -/
def ApiSql.isQuery (statement : ApiSql) : Bool := statement.writes = none

def ApiCmd.isQuery : ApiCmd → Bool
  | .base command => command.isQuery || command.isLocal
  | .sql statement => statement.isQuery
  | .randomUUID => false
  | .signHash _ _ _ | .fork _ => true

theorem ApiTables.Agree.eq {t t' : ApiTables} (h : Agree none t t') : t' = t := by
  have hbase : t'.base = t.base := by rw [h.base, h.policies nofun]
  cases t
  cases t'
  simp only [ApiTables.mk.injEq]
  exact ⟨hbase, h.organizations nofun, h.apiKeys nofun, h.users nofun, h.adminAudit nofun⟩

theorem ApiSql.exec_isQuery {statement : ApiSql} (hquery : statement.isQuery = true) (id : Uuid)
    (now : Int) (t : ApiTables) : (statement.exec id now t).2 = t := by
  have hnone : statement.writes = none := of_decide_eq_true hquery
  have hagree := statement.exec_agree id now t
  rw [hnone] at hagree
  exact hagree.eq

/-- A command of the signing services acts on their part of the world. -/
theorem ApiCmd.exec_base {command : Cmd} {choice : Choice} {w w' : ApiWorld}
    {reply : Except JsError command.Reply}
    (h : ApiCmd.exec (.base command) choice w = some (reply, w')) :
    ∃ base, BrokeTurnkey.exec command choice w.view = some (reply, base) ∧ w' = w.put base := by
  have hmap : (BrokeTurnkey.exec command choice w.view).map
      (fun answer => (answer.1, w.put answer.2)) = some (reply, w') := by
    cases choice <;> exact h
  rw [Option.map_eq_some_iff] at hmap
  obtain ⟨⟨answer, base⟩, hexec, heq⟩ := hmap
  cases heq
  exact ⟨base, hexec, rfl⟩

theorem ApiCmd.exec_query {command : ApiCmd} (hquery : command.isQuery = true) {choice : Choice}
    {w w' : ApiWorld} {reply : Except JsError command.Reply}
    (h : command.exec choice w = some (reply, w')) : w' = w := by
  cases command with
  | base command =>
    obtain ⟨base, hexec, rfl⟩ := exec_base h
    have hsame : base = w.view := by
      rcases Bool.or_eq_true .. ▸ hquery with hquery | hlocal
      · exact BrokeTurnkey.exec_query hquery hexec
      · exact (exec_local hlocal hexec).2
    rw [hsame, ApiWorld.put_view]
  | sql statement =>
    rcases exec_sql h with ⟨id, _, rfl, _⟩ | ⟨error, _, _, _, rfl⟩
    · rw [ApiSql.exec_isQuery hquery]
    · rfl
  | randomUUID => cases hquery
  | signHash wallet key hash =>
    cases choice with
    | signed signature txHash => cases h; rfl
    | reject error => cases h; rfl
    | _ => cases h
  | fork job =>
    cases choice with
    | done id => cases h; rfl
    | _ => cases h

/-- A drawn uuid is only remembered. -/
theorem ApiCmd.exec_randomUUID {choice : Choice} {w w' : ApiWorld} {reply : Except JsError Uuid}
    (h : ApiCmd.exec .randomUUID choice w = some (reply, w')) :
    ∃ id, w' = { w with drawn := id :: w.drawn } := by
  cases choice with
  | done id =>
    simp only [ApiCmd.exec] at h
    split at h
    · cases h
      exact ⟨id, rfl⟩
    · cases h
  | _ => cases h

/-- The clock is read as it stands. -/
theorem ApiCmd.exec_now {choice : Choice} {w w' : ApiWorld} {reply : Except JsError Int}
    (h : ApiCmd.exec (.base .now) choice w = some (reply, w')) : reply = .ok w.clock ∧ w' = w := by
  obtain ⟨base, hexec, rfl⟩ := exec_base h
  obtain ⟨rfl, rfl⟩ := BrokeTurnkey.exec_now hexec
  exact ⟨rfl, w.put_view⟩

/-- What a reading statement answers, if it answers. -/
theorem ApiCmd.exec_select {statement : ApiSql} (hquery : statement.isQuery = true)
    {choice : Choice} {w w' : ApiWorld} {value : statement.Reply}
    (h : ApiCmd.exec (.sql statement) choice w = some (.ok value, w')) :
    w' = w ∧ ∃ id, (statement.exec id w.clock w.tables).1 = .ok value := by
  refine ⟨@exec_query (.sql statement) hquery _ _ _ _ h, ?_⟩
  rcases exec_sql h with ⟨id, _, _, ⟨_, hreply⟩ | ⟨error, _, _, hreply⟩⟩ | ⟨error, _, _, hreply, _⟩
  · exact ⟨id, hreply.symm⟩
  · cases hreply
  · cases hreply

/-- The key a lookup finds is stored under the key id it was looked up with. -/
theorem ApiCmd.exec_keyFindByKeyId {keyId : Text} {choice : Choice} {w w' : ApiWorld}
    {row : Option ApiKey}
    (h : ApiCmd.exec (.sql (.keyFindByKeyId keyId)) choice w = some (.ok row, w')) :
    w' = w ∧ row = w.tables.apiKeys.find? fun key => key.keyId = keyId := by
  obtain ⟨hw, id, hreply⟩ := exec_select rfl h
  exact ⟨hw, (Except.ok.inj hreply).symm⟩

/-- The signing services run in the API on their part of its world. -/
theorem services_embedding (cfg : ApiConfig) :
    Embedding (services cfg.services) (api cfg) ApiCmd.base (fun _ reply => reply) ApiWorld.view
      ApiWorld.put := by
  constructor
  · intro w
    exact w.put_view
  · intro command choice w reply t hexec
    have hchoices : ApiCmd.exec (.base command) choice w =
        (BrokeTurnkey.exec command choice w.view).map fun answer => (answer.1, w.put answer.2) := by
      cases choice <;> rfl
    have hanswer : BrokeTurnkey.exec command choice w.view = some (reply, t) := hexec
    have husers : t.tables.users = w.view.tables.users := (exec_agree hanswer).users
    refine ⟨reply, rfl, ?_, ?_, fun u => rfl⟩
    · change ApiCmd.exec (.base command) choice w = _
      rw [hchoices, hanswer]
      rfl
    · obtain ⟨tables, live, clock⟩ := t
      simp only at husers
      simp only [ApiWorld.view, ApiWorld.put, ApiTables.view, World.mk.injEq, and_true]
      cases tables
      simp only at husers
      rw [husers]
      rfl

/-- A statement is executed and answered. -/
theorem ApiCmd.attains_sql {cfg : ApiConfig} {statement : ApiSql} {w : ApiWorld}
    {value : statement.Reply} {t : ApiTables} (id : Uuid)
    (hfresh : statement.isFresh id w.drawn w.tables = true)
    (h : statement.exec id w.clock w.tables = (.ok value, t)) :
    Attains (api cfg) .any (Api.sql statement) w (.ok value) { w with tables := t } := by
  have hexec : (api cfg).exec (.sql statement) (.done id) w =
      some (.ok value, { w with tables := t }) := by
    change (if statement.isFresh id w.drawn w.tables then _ else none) = _
    rw [if_pos hfresh, h]
    rfl
  exact .perform trivial hexec

/-! ### Bounds on the commands of the shared parts -/

theorem all_ofExcept {α : Type} {P : ApiCmd → Prop} (result : Except JsError α) :
    (Api.ofExcept result).All P := by
  cases result with
  | ok value => trivial
  | error error => trivial

theorem all_api {α : Type} {P : ApiCmd → Prop} (h : ∀ command, P (.base command)) (p : Js α) :
    p.api.All P :=
  Prog.All.lift (p.all_true.mono fun command _ => h command)

theorem all_map {α β : Type} {P : ApiCmd → Prop} {f : α → β} {p : Api α} (h : p.All P) :
    (f <$> p).All P :=
  Prog.All.bind h fun _ => trivial

/-- The guard reads the clock, looks up the key and starts one job. -/
theorem StampVerifierGuard.canActivate_all {P : ApiCmd → Prop} (hnow : P (.base .now))
    (hfind : ∀ keyId, P (.sql (.keyFindByKeyId keyId))) (hfork : ∀ job, P (.fork job))
    (cfg : ApiConfig) (route : Route) (request : HttpRequest) :
    (canActivate cfg route request).All P := by
  have hnow' : Api.now.All P := Prog.All.perform hnow
  have hexpired : ∀ expiresAt, (isExpired expiresAt).All P := by
    intro expiresAt
    cases expiresAt with
    | none => trivial
    | some time => exact Prog.All.bind hnow' fun _ => trivial
  simp only [canActivate]
  split
  · trivial
  · split
    · split <;> trivial
    · refine Prog.All.bind ?_ fun _ => trivial
      refine Prog.All.bind (all_ofExcept _) fun stamp => ?_
      refine Prog.All.bind hnow' fun now => ?_
      split
      · trivial
      · refine Prog.All.bind (Prog.All.perform (hfind _)) fun row => ?_
        cases row with
        | none => trivial
        | some key =>
          simp only [acceptKey]
          split
          · trivial
          · refine Prog.All.bind (hexpired _) fun expired => ?_
            split
            · trivial
            · refine Prog.All.bind (all_ofExcept _) fun _ => ?_
              refine Prog.All.bind hnow' fun _ => ?_
              exact Prog.All.bind (Prog.All.perform (hfork _)) fun _ => trivial

/-- Who may register a key is decided by one row, of the org or of a key. -/
theorem AuthService.authorise_all {P : ApiCmd → Prop} {orgId : Text}
    (horg : P (.sql (.orgFindById orgId))) (hkey : ∀ keyId, P (.sql (.keyFindByKeyId keyId)))
    (cfg : ApiConfig) (bootstrapToken requestingKeyId : Option Text) :
    (authorise cfg orgId bootstrapToken requestingKeyId).All P := by
  simp only [authorise]
  split
  · refine Prog.All.bind (Prog.All.perform horg) fun org => ?_
    split
    · trivial
    · split
      · trivial
      · trivial
  · split
    · refine Prog.All.bind ?_ fun hasWriteScope => ?_
      · refine Prog.All.bind (Prog.All.perform (hkey _)) fun apiKey => ?_
        cases apiKey with
        | none => trivial
        | some apiKey => trivial
      · split
        · trivial
        · trivial
    · trivial

theorem AuthService.clearToken_all {P : ApiCmd → Prop} {orgId : Text}
    (hupdate : P (.sql (.orgUpdate orgId none))) (bootstrapToken : Option Text) :
    (clearToken orgId bootstrapToken).All P := by
  simp only [clearToken]
  split
  · trivial
  · exact Prog.All.perform hupdate

/-- Typed data and messages: the org's seed and the wallet are looked up, the sidecar
    signs, and the signature is recorded. -/
structure SigningService.Issuable (P : ApiCmd → Prop) (orgId walletId : Text) : Prop where
  seed : P (.base (.sql (.seedFindByOrgId orgId)))
  wallet : P (.base (.sql (.walletFindById walletId)))
  sign : ∀ wallet key hash, P (.signHash wallet key hash)
  audit : ∀ event, P (.sql (.auditCreate { orgId, walletId := some walletId, event }))

section

open SigningService

variable {P : ApiCmd → Prop} {orgId walletId : Text} (h : Issuable P orgId walletId)
include h

theorem SigningService.Issuable.loadWallet_all : (loadWallet orgId walletId).All P := by
  refine Prog.All.bind (Prog.All.lift (Prog.All.perform h.seed)) fun seedRow => ?_
  refine Prog.All.bind (Prog.All.lift (Prog.All.perform h.wallet)) fun wallet => ?_
  split
  · trivial
  · trivial
  · exact Prog.All.unless trivial

theorem SigningService.Issuable.signWith_all (hash : Text) (event : Text → AdminEvent)
    (seedRow : OrganizationSeed) (wallet : Wallet) :
    (signWith orgId walletId hash event seedRow wallet).All P := by
  refine Prog.All.bind (Prog.All.perform (h.sign _ _ _)) fun signature => ?_
  exact Prog.All.bind (Prog.All.perform (h.audit _)) fun _ => trivial

theorem SigningService.Issuable.signEip712_all (cfg : ApiConfig) (req : Eip712SignRequest) :
    (signEip712 cfg orgId walletId req).All P := by
  refine Prog.All.bind (all_ofExcept _) fun _ => ?_
  refine Prog.All.bind h.loadWallet_all fun loaded => ?_
  refine Prog.All.bind (all_ofExcept _) fun hash => ?_
  exact h.signWith_all _ _ _ _

theorem SigningService.Issuable.signPersonalMessage_all (cfg : ApiConfig) (message : Text) :
    (signPersonalMessage cfg orgId walletId message).All P := by
  simp only [signPersonalMessage]
  refine Prog.All.unless ?_
  refine Prog.All.bind h.loadWallet_all fun loaded => ?_
  exact h.signWith_all _ _ _ _

end

section Meets

variable {cfg : ApiConfig} {guard : Guard ApiCmd Choice ApiEvent ApiWorld} {α β : Type}

/-- A computed value is passed on without a command. -/
theorem meets_ofExcept_bind {Q : Except JsError β → ApiWorld → List ApiEntry → Prop}
    {result : Except JsError α} {f : α → Api β} {w : ApiWorld} {history : List ApiEntry}
    (hok : ∀ value, result = .ok value → Meets (api cfg) guard Q (f value) w history)
    (herr : ∀ error, result = .error error → Q (.error error) w history) :
    Meets (api cfg) guard Q (Api.ofExcept result >>= f) w history := by
  cases result with
  | ok value => exact hok value rfl
  | error error => exact herr error rfl

/-- Read the clock, then go on. -/
theorem meets_now_bind {Q : Except JsError β → ApiWorld → List ApiEntry → Prop} {f : Int → Api β}
    {w : ApiWorld} {history : List ApiEntry}
    (hok : ∀ history', Meets (api cfg) guard Q (f w.clock) w history') :
    Meets (api cfg) guard Q (Api.now >>= f) w history := by
  refine Meets.bind (P := fun outcome w' _ => outcome = .ok w.clock ∧ w' = w) ?_ ?_ ?_
  · exact Meets.perform fun choice reply w' _ hexec => ApiCmd.exec_now hexec
  · rintro value w' history' ⟨hvalue, rfl⟩
    rw [Except.ok.inj hvalue]
    exact hok history'
  · rintro error w' history' ⟨hvalue, _⟩
    cases hvalue

/-- Start a job, then go on. -/
theorem meets_fork_bind {Q : Except JsError β → ApiWorld → List ApiEntry → Prop} {job : ApiJob}
    {f : Unit → Api β} {w : ApiWorld} {history : List ApiEntry}
    (hok : ∀ history', Meets (api cfg) guard Q (f ()) w history') :
    Meets (api cfg) guard Q (Api.fork job >>= f) w history := by
  refine Meets.bind (P := fun outcome w' _ => outcome = .ok () ∧ w' = w) ?_ ?_ ?_
  · refine Meets.perform fun choice reply w' _ hexec => ?_
    cases choice with
    | done id => cases hexec; exact ⟨rfl, rfl⟩
    | _ => cases hexec
  · rintro value w' history' ⟨_, rfl⟩
    exact hok history'
  · rintro error w' history' ⟨hvalue, _⟩
    cases hvalue

/-- Look up a row, then go on with what the database holds. -/
theorem meets_select_bind {Q : Except JsError β → ApiWorld → List ApiEntry → Prop}
    {statement : ApiSql} (hquery : statement.isQuery = true) {f : statement.Reply → Api β}
    {w : ApiWorld} {history : List ApiEntry}
    (hok : ∀ value id history', (statement.exec id w.clock w.tables).1 = .ok value →
      Meets (api cfg) guard Q (f value) w history')
    (herr : ∀ error history', Q (.error error) w history') :
    Meets (api cfg) guard Q (Api.sql statement >>= f) w history := by
  refine Meets.bind (P := fun outcome w' _ => w' = w ∧ ∀ value, outcome = .ok value →
    ∃ id, (statement.exec id w.clock w.tables).1 = .ok value) ?_ ?_ ?_
  · refine Meets.perform fun choice reply w' _ hexec =>
      ⟨@ApiCmd.exec_query (.sql statement) hquery _ _ _ _ hexec, ?_⟩
    rintro value rfl
    exact (ApiCmd.exec_select hquery hexec).2
  · rintro value w' history' ⟨rfl, hvalue⟩
    obtain ⟨id, hid⟩ := hvalue value rfl
    exact hok value id history' hid
  · rintro error w' history' ⟨rfl, _⟩
    exact herr error history'

end Meets

/-! ### Statements that are answered -/

/-- A statement that is answered ran. -/
theorem ApiCmd.exec_sql_ok {statement : ApiSql} {choice : Choice} {w w' : ApiWorld}
    {value : statement.Reply} (h : ApiCmd.exec (.sql statement) choice w = some (.ok value, w')) :
    ∃ id t, statement.isFresh id w.drawn w.tables = true ∧
      statement.exec id w.clock w.tables = (.ok value, t) ∧ w' = { w with tables := t } := by
  rcases exec_sql h with ⟨id, hfresh, hw, ⟨_, hreply⟩ | ⟨_, _, _, hreply⟩⟩ | ⟨_, _, _, hreply, _⟩
  · exact ⟨id, _, hfresh, Prod.ext hreply.symm rfl, hw⟩
  · cases hreply
  · cases hreply

theorem ApiTables.write_eq_ok {α : Type} {t t' : ApiTables}
    {answer : Except JsError (α × ApiTables)} {value : α}
    (h : t.write answer = (.ok value, t')) : answer = .ok (value, t') := by
  cases answer with
  | ok result => cases h; rfl
  | error error => cases h

section Returns

variable {cfg : ApiConfig} {α β : Type} {P : α → ApiWorld → Prop} {w : ApiWorld}

theorem returns_write {statement : ApiSql} {P : statement.Reply → ApiWorld → Prop}
    (h : ∀ id value t, statement.isFresh id w.drawn w.tables = true →
      statement.exec id w.clock w.tables = (.ok value, t) → P value { w with tables := t }) :
    Returns (api cfg) .any P (Api.sql statement) w := by
  refine Returns.perform fun choice value w' _ hexec => ?_
  obtain ⟨id, t, hfresh, hanswer, rfl⟩ := ApiCmd.exec_sql_ok hexec
  exact h id value t hfresh hanswer

theorem returns_write_bind {statement : ApiSql} {f : statement.Reply → Api α}
    (h : ∀ id value t, statement.isFresh id w.drawn w.tables = true →
      statement.exec id w.clock w.tables = (.ok value, t) →
      Returns (api cfg) .any P (f value) { w with tables := t }) :
    Returns (api cfg) .any P (Api.sql statement >>= f) w :=
  .bind (returns_write h) fun _ _ hnext => hnext

/-- Look up a row, then go on with what the database holds. -/
theorem returns_select_bind {statement : ApiSql} (hquery : statement.isQuery = true)
    {f : statement.Reply → Api α}
    (h : ∀ id value, (statement.exec id w.clock w.tables).1 = .ok value →
      Returns (api cfg) .any P (f value) w) :
    Returns (api cfg) .any P (Api.sql statement >>= f) w := by
  intro history
  refine meets_select_bind hquery ?_ ?_
  · intro value id history' hvalue
    exact h id value hvalue history'
  · rintro error history' _ ⟨⟩

/-- Commands that leave the tables as they are. -/
theorem Api.returns_tables_bind {p : Api β} {f : β → Api α}
    (hp : p.All fun command => command.isQuery = true ∨ command = .randomUUID)
    (h : ∀ value w', w'.tables = w.tables → Returns (api cfg) .any P (f value) w') :
    Returns (api cfg) .any P (p >>= f) w := by
  refine Returns.bind (P := fun _ w' => w'.tables = w.tables) ?_ h
  intro history
  refine (Meets.of_all (J := fun w' _ => w'.tables = w.tables) ?_ rfl).mono
    fun _ _ _ hw _ _ => hw
  refine hp.mono fun command hkind choice reply s s' _ hs _ hexec => ?_
  rcases hkind with hquery | rfl
  · rw [ApiCmd.exec_query hquery hexec]
    exact hs
  · obtain ⟨id, rfl⟩ := ApiCmd.exec_randomUUID hexec
    exact hs

/-- A computed value is passed on without a command. -/
theorem returns_ofExcept_bind {result : Except JsError β} {f : β → Api α}
    (h : ∀ value, result = .ok value → Returns (api cfg) .any P (f value) w) :
    Returns (api cfg) .any P (Api.ofExcept result >>= f) w := by
  cases result with
  | ok value => exact h value rfl
  | error error => exact .throw error

/-- A method of the signing services returns in the API as it does on its own. -/
theorem returns_api {P : β → World → Prop} {p : Js β}
    (hp : Returns (services cfg.services) .any P p w.view) :
    Returns (api cfg) .any (fun value w' => ∃ base, P value base ∧ w' = w.put base) p.api w :=
  (services_embedding cfg).returns (fun hexec => ApiCmd.exec_base hexec) hp

end Returns

end BrokeTurnkey
