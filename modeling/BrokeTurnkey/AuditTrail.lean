import BrokeTurnkey.AdminChanges
import BrokeTurnkey.Api.Growth
import BrokeTurnkey.Interaction.Register

/-!
# What the audit log accounts for

Seven of the eight administrative calls write a row to `audit_log` that names what they
created or ended.  `createPolicy` writes none.  The keys and the users of an org can be
computed from its audit log, and its policies cannot.
-/

namespace BrokeTurnkey

open Interaction

/-! ### Reading the audit log -/

namespace AdminEvent

def keyCreated? : AdminEvent → Option Uuid
  | .apiKeyCreated apiKeyId _ _ _ => Uuid.ofText apiKeyId
  | _ => none

def keyRevoked? : AdminEvent → Option Uuid
  | .apiKeyRevoked apiKeyId _ _ => Uuid.ofText apiKeyId
  | _ => none

def userCreated? : AdminEvent → Option Uuid
  | .userCreated userId _ _ _ => Uuid.ofText userId
  | _ => none

def userDeleted? : AdminEvent → Option Uuid
  | .userDeleted userId _ => Uuid.ofText userId
  | _ => none

/-- The deletion is the only event of a policy. -/
def policyDeleted? : AdminEvent → Option Uuid
  | .policyDeleted policyId _ => Uuid.ofText policyId
  | _ => none

end AdminEvent

namespace AuditTrail

def keys : Register ApiKey Uuid Uuid := ⟨ApiKey.id, ApiKey.orgId, fun row => row.status = .active⟩

def users : Register UserRow Uuid Uuid :=
  ⟨UserRow.id, UserRow.orgId, fun row => row.status = .active⟩

def policies : Register Policy Uuid Uuid :=
  ⟨Policy.id, Policy.orgId, fun row => row.status = .active⟩

def keyLog : Journal AdminAudit Uuid Uuid :=
  ⟨AdminAudit.orgId, fun audit => audit.event.keyCreated?, fun audit => audit.event.keyRevoked?⟩

def userLog : Journal AdminAudit Uuid Uuid :=
  ⟨AdminAudit.orgId, fun audit => audit.event.userCreated?, fun audit => audit.event.userDeleted?⟩

def policyLog : Journal AdminAudit Uuid Uuid :=
  ⟨AdminAudit.orgId, fun _ => none, fun audit => audit.event.policyDeleted?⟩

/-- `wallet_created` names the wallet, `org_onboarded` comes with the first one. -/
def DescribesWallet (audit : AuditLog) (row : Wallet) : Prop :=
  audit.orgId = row.orgId ∧
    (audit.event = .walletCreated ∧ audit.walletId = some row.id ∨
      audit.event = .orgOnboarded ∧ row.derivationPath = WalletService.firstDerivationPath)

def DescribesSeed (audit : AuditLog) (row : OrganizationSeed) : Prop :=
  audit.orgId = row.orgId ∧ audit.event = .orgOnboarded

end AuditTrail

open AuditTrail

/-- Every change in the five tables is described by a row that came with it. -/
structure Audited (t t' : ApiTables) : Prop where
  keys : Recorded AuditTrail.keys.id (keyLog.Describes AuditTrail.keys) t.apiKeys t'.apiKeys
    (t'.adminAudit.drop t.adminAudit.length)
  users : Recorded AuditTrail.users.id (userLog.Describes AuditTrail.users) t.users t'.users
    (t'.adminAudit.drop t.adminAudit.length)
  policies : Recorded AuditTrail.policies.id (policyLog.Describes AuditTrail.policies)
    t.base.policies t'.base.policies
    (t'.adminAudit.drop t.adminAudit.length)
  wallets : Recorded Wallet.id DescribesWallet t.base.wallets t'.base.wallets
    (t'.base.auditLog.drop t.base.auditLog.length)
  seeds : Recorded OrganizationSeed.orgId DescribesSeed t.base.seeds t'.base.seeds
    (t'.base.auditLog.drop t.base.auditLog.length)

/-- The active keys, users and policies of every org are those its audit log yields. -/
structure Recomputable (t : ApiTables) : Prop where
  keys : Recomputes keys keyLog t.apiKeys t.adminAudit
  users : Recomputes users userLog t.users t.adminAudit
  policies : Recomputes policies policyLog t.base.policies t.adminAudit

/-- The audit log accounts for what is there, and no two rows share an id. -/
structure Accounted (t : ApiTables) : Prop where
  keys : Accounts keys keyLog t.apiKeys t.adminAudit
  users : Accounts users userLog t.users t.adminAudit
  policies : Accounts policies policyLog t.base.policies t.adminAudit

theorem Accounted.recomputable {t : ApiTables} (h : Accounted t) : Recomputable t :=
  ⟨h.keys.recomputes, h.users.recomputes, h.policies.recomputes⟩

/-- Before the first key, user and policy, the audit log accounts for them. -/
theorem Accounted.of_empty {t : ApiTables} (hkeys : t.apiKeys = []) (husers : t.users = [])
    (hpolicies : t.base.policies = []) (hlog : t.adminAudit = []) : Accounted t := by
  constructor
  · rw [hkeys, hlog]
    exact .nil
  · rw [husers, hlog]
    exact .nil
  · rw [hpolicies, hlog]
    exact .nil

/-! ### One call -/

namespace AuditTrail

variable {t t' : ApiTables} {call : ApiCall}

/-! The three updates that end a row. -/

theorem ends_policy (row : Policy) :
    policies.Ends row (PolicyRowRepository.updateRow row.id .inactive) where
  id := fun other => congrArg Prod.fst (fixed_updatePolicy .inactive other)
  owner := fun other => congrArg Prod.snd (fixed_updatePolicy .inactive other)
  others := fun _ hne => if_neg hne
  ended := by simp [policies, PolicyRowRepository.updateRow]

theorem ends_key (row : ApiKey) (revokedAt : Int) :
    keys.Ends row (ApiKeyRepository.updateRow row.id
      { status := some .revoked, revokedAt := some revokedAt }) where
  id := fun other => congrArg Prod.fst (fixed_updateKey _ other)
  owner := fun other => congrArg (fun fixed => fixed.2.1) (fixed_updateKey _ other)
  others := fun _ hne => if_neg hne
  ended := by simp [keys, ApiKeyRepository.updateRow, ApiKeyUpdate.apply]

theorem ends_user (row : UserRow) :
    users.Ends row (UserRowRepository.updateRow row.id .deleted) where
  id := fun other => congrArg Prod.fst (fixed_updateUser .deleted other)
  owner := fun other => congrArg Prod.snd (fixed_updateUser .deleted other)
  others := fun _ hne => if_neg hne
  ended := by simp [users, UserRowRepository.updateRow]

/-- Every call but `createPolicy` leaves the audit log accounting for the tables. -/
theorem accounted_change (h : Accounted t) (hchange : AdminChange t call t')
    (hnot : call.isPolicyCreation = false) : Accounted t' := by
  cases hchange with
  | createPolicy row hfresh hactive => cases hnot
  | deletePolicy row createdAt hrow hid =>
    exact ⟨h.keys.silent rfl rfl, h.users.silent rfl rfl,
      h.policies.closed hrow (ends_policy row) rfl rfl hid⟩
  | registerApiKey row organizations createdAt hfresh hactive =>
    exact ⟨h.keys.opened hfresh (decide_eq_true hactive) rfl (Uuid.ofText_toText row.id) rfl,
      h.users.silent rfl rfl, h.policies.silent rfl rfl⟩
  | revokeApiKey row revokedAt createdAt hrow =>
    exact ⟨h.keys.closed hrow (ends_key row revokedAt) rfl rfl (Uuid.ofText_toText row.id),
      h.users.silent rfl rfl, h.policies.silent rfl rfl⟩
  | createUser row createdAt hfresh hactive =>
    exact ⟨h.keys.silent rfl rfl,
      h.users.opened hfresh (decide_eq_true hactive) rfl (Uuid.ofText_toText row.id) rfl,
      h.policies.silent rfl rfl⟩
  | deleteUser row createdAt hrow hid =>
    exact ⟨h.keys.silent rfl rfl, h.users.closed hrow (ends_user row) rfl rfl hid,
      h.policies.silent rfl rfl⟩
  | deriveWallet row user createdAt => exact ⟨h.keys, h.users, h.policies⟩
  | onBoardOrganization seed row createdAt horg hpath => exact ⟨h.keys, h.users, h.policies⟩

theorem mem_written {ε : Type} (log : List ε) (audit : ε) :
    audit ∈ (log ++ [audit]).drop log.length := by
  rw [List.drop_left]
  exact List.mem_singleton.mpr rfl

/-- Every call but `createPolicy` records what it changes. -/
theorem audited_change (h : Accounted t) (hchange : AdminChange t call t')
    (hnot : call.isPolicyCreation = false) : Audited t t' := by
  cases hchange with
  | createPolicy row hfresh hactive => cases hnot
  | deletePolicy row createdAt hrow hid =>
    refine ⟨.refl .., .refl .., ?_, .refl .., .refl ..⟩
    exact .ended h.policies.ids hrow (ends_policy row) (mem_written _ _)
      (Journal.describes_closed (ends_policy row) rfl hid)
  | registerApiKey row organizations createdAt hfresh hactive =>
    refine ⟨?_, .refl .., .refl .., .refl .., .refl ..⟩
    exact .append (mem_written _ _) (Journal.describes_opened rfl (decide_eq_true hactive)
      (Uuid.ofText_toText row.id))
  | revokeApiKey row revokedAt createdAt hrow =>
    refine ⟨?_, .refl .., .refl .., .refl .., .refl ..⟩
    exact .ended h.keys.ids hrow (ends_key row revokedAt) (mem_written _ _)
      (Journal.describes_closed (ends_key row revokedAt) rfl (Uuid.ofText_toText row.id))
  | createUser row createdAt hfresh hactive =>
    refine ⟨.refl .., ?_, .refl .., .refl .., .refl ..⟩
    exact .append (mem_written _ _) (Journal.describes_opened rfl (decide_eq_true hactive)
      (Uuid.ofText_toText row.id))
  | deleteUser row createdAt hrow hid =>
    refine ⟨.refl .., ?_, .refl .., .refl .., .refl ..⟩
    exact .ended h.users.ids hrow (ends_user row) (mem_written _ _)
      (Journal.describes_closed (ends_user row) rfl hid)
  | deriveWallet row user createdAt =>
    refine ⟨.refl .., .refl .., .refl .., ?_, .refl ..⟩
    exact .append (mem_written _ _) ⟨rfl, .inl ⟨rfl, rfl⟩⟩
  | onBoardOrganization seed row createdAt horg hpath =>
    refine ⟨.refl .., .refl .., .refl .., ?_, ?_⟩
    · exact .append (mem_written _ _) ⟨horg.symm, .inr ⟨rfl, hpath⟩⟩
    · exact .append (mem_written _ _) ⟨rfl, rfl⟩

/-- `createPolicy` writes no row that could describe the policy. -/
theorem not_audited {body : CreatePolicyDto} (hchange : AdminChange t (.createPolicy body) t') :
    ¬Audited t t' := by
  intro h
  cases hchange with
  | createPolicy row hfresh hactive =>
    have hnew : row ∉ t.base.policies := fun hrow => hfresh row hrow rfl
    obtain ⟨audit, haudit, _⟩ :=
      h.policies.2 row (List.mem_append_right _ List.mem_cons_self) hnew
    simp [ApiTables.setPolicies] at haudit

end AuditTrail

/-! ### Runs -/

/-- A call, and the world before and after it. -/
structure AdminStep where
  orgId : Text
  call : ApiCall
  before : ApiWorld
  after : ApiWorld

/-- Successful administrative calls one after the other, with anything that is not a
    call in between. -/
inductive AdminRun (cfg : ApiConfig) (w : ApiWorld) : List AdminStep → ApiWorld → Prop
  | start : AdminRun cfg w [] w
  | event {steps : List AdminStep} {w' : ApiWorld} (event : ApiEvent) :
      AdminRun cfg w steps w' → AdminRun cfg w steps (w'.event event)
  | call {steps : List AdminStep} {w' w'' : ApiWorld} {orgId : Text} {call : ApiCall}
      {outcome : ApiOutcome} {history : List ApiEntry} :
      AdminRun cfg w steps w' → call.isAdministrative = true →
      Completes (api cfg) .any (call.start cfg orgId) w' [] (.ok outcome) w'' history →
      AdminRun cfg w (steps ++ [⟨orgId, call, w', w''⟩]) w''

namespace AdminRun

variable {cfg : ApiConfig} {w w' : ApiWorld} {steps : List AdminStep}

theorem change (hrun : AdminRun cfg w steps w') :
    ∀ step ∈ steps, AdminChange step.before.tables step.call step.after.tables := by
  induction hrun with
  | start => exact fun _ hstep => absurd hstep List.not_mem_nil
  | event _ _ ih => exact ih
  | call _ hadmin hcall ih =>
    intro step hstep
    rcases List.mem_append.mp hstep with hold | hlast
    · exact ih step hold
    · rw [List.mem_singleton.mp hlast]
      exact hcall.returns (AdminChanges.start_returns hadmin)

/-- As long as no policy is created, every step is recorded and the audit log goes on
    accounting for the tables. -/
theorem accounted (h : Accounted w.tables) (hrun : AdminRun cfg w steps w')
    (hnot : ∀ step ∈ steps, step.call.isPolicyCreation = false) :
    (∀ step ∈ steps, Audited step.before.tables step.after.tables) ∧ Accounted w'.tables := by
  induction hrun with
  | start => exact ⟨fun _ hstep => absurd hstep List.not_mem_nil, h⟩
  | @event steps w' event _ ih =>
    obtain ⟨hsteps, hbooks⟩ := ih hnot
    refine ⟨hsteps, ?_⟩
    cases event with
    | tick duration => exact hbooks
    | evict keep => exact hbooks
  | @call steps w' w'' orgId call outcome history _ hadmin hcall ih =>
    obtain ⟨hsteps, hbooks⟩ := ih fun step hstep => hnot step (List.mem_append_left _ hstep)
    have hcreation := hnot _ (List.mem_append_right _ List.mem_cons_self)
    have hchange : AdminChange w'.tables call w''.tables :=
      hcall.returns (AdminChanges.start_returns hadmin)
    refine ⟨fun step hstep => ?_, accounted_change hbooks hchange hcreation⟩
    rcases List.mem_append.mp hstep with hold | hlast
    · exact hsteps step hold
    · rw [List.mem_singleton.mp hlast]
      exact audited_change hbooks hchange hcreation

end AdminRun

/-- **The audit log accounts for a run exactly if the run creates no policy.** -/
theorem admin_run_audited_iff {cfg : ApiConfig} {w w' : ApiWorld} {steps : List AdminStep}
    (h : Accounted w.tables) (hrun : AdminRun cfg w steps w') :
    ((∀ step ∈ steps, Audited step.before.tables step.after.tables) ∧ Recomputable w'.tables) ↔
      ∀ step ∈ steps, step.call.isPolicyCreation = false := by
  constructor
  · rintro ⟨haudited, _⟩ ⟨orgId, call, before, after⟩ hstep
    have hchange := hrun.change _ hstep
    cases call with
    | createPolicy body => exact absurd (haudited _ hstep) (not_audited hchange)
    | _ => rfl
  · intro hnot
    obtain ⟨haudited, hbooks⟩ := hrun.accounted h hnot
    exact ⟨haudited, hbooks.recomputable⟩

/-! ### Two runs -/

namespace ApiSample

theorem accounted_world : Accounted (world []).tables := .of_empty rfl rfl rfl rfl

def newUser : CreateUserDto := ⟨"alice".toList, none, none⟩

def newPolicy : CreatePolicyDto where
  name := "limit".toList
  ruleType := .spendLimit
  ruleConfig := .obj [("max_amount_wei".toList, .str "1".toList)]
  appliesTo := none
  targetId := none
  priority := none

/-- A run goes on with a call that succeeds. -/
theorem adminRun_call {steps : List AdminStep} {w : ApiWorld} {call : ApiCall}
    (hrun : AdminRun config (world []) steps w) (choices : List Choice) {P : ApiWorld → Prop}
    [DecidablePred P] (hadmin : call.isAdministrative = true)
    (h : (((api config).complete .any choices (call.start config org.toText) w []).any
      fun final => final.1.toOption.isSome ∧ P final.2.1) = true) :
    ∃ w', AdminRun config (world []) (steps ++ [⟨org.toText, call, w, w'⟩]) w' ∧ P w' := by
  obtain ⟨outcome, w', history, hcall, hfinal⟩ := Completes.exists_of_complete (api config) .any
    (call.start config org.toText) w choices
    (fun final => final.1.toOption.isSome ∧ P final.2.1) h
  obtain ⟨hreturned, hP⟩ := of_decide_eq_true hfinal
  cases outcome with
  | ok outcome => exact ⟨w', .call hrun hadmin hcall, hP⟩
  | error error => cases hreturned

/-- The id `createUser` gives out. -/
def userId : Text := (Sample.freshId 1).toText

def creates : List Choice := [Sample.run, .done (Sample.freshId 1), Sample.run]

def deletes : List Choice := [Sample.run, Sample.run, Sample.run]

end ApiSample

open ApiSample in
/-- A user is created and deleted, and the audit log says so. -/
theorem admin_run_audited_user :
    ∃ w w', AdminRun config (world []) [⟨org.toText, .createUser newUser, world [], w⟩,
        ⟨org.toText, .deleteUser userId, w, w'⟩] w' ∧
      w.tables.users.map UserRow.status = [.active] ∧
      w'.tables.users.map UserRow.status = [.deleted] ∧
      Audited (world []).tables w.tables ∧ Audited w.tables w'.tables ∧
      Recomputable w'.tables := by
  obtain ⟨w, hcreated, hactive, hdeletes⟩ := @adminRun_call [] (world []) (.createUser newUser)
    .start creates
    (fun w => w.tables.users.map UserRow.status = [.active] ∧
      ((api config).complete .any deletes ((ApiCall.deleteUser userId).start config org.toText)
        w []).any fun final => final.1.toOption.isSome ∧
          final.2.1.tables.users.map UserRow.status = [.deleted]) _ rfl (by decide)
  obtain ⟨w', hrun, hdeleted⟩ := @adminRun_call _ w (.deleteUser userId) hcreated deletes
    (fun w => w.tables.users.map UserRow.status = [.deleted]) _ rfl hdeletes
  obtain ⟨haudited, hrecomputable⟩ := (admin_run_audited_iff accounted_world hrun).mpr
    (by simp [ApiCall.isPolicyCreation])
  exact ⟨w, w', hrun, hactive, hdeleted, haudited _ List.mem_cons_self,
    haudited _ (List.mem_cons_of_mem _ List.mem_cons_self), hrecomputable⟩

open ApiSample in
/-- A policy is created, and the audit log stays as it was. -/
theorem createPolicy_unaudited :
    ∃ w', AdminRun config (world []) [⟨org.toText, .createPolicy newPolicy, world [], w'⟩] w' ∧
      (w'.tables.base.policies.map fun row => (row.orgId, row.status)) = [(org, .active)] ∧
      w'.tables.adminAudit = (world []).tables.adminAudit ∧
      w'.tables.base.auditLog = (world []).tables.base.auditLog ∧
      ¬Audited (world []).tables w'.tables ∧ ¬Recomputable w'.tables := by
  obtain ⟨w', hrun, hpolicies, hadmin, hlog⟩ :=
    @adminRun_call [] (world []) (.createPolicy newPolicy)
    .start [.done (Sample.freshId 1)]
    (fun w => (w.tables.base.policies.map fun row => (row.orgId, row.status)) = [(org, .active)] ∧
      w.tables.adminAudit = [] ∧ w.tables.base.auditLog = []) _ rfl (by decide)
  refine ⟨w', hrun, hpolicies, hadmin, hlog, ?_, ?_⟩
  · exact AuditTrail.not_audited (hrun.change _ List.mem_cons_self)
  · intro h
    have hmem : (org, PolicyStatus.active) ∈
        w'.tables.base.policies.map fun row => (row.orgId, row.status) := by
      rw [hpolicies]
      exact List.mem_singleton.mpr rfl
    obtain ⟨row, hrow, hsame⟩ := List.mem_map.mp hmem
    have hactive : row.status = .active := congrArg Prod.snd hsame
    have hstanding := (h.policies row.orgId row.id).mpr
      ⟨row, hrow, rfl, rfl, decide_eq_true hactive⟩
    rw [hadmin] at hstanding
    cases hstanding

end BrokeTurnkey
