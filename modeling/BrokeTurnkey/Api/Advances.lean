import BrokeTurnkey.Api.Effects
import BrokeTurnkey.Api.Growth
import BrokeTurnkey.Interaction.Advances
import BrokeTurnkey.Tenancy

/-!
# Nothing is taken back

The API has no statement that removes a row, and few that update one.  Lawful commands
leave the tables so that every row is still there with what it was inserted with: only
the columns an update names have other values, a key that was revoked stays revoked, and
a user or a policy that was deleted stays deleted.
-/

namespace BrokeTurnkey

open Interaction

/-! ### What may become of a row -/

/-- Only the bootstrap token comes and goes. -/
def Organization.Advance (row row' : Organization) : Prop :=
  row' = { row with bootstrapTokenHash := row'.bootstrapTokenHash, updatedAt := row'.updatedAt }

structure ApiKey.Advance (row row' : ApiKey) : Prop where
  same : row' = { row with
    status := row'.status, lastUsedAt := row'.lastUsedAt, revokedAt := row'.revokedAt }
  revoked : row.status = .revoked → row'.status = .revoked

structure UserRow.Advance (row row' : UserRow) : Prop where
  same : row' = { row with status := row'.status }
  deleted : row.status = .deleted → row'.status = .deleted

structure Policy.Advance (row row' : Policy) : Prop where
  same : row' = { row with status := row'.status }
  inactive : row.status = .inactive → row'.status = .inactive

/-- The later row is the earlier one after some updates, which clear no column. -/
def SigningRequest.Advance (row row' : SigningRequest) : Prop :=
  ∃ fields : SigningRequestUpdate, row' = fields.apply row

/-- One update after another is an update. -/
def SigningRequestUpdate.andThen (first second : SigningRequestUpdate) : SigningRequestUpdate where
  txHash := second.txHash.or first.txHash
  signature := second.signature.or first.signature
  status := second.status.or first.status
  failureReason := second.failureReason.or first.failureReason
  errorType := second.errorType.or first.errorType
  txPayload := second.txPayload.or first.txPayload
  blockNumber := second.blockNumber.or first.blockNumber
  gasUsed := second.gasUsed.or first.gasUsed
  effectiveGasPrice := second.effectiveGasPrice.or first.effectiveGasPrice
  speedUpAttempts := second.speedUpAttempts.or first.speedUpAttempts
  originalTxHash := second.originalTxHash.or first.originalTxHash
  lastSpeedUpAt := second.lastSpeedUpAt.or first.lastSpeedUpAt
  signedAt := second.signedAt.or first.signedAt
  broadcastedAt := second.broadcastedAt.or first.broadcastedAt
  confirmedAt := second.confirmedAt.or first.confirmedAt

theorem getD_getD {α : Type} (x y : Option α) (z : α) : x.getD (y.getD z) = (x.or y).getD z := by
  cases x <;> rfl

theorem SigningRequestUpdate.apply_apply (first second : SigningRequestUpdate)
    (row : SigningRequest) : second.apply (first.apply row) = (first.andThen second).apply row := by
  simp only [apply, andThen, Option.or_assoc, getD_getD]

theorem Organization.Advance.refl (row : Organization) : row.Advance row := rfl

theorem Organization.Advance.trans {row row' row'' : Organization} (h : row.Advance row')
    (h' : row'.Advance row'') : row.Advance row'' := by
  rw [Advance] at *
  rw [h', h]

theorem ApiKey.Advance.refl (row : ApiKey) : row.Advance row := ⟨rfl, fun h => h⟩

theorem ApiKey.Advance.trans {row row' row'' : ApiKey} (h : row.Advance row')
    (h' : row'.Advance row'') : row.Advance row'' := by
  refine ⟨?_, fun hrevoked => h'.revoked (h.revoked hrevoked)⟩
  rw [h'.same, h.same]

theorem UserRow.Advance.refl (row : UserRow) : row.Advance row := ⟨rfl, fun h => h⟩

theorem UserRow.Advance.trans {row row' row'' : UserRow} (h : row.Advance row')
    (h' : row'.Advance row'') : row.Advance row'' := by
  refine ⟨?_, fun hdeleted => h'.deleted (h.deleted hdeleted)⟩
  rw [h'.same, h.same]

theorem Policy.Advance.refl (row : Policy) : row.Advance row := ⟨rfl, fun h => h⟩

theorem Policy.Advance.trans {row row' row'' : Policy} (h : row.Advance row')
    (h' : row'.Advance row'') : row.Advance row'' := by
  refine ⟨?_, fun hinactive => h'.inactive (h.inactive hinactive)⟩
  rw [h'.same, h.same]

theorem SigningRequest.Advance.refl (row : SigningRequest) : row.Advance row := ⟨{}, rfl⟩

theorem SigningRequest.Advance.trans {row row' row'' : SigningRequest} (h : row.Advance row')
    (h' : row'.Advance row'') : row.Advance row'' := by
  obtain ⟨first, rfl⟩ := h
  obtain ⟨second, rfl⟩ := h'
  exact ⟨first.andThen second, first.apply_apply second row⟩

/-! ### The updates -/

theorem advance_updateOrganization (id : Uuid) (hash : Option Text) (now : Int)
    (row : Organization) : row.Advance (OrganizationRepository.updateRow id hash now row) := by
  rw [OrganizationRepository.updateRow]
  split
  · rfl
  · exact .refl row

/-- A key that is revoked is not made active again. -/
theorem advance_updateKey (id : Uuid) {fields : ApiKeyUpdate}
    (hlawful : fields.isTouch = true ∨ fields.Revokes) (row : ApiKey) :
    row.Advance (ApiKeyRepository.updateRow id fields row) := by
  rw [ApiKeyRepository.updateRow]
  split
  · refine ⟨rfl, fun hrevoked => ?_⟩
    rcases hlawful with htouch | hrevokes
    · rw [ApiKeyUpdate.apply, (of_decide_eq_true htouch).1]
      exact hrevoked
    · rw [ApiKeyUpdate.apply, hrevokes.status]
      rfl
  · exact .refl row

theorem advance_updateUser (id : Uuid) (row : UserRow) :
    row.Advance (UserRowRepository.updateRow id .deleted row) := by
  rw [UserRowRepository.updateRow]
  split
  · exact ⟨rfl, fun _ => rfl⟩
  · exact .refl row

theorem advance_updatePolicy (id : Uuid) (row : Policy) :
    row.Advance (PolicyRowRepository.updateRow id .inactive row) := by
  rw [PolicyRowRepository.updateRow]
  split
  · exact ⟨rfl, fun _ => rfl⟩
  · exact .refl row

theorem advance_updateRequest (id : Uuid) (fields : SigningRequestUpdate) (row : SigningRequest) :
    row.Advance (SigningRequestRepository.updateRow id fields row) := by
  rw [SigningRequestRepository.updateRow]
  split
  · exact ⟨fields, rfl⟩
  · exact .refl row

/-! ### The tables -/

/-- Every row is still there, and in its place. -/
structure ApiTables.Advance (t t' : ApiTables) : Prop where
  seeds : t.base.seeds <+: t'.base.seeds
  wallets : t.base.wallets <+: t'.base.wallets
  auditLog : t.base.auditLog <+: t'.base.auditLog
  adminAudit : t.adminAudit <+: t'.adminAudit
  requests : Advances SigningRequest.Advance t.base.requests t'.base.requests
  policies : Advances Policy.Advance t.base.policies t'.base.policies
  users : Advances UserRow.Advance t.users t'.users
  apiKeys : Advances ApiKey.Advance t.apiKeys t'.apiKeys
  organizations : Advances Organization.Advance t.organizations t'.organizations

namespace ApiTables.Advance

theorem refl (t : ApiTables) : Advance t t where
  seeds := List.prefix_refl _
  wallets := List.prefix_refl _
  auditLog := List.prefix_refl _
  adminAudit := List.prefix_refl _
  requests := .refl .refl _
  policies := .refl .refl _
  users := .refl .refl _
  apiKeys := .refl .refl _
  organizations := .refl .refl _

theorem trans {t t' t'' : ApiTables} (h : Advance t t') (h' : Advance t' t'') : Advance t t'' where
  seeds := h.seeds.trans h'.seeds
  wallets := h.wallets.trans h'.wallets
  auditLog := h.auditLog.trans h'.auditLog
  adminAudit := h.adminAudit.trans h'.adminAudit
  requests := h.requests.trans .trans h'.requests
  policies := h.policies.trans .trans h'.policies
  users := h.users.trans .trans h'.users
  apiKeys := h.apiKeys.trans .trans h'.apiKeys
  organizations := h.organizations.trans .trans h'.organizations

section Written

variable {t : ApiTables}

theorem of_organizations {organizations : List Organization}
    (h : Advances Organization.Advance t.organizations organizations) :
    Advance t { t with organizations } := { refl t with organizations := h }

theorem of_apiKeys {apiKeys : List ApiKey} (h : Advances ApiKey.Advance t.apiKeys apiKeys) :
    Advance t { t with apiKeys } := { refl t with apiKeys := h }

theorem of_users {users : List UserRow} (h : Advances UserRow.Advance t.users users) :
    Advance t { t with users } := { refl t with users := h }

theorem of_policies {policies : List Policy}
    (h : Advances Policy.Advance t.base.policies policies) : Advance t (t.setPolicies policies) :=
  { refl t with policies := h }

theorem of_adminAudit {adminAudit : List AdminAudit} (h : t.adminAudit <+: adminAudit) :
    Advance t { t with adminAudit } := { refl t with adminAudit := h }

end Written

end ApiTables.Advance

/-- A statement that fails writes nothing. -/
theorem ApiTables.write_advance {α : Type} {t : ApiTables}
    {answer : Except JsError (α × ApiTables)}
    (h : ∀ value t', answer = .ok (value, t') → t.Advance t') : t.Advance (t.write answer).2 := by
  cases answer with
  | ok result => exact h result.1 result.2 rfl
  | error error => exact .refl t

theorem ApiSql.exec_advance {cfg : ApiConfig} {statement : ApiSql} (hlawful : statement.Lawful cfg)
    (id : Uuid) (now : Int) (t : ApiTables) : t.Advance (statement.exec id now t).2 := by
  cases statement with
  | orgCreate name slug =>
    refine ApiTables.write_advance fun value t' h => ?_
    simp only [OrganizationRepository.create] at h
    split at h
    · cases h
    · cases h
      exact .of_organizations (.append .refl _ _)
  | orgUpdate orgId hash =>
    refine ApiTables.write_advance fun value t' h => ?_
    obtain ⟨u, _, heq⟩ := map_eq_ok.mp h
    cases heq
    exact .of_organizations (.map (advance_updateOrganization u hash now) _)
  | keyCreate data =>
    refine ApiTables.write_advance fun value t' h => ?_
    obtain ⟨org, _, _, rfl, rfl⟩ := ApiKeyRepository.create_eq_ok h
    exact .of_apiKeys (.append .refl _ _)
  | keyUpdate rowId fields => exact .of_apiKeys (.map (advance_updateKey rowId hlawful) _)
  | userCreate data =>
    refine ApiTables.write_advance fun value t' h => ?_
    obtain ⟨org, _, rfl, rfl⟩ := UserRowRepository.create_eq_ok h
    exact .of_users (.append .refl _ _)
  | userUpdate userId status =>
    have hdeleted : status = .deleted := hlawful
    refine ApiTables.write_advance fun value t' h => ?_
    obtain ⟨u, _, heq⟩ := map_eq_ok.mp h
    cases heq
    exact .of_users (.map (hdeleted ▸ advance_updateUser u) _)
  | policyCreate data =>
    refine ApiTables.write_advance fun value t' h => ?_
    obtain ⟨org, target, _, _, rfl, rfl⟩ := PolicyRowRepository.create_eq_ok h
    exact .of_policies (.append .refl _ _)
  | policyUpdate policyId status =>
    have hinactive : status = .inactive := hlawful
    refine ApiTables.write_advance fun value t' h => ?_
    obtain ⟨u, _, heq⟩ := map_eq_ok.mp h
    cases heq
    exact .of_policies (.map (hinactive ▸ advance_updatePolicy u) _)
  | auditCreate data =>
    refine ApiTables.write_advance fun value t' h => ?_
    obtain ⟨org, user, wallet, _, _, _, rfl⟩ := AdminAuditRepository.create_eq_ok h
    exact .of_adminAudit (List.prefix_append _ _)
  | _ => exact .refl t

/-! ### The signing services -/

theorem exec_requests_advance {command : Cmd} {choice : Choice} {w w' : World}
    {reply : Except JsError command.Reply}
    (hexec : BrokeTurnkey.exec command choice w = some (reply, w')) :
    Advances SigningRequest.Advance w.tables.requests w'.tables.requests := by
  rcases exec_requests hexec with heq | ⟨id, fields, _, heq⟩ |
      ⟨data, id, org, wallet, _, _, _, _, heq⟩
  · exact .of_eq .refl heq
  · rw [heq]
    exact .map (advance_updateRequest id fields) _
  · rw [heq]
    exact .append .refl _ _

/-- **A lawful command takes nothing back.** -/
theorem ApiCmd.exec_advance {cfg : ApiConfig} {command : ApiCmd} (hlawful : command.Lawful cfg)
    {choice : Choice} {w w' : ApiWorld} {reply : Except JsError command.Reply}
    (hexec : command.exec choice w = some (reply, w')) : w.tables.Advance w'.tables := by
  cases command with
  | base command =>
    obtain ⟨base, hbase, rfl⟩ := exec_base hexec
    constructor
    case seeds => exact (exec_appends hbase).seeds
    case wallets => exact (exec_appends hbase).wallets
    case auditLog => exact exec_auditLog hbase
    case adminAudit => exact List.prefix_refl _
    case requests => exact exec_requests_advance hbase
    case policies => exact .of_eq .refl (exec_agree hbase).policies
    case users => exact .refl .refl _
    case apiKeys => exact .refl .refl _
    case organizations => exact .refl .refl _
  | sql statement =>
    rcases exec_sql hexec with ⟨id, _, rfl, _⟩ | ⟨error, _, _, _, rfl⟩
    · exact ApiSql.exec_advance hlawful id w.clock w.tables
    · exact .refl _
  | randomUUID =>
    obtain ⟨id, rfl⟩ := exec_randomUUID hexec
    exact .refl _
  | signHash wallet key hash => exact exec_query rfl hexec ▸ .refl _
  | fork job => exact exec_query rfl hexec ▸ .refl _

/-! ### Keys -/

/-- What a command can do to the keys and the drawn ids. -/
inductive ApiCmd.OnKeys (w w' : ApiWorld) : ApiCmd → Prop where
  | kept {command : ApiCmd} : w'.tables.apiKeys = w.tables.apiKeys → w'.drawn = w.drawn →
      OnKeys w w' command
  | drawn {id : Uuid} : w'.tables = w.tables → w'.drawn = id :: w.drawn →
      (∀ key ∈ w.tables.apiKeys, key.id ≠ id) → OnKeys w w' .randomUUID
  | inserted {data : NewApiKey} {id org : Uuid} : Uuid.ofText data.orgId = some org →
      id ∉ w.drawn →
      w'.tables.apiKeys = w.tables.apiKeys ++ [ApiKeyRepository.newRow data id org w.clock] →
      w'.drawn = w.drawn → OnKeys w w' (.sql (.keyCreate data))
  | updated {rowId : Uuid} {fields : ApiKeyUpdate} :
      w'.tables.apiKeys = w.tables.apiKeys.map (ApiKeyRepository.updateRow rowId fields) →
      w'.drawn = w.drawn → OnKeys w w' (.sql (.keyUpdate rowId fields))

theorem ApiCmd.exec_keys {command : ApiCmd} {choice : Choice} {w w' : ApiWorld}
    {reply : Except JsError command.Reply} (hexec : command.exec choice w = some (reply, w')) :
    command.OnKeys w w' := by
  cases command with
  | base command =>
    obtain ⟨base, _, rfl⟩ := exec_base hexec
    exact .kept rfl rfl
  | sql statement =>
    rcases exec_sql hexec with ⟨id, hfresh, rfl, _⟩ | ⟨error, _, _, _, rfl⟩
    · have hagree := statement.exec_agree id w.clock w.tables
      cases statement with
      | keyCreate data =>
        cases hcreate : ApiKeyRepository.create data id w.clock w.tables with
        | error error => exact .kept (by simp [ApiSql.exec, hcreate, ApiTables.write]) rfl
        | ok result =>
          have hunused : id ∉ w.drawn := by
            simpa using (Bool.and_eq_true_iff.mp hfresh).2
          obtain ⟨row, t'⟩ := result
          obtain ⟨org, horg, _, rfl, rfl⟩ := ApiKeyRepository.create_eq_ok hcreate
          exact .inserted horg hunused (by simp [ApiSql.exec, hcreate, ApiTables.write]) rfl
      | keyUpdate rowId fields => exact .updated rfl rfl
      | _ => exact .kept (hagree.apiKeys (by simp [ApiSql.writes])) rfl
    · exact .kept rfl rfl
  | randomUUID =>
    cases choice with
    | done id =>
      simp only [exec] at hexec
      split at hexec
      · rename_i hfresh
        cases hexec
        refine .drawn rfl rfl fun key hkey => ?_
        have hunused := List.all_eq_true.mp (Bool.and_eq_true_iff.mp hfresh).1
        exact of_decide_eq_true (hunused key hkey)
      · cases hexec
    | _ => cases hexec
  | signHash wallet key hash => exact exec_query rfl hexec ▸ .kept rfl rfl
  | fork job => exact exec_query rfl hexec ▸ .kept rfl rfl

end BrokeTurnkey
