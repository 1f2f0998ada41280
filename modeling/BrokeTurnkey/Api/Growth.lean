import BrokeTurnkey.Api.Footprint
import BrokeTurnkey.Growth
import BrokeTurnkey.Interaction.Extends

/-!
# What stays in the tables of the API

No statement removes a row, and an update names neither an id nor an org: the ids, the
owners and the keys of the rows that are stored stay as they are.
-/

namespace BrokeTurnkey

open Interaction

/-! ### The columns no update names -/

def ApiKey.fixed (key : ApiKey) : Uuid × Uuid × Text × Text :=
  (key.id, key.orgId, key.keyId, key.publicKey)

def UserRow.fixed (row : UserRow) : Uuid × Uuid := (row.id, row.orgId)

def Policy.fixed (row : Policy) : Uuid × Uuid := (row.id, row.orgId)

def SigningRequest.fixed (row : SigningRequest) : Uuid × Uuid × Uuid × Text :=
  (row.id, row.orgId, row.walletId, row.idempotencyKey)

section Fixed

variable {id : Uuid}

theorem fixed_updateKey (fields : ApiKeyUpdate) (row : ApiKey) :
    (ApiKeyRepository.updateRow id fields row).fixed = row.fixed := by
  simp only [ApiKeyRepository.updateRow]
  split <;> rfl

theorem fixed_updateUser (status : UserStatus) (row : UserRow) :
    (UserRowRepository.updateRow id status row).fixed = row.fixed := by
  simp only [UserRowRepository.updateRow]
  split <;> rfl

theorem fixed_updatePolicy (status : PolicyStatus) (row : Policy) :
    (PolicyRowRepository.updateRow id status row).fixed = row.fixed := by
  simp only [PolicyRowRepository.updateRow]
  split <;> rfl

theorem fixed_updateRequest (fields : SigningRequestUpdate) (row : SigningRequest) :
    (SigningRequestRepository.updateRow id fields row).fixed = row.fixed := by
  simp only [SigningRequestRepository.updateRow]
  split <;> rfl

end Fixed

/-! ### Tables that are only added to -/

structure ApiTables.Grows (t t' : ApiTables) : Prop where
  wallets : t.base.wallets <+: t'.base.wallets
  requests : Extends SigningRequest.fixed t.base.requests t'.base.requests
  policies : Extends Policy.fixed t.base.policies t'.base.policies
  users : Extends UserRow.fixed t.users t'.users
  apiKeys : Extends ApiKey.fixed t.apiKeys t'.apiKeys
  auditLog : t.base.auditLog <+: t'.base.auditLog
  adminAudit : t.adminAudit <+: t'.adminAudit

namespace ApiTables.Grows

theorem refl (t : ApiTables) : Grows t t :=
  ⟨List.prefix_refl _, .refl _ _, .refl _ _, .refl _ _, .refl _ _, List.prefix_refl _,
    List.prefix_refl _⟩

theorem trans {t t' t'' : ApiTables} (h : Grows t t') (h' : Grows t' t'') : Grows t t'' where
  wallets := h.wallets.trans h'.wallets
  requests := h.requests.trans h'.requests
  policies := h.policies.trans h'.policies
  users := h.users.trans h'.users
  apiKeys := h.apiKeys.trans h'.apiKeys
  auditLog := h.auditLog.trans h'.auditLog
  adminAudit := h.adminAudit.trans h'.adminAudit

/-- Tables that agree grow if the written one does. -/
theorem of_agree {written : Option ApiTable} {t t' : ApiTables} (h : Agree written t t')
    (hpolicies : written = some .policies →
      Extends Policy.fixed t.base.policies t'.base.policies)
    (husers : written = some .users → Extends UserRow.fixed t.users t'.users)
    (hkeys : written = some .apiKeys → Extends ApiKey.fixed t.apiKeys t'.apiKeys)
    (haudit : written = some .adminAudit → t.adminAudit <+: t'.adminAudit) :
    Grows t t' where
  wallets := by rw [h.base]
  requests := .of_eq (by rw [h.base])
  policies := (em _).elim hpolicies fun hne => .of_eq (h.policies hne)
  users := (em _).elim husers fun hne => .of_eq (h.users hne)
  apiKeys := (em _).elim hkeys fun hne => .of_eq (h.apiKeys hne)
  auditLog := by rw [h.base]
  adminAudit := (em _).elim haudit fun hne => h.adminAudit hne ▸ List.prefix_refl _

end ApiTables.Grows

/-- An insert or an update in one of the tables. -/
theorem ApiTables.write_grows {α : Type} {t : ApiTables}
    {answer : Except JsError (α × ApiTables)}
    (h : ∀ value t', answer = .ok (value, t') → Grows t t') : Grows t (t.write answer).2 := by
  cases answer with
  | ok result => exact h result.1 result.2 rfl
  | error error => exact .refl t

theorem ApiSql.exec_grows (statement : ApiSql) (id : Uuid) (now : Int) (t : ApiTables) :
    t.Grows (statement.exec id now t).2 := by
  have hagree := statement.exec_agree id now t
  cases statement with
  | keyCreate data =>
    refine ApiTables.write_grows fun value t' h => ?_
    obtain ⟨org, _, _, rfl, rfl⟩ := ApiKeyRepository.create_eq_ok h
    exact .of_agree (t.agree_apiKeys _) nofun nofun (fun _ => .append _ _ _) nofun
  | keyUpdate rowId fields =>
    exact .of_agree (t.agree_apiKeys _) nofun nofun (fun _ => .map (fixed_updateKey fields) _)
      nofun
  | userCreate data =>
    refine ApiTables.write_grows fun value t' h => ?_
    obtain ⟨org, _, rfl, rfl⟩ := UserRowRepository.create_eq_ok h
    exact .of_agree (t.agree_users _) nofun (fun _ => .append _ _ _) nofun nofun
  | userUpdate userId status =>
    refine ApiTables.write_grows fun value t' h => ?_
    obtain ⟨u, _, heq⟩ := map_eq_ok.mp h
    cases heq
    exact .of_agree (t.agree_users _) nofun (fun _ => .map (fixed_updateUser status) _) nofun
      nofun
  | policyCreate data =>
    refine ApiTables.write_grows fun value t' h => ?_
    obtain ⟨org, target, _, _, rfl, rfl⟩ := PolicyRowRepository.create_eq_ok h
    exact .of_agree (t.agree_policies _) (fun _ => .append _ _ _) nofun nofun nofun
  | policyUpdate policyId status =>
    refine ApiTables.write_grows fun value t' h => ?_
    obtain ⟨u, _, heq⟩ := map_eq_ok.mp h
    cases heq
    exact .of_agree (t.agree_policies _) (fun _ => .map (fixed_updatePolicy status) _) nofun nofun
      nofun
  | auditCreate data =>
    refine ApiTables.write_grows fun value t' h => ?_
    obtain ⟨org, user, wallet, _, _, _, rfl⟩ := AdminAuditRepository.create_eq_ok h
    exact .of_agree (t.agree_adminAudit _) nofun nofun nofun fun _ => List.prefix_append _ _
  | _ => exact .of_agree hagree nofun nofun nofun nofun

/-! ### Every command and every event -/

/-- A command of the signing services inserts and updates requests. -/
theorem exec_extends {command : Cmd} {choice : Choice} {w w' : World}
    {reply : Except JsError command.Reply}
    (hexec : BrokeTurnkey.exec command choice w = some (reply, w')) :
    Extends SigningRequest.fixed w.tables.requests w'.tables.requests := by
  rcases exec_requests hexec with heq | ⟨id, fields, _, heq⟩ |
      ⟨data, id, org, wallet, _, _, _, _, heq⟩
  · exact .of_eq heq
  · rw [heq]
    exact .map (fixed_updateRequest fields) _
  · rw [heq]
    exact .append _ _ _

theorem ApiCmd.exec_base_grows {command : Cmd} {choice : Choice} {w : ApiWorld} {base : World}
    {reply : Except JsError command.Reply}
    (hexec : BrokeTurnkey.exec command choice w.view = some (reply, base)) :
    w.tables.Grows (w.put base).tables where
  wallets := (exec_appends hexec).wallets
  requests := exec_extends hexec
  policies := .of_eq (BrokeTurnkey.exec_agree hexec).policies
  users := .refl _ _
  apiKeys := .refl _ _
  auditLog := exec_auditLog hexec
  adminAudit := List.prefix_refl _

theorem ApiCmd.exec_grows {command : ApiCmd} {choice : Choice} {w w' : ApiWorld}
    {reply : Except JsError command.Reply} (hexec : command.exec choice w = some (reply, w')) :
    w.tables.Grows w'.tables := by
  cases command with
  | base command =>
    obtain ⟨base, hbase, rfl⟩ := exec_base hexec
    exact exec_base_grows hbase
  | sql statement =>
    rcases exec_sql hexec with ⟨id, _, rfl, _⟩ | ⟨error, _, _, _, rfl⟩
    · exact statement.exec_grows id w.clock w.tables
    · exact .refl _
  | randomUUID =>
    obtain ⟨id, rfl⟩ := exec_randomUUID hexec
    exact .refl _
  | signHash wallet key hash => exact exec_query rfl hexec ▸ .refl _
  | fork job => exact exec_query rfl hexec ▸ .refl _

/-- The tables and the history grow, under any guard. -/
def apiGrowth (cfg : ApiConfig) (guard : Guard ApiCmd Choice ApiEvent ApiWorld) :
    Evolution (api cfg) guard where
  Grows := fun w history w' history' => w.tables.Grows w'.tables ∧ history <:+ history'
  refl := fun _ _ => ⟨.refl _, List.suffix_refl _⟩
  trans := fun h h' => ⟨h.1.trans h'.1, h.2.trans h'.2⟩
  command := fun _ _ hexec => ⟨ApiCmd.exec_grows hexec, List.suffix_cons _ _⟩
  event := by
    intro event w w' history _ henv
    cases henv
    cases event with
    | tick duration => exact ⟨.refl _, List.suffix_refl _⟩
    | evict keep => exact ⟨.refl _, List.suffix_refl _⟩

end BrokeTurnkey
