import BrokeTurnkey.Api.Growth
import BrokeTurnkey.TenantCalls

/-!
# Commands of the API on behalf of one org

The management services read and write three tables of their own and the policies.
`ApiCmd.Within` says of their commands what `Cmd.Within` says of those of the signing
services, and such a command leaves the rows of all other orgs alone.
-/

namespace BrokeTurnkey

open Interaction

/-! ### What belongs to an org -/

/-- No row of another org was created, changed or removed. -/
structure ApiTables.Spared (orgId : Text) (t t' : ApiTables) : Prop where
  base : t.view.Spared orgId t'.view
  users : Spares UserRow.orgId (isOrg orgId) t.users t'.users
  apiKeys : Spares ApiKey.orgId (isOrg orgId) t.apiKeys t'.apiKeys
  adminAudit : Spares AdminAudit.orgId (isOrg orgId) t.adminAudit t'.adminAudit

namespace ApiTables.Spared

variable {orgId : Text} {t t' : ApiTables}

theorem refl (orgId : Text) (t : ApiTables) : Spared orgId t t :=
  ⟨.refl _ _, .refl _ _ _, .refl _ _ _, .refl _ _ _⟩

/-- Tables that agree but for one are spared if that one is. -/
theorem of_agree {written : Option ApiTable} (h : Agree written t t')
    (hpolicies : written = some .policies →
      Spares Policy.orgId (isOrg orgId) t.base.policies t'.base.policies)
    (husers : written = some .users → Spares UserRow.orgId (isOrg orgId) t.users t'.users)
    (hkeys : written = some .apiKeys → Spares ApiKey.orgId (isOrg orgId) t.apiKeys t'.apiKeys)
    (haudit : written = some .adminAudit →
      Spares AdminAudit.orgId (isOrg orgId) t.adminAudit t'.adminAudit) : Spared orgId t t' where
  base := by
    have hwallets : t'.base.wallets = t.base.wallets := by rw [h.base]
    have hrequests : t'.base.requests = t.base.requests := by rw [h.base]
    have hlog : t'.base.auditLog = t.base.auditLog := by rw [h.base]
    have hnonces : t'.base.nonces = t.base.nonces := by rw [h.base]
    constructor
    case wallets => exact .of_eq hwallets
    case requests => exact .of_eq hrequests
    case policies => exact (em _).elim hpolicies fun hne => .of_eq (h.policies hne)
    case auditLog => exact .of_eq hlog
    case nonces => exact fun row _ _ => congrFun hnonces row.id
  users := (em _).elim husers fun hne => .of_eq (h.users hne)
  apiKeys := (em _).elim hkeys fun hne => .of_eq (h.apiKeys hne)
  adminAudit := (em _).elim haudit fun hne => .of_eq (h.adminAudit hne)

end ApiTables.Spared

/-- The tables of the signing services are linked, and ids are not shared in the others. -/
structure ApiLinked (cfg : ApiConfig) (t : ApiTables) : Prop where
  base : Linked cfg.services t.view
  users : UniqueBy UserRow.id t.users
  apiKeys : UniqueBy ApiKey.id t.apiKeys

/-- The text names a user of the org. -/
def HoldsUser (orgId userId : Text) (t : ApiTables) : Prop :=
  Has (fun row => some row.id) UserRow.orgId (isOrg orgId) (Uuid.ofText userId) t.users

/-- The text names a policy of the org. -/
def HoldsPolicy (orgId policyId : Text) (t : ApiTables) : Prop :=
  Has (fun row => some row.id) Policy.orgId (isOrg orgId) (Uuid.ofText policyId) t.base.policies

/-- A key of the org has this id. -/
def HoldsKey (orgId : Text) (id : Uuid) (t : ApiTables) : Prop :=
  Has ApiKey.id ApiKey.orgId (isOrg orgId) id t.apiKeys

/-! Rows keep their ids, whatever they are named by, and their orgs. -/

section Stays

variable {κ : Type} (name : Uuid → κ) {orgId : Text} {i : κ}

theorem Has.users {rows rows' : List UserRow}
    (h : Has (fun row => name row.id) UserRow.orgId (isOrg orgId) i rows)
    (hrows : Extends UserRow.fixed rows rows') :
    Has (fun row => name row.id) UserRow.orgId (isOrg orgId) i rows' := by
  refine Has.stays h hrows fun row row' hsame => ?_
  simp only [UserRow.fixed, Prod.mk.injEq] at hsame
  exact ⟨congrArg name hsame.1, hsame.2⟩

theorem Has.policies {rows rows' : List Policy}
    (h : Has (fun row => name row.id) Policy.orgId (isOrg orgId) i rows)
    (hrows : Extends Policy.fixed rows rows') :
    Has (fun row => name row.id) Policy.orgId (isOrg orgId) i rows' := by
  refine Has.stays h hrows fun row row' hsame => ?_
  simp only [Policy.fixed, Prod.mk.injEq] at hsame
  exact ⟨congrArg name hsame.1, hsame.2⟩

theorem Has.apiKeys {rows rows' : List ApiKey}
    (h : Has (fun row => name row.id) ApiKey.orgId (isOrg orgId) i rows)
    (hrows : Extends ApiKey.fixed rows rows') :
    Has (fun row => name row.id) ApiKey.orgId (isOrg orgId) i rows' := by
  refine Has.stays h hrows fun row row' hsame => ?_
  simp only [ApiKey.fixed, Prod.mk.injEq] at hsame
  exact ⟨congrArg name hsame.1, hsame.2.1⟩

end Stays

/-- The command writes only for the org, and starts no job but those of the signing
    services. -/
def ApiCmd.Within (cfg : ApiConfig) (orgId : Text) (t : ApiTables) : ApiCmd → Prop
  | .base command => command.Within cfg.services orgId t.view
  | .sql (.keyCreate data) => data.orgId = orgId
  | .sql (.keyUpdate id _) => HoldsKey orgId id t
  | .sql (.userCreate data) => data.orgId = orgId
  | .sql (.userUpdate userId _) => HoldsUser orgId userId t
  | .sql (.policyCreate data) => data.orgId = orgId
  | .sql (.policyUpdate policyId _) => HoldsPolicy orgId policyId t
  | .sql (.auditCreate data) => data.orgId = orgId
  | .fork _ => False
  | _ => True

theorem ApiCmd.within_of_query {cfg : ApiConfig} {orgId : Text} {t : ApiTables}
    {statement : ApiSql} (h : statement.isQuery = true) :
    (ApiCmd.sql statement).Within cfg orgId t := by
  cases statement with
  | keyCreate data => cases h
  | keyUpdate id fields => cases h
  | userCreate data => cases h
  | userUpdate userId status => cases h
  | policyCreate data => cases h
  | policyUpdate policyId status => cases h
  | auditCreate data => cases h
  | _ => trivial

/-! ### What one command does to the other orgs -/

section Step

variable {cfg : ApiConfig} {orgId : Text} {t : ApiTables}

/-- A statement that fails writes nothing. -/
theorem ApiTables.write_spared {α : Type} {answer : Except JsError (α × ApiTables)}
    (h : ∀ value t', answer = .ok (value, t') → t.Spared orgId t') :
    t.Spared orgId (t.write answer).2 := by
  cases answer with
  | ok result => exact h result.1 result.2 rfl
  | error error => exact .refl orgId t

/-- A statement issued for the org leaves the others alone. -/
theorem ApiSql.exec_spared {statement : ApiSql} (hlinked : ApiLinked cfg t)
    (hwithin : (ApiCmd.sql statement).Within cfg orgId t) (id : Uuid) (now : Int) :
    t.Spared orgId (statement.exec id now t).2 := by
  have hagree := statement.exec_agree id now t
  cases statement with
  | keyCreate data =>
    refine ApiTables.write_spared fun value t' h => ?_
    obtain ⟨org, horg, _, rfl, rfl⟩ := ApiKeyRepository.create_eq_ok h
    have hmine : isOrg orgId org = true := isOrg_iff.mpr (hwithin ▸ horg)
    exact .of_agree (t.agree_apiKeys _) nofun nofun (fun _ => .append hmine) nofun
  | keyUpdate rowId fields =>
    refine .of_agree (t.agree_apiKeys _) nofun nofun (fun _ => ?_) nofun
    refine .map_id hlinked.apiKeys hwithin (fun other => ?_) fun other hne => if_neg hne
    exact congrArg (fun fixed => fixed.2.1) (fixed_updateKey fields other)
  | userCreate data =>
    refine ApiTables.write_spared fun value t' h => ?_
    obtain ⟨org, horg, rfl, rfl⟩ := UserRowRepository.create_eq_ok h
    have hmine : isOrg orgId org = true := isOrg_iff.mpr (hwithin ▸ horg)
    exact .of_agree (t.agree_users _) nofun (fun _ => .append hmine) nofun nofun
  | userUpdate userId status =>
    refine ApiTables.write_spared fun value t' h => ?_
    obtain ⟨u, hu, heq⟩ := map_eq_ok.mp h
    cases heq
    refine .of_agree (t.agree_users _) nofun (fun _ => ?_) nofun nofun
    refine .map_id (hlinked.users.comp (Option.some_injective _)) hwithin (fun other => ?_) ?_
    · exact congrArg Prod.snd (fixed_updateUser status other)
    · intro other hne
      rw [parseUuid_eq_ok.mp hu] at hne
      exact if_neg fun hid => hne (congrArg some hid)
  | policyCreate data =>
    refine ApiTables.write_spared fun value t' h => ?_
    obtain ⟨org, target, horg, _, rfl, rfl⟩ := PolicyRowRepository.create_eq_ok h
    have hmine : isOrg orgId org = true := isOrg_iff.mpr (hwithin ▸ horg)
    exact .of_agree (t.agree_policies _) (fun _ => .append hmine) nofun nofun nofun
  | policyUpdate policyId status =>
    refine ApiTables.write_spared fun value t' h => ?_
    obtain ⟨u, hu, heq⟩ := map_eq_ok.mp h
    cases heq
    refine .of_agree (t.agree_policies _) (fun _ => ?_) nofun nofun nofun
    refine .map_id (hlinked.base.policies.comp (Option.some_injective _)) hwithin
      (fun other => ?_) ?_
    · exact congrArg Prod.snd (fixed_updatePolicy status other)
    · intro other hne
      rw [parseUuid_eq_ok.mp hu] at hne
      exact if_neg fun hid => hne (congrArg some hid)
  | auditCreate data =>
    refine ApiTables.write_spared fun value t' h => ?_
    obtain ⟨org, user, wallet, horg, _, _, rfl⟩ := AdminAuditRepository.create_eq_ok h
    have hmine : isOrg orgId org = true := isOrg_iff.mpr (hwithin ▸ horg)
    exact .of_agree (t.agree_adminAudit _) nofun nofun nofun fun _ => .append hmine
  | _ => exact .of_agree hagree nofun nofun nofun nofun

/-- The tables of the signing services, where only policies were written. -/
theorem Linked.of_agree {written : Option ApiTable} {t' : ApiTables}
    (h : Linked cfg.services t.view) (hagree : ApiTables.Agree written t t')
    (hpolicies : written = some .policies → UniqueBy Policy.id t'.base.policies) :
    Linked cfg.services t'.view := by
  have hwallets : t'.view.wallets = t.view.wallets := by
    change t'.base.wallets = t.base.wallets
    rw [hagree.base]
  have hrequests : t'.view.requests = t.view.requests := by
    change t'.base.requests = t.base.requests
    rw [hagree.base]
  constructor
  case wallets => exact hwallets ▸ h.wallets
  case requests => exact hrequests ▸ h.requests
  case policies =>
    refine (em _).elim hpolicies fun hne => ?_
    change UniqueBy Policy.id t'.base.policies
    rw [hagree.policies hne]
    exact h.policies
  case owned => exact hrequests ▸ hwallets ▸ h.owned
  case keyed => exact hrequests ▸ h.keyed

/-- Tables that agree but for one are linked if ids are not shared in that one. -/
theorem ApiLinked.of_agree {written : Option ApiTable} {t' : ApiTables} (h : ApiLinked cfg t)
    (hagree : ApiTables.Agree written t t')
    (hpolicies : written = some .policies → UniqueBy Policy.id t'.base.policies)
    (husers : written = some .users → UniqueBy UserRow.id t'.users)
    (hkeys : written = some .apiKeys → UniqueBy ApiKey.id t'.apiKeys) : ApiLinked cfg t' where
  base := h.base.of_agree hagree hpolicies
  users := (em _).elim husers fun hne => hagree.users hne ▸ h.users
  apiKeys := (em _).elim hkeys fun hne => hagree.apiKeys hne ▸ h.apiKeys

theorem ApiTables.write_linked {α : Type} {answer : Except JsError (α × ApiTables)}
    (hlinked : ApiLinked cfg t) (h : ∀ value t', answer = .ok (value, t') → ApiLinked cfg t') :
    ApiLinked cfg (t.write answer).2 := by
  cases answer with
  | ok result => exact h result.1 result.2 rfl
  | error error => exact hlinked

/-- An insert draws an unused id and an update names none. -/
theorem ApiLinked.exec_sql {statement : ApiSql} (h : ApiLinked cfg t) {id : Uuid}
    {drawn : List Uuid} (hfresh : statement.isFresh id drawn t = true) (now : Int) :
    ApiLinked cfg (statement.exec id now t).2 := by
  have hagree := statement.exec_agree id now t
  cases statement with
  | keyCreate data =>
    have hunused := List.all_eq_true.mp (Bool.and_eq_true_iff.mp hfresh).1
    refine ApiTables.write_linked h fun value t' hcreate => ?_
    obtain ⟨org, _, _, rfl, rfl⟩ := ApiKeyRepository.create_eq_ok hcreate
    refine h.of_agree (t.agree_apiKeys _) nofun nofun fun _ => ?_
    exact h.apiKeys.append fun other hother => of_decide_eq_true (hunused other hother)
  | keyUpdate rowId fields =>
    refine h.of_agree (t.agree_apiKeys _) nofun nofun fun _ => h.apiKeys.map fun row => ?_
    exact congrArg Prod.fst (fixed_updateKey fields row)
  | userCreate data =>
    have hunused := List.all_eq_true.mp hfresh
    refine ApiTables.write_linked h fun value t' hcreate => ?_
    obtain ⟨org, _, rfl, rfl⟩ := UserRowRepository.create_eq_ok hcreate
    refine h.of_agree (t.agree_users _) nofun (fun _ => ?_) nofun
    exact h.users.append fun other hother => of_decide_eq_true (hunused other hother)
  | userUpdate userId status =>
    refine ApiTables.write_linked h fun value t' hupdate => ?_
    obtain ⟨u, _, heq⟩ := map_eq_ok.mp hupdate
    cases heq
    refine h.of_agree (t.agree_users _) nofun (fun _ => h.users.map fun row => ?_) nofun
    exact congrArg Prod.fst (fixed_updateUser status row)
  | policyCreate data =>
    have hunused := List.all_eq_true.mp hfresh
    refine ApiTables.write_linked h fun value t' hcreate => ?_
    obtain ⟨org, target, _, _, rfl, rfl⟩ := PolicyRowRepository.create_eq_ok hcreate
    refine h.of_agree (t.agree_policies _) (fun _ => ?_) nofun nofun
    exact h.base.policies.append fun other hother => of_decide_eq_true (hunused other hother)
  | policyUpdate policyId status =>
    refine ApiTables.write_linked h fun value t' hupdate => ?_
    obtain ⟨u, _, heq⟩ := map_eq_ok.mp hupdate
    cases heq
    refine h.of_agree (t.agree_policies _) (fun _ => h.base.policies.map fun row => ?_) nofun nofun
    exact congrArg Prod.fst (fixed_updatePolicy status row)
  | _ => exact h.of_agree hagree nofun nofun nofun

end Step

section Exec

variable {cfg : ApiConfig} {orgId : Text} {command : ApiCmd} {choice : Choice} {w w' : ApiWorld}
  {reply : Except JsError command.Reply}

/-- A command issued for the org leaves the others alone. -/
theorem ApiCmd.exec_spared (hexec : command.exec choice w = some (reply, w'))
    (hlinked : ApiLinked cfg w.tables) (hwithin : command.Within cfg orgId w.tables) :
    w.tables.Spared orgId w'.tables := by
  cases command with
  | base command =>
    obtain ⟨base, hbase, rfl⟩ := exec_base hexec
    have hspared := BrokeTurnkey.exec_spared hbase hlinked.base hwithin
    constructor
    case base =>
      exact ⟨hspared.wallets, hspared.requests, hspared.policies, hspared.auditLog, hspared.nonces⟩
    case users => exact .refl _ _ _
    case apiKeys => exact .refl _ _ _
    case adminAudit => exact .refl _ _ _
  | sql statement =>
    rcases exec_sql hexec with ⟨id, _, rfl, _⟩ | ⟨error, _, _, _, rfl⟩
    · exact statement.exec_spared hlinked hwithin id w.clock
    · exact .refl _ _
  | randomUUID =>
    obtain ⟨id, rfl⟩ := exec_randomUUID hexec
    exact .refl _ _
  | signHash wallet key hash => exact exec_query rfl hexec ▸ .refl _ _
  | fork job => exact exec_query rfl hexec ▸ .refl _ _

/-- Every command keeps the tables linked if what it inserts is. -/
theorem ApiLinked.exec (h : ApiLinked cfg w.tables)
    (hexec : command.exec choice w = some (reply, w'))
    (hcreate : ∀ data, command = .base (.sql (.requestCreate data)) →
      data.Linked cfg.services w.tables.view) : ApiLinked cfg w'.tables := by
  cases command with
  | base command =>
    obtain ⟨base, hbase, rfl⟩ := ApiCmd.exec_base hexec
    have hlinked : Linked cfg.services base.tables :=
      h.base.exec hbase fun data hcommand => hcreate data (congrArg ApiCmd.base hcommand)
    constructor
    case base =>
      exact ⟨hlinked.wallets, hlinked.requests, hlinked.policies, hlinked.owned, hlinked.keyed⟩
    case users => exact h.users
    case apiKeys => exact h.apiKeys
  | sql statement =>
    rcases ApiCmd.exec_sql hexec with ⟨id, hfresh, rfl, _⟩ | ⟨error, _, _, _, rfl⟩
    · exact h.exec_sql hfresh w.clock
    · exact h
  | randomUUID =>
    obtain ⟨id, rfl⟩ := ApiCmd.exec_randomUUID hexec
    exact h
  | signHash wallet key hash => exact ApiCmd.exec_query rfl hexec ▸ h
  | fork job => exact ApiCmd.exec_query rfl hexec ▸ h

end Exec

end BrokeTurnkey
