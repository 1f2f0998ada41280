import BrokeTurnkey.Api.Schema
import BrokeTurnkey.Repositories

/-!
# The repositories of the management API

The statements of `libs/db/src/repositories` that the management services issue, over
the tables of the signing services and their own.  The signing services see of
`users` only two columns; `ApiTables.view` is what they see of the database.

The rows returned by an update are left out, as no service reads them.
-/

namespace BrokeTurnkey

structure ApiTables where
  /-- the tables of the signing services; of these, `users` is a view -/
  base : Tables
  organizations : List Organization
  apiKeys : List ApiKey
  users : List UserRow
  /-- the rows of `audit_log` the management services write -/
  adminAudit : List AdminAudit

namespace ApiTables

/-- The database as the signing services see it. -/
def view (t : ApiTables) : Tables := { t.base with users := t.users.map UserRow.user }

def setPolicies (t : ApiTables) (policies : List Policy) : ApiTables :=
  { t with base := { t.base with policies } }

end ApiTables

/-- The answer of a statement and the tables it leaves. -/
abbrev ApiAnswer (α : Type) := Except JsError α × ApiTables

/-- Read a text parameter of a uuid column, or fail the statement. -/
def parseUuid (s : Text) : Except JsError Uuid :=
  match Uuid.ofText s with
  | some u => .ok u
  | none => .error (.sql invalidTextRepresentation
      "invalid input syntax for type uuid".toList)

@[simp] theorem parseUuid_eq_ok {s : Text} {u : Uuid} :
    parseUuid s = .ok u ↔ Uuid.ofText s = some u := by
  simp only [parseUuid]
  split
  · rename_i hs
    simp [hs]
  · rename_i hs
    simp [hs]

def parseOptionUuid : Option Text → Except JsError (Option Uuid)
  | none => .ok none
  | some s => (parseUuid s).map some

/-- A statement that reads. -/
def ApiTables.select {α : Type} (t : ApiTables) (answer : Except JsError α) : ApiAnswer α :=
  (answer, t)

/-- A statement that writes; an error leaves the tables alone. -/
def ApiTables.write {α : Type} (t : ApiTables) (answer : Except JsError (α × ApiTables)) :
    ApiAnswer α :=
  match answer with
  | .ok (value, t') => (.ok value, t')
  | .error error => (.error error, t)

/-! ### organizations -/

namespace OrganizationRepository

def findById (id : Text) (t : ApiTables) : Except JsError (Option Organization) :=
  (parseUuid id).map fun u => t.organizations.find? fun row => row.id = u

def findBySlug (slug : Text) (t : ApiTables) : Except JsError (Option Organization) :=
  .ok (t.organizations.find? fun row => row.slug = slug)

def findByBootstrapTokenHash (hash : Text) (t : ApiTables) :
    Except JsError (Option Organization) :=
  .ok (t.organizations.find? fun row => row.bootstrapTokenHash = some hash)

def create (name slug : Text) (id : Uuid) (now : Int) (t : ApiTables) :
    Except JsError (Organization × ApiTables) :=
  if t.organizations.any fun row => row.slug = slug then .error t.base.uniqueViolationError
  else
    let row : Organization :=
      { id, name, slug, status := "active".toList, plan := "starter".toList,
        bootstrapTokenHash := none, createdAt := now, updatedAt := now }
    .ok (row, { t with organizations := t.organizations ++ [row] })

/-- The update of the one column the services write. -/
def updateRow (id : Uuid) (hash : Option Text) (now : Int) (row : Organization) : Organization :=
  if row.id = id then { row with bootstrapTokenHash := hash, updatedAt := now } else row

def update (id : Text) (hash : Option Text) (now : Int) (t : ApiTables) :
    Except JsError (Unit × ApiTables) :=
  (parseUuid id).map fun u =>
    ((), { t with organizations := t.organizations.map (updateRow u hash now) })

end OrganizationRepository

/-! ### api_keys -/

namespace ApiKeyRepository

def findByKeyId (keyId : Text) (t : ApiTables) : Except JsError (Option ApiKey) :=
  .ok (t.apiKeys.find? fun row => row.keyId = keyId)

def findByOrgId (orgId : Text) (status : ApiKeyStatus) (t : ApiTables) :
    Except JsError (List ApiKey) :=
  (parseUuid orgId).map fun org => t.apiKeys.filter fun row => row.orgId = org ∧ row.status = status

/-- The row an insert adds. -/
def newRow (data : NewApiKey) (id org : Uuid) (now : Int) : ApiKey where
  id := id
  orgId := org
  name := data.name
  publicKey := data.publicKey
  keyId := data.keyId
  scopes := data.scopes
  status := data.status
  lastUsedAt := none
  expiresAt := none
  createdAt := now
  revokedAt := none

def create (data : NewApiKey) (id : Uuid) (now : Int) (t : ApiTables) :
    Except JsError (ApiKey × ApiTables) := do
  let org ← parseUuid data.orgId
  -- the unique columns public_key and key_id
  if t.apiKeys.any fun row => row.publicKey = data.publicKey ∨ row.keyId = data.keyId then
    .error t.base.uniqueViolationError
  else
    .ok (newRow data id org now, { t with apiKeys := t.apiKeys ++ [newRow data id org now] })

def updateRow (id : Uuid) (fields : ApiKeyUpdate) (row : ApiKey) : ApiKey :=
  if row.id = id then fields.apply row else row

def update (id : Uuid) (fields : ApiKeyUpdate) (t : ApiTables) :
    Except JsError (Unit × ApiTables) :=
  .ok ((), { t with apiKeys := t.apiKeys.map (updateRow id fields) })

end ApiKeyRepository

/-! ### users -/

namespace UserRowRepository

def findById (id : Text) (t : ApiTables) : Except JsError (Option UserRow) :=
  (parseUuid id).map fun u => t.users.find? fun row => row.id = u

def findByOrgAndExternalId (orgId externalId : Text) (t : ApiTables) :
    Except JsError (Option UserRow) :=
  (parseUuid orgId).map fun org =>
    t.users.find? fun row => row.orgId = org ∧ row.externalId = externalId

def findByOrgId (orgId : Text) (t : ApiTables) : Except JsError (List UserRow) :=
  (parseUuid orgId).map fun org => t.users.filter fun row => row.orgId = org

/-- The row an insert adds. -/
def newRow (data : NewUser) (id org : Uuid) (now : Int) : UserRow where
  id := id
  orgId := org
  externalId := data.externalId
  email := data.email
  role := data.role
  status := data.status
  createdAt := now

def create (data : NewUser) (id : Uuid) (now : Int) (t : ApiTables) :
    Except JsError (UserRow × ApiTables) := do
  let org ← parseUuid data.orgId
  -- uq_users_org_external
  if t.users.any fun row => row.orgId = org ∧ row.externalId = data.externalId then
    .error t.base.uniqueViolationError
  else .ok (newRow data id org now, { t with users := t.users ++ [newRow data id org now] })

/-- The update of the one column the services write. -/
def updateRow (id : Uuid) (status : UserStatus) (row : UserRow) : UserRow :=
  if row.id = id then { row with status } else row

def update (id : Text) (status : UserStatus) (t : ApiTables) :
    Except JsError (Unit × ApiTables) :=
  (parseUuid id).map fun u => ((), { t with users := t.users.map (updateRow u status) })

end UserRowRepository

/-! ### policies -/

namespace PolicyRowRepository

def findById (id : Text) (t : ApiTables) : Except JsError (Option Policy) :=
  (parseUuid id).map fun u => t.base.policies.find? fun row => row.id = u

/-- The row an insert adds. -/
def newRow (data : NewPolicy) (id org : Uuid) (target : Option Uuid) : Policy where
  id := id
  orgId := org
  name := data.name
  ruleType := data.ruleType
  ruleConfig := data.ruleConfig
  appliesTo := data.appliesTo
  targetId := target
  priority := data.priority
  status := data.status

def create (data : NewPolicy) (id : Uuid) (t : ApiTables) :
    Except JsError (Policy × ApiTables) := do
  let org ← parseUuid data.orgId
  let target ← parseOptionUuid data.targetId
  .ok (newRow data id org target, t.setPolicies (t.base.policies ++ [newRow data id org target]))

/-- The update of the one column the services write. -/
def updateRow (id : Uuid) (status : PolicyStatus) (row : Policy) : Policy :=
  if row.id = id then { row with status } else row

def update (id : Text) (status : PolicyStatus) (t : ApiTables) :
    Except JsError (Unit × ApiTables) :=
  (parseUuid id).map fun u => ((), t.setPolicies (t.base.policies.map (updateRow u status)))

end PolicyRowRepository

/-! ### wallets, signing_requests and audit_log -/

def WalletRepository.findByOrgId (orgId : Text) (t : ApiTables) : Except JsError (List Wallet) :=
  (parseUuid orgId).map fun org => t.base.wallets.filter fun row => row.orgId = org

namespace SigningRequestRepository

def findById (id : Text) (t : ApiTables) : Except JsError (Option SigningRequest) :=
  (parseUuid id).map fun u => t.base.requests.find? fun row => row.id = u

/-- `ORDER BY created_at DESC`. -/
def newestFirst (rows : List SigningRequest) : List SigningRequest :=
  rows.insertionSort fun a b => b.createdAt ≤ a.createdAt

def findByOrgId (orgId : Text) (t : ApiTables) : Except JsError (List SigningRequest) :=
  (parseUuid orgId).map fun org => newestFirst (t.base.requests.filter fun row => row.orgId = org)

def findByWalletId (walletId : Text) (t : ApiTables) : Except JsError (List SigningRequest) :=
  (parseUuid walletId).map fun wallet =>
    newestFirst (t.base.requests.filter fun row => row.walletId = wallet)

end SigningRequestRepository

def AdminAuditRepository.create (data : NewAdminAudit) (now : Int) (t : ApiTables) :
    Except JsError (Unit × ApiTables) := do
  let org ← parseUuid data.orgId
  let user ← parseOptionUuid data.userId
  let wallet ← parseOptionUuid data.walletId
  .ok ((), { t with adminAudit := t.adminAudit ++ [⟨org, user, wallet, data.event, now⟩] })

namespace AuditLogRepository

/-- All rows of `audit_log`. -/
def entries (t : ApiTables) : List AuditEntry :=
  t.base.auditLog.map .service ++ t.adminAudit.map .admin

/-- `toISOString` throws on an invalid date. -/
def dateParameter : Option (Option Int) → Except JsError (Option Int)
  | some none => .error (.error "Invalid time value".toList)
  | some (some date) => .ok (some date)
  | none => .ok none

def int8Max : Int := 9223372036854775807

/-- `LIMIT`, which the query builder leaves out for `NaN` and for negative numbers. -/
def limitParameter : Option Int → Except JsError (Option Nat)
  | some limit =>
    if limit < 0 then .ok none
    else if limit ≤ int8Max then .ok (some limit.toNat)
    else .error outOfRangeError
  | none => .ok none

def invalidRowCountInResultOffsetClause : Text := "2201X".toList

/-- `OFFSET`, which it leaves out for `NaN` and for 0. -/
def offsetParameter : Option Int → Except JsError Nat
  | some offset =>
    if offset < 0 then
      .error (.sql invalidRowCountInResultOffsetClause "OFFSET must not be negative".toList)
    else if offset ≤ int8Max then .ok offset.toNat
    else .error outOfRangeError
  | none => .ok 0

/-- `WHERE … ORDER BY created_at DESC LIMIT … OFFSET …`. -/
def query (filters : AuditLogQuery) (t : ApiTables) : Except JsError (List AuditEntry) := do
  let startDate ← dateParameter filters.startDate
  let endDate ← dateParameter filters.endDate
  let org ← parseUuid filters.orgId
  let user ← parseOptionUuid (truthy filters.userId)
  let wallet ← parseOptionUuid (truthy filters.walletId)
  let limit ← limitParameter filters.limit
  let offset ← offsetParameter filters.offset
  let rows := (entries t).filter fun entry =>
    entry.orgId = org && (truthy filters.event).all (fun event => entry.event = event) &&
      user.all (fun user => entry.userId = some user) &&
      wallet.all (fun wallet => entry.walletId = some wallet) &&
      startDate.all (fun date => date ≤ entry.createdAt) &&
      endDate.all (fun date => entry.createdAt ≤ date)
  let newest := (rows.insertionSort fun a b => b.createdAt ≤ a.createdAt).drop offset
  .ok (limit.elim newest newest.take)

end AuditLogRepository

/-! ### The statements -/

inductive ApiSql where
  | orgFindById (id : Text)
  | orgFindBySlug (slug : Text)
  | orgFindByBootstrapTokenHash (hash : Text)
  | orgCreate (name slug : Text)
  | orgUpdate (id : Text) (bootstrapTokenHash : Option Text)
  | keyFindByKeyId (keyId : Text)
  | keyFindByOrgId (orgId : Text) (status : ApiKeyStatus)
  | keyCreate (data : NewApiKey)
  | keyUpdate (id : Uuid) (fields : ApiKeyUpdate)
  | userFindById (id : Text)
  | userFindByOrgAndExternalId (orgId externalId : Text)
  | userFindByOrgId (orgId : Text)
  | userCreate (data : NewUser)
  | userUpdate (id : Text) (status : UserStatus)
  | policyFindById (id : Text)
  | policyCreate (data : NewPolicy)
  | policyUpdate (id : Text) (status : PolicyStatus)
  | walletFindByOrgId (orgId : Text)
  | requestFindById (id : Text)
  | requestFindByOrgId (orgId : Text)
  | requestFindByWalletId (walletId : Text)
  | auditCreate (data : NewAdminAudit)
  | auditQuery (filters : AuditLogQuery)

namespace ApiSql

def Reply : ApiSql → Type
  | .orgFindById _ | .orgFindBySlug _ | .orgFindByBootstrapTokenHash _ => Option Organization
  | .orgCreate _ _ => Organization
  | .orgUpdate _ _ => Unit
  | .keyFindByKeyId _ => Option ApiKey
  | .keyFindByOrgId _ _ => List ApiKey
  | .keyCreate _ => ApiKey
  | .keyUpdate _ _ => Unit
  | .userFindById _ | .userFindByOrgAndExternalId _ _ => Option UserRow
  | .userFindByOrgId _ => List UserRow
  | .userCreate _ => UserRow
  | .userUpdate _ _ => Unit
  | .policyFindById _ => Option Policy
  | .policyCreate _ => Policy
  | .policyUpdate _ _ => Unit
  | .walletFindByOrgId _ => List Wallet
  | .requestFindById _ => Option SigningRequest
  | .requestFindByOrgId _ | .requestFindByWalletId _ => List SigningRequest
  | .auditCreate _ => Unit
  | .auditQuery _ => List AuditEntry

/-- The id drawn for an insert is not in use, and that of a key is none of the values
    `randomUUID` returned, as both are random. -/
def isFresh (id : Uuid) (drawn : List Uuid) (t : ApiTables) : ApiSql → Bool
  | .orgCreate _ _ => t.organizations.all fun row => row.id ≠ id
  | .keyCreate _ => (t.apiKeys.all fun row => row.id ≠ id) && !drawn.contains id
  | .userCreate _ => t.users.all fun row => row.id ≠ id
  | .policyCreate _ => t.base.policies.all fun row => row.id ≠ id
  | _ => true

def exec (id : Uuid) (now : Int) (t : ApiTables) : (statement : ApiSql) →
    ApiAnswer statement.Reply
  | .orgFindById orgId => t.select (OrganizationRepository.findById orgId t)
  | .orgFindBySlug slug => t.select (OrganizationRepository.findBySlug slug t)
  | .orgFindByBootstrapTokenHash hash =>
      t.select (OrganizationRepository.findByBootstrapTokenHash hash t)
  | .orgCreate name slug => t.write (OrganizationRepository.create name slug id now t)
  | .orgUpdate orgId hash => t.write (OrganizationRepository.update orgId hash now t)
  | .keyFindByKeyId keyId => t.select (ApiKeyRepository.findByKeyId keyId t)
  | .keyFindByOrgId orgId status => t.select (ApiKeyRepository.findByOrgId orgId status t)
  | .keyCreate data => t.write (ApiKeyRepository.create data id now t)
  | .keyUpdate rowId fields => t.write (ApiKeyRepository.update rowId fields t)
  | .userFindById userId => t.select (UserRowRepository.findById userId t)
  | .userFindByOrgAndExternalId orgId externalId =>
      t.select (UserRowRepository.findByOrgAndExternalId orgId externalId t)
  | .userFindByOrgId orgId => t.select (UserRowRepository.findByOrgId orgId t)
  | .userCreate data => t.write (UserRowRepository.create data id now t)
  | .userUpdate userId status => t.write (UserRowRepository.update userId status t)
  | .policyFindById policyId => t.select (PolicyRowRepository.findById policyId t)
  | .policyCreate data => t.write (PolicyRowRepository.create data id t)
  | .policyUpdate policyId status => t.write (PolicyRowRepository.update policyId status t)
  | .walletFindByOrgId orgId => t.select (WalletRepository.findByOrgId orgId t)
  | .requestFindById requestId => t.select (SigningRequestRepository.findById requestId t)
  | .requestFindByOrgId orgId => t.select (SigningRequestRepository.findByOrgId orgId t)
  | .requestFindByWalletId walletId =>
      t.select (SigningRequestRepository.findByWalletId walletId t)
  | .auditCreate data => t.write (AdminAuditRepository.create data now t)
  | .auditQuery filters => t.select (AuditLogRepository.query filters t)

end ApiSql

end BrokeTurnkey
