import BrokeTurnkey.Schema

/-!
# Rows of the management API

The tables `organizations`, `api_keys` and `users` with their columns, the events the
management services write to `audit_log`, and the records of `libs/auth` and
`libs/users` that cross the service boundaries.
-/

namespace BrokeTurnkey

structure Organization where
  id : Uuid
  name : Text
  slug : Text
  status : Text
  plan : Text
  bootstrapTokenHash : Option Text
  createdAt : Int
  updatedAt : Int
deriving DecidableEq

/-- `api_keys.status`. -/
inductive ApiKeyStatus where
  | active
  | revoked
deriving DecidableEq, Repr

structure ApiKey where
  id : Uuid
  orgId : Uuid
  name : Text
  publicKey : Text
  keyId : Text
  scopes : List Text
  status : ApiKeyStatus
  lastUsedAt : Option Int
  expiresAt : Option Int
  createdAt : Int
  revokedAt : Option Int
deriving DecidableEq

structure NewApiKey where
  orgId : Text
  name : Text
  publicKey : Text
  keyId : Text
  scopes : List Text
  status : ApiKeyStatus
deriving DecidableEq

/-- The columns an update names. -/
structure ApiKeyUpdate where
  status : Option ApiKeyStatus := none
  lastUsedAt : Option Int := none
  revokedAt : Option Int := none
deriving DecidableEq

def ApiKeyUpdate.apply (fields : ApiKeyUpdate) (row : ApiKey) : ApiKey :=
  { row with
    status := fields.status.getD row.status
    lastUsedAt := fields.lastUsedAt.or row.lastUsedAt
    revokedAt := fields.revokedAt.or row.revokedAt }

/-- `users.status`. -/
inductive UserStatus where
  | active
  | deleted
deriving DecidableEq, Repr

/-- A row of `users` with all its columns. -/
structure UserRow where
  id : Uuid
  orgId : Uuid
  externalId : Text
  email : Option Text
  role : Text
  status : UserStatus
  createdAt : Int
deriving DecidableEq

/-- The columns the signing services see. -/
def UserRow.user (row : UserRow) : User := ⟨row.id, row.orgId⟩

structure NewUser where
  orgId : Text
  externalId : Text
  email : Option Text
  role : Text
  status : UserStatus
deriving DecidableEq

/-- The columns `createPolicy` inserts, `description` left out. -/
structure NewPolicy where
  orgId : Text
  name : Text
  ruleType : RuleType
  ruleConfig : Json
  appliesTo : AppliesTo
  targetId : Option Text
  priority : Int
  status : PolicyStatus

/-- An event of the management services with its `metadata`; the status is always
    `success`. -/
inductive AdminEvent where
  | apiKeyCreated (apiKeyId keyId name : Text) (scopes : List Text)
  | apiKeyRevoked (apiKeyId keyId name : Text)
  | userCreated (userId externalId : Text) (email : Option Text) (role : Text)
  | userDeleted (userId externalId : Text)
  | policyDeleted (policyId name : Text)
  | typedDataSigned (primaryType hash signature : Text)
  | messageSigned (hash signature : Text)
deriving DecidableEq

/-- A row of `audit_log` the management services write. -/
structure AdminAudit where
  orgId : Uuid
  userId : Option Uuid
  walletId : Option Uuid
  event : AdminEvent
  createdAt : Int
deriving DecidableEq

structure NewAdminAudit where
  orgId : Text
  userId : Option Text := none
  walletId : Option Text := none
  event : AdminEvent
deriving DecidableEq

/-! ### The audit log -/

/-- A string that is neither undefined nor empty. -/
def truthy (s : Option Text) : Option Text := s.filter fun s => s ≠ []

@[simp] theorem truthy_none : truthy none = none := rfl

def AuditEvent.name : AuditEvent → Text
  | .orgOnboarded => "org_onboarded".toList
  | .walletCreated => "wallet_created".toList
  | .policyEvaluation => "policy_evaluation".toList
  | .txSigned => "tx_signed".toList

def AdminEvent.name : AdminEvent → Text
  | .apiKeyCreated .. => "api_key_created".toList
  | .apiKeyRevoked .. => "api_key_revoked".toList
  | .userCreated .. => "user_created".toList
  | .userDeleted .. => "user_deleted".toList
  | .policyDeleted .. => "policy_deleted".toList
  | .typedDataSigned .. => "typed_data_signed".toList
  | .messageSigned .. => "message_signed".toList

/-- A row of `audit_log`, whichever services wrote it; `id`, `ip_address` and
    `user_agent` are left out. -/
inductive AuditEntry where
  | service (row : AuditLog)
  | admin (row : AdminAudit)
deriving DecidableEq

namespace AuditEntry

def orgId : AuditEntry → Uuid
  | .service row => row.orgId
  | .admin row => row.orgId

def userId : AuditEntry → Option Uuid
  | .service row => row.userId
  | .admin row => row.userId

def walletId : AuditEntry → Option Uuid
  | .service row => row.walletId
  | .admin row => row.walletId

def event : AuditEntry → Text
  | .service row => row.event.name
  | .admin row => row.event.name

def createdAt : AuditEntry → Int
  | .service row => row.createdAt
  | .admin row => row.createdAt

end AuditEntry

/-- The filters of a query. An invalid date is a `none` that is given, a number is `none`
    where it is `NaN`. -/
structure AuditLogQuery where
  orgId : Text
  event : Option Text
  userId : Option Text
  walletId : Option Text
  startDate : Option (Option Int)
  endDate : Option (Option Int)
  limit : Option Int
  offset : Option Int
deriving DecidableEq

/-- The parameters of the route, each given once or not at all. -/
structure AuditLogParams where
  event : Option Text
  userId : Option Text
  walletId : Option Text
  startDate : Option Text
  endDate : Option Text
  limit : Option Text
  offset : Option Text
deriving DecidableEq

/-! ### Requests and what they return -/

/-- What the guard attaches to a request it lets through. -/
structure AuthUser where
  orgId : Text
  apiKeyId : Text
  keyId : Text
  scopes : List Text
deriving DecidableEq

structure RegisterApiKeyDto where
  name : Text
  publicKey : Text
  scopes : Option (List Text)
deriving DecidableEq

structure CreateUserDto where
  externalId : Text
  email : Option Text
  role : Option Text
deriving DecidableEq

structure CreatePolicyDto where
  name : Text
  ruleType : RuleType
  ruleConfig : Json
  appliesTo : Option AppliesTo
  targetId : Option Text
  priority : Option Int

/-- What `registerApiKey` returns. -/
structure RegisteredApiKey where
  id : Text
  keyId : Text
  name : Text
  publicKey : Text
  scopes : List Text
  createdAt : Int
deriving DecidableEq

/-- What `listApiKeys` returns of a key. -/
structure ListedApiKey where
  id : Text
  keyId : Text
  name : Text
  scopes : List Text
  lastUsedAt : Option Int
  expiresAt : Option Int
  createdAt : Int
deriving DecidableEq

/-- What the user routes return of a user; only `getUser` names the org. -/
structure UserView where
  id : Text
  orgId : Option Text
  externalId : Text
  email : Option Text
  role : Text
  status : UserStatus
  createdAt : Int
deriving DecidableEq

/-- What the wallet routes return of a wallet. -/
structure WalletView where
  id : Text
  orgId : Text
  userId : Option Text
  label : Option Text
  address : Text
  chainId : Nat
deriving DecidableEq

/-- `mapSigningRequest`. -/
structure SigningRequestView where
  id : Text
  orgId : Text
  walletId : Text
  chainId : Nat
  txHash : Text
  txPayload : Option TxFields
  signature : Text
  status : Status
  failureReason : Option Text
  errorType : Option ErrorType
  blockNumber : Option Nat
  gasUsed : Option Text
  effectiveGasPrice : Option Text
  idempotencyKey : Text
  createdAt : Int
  signedAt : Option Int
  broadcastedAt : Option Int
  confirmedAt : Option Int
deriving DecidableEq

structure TypedSignResult where
  signature : Text
  hash : Text
deriving DecidableEq

/-- `toPublicOrg`. -/
structure PublicOrganization where
  id : Text
  name : Text
  slug : Text
  status : Text
  plan : Text
  createdAt : Int
  updatedAt : Int
deriving DecidableEq

end BrokeTurnkey
