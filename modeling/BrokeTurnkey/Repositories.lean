import BrokeTurnkey.Schema
import Mathlib.Data.List.Sort
import Mathlib.Logic.Function.Basic

/-!
# The repositories

Each method of `libs/db/src/repositories` is one SQL statement, and each
statement is one function from the tables before it to its answer and the tables
after it.  A text parameter compared with a uuid column is read by the database
first, and a text that is no uuid is an error of the statement.

`Sql` lists the statements and `Sql.exec` runs them.  An insert takes its row id
from `gen_random_uuid()`, which is passed in.
-/

namespace BrokeTurnkey

/-- The tables, and the error that drizzle-orm throws where an insert violates a unique
    index. -/
structure Tables where
  seeds : List OrganizationSeed
  users : List User
  wallets : List Wallet
  requests : List SigningRequest
  nonces : Uuid → Nat → Option Int
  policies : List Policy
  auditLog : List AuditLog
  uniqueViolationError : JsError

/-- The answer of a statement and the tables it leaves. -/
abbrev Answer (α : Type) := Except JsError α × Tables

/-- Read a text parameter as a uuid, or fail the statement. -/
def withUuid {α : Type} (s : Text) (t : Tables) (k : Uuid → Answer α) : Answer α :=
  match Uuid.ofText s with
  | some u => k u
  | none => (.error (.sql invalidTextRepresentation
      ("invalid input syntax for type uuid".toList)), t)

/-- An optional text parameter of a uuid column. -/
def withOptionUuid {α : Type} (s : Option Text) (t : Tables) (k : Option Uuid → Answer α) :
    Answer α :=
  match s with
  | none => k none
  | some s => withUuid s t fun u => k (some u)

/-- drizzle-orm throws a `DrizzleQueryError`, as the locked version 0.45.2 does: the error
    of the database is its `cause`, and it has no `code` of its own. -/
def Tables.Wraps (t : Tables) : Prop := t.uniqueViolationError.code = none

/-- The error shows the SQLSTATE as its `code`, as the services look for it. -/
def Tables.Exposes (t : Tables) : Prop := t.uniqueViolationError.code = some uniqueViolation

def wrappedViolation : JsError := .error "Failed query: insert".toList

def exposedViolation : JsError :=
  .sql uniqueViolation "duplicate key value violates unique constraint".toList

/-! ### The width of a column -/

/-- The largest value of an `integer` column. -/
def int4Max : Int := 2147483647

def int4Min : Int := -2147483648

def outOfRangeError : JsError := .sql numericValueOutOfRange "integer out of range".toList

def tooLongError : JsError := .sql stringDataRightTruncation "value too long for type".toList

/-! ### organization_seeds and users -/

structure NewOrganizationSeed where
  orgId : Text
  encryptedSeed : Text
  seedNonce : Text
  encryptedDek : Text
deriving DecidableEq

namespace OrganizationSeedRepository

def findByOrgId (orgId : Text) (t : Tables) : Answer (Option OrganizationSeed) :=
  withUuid orgId t fun org => (.ok (t.seeds.find? fun row => row.orgId = org), t)

def create (data : NewOrganizationSeed) (t : Tables) : Answer Unit :=
  withUuid data.orgId t fun org =>
    -- uq_org_seeds_org
    if t.seeds.any fun row => row.orgId = org then (.error t.uniqueViolationError, t)
    else (.ok (), { t with
      seeds := t.seeds ++ [⟨org, data.encryptedSeed, data.seedNonce, data.encryptedDek⟩] })

end OrganizationSeedRepository

namespace UserRepository

def findById (id : Text) (t : Tables) : Answer (Option User) :=
  withUuid id t fun u => (.ok (t.users.find? fun row => row.id = u), t)

end UserRepository

/-! ### wallets -/

structure NewWallet where
  orgId : Text
  userId : Option Text
  label : Option Text
  address : Text
  derivationPath : Text
  chainId : Nat := 1
deriving DecidableEq

namespace WalletRepository

def findById (id : Text) (t : Tables) : Answer (Option Wallet) :=
  withUuid id t fun u => (.ok (t.wallets.find? fun row => row.id = u), t)

def countByOrgId (orgId : Text) (t : Tables) : Answer Nat :=
  withUuid orgId t fun org => (.ok (t.wallets.countP fun row => row.orgId = org), t)

/-- The row an insert would add, where the ids are uuids. -/
def newRow (data : NewWallet) (id org : Uuid) (user : Option Uuid) : Wallet :=
  ⟨id, org, user, data.label, data.address, data.derivationPath, data.chainId⟩

def create (data : NewWallet) (id : Uuid) (t : Tables) : Answer Wallet :=
  withUuid data.orgId t fun org => withOptionUuid data.userId t fun user =>
    -- uq_wallets_org_path and uq_wallets_org_address
    if t.wallets.any fun row => row.orgId = org ∧
        (row.derivationPath = data.derivationPath ∨ row.address = data.address) then
      (.error t.uniqueViolationError, t)
    else (.ok (newRow data id org user), { t with
      wallets := t.wallets ++ [newRow data id org user] })

end WalletRepository

/-! ### signing_requests -/

structure NewSigningRequest where
  orgId : Text
  walletId : Text
  chainId : Nat
  status : Status
  idempotencyKey : Text
deriving DecidableEq

namespace SigningRequestRepository

def findByIdempotencyKey (key : Text) (t : Tables) : Answer (Option SigningRequest) :=
  (.ok (t.requests.find? fun row => row.idempotencyKey = key), t)

/-- `ORDER BY broadcasted_at`, nulls last. -/
def broadcastedBefore (a b : SigningRequest) : Bool :=
  match a.broadcastedAt, b.broadcastedAt with
  | some s, some t => s ≤ t
  | _, none => true
  | none, some _ => false

def findBroadcasted (t : Tables) : Answer (List SigningRequest) :=
  (.ok ((t.requests.filter fun row => row.status = .broadcasted).insertionSort
    fun a b => broadcastedBefore a b = true), t)

/-- A fresh row: the columns the insert names and the column defaults. -/
def newRow (data : NewSigningRequest) (id org wallet : Uuid) (now : Int) : SigningRequest where
  id := id
  orgId := org
  walletId := wallet
  chainId := data.chainId
  txHash := none
  txPayload := none
  signature := none
  status := data.status
  failureReason := none
  errorType := none
  blockNumber := none
  gasUsed := none
  effectiveGasPrice := none
  idempotencyKey := data.idempotencyKey
  speedUpAttempts := 0
  originalTxHash := none
  lastSpeedUpAt := none
  createdAt := now
  signedAt := none
  broadcastedAt := none
  confirmedAt := none

def create (data : NewSigningRequest) (id : Uuid) (now : Int) (t : Tables) :
    Answer SigningRequest :=
  withUuid data.orgId t fun org => withUuid data.walletId t fun wallet =>
    -- uq_signing_requests_idempotency
    if t.requests.any fun row => row.idempotencyKey = data.idempotencyKey then
      (.error t.uniqueViolationError, t)
    else (.ok (newRow data id org wallet now), { t with
      requests := t.requests ++ [newRow data id org wallet now] })

/-- Apply an update to the rows with an id. -/
def updateRow (id : Uuid) (fields : SigningRequestUpdate) (row : SigningRequest) :
    SigningRequest :=
  if row.id = id then fields.apply row else row

def updated (id : Uuid) (fields : SigningRequestUpdate) (t : Tables) : Tables :=
  { t with requests := t.requests.map (updateRow id fields) }

/-- `block_number` and `speed_up_attempts` are `integer` columns. -/
def outOfRange (fields : SigningRequestUpdate) : Bool :=
  (fields.blockNumber.any fun n : Nat => (n : Int) > int4Max) ||
    fields.speedUpAttempts.any fun n => n < int4Min ∨ n > int4Max

/-- The hashes are `varchar(66)`, `gas_used` and `effective_gas_price` are `varchar(50)`. -/
def tooLong (fields : SigningRequestUpdate) : Bool :=
  (fields.txHash.any fun s => s.length > 66) || (fields.originalTxHash.any fun s => s.length > 66) ||
    (fields.gasUsed.any fun s => s.length > 50) ||
    fields.effectiveGasPrice.any fun s => s.length > 50

def update (id : Uuid) (fields : SigningRequestUpdate) (t : Tables) : Answer Unit :=
  if outOfRange fields then (.error outOfRangeError, t)
  else if tooLong fields then (.error tooLongError, t)
  else (.ok (), updated id fields t)

end SigningRequestRepository

/-! ### wallet_nonces -/

def Tables.setNonce (t : Tables) (wallet : Uuid) (chainId : Nat) (nonce : Int) : Tables :=
  { t with nonces :=
      Function.update t.nonces wallet (Function.update (t.nonces wallet) chainId (some nonce)) }

namespace WalletNonceRepository

/-- The upsert that increments the counter and returns its value before. -/
def reserve (walletId : Text) (chainId : Nat) (t : Tables) : Answer Int :=
  withUuid walletId t fun wallet =>
    match t.nonces wallet chainId with
    | none => (.ok 0, t.setNonce wallet chainId 1)
    | some nonce =>
      if nonce + 1 > int4Max then (.error outOfRangeError, t)
      else (.ok nonce, t.setNonce wallet chainId (nonce + 1))

/-- The compare-and-set that gives back the newest reservation. -/
def release (walletId : Text) (chainId : Nat) (nonce : Int) (t : Tables) : Answer Bool :=
  withUuid walletId t fun wallet =>
    if nonce < int4Min ∨ nonce + 1 > int4Max then (.error outOfRangeError, t)
    else if t.nonces wallet chainId = some (nonce + 1) then
      (.ok true, t.setNonce wallet chainId nonce)
    else (.ok false, t)

/-- The upsert that raises the counter.  `none` is the `NaN` of a reply that is
    no number. -/
def syncFromChain (walletId : Text) (chainId : Nat) (chainNonce : Option Int) (t : Tables) :
    Answer Unit :=
  withUuid walletId t fun wallet =>
    match chainNonce with
    | none => (.error (.sql invalidTextRepresentation
        "invalid input syntax for type integer".toList), t)
    | some chainNonce =>
      if chainNonce < int4Min ∨ chainNonce > int4Max then (.error outOfRangeError, t)
      else match t.nonces wallet chainId with
        | none => (.ok (), t.setNonce wallet chainId chainNonce)
        | some nonce =>
          if nonce < chainNonce then (.ok (), t.setNonce wallet chainId chainNonce)
          else (.ok (), t)

end WalletNonceRepository

/-! ### policies and audit_log -/

namespace PolicyRepository

/-- The rows of an org with a status, highest priority first. -/
def findByOrgId (orgId : Text) (status : PolicyStatus) (t : Tables) : Answer (List Policy) :=
  withUuid orgId t fun org =>
    (.ok ((t.policies.filter fun row => row.orgId = org ∧ row.status = status).insertionSort
      fun a b => b.priority ≤ a.priority), t)

end PolicyRepository

structure NewAuditLog where
  orgId : Text
  userId : Option Text := none
  walletId : Option Text := none
  event : AuditEvent
  status : AuditStatus
  metadata : AuditMetadata := .none
deriving DecidableEq

namespace AuditLogRepository

def create (data : NewAuditLog) (now : Int) (t : Tables) : Answer Unit :=
  withUuid data.orgId t fun org => withOptionUuid data.userId t fun user =>
    withOptionUuid data.walletId t fun wallet =>
      (.ok (), { t with
        auditLog := t.auditLog ++
          [⟨org, user, wallet, data.event, data.status, data.metadata, now⟩] })

end AuditLogRepository

/-! ### The statements -/

inductive Sql where
  | seedFindByOrgId (orgId : Text)
  | seedCreate (data : NewOrganizationSeed)
  | userFindById (id : Text)
  | walletFindById (id : Text)
  | walletCountByOrgId (orgId : Text)
  | walletCreate (data : NewWallet)
  | requestFindByIdempotencyKey (key : Text)
  | requestFindBroadcasted
  | requestCreate (data : NewSigningRequest)
  | requestUpdate (id : Uuid) (fields : SigningRequestUpdate)
  | nonceReserve (walletId : Text) (chainId : Nat)
  | nonceRelease (walletId : Text) (chainId : Nat) (nonce : Int)
  | nonceSyncFromChain (walletId : Text) (chainId : Nat) (chainNonce : Option Int)
  | policyFindByOrgId (orgId : Text) (status : PolicyStatus)
  | auditCreate (data : NewAuditLog)

namespace Sql

def Reply : Sql → Type
  | .seedFindByOrgId _ => Option OrganizationSeed
  | .seedCreate _ => Unit
  | .userFindById _ => Option User
  | .walletFindById _ => Option Wallet
  | .walletCountByOrgId _ => Nat
  | .walletCreate _ => Wallet
  | .requestFindByIdempotencyKey _ => Option SigningRequest
  | .requestFindBroadcasted => List SigningRequest
  | .requestCreate _ => SigningRequest
  | .requestUpdate _ _ => Unit
  | .nonceReserve _ _ => Int
  | .nonceRelease _ _ _ => Bool
  | .nonceSyncFromChain _ _ _ => Unit
  | .policyFindByOrgId _ _ => List Policy
  | .auditCreate _ => Unit

/-- The id drawn for an insert is not in use. -/
def isFresh (id : Uuid) (t : Tables) : Sql → Bool
  | .walletCreate _ => t.wallets.all fun row => row.id ≠ id
  | .requestCreate _ => t.requests.all fun row => row.id ≠ id
  | _ => true

def exec (id : Uuid) (now : Int) (t : Tables) : (statement : Sql) → Answer statement.Reply
  | .seedFindByOrgId orgId => OrganizationSeedRepository.findByOrgId orgId t
  | .seedCreate data => OrganizationSeedRepository.create data t
  | .userFindById userId => UserRepository.findById userId t
  | .walletFindById walletId => WalletRepository.findById walletId t
  | .walletCountByOrgId orgId => WalletRepository.countByOrgId orgId t
  | .walletCreate data => WalletRepository.create data id t
  | .requestFindByIdempotencyKey key => SigningRequestRepository.findByIdempotencyKey key t
  | .requestFindBroadcasted => SigningRequestRepository.findBroadcasted t
  | .requestCreate data => SigningRequestRepository.create data id now t
  | .requestUpdate requestId fields => SigningRequestRepository.update requestId fields t
  | .nonceReserve walletId chainId => WalletNonceRepository.reserve walletId chainId t
  | .nonceRelease walletId chainId nonce =>
      WalletNonceRepository.release walletId chainId nonce t
  | .nonceSyncFromChain walletId chainId chainNonce =>
      WalletNonceRepository.syncFromChain walletId chainId chainNonce t
  | .policyFindByOrgId orgId status => PolicyRepository.findByOrgId orgId status t
  | .auditCreate data => AuditLogRepository.create data now t

end Sql

end BrokeTurnkey
