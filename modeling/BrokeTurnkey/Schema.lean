import BrokeTurnkey.Uuid

/-!
# Rows of the database

The tables of `libs/db/src/schema` with the columns the modelled services read
or write, and the records that cross the service boundaries with them.  Ids are
uuid columns, timestamps are milliseconds, `wallet_nonces` is the partial map
its unique index makes it.
-/

namespace BrokeTurnkey

/-- A JSON value, the type of a `jsonb` column nothing has checked yet. -/
inductive Json where
  | null
  | bool (b : Bool)
  | num (n : Int)
  | str (s : Text)
  | arr (items : List Json)
  | obj (fields : List (Text × Json))

def Json.str? : Json → Option Text
  | .str s => some s
  | _ => none

/-- Property access on a JSON value, `none` standing for `undefined`. -/
def Json.get? : Json → Text → Option Json
  | .obj fields, key => (fields.find? fun field => field.1 = key).map Prod.snd
  | _, _ => none

/-- `signing_requests.status`. -/
inductive Status where
  | pending
  | signed
  | broadcasted
  | confirmed
  | failed
  | dropped
deriving DecidableEq, Repr

/-- `signing_requests.error_type`. -/
inductive ErrorType where
  | retryable
  | permanent
  | unknown
deriving DecidableEq, Repr

/-- The exceptions the services throw. -/
inductive ErrorKind where
  | error
  | badRequest
  | notFound
  | forbidden
  | conflict
  | http (status : Nat)
deriving DecidableEq, Repr

/-- A rejected promise. `code` is the SQLSTATE of a database error. -/
structure JsError where
  kind : ErrorKind
  message : Text
  code : Option Text
deriving DecidableEq

namespace JsError

def ofKind (kind : ErrorKind) (message : Text) : JsError := ⟨kind, message, none⟩

def error (message : Text) : JsError := ofKind .error message

def sql (code : Text) (message : Text) : JsError := ⟨.error, message, some code⟩

end JsError

/-- The SQLSTATE of a violated unique index. -/
def uniqueViolation : Text := "23505".toList

def invalidTextRepresentation : Text := "22P02".toList

def numericValueOutOfRange : Text := "22003".toList

def stringDataRightTruncation : Text := "22001".toList

structure OrganizationSeed where
  orgId : Uuid
  encryptedSeed : Text
  seedNonce : Text
  encryptedDek : Text
deriving DecidableEq

structure User where
  id : Uuid
  orgId : Uuid
deriving DecidableEq

structure Wallet where
  id : Uuid
  orgId : Uuid
  userId : Option Uuid
  label : Option Text
  address : Text
  derivationPath : Text
  chainId : Nat
deriving DecidableEq

/-- The transaction fields sent to the signing sidecar. -/
structure TxFields where
  chainId : Nat
  nonce : Int
  toAddr : Text
  value : Text
  gasLimit : Int
  maxFeePerGas : Text
  maxPriorityFeePerGas : Text
  data : Text
deriving DecidableEq

structure SigningRequest where
  id : Uuid
  orgId : Uuid
  walletId : Uuid
  chainId : Nat
  txHash : Option Text
  txPayload : Option TxFields
  signature : Option Text
  status : Status
  failureReason : Option Text
  errorType : Option ErrorType
  blockNumber : Option Nat
  gasUsed : Option Text
  effectiveGasPrice : Option Text
  idempotencyKey : Text
  speedUpAttempts : Int
  originalTxHash : Option Text
  lastSpeedUpAt : Option Int
  createdAt : Int
  signedAt : Option Int
  broadcastedAt : Option Int
  confirmedAt : Option Int
deriving DecidableEq

/-- The columns an update names, `none` standing for `undefined`. -/
structure SigningRequestUpdate where
  txHash : Option Text := none
  signature : Option Text := none
  status : Option Status := none
  failureReason : Option Text := none
  errorType : Option ErrorType := none
  txPayload : Option TxFields := none
  blockNumber : Option Nat := none
  gasUsed : Option Text := none
  effectiveGasPrice : Option Text := none
  speedUpAttempts : Option Int := none
  originalTxHash : Option Text := none
  lastSpeedUpAt : Option Int := none
  signedAt : Option Int := none
  broadcastedAt : Option Int := none
  confirmedAt : Option Int := none
deriving DecidableEq

/-- `SigningRequestRepository.update` drops the undefined values, so a column
    it does not name keeps its value. -/
def SigningRequestUpdate.apply (fields : SigningRequestUpdate) (row : SigningRequest) :
    SigningRequest :=
  { row with
    txHash := fields.txHash.or row.txHash
    signature := fields.signature.or row.signature
    status := fields.status.getD row.status
    failureReason := fields.failureReason.or row.failureReason
    errorType := fields.errorType.or row.errorType
    txPayload := fields.txPayload.or row.txPayload
    blockNumber := fields.blockNumber.or row.blockNumber
    gasUsed := fields.gasUsed.or row.gasUsed
    effectiveGasPrice := fields.effectiveGasPrice.or row.effectiveGasPrice
    speedUpAttempts := fields.speedUpAttempts.getD row.speedUpAttempts
    originalTxHash := fields.originalTxHash.or row.originalTxHash
    lastSpeedUpAt := fields.lastSpeedUpAt.or row.lastSpeedUpAt
    signedAt := fields.signedAt.or row.signedAt
    broadcastedAt := fields.broadcastedAt.or row.broadcastedAt
    confirmedAt := fields.confirmedAt.or row.confirmedAt }

/-- `policies.rule_type`, a text column. -/
inductive RuleType where
  | addressBlocklist
  | addressAllowlist
  | spendLimit
  | calldataAllowlist
  | timeLock
  | other (name : Text)
deriving DecidableEq

/-- `policies.applies_to`, a text column. -/
inductive AppliesTo where
  | all
  | wallet
  | other (name : Text)
deriving DecidableEq

/-- `policies.status`. -/
inductive PolicyStatus where
  | active
  | inactive
deriving DecidableEq, Repr

structure Policy where
  id : Uuid
  orgId : Uuid
  name : Text
  ruleType : RuleType
  ruleConfig : Json
  appliesTo : AppliesTo
  targetId : Option Uuid
  priority : Int
  status : PolicyStatus

/-- What the policy engine is shown of a transaction. -/
structure TxPayload where
  toAddr : Text
  value : Text
  chainId : Nat
  dataHash : Text
  dataLength : Nat
  dataSelector : Option Text
deriving DecidableEq

/-- `audit_log.event`. -/
inductive AuditEvent where
  | orgOnboarded
  | walletCreated
  | policyEvaluation
  | txSigned
deriving DecidableEq, Repr

/-- `audit_log.status`. -/
inductive AuditStatus where
  | success
  | denied
  | allowed
  | broadcasted
deriving DecidableEq, Repr

/-- `audit_log.metadata`, one constructor for each shape that is written. -/
inductive AuditMetadata where
  | none
  | noPolicy (reason : Text) (txPayload : TxPayload)
  | deniedBy (policyId policyName : Text) (ruleType : RuleType) (reason : Option Text)
      (txPayload : TxPayload)
  | allowedBy (policiesChecked : Nat) (txPayload : TxPayload)
  | txSigned (txHash signingRequestId : Text) (chainId : Nat)
deriving DecidableEq

structure AuditLog where
  orgId : Uuid
  userId : Option Uuid
  walletId : Option Uuid
  event : AuditEvent
  status : AuditStatus
  metadata : AuditMetadata
  createdAt : Int
deriving DecidableEq

end BrokeTurnkey
