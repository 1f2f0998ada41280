import BrokeTurnkey.PolicyService

/-!
# The wallet service

`libs/wallet/src/wallet.service.ts`: onboarding an org, deriving a wallet, and
the signing pipeline `requestSign` with its steps in the order of the source.
Each step of the pipeline is a function of its own; a step that starts with a
`try` block keeps its `catch` block.
-/

namespace BrokeTurnkey

/-- The transaction a client asks for, after `TxFieldsDto`. -/
structure SignRequest where
  chainId : Nat
  toAddr : Text
  value : Text
  data : Text
deriving DecidableEq

structure SignResult where
  signingRequestId : Text
  txHash : Text
  status : Status
  nonce : Int
  idempotencyKey : Text
  errorType : Option ErrorType
  errorMessage : Option Text
deriving DecidableEq

/-- What `deriveWallet` and `onBoardOrganization` return. -/
structure DerivedWallet where
  walletId : Text
  address : Text
deriving DecidableEq

structure Onboarded where
  orgId : Text
  firstAddress : Text
deriving DecidableEq

namespace WalletService

/-! ### Onboarding and deriving -/

def firstDerivationPath : Text := "m/44'/60'/0'/0/0".toList

def onBoardOrganization (orgId : Text) : Js Onboarded := do
  match ← Js.sql (.seedFindByOrgId orgId) with
  | some _ => throw (JsError.error "organization already onboarded".toList)
  | none => do
    let created ← Js.sidecar .createWallet
    Js.sql (.seedCreate
      ⟨orgId, created.encryptedSeed, created.seedNonce, created.encryptedDek⟩)
    let _ ← Js.sql (.walletCreate
      { orgId, userId := none, label := none, address := created.firstAddress,
        derivationPath := firstDerivationPath })
    Js.sql (.auditCreate { orgId, event := .orgOnboarded, status := .success })
    return ⟨orgId, created.firstAddress⟩

/-- The named user exists and belongs to the org. -/
def checkUser (orgId : Text) : Option Text → Js Unit
  | none => return ()
  | some userId => do
    match ← Js.sql (.userFindById userId) with
    | none =>
      throw (JsError.ofKind .notFound
        ("User with id \"".toList ++ userId ++ "\" does not exist".toList))
    | some user =>
      if user.orgId.toText ≠ orgId then
        throw (JsError.ofKind .badRequest ("User \"".toList ++ userId ++
          "\" does not belong to organization \"".toList ++ orgId ++ "\"".toList))
      else return ()

def deriveConflict : JsError :=
  .ofKind .conflict
    "Wallet derivation conflicted with a concurrent request — please retry".toList

/-- Insert the derived wallet and its audit row, the body of the `try` block. -/
def insertDerived (orgId : Text) (userId : Option Text) (label : Text) (chainId : Nat)
    (derived : DeriveWalletResponse) : Js DerivedWallet := do
  let wallet ← Js.sql (.walletCreate
    { orgId, userId, label := some label, address := derived.address,
      derivationPath := derived.derivationPath, chainId })
  Js.sql (.auditCreate
    { orgId, userId, walletId := some wallet.id.toText, event := .walletCreated,
      status := .success })
  return ⟨wallet.id.toText, derived.address⟩

/-- The retry loop, with the attempts that are left and the index to try. -/
def deriveAttempts (orgId : Text) (userId : Option Text) (label : Text) (chainId : Nat)
    (seedRow : OrganizationSeed) : Nat → Nat → Js DerivedWallet
  | 0, _ => throw (JsError.ofKind .conflict "Wallet derivation failed".toList)
  | attempts + 1, derivIndex => do
    let derived ← Js.sidecar
      (.deriveWallet seedRow.encryptedSeed seedRow.seedNonce seedRow.encryptedDek derivIndex)
    tryCatch (insertDerived orgId userId label chainId derived) fun error =>
      if error.code ≠ some uniqueViolation then throw error
      else if attempts = 0 then throw deriveConflict
      else do
        -- another request took this index: recount and retry with the next
        let derivIndex ← Js.sql (.walletCountByOrgId orgId)
        deriveAttempts orgId userId label chainId seedRow attempts derivIndex

def maxDeriveAttempts : Nat := 3

def deriveWallet (orgId : Text) (userId : Option Text) (label : Text)
    (chainId : Option Nat) : Js DerivedWallet := do
  match ← Js.sql (.seedFindByOrgId orgId) with
  | none =>
    throw (JsError.ofKind .badRequest "organization has not been onboarded".toList)
  | some seedRow => do
    -- an empty user id is no user id
    checkUser orgId (userId.filter fun id => id ≠ [])
    let derivIndex ← Js.sql (.walletCountByOrgId orgId)
    deriveAttempts orgId userId label (chainId.getD 1) seedRow maxDeriveAttempts derivIndex

/-! ### requestSign -/

/-- Step 1: load the seed row and the wallet. -/
def loadPrerequisites (orgId walletId : Text) : Js (OrganizationSeed × Wallet) := do
  let seedRow ← Js.sql (.seedFindByOrgId orgId)
  let wallet ← Js.sql (.walletFindById walletId)
  match seedRow, wallet with
  | none, _ => throw (JsError.ofKind .badRequest "Org has not been onboarded".toList)
  | some _, none =>
    throw (JsError.ofKind .notFound ("Wallet \"".toList ++ walletId ++ "\" not found".toList))
  | some seedRow, some wallet =>
    if wallet.orgId.toText ≠ orgId then
      throw (JsError.ofKind .badRequest "Wallet does not belong to this org".toList)
    else return (seedRow, wallet)

/-- The text `computeIdempotencyKey` hashes. -/
def idempotencyPayload (walletId : Text) (req : SignRequest) : Text :=
  walletId ++ ':' :: (Text.decimal req.chainId ++ ':' :: (req.toAddr ++ ':' ::
    (req.value ++ ':' :: req.data)))

def computeIdempotencyKey (cfg : Config) (walletId : Text) (req : SignRequest) : Text :=
  cfg.sha256 (idempotencyPayload walletId req)

def buildSignResultFromRequest (request : SigningRequest) : SignResult where
  signingRequestId := request.id.toText
  txHash := request.txHash.getD []
  status := request.status
  nonce := (request.txPayload.map TxFields.nonce).getD 0
  idempotencyKey := request.idempotencyKey
  errorType := request.errorType
  errorMessage := request.failureReason

/-- The row answers a duplicate call unless it is `failed`. -/
def unlessFailed (request : Option SigningRequest) : Option SigningRequest :=
  request.filter fun row => row.status ≠ .failed

/-- Step 3: what the policy engine is shown. -/
def policyPayload (cfg : Config) (req : SignRequest) : TxPayload where
  toAddr := req.toAddr
  value := req.value
  chainId := req.chainId
  dataHash := cfg.sha256 req.data
  dataLength := req.data.length
  dataSelector :=
    if req.data.length ≥ 10 then some (Text.lower (req.data.take 10)) else none

def evaluatePolicy (cfg : Config) (orgId walletId : Text) (req : SignRequest) : Js Unit := do
  let policyResult ← PolicyService.evaluate cfg orgId walletId (policyPayload cfg req)
  match policyResult.decision with
  | .deny =>
    throw (JsError.ofKind .forbidden
      ("Policy denied: ".toList ++ policyResult.reason.getD "undefined".toList))
  | .allow => return ()

/-- The update that resets a failed row.  The columns it means to clear are
    undefined, so the status is the only column it sets. -/
def resetFields : SigningRequestUpdate :=
  { status := some .pending, txPayload := none, txHash := none, signature := none,
    failureReason := none, errorType := none }

/-- The row a call works on, or the result it returns for somebody else's row. -/
inductive Claimed where
  | own (signingRequestId : Uuid)
  | existing (result : SignResult)

/-- The `catch` block of step 5, after a uniqueness conflict. -/
def reuseRow (idempotencyKey : Text) (conflict : JsError) : Js Claimed := do
  let raced ← Js.sql (.requestFindByIdempotencyKey idempotencyKey)
  match unlessFailed raced with
  | some raced => return .existing (buildSignResultFromRequest raced)
  | none =>
    match raced with
    | none => throw conflict
    | some raced => do
      Js.sql (.requestUpdate raced.id resetFields)
      return .own raced.id

/-- Step 5: create the pending row, or reuse a failed one. -/
def createOrReuse (orgId walletId : Text) (req : SignRequest) (idempotencyKey : Text) :
    Js Claimed :=
  tryCatch
    (do
      let signingRequest ← Js.sql (.requestCreate
        { orgId, walletId, chainId := req.chainId, status := .pending, idempotencyKey })
      return .own signingRequest.id)
    fun error =>
      if error.code ≠ some uniqueViolation then throw error
      else reuseRow idempotencyKey error

/-- Step 6: reserve the nonce and store the transaction fields. -/
def prepareFields (walletId : Text) (req : SignRequest) (fees : FeeEstimate)
    (signingRequestId : Uuid) : Js TxFields := do
  let nonce ← reserveNonce walletId req.chainId
  let txFields : TxFields :=
    { chainId := req.chainId, nonce, toAddr := req.toAddr, value := req.value,
      gasLimit := fees.gasLimit, maxFeePerGas := fees.maxFeePerGas,
      maxPriorityFeePerGas := fees.maxPriorityFeePerGas, data := req.data }
  Js.sql (.requestUpdate signingRequestId { txPayload := some txFields })
  return txFields

/-- The exception of a failed signing or broadcast step. -/
def stepError (step : Text) (errorType : ErrorType) : JsError :=
  let name := match errorType with
    | .retryable => "retryable".toList
    | .permanent => "permanent".toList
    | .unknown => "unknown".toList
  .ofKind (if errorType = .permanent then .http 400 else .http 500)
    ("Transaction ".toList ++ step ++ " failed (".toList ++ name ++ ")".toList)

/-- Step 7: sign via the sidecar.  A failure releases the nonce. -/
def signStep (seedRow : OrganizationSeed) (wallet : Wallet) (walletId : Text)
    (txFields : TxFields) (signingRequestId : Uuid) : Js SignTransactionResult :=
  tryCatch
    (Js.sidecar (.signTransaction wallet.id signingRequestId
      ⟨seedRow.encryptedSeed, seedRow.seedNonce, seedRow.encryptedDek, wallet.derivationPath⟩
      txFields))
    fun error => do
      Js.sql (.requestUpdate signingRequestId
        { status := some .failed, failureReason := some error.message,
          errorType := some (classifyError error) })
      let _ ← releaseNonce walletId txFields.chainId txFields.nonce
      throw (stepError "signing".toList (classifyError error))

/-- Step 8: store hash and signature. -/
def storeSigned (signingRequestId : Uuid) (signResult : SignTransactionResult) : Js Unit := do
  let now ← Js.now
  Js.sql (.requestUpdate signingRequestId
    { txHash := some signResult.txHash, signature := some signResult.signature,
      status := some .signed, signedAt := some now })

/-- Step 9: broadcast and record it.  The `catch` block covers both. -/
def broadcastStep (cfg : Config) (wallet : Wallet) (walletId : Text) (chainId : Nat)
    (signResult : SignTransactionResult) (signingRequestId : Uuid) : Js Unit :=
  tryCatch
    (do
      let _ ← broadcastTransaction cfg signResult.rawTx chainId
      let now ← Js.now
      Js.sql (.requestUpdate signingRequestId
        { status := some .broadcasted, broadcastedAt := some now }))
    fun error => do
      Js.sql (.requestUpdate signingRequestId
        { status := some .failed,
          failureReason := some ("broadcast failed: ".toList ++ error.message),
          errorType := some (classifyError error) })
      Js.fork (.syncNonce walletId chainId wallet.address)
      throw (stepError "broadcast".toList (classifyError error))

/-- Steps 6 to 11, on a row this call owns. -/
def submit (cfg : Config) (orgId walletId : Text) (req : SignRequest)
    (seedRow : OrganizationSeed) (wallet : Wallet) (idempotencyKey : Text)
    (fees : FeeEstimate) (signingRequestId : Uuid) : Js SignResult := do
  let txFields ← prepareFields walletId req fees signingRequestId
  let signResult ← signStep seedRow wallet walletId txFields signingRequestId
  storeSigned signingRequestId signResult
  broadcastStep cfg wallet walletId req.chainId signResult signingRequestId
  -- step 10
  Js.sql (.auditCreate
    { orgId, walletId := some walletId, event := .txSigned, status := .broadcasted,
      metadata := .txSigned signResult.txHash signingRequestId.toText req.chainId })
  return { signingRequestId := signingRequestId.toText, txHash := signResult.txHash,
           status := .broadcasted, nonce := txFields.nonce, idempotencyKey,
           errorType := none, errorMessage := none }

/-- Steps 3 to 11, when no row answers the call. -/
def process (cfg : Config) (orgId walletId : Text) (req : SignRequest)
    (seedRow : OrganizationSeed) (wallet : Wallet) (idempotencyKey : Text) : Js SignResult := do
  evaluatePolicy cfg orgId walletId req
  -- step 4
  let fees ← estimateFees cfg req.toAddr req.value req.data req.chainId (some wallet.address)
  match ← createOrReuse orgId walletId req idempotencyKey with
  | .existing result => return result
  | .own signingRequestId =>
    submit cfg orgId walletId req seedRow wallet idempotencyKey fees signingRequestId

def requestSign (cfg : Config) (orgId walletId : Text) (req : SignRequest) : Js SignResult := do
  let (seedRow, wallet) ← loadPrerequisites orgId walletId
  -- step 2
  let idempotencyKey := computeIdempotencyKey cfg walletId req
  let existingRequest ← Js.sql (.requestFindByIdempotencyKey idempotencyKey)
  match unlessFailed existingRequest with
  | some existing => return buildSignResultFromRequest existing
  | none => process cfg orgId walletId req seedRow wallet idempotencyKey

end WalletService

end BrokeTurnkey
