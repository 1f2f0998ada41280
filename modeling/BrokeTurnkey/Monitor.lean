import BrokeTurnkey.GasService

/-!
# The transaction monitor

`libs/monitor/src`: one poll cycle reads the broadcasted rows and drives each of
them forward, by the receipt of the transaction the row tracks, its age, and
whether the transaction is still known.  `speedUp` replaces a stuck transaction
by one with the same nonce and a fresh, bumped fee.

All decisions are made on the row as the cycle read it.
-/

namespace BrokeTurnkey

namespace Monitor

/-- `signingRequestRepo.update` on the row. -/
def updateRow (row : SigningRequest) (fields : SigningRequestUpdate) : Js Unit :=
  Js.sql (.requestUpdate row.id fields)

/-- Mark the row failed. -/
def markFailed (row : SigningRequest) (errorType : ErrorType) (failureReason : Text) : Js Unit :=
  updateRow row
    { status := some .failed, errorType := some errorType, failureReason := some failureReason }

/-- The integer bump, rounded up. -/
def bump (cfg : Config) (fee : Int) : Int := (fee * cfg.multiplierNumerator + 100 - 1).tdiv 100

/-- Step 2: the replacement fields, with fresh fees and the nonce of the payload. -/
def rebuild (cfg : Config) (row : SigningRequest) (txPayload : TxFields) : Js TxFields := do
  let feeEstimate ← estimateFees cfg txPayload.toAddr txPayload.value txPayload.data row.chainId none
  match bigInt feeEstimate.maxFeePerGas, bigInt feeEstimate.maxPriorityFeePerGas with
  | some maxFee, some maxPriority =>
    return { chainId := row.chainId, nonce := txPayload.nonce, toAddr := txPayload.toAddr,
             value := txPayload.value, data := txPayload.data, gasLimit := feeEstimate.gasLimit,
             maxFeePerGas := Text.decimalInt (bump cfg maxFee),
             maxPriorityFeePerGas := Text.decimalInt (bump cfg maxPriority) }
  | _, _ => throw syntaxError

/-- Steps 4 and 5: broadcast the replacement and let the row track it. -/
def sendReplacement (cfg : Config) (row : SigningRequest) (result : SignTransactionResult) :
    Js Unit := do
  let sent ← tryCatch
    (do
      match ← broadcastTransaction cfg result.rawTx row.chainId with
      -- only a string has `toLowerCase`; the hash itself is compared for a warning
      | .hash _ => return true
      | _ => throw typeError)
    fun error => do
      markFailed row .retryable ("speed-up broadcast failed: ".toList ++ error.message)
      return false
  if sent then do
    let lastSpeedUpAt ← Js.now
    let broadcastedAt ← Js.now
    updateRow row
      { txHash := some result.txHash
        originalTxHash := row.originalTxHash.or row.txHash
        speedUpAttempts := some (row.speedUpAttempts + 1)
        lastSpeedUpAt := some lastSpeedUpAt
        broadcastedAt := some broadcastedAt
        status := some .broadcasted }
  else return ()

/-- Step 3: sign the replacement, then send it. -/
def signReplacement (cfg : Config) (row : SigningRequest) (wallet : Wallet)
    (seedRow : OrganizationSeed) (txFields : TxFields) : Js Unit := do
  let result ← tryCatch
    (do
      let result ← Js.sidecar (.signTransaction wallet.id row.id
        ⟨seedRow.encryptedSeed, seedRow.seedNonce, seedRow.encryptedDek, wallet.derivationPath⟩
        txFields)
      return some result)
    fun error => do
      markFailed row .retryable ("speed-up signing failed: ".toList ++ error.message)
      return none
  match result with
  | none => return ()
  | some result => sendReplacement cfg row result

def speedUp (cfg : Config) (row : SigningRequest) : Js Unit := do
  if row.speedUpAttempts ≥ cfg.maxSpeedUpAttempts then
    markFailed row .permanent "max speed-up attempts reached".toList
  else match row.txPayload with
    | none => markFailed row .unknown "missing tx_payload for speed-up".toList
    | some txPayload => do
      match ← Js.sql (.walletFindById row.walletId.toText) with
      | none => markFailed row .permanent "wallet metadata unavailable for speed-up".toList
      | some wallet => do
        match ← Js.sql (.seedFindByOrgId wallet.orgId.toText) with
        | none => markFailed row .permanent "organization seed unavailable for speed-up".toList
        | some seedRow => do
          let txFields ← rebuild cfg row txPayload
          signReplacement cfg row wallet seedRow txFields

/-- The receipt decides the row. -/
def settle (row : SigningRequest) (receipt : TransactionReceipt) : Js Unit := do
  if receipt.status = some 1 then do
    let now ← Js.now
    updateRow row
      { status := some .confirmed
        blockNumber := some receipt.blockNumber
        gasUsed := some (receipt.gasUsed.getD "undefined".toList)
        effectiveGasPrice := some (receipt.effectiveGasPrice.getD "undefined".toList)
        confirmedAt := some now }
  else markFailed row .permanent "transaction reverted on-chain".toList

/-- No receipt: skip a fresh row, drop a lost transaction, speed up a stuck one. -/
def checkStuck (cfg : Config) (row : SigningRequest) (txHash : Text) : Js Unit := do
  let now ← Js.now
  -- `created_at` is never null, so there is always a timestamp
  let broadcastedAt := row.broadcastedAt.getD row.createdAt
  if now - broadcastedAt < cfg.stuckThresholdMs then return ()
  else do
    let txData ← getTransactionByHash cfg txHash row.chainId
    if txData = false then
      updateRow row
        { status := some .dropped
          failureReason := some "transaction not found on-chain or in mempool".toList }
    else speedUp cfg row

def processRow (cfg : Config) (row : SigningRequest) : Js Unit := do
  -- an empty hash counts as missing
  match row.txHash.filter fun txHash => txHash ≠ [] with
  | none => markFailed row .unknown "broadcasted row missing tx_hash".toList
  | some txHash => do
    let receipt ← tryCatch
      (do
        let receipt ← getTransactionReceipt cfg txHash row.chainId
        return some receipt)
      fun _ => return none
    match receipt with
    | none => return () -- the fetch failed, retry next cycle
    | some (some receipt) => settle row receipt
    | some none => checkStuck cfg row txHash

/-- Drive the rows of one cycle; an error of one row is logged and skipped. -/
def processRows (cfg : Config) : List SigningRequest → Js Unit
  | [] => return ()
  | row :: rest => do
    tryCatch (processRow cfg row) fun _ => return ()
    processRows cfg rest

def poll (cfg : Config) : Js Unit := do
  let rows ← tryCatch (Js.sql .requestFindBroadcasted) fun _ => return []
  processRows cfg rows

end Monitor

end BrokeTurnkey
