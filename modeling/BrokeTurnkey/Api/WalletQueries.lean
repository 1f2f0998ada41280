import BrokeTurnkey.Api.AuthService
import BrokeTurnkey.WalletService

/-!
# Looking at wallets and signing requests

The methods of `libs/wallet/src/wallet.service.ts` that only read.
-/

namespace BrokeTurnkey.WalletService

open Interaction

def viewOf (wallet : Wallet) : WalletView where
  id := wallet.id.toText
  orgId := wallet.orgId.toText
  userId := wallet.userId.map Uuid.toText
  label := wallet.label
  address := wallet.address
  chainId := wallet.chainId

def mapSigningRequest (request : SigningRequest) : SigningRequestView where
  id := request.id.toText
  orgId := request.orgId.toText
  walletId := request.walletId.toText
  chainId := request.chainId
  txHash := request.txHash.getD []
  txPayload := request.txPayload
  signature := request.signature.getD []
  status := request.status
  failureReason := truthy request.failureReason
  errorType := request.errorType
  blockNumber := request.blockNumber
  gasUsed := request.gasUsed
  effectiveGasPrice := request.effectiveGasPrice
  idempotencyKey := request.idempotencyKey
  createdAt := request.createdAt
  signedAt := request.signedAt
  broadcastedAt := request.broadcastedAt
  confirmedAt := request.confirmedAt

def listWalletsByOrgId (orgId : Text) : Api (List WalletView) := do
  let wallets ← Api.sql (.walletFindByOrgId orgId)
  return wallets.map viewOf

/-- The named wallet exists and belongs to the org. -/
def ownWallet (orgId walletId : Text) : Api Wallet := do
  match ← (Js.sql (.walletFindById walletId)).api with
  | none =>
    throw (.ofKind .notFound
      ("Wallet with id \"".toList ++ walletId ++ "\" does not exist".toList))
  | some wallet =>
    if wallet.orgId.toText ≠ orgId then throw (badRequest "Wallet does not belong to this org")
    else return wallet

def getWalletById (walletId orgId : Text) : Api WalletView := do
  let wallet ← ownWallet orgId walletId
  return viewOf wallet

def listSigningRequestsByOrgId (orgId : Text) : Api (List SigningRequestView) := do
  let requests ← Api.sql (.requestFindByOrgId orgId)
  return requests.map mapSigningRequest

def listSigningRequestsByWalletId (walletId orgId : Text) : Api (List SigningRequestView) := do
  let _ ← ownWallet orgId walletId
  let requests ← Api.sql (.requestFindByWalletId walletId)
  return requests.map mapSigningRequest

def getSigningRequestById (orgId walletId requestId : Text) : Api SigningRequestView := do
  let _ ← ownWallet orgId walletId
  match ← Api.sql (.requestFindById requestId) with
  | none =>
    throw (.ofKind .notFound
      ("Signing request with id \"".toList ++ requestId ++ "\" does not exist".toList))
  | some request =>
    if request.walletId.toText ≠ walletId then
      throw (badRequest "Signing request does not belong to this wallet")
    else return mapSigningRequest request

end BrokeTurnkey.WalletService
