import BrokeTurnkey.Api.AuthService

/-!
# Typed data and personal messages

`libs/wallet/src/signing.service.ts`: what may be signed is decided by allowlists in
the configuration, an empty one admitting nothing; the hash is computed here and the
sidecar signs it.
-/

namespace BrokeTurnkey

open Interaction

structure Eip712SignRequest where
  domain : Json
  types : Json
  primaryType : Text
  message : Json

namespace SigningService

def forbidden (message : Text) : JsError := .ofKind .forbidden message

def getCsv (cfg : ApiConfig) (key : String) : List Text :=
  ((((cfg.env key.toList).getD []).splitOn ',').map Text.trim).filter fun value => value ≠ []

def getBoolean (cfg : ApiConfig) (key : String) (fallback : Bool) : Bool :=
  match truthy (cfg.env key.toList) with
  | none => fallback
  | some raw => (["1", "true", "yes", "on"].map String.toList).contains (Text.lower raw)

/-! ### The allowlists -/

/-- A string property, empty where there is none. -/
def stringOf (domain : Json) (key : String) : Text :=
  ((domain.get? key.toList).bind Json.str?).getD []

/-- `domain.chainId` as a number. -/
def chainIdOf (domain : Json) : Option Int :=
  match domain.get? "chainId".toList with
  | some (.num n) => some n
  | some (.str s) => (Text.parseDecimal s).map Int.ofNat
  | _ => none

/-- A value that is not on its list, the name of the value in front. -/
def notAllowlisted (what : String) (value : Text) : JsError :=
  forbidden ("EIP-712 ".toList ++ what.toList ++ " \"".toList ++
    (truthy (some value)).getD "(none)".toList ++ "\" is not allowlisted".toList)

def assertDomain (cfg : ApiConfig) (domain : Json) : Except JsError Unit :=
  let domainName := stringOf domain "name"
  if domainName = [] ∨ ¬(getCsv cfg "EIP712_DOMAIN_ALLOWLIST").contains domainName then
    .error (notAllowlisted "domain" domainName)
  else .ok ()

/-- The message shows the number exactly; the source rounds it to a double. -/
def assertChainId (cfg : ApiConfig) (domain : Json) : Except JsError Unit :=
  let chainIds := (getCsv cfg "EIP712_ALLOWED_CHAIN_IDS").filterMap cfg.positiveSafeInteger
  match chainIdOf domain with
  | none => .error (notAllowlisted "chainId" [])
  | some chainId =>
    if (chainIds.map Int.ofNat).contains chainId then .ok ()
    else .error (notAllowlisted "chainId" (Text.decimalInt chainId))

def assertContract (cfg : ApiConfig) (domain : Json) : Except JsError Unit :=
  let contracts := (getCsv cfg "EIP712_ALLOWED_CONTRACTS").map Text.lower
  let contract := Text.lower (stringOf domain "verifyingContract")
  if contract = [] ∨ ¬cfg.isAddress contract ∨ ¬contracts.contains contract then
    .error (notAllowlisted "verifyingContract" contract)
  else .ok ()

def assertPrimaryType (cfg : ApiConfig) (primaryType : Text) : Except JsError Unit :=
  if primaryType = [] ∨ ¬(getCsv cfg "EIP712_ALLOWED_PRIMARY_TYPES").contains primaryType then
    .error (notAllowlisted "primaryType" primaryType)
  else .ok ()

def assertEip712Allowed (cfg : ApiConfig) (req : Eip712SignRequest) : Except JsError Unit := do
  assertDomain cfg req.domain
  assertChainId cfg req.domain
  assertContract cfg req.domain
  assertPrimaryType cfg req.primaryType

/-! ### Signing -/

def loadWallet (orgId walletId : Text) : Api (OrganizationSeed × Wallet) := do
  let seedRow ← (Js.sql (.seedFindByOrgId orgId)).api
  let wallet ← (Js.sql (.walletFindById walletId)).api
  match seedRow, wallet with
  | none, _ => throw (badRequest "Organization has not been onboarded")
  | some _, none =>
    throw (.ofKind .notFound ("Wallet \"".toList ++ walletId ++ "\" not found".toList))
  | some seedRow, some wallet =>
    if wallet.orgId.toText ≠ orgId then throw (badRequest "Wallet does not belong to this org")
    else return (seedRow, wallet)

/-- Let the sidecar sign a hash, and record it. -/
def signWith (orgId walletId hash : Text) (event : Text → AdminEvent) (seedRow : OrganizationSeed)
    (wallet : Wallet) : Api TypedSignResult := do
  let signature ← Api.signHash wallet.id
    ⟨seedRow.encryptedSeed, seedRow.seedNonce, seedRow.encryptedDek, wallet.derivationPath⟩ hash
  Api.sql (.auditCreate { orgId, walletId := some walletId, event := event signature })
  return ⟨signature, hash⟩

def signEip712 (cfg : ApiConfig) (orgId walletId : Text) (req : Eip712SignRequest) :
    Api TypedSignResult := do
  Api.ofExcept (assertEip712Allowed cfg req)
  let (seedRow, wallet) ← loadWallet orgId walletId
  let hash ← Api.ofExcept (cfg.hashTypedData req.domain req.types req.primaryType req.message)
  signWith orgId walletId hash (.typedDataSigned req.primaryType hash) seedRow wallet

def signPersonalMessage (cfg : ApiConfig) (orgId walletId message : Text) :
    Api TypedSignResult := do
  if getBoolean cfg "PERSONAL_MESSAGE_SIGNING_ENABLED" false = false then
    throw (forbidden
      "Personal message signing is disabled (PERSONAL_MESSAGE_SIGNING_ENABLED=false)".toList)
  else do
    let (seedRow, wallet) ← loadWallet orgId walletId
    signWith orgId walletId (cfg.hashMessage message) (.messageSigned (cfg.hashMessage message))
      seedRow wallet

end SigningService

end BrokeTurnkey
