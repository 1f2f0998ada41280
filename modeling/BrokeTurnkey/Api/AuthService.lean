import BrokeTurnkey.Api.Commands
import BrokeTurnkey.Api.Base64url
import BrokeTurnkey.GasService

/-!
# Stamps, API keys and the bootstrap token

`libs/auth/src`: the guard that verifies the stamp of a request, the service that
registers, lists and revokes API keys, and `POST /api-keys` as the controller
composes them.  The steps of a method are functions of their own, in the order of the
source.
-/

namespace BrokeTurnkey

open Interaction

/-- What the API is configured with, and the functions of the runtime and of its
    packages it calls. -/
structure ApiConfig where
  services : Config
  /-- the SHA-256 digest of a buffer -/
  digest : List UInt8 → List UInt8
  /-- `crypto.verify` with a public key, a payload and a DER signature, `none` where it
      throws -/
  verify : Text → Text → List UInt8 → Option Bool
  /-- `asymmetricKeyType` and the `crv` of the JWK of a PEM public key, `none` where
      reading or exporting it throws -/
  publicKeyType : Text → Option (Text × Option Text)
  /-- `isAddress` of viem -/
  isAddress : Text → Bool
  /-- `hashTypedData` of viem on domain, types, primary type and message, which may throw -/
  hashTypedData : Json → Json → Text → Json → Except JsError Text
  /-- `hashMessage` of viem -/
  hashMessage : Text → Text
  /-- `ConfigService.get` -/
  env : Text → Option Text
  /-- the time of `new Date(s)`, `none` for an invalid date -/
  parseDate : Text → Option Int
  /-- `Number(s)` where it is a safe integer above zero -/
  positiveSafeInteger : Text → Option Nat

/-- An incoming request, as much of it as is read. -/
structure HttpRequest where
  method : Text
  path : Text
  xStamp : Option Text
  xBootstrapToken : Option Text
  rawBody : Option (List UInt8)
deriving DecidableEq

/-- The decorators of a route that the guard reads. -/
structure Route where
  isPublic : Bool
  optionalStamp : Bool
deriving DecidableEq

def unauthorized (message : String) : JsError := .ofKind (.http 401) message.toList

def badRequest (message : String) : JsError := .ofKind .badRequest message.toList

/-- Continue with a value that was computed, or throw its error. -/
def Api.ofExcept {α : Type} : Except JsError α → Api α
  | .ok value => return value
  | .error error => throw error

/-! ### StampVerifierGuard -/

namespace StampVerifierGuard

/-- The three parts of a stamp and its timestamp as a number. -/
structure Parsed where
  signatureB64 : Text
  timestamp : Nat
  keyId : Text
deriving DecidableEq

/-- `/^\d{1,16}$/`, then `parseInt`, which is exact on every number a window admits. -/
def parseTimestamp (timestampMs : Text) : Option Nat :=
  if timestampMs.length ≤ 16 then Text.parseDecimal timestampMs else none

def parseStamp (stamp : Text) : Except JsError Parsed :=
  match stamp.splitOn '.' with
  | [signatureB64, timestampMs, keyId] =>
    match parseTimestamp timestampMs with
    | some timestamp => .ok ⟨signatureB64, timestamp, keyId⟩
    | none => .error (unauthorized "Invalid timestamp in stamp")
  | _ => .error (unauthorized "Invalid stamp format")

def maxAgeMs : Int := 5 * 60 * 1000

def maxAheadMs : Int := 30 * 1000

/-- Not older than five minutes and not more than thirty seconds in the future. -/
def inWindow (timestamp : Nat) (now : Int) : Bool :=
  ¬(timestamp < now - maxAgeMs ∨ timestamp > now + maxAheadMs)

/-- The clock is read only for a key that expires. -/
def isExpired : Option Int → Api Bool
  | none => return false
  | some expiresAt => do
    let now ← Api.now
    return expiresAt < now

/-- What a client signs; the number is printed again. -/
def signedPayload (cfg : ApiConfig) (timestamp : Nat) (rawBody : Option (List UInt8)) : Text :=
  Text.decimal timestamp ++ '.' :: Base64url.encode (cfg.digest (rawBody.getD []))

def checkSignature (cfg : ApiConfig) (publicKey signatureB64 payload : Text) :
    Except JsError Unit :=
  let signature := Base64url.decode signatureB64
  if signature.length < 68 ∨ signature.length > 75 then
    .error (unauthorized "Invalid signature length")
  else if cfg.verify publicKey payload signature = some true then .ok ()
  else .error (unauthorized "Invalid signature")

/-- The looked-up key signed the request and may be used. -/
def acceptKey (cfg : ApiConfig) (request : HttpRequest) (stamp : Parsed) (apiKey : ApiKey) :
    Api AuthUser := do
  if apiKey.status ≠ .active then throw (unauthorized "API key is not active")
  else do
    let expired ← isExpired apiKey.expiresAt
    if expired then throw (unauthorized "API key has expired")
    else do
      Api.ofExcept (checkSignature cfg apiKey.publicKey stamp.signatureB64
        (signedPayload cfg stamp.timestamp request.rawBody))
      let now ← Api.now
      -- fire and forget
      Api.fork (.touch apiKey.id now)
      return { orgId := apiKey.orgId.toText, apiKeyId := apiKey.id.toText,
               keyId := apiKey.keyId, scopes := apiKey.scopes }

def verifyStamp (cfg : ApiConfig) (request : HttpRequest) (header : Text) : Api AuthUser := do
  let stamp ← Api.ofExcept (parseStamp header)
  let now ← Api.now
  if inWindow stamp.timestamp now = false then
    throw (unauthorized "Stamp timestamp is out of valid range")
  else
    match ← Api.sql (.keyFindByKeyId stamp.keyId) with
    | none => throw (unauthorized "API key not found")
    | some apiKey => acceptKey cfg request stamp apiKey

/-- The user attached to the request, none where the route lets it through without. -/
def canActivate (cfg : ApiConfig) (route : Route) (request : HttpRequest) :
    Api (Option AuthUser) := do
  if route.isPublic then return none
  else
    match truthy request.xStamp with
    | none =>
      if route.optionalStamp then return none
      else throw (unauthorized "Missing X-Stamp header")
    | some header => do
      let user ← verifyStamp cfg request header
      return some user

end StampVerifierGuard

/-! ### AuthService -/

/-- `ApiKeyRepository.hasScope`. -/
def hasScope (keyId requiredScope : Text) : Api Bool := do
  match ← Api.sql (.keyFindByKeyId keyId) with
  | none => return false
  | some apiKey => return apiKey.scopes.contains requiredScope

namespace AuthService

def bootstrapDefaultScopes : List Text :=
  ["key:read", "key:write", "wallet:read", "wallet:create", "policy:read", "policy:write",
    "user:read", "user:write"].map String.toList

def validScopes : List Text := bootstrapDefaultScopes ++ ["wallet:sign".toList]

def keyWrite : Text := "key:write".toList

/-- The hexadecimal SHA-256 of a token, as the column stores it. -/
def tokenHash (cfg : ApiConfig) (token : Text) : Text := cfg.services.sha256 token

/-- `Buffer.from(s, 'hex')`. -/
def hexBuffer (s : Text) : List UInt8 := Text.hexDecodePrefix s

/-- The stored hash is the hash of the token. -/
def tokenMatches (cfg : ApiConfig) (token storedHash : Text) : Bool :=
  hexBuffer (tokenHash cfg token) = hexBuffer storedHash

def validateBootstrapToken (cfg : ApiConfig) (orgId token : Text) : Api Unit := do
  let org ← Api.sql (.orgFindById orgId)
  match truthy (org.bind Organization.bootstrapTokenHash) with
  | none => throw (badRequest "No bootstrap token available for this organization")
  | some storedHash =>
    if tokenMatches cfg token storedHash then return ()
    else throw (badRequest "Invalid bootstrap token")

/-- The authorisation step of `registerApiKey`. -/
def authorise (cfg : ApiConfig) (orgId : Text) (bootstrapToken requestingKeyId : Option Text) :
    Api Unit :=
  match truthy bootstrapToken with
  | some token => validateBootstrapToken cfg orgId token
  | none =>
    match truthy requestingKeyId with
    | some keyId => do
      let hasWriteScope ← hasScope keyId keyWrite
      if hasWriteScope then return ()
      else throw (badRequest "API key does not have key:write scope")
    | none => throw (badRequest "Either bootstrap token or valid API key required")

def assertP256PublicKey (cfg : ApiConfig) (pem : Text) : Except JsError Unit :=
  match cfg.publicKeyType pem with
  | none => .error (badRequest "publicKey must be a valid P-256 (secp256r1) SPKI PEM public key")
  | some (asymmetricKeyType, crv) =>
    if asymmetricKeyType ≠ "ec".toList ∨ crv ≠ some "P-256".toList then
      .error (badRequest "publicKey must be an EC P-256 (secp256r1) SPKI PEM public key")
    else .ok ()

/-- `unknownScopes.join(', ')`. -/
def joinScopes : List Text → Text
  | [] => []
  | [scope] => scope
  | scope :: rest => scope ++ ", ".toList ++ joinScopes rest

/-- The scopes of the new key. -/
def resolveScopes (requested : Option (List Text)) (bootstrapped : Bool) :
    Except JsError (List Text) :=
  match requested.filter fun scopes => scopes ≠ [] with
  | none =>
    if bootstrapped then .ok bootstrapDefaultScopes
    else .error (badRequest "Scopes are required for stamp-authenticated API key registration")
  | some scopes =>
    if scopes.contains "*".toList then
      .error (badRequest "Wildcard scope \"*\" is not allowed; specify explicit scopes")
    else
      let unknownScopes := scopes.filter fun scope => !validScopes.contains scope
      if unknownScopes ≠ [] then
        .error (.ofKind .badRequest ("Unknown scope(s): ".toList ++ joinScopes unknownScopes))
      else .ok scopes

/-- Insert the key; a duplicate public key is a client error. -/
def insertKey (data : NewApiKey) : Api ApiKey :=
  tryCatch (Api.sql (.keyCreate data)) fun error =>
    if error.code = some uniqueViolation then
      throw (badRequest "An API key with the same public key already exists")
    else throw error

/-- Clear the bootstrap token if it was used. -/
def clearToken (orgId : Text) (bootstrapToken : Option Text) : Api Unit :=
  match truthy bootstrapToken with
  | none => return ()
  | some _ => Api.sql (.orgUpdate orgId none)

/-- From the insert on. -/
def storeKey (orgId : Text) (data : NewApiKey) (bootstrapToken : Option Text) :
    Api RegisteredApiKey := do
  let apiKey ← insertKey data
  clearToken orgId bootstrapToken
  Api.sql (.auditCreate
    { orgId, event := .apiKeyCreated apiKey.id.toText apiKey.keyId apiKey.name apiKey.scopes })
  return { id := apiKey.id.toText, keyId := apiKey.keyId, name := apiKey.name,
           publicKey := apiKey.publicKey, scopes := apiKey.scopes, createdAt := apiKey.createdAt }

/-- From the key checks on, once the request is authorised. -/
def mintKey (cfg : ApiConfig) (orgId : Text) (data : RegisterApiKeyDto)
    (bootstrapToken : Option Text) : Api RegisteredApiKey := do
  Api.ofExcept (assertP256PublicKey cfg data.publicKey)
  let keyId ← Api.randomUUID
  let scopes ← Api.ofExcept (resolveScopes data.scopes (truthy bootstrapToken).isSome)
  storeKey orgId
    { orgId, name := data.name, publicKey := data.publicKey, keyId := keyId.toText, scopes,
      status := .active } bootstrapToken

def registerApiKey (cfg : ApiConfig) (orgId : Text) (data : RegisterApiKeyDto)
    (bootstrapToken requestingKeyId : Option Text) : Api RegisteredApiKey := do
  match ← Api.sql (.orgFindById orgId) with
  | none => throw (.ofKind .notFound ("Organization ".toList ++ orgId ++ " not found".toList))
  | some _ => do
    authorise cfg orgId bootstrapToken requestingKeyId
    mintKey cfg orgId data bootstrapToken

def listApiKeys (orgId : Text) : Api (List ListedApiKey) := do
  let apiKeys ← Api.sql (.keyFindByOrgId orgId .active)
  return apiKeys.map fun key =>
    { id := key.id.toText, keyId := key.keyId, name := key.name, scopes := key.scopes,
      lastUsedAt := key.lastUsedAt, expiresAt := key.expiresAt, createdAt := key.createdAt }

def revokeApiKey (orgId keyId : Text) : Api Unit := do
  match ← Api.sql (.keyFindByKeyId keyId) with
  | none => throw (.ofKind .notFound ("API key ".toList ++ keyId ++ " not found".toList))
  | some apiKey =>
    if apiKey.orgId.toText ≠ orgId then
      throw (badRequest "API key does not belong to this organization")
    else do
      let now ← Api.now
      Api.sql (.keyUpdate apiKey.id { status := some .revoked, revokedAt := some now })
      Api.sql (.auditCreate
        { orgId, event := .apiKeyRevoked apiKey.id.toText apiKey.keyId apiKey.name })

def resolveOrgIdFromBootstrapToken (cfg : ApiConfig) (token : Text) : Api (Option Text) := do
  let org ← Api.sql (.orgFindByBootstrapTokenHash (tokenHash cfg token))
  return org.map fun org => org.id.toText

def generateBootstrapToken (cfg : ApiConfig) (orgId : Text) : Api Text := do
  let token ← Api.randomUUID
  Api.sql (.orgUpdate orgId (some (tokenHash cfg token.toText)))
  return token.toText

end AuthService

/-! ### POST /api-keys -/

namespace ApiKeysController

/-- The decorators of the route. -/
def registerRoute : Route := ⟨false, true⟩

/-- The org of the stamp, or the one that stores the hash of the bootstrap token. -/
def resolveOrgId (cfg : ApiConfig) (user : Option AuthUser) (bootstrapToken : Option Text) :
    Api (Option Text) :=
  match truthy (user.map AuthUser.orgId), bootstrapToken with
  | some orgId, _ => return some orgId
  | none, some token => AuthService.resolveOrgIdFromBootstrapToken cfg token
  | none, none => return none

def registerApiKey (cfg : ApiConfig) (body : RegisterApiKeyDto) (request : HttpRequest)
    (user : Option AuthUser) : Api RegisteredApiKey := do
  let bootstrapToken := truthy request.xBootstrapToken
  let requestingKeyId := truthy (user.map AuthUser.apiKeyId)
  let orgId ← resolveOrgId cfg user bootstrapToken
  match truthy orgId with
  | none => throw (badRequest "Either bootstrap token or valid API key required")
  | some orgId => AuthService.registerApiKey cfg orgId body bootstrapToken requestingKeyId

/-- The guard, then the handler. -/
def post (cfg : ApiConfig) (body : RegisterApiKeyDto) (request : HttpRequest) :
    Api RegisteredApiKey := do
  let user ← StampVerifierGuard.canActivate cfg registerRoute request
  registerApiKey cfg body request user

end ApiKeysController

end BrokeTurnkey
