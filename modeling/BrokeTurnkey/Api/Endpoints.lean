import BrokeTurnkey.Api.Services
import BrokeTurnkey.Api.SignTransactionDto

/-!
# The HTTP edge

`apps/api/src`: the routes with their decorators, the three global guards in the order
in which `api.module.ts` registers them, and what the controllers call.  A request has
been parsed and routed; the rate limiter and the validation pipe are packages, and what
they decide about it comes with it.
-/

namespace BrokeTurnkey

open Interaction

structure CreateOrganizationDto where
  name : Text
  slug : Text
deriving DecidableEq

structure DeriveWalletDto where
  userId : Option Text
  label : Text
  chainId : Option Nat
deriving DecidableEq

/-- A route with its parameters and its body, as the handler gets them. -/
inductive Endpoint where
  -- `OrganizationsController`
  | createOrganization (body : CreateOrganizationDto)
  | findOrganization
  | findBySlug (slug : Text)
  | listWallets
  | listSigningRequests
  | queryAuditLog (params : AuditLogParams)
  -- `ApiKeysController`
  | registerApiKey (body : RegisterApiKeyDto)
  | listApiKeys
  | revokeApiKey (keyId : Text)
  -- `PoliciesController`
  | createPolicy (body : CreatePolicyDto)
  | listPolicies
  | deletePolicy (policyId : Text)
  -- `UsersController`
  | createUser (body : CreateUserDto)
  | listUsers
  | getUser (userId : Text)
  | deleteUser (userId : Text)
  -- `WalletsController`
  | findWallet (id : Text)
  | listWalletSigningRequests (id : Text)
  | getSigningRequest (walletId requestId : Text)
  | derive (body : DeriveWalletDto)
  | signTransaction (walletId : Text) (body : SignTransactionDto)
  | signTyped (walletId : Text) (body : Eip712SignRequest)
  | signMessage (walletId message : Text)

namespace Endpoint

/-- `@Public()` and `@OptionalStamp()`. -/
def route : Endpoint → Route
  | .createOrganization _ => ⟨true, false⟩
  | .registerApiKey _ => ApiKeysController.registerRoute
  | _ => ⟨false, false⟩

def walletRead : Text := "wallet:read".toList

def walletCreate : Text := "wallet:create".toList

def walletSign : Text := "wallet:sign".toList

def policyWrite : Text := "policy:write".toList

/-- `@Scopes()`. -/
def scopes : Endpoint → List Text
  | .createOrganization _ | .registerApiKey _ | .listApiKeys => []
  | .revokeApiKey _ | .createUser _ | .deleteUser _ => [AuthService.keyWrite]
  | .createPolicy _ | .deletePolicy _ => [policyWrite]
  | .derive _ => [walletCreate]
  | .signTransaction _ _ | .signTyped _ _ | .signMessage _ _ => [walletSign]
  | _ => [walletRead]

end Endpoint

/-- A request on its way to the handler. -/
structure Incoming where
  endpoint : Endpoint
  request : HttpRequest
  ip : Option Text
  /-- what `ThrottlerGuard` decides about a tracker, at the time it is asked -/
  throttle : Text → Except JsError Unit
  /-- what `ValidationPipe` decides about the parameters and the body -/
  validate : Except JsError Unit

/-! ### The guards -/

/-- The tracker is the verified key, or the address the request came from. -/
def ApiKeyThrottlerGuard.getTracker (user : Option AuthUser) (ip : Option Text) : Text :=
  match truthy (user.map AuthUser.apiKeyId) with
  | some apiKeyId => "key:".toList ++ apiKeyId
  | none => "ip:".toList ++ ip.getD "unknown".toList

def ScopesGuard.wildcard : Text := "*".toList

/-- Any one of the required scopes will do. -/
def ScopesGuard.canActivate (required : List Text) (user : Option AuthUser) :
    Except JsError Unit :=
  if required = [] then .ok ()
  else
    let scopes := (user.map AuthUser.scopes).getD []
    if scopes.contains wildcard || required.any fun scope => scopes.contains scope then .ok ()
    else .error (.ofKind .forbidden "insufficient_scope".toList)

/-! ### The handlers -/

/-- What a handler returns. -/
inductive Response where
  | service (outcome : ApiOutcome)
  | organization (org : Option PublicOrganization)

namespace OrganizationsService

def findOne (id : Text) : Api (Option PublicOrganization) := do
  let org ← Api.sql (.orgFindById id)
  return org.map toPublicOrg

def findBySlug (slug : Text) : Api (Option PublicOrganization) := do
  let org ← Api.sql (.orgFindBySlug slug)
  return org.map toPublicOrg

end OrganizationsService

/-- An organization is shown to its own keys only. -/
def OrganizationsController.findBySlug (orgId slug : Text) : Api (Option PublicOrganization) := do
  let org ← OrganizationsService.findBySlug slug
  return org.filter fun org => org.id = orgId

/-- `@CurrentUser('orgId')`. -/
def currentOrgId : Option AuthUser → Except JsError Text
  | some user => .ok user.orgId
  | none => .error typeError

/-- Call a service on behalf of the caller's org. -/
def callService (cfg : ApiConfig) (user : Option AuthUser) (operation : ApiCall) :
    Api Response := do
  let orgId ← Api.ofExcept (currentOrgId user)
  .service <$> operation.start cfg orgId

def Endpoint.handler (cfg : ApiConfig) (request : HttpRequest) (user : Option AuthUser) :
    Endpoint → Api Response
  | .createOrganization body =>
    (fun result => .service (.created result)) <$>
      OrganizationsService.create cfg body.name body.slug
  | .findOrganization => do
    let orgId ← Api.ofExcept (currentOrgId user)
    .organization <$> OrganizationsService.findOne orgId
  | .findBySlug slug => do
    let orgId ← Api.ofExcept (currentOrgId user)
    .organization <$> OrganizationsController.findBySlug orgId slug
  | .registerApiKey body =>
    (fun key => .service (.registered key)) <$>
      ApiKeysController.registerApiKey cfg body request user
  | .listWallets => callService cfg user .listWalletsByOrgId
  | .listSigningRequests => callService cfg user .listSigningRequestsByOrgId
  | .queryAuditLog params => callService cfg user (.queryAuditLog params)
  | .listApiKeys => callService cfg user .listApiKeys
  | .revokeApiKey keyId => callService cfg user (.revokeApiKey keyId)
  | .createPolicy body => callService cfg user (.createPolicy body)
  | .listPolicies => callService cfg user .listPolicies
  | .deletePolicy policyId => callService cfg user (.deletePolicy policyId)
  | .createUser body => callService cfg user (.createUser body)
  | .listUsers => callService cfg user .listUsers
  | .getUser userId => callService cfg user (.getUser userId)
  | .deleteUser userId => callService cfg user (.deleteUser userId)
  | .findWallet id => callService cfg user (.getWalletById id)
  | .listWalletSigningRequests id => callService cfg user (.listSigningRequestsByWalletId id)
  | .getSigningRequest walletId requestId =>
    callService cfg user (.getSigningRequestById walletId requestId)
  | .derive body => callService cfg user (.deriveWallet body.userId body.label body.chainId)
  | .signTransaction walletId body => callService cfg user (.requestSign walletId body.txFields)
  | .signTyped walletId body => callService cfg user (.signEip712 walletId body)
  | .signMessage walletId message => callService cfg user (.signPersonalMessage walletId message)

/-- The guards in their order, the pipe, the handler. -/
def Incoming.handle (cfg : ApiConfig) (incoming : Incoming) : Api Response := do
  let user ← StampVerifierGuard.canActivate cfg incoming.endpoint.route incoming.request
  Api.ofExcept (incoming.throttle (ApiKeyThrottlerGuard.getTracker user incoming.ip))
  Api.ofExcept (ScopesGuard.canActivate incoming.endpoint.scopes user)
  Api.ofExcept incoming.validate
  incoming.endpoint.handler cfg incoming.request user

/-! ### The system -/

/-- What is started in the process: requests come in, and the monitor polls. -/
inductive Arrival where
  | request (incoming : Incoming)
  | monitor (cycles : Nat)

def Arrival.start (cfg : ApiConfig) : Arrival → Api Response
  | .request incoming => incoming.handle cfg
  | .monitor cycles => .service <$> (Activity.monitor cycles).start cfg

/-- The API behind its edge. -/
def edge (cfg : ApiConfig) : System ApiCmd ApiCmd.Reply JsError Response ApiWorld Choice ApiEvent
    where
  exec := ApiCmd.exec
  spawns := fun command => (apiSpawns cfg command).map fun job => .service <$> job
  env := fun event w => some (w.event event)

abbrev EdgePool := Pool ApiCmd ApiCmd.Reply JsError Response ApiWorld Choice

/-- What arrives, all on one world. -/
def edgePool (cfg : ApiConfig) (arrivals : List Arrival) (w : ApiWorld) : EdgePool where
  state := w
  threads := arrivals.map (Arrival.start cfg)
  history := []

end BrokeTurnkey
