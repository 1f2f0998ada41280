import BrokeTurnkey.Api.PolicyAdmin
import BrokeTurnkey.Api.UserService
import BrokeTurnkey.Api.WalletQueries
import BrokeTurnkey.Api.SigningService
import BrokeTurnkey.Services

/-!
# The running API

The calls the controllers make of the services, each on behalf of an org, and the
system of everything that runs in the API process: calls, the guard, the creation of
organizations, the monitor, and what these leave running in the background.
-/

namespace BrokeTurnkey

open Interaction

/-! ### OrganizationsService -/

namespace OrganizationsService

def toPublicOrg (org : Organization) : PublicOrganization where
  id := org.id.toText
  name := org.name
  slug := org.slug
  status := org.status
  plan := org.plan
  createdAt := org.createdAt
  updatedAt := org.updatedAt

/-- The new organization, its bootstrap token and its first address. -/
structure Created where
  org : PublicOrganization
  bootstrapToken : Text
  walletAddress : Text
deriving DecidableEq

def create (cfg : ApiConfig) (name slug : Text) : Api Created := do
  match ← Api.sql (.orgFindBySlug slug) with
  | some _ =>
    throw (.ofKind .conflict ("organization with slug \"".toList ++ slug ++
      "\" already exists".toList))
  | none => do
    let org ← Api.sql (.orgCreate name slug)
    let wallet ← (WalletService.onBoardOrganization org.id.toText).api
    let bootstrapToken ← AuthService.generateBootstrapToken cfg org.id.toText
    return ⟨toPublicOrg org, bootstrapToken, wallet.firstAddress⟩

end OrganizationsService

/-! ### OrganizationsController -/

/-- Fifty entries from the newest on, unless the caller asks for others. -/
def OrganizationsController.queryAuditLog (cfg : ApiConfig) (orgId : Text)
    (params : AuditLogParams) : Api (List AuditEntry) :=
  Api.sql (.auditQuery
    { orgId := orgId
      event := params.event
      userId := params.userId
      walletId := params.walletId
      startDate := (truthy params.startDate).map cfg.parseDate
      endDate := (truthy params.endDate).map cfg.parseDate
      limit := (truthy params.limit).elim (some 50) Text.parseInt
      offset := (truthy params.offset).elim (some 0) Text.parseInt })

/-! ### Calls -/

/-- A call of a service method, the org left out. -/
inductive ApiCall where
  | onBoardOrganization
  | deriveWallet (userId : Option Text) (label : Text) (chainId : Option Nat)
  | listWalletsByOrgId
  | getWalletById (walletId : Text)
  | listSigningRequestsByOrgId
  | queryAuditLog (params : AuditLogParams)
  | listSigningRequestsByWalletId (walletId : Text)
  | getSigningRequestById (walletId requestId : Text)
  | requestSign (walletId : Text) (req : SignRequest)
  | signEip712 (walletId : Text) (req : Eip712SignRequest)
  | signPersonalMessage (walletId message : Text)
  | createPolicy (body : CreatePolicyDto)
  | listPolicies
  | deletePolicy (policyId : Text)
  | createUser (body : CreateUserDto)
  | listUsers
  | getUser (userId : Text)
  | deleteUser (userId : Text)
  | registerApiKey (body : RegisterApiKeyDto) (bootstrapToken requestingKeyId : Option Text)
  | listApiKeys
  | revokeApiKey (keyId : Text)
  | generateBootstrapToken

/-- What a thread returns. -/
inductive ApiOutcome where
  | onboarded (result : Onboarded)
  | derived (wallet : DerivedWallet)
  | wallet (wallet : WalletView)
  | wallets (wallets : List WalletView)
  | signingRequest (request : SigningRequestView)
  | signingRequests (requests : List SigningRequestView)
  | signResult (result : SignResult)
  | typedSignResult (result : TypedSignResult)
  | policy (policy : Policy)
  | policies (policies : List Policy)
  | user (user : UserView)
  | users (users : List UserView)
  | registered (key : RegisteredApiKey)
  | apiKeys (keys : List ListedApiKey)
  | auditLog (entries : List AuditEntry)
  | bootstrapToken (token : Text)
  | created (result : OrganizationsService.Created)
  | admitted (user : Option AuthUser)
  | done

def ApiCall.start (cfg : ApiConfig) (orgId : Text) : ApiCall → Api ApiOutcome
  | .onBoardOrganization => .onboarded <$> (WalletService.onBoardOrganization orgId).api
  | .deriveWallet userId label chainId =>
    .derived <$> (WalletService.deriveWallet orgId userId label chainId).api
  | .listWalletsByOrgId => .wallets <$> WalletService.listWalletsByOrgId orgId
  | .getWalletById walletId => .wallet <$> WalletService.getWalletById walletId orgId
  | .listSigningRequestsByOrgId =>
    .signingRequests <$> WalletService.listSigningRequestsByOrgId orgId
  | .queryAuditLog params =>
    .auditLog <$> OrganizationsController.queryAuditLog cfg orgId params
  | .listSigningRequestsByWalletId walletId =>
    .signingRequests <$> WalletService.listSigningRequestsByWalletId walletId orgId
  | .getSigningRequestById walletId requestId =>
    .signingRequest <$> WalletService.getSigningRequestById orgId walletId requestId
  | .requestSign walletId req =>
    .signResult <$> (WalletService.requestSign cfg.services orgId walletId req).api
  | .signEip712 walletId req =>
    .typedSignResult <$> SigningService.signEip712 cfg orgId walletId req
  | .signPersonalMessage walletId message =>
    .typedSignResult <$> SigningService.signPersonalMessage cfg orgId walletId message
  | .createPolicy body => .policy <$> PolicyService.createPolicy cfg orgId body
  | .listPolicies => .policies <$> PolicyService.listPolicies orgId
  | .deletePolicy policyId => (fun _ => .done) <$> PolicyService.deletePolicy orgId policyId
  | .createUser body => .user <$> UserService.createUser orgId body
  | .listUsers => .users <$> UserService.listUsers orgId
  | .getUser userId => .user <$> UserService.getUser orgId userId
  | .deleteUser userId => (fun _ => .done) <$> UserService.deleteUser orgId userId
  | .registerApiKey body bootstrapToken requestingKeyId =>
    .registered <$> AuthService.registerApiKey cfg orgId body bootstrapToken requestingKeyId
  | .listApiKeys => .apiKeys <$> AuthService.listApiKeys orgId
  | .revokeApiKey keyId => (fun _ => .done) <$> AuthService.revokeApiKey orgId keyId
  | .generateBootstrapToken => .bootstrapToken <$> AuthService.generateBootstrapToken cfg orgId

/-! ### The system -/

/-- What runs in the API process. -/
inductive Activity where
  | call (orgId : Text) (operation : ApiCall)
  | canActivate (route : Route) (request : HttpRequest)
  | registerApiKey (body : RegisterApiKeyDto) (request : HttpRequest)
  | createOrganization (name slug : Text)
  | monitor (cycles : Nat)

def Activity.start (cfg : ApiConfig) : Activity → Api ApiOutcome
  | .call orgId operation => operation.start cfg orgId
  | .canActivate route request => .admitted <$> StampVerifierGuard.canActivate cfg route request
  | .registerApiKey body request => .registered <$> ApiKeysController.post cfg body request
  | .createOrganization name slug => .created <$> OrganizationsService.create cfg name slug
  | .monitor cycles => (fun _ => .done) <$> (BrokeTurnkey.monitor cfg.services cycles).api

def ApiJob.start : ApiJob → Api ApiOutcome
  | .touch apiKeyId lastUsedAt =>
    (fun _ => .done) <$> tryCatch
      (Api.sql (.keyUpdate apiKeyId { lastUsedAt := some lastUsedAt })) fun _ => return ()

def apiSpawns (cfg : ApiConfig) : ApiCmd → List (Api ApiOutcome)
  | .base (.fork job) => [(fun _ => .done) <$> (job.start cfg.services).api]
  | .fork job => [job.start]
  | _ => []

/-- The API under one configuration. -/
def api (cfg : ApiConfig) : System ApiCmd ApiCmd.Reply JsError ApiOutcome ApiWorld Choice ApiEvent
    where
  exec := ApiCmd.exec
  spawns := apiSpawns cfg
  env := fun event w => some (w.event event)

abbrev ApiPool := Pool ApiCmd ApiCmd.Reply JsError ApiOutcome ApiWorld Choice

abbrev ApiEntry := Entry ApiCmd Choice

/-- The activities started together on a world. -/
def apiPool (cfg : ApiConfig) (activities : List Activity) (w : ApiWorld) : ApiPool where
  state := w
  threads := activities.map (Activity.start cfg)
  history := []

/-- No row in any table. -/
def ApiWorld.empty (clock : Int) (uniqueViolationError : JsError) : ApiWorld where
  tables :=
    { base :=
        { seeds := [], users := [], wallets := [], requests := [], nonces := fun _ _ => none,
          policies := [], auditLog := [], uniqueViolationError }
      organizations := []
      apiKeys := []
      users := []
      adminAudit := [] }
  live := []
  clock := clock
  drawn := []

/-! ### A small deployment

One org with a bootstrap token and one key that has signed one empty body. -/

namespace ApiSample

def org : Uuid := Sample.org

def keyRow : Uuid := ⟨List.replicate 16 0xdd, rfl⟩

def publicKey : Text := "PEM".toList

def keyId : Text := "key".toList

def token : Text := "c0ffee".toList

def signature : List UInt8 := List.replicate 70 1

/-- What the key has signed. -/
def payload : Text := "7.".toList

/-- The header of a request without a body. -/
def header : Text := Base64url.encode signature ++ ".7.".toList ++ keyId

/-- The one signature that was made is the one that verifies. -/
def config : ApiConfig where
  services := Sample.config
  digest := id
  verify := fun key text bytes => some (key = publicKey ∧ text = payload ∧ bytes = signature)
  publicKeyType := fun _ => some ("ec".toList, some "P-256".toList)
  isAddress := fun _ => true
  hashTypedData := fun _ _ primaryType _ => .ok primaryType
  hashMessage := id
  env := fun _ => none
  parseDate := fun _ => none
  positiveSafeInteger := Text.parseDecimal

def orgRow : Organization where
  id := org
  name := "Org".toList
  slug := "org".toList
  status := "active".toList
  plan := "starter".toList
  bootstrapTokenHash := some (Sample.config.sha256 token)
  createdAt := 0
  updatedAt := 0

/-- A key with these scopes. -/
def key (scopes : List Text) : ApiKey where
  id := keyRow
  orgId := org
  name := "admin".toList
  publicKey := publicKey
  keyId := keyId
  scopes := scopes
  status := .active
  lastUsedAt := none
  expiresAt := none
  createdAt := 0
  revokedAt := none

def world (keys : List ApiKey) : ApiWorld :=
  { ApiWorld.empty 0 wrappedViolation with
    tables := { (ApiWorld.empty 0 wrappedViolation).tables with
      organizations := [orgRow], apiKeys := keys } }

/-- A request with the stamp and no body. -/
def stamped (method path : Text) : HttpRequest where
  method := method
  path := path
  xStamp := some header
  xBootstrapToken := none
  rawBody := none

end ApiSample

end BrokeTurnkey
