import BrokeTurnkey.Api.Growth
import BrokeTurnkey.Interaction.Tenants

/-!
# Where key ids come from

A key is only ever inserted by `AuthService.registerApiKey`, under an id that was drawn
for it, and the table takes no id twice.  So in every state the API reaches from empty
tables a key id is the text of a uuid, without the dots that separate the parts of a
stamp, and a lookup finds the key it is the id of.
-/

namespace BrokeTurnkey

open Interaction

/-! ### No dots -/

theorem Uuid.dot_not_mem_writeBytes (bytes : List UInt8) : '.' ∉ writeBytes bytes := by
  induction bytes with
  | nil => exact List.not_mem_nil
  | cons byte rest ih =>
    have hbyte : byte.toNat < 256 := byte.toNat_lt
    have hdigit : ∀ n < 16, Text.hexDigit n ≠ '.' := fun n => Text.hexDigit_ne (by decide)
    have hhigh := hdigit (byte.toNat / 16) (by omega)
    have hlow := hdigit (byte.toNat % 16) (by omega)
    have hrest : '.' ∉ (if rest.length ∈ [12, 10, 8, 6] then '-' :: writeBytes rest
        else writeBytes rest) := by
      split
      · exact List.not_mem_cons_of_ne_of_not_mem (by decide) ih
      · exact ih
    rw [writeBytes]
    apply List.not_mem_cons_of_ne_of_not_mem hhigh.symm
    exact List.not_mem_cons_of_ne_of_not_mem hlow.symm hrest

/-! ### Drawn ids -/

/-- A key that is inserted has a drawn id. -/
def ApiCmd.Mints : ApiCmd → Prop
  | .sql (.keyCreate data) => ∃ id : Uuid, data.keyId = id.toText
  | _ => True

/-- Every key id was drawn, and no two keys share one. -/
structure MintedIds (t : ApiTables) : Prop where
  drawn : ∀ key ∈ t.apiKeys, ∃ id : Uuid, key.keyId = id.toText
  unique : UniqueBy ApiKey.keyId t.apiKeys

theorem MintedIds.of_eq {t t' : ApiTables} (h : MintedIds t) (heq : t'.apiKeys = t.apiKeys) :
    MintedIds t' :=
  ⟨heq ▸ h.drawn, heq ▸ h.unique⟩

/-- A lookup finds the key. -/
theorem MintedIds.find {t : ApiTables} (h : MintedIds t) {key : ApiKey} (hkey : key ∈ t.apiKeys) :
    t.apiKeys.find? (fun row => row.keyId = key.keyId) = some key := by
  cases hfind : t.apiKeys.find? fun row => row.keyId = key.keyId with
  | none => exact absurd (decide_eq_true rfl) (List.find?_eq_none.mp hfind key hkey)
  | some row =>
    have hid := List.find?_some hfind
    rw [decide_eq_true_eq] at hid
    rw [h.unique.eq (List.mem_of_find?_eq_some hfind) hkey hid]

/-- A key id has no dots. -/
theorem MintedIds.dot_not_mem {t : ApiTables} (h : MintedIds t) {key : ApiKey}
    (hkey : key ∈ t.apiKeys) : '.' ∉ key.keyId := by
  obtain ⟨id, hid⟩ := h.drawn key hkey
  rw [hid]
  exact Uuid.dot_not_mem_writeBytes id.bytes

/-! ### The operations -/

section

variable {cfg : ApiConfig} {orgId : Text}

theorem mints_sql {statement : ApiSql} (h : (ApiCmd.sql statement).Mints) :
    (Api.sql statement).All ApiCmd.Mints := Prog.All.perform h

theorem WalletService.ownWallet_mints (walletId : Text) :
    (ownWallet orgId walletId).All ApiCmd.Mints := by
  refine Prog.All.bind (all_api (fun _ => trivial) _) fun wallet => ?_
  split
  · trivial
  · split
    · trivial
    · trivial

/-- A signature inserts no key. -/
theorem SigningService.issuable_mints (walletId : Text) :
    Issuable ApiCmd.Mints orgId walletId :=
  ⟨trivial, trivial, fun _ _ _ => trivial, fun _ => trivial⟩

theorem PolicyService.deletePolicy_mints (policyId : Text) :
    (deletePolicy orgId policyId).All ApiCmd.Mints := by
  refine Prog.All.bind (mints_sql trivial) fun policy => ?_
  split
  · trivial
  · refine Prog.All.unless (Prog.All.bind (mints_sql trivial) fun _ => ?_)
    exact mints_sql trivial

theorem UserService.createUser_mints (data : CreateUserDto) :
    (createUser orgId data).All ApiCmd.Mints := by
  refine Prog.All.bind (mints_sql trivial) fun found => ?_
  cases found with
  | some user => trivial
  | none =>
    refine Prog.All.bind (mints_sql trivial) fun user => ?_
    exact Prog.All.bind (mints_sql trivial) fun _ => trivial

theorem UserService.ownUser_mints (userId : Text) : (ownUser orgId userId).All ApiCmd.Mints := by
  refine Prog.All.bind (mints_sql trivial) fun user => ?_
  split
  · trivial
  · split
    · trivial
    · trivial

theorem UserService.deleteUser_mints (userId : Text) :
    (deleteUser orgId userId).All ApiCmd.Mints := by
  refine Prog.All.bind (ownUser_mints userId) fun user => ?_
  refine Prog.All.bind (mints_sql trivial) fun _ => ?_
  exact mints_sql trivial

/-- The one insert of a key. -/
theorem AuthService.mintKey_mints (data : RegisterApiKeyDto) (bootstrapToken : Option Text) :
    (mintKey cfg orgId data bootstrapToken).All ApiCmd.Mints := by
  refine Prog.All.bind (all_ofExcept _) fun _ => ?_
  refine Prog.All.bind (Prog.All.perform trivial) fun keyId => ?_
  refine Prog.All.bind (all_ofExcept _) fun scopes => ?_
  refine Prog.All.bind ?_ fun apiKey => ?_
  · refine Prog.All.tryCatch (mints_sql ⟨keyId, rfl⟩) fun error => ?_
    split
    · trivial
    · trivial
  · refine Prog.All.bind (clearToken_all trivial bootstrapToken) fun _ => ?_
    exact Prog.All.bind (mints_sql trivial) fun _ => trivial

theorem AuthService.registerApiKey_mints (data : RegisterApiKeyDto)
    (bootstrapToken requestingKeyId : Option Text) :
    (registerApiKey cfg orgId data bootstrapToken requestingKeyId).All ApiCmd.Mints := by
  refine Prog.All.bind (mints_sql trivial) fun org => ?_
  cases org with
  | none => trivial
  | some org =>
    refine Prog.All.bind (authorise_all trivial (fun _ => trivial) ..) fun _ => ?_
    exact mintKey_mints data bootstrapToken

theorem AuthService.revokeApiKey_mints (keyId : Text) :
    (revokeApiKey orgId keyId).All ApiCmd.Mints := by
  refine Prog.All.bind (mints_sql trivial) fun apiKey => ?_
  split
  · trivial
  · refine Prog.All.unless (Prog.All.bind (Prog.All.perform trivial) fun now => ?_)
    refine Prog.All.bind (mints_sql trivial) fun _ => ?_
    exact mints_sql trivial

theorem AuthService.generateBootstrapToken_mints :
    (generateBootstrapToken cfg orgId).All ApiCmd.Mints := by
  refine Prog.All.bind (Prog.All.perform trivial) fun token => ?_
  exact Prog.All.bind (mints_sql trivial) fun _ => trivial

theorem ApiCall.start_mints (operation : ApiCall) :
    (operation.start cfg orgId).All ApiCmd.Mints := by
  cases operation with
  | onBoardOrganization => exact all_map (all_api (fun _ => trivial) _)
  | deriveWallet userId label chainId => exact all_map (all_api (fun _ => trivial) _)
  | listWalletsByOrgId => exact all_map (Prog.All.bind (mints_sql trivial) fun _ => trivial)
  | getWalletById walletId =>
    exact all_map (Prog.All.bind (WalletService.ownWallet_mints walletId) fun _ => trivial)
  | listSigningRequestsByOrgId =>
    exact all_map (Prog.All.bind (mints_sql trivial) fun _ => trivial)
  | queryAuditLog params => exact all_map (mints_sql trivial)
  | listSigningRequestsByWalletId walletId =>
    refine all_map (Prog.All.bind (WalletService.ownWallet_mints walletId) fun _ => ?_)
    exact Prog.All.bind (mints_sql trivial) fun _ => trivial
  | getSigningRequestById walletId requestId =>
    refine all_map (Prog.All.bind (WalletService.ownWallet_mints walletId) fun _ => ?_)
    refine Prog.All.bind (mints_sql trivial) fun request => ?_
    split
    · trivial
    · split
      · trivial
      · trivial
  | requestSign walletId req => exact all_map (all_api (fun _ => trivial) _)
  | signEip712 walletId req =>
    exact all_map ((SigningService.issuable_mints walletId).signEip712_all cfg req)
  | signPersonalMessage walletId message =>
    exact all_map ((SigningService.issuable_mints walletId).signPersonalMessage_all cfg message)
  | createPolicy body =>
    exact all_map (Prog.All.bind (all_ofExcept _) fun _ => mints_sql trivial)
  | listPolicies => exact all_map (all_api (fun _ => trivial) _)
  | deletePolicy policyId => exact all_map (PolicyService.deletePolicy_mints policyId)
  | createUser body => exact all_map (UserService.createUser_mints body)
  | listUsers => exact all_map (Prog.All.bind (mints_sql trivial) fun _ => trivial)
  | getUser userId =>
    exact all_map (Prog.All.bind (UserService.ownUser_mints userId) fun _ => trivial)
  | deleteUser userId => exact all_map (UserService.deleteUser_mints userId)
  | registerApiKey body bootstrapToken requestingKeyId =>
    exact all_map (AuthService.registerApiKey_mints body bootstrapToken requestingKeyId)
  | listApiKeys => exact all_map (Prog.All.bind (mints_sql trivial) fun _ => trivial)
  | revokeApiKey keyId => exact all_map (AuthService.revokeApiKey_mints keyId)
  | generateBootstrapToken => exact all_map AuthService.generateBootstrapToken_mints

/-- Everything that is started in the API. -/
theorem Activity.start_mints (activity : Activity) :
    (activity.start cfg).All ApiCmd.Mints := by
  cases activity with
  | call orgId operation => exact operation.start_mints
  | canActivate route request =>
    exact all_map (StampVerifierGuard.canActivate_all trivial (fun _ => trivial)
      (fun _ => trivial) _ _ _)
  | registerApiKey body request =>
    refine all_map (Prog.All.bind (StampVerifierGuard.canActivate_all trivial (fun _ => trivial)
      (fun _ => trivial) _ _ _) fun user => ?_)
    refine Prog.All.bind ?_ fun orgId => ?_
    · simp only [ApiKeysController.resolveOrgId]
      split
      · trivial
      · exact Prog.All.bind (mints_sql trivial) fun _ => trivial
      · trivial
    · split
      · trivial
      · exact AuthService.registerApiKey_mints _ _ _
  | createOrganization name slug =>
    refine all_map (Prog.All.bind (mints_sql trivial) fun found => ?_)
    cases found with
    | some org => trivial
    | none =>
      refine Prog.All.bind (mints_sql trivial) fun org => ?_
      refine Prog.All.bind (all_api (fun _ => trivial) _) fun wallet => ?_
      exact Prog.All.bind AuthService.generateBootstrapToken_mints fun _ => trivial
  | monitor cycles => exact all_map (all_api (fun _ => trivial) _)

theorem spawned_mints (command : ApiCmd) (thread : Api ApiOutcome)
    (hthread : thread ∈ apiSpawns cfg command) : thread.All ApiCmd.Mints := by
  cases command with
  | base command =>
    cases command with
    | fork job =>
      rw [List.mem_singleton.mp hthread]
      exact all_map (all_api (fun _ => trivial) _)
    | _ => cases hthread
  | fork job =>
    rw [List.mem_singleton.mp hthread]
    cases job with
    | touch apiKeyId lastUsedAt =>
      exact all_map (Prog.All.tryCatch (Prog.All.perform trivial) fun _ => trivial)
  | _ => cases hthread

end

/-! ### Every run -/

/-- An update leaves the key ids as they are. -/
theorem keyId_updateRow (id : Uuid) (fields : ApiKeyUpdate) (row : ApiKey) :
    (ApiKeyRepository.updateRow id fields row).keyId = row.keyId :=
  congrArg (fun fixed => fixed.2.2.1) (@fixed_updateKey id fields row)

theorem MintedIds.exec_sql {statement : ApiSql} (hmints : (ApiCmd.sql statement).Mints) {id : Uuid}
    {now : Int} {t : ApiTables} (h : MintedIds t) : MintedIds (statement.exec id now t).2 := by
  have hagree := statement.exec_agree id now t
  cases statement with
  | keyCreate data =>
    simp only [ApiSql.exec]
    cases hcreate : ApiKeyRepository.create data id now t with
    | error error => exact h
    | ok result =>
      obtain ⟨row, t'⟩ := result
      obtain ⟨org, _, hfresh, rfl, rfl⟩ := ApiKeyRepository.create_eq_ok hcreate
      constructor
      case drawn =>
        intro key hkey
        rcases List.mem_append.mp hkey with hold | hnew
        · exact h.drawn key hold
        · rw [List.mem_singleton.mp hnew]
          exact hmints
      case unique => exact h.unique.append fun other hother => (hfresh other hother).2
  | keyUpdate rowId fields =>
    constructor
    case drawn =>
      intro key hkey
      obtain ⟨row, hrow, rfl⟩ := List.mem_map.mp hkey
      rw [keyId_updateRow]
      exact h.drawn row hrow
    case unique => exact h.unique.map (keyId_updateRow rowId fields)
  | _ => exact h.of_eq (hagree.apiKeys nofun)

theorem MintedIds.exec {command : ApiCmd} {choice : Choice} {w w' : ApiWorld}
    {reply : Except JsError command.Reply} (hmints : command.Mints) (h : MintedIds w.tables)
    (hexec : command.exec choice w = some (reply, w')) : MintedIds w'.tables := by
  cases command with
  | base command =>
    obtain ⟨base, _, rfl⟩ := ApiCmd.exec_base hexec
    exact h.of_eq rfl
  | sql statement =>
    rcases ApiCmd.exec_sql hexec with ⟨id, _, rfl, _⟩ | ⟨error, _, _, _, rfl⟩
    · exact h.exec_sql hmints
    · exact h
  | randomUUID =>
    obtain ⟨id, rfl⟩ := ApiCmd.exec_randomUUID hexec
    exact h
  | signHash wallet key hash =>
    rw [ApiCmd.exec_query rfl hexec]
    exact h
  | fork job =>
    rw [ApiCmd.exec_query rfl hexec]
    exact h

/-- **Every key id is the text of a uuid**, in every state the API reaches from empty
    tables. -/
theorem mintedIds_of_reach {cfg : ApiConfig} {activities : List Activity}
    {clock : Int} {violation : JsError}
    {p : ApiPool}
    (hreach : Reach (api cfg) Guard.any
      (apiPool cfg activities (ApiWorld.empty clock violation)) p) :
    MintedIds p.state.tables := by
  have hharmless : ∀ thread : Api ApiOutcome, thread.All ApiCmd.Mints →
      thread.All (Harmless Guard.any (api cfg) fun w _ => MintedIds w.tables) := by
    intro thread hthread
    refine hthread.mono fun command hmints i choice reply w w' history h _ hexec => ?_
    exact h.exec hmints hexec
  have hspawned : ∀ command thread, thread ∈ (api cfg).spawns command →
      thread.All (Harmless Guard.any (api cfg) fun w _ => MintedIds w.tables) :=
    fun command thread hthread => hharmless thread (spawned_mints command thread hthread)
  refine (Reach.keeps (apiGrowth cfg Guard.any) hreach ?_ ?_ hspawned ?_).1
  · exact ⟨nofun, .nil _⟩
  · intro thread hthread
    obtain ⟨activity, _, rfl⟩ := List.mem_map.mp hthread
    exact Keeps.of_harmless (hharmless _ activity.start_mints) _ _
  · intro event w w' history h _ henv
    cases henv
    cases event with
    | tick duration => exact h
    | evict keep => exact h

end BrokeTurnkey
