import BrokeTurnkey.Services
import BrokeTurnkey.Interaction.Sequential

/-!
# What the service methods may issue

Bounds on the commands of the methods that change nothing, or next to nothing:
the RPC helper issues requests of one kind, and fee estimation, the lookups and
the loading of prerequisites only look.  An argument about the whole pipeline
then deals with the few commands that matter to it.
-/

namespace BrokeTurnkey

open Interaction

/-! ### Tables a statement writes -/

inductive Table where
  | seeds
  | wallets
  | requests
  | nonces
  | auditLog
deriving DecidableEq, Repr

/-- The one table a statement may change. -/
def Sql.writes : Sql → Option Table
  | .seedCreate _ => some .seeds
  | .walletCreate _ => some .wallets
  | .requestCreate _ | .requestUpdate _ _ => some .requests
  | .nonceReserve _ _ | .nonceRelease _ _ _ | .nonceSyncFromChain _ _ _ => some .nonces
  | .auditCreate _ => some .auditLog
  | _ => none

/-- The tables agree, one of them excepted. -/
structure Tables.Agree (written : Option Table) (t t' : Tables) : Prop where
  seeds : written ≠ some .seeds → t'.seeds = t.seeds
  users : t'.users = t.users
  wallets : written ≠ some .wallets → t'.wallets = t.wallets
  requests : written ≠ some .requests → t'.requests = t.requests
  nonces : written ≠ some .nonces → t'.nonces = t.nonces
  policies : t'.policies = t.policies
  auditLog : written ≠ some .auditLog → t'.auditLog = t.auditLog
  uniqueViolationError : t'.uniqueViolationError = t.uniqueViolationError

theorem Tables.Agree.refl (written : Option Table) (t : Tables) : Agree written t t :=
  ⟨fun _ => rfl, rfl, fun _ => rfl, fun _ => rfl, fun _ => rfl, rfl, fun _ => rfl, rfl⟩

theorem Tables.Agree.eq {t t' : Tables} (h : Agree none t t') : t' = t := by
  cases t
  cases t'
  obtain ⟨hseeds, husers, hwallets, hrequests, hnonces, hpolicies, haudit, herror⟩ := h
  simp only [Tables.mk.injEq]
  exact ⟨hseeds nofun, husers, hwallets nofun, hrequests nofun, hnonces nofun, hpolicies,
    haudit nofun, herror⟩

theorem withUuid_agree {α : Type} {written : Option Table} {s : Text} {t : Tables}
    {k : Uuid → Answer α} (h : ∀ u, Tables.Agree written t (k u).2) :
    Tables.Agree written t (withUuid s t k).2 := by
  simp only [withUuid]
  split
  · exact h _
  · exact .refl written t

theorem withOptionUuid_agree {α : Type} {written : Option Table} {s : Option Text} {t : Tables}
    {k : Option Uuid → Answer α} (h : ∀ u, Tables.Agree written t (k u).2) :
    Tables.Agree written t (withOptionUuid s t k).2 := by
  cases s with
  | none => exact h none
  | some s => exact withUuid_agree fun u => h (some u)

theorem Tables.agree_nonces (t : Tables) (wallet : Uuid) (chainId : Nat) (nonce : Int) :
    Agree (some .nonces) t (t.setNonce wallet chainId nonce) :=
  ⟨fun _ => rfl, rfl, fun _ => rfl, fun _ => rfl, fun h => absurd rfl h, rfl, fun _ => rfl, rfl⟩

theorem Sql.exec_agree (statement : Sql) (id : Uuid) (now : Int) (t : Tables) :
    Tables.Agree statement.writes t (statement.exec id now t).2 := by
  cases statement with
  | seedFindByOrgId orgId => exact withUuid_agree fun _ => .refl none t
  | userFindById id => exact withUuid_agree fun _ => .refl none t
  | walletFindById id => exact withUuid_agree fun _ => .refl none t
  | walletCountByOrgId orgId => exact withUuid_agree fun _ => .refl none t
  | requestFindByIdempotencyKey key => exact .refl none t
  | requestFindBroadcasted => exact .refl none t
  | policyFindByOrgId orgId status => exact withUuid_agree fun _ => .refl none t
  | seedCreate data =>
    refine withUuid_agree fun org => ?_
    split
    · exact .refl _ t
    · exact ⟨fun h => absurd rfl h, rfl, fun _ => rfl, fun _ => rfl, fun _ => rfl, rfl,
        fun _ => rfl, rfl⟩
  | walletCreate data =>
    refine withUuid_agree fun org => withOptionUuid_agree fun user => ?_
    split
    · exact .refl _ t
    · exact ⟨fun _ => rfl, rfl, fun h => absurd rfl h, fun _ => rfl, fun _ => rfl, rfl,
        fun _ => rfl, rfl⟩
  | requestCreate data =>
    refine withUuid_agree fun org => withUuid_agree fun wallet => ?_
    split
    · exact .refl _ t
    · exact ⟨fun _ => rfl, rfl, fun _ => rfl, fun h => absurd rfl h, fun _ => rfl, rfl,
        fun _ => rfl, rfl⟩
  | requestUpdate requestId fields =>
    simp only [Sql.exec, SigningRequestRepository.update]
    split
    · exact .refl _ t
    · split
      · exact .refl _ t
      · exact ⟨fun _ => rfl, rfl, fun _ => rfl, fun h => absurd rfl h, fun _ => rfl, rfl,
          fun _ => rfl, rfl⟩
  | nonceReserve walletId chainId =>
    refine withUuid_agree fun wallet => ?_
    split
    · exact t.agree_nonces ..
    · split
      · exact .refl _ t
      · exact t.agree_nonces ..
  | nonceRelease walletId chainId nonce =>
    refine withUuid_agree fun wallet => ?_
    split
    · exact .refl _ t
    · split
      · exact t.agree_nonces ..
      · exact .refl _ t
  | nonceSyncFromChain walletId chainId chainNonce =>
    refine withUuid_agree fun wallet => ?_
    split
    · exact .refl _ t
    · split
      · exact .refl _ t
      · split
        · exact t.agree_nonces ..
        · split
          · exact t.agree_nonces ..
          · exact .refl _ t
  | auditCreate data =>
    refine withUuid_agree fun org => withOptionUuid_agree fun user =>
      withOptionUuid_agree fun wallet => ?_
    exact ⟨fun _ => rfl, rfl, fun _ => rfl, fun _ => rfl, fun _ => rfl, rfl,
      fun h => absurd rfl h, rfl⟩

/-! ### What a command leaves alone -/

/-- A request that does not submit a transaction. -/
def RpcRequest.isQuery : RpcRequest → Bool
  | .sendRawTransaction _ => false
  | _ => true

/-- The one table a command may change. -/
def Cmd.writes : Cmd → Option Table
  | .sql statement => statement.writes
  | _ => none

/-- Commands that look at the world and leave it as it is. -/
def Cmd.isQuery : Cmd → Bool
  | .sql statement => statement.writes = none
  | .fetch _ request => request.isQuery
  | .now => true
  | _ => false

theorem World.accept_tables (w : World) (accepted : Bool) (request : RpcRequest) :
    (w.accept accepted request).tables = w.tables := by
  cases request with
  | sendRawTransaction rawTx => simp only [World.accept]; split <;> rfl
  | _ => rfl

theorem World.accept_query {request : RpcRequest} (h : request.isQuery = true) (w : World)
    (accepted : Bool) : w.accept accepted request = w := by
  cases request with
  | sendRawTransaction rawTx => cases h
  | _ => rfl

theorem exec_agree {command : Cmd} {choice : Choice} {w w' : World}
    {reply : Except JsError command.Reply} (h : exec command choice w = some (reply, w')) :
    Tables.Agree command.writes w.tables w'.tables := by
  cases command with
  | sql statement =>
    rcases exec_sql h with ⟨id, _, rfl, _⟩ | ⟨error, _, _, _, rfl⟩
    · exact statement.exec_agree id w.clock w.tables
    · exact .refl _ w'.tables
  | fetch rpcUrl request =>
    obtain ⟨accepted, _, rfl⟩ := exec_fetch h
    rw [World.accept_tables]
    exact .refl _ w.tables
  | sidecar request => rw [(exec_sidecar h).2]; exact .refl _ w.tables
  | now => rw [(exec_local rfl h).2]; exact .refl _ w.tables
  | log line => rw [(exec_local rfl h).2]; exact .refl _ w.tables
  | fork job => rw [(exec_local rfl h).2]; exact .refl _ w.tables

theorem exec_query {command : Cmd} (hquery : command.isQuery = true) {choice : Choice}
    {w w' : World} {reply : Except JsError command.Reply}
    (h : exec command choice w = some (reply, w')) : w' = w := by
  cases command with
  | sql statement =>
    have hnone : statement.writes = none := of_decide_eq_true hquery
    rcases exec_sql h with ⟨id, _, rfl, _⟩ | ⟨error, _, _, _, rfl⟩
    · have hagree := statement.exec_agree id w.clock w.tables
      rw [hnone] at hagree
      rw [hagree.eq]
    · rfl
  | fetch rpcUrl request =>
    obtain ⟨accepted, _, rfl⟩ := exec_fetch h
    exact World.accept_query hquery w accepted
  | now => exact (exec_local rfl h).2
  | sidecar request => cases hquery
  | log line => cases hquery
  | fork job => cases hquery

theorem Cmd.writes_of_query {command : Cmd} (h : command.isQuery = true) :
    command.writes = none := by
  cases command with
  | sql statement => exact of_decide_eq_true h
  | _ => rfl

/-- The transaction a command submits. -/
def Cmd.submits : Cmd → Option RawTx
  | .fetch _ (.sendRawTransaction rawTx) => some rawTx
  | _ => none

theorem Cmd.submits_of_query {command : Cmd} (h : command.isQuery = true) :
    command.submits = none := by
  cases command with
  | fetch rpcUrl request =>
    cases request with
    | sendRawTransaction rawTx => cases h
    | _ => rfl
  | _ => rfl

/-- Only a submission adds to what can be mined. -/
theorem exec_live {command : Cmd} (hsubmits : command.submits = none) {choice : Choice}
    {w w' : World} {reply : Except JsError command.Reply}
    (h : exec command choice w = some (reply, w')) : w'.live = w.live := by
  cases command with
  | sql statement =>
    rcases exec_sql h with ⟨id, _, rfl, _⟩ | ⟨error, _, _, _, rfl⟩ <;> rfl
  | fetch rpcUrl request =>
    obtain ⟨accepted, _, rfl⟩ := exec_fetch h
    cases request with
    | sendRawTransaction rawTx => cases hsubmits
    | _ => rfl
  | sidecar request => rw [(exec_sidecar h).2]
  | now => rw [(exec_local rfl h).2]
  | log line => rw [(exec_local rfl h).2]
  | fork job => rw [(exec_local rfl h).2]

/-- Events leave these tables alone. -/
theorem World.event_tables {w w' : World} {event : Event} (h : w.event event = some w') :
    w'.tables.requests = w.tables.requests ∧ w'.tables.nonces = w.tables.nonces ∧
      w'.tables.auditLog = w.tables.auditLog := by
  cases event with
  | tick duration => cases h; exact ⟨rfl, rfl, rfl⟩
  | evict keep => cases h; exact ⟨rfl, rfl, rfl⟩
  | policies rows => cases h; exact ⟨rfl, rfl, rfl⟩
  | newWallet row =>
    simp only [World.event] at h
    split at h
    · cases h; exact ⟨rfl, rfl, rfl⟩
    · cases h
  | newSeed row =>
    simp only [World.event] at h
    split at h
    · cases h; exact ⟨rfl, rfl, rfl⟩
    · cases h

/-- What can be mined was there before, or is submitted by the command. -/
theorem mem_live {command : Cmd} {choice : Choice} {w w' : World}
    {reply : Except JsError command.Reply} (h : exec command choice w = some (reply, w'))
    {rawTx : RawTx} (hraw : rawTx ∈ w'.live) :
    rawTx ∈ w.live ∨ command.submits = some rawTx := by
  cases hsubmits : command.submits with
  | none =>
    rw [exec_live hsubmits h] at hraw
    exact .inl hraw
  | some submitted =>
    cases command with
    | fetch rpcUrl request =>
      cases request with
      | sendRawTransaction rawTx' =>
        cases hsubmits
        obtain ⟨accepted, _, rfl⟩ := exec_fetch h
        cases accepted with
        | false => exact .inl hraw
        | true =>
          rcases List.mem_cons.mp hraw with rfl | hold
          · exact .inr rfl
          · exact .inl hold
      | _ => cases hsubmits
    | _ => cases hsubmits

/-- No event puts a transaction into the mempool. -/
theorem World.event_live {w w' : World} {event : Event} (h : w.event event = some w') :
    ∀ rawTx ∈ w'.live, rawTx ∈ w.live := by
  cases event with
  | tick duration => cases h; exact fun _ h => h
  | evict keep => cases h; exact fun _ h => (List.mem_filter.mp h).1
  | policies rows => cases h; exact fun _ h => h
  | newWallet row =>
    simp only [World.event] at h
    split at h
    · cases h; exact fun _ h => h
    · cases h
  | newSeed row =>
    simp only [World.event] at h
    split at h
    · cases h; exact fun _ h => h
    · cases h

/-! ### The RPC helper -/

section Rpc

variable {P : Cmd → Prop} {request : RpcRequest} (hfetch : ∀ rpcUrl, P (.fetch rpcUrl request))
include hfetch

theorem callProvider_all (rpcUrl : Text) : (callProvider request rpcUrl).All P := by
  refine Prog.All.bind (Prog.All.perform (hfetch rpcUrl)) fun reply => ?_
  cases reply with
  | notOk status statusText => trivial
  | rpcError message => trivial
  | result value => trivial

theorem tryProviders_all (rpcUrls : List Text) : (tryProviders request rpcUrls).All P := by
  fun_induction tryProviders request rpcUrls with
  | case1 => trivial
  | case2 rpcUrl => exact callProvider_all hfetch rpcUrl
  | case3 rpcUrl rest _ ih =>
    exact Prog.All.tryCatch (callProvider_all hfetch rpcUrl) fun _ => ih

theorem rpcCall_all (cfg : Config) (chainId : Nat) : (rpcCall cfg request chainId).All P := by
  simp only [rpcCall]
  split
  · trivial
  · exact tryProviders_all hfetch _

theorem rpcAttempts_all (cfg : Config) (chainId attempts : Nat) (lastError : JsError) :
    (rpcAttempts cfg request chainId attempts lastError).All P := by
  induction attempts generalizing lastError with
  | zero => trivial
  | succ attempts ih =>
    refine Prog.All.tryCatch (rpcCall_all hfetch cfg chainId) fun error => ?_
    split
    · trivial
    · exact ih error

theorem rpcCallWithRetry_all (cfg : Config) (chainId : Nat) :
    (rpcCallWithRetry cfg request chainId).All P :=
  rpcAttempts_all hfetch cfg chainId maxRetries typeError

end Rpc

/-- The methods below issue nothing but queries. -/
abbrev Queries {α : Type} (p : Js α) : Prop := p.All fun command => command.isQuery = true

theorem rpcCallWithRetry_queries {request : RpcRequest} (h : request.isQuery = true)
    (cfg : Config) (chainId : Nat) : Queries (rpcCallWithRetry cfg request chainId) :=
  rpcCallWithRetry_all (fun _ => h) cfg chainId

theorem sql_queries {statement : Sql} (h : statement.writes = none) :
    Queries (Js.sql statement) := Prog.All.perform (decide_eq_true h)

theorem now_queries : Queries Js.now := Prog.All.perform rfl

theorem estimateGas_queries (cfg : Config) (toAddr value data : Text) (chainId : Nat)
    (sender : Option Text) : Queries (estimateGas cfg toAddr value data chainId sender) := by
  simp only [estimateGas]
  split
  · trivial
  · refine Prog.All.bind (rpcCallWithRetry_queries rfl cfg chainId) fun result => ?_
    cases result with
    | quantity n => trivial
    | _ => trivial

theorem fetchFeeData_queries (cfg : Config) (chainId : Nat) :
    Queries (fetchFeeData cfg chainId) := by
  refine Prog.All.bind (rpcCallWithRetry_queries rfl cfg chainId) fun result => ?_
  cases result with
  | feeHistory baseFeePerGas reward =>
    dsimp only
    split <;> trivial
  | _ => trivial

theorem estimateFees_queries (cfg : Config) (toAddr value data : Text) (chainId : Nat)
    (sender : Option Text) : Queries (estimateFees cfg toAddr value data chainId sender) := by
  refine Prog.All.bind (estimateGas_queries ..) fun gasLimit => ?_
  exact Prog.All.bind (fetchFeeData_queries cfg chainId) fun fees => trivial

theorem getTransactionReceipt_queries (cfg : Config) (txHash : Text) (chainId : Nat) :
    Queries (getTransactionReceipt cfg txHash chainId) := by
  refine Prog.All.bind (rpcCallWithRetry_queries rfl cfg chainId) fun result => ?_
  split <;> trivial

theorem getTransactionByHash_queries (cfg : Config) (txHash : Text) (chainId : Nat) :
    Queries (getTransactionByHash cfg txHash chainId) := by
  refine Prog.All.bind (rpcCallWithRetry_queries rfl cfg chainId) fun result => ?_
  split <;> trivial

namespace WalletService

theorem loadPrerequisites_queries (orgId walletId : Text) :
    Queries (loadPrerequisites orgId walletId) := by
  refine Prog.All.bind (sql_queries rfl) fun seedRow => ?_
  refine Prog.All.bind (sql_queries rfl) fun wallet => ?_
  cases seedRow with
  | none => trivial
  | some seedRow =>
    cases wallet with
    | none => trivial
    | some wallet => dsimp only; split <;> trivial

theorem checkUser_queries (orgId : Text) (userId : Option Text) :
    Queries (checkUser orgId userId) := by
  cases userId with
  | none => trivial
  | some userId =>
    refine Prog.All.bind (sql_queries rfl) fun user => ?_
    cases user with
    | none => trivial
    | some user => dsimp only; split <;> trivial

end WalletService

theorem Monitor.rebuild_queries (cfg : Config) (row : SigningRequest) (txPayload : TxFields) :
    Queries (Monitor.rebuild cfg row txPayload) := by
  refine Prog.All.bind (estimateFees_queries ..) fun feeEstimate => ?_
  split <;> trivial

/-! ### The policy engine -/

namespace PolicyService

section Audit

variable {P : Cmd → Prop} {orgId walletId : Text}
  (hquery : ∀ command, command.isQuery = true → P command)
  (haudit : ∀ status metadata, P (.sql (.auditCreate
    { orgId, walletId := some walletId, event := .policyEvaluation, status, metadata })))
include hquery haudit

/-- The engine issues queries and writes the audit row of its evaluation. -/
theorem evaluatePolicies_all (cfg : Config) (txPayload : TxPayload) (policiesChecked : Nat)
    (policies : List Policy) :
    (evaluatePolicies cfg orgId walletId txPayload policiesChecked policies).All P := by
  induction policies with
  | nil => exact Prog.All.bind (Prog.All.perform (haudit _ _)) fun _ => trivial
  | cons policy rest ih =>
    refine Prog.All.bind (Prog.All.perform (hquery _ rfl)) fun now => ?_
    split
    · trivial
    · split
      · exact Prog.All.bind (Prog.All.perform (haudit _ _)) fun _ => trivial
      · exact ih

theorem evaluate_all (cfg : Config) (txPayload : TxPayload) :
    (evaluate cfg orgId walletId txPayload).All P := by
  refine Prog.All.bind (Prog.All.perform (hquery _ rfl)) fun policies => ?_
  split
  · exact Prog.All.bind (Prog.All.perform (haudit _ _)) fun _ => trivial
  · exact evaluatePolicies_all hquery haudit cfg txPayload _ _

end Audit

end PolicyService

theorem WalletService.evaluatePolicy_all {P : Cmd → Prop} {orgId walletId : Text}
    (hquery : ∀ command, command.isQuery = true → P command)
    (haudit : ∀ status metadata, P (.sql (.auditCreate
      { orgId, walletId := some walletId, event := .policyEvaluation, status, metadata })))
    (cfg : Config) (req : SignRequest) : (evaluatePolicy cfg orgId walletId req).All P := by
  refine Prog.All.bind (PolicyService.evaluate_all hquery haudit cfg _) fun result => ?_
  split <;> trivial

/-! ### The steps after the engine -/

namespace WalletService

section Claims

variable {P : Cmd → Prop} (hquery : ∀ command, command.isQuery = true → P command)
  (hcreate : ∀ data, P (.sql (.requestCreate data)))
  (hupdate : ∀ id fields, P (.sql (.requestUpdate id fields)))
include hquery hcreate hupdate

theorem createOrReuse_all (orgId walletId : Text) (req : SignRequest) (idempotencyKey : Text) :
    (createOrReuse orgId walletId req idempotencyKey).All P := by
  refine Prog.All.tryCatch ?_ fun error => ?_
  · exact Prog.All.bind (Prog.All.perform (hcreate _)) fun _ => trivial
  · split
    · trivial
    · refine Prog.All.bind (Prog.All.perform (hquery _ rfl)) fun raced => ?_
      split
      · trivial
      · cases raced with
        | none => trivial
        | some row => exact Prog.All.bind (Prog.All.perform (hupdate _ _)) fun _ => trivial

end Claims

section Submits

variable {P : Cmd → Prop} {orgId walletId : Text} {req : SignRequest} {wallet : Wallet}
  {fees : FeeEstimate} {id : Uuid} (hnow : P .now) (hlog : ∀ line, P (.log line))
  (hfork : ∀ job, P (.fork job)) (hupdate : ∀ fields, P (.sql (.requestUpdate id fields)))
  (hreserve : P (.sql (.nonceReserve walletId req.chainId)))
  (hrelease : ∀ nonce, P (.sql (.nonceRelease walletId req.chainId nonce)))
  (hsign : ∀ key nonce, P (.sidecar (.signTransaction wallet.id id key
    { chainId := req.chainId, nonce, toAddr := req.toAddr, value := req.value,
      gasLimit := fees.gasLimit, maxFeePerGas := fees.maxFeePerGas,
      maxPriorityFeePerGas := fees.maxPriorityFeePerGas, data := req.data })))
  (hsend : ∀ rpcUrl rawTx, P (.fetch rpcUrl (.sendRawTransaction rawTx)))
  (haudit : ∀ status metadata, P (.sql (.auditCreate
    { orgId, walletId := some walletId, event := .txSigned, status, metadata })))
include hnow hlog hfork hupdate hreserve hrelease hsign hsend haudit

theorem submit_all (cfg : Config) (seedRow : OrganizationSeed) (idempotencyKey : Text) :
    (submit cfg orgId walletId req seedRow wallet idempotencyKey fees id).All P := by
  have hstore : ∀ fields, (Js.sql (.requestUpdate id fields)).All P :=
    fun fields => Prog.All.perform (hupdate fields)
  refine Prog.All.bind_bind (Prog.All.perform hreserve) fun nonce => ?_
  refine Prog.All.bind_bind (hstore _) fun _ => ?_
  refine Prog.All.bind (p := signStep ..) ?_ fun signResult => ?_
  · refine Prog.All.tryCatch (Prog.All.perform (hsign _ nonce)) fun error => ?_
    refine Prog.All.bind (hstore _) fun _ => ?_
    exact Prog.All.bind (Prog.All.perform (hrelease _)) fun _ => trivial
  refine Prog.All.bind (Prog.All.bind (Prog.All.perform hnow) fun _ => hstore _) fun _ => ?_
  refine Prog.All.bind ?_ fun _ => ?_
  · refine Prog.All.tryCatch ?_ fun error => ?_
    · refine Prog.All.bind (Prog.All.bind (Prog.All.perform (hlog _)) fun _ => ?_) fun _ => ?_
      · exact rpcCallWithRetry_all (fun rpcUrl => hsend rpcUrl _) cfg req.chainId
      · exact Prog.All.bind (Prog.All.perform hnow) fun _ => hstore _
    · refine Prog.All.bind (hstore _) fun _ => ?_
      exact Prog.All.bind (Prog.All.perform (hfork _)) fun _ => trivial
  · exact Prog.All.bind (Prog.All.perform (haudit _ _)) fun _ => trivial

end Submits

end WalletService

/-! ### The monitor inserts nothing -/

/-- The command inserts no signing request and no audit row. -/
def Cmd.InsertsNone : Cmd → Prop
  | .sql (.requestCreate _) | .sql (.auditCreate _) => False
  | _ => True

theorem Cmd.insertsNone_of_query {command : Cmd} (h : command.isQuery = true) :
    command.InsertsNone := by
  cases command with
  | sql statement =>
    cases statement with
    | requestCreate data => cases h
    | auditCreate data => cases h
    | _ => trivial
  | _ => trivial

namespace Monitor

variable {cfg : Config} {row : SigningRequest}

theorem insertsNone_of_queries {α : Type} {p : Js α} (h : Queries p) : p.All Cmd.InsertsNone :=
  h.mono fun _ => Cmd.insertsNone_of_query

theorem updateRow_insertsNone (fields : SigningRequestUpdate) :
    (updateRow row fields).All Cmd.InsertsNone := Prog.All.perform trivial

theorem sendReplacement_insertsNone (result : SignTransactionResult) :
    (sendReplacement cfg row result).All Cmd.InsertsNone := by
  refine Prog.All.bind (Prog.All.tryCatch ?_ fun error => ?_) fun sent => ?_
  · refine Prog.All.bind (Prog.All.bind (Prog.All.perform trivial) fun _ => ?_) fun value => ?_
    · exact rpcCallWithRetry_all (fun _ => trivial) cfg row.chainId
    · split
      · trivial
      · trivial
  · exact Prog.All.bind (updateRow_insertsNone _) fun _ => trivial
  · split
    · refine Prog.All.bind (Prog.All.perform trivial) fun _ => ?_
      exact Prog.All.bind (Prog.All.perform trivial) fun _ => updateRow_insertsNone _
    · trivial

theorem signReplacement_insertsNone (wallet : Wallet) (seedRow : OrganizationSeed)
    (txFields : TxFields) :
    (signReplacement cfg row wallet seedRow txFields).All Cmd.InsertsNone := by
  refine Prog.All.bind (Prog.All.tryCatch ?_ fun error => ?_) fun result => ?_
  · exact Prog.All.bind (Prog.All.perform trivial) fun _ => trivial
  · exact Prog.All.bind (updateRow_insertsNone _) fun _ => trivial
  · cases result with
    | none => trivial
    | some result => exact sendReplacement_insertsNone result

theorem speedUp_insertsNone : (speedUp cfg row).All Cmd.InsertsNone := by
  rw [speedUp]
  split
  · exact updateRow_insertsNone _
  · split
    · exact updateRow_insertsNone _
    · refine Prog.All.bind (Prog.All.perform trivial) fun wallet => ?_
      cases wallet with
      | none => exact updateRow_insertsNone _
      | some wallet =>
        refine Prog.All.bind (Prog.All.perform trivial) fun seedRow => ?_
        cases seedRow with
        | none => exact updateRow_insertsNone _
        | some seedRow =>
          refine Prog.All.bind (insertsNone_of_queries (rebuild_queries ..)) fun txFields => ?_
          exact signReplacement_insertsNone wallet seedRow txFields

theorem settle_insertsNone (receipt : TransactionReceipt) :
    (settle row receipt).All Cmd.InsertsNone := by
  rw [settle]
  split
  · exact Prog.All.bind (Prog.All.perform trivial) fun now => updateRow_insertsNone _
  · exact updateRow_insertsNone _

theorem checkStuck_insertsNone (txHash : Text) :
    (checkStuck cfg row txHash).All Cmd.InsertsNone := by
  refine Prog.All.bind (Prog.All.perform trivial) fun now => ?_
  dsimp only
  split
  · trivial
  · refine Prog.All.bind (insertsNone_of_queries (getTransactionByHash_queries ..)) fun _ => ?_
    split
    · exact updateRow_insertsNone _
    · exact speedUp_insertsNone

theorem processRow_insertsNone : (processRow cfg row).All Cmd.InsertsNone := by
  rw [processRow]
  split
  · exact updateRow_insertsNone _
  · refine Prog.All.bind (Prog.All.tryCatch ?_ fun _ => trivial) fun receipt => ?_
    · refine Prog.All.bind ?_ fun _ => trivial
      exact insertsNone_of_queries (getTransactionReceipt_queries ..)
    · split
      · trivial
      · exact settle_insertsNone _
      · exact checkStuck_insertsNone _

theorem processRows_insertsNone (rows : List SigningRequest) :
    (processRows cfg rows).All Cmd.InsertsNone := by
  induction rows with
  | nil => trivial
  | cons row rest ih =>
    exact Prog.All.bind (Prog.All.tryCatch processRow_insertsNone fun _ => trivial) fun _ => ih

theorem monitor_insertsNone (cycles : Nat) : (monitor cfg cycles).All Cmd.InsertsNone := by
  induction cycles with
  | zero => trivial
  | succ cycles ih =>
    refine Prog.All.bind (Prog.All.bind ?_ fun rows => processRows_insertsNone rows) fun _ => ih
    exact Prog.All.tryCatch (Prog.All.perform trivial) fun _ => trivial

end Monitor

/-! ### Commands that can be answered -/

section Attains

variable {cfg : Config}

theorem attains_now {w : World} : Attains (services cfg) .any Js.now w (.ok w.clock) w := by
  have hexec : (services cfg).exec .now Sample.run w = some (.ok w.clock, w) := rfl
  exact .perform trivial hexec

/-- A statement is executed and answered. -/
theorem attains_sql {statement : Sql} {w : World} {value : statement.Reply} {t : Tables}
    (id : Uuid) (hfresh : statement.isFresh id w.tables = true)
    (h : statement.exec id w.clock w.tables = (.ok value, t)) :
    Attains (services cfg) .any (Js.sql statement) w (.ok value) { w with tables := t } := by
  have hexec : (services cfg).exec (.sql statement) (.done id) w =
      some (.ok value, { w with tables := t }) := by
    change (if statement.isFresh id w.tables then _ else none) = _
    rw [if_pos hfresh, h]
    rfl
  exact .perform trivial hexec

end Attains

/-! ### Statements that are answered -/

/-- A statement that is answered ran. -/
theorem exec_sql_ok {statement : Sql} {choice : Choice} {w w' : World} {value : statement.Reply}
    (h : exec (.sql statement) choice w = some (.ok value, w')) :
    ∃ id t, statement.exec id w.clock w.tables = (.ok value, t) ∧ w' = { w with tables := t } := by
  rcases exec_sql h with ⟨id, _, hw, ⟨_, hreply⟩ | ⟨_, _, _, hreply⟩⟩ | ⟨_, _, _, hreply, _⟩
  · exact ⟨id, _, Prod.ext hreply.symm rfl, hw⟩
  · cases hreply
  · cases hreply

theorem withUuid_cases {α : Type} (s : Text) (t : Tables) (k : Uuid → Answer α) :
    (∃ u, Uuid.ofText s = some u ∧ withUuid s t k = k u) ∨
      ∃ error, withUuid s t k = (.error error, t) := by
  simp only [withUuid]
  split
  · rename_i u hu
    exact .inl ⟨u, hu, rfl⟩
  · exact .inr ⟨_, rfl⟩

theorem withOptionUuid_cases {α : Type} (s : Option Text) (t : Tables)
    (k : Option Uuid → Answer α) :
    (∃ u, withOptionUuid s t k = k u) ∨ ∃ error, withOptionUuid s t k = (.error error, t) := by
  cases s with
  | none => exact .inl ⟨none, rfl⟩
  | some s =>
    rcases withUuid_cases s t (fun u => k (some u)) with ⟨u, _, heq⟩ | ⟨error, heq⟩
    · exact .inl ⟨some u, heq⟩
    · exact .inr ⟨error, heq⟩

theorem withUuid_eq_ok {α : Type} {s : Text} {t t' : Tables} {k : Uuid → Answer α} {value : α}
    (h : withUuid s t k = (.ok value, t')) :
    ∃ u, Uuid.ofText s = some u ∧ k u = (.ok value, t') := by
  simp only [withUuid] at h
  split at h
  · exact ⟨_, ‹_›, h⟩
  · cases h

theorem withOptionUuid_eq_ok {α : Type} {s : Option Text} {t t' : Tables}
    {k : Option Uuid → Answer α} {value : α} (h : withOptionUuid s t k = (.ok value, t')) :
    k (s.bind Uuid.ofText) = (.ok value, t') := by
  cases s with
  | none => exact h
  | some s =>
    obtain ⟨u, hu, h⟩ := withUuid_eq_ok h
    rw [Option.bind_some, hu]
    exact h

section Returns

variable {cfg : Config} {α : Type} {P : α → World → Prop} {w : World}

theorem returns_sql_bind {statement : Sql} {f : statement.Reply → Js α}
    (h : ∀ id value t, statement.exec id w.clock w.tables = (.ok value, t) →
      Returns (services cfg) .any P (f value) { w with tables := t }) :
    Returns (services cfg) .any P (Js.sql statement >>= f) w := by
  refine Returns.bind (P := fun value w' => ∃ id t,
    statement.exec id w.clock w.tables = (.ok value, t) ∧ w' = { w with tables := t }) ?_ ?_
  · exact Returns.perform fun choice value w' _ hexec => exec_sql_ok hexec
  · rintro value w' ⟨id, t, hanswer, rfl⟩
    exact h id value t hanswer

/-- Commands that write nothing leave the tables as they are. -/
theorem returns_tables_bind {β : Type} {p : Js β} {f : β → Js α}
    (hp : p.All fun command => command.writes = none)
    (h : ∀ value w', w'.tables = w.tables → Returns (services cfg) .any P (f value) w') :
    Returns (services cfg) .any P (p >>= f) w := by
  refine Returns.bind (P := fun _ w' => w'.tables = w.tables) ?_ h
  intro history
  refine (Meets.of_all (J := fun w' _ => w'.tables = w.tables) ?_ rfl).mono
    fun _ _ _ hw _ _ => hw
  refine hp.mono fun command hnone choice reply s s' _ hs _ hexec => ?_
  have hagree := exec_agree hexec
  rw [hnone] at hagree
  exact hagree.eq.trans hs

end Returns

end BrokeTurnkey
