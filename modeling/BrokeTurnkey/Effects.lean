import BrokeTurnkey.Footprint

/-!
# What the services change

Every command that changes the world, or asks the sidecar for key material, has one of
three effects: it onboards an org, adds a wallet, or is part of signing.  The methods of
the services have the effects they are named for and no others, and the monitor has the
effect of signing only.  The rows of the audit log are written by all of them.
-/

namespace BrokeTurnkey

open Interaction

/-- What a command of the API changes. -/
inductive Effect where
  | onboarding
  | wallets
  | signing
  | policies
  | users
  | apiKeys
  | organizations
deriving DecidableEq, Repr

def Sql.effect : Sql → Option Effect
  | .seedCreate _ => some .onboarding
  | .walletCreate _ => some .wallets
  | .requestCreate _ | .requestUpdate _ _ => some .signing
  | .nonceReserve _ _ | .nonceRelease _ _ _ | .nonceSyncFromChain _ _ _ => some .signing
  | _ => none

def SidecarRequest.effect : SidecarRequest → Effect
  | .createWallet => .onboarding
  | .deriveWallet _ _ _ _ => .wallets
  | .signTransaction _ _ _ _ => .signing

/-- The one job of the signing services updates a nonce. -/
def Cmd.effect : Cmd → Option Effect
  | .sql statement => statement.effect
  | .fetch _ request => if request.isQuery then none else some .signing
  | .sidecar request => some request.effect
  | .fork _ => some .signing
  | .now | .log _ => none

theorem Cmd.effect_of_query {command : Cmd} (h : command.isQuery = true) :
    command.effect = none := by
  cases command with
  | sql statement =>
    have hwrites : statement.writes = none := of_decide_eq_true h
    cases statement with
    | seedCreate data => cases hwrites
    | walletCreate data => cases hwrites
    | requestCreate data => cases hwrites
    | requestUpdate id fields => cases hwrites
    | nonceReserve walletId chainId => cases hwrites
    | nonceRelease walletId chainId nonce => cases hwrites
    | nonceSyncFromChain walletId chainId chainNonce => cases hwrites
    | _ => rfl
  | fetch rpcUrl request => exact if_pos h
  | sidecar request => cases h
  | log line => cases h
  | fork job => cases h
  | now => rfl

/-- The command has no effect but these. -/
def Cmd.Affects (effects : List Effect) (command : Cmd) : Prop :=
  ∀ effect, command.effect = some effect → effect ∈ effects

namespace Cmd.Affects

variable {effects : List Effect} {command : Cmd}

theorem of_none (h : command.effect = none) : command.Affects effects := by
  intro effect heffect
  rw [h] at heffect
  cases heffect

theorem of_query (h : command.isQuery = true) : command.Affects effects :=
  of_none (effect_of_query h)

theorem of_mem {effect : Effect} (h : command.effect = some effect) (hmem : effect ∈ effects) :
    command.Affects effects := by
  intro other hother
  rw [h, Option.some.injEq] at hother
  exact hother ▸ hmem

end Cmd.Affects

section Methods

variable {effects : List Effect} {cfg : Config} {orgId walletId : Text} {α : Type}

theorem queries_affects {p : Js α} (h : Queries p) : p.All (Cmd.Affects effects) :=
  h.mono fun _ => Cmd.Affects.of_query

/-- A statement with this effect. -/
theorem sql_affects {statement : Sql} {effect : Effect} (h : statement.effect = some effect)
    (hmem : effect ∈ effects) : (Js.sql statement).All (Cmd.Affects effects) :=
  Prog.All.perform (.of_mem h hmem)

theorem audit_affects (data : NewAuditLog) :
    (Js.sql (.auditCreate data)).All (Cmd.Affects effects) :=
  Prog.All.perform (.of_none rfl)

/-! ### Onboarding and deriving -/

theorem WalletService.onBoardOrganization_affects (honboarding : .onboarding ∈ effects)
    (hwallets : .wallets ∈ effects) :
    (onBoardOrganization orgId).All (Cmd.Affects effects) := by
  refine Prog.All.bind (queries_affects (sql_queries rfl)) fun seedRow => ?_
  cases seedRow with
  | some seedRow => trivial
  | none =>
    refine Prog.All.bind (Prog.All.perform (.of_mem rfl honboarding)) fun created => ?_
    refine Prog.All.bind (sql_affects rfl honboarding) fun _ => ?_
    refine Prog.All.bind (sql_affects rfl hwallets) fun _ => ?_
    exact Prog.All.bind (audit_affects _) fun _ => trivial

theorem WalletService.deriveAttempts_affects (hwallets : .wallets ∈ effects)
    (userId : Option Text) (label : Text) (chainId : Nat) (seedRow : OrganizationSeed)
    (attempts derivIndex : Nat) :
    (deriveAttempts orgId userId label chainId seedRow attempts derivIndex).All
      (Cmd.Affects effects) := by
  induction attempts generalizing derivIndex with
  | zero => trivial
  | succ attempts ih =>
    refine Prog.All.bind (Prog.All.perform (.of_mem rfl hwallets)) fun derived => ?_
    refine Prog.All.tryCatch ?_ fun error => ?_
    · refine Prog.All.bind (sql_affects rfl hwallets) fun wallet => ?_
      exact Prog.All.bind (audit_affects _) fun _ => trivial
    · refine Prog.All.unless ?_
      refine Prog.All.unless ?_
      exact Prog.All.bind (queries_affects (sql_queries rfl)) fun derivIndex => ih derivIndex

theorem WalletService.deriveWallet_affects (hwallets : .wallets ∈ effects)
    (userId : Option Text) (label : Text) (chainId : Option Nat) :
    (deriveWallet orgId userId label chainId).All (Cmd.Affects effects) := by
  refine Prog.All.bind (queries_affects (sql_queries rfl)) fun seedRow => ?_
  cases seedRow with
  | none => trivial
  | some seedRow =>
    refine Prog.All.bind (queries_affects (checkUser_queries orgId _)) fun _ => ?_
    refine Prog.All.bind (queries_affects (sql_queries rfl)) fun derivIndex => ?_
    exact deriveAttempts_affects hwallets userId label _ seedRow _ _

/-! ### Signing -/

section Signing

variable (hsigning : .signing ∈ effects)
include hsigning

theorem broadcastTransaction_affects (rawTx : RawTx) (chainId : Nat) :
    (broadcastTransaction cfg rawTx chainId).All (Cmd.Affects effects) := by
  refine Prog.All.bind (Prog.All.perform (.of_none rfl)) fun _ => ?_
  exact rpcCallWithRetry_all (fun _ => .of_mem rfl hsigning) cfg chainId

theorem WalletService.createOrReuse_affects (req : SignRequest) (idempotencyKey : Text) :
    (createOrReuse orgId walletId req idempotencyKey).All (Cmd.Affects effects) := by
  refine Prog.All.tryCatch ?_ fun error => ?_
  · exact Prog.All.bind (sql_affects rfl hsigning) fun _ => trivial
  · refine Prog.All.unless ?_
    refine Prog.All.bind (queries_affects (sql_queries rfl)) fun raced => ?_
    split
    · trivial
    · cases raced with
      | none => trivial
      | some row => exact Prog.All.bind (sql_affects rfl hsigning) fun _ => trivial

theorem WalletService.submit_affects (req : SignRequest) (seedRow : OrganizationSeed)
    (wallet : Wallet) (idempotencyKey : Text) (fees : FeeEstimate) (id : Uuid) :
    (submit cfg orgId walletId req seedRow wallet idempotencyKey fees id).All
      (Cmd.Affects effects) := by
  refine Prog.All.bind ?_ fun txFields => Prog.All.bind ?_ fun signResult =>
    Prog.All.bind ?_ fun _ => Prog.All.bind ?_ fun _ => Prog.All.bind (audit_affects _) fun _ => ?_
  · refine Prog.All.bind (sql_affects rfl hsigning) fun nonce => ?_
    exact Prog.All.bind (sql_affects rfl hsigning) fun _ => trivial
  · refine Prog.All.tryCatch (Prog.All.perform (.of_mem rfl hsigning)) fun error => ?_
    refine Prog.All.bind (sql_affects rfl hsigning) fun _ => ?_
    exact Prog.All.bind (sql_affects rfl hsigning) fun _ => trivial
  · exact Prog.All.bind (queries_affects now_queries) fun _ => sql_affects rfl hsigning
  · refine Prog.All.tryCatch ?_ fun error => ?_
    · refine Prog.All.bind (broadcastTransaction_affects hsigning _ _) fun _ => ?_
      exact Prog.All.bind (queries_affects now_queries) fun _ => sql_affects rfl hsigning
    · refine Prog.All.bind (sql_affects rfl hsigning) fun _ => ?_
      exact Prog.All.bind (Prog.All.perform (.of_mem rfl hsigning)) fun _ => trivial
  · trivial

theorem WalletService.requestSign_affects (req : SignRequest) :
    (requestSign cfg orgId walletId req).All (Cmd.Affects effects) := by
  refine Prog.All.bind (queries_affects (loadPrerequisites_queries orgId walletId)) ?_
  rintro ⟨seedRow, wallet⟩
  refine Prog.All.bind (queries_affects (sql_queries rfl)) fun existing => ?_
  split
  · trivial
  · refine Prog.All.bind ?_ fun _ => ?_
    · exact evaluatePolicy_all (fun _ => Cmd.Affects.of_query) (fun _ _ => .of_none rfl) cfg req
    · refine Prog.All.bind (queries_affects (estimateFees_queries ..)) fun fees => ?_
      refine Prog.All.bind (createOrReuse_affects hsigning req _) fun claimed => ?_
      cases claimed with
      | existing result => trivial
      | own id => exact submit_affects hsigning req seedRow wallet _ fees id

end Signing

/-! ### The monitor -/

namespace Monitor

variable {row : SigningRequest} (hsigning : .signing ∈ effects)
include hsigning

theorem updateRow_affects (fields : SigningRequestUpdate) :
    (updateRow row fields).All (Cmd.Affects effects) := sql_affects rfl hsigning

theorem sendReplacement_affects (result : SignTransactionResult) :
    (sendReplacement cfg row result).All (Cmd.Affects effects) := by
  refine Prog.All.bind (Prog.All.tryCatch ?_ fun error => ?_) fun sent => ?_
  · refine Prog.All.bind (broadcastTransaction_affects hsigning _ _) fun value => ?_
    split
    · trivial
    · trivial
  · exact Prog.All.bind (updateRow_affects hsigning _) fun _ => trivial
  · split
    · refine Prog.All.bind (queries_affects now_queries) fun _ => ?_
      exact Prog.All.bind (queries_affects now_queries) fun _ => updateRow_affects hsigning _
    · trivial

theorem signReplacement_affects (wallet : Wallet) (seedRow : OrganizationSeed)
    (txFields : TxFields) :
    (signReplacement cfg row wallet seedRow txFields).All (Cmd.Affects effects) := by
  refine Prog.All.bind (Prog.All.tryCatch ?_ fun error => ?_) fun result => ?_
  · exact Prog.All.bind (Prog.All.perform (.of_mem rfl hsigning)) fun _ => trivial
  · exact Prog.All.bind (updateRow_affects hsigning _) fun _ => trivial
  · cases result with
    | none => trivial
    | some result => exact sendReplacement_affects hsigning result

theorem speedUp_affects : (speedUp cfg row).All (Cmd.Affects effects) := by
  rw [speedUp]
  split
  · exact updateRow_affects hsigning _
  · split
    · exact updateRow_affects hsigning _
    · refine Prog.All.bind (queries_affects (sql_queries rfl)) fun wallet => ?_
      cases wallet with
      | none => exact updateRow_affects hsigning _
      | some wallet =>
        refine Prog.All.bind (queries_affects (sql_queries rfl)) fun seedRow => ?_
        cases seedRow with
        | none => exact updateRow_affects hsigning _
        | some seedRow =>
          refine Prog.All.bind (queries_affects (rebuild_queries ..)) fun txFields => ?_
          exact signReplacement_affects hsigning wallet seedRow txFields

theorem settle_affects (receipt : TransactionReceipt) :
    (settle row receipt).All (Cmd.Affects effects) := by
  rw [settle]
  split
  · exact Prog.All.bind (queries_affects now_queries) fun now => updateRow_affects hsigning _
  · exact updateRow_affects hsigning _

theorem checkStuck_affects (txHash : Text) :
    (checkStuck cfg row txHash).All (Cmd.Affects effects) := by
  refine Prog.All.bind (queries_affects now_queries) fun now => ?_
  dsimp only
  split
  · trivial
  · refine Prog.All.bind (queries_affects (getTransactionByHash_queries ..)) fun _ => ?_
    split
    · exact updateRow_affects hsigning _
    · exact speedUp_affects hsigning

theorem processRow_affects : (processRow cfg row).All (Cmd.Affects effects) := by
  rw [processRow]
  split
  · exact updateRow_affects hsigning _
  · refine Prog.All.bind (Prog.All.tryCatch ?_ fun _ => trivial) fun receipt => ?_
    · exact Prog.All.bind (queries_affects (getTransactionReceipt_queries ..)) fun _ => trivial
    · split
      · trivial
      · exact settle_affects hsigning _
      · exact checkStuck_affects hsigning _

theorem processRows_affects (rows : List SigningRequest) :
    (processRows cfg rows).All (Cmd.Affects effects) := by
  induction rows with
  | nil => trivial
  | cons row rest ih =>
    refine Prog.All.bind (Prog.All.tryCatch (processRow_affects hsigning) fun _ => trivial) ?_
    exact fun _ => ih

theorem monitor_affects (cycles : Nat) : (monitor cfg cycles).All (Cmd.Affects effects) := by
  induction cycles with
  | zero => trivial
  | succ cycles ih =>
    refine Prog.All.bind (Prog.All.bind ?_ fun rows => processRows_affects hsigning rows) fun _ => ih
    exact Prog.All.tryCatch (queries_affects (sql_queries rfl)) fun _ => trivial

end Monitor

end Methods

end BrokeTurnkey
