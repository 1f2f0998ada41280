import BrokeTurnkey.WalletService
import BrokeTurnkey.Monitor

/-!
# The running services

The system of all service calls over one world: a pool of threads, each the
call of one service method, and the threads they leave running in the
background.
-/

namespace BrokeTurnkey

open Interaction

/-- What a thread returns. -/
inductive Outcome where
  | signResult (result : SignResult)
  | derived (wallet : DerivedWallet)
  | onboarded (result : Onboarded)
  | done

def Job.start (cfg : Config) : Job → Js Outcome
  | .syncNonce walletId chainId walletAddress => do
    BrokeTurnkey.syncNonce cfg walletId chainId walletAddress
    return .done

def spawns (cfg : Config) : Cmd → List (Js Outcome)
  | .fork job => [job.start cfg]
  | _ => []

/-- The services under one configuration. -/
def services (cfg : Config) : System Cmd Cmd.Reply JsError Outcome World Choice Event where
  exec := exec
  spawns := spawns cfg
  env := fun event w => w.event event

abbrev ServicePool := Pool Cmd Cmd.Reply JsError Outcome World Choice

abbrev ServiceEntry := Entry Cmd Choice

/-- The parameters of one `requestSign` call. -/
structure SignCall where
  orgId : Text
  walletId : Text
  req : SignRequest
deriving DecidableEq

def SignCall.start (cfg : Config) (call : SignCall) : Js Outcome := do
  let result ← WalletService.requestSign cfg call.orgId call.walletId call.req
  return .signResult result

/-- The calls started together on a world. -/
def SignCall.pool (cfg : Config) (calls : List SignCall) (w : World) : ServicePool where
  state := w
  threads := calls.map (SignCall.start cfg)
  history := []

/-- One request after the other; an exception is the answer to its request. -/
def client (cfg : Config) : List SignCall → Js Outcome
  | [] => return .done
  | call :: rest => do
    let _ ← tryCatch (call.start cfg) fun _ => return .done
    client cfg rest

/-- One poll cycle after the other. -/
def monitor (cfg : Config) : Nat → Js Outcome
  | 0 => return .done
  | cycles + 1 => do
    Monitor.poll cfg
    monitor cfg cycles

/-- The transaction with which `broadcastTransaction` is entered. -/
def Cmd.handed : Cmd → Option RawTx
  | .log (.broadcasting rawTx _) => some rawTx
  | _ => none

/-- The thread has entered `broadcastTransaction` with this transaction. -/
def HandedBy (history : List ServiceEntry) (i : Nat) (rawTx : RawTx) : Prop :=
  ∃ entry ∈ history, entry.thread = i ∧ entry.command.handed = some rawTx

instance (history : List ServiceEntry) (i : Nat) (rawTx : RawTx) :
    Decidable (HandedBy history i rawTx) :=
  inferInstanceAs (Decidable (∃ entry ∈ history, entry.thread = i ∧ entry.command.handed = some rawTx))

/-- The statement reached the database. -/
def Choice.ran : Choice → Bool
  | .reject _ => false
  | _ => true

/-- The statement ran and its answer was lost. -/
def Choice.isLost : Choice → Bool
  | .lost _ _ => true
  | _ => false

/-- A provider took the transaction. -/
def Choice.accepted : Choice → Bool
  | .fetched _ accepted => accepted
  | _ => false

/-- What a provider answered, where it is a result. -/
def Choice.result : Choice → Option RpcResult
  | .fetched (.ok (.result value)) _ => some value
  | _ => none

/-- The row that a command resets to pending. -/
def Cmd.resets : Cmd → Option Uuid
  | .sql (.requestUpdate id fields) => if fields.status = some .pending then some id else none
  | _ => none

/-! ### What an answered command did -/

/-- A statement runs and answers, runs and loses its answer, or leaves no trace. -/
theorem exec_sql {statement : Sql} {choice : Choice} {w w' : World}
    {reply : Except JsError statement.Reply}
    (h : exec (.sql statement) choice w = some (reply, w')) :
    (∃ id, statement.isFresh id w.tables = true ∧
      w' = { w with tables := (statement.exec id w.clock w.tables).2 } ∧
      ((choice = .done id ∧ reply = (statement.exec id w.clock w.tables).1) ∨
        ∃ error, choice = .lost id error ∧ error.code ≠ some uniqueViolation ∧
          reply = .error error)) ∨
    (∃ error, choice = .reject error ∧ error.code ≠ some uniqueViolation ∧
      reply = .error error ∧ w' = w) := by
  cases choice with
  | done id =>
    simp only [exec] at h
    split at h
    · rename_i hfresh
      cases h
      exact .inl ⟨id, hfresh, rfl, .inl ⟨rfl, rfl⟩⟩
    · cases h
  | lost id error =>
    simp only [exec] at h
    split at h
    · rename_i hcond
      cases h
      exact .inl ⟨id, hcond.1, rfl, .inr ⟨error, rfl, hcond.2, rfl⟩⟩
    · cases h
  | reject error =>
    simp only [exec] at h
    split at h
    · rename_i hcode
      cases h
      exact .inr ⟨error, rfl, hcode, rfl, rfl⟩
    · cases h
  | fetched outcome accepted => cases h
  | created response => cases h
  | derived response => cases h
  | signed signature txHash => cases h

theorem exec_fetch {rpcUrl : Text} {request : RpcRequest} {choice : Choice} {w w' : World}
    {reply : Except JsError HttpReply}
    (h : exec (.fetch rpcUrl request) choice w = some (reply, w')) :
    ∃ accepted, choice = .fetched reply accepted ∧ w' = w.accept accepted request := by
  cases choice with
  | fetched outcome accepted =>
    cases h
    exact ⟨accepted, rfl, rfl⟩
  | done id => cases h
  | reject error => cases h
  | lost id error => cases h
  | created response => cases h
  | derived response => cases h
  | signed signature txHash => cases h

theorem exec_sidecar {request : SidecarRequest} {choice : Choice} {w w' : World}
    {reply : Except JsError request.Reply}
    (h : exec (.sidecar request) choice w = some (reply, w')) :
    request.exec choice = some reply ∧ w' = w := by
  have hmap : (request.exec choice).map (fun reply => (reply, w)) = some (reply, w') := by
    cases choice <;> exact h
  rw [Option.map_eq_some_iff] at hmap
  obtain ⟨answer, hexec, heq⟩ := hmap
  cases heq
  exact ⟨hexec, rfl⟩

/-- What comes back signed is what was sent. -/
theorem exec_signTransaction {wallet origin : Uuid} {key : KeyMaterial} {txFields : TxFields}
    {choice : Choice} {w w' : World} {result : SignTransactionResult}
    (h : exec (.sidecar (.signTransaction wallet origin key txFields)) choice w =
      some (.ok result, w')) :
    result.rawTx.origin = origin ∧ result.rawTx.fields = txFields := by
  have hexec := (exec_sidecar h).1
  cases choice with
  | signed signature txHash => cases hexec; exact ⟨rfl, rfl⟩
  | _ => cases hexec

/-- Commands that only read the clock, log or fork leave the world alone. -/
def Cmd.isLocal : Cmd → Bool
  | .now | .log _ | .fork _ => true
  | _ => false

theorem exec_local {command : Cmd} (hlocal : command.isLocal = true) {choice : Choice}
    {w w' : World} {reply : Except JsError command.Reply}
    (h : exec command choice w = some (reply, w')) : reply.isOk = true ∧ w' = w := by
  cases command with
  | sql statement => cases hlocal
  | fetch rpcUrl request => cases hlocal
  | sidecar request => cases hlocal
  | now =>
    cases choice with
    | done id => cases h; exact ⟨rfl, rfl⟩
    | _ => cases h
  | log line =>
    cases choice with
    | done id => cases h; exact ⟨rfl, rfl⟩
    | _ => cases h
  | fork job =>
    cases choice with
    | done id => cases h; exact ⟨rfl, rfl⟩
    | _ => cases h

/-- The clock is read as it stands. -/
theorem exec_now {choice : Choice} {w w' : World} {reply : Except JsError Int}
    (h : exec .now choice w = some (reply, w')) : reply = .ok w.clock ∧ w' = w := by
  cases choice with
  | done id => cases h; exact ⟨rfl, rfl⟩
  | _ => cases h

/-! ### A small deployment

One org with one wallet, one policy that lets everything pass and one provider,
to run the services on. -/

namespace Sample

def org : Uuid := ⟨List.replicate 16 0xaa, rfl⟩

def wallet : Uuid := ⟨List.replicate 16 0xbb, rfl⟩

def policy : Uuid := ⟨List.replicate 16 0xcc, rfl⟩

/-- Ids for inserted rows. -/
def freshId (n : UInt8) : Uuid := ⟨List.replicate 16 n, rfl⟩

def config : Config where
  rpcUrls := fun _ => some ["https://rpc".toList]
  sha256 := id
  parseDate := fun _ => none
  stuckThresholdMs := 1000
  maxSpeedUpAttempts := 3
  multiplierNumerator := 120

def walletRow : Wallet where
  id := wallet
  orgId := org
  userId := none
  label := none
  address := "0xwallet".toList
  derivationPath := "m/44'/60'/0'/0/0".toList
  chainId := 1

def policyRow : Policy where
  id := policy
  orgId := org
  name := "no blocked address".toList
  ruleType := .addressBlocklist
  ruleConfig := .obj [("addresses".toList, .arr [])]
  appliesTo := .all
  targetId := none
  priority := 0
  status := .active

def world : World where
  tables :=
    { seeds := [⟨org, "seed".toList, "nonce".toList, "dek".toList⟩]
      users := []
      wallets := [walletRow]
      requests := []
      nonces := fun _ _ => none
      policies := [policyRow]
      auditLog := []
      uniqueViolationError := wrappedViolation }
  live := []
  clock := 0

/-- The deployment with a driver that shows the code of the database. -/
def exposing (w : World) : World :=
  { w with tables := { w.tables with uniqueViolationError := exposedViolation } }

/-- A transfer of `value` wei. -/
def transfer (value : Text) : SignCall where
  orgId := org.toText
  walletId := wallet.toText
  req := { chainId := 1, toAddr := "0xto".toList, value, data := "0x".toList }

/-- The statement runs. -/
def run : Choice := .done (freshId 0)

/-- The provider answers. -/
def answer (result : RpcResult) : Choice := .fetched (.ok (.result result)) false

/-- Steps 1 to 4 of a call that finds no row for its key or a failed one. -/
def untilFees : List Choice :=
  [run, run, run, run, run, run, answer (.quantity 21000), answer (.feeHistory [7] [[1]])]

/-- Steps 6 to 8, with what the sidecar returns. -/
def signs (signature txHash : Text) : List Choice := [run, run, .signed signature txHash, run, run]

/-- The transaction of `transfer value`, signed for the request with a fresh id. -/
def sent (id : UInt8) (value : String) (nonce : Int) (signature : String) : RawTx where
  origin := freshId id
  fields :=
    { chainId := 1, nonce, toAddr := "0xto".toList, value := value.toList, gasLimit := 25200,
      maxFeePerGas := "15".toList, maxPriorityFeePerGas := "1".toList, data := "0x".toList }
  signature := signature.toList

/-- The provider takes the transaction and says so. -/
def accepts : Choice := .fetched (.ok (.result (.hash "hash".toList))) true

/-- The call has ended with an exception. -/
def isRejected : Js Outcome → Bool
  | .throw _ => true
  | _ => false

/-- The moves of one thread. -/
def moves (i : Nat) (choices : List Choice) : List (Move Choice Event) :=
  choices.map (Move.thread i)

/-- A request goes through, and its transaction is due to be looked at. -/
def submitted : List (Move Choice Event) :=
  moves 0 (untilFees ++ .done (freshId 1) :: signs "s".toList "0x1".toList ++
    [run, accepts, run, run, run]) ++
  [.env (.tick 2000)]

/-- The cycle finds the row stuck, and the provider takes the replacement. -/
def replaces (signature txHash : String) : List Choice :=
  [answer .null, run, answer .transaction, run, run, answer (.quantity 21000),
    answer (.feeHistory [7] [[1]]), .signed signature.toList txHash.toList, run, accepts, run, run,
    run]

end Sample

end BrokeTurnkey
