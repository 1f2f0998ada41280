import BrokeTurnkey.Repositories
import BrokeTurnkey.Interaction.Pool

/-!
# What the services do to the outside

A service method is an interaction program whose commands are the awaited calls
that leave the process: one SQL statement, one HTTP request to an RPC provider,
one request to the signing sidecar, a look at the clock, a logger line, or a
promise that is started and not awaited.  `World` is what these commands act on
and `exec` is how.

The environment decides what the code does not: whether a statement or request
is answered at all, what a provider or the sidecar answers, and whether a
provider took the transaction it was sent, which is independent of its answer.
-/

namespace BrokeTurnkey

open Interaction

/-! ### RPC providers -/

/-- A signed serialised transaction, given by what it decodes to. `origin` is the
    signing request it was signed for, which is not part of the bytes. -/
structure RawTx where
  origin : Uuid
  fields : TxFields
  signature : Text
deriving DecidableEq

/-- The JSON-RPC methods in use, with their parameters. -/
inductive RpcRequest where
  | estimateGas (toAddr : Text) (value : Int) (data : Text) (sender : Option Text)
  | feeHistory
  | sendRawTransaction (rawTx : RawTx)
  | getTransactionReceipt (txHash : Text)
  | getTransactionByHash (txHash : Text)
  | getTransactionCount (address : Text)
deriving DecidableEq

def RpcRequest.method : RpcRequest → Text
  | .estimateGas _ _ _ _ => "eth_estimateGas".toList
  | .feeHistory => "eth_feeHistory".toList
  | .sendRawTransaction _ => "eth_sendRawTransaction".toList
  | .getTransactionReceipt _ => "eth_getTransactionReceipt".toList
  | .getTransactionByHash _ => "eth_getTransactionByHash".toList
  | .getTransactionCount _ => "eth_getTransactionCount".toList

/-- `status` is `none` where the reply has none, the `NaN` of the source; the block number
    is a quantity. -/
structure TransactionReceipt where
  transactionHash : Text
  blockNumber : Nat
  status : Option Int
  gasUsed : Option Text
  effectiveGasPrice : Option Text
deriving DecidableEq

/-- The `result` member of a JSON-RPC reply. -/
inductive RpcResult where
  | null
  | quantity (n : Int)
  | hash (h : Text)
  | feeHistory (baseFeePerGas : List Int) (reward : List (List Int))
  | receipt (r : TransactionReceipt)
  | transaction
deriving DecidableEq

/-- The HTTP replies a provider may give. -/
inductive HttpReply where
  | notOk (status : Nat) (statusText : Text)
  | rpcError (message : Text)
  | result (value : RpcResult)
deriving DecidableEq

/-! ### The signing sidecar -/

structure CreateWalletResponse where
  encryptedSeed : Text
  seedNonce : Text
  encryptedDek : Text
  firstAddress : Text
deriving DecidableEq

structure DeriveWalletResponse where
  address : Text
  derivationPath : Text
deriving DecidableEq

structure SignTransactionResult where
  signature : Text
  txHash : Text
  rawTx : RawTx
deriving DecidableEq

/-- The ciphertexts and path that name a key to the sidecar. -/
structure KeyMaterial where
  encryptedSeed : Text
  seedNonce : Text
  encryptedDek : Text
  derivationPath : Text
deriving DecidableEq

/-- The requests of `CryptoClientService`.  `wallet` and `origin` say on whose
    behalf a transaction is signed; the sidecar is not told. -/
inductive SidecarRequest where
  | createWallet
  | deriveWallet (encryptedSeed seedNonce encryptedDek : Text) (derivIndex : Nat)
  | signTransaction (wallet origin : Uuid) (key : KeyMaterial) (txFields : TxFields)
deriving DecidableEq

def SidecarRequest.Reply : SidecarRequest → Type
  | .createWallet => CreateWalletResponse
  | .deriveWallet _ _ _ _ => DeriveWalletResponse
  | .signTransaction _ _ _ _ => SignTransactionResult

/-! ### Commands -/

/-- The logger lines that mark a point a property speaks about. -/
inductive LogLine where
  /-- the line `broadcastTransaction` opens with -/
  | broadcasting (rawTx : RawTx) (chainId : Nat)

/-- A promise that is started and not awaited. -/
inductive Job where
  | syncNonce (walletId : Text) (chainId : Nat) (walletAddress : Text)

inductive Cmd where
  | sql (statement : Sql)
  | fetch (rpcUrl : Text) (request : RpcRequest)
  | sidecar (request : SidecarRequest)
  | now
  | log (line : LogLine)
  | fork (job : Job)

def Cmd.Reply : Cmd → Type
  | .sql statement => statement.Reply
  | .fetch _ _ => HttpReply
  | .sidecar request => request.Reply
  | .now => Int
  | .log _ => Unit
  | .fork _ => Unit

/-- An asynchronous method of a service. -/
abbrev Js (α : Type) := Prog Cmd Cmd.Reply JsError α

namespace Js

def sql (statement : Sql) : Js statement.Reply := Prog.perform (Cmd.sql statement)

def fetch (rpcUrl : Text) (request : RpcRequest) : Js HttpReply :=
  Prog.perform (Cmd.fetch rpcUrl request)

def sidecar (request : SidecarRequest) : Js request.Reply := Prog.perform (Cmd.sidecar request)

/-- `new Date()`. -/
def now : Js Int := Prog.perform Cmd.now

def log (line : LogLine) : Js Unit := Prog.perform (Cmd.log line)

def fork (job : Job) : Js Unit := Prog.perform (Cmd.fork job)

end Js

/-! ### The world -/

/-- The database, the transactions of providers that can still be mined (pending
    or mined), and the clock. -/
structure World where
  tables : Tables
  live : List RawTx
  clock : Int

/-- What the environment decides about a command. -/
inductive Choice where
  /-- the statement runs; an insert gets this id -/
  | done (id : Uuid)
  /-- the statement or request does not reach the other side -/
  | reject (error : JsError)
  /-- the statement runs, but its answer is lost -/
  | lost (id : Uuid) (error : JsError)
  /-- how the provider answers, and whether it took the transaction -/
  | fetched (outcome : Except JsError HttpReply) (accepted : Bool)
  | created (response : CreateWalletResponse)
  | derived (response : DeriveWalletResponse)
  | signed (signature txHash : Text)

/-- A provider that accepts a transaction adds it to the live ones. -/
def World.accept (w : World) (accepted : Bool) : RpcRequest → World
  | .sendRawTransaction rawTx => if accepted then { w with live := rawTx :: w.live } else w
  | _ => w

/-- The sidecar answers as the environment chooses; what it signs are the fields
    it was given. -/
def SidecarRequest.exec : (request : SidecarRequest) → Choice →
    Option (Except JsError request.Reply)
  | .createWallet, .created response => some (.ok response)
  | .deriveWallet _ _ _ _, .derived response => some (.ok response)
  | .signTransaction _ origin _ txFields, .signed signature txHash =>
      some (.ok ⟨signature, txHash, ⟨origin, txFields, signature⟩⟩)
  | _, .reject error => some (.error error)
  | _, _ => none

def exec : (command : Cmd) → Choice → World → Option (Except JsError command.Reply × World)
  | .sql statement, .done id, w =>
    if statement.isFresh id w.tables then
      some ((statement.exec id w.clock w.tables).1,
        { w with tables := (statement.exec id w.clock w.tables).2 })
    else none
  | .sql statement, .lost id error, w =>
    if statement.isFresh id w.tables ∧ error.code ≠ some uniqueViolation then
      some (.error error, { w with tables := (statement.exec id w.clock w.tables).2 })
    else none
  | .sql _, .reject error, w =>
    -- a lost connection, not a uniqueness conflict
    if error.code ≠ some uniqueViolation then some (.error error, w) else none
  | .fetch _ request, .fetched outcome accepted, w => some (outcome, w.accept accepted request)
  | .sidecar request, choice, w => (request.exec choice).map fun reply => (reply, w)
  | .now, .done _, w => some (.ok w.clock, w)
  | .log _, .done _, w => some (.ok (), w)
  | .fork _, .done _, w => some (.ok (), w)
  | _, _, _ => none

/-! ### What else happens -/

inductive Event where
  | tick (duration : Nat)
  /-- transactions leave the mempool for good -/
  | evict (keep : RawTx → Bool)
  /-- policies are created, deleted and rewritten -/
  | policies (rows : List Policy)
  | newWallet (row : Wallet)
  | newSeed (row : OrganizationSeed)

def World.event (w : World) : Event → Option World
  | .tick duration => some { w with clock := w.clock + duration }
  | .evict keep => some { w with live := w.live.filter keep }
  | .policies rows => some { w with tables := { w.tables with policies := rows } }
  | .newWallet row =>
    if w.tables.wallets.all fun other => other.id ≠ row.id then
      some { w with tables := { w.tables with wallets := w.tables.wallets ++ [row] } }
    else none
  | .newSeed row =>
    if w.tables.seeds.all fun other => other.orgId ≠ row.orgId then
      some { w with tables := { w.tables with seeds := w.tables.seeds ++ [row] } }
    else none

end BrokeTurnkey
