import BrokeTurnkey.Commands

/-!
# The gas service

`libs/gas/src`: fee estimation, the nonce calls, and the RPC helper with its two
nested loops.  Within one attempt the providers of a chain are tried in order
and the first answer wins; an attempt fails with the error of its last provider,
and only an error classified as permanent ends the attempts before the third.
-/

namespace BrokeTurnkey

open Interaction

/-- What the services are configured with.  `sha256` is the hexadecimal digest
    and `parseDate` the `Date` constructor of the runtime. -/
structure Config where
  /-- `ChainService.getRpcUrls`, `none` for a chain that is not registered -/
  rpcUrls : Nat → Option (List Text)
  sha256 : Text → Text
  parseDate : Text → Option Int
  stuckThresholdMs : Int
  maxSpeedUpAttempts : Int
  /-- `Math.round(gasBumpMultiplier * 100)` -/
  multiplierNumerator : Int

/-- `BigInt(s)` for a string. -/
def bigInt (s : Text) : Option Int :=
  match Text.trim s with
  | [] => some 0
  | '0' :: 'x' :: digits | '0' :: 'X' :: digits => (Text.parseRadix 16 digits).map Int.ofNat
  | '0' :: 'o' :: digits | '0' :: 'O' :: digits => (Text.parseRadix 8 digits).map Int.ofNat
  | '0' :: 'b' :: digits | '0' :: 'B' :: digits => (Text.parseRadix 2 digits).map Int.ofNat
  | '-' :: digits => (Text.parseDecimal digits).map fun n => -(n : Int)
  | '+' :: digits => (Text.parseDecimal digits).map Int.ofNat
  | digits => (Text.parseDecimal digits).map Int.ofNat

/-- `BigInt` reads decimal digits as the number they spell. -/
theorem bigInt_of_parseDecimal {s : Text} {n : Nat} (h : Text.parseDecimal s = some n) :
    bigInt s = some (n : Int) := by
  obtain ⟨hne, hdigits⟩ := Text.parseDecimal_eq_some h
  have htrim : Text.trim s = s :=
    Text.trim_eq
      (fun c hc => Text.isWhiteSpace_of_isDigit (hdigits c (List.mem_of_mem_head? hc)))
      fun c hc => Text.isWhiteSpace_of_isDigit (hdigits c (List.mem_of_getLast? hc))
  have hread : (Text.parseDecimal s).map Int.ofNat = some (n : Int) := by simp [h]
  rw [bigInt, htrim]
  split
  · exact absurd rfl hne
  · exact absurd (hdigits 'x' (by simp)) (by decide)
  · exact absurd (hdigits 'X' (by simp)) (by decide)
  · exact absurd (hdigits 'o' (by simp)) (by decide)
  · exact absurd (hdigits 'O' (by simp)) (by decide)
  · exact absurd (hdigits 'b' (by simp)) (by decide)
  · exact absurd (hdigits 'B' (by simp)) (by decide)
  · exact absurd (hdigits '-' (by simp)) (by decide)
  · exact absurd (hdigits '+' (by simp)) (by decide)
  · exact hread

/-- A printed integer is read back. -/
@[simp] theorem bigInt_decimalInt (n : Int) : bigInt (Text.decimalInt n) = some n := by
  cases n with
  | ofNat n => exact bigInt_of_parseDecimal (Text.parseDecimal_decimal n)
  | negSucc n =>
    have htrim : Text.trim ('-' :: Text.decimal (n + 1)) = '-' :: Text.decimal (n + 1) := by
      obtain ⟨hne, hdigits⟩ := Text.parseDecimal_eq_some (Text.parseDecimal_decimal (n + 1))
      apply Text.trim_eq
      · intro c hc
        simp only [List.head?_cons, Option.mem_def, Option.some.injEq] at hc
        rw [← hc]
        decide
      · intro c hc
        rw [List.getLast?_cons, List.getLast?_eq_some_getLast hne, Option.getD_some] at hc
        rw [Option.mem_def, Option.some.injEq] at hc
        exact Text.isWhiteSpace_of_isDigit (hdigits c (hc ▸ List.getLast_mem hne))
    rw [Text.decimalInt, bigInt, htrim]
    simp [Text.parseDecimal_decimal, Int.negSucc_eq]

def syntaxError : JsError := .error "Cannot convert to a BigInt".toList

def typeError : JsError := .error "Cannot read properties of undefined".toList

/-! ### Error classification -/

def retryableMarks : List Text :=
  ["timeout", "network", "econnrefused", "eai_again", "socket hang up"].map String.toList

def permanentMarks : List Text :=
  ["insufficient funds", "nonce too low", "nonce too high",
    "replacement transaction underpriced", "already known", "intrinsic gas too low"].map
      String.toList

def classifyError (error : JsError) : ErrorType :=
  let message := Text.lower error.message
  if retryableMarks.any fun mark => Text.includes message mark then .retryable
  else if permanentMarks.any fun mark => Text.includes message mark then .permanent
  else .unknown

/-! ### RPC calls with retry and failover -/

/-- One request to one provider. -/
def callProvider (request : RpcRequest) (rpcUrl : Text) : Js RpcResult := do
  let reply ← Js.fetch rpcUrl request
  match reply with
  | .notOk status statusText =>
    throw (JsError.error ("RPC HTTP error: ".toList ++ Text.decimal status ++ " ".toList ++ statusText))
  | .rpcError message =>
    throw (JsError.error ("RPC error [".toList ++ request.method ++ "]: ".toList ++ message))
  | .result value => return value

/-- Try each RPC URL in order. -/
def tryProviders (request : RpcRequest) : List Text → Js RpcResult
  | [] => throw (JsError.error "All RPC providers failed".toList)
  | [rpcUrl] => callProvider request rpcUrl
  | rpcUrl :: rest =>
    tryCatch (callProvider request rpcUrl) fun _ => tryProviders request rest

def rpcCall (cfg : Config) (request : RpcRequest) (chainId : Nat) : Js RpcResult :=
  match cfg.rpcUrls chainId with
  | none => throw (JsError.error ("Unsupported chain ID: ".toList ++ Text.decimal chainId))
  | some rpcUrls => tryProviders request rpcUrls

/-- The attempts that are left, and the error of the one before them. -/
def rpcAttempts (cfg : Config) (request : RpcRequest) (chainId : Nat) :
    Nat → JsError → Js RpcResult
  | 0, lastError => throw lastError
  | attempts + 1, _ =>
    tryCatch (rpcCall cfg request chainId) fun error =>
      if classifyError error = .permanent then throw error
      else rpcAttempts cfg request chainId attempts error

def maxRetries : Nat := 3

def rpcCallWithRetry (cfg : Config) (request : RpcRequest) (chainId : Nat) : Js RpcResult :=
  rpcAttempts cfg request chainId maxRetries typeError

/-! ### Fee estimation -/

structure FeeEstimate where
  gasLimit : Int
  maxFeePerGas : Text
  maxPriorityFeePerGas : Text
deriving DecidableEq

def estimateGas (cfg : Config) (toAddr value data : Text) (chainId : Nat)
    (sender : Option Text) : Js Int := do
  match bigInt value with
  | none => throw syntaxError
  | some amount =>
    match ← rpcCallWithRetry cfg (.estimateGas toAddr amount data sender) chainId with
    -- a 20% buffer
    | .quantity estimated => return (estimated * 120).tdiv 100
    | _ => throw syntaxError

/-- Twice the next base fee plus the median tip of the sampled blocks, and that tip. -/
def feeData (baseFeePerGas : List Int) (reward : List (List Int)) : Option (Int × Int) :=
  match baseFeePerGas.getLast?, reward.mapM List.head? with
  | some baseFee, some tips =>
    (tips.insertionSort (· ≤ ·))[tips.length / 2]?.map fun medianTip =>
      (baseFee * 2 + medianTip, medianTip)
  | _, _ => none

def fetchFeeData (cfg : Config) (chainId : Nat) : Js (Int × Int) := do
  match ← rpcCallWithRetry cfg .feeHistory chainId with
  | .feeHistory baseFeePerGas reward =>
    match feeData baseFeePerGas reward with
    | some fees => return fees
    | none => throw typeError
  | _ => throw typeError

def estimateFees (cfg : Config) (toAddr value data : Text) (chainId : Nat)
    (sender : Option Text) : Js FeeEstimate := do
  let gasLimit ← estimateGas cfg toAddr value data chainId sender
  let (maxFeePerGas, maxPriorityFeePerGas) ← fetchFeeData cfg chainId
  return ⟨gasLimit, Text.decimalInt maxFeePerGas, Text.decimalInt maxPriorityFeePerGas⟩

/-! ### Nonces -/

def reserveNonce (walletId : Text) (chainId : Nat) : Js Int :=
  Js.sql (.nonceReserve walletId chainId)

def releaseNonce (walletId : Text) (chainId : Nat) (nonce : Int) : Js Bool :=
  Js.sql (.nonceRelease walletId chainId nonce)

def syncNonce (cfg : Config) (walletId : Text) (chainId : Nat) (walletAddress : Text) :
    Js Unit := do
  let chainNonce := match ← rpcCallWithRetry cfg (.getTransactionCount walletAddress) chainId with
    | .quantity n => some n
    | _ => none
  Js.sql (.nonceSyncFromChain walletId chainId chainNonce)

/-! ### Broadcast and lookups -/

def broadcastTransaction (cfg : Config) (rawTx : RawTx) (chainId : Nat) : Js RpcResult := do
  Js.log (.broadcasting rawTx chainId)
  rpcCallWithRetry cfg (.sendRawTransaction rawTx) chainId

def getTransactionReceipt (cfg : Config) (txHash : Text) (chainId : Nat) :
    Js (Option TransactionReceipt) := do
  match ← rpcCallWithRetry cfg (.getTransactionReceipt txHash) chainId with
  | .null => return none
  | .receipt receipt => return some receipt
  | _ => return some ⟨[], 0, none, none, none⟩

/-- Whether the transaction was found. -/
def getTransactionByHash (cfg : Config) (txHash : Text) (chainId : Nat) : Js Bool := do
  match ← rpcCallWithRetry cfg (.getTransactionByHash txHash) chainId with
  | .null => return false
  | _ => return true

end BrokeTurnkey
