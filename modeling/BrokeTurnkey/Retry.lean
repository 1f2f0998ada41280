import BrokeTurnkey.Footprint
import BrokeTurnkey.Interaction.Sequential

/-!
# Requests with retry and failover

`rpcCallWithRetry` asks the providers of a chain one after the other, and asks them
again where no error was permanent.  What is known after it follows from what one
reply does: a reply without a result keeps `J`, and a result makes `K` of it.
-/

namespace BrokeTurnkey

open Interaction

/-- What the replies to a request do to what is known of an execution. -/
structure ReplyRule (request : RpcRequest) (J : World → List ServiceEntry → Prop)
    (K : RpcResult → World → List ServiceEntry → Prop) : Prop where
  result : ∀ (rpcUrl : Text) (value : RpcResult) (accepted : Bool) (w : World)
    (history : List ServiceEntry), J w history →
    K value (w.accept accepted request)
      (⟨0, .fetch rpcUrl request, .fetched (.ok (.result value)) accepted, true⟩ :: history)
  failure : ∀ (rpcUrl : Text) (reply : Except JsError HttpReply) (accepted : Bool) (w : World)
    (history : List ServiceEntry), (∀ value, reply ≠ .ok (.result value)) → J w history →
    J (w.accept accepted request)
      (⟨0, .fetch rpcUrl request, .fetched reply accepted, reply.isOk⟩ :: history)

/-- What is known after the request. -/
def Replied (J : World → List ServiceEntry → Prop)
    (K : RpcResult → World → List ServiceEntry → Prop) :
    Except JsError RpcResult → World → List ServiceEntry → Prop
  | .ok value => K value
  | .error _ => J

namespace ReplyRule

variable {cfg : Config} {guard : Guard Cmd Choice Event World} {request : RpcRequest}
  {J : World → List ServiceEntry → Prop} {K : RpcResult → World → List ServiceEntry → Prop}
  {w : World} {history : List ServiceEntry}

theorem callProvider (rule : ReplyRule request J K) (h : J w history) (rpcUrl : Text) :
    Meets (services cfg) guard (Replied J K) (callProvider request rpcUrl) w history := by
  intro choice reply w' _ hexec
  obtain ⟨accepted, rfl, rfl⟩ := exec_fetch hexec
  cases reply with
  | error error =>
    apply rule.failure rpcUrl (.error error) accepted w history _ h
    intro value heq
    cases heq
  | ok response =>
    cases response with
    | notOk status statusText =>
      apply rule.failure rpcUrl (.ok (.notOk status statusText)) accepted w history _ h
      intro value heq
      cases heq
    | rpcError message =>
      apply rule.failure rpcUrl (.ok (.rpcError message)) accepted w history _ h
      intro value heq
      cases heq
    | result value => exact rule.result rpcUrl value accepted w history h

theorem tryProviders (rule : ReplyRule request J K) (h : J w history) (rpcUrls : List Text) :
    Meets (services cfg) guard (Replied J K) (tryProviders request rpcUrls) w history := by
  induction rpcUrls generalizing w history with
  | nil => exact h
  | cons rpcUrl rest ih =>
    cases rest with
    | nil => exact rule.callProvider h rpcUrl
    | cons next rest =>
      apply Meets.tryCatch (rule.callProvider h rpcUrl)
      · intro value w' history' hvalue
        exact hvalue
      · intro error w' history' herror
        exact ih herror

theorem rpcAttempts (rule : ReplyRule request J K) (h : J w history) (chainId attempts : Nat)
    (lastError : JsError) :
    Meets (services cfg) guard (Replied J K) (rpcAttempts cfg request chainId attempts lastError)
      w history := by
  induction attempts generalizing w history lastError with
  | zero => exact h
  | succ attempts ih =>
    apply Meets.tryCatch (P := Replied J K)
    · simp only [rpcCall]
      split
      · exact h
      · exact rule.tryProviders h _
    · intro value w' history' hvalue
      exact hvalue
    · intro error w' history' herror
      split
      · exact herror
      · exact ih herror error

theorem rpcCallWithRetry (rule : ReplyRule request J K) (h : J w history) (chainId : Nat) :
    Meets (services cfg) guard (Replied J K) (rpcCallWithRetry cfg request chainId) w history :=
  rule.rpcAttempts h chainId maxRetries typeError

end ReplyRule

end BrokeTurnkey
