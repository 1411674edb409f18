import AxelarRelayer.Lib.Retry
import AxelarRelayer.Task.TxSender

/-!
# `RetryingHttpSender`

Every RPC request of the relayer goes through this sender, which makes it again after
certain errors. It decides by the kind of the error; `send_tx` behind it decides by the
transaction error that the error carries, whatever its kind.
-/

namespace AxelarRelayer.Http

open AxelarRelayer AxelarRelayer.Task

variable {Value : Type}

/-! ## What the client may answer -/

/-- `RpcResponseErrorData`. -/
inductive RpcResponseErrorData where
  | empty
  | sendTransactionPreflightFailure (result : RpcSimulateTransactionResult)
  | nodeUnhealthy (numSlotsBehind : Option UInt64)
deriving DecidableEq

/-- `RpcError`. -/
inductive RpcError where
  | rpcRequestError (text : String)
  | rpcResponseError (code : Int) (message : String) (data : RpcResponseErrorData)
  | parseError (text : String)
  | forUser (text : String)
deriving DecidableEq

/-- `ClientErrorKind`; of what other libraries report only the text is kept. -/
inductive ClientErrorKind where
  | io (text : String)
  | reqwest (text : String)
  | middleware (text : String)
  | rpcError (error : RpcError)
  | serdeJson (text : String)
  | signingError (text : String)
  | transactionError (error : TransactionError)
  | custom (text : String)
deriving DecidableEq

/-- `get_transaction_error`. -/
def ClientErrorKind.getTransactionError : ClientErrorKind → Option TransactionError
  | .rpcError (.rpcResponseError _ _ (.sendTransactionPreflightFailure result)) => result.err
  | .transactionError error => some error
  | _ => none

/-- `ClientError`, less the request it is about. -/
structure ClientError where
  kind : ClientErrorKind
deriving DecidableEq

def ClientError.getTransactionError (error : ClientError) : Option TransactionError :=
  error.kind.getTransactionError

/-- What `send_tx` looks at. -/
def ClientError.seen (display : ClientError → String) (error : ClientError) : Task.ClientError :=
  ⟨display error, error.getTransactionError⟩

/-! ## The sender -/

/-- The `match` of `send_internal`: which errors are worth another request. -/
def classify (error : ClientError) : Retry.Failure ClientError :=
  match error.kind with
  -- networking-io related errors, and cases where the node may need some catch-up time
  | .io _ | .reqwest _ | .serdeJson _ | .rpcError _ => .transient error
  -- fail instantly on other errors
  | .signingError _ | .transactionError _ | .custom _ => .permanent error
  | .middleware _ => .permanent error

/-- `send_internal`, given how the request ends. -/
def sendInternal (outcome : Except ClientError Value) : Except (Retry.Failure ClientError) Value :=
  outcome.mapError classify

/--
`send`, given how every request ends and how many retries the time admits; next to the
result, how many requests were made.
-/
def send (outcomes : Nat → Except ClientError Value) (retries : Nat) :
    Except ClientError Value × Nat :=
  Retry.retry (fun n => sendInternal (outcomes n)) retries 0

end AxelarRelayer.Http
