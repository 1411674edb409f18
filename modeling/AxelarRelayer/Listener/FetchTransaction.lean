import AxelarRelayer.Basic
import AxelarRelayer.Lib.Effect
import AxelarRelayer.Lib.Retry

/-!
# `log_processor::fetch_transaction`

The answer to `getTransaction` and what the listener makes of it. The instructions
of a transaction name accounts by index: into the static keys of the message first,
then into the keys loaded from lookup tables, the writable before the readonly ones.
-/

namespace AxelarRelayer.Listener

open AxelarRelayer

/-! ## The answer of the node -/

/-- `CompiledInstruction`. -/
structure CompiledInstruction where
  programIdIndex : UInt8
  accounts : List UInt8
  data : List UInt8

/-- `VersionedMessage`, of which the static keys and the instructions are read. -/
structure VersionedMessage where
  staticAccountKeys : List Pubkey
  instructions : List CompiledInstruction

/-- `OptionSerializer`. -/
inductive OptionSerializer (α : Type) where
  | some (value : α)
  | none
  | skip

def OptionSerializer.okOrEyre {α : Type} (text : String) : OptionSerializer α → Except Report α
  | .some value => .ok value
  | _ => .error (.msg text)

/-- `UiLoadedAddresses`. -/
structure UiLoadedAddresses where
  writable : List String
  readonly : List String

/-- `UiTransactionStatusMeta`. -/
structure UiTransactionStatusMeta where
  err : Option TransactionError
  fee : Nat
  innerInstructions : OptionSerializer (List UiInnerInstructions)
  logMessages : OptionSerializer (List String)
  loadedAddresses : OptionSerializer UiLoadedAddresses

/-- `EncodedConfirmedTransactionWithStatusMeta`. -/
structure EncodedConfirmedTransactionWithStatusMeta where
  slot : Nat
  /-- the message of `transaction.decode()` -/
  message : Option VersionedMessage
  txMeta : Option UiTransactionStatusMeta
  blockTime : Option Int

/-- The crates `fetch_transaction` uses, and the answers it gets. -/
structure FetchEnv where
  /-- `Pubkey::from_str` -/
  parsePubkey : String → Except String Pubkey
  /-- `DateTime::from_timestamp`, in seconds -/
  fromTimestamp : Int → Option Int
  /-- the answer to the `n`-th request -/
  getTransaction : Nat → Except String EncodedConfirmedTransactionWithStatusMeta
  /-- how many retries fit into ten seconds -/
  retries : Nat

/-! ## Parsing it -/

/-- `accounts.get(idx)`. -/
def accountAt (accounts : List Pubkey) (idx : UInt8) : Except Report Pubkey :=
  match accounts[idx.toNat]? with
  | some account => .ok account
  | none => .error (.msg "account does not have an account at the idx")

/-- One pass of the loop over the instructions. -/
def parseInstruction (accounts : List Pubkey) (ix : CompiledInstruction) :
    Except Report ParsedIx := do
  let programId ← accountAt accounts ix.programIdIndex
  let tmpAccounts ← ix.accounts.mapM (accountAt accounts)
  return ⟨programId, tmpAccounts, ix.data⟩

def okOrEyre {α : Type} (text : String) : Option α → Except Report α
  | some value => .ok value
  | none => .error (.msg text)

/-- `if let OptionSerializer::Some(loaded)`: nothing is loaded otherwise. -/
def UiTransactionStatusMeta.loaded (txMeta : UiTransactionStatusMeta) : UiLoadedAddresses :=
  match txMeta.loadedAddresses with
  | .some loaded => loaded
  | _ => ⟨[], []⟩

variable (env : FetchEnv)

def parseKey (keyStr : String) : Except Report Pubkey := (env.parsePubkey keyStr).mapError .msg

/-- What `fetch_transaction` returns; the inner instructions are for the parser only. -/
structure FetchedTransaction where
  status : TxStatus
  innerIxs : List UiInnerInstructions
deriving DecidableEq

/-- `fetch_transaction` behind the request. -/
def parseTransaction (signature : Signature)
    (response : EncodedConfirmedTransactionWithStatusMeta) : Except Report FetchedTransaction := do
  let message ← okOrEyre "transaction decoding failed" response.message
  let accounts := message.staticAccountKeys
  let parsedIxs ← message.instructions.mapM (parseInstruction accounts)
  let txMeta ← okOrEyre "metadata not included with logs" response.txMeta
  let logs ← txMeta.logMessages.okOrEyre "logs not included"
  let innerIxs ← txMeta.innerInstructions.okOrEyre "inner instructions not included"
  -- static keys first, writable and then readonly
  let writable ← txMeta.loaded.writable.mapM (parseKey env)
  let readonly ← txMeta.loaded.readonly.mapM (parseKey env)
  let tx : SolanaTransaction := {
    signature := signature
    timestamp := response.blockTime.bind env.fromTimestamp
    logs := logs
    accountKeys := accounts ++ writable ++ readonly
    ixs := parsedIxs
    slot := response.slot
    costInLamports := txMeta.fee
  }
  return match txMeta.err with
    | some error => ⟨.failed tx error, innerIxs⟩
    | none => ⟨.successful tx, innerIxs⟩

/-- The request; every error is worth another one. -/
def requestTransaction : Except String EncodedConfirmedTransactionWithStatusMeta :=
  (Retry.retry (fun n => (env.getTransaction n).mapError .transient) env.retries 0).1

/-- `fetch_transaction`. -/
def fetchTransaction (signature : Signature) : Except Report FetchedTransaction := do
  let response ← (requestTransaction env).mapError .msg
  parseTransaction env signature response

end AxelarRelayer.Listener
