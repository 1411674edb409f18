import Mathlib.Data.List.Basic
import Mathlib.Data.List.Nodup

/-!
# Keys, transactions and errors

The values every component passes around: account keys and signatures, a
transaction as `fetch_transaction` hands it on, and the error reports the
components propagate.
-/

namespace AxelarRelayer

/-- `solana_sdk::pubkey::Pubkey`. -/
structure Pubkey where
  bytes : Vector UInt8 32
deriving DecidableEq

/-- `solana_sdk::signature::Signature`. -/
structure Signature where
  bytes : Vector UInt8 64
deriving DecidableEq

/-- The signature whose bytes all equal `b`. -/
def Signature.filled (b : UInt8) : Signature := ⟨Vector.replicate 64 b⟩

theorem Signature.filled_injective : Function.Injective Signature.filled := by
  intro a b h
  have hfirst : (Signature.filled a).bytes[0] = (Signature.filled b).bytes[0] := by rw [h]
  simpa [Signature.filled] using hfirst

/-- Distinct bytes fill distinct signatures. -/
theorem Signature.nodup_filled {bytes : List UInt8} (h : bytes.Nodup) :
    (bytes.map Signature.filled).Nodup :=
  h.map Signature.filled_injective

/-- `[u8; 32]`: command ids, hashes, Merkle roots. -/
abbrev Bytes32 := Vector UInt8 32

/-- The key whose bytes all equal `b`. -/
def Pubkey.filled (b : UInt8) : Pubkey := ⟨Vector.replicate 32 b⟩

/-! ## What the chain says about a transaction -/

/-- `solana_sdk::instruction::InstructionError`; of all but `Custom` only the text is used. -/
inductive InstructionError where
  | custom (code : UInt32)
  | other (text : String)
deriving DecidableEq

/-- `solana_sdk::transaction::TransactionError`; of the rest only the text is used. -/
inductive TransactionError where
  | instructionError (index : UInt8) (error : InstructionError)
  | other (text : String)
deriving DecidableEq

def InstructionError.toText : InstructionError → String
  | custom code => "custom program error: 0x" ++ String.ofList (Nat.toDigits 16 code.toNat)
  | other text => text

def TransactionError.toText : TransactionError → String
  | instructionError index error =>
      "Error processing Instruction " ++ toString index ++ ": " ++ error.toText
  | other text => text

/-- One parsed instruction: the program id, the accounts passed to it, its data. -/
structure ParsedIx where
  programId : Pubkey
  accounts : List Pubkey
  data : List UInt8
deriving DecidableEq

/-- `UiCompiledInstruction`. -/
structure UiCompiledInstruction where
  programIdIndex : UInt8
  accounts : List UInt8
  data : String
  stackHeight : Option UInt32
deriving DecidableEq

/-- `UiInnerInstructions`, as the RPC node gives them for a binary encoding. -/
structure UiInnerInstructions where
  index : UInt8
  instructions : List UiCompiledInstruction
deriving DecidableEq

/-- `solana_listener::SolanaTransaction`, less the inner instructions. -/
structure SolanaTransaction where
  /-- signature of the transaction (id) -/
  signature : Signature
  timestamp : Option Int
  logs : List String
  /-- static keys, then loaded writable, then loaded readonly -/
  accountKeys : List Pubkey
  ixs : List ParsedIx
  slot : Nat
  costInLamports : Nat
deriving DecidableEq

/-- A transaction of which only the id, the accounts and the slot matter. -/
def SolanaTransaction.bare (signature : Signature) (accountKeys : List Pubkey) (slot : Nat) :
    SolanaTransaction where
  signature := signature
  timestamp := none
  logs := []
  accountKeys := accountKeys
  ixs := []
  slot := slot
  costInLamports := 5000

/-- `solana_listener::TxStatus`. -/
inductive TxStatus where
  | successful (tx : SolanaTransaction)
  | failed (tx : SolanaTransaction) (error : TransactionError)
deriving DecidableEq

namespace TxStatus

/-- `TxStatus::tx`: the transaction, whatever became of it. -/
def tx : TxStatus → SolanaTransaction
  | successful t => t
  | failed t _ => t

def signature (st : TxStatus) : Signature := st.tx.signature

def isSuccessful : TxStatus → Bool
  | successful _ => true
  | failed .. => false

/-- The error of a failed transaction. -/
def err : TxStatus → Option TransactionError
  | successful _ => none
  | failed _ e => some e

/-- The transaction lists `address` among its accounts. -/
def mentions (address : Pubkey) (st : TxStatus) : Bool := st.tx.accountKeys.contains address

@[simp] theorem tx_successful (t : SolanaTransaction) : (successful t).tx = t := rfl

@[simp] theorem signature_successful (t : SolanaTransaction) :
    (successful t).signature = t.signature := rfl

@[simp] theorem err_eq_none (st : TxStatus) : st.err = none ↔ st.isSuccessful = true := by
  cases st <;> simp [err, isSuccessful]

theorem eq_successful {st : TxStatus} (h : st.isSuccessful = true) : st = successful st.tx := by
  cases st with
  | successful t => rfl
  | failed t e => simp [isSuccessful] at h

end TxStatus

/-! ## Errors -/

/-- `solana_client::rpc_response::RpcSimulateTransactionResult`. -/
structure RpcSimulateTransactionResult where
  err : Option TransactionError
  unitsConsumed : Option Nat
  /-- the whole result as `{:?}` prints it -/
  debug : String
deriving DecidableEq

/-- `effective_tx_sender::ComputeBudgetError`. -/
inductive ComputeBudgetError where
  | simulationError (result : RpcSimulateTransactionResult)
  | transactionError (source : TransactionError) (signature : Signature)
  | generic (message : String)
deriving DecidableEq

/-- `std::task::Poll`. -/
inductive Poll (α : Type) where
  | ready (value : α)
  | pending
deriving DecidableEq

def Poll.isPending {α : Type} : Poll α → Bool
  | .ready _ => false
  | .pending => true

/-- A panic, with its message. -/
structure Panic where
  message : String
deriving DecidableEq

/--
`eyre::Report`: a root error under the contexts that were wrapped around it. `panicked`
is no value of the code: with `panic = "abort"` the process is gone.
-/
inductive Report where
  | msg (text : String)
  | computeBudget (error : ComputeBudgetError)
  | insufficientGasBalance (cost available : Int)
  | wrap (context : String) (inner : Report)
  | panicked
deriving DecidableEq

namespace Report

/-- `downcast_ref::<ComputeBudgetError>`, which looks through every context. -/
def computeBudgetError? : Report → Option ComputeBudgetError
  | computeBudget e => some e
  | wrap _ inner => inner.computeBudgetError?
  | _ => none

/-- `downcast_ref::<InsufficientGasBalance>`. -/
def isInsufficientGasBalance : Report → Bool
  | insufficientGasBalance .. => true
  | wrap _ inner => inner.isInsufficientGasBalance
  | _ => false

/-- `Report::to_string`, which shows the outermost context only. -/
def toText : Report → String
  | msg text => text
  | computeBudget (.simulationError result) => "Simulation error: " ++ result.debug
  | computeBudget (.transactionError source _) => "TransactionError: " ++ source.toText
  | computeBudget (.generic message) => "Generic error: " ++ message
  | insufficientGasBalance cost available =>
      "Insifficient Gas Balance. Required: " ++ toString cost ++ ". Available: " ++
        toString available
  | wrap context _ => context
  | panicked => ""

@[simp] theorem computeBudgetError?_wrap (c : String) (r : Report) :
    (wrap c r).computeBudgetError? = r.computeBudgetError? := rfl

@[simp] theorem computeBudgetError?_computeBudget (e : ComputeBudgetError) :
    (computeBudget e).computeBudgetError? = some e := rfl

@[simp] theorem computeBudgetError?_msg (t : String) : (msg t).computeBudgetError? = none := rfl

end Report

end AxelarRelayer
