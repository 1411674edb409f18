import AxelarRelayer.Task.World
import AxelarRelayer.Lib.LittleEndian

/-!
# `effective-tx-sender`

A transaction is simulated to find out how many compute units it needs, priced by
the recent prioritization fees of the accounts it touches, and then sent. The two
compute budget instructions stand in front of the instructions to be sent.

Here a transaction is the list of its instructions, and it gets signed: the relayer is the
only signer of what it sends. `DequeSender` has the deque the instructions lie in and the
transaction that is signed (`newSignedWithPayer`).
-/

namespace AxelarRelayer.Task

open AxelarRelayer

/-! ## Compute budget instructions -/

/-- `solana_sdk::compute_budget::id()`. -/
def COMPUTE_BUDGET_ID : Pubkey :=
  ⟨#v[3, 6, 70, 111, 229, 33, 23, 50, 255, 236, 173, 186, 114, 195, 155, 231,
    188, 140, 229, 187, 197, 247, 18, 107, 44, 67, 155, 58, 64, 0, 0, 0]⟩

/-- `ComputeBudgetInstruction::set_compute_unit_limit`. -/
def setComputeUnitLimit (units : Nat) : ParsedIx :=
  ⟨COMPUTE_BUDGET_ID, [], 2 :: LittleEndian.encode 4 units⟩

/-- `ComputeBudgetInstruction::set_compute_unit_price`, in micro-lamports. -/
def setComputeUnitPrice (microLamports : Nat) : ParsedIx :=
  ⟨COMPUTE_BUDGET_ID, [], 3 :: LittleEndian.encode 8 microLamports⟩

/-- `MAX_COMPUTE_UNIT_LIMIT` of the compute budget crate. -/
def MAX_COMPUTE_UNIT_LIMIT : Nat := 1400000

/-- The rolling average of the last ten slots. -/
def averageFee (fees : List Nat) : Nat :=
  let (sum, count) := (fees.reverse.take 10).foldl
    (fun acc fee => (Saturating.add acc.1 fee, Saturating.add acc.2 1)) (0, 0)
  if count > 0 then sum / count else 0

/-! ## The sender -/

inductive Unevaluated
inductive Evaluated

/-- `EffectiveTxSender`: the instructions, and in its type whether they are evaluated. -/
structure EffectiveTxSender (state : Type) where
  ixs : List ParsedIx

variable (ctx : Context)

/--
`Transaction::new_signed_with_payer` with the relayer as the payer and the only signer.
Where an account of another key has to sign as well, it panics.
-/
def newSignedWithPayer (instructions : List Instruction) (blockhash : Bytes32) :
    EStateM Report World Transaction :=
  match Transaction.newSignedWithPayer ctx.sign instructions ctx.signer blockhash with
  | some tx => return tx
  | none => throw .panicked

/-- `RpcClient::simulate_transaction` on the signed transaction. -/
def simulateTransaction (ixs : List ParsedIx) :
    EStateM ComputeBudgetError World RpcSimulateTransactionResult := do
  modify fun w => w.submit (.simulated ixs) rfl
  ask ctx.rpc .generic fun t => ctx.rpc.simulateTransaction t ixs

/-- `compute_budget` from the simulation on. -/
def simulatedBudget (ixs : List ParsedIx) : EStateM ComputeBudgetError World ParsedIx := do
  let simulationResult ← simulateTransaction ctx ixs
  match simulationResult.err with
  | some _ => throw (.simulationError simulationResult)
  | none =>
      let computedUnits := simulationResult.unitsConsumed.getD 0
      let topUp := computedUnits / 10
      let computeBudget := min (Saturating.add computedUnits topUp) MAX_COMPUTE_UNIT_LIMIT
      return setComputeUnitLimit computeBudget

/-- `compute_budget`. -/
def computeBudget (ixs : List ParsedIx) : EStateM ComputeBudgetError World ParsedIx := do
  let _hash ← ask ctx.rpc .generic ctx.rpc.getLatestBlockhash
  simulatedBudget ctx ixs

/-- The accounts whose fees `compute_unit_price` asks for. -/
def touchedAccounts (ixs : List ParsedIx) : List Pubkey :=
  (ixs.flatMap ParsedIx.accounts).take 128

/-- `compute_unit_price`. -/
def computeUnitPrice (ixs : List ParsedIx) : EStateM ComputeBudgetError World ParsedIx := do
  let fees ← ask ctx.rpc .generic fun t =>
    ctx.rpc.getRecentPrioritizationFees t (touchedAccounts ixs)
  return setComputeUnitPrice (averageFee fees)

/-- `evaluate_compute_ixs`. -/
def evaluateComputeIxs (sender : EffectiveTxSender Unevaluated) :
    EStateM ComputeBudgetError World (EffectiveTxSender Evaluated) := do
  -- the largest budget that still fits, for the simulation only
  let ixs := setComputeUnitLimit 1399850 :: sender.ixs
  let w ← get
  let (computeUnitPrice, computeBudget) ←
    Effect.tryJoin (ctx.rpc.priceFirst w.tick) (computeUnitPrice ctx ixs) (computeBudget ctx ixs)
  return ⟨(computeUnitPrice :: ixs).set 1 computeBudget⟩

/-- A transaction of the relayer as the chain notes it. -/
def confirmedTransaction (t : Nat) (ixs : List ParsedIx) (receipt : Receipt) :
    SolanaTransaction where
  signature := receipt.signature
  timestamp := receipt.timestamp
  logs := receipt.logs
  accountKeys := (ctx.signer :: ixs.flatMap fun ix => ix.accounts ++ [ix.programId]).eraseDups
  ixs := ixs
  slot := receipt.slot
  costInLamports := ctx.rpc.fee t ixs

/-- How the chain notes it, given the error it ran into. -/
def confirmedStatus (t : Nat) (ixs : List ParsedIx) (receipt : Receipt) :
    Option TransactionError → TxStatus
  | none => .successful (confirmedTransaction ctx t ixs receipt)
  | some error => .failed (confirmedTransaction ctx t ixs receipt) error

/-- Put a transaction on the chain, unless it is a replay or stale. -/
def confirmOnChain {ε : Type} (ixs : List ParsedIx) (st : TxStatus) : EStateM ε World Bool :=
  fun w => match h : w.chain.confirm? st with
    | some chain => .ok true (w.land ixs st chain h)
    | none => .ok false (w.submit (.sent ixs none) rfl)

/-- What becomes of a transaction although the client gives up on it. -/
def settle {ε : Type} (t : Nat) (ixs : List ParsedIx) (receipt : Receipt) :
    Option (Option TransactionError) → EStateM ε World Unit
  | none => modify fun w => w.submit (.sent ixs none) rfl
  | some error => Effect.ignore (confirmOnChain ixs (confirmedStatus ctx t ixs receipt error))

/-- The error `send_tx` makes of a client error. -/
def sendError (signature : Signature) (error : ClientError) : ComputeBudgetError :=
  match error.transactionError with
  | some source => .transactionError source signature
  | none => .generic error.text

/-- `send_tx`. -/
def sendTx (sender : EffectiveTxSender Evaluated) : EStateM ComputeBudgetError World Signature := do
  let t ← call ctx.rpc
  match ctx.rpc.sendAndConfirmTransaction t sender.ixs with
  | .confirmed receipt =>
      let confirmed ← confirmOnChain sender.ixs (confirmedStatus ctx t sender.ixs receipt none)
      if confirmed then return receipt.signature
      else throw (.generic "unable to confirm transaction")
  | .failed receipt landed error =>
      settle ctx t sender.ixs receipt landed
      throw (sendError receipt.signature error)

/-- `send_transaction` of the task processor. -/
def sendTransaction (ixs : List ParsedIx) : EStateM ComputeBudgetError World Signature := do
  let sender ← evaluateComputeIxs ctx ⟨ixs⟩
  sendTx ctx sender

/-- The simulation ran into an error which means that the work is already done. -/
def shouldContinue : ComputeBudgetError → Bool
  | .simulationError result =>
      match result.err with
      | some (.instructionError _ (.custom errCode)) => ctx.sdk.shouldRelayerProceed errCode
      | _ => false
  | _ => false

/-- `send_gateway_tx`. -/
def sendGatewayTx (ix : ParsedIx) : EStateM Report World Unit := do
  match ← Effect.attempt (sendTransaction ctx [ix]) with
  | .ok _ => return ()
  | .error err =>
      if shouldContinue ctx err then return ()
      else throw (.wrap "irrecoverable error" (.computeBudget err))

end AxelarRelayer.Task
