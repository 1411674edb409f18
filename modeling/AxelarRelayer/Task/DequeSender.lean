import AxelarRelayer.Lib.VecDeque
import AxelarRelayer.Task.ChunkSize

/-!
# `effective-tx-sender` and its deque

`EffectiveTxSender` as it lies in memory, with its instructions in a ring buffer and the
blockhash it signs with. What is priced, simulated and signed is never the deque but a
slice of its buffer; what the node is handed is the transaction that was signed. Its errors
are those of `TxSender`, and the panic of the signing beside them.
-/

namespace AxelarRelayer.Task

open AxelarRelayer

/-- `EffectiveTxSender`, with its `VecDeque<Instruction>`. -/
structure DequeSender (state : Type) where
  ixs : VecDeque Instruction
  hash : Bytes32

namespace DequeSender

variable (ctx : Context) (growth : VecDeque.Growth)

/-- `EffectiveTxSender::new`. -/
def new (ixs : VecDeque Instruction) : DequeSender Unevaluated := ⟨ixs, Vector.replicate 32 0⟩

/-- The deque that is simulated. -/
def simulationIxs (ixs : VecDeque Instruction) : VecDeque Instruction :=
  (ixs.pushFront growth (computeBudgetIx (setComputeUnitLimit 1399850))).makeContiguous

theorem one_lt_len_priced (ixs : VecDeque Instruction) (computeUnitPrice : Instruction) :
    1 < ((simulationIxs growth ixs).pushFront growth computeUnitPrice).makeContiguous.len := by
  simp [simulationIxs]

/-- `compute_budget`: the limit, and the blockhash the simulated transaction was signed with. -/
def computeBudget (ixs : List Instruction) : EStateM Report World (ParsedIx × Bytes32) := do
  let hash ← ask ctx.rpc (fun err => .computeBudget (.generic err)) ctx.rpc.getLatestBlockhash
  let txToSimulate ← newSignedWithPayer ctx ixs hash
  let ix ← Effect.mapError .computeBudget (simulatedBudget ctx txToSimulate.parsedIxs)
  return (ix, hash)

/-- `evaluate_compute_ixs`; the index 1 is in bounds. -/
def evaluateComputeIxs (sender : DequeSender Unevaluated) :
    EStateM Report World (DequeSender Evaluated) := do
  let ixs := simulationIxs growth sender.ixs
  let validSlice := ixs.validSlice
  let w ← get
  let (computeUnitPrice, computeBudget, hash) ← Effect.tryJoin (ctx.rpc.priceFirst w.tick)
    (Effect.mapError .computeBudget (computeUnitPrice ctx (validSlice.map Instruction.parsed)))
    (computeBudget ctx validSlice)
  let ixs := (ixs.pushFront growth (computeBudgetIx computeUnitPrice)).makeContiguous
  return ⟨ixs.setSlice 1 (computeBudgetIx computeBudget) (one_lt_len_priced growth _ _), hash⟩

/-- `send_tx`: what is signed is the first of the two slices, and what was signed is sent. -/
def sendTx (sender : DequeSender Evaluated) : EStateM Report World Signature := do
  let tx ← newSignedWithPayer ctx sender.ixs.asSlices.1 sender.hash
  Effect.mapError .computeBudget (Task.sendTx ctx ⟨tx.parsedIxs⟩)

/-- `send_transaction` of the task processor. -/
def sendTransaction (ix : VecDeque Instruction) : EStateM Report World Signature := do
  let sender ← evaluateComputeIxs ctx growth (new ix)
  sendTx ctx sender

end DequeSender

end AxelarRelayer.Task
