import AxelarRelayer.Task.MessagePayload

/-!
# `execution_cost_estimation`

Before a message is executed, the five stages of its execution are run on an
estimation node that holds a copy of the chain. The fees that node reports are
added up; the units it reports are kept, so that the cost can be worked out again
without another run.
-/

namespace AxelarRelayer.Task

open AxelarRelayer

variable (ctx : Context)

/-- `calculate_compute_unit_price`. -/
def calculateComputeUnitPrice (accounts : List Pubkey) : EStateM Report World Nat :=
  if accounts.length > 128 then
    throw (.msg "Too many accounts, cannot calculate compute unit price")
  else do
    let fees ← ask ctx.rpc (fun err => .msg ("Failed to get prioritization fees: " ++ err))
      fun t => ctx.rpc.getRecentPrioritizationFees t accounts
    return averageFee fees

/-- `build_compute_unit_price_instruction`. -/
def buildComputeUnitPriceInstruction (accounts : List Pubkey) : EStateM Report World ParsedIx := do
  let averageFee ← calculateComputeUnitPrice ctx accounts
  return setComputeUnitPrice averageFee

/-! ## The cost of a recorded run -/

/-- `calculate_stage_fee`. -/
def calculateStageFee (stage : StageMetadata) (computeUnitPrice : Nat) : Nat :=
  let baseFee := 5000
  let priorityFee := Saturating.mul stage.computeUnitsConsumed computeUnitPrice
  Saturating.add baseFee priorityFee

/-- One stage of `calculate_cost`. -/
def addStageCost (totalFee : Nat) (stage : StageMetadata) : EStateM Report World Nat :=
  if stage.accounts.isEmpty then return totalFee
  else do
    let computeUnitPrice ← calculateComputeUnitPrice ctx stage.accounts
    return Saturating.add totalFee (calculateStageFee stage computeUnitPrice)

/-- `ExecuteTaskConsumptionBreakdown::calculate_cost`. -/
def calculateCost (breakdown : ExecuteTaskConsumptionBreakdown) : EStateM Report World Nat := do
  let totalFee ← addStageCost ctx 0 breakdown.initialization
  let totalFee ← breakdown.upload.foldlM (addStageCost ctx) totalFee
  let totalFee ← addStageCost ctx totalFee breakdown.commitment
  let totalFee ← addStageCost ctx totalFee breakdown.execution
  addStageCost ctx totalFee breakdown.closure

/-! ## A run on the estimation node -/

/-- `execute_and_get_cost`. A panic leaves nothing submitted. -/
def executeAndGetCost (instructions : List ParsedIx) :
    EStateM Report World (Nat × StageMetadata) := do
  let blockhash ← ask ctx.rpc (fun err => .msg ("Failed to get blockhash: " ++ err))
    ctx.rpc.simnetGetLatestBlockhash
  let instructions := setComputeUnitLimit 1400000 :: instructions
  let priorityFeeIx ←
    buildComputeUnitPriceInstruction ctx (instructions.flatMap ParsedIx.accounts)
  let instructions := priorityFeeIx :: instructions
  let accounts := instructions.flatMap ParsedIx.accounts
  let _transaction ← newSignedWithPayer ctx (instructions.map ctx.sdk.instruction) blockhash
  modify fun w => w.submit (.sentToSimnet instructions) rfl
  ask ctx.rpc (fun err => .msg ("Failed to send transaction: " ++ err))
    fun t => ctx.rpc.simnetSendAndConfirmTransaction t instructions
  let meta? ← ask ctx.rpc (fun err => .msg ("Failed to get transaction status: " ++ err))
    fun t => ctx.rpc.simnetGetTransaction t instructions
  match meta? with
  | none => throw (.msg "Transaction metadata not available")
  | some txMeta =>
      match txMeta.computeUnitsConsumed with
      | none => throw (.msg "Missing compute units consumption details")
      | some computeUnitsConsumed => return (txMeta.fee, ⟨computeUnitsConsumed, accounts⟩)

/-- `build_execute_instruction`. -/
def buildExecuteInstruction (message : Message) (payload : List UInt8)
    (destinationAddress : Pubkey) : EStateM Report World ParsedIx :=
  let commandId := ctx.sdk.commandId message.ccId.chain message.ccId.id
  let gatewayIncomingMessagePda := ctx.sdk.getIncomingMessagePda commandId
  let gatewayMessagePayloadPda :=
    ctx.sdk.findMessagePayloadPda gatewayIncomingMessagePda ctx.signer
  if destinationAddress = ctx.sdk.itsId then
    ask ctx.rpc (fun err => .msg ("Failed to build ITS instruction: " ++ err)) fun t =>
      ctx.rpc.simnetBuildItsInstruction t ctx.signer gatewayIncomingMessagePda
        gatewayMessagePayloadPda message payload
  else if destinationAddress = ctx.sdk.governanceId then
    Effect.ofExcept (built (ctx.sdk.calculateGmpIx ctx.signer gatewayIncomingMessagePda
      gatewayMessagePayloadPda message payload))
  else
    Effect.ofExcept (built (ctx.sdk.constructAxelarExecutableIx ctx.signer message payload
      gatewayIncomingMessagePda gatewayMessagePayloadPda))

/-- One pass of the loop over the chunks: the fee is added, the metadata kept. -/
def estimateChunk (commandId : Bytes32) (acc : Nat × List StageMetadata)
    (chunk : List UInt8 × Nat) : EStateM Report World (Nat × List StageMetadata) := do
  let offset ← Effect.ofExcept (tryIntoU64 (Saturating.mul chunk.2 ctx.sdk.maxChunkSize))
  let writeIx ← Effect.ofExcept (built
    (ctx.sdk.writeMessagePayload ctx.gatewayRootPda ctx.signer commandId chunk.1 offset))
  let (writeCost, writeMetadata) ← executeAndGetCost ctx [writeIx]
  return (Saturating.add acc.1 writeCost, acc.2 ++ [writeMetadata])

/-- `estimate_total_execute_cost`. -/
def estimateTotalExecuteCost (message : Message) (payload : List UInt8)
    (destinationAddress : Pubkey) :
    EStateM Report World (Nat × ExecuteTaskConsumptionBreakdown) := do
  let msgCommandId := messageToCommandId ctx message
  -- 1. Initialize payload account
  let bufferSize ← Effect.ofExcept (tryIntoU64 payload.length)
  let initIx ← Effect.ofExcept (built
    (ctx.sdk.initializeMessagePayload ctx.gatewayRootPda ctx.signer msgCommandId bufferSize))
  let (initCost, initialization) ← executeAndGetCost ctx [initIx]
  let totalFee := Saturating.add 0 initCost
  -- 2. Write payload in chunks
  let (totalFee, upload) ← (chunks payload ctx.sdk.maxChunkSize).zipIdx.foldlM
    (estimateChunk ctx msgCommandId) (totalFee, [])
  -- 3. Commit payload
  let commitIx ← Effect.ofExcept (built
    (ctx.sdk.commitMessagePayload ctx.gatewayRootPda ctx.signer msgCommandId))
  let (commitCost, commitment) ← executeAndGetCost ctx [commitIx]
  let totalFee := Saturating.add totalFee commitCost
  -- 4. Execute message
  let executeIx ← buildExecuteInstruction ctx message payload destinationAddress
  let (executeCost, execution) ← executeAndGetCost ctx [executeIx]
  let totalFee := Saturating.add totalFee executeCost
  -- 5. Close payload account
  let closeIx ← Effect.ofExcept (built
    (ctx.sdk.closeMessagePayload ctx.gatewayRootPda ctx.signer msgCommandId))
  let (closeCost, closure) ← executeAndGetCost ctx [closeIx]
  let totalFee := Saturating.add totalFee closeCost
  return (totalFee, ⟨initialization, upload, commitment, execution, closure⟩)

/-! ## The check -/

/-- The cost of a message and what it was worked out from: recorded, or run afresh. -/
def costOfMessage (message : Message) (payload : List UInt8) (destinationAddress : Pubkey)
    (maybeCached : Option ExecuteTaskConsumptionBreakdown) :
    EStateM Report World (Nat × ExecuteTaskConsumptionBreakdown) :=
  match maybeCached with
  | some consumptionBreakdown => do
      let cost ← calculateCost ctx consumptionBreakdown
      return (cost, consumptionBreakdown)
  | none => estimateTotalExecuteCost ctx message payload destinationAddress

/-- `RealGasEstimator::ensure_enough_gas`. -/
def ensureEnoughGas (message : Message) (payload : List UInt8) (destinationAddress : Pubkey)
    (incomingMessagePda : Pubkey) (availableGas : Int) : EStateM Report World Unit := do
  let maybeCached ← modifyGet fun w =>
    (w.cache incomingMessagePda, w.setCache incomingMessagePda none)
  let (cost, breakdown) ← costOfMessage ctx message payload destinationAddress maybeCached
  if (cost : Int) > availableGas then
    modify fun w => w.setCache incomingMessagePda (some breakdown)
    throw (.insufficientGasBalance cost availableGas)
  else return ()

end AxelarRelayer.Task
