import AxelarRelayer.Task.Estimation

/-!
# `process_task`

What the relayer does for one task. A failed `ExecuteTask` is reported to the
Amplifier API: which event is published depends on how far the execution got, and
that is recognised from the error.
-/

namespace AxelarRelayer.Task

open AxelarRelayer

/-! ## Events -/

inductive MessageExecutionStatus where
  | successful
  | reverted
deriving DecidableEq

inductive CannotExecuteMessageReason where
  | insufficientGas
  | error
deriving DecidableEq

/-- `EventId`, by the function that makes it. -/
inductive EventId where
  | txReverted (id : String)
  | cannotExecuteTask (id : TaskItemId)
deriving DecidableEq

/-- The events `process_task` publishes. -/
inductive Event where
  | messageExecuted (eventId : EventId) (messageId sourceChain : String)
      (status : MessageExecutionStatus) (timestamp : Option Int) (cost : Token)
  | cannotExecuteMessageV2 (eventId : EventId) (taskItemId : TaskItemId)
      (messageId sourceChain : String) (reason : CannotExecuteMessageReason) (details : String)
deriving DecidableEq

/-- `message_executed_event`. -/
def messageExecutedEvent (id sourceChain messageId : String) (status : MessageExecutionStatus)
    (blockTime : Option Int) (cost : Token) : Event :=
  .messageExecuted (.txReverted id) messageId sourceChain status blockTime cost

/-- `cannot_execute_message_event`. -/
def cannotExecuteMessageEvent (taskItemId : TaskItemId) (sourceChain messageId : String)
    (reason : CannotExecuteMessageReason) (details : String) : Event :=
  .cannotExecuteMessageV2 (.cannotExecuteTask taskItemId) taskItemId messageId sourceChain reason
    details

/-! ## `execute_task` -/

variable (ctx : Context)

/-- The message as the gateway knows it. -/
def composeMessage (task : ExecuteTask) : Message where
  ccId := ⟨task.message.sourceChain, task.message.messageId⟩
  sourceAddress := task.message.sourceAddress
  destinationChain := ctx.nameOfTheSolanaChain
  destinationAddress := task.message.destinationAddress
  -- `try_into().unwrap_or_default()`
  payloadHash := if h : task.message.payloadHash.length = 32
    then ⟨task.message.payloadHash.toArray, by simpa using h⟩ else Vector.replicate 32 0

/-- `incoming_message_already_executed`. -/
def incomingMessageAlreadyExecuted (incomingMessagePda : Pubkey) : EStateM Report World Bool := do
  let incomingMessage ← ask ctx.rpc .msg fun t => ctx.rpc.incomingMessage t incomingMessagePda
  match incomingMessage with
  | none => throw (.msg "failed to read incoming message")
  | some isExecuted => return isExecuted

/-- `verify_destination`. -/
def verifyDestination (destinationAddress : Pubkey) : Except Report Unit :=
  if ctx.allowThirdPartyContractCalls then .ok ()
  else if [ctx.sdk.itsId, ctx.sdk.governanceId, ctx.sdk.gatewayId, ctx.sdk.gasServiceId,
      ctx.sdk.memoProgramId].contains destinationAddress then .ok ()
  else .error (.msg
    ("Destination address " ++ ctx.sdk.showPubkey destinationAddress ++ " is not valid"))

/-- `validate_relayer_not_in_payload`; a payload that does not decode passes. -/
def validateRelayerNotInPayload (payload : List UInt8) : Except Report Unit :=
  match ctx.sdk.payloadAccounts payload with
  | none => .ok ()
  | some accounts =>
      if accounts.contains ctx.signer then
        .error (.msg "relayer will not execute a transaction where its own key is included")
      else .ok ()

/-- The instruction for the destination program; ITS and governance have their own. -/
def destinationInstruction (destinationAddress gatewayIncomingMessagePda
    gatewayMessagePayloadPda : Pubkey) (message : Message) (payload : List UInt8) :
    EStateM Report World ParsedIx :=
  if destinationAddress = ctx.sdk.itsId then
    ask ctx.rpc .msg fun t => ctx.rpc.buildItsInstruction t ctx.signer gatewayIncomingMessagePda
      gatewayMessagePayloadPda message payload
  else if destinationAddress = ctx.sdk.governanceId then
    Effect.ofExcept (built (ctx.sdk.calculateGmpIx ctx.signer gatewayIncomingMessagePda
      gatewayMessagePayloadPda message payload))
  else do
    Effect.ofExcept (validateRelayerNotInPayload ctx payload)
    Effect.ofExcept (built (ctx.sdk.constructAxelarExecutableIx ctx.signer message payload
      gatewayIncomingMessagePda gatewayMessagePayloadPda))

/-- `send_to_destination_program`: execute and close in one transaction. -/
def sendToDestinationProgram (destinationAddress gatewayIncomingMessagePda
    gatewayMessagePayloadPda : Pubkey) (message : Message) (payload : List UInt8) :
    EStateM Report World Signature := do
  let ix ← destinationInstruction ctx destinationAddress gatewayIncomingMessagePda
    gatewayMessagePayloadPda message payload
  let ixClose ← Effect.ofExcept
    (context "failed to construct an instruction to close the message payload pda"
      (built (ctx.sdk.closeMessagePayload ctx.gatewayRootPda ctx.signer
        (messageToCommandId ctx message))))
  Effect.mapError .computeBudget (sendTransaction ctx [ix, ixClose])

/-- The last part of `execute_task`: upload the payload, then call the destination program. -/
def uploadAndExecute (message : Message) (payload : List UInt8)
    (destinationAddress gatewayIncomingMessagePda : Pubkey) : EStateM Report World Unit := do
  let gatewayMessagePayloadPda ← upload ctx message payload
  Effect.ignore (sendToDestinationProgram ctx destinationAddress gatewayIncomingMessagePda
    gatewayMessagePayloadPda message payload)

/-- `execute_task`. -/
def executeTask (task : ExecuteTask) : EStateM Report World Unit := do
  let message := composeMessage ctx task
  let gatewayIncomingMessagePda :=
    ctx.sdk.getIncomingMessagePda (ctx.sdk.commandId message.ccId.chain message.ccId.id)
  let executed ← incomingMessageAlreadyExecuted ctx gatewayIncomingMessagePda
  if executed then return ()
  else
    let destinationAddress ← Effect.ofExcept (context "Failed to parse destination address"
      ((ctx.sdk.parsePubkey message.destinationAddress).mapError .msg))
    Effect.ofExcept (verifyDestination ctx destinationAddress)
    ensureEnoughGas ctx message task.payload destinationAddress gatewayIncomingMessagePda
      task.availableGasBalance.amount
    uploadAndExecute ctx message task.payload destinationAddress gatewayIncomingMessagePda

/-! ## Reporting a failure -/

/-- `fetch_transaction`. -/
def fetchTransaction (signature : Signature) : EStateM Report World TxStatus := do
  let t ← call ctx.rpc
  let w ← get
  match ctx.rpc.fetchTransactionError t signature with
  | some text => throw (.msg text)
  | none =>
      match w.chain.status? signature with
      | none => throw (.msg "transaction not found")
      | some st => return st

/-- `compute_total_gas` on the chain as it is now. -/
def computeTotalGas (tx : SolanaTransaction) : EStateM Report World Nat := do
  let t ← call ctx.rpc
  let w ← get
  Effect.ofExcept (Gas.computeTotalGas ctx.sdk.codec ctx.sdk.gatewayId tx
    fun i => ctx.rpc.lookup t i w.chain)

/-- `cost_of_payload_uploading` on the chain as it is now. -/
def costOfPayloadUploading (messagePayloadPda : Pubkey) : EStateM Report World Nat := do
  let t ← call ctx.rpc
  let w ← get
  Effect.ofExcept (Gas.costOfPayloadUploading ctx.sdk.codec ctx.sdk.gatewayId
    (ctx.rpc.lookup t 0 w.chain) messagePayloadPda)

/-- The event for a transaction that was sent and came back with an error. -/
def revertedEvent (task : ExecuteTask) (signature : Signature) : EStateM Report World Event := do
  let status ← fetchTransaction ctx signature
  let tx := status.tx
  let computed ← Effect.attempt (computeTotalGas ctx tx)
  let totalFee := computed.toOption.getD tx.costInLamports
  return messageExecutedEvent (ctx.sdk.showSignature signature) task.message.sourceChain
    task.message.messageId .reverted tx.timestamp ⟨none, totalFee⟩

/-- The event for any other error: the upload may have cost something all the same. -/
def unexecutedEvent (id : TaskItemId) (task : ExecuteTask) (error : Report) :
    EStateM Report World Event := do
  let pda := messagePayloadPda ctx
    (ctx.sdk.commandId task.message.sourceChain task.message.messageId)
  let maybeSomeFee ← Effect.attempt (costOfPayloadUploading ctx pda)
  match (maybeSomeFee : Except Report Nat) with
  | .ok fee =>
      if fee > 0 then
        return messageExecutedEvent (ctx.sdk.showUuid id) task.message.sourceChain
          task.message.messageId .reverted none ⟨none, fee⟩
      else
        return cannotExecuteMessageEvent id task.message.sourceChain task.message.messageId .error
          error.toText
  | .error _ =>
      return cannotExecuteMessageEvent id task.message.sourceChain task.message.messageId .error
        error.toText

/-- The error branch of `process_task`. -/
def failureEvent (id : TaskItemId) (task : ExecuteTask) (error : Report) :
    EStateM Report World Event :=
  match error.computeBudgetError? with
  | some (.transactionError _ signature) => revertedEvent ctx task signature
  | _ =>
      if error.isInsufficientGasBalance then
        return cannotExecuteMessageEvent id task.message.sourceChain task.message.messageId
          .insufficientGas error.toText
      else unexecutedEvent ctx id task error

/-! ## The other tasks -/

/-- Number the sends and drain them. -/
def drainGatewayTxs (ixs : List ParsedIx) : EStateM Report World Unit :=
  drainSends ctx (fun send => sendGatewayTx ctx send.2) (ixs.zipIdx.map Prod.swap)

/-- The last phase of `gateway_tx_task`: signer rotation or message approval. -/
def sendPayloadItems (executeData : ExecuteData) (verificationSessionTrackerPda : Pubkey) :
    EStateM Report World Unit :=
  match executeData.payloadItems with
  | .verifierSetRotation newVerifierSetMerkleRoot => do
      let ix ← Effect.ofExcept (built (ctx.sdk.rotateSigners ctx.gatewayRootPda
        verificationSessionTrackerPda
        (ctx.sdk.getVerifierSetTrackerPda executeData.signingVerifierSetMerkleRoot)
        (ctx.sdk.getVerifierSetTrackerPda newVerifierSetMerkleRoot) ctx.signer none
        newVerifierSetMerkleRoot))
      sendGatewayTx ctx ix
  | .newMessages messages =>
      -- a message whose instruction cannot be built is left out
      drainGatewayTxs ctx (messages.filterMap fun merkelisedMessage =>
        (ctx.sdk.approveMessage merkelisedMessage executeData.payloadMerkleRoot ctx.gatewayRootPda
          ctx.signer verificationSessionTrackerPda
          (ctx.sdk.getIncomingMessagePda (ctx.sdk.commandId merkelisedMessage.ccId.chain
            merkelisedMessage.ccId.id))).toOption)

/-- `gateway_tx_task`. -/
def gatewayTxTask (executeDataBytes : List UInt8) : EStateM Report World Unit :=
  match ctx.sdk.executeData executeDataBytes with
  | none => throw (.msg "cannot decode execute data")
  | some executeData => do
      let verificationSessionTrackerPda := ctx.sdk.getSignatureVerificationPda
        executeData.payloadMerkleRoot executeData.signingVerifierSetMerkleRoot
      let ix ← Effect.ofExcept (built (ctx.sdk.initializePayloadVerificationSession ctx.signer
        ctx.gatewayRootPda executeData.payloadMerkleRoot executeData.signingVerifierSetMerkleRoot))
      sendGatewayTx ctx ix
      -- a leaf whose instruction cannot be built is left out
      drainGatewayTxs ctx (executeData.signingVerifierSetLeaves.filterMap fun verifierInfo =>
        (ctx.sdk.verifySignature ctx.gatewayRootPda
          (ctx.sdk.getVerifierSetTrackerPda executeData.signingVerifierSetMerkleRoot)
          verificationSessionTrackerPda executeData.payloadMerkleRoot verifierInfo).toOption)
      sendPayloadItems ctx executeData verificationSessionTrackerPda

/-- `TryInto<u64>` of a `BigInt`. -/
def refundAmount (amount : Int) : Except Report UInt64 :=
  if 0 ≤ amount ∧ amount < 2 ^ 64 then .ok (UInt64.ofNat amount.toNat)
  else .error (.msg "refund amount is too large")

/-- `refund_task`. -/
def refundTask (task : RefundTask) : EStateM Report World Unit := do
  let receiver ← Effect.ofExcept
    ((ctx.sdk.parsePubkey task.refundRecipientAddress).mapError Report.msg)
  match task.remainingGasBalance.tokenId with
  | some _ => throw (.msg "non-native token refunds are not supported")
  | none =>
      let amount ← Effect.ofExcept (refundAmount task.remainingGasBalance.amount)
      let instruction ← Effect.ofExcept (built (ctx.sdk.refundFeesInstruction ctx.signer receiver
        task.message.messageId amount))
      Effect.ignore (Effect.mapError .computeBudget (sendTransaction ctx [instruction]))

/-! ## `process_task` -/

/-- The world, and what was published on the channel to the Amplifier API. -/
structure Relayer where
  world : World
  published : List Event

/-- A program that cannot publish. -/
def onWorld {α : Type} (x : EStateM Report World α) : EStateM Report Relayer α := fun r =>
  match x r.world with
  | .ok v w => .ok v { r with world := w }
  | .error e w => .error e { r with world := w }

/-- Send a `PublishEvents` command with one event. -/
def publish (event : Event) : EStateM Report Relayer Unit := fun r =>
  match ctx.rpc.amplifierSend r.world.tick with
  | .ok _ => .ok () { r with published := r.published ++ [event] }
  | .error text => .error (.msg text) r

/-- The `Task::Execute` branch of `process_task`. -/
def processExecuteTask (id : TaskItemId) (task : ExecuteTask) : EStateM Report Relayer Unit := do
  match ← Effect.attempt (onWorld (executeTask ctx task)) with
  | .ok _ => return ()
  | .error error =>
      -- after a panic there is no process to report it
      if error = .panicked then throw error
      else
        let event ← onWorld (failureEvent ctx id task error)
        publish ctx event

/-- `process_task`. -/
def processTask (item : TaskItem) : EStateM Report Relayer Unit :=
  match item.task with
  | .gatewayTx executeData => onWorld (gatewayTxTask ctx executeData)
  | .execute task => processExecuteTask ctx item.id task
  | .refund task => onWorld (refundTask ctx task)
  | .verify => return ()
  | .constructProof => return ()

end AxelarRelayer.Task
