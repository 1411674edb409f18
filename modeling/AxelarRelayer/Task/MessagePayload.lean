import AxelarRelayer.Task.TxSender

/-!
# `message_payload`

The payload of a message is uploaded to an account of the gateway in three steps:
one transaction that creates the account, one for each chunk of the payload, all of
them concurrently, and one that commits it.
-/

namespace AxelarRelayer.Task

open AxelarRelayer

/-- `TryInto<u64>` of a `usize`. -/
def tryIntoU64 (n : Nat) : Except Report Nat :=
  if n < 2 ^ 64 then .ok n else .error (.msg "out of range integral type conversion attempted")

/-- The error of an instruction builder. -/
def built (ix : Except String ParsedIx) : Except Report ParsedIx := ix.mapError .msg

/-- `wrap_err` and `context` on a result. -/
def context {α : Type} (text : String) (r : Except Report α) : Except Report α :=
  r.mapError (.wrap text)

/-- The same on a program. -/
def withContext {α : Type} (text : String) (x : EStateM Report World α) : EStateM Report World α :=
  Effect.mapError (.wrap text) x

/-! ## Chunks -/

def chunksFrom (chunkSize : Nat) : Nat → List UInt8 → List (List UInt8)
  | 0, _ => []
  | _ + 1, [] => []
  | fuel + 1, data => data.take chunkSize :: chunksFrom chunkSize fuel (data.drop chunkSize)

/-- `slice::chunks`; there are at most as many chunks as bytes. -/
def chunks (data : List UInt8) (chunkSize : Nat) : List (List UInt8) :=
  chunksFrom chunkSize data.length data

/-- A chunk of data with its offset in the original data slice. -/
structure ChunkWithOffset where
  bytes : List UInt8
  offset : Nat
deriving DecidableEq

/-- `chunks_with_offset`. -/
def chunksWithOffset (data : List UInt8) (chunkSize : Nat) : List ChunkWithOffset :=
  (chunks data chunkSize).zipIdx.map fun chunk =>
    ⟨chunk.1, Saturating.mul chunk.2 chunkSize⟩

example : chunksWithOffset [1, 2, 3, 4, 5, 6, 7, 8] 3 =
    [⟨[1, 2, 3], 0⟩, ⟨[4, 5, 6], 3⟩, ⟨[7, 8], 6⟩] := by decide

/-! ## The upload -/

variable (ctx : Context)

/-- `message_to_command_id`. -/
def messageToCommandId (message : Message) : Bytes32 :=
  ctx.sdk.commandId message.ccId.chain message.ccId.id

/-- The PDA the payload of a message is uploaded to. -/
def messagePayloadPda (commandId : Bytes32) : Pubkey :=
  ctx.sdk.findMessagePayloadPda (ctx.sdk.getIncomingMessagePda commandId) ctx.signer

/-- The `FuturesUnordered` loop: concurrent sends, drained up to the first error. -/
def drainSends (job : Nat × ParsedIx → EStateM Report World Unit)
    (sends : List (Nat × ParsedIx)) : EStateM Report World Unit := do
  let w ← get
  Effect.drain job (fun w send => ctx.rpc.stray w.tick send) (ctx.rpc.completion w.tick sends)

/-- `message_payload::initialize`. -/
def initializePayload (commandId : Bytes32) (payload : List UInt8) : EStateM Report World Unit := do
  let bufferSize ← Effect.ofExcept
    (context "Unexpected u64 overflow in buffer size" (tryIntoU64 payload.length))
  let ix ← Effect.ofExcept
    (context "failed to construct an instruction to initialize the message payload pda"
      (built (ctx.sdk.initializeMessagePayload ctx.gatewayRootPda ctx.signer commandId bufferSize)))
  withContext "faled to initialize the message payload pda" (sendGatewayTx ctx ix)

/-- One pass of the loop in `write` that builds the futures. -/
def writeInstruction (commandId : Bytes32) (chunk : ChunkWithOffset) :
    Except Report (Nat × ParsedIx) := do
  let offset ← context "Unexpected u64 overflow in offset" (tryIntoU64 chunk.offset)
  let ix ← context "failed to construct an instruction to write to the message payload pda"
    (built (ctx.sdk.writeMessagePayload ctx.gatewayRootPda ctx.signer commandId chunk.bytes offset))
  return (chunk.offset, ix)

/-- One future of `write`. -/
def sendWrite (send : Nat × ParsedIx) : EStateM Report World Unit :=
  withContext ("failed to  write message payload at offset " ++ toString send.1)
    (sendGatewayTx ctx send.2)

/-- `message_payload::write`. -/
def write (commandId : Bytes32) (payload : List UInt8) : EStateM Report World Unit := do
  let futures ← Effect.ofExcept
    ((chunksWithOffset payload ctx.sdk.maxChunkSize).mapM (writeInstruction ctx commandId))
  drainSends ctx (sendWrite ctx) futures

/-- `message_payload::commit`. -/
def commit (commandId : Bytes32) : EStateM Report World Unit := do
  let ix ← Effect.ofExcept
    (context "failed to construct an instruction to commit the message payload pda"
      (built (ctx.sdk.commitMessagePayload ctx.gatewayRootPda ctx.signer commandId)))
  withContext "failed to commit the message payload pda" (sendGatewayTx ctx ix)

/-- `message_payload::upload`; returns the PDA the payload is in. -/
def upload (message : Message) (payload : List UInt8) : EStateM Report World Pubkey := do
  initializePayload ctx (messageToCommandId ctx message) payload
  write ctx (messageToCommandId ctx message) payload
  commit ctx (messageToCommandId ctx message)
  return messagePayloadPda ctx (messageToCommandId ctx message)

end AxelarRelayer.Task
