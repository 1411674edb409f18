import AxelarRelayer.Lib.Phases
import AxelarRelayer.Task.Processor

/-!
# The concurrent sends, one event at a time

`gateway_tx_task` and `message_payload::upload` are phases of concurrent calls of
`send_gateway_tx`. Here such a call is a job that signs and submits its transaction
for simulation or to be confirmed, and returns, in any order with the others.
-/

namespace AxelarRelayer.Task

open AxelarRelayer

/-- What a send is for. -/
inductive SendKind where
  | initializeSession
  | verifySignature (verifierInfo : SigningVerifierSetInfo)
  | rotateSigners
  | approveMessage (merkelisedMessage : MerkleisedMessage)
  | initializeMessagePayload
  | writeMessagePayload (chunk : ChunkWithOffset)
  | commitMessagePayload
deriving DecidableEq

/-- A call of `send_gateway_tx`. -/
structure GatewaySend where
  kind : SendKind
  ix : ParsedIx
deriving DecidableEq

/-- The context the caller wraps around an error. -/
def SendKind.context? : SendKind → Option String
  | .initializeMessagePayload => some "faled to initialize the message payload pda"
  | .writeMessagePayload chunk =>
      some ("failed to  write message payload at offset " ++ toString chunk.offset)
  | .commitMessagePayload => some "failed to commit the message payload pda"
  | _ => none

/-- The instructions of a submitted transaction behind its compute budget. -/
def Submission.instructions : Submission → List ParsedIx
  | simulated ixs => ixs.drop 1
  | sent ixs _ => ixs.drop 2
  | sentToSimnet ixs => ixs.drop 2

/-- Handed to the Solana RPC, not to the estimation node. -/
def Submission.toSolana : Submission → Bool
  | sentToSimnet _ => false
  | _ => true

/-- What landed is the transaction that was submitted. -/
def Submission.landsItself : Submission → Bool
  | sent ixs (some st) => decide (st.tx.ixs = ixs)
  | _ => true

variable (ctx : Context)

/-- What `send_gateway_tx` makes of the outcome of its transaction. -/
def gatewayResult : Except ComputeBudgetError Signature → Except Report Unit
  | .ok _ => .ok ()
  | .error err =>
      if shouldContinue ctx err then .ok ()
      else .error (.wrap "irrecoverable error" (.computeBudget err))

/-- A send submits its own instruction only; its error gets the caller's context. -/
def sendRules :
    Phases.Rules GatewaySend Submission (Except ComputeBudgetError Signature) Report where
  may send sub := sub.toSolana && decide (sub.instructions = [send.ix]) && sub.landsItself
  finish send outcome :=
    match send.kind.context? with
    | none => gatewayResult ctx outcome
    | some text => context text (gatewayResult ctx outcome)

/-! ## `gateway_tx_task` -/

/-- The PDA of the signing session. -/
def sessionPda (executeData : ExecuteData) : Pubkey :=
  ctx.sdk.getSignatureVerificationPda executeData.payloadMerkleRoot
    executeData.signingVerifierSetMerkleRoot

def sessionIx (executeData : ExecuteData) : Except String ParsedIx :=
  ctx.sdk.initializePayloadVerificationSession ctx.signer ctx.gatewayRootPda
    executeData.payloadMerkleRoot executeData.signingVerifierSetMerkleRoot

def verifyIx (executeData : ExecuteData) (verifierInfo : SigningVerifierSetInfo) :
    Except String ParsedIx :=
  ctx.sdk.verifySignature ctx.gatewayRootPda
    (ctx.sdk.getVerifierSetTrackerPda executeData.signingVerifierSetMerkleRoot)
    (sessionPda ctx executeData) executeData.payloadMerkleRoot verifierInfo

def rotateIx (executeData : ExecuteData) (newVerifierSetMerkleRoot : Bytes32) :
    Except String ParsedIx :=
  ctx.sdk.rotateSigners ctx.gatewayRootPda (sessionPda ctx executeData)
    (ctx.sdk.getVerifierSetTrackerPda executeData.signingVerifierSetMerkleRoot)
    (ctx.sdk.getVerifierSetTrackerPda newVerifierSetMerkleRoot) ctx.signer none
    newVerifierSetMerkleRoot

def approveIx (executeData : ExecuteData) (merkelisedMessage : MerkleisedMessage) :
    Except String ParsedIx :=
  ctx.sdk.approveMessage merkelisedMessage executeData.payloadMerkleRoot ctx.gatewayRootPda
    ctx.signer (sessionPda ctx executeData)
    (ctx.sdk.getIncomingMessagePda (ctx.sdk.commandId merkelisedMessage.ccId.chain
      merkelisedMessage.ccId.id))

/-- One send, or the error of its builder. -/
def single (kind : SendKind) (ix : Except Report ParsedIx) : Except Report (List GatewaySend) :=
  ix.map fun ix => [⟨kind, ix⟩]

/-- The sends of the verification phase: a leaf that cannot be built is left out. -/
def verifySends (executeData : ExecuteData) : List GatewaySend :=
  executeData.signingVerifierSetLeaves.filterMap fun verifierInfo =>
    (verifyIx ctx executeData verifierInfo).toOption.map fun ix =>
      ⟨.verifySignature verifierInfo, ix⟩

/-- The sends of the approval phase: a message that cannot be built is left out. -/
def approveSends (executeData : ExecuteData) (messages : List MerkleisedMessage) :
    List GatewaySend :=
  messages.filterMap fun merkelisedMessage =>
    (approveIx ctx executeData merkelisedMessage).toOption.map fun ix =>
      ⟨.approveMessage merkelisedMessage, ix⟩

/-- The last phase: signer rotation or message approval. -/
def payloadSends (executeData : ExecuteData) : Except Report (List GatewaySend) :=
  match executeData.payloadItems with
  | .verifierSetRotation newVerifierSetMerkleRoot =>
      single .rotateSigners (built (rotateIx ctx executeData newVerifierSetMerkleRoot))
  | .newMessages messages => .ok (approveSends ctx executeData messages)

/-- The phases of `gateway_tx_task`. -/
def gatewayPhases (executeData : ExecuteData) : List (Except Report (List GatewaySend)) :=
  [single .initializeSession (built (sessionIx ctx executeData)),
    .ok (verifySends ctx executeData), payloadSends ctx executeData]

/-- Every course `gateway_tx_task` can take. -/
def gatewayTask (executeData : ExecuteData) :=
  Phases.system (sendRules ctx) (gatewayPhases ctx executeData)

/-! ## `message_payload::upload` -/

/-- `initialize` up to its send. -/
def initializeSend (commandId : Bytes32) (payload : List UInt8) : Except Report ParsedIx := do
  let bufferSize ← context "Unexpected u64 overflow in buffer size" (tryIntoU64 payload.length)
  context "failed to construct an instruction to initialize the message payload pda"
    (built (ctx.sdk.initializeMessagePayload ctx.gatewayRootPda ctx.signer commandId bufferSize))

/-- The futures of `write`. -/
def writeSends (commandId : Bytes32) (payload : List UInt8) : Except Report (List GatewaySend) :=
  (chunksWithOffset payload ctx.sdk.maxChunkSize).mapM fun chunk =>
    (writeInstruction ctx commandId chunk).map fun send => ⟨.writeMessagePayload chunk, send.2⟩

/-- `commit` up to its send. -/
def commitSend (commandId : Bytes32) : Except Report ParsedIx :=
  context "failed to construct an instruction to commit the message payload pda"
    (built (ctx.sdk.commitMessagePayload ctx.gatewayRootPda ctx.signer commandId))

/-- The phases of `upload`. -/
def uploadPhases (commandId : Bytes32) (payload : List UInt8) :
    List (Except Report (List GatewaySend)) :=
  [single .initializeMessagePayload (initializeSend ctx commandId payload),
    writeSends ctx commandId payload, single .commitMessagePayload (commitSend ctx commandId)]

/-- Every course `upload` can take. -/
def uploadTask (commandId : Bytes32) (payload : List UInt8) :=
  Phases.system (sendRules ctx) (uploadPhases ctx commandId payload)

end AxelarRelayer.Task
