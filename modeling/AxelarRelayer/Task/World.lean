import AxelarRelayer.Gas.Computation
import AxelarRelayer.Lib.Effect
import AxelarRelayer.Task.Transaction

/-!
# What the task processor works on

The tasks of the Amplifier API, the functions of the Axelar crates (`Sdk`), the
answers of the two RPC nodes (`Rpc`), and the `World` the programs change: the
chain, the cache of the gas estimator, and what the relayer signed and submitted
so far.

Every RPC call is one tick, and every answer is a function of the tick, so an
`Rpc` is one arbitrary course of events. What other parties get confirmed between
two calls is part of it (`others`).

`World.recorded` says that what the relayer landed stands on the chain, in the
order in which it landed.
-/

namespace AxelarRelayer.Task

open AxelarRelayer

/-! ## Messages and tasks -/

/-- `CrossChainId`. -/
structure CrossChainId where
  chain : String
  id : String
deriving DecidableEq

/-- `axelar_solana_encoding::types::messages::Message`. -/
structure Message where
  ccId : CrossChainId
  sourceAddress : String
  destinationChain : String
  destinationAddress : String
  payloadHash : Bytes32
deriving DecidableEq

/-- `GatewayV2Message`: a message as the Amplifier API describes it. -/
structure GatewayV2Message where
  messageId : String
  sourceChain : String
  sourceAddress : String
  destinationAddress : String
  payloadHash : List UInt8
deriving DecidableEq

/-- `Token`; no `tokenId` means the native token. -/
structure Token where
  tokenId : Option String
  amount : Int
deriving DecidableEq

structure ExecuteTask where
  message : GatewayV2Message
  payload : List UInt8
  availableGasBalance : Token
deriving DecidableEq

structure RefundTask where
  message : GatewayV2Message
  refundRecipientAddress : String
  remainingGasBalance : Token
deriving DecidableEq

/-- `TaskItemId`, a UUID. -/
structure TaskItemId where
  uuid : BitVec 128
deriving DecidableEq

/-- `amplifier_api::types::Task`. -/
inductive Task where
  | gatewayTx (executeData : List UInt8)
  | execute (task : ExecuteTask)
  | refund (task : RefundTask)
  | verify
  | constructProof
deriving DecidableEq

structure TaskItem where
  id : TaskItemId
  task : Task
deriving DecidableEq

/-! ## The Axelar crates -/

/-- One leaf of the verifier set, as `verify_signature` takes it. -/
structure SigningVerifierSetInfo where
  encoded : List UInt8
deriving DecidableEq

/-- One approved message with its Merkle proof. -/
structure MerkleisedMessage where
  ccId : CrossChainId
  encoded : List UInt8
deriving DecidableEq

inductive MerkleisedPayload where
  | verifierSetRotation (newVerifierSetMerkleRoot : Bytes32)
  | newMessages (messages : List MerkleisedMessage)
deriving DecidableEq

structure ExecuteData where
  signingVerifierSetMerkleRoot : Bytes32
  signingVerifierSetLeaves : List SigningVerifierSetInfo
  payloadMerkleRoot : Bytes32
  payloadItems : MerkleisedPayload
deriving DecidableEq

/--
The functions of the Axelar crates. A builder that fails gives the text of its
error. What a built instruction wants of its accounts is read off with `instruction`.
-/
structure Sdk where
  gatewayId : Pubkey
  itsId : Pubkey
  governanceId : Pubkey
  gasServiceId : Pubkey
  memoProgramId : Pubkey
  codec : Gas.Codec
  /-- `message_payload::MAX_CHUNK_SIZE` -/
  maxChunkSize : Nat
  maxChunkSize_pos : 0 < maxChunkSize
  commandId : String → String → Bytes32
  getIncomingMessagePda : Bytes32 → Pubkey
  findMessagePayloadPda : Pubkey → Pubkey → Pubkey
  getSignatureVerificationPda : Bytes32 → Bytes32 → Pubkey
  getVerifierSetTrackerPda : Bytes32 → Pubkey
  initializeMessagePayload : Pubkey → Pubkey → Bytes32 → Nat → Except String ParsedIx
  writeMessagePayload : Pubkey → Pubkey → Bytes32 → List UInt8 → Nat → Except String ParsedIx
  commitMessagePayload : Pubkey → Pubkey → Bytes32 → Except String ParsedIx
  closeMessagePayload : Pubkey → Pubkey → Bytes32 → Except String ParsedIx
  initializePayloadVerificationSession :
    Pubkey → Pubkey → Bytes32 → Bytes32 → Except String ParsedIx
  verifySignature :
    Pubkey → Pubkey → Pubkey → Bytes32 → SigningVerifierSetInfo → Except String ParsedIx
  approveMessage :
    MerkleisedMessage → Bytes32 → Pubkey → Pubkey → Pubkey → Pubkey → Except String ParsedIx
  rotateSigners :
    Pubkey → Pubkey → Pubkey → Pubkey → Pubkey → Option Pubkey → Bytes32 → Except String ParsedIx
  /-- `ExecuteData::try_from_slice` -/
  executeData : List UInt8 → Option ExecuteData
  constructAxelarExecutableIx :
    Pubkey → Message → List UInt8 → Pubkey → Pubkey → Except String ParsedIx
  calculateGmpIx : Pubkey → Pubkey → Pubkey → Message → List UInt8 → Except String ParsedIx
  refundFeesInstruction : Pubkey → Pubkey → String → UInt64 → Except String ParsedIx
  /-- the accounts of `AxelarMessagePayload::decode` -/
  payloadAccounts : List UInt8 → Option (List Pubkey)
  /-- `GatewayError::from_u32(code).is_some_and(should_relayer_proceed)` -/
  shouldRelayerProceed : UInt32 → Bool
  /-- `str::parse::<Pubkey>` -/
  parsePubkey : String → Except String Pubkey
  showSignature : Signature → String
  showUuid : TaskItemId → String
  showPubkey : Pubkey → String
  /-- the instruction with the flags its builder gave the accounts -/
  instruction : ParsedIx → Instruction
  instruction_parsed : ∀ ix, (instruction ix).parsed = ix

theorem Sdk.instruction_accounts (sdk : Sdk) (ix : ParsedIx) :
    (sdk.instruction ix).accounts.map AccountMeta.pubkey = ix.accounts :=
  congrArg ParsedIx.accounts (sdk.instruction_parsed ix)

@[simp] theorem Sdk.length_instruction_accounts (sdk : Sdk) (ix : ParsedIx) :
    (sdk.instruction ix).accounts.length = ix.accounts.length := by
  rw [← sdk.instruction_accounts ix, List.length_map]

/-! ## The RPC nodes -/

/-- `ClientError`: its text, and `get_transaction_error`. -/
structure ClientError where
  text : String
  transactionError : Option TransactionError
deriving DecidableEq

/-- What the chain notes about a transaction it confirms. -/
structure Receipt where
  signature : Signature
  slot : Nat
  timestamp : Option Int
  logs : List String
deriving DecidableEq

/-- The end of one `send_and_confirm_transaction`. -/
inductive SendOutcome where
  /-- confirmed, and it succeeded -/
  | confirmed (receipt : Receipt)
  /-- an error; `landed` is what became of the transaction on chain, if it was confirmed at all -/
  | failed (receipt : Receipt) (landed : Option (Option TransactionError)) (error : ClientError)
deriving DecidableEq

/-- `UiTransactionStatusMeta`, of which the fee and the units are read. -/
structure TransactionMeta where
  fee : Nat
  computeUnitsConsumed : Option Nat
deriving DecidableEq

/-- One course of events, as far as it is not the relayer's doing. -/
structure Rpc where
  /-- what other parties get confirmed before the call at a tick -/
  others : Nat → List TxStatus
  getLatestBlockhash : Nat → Except String Bytes32
  simulateTransaction : Nat → List ParsedIx → Except String RpcSimulateTransactionResult
  getRecentPrioritizationFees : Nat → List Pubkey → Except String (List Nat)
  sendAndConfirmTransaction : Nat → List ParsedIx → SendOutcome
  /-- the fee the chain takes for a transaction -/
  fee : Nat → List ParsedIx → Nat
  /-- `get_account_data` and `IncomingMessage::read`; the value is `status.is_executed()` -/
  incomingMessage : Nat → Pubkey → Except String (Option Bool)
  /-- an error of `fetch_transaction`, be it the call or the decoding of its answer -/
  fetchTransactionError : Nat → Signature → Option String
  /-- the lookup made at a tick for the `i`-th instruction, on the chain there is then -/
  lookup : Nat → Nat → Chain → Gas.Lookup
  lookup_chain : ∀ t i c, (lookup t i c).chainAt 0 = c
  /-- `its_instruction_builder::build_execute_instruction`, which reads from the chain -/
  buildItsInstruction :
    Nat → Pubkey → Pubkey → Pubkey → Message → List UInt8 → Except String ParsedIx
  simnetGetLatestBlockhash : Nat → Except String Bytes32
  simnetSendAndConfirmTransaction : Nat → List ParsedIx → Except String Unit
  simnetGetTransaction : Nat → List ParsedIx → Except String (Option TransactionMeta)
  simnetBuildItsInstruction :
    Nat → Pubkey → Pubkey → Pubkey → Message → List UInt8 → Except String ParsedIx
  /-- which of two joined calls is answered first -/
  priceFirst : Nat → Bool
  /-- the order in which concurrent sends complete -/
  completion : Nat → List (Nat × ParsedIx) → List (Nat × ParsedIx)
  completes : ∀ t sends, (completion t sends).Perm sends
  /-- a send that is dropped midway still reaches the chain -/
  stray : Nat → Nat × ParsedIx → Bool
  /-- sending on the channel to the Amplifier API -/
  amplifierSend : Nat → Except String Unit

/-- What the programs are handed at start: clients, signing key, configuration. -/
structure Context where
  sdk : Sdk
  rpc : Rpc
  /-- the public key of the relayer's keypair -/
  signer : Pubkey
  /-- what that keypair signs a message with -/
  sign : SolanaMessage → Signature
  gatewayRootPda : Pubkey
  nameOfTheSolanaChain : String
  allowThirdPartyContractCalls : Bool

/-! ## The state -/

/-- One stage of a gas estimate. -/
structure StageMetadata where
  computeUnitsConsumed : Nat
  accounts : List Pubkey
deriving DecidableEq

structure ExecuteTaskConsumptionBreakdown where
  initialization : StageMetadata
  upload : List StageMetadata
  commitment : StageMetadata
  execution : StageMetadata
  closure : StageMetadata
deriving DecidableEq

/-- One transaction the relayer signed and handed to a node. -/
inductive Submission where
  | simulated (ixs : List ParsedIx)
  /-- `landed` is the transaction as the chain confirmed it, if it did -/
  | sent (ixs : List ParsedIx) (landed : Option TxStatus)
  | sentToSimnet (ixs : List ParsedIx)
deriving DecidableEq

/-- What a submission left on the chain. -/
def Submission.landed? : Submission → Option TxStatus
  | sent _ landed => landed
  | _ => none

structure World where
  /-- RPC calls made so far -/
  tick : Nat
  chain : Chain
  /-- `RealGasEstimator::cache` -/
  cache : Pubkey → Option ExecuteTaskConsumptionBreakdown
  submitted : List Submission
  /-- What the relayer landed stands on the chain, in that order. -/
  recorded : (submitted.filterMap Submission.landed?).Sublist chain.history

namespace World

/-- The relayer's own transactions, as the chain confirmed them. -/
def landed (w : World) : List TxStatus := w.submitted.filterMap Submission.landed?

/-- A world before any task, on a given chain. -/
def start (chain : Chain) : World := ⟨0, chain, fun _ => none, [], List.nil_sublist _⟩

/-- Time passes until the next RPC call. -/
def next (rpc : Rpc) (w : World) : World where
  tick := w.tick + 1
  chain := w.chain.confirmAll (rpc.others w.tick)
  cache := w.cache
  submitted := w.submitted
  recorded := w.recorded.trans (w.chain.le_confirmAll _).sublist

/-- Submit something of which nothing reaches the chain. -/
def submit (w : World) (sub : Submission) (h : sub.landed? = none) : World where
  tick := w.tick
  chain := w.chain
  cache := w.cache
  submitted := w.submitted ++ [sub]
  recorded := by
    rw [List.filterMap_append, List.filterMap_cons_none h, List.filterMap_nil, List.append_nil]
    exact w.recorded

/-- A submitted transaction is confirmed on chain. -/
def land (w : World) (ixs : List ParsedIx) (st : TxStatus) (chain : Chain)
    (h : w.chain.confirm? st = some chain) : World where
  tick := w.tick
  chain := chain
  cache := w.cache
  submitted := w.submitted ++ [.sent ixs (some st)]
  recorded := by
    rw [List.filterMap_append, Chain.confirm?_history h]
    exact List.Sublist.append w.recorded (List.Sublist.refl _)

def setCache (w : World) (pda : Pubkey) (entry : Option ExecuteTaskConsumptionBreakdown) : World :=
  { w with cache := fun key => if key = pda then entry else w.cache key }

/-- Writing what is there changes nothing. -/
theorem setCache_self (w : World) (pda : Pubkey) : w.setCache pda (w.cache pda) = w := by
  have hcache : (fun key => if key = pda then w.cache pda else w.cache key) = w.cache := by
    funext key
    by_cases hkey : key = pda
    · rw [if_pos hkey, hkey]
    · rw [if_neg hkey]
  rw [setCache, hcache]

@[simp] theorem cache_setCache (w : World) (pda : Pubkey)
    (entry : Option ExecuteTaskConsumptionBreakdown) : (w.setCache pda entry).cache pda = entry :=
  if_pos rfl

theorem cache_setCache_ne (w : World) {pda other : Pubkey}
    (entry : Option ExecuteTaskConsumptionBreakdown) (h : other ≠ pda) :
    (w.setCache pda entry).cache other = w.cache other :=
  if_neg h

@[simp] theorem landed_next (rpc : Rpc) (w : World) : (w.next rpc).landed = w.landed := rfl

@[simp] theorem landed_setCache (w : World) (pda : Pubkey)
    (entry : Option ExecuteTaskConsumptionBreakdown) : (w.setCache pda entry).landed = w.landed :=
  rfl

@[simp] theorem landed_submit (w : World) (sub : Submission) (h : sub.landed? = none) :
    (w.submit sub h).landed = w.landed := by
  rw [landed, submit, List.filterMap_append, List.filterMap_cons_none h, List.filterMap_nil,
    List.append_nil, landed]

@[simp] theorem landed_land (w : World) (ixs : List ParsedIx) (st : TxStatus) (chain : Chain)
    (h : w.chain.confirm? st = some chain) : (w.land ixs st chain h).landed = w.landed ++ [st] := by
  rw [landed, land, List.filterMap_append]
  rfl

theorem landed_sublist (w : World) : w.landed.Sublist w.chain.history := w.recorded

theorem landed_nodup (w : World) : (w.landed.map TxStatus.signature).Nodup :=
  (w.landed_sublist.map _).nodup w.chain.distinct

end World

/-- One RPC call: the tick its answer is looked up at. -/
def call {ε : Type} (rpc : Rpc) : EStateM ε World Nat := fun w => .ok w.tick (w.next rpc)

/-- A call whose answer is an error text or a value. -/
def ask {ε α : Type} (rpc : Rpc) (toError : String → ε) (answer : Nat → Except String α) :
    EStateM ε World α :=
  call rpc >>= fun t => Effect.ofExcept ((answer t).mapError toError)

theorem mapError_ask {ε ε' α : Type} {rpc : Rpc} (g : ε → ε') (toError : String → ε)
    (answer : Nat → Except String α) :
    Effect.mapError g (ask rpc toError answer) = ask rpc (fun err => g (toError err)) answer := by
  have hcall : Effect.mapError g (call rpc : EStateM ε World Nat) = call rpc := rfl
  rw [ask, Effect.mapError_bind, hcall, ask]
  congr 1
  funext t
  rw [Effect.mapError_ofExcept]
  cases answer t <;> rfl

section Rules

variable {ε α τ : Type} {rpc : Rpc} {P : α → Prop} {log : World → List τ}

/-- A call leaves every ledger alone that the passing of time leaves alone. -/
theorem reads_call_of (hlog : ∀ w : World, log (w.next rpc) = log w) :
    Effect.Reads log (call rpc : EStateM ε World Nat) fun _ => True :=
  fun w => ⟨[], (hlog w).trans (List.append_nil _).symm, rfl, fun _ _ => trivial⟩

theorem reads_ask_of {toError : String → ε} {answer : Nat → Except String α}
    (hlog : ∀ w : World, log (w.next rpc) = log w) (h : ∀ t v, answer t = .ok v → P v) :
    Effect.Reads log (ask rpc toError answer) P := by
  refine (reads_call_of hlog).bind fun t _ => Effect.reads_ofExcept fun v hv => h t v ?_
  cases ha : answer t with
  | ok a => rw [ha] at hv; exact congrArg _ (Except.ok.inj hv)
  | error e => rw [ha] at hv; exact absurd hv (by simp [Except.mapError])

theorem reads_call : Effect.Reads World.landed (call rpc : EStateM ε World Nat) fun _ => True :=
  reads_call_of fun _ => rfl

theorem reads_ask {toError : String → ε} {answer : Nat → Except String α}
    (h : ∀ t v, answer t = .ok v → P v) :
    Effect.Reads World.landed (ask rpc toError answer) P :=
  reads_ask_of (fun _ => rfl) h

end Rules

end AxelarRelayer.Task
