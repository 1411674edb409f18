import AxelarRelayer.Proof.PayloadCost
import AxelarRelayer.Proof.Sending

/-!
# What is assumed of the network

The rules the nodes and the Axelar crates keep, as far as the results about fees
rest on them: what a transaction costs (`FeeRule`), how prioritization fees are
reported (`FixedFees`, `perSlotMaximum`), and what the instructions of the gateway
look like (`PayloadLaws`). Each is a predicate on the parameters of the model.

The last section is a network that keeps all of them.
-/

namespace AxelarRelayer.Proof

open AxelarRelayer AxelarRelayer.Task

/-! ## The price of a transaction -/

/-- The argument of the first compute budget instruction with this tag. -/
def budgetArgument (tag : UInt8) (ixs : List ParsedIx) : Option Nat :=
  ixs.findSome? fun ix =>
    if ix.programId = COMPUTE_BUDGET_ID ∧ ix.data.head? = some tag then
      some (LittleEndian.decode ix.data.tail)
    else none

/-- The priority fee in lamports: units times micro-lamports, rounded up. -/
def priorityFee (limit price : Nat) : Nat := (limit * price + 999999) / 1000000

/-- What a one-signature transaction costs that requests a price and a limit. -/
def nodeFee (ixs : List ParsedIx) : Nat :=
  5000 + priorityFee ((budgetArgument 2 ixs).getD 0) ((budgetArgument 3 ixs).getD 0)

/-- The chain charges by the rule. -/
def FeeRule (ctx : Context) : Prop := ∀ t ixs, ctx.rpc.fee t ixs = nodeFee ixs

/-- So does the estimation node. -/
def SimnetFeeRule (ctx : Context) : Prop :=
  ∀ t ixs txMeta, ctx.rpc.simnetGetTransaction t ixs = .ok (some txMeta) →
    txMeta.fee = nodeFee ixs

theorem priorityFee_mono {limit limit' price price' : Nat} (hl : limit ≤ limit')
    (hp : price ≤ price') : priorityFee limit price ≤ priorityFee limit' price' :=
  Nat.div_le_div_right (Nat.add_le_add_right (Nat.mul_le_mul hl hp) _)

/-- The two instructions a transaction starts with determine its fee. -/
theorem nodeFee_prepared {price limit : Nat} (hprice : price ≤ Saturating.MAX)
    (hlimit : limit ≤ MAX_COMPUTE_UNIT_LIMIT) (ixs : List ParsedIx) :
    nodeFee (setComputeUnitPrice price :: setComputeUnitLimit limit :: ixs) =
      5000 + priorityFee limit price := by
  have hp : LittleEndian.decode (LittleEndian.encode 8 price) = price :=
    LittleEndian.decode_encode (by
      have : (256 : Nat) ^ 8 = Saturating.MAX + 1 := by decide
      omega)
  have hl : LittleEndian.decode (LittleEndian.encode 4 limit) = limit :=
    LittleEndian.decode_encode (by
      have : (256 : Nat) ^ 4 = 4294967296 := by decide
      simp only [MAX_COMPUTE_UNIT_LIMIT] at hlimit
      omega)
  simp [nodeFee, budgetArgument, setComputeUnitPrice, setComputeUnitLimit, hp, hl]

/-! ## Prioritization fees -/

/-- The fees that are reported, whenever they are, do not change. -/
def FixedFees (ctx : Context) (table : List Pubkey → List Nat) : Prop :=
  ∀ t accounts fees, ctx.rpc.getRecentPrioritizationFees t accounts = .ok fees →
    fees = table accounts

/-- What was paid in one slot, by account written to, and at least. -/
structure SlotFees where
  floor : Nat
  ofAccount : Pubkey → Nat

/-- For each slot the maximum over the accounts. -/
def perSlotMaximum (slots : List SlotFees) (accounts : List Pubkey) : List Nat :=
  slots.map fun slot => accounts.foldr (fun account fee => max (slot.ofAccount account) fee)
    slot.floor

theorem averageFee_eq (fees : List Nat) :
    averageFee fees =
      Saturating.sum (fees.reverse.take 10) / (fees.reverse.take 10).length := by
  -- the count stays far below the clamp, so only the sum can saturate
  have hfold : ∀ (l : List Nat) (sum count : Nat), count + l.length ≤ Saturating.MAX →
      l.foldl (fun acc fee => (Saturating.add acc.1 fee, Saturating.add acc.2 1)) (sum, count) =
        (l.foldl Saturating.add sum, count + l.length) := by
    intro l
    induction l with
    | nil => intros; rfl
    | cons fee l ih =>
        intro sum count hcount
        rw [List.length_cons] at hcount
        rw [List.foldl_cons, Saturating.add_eq_of_le (by omega : count + 1 ≤ Saturating.MAX),
          ih _ _ (by omega), List.foldl_cons, List.length_cons]
        congr 1
        omega
  have hten : (fees.reverse.take 10).length ≤ 10 := List.length_take_le _ _
  rw [averageFee, hfold _ 0 0 (by simp only [Saturating.MAX]; omega), Nat.zero_add]
  dsimp only
  by_cases hpos : (fees.reverse.take 10).length > 0
  · rw [if_pos hpos, Saturating.sum]
  · rw [if_neg hpos, Nat.eq_zero_of_not_pos hpos, Nat.div_zero]

theorem averageFee_le_max (fees : List Nat) : averageFee fees ≤ Saturating.MAX := by
  rw [averageFee_eq, Saturating.sum_eq]
  exact Nat.le_trans (Nat.div_le_self _ _) (Nat.min_le_right _ _)

/-! ## The gateway's instructions -/

/-- What an instruction for the destination program looks like to the costing. -/
structure LooksExecutable (sdk : Sdk) (pda : Pubkey) (ix : ParsedIx) : Prop where
  /-- an executable instruction names the payload account second -/
  payloadAccount : sdk.codec.isAxelarMessage ix.data = true → ix.accounts[1]? = some pda
  /-- it is no instruction of the gateway, even when it goes there -/
  notGateway : ix.programId = sdk.gatewayId → sdk.codec.gatewayInstruction ix.data = none

/-- The byte formats of the instructions the relayer builds. -/
structure PayloadLaws (ctx : Context) : Prop where
  upload : ∀ commandId payload, ∀ ix ∈ uploadIxs ctx commandId payload,
    ix.programId = ctx.sdk.gatewayId ∧ messagePayloadPda ctx commandId ∈ ix.accounts ∧
      ∃ g ∈ [Gas.GatewayInstruction.initializeMessagePayload, .writeMessagePayload,
        .commitMessagePayload], ctx.sdk.codec.gatewayInstruction ix.data = some g
  close : ∀ message ix, closeIx ctx message = .ok ix → ix.programId = ctx.sdk.gatewayId ∧
    ctx.sdk.codec.gatewayInstruction ix.data = some .closeMessagePayload
  destination : ∀ destinationAddress message payload ix,
    DestinationIx ctx destinationAddress message payload ix →
      LooksExecutable ctx.sdk (messagePayloadPda ctx (messageToCommandId ctx message)) ix
  computeBudget : COMPUTE_BUDGET_ID ≠ ctx.sdk.gatewayId ∧
    (∀ price, ctx.sdk.codec.isAxelarMessage (setComputeUnitPrice price).data = false) ∧
    ∀ limit, ctx.sdk.codec.isAxelarMessage (setComputeUnitLimit limit).data = false

/-! ## A network that keeps the rules -/

/--
The Axelar crates, with programs 1 to 5, the PDAs 20 and 21 and leading bytes as tags. Of the
accounts of an instruction only key 9 signs.
-/
def taggedSdk : Sdk where
  gatewayId := .filled 1
  itsId := .filled 2
  governanceId := .filled 3
  gasServiceId := .filled 4
  memoProgramId := .filled 5
  codec := tagCodec
  maxChunkSize := 4
  maxChunkSize_pos := by decide
  commandId _ _ := Vector.replicate 32 7
  getIncomingMessagePda _ := .filled 20
  findMessagePayloadPda _ _ := .filled 21
  getSignatureVerificationPda _ _ := .filled 22
  getVerifierSetTrackerPda _ := .filled 23
  initializeMessagePayload root payer _ _ :=
    .ok ⟨.filled 1, [payer, root, .filled 20, .filled 21], [6]⟩
  writeMessagePayload root payer _ bytes _ := .ok ⟨.filled 1, [root, payer, .filled 21], 7 :: bytes⟩
  commitMessagePayload root payer _ := .ok ⟨.filled 1, [root, payer, .filled 21], [8]⟩
  closeMessagePayload root payer _ := .ok ⟨.filled 1, [root, payer, .filled 21], [9]⟩
  initializePayloadVerificationSession payer root _ _ := .ok ⟨.filled 1, [payer, root], [4]⟩
  verifySignature root tracker session _ _ := .ok ⟨.filled 1, [root, session, tracker], [5]⟩
  approveMessage _ _ root payer session pda := .ok ⟨.filled 1, [root, payer, session, pda], [0]⟩
  rotateSigners root session tracker newTracker payer _ _ :=
    .ok ⟨.filled 1, [root, session, tracker, newTracker, payer], [1]⟩
  executeData _ := none
  constructAxelarExecutableIx _ _ payload incoming pda :=
    .ok ⟨.filled 7, [incoming, pda], 97 :: payload⟩
  calculateGmpIx _ incoming pda _ payload := .ok ⟨.filled 3, [incoming, pda], 97 :: payload⟩
  refundFeesInstruction operator receiver _ _ := .ok ⟨.filled 4, [operator, receiver], [3]⟩
  payloadAccounts _ := some []
  shouldRelayerProceed _ := false
  parsePubkey _ := .ok (.filled 7)
  showSignature _ := "signature"
  showUuid _ := "uuid"
  showPubkey _ := "pubkey"
  instruction ix := ⟨ix.programId, ix.accounts.map fun key => ⟨key, key = .filled 9, true⟩, ix.data⟩
  instruction_parsed ix := by
    have hkeys : ix.accounts.map (AccountMeta.pubkey ∘ fun key => ⟨key, key = .filled 9, true⟩) =
        ix.accounts := List.map_id _
    rw [Instruction.parsed, List.map_map, hkeys]

/-- A receipt that is new at every tick. -/
def receiptAt (t : Nat) : Receipt := ⟨.filled (UInt8.ofNat t), t, none, []⟩

/-- Nodes on which nothing fails, given the end of every send and the fees of every slot. -/
def steadyRpc (send : Nat → List ParsedIx → SendOutcome) (slots : List Nat) : Rpc where
  others _ := []
  getLatestBlockhash _ := .ok (Vector.replicate 32 0)
  simulateTransaction _ _ := .ok ⟨none, some 1000, "ok"⟩
  getRecentPrioritizationFees _ accounts :=
    .ok (perSlotMaximum (slots.map fun fee => ⟨fee, fun _ => 0⟩) accounts)
  sendAndConfirmTransaction := send
  fee _ ixs := nodeFee ixs
  incomingMessage _ _ := .ok (some false)
  fetchTransactionError _ _ := none
  lookup _ _ c := .static c
  lookup_chain _ _ _ := rfl
  buildItsInstruction _ _ _ _ _ _ := .error "not an ITS message"
  simnetGetLatestBlockhash _ := .ok (Vector.replicate 32 0)
  simnetSendAndConfirmTransaction _ _ := .ok ()
  simnetGetTransaction _ ixs := .ok (some ⟨nodeFee ixs, some 1000⟩)
  simnetBuildItsInstruction _ _ _ _ _ _ := .error "not an ITS message"
  priceFirst _ := true
  completion _ sends := sends
  completes _ sends := List.Perm.refl sends
  stray _ _ := false
  amplifierSend _ := .ok ()

/-- A relayer that signs with key 9 on such a network. -/
def steadyContext (send : Nat → List ParsedIx → SendOutcome) (slots : List Nat) : Context where
  sdk := taggedSdk
  rpc := steadyRpc send slots
  signer := .filled 9
  sign _ := .filled 9
  gatewayRootPda := .filled 8
  nameOfTheSolanaChain := "solana"
  allowThirdPartyContractCalls := true

/-- Every send is confirmed. -/
def alwaysConfirmed (t : Nat) (_ : List ParsedIx) : SendOutcome := .confirmed (receiptAt t)

/-- A message of eight bytes for a third-party program. -/
def greeting (availableGas : Int) : ExecuteTask where
  message := ⟨"0xabc-1", "ethereum", "0xabc", "program 7", []⟩
  payload := [104, 101, 108, 108, 111, 33, 33, 33]
  availableGasBalance := ⟨none, availableGas⟩

/-- A relayer before its first task. -/
def freshRelayer : Relayer := ⟨World.start .empty, []⟩

variable {send : Nat → List ParsedIx → SendOutcome} {slots : List Nat}

theorem steady_feeRule : FeeRule (steadyContext send slots) := fun _ _ => rfl

theorem steady_simnetFeeRule : SimnetFeeRule (steadyContext send slots) := by
  intro t ixs txMeta h
  rw [← Option.some.inj (Except.ok.inj h)]

theorem steady_payloadLaws : PayloadLaws (steadyContext send slots) where
  upload := by
    intro commandId payload ix hix
    rcases List.mem_append.mp hix with hix | hix
    · obtain rfl := List.mem_singleton.mp hix
      exact ⟨rfl, by simp [messagePayloadPda, steadyContext, taggedSdk],
        .initializeMessagePayload, by simp, rfl⟩
    rcases List.mem_append.mp hix with hix | hix
    · obtain ⟨chunk, -, hchunk⟩ := List.mem_filterMap.mp hix
      obtain rfl := Option.some.inj hchunk
      exact ⟨rfl, by simp [messagePayloadPda, steadyContext, taggedSdk],
        .writeMessagePayload, by simp, rfl⟩
    · obtain rfl := List.mem_singleton.mp hix
      exact ⟨rfl, by simp [messagePayloadPda, steadyContext, taggedSdk],
        .commitMessagePayload, by simp, rfl⟩
  close := by
    intro message ix hix
    obtain rfl := Except.ok.inj hix
    exact ⟨rfl, rfl⟩
  destination := by
    intro destinationAddress message payload ix hix
    unfold DestinationIx at hix
    split at hix
    · obtain ⟨t, ht⟩ := hix
      cases ht
    · split at hix <;> obtain rfl := Except.ok.inj hix <;>
        exact ⟨fun _ => rfl, fun _ => rfl⟩
  computeBudget := ⟨(by decide : COMPUTE_BUDGET_ID ≠ .filled 1), fun _ => rfl, fun _ => rfl⟩

theorem steady_fixedFees : FixedFees (steadyContext send slots)
    (perSlotMaximum (slots.map fun fee => ⟨fee, fun _ => 0⟩)) :=
  fun _ _ _ h => (Except.ok.inj h).symm

end AxelarRelayer.Proof
