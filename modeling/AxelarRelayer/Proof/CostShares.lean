import Mathlib.Algebra.BigOperators.Ring.List
import AxelarRelayer.Proof.EventMapping
import AxelarRelayer.Proof.PayloadCost

/-!
# Verification costs are shared

The signatures of a batch are verified once, in a session of their own, and every
approval of the batch is charged an equal share, rounded down. However the `n`
approvals are grouped into transactions, `n` shares are charged in all, so at most
`n - 1` lamports go uncharged and none is charged twice
(`computeTotalGas_approvals`).

The same holds one level down: a transaction's cost is divided among its events.
-/

namespace AxelarRelayer.Proof

open AxelarRelayer Gas Forwarder

variable {codec : Codec} {gatewayProgramId session : Pubkey} {setSize verificationCost : Nat}
  {lookup : Lookup}

/-- A transaction and the lookups made while it is costed, by instruction. -/
structure CostedTx where
  tx : SolanaTransaction
  rpc : Nat → Lookup

/-- The instruction approves a message of a batch of `setSize`, verified in `session`. -/
def Approves (codec : Codec) (gatewayProgramId session : Pubkey) (setSize : Nat) (ix : ParsedIx) :
    Prop :=
  ix.programId = gatewayProgramId ∧
    codec.gatewayInstruction ix.data = some (.approveMessage setSize) ∧ ix.accounts[2]? = some session

instance (ix : ParsedIx) : Decidable (Approves codec gatewayProgramId session setSize ix) :=
  inferInstanceAs (Decidable (_ ∧ _))

/-- How many messages a transaction approves. -/
def approvals (codec : Codec) (gatewayProgramId session : Pubkey) (setSize : Nat)
    (tx : SolanaTransaction) : Nat :=
  tx.ixs.countP fun ix => decide (Approves codec gatewayProgramId session setSize ix)

/-- The transactions approve the messages of one batch, each once, and hold nothing else to cost. -/
structure ApprovesBatch (codec : Codec) (gatewayProgramId session : Pubkey) (setSize : Nat)
    (txs : List CostedTx) : Prop where
  ixs : ∀ costed ∈ txs, ∀ ix ∈ costed.tx.ixs,
    Approves codec gatewayProgramId session setSize ix ∨
      ix.programId ≠ gatewayProgramId ∧ codec.isAxelarMessage ix.data = false
  once : (txs.map fun costed => approvals codec gatewayProgramId session setSize costed.tx).sum =
    setSize

/-- The transactions of the verification session, as a lookup finds them. -/
def sessionTxs (codec : Codec) (gatewayProgramId session : Pubkey) (lookup : Lookup) :
    List SolanaTransaction :=
  matchingTxs codec gatewayProgramId countsVerification
    ((lookup.chainAt 0).range session none none)

/-- A lookup that works and finds a session of the given cost, one instruction a transaction. -/
structure FindsSession (codec : Codec) (gatewayProgramId session : Pubkey) (verificationCost : Nat)
    (lookup : Lookup) : Prop where
  works : Lookup.Works lookup
  single : ∀ tx ∈ sessionTxs codec gatewayProgramId session lookup,
    multiplicity codec gatewayProgramId countsVerification tx = 1
  cost : ((sessionTxs codec gatewayProgramId session lookup).map fun tx => tx.costInLamports).sum =
    verificationCost

/-- No sum on the way exceeds a `u64`. -/
structure Unsaturated (codec : Codec) (gatewayProgramId session : Pubkey)
    (setSize verificationCost : Nat) (txs : List CostedTx) : Prop where
  verified : verificationCost ≤ Saturating.MAX
  totals : ∀ costed ∈ txs, costed.tx.costInLamports +
    approvals codec gatewayProgramId session setSize costed.tx * (verificationCost / setSize) ≤
      Saturating.MAX

/-- The approve transactions' own fees. -/
def ownFees (txs : List CostedTx) : Nat := (txs.map fun costed => costed.tx.costInLamports).sum

/-! ## One transaction -/

/-- What the session is found to have cost. -/
theorem costOfSignatureVerification_ok
    (h : FindsSession codec gatewayProgramId session verificationCost lookup)
    (hsat : verificationCost ≤ Saturating.MAX) :
    costOfSignatureVerification codec gatewayProgramId lookup session = .ok verificationCost := by
  have hsum : ((sessionTxs codec gatewayProgramId session lookup).map fun tx =>
      multiplicity codec gatewayProgramId countsVerification tx * tx.costInLamports).sum =
        verificationCost := by
    rw [← h.cost]
    congr 1
    refine List.map_congr_left fun tx htx => ?_
    rw [h.single tx htx, Nat.one_mul]
  rw [costOfSignatureVerification, costOfHistory_ok h.works, sum_contribution]
  change Except.ok (min ((sessionTxs codec gatewayProgramId session lookup).map _).sum _) = _
  rw [hsum, Nat.min_eq_left hsat]

/-- An approval adds its share. -/
theorem chargeIx_approves {ix : ParsedIx} {total : Nat}
    (hix : Approves codec gatewayProgramId session setSize ix)
    (h : FindsSession codec gatewayProgramId session verificationCost lookup)
    (hsession : verificationCost ≤ Saturating.MAX)
    (htotal : total + verificationCost / setSize ≤ Saturating.MAX) :
    chargeIx codec gatewayProgramId lookup total ix = .ok (total + verificationCost / setSize) := by
  obtain ⟨hid, hdata, hacc⟩ := hix
  rw [chargeIx, if_pos hid, hdata]
  simp only [hacc, costOfSignatureVerification_ok h hsession]
  change Except.ok (Saturating.add total _) = _
  rw [Saturating.add_eq_of_le htotal]

/-- **The loop over the instructions** adds one share for every approval. -/
theorem foldlM_chargeIx {rpc : Nat → Lookup} (ixs : List ParsedIx)
    (hixs : ∀ ix ∈ ixs, Approves codec gatewayProgramId session setSize ix ∨
      ix.programId ≠ gatewayProgramId ∧ codec.isAxelarMessage ix.data = false)
    (hfinds : ∀ i, FindsSession codec gatewayProgramId session verificationCost (rpc i))
    (hsession : verificationCost ≤ Saturating.MAX) (k total : Nat)
    (htotal : total + ixs.countP (fun ix =>
      decide (Approves codec gatewayProgramId session setSize ix)) * (verificationCost / setSize) ≤
        Saturating.MAX) :
    (ixs.zipIdx k).foldlM (fun total ix => chargeIx codec gatewayProgramId (rpc ix.2) total ix.1)
      total = .ok (total + ixs.countP (fun ix =>
        decide (Approves codec gatewayProgramId session setSize ix)) *
          (verificationCost / setSize)) := by
  induction ixs generalizing k total with
  | nil =>
      rw [List.countP_nil, Nat.zero_mul, Nat.add_zero]
      rfl
  | cons ix ixs ih =>
      have hrest := fun ix' hix' => hixs ix' (List.mem_cons_of_mem _ hix')
      rw [List.zipIdx_cons, List.foldlM_cons]
      by_cases hix : Approves codec gatewayProgramId session setSize ix
      · -- an approval: one share more
        have hcount : (ix :: ixs).countP (fun ix =>
            decide (Approves codec gatewayProgramId session setSize ix)) = ixs.countP (fun ix =>
              decide (Approves codec gatewayProgramId session setSize ix)) + 1 :=
          List.countP_cons_of_pos (decide_eq_true hix)
        rw [hcount, Nat.succ_mul] at htotal ⊢
        rw [chargeIx_approves hix (hfinds k) hsession (by omega)]
        refine (ih hrest (k + 1) _ (by omega)).trans ?_
        congr 1
        omega
      · -- an instruction of another program, which the loop passes over
        obtain ⟨hid, hmsg⟩ := (hixs ix List.mem_cons_self).resolve_left hix
        have hcount : (ix :: ixs).countP (fun ix =>
            decide (Approves codec gatewayProgramId session setSize ix)) = ixs.countP fun ix =>
              decide (Approves codec gatewayProgramId session setSize ix) :=
          List.countP_cons_of_neg (by rwa [decide_eq_true_eq])
        rw [hcount] at htotal ⊢
        rw [chargeIx_skipped (fun h => absurd h hid) fun _ => hmsg]
        exact ih hrest (k + 1) total htotal

/-- A transaction is charged its fee and a share for every message it approves. -/
theorem computeTotalGas_approvals {txs : List CostedTx} {costed : CostedTx} (hmem : costed ∈ txs)
    (hbatch : ApprovesBatch codec gatewayProgramId session setSize txs)
    (hfinds : ∀ i, FindsSession codec gatewayProgramId session verificationCost (costed.rpc i))
    (hsat : Unsaturated codec gatewayProgramId session setSize verificationCost txs) :
    computeTotalGas codec gatewayProgramId costed.tx costed.rpc =
      .ok (costed.tx.costInLamports +
        approvals codec gatewayProgramId session setSize costed.tx * (verificationCost / setSize)) :=
  foldlM_chargeIx costed.tx.ixs (hbatch.ixs costed hmem) hfinds hsat.verified 0 _
    (hsat.totals costed hmem)

/-! ## The events of a transaction -/

/-- The cost that is published with an event. -/
def publishedCost : Event → Int
  | .gasRefunded _ _ _ _ cost => cost.amount
  | .messageApproved _ _ cost => cost.amount
  | .messageExecuted _ _ _ _ cost => cost.amount
  | _ => 0

/-- What the events of one transaction are published with, if they are. -/
def publishedCosts (formats : Formats) (coreEvents : List Core.Event) (totalCost : Nat) : Int :=
  match mapCoreEventsToAmplifier formats coreEvents totalCost with
  | .ok events => (events.map publishedCost).sum
  | .error _ => 0

/-- An event is published with at most the price of one event. -/
theorem publishedCost_le {formats : Formats} {price : Nat} (hprice : price < 2 ^ 511)
    {coreEvent : Core.Event} {event : Event}
    (h : convertCoreEventToAmp formats coreEvent price = .ok (some event)) :
    publishedCost event ≤ price := by
  cases coreEvent with
  | call common message destinationChain payload =>
      -- no cost is published with a call, nor with most of the events below
      have hconv : convertCall formats common message destinationChain payload = some event :=
        Except.ok.inj h
      obtain ⟨bytes, -, hconv⟩ := Option.bind_eq_some_iff.mp hconv
      obtain ⟨decoded, -, hconv⟩ := Option.bind_eq_some_iff.mp hconv
      obtain rfl := Option.some.inj hconv
      exact Int.natCast_nonneg price
  | gasCredit common messageId refundAddress payment =>
      obtain ⟨token, -, h⟩ := Effect.bind_eq_ok h
      obtain rfl := Option.some.inj (Except.ok.inj h)
      exact Int.natCast_nonneg price
  -- the three events that carry a cost carry exactly the price
  | gasRefunded common messageId recipientAddress refundedAmount cost =>
      rw [convertCoreEventToAmp, tokenFromAmount_price cost hprice] at h
      obtain ⟨token, -, h⟩ := Effect.bind_eq_ok h
      obtain rfl := Option.some.inj (Except.ok.inj h)
      exact Int.le_refl _
  | messageApproved common message cost =>
      rw [convertCoreEventToAmp, convertMessageApproved, tokenFromAmount_price cost hprice] at h
      cases hmessage : convertGatewayMessage formats message with
      | none =>
          rw [hmessage] at h
          cases h
      | some decoded =>
          rw [hmessage] at h
          obtain rfl := Option.some.inj (Except.ok.inj h)
          exact Int.le_refl _
  | messageExecuted common messageId sourceChain status cost =>
      rw [convertCoreEventToAmp] at h
      unfold convertMessageExecuted at h
      dsimp only at h
      rw [tokenFromAmount_price cost hprice] at h
      obtain rfl := Option.some.inj (Except.ok.inj h)
      exact Int.le_refl _
  | signersRotated common messageId =>
      have hconv : convertSignersRotated formats common messageId = some event := Except.ok.inj h
      obtain ⟨hash, -, hconv⟩ := Option.bind_eq_some_iff.mp hconv
      obtain ⟨decoded, -, hconv⟩ := Option.bind_eq_some_iff.mp hconv
      obtain ⟨epoch, -, hconv⟩ := Option.bind_eq_some_iff.mp hconv
      obtain rfl := Option.some.inj hconv
      exact Int.natCast_nonneg price
  | itsInterchainTransfer common messageId destinationChain tokenSpent =>
      rw [convertCoreEventToAmp, convertItsInterchainTransfer] at h
      cases htoken : tokenSpent.tokenId with
      | none =>
          rw [htoken] at h
          cases h
      | some tokenId =>
          rw [htoken] at h
          obtain ⟨token, -, h⟩ := Effect.bind_eq_ok h
          obtain rfl := Option.some.inj (Except.ok.inj h)
          exact Int.natCast_nonneg price
  | itsTokenMetadataRegistered =>
      obtain rfl := Option.some.inj (Except.ok.inj h)
      exact Int.natCast_nonneg price
  | itsLinkTokenStarted =>
      obtain rfl := Option.some.inj (Except.ok.inj h)
      exact Int.natCast_nonneg price
  | itsInterchainTokenDeploymentStarted =>
      obtain rfl := Option.some.inj (Except.ok.inj h)
      exact Int.natCast_nonneg price
  | cannotExecuteMessageV2 => cases h

/-- **Events are not over-billed**: their costs sum to at most the cost of the transaction. -/
theorem publishedCosts_le (formats : Formats) (coreEvents : List Core.Event) {totalCost : Nat}
    (hcost : totalCost < 2 ^ 64) : publishedCosts formats coreEvents totalCost ≤ totalCost := by
  have hprice := pricePerEvent_lt coreEvents hcost
  rw [publishedCosts]
  cases hmap : mapCoreEventsToAmplifier formats coreEvents totalCost with
  | error panic => exact Int.natCast_nonneg totalCost
  | ok events =>
      obtain ⟨amplifierEvents, hconverted, hevents⟩ := Effect.bind_eq_ok hmap
      obtain rfl := Except.ok.inj hevents
      have hforall := Effect.mapM_eq_ok.mp hconverted
      -- every event takes at most one share, whatever becomes of the others
      have hsum : ∀ {converted : List (Option Event)} {cores : List Core.Event},
          List.Forall₂ (fun event amplifierEvent => convertCoreEventToAmp formats event
            (pricePerEvent coreEvents totalCost) = .ok amplifierEvent) cores converted →
          ((converted.filterMap id).map publishedCost).sum ≤
            cores.length * pricePerEvent coreEvents totalCost := by
        intro converted cores h
        induction h with
        | nil => rw [List.length_nil, Nat.cast_zero, Int.zero_mul, List.filterMap_nil, List.map_nil,
            List.sum_nil]
        | @cons core amplifierEvent _ _ hevent _ ih =>
            rw [List.length_cons, Nat.cast_succ, Int.add_mul, Int.one_mul]
            cases amplifierEvent with
            -- an event that is left out costs nothing
            | none => exact Int.le_trans ih (Int.le_add_of_nonneg_right (Int.natCast_nonneg _))
            | some event =>
                change publishedCost event + _ ≤ _
                rw [Int.add_comm]
                exact Int.add_le_add ih (publishedCost_le hprice hevent)
      have hshares : coreEvents.length * pricePerEvent coreEvents totalCost ≤ totalCost :=
        Nat.mul_div_le totalCost coreEvents.length
      exact Int.le_trans (hsum hforall) (by exact_mod_cast hshares)

/-! ## A batch -/

/--
**Verification costs are shared without over-billing**, however the messages of a
batch are grouped into transactions, and so is the cost of a transaction among its
events.
-/
theorem costs_shared (codec : Codec) (gatewayProgramId session : Pubkey)
    (setSize verificationCost : Nat) (txs : List CostedTx) (hpos : 1 ≤ setSize)
    (hbatch : ApprovesBatch codec gatewayProgramId session setSize txs)
    (hfinds : ∀ costed ∈ txs, ∀ i,
      FindsSession codec gatewayProgramId session verificationCost (costed.rpc i))
    (hsat : Unsaturated codec gatewayProgramId session setSize verificationCost txs) :
    (∃ costs, txs.mapM (fun costed =>
        computeTotalGas codec gatewayProgramId costed.tx costed.rpc) = .ok costs ∧
      ownFees txs + verificationCost ≤ costs.sum + (setSize - 1) ∧
      costs.sum ≤ ownFees txs + verificationCost) ∧
    ∀ (formats : Formats) (coreEvents : List Core.Event) (totalCost : Nat), totalCost < 2 ^ 64 →
      publishedCosts formats coreEvents totalCost ≤ totalCost := by
  refine ⟨?_, fun formats coreEvents totalCost hcost => publishedCosts_le formats coreEvents hcost⟩
  let share := verificationCost / setSize
  let count (costed : CostedTx) := approvals codec gatewayProgramId session setSize costed.tx
  have hcosts : txs.mapM (fun costed =>
      computeTotalGas codec gatewayProgramId costed.tx costed.rpc) =
        .ok (txs.map fun costed => costed.tx.costInLamports + count costed * share) := by
    refine Effect.mapM_eq_ok.mpr ?_
    rw [List.forall₂_map_right_iff, List.forall₂_same]
    intro costed hmem
    exact computeTotalGas_approvals hmem hbatch (hfinds costed hmem) hsat
  have hsum : (txs.map fun costed => costed.tx.costInLamports + count costed * share).sum =
      ownFees txs + setSize * share := by
    rw [List.sum_map_add, List.sum_map_mul_right, hbatch.once, ownFees]
  refine ⟨_, hcosts, ?_, ?_⟩
  · -- the remainder of the division is what goes uncharged
    have hdivision : setSize * share + verificationCost % setSize = verificationCost :=
      Nat.div_add_mod verificationCost setSize
    have hremainder : verificationCost % setSize < setSize := Nat.mod_lt _ hpos
    omega
  · have hshares : setSize * share ≤ verificationCost := Nat.mul_div_le verificationCost setSize
    omega

/-! ## Three messages in two transactions -/

/-- Decoding by the leading byte; the batch size of an approval follows it. -/
def batchCodec : Codec where
  gatewayInstruction
    | 0 :: size :: _ => some (.approveMessage size.toNat)
    | 5 :: _ => some .verifySignature
    | _ => none
  isAxelarMessage _ := false

/-- A transaction of the batch: its accounts are the gateway 1 and the session 22. -/
def batchTx (sig : UInt8) (ixs : List ParsedIx) : SolanaTransaction where
  signature := .filled sig
  timestamp := none
  logs := []
  accountKeys := [.filled 1, .filled 22]
  ixs := ixs
  slot := sig.toNat
  costInLamports := 5000

/-- Two signatures are verified, in a transaction each. -/
def sessionChain : Chain where
  history := [.successful (batchTx 1 [⟨.filled 1, [.filled 22], [5]⟩]),
    .successful (batchTx 2 [⟨.filled 1, [.filled 22], [5]⟩])]
  distinct := by decide
  slots := by decide

/-- The approval of one of three messages. -/
def approvalIx : ParsedIx := ⟨.filled 1, [.filled 8, .filled 9, .filled 22], [0, 3]⟩

/-- Two approvals in one transaction, the third in another. -/
def batchOfThree : List CostedTx :=
  [⟨batchTx 3 [approvalIx, approvalIx], fun _ => .static sessionChain⟩,
    ⟨batchTx 4 [approvalIx], fun _ => .static sessionChain⟩]

theorem batchOfThree_approves :
    ApprovesBatch batchCodec (.filled 1) (.filled 22) 3 batchOfThree where
  ixs := by decide
  once := by decide

theorem static_findsSession :
    FindsSession batchCodec (.filled 1) (.filled 22) 10000 (.static sessionChain) where
  works := ⟨fun _ => rfl, fun _ => rfl⟩
  single := by decide +kernel
  cost := by decide +kernel

/-- Three shares of 3333 lamports: one lamport of the 10000 goes uncharged. -/
theorem batchOfThree_shared : ∃ costs, batchOfThree.mapM (fun costed =>
    computeTotalGas batchCodec (.filled 1) costed.tx costed.rpc) = .ok costs ∧
      20000 ≤ costs.sum + 2 ∧ costs.sum ≤ 20000 := by
  have hfinds : ∀ costed ∈ batchOfThree, ∀ i,
      FindsSession batchCodec (.filled 1) (.filled 22) 10000 (costed.rpc i) := by
    intro costed hcosted i
    rcases List.mem_pair.mp hcosted with rfl | rfl
    · exact static_findsSession
    · exact static_findsSession
  exact (costs_shared batchCodec (.filled 1) (.filled 22) 3 10000 batchOfThree (by decide)
    batchOfThree_approves hfinds ⟨by decide, by decide⟩).1

end AxelarRelayer.Proof
