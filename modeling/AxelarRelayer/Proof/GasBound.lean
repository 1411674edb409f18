import AxelarRelayer.Proof.CachedEstimate

/-!
# What a passed gas check is worth

Every transaction an attempt lands is matched with a stage of the estimate: an
upload transaction with the stage of its instruction, and the one that executes
and closes with the last two stages. A stage is estimated at the largest limit
there is and at the price of all accounts of its instruction, so it covers the
transaction (`cost_le_stageFee`).

The last transaction needs an inequality of its own. Its price is the average of
maxima over the accounts of two instructions, at most 128 of them; a maximum over
a union is at most the sum of the maxima, and rounding the averages down loses less
than one (`accountsPrice_merged`). The second base fee of the estimate pays for that.
-/

namespace AxelarRelayer.Proof

open AxelarRelayer AxelarRelayer.Task Effect

variable {ctx : Context} {message : Message} {payload : List UInt8}
  {destinationAddress pda : Pubkey} {slots : List SlotFees} {ix execute close : ParsedIx}
  {st : TxStatus}

/-- The price of a set of accounts. -/
def accountsPrice (slots : List SlotFees) (accounts : List Pubkey) : Nat :=
  averageFee (perSlotMaximum slots accounts)

/-- What the estimate charges for one instruction. -/
def stageFee (slots : List SlotFees) (ix : ParsedIx) : Nat :=
  5000 + priorityFee 1400000 (accountsPrice slots ix.accounts)

/-- The fees of what was landed between two worlds. -/
def feesPaid (before after : World) : Nat :=
  ((after.landed.drop before.landed.length).map fun st => st.tx.costInLamports).sum

/-- Both clients build the same execute instruction. -/
def SameExecuteIx (ctx : Context) : Prop :=
  ∀ t t' incomingMessagePda payloadPda message payload ix ix',
    ctx.rpc.buildItsInstruction t ctx.signer incomingMessagePda payloadPda message payload = .ok ix →
    ctx.rpc.simnetBuildItsInstruction t' ctx.signer incomingMessagePda payloadPda message payload =
      .ok ix' → ix = ix'

/-! ## Prices -/

/-- The maximum of a slot is the least bound. -/
theorem slotMaximum_le {slot : SlotFees} {accounts : List Pubkey} {n : Nat} :
    accounts.foldr (fun account fee => max (slot.ofAccount account) fee) slot.floor ≤ n ↔
      slot.floor ≤ n ∧ ∀ account ∈ accounts, slot.ofAccount account ≤ n := by
  induction accounts with
  | nil => simp
  | cons account accounts ih =>
      rw [List.foldr_cons, Nat.max_le, ih, List.forall_mem_cons]
      constructor
      · rintro ⟨h, hfloor, hall⟩
        exact ⟨hfloor, h, hall⟩
      · rintro ⟨hfloor, h, hall⟩
        exact ⟨h, hfloor, hall⟩

/-- Averages over the same slots, rounded down, are subadditive up to one. -/
theorem averageFee_le_add {f g h : SlotFees → Nat} (hle : ∀ slot, f slot ≤ g slot + h slot) :
    averageFee (slots.map f) ≤ averageFee (slots.map g) + averageFee (slots.map h) + 1 := by
  have heq : ∀ f : SlotFees → Nat, averageFee (slots.map f) =
      min ((slots.reverse.take 10).map f).sum Saturating.MAX / (slots.reverse.take 10).length := by
    intro f
    rw [averageFee_eq, ← List.map_reverse, ← List.map_take, List.length_map, Saturating.sum_eq]
  rw [heq f, heq g, heq h]
  set recent := slots.reverse.take 10
  have hsum : (recent.map f).sum ≤ (recent.map g).sum + (recent.map h).sum := by
    rw [← List.sum_map_add]
    exact List.sum_le_sum fun slot _ => hle slot
  have hmin : min (recent.map f).sum Saturating.MAX ≤
      min (recent.map g).sum Saturating.MAX + min (recent.map h).sum Saturating.MAX := by omega
  refine (Nat.div_le_div_right hmin).trans ?_
  generalize min (recent.map g).sum Saturating.MAX = a
  generalize min (recent.map h).sum Saturating.MAX = b
  -- two quotients, each rounded down, lose less than one each
  rcases Nat.eq_zero_or_pos recent.length with hzero | hpos
  · rw [hzero, Nat.div_zero]
    exact Nat.zero_le _
  generalize recent.length = n at hpos ⊢
  have ha := Nat.div_add_mod a n
  have hb := Nat.div_add_mod b n
  have hra := Nat.mod_lt a hpos
  have hrb := Nat.mod_lt b hpos
  refine Nat.le_of_lt_succ (Nat.div_lt_of_lt_mul ?_)
  rw [Nat.mul_succ, Nat.mul_add, Nat.mul_add]
  omega

/-- **The price of a merged transaction.** -/
theorem accountsPrice_merged {accounts : List Pubkey}
    (hsub : ∀ account ∈ accounts, account ∈ execute.accounts ∨ account ∈ close.accounts) :
    accountsPrice slots accounts ≤
      accountsPrice slots execute.accounts + accountsPrice slots close.accounts + 1 := by
  refine averageFee_le_add fun slot => ?_
  have hexecute := slotMaximum_le.mp (Nat.le_refl (execute.accounts.foldr
    (fun account fee => max (slot.ofAccount account) fee) slot.floor))
  have hclose := slotMaximum_le.mp (Nat.le_refl (close.accounts.foldr
    (fun account fee => max (slot.ofAccount account) fee) slot.floor))
  refine slotMaximum_le.mpr ⟨?_, fun account haccount => ?_⟩
  · have := hexecute.1
    omega
  · rcases hsub account haccount with hin | hin
    · have := hexecute.2 account hin
      omega
    · have := hclose.2 account hin
      omega

/-! ## What one transaction costs -/

/-- A transaction in front of `ixs` pays at most the largest limit at their price. -/
theorem Carries.cost_le {ixs : List ParsedIx} (h : Carries ctx ixs st) (hrule : FeeRule ctx)
    (hfees : FixedFees ctx (perSlotMaximum slots)) : st.tx.costInLamports ≤
      5000 + priorityFee 1400000 (accountsPrice slots (touchedAccounts ixs)) := by
  obtain ⟨sent, t, receipt, error, ⟨t', fees, limit, hanswer, hlimit, rfl⟩, rfl⟩ := h
  obtain rfl := hfees t' _ fees hanswer
  have hcost : (confirmedStatus ctx t (setComputeUnitPrice (averageFee (perSlotMaximum slots
      (touchedAccounts ixs))) :: setComputeUnitLimit limit :: ixs) receipt error).tx.costInLamports =
      5000 + priorityFee limit (accountsPrice slots (touchedAccounts ixs)) := by
    rw [accountsPrice, ← nodeFee_prepared (averageFee_le_max _) hlimit ixs, ← hrule t]
    cases error <;> rfl
  rw [hcost]
  exact Nat.add_le_add_left (priorityFee_mono hlimit (Nat.le_refl _)) _

/-- One instruction is covered by its stage. -/
theorem cost_le_stageFee (h : Carries ctx [ix] st) (hfew : ix.accounts.length ≤ 128)
    (hrule : FeeRule ctx) (hfees : FixedFees ctx (perSlotMaximum slots)) :
    st.tx.costInLamports ≤ stageFee slots ix := by
  have htouched : touchedAccounts [ix] = ix.accounts := by
    rw [touchedAccounts, List.flatMap_singleton, List.take_of_length_le hfew]
  have hcost := h.cost_le hrule hfees
  rwa [htouched] at hcost

/-- Two instructions in one transaction are covered by the two stages. -/
theorem cost_le_stageFee_add (h : Carries ctx [execute, close] st) (hrule : FeeRule ctx)
    (hfees : FixedFees ctx (perSlotMaximum slots)) :
    st.tx.costInLamports ≤ stageFee slots execute + stageFee slots close := by
  have hprice : accountsPrice slots (touchedAccounts [execute, close]) ≤
      accountsPrice slots execute.accounts + accountsPrice slots close.accounts + 1 := by
    refine accountsPrice_merged fun account haccount => ?_
    have hin := List.mem_of_mem_take haccount
    simpa using hin
  have hcost := h.cost_le hrule hfees
  have hmono := priorityFee_mono (Nat.le_refl 1400000) hprice
  simp only [stageFee, priorityFee] at hcost hmono ⊢
  omega

/-! ## What an attempt costs -/

/-- Transactions that carry instructions, each at most once, cost at most their stages. -/
theorem Carried.cost_le {items : List ParsedIx} {new : List TxStatus} (h : Carried ctx items new)
    (hfew : ∀ ix ∈ items, ix.accounts.length ≤ 128) (hrule : FeeRule ctx)
    (hfees : FixedFees ctx (perSlotMaximum slots)) :
    (new.map fun st => st.tx.costInLamports).sum ≤ (items.map (stageFee slots)).sum := by
  obtain ⟨pairs, hsub, rfl, hall⟩ := h
  have hpairs : (pairs.map fun p => p.2.tx.costInLamports).sum ≤
      (pairs.map fun p => stageFee slots p.1).sum :=
    List.sum_le_sum fun p hp => cost_le_stageFee (hall p hp)
      (hfew p.1 (hsub.subset (List.mem_map_of_mem hp))) hrule hfees
  obtain ⟨used, hperm, hused⟩ := hsub
  calc ((pairs.map Prod.snd).map fun st => st.tx.costInLamports).sum
      = (pairs.map fun p => p.2.tx.costInLamports).sum := by rw [List.map_map]; rfl
    _ ≤ (pairs.map fun p => stageFee slots p.1).sum := hpairs
    _ = ((pairs.map Prod.fst).map (stageFee slots)).sum := by rw [List.map_map]; rfl
    _ = (used.map (stageFee slots)).sum := (hperm.symm.map _).sum_eq
    _ ≤ (items.map (stageFee slots)).sum :=
        (hused.map _).sum_le_sum fun _ _ => Nat.zero_le _

/-- **An attempt costs at most the stages of its message.** -/
theorem Attempt.cost_le {new uploads call : List TxStatus} (slots : List SlotFees)
    (h : Attempt ctx destinationAddress message payload new uploads call)
    (hsame : ∀ ix, DestinationIx ctx destinationAddress message payload ix → ix = execute)
    (hclose : closeIx ctx message = .ok close)
    (hfew : ∀ ix ∈ uploadIxs ctx (messageToCommandId ctx message) payload,
      ix.accounts.length ≤ 128)
    (hrule : FeeRule ctx) (hfees : FixedFees ctx (perSlotMaximum slots)) :
    (new.map fun st => st.tx.costInLamports).sum ≤
      ((uploadIxs ctx (messageToCommandId ctx message) payload ++ [execute, close]).map
        (stageFee slots)).sum := by
  have huploads := h.carried.cost_le hfew hrule hfees
  -- the call is one transaction or none
  have hcall : (call.map fun st => st.tx.costInLamports).sum ≤
      stageFee slots execute + stageFee slots close := by
    match call, h.once, h.carries with
    | [], _, _ => exact Nat.zero_le _
    | [st], _, hcarries =>
        obtain ⟨ix, close', hix, hclose', hst⟩ := hcarries st List.mem_cons_self
        obtain rfl := hsame ix hix
        obtain rfl : close' = close := Except.ok.inj (hclose'.symm.trans hclose)
        rw [List.map_singleton, List.sum_singleton]
        exact cost_le_stageFee_add hst hrule hfees
    | _ :: _ :: _, honce, _ => exact absurd honce (by simp)
  have hlast : ([execute, close].map (stageFee slots)).sum =
      stageFee slots execute + stageFee slots close := by
    rw [List.map_cons, List.map_singleton, List.sum_cons, List.sum_singleton]
  rw [h.split, List.map_append, List.sum_append, List.map_append, List.sum_append, hlast]
  exact Nat.add_le_add huploads hcall

/-! ## The check -/

/-- A fresh check that passes has estimated at most what is available. -/
theorem estimate_of_check {w w₁ : World} {available : Int} (hcache : w.cache pda = none)
    (hcheck : ensureEnoughGas ctx message payload destinationAddress pda available w = .ok () w₁) :
    ∃ (cost : Nat) (breakdown : _), (cost : Int) ≤ available ∧ ∃ runs,
      Estimated ctx message payload destinationAddress runs (cost, breakdown) := by
  cases hrun : costOfMessage ctx message payload destinationAddress (w.cache pda)
      (w.setCache pda none) with
  | error e w' =>
      rw [ensureEnoughGas, run_bind_ok _ (rfl : (modifyGet fun w : World =>
        (w.cache pda, w.setCache pda none) : EStateM Report World _) w = _),
        run_bind_error _ hrun] at hcheck
      cases hcheck
  | ok result w' =>
      obtain ⟨cost, breakdown⟩ := result
      rw [ensureEnoughGas_run available hrun] at hcheck
      by_cases hgt : (cost : Int) > available
      · rw [if_pos hgt] at hcheck
        cases hcheck
      · refine ⟨cost, breakdown, Int.not_lt.mp hgt, ?_⟩
        rw [hcache] at hrun
        exact (reads_estimateTotalExecuteCost landed_apartFromSimnet).value hrun

/-- The cost of an estimate is one clamp of its stages. -/
theorem cost_eq_stageFees {runs : List StageRun}
    {result : Nat × ExecuteTaskConsumptionBreakdown}
    (h : Estimated ctx message payload destinationAddress runs result)
    (hrule : SimnetFeeRule ctx) (hfees : FixedFees ctx (perSlotMaximum slots)) :
    result.1 = min ((runs.map StageRun.ix).map (stageFee slots)).sum Saturating.MAX := by
  rw [h.cost, Saturating.sum_eq, List.map_map]
  congr 2
  refine List.map_congr_left fun run hrun => ?_
  obtain ⟨t, fees, t', txMeta, hanswer, hmeta, hfee, -⟩ := (h.ran run hrun).ran
  obtain rfl := hfees t _ fees hanswer
  rw [← hfee, hrule t' _ txMeta hmeta, nodeFee_prepared (averageFee_le_max _)
    (by decide : 1400000 ≤ MAX_COMPUTE_UNIT_LIMIT) [run.ix], Function.comp_apply, stageFee,
    accountsPrice]

/-- The execute instructions of the two clients. -/
theorem destinationIx_unique (hsame : SameExecuteIx ctx)
    (hix : DestinationIx ctx destinationAddress message payload ix)
    (hexecute : SimnetDestinationIx ctx destinationAddress message payload execute) :
    ix = execute := by
  unfold DestinationIx at hix
  unfold SimnetDestinationIx at hexecute
  by_cases hits : destinationAddress = ctx.sdk.itsId
  · simp only [if_pos hits] at hix hexecute
    obtain ⟨t, ht⟩ := hix
    obtain ⟨t', ht'⟩ := hexecute
    exact hsame t t' _ _ _ _ _ _ ht ht'
  simp only [if_neg hits] at hix hexecute
  by_cases hgov : destinationAddress = ctx.sdk.governanceId
  · simp only [if_pos hgov] at hix hexecute
    exact Except.ok.inj (hix.symm.trans hexecute)
  · simp only [if_neg hgov] at hix hexecute
    exact Except.ok.inj (hix.symm.trans hexecute)

/--
**A passed gas check bounds what is spent.** If the check passes through a fresh
estimate, then whatever the upload and the call of the destination program land
afterwards, from any world and with any course of simulations, sends and drops,
costs at most the available gas.
-/
theorem gas_check_bounds_spending (ctx : Context) (message : Message) (payload : List UInt8)
    (destinationAddress : Pubkey) (slots : List SlotFees) (available : Int) (w w₁ w₂ : World)
    (hrule : FeeRule ctx) (hsimnet : SimnetFeeRule ctx)
    (hfees : FixedFees ctx (perSlotMaximum slots)) (hsame : SameExecuteIx ctx)
    (hcache : w.cache (ctx.sdk.getIncomingMessagePda (messageToCommandId ctx message)) = none)
    (hcheck : ensureEnoughGas ctx message payload destinationAddress
      (ctx.sdk.getIncomingMessagePda (messageToCommandId ctx message)) available w = .ok () w₁)
    (hsum : feesPaid w₂ (stateOf (uploadAndExecute ctx message payload destinationAddress
      (ctx.sdk.getIncomingMessagePda (messageToCommandId ctx message)) w₂)) < 2 ^ 64) :
    (feesPaid w₂ (stateOf (uploadAndExecute ctx message payload destinationAddress
      (ctx.sdk.getIncomingMessagePda (messageToCommandId ctx message)) w₂)) : Int) ≤ available := by
  obtain ⟨cost, breakdown, hle, runs, hest⟩ := estimate_of_check hcache hcheck
  obtain ⟨execute, close, hexecute, hclose, hixs⟩ := hest.ixs
  have hext : Extends World.landed (uploadAndExecute ctx message payload destinationAddress
      (ctx.sdk.getIncomingMessagePda (messageToCommandId ctx message))) fun _ new => ∃ uploads call,
        Attempt ctx destinationAddress message payload new uploads call := extends_uploadAndExecute
  obtain ⟨new, hnew, uploads, call, hattempt⟩ := hext w₂
  -- the estimate has asked for the fees of these accounts, so there are at most 128
  have hfew : ∀ ix ∈ uploadIxs ctx (messageToCommandId ctx message) payload,
      ix.accounts.length ≤ 128 := by
    intro ix hix
    have hin : ix ∈ runs.map StageRun.ix := by
      rw [hixs]
      exact List.mem_append_left _ hix
    obtain ⟨run, hrun, rfl⟩ := List.mem_map.mp hin
    exact (hest.ran run hrun).few
  have hspent := hattempt.cost_le slots
    (fun ix hix => destinationIx_unique hsame hix hexecute) hclose hfew hrule hfees
  rw [← hixs] at hspent
  have hcost := cost_eq_stageFees hest hsimnet hfees
  rw [feesPaid, hnew, List.drop_left] at hsum ⊢
  dsimp only at hcost
  have hmax : Saturating.MAX = 2 ^ 64 - 1 := rfl
  omega

/-- The greeting under a price of three micro-lamports, with what it is estimated at. -/
theorem greeting_within_budget :
    (feesPaid (World.start .empty) (stateOf (uploadAndExecute (steadyContext alwaysConfirmed [3])
      (greetingMessage [3]) (greeting 0).payload (.filled 7) (.filled 20)
        (World.start .empty))) : Int) ≤ 30030 := by
  let ctx := steadyContext alwaysConfirmed [3]
  let pda := ctx.sdk.getIncomingMessagePda (messageToCommandId ctx (greetingMessage [3]))
  have hcheck : resultOf (ensureEnoughGas ctx (greetingMessage [3]) (greeting 0).payload
      (.filled 7) pda 30030 (World.start .empty)) = .ok () := by decide +kernel
  have hsum : feesPaid (World.start .empty) (stateOf (uploadAndExecute ctx (greetingMessage [3])
      (greeting 0).payload (.filled 7) pda (World.start .empty))) < 2 ^ 64 := by decide +kernel
  exact gas_check_bounds_spending ctx (greetingMessage [3]) (greeting 0).payload (.filled 7) _ 30030
    (World.start .empty) _ (World.start .empty) steady_feeRule steady_simnetFeeRule
    steady_fixedFees (fun _ _ _ _ _ _ _ _ h => by cases h) rfl (run_eq_ok hcheck) hsum

end AxelarRelayer.Proof
