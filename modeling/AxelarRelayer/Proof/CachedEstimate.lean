import AxelarRelayer.Proof.Estimate

/-!
# A recorded estimate against a fresh one

Both costs are one clamp of a sum over the same stages at the same prices, with a
base fee each. The fresh one charges the *requested* units and converts
micro-lamports to lamports (`requestedFee`); the recorded one charges the *consumed*
units and does not convert (`consumedFee`).

As long as a stage has a price at all, consuming the least a transaction can
consume already costs more by the second rule than requesting the largest limit
costs by the first. So the two agree only when there is nothing to charge for, or
when both are clamped (`cached_estimate_iff`).
-/

namespace AxelarRelayer.Proof

open AxelarRelayer AxelarRelayer.Task Effect

variable {ctx : Context} {message : Message} {payload : List UInt8}
  {destinationAddress pda : Pubkey} {table : List Pubkey → List Nat} {w w₁ : World} {cost : Nat}
  {breakdown : ExecuteTaskConsumptionBreakdown} {runs : List StageRun}

/-- Every question about the fees is answered, always the same way. -/
def SteadyFees (ctx : Context) (table : List Pubkey → List Nat) : Prop :=
  ∀ t accounts, ctx.rpc.getRecentPrioritizationFees t accounts = .ok (table accounts)

/-- The two compute budget instructions alone consume 300 units. -/
def MetersUnits (ctx : Context) : Prop :=
  ∀ t ixs txMeta units, ctx.rpc.simnetGetTransaction t ixs = .ok (some txMeta) →
    txMeta.computeUnitsConsumed = some units → 300 ≤ units

/-- Every instruction that is built for a message names an account. -/
structure NamesAccounts (ctx : Context) (message : Message) (payload : List UInt8)
    (destinationAddress : Pubkey) : Prop where
  upload : ∀ ix ∈ uploadIxs ctx (messageToCommandId ctx message) payload, ix.accounts ≠ []
  execute : ∀ ix, SimnetDestinationIx ctx destinationAddress message payload ix → ix.accounts ≠ []
  close : ∀ ix, closeIx ctx message = .ok ix → ix.accounts ≠ []

/-- What the price of a stage is. -/
def stagePrice (table : List Pubkey → List Nat) (stage : StageMetadata) : Nat :=
  averageFee (table stage.accounts)

/-- What the fresh estimate charges for a stage. -/
def requestedFee (table : List Pubkey → List Nat) (stage : StageMetadata) : Nat :=
  5000 + priorityFee 1400000 (stagePrice table stage)

/-- What the recorded estimate charges for it. -/
def consumedFee (table : List Pubkey → List Nat) (stage : StageMetadata) : Nat :=
  5000 + stage.computeUnitsConsumed * stagePrice table stage

/-! ## The fresh estimate -/

theorem StageRun.Ran.fee_eq {run : StageRun} (h : run.Ran ctx) (hfees : SteadyFees ctx table)
    (hrule : SimnetFeeRule ctx) : run.fee = requestedFee table run.stage := by
  obtain ⟨t, fees, t', txMeta, hanswer, hmeta, hfee, -⟩ := h.ran
  rw [hfees t run.ix.accounts] at hanswer
  obtain rfl := Except.ok.inj hanswer
  rw [← hfee, hrule t' _ txMeta hmeta,
    nodeFee_prepared (averageFee_le_max _) (by decide : 1400000 ≤ MAX_COMPUTE_UNIT_LIMIT)
      [run.ix], requestedFee, stagePrice,
    h.accounts]

theorem cost_eq_requested (h : Estimated ctx message payload destinationAddress runs
    (cost, breakdown)) (hfees : SteadyFees ctx table) (hrule : SimnetFeeRule ctx) :
    cost = Saturating.sum ((stages breakdown).map (requestedFee table)) := by
  have hcost : cost = Saturating.sum (runs.map StageRun.fee) := h.cost
  rw [hcost, ← h.stages, List.map_map]
  congr 1
  refine List.map_congr_left fun run hrun => ?_
  rw [Function.comp_apply]
  exact (h.ran run hrun).fee_eq hfees hrule

/-- What every recorded stage has. -/
theorem stage_facts (h : Estimated ctx message payload destinationAddress runs (cost, breakdown))
    (hunits : MetersUnits ctx) (hnames : NamesAccounts ctx message payload destinationAddress) :
    ∀ stage ∈ stages breakdown, stage.accounts ≠ [] ∧ stage.accounts.length ≤ 128 ∧
      300 ≤ stage.computeUnitsConsumed := by
  intro stage hstage
  rw [← h.stages] at hstage
  obtain ⟨run, hrun, rfl⟩ := List.mem_map.mp hstage
  have hran := h.ran run hrun
  obtain ⟨execute, close, hexecute, hclose, hixs⟩ := h.ixs
  have hix : run.ix ∈ runs.map StageRun.ix := List.mem_map_of_mem hrun
  rw [hixs, List.mem_append, List.mem_cons, List.mem_singleton] at hix
  refine ⟨?_, hran.accounts ▸ hran.few, ?_⟩
  · rw [hran.accounts]
    -- a stage of the upload, the execution, or the close
    rcases hix with hix | hix | hix
    · exact hnames.upload _ hix
    · exact hix ▸ hnames.execute _ hexecute
    · exact hix ▸ hnames.close _ hclose
  · obtain ⟨_, _, t', txMeta, -, hmeta, -, hconsumed⟩ := hran.ran
    exact hunits t' _ txMeta _ hmeta hconsumed

/-! ## The recorded estimate -/

theorem computes_calculateComputeUnitPrice {accounts : List Pubkey} (hfees : SteadyFees ctx table)
    (hfew : accounts.length ≤ 128) :
    Computes (calculateComputeUnitPrice ctx accounts) (averageFee (table accounts)) := by
  unfold calculateComputeUnitPrice
  rw [if_neg (Nat.not_lt.mpr hfew)]
  refine Computes.bind (v := table accounts) (fun w => ?_) (computes_pure _)
  change resultOf (Effect.ofExcept (Except.mapError _
    (ctx.rpc.getRecentPrioritizationFees w.tick accounts)) (w.next ctx.rpc)) = _
  rw [hfees]
  rfl

theorem calculateStageFee_eq (stage : StageMetadata) :
    calculateStageFee stage (stagePrice table stage) =
      min (consumedFee table stage) Saturating.MAX := by
  simp only [calculateStageFee, consumedFee, Saturating.add, Saturating.mul]
  omega

/-- One stage adds its fee. -/
theorem computes_addStageCost (hfees : SteadyFees ctx table) (total : Nat) {stage : StageMetadata}
    (hne : stage.accounts ≠ []) (hfew : stage.accounts.length ≤ 128) :
    Computes (addStageCost ctx total stage)
      (Saturating.add total (min (consumedFee table stage) Saturating.MAX)) := by
  have hempty : stage.accounts.isEmpty = false := by
    rw [Bool.eq_false_iff, ne_eq, List.isEmpty_iff]
    exact hne
  unfold addStageCost
  rw [hempty, if_neg Bool.false_ne_true, ← calculateStageFee_eq]
  exact (computes_calculateComputeUnitPrice hfees hfew).bind (computes_pure _)

/-- **The recorded cost is one clamp of the consumed fees.** -/
theorem computes_calculateCost (hfees : SteadyFees ctx table)
    (hne : ∀ stage ∈ stages breakdown, stage.accounts ≠ [])
    (hfew : ∀ stage ∈ stages breakdown, stage.accounts.length ≤ 128) :
    Computes (calculateCost ctx breakdown)
      (min ((stages breakdown).map (consumedFee table)).sum Saturating.MAX) := by
  have hstage : ∀ total, ∀ stage ∈ stages breakdown, Computes (addStageCost ctx total stage)
      (Saturating.add total (min (consumedFee table stage) Saturating.MAX)) :=
    fun total stage hmem => computes_addStageCost hfees total (hne stage hmem) (hfew stage hmem)
  have hfold : (stages breakdown).foldl (fun total stage =>
      Saturating.add total (min (consumedFee table stage) Saturating.MAX)) 0 =
        min ((stages breakdown).map (consumedFee table)).sum Saturating.MAX := by
    rw [← Saturating.min_sum_min, List.map_map, ← Saturating.sum_eq, Saturating.sum,
      List.foldl_map]
    rfl
  rw [← hfold]
  rw [calculateCost_eq]
  exact Computes.foldlM _ _ hstage

/-! ## The check -/

/-- What the check does once it knows the cost. -/
theorem ensureEnoughGas_run (available : Int)
    (hcost : costOfMessage ctx message payload destinationAddress (w.cache pda)
      (w.setCache pda none) = .ok (cost, breakdown) w₁) :
    ensureEnoughGas ctx message payload destinationAddress pda available w =
      if (cost : Int) > available then
        .error (.insufficientGasBalance cost available) (w₁.setCache pda (some breakdown))
      else .ok () w₁ := by
  rw [ensureEnoughGas, run_bind_ok _ (rfl : (modifyGet fun w : World =>
    (w.cache pda, w.setCache pda none) : EStateM Report World _) w = _), run_bind_ok _ hcost]
  by_cases hgt : (cost : Int) > available
  · rw [if_pos hgt]
    dsimp only
    rw [if_pos hgt]
    rfl
  · rw [if_neg hgt]
    dsimp only
    rw [if_neg hgt]
    rfl

/--
The law for one fresh estimate: calculated again it gives the same cost, and after
a rejection for it a retry with exactly that much is accepted.
-/
structure EstimateAgrees (ctx : Context) (message : Message) (payload : List UInt8)
    (destinationAddress pda : Pubkey) (w : World) (cost : Nat)
    (breakdown : ExecuteTaskConsumptionBreakdown) : Prop where
  recalculated : ∀ w₂, resultOf (calculateCost ctx breakdown w₂) = .ok cost
  retried : ∀ available w', ensureEnoughGas ctx message payload destinationAddress pda available w =
      .error (.insufficientGasBalance cost available) w' →
    ∀ w₂ : World, w₂.cache pda = w'.cache pda →
      resultOf (ensureEnoughGas ctx message payload destinationAddress pda cost w₂) = .ok ()

/-- A cost that is calculated again the same way is accepted on a retry. -/
theorem EstimateAgrees.of_recalculated (hcache : w.cache pda = none)
    (hrun : estimateTotalExecuteCost ctx message payload destinationAddress w =
      .ok (cost, breakdown) w₁)
    (h : ∀ w₂, resultOf (calculateCost ctx breakdown w₂) = .ok cost) :
    EstimateAgrees ctx message payload destinationAddress pda w cost breakdown where
  recalculated := h
  retried := by
    intro available w' hrejected w₂ hkept
    have hsame : w.setCache pda none = w := by
      have := w.setCache_self pda
      rwa [hcache] at this
    have hcost : costOfMessage ctx message payload destinationAddress (w.cache pda)
        (w.setCache pda none) = .ok (cost, breakdown) w₁ := by
      rw [hcache, hsame]
      exact hrun
    have hfresh := ensureEnoughGas_run available hcost
    rw [hrejected] at hfresh
    split at hfresh
    · -- rejected: the breakdown is on record, and the retry prices it
      have hw' : w' = w₁.setCache pda (some breakdown) := by
        injection hfresh
      have hcached : w₂.cache pda = some breakdown := by
        rw [hkept, hw', World.cache_setCache]
      have hcost : costOfMessage ctx message payload destinationAddress (w₂.cache pda)
          (w₂.setCache pda none) = .ok (cost, breakdown)
            (stateOf (calculateCost ctx breakdown (w₂.setCache pda none))) := by
        rw [hcached]
        exact run_bind_ok _ (run_eq_ok (h (w₂.setCache pda none)))
      rw [ensureEnoughGas_run cost hcost, if_neg (Int.lt_irrefl _)]
      rfl
    · -- accepted: nothing was rejected
      cases hfresh

/-! ## The law -/

/-- A stage with a price costs more by the second rule. -/
theorem requestedFee_lt {stage : StageMetadata} (hunits : 300 ≤ stage.computeUnitsConsumed)
    (hprice : stagePrice table stage ≠ 0) : requestedFee table stage < consumedFee table stage := by
  have hmul : 300 * stagePrice table stage ≤
      stage.computeUnitsConsumed * stagePrice table stage := Nat.mul_le_mul_right _ hunits
  simp only [requestedFee, consumedFee, priorityFee]
  omega

theorem requestedFee_le {stage : StageMetadata} (hunits : 300 ≤ stage.computeUnitsConsumed) :
    requestedFee table stage ≤ consumedFee table stage := by
  by_cases hprice : stagePrice table stage = 0
  · simp [requestedFee, consumedFee, priorityFee, hprice]
  · exact Nat.le_of_lt (requestedFee_lt hunits hprice)

/--
**When a recorded estimate agrees with the fresh one.** With steady fees, an
estimation node that charges by the rule and instructions that name accounts,
exactly when no stage has a price, or when the fresh estimate is already clamped.
-/
theorem cached_estimate_iff (ctx : Context) (message : Message) (payload : List UInt8)
    (destinationAddress pda : Pubkey) (table : List Pubkey → List Nat) (w w₁ : World) (cost : Nat)
    (breakdown : ExecuteTaskConsumptionBreakdown) (hfees : SteadyFees ctx table)
    (hrule : SimnetFeeRule ctx) (hunits : MetersUnits ctx)
    (hnames : NamesAccounts ctx message payload destinationAddress) (hcache : w.cache pda = none)
    (hrun : estimateTotalExecuteCost ctx message payload destinationAddress w =
      .ok (cost, breakdown) w₁) :
    EstimateAgrees ctx message payload destinationAddress pda w cost breakdown ↔
      (∀ stage ∈ stages breakdown, stagePrice table stage = 0) ∨
        Saturating.MAX ≤ ((stages breakdown).map (requestedFee table)).sum := by
  obtain ⟨runs, hest⟩ : ∃ runs, Estimated ctx message payload destinationAddress runs
      (cost, breakdown) := (reads_estimateTotalExecuteCost landed_apartFromSimnet).value hrun
  have hfacts := stage_facts hest hunits hnames
  have hfresh : cost = min ((stages breakdown).map (requestedFee table)).sum Saturating.MAX := by
    rw [cost_eq_requested hest hfees hrule, Saturating.sum_eq]
  have hrecorded := computes_calculateCost hfees (fun stage h => (hfacts stage h).1)
    fun stage h => (hfacts stage h).2.1
  have hle : ((stages breakdown).map (requestedFee table)).sum ≤
      ((stages breakdown).map (consumedFee table)).sum :=
    List.sum_le_sum fun stage h => requestedFee_le (hfacts stage h).2.2
  constructor
  · intro hagrees
    have heq := Except.ok.inj ((hrecorded w).symm.trans (hagrees.recalculated w))
    by_cases hclamped : Saturating.MAX ≤ ((stages breakdown).map (requestedFee table)).sum
    · exact Or.inr hclamped
    · refine Or.inl fun stage hstage => ?_
      -- one stage with a price and the recorded costs are strictly more
      by_contra hprice
      have hlt : ((stages breakdown).map (requestedFee table)).sum <
          ((stages breakdown).map (consumedFee table)).sum :=
        List.sum_lt_sum _ _ (fun stage h => requestedFee_le (hfacts stage h).2.2)
          ⟨stage, hstage, requestedFee_lt (hfacts stage hstage).2.2 hprice⟩
      omega
  · intro hcond
    refine EstimateAgrees.of_recalculated hcache hrun fun w₂ => ?_
    rw [hrecorded w₂, hfresh]
    rcases hcond with hfree | hclamped
    · -- without prices both rules charge the same
      have hsame : (stages breakdown).map (consumedFee table) =
          (stages breakdown).map (requestedFee table) :=
        List.map_congr_left fun stage h => by
          simp [consumedFee, requestedFee, priorityFee, hfree stage h]
      rw [hsame]
    · congr 1
      omega

/-! ## A recorded estimate -/

/-- What is recorded of the greeting: two chunks, the same units at every stage. -/
def greetingBreakdown : ExecuteTaskConsumptionBreakdown where
  initialization := ⟨1000, [.filled 9, .filled 8, .filled 20, .filled 21]⟩
  upload := [⟨1000, [.filled 8, .filled 9, .filled 21]⟩, ⟨1000, [.filled 8, .filled 9, .filled 21]⟩]
  commitment := ⟨1000, [.filled 8, .filled 9, .filled 21]⟩
  execution := ⟨1000, [.filled 20, .filled 21]⟩
  closure := ⟨1000, [.filled 8, .filled 9, .filled 21]⟩

/-- The message of the greeting. -/
def greetingMessage (slots : List Nat) : Message :=
  composeMessage (steadyContext alwaysConfirmed slots) (greeting 0)

theorem steady_steadyFees (slots : List Nat) : SteadyFees (steadyContext alwaysConfirmed slots)
    (perSlotMaximum (slots.map fun fee => ⟨fee, fun _ => 0⟩)) := fun _ _ => rfl

theorem steady_metersUnits (slots : List Nat) :
    MetersUnits (steadyContext alwaysConfirmed slots) := by
  intro t ixs txMeta units hmeta hunits
  obtain rfl := Option.some.inj (Except.ok.inj hmeta)
  obtain rfl := Option.some.inj hunits
  decide

theorem steady_namesAccounts (slots : List Nat) : NamesAccounts
    (steadyContext alwaysConfirmed slots) (greetingMessage slots) (greeting 0).payload
      (.filled 7) where
  upload := fun ix hix => List.ne_nil_of_mem (steady_payloadLaws.upload _ _ ix hix).2.1
  execute := by
    intro ix hix
    obtain rfl := Except.ok.inj hix
    simp
  close := by
    intro ix hix
    obtain rfl := Except.ok.inj hix
    simp

/-- Without prioritization fees the recorded estimate is as good as a fresh one. -/
theorem cached_estimate_free : EstimateAgrees (steadyContext alwaysConfirmed [])
    (greetingMessage []) (greeting 0).payload (.filled 7) (.filled 20) (World.start .empty) 30000
    greetingBreakdown := by
  have hestimate : resultOf (estimateTotalExecuteCost (steadyContext alwaysConfirmed [])
      (greetingMessage []) (greeting 0).payload (.filled 7) (World.start .empty)) =
        .ok (30000, greetingBreakdown) := by decide +kernel
  exact (cached_estimate_iff _ _ _ _ _ _ _ _ _ _ (steady_steadyFees []) steady_simnetFeeRule
    (steady_metersUnits []) (steady_namesAccounts []) rfl (run_eq_ok hestimate)).mpr
      (Or.inl (by decide +kernel))

/-- **The law fails** at a price of one micro-lamport: 6000 lamports more for 6000 units. -/
theorem cached_estimate_differs : ¬ ∀ (ctx : Context) (message : Message) (payload : List UInt8)
    (destinationAddress pda : Pubkey) (table : List Pubkey → List Nat) (w w₁ : World) (cost : Nat)
    (breakdown : ExecuteTaskConsumptionBreakdown), SteadyFees ctx table → SimnetFeeRule ctx →
    MetersUnits ctx → NamesAccounts ctx message payload destinationAddress →
    w.cache pda = none → estimateTotalExecuteCost ctx message payload destinationAddress w =
      .ok (cost, breakdown) w₁ →
    EstimateAgrees ctx message payload destinationAddress pda w cost breakdown := by
  intro hall
  have hestimate : resultOf (estimateTotalExecuteCost (steadyContext alwaysConfirmed [1])
      (greetingMessage [1]) (greeting 0).payload (.filled 7) (World.start .empty)) =
        .ok (30012, greetingBreakdown) := by decide +kernel
  have hagrees := hall _ _ _ _ (.filled 20) _ (World.start .empty) _ 30012 greetingBreakdown
    (steady_steadyFees [1]) steady_simnetFeeRule (steady_metersUnits [1]) (steady_namesAccounts [1])
    rfl (run_eq_ok hestimate)
  have hrecorded : resultOf (calculateCost (steadyContext alwaysConfirmed [1]) greetingBreakdown
      (World.start .empty)) = .ok 36000 := by decide +kernel
  rw [hagrees.recalculated] at hrecorded
  exact absurd hrecorded (by decide)

end AxelarRelayer.Proof
