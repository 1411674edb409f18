import AxelarRelayer.Proof.CachedEstimate

/-!
# What a failed gas check leaves in the cache

A check takes the entry of its message out of the cache before it asks for the
prices again, and puts it back where the gas turns out not to suffice. An error of
a price question leaves in between, with the entry gone.

Every price question is one tick, so whether all of them are answered can be read
off the entry and the answers from the current tick on (`Repriced`). That is
exactly when an entry survives (`keepsEntry_iff`); over a sequence of checks it
means that no message is run again before one of its checks succeeded
(`failed_checks_keep_iff`).
-/

namespace AxelarRelayer.Proof

open AxelarRelayer AxelarRelayer.Task Effect

/-- One call of `ensure_enough_gas`. -/
structure GasCheck where
  message : Message
  payload : List UInt8
  destinationAddress : Pubkey
  incomingMessagePda : Pubkey
  availableGas : Int

def GasCheck.run (ctx : Context) (check : GasCheck) : EStateM Report World Unit :=
  ensureEnoughGas ctx check.message check.payload check.destinationAddress
    check.incomingMessagePda check.availableGas

/-- The check ends with an error. -/
def GasCheck.Fails (ctx : Context) (check : GasCheck) (w : World) : Prop :=
  ∃ report w', check.run ctx w = .error report w'

/-- The world after some checks, one after the other. -/
def afterChecks (ctx : Context) (w : World) (checks : List GasCheck) : World :=
  checks.foldl (fun w check => stateOf (check.run ctx w)) w

/-- The stages whose price is asked for. -/
def pricedStages (recorded : List StageMetadata) : List StageMetadata :=
  recorded.filter fun stage => !stage.accounts.isEmpty

/-- The price of a stage can be worked out at a tick. -/
def HasPrice (ctx : Context) (t : Nat) (stage : StageMetadata) : Prop :=
  stage.accounts.length ≤ 128 ∧
    ∃ fees, ctx.rpc.getRecentPrioritizationFees t stage.accounts = .ok fees

/-- From tick `t` on, one price after the other can be worked out. -/
def Repriced (ctx : Context) (t : Nat) (recorded : List StageMetadata) : Prop :=
  ∀ i stage, (pricedStages recorded)[i]? = some stage → HasPrice ctx (t + i) stage

/-- If the message has an entry, all the price questions for it are going to be answered. -/
def GasCheck.Answered (ctx : Context) (check : GasCheck) (w : World) : Prop :=
  ∀ breakdown, w.cache check.incomingMessagePda = some breakdown →
    Repriced ctx w.tick (stages breakdown)

/-- A check that fails keeps the entry of its message, and touches no other. -/
def GasCheck.KeepsEntry (ctx : Context) (check : GasCheck) (w : World) : Prop :=
  ∀ breakdown report w', w.cache check.incomingMessagePda = some breakdown →
    check.run ctx w = .error report w' → w'.cache check.incomingMessagePda = some breakdown ∧
      ∀ other, other ≠ check.incomingMessagePda → w'.cache other = w.cache other

/-- Failed checks keep entries, all along a sequence of checks. -/
structure FailuresKeepEntries (ctx : Context) (w : World) (checks : List GasCheck) : Prop where
  kept : ∀ earlier check later, checks = earlier ++ check :: later →
    check.KeepsEntry ctx (afterChecks ctx w earlier)
  /-- A message with an entry is not run again while its checks fail. -/
  notRunAgain : ∀ earlier check later breakdown, checks = earlier ++ check :: later →
    w.cache check.incomingMessagePda = some breakdown →
    (∀ before failed between, earlier = before ++ failed :: between →
      failed.incomingMessagePda = check.incomingMessagePda →
      failed.Fails ctx (afterChecks ctx w before)) →
    (afterChecks ctx w earlier).cache check.incomingMessagePda = some breakdown ∧
      (stateOf (check.run ctx (afterChecks ctx w earlier))).submitted =
        (afterChecks ctx w earlier).submitted

variable {ctx : Context} {w : World} {check : GasCheck} {breakdown : ExecuteTaskConsumptionBreakdown}

/-! ## Working the cost out again -/

theorem repriced_nil (t : Nat) : Repriced ctx t [] := by
  intro i stage hstage
  simp [pricedStages] at hstage

theorem repriced_cons_free {stage : StageMetadata} (t : Nat) (recorded : List StageMetadata)
    (hempty : stage.accounts.isEmpty = true) :
    Repriced ctx t (stage :: recorded) ↔ Repriced ctx t recorded := by
  have hsame : pricedStages (stage :: recorded) = pricedStages recorded := by
    simp [pricedStages, hempty]
  rw [Repriced, hsame, Repriced]

theorem repriced_cons {stage : StageMetadata} (t : Nat) (recorded : List StageMetadata)
    (hpriced : stage.accounts.isEmpty = false) :
    Repriced ctx t (stage :: recorded) ↔ HasPrice ctx t stage ∧ Repriced ctx (t + 1) recorded := by
  have hcons : pricedStages (stage :: recorded) = stage :: pricedStages recorded := by
    simp [pricedStages, hpriced]
  rw [Repriced, hcons]
  constructor
  · intro h
    refine ⟨h 0 stage rfl, ?_⟩
    intro i later hlater
    have hprice := h (i + 1) later hlater
    rwa [Nat.add_comm i 1, ← Nat.add_assoc] at hprice
  · intro ⟨hfirst, hrest⟩ i later hlater
    cases i with
    | zero => exact Option.some.inj hlater ▸ hfirst
    | succ i =>
        have hprice := hrest i later hlater
        rwa [Nat.add_assoc, Nat.add_comm 1 i] at hprice

/-- A price is worked out with one question. -/
theorem calculateComputeUnitPrice_run {stage : StageMetadata} (hprice : HasPrice ctx w.tick stage) :
    ∃ price, calculateComputeUnitPrice ctx stage.accounts w = .ok price (w.next ctx.rpc) := by
  obtain ⟨hfew, fees, hfees⟩ := hprice
  refine ⟨averageFee fees, ?_⟩
  rw [calculateComputeUnitPrice, if_neg (Nat.not_lt.mpr hfew), ask, bind_assoc,
    run_bind_ok _ (rfl : call ctx.rpc w = _), hfees]
  rfl

theorem calculateComputeUnitPrice_fails {stage : StageMetadata}
    (hprice : ¬ HasPrice ctx w.tick stage) :
    ∃ report w', calculateComputeUnitPrice ctx stage.accounts w = .error report w' := by
  by_cases hmany : stage.accounts.length > 128
  · rw [calculateComputeUnitPrice, if_pos hmany]
    exact ⟨_, _, rfl⟩
  · rw [calculateComputeUnitPrice, if_neg hmany, ask, bind_assoc,
      run_bind_ok _ (rfl : call ctx.rpc w = _)]
    cases hanswer : ctx.rpc.getRecentPrioritizationFees w.tick stage.accounts with
    | error text => exact ⟨_, _, rfl⟩
    | ok fees => exact absurd ⟨Nat.le_of_not_gt hmany, fees, hanswer⟩ hprice

/-- The loop over the stages gets to its end exactly when every price can be worked out. -/
theorem addStageCosts_ok_iff (recorded : List StageMetadata) (total : Nat) :
    (∃ cost w', recorded.foldlM (addStageCost ctx) total w = .ok cost w') ↔
      Repriced ctx w.tick recorded := by
  induction recorded generalizing total w with
  | nil => exact ⟨fun _ => repriced_nil _, fun _ => ⟨total, w, rfl⟩⟩
  | cons stage recorded ih =>
      rw [List.foldlM_cons]
      by_cases hempty : stage.accounts.isEmpty = true
      · -- a stage without accounts costs nothing and asks nothing
        have hstage : addStageCost ctx total stage w = .ok total w := by
          rw [addStageCost, if_pos hempty]
          rfl
        rw [run_bind_ok _ hstage, repriced_cons_free _ _ hempty]
        exact ih total
      have hpriced : stage.accounts.isEmpty = false := Bool.eq_false_iff.mpr hempty
      have hunfold : addStageCost ctx total stage =
          calculateComputeUnitPrice ctx stage.accounts >>= fun computeUnitPrice =>
            pure (Saturating.add total (calculateStageFee stage computeUnitPrice)) := by
        rw [addStageCost, if_neg hempty]
      rw [repriced_cons _ _ hpriced]
      by_cases hprice : HasPrice ctx w.tick stage
      · obtain ⟨price, hrun⟩ := calculateComputeUnitPrice_run hprice
        rw [hunfold, bind_assoc, run_bind_ok _ hrun, pure_bind]
        exact (ih _).trans (and_iff_right hprice).symm
      · obtain ⟨report, w', hrun⟩ := calculateComputeUnitPrice_fails hprice
        rw [hunfold, bind_assoc, run_bind_error _ hrun]
        refine ⟨fun h => ?_, fun h => absurd h.1 hprice⟩
        obtain ⟨_, _, hok⟩ := h
        cases hok

theorem calculateCost_ok_iff :
    (∃ cost w', calculateCost ctx breakdown w = .ok cost w') ↔
      Repriced ctx w.tick (stages breakdown) := by
  rw [calculateCost_eq]
  exact addStageCosts_ok_iff _ _

/-! ## One check -/

/-- The entry of `pda`, seen as a ledger. -/
def entryOf (pda : Pubkey) (w : World) : List (Option ExecuteTaskConsumptionBreakdown) :=
  [w.cache pda]

/-- **The frame**: a check touches no entry but its own, however it ends. -/
theorem GasCheck.run_frame (ctx : Context) (check : GasCheck) (w : World) {other : Pubkey}
    (hother : other ≠ check.incomingMessagePda) :
    (stateOf (check.run ctx w)).cache other = w.cache other := by
  have hapart : ApartFromSimnet ctx (entryOf other) := ⟨fun _ => rfl, fun _ _ => rfl⟩
  have hcache : ∀ (w : World) entry,
      entryOf other (w.setCache check.incomingMessagePda entry) = entryOf other w := by
    intro w entry
    rw [entryOf, World.cache_setCache_ne w entry hother, entryOf]
  have hreads : Reads (entryOf other) (check.run ctx) fun _ => True :=
    reads_ensureEnoughGas hapart hcache check.availableGas
  obtain ⟨new, hnew, rfl, -⟩ := hreads w
  exact (List.cons.inj hnew).1

/-- Working a cost out again leaves the cache and the submissions alone. -/
theorem calculateCost_frame (ctx : Context) (breakdown : ExecuteTaskConsumptionBreakdown) (w : World) :
    (stateOf (calculateCost ctx breakdown w)).cache = w.cache ∧
      (stateOf (calculateCost ctx breakdown w)).submitted = w.submitted := by
  have hcache : Reads (fun w : World => [w.cache]) (calculateCost ctx breakdown) fun _ => True :=
    reads_calculateCost (fun _ => rfl) breakdown
  have hsubmitted : Reads World.submitted (calculateCost ctx breakdown) fun _ => True :=
    reads_calculateCost (fun _ => rfl) breakdown
  obtain ⟨new, hnew, rfl, -⟩ := hcache w
  obtain ⟨new', hnew', rfl, -⟩ := hsubmitted w
  exact ⟨(List.cons.inj hnew).1, hnew'.trans (List.append_nil _)⟩

/-- A check with an entry whose prices are all answered: rejected, with the entry back, or passed. -/
theorem GasCheck.run_answered (check : GasCheck)
    (hcached : w.cache check.incomingMessagePda = some breakdown)
    (hanswered : Repriced ctx w.tick (stages breakdown)) :
    ∃ cost w₁, w₁.submitted = w.submitted ∧ check.run ctx w =
      if (cost : Int) > check.availableGas then
        .error (.insufficientGasBalance cost check.availableGas)
          (w₁.setCache check.incomingMessagePda (some breakdown))
      else .ok () w₁ := by
  have hok : ∃ cost w₁, calculateCost ctx breakdown (w.setCache check.incomingMessagePda none) =
      .ok cost w₁ := calculateCost_ok_iff.mpr hanswered
  obtain ⟨cost, w₁, hrun⟩ := hok
  have hcost : costOfMessage ctx check.message check.payload check.destinationAddress
      (w.cache check.incomingMessagePda) (w.setCache check.incomingMessagePda none) =
        .ok (cost, breakdown) w₁ := by
    rw [hcached]
    exact run_bind_ok _ hrun
  have hframe := calculateCost_frame ctx breakdown (w.setCache check.incomingMessagePda none)
  rw [hrun] at hframe
  exact ⟨cost, w₁, hframe.2, ensureEnoughGas_run check.availableGas hcost⟩

/-- A check with an entry of which a price is not answered fails, with the entry gone. -/
theorem GasCheck.run_unanswered (hcached : w.cache check.incomingMessagePda = some breakdown)
    (hunanswered : ¬ Repriced ctx w.tick (stages breakdown)) :
    ∃ report w', check.run ctx w = .error report w' ∧
      w'.cache check.incomingMessagePda = none := by
  have hfails : ¬ ∃ cost w', calculateCost ctx breakdown
      (w.setCache check.incomingMessagePda none) = .ok cost w' := fun h =>
    hunanswered (calculateCost_ok_iff.mp h :
      Repriced ctx (w.setCache check.incomingMessagePda none).tick (stages breakdown))
  cases hrun : calculateCost ctx breakdown (w.setCache check.incomingMessagePda none) with
  | ok cost w' => exact absurd ⟨cost, w', hrun⟩ hfails
  | error report w' =>
      have hframe := calculateCost_frame ctx breakdown
        (w.setCache check.incomingMessagePda none)
      rw [hrun] at hframe
      refine ⟨report, w', ?_, ?_⟩
      · have hcost : costOfMessage ctx check.message check.payload check.destinationAddress
            (w.cache check.incomingMessagePda) (w.setCache check.incomingMessagePda none) =
              .error report w' := by
          rw [hcached]
          exact run_bind_error _ hrun
        rw [GasCheck.run, ensureEnoughGas, run_bind_ok _ (rfl : (modifyGet fun w : World =>
          (w.cache check.incomingMessagePda, w.setCache check.incomingMessagePda none) :
            EStateM Report World _) w = _), run_bind_error _ hcost]
      · -- the check took the entry out before it asked for the prices
        have hcleared : w'.cache = (w.setCache check.incomingMessagePda none).cache := hframe.1
        rw [hcleared, World.cache_setCache]

/-- **When a failed check keeps its entry.** -/
theorem keepsEntry_iff : check.KeepsEntry ctx w ↔ check.Answered ctx w := by
  constructor
  · intro hkeeps breakdown hcached
    by_contra hunanswered
    -- a check that is not answered ends with the entry gone
    obtain ⟨report, w', hrun, hgone⟩ := GasCheck.run_unanswered hcached hunanswered
    have hkept := (hkeeps breakdown report w' hcached hrun).1
    rw [hgone] at hkept
    cases hkept
  · intro hanswered breakdown report w' hcached hrun
    have hframe : ∀ other, other ≠ check.incomingMessagePda → w'.cache other = w.cache other := by
      intro other hother
      have h := check.run_frame ctx w hother
      rwa [hrun] at h
    refine ⟨?_, hframe⟩
    obtain ⟨cost, w₁, -, heq⟩ := check.run_answered hcached (hanswered breakdown hcached)
    rw [hrun] at heq
    by_cases hgt : (cost : Int) > check.availableGas
    · -- too little gas: the entry is put back
      rw [if_pos hgt] at heq
      injection heq with _ hw'
      rw [hw', World.cache_setCache]
    · rw [if_neg hgt] at heq
      cases heq

/-- With an entry and answered prices nothing is run on the estimation node. -/
theorem GasCheck.run_submitted (hcached : w.cache check.incomingMessagePda = some breakdown)
    (hanswered : Repriced ctx w.tick (stages breakdown)) :
    (stateOf (check.run ctx w)).submitted = w.submitted := by
  obtain ⟨cost, w₁, hsubmitted, hrun⟩ := check.run_answered hcached hanswered
  rw [hrun, ← hsubmitted]
  by_cases hgt : (cost : Int) > check.availableGas
  · rw [if_pos hgt]
    rfl
  · rw [if_neg hgt]
    rfl

/-! ## A sequence of checks -/

theorem afterChecks_append_singleton (w : World) (checks : List GasCheck) (check : GasCheck) :
    afterChecks ctx w (checks ++ [check]) = stateOf (check.run ctx (afterChecks ctx w checks)) := by
  rw [afterChecks, List.foldl_append]
  rfl

/-- An entry lasts until a check of its message succeeds, if failed checks keep entries. -/
theorem entry_lasts {pda : Pubkey} (hcached : w.cache pda = some breakdown)
    (checks : List GasCheck)
    (hkeeps : ∀ earlier check later, checks = earlier ++ check :: later →
      check.KeepsEntry ctx (afterChecks ctx w earlier))
    (hfails : ∀ earlier check later, checks = earlier ++ check :: later →
      check.incomingMessagePda = pda → check.Fails ctx (afterChecks ctx w earlier)) :
    (afterChecks ctx w checks).cache pda = some breakdown := by
  -- induction from the end: the last check is made in the world after the others
  induction checks using List.reverseRecOn with
  | nil => exact hcached
  | append_singleton checks check ih =>
      have hbefore : (afterChecks ctx w checks).cache pda = some breakdown := by
        refine ih (fun earlier c later hsplit => hkeeps earlier c (later ++ [check]) ?_)
          fun earlier c later hsplit => hfails earlier c (later ++ [check]) ?_
        · rw [hsplit, List.append_assoc, List.cons_append]
        · rw [hsplit, List.append_assoc, List.cons_append]
      rw [afterChecks_append_singleton]
      by_cases hpda : check.incomingMessagePda = pda
      · obtain ⟨report, w', hrun⟩ := hfails checks check [] rfl hpda
        rw [hrun]
        rw [← hpda] at hbefore ⊢
        exact (hkeeps checks check [] rfl breakdown report w' hbefore hrun).1
      · rw [check.run_frame ctx _ (Ne.symm hpda)]
        exact hbefore

/--
**When failed gas checks keep what was recorded**, over any sequence of checks:
exactly when every check that finds an entry also gets all its prices answered.
-/
theorem failed_checks_keep_iff (ctx : Context) (w : World) (checks : List GasCheck) :
    FailuresKeepEntries ctx w checks ↔ ∀ earlier check later, checks = earlier ++ check :: later →
      check.Answered ctx (afterChecks ctx w earlier) := by
  constructor
  · intro h earlier check later hsplit
    exact keepsEntry_iff.mp (h.kept earlier check later hsplit)
  · intro hanswered
    have hkeeps : ∀ earlier check later, checks = earlier ++ check :: later →
        check.KeepsEntry ctx (afterChecks ctx w earlier) := fun earlier check later hsplit =>
      keepsEntry_iff.mpr (hanswered earlier check later hsplit)
    refine ⟨hkeeps, ?_⟩
    intro earlier check later breakdown hsplit hcached hfails
    have hlasts : (afterChecks ctx w earlier).cache check.incomingMessagePda = some breakdown := by
      refine entry_lasts hcached earlier (fun before c between hinner =>
        hkeeps before c (between ++ check :: later) ?_) hfails
      rw [hsplit, hinner, List.append_assoc, List.cons_append]
    exact ⟨hlasts, GasCheck.run_submitted hlasts
      (hanswered earlier check later hsplit breakdown hlasts)⟩

/-! ## A fee node that fails once -/

/-- The estimate takes ticks 0 to 23; the price question behind it is not answered. -/
def flakyContext : Context :=
  { steadyContext alwaysConfirmed [] with
    rpc := { steadyRpc alwaysConfirmed [] with
      getRecentPrioritizationFees := fun t _ =>
        if t = 24 then .error "429 Too Many Requests" else .ok [] } }

/-- The greeting, with nothing to pay for it. -/
def unpaidCheck : GasCheck :=
  ⟨greetingMessage [], (greeting 0).payload, .filled 7, .filled 20, 0⟩

/-- **The entry is lost**: rejected with an entry, the second check fails and leaves none. -/
theorem failed_checks_keep_fails : ¬ ∀ (ctx : Context) (w : World) (checks : List GasCheck),
    FailuresKeepEntries ctx w checks := by
  intro hall
  have hcached : (afterChecks flakyContext (World.start .empty) [unpaidCheck]).cache (.filled 20) =
      some greetingBreakdown := by decide +kernel
  have hrun := run_eq_error (x := unpaidCheck.run flakyContext)
    (s := afterChecks flakyContext (World.start .empty) [unpaidCheck])
    (e := .msg "Failed to get prioritization fees: 429 Too Many Requests") (by decide +kernel)
  have hkept := (hall flakyContext (World.start .empty) [unpaidCheck, unpaidCheck]).kept
    [unpaidCheck] unpaidCheck [] rfl greetingBreakdown _ _ hcached hrun
  have hlost : (stateOf (unpaidCheck.run flakyContext
      (afterChecks flakyContext (World.start .empty) [unpaidCheck]))).cache (.filled 20) = none := by
    decide +kernel
  have hsame : some greetingBreakdown = (none : Option ExecuteTaskConsumptionBreakdown) :=
    hkept.1.symm.trans hlost
  cases hsame

end AxelarRelayer.Proof
