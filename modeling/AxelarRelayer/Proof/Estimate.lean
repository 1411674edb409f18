import AxelarRelayer.Proof.Network

/-!
# What a run on the estimation node records

`estimate_total_execute_cost` runs the instructions of the upload, the execution
and the closing one transaction each, adds the fees up and keeps what each of them
consumed (`reads_estimateTotalExecuteCost`). It lands nothing on the chain.
-/

namespace AxelarRelayer.Proof

open AxelarRelayer AxelarRelayer.Task Effect

variable {ctx : Context} {message : Message} {payload : List UInt8} {destinationAddress : Pubkey}
  {τ : Type} {log : World → List τ}

/-- A ledger that neither the passing of time nor a run on the estimation node adds to. -/
structure ApartFromSimnet (ctx : Context) (log : World → List τ) : Prop where
  next : ∀ w : World, log (w.next ctx.rpc) = log w
  submit : ∀ (w : World) ixs, log (w.submit (.sentToSimnet ixs) rfl) = log w

theorem landed_apartFromSimnet : ApartFromSimnet ctx World.landed where
  next := fun _ => rfl
  submit := fun w ixs => World.landed_submit w (.sentToSimnet ixs) rfl

/-- The stages of a breakdown, in the order in which they run. -/
def stages (breakdown : ExecuteTaskConsumptionBreakdown) : List StageMetadata :=
  breakdown.initialization :: breakdown.upload ++
    [breakdown.commitment, breakdown.execution, breakdown.closure]

/-- One transaction on the estimation node: its instruction, its fee, what is kept of it. -/
structure StageRun where
  ix : ParsedIx
  fee : Nat
  stage : StageMetadata

/-- The transaction ran, at the price of the accounts its instruction names. -/
structure StageRun.Ran (ctx : Context) (run : StageRun) : Prop where
  accounts : run.stage.accounts = run.ix.accounts
  few : run.ix.accounts.length ≤ 128
  ran : ∃ t fees t' txMeta, ctx.rpc.getRecentPrioritizationFees t run.ix.accounts = .ok fees ∧
    ctx.rpc.simnetGetTransaction t' [setComputeUnitPrice (averageFee fees),
      setComputeUnitLimit 1400000, run.ix] = .ok (some txMeta) ∧
    txMeta.fee = run.fee ∧ txMeta.computeUnitsConsumed = some run.stage.computeUnitsConsumed

/-- An instruction `buildExecuteInstruction` may come up with. -/
def SimnetDestinationIx (ctx : Context) (destinationAddress : Pubkey) (message : Message)
    (payload : List UInt8) (ix : ParsedIx) : Prop :=
  let incomingMessagePda := ctx.sdk.getIncomingMessagePda (messageToCommandId ctx message)
  let payloadPda := messagePayloadPda ctx (messageToCommandId ctx message)
  if destinationAddress = ctx.sdk.itsId then
    ∃ t, ctx.rpc.simnetBuildItsInstruction t ctx.signer incomingMessagePda payloadPda message
      payload = .ok ix
  else if destinationAddress = ctx.sdk.governanceId then
    ctx.sdk.calculateGmpIx ctx.signer incomingMessagePda payloadPda message payload = .ok ix
  else ctx.sdk.constructAxelarExecutableIx ctx.signer message payload incomingMessagePda
    payloadPda = .ok ix

/-- The runs behind an estimate. -/
structure Estimated (ctx : Context) (message : Message) (payload : List UInt8)
    (destinationAddress : Pubkey) (runs : List StageRun)
    (result : Nat × ExecuteTaskConsumptionBreakdown) : Prop where
  ran : ∀ run ∈ runs, run.Ran ctx
  ixs : ∃ execute close, SimnetDestinationIx ctx destinationAddress message payload execute ∧
    closeIx ctx message = .ok close ∧ runs.map StageRun.ix =
      uploadIxs ctx (messageToCommandId ctx message) payload ++ [execute, close]
  cost : result.1 = Saturating.sum (runs.map StageRun.fee)
  stages : runs.map StageRun.stage = stages result.2

/-! ## One transaction -/

theorem reads_calculateComputeUnitPrice
    (hlog : ∀ w : World, log (w.next ctx.rpc) = log w) (accounts : List Pubkey) :
    Reads log (calculateComputeUnitPrice ctx accounts) fun price =>
      accounts.length ≤ 128 ∧ ∃ t fees, ctx.rpc.getRecentPrioritizationFees t accounts = .ok fees ∧
        price = averageFee fees := by
  unfold calculateComputeUnitPrice
  by_cases hmany : accounts.length > 128
  · rw [if_pos hmany]
    exact reads_throw _
  rw [if_neg hmany]
  refine Reads.bind (P := fun fees => ∃ t, ctx.rpc.getRecentPrioritizationFees t accounts = .ok fees)
    (reads_ask_of hlog fun t fees hfees => ⟨t, hfees⟩) fun fees hfees => ?_
  obtain ⟨t, hfees⟩ := hfees
  exact reads_pure ⟨Nat.le_of_not_gt hmany, t, fees, hfees, rfl⟩

theorem reads_executeAndGetCost (hlog : ApartFromSimnet ctx log) (ix : ParsedIx) :
    Reads log (executeAndGetCost ctx [ix]) fun result =>
      StageRun.Ran ctx ⟨ix, result.1, result.2⟩ := by
  have htouched : [setComputeUnitLimit 1400000, ix].flatMap ParsedIx.accounts = ix.accounts :=
    List.append_nil _
  have hkept : ∀ price : Nat, [setComputeUnitPrice price, setComputeUnitLimit 1400000,
      ix].flatMap ParsedIx.accounts = ix.accounts := fun _ => List.append_nil _
  unfold executeAndGetCost
  refine Reads.bind (P := fun _ => True) (reads_ask_of hlog.next fun _ _ _ => trivial) fun _ _ => ?_
  dsimp only
  rw [htouched, buildComputeUnitPriceInstruction, bind_assoc]
  refine (reads_calculateComputeUnitPrice hlog.next ix.accounts).bind fun price hprice => ?_
  obtain ⟨hfew, t, fees, hfees, rfl⟩ := hprice
  rw [pure_bind, hkept]
  refine reads_newSignedWithPayer.bind fun _ _ => ?_
  refine (reads_modify fun w => hlog.submit w _).bind fun _ _ => ?_
  refine Reads.bind (P := fun _ => True) (reads_ask_of hlog.next fun _ _ _ => trivial) fun _ _ => ?_
  -- the metadata is asked for by the transaction that was just run
  refine Reads.bind (P := fun meta? => ∃ t', ctx.rpc.simnetGetTransaction t'
    [setComputeUnitPrice (averageFee fees), setComputeUnitLimit 1400000, ix] = .ok meta?)
    (reads_ask_of hlog.next fun t' meta? h => ⟨t', h⟩) fun meta? h => ?_
  obtain ⟨t', ht'⟩ := h
  cases meta? with
  | none => exact reads_throw _
  | some txMeta =>
      dsimp only
      cases hunits : txMeta.computeUnitsConsumed with
      | none => exact reads_throw _
      | some units => exact reads_pure ⟨rfl, hfew, t, fees, t', txMeta, hfees, ht', rfl, hunits⟩

/-! ## The five stages -/

theorem reads_buildExecuteInstruction (hlog : ApartFromSimnet ctx log) :
    Reads log (buildExecuteInstruction ctx message payload destinationAddress)
      (SimnetDestinationIx ctx destinationAddress message payload) := by
  unfold buildExecuteInstruction SimnetDestinationIx
  by_cases hits : destinationAddress = ctx.sdk.itsId
  · simp only [if_pos hits]
    exact reads_ask_of hlog.next fun t ix hix => ⟨t, hix⟩
  simp only [if_neg hits]
  by_cases hgov : destinationAddress = ctx.sdk.governanceId
  · simp only [if_pos hgov]
    exact reads_ofExcept fun ix hix => built_ok hix
  · simp only [if_neg hgov]
    exact reads_ofExcept fun ix hix => built_ok hix

/-- The chunk writes run so far, and what the loop accumulated. -/
def ChunkRuns (ctx : Context) (commandId : Bytes32) (initial : Nat)
    (done : List (List UInt8 × Nat)) (acc : Nat × List StageMetadata) : Prop :=
  ∃ runs : List StageRun, (∀ run ∈ runs, run.Ran ctx) ∧
    runs.map StageRun.ix = done.filterMap (fun chunk =>
      (ctx.sdk.writeMessagePayload ctx.gatewayRootPda ctx.signer commandId chunk.1
        (Saturating.mul chunk.2 ctx.sdk.maxChunkSize)).toOption) ∧
    acc.1 = (runs.map StageRun.fee).foldl Saturating.add initial ∧
    runs.map StageRun.stage = acc.2

theorem reads_estimateChunk (hlog : ApartFromSimnet ctx log) (commandId : Bytes32) (initial : Nat)
    (done : List (List UInt8 × Nat)) (acc : Nat × List StageMetadata) (chunk : List UInt8 × Nat)
    (h : ChunkRuns ctx commandId initial done acc) :
    Reads log (estimateChunk ctx commandId acc chunk)
      (ChunkRuns ctx commandId initial (done ++ [chunk])) := by
  obtain ⟨runs, hran, hixs, hfees, hstages⟩ := h
  unfold estimateChunk
  refine (reads_ofExcept fun offset hoffset => tryIntoU64_ok hoffset).bind fun offset hoffset => ?_
  subst hoffset
  refine (reads_ofExcept fun ix hix => built_ok hix).bind fun ix hix => ?_
  refine (reads_executeAndGetCost hlog ix).bind fun result hresult => ?_
  -- one run more, at the end of every list
  refine reads_pure ⟨runs ++ [⟨ix, result.1, result.2⟩], ?_, ?_, ?_, ?_⟩
  · intro run hrun
    rcases List.mem_append.mp hrun with hrun | hrun
    · exact hran run hrun
    · rw [List.mem_singleton.mp hrun]
      exact hresult
  · rw [List.map_append, hixs, List.filterMap_append, List.filterMap_cons, hix]
    rfl
  · rw [List.map_append, List.foldl_append, ← hfees]
    rfl
  · rw [List.map_append, hstages]
    rfl

/-- **What an estimate consists of.** -/
theorem reads_estimateTotalExecuteCost (hlog : ApartFromSimnet ctx log) :
    Reads log (estimateTotalExecuteCost ctx message payload destinationAddress)
      fun result => ∃ runs, Estimated ctx message payload destinationAddress runs result := by
  unfold estimateTotalExecuteCost
  refine (reads_ofExcept fun n hn => tryIntoU64_ok hn).bind fun n hn => ?_
  subst hn
  refine (reads_ofExcept fun ix hix => built_ok hix).bind fun initIx hinit => ?_
  refine (reads_executeAndGetCost hlog initIx).bind fun init hinitRan => ?_
  -- the chunks: what they cost is added to the cost of the initialization
  refine (Reads.foldlM (ChunkRuns ctx (messageToCommandId ctx message) (Saturating.add 0 init.1))
    (fun done acc chunk => reads_estimateChunk hlog _ _ done acc chunk) _ [] _ ⟨[], fun _ h => absurd h List.not_mem_nil, rfl, rfl, rfl⟩).bind
      fun acc hacc => ?_
  obtain ⟨writes, hwritesRan, hwriteIxs, hwriteFees, hwriteStages⟩ := hacc
  refine (reads_ofExcept fun ix hix => built_ok hix).bind fun commitIx hcommit => ?_
  refine (reads_executeAndGetCost hlog commitIx).bind fun commit hcommitRan => ?_
  refine (reads_buildExecuteInstruction hlog).bind fun executeIx hexecute => ?_
  refine (reads_executeAndGetCost hlog executeIx).bind fun execute hexecuteRan => ?_
  refine (reads_ofExcept fun ix hix => built_ok hix).bind fun close hclose => ?_
  refine (reads_executeAndGetCost hlog close).bind fun closed hcloseRan => ?_
  -- all the runs, in the order of the stages
  refine reads_pure ⟨⟨initIx, init.1, init.2⟩ :: writes ++ [⟨commitIx, commit.1, commit.2⟩,
    ⟨executeIx, execute.1, execute.2⟩, ⟨close, closed.1, closed.2⟩], ?_, ?_, ?_, ?_⟩
  · intro run hrun
    rcases List.mem_append.mp hrun with hrun | hrun
    · rcases List.mem_cons.mp hrun with rfl | hrun
      · exact hinitRan
      · exact hwritesRan run hrun
    · simp only [List.mem_cons, List.not_mem_nil, or_false] at hrun
      rcases hrun with rfl | rfl | rfl
      · exact hcommitRan
      · exact hexecuteRan
      · exact hcloseRan
  · refine ⟨executeIx, close, hexecute, hclose, ?_⟩
    simp only [List.map_append, List.map_cons, List.map_nil, hwriteIxs, uploadIxs, hinit, hcommit,
      chunksWithOffset, List.filterMap_map, Function.comp_def, List.nil_append, Except.toOption,
      Option.toList, List.cons_append, List.append_assoc]
  · simp only [Saturating.sum, List.map_append, List.map_cons, List.map_nil, List.foldl_append,
      List.foldl_cons, List.foldl_nil, hwriteFees]
  · simp only [stages, List.map_append, List.map_cons, List.map_nil, hwriteStages]

/-! ## The check -/

/-- The five stages of a cost are one loop. -/
theorem calculateCost_eq (breakdown : ExecuteTaskConsumptionBreakdown) :
    calculateCost ctx breakdown = (stages breakdown).foldlM (addStageCost ctx) 0 := by
  simp only [calculateCost, stages, List.cons_append, List.foldlM_cons, List.foldlM_append,
    List.foldlM_nil, bind_pure]

/-- Working a cost out again leaves every ledger alone. -/
theorem reads_calculateCost
    (hlog : ∀ w : World, log (w.next ctx.rpc) = log w)
    (breakdown : ExecuteTaskConsumptionBreakdown) :
    Reads log (calculateCost ctx breakdown) fun _ => True := by
  have hstage : ∀ total stage, Reads log (addStageCost ctx total stage) fun _ => True := by
    intro total stage
    unfold addStageCost
    split
    · exact reads_pure trivial
    · exact (reads_calculateComputeUnitPrice hlog _).bind fun _ _ => reads_pure trivial
  unfold calculateCost
  refine (hstage _ _).bind fun _ _ => ?_
  refine (Reads.foldlM (fun _ _ => True) (fun _ _ _ _ => hstage _ _) _ [] _ trivial).bind
    fun _ _ => ?_
  exact (hstage _ _).bind fun _ _ => (hstage _ _).bind fun _ _ => hstage _ _

/-- The gas check adds to no ledger that is apart from the cache as well. -/
theorem reads_ensureEnoughGas {incomingMessagePda : Pubkey} (hlog : ApartFromSimnet ctx log)
    (hcache : ∀ (w : World) entry, log (w.setCache incomingMessagePda entry) = log w)
    (availableGas : Int) :
    Reads log (ensureEnoughGas ctx message payload destinationAddress incomingMessagePda
      availableGas) fun _ => True := by
  unfold ensureEnoughGas
  refine (reads_modifyGet fun w => hcache w none).bind fun maybeCached _ => ?_
  refine Reads.bind (P := fun _ => True) ?_ fun result _ => ?_
  · cases maybeCached with
    -- nothing on record: the cost is estimated
    | none => exact (reads_estimateTotalExecuteCost hlog).mono fun _ _ => trivial
    | some breakdown =>
        exact (reads_calculateCost hlog.next breakdown).bind fun _ _ => reads_pure trivial
  · obtain ⟨cost, breakdown⟩ := result
    dsimp only
    split
    · exact (reads_modify fun w => hcache w _).bind fun _ _ => reads_throw _
    · exact reads_pure trivial

/-- The gas check lands nothing. -/
theorem ensureEnoughGas_landed (incomingMessagePda : Pubkey) (availableGas : Int) :
    Reads World.landed (ensureEnoughGas ctx message payload destinationAddress incomingMessagePda
      availableGas) fun _ => True :=
  reads_ensureEnoughGas landed_apartFromSimnet (fun w => World.landed_setCache w _) availableGas

/-- **What `execute_task` lands** is what its attempt at the message lands, if it gets there. -/
theorem extends_executeTask (task : ExecuteTask) :
    Extends World.landed (executeTask ctx task) fun _ new => ∃ destinationAddress uploads call,
      Attempt ctx destinationAddress (composeMessage ctx task) task.payload new uploads call := by
  have hnothing : ∃ destinationAddress uploads call, Attempt ctx destinationAddress
      (composeMessage ctx task) task.payload [] uploads call :=
    ⟨ctx.signer, [], [], rfl, Carried.nil, Nat.zero_le _, fun _ h => absurd h List.not_mem_nil,
      fun h => absurd rfl h⟩
  unfold executeTask
  -- up to the upload every step reads, and a step that fails lands nothing
  refine Extends.after_reads (P := fun _ => True) ?_ (fun executed _ => ?_) fun _ => hnothing
  · unfold incomingMessageAlreadyExecuted
    refine Reads.bind (P := fun _ => True) (reads_ask fun _ _ _ => trivial) fun answer _ => ?_
    cases answer with
    | none => exact reads_throw _
    | some isExecuted => exact reads_pure trivial
  split
  · refine Extends.mono (reads_pure (P := fun _ => True) trivial) ?_
    rintro r new ⟨rfl, -⟩
    exact hnothing
  refine Extends.after_reads (P := fun _ => True) (reads_ofExcept fun _ _ => trivial)
    (fun destinationAddress _ => ?_) fun _ => hnothing
  refine Extends.after_reads (P := fun _ => True) (reads_ofExcept fun _ _ => trivial)
    (fun _ _ => ?_) fun _ => hnothing
  refine Extends.after_reads (ensureEnoughGas_landed _ _) (fun _ _ => ?_) fun _ => hnothing
  refine extends_uploadAndExecute.mono ?_
  rintro r new ⟨uploads, call, h⟩
  exact ⟨destinationAddress, uploads, call, h⟩

end AxelarRelayer.Proof
