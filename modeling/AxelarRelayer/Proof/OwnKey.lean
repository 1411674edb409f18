import AxelarRelayer.Proof.Submissions
import AxelarRelayer.Proof.Admission
import AxelarRelayer.Proof.TaskEvents

/-!
# The relayer's own key

A payload lists accounts, and the instruction built from it carries them. The real
send refuses a payload that lists the relayer. The gas check before it builds the
same instruction without that test, signs it and hands it to the estimation node.

`key_kept_out_iff`: the relayer keeps its signature off that instruction exactly
when the gas check does not get as far as signing it (`SimulatesExecution`), or panics
there because somebody else has to sign it too (`RelayerSigns`). Where nothing of the kind
is signed, everything submitted is an instruction of the upload, and those are told apart
by the program they go to.
-/

namespace AxelarRelayer.Proof

open AxelarRelayer AxelarRelayer.Task Effect

variable {ctx : Context} {task : ExecuteTask} {id : TaskItemId} {message : Message}
  {payload : List UInt8} {destinationAddress pda : Pubkey} {w : World} {ix : ParsedIx}

/-- The payload lists the relayer among its accounts. -/
def NamesRelayer (ctx : Context) (payload : List UInt8) : Prop :=
  ∃ accounts, ctx.sdk.payloadAccounts payload = some accounts ∧ ctx.signer ∈ accounts

/-- The execute instruction built from a payload. -/
def executeIx (ctx : Context) (message : Message) (payload : List UInt8) :
    Except String ParsedIx :=
  ctx.sdk.constructAxelarExecutableIx ctx.signer message payload
    (ctx.sdk.getIncomingMessagePda (messageToCommandId ctx message))
    (messagePayloadPda ctx (messageToCommandId ctx message))

/-- What `process_task` signs and submits. -/
def submissionsOf (ctx : Context) (item : TaskItem) (r : Relayer) : List Submission :=
  (stateOf (processTask ctx item r)).world.submitted.drop r.world.submitted.length

/-- The law for one `ExecuteTask`. -/
def KeepsKeyOut (ctx : Context) (id : TaskItemId) (task : ExecuteTask) (r : Relayer) : Prop :=
  ∀ sub ∈ submissionsOf ctx ⟨id, .execute task⟩ r, ∀ ix,
    executeIx ctx (composeMessage ctx task) task.payload = .ok ix → ix ∉ submittedIxs sub

/-! ## The estimate up to its fourth stage -/

/-- What an estimate holds when it is about to sign the execute instruction. -/
structure Approach where
  totalFee : Nat
  initialization : StageMetadata
  upload : List StageMetadata
  commitment : StageMetadata
  unsigned : UnsignedStage

/-- `estimate_total_execute_cost` up to there. -/
def approachExecution (ctx : Context) (message : Message) (payload : List UInt8)
    (destinationAddress : Pubkey) : EStateM Report World Approach := do
  let msgCommandId := messageToCommandId ctx message
  let bufferSize ← Effect.ofExcept (tryIntoU64 payload.length)
  let initIx ← Effect.ofExcept (built
    (ctx.sdk.initializeMessagePayload ctx.gatewayRootPda ctx.signer msgCommandId bufferSize))
  let (initCost, initialization) ← executeAndGetCost ctx [initIx]
  let (totalFee, upload) ← (chunks payload ctx.sdk.maxChunkSize).zipIdx.foldlM
    (estimateChunk ctx msgCommandId) (Saturating.add 0 initCost, [])
  let commitIx ← Effect.ofExcept (built
    (ctx.sdk.commitMessagePayload ctx.gatewayRootPda ctx.signer msgCommandId))
  let (commitCost, commitment) ← executeAndGetCost ctx [commitIx]
  let executeIx ← buildExecuteInstruction ctx message payload destinationAddress
  let unsigned ← prepareStage ctx [executeIx]
  return ⟨Saturating.add totalFee commitCost, initialization, upload, commitment, unsigned⟩

/-- The rest of it. -/
def finishEstimate (ctx : Context) (message : Message) (reached : Approach) :
    EStateM Report World (Nat × ExecuteTaskConsumptionBreakdown) := do
  let (executeCost, execution) ← runStage ctx reached.unsigned
  let totalFee := Saturating.add reached.totalFee executeCost
  let closeIx ← Effect.ofExcept (built (ctx.sdk.closeMessagePayload ctx.gatewayRootPda ctx.signer
    (messageToCommandId ctx message)))
  let (closeCost, closure) ← executeAndGetCost ctx [closeIx]
  return (Saturating.add totalFee closeCost,
    ⟨reached.initialization, reached.upload, reached.commitment, execution, closure⟩)

theorem estimateTotalExecuteCost_eq :
    estimateTotalExecuteCost ctx message payload destinationAddress =
      approachExecution ctx message payload destinationAddress >>= finishEstimate ctx message := by
  simp only [estimateTotalExecuteCost, approachExecution, finishEstimate, executeAndGetCost_eq,
    bind_assoc, pure_bind]

/--
The gas check gets to the execute instruction: the message is new, its destination is
accepted, no cost is recorded for it, and nothing fails on the way there.
-/
def SimulatesExecution (ctx : Context) (task : ExecuteTask) (w : World) : Prop :=
  let message := composeMessage ctx task
  let pda := ctx.sdk.getIncomingMessagePda (messageToCommandId ctx message)
  w.cache pda = none ∧ ∃ destinationAddress w₁ reached w₂,
    ctx.sdk.parsePubkey message.destinationAddress = .ok destinationAddress ∧
    verifyDestination ctx destinationAddress = .ok () ∧
    incomingMessageAlreadyExecuted ctx pda w = .ok false w₁ ∧
    approachExecution ctx message task.payload destinationAddress w₁ = .ok reached w₂

/-- No account of the execute instruction has to sign but the relayer. -/
def RelayerSigns (ctx : Context) (task : ExecuteTask) : Prop :=
  ∀ ix, executeIx ctx (composeMessage ctx task) task.payload = .ok ix →
    PayerSigns [ctx.sdk.instruction ix] ctx.signer

/-! ## What the parts submit -/

/-- Reporting a failure submits nothing. -/
theorem reads_failureEvent (error : Report) :
    Reads World.submitted (failureEvent ctx id task error) fun _ => True := by
  have hcall : Reads World.submitted (call ctx.rpc : EStateM Report World Nat) fun _ => True :=
    reads_call_of fun _ => rfl
  have hfetch : ∀ signature,
      Reads World.submitted (fetchTransaction ctx signature) fun _ => True := by
    intro signature
    refine hcall.bind fun t _ => reads_get.bind fun w _ => ?_
    split
    · exact reads_throw _
    · split
      · exact reads_throw _
      · exact reads_pure trivial
  have hgas : ∀ tx, Reads World.submitted (computeTotalGas ctx tx) fun _ => True := fun tx =>
    hcall.bind fun t _ => reads_get.bind fun w _ => reads_ofExcept fun _ _ => trivial
  have hcost : ∀ pda, Reads World.submitted (costOfPayloadUploading ctx pda) fun _ => True :=
    fun pda => hcall.bind fun t _ => reads_get.bind fun w _ => reads_ofExcept fun _ _ => trivial
  have hattempt : ∀ {α : Type} {x : EStateM Report World α}, Reads World.submitted x (fun _ => True) →
      Reads World.submitted (attempt x : EStateM Report World _) fun _ => True :=
    fun h => (Extends.attempt h).mono fun r new ⟨r₀, _, hnew, _⟩ => ⟨hnew, fun _ _ => trivial⟩
  unfold failureEvent
  split
  · -- a transaction that reverted: the event carries what it cost
    exact (hfetch _).bind fun status _ => (hattempt (hgas _)).bind fun _ _ => reads_pure trivial
  · split
    · exact reads_pure trivial
    · -- any other error but a lack of gas: the event carries what the upload cost
      refine (hattempt (hcost _)).bind fun maybeSomeFee _ => ?_
      split
      · split <;> exact reads_pure trivial
      · exact reads_pure trivial

/-- A failed `ExecuteTask` submits what its execution submitted. -/
theorem submitted_processTask (r : Relayer) :
    (stateOf (processTask ctx ⟨id, .execute task⟩ r)).world.submitted =
      (stateOf (executeTask ctx task r.world)).submitted := by
  cases hrun : executeTask ctx task r.world with
  | ok u w' => rw [processTask_ok hrun, stateOf_ok, stateOf_ok]
  | error error w' =>
      by_cases hpanic : error = .panicked
      · obtain rfl := hpanic
        rw [processTask_panicked hrun, stateOf_error, stateOf_error]
      -- reporting the error only reads
      have hreads : Reads World.submitted (failureEvent ctx id task error) fun _ => True :=
        reads_failureEvent error
      obtain ⟨new, hnew, hnil, -⟩ := hreads w'
      rw [hnil, List.append_nil] at hnew
      rw [processTask_error hpanic hrun, stateOf_error, ← hnew]
      cases hevent : failureEvent ctx id task error w' with
      | error e w'' =>
          have hfail : onWorld (failureEvent ctx id task error) ⟨w', r.published⟩ =
              .error e ⟨w'', r.published⟩ := by
            simp only [onWorld, hevent]
          rw [run_bind_error _ hfail]
          rfl
      | ok event w'' =>
          have hmade : onWorld (failureEvent ctx id task error) ⟨w', r.published⟩ =
              .ok event ⟨w'', r.published⟩ := by
            simp only [onWorld, hevent]
          rw [run_bind_ok _ hmade, publish]
          split <;> rfl

/-- Up to its fourth stage the estimate submits instructions of the upload. -/
theorem emits_approachExecution :
    Emits World.submitted (approachExecution ctx message payload destinationAddress)
      (CarriesOnly (uploadIxs ctx (messageToCommandId ctx message) payload)) := by
  have hrun : ∀ ix ∈ uploadIxs ctx (messageToCommandId ctx message) payload,
      Emits World.submitted (executeAndGetCost ctx [ix])
        (CarriesOnly (uploadIxs ctx (messageToCommandId ctx message) payload)) := fun ix hix =>
    (emits_executeAndGetCost ix).mono (CarriesOnly.mono (fun a ha => List.mem_singleton.mp ha ▸ hix))
  unfold approachExecution
  -- initialize
  refine Emits.after_reads (reads_ofExcept fun n hn => tryIntoU64_ok hn) fun n hn => ?_
  subst hn
  refine Emits.after_reads (reads_ofExcept fun ix hix => built_ok hix) fun initIx hinit => ?_
  refine (hrun initIx ?_).bind fun init => ?_
  · rw [uploadIxs, hinit]
    exact List.mem_cons_self
  -- write, chunk by chunk
  refine (Emits.foldlM _ _ fun acc chunk hchunk => ?_).bind fun uploaded => ?_
  · unfold estimateChunk
    refine Emits.after_reads (reads_ofExcept fun n hn => tryIntoU64_ok hn) fun n hn => ?_
    subst hn
    refine Emits.after_reads (reads_ofExcept fun ix hix => built_ok hix) fun writeIx hwrite => ?_
    refine (hrun writeIx ?_).bind fun written =>
      (reads_pure (P := fun _ => True) trivial).emits
    refine List.mem_append_right _ (List.mem_append_left _ (List.mem_filterMap.mpr
      ⟨_, List.mem_map_of_mem hchunk, ?_⟩))
    rw [hwrite]
    rfl
  -- commit
  refine Emits.after_reads (reads_ofExcept fun ix hix => built_ok hix) fun commitIx hcommit => ?_
  refine (hrun commitIx ?_).bind fun committed => ?_
  · refine List.mem_append_right _ (List.mem_append_right _ ?_)
    rw [hcommit]
    exact List.mem_cons_self
  -- the execute instruction is built but not yet run
  have hbuild : Reads World.submitted
      (buildExecuteInstruction ctx message payload destinationAddress) fun _ => True := by
    unfold buildExecuteInstruction
    split
    · exact reads_answer _ _
    · split <;> exact reads_ofExcept fun _ _ => trivial
  refine Emits.after_reads hbuild fun executeIx _ => ?_
  refine Emits.after_reads (reads_prepareStage _) fun _ _ => ?_
  exact (reads_pure (P := fun _ => True) trivial).emits

/-- Where the payload lists the relayer, the destination program is never called. -/
theorem emits_uploadAndExecute (hits : destinationAddress ≠ ctx.sdk.itsId)
    (hgov : destinationAddress ≠ ctx.sdk.governanceId) (hown : NamesRelayer ctx payload) :
    Emits World.submitted (uploadAndExecute ctx message payload destinationAddress pda)
      (CarriesOnly (uploadIxs ctx (messageToCommandId ctx message) payload)) := by
  obtain ⟨accounts, haccounts, hmem⟩ := hown
  refine ((emits_upload message payload).mono SentFor.carriesOnly).bind fun payloadPda =>
    Emits.ignore ?_
  have hrefuse : validateRelayerNotInPayload ctx payload =
      .error (.msg "relayer will not execute a transaction where its own key is included") := by
    rw [validateRelayerNotInPayload, haccounts]
    exact if_pos (List.contains_iff_mem.mpr hmem)
  refine Emits.after_reads (V := fun _ => False) ?_ fun _ h => h.elim
  unfold destinationInstruction
  rw [if_neg hits, if_neg hgov, hrefuse]
  exact fun w => ⟨[], (List.append_nil _).symm, rfl, fun _ h => by cases h⟩

/-! ## The gas check -/

/-- The relayer can sign what it is about to run. -/
def UnsignedStage.Signable (ctx : Context) (unsigned : UnsignedStage) : Prop :=
  ∃ tx, Transaction.newSignedWithPayer ctx.sign (unsigned.instructions.map ctx.sdk.instruction)
    ctx.signer unsigned.blockhash = some tx

/-- The gas check submits what its estimate submits. -/
theorem submitted_ensureEnoughGas (available : Int) (w : World) :
    (stateOf (ensureEnoughGas ctx message payload destinationAddress pda available w)).submitted =
      (stateOf (costOfMessage ctx message payload destinationAddress (w.cache pda)
        (w.setCache pda none))).submitted := by
  have hcached : (modifyGet fun w => (w.cache pda, w.setCache pda none) :
      EStateM Report World _) w = .ok (w.cache pda) (w.setCache pda none) := rfl
  rw [ensureEnoughGas, run_bind_ok _ hcached]
  cases hcost : costOfMessage ctx message payload destinationAddress (w.cache pda)
      (w.setCache pda none) with
  | error e w₂ =>
      rw [run_bind_error _ hcost]
      rfl
  | ok result w₂ =>
      obtain ⟨cost, breakdown⟩ := result
      rw [run_bind_ok _ hcost]
      dsimp only
      -- with too little gas the estimate is recorded and the task refused
      split <;> rfl

/-- The gas check submits instructions of the upload, unless it signs the fourth stage. -/
theorem grows_ensureEnoughGas {available : Int}
    (h : w.cache pda = none → ∀ reached w₂,
      approachExecution ctx message payload destinationAddress w = .ok reached w₂ →
        ¬ reached.unsigned.Signable ctx) :
    Grows World.submitted (CarriesOnly (uploadIxs ctx (messageToCommandId ctx message) payload)) w
      (stateOf (ensureEnoughGas ctx message payload destinationAddress pda available w)) := by
  have hcost : Grows World.submitted
      (CarriesOnly (uploadIxs ctx (messageToCommandId ctx message) payload)) (w.setCache pda none)
      (stateOf (costOfMessage ctx message payload destinationAddress (w.cache pda)
        (w.setCache pda none))) := by
    cases hcache : w.cache pda with
    | some breakdown =>
        -- a recorded estimate is only priced again
        exact Reads.grows ((reads_calculateCost (fun _ => rfl) breakdown).bind fun _ _ =>
          reads_pure (P := fun _ => True) trivial) _
    | none =>
        have hsame : w.setCache pda none = w := by rw [← hcache, World.setCache_self]
        rw [hsame, costOfMessage, estimateTotalExecuteCost_eq]
        refine (emits_approachExecution.grows w).bind fun reached w₂ hreached => ?_
        -- the signing panics, and nothing comes after it
        have hunsigned := Option.eq_none_iff_forall_ne_some.mpr fun tx htx =>
          h hcache reached w₂ hreached ⟨tx, htx⟩
        rw [finishEstimate, run_bind_error _ (runStage_panics reached.unsigned w₂ hunsigned)]
        exact Grows.refl
  obtain ⟨new, hnew, hcarries⟩ := hcost
  exact ⟨new, (submitted_ensureEnoughGas available w).trans hnew, hcarries⟩

/-- What the estimate is about to sign is the execute instruction behind the compute budget ones. -/
theorem reached_instructions {reached : Approach} {w₂ : World}
    (hits : destinationAddress ≠ ctx.sdk.itsId) (hgov : destinationAddress ≠ ctx.sdk.governanceId)
    (h : approachExecution ctx message payload destinationAddress w = .ok reached w₂) :
    ∃ ix price, executeIx ctx message payload = .ok ix ∧ ix.accounts.length ≤ 128 ∧
      reached.unsigned.instructions =
        [setComputeUnitPrice price, setComputeUnitLimit 1400000, ix] := by
  obtain ⟨_, _, -, h⟩ := run_bind_eq_ok h
  obtain ⟨_, _, -, h⟩ := run_bind_eq_ok h
  obtain ⟨_, _, -, h⟩ := run_bind_eq_ok h
  obtain ⟨_, _, -, h⟩ := run_bind_eq_ok h
  obtain ⟨_, _, -, h⟩ := run_bind_eq_ok h
  obtain ⟨_, _, -, h⟩ := run_bind_eq_ok h
  obtain ⟨ix, _, hbuilt, h⟩ := run_bind_eq_ok h
  obtain ⟨unsigned, _, hprepared, h⟩ := run_bind_eq_ok h
  cases h
  have hix := (reads_buildExecuteInstruction landed_apartFromSimnet).value hbuilt
  simp only [SimnetDestinationIx, if_neg hits, if_neg hgov] at hix
  obtain ⟨hfew, price, hprice⟩ := (reads_prepareStage [ix]).value hprepared
  have htouched : [ix].flatMap ParsedIx.accounts = ix.accounts := List.append_nil _
  rw [htouched] at hfew
  exact ⟨ix, price, hix, hfew, hprice⟩

/-- It can be signed exactly where the relayer's signature is enough. -/
theorem signable_reached_iff {reached : Approach} {w₂ : World}
    (hits : destinationAddress ≠ ctx.sdk.itsId) (hgov : destinationAddress ≠ ctx.sdk.governanceId)
    (h : approachExecution ctx (composeMessage ctx task) task.payload destinationAddress w =
      .ok reached w₂) :
    reached.unsigned.Signable ctx ↔ RelayerSigns ctx task := by
  obtain ⟨ix, price, hix, hfew, hinstructions⟩ := reached_instructions hits hgov h
  refine (signed_stage_iff hfew hinstructions).trans ⟨fun hsigns ix' hix' => ?_, fun hsigns => ?_⟩
  · obtain rfl := Except.ok.inj (hix.symm.trans hix')
    exact hsigns
  · exact hsigns ix hix

/-- Where it gets there and can sign it, the execute instruction is submitted. -/
theorem submits_executeIx (available : Int) {reached : Approach} {w₂ : World}
    (hits : destinationAddress ≠ ctx.sdk.itsId) (hgov : destinationAddress ≠ ctx.sdk.governanceId)
    (hcache : w.cache pda = none)
    (h : approachExecution ctx message payload destinationAddress w = .ok reached w₂)
    (hsignable : reached.unsigned.Signable ctx) :
    ∃ ix sub l, executeIx ctx message payload = .ok ix ∧ ix ∈ submittedIxs sub ∧
      w.submitted ++ l ++ [sub] <+: (stateOf (ensureEnoughGas ctx message payload
        destinationAddress pda available w)).submitted := by
  obtain ⟨ix, price, hix, -, hinstructions⟩ := reached_instructions hits hgov h
  have hbefore : Grows World.submitted
      (CarriesOnly (uploadIxs ctx (messageToCommandId ctx message) payload)) w
      (stateOf (approachExecution ctx message payload destinationAddress w)) :=
    emits_approachExecution.grows w
  rw [h, stateOf_ok] at hbefore
  -- what was submitted before the execution stage
  obtain ⟨l, hl, -⟩ := hbefore
  refine ⟨ix, .sentToSimnet reached.unsigned.instructions, l, hix,
    by rw [hinstructions]; simp [submittedIxs], ?_⟩
  obtain ⟨tx, htx⟩ := hsignable
  have hstage : (stateOf (runStage ctx reached.unsigned w₂)).submitted =
      w.submitted ++ l ++ [.sentToSimnet reached.unsigned.instructions] := by
    rw [submitted_runStage reached.unsigned w₂ htx, hl]
  -- whatever follows only adds to it: the close stage
  have hafter : Grows World.submitted (fun _ => True)
      (stateOf (runStage ctx reached.unsigned w₂))
      (stateOf (estimateTotalExecuteCost ctx message payload destinationAddress w)) := by
    rw [estimateTotalExecuteCost_eq, run_bind_ok _ h]
    refine Grows.onward fun executed => ?_
    refine Emits.after_reads (V := fun _ => True) (reads_ofExcept fun _ _ => trivial)
      fun closeIx _ => ?_
    refine Emits.bind ((emits_executeAndGetCost closeIx).mono fun _ _ => trivial) fun _ => ?_
    exact (reads_pure (P := fun _ => True) trivial).emits
  have hsame : w.setCache pda none = w := by rw [← hcache, World.setCache_self]
  rw [submitted_ensureEnoughGas, hcache, hsame, ← hstage]
  exact hafter.isPrefix

/-! ## The law -/

theorem exists_other (a b : Pubkey) : ∃ c : Pubkey, c ≠ a ∧ c ≠ b := by
  have h01 : (.filled 0 : Pubkey) ≠ .filled 1 := by decide
  have h02 : (.filled 0 : Pubkey) ≠ .filled 2 := by decide
  have h12 : (.filled 1 : Pubkey) ≠ .filled 2 := by decide
  by_cases h0 : (.filled 0 : Pubkey) ≠ a ∧ (.filled 0 : Pubkey) ≠ b
  · exact ⟨_, h0⟩
  by_cases h1 : (.filled 1 : Pubkey) ≠ a ∧ (.filled 1 : Pubkey) ≠ b
  · exact ⟨_, h1⟩
  · exact ⟨.filled 2, by grind⟩

/-- The execute instruction is none of the upload's, nor a compute budget one. -/
theorem executeIx_separate (hlaws : PayloadLaws ctx) (hits : destinationAddress ≠ ctx.sdk.itsId)
    (hgov : destinationAddress ≠ ctx.sdk.governanceId) (hix : executeIx ctx message payload = .ok ix)
    (hnames : ix.accounts ≠ []) {sub : Submission}
    (h : CarriesOnly (uploadIxs ctx (messageToCommandId ctx message) payload) sub) :
    ix ∉ submittedIxs sub := by
  intro hin
  rcases h ix hin with hup | hnone
  · obtain ⟨hprogram, -, g, -, hg⟩ := hlaws.upload _ _ ix hup
    have hdest : DestinationIx ctx destinationAddress message payload ix := by
      simp only [DestinationIx, if_neg hits, if_neg hgov]
      exact hix
    rw [(hlaws.destination _ _ _ ix hdest).notGateway hprogram] at hg
    cases hg
  · exact hnames hnone

/-- Unless the gas check signs the execute instruction, only the upload is submitted. -/
theorem grows_executeTask
    (hdest : ∀ destinationAddress,
      ctx.sdk.parsePubkey task.message.destinationAddress = .ok destinationAddress →
        destinationAddress ≠ ctx.sdk.itsId ∧ destinationAddress ≠ ctx.sdk.governanceId)
    (hown : NamesRelayer ctx task.payload)
    (h : ¬ (SimulatesExecution ctx task w ∧ RelayerSigns ctx task)) :
    Grows World.submitted (CarriesOnly (uploadIxs ctx
      (messageToCommandId ctx (composeMessage ctx task)) task.payload)) w
      (stateOf (executeTask ctx task w)) := by
  have hread : Reads World.submitted (incomingMessageAlreadyExecuted ctx
      (ctx.sdk.getIncomingMessagePda (messageToCommandId ctx (composeMessage ctx task))))
      fun _ => True := by
    refine (reads_answer _ _).bind fun answer _ => ?_
    cases answer with
    | none => exact reads_throw _
    | some isExecuted => exact reads_pure trivial
  refine Grows.bind (hread.grows w) fun executed w₁ hexecuted => ?_
  have hcache : w₁.cache = w.cache := by
    rw [incomingMessageAlreadyExecuted_next hexecuted]
    rfl
  cases executed with
  | true => exact Grows.refl
  | false =>
      refine Grows.bind (Reads.grows (V := fun _ => True) (reads_ofExcept fun _ _ => trivial) w₁)
        fun destinationAddress w₂ hparse => ?_
      obtain ⟨hparsed, rfl⟩ := ofExcept_eq_ok hparse
      have hparsed := mapError_eq_ok (context_ok hparsed)
      refine Grows.bind (Reads.grows (V := fun _ => True) (reads_ofExcept fun _ _ => trivial) w₂)
        fun u w₃ hverify => ?_
      obtain ⟨hverified, rfl⟩ := ofExcept_eq_ok hverify
      obtain ⟨hits, hgov⟩ := hdest destinationAddress hparsed
      refine Grows.bind (grows_ensureEnoughGas fun hnone reached w₄ hreached hsignable => ?_)
        fun _ w₄ _ => ?_
      · -- getting there and signing it is what the hypothesis excludes
        exact h ⟨⟨hcache ▸ hnone, destinationAddress, _, reached, w₄, hparsed, hverified, hexecuted,
          hreached⟩, (signable_reached_iff hits hgov hreached).mp hsignable⟩
      · exact (emits_uploadAndExecute hits hgov hown).grows w₄

/--
**When the relayer's own key is kept out.** The destination is neither ITS nor
governance and the payload lists the relayer: exactly when the gas check does not get to
the execute instruction, or another account of it has to sign, and the signing panics.
-/
theorem key_kept_out_iff (ctx : Context) (id : TaskItemId) (task : ExecuteTask) (r : Relayer)
    (hlaws : PayloadLaws ctx)
    (hdest : ∀ destinationAddress,
      ctx.sdk.parsePubkey task.message.destinationAddress = .ok destinationAddress →
        destinationAddress ≠ ctx.sdk.itsId ∧ destinationAddress ≠ ctx.sdk.governanceId)
    (hown : NamesRelayer ctx task.payload)
    (hnames : ∀ ix, executeIx ctx (composeMessage ctx task) task.payload = .ok ix →
      ix.accounts ≠ []) :
    KeepsKeyOut ctx id task r ↔
      ¬ (SimulatesExecution ctx task r.world ∧ RelayerSigns ctx task) := by
  unfold KeepsKeyOut submissionsOf
  rw [submitted_processTask]
  constructor
  · rintro hlaw ⟨⟨hcache, destinationAddress, w₁, reached, w₂, hparsed, hverified, hexecuted,
      hreached⟩, hsigns⟩
    -- the execution is simulated: the execute instruction has been submitted
    obtain ⟨hits, hgov⟩ := hdest destinationAddress hparsed
    obtain rfl := incomingMessageAlreadyExecuted_next hexecuted
    have huncached : (r.world.next ctx.rpc).cache (ctx.sdk.getIncomingMessagePda
        (messageToCommandId ctx (composeMessage ctx task))) = none := hcache
    obtain ⟨ix, sub, l, hix, hin, hsubmitted⟩ := submits_executeIx
      task.availableGasBalance.amount hits hgov huncached hreached
        ((signable_reached_iff hits hgov hreached).mpr hsigns)
    refine hlaw sub ?_ ix hix hin
    have hafter : Grows World.submitted (fun _ => True)
        (stateOf (ensureEnoughGas ctx (composeMessage ctx task) task.payload destinationAddress
          (ctx.sdk.getIncomingMessagePda (messageToCommandId ctx (composeMessage ctx task)))
          task.availableGasBalance.amount (r.world.next ctx.rpc)))
        (stateOf (executeTask ctx task r.world)) := by
      rw [executeTask_admitted hexecuted hparsed hverified]
      exact Grows.onward fun _ => (emits_uploadAndExecute hits hgov hown).mono fun _ _ => trivial
    obtain ⟨rest, hrest⟩ := hsubmitted.trans hafter.isPrefix
    have hstart : (r.world.next ctx.rpc).submitted = r.world.submitted := rfl
    rw [← hrest, hstart, List.append_assoc, List.append_assoc, List.drop_left]
    exact List.mem_append_right _ List.mem_cons_self
  · intro hnot sub hsub ix hix
    -- any other destination will do: the instruction does not depend on it
    obtain ⟨other, hits, hgov⟩ := exists_other ctx.sdk.itsId ctx.sdk.governanceId
    exact executeIx_separate hlaws hits hgov hix (hnames ix hix)
      ((grows_executeTask hdest hown hnot).of_mem_drop sub hsub)

/-! ## A payload that lists the relayer -/

/-- A steady network on which every payload lists key 9, the relayer's. -/
def draining : Context :=
  { steadyContext alwaysConfirmed [] with
    sdk := { taggedSdk with
      payloadAccounts := fun _ => some [.filled 9]
      constructAxelarExecutableIx := fun _ _ payload incoming pda =>
        .ok ⟨.filled 7, [incoming, pda, .filled 9], 97 :: payload⟩ } }

theorem draining_payloadLaws : PayloadLaws draining := by
  have hsteady : PayloadLaws (steadyContext alwaysConfirmed []) := steady_payloadLaws
  refine ⟨hsteady.upload, hsteady.close, ?_, hsteady.computeBudget⟩
  intro destinationAddress message payload ix hix
  unfold DestinationIx at hix
  split at hix
  · obtain ⟨t, ht⟩ := hix
    cases ht
  · split at hix <;> obtain rfl := Except.ok.inj hix <;>
      exact ⟨fun _ => rfl, fun _ => rfl⟩

theorem draining_destination : ∀ destinationAddress,
    draining.sdk.parsePubkey (greeting 100000).message.destinationAddress = .ok destinationAddress →
      destinationAddress ≠ draining.sdk.itsId ∧ destinationAddress ≠ draining.sdk.governanceId := by
  intro destinationAddress h
  obtain rfl := Except.ok.inj h
  exact ⟨by decide, by decide⟩

theorem draining_accounts : ∀ ix,
    executeIx draining (composeMessage draining (greeting 100000)) (greeting 100000).payload =
      .ok ix → ix.accounts ≠ [] := by
  intro ix h
  obtain rfl := Except.ok.inj h
  exact List.cons_ne_nil _ _

/-- The relayer after it refused the greeting for its lack of gas. -/
def refusedOnce : Relayer := stateOf (processTask draining ⟨⟨1⟩, .execute (greeting 0)⟩ freshRelayer)

/-- The refusal recorded the cost: now nothing is simulated, and the key is kept out. -/
theorem recorded_kept_out : KeepsKeyOut draining ⟨2⟩ (greeting 100000) refusedOnce := by
  refine (key_kept_out_iff _ _ _ _ draining_payloadLaws draining_destination
    ⟨_, rfl, List.mem_cons_self⟩ draining_accounts).mpr ?_
  rintro ⟨⟨hcache, -⟩, -⟩
  have hrecorded : (refusedOnce.world.cache (.filled 20)).isSome = true := by decide +kernel
  have hnone : refusedOnce.world.cache (.filled 20) = none := hcache
  rw [hnone] at hrecorded
  cases hrecorded

/-- **The law fails**: the gas check signs the instruction and hands it to the estimation node. -/
theorem own_key_simulated : ¬ ∀ (ctx : Context) (id : TaskItemId) (task : ExecuteTask) (r : Relayer),
    PayloadLaws ctx → (∀ destinationAddress,
      ctx.sdk.parsePubkey task.message.destinationAddress = .ok destinationAddress →
        destinationAddress ≠ ctx.sdk.itsId ∧ destinationAddress ≠ ctx.sdk.governanceId) →
    NamesRelayer ctx task.payload →
    (∀ ix, executeIx ctx (composeMessage ctx task) task.payload = .ok ix → ix.accounts ≠ []) →
      KeepsKeyOut ctx id task r := by
  intro hall
  have hlaw := hall draining ⟨1⟩ (greeting 100000) freshRelayer draining_payloadLaws
    draining_destination ⟨_, rfl, List.mem_cons_self⟩ draining_accounts
  have hsigned : ∃ sub ∈ submissionsOf draining ⟨⟨1⟩, .execute (greeting 100000)⟩ freshRelayer,
      (⟨.filled 7, [.filled 20, .filled 21, .filled 9], 97 :: (greeting 100000).payload⟩ : ParsedIx) ∈
        submittedIxs sub := by decide +kernel
  obtain ⟨sub, hsub, hin⟩ := hsigned
  exact hlaw sub hsub _ rfl hin

end AxelarRelayer.Proof
