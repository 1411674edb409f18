import AxelarRelayer.Lib.Courses
import AxelarRelayer.Proof.ConcurrentSends
import AxelarRelayer.Proof.Submissions

/-!
# The tasks, and the courses they can take

`gateway_tx_task` and `upload` stand in the model twice: as programs over the `World`, in
which the concurrent sends are run in the order in which they complete, and as systems whose
events come in any order. Every run of a program is a course of its system: the same
submissions, in the same order, and the same end (`gatewayTxTask_course`, `upload_course`).
So what holds on every course holds of the programs.
-/

namespace AxelarRelayer.Proof

open AxelarRelayer AxelarRelayer.Task Effect Phases Runs

variable {ctx : Context} {executeData : ExecuteData} {commandId : Bytes32} {payload : List UInt8}
  {phases later : List (Except Report (List GatewaySend))} {phase : Nat}

/-! ## One send -/

/-- One future of a phase. -/
def runSend (ctx : Context) (send : GatewaySend) : EStateM Report World Unit :=
  match send.kind.context? with
  | none => sendGatewayTx ctx send.ix
  | some text => withContext text (sendGatewayTx ctx send.ix)

/-- A send never waits for more than its own transaction. -/
theorem stateOf_sendGatewayTx (ix : ParsedIx) (w : World) :
    stateOf (sendGatewayTx ctx ix w) = stateOf (sendTransaction ctx [ix] w) := by
  rw [sendGatewayTx, run_bind_ok _ (rfl : attempt (sendTransaction ctx [ix]) w = _)]
  cases resultOf (sendTransaction ctx [ix] w) with
  | ok sig => rfl
  | error err =>
      dsimp only
      split <;> rfl

theorem may_of_sendShape {send : GatewaySend} {sub : Submission} (h : SendShape [send.ix] sub) :
    (sendRules ctx).may send sub = true := by
  cases h with
  | simulated units => simp [sendRules, Submission.toSolana, Submission.instructions,
      Submission.landsItself]
  | sent price units landed hlanded =>
      cases landed with
      | none => simp [sendRules, Submission.toSolana, Submission.instructions,
          Submission.landsItself]
      | some st => simp [sendRules, Submission.toSolana, Submission.instructions,
          Submission.landsItself, hlanded st rfl]

/-- A send that passes for a success submitted something. -/
theorem submitted_of_gatewayResult {ix : ParsedIx} {r : Except ComputeBudgetError Signature}
    {new : List Submission} (hsub : Submits [ix] r new) (h : gatewayResult ctx r = .ok ()) :
    new ≠ [] := by
  cases r with
  | ok sig => exact hsub.ok sig rfl
  | error err =>
      refine hsub.simulation ?_
      cases err with
      | simulationError result => simp [simulationFailure?]
      | transactionError source signature => cases h
      | generic message => cases h

theorem runSend_none {send : GatewaySend} (h : send.kind.context? = none) :
    runSend ctx send = sendGatewayTx ctx send.ix := by
  rw [runSend, h]

theorem runSend_some {send : GatewaySend} {text : String} (h : send.kind.context? = some text) :
    runSend ctx send = withContext text (sendGatewayTx ctx send.ix) := by
  rw [runSend, h]

theorem stateOf_runSend (send : GatewaySend) (w : World) :
    stateOf (runSend ctx send w) = stateOf (sendTransaction ctx [send.ix] w) := by
  rw [← stateOf_sendGatewayTx]
  cases h : send.kind.context? with
  | none => rw [runSend_none h]
  | some text => rw [runSend_some h, withContext, stateOf_mapError]

theorem resultOf_runSend (send : GatewaySend) (w : World) : resultOf (runSend ctx send w) =
    (sendRules ctx).finish send (resultOf (sendTransaction ctx [send.ix] w)) := by
  rw [sendRules]
  dsimp only
  rw [← resultOf_sendGatewayTx]
  cases h : send.kind.context? with
  | none => rw [runSend_none h]
  | some text =>
      rw [runSend_some h, withContext, resultOf_mapError]
      rfl

/-- The context of an error does not make it a success. -/
theorem gatewayResult_of_finish {send : GatewaySend} {r : Except ComputeBudgetError Signature}
    (h : (sendRules ctx).finish send r = .ok ()) : gatewayResult ctx r = .ok () := by
  rw [sendRules] at h
  dsimp only at h
  cases hcontext : send.kind.context? with
  | none => rwa [hcontext] at h
  | some text =>
      rw [hcontext] at h
      exact mapError_eq_ok h

/-- **A send does what the rules let it do.** -/
theorem performs_runSend (send : GatewaySend) :
    Performs (sendRules ctx) World.submitted send (runSend ctx send) := by
  intro w
  have hsend : Extends World.submitted (sendTransaction ctx [send.ix]) (Submits [send.ix]) :=
    extends_sendTransaction_submitted [send.ix]
  obtain ⟨new, hnew, hsub⟩ := hsend w
  refine ⟨new, by rw [stateOf_runSend, hnew], fun sub h => may_of_sendShape (hsub.shape sub h),
    ⟨_, (resultOf_runSend send w).symm⟩, fun hok => ?_⟩
  rw [resultOf_runSend] at hok
  exact submitted_of_gatewayResult hsub (gatewayResult_of_finish hok)

/-! ## One phase -/

/-- The course of a phase with one send, or with none because it cannot be built. -/
theorem takes_single {kind : SendKind} {ix : Except Report ParsedIx}
    {rest : EStateM Report World Unit}
    (hrest : TakesCourse (sendRules ctx) phases World.submitted (phase + 1) later rest) :
    TakesCourse (sendRules ctx) phases World.submitted phase (single kind ix :: later)
      (Effect.ofExcept ix >>= fun i => runSend ctx ⟨kind, i⟩ >>= fun _ => rest) := by
  cases ix with
  | error e => exact takes_error fun _ => rfl
  | ok i =>
      have hdrains : Drains (fun job : Job GatewaySend => runSend ctx job.item)
          (jobs phase [⟨kind, i⟩]) (runSend ctx ⟨kind, i⟩) :=
        drains_single (fun job => runSend ctx job.item) ⟨phase, 0, ⟨kind, i⟩⟩
      exact takes_cons (fun job => performs_runSend job.item) hdrains hrest

/-- The course of a phase whose futures are drained. -/
theorem takes_drainSends {items : List GatewaySend} {sends : List (Nat × ParsedIx)}
    {job : Nat × ParsedIx → EStateM Report World Unit} (f : Job GatewaySend → Nat × ParsedIx)
    {rest : EStateM Report World Unit} (hsends : sends = (jobs phase items).map f)
    (hjob : ∀ j ∈ jobs phase items, job (f j) = runSend ctx j.item)
    (hrest : TakesCourse (sendRules ctx) phases World.submitted (phase + 1) later rest) :
    TakesCourse (sendRules ctx) phases World.submitted phase (.ok items :: later)
      (drainSends ctx job sends >>= fun _ => rest) := by
  have hdrains : Drains (fun j : Job GatewaySend => runSend ctx j.item) (jobs phase items)
      (drainSends ctx job sends) := by
    refine drains_map (fun w send => ctx.rpc.stray w.tick send) hjob fun w => ?_
    exact ⟨ctx.rpc.completion w.tick sends, hsends ▸ ctx.rpc.completes _ _, rfl⟩
  exact takes_cons (fun j => performs_runSend j.item) hdrains hrest

/-- The futures of a batch, which are numbered. -/
theorem takes_drainGatewayTxs {items : List GatewaySend} {rest : EStateM Report World Unit}
    (hkinds : ∀ send ∈ items, send.kind.context? = none)
    (hrest : TakesCourse (sendRules ctx) phases World.submitted (phase + 1) later rest) :
    TakesCourse (sendRules ctx) phases World.submitted phase (.ok items :: later)
      (drainGatewayTxs ctx (items.map GatewaySend.ix) >>= fun _ => rest) := by
  refine takes_drainSends (fun j => (j.index, j.item.ix)) ?_ (fun j hj => ?_) hrest
  · simp [jobs, List.zipIdx_map, Function.comp_def]
  · have hin : j.item ∈ items := List.mem_of_getElem? (mem_jobs.mp hj).2
    rw [runSend_none (hkinds _ hin)]

/-! ## `gateway_tx_task` -/

/-- The instructions of the sends that were not left out. -/
theorem map_ix_filterMap {β : Type} (kind : β → SendKind) (build : β → Except String ParsedIx)
    (items : List β) : (items.filterMap fun item => (build item).toOption.map fun ix =>
      (⟨kind item, ix⟩ : GatewaySend)).map GatewaySend.ix =
        items.filterMap fun item => (build item).toOption := by
  rw [List.map_filterMap]
  simp only [Option.map_map, Function.comp_def, Option.map_id']

theorem context?_filterMap {β : Type} {kind : β → SendKind} {build : β → Except String ParsedIx}
    {items : List β} (hkind : ∀ item, (kind item).context? = none) :
    ∀ send ∈ items.filterMap fun item => (build item).toOption.map fun ix =>
      (⟨kind item, ix⟩ : GatewaySend), send.kind.context? = none := by
  intro send hsend
  obtain ⟨item, -, hsend⟩ := List.mem_filterMap.mp hsend
  obtain ⟨ix, -, rfl⟩ := Option.map_eq_some_iff.mp hsend
  exact hkind item

/-- The last phase: a rotation, or the approvals. -/
theorem takes_payloadSends :
    TakesCourse (sendRules ctx) phases World.submitted phase [payloadSends ctx executeData]
      (sendPayloadItems ctx executeData (sessionPda ctx executeData)) := by
  cases hpayload : executeData.payloadItems with
  | verifierSetRotation root =>
      have hsends : payloadSends ctx executeData =
          single .rotateSigners (built (rotateIx ctx executeData root)) := by
        rw [payloadSends, hpayload]
      have hprogram : sendPayloadItems ctx executeData (sessionPda ctx executeData) =
          Effect.ofExcept (built (rotateIx ctx executeData root)) >>= fun i =>
            runSend ctx ⟨.rotateSigners, i⟩ >>= fun _ => pure () := by
        rw [sendPayloadItems, hpayload]
        simp only [bind_pure_unit]
        rfl
      rw [hsends, hprogram]
      exact takes_single takes_nil
  | newMessages messages =>
      have hsends : payloadSends ctx executeData = .ok (approveSends ctx executeData messages) := by
        rw [payloadSends, hpayload]
      have hprogram : sendPayloadItems ctx executeData (sessionPda ctx executeData) =
          drainGatewayTxs ctx ((approveSends ctx executeData messages).map GatewaySend.ix) >>=
            fun _ => pure () := by
        rw [sendPayloadItems, hpayload, approveSends, map_ix_filterMap, bind_pure_unit]
        rfl
      rw [hsends, hprogram]
      exact takes_drainGatewayTxs (context?_filterMap fun _ => rfl) takes_nil

/-- **A run of `gateway_tx_task` is one of its courses**, if it can decode what it is given. -/
theorem gatewayTxTask_course (ctx : Context) (bytes : List UInt8) (w : World) :
    match ctx.sdk.executeData bytes with
    | none => gatewayTxTask ctx bytes w = .error (.msg "cannot decode execute data") w
    | some executeData => ∃ s, Reach (gatewayTask ctx executeData) always s ∧
        s.result = some (resultOf (gatewayTxTask ctx bytes w)) ∧
        (stateOf (gatewayTxTask ctx bytes w)).submitted = w.submitted ++ actions s.trace := by
  cases h : ctx.sdk.executeData bytes with
  | none =>
      rw [gatewayTxTask, h]
      rfl
  | some executeData =>
      have hprogram : gatewayTxTask ctx bytes =
          Effect.ofExcept (built (sessionIx ctx executeData)) >>= fun i =>
            runSend ctx ⟨.initializeSession, i⟩ >>= fun _ =>
              drainGatewayTxs ctx ((verifySends ctx executeData).map GatewaySend.ix) >>= fun _ =>
                sendPayloadItems ctx executeData (sessionPda ctx executeData) := by
        rw [gatewayTxTask, h, verifySends, map_ix_filterMap]
        rfl
      rw [hprogram]
      exact (takes_single (takes_drainGatewayTxs (context?_filterMap fun _ => rfl)
        takes_payloadSends)).course w

/-! ## `message_payload::upload` -/

/-- A chunk write as it lies among the futures. -/
def writeFuture (send : GatewaySend) : Nat × ParsedIx :=
  (match send.kind with
    | .writeMessagePayload chunk => chunk.offset
    | _ => 0, send.ix)

/-- The futures of `write` and the sends of its phase are built together. -/
theorem writeSends_eq (ctx : Context) (commandId : Bytes32) (payload : List UInt8) :
    (∃ e, (chunksWithOffset payload ctx.sdk.maxChunkSize).mapM (writeInstruction ctx commandId) =
        .error e ∧ writeSends ctx commandId payload = .error e) ∨
      ∃ items, (chunksWithOffset payload ctx.sdk.maxChunkSize).mapM
          (writeInstruction ctx commandId) = .ok (items.map writeFuture) ∧
        writeSends ctx commandId payload = .ok items ∧
        ∀ send ∈ items, ∃ chunk, send.kind = .writeMessagePayload chunk := by
  unfold writeSends
  generalize chunksWithOffset payload ctx.sdk.maxChunkSize = chunks
  induction chunks with
  | nil => exact Or.inr ⟨[], rfl, rfl, fun _ h => absurd h List.not_mem_nil⟩
  | cons chunk chunks ih =>
      rw [List.mapM_cons, List.mapM_cons]
      cases hix : writeInstruction ctx commandId chunk with
      | error e => exact Or.inl ⟨e, rfl, rfl⟩
      | ok future =>
          have hfuture : writeFuture ⟨.writeMessagePayload chunk, future.2⟩ = future :=
            Prod.ext (writeInstruction_ok hix).1.symm rfl
          rcases ih with ⟨e, hfutures, hsends⟩ | ⟨items, hfutures, hsends, hkinds⟩
          · refine Or.inl ⟨e, ?_, ?_⟩
            · rw [hfutures]; rfl
            · rw [hsends]; rfl
          · refine Or.inr ⟨⟨.writeMessagePayload chunk, future.2⟩ :: items, ?_, ?_, ?_⟩
            · rw [hfutures, List.map_cons, hfuture]; rfl
            · rw [hsends]; rfl
            · intro send hsend
              rcases List.mem_cons.mp hsend with rfl | hsend
              · exact ⟨chunk, rfl⟩
              · exact hkinds send hsend

theorem takes_write {rest : EStateM Report World Unit}
    (hrest : TakesCourse (sendRules ctx) phases World.submitted (phase + 1) later rest) :
    TakesCourse (sendRules ctx) phases World.submitted phase
      (writeSends ctx commandId payload :: later) (write ctx commandId payload >>= fun _ => rest) := by
  rcases writeSends_eq ctx commandId payload with
    ⟨e, hfutures, hsends⟩ | ⟨items, hfutures, hsends, hkinds⟩
  · rw [hsends, write, hfutures]
    exact takes_error fun _ => rfl
  · rw [hsends, write, hfutures]
    refine takes_drainSends (fun j => writeFuture j.item) ?_ (fun j hj => ?_) hrest
    · rw [← jobs_map_item phase items, List.map_map, jobs_map_item]
      rfl
    · obtain ⟨chunk, hkind⟩ := hkinds _ (List.mem_of_getElem? (mem_jobs.mp hj).2)
      have hcontext : j.item.kind.context? =
          some ("failed to  write message payload at offset " ++ toString chunk.offset) := by
        rw [hkind]
        rfl
      rw [runSend_some hcontext, sendWrite, writeFuture, hkind]

/-- The three steps of an upload. -/
theorem takes_upload (ctx : Context) : TakesCourse (sendRules ctx) phases World.submitted phase
    (uploadPhases ctx commandId payload) (initializePayload ctx commandId payload >>= fun _ =>
      write ctx commandId payload >>= fun _ => commit ctx commandId) := by
  have hopen : ∀ rest : EStateM Report World Unit,
      (initializePayload ctx commandId payload >>= fun _ => rest) =
        Effect.ofExcept (initializeSend ctx commandId payload) >>= fun i =>
          runSend ctx ⟨.initializeMessagePayload, i⟩ >>= fun _ => rest := by
    intro rest
    rw [initializeSend, ofExcept_bind, initializePayload, bind_assoc, bind_assoc]
    simp only [bind_assoc]
    rfl
  have hcommit : commit ctx commandId =
      Effect.ofExcept (commitSend ctx commandId) >>= fun i =>
        runSend ctx ⟨.commitMessagePayload, i⟩ >>= fun _ => pure () := by
    simp only [bind_pure_unit]
    rfl
  rw [hopen, hcommit]
  exact takes_single (takes_write (takes_single takes_nil))

/-- **A run of `upload` is one of its courses.** -/
theorem upload_course (ctx : Context) (message : Message) (payload : List UInt8) (w : World) :
    ∃ s, Reach (uploadTask ctx (messageToCommandId ctx message) payload) always s ∧
      s.result = some ((resultOf (upload ctx message payload w)).map fun _ => ()) ∧
      (stateOf (upload ctx message payload w)).submitted = w.submitted ++ actions s.trace := by
  obtain ⟨s, hs, hresult, hsubmitted⟩ := (takes_upload ctx).course w
  have hprogram : upload ctx message payload =
      (initializePayload ctx (messageToCommandId ctx message) payload >>= fun _ =>
        write ctx (messageToCommandId ctx message) payload >>= fun _ =>
          commit ctx (messageToCommandId ctx message)) >>= fun _ =>
            pure (messagePayloadPda ctx (messageToCommandId ctx message)) := by
    simp only [bind_assoc]
    rfl
  refine ⟨s, hs, ?_, ?_⟩
  · rw [hprogram, resultOf_bind_pure, hresult]
    generalize resultOf _ = r
    cases r <;> rfl
  · rw [hprogram, stateOf_bind fun _ _ => rfl, hsubmitted]

end AxelarRelayer.Proof
