import AxelarRelayer.Proof.Network

/-!
# What is reported about a failed execution

A failed `execute_task` ends in one event, unless the error branch fails itself.
Every secondary failure in it is caught, with one exception: a transaction that
came back with an error is fetched first, and an error of that fetch is handed on
(`failureEvent_error`). A transaction that was refused before it ever reached the
chain can never be fetched. Where the gas check panics nothing is returned at all.

`reported_iff`: the law holds exactly when this fetch does not fail.
-/

namespace AxelarRelayer.Proof

open AxelarRelayer AxelarRelayer.Task Effect

variable {ctx : Context} {id : TaskItemId} {task : ExecuteTask} {w : World} {error : Report}
  {source : TransactionError} {signature : Signature}

/-- The event says that the message was not executed. -/
def ReportsFailure (task : ExecuteTask) : Event → Prop
  | .messageExecuted _ messageId sourceChain status _ _ =>
      messageId = task.message.messageId ∧ sourceChain = task.message.sourceChain ∧
        status = .reverted
  | .cannotExecuteMessageV2 _ _ messageId sourceChain _ _ =>
      messageId = task.message.messageId ∧ sourceChain = task.message.sourceChain

/-- `fetch_transaction` fails for this signature. -/
def Unfetchable (ctx : Context) (signature : Signature) (w : World) : Prop :=
  ctx.rpc.fetchTransactionError w.tick signature ≠ none ∨
    (w.next ctx.rpc).chain.status? signature = none

/-! ## The fetch -/

theorem call_run (w : World) :
    (call ctx.rpc : EStateM Report World Nat) w = .ok w.tick (w.next ctx.rpc) := rfl

theorem get_run (w : World) : (get : EStateM Report World World) w = .ok w w := rfl

theorem fetchTransaction_error (h : Unfetchable ctx signature w) :
    ∃ e, fetchTransaction ctx signature w = .error e (w.next ctx.rpc) := by
  rw [fetchTransaction, run_bind_ok _ (call_run w), run_bind_ok _ (get_run _)]
  cases hf : ctx.rpc.fetchTransactionError w.tick signature with
  | some text => exact ⟨_, rfl⟩
  | none =>
      rcases h with h | h
      · exact absurd hf h
      · rw [h]
        exact ⟨_, rfl⟩

theorem fetchTransaction_ok (h : ¬ Unfetchable ctx signature w) :
    ∃ st, fetchTransaction ctx signature w = .ok st (w.next ctx.rpc) ∧
      (w.next ctx.rpc).chain.status? signature = some st := by
  simp only [Unfetchable, not_or, not_not] at h
  obtain ⟨hf, hs⟩ := h
  obtain ⟨st, hst⟩ := Option.ne_none_iff_exists'.mp hs
  refine ⟨st, ?_, hst⟩
  rw [fetchTransaction, run_bind_ok _ (call_run w), run_bind_ok _ (get_run _), hf, hst]
  rfl

/-! ## The error branch -/

/-- What the event for a fetched transaction charges. -/
def reportedFee (ctx : Context) (tx : SolanaTransaction) (w : World) : Nat :=
  (Gas.computeTotalGas ctx.sdk.codec ctx.sdk.gatewayId tx fun i =>
    ctx.rpc.lookup w.tick i (w.next ctx.rpc).chain).toOption.getD tx.costInLamports

theorem computeTotalGas_run (tx : SolanaTransaction) (w : World) :
    resultOf (computeTotalGas ctx tx w) = Gas.computeTotalGas ctx.sdk.codec ctx.sdk.gatewayId tx
        (fun i => ctx.rpc.lookup w.tick i (w.next ctx.rpc).chain) ∧
      stateOf (computeTotalGas ctx tx w) = w.next ctx.rpc := by
  change resultOf (Effect.ofExcept (Gas.computeTotalGas ctx.sdk.codec ctx.sdk.gatewayId tx
      fun i => ctx.rpc.lookup w.tick i (w.next ctx.rpc).chain) (w.next ctx.rpc)) = _ ∧
    stateOf (Effect.ofExcept (Gas.computeTotalGas ctx.sdk.codec ctx.sdk.gatewayId tx
      fun i => ctx.rpc.lookup w.tick i (w.next ctx.rpc).chain) (w.next ctx.rpc)) = _
  cases Gas.computeTotalGas ctx.sdk.codec ctx.sdk.gatewayId tx
    fun i => ctx.rpc.lookup w.tick i (w.next ctx.rpc).chain <;> exact ⟨rfl, rfl⟩

/-- **A fetched transaction is reported**, whether its costing works or not. -/
theorem revertedEvent_run {st : TxStatus} {w₁ : World}
    (h : fetchTransaction ctx signature w = .ok st w₁) :
    revertedEvent ctx task signature w = .ok (messageExecutedEvent
      (ctx.sdk.showSignature signature) task.message.sourceChain task.message.messageId .reverted
      st.tx.timestamp ⟨none, reportedFee ctx st.tx w₁⟩) (w₁.next ctx.rpc) := by
  rw [revertedEvent, run_bind_ok _ h, run_bind_ok _ (rfl : attempt _ w₁ = _),
    (computeTotalGas_run st.tx w₁).2, (computeTotalGas_run st.tx w₁).1]
  rfl

theorem unexecutedEvent_run (error : Report) (w : World) :
    ∃ event w', unexecutedEvent ctx id task error w = .ok event w' ∧ ReportsFailure task event := by
  rw [unexecutedEvent, run_bind_ok _ (rfl : attempt _ w = _)]
  cases resultOf (costOfPayloadUploading ctx (messagePayloadPda ctx
      (ctx.sdk.commandId task.message.sourceChain task.message.messageId)) w) with
  | error e => exact ⟨_, _, rfl, rfl, rfl⟩
  | ok fee =>
      dsimp only
      by_cases hfee : fee > 0
      · rw [if_pos hfee]
        exact ⟨_, _, rfl, rfl, rfl, rfl⟩
      · rw [if_neg hfee]
        exact ⟨_, _, rfl, rfl, rfl⟩

/-- Any error but a transaction error ends in an event. -/
theorem failureEvent_other
    (h : ∀ source signature, error.computeBudgetError? ≠ some (.transactionError source signature))
    (w : World) :
    ∃ event w', failureEvent ctx id task error w = .ok event w' ∧ ReportsFailure task event := by
  -- without a transaction error the first branch is out
  have hother : failureEvent ctx id task error =
      if error.isInsufficientGasBalance then
        pure (cannotExecuteMessageEvent id task.message.sourceChain task.message.messageId
          .insufficientGas error.toText)
      else unexecutedEvent ctx id task error := by
    rw [failureEvent]
    cases hcb : error.computeBudgetError? with
    | none => rfl
    | some e =>
        cases e with
        | transactionError source signature => exact absurd hcb (h source signature)
        | simulationError result => rfl
        | generic message => rfl
  rw [hother]
  by_cases hgas : error.isInsufficientGasBalance = true
  · rw [if_pos hgas]
    exact ⟨_, _, rfl, rfl, rfl⟩
  · rw [if_neg hgas]
    exact unexecutedEvent_run error w

theorem failureEvent_transactionError
    (h : error.computeBudgetError? = some (.transactionError source signature)) :
    failureEvent ctx id task error = revertedEvent ctx task signature := by
  rw [failureEvent, h]

/-- **The one failure of the error branch.** -/
theorem failureEvent_error (id : TaskItemId) (task : ExecuteTask)
    (h : error.computeBudgetError? = some (.transactionError source signature))
    (hfetch : Unfetchable ctx signature w) :
    ∃ e w', failureEvent ctx id task error w = .error e w' := by
  obtain ⟨e, he⟩ := fetchTransaction_error hfetch
  rw [failureEvent_transactionError h, revertedEvent]
  exact ⟨e, _, run_bind_error _ he⟩

/-! ## `process_task` -/

theorem processTask_ok {r : Relayer} {u : Unit} {w' : World}
    (h : executeTask ctx task r.world = .ok u w') :
    processTask ctx ⟨id, .execute task⟩ r = .ok () ⟨w', r.published⟩ := by
  have hrun : attempt (onWorld (executeTask ctx task)) r =
      (.ok (.ok u) ⟨w', r.published⟩ : EStateM.Result Report Relayer _) := by
    simp only [attempt, onWorld, h, resultOf_ok, stateOf_ok]
  change processExecuteTask ctx id task r = _
  rw [processExecuteTask, run_bind_ok _ hrun]
  rfl

theorem processTask_error {r : Relayer} {w' : World} (hreturned : error ≠ .panicked)
    (h : executeTask ctx task r.world = .error error w') :
    processTask ctx ⟨id, .execute task⟩ r =
      (onWorld (failureEvent ctx id task error) >>= publish ctx) ⟨w', r.published⟩ := by
  have hrun : attempt (onWorld (executeTask ctx task)) r =
      (.ok (.error error) ⟨w', r.published⟩ : EStateM.Result Report Relayer _) := by
    simp only [attempt, onWorld, h, resultOf_error, stateOf_error]
  change processExecuteTask ctx id task r = _
  rw [processExecuteTask, run_bind_ok _ hrun]
  dsimp only
  rw [if_neg hreturned]

/-- A panic is the end of it. -/
theorem processTask_panicked {r : Relayer} {w' : World}
    (h : executeTask ctx task r.world = .error .panicked w') :
    processTask ctx ⟨id, .execute task⟩ r = .error .panicked ⟨w', r.published⟩ := by
  have hrun : attempt (onWorld (executeTask ctx task)) r =
      (.ok (.error .panicked) ⟨w', r.published⟩ : EStateM.Result Report Relayer _) := by
    simp only [attempt, onWorld, h, resultOf_error, stateOf_error]
  change processExecuteTask ctx id task r = _
  rw [processExecuteTask, run_bind_ok _ hrun]
  dsimp only
  rw [if_pos rfl]
  rfl

/-- An event that was made is published, if the channel is open. -/
theorem processTask_event {r : Relayer} {w' w'' : World} {event : Event}
    (hreturned : error ≠ .panicked) (h : executeTask ctx task r.world = .error error w')
    (hevent : failureEvent ctx id task error w' = .ok event w'')
    (hopen : ∀ t, ctx.rpc.amplifierSend t = .ok ()) :
    processTask ctx ⟨id, .execute task⟩ r = .ok () ⟨w'', r.published ++ [event]⟩ := by
  have hrun : onWorld (failureEvent ctx id task error) ⟨w', r.published⟩ =
      .ok event ⟨w'', r.published⟩ := by
    simp only [onWorld, hevent]
  rw [processTask_error hreturned h, run_bind_ok _ hrun]
  simp only [publish, hopen]

/-! ## The law -/

/--
The law for one `ExecuteTask`: if the execution succeeds nothing is published, and
if it returns an error exactly one event that says so. A panic does not return.
-/
def NoSilentFailure (ctx : Context) (id : TaskItemId) (task : ExecuteTask) (r : Relayer) : Prop :=
  (∀ w, executeTask ctx task r.world = .ok () w →
    (stateOf (processTask ctx ⟨id, .execute task⟩ r)).published = r.published) ∧
  ∀ error w, executeTask ctx task r.world = .error error w → error ≠ .panicked →
    ∃ event, (stateOf (processTask ctx ⟨id, .execute task⟩ r)).published = r.published ++ [event] ∧
      ReportsFailure task event

/--
**When no failure is silent.** With the channel open, exactly when the transaction
whose error `execute_task` hands back, if that is how it failed, can be fetched.
-/
theorem reported_iff (ctx : Context) (id : TaskItemId) (task : ExecuteTask) (r : Relayer)
    (hopen : ∀ t, ctx.rpc.amplifierSend t = .ok ()) :
    NoSilentFailure ctx id task r ↔
      ∀ error w source signature, executeTask ctx task r.world = .error error w →
        error.computeBudgetError? = some (.transactionError source signature) →
        ¬ Unfetchable ctx signature w := by
  constructor
  · intro hlaw error w source signature hrun herr hfetch
    have hreturned : error ≠ .panicked := by
      rintro rfl
      cases herr
    obtain ⟨event, hpub, -⟩ := hlaw.2 error w hrun hreturned
    obtain ⟨e, w', he⟩ := failureEvent_error id task herr hfetch
    -- the transaction cannot be fetched: `?` leaves `process_task` before the event
    have hfail : onWorld (failureEvent ctx id task error) ⟨w, r.published⟩ =
        .error e ⟨w', r.published⟩ := by
      simp only [onWorld, he]
    rw [processTask_error hreturned hrun, run_bind_error _ hfail, stateOf_error] at hpub
    have := congrArg List.length hpub
    simp only [List.length_append, List.length_singleton] at this
    omega
  · intro hcond
    refine ⟨fun w hrun => by rw [processTask_ok hrun, stateOf_ok], fun error w hrun hreturned => ?_⟩
    -- otherwise every branch makes an event
    have hevent : ∃ event w', failureEvent ctx id task error w = .ok event w' ∧
        ReportsFailure task event := by
      by_cases herr : ∃ source signature,
          error.computeBudgetError? = some (.transactionError source signature)
      · obtain ⟨source, signature, herr⟩ := herr
        obtain ⟨st, hst, -⟩ := fetchTransaction_ok (hcond error w source signature hrun herr)
        rw [failureEvent_transactionError herr, revertedEvent_run hst]
        exact ⟨_, _, rfl, rfl, rfl, rfl⟩
      · exact failureEvent_other (fun source signature h => herr ⟨source, signature, h⟩) w
    obtain ⟨event, w', hev, hreports⟩ := hevent
    exact ⟨event, by rw [processTask_event hreturned hrun hev hopen, stateOf_ok], hreports⟩

/-! ## Two failures -/

/-- Nodes on which the transactions with an instruction of this tag land and fail. -/
def failsAt (tag : UInt8) (t : Nat) (ixs : List ParsedIx) : SendOutcome :=
  let error := TransactionError.instructionError 2 (.custom 1)
  if ixs.any fun ix => ix.data.head? == some tag then
    .failed (receiptAt t) (some (some error)) ⟨"custom program error: 0x1", some error⟩
  else .confirmed (receiptAt t)

/-- The error of an execution whose call lands and fails. -/
def callFailure : Report :=
  .computeBudget (.transactionError (.instructionError 2 (.custom 1)) (receiptAt 44).signature)

/-- A call that fails on chain can be fetched, and is reported. -/
theorem failedCall_reported :
    resultOf (executeTask (steadyContext (failsAt 97) []) (greeting 100000) freshRelayer.world) =
      .error callFailure ∧
    NoSilentFailure (steadyContext (failsAt 97) []) ⟨1⟩ (greeting 100000) freshRelayer := by
  have hfails : resultOf (executeTask (steadyContext (failsAt 97) []) (greeting 100000)
      freshRelayer.world) = .error callFailure := by decide +kernel
  have hlanded : ((stateOf (executeTask (steadyContext (failsAt 97) []) (greeting 100000)
      freshRelayer.world)).chain.status? (receiptAt 44).signature).isSome = true := by
    decide +kernel
  refine ⟨hfails, (reported_iff _ _ _ _ fun _ => rfl).mpr ?_⟩
  intro error w source signature hrun herr hfetch
  rw [hrun] at hfails hlanded
  obtain rfl := Except.error.inj hfails
  -- the signature is that of the call, which stands on the chain
  simp only [callFailure, Report.computeBudgetError?_computeBudget, Option.some.injEq,
    ComputeBudgetError.transactionError.injEq] at herr
  obtain ⟨-, rfl⟩ := herr
  rcases hfetch with hrpc | hmissing
  · exact hrpc rfl
  · have hnone : w.chain.status? (receiptAt 44).signature = none := hmissing
    rw [stateOf_error, hnone] at hlanded
    cases hlanded

/-- The network refuses every transaction before it reaches the chain. -/
def refused (t : Nat) (_ : List ParsedIx) : SendOutcome :=
  .failed (receiptAt t) none ⟨"preflight failed", some (.other "Blockhash not found")⟩

/-- **The law fails**: a refused transaction cannot be fetched, and nothing is published. -/
theorem refused_unreported : ¬ ∀ (ctx : Context) (id : TaskItemId) (task : ExecuteTask)
    (r : Relayer), (∀ t, ctx.rpc.amplifierSend t = .ok ()) → NoSilentFailure ctx id task r := by
  intro hall
  have hlaw := (hall (steadyContext refused []) ⟨1⟩ (greeting 100000) freshRelayer fun _ => rfl).2
  have hfails : resultOf (executeTask (steadyContext refused []) (greeting 100000)
      freshRelayer.world) ≠ .ok () := by decide +kernel
  have hreturned : resultOf (executeTask (steadyContext refused []) (greeting 100000)
      freshRelayer.world) ≠ .error .panicked := by decide +kernel
  cases hrun : executeTask (steadyContext refused []) (greeting 100000) freshRelayer.world with
  | ok u w =>
      rw [hrun] at hfails
      exact hfails rfl
  | error error w =>
      rw [hrun] at hreturned
      obtain ⟨event, hpub, -⟩ := hlaw error w hrun fun herror => hreturned (congrArg _ herror)
      have hnone : (stateOf (processTask (steadyContext refused [])
          ⟨⟨1⟩, .execute (greeting 100000)⟩ freshRelayer)).published = [] := by decide +kernel
      rw [hnone] at hpub
      exact absurd hpub (by simp)

end AxelarRelayer.Proof
