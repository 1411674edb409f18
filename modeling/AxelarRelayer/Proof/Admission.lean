import AxelarRelayer.Proof.Estimate

/-!
# Admission

Before `execute_task` uploads anything it makes sure that the message is new, that
its destination is accepted and that the gas suffices. None of this lands a
transaction, so what an execution lands it lands from the state in which the message
was admitted (`grows_executeTask_landed`).
-/

namespace AxelarRelayer.Proof

open AxelarRelayer AxelarRelayer.Task Effect

variable {ctx : Context} {task : ExecuteTask} {destinationAddress pda : Pubkey} {w w₁ : World}

theorem incomingMessageAlreadyExecuted_next {executed : Bool} {w₁ : World}
    (h : incomingMessageAlreadyExecuted ctx pda w = .ok executed w₁) : w₁ = w.next ctx.rpc := by
  rw [incomingMessageAlreadyExecuted, ask, bind_assoc,
    run_bind_ok _ (rfl : call ctx.rpc w = _)] at h
  cases hanswer : ctx.rpc.incomingMessage w.tick pda with
  | error text =>
      rw [hanswer] at h
      cases h
  | ok answer =>
      rw [hanswer] at h
      cases answer <;> cases h
      rfl

/-- `execute_task` for a message that is new and whose destination is accepted. -/
theorem executeTask_admitted {w₁ : World}
    (hexecuted : incomingMessageAlreadyExecuted ctx (ctx.sdk.getIncomingMessagePda
      (messageToCommandId ctx (composeMessage ctx task))) w = .ok false w₁)
    (hparsed : ctx.sdk.parsePubkey task.message.destinationAddress = .ok destinationAddress)
    (hverified : verifyDestination ctx destinationAddress = .ok ()) :
    executeTask ctx task w = (ensureEnoughGas ctx (composeMessage ctx task) task.payload
      destinationAddress (ctx.sdk.getIncomingMessagePda
        (messageToCommandId ctx (composeMessage ctx task))) task.availableGasBalance.amount >>=
      fun _ => uploadAndExecute ctx (composeMessage ctx task) task.payload destinationAddress
        (ctx.sdk.getIncomingMessagePda (messageToCommandId ctx (composeMessage ctx task)))) w₁ := by
  have hparse : (Effect.ofExcept (context "Failed to parse destination address"
      ((ctx.sdk.parsePubkey (composeMessage ctx task).destinationAddress).mapError Report.msg)) :
      EStateM Report World Pubkey) w₁ = .ok destinationAddress w₁ := by
    have hsame : (composeMessage ctx task).destinationAddress = task.message.destinationAddress := rfl
    rw [hsame, hparsed]
    rfl
  have hverify : (Effect.ofExcept (verifyDestination ctx destinationAddress) :
      EStateM Report World Unit) w₁ = .ok () w₁ := by
    rw [hverified]
    rfl
  -- the three checks, one after the other
  rw [executeTask]
  refine (run_bind_ok _ hexecuted).trans ?_
  refine (run_bind_ok _ hparse).trans ?_
  exact run_bind_ok _ hverify

/-- The message passes every check before the upload, which then starts in `w₁`. -/
def Admitted (ctx : Context) (task : ExecuteTask) (w : World) (destinationAddress : Pubkey)
    (w₁ : World) : Prop :=
  let message := composeMessage ctx task
  let pda := ctx.sdk.getIncomingMessagePda (messageToCommandId ctx message)
  ∃ w₀, incomingMessageAlreadyExecuted ctx pda w = .ok false w₀ ∧
    ctx.sdk.parsePubkey task.message.destinationAddress = .ok destinationAddress ∧
    verifyDestination ctx destinationAddress = .ok () ∧
    ensureEnoughGas ctx message task.payload destinationAddress pda
      task.availableGasBalance.amount w₀ = .ok () w₁

theorem Admitted.run (h : Admitted ctx task w destinationAddress w₁) :
    executeTask ctx task w = uploadAndExecute ctx (composeMessage ctx task) task.payload
      destinationAddress (ctx.sdk.getIncomingMessagePda
        (messageToCommandId ctx (composeMessage ctx task))) w₁ := by
  obtain ⟨w₀, hexecuted, hparsed, hverified, hgas⟩ := h
  rw [executeTask_admitted hexecuted hparsed hverified, run_bind_ok _ hgas]

theorem reads_incomingMessageAlreadyExecuted :
    Reads World.landed (incomingMessageAlreadyExecuted ctx pda) fun _ => True := by
  refine Reads.bind (P := fun _ => True) (reads_ask fun _ _ _ => trivial) fun answer _ => ?_
  cases answer with
  | none => exact reads_throw _
  | some isExecuted => exact reads_pure trivial

/-- Nothing lands on the way to admission. -/
theorem Admitted.landed (h : Admitted ctx task w destinationAddress w₁) : w₁.landed = w.landed := by
  obtain ⟨w₀, hexecuted, -, -, hgas⟩ := h
  rw [incomingMessageAlreadyExecuted_next hexecuted] at hgas
  obtain ⟨new, hnew, hnil, -⟩ := ensureEnoughGas_landed _ _ (w.next ctx.rpc)
  rw [hnil, List.append_nil, hgas] at hnew
  exact hnew

/-- **The rule for executions**: what lands, lands after admission. -/
theorem grows_executeTask_landed {P : TxStatus → Prop}
    (h : ∀ destinationAddress w₁, Admitted ctx task w destinationAddress w₁ →
      Grows World.landed P w₁ (stateOf (uploadAndExecute ctx (composeMessage ctx task) task.payload
        destinationAddress (ctx.sdk.getIncomingMessagePda
          (messageToCommandId ctx (composeMessage ctx task))) w₁))) :
    Grows World.landed P w (stateOf (executeTask ctx task w)) := by
  refine Grows.bind (reads_incomingMessageAlreadyExecuted.grows w) fun executed w₀ hexecuted => ?_
  cases executed with
  | true => exact Grows.refl
  | false =>
      refine Grows.bind (Reads.grows (V := fun _ => True) (reads_ofExcept fun _ _ => trivial) w₀)
        fun destinationAddress w' hparse => ?_
      obtain ⟨hparsed, rfl⟩ := ofExcept_eq_ok hparse
      have hparsed := mapError_eq_ok (context_ok hparsed)
      refine Grows.bind (Reads.grows (V := fun _ => True) (reads_ofExcept fun _ _ => trivial) w')
        fun u w'' hverify => ?_
      obtain ⟨hverified, rfl⟩ := ofExcept_eq_ok hverify
      -- every check has passed and nothing has landed so far
      exact Grows.bind ((ensureEnoughGas_landed _ _).grows w'') fun _ w₁ hgas =>
        h destinationAddress w₁ ⟨w'', hexecuted, hparsed, hverified, hgas⟩

end AxelarRelayer.Proof
