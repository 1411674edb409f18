import AxelarRelayer.Proof.ConcurrentSends
import AxelarRelayer.Proof.Network

/-!
# Recoverable gateway errors

An error which means that the work is already done may come from the simulation or
from the chain, depending on which of two competing transactions is first and by
how much. `send_gateway_tx` passes over the first and hands on the second.

`recovers_iff`: the law holds for a send exactly when the node does not answer the
transaction itself with such an error.
-/

namespace AxelarRelayer.Proof

open AxelarRelayer AxelarRelayer.Task Effect

variable {ctx : Context} {ix : ParsedIx} {w w₁ : World} {err : TransactionError}
  {sender : EffectiveTxSender Evaluated}

/-- A gateway error after which the relayer should proceed. -/
def Recoverable (ctx : Context) (err : TransactionError) : Prop :=
  ∃ index code, err = .instructionError index (.custom code) ∧
    ctx.sdk.shouldRelayerProceed code = true

/-- The transaction is sent, the node answers that it was confirmed, and the chain holds it. -/
def IsConfirmed (ctx : Context) (ix : ParsedIx) (w : World) : Prop :=
  ∃ sender w₁ receipt, evaluateComputeIxs ctx ⟨[ix]⟩ w = .ok sender w₁ ∧
    ctx.rpc.sendAndConfirmTransaction w₁.tick sender.ixs = .confirmed receipt ∧
    ((w₁.next ctx.rpc).chain.confirm?
      (confirmedStatus ctx w₁.tick sender.ixs receipt none)).isSome = true

/-- The simulation before the send runs into an error. -/
def FailsInSimulation (ctx : Context) (ix : ParsedIx) (w : World) (err : TransactionError) : Prop :=
  ∃ result w₁, evaluateComputeIxs ctx ⟨[ix]⟩ w = .error (.simulationError result) w₁ ∧
    result.err = some err

/-- The send itself runs into an error. -/
def FailsInSending (ctx : Context) (ix : ParsedIx) (w : World) (err : TransactionError) : Prop :=
  ∃ sender w₁ receipt landed error, evaluateComputeIxs ctx ⟨[ix]⟩ w = .ok sender w₁ ∧
    ctx.rpc.sendAndConfirmTransaction w₁.tick sender.ixs = .failed receipt landed error ∧
    error.transactionError = some err

/-- The law for one send: a recoverable error is recoverable wherever it surfaces. -/
def Recovers (ctx : Context) (ix : ParsedIx) (w : World) : Prop :=
  resultOf (sendGatewayTx ctx ix w) = .ok () ↔
    IsConfirmed ctx ix w ∨
      ∃ err, Recoverable ctx err ∧ (FailsInSimulation ctx ix w err ∨ FailsInSending ctx ix w err)

/-! ## How a send ends -/

theorem sendTransaction_evaluated (h : evaluateComputeIxs ctx ⟨[ix]⟩ w = .ok sender w₁) :
    sendTransaction ctx [ix] w = sendTx ctx sender w₁ := by
  rw [sendTransaction, run_bind_ok _ h]

theorem sendTransaction_unevaluated {error : ComputeBudgetError}
    (h : evaluateComputeIxs ctx ⟨[ix]⟩ w = .error error w₁) :
    resultOf (sendTransaction ctx [ix] w) = .error error := by
  rw [sendTransaction, run_bind_error _ h, resultOf_error]

theorem resultOf_sendTx_confirmed {receipt : Receipt}
    (h : ctx.rpc.sendAndConfirmTransaction w₁.tick sender.ixs = .confirmed receipt) :
    resultOf (sendTx ctx sender w₁) =
      if ((w₁.next ctx.rpc).chain.confirm?
        (confirmedStatus ctx w₁.tick sender.ixs receipt none)).isSome = true
      then .ok receipt.signature else .error (.generic "unable to confirm transaction") := by
  rw [sendTx, run_bind_ok _ (rfl : call ctx.rpc w₁ = _), h]
  dsimp only
  -- `confirmOnChain` answers whether the chain took the transaction
  cases hchain : (w₁.next ctx.rpc).chain.confirm?
      (confirmedStatus ctx w₁.tick sender.ixs receipt none) with
  | none =>
      have hrun : ∃ w', (confirmOnChain sender.ixs (confirmedStatus ctx w₁.tick sender.ixs receipt
          none) : EStateM ComputeBudgetError World Bool) (w₁.next ctx.rpc) = .ok false w' := by
        unfold confirmOnChain
        split
        · rename_i chain hsome
          rw [hchain] at hsome
          cases hsome
        · exact ⟨_, rfl⟩
      obtain ⟨w', hrun⟩ := hrun
      rw [run_bind_ok _ hrun]
      rfl
  | some chain =>
      have hrun : ∃ w', (confirmOnChain sender.ixs (confirmedStatus ctx w₁.tick sender.ixs receipt
          none) : EStateM ComputeBudgetError World Bool) (w₁.next ctx.rpc) = .ok true w' := by
        unfold confirmOnChain
        split
        · exact ⟨_, rfl⟩
        · rename_i hnone
          rw [hchain] at hnone
          cases hnone
      obtain ⟨w', hrun⟩ := hrun
      rw [run_bind_ok _ hrun]
      rfl

theorem resultOf_sendTx_failed {receipt : Receipt} {landed : Option (Option TransactionError)}
    {error : ClientError}
    (h : ctx.rpc.sendAndConfirmTransaction w₁.tick sender.ixs = .failed receipt landed error) :
    resultOf (sendTx ctx sender w₁) = .error (sendError receipt.signature error) := by
  have hsettle : ∀ w : World, ∃ w', (settle ctx w₁.tick sender.ixs receipt landed :
      EStateM ComputeBudgetError World Unit) w = .ok () w' := by
    intro w
    have hok : resultOf ((settle ctx w₁.tick sender.ixs receipt landed :
        EStateM ComputeBudgetError World Unit) w) = .ok () := by
      cases landed with
      | none => rfl
      | some status =>
          rw [settle, resultOf_ignore]
          unfold confirmOnChain
          split <;> rfl
    exact ⟨_, run_eq_ok hok⟩
  obtain ⟨w', hrun⟩ := hsettle (w₁.next ctx.rpc)
  rw [sendTx, run_bind_ok _ (rfl : call ctx.rpc w₁ = _), h]
  dsimp only
  rw [run_bind_ok _ hrun]
  rfl

/-- Which simulation errors are passed over. -/
theorem shouldContinue_iff {error : ComputeBudgetError} :
    shouldContinue ctx error = true ↔
      ∃ result err, error = .simulationError result ∧ result.err = some err ∧
        Recoverable ctx err := by
  constructor
  · intro h
    obtain ⟨result, rfl⟩ := simulationError_of_shouldContinue h
    unfold shouldContinue at h
    dsimp only at h
    split at h
    · rename_i index code herr
      exact ⟨result, _, rfl, herr, index, code, rfl, h⟩
    · cases h
  · rintro ⟨result, err, rfl, herr, index, code, rfl, hcode⟩
    simp only [shouldContinue, herr, hcode]

theorem gatewayResult_ok_iff {outcome : Except ComputeBudgetError Signature} :
    gatewayResult ctx outcome = .ok () ↔
      (∃ sig, outcome = .ok sig) ∨ ∃ result err, outcome = .error (.simulationError result) ∧
        result.err = some err ∧ Recoverable ctx err := by
  cases outcome with
  | ok sig => exact ⟨fun _ => Or.inl ⟨sig, rfl⟩, fun _ => rfl⟩
  | error error =>
      dsimp only [gatewayResult]
      by_cases hproceed : shouldContinue ctx error = true
      · -- recovered from
        rw [if_pos hproceed]
        obtain ⟨result, err, rfl, herr, hrec⟩ := shouldContinue_iff.mp hproceed
        exact ⟨fun _ => Or.inr ⟨result, err, rfl, herr, hrec⟩, fun _ => rfl⟩
      · rw [if_neg hproceed]
        constructor
        · intro h
          cases h
        · rintro (⟨sig, h⟩ | ⟨result, err, h, herr, hrec⟩)
          · cases h
          · cases h
            exact absurd (shouldContinue_iff.mpr ⟨result, err, rfl, herr, hrec⟩) hproceed

/-! ## The law -/

/-- **When `send_gateway_tx` succeeds.** -/
theorem sendGatewayTx_ok_iff :
    resultOf (sendGatewayTx ctx ix w) = .ok () ↔
      IsConfirmed ctx ix w ∨ ∃ err, Recoverable ctx err ∧ FailsInSimulation ctx ix w err := by
  rw [resultOf_sendGatewayTx, gatewayResult_ok_iff]
  cases heval : evaluateComputeIxs ctx ⟨[ix]⟩ w with
  | error error w₁ =>
      -- the evaluation failed: only a simulation error can be recovered from
      rw [sendTransaction_unevaluated heval]
      constructor
      · rintro (⟨sig, h⟩ | ⟨result, err, h, herr, hrec⟩)
        · cases h
        · cases h
          exact Or.inr ⟨err, hrec, result, w₁, heval, herr⟩
      · rintro (⟨sender, w', receipt, h, -⟩ | ⟨err, hrec, result, w', h, herr⟩)
        · rw [heval] at h
          cases h
        · rw [heval] at h
          cases h
          exact Or.inr ⟨result, err, rfl, herr, hrec⟩
  | ok sender w₁ =>
      rw [sendTransaction_evaluated heval]
      cases hsend : ctx.rpc.sendAndConfirmTransaction w₁.tick sender.ixs with
      | confirmed receipt =>
          -- the node reports a confirmation, which the chain may still refuse
          rw [resultOf_sendTx_confirmed hsend]
          by_cases hchain : ((w₁.next ctx.rpc).chain.confirm?
              (confirmedStatus ctx w₁.tick sender.ixs receipt none)).isSome = true
          · rw [if_pos hchain]
            exact ⟨fun _ => Or.inl ⟨sender, w₁, receipt, heval, hsend, hchain⟩,
              fun _ => Or.inl ⟨_, rfl⟩⟩
          · rw [if_neg hchain]
            constructor
            · rintro (⟨sig, h⟩ | ⟨result, err, h, -⟩) <;> cases h
            · rintro (⟨sender', w', receipt', h, hsend', hchain'⟩ | ⟨err, hrec, result, w', h, -⟩)
              · rw [heval] at h
                cases h
                rw [hsend] at hsend'
                cases hsend'
                exact absurd hchain' hchain
              · rw [heval] at h
                cases h
      | failed receipt landed error =>
          -- an error of the send itself is never a simulation error
          rw [resultOf_sendTx_failed hsend]
          constructor
          · rintro (⟨sig, h⟩ | ⟨result, err, h, -⟩)
            · cases h
            · simp only [sendError] at h
              split at h <;> cases h
          · rintro (⟨sender', w', receipt', h, hsend', -⟩ | ⟨err, hrec, result, w', h, -⟩)
            · rw [heval] at h
              cases h
              rw [hsend] at hsend'
              cases hsend'
            · rw [heval] at h
              cases h

/-- A send that fails on its own neither was confirmed nor failed in the simulation. -/
theorem not_ok_of_failsInSending (h : FailsInSending ctx ix w err) :
    resultOf (sendGatewayTx ctx ix w) ≠ .ok () := by
  obtain ⟨sender, w₁, receipt, landed, error, heval, hsend, -⟩ := h
  intro hok
  rcases sendGatewayTx_ok_iff.mp hok with ⟨sender', w', receipt', h, hsend', -⟩ |
    ⟨err', -, result, w', h, -⟩
  · rw [heval] at h
    cases h
    rw [hsend] at hsend'
    cases hsend'
  · rw [heval] at h
    cases h

/--
**When a recoverable error is recoverable wherever it surfaces.** Exactly when the
send itself, once its simulation has passed, is not answered with such an error.
-/
theorem recovers_iff (ctx : Context) (ix : ParsedIx) (w : World) :
    Recovers ctx ix w ↔ ∀ err, FailsInSending ctx ix w err → ¬ Recoverable ctx err := by
  constructor
  · intro hlaw err hsend hrec
    exact not_ok_of_failsInSending hsend (hlaw.mpr (Or.inr ⟨err, hrec, Or.inr hsend⟩))
  · intro hnone
    rw [Recovers, sendGatewayTx_ok_iff]
    constructor
    · rintro (h | ⟨err, hrec, hsim⟩)
      · exact Or.inl h
      · exact Or.inr ⟨err, hrec, Or.inl hsim⟩
    · rintro (h | ⟨err, hrec, hsim | hsend⟩)
      · exact Or.inl h
      · exact Or.inr ⟨err, hrec, hsim⟩
      · exact absurd hrec (hnone err hsend)

/-- Another relayer's transaction lands between the simulation and the send. -/
def overtaken (t : Nat) (_ : List ParsedIx) : SendOutcome :=
  .failed (receiptAt t) none ⟨"preflight failed", some (.instructionError 2 (.custom 7))⟩

/-- Crates for which the code 7 says that the work is already done. -/
def overtakenContext : Context :=
  { steadyContext overtaken [] with
    sdk := { taggedSdk with shouldRelayerProceed := fun code => code == 7 } }

/-- **The law fails**: the transaction that was overtaken is an irrecoverable error. -/
theorem overtaken_irrecoverable :
    ¬ Recovers overtakenContext ⟨.filled 1, [.filled 9], [5]⟩ (World.start .empty) := by
  intro hlaw
  have hrec : Recoverable overtakenContext (.instructionError 2 (.custom 7)) :=
    ⟨2, 7, rfl, rfl⟩
  cases heval : evaluateComputeIxs overtakenContext ⟨[⟨.filled 1, [.filled 9], [5]⟩]⟩
      (World.start .empty) with
  | ok sender w₁ =>
      have hsend : FailsInSending overtakenContext ⟨.filled 1, [.filled 9], [5]⟩
          (World.start .empty) (.instructionError 2 (.custom 7)) :=
        ⟨sender, w₁, _, _, _, heval, rfl, rfl⟩
      exact not_ok_of_failsInSending hsend (hlaw.mpr (Or.inr ⟨_, hrec, Or.inr hsend⟩))
  | error error w₁ =>
      have hok : (resultOf (evaluateComputeIxs overtakenContext
          ⟨[⟨.filled 1, [.filled 9], [5]⟩]⟩ (World.start .empty))).isOk = true := by
        decide +kernel
      rw [heval] at hok
      cases hok

end AxelarRelayer.Proof
