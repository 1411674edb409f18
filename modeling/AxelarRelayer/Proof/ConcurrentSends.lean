import AxelarRelayer.Task.ConcurrentSends

/-!
# The phases of a task

`gateway_tx_task` and `upload` have three phases each, and what a send is for says
which one it belongs to (`Staged`). So the order of the phases, which the library
states by their numbers, is an order of the kinds of sends.
-/

namespace AxelarRelayer.Proof

open AxelarRelayer AxelarRelayer.Task Effect Phases Runs

/-- The state of a task that sends concurrently. -/
abbrev SendState :=
  Phases.State GatewaySend Submission (Except ComputeBudgetError Signature) Report

variable {ctx : Context} {phases : List (Except Report (List GatewaySend))} {s : SendState}

/-- The phase a send belongs to. -/
def stage : SendKind → Nat
  | .initializeSession | .initializeMessagePayload => 0
  | .verifySignature _ | .writeMessagePayload _ => 1
  | .rotateSigners | .approveMessage _ | .commitMessagePayload => 2

/-- Every send of every phase, with the number of its phase, meets `P`. -/
def EachSend (phases : List (Except Report (List GatewaySend))) (P : Nat → GatewaySend → Prop) :
    Prop :=
  ∀ k items, phases[k]? = some (.ok items) → ∀ send ∈ items, P k send

/-- Every send stands in the phase it belongs to. -/
def Staged (phases : List (Except Report (List GatewaySend))) : Prop :=
  EachSend phases fun k send => stage send.kind = k

/-- The sends of three phases are those of each of them. -/
theorem eachSend_three {P : Nat → GatewaySend → Prop}
    {first second third : Except Report (List GatewaySend)}
    (h₀ : ∀ items, first = .ok items → ∀ send ∈ items, P 0 send)
    (h₁ : ∀ items, second = .ok items → ∀ send ∈ items, P 1 send)
    (h₂ : ∀ items, third = .ok items → ∀ send ∈ items, P 2 send) :
    EachSend [first, second, third] P := by
  intro k items hitems
  match k, hitems with
  | 0, h => exact h₀ items (Option.some.inj h)
  | 1, h => exact h₁ items (Option.some.inj h)
  | 2, h => exact h₂ items (Option.some.inj h)

theorem single_ok {kind : SendKind} {ix : Except Report ParsedIx} {items : List GatewaySend}
    (h : single kind ix = .ok items) : ∃ i, ix = .ok i ∧ items = [⟨kind, i⟩] := by
  cases ix with
  | error e => cases h
  | ok i => exact ⟨i, rfl, (Except.ok.inj h).symm⟩

/-- The one send of a phase meets what its instruction makes it meet. -/
theorem forall_single {kind : SendKind} {ix : Except Report ParsedIx} {P : GatewaySend → Prop}
    (hP : ∀ i, ix = .ok i → P ⟨kind, i⟩) (items : List GatewaySend)
    (h : single kind ix = .ok items) : ∀ send ∈ items, P send := by
  obtain ⟨i, hix, rfl⟩ := single_ok h
  intro send hsend
  rw [List.mem_singleton.mp hsend]
  exact hP i hix

theorem stage_single {kind : SendKind} {ix : Except Report ParsedIx} (items : List GatewaySend)
    (h : single kind ix = .ok items) : ∀ send ∈ items, stage send.kind = stage kind :=
  forall_single (fun _ _ => rfl) items h

/-- **How one send ends**: its outcome, as far as it is not passed over. -/
theorem resultOf_sendGatewayTx (ix : ParsedIx) (w : World) :
    resultOf (sendGatewayTx ctx ix w) = gatewayResult ctx (resultOf (sendTransaction ctx [ix] w)) := by
  rw [sendGatewayTx, run_bind_ok _ (rfl : attempt (sendTransaction ctx [ix]) w = _)]
  cases resultOf (sendTransaction ctx [ix] w) with
  | ok sig => rfl
  | error err =>
      dsimp only [gatewayResult]
      by_cases hproceed : shouldContinue ctx err = true
      · rw [if_pos hproceed, if_pos hproceed]
        rfl
      · rw [if_neg hproceed, if_neg hproceed]
        rfl

/-! ## What is submitted -/

/-- Whatever acts or returns is a send of a phase. -/
theorem EachSend.of_event {P : Nat → GatewaySend → Prop} (hsends : EachSend phases P)
    (h : Reach (Phases.system (sendRules ctx) phases) always s)
    {event : Event GatewaySend Submission (Except ComputeBudgetError Signature)}
    (hev : event ∈ s.trace) : P event.job.phase event.job.item := by
  obtain ⟨items, hitems, hin⟩ := (traceInv_reachable h).known event hev
  exact hsends _ items hitems _ (List.mem_of_getElem? (mem_jobs.mp hin).2)

/-- Behind its compute budget a submitted transaction is the instruction of its send. -/
theorem instructions_of_act (h : Reach (Phases.system (sendRules ctx) phases) always s)
    {send : Job GatewaySend} {sub : Submission} (hact : .act send sub ∈ s.trace) :
    sub.instructions = [send.item.ix] := by
  have hmay := (traceInv_reachable h).allowed send sub hact
  simp only [sendRules, Bool.and_eq_true, decide_eq_true_eq] at hmay
  exact hmay.1.2

/-! ## The order of the kinds -/

theorem stage_eq (hst : Staged phases) (h : Reach (Phases.system (sendRules ctx) phases) always s)
    {event : Event GatewaySend Submission (Except ComputeBudgetError Signature)}
    (hev : event ∈ s.trace) : stage event.job.item.kind = event.job.phase :=
  EachSend.of_event hst h hev

/-- **The barrier**: before a send does anything, all sends of the phases below returned. -/
theorem passed_before (hst : Staged phases)
    (h : Reach (Phases.system (sendRules ctx) phases) always s)
    {event : Event GatewaySend Submission (Except ComputeBudgetError Signature)}
    {pre post : List (Event GatewaySend Submission (Except ComputeBudgetError Signature))}
    (hsplit : s.trace = pre ++ event :: post) {k : Nat} (hk : k < stage event.job.item.kind) :
    Passed (sendRules ctx) phases k pre := by
  have hev : event ∈ s.trace := by rw [hsplit]; exact List.mem_append_right _ List.mem_cons_self
  rw [stage_eq hst h hev] at hk
  exact (traceInv_reachable h).ordered pre event post hsplit k hk

/-- **An error ends the task**, and nothing of a later phase was ever done. -/
theorem stopped_by_error (hst : Staged phases)
    (h : Reach (Phases.system (sendRules ctx) phases) always s) {send : Job GatewaySend}
    {outcome : Except ComputeBudgetError Signature} {e : Report}
    (hret : .ret send outcome ∈ s.trace) (hf : (sendRules ctx).finish send.item outcome = .error e) :
    s.result = some (.error e) ∧
      ∀ event ∈ s.trace, stage event.job.item.kind ≤ stage send.item.kind := by
  obtain ⟨pre, post, hsplit⟩ := List.append_of_mem hret
  obtain ⟨rfl, hres, hphase⟩ := (traceInv_reachable h).failed pre send outcome post e hsplit hf
  refine ⟨hres, fun event hev => ?_⟩
  have hsend : stage send.item.kind = send.phase := stage_eq hst h hret
  rw [stage_eq hst h hev, hsend]
  rw [hsplit] at hev
  rcases List.mem_append.mp hev with hev | hev
  · exact hphase event hev
  · rw [List.mem_singleton.mp hev]
    exact Nat.le_refl _

end AxelarRelayer.Proof
