import AxelarRelayer.Task.RetryingHttpSender

/-!
# Retried transaction failures

A preflight failure is an RPC error, and an RPC error is worth another request; so a
transaction that fails in the preflight is sent again until the time is up, although
`send_tx` takes the error for what it is, the failure of the transaction. The two
layers agree on every other error.

`stops_at_first_iff` is the exact condition on the course of the requests.
-/

namespace AxelarRelayer.Proof

open AxelarRelayer AxelarRelayer.Task AxelarRelayer.Http Retry

variable {Value : Type} {outcome : Except Http.ClientError Value}

/-- The request went through, or the transaction failed. -/
def Decisive : Except Http.ClientError Value → Prop
  | .ok _ => True
  | .error error => error.getTransactionError.isSome = true

/-- The transaction failed, and the failure comes as an RPC error. -/
def HiddenFailure (outcome : Except Http.ClientError Value) : Prop :=
  ∃ error, outcome = .error ⟨.rpcError error⟩ ∧
    (ClientErrorKind.rpcError error).getTransactionError.isSome = true

/--
The sender stops at the first decisive outcome it sees and returns it, and a failure
that stays the same and that `send_tx` takes for one of the transaction is reported
after one request.
-/
structure StopsAtFirst (outcomes : Nat → Except Http.ClientError Value) (retries : Nat) : Prop where
  retried : ∀ i, i + 1 < (send outcomes retries).2 → ¬ Decisive (outcomes i)
  returned : ∃ last, (send outcomes retries).2 = last + 1 ∧
    (send outcomes retries).1 = outcomes last
  deterministic : ∀ display source signature error, (∀ n, outcomes n = .error error) →
    sendError signature (error.seen display) = .transactionError source signature →
      (send outcomes retries).2 = 1

/-! ## One request -/

@[simp] theorem error_classify (error : Http.ClientError) : (classify error).error = error := by
  obtain ⟨kind⟩ := error
  cases kind <;> rfl

/-- The loop hands on what the request ended with. -/
theorem report_sendInternal (outcome : Except Http.ClientError Value) :
    report (sendInternal outcome) = outcome := by
  cases outcome with
  | ok value => rfl
  | error error => exact congrArg Except.error (error_classify error)

theorem HiddenFailure.decisive (h : HiddenFailure outcome) : Decisive outcome := by
  obtain ⟨error, rfl, hfailed⟩ := h
  exact hfailed

theorem HiddenFailure.not_final (h : HiddenFailure outcome) : ¬ Final (sendInternal outcome) := by
  obtain ⟨error, rfl, -⟩ := h
  exact id

/-- **Where the layers disagree**: a decisive outcome that is retried is a hidden failure. -/
theorem hiddenFailure_of_decisive (hdecisive : Decisive outcome)
    (hretried : ¬ Final (sendInternal outcome)) : HiddenFailure outcome := by
  cases outcome with
  | ok value => exact absurd trivial hretried
  | error error =>
      obtain ⟨kind⟩ := error
      cases kind with
      | rpcError error => exact ⟨error, rfl, hdecisive⟩
      -- retried, and no transaction error
      | io text => cases hdecisive
      | reqwest text => cases hdecisive
      | serdeJson text => cases hdecisive
      -- not retried
      | middleware text => exact absurd trivial hretried
      | signingError text => exact absurd trivial hretried
      | transactionError error => exact absurd trivial hretried
      | custom text => exact absurd trivial hretried

/-- What `send_tx` takes for a failure of the transaction. -/
theorem decisive_of_sendError {display : Http.ClientError → String} {source : TransactionError}
    {signature : Signature} {error : Http.ClientError}
    (h : sendError signature (error.seen display) = .transactionError source signature) :
    Decisive (.error error : Except Http.ClientError Value) := by
  change error.getTransactionError.isSome = true
  rw [sendError, ClientError.seen] at h
  dsimp only at h
  split at h
  · rename_i hsome
    rw [hsome]
    rfl
  · cases h

/-! ## The course of the requests -/

/--
**When the sender stops at the first decisive outcome**: exactly when every failure of
the transaction that comes as an RPC error, while there is time for a retry, stands
behind an outcome that ended the loop already.
-/
theorem stops_at_first_iff (outcomes : Nat → Except Http.ClientError Value) (retries : Nat) :
    StopsAtFirst outcomes retries ↔ ∀ i, i < retries → HiddenFailure (outcomes i) →
      ∃ j, j < i ∧ Final (sendInternal (outcomes j)) := by
  obtain ⟨k, hle, hbefore, hstop, hsend⟩ :=
    retry_spec (fun n => sendInternal (outcomes n)) retries 0
  simp only [Nat.zero_add, report_sendInternal] at hbefore hstop hsend
  change send outcomes retries = (outcomes k, k + 1) at hsend
  constructor
  · intro h i hi hhidden
    rcases Nat.lt_trichotomy i k with hlt | rfl | hgt
    · -- the loop went on behind the failure
      refine absurd hhidden.decisive (h.retried i ?_)
      rw [hsend]
      exact Nat.succ_lt_succ hlt
    · exact absurd (hstop hi) hhidden.not_final
    · exact ⟨k, hgt, hstop (by omega)⟩
  · intro h
    have hretried : ∀ i, i + 1 < (send outcomes retries).2 → ¬ Decisive (outcomes i) := by
      intro i hi hdecisive
      rw [hsend] at hi
      have hlt : i < k := Nat.lt_of_succ_lt_succ hi
      have hhidden := hiddenFailure_of_decisive hdecisive (hbefore i hlt)
      obtain ⟨j, hj, hfinal⟩ := h i (by omega) hhidden
      exact hbefore j (by omega) hfinal
    refine ⟨hretried, ⟨k, by rw [hsend], by rw [hsend]⟩, ?_⟩
    intro display source signature error hsame hseen
    have hdecisive : Decisive (outcomes 0) := hsame 0 ▸ decisive_of_sendError hseen
    have hfirst : ¬ 0 + 1 < (send outcomes retries).2 := fun hlt => hretried 0 hlt hdecisive
    rw [hsend] at hfirst ⊢
    dsimp only at hfirst ⊢
    omega

/-- The node simulates the transaction before it takes it, and the simulation fails. -/
def preflightFailure : Http.ClientError :=
  ⟨.rpcError (.rpcResponseError (-32002) "Transaction simulation failed"
    (.sendTransactionPreflightFailure ⟨some (.instructionError 2 (.custom 1)), some 1500, ""⟩))⟩

/-- **A transaction failure is retried**: four requests, and the same answer every time. -/
theorem preflight_failure_retried :
    ¬ ∀ (outcomes : Nat → Except Http.ClientError String) (retries : Nat),
      StopsAtFirst outcomes retries := by
  intro hall
  have hattempts : (send (fun _ => (.error preflightFailure : Except Http.ClientError String)) 3).2
      = 4 := by decide +kernel
  refine (hall (fun _ => .error preflightFailure) 3).retried 0 ?_ ?_
  · rw [hattempts]
    decide
  · exact rfl

end AxelarRelayer.Proof
