import Mathlib.Order.Basic

/-!
# Retrying an operation

An attempt ends with a value, with an error that is worth another attempt
(`transient`), or with one that is not (`permanent`). The loop goes on until an
attempt is final or the time is up. How many retries the time admits depends on how
long the attempts take, so it is a number the loop is given.

`retry_spec` says what the loop does: it stops at one attempt, every attempt before
that one was transient, and it stops early only at a final one.
-/

namespace Retry

variable {ε α : Type}

/-- The error of an attempt, and whether it is worth another one. -/
inductive Failure (ε : Type) where
  | transient (error : ε)
  | permanent (error : ε)

def Failure.error : Failure ε → ε
  | transient error => error
  | permanent error => error

/-- The attempt is not followed by another one, whatever the time. -/
def Final : Except (Failure ε) α → Prop
  | .error (.transient _) => False
  | _ => True

instance (outcome : Except (Failure ε) α) : Decidable (Final outcome) :=
  match outcome with
  | .ok _ => isTrue trivial
  | .error (.permanent _) => isTrue trivial
  | .error (.transient _) => isFalse id

/-- What the caller sees of an attempt the loop stops at. -/
def report (outcome : Except (Failure ε) α) : Except ε α := outcome.mapError Failure.error

/-- The loop from attempt `n` on; next to the result, how many attempts were made in all. -/
def retry (attempt : Nat → Except (Failure ε) α) : Nat → Nat → Except ε α × Nat
  | 0, n => (report (attempt n), n + 1)
  | retries + 1, n =>
      if Final (attempt n) then (report (attempt n), n + 1) else retry attempt retries (n + 1)

variable (attempt : Nat → Except (Failure ε) α)

theorem retry_final {n : Nat} (retries : Nat) (h : Final (attempt n)) :
    retry attempt retries n = (report (attempt n), n + 1) := by
  cases retries with
  | zero => rfl
  | succ retries => rw [retry, if_pos h]

theorem retry_transient {n : Nat} (retries : Nat) (h : ¬ Final (attempt n)) :
    retry attempt (retries + 1) n = retry attempt retries (n + 1) := by
  rw [retry, if_neg h]

/-- Transient attempts use up the retries; whatever the last attempt is, the loop ends there. -/
theorem retry_all_transient (retries n : Nat)
    (hbefore : ∀ i, i < retries → ¬ Final (attempt (n + i))) :
    retry attempt retries n = (report (attempt (n + retries)), n + retries + 1) := by
  induction retries generalizing n with
  | zero => rfl
  | succ retries ih =>
      have hshift : ∀ i, n + 1 + i = n + (i + 1) := fun i => by omega
      have hfirst : ¬ Final (attempt n) := hbefore 0 (Nat.succ_pos retries)
      rw [retry_transient attempt retries hfirst, ih (n + 1), hshift retries]
      intro i hi
      exact hshift i ▸ hbefore (i + 1) (Nat.succ_lt_succ hi)

/-- **What the loop does**: it stops at attempt `n + k`, and every attempt before was transient. -/
theorem retry_spec (retries n : Nat) : ∃ k, k ≤ retries ∧
    (∀ i, i < k → ¬ Final (attempt (n + i))) ∧ (k < retries → Final (attempt (n + k))) ∧
      retry attempt retries n = (report (attempt (n + k)), n + k + 1) := by
  induction retries generalizing n with
  | zero => exact ⟨0, Nat.le_refl 0, fun i hi => absurd hi (Nat.not_lt_zero i),
      fun h => absurd h (Nat.lt_irrefl 0), rfl⟩
  | succ retries ih =>
      by_cases hfinal : Final (attempt n)
      · exact ⟨0, Nat.zero_le _, fun i hi => absurd hi (Nat.not_lt_zero i), fun _ => hfinal,
          retry_final attempt (retries + 1) hfinal⟩
      -- the attempt is transient: the rest is a retry with one attempt less
      obtain ⟨k, hle, hbefore, hstop, heq⟩ := ih (n + 1)
      have hshift : ∀ i, n + 1 + i = n + (i + 1) := fun i => by omega
      refine ⟨k + 1, Nat.succ_le_succ hle, ?_, ?_, ?_⟩
      · intro i hi
        cases i with
        | zero => exact hfinal
        | succ i => exact hshift i ▸ hbefore i (Nat.lt_of_succ_lt_succ hi)
      · intro hk
        exact hshift k ▸ hstop (Nat.lt_of_succ_lt_succ hk)
      · rw [retry_transient attempt retries hfinal, heq, hshift k]

end Retry
