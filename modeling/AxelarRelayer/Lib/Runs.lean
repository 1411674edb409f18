/-!
# Guarded transition systems

A system is an executable step function: `step s e` is `some s'` when event `e`
can happen in state `s`. One definition serves both the proofs, which quantify
over `Reach`, and the concrete runs, which `run` evaluates.

`Reach ok` collects the states of the runs whose steps all meet `ok`. An
unconditional invariant is the case `ok = fun _ _ => True`; a condition under
which a system behaves is a guard the steps of a run are asked to meet.
-/

namespace Runs

/-- A transition system: where it may start and what each event does. -/
structure System (σ ε : Type) where
  init : σ → Prop
  step : σ → ε → Option σ

variable {σ ε : Type} {sys : System σ ε} {ok ok' : σ → ε → Prop} {P : σ → Prop} {s s' : σ}

/-- The states reached by runs whose steps all meet `ok`. -/
inductive Reach (sys : System σ ε) (ok : σ → ε → Prop) : σ → Prop where
  | init {s : σ} : sys.init s → Reach sys ok s
  | tail {s s' : σ} {e : ε} : Reach sys ok s → ok s e → sys.step s e = some s' → Reach sys ok s'

/-- No condition on the steps. -/
def always (_ : σ) (_ : ε) : Prop := True

/-- A weaker guard admits more runs. -/
theorem Reach.mono (h : Reach sys ok s) (hok : ∀ s e, ok s e → ok' s e) : Reach sys ok' s := by
  induction h with
  | init hi => exact Reach.init hi
  | tail _ hg hs ih => exact Reach.tail ih (hok _ _ hg) hs

/-- **The invariant rule**: true at the start and kept by every step that meets the guard. -/
theorem Reach.invariant (hinit : ∀ s, sys.init s → P s)
    (hstep : ∀ s e s', Reach sys ok s → P s → ok s e → sys.step s e = some s' → P s')
    (h : Reach sys ok s) : P s := by
  induction h with
  | init hi => exact hinit _ hi
  | tail hr hg hs ih => exact hstep _ _ _ hr ih hg hs

/-- The runs that go on from one state. -/
def System.resume (sys : System σ ε) (s : σ) : System σ ε where
  init s' := s' = s
  step := sys.step

theorem Reach.resume (h : Reach sys ok s) (hgo : Reach (sys.resume s) ok' s')
    (hok : ∀ s e, ok' s e → ok s e) : Reach sys ok s' := by
  induction hgo with
  | init hi =>
      rw [hi]
      exact h
  | tail _ hg hs ih => exact Reach.tail ih (hok _ _ hg) hs

/-! ## Runs with a log -/

section Logged

variable {τ : Type} {note : σ → ε → List τ} {q q' : σ × List τ}

/-- The same system, writing down what its steps do. -/
def System.logged (sys : System σ ε) (note : σ → ε → List τ) : System (σ × List τ) ε where
  init q := sys.init q.1 ∧ q.2 = []
  step q e := (sys.step q.1 e).map fun s => (s, q.2 ++ note q.1 e)

theorem logged_cases {e : ε} (h : (sys.logged note).step q e = some q') :
    sys.step q.1 e = some q'.1 ∧ q'.2 = q.2 ++ note q.1 e := by
  obtain ⟨s, hs, rfl⟩ := Option.map_eq_some_iff.mp h
  exact ⟨hs, rfl⟩

end Logged

instance (s : σ) (e : ε) : Decidable (always s e) := inferInstanceAs (Decidable True)

/-- Replay a list of events; `none` as soon as one of them cannot happen or breaks the guard. -/
def replay (sys : System σ ε) (ok : σ → ε → Prop) [∀ s e, Decidable (ok s e)] (s : σ) :
    List ε → Option σ
  | [] => some s
  | e :: es => if ok s e then (sys.step s e).bind fun s' => replay sys ok s' es else none

/-- Replaying events stays within the states the guard allows. -/
theorem Reach.of_replay [∀ s e, Decidable (ok s e)] {es : List ε} (h : Reach sys ok s)
    (hrun : replay sys ok s es = some s') : Reach sys ok s' := by
  induction es generalizing s with
  | nil =>
      simp only [replay, Option.some.injEq] at hrun
      exact hrun ▸ h
  | cons e es ih =>
      rw [replay] at hrun
      split at hrun
      · rename_i hok
        obtain ⟨s1, hs1, hrest⟩ := Option.bind_eq_some_iff.mp hrun
        exact ih (Reach.tail h hok hs1) hrest
      · exact absurd hrun (by simp)

theorem replay_always_cons (sys : System σ ε) (s : σ) (e : ε) (es : List ε) :
    replay sys always s (e :: es) =
      (sys.step s e).bind fun s' => replay sys always s' es := by
  have hfree : always s e := trivial
  rw [replay, if_pos hfree]

/-- Events that meet a guard in every state need no check on the way. -/
theorem Reach.of_replay_always {es : List ε} (h : Reach sys ok s)
    (hok : ∀ e, e ∈ es → ∀ s, ok s e) (hrun : replay sys always s es = some s') :
    Reach sys ok s' := by
  induction es generalizing s with
  | nil =>
      simp only [replay, Option.some.injEq] at hrun
      exact hrun ▸ h
  | cons e es ih =>
      rw [replay_always_cons] at hrun
      obtain ⟨s1, hs1, hrest⟩ := Option.bind_eq_some_iff.mp hrun
      exact ih (Reach.tail h (hok e List.mem_cons_self s) hs1)
        (fun e' he' => hok e' (List.mem_cons_of_mem e he')) hrest

end Runs
