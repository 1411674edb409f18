import Mathlib.Data.List.Nodup
import AxelarRelayer.Lib.Runs

/-!
# Phases of concurrent jobs

A program goes through phases. Entering one yields its jobs, or an error that ends
the program; the jobs then run concurrently, and the program waits for them. A job
acts any number of times before it returns. The phase is over when every job has
returned a success. The first job to return an error ends the program, and the
jobs still running are dropped.

The system below makes no choice of its own: which job acts or returns next, and
with what outcome, is the event. Its trace is the whole history, so what has to
come first is a statement about the prefixes of the trace (`TraceInv.ordered`).
-/

namespace Phases

open Runs

variable {ι α ρ ε : Type}

/-- What a job may do, and what the program makes of its outcome. -/
structure Rules (ι α ρ ε : Type) where
  may : ι → α → Bool
  finish : ι → ρ → Except ε Unit

/-- The `index`-th job of a phase. -/
structure Job (ι : Type) where
  phase : Nat
  index : Nat
  item : ι
deriving DecidableEq

def jobs (phase : Nat) (items : List ι) : List (Job ι) :=
  items.zipIdx.map fun entry => ⟨phase, entry.2, entry.1⟩

inductive Event (ι α ρ : Type) where
  | act (job : Job ι) (action : α)
  | ret (job : Job ι) (outcome : ρ)

def Event.job : Event ι α ρ → Job ι
  | act job _ => job
  | ret job _ => job

/-- Where a program is; `later` are the phases it has not entered yet. -/
structure State (ι α ρ ε : Type) where
  phase : Nat
  running : List (Job ι)
  later : List (Except ε (List ι))
  result : Option (Except ε Unit)
  trace : List (Event ι α ρ)

/-- Enter the next phase that has jobs to wait for. -/
def enter : Nat → List (Except ε (List ι)) → List (Event ι α ρ) → State ι α ρ ε
  | phase, [], trace => ⟨phase, [], [], some (.ok ()), trace⟩
  | phase, .error e :: later, trace => ⟨phase, [], later, some (.error e), trace⟩
  | phase, .ok [] :: later, trace => enter (phase + 1) later trace
  | phase, .ok (item :: items) :: later, trace =>
      ⟨phase, jobs phase (item :: items), later, none, trace⟩

/-- The job has acted. -/
def acted [DecidableEq ι] (job : Job ι) (trace : List (Event ι α ρ)) : Bool :=
  trace.any fun
    | .act job' _ => job' = job
    | .ret .. => false

/-- A job that succeeded is no longer waited for. -/
def State.settle [DecidableEq ι] (s : State ι α ρ ε) (job : Job ι) (outcome : ρ) :
    State ι α ρ ε :=
  match s.running.erase job with
  | [] => enter (s.phase + 1) s.later (s.trace ++ [.ret job outcome])
  | next :: rest => { s with running := next :: rest, trace := s.trace ++ [.ret job outcome] }

/-- One event. No job succeeds without having acted. -/
def step [DecidableEq ι] (rules : Rules ι α ρ ε) (s : State ι α ρ ε) :
    Event ι α ρ → Option (State ι α ρ ε)
  | .act job action =>
      if job ∈ s.running ∧ rules.may job.item action = true then
        some { s with trace := s.trace ++ [.act job action] }
      else none
  | .ret job outcome =>
      if job ∈ s.running then
        match rules.finish job.item outcome with
        | .error e => some ⟨s.phase, [], s.later, some (.error e), s.trace ++ [.ret job outcome]⟩
        | .ok _ => if acted job s.trace then some (s.settle job outcome) else none
      else none

/-- A program with these phases. -/
def system [DecidableEq ι] (rules : Rules ι α ρ ε) (phases : List (Except ε (List ι))) :
    System (State ι α ρ ε) (Event ι α ρ) where
  init s := s = enter 0 phases []
  step := step rules

theorem system_step [DecidableEq ι] (rules : Rules ι α ρ ε) (phases : List (Except ε (List ι))) :
    (system rules phases).step = step rules := rfl

/-! ## Jobs and traces -/

theorem mem_jobs {phase : Nat} {items : List ι} {job : Job ι} :
    job ∈ jobs phase items ↔ job.phase = phase ∧ items[job.index]? = some job.item := by
  rw [jobs, List.mem_map]
  constructor
  · rintro ⟨⟨item, index⟩, hin, rfl⟩
    exact ⟨rfl, by simpa [List.mem_zipIdx_iff_getElem?] using hin⟩
  · obtain ⟨p, i, item⟩ := job
    rintro ⟨rfl, hitem⟩
    exact ⟨(item, i), by simpa [List.mem_zipIdx_iff_getElem?] using hitem, rfl⟩

theorem jobs_map_item (phase : Nat) (items : List ι) :
    (jobs phase items).map Job.item = items := by
  rw [jobs, List.map_map]
  exact List.zipIdx_map_fst 0 items

theorem jobs_nodup (phase : Nat) (items : List ι) : (jobs phase items).Nodup := by
  have hindex : ((jobs phase items).map Job.index).Nodup := by
    rw [jobs, List.map_map]
    change (items.zipIdx.map Prod.snd).Nodup
    rw [List.zipIdx_map_snd]
    exact List.nodup_range'
  exact List.Nodup.of_map _ hindex

/-- The job returned a success. -/
def Returned (rules : Rules ι α ρ ε) (job : Job ι) (trace : List (Event ι α ρ)) : Prop :=
  ∃ outcome, .ret job outcome ∈ trace ∧ rules.finish job.item outcome = .ok ()

theorem Returned.mono {rules : Rules ι α ρ ε} {job : Job ι} {trace trace' : List (Event ι α ρ)}
    (h : Returned rules job trace) (hsub : ∀ event ∈ trace, event ∈ trace') :
    Returned rules job trace' := by
  obtain ⟨outcome, hin, hok⟩ := h
  exact ⟨outcome, hsub _ hin, hok⟩

theorem Returned.snoc {rules : Rules ι α ρ ε} {job : Job ι} {trace : List (Event ι α ρ)}
    (event : Event ι α ρ) (h : Returned rules job trace) :
    Returned rules job (trace ++ [event]) :=
  h.mono fun _ hin => List.mem_append_left _ hin

theorem acted_iff [DecidableEq ι] {job : Job ι} {trace : List (Event ι α ρ)} :
    acted job trace = true ↔ ∃ action, .act job action ∈ trace := by
  rw [acted, List.any_eq_true]
  constructor
  · rintro ⟨event, hin, h⟩
    cases event with
    | act job' action =>
        obtain rfl : job' = job := of_decide_eq_true h
        exact ⟨action, hin⟩
    | ret job' outcome => exact absurd h (by simp)
  · rintro ⟨action, hin⟩
    exact ⟨_, hin, by simp⟩

/-- An event of a longer trace is its last one, or stands where it stood before. -/
theorem split_snoc {trace pre post : List (Event ι α ρ)} {event last : Event ι α ρ}
    (h : trace ++ [last] = pre ++ event :: post) :
    (pre = trace ∧ event = last ∧ post = []) ∨
      ∃ post', trace = pre ++ event :: post' ∧ post = post' ++ [last] := by
  rcases List.eq_nil_or_concat post with rfl | ⟨post', last', rfl⟩
  · obtain ⟨rfl, hlast⟩ := List.append_inj' h rfl
    exact Or.inl ⟨rfl, (List.cons.inj hlast).1.symm, rfl⟩
  · rw [List.concat_eq_append, ← List.cons_append, ← List.append_assoc] at h
    obtain ⟨rfl, hlast⟩ := List.append_inj' h rfl
    exact Or.inr ⟨post', rfl, by rw [List.concat_eq_append, (List.cons.inj hlast).1]⟩

/-! ## What a step can do -/

variable [DecidableEq ι] {rules : Rules ι α ρ ε} {phases : List (Except ε (List ι))}
  {s s' : State ι α ρ ε}

inductive Transition (rules : Rules ι α ρ ε) (s : State ι α ρ ε) :
    Event ι α ρ → State ι α ρ ε → Prop where
  | acts {job : Job ι} {action : α} : job ∈ s.running → rules.may job.item action = true →
      Transition rules s (.act job action) { s with trace := s.trace ++ [.act job action] }
  | fails {job : Job ι} {outcome : ρ} {e : ε} : job ∈ s.running →
      rules.finish job.item outcome = .error e →
      Transition rules s (.ret job outcome)
        ⟨s.phase, [], s.later, some (.error e), s.trace ++ [.ret job outcome]⟩
  | succeeds {job : Job ι} {outcome : ρ} : job ∈ s.running →
      rules.finish job.item outcome = .ok () → acted job s.trace = true →
      s.running.erase job ≠ [] →
      Transition rules s (.ret job outcome)
        { s with running := s.running.erase job, trace := s.trace ++ [.ret job outcome] }
  | advances {job : Job ι} {outcome : ρ} : job ∈ s.running →
      rules.finish job.item outcome = .ok () → acted job s.trace = true →
      s.running.erase job = [] →
      Transition rules s (.ret job outcome)
        (enter (s.phase + 1) s.later (s.trace ++ [.ret job outcome]))

theorem step_cases {event : Event ι α ρ} (h : step rules s event = some s') :
    Transition rules s event s' := by
  cases event with
  | act job action =>
      simp only [step] at h
      split at h
      · rename_i hact
        rw [← Option.some.inj h]
        exact .acts hact.1 hact.2
      · cases h
  | ret job outcome =>
      simp only [step] at h
      split at h
      · rename_i hrun
        cases hf : rules.finish job.item outcome with
        | error e =>
            rw [hf] at h
            rw [← Option.some.inj h]
            exact .fails hrun hf
        | ok u =>
            rw [hf] at h
            dsimp only at h
            split at h
            · rename_i hacted
              rw [← Option.some.inj h, State.settle]
              -- the last job of a phase lets the program enter the next one
              cases her : s.running.erase job with
              | nil => exact .advances hrun hf hacted her
              | cons next rest =>
                  dsimp only
                  rw [← her]
                  exact .succeeds hrun hf hacted (by rw [her]; exact List.cons_ne_nil _ _)
            · cases h
      · cases h

omit [DecidableEq ι] in
/-- What `enter` makes of the trace: nothing. -/
@[simp] theorem trace_enter (phase : Nat) (later : List (Except ε (List ι)))
    (trace : List (Event ι α ρ)) : (enter phase later trace).trace = trace := by
  induction later generalizing phase with
  | nil => rfl
  | cons next later ih =>
      match next with
      | .error e => rfl
      | .ok [] => exact ih (phase + 1)
      | .ok (item :: items) => rfl

omit [DecidableEq ι] in
theorem le_phase_enter (phase : Nat) (later : List (Except ε (List ι)))
    (trace : List (Event ι α ρ)) : phase ≤ (enter phase later trace).phase := by
  induction later generalizing phase with
  | nil => exact Nat.le_refl _
  | cons next later ih =>
      match next with
      | .error e => exact Nat.le_refl _
      | .ok [] => exact Nat.le_trans (Nat.le_succ phase) (ih (phase + 1))
      | .ok (item :: items) => exact Nat.le_refl _

/-! ## Where a program is -/

/-- Phase `k` was entered, and all its jobs returned a success. -/
def Passed (rules : Rules ι α ρ ε) (phases : List (Except ε (List ι))) (k : Nat)
    (trace : List (Event ι α ρ)) : Prop :=
  ∃ items, phases[k]? = some (.ok items) ∧ ∀ job ∈ jobs k items, Returned rules job trace

omit [DecidableEq ι] in
theorem Passed.mono {k : Nat} {trace trace' : List (Event ι α ρ)} (h : Passed rules phases k trace)
    (hsub : ∀ event ∈ trace, event ∈ trace') : Passed rules phases k trace' := by
  obtain ⟨items, hitems, hall⟩ := h
  exact ⟨items, hitems, fun job hjob => (hall job hjob).mono hsub⟩

/-- The control state agrees with the trace. -/
structure ControlInv (rules : Rules ι α ρ ε) (phases : List (Except ε (List ι)))
    (s : State ι α ρ ε) : Prop where
  passed : ∀ k < s.phase, Passed rules phases k s.trace
  current : s.result = none → ∃ items, phases[s.phase]? = some (.ok items) ∧
    s.later = phases.drop (s.phase + 1) ∧ s.running ≠ [] ∧ s.running.Sublist (jobs s.phase items) ∧
    ∀ job ∈ jobs s.phase items, job ∈ s.running ∨ Returned rules job s.trace
  stopped : s.result ≠ none → s.running = []
  finished : s.result = some (.ok ()) → s.phase = phases.length

omit [DecidableEq ι] in
theorem controlInv_enter {phase : Nat} {later : List (Except ε (List ι))}
    {trace : List (Event ι α ρ)} (hlater : later = phases.drop phase)
    (hle : phase ≤ phases.length) (hpassed : ∀ k < phase, Passed rules phases k trace) :
    ControlInv rules phases (enter phase later trace) := by
  induction later generalizing phase with
  | nil =>
      have hlen : phases.length ≤ phase := List.drop_eq_nil_iff.mp hlater.symm
      exact {
        passed := hpassed
        current := fun h => by cases h
        stopped := fun _ => rfl
        finished := fun _ => Nat.le_antisymm hle hlen }
  | cons next later ih =>
      have hnext : phases[phase]? = some next := by
        have := congrArg (·[0]?) hlater
        simpa [List.getElem?_drop] using this.symm
      have hrest : later = phases.drop (phase + 1) := by
        have := congrArg List.tail hlater
        simpa [List.tail_drop] using this
      match next, hnext with
      | .error e, _ =>
          exact {
            passed := hpassed
            current := fun h => by cases h
            stopped := fun _ => rfl
            finished := fun h => by cases h }
      | .ok [], hnext =>
          -- an empty phase is passed at once
          have hlt : phase < phases.length := (List.getElem?_eq_some_iff.mp hnext).1
          refine ih hrest hlt fun k hk => ?_
          rcases Nat.lt_succ_iff_lt_or_eq.mp hk with hk | rfl
          · exact hpassed k hk
          · exact ⟨[], hnext, fun job hjob => absurd hjob List.not_mem_nil⟩
      | .ok (item :: items), hnext =>
          exact {
            passed := hpassed
            current := fun _ => ⟨item :: items, hnext, hrest, by simp [jobs, enter],
              List.Sublist.refl _, fun job hjob => Or.inl hjob⟩
            stopped := fun h => absurd rfl h
            finished := fun h => by cases h }

omit [DecidableEq ι] in
/-- A running job has not been waited out, so the program has not ended. -/
theorem result_of_running {job : Job ι} (h : ControlInv rules phases s) (hjob : job ∈ s.running) :
    s.result = none := by
  by_cases hres : s.result = none
  · exact hres
  · rw [h.stopped hres] at hjob
    exact absurd hjob List.not_mem_nil

theorem controlInv_step {event : Event ι α ρ} (h : ControlInv rules phases s)
    (hs : step rules s event = some s') : ControlInv rules phases s' := by
  have hkeep : ∀ k < s.phase, Passed rules phases k (s.trace ++ [event]) := fun k hk =>
    (h.passed k hk).mono fun _ hin => List.mem_append_left _ hin
  cases step_cases hs with
  | @acts job action hjob hmay =>
      have hres := result_of_running h hjob
      refine ⟨hkeep, fun _ => ?_, h.stopped, h.finished⟩
      obtain ⟨items, hitems, hlater, hne, hsub, hall⟩ := h.current hres
      exact ⟨items, hitems, hlater, hne, hsub, fun j hj =>
        (hall j hj).imp_right fun hr => hr.snoc _⟩
  | @fails job outcome e hjob hf =>
      exact {
        passed := hkeep
        current := fun h => by cases h
        stopped := fun _ => rfl
        finished := fun h => by cases h }
  | @succeeds job outcome hjob hf hacted hne =>
      have hres := result_of_running h hjob
      obtain ⟨items, hitems, hlater, -, hsub, hall⟩ := h.current hres
      refine ⟨hkeep, fun _ => ⟨items, hitems, hlater, hne, List.erase_sublist.trans hsub,
        fun j hj => ?_⟩, fun hr => absurd hres hr, h.finished⟩
      rcases hall j hj with hrun | hret
      · by_cases hj' : j = job
        · subst hj'
          exact Or.inr ⟨outcome, List.mem_append_right _ List.mem_cons_self, hf⟩
        · exact Or.inl ((List.mem_erase_of_ne hj').mpr hrun)
      · exact Or.inr (hret.snoc _)
  | @advances job outcome hjob hf hacted hnil =>
      obtain ⟨items, hitems, hlater, -, hsub, hall⟩ := h.current (result_of_running h hjob)
      refine controlInv_enter hlater (List.getElem?_eq_some_iff.mp hitems).1 fun k hk => ?_
      rcases Nat.lt_succ_iff_lt_or_eq.mp hk with hk | rfl
      · exact hkeep k hk
      · -- the last job of the phase: all the others had returned
        refine ⟨items, hitems, fun j hj => ?_⟩
        rcases hall j hj with hrun | hret
        · by_cases hj' : j = job
          · subst hj'
            exact ⟨outcome, List.mem_append_right _ List.mem_cons_self, hf⟩
          · have hin := (List.mem_erase_of_ne hj').mpr hrun
            rw [hnil] at hin
            exact absurd hin List.not_mem_nil
        · exact hret.snoc _

theorem controlInv_reachable (h : Reach (system rules phases) always s) :
    ControlInv rules phases s := by
  refine h.invariant (fun s hs => ?_) fun s e s' _ hi _ hs => controlInv_step hi hs
  rw [show s = enter 0 phases [] from hs]
  exact controlInv_enter rfl (Nat.zero_le _) fun k hk => absurd hk (Nat.not_lt_zero k)

/-! ## What the trace says -/

/-- What every trace of the system meets. -/
structure TraceInv (rules : Rules ι α ρ ε) (phases : List (Except ε (List ι)))
    (s : State ι α ρ ε) : Prop where
  /-- Only jobs of the phases act and return. -/
  known : ∀ event ∈ s.trace, ∃ items, phases[event.job.phase]? = some (.ok items) ∧
    event.job ∈ jobs event.job.phase items
  allowed : ∀ job action, .act job action ∈ s.trace → rules.may job.item action = true
  entered : ∀ event ∈ s.trace, event.job.phase ≤ s.phase
  /-- Whatever a job does, every job of an earlier phase had returned a success by then. -/
  ordered : ∀ pre event post, s.trace = pre ++ event :: post →
    ∀ k < event.job.phase, Passed rules phases k pre
  /-- A job that returned a success had acted. -/
  acted : ∀ job, Returned rules job s.trace → ∃ action, .act job action ∈ s.trace
  /-- A job that returned an error ended the program, and was the last to do anything. -/
  failed : ∀ pre job outcome post e, s.trace = pre ++ .ret job outcome :: post →
    rules.finish job.item outcome = .error e → post = [] ∧ s.result = some (.error e) ∧
      ∀ event ∈ pre, event.job.phase ≤ job.phase

/-- What one more event does to the trace, whatever becomes of the control state. -/
theorem TraceInv.snoc {job : Job ι} {event : Event ι α ρ} (hc : ControlInv rules phases s)
    (h : TraceInv rules phases s) (hjob : job ∈ s.running) (hevent : event.job = job)
    (htrace : s'.trace = s.trace ++ [event]) (hle : s.phase ≤ s'.phase)
    (hmay : ∀ action, event = .act job action → rules.may job.item action = true)
    (hacted : ∀ outcome, event = .ret job outcome → rules.finish job.item outcome = .ok () →
      Phases.acted job s.trace = true)
    (hfail : ∀ outcome e, event = .ret job outcome → rules.finish job.item outcome = .error e →
      s'.result = some (.error e)) : TraceInv rules phases s' := by
  have hres := result_of_running hc hjob
  obtain ⟨items, hitems, -, -, hsub, -⟩ := hc.current hres
  have hin := hsub.subset hjob
  have hphase := (mem_jobs.mp hin).1
  refine ⟨?_, ?_, ?_, ?_, ?_, ?_⟩
  · intro ev hev
    rw [htrace] at hev
    rcases List.mem_append.mp hev with hev | hev
    · exact h.known ev hev
    · rw [List.mem_singleton.mp hev, hevent, hphase]
      exact ⟨items, hitems, hin⟩
  · intro j action hact
    rw [htrace] at hact
    rcases List.mem_append.mp hact with hact | hact
    · exact h.allowed j action hact
    · have heq := List.mem_singleton.mp hact
      obtain rfl : j = job := by rw [← hevent, ← heq]; rfl
      exact hmay action heq.symm
  · intro ev hev
    rw [htrace] at hev
    rcases List.mem_append.mp hev with hev | hev
    · exact Nat.le_trans (h.entered ev hev) hle
    · rw [List.mem_singleton.mp hev, hevent, hphase]
      exact hle
  · intro pre ev post hsplit k hk
    rw [htrace] at hsplit
    rcases split_snoc hsplit with ⟨rfl, rfl, -⟩ | ⟨post', hold, -⟩
    · rw [hevent, hphase] at hk
      exact hc.passed k hk
    · exact h.ordered pre ev post' hold k hk
  · rintro j ⟨outcome, hret, hok⟩
    rw [htrace] at hret ⊢
    have hbefore : ∃ action, .act j action ∈ s.trace := by
      rcases List.mem_append.mp hret with hret | hret
      · exact h.acted j ⟨outcome, hret, hok⟩
      · have heq := List.mem_singleton.mp hret
        obtain rfl : j = job := by rw [← hevent, ← heq]; rfl
        exact acted_iff.mp (hacted outcome heq.symm hok)
    obtain ⟨action, hact⟩ := hbefore
    exact ⟨action, List.mem_append_left _ hact⟩
  · intro pre j outcome post e hsplit hf
    rw [htrace] at hsplit
    rcases split_snoc hsplit with ⟨rfl, heq, hpost⟩ | ⟨post', hold, -⟩
    · obtain rfl : j = job := by rw [← hevent, ← heq]; rfl
      exact ⟨hpost, hfail outcome e heq.symm hf, fun ev hev => hphase ▸ h.entered ev hev⟩
    · -- an error would have ended the program before
      have := (h.failed pre j outcome post' e hold hf).2.1
      rw [hres] at this
      cases this

theorem traceInv_step {event : Event ι α ρ} (hc : ControlInv rules phases s)
    (h : TraceInv rules phases s) (hs : step rules s event = some s') :
    TraceInv rules phases s' := by
  cases step_cases hs with
  | @acts job action hjob hmay =>
      refine TraceInv.snoc hc h hjob rfl rfl (Nat.le_refl _) ?_ (fun _ he => by cases he) fun _ _ he => by cases he
      intro action' he
      cases he
      exact hmay
  -- of the three returns only this one may carry an error
  | @fails job outcome e hjob hf =>
      refine TraceInv.snoc hc h hjob rfl rfl (Nat.le_refl _) (fun _ he => by cases he) ?_ ?_
      · intro outcome' he hok
        cases he
        exact absurd (hok.symm.trans hf) (by simp)
      · intro outcome' e' he he'
        cases he
        rw [hf] at he'
        cases he'
        rfl
  | @succeeds job outcome hjob hf hacted hne =>
      refine TraceInv.snoc hc h hjob rfl rfl (Nat.le_refl _) (fun _ he => by cases he) ?_ ?_
      · intro _ _ _
        exact hacted
      · intro outcome' e' he he'
        cases he
        exact absurd (hf.symm.trans he') (by simp)
  | @advances job outcome hjob hf hacted hnil =>
      refine TraceInv.snoc hc h hjob rfl (trace_enter _ _ _)
        (Nat.le_trans (Nat.le_succ _) (le_phase_enter _ _ _)) (fun _ he => by cases he) ?_ ?_
      · intro _ _ _
        exact hacted
      · intro outcome' e' he he'
        cases he
        exact absurd (hf.symm.trans he') (by simp)

theorem traceInv_reachable (h : Reach (system rules phases) always s) :
    TraceInv rules phases s := by
  refine h.invariant (fun s hs => ?_) fun s e s' hr hi _ hs =>
    traceInv_step (controlInv_reachable hr) hi hs
  -- entering the first phase leaves the trace empty
  have hnil : s.trace = [] := by
    rw [show s = enter 0 phases [] from hs, trace_enter]
  refine ⟨?_, ?_, ?_, ?_, ?_, ?_⟩
  · intro event hev
    rw [hnil] at hev
    exact absurd hev List.not_mem_nil
  · intro job action hact
    rw [hnil] at hact
    exact absurd hact List.not_mem_nil
  · intro event hev
    rw [hnil] at hev
    exact absurd hev List.not_mem_nil
  · intro pre event post hsplit
    rw [hnil] at hsplit
    exact absurd hsplit (by simp)
  · rintro job ⟨outcome, hret, -⟩
    rw [hnil] at hret
    exact absurd hret List.not_mem_nil
  · intro pre job outcome post e hsplit
    rw [hnil] at hsplit
    exact absurd hsplit (by simp)

/-- **A program that succeeded went through all its phases.** -/
theorem passed_of_ok (h : Reach (system rules phases) always s) (hok : s.result = some (.ok ()))
    {k : Nat} (hk : k < phases.length) : Passed rules phases k s.trace :=
  (controlInv_reachable h).passed k (by rw [(controlInv_reachable h).finished hok]; exact hk)

/-! ## Events that can happen -/

/-- A running job may act. -/
theorem reach_act (h : Reach (system rules phases) always s) {job : Job ι}
    (hjob : job ∈ s.running) {action : α} (hmay : rules.may job.item action = true) :
    Reach (system rules phases) always { s with trace := s.trace ++ [.act job action] } := by
  refine h.tail (e := .act job action) trivial ?_
  rw [system_step, step, if_pos ⟨hjob, hmay⟩]

/-- One that has acted may return a success. -/
theorem reach_ret (h : Reach (system rules phases) always s) {job : Job ι}
    (hjob : job ∈ s.running) (hacted : acted job s.trace = true) {outcome : ρ}
    (hok : rules.finish job.item outcome = .ok ()) :
    Reach (system rules phases) always (s.settle job outcome) := by
  refine h.tail (e := .ret job outcome) trivial ?_
  rw [system_step, step, if_pos hjob, hok]
  exact if_pos hacted

/-- Any of them may fail, and that is the end. -/
theorem reach_fail (h : Reach (system rules phases) always s) {job : Job ι}
    (hjob : job ∈ s.running) {outcome : ρ} {e : ε}
    (hfails : rules.finish job.item outcome = .error e) :
    Reach (system rules phases) always
      ⟨s.phase, [], s.later, some (.error e), s.trace ++ [.ret job outcome]⟩ := by
  refine h.tail (e := .ret job outcome) trivial ?_
  rw [system_step, step, if_pos hjob, hfails]

/-! ## A run to the end -/

/-- All jobs of a phase can return a success, one after the other. -/
theorem exists_phase_passed {phase : Nat} {later : List (Except ε (List ι))}
    (hact : ∀ item, ∃ action, rules.may item action = true)
    (hfin : ∀ item, ∃ outcome, rules.finish item outcome = .ok ())
    (running : List (Job ι)) (trace : List (Event ι α ρ)) (hne : running ≠ [])
    (h : Reach (system rules phases) always ⟨phase, running, later, none, trace⟩) :
    ∃ trace', Reach (system rules phases) always (enter (phase + 1) later trace') := by
  induction running generalizing trace with
  | nil => exact absurd rfl hne
  | cons job rest ih =>
      obtain ⟨action, haction⟩ := hact job.item
      obtain ⟨outcome, houtcome⟩ := hfin job.item
      -- the job acts, and then it returns
      have hacted : acted job (trace ++ [.act job action]) = true :=
        acted_iff.mpr ⟨action, List.mem_append_right _ List.mem_cons_self⟩
      have h₁ := reach_act h List.mem_cons_self haction
      have h₂ := reach_ret h₁ List.mem_cons_self hacted houtcome
      rw [State.settle, List.erase_cons_head] at h₂
      cases rest with
      | nil => exact ⟨_, h₂⟩
      | cons next rest => exact ih _ (List.cons_ne_nil _ _) h₂

/-- **A program whose phases can all be entered can succeed.** -/
theorem exists_ok (hact : ∀ item, ∃ action, rules.may item action = true)
    (hfin : ∀ item, ∃ outcome, rules.finish item outcome = .ok ())
    (hphases : ∀ phase ∈ phases, ∃ items, phase = .ok items) :
    ∃ s, Reach (system rules phases) always s ∧ s.result = some (.ok ()) := by
  have hrest : ∀ (later : List (Except ε (List ι))) (phase : Nat) (trace : List (Event ι α ρ)),
      (∀ next ∈ later, ∃ items, next = .ok items) →
      Reach (system rules phases) always (enter phase later trace) →
      ∃ s, Reach (system rules phases) always s ∧ s.result = some (.ok ()) := by
    intro later
    induction later with
    | nil => exact fun phase trace _ h => ⟨_, h, rfl⟩
    | cons next later ih =>
        intro phase trace hall h
        have hlater := fun next hnext => hall next (List.mem_cons_of_mem _ hnext)
        obtain ⟨items, rfl⟩ := hall next List.mem_cons_self
        cases items with
        | nil => exact ih (phase + 1) trace hlater h
        | cons item items =>
            obtain ⟨trace', h'⟩ := exists_phase_passed hact hfin _ trace (by simp [jobs]) h
            exact ih (phase + 1) trace' hlater h'
  exact hrest phases 0 [] hphases (Reach.init rfl)

end Phases
