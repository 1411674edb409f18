import Mathlib.Data.List.Perm.Basic
import AxelarRelayer.Lib.Effect
import AxelarRelayer.Lib.Phases

/-!
# A program that takes one course

A program that runs the jobs of its phases one after the other, in whatever order, takes
one of the courses of `Phases.system`: what it appends to its ledger is what the jobs of
that course do, and it ends as the course ends (`TakesCourse`). All there is to know of a job is
that it does only what the rules let it do, and that its end is what the rules make of some
outcome (`Performs`).
-/

namespace Phases

open Runs Effect

variable {ι α ρ ε σ κ : Type}

/-! ## The actions of a history -/

/-- What was done, in the order in which it was done. -/
def actions (trace : List (Event ι α ρ)) : List α :=
  trace.filterMap fun
    | .act _ action => some action
    | .ret .. => none

@[simp] theorem actions_append (trace trace' : List (Event ι α ρ)) :
    actions (trace ++ trace') = actions trace ++ actions trace' :=
  List.filterMap_append

@[simp] theorem actions_ret (job : Job ι) (outcome : ρ) :
    actions [(.ret job outcome : Event ι α ρ)] = [] := rfl

@[simp] theorem actions_map_act (job : Job ι) (done : List α) :
    actions (done.map (.act job) : List (Event ι α ρ)) = done := by
  induction done with
  | nil => rfl
  | cons action done ih => exact congrArg (action :: ·) ih

/-- What some jobs did, one job after the other. -/
def acts (ran : List (Ran (Job ι) ε α)) : List (Event ι α ρ) :=
  (ran.map fun j => j.appended.map (.act j.item)).flatten

@[simp] theorem actions_acts (ran : List (Ran (Job ι) ε α)) :
    actions (acts ran : List (Event ι α ρ)) = (ran.map Ran.appended).flatten := by
  induction ran with
  | nil => rfl
  | cons j ran ih =>
      have hacts : (acts (j :: ran) : List (Event ι α ρ)) =
          j.appended.map (.act j.item) ++ acts ran := rfl
      rw [hacts, actions_append, actions_map_act, ih, List.map_cons, List.flatten_cons]

variable [DecidableEq ι] {rules : Rules ι α ρ ε} {phases later : List (Except ε (List ι))}
  {log : σ → List α} {s : State ι α ρ ε} {phase : Nat}

/-- A job that did something has acted. -/
theorem acted_acts (trace : List (Event ι α ρ)) {ran : List (Ran (Job ι) ε α)}
    {j : Ran (Job ι) ε α} (hj : j ∈ ran) (hne : j.appended ≠ []) :
    acted j.item (trace ++ acts ran) = true := by
  obtain ⟨action, hin⟩ := List.exists_mem_of_ne_nil _ hne
  exact acted_iff.mpr ⟨action, List.mem_append_right _ (List.mem_flatten.mpr
    ⟨j.appended.map (.act j.item), List.mem_map_of_mem hj, List.mem_map_of_mem hin⟩)⟩

/-! ## Steps of one phase -/

/-- A running job may do one thing after the other. -/
theorem reach_actions {job : Job ι} (h : Reach (system rules phases) always s)
    (hjob : job ∈ s.running) (done : List α) (hmay : ∀ a ∈ done, rules.may job.item a = true) :
    Reach (system rules phases) always { s with trace := s.trace ++ done.map (.act job) } := by
  induction done generalizing s with
  | nil =>
      rw [List.map_nil, List.append_nil]
      exact h
  | cons action done ih =>
      have hrest := ih (reach_act h hjob (hmay action List.mem_cons_self)) hjob
        fun a ha => hmay a (List.mem_cons_of_mem _ ha)
      rw [List.append_assoc] at hrest
      exact hrest

/-- And so may all of them. -/
theorem reach_acts (h : Reach (system rules phases) always s) (ran : List (Ran (Job ι) ε α))
    (hran : ∀ j ∈ ran, j.item ∈ s.running ∧ ∀ a ∈ j.appended, rules.may j.item.item a = true) :
    Reach (system rules phases) always { s with trace := s.trace ++ acts ran } := by
  induction ran generalizing s with
  | nil =>
      have hnil : (acts ([] : List (Ran (Job ι) ε α)) : List (Event ι α ρ)) = [] := rfl
      rw [hnil, List.append_nil]
      exact h
  | cons j ran ih =>
      obtain ⟨hrunning, hmay⟩ := hran j List.mem_cons_self
      have hrest := ih (reach_actions h hrunning j.appended hmay)
        fun i hi => hran i (List.mem_cons_of_mem _ hi)
      rw [List.append_assoc] at hrest
      exact hrest

/-- Jobs that have acted and can succeed return, one after the other, and the phase is over. -/
theorem reach_returned (running : List (Job ι)) (trace : List (Event ι α ρ)) (hne : running ≠ [])
    (h : Reach (system rules phases) always ⟨phase, running, later, none, trace⟩)
    (hdone : ∀ job ∈ running, acted job trace = true ∧
      ∃ outcome, rules.finish job.item outcome = .ok ()) :
    ∃ trace', Reach (system rules phases) always (enter (phase + 1) later trace') ∧
      actions trace' = actions trace := by
  induction running generalizing trace with
  | nil => exact absurd rfl hne
  | cons job rest ih =>
      obtain ⟨hacted, outcome, hok⟩ := hdone job List.mem_cons_self
      have hnext := reach_ret h List.mem_cons_self hacted hok
      rw [State.settle, List.erase_cons_head] at hnext
      have hsame : actions (trace ++ [.ret job outcome]) = actions trace := by simp
      cases rest with
      | nil => exact ⟨_, hnext, hsame⟩
      | cons next rest =>
          obtain ⟨trace', hreach, hactions⟩ := ih _ (List.cons_ne_nil _ _) hnext fun i hi => by
            obtain ⟨hi, hsucceeds⟩ := hdone i (List.mem_cons_of_mem _ hi)
            obtain ⟨action, hin⟩ := acted_iff.mp hi
            exact ⟨acted_iff.mpr ⟨action, List.mem_append_left _ hin⟩, hsucceeds⟩
          exact ⟨trace', hreach, hactions.trans hsame⟩

/-! ## Programs -/

/-- What a job does, and how it ends, is what the rules let it. -/
def Performs (rules : Rules ι α ρ ε) (log : σ → List α) (item : ι) (x : EStateM ε σ Unit) : Prop :=
  Extends log x fun r done => (∀ a ∈ done, rules.may item a = true) ∧
    (∃ outcome, rules.finish item outcome = r) ∧ (r = .ok () → done ≠ [])

/-- The program drains these jobs, in an order that depends on the state. -/
def Drains (run : Job ι → EStateM ε σ Unit) (js : List (Job ι)) (x : EStateM ε σ Unit) : Prop :=
  ∀ s, ∃ js' stray, js'.Perm js ∧ x s = drain run stray js' s

omit [DecidableEq ι] in
/-- A single job need not be drained. -/
theorem drains_single (run : Job ι → EStateM ε σ Unit) (job : Job ι) :
    Drains run [job] (run job) := by
  intro s
  refine ⟨[job], fun _ _ => false, List.Perm.refl _, ?_⟩
  cases hrun : run job s with
  | ok u s' => rw [drain_cons_ok _ _ hrun, drain_nil]
  | error e s' => rw [drain_cons_error _ _ hrun]; rfl

omit [DecidableEq ι] in
/-- A draining of other items is one of these jobs, if it does the same with them. -/
theorem drains_map {run : Job ι → EStateM ε σ Unit} {js : List (Job ι)} {f : Job ι → κ}
    {other : κ → EStateM ε σ Unit} {x : EStateM ε σ Unit} (stray : σ → κ → Bool)
    (hsame : ∀ job ∈ js, other (f job) = run job)
    (hx : ∀ s, ∃ items, items.Perm (js.map f) ∧ x s = drain other stray items s) :
    Drains run js x := by
  intro s
  obtain ⟨items, hperm, hrun⟩ := hx s
  -- an order of the items is an order of the jobs
  have hjobs := (congrFun (congrFun (List.eq_map_comp_perm f) items) js).mpr hperm
  obtain ⟨js', rfl, hjs⟩ := hjobs
  refine ⟨js', fun s job => stray s (f job), hjs, hrun.trans ?_⟩
  rw [drain_map stray js' fun job hjob => hsame job (hjs.mem_iff.mp hjob)]

/--
From the entry of a phase on the program goes one of the ways the phases can go: it does
what the jobs do there, and ends as the course ends.
-/
def TakesCourse (rules : Rules ι α ρ ε) (phases : List (Except ε (List ι))) (log : σ → List α)
    (phase : Nat) (later : List (Except ε (List ι))) (x : EStateM ε σ Unit) : Prop :=
  ∀ s trace, Reach (system rules phases) always (enter phase later trace) →
    ∃ t : State ι α ρ ε, Reach (system rules phases) always t ∧
      t.result = some (resultOf (x s)) ∧
      ∃ done, log (stateOf (x s)) = log s ++ done ∧ actions t.trace = actions trace ++ done

/-- Behind the last phase there is nothing to do. -/
theorem takes_nil : TakesCourse rules phases log phase [] (pure ()) :=
  fun _ _ h => ⟨_, h, rfl, [], (List.append_nil _).symm, (List.append_nil _).symm⟩

/-- A phase that cannot be entered. -/
theorem takes_error {e : ε} {x : EStateM ε σ Unit} (hx : ∀ s, x s = .error e s) :
    TakesCourse rules phases log phase (.error e :: later) x := by
  intro s trace h
  rw [hx]
  exact ⟨_, h, rfl, [], (List.append_nil _).symm, (List.append_nil _).symm⟩

/-- **One phase**, and what comes after it. -/
theorem takes_cons {run : Job ι → EStateM ε σ Unit} {items : List ι} {x rest : EStateM ε σ Unit}
    (hrun : ∀ job, Performs rules log job.item (run job)) (hx : Drains run (jobs phase items) x)
    (hrest : TakesCourse rules phases log (phase + 1) later rest) :
    TakesCourse rules phases log phase (.ok items :: later) (x >>= fun _ => rest) := by
  intro s trace h
  obtain ⟨js, stray, hjs, hdrain⟩ := hx s
  cases items with
  | nil =>
      -- an empty phase is over at once
      obtain rfl := List.perm_nil.mp hjs
      rw [drain_nil] at hdrain
      rw [run_bind_ok _ hdrain]
      exact hrest s trace h
  | cons item items =>
      have hspec : Extends log (drain run stray js) _ := Extends.drain hrun js
      obtain ⟨done, hdone, ran, hran⟩ := hspec s
      rw [← hdrain] at hdone hran
      have hrunning : ∀ j ∈ ran, j.item ∈ jobs phase (item :: items) := fun j hj =>
        hjs.mem_iff.mp (hran.sublist.subset (List.mem_map_of_mem hj))
      have hreach : Reach (system rules phases) always
          ⟨phase, jobs phase (item :: items), later, none, trace ++ acts ran⟩ :=
        reach_acts (s := ⟨phase, jobs phase (item :: items), later, none, trace⟩) h ran
          fun j hj => ⟨hrunning j hj, (hran.spec j hj).1⟩
      have hactions : actions (trace ++ acts ran) = actions trace ++ done := by
        rw [actions_append, actions_acts, hran.appended]
      cases hend : x s with
      | error e s' =>
          -- the course ends with the job that failed
          rw [hend] at hdone hran
          obtain ⟨j, hj, hfails⟩ := hran.error e rfl
          obtain ⟨-, ⟨outcome, hfinish⟩, -⟩ := hran.spec j hj
          rw [hfails] at hfinish
          rw [run_bind_error _ hend]
          refine ⟨_, reach_fail hreach (hrunning j hj) hfinish, rfl, done, hdone, ?_⟩
          rw [actions_append, hactions, actions_ret, List.append_nil]
      | ok u s' =>
          rw [hend] at hdone hran
          obtain ⟨hall, hoks⟩ := hran.ok rfl
          -- every job ran, and returns
          obtain ⟨trace', hnext, hsame⟩ := reach_returned _ _ (by simp [jobs]) hreach
            fun job hjob => by
              rw [← hjs.mem_iff, ← hall] at hjob
              obtain ⟨j, hj, rfl⟩ := List.mem_map.mp hjob
              obtain ⟨-, ⟨outcome, hfinish⟩, hacts⟩ := hran.spec j hj
              rw [hoks j hj] at hfinish
              exact ⟨acted_acts trace hj (hacts (hoks j hj)), outcome, hfinish⟩
          obtain ⟨t, ht, hresult, more, hmore, htrace⟩ := hrest s' trace' hnext
          rw [run_bind_ok _ hend]
          refine ⟨t, ht, hresult, done ++ more, ?_, ?_⟩
          · rw [hmore, ← List.append_assoc]
            exact congrArg (· ++ more) hdone
          · rw [htrace, hsame, hactions, List.append_assoc]

/-- **The whole program takes one of the courses.** -/
theorem TakesCourse.course {x : EStateM ε σ Unit} (h : TakesCourse rules phases log 0 phases x)
    (s : σ) :
    ∃ t : State ι α ρ ε, Reach (system rules phases) always t ∧ t.result = some (resultOf (x s)) ∧
      log (stateOf (x s)) = log s ++ actions t.trace := by
  obtain ⟨t, ht, hresult, done, hdone, htrace⟩ := h s [] (Reach.init rfl)
  refine ⟨t, ht, hresult, ?_⟩
  rw [hdone, htrace]
  rfl

end Phases
