import AxelarRelayer.Task.RequestPermit

/-!
# The calls that share a sender

`request_step_cases` is the only place where the step is unfolded: a step changes one call and
the semaphore, in one of the ways of `Move`. Two invariants rest on it.

* `PermitInv`: the semaphore and the calls tell the same story. A call is known to the
  semaphore exactly while it acquires a permit or uses one, so a call that sleeps between
  two requests, or is over, holds none.
* `CallInv`: what the others do leaves no trace in a call. Whatever the interleaving, a
  finished call is a run of `send` on its own.
-/

namespace AxelarRelayer.Proof

open AxelarRelayer Http Runs

variable {ι Value : Type}
variable {s s' : RetryingHttpSender ι Value} {e : Http.Event ι Value} {i : ι} {max : Nat}
variable {permit permit' : Fair.Semaphore ι} {call call' : Option (Call Value)}

/-! ## The books -/

/-- The call is in `send_internal`: it waits for a permit or uses one. -/
def Stage.UsesPermit : Stage Value → Prop
  | .acquiring | .requesting => True
  | .backingOff | .done _ => False

theorem not_usesPermit_proceed (outcome : Except Http.ClientError Value) (inTime : Bool) :
    ¬ Stage.UsesPermit (proceed outcome inTime) := by
  unfold proceed
  split
  · exact id
  · exact id

/-- What the semaphore and the calls say of each other. -/
structure PermitInv (max : Nat) (s : RetryingHttpSender ι Value) : Prop where
  sound : s.requestPermit.Sound max
  known : ∀ i, i ∈ s.requestPermit.members ↔
    ∃ call, s.calls i = some call ∧ Stage.UsesPermit call.stage
  held : ∀ i outcomes, s.calls i = some ⟨.requesting, outcomes⟩ → i ∈ s.requestPermit.holding

theorem permitInv_new (max : Nat) :
    PermitInv max (RetryingHttpSender.new max : RetryingHttpSender ι Value) where
  sound := Fair.Semaphore.sound_new max
  known := by
    intro i
    constructor
    · intro hmem
      cases hmem
    · intro hcall
      obtain ⟨call, hcall, -⟩ := hcall
      cases hcall
  held := by
    intro i outcomes hcall
    cases hcall

/-- A move keeps the books: for the call it is about, and for everybody else. -/
structure KeepsBooks (max : Nat) (i : ι) (permit : Fair.Semaphore ι) (call' : Option (Call Value))
    (permit' : Fair.Semaphore ι) : Prop where
  sound : permit'.Sound max
  own : i ∈ permit'.members ↔ ∃ call, call' = some call ∧ Stage.UsesPermit call.stage
  ownHeld : ∀ outcomes, call' = some ⟨.requesting, outcomes⟩ → i ∈ permit'.holding
  others : ∀ j, j ≠ i → (j ∈ permit'.members ↔ j ∈ permit.members)
  othersHeld : ∀ j, j ≠ i → j ∈ permit.holding → j ∈ permit'.holding

theorem keepsBooks_acquire (hsound : permit.Sound max) (hfresh : i ∉ permit.members)
    (outcomes : List (Except Http.ClientError Value)) :
    KeepsBooks max i permit (some ⟨.acquiring, outcomes⟩) (permit.acquire i) where
  sound := Fair.Semaphore.sound_acquire hsound hfresh
  own := by
    constructor
    · intro _
      exact ⟨_, rfl, trivial⟩
    · intro _
      exact Fair.Semaphore.mem_members_acquire.mpr (Or.inl rfl)
  ownHeld := by
    intro outcomes' hcall
    cases hcall
  others := by
    intro j hne
    rw [Fair.Semaphore.mem_members_acquire]
    exact ⟨fun hmem => hmem.resolve_left hne, Or.inr⟩
  othersHeld := fun j _ hheld => Fair.Semaphore.holding_acquire hheld

theorem holding_of_no_permits (hinv : PermitInv 0 s) : s.requestPermit.holding = [] := by
  have hbalanced := hinv.sound.balanced
  exact List.length_eq_zero_iff.mp (by omega)

/-- The requests that end in a run. -/
def answersIn (es : List (Http.Event ι Value)) : Nat :=
  es.countP fun
    | .answer _ _ _ => true
    | _ => false

theorem answersIn_cons (es : List (Http.Event ι Value)) :
    answersIn (e :: es) = answersIn [e] + answersIn es := by
  simp only [answersIn, List.countP_cons, List.countP_nil]
  omega

variable [DecidableEq ι]

/-! ## The step, once -/

/-- What one step does to its call, given the semaphore before it. -/
inductive Move (i : ι) (permit : Fair.Semaphore ι) :
    Http.Event ι Value → Option (Call Value) → Option (Call Value) → Fair.Semaphore ι → Prop where
  | sent : Move i permit (.send i) none (some ⟨.acquiring, []⟩) (permit.acquire i)
  | polled {outcomes : List (Except Http.ClientError Value)} : i ∈ permit.holding →
      Move i permit (.poll i) (some ⟨.acquiring, outcomes⟩) (some ⟨.requesting, outcomes⟩) permit
  | answered {outcomes : List (Except Http.ClientError Value)}
      {outcome : Except Http.ClientError Value} {inTime : Bool} :
      Move i permit (.answer i outcome inTime) (some ⟨.requesting, outcomes⟩)
        (some ⟨proceed outcome inTime, outcomes ++ [outcome]⟩) (permit.release i)
  | woken {outcomes : List (Except Http.ClientError Value)} :
      Move i permit (.wake i) (some ⟨.backingOff, outcomes⟩) (some ⟨.acquiring, outcomes⟩)
        (permit.acquire i)
  | cancelled {call : Call Value} :
      Move i permit (.cancel i) (some call) none (permit.leave i)

theorem request_step_cases (h : s.step e = some s') : ∃ i call permit,
    s' = s.set i call permit ∧ Move i s.requestPermit e (s.calls i) call permit := by
  cases e with
  | send i =>
      simp only [RetryingHttpSender.step] at h
      split at h
      · rename_i hcall
        exact ⟨i, _, _, (Option.some.inj h).symm, hcall ▸ Move.sent⟩
      · cases h
  | poll i =>
      simp only [RetryingHttpSender.step] at h
      split at h
      · rename_i outcomes hcall
        split at h
        · rename_i hheld
          exact ⟨i, _, _, (Option.some.inj h).symm, hcall ▸ Move.polled hheld⟩
        · cases h
      · cases h
  | answer i outcome inTime =>
      simp only [RetryingHttpSender.step] at h
      split at h
      · rename_i outcomes hcall
        exact ⟨i, _, _, (Option.some.inj h).symm, hcall ▸ Move.answered⟩
      · cases h
  | wake i =>
      simp only [RetryingHttpSender.step] at h
      split at h
      · rename_i outcomes hcall
        exact ⟨i, _, _, (Option.some.inj h).symm, hcall ▸ Move.woken⟩
      · cases h
  | cancel i =>
      simp only [RetryingHttpSender.step] at h
      split at h
      · rename_i call hcall
        exact ⟨i, _, _, (Option.some.inj h).symm, hcall ▸ Move.cancelled⟩
      · cases h

/-! ## The permits -/

theorem keepsBooks_move (hmove : Move i permit e call call' permit') (hsound : permit.Sound max)
    (hown : i ∈ permit.members ↔ ∃ c, call = some c ∧ Stage.UsesPermit c.stage)
    (hheld : ∀ outcomes, call = some ⟨.requesting, outcomes⟩ → i ∈ permit.holding) :
    KeepsBooks max i permit call' permit' := by
  cases hmove with
  | sent =>
      refine keepsBooks_acquire hsound ?_ []
      intro hmem
      obtain ⟨c, hc, -⟩ := hown.mp hmem
      cases hc
  | @polled outcomes hpermit =>
      exact
        { sound := hsound
          own := ⟨fun _ => ⟨_, rfl, trivial⟩, fun _ => List.mem_append_right _ hpermit⟩
          ownHeld := fun _ _ => hpermit
          others := fun _ _ => Iff.rfl
          othersHeld := fun _ _ h => h }
  | @answered outcomes outcome inTime =>
      have hpermit := hheld outcomes rfl
      have hmem := fun j => Fair.Semaphore.mem_members_release (j := j) hsound hpermit
      refine
        { sound := Fair.Semaphore.sound_release hsound hpermit
          own := ⟨fun h => absurd rfl ((hmem i).mp h).1, ?_⟩
          ownHeld := ?_
          others := fun j hne => ⟨fun h => ((hmem j).mp h).2, fun h => (hmem j).mpr ⟨hne, h⟩⟩
          othersHeld := fun j hne h => Fair.Semaphore.holding_release hne h }
      · -- what follows a request needs no permit
        intro h
        obtain ⟨c, hc, huses⟩ := h
        cases hc
        exact absurd huses (not_usesPermit_proceed outcome inTime)
      · intro outcomes' hc
        have hstage := congrArg Call.stage (Option.some.inj hc)
        have hnot := not_usesPermit_proceed outcome inTime
        simp only at hstage
        rw [hstage] at hnot
        exact absurd trivial hnot
  | @woken outcomes =>
      refine keepsBooks_acquire hsound ?_ outcomes
      intro hmem
      obtain ⟨c, hc, huses⟩ := hown.mp hmem
      cases hc
      exact huses
  | @cancelled c =>
      have hmem := fun j => Fair.Semaphore.mem_members_leave (i := i) (j := j) hsound
      refine
        { sound := Fair.Semaphore.sound_leave hsound
          own := ⟨fun h => absurd rfl ((hmem i).mp h).1, ?_⟩
          ownHeld := ?_
          others := fun j hne => ⟨fun h => ((hmem j).mp h).2, fun h => (hmem j).mpr ⟨hne, h⟩⟩
          othersHeld := fun j hne h => Fair.Semaphore.holding_leave hne h }
      · intro h
        obtain ⟨c', hc', -⟩ := h
        cases hc'
      · intro outcomes hc
        cases hc

theorem permitInv_step (h : PermitInv max s) (hs : s.step e = some s') : PermitInv max s' := by
  obtain ⟨i, call, permit, rfl, hmove⟩ := request_step_cases hs
  have hbooks := keepsBooks_move hmove h.sound (h.known _) (h.held _)
  refine ⟨hbooks.sound, ?_, ?_⟩
  · intro j
    by_cases hj : j = i
    · rw [hj, RetryingHttpSender.set_calls_self]
      exact hbooks.own
    · rw [RetryingHttpSender.set_calls_of_ne s hj]
      exact (hbooks.others j hj).trans (h.known j)
  · intro j outcomes hcall
    by_cases hj : j = i
    · rw [hj, RetryingHttpSender.set_calls_self] at hcall
      exact hj ▸ hbooks.ownHeld outcomes hcall
    · rw [RetryingHttpSender.set_calls_of_ne s hj] at hcall
      exact hbooks.othersHeld j hj (h.held j outcomes hcall)

theorem permitInv_reach (h : Reach (requests ι Value max) always s) : PermitInv max s := by
  refine Reach.invariant ?_ ?_ h
  · intro s hinit
    exact hinit ▸ permitInv_new max
  · intro s e s' _ hinv _ hs
    exact permitInv_step hinv hs

/-- One permit, two calls: the second one queues up behind the request of the first. -/
def queueOfTwo : List (Http.Event Nat Unit) := [.send 0, .send 1, .poll 0]

/-- A call goes on, by itself or because its request ends. -/
def Advances : Http.Event ι Value → Prop
  | .poll _ | .answer _ _ _ | .wake _ => True
  | .send _ | .cancel _ => False

/-- A call is not over. -/
def Unfinished (s : RetryingHttpSender ι Value) (i : ι) : Prop :=
  ∃ call, s.calls i = some call ∧ ∀ result, call.stage ≠ .done result

theorem advances_of_held (hinv : PermitInv max s) (hheld : i ∈ s.requestPermit.holding) :
    ∃ e, Advances e ∧ (s.step e).isSome = true := by
  obtain ⟨call, hcall, huses⟩ := (hinv.known i).mp (List.mem_append_right _ hheld)
  obtain ⟨stage, outcomes⟩ := call
  cases stage with
  | acquiring =>
      refine ⟨.poll i, trivial, ?_⟩
      simp only [RetryingHttpSender.step, hcall, if_pos hheld, Option.isSome_some]
  | requesting =>
      refine ⟨.answer i (.error ⟨.io ""⟩) true, trivial, ?_⟩
      simp only [RetryingHttpSender.step, hcall, Option.isSome_some]
  | backingOff => cases huses
  | done result => cases huses

theorem advances_of_unfinished (hinv : PermitInv max s) (hmax : 0 < max)
    (hcall : Unfinished s i) : ∃ e, Advances e ∧ (s.step e).isSome = true := by
  obtain ⟨⟨stage, outcomes⟩, hcall, hlive⟩ := hcall
  cases stage with
  | backingOff =>
      refine ⟨.wake i, trivial, ?_⟩
      simp only [RetryingHttpSender.step, hcall, Option.isSome_some]
  | done result => exact absurd rfl (hlive result)
  | requesting => exact advances_of_held hinv (hinv.held i outcomes hcall)
  | acquiring =>
      -- in the queue or with a permit: either way somebody holds one
      cases List.mem_append.mp ((hinv.known i).mpr ⟨_, hcall, trivial⟩) with
      | inl hwaits =>
          obtain ⟨j, hheld⟩ := hinv.sound.held_of_waiting hmax hwaits
          exact advances_of_held hinv hheld
      | inr hheld => exact advances_of_held hinv hheld

/-- No call has got past `acquire_owned`. -/
def AllAcquiring (s : RetryingHttpSender ι Value) : Prop :=
  ∀ i call, s.calls i = some call → call.stage = .acquiring

theorem allAcquiring_step (hinv : PermitInv 0 s) (hall : AllAcquiring s)
    (hs : s.step e = some s') : AllAcquiring s' := by
  obtain ⟨i, call', permit, rfl, hmove⟩ := request_step_cases hs
  intro j call hcall
  by_cases hj : j = i
  · rw [hj, RetryingHttpSender.set_calls_self] at hcall
    have hbefore := hall i
    generalize s.calls i = before at hmove hbefore
    cases hmove with
    | sent => exact Option.some.inj hcall ▸ rfl
    | polled hheld =>
        rw [holding_of_no_permits hinv] at hheld
        cases hheld
    -- an answer and a sleep come after a request, and there was none
    | answered => cases hbefore _ rfl
    | woken => cases hbefore _ rfl
    | cancelled => cases hcall
  · rw [RetryingHttpSender.set_calls_of_ne s hj] at hcall
    exact hall j call hcall

theorem allAcquiring_reach (h : Reach (requests ι Value 0) always s) : AllAcquiring s := by
  refine Reach.invariant (P := AllAcquiring) ?_ ?_ h
  · intro s hinit i call hcall
    rw [hinit] at hcall
    cases hcall
  · intro s e s' hreach hall _ hs
    exact allAcquiring_step (permitInv_reach hreach) hall hs

/-- Without permits every call stays where it started. -/
theorem stuck_without_permits (h : Reach (requests ι Value 0) always s) (hadvances : Advances e) :
    s.step e = none := by
  have hinv := permitInv_reach h
  cases hs : s.step e with
  | none => rfl
  | some s' =>
      obtain ⟨i, call', permit, -, hmove⟩ := request_step_cases hs
      have hbefore := allAcquiring_reach h i
      generalize s.calls i = before at hmove hbefore
      cases hmove with
      | sent => cases hadvances
      | polled hheld =>
          rw [holding_of_no_permits hinv] at hheld
          cases hheld
      | answered => cases hbefore _ rfl
      | woken => cases hbefore _ rfl
      | cancelled => cases hadvances

/-- A fresh sender after its first call. -/
def firstCall [Inhabited ι] (max : Nat) : RetryingHttpSender ι Value :=
  (RetryingHttpSender.new max).set default (some ⟨.acquiring, []⟩)
    ((Fair.Semaphore.new max).acquire default)

/--
**Somebody can always go on, if and only if there is a permit to go round.** With
`max_concurrent_rpc_requests` at zero, which the configuration admits, the first call waits
for ever; with one permit or more no order of calls, answers and aborted tasks deadlocks.
-/
theorem requests_progress_iff [Inhabited ι] (max : Nat) :
    (∀ s : RetryingHttpSender ι Value, Reach (requests ι Value max) always s →
      (∃ i, Unfinished s i) → ∃ e, Advances e ∧ (s.step e).isSome = true) ↔ 0 < max := by
  constructor
  · intro hprogress
    by_cases hmax : max = 0
    · subst hmax
      -- one call, and nothing else
      have hreach : Reach (requests ι Value 0) always (firstCall 0) :=
        Reach.tail (e := .send default) (Reach.init rfl) trivial rfl
      obtain ⟨e, hadvances, hsome⟩ := hprogress (firstCall 0) hreach
        ⟨default, _, RetryingHttpSender.set_calls_self .., nofun⟩
      rw [stuck_without_permits hreach hadvances] at hsome
      cases hsome
    · exact Nat.pos_of_ne_zero hmax
  · intro hmax s hreach hunfinished
    obtain ⟨i, hcall⟩ := hunfinished
    exact advances_of_unfinished (permitInv_reach hreach) hmax hcall

/-! ## First come, first served -/

/-- `i` is not given its request yet, and is not given up. -/
def LeavesAlone (i : ι) (e : Http.Event ι Value) : Prop := e ≠ .poll i ∧ e ≠ .cancel i

/-- A call with `n` answers to go before it has its permit. -/
structure InLine (i : ι) (n : Nat) (s : RetryingHttpSender ι Value) : Prop where
  acquiring : ∃ outcomes, s.calls i = some ⟨.acquiring, outcomes⟩
  served : s.requestPermit.Served i n

theorem inLine_step {n : Nat} (h : InLine i n s) (hown : LeavesAlone i e)
    (hs : s.step e = some s') : InLine i (n - answersIn [e]) s' := by
  obtain ⟨j, call', permit, rfl, hmove⟩ := request_step_cases hs
  obtain ⟨outcomes, hcall⟩ := h.acquiring
  have hne : i ≠ j := by
    -- a call that acquires can only be polled or cancelled
    intro heq
    rw [← heq, hcall] at hmove
    cases hmove with
    | polled => exact hown.1 rfl
    | cancelled => exact hown.2 rfl
  refine ⟨⟨outcomes, (RetryingHttpSender.set_calls_of_ne s hne ..).trans hcall⟩, ?_⟩
  have hserved := h.served
  generalize s.calls j = before at hmove
  cases hmove with
  | sent => exact Fair.Semaphore.served_acquire hserved
  | polled => exact hserved
  | answered =>
      -- the one step that brings a permit back and counts
      cases n with
      | zero => exact Or.inl (Fair.Semaphore.holding_release hne hserved.holds)
      | succ n => exact Fair.Semaphore.served_release hne hserved
  | woken => exact Fair.Semaphore.served_acquire hserved
  | cancelled => exact Fair.Semaphore.served_leave hne hserved

theorem inLine_replay {es : List (Http.Event ι Value)} {n : Nat} (h : InLine i n s)
    (hown : ∀ e, e ∈ es → LeavesAlone i e)
    (hrun : replay (requests ι Value max) always s es = some s') :
    InLine i (n - answersIn es) s' := by
  induction es generalizing s n with
  | nil => exact Option.some.inj hrun ▸ h
  | cons e es ih =>
      rw [replay_always_cons] at hrun
      obtain ⟨s₁, hs, hrest⟩ := Option.bind_eq_some_iff.mp hrun
      have hfirst := inLine_step h (hown e List.mem_cons_self) hs
      have hnext := ih hfirst (fun e' he' => hown e' (List.mem_cons_of_mem e he')) hrest
      rw [answersIn_cons, ← Nat.sub_sub]
      exact hnext

/--
**Calls are served in the order they queue up.** A call with `k` others in front of it has
its permit, and its request can go out, by the time `k + 1` requests have ended: whoever
arrives later, sleeps, wakes up or gives up in between makes no difference.
-/
theorem served_in_order (max : Nat) (i : ι) (s s' : RetryingHttpSender ι Value)
    (es : List (Http.Event ι Value)) (hreach : Reach (requests ι Value max) always s)
    (hwaits : i ∈ s.requestPermit.waiting) (hown : ∀ e, e ∈ es → LeavesAlone i e)
    (hrun : replay (requests ι Value max) always s es = some s')
    (hanswers : s.requestPermit.waiting.idxOf i < answersIn es) :
    i ∈ s'.requestPermit.holding ∧ (s'.step (.poll i)).isSome = true := by
  have hinv := permitInv_reach hreach
  have hacquiring : ∃ outcomes, s.calls i = some ⟨.acquiring, outcomes⟩ := by
    obtain ⟨⟨stage, outcomes⟩, hcall, huses⟩ := (hinv.known i).mp (List.mem_append_left _ hwaits)
    cases stage with
    | acquiring => exact ⟨outcomes, hcall⟩
    | requesting =>
        -- a request that is out holds a permit, and is not in the queue
        have hapart := (List.nodup_append.mp hinv.sound.apart).2.2
        exact absurd rfl (hapart i hwaits i (hinv.held i outcomes hcall))
    | backingOff => cases huses
    | done result => cases huses
  have hline : InLine i (s.requestPermit.waiting.idxOf i + 1) s :=
    ⟨hacquiring, Or.inr ⟨hwaits, Nat.lt_succ_self _⟩⟩
  have hend := inLine_replay hline hown hrun
  rw [Nat.sub_eq_zero_of_le hanswers] at hend
  have hheld := hend.served.holds
  obtain ⟨outcomes, hcall⟩ := hend.acquiring
  refine ⟨hheld, ?_⟩
  simp only [RetryingHttpSender.step, hcall, if_pos hheld, Option.isSome_some]

/-- The requests of the first two calls end, and the third call is next. -/
def twoAnswers : List (Http.Event Nat Unit) :=
  [.answer 0 (.ok ()) true, .poll 1, .answer 1 (.error ⟨.io "reset"⟩) true]

theorem served_in_order_third :
    ∃ s s', replay (requests Nat Unit 1) always (.new 1) (queueOfTwo ++ [.send 2]) = some s ∧
      replay (requests Nat Unit 1) always s twoAnswers = some s' ∧
      2 ∈ s'.requestPermit.holding ∧ (s'.step (.poll 2)).isSome = true := by
  have hrun : replay (requests Nat Unit 1) always (.new 1) (queueOfTwo ++ [.send 2]) = some _ := rfl
  refine ⟨_, _, hrun, rfl, ?_⟩
  refine served_in_order 1 2 _ _ twoAnswers (Reach.of_replay (Reach.init rfl) hrun) ?_ ?_ rfl ?_
  · exact List.mem_cons_of_mem 1 List.mem_cons_self
  · intro e he
    simp only [twoAnswers, List.mem_cons, List.not_mem_nil, or_false] at he
    obtain rfl | rfl | rfl := he
    · exact ⟨nofun, nofun⟩
    · exact ⟨nofun, nofun⟩
    · exact ⟨nofun, nofun⟩
  · exact Nat.lt_succ_self 1

/-! ## Each call on its own -/

/-- Requests that `retry` goes on after. -/
def AllTransient (outcomes : List (Except Http.ClientError Value)) : Prop :=
  ∀ outcome, outcome ∈ outcomes → ¬ Retry.Final (sendInternal outcome)

/-- What a call has been through so far. -/
structure CallInv (call : Call Value) : Prop where
  settled : ∀ result, call.stage = .done result → ∃ before last, call.outcomes = before ++ [last] ∧
    AllTransient before ∧ result = Retry.report (sendInternal last)
  live : (∀ result, call.stage ≠ .done result) → AllTransient call.outcomes

theorem callInv_live {stage : Stage Value} {outcomes : List (Except Http.ClientError Value)}
    (hlive : ∀ result, stage ≠ .done result) (h : AllTransient outcomes) :
    CallInv ⟨stage, outcomes⟩ :=
  ⟨fun result hdone => absurd hdone (hlive result), fun _ => h⟩

theorem callInv_proceed {outcomes : List (Except Http.ClientError Value)}
    (h : AllTransient outcomes) (outcome : Except Http.ClientError Value) (inTime : Bool) :
    CallInv ⟨proceed outcome inTime, outcomes ++ [outcome]⟩ := by
  unfold proceed
  split
  · refine ⟨?_, fun hlive => absurd rfl (hlive _)⟩
    intro result hdone
    exact ⟨outcomes, outcome, rfl, h, (Stage.done.inj hdone).symm⟩
  · rename_i hretried
    refine callInv_live nofun ?_
    intro o ho
    cases List.mem_append.mp ho with
    | inl hbefore => exact h o hbefore
    | inr hlast =>
        rw [List.mem_singleton.mp hlast]
        exact fun hfinal => hretried (Or.inl hfinal)

theorem callInv_move {after : Call Value} (hmove : Move i permit e call (some after) permit')
    (h : ∀ c, call = some c → CallInv c) : CallInv after := by
  cases hmove with
  | sent => exact callInv_live nofun nofun
  | polled =>
      refine callInv_live nofun ?_
      exact (h _ rfl).live nofun
  | answered => exact callInv_proceed ((h _ rfl).live nofun) _ _
  | woken =>
      refine callInv_live nofun ?_
      exact (h _ rfl).live nofun

/-- Every call of the sender meets the invariant. -/
def CallsInv (s : RetryingHttpSender ι Value) : Prop :=
  ∀ i call, s.calls i = some call → CallInv call

theorem callsInv_step (h : CallsInv s) (hs : s.step e = some s') : CallsInv s' := by
  obtain ⟨i, call', permit, rfl, hmove⟩ := request_step_cases hs
  intro j c hcall
  by_cases hj : j = i
  · rw [hj, RetryingHttpSender.set_calls_self] at hcall
    subst hcall
    exact callInv_move hmove (h i)
  · rw [RetryingHttpSender.set_calls_of_ne s hj] at hcall
    exact h j c hcall

theorem callsInv_reach (h : Reach (requests ι Value max) always s) : CallsInv s := by
  refine Reach.invariant (P := CallsInv) ?_ ?_ h
  · intro s hinit i call hcall
    rw [hinit] at hcall
    cases hcall
  · intro s e s' _ ih _ hs
    exact callsInv_step ih hs

/-- What a call makes of the requests it has made, if `outcomes` is how they ended. -/
structure RunsAlone (call : Call Value) (outcomes : Nat → Except Http.ClientError Value) :
    Prop where
  settled : ∀ result, call.stage = .done result →
    ∃ retries, Http.send outcomes retries = (result, call.outcomes.length)
  live : (∀ result, call.stage ≠ .done result) → ∀ retries, call.outcomes.length ≤ retries →
    call.outcomes.length < (Http.send outcomes retries).2

/--
**Sharing changes no result.** Whatever the other calls do, a call that is over returned
what `send` returns when it runs alone and its requests end the same way, after the same
number of requests; and a call that is not over is one that `send` goes on with.
-/
theorem calls_run_alone (max : Nat) (s : RetryingHttpSender ι Value)
    (hreach : Reach (requests ι Value max) always s) (i : ι) (call : Call Value)
    (hcall : s.calls i = some call) (outcomes : Nat → Except Http.ClientError Value)
    (hsame : ∀ n outcome, call.outcomes[n]? = some outcome → outcomes n = outcome) :
    RunsAlone call outcomes := by
  have hinv := callsInv_reach hreach i call hcall
  refine ⟨?_, ?_⟩
  · intro result hdone
    obtain ⟨before, last, heq, hbefore, hresult⟩ := hinv.settled result hdone
    refine ⟨before.length, ?_⟩
    have hattempts : ∀ n, n < before.length → ¬ Retry.Final (sendInternal (outcomes (0 + n))) := by
      intro n hn
      have hn' : call.outcomes[n]? = some before[n] := by
        rw [heq, List.getElem?_append_left hn, List.getElem?_eq_getElem hn]
      rw [Nat.zero_add, hsame n _ hn']
      exact hbefore _ (List.getElem_mem hn)
    have hlast : outcomes before.length = last := hsame _ _ (by rw [heq, List.getElem?_concat_length])
    unfold Http.send
    rw [Retry.retry_all_transient _ before.length 0 hattempts, Nat.zero_add, hlast, ← hresult, heq]
    simp only [List.length_append, List.length_singleton]
  · intro hlive retries hle
    have htransient := hinv.live hlive
    obtain ⟨k, hk, -, hstop, hsend⟩ := Retry.retry_spec (fun n => sendInternal (outcomes n)) retries 0
    unfold Http.send
    rw [hsend]
    by_cases hlt : k < call.outcomes.length
    · -- the loop would have stopped at a request that is known to be transient
      have hfinal := hstop (Nat.lt_of_lt_of_le hlt hle)
      rw [Nat.zero_add, hsame k _ (List.getElem?_eq_getElem hlt)] at hfinal
      exact absurd hfinal (htransient _ (List.getElem_mem hlt))
    · simp only
      omega

/-- A call that goes through at the second attempt, with another call in between. -/
def secondAttempt : List (Http.Event Nat Unit) :=
  [.send 0, .send 1, .poll 0, .answer 0 (.error ⟨.io "reset"⟩) true, .poll 1, .wake 0,
    .answer 1 (.ok ()) true, .poll 0, .answer 0 (.ok ()) true]

theorem calls_run_alone_secondAttempt :
    ∃ s call, replay (requests Nat Unit 1) always (.new 1) secondAttempt = some s ∧
      s.calls 0 = some call ∧ call.stage = .done (.ok ()) ∧
      RunsAlone call fun n => if n = 0 then .error ⟨.io "reset"⟩ else .ok () := by
  have hrun : replay (requests Nat Unit 1) always (.new 1) secondAttempt = some _ := rfl
  refine ⟨_, ⟨.done (.ok ()), [.error ⟨.io "reset"⟩, .ok ()]⟩, hrun, rfl, rfl, ?_⟩
  refine calls_run_alone 1 _ (Reach.of_replay (Reach.init rfl) hrun) 0 _ rfl _ ?_
  intro n outcome hn
  cases n with
  | zero => exact Option.some.inj hn
  | succ n =>
      cases n with
      | zero => exact Option.some.inj hn
      | succ n => cases hn

end AxelarRelayer.Proof
