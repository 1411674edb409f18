import AxelarRelayer.Proof.TaskCursor
import AxelarRelayer.Task.TaskStream

/-!
# Lost wake-ups

A poll takes at most one task from the receiver. When it does, the receiver has not
answered `Pending` and does not keep the waker; so unless the front future is done in
that very poll, or something else wakes the task, the poll function returns `Pending`
and whatever else is on the channel waits for a background future.

`keepsWakeup_iff` is the exact condition for one poll. Under it an idle stream always
has its waker with the receiver, and the channel is empty (`WakerInv`).
-/

namespace AxelarRelayer.Proof

open AxelarRelayer AxelarRelayer.Task Runs

variable {s s' : TaskStream}

/-- `Pending` with a receiver that answered `Pending` too, or with the task woken again. -/
def KeepsWakeup (record : PollRecord) : Prop :=
  record.returnedPending = true → record.isTerminated = false →
    record.receiver.isPending = true ∨ record.rewoken = true

/-- The front future has a result, or comes to one during the poll. -/
def FrontDone (pusher : SolanaTxPusher) (progress : List (Nat × Except Report Unit)) : Prop :=
  (∃ future rest, pusher.futuresOrdered = future :: rest ∧ future.result.isSome = true) ∨
    ∃ done ∈ progress, done.1 = 0

/-- A poll that takes a task from the receiver finds the front future done, or is woken again. -/
def TakesNoneInVain (s : TaskStream) : TaskStreamEvent → Prop
  | .poll progress rewoken _ =>
      s.pusher.channel ≠ [] → FrontDone s.pusher progress ∨ rewoken = true
  | _ => True

/-! ## One poll -/

/-- A completion leaves the front future in place, done if it was or if it is the one. -/
theorem complete_front {pusher : SolanaTxPusher} {future : TaskFuture} {rest : List TaskFuture}
    (hqueue : pusher.futuresOrdered = future :: rest) (done : Nat × Except Report Unit) :
    ∃ future' rest', (pusher.complete done).futuresOrdered = future' :: rest' ∧
      (future'.result.isSome = true ↔ future.result.isSome = true ∨ done.1 = 0) := by
  obtain ⟨n, result⟩ := done
  cases n with
  -- the front future itself; a future that is done stays done
  | zero =>
      cases hresult : future.result with
      | some old =>
          have hsame : pusher.complete (0, result) = pusher := by
            simp only [SolanaTxPusher.complete, hqueue, List.getElem?_cons_zero]
            split
            · rename_i hnone
              obtain rfl := Option.some.inj hnone
              cases hresult
            · rfl
          rw [hsame]
          exact ⟨future, rest, hqueue, by simp [hresult]⟩
      | none =>
          have hset : (pusher.complete (0, result)).futuresOrdered =
              ⟨future.task, some result⟩ :: rest := by
            obtain ⟨task, _⟩ := future
            obtain rfl : _ = none := hresult
            simp only [SolanaTxPusher.complete, hqueue, List.getElem?_cons_zero, List.set_cons_zero]
          exact ⟨_, _, hset, by simp⟩
  -- a completion further back
  | succ n =>
      simp only [SolanaTxPusher.complete, hqueue, List.getElem?_cons_succ]
      split
      · exact ⟨future, _, rfl, by simp⟩
      · exact ⟨future, rest, hqueue, by simp⟩

/-- What the front future is like after all completions of a poll. -/
theorem progress_front {pusher : SolanaTxPusher} {future : TaskFuture} {rest : List TaskFuture}
    (hqueue : pusher.futuresOrdered = future :: rest)
    (progress : List (Nat × Except Report Unit)) :
    ∃ future' rest', (progress.foldl SolanaTxPusher.complete pusher).futuresOrdered =
      future' :: rest' ∧ (future'.result.isSome = true ↔
        future.result.isSome = true ∨ ∃ done ∈ progress, done.1 = 0) := by
  induction progress generalizing pusher future rest with
  | nil => exact ⟨future, rest, hqueue, by simp⟩
  | cons done progress ih =>
      obtain ⟨future₁, rest₁, hqueue₁, hdone⟩ := complete_front hqueue done
      obtain ⟨future', rest', hqueue', hprogress⟩ := ih hqueue₁
      refine ⟨future', rest', hqueue', ?_⟩
      rw [hprogress, hdone, or_assoc]
      simp only [List.mem_cons, exists_eq_or_imp]

theorem pollFutures_isPending {pusher : SolanaTxPusher} {future : TaskFuture}
    {rest : List TaskFuture} (hqueue : pusher.futuresOrdered = future :: rest) :
    pusher.pollFutures.1.isPending = true ↔ ¬ future.result.isSome = true := by
  obtain ⟨task, result⟩ := future
  rw [SolanaTxPusher.pollFutures, hqueue]
  cases result with
  | none => exact ⟨fun _ h => (by cases h), fun _ => rfl⟩
  | some result => exact ⟨fun h => (by cases h), fun h => absurd rfl h⟩

/-- With a task to take, the poll is pending unless the front future is done. -/
theorem pollTaskStream_isPending {pusher : SolanaTxPusher} (hchannel : pusher.channel ≠ [])
    (progress : List (Nat × Except Report Unit)) :
    (pusher.pollTaskStream progress).1.isPending = true ↔ ¬ FrontDone pusher progress := by
  obtain ⟨task, channel, htask⟩ := List.exists_cons_of_ne_nil hchannel
  have hreceived : pusher.pollReceiver.futuresOrdered =
      pusher.futuresOrdered ++ [⟨task, none⟩] := by
    rw [SolanaTxPusher.pollReceiver, htask]
  cases hqueue : pusher.futuresOrdered with
  | nil =>
      -- the new future is in front
      rw [hqueue, List.nil_append] at hreceived
      obtain ⟨future', rest', hqueue', hdone⟩ := progress_front hreceived progress
      rw [SolanaTxPusher.pollTaskStream, pollFutures_isPending hqueue', hdone, FrontDone, hqueue]
      simp
  | cons future rest =>
      rw [hqueue, List.cons_append] at hreceived
      obtain ⟨future', rest', hqueue', hdone⟩ := progress_front hreceived progress
      rw [SolanaTxPusher.pollTaskStream, pollFutures_isPending hqueue', hdone, FrontDone, hqueue]
      simp

/-! ## What a poll leaves alone -/

theorem complete_apart (pusher : SolanaTxPusher) (done : Nat × Except Report Unit) :
    (pusher.complete done).channel = pusher.channel ∧
      (pusher.complete done).isTerminated = pusher.isTerminated := by
  unfold SolanaTxPusher.complete
  split <;> exact ⟨rfl, rfl⟩

theorem pollFutures_apart (pusher : SolanaTxPusher) :
    pusher.pollFutures.2.channel = pusher.channel ∧
      pusher.pollFutures.2.isTerminated = pusher.isTerminated := by
  unfold SolanaTxPusher.pollFutures
  split
  · exact ⟨rfl, rfl⟩
  · split <;> exact ⟨rfl, rfl⟩
  · exact ⟨rfl, rfl⟩

/-- Only the receiver's half of a poll touches the channel. -/
theorem pollTaskStream_apart (pusher : SolanaTxPusher)
    (progress : List (Nat × Except Report Unit)) :
    (pusher.pollTaskStream progress).2.channel = pusher.pollReceiver.channel ∧
      (pusher.pollTaskStream progress).2.isTerminated = pusher.pollReceiver.isTerminated := by
  have hprogress : ∀ pusher : SolanaTxPusher,
      (progress.foldl SolanaTxPusher.complete pusher).channel = pusher.channel ∧
        (progress.foldl SolanaTxPusher.complete pusher).isTerminated = pusher.isTerminated := by
    induction progress with
    | nil => exact fun _ => ⟨rfl, rfl⟩
    | cons done progress ih =>
        intro pusher
        obtain ⟨hchannel, hterminated⟩ := ih (pusher.complete done)
        obtain ⟨hchannel', hterminated'⟩ := complete_apart pusher done
        exact ⟨hchannel.trans hchannel', hterminated.trans hterminated'⟩
  obtain ⟨hchannel, hterminated⟩ := pollFutures_apart
    (progress.foldl SolanaTxPusher.complete pusher.pollReceiver)
  obtain ⟨hchannel', hterminated'⟩ := hprogress pusher.pollReceiver
  exact ⟨hchannel.trans hchannel', hterminated.trans hterminated'⟩

theorem handle_apart (stored : Except String Unit)
    (result : Poll (Option (TaskItemId × Except Report Unit)) × SolanaTxPusher) :
    (SolanaTxPusher.handle stored result).channel = result.2.channel ∧
      (SolanaTxPusher.handle stored result).isTerminated = result.2.isTerminated := by
  unfold SolanaTxPusher.handle
  split
  · exact ⟨rfl, rfl⟩
  · exact ⟨rfl, rfl⟩
  · dsimp only
    split <;> exact ⟨rfl, rfl⟩

/-- What a poll of `s` is noted as. -/
def pollRecord (s : TaskStream) (progress : List (Nat × Except Report Unit)) (rewoken : Bool) :
    PollRecord where
  receiver := s.pusher.receiverAnswer
  returnedPending := (s.pusher.pollTaskStream progress).1.isPending
  rewoken := rewoken
  isTerminated := (s.pusher.pollTaskStream progress).2.isTerminated

/-- **When one poll keeps its wake-up.** -/
theorem keepsWakeup_iff (hdrained : s.pusher.isTerminated = true → s.pusher.channel = [])
    (progress : List (Nat × Except Report Unit)) (rewoken : Bool) (stored : Except String Unit) :
    KeepsWakeup (pollRecord s progress rewoken) ↔
      TakesNoneInVain s (.poll progress rewoken stored) := by
  have hterminated := (pollTaskStream_apart s.pusher progress).2
  cases hchannel : s.pusher.channel with
  | nil =>
      -- nothing to take: the receiver is pending or at its end
      have hnone : TakesNoneInVain s (.poll progress rewoken stored) :=
        fun hne => absurd hchannel hne
      refine ⟨fun _ => hnone, fun _ _ hopen => Or.inl ?_⟩
      have hopen' : s.pusher.pollReceiver.isTerminated = false := hterminated ▸ hopen
      rw [SolanaTxPusher.pollReceiver, hchannel] at hopen'
      have hclosed : s.pusher.closed = false := by
        by_contra hclosed
        rw [if_pos (Bool.not_eq_false _ ▸ hclosed)] at hopen'
        exact absurd hopen' Bool.noConfusion
      change s.pusher.receiverAnswer.isPending = true
      rw [SolanaTxPusher.receiverAnswer, hchannel, hclosed]
      rfl
  | cons task channel =>
      have hne : s.pusher.channel ≠ [] := by
        rw [hchannel]
        exact List.cons_ne_nil _ _
      have hopen : (s.pusher.pollTaskStream progress).2.isTerminated = false := by
        rw [hterminated, SolanaTxPusher.pollReceiver, hchannel]
        by_contra hterm
        exact hne (hdrained (Bool.not_eq_false _ ▸ hterm))
      have hready : s.pusher.receiverAnswer.isPending = false := by
        rw [SolanaTxPusher.receiverAnswer, hchannel]
        rfl
      have hpending := pollTaskStream_isPending hne progress
      constructor
      · intro hkept _
        by_cases hdone : FrontDone s.pusher progress
        · exact Or.inl hdone
        · rcases hkept (hpending.mpr hdone) hopen with hreceiver | hrewoken
          · exact absurd (hready.symm.trans hreceiver) Bool.false_ne_true
          · exact Or.inr hrewoken
      · intro htakes hreturned _
        rcases htakes hne with hdone | hrewoken
        · exact absurd hdone (hpending.mp hreturned)
        · exact Or.inr hrewoken

/-! ## Every run -/

/-- An idle stream has its waker with the receiver, which has nothing to give. -/
structure WakerInv (s : TaskStream) : Prop where
  pusher : PrefixInv s.pusher
  polls : ∀ record ∈ s.polls, KeepsWakeup record
  idle : s.woken = false → s.registered = true ∨ s.pusher.isTerminated = true
  registered : s.registered = true → s.pusher.channel = []

theorem wakerInv_start : WakerInv .start where
  pusher := prefixInv_start
  polls := fun _ h => absurd h List.not_mem_nil
  idle := fun h => by cases h
  registered := fun h => by cases h

/-- Something arrives at the receiver, or its senders are gone. -/
theorem WakerInv.notify (h : WakerInv s) {pusher : SolanaTxPusher} (hpusher : PrefixInv pusher)
    (hterminated : s.pusher.isTerminated = true → pusher.isTerminated = true) :
    WakerInv (s.notify pusher) where
  pusher := hpusher
  polls := h.polls
  idle := by
    intro hidle
    obtain ⟨hwoken, hregistered⟩ := Bool.or_eq_false_iff.mp hidle
    rcases h.idle hwoken with hkept | hterm
    · rw [hregistered] at hkept
      cases hkept
    · exact Or.inr (hterminated hterm)
  registered := fun hregistered => by cases hregistered

/-- A poll under the guard. -/
theorem WakerInv.polled (h : WakerInv s) {progress : List (Nat × Except Report Unit)}
    {rewoken : Bool} {stored : Except String Unit} {pusher : SolanaTxPusher}
    (hpusher : PrefixInv pusher)
    (hhandled : pusher = SolanaTxPusher.handle stored (s.pusher.pollTaskStream progress))
    (htakes : TakesNoneInVain s (.poll progress rewoken stored)) :
    WakerInv (s.polled progress rewoken pusher) := by
  have hkeeps : KeepsWakeup (pollRecord s progress rewoken) :=
    (keepsWakeup_iff (fun hterm => (h.pusher.terminated hterm).2) progress rewoken stored).mpr htakes
  obtain ⟨hchannel, hterminated⟩ := handle_apart stored (s.pusher.pollTaskStream progress)
  rw [← hhandled] at hchannel hterminated
  refine ⟨hpusher, ?_, ?_, ?_⟩
  · intro record hrecord
    rcases List.mem_append.mp hrecord with hold | hnew
    · exact h.polls record hold
    · rw [List.mem_singleton.mp hnew]
      exact hkeeps
  · intro hidle
    obtain ⟨hrewoken, hpending⟩ := Bool.or_eq_false_iff.mp hidle
    have hreturned : (s.pusher.pollTaskStream progress).1.isPending = true := by
      rwa [Bool.not_eq_false'] at hpending
    by_cases hterm : (s.pusher.pollTaskStream progress).2.isTerminated = true
    · exact Or.inr (hterminated.trans hterm)
    · rcases hkeeps hreturned (Bool.eq_false_iff.mpr hterm) with hreceiver | hagain
      · exact Or.inl hreceiver
      · exact absurd (hrewoken.symm.trans hagain) Bool.false_ne_true
  · -- the receiver answered `Pending`, so there was nothing to take and there still is not
    intro hregistered
    have hempty : s.pusher.channel = [] := by
      by_contra hne
      obtain ⟨task, channel, htask⟩ := List.exists_cons_of_ne_nil hne
      have hready : s.pusher.receiverAnswer.isPending = false := by
        rw [SolanaTxPusher.receiverAnswer, htask]
        rfl
      exact absurd (hready.symm.trans hregistered) Bool.false_ne_true
    have hreceiver : s.pusher.pollReceiver.channel = [] := by
      rw [SolanaTxPusher.pollReceiver, hempty]
      by_cases hclosed : s.pusher.closed = true
      · rw [if_pos hclosed]
      · rw [if_neg hclosed]
        exact hempty
    exact hchannel.trans ((pollTaskStream_apart s.pusher progress).1.trans hreceiver)

/-- **The step**: every event under the guard keeps the invariant. -/
theorem wakerInv_step {e : TaskStreamEvent} (h : WakerInv s) (hok : TakesNoneInVain s e)
    (hstep : taskStream.step s e = some s') : WakerInv s' := by
  cases e with
  | send task =>
      obtain ⟨p, hp, rfl⟩ := Option.map_eq_some_iff.mp hstep
      have hsend : pusher.step s.pusher (.send task) = some p := hp
      refine h.notify (prefixInv_step h.pusher hsend) fun hterm => ?_
      -- nothing is sent to a channel at its end
      rw [SolanaTxPusher.step, if_pos (h.pusher.terminated hterm).1] at hp
      cases hp
  | close =>
      change (s.pusher.step .close).map s.notify = some s' at hstep
      obtain ⟨p, hp, rfl⟩ := Option.map_eq_some_iff.mp hstep
      have hclose : pusher.step s.pusher .close = some p := hp
      refine h.notify (prefixInv_step h.pusher hclose) fun hterm => ?_
      obtain rfl := Option.some.inj hp
      exact hterm
  | wake =>
      change (if _ then _ else none) = some s' at hstep
      split at hstep
      · obtain rfl := Option.some.inj hstep
        exact ⟨h.pusher, h.polls, fun hidle => (by cases hidle), h.registered⟩
      · cases hstep
  | poll progress rewoken stored =>
      change (if _ then _ else none) = some s' at hstep
      split at hstep
      · obtain ⟨p, hp, rfl⟩ := Option.map_eq_some_iff.mp hstep
        have hpoll : pusher.step s.pusher (.poll progress stored) = some p := hp
        rw [SolanaTxPusher.step] at hp
        split at hp
        · cases hp
        · exact h.polled (prefixInv_step h.pusher hpoll) (Option.some.inj hp).symm hok
      · cases hstep

theorem wakerInv_reachable (h : Reach taskStream TakesNoneInVain s) : WakerInv s := by
  refine h.invariant (fun s hinit => ?_) fun _ _ _ _ hi hok hstep => wakerInv_step hi hok hstep
  obtain rfl : s = .start := hinit
  exact wakerInv_start

/--
**No lost wake-up**, as long as no poll takes a task in vain: every poll that returned
`Pending` left its waker with the receiver or was woken again, and a task on the
channel never waits for anything but the executor. The next poll keeps this up exactly
when it takes no task in vain either.
-/
theorem no_lost_wakeup (s : TaskStream) (h : Reach taskStream TakesNoneInVain s) :
    (∀ record ∈ s.polls, KeepsWakeup record) ∧ (s.pusher.channel ≠ [] → s.woken = true) ∧
    ∀ progress rewoken stored s', taskStream.step s (.poll progress rewoken stored) = some s' →
      ((∀ record ∈ s'.polls, KeepsWakeup record) ↔
        TakesNoneInVain s (.poll progress rewoken stored)) := by
  have hi := wakerInv_reachable h
  refine ⟨hi.polls, ?_, ?_⟩
  · intro hwaiting
    -- asleep, the waker is with an empty channel, or the stream has ended
    by_contra hasleep
    rcases hi.idle (Bool.eq_false_iff.mpr hasleep) with hregistered | hterm
    · exact hwaiting (hi.registered hregistered)
    · exact hwaiting (hi.pusher.terminated hterm).2
  · intro progress rewoken stored s' hstep
    have hexact := keepsWakeup_iff (fun hterm => (hi.pusher.terminated hterm).2) progress rewoken
      stored
    change (if _ then _ else none) = some s' at hstep
    split at hstep
    · obtain ⟨p, -, rfl⟩ := Option.map_eq_some_iff.mp hstep
      -- only the record of this poll is new
      refine Iff.trans ⟨fun hall => ?_, fun hkeeps record hrecord => ?_⟩ hexact
      · exact hall _ (List.mem_append_right _ List.mem_cons_self)
      · rcases List.mem_append.mp hrecord with hold | hnew
        · exact hi.polls record hold
        · rw [List.mem_singleton.mp hnew]
          exact hkeeps
    · cases hstep

/-! ## Three tasks at once -/

/-- A task that is done as soon as it is polled. -/
def promptRun : List TaskStreamEvent :=
  [.send ⟨⟨1⟩, .verify⟩, .poll [(0, .ok ())] false (.ok ()), .poll [] false (.ok ())]

instance (pusher : SolanaTxPusher) (progress : List (Nat × Except Report Unit)) :
    Decidable (FrontDone pusher progress) :=
  match h : pusher.futuresOrdered with
  | [] => decidable_of_iff (∃ done ∈ progress, done.1 = 0) (by simp [FrontDone, h])
  | future :: rest => decidable_of_iff (future.result.isSome = true ∨ ∃ done ∈ progress, done.1 = 0)
      (by simp [FrontDone, h])

instance (s : TaskStream) (e : TaskStreamEvent) : Decidable (TakesNoneInVain s e) :=
  match e with
  | .poll progress rewoken _ => inferInstanceAs
      (Decidable (s.pusher.channel ≠ [] → FrontDone s.pusher progress ∨ rewoken = true))
  | .send _ => isTrue trivial
  | .close => isTrue trivial
  | .wake => isTrue trivial

/-- The task is taken and recorded, and the next poll leaves the waker with the receiver. -/
theorem prompt_task_kept : ∃ s : TaskStream, Reach taskStream TakesNoneInVain s ∧
    s.registered = true ∧ s.polls.length = 2 ∧ ∀ record ∈ s.polls, KeepsWakeup record := by
  have hrun : (replay taskStream TakesNoneInVain .start promptRun).map
      (fun s => (s.registered, s.polls.length)) = some (true, 2) := by decide +kernel
  obtain ⟨s, hs, hpair⟩ := Option.map_eq_some_iff.mp hrun
  obtain ⟨hregistered, hlength⟩ := Prod.mk.inj hpair
  have hreach : Reach taskStream TakesNoneInVain s := Reach.of_replay (Reach.init rfl) hs
  exact ⟨s, hreach, hregistered, hlength, (no_lost_wakeup s hreach).1⟩

/-- The first poll is woken again by `futures_ordered`, the second is not. -/
def burst : List TaskStreamEvent :=
  [.send ⟨⟨1⟩, .verify⟩, .send ⟨⟨2⟩, .verify⟩, .send ⟨⟨3⟩, .verify⟩, .poll [] true (.ok ()),
    .poll [] false (.ok ())]

/-- **A wake-up is lost**: the third task is on the channel, and the stream sleeps. -/
theorem third_task_waits : ¬ ∀ s : TaskStream, Reach taskStream always s →
    (∀ record ∈ s.polls, KeepsWakeup record) ∧ (s.pusher.channel ≠ [] → s.woken = true) := by
  intro hall
  have hrun : (replay taskStream always .start burst).map
      (fun s => (s.pusher.channel.length, s.woken)) = some (1, false) := by decide +kernel
  obtain ⟨s, hs, hpair⟩ := Option.map_eq_some_iff.mp hrun
  obtain ⟨hlength, hasleep⟩ := Prod.mk.inj hpair
  have hwaiting : s.pusher.channel ≠ [] := by
    intro hnil
    rw [hnil] at hlength
    cases hlength
  have hwoken := (hall s (Reach.of_replay (Reach.init rfl) hs)).2 hwaiting
  exact absurd (hasleep.symm.trans hwoken) Bool.false_ne_true

end AxelarRelayer.Proof
