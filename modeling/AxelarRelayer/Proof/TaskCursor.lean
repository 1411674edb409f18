import AxelarRelayer.Task.Pusher

/-!
# The task cursor

What was received is what was recorded, followed by what is on `futures_ordered`:
the poll function moves tasks from one end of that list to the other and never
reorders them. So the ids recorded are those of a prefix, whatever the order in
which the futures complete, and the stream cannot end before they are all of it.
-/

namespace AxelarRelayer.Proof

open AxelarRelayer AxelarRelayer.Task Runs

variable {s s' : SolanaTxPusher}

/-- The invariant of the pusher. -/
structure PrefixInv (s : SolanaTxPusher) : Prop where
  received : s.received.map TaskItem.id =
    s.recorded ++ s.futuresOrdered.map fun future => future.task.id
  /-- `process_task` has returned for what was recorded, and for the futures with a result -/
  recorded : ∀ n < s.recorded.length, n ∈ s.returned
  finished : ∀ n task result, s.futuresOrdered[n]? = some ⟨task, some result⟩ →
    s.recorded.length + n ∈ s.returned
  terminated : s.isTerminated = true → s.closed = true ∧ s.channel = []
  ended : s.streamEnded = true → s.isTerminated = true ∧ s.futuresOrdered = []

theorem PrefixInv.length (h : PrefixInv s) :
    s.received.length = s.recorded.length + s.futuresOrdered.length := by
  have hlen := congrArg List.length h.received
  rw [List.length_map, List.length_append, List.length_map] at hlen
  exact hlen

theorem prefixInv_start : PrefixInv .start where
  received := rfl
  recorded := fun _ h => absurd h (Nat.not_lt_zero _)
  finished := fun n task result h => by cases h
  terminated := fun h => by cases h
  ended := fun h => by cases h

/-! ## The two halves of the poll function -/

theorem PrefixInv.pollReceiver (h : PrefixInv s) : PrefixInv s.pollReceiver := by
  unfold SolanaTxPusher.pollReceiver
  split
  · rename_i task channel hchannel
    exact {
      received := by
        rw [List.map_append, h.received, List.map_append, List.append_assoc]
        rfl
      recorded := h.recorded
      finished := fun n task' result hn => by
        -- the new future is the last one, and it has not finished
        rcases Nat.lt_or_ge n s.futuresOrdered.length with hlt | hge
        · rw [List.getElem?_append_left hlt] at hn
          exact h.finished n task' result hn
        · rw [List.getElem?_append_right hge] at hn
          have hin := List.mem_of_getElem? hn
          rw [List.mem_singleton] at hin
          cases hin
      terminated := fun hterm => by
        have hnil := (h.terminated hterm).2
        rw [hchannel] at hnil
        cases hnil
      ended := fun hended => by
        have hnil := (h.terminated (h.ended hended).1).2
        rw [hchannel] at hnil
        cases hnil }
  · rename_i hchannel
    split
    · rename_i hclosed
      exact ⟨h.received, h.recorded, h.finished, fun _ => ⟨hclosed, hchannel⟩,
        fun hended => ⟨rfl, (h.ended hended).2⟩⟩
    · exact h

theorem PrefixInv.complete (h : PrefixInv s) (done : Nat × Except Report Unit) :
    PrefixInv (s.complete done) := by
  unfold SolanaTxPusher.complete
  split
  · rename_i task hn
    -- the futures are the received tasks that are not recorded
    have hpos : s.received.length - s.futuresOrdered.length + done.1 =
        s.recorded.length + done.1 := by
      rw [h.length, Nat.add_sub_cancel]
    obtain ⟨hlt, hget⟩ := List.getElem?_eq_some_iff.mp hn
    exact {
      received := by
        rw [h.received, List.map_set]
        have hlt' : done.1 < (s.futuresOrdered.map fun future => future.task.id).length := by
          rwa [List.length_map]
        have hsame := List.set_getElem_self hlt'
        rw [List.getElem_map, hget] at hsame
        rw [hsame]
      recorded := fun n hrec => List.mem_append_left _ (h.recorded n hrec)
      finished := fun n task' result hfuture => by
        -- the future that has just finished, or another one
        by_cases hsame : done.1 = n
        · rw [hpos, hsame]
          exact List.mem_append_right _ List.mem_cons_self
        · rw [List.getElem?_set_ne hsame] at hfuture
          exact List.mem_append_left _ (h.finished n task' result hfuture)
      terminated := h.terminated
      ended := fun hended => by
        rw [(h.ended hended).2] at hlt
        exact absurd hlt (Nat.not_lt_zero _) }
  · exact h

theorem PrefixInv.progress (h : PrefixInv s) (progress : List (Nat × Except Report Unit)) :
    PrefixInv (progress.foldl SolanaTxPusher.complete s) := by
  induction progress generalizing s with
  | nil => exact h
  | cons done progress ih => exact ih (h.complete done)

/-- What the second half yields goes from the queue to the record. -/
theorem PrefixInv.handle (h : PrefixInv s) (stored : Except String Unit) :
    PrefixInv (SolanaTxPusher.handle stored s.pollFutures) := by
  unfold SolanaTxPusher.pollFutures
  split
  · rename_i task result futures hfutures
    -- whether or not the cursor was stored, the first future leaves the queue
    have hinv : ∀ ended, PrefixInv { s with
        futuresOrdered := futures, recorded := s.recorded ++ [task.id], ended := ended } := fun _ => {
      received := by
        rw [h.received, hfutures, List.map_cons, List.append_assoc]
        rfl
      recorded := fun n hn => by
        rw [List.length_append, List.length_singleton] at hn
        rcases Nat.lt_succ_iff_lt_or_eq.mp hn with hlt | rfl
        · exact h.recorded n hlt
        · -- what is recorded now was the first in the queue, and it had finished
          exact h.finished 0 task result (by rw [hfutures]; rfl)
      finished := fun n task' result' hn => by
        have hold := h.finished (n + 1) task' result' (by rw [hfutures]; exact hn)
        rw [List.length_append, List.length_singleton, Nat.add_assoc, Nat.add_comm 1 n]
        exact hold
      terminated := h.terminated
      ended := fun hended => by
        have hnil := (h.ended hended).2
        rw [hfutures] at hnil
        cases hnil }
    cases stored with
    | ok _ => exact hinv _
    | error text => exact hinv _
  · rename_i hfutures
    split
    · rename_i hterm
      exact ⟨h.received, h.recorded, h.finished, h.terminated, fun _ => ⟨hterm, hfutures⟩⟩
    · exact h
  · exact h

/-! ## Every run -/

theorem prefixInv_step {e : PusherEvent} (h : PrefixInv s) (hstep : pusher.step s e = some s') :
    PrefixInv s' := by
  cases e with
  | send task =>
      simp only [pusher, SolanaTxPusher.step] at hstep
      split at hstep
      · cases hstep
      · rename_i hopen
        obtain rfl := Option.some.inj hstep
        exact ⟨h.received, h.recorded, h.finished, fun hterm =>
          absurd (h.terminated hterm).1 hopen, h.ended⟩
  | close =>
      obtain rfl := Option.some.inj hstep
      exact ⟨h.received, h.recorded, h.finished, fun hterm => ⟨rfl, (h.terminated hterm).2⟩,
        h.ended⟩
  | poll progress stored =>
      simp only [pusher, SolanaTxPusher.step] at hstep
      split at hstep
      · cases hstep
      · obtain rfl := Option.some.inj hstep
        exact (h.pollReceiver.progress progress).handle stored

theorem prefixInv_reachable {ok : SolanaTxPusher → PusherEvent → Prop}
    (h : Reach pusher ok s) : PrefixInv s := by
  refine h.invariant (fun s hinit => ?_) fun _ _ _ _ hi _ hstep => prefixInv_step hi hstep
  obtain rfl : s = .start := hinit
  exact prefixInv_start

/--
**The task cursor is a completed prefix.** In every state that can be reached the ids
recorded are a prefix of the ids received, one for each position; `process_task` has
returned for every position recorded; and once the stream ended, the channel is
closed and drained and every received id was recorded.
-/
theorem cursor_prefix_completed (s : SolanaTxPusher) (h : Reach pusher always s) :
    s.recorded <+: s.received.map TaskItem.id ∧
    (∀ n < s.recorded.length, n ∈ s.returned) ∧
    (s.streamEnded = true →
      s.closed = true ∧ s.channel = [] ∧ s.recorded = s.received.map TaskItem.id) := by
  have hi := prefixInv_reachable h
  refine ⟨⟨_, hi.received.symm⟩, hi.recorded, fun hended => ?_⟩
  obtain ⟨hterm, hfutures⟩ := hi.ended hended
  obtain ⟨hclosed, hchannel⟩ := hi.terminated hterm
  refine ⟨hclosed, hchannel, ?_⟩
  rw [hi.received, hfutures, List.map_nil, List.append_nil]

/-- Two tasks, of which the second is done first. -/
def overtaking : List PusherEvent :=
  [.send ⟨⟨1⟩, .verify⟩, .send ⟨⟨2⟩, .verify⟩, .poll [] (.ok ()), .poll [(1, .ok ())] (.ok ()),
    .poll [(0, .ok ())] (.ok ())]

/-- The first is recorded alone, although both have returned. -/
theorem overtaking_recorded : ∃ s : SolanaTxPusher, Reach pusher always s ∧
    s.recorded = [⟨1⟩] ∧ s.returned = [1, 0] ∧ s.recorded <+: s.received.map TaskItem.id := by
  have hrun : (replay pusher always .start overtaking).map (fun s => (s.recorded, s.returned)) =
      some ([⟨1⟩], [1, 0]) := by decide +kernel
  obtain ⟨s, hs, hpair⟩ := Option.map_eq_some_iff.mp hrun
  obtain ⟨hrecorded, hreturned⟩ := Prod.mk.inj hpair
  have hreach : Reach pusher always s := Reach.of_replay (Reach.init rfl) hs
  exact ⟨s, hreach, hrecorded, hreturned, (cursor_prefix_completed s hreach).1⟩

end AxelarRelayer.Proof
