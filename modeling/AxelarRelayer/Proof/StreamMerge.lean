import AxelarRelayer.Lib.Interleaving
import AxelarRelayer.Listener.RoundRobin

/-!
# The merged stream

In every poll one stream gives the answer; the other one was not asked, or had nothing
to say (`pollNext_cases`). So an item that leaves a stream is the one that is yielded,
and the merged stream ends in the poll in which a stream reports its end.

Whoever was not asked is asked first the next time: an item that is ready waits for one
item of the other stream at most.
-/

namespace AxelarRelayer.Proof

open AxelarRelayer AxelarRelayer.Listener

variable {Item : Type} {stream stream' : Stream Item} {answer : Poll (Option Item)}
  {merger : RoundRobin Item}

/-! ## One poll -/

/-- The stream was polled, and answered this. -/
def GaveAnswer (stream stream' : Stream Item) (answer : Poll (Option Item)) : Prop :=
  stream' = stream.pollNext.2 ∧ stream.answers stream.polled = answer

/-- The stream was not polled, or had nothing to say. -/
def Quiet (stream stream' : Stream Item) : Prop :=
  stream' = stream ∨ GaveAnswer stream stream' .pending

/-- The second stream is asked exactly if the first one has nothing to say. -/
theorem pollRound_cases (streamA streamB : Stream Item) :
    (GaveAnswer streamA (pollRound streamA streamB).2.1 (pollRound streamA streamB).1 ∧
      (pollRound streamA streamB).2.2 = streamB) ∨
    (GaveAnswer streamA (pollRound streamA streamB).2.1 .pending ∧
      GaveAnswer streamB (pollRound streamA streamB).2.2 (pollRound streamA streamB).1) := by
  unfold pollRound Stream.pollNext GaveAnswer
  cases streamA.answers streamA.polled with
  | pending =>
      refine Or.inr ?_
      cases streamB.answers streamB.polled with
      | pending => exact ⟨⟨rfl, rfl⟩, rfl, rfl⟩
      | ready item => cases item <;> exact ⟨⟨rfl, rfl⟩, rfl, rfl⟩
  | ready item =>
      refine Or.inl ?_
      cases item <;> exact ⟨⟨rfl, rfl⟩, rfl⟩

/-- **What a poll does**: one stream gives the answer, the other is quiet. -/
theorem pollNext_cases (merger : RoundRobin Item) :
    (GaveAnswer merger.s1 merger.pollNext.2.s1 merger.pollNext.1 ∧
      Quiet merger.s2 merger.pollNext.2.s2) ∨
    (GaveAnswer merger.s2 merger.pollNext.2.s2 merger.pollNext.1 ∧
      Quiet merger.s1 merger.pollNext.2.s1) := by
  obtain ⟨pollFirst, s1, s2⟩ := merger
  cases pollFirst with
  | false =>
      rcases pollRound_cases s1 s2 with ⟨hfirst, hsecond⟩ | ⟨hfirst, hsecond⟩
      · exact Or.inl ⟨hfirst, Or.inl hsecond⟩
      · exact Or.inr ⟨hsecond, Or.inr hfirst⟩
  | true =>
      rcases pollRound_cases s2 s1 with ⟨hfirst, hsecond⟩ | ⟨hfirst, hsecond⟩
      · exact Or.inr ⟨hfirst, Or.inl hsecond⟩
      · exact Or.inl ⟨hsecond, Or.inr hfirst⟩

/-! ## Items -/

theorem Quiet.answers (h : Quiet stream stream') : stream'.answers = stream.answers := by
  rcases h with rfl | ⟨rfl, -⟩ <;> rfl

/-- A quiet stream gives nothing away. -/
theorem Quiet.itemsOf (h : Quiet stream stream') :
    itemsOf stream.answers stream'.polled = itemsOf stream.answers stream.polled := by
  rcases h with rfl | ⟨rfl, hpending⟩
  · rfl
  · change itemsOf stream.answers (stream.polled + 1) = _
    rw [Listener.itemsOf, hpending]

/-- The items an answer brings. -/
def itemOf : Poll (Option Item) → List Item
  | .ready (some item) => [item]
  | _ => []

theorem itemsOf_succ (answers : Nat → Poll (Option Item)) (n : Nat) :
    itemsOf answers (n + 1) = itemsOf answers n ++ itemOf (answers n) := by
  rw [itemsOf]
  cases answers n with
  | pending => exact (List.append_nil _).symm
  | ready item =>
      cases item with
      | none => exact (List.append_nil _).symm
      | some item => rfl

theorem GaveAnswer.itemsOf (h : GaveAnswer stream stream' answer) :
    itemsOf stream.answers stream'.polled =
      itemsOf stream.answers stream.polled ++ itemOf answer := by
  obtain ⟨rfl, rfl⟩ := h
  exact itemsOf_succ stream.answers stream.polled

/-- An answer of the left stream at the end of an interleaving. -/
theorem interleaving_left {xs ys merged : List Item} (h : Interleaving xs ys merged)
    (answer : Poll (Option Item)) :
    Interleaving (xs ++ itemOf answer) ys (merged ++ itemOf answer) := by
  have hnone : Interleaving (xs ++ []) ys (merged ++ []) := by
    rw [List.append_nil, List.append_nil]
    exact h
  cases answer with
  | pending => exact hnone
  | ready item =>
      cases item with
      | none => exact hnone
      | some item => exact h.snoc_left item

/-! ## Ends -/

/-- The stream was polled between these counts, and reported its end. -/
def ReportedEnd (answers : Nat → Poll (Option Item)) (before after : Nat) : Prop :=
  ∃ i, before ≤ i ∧ i < after ∧ answers i = .ready none

theorem Quiet.reportedEnd (h : Quiet stream stream') :
    ¬ ReportedEnd stream.answers stream.polled stream'.polled := by
  intro ⟨i, hle, hlt, hend⟩
  rcases h with rfl | ⟨rfl, hpending⟩
  · omega
  · change i < stream.polled + 1 at hlt
    obtain rfl : i = stream.polled := by omega
    rw [hend] at hpending
    cases hpending

theorem GaveAnswer.reportedEnd (h : GaveAnswer stream stream' answer) :
    ReportedEnd stream.answers stream.polled stream'.polled ↔ answer = .ready none := by
  obtain ⟨rfl, rfl⟩ := h
  constructor
  · intro ⟨i, hle, hlt, hend⟩
    change i < stream.polled + 1 at hlt
    obtain rfl : i = stream.polled := by omega
    exact hend
  · intro hend
    exact ⟨stream.polled, Nat.le_refl _, Nat.lt_succ_self _, hend⟩

/-- **The merged stream ends** in the polls in which a stream reports its end. -/
theorem pollNext_ends (merger : RoundRobin Item) :
    merger.pollNext.1 = .ready none ↔
      ReportedEnd merger.s1.answers merger.s1.polled merger.pollNext.2.s1.polled ∨
        ReportedEnd merger.s2.answers merger.s2.polled merger.pollNext.2.s2.polled := by
  rcases pollNext_cases merger with ⟨hanswer, hquiet⟩ | ⟨hanswer, hquiet⟩
  · rw [hanswer.reportedEnd, or_iff_left hquiet.reportedEnd]
  · rw [hanswer.reportedEnd, or_iff_right hquiet.reportedEnd]

/-! ## Two polls -/

/-- The merger with its streams exchanged. -/
def exchange (merger : RoundRobin Item) : RoundRobin Item :=
  ⟨!merger.pollFirst, merger.s2, merger.s1⟩

theorem pollNext_exchange (merger : RoundRobin Item) :
    (exchange merger).pollNext = (merger.pollNext.1, exchange merger.pollNext.2) := by
  obtain ⟨pollFirst, s1, s2⟩ := merger
  cases pollFirst <;> rfl

/-- `stream` yields `item` in the poll that leads from `merger` to `merger'`. -/
def YieldsItem (before after : Stream Item) (merger : RoundRobin Item) (item : Item) : Prop :=
  merger.pollNext.1 = .ready (some item) ∧ after.polled = before.polled + 1

/-- An item of a stream that is asked first is yielded at once. -/
theorem yields_first {item : Item} (hturn : merger.pollFirst = false)
    (hready : merger.s1.answers merger.s1.polled = .ready (some item)) :
    YieldsItem merger.s1 merger.pollNext.2.s1 merger item := by
  obtain ⟨pollFirst, s1, s2⟩ := merger
  obtain rfl : pollFirst = false := hturn
  rcases pollRound_cases s1 s2 with ⟨⟨hstream, hanswer⟩, -⟩ | ⟨⟨-, hpending⟩, -⟩
  · exact ⟨hanswer.symm.trans hready, congrArg Stream.polled hstream⟩
  · cases hready.symm.trans hpending

/-- **The bypass is bounded**: the item is yielded in this poll or the next one. -/
theorem yields_within_two (merger : RoundRobin Item) {item : Item}
    (hready : merger.s1.answers merger.s1.polled = .ready (some item)) :
    merger.pollNext.1 = .ready none ∨ YieldsItem merger.s1 merger.pollNext.2.s1 merger item ∨
      (merger.pollNext.2.s1 = merger.s1 ∧
        YieldsItem merger.s1 merger.pollNext.2.pollNext.2.s1 merger.pollNext.2 item) := by
  obtain ⟨pollFirst, s1, s2⟩ := merger
  cases pollFirst with
  | false => exact Or.inr (Or.inl (yields_first rfl hready))
  | true =>
      rcases pollRound_cases s2 s1 with ⟨-, hwaits⟩ | ⟨-, hstream, hanswer⟩
      · -- the other stream gave the answer, and the item is still ready
        have hsame : (RoundRobin.pollNext ⟨true, s1, s2⟩).2.s1 = s1 := hwaits
        refine Or.inr (Or.inr ⟨hsame, ?_⟩)
        have hready' : (RoundRobin.pollNext ⟨true, s1, s2⟩).2.s1.answers
            (RoundRobin.pollNext ⟨true, s1, s2⟩).2.s1.polled = .ready (some item) := by
          rw [hsame]
          exact hready
        have hnext := yields_first rfl hready'
        rw [hsame] at hnext
        exact hnext
      · exact Or.inr (Or.inl ⟨hanswer.symm.trans hready, congrArg Stream.polled hstream⟩)

/-! ## Any number of polls -/

variable (answers1 answers2 : Nat → Poll (Option Item))

/-- What the streams answer stays what it is. -/
theorem after_answers (n : Nat) :
    ((roundRobinTwoStreams answers1 answers2).after n).s1.answers = answers1 ∧
      ((roundRobinTwoStreams answers1 answers2).after n).s2.answers = answers2 := by
  induction n with
  | zero => exact ⟨rfl, rfl⟩
  | succ n ih =>
      have hgave : ∀ {stream stream' : Stream Item} {answer : Poll (Option Item)},
          GaveAnswer stream stream' answer → stream'.answers = stream.answers := by
        intro stream stream' answer h
        rw [h.1]
        rfl
      rcases pollNext_cases ((roundRobinTwoStreams answers1 answers2).after n) with
        ⟨hanswer, hquiet⟩ | ⟨hanswer, hquiet⟩
      · exact ⟨(hgave hanswer).trans ih.1, hquiet.answers.trans ih.2⟩
      · exact ⟨hquiet.answers.trans ih.1, (hgave hanswer).trans ih.2⟩

/-- **The run**: what was yielded so far is made of what left the streams. -/
theorem after_interleaving (n : Nat) : Interleaving
    (itemsOf answers1 ((roundRobinTwoStreams answers1 answers2).after n).s1.polled)
    (itemsOf answers2 ((roundRobinTwoStreams answers1 answers2).after n).s2.polled)
    (itemsOf (roundRobinTwoStreams answers1 answers2).answers n) := by
  induction n with
  | zero => exact Interleaving.nil
  | succ n ih =>
      obtain ⟨hs1, hs2⟩ := after_answers answers1 answers2 n
      rw [itemsOf_succ]
      rcases pollNext_cases ((roundRobinTwoStreams answers1 answers2).after n) with
        ⟨hanswer, hquiet⟩ | ⟨hanswer, hquiet⟩
      · -- the answer comes from the first stream
        have hleft := hanswer.itemsOf
        have hright := hquiet.itemsOf
        rw [hs1] at hleft
        rw [hs2] at hright
        rw [RoundRobin.after, hleft, hright]
        exact interleaving_left ih _
      · -- the answer comes from the second stream
        have hleft := hquiet.itemsOf
        have hright := hanswer.itemsOf
        rw [hs1] at hleft
        rw [hs2] at hright
        rw [RoundRobin.after, hleft, hright]
        exact (interleaving_left ih.symm _).symm

/--
The item that a stream has ready before poll `n` (the answer number `polled n` of it) is
yielded in that poll or the next one, unless the merged stream ends in that poll.
-/
def WithinTwoPolls (merged : Nat → Poll (Option Item)) (polled : Nat → Nat) (n : Nat)
    (item : Item) : Prop :=
  merged n = .ready none ∨ ∃ m, (m = n ∨ m = n + 1) ∧ merged m = .ready (some item) ∧
    polled m = polled n ∧ polled (m + 1) = polled n + 1

/--
**Nothing is lost, repeated or reordered.** Whatever the streams answer, and for any
number of polls: the items are an interleaving of what the two streams gave away, the
merged stream ends exactly in the polls in which a stream reports its end, and what a
stream has ready is yielded within two polls.
-/
theorem streams_merged (answers1 answers2 : Nat → Poll (Option Item)) (n : Nat) :
    let merger := roundRobinTwoStreams answers1 answers2
    let polled1 := fun n => (merger.after n).s1.polled
    let polled2 := fun n => (merger.after n).s2.polled
    Interleaving (itemsOf answers1 (polled1 n)) (itemsOf answers2 (polled2 n))
      (itemsOf merger.answers n) ∧
    (merger.answers n = .ready none ↔ ReportedEnd answers1 (polled1 n) (polled1 (n + 1)) ∨
      ReportedEnd answers2 (polled2 n) (polled2 (n + 1))) ∧
    (∀ item, answers1 (polled1 n) = .ready (some item) →
      WithinTwoPolls merger.answers polled1 n item) ∧
    ∀ item, answers2 (polled2 n) = .ready (some item) →
      WithinTwoPolls merger.answers polled2 n item := by
  intro merger polled1 polled2
  obtain ⟨hs1, hs2⟩ := after_answers answers1 answers2 n
  refine ⟨after_interleaving answers1 answers2 n, ?_, ?_, ?_⟩
  · have hends := pollNext_ends (merger.after n)
    rw [hs1, hs2] at hends
    exact hends
  · intro item hready
    rw [← hs1] at hready
    rcases yields_within_two (merger.after n) hready with
      hend | ⟨hanswer, hpolled⟩ | ⟨hsame, hanswer, hpolled⟩
    · exact Or.inl hend
    · exact Or.inr ⟨n, Or.inl rfl, hanswer, rfl, hpolled⟩
    · exact Or.inr ⟨n + 1, Or.inr rfl, hanswer, congrArg Stream.polled hsame, hpolled⟩
  · intro item hready
    rw [← hs2] at hready
    -- the second stream is the first one of the exchanged pair
    have hother := yields_within_two (exchange (merger.after n)) hready
    simp only [YieldsItem, pollNext_exchange] at hother
    rcases hother with hend | ⟨hanswer, hpolled⟩ | ⟨hsame, hanswer, hpolled⟩
    · exact Or.inl hend
    · exact Or.inr ⟨n, Or.inl rfl, hanswer, rfl, hpolled⟩
    · exact Or.inr ⟨n + 1, Or.inr rfl, hanswer, congrArg Stream.polled hsame, hpolled⟩

/-- The streams take turns; a stream that has nothing to say is passed over. -/
example : itemsOf (roundRobinTwoStreams
    (fun n => if n < 3 then .ready (some n) else .pending)
    (fun n => if n < 2 then .ready (some (10 + n)) else .pending)).answers 6 = [0, 10, 1, 11, 2] := by
  decide

end AxelarRelayer.Proof
