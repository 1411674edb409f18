import AxelarRelayer.Basic

/-!
# `round_robin_two_streams`

The merger of the two log subscriptions. A stream is given by what it answers to its
polls, one after the other: `Pending` as often as it likes, an item, or its end. An
answer that was not asked for stays the next one.
-/

namespace AxelarRelayer.Listener

open AxelarRelayer

variable {Item : Type}

/-- A stream, and how often it was polled. -/
structure Stream (Item : Type) where
  answers : Nat → Poll (Option Item)
  polled : Nat

/-- `poll_next`. -/
def Stream.pollNext (stream : Stream Item) : Poll (Option Item) × Stream Item :=
  (stream.answers stream.polled, { stream with polled := stream.polled + 1 })

/-- `poll_round`: one stream first, then the other; with both streams as the calls leave them. -/
def pollRound (streamA streamB : Stream Item) : Poll (Option Item) × Stream Item × Stream Item :=
  match streamA.pollNext with
  | (.ready (some item), streamA) => (.ready (some item), streamA, streamB)
  | (.ready none, streamA) => (.ready none, streamA, streamB)
  | (.pending, streamA) => match streamB.pollNext with
    | (.ready (some item), streamB) => (.ready (some item), streamA, streamB)
    | (.ready none, streamB) => (.ready none, streamA, streamB)
    | (.pending, streamB) => (.pending, streamA, streamB)

/-- What the closure of `round_robin_two_streams` owns. -/
structure RoundRobin (Item : Type) where
  pollFirst : Bool
  s1 : Stream Item
  s2 : Stream Item

def roundRobinTwoStreams (answers1 answers2 : Nat → Poll (Option Item)) : RoundRobin Item :=
  ⟨false, ⟨answers1, 0⟩, ⟨answers2, 0⟩⟩

/-- One poll of the merged stream. -/
def RoundRobin.pollNext (merger : RoundRobin Item) : Poll (Option Item) × RoundRobin Item :=
  -- flip which stream is polled first
  let pollFirst := !merger.pollFirst
  if pollFirst then
    let (answer, s1, s2) := pollRound merger.s1 merger.s2
    (answer, ⟨pollFirst, s1, s2⟩)
  else
    let (answer, s2, s1) := pollRound merger.s2 merger.s1
    (answer, ⟨pollFirst, s1, s2⟩)

/-! ## Any number of polls -/

/-- The merger behind its first `n` polls. -/
def RoundRobin.after (merger : RoundRobin Item) : Nat → RoundRobin Item
  | 0 => merger
  | n + 1 => (merger.after n).pollNext.2

/-- What it answers to its polls. -/
def RoundRobin.answers (merger : RoundRobin Item) (n : Nat) : Poll (Option Item) :=
  (merger.after n).pollNext.1

/-- The items among the first `n` answers of a stream. -/
def itemsOf (answers : Nat → Poll (Option Item)) : Nat → List Item
  | 0 => []
  | n + 1 => match answers n with
    | .ready (some item) => itemsOf answers n ++ [item]
    | _ => itemsOf answers n

end AxelarRelayer.Listener
