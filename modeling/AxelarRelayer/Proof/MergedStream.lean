import AxelarRelayer.Listener.MergedStream
import AxelarRelayer.Proof.RealtimeCursor

/-!
# The poll function of the merged stream

Three things are shown of it. Each poll is a sequence of the events of the realtime scanner,
so what holds of the scanner holds of the polls (`polls_refine`). It does not answer
`Pending` without somebody to wake it (`pending_keeps_wakeup`). And neither the other
subscription nor the pending fetches can keep a subscription from its turn
(`pulled_within`).
-/

namespace AxelarRelayer.Proof

open AxelarRelayer Listener Runs

variable {config : Config} {w w' : World} {m : MergedStream} {streams streams' : Streams}
  {source : Source} {item : RpcLogsResponse} {answers : Source → WsAnswer}

/-! ## One poll of the two subscriptions -/

def other : Source → Source
  | .gateway => .gasService
  | .gasService => .gateway

theorem eq_or_other (a source : Source) : source = a ∨ source = other a := by
  cases a <;> cases source <;> simp [other]

/-- The subscription the next poll asks first. -/
def upNext (m : MergedStream) : Source := if m.pollFirst then .gasService else .gateway

theorem pollRound_eq (m : MergedStream) (answers : Source → WsAnswer) :
    m.pollRound answers =
      ((m.streams.pollRound (upNext m) (other (upNext m)) answers).1,
        ⟨!m.pollFirst, (m.streams.pollRound (upNext m) (other (upNext m)) answers).2,
          m.fetchFutures⟩) := by
  obtain ⟨pollFirst, streams, futures⟩ := m
  cases pollFirst <;> rfl

/-- A subscription as a stream that gives this answer. -/
def asStream (streams : Streams) (source : Source) (answer : WsAnswer) :
    Listener.Stream RpcLogsResponse :=
  ⟨fun _ => (streams.pollNext source answer).1, 0⟩

theorem wsPoll_pending {answer : WsAnswer} (h : (streams.pollNext source answer).1 = .pending) :
    streams.pollNext source answer = (.pending, streams) := by
  cases answer with
  | pending => rfl
  | ended => cases h
  | item =>
      unfold Streams.pollNext at h ⊢
      dsimp only at h ⊢
      split
      · rename_i hnext
        rw [hnext] at h
        cases h
      · rfl

/-- The poll is one of `round_robin_two_streams`. -/
theorem pollRound_roundRobin (m : MergedStream) (answers : Source → WsAnswer) :
    (m.pollRound answers).1 = (RoundRobin.pollNext ⟨m.pollFirst,
      asStream m.streams .gateway (answers .gateway),
      asStream m.streams .gasService (answers .gasService)⟩).1 ∧
    (m.pollRound answers).2.pollFirst = (RoundRobin.pollNext ⟨m.pollFirst,
      asStream m.streams .gateway (answers .gateway),
      asStream m.streams .gasService (answers .gasService)⟩).2.pollFirst := by
  have hround : ∀ a b, (m.streams.pollRound a b answers).1 =
      (Listener.pollRound (asStream m.streams a (answers a))
        (asStream m.streams b (answers b))).1 := by
    intro a b
    unfold Streams.pollRound Listener.pollRound Stream.pollNext asStream
    dsimp only
    cases ha : m.streams.pollNext a (answers a) with
    | mk answer streams' =>
        cases answer with
        | ready yielded => cases yielded <;> rfl
        | pending =>
            have hsame := wsPoll_pending (congrArg Prod.fst ha)
            rw [ha] at hsame
            obtain rfl := (Prod.mk.inj hsame).2
            dsimp only
            cases hb : (m.streams.pollNext b (answers b)).1 with
            | ready yielded => cases yielded <;> rfl
            | pending => rfl
  rw [pollRound_eq]
  unfold RoundRobin.pollNext upNext
  cases m.pollFirst with
  | true => exact ⟨hround _ _, rfl⟩
  | false => exact ⟨hround _ _, rfl⟩

/-- What a poll of the two subscriptions can come to. -/
inductive Round (streams : Streams) (answers : Source → WsAnswer) :
    Poll (Option RpcLogsResponse) → Streams → Prop where
  | yielded {source : Source} {item : RpcLogsResponse} {streams' : Streams} :
      streams.next? source = some (item, streams') →
      Round streams answers (.ready (some item)) streams'
  | ended : Round streams answers (.ready none) streams
  | pending : (∀ source, (streams.pollNext source (answers source)).1 = .pending) →
      Round streams answers .pending streams

theorem wsPoll_cases (streams : Streams) (source : Source) (answer : WsAnswer) :
    (∃ item streams', streams.pollNext source answer = (.ready (some item), streams') ∧
      streams.next? source = some (item, streams')) ∨
    streams.pollNext source answer = (.ready none, streams) ∨
    streams.pollNext source answer = (.pending, streams) := by
  cases answer with
  | pending => exact Or.inr (Or.inr rfl)
  | ended => exact Or.inr (Or.inl rfl)
  | item =>
      cases hnext : streams.next? source with
      | none => exact Or.inr (Or.inr (by simp only [Streams.pollNext, hnext]))
      | some taken =>
          obtain ⟨item, streams'⟩ := taken
          exact Or.inl ⟨item, streams', by simp only [Streams.pollNext, hnext], rfl⟩

theorem round_cases (m : MergedStream) (answers : Source → WsAnswer) :
    Round m.streams answers (m.pollRound answers).1 (m.pollRound answers).2.streams := by
  rw [pollRound_eq]
  dsimp only
  unfold Streams.pollRound
  generalize ha : upNext m = a
  rcases wsPoll_cases m.streams a (answers a) with
    ⟨item, streams', hpoll, hnext⟩ | hpoll | hpoll
  · rw [hpoll]
    exact .yielded hnext
  · rw [hpoll]
    exact .ended
  · rw [hpoll]
    dsimp only
    rcases wsPoll_cases m.streams (other a) (answers (other a)) with
      ⟨item, streams', hsecond, hnext⟩ | hsecond | hsecond
    · rw [hsecond]
      exact .yielded hnext
    · rw [hsecond]
      exact .ended
    · rw [hsecond]
      refine .pending ?_
      intro source
      cases eq_or_other a source with
      | inl hsame => rw [hsame, hpoll]
      | inr hother => rw [hother, hsecond]

theorem round_futures (m : MergedStream) (answers : Source → WsAnswer) :
    (m.pollRound answers).2.fetchFutures = m.fetchFutures := by
  rw [pollRound_eq]

/-! ## Polls are events -/

/-- A guard that lets items and the end of a stream pass. -/
structure Permits (ok : World → Event → Prop) : Prop where
  item : ∀ w source, ok w (.item source)
  streamEnd : ∀ w, ok w .streamEnd

/-- The guard on polls: that of the events they stand for. -/
def OkPoll (ok : World → Event → Prop) (s : PolledScanner) : PollEvent → Prop
  | .event e _ => ok s.world e
  | .poll (some (sig, answered)) _ sendOk persistOk =>
      ok s.world (.fetched sig (if answered then .returns sendOk persistOk else .fails))
  | .poll none _ _ _ => True

/-- The scanner in its last loop, with what the poll function holds. -/
def inLoop (w : World) (m : MergedStream) : World :=
  { w with phase := .merged m.streams m.fetchFutures }

theorem step_item (config : Config) (w : World) {m' : MergedStream}
    (hnext : m.streams.next? source = some (item, m'.streams))
    (hfutures : m'.fetchFutures = m.fetchFutures) :
    World.step config (inLoop w m) (.item source) =
      some (inLoop w (if item.err.isNone then
        { m' with fetchFutures := m'.fetchFutures ++ [item.signature] } else m')) := by
  simp only [World.step, inLoop, hnext, Option.map_some]
  split
  · rw [hfutures]
  · rw [hfutures]

/-- **A poll of the filtered stream** is the items it takes, one event each. -/
theorem pollWsStream_refines {ok : World → Event → Prop} (hok : Permits ok) (limit : Nat)
    (answers : Nat → Source → WsAnswer) (hr : Reach (realtime config) ok (inLoop w m)) :
    (∀ item, (m.pollWsStream limit answers).1 = .ready (some item) →
      Reach (realtime config) ok (inLoop w { (m.pollWsStream limit answers).2 with
        fetchFutures := (m.pollWsStream limit answers).2.fetchFutures ++ [item.signature] })) ∧
    ((m.pollWsStream limit answers).1 = .ready none → Reach (realtime config) ok w.reconnect) ∧
    ((m.pollWsStream limit answers).1 = .pending →
      Reach (realtime config) ok (inLoop w (m.pollWsStream limit answers).2)) := by
  induction limit generalizing m answers with
  | zero => exact ⟨nofun, nofun, fun _ => hr⟩
  | succ limit ih =>
      have hround := round_cases m (answers 0)
      have hfutures := round_futures m (answers 0)
      unfold MergedStream.pollWsStream
      generalize m.pollRound (answers 0) = round at hround hfutures
      obtain ⟨answer, m'⟩ := round
      dsimp only at hround hfutures ⊢
      generalize hstreams : m'.streams = after at hround
      cases hround with
      | @yielded source item streams' hnext =>
          have hstep := step_item config w (hstreams ▸ hnext) hfutures
          have hnow := Reach.tail hr (hok.item _ source) hstep
          dsimp only
          by_cases herr : item.err.isNone = true
          · rw [if_pos herr] at hnow
            simp only [if_pos herr]
            refine ⟨?_, nofun, nofun⟩
            intro item' hitem
            obtain rfl := Option.some.inj (Poll.ready.inj hitem)
            exact hnow
          · rw [if_neg herr] at hnow
            simp only [if_neg herr]
            exact ih _ hnow
      | ended =>
          refine ⟨nofun, fun _ => ?_, nofun⟩
          exact Reach.tail hr (hok.streamEnd _) rfl
      | pending =>
          refine ⟨nofun, nofun, fun _ => ?_⟩
          have hsame : inLoop w m' = inLoop w m := by rw [inLoop, hstreams, hfutures, inLoop]
          exact hsame ▸ hr

/-! ## Runs of polls -/

theorem poll_refines {ok : World → Event → Prop} (hok : Permits ok) {pollFirst : Bool}
    {completed : Option (Signature × Bool)} {answers : Nat → Source → WsAnswer}
    {sendOk persistOk : Bool} {futures : List Signature} (hp : w.phase = .merged streams futures)
    (hin : ∀ done, done ∈ completed → done.1 ∈ futures)
    (hguard : OkPoll ok ⟨w, pollFirst⟩ (.poll completed answers sendOk persistOk))
    (hr : Reach (realtime config) ok w) :
    Reach (realtime config) ok (PolledScanner.handle w
      (MergedStream.poll ⟨pollFirst, streams, futures⟩ w.chain completed answers)
        sendOk persistOk) := by
  cases completed with
  | some done =>
      obtain ⟨sig, answered⟩ := done
      have hmem := hin (sig, answered) rfl
      refine Reach.tail hr hguard ?_
      change World.step config w _ = _
      cases answered with
      | false =>
          simp only [World.step, hp, MergedStream.poll, PolledScanner.handle,
            MergedStream.fetchFuture, Bool.false_eq_true, if_false, if_pos hmem]
      | true =>
          simp only [World.step, hp, MergedStream.poll, PolledScanner.handle,
            MergedStream.fetchFuture, if_true, if_pos hmem]
          cases hstatus : w.chain.status? sig with
          | none => rfl
          | some st => cases st <;> rfl
  | none =>
      have hloop : inLoop w ⟨pollFirst, streams, futures⟩ = w := by rw [inLoop, ← hp]
      have hpolled := pollWsStream_refines hok (streams.queued.length + 1) answers
        (w := w) (m := ⟨pollFirst, streams, futures⟩) (hloop.symm ▸ hr)
      unfold MergedStream.poll
      dsimp only
      generalize MergedStream.pollWsStream (streams.queued.length + 1) answers
        ⟨pollFirst, streams, futures⟩ = polled at hpolled ⊢
      obtain ⟨answer, m'⟩ := polled
      obtain ⟨hitem, hended, hpending⟩ := hpolled
      cases answer with
      | pending => exact hpending rfl
      | ready yielded =>
          cases yielded with
          | none => exact hended rfl
          | some item => exact hitem item rfl

theorem event_refines {s s' : PolledScanner} {e : Event} {pollFirst : Bool}
    (h : PolledScanner.step config s (.event e pollFirst) = some s') :
    World.step config s.world e = some s'.world := by
  simp only [PolledScanner.step] at h
  split at h
  · obtain ⟨w, hw, rfl⟩ := Option.map_eq_some_iff.mp h
    exact hw
  · cases h
  · obtain ⟨w, hw, rfl⟩ := Option.map_eq_some_iff.mp h
    exact hw

/-- **What holds of every run of the scanner holds of every run of its polls.** -/
theorem polls_refine {ok : World → Event → Prop} {s : PolledScanner} (hok : Permits ok)
    (hr : Reach (polledScanner config) (OkPoll ok) s) : Reach (realtime config) ok s.world := by
  induction hr with
  | init hi => exact Reach.init hi
  | @tail s s' e _ hguard hstep ih =>
      change PolledScanner.step config s e = some s' at hstep
      cases e with
      | event e pollFirst => exact Reach.tail ih hguard (event_refines hstep)
      | poll completed answers sendOk persistOk =>
          simp only [PolledScanner.step] at hstep
          split at hstep
          · rename_i hp
            split at hstep
            · rename_i hin
              obtain rfl := Option.some.inj hstep
              exact poll_refines hok hp hin hguard ih
            · cases hstep
          · cases hstep

instance (ok : World → Event → Prop) [∀ w e, Decidable (ok w e)] (s : PolledScanner) :
    (e : PollEvent) → Decidable (OkPoll ok s e)
  | .event e _ => inferInstanceAs (Decidable (ok s.world e))
  | .poll (some (_, _)) .. => inferInstanceAs (Decidable (ok s.world _))
  | .poll none .. => inferInstanceAs (Decidable True)

/-- A poll after which both subscriptions are asked once more for every dropped item. -/
def pollOnce (completed : Option (Signature × Bool)) : PollEvent :=
  .poll completed (fun _ _ => .item) true true

/-- Both log subscriptions deliver, and the polls find the fetches complete in order. -/
def pollTwoFetches : List PollEvent :=
  (([.connect true, .subscribe true, .subscribe true,
    .confirm (gatewayTx 1), .item .gateway, .firstFetched true,
    .batch (.static ⟨[gatewayTx 1], gatewayTx_distinct, gatewayTx_slots⟩) 3, .firstSent true,
    .confirm (gatewayTx 2), .confirm (gasServiceTx 3)] : List Event).map (.event · false)) ++
  [pollOnce none, pollOnce none, pollOnce (some (.filled 2, true)),
    pollOnce (some (.filled 3, true))]

theorem completesInOrder_permits : Permits CompletesInOrder :=
  ⟨fun _ _ => trivial, fun _ => trivial⟩

theorem polls_refine_twoFetches : ∃ s : PolledScanner,
    Reach (polledScanner ⟨.filled 1, .filled 2⟩) (OkPoll CompletesInOrder) s ∧
      s.world.persists.map PersistRecord.signature = [.filled 2, .filled 3] ∧
      Reach (realtime ⟨.filled 1, .filled 2⟩) CompletesInOrder s.world := by
  have hrun : (replay (polledScanner ⟨.filled 1, .filled 2⟩) (OkPoll CompletesInOrder)
      ⟨freshWorld, false⟩ pollTwoFetches).any (fun s =>
        decide (s.world.persists.map PersistRecord.signature = [.filled 2, .filled 3])) =
          true := by decide +kernel
  obtain ⟨s, hs, hsig⟩ := (Option.any_eq_true _ _).mp hrun
  have hinit : (polledScanner ⟨.filled 1, .filled 2⟩).init ⟨freshWorld, false⟩ :=
    freshWorld_init ⟨.filled 1, .filled 2⟩
  have hreach := Reach.of_replay (Reach.init hinit) hs
  exact ⟨s, hreach, of_decide_eq_true hsig, polls_refine completesInOrder_permits hreach⟩

/-! ## Who is asked next -/

/-- What one subscription holds, oldest first. -/
def queueOf (streams : Streams) : Source → List RpcLogsResponse
  | .gateway => streams.gateway.queue
  | .gasService => streams.gasService.queue

theorem next_queue (h : streams.next? source = some (item, streams')) :
    queueOf streams source = item :: queueOf streams' source ∧
      queueOf streams' (other source) = queueOf streams (other source) := by
  cases source with
  | gateway =>
      simp only [Streams.next?] at h
      split at h
      · cases h
      · rename_i hqueue
        cases h
        exact ⟨hqueue, rfl⟩
  | gasService =>
      simp only [Streams.next?] at h
      split at h
      · cases h
      · rename_i hqueue
        cases h
        exact ⟨hqueue, rfl⟩

theorem next_some (h : queueOf streams source ≠ []) :
    ∃ item streams', streams.next? source = some (item, streams') := by
  cases source with
  | gateway =>
      obtain ⟨item, rest, hqueue⟩ := List.exists_cons_of_ne_nil h
      change streams.gateway.queue = _ at hqueue
      exact ⟨item, _, by simp only [Streams.next?, hqueue]; rfl⟩
  | gasService =>
      obtain ⟨item, rest, hqueue⟩ := List.exists_cons_of_ne_nil h
      change streams.gasService.queue = _ at hqueue
      exact ⟨item, _, by simp only [Streams.next?, hqueue]; rfl⟩

/-- A subscription that has an item when it is asked. -/
def HasItem (streams : Streams) (source : Source) (answers : Source → WsAnswer) : Prop :=
  queueOf streams source ≠ [] ∧ answers source = .item

theorem asked_item (h : HasItem streams source answers) :
    ∃ item streams', streams.pollNext source (answers source) = (.ready (some item), streams') ∧
      queueOf streams source = item :: queueOf streams' source := by
  obtain ⟨item, streams', hnext⟩ := next_some h.1
  refine ⟨item, streams', ?_, (next_queue hnext).1⟩
  rw [h.2]
  simp only [Streams.pollNext, hnext]

theorem upNext_flips (m : MergedStream) (answers : Source → WsAnswer) :
    upNext (m.pollRound answers).2 = other (upNext m) := by
  rw [pollRound_eq]
  unfold upNext
  cases m.pollFirst <;> rfl

/-- What a round leaves in the queue of one subscription. -/
theorem round_takes (m : MergedStream) (answers : Source → WsAnswer) (source : Source) :
    ∃ taken, taken ++ queueOf (m.pollRound answers).2.streams source =
      queueOf m.streams source := by
  have hround := round_cases m answers
  generalize m.pollRound answers = round at hround ⊢
  obtain ⟨answer, m'⟩ := round
  dsimp only at hround ⊢
  generalize m'.streams = after at hround ⊢
  cases hround with
  | @yielded yielding item after hnext =>
      obtain ⟨hqueue, hother⟩ := next_queue hnext
      cases eq_or_other yielding source with
      | inl hsame =>
          rw [hsame]
          exact ⟨[item], hqueue.symm⟩
      | inr hrest =>
          rw [hrest]
          exact ⟨[], hother⟩
  | ended => exact ⟨[], rfl⟩
  | pending _ => exact ⟨[], rfl⟩

/-- Asked first, it yields. -/
theorem round_turn (hitem : HasItem m.streams source answers) (hturn : upNext m = source) :
    ∃ item, (m.pollRound answers).1 = .ready (some item) ∧
      queueOf m.streams source = item :: queueOf (m.pollRound answers).2.streams source := by
  obtain ⟨item, streams', hpoll, hqueue⟩ := asked_item hitem
  refine ⟨item, ?_⟩
  rw [pollRound_eq, hturn]
  simp only [Streams.pollRound, hpoll]
  exact ⟨trivial, hqueue⟩

/-- Asked second, it yields unless the other one does, or has ended. -/
theorem round_waits (hitem : HasItem m.streams source answers)
    (hturn : upNext m = other source) :
    (m.pollRound answers).1 = .ready none ∨
    (∃ item, (m.pollRound answers).1 = .ready (some item) ∧
      queueOf m.streams source = item :: queueOf (m.pollRound answers).2.streams source) ∨
    (∃ item, (m.pollRound answers).1 = .ready (some item) ∧
      queueOf (m.pollRound answers).2.streams source = queueOf m.streams source) := by
  have hother : other (other source) = source := by cases source <;> rfl
  obtain ⟨item, streams', hpoll, hqueue⟩ := asked_item hitem
  rw [pollRound_eq, hturn, hother]
  unfold Streams.pollRound
  rcases wsPoll_cases m.streams (other source) (answers (other source)) with
    ⟨first, after, hfirst, hnext⟩ | hfirst | hfirst
  · rw [hfirst]
    refine Or.inr (Or.inr ⟨first, rfl, ?_⟩)
    have hkept := (next_queue hnext).2
    rw [hother] at hkept
    exact hkept
  · rw [hfirst]
    exact Or.inl rfl
  · rw [hfirst]
    dsimp only
    rw [hpoll]
    exact Or.inr (Or.inl ⟨item, rfl, hqueue⟩)

/-! ## What a poll takes -/

theorem pollWsStream_takes (limit : Nat) (answers : Nat → Source → WsAnswer) (m : MergedStream)
    (source : Source) :
    (∃ taken, taken ++ queueOf (m.pollWsStream limit answers).2.streams source =
      queueOf m.streams source) ∧
    (m.pollWsStream limit answers).2.fetchFutures = m.fetchFutures := by
  induction limit generalizing m answers with
  | zero => exact ⟨⟨[], rfl⟩, rfl⟩
  | succ limit ih =>
      obtain ⟨taken, htaken⟩ := round_takes m (answers 0) source
      have hfutures := round_futures m (answers 0)
      unfold MergedStream.pollWsStream
      generalize m.pollRound (answers 0) = round at htaken hfutures
      obtain ⟨answer, m'⟩ := round
      cases answer with
      | pending => exact ⟨⟨taken, htaken⟩, hfutures⟩
      | ready yielded =>
          cases yielded with
          | none => exact ⟨⟨taken, htaken⟩, hfutures⟩
          | some item =>
              dsimp only at htaken hfutures ⊢
              by_cases herr : item.err.isNone = true
              · simp only [if_pos herr]
                exact ⟨⟨taken, htaken⟩, hfutures⟩
              · simp only [if_neg herr]
                obtain ⟨⟨more, hmore⟩, hrest⟩ := ih (fun k => answers (k + 1)) m'
                refine ⟨⟨taken ++ more, ?_⟩, hrest.trans hfutures⟩
                rw [List.append_assoc, hmore, htaken]

/-- On its turn a subscription that has an item loses it. -/
theorem pollWsStream_turn (answers : Nat → Source → WsAnswer)
    (hitem : HasItem m.streams source (answers 0)) (hturn : upNext m = source) (limit : Nat) :
    ∃ item taken, item :: taken ++
      queueOf (m.pollWsStream (limit + 1) answers).2.streams source = queueOf m.streams source := by
  obtain ⟨item, hready, hqueue⟩ := round_turn hitem hturn
  unfold MergedStream.pollWsStream
  generalize m.pollRound (answers 0) = round at hready hqueue
  obtain ⟨answer, m'⟩ := round
  obtain rfl : answer = .ready (some item) := hready
  dsimp only at hqueue ⊢
  by_cases herr : item.err.isNone = true
  · simp only [if_pos herr]
    exact ⟨item, [], hqueue.symm⟩
  · simp only [if_neg herr]
    obtain ⟨⟨taken, htaken⟩, _⟩ :=
      pollWsStream_takes limit (fun k => answers (k + 1)) m' source
    refine ⟨item, taken, ?_⟩
    rw [List.cons_append, htaken, hqueue]

/-- Out of turn it loses it too, unless an item of the other one is passed on. -/
theorem pollWsStream_waits {answers : Nat → Source → WsAnswer}
    (hitem : ∀ k, answers k source = .item) (hqueue : queueOf m.streams source ≠ [])
    (hturn : upNext m = other source) (limit : Nat) :
    (m.pollWsStream (limit + 2) answers).1 = .ready none ∨
    (∃ item taken, item :: taken ++
      queueOf (m.pollWsStream (limit + 2) answers).2.streams source =
        queueOf m.streams source) ∨
    ((∃ item, (m.pollWsStream (limit + 2) answers).1 = .ready (some item)) ∧
      queueOf (m.pollWsStream (limit + 2) answers).2.streams source = queueOf m.streams source ∧
      upNext (m.pollWsStream (limit + 2) answers).2 = source) := by
  have hother : other (other source) = source := by cases source <;> rfl
  have hcases := round_waits ⟨hqueue, hitem 0⟩ hturn
  have hflip := upNext_flips m (answers 0)
  rw [hturn, hother] at hflip
  unfold MergedStream.pollWsStream
  generalize m.pollRound (answers 0) = round at hcases hflip
  obtain ⟨answer, m'⟩ := round
  dsimp only at hcases hflip ⊢
  rcases hcases with rfl | ⟨item, rfl, hrest⟩ | ⟨item, rfl, hsame⟩
  · exact Or.inl rfl
  -- its own item
  · refine Or.inr (Or.inl ?_)
    dsimp only
    by_cases herr : item.err.isNone = true
    · simp only [if_pos herr]
      exact ⟨item, [], hrest.symm⟩
    · simp only [if_neg herr]
      obtain ⟨⟨taken, htaken⟩, _⟩ :=
        pollWsStream_takes (limit + 1) (fun k => answers (k + 1)) m' source
      refine ⟨item, taken, ?_⟩
      rw [List.cons_append, htaken, hrest]
  · dsimp only
    by_cases herr : item.err.isNone = true
    · simp only [if_pos herr]
      exact Or.inr (Or.inr ⟨⟨item, rfl⟩, hsame, hflip⟩)
    -- the item is dropped, and the filter polls again
    · simp only [if_neg herr]
      have hhas : HasItem m'.streams source (answers 1) := ⟨hsame ▸ hqueue, hitem 1⟩
      obtain ⟨item', taken, htaken⟩ :=
        pollWsStream_turn (fun k => answers (k + 1)) hhas hflip limit
      exact Or.inr (Or.inl ⟨item', taken, htaken.trans hsame⟩)

/-! ## Who wakes the task -/

theorem next_queued (h : streams.next? source = some (item, streams')) :
    streams.queued.length = streams'.queued.length + 1 := by
  obtain ⟨hqueue, hother⟩ := next_queue h
  unfold Streams.queued
  rw [List.length_append, List.length_append]
  cases source with
  | gateway =>
      change streams.gateway.queue = item :: streams'.gateway.queue at hqueue
      change streams'.gasService.queue = streams.gasService.queue at hother
      rw [hqueue, hother, List.length_cons]
      omega
  | gasService =>
      change streams.gasService.queue = item :: streams'.gasService.queue at hqueue
      change streams'.gateway.queue = streams.gateway.queue at hother
      rw [hqueue, hother, List.length_cons]
      omega

/-- The filtered stream is pending only when both subscriptions have just said so. -/
theorem pollWsStream_pending {limit : Nat} (m : MergedStream)
    (answers : Nat → Source → WsAnswer) (hlimit : m.streams.queued.length < limit)
    (h : (m.pollWsStream limit answers).1 = .pending) :
    ∃ k, ∀ source, ((m.pollWsStream limit answers).2.streams.pollNext source
      (answers k source)).1 = .pending := by
  induction limit generalizing m answers with
  | zero => exact absurd hlimit (Nat.not_lt_zero _)
  | succ limit ih =>
      have hround := round_cases m (answers 0)
      unfold MergedStream.pollWsStream at h ⊢
      generalize m.pollRound (answers 0) = round at hround h ⊢
      obtain ⟨answer, m'⟩ := round
      dsimp only at hround h ⊢
      generalize hstreams : m'.streams = after at hround
      cases hround with
      | @yielded yielding item after hnext =>
          dsimp only at h ⊢
          by_cases herr : item.err.isNone = true
          · simp only [if_pos herr] at h
            cases h
          -- a dropped item leaves one less to drop
          · simp only [if_neg herr] at h ⊢
            have hless := next_queued hnext
            rw [← hstreams] at hless
            obtain ⟨k, hk⟩ := ih m' (fun k => answers (k + 1)) (by omega) h
            exact ⟨k + 1, hk⟩
      | ended => cases h
      | pending hpending =>
          refine ⟨0, fun source => ?_⟩
          dsimp only
          rw [hstreams]
          exact hpending source

/--
**A poll is not `Pending` in vain**: it has woken the task itself, or no fetch was complete
and both subscriptions have answered `Pending`, and so have somebody to wake the task.
-/
theorem pending_keeps_wakeup {chain : Chain} {completed : Option (Signature × Bool)}
    {answers : Nat → Source → WsAnswer}
    (h : (m.poll chain completed answers).answer = .pending) :
    (m.poll chain completed answers).woken = true ∨
    completed = none ∧ ∃ k, ∀ source,
      ((m.poll chain completed answers).next.streams.pollNext source (answers k source)).1 =
        .pending := by
  cases completed with
  | some done => cases h
  | none =>
      have hpending := pollWsStream_pending m answers (Nat.lt_succ_self _)
      unfold MergedStream.poll at h ⊢
      dsimp only at h ⊢
      generalize m.pollWsStream (m.streams.queued.length + 1) answers = polled at hpending h ⊢
      obtain ⟨answer, m'⟩ := polled
      cases answer with
      | pending => exact Or.inr ⟨rfl, hpending rfl⟩
      | ready yielded =>
          cases yielded with
          | none => cases h
          | some item => exact Or.inl rfl

/-! ## How long an item can wait -/

/-- How many polls can go by before an item of a subscription is taken. -/
def rank (source : Source) (m : MergedStream) : Nat :=
  m.fetchFutures.length + if upNext m = source then 0 else 2

/-- A poll that finds no fetch complete comes to what the filtered stream answers. -/
theorem poll_ws (m : MergedStream) (chain : Chain) (answers : Nat → Source → WsAnswer)
    {polled : Poll (Option RpcLogsResponse) × MergedStream}
    (hpolled : m.pollWsStream (m.streams.queued.length + 1) answers = polled) :
    (m.poll chain none answers).next.streams = polled.2.streams ∧
    upNext (m.poll chain none answers).next = upNext polled.2 ∧
    (m.poll chain none answers).next.fetchFutures.length ≤ polled.2.fetchFutures.length + 1 ∧
    (polled.1 = .ready none → (m.poll chain none answers).answer = .ready none) := by
  obtain ⟨answer, m'⟩ := polled
  unfold MergedStream.poll
  dsimp only
  rw [hpolled]
  cases answer with
  | pending => exact ⟨rfl, rfl, Nat.le_succ _, nofun⟩
  | ready yielded =>
      cases yielded with
      | none => exact ⟨rfl, rfl, Nat.le_succ _, fun _ => rfl⟩
      | some item => exact ⟨rfl, rfl, by simp, nofun⟩

theorem queued_ne_nil (h : queueOf streams source ≠ []) : streams.queued.length ≠ 0 := by
  intro hlen
  obtain ⟨hgateway, hgasService⟩ := List.append_eq_nil_iff.mp (List.eq_nil_of_length_eq_zero hlen)
  cases source with
  | gateway => exact h hgateway
  | gasService => exact h hgasService

/-- A poll takes items of the subscription, or it brings its turn nearer. -/
theorem poll_rank (source : Source) {chain : Chain} {completed : Option (Signature × Bool)}
    {answers : Nat → Source → WsAnswer}
    (hin : ∀ done, done ∈ completed → done.1 ∈ m.fetchFutures)
    (hitem : ∀ k, answers k source = .item)
    (hstays : (m.poll chain completed answers).answer ≠ .ready none) :
    ∃ taken, taken ++ queueOf (m.poll chain completed answers).next.streams source =
        queueOf m.streams source ∧
      (queueOf m.streams source ≠ [] →
        rank source (m.poll chain completed answers).next + 1 ≤
          rank source m + 4 * taken.length) := by
  cases completed with
  | some done =>
      obtain ⟨sig, answered⟩ := done
      refine ⟨[], rfl, fun _ => ?_⟩
      have hmem : sig ∈ m.fetchFutures := hin (sig, answered) rfl
      have hlen := List.length_erase_of_mem hmem
      have hpos := List.length_pos_of_mem hmem
      simp only [MergedStream.poll, rank, List.length_nil]
      change (m.fetchFutures.erase sig).length + (if upNext m = source then 0 else 2) + 1 ≤ _
      omega
  | none =>
      generalize hpolled : m.pollWsStream (m.streams.queued.length + 1) answers = polled
      obtain ⟨⟨taken, htaken⟩, hfutures⟩ :=
        pollWsStream_takes (m.streams.queued.length + 1) answers m source
      obtain ⟨hstreams, hturn, hlen, hended⟩ := poll_ws m chain answers hpolled
      rw [hpolled] at htaken hfutures
      rw [rank, rank, hstreams, hturn]
      by_cases hempty : queueOf m.streams source = []
      · exact ⟨taken, htaken, fun hne => absurd hempty hne⟩
      obtain ⟨n, hn⟩ := Nat.exists_eq_succ_of_ne_zero (queued_ne_nil hempty)
      cases eq_or_other (upNext m) source with
      | inl hours =>
          obtain ⟨item, mine, hmine⟩ := pollWsStream_turn answers
            ⟨hempty, hitem 0⟩ hours.symm m.streams.queued.length
          rw [hpolled] at hmine
          refine ⟨item :: mine, hmine, fun _ => ?_⟩
          rw [hfutures] at hlen
          rw [List.length_cons]
          split <;> omega
      | inr htheirs =>
          have hother : upNext m = other source := by rw [htheirs]; cases upNext m <;> rfl
          have hwaits := pollWsStream_waits hitem hempty hother n
          have hne : upNext m ≠ source := by rw [hother]; cases source <;> nofun
          have hlimit : n + 2 = m.streams.queued.length + 1 := by rw [hn]
          rw [hlimit, hpolled] at hwaits
          rw [hfutures] at hlen
          rcases hwaits with hnone | ⟨item, mine, hmine⟩ | ⟨_, hsame, hours⟩
          · exact absurd (hended hnone) hstays
          · refine ⟨item :: mine, hmine, fun _ => ?_⟩
            rw [List.length_cons, if_neg hne]
            split <;> omega
          · refine ⟨[], hsame, fun _ => ?_⟩
            rw [List.length_nil, if_pos hours, if_neg hne]
            omega

/-- Polls that find the subscription ready, and confirmations between them. -/
def Ready (source : Source) : PollEvent → Prop
  | .event (.confirm _) _ => True
  | .event .. => False
  | .poll _ answers _ _ => ∀ k, answers k source = .item

def isPoll : PollEvent → Bool
  | .event .. => false
  | .poll .. => true

/-- The scanner in its last loop. -/
def InLoop (s : PolledScanner) (m : MergedStream) : Prop :=
  s.pollFirst = m.pollFirst ∧ s.world.phase = .merged m.streams m.fetchFutures

theorem handle_stays {polled : MergedStream.Polled} {sendOk persistOk : Bool}
    {futures : List Signature}
    (h : (PolledScanner.handle w polled sendOk persistOk).phase = .merged streams futures) :
    polled.answer ≠ .ready none ∧ streams = polled.next.streams ∧
      futures = polled.next.fetchFutures := by
  obtain ⟨answer, woken, next⟩ := polled
  cases answer with
  | pending =>
      cases h
      exact ⟨nofun, rfl, rfl⟩
  | ready yielded =>
      cases yielded with
      | none => cases h
      | some result =>
          refine ⟨nofun, ?_⟩
          cases result with
          | error => cases h
          | ok logItem =>
              cases logItem with
              | none =>
                  cases h
                  exact ⟨rfl, rfl⟩
              | some logItem =>
                  simp only [PolledScanner.handle, World.handleLogItem] at h
                  split at h
                  · split at h
                    · cases h
                      exact ⟨rfl, rfl⟩
                    · cases h
                  · cases h

theorem notify_queue (config : Config) (streams : Streams) (st : TxStatus) (source : Source) :
    ∃ added, queueOf (streams.notify config st) source = queueOf streams source ++ added := by
  have hsub : ∀ (sub : Subscription) address, ∃ added,
      (sub.notify address st).queue = sub.queue ++ added := by
    intro sub address
    unfold Subscription.notify
    split
    · exact ⟨_, rfl⟩
    · exact ⟨[], (List.append_nil _).symm⟩
  cases source with
  | gateway => exact hsub _ _
  | gasService => exact hsub _ _

theorem confirm_phase {st : TxStatus} (h : w.confirm config st = some w') :
    w'.phase = w.phase.notify config st := by
  obtain ⟨chain, _, rfl⟩ := Option.map_eq_some_iff.mp h
  rfl

/-- What one event of such a run does to the queue and to the rank. -/
theorem step_rank {s s' : PolledScanner} {m m' : MergedStream} {e : PollEvent}
    (hin : InLoop s m) (hready : Ready source e)
    (hstep : PolledScanner.step config s e = some s') (hin' : InLoop s' m') :
    ∃ taken added, taken ++ queueOf m'.streams source = queueOf m.streams source ++ added ∧
      (queueOf m.streams source ≠ [] →
        rank source m' + (if isPoll e then 1 else 0) ≤ rank source m + 4 * taken.length) := by
  obtain ⟨w, pollFirst⟩ := s
  obtain ⟨first, streams, futures⟩ := m
  obtain ⟨hfirst, hp⟩ := hin
  obtain ⟨hfirst', hp'⟩ := hin'
  dsimp only at hfirst hp
  subst hfirst
  cases e with
  | event e flag =>
      cases e with
      | confirm st =>
          simp only [PolledScanner.step, hp] at hstep
          obtain ⟨w', hw', rfl⟩ := Option.map_eq_some_iff.mp hstep
          have hphase := confirm_phase hw'
          rw [hp'] at hphase
          rw [hp] at hphase
          obtain ⟨hstreams, hfutures⟩ := Phase.merged.inj hphase
          obtain ⟨added, hadded⟩ := notify_queue config streams st source
          refine ⟨[], added, by rw [hstreams, List.nil_append, hadded], fun _ => ?_⟩
          obtain ⟨first', streams', futures'⟩ := m'
          dsimp only at hfirst' hfutures
          rw [hfutures, ← hfirst']
          exact Nat.le_refl _
      | _ => exact hready.elim
  | poll completed answers sendOk persistOk =>
      simp only [PolledScanner.step, hp] at hstep
      split at hstep
      · rename_i hdone
        obtain rfl := Option.some.inj hstep
        obtain ⟨hstays, hstreams, hfutures⟩ := handle_stays hp'
        have hsame : (MergedStream.poll ⟨pollFirst, streams, futures⟩ w.chain completed
            answers).next = m' := by
          obtain ⟨first', streams', futures'⟩ := m'
          dsimp only at hstreams hfutures hfirst'
          rw [hstreams, hfutures, ← hfirst']
        obtain ⟨taken, htaken, hrank⟩ := poll_rank source hdone hready hstays
        rw [hsame] at htaken hrank
        refine ⟨taken, [], by rw [List.append_nil, htaken], hrank⟩
      · cases hstep

/-- Outside its last loop such a run only confirms. -/
theorem step_outside {s s' : PolledScanner} {m' : MergedStream} {e : PollEvent}
    (hready : Ready source e) (hstep : PolledScanner.step config s e = some s')
    (hin' : InLoop s' m') : ∃ m, InLoop s m := by
  obtain ⟨w, pollFirst⟩ := s
  cases hp : w.phase with
  | merged streams futures => exact ⟨⟨pollFirst, streams, futures⟩, rfl, hp⟩
  | _ =>
      cases e with
      | poll => simp only [PolledScanner.step, hp] at hstep; cases hstep
      | event e flag =>
          cases e with
          | confirm st =>
              have hphase := confirm_phase (event_refines hstep)
              rw [hin'.2, hp] at hphase
              cases hphase
          | _ => exact hready.elim

theorem replay_outside {s s' : PolledScanner} {m' : MergedStream} {es : List PollEvent}
    (hready : ∀ e, e ∈ es → Ready source e)
    (hrun : replay (polledScanner config) always s es = some s') (hin' : InLoop s' m') :
    ∃ m, InLoop s m := by
  induction es generalizing s with
  | nil =>
      rw [replay, Option.some.injEq] at hrun
      exact ⟨m', hrun ▸ hin'⟩
  | cons e es ih =>
      rw [replay_always_cons] at hrun
      obtain ⟨s1, hs1, hrest⟩ := Option.bind_eq_some_iff.mp hrun
      obtain ⟨m1, hin1⟩ := ih (fun e' he' => hready e' (List.mem_cons_of_mem e he')) hrest
      exact step_outside (hready e List.mem_cons_self) hs1 hin1

/-- A whole run: as long as an item stays in the queue, the rank pays for every poll. -/
theorem replay_rank {s s' : PolledScanner} {m m' : MergedStream} {es : List PollEvent}
    (hin : InLoop s m) (hready : ∀ e, e ∈ es → Ready source e)
    (hrun : replay (polledScanner config) always s es = some s') (hin' : InLoop s' m') :
    ∃ taken added, taken ++ queueOf m'.streams source = queueOf m.streams source ++ added ∧
      ∀ j, j < (queueOf m.streams source).length → taken.length ≤ j →
        rank source m' + es.countP isPoll ≤ rank source m + 4 * taken.length := by
  induction es generalizing s m with
  | nil =>
      rw [replay, Option.some.injEq] at hrun
      subst hrun
      obtain ⟨hfirst, hp⟩ := hin
      obtain ⟨hfirst', hp'⟩ := hin'
      obtain ⟨first, streams, futures⟩ := m
      obtain ⟨first', streams', futures'⟩ := m'
      dsimp only at hfirst hfirst' hp hp'
      rw [hp] at hp'
      obtain ⟨rfl, rfl⟩ := Phase.merged.inj hp'
      obtain rfl := hfirst.symm.trans hfirst'
      exact ⟨[], [], by rw [List.nil_append, List.append_nil], fun _ _ _ => Nat.le_refl _⟩
  | cons e es ih =>
      rw [replay_always_cons] at hrun
      obtain ⟨s1, hs1, hrest⟩ := Option.bind_eq_some_iff.mp hrun
      have hready' : ∀ e', e' ∈ es → Ready source e' :=
        fun e' he' => hready e' (List.mem_cons_of_mem e he')
      obtain ⟨m1, hin1⟩ := replay_outside hready' hrest hin'
      obtain ⟨taken1, added1, hqueue1, hrank1⟩ :=
        step_rank hin (hready e List.mem_cons_self) hs1 hin1
      obtain ⟨taken2, added2, hqueue2, hrank2⟩ := ih hin1 hready' hrest
      refine ⟨taken1 ++ taken2, added1 ++ added2, ?_, ?_⟩
      · rw [List.append_assoc, hqueue2, ← List.append_assoc, hqueue1, List.append_assoc]
      · intro j hj hwaits
        have hlen := congrArg List.length hqueue1
        rw [List.length_append, List.length_append] at hlen
        rw [List.length_append] at hwaits
        have hne : queueOf m.streams source ≠ [] :=
          List.ne_nil_of_length_pos (Nat.zero_lt_of_lt hj)
        have hfirst := hrank1 hne
        have hlater := hrank2 (j - taken1.length) (by omega) (by omega)
        rw [List.countP_cons, List.length_append]
        omega

/--
**No item waits for ever.** As long as its subscription answers when it is asked, the item
behind `j` others is taken within four polls for each of these, one for each pending fetch
and three more, whatever the other subscription and the fetches do.
-/
theorem pulled_within {s s' : PolledScanner} {m m' : MergedStream} {es : List PollEvent} {j : Nat}
    (hin : InLoop s m) (hready : ∀ e, e ∈ es → Ready source e)
    (hrun : replay (polledScanner config) always s es = some s') (hin' : InLoop s' m')
    (hj : j < (queueOf m.streams source).length)
    (hpolls : m.fetchFutures.length + 4 * j + 3 ≤ es.countP isPoll) :
    ∃ taken added, taken ++ queueOf m'.streams source = queueOf m.streams source ++ added ∧
      j < taken.length := by
  obtain ⟨taken, added, hqueue, hrank⟩ := replay_rank hin hready hrun hin'
  refine ⟨taken, added, hqueue, ?_⟩
  by_contra hwaits
  have hpaid := hrank j hj (Nat.le_of_not_lt hwaits)
  have hstart : rank source m ≤ m.fetchFutures.length + 2 := by
    unfold rank
    split <;> omega
  omega

/-- Two notifications of the gateway's and one of the gas service's. -/
def threeQueued : MergedStream :=
  ⟨false, ⟨⟨0, [⟨.filled 1, none⟩, ⟨.filled 2, none⟩]⟩, ⟨0, [⟨.filled 3, none⟩]⟩⟩, []⟩

/-- All three taken, the one of the gas service second. -/
def threeTaken : MergedStream :=
  ⟨true, ⟨⟨0, []⟩, ⟨0, []⟩⟩, [.filled 1, .filled 3, .filled 2]⟩

theorem pulled_within_threeQueued :
    ∃ taken added, taken ++ queueOf threeTaken.streams .gasService =
      queueOf threeQueued.streams .gasService ++ added ∧ 0 < taken.length := by
  have hrun : replay (polledScanner ⟨.filled 1, .filled 2⟩) always
      ⟨inLoop freshWorld threeQueued, false⟩ (List.replicate 3 (pollOnce none)) =
        some ⟨inLoop freshWorld threeTaken, true⟩ := rfl
  refine pulled_within ⟨rfl, rfl⟩ ?_ hrun ⟨rfl, rfl⟩ (by decide)
    (by decide)
  intro e he
  obtain rfl := List.eq_of_mem_replicate he
  exact fun _ => rfl

end AxelarRelayer.Proof
