import AxelarRelayer.Listener.RealtimeScanner
import AxelarRelayer.Listener.RoundRobin

/-!
# `merged_stream`, poll by poll

`RealtimeScanner` has an event for every item and for every fetch that completes. Below it
is a hand-written poll function: the pending fetches are asked first, then the filtered
`ws_stream`, whose items become fetches. A subscription that holds a notification may still
answer `Pending`, and so may a fetch that could complete.
-/

namespace AxelarRelayer.Listener

open AxelarRelayer

deriving instance DecidableEq for Source

/-- What a log subscription answers to a poll; `item` is the oldest notification it holds. -/
inductive WsAnswer where
  | pending
  | item
  | ended
deriving DecidableEq

def Streams.pollNext (streams : Streams) (source : Source) :
    WsAnswer → Poll (Option RpcLogsResponse) × Streams
  | .pending => (.pending, streams)
  | .item => match streams.next? source with
    | some (item, streams') => (.ready (some item), streams')
    | none => (.pending, streams)
  | .ended => (.ready none, streams)

/-- `poll_round` on the two subscriptions. -/
def Streams.pollRound (streams : Streams) (a b : Source) (answers : Source → WsAnswer) :
    Poll (Option RpcLogsResponse) × Streams :=
  match streams.pollNext a (answers a) with
  | (.pending, streams) => streams.pollNext b (answers b)
  | (.ready answer, streams) => (.ready answer, streams)

/-- What the closure of `merged_stream` owns. -/
structure MergedStream where
  /-- `poll_first` of `round_robin_two_streams` -/
  pollFirst : Bool
  streams : Streams
  fetchFutures : List Signature

namespace MergedStream

/-- One poll of `round_robin_two_streams`. -/
def pollRound (m : MergedStream) (answers : Source → WsAnswer) :
    Poll (Option RpcLogsResponse) × MergedStream :=
  -- flip which stream is polled first
  let pollFirst := !m.pollFirst
  let (answer, streams) :=
    if pollFirst then m.streams.pollRound .gateway .gasService answers
    else m.streams.pollRound .gasService .gateway answers
  (answer, { m with pollFirst := pollFirst, streams := streams })

/--
One poll of `ws_stream`: the filter polls on while it gets items of failed transactions.
`answers k` are the answers to its `k`-th poll; every item it drops was in a queue.
-/
def pollWsStream : Nat → (Nat → Source → WsAnswer) → MergedStream →
    Poll (Option RpcLogsResponse) × MergedStream
  | 0, _, m => (.pending, m) -- there was an item more than the queues hold
  | limit + 1, answers, m =>
      match m.pollRound (answers 0) with
      | (.ready (some item), m) =>
          if item.err.isNone then (.ready (some item), m)
          else pollWsStream limit (fun k => answers (k + 1)) m
      | (.ready none, m) => (.ready none, m)
      | (.pending, m) => (.pending, m)

/-- What a fetch comes to, if `fetch_transaction` is answered or not. -/
def fetchFuture (chain : Chain) (sig : Signature) (answered : Bool) :
    Except Report (Option SolanaTransaction) :=
  if answered then
    match chain.status? sig with
    | some (.successful logItem) => .ok (some logItem)
    | some (.failed ..) => .ok none
    | none => .error (.msg "transaction not found")
  else .error (.msg "getTransaction failed")

/-- What a poll comes to. -/
structure Polled where
  answer : Poll (Option (Except Report (Option SolanaTransaction)))
  /-- `cx.waker().wake_by_ref()` was called -/
  woken : Bool
  next : MergedStream

/-- One poll of `merged_stream`, given the fetch that is found complete, if any. -/
def poll (m : MergedStream) (chain : Chain) (completed : Option (Signature × Bool))
    (answers : Nat → Source → WsAnswer) : Polled :=
  match completed with
  | some (sig, answered) =>
      ⟨.ready (some (fetchFuture chain sig answered)), true,
        { m with fetchFutures := m.fetchFutures.erase sig }⟩
  | none =>
      match m.pollWsStream (m.streams.queued.length + 1) answers with
      | (.ready (some item), m) =>
          -- `Pending` because the actual result comes from the fetch
          ⟨.pending, true, { m with fetchFutures := m.fetchFutures ++ [item.signature] }⟩
      | (.ready none, m) => ⟨.ready none, false, m⟩
      | (.pending, m) => ⟨.pending, false, m⟩

end MergedStream

/-- `process_realtime_logs` with the polls of its last loop. -/
structure PolledScanner where
  world : World
  /-- `poll_first`, as the polls of the current connection have left it -/
  pollFirst : Bool

inductive PollEvent where
  /-- anything outside the merged stream, and the flag the polls for the first item leave -/
  | event (e : Event) (pollFirst : Bool)
  /-- one poll of `merged_stream`, and how the `send` and the storing after it go -/
  | poll (completed : Option (Signature × Bool)) (answers : Nat → Source → WsAnswer)
      (sendOk persistOk : Bool)

namespace PolledScanner

/-- The body of the `while let` loop, or the way out of it. -/
def handle (w : World) (polled : MergedStream.Polled) (sendOk persistOk : Bool) : World :=
  let { streams, fetchFutures, .. } := polled.next
  match polled.answer with
  | .pending => { w with phase := .merged streams fetchFutures }
  | .ready (some (.ok (some logItem))) =>
      w.handleLogItem streams fetchFutures logItem sendOk persistOk
  | .ready (some (.ok none)) => { w with phase := .merged streams fetchFutures }
  | .ready (some (.error _)) => w.reconnect
  | .ready none => w.reconnect

def step (config : Config) (s : PolledScanner) : PollEvent → Option PolledScanner
  | .event e pollFirst =>
      match s.world.phase, e with
      | .merged .., .confirm st => (s.world.confirm config st).map fun w => { s with world := w }
      | .merged .., _ => none
      | _, e => (s.world.step config e).map fun w => ⟨w, pollFirst⟩
  | .poll completed answers sendOk persistOk =>
      match s.world.phase with
      | .merged streams fetchFutures =>
          if ∀ done ∈ completed, done.1 ∈ fetchFutures then
            let polled := MergedStream.poll ⟨s.pollFirst, streams, fetchFutures⟩ s.world.chain
              completed answers
            some ⟨handle s.world polled sendOk persistOk, polled.next.pollFirst⟩
          else none
      | _ => none

end PolledScanner

/-- The scanner at the level of polls. -/
def polledScanner (config : Config) : Runs.System PolledScanner PollEvent where
  init s := (realtime config).init s.world
  step := PolledScanner.step config

end AxelarRelayer.Listener
