import AxelarRelayer.Task.Pusher

/-!
# When `task_stream` is polled

The executor polls the stream only after its task was woken. A source that answers
`Pending` keeps the waker of the task: the receiver wakes it with the next thing that
is sent, a background future when it can go on. The poll function itself never calls
`wake_by_ref`; `futures_ordered` may do so while it is polled, to yield.

`polls` is a ghost: what every call of the poll function saw and returned.
-/

namespace AxelarRelayer.Task

open AxelarRelayer Runs

/-- What `rx.poll_next_unpin(cx)` answers. -/
def SolanaTxPusher.receiverAnswer (s : SolanaTxPusher) : Poll (Option TaskItem) :=
  match s.channel with
  | task :: _ => .ready (some task)
  | [] => if s.closed then .ready none else .pending

/-- One call of the poll function. -/
structure PollRecord where
  receiver : Poll (Option TaskItem)
  returnedPending : Bool
  /-- the task was woken during the call -/
  rewoken : Bool
  /-- `rx.is_terminated()` behind the call -/
  isTerminated : Bool

/-- `task_stream`, and the task that polls it. -/
structure TaskStream where
  pusher : SolanaTxPusher
  /-- the receiver keeps the waker -/
  registered : Bool
  /-- the task is going to be polled -/
  woken : Bool
  polls : List PollRecord

/-- A task that was just spawned. -/
def TaskStream.start : TaskStream := ⟨.start, false, true, []⟩

inductive TaskStreamEvent where
  | send (task : TaskItem)
  | close
  /-- a background future can go on -/
  | wake
  | poll (progress : List (Nat × Except Report Unit)) (rewoken : Bool)
      (stored : Except String Unit)

/-- The receiver wakes the task, if it keeps the waker. -/
def TaskStream.notify (s : TaskStream) (pusher : SolanaTxPusher) : TaskStream :=
  { s with pusher := pusher, woken := s.woken || s.registered, registered := false }

/-- One call of the poll function; behind an item the loop polls on. -/
def TaskStream.polled (s : TaskStream) (progress : List (Nat × Except Report Unit))
    (rewoken : Bool) (pusher : SolanaTxPusher) : TaskStream where
  pusher := pusher
  registered := s.pusher.receiverAnswer.isPending
  woken := rewoken || !(s.pusher.pollTaskStream progress).1.isPending
  polls := s.polls ++ [{
    receiver := s.pusher.receiverAnswer
    returnedPending := (s.pusher.pollTaskStream progress).1.isPending
    rewoken := rewoken
    isTerminated := (s.pusher.pollTaskStream progress).2.isTerminated }]

def TaskStream.step (s : TaskStream) : TaskStreamEvent → Option TaskStream
  | .send task => (s.pusher.step (.send task)).map s.notify
  | .close => (s.pusher.step .close).map s.notify
  | .wake =>
      if s.pusher.futuresOrdered.any fun future => future.result.isNone then
        some { s with woken := true }
      else none
  | .poll progress rewoken stored =>
      if s.woken then (s.pusher.step (.poll progress stored)).map (s.polled progress rewoken)
      else none

/-- The stream under every interleaving of arrivals, wake-ups and polls. -/
def taskStream : System TaskStream TaskStreamEvent where
  init s := s = .start
  step := TaskStream.step

end AxelarRelayer.Task
