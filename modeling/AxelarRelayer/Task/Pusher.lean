import AxelarRelayer.Lib.Runs
import AxelarRelayer.Task.Processor

/-!
# `SolanaTxPusher::process_internal`

Tasks come in on a channel, every one becomes a future on `futures_ordered`, and
what the futures come to is handed on in the order in which they were pushed.
Receiving and handing on happen in one hand-written poll function; whatever the
futures do, they do while it polls them.

The loop around it records the id of each task and drops its result.
-/

namespace AxelarRelayer.Task

open AxelarRelayer Runs

/-- One future on `futures_ordered`: its task, and what `process_task` returned, once it has. -/
structure TaskFuture where
  task : TaskItem
  result : Option (Except Report Unit)

/-- The locals of `process_internal`, and what happened so far. -/
structure SolanaTxPusher where
  /-- what was sent on the channel and is not received yet -/
  channel : List TaskItem
  /-- the senders are gone -/
  closed : Bool
  /-- `rx.is_terminated()` -/
  isTerminated : Bool
  futuresOrdered : List TaskFuture
  /-- everything `rx` yielded -/
  received : List TaskItem
  /-- the positions in `received` of the tasks for which `process_task` has returned -/
  returned : List Nat
  /-- what `set_latest_processed_task_id` was called with -/
  recorded : List TaskItemId
  /-- `task_stream` yielded `None` -/
  streamEnded : Bool
  /-- the error `process_internal` returned, once it has -/
  ended : Option Report

namespace SolanaTxPusher

/-- A pusher that has just been started. -/
def start : SolanaTxPusher := ⟨[], false, false, [], [], [], [], false, none⟩

/-- `rx.poll_next_unpin(cx)`: a task that is ready is pushed to `futures_ordered`. -/
def pollReceiver (s : SolanaTxPusher) : SolanaTxPusher :=
  match s.channel with
  | task :: channel =>
      { s with
        channel := channel
        received := s.received ++ [task]
        futuresOrdered := s.futuresOrdered ++ [⟨task, none⟩] }
  | [] => if s.closed then { s with isTerminated := true } else s

/-- While `futures_ordered` is polled, its `n`-th future completes. -/
def complete (s : SolanaTxPusher) (done : Nat × Except Report Unit) : SolanaTxPusher :=
  match s.futuresOrdered[done.1]? with
  | some ⟨task, none⟩ =>
      { s with
        futuresOrdered := s.futuresOrdered.set done.1 ⟨task, some done.2⟩
        returned := s.returned ++ [s.received.length - s.futuresOrdered.length + done.1] }
  | _ => s

/-- The second half of the poll function: what `futures_ordered.poll_next_unpin(cx)` comes to. -/
def pollFutures (s : SolanaTxPusher) :
    Poll (Option (TaskItemId × Except Report Unit)) × SolanaTxPusher :=
  match s.futuresOrdered with
  | ⟨task, some result⟩ :: futures =>
      (.ready (some (task.id, result)), { s with futuresOrdered := futures })
  | [] => if s.isTerminated then (.ready none, s) else (.pending, s)
  | ⟨_, none⟩ :: _ => (.pending, s)

/-- The poll function, given what completes while the futures are polled. -/
def pollTaskStream (s : SolanaTxPusher) (progress : List (Nat × Except Report Unit)) :
    Poll (Option (TaskItemId × Except Report Unit)) × SolanaTxPusher :=
  (progress.foldl complete s.pollReceiver).pollFutures

/-- What the loop does with what the stream came to, given the answer of the state file. -/
def handle (stored : Except String Unit) :
    Poll (Option (TaskItemId × Except Report Unit)) × SolanaTxPusher → SolanaTxPusher
  | (.pending, s) => s
  | (.ready none, s) => { s with streamEnded := true, ended := some (.msg "fatal error") }
  | (.ready (some (taskItemId, _)), s) =>
      let s := { s with recorded := s.recorded ++ [taskItemId] }
      match stored with
      | .ok _ => s -- an error of the task is logged
      | .error text => { s with ended := some (.msg text) }

end SolanaTxPusher

/-- What can happen around and inside a pusher. -/
inductive PusherEvent where
  /-- the Amplifier component sends a task -/
  | send (task : TaskItem)
  /-- the last sender is dropped -/
  | close
  /-- the stream is polled once, and the loop handles what that comes to -/
  | poll (progress : List (Nat × Except Report Unit)) (stored : Except String Unit)

/-- One event. -/
def SolanaTxPusher.step (s : SolanaTxPusher) : PusherEvent → Option SolanaTxPusher
  | .send task => if s.closed then none else some { s with channel := s.channel ++ [task] }
  | .close => some { s with closed := true }
  | .poll progress stored =>
      if s.ended.isSome then none
      else some (SolanaTxPusher.handle stored (s.pollTaskStream progress))

/-- The pusher under every interleaving of arrivals, completions and polls. -/
def pusher : System SolanaTxPusher PusherEvent where
  init s := s = .start
  step := SolanaTxPusher.step

end AxelarRelayer.Task
