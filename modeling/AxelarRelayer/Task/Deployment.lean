import AxelarRelayer.Task.Pusher

/-!
# A relayer that is stopped and started again

The Amplifier component hands the tasks of the Amplifier API to the pusher, in order
and from the one after the id in the state file on. A stop ends the pusher with all
its futures, though what they had sent may still be confirmed. The chain and the
state file survive it.
-/

namespace AxelarRelayer.Task

open AxelarRelayer Runs

structure Deployment where
  /-- the tasks of the Amplifier API -/
  tasks : List TaskItem
  /-- An id names one task. -/
  distinct : (tasks.map TaskItem.id).Nodup
  /-- the field of the state file -/
  latestProcessedTaskItemId : BitVec 128
  /-- the position in `tasks` of the next one to send -/
  next : Nat
  pusher : SolanaTxPusher
  relayer : Relayer
  /-- what `process_task` landed for refund tasks, with the id of the task -/
  refunds : List (TaskItemId × TxStatus)

namespace Deployment

/-- A relayer that has not been started before. -/
def fresh (tasks : List TaskItem) (distinct : (tasks.map TaskItem.id).Nodup) (relayer : Relayer) :
    Deployment := ⟨tasks, distinct, 0, 0, .start, relayer, []⟩

/-- `latest_processed_task_id`: zero stands for no id. -/
def latestProcessedTaskId (d : Deployment) : Option TaskItemId :=
  if d.latestProcessedTaskItemId = 0 then none else some ⟨d.latestProcessedTaskItemId⟩

/-- The position of the first task after the one recorded last. -/
def resumeAt (d : Deployment) : Nat :=
  match d.latestProcessedTaskId with
  | none => 0
  | some id => (d.tasks.map TaskItem.id).idxOf id + 1

/-- What a task landed, if it is a refund. -/
def refundsOf (item : TaskItem) (before after : Relayer) : List (TaskItemId × TxStatus) :=
  match item.task with
  | .refund _ => (after.world.landed.drop before.world.landed.length).map fun st => (item.id, st)
  | _ => []

variable (ctx : Context)

/-- The `n`-th future runs `process_task` to its end. -/
def work (d : Deployment) (n : Nat) : Deployment :=
  match d.pusher.futuresOrdered[n]? with
  | some ⟨item, none⟩ =>
      let relayer := Effect.stateOf (processTask ctx item d.relayer)
      { d with
        relayer := relayer
        pusher := d.pusher.complete (n, Effect.resultOf (processTask ctx item d.relayer))
        refunds := d.refunds ++ refundsOf item d.relayer relayer }
  | _ => d

/-- `set_latest_processed_task_id` for what the stream yielded; the map is written, then flushed. -/
def record (d : Deployment) (flushed : Except String Unit) : Deployment :=
  { d with
    pusher := SolanaTxPusher.handle flushed d.pusher.pollFutures
    latestProcessedTaskItemId := match d.pusher.pollFutures.1 with
      | .ready (some (taskItemId, _)) => taskItemId.uuid
      | _ => d.latestProcessedTaskItemId }

/-- One poll of the task stream, during which the futures in `progress` run to their end. -/
def poll (d : Deployment) (progress : List Nat) (flushed : Except String Unit) : Deployment :=
  (progress.foldl (work ctx) { d with pusher := d.pusher.pollReceiver }).record flushed

/--
The relayer stops, wherever it is, and is started again. `strays` are the futures
whose work takes effect all the same; what others have got onto the chain by then is
among the `others` of the next call. The estimator's cache is gone.
-/
def restart (d : Deployment) (strays : List Nat) : Deployment :=
  let d := strays.foldl (work ctx) d
  { d with
    next := d.resumeAt
    pusher := .start
    relayer := { d.relayer with world := { d.relayer.world with cache := fun _ => none } } }

end Deployment

inductive DeploymentEvent where
  /-- the Amplifier API has a new task -/
  | submit (task : TaskItem)
  /-- the Amplifier component sends the next one -/
  | deliver
  /-- it drops its end of the channel -/
  | close
  | poll (progress : List Nat) (flushed : Except String Unit)
  | restart (strays : List Nat)

/-- One event. -/
def Deployment.step (ctx : Context) (d : Deployment) : DeploymentEvent → Option Deployment
  | .submit task =>
      if h : task.id ∈ d.tasks.map TaskItem.id then none
      else some { d with
        tasks := d.tasks ++ [task]
        distinct := by
          rw [List.map_append, List.nodup_append]
          refine ⟨d.distinct, List.nodup_singleton _, fun a ha b hb hab => h ?_⟩
          rw [← List.mem_singleton.mp hb, ← hab]
          exact ha }
  | .deliver =>
      match d.tasks[d.next]? with
      | none => none
      | some task =>
          if d.pusher.closed then none
          else some { d with
            next := d.next + 1
            pusher := { d.pusher with channel := d.pusher.channel ++ [task] } }
  | .close => some { d with pusher := { d.pusher with closed := true } }
  | .poll progress flushed =>
      if d.pusher.ended.isSome then none else some (d.poll ctx progress flushed)
  | .restart strays => some (d.restart ctx strays)

/-- The relayer over any number of stops. -/
def deployment (ctx : Context) : System Deployment DeploymentEvent where
  init d := ∃ tasks distinct relayer, d = .fresh tasks distinct relayer
  step := Deployment.step ctx

end AxelarRelayer.Task
