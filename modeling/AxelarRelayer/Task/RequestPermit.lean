import AxelarRelayer.Lib.Runs
import AxelarRelayer.Lib.Semaphore
import AxelarRelayer.Task.RetryingHttpSender

/-!
# `RetryingHttpSender`: the calls that share a sender

The scanner, the log processor, the task processor and the realtime scanner send their
requests through one `RetryingHttpSender`, many at a time. A call takes a permit for the
length of `send_internal` only: it is back in the semaphore while `retry` sleeps.

A step is what one call does between two `.await`s, or the end of a request, or the drop
of a call whose task is aborted.
-/

namespace AxelarRelayer.Http

open Runs

variable {ι Value : Type} [DecidableEq ι]

/-- The `.await` a call of `send` is at. -/
inductive Stage (Value : Type) where
  /-- `acquire_owned` -/
  | acquiring
  /-- `http_client.send`, with `_permit` held -/
  | requesting
  /-- the sleep of `retry` -/
  | backingOff
  | done (result : Except ClientError Value)

/-- A call of `send`; next to its stage, how its requests ended so far. -/
structure Call (Value : Type) where
  stage : Stage Value
  outcomes : List (Except ClientError Value)

/-- What `retry` does with the end of a request. -/
def proceed (outcome : Except ClientError Value) (inTime : Bool) : Stage Value :=
  if Retry.Final (sendInternal outcome) ∨ inTime = false then
    .done (Retry.report (sendInternal outcome))
  else .backingOff

structure RetryingHttpSender (ι Value : Type) where
  requestPermit : Fair.Semaphore ι
  calls : ι → Option (Call Value)

def RetryingHttpSender.new (maxConcurrentRequests : Nat) : RetryingHttpSender ι Value where
  requestPermit := Fair.Semaphore.new maxConcurrentRequests
  calls := fun _ => none

inductive Event (ι Value : Type) where
  /-- somebody calls `send` -/
  | send (call : ι)
  /-- the call finds that a permit is its own -/
  | poll (call : ι)
  /-- the request ends; `inTime`: the time of the backoff is not up -/
  | answer (call : ι) (outcome : Except ClientError Value) (inTime : Bool)
  /-- the sleep is over -/
  | wake (call : ι)
  /-- the future is dropped -/
  | cancel (call : ι)

namespace RetryingHttpSender

/-- What a step changes: one call, and the semaphore. -/
def set (s : RetryingHttpSender ι Value) (i : ι) (call : Option (Call Value))
    (requestPermit : Fair.Semaphore ι) : RetryingHttpSender ι Value where
  requestPermit := requestPermit
  calls := Function.update s.calls i call

@[simp] theorem set_requestPermit (s : RetryingHttpSender ι Value) (i : ι)
    (call : Option (Call Value)) (permit : Fair.Semaphore ι) :
    (s.set i call permit).requestPermit = permit := rfl

@[simp] theorem set_calls_self (s : RetryingHttpSender ι Value) (i : ι)
    (call : Option (Call Value)) (permit : Fair.Semaphore ι) :
    (s.set i call permit).calls i = call := Function.update_self ..

theorem set_calls_of_ne (s : RetryingHttpSender ι Value) {i j : ι} (hne : j ≠ i)
    (call : Option (Call Value)) (permit : Fair.Semaphore ι) :
    (s.set i call permit).calls j = s.calls j := Function.update_of_ne hne ..

def step (s : RetryingHttpSender ι Value) : Event ι Value → Option (RetryingHttpSender ι Value)
  | .send i =>
      match s.calls i with
      | none => some (s.set i (some ⟨.acquiring, []⟩) (s.requestPermit.acquire i))
      | some _ => none
  | .poll i =>
      match s.calls i with
      | some ⟨.acquiring, outcomes⟩ =>
          if i ∈ s.requestPermit.holding then
            some (s.set i (some ⟨.requesting, outcomes⟩) s.requestPermit)
          else none
      | _ => none
  | .answer i outcome inTime =>
      match s.calls i with
      | some ⟨.requesting, outcomes⟩ =>
          -- `_permit` goes out of scope before `retry` sees the error
          some (s.set i (some ⟨proceed outcome inTime, outcomes ++ [outcome]⟩)
            (s.requestPermit.release i))
      | _ => none
  | .wake i =>
      match s.calls i with
      | some ⟨.backingOff, outcomes⟩ =>
          some (s.set i (some ⟨.acquiring, outcomes⟩) (s.requestPermit.acquire i))
      | _ => none
  | .cancel i =>
      match s.calls i with
      | some _ => some (s.set i none (s.requestPermit.leave i))
      | none => none

end RetryingHttpSender

/-- The relayer's requests, from a fresh sender. -/
def requests (ι Value : Type) [DecidableEq ι] (maxConcurrentRequests : Nat) :
    System (RetryingHttpSender ι Value) (Event ι Value) where
  init := fun s => s = RetryingHttpSender.new maxConcurrentRequests
  step := RetryingHttpSender.step

end AxelarRelayer.Http
