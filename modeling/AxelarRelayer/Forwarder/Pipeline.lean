import AxelarRelayer.Forwarder.EventForwarder
import AxelarRelayer.Listener.SolanaListener

/-!
# The listener and the forwarder, over their channel

`SolanaListener::new` hands out the two ends of an unbounded channel. What the listener
sends, `process_internal` of the forwarder takes one transaction at a time, in order, while
the listener goes on. The channel lives in memory: what is still in it when the process
dies is gone, and the state file knows nothing of it.

A send fails once the forwarder is gone. In a page's tasks that is `ScanEnv.sendFails`:
the draining loop logs it and goes on.
-/

namespace AxelarRelayer.Forwarder

open AxelarRelayer

variable (env : Env) (config : Config)

/-- One pass through the loop: the transaction is processed and its command is sent. -/
def forwardOne (n : Nat) (message : Message) : Except Ending (List Event) := do
  let events ← processMessage env config n message
  (env.send n).mapError fun text => .returned (.msg text)
  pure events

/-- What became of a transaction the listener sent. -/
inductive Fate where
  /-- its command is with the Amplifier component -/
  | published (events : List Event)
  /-- it ended the forwarder -/
  | failed (ending : Ending)
  /-- it was in the channel when the process died -/
  | lost
deriving DecidableEq

/-- Where the forwarder of this process is. -/
inductive Receiver where
  | running
  | ended (ending : Ending)
  /-- it went with the process -/
  | killed
deriving DecidableEq

structure Pipeline where
  listener : Listener.SolanaListener
  /-- what is in the channel -/
  logReceiver : List SolanaTransaction
  receiver : Receiver
  /-- ghost: what became of everything taken from the channel or lost with it -/
  fates : List (SolanaTransaction × Fate)
  /-- ghost: how many of these are from processes before this one -/
  base : Nat

inductive PipelineEvent where
  | listener (event : Listener.ListenerEvent)
  /-- the forwarder takes what is next in the channel, or sees that the listener is gone -/
  | forward

/-- The process dies with this event, and the forwarder with it. -/
def dies : Listener.ListenerEvent → Bool
  | .killed | .killedScanning .. => true
  | _ => false

namespace Pipeline

variable (fromStr : String → Option Signature) (listenerConfig : Listener.Config)
  (innerIxs : SolanaTransaction → List UiInnerInstructions)

/-- A transaction with what the RPC node returned along with it, which only the parser reads. -/
def message (tx : SolanaTransaction) : Message := ⟨tx, innerIxs tx⟩

/-- The next process: a new channel, a new forwarder. -/
def restart (p : Pipeline) (listener : Listener.SolanaListener) : Pipeline where
  listener := listener
  logReceiver := []
  receiver := .running
  fates := p.fates ++ p.logReceiver.map fun tx => (tx, .lost)
  base := p.fates.length + p.logReceiver.length

/-- What the listener has sent goes into the channel. -/
def receive (p : Pipeline) (event : Listener.ListenerEvent) (listener : Listener.SolanaListener)
    (sent : List SolanaTransaction) : Pipeline :=
  { p with
    listener := listener
    logReceiver := p.logReceiver ++ sent
    receiver := if dies event ∧ p.receiver = .running then .killed else p.receiver }

/-- The forwarder takes one transaction. -/
def forward (p : Pipeline) (tx : SolanaTransaction) (rest : List SolanaTransaction) : Pipeline :=
  match forwardOne env config p.fates.length (message innerIxs tx) with
  | .ok events => { p with logReceiver := rest, fates := p.fates ++ [(tx, .published events)] }
  | .error ending =>
      { p with
        logReceiver := rest
        fates := p.fates ++ [(tx, .failed ending)]
        receiver := .ended ending }

def step (p : Pipeline) (event : PipelineEvent) : Option Pipeline :=
  match event with
  | .listener e =>
      (Listener.SolanaListener.step fromStr listenerConfig p.listener e).bind fun listener =>
        match e with
        | .restart => some (p.restart listener)
        | _ =>
            let sent := listener.world.sent.drop p.listener.world.sent.length
            if sent = [] ∨ p.receiver = .running then some (p.receive e listener sent) else none
  | .forward =>
      match p.receiver, p.logReceiver, p.listener.world.phase with
      | .running, tx :: rest, _ => some (p.forward env config innerIxs tx rest)
      | .running, [], .returned _ =>
          some { p with receiver := .ended (.returned (.msg "Listener has stopped unexpectedly")) }
      | _, _, _ => none

end Pipeline

/-- The two components, from the first process on. -/
def pipeline (fromStr : String → Option Signature) (listenerConfig : Listener.Config)
    (innerIxs : SolanaTransaction → List UiInnerInstructions) :
    Runs.System Pipeline PipelineEvent where
  init p := (Listener.listener fromStr listenerConfig).init p.listener ∧ p.logReceiver = [] ∧
    p.receiver = .running ∧ p.fates = [] ∧ p.base = 0
  step := Pipeline.step env config fromStr listenerConfig innerIxs

end AxelarRelayer.Forwarder
