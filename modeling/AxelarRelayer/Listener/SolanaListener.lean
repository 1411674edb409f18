import AxelarRelayer.Listener.RealtimeScanner

/-!
# `SolanaListener::process_internal`

The component from its first line on: the cursor may be forced through the environment,
the transactions missed while it was down are fetched, and the realtime scanner takes
over. It never returns `Ok`; an error ends the process, and so may anything else at any
time. The next process starts from the state file, and `sent` goes on counting what the
processes before it have sent.
-/

namespace AxelarRelayer.Listener

open AxelarRelayer

/-- Where `process_internal` is. Its future is over once `World.phase` is `returned`. -/
inductive Stage where
  /-- before the state is read -/
  | starting
  /-- in the `fetch_batches_in_range` of the span "fetching missed signatures" -/
  | fetchingMissedSignatures
  | processingRealtimeLogs
deriving DecidableEq

structure SolanaListener where
  stage : Stage
  world : World

inductive ListenerEvent where
  /-- the cluster confirms a transaction -/
  | confirm (st : TxStatus)
  /-- `FORCE_LAST_PROCESSED_SIGNATURE`, and how storing it goes -/
  | start (forceLastProcessedSignature : Option String) (persistOk : Bool)
  /-- the catch-up call returns after `k` passes; then the signature it returned is stored -/
  | fetchedMissed (env : ScanEnv) (k : Nat) (persistOk : Bool)
  | realtime (event : Event)
  /-- the process dies -/
  | killed
  /-- the process dies `k` passes into `fetch_batches_in_range` -/
  | killedScanning (env : ScanEnv) (k : Nat)
  | restart

namespace World

/-- The world once a scan has run: the chain has grown meanwhile, its transactions are sent. -/
def scanned (config : Config) (w : World) (env : ScanEnv) (s : ScanState) : Option World :=
  if w.chain ≤ env.chainAt 0 then
    (w.confirmAll config ((env.chainAt s.requests).history.drop w.chain.history.length)).map
      fun w' => { w' with sent := w'.sent ++ s.sent }
  else none

/-- `state.set_latest_processed_signature(..)?`; the mapped file has it even if `flush` fails. -/
def setLatestProcessedSignature (w : World) (signature : Signature) (persistOk : Bool) : World :=
  let w' := { w with latestProcessedSignature := some signature }
  if persistOk then w' else w'.return_ (.msg "set_latest_processed_signature failed")

end World

namespace SolanaListener

/-- The catch-up call: everything newer than the stored signature. -/
def missed (config : Config) (w : World) (env : ScanEnv) (k : Nat) : ScanState :=
  fetchBatchesInRange config env w.latestProcessedSignature none k

/-- The scan the process is in, `k` passes into it. -/
def currentScan (config : Config) (s : SolanaListener) (env : ScanEnv) (k : Nat) :
    Option ScanState :=
  match s.stage, s.world.phase with
  | .fetchingMissedSignatures, .connecting => some (missed config s.world env k)
  | .processingRealtimeLogs, .fetchingMissed _ t2 =>
      some (fetchBatchesInRange config env s.world.latestProcessedSignature
        (some t2.signature) k)
  | _, _ => none

variable (fromStr : String → Option Signature) (config : Config)

/-- `process_internal` up to the catch-up call. -/
def start (s : SolanaListener) (forceLastProcessedSignature : Option String) (persistOk : Bool) :
    SolanaListener :=
  match forceLastProcessedSignature with
  | none => { s with stage := .fetchingMissedSignatures }
  | some force =>
      if force.isEmpty then { s with stage := .fetchingMissedSignatures }
      else match fromStr force with
        | none => { s with world := s.world.return_ (.msg "invalid signature") }
        | some signature =>
            ⟨.fetchingMissedSignatures, s.world.setLatestProcessedSignature signature persistOk⟩

/-- `process_internal` from the end of the catch-up call on. -/
def proceed (w : World) (latestSignature : Option Signature) (persistOk : Bool) :
    SolanaListener :=
  match latestSignature with
  | none => ⟨.processingRealtimeLogs, w⟩
  | some signature =>
      ⟨.processingRealtimeLogs, w.setLatestProcessedSignature signature persistOk⟩

def step (s : SolanaListener) (event : ListenerEvent) : Option SolanaListener :=
  match event, s.stage, s.world.phase with
  | .confirm st, _, _ => (s.world.confirm config st).map fun w => { s with world := w }
  | .start force persistOk, .starting, .connecting => some (s.start fromStr force persistOk)
  | .fetchedMissed env k persistOk, .fetchingMissedSignatures, .connecting =>
      let scan := missed config s.world env k
      (s.world.scanned config env scan).bind fun w =>
        match scan.result with
        | some (.ok latestSignature) => some (proceed w latestSignature persistOk)
        | some (.error err) => some { s with world := w.return_ err }
        | none => none
  | .realtime e, .processingRealtimeLogs, _ =>
      (s.world.step config e).map fun w => { s with world := w }
  | .killed, _, .returned _ => none
  | .killed, _, _ => some { s with world := s.world.return_ (.msg "killed") }
  | .killedScanning env k, _, _ =>
      (s.currentScan config env k).bind fun scan =>
        if scan.result.isNone then
          (s.world.scanned config env scan).map fun w =>
            { s with world := w.return_ (.msg "killed") }
        else none
  | .restart, _, .returned _ =>
      some ⟨.starting, { s.world with phase := .connecting, delivered := [], persists := [] }⟩
  | _, _, _ => none

end SolanaListener

/-- The listener, from the first process on; the chain and the state file may hold anything. -/
def listener (fromStr : String → Option Signature) (config : Config) :
    Runs.System SolanaListener ListenerEvent where
  init s := s.stage = .starting ∧ s.world.phase = .connecting ∧ s.world.sent = [] ∧
    s.world.delivered = [] ∧ s.world.persists = []
  step := SolanaListener.step fromStr config

end AxelarRelayer.Listener
