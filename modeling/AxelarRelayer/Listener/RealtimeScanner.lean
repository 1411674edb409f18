import AxelarRelayer.Listener.BatchScanner
import AxelarRelayer.Lib.Runs

/-!
# `signature_realtime_scanner::process_realtime_logs`

The function as a transition system. `Phase` is the point its control flow has
reached; an event is either something the world does (a transaction is
confirmed) or the answer to what the function is waiting for (a subscription is
granted, a stream yields an item or ends, a fetch completes, the receiver is
gone). Events may come in any order the phase allows, so every schedule of
confirmations, stream items and fetch completions is a run.

`delivered` and `persists` are ghosts: the first lists the signatures the log
subscriptions of the current connection have delivered, the second snapshots
what was known each time `set_latest_processed_signature` was called.
-/

namespace AxelarRelayer.Listener

open AxelarRelayer

/-- `RpcLogsResponse`, less the logs. -/
structure RpcLogsResponse where
  signature : Signature
  err : Option TransactionError
deriving DecidableEq

/-- The notification a log subscription sends for a transaction. -/
def notification (st : TxStatus) : RpcLogsResponse := ⟨st.signature, st.err⟩

/-- One `logsSubscribe` stream. -/
structure Subscription where
  /-- ghost: how many transactions were confirmed when the subscription was established -/
  since : Nat
  /-- notifications the stream has not yielded yet, oldest first -/
  queue : List RpcLogsResponse

/-- The stream of a subscription established now. -/
def Subscription.establish (chain : Chain) : Subscription := ⟨chain.history.length, []⟩

/-- A confirmed transaction reaches the stream if it mentions the subscription's address. -/
def Subscription.notify (sub : Subscription) (address : Pubkey) (st : TxStatus) : Subscription :=
  if st.mentions address then { sub with queue := sub.queue ++ [notification st] } else sub

/-- The two streams under `round_robin_two_streams`. -/
structure Streams where
  gateway : Subscription
  gasService : Subscription

/-- Which of the two streams an item is taken from. -/
inductive Source where
  | gateway
  | gasService

/-- Take the next item of one stream. -/
def Streams.next? (streams : Streams) : Source → Option (RpcLogsResponse × Streams)
  | .gateway => match streams.gateway.queue with
    | [] => none
    | item :: rest =>
        some (item, { streams with gateway := { streams.gateway with queue := rest } })
  | .gasService => match streams.gasService.queue with
    | [] => none
    | item :: rest =>
        some (item, { streams with gasService := { streams.gasService with queue := rest } })

/-- Notifications still waiting in one of the streams. -/
def Streams.queued (streams : Streams) : List RpcLogsResponse :=
  streams.gateway.queue ++ streams.gasService.queue

def Streams.notify (config : Config) (streams : Streams) (st : TxStatus) : Streams where
  gateway := streams.gateway.notify config.gatewayProgramAddress st
  gasService := streams.gasService.notify config.gasServiceConfigPda st

/-- Where `process_realtime_logs` is. -/
inductive Phase where
  /-- the top of `'outer` -/
  | connecting
  | subscribingGateway
  | subscribingGasService (gateway : Subscription)
  /-- waiting for the first item of `ws_stream` -/
  | awaitingFirst (streams : Streams)
  | fetchingFirst (streams : Streams) (sig : Signature)
  /-- in `fetch_batches_in_range`, bounded above by the first item -/
  | fetchingMissed (streams : Streams) (t2 : SolanaTransaction)
  | sendingFirst (streams : Streams) (t2 : SolanaTransaction)
  /-- the merged stream, with the `FuturesUnordered` of pending fetches -/
  | merged (streams : Streams) (fetchFutures : List Signature)
  /-- the function returned an error -/
  | returned (error : Report)

/-- What was known when `set_latest_processed_signature` was called. -/
structure PersistRecord where
  signature : Signature
  chain : Chain
  delivered : List Signature
  sent : List SolanaTransaction

structure World where
  chain : Chain
  /-- `state.latest_processed_signature` -/
  latestProcessedSignature : Option Signature
  /-- what was sent on `signature_sender`, oldest first -/
  sent : List SolanaTransaction
  phase : Phase
  /-- ghost: signatures the streams of this connection delivered -/
  delivered : List Signature
  /-- ghost: every call of `set_latest_processed_signature` -/
  persists : List PersistRecord

/-- How the fetch of one `FuturesUnordered` entry, and what follows it, goes. -/
inductive FetchOutcome where
  /-- `fetch_transaction` returns an error -/
  | fails
  /-- it returns the transaction; then `send` and `set_latest_processed_signature` -/
  | returns (sendOk persistOk : Bool)

inductive Event where
  /-- the cluster confirms a transaction -/
  | confirm (st : TxStatus)
  /-- `PubsubClient::new` returns -/
  | connect (ok : Bool)
  /-- `sub_to_logs` returns, first for the gateway and then for the gas service -/
  | subscribe (ok : Bool)
  /-- `ws_stream` yields the next item of one of its streams -/
  | item (source : Source)
  /-- `ws_stream` yields `None` -/
  | streamEnd
  /-- `fetch_transaction` of the first item returns -/
  | firstFetched (ok : Bool)
  /-- `fetch_batches_in_range` returns after `k` passes -/
  | batch (env : ScanEnv) (k : Nat)
  /-- `signature_sender.send` of the first item returns -/
  | firstSent (ok : Bool)
  /-- one of the pending fetches completes -/
  | fetched (sig : Signature) (outcome : FetchOutcome)

/-- A confirmed transaction reaches every stream that is subscribed to it. -/
def Phase.notify (config : Config) (st : TxStatus) : Phase → Phase
  | .subscribingGasService gateway =>
      .subscribingGasService (gateway.notify config.gatewayProgramAddress st)
  | .awaitingFirst streams => .awaitingFirst (streams.notify config st)
  | .fetchingFirst streams sig => .fetchingFirst (streams.notify config st) sig
  | .fetchingMissed streams t2 => .fetchingMissed (streams.notify config st) t2
  | .sendingFirst streams t2 => .sendingFirst (streams.notify config st) t2
  | .merged streams fetchFutures => .merged (streams.notify config st) fetchFutures
  | phase => phase

/-- The notifications waiting in the streams of a phase. -/
def Phase.queued : Phase → List RpcLogsResponse
  | .subscribingGasService gateway => gateway.queue
  | .awaitingFirst streams => streams.queued
  | .fetchingFirst streams _ => streams.queued
  | .fetchingMissed streams _ => streams.queued
  | .sendingFirst streams _ => streams.queued
  | .merged streams _ => streams.queued
  | _ => []

/-- The transaction is delivered to some stream of the phase. -/
def Phase.delivers (config : Config) (st : TxStatus) : Phase → Bool
  | .subscribingGasService _ => st.mentions config.gatewayProgramAddress
  | .awaitingFirst _ | .fetchingFirst .. | .fetchingMissed .. | .sendingFirst .. | .merged .. =>
      config.monitors st
  | _ => false

namespace World

/-- One confirmed transaction: the chain grows and the streams are notified. -/
def confirm (config : Config) (w : World) (st : TxStatus) : Option World :=
  (w.chain.confirm? st).map fun chain =>
    { w with
      chain := chain
      phase := w.phase.notify config st
      delivered :=
        if w.phase.delivers config st then w.delivered ++ [st.signature] else w.delivered }

/-- Confirm a list of transactions, in order. -/
def confirmAll (config : Config) (w : World) (sts : List TxStatus) : Option World :=
  sts.foldlM (confirm config) w

/-- The function returns an error, dropping its streams and pending fetches. -/
def return_ (w : World) (error : Report) : World := { w with phase := .returned error }

/-- `continue 'outer`: streams and pending fetches are dropped. -/
def reconnect (w : World) : World := { w with phase := .connecting, delivered := [] }

/--
The `Ok(Some(log_item))` arm of the merged loop: send the transaction, then store
its signature. The mapped file holds the signature even when its `flush` fails.
-/
def handleLogItem (w : World) (streams : Streams) (fetchFutures : List Signature)
    (logItem : SolanaTransaction) (sendOk persistOk : Bool) : World :=
  if sendOk then
    let sent := w.sent ++ [logItem]
    { w with
      sent := sent
      latestProcessedSignature := some logItem.signature
      persists := w.persists ++ [⟨logItem.signature, w.chain, w.delivered, sent⟩]
      phase := if persistOk then .merged streams fetchFutures
        else .returned (.msg "set_latest_processed_signature failed") }
  else w.return_ (.msg "send failed")

/-- What one event does; `none` when the phase does not allow it. -/
def step (config : Config) (w : World) (event : Event) : Option World :=
  match event, w.phase with
  | .confirm st, _ => w.confirm config st
  | .connect ok, .connecting =>
      if ok then some { w with phase := .subscribingGateway }
      else some (w.return_ (.msg "websocket connection failed"))
  | .subscribe ok, .subscribingGateway =>
      if ok then some { w with phase := .subscribingGasService (.establish w.chain) }
      else some (w.return_ (.msg "logsSubscribe failed"))
  | .subscribe ok, .subscribingGasService gateway =>
      if ok then some { w with phase := .awaitingFirst ⟨gateway, .establish w.chain⟩ }
      else some (w.return_ (.msg "logsSubscribe failed"))
  | .item source, .awaitingFirst streams =>
      (streams.next? source).map fun (item, streams') =>
        -- only successful txs are checked
        if item.err.isNone then { w with phase := .fetchingFirst streams' item.signature }
        else { w with phase := .awaitingFirst streams' }
  | .streamEnd, .awaitingFirst _ => some w.reconnect
  | .firstFetched ok, .fetchingFirst streams sig =>
      if ok then
        match w.chain.status? sig with
        | some (.successful tx) => some { w with phase := .fetchingMissed streams tx }
        | some (.failed ..) => some { w with phase := .awaitingFirst streams }
        | none => some (w.return_ (.msg "transaction not found"))
      else some (w.return_ (.msg "getTransaction failed"))
  | .batch env k, .fetchingMissed _ t2 =>
      -- the chain grew from what it was to what the last page request saw
      let scanned :=
        fetchBatchesInRange config env w.latestProcessedSignature (some t2.signature) k
      let confirmed := (env.chainAt scanned.requests).history.drop w.chain.history.length
      if w.chain ≤ env.chainAt 0 then
        (w.confirmAll config confirmed).bind fun w' =>
          match scanned.result, w'.phase with
          | some (.ok _), .fetchingMissed streams' _ =>
              if scanned.unsent.isEmpty then
                some { w' with sent := w'.sent ++ scanned.sent, phase := .sendingFirst streams' t2 }
              else
                -- the receiver stays gone, so the send that follows fails at once
                some ({ w' with sent := w'.sent ++ scanned.sent }.return_ (.msg "send failed"))
          | some (.error err), _ => some ({ w' with sent := w'.sent ++ scanned.sent }.return_ err)
          | _, _ => none
      else none
  | .firstSent ok, .sendingFirst streams t2 =>
      if ok then some { w with sent := w.sent ++ [t2], phase := .merged streams [] }
      else some (w.return_ (.msg "send failed"))
  | .item source, .merged streams fetchFutures =>
      (streams.next? source).map fun (item, streams') =>
        if item.err.isNone then
          { w with phase := .merged streams' (fetchFutures ++ [item.signature]) }
        else { w with phase := .merged streams' fetchFutures }
  | .streamEnd, .merged .. => some w.reconnect
  | .fetched sig outcome, .merged streams fetchFutures =>
      if sig ∈ fetchFutures then
        match outcome with
        | .fails => some w.reconnect
        | .returns sendOk persistOk =>
            match w.chain.status? sig with
            | some (.successful logItem) =>
                some (w.handleLogItem streams (fetchFutures.erase sig) logItem sendOk persistOk)
            | some (.failed ..) =>
                some { w with phase := .merged streams (fetchFutures.erase sig) }
            | none => some w.reconnect
      else none
  | _, _ => none

end World

/-- `process_realtime_logs` from its first line, on whatever the world is by then. -/
def realtime (config : Config) : Runs.System World Event where
  init w := w.phase = .connecting ∧ w.delivered = [] ∧ w.persists = [] ∧
    ∀ tx ∈ w.sent, TxStatus.successful tx ∈ w.chain.history
  step := World.step config

end AxelarRelayer.Listener
