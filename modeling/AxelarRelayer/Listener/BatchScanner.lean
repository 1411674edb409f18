import AxelarRelayer.Chain

/-!
# `signature_batch_scanner.rs` and `log_processor::fetch_and_send`

`fetch_batches_in_range` visits the monitored programs one after the other and
pages backwards through each one's signatures. What the outside world does
during one call is a `ScanEnv`: the chain that answers each page request (it
grows between requests, and that is the whole interleaving the call can
observe), which page requests and which single `fetch_transaction` calls fail,
which sends find the receiver gone, and in which order the `JoinSet` of a page
hands its tasks back.

The call itself is the step function `ScanState.step`, one step for one pass
through the inner `loop`; `scan` iterates it.
-/

namespace AxelarRelayer.Listener

open AxelarRelayer

/-- `solana_listener::Config`, less the endpoint, the pauses and the commitment level. -/
structure Config where
  gatewayProgramAddress : Pubkey
  gasServiceConfigPda : Pubkey

/-- The programs `fetch_batches_in_range` visits, in its order. -/
abbrev Config.programsToMonitor (config : Config) : List Pubkey :=
  [config.gatewayProgramAddress, config.gasServiceConfigPda]

/-- The transaction touches one of the two monitored addresses. -/
def Config.monitors (config : Config) (st : TxStatus) : Bool :=
  st.mentions config.gatewayProgramAddress || st.mentions config.gasServiceConfigPda

/-- What the world does during one call of `fetch_batches_in_range`. -/
structure ScanEnv where
  /-- the chain the `n`-th page request is answered from -/
  chainAt : Nat → Chain
  grows : ∀ n, chainAt n ≤ chainAt (n + 1)
  /-- the `n`-th page request fails -/
  pageFails : Nat → Bool
  /-- `fetch_transaction` fails for a signature of the `n`-th page -/
  fetchFails : Nat → Signature → Bool
  /-- `signature_sender.send` fails in the task of a signature of the `n`-th page -/
  sendFails : Nat → Signature → Bool
  /-- the order in which the tasks of the `n`-th page complete -/
  completion : Nat → List Signature → List Signature
  completes : ∀ n sigs, (completion n sigs).Perm sigs

/-- A chain that does not grow, and no failures. -/
def ScanEnv.static (chain : Chain) : ScanEnv where
  chainAt _ := chain
  grows _ := chain.le_refl
  pageFails _ := false
  fetchFails _ _ := false
  sendFails _ _ := false
  completion _ sigs := sigs
  completes _ sigs := List.Perm.refl sigs

/-- A gateway transaction, where the gateway is account 1. -/
def gatewayTx (n : UInt8) : TxStatus := .successful (.bare (.filled n) [.filled 1] n.toNat)

/-- One transaction is a chain. -/
theorem gatewayTx_distinct : ([gatewayTx 1].map TxStatus.signature).Nodup := List.nodup_singleton _

theorem gatewayTx_slots : [gatewayTx 1].Pairwise fun a b => a.tx.slot ≤ b.tx.slot :=
  List.pairwise_singleton _ _

/-- A gas service transaction, where the gas service's PDA is account 2. -/
def gasServiceTx (n : UInt8) : TxStatus := .successful (.bare (.filled n) [.filled 2] n.toNat)

/-- `log_processor::fetch_transaction` for a signature of the `n`-th page. -/
def ScanEnv.fetchTransaction (env : ScanEnv) (n : Nat) (sig : Signature) :
    Except Report TxStatus :=
  if env.fetchFails n sig then .error (.msg "getTransaction failed")
  else match (env.chainAt n).status? sig with
    | some st => .ok st
    | none => .error (.msg "transaction not found")

/-- The task `log_processor::fetch_and_send` spawns for one signature: what it has sent. -/
def ScanEnv.fetchAndSendTask (env : ScanEnv) (n : Nat) (signature : Signature) :
    Except Report (Option SolanaTransaction) :=
  match env.fetchTransaction n signature with
  | .error err => .error err
  | .ok (.failed ..) => .ok none
  | .ok (.successful tx) =>
      if env.sendFails n signature then .error (.msg "send failed") else .ok (some tx)

/--
`log_processor::fetch_and_send`: what one page puts on `signature_sender`.

Every signature gets a task of its own. A task that ends in an error, of the fetch or
of the send, is logged by the draining loop (`"error when parsing tx"`) and dropped.
-/
def fetchAndSend (env : ScanEnv) (n : Nat) (fetchedSignatures : List Signature) :
    List SolanaTransaction :=
  (env.completion n fetchedSignatures).filterMap fun signature =>
    match env.fetchAndSendTask n signature with
    | .ok sent => sent
    | .error _ => none

/-- What the tasks of one page have fetched and could not send. -/
def fetchedUnsent (env : ScanEnv) (n : Nat) (fetchedSignatures : List Signature) :
    List SolanaTransaction :=
  (env.completion n fetchedSignatures).filterMap fun signature =>
    match env.fetchTransaction n signature with
    | .ok (.successful tx) => if env.sendFails n signature then some tx else none
    | _ => none

/-- A signature with its slot. -/
abbrev SlotSignature := Signature × Nat

def slotSignature (st : TxStatus) : SlotSignature := (st.signature, st.tx.slot)

/-- `FetchingState`. -/
inductive FetchingState where
  | completed (newestSignature : Option SlotSignature)
  | fetchAgain (newT2 : SlotSignature) (newestSignature : Option SlotSignature)

/-- `SignatureRangeFetcher`, less its handles. -/
structure SignatureRangeFetcher where
  t1 : Option Signature
  t2 : Option Signature
  address : Pubkey

/-- The maximum number of signatures one page request asks for. -/
def LIMIT : Nat := 10

/-- The page the RPC answers the fetcher's request with. -/
def SignatureRangeFetcher.fetchedSignatures (fetcher : SignatureRangeFetcher) (chain : Chain) :
    List TxStatus :=
  chain.getSignaturesForAddress fetcher.address fetcher.t2 fetcher.t1 LIMIT

/-- What one page tells the loop, once its transactions were handled. -/
def fetchingState (fetchedSignatures : List TxStatus) : FetchingState :=
  match fetchedSignatures.getLast?, fetchedSignatures.head? with
  | some oldest, some newest =>
      if fetchedSignatures.length < LIMIT then
        .completed (some (slotSignature newest))
      else
        .fetchAgain (slotSignature oldest) (some (slotSignature newest))
  | _, _ => .completed none

/-- `SignatureRangeFetcher::fetch`: its result, what it sent on the way and what it could not. -/
def SignatureRangeFetcher.fetch (fetcher : SignatureRangeFetcher) (env : ScanEnv) (n : Nat) :
    Except Report FetchingState × List SolanaTransaction × List SolanaTransaction :=
  if env.pageFails n then
    (.error (.wrap "fetching signatures with address" (.msg "getSignaturesForAddress failed")),
      [], [])
  else
    let fetchedSignatures := fetcher.fetchedSignatures (env.chainAt n)
    -- oldest first: the page is reversed before its tasks are spawned
    let signatures := (fetchedSignatures.map TxStatus.signature).reverse
    -- whatever became of the tasks, `fetch_and_send` returns `Ok`
    (.ok (fetchingState fetchedSignatures), fetchAndSend env n signatures,
      fetchedUnsent env n signatures)

/-- The locals of `fetch_batches_in_range` between two passes through its inner loop. -/
structure ScanState where
  /-- the programs still to visit, the current one first -/
  todo : List Pubkey
  t2InLoop : Option Signature
  chronologicallyNewestSig : Option Signature
  slot : Option Nat
  /-- page requests made so far -/
  requests : Nat
  /-- what was sent on `signature_sender` so far -/
  sent : List SolanaTransaction
  /-- ghost: what was fetched while the receiver was gone -/
  unsent : List SolanaTransaction
  /-- what the call returned, once it has -/
  result : Option (Except Report (Option Signature))

/-- The state in which the call starts. -/
def ScanState.start (programs : List Pubkey) (t2Signature : Option Signature) : ScanState where
  todo := programs
  t2InLoop := t2Signature
  chronologicallyNewestSig := t2Signature
  slot := none
  requests := 0
  sent := []
  unsent := []
  result := none

/-- The `match (newest_signature, chronologically_newest_sig, slot)` after each page. -/
def ScanState.recordNewest (s : ScanState) (newestSignature : Option SlotSignature) : ScanState :=
  match newestSignature, s.chronologicallyNewestSig, s.slot with
  | some (newT2, newSlot), none, none =>
      { s with chronologicallyNewestSig := some newT2, slot := some newSlot }
  | some _, some _, none => s
  | some (newT2, newSlot), some _, some oldSlot =>
      -- `slot` keeps the value the first page gave it
      if oldSlot < newSlot then { s with chronologicallyNewestSig := some newT2 } else s
  | some _, none, some _ => s -- `unreachable!()`: `slot` is only set together with the signature
  | none, _, _ => s

/-- The fetcher of the current pass. -/
def ScanState.fetcher (s : ScanState) (t1Signature : Option Signature)
    (programToMonitor : Pubkey) : SignatureRangeFetcher :=
  ⟨t1Signature, s.t2InLoop, programToMonitor⟩

/-- One pass through the inner loop of `fetch_batches_in_range`. -/
def ScanState.step (env : ScanEnv) (t1Signature t2Signature : Option Signature) (s : ScanState) :
    ScanState :=
  match s.result, s.todo with
  | some _, _ => s
  | none, [] => { s with result := some (.ok s.chronologicallyNewestSig) }
  | none, programToMonitor :: rest =>
      let fetched := (s.fetcher t1Signature programToMonitor).fetch env s.requests
      let s' := { s with
        requests := s.requests + 1
        sent := s.sent ++ fetched.2.1
        unsent := s.unsent ++ fetched.2.2 }
      match fetched.1 with
      | .error err => { s' with result := some (.error err) }
      | .ok (.completed newest) =>
          -- on to the next program, which starts from the argument's `t2` again
          { s'.recordNewest newest with todo := rest, t2InLoop := t2Signature }
      | .ok (.fetchAgain newT2 newest) =>
          { s'.recordNewest newest with t2InLoop := some newT2.1 }

/-- The call after `k` passes. -/
def scan (env : ScanEnv) (programs : List Pubkey) (t1Signature t2Signature : Option Signature) :
    Nat → ScanState
  | 0 => .start programs t2Signature
  | k + 1 => (scan env programs t1Signature t2Signature k).step env t1Signature t2Signature

/-- `fetch_batches_in_range` after `k` passes. -/
abbrev fetchBatchesInRange (config : Config) (env : ScanEnv)
    (t1Signature t2Signature : Option Signature) (k : Nat) : ScanState :=
  scan env config.programsToMonitor t1Signature t2Signature k

end AxelarRelayer.Listener
