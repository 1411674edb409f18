import AxelarRelayer.Listener.RealtimeScanner

/-!
# What a step of `process_realtime_logs` can do

`Transition` lists the effects an event can have, one constructor for each arm
of the source; `step_cases` is the only place where `World.step` is unfolded.
Every invariant of the realtime scanner is a case analysis over `Transition`.

The rest is about streams: a notification is put in at the back of the queues of
the subscriptions that were established before the transaction was confirmed,
and is taken out from the front.
-/

namespace AxelarRelayer.Proof

open AxelarRelayer Listener

variable {config : Config} {w w' : World}

/-! ## The step, once -/

/-- The chain and the streams of `w` after the confirmations a batch lets pass. -/
def confirmedDuring (config : Config) (w : World) (env : ScanEnv) (scanned : ScanState) :
    Option World :=
  w.confirmAll config ((env.chainAt scanned.requests).history.drop w.chain.history.length)

/-- The batch call of the realtime scanner: everything between the cursor and `t2`. -/
abbrev missedScan (config : Config) (w : World) (env : ScanEnv) (t2 : SolanaTransaction)
    (k : Nat) : ScanState :=
  fetchBatchesInRange config env w.latestProcessedSignature (some t2.signature) k

/-- Every effect an event can have. -/
inductive Transition (config : Config) (w : World) : Event → World → Prop where
  | confirmed {st : TxStatus} {w' : World} :
      w.confirm config st = some w' → Transition config w (.confirm st) w'
  | connected : w.phase = .connecting →
      Transition config w (.connect true) { w with phase := .subscribingGateway }
  | subscribedGateway : w.phase = .subscribingGateway →
      Transition config w (.subscribe true)
        { w with phase := .subscribingGasService (.establish w.chain) }
  | subscribedGasService {gateway : Subscription} : w.phase = .subscribingGasService gateway →
      Transition config w (.subscribe true)
        { w with phase := .awaitingFirst ⟨gateway, .establish w.chain⟩ }
  | firstItem {streams streams' : Streams} {source : Source} {item : RpcLogsResponse} :
      w.phase = .awaitingFirst streams → streams.next? source = some (item, streams') →
      item.err = none →
      Transition config w (.item source)
        { w with phase := .fetchingFirst streams' item.signature }
  | firstSkipped {streams streams' : Streams} {source : Source} {item : RpcLogsResponse} :
      w.phase = .awaitingFirst streams → streams.next? source = some (item, streams') →
      item.err ≠ none →
      Transition config w (.item source) { w with phase := .awaitingFirst streams' }
  | firstFetched {streams : Streams} {sig : Signature} {tx : SolanaTransaction} :
      w.phase = .fetchingFirst streams sig → w.chain.status? sig = some (.successful tx) →
      Transition config w (.firstFetched true) { w with phase := .fetchingMissed streams tx }
  | firstFailed {streams : Streams} {sig : Signature} {tx : SolanaTransaction}
      {error : TransactionError} :
      w.phase = .fetchingFirst streams sig → w.chain.status? sig = some (.failed tx error) →
      Transition config w (.firstFetched true) { w with phase := .awaitingFirst streams }
  | batched {env : ScanEnv} {k : Nat} {streams streams' : Streams} {t2 t2' : SolanaTransaction}
      {w₁ : World} {newest : Option Signature} :
      w.phase = .fetchingMissed streams t2 → w.chain ≤ env.chainAt 0 →
      confirmedDuring config w env (missedScan config w env t2 k) = some w₁ →
      (missedScan config w env t2 k).result = some (.ok newest) →
      w₁.phase = .fetchingMissed streams' t2' → (missedScan config w env t2 k).unsent = [] →
      Transition config w (.batch env k)
        { w₁ with
          sent := w₁.sent ++ (missedScan config w env t2 k).sent
          phase := .sendingFirst streams' t2 }
  | batchFailed {env : ScanEnv} {k : Nat} {streams : Streams} {t2 : SolanaTransaction}
      {w₁ : World} {error : Report} :
      w.phase = .fetchingMissed streams t2 → w.chain ≤ env.chainAt 0 →
      confirmedDuring config w env (missedScan config w env t2 k) = some w₁ →
      Transition config w (.batch env k)
        (({ w₁ with sent := w₁.sent ++ (missedScan config w env t2 k).sent }).return_ error)
  | firstSent {streams : Streams} {t2 : SolanaTransaction} : w.phase = .sendingFirst streams t2 →
      Transition config w (.firstSent true)
        { w with sent := w.sent ++ [t2], phase := .merged streams [] }
  | pulled {streams streams' : Streams} {futures : List Signature} {source : Source}
      {item : RpcLogsResponse} :
      w.phase = .merged streams futures → streams.next? source = some (item, streams') →
      item.err = none →
      Transition config w (.item source)
        { w with phase := .merged streams' (futures ++ [item.signature]) }
  | skipped {streams streams' : Streams} {futures : List Signature} {source : Source}
      {item : RpcLogsResponse} :
      w.phase = .merged streams futures → streams.next? source = some (item, streams') →
      item.err ≠ none →
      Transition config w (.item source) { w with phase := .merged streams' futures }
  | fetched {streams : Streams} {futures : List Signature} {sig : Signature}
      {logItem : SolanaTransaction} {sendOk persistOk : Bool} :
      w.phase = .merged streams futures → sig ∈ futures →
      w.chain.status? sig = some (.successful logItem) →
      Transition config w (.fetched sig (.returns sendOk persistOk))
        (w.handleLogItem streams (futures.erase sig) logItem sendOk persistOk)
  | fetchedFailed {streams : Streams} {futures : List Signature} {sig : Signature}
      {tx : SolanaTransaction} {error : TransactionError} {sendOk persistOk : Bool} :
      w.phase = .merged streams futures → sig ∈ futures →
      w.chain.status? sig = some (.failed tx error) →
      Transition config w (.fetched sig (.returns sendOk persistOk))
        { w with phase := .merged streams (futures.erase sig) }
  | reconnected {e : Event} : Transition config w e w.reconnect
  | returned {e : Event} {error : Report} : Transition config w e (w.return_ error)

theorem step_cases {e : Event} (h : World.step config w e = some w') :
    Transition config w e w' := by
  unfold World.step at h
  split at h
  case h_1 => exact .confirmed h
  case h_2 hp =>
    split at h
    · rename_i hok; rw [← Option.some.inj h, hok]; exact .connected hp
    · rw [← Option.some.inj h]; exact .returned
  case h_3 hp =>
    split at h
    · rename_i hok; rw [← Option.some.inj h, hok]; exact .subscribedGateway hp
    · rw [← Option.some.inj h]; exact .returned
  case h_4 hp =>
    split at h
    · rename_i hok; rw [← Option.some.inj h, hok]; exact .subscribedGasService hp
    · rw [← Option.some.inj h]; exact .returned
  -- the first item the merged streams yield
  case h_5 hp =>
    obtain ⟨⟨item, streams'⟩, hnext, hw⟩ := Option.map_eq_some_iff.mp h
    dsimp only at hw
    split at hw
    · rename_i herr; rw [← hw]; exact .firstItem hp hnext (by simpa using herr)
    · rename_i herr; rw [← hw]; exact .firstSkipped hp hnext (by simpa using herr)
  case h_6 => rw [← Option.some.inj h]; exact .reconnected
  case h_7 hp =>
    split at h
    · rename_i hok
      split at h
      · rename_i hst; rw [← Option.some.inj h, hok]; exact .firstFetched hp hst
      · rename_i hst; rw [← Option.some.inj h, hok]; exact .firstFailed hp hst
      · rw [← Option.some.inj h]; exact .returned
    · rw [← Option.some.inj h]; exact .returned
  -- the batch of `fetch_batches_in_range` returned, or it failed
  case h_8 hp =>
    dsimp only at h
    split at h
    · rename_i hle
      obtain ⟨w₁, hw₁, hres⟩ := Option.bind_eq_some_iff.mp h
      split at hres
      · rename_i hok hp'
        split at hres
        · rename_i hopen
          rw [← Option.some.inj hres]
          exact .batched hp hle hw₁ hok hp' (List.isEmpty_iff.mp hopen)
        · rw [← Option.some.inj hres]
          exact .batchFailed hp hle hw₁
      · rw [← Option.some.inj hres]
        exact .batchFailed hp hle hw₁
      · exact absurd hres (by simp)
    · exact absurd h (by simp)
  case h_9 hp =>
    split at h
    · rename_i hok; rw [← Option.some.inj h, hok]; exact .firstSent hp
    · rw [← Option.some.inj h]; exact .returned
  case h_10 hp =>
    obtain ⟨⟨item, streams'⟩, hnext, hw⟩ := Option.map_eq_some_iff.mp h
    dsimp only at hw
    split at hw
    · rename_i herr; rw [← hw]; exact .pulled hp hnext (by simpa using herr)
    · rename_i herr; rw [← hw]; exact .skipped hp hnext (by simpa using herr)
  case h_11 => rw [← Option.some.inj h]; exact .reconnected
  -- a future of the unordered set is done
  case h_12 hp =>
    split at h
    · rename_i hmem
      split at h
      · rw [← Option.some.inj h]; exact .reconnected
      · split at h
        · rename_i hst; rw [← Option.some.inj h]; exact .fetched hp hmem hst
        · rename_i hst; rw [← Option.some.inj h]; exact .fetchedFailed hp hmem hst
        · rw [← Option.some.inj h]; exact .reconnected
    · exact absurd h (by simp)
  case h_13 => exact absurd h (by simp)

/-! ## Streams -/

/-- Taking an item removes it and nothing else. -/
theorem mem_queued_of_next {streams streams' : Streams} {source : Source} {item : RpcLogsResponse}
    (h : streams.next? source = some (item, streams')) {x : RpcLogsResponse}
    (hx : x ∈ streams.queued) : x = item ∨ x ∈ streams'.queued := by
  cases source with
  | gateway =>
      simp only [Streams.next?] at h
      split at h
      · exact absurd h (by simp)
      · rename_i hq
        simp only [Option.some.injEq, Prod.mk.injEq] at h
        obtain ⟨rfl, rfl⟩ := h
        simpa [Streams.queued, hq, or_assoc] using hx
  | gasService =>
      simp only [Streams.next?] at h
      split at h
      · exact absurd h (by simp)
      · rename_i hq
        simp only [Option.some.injEq, Prod.mk.injEq] at h
        obtain ⟨rfl, rfl⟩ := h
        simp only [Streams.queued, hq, List.mem_append, List.mem_cons] at hx ⊢
        rcases hx with hx | hx | hx
        · exact Or.inr (Or.inl hx)
        · exact Or.inl hx
        · exact Or.inr (Or.inr hx)

/-- What a stream yields had been waiting in it. -/
theorem item_mem_queued {streams streams' : Streams} {source : Source} {item : RpcLogsResponse}
    (h : streams.next? source = some (item, streams')) : item ∈ streams.queued := by
  cases source with
  | gateway =>
      simp only [Streams.next?] at h
      split at h
      · exact absurd h (by simp)
      · rename_i hq
        simp only [Option.some.injEq, Prod.mk.injEq] at h
        simp [Streams.queued, hq, h.1]
  | gasService =>
      simp only [Streams.next?] at h
      split at h
      · exact absurd h (by simp)
      · rename_i hq
        simp only [Option.some.injEq, Prod.mk.injEq] at h
        simp [Streams.queued, hq, h.1]

/-- A notification of a successful transaction names it and carries no error. -/
theorem notification_err {st : TxStatus} (h : st.isSuccessful = true) :
    (notification st).err = none := (TxStatus.err_eq_none st).mpr h

theorem mem_notify_of_mem {sub : Subscription} {address : Pubkey} {st : TxStatus}
    {x : RpcLogsResponse} (hx : x ∈ sub.queue) : x ∈ (sub.notify address st).queue := by
  unfold Subscription.notify
  split
  · exact List.mem_append_left _ hx
  · exact hx

theorem notify_mem {sub : Subscription} {address : Pubkey} {st : TxStatus}
    (h : st.mentions address = true) : notification st ∈ (sub.notify address st).queue := by
  unfold Subscription.notify
  rw [if_pos h]
  exact List.mem_append_right _ (List.mem_singleton_self _)

@[simp] theorem notify_since (sub : Subscription) (address : Pubkey) (st : TxStatus) :
    (sub.notify address st).since = sub.since := by
  unfold Subscription.notify; split <;> rfl

theorem queued_notify_of_mem {streams : Streams} {st : TxStatus} {x : RpcLogsResponse}
    (hx : x ∈ streams.queued) : x ∈ (streams.notify config st).queued := by
  rcases List.mem_append.mp hx with h | h
  · exact List.mem_append_left _ (mem_notify_of_mem h)
  · exact List.mem_append_right _ (mem_notify_of_mem h)

theorem queued_notify_self {streams : Streams} {st : TxStatus} (h : config.monitors st = true) :
    notification st ∈ (streams.notify config st).queued := by
  rcases Bool.or_eq_true_iff.mp h with hg | hs
  · exact List.mem_append_left _ (notify_mem hg)
  · exact List.mem_append_right _ (notify_mem hs)

theorem phase_queued_notify {phase : Phase} {st : TxStatus} {x : RpcLogsResponse}
    (hx : x ∈ phase.queued) : x ∈ (phase.notify config st).queued := by
  cases phase with
  | subscribingGasService gateway => exact mem_notify_of_mem hx
  | awaitingFirst streams => exact queued_notify_of_mem hx
  | fetchingFirst streams sig => exact queued_notify_of_mem hx
  | fetchingMissed streams t2 => exact queued_notify_of_mem hx
  | sendingFirst streams t2 => exact queued_notify_of_mem hx
  | merged streams futures => exact queued_notify_of_mem hx
  | _ => exact hx

/-- A delivered transaction waits in a stream. -/
theorem phase_queued_delivered {phase : Phase} {st : TxStatus}
    (h : phase.delivers config st = true) : notification st ∈ (phase.notify config st).queued := by
  cases phase with
  | subscribingGasService gateway => exact notify_mem h
  | awaitingFirst streams => exact queued_notify_self h
  | fetchingFirst streams sig => exact queued_notify_self h
  | fetchingMissed streams t2 => exact queued_notify_self h
  | sendingFirst streams t2 => exact queued_notify_self h
  | merged streams futures => exact queued_notify_self h
  | connecting => exact absurd h (by simp [Phase.delivers])
  | subscribingGateway => exact absurd h (by simp [Phase.delivers])
  | returned error => exact absurd h (by simp [Phase.delivers])

/-! ## Confirmations -/

/-- What one confirmation changes. -/
theorem confirm_cases {st : TxStatus} (h : w.confirm config st = some w') :
    ∃ chain, w.chain.confirm? st = some chain ∧ w' =
      { w with
        chain := chain
        phase := w.phase.notify config st
        delivered :=
          if w.phase.delivers config st then w.delivered ++ [st.signature] else w.delivered } := by
  obtain ⟨chain, hc, hw⟩ := Option.map_eq_some_iff.mp h
  exact ⟨chain, hc, hw.symm⟩

/-- Whatever single confirmations preserve, a sequence of them preserves. -/
theorem confirmAll_invariant {P : World → Prop}
    (hstep : ∀ (w w' : World) (st : TxStatus), P w → w.confirm config st = some w' → P w') :
    ∀ (sts : List TxStatus) {w w' : World}, P w → w.confirmAll config sts = some w' → P w' := by
  intro sts
  induction sts with
  | nil =>
      intro w w' hP h
      simp only [World.confirmAll, List.foldlM_nil, Option.pure_def, Option.some.injEq] at h
      exact h ▸ hP
  | cons st sts ih =>
      intro w w' hP h
      simp only [World.confirmAll, List.foldlM_cons, Option.bind_eq_bind,
        Option.bind_eq_some_iff] at h
      obtain ⟨w₁, hw₁, hrest⟩ := h
      exact ih (hstep _ _ _ hP hw₁) hrest

/-- Signatures taken from the streams whose transaction has neither been sent nor given up. -/
def inFlight : Phase → List Signature
  | .fetchingFirst _ sig => [sig]
  | .fetchingMissed _ t2 => [t2.signature]
  | .sendingFirst _ t2 => [t2.signature]
  | .merged _ fetchFutures => fetchFutures
  | _ => []

/-- The first item, while it is being handled. -/
def firstItem? : Phase → Option SolanaTransaction
  | .fetchingMissed _ t2 => some t2
  | .sendingFirst _ t2 => some t2
  | _ => none

@[simp] theorem inFlight_notify (phase : Phase) (st : TxStatus) :
    inFlight (phase.notify config st) = inFlight phase := by
  cases phase <;> rfl

@[simp] theorem firstItem?_notify (phase : Phase) (st : TxStatus) :
    firstItem? (phase.notify config st) = firstItem? phase := by
  cases phase <;> rfl

/-- What confirmations leave alone. -/
structure Confirms (w w' : World) : Prop where
  chain : w.chain ≤ w'.chain
  cursor : w'.latestProcessedSignature = w.latestProcessedSignature
  sent : w'.sent = w.sent
  persists : w'.persists = w.persists
  inFlight : inFlight w'.phase = inFlight w.phase
  first : firstItem? w'.phase = firstItem? w.phase

theorem confirms_confirm {st : TxStatus} (h : w.confirm config st = some w') : Confirms w w' := by
  obtain ⟨chain, hc, rfl⟩ := confirm_cases h
  exact ⟨Chain.confirm?_le hc, rfl, rfl, rfl, inFlight_notify _ _, firstItem?_notify _ _⟩

theorem Confirms.trans {w₁ w₂ w₃ : World} (h : Confirms w₁ w₂) (h' : Confirms w₂ w₃) :
    Confirms w₁ w₃ where
  chain := Chain.le_trans h.chain h'.chain
  cursor := h'.cursor.trans h.cursor
  sent := h'.sent.trans h.sent
  persists := h'.persists.trans h.persists
  inFlight := h'.inFlight.trans h.inFlight
  first := h'.first.trans h.first

theorem confirms_confirmAll {sts : List TxStatus} (h : w.confirmAll config sts = some w') :
    Confirms w w' :=
  confirmAll_invariant (P := Confirms w) (fun _ _ _ hP hc => hP.trans (confirms_confirm hc)) sts
    ⟨Chain.le_refl _, rfl, rfl, rfl, rfl, rfl⟩ h

/-! ## The first item is on the chain -/

/-- The first item, while it is being handled, is a successful transaction of the chain. -/
def FirstConfirmed (w : World) : Prop :=
  ∀ t2, firstItem? w.phase = some t2 → TxStatus.successful t2 ∈ w.chain.history

theorem firstConfirmed_transition {e : Event} (hi : FirstConfirmed w)
    (ht : Transition config w e w') : FirstConfirmed w' := by
  intro t2 ht2
  cases ht with
  | confirmed hc =>
      have hcs := confirms_confirm hc
      exact Chain.mem_of_le hcs.chain (hi t2 (hcs.first ▸ ht2))
  | firstFetched hp hst =>
      have : _ = t2 := Option.some.inj ht2
      exact this ▸ (Chain.mem_of_status? hst).1
  | batched hp hle hc hres hp' =>
      have hcs := confirms_confirmAll hc
      have : _ = t2 := Option.some.inj ht2
      exact Chain.mem_of_le hcs.chain (hi t2 (by rw [hp, ← this]; rfl))
  | fetched hp hmem hst =>
      unfold World.handleLogItem at ht2
      split at ht2
      · dsimp only at ht2
        split at ht2 <;> exact absurd ht2 (by simp [firstItem?])
      · exact absurd ht2 (by simp [firstItem?, World.return_])
  -- no other step ends with a first item
  | _ => exact absurd ht2 (by simp [firstItem?, World.return_, World.reconnect])

theorem firstConfirmed_reachable {ok : World → Event → Prop} (h : Runs.Reach (realtime config) ok w) :
    FirstConfirmed w := by
  refine Runs.Reach.invariant (P := FirstConfirmed) ?_ ?_ h
  · intro w hinit t2 ht2
    rw [hinit.1] at ht2
    exact absurd ht2 (by simp [firstItem?])
  · intro w e w' _ hi _ hstep
    exact firstConfirmed_transition hi (step_cases hstep)

/-! ## A run to start from -/

/-- The function's first state, on an empty chain. -/
def freshWorld : World where
  chain := .empty
  latestProcessedSignature := none
  sent := []
  phase := .connecting
  delivered := []
  persists := []

theorem freshWorld_init (config : Config) : (realtime config).init freshWorld :=
  ⟨rfl, rfl, rfl, fun _ htx => absurd htx List.not_mem_nil⟩

end AxelarRelayer.Proof
