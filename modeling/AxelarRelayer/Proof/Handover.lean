import AxelarRelayer.Proof.Realtime
import AxelarRelayer.Proof.Scan

/-!
# The handover from the batch scan to the merged stream

The two log subscriptions are established one after the other. A transaction
confirmed after both reaches a stream; one confirmed before the first is older
than whatever item the streams yield first, so the batch scan that ends at this
item `t2` sends it. In between only the gateway's stream is open. A transaction of
the gas service alone is then in no stream, and the batch scan covers it only if
it is older than `t2`.

`gapless_iff`: the merged stream is entered without a gap exactly when no such
transaction is newer than `t2`.
-/

namespace AxelarRelayer.Proof

open AxelarRelayer Listener Runs

variable {config : Config} {w w' : World} {c d : Chain} {address : Pubkey} {sub : Subscription}
  {streams streams' : Streams} {taken : List Signature}

/-- Everything newer than the cursor was sent or waits in a stream. -/
def Gapless (config : Config) (w : World) : Prop :=
  ∀ st ∈ w.chain.history, st.isSuccessful = true → config.monitors st = true →
    w.chain.Newer w.latestProcessedSignature st →
      st.tx ∈ w.sent ∨ notification st ∈ w.phase.queued

/--
No successful gas service transaction, newer than the cursor and not mentioning
the gateway, was confirmed between the two subscriptions and after `t2`.
-/
def NoneBetween (config : Config) (w : World) : Prop :=
  match w.phase with
  | .sendingFirst streams t2 =>
      ∀ st ∈ w.chain.history, st.isSuccessful = true →
        st.mentions config.gasServiceConfigPda = true →
        st.mentions config.gatewayProgramAddress = false →
        w.chain.Newer w.latestProcessedSignature st →
        streams.gateway.since ≤ w.chain.position st.signature →
        w.chain.position st.signature < streams.gasService.since →
          w.chain.position st.signature ≤ w.chain.position t2.signature
  | _ => True

/-! ## One subscription -/

/--
What a stream holds: every successful transaction since the subscription that
mentions its address, unless it was taken, and nothing else.
-/
structure Streamed (chain : Chain) (address : Pubkey) (sub : Subscription)
    (taken : List Signature) : Prop where
  since : sub.since ≤ chain.history.length
  complete : ∀ st ∈ chain.history, st.isSuccessful = true → st.mentions address = true →
    sub.since ≤ chain.position st.signature →
      notification st ∈ sub.queue ∨ st.signature ∈ taken
  sound : ∀ x ∈ sub.queue, ∃ st ∈ chain.history, x = notification st ∧
    st.mentions address = true ∧ sub.since ≤ chain.position st.signature

theorem streamed_establish (chain : Chain) (address : Pubkey) :
    Streamed chain address (.establish chain) [] where
  since := Nat.le_refl _
  complete := by
    intro st hst _ _ hpos
    exact absurd hpos (Nat.not_le.mpr (Chain.position_lt_length hst))
  sound x hx := absurd hx List.not_mem_nil

/-- A confirmation reaches the stream or does not concern it. -/
theorem Streamed.confirm {st : TxStatus} (h : Streamed c address sub taken)
    (hc : c.confirm? st = some d) : Streamed d address (sub.notify address st) taken := by
  have hle := Chain.confirm?_le hc
  have hhist := Chain.confirm?_history hc
  have hnew := Chain.length_le_position hc
  have hold : ∀ a ∈ c.history, d.position a.signature = c.position a.signature :=
    fun a ha => Chain.position_of_le hle (Chain.mem_signatures ha)
  refine ⟨?_, ?_, ?_⟩
  · rw [notify_since, hhist, List.length_append]
    exact Nat.le_add_right_of_le h.since
  · intro a ha hsucc hment hpos
    rw [notify_since] at hpos
    rw [hhist, List.mem_append, List.mem_singleton] at ha
    rcases ha with ha | rfl
    · rw [hold a ha] at hpos
      rcases h.complete a ha hsucc hment hpos with hq | ht
      · exact Or.inl (mem_notify_of_mem hq)
      · exact Or.inr ht
    · -- the transaction that is new
      exact Or.inl (notify_mem hment)
  · intro x hx
    rw [notify_since]
    -- an item of the longer queue was there before, or it is the new one
    have hcase : x ∈ sub.queue ∨ (st.mentions address = true ∧ x = notification st) := by
      unfold Subscription.notify at hx
      split at hx
      · rename_i hment
        rcases List.mem_append.mp hx with h1 | h1
        · exact Or.inl h1
        · exact Or.inr ⟨hment, List.mem_singleton.mp h1⟩
      · exact Or.inl hx
    rcases hcase with hq | ⟨hment, rfl⟩
    · obtain ⟨a, ha, hxa, hment, hpos⟩ := h.sound x hq
      exact ⟨a, Chain.mem_of_le hle ha, hxa, hment, by rw [hold a ha]; exact hpos⟩
    · refine ⟨st, ?_, rfl, hment, Nat.le_trans h.since hnew⟩
      rw [hhist]
      exact List.mem_append_right _ (List.mem_singleton_self _)

/-- Taking the front item, which is accounted for if it names a successful transaction. -/
theorem Streamed.pop {item : RpcLogsResponse} {rest : List RpcLogsResponse}
    (h : Streamed c address sub []) (hq : sub.queue = item :: rest)
    (htaken : item.err = none → item.signature ∈ taken) :
    Streamed c address { sub with queue := rest } taken where
  since := h.since
  complete := by
    intro st hst hsucc hment hpos
    rcases h.complete st hst hsucc hment hpos with hin | hin
    · rw [hq] at hin
      rcases List.mem_cons.mp hin with rfl | hrest
      · exact Or.inr (htaken (notification_err hsucc))
      · exact Or.inl hrest
    · exact absurd hin List.not_mem_nil
  sound x hx := h.sound x (by rw [hq]; exact List.mem_cons_of_mem _ hx)

theorem Streamed.weaken (h : Streamed c address sub []) : Streamed c address sub taken where
  since := h.since
  complete := by
    intro st hst hsucc hment hpos
    rcases h.complete st hst hsucc hment hpos with hin | hin
    · exact Or.inl hin
    · exact absurd hin List.not_mem_nil
  sound := h.sound

/-! ## Both subscriptions -/

/-- The streams of one connection, and the items taken from them. -/
structure Connected (config : Config) (chain : Chain) (streams : Streams)
    (taken : List Signature) : Prop where
  gateway : Streamed chain config.gatewayProgramAddress streams.gateway taken
  gasService : Streamed chain config.gasServiceConfigPda streams.gasService taken
  order : streams.gateway.since ≤ streams.gasService.since
  taken : ∀ sig ∈ taken, sig ∈ chain.history.map TxStatus.signature ∧
    streams.gateway.since ≤ chain.position sig

theorem Connected.confirm {st : TxStatus} (h : Connected config c streams taken)
    (hc : c.confirm? st = some d) : Connected config d (streams.notify config st) taken where
  gateway := h.gateway.confirm hc
  gasService := h.gasService.confirm hc
  order := by
    rw [Streams.notify, notify_since, notify_since]
    exact h.order
  taken := by
    intro sig hsig
    obtain ⟨hin, hpos⟩ := h.taken sig hsig
    have hle := Chain.confirm?_le hc
    refine ⟨(List.IsPrefix.map TxStatus.signature hle).subset hin, ?_⟩
    rw [Streams.notify, notify_since, Chain.position_of_le hle hin]
    exact hpos

/-- Taking an item from either stream. -/
theorem Connected.next {source : Source} {item : RpcLogsResponse}
    (h : Connected config c streams []) (hnext : streams.next? source = some (item, streams'))
    (htaken : item.err = none → item.signature ∈ taken) (honly : ∀ sig ∈ taken, sig = item.signature) :
    Connected config c streams' taken := by
  -- the item names a transaction that stands above the first subscription
  have hitem : ∃ st ∈ c.history, item = notification st ∧
      streams.gateway.since ≤ c.position st.signature := by
    rcases List.mem_append.mp (item_mem_queued hnext) with hin | hin
    · obtain ⟨st, hst, hx, _, hpos⟩ := h.gateway.sound item hin
      exact ⟨st, hst, hx, hpos⟩
    · obtain ⟨st, hst, hx, _, hpos⟩ := h.gasService.sound item hin
      exact ⟨st, hst, hx, Nat.le_trans h.order hpos⟩
  have hsigs : ∀ sig ∈ taken, sig ∈ c.history.map TxStatus.signature ∧
      streams.gateway.since ≤ c.position sig := by
    intro sig hsig
    obtain ⟨st, hst, hx, hpos⟩ := hitem
    rw [honly sig hsig, hx]
    exact ⟨Chain.mem_signatures hst, hpos⟩
  cases source with
  | gateway =>
      simp only [Streams.next?] at hnext
      split at hnext
      · exact absurd hnext (by simp)
      · rename_i hq
        simp only [Option.some.injEq, Prod.mk.injEq] at hnext
        obtain ⟨rfl, rfl⟩ := hnext
        exact ⟨h.gateway.pop hq htaken, h.gasService.weaken, h.order, hsigs⟩
  | gasService =>
      simp only [Streams.next?] at hnext
      split at hnext
      · exact absurd hnext (by simp)
      · rename_i hq
        simp only [Option.some.injEq, Prod.mk.injEq] at hnext
        obtain ⟨rfl, rfl⟩ := hnext
        exact ⟨h.gateway.weaken, h.gasService.pop hq htaken, h.order, hsigs⟩

theorem next_since {source : Source} {item : RpcLogsResponse}
    (hnext : streams.next? source = some (item, streams')) :
    streams'.gateway.since = streams.gateway.since := by
  cases source <;> simp only [Streams.next?] at hnext <;> split at hnext <;>
    simp only [reduceCtorEq, Option.some.injEq, Prod.mk.injEq] at hnext
  all_goals rw [← hnext.2]

/-- An item that turns out to name a failed transaction need not be remembered. -/
theorem Connected.forget {sig : Signature} {tx : SolanaTransaction} {error : TransactionError}
    (h : Connected config c streams [sig]) (hst : c.status? sig = some (.failed tx error)) :
    Connected config c streams [] := by
  obtain ⟨hin, hsig⟩ := Chain.mem_of_status? hst
  have hne : ∀ st ∈ c.history, st.isSuccessful = true → st.signature ∉ [sig] := by
    intro st hmem hsucc htaken
    have heq : st = _ := Chain.eq_of_signature_eq hmem hin
      ((List.mem_singleton.mp htaken).trans hsig.symm)
    rw [heq] at hsucc
    exact absurd hsucc (by simp [TxStatus.isSuccessful])
  have hdrop : ∀ {address sub}, Streamed c address sub [sig] → Streamed c address sub [] := by
    intro address sub hs
    refine ⟨hs.since, ?_, hs.sound⟩
    intro st hmem hsucc hment hpos
    exact Or.inl ((hs.complete st hmem hsucc hment hpos).resolve_right (hne st hmem hsucc))
  exact ⟨hdrop h.gateway, hdrop h.gasService, h.order, fun _ hs => absurd hs List.not_mem_nil⟩

/-! ## One connection, up to the merged stream -/

/-- Everything sent so far is on the chain. -/
def SentConfirmed (w : World) : Prop := ∀ tx ∈ w.sent, TxStatus.successful tx ∈ w.chain.history

/-- Everything sent so far stands below position `n`. -/
def SentBelow (w : World) (n : Nat) : Prop := ∀ tx ∈ w.sent, w.chain.position tx.signature < n

/-- What the batch scan added to what was sent is older than `t2`. -/
def SentBelowOr (w : World) (n : Nat) (t2 : SolanaTransaction) : Prop :=
  ∀ tx ∈ w.sent, w.chain.position tx.signature < n ∨
    w.chain.position tx.signature < w.chain.position t2.signature

/-- The streams, and what was sent, at every point of a connection before the merged stream. -/
def HandoverInv (config : Config) (w : World) : Prop :=
  SentConfirmed w ∧
  match w.phase with
  | .subscribingGasService gateway =>
      Streamed w.chain config.gatewayProgramAddress gateway [] ∧ SentBelow w gateway.since
  | .awaitingFirst streams => Connected config w.chain streams [] ∧ SentBelow w streams.gateway.since
  | .fetchingFirst streams sig =>
      Connected config w.chain streams [sig] ∧ SentBelow w streams.gateway.since
  | .fetchingMissed streams t2 =>
      Connected config w.chain streams [t2.signature] ∧ SentBelow w streams.gateway.since
  | .sendingFirst streams t2 =>
      Connected config w.chain streams [t2.signature] ∧ SentBelowOr w streams.gateway.since t2
  | _ => True

theorem SentConfirmed.below (h : SentConfirmed w) : SentBelow w w.chain.history.length :=
  fun _ htx => Chain.position_lt_length (h _ htx)

/-- Confirmations do not move what was sent. -/
theorem position_of_sent {st : TxStatus} {tx : SolanaTransaction} (h : SentConfirmed w)
    (hc : w.chain.confirm? st = some d) (htx : tx ∈ w.sent) :
    d.position tx.signature = w.chain.position tx.signature :=
  Chain.position_of_le (Chain.confirm?_le hc) (Chain.mem_signatures (h tx htx))

theorem handoverInv_confirm {st : TxStatus} (hi : HandoverInv config w)
    (h : w.confirm config st = some w') : HandoverInv config w' := by
  obtain ⟨hsent, hphase⟩ := hi
  obtain ⟨chain, hc, rfl⟩ := confirm_cases h
  have hle := Chain.confirm?_le hc
  refine ⟨fun tx htx => Chain.mem_of_le hle (hsent tx htx), ?_⟩
  -- what was sent keeps its position, so a bound on it survives
  have hbelow : ∀ {n}, SentBelow w n →
      ∀ tx ∈ w.sent, chain.position tx.signature < n := by
    intro n hb tx htx
    rw [position_of_sent hsent hc htx]
    exact hb tx htx
  dsimp only
  cases hp : w.phase with
  | subscribingGasService gateway =>
      rw [hp] at hphase
      exact ⟨hphase.1.confirm hc, fun tx htx => by
        rw [notify_since]; exact hbelow hphase.2 tx htx⟩
  | awaitingFirst streams =>
      rw [hp] at hphase
      exact ⟨hphase.1.confirm hc, fun tx htx => by
        rw [Streams.notify, notify_since]; exact hbelow hphase.2 tx htx⟩
  | fetchingFirst streams sig =>
      rw [hp] at hphase
      exact ⟨hphase.1.confirm hc, fun tx htx => by
        rw [Streams.notify, notify_since]; exact hbelow hphase.2 tx htx⟩
  | fetchingMissed streams t2 =>
      rw [hp] at hphase
      exact ⟨hphase.1.confirm hc, fun tx htx => by
        rw [Streams.notify, notify_since]; exact hbelow hphase.2 tx htx⟩
  | sendingFirst streams t2 =>
      rw [hp] at hphase
      -- here the bound is the position of `t2`, which stays where it is
      refine ⟨hphase.1.confirm hc, fun tx htx => ?_⟩
      dsimp only
      rw [Streams.notify, notify_since, position_of_sent hsent hc htx,
        Chain.position_of_le hle (hphase.1.taken _ (List.mem_singleton_self _)).1]
      exact hphase.2 tx htx
  | connecting => trivial
  | subscribingGateway => trivial
  | merged streams futures => trivial
  | returned error => trivial

/-- Confirmations go to the end of the history. -/
theorem history_confirmAll (sts : List TxStatus) {w w' : World}
    (h : w.confirmAll config sts = some w') : w'.chain.history = w.chain.history ++ sts := by
  induction sts generalizing w with
  | nil =>
      simp only [World.confirmAll, List.foldlM_nil, Option.pure_def, Option.some.injEq] at h
      rw [← h, List.append_nil]
  | cons st sts ih =>
      simp only [World.confirmAll, List.foldlM_cons, Option.bind_eq_bind,
        Option.bind_eq_some_iff] at h
      obtain ⟨w₁, h₁, hrest⟩ := h
      obtain ⟨chain, hchain, rfl⟩ := confirm_cases h₁
      rw [ih hrest, Chain.confirm?_history hchain, List.append_assoc]
      rfl

/-- The chain after the confirmations a batch lets pass is the one its last request saw. -/
theorem chainAt_le_of_batch {env : ScanEnv} {scanned : ScanState} {w₁ : World}
    (hle : w.chain ≤ env.chainAt 0) (hc : confirmedDuring config w env scanned = some w₁) :
    env.chainAt scanned.requests ≤ w₁.chain := by
  have hpre : w.chain.history <+: (env.chainAt scanned.requests).history :=
    Chain.le_trans hle (chainAt_mono env (Nat.zero_le _))
  -- what was confirmed is what that chain has beyond the chain of `w`
  have heq := (history_confirmAll _ hc).trans (List.prefix_iff_eq_append.mp hpre)
  exact ⟨[], by rw [List.append_nil, heq]⟩

/-- The batch scan of a connection sends only what is confirmed and older than `t2`. -/
theorem older_of_missedScan {env : ScanEnv} {k : Nat} {t2 tx : SolanaTransaction} {w₁ : World}
    (hle : w.chain ≤ env.chainAt 0)
    (hc : confirmedDuring config w env (missedScan config w env t2 k) = some w₁)
    (htx : tx ∈ (missedScan config w env t2 k).sent) :
    TxStatus.successful tx ∈ w₁.chain.history ∧
      w₁.chain.position tx.signature < w₁.chain.position t2.signature := by
  obtain ⟨j, program, hl, hreq, hin⟩ := confirmed_of_sent htx
  have hchain := chainAt_le_of_batch hle hc
  have hj : (env.chainAt j) ≤ w₁.chain := Chain.le_trans (chainAt_mono env hreq) hchain
  obtain ⟨hinj, _⟩ := mem_pageOf hl.shown
  rw [scan_requests hl.running] at hinj
  have holder := older_mono hj hinj (older_of_lists hl)
  exact ⟨Chain.mem_of_le hchain hin, holder.2⟩

theorem handoverInv_confirmAll {sts : List TxStatus} (hi : HandoverInv config w)
    (hc : w.confirmAll config sts = some w') : HandoverInv config w' :=
  confirmAll_invariant (fun _ _ _ ha hab => handoverInv_confirm ha hab) sts hi hc

theorem handoverInv_transition {e : Event} (hi : HandoverInv config w) (hfirst : FirstConfirmed w)
    (ht : Transition config w e w') : HandoverInv config w' := by
  have hsent := hi.1
  have hphase := hi.2
  cases ht with
  | confirmed hc => exact handoverInv_confirm hi hc
  | connected => exact ⟨hsent, trivial⟩
  | subscribedGateway => exact ⟨hsent, streamed_establish _ _, hsent.below⟩
  | subscribedGasService hp =>
      rw [hp] at hphase
      exact ⟨hsent, ⟨hphase.1, streamed_establish _ _, hphase.1.since,
        fun _ hs => absurd hs List.not_mem_nil⟩, hphase.2⟩
  -- the item is off its stream, so its signature has to count as taken
  | firstItem hp hnext herr =>
      rw [hp] at hphase
      refine ⟨hsent, hphase.1.next hnext (fun _ => List.mem_singleton_self _)
        (fun _ hs => List.mem_singleton.mp hs), ?_⟩
      rw [next_since hnext]
      exact hphase.2
  | firstSkipped hp hnext herr =>
      rw [hp] at hphase
      refine ⟨hsent, hphase.1.next hnext (fun h => absurd h herr)
        (fun _ hs => absurd hs List.not_mem_nil), ?_⟩
      rw [next_since hnext]
      exact hphase.2
  | firstFetched hp hst =>
      rw [hp] at hphase
      have hsig := (Chain.mem_of_status? hst).2
      rw [TxStatus.signature_successful] at hsig
      refine ⟨hsent, ?_⟩
      dsimp only
      rw [hsig]
      exact hphase
  | firstFailed hp hst =>
      rw [hp] at hphase
      -- a failed transaction is never sent: nothing is lost by forgetting it
      exact ⟨hsent, hphase.1.forget hst, hphase.2⟩
  | batched hp hle hc hres hp' =>
      -- transactions were confirmed while the batch ran
      obtain ⟨hsent₁, hphase₁⟩ := handoverInv_confirmAll hi hc
      have hsame := (confirms_confirmAll hc).first
      rw [hp, hp'] at hsame
      obtain rfl := Option.some.inj hsame
      rw [hp'] at hphase₁
      refine ⟨?_, ?_, ?_⟩
      · intro tx htx
        rcases List.mem_append.mp htx with h | h
        · exact hsent₁ tx h
        · exact (older_of_missedScan hle hc h).1
      · exact hphase₁.1
      · intro tx htx
        rcases List.mem_append.mp htx with h | h
        · exact Or.inl (hphase₁.2 tx h)
        · -- what the batch sent lies below `t2`
          exact Or.inr (older_of_missedScan hle hc h).2
  | batchFailed hp hle hc =>
      obtain ⟨hsent₁, _⟩ := handoverInv_confirmAll hi hc
      refine ⟨?_, trivial⟩
      intro tx htx
      rcases List.mem_append.mp htx with h | h
      · exact hsent₁ tx h
      · exact (older_of_missedScan hle hc h).1
  | firstSent hp =>
      refine ⟨?_, trivial⟩
      intro tx htx
      rcases List.mem_append.mp htx with h | h
      · exact hsent tx h
      · rw [List.mem_singleton.mp h]
        exact hfirst _ (by rw [hp]; rfl)
  | pulled => exact ⟨hsent, trivial⟩
  | skipped => exact ⟨hsent, trivial⟩
  -- the merged phase asks nothing of the streams any more
  | @fetched _ _ _ logItem sendOk persistOk hp hmem hst =>
      unfold World.handleLogItem
      split
      · refine ⟨?_, ?_⟩
        · intro tx htx
          rcases List.mem_append.mp htx with h | h
          · exact hsent tx h
          · rw [List.mem_singleton.mp h]
            exact (Chain.mem_of_status? hst).1
        · cases persistOk <;> trivial
      · exact ⟨hsent, trivial⟩
  | fetchedFailed => exact ⟨hsent, trivial⟩
  | reconnected => exact ⟨hsent, trivial⟩
  | returned => exact ⟨hsent, trivial⟩

theorem handoverInv_reachable {ok : World → Event → Prop} (h : Reach (realtime config) ok w) :
    HandoverInv config w := by
  refine Reach.invariant (P := HandoverInv config) ?_ ?_ h
  · intro w hinit
    refine ⟨hinit.2.2.2, ?_⟩
    rw [hinit.1]
    trivial
  · intro w e w' hr hi _ hstep
    exact handoverInv_transition hi (firstConfirmed_reachable hr) (step_cases hstep)

/-! ## What the batch scan sent -/

/-- Everything between the cursor and `t2` was sent. -/
def BatchSent (config : Config) (w : World) (t2 : SolanaTransaction) : Prop :=
  ∀ st ∈ w.chain.history, st.isSuccessful = true → config.monitors st = true →
    w.chain.Older (some t2.signature) st → w.chain.Newer w.latestProcessedSignature st →
      st.tx ∈ w.sent

/-- **A batch whose fetches and sends all work sends everything between the cursor and `t2`.** -/
theorem batchSent_of_batch {env : ScanEnv} {k : Nat} {t2 : SolanaTransaction} {w₁ : World}
    {newest : Option Signature} {phase : Phase} (hle : w.chain ≤ env.chainAt 0)
    (ht2 : TxStatus.successful t2 ∈ w.chain.history)
    (hc : confirmedDuring config w env (missedScan config w env t2 k) = some w₁)
    (hres : (missedScan config w env t2 k).result = some (.ok newest))
    (hopen : (missedScan config w env t2 k).unsent = [])
    (hfetch : ∀ n sig, env.fetchFails n sig = false) :
    BatchSent config
      { w₁ with sent := w₁.sent ++ (missedScan config w env t2 k).sent, phase := phase } t2 := by
  intro st hst hsucc hmon holder hnewer
  have hcs := confirms_confirmAll hc
  have hchain := chainAt_le_of_batch hle hc
  obtain ⟨m, hm, hgw, hgas, _⟩ := listed_of_ok hres hchain
  have hmw : env.chainAt m ≤ w₁.chain := Chain.le_trans (chainAt_mono env hm) hchain
  -- what is older than `t2` was confirmed when `t2` was
  have hin : st ∈ w.chain.history := Paging.mem_of_position_lt w₁.chain.distinct hcs.chain hst
    (Chain.mem_signatures ht2) (Nat.le_of_lt holder.2)
  have hrange : ∀ {n program}, n ≤ m → st.mentions program = true →
      InRange env w₁.chain w.latestProcessedSignature (some t2.signature) program n st := by
    intro n program hn hment
    have hle' : w.chain ≤ env.chainAt n := Chain.le_trans hle (chainAt_mono env (Nat.zero_le n))
    have hnw : env.chainAt n ≤ w₁.chain := Chain.le_trans (chainAt_mono env hn) hmw
    refine ⟨Chain.mem_of_le hle' hin, hment, ?_, ?_⟩
    · exact (Chain.older_of_le hnw (Chain.mem_of_le hle' hin)
        (Chain.mem_signatures (Chain.mem_of_le hle' ht2))).mp holder
    · rw [← hcs.cursor]
      exact hnewer
  refine List.mem_append_right _ ?_
  rcases Bool.or_eq_true_iff.mp hmon with hment | hment
  · exact hgw.sent hfetch hopen (hrange (Nat.zero_le m) hment) hsucc
  · exact hgas.sent hfetch hopen (hrange (Nat.le_refl m) hment) hsucc

/-- Later confirmations are not older than `t2`. -/
theorem batchSent_confirm {st : TxStatus} {t2 : SolanaTransaction}
    (h : BatchSent config w t2 ∧ TxStatus.successful t2 ∈ w.chain.history)
    (hc : w.confirm config st = some w') :
    BatchSent config w' t2 ∧ TxStatus.successful t2 ∈ w'.chain.history := by
  obtain ⟨hbatch, ht2⟩ := h
  obtain ⟨chain, hchain, rfl⟩ := confirm_cases hc
  have hle := Chain.confirm?_le hchain
  refine ⟨?_, Chain.mem_of_le hle ht2⟩
  intro a ha hsucc hmon holder hnewer
  dsimp only at ha holder hnewer
  have hin : a ∈ w.chain.history := Paging.mem_of_position_lt chain.distinct hle ha
    (Chain.mem_signatures ht2) (Nat.le_of_lt holder.2)
  exact hbatch a hin hsucc hmon ((Chain.older_of_le hle hin (Chain.mem_signatures ht2)).mp holder)
    (newer_of_le hle hin hnewer)

/-! ## Entering the merged stream -/

/-- The merged stream is entered from the sending of the first item. -/
theorem firstSent_cases (h : World.step config w (.firstSent true) = some w') :
    ∃ streams t2, w.phase = .sendingFirst streams t2 ∧
      w' = { w with sent := w.sent ++ [t2], phase := .merged streams [] } := by
  unfold World.step at h
  split at h <;> simp_all

/-- A batch after which the first item can be sent returned `Ok`. -/
theorem batch_cases {env : ScanEnv} {k : Nat} {w₁ : World} {t2 : SolanaTransaction}
    (h : World.step config w (.batch env k) = some w₁) (hfirst : firstItem? w₁.phase = some t2)
    (hconf : FirstConfirmed w) (hfetch : ∀ n sig, env.fetchFails n sig = false) :
    BatchSent config w₁ t2 ∧ TxStatus.successful t2 ∈ w₁.chain.history := by
  cases step_cases h with
  | batched hp hle hc hres hp' hopen =>
      obtain rfl := Option.some.inj hfirst
      have ht2 := hconf _ (by rw [hp]; rfl)
      exact ⟨batchSent_of_batch hle ht2 hc hres hopen hfetch,
        Chain.mem_of_le (confirms_confirmAll hc).chain ht2⟩
  | batchFailed => exact absurd hfirst (by simp [firstItem?, World.return_])
  | reconnected => exact absurd hfirst (by simp [firstItem?, World.reconnect])
  | returned => exact absurd hfirst (by simp [firstItem?, World.return_])

/--
**When the handover has no gap.** Whatever happened before, after a batch whose
fetches all worked and however many confirmations, the merged stream is entered
without a gap exactly when no transaction of the gas service alone was confirmed
between the two subscriptions and after the first item.
-/
theorem gapless_iff (config : Config) (w w₁ w₂ w₃ : World) (env : ScanEnv) (k : Nat)
    (sts : List TxStatus) (h : Reach (realtime config) always w)
    (hbatch : (realtime config).step w (.batch env k) = some w₁)
    (hfetch : ∀ n sig, env.fetchFails n sig = false)
    (hconf : w₁.confirmAll config sts = some w₂)
    (hsent : (realtime config).step w₂ (.firstSent true) = some w₃) :
    Gapless config w₃ ↔ NoneBetween config w₂ := by
  obtain ⟨streams, t2, hp, rfl⟩ := firstSent_cases hsent
  have hr₁ : Reach (realtime config) always w₁ := Reach.tail h trivial hbatch
  have hcs := confirms_confirmAll hconf
  have hfirst : firstItem? w₁.phase = some t2 := by rw [← hcs.first, hp]; rfl
  obtain ⟨hbatchSent, ht2⟩ := confirmAll_invariant
    (P := fun w => BatchSent config w t2 ∧ TxStatus.successful t2 ∈ w.chain.history)
    (fun _ _ _ hP hc => batchSent_confirm hP hc) sts
    (batch_cases hbatch hfirst (firstConfirmed_reachable h) hfetch) hconf
  obtain ⟨hconfirmed, hinv⟩ := handoverInv_confirmAll (handoverInv_reachable hr₁) hconf
  rw [hp] at hinv
  obtain ⟨hstreams, honly⟩ := hinv
  have hpos2 := (hstreams.taken _ (List.mem_singleton_self _)).2
  have hname : ∀ {st}, st ∈ w₂.chain.history → st.signature = t2.signature →
      st = .successful t2 := fun hst hsig => Chain.eq_of_signature_eq hst ht2 hsig
  rw [NoneBetween, hp]
  constructor
  · intro hg st hst hsucc hgas hnogw hnewer hafter hbefore
    by_contra hlt
    rcases hg st hst hsucc (by simp [Config.monitors, hgas]) hnewer with hin | hq
    · have hkey : st.tx.signature = st.signature := rfl
      rcases List.mem_append.mp hin with hold | hnew
      · rcases honly _ hold with hb | hb <;> rw [hkey] at hb <;> omega
      · have := congrArg SolanaTransaction.signature (List.mem_singleton.mp hnew)
        rw [hkey] at this
        rw [this] at hlt
        omega
    · have hsame : ∀ {st' : TxStatus}, st' ∈ w₂.chain.history →
          notification st = notification st' → st = st' := fun hst' hn =>
        Chain.eq_of_signature_eq hst hst' (congrArg RpcLogsResponse.signature hn)
      rcases List.mem_append.mp hq with hq | hq
      · obtain ⟨st', hst', hn, hment, _⟩ := hstreams.gateway.sound _ hq
        rw [← hsame hst' hn] at hment
        exact absurd (hment.symm.trans hnogw) (by simp)
      · obtain ⟨st', hst', hn, _, hpos⟩ := hstreams.gasService.sound _ hq
        rw [← hsame hst' hn] at hpos
        omega
  · intro hnone st hst hsucc hmon hnewer
    -- the first item is sent, whatever is older was sent by the batch
    have hupto : w₂.chain.position st.signature ≤ w₂.chain.position t2.signature →
        st.tx ∈ w₂.sent ++ [t2] := by
      intro hle
      rcases Nat.lt_or_eq_of_le hle with hlt | heq
      · exact List.mem_append_left _
          (hbatchSent st hst hsucc hmon ⟨Chain.mem_signatures ht2, hlt⟩ hnewer)
      · rw [hname hst (Chain.position_inj hst heq)]
        exact List.mem_append_right _ (List.mem_singleton_self _)
    have hqueued : ∀ {address sub}, Streamed w₂.chain address sub [t2.signature] →
        st.mentions address = true → sub.since ≤ w₂.chain.position st.signature →
        notification st ∈ sub.queue ∨ st.tx ∈ w₂.sent ++ [t2] := by
      intro address sub hs hment hpos
      rcases hs.complete st hst hsucc hment hpos with hq | ht
      · exact Or.inl hq
      · rw [hname hst (List.mem_singleton.mp ht)]
        exact Or.inr (List.mem_append_right _ (List.mem_singleton_self _))
    by_cases hearly : w₂.chain.position st.signature < streams.gateway.since
    · exact Or.inl (hupto (by omega))
    · cases hgw : st.mentions config.gatewayProgramAddress with
      | true =>
          rcases hqueued hstreams.gateway hgw (Nat.le_of_not_lt hearly) with hq | hs
          · exact Or.inr (List.mem_append_left _ hq)
          · exact Or.inl hs
      | false =>
          have hgas : st.mentions config.gasServiceConfigPda = true := by
            simpa [Config.monitors, hgw] using hmon
          by_cases hlate : w₂.chain.position st.signature < streams.gasService.since
          · exact Or.inl (hupto
              (hnone st hst hsucc hgas hgw hnewer (Nat.le_of_not_lt hearly) hlate))
          · rcases hqueued hstreams.gasService hgas (Nat.le_of_not_lt hlate) with hq | hs
            · exact Or.inr (List.mem_append_right _ hq)
            · exact Or.inl hs

/-! ## A gas service transaction between the two subscriptions -/

-- the implications are decided by a named instance: which one is found depends on the imports
instance (config : Config) (w : World) : Decidable (NoneBetween config w) := by
  unfold NoneBetween
  split
  · exact @List.decidableBAll _ _ (fun _ => forall_prop_decidable _) w.chain.history
  · infer_instance

instance (config : Config) (w : World) : Decidable (Gapless config w) :=
  @List.decidableBAll _ _ (fun _ => forall_prop_decidable _) w.chain.history

/-- Two transactions are confirmed between the subscriptions; the gateway's is the first item. -/
def betweenSubscriptions (first second : TxStatus) : List Event :=
  [.connect true, .subscribe true, .confirm first, .confirm second, .subscribe true,
    .item .gateway, .firstFetched true]

/-- The rest of the handover, on a chain that holds just the two. -/
def handOver (config : Config) (events : List Event) (chain : Chain)
    (check : World → World → Bool) : Option Bool :=
  (replay (realtime config) always freshWorld events).bind fun w =>
    ((realtime config).step w (.batch (.static chain) 3)).bind fun w₁ =>
      (w₁.confirmAll config []).bind fun w₂ =>
        ((realtime config).step w₂ (.firstSent true)).map fun w₃ => check w₂ w₃

/-- The gas service's is the older one: the batch scan sends it. -/
theorem gapless_older : ∃ w₃ : World,
    Reach (realtime ⟨.filled 1, .filled 2⟩) always w₃ ∧
      w₃.sent = [(gasServiceTx 1).tx, (gatewayTx 2).tx] ∧
      Gapless ⟨.filled 1, .filled 2⟩ w₃ := by
  have hrun : handOver ⟨.filled 1, .filled 2⟩
      (betweenSubscriptions (gasServiceTx 1) (gatewayTx 2))
      ⟨[gasServiceTx 1, gatewayTx 2], by decide, by decide⟩
      (fun w₂ w₃ => decide (NoneBetween ⟨.filled 1, .filled 2⟩ w₂ ∧
        w₃.sent = [(gasServiceTx 1).tx, (gatewayTx 2).tx])) = some true := by decide +kernel
  simp only [handOver, Option.bind_eq_some_iff, Option.map_eq_some_iff] at hrun
  obtain ⟨w, hw, w₁, hw₁, w₂, hw₂, w₃, hw₃, hcheck⟩ := hrun
  obtain ⟨hnone, hsent⟩ := of_decide_eq_true hcheck
  have hreach : Reach (realtime ⟨.filled 1, .filled 2⟩) always w :=
    Reach.of_replay (Reach.init (freshWorld_init _)) hw
  -- nothing is confirmed between the batch and its last send
  obtain rfl : w₁ = w₂ := Option.some.inj hw₂
  exact ⟨w₃, (hreach.tail trivial hw₁).tail trivial hw₃, hsent,
    (gapless_iff _ w w₁ w₁ w₃ _ 3 [] hreach hw₁ (fun _ _ => rfl) hw₂ hw₃).mpr hnone⟩

/-- **The law fails**: confirmed after the first item, it is neither sent nor in a stream. -/
theorem handover_gap : ¬ ∀ (config : Config) (w w₁ w₂ w₃ : World) (env : ScanEnv) (k : Nat)
    (sts : List TxStatus), Reach (realtime config) always w →
    (realtime config).step w (.batch env k) = some w₁ →
    (∀ n sig, env.fetchFails n sig = false) → w₁.confirmAll config sts = some w₂ →
    (realtime config).step w₂ (.firstSent true) = some w₃ → Gapless config w₃ := by
  intro hall
  have hrun : handOver ⟨.filled 1, .filled 2⟩
      (betweenSubscriptions (gatewayTx 1) (gasServiceTx 2))
      ⟨[gatewayTx 1, gasServiceTx 2], by decide, by decide⟩
      (fun _ w₃ => decide (¬ Gapless ⟨.filled 1, .filled 2⟩ w₃)) = some true := by decide +kernel
  simp only [handOver, Option.bind_eq_some_iff, Option.map_eq_some_iff] at hrun
  obtain ⟨w, hw, w₁, hw₁, w₂, hw₂, w₃, hw₃, hcheck⟩ := hrun
  exact of_decide_eq_true hcheck (hall _ w w₁ w₂ w₃ _ 3 []
    (Reach.of_replay (Reach.init (freshWorld_init _)) hw) hw₁ (fun _ _ => rfl) hw₂ hw₃)

end AxelarRelayer.Proof
