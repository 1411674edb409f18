import AxelarRelayer.Proof.ListenerRuns
import AxelarRelayer.Proof.RealtimeCursor

/-!
# Nothing is lost over crashes

What the listener owes are the successful transactions of the monitored addresses that
are newer than the signature the first process started from. `Cover` is the contract of
the state file: everything owed up to the stored signature was sent. In the merged stream
everything else that is owed is in a stream or in a fetch, so a process that dies there
loses nothing the next one does not fetch again.

The contract needs orderly steps. `Orderly` asks of each step what the scan, the handover
and the realtime scanner need on their own, in terms of the state before the step and of
what the RPC nodes answer, and `nothing_lost` is the invariant of the runs that meet it.
-/

namespace AxelarRelayer.Proof

open AxelarRelayer Listener Runs

variable {config : Config} {fromStr : String → Option Signature} {s s' : SolanaListener}
  {w w' : World} {c d : Chain} {env : ScanEnv} {t0 t1 newest : Option Signature}
  {st : TxStatus} {k : Nat} {n : Signature}

/-! ## The contract -/

/-- The contract of the state file. -/
structure Cover (config : Config) (t0 : Option Signature) (w : World) : Prop where
  onChain : Known w.chain w.latestProcessedSignature
  upTo : ∀ n, w.latestProcessedSignature = some n → ∀ st, Due config t0 w.chain st →
    w.chain.position st.signature ≤ w.chain.position n → st.tx ∈ w.sent

/-- Confirmations stand above the cursor. -/
theorem Cover.grow (h : Cover config t0 w) (hle : w.chain ≤ w'.chain)
    (hcursor : w'.latestProcessedSignature = w.latestProcessedSignature)
    (hsent : ∀ tx, tx ∈ w.sent → tx ∈ w'.sent) : Cover config t0 w' := by
  refine ⟨?_, ?_⟩
  · intro n hn
    rw [hcursor] at hn
    exact (List.IsPrefix.map TxStatus.signature hle).subset (h.onChain n hn)
  · intro n hn st hdue hpos
    rw [hcursor] at hn
    have hon := h.onChain n hn
    have hin : st ∈ w.chain.history :=
      Paging.mem_of_position_lt w'.chain.distinct hle hdue.confirmed hon hpos
    refine hsent _ (h.upTo n hn st (hdue.of_le hle hin) ?_)
    rw [Chain.position_of_le hle hon, Chain.position_of_le hle (Chain.mem_signatures hin)] at hpos
    exact hpos

/-- What is owed was sent or is newer than the cursor. -/
theorem Cover.sent_or_newer (h : Cover config t0 w) (hdue : Due config t0 w.chain st) :
    st.tx ∈ w.sent ∨ w.chain.Newer w.latestProcessedSignature st := by
  cases hcursor : w.latestProcessedSignature with
  | none => exact Or.inr trivial
  | some n =>
      by_cases hpos : w.chain.position st.signature ≤ w.chain.position n
      · exact Or.inl (h.upTo n hcursor st hdue hpos)
      · exact Or.inr fun _ => Nat.lt_of_not_le hpos

/-! ## The catch-up call -/

/-- **What a catch-up call that returns has sent**, if its fetches and sends work. -/
theorem catchUp_sends (hfetch : ∀ m sig, env.fetchFails m sig = false)
    (hsend : ∀ m sig, env.sendFails m sig = false)
    (hret : (catchUp config env t1 k).result = some (.ok newest)) (hD : env.chainAt k ≤ d)
    (hst : st ∈ d.history) (hsucc : st.isSuccessful = true) (hmon : config.monitors st = true)
    (hnewer : d.Newer t1 st) :
    (st ∈ (env.chainAt 0).history → st.tx ∈ (catchUp config env t1 k).sent) ∧
    ∀ n, newest = some n → d.position st.signature ≤ d.position n →
      st.tx ∈ (catchUp config env t1 k).sent ∨ LateGateway config env t1 d st := by
  have hsent : (∃ j program, Lists env config.programsToMonitor t1 none j program st) →
      st.tx ∈ (catchUp config env t1 k).sent := by
    rintro ⟨j, program, hl⟩
    exact (sent_iff_delivered hret hsucc).mpr ⟨j, program, hl, hfetch _ _, hsend _ _⟩
  obtain ⟨hearly, hupTo⟩ := catchUp_lists hret hD hst hsucc hmon hnewer
  exact ⟨fun hin => hsent (hearly hin), fun n hn hpos => (hupTo n hn hpos).imp_left hsent⟩

/-! ## The handover -/

section Handover

variable {streams : Streams} {t2 : SolanaTransaction} {address : Pubkey} {sub : Subscription}

/-- The batch and the first item: everything up to the first item that the cursor is below. -/
theorem sent_of_upTo_first (hbatch : BatchSent config w t2)
    (ht2 : TxStatus.successful t2 ∈ w.chain.history) (hst : st ∈ w.chain.history)
    (hsucc : st.isSuccessful = true) (hmon : config.monitors st = true)
    (hnewer : w.chain.Newer w.latestProcessedSignature st)
    (hpos : w.chain.position st.signature ≤ w.chain.position t2.signature) :
    st.tx ∈ w.sent ++ [t2] := by
  by_cases heq : w.chain.position st.signature = w.chain.position t2.signature
  · have hsame : st = .successful t2 :=
      Chain.eq_of_signature_eq hst ht2 (Chain.position_inj hst heq)
    rw [hsame]
    exact List.mem_append_right _ (List.mem_singleton_self t2)
  · have hlt := Nat.lt_of_le_of_ne hpos heq
    exact List.mem_append_left _
      (hbatch st hst hsucc hmon ⟨Chain.mem_signatures ht2, hlt⟩ hnewer)

/-- A stream yields what was confirmed after its subscription, the first item aside. -/
theorem queued_or_first (hs : Streamed w.chain address sub [t2.signature])
    (ht2 : TxStatus.successful t2 ∈ w.chain.history) (hst : st ∈ w.chain.history)
    (hsucc : st.isSuccessful = true) (hment : st.mentions address = true)
    (hsince : sub.since ≤ w.chain.position st.signature) :
    notification st ∈ sub.queue ∨ st.tx ∈ w.sent ++ [t2] := by
  cases hs.complete st hst hsucc hment hsince with
  | inl hqueued => exact Or.inl hqueued
  | inr htaken =>
      have hsame : st = .successful t2 :=
        Chain.eq_of_signature_eq hst ht2 (List.mem_singleton.mp htaken)
      rw [hsame]
      exact Or.inr (List.mem_append_right _ (List.mem_singleton_self t2))

/-- The merged stream is entered with everything above the cursor sent or in a stream. -/
theorem sent_or_queued (hstreams : Connected config w.chain streams [t2.signature])
    (hbatch : BatchSent config w t2) (ht2 : TxStatus.successful t2 ∈ w.chain.history)
    (hp : w.phase = .sendingFirst streams t2) (hnone : NoneBetween config w)
    (hst : st ∈ w.chain.history) (hsucc : st.isSuccessful = true)
    (hmon : config.monitors st = true) (hnewer : w.chain.Newer w.latestProcessedSignature st) :
    st.tx ∈ w.sent ++ [t2] ∨ notification st ∈ streams.queued := by
  have hupTo := sent_of_upTo_first hbatch ht2 hst hsucc hmon hnewer
  have hpos2 := (hstreams.taken _ (List.mem_singleton_self _)).2
  by_cases hbefore : w.chain.position st.signature < streams.gateway.since
  · -- older than both subscriptions, and so than the first item
    exact Or.inl (hupTo (by omega))
  · by_cases hgateway : st.mentions config.gatewayProgramAddress = true
    · exact (queued_or_first hstreams.gateway ht2 hst hsucc hgateway
        (Nat.le_of_not_lt hbefore)).symm.imp id (fun hq => List.mem_append_left _ hq)
    · have hgas : st.mentions config.gasServiceConfigPda = true := by
        simpa [Config.monitors, hgateway] using hmon
      by_cases hbetween : w.chain.position st.signature < streams.gasService.since
      · rw [NoneBetween, hp] at hnone
        exact Or.inl (hupTo (hnone st hst hsucc hgas (by simpa using hgateway) hnewer
          (Nat.le_of_not_lt hbefore) hbetween))
      · exact (queued_or_first hstreams.gasService ht2 hst hsucc hgas
          (Nat.le_of_not_lt hbetween)).symm.imp id (fun hq => List.mem_append_right _ hq)

end Handover

/-! ## One process -/

/-- What an orderly step of the realtime scanner is. -/
def OrderlyStep (config : Config) (w : World) : Event → Prop
  | .batch env _ => ∀ m sig, env.fetchFails m sig = false
  | .firstSent _ => NoneBetween config w
  | e => CompletesInOrder w e

/-- Everything owed was sent or is on its way through the merged stream. -/
def OnItsWay (config : Config) (t0 : Option Signature) (w : World) : Prop :=
  ∀ st, Due config t0 w.chain st → st.tx ∈ w.sent ∨ Pending w.phase st

/-- What the handover and the merged stream add to the contract. -/
def Held (config : Config) (t0 : Option Signature) (w : World) : Prop :=
  match w.phase with
  | .sendingFirst _ t2 => BatchSent config w t2
  | .merged .. => OnItsWay config t0 w
  | _ => True

structure KeptInv (config : Config) (t0 : Option Signature) (w : World) : Prop where
  handover : HandoverInv config w
  first : FirstConfirmed w
  cover : Cover config t0 w
  held : Held config t0 w

theorem KeptInv.batch {streams : Streams} {t2 : SolanaTransaction} (hi : KeptInv config t0 w)
    (hp : w.phase = .sendingFirst streams t2) : BatchSent config w t2 := by
  have hheld := hi.held
  rw [Held, hp] at hheld
  exact hheld

theorem KeptInv.merged {streams : Streams} {futures : List Signature} (hi : KeptInv config t0 w)
    (hp : w.phase = .merged streams futures) : OnItsWay config t0 w := by
  have hheld := hi.held
  rw [Held, hp] at hheld
  exact hheld

theorem keptInv_confirm (hi : KeptInv config t0 w) (h : w.confirm config st = some w') :
    KeptInv config t0 w' := by
  have hcs := confirms_confirm h
  refine ⟨handoverInv_confirm hi.handover h, firstConfirmed_transition hi.first (.confirmed h),
    hi.cover.grow hcs.chain hcs.cursor (fun tx htx => hcs.sent ▸ htx), ?_⟩
  have hconfirm := h
  obtain ⟨chain, hc, rfl⟩ := confirm_cases h
  have hle := Chain.confirm?_le hc
  unfold Held
  dsimp only
  cases hp : w.phase with
  | sendingFirst streams t2 =>
      have hkept := (batchSent_confirm ⟨hi.batch hp, hi.first t2 (by rw [hp]; rfl)⟩ hconfirm).1
      rw [hp] at hkept
      exact hkept
  | merged streams futures =>
      intro a hdue
      have hcases := hdue.confirmed
      dsimp only at hcases
      rw [Chain.confirm?_history hc, List.mem_append, List.mem_singleton] at hcases
      cases hcases with
      | inl hold =>
          cases hi.merged hp a (hdue.of_le hle hold) with
          | inl hsent => exact Or.inl hsent
          | inr hpending =>
              rw [hp] at hpending
              exact Or.inr (hpending.imp id phase_queued_notify)
      | inr hnew =>
          -- both streams are open, so what is owed is delivered
          refine Or.inr (Or.inr ?_)
          have hmon : config.monitors st = true := hnew ▸ hdue.monitored
          rw [hnew]
          exact queued_notify_self hmon
  | _ => trivial

theorem keptInv_confirmAll {sts : List TxStatus} (hi : KeptInv config t0 w)
    (h : w.confirmAll config sts = some w') : KeptInv config t0 w' :=
  confirmAll_invariant (fun _ _ _ ha hab => keptInv_confirm ha hab) sts hi h

/-- Completing a fetch in order stores a signature below which nothing waits. -/
theorem cover_of_fetched {sig : Signature}
    {logItem : SolanaTransaction} {persistOk : Bool} {phase : Phase}
    {persists : List PersistRecord} (hway : OnItsWay config t0 w)
    (hst : w.chain.status? sig = some (.successful logItem))
    (hok : CompletesInOrder w (.fetched sig (.returns true persistOk))) :
    Cover config t0 ⟨w.chain, some logItem.signature, w.sent ++ [logItem], phase, w.delivered,
      persists⟩ := by
  obtain ⟨hmem, hsig⟩ := Chain.mem_of_status? hst
  rw [TxStatus.signature_successful] at hsig
  refine ⟨?_, ?_⟩
  · intro n hn
    rw [← Option.some.inj hn]
    exact Chain.mem_signatures hmem
  · intro n hn a hdue hpos
    dsimp only at hdue hpos ⊢
    rw [← Option.some.inj hn] at hpos
    by_cases heq : w.chain.position a.signature = w.chain.position logItem.signature
    · have hsame : a = .successful logItem :=
        Chain.eq_of_signature_eq hdue.confirmed hmem (Chain.position_inj hdue.confirmed heq)
      rw [hsame]
      exact List.mem_append_right _ (List.mem_singleton_self logItem)
    · refine List.mem_append_left _ ?_
      cases hway a hdue with
      | inl hsent => exact hsent
      | inr hpending =>
          have hlt := Nat.lt_of_le_of_ne hpos heq
          rw [hsig] at hlt
          exact hok (by rw [hst]; rfl) a hdue.confirmed hdue.successful hpending hlt

/-- Taking a transaction out of the pending fetches, when it is sent or has failed. -/
theorem onItsWay_fetched {streams : Streams} {futures : List Signature} {sig : Signature}
    {status : TxStatus} {sent : List SolanaTransaction} {cursor : Option Signature}
    {persists : List PersistRecord} (hway : OnItsWay config t0 w)
    (hp : w.phase = .merged streams futures) (hst : w.chain.status? sig = some status)
    (hsent : ∀ tx, tx ∈ w.sent → tx ∈ sent)
    (hdone : status.isSuccessful = true → status.tx ∈ sent) :
    OnItsWay config t0 ⟨w.chain, cursor, sent, .merged streams (futures.erase sig), w.delivered,
      persists⟩ := by
  intro a hdue
  cases hway a hdue with
  | inl hold => exact Or.inl (hsent _ hold)
  | inr hpending =>
      rw [hp] at hpending
      cases hpending with
      | inl hflight =>
          cases eq_or_erase hdue.confirmed hst hflight with
          | inl heq =>
              rw [heq]
              exact Or.inl (hdone (heq ▸ hdue.successful))
          | inr hstays => exact Or.inr (Or.inl hstays)
      | inr hqueued => exact Or.inr (Or.inr hqueued)

theorem keptInv_handleLogItem {streams : Streams} {futures : List Signature} {sig : Signature}
    {logItem : SolanaTransaction} {sendOk persistOk : Bool} (hi : KeptInv config t0 w)
    (hp : w.phase = .merged streams futures) (hmem : sig ∈ futures)
    (hst : w.chain.status? sig = some (.successful logItem))
    (hok : CompletesInOrder w (.fetched sig (.returns sendOk persistOk))) :
    KeptInv config t0
      (w.handleLogItem streams (futures.erase sig) logItem sendOk persistOk) := by
  have ht : Transition config w (.fetched sig (.returns sendOk persistOk))
      (w.handleLogItem streams (futures.erase sig) logItem sendOk persistOk) := .fetched hp hmem hst
  have hhandover := handoverInv_transition hi.handover hi.first ht
  have hfirst := firstConfirmed_transition hi.first ht
  have hway := hi.merged hp
  cases sendOk with
  | false =>
      exact ⟨hhandover, hfirst, hi.cover.grow (Chain.le_refl _) rfl fun _ h => h, trivial⟩
  | true =>
      have hcover : ∀ phase persists, Cover config t0 ⟨w.chain, some logItem.signature,
          w.sent ++ [logItem], phase, w.delivered, persists⟩ :=
        fun _ _ => cover_of_fetched hway hst hok
      cases persistOk with
      | false => exact ⟨hhandover, hfirst, hcover _ _, trivial⟩
      | true =>
          refine ⟨hhandover, hfirst, hcover _ _, ?_⟩
          exact onItsWay_fetched hway hp hst (fun _ h => List.mem_append_left _ h)
            (fun _ => List.mem_append_right _ (List.mem_singleton_self logItem))

theorem keptInv_transition {e : Event} (hi : KeptInv config t0 w)
    (hok : OrderlyStep config w e) (ht : Transition config w e w') : KeptInv config t0 w' := by
  have hhandover := handoverInv_transition hi.handover hi.first ht
  have hfirst := firstConfirmed_transition hi.first ht
  have hcover := hi.cover
  have hsame : ∀ {phase : Phase} {delivered : List Signature},
      Cover config t0 ⟨w.chain, w.latestProcessedSignature, w.sent, phase, delivered, w.persists⟩ :=
    hcover.grow (Chain.le_refl _) rfl fun _ h => h
  cases ht with
  | confirmed hc => exact keptInv_confirm hi hc
  | connected => exact ⟨hhandover, hfirst, hsame, trivial⟩
  | subscribedGateway => exact ⟨hhandover, hfirst, hsame, trivial⟩
  | subscribedGasService => exact ⟨hhandover, hfirst, hsame, trivial⟩
  | firstItem => exact ⟨hhandover, hfirst, hsame, trivial⟩
  | firstSkipped => exact ⟨hhandover, hfirst, hsame, trivial⟩
  | firstFetched => exact ⟨hhandover, hfirst, hsame, trivial⟩
  | firstFailed => exact ⟨hhandover, hfirst, hsame, trivial⟩
  | batched hp hle hc hres hp' hopen =>
      have hcs := confirms_confirmAll hc
      refine ⟨hhandover, hfirst, ?_, ?_⟩
      · exact hcover.grow hcs.chain hcs.cursor
          (fun tx htx => List.mem_append_left _ (hcs.sent ▸ htx))
      · exact batchSent_of_batch hle (hi.first _ (by rw [hp]; rfl)) hc hres hopen hok
  | batchFailed hp hle hc =>
      have hcs := confirms_confirmAll hc
      exact ⟨hhandover, hfirst, hcover.grow hcs.chain hcs.cursor
        (fun tx htx => List.mem_append_left _ (hcs.sent ▸ htx)), trivial⟩
  | @firstSent streams t2 hp =>
      refine ⟨hhandover, hfirst, ?_, ?_⟩
      · exact hcover.grow (Chain.le_refl _) rfl (fun _ h => List.mem_append_left _ h)
      · intro a hdue
        have hstreams := hi.handover.2
        rw [hp] at hstreams
        cases hcover.sent_or_newer hdue with
        | inl hsent => exact Or.inl (List.mem_append_left _ hsent)
        | inr hnewer =>
            exact (sent_or_queued hstreams.1 (hi.batch hp) (hi.first t2 (by rw [hp]; rfl)) hp hok
              hdue.confirmed hdue.successful hdue.monitored hnewer).imp id Or.inr
  | @pulled streams streams' futures source item hp hnext herr =>
      refine ⟨hhandover, hfirst, hsame, ?_⟩
      intro a hdue
      refine (hi.merged hp a hdue).imp id ?_
      intro hpending
      rw [hp] at hpending
      cases hpending with
      | inl hflight => exact Or.inl (List.mem_append_left _ hflight)
      | inr hqueued =>
          cases pending_of_next hnext hqueued with
          | inl htaken => exact Or.inl (List.mem_append_right _ (by simp [htaken.1]))
          | inr hstays => exact Or.inr hstays
  | @skipped streams streams' futures source item hp hnext herr =>
      refine ⟨hhandover, hfirst, hsame, ?_⟩
      intro a hdue
      refine (hi.merged hp a hdue).imp id ?_
      intro hpending
      rw [hp] at hpending
      cases hpending with
      | inl hflight => exact Or.inl hflight
      | inr hqueued =>
          cases pending_of_next hnext hqueued with
          | inl htaken =>
              -- what is skipped has failed, and is not owed
              exact absurd (htaken.2 ▸ (TxStatus.err_eq_none a).mpr hdue.successful) herr
          | inr hstays => exact Or.inr hstays
  | fetched hp hmem hst => exact keptInv_handleLogItem hi hp hmem hst hok
  | fetchedFailed hp hmem hst =>
      refine ⟨hhandover, hfirst, hsame, ?_⟩
      exact onItsWay_fetched (hi.merged hp) hp hst (fun _ h => h)
        (fun hsucc => absurd hsucc (by simp [TxStatus.isSuccessful]))
  | reconnected => exact ⟨hhandover, hfirst, hsame, trivial⟩
  | returned => exact ⟨hhandover, hfirst, hsame, trivial⟩

/-! ## Any number of processes -/

/-- A forced signature may send the listener back, not forward. -/
def ForcedBack (fromStr : String → Option Signature) (w : World) (force : String) : Prop :=
  ∀ signature, fromStr force = some signature →
    signature ∈ w.chain.history.map TxStatus.signature ∧
      ∃ n, w.latestProcessedSignature = some n ∧ w.chain.position signature ≤ w.chain.position n

/-- What an orderly catch-up call is: its tasks work, and no late transaction is overtaken. -/
def OrderlyCatchUp (config : Config) (w : World) (env : ScanEnv) (k : Nat) : Prop :=
  (∀ m sig, env.fetchFails m sig = false) ∧ (∀ m sig, env.sendFails m sig = false) ∧
    ∀ i x, OvertakesLast config env w.latestProcessedSignature i x →
      ∀ st, LateGateway config env w.latestProcessedSignature (env.chainAt k) st →
        ¬ (env.chainAt k).position st.signature < (env.chainAt k).position x.signature

/-- What an orderly step of the listener is. -/
def Orderly (fromStr : String → Option Signature) (config : Config) (s : SolanaListener) :
    ListenerEvent → Prop
  | .start (some force) _ => force.isEmpty = true ∨ ForcedBack fromStr s.world force
  | .fetchedMissed env k _ => OrderlyCatchUp config s.world env k
  | .realtime e => OrderlyStep config s.world e
  | _ => True

/-- A phase between two streams. -/
def IdlePhase : Phase → Prop
  | .connecting | .returned _ => True
  | _ => False

theorem KeptInv.idle (hsent : SentConfirmed w) (hcover : Cover config t0 w)
    (hidle : IdlePhase w.phase) : KeptInv config t0 w := by
  cases hp : w.phase with
  | connecting =>
      refine ⟨⟨hsent, by rw [hp]; trivial⟩, ?_, hcover, by rw [Held, hp]; trivial⟩
      intro t2 ht2
      rw [hp] at ht2
      cases ht2
  | returned error =>
      refine ⟨⟨hsent, by rw [hp]; trivial⟩, ?_, hcover, by rw [Held, hp]; trivial⟩
      intro t2 ht2
      rw [hp] at ht2
      cases ht2
  | _ => exact absurd hidle (by rw [hp]; exact id)

/-- What the scans of a process leave untouched, and what they add. -/
theorem scanned_keeps {t2 : Option Signature} (hi : KeptInv config t0 w)
    (h : w.scanned config env (fetchBatchesInRange config env t1 t2 k) = some w') :
    SentConfirmed w' ∧ Cover config t0 w' := by
  obtain ⟨w₁, hle, hc, rfl⟩ := scanned_cases h
  have hi₁ := keptInv_confirmAll hi hc
  refine ⟨?_, hi₁.cover.grow (Chain.le_refl _) rfl (fun _ h => List.mem_append_left _ h)⟩
  intro tx htx
  cases List.mem_append.mp htx with
  | inl hold => exact hi₁.handover.1 tx hold
  | inr hnew =>
      obtain ⟨_, _, _, _, hin⟩ := confirmed_of_sent hnew
      exact Chain.mem_of_le (chainAt_le_of_batch hle hc) hin

theorem phase_scanned {scan : ScanState} (hp : w.phase = .connecting)
    (h : w.scanned config env scan = some w') : w'.phase = .connecting := by
  obtain ⟨w₁, -, hc, rfl⟩ := scanned_cases h
  have hphase : w₁.phase = .connecting := by
    refine confirmAll_invariant (P := fun w => w.phase = .connecting) ?_ _ hp hc
    intro a b st ha hab
    obtain ⟨chain, -, rfl⟩ := confirm_cases hab
    dsimp only
    rw [ha]
    rfl
  exact hphase

/-- **The signature an orderly catch-up call returns is safe to store.** -/
theorem cover_of_catchUp {phase : Phase} {delivered : List Signature}
    {persists : List PersistRecord} (hi : KeptInv config t0 w)
    (hok : OrderlyCatchUp config w env k)
    (h : w.scanned config env (SolanaListener.missed config w env k) = some w')
    (hret : (SolanaListener.missed config w env k).result = some (.ok (some n))) :
    Cover config t0 ⟨w'.chain, some n, w'.sent, phase, delivered, persists⟩ := by
  obtain ⟨-, hcover⟩ := scanned_keeps hi h
  have hD : w'.chain ≤ env.chainAt k :=
    Chain.le_trans (scanned_le h) (chainAt_mono env (requests_le k))
  have hon := newest_known h hret
  obtain ⟨w₁, hle, hc, rfl⟩ := scanned_cases h
  have hcs := confirms_confirmAll hc
  have hknown : Known w₁.chain w.latestProcessedSignature := hi.cover.onChain.mono hcs.chain
  refine ⟨fun m hm => Option.some.inj hm ▸ hon, ?_⟩
  intro m hm a hdue hpos
  obtain rfl := Option.some.inj hm
  dsimp only at hdue hpos ⊢ hD
  cases hcover.sent_or_newer hdue with
  | inl hsent => exact hsent
  | inr hnewer =>
      dsimp only at hnewer
      rw [hcs.cursor] at hnewer
      have hin := hdue.confirmed
      have hpos' : (env.chainAt k).position a.signature ≤ (env.chainAt k).position n := by
        rw [Chain.position_of_le hD (Chain.mem_signatures hin), Chain.position_of_le hD hon]
        exact hpos
      have hcases := (catchUp_sends hok.1 hok.2.1 hret (Chain.le_refl (env.chainAt k))
        (Chain.mem_of_le hD hin) hdue.successful hdue.monitored
        (newer_of_grown hD hin hknown hnewer)).2 n rfl hpos'
      cases hcases with
      | inl hsent => exact List.mem_append_right _ hsent
      | inr hlate =>
          obtain ⟨i, x, hx, hlt⟩ := overtaken_of_late hret (Chain.le_refl _) hlate hpos'
          exact absurd hlt (hok.2.2 i x hx a hlate)

/-- Going back keeps the contract. -/
theorem cover_of_forced {force : String} {signature : Signature} {phase : Phase}
    (hcover : Cover config t0 w) (hback : ForcedBack fromStr w force)
    (hforce : fromStr force = some signature) :
    Cover config t0 ⟨w.chain, some signature, w.sent, phase, w.delivered, w.persists⟩ := by
  obtain ⟨hon, n, hn, hle⟩ := hback signature hforce
  refine ⟨fun m hm => Option.some.inj hm ▸ hon, ?_⟩
  intro m hm a hdue hpos
  obtain rfl := Option.some.inj hm
  exact hcover.upTo n hn a hdue (Nat.le_trans hpos hle)

theorem keptInv_return {error : Report} (hi : KeptInv config t0 w) :
    KeptInv config t0 (w.return_ error) :=
  .idle hi.handover.1 (hi.cover.grow (Chain.le_refl _) rfl fun _ h => h) trivial

theorem keptInv_start {force : Option String} {persistOk : Bool}
    (hi : KeptInv config t0 s.world) (hp : s.world.phase = .connecting)
    (hok : Orderly fromStr config s (.start force persistOk)) :
    KeptInv config t0 (s.start fromStr force persistOk).world := by
  cases force with
  | none => exact hi
  | some force =>
      unfold SolanaListener.start
      dsimp only
      by_cases hempty : force.isEmpty = true
      · rw [if_pos hempty]
        exact hi
      · rw [if_neg hempty]
        cases hforce : fromStr force with
        | none => exact keptInv_return hi
        | some signature =>
            have hcover : ∀ phase, Cover config t0 ⟨s.world.chain, some signature, s.world.sent,
                phase, s.world.delivered, s.world.persists⟩ :=
              fun _ => cover_of_forced hi.cover (hok.resolve_left hempty) hforce
            unfold World.setLatestProcessedSignature
            cases persistOk with
            | true => exact .idle hi.handover.1 (hcover _) (by dsimp only; rw [hp]; trivial)
            | false => exact .idle hi.handover.1 (hcover _) trivial

theorem keptInv_proceed {persistOk : Bool} (hi : KeptInv config t0 w)
    (hp : w.phase = .connecting) (hok : OrderlyCatchUp config w env k)
    (h : w.scanned config env (SolanaListener.missed config w env k) = some w')
    (hret : (SolanaListener.missed config w env k).result = some (.ok newest)) :
    KeptInv config t0 (SolanaListener.proceed w' newest persistOk).world := by
  obtain ⟨hsent, hcover⟩ := scanned_keeps hi h
  have hidle : IdlePhase w'.phase := by
    rw [phase_scanned hp h]
    trivial
  cases newest with
  | none => exact .idle hsent hcover hidle
  | some n =>
      have hstored : ∀ phase, Cover config t0 ⟨w'.chain, some n, w'.sent, phase, w'.delivered,
          w'.persists⟩ := fun _ => cover_of_catchUp hi hok h hret
      simp only [SolanaListener.proceed, World.setLatestProcessedSignature]
      cases persistOk with
      | true => exact .idle hsent (hstored _) hidle
      | false => exact .idle hsent (hstored _) trivial

theorem keptInv_move {e : ListenerEvent} (hi : KeptInv config t0 s.world)
    (hok : Orderly fromStr config s e) (hm : ListenerMove fromStr config s e s') :
    KeptInv config t0 s'.world := by
  cases hm with
  | confirmed hc => exact keptInv_confirm hi hc
  | started hstage hphase => exact keptInv_start hi hphase hok
  | fetchedMissed hstage hphase hscan hres => exact keptInv_proceed hi hphase hok hscan hres
  | missedFailed hstage hscan =>
      obtain ⟨hsent, hcover⟩ := scanned_keeps hi hscan
      exact .idle hsent (hcover.grow (Chain.le_refl _) rfl fun _ h => h) trivial
  | realtime hstage hstep => exact keptInv_transition hi hok (step_cases hstep)
  | killed => exact keptInv_return hi
  | @killedScanning env k scan w error hcurrent hscan =>
      -- whichever of the two scans it was
      have hkeeps : SentConfirmed w ∧ Cover config t0 w := by
        unfold SolanaListener.currentScan at hcurrent
        split at hcurrent
        · rw [← Option.some.inj hcurrent] at hscan
          exact scanned_keeps hi hscan
        · rw [← Option.some.inj hcurrent] at hscan
          exact scanned_keeps hi hscan
        · cases hcurrent
      exact .idle hkeeps.1 (hkeeps.2.grow (Chain.le_refl _) rfl fun _ h => h) trivial
  | restarted =>
      exact .idle hi.handover.1 (hi.cover.grow (Chain.le_refl _) rfl fun _ h => h) trivial

theorem keptInv_init (hinit : (resumed fromStr config t0).init s) :
    KeptInv config t0 s.world := by
  obtain ⟨⟨-, hphase, hsent, -⟩, hcursor, hon⟩ := hinit
  refine .idle ?_ ⟨?_, ?_⟩ (by rw [hphase]; trivial)
  · intro tx htx
    rw [hsent] at htx
    cases htx
  · intro n hn
    exact hon n (hcursor ▸ hn)
  · -- what is owed is newer than the signature the process starts from
    intro n hn a hdue hpos
    have hnewer := hdue.newer
    rw [← hcursor, hn] at hnewer
    exact absurd (hnewer (hon n (hcursor ▸ hn))) (Nat.not_lt.mpr hpos)

theorem keptInv_reach (h : Reach (resumed fromStr config t0) (Orderly fromStr config) s) :
    KeptInv config t0 s.world := by
  refine Reach.invariant (P := fun s => KeptInv config t0 s.world) ?_ ?_ h
  · exact fun s hinit => keptInv_init hinit
  · intro s e s' _ hi hok hs
    exact keptInv_move hi hok (listener_cases hs)

/-- What a maintainer may rely on at any moment. -/
structure NothingLost (config : Config) (t0 : Option Signature) (w : World) : Prop where
  /-- What is owed up to the stored signature was sent. -/
  upTo : ∀ n, w.latestProcessedSignature = some n → ∀ st, Due config t0 w.chain st →
    w.chain.position st.signature ≤ w.chain.position n → st.tx ∈ w.sent
  /-- In the merged stream, the rest is in a stream or in a fetch. -/
  onItsWay : ∀ streams futures, w.phase = .merged streams futures → ∀ st,
    Due config t0 w.chain st → st.tx ∈ w.sent ∨ Pending w.phase st

/--
**Nothing is lost over crashes**, in any run whose steps are orderly: however often the
process dies, reconnects or is restarted, in a scan or between a send and the storing of
its signature, all that is owed up to the stored signature was sent.
-/
theorem nothing_lost (fromStr : String → Option Signature) (config : Config)
    (t0 : Option Signature) (s : SolanaListener)
    (h : Reach (resumed fromStr config t0) (Orderly fromStr config) s) :
    NothingLost config t0 s.world :=
  ⟨(keptInv_reach h).cover.upTo, fun _ _ hp => (keptInv_reach h).merged hp⟩

/-- On a chain that does not grow, a catch-up call is orderly. -/
theorem orderlyCatchUp_static (config : Config) (w : World) (chain : Chain) (k : Nat) :
    OrderlyCatchUp config w (.static chain) k :=
  ⟨fun _ _ => rfl, fun _ _ => rfl, fun _ _ _ _ hlate => absurd hlate.confirmed hlate.late⟩

theorem crashAndRestart_orderly (fromStr : String → Option Signature) (config : Config) :
    ∀ e, e ∈ crashAndRestart → ∀ s, Orderly fromStr config s e := by
  intro e he s
  simp only [crashAndRestart, List.mem_cons, List.not_mem_nil, or_false] at he
  obtain rfl | rfl | rfl | rfl | rfl | rfl | rfl := he
  case inr.inr.inl => exact orderlyCatchUp_static config s.world _ 3
  all_goals trivial

theorem nothing_lost_crash : ∃ s, replay (listener (fun _ => none) ⟨.filled 1, .filled 2⟩)
      always freshListener crashAndRestart = some s ∧
    s.world.latestProcessedSignature = some (.filled 1) ∧
      NothingLost ⟨.filled 1, .filled 2⟩ none s.world := by
  have hrun : (replay (listener (fun _ => none) ⟨.filled 1, .filled 2⟩) always freshListener
      crashAndRestart).map (fun s => s.world.latestProcessedSignature) =
        some (some (.filled 1)) := by decide +kernel
  obtain ⟨s, hs, hcursor⟩ := Option.map_eq_some_iff.mp hrun
  exact ⟨s, hs, hcursor, nothing_lost _ _ none s
    (Reach.of_replay_always (Reach.init (resumed_init _ _)) (crashAndRestart_orderly _ _) hs)⟩

/--
**A restart makes good what a crash cut off.** After an orderly run, a catch-up call whose
fetches and sends work and that returns has sent everything owed that was confirmed before it began,
be it that the crash took it out of a stream or out of a fetch.
-/
theorem caught_up (fromStr : String → Option Signature) (config : Config)
    (t0 : Option Signature) (s s' : SolanaListener) (env : ScanEnv) (k : Nat) (persistOk : Bool)
    (h : Reach (resumed fromStr config t0) (Orderly fromStr config) s)
    (hfetch : ∀ m sig, env.fetchFails m sig = false)
    (hsend : ∀ m sig, env.sendFails m sig = false)
    (hs : (resumed fromStr config t0).step s (.fetchedMissed env k persistOk) = some s')
    (hret : s'.stage = .processingRealtimeLogs) :
    ∀ st, Due config t0 s.world.chain st → st.tx ∈ s'.world.sent := by
  intro st hdue
  have hi := keptInv_reach h
  generalize hcall : ListenerEvent.fetchedMissed env k persistOk = call at hs
  cases listener_cases hs with
  | @fetchedMissed env' k' persistOk' w latest hstage hphase hscan hres =>
      cases hcall
      -- the catch-up call sends what is newer than the stored signature
      have hsent : st.tx ∈ w.sent := by
        obtain ⟨w₁, hle, hc, rfl⟩ := scanned_cases hscan
        have hcs := confirms_confirmAll hc
        cases hi.cover.sent_or_newer hdue with
        | inl hold => exact List.mem_append_left _ (hcs.sent ▸ hold)
        | inr hnewer =>
            have hstart := Chain.mem_of_le hle hdue.confirmed
            have hD : s.world.chain ≤ env.chainAt k :=
              Chain.le_trans hle (chainAt_mono env (Nat.zero_le k))
            exact List.mem_append_right _ ((catchUp_sends hfetch hsend hres
              (Chain.le_refl _) (Chain.mem_of_le hD hdue.confirmed) hdue.successful hdue.monitored
              (newer_of_grown hD hdue.confirmed hi.cover.onChain hnewer)).1 hstart)
      unfold SolanaListener.proceed World.setLatestProcessedSignature
      cases latest with
      | none => exact hsent
      | some n => cases persistOk <;> exact hsent
  | missedFailed hstage =>
      rw [hstage] at hret
      cases hret
  | confirmed => cases hcall
  | started => cases hcall
  | realtime => cases hcall
  | killed => cases hcall
  | killedScanning => cases hcall
  | restarted => cases hcall

/-- The second process fetches what was confirmed while none was running. -/
theorem caught_up_crash : ∃ s s', replay (listener (fun _ => none) ⟨.filled 1, .filled 2⟩)
      always freshListener crashAndRestart = some s ∧
    (resumed (fun _ => none) ⟨.filled 1, .filled 2⟩ none).step s
      (.fetchedMissed (.static ⟨[gatewayTx 1, gasServiceTx 2], by decide, by decide⟩) 3 true) =
        some s' ∧
    (gasServiceTx 2).tx ∈ s'.world.sent := by
  have hrun : ((replay (listener (fun _ => none) ⟨.filled 1, .filled 2⟩) always freshListener
      crashAndRestart).bind fun s => ((listener (fun _ => none) ⟨.filled 1, .filled 2⟩).step s
        (.fetchedMissed (.static ⟨[gatewayTx 1, gasServiceTx 2], by decide, by decide⟩) 3
          true)).map fun s' => decide (s'.stage = .processingRealtimeLogs ∧
            gasServiceTx 2 ∈ s.world.chain.history)) = some true := by decide +kernel
  obtain ⟨s, hs, hstep⟩ := Option.bind_eq_some_iff.mp hrun
  obtain ⟨s', hs', hchecks⟩ := Option.map_eq_some_iff.mp hstep
  obtain ⟨hstage, hconfirmed⟩ := of_decide_eq_true hchecks
  refine ⟨s, s', hs, hs', caught_up _ _ none s s' _ 3 true (Reach.of_replay_always
    (Reach.init (resumed_init _ _)) (crashAndRestart_orderly _ _) hs) (fun _ _ => rfl) (fun _ _ => rfl)
      hs' hstage (gasServiceTx 2) ⟨hconfirmed, rfl, by decide, trivial⟩⟩

end AxelarRelayer.Proof
