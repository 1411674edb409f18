import AxelarRelayer.Listener.SolanaListener
import AxelarRelayer.Proof.CatchUp
import AxelarRelayer.Proof.Handover

/-!
# Runs of the listener, over any number of processes

`listener_cases` lists what an event can do; the realtime steps go on to `Transition`.
The invariant says where the signatures that wait in a process come from: a stream
yields what mentions one of the two monitored addresses, and a page lists what mentions
the program it is asked for. So `sent_due`: whatever fails, dies and starts again,
nothing else is ever sent.
-/

namespace AxelarRelayer.Proof

open AxelarRelayer Listener Runs

variable {config : Config} {fromStr : String → Option Signature} {s s' : SolanaListener}
  {w w' : World} {c d : Chain} {env : ScanEnv} {sig n : Signature} {t0 : Option Signature}
  {st : TxStatus} {earlier sent : List SolanaTransaction}

/-! ## The step, once -/

theorem scanned_cases {scan : ScanState} (h : w.scanned config env scan = some w') :
    ∃ w₁, w.chain ≤ env.chainAt 0 ∧ confirmedDuring config w env scan = some w₁ ∧
      w' = { w₁ with sent := w₁.sent ++ scan.sent } := by
  unfold World.scanned at h
  split at h
  · rename_i hle
    obtain ⟨w₁, hc, rfl⟩ := Option.map_eq_some_iff.mp h
    exact ⟨w₁, hle, hc, rfl⟩
  · cases h

/-- What one event does to the listener. -/
inductive ListenerMove (fromStr : String → Option Signature) (config : Config)
    (s : SolanaListener) : ListenerEvent → SolanaListener → Prop where
  | confirmed {st : TxStatus} {w : World} : s.world.confirm config st = some w →
      ListenerMove fromStr config s (.confirm st) { s with world := w }
  | started {force : Option String} {persistOk : Bool} : s.stage = .starting →
      s.world.phase = .connecting →
      ListenerMove fromStr config s (.start force persistOk) (s.start fromStr force persistOk)
  | fetchedMissed {env : ScanEnv} {k : Nat} {persistOk : Bool} {w : World}
      {latestSignature : Option Signature} : s.stage = .fetchingMissedSignatures →
      s.world.phase = .connecting →
      s.world.scanned config env (SolanaListener.missed config s.world env k) = some w →
      (SolanaListener.missed config s.world env k).result = some (.ok latestSignature) →
      ListenerMove fromStr config s (.fetchedMissed env k persistOk)
        (SolanaListener.proceed w latestSignature persistOk)
  | missedFailed {env : ScanEnv} {k : Nat} {persistOk : Bool} {w : World} {error : Report} :
      s.stage = .fetchingMissedSignatures →
      s.world.scanned config env (SolanaListener.missed config s.world env k) = some w →
      ListenerMove fromStr config s (.fetchedMissed env k persistOk)
        { s with world := w.return_ error }
  | realtime {e : Event} {w : World} : s.stage = .processingRealtimeLogs →
      s.world.step config e = some w →
      ListenerMove fromStr config s (.realtime e) { s with world := w }
  | killed {error : Report} :
      ListenerMove fromStr config s .killed { s with world := s.world.return_ error }
  | killedScanning {env : ScanEnv} {k : Nat} {scan : ScanState} {w : World} {error : Report} :
      s.currentScan config env k = some scan → s.world.scanned config env scan = some w →
      ListenerMove fromStr config s (.killedScanning env k) { s with world := w.return_ error }
  | restarted :
      ListenerMove fromStr config s .restart
        ⟨.starting, { s.world with phase := .connecting, delivered := [], persists := [] }⟩

theorem listener_cases {e : ListenerEvent} (h : (listener fromStr config).step s e = some s') :
    ListenerMove fromStr config s e s' := by
  change SolanaListener.step fromStr config s e = some s' at h
  unfold SolanaListener.step at h
  split at h
  case h_1 =>
    obtain ⟨w, hw, rfl⟩ := Option.map_eq_some_iff.mp h
    exact .confirmed hw
  case h_2 hstage hphase =>
    rw [← Option.some.inj h]
    exact .started hstage hphase
  case h_3 hstage hphase =>
    obtain ⟨w, hw, hres⟩ := Option.bind_eq_some_iff.mp h
    split at hres
    · rename_i hok
      rw [← Option.some.inj hres]
      exact .fetchedMissed hstage hphase hw hok
    · rw [← Option.some.inj hres]
      exact .missedFailed hstage hw
    · cases hres
  case h_4 hstage =>
    obtain ⟨w, hw, rfl⟩ := Option.map_eq_some_iff.mp h
    exact .realtime hstage hw
  case h_5 => cases h
  case h_6 =>
    rw [← Option.some.inj h]
    exact .killed
  case h_7 =>
    obtain ⟨scan, hscan, hres⟩ := Option.bind_eq_some_iff.mp h
    split at hres
    · obtain ⟨w, hw, rfl⟩ := Option.map_eq_some_iff.mp hres
      exact .killedScanning hscan hw
    · cases hres
  case h_8 =>
    rw [← Option.some.inj h]
    exact .restarted
  case h_9 => cases h

/-! ## What is owed -/

/-- What the listener is for: what it owes, if it starts from `t0`. -/
structure Due (config : Config) (t0 : Option Signature) (c : Chain) (st : TxStatus) : Prop where
  confirmed : st ∈ c.history
  successful : st.isSuccessful = true
  monitored : config.monitors st = true
  newer : c.Newer t0 st

/-- What is owed and was confirmed earlier was owed earlier. -/
theorem Due.of_le (h : Due config t0 d st) (hle : c ≤ d) (hst : st ∈ c.history) :
    Due config t0 c st :=
  ⟨hst, h.successful, h.monitored, newer_of_le hle hst h.newer⟩

/-- The chain has the signature the listener starts from. -/
def Known (c : Chain) (t0 : Option Signature) : Prop :=
  ∀ u, t0 = some u → u ∈ c.history.map TxStatus.signature

theorem Known.mono (h : Known c t0) (hle : c ≤ d) : Known d t0 :=
  fun u hu => (List.IsPrefix.map TxStatus.signature hle).subset (h u hu)

/-- A bound that the chain knew keeps its meaning. -/
theorem newer_of_grown (hle : c ≤ d) (hst : st ∈ c.history) (hknown : Known c t0)
    (hnewer : c.Newer t0 st) : d.Newer t0 st := by
  cases t0 with
  | none => trivial
  | some u => exact (Paging.newer_grow hle hst (hknown u rfl)).mpr hnewer

theorem Due.mono (h : Due config t0 c st) (hle : c ≤ d) (hknown : Known c t0) :
    Due config t0 d st :=
  ⟨Chain.mem_of_le hle h.confirmed, h.successful, h.monitored,
    newer_of_grown hle h.confirmed hknown h.newer⟩

/-- What is confirmed now is newer than anything known. -/
theorem newer_of_confirm (h : c.confirm? st = some d) (hknown : Known c t0) : d.Newer t0 st := by
  cases t0 with
  | none => trivial
  | some u =>
      intro _
      have hu := hknown u rfl
      obtain ⟨a, ha, rfl⟩ := List.mem_map.mp hu
      have hlt := Nat.lt_of_lt_of_le (Chain.position_lt_length ha) (Chain.length_le_position h)
      rw [← Chain.position_of_le (Chain.confirm?_le h) hu] at hlt
      exact hlt

/-- The stored signature has not gone back behind `t0`. -/
def AtOrAfter (c : Chain) (t0 cursor : Option Signature) : Prop :=
  ∀ u, t0 = some u → u ∈ c.history.map TxStatus.signature ∧
    ∃ n, cursor = some n ∧ n ∈ c.history.map TxStatus.signature ∧ c.position u ≤ c.position n

section AtOrAfter

variable {cursor : Option Signature}

theorem AtOrAfter.known (h : AtOrAfter c t0 cursor) : Known c t0 := fun u hu => (h u hu).1

theorem AtOrAfter.mono (h : AtOrAfter c t0 cursor) (hle : c ≤ d) : AtOrAfter d t0 cursor := by
  intro u hu
  obtain ⟨hin, n, hn, hon, hpos⟩ := h u hu
  have hgrow := fun {m} hm => (List.IsPrefix.map TxStatus.signature hle).subset (a := m) hm
  refine ⟨hgrow hin, n, hn, hgrow hon, ?_⟩
  rw [Chain.position_of_le hle hin, Chain.position_of_le hle hon]
  exact hpos

/-- What is newer than the stored signature is newer than `t0`. -/
theorem AtOrAfter.newer (h : AtOrAfter c t0 cursor) (hnewer : c.Newer cursor st) :
    c.Newer t0 st := by
  cases t0 with
  | none => trivial
  | some u =>
      obtain ⟨-, n, rfl, hon, hpos⟩ := h u rfl
      exact fun _ => Nat.lt_of_le_of_lt hpos (hnewer hon)

/-- A signature newer than `t0` may be stored. -/
theorem atOrAfter_of_newer (hknown : Known c t0) (hst : st ∈ c.history)
    (hnewer : c.Newer t0 st) : AtOrAfter c t0 (some st.signature) := by
  rintro u rfl
  have hu := hknown u rfl
  exact ⟨hu, _, rfl, Chain.mem_signatures hst, Nat.le_of_lt (hnewer hu)⟩

end AtOrAfter

/-! ## Where the waiting signatures come from -/

/-- The signature names a confirmed transaction of a monitored address, newer than `t0`. -/
def Watched (config : Config) (t0 : Option Signature) (c : Chain) (sig : Signature) : Prop :=
  ∃ st, st ∈ c.history ∧ st.signature = sig ∧ config.monitors st = true ∧ c.Newer t0 st

theorem Watched.mono (h : Watched config t0 c sig) (hle : c ≤ d) (hknown : Known c t0) :
    Watched config t0 d sig := by
  obtain ⟨st, hst, hsig, hmon, hnewer⟩ := h
  exact ⟨st, Chain.mem_of_le hle hst, hsig, hmon, newer_of_grown hle hst hknown hnewer⟩

/-- If it is fetched and was successful, it is owed. -/
theorem Watched.due {tx : SolanaTransaction} (h : Watched config t0 c sig)
    (hst : c.status? sig = some (.successful tx)) : Due config t0 c (.successful tx) := by
  obtain ⟨st, hin, hname, hmon, hnewer⟩ := h
  obtain ⟨htx, hsig⟩ := Chain.mem_of_status? hst
  obtain rfl := Chain.eq_of_signature_eq htx hin (hsig.trans hname.symm)
  exact ⟨htx, rfl, hmon, hnewer⟩

/-- A signature waits in the process: in a stream, or on its way from a stream to the channel. -/
def Waits (phase : Phase) (sig : Signature) : Prop :=
  sig ∈ inFlight phase ∨ ∃ x, x ∈ phase.queued ∧ x.signature = sig

/-- A confirmation puts nothing in a stream but the transaction, if it is monitored. -/
theorem waits_notify {phase : Phase} (h : Waits (phase.notify config st) sig) :
    Waits phase sig ∨ st.signature = sig ∧ config.monitors st = true := by
  cases h with
  | inl hflight =>
      rw [inFlight_notify] at hflight
      exact Or.inl (Or.inl hflight)
  | inr hqueued =>
      obtain ⟨x, hx, hsig⟩ := hqueued
      have hsub : ∀ {sub : Subscription} {address : Pubkey}, x ∈ (sub.notify address st).queue →
          x ∈ sub.queue ∨ x = notification st ∧ st.mentions address = true := by
        intro sub address hmem
        unfold Subscription.notify at hmem
        split at hmem
        · rename_i hment
          cases List.mem_append.mp hmem with
          | inl hold => exact Or.inl hold
          | inr hnew => exact Or.inr ⟨List.mem_singleton.mp hnew, hment⟩
        · exact Or.inl hmem
      have hstreams : ∀ {streams : Streams}, x ∈ (streams.notify config st).queued →
          x ∈ streams.queued ∨ x = notification st ∧ config.monitors st = true := by
        intro streams hmem
        cases List.mem_append.mp hmem with
        | inl hgateway =>
            refine (hsub hgateway).imp (fun hold => List.mem_append_left _ hold) ?_
            exact fun hnew => ⟨hnew.1, by simp [Config.monitors, hnew.2]⟩
        | inr hgas =>
            refine (hsub hgas).imp (fun hold => List.mem_append_right _ hold) ?_
            exact fun hnew => ⟨hnew.1, by simp [Config.monitors, hnew.2]⟩
      have hphase : x ∈ phase.queued ∨ x = notification st ∧ config.monitors st = true := by
        cases phase with
        | subscribingGasService gateway =>
            refine (hsub hx).imp id ?_
            exact fun hnew => ⟨hnew.1, by simp [Config.monitors, hnew.2]⟩
        | awaitingFirst streams => exact hstreams hx
        | fetchingFirst streams sig => exact hstreams hx
        | fetchingMissed streams t2 => exact hstreams hx
        | sendingFirst streams t2 => exact hstreams hx
        | merged streams futures => exact hstreams hx
        | connecting => exact Or.inl hx
        | subscribingGateway => exact Or.inl hx
        | returned error => exact Or.inl hx
      cases hphase with
      | inl hold => exact Or.inl (Or.inr ⟨x, hold, hsig⟩)
      | inr hnew => exact Or.inr ⟨by rw [← hsig, hnew.1]; rfl, hnew.2⟩

/-- What is left in the streams after an item was taken was there before. -/
theorem queued_of_next {streams streams' : Streams} {source : Source} {item x : RpcLogsResponse}
    (h : streams.next? source = some (item, streams')) (hx : x ∈ streams'.queued) :
    x ∈ streams.queued := by
  cases source with
  | gateway =>
      simp only [Streams.next?] at h
      split at h
      · cases h
      · rename_i hq
        simp only [Option.some.injEq, Prod.mk.injEq] at h
        obtain ⟨-, rfl⟩ := h
        simp only [Streams.queued, hq, List.mem_append, List.mem_cons] at hx ⊢
        exact hx.imp Or.inr id
  | gasService =>
      simp only [Streams.next?] at h
      split at h
      · cases h
      · rename_i hq
        simp only [Option.some.injEq, Prod.mk.injEq] at h
        obtain ⟨-, rfl⟩ := h
        simp only [Streams.queued, hq, List.mem_append, List.mem_cons] at hx ⊢
        exact hx.imp id Or.inr

/-- What a phase holds comes from the phase before it, if its fetches and its streams do. -/
theorem Waits.of_before {phase phase' : Phase}
    (hflight : ∀ sig, sig ∈ inFlight phase' → Waits phase sig)
    (hqueued : ∀ x, x ∈ phase'.queued → x ∈ phase.queued) (h : Waits phase' sig) :
    Waits phase sig := by
  cases h with
  | inl hin => exact hflight sig hin
  | inr hin =>
      obtain ⟨x, hx, hsig⟩ := hin
      exact Or.inr ⟨x, hqueued x hx, hsig⟩

/-! ## One process -/

/-- What was sent on top of `earlier` is owed. -/
def SentSince (config : Config) (t0 : Option Signature) (earlier : List SolanaTransaction)
    (c : Chain) (sent : List SolanaTransaction) : Prop :=
  ∃ later, sent = earlier ++ later ∧ ∀ tx, tx ∈ later → Due config t0 c (.successful tx)

theorem SentSince.mono (h : SentSince config t0 earlier c sent) (hle : c ≤ d)
    (hknown : Known c t0) : SentSince config t0 earlier d sent := by
  obtain ⟨later, heq, hdue⟩ := h
  exact ⟨later, heq, fun tx htx => (hdue tx htx).mono hle hknown⟩

theorem SentSince.append {more : List SolanaTransaction} (h : SentSince config t0 earlier c sent)
    (hmore : ∀ tx, tx ∈ more → Due config t0 c (.successful tx)) :
    SentSince config t0 earlier c (sent ++ more) := by
  obtain ⟨later, rfl, hdue⟩ := h
  refine ⟨later ++ more, List.append_assoc .., ?_⟩
  intro tx htx
  cases List.mem_append.mp htx with
  | inl hold => exact hdue tx hold
  | inr hnew => exact hmore tx hnew

/-- What a process has sent, what it still holds and what it has stored. -/
structure SentInv (config : Config) (t0 : Option Signature) (earlier : List SolanaTransaction)
    (w : World) : Prop where
  cursor : AtOrAfter w.chain t0 w.latestProcessedSignature
  sent : SentSince config t0 earlier w.chain w.sent
  waits : ∀ sig, Waits w.phase sig → Watched config t0 w.chain sig
  first : FirstConfirmed w

/-- A phase in which nothing waits. -/
def NothingWaits (phase : Phase) : Prop :=
  inFlight phase = [] ∧ phase.queued = [] ∧ firstItem? phase = none

theorem SentInv.quiet (hcursor : AtOrAfter w.chain t0 w.latestProcessedSignature)
    (hsent : SentSince config t0 earlier w.chain w.sent) (hnothing : NothingWaits w.phase) :
    SentInv config t0 earlier w where
  cursor := hcursor
  sent := hsent
  waits sig h := by
    cases h with
    | inl hin =>
        rw [hnothing.1] at hin
        cases hin
    | inr hin =>
        obtain ⟨x, hx, -⟩ := hin
        rw [hnothing.2.1] at hx
        cases hx
  first t2 ht2 := absurd (hnothing.2.2.symm.trans ht2) (by simp)

/-- A step that neither sends nor stores, and after which nothing waits. -/
theorem SentInv.idle {phase : Phase} {delivered : List Signature} {persists : List PersistRecord}
    (hi : SentInv config t0 earlier w) (hnothing : NothingWaits phase) :
    SentInv config t0 earlier
      ⟨w.chain, w.latestProcessedSignature, w.sent, phase, delivered, persists⟩ :=
  .quiet hi.cursor hi.sent hnothing

/-- A step that neither sends nor stores, and after which nothing waits that did not before. -/
theorem SentInv.setPhase {phase : Phase} (hi : SentInv config t0 earlier w)
    (hwaits : ∀ sig, Waits phase sig → Waits w.phase sig)
    (hfirst : FirstConfirmed { w with phase := phase }) :
    SentInv config t0 earlier { w with phase := phase } :=
  ⟨hi.cursor, hi.sent, fun sig hsig => hi.waits sig (hwaits sig hsig), hfirst⟩

/-- A scan sends what a page listed: entries of one of the two programs, above the cursor. -/
theorem due_of_scan {t1 t2 : Option Signature} {k : Nat} {tx : SolanaTransaction}
    (hcursor : AtOrAfter c t0 t1) (hle : c ≤ env.chainAt 0)
    (h : tx ∈ (fetchBatchesInRange config env t1 t2 k).sent) :
    Due config t0 (env.chainAt (fetchBatchesInRange config env t1 t2 k).requests)
      (.successful tx) := by
  obtain ⟨j, program, hl, hreq, -⟩ := confirmed_of_sent h
  obtain ⟨hin, hment, -, hnewer⟩ := mem_pageOf hl.shown
  rw [scan_requests hl.running] at hin hnewer
  have hsince := hcursor.mono (Chain.le_trans hle (chainAt_mono env (Nat.zero_le j)))
  have hmon : config.monitors (.successful tx) = true := by
    obtain ⟨rest, hcur⟩ := hl.current
    cases progress_scan hl.running (Chain.le_refl (env.chainAt j)) with
    | first htodo =>
        obtain ⟨rfl, -⟩ := List.cons.inj ((htodo j (Nat.le_refl j)).symm.trans hcur)
        simp [Config.monitors, hment]
    | second htodo =>
        obtain ⟨rfl, -⟩ := List.cons.inj (htodo.symm.trans hcur)
        simp [Config.monitors, hment]
    | done htodo => exact absurd (htodo.symm.trans hcur) (by simp)
  have hdue : Due config t0 (env.chainAt j) (.successful tx) :=
    ⟨hin, rfl, hmon, hsince.newer hnewer⟩
  exact hdue.mono (chainAt_mono env hreq) hsince.known

theorem sentInv_confirm (hi : SentInv config t0 earlier w) (h : w.confirm config st = some w') :
    SentInv config t0 earlier w' := by
  have hfirst := firstConfirmed_transition hi.first (.confirmed h)
  obtain ⟨chain, hc, rfl⟩ := confirm_cases h
  have hle := Chain.confirm?_le hc
  have hknown := hi.cursor.known
  refine ⟨hi.cursor.mono hle, hi.sent.mono hle hknown, ?_, hfirst⟩
  intro sig hwaits
  cases waits_notify hwaits with
  | inl hold => exact (hi.waits sig hold).mono hle hknown
  | inr hnew =>
      refine ⟨st, ?_, hnew.1, hnew.2, newer_of_confirm hc hknown⟩
      rw [Chain.confirm?_history hc]
      exact List.mem_append_right _ (List.mem_singleton_self st)

/-- What a scan has sent by the time the chain is that of its last request. -/
theorem sentInv_scanned {t2 : Option Signature} {k : Nat} (hi : SentInv config t0 earlier w)
    (h : w.scanned config env
      (fetchBatchesInRange config env w.latestProcessedSignature t2 k) = some w') :
    SentInv config t0 earlier w' := by
  obtain ⟨w₁, hle, hc, rfl⟩ := scanned_cases h
  have hi₁ := confirmAll_invariant (fun _ _ _ ha hab => sentInv_confirm ha hab) _ hi hc
  refine ⟨hi₁.cursor, hi₁.sent.append ?_, hi₁.waits, hi₁.first⟩
  intro tx htx
  exact (due_of_scan hi.cursor hle htx).mono (chainAt_le_of_batch hle hc)
    (hi.cursor.known.mono (Chain.le_trans hle (chainAt_mono env (Nat.zero_le _))))

/-- The batch call of the realtime scanner is such a scan. -/
theorem scanned_of_batch {t2 : SolanaTransaction} {k : Nat} {w₁ : World}
    (hle : w.chain ≤ env.chainAt 0)
    (hc : confirmedDuring config w env (missedScan config w env t2 k) = some w₁) :
    w.scanned config env (missedScan config w env t2 k) =
      some { w₁ with sent := w₁.sent ++ (missedScan config w env t2 k).sent } := by
  unfold World.scanned
  rw [if_pos hle]
  exact congrArg (Option.map _) hc

theorem sentInv_transition {e : Event} (hi : SentInv config t0 earlier w)
    (ht : Transition config w e w') : SentInv config t0 earlier w' := by
  have hfirst := firstConfirmed_transition hi.first ht
  cases ht with
  | confirmed hc => exact sentInv_confirm hi hc
  | connected => exact hi.idle ⟨rfl, rfl, rfl⟩
  | subscribedGateway => exact hi.idle ⟨rfl, rfl, rfl⟩
  | subscribedGasService hp =>
      refine hi.setPhase (fun sig => Waits.of_before ?_ ?_) hfirst <;> rw [hp]
      · exact fun _ h => Or.inl h
      · -- the stream of the gas service is still empty
        exact fun x hx => (List.mem_append.mp hx).resolve_right List.not_mem_nil
  | firstItem hp hnext herr =>
      refine hi.setPhase (fun sig => Waits.of_before ?_ ?_) hfirst <;> rw [hp]
      · intro sig hsig
        rw [List.mem_singleton.mp hsig]
        exact Or.inr ⟨_, item_mem_queued hnext, rfl⟩
      · exact fun x hx => queued_of_next hnext hx
  | firstSkipped hp hnext herr =>
      refine hi.setPhase (fun sig => Waits.of_before ?_ ?_) hfirst <;> rw [hp]
      · exact fun _ h => Or.inl h
      · exact fun x hx => queued_of_next hnext hx
  | firstFetched hp hst =>
      refine hi.setPhase (fun sig => Waits.of_before ?_ ?_) hfirst <;> rw [hp]
      · intro sig hsig
        have hname := (Chain.mem_of_status? hst).2
        rw [TxStatus.signature_successful] at hname
        rw [List.mem_singleton.mp hsig, hname]
        exact Or.inl (List.mem_singleton_self _)
      · exact fun x hx => hx
  | firstFailed hp hst =>
      refine hi.setPhase (fun sig => Waits.of_before ?_ ?_) hfirst <;> rw [hp]
      · exact fun _ h => absurd h List.not_mem_nil
      · exact fun x hx => hx
  | batched hp hle hc hres hp' =>
      have hi₁ := sentInv_scanned hi (scanned_of_batch hle hc)
      -- the first item is still the one the batch was asked for
      have hsame := (confirms_confirmAll hc).first
      rw [hp, hp'] at hsame
      obtain rfl := Option.some.inj hsame
      refine hi₁.setPhase (fun sig => Waits.of_before ?_ ?_) hfirst <;> dsimp only <;> rw [hp']
      · exact fun _ h => Or.inl h
      · exact fun x hx => hx
  | batchFailed hp hle hc =>
      exact (sentInv_scanned hi (scanned_of_batch hle hc)).idle ⟨rfl, rfl, rfl⟩
  | @firstSent streams t2 hp =>
      have hwatched := hi.waits t2.signature (by rw [hp]; exact Or.inl (List.mem_singleton_self _))
      have hdue := hwatched.due (Chain.status?_of_mem (hi.first t2 (by rw [hp]; rfl)))
      refine ⟨hi.cursor, hi.sent.append fun tx htx => List.mem_singleton.mp htx ▸ hdue, ?_, hfirst⟩
      intro sig hsig
      refine hi.waits sig (hsig.of_before ?_ ?_) <;> rw [hp]
      · exact fun _ h => absurd h List.not_mem_nil
      · exact fun x hx => hx
  | pulled hp hnext herr =>
      refine hi.setPhase (fun sig => Waits.of_before ?_ ?_) hfirst <;> rw [hp]
      · intro sig hsig
        cases List.mem_append.mp hsig with
        | inl hold => exact Or.inl hold
        | inr hnew =>
            rw [List.mem_singleton.mp hnew]
            exact Or.inr ⟨_, item_mem_queued hnext, rfl⟩
      · exact fun x hx => queued_of_next hnext hx
  | skipped hp hnext herr =>
      refine hi.setPhase (fun sig => Waits.of_before ?_ ?_) hfirst <;> rw [hp]
      · exact fun _ h => Or.inl h
      · exact fun x hx => queued_of_next hnext hx
  | @fetched streams futures sig logItem sendOk persistOk hp hmem hst =>
      have hdue := (hi.waits sig (by rw [hp]; exact Or.inl hmem)).due hst
      have hsent : SentSince config t0 earlier w.chain (w.sent ++ [logItem]) :=
        hi.sent.append fun tx htx => List.mem_singleton.mp htx ▸ hdue
      have hcursor : AtOrAfter w.chain t0 (some logItem.signature) :=
        atOrAfter_of_newer hi.cursor.known hdue.confirmed hdue.newer
      unfold World.handleLogItem at hfirst ⊢
      cases sendOk with
      | false => exact hi.idle ⟨rfl, rfl, rfl⟩
      | true =>
          cases persistOk with
          | false => exact .quiet hcursor hsent ⟨rfl, rfl, rfl⟩
          | true =>
              refine ⟨hcursor, hsent, ?_, hfirst⟩
              intro sig' hsig'
              refine hi.waits sig' (hsig'.of_before ?_ ?_) <;> rw [hp]
              · exact fun _ h => Or.inl (List.mem_of_mem_erase h)
              · exact fun x hx => hx
  | fetchedFailed hp hmem hst =>
      refine hi.setPhase (fun sig => Waits.of_before ?_ ?_) hfirst <;> rw [hp]
      · exact fun _ h => Or.inl (List.mem_of_mem_erase h)
      · exact fun x hx => hx
  | reconnected => exact hi.idle ⟨rfl, rfl, rfl⟩
  | returned => exact hi.idle ⟨rfl, rfl, rfl⟩

/-! ## What the listener sends -/

/-- No process is started with a signature forced behind `t0`. -/
def NotBefore (fromStr : String → Option Signature) (t0 : Option Signature) (s : SolanaListener) :
    ListenerEvent → Prop
  | .start (some force) _ => force.isEmpty = true ∨
      ∀ signature, fromStr force = some signature → AtOrAfter s.world.chain t0 (some signature)
  | _ => True

theorem notBefore_none (s : SolanaListener) (e : ListenerEvent) : NotBefore fromStr none s e := by
  unfold NotBefore
  split
  · exact Or.inr fun _ _ => nofun
  · trivial

theorem sentInv_setLatest {persistOk : Bool} (hi : SentInv config t0 earlier w)
    (hcursor : AtOrAfter w.chain t0 (some sig)) :
    SentInv config t0 earlier (w.setLatestProcessedSignature sig persistOk) := by
  unfold World.setLatestProcessedSignature
  cases persistOk with
  | true => exact ⟨hcursor, hi.sent, hi.waits, hi.first⟩
  | false => exact .quiet hcursor hi.sent ⟨rfl, rfl, rfl⟩

/-- The signature a catch-up call returns is above the one it was asked for. -/
theorem newest_newer {t1 : Option Signature} {k : Nat}
    (h : (catchUp config env t1 k).result = some (.ok (some n))) :
    ∃ i st, i ≤ k ∧ st ∈ (env.chainAt i).history ∧ st.signature = n ∧
      (env.chainAt i).Newer t1 st := by
  obtain ⟨x, hhead, hsig⟩ := cursor_origin h
  cases hhead with
  | inl hovertakes =>
      obtain ⟨i, hx⟩ := hovertakes
      obtain ⟨hin, -, -, hnewer⟩ := mem_pageOf (List.mem_of_head? hx.1.head)
      rw [scan_requests hx.1.running] at hin hnewer
      refine ⟨i, x, ?_, hin, hsig, hnewer⟩
      by_contra hlt
      have hstable : catchUp config env t1 i = catchUp config env t1 k :=
        scan_stable (fun hnone => absurd (hnone.symm.trans h) (by simp)) (Nat.le_of_not_le hlt)
      have hrun := hx.1.running
      rw [hstable] at hrun
      exact absurd (hrun.symm.trans h) (by simp)
  | inr hgateway =>
      obtain ⟨hin, -, -, hnewer⟩ := Chain.mem_range.mp
        (Paging.mem_range_of_mem_page (List.mem_of_head? hgateway.2))
      exact ⟨0, x, Nat.zero_le k, hin, hsig, hnewer⟩

/-- The chain once a scan has run is the one its last request saw. -/
theorem scanned_le {scan : ScanState} (h : w.scanned config env scan = some w') :
    w'.chain ≤ env.chainAt scan.requests := by
  obtain ⟨w₁, hle, hc, rfl⟩ := scanned_cases h
  have hpre : w.chain.history <+: (env.chainAt scan.requests).history :=
    Chain.le_trans hle (chainAt_mono env (Nat.zero_le _))
  have heq := (history_confirmAll _ hc).trans (List.prefix_iff_eq_append.mp hpre)
  exact ⟨[], by rw [List.append_nil]; exact heq⟩

theorem newest_known {k : Nat}
    (h : w.scanned config env (SolanaListener.missed config w env k) = some w')
    (hret : (SolanaListener.missed config w env k).result = some (.ok (some n))) :
    n ∈ w'.chain.history.map TxStatus.signature := by
  obtain ⟨w₁, hle, hc, rfl⟩ := scanned_cases h
  obtain ⟨m, hm, -, -, hn⟩ := listed_of_ok hret (Chain.le_refl _)
  have hin := (hn n rfl).resolve_left (by simp)
  exact (List.IsPrefix.map TxStatus.signature
    (Chain.le_trans (chainAt_mono env hm) (chainAt_le_of_batch hle hc))).subset hin

theorem sentInv_proceed {k : Nat} {newest : Option Signature} {persistOk : Bool}
    (hi : SentInv config t0 earlier w)
    (h : w.scanned config env (SolanaListener.missed config w env k) = some w')
    (hret : (SolanaListener.missed config w env k).result = some (.ok newest)) :
    SentInv config t0 earlier (SolanaListener.proceed w' newest persistOk).world := by
  have hi' := sentInv_scanned hi h
  cases newest with
  | none => exact hi'
  | some n =>
      refine sentInv_setLatest hi' ?_
      rintro u rfl
      have hu := hi'.cursor.known u rfl
      have hon := newest_known h hret
      refine ⟨hu, n, rfl, hon, ?_⟩
      obtain ⟨w₁, hle, -⟩ := scanned_cases h
      have hD : w'.chain ≤ env.chainAt k :=
        Chain.le_trans (scanned_le h) (chainAt_mono env (requests_le k))
      obtain ⟨i, x, hik, hin, rfl, hnewer⟩ := newest_newer hret
      have hi0 : w.chain ≤ env.chainAt i := Chain.le_trans hle (chainAt_mono env (Nat.zero_le i))
      have habove := newer_of_grown (chainAt_mono env hik) hin (hi.cursor.mono hi0).known
        ((hi.cursor.mono hi0).newer hnewer)
      have hlt := habove ((List.IsPrefix.map TxStatus.signature hD).subset hu)
      change (env.chainAt k).position u < (env.chainAt k).position x.signature at hlt
      rw [Chain.position_of_le hD hu, Chain.position_of_le hD hon] at hlt
      exact Nat.le_of_lt hlt

theorem sentInv_move {e : ListenerEvent} (hi : SentInv config t0 earlier s.world)
    (hok : NotBefore fromStr t0 s e) (hm : ListenerMove fromStr config s e s') :
    SentInv config t0 earlier s'.world := by
  cases hm with
  | confirmed hc => exact sentInv_confirm hi hc
  | @started force persistOk hstage hphase =>
      cases force with
      | none => exact hi
      | some force =>
          unfold SolanaListener.start
          dsimp only
          by_cases hempty : force.isEmpty = true
          · rw [if_pos hempty]
            exact hi
          · rw [if_neg hempty]
            cases hforce : fromStr force with
            | none => exact hi.idle ⟨rfl, rfl, rfl⟩
            | some signature =>
                exact sentInv_setLatest hi (hok.resolve_left hempty signature hforce)
  | fetchedMissed hstage hphase hscan hres => exact sentInv_proceed hi hscan hres
  | missedFailed hstage hscan => exact (sentInv_scanned hi hscan).idle ⟨rfl, rfl, rfl⟩
  | realtime hstage hstep => exact sentInv_transition hi (step_cases hstep)
  | killed => exact hi.idle ⟨rfl, rfl, rfl⟩
  | @killedScanning env k scan w error hcurrent hscan =>
      -- whichever of the two scans it was
      have hscanned : SentInv config t0 earlier w := by
        unfold SolanaListener.currentScan at hcurrent
        split at hcurrent
        · rw [← Option.some.inj hcurrent] at hscan
          exact sentInv_scanned hi hscan
        · rw [← Option.some.inj hcurrent] at hscan
          exact sentInv_scanned hi hscan
        · cases hcurrent
      exact hscanned.idle ⟨rfl, rfl, rfl⟩
  | restarted => exact hi.idle ⟨rfl, rfl, rfl⟩

/-- Nothing is sent yet, and the process starts from `t0`. -/
theorem sentInv_init (hinit : (listener fromStr config).init s)
    (hcursor : ∀ u, t0 = some u → s.world.latestProcessedSignature = some u)
    (hknown : Known s.world.chain t0) : SentInv config t0 [] s.world := by
  obtain ⟨-, hphase, hsent, -⟩ := hinit
  refine .quiet ?_ ⟨[], hsent, nofun⟩ (by rw [hphase]; exact ⟨rfl, rfl, rfl⟩)
  intro u hu
  exact ⟨hknown u hu, u, hcursor u hu, hknown u hu, Nat.le_refl _⟩

/-- The listener, where the first process starts from `t0`. -/
def resumed (fromStr : String → Option Signature) (config : Config) (t0 : Option Signature) :
    System SolanaListener ListenerEvent where
  init s := (listener fromStr config).init s ∧ s.world.latestProcessedSignature = t0 ∧
    Known s.world.chain t0
  step := (listener fromStr config).step

/--
**The listener sends nothing it does not owe**: successful transactions of the monitored
addresses, and none that is not newer than the signature it started from, unless it is
forced back. It holds in every run: whatever the RPC nodes and the streams answer, in
whatever order the fetches complete, over any number of crashes.
-/
theorem sent_due (fromStr : String → Option Signature) (config : Config) (t0 : Option Signature)
    (s : SolanaListener) (h : Reach (resumed fromStr config t0) (NotBefore fromStr t0) s) :
    ∀ tx, tx ∈ s.world.sent → Due config t0 s.world.chain (.successful tx) := by
  have hinv : SentInv config t0 [] s.world := by
    refine Reach.invariant (P := fun s => SentInv config t0 [] s.world) ?_ ?_ h
    · intro s hinit
      obtain ⟨hinit, hcursor, hknown⟩ := hinit
      exact sentInv_init hinit (fun u hu => hcursor.trans hu) hknown
    · intro s e s' _ hi hok hs
      exact sentInv_move hi hok (listener_cases hs)
  obtain ⟨later, heq, hdue⟩ := hinv.sent
  exact heq ▸ hdue

/-- A process that has not been started, on an empty chain. -/
def freshListener : SolanaListener := ⟨.starting, freshWorld⟩

theorem freshListener_init (fromStr : String → Option Signature) (config : Config) :
    (listener fromStr config).init freshListener := ⟨rfl, rfl, rfl, rfl, rfl⟩

/-- A transaction is fetched after the start, the process dies, and the next one fetches another. -/
def crashAndRestart : List ListenerEvent :=
  [.confirm (gatewayTx 1), .start none true,
    .fetchedMissed (.static ⟨[gatewayTx 1], gatewayTx_distinct, gatewayTx_slots⟩) 3 true,
    .killed, .confirm (gasServiceTx 2), .restart, .start none true]

theorem resumed_init (fromStr : String → Option Signature) (config : Config) :
    (resumed fromStr config none).init freshListener :=
  ⟨freshListener_init fromStr config, rfl, nofun⟩

/-- A process that has stored the gateway transaction's signature. -/
def resumedListener : SolanaListener :=
  ⟨.starting, { freshWorld with
    chain := ⟨[gatewayTx 1], gatewayTx_distinct, gatewayTx_slots⟩
    latestProcessedSignature := some (.filled 1) }⟩

theorem bothTxs_distinct :
    ([gatewayTx 1, gasServiceTx 2].map TxStatus.signature).Nodup := by decide

theorem bothTxs_slots :
    [gatewayTx 1, gasServiceTx 2].Pairwise fun a b => a.tx.slot ≤ b.tx.slot := by decide

/-- A transaction confirmed after it is fetched, the process dies, and the next one starts. -/
def fetchAndCrash : List ListenerEvent :=
  [.confirm (gasServiceTx 2), .start none true,
    .fetchedMissed (.static ⟨[gatewayTx 1, gasServiceTx 2], bothTxs_distinct, bothTxs_slots⟩) 3
      true,
    .killed, .restart, .start none true]

theorem sent_due_crash : ∃ s, replay (resumed (fun _ => none) ⟨.filled 1, .filled 2⟩
      (some (.filled 1))) always resumedListener fetchAndCrash = some s ∧
    s.world.sent = [(gasServiceTx 2).tx] ∧ ∀ tx, tx ∈ s.world.sent →
      Due ⟨.filled 1, .filled 2⟩ (some (.filled 1)) s.world.chain (.successful tx) := by
  have hrun : (replay (resumed (fun _ => none) ⟨.filled 1, .filled 2⟩ (some (.filled 1)))
      always resumedListener fetchAndCrash).map (fun s => s.world.sent) =
        some [(gasServiceTx 2).tx] := by decide +kernel
  obtain ⟨s, hs, hsent⟩ := Option.map_eq_some_iff.mp hrun
  have hinit : (resumed (fun _ => none) ⟨.filled 1, .filled 2⟩ (some (.filled 1))).init
      resumedListener := by
    refine ⟨⟨rfl, rfl, rfl, rfl, rfl⟩, rfl, ?_⟩
    intro u hu
    rw [← Option.some.inj hu]
    exact List.mem_singleton_self _
  have hfree : ∀ e, e ∈ fetchAndCrash →
      ∀ s, NotBefore (fun _ => none) (some (.filled 1)) s e := by
    intro e he s
    simp only [fetchAndCrash, List.mem_cons, List.not_mem_nil, or_false] at he
    obtain rfl | rfl | rfl | rfl | rfl | rfl := he <;> trivial
  exact ⟨s, hs, hsent, sent_due (fun _ => none) _ _ s
    (Reach.of_replay_always (Reach.init hinit) hfree hs)⟩

end AxelarRelayer.Proof
