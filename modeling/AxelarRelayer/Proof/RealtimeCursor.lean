import AxelarRelayer.Proof.Realtime

/-!
# The realtime cursor

`set_latest_processed_signature` is called with whatever transaction's fetch
happens to complete next. Nothing a stream delivered is ever forgotten while the
connection lives: it is still queued, or its fetch is in flight, or it was sent
(`deliveredInv_reachable`). So the cursor is safe exactly as long as no fetch completes
while an older transaction is still queued or in flight, which is what
`CompletesInOrder` asks of a step, and `cursor_safe` is the invariant of the runs
that meet it. Two fetches that complete the other way round leave the cursor
above a transaction that was never sent, and a dropped connection then loses it.
-/

namespace AxelarRelayer.Proof

open AxelarRelayer Listener Runs

variable {config : Config} {w w' : World}

/-- Still queued in a stream, or being fetched or sent. -/
def Pending (phase : Phase) (st : TxStatus) : Prop :=
  st.signature ∈ inFlight phase ∨ notification st ∈ phase.queued

/-- **What was delivered is pending or was sent**, while the connection lives. -/
structure DeliveredInv (w : World) : Prop where
  /-- Only confirmed transactions are delivered. -/
  confirmed : ∀ sig ∈ w.delivered, sig ∈ w.chain.history.map TxStatus.signature
  /-- A successful one waits somewhere or was sent. -/
  kept : (∀ error, w.phase ≠ .returned error) →
    ∀ st ∈ w.chain.history, st.isSuccessful = true → st.signature ∈ w.delivered →
      Pending w.phase st ∨ st.tx ∈ w.sent

theorem deliveredInv_init (h : (realtime config).init w) : DeliveredInv w where
  confirmed := by intro sig hs; rw [h.2.1] at hs; exact absurd hs List.not_mem_nil
  kept := by intro _ st _ _ hs; rw [h.2.1] at hs; exact absurd hs List.not_mem_nil

theorem notify_ne_returned {phase : Phase} {st : TxStatus}
    (h : ∀ error, phase.notify config st ≠ .returned error) : ∀ error, phase ≠ .returned error := by
  intro error he
  exact h error (by rw [he]; rfl)

theorem deliveredInv_confirm {st : TxStatus} (hi : DeliveredInv w)
    (h : w.confirm config st = some w') : DeliveredInv w' := by
  obtain ⟨chain, hc, rfl⟩ := confirm_cases h
  have hle := Chain.confirm?_le hc
  have hfresh : st.signature ∉ w.delivered := fun hmem =>
    Chain.confirm?_fresh hc (hi.confirmed _ hmem)
  refine ⟨?_, ?_⟩
  · intro sig hs
    dsimp only at hs ⊢
    rw [Chain.confirm?_history hc, List.map_append, List.mem_append]
    split at hs
    · rcases List.mem_append.mp hs with h1 | h1
      · exact Or.inl (hi.confirmed sig h1)
      · exact Or.inr (by simpa using h1)
    · exact Or.inl (hi.confirmed sig hs)
  · intro hret a ha hsucc hdel
    dsimp only at hret ha hdel ⊢
    rw [Chain.confirm?_history hc, List.mem_append, List.mem_singleton] at ha
    rcases ha with ha | rfl
    · -- an earlier transaction: its notification has not moved
      have hold : a.signature ∈ w.delivered := by
        split at hdel
        · rcases List.mem_append.mp hdel with h1 | h1
          · exact h1
          · exact absurd (List.mem_singleton.mp h1 ▸ Chain.mem_signatures ha)
              (Chain.confirm?_fresh hc)
        · exact hdel
      rcases hi.kept (notify_ne_returned hret) a ha hsucc hold with (hf | hq) | hsent
      · exact Or.inl (Or.inl (by rw [inFlight_notify]; exact hf))
      · exact Or.inl (Or.inr (phase_queued_notify hq))
      · exact Or.inr hsent
    · -- the new one: it was delivered just now, so it waits in a stream
      split at hdel
      · rename_i hd
        exact Or.inl (Or.inr (phase_queued_delivered hd))
      · exact absurd hdel hfresh

/-- Replacing the phase keeps the invariant when nothing pending is forgotten. -/
theorem DeliveredInv.setPhase {phase : Phase} {sent : List SolanaTransaction}
    {cursor : Option Signature} {persists : List PersistRecord} (hi : DeliveredInv w)
    (hlive : ∀ error, w.phase ≠ .returned error)
    (hsent : ∀ tx ∈ w.sent, tx ∈ sent)
    (hkeep : ∀ st ∈ w.chain.history, st.isSuccessful = true → Pending w.phase st →
      Pending phase st ∨ st.tx ∈ sent) :
    DeliveredInv ⟨w.chain, cursor, sent, phase, w.delivered, persists⟩ where
  confirmed := hi.confirmed
  kept := by
    intro _ st hst hsucc hdel
    rcases hi.kept hlive st hst hsucc hdel with hp | hs
    · exact hkeep st hst hsucc hp
    · exact Or.inr (hsent _ hs)

/-- An item taken from a stream leaves the other notifications where they were. -/
theorem pending_of_next {streams streams' : Streams} {source : Source} {item : RpcLogsResponse}
    {st : TxStatus} (h : streams.next? source = some (item, streams'))
    (hq : notification st ∈ streams.queued) :
    (st.signature = item.signature ∧ st.err = item.err) ∨ notification st ∈ streams'.queued := by
  rcases mem_queued_of_next h hq with heq | hin
  · exact Or.inl ⟨by rw [← heq]; rfl, by rw [← heq]; rfl⟩
  · exact Or.inr hin

/-- A pending fetch is the one that completed or stays pending. -/
theorem eq_or_erase {fetchFutures : List Signature} {sig : Signature} {st st' : TxStatus}
    (hin : st ∈ w.chain.history) (hst : w.chain.status? sig = some st')
    (h : st.signature ∈ fetchFutures) : st = st' ∨ st.signature ∈ fetchFutures.erase sig := by
  obtain ⟨hin', hsig⟩ := Chain.mem_of_status? hst
  by_cases hs : st.signature = sig
  · exact Or.inl (Chain.eq_of_signature_eq hin hin' (hs.trans hsig.symm))
  · exact Or.inr ((List.mem_erase_of_ne hs).mpr h)

theorem deliveredInv_handleLogItem {streams : Streams} {futures : List Signature}
    {sig : Signature} {logItem : SolanaTransaction} {sendOk persistOk : Bool}
    (hi : DeliveredInv w) (hp : w.phase = .merged streams futures)
    (hst : w.chain.status? sig = some (.successful logItem)) :
    DeliveredInv (w.handleLogItem streams (futures.erase sig) logItem sendOk persistOk) := by
  unfold World.handleLogItem
  split
  · cases persistOk with
    | false => exact ⟨hi.confirmed, fun hret => absurd rfl (hret _)⟩
    | true =>
        refine hi.setPhase (by rw [hp]; simp) (fun _ h => List.mem_append_left _ h) ?_
        intro st hin _ hpend
        rw [hp] at hpend
        rcases hpend with h | h
        · -- what was pending is the item just sent, or it is still pending
          rcases eq_or_erase hin hst h with rfl | herase
          · exact Or.inr (List.mem_append_right _ (List.mem_singleton_self _))
          · exact Or.inl (Or.inl herase)
        · exact Or.inl (Or.inr h)
  · exact ⟨hi.confirmed, fun hret => absurd rfl (hret _)⟩

theorem deliveredInv_transition {e : Event} (hi : DeliveredInv w) (hfirst : FirstConfirmed w)
    (ht : Transition config w e w') : DeliveredInv w' := by
  cases ht with
  | confirmed hc => exact deliveredInv_confirm hi hc
  | connected hp =>
      refine hi.setPhase (by rw [hp]; simp) (fun _ h => h) ?_
      intro st _ _ hpend
      rw [hp] at hpend
      exact Or.inl hpend
  | subscribedGateway hp =>
      refine hi.setPhase (by rw [hp]; simp) (fun _ h => h) ?_
      intro st _ _ hpend
      rw [hp] at hpend
      exact absurd hpend (by simp [Pending, inFlight, Phase.queued])
  | subscribedGasService hp =>
      refine hi.setPhase (by rw [hp]; simp) (fun _ h => h) ?_
      intro st _ _ hpend
      rw [hp] at hpend
      rcases hpend with h | h
      · exact absurd h (by simp [inFlight])
      · exact Or.inl (Or.inr (List.mem_append_left _ h))
  | firstItem hp hnext herr =>
      refine hi.setPhase (by rw [hp]; simp) (fun _ h => h) ?_
      intro st _ _ hpend
      rw [hp] at hpend
      rcases hpend with h | h
      · exact absurd h (by simp [inFlight])
      · rcases pending_of_next hnext h with ⟨hs, _⟩ | hin
        · exact Or.inl (Or.inl (by rw [hs]; exact List.mem_singleton_self _))
        · exact Or.inl (Or.inr hin)
  | firstSkipped hp hnext herr =>
      refine hi.setPhase (by rw [hp]; simp) (fun _ h => h) ?_
      intro st _ hsucc hpend
      rw [hp] at hpend
      rcases hpend with h | h
      · exact absurd h (by simp [inFlight])
      · rcases pending_of_next hnext h with ⟨_, hs⟩ | hin
        · exact absurd (hs ▸ (TxStatus.err_eq_none st).mpr hsucc) herr
        · exact Or.inl (Or.inr hin)
  | firstFetched hp hst =>
      refine hi.setPhase (by rw [hp]; simp) (fun _ h => h) ?_
      intro st _ _ hpend
      rw [hp] at hpend
      rcases hpend with h | h
      · have hsig := (Chain.mem_of_status? hst).2
        refine Or.inl (Or.inl ?_)
        rw [List.mem_singleton.mp h, ← hsig]
        exact List.mem_singleton_self _
      · exact Or.inl (Or.inr h)
  | firstFailed hp hst =>
      refine hi.setPhase (by rw [hp]; simp) (fun _ h => h) ?_
      intro st hmem hsucc hpend
      rw [hp] at hpend
      rcases hpend with h | h
      · -- the fetched signature names a failed transaction
        obtain ⟨hmem', hsig⟩ := Chain.mem_of_status? hst
        have : st = _ := Chain.eq_of_signature_eq hmem hmem' (by rw [List.mem_singleton.mp h, hsig])
        rw [this] at hsucc
        exact absurd hsucc (by simp [TxStatus.isSuccessful])
      · exact Or.inl (Or.inr h)
  | batched hp hle hc hres hp' =>
      have hi₁ := confirmAll_invariant (fun _ _ _ ha hab => deliveredInv_confirm ha hab) _ hi hc
      have hf := (confirms_confirmAll hc).inFlight
      refine hi₁.setPhase (by rw [hp']; simp) (fun _ h => List.mem_append_left _ h) ?_
      intro st _ _ hpend
      rcases hpend with h | h
      · rw [hf, hp] at h
        exact Or.inl (Or.inl h)
      · rw [hp'] at h
        exact Or.inl (Or.inr h)
  | batchFailed hp hle hc =>
      have hi₁ := confirmAll_invariant (fun _ _ _ ha hab => deliveredInv_confirm ha hab) _ hi hc
      exact ⟨hi₁.confirmed, fun hret => absurd rfl (hret _)⟩
  | firstSent hp =>
      refine hi.setPhase (by rw [hp]; simp) (fun _ h => List.mem_append_left _ h) ?_
      intro st hmem hsucc hpend
      rw [hp] at hpend
      rcases hpend with h | h
      · have ht2 := hfirst _ (by rw [hp]; rfl)
        have : st = _ := Chain.eq_of_signature_eq hmem ht2 (List.mem_singleton.mp h)
        exact Or.inr (List.mem_append_right _ (by rw [this]; exact List.mem_singleton_self _))
      · exact Or.inl (Or.inr h)
  | pulled hp hnext herr =>
      refine hi.setPhase (by rw [hp]; simp) (fun _ h => h) ?_
      intro st _ _ hpend
      rw [hp] at hpend
      rcases hpend with h | h
      · exact Or.inl (Or.inl (List.mem_append_left _ h))
      · rcases pending_of_next hnext h with ⟨hs, _⟩ | hin
        · exact Or.inl (Or.inl (List.mem_append_right _ (by rw [hs]; exact List.mem_singleton_self _)))
        · exact Or.inl (Or.inr hin)
  | skipped hp hnext herr =>
      refine hi.setPhase (by rw [hp]; simp) (fun _ h => h) ?_
      intro st _ hsucc hpend
      rw [hp] at hpend
      rcases hpend with h | h
      · exact Or.inl (Or.inl h)
      · rcases pending_of_next hnext h with ⟨_, hs⟩ | hin
        · exact absurd (hs ▸ (TxStatus.err_eq_none st).mpr hsucc) herr
        · exact Or.inl (Or.inr hin)
  | fetched hp hmem hst => exact deliveredInv_handleLogItem hi hp hst
  | fetchedFailed hp hmem hst =>
      refine hi.setPhase (by rw [hp]; simp) (fun _ h => h) ?_
      intro st hin hsucc hpend
      rw [hp] at hpend
      rcases hpend with h | h
      · rcases eq_or_erase hin hst h with rfl | herase
        · exact absurd hsucc (by simp [TxStatus.isSuccessful])
        · exact Or.inl (Or.inl herase)
      · exact Or.inl (Or.inr h)
  | reconnected =>
      exact ⟨fun sig hs => absurd hs List.not_mem_nil,
        fun _ st _ _ hs => absurd hs List.not_mem_nil⟩
  | returned => exact ⟨hi.confirmed, fun hret => absurd rfl (hret _)⟩

theorem deliveredInv_reachable {ok : World → Event → Prop} (h : Reach (realtime config) ok w) :
    DeliveredInv w := by
  refine Reach.invariant (P := DeliveredInv) (fun _ => deliveredInv_init) ?_ h
  intro w e w' hr hi _ hstep
  exact deliveredInv_transition hi (firstConfirmed_reachable hr) (step_cases hstep)

/-! ## The cursor -/

/-- When `n` was stored, every delivered transaction not newer than `n` had been sent. -/
def CursorSafe (r : PersistRecord) : Prop :=
  ∀ st ∈ r.chain.history, st.isSuccessful = true → st.signature ∈ r.delivered →
    r.chain.position st.signature ≤ r.chain.position r.signature → st.tx ∈ r.sent

/--
The step completes no fetch of a successful transaction while an older one that
was delivered and not yet sent is still queued or in flight.
-/
def CompletesInOrder (w : World) : Event → Prop
  | .fetched sig (.returns true _) =>
      (w.chain.status? sig).any TxStatus.isSuccessful = true →
      ∀ st ∈ w.chain.history, st.isSuccessful = true → Pending w.phase st →
        w.chain.position st.signature < w.chain.position sig → st.tx ∈ w.sent
  | _ => True

instance (phase : Phase) (st : TxStatus) : Decidable (Pending phase st) :=
  inferInstanceAs (Decidable (_ ∨ _))

-- the implications are decided by a named instance: which one is found depends on the imports
instance (w : World) (e : Event) : Decidable (CompletesInOrder w e) := by
  unfold CompletesInOrder
  split
  · exact @forall_prop_decidable _ _ _ fun _ =>
      @List.decidableBAll _ _ (fun _ => forall_prop_decidable _) w.chain.history
  · infer_instance

/-- The snapshot taken when a fetch completes in order is safe. -/
theorem cursorSafe_of_completesInOrder {streams : Streams} {futures : List Signature}
    {sig : Signature} {logItem : SolanaTransaction} {persistOk : Bool}
    (hi : DeliveredInv w) (hp : w.phase = .merged streams futures)
    (hst : w.chain.status? sig = some (.successful logItem))
    (hok : CompletesInOrder w (.fetched sig (.returns true persistOk))) :
    CursorSafe ⟨logItem.signature, w.chain, w.delivered, w.sent ++ [logItem]⟩ := by
  intro st hin hsucc hdel hpos
  obtain ⟨hmem, hsig⟩ := Chain.mem_of_status? hst
  rcases hi.kept (by rw [hp]; simp) st hin hsucc hdel with hpend | hsent
  · rcases Nat.lt_or_eq_of_le hpos with hlt | heq
    · have hlt' : w.chain.position st.signature < w.chain.position sig := by rw [← hsig]; exact hlt
      exact List.mem_append_left _
        (hok (by rw [hst]; rfl) st hin hsucc hpend hlt')
    · -- the very transaction that is being stored
      have hkey : st.signature = logItem.signature := Chain.position_inj hin heq
      have : st = _ := Chain.eq_of_signature_eq hin hmem hkey
      exact List.mem_append_right _ (by rw [this]; exact List.mem_singleton_self _)
  · exact List.mem_append_left _ hsent

instance (r : PersistRecord) : Decidable (CursorSafe r) := by
  unfold CursorSafe; infer_instance

theorem cursorSafe_transition {e : Event} (hi : DeliveredInv w) (hok : CompletesInOrder w e)
    (hsafe : ∀ r ∈ w.persists, CursorSafe r) (ht : Transition config w e w') :
    ∀ r ∈ w'.persists, CursorSafe r := by
  cases ht with
  | confirmed hc => rw [(confirms_confirm hc).persists]; exact hsafe
  | batched hp hle hc hres hp' => rw [← (confirms_confirmAll hc).persists] at hsafe; exact hsafe
  | batchFailed hp hle hc => rw [← (confirms_confirmAll hc).persists] at hsafe; exact hsafe
  | @fetched _ _ _ _ sendOk persistOk hp hmem hst =>
      unfold World.handleLogItem
      split
      · rename_i hsend
        subst hsend
        intro r hr
        rcases List.mem_append.mp hr with h | h
        · exact hsafe r h
        · rw [List.mem_singleton.mp h]
          exact cursorSafe_of_completesInOrder hi hp hst hok
      · exact hsafe
  | _ => exact hsafe

/--
**The cursor is safe in every run whose fetches complete in order.** Each time a
signature is stored, all successful transactions the streams of the connection
delivered that are not newer than it have been sent.
-/
theorem cursor_safe (h : Reach (realtime config) CompletesInOrder w) :
    ∀ r ∈ w.persists, CursorSafe r := by
  refine Reach.invariant (P := fun w => ∀ r ∈ w.persists, CursorSafe r) ?_ ?_ h
  · intro w hinit r hr
    rw [hinit.2.2.1] at hr
    exact absurd hr List.not_mem_nil
  · intro w e w' hr hsafe hok hstep
    exact cursorSafe_transition (deliveredInv_reachable hr) hok hsafe (step_cases hstep)

/-! ## Two fetches in either order -/

/-- The first item arrives, then two more, and the fetches of these complete as listed. -/
def twoFetches (completions : List Signature) : List Event :=
  [.connect true, .subscribe true, .subscribe true,
    .confirm (gatewayTx 1), .item .gateway, .firstFetched true,
    .batch (.static ⟨[gatewayTx 1], gatewayTx_distinct, gatewayTx_slots⟩) 3, .firstSent true,
    .confirm (gatewayTx 2), .confirm (gatewayTx 3), .item .gateway, .item .gateway] ++
  completions.map fun sig => .fetched sig (.returns true true)

/-- Completed in order, both signatures are stored and both snapshots are safe. -/
theorem cursor_safe_in_order : ∃ w : World,
    Reach (realtime ⟨.filled 1, .filled 2⟩) CompletesInOrder w ∧
      w.persists.map PersistRecord.signature = [.filled 2, .filled 3] ∧
      ∀ r ∈ w.persists, CursorSafe r := by
  have hrun : (replay (realtime ⟨.filled 1, .filled 2⟩) CompletesInOrder freshWorld
      (twoFetches [.filled 2, .filled 3])).any
      (fun w => decide (w.persists.map PersistRecord.signature = [.filled 2, .filled 3])) = true := by
    decide +kernel
  obtain ⟨w, hw, hsig⟩ := (Option.any_eq_true _ _).mp hrun
  have hreach := Reach.of_replay (Reach.init (freshWorld_init _)) hw
  exact ⟨w, hreach, of_decide_eq_true hsig, cursor_safe hreach⟩

/-- **The law fails**: the cursor is stored above a delivered transaction that was not sent. -/
theorem cursor_overtakes : ¬ ∀ (config : Config) (w : World), Reach (realtime config) always w →
    ∀ r ∈ w.persists, CursorSafe r := by
  intro hall
  have hrun : (replay (realtime ⟨.filled 1, .filled 2⟩) always freshWorld
      (twoFetches [.filled 3])).any
      (fun w => decide (∃ r ∈ w.persists, ¬ CursorSafe r)) = true := by decide +kernel
  obtain ⟨w, hw, hbad⟩ := (Option.any_eq_true _ _).mp hrun
  obtain ⟨r, hr, hunsafe⟩ := of_decide_eq_true hbad
  exact hunsafe (hall _ w (Reach.of_replay (Reach.init (freshWorld_init _)) hw) r hr)

end AxelarRelayer.Proof
