import Mathlib.Data.List.Perm.Subperm
import AxelarRelayer.Task.Processor

/-!
# What one send lands

A send lands at most one transaction: the given instructions behind a price and a
limit (`Prepared`), confirmed with or without an error. `Sent` relates what landed
to how the send ended, and `Handled` does the same one level up, where some errors
of the simulation count as success. Everything that lands during a task goes
through these two.
-/

namespace AxelarRelayer.Proof

open AxelarRelayer AxelarRelayer.Task Effect

variable {ctx : Context} {ixs sent : List ParsedIx} {ix : ParsedIx}

/-! ## Signing -/

section Signing

variable {τ : Type} {log : World → List τ} {instructions : List Instruction} {blockhash : Bytes32}
  {tx : Transaction}

theorem newSignedWithPayer_some (w : World)
    (h : Transaction.newSignedWithPayer ctx.sign instructions ctx.signer blockhash = some tx) :
    newSignedWithPayer ctx instructions blockhash w = .ok tx w := by
  rw [newSignedWithPayer, h]
  rfl

theorem newSignedWithPayer_none (w : World)
    (h : Transaction.newSignedWithPayer ctx.sign instructions ctx.signer blockhash = none) :
    newSignedWithPayer ctx instructions blockhash w = .error .panicked w := by
  rw [newSignedWithPayer, h]
  rfl

theorem reads_newSignedWithPayer :
    Reads log (newSignedWithPayer ctx instructions blockhash) fun tx =>
      Transaction.newSignedWithPayer ctx.sign instructions ctx.signer blockhash = some tx := by
  unfold newSignedWithPayer
  split
  · rename_i tx hsigned
    exact reads_pure hsigned
  · exact reads_throw _

end Signing

/-! ## Evaluation -/

/-- `sent` is `ixs` behind a price and a limit the sender may have chosen. -/
def Prepared (ctx : Context) (ixs sent : List ParsedIx) : Prop :=
  ∃ t fees limit, ctx.rpc.getRecentPrioritizationFees t (touchedAccounts ixs) = .ok fees ∧
    limit ≤ MAX_COMPUTE_UNIT_LIMIT ∧
    sent = setComputeUnitPrice (averageFee fees) :: setComputeUnitLimit limit :: ixs

/-- The limit instruction touches no account. -/
@[simp] theorem touchedAccounts_limit (units : Nat) (ixs : List ParsedIx) :
    touchedAccounts (setComputeUnitLimit units :: ixs) = touchedAccounts ixs := rfl

theorem reads_simulateTransaction (ixs : List ParsedIx) :
    Reads World.landed (simulateTransaction ctx ixs) fun _ => True :=
  (reads_modify fun w => World.landed_submit w _ _).bind fun _ _ => reads_ask fun _ _ _ => trivial

theorem reads_simulatedBudget (ixs : List ParsedIx) :
    Reads World.landed (simulatedBudget ctx ixs) fun ix =>
      ∃ limit, limit ≤ MAX_COMPUTE_UNIT_LIMIT ∧ ix = setComputeUnitLimit limit := by
  refine (reads_simulateTransaction ixs).bind fun result _ => ?_
  cases result.err with
  | some error => exact reads_throw _
  | none => exact reads_pure ⟨_, Nat.min_le_right _ _, rfl⟩

theorem reads_computeBudget (ixs : List ParsedIx) :
    Reads World.landed (Task.computeBudget ctx ixs) fun ix =>
      ∃ limit, limit ≤ MAX_COMPUTE_UNIT_LIMIT ∧ ix = setComputeUnitLimit limit :=
  (reads_ask fun _ _ _ => trivial).bind fun _ _ => reads_simulatedBudget ixs

theorem reads_computeUnitPrice (ixs : List ParsedIx) :
    Reads World.landed (computeUnitPrice ctx ixs) fun ix =>
      ∃ t fees, ctx.rpc.getRecentPrioritizationFees t (touchedAccounts ixs) = .ok fees ∧
        ix = setComputeUnitPrice (averageFee fees) := by
  refine Reads.bind (P := fun fees => ∃ t,
    ctx.rpc.getRecentPrioritizationFees t (touchedAccounts ixs) = .ok fees)
    (reads_ask fun t fees hfees => ⟨t, hfees⟩) fun fees hfees => ?_
  obtain ⟨t, hfees⟩ := hfees
  exact reads_pure ⟨t, fees, hfees, rfl⟩

theorem reads_evaluateComputeIxs (ixs : List ParsedIx) :
    Reads World.landed (evaluateComputeIxs ctx ⟨ixs⟩) fun sender => Prepared ctx ixs sender.ixs := by
  refine reads_get.bind fun w _ => (Reads.tryJoin _ (reads_computeUnitPrice _)
    (reads_computeBudget _)).bind fun pair hpair => ?_
  obtain ⟨⟨t, fees, hfees, hprice⟩, limit, hlimit, hbudget⟩ := hpair
  refine reads_pure ⟨t, fees, limit, hfees, hlimit, ?_⟩
  change [pair.1, pair.2] ++ ixs = _
  rw [hprice, hbudget]
  rfl

/-! ## One send -/

/-- A transaction on chain that carries `ixs`. -/
def Carries (ctx : Context) (ixs : List ParsedIx) (st : TxStatus) : Prop :=
  ∃ sent t receipt error, Prepared ctx ixs sent ∧ st = confirmedStatus ctx t sent receipt error

/-- What a send lands, and how that relates to its end. -/
structure Sent (ctx : Context) (ixs : List ParsedIx) (r : Except ComputeBudgetError Signature)
    (new : List TxStatus) : Prop where
  carries : ∀ st ∈ new, Carries ctx ixs st
  once : new.length ≤ 1
  ok : ∀ sig, r = .ok sig → ∃ tx, new = [.successful tx] ∧ tx.signature = sig
  /-- a simulation that fails ends the send before anything is sent -/
  simulation : ∀ result, r = .error (.simulationError result) → new = []
  failed : ∀ source sig, r = .error (.transactionError source sig) →
    ∀ st ∈ new, st.signature = sig

/-- A send that fails before anything is sent. -/
theorem Sent.nothing {e : ComputeBudgetError} : Sent ctx ixs (.error e) [] where
  carries := fun _ h => absurd h List.not_mem_nil
  once := Nat.zero_le _
  ok := fun _ h => by cases h
  simulation := fun _ _ => rfl
  failed := fun _ _ _ _ h => absurd h List.not_mem_nil

@[simp] theorem signature_confirmedStatus (t : Nat) (receipt : Receipt)
    (error : Option TransactionError) :
    (confirmedStatus ctx t sent receipt error).signature = receipt.signature := by
  cases error <;> rfl

theorem extends_confirmOnChain {ε : Type} (st : TxStatus) :
    Extends World.landed (confirmOnChain ixs st : EStateM ε World Bool) fun r new =>
      (r = .ok true ∧ new = [st]) ∨ (r = .ok false ∧ new = []) := by
  intro w
  unfold confirmOnChain
  split
  · rename_i chain hchain
    exact ⟨[st], World.landed_land w ixs st chain hchain, Or.inl ⟨rfl, rfl⟩⟩
  · exact ⟨[], (World.landed_submit w _ rfl).trans (List.append_nil _).symm, Or.inr ⟨rfl, rfl⟩⟩

theorem extends_settle {ε : Type} (t : Nat) (receipt : Receipt)
    (landed : Option (Option TransactionError)) :
    Extends World.landed (settle ctx t ixs receipt landed : EStateM ε World Unit) fun r new =>
      r = .ok () ∧ (new = [] ∨ ∃ error, new = [confirmedStatus ctx t ixs receipt error]) := by
  cases landed with
  | none =>
      intro w
      exact ⟨[], (World.landed_submit w _ rfl).trans (List.append_nil _).symm, rfl, Or.inl rfl⟩
  | some error =>
      refine (extends_confirmOnChain _).ignore.mono ?_
      rintro r new ⟨r₀, rfl, ⟨rfl, rfl⟩ | ⟨rfl, rfl⟩⟩
      · exact ⟨rfl, Or.inr ⟨error, rfl⟩⟩
      · exact ⟨rfl, Or.inl rfl⟩

theorem extends_sendTx (hsent : Prepared ctx ixs sent) :
    Extends World.landed (sendTx ctx ⟨sent⟩) (Sent ctx ixs) := by
  refine Extends.after_reads reads_call (fun t _ => ?_) fun _ => Sent.nothing
  dsimp only
  cases ctx.rpc.sendAndConfirmTransaction t sent with
  -- the node says so, and the chain has the last word
  | confirmed receipt =>
      refine ((extends_confirmOnChain _).bind (fun confirmed r new => new = [] ∧
        r = if confirmed then .ok receipt.signature
          else .error (.generic "unable to confirm transaction")) fun confirmed _ _ => ?_).mono ?_
      · cases confirmed <;> exact fun w => ⟨[], (List.append_nil _).symm, rfl, rfl⟩
      · rintro r new (⟨e, -, ⟨h, -⟩ | ⟨h, -⟩⟩ | ⟨confirmed, l₁, l₂, rfl, ⟨h, rfl⟩ | ⟨h, rfl⟩, rfl, rfl⟩)
        · cases h
        · cases h
        · cases h
          exact {
            carries := fun st hst => by
              rw [List.append_nil, List.mem_singleton] at hst
              exact ⟨sent, t, receipt, none, hsent, hst⟩
            once := Nat.le_refl _
            ok := fun sig hsig => ⟨_, rfl, Except.ok.inj hsig⟩
            simulation := fun _ h => by cases h
            failed := fun _ _ h => by cases h }
        · cases h
          exact Sent.nothing
  | failed receipt landed error =>
      refine ((extends_settle t receipt landed).bind (fun _ r new => new = [] ∧
        r = .error (sendError receipt.signature error)) fun _ _ _ =>
          fun w => ⟨[], (List.append_nil _).symm, rfl, rfl⟩).mono ?_
      rintro r new (⟨e, -, h, -⟩ | ⟨-, l₁, l₂, rfl, ⟨-, hl₁⟩, rfl, rfl⟩)
      · cases h
      rw [List.append_nil]
      -- the send failed; the transaction may have landed all the same
      rcases hl₁ with rfl | ⟨status, rfl⟩
      · exact Sent.nothing
      · exact {
          carries := fun st hst => ⟨sent, t, receipt, status, hsent, List.mem_singleton.mp hst⟩
          once := Nat.le_refl _
          ok := fun _ h => by cases h
          simulation := fun result h => by
            simp only [sendError] at h
            split at h <;> cases h
          failed := fun source sig h st hst => by
            rw [List.mem_singleton.mp hst, signature_confirmedStatus]
            simp only [sendError] at h
            split at h <;> cases h
            rfl }

/-- **What `send_transaction` lands.** -/
theorem extends_sendTransaction (ixs : List ParsedIx) :
    Extends World.landed (sendTransaction ctx ixs) (Sent ctx ixs) :=
  Extends.after_reads (reads_evaluateComputeIxs ixs) (fun _ hsent => extends_sendTx hsent)
    fun _ => Sent.nothing

/-! ## One gateway transaction -/

/-- The same for `send_gateway_tx`, which also succeeds when nothing was left to do. -/
structure Handled (ctx : Context) (ix : ParsedIx) (r : Except Report Unit)
    (new : List TxStatus) : Prop where
  carries : ∀ st ∈ new, Carries ctx [ix] st
  once : new.length ≤ 1
  ok : r = .ok () → ∀ st ∈ new, st.isSuccessful = true

theorem Handled.wrap {r : Except Report Unit} {new : List TxStatus} (text : String)
    (h : Handled ctx ix r new) : Handled ctx ix (r.mapError (.wrap text)) new where
  carries := h.carries
  once := h.once
  ok := fun hr => by
    cases r with
    | ok u => exact h.ok rfl
    | error e => cases hr

/-- Only errors of the simulation are passed over. -/
theorem simulationError_of_shouldContinue {err : ComputeBudgetError}
    (h : shouldContinue ctx err = true) : ∃ result, err = .simulationError result := by
  cases err with
  | simulationError result => exact ⟨result, rfl⟩
  | transactionError source sig => exact absurd h (by simp [shouldContinue])
  | generic message => exact absurd h (by simp [shouldContinue])

theorem extends_sendGatewayTx (ix : ParsedIx) :
    Extends World.landed (sendGatewayTx ctx ix) (Handled ctx ix) := by
  refine ((extends_sendTransaction [ix]).attempt.bind (fun r₀ r new => new = [] ∧
    (r = .ok () → (∃ sig, r₀ = .ok sig) ∨ ∃ result, r₀ = .error (.simulationError result)))
    fun r₀ _ _ => ?_).mono ?_
  · cases r₀ with
    | ok sig => exact fun w => ⟨[], (List.append_nil _).symm, rfl, fun _ => Or.inl ⟨sig, rfl⟩⟩
    | error err =>
        dsimp only
        by_cases hproceed : shouldContinue ctx err = true
        · -- only an error of the simulation is passed over
          obtain ⟨result, rfl⟩ := simulationError_of_shouldContinue hproceed
          rw [if_pos hproceed]
          exact fun w => ⟨[], (List.append_nil _).symm, rfl, fun _ => Or.inr ⟨result, rfl⟩⟩
        · rw [if_neg hproceed]
          exact fun w => ⟨[], (List.append_nil _).symm, rfl, fun h => by cases h⟩
  · rintro r new (⟨e, -, r₀, hr₀, -⟩ | ⟨r₀, l₁, l₂, rfl, ⟨_, h, hsent⟩, rfl, hok⟩)
    · cases hr₀
    · cases h
      rw [List.append_nil]
      refine ⟨hsent.carries, hsent.once, fun hr st hst => ?_⟩
      -- success: either it was confirmed, or the simulation failed and nothing landed
      rcases hok hr with ⟨sig, rfl⟩ | ⟨result, rfl⟩
      · obtain ⟨tx, rfl, -⟩ := hsent.ok sig rfl
        rw [List.mem_singleton.mp hst]
        rfl
      · rw [hsent.simulation result rfl] at hst
        exact absurd hst List.not_mem_nil

/-! ## The upload -/

/-- The transactions in `new` carry instructions from `items`, each at most once. -/
def Carried (ctx : Context) (items : List ParsedIx) (new : List TxStatus) : Prop :=
  ∃ pairs : List (ParsedIx × TxStatus), (pairs.map Prod.fst).Subperm items ∧
    pairs.map Prod.snd = new ∧ ∀ p ∈ pairs, Carries ctx [p.1] p.2

/-- What a part of the upload lands; if it succeeds, so did all its transactions. -/
structure Lands {α : Type} (ctx : Context) (items : List ParsedIx) (r : Except Report α)
    (new : List TxStatus) : Prop where
  carried : Carried ctx items new
  ok : ∀ v, r = .ok v → ∀ st ∈ new, st.isSuccessful = true

theorem Carried.nil {items : List ParsedIx} : Carried ctx items [] :=
  ⟨[], List.nil_subperm, rfl, fun _ h => absurd h List.not_mem_nil⟩

theorem Carried.append {items items' : List ParsedIx} {new new' : List TxStatus}
    (h : Carried ctx items new) (h' : Carried ctx items' new') :
    Carried ctx (items ++ items') (new ++ new') := by
  obtain ⟨pairs, hsub, rfl, hall⟩ := h
  obtain ⟨pairs', hsub', rfl, hall'⟩ := h'
  refine ⟨pairs ++ pairs', ?_, List.map_append, fun p hp => ?_⟩
  · rw [List.map_append]
    exact List.Subperm.append hsub hsub'
  · rcases List.mem_append.mp hp with hp | hp
    · exact hall p hp
    · exact hall' p hp

theorem Carried.mono {items items' : List ParsedIx} {new : List TxStatus}
    (h : Carried ctx items new) (hsub : items.Subperm items') : Carried ctx items' new := by
  obtain ⟨pairs, hpairs, hnew, hall⟩ := h
  exact ⟨pairs, hpairs.trans hsub, hnew, hall⟩

theorem Carried.mem {items : List ParsedIx} {new : List TxStatus} (h : Carried ctx items new)
    {st : TxStatus} (hst : st ∈ new) : ∃ ix ∈ items, Carries ctx [ix] st := by
  obtain ⟨pairs, hsub, rfl, hall⟩ := h
  obtain ⟨p, hp, rfl⟩ := List.mem_map.mp hst
  exact ⟨p.1, hsub.subset (List.mem_map_of_mem hp), hall p hp⟩

theorem Handled.carried {r : Except Report Unit} {new : List TxStatus} (h : Handled ctx ix r new) :
    Carried ctx [ix] new := by
  match new, h with
  | [], _ => exact Carried.nil
  | [st], h =>
      refine ⟨[(ix, st)], List.Subperm.refl _, rfl, fun p hp => ?_⟩
      rw [List.mem_singleton.mp hp]
      exact h.carries st List.mem_cons_self
  | _ :: _ :: _, h => exact absurd h.once (by simp)

/-- One part after the other. -/
theorem Lands.bind {α β : Type} {x : EStateM Report World α} {f : α → EStateM Report World β}
    {items items' : List ParsedIx} (hx : Extends World.landed x (Lands ctx items))
    (hf : ∀ v, Extends World.landed (f v) (Lands ctx items')) :
    Extends World.landed (x >>= f) (Lands ctx (items ++ items')) := by
  refine (hx.bind (fun _ => Lands ctx items') fun v _ _ => hf v).mono ?_
  rintro r new (⟨e, rfl, h⟩ | ⟨v, l₁, l₂, rfl, h₁, h₂⟩)
  · exact ⟨h.carried.mono (List.sublist_append_left _ _).subperm, fun _ h => by cases h⟩
  · refine ⟨h₁.carried.append h₂.carried, fun w hw st hst => ?_⟩
    rcases List.mem_append.mp hst with hst | hst
    · exact h₁.ok v rfl st hst
    · exact h₂.ok w hw st hst

/-- Nothing is landed by what only reads. -/
theorem Lands.after_reads {α β : Type} {x : EStateM Report World α}
    {f : α → EStateM Report World β} {P : α → Prop} {items : List ParsedIx}
    (hx : Reads World.landed x P) (hf : ∀ v, P v → Extends World.landed (f v) (Lands ctx items)) :
    Extends World.landed (x >>= f) (Lands ctx items) :=
  Extends.after_reads hx hf fun _ => ⟨Carried.nil, fun _ h => by cases h⟩

theorem Lands.sendGatewayTx (text : String) (ix : ParsedIx) :
    Extends World.landed (withContext text (sendGatewayTx ctx ix)) (Lands ctx [ix]) := by
  refine ((extends_sendGatewayTx ix).mapError (Report.wrap text)).mono ?_
  rintro r new ⟨r₀, rfl, h⟩
  exact ⟨(h.wrap text).carried, fun _ hv => (h.wrap text).ok hv⟩

/-- **The concurrent sends**: each item is sent at most once, in whatever order. -/
theorem Lands.drainSends {job : Nat × ParsedIx → EStateM Report World Unit}
    (hjob : ∀ send, Extends World.landed (job send) (Lands ctx [send.2]))
    (sends : List (Nat × ParsedIx)) :
    Extends World.landed (drainSends ctx job sends) (Lands ctx (sends.map Prod.snd)) := by
  refine Lands.after_reads reads_get fun w _ => (Extends.drain hjob _).mono ?_
  rintro r new ⟨jobs, hd⟩
  refine ⟨?_, fun u hr st hst => ?_⟩
  · rw [hd.appended]
    -- the jobs that ran are some of the sends, in the order they completed in
    have hsub : ((jobs.map Ran.item).map Prod.snd).Subperm (sends.map Prod.snd) :=
      ((hd.sublist.map Prod.snd).subperm).trans ((ctx.rpc.completes _ sends).map _).subperm
    refine Carried.mono ?_ hsub
    have hspec := hd.spec
    clear hd hsub
    induction jobs with
    | nil => exact Carried.nil
    | cons j jobs ih =>
        simp only [List.map_cons, List.flatten_cons]
        exact (hspec j List.mem_cons_self).carried.append
          (ih fun j' hj' => hspec j' (List.mem_cons_of_mem _ hj'))
  · rw [hd.appended] at hst
    obtain ⟨l, hl, hst⟩ := List.mem_flatten.mp hst
    obtain ⟨j, hj, rfl⟩ := List.mem_map.mp hl
    exact (hd.spec j hj).ok _ ((hd.ok hr).2 j hj) st hst

/-! ## The three steps -/

/-- The instructions of the upload, as far as they can be built. -/
def uploadIxs (ctx : Context) (commandId : Bytes32) (payload : List UInt8) : List ParsedIx :=
  (ctx.sdk.initializeMessagePayload ctx.gatewayRootPda ctx.signer commandId
      payload.length).toOption.toList ++
    ((chunksWithOffset payload ctx.sdk.maxChunkSize).filterMap (fun chunk =>
      (ctx.sdk.writeMessagePayload ctx.gatewayRootPda ctx.signer commandId chunk.bytes
        chunk.offset).toOption) ++
    (ctx.sdk.commitMessagePayload ctx.gatewayRootPda ctx.signer commandId).toOption.toList)

theorem tryIntoU64_ok {n m : Nat} (h : tryIntoU64 n = .ok m) : m = n := by
  unfold tryIntoU64 at h
  split at h <;> cases h
  rfl

theorem context_ok {α : Type} {text : String} {r : Except Report α} {v : α}
    (h : context text r = .ok v) : r = .ok v := by
  cases r <;> cases h
  rfl

theorem built_ok {r : Except String ParsedIx} (h : built r = .ok ix) : r = .ok ix := by
  cases r <;> cases h
  rfl

variable {commandId : Bytes32} {payload : List UInt8}

theorem writeInstruction_ok {chunk : ChunkWithOffset} {send : Nat × ParsedIx}
    (h : writeInstruction ctx commandId chunk = .ok send) :
    send.1 = chunk.offset ∧ ctx.sdk.writeMessagePayload ctx.gatewayRootPda ctx.signer commandId
      chunk.bytes chunk.offset = .ok send.2 := by
  unfold writeInstruction at h
  obtain ⟨offset, hoffset, h⟩ := bind_eq_ok h
  obtain ⟨ix, hix, h⟩ := bind_eq_ok h
  cases h
  rw [tryIntoU64_ok (context_ok hoffset)] at hix
  exact ⟨rfl, built_ok (context_ok hix)⟩

/-- The futures of `write` are the chunk writes. -/
theorem mapM_writeInstruction {chunks : List ChunkWithOffset} {futures : List (Nat × ParsedIx)}
    (h : chunks.mapM (writeInstruction ctx commandId) = .ok futures) :
    futures.map Prod.snd = chunks.filterMap fun chunk =>
      (ctx.sdk.writeMessagePayload ctx.gatewayRootPda ctx.signer commandId chunk.bytes
        chunk.offset).toOption := by
  induction chunks generalizing futures with
  | nil => cases h; rfl
  | cons chunk chunks ih =>
      rw [List.mapM_cons] at h
      obtain ⟨send, hsend, h⟩ := bind_eq_ok h
      obtain ⟨rest, hrest, h⟩ := bind_eq_ok h
      cases h
      rw [List.map_cons, ih hrest, List.filterMap_cons, (writeInstruction_ok hsend).2]
      rfl

theorem extends_initializePayload (ctx : Context) (commandId : Bytes32) (payload : List UInt8) :
    Extends World.landed (initializePayload ctx commandId payload) (Lands ctx
      (ctx.sdk.initializeMessagePayload ctx.gatewayRootPda ctx.signer commandId
        payload.length).toOption.toList) := by
  refine Lands.after_reads (reads_ofExcept fun n hn => tryIntoU64_ok (context_ok hn)) fun n hn => ?_
  rw [hn]
  refine Lands.after_reads (reads_ofExcept fun ix hix => built_ok (context_ok hix)) fun ix hix => ?_
  rw [hix]
  exact Lands.sendGatewayTx _ ix

theorem extends_write (ctx : Context) (commandId : Bytes32) (payload : List UInt8) :
    Extends World.landed (write ctx commandId payload) (Lands ctx
      ((chunksWithOffset payload ctx.sdk.maxChunkSize).filterMap fun chunk =>
        (ctx.sdk.writeMessagePayload ctx.gatewayRootPda ctx.signer commandId chunk.bytes
          chunk.offset).toOption)) := by
  refine Lands.after_reads (reads_ofExcept fun futures h => mapM_writeInstruction h)
    fun futures hfutures => ?_
  rw [← hfutures]
  exact Lands.drainSends (fun send => Lands.sendGatewayTx _ send.2) futures

theorem extends_commit (ctx : Context) (commandId : Bytes32) :
    Extends World.landed (commit ctx commandId) (Lands ctx
      (ctx.sdk.commitMessagePayload ctx.gatewayRootPda ctx.signer
        commandId).toOption.toList) := by
  refine Lands.after_reads (reads_ofExcept fun ix hix => built_ok (context_ok hix)) fun ix hix => ?_
  rw [hix]
  exact Lands.sendGatewayTx _ ix

/-- **What the upload lands**: its instructions, one transaction each. -/
theorem extends_upload (message : Message) (payload : List UInt8) :
    Extends World.landed (upload ctx message payload) fun r new =>
      Lands ctx (uploadIxs ctx (messageToCommandId ctx message) payload) r new ∧
        ∀ pda, r = .ok pda → pda = messagePayloadPda ctx (messageToCommandId ctx message) := by
  have hsteps := Lands.bind
    (extends_initializePayload ctx (messageToCommandId ctx message) payload) fun _ =>
      Lands.bind (extends_write ctx (messageToCommandId ctx message) payload) fun _ =>
        extends_commit ctx (messageToCommandId ctx message)
  -- the three steps first, and the address of the payload behind them
  have hassoc : upload ctx message payload =
      (initializePayload ctx (messageToCommandId ctx message) payload >>= fun _ =>
        write ctx (messageToCommandId ctx message) payload >>= fun _ =>
        commit ctx (messageToCommandId ctx message)) >>= fun _ =>
      pure (messagePayloadPda ctx (messageToCommandId ctx message)) := by
    simp only [bind_assoc]
    rfl
  rw [hassoc]
  refine (hsteps.bind (fun _ r new => new = [] ∧
    r = .ok (messagePayloadPda ctx (messageToCommandId ctx message))) fun _ _ _ =>
      fun w => ⟨[], (List.append_nil _).symm, rfl, rfl⟩).mono ?_
  rintro r new (⟨e, rfl, h⟩ | ⟨u, l₁, l₂, rfl, h, rfl, rfl⟩)
  · exact ⟨⟨h.carried, fun _ h => by cases h⟩, fun _ h => by cases h⟩
  · rw [List.append_nil]
    exact ⟨⟨h.carried, fun _ _ => h.ok u rfl⟩, fun pda hpda => (Except.ok.inj hpda).symm⟩

/-! ## The call of the destination program -/

/-- An instruction `destinationInstruction` may come up with. -/
def DestinationIx (ctx : Context) (destinationAddress : Pubkey) (message : Message)
    (payload : List UInt8) (ix : ParsedIx) : Prop :=
  let incomingMessagePda := ctx.sdk.getIncomingMessagePda (messageToCommandId ctx message)
  let payloadPda := messagePayloadPda ctx (messageToCommandId ctx message)
  if destinationAddress = ctx.sdk.itsId then
    ∃ t, ctx.rpc.buildItsInstruction t ctx.signer incomingMessagePda payloadPda message payload =
      .ok ix
  else if destinationAddress = ctx.sdk.governanceId then
    ctx.sdk.calculateGmpIx ctx.signer incomingMessagePda payloadPda message payload = .ok ix
  else ctx.sdk.constructAxelarExecutableIx ctx.signer message payload incomingMessagePda
    payloadPda = .ok ix

/-- The closing instruction of a message. -/
def closeIx (ctx : Context) (message : Message) : Except String ParsedIx :=
  ctx.sdk.closeMessagePayload ctx.gatewayRootPda ctx.signer (messageToCommandId ctx message)

variable {destinationAddress : Pubkey} {message : Message}

theorem reads_destinationInstruction :
    Reads World.landed (destinationInstruction ctx destinationAddress
      (ctx.sdk.getIncomingMessagePda (messageToCommandId ctx message))
      (messagePayloadPda ctx (messageToCommandId ctx message)) message payload)
      (DestinationIx ctx destinationAddress message payload) := by
  unfold destinationInstruction DestinationIx
  by_cases hits : destinationAddress = ctx.sdk.itsId
  · simp only [if_pos hits]
    exact reads_ask fun t ix hix => ⟨t, hix⟩
  simp only [if_neg hits]
  by_cases hgov : destinationAddress = ctx.sdk.governanceId
  · simp only [if_pos hgov]
    exact reads_ofExcept fun ix hix => built_ok hix
  · simp only [if_neg hgov]
    exact Reads.bind (P := fun _ => True) (reads_ofExcept fun _ _ => trivial) fun _ _ =>
      reads_ofExcept fun ix hix => built_ok hix

/-- What the call lands: at most one transaction, which also closes the account. -/
structure Called {α : Type} (ctx : Context) (destinationAddress : Pubkey) (message : Message)
    (payload : List UInt8) (r : Except Report α) (new : List TxStatus) : Prop where
  once : new.length ≤ 1
  carries : ∀ st ∈ new, ∃ ix close, DestinationIx ctx destinationAddress message payload ix ∧
    closeIx ctx message = .ok close ∧ Carries ctx [ix, close] st
  ok : ∀ v, r = .ok v → ∀ st ∈ new, st.isSuccessful = true

theorem Called.nothing {α : Type} {e : Report} :
    Called ctx destinationAddress message payload (.error e : Except Report α) [] where
  once := Nat.zero_le _
  carries := fun _ h => absurd h List.not_mem_nil
  ok := fun _ h => by cases h

theorem extends_sendToDestinationProgram :
    Extends World.landed (sendToDestinationProgram ctx destinationAddress
      (ctx.sdk.getIncomingMessagePda (messageToCommandId ctx message))
      (messagePayloadPda ctx (messageToCommandId ctx message)) message payload)
      (Called ctx destinationAddress message payload) := by
  refine Extends.after_reads reads_destinationInstruction (fun ix hix => ?_) fun _ => Called.nothing
  refine Extends.after_reads (P := fun close => closeIx ctx message = .ok close)
    (reads_ofExcept fun close hclose => built_ok (context_ok hclose)) (fun close hclose => ?_)
    fun _ => Called.nothing
  refine ((extends_sendTransaction [ix, close]).mapError Report.computeBudget).mono ?_
  rintro r new ⟨r₀, rfl, hsent⟩
  refine ⟨hsent.once, fun st hst => ⟨ix, close, hix, hclose, hsent.carries st hst⟩, ?_⟩
  intro sig hsig st hst
  cases r₀ with
  | error e => cases hsig
  | ok sig' =>
      obtain ⟨tx, rfl, -⟩ := hsent.ok sig' rfl
      rw [List.mem_singleton.mp hst]
      rfl

/--
What `uploadAndExecute` lands: transactions of the upload, and then, if all of them
succeeded, the call of the destination program.
-/
structure Attempt (ctx : Context) (destinationAddress : Pubkey) (message : Message)
    (payload : List UInt8) (new uploads call : List TxStatus) : Prop where
  split : new = uploads ++ call
  carried : Carried ctx (uploadIxs ctx (messageToCommandId ctx message) payload) uploads
  once : call.length ≤ 1
  carries : ∀ st ∈ call, ∃ ix close, DestinationIx ctx destinationAddress message payload ix ∧
    closeIx ctx message = .ok close ∧ Carries ctx [ix, close] st
  succeeded : call ≠ [] → ∀ st ∈ uploads, st.isSuccessful = true

/-- **What an attempt at a message lands.** -/
theorem extends_uploadAndExecute :
    Extends World.landed (uploadAndExecute ctx message payload destinationAddress
      (ctx.sdk.getIncomingMessagePda (messageToCommandId ctx message))) fun _ new =>
      ∃ uploads call, Attempt ctx destinationAddress message payload new uploads call := by
  refine ((extends_upload message payload).bind (fun _ _ new => ∃ r₀ : Except Report Signature,
    Called ctx destinationAddress message payload r₀ new) fun pda l h => ?_).mono ?_
  · rw [h.2 pda rfl]
    refine extends_sendToDestinationProgram.ignore.mono ?_
    rintro r new ⟨r₀, -, hcalled⟩
    exact ⟨r₀, hcalled⟩
  · rintro r new (⟨e, -, h, -⟩ | ⟨pda, l₁, l₂, rfl, ⟨h, -⟩, r₀, hcalled⟩)
    · exact ⟨new, [], (List.append_nil _).symm, h.carried, Nat.zero_le _,
        fun _ h => absurd h List.not_mem_nil, fun h => absurd rfl h⟩
    · exact ⟨l₁, l₂, rfl, h.carried, hcalled.once, hcalled.carries, fun _ => h.ok pda rfl⟩

end AxelarRelayer.Proof
