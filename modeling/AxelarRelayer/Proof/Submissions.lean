import AxelarRelayer.Proof.Estimate
import AxelarRelayer.Proof.TransactionLaws

/-!
# What is signed and submitted

The ledger of submissions holds everything the relayer signed, whether it was
simulated, sent, or run on the estimation node. A send submits its own
instructions behind the compute budget ones (`SendShape`); an upload submits its
instructions and nothing else, and so does every stage of an estimate.
-/

namespace AxelarRelayer.Proof

open AxelarRelayer AxelarRelayer.Task Effect

variable {ctx : Context} {ixs : List ParsedIx} {ix : ParsedIx} {message : Message}
  {payload : List UInt8} {commandId : Bytes32} {destinationAddress : Pubkey}

/-- All instructions of a submitted transaction. -/
def submittedIxs : Submission → List ParsedIx
  | .simulated ixs => ixs
  | .sent ixs _ => ixs
  | .sentToSimnet ixs => ixs

/-- Besides instructions from `items` the transaction holds only some that name no account. -/
def CarriesOnly (items : List ParsedIx) (sub : Submission) : Prop :=
  ∀ ix ∈ submittedIxs sub, ix ∈ items ∨ ix.accounts = []

theorem CarriesOnly.mono {items items' : List ParsedIx} (hsub : items ⊆ items') (sub : Submission)
    (h : CarriesOnly items sub) : CarriesOnly items' sub :=
  fun ix hix => (h ix hix).imp_left fun hin => hsub hin

theorem reads_ask_submitted {ε α : Type} {P : α → Prop} {toError : String → ε}
    {answer : Nat → Except String α} (h : ∀ t v, answer t = .ok v → P v) :
    Reads World.submitted (ask ctx.rpc toError answer) P :=
  reads_ask_of (fun _ => rfl) h

/-- An answer of which nothing needs to be known. -/
theorem reads_answer {ε α : Type} (toError : String → ε) (answer : Nat → Except String α) :
    Reads World.submitted (ask ctx.rpc toError answer) fun _ => True :=
  reads_ask_submitted fun _ _ _ => trivial

/-- Submitting appends one entry. -/
theorem extends_submit {ε : Type} (sub : Submission) (h : sub.landed? = none) :
    Extends World.submitted (modify fun w => w.submit sub h : EStateM ε World PUnit)
      fun r new => r = .ok () ∧ new = [sub] :=
  fun _ => ⟨[sub], rfl, rfl, rfl⟩

/-! ## Sends -/

/-- What a send of `ixs` hands to the node. -/
inductive SendShape (ixs : List ParsedIx) : Submission → Prop where
  | simulated (units : Nat) : SendShape ixs (.simulated (setComputeUnitLimit units :: ixs))
  | sent (price units : Nat) (landed : Option TxStatus)
      (h : ∀ st, landed = some st →
        st.tx.ixs = setComputeUnitPrice price :: setComputeUnitLimit units :: ixs) :
      SendShape ixs (.sent (setComputeUnitPrice price :: setComputeUnitLimit units :: ixs) landed)

theorem SendShape.carriesOnly {sub : Submission} (h : SendShape ixs sub) : CarriesOnly ixs sub := by
  intro ix hix
  cases h with
  | simulated units =>
      rcases List.mem_cons.mp hix with rfl | hix
      · exact Or.inr rfl
      · exact Or.inl hix
  | sent price units landed h =>
      rcases List.mem_cons.mp hix with rfl | hix
      · exact Or.inr rfl
      rcases List.mem_cons.mp hix with rfl | hix
      · exact Or.inr rfl
      · exact Or.inl hix

/-- The result of the simulation, if that is what ended a computation. -/
def simulationFailure? {α : Type} : Except ComputeBudgetError α →
    Option RpcSimulateTransactionResult
  | .error (.simulationError result) => some result
  | _ => none

/--
What a computation that ends in a send submits. A success or a failed simulation
tells that something was submitted.
-/
structure Submits {α : Type} (ixs : List ParsedIx) (r : Except ComputeBudgetError α)
    (new : List Submission) : Prop where
  shape : ∀ sub ∈ new, SendShape ixs sub
  ok : ∀ v, r = .ok v → new ≠ []
  simulation : simulationFailure? r ≠ none → new ≠ []

/-- An error that is not a failed simulation, with nothing submitted. -/
theorem Submits.nothing {α : Type} {e : ComputeBudgetError}
    (he : simulationFailure? (.error e : Except ComputeBudgetError α) = none) :
    Submits ixs (.error e : Except ComputeBudgetError α) [] where
  shape := fun _ h => absurd h List.not_mem_nil
  ok := fun _ h => by cases h
  simulation := fun h => absurd he h

/-- An error is the same error for whatever comes next. -/
theorem Submits.error {α β : Type} {e : ComputeBudgetError} {new : List Submission}
    (h : Submits ixs (.error e : Except ComputeBudgetError α) new) :
    Submits ixs (.error e : Except ComputeBudgetError β) new where
  shape := h.shape
  ok := fun _ h => by cases h
  simulation := fun hs => h.simulation (by cases e <;> exact hs)

/-- What succeeded stays submitted, however the rest ends. -/
theorem Submits.then {α β : Type} {v : α} {r : Except ComputeBudgetError β}
    {new : List Submission} (h : Submits ixs (.ok v : Except ComputeBudgetError α) new) :
    Submits ixs r new where
  shape := h.shape
  ok := fun _ _ => h.ok v rfl
  simulation := fun _ => h.ok v rfl

/-- A call that fails is not a failed simulation. -/
theorem extends_ask_generic {α : Type} (answer : Nat → Except String α) :
    Extends World.submitted (ask ctx.rpc ComputeBudgetError.generic answer) fun r new =>
      new = [] ∧ simulationFailure? r = none := by
  intro w
  rw [ask, run_bind_ok _ (rfl : call ctx.rpc w = _)]
  cases answer w.tick with
  | ok v => exact ⟨[], (List.append_nil _).symm, rfl, rfl⟩
  | error text => exact ⟨[], (List.append_nil _).symm, rfl, rfl⟩

theorem extends_simulateTransaction (ixs : List ParsedIx) :
    Extends World.submitted (simulateTransaction ctx ixs) fun _ new =>
      new = [.simulated ixs] := by
  have hsubmit := extends_submit (ε := ComputeBudgetError) (.simulated ixs) rfl
  refine (hsubmit.bind (fun _ _ new => new = []) fun _ _ _ => ?_).mono ?_
  · exact Extends.mono (reads_answer _ _) fun _ _ h => h.1
  · rintro r new (⟨e, -, h, -⟩ | ⟨v, l₁, l₂, rfl, ⟨-, rfl⟩, rfl⟩)
    · cases h
    · rfl

/-- The evaluation of the compute budget submits the simulation. -/
theorem extends_computeBudget (units : Nat) (ixs : List ParsedIx) :
    Extends World.submitted (Task.computeBudget ctx (setComputeUnitLimit units :: ixs))
      fun r new => Submits ixs r new ∧
        ∀ ix, r = .ok ix → ∃ limit, ix = setComputeUnitLimit limit := by
  refine ((extends_ask_generic _).bind (fun _ r new =>
    new = [.simulated (setComputeUnitLimit units :: ixs)] ∧
      ∀ ix, r = .ok ix → ∃ limit, ix = setComputeUnitLimit limit) fun _ _ _ =>
    ((extends_simulateTransaction _).bind (fun _ r new => new = [] ∧
      ∀ ix, r = .ok ix → ∃ limit, ix = setComputeUnitLimit limit) fun result _ _ => ?_).mono
        ?_).mono ?_
  · -- an error of the simulation is thrown; without one the units it used make the limit
    cases result.err with
    | some error => exact reads_throw _
    | none => exact reads_pure ⟨_, rfl⟩
  · rintro r new (⟨e, rfl, rfl⟩ | ⟨result, l₁, l₂, rfl, rfl, rfl, hix⟩)
    · exact ⟨rfl, fun _ h => by cases h⟩
    · exact ⟨rfl, hix⟩
  · rintro r new (⟨e, rfl, rfl, he⟩ | ⟨_, l₁, l₂, rfl, ⟨rfl, -⟩, rfl, hix⟩)
    · exact ⟨(Submits.nothing he).error, fun _ h => by cases h⟩
    · refine ⟨⟨fun sub hsub => ?_, fun _ _ => List.cons_ne_nil _ _,
        fun _ => List.cons_ne_nil _ _⟩, hix⟩
      rw [List.mem_singleton.mp hsub]
      exact .simulated units

theorem extends_computeUnitPrice (ixs : List ParsedIx) :
    Extends World.submitted (computeUnitPrice ctx ixs) fun r new => new = [] ∧
      simulationFailure? r = none ∧ ∀ ix, r = .ok ix → ∃ price, ix = setComputeUnitPrice price := by
  refine ((extends_ask_generic _).bind (fun _ r new => new = [] ∧
    ∃ price, r = .ok (setComputeUnitPrice price)) fun fees _ _ =>
      fun w => ⟨[], (List.append_nil _).symm, rfl, _, rfl⟩).mono ?_
  rintro r new (⟨e, rfl, rfl, he⟩ | ⟨fees, l₁, l₂, rfl, ⟨rfl, -⟩, rfl, price, rfl⟩)
  · exact ⟨rfl, by cases e <;> exact he, fun _ h => by cases h⟩
  · exact ⟨rfl, rfl, fun ix h => ⟨price, (Except.ok.inj h).symm⟩⟩

/-- Both parts of the evaluation, in whichever order they are answered. -/
theorem extends_tryJoin (firstStarts : Bool) (ixs : List ParsedIx) :
    Extends World.submitted (tryJoin firstStarts
      (computeUnitPrice ctx (setComputeUnitLimit 1399850 :: ixs))
      (Task.computeBudget ctx (setComputeUnitLimit 1399850 :: ixs))) fun r new =>
        Submits ixs r new ∧ ∀ pair, r = .ok pair → ∃ price units,
          pair.1 = setComputeUnitPrice price ∧ pair.2 = setComputeUnitLimit units := by
  have hprice : Extends World.submitted
      (computeUnitPrice ctx (setComputeUnitLimit 1399850 :: ixs)) _ :=
    extends_computeUnitPrice _
  have hbudget : Extends World.submitted
      (Task.computeBudget ctx (setComputeUnitLimit 1399850 :: ixs)) _ :=
    extends_computeBudget 1399850 ixs
  have hpure : ∀ pair : ParsedIx × ParsedIx, Extends World.submitted
      (pure pair : EStateM ComputeBudgetError World _) fun r new => new = [] ∧ r = .ok pair :=
    fun pair w => ⟨[], (List.append_nil _).symm, rfl, rfl⟩
  unfold tryJoin
  split
  · -- the price is answered first
    refine (hprice.bind _ fun a _ _ => hbudget.bind _ fun b _ _ => hpure (a, b)).mono ?_
    rintro r new (⟨e, rfl, rfl, he, -⟩ | ⟨a, l₁, l₂, rfl, ⟨rfl, -, ha⟩, hrest⟩)
    · exact ⟨(Submits.nothing he).error, fun _ h => by cases h⟩
    obtain ⟨price, rfl⟩ := ha a rfl
    rcases hrest with ⟨e, rfl, hsub, -⟩ | ⟨b, m₁, m₂, rfl, ⟨hsub, hb⟩, rfl, rfl⟩
    · exact ⟨hsub.error, fun _ h => by cases h⟩
    · obtain ⟨units, rfl⟩ := hb b rfl
      rw [List.append_nil, List.nil_append]
      refine ⟨hsub.then, fun pair h => ⟨price, units, ?_⟩⟩
      rw [← Except.ok.inj h]
      exact ⟨rfl, rfl⟩
  · -- the simulation is answered first
    refine (hbudget.bind _ fun b _ _ => hprice.bind _ fun a _ _ => hpure (a, b)).mono ?_
    rintro r new (⟨e, rfl, hsub, -⟩ | ⟨b, l₁, l₂, rfl, ⟨hsub, hb⟩, hrest⟩)
    · exact ⟨hsub.error, fun _ h => by cases h⟩
    obtain ⟨units, rfl⟩ := hb b rfl
    rcases hrest with ⟨e, rfl, rfl, -, -⟩ | ⟨a, m₁, m₂, rfl, ⟨rfl, -, ha⟩, rfl, rfl⟩
    · rw [List.append_nil]
      exact ⟨hsub.then, fun _ h => by cases h⟩
    · obtain ⟨price, rfl⟩ := ha a rfl
      rw [List.append_nil, List.append_nil]
      refine ⟨hsub.then, fun pair h => ⟨price, units, ?_⟩⟩
      rw [← Except.ok.inj h]
      exact ⟨rfl, rfl⟩

theorem extends_evaluateComputeIxs (ixs : List ParsedIx) :
    Extends World.submitted (evaluateComputeIxs ctx ⟨ixs⟩) fun r new => Submits ixs r new ∧
      ∀ sender, r = .ok sender → ∃ price units,
        sender.ixs = setComputeUnitPrice price :: setComputeUnitLimit units :: ixs := by
  intro w
  have hrun : evaluateComputeIxs ctx ⟨ixs⟩ w = (tryJoin (ctx.rpc.priceFirst w.tick)
      (computeUnitPrice ctx (setComputeUnitLimit 1399850 :: ixs))
      (Task.computeBudget ctx (setComputeUnitLimit 1399850 :: ixs)) >>= fun pair =>
        pure (⟨[pair.1, pair.2] ++ ixs⟩ : EffectiveTxSender Evaluated)) w := rfl
  rw [hrun]
  have hpure : ∀ pair : ParsedIx × ParsedIx, Extends World.submitted
      (pure ⟨[pair.1, pair.2] ++ ixs⟩ : EStateM ComputeBudgetError World
        (EffectiveTxSender Evaluated)) fun r new => new = [] ∧ r = .ok ⟨[pair.1, pair.2] ++ ixs⟩ :=
    fun pair w => ⟨[], (List.append_nil _).symm, rfl, rfl⟩
  have hjoin : Extends World.submitted (tryJoin (ctx.rpc.priceFirst w.tick)
      (computeUnitPrice ctx (setComputeUnitLimit 1399850 :: ixs))
      (Task.computeBudget ctx (setComputeUnitLimit 1399850 :: ixs))) _ :=
    extends_tryJoin _ ixs
  obtain ⟨new, hstate, hnew⟩ := hjoin.bind _ (fun pair _ _ => hpure pair) w
  refine ⟨new, hstate, ?_⟩
  -- the result, whatever it is, is one of the two cases
  revert hnew
  generalize resultOf _ = r
  rintro (⟨e, rfl, hsub, -⟩ | ⟨pair, l₁, l₂, rfl, ⟨hsub, hok⟩, rfl, rfl⟩)
  · exact ⟨hsub.error, fun _ h => by cases h⟩
  · rw [List.append_nil]
    obtain ⟨price, units, hprice, hunits⟩ := hok pair rfl
    refine ⟨hsub.then, fun sender h => ⟨price, units, ?_⟩⟩
    rw [← Except.ok.inj h, ← hprice, ← hunits]
    rfl

theorem extends_confirmOnChain_submitted {ε : Type} (ixs : List ParsedIx) (st : TxStatus) :
    Extends World.submitted (confirmOnChain ixs st : EStateM ε World Bool) fun r new =>
      (∃ landed, new = [.sent ixs landed] ∧ ∀ st', landed = some st' → st' = st) ∧
        ∃ confirmed, r = .ok confirmed := by
  intro w
  unfold confirmOnChain
  split
  · exact ⟨[_], rfl, ⟨_, rfl, fun st' h => (Option.some.inj h).symm⟩, true, rfl⟩
  · exact ⟨[_], rfl, ⟨_, rfl, fun st' h => by cases h⟩, false, rfl⟩

/-- The transaction that is noted is the one that was sent. -/
theorem ixs_confirmedStatus (t : Nat) (ixs : List ParsedIx) (receipt : Receipt)
    (error : Option TransactionError) : (confirmedStatus ctx t ixs receipt error).tx.ixs = ixs := by
  cases error <;> rfl

theorem extends_settle_submitted {ε : Type} (t : Nat) (ixs : List ParsedIx) (receipt : Receipt)
    (landed : Option (Option TransactionError)) :
    Extends World.submitted (settle ctx t ixs receipt landed : EStateM ε World Unit)
      fun r new => (∃ landed, new = [.sent ixs landed] ∧
        ∀ st, landed = some st → st.tx.ixs = ixs) ∧ r = .ok () := by
  cases landed with
  | none => exact fun w => ⟨[_], rfl, ⟨none, rfl, fun st h => by cases h⟩, rfl⟩
  | some status =>
      refine (extends_confirmOnChain_submitted ixs _).ignore.mono fun r new h => ?_
      obtain ⟨r₀, rfl, ⟨landed, hnew, hst⟩, confirmed, rfl⟩ := h
      refine ⟨⟨landed, hnew, fun st h => ?_⟩, rfl⟩
      rw [hst st h, ixs_confirmedStatus]

/-- `send_tx` submits the transaction once and never fails in a simulation. -/
theorem extends_sendTx_submitted (sender : EffectiveTxSender Evaluated) :
    Extends World.submitted (sendTx ctx sender) fun r new =>
      (∃ landed, new = [.sent sender.ixs landed] ∧
        ∀ st, landed = some st → st.tx.ixs = sender.ixs) ∧ simulationFailure? r = none := by
  refine Extends.after_step (fun _ => rfl) (fun _ => rfl) fun t => ?_
  cases ctx.rpc.sendAndConfirmTransaction t sender.ixs with
  | confirmed receipt =>
      refine ((extends_confirmOnChain_submitted sender.ixs _).bind
        (fun _ r new => new = [] ∧ simulationFailure? r = none) fun confirmed _ _ => ?_).mono ?_
      · cases confirmed <;> exact fun w => ⟨[], (List.append_nil _).symm, rfl, rfl⟩
      · rintro r new (⟨e, -, -, _, h⟩ | ⟨_, l₁, l₂, rfl, ⟨⟨landed, rfl, hst⟩, -⟩, rfl, hr⟩)
        · cases h
        · refine ⟨⟨landed, rfl, fun st h => ?_⟩, hr⟩
          rw [hst st h, ixs_confirmedStatus]
  | failed receipt landed error =>
      refine ((extends_settle_submitted t sender.ixs receipt landed).bind
        (fun _ r new => new = [] ∧ simulationFailure? r = none) fun _ _ _ => ?_).mono ?_
      · refine fun w => ⟨[], (List.append_nil _).symm, rfl, ?_⟩
        change simulationFailure? (.error (sendError receipt.signature error)) = none
        unfold sendError
        split <;> rfl
      · rintro r new (⟨e, -, -, h⟩ | ⟨_, l₁, l₂, rfl, ⟨⟨landed, rfl, hst⟩, -⟩, rfl, hr⟩)
        · cases h
        · exact ⟨⟨landed, rfl, hst⟩, hr⟩

/-- **What a send submits.** -/
theorem extends_sendTransaction_submitted (ixs : List ParsedIx) :
    Extends World.submitted (sendTransaction ctx ixs) (Submits ixs) := by
  refine ((extends_evaluateComputeIxs ixs).bind (fun sender r new =>
    (∃ landed, new = [.sent sender.ixs landed] ∧ ∀ st, landed = some st → st.tx.ixs = sender.ixs) ∧
      simulationFailure? r = none)
    fun sender _ _ => extends_sendTx_submitted sender).mono ?_
  rintro r new (⟨e, rfl, hsub, -⟩ | ⟨sender, l₁, l₂, rfl, ⟨hsub, hixs⟩, ⟨landed, rfl, hst⟩, -⟩)
  · exact hsub.error
  · obtain ⟨price, units, hixs⟩ := hixs sender rfl
    refine ⟨fun sub hin => ?_, fun _ _ => by simp, fun _ => by simp⟩
    rcases List.mem_append.mp hin with hin | hin
    · exact hsub.shape sub hin
    · rw [List.mem_singleton.mp hin, hixs]
      exact .sent price units landed fun st h => hixs ▸ hst st h

theorem emits_sendGatewayTx (ix : ParsedIx) :
    Emits World.submitted (sendGatewayTx ctx ix) (SendShape [ix]) := by
  have hsend : Emits World.submitted (sendTransaction ctx [ix]) (SendShape [ix]) :=
    Extends.mono (extends_sendTransaction_submitted [ix]) fun _ _ h => h.shape
  refine hsend.attempt.bind fun r => ?_
  refine (Reads.emits (V := fun _ => True) ?_)
  cases r with
  | ok sig => exact reads_pure trivial
  | error err =>
      dsimp only
      split
      · exact reads_pure trivial
      · exact reads_throw _

/-! ## The upload -/

/-- What an instruction of `items` is sent in. -/
def SentFor (items : List ParsedIx) (sub : Submission) : Prop :=
  ∃ ix ∈ items, SendShape [ix] sub

theorem SentFor.mono {items items' : List ParsedIx} (hsub : items ⊆ items') (sub : Submission)
    (h : SentFor items sub) : SentFor items' sub := by
  obtain ⟨ix, hix, hshape⟩ := h
  exact ⟨ix, hsub hix, hshape⟩

theorem SentFor.carriesOnly {items : List ParsedIx} (sub : Submission) (h : SentFor items sub) :
    CarriesOnly items sub := by
  obtain ⟨ix, hix, hshape⟩ := h
  exact hshape.carriesOnly.mono fun a ha => List.mem_singleton.mp ha ▸ hix

theorem emits_withContext (text : String) (ix : ParsedIx) :
    Emits World.submitted (withContext text (sendGatewayTx ctx ix)) (SendShape [ix]) :=
  (emits_sendGatewayTx ix).mapError _

theorem emits_drainSends {job : Nat × ParsedIx → EStateM Report World Unit}
    (hjob : ∀ send, Emits World.submitted (job send) (SendShape [send.2]))
    (sends : List (Nat × ParsedIx)) :
    Emits World.submitted (drainSends ctx job sends) (SentFor (sends.map Prod.snd)) := by
  refine Emits.after_reads reads_get fun w _ => Emits.drain hjob _ fun send hsend sub hsub => ?_
  exact ⟨send.2, List.mem_map_of_mem ((ctx.rpc.completes _ sends).mem_iff.mp hsend), hsub⟩

theorem emits_initializePayload (ctx : Context) (commandId : Bytes32) (payload : List UInt8) :
    Emits World.submitted (initializePayload ctx commandId payload) (SentFor
      (ctx.sdk.initializeMessagePayload ctx.gatewayRootPda ctx.signer commandId
        payload.length).toOption.toList) := by
  refine Emits.after_reads (reads_ofExcept fun n hn => tryIntoU64_ok (context_ok hn)) fun n hn => ?_
  rw [hn]
  refine Emits.after_reads (reads_ofExcept fun ix hix => built_ok (context_ok hix)) fun ix hix => ?_
  rw [hix]
  exact (emits_withContext _ ix).mono fun sub hsub => ⟨ix, List.mem_cons_self, hsub⟩

theorem emits_write (ctx : Context) (commandId : Bytes32) (payload : List UInt8) :
    Emits World.submitted (write ctx commandId payload) (SentFor
      ((chunksWithOffset payload ctx.sdk.maxChunkSize).filterMap fun chunk =>
        (ctx.sdk.writeMessagePayload ctx.gatewayRootPda ctx.signer commandId chunk.bytes
          chunk.offset).toOption)) := by
  refine Emits.after_reads (reads_ofExcept fun futures h => mapM_writeInstruction h)
    fun futures hfutures => ?_
  rw [← hfutures]
  exact emits_drainSends (fun send => emits_withContext _ send.2) futures

theorem emits_commit (ctx : Context) (commandId : Bytes32) :
    Emits World.submitted (commit ctx commandId) (SentFor
      (ctx.sdk.commitMessagePayload ctx.gatewayRootPda ctx.signer commandId).toOption.toList) := by
  refine Emits.after_reads (reads_ofExcept fun ix hix => built_ok (context_ok hix)) fun ix hix => ?_
  rw [hix]
  exact (emits_withContext _ ix).mono fun sub hsub => ⟨ix, List.mem_cons_self, hsub⟩

/-- **What the upload submits**: its instructions, each in a transaction of its own. -/
theorem emits_upload (message : Message) (payload : List UInt8) :
    Emits World.submitted (upload ctx message payload)
      (SentFor (uploadIxs ctx (messageToCommandId ctx message) payload)) := by
  refine ((emits_initializePayload ctx _ payload).mono
    (SentFor.mono (List.subset_append_left _ _))).bind fun _ => ?_
  refine ((emits_write ctx _ payload).mono (SentFor.mono fun a ha =>
    List.mem_append_right _ (List.mem_append_left _ ha))).bind fun _ => ?_
  refine ((emits_commit ctx _).mono (SentFor.mono fun a ha =>
    List.mem_append_right _ (List.mem_append_right _ ha))).bind fun _ => ?_
  exact (reads_pure (P := fun _ => True) trivial).emits

/-! ## The estimate -/

theorem reads_price (accounts : List Pubkey) :
    Reads World.submitted (buildComputeUnitPriceInstruction ctx accounts) fun ix =>
      accounts.length ≤ 128 ∧ ∃ price, ix = setComputeUnitPrice price :=
  (reads_calculateComputeUnitPrice (fun _ => rfl) accounts).bind fun price hprice =>
    reads_pure ⟨hprice.1, price, rfl⟩

/-- What a stage is about to sign. -/
structure UnsignedStage where
  instructions : List ParsedIx
  blockhash : Bytes32

/-- The first half of a stage: what is asked before anything is signed. -/
def prepareStage (ctx : Context) (instructions : List ParsedIx) :
    EStateM Report World UnsignedStage := do
  let blockhash ← ask ctx.rpc (fun err => .msg ("Failed to get blockhash: " ++ err))
    ctx.rpc.simnetGetLatestBlockhash
  let instructions := setComputeUnitLimit 1400000 :: instructions
  let priorityFeeIx ←
    buildComputeUnitPriceInstruction ctx (instructions.flatMap ParsedIx.accounts)
  return ⟨priorityFeeIx :: instructions, blockhash⟩

/-- What comes after the signing. -/
def submitStage (ctx : Context) (instructions : List ParsedIx) :
    EStateM Report World (Nat × StageMetadata) := do
  let accounts := instructions.flatMap ParsedIx.accounts
  modify fun w => w.submit (.sentToSimnet instructions) rfl
  ask ctx.rpc (fun err => .msg ("Failed to send transaction: " ++ err))
    fun t => ctx.rpc.simnetSendAndConfirmTransaction t instructions
  let meta? ← ask ctx.rpc (fun err => .msg ("Failed to get transaction status: " ++ err))
    fun t => ctx.rpc.simnetGetTransaction t instructions
  match meta? with
  | none => throw (.msg "Transaction metadata not available")
  | some txMeta =>
      match txMeta.computeUnitsConsumed with
      | none => throw (.msg "Missing compute units consumption details")
      | some computeUnitsConsumed => return (txMeta.fee, ⟨computeUnitsConsumed, accounts⟩)

/-- The second half: the signing and the run itself. -/
def runStage (ctx : Context) (prepared : UnsignedStage) :
    EStateM Report World (Nat × StageMetadata) := do
  let _transaction ←
    newSignedWithPayer ctx (prepared.instructions.map ctx.sdk.instruction) prepared.blockhash
  submitStage ctx prepared.instructions

theorem executeAndGetCost_eq (instructions : List ParsedIx) :
    executeAndGetCost ctx instructions = prepareStage ctx instructions >>= runStage ctx := by
  simp only [prepareStage, bind_assoc, pure_bind]
  rfl

theorem reads_prepareStage (instructions : List ParsedIx) :
    Reads World.submitted (prepareStage ctx instructions) fun prepared =>
      (instructions.flatMap ParsedIx.accounts).length ≤ 128 ∧ ∃ price, prepared.instructions =
        setComputeUnitPrice price :: setComputeUnitLimit 1400000 :: instructions := by
  refine (reads_answer _ _).bind fun _ _ => (reads_price _).bind fun ix hix => ?_
  obtain ⟨hfew, price, rfl⟩ := hix
  exact reads_pure ⟨hfew, price, rfl⟩

theorem extends_submitStage (instructions : List ParsedIx) :
    Extends World.submitted (submitStage ctx instructions) fun _ new =>
      new = [.sentToSimnet instructions] := by
  refine ((extends_submit (ε := Report) (.sentToSimnet instructions) rfl).bind
    (fun _ _ new => new = []) fun _ _ _ => ?_).mono ?_
  · refine Extends.mono (Q := fun _ new => new = []) ?_ fun _ _ h => h
    refine Extends.after_reads (reads_answer _ _) (fun _ _ => ?_) fun _ => rfl
    refine Extends.after_reads (reads_answer _ _) (fun meta? _ => ?_) fun _ => rfl
    cases meta? with
    | none => exact fun w => ⟨[], (List.append_nil _).symm, rfl⟩
    | some txMeta =>
        dsimp only
        split <;> exact fun w => ⟨[], (List.append_nil _).symm, rfl⟩
  · rintro r new (⟨e, -, h, -⟩ | ⟨v, l₁, l₂, rfl, ⟨-, rfl⟩, rfl⟩)
    · cases h
    · rfl

/-- **When a stage can be signed**: where its instruction wants no signature but the relayer's. -/
theorem signed_stage_iff {prepared : UnsignedStage} {price : Nat} (hfew : ix.accounts.length ≤ 128)
    (hinstructions : prepared.instructions =
      [setComputeUnitPrice price, setComputeUnitLimit 1400000, ix]) :
    (∃ tx, Transaction.newSignedWithPayer ctx.sign (prepared.instructions.map ctx.sdk.instruction)
      ctx.signer prepared.blockhash = some tx) ↔ PayerSigns [ctx.sdk.instruction ix] ctx.signer := by
  have hprice : (ctx.sdk.instruction (setComputeUnitPrice price)).accounts = [] :=
    List.length_eq_zero_iff.mp (ctx.sdk.length_instruction_accounts _)
  have hlimit : (ctx.sdk.instruction (setComputeUnitLimit 1400000)).accounts = [] :=
    List.length_eq_zero_iff.mp (ctx.sdk.length_instruction_accounts _)
  -- the compute budget instructions have no accounts
  have hsame : PayerSigns (prepared.instructions.map ctx.sdk.instruction) ctx.signer ↔
      PayerSigns [ctx.sdk.instruction ix] ctx.signer := by
    simp [PayerSigns, hinstructions, hprice, hlimit]
  rw [← hsame]
  constructor
  · rintro ⟨tx, htx⟩
    exact transactionLaws.payerSigns _ _ _ _ _ htx
  · intro hpayer
    refine transactionLaws.exists_signed _ _ _ _ hpayer ((card_keySet_le _ _).trans ?_)
    simp only [hinstructions, List.map_cons, List.map_nil, hprice, hlimit,
      Sdk.length_instruction_accounts, List.length_nil, List.sum_cons, List.sum_nil]
    omega

/-- What was signed is submitted. -/
theorem submitted_runStage (prepared : UnsignedStage) {tx : Transaction} (w : World)
    (h : Transaction.newSignedWithPayer ctx.sign (prepared.instructions.map ctx.sdk.instruction)
      ctx.signer prepared.blockhash = some tx) :
    (stateOf (runStage ctx prepared w)).submitted =
      w.submitted ++ [.sentToSimnet prepared.instructions] := by
  have hruns : Extends World.submitted (submitStage ctx prepared.instructions) fun _ new =>
      new = [.sentToSimnet prepared.instructions] := extends_submitStage _
  obtain ⟨new, hnew, rfl⟩ := hruns w
  rw [runStage, run_bind_ok _ (newSignedWithPayer_some w h), hnew]

/-- What cannot be signed is not submitted, and the relayer panics. -/
theorem runStage_panics (prepared : UnsignedStage) (w : World)
    (h : Transaction.newSignedWithPayer ctx.sign (prepared.instructions.map ctx.sdk.instruction)
      ctx.signer prepared.blockhash = none) :
    runStage ctx prepared w = .error .panicked w := by
  rw [runStage, run_bind_error _ (newSignedWithPayer_none w h)]

theorem emits_executeAndGetCost (ix : ParsedIx) :
    Emits World.submitted (executeAndGetCost ctx [ix]) (CarriesOnly [ix]) := by
  rw [executeAndGetCost_eq]
  refine Emits.after_reads (reads_prepareStage [ix]) fun prepared hprepared => ?_
  obtain ⟨-, price, hinstructions⟩ := hprepared
  refine Emits.after_reads reads_newSignedWithPayer fun tx _ => ?_
  refine (extends_submitStage _).mono ?_
  rintro r new rfl sub hsub a ha
  rw [List.mem_singleton.mp hsub, hinstructions] at ha
  rcases List.mem_cons.mp ha with rfl | ha
  · exact Or.inr rfl
  rcases List.mem_cons.mp ha with rfl | ha
  · exact Or.inr rfl
  · exact Or.inl ha

end AxelarRelayer.Proof
