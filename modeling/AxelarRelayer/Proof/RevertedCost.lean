import AxelarRelayer.Proof.PayloadReclaim
import AxelarRelayer.Proof.TaskEvents

/-!
# The cost of a reverted message

A transaction that failed on chain is costed like any other: by its own fee and, if
it holds an executable instruction, by the history of the payload account. Only the
transaction that calls the destination program holds one. A failed call is charged
with the whole upload; a failed transaction of the upload with its own fee alone,
whatever was landed before it.
-/

namespace AxelarRelayer.Proof

open AxelarRelayer AxelarRelayer.Task Effect

variable {ctx : Context} {id : TaskItemId} {task : ExecuteTask} {message : Message}
  {payload : List UInt8} {destinationAddress : Pubkey} {w w' : World} {ix close : ParsedIx}
  {ixs : List ParsedIx} {st : TxStatus} {tx : SolanaTransaction} {new uploads call : List TxStatus}

/-! ## The law -/

/-- What the transactions cost that `execute_task` lands. -/
def attemptFees (ctx : Context) (task : ExecuteTask) (w : World) : Nat :=
  ((landedBy ctx task w).map fun st => st.tx.costInLamports).sum

/-- The execution ends with a transaction that landed and failed. -/
structure FailsOnChain (ctx : Context) (task : ExecuteTask) (w : World) (tx : SolanaTransaction)
    (w' : World) : Prop where
  run : ∃ error source, executeTask ctx task w = .error error w' ∧
    error.computeBudgetError? = some (.transactionError source tx.signature)
  landed : ∃ source, .failed tx source ∈ landedBy ctx task w

/-- No call fails that is made to cost the transaction. -/
structure CostingWorks (ctx : Context) (signature : Signature) (w : World) : Prop where
  fetch : ctx.rpc.fetchTransactionError w.tick signature = none
  lookups : ∀ i, Lookup.Works
    (ctx.rpc.lookup (w.next ctx.rpc).tick i ((w.next ctx.rpc).next ctx.rpc).chain)

/-- The event that is published charges everything the attempt landed. -/
def CoversAttempt (ctx : Context) (id : TaskItemId) (task : ExecuteTask) (r : Relayer) : Prop :=
  ∃ eventId timestamp, (stateOf (processTask ctx ⟨id, .execute task⟩ r)).published =
    r.published ++ [.messageExecuted eventId task.message.messageId task.message.sourceChain
      .reverted timestamp ⟨none, attemptFees ctx task r.world⟩]

/-- The transaction holds an executable instruction for another program than the gateway. -/
def CallsDestination (ctx : Context) (tx : SolanaTransaction) : Prop :=
  ∃ ix ∈ tx.ixs, ix.programId ≠ ctx.sdk.gatewayId ∧ ctx.sdk.codec.isAxelarMessage ix.data = true

/-- What the history of the payload account charges besides this attempt, on the chain of `w'`. -/
def foreignFees (ctx : Context) (task : ExecuteTask) (w w' : World) : Nat :=
  (((w'.chain.range (messagePayloadPda ctx (messageToCommandId ctx (composeMessage ctx task))) none
    none).filter fun st => st ∉ landedBy ctx task w).map
      (contribution ctx.sdk.codec ctx.sdk.gatewayId Gas.countsUpload)).sum

/-! ## What a landed transaction carries -/

theorem Carries.tx_ixs (h : Carries ctx ixs st) :
    ∃ price limit, st.tx.ixs = setComputeUnitPrice price :: setComputeUnitLimit limit :: ixs := by
  obtain ⟨sent, t, receipt, error, ⟨t', fees, limit, -, -, rfl⟩, rfl⟩ := h
  cases error <;> exact ⟨_, _, rfl⟩

theorem Carries.mentions {account : Pubkey} (h : Carries ctx ixs st) (hix : ix ∈ ixs)
    (haccount : account ∈ ix.accounts) : st.mentions account = true := by
  obtain ⟨sent, t, receipt, error, ⟨t', fees, limit, -, -, rfl⟩, rfl⟩ := h
  have hkeys : ∀ error, (confirmedStatus ctx t (setComputeUnitPrice (averageFee fees) ::
      setComputeUnitLimit limit :: ixs) receipt error).mentions account = true := by
    intro error
    have hin : account ∈ (ctx.signer :: (setComputeUnitPrice (averageFee fees) ::
        setComputeUnitLimit limit :: ixs).flatMap fun ix => ix.accounts ++ [ix.programId]) := by
      refine List.mem_cons_of_mem _ (List.mem_flatMap.mpr ⟨ix, ?_, List.mem_append_left _ haccount⟩)
      exact List.mem_cons_of_mem _ (List.mem_cons_of_mem _ hix)
    cases error <;> exact List.contains_iff_mem.mpr (List.mem_eraseDups.mpr hin)
  exact hkeys error

/-- Every instruction of the gateway that the attempt lands is one of the upload. -/
theorem Attempt.counts (hlaws : PayloadLaws ctx)
    (h : Attempt ctx destinationAddress message payload new uploads call) (hst : st ∈ new)
    (hix : ix ∈ st.tx.ixs) (hid : ix.programId = ctx.sdk.gatewayId)
    {g : Gas.GatewayInstruction} (hg : ctx.sdk.codec.gatewayInstruction ix.data = some g) :
    Gas.countsUpload g = true := by
  rw [h.split] at hst
  rcases List.mem_append.mp hst with hst | hst
  · -- a transaction of the upload: its third instruction comes from the upload
    obtain ⟨item, hitem, hcarries⟩ := h.carried.mem hst
    obtain ⟨price, limit, hixs⟩ := hcarries.tx_ixs
    rw [hixs] at hix
    simp only [List.mem_cons, List.not_mem_nil, or_false] at hix
    rcases hix with rfl | rfl | rfl
    · exact absurd hid hlaws.computeBudget.1
    · exact absurd hid hlaws.computeBudget.1
    · obtain ⟨-, -, g', hg', hdata⟩ := hlaws.upload _ _ ix hitem
      obtain rfl := Option.some.inj (hdata.symm.trans hg)
      simp only [List.mem_cons, List.not_mem_nil, or_false] at hg'
      rcases hg' with rfl | rfl | rfl <;> rfl
  · -- the call: of its instructions only the close one is the gateway's
    obtain ⟨execute, close, hexecute, hclose, hcarries⟩ := h.carries st hst
    obtain ⟨price, limit, hixs⟩ := hcarries.tx_ixs
    rw [hixs] at hix
    simp only [List.mem_cons, List.not_mem_nil, or_false] at hix
    rcases hix with rfl | rfl | rfl | rfl
    · exact absurd hid hlaws.computeBudget.1
    · exact absurd hid hlaws.computeBudget.1
    · rw [(hlaws.destination _ _ _ _ hexecute).notGateway hid] at hg
      cases hg
    · obtain rfl := Option.some.inj ((hlaws.close _ _ hclose).2.symm.trans hg)
      rfl

/-- Whatever calls the destination is the call, and has the form the costing expects. -/
theorem Attempt.form_of_callsDestination (hlaws : PayloadLaws ctx)
    (h : Attempt ctx destinationAddress message payload new uploads call)
    (hst : st ∈ new) (hcalls : CallsDestination ctx st.tx) :
    st ∈ call ∧ ∃ price limit execute close, ExecuteForm ctx.sdk.codec ctx.sdk.gatewayId
      (messagePayloadPda ctx (messageToCommandId ctx message)) st.tx price limit execute close := by
  obtain ⟨ix, hix, hid, hmsg⟩ := hcalls
  rw [h.split] at hst
  rcases List.mem_append.mp hst with hst | hst
  · -- no instruction of the upload is a message, so no upload calls the destination
    obtain ⟨item, hitem, hcarries⟩ := h.carried.mem hst
    obtain ⟨price, limit, hixs⟩ := hcarries.tx_ixs
    rw [hixs] at hix
    simp only [List.mem_cons, List.not_mem_nil, or_false] at hix
    rcases hix with rfl | rfl | rfl
    · rw [hlaws.computeBudget.2.1] at hmsg
      cases hmsg
    · rw [hlaws.computeBudget.2.2] at hmsg
      cases hmsg
    · exact absurd (hlaws.upload _ _ ix hitem).1 hid
  · obtain ⟨execute, close, hexecute, hclose, hcarries⟩ := h.carries st hst
    obtain ⟨price, limit, hixs⟩ := hcarries.tx_ixs
    refine ⟨hst, setComputeUnitPrice price, setComputeUnitLimit limit, execute, close, ?_⟩
    -- of the four instructions only the execute one is a message
    have hsame : ix = execute := by
      rw [hixs] at hix
      simp only [List.mem_cons, List.not_mem_nil, or_false] at hix
      rcases hix with rfl | rfl | rfl | rfl
      · rw [hlaws.computeBudget.2.1] at hmsg
        cases hmsg
      · rw [hlaws.computeBudget.2.2] at hmsg
        cases hmsg
      · rfl
      · exact absurd (hlaws.close _ _ hclose).1 hid
    subst hsame
    have haccount := (hlaws.destination _ _ _ _ hexecute).payloadAccount hmsg
    exact {
      ixs := hixs
      price := ⟨hlaws.computeBudget.1, hlaws.computeBudget.2.1 price⟩
      limit := ⟨hlaws.computeBudget.1, hlaws.computeBudget.2.2 limit⟩
      execute := ⟨hid, hmsg, haccount⟩
      close := hlaws.close _ _ hclose
      mentions := hcarries.mentions List.mem_cons_self (List.mem_of_getElem? haccount) }

/-! ## What the history charges -/

theorem matchesIx_of_ne {counts : Gas.GatewayInstruction → Bool} {codec : Gas.Codec}
    {gatewayProgramId : Pubkey} (h : ix.programId ≠ gatewayProgramId) :
    Gas.matchesIx codec gatewayProgramId counts ix = false := by
  unfold Gas.matchesIx
  cases codec.gatewayInstruction ix.data with
  | none => rfl
  | some g => exact if_pos h

/-- A successful transaction of the upload is charged once. -/
theorem Carries.contribution_upload (hlaws : PayloadLaws ctx) {commandId : Bytes32}
    (hix : ix ∈ uploadIxs ctx commandId payload) (h : Carries ctx [ix] st)
    (hok : st.isSuccessful = true) :
    contribution ctx.sdk.codec ctx.sdk.gatewayId Gas.countsUpload st = st.tx.costInLamports := by
  obtain ⟨price, limit, hixs⟩ := h.tx_ixs
  obtain ⟨hid, -, g, hg, hdata⟩ := hlaws.upload _ _ ix hix
  have hcounts : Gas.matchesIx ctx.sdk.codec ctx.sdk.gatewayId Gas.countsUpload ix = true := by
    rw [Gas.matchesIx, hdata]
    simp only [List.mem_cons, List.not_mem_nil, or_false] at hg
    rcases hg with rfl | rfl | rfl <;> simp [hid, Gas.countsUpload]
  have hprice : Gas.matchesIx ctx.sdk.codec ctx.sdk.gatewayId Gas.countsUpload
      (setComputeUnitPrice price) = false := matchesIx_of_ne hlaws.computeBudget.1
  have hlimit : Gas.matchesIx ctx.sdk.codec ctx.sdk.gatewayId Gas.countsUpload
      (setComputeUnitLimit limit) = false := matchesIx_of_ne hlaws.computeBudget.1
  have hone : multiplicity ctx.sdk.codec ctx.sdk.gatewayId Gas.countsUpload st.tx = 1 := by
    rw [multiplicity, hixs]
    simp [hcounts, hprice, hlimit]
  rw [TxStatus.eq_successful hok, contribution, hone, Nat.one_mul]
  rfl

/-- When the call failed, the history charges the attempt for its upload. -/
theorem Attempt.sum_contribution (hlaws : PayloadLaws ctx) {source : TransactionError}
    (h : Attempt ctx destinationAddress message payload new uploads [.failed tx source]) :
    tx.costInLamports +
        (new.map (contribution ctx.sdk.codec ctx.sdk.gatewayId Gas.countsUpload)).sum =
      (new.map fun st => st.tx.costInLamports).sum := by
  have huploads : uploads.map (contribution ctx.sdk.codec ctx.sdk.gatewayId Gas.countsUpload) =
      uploads.map fun st => st.tx.costInLamports := by
    refine List.map_congr_left fun st hst => ?_
    obtain ⟨ix, hix, hcarries⟩ := h.carried.mem hst
    exact hcarries.contribution_upload hlaws hix (h.succeeded (List.cons_ne_nil _ _) st hst)
  rw [h.split, List.map_append, List.map_append, List.sum_append, List.sum_append, huploads]
  simp only [List.map_cons, List.map_nil, List.sum_cons, List.sum_nil, contribution, TxStatus.tx]
  omega

/-- A history is what was landed of it, and the rest. -/
theorem sum_range_split {c : Chain} {pda : Pubkey} {landed : List TxStatus} (f : TxStatus → Nat)
    (hnodup : landed.Nodup) (hchain : ∀ st ∈ landed, st ∈ c.history)
    (hmentions : ∀ st ∈ landed, st.mentions pda = true) :
    ((c.range pda none none).map f).sum = (landed.map f).sum +
      (((c.range pda none none).filter fun st => st ∉ landed).map f).sum := by
  have hrange : (c.range pda none none).Nodup :=
    (List.Nodup.of_map TxStatus.signature c.distinct).filter _
  have hperm : ((c.range pda none none).filter fun st => st ∈ landed).Perm landed := by
    refine (List.perm_ext_iff_of_nodup (hrange.filter _) hnodup).mpr fun st => ?_
    rw [List.mem_filter, decide_eq_true_iff, Chain.mem_range]
    exact ⟨fun h => h.2, fun h => ⟨⟨hchain st h, hmentions st h, trivial, trivial⟩, h⟩⟩
  rw [← List.sum_map_filter_add_sum_map_filter_not (fun st => st ∈ landed) f,
    (hperm.map f).sum_eq]

/-! ## The two cases -/

/-- What the execution lands is one attempt. -/
theorem attempt_landedBy (ctx : Context) (task : ExecuteTask) (w : World) :
    ∃ destinationAddress uploads call, Attempt ctx destinationAddress (composeMessage ctx task)
      task.payload (landedBy ctx task w) uploads call := by
  have hext : Extends World.landed (executeTask ctx task) fun _ new =>
      ∃ destinationAddress uploads call, Attempt ctx destinationAddress (composeMessage ctx task)
        task.payload new uploads call := extends_executeTask task
  obtain ⟨new, hnew, h⟩ := hext w
  rw [landedBy, hnew, List.drop_left]
  exact h

theorem landedBy_nodup (ctx : Context) (task : ExecuteTask) (w : World) :
    ((landedBy ctx task w).map TxStatus.signature).Nodup :=
  (((List.drop_sublist _ _).map _).nodup) (World.landed_nodup _)

theorem mem_history_of_landedBy (h : stateOf (executeTask ctx task w) = w')
    (hst : st ∈ landedBy ctx task w) : st ∈ w'.chain.history := by
  rw [landedBy, h] at hst
  exact (World.landed_sublist w').subset (List.mem_of_mem_drop hst)

/-- A failed transaction of the upload is charged with its own fee. -/
theorem reportedFee_skipped (hlaws : PayloadLaws ctx) (hst : st ∈ landedBy ctx task w)
    (hcalls : ¬ CallsDestination ctx st.tx) (w' : World) :
    reportedFee ctx st.tx w' = st.tx.costInLamports := by
  obtain ⟨destinationAddress, uploads, call, hattempt⟩ := attempt_landedBy ctx task w
  have hskip : ∀ ix ∈ st.tx.ixs, ∀ (lookup : Gas.Lookup) (total : Nat),
      Gas.chargeIx ctx.sdk.codec ctx.sdk.gatewayId lookup total ix = .ok total := by
    intro ix hix lookup total
    refine chargeIx_skipped (fun hid g hg => hattempt.counts hlaws hst hix hid hg)
      (fun hid => ?_) lookup total
    by_contra hmsg
    exact hcalls ⟨ix, hix, hid, Bool.not_eq_false _ ▸ hmsg⟩
  rw [reportedFee, computeTotalGas_skipped hskip]
  rfl

/-- **A failed call is charged with the whole attempt**, and with what else the history holds. -/
theorem reportedFee_called (hlaws : PayloadLaws ctx) {source : TransactionError}
    (hrun : stateOf (executeTask ctx task w) = w') (hst : .failed tx source ∈ landedBy ctx task w)
    (hcalls : CallsDestination ctx tx) (hworks : CostingWorks ctx tx.signature w') :
    reportedFee ctx tx (w'.next ctx.rpc) = min (attemptFees ctx task w +
      foreignFees ctx task w ((w'.next ctx.rpc).next ctx.rpc)) Saturating.MAX := by
  obtain ⟨destinationAddress, uploads, call, hattempt⟩ := attempt_landedBy ctx task w
  obtain ⟨hcall, price, limit, execute, close, hform⟩ :=
    hattempt.form_of_callsDestination hlaws hst hcalls
  -- an attempt calls the destination once, so the failed call is the last transaction
  have hone : call = [.failed tx source] := by
    obtain ⟨st, rfl⟩ := List.length_eq_one_iff.mp
      (Nat.le_antisymm hattempt.once (List.length_pos_of_mem hcall))
    rw [List.mem_singleton.mp hcall]
  subst hone
  -- the costing looks at the history of the payload account, and finds the attempt there
  have hmentions : ∀ st ∈ landedBy ctx task w, st.mentions (messagePayloadPda ctx
      (messageToCommandId ctx (composeMessage ctx task))) = true := by
    intro st hst
    rw [hattempt.split] at hst
    rcases List.mem_append.mp hst with hst | hst
    · obtain ⟨ix, hix, hcarries⟩ := hattempt.carried.mem hst
      exact hcarries.mentions List.mem_cons_self (hlaws.upload _ _ ix hix).2.1
    · rw [List.mem_singleton.mp hst]
      exact hform.mentions
  have hchain : ∀ st ∈ landedBy ctx task w,
      st ∈ ((w'.next ctx.rpc).next ctx.rpc).chain.history := by
    intro st hst
    have hle : w'.chain ≤ ((w'.next ctx.rpc).next ctx.rpc).chain :=
      Chain.le_trans (Chain.le_confirmAll _ _) (Chain.le_confirmAll _ _)
    exact Chain.mem_of_le hle (mem_history_of_landedBy hrun hst)
  -- that history is the attempt and what others landed
  have hsplit := sum_range_split (contribution ctx.sdk.codec ctx.sdk.gatewayId Gas.countsUpload)
    (List.Nodup.of_map _ (landedBy_nodup ctx task w)) hchain hmentions
  have hsum := hattempt.sum_contribution hlaws
  have hcharged : Gas.computeTotalGas ctx.sdk.codec ctx.sdk.gatewayId tx (fun i =>
      ctx.rpc.lookup (w'.next ctx.rpc).tick i ((w'.next ctx.rpc).next ctx.rpc).chain) =
        .ok (min (countedTotal _ _ _ _ tx) Saturating.MAX) :=
    computeTotalGas_execute hform (hworks.lookups 2)
  rw [reportedFee, hcharged]
  change min (countedTotal _ _ _ _ tx) _ = _
  rw [ctx.rpc.lookup_chain, countedTotal, hsplit, ← Nat.add_assoc, hsum]
  rfl

/-- The transaction that failed can be fetched, as long as no call fails. -/
theorem fetch_failed {source : TransactionError} (hrun : stateOf (executeTask ctx task w) = w')
    (hst : .failed tx source ∈ landedBy ctx task w) (hworks : CostingWorks ctx tx.signature w') :
    fetchTransaction ctx tx.signature w' = .ok (.failed tx source) (w'.next ctx.rpc) := by
  have hstatus : (w'.next ctx.rpc).chain.status? tx.signature = some (.failed tx source) :=
    Chain.status?_of_mem (Chain.mem_of_le (Chain.le_confirmAll _ _)
      (mem_history_of_landedBy hrun hst))
  have hfetchable : ¬ Unfetchable ctx tx.signature w' := by
    rintro (hfetch | hnone)
    · exact hfetch hworks.fetch
    · rw [hstatus] at hnone
      cases hnone
  obtain ⟨st, hfetched, hsame⟩ := fetchTransaction_ok hfetchable
  rw [hfetched, Option.some.inj (hsame.symm.trans hstatus)]

/-- The event charges what the costing makes of the failed transaction. -/
theorem coversAttempt_iff_reportedFee {r : Relayer} (hfails : FailsOnChain ctx task r.world tx w')
    (hopen : ∀ t, ctx.rpc.amplifierSend t = .ok ()) (hworks : CostingWorks ctx tx.signature w') :
    CoversAttempt ctx id task r ↔
      reportedFee ctx tx (w'.next ctx.rpc) = attemptFees ctx task r.world := by
  obtain ⟨error, source, hrun, herror⟩ := hfails.run
  obtain ⟨source', hlanded⟩ := hfails.landed
  have hfetched := fetch_failed (by rw [hrun, stateOf_error]) hlanded hworks
  -- the error names the transaction, and it can be fetched
  have hevent : failureEvent ctx id task error w' = .ok _ _ :=
    (congrFun (failureEvent_transactionError herror) _).trans (revertedEvent_run hfetched)
  have hreturned : error ≠ .panicked := by
    rintro rfl
    cases herror
  have hpublished := processTask_event hreturned hrun hevent hopen
  rw [CoversAttempt, hpublished, stateOf_ok]
  constructor
  · rintro ⟨eventId, timestamp, hsame⟩
    obtain ⟨-, hevent⟩ := List.append_inj' hsame rfl
    simp only [messageExecutedEvent, List.cons.injEq, Event.messageExecuted.injEq, Token.mk.injEq,
      Int.ofNat_inj] at hevent
    exact hevent.1.2.2.2.2.2.2
  · intro hfee
    have hcharged : reportedFee ctx (TxStatus.failed tx source').tx (w'.next ctx.rpc) =
        attemptFees ctx task r.world := hfee
    rw [hcharged]
    exact ⟨_, _, rfl⟩

/-- One transaction costs what the attempt costs if the others were free. -/
theorem attemptFees_eq_iff (hst : st ∈ landedBy ctx task w) :
    st.tx.costInLamports = attemptFees ctx task w ↔
      ∀ other ∈ landedBy ctx task w, other.signature ≠ st.signature →
        other.tx.costInLamports = 0 := by
  have hnodup := landedBy_nodup ctx task w
  obtain ⟨l₁, l₂, hsplit⟩ := List.append_of_mem hst
  rw [hsplit, List.map_append, List.map_cons, List.nodup_middle, List.nodup_cons] at hnodup
  rw [attemptFees, hsplit]
  rw [List.map_append, List.map_cons, List.sum_append, List.sum_cons]
  constructor
  · intro hsum other hother hne
    have hrest : other ∈ l₁ ++ l₂ := by
      rcases List.mem_append.mp hother with hin | hin
      · exact List.mem_append_left _ hin
      · rcases List.mem_cons.mp hin with rfl | hin
        · exact absurd rfl hne
        · exact List.mem_append_right _ hin
    -- one fee is at most the sum of the fees of the others, which is zero
    have hle := List.le_sum_of_mem
      (List.mem_map_of_mem (f := fun st : TxStatus => st.tx.costInLamports) hrest)
    rw [List.map_append, List.sum_append] at hle
    omega
  · intro hfree
    have hzero : ∀ l : List TxStatus, (∀ other ∈ l, other ∈ l₁ ++ l₂) →
        (l.map fun st => st.tx.costInLamports).sum = 0 := by
      intro l hl
      refine List.sum_eq_zero_iff.mpr fun n hn => ?_
      obtain ⟨other, hother, rfl⟩ := List.mem_map.mp hn
      refine hfree other ?_ fun hsame => hnodup.1 ?_
      · rcases List.mem_append.mp (hl other hother) with hin | hin
        · exact List.mem_append_left _ hin
        · exact List.mem_append_right _ (List.mem_cons_of_mem _ hin)
      · rw [← hsame, ← List.map_append]
        exact List.mem_map_of_mem (hl other hother)
    rw [hzero l₁ fun _ h => List.mem_append_left _ h, hzero l₂ fun _ h => List.mem_append_right _ h]
    omega

/--
**When the reported cost covers the attempt.** For an execution that ends with a
transaction that landed and failed: either this is the call of the destination
program, the fees are below the clamp and nobody else's upload is in the history of
the payload account, or everything else the attempt landed was free.
-/
theorem cost_covers_iff (ctx : Context) (id : TaskItemId) (task : ExecuteTask) (r : Relayer)
    (tx : SolanaTransaction) (w' : World) (hlaws : PayloadLaws ctx)
    (hopen : ∀ t, ctx.rpc.amplifierSend t = .ok ())
    (hfails : FailsOnChain ctx task r.world tx w') (hworks : CostingWorks ctx tx.signature w') :
    CoversAttempt ctx id task r ↔
      (CallsDestination ctx tx ∧ attemptFees ctx task r.world ≤ Saturating.MAX ∧
        (foreignFees ctx task r.world ((w'.next ctx.rpc).next ctx.rpc) = 0 ∨
          attemptFees ctx task r.world = Saturating.MAX)) ∨
      (¬ CallsDestination ctx tx ∧ ∀ st ∈ landedBy ctx task r.world, st.signature ≠ tx.signature →
        st.tx.costInLamports = 0) := by
  obtain ⟨error, source, hrun, -⟩ := hfails.run
  obtain ⟨source', hlanded⟩ := hfails.landed
  have hstate : stateOf (executeTask ctx task r.world) = w' := by rw [hrun, stateOf_error]
  rw [coversAttempt_iff_reportedFee hfails hopen hworks]
  by_cases hcalls : CallsDestination ctx tx
  · -- the call failed: the whole attempt is charged, and what else the history holds
    rw [reportedFee_called hlaws hstate hlanded hcalls hworks]
    constructor
    · intro hfee
      exact Or.inl ⟨hcalls, by omega, by omega⟩
    · rintro (⟨-, hmax, hfee⟩ | ⟨hnot, -⟩)
      · omega
      · exact absurd hcalls hnot
  · -- something else failed: only its own fee is charged
    have hskipped := reportedFee_skipped hlaws hlanded hcalls (w'.next ctx.rpc)
    have hfree := attemptFees_eq_iff hlanded
    simp only [TxStatus.tx] at hskipped hfree
    rw [hskipped, hfree]
    exact ⟨fun h => Or.inr ⟨hcalls, h⟩, fun h => h.elim (fun h => absurd h.1 hcalls) fun h => h.2⟩

/-! ## Two failures -/

/-- The greeting's call, and its first chunk write, where they fail. -/
def failedCall : SolanaTransaction :=
  confirmedTransaction (steadyContext (failsAt 97) []) 44
    [setComputeUnitPrice 0, setComputeUnitLimit 1100,
      ⟨.filled 7, [.filled 20, .filled 21], [97, 104, 101, 108, 108, 111, 33, 33, 33]⟩,
      ⟨.filled 1, [.filled 8, .filled 9, .filled 21], [9]⟩] (receiptAt 44)

def failedWrite : SolanaTransaction :=
  confirmedTransaction (steadyContext (failsAt 7) []) 32
    [setComputeUnitPrice 0, setComputeUnitLimit 1100,
      ⟨.filled 1, [.filled 8, .filled 9, .filled 21], [7, 104, 101, 108, 108]⟩] (receiptAt 32)

/-- A call that fails is reported with the four transactions before it. -/
theorem failedCall_covered :
    CoversAttempt (steadyContext (failsAt 97) []) ⟨1⟩ (greeting 100000) freshRelayer :=
  (cost_covers_iff _ _ _ _ failedCall _ steady_payloadLaws (fun _ => rfl)
    ⟨⟨.computeBudget (.transactionError (.instructionError 2 (.custom 1)) failedCall.signature), _,
      run_eq_error (by decide +kernel), rfl⟩, .instructionError 2 (.custom 1), by decide +kernel⟩
    ⟨rfl, fun _ => ⟨fun _ => rfl, fun _ => rfl⟩⟩).mpr
    (Or.inl ⟨⟨_, List.mem_cons_of_mem _ (List.mem_cons_of_mem _ List.mem_cons_self), by decide, rfl⟩,
      by decide +kernel, Or.inl (by decide +kernel)⟩)

/-- **The law fails**: a chunk write that fails is reported without the initialization before it. -/
theorem failedWrite_uncovered : ¬ ∀ (ctx : Context) (id : TaskItemId) (task : ExecuteTask)
    (r : Relayer) (tx : SolanaTransaction) (w' : World), PayloadLaws ctx →
    (∀ t, ctx.rpc.amplifierSend t = .ok ()) → FailsOnChain ctx task r.world tx w' →
    CostingWorks ctx tx.signature w' →
    foreignFees ctx task r.world ((w'.next ctx.rpc).next ctx.rpc) = 0 →
    CoversAttempt ctx id task r := by
  intro hall
  obtain ⟨eventId, timestamp, hpublished⟩ := hall (steadyContext (failsAt 7) []) ⟨1⟩
    (greeting 100000) freshRelayer failedWrite _ steady_payloadLaws (fun _ => rfl)
    ⟨⟨.wrap "failed to  write message payload at offset 0" (.wrap "irrecoverable error"
      (.computeBudget (.transactionError (.instructionError 2 (.custom 1)) failedWrite.signature))),
      _, run_eq_error (by decide +kernel), rfl⟩, .instructionError 2 (.custom 1), by decide +kernel⟩
    ⟨rfl, fun _ => ⟨fun _ => rfl, fun _ => rfl⟩⟩ (by decide +kernel)
  have hcost : ((stateOf (processTask (steadyContext (failsAt 7) [])
      ⟨⟨1⟩, .execute (greeting 100000)⟩ freshRelayer)).published.map fun
        | .messageExecuted _ _ _ _ _ cost => cost.amount
        | _ => 0) = [5000] := by decide +kernel
  rw [hpublished] at hcost
  have hfees : ((attemptFees (steadyContext (failsAt 7) []) (greeting 100000)
      freshRelayer.world : Nat) : Int) = 5000 := List.head_eq_of_cons_eq hcost
  exact absurd hfees (by decide +kernel)

end AxelarRelayer.Proof
