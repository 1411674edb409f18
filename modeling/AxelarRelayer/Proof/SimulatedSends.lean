import AxelarRelayer.Proof.OwnKey

/-!
# Every send was simulated

A transaction is only sent after the same instructions were simulated without an error, and
its two compute budget instructions are worked out from what that simulation used and from
the fees its accounts paid recently. Both answers are given while the task is processed.

`Sends` says so of everything that is submitted between two states. Time passing keeps it,
a simulation and a run on the estimation node keep it, and so does a send as a whole; the
rest of `process_task` only composes these.
-/

namespace AxelarRelayer.Proof

open AxelarRelayer AxelarRelayer.Task Effect

variable {ctx : Context} {ixs : List ParsedIx} {ix : ParsedIx} {message : Message}
  {payload : List UInt8} {destinationAddress pda : Pubkey} {w w' : World}

/-- The simulation that comes before a send of `ixs`. -/
def simulationOf (ixs : List ParsedIx) : Submission :=
  .simulated (setComputeUnitLimit 1399850 :: ixs)

/-- A send of `ixs`, behind two other instructions. -/
def sends (ixs : List ParsedIx) : Submission → Bool
  | .sent (_ :: _ :: carried) _ => carried = ixs
  | _ => false

/-- The limit `compute_budget` derives from the units a simulation used. -/
def budgetFor (units : Nat) : Nat :=
  min (Saturating.add units (units / 10)) MAX_COMPUTE_UNIT_LIMIT

/-- Between two ticks a node answered what the price and the limit of `sent` are made from. -/
def Quoted (ctx : Context) (start stop : Nat) (ixs sent : List ParsedIx) : Prop :=
  ∃ t t' result fees, start ≤ t ∧ t < stop ∧ start ≤ t' ∧ t' < stop ∧
    ctx.rpc.simulateTransaction t (setComputeUnitLimit 1399850 :: ixs) = .ok result ∧
    result.err = none ∧
    ctx.rpc.getRecentPrioritizationFees t' (touchedAccounts ixs) = .ok fees ∧
    sent = setComputeUnitPrice (averageFee fees) ::
      setComputeUnitLimit (budgetFor (result.unitsConsumed.getD 0)) :: ixs

theorem Quoted.mono {start stop start' stop' : Nat} {sent : List ParsedIx}
    (h : Quoted ctx start stop ixs sent) (hstart : start' ≤ start) (hstop : stop ≤ stop') :
    Quoted ctx start' stop' ixs sent := by
  obtain ⟨t, t', result, fees, h₁, h₂, h₃, h₄, hrest⟩ := h
  exact ⟨t, t', result, fees, by omega, by omega, by omega, by omega, hrest⟩

/-- No instructions were sent more often than they had been simulated by then. -/
def SimulatedFirst (new : List Submission) : Prop :=
  ∀ n ixs, (new.take n).countP (sends ixs) ≤ (new.take n).count (simulationOf ixs)

theorem SimulatedFirst.append {l l' : List Submission} (h : SimulatedFirst l)
    (h' : SimulatedFirst l') : SimulatedFirst (l ++ l') := by
  intro n ixs
  have hfirst := h n ixs
  have hlater := h' (n - l.length) ixs
  rw [List.take_append, List.countP_append, List.count_append]
  omega

/-- What is submitted between two states. -/
structure Sends (ctx : Context) (w w' : World) : Prop where
  later : w.tick ≤ w'.tick
  entries : ∃ new, w'.submitted = w.submitted ++ new ∧ SimulatedFirst new ∧
    ∀ sent landed, .sent sent landed ∈ new → ∃ ixs, Quoted ctx w.tick w'.tick ixs sent

theorem Sends.nothing (htick : w.tick ≤ w'.tick) (hsame : w'.submitted = w.submitted) :
    Sends ctx w w' where
  later := htick
  entries := by
    refine ⟨[], by rw [hsame, List.append_nil], fun n ixs => ?_, nofun⟩
    rw [List.take_nil]
    exact Nat.le_refl _

theorem Sends.then {w'' : World} (h : Sends ctx w w') (h' : Sends ctx w' w'') :
    Sends ctx w w'' where
  later := h.later.trans h'.later
  entries := by
    obtain ⟨l, hl, hfirst, hquoted⟩ := h.entries
    obtain ⟨l', hl', hfirst', hquoted'⟩ := h'.entries
    refine ⟨l ++ l', by rw [hl', hl, List.append_assoc], hfirst.append hfirst', ?_⟩
    intro sent landed hmem
    rcases List.mem_append.mp hmem with hmem | hmem
    · obtain ⟨ixs, hq⟩ := hquoted sent landed hmem
      exact ⟨ixs, hq.mono (Nat.le_refl _) h'.later⟩
    · obtain ⟨ixs, hq⟩ := hquoted' sent landed hmem
      exact ⟨ixs, hq.mono h.later (Nat.le_refl _)⟩

instance : IsPreorder World (Sends ctx) where
  refl _ := Sends.nothing (Nat.le_refl _) rfl
  trans _ _ _ := Sends.then

/-- Something that is not sent needs no simulation. -/
theorem Sends.submit (sub : Submission) (h : sub.landed? = none)
    (hsends : ∀ ixs, sends ixs sub = false) (hsent : ∀ sent landed, sub ≠ .sent sent landed) :
    Sends ctx w (w.submit sub h) where
  later := Nat.le_refl _
  entries := by
    refine ⟨[sub], rfl, fun n ixs => ?_, ?_⟩
    · have hnone : ((([sub] : List Submission).take n).countP (sends ixs)) = 0 := by
        rw [List.countP_eq_zero]
        intro a ha
        rw [List.mem_singleton.mp (List.mem_of_mem_take ha), hsends]
        nofun
      omega
    · intro sent landed hmem
      exact absurd (List.mem_singleton.mp hmem).symm (hsent sent landed)

/-! ## The programs that only ask -/

theorem moves_call {ε : Type} : Moves (Sends ctx) (call ctx.rpc : EStateM ε World Nat) :=
  fun _ => Sends.nothing (Nat.le_succ _) rfl

theorem moves_ask {ε α : Type} (toError : String → ε) (answer : Nat → Except String α) :
    Moves (Sends ctx) (ask ctx.rpc toError answer) :=
  moves_call.bind fun _ => moves_ofExcept _

theorem moves_submit {ε : Type} (sub : Submission) (h : sub.landed? = none)
    (hsends : ∀ ixs, sends ixs sub = false) (hsent : ∀ sent landed, sub ≠ .sent sent landed) :
    Moves (Sends ctx) (modify fun w => w.submit sub h : EStateM ε World PUnit) :=
  moves_modify fun _ => Sends.submit sub h hsends hsent

theorem moves_setCache {ε : Type} (pda : Pubkey)
    (entry : Option ExecuteTaskConsumptionBreakdown) :
    Moves (Sends ctx) (modify fun w => w.setCache pda entry : EStateM ε World PUnit) :=
  moves_modify fun _ => Sends.nothing (Nat.le_refl _) rfl

theorem ask_ok {ε α : Type} {toError : String → ε} {answer : Nat → Except String α} {v : α}
    (h : ask ctx.rpc toError answer w = .ok v w') :
    answer w.tick = .ok v ∧ w' = w.next ctx.rpc := by
  obtain ⟨t, w₁, hcall, h⟩ := run_bind_eq_ok h
  cases hcall
  obtain ⟨hanswer, hsame⟩ := ofExcept_eq_ok h
  exact ⟨mapError_eq_ok hanswer, hsame⟩

/-! ## The evaluation -/

theorem moves_simulateTransaction (ixs : List ParsedIx) :
    Moves (Sends ctx) (simulateTransaction ctx ixs) :=
  (moves_submit (.simulated ixs) rfl (fun _ => rfl) fun _ _ h => by cases h).bind fun _ => moves_ask _ _

theorem moves_computeBudget (ixs : List ParsedIx) :
    Moves (Sends ctx) (Task.computeBudget ctx ixs) := by
  refine (moves_ask _ _).bind fun _ => (moves_simulateTransaction ixs).bind fun result => ?_
  cases result.err with
  | some error => exact moves_throw _
  | none => exact moves_pure _

theorem moves_computeUnitPrice (ixs : List ParsedIx) :
    Moves (Sends ctx) (computeUnitPrice ctx ixs) :=
  (moves_ask _ _).bind fun _ => moves_pure _

theorem moves_evaluateComputeIxs (sender : EffectiveTxSender Unevaluated) :
    Moves (Sends ctx) (evaluateComputeIxs ctx sender) := by
  refine moves_get.bind fun w => ?_
  exact (Moves.tryJoin _ (moves_computeUnitPrice _) (moves_computeBudget _)).bind
    fun pair => moves_pure _

theorem computeUnitPrice_ok (h : computeUnitPrice ctx ixs w = .ok ix w') :
    ∃ fees, ctx.rpc.getRecentPrioritizationFees w.tick (touchedAccounts ixs) = .ok fees ∧
      ix = setComputeUnitPrice (averageFee fees) ∧ w' = w.next ctx.rpc := by
  obtain ⟨fees, w₁, hfees, h⟩ := run_bind_eq_ok h
  obtain ⟨hanswer, rfl⟩ := ask_ok hfees
  cases h
  exact ⟨fees, hanswer, rfl, rfl⟩

theorem computeBudget_ok (h : Task.computeBudget ctx ixs w = .ok ix w') :
    ∃ result, ctx.rpc.simulateTransaction (w.tick + 1) ixs = .ok result ∧ result.err = none ∧
      ix = setComputeUnitLimit (budgetFor (result.unitsConsumed.getD 0)) ∧
      w'.tick = w.tick + 2 ∧ w'.submitted = w.submitted ++ [.simulated ixs] := by
  obtain ⟨u, w₁, hblockhash, h⟩ := run_bind_eq_ok h
  obtain ⟨-, rfl⟩ := ask_ok hblockhash
  obtain ⟨result, w₂, hsimulate, h⟩ := run_bind_eq_ok h
  obtain ⟨u, w₃, hsubmit, hsimulate⟩ := run_bind_eq_ok hsimulate
  cases hsubmit
  obtain ⟨hanswer, rfl⟩ := ask_ok hsimulate
  refine ⟨result, hanswer, ?_⟩
  cases herr : result.err with
  | some error =>
      simp only [herr] at h
      cases h
  | none =>
      simp only [herr] at h
      cases h
      exact ⟨rfl, rfl, rfl, rfl⟩

/-- What a send of `ixs` has when it comes to sending. -/
theorem evaluateComputeIxs_ok {sender : EffectiveTxSender Evaluated}
    (h : evaluateComputeIxs ctx ⟨ixs⟩ w = .ok sender w') :
    w'.submitted = w.submitted ++ [simulationOf ixs] ∧
      Quoted ctx w.tick w'.tick ixs sender.ixs := by
  obtain ⟨w₀, w₁, hget, h⟩ := run_bind_eq_ok h
  cases hget
  obtain ⟨pair, w₂, hjoin, h⟩ := run_bind_eq_ok h
  cases h
  unfold tryJoin at hjoin
  split at hjoin
  -- the price is answered first
  · obtain ⟨price, w₁, hprice, hjoin⟩ := run_bind_eq_ok hjoin
    obtain ⟨limit, w₃, hlimit, hjoin⟩ := run_bind_eq_ok hjoin
    cases hjoin
    obtain ⟨fees, hfees, rfl, rfl⟩ := computeUnitPrice_ok hprice
    obtain ⟨result, hresult, herr, rfl, htick, hsubmitted⟩ := computeBudget_ok hlimit
    have hnext : (w.next ctx.rpc).tick = w.tick + 1 := rfl
    rw [hnext] at hresult htick
    exact ⟨hsubmitted, w.tick + 1 + 1, w.tick, result, fees, by omega, by omega, by omega,
      by omega, hresult, herr, hfees, rfl⟩
  -- the simulation is answered first
  · obtain ⟨limit, w₁, hlimit, hjoin⟩ := run_bind_eq_ok hjoin
    obtain ⟨price, w₃, hprice, hjoin⟩ := run_bind_eq_ok hjoin
    cases hjoin
    obtain ⟨result, hresult, herr, rfl, htick, hsubmitted⟩ := computeBudget_ok hlimit
    obtain ⟨fees, hfees, rfl, rfl⟩ := computeUnitPrice_ok hprice
    have hnext : (w₁.next ctx.rpc).tick = w₁.tick + 1 := rfl
    exact ⟨hsubmitted, w.tick + 1, w₁.tick, result, fees, by omega, by omega, by omega,
      by omega, hresult, herr, hfees, rfl⟩

/-! ## One send -/

theorem tick_confirmOnChain {ε : Type} (st : TxStatus) :
    (stateOf ((confirmOnChain ixs st : EStateM ε World Bool) w)).tick = w.tick := by
  unfold confirmOnChain
  split <;> rfl

theorem tick_settle {ε : Type} (t : Nat) (receipt : Receipt)
    (landed : Option (Option TransactionError)) :
    (stateOf ((settle ctx t ixs receipt landed : EStateM ε World Unit) w)).tick = w.tick := by
  cases landed with
  | none => rfl
  | some error =>
      rw [settle, stateOf_ignore]
      exact tick_confirmOnChain _

theorem tick_sendTx (sender : EffectiveTxSender Evaluated) :
    (stateOf (sendTx ctx sender w)).tick = w.tick + 1 := by
  rw [sendTx, run_bind_ok _ (rfl : call ctx.rpc w = .ok w.tick (w.next ctx.rpc))]
  cases ctx.rpc.sendAndConfirmTransaction w.tick sender.ixs with
  | confirmed receipt =>
      dsimp only
      rw [stateOf_bind, tick_confirmOnChain]
      · rfl
      · intro confirmed w'
        cases confirmed <;> rfl
  | failed receipt landed error =>
      dsimp only
      rw [stateOf_bind, tick_settle]
      · rfl
      · intro u w'
        rfl

/-- A simulation and one send of the same instructions. -/
theorem simulatedFirst_send {sent : List ParsedIx} (landed : Option TxStatus)
    (hcarries : sent.drop 2 = ixs) :
    SimulatedFirst [simulationOf ixs, .sent sent landed] := by
  have hsimulation : ∀ others, sends others (simulationOf ixs) = false := fun _ => rfl
  have hsends : ∀ others, sends others (.sent sent landed) = true → others = ixs := by
    intro others h
    unfold sends at h
    split at h
    · rename_i carried _ heq
      cases heq
      exact (of_decide_eq_true h).symm.trans hcarries
    · cases h
  intro n others
  cases n with
  | zero => exact Nat.le_refl _
  | succ n =>
      cases n with
      | zero =>
          rw [List.take_succ_cons, List.take_zero, List.countP_singleton, hsimulation]
          exact Nat.zero_le _
      | succ n =>
          rw [List.take_succ_cons, List.take_succ_cons, List.take_nil, List.countP_cons,
            List.countP_singleton, hsimulation]
          by_cases hother : sends others (.sent sent landed) = true
          · obtain rfl := hsends others hother
            have hone : 1 ≤ [simulationOf others, .sent sent landed].count
                (simulationOf others) := List.count_pos_iff.mpr List.mem_cons_self
            rw [if_pos hother, if_neg Bool.false_ne_true]
            exact hone
          · rw [if_neg hother, if_neg Bool.false_ne_true]
            exact Nat.zero_le _

/-- **A send as a whole** is simulated first. -/
theorem moves_sendTransaction (ixs : List ParsedIx) :
    Moves (Sends ctx) (sendTransaction ctx ixs) := by
  intro w
  have heval : Sends ctx w (stateOf (evaluateComputeIxs ctx ⟨ixs⟩ w)) :=
    moves_evaluateComputeIxs ⟨ixs⟩ w
  cases hrun : evaluateComputeIxs ctx ⟨ixs⟩ w with
  | error e w₁ =>
      rw [hrun] at heval
      rw [sendTransaction, run_bind_error _ hrun]
      exact heval
  | ok sender w₁ =>
      rw [hrun] at heval
      obtain ⟨hsubmitted, hquoted⟩ := evaluateComputeIxs_ok hrun
      have hsend : Extends World.submitted (sendTx ctx sender) _ := extends_sendTx_submitted sender
      obtain ⟨new, hnew, ⟨landed, rfl, -⟩, -⟩ := hsend w₁
      have hlater : w.tick ≤ w₁.tick := heval.later
      have htick : (stateOf (sendTx ctx sender w₁)).tick = w₁.tick + 1 := tick_sendTx sender
      rw [sendTransaction, run_bind_ok _ hrun]
      refine ⟨by omega, [simulationOf ixs, .sent sender.ixs landed], ?_, ?_, ?_⟩
      · rw [hnew, hsubmitted, List.append_assoc]
        rfl
      · obtain ⟨_, _, _, _, -, -, -, -, -, -, -, hsent⟩ := hquoted
        refine simulatedFirst_send landed ?_
        rw [hsent]
        rfl
      · intro sent landed' hmem
        rcases List.mem_cons.mp hmem with hsim | hmem
        · cases hsim
        · cases List.mem_singleton.mp hmem
          exact ⟨ixs, hquoted.mono (Nat.le_refl _) (by omega)⟩

theorem moves_sendGatewayTx (ix : ParsedIx) : Moves (Sends ctx) (sendGatewayTx ctx ix) := by
  refine (moves_sendTransaction [ix]).attempt.bind fun sent => ?_
  cases sent with
  | ok sig => exact moves_pure ()
  | error err =>
      dsimp only
      split
      · exact moves_pure ()
      · exact moves_throw _

theorem moves_drainSends {job : Nat × ParsedIx → EStateM Report World Unit}
    (hjob : ∀ send, Moves (Sends ctx) (job send)) (sends : List (Nat × ParsedIx)) :
    Moves (Sends ctx) (drainSends ctx job sends) :=
  moves_get.bind fun _ => Moves.drain hjob _

/-! ## The upload and the call -/

theorem moves_upload (message : Message) (payload : List UInt8) :
    Moves (Sends ctx) (upload ctx message payload) := by
  have hfirst : ∀ commandId,
      Moves (Sends ctx) (initializePayload ctx commandId payload) := fun _ =>
    (moves_ofExcept _).bind fun _ => (moves_ofExcept _).bind fun ix =>
      (moves_sendGatewayTx ix).mapError _
  have hwrite : ∀ commandId, Moves (Sends ctx) (write ctx commandId payload) := fun _ =>
    (moves_ofExcept _).bind fun futures =>
      moves_drainSends (fun send => (moves_sendGatewayTx send.2).mapError _) futures
  have hcommit : ∀ commandId, Moves (Sends ctx) (commit ctx commandId) := fun _ =>
    (moves_ofExcept _).bind fun ix => (moves_sendGatewayTx ix).mapError _
  exact (hfirst _).bind fun _ => (hwrite _).bind fun _ => (hcommit _).bind fun _ =>
    moves_pure _

theorem moves_destinationInstruction (destinationAddress incomingPda payloadPda : Pubkey)
    (message : Message) (payload : List UInt8) :
    Moves (Sends ctx)
      (destinationInstruction ctx destinationAddress incomingPda payloadPda message payload) := by
  unfold destinationInstruction
  split
  · exact moves_ask _ _
  · split
    · exact moves_ofExcept _
    · exact (moves_ofExcept _).bind fun _ => moves_ofExcept _

theorem moves_uploadAndExecute (message : Message) (payload : List UInt8)
    (destinationAddress incomingPda : Pubkey) :
    Moves (Sends ctx) (uploadAndExecute ctx message payload destinationAddress incomingPda) :=
  (moves_upload message payload).bind fun payloadPda => Moves.ignore
    ((moves_destinationInstruction destinationAddress incomingPda payloadPda message payload).bind
      fun ix => (moves_ofExcept _).bind fun ixClose =>
        (moves_sendTransaction [ix, ixClose]).mapError _)

/-! ## The gas check -/

theorem moves_calculateComputeUnitPrice (accounts : List Pubkey) :
    Moves (Sends ctx) (calculateComputeUnitPrice ctx accounts) := by
  unfold calculateComputeUnitPrice
  split
  · exact moves_throw _
  · exact (moves_ask _ _).bind fun _ => moves_pure _

theorem moves_calculateCost (breakdown : ExecuteTaskConsumptionBreakdown) :
    Moves (Sends ctx) (calculateCost ctx breakdown) := by
  have hstage : ∀ totalFee stage, Moves (Sends ctx) (addStageCost ctx totalFee stage) := by
    intro totalFee stage
    unfold addStageCost
    split
    · exact moves_pure _
    · exact (moves_calculateComputeUnitPrice _).bind fun _ => moves_pure _
  exact (hstage _ _).bind fun _ => (Moves.foldlM hstage _ _).bind fun _ =>
    (hstage _ _).bind fun _ => (hstage _ _).bind fun _ => hstage _ _

/-- A run on the estimation node is no send. -/
theorem moves_executeAndGetCost (instructions : List ParsedIx) :
    Moves (Sends ctx) (executeAndGetCost ctx instructions) := by
  refine (moves_ask _ _).bind fun _ => ?_
  refine ((moves_calculateComputeUnitPrice _).bind fun _ => moves_pure _).bind fun price => ?_
  have hsign : ∀ unsigned blockhash,
      Moves (Sends ctx) (newSignedWithPayer ctx unsigned blockhash) := by
    intro unsigned blockhash
    unfold newSignedWithPayer
    split
    · exact moves_pure _
    · exact moves_throw _
  refine (hsign _ _).bind fun _ => ?_
  refine (moves_submit _ rfl (fun _ => rfl) fun _ _ h => by cases h).bind fun _ => ?_
  refine (moves_ask _ _).bind fun _ => (moves_ask _ _).bind fun meta? => ?_
  cases meta? with
  | none => exact moves_throw _
  | some txMeta =>
      dsimp only
      split
      · exact moves_throw _
      · exact moves_pure _

theorem moves_estimateTotalExecuteCost (message : Message) (payload : List UInt8)
    (destinationAddress : Pubkey) :
    Moves (Sends ctx) (estimateTotalExecuteCost ctx message payload destinationAddress) := by
  have hbuild : Moves (Sends ctx)
      (buildExecuteInstruction ctx message payload destinationAddress) := by
    unfold buildExecuteInstruction
    split
    · exact moves_ask _ _
    · split <;> exact moves_ofExcept _
  have hchunk : ∀ commandId acc chunk,
      Moves (Sends ctx) (estimateChunk ctx commandId acc chunk) := fun _ _ _ =>
    (moves_ofExcept _).bind fun _ => (moves_ofExcept _).bind fun _ =>
      (moves_executeAndGetCost _).bind fun _ => moves_pure _
  refine (moves_ofExcept _).bind fun _ => (moves_ofExcept _).bind fun _ => ?_
  refine (moves_executeAndGetCost _).bind fun _ => ?_
  refine (Moves.foldlM (hchunk _) _ _).bind fun _ => ?_
  refine (moves_ofExcept _).bind fun _ => (moves_executeAndGetCost _).bind fun _ => ?_
  refine hbuild.bind fun _ => (moves_executeAndGetCost _).bind fun _ => ?_
  exact (moves_ofExcept _).bind fun _ => (moves_executeAndGetCost _).bind fun _ => moves_pure _

theorem moves_ensureEnoughGas (message : Message) (payload : List UInt8)
    (destinationAddress pda : Pubkey) (availableGas : Int) :
    Moves (Sends ctx)
      (ensureEnoughGas ctx message payload destinationAddress pda availableGas) := by
  have htaken : Moves (Sends ctx) (modifyGet fun w => (w.cache pda, w.setCache pda none) :
      EStateM Report World (Option ExecuteTaskConsumptionBreakdown)) :=
    fun _ => Sends.nothing (Nat.le_refl _) rfl
  refine htaken.bind fun maybeCached => ?_
  have hcost : Moves (Sends ctx)
      (costOfMessage ctx message payload destinationAddress maybeCached) := by
    cases maybeCached with
    | some breakdown => exact (moves_calculateCost breakdown).bind fun _ => moves_pure _
    | none => exact moves_estimateTotalExecuteCost message payload destinationAddress
  refine hcost.bind fun result => ?_
  dsimp only
  split
  · exact (moves_setCache pda _).bind fun _ => moves_throw _
  · exact moves_pure ()

/-! ## The tasks -/

theorem moves_executeTask (task : ExecuteTask) : Moves (Sends ctx) (executeTask ctx task) := by
  have hread : ∀ pda, Moves (Sends ctx) (incomingMessageAlreadyExecuted ctx pda) := by
    intro pda
    refine (moves_ask _ _).bind fun incomingMessage => ?_
    cases incomingMessage with
    | none => exact moves_throw _
    | some isExecuted => exact moves_pure _
  refine (hread _).bind fun executed => ?_
  split
  · exact moves_pure ()
  · exact (moves_ofExcept _).bind fun _ => (moves_ofExcept _).bind fun _ =>
      (moves_ensureEnoughGas _ _ _ _ _).bind fun _ => moves_uploadAndExecute _ _ _ _

theorem moves_failureEvent (id : TaskItemId) (task : ExecuteTask) (error : Report) :
    Moves (Sends ctx) (failureEvent ctx id task error) := by
  have hfetch : ∀ signature, Moves (Sends ctx) (fetchTransaction ctx signature) := by
    intro signature
    refine moves_call.bind fun t => moves_get.bind fun w => ?_
    split
    · exact moves_throw _
    · split
      · exact moves_throw _
      · exact moves_pure _
  have hgas : ∀ tx, Moves (Sends ctx) (computeTotalGas ctx tx) := fun _ =>
    moves_call.bind fun _ => moves_get.bind fun _ => moves_ofExcept _
  have hupload : ∀ pda, Moves (Sends ctx) (costOfPayloadUploading ctx pda) := fun _ =>
    moves_call.bind fun _ => moves_get.bind fun _ => moves_ofExcept _
  unfold failureEvent
  split
  · exact (hfetch _).bind fun _ => (hgas _).attempt.bind fun _ => moves_pure _
  · split
    · exact moves_pure _
    · refine (hupload _).attempt.bind fun maybeSomeFee => ?_
      cases maybeSomeFee with
      | error err => exact moves_pure _
      | ok fee =>
          dsimp only
          split <;> exact moves_pure _

theorem moves_gatewayTxTask (executeDataBytes : List UInt8) :
    Moves (Sends ctx) (gatewayTxTask ctx executeDataBytes) := by
  have hdrain : ∀ ixs, Moves (Sends ctx) (drainGatewayTxs ctx ixs) := fun _ =>
    moves_drainSends (fun send => moves_sendGatewayTx send.2) _
  unfold gatewayTxTask
  split
  · exact moves_throw _
  · refine (moves_ofExcept _).bind fun ix => (moves_sendGatewayTx ix).bind fun _ =>
      (hdrain _).bind fun _ => ?_
    unfold sendPayloadItems
    split
    · exact (moves_ofExcept _).bind fun ix => moves_sendGatewayTx ix
    · exact hdrain _

theorem moves_refundTask (task : RefundTask) : Moves (Sends ctx) (refundTask ctx task) := by
  refine (moves_ofExcept _).bind fun receiver => ?_
  split
  · exact moves_throw _
  · exact (moves_ofExcept _).bind fun _ => (moves_ofExcept _).bind fun ix =>
      Moves.ignore ((moves_sendTransaction [ix]).mapError _)

/-- The same for a program that may publish. -/
def SendsRelayer (ctx : Context) (r r' : Relayer) : Prop := Sends ctx r.world r'.world

instance : IsPreorder Relayer (SendsRelayer ctx) where
  refl _ := Sends.nothing (Nat.le_refl _) rfl
  trans _ _ _ := Sends.then

theorem moves_onWorld {α : Type} {x : EStateM Report World α} (hx : Moves (Sends ctx) x) :
    Moves (SendsRelayer ctx) (onWorld x) := by
  intro r
  have hworld := hx r.world
  unfold Task.onWorld
  cases hrun : x r.world with
  | ok v w' =>
      rw [hrun] at hworld
      exact hworld
  | error e w' =>
      rw [hrun] at hworld
      exact hworld

theorem moves_publish (event : Event) : Moves (SendsRelayer ctx) (publish ctx event) := by
  intro r
  unfold publish
  split <;> exact Sends.nothing (Nat.le_refl _) rfl

theorem moves_processTask (item : TaskItem) : Moves (SendsRelayer ctx) (processTask ctx item) := by
  obtain ⟨id, task⟩ := item
  cases task with
  | gatewayTx executeData => exact moves_onWorld (moves_gatewayTxTask executeData)
  | execute task =>
      refine (moves_onWorld (moves_executeTask task)).attempt.bind fun executed => ?_
      cases executed with
      | ok u => exact moves_pure ()
      | error error =>
          dsimp only
          split
          · exact moves_throw _
          · exact (moves_onWorld (moves_failureEvent id task error)).bind fun event =>
              moves_publish event
  | refund task => exact moves_onWorld (moves_refundTask task)
  | verify => exact moves_pure ()
  | constructProof => exact moves_pure ()

/--
**Nothing is sent unsimulated or unpriced.** Whatever the task and whatever becomes of it, no
instructions are sent more often than they were simulated before; and every transaction that
is sent has its limit and its price from answers given during this task, the simulation's
without an error.
-/
theorem sends_simulated (ctx : Context) (item : TaskItem) (r : Relayer) :
    SimulatedFirst (submissionsOf ctx item r) ∧
    ∀ sub, sub ∈ submissionsOf ctx item r → ∀ sent landed, sub = .sent sent landed →
      ∃ ixs, Quoted ctx r.world.tick (stateOf (processTask ctx item r)).world.tick ixs sent := by
  have hsends : Sends ctx r.world _ := moves_processTask item r
  obtain ⟨new, hnew, hfirst, hquoted⟩ := hsends.entries
  have heq : submissionsOf ctx item r = new := by
    rw [submissionsOf, hnew, List.drop_left]
  rw [heq]
  refine ⟨hfirst, ?_⟩
  rintro sub hmem sent landed rfl
  exact hquoted sent landed hmem

end AxelarRelayer.Proof
