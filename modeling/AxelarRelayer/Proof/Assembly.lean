import AxelarRelayer.Proof.Network
import AxelarRelayer.Proof.TransactionLaws
import AxelarRelayer.Task.DequeSender

/-!
# The instructions of a transaction

Twice an instruction is pushed to the front of the deque, twice the deque is made
contiguous, and `send_tx` looks at one of its two slices. Whatever the layout of the
deque was, that slice is a price, a limit and the instructions the sender was given.
`send_tx` can sign it, since the evaluation signed a transaction of the same keys to
simulate it, and it sends what it signed (`transaction_assembled`). Where the relayer's
signature is enough the sender does what `TxSender` does with the bare list of the
instructions (`sendTransaction_refines`).
-/

namespace AxelarRelayer.Proof

open AxelarRelayer AxelarRelayer.Task Effect

variable {ctx : Context} {growth : VecDeque.Growth}

/-- `ixs` behind a price and a limit. -/
def assembledIxs (price units : Nat) (ixs : List Instruction) : List Instruction :=
  computeBudgetIx (setComputeUnitPrice price) :: computeBudgetIx (setComputeUnitLimit units) :: ixs

/-! ## The deque -/

open DequeSender

theorem isContiguous_simulationIxs (ixs : VecDeque Instruction) :
    (simulationIxs growth ixs).isContiguous :=
  VecDeque.isContiguous_makeContiguous _

theorem contents_simulationIxs (ixs : VecDeque Instruction) :
    (simulationIxs growth ixs).contents =
      computeBudgetIx (setComputeUnitLimit 1399850) :: ixs.contents := by
  rw [simulationIxs, VecDeque.contents_makeContiguous, VecDeque.contents_pushFront]

/-- The simulation sees the placeholder in front of the instructions. -/
theorem validSlice_simulationIxs (ixs : VecDeque Instruction) :
    (simulationIxs growth ixs).validSlice =
      computeBudgetIx (setComputeUnitLimit 1399850) :: ixs.contents := by
  rw [VecDeque.validSlice_of_isContiguous (isContiguous_simulationIxs ixs), contents_simulationIxs]

/-- The deque of the evaluated sender. -/
def evaluatedDeque (growth : VecDeque.Growth) (ixs : VecDeque Instruction)
    (computeUnitPrice computeBudget : ParsedIx) : VecDeque Instruction :=
  ((simulationIxs growth ixs).pushFront growth (computeBudgetIx computeUnitPrice)).makeContiguous.setSlice
    1 (computeBudgetIx computeBudget) (one_lt_len_priced growth _ _)

/-- **One slice holds everything**: index 1 was the placeholder. -/
theorem asSlices_evaluatedDeque (ixs : VecDeque Instruction)
    (computeUnitPrice computeBudget : ParsedIx) :
    (evaluatedDeque growth ixs computeUnitPrice computeBudget).asSlices =
      (computeBudgetIx computeUnitPrice :: computeBudgetIx computeBudget :: ixs.contents, []) := by
  have hcontiguous := VecDeque.isContiguous_makeContiguous
    ((simulationIxs growth ixs).pushFront growth (computeBudgetIx computeUnitPrice))
  rw [evaluatedDeque, VecDeque.asSlices_of_isContiguous
    (VecDeque.isContiguous_setSlice _ _ hcontiguous), VecDeque.contents_setSlice _ _ hcontiguous,
    VecDeque.contents_makeContiguous, VecDeque.contents_pushFront, contents_simulationIxs]
  rfl

/-! ## What is signed -/

/-- The instructions of the transaction that is simulated. -/
def simulatedIxs (ixs : List Instruction) : List Instruction :=
  computeBudgetIx (setComputeUnitLimit 1399850) :: ixs

/-- The price in front mentions the program only that the limit mentions too. -/
theorem mem_mentions_assembledIxs (price units : Nat) (ixs : List Instruction) (payer : Pubkey)
    (account : AccountMeta) : account ∈ mentions (simulatedIxs ixs) payer ↔
      account ∈ mentions (assembledIxs price units ixs) payer := by
  have hlimit : ∀ units', (computeBudgetIx (setComputeUnitLimit units')).programId =
      COMPUTE_BUDGET_ID := fun _ => rfl
  have hprice : (computeBudgetIx (setComputeUnitPrice price)).programId = COMPUTE_BUDGET_ID := rfl
  have hnone : ∀ ix, (computeBudgetIx ix).accounts = [] := fun _ => rfl
  simp only [mentions, simulatedIxs, assembledIxs, List.flatMap_cons, List.mem_append,
    List.mem_cons, hlimit, hprice, hnone, List.not_mem_nil, or_false, or_self_left]

theorem keySet_assembledIxs (price units : Nat) (ixs : List Instruction) (payer : Pubkey) :
    keySet (assembledIxs price units ixs) payer = keySet (simulatedIxs ixs) payer := by
  ext key
  simp only [keySet, List.mem_toFinset, List.mem_map, mem_mentions_assembledIxs price units]

theorem reads_computeBudget_deque (ixs : List Instruction) :
    Reads World.landed (DequeSender.computeBudget ctx ixs) fun budget =>
      (∃ units, budget.1 = setComputeUnitLimit units) ∧
        ∃ tx, Transaction.newSignedWithPayer ctx.sign ixs ctx.signer budget.2 = some tx := by
  refine Reads.bind (P := fun _ => True) (reads_ask fun _ _ _ => trivial) fun hash _ => ?_
  refine reads_newSignedWithPayer.bind fun tx htx => ?_
  refine ((reads_simulatedBudget _).mapError _).bind fun ix hix => ?_
  obtain ⟨limit, -, rfl⟩ := hix
  exact reads_pure ⟨⟨limit, rfl⟩, tx, htx⟩

/-- The price, the limit and the blockhash, asked for on a slice. -/
theorem reads_answers (firstStarts : Bool) (ixs : List Instruction) :
    Reads World.landed (tryJoin firstStarts
      (Effect.mapError .computeBudget (computeUnitPrice ctx (ixs.map Instruction.parsed)))
      (DequeSender.computeBudget ctx ixs)) fun answers =>
        (∃ price units, answers.1 = setComputeUnitPrice price ∧
          answers.2.1 = setComputeUnitLimit units) ∧
        ∃ tx, Transaction.newSignedWithPayer ctx.sign ixs ctx.signer answers.2.2 = some tx := by
  refine (Reads.tryJoin _ ((reads_computeUnitPrice _).mapError _)
    (reads_computeBudget_deque ixs)).mono ?_
  rintro answers ⟨⟨t, fees, -, hprice⟩, ⟨units, hunits⟩, tx, htx⟩
  exact ⟨⟨averageFee fees, units, hprice, hunits⟩, tx, htx⟩

/-- What a successful evaluation leaves behind, and that its transaction was signed. -/
theorem reads_evaluateDeque (ixs : VecDeque Instruction) :
    Reads World.landed (DequeSender.evaluateComputeIxs ctx growth (DequeSender.new ixs))
      fun sender => (∃ price units,
        sender.ixs.asSlices = (assembledIxs price units ixs.contents, [])) ∧
        ∃ tx, Transaction.newSignedWithPayer ctx.sign (simulatedIxs ixs.contents) ctx.signer
          sender.hash = some tx := by
  refine reads_get.bind fun w _ => (reads_answers _ _).bind fun answers hanswers => ?_
  obtain ⟨computeUnitPrice, computeBudget, hash⟩ := answers
  obtain ⟨⟨price, units, hprice, hunits⟩, tx, htx⟩ := hanswers
  dsimp only at hprice hunits htx
  rw [DequeSender.new, validSlice_simulationIxs] at htx
  refine reads_pure ⟨⟨price, units, ?_⟩, tx, htx⟩
  rw [hprice, hunits]
  exact asSlices_evaluatedDeque ixs _ _

/-- What `send_tx` signs and sends: a price, a limit and `ixs`. -/
structure Assembled (ctx : Context) (ixs : List Instruction) (sender : DequeSender Evaluated)
    (price units : Nat) (tx : Transaction) : Prop where
  /-- the first slice of the deque holds everything -/
  slices : sender.ixs.asSlices = (assembledIxs price units ixs, [])
  signed : Transaction.newSignedWithPayer ctx.sign (assembledIxs price units ixs) ctx.signer
    sender.hash = some tx
  signatures : tx.signatures = [ctx.sign tx.message]
  /-- the instructions in their order, and every key they mention -/
  compiled : Compiled (assembledIxs price units ixs) ctx.signer tx.message
  /-- they are what the transaction says, as long as an index has room for its keys -/
  parsedIxs : (keySet (assembledIxs price units ixs) ctx.signer).card ≤ 2 ^ 8 →
    tx.parsedIxs = (assembledIxs price units ixs).map Instruction.parsed
  sent : DequeSender.sendTx ctx sender =
    Effect.mapError .computeBudget (Task.sendTx ctx ⟨tx.parsedIxs⟩)

/-- Signing what can be signed, and going on with it. -/
theorem newSignedWithPayer_bind {α : Type} {ixs : List Instruction} {hash : Bytes32}
    {tx : Transaction} (f : Transaction → EStateM Report World α)
    (h : Transaction.newSignedWithPayer ctx.sign ixs ctx.signer hash = some tx) :
    newSignedWithPayer ctx ixs hash >>= f = f tx := by
  funext w
  rw [run_bind_ok f (newSignedWithPayer_some w h)]

/--
**No instruction is lost.** For a deque in any layout: once `evaluate_compute_ixs` has
succeeded, the first slice of the deque holds everything, and what `send_tx` signs and
sends is a price, a limit and the instructions the sender was given, in their order.
-/
theorem transaction_assembled (ctx : Context) (growth : VecDeque.Growth)
    (ixs : VecDeque Instruction) (w w' : World) (sender : DequeSender Evaluated)
    (h : DequeSender.evaluateComputeIxs ctx growth (DequeSender.new ixs) w = .ok sender w') :
    ∃ price units tx, Assembled ctx ixs.contents sender price units tx := by
  obtain ⟨⟨price, units, hslices⟩, simulated, hsimulated⟩ := (reads_evaluateDeque ixs).value h
  -- what could be signed to be simulated can be signed to be sent
  obtain ⟨tx, htx⟩ := transactionLaws.exists_signed_congr _ _ _ _ _ sender.hash _
    (mem_mentions_assembledIxs price units ixs.contents ctx.signer) hsimulated
  have hcompiled := compiled_of_signed htx
  have hsent : DequeSender.sendTx ctx sender =
      Effect.mapError .computeBudget (Task.sendTx ctx ⟨tx.parsedIxs⟩) := by
    rw [DequeSender.sendTx, hslices, newSignedWithPayer_bind _ htx]
  exact ⟨price, units, tx, hslices, htx, (transactionLaws.signed _ _ _ _ _ htx).2, hcompiled,
    hcompiled.parsedIxs, hsent⟩

/-! ## The sender on a list -/

section Refinement

variable {ixs : List Instruction}

/-- What is assembled from instructions the relayer can sign can be signed, and says what they say. -/
theorem exists_signed_assembledIxs (hpayer : PayerSigns ixs ctx.signer)
    (hfew : (keySet (simulatedIxs ixs) ctx.signer).card ≤ 2 ^ 8) (price units : Nat)
    (hash : Bytes32) : ∃ tx,
      Transaction.newSignedWithPayer ctx.sign (assembledIxs price units ixs) ctx.signer hash =
        some tx ∧ tx.parsedIxs = (assembledIxs price units ixs).map Instruction.parsed := by
  have hassembled : PayerSigns (assembledIxs price units ixs) ctx.signer := by
    simp only [PayerSigns, assembledIxs, List.forall_mem_cons]
    exact ⟨fun _ h => absurd h List.not_mem_nil, fun _ h => absurd h List.not_mem_nil, hpayer⟩
  rw [← keySet_assembledIxs price units] at hfew
  obtain ⟨tx, htx⟩ := transactionLaws.exists_signed ctx.sign _ _ hash hassembled hfew
  exact ⟨tx, htx, (compiled_of_signed htx).parsedIxs hfew⟩

theorem exists_signed_simulatedIxs (hpayer : PayerSigns ixs ctx.signer)
    (hfew : (keySet (simulatedIxs ixs) ctx.signer).card ≤ 2 ^ 8) (hash : Bytes32) : ∃ tx,
      Transaction.newSignedWithPayer ctx.sign (simulatedIxs ixs) ctx.signer hash = some tx ∧
        tx.parsedIxs = (simulatedIxs ixs).map Instruction.parsed := by
  obtain ⟨assembled, hassembled, -⟩ := exists_signed_assembledIxs hpayer hfew 0 0 hash
  obtain ⟨tx, htx⟩ := transactionLaws.exists_signed_congr _ _ _ _ _ hash _
    (fun account => (mem_mentions_assembledIxs 0 0 ixs ctx.signer account).symm) hassembled
  exact ⟨tx, htx, (compiled_of_signed htx).parsedIxs hfew⟩

/-- The budget of the signed transaction, less its blockhash, is that of the list. -/
theorem computeBudget_refines (hpayer : PayerSigns ixs ctx.signer)
    (hfew : (keySet (simulatedIxs ixs) ctx.signer).card ≤ 2 ^ 8) :
    DequeSender.computeBudget ctx (simulatedIxs ixs) >>= (fun budget => pure budget.1) =
      Effect.mapError .computeBudget
        (Task.computeBudget ctx ((simulatedIxs ixs).map Instruction.parsed)) := by
  rw [Task.computeBudget, Effect.mapError_bind, mapError_ask, DequeSender.computeBudget, bind_assoc]
  congr 1
  funext hash
  obtain ⟨tx, htx, hparsed⟩ := exists_signed_simulatedIxs hpayer hfew hash
  rw [newSignedWithPayer_bind _ htx, hparsed, bind_assoc]
  simp only [pure_bind, bind_pure]

/-- From any blockhash the same is sent. -/
theorem sendTx_refines (hpayer : PayerSigns ixs ctx.signer)
    (hfew : (keySet (simulatedIxs ixs) ctx.signer).card ≤ 2 ^ 8)
    {sender : DequeSender Evaluated} {price units : Nat}
    (hslices : sender.ixs.asSlices = (assembledIxs price units ixs, [])) :
    DequeSender.sendTx ctx sender = Effect.mapError .computeBudget
      (Task.sendTx ctx ⟨(assembledIxs price units ixs).map Instruction.parsed⟩) := by
  obtain ⟨tx, htx, hparsed⟩ := exists_signed_assembledIxs hpayer hfew price units sender.hash
  rw [DequeSender.sendTx, hslices, newSignedWithPayer_bind _ htx, hparsed]

/-- The deque's sender asks for the price and the limit first, and then it sends. -/
theorem sendTransaction_deque (ix : VecDeque Instruction) (w : World) :
    DequeSender.sendTransaction ctx growth ix w = (tryJoin (ctx.rpc.priceFirst w.tick)
      (Effect.mapError .computeBudget
        (computeUnitPrice ctx ((simulatedIxs ix.contents).map Instruction.parsed)))
      (DequeSender.computeBudget ctx (simulatedIxs ix.contents)) >>= fun answers =>
        pure (⟨evaluatedDeque growth ix answers.1 answers.2.1, answers.2.2⟩ :
          DequeSender Evaluated) >>= DequeSender.sendTx ctx) w := by
  have hslice : (simulationIxs growth ix).validSlice = simulatedIxs ix.contents :=
    validSlice_simulationIxs ix
  rw [← hslice, ← bind_assoc]
  rfl

/-- And so does the list's. -/
theorem sendTransaction_list (ixs : List Instruction) (w : World) :
    Effect.mapError Report.computeBudget
      (Task.sendTransaction ctx (ixs.map Instruction.parsed)) w =
        (tryJoin (ctx.rpc.priceFirst w.tick)
          (Effect.mapError .computeBudget
            (computeUnitPrice ctx ((simulatedIxs ixs).map Instruction.parsed)))
          (Effect.mapError .computeBudget
            (Task.computeBudget ctx ((simulatedIxs ixs).map Instruction.parsed))) >>=
          fun pair => Effect.mapError .computeBudget
            (Task.sendTx ctx ⟨[pair.1, pair.2] ++ ixs.map Instruction.parsed⟩)) w := by
  have hlist : Task.sendTransaction ctx (ixs.map Instruction.parsed) w =
      (tryJoin (ctx.rpc.priceFirst w.tick)
        (computeUnitPrice ctx ((simulatedIxs ixs).map Instruction.parsed))
        (Task.computeBudget ctx ((simulatedIxs ixs).map Instruction.parsed)) >>=
        fun pair => pure (⟨[pair.1, pair.2] ++ ixs.map Instruction.parsed⟩ :
          EffectiveTxSender Evaluated) >>= Task.sendTx ctx) w := by
    rw [← bind_assoc]
    rfl
  rw [Effect.mapError, hlist, ← Effect.mapError_tryJoin]
  simp only [pure_bind]
  rw [← Effect.mapError_bind]
  rfl

end Refinement

/--
**The deque is a list to everyone else.** Where the relayer's signature is enough for the
instructions and their keys are few, a send from a deque in any layout is the send of the
list of its elements.
-/
theorem sendTransaction_refines (ix : VecDeque Instruction)
    (hpayer : PayerSigns ix.contents ctx.signer)
    (hfew : (keySet (simulatedIxs ix.contents) ctx.signer).card ≤ 2 ^ 8) :
    DequeSender.sendTransaction ctx growth ix = Effect.mapError .computeBudget
      (Task.sendTransaction ctx (ix.contents.map Instruction.parsed)) := by
  funext w
  rw [sendTransaction_deque, sendTransaction_list, ← computeBudget_refines hpayer hfew]
  -- from the same price and limit the same is sent, whatever the blockhash
  refine congrFun (Eq.trans ((reads_answers _ _).bind_congr (g := fun answers =>
    Effect.mapError .computeBudget
      (Task.sendTx ctx ⟨[answers.1, answers.2.1] ++ ix.contents.map Instruction.parsed⟩))
    fun answers hanswers => ?_) (tryJoin_bind_congr _ _ _ Prod.fst fun _ => rfl)) w
  obtain ⟨computeUnitPrice, computeBudget, hash⟩ := answers
  obtain ⟨⟨price, units, hprice, hunits⟩, -⟩ := hanswers
  dsimp only at hprice hunits ⊢
  rw [pure_bind, hprice, hunits, sendTx_refines hpayer hfew (asSlices_evaluatedDeque ix _ _)]
  rfl

/-! ## A full buffer -/

/-- Three instructions in a full buffer of three slots, the first one in the last slot. -/
def wrappedDeque : VecDeque Instruction where
  buf i := some ⟨.filled 1, [⟨.filled 9, true, true⟩], [UInt8.ofNat i]⟩
  capacity := 3
  head := 2
  len := 3
  len_le := Nat.le_refl _
  head_lt := Or.inl (by decide)
  init := fun _ _ => rfl

/-- The buffer grows, the second push wraps around again, and one slice holds all five. -/
theorem wrapped_assembled : wrappedDeque.contents.map Instruction.data = [[2], [0], [1]] ∧
    ∃ sender w', DequeSender.evaluateComputeIxs (steadyContext alwaysConfirmed [7])
        (.amortized 4) (DequeSender.new wrappedDeque) (World.start .empty) = .ok sender w' ∧
      ∃ price units tx, Assembled (steadyContext alwaysConfirmed [7]) wrappedDeque.contents sender
          price units tx ∧
        tx.parsedIxs = (assembledIxs price units wrappedDeque.contents).map Instruction.parsed := by
  have hok : (resultOf (DequeSender.evaluateComputeIxs (steadyContext alwaysConfirmed [7])
      (.amortized 4) (DequeSender.new wrappedDeque) (World.start .empty))).isOk = true := by
    decide +kernel
  cases hrun : DequeSender.evaluateComputeIxs (steadyContext alwaysConfirmed [7]) (.amortized 4)
      (DequeSender.new wrappedDeque) (World.start .empty) with
  | error e w' =>
      rw [hrun] at hok
      cases hok
  | ok sender w' =>
      obtain ⟨price, units, tx, h⟩ := transaction_assembled (steadyContext alwaysConfirmed [7])
        (.amortized 4) wrappedDeque (World.start .empty) w' sender hrun
      have hfew : (keySet (assembledIxs price units wrappedDeque.contents) (.filled 9)).card ≤
          2 ^ 8 := by
        rw [keySet_assembledIxs]
        exact (card_keySet_le _ _).trans (by decide)
      exact ⟨by decide, sender, w', rfl, price, units, tx, h, h.parsedIxs hfew⟩

end AxelarRelayer.Proof
