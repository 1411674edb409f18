import AxelarRelayer.Proof.Admission
import AxelarRelayer.Proof.Network

/-!
# Getting the rent back

The account of a payload is closed by the second instruction of the transaction
that calls the destination program, and by nothing else. Every error between the
initialization and that transaction leaves the account behind, and so does an error
of that transaction itself, which rolls the closing back.

`reclaimed_iff`: an account that was created is closed exactly when that last
transaction is reached and succeeds (`CallLands`). What a send lands is known from
the answer of the node and from the chain it is put on (`landing`).
-/

namespace AxelarRelayer.Proof

open AxelarRelayer AxelarRelayer.Task Effect

variable {ctx : Context} {task : ExecuteTask} {message : Message} {payload : List UInt8}
  {destinationAddress pda : Pubkey} {w w₁ w₂ : World} {ix close : ParsedIx} {ixs : List ParsedIx}
  {st : TxStatus} {sender : EffectiveTxSender Evaluated}

/-- What `execute_task` lands. -/
def landedBy (ctx : Context) (task : ExecuteTask) (w : World) : List TxStatus :=
  (stateOf (executeTask ctx task w)).landed.drop w.landed.length

/-- A successful transaction with this instruction. -/
def Confirmed (landed : List TxStatus) (ix : ParsedIx) : Prop :=
  ∃ tx, .successful tx ∈ landed ∧ ix ∈ tx.ixs

/-- The account of the payload is created during the execution. -/
def AccountCreated (ctx : Context) (task : ExecuteTask) (w : World) : Prop :=
  ∃ ix, ctx.sdk.initializeMessagePayload ctx.gatewayRootPda ctx.signer
    (messageToCommandId ctx (composeMessage ctx task)) task.payload.length = .ok ix ∧
    Confirmed (landedBy ctx task w) ix

/-- It is closed again. -/
def AccountClosed (ctx : Context) (task : ExecuteTask) (w : World) : Prop :=
  ∃ ix, closeIx ctx (composeMessage ctx task) = .ok ix ∧ Confirmed (landedBy ctx task w) ix

/-- The law for one `ExecuteTask`: no rent stays locked. -/
def Reclaims (ctx : Context) (task : ExecuteTask) (w : World) : Prop :=
  AccountCreated ctx task w → AccountClosed ctx task w

/-! ## What a send lands -/

/-- The transaction the chain notes for a send that starts now, if any. -/
def landing (ctx : Context) (ixs : List ParsedIx) (w : World) : Option TxStatus :=
  let noted := match ctx.rpc.sendAndConfirmTransaction w.tick ixs with
    | .confirmed receipt => some (confirmedStatus ctx w.tick ixs receipt none)
    | .failed receipt landed _ => landed.map (confirmedStatus ctx w.tick ixs receipt)
  noted.filter fun st => ((w.next ctx.rpc).chain.confirm? st).isSome

theorem landed_confirmOnChain {ε : Type} (ixs : List ParsedIx) (st : TxStatus) (w : World) :
    (stateOf ((confirmOnChain ixs st : EStateM ε World Bool) w)).landed =
      w.landed ++ ((some st).filter fun st => (w.chain.confirm? st).isSome).toList := by
  unfold confirmOnChain
  split
  · rename_i chain hchain
    rw [stateOf_ok, World.landed_land, Option.filter_some, hchain]
    rfl
  · rename_i hchain
    rw [Option.filter_some, hchain]
    exact (World.landed_submit w _ rfl).trans (List.append_nil _).symm

/-- **What a send lands** is what the node and the chain make of it. -/
theorem landed_sendTx (w : World) :
    (stateOf (sendTx ctx sender w)).landed = w.landed ++ (landing ctx sender.ixs w).toList := by
  rw [sendTx, run_bind_ok _ (rfl : call ctx.rpc w = _), landing]
  cases ctx.rpc.sendAndConfirmTransaction w.tick sender.ixs with
  | confirmed receipt =>
      dsimp only
      rw [stateOf_bind fun confirmed w' => by cases confirmed <;> rfl]
      exact landed_confirmOnChain _ _ _
  | failed receipt landed error =>
      dsimp only
      rw [stateOf_bind fun _ _ => rfl]
      cases landed with
      | none => exact (World.landed_submit _ _ rfl).trans (List.append_nil _).symm
      | some status =>
          rw [settle, stateOf_ignore]
          exact landed_confirmOnChain _ _ _

/-! ## The last transaction -/

/-- The upload ends well, and the transaction that calls the destination and closes succeeds. -/
def CallLands (ctx : Context) (message : Message) (payload : List UInt8)
    (destinationAddress : Pubkey) (w : World) : Prop :=
  ∃ pda w₁ ix w₂ close sender w₃ tx, upload ctx message payload w = .ok pda w₁ ∧
    destinationInstruction ctx destinationAddress
      (ctx.sdk.getIncomingMessagePda (messageToCommandId ctx message)) pda message payload w₁ =
        .ok ix w₂ ∧
    closeIx ctx message = .ok close ∧
    evaluateComputeIxs ctx ⟨[ix, close]⟩ w₂ = .ok sender w₃ ∧
    landing ctx sender.ixs w₃ = some (.successful tx)

/-- If the transaction succeeded, it did not close the account. -/
def LeavesOpen (ctx : Context) (message : Message) (st : TxStatus) : Prop :=
  ∀ tx, st = .successful tx → ∀ close, closeIx ctx message = .ok close → close ∉ tx.ixs

/-- No transaction of the upload closes the account. -/
theorem Carries.leavesOpen (hlaws : PayloadLaws ctx)
    (hix : ix ∈ uploadIxs ctx (messageToCommandId ctx message) payload) (h : Carries ctx [ix] st) :
    LeavesOpen ctx message st := by
  obtain ⟨sent, t, receipt, error, ⟨t', fees, limit, -, -, rfl⟩, rfl⟩ := h
  intro tx htx close hclose hin
  obtain ⟨hprogram, hdecoded⟩ := hlaws.close message close hclose
  have hixs : tx.ixs = [setComputeUnitPrice (averageFee fees), setComputeUnitLimit limit, ix] := by
    cases error with
    | none => exact (TxStatus.successful.inj htx) ▸ rfl
    | some source => cases htx
  rw [hixs] at hin
  simp only [List.mem_cons, List.not_mem_nil, or_false] at hin
  rcases hin with rfl | rfl | rfl
  · exact hlaws.computeBudget.1 hprogram
  · exact hlaws.computeBudget.1 hprogram
  · obtain ⟨-, -, g, hg, hupload⟩ := hlaws.upload _ _ close hix
    rw [hdecoded] at hupload
    cases hupload
    exact absurd hg (by decide)

/-- A landed transaction carries what was sent. -/
theorem landing_ixs {tx : SolanaTransaction} (h : landing ctx ixs w = some (.successful tx)) :
    tx.ixs = ixs := by
  have hstatus : ∀ (receipt : Receipt) (error : Option TransactionError),
      confirmedStatus ctx w.tick ixs receipt error = .successful tx → tx.ixs = ixs := by
    intro receipt error hst
    cases error with
    | none => exact (TxStatus.successful.inj hst) ▸ rfl
    | some source => cases hst
  unfold landing at h
  obtain ⟨hnoted, -⟩ := Option.filter_eq_some_iff.mp h
  cases hsend : ctx.rpc.sendAndConfirmTransaction w.tick ixs with
  | confirmed receipt =>
      rw [hsend] at hnoted
      exact hstatus receipt none (Option.some.inj hnoted)
  | failed receipt landed error =>
      rw [hsend] at hnoted
      obtain ⟨status, -, hst⟩ := Option.map_eq_some_iff.mp hnoted
      exact hstatus receipt status hst

/-- Unless the last transaction succeeds, everything that lands leaves the account open. -/
theorem grows_uploadAndExecute_leavesOpen (hlaws : PayloadLaws ctx)
    (h : ¬ CallLands ctx message payload destinationAddress w) :
    Grows World.landed (LeavesOpen ctx message) w (stateOf (uploadAndExecute ctx message payload
      destinationAddress (ctx.sdk.getIncomingMessagePda (messageToCommandId ctx message)) w)) := by
  -- what the upload lands does not close the account
  refine Grows.bind ?_ fun pda w₁ hupload => ?_
  · obtain ⟨new, hnew, hlands, -⟩ := extends_upload message payload w
    refine ⟨new, hnew, fun st hst => ?_⟩
    obtain ⟨ix, hix, hcarries⟩ := hlands.carried.mem hst
    exact hcarries.leavesOpen hlaws hix
  rw [stateOf_ignore]
  have hpda : pda = messagePayloadPda ctx (messageToCommandId ctx message) := by
    obtain ⟨-, -, -, hpda⟩ := extends_upload message payload w
    exact hpda pda (by rw [hupload, resultOf_ok])
  refine Grows.bind (Reads.grows (V := fun _ => True) ?_ w₁) fun ix w₂ hix => ?_
  · rw [hpda]
    exact reads_destinationInstruction.mono fun _ _ => trivial
  refine Grows.bind (Reads.grows (V := fun _ => True) (reads_ofExcept fun _ _ => trivial) w₂)
    fun close w' hbuilt => ?_
  obtain ⟨hclose, rfl⟩ := ofExcept_eq_ok hbuilt
  rw [stateOf_mapError]
  refine Grows.bind ((reads_evaluateComputeIxs _).grows w') fun sender w₃ hsender => ?_
  -- what the last send lands did not succeed, by `h`
  refine ⟨_, landed_sendTx w₃, fun st hst tx htx => ?_⟩
  subst htx
  exact absurd ⟨pda, w₁, ix, w', close, sender, w₃, tx, hupload, hix,
    built_ok (context_ok hclose), hsender, Option.mem_toList.mp hst⟩ h

/-- If it succeeds, the account is closed. -/
theorem closes_of_callLands (h : CallLands ctx message payload destinationAddress w) :
    ∃ close tx l, closeIx ctx message = .ok close ∧ close ∈ tx.ixs ∧
      (stateOf (uploadAndExecute ctx message payload destinationAddress
        (ctx.sdk.getIncomingMessagePda (messageToCommandId ctx message)) w)).landed =
          w.landed ++ l ++ [.successful tx] := by
  obtain ⟨pda, w₁, ix, w₂, close, sender, w₃, tx, hupload, hix, hclose, hsender, hlanding⟩ := h
  obtain ⟨l, hl, -, hpda⟩ := extends_upload message payload w
  rw [hupload] at hl hpda
  obtain rfl := hpda pda rfl
  have hbuilt : (Effect.ofExcept
      (context "failed to construct an instruction to close the message payload pda"
        (built (closeIx ctx message))) : EStateM Report World ParsedIx) w₂ = .ok close w₂ := by
    rw [hclose]
    rfl
  have hevaluated : Reads World.landed (evaluateComputeIxs ctx ⟨[ix, close]⟩) fun sender =>
      Prepared ctx [ix, close] sender.ixs := reads_evaluateComputeIxs _
  obtain ⟨t, fees, limit, -, -, hixs⟩ := hevaluated.value hsender
  refine ⟨close, tx, l, hclose, by rw [landing_ixs hlanding, hixs]; simp, ?_⟩
  -- nothing is done behind `send_tx`, whatever it answers
  have hrun : stateOf (uploadAndExecute ctx message payload destinationAddress
      (ctx.sdk.getIncomingMessagePda (messageToCommandId ctx message)) w) =
        stateOf (sendTx ctx sender w₃) := by
    rw [uploadAndExecute, run_bind_ok _ hupload, stateOf_ignore, sendToDestinationProgram,
      run_bind_ok _ hix]
    refine (congrArg stateOf (run_bind_ok _ hbuilt)).trans ?_
    rw [stateOf_mapError, sendTransaction, run_bind_ok _ hsender]
  rw [hrun, landed_sendTx, hlanding, hevaluated.unchanged hsender,
    reads_destinationInstruction.unchanged hix]
  exact congrArg (· ++ _) hl

/-! ## The law -/

/--
**When the account is reclaimed.** Once it was created: exactly when the message was
admitted and the transaction that calls the destination and closes succeeds.
-/
theorem reclaimed_iff (ctx : Context) (task : ExecuteTask) (w : World) (hlaws : PayloadLaws ctx) :
    Reclaims ctx task w ↔ (AccountCreated ctx task w → ∃ destinationAddress w₁,
      Admitted ctx task w destinationAddress w₁ ∧
      CallLands ctx (composeMessage ctx task) task.payload destinationAddress w₁) := by
  have hclosed : AccountClosed ctx task w ↔ ∃ destinationAddress w₁,
      Admitted ctx task w destinationAddress w₁ ∧
      CallLands ctx (composeMessage ctx task) task.payload destinationAddress w₁ := by
    constructor
    · rintro ⟨close, hclose, tx, htx, hin⟩
      refine Classical.byContradiction fun hnot => ?_
      -- if the call never landed, nothing that landed closes the account
      have hgrows := grows_executeTask_landed (P := LeavesOpen ctx (composeMessage ctx task))
        fun destinationAddress w₁ hadmitted => grows_uploadAndExecute_leavesOpen hlaws
          fun hcall => hnot ⟨destinationAddress, w₁, hadmitted, hcall⟩
      exact hgrows.of_mem_drop _ htx tx rfl close hclose hin
    · rintro ⟨destinationAddress, w₁, hadmitted, hcall⟩
      obtain ⟨close, tx, l, hclose, hin, hlanded⟩ := closes_of_callLands hcall
      refine ⟨close, hclose, tx, ?_, hin⟩
      rw [landedBy, hadmitted.run, hlanded, hadmitted.landed, List.append_assoc, List.drop_left]
      exact List.mem_append_right _ List.mem_cons_self
  rw [Reclaims, hclosed]

theorem confirmed_of_exists {landed : List TxStatus}
    (h : ∃ st ∈ landed, st.isSuccessful = true ∧ ix ∈ st.tx.ixs) : Confirmed landed ix := by
  obtain ⟨st, hst, hok, hin⟩ := h
  cases st with
  | successful tx => exact ⟨tx, hst, hin⟩
  | failed tx error => cases hok

/-- On a network on which nothing fails the last transaction is reached. -/
theorem greeting_reclaimed :
    AccountCreated (steadyContext alwaysConfirmed []) (greeting 100000) (World.start .empty) ∧
      ∃ destinationAddress w₁, Admitted (steadyContext alwaysConfirmed []) (greeting 100000)
        (World.start .empty) destinationAddress w₁ ∧
        CallLands (steadyContext alwaysConfirmed [])
          (composeMessage (steadyContext alwaysConfirmed []) (greeting 100000))
          (greeting 100000).payload destinationAddress w₁ := by
  have hcreated : AccountCreated (steadyContext alwaysConfirmed []) (greeting 100000)
      (World.start .empty) := ⟨_, rfl, confirmed_of_exists (by decide +kernel)⟩
  have hreclaims : Reclaims (steadyContext alwaysConfirmed []) (greeting 100000)
      (World.start .empty) := fun _ => ⟨_, rfl, confirmed_of_exists (by decide +kernel)⟩
  exact ⟨hcreated, (reclaimed_iff _ _ _ steady_payloadLaws).mp hreclaims hcreated⟩

/-- Nodes that lose every chunk write. -/
def losesWrites (t : Nat) (ixs : List ParsedIx) : SendOutcome :=
  if ixs.any fun ix => ix.data.head? == some 7 then .failed (receiptAt t) none ⟨"timeout", none⟩
  else .confirmed (receiptAt t)

/-- **The law fails**: a chunk write that fails leaves the account behind. -/
theorem account_left_behind : ¬ ∀ (ctx : Context) (task : ExecuteTask) (w : World),
    PayloadLaws ctx → Reclaims ctx task w := by
  intro hall
  have hcreated : AccountCreated (steadyContext losesWrites []) (greeting 100000)
      (World.start .empty) := ⟨_, rfl, confirmed_of_exists (by decide +kernel)⟩
  obtain ⟨close, hclose, tx, htx, hin⟩ := hall _ _ _ steady_payloadLaws hcreated
  have hnone : ∀ st ∈ landedBy (steadyContext losesWrites []) (greeting 100000)
      (World.start .empty),
      (⟨.filled 1, [.filled 8, .filled 9, .filled 21], [9]⟩ : ParsedIx) ∉ st.tx.ixs := by
    decide +kernel
  obtain rfl := Except.ok.inj hclose
  exact hnone _ htx hin

end AxelarRelayer.Proof
