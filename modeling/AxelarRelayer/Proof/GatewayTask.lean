import Mathlib.Data.List.Forall2
import AxelarRelayer.Proof.ConcurrentSends
import AxelarRelayer.Proof.Network

/-!
# `gateway_tx_task`

The phases are ordered (`gateway_phases_ordered`): the loops over the sets of
futures do not end before every future has returned a success, and the first
irrecoverable error ends the task.

What the phases are made of is another matter. A leaf or a message whose
instruction cannot be built never becomes a future, and nothing in the result
shows it. `batch_handled_iff`: success means that the whole batch was handled
exactly when every instruction of the batch can be built, or the task fails on
every course because the one instruction that is not left out cannot be.
-/

namespace AxelarRelayer.Proof

open AxelarRelayer AxelarRelayer.Task Phases Runs

variable {ctx : Context} {executeData : ExecuteData} {s : SendState}

/-! ## The phases -/

/-- The instruction a send of a gateway task is for. -/
inductive GatewayIx (ctx : Context) (executeData : ExecuteData) : SendKind → ParsedIx → Prop where
  | session {ix : ParsedIx} : sessionIx ctx executeData = .ok ix →
      GatewayIx ctx executeData .initializeSession ix
  | verify {verifierInfo : SigningVerifierSetInfo} {ix : ParsedIx} :
      verifierInfo ∈ executeData.signingVerifierSetLeaves →
      verifyIx ctx executeData verifierInfo = .ok ix →
      GatewayIx ctx executeData (.verifySignature verifierInfo) ix
  | rotate {newVerifierSetMerkleRoot : Bytes32} {ix : ParsedIx} :
      executeData.payloadItems = .verifierSetRotation newVerifierSetMerkleRoot →
      rotateIx ctx executeData newVerifierSetMerkleRoot = .ok ix →
      GatewayIx ctx executeData .rotateSigners ix
  | approve {messages : List MerkleisedMessage} {merkelisedMessage : MerkleisedMessage}
      {ix : ParsedIx} : executeData.payloadItems = .newMessages messages →
      merkelisedMessage ∈ messages → approveIx ctx executeData merkelisedMessage = .ok ix →
      GatewayIx ctx executeData (.approveMessage merkelisedMessage) ix

/-- A send that was not left out. -/
theorem mem_built {β : Type} {kind : β → SendKind} {build : β → Except String ParsedIx}
    {items : List β} {send : GatewaySend} (h : send ∈ items.filterMap fun item =>
      (build item).toOption.map fun ix => ⟨kind item, ix⟩) :
    ∃ item ∈ items, send.kind = kind item ∧ build item = .ok send.ix := by
  obtain ⟨item, hitem, hsend⟩ := List.mem_filterMap.mp h
  obtain ⟨ix, hix, rfl⟩ := Option.map_eq_some_iff.mp hsend
  refine ⟨item, hitem, rfl, ?_⟩
  cases hbuild : build item with
  | ok built =>
      rw [hbuild] at hix
      exact congrArg _ (Option.some.inj hix)
  | error text => rw [hbuild] at hix; cases hix

/-- **No send carries another instruction than the one it is for.** -/
theorem gatewayIx_gatewayPhases : EachSend (gatewayPhases ctx executeData)
    fun _ send => GatewayIx ctx executeData send.kind send.ix := by
  refine eachSend_three (forall_single fun ix hix => .session (built_ok hix)) ?_ ?_
  · rintro items hitems send hsend
    obtain rfl := Except.ok.inj hitems
    obtain ⟨verifierInfo, hleaf, hkind, hix⟩ := mem_built hsend
    rw [hkind]
    exact .verify hleaf hix
  · intro items hitems
    unfold payloadSends at hitems
    split at hitems
    · rename_i root hpayload
      exact forall_single (fun ix hix => .rotate hpayload (built_ok hix)) items hitems
    · rename_i messages hpayload
      obtain rfl := Except.ok.inj hitems
      intro send hsend
      obtain ⟨merkelisedMessage, hmessage, hkind, hix⟩ := mem_built hsend
      rw [hkind]
      exact .approve hpayload hmessage hix

theorem staged_gatewayPhases : Staged (gatewayPhases ctx executeData) := by
  refine eachSend_three stage_single ?_ ?_
  · rintro items hitems send hsend
    obtain rfl := Except.ok.inj hitems
    obtain ⟨verifierInfo, -, hkind, -⟩ := mem_built hsend
    rw [hkind]
    rfl
  · intro items hitems
    unfold payloadSends at hitems
    split at hitems
    · exact stage_single items hitems
    · obtain rfl := Except.ok.inj hitems
      intro send hsend
      obtain ⟨merkelisedMessage, -, hkind, -⟩ := mem_built hsend
      rw [hkind]
      rfl

/-- The sends of the verification phase. -/
def verifyJobs (ctx : Context) (executeData : ExecuteData) : List (Job GatewaySend) :=
  jobs 1 (verifySends ctx executeData)

/-- An approval or a rotation. -/
def IsPayloadSend (kind : SendKind) : Prop :=
  kind = .rotateSigners ∨ ∃ merkelisedMessage, kind = .approveMessage merkelisedMessage

/-- The order of the phases, in one history of the task. -/
structure PhasesOrdered (ctx : Context) (executeData : ExecuteData) (s : SendState) : Prop where
  /-- Every transaction is, behind its compute budget, the instruction its send is for. -/
  submitted : ∀ send sub, .act send sub ∈ s.trace → sub.instructions = [send.item.ix] ∧
    GatewayIx ctx executeData send.item.kind send.item.ix
  /-- No signature is verified before the session was opened. -/
  verification : ∀ pre send sub post verifierInfo, s.trace = pre ++ .act send sub :: post →
    send.item.kind = .verifySignature verifierInfo →
    ∃ session, session.item.kind = .initializeSession ∧
      sessionIx ctx executeData = .ok session.item.ix ∧ Returned (sendRules ctx) session pre
  /-- The verifications that are started. -/
  started : ∀ event ∈ s.trace, ∀ verifierInfo,
    event.job.item.kind = .verifySignature verifierInfo → event.job ∈ verifyJobs ctx executeData
  /-- Nothing is approved or rotated before they have all returned a success. -/
  approval : ∀ pre send sub post, s.trace = pre ++ .act send sub :: post →
    IsPayloadSend send.item.kind →
    ∀ verification ∈ verifyJobs ctx executeData, Returned (sendRules ctx) verification pre
  /-- An irrecoverable error of the session or of a verification ends the task. -/
  irrecoverable : ∀ send outcome e, .ret send outcome ∈ s.trace →
    (send.item.kind = .initializeSession ∨
      ∃ verifierInfo, send.item.kind = .verifySignature verifierInfo) →
    (sendRules ctx).finish send.item outcome = .error e →
    s.result = some (.error e) ∧
      ∀ other sub, .act other sub ∈ s.trace → ¬ IsPayloadSend other.item.kind

theorem stage_of_isPayloadSend {kind : SendKind} (h : IsPayloadSend kind) : stage kind = 2 := by
  rcases h with rfl | ⟨merkelisedMessage, rfl⟩ <;> rfl

/-- Passing the first phase is the return of the one send that opens the session. -/
theorem session_of_passed
    {trace : List (Event GatewaySend Submission (Except ComputeBudgetError Signature))}
    (h : Passed (sendRules ctx) (gatewayPhases ctx executeData) 0 trace) :
    ∃ session : Job GatewaySend, session.item.kind = .initializeSession ∧
      sessionIx ctx executeData = .ok session.item.ix ∧
      Returned (sendRules ctx) session trace := by
  obtain ⟨items, hitems, hall⟩ := h
  obtain ⟨ix, hix, rfl⟩ := single_ok (Option.some.inj hitems)
  exact ⟨⟨0, 0, ⟨.initializeSession, ix⟩⟩, rfl, built_ok hix, hall _ List.mem_cons_self⟩

theorem verified_of_passed
    {trace : List (Event GatewaySend Submission (Except ComputeBudgetError Signature))}
    (h : Passed (sendRules ctx) (gatewayPhases ctx executeData) 1 trace) :
    ∀ verification ∈ verifyJobs ctx executeData, Returned (sendRules ctx) verification trace := by
  obtain ⟨items, hitems, hall⟩ := h
  obtain rfl := Except.ok.inj (Option.some.inj hitems)
  exact hall

/--
**The phases of a gateway task are ordered**, in every course it can take: whatever
order the concurrent sends submit and return in, and whatever their outcomes are.
-/
theorem gateway_phases_ordered (ctx : Context) (executeData : ExecuteData) (s : SendState)
    (h : Reach (gatewayTask ctx executeData) always s) : PhasesOrdered ctx executeData s where
  submitted := fun send sub hact =>
    ⟨instructions_of_act h hact, gatewayIx_gatewayPhases.of_event h hact⟩
  verification := by
    intro pre send sub post verifierInfo hsplit hkind
    -- a verification is sent in a later phase than the session
    refine session_of_passed (passed_before staged_gatewayPhases h hsplit ?_)
    change 0 < stage send.item.kind
    rw [hkind]
    exact Nat.zero_lt_one
  started := by
    intro event hev verifierInfo hkind
    obtain ⟨items, hitems, hin⟩ := (traceInv_reachable h).known event hev
    have hphase := stage_eq staged_gatewayPhases h hev
    rw [hkind] at hphase
    rw [← hphase] at hitems hin
    obtain rfl := Except.ok.inj (Option.some.inj hitems)
    exact hin
  approval := by
    intro pre send sub post hsplit hkind
    -- an approval or a rotation is sent in the last phase
    refine verified_of_passed (passed_before staged_gatewayPhases h hsplit ?_)
    change 1 < stage send.item.kind
    rw [stage_of_isPayloadSend hkind]
    exact Nat.lt_succ_self 1
  irrecoverable := by
    intro send outcome e hret hkind hf
    obtain ⟨hres, hstages⟩ := stopped_by_error staged_gatewayPhases h hret hf
    refine ⟨hres, fun other sub hact hpayload => ?_⟩
    -- an error ends the task in its phase, and payload items come after that
    have hle : stage other.item.kind ≤ stage send.item.kind := hstages _ hact
    rw [stage_of_isPayloadSend hpayload] at hle
    rcases hkind with hkind | ⟨verifierInfo, hkind⟩ <;> rw [hkind] at hle
    · exact absurd hle (by decide : ¬ 2 ≤ 0)
    · exact absurd hle (by decide : ¬ 2 ≤ 1)

/-! ## The batch -/

/-- The messages to be approved. -/
def messagesOf (executeData : ExecuteData) : List MerkleisedMessage :=
  match executeData.payloadItems with
  | .verifierSetRotation _ => []
  | .newMessages messages => messages

/-- Every item has a send of its own, which was submitted and returned a success. -/
def AllHandled {β : Type} (ctx : Context) (kind : β → SendKind) (build : β → Except String ParsedIx)
    (items : List β) (s : SendState) : Prop :=
  ∃ sends : List (Job GatewaySend), sends.Nodup ∧ List.Forall₂ (fun item send =>
    send.item.kind = kind item ∧ build item = .ok send.item.ix ∧
      (∃ sub, .act send sub ∈ s.trace) ∧ Returned (sendRules ctx) send s.trace) items sends

/-- Every leaf was verified and every message approved. -/
def BatchHandled (ctx : Context) (executeData : ExecuteData) (s : SendState) : Prop :=
  AllHandled ctx .verifySignature (verifyIx ctx executeData) executeData.signingVerifierSetLeaves s ∧
    AllHandled ctx .approveMessage (approveIx ctx executeData) (messagesOf executeData) s

/-- Success means that the batch was handled, on every course of the task. -/
def OkMeansHandled (ctx : Context) (executeData : ExecuteData) : Prop :=
  ∀ s, Reach (gatewayTask ctx executeData) always s → s.result = some (.ok ()) →
    BatchHandled ctx executeData s

/-- Every instruction of the batch can be built. -/
def BatchBuilds (ctx : Context) (executeData : ExecuteData) : Prop :=
  (∀ leaf ∈ executeData.signingVerifierSetLeaves, ∃ ix, verifyIx ctx executeData leaf = .ok ix) ∧
    ∀ message ∈ messagesOf executeData, ∃ ix, approveIx ctx executeData message = .ok ix

/-- The instruction that opens the session, or the one that rotates, cannot be built. -/
def NeverSucceeds (ctx : Context) (executeData : ExecuteData) : Prop :=
  (∃ text, sessionIx ctx executeData = .error text) ∨
    ∃ root text, executeData.payloadItems = .verifierSetRotation root ∧
      rotateIx ctx executeData root = .error text

variable {β : Type} {kind : β → SendKind} {build : β → Except String ParsedIx}

/-- If every item can be built, none is left out. -/
theorem forall₂_filterMap (kind : β → SendKind) (items : List β)
    (hbuild : ∀ item ∈ items, ∃ ix, build item = .ok ix) :
    List.Forall₂ (fun item (send : GatewaySend) => send.kind = kind item ∧
      build item = .ok send.ix) items
      (items.filterMap fun item => (build item).toOption.map fun ix => ⟨kind item, ix⟩) := by
  induction items with
  | nil => exact .nil
  | cons item items ih =>
      obtain ⟨ix, hix⟩ := hbuild item List.mem_cons_self
      have hhead : ((build item).toOption.map fun ix => (⟨kind item, ix⟩ : GatewaySend)) =
          some ⟨kind item, ix⟩ := by rw [hix]; rfl
      rw [List.filterMap_cons]
      simp only [hhead]
      exact .cons ⟨rfl, hix⟩ (ih fun item hitem => hbuild item (List.mem_cons_of_mem _ hitem))

/-- A phase that was passed handled its items, if they could all be built. -/
theorem handled_of_passed {phases : List (Except Report (List GatewaySend))} {k : Nat}
    {items : List β} (h : Reach (Phases.system (sendRules ctx) phases) always s)
    (hitems : phases[k]? = some (.ok
      (items.filterMap fun item => (build item).toOption.map fun ix => ⟨kind item, ix⟩)))
    (hpassed : Passed (sendRules ctx) phases k s.trace)
    (hbuild : ∀ item ∈ items, ∃ ix, build item = .ok ix) : AllHandled ctx kind build items s := by
  obtain ⟨sends, hsends, hall⟩ := hpassed
  have hsame := Except.ok.inj (Option.some.inj (hitems.symm.trans hsends))
  refine ⟨jobs k sends, jobs_nodup k sends, ?_⟩
  have hforall := forall₂_filterMap kind items hbuild
  rw [hsame, ← jobs_map_item k sends, List.forall₂_map_right_iff] at hforall
  rw [List.forall₂_iff_zip] at hforall ⊢
  refine ⟨hforall.1, fun {item send} hin => ?_⟩
  obtain ⟨hkind, hix⟩ := hforall.2 hin
  have hret := hall send (List.of_mem_zip hin).2
  exact ⟨hkind, hix, (traceInv_reachable h).acted send hret, hret⟩

theorem built_of_handled {items : List β} (h : AllHandled ctx kind build items s) :
    ∀ item ∈ items, ∃ ix, build item = .ok ix := by
  obtain ⟨sends, -, hforall⟩ := h
  induction hforall with
  | nil => exact fun item hitem => absurd hitem List.not_mem_nil
  | cons hhead _ ih =>
      intro item hitem
      rcases List.mem_cons.mp hitem with rfl | hitem
      · exact ⟨_, hhead.2.1⟩
      · exact ih item hitem

theorem approval_handled (h : Reach (gatewayTask ctx executeData) always s)
    (hok : s.result = some (.ok ()))
    (hbuild : ∀ message ∈ messagesOf executeData, ∃ ix, approveIx ctx executeData message = .ok ix) :
    AllHandled ctx .approveMessage (approveIx ctx executeData) (messagesOf executeData) s := by
  cases hpayload : executeData.payloadItems with
  | verifierSetRotation root =>
      have hnil : messagesOf executeData = [] := by rw [messagesOf, hpayload]
      rw [hnil]
      exact ⟨[], List.nodup_nil, .nil⟩
  | newMessages messages =>
      have hmessages : messagesOf executeData = messages := by rw [messagesOf, hpayload]
      rw [hmessages] at hbuild ⊢
      refine handled_of_passed h ?_ (passed_of_ok h hok (by decide : 2 < 3)) hbuild
      change some (payloadSends ctx executeData) = _
      rw [payloadSends, hpayload]
      rfl

/-- On every course an instruction that cannot be built is missed. -/
theorem not_ok_of_neverSucceeds (hnever : NeverSucceeds ctx executeData)
    (h : Reach (gatewayTask ctx executeData) always s) : s.result ≠ some (.ok ()) := by
  intro hok
  rcases hnever with ⟨text, herr⟩ | ⟨root, text, hpayload, herr⟩
  · obtain ⟨items, hitems, -⟩ := passed_of_ok h hok (by decide : 0 < 3)
    obtain ⟨ix, hix, -⟩ := single_ok (Option.some.inj hitems)
    rw [herr] at hix
    cases hix
  · obtain ⟨items, hitems, -⟩ := passed_of_ok h hok (by decide : 2 < 3)
    have hlast : payloadSends ctx executeData = .ok items := Option.some.inj hitems
    rw [payloadSends, hpayload] at hlast
    obtain ⟨ix, hix, -⟩ := single_ok hlast
    rw [herr] at hix
    cases hix

/-- A send can be submitted. -/
theorem may_submit (ctx : Context) (send : GatewaySend) :
    ∃ sub, (sendRules ctx).may send sub = true :=
  ⟨.simulated [setComputeUnitLimit 1399850, send.ix], by simp [sendRules, Submission.toSolana,
    Submission.instructions, Submission.landsItself]⟩

/-- A send can succeed. -/
theorem can_succeed (ctx : Context) (send : GatewaySend) :
    ∃ outcome, (sendRules ctx).finish send outcome = .ok () := by
  refine ⟨.ok (.filled 0), ?_⟩
  rw [sendRules]
  dsimp only
  cases send.kind.context? <;> rfl

/-- The task can succeed, unless an instruction that is not left out cannot be built. -/
theorem exists_gatewayTask_ok (h : ¬ NeverSucceeds ctx executeData) :
    ∃ s, Reach (gatewayTask ctx executeData) always s ∧ s.result = some (.ok ()) := by
  refine exists_ok (may_submit ctx) (can_succeed ctx) fun phase hphase => ?_
  rcases List.mem_cons.mp hphase with rfl | hphase
  · cases hix : sessionIx ctx executeData with
    | ok ix => exact ⟨_, rfl⟩
    | error text => exact absurd (Or.inl ⟨text, hix⟩) h
  rcases List.mem_cons.mp hphase with rfl | hphase
  · exact ⟨_, rfl⟩
  · rw [List.mem_singleton.mp hphase, payloadSends]
    cases hpayload : executeData.payloadItems with
    | newMessages messages => exact ⟨_, rfl⟩
    | verifierSetRotation root =>
        cases hix : rotateIx ctx executeData root with
        | ok ix =>
            dsimp only
            rw [hix]
            exact ⟨_, rfl⟩
        | error text => exact absurd (Or.inr ⟨root, text, hpayload, hix⟩) h

/-- One leaf, and one message. -/
def smallBatch : ExecuteData where
  signingVerifierSetMerkleRoot := Vector.replicate 32 1
  signingVerifierSetLeaves := [⟨[1]⟩]
  payloadMerkleRoot := Vector.replicate 32 2
  payloadItems := .newMessages [⟨⟨"ethereum", "0xabc-1"⟩, [2]⟩]

/-- A course of the task that succeeds. -/
theorem smallBatch_ordered : ∃ s : SendState,
    Reach (gatewayTask (steadyContext alwaysConfirmed []) smallBatch) always s ∧
    s.result = some (.ok ()) ∧ PhasesOrdered (steadyContext alwaysConfirmed []) smallBatch s := by
  have hcan : ¬ NeverSucceeds (steadyContext alwaysConfirmed []) smallBatch := by
    rintro (⟨text, h⟩ | ⟨root, text, h, -⟩) <;> cases h
  obtain ⟨s, hs, hok⟩ := exists_gatewayTask_ok hcan
  exact ⟨s, hs, hok, gateway_phases_ordered _ _ s hs⟩

/--
**When success means that the whole batch was handled.** Exactly when every
instruction of the batch can be built, or the task cannot succeed at all.
-/
theorem batch_handled_iff (ctx : Context) (executeData : ExecuteData) :
    OkMeansHandled ctx executeData ↔
      BatchBuilds ctx executeData ∨ NeverSucceeds ctx executeData := by
  constructor
  · intro hlaw
    by_cases hnever : NeverSucceeds ctx executeData
    · exact Or.inr hnever
    · obtain ⟨s, hs, hok⟩ := exists_gatewayTask_ok hnever
      obtain ⟨hverified, happroved⟩ := hlaw s hs hok
      exact Or.inl ⟨built_of_handled hverified, built_of_handled happroved⟩
  · rintro (⟨hleaves, hmessages⟩ | hnever) s hs hok
    · exact ⟨handled_of_passed hs rfl (passed_of_ok hs hok (by decide : 1 < 3)) hleaves,
        approval_handled hs hok hmessages⟩
    · exact absurd hok (not_ok_of_neverSucceeds hnever hs)

/-- One leaf, of which no instruction can be made, and no messages. -/
def oddLeaf : ExecuteData where
  signingVerifierSetMerkleRoot := Vector.replicate 32 1
  signingVerifierSetLeaves := [⟨[]⟩]
  payloadMerkleRoot := Vector.replicate 32 2
  payloadItems := .newMessages []

/-- Crates whose `verify_signature` rejects its arguments. -/
def rejectingContext : Context :=
  { steadyContext alwaysConfirmed [] with
    sdk := { taggedSdk with verifySignature := fun _ _ _ _ _ => .error "invalid leaf" } }

/-- **The law fails**: the leaf is dropped and the task succeeds. -/
theorem leaf_dropped : ¬ OkMeansHandled rejectingContext oddLeaf := by
  intro hlaw
  have hcan : ¬ NeverSucceeds rejectingContext oddLeaf := by
    rintro (⟨text, h⟩ | ⟨root, text, h, -⟩) <;> cases h
  obtain ⟨s, hs, hok⟩ := exists_gatewayTask_ok hcan
  obtain ⟨ix, hix⟩ := built_of_handled (hlaw s hs hok).1 ⟨[]⟩ List.mem_cons_self
  cases hix

end AxelarRelayer.Proof
