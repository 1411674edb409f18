import AxelarRelayer.Proof.Network
import AxelarRelayer.Proof.TaskCursor
import AxelarRelayer.Task.Deployment

/-!
# Refunds over any number of stops

The tasks stand in one list: those before the point the relayer was resumed at, those
it received since, those on the channel, and those not sent yet. Their ids are
distinct, so a future that has not finished is for a task nobody was paid for yet,
and a send lands at most one transaction. Within one run nothing is paid twice.

A stop moves the point of resumption back to the id in the state file. What was paid
and not recorded is then received again, so the result needs what `Settled` asks for.
-/

namespace AxelarRelayer.Proof

open AxelarRelayer AxelarRelayer.Task Effect Runs

variable {ctx : Context} {d d' : Deployment} {first : List TaskItem} {item : TaskItem}

/-! ## One refund -/

theorem extends_refundTask (ctx : Context) (task : RefundTask) :
    Extends World.landed (refundTask ctx task) fun _ new => new.length ≤ 1 := by
  refine Extends.after_reads (P := fun _ => True) (reads_ofExcept fun _ _ => trivial)
    (fun receiver _ => ?_) fun _ => Nat.zero_le _
  cases task.remainingGasBalance.tokenId with
  | some tokenId => exact fun w => ⟨[], (List.append_nil _).symm, Nat.zero_le _⟩
  | none =>
      refine Extends.after_reads (P := fun _ => True) (reads_ofExcept fun _ _ => trivial)
        (fun amount _ => ?_) fun _ => Nat.zero_le _
      refine Extends.after_reads (P := fun _ => True) (reads_ofExcept fun _ _ => trivial)
        (fun ix _ => ?_) fun _ => Nat.zero_le _
      refine ((extends_sendTransaction [ix]).mapError Report.computeBudget).ignore.mono ?_
      rintro r new ⟨r₁, -, r₀, -, hsent⟩
      exact hsent.once

/-- The ids for which a refund was confirmed, once for every transaction. -/
def paid (refunds : List (TaskItemId × TxStatus)) : List TaskItemId :=
  (refunds.filter fun refund => refund.2.isSuccessful).map Prod.fst

theorem paid_append (refunds refunds' : List (TaskItemId × TxStatus)) :
    paid (refunds ++ refunds') = paid refunds ++ paid refunds' := by
  rw [paid, List.filter_append, List.map_append]
  rfl

/-- **A task pays for itself, and at most once.** -/
theorem paid_refundsOf (ctx : Context) (item : TaskItem) (r : Relayer) :
    (∀ id ∈ paid (Deployment.refundsOf item r (stateOf (processTask ctx item r))), id = item.id) ∧
      (paid (Deployment.refundsOf item r (stateOf (processTask ctx item r)))).Nodup := by
  obtain ⟨id, task⟩ := item
  cases task with
  | refund task =>
      -- one refund lands at most one transaction
      obtain ⟨new, hnew, honce⟩ := extends_refundTask ctx task r.world
      have hworld : (stateOf (processTask ctx ⟨id, .refund task⟩ r)).world =
          stateOf (refundTask ctx task r.world) := by
        simp only [processTask, onWorld]
        cases refundTask ctx task r.world <;> rfl
      rw [Deployment.refundsOf, hworld, hnew, List.drop_left]
      refine ⟨fun id' hid => ?_, ?_⟩
      · obtain ⟨refund, hin, rfl⟩ := List.mem_map.mp hid
        obtain ⟨st, -, rfl⟩ := List.mem_map.mp (List.mem_filter.mp hin).1
        rfl
      · refine List.nodup_iff_count_le_one.mpr fun id' => Nat.le_trans List.count_le_length ?_
        rw [paid, List.length_map]
        refine Nat.le_trans (List.length_filter_le _ _) ?_
        rw [List.length_map]
        exact honce
  | gatewayTx executeData => exact ⟨fun _ h => absurd h List.not_mem_nil, List.nodup_nil⟩
  | execute task => exact ⟨fun _ h => absurd h List.not_mem_nil, List.nodup_nil⟩
  | verify => exact ⟨fun _ h => absurd h List.not_mem_nil, List.nodup_nil⟩
  | constructProof => exact ⟨fun _ h => absurd h List.not_mem_nil, List.nodup_nil⟩

/-! ## What the pusher keeps -/

/-- The task was recorded, or its future has finished. -/
def Finished (s : SolanaTxPusher) (id : TaskItemId) : Prop :=
  id ∈ s.recorded ∨ ∃ task result, (⟨task, some result⟩ : TaskFuture) ∈ s.futuresOrdered ∧
    task.id = id

variable {s : SolanaTxPusher} {id : TaskItemId}

theorem Finished.pollReceiver (h : Finished s id) : Finished s.pollReceiver id := by
  unfold SolanaTxPusher.pollReceiver
  split
  · rcases h with hrec | ⟨task, result, hin, hid⟩
    · exact Or.inl hrec
    · exact Or.inr ⟨task, result, List.mem_append_left _ hin, hid⟩
  · split <;> exact h

theorem Finished.complete (h : Finished s id) (done : Nat × Except Report Unit) :
    Finished (s.complete done) id := by
  unfold SolanaTxPusher.complete
  split
  · rename_i task hn
    rcases h with hrec | ⟨task', result, hin, hid⟩
    · exact Or.inl hrec
    · obtain ⟨m, hm⟩ := List.mem_iff_getElem?.mp hin
      refine Or.inr ⟨task', result, List.mem_iff_getElem?.mpr ⟨m, ?_⟩, hid⟩
      rw [List.getElem?_set_ne]
      · exact hm
      · rintro rfl
        rw [hn] at hm
        cases hm
  · exact h

/-- What leaves `futures_ordered` is recorded. -/
theorem Finished.handle (h : Finished s id) (flushed : Except String Unit) :
    Finished (SolanaTxPusher.handle flushed s.pollFutures) id := by
  unfold SolanaTxPusher.pollFutures
  split
  · rename_i task result futures hfutures
    have hmoved : id ∈ s.recorded ++ [task.id] ∨ ∃ task' result',
        (⟨task', some result'⟩ : TaskFuture) ∈ futures ∧ task'.id = id := by
      rcases h with hrec | ⟨task', result', hin, hid⟩
      · exact Or.inl (List.mem_append_left _ hrec)
      · rw [hfutures] at hin
        rcases List.mem_cons.mp hin with heq | hlater
        · cases heq
          rw [← hid]
          exact Or.inl (List.mem_append_right _ List.mem_cons_self)
        · exact Or.inr ⟨task', result', hlater, hid⟩
    cases flushed <;> exact hmoved
  · split <;> exact h
  · exact h

/-- What was received and what is on the channel, in order. -/
def taken (s : SolanaTxPusher) : List TaskItem := s.received ++ s.channel

theorem taken_pollReceiver (s : SolanaTxPusher) : taken s.pollReceiver = taken s := by
  unfold SolanaTxPusher.pollReceiver
  split
  · rename_i task channel hchannel
    rw [taken, taken, hchannel]
    exact (List.append_cons _ _ _).symm
  · split <;> rfl

theorem taken_complete (s : SolanaTxPusher) (done : Nat × Except Report Unit) :
    taken (s.complete done) = taken s := by
  unfold SolanaTxPusher.complete
  split <;> rfl

theorem taken_handle (s : SolanaTxPusher) (flushed : Except String Unit) :
    taken (SolanaTxPusher.handle flushed s.pollFutures) = taken s := by
  unfold SolanaTxPusher.pollFutures
  split
  · cases flushed <;> rfl
  · split <;> rfl
  · rfl

/-- What the stream yields is the id of a task that was received. -/
theorem received_of_yielded (h : PrefixInv s) {result : Except Report Unit}
    (hyield : s.pollFutures.1 = .ready (some (id, result))) :
    id ∈ s.received.map TaskItem.id := by
  unfold SolanaTxPusher.pollFutures at hyield
  split at hyield
  · rename_i task result' futures hfutures
    cases hyield
    rw [h.received, hfutures]
    exact List.mem_append_right _ List.mem_cons_self
  · split at hyield <;> cases hyield
  · cases hyield

/-! ## The invariant -/

/-- `first` are the tasks before the point the relayer was resumed at. -/
structure RefundInv (d : Deployment) (first : List TaskItem) : Prop where
  pusher : PrefixInv d.pusher
  tasks : d.tasks = first ++ (taken d.pusher ++ d.tasks.drop d.next)
  next : d.next ≤ d.tasks.length
  cursor : ∀ id, d.latestProcessedTaskId = some id → id ∈ d.tasks.map TaskItem.id
  finished : ∀ id ∈ paid d.refunds, id ∈ first.map TaskItem.id ∨ Finished d.pusher id
  once : (paid d.refunds).Nodup

/-- The ids of the tasks that were handed out so far are distinct. -/
theorem RefundInv.distinct (h : RefundInv d first) : (first.map TaskItem.id ++
    (d.pusher.recorded ++ d.pusher.futuresOrdered.map fun future => future.task.id)).Nodup := by
  have hall := d.distinct
  rw [h.tasks, taken, List.append_assoc, List.map_append, List.map_append, h.pusher.received,
    ← List.append_assoc] at hall
  exact (List.nodup_append.mp hall).1

/-- Nobody was paid yet for a future that has not finished. -/
theorem RefundInv.unpaid (h : RefundInv d first) {n : Nat}
    (hn : d.pusher.futuresOrdered[n]? = some ⟨item, none⟩) : item.id ∉ paid d.refunds := by
  intro hpaid
  have hin := List.mem_of_getElem? hn
  have hid : item.id ∈ d.pusher.futuresOrdered.map fun future => future.task.id :=
    List.mem_map_of_mem (f := fun future : TaskFuture => future.task.id) hin
  obtain ⟨-, hrest, hfirst⟩ := List.nodup_append.mp h.distinct
  obtain ⟨-, hfutures, hrecorded⟩ := List.nodup_append.mp hrest
  rcases h.finished item.id hpaid with hold | hold | ⟨task, result, hfinished, hsame⟩
  · exact hfirst _ hold _ (List.mem_append_right _ hid) rfl
  · exact hrecorded _ hold _ hid rfl
  · cases List.inj_on_of_nodup_map hfutures hfinished hin hsame

theorem RefundInv.work (h : RefundInv d first) (n : Nat) : RefundInv (d.work ctx n) first := by
  unfold Deployment.work
  split
  · rename_i item hn
    obtain ⟨hself, honce⟩ := paid_refundsOf ctx item d.relayer
    exact {
      pusher := h.pusher.complete _
      tasks := by
        rw [taken_complete]
        exact h.tasks
      next := h.next
      cursor := h.cursor
      finished := fun id hid => by
        rw [paid_append] at hid
        rcases List.mem_append.mp hid with hold | hnew
        · exact (h.finished id hold).imp_right fun hfinished => hfinished.complete _
        · -- what was just paid belongs to a future that has finished but is not recorded
          refine Or.inr (Or.inr ⟨item, resultOf (processTask ctx item d.relayer), ?_,
            (hself id hnew).symm⟩)
          obtain ⟨hlt, -⟩ := List.getElem?_eq_some_iff.mp hn
          simp only [SolanaTxPusher.complete, hn]
          exact List.mem_set hlt _
      once := by
        rw [paid_append, List.nodup_append]
        -- paid before and paid now differ: an unfinished future has paid nothing
        refine ⟨h.once, honce, fun a ha b hb hab => ?_⟩
        rw [hself b hb] at hab
        exact h.unpaid hn (hab ▸ ha) }
  · exact h

theorem RefundInv.works (h : RefundInv d first) (ns : List Nat) :
    RefundInv (ns.foldl (Deployment.work ctx) d) first := by
  induction ns generalizing d with
  | nil => exact h
  | cons n ns ih => exact ih (h.work n)

/-- The state file holds what it held, or what the stream just yielded. -/
theorem latestProcessedTaskId_record {flushed : Except String Unit}
    (h : (d.record flushed).latestProcessedTaskId = some id) :
    d.latestProcessedTaskId = some id ∨ ∃ result, d.pusher.pollFutures.1 = .ready (some (id, result)) := by
  cases hyield : d.pusher.pollFutures.1 with
  | pending =>
      simp only [Deployment.latestProcessedTaskId, Deployment.record, hyield] at h
      exact Or.inl h
  | ready yielded =>
      cases yielded with
      | none =>
          simp only [Deployment.latestProcessedTaskId, Deployment.record, hyield] at h
          exact Or.inl h
      | some output =>
          simp only [Deployment.latestProcessedTaskId, Deployment.record, hyield] at h
          split at h
          · cases h
          · exact Or.inr ⟨output.2, by rw [← Option.some.inj h]⟩

theorem RefundInv.record (h : RefundInv d first) (flushed : Except String Unit) :
    RefundInv (d.record flushed) first where
  pusher := h.pusher.handle flushed
  tasks := (congrArg (fun queue => first ++ (queue ++ d.tasks.drop d.next))
    (taken_handle d.pusher flushed)).symm ▸ h.tasks
  next := h.next
  cursor := fun id hid => by
    rcases latestProcessedTaskId_record hid with hold | ⟨result, hyield⟩
    · exact h.cursor id hold
    · obtain ⟨item, hitem, hsame⟩ := List.mem_map.mp (received_of_yielded h.pusher hyield)
      have hin : item ∈ first ++ (taken d.pusher ++ d.tasks.drop d.next) :=
        List.mem_append_right _ (List.mem_append_left _ (List.mem_append_left _ hitem))
      rw [← h.tasks] at hin
      exact List.mem_map.mpr ⟨item, hin, hsame⟩
  finished := fun id hid => (h.finished id hid).imp_right fun hfinished => hfinished.handle flushed
  once := h.once

theorem RefundInv.poll (h : RefundInv d first) (progress : List Nat)
    (flushed : Except String Unit) : RefundInv (d.poll ctx progress flushed) first := by
  have hreceived : RefundInv { d with pusher := d.pusher.pollReceiver } first := {
    pusher := h.pusher.pollReceiver
    tasks := by
      rw [taken_pollReceiver]
      exact h.tasks
    next := h.next
    cursor := h.cursor
    finished := fun id hid => (h.finished id hid).imp_right Finished.pollReceiver
    once := h.once }
  exact (hreceived.works progress).record flushed

/-! ## Every run -/

theorem refundInv_fresh {tasks : List TaskItem} {distinct : (tasks.map TaskItem.id).Nodup}
    {relayer : Relayer} : RefundInv (.fresh tasks distinct relayer) [] where
  pusher := prefixInv_start
  tasks := rfl
  next := Nat.zero_le _
  cursor := fun id hid => by cases hid
  finished := fun id hid => absurd hid List.not_mem_nil
  once := List.nodup_nil

/-- Everything paid for belongs to a task before the point the relayer would be resumed at. -/
def Recorded (d : Deployment) : Prop :=
  ∀ id ∈ paid d.refunds, id ∈ (d.tasks.take d.resumeAt).map TaskItem.id

/-- The relayer only stops when every refund confirmed so far is recorded. -/
def Settled (ctx : Context) (d : Deployment) : DeploymentEvent → Prop
  | .restart strays => Recorded (strays.foldl (Deployment.work ctx) d)
  | _ => True

instance (d : Deployment) : Decidable (Recorded d) :=
  inferInstanceAs (Decidable (∀ id ∈ paid d.refunds, id ∈ (d.tasks.take d.resumeAt).map TaskItem.id))

instance (d : Deployment) : (e : DeploymentEvent) → Decidable (Settled ctx d e)
  | .submit _ => inferInstanceAs (Decidable True)
  | .deliver => inferInstanceAs (Decidable True)
  | .close => inferInstanceAs (Decidable True)
  | .poll _ _ => inferInstanceAs (Decidable True)
  | .restart strays => inferInstanceAs (Decidable (Recorded (strays.foldl (Deployment.work ctx) d)))

theorem resumeAt_le (h : RefundInv d first) : d.resumeAt ≤ d.tasks.length := by
  unfold Deployment.resumeAt
  cases hlatest : d.latestProcessedTaskId with
  | none => exact Nat.zero_le _
  | some id =>
      have hlt := List.idxOf_lt_length_iff.mpr (h.cursor id hlatest)
      rw [List.length_map] at hlt
      exact hlt

/-- A new run starts at the point of resumption. -/
theorem RefundInv.resumed (h : RefundInv d first) (hrecorded : Recorded d) {relayer : Relayer} :
    RefundInv { d with next := d.resumeAt, pusher := .start, relayer := relayer }
      (d.tasks.take d.resumeAt) where
  pusher := prefixInv_start
  tasks := (List.take_append_drop d.resumeAt d.tasks).symm
  next := resumeAt_le h
  cursor := h.cursor
  finished := fun id hid => Or.inl (hrecorded id hid)
  once := h.once

theorem refundInv_step {e : DeploymentEvent} (h : ∃ first, RefundInv d first)
    (hsettled : Settled ctx d e) (hstep : (deployment ctx).step d e = some d') :
    ∃ first, RefundInv d' first := by
  obtain ⟨first, h⟩ := h
  cases e with
  | submit task =>
      simp only [deployment, Deployment.step] at hstep
      split at hstep
      · cases hstep
      · obtain rfl := Option.some.inj hstep
        -- a new task goes to the end of the stream, behind what is still to be delivered
        exact ⟨first, {
          pusher := h.pusher
          tasks := by
            have htasks := congrArg (· ++ [task]) h.tasks
            simp only [List.append_assoc] at htasks
            rw [List.drop_append_of_le_length h.next]
            exact htasks
          next := by
            rw [List.length_append]
            exact Nat.le_add_right_of_le h.next
          cursor := fun id hid => by
            rw [List.map_append]
            exact List.mem_append_left _ (h.cursor id hid)
          finished := h.finished
          once := h.once }⟩
  | deliver =>
      simp only [deployment, Deployment.step] at hstep
      split at hstep
      · cases hstep
      · rename_i task htask
        -- the task at the stream's position moves into the channel
        obtain ⟨hlt, hget⟩ := List.getElem?_eq_some_iff.mp htask
        split at hstep
        · cases hstep
        · rename_i hopen
          obtain rfl := Option.some.inj hstep
          exact ⟨first, {
            pusher := prefixInv_step (e := .send task) h.pusher (if_neg hopen)
            tasks := by
              have htasks := h.tasks
              rw [List.drop_eq_getElem_cons hlt, hget, List.append_cons, taken,
                List.append_assoc d.pusher.received] at htasks
              exact htasks
            next := hlt
            cursor := h.cursor
            finished := h.finished
            once := h.once }⟩
  | close =>
      obtain rfl := Option.some.inj hstep
      exact ⟨first, prefixInv_step (e := .close) h.pusher rfl, h.tasks, h.next, h.cursor,
        h.finished, h.once⟩
  | poll progress flushed =>
      simp only [deployment, Deployment.step] at hstep
      split at hstep
      · cases hstep
      · obtain rfl := Option.some.inj hstep
        exact ⟨first, h.poll progress flushed⟩
  | restart strays =>
      obtain rfl := Option.some.inj hstep
      -- what was in flight runs to its end, and a new process starts behind the cursor
      exact ⟨_, (h.works strays).resumed hsettled⟩

theorem refundInv_reachable (h : Reach (deployment ctx) (Settled ctx) d) :
    ∃ first, RefundInv d first := by
  refine h.invariant (P := fun d => ∃ first, RefundInv d first) (fun d hinit => ?_)
    fun _ _ _ _ hi hok hstep => refundInv_step hi hok hstep
  obtain ⟨tasks, distinct, relayer, rfl⟩ := hinit
  exact ⟨[], refundInv_fresh⟩

/--
**A refund is paid at most once**, in every run that only stops when what was paid is
recorded.
-/
theorem refunded_once (ctx : Context) (d : Deployment) (h : Reach (deployment ctx) (Settled ctx) d)
    (id : TaskItemId) : (paid d.refunds).count id ≤ 1 := by
  obtain ⟨first, hi⟩ := refundInv_reachable h
  exact List.nodup_iff_count_le_one.mp hi.once id

/-! ## Two runs with a stop -/

/-- A gateway transaction, and a refund behind it. -/
def refundBehind : List TaskItem :=
  [⟨⟨1⟩, .gatewayTx []⟩, ⟨⟨2⟩, .refund ⟨(greeting 0).message, "recipient", ⟨none, 7⟩⟩⟩]

/-- A relayer with these tasks on a network that confirms every send. -/
def refunding : Deployment := .fresh refundBehind (by decide) freshRelayer

/-- It stops after both were recorded. -/
def stopsLate : List DeploymentEvent :=
  [.deliver, .deliver, .poll [] (.ok ()), .poll [1] (.ok ()), .poll [0] (.ok ()), .poll [] (.ok ()),
    .restart []]

/-- The refund is paid, and the relayer that is started again has nothing left to do. -/
theorem stopsLate_refunded : ∃ d : Deployment,
    Reach (deployment (steadyContext alwaysConfirmed []))
      (Settled (steadyContext alwaysConfirmed [])) d ∧
    d.next = 2 ∧ paid d.refunds = [⟨2⟩] ∧ (paid d.refunds).count ⟨2⟩ ≤ 1 := by
  let ctx := steadyContext alwaysConfirmed []
  have hrun : (replay (deployment ctx) (Settled ctx) refunding stopsLate).map
      (fun d => (d.next, paid d.refunds)) = some (2, [⟨2⟩]) := by
    decide +kernel
  obtain ⟨d, hd, hpair⟩ := Option.map_eq_some_iff.mp hrun
  obtain ⟨hnext, hpaid⟩ := Prod.mk.inj hpair
  have hreach : Reach (deployment ctx) (Settled ctx) d :=
    Reach.of_replay (Reach.init ⟨_, _, _, rfl⟩) hd
  exact ⟨d, hreach, hnext, hpaid, refunded_once _ d hreach ⟨2⟩⟩

/-- The refund overtakes the gateway transaction; the stop comes while that is on its way. -/
def stopsEarly : List DeploymentEvent :=
  [.deliver, .deliver, .poll [] (.ok ()), .poll [1] (.ok ()), .restart [], .deliver, .deliver,
    .poll [] (.ok ()), .poll [1] (.ok ())]

/-- **A refund is paid twice.** -/
theorem refunded_twice : ¬ ∀ (ctx : Context) (d : Deployment), Reach (deployment ctx) always d →
    ∀ id, (paid d.refunds).count id ≤ 1 := by
  intro hclaim
  let ctx := steadyContext alwaysConfirmed []
  have hrun : (replay (deployment ctx) always refunding stopsEarly).map
      (fun d => paid d.refunds) = some [⟨2⟩, ⟨2⟩] := by
    decide +kernel
  obtain ⟨d, hd, hpaid⟩ := Option.map_eq_some_iff.mp hrun
  have hle := hclaim _ d (Reach.of_replay (Reach.init ⟨_, _, _, rfl⟩) hd) ⟨2⟩
  rw [hpaid] at hle
  exact absurd hle (by decide)

end AxelarRelayer.Proof
