import AxelarRelayer.Proof.RefundOnce

/-!
# No task is left out

The dual of paying at most once. Beside the run goes a log of the tasks for which
`process_task` has come to its end, and of the stops. Whatever is before the point a relayer
would be resumed at is in the log; and every stop lets a task come around once more, not
oftener.
-/

namespace AxelarRelayer.Proof

open AxelarRelayer AxelarRelayer.Task Effect Runs

variable {ctx : Context} {d d' : Deployment} {log : List Note} {first : List TaskItem} {s : SolanaTxPusher}
  {id : TaskItemId} {item : TaskItem}

/-! ## The log -/

inductive Note where
  /-- `process_task` has come to its end -/
  | completed (id : TaskItemId)
  | restarted
deriving DecidableEq

/-- What finishes when the `n`-th future runs to its end. -/
def finish (d : Deployment) (n : Nat) : List Note :=
  match d.pusher.futuresOrdered[n]? with
  | some ⟨item, none⟩ => [.completed item.id]
  | _ => []

def finishing (ctx : Context) : Deployment → List Nat → List Note
  | _, [] => []
  | d, n :: ns => finish d n ++ finishing ctx (d.work ctx n) ns

def notes (ctx : Context) (d : Deployment) : DeploymentEvent → List Note
  | .poll progress _ => finishing ctx { d with pusher := d.pusher.pollReceiver } progress
  | .restart strays => finishing ctx d strays ++ [.restarted]
  | .submit _ | .deliver | .close => []

/-! ## What has finished -/

theorem finished_pollReceiver : Finished s.pollReceiver id ↔ Finished s id := by
  refine ⟨?_, Finished.pollReceiver⟩
  intro h
  unfold SolanaTxPusher.pollReceiver at h
  split at h
  · cases h with
    | inl hrec => exact Or.inl hrec
    | inr hfuture =>
        obtain ⟨task, result, hin, hid⟩ := hfuture
        refine Or.inr ⟨task, result, ?_, hid⟩
        cases List.mem_append.mp hin with
        | inl hold => exact hold
        | inr hnew => cases List.mem_singleton.mp hnew
  · split at h <;> exact h

theorem finished_complete {n : Nat} (hn : s.futuresOrdered[n]? = some ⟨item, none⟩)
    (result : Except Report Unit) :
    Finished (s.complete (n, result)) id ↔ Finished s id ∨ id = item.id := by
  constructor
  · intro h
    simp only [SolanaTxPusher.complete, hn] at h
    cases h with
    | inl hrec => exact Or.inl (Or.inl hrec)
    | inr hfuture =>
        obtain ⟨task, result', hin, hid⟩ := hfuture
        cases List.mem_or_eq_of_mem_set hin with
        | inl hold => exact Or.inl (Or.inr ⟨task, result', hold, hid⟩)
        | inr hnew =>
            obtain ⟨rfl, -⟩ := TaskFuture.mk.inj hnew
            exact Or.inr hid.symm
  · intro h
    cases h with
    | inl hold => exact hold.complete _
    | inr hself =>
        obtain ⟨hlt, -⟩ := List.getElem?_eq_some_iff.mp hn
        refine Or.inr ⟨item, result, ?_, hself.symm⟩
        simp only [SolanaTxPusher.complete, hn]
        exact List.mem_set hlt _

theorem finished_handle {flushed : Except String Unit} :
    Finished (SolanaTxPusher.handle flushed s.pollFutures) id ↔ Finished s id := by
  refine ⟨?_, fun h => h.handle flushed⟩
  intro h
  unfold SolanaTxPusher.pollFutures at h
  split at h
  · rename_i task result futures hfutures
    have hmoved : id ∈ s.recorded ++ [task.id] ∨ ∃ task' result',
        (⟨task', some result'⟩ : TaskFuture) ∈ futures ∧ task'.id = id := by
      cases flushed <;> exact h
    unfold Finished
    rw [hfutures]
    cases hmoved with
    | inl hrec =>
        cases List.mem_append.mp hrec with
        | inl hold => exact Or.inl hold
        | inr hnew =>
            exact Or.inr ⟨task, result, List.mem_cons_self, (List.mem_singleton.mp hnew).symm⟩
    | inr hlater =>
        obtain ⟨task', result', hin, hid⟩ := hlater
        exact Or.inr ⟨task', result', List.mem_cons_of_mem _ hin, hid⟩
  · split at h <;> exact h
  · exact h

theorem not_finished_start : ¬ Finished .start id := by
  intro h
  cases h with
  | inl hrec => cases hrec
  | inr hfuture =>
      obtain ⟨_, _, hin, -⟩ := hfuture
      cases hin

/-! ## The invariant -/

/-- `first` are the tasks before the point the relayer was resumed at. -/
structure DeliveryInv (d : Deployment) (log : List Note) (first : List TaskItem) : Prop where
  pusher : PrefixInv d.pusher
  tasks : d.tasks = first ++ (taken d.pusher ++ d.tasks.drop d.next)
  next : d.next ≤ d.tasks.length
  /-- The relayer would be resumed behind what this process has recorded, or before that. -/
  cursor : d.resumeAt ≤ first.length + d.pusher.recorded.length
  before : ∀ task, task ∈ first → .completed task.id ∈ log
  finished : ∀ id, Finished d.pusher id → .completed id ∈ log
  /-- Every process before this one may have completed the task, and this one once. -/
  repeats : ∀ id, log.count (.completed id) ≤ log.count .restarted + 1
  fresh : ∀ id, ¬ Finished d.pusher id → log.count (.completed id) ≤ log.count .restarted

/-- A task whose future has not finished has not finished otherwise. -/
theorem DeliveryInv.unfinished (h : DeliveryInv d log first) {n : Nat}
    (hn : d.pusher.futuresOrdered[n]? = some ⟨item, none⟩) : ¬ Finished d.pusher item.id := by
  intro hfinished
  have hin := List.mem_of_getElem? hn
  have hid : item.id ∈ d.pusher.futuresOrdered.map fun future => future.task.id :=
    List.mem_map_of_mem (f := fun future : TaskFuture => future.task.id) hin
  have hall := d.distinct
  rw [h.tasks, taken, List.append_assoc, List.map_append, List.map_append,
    h.pusher.received] at hall
  obtain ⟨-, hrest, -⟩ := List.nodup_append.mp hall
  obtain ⟨hreceived, -, -⟩ := List.nodup_append.mp hrest
  obtain ⟨-, hfutures, hrecorded⟩ := List.nodup_append.mp hreceived
  cases hfinished with
  | inl hold => exact hrecorded _ hold _ hid rfl
  | inr hfuture =>
      obtain ⟨task, result, hother, hsame⟩ := hfuture
      cases List.inj_on_of_nodup_map hfutures hother hin hsame

/-- A pusher in which nothing else has finished. -/
theorem DeliveryInv.same {s' : SolanaTxPusher} {relayer : Relayer}
    {refunds : List (TaskItemId × TxStatus)} (h : DeliveryInv d log first) (hpusher : PrefixInv s')
    (htaken : taken s' = taken d.pusher) (hrecorded : s'.recorded = d.pusher.recorded)
    (hfinished : ∀ id, Finished s' id ↔ Finished d.pusher id) :
    DeliveryInv { d with pusher := s', relayer := relayer, refunds := refunds } log first where
  pusher := hpusher
  tasks := by
    rw [htaken]
    exact h.tasks
  next := h.next
  cursor := by
    rw [hrecorded]
    exact h.cursor
  before := h.before
  finished := fun id hid => h.finished id ((hfinished id).mp hid)
  repeats := h.repeats
  fresh := fun id hid => h.fresh id fun hold => hid ((hfinished id).mpr hold)

theorem work_cases (ctx : Context) (d : Deployment) (n : Nat) :
    (∃ item result relayer refunds, d.pusher.futuresOrdered[n]? = some ⟨item, none⟩ ∧
      d.work ctx n = { d with
        relayer := relayer
        pusher := d.pusher.complete (n, result)
        refunds := refunds } ∧ finish d n = [.completed item.id]) ∨
    d.work ctx n = d ∧ finish d n = [] := by
  unfold Deployment.work finish
  cases d.pusher.futuresOrdered[n]? with
  | none => exact Or.inr ⟨rfl, rfl⟩
  | some future =>
      obtain ⟨item, result⟩ := future
      cases result with
      | some result => exact Or.inr ⟨rfl, rfl⟩
      | none => exact Or.inl ⟨item, _, _, _, rfl, rfl, rfl⟩

theorem DeliveryInv.work (h : DeliveryInv d log first) (n : Nat) :
    DeliveryInv (d.work ctx n) (log ++ finish d n) first := by
  cases work_cases ctx d n with
  | inr hidle =>
      rw [hidle.1, hidle.2, List.append_nil]
      exact h
  | inl hworked =>
      obtain ⟨item, result, relayer, refunds, hn, hwork, hnote⟩ := hworked
      rw [hwork, hnote]
      have hcount : ∀ id, (log ++ [Note.completed item.id]).count (.completed id) =
          log.count (.completed id) + if id = item.id then 1 else 0 := by
        intro id
        rw [List.count_append, List.count_singleton]
        by_cases hsame : id = item.id
        · rw [hsame, if_pos rfl, if_pos (beq_self_eq_true _)]
        · rw [if_neg hsame, if_neg]
          simpa using fun heq => hsame heq.symm
      have hstops : (log ++ [Note.completed item.id]).count .restarted = log.count .restarted := by
        simp
      exact {
        pusher := h.pusher.complete _
        tasks := by
          rw [taken_complete]
          exact h.tasks
        next := h.next
        cursor := by
          simp only [SolanaTxPusher.complete, hn]
          exact h.cursor
        before := fun task htask => List.mem_append_left _ (h.before task htask)
        finished := fun id hid => by
          cases (finished_complete hn _).mp hid with
          | inl hold => exact List.mem_append_left _ (h.finished id hold)
          | inr hself =>
              rw [hself]
              exact List.mem_append_right _ (List.mem_singleton_self _)
        repeats := fun id => by
          rw [hcount, hstops]
          by_cases hsame : id = item.id
          · -- it had not finished in this process
            have hfresh := h.fresh item.id (h.unfinished hn)
            rw [hsame, if_pos rfl]
            omega
          · rw [if_neg hsame]
            exact h.repeats id
        fresh := fun id hid => by
          have hne : id ≠ item.id := fun hself => hid ((finished_complete hn _).mpr (Or.inr hself))
          rw [hcount, hstops, if_neg hne]
          exact h.fresh id fun hold => hid (hold.complete _) }

theorem DeliveryInv.works (h : DeliveryInv d log first) (ns : List Nat) :
    DeliveryInv (ns.foldl (Deployment.work ctx) d) (log ++ finishing ctx d ns) first := by
  induction ns generalizing d log with
  | nil =>
      rw [finishing, List.append_nil]
      exact h
  | cons n ns ih =>
      rw [finishing, ← List.append_assoc]
      exact ih (h.work n)

theorem pollFutures_cases (s : SolanaTxPusher) :
    (∃ task result futures, s.futuresOrdered = ⟨task, some result⟩ :: futures ∧
      s.pollFutures = (.ready (some (task.id, result)), { s with futuresOrdered := futures })) ∨
    (∀ output, s.pollFutures.1 ≠ .ready (some output)) ∧ s.pollFutures.2 = s := by
  unfold SolanaTxPusher.pollFutures
  split
  · rename_i task result futures hfutures
    exact Or.inl ⟨task, result, futures, hfutures, rfl⟩
  · split
    · exact Or.inr ⟨nofun, rfl⟩
    · exact Or.inr ⟨nofun, rfl⟩
  · exact Or.inr ⟨nofun, rfl⟩

theorem idxOf_le_length {α : Type} [DecidableEq α] (before after : List α) (a : α) :
    (before ++ a :: after).idxOf a ≤ before.length := by
  rw [List.idxOf_append]
  split
  · rename_i hin
    exact Nat.le_of_lt (List.idxOf_lt_length_of_mem hin)
  · rw [List.idxOf_cons_self, Nat.zero_add]

/-- The point of resumption is at most behind the task recorded last. -/
theorem resumeAt_le_idxOf (hlatest : d.latestProcessedTaskItemId = id.uuid) :
    d.resumeAt ≤ (d.tasks.map TaskItem.id).idxOf id + 1 := by
  unfold Deployment.resumeAt Deployment.latestProcessedTaskId
  rw [hlatest]
  by_cases hzero : id.uuid = 0
  · rw [if_pos hzero]
    exact Nat.zero_le _
  · rw [if_neg hzero]

theorem DeliveryInv.record (h : DeliveryInv d log first) (flushed : Except String Unit) :
    DeliveryInv (d.record flushed) log first where
  pusher := h.pusher.handle flushed
  tasks := (congrArg (fun queue => first ++ (queue ++ d.tasks.drop d.next))
    (taken_handle d.pusher flushed)).symm ▸ h.tasks
  next := h.next
  cursor := by
    cases pollFutures_cases d.pusher with
    | inl hyielded =>
        obtain ⟨task, result, futures, hfutures, hpoll⟩ := hyielded
        have hlatest : (d.record flushed).latestProcessedTaskItemId = task.id.uuid := by
          simp only [Deployment.record, hpoll]
        have hrecorded : (d.record flushed).pusher.recorded = d.pusher.recorded ++ [task.id] := by
          simp only [Deployment.record, hpoll]
          cases flushed <;> rfl
        -- the id stands where the next one is recorded, or earlier
        have hindex : (d.tasks.map TaskItem.id).idxOf task.id ≤
            (first.map TaskItem.id ++ d.pusher.recorded).length := by
          have htasks := congrArg (List.map TaskItem.id) h.tasks
          rw [taken, List.map_append, List.map_append, List.map_append, h.pusher.received,
            hfutures, List.map_cons] at htasks
          have hsplit : d.tasks.map TaskItem.id = (first.map TaskItem.id ++ d.pusher.recorded) ++
              task.id :: ((futures.map fun future => future.task.id) ++
                (d.pusher.channel.map TaskItem.id ++ (d.tasks.drop d.next).map TaskItem.id)) := by
            rw [htasks]
            simp only [List.append_assoc, List.cons_append]
          rw [hsplit]
          exact idxOf_le_length _ _ _
        rw [List.length_append, List.length_map] at hindex
        rw [hrecorded, List.length_append]
        exact Nat.le_trans (resumeAt_le_idxOf hlatest) (Nat.succ_le_succ hindex)
    | inr hquiet =>
        obtain ⟨hnone, hsame⟩ := hquiet
        have hlatest : (d.record flushed).latestProcessedTaskItemId =
            d.latestProcessedTaskItemId := by
          cases hanswer : d.pusher.pollFutures.1 with
          | pending => simp only [Deployment.record, hanswer]
          | ready output =>
              cases output with
              | none => simp only [Deployment.record, hanswer]
              | some output => exact absurd hanswer (hnone output)
        have hrecorded : (d.record flushed).pusher.recorded = d.pusher.recorded := by
          rw [Deployment.record, ← Prod.eta d.pusher.pollFutures, hsame]
          cases hanswer : d.pusher.pollFutures.1 with
          | pending => rfl
          | ready output =>
              cases output with
              | none => rfl
              | some output => exact absurd hanswer (hnone output)
        have hcursor := h.cursor
        unfold Deployment.resumeAt Deployment.latestProcessedTaskId at hcursor ⊢
        rw [hrecorded, hlatest]
        exact hcursor
  before := h.before
  finished := fun id hid => h.finished id (finished_handle.mp hid)
  repeats := h.repeats
  fresh := fun id hid => h.fresh id fun hold => hid (finished_handle.mpr hold)

theorem DeliveryInv.poll (h : DeliveryInv d log first) (progress : List Nat)
    (flushed : Except String Unit) :
    DeliveryInv (d.poll ctx progress flushed)
      (log ++ finishing ctx { d with pusher := d.pusher.pollReceiver } progress) first := by
  have hrecorded : d.pusher.pollReceiver.recorded = d.pusher.recorded := by
    unfold SolanaTxPusher.pollReceiver
    split
    · rfl
    · split <;> rfl
  have hreceived : DeliveryInv { d with pusher := d.pusher.pollReceiver } log first :=
    h.same h.pusher.pollReceiver (taken_pollReceiver _) hrecorded fun _ => finished_pollReceiver
  exact (hreceived.works progress).record flushed

/-! ## Every run -/

theorem DeliveryInv.resumeAt_le (h : DeliveryInv d log first) : d.resumeAt ≤ d.tasks.length := by
  have hlen := congrArg List.length h.tasks
  rw [List.length_append, List.length_append, taken, List.length_append, h.pusher.length] at hlen
  have hcursor := h.cursor
  omega

/-- New tasks do not move the point of resumption. -/
theorem DeliveryInv.resumeAt_append (h : DeliveryInv d log first) (more : List TaskItem)
    {distinct : ((d.tasks ++ more).map TaskItem.id).Nodup} :
    ({ d with tasks := d.tasks ++ more, distinct := distinct } : Deployment).resumeAt =
      d.resumeAt := by
  have hle := h.resumeAt_le
  have hsame : ({ d with tasks := d.tasks ++ more, distinct := distinct } :
      Deployment).latestProcessedTaskId = d.latestProcessedTaskId := rfl
  unfold Deployment.resumeAt at hle ⊢
  rw [hsame]
  cases hlatest : d.latestProcessedTaskId with
  | none => rfl
  | some id =>
      rw [hlatest] at hle
      have hin : id ∈ d.tasks.map TaskItem.id := by
        rw [← List.idxOf_lt_length_iff, List.length_map]
        exact hle
      dsimp only
      rw [List.map_append, List.idxOf_append_of_mem hin]

/-- What is before the point of resumption is before that of this process, or recorded. -/
theorem DeliveryInv.completed (h : DeliveryInv d log first) :
    ∀ task, task ∈ d.tasks.take d.resumeAt → .completed task.id ∈ log := by
  intro task htask
  have hids : task.id ∈ (first.map TaskItem.id ++ d.pusher.recorded) := by
    have hmem := List.mem_map_of_mem (f := TaskItem.id) htask
    have hbound : d.resumeAt ≤ (first.map TaskItem.id ++ d.pusher.recorded).length := by
      rw [List.length_append, List.length_map]
      exact h.cursor
    rw [List.map_take, h.tasks, taken, List.append_assoc, List.map_append, List.map_append,
      h.pusher.received, List.append_assoc, ← List.append_assoc,
      List.take_append_of_le_length hbound] at hmem
    exact List.mem_of_mem_take hmem
  cases List.mem_append.mp hids with
  | inl hfirst =>
      obtain ⟨earlier, hearlier, hsame⟩ := List.mem_map.mp hfirst
      exact hsame ▸ h.before earlier hearlier
  | inr hrecorded => exact h.finished _ (Or.inl hrecorded)

/-- A restart is one more of them and completes nothing. -/
theorem count_restarted (log : List Note) (id : TaskItemId) :
    (log ++ [Note.restarted]).count (Note.completed id) = log.count (Note.completed id) ∧
      (log ++ [Note.restarted]).count Note.restarted = log.count Note.restarted + 1 := by
  have hother : (Note.restarted == Note.completed id) = false := rfl
  have hself : (Note.restarted == Note.restarted) = true := rfl
  rw [List.count_append, List.count_append, List.count_singleton, List.count_singleton, hother,
    hself]
  exact ⟨rfl, rfl⟩

/-- The next process takes over, with one more stop in the log. -/
theorem DeliveryInv.resumed (h : DeliveryInv d log first) {relayer : Relayer} :
    DeliveryInv { d with next := d.resumeAt, pusher := .start, relayer := relayer }
      (log ++ [.restarted]) (d.tasks.take d.resumeAt) where
  pusher := prefixInv_start
  tasks := (List.take_append_drop d.resumeAt d.tasks).symm
  next := h.resumeAt_le
  cursor := by
    rw [List.length_take, Nat.min_eq_left h.resumeAt_le]
    exact Nat.le_refl _
  before := fun task htask => List.mem_append_left _ (h.completed task htask)
  finished := fun _ hid => absurd hid not_finished_start
  repeats := fun id => by
    obtain ⟨hcompleted, hrestarted⟩ := count_restarted log id
    have hold := h.repeats id
    omega
  fresh := fun id _ => by
    obtain ⟨hcompleted, hrestarted⟩ := count_restarted log id
    have hold := h.repeats id
    omega

theorem deliveryInv_step {e : DeploymentEvent} (h : ∃ first, DeliveryInv d log first)
    (hstep : (deployment ctx).step d e = some d') :
    ∃ first, DeliveryInv d' (log ++ notes ctx d e) first := by
  obtain ⟨first, h⟩ := h
  cases e with
  | submit task =>
      simp only [deployment, Deployment.step] at hstep
      split at hstep
      · cases hstep
      · obtain rfl := Option.some.inj hstep
        rw [notes, List.append_nil]
        -- a new task goes to the end of the stream, behind what is still to be delivered
        exact ⟨first, {
          pusher := h.pusher
          tasks := by
            have htasks := congrArg (· ++ [task]) h.tasks
            simp only [List.append_assoc] at htasks
            rw [List.drop_append_of_le_length h.next]
            exact htasks
          next := by
            rw [List.length_append]
            exact Nat.le_add_right_of_le h.next
          cursor := Nat.le_trans (Nat.le_of_eq (h.resumeAt_append [task])) h.cursor
          before := h.before
          finished := h.finished
          repeats := h.repeats
          fresh := h.fresh }⟩
  | deliver =>
      simp only [deployment, Deployment.step] at hstep
      split at hstep
      · cases hstep
      · rename_i task htask
        obtain ⟨hlt, hget⟩ := List.getElem?_eq_some_iff.mp htask
        split at hstep
        · cases hstep
        · rename_i hopen
          obtain rfl := Option.some.inj hstep
          rw [notes, List.append_nil]
          -- the task at the stream's position moves into the channel
          exact ⟨first, {
            pusher := prefixInv_step (e := .send task) h.pusher (if_neg hopen)
            tasks := by
              have htasks := h.tasks
              rw [List.drop_eq_getElem_cons hlt, hget, List.append_cons, taken,
                List.append_assoc d.pusher.received] at htasks
              exact htasks
            next := hlt
            cursor := h.cursor
            before := h.before
            finished := h.finished
            repeats := h.repeats
            fresh := h.fresh }⟩
  | close =>
      obtain rfl := Option.some.inj hstep
      rw [notes, List.append_nil]
      exact ⟨first, h.same (prefixInv_step (e := .close) h.pusher rfl) rfl rfl fun _ => Iff.rfl⟩
  | poll progress flushed =>
      simp only [deployment, Deployment.step] at hstep
      split at hstep
      · cases hstep
      · obtain rfl := Option.some.inj hstep
        exact ⟨first, h.poll progress flushed⟩
  | restart strays =>
      obtain rfl := Option.some.inj hstep
      rw [notes, ← List.append_assoc]
      -- what was in flight runs to its end, and a new process starts behind the cursor
      exact ⟨_, (h.works strays).resumed⟩

theorem deliveryInv_reach
    (h : Reach ((deployment ctx).logged (notes ctx)) always (d, log)) :
    ∃ first, DeliveryInv d log first := by
  refine Reach.invariant (P := fun q => ∃ first, DeliveryInv q.1 q.2 first) ?_ ?_ h
  · intro q hinit
    obtain ⟨⟨tasks, distinct, relayer, hfresh⟩, hlog⟩ := hinit
    rw [hfresh, hlog]
    exact ⟨[], {
      pusher := prefixInv_start
      tasks := rfl
      next := Nat.zero_le _
      cursor := Nat.zero_le _
      before := fun _ htask => absurd htask List.not_mem_nil
      finished := fun _ hid => absurd hid not_finished_start
      repeats := fun _ => Nat.zero_le _
      fresh := fun _ _ => Nat.zero_le _ }⟩
  · intro q e q' _ hi _ hs
    obtain ⟨hstep, hlog⟩ := logged_cases hs
    rw [hlog]
    exact deliveryInv_step hi hstep

/--
**No task is left out, and none comes around too often**, in every run over any number of
stops: `process_task` has come to its end for each task before the point the relayer would
be resumed at, and for no task more often than processes were started.
-/
theorem tasks_completed (ctx : Context) (d : Deployment) (log : List Note)
    (h : Reach ((deployment ctx).logged (notes ctx)) always (d, log)) :
    (∀ task, task ∈ d.tasks.take d.resumeAt → .completed task.id ∈ log) ∧
      ∀ id, log.count (.completed id) ≤ log.count .restarted + 1 := by
  obtain ⟨first, hi⟩ := deliveryInv_reach h
  exact ⟨hi.completed, hi.repeats⟩

/-- The refund that overtakes a gateway transaction comes around twice, the stop between. -/
theorem tasks_completed_stopsEarly : ∃ d log,
    replay ((deployment (steadyContext alwaysConfirmed [])).logged
      (notes (steadyContext alwaysConfirmed []))) always (refunding, []) stopsEarly =
        some (d, log) ∧
    log = [.completed ⟨2⟩, .restarted, .completed ⟨2⟩] ∧
    ((∀ task, task ∈ d.tasks.take d.resumeAt → .completed task.id ∈ log) ∧
      ∀ id, log.count (.completed id) ≤ log.count .restarted + 1) := by
  have hrun : (replay ((deployment (steadyContext alwaysConfirmed [])).logged
      (notes (steadyContext alwaysConfirmed []))) always (refunding, []) stopsEarly).map
        Prod.snd = some [.completed ⟨2⟩, .restarted, .completed ⟨2⟩] := by decide +kernel
  obtain ⟨⟨d, log⟩, hq, hlog⟩ := Option.map_eq_some_iff.mp hrun
  exact ⟨d, log, hq, hlog, tasks_completed _ d log
    (Reach.of_replay (Reach.init ⟨⟨_, _, _, rfl⟩, rfl⟩) hq)⟩

end AxelarRelayer.Proof
