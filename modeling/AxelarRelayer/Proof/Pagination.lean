import AxelarRelayer.Proof.BatchDelivery

/-!
# Pagination

On a history that does not grow a page is the newest part of what is left of its
program's range, and its last entry is the bound below which the rest lies. So what
is `pending` at any time is known, program by program, and an answered pass takes
one page off it (`answered_of_running`).

`pagination_exact`: the call returns, and what it sent is, for each of the two
addresses, every successful transaction of the range, once, less those whose send
found the receiver gone.
-/

namespace AxelarRelayer.Proof

open AxelarRelayer Listener

variable {config : Config} {env : ScanEnv} {programs : List Pubkey} {t1 t2 : Option Signature}
  {c : Chain} {k : Nat} {s s' : ScanState} {page : List TxStatus}

/-- What is left of each program's range, newest first. -/
def pending (c : Chain) (t1 t2 : Option Signature) (s : ScanState) : List (List TxStatus) :=
  match s.todo with
  | [] => []
  | program :: rest => (c.range program s.t2InLoop t1).reverse ::
      rest.map fun other => (c.range other t2 t1).reverse

theorem pending_start : pending c t1 t2 (ScanState.start programs t2) =
    programs.map fun program => (c.range program t2 t1).reverse := by
  cases programs <;> rfl

theorem pending_eq_of_bound (h : s.t2InLoop = t2) : pending c t1 t2 s =
    s.todo.map fun program => (c.range program t2 t1).reverse := by
  unfold pending
  cases s.todo with
  | nil => rfl
  | cons program rest => rw [h]; rfl

/-- The newest signature so far, and the slot it is compared by. -/
def cursor (s : ScanState) : Option Signature × Option Nat := (s.chronologicallyNewestSig, s.slot)

/-- What the head of a page does to it. -/
def record : Option Signature × Option Nat → TxStatus → Option Signature × Option Nat
  | (none, none), head => (some head.signature, some head.tx.slot)
  | (some newest, some slot), head =>
      if slot < head.tx.slot then (some head.signature, some slot) else (some newest, some slot)
  | other, _ => other

theorem cursor_recordNewest (s : ScanState) (page : List TxStatus) :
    cursor (s.recordNewest (page.head?.map slotSignature)) =
      page.head?.toList.foldl record (cursor s) := by
  cases page.head? with
  | none =>
      rw [Option.map_none, recordNewest_none]
      rfl
  | some head =>
      unfold ScanState.recordNewest cursor
      cases hn : s.chronologicallyNewestSig with
      | none => cases hs : s.slot <;> simp [record, slotSignature, hn, hs]
      | some newest =>
          cases hs : s.slot with
          | none => simp [record, hn, hs]
          | some slot =>
              simp only [record, slotSignature, Option.map_some, Option.toList_some,
                List.foldl_cons, List.foldl_nil]
              by_cases hlt : slot < head.tx.slot
              · rw [if_pos hlt, if_pos hlt]
              · rw [if_neg hlt, if_neg hlt, hn, hs]

/-- A pass over a static history that was answered with `page`. -/
structure Answered (env : ScanEnv) (c : Chain) (t1 t2 : Option Signature) (s s' : ScanState)
    (page : List TxStatus) : Prop where
  advances : Paging.Advances LIMIT (pending c t1 t2 s) (pending c t1 t2 s') page
  confirmed : ∀ st ∈ page, st ∈ c.history
  sent : s'.sent = s.sent ++ fetchAndSend env s.requests (page.map TxStatus.signature).reverse
  unsent : s'.unsent =
    s.unsent ++ fetchedUnsent env s.requests (page.map TxStatus.signature).reverse
  cursor : cursor s' = page.head?.toList.foldl record (cursor s)

/-- **What an answered pass does** to what is pending, sent and recorded. -/
theorem answered_of_running (hstatic : ∀ n, env.chainAt n = c) (hpass : Pass env t1 t2 s s')
    (hrun : s'.result = none) (hbound : s.todo = [] → False) :
    ∃ page, Answered env c t1 t2 s s' page := by
  cases hpass with
  | idle hres => exact absurd hrun hres
  | finished _ hnil => exact absurd hnil hbound
  | pageFailed => exact absurd hrun (by simp)
  | @completed program rest _ htodo hok hlen =>
      -- a short page is all that was pending of the program
      refine ⟨pageOf env t1 s program, ?_, fun st hst => ?_, ?_, ?_, ?_⟩
      · have hpage : pending c t1 t2 s = pageOf env t1 s program ::
            rest.map fun other => (c.range other t2 t1).reverse := by
          rw [pending, htodo]
          dsimp only
          congr 1
          rw [pageOf, hstatic] at hlen ⊢
          exact Paging.reverse_range_eq_page hlen
        have hrest : pending c t1 t2 { (afterPage env t1 s program).recordNewest
            ((pageOf env t1 s program).head?.map slotSignature) with
            todo := rest, t2InLoop := t2 } =
              rest.map fun other => (c.range other t2 t1).reverse := pending_eq_of_bound rfl
        rw [hpage, hrest]
        exact .last hlen
      · have hin := (mem_pageOf hst).1
        rwa [hstatic] at hin
      · exact recordNewest_sent _ _
      · exact recordNewest_unsent _ _
      · exact cursor_recordNewest (afterPage env t1 s program) _
  | @again program rest oldest _ htodo hok hlast =>
      -- a full page is the head of what was pending; the rest stays
      have hpage : pageOf env t1 s program =
          (c.range program s.t2InLoop t1).reverse.take LIMIT := by
        rw [pageOf, hstatic]
        rfl
      refine ⟨pageOf env t1 s program, ?_, fun st hst => ?_, ?_, ?_, ?_⟩
      · have hentries : pending c t1 t2 s = (c.range program s.t2InLoop t1).reverse ::
            rest.map fun other => (c.range other t2 t1).reverse := by
          rw [pending, htodo]
        have hbelow : pending c t1 t2 { (afterPage env t1 s program).recordNewest
            ((pageOf env t1 s program).head?.map slotSignature) with
            t2InLoop := some oldest.signature } =
              (c.range program s.t2InLoop t1).reverse.drop LIMIT ::
                rest.map fun other => (c.range other t2 t1).reverse := by
          have hdrop : (c.range program (some oldest.signature) t1).reverse =
              (c.range program s.t2InLoop t1).reverse.drop LIMIT := by
            rw [pageOf, hstatic] at hlast
            exact Paging.range_below_last c.distinct hlast
          simp only [pending, recordNewest_todo, afterPage, htodo, hdrop]
        rw [hentries, hbelow, hpage]
        -- the page has a last entry, so something was answered
        refine .more fun hnil => ?_
        rw [hpage, hnil] at hlast
        cases hlast
      · have hin := (mem_pageOf hst).1
        rwa [hstatic] at hin
      · exact recordNewest_sent _ _
      · exact recordNewest_unsent _ _
      · exact cursor_recordNewest (afterPage env t1 s program) _

/-! ## What is sent -/

/-- The successful transactions among some. -/
def sendable (sts : List TxStatus) : List SolanaTransaction :=
  (sts.filter TxStatus.isSuccessful).map TxStatus.tx

/-- The successful transactions of an address strictly between `t1` and `t2`. -/
def successfulBetween (c : Chain) (t1 t2 : Option Signature) (address : Pubkey) :
    List SolanaTransaction :=
  (c.history.filter fun st => st.isSuccessful && st.mentions address &&
    decide (c.Newer t1 st) && decide (c.Older t2 st)).map TxStatus.tx

theorem sendable_append (sts sts' : List TxStatus) :
    sendable (sts ++ sts') = sendable sts ++ sendable sts' := by
  rw [sendable, List.filter_append, List.map_append, sendable, sendable]

theorem sendable_range (address : Pubkey) :
    sendable (c.range address t2 t1) = successfulBetween c t1 t2 address := by
  rw [sendable, successfulBetween, Chain.range, Paging.range, List.filter_filter]
  congr 1
  refine List.filter_congr fun st _ => ?_
  simp only [Chain.Newer, Chain.Older]
  grind

/-- What the tasks of a page fetch is sent or is left unsent. -/
theorem fetched_perm (n : Nat) (sigs : List Signature) :
    (fetchAndSend env n sigs ++ fetchedUnsent env n sigs).Perm
      ((env.completion n sigs).filterMap fun sig =>
        match env.fetchTransaction n sig with
        | .ok (.successful tx) => some tx
        | _ => none) := by
  unfold fetchAndSend fetchedUnsent
  induction env.completion n sigs with
  | nil => exact List.Perm.refl _
  | cons sig sigs ih =>
      simp only [List.filterMap_cons, ScanEnv.fetchAndSendTask] at ih ⊢
      cases env.fetchTransaction n sig with
      | error err => exact ih
      | ok st =>
          cases st with
          | failed tx error => exact ih
          | successful tx =>
              cases env.sendFails n sig with
              | false => exact ih.cons tx
              | true => exact List.perm_middle.trans (ih.cons tx)

/-- Of a page whose transactions can all be fetched, these are the successful ones. -/
theorem page_perm (hstatic : ∀ n, env.chainAt n = c)
    (hfetch : ∀ n sig, env.fetchFails n sig = false) (n : Nat)
    (hpage : ∀ st ∈ page, st ∈ c.history) :
    (fetchAndSend env n (page.map TxStatus.signature).reverse ++
      fetchedUnsent env n (page.map TxStatus.signature).reverse).Perm (sendable page) := by
  have hok : ∀ st ∈ page, env.fetchTransaction n st.signature = .ok st := by
    intro st hst
    have hin : st ∈ (env.chainAt n).history := by rw [hstatic]; exact hpage st hst
    exact (fetchTransaction_iff hin).mpr ⟨hfetch _ _, rfl⟩
  refine (fetched_perm n _).trans ?_
  refine ((env.completes n _).filterMap _).trans (((List.reverse_perm _).filterMap _).trans ?_)
  rw [List.filterMap_map, sendable]
  refine List.Perm.of_eq ?_
  clear hpage
  induction page with
  | nil => rfl
  | cons st page ih =>
      have hrest := ih fun st' hst' => hok st' (List.mem_cons_of_mem _ hst')
      simp only [List.filterMap_cons, Function.comp_apply, hok st List.mem_cons_self]
      cases st with
      | successful tx => exact congrArg (tx :: ·) hrest
      | failed tx error => exact hrest

/-! ## The whole call -/

/-- A pass that leaves the call running was answered. -/
theorem answered_scan (hstatic : ∀ n, env.chainAt n = c)
    (hrun : (scan env programs t1 t2 (k + 1)).result = none) :
    ∃ page, Answered env c t1 t2 (scan env programs t1 t2 k) (scan env programs t1 t2 (k + 1))
      page :=
  answered_of_running hstatic (pass_scan env programs t1 t2 k) hrun fun hnil =>
    returned_of_nil hnil hrun

/-- What the passes so far have fetched. -/
def fetchedSoFar (s : ScanState) : List SolanaTransaction := s.sent ++ s.unsent

theorem fetchedSoFar_answered (h : Answered env c t1 t2 s s' page) :
    (fetchedSoFar s').Perm (fetchedSoFar s ++
      (fetchAndSend env s.requests (page.map TxStatus.signature).reverse ++
        fetchedUnsent env s.requests (page.map TxStatus.signature).reverse)) := by
  rw [fetchedSoFar, fetchedSoFar, h.sent, h.unsent]
  simp only [List.append_assoc]
  refine List.Perm.append_left _ ?_
  rw [← List.append_assoc, ← List.append_assoc]
  exact List.perm_append_comm.append_right _

/-- What was fetched and what is still pending are together what the call started with. -/
theorem fetched_and_pending (hstatic : ∀ n, env.chainAt n = c)
    (hfetch : ∀ n sig, env.fetchFails n sig = false)
    (hrun : (scan env programs t1 t2 k).result = none) :
    (fetchedSoFar (scan env programs t1 t2 k) ++
      sendable (pending c t1 t2 (scan env programs t1 t2 k)).flatten).Perm
      (sendable (programs.map fun program => (c.range program t2 t1).reverse).flatten) := by
  induction k with
  | zero =>
      rw [scan, pending_start]
      exact List.Perm.refl _
  | succ k ih =>
      obtain ⟨page, h⟩ := answered_scan hstatic hrun
      refine List.Perm.trans ?_ (ih (running_of_succ hrun))
      rw [h.advances.flatten, sendable_append, ← List.append_assoc]
      refine List.Perm.append_right _ ((fetchedSoFar_answered h).trans ?_)
      exact (page_perm hstatic hfetch _ h.confirmed).append_left _

/-- The last pass of a call that returned `Ok` had nothing left to do. -/
theorem final_of_ok {newest : Option Signature}
    (h : (scan env programs t1 t2 k).result = some (.ok newest)) :
    ∃ j, (scan env programs t1 t2 j).result = none ∧ (scan env programs t1 t2 j).todo = [] ∧
      fetchedSoFar (scan env programs t1 t2 k) = fetchedSoFar (scan env programs t1 t2 j) ∧
      newest = (scan env programs t1 t2 j).chronologicallyNewestSig := by
  obtain ⟨j, hj, hrun, hnil, hnewest, -⟩ := finished_of_ok h
  refine ⟨j, hrun, hnil, ?_, hnewest.symm⟩
  have hend : fetchedSoFar (scan env programs t1 t2 (j + 1)) =
      fetchedSoFar (scan env programs t1 t2 j) := by
    have hpass := pass_scan env programs t1 t2 j
    generalize scan env programs t1 t2 (j + 1) = s' at hpass
    cases hpass with
    | idle => rfl
    | finished => rfl
    | pageFailed _ hcons => exact absurd (hnil.symm.trans hcons) (by simp)
    | completed _ hcons => exact absurd (hnil.symm.trans hcons) (by simp)
    | again _ hcons => exact absurd (hnil.symm.trans hcons) (by simp)
  rw [scan_stable (returned_of_nil hnil) hj, hend]

theorem sendable_ranges (programs : List Pubkey) :
    (sendable (programs.map fun program => (c.range program t2 t1).reverse).flatten).Perm
      (programs.flatMap (successfulBetween c t1 t2)) := by
  induction programs with
  | nil => exact List.Perm.refl _
  | cons program programs ih =>
      rw [List.map_cons, List.flatten_cons, sendable_append, List.flatMap_cons]
      refine List.Perm.append ?_ ih
      rw [← sendable_range]
      exact ((List.reverse_perm _).filter _).map _

/-- A call that returned `Ok` has fetched its range, sent or not. -/
theorem fetched_of_ok (hstatic : ∀ n, env.chainAt n = c)
    (hfetch : ∀ n sig, env.fetchFails n sig = false) {newest : Option Signature}
    (hok : (scan env programs t1 t2 k).result = some (.ok newest)) :
    (fetchedSoFar (scan env programs t1 t2 k)).Perm
      (programs.flatMap (successfulBetween c t1 t2)) := by
  obtain ⟨j, hrun, hnil, hsame, -⟩ := final_of_ok hok
  have hall := fetched_and_pending hstatic hfetch hrun
  -- it returned, so nothing is pending: what was fetched is everything
  have hnone : pending c t1 t2 (scan env programs t1 t2 j) = [] := by
    rw [pending, hnil]
  rw [hnone, ← hsame] at hall
  exact (List.append_nil (fetchedSoFar (scan env programs t1 t2 k)) ▸ hall).trans
    (sendable_ranges _)

/-- While no send fails, nothing is left unsent. -/
theorem unsent_eq_nil (hsend : ∀ n sig, env.sendFails n sig = false) :
    (scan env programs t1 t2 k).unsent = [] := by
  refine List.eq_nil_iff_forall_not_mem.mpr fun tx htx => ?_
  obtain ⟨j, -, -, -, -, hfails⟩ := unsent_iff.mp htx
  exact absurd (hsend j tx.signature ▸ hfails) (by simp)

/--
**Pagination is exact and terminates.** On a static history the call returns. If no
`fetch_transaction` fails and the channel is open, then what it sent when it returns
`Ok` is, for each of the two addresses, every successful transaction strictly between
`t1` and `t2`, once; and it does return `Ok` if no page request fails. What is missing
on a channel that closes is what the sends that fail were for.
-/
theorem pagination_exact (config : Config) (env : ScanEnv) (t1 t2 : Option Signature) (c : Chain)
    (hstatic : ∀ n, env.chainAt n = c) (hfetch : ∀ n sig, env.fetchFails n sig = false) :
    (∃ result, Returns env config.programsToMonitor t1 t2 result) ∧
    (∀ k newest, (fetchBatchesInRange config env t1 t2 k).result = some (.ok newest) →
      ((∀ n sig, env.sendFails n sig = false) →
        (fetchBatchesInRange config env t1 t2 k).sent.Perm
          (config.programsToMonitor.flatMap (successfulBetween c t1 t2))) ∧
      ∃ unsent : List SolanaTransaction,
        (∀ tx ∈ unsent, ∃ n, env.sendFails n tx.signature = true) ∧
        ((fetchBatchesInRange config env t1 t2 k).sent ++ unsent).Perm
          (config.programsToMonitor.flatMap (successfulBetween c t1 t2))) ∧
    ((∀ n, env.pageFails n = false) →
      ∃ newest, Returns env config.programsToMonitor t1 t2 (.ok newest)) := by
  have hreturns := scan_returns config.programsToMonitor t1 t2 hstatic
  refine ⟨hreturns, fun k newest hok => ?_, fun hpages => ?_⟩
  · have hall := fetched_of_ok hstatic hfetch hok
    refine ⟨fun hsend => ?_, _, fun tx htx => ?_, hall⟩
    · rw [fetchedSoFar, unsent_eq_nil hsend, List.append_nil] at hall
      exact hall
    · obtain ⟨j, -, -, -, -, hfails⟩ := unsent_iff.mp htx
      exact ⟨j, hfails⟩
  · obtain ⟨result, k, hk⟩ := hreturns
    cases result with
    | ok newest => exact ⟨newest, k, hk⟩
    | error error =>
        -- an error is the error of a page request
        obtain ⟨j, -, -, hfail⟩ := pageRequestFails_of_error hk
        exact absurd (hpages j ▸ hfail) (by simp)

/-- Twelve transactions of the gateway, two of which the gas service has as well. -/
def twelve : Chain where
  history := (List.range 12).map fun n => .successful (.bare (.filled (UInt8.ofNat n))
    (if n % 5 = 0 then [.filled 1, .filled 2] else [.filled 1]) n)
  distinct := by
    change (([0, 1, 2, 3, 4, 5, 6, 7, 8, 9, 10, 11] : List UInt8).map Signature.filled).Nodup
    exact Signature.nodup_filled (by decide)
  slots := by decide

/-- Above the second one they take a full page and an empty one, and a short page. -/
theorem twelve_exact :
    (fetchBatchesInRange ⟨.filled 1, .filled 2⟩ (.static twelve) (some (.filled 1)) none 4).sent.Perm
      ((⟨.filled 1, .filled 2⟩ : Config).programsToMonitor.flatMap
        (successfulBetween twelve (some (.filled 1)) none)) :=
  ((pagination_exact ⟨.filled 1, .filled 2⟩ (.static twelve) (some (.filled 1)) none twelve
    (fun _ => rfl) (fun _ _ => rfl)).2.1 4 (some (.filled 11)) (by decide +kernel)).1
    fun _ _ => rfl

end AxelarRelayer.Proof
