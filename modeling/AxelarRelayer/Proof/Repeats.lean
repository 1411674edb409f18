import AxelarRelayer.Proof.BatchReturns

/-!
# How often a call sends a transaction

A batch call may well send a transaction twice: once for each monitored program it
mentions. But it does not do so more often, although a program is asked for page after
page while the chain grows. A page shows nothing twice, and the next page of the program
starts below the last entry, so whatever was shown is out of reach until the program is
done. `chances` counts how often the call can still list a transaction, and every pass
that sends it uses one up.
-/

namespace AxelarRelayer.Proof

open AxelarRelayer Listener

variable {env : ScanEnv} {programs rest : List Pubkey} {program : Pubkey}
  {t1 t2 : Option Signature} {d : Chain} {st oldest : TxStatus} {tx : SolanaTransaction}
  {s s' : ScanState}

/-! ## One page -/

/-- A task sends the transaction it was spawned for, if any. -/
theorem fetchAndSendTask_signature {n : Nat} {sig : Signature}
    (h : env.fetchAndSendTask n sig = .ok (some tx)) : tx.signature = sig := by
  unfold ScanEnv.fetchAndSendTask at h
  split at h
  · cases h
  · cases h
  · rename_i sent hfetch
    split at h
    · cases h
    · obtain rfl := Option.some.inj (Except.ok.inj h)
      unfold ScanEnv.fetchTransaction at hfetch
      split at hfetch
      · cases hfetch
      · split at hfetch
        · rename_i hst
          obtain rfl := Except.ok.inj hfetch
          exact (Chain.mem_of_status? hst).2
        · cases hfetch

/-- The tasks of a page send nothing more often than the page shows it. -/
theorem count_fetchAndSend_le (n : Nat) (signatures : List Signature) :
    (fetchAndSend env n signatures).count tx ≤ signatures.count tx.signature := by
  rw [fetchAndSend, List.count_filterMap, ← (env.completes n signatures).count_eq]
  refine List.countP_mono_left fun sig _ hsent => ?_
  have hsome := beq_iff_eq.mp hsent
  split at hsome
  · rename_i hok
    rw [hsome] at hok
    exact beq_iff_eq.mpr (fetchAndSendTask_signature hok).symm
  · cases hsome

/-- A page sends a transaction once if it shows it, and not at all otherwise. -/
theorem count_page (env : ScanEnv) (t1 : Option Signature) (s : ScanState) (program : Pubkey)
    (tx : SolanaTransaction) :
    (fetchAndSend env s.requests
      ((pageOf env t1 s program).map TxStatus.signature).reverse).count tx ≤
        if .successful tx ∈ pageOf env t1 s program then 1 else 0 := by
  have hpage : ∀ st ∈ pageOf env t1 s program, st ∈ (env.chainAt s.requests).history :=
    fun st hst => (mem_pageOf hst).1
  by_cases hshown : .successful tx ∈ pageOf env t1 s program
  · rw [if_pos hshown]
    refine Nat.le_trans (count_fetchAndSend_le _ _) ?_
    rw [List.count_reverse]
    exact List.nodup_iff_count_le_one.mp (Paging.page_nodup (env.chainAt s.requests).distinct) _
  · rw [if_neg hshown, Nat.le_zero, List.count_eq_zero]
    exact fun hsent => hshown ((mem_fetchAndSend hpage).mp hsent).1

/-! ## Chances -/

/-- The program can still list `st`, on the chain the call ends with. -/
def stillOpen (d : Chain) (st : TxStatus) (t2InLoop : Option Signature) (program : Pubkey) : Bool :=
  st.mentions program && decide (d.Older t2InLoop st)

/-- How often the call can still list `st`: once for the current program, unless its pages
are past `st` already, and once for each program after it. -/
def chances (d : Chain) (st : TxStatus) (s : ScanState) : Nat :=
  match s.todo with
  | [] => 0
  | program :: rest => (if stillOpen d st s.t2InLoop program then 1 else 0) + rest.countP st.mentions

theorem chances_cons (htodo : s.todo = program :: rest) : chances d st s =
    (if stillOpen d st s.t2InLoop program then 1 else 0) + rest.countP st.mentions := by
  rw [chances, htodo]

theorem chances_le (s : ScanState) : chances d st s ≤ s.todo.countP st.mentions := by
  cases htodo : s.todo with
  | nil =>
      rw [chances, htodo]
      exact Nat.zero_le _
  | cons program rest =>
      rw [chances_cons htodo, List.countP_cons]
      by_cases hment : st.mentions program = true
      · rw [if_pos hment]
        split <;> omega
      · rw [if_neg hment, if_neg (by simp [stillOpen, hment])]
        omega

/-- Whatever a page shows was open to it. -/
theorem stillOpen_of_shown (hle : env.chainAt s.requests ≤ d)
    (hshown : st ∈ pageOf env t1 s program) : stillOpen d st s.t2InLoop program = true := by
  obtain ⟨hin, hment, holder, -⟩ := mem_pageOf hshown
  rw [stillOpen, hment, decide_eq_true (older_mono hle hin holder)]
  rfl

/-- And is no longer open to the pages below the last entry. -/
theorem not_below_last (hle : env.chainAt s.requests ≤ d)
    (hlast : (pageOf env t1 s program).getLast? = some oldest)
    (hshown : st ∈ pageOf env t1 s program) : ¬ d.Older (some oldest.signature) st := by
  intro hbelow
  have hin := (mem_pageOf hshown).1
  have hon := Chain.mem_signatures (mem_pageOf (List.mem_of_getLast? hlast)).1
  exact Paging.not_older_last (env.chainAt s.requests).distinct hlast hshown
    ((Chain.older_of_le hle hin hon).mp hbelow)

/-- A page that is not the last one of its program leaves a chance to what is below its
last entry. -/
theorem chances_again (hle : env.chainAt s.requests ≤ d) (htodo : s.todo = program :: rest)
    (htodo' : s'.todo = program :: rest)
    (hlast : (pageOf env t1 s program).getLast? = some oldest)
    (hbound : s'.t2InLoop = some oldest.signature) :
    chances d st s' ≤ chances d st s ∧
      (st ∈ pageOf env t1 s program → chances d st s' ≤ rest.countP st.mentions) := by
  rw [chances_cons htodo, chances_cons htodo', hbound]
  by_cases hopen : stillOpen d st (some oldest.signature) program = true
  · obtain ⟨hment, hafter⟩ := Bool.and_eq_true_iff.mp hopen
    have hbelow := of_decide_eq_true hafter
    -- the last entry lies below the bound it was asked for, and `st` below the last entry
    have hbefore : stillOpen d st s.t2InLoop program = true := by
      obtain ⟨hin, -, holder, -⟩ := mem_pageOf (List.mem_of_getLast? hlast)
      rw [stillOpen, hment, decide_eq_true (older_trans hbelow (older_mono hle hin holder))]
      rfl
    rw [if_pos hopen, if_pos hbefore]
    exact ⟨Nat.le_refl _, fun hshown => absurd hbelow (not_below_last hle hlast hshown)⟩
  · rw [if_neg hopen, Nat.zero_add]
    exact ⟨Nat.le_add_left _ _, fun _ => Nat.le_refl _⟩

/-- A page that shows the transaction takes the chance of the current program. -/
theorem chances_page (hle : env.chainAt s.requests ≤ d) (htodo : s.todo = program :: rest)
    (hsent : s'.sent = (afterPage env t1 s program).sent)
    (hleft : chances d (.successful tx) s' ≤ chances d (.successful tx) s ∧
      (.successful tx ∈ pageOf env t1 s program →
        chances d (.successful tx) s' ≤ rest.countP (TxStatus.successful tx).mentions)) :
    s'.sent.count tx + chances d (.successful tx) s' ≤
      s.sent.count tx + chances d (.successful tx) s := by
  have hpage := count_page env t1 s program tx
  rw [hsent, afterPage, List.count_append]
  by_cases hshown : .successful tx ∈ pageOf env t1 s program
  · have hrest := hleft.2 hshown
    rw [if_pos hshown] at hpage
    rw [chances_cons htodo, if_pos (stillOpen_of_shown hle hshown)]
    omega
  · have hkept := hleft.1
    rw [if_neg hshown] at hpage
    omega

/-- **A pass that sends a transaction uses up a chance.** -/
theorem chances_pass (hpass : Pass env t1 t2 s s') (hle : env.chainAt s.requests ≤ d) :
    s'.sent.count tx + chances d (.successful tx) s' ≤
      s.sent.count tx + chances d (.successful tx) s := by
  cases hpass with
  | idle => exact Nat.le_refl _
  | finished => exact Nat.le_refl _
  | pageFailed =>
      rw [List.append_nil]
      exact Nat.le_refl _
  | @completed program rest _ htodo =>
      -- the programs that are left have not been asked yet
      refine chances_page hle htodo (recordNewest_sent _ _) ⟨?_, fun _ => chances_le _⟩
      rw [chances_cons htodo]
      exact Nat.le_add_left_of_le (chances_le _)
  | @again program rest oldest _ htodo _ hlast =>
      exact chances_page hle htodo (recordNewest_sent _ _)
        (chances_again hle htodo ((recordNewest_todo _ _).trans htodo) hlast rfl)

/-- After any number of passes, on any later chain. -/
theorem chances_scan (k : Nat) (hle : env.chainAt (scan env programs t1 t2 k).requests ≤ d) :
    (scan env programs t1 t2 k).sent.count tx +
      chances d (.successful tx) (scan env programs t1 t2 k) ≤
        programs.countP (TxStatus.successful tx).mentions := by
  induction k with
  | zero =>
      rw [scan, ScanState.start, List.count_nil, Nat.zero_add]
      exact chances_le _
  | succ k ih =>
      have hbefore := Chain.le_trans
        (chainAt_mono env (requests_mono env programs t1 t2 (Nat.le_succ k))) hle
      exact Nat.le_trans (chances_pass (pass_scan env programs t1 t2 k) hbefore) (ih hbefore)

/--
**A batch call sends a transaction at most once for each monitored program it mentions**,
whatever is confirmed while it pages, whichever fetches and sends fail and in whatever
order the tasks of a page complete: twice at the very most.
-/
theorem sent_once_each (config : Config) (env : ScanEnv) (t1 t2 : Option Signature) (k : Nat)
    (tx : SolanaTransaction) :
    (fetchBatchesInRange config env t1 t2 k).sent.count tx ≤
      config.programsToMonitor.countP (TxStatus.successful tx).mentions :=
  Nat.le_trans (Nat.le_add_right _ _) (chances_scan k (Chain.le_refl _))

end AxelarRelayer.Proof
