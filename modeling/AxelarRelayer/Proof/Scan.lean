import AxelarRelayer.Listener.BatchScanner

/-!
# What `fetch_batches_in_range` lists and sends

The scan is analysed in terms of the transactions its page requests *list*.
Two facts say all of it:

* `sent_iff`: what was sent is what was listed, successful, and fetched;
* `listed_of_ok`: once the call returns `Ok`, every transaction of a program's range
  that was confirmed when its first page was requested has been listed.

The chain may grow between any two requests. A program is scanned downwards from
its first page, so growth never disturbs it; but the first pages of two programs
are answered from different chains, and nothing here relates them.
-/

namespace AxelarRelayer.Proof

open AxelarRelayer Listener

variable {env : ScanEnv} {programs : List Pubkey} {t1 t2 : Option Signature}

/-! ## Chains seen by successive requests -/

theorem chainAt_mono (env : ScanEnv) {m n : Nat} (h : m ≤ n) : env.chainAt m ≤ env.chainAt n := by
  induction h with
  | refl => exact Chain.le_refl _
  | step _ ih => exact Chain.le_trans ih (env.grows _)

/-- Newer on a later chain means newer on every chain that already had the transaction. -/
theorem newer_of_le {c d : Chain} {since : Option Signature} {st : TxStatus} (h : c ≤ d)
    (hst : st ∈ c.history) (hnew : d.Newer since st) : c.Newer since st := by
  cases since with
  | none => trivial
  | some u =>
      intro hu
      exact (Paging.newer_grow h hst hu).mp hnew hu

/-- Older on an earlier chain stays older. -/
theorem older_mono {c d : Chain} {before : Option Signature} {st : TxStatus} (h : c ≤ d)
    (hst : st ∈ c.history) (hold : c.Older before st) : d.Older before st := by
  cases before with
  | none => trivial
  | some b => exact (Chain.older_of_le h hst hold.1).mpr hold

theorem older_trans {c : Chain} {before : Option Signature} {a b : TxStatus}
    (hab : c.Older (some b.signature) a) (hb : c.Older before b) : c.Older before a := by
  cases before with
  | none => trivial
  | some x => exact ⟨hb.1, Nat.lt_trans hab.2 hb.2⟩

/-! ## One pass -/

@[simp] theorem recordNewest_todo (s : ScanState) (x : Option SlotSignature) :
    (s.recordNewest x).todo = s.todo := by
  unfold ScanState.recordNewest; split <;> (try split) <;> rfl

@[simp] theorem recordNewest_sent (s : ScanState) (x : Option SlotSignature) :
    (s.recordNewest x).sent = s.sent := by
  unfold ScanState.recordNewest; split <;> (try split) <;> rfl

@[simp] theorem recordNewest_unsent (s : ScanState) (x : Option SlotSignature) :
    (s.recordNewest x).unsent = s.unsent := by
  unfold ScanState.recordNewest; split <;> (try split) <;> rfl

@[simp] theorem recordNewest_requests (s : ScanState) (x : Option SlotSignature) :
    (s.recordNewest x).requests = s.requests := by
  unfold ScanState.recordNewest; split <;> (try split) <;> rfl

@[simp] theorem recordNewest_result (s : ScanState) (x : Option SlotSignature) :
    (s.recordNewest x).result = s.result := by
  unfold ScanState.recordNewest; split <;> (try split) <;> rfl

/-- The page the current pass is answered with. -/
def pageOf (env : ScanEnv) (t1 : Option Signature) (s : ScanState) (program : Pubkey) :
    List TxStatus :=
  (s.fetcher t1 program).fetchedSignatures (env.chainAt s.requests)

/-- The state once the page was requested and its transactions handled. -/
def afterPage (env : ScanEnv) (t1 : Option Signature) (s : ScanState) (program : Pubkey) :
    ScanState :=
  { s with
    requests := s.requests + 1
    sent := s.sent ++
      fetchAndSend env s.requests ((pageOf env t1 s program).map TxStatus.signature).reverse
    unsent := s.unsent ++
      fetchedUnsent env s.requests ((pageOf env t1 s program).map TxStatus.signature).reverse }

/-- Every effect a pass can have. -/
inductive Pass (env : ScanEnv) (t1 t2 : Option Signature) (s : ScanState) : ScanState → Prop where
  | idle : s.result ≠ none → Pass env t1 t2 s s
  | finished : s.result = none → s.todo = [] →
      Pass env t1 t2 s { s with result := some (.ok s.chronologicallyNewestSig) }
  | pageFailed {program : Pubkey} {rest : List Pubkey} {error : Report} :
      s.result = none → s.todo = program :: rest → env.pageFails s.requests = true →
      Pass env t1 t2 s
        { s with
          requests := s.requests + 1
          sent := s.sent ++ []
          unsent := s.unsent ++ []
          result := some (.error error) }
  | completed {program : Pubkey} {rest : List Pubkey} :
      s.result = none → s.todo = program :: rest → env.pageFails s.requests = false →
      (pageOf env t1 s program).length < LIMIT →
      Pass env t1 t2 s
        { (afterPage env t1 s program).recordNewest
            ((pageOf env t1 s program).head?.map slotSignature) with
          todo := rest, t2InLoop := t2 }
  | again {program : Pubkey} {rest : List Pubkey} {oldest : TxStatus} :
      s.result = none → s.todo = program :: rest → env.pageFails s.requests = false →
      (pageOf env t1 s program).getLast? = some oldest →
      Pass env t1 t2 s
        { (afterPage env t1 s program).recordNewest
            ((pageOf env t1 s program).head?.map slotSignature) with
          t2InLoop := some oldest.signature }

theorem fetchingState_cases (page : List TxStatus) :
    (page.length < LIMIT ∧
      fetchingState page = .completed (page.head?.map slotSignature)) ∨
    ∃ oldest, page.getLast? = some oldest ∧
      fetchingState page = .fetchAgain (slotSignature oldest) (page.head?.map slotSignature) := by
  cases page with
  | nil => exact Or.inl ⟨by decide, rfl⟩
  | cons a page =>
      have hlast : (a :: page).getLast? = some ((a :: page).getLast (by simp)) :=
        List.getLast?_eq_some_getLast (by simp)
      by_cases hlen : (a :: page).length < LIMIT
      · refine Or.inl ⟨hlen, ?_⟩
        rw [fetchingState, hlast, List.head?_cons]
        simp only [if_pos hlen, Option.map_some]
      · refine Or.inr ⟨_, hlast, ?_⟩
        rw [fetchingState, hlast, List.head?_cons]
        simp only [if_neg hlen, Option.map_some]

theorem pass_step (s : ScanState) : Pass env t1 t2 s (s.step env t1 t2) := by
  unfold ScanState.step
  split
  · rename_i hres
    exact .idle (by rw [hres]; simp)
  · rename_i hres htodo
    exact .finished hres htodo
  · rename_i program rest hres htodo
    by_cases hfail : env.pageFails s.requests = true
    · simp only [SignatureRangeFetcher.fetch, hfail, if_true]
      exact .pageFailed hres htodo hfail
    · have hok : env.pageFails s.requests = false := by simpa using hfail
      simp only [SignatureRangeFetcher.fetch, hfail, if_false, Bool.false_eq_true]
      rcases fetchingState_cases (pageOf env t1 s program) with ⟨hlen, hst⟩ | ⟨oldest, hlast, hst⟩
      · have hst' := hst
        rw [pageOf] at hst'
        simp only [hst']
        exact .completed hres htodo hok hlen
      · have hst' := hst
        rw [pageOf] at hst'
        simp only [hst']
        exact .again hres htodo hok hlast

theorem pass_scan (env : ScanEnv) (programs : List Pubkey) (t1 t2 : Option Signature) (k : Nat) :
    Pass env t1 t2 (scan env programs t1 t2 k) (scan env programs t1 t2 (k + 1)) :=
  pass_step _

/-- A pass after which the call still runs made one request. -/
theorem Pass.requests {s s' : ScanState} (h : Pass env t1 t2 s s') (hrun : s'.result = none) :
    s.result = none ∧ s'.requests = s.requests + 1 := by
  cases h with
  | idle hres => exact absurd hrun hres
  | finished => exact absurd hrun (by simp)
  | pageFailed => exact absurd hrun (by simp)
  | completed hres => exact ⟨hres, by simp [afterPage]⟩
  | again hres => exact ⟨hres, by simp [afterPage]⟩

/-- A call that has not returned by pass `k + 1` had not returned by pass `k`. -/
theorem running_of_succ {k : Nat} (h : (scan env programs t1 t2 (k + 1)).result = none) :
    (scan env programs t1 t2 k).result = none := ((pass_scan env programs t1 t2 k).requests h).1

/-- As long as the call runs, each pass has made one request. -/
theorem scan_requests {k : Nat} (h : (scan env programs t1 t2 k).result = none) :
    (scan env programs t1 t2 k).requests = k := by
  induction k with
  | zero => rfl
  | succ k ih => rw [((pass_scan env programs t1 t2 k).requests h).2, ih (running_of_succ h)]

theorem requests_mono (env : ScanEnv) (programs : List Pubkey) (t1 t2 : Option Signature)
    {j k : Nat} (h : j ≤ k) :
    (scan env programs t1 t2 j).requests ≤ (scan env programs t1 t2 k).requests := by
  induction h with
  | refl => exact Nat.le_refl _
  | @step k _ ih =>
      refine Nat.le_trans ih ?_
      have hpass := pass_scan env programs t1 t2 k
      generalize scan env programs t1 t2 (k + 1) = s' at hpass ⊢
      cases hpass with
      | idle => exact Nat.le_refl _
      | finished => exact Nat.le_refl _
      | pageFailed => exact Nat.le_succ _
      | completed => simp [afterPage]
      | again => simp [afterPage]

theorem requests_le (k : Nat) : (scan env programs t1 t2 k).requests ≤ k := by
  induction k with
  | zero => exact Nat.le_refl 0
  | succ k ih =>
      have hpass := pass_scan env programs t1 t2 k
      generalize scan env programs t1 t2 (k + 1) = s' at hpass ⊢
      cases hpass with
      | idle => exact Nat.le_succ_of_le ih
      | finished => exact Nat.le_succ_of_le ih
      | pageFailed => exact Nat.succ_le_succ ih
      | completed => simpa [afterPage] using ih
      | again => simpa [afterPage] using ih

/-- Once the call has returned, nothing changes any more. -/
theorem scan_stable {k m : Nat} (h : (scan env programs t1 t2 k).result ≠ none) (hkm : k ≤ m) :
    scan env programs t1 t2 m = scan env programs t1 t2 k := by
  induction hkm with
  | refl => rfl
  | step _ ih =>
      rw [scan, ih]
      unfold ScanState.step
      split
      · rfl
      · rename_i hres _; exact absurd hres h
      · rename_i hres _; exact absurd hres h

@[simp] theorem recordNewest_none (s : ScanState) : s.recordNewest none = s := by
  unfold ScanState.recordNewest; split <;> simp_all

/-- The first head seen becomes the cursor. -/
theorem recordNewest_first {s : ScanState} {y : TxStatus}
    (hn : s.chronologicallyNewestSig = none) (hs : s.slot = none) :
    s.recordNewest (some (slotSignature y)) =
      { s with chronologicallyNewestSig := some y.signature, slot := some y.tx.slot } := by
  simp only [ScanState.recordNewest, slotSignature, hn, hs]

/-- A later head replaces it if its slot is later than the first one's. -/
theorem recordNewest_later {s : ScanState} {y : TxStatus} {old : Nat}
    (hn : s.chronologicallyNewestSig ≠ none) (hs : s.slot = some old) :
    s.recordNewest (some (slotSignature y)) =
      if old < y.tx.slot then { s with chronologicallyNewestSig := some y.signature } else s := by
  obtain ⟨v, hv⟩ := Option.ne_none_iff_exists'.mp hn
  simp only [ScanState.recordNewest, slotSignature, hv, hs]

/-- What an answered pass does to the cursor and its slot. -/
theorem newest_succ {k : Nat} {program : Pubkey} {rest : List Pubkey}
    (hrun : (scan env programs t1 t2 (k + 1)).result = none)
    (htodo : (scan env programs t1 t2 k).todo = program :: rest) :
    env.pageFails k = false ∧
    (pageOf env t1 (scan env programs t1 t2 k) program = [] →
      (scan env programs t1 t2 (k + 1)).todo = rest) ∧
    ∃ s : ScanState,
      s.chronologicallyNewestSig = (scan env programs t1 t2 k).chronologicallyNewestSig ∧
      s.slot = (scan env programs t1 t2 k).slot ∧
      (scan env programs t1 t2 (k + 1)).chronologicallyNewestSig =
        (s.recordNewest ((pageOf env t1 (scan env programs t1 t2 k) program).head?.map
          slotSignature)).chronologicallyNewestSig ∧
      (scan env programs t1 t2 (k + 1)).slot =
        (s.recordNewest ((pageOf env t1 (scan env programs t1 t2 k) program).head?.map
          slotSignature)).slot := by
  have hrunk := running_of_succ hrun
  have hreq := scan_requests hrunk
  have hpass := pass_scan env programs t1 t2 k
  generalize scan env programs t1 t2 (k + 1) = s' at hpass hrun ⊢
  cases hpass with
  | idle hres => exact absurd hrunk hres
  | finished _ hnil => exact absurd (hnil.symm.trans htodo) (by simp)
  | pageFailed => exact absurd hrun (by simp)
  | @completed program' _ _ htodo' hok =>
      obtain ⟨rfl, rfl⟩ := List.cons.inj (htodo'.symm.trans htodo)
      rw [hreq] at hok
      exact ⟨hok, fun _ => rfl, afterPage env t1 (scan env programs t1 t2 k) program',
        rfl, rfl, rfl, rfl⟩
  | @again program' _ _ _ htodo' hok hlast =>
      obtain ⟨rfl, rfl⟩ := List.cons.inj (htodo'.symm.trans htodo)
      rw [hreq] at hok
      -- a page with a last entry is not empty
      refine ⟨hok, fun hnil => ?_, afterPage env t1 (scan env programs t1 t2 k) program',
        rfl, rfl, rfl, rfl⟩
      rw [hnil] at hlast
      exact absurd hlast (by simp)

/-- With nothing left to visit the next pass returns. -/
theorem returned_of_nil {k : Nat} (hnil : (scan env programs t1 t2 k).todo = []) :
    (scan env programs t1 t2 (k + 1)).result ≠ none := by
  intro hrun
  have hrunk := running_of_succ hrun
  have hpass := pass_scan env programs t1 t2 k
  generalize scan env programs t1 t2 (k + 1) = s' at hpass hrun
  cases hpass with
  | idle hres => exact absurd hrunk hres
  | finished => exact absurd hrun (by simp)
  | pageFailed _ hcons => exact absurd (hnil.symm.trans hcons) (by simp)
  | completed _ hcons => exact absurd (hnil.symm.trans hcons) (by simp)
  | again _ hcons => exact absurd (hnil.symm.trans hcons) (by simp)

/-! ## Listed transactions -/

/-- Pass `k` requests a page for `program` and the page shows `st`. -/
structure Lists (env : ScanEnv) (programs : List Pubkey) (t1 t2 : Option Signature) (k : Nat)
    (program : Pubkey) (st : TxStatus) : Prop where
  running : (scan env programs t1 t2 k).result = none
  current : ∃ rest, (scan env programs t1 t2 k).todo = program :: rest
  answered : env.pageFails k = false
  shown : st ∈ pageOf env t1 (scan env programs t1 t2 k) program

theorem mem_pageOf {s : ScanState} {program : Pubkey} {st : TxStatus}
    (h : st ∈ pageOf env t1 s program) :
    st ∈ (env.chainAt s.requests).history ∧ st.mentions program ∧
      (env.chainAt s.requests).Older s.t2InLoop st ∧ (env.chainAt s.requests).Newer t1 st :=
  Chain.mem_range.mp (Paging.mem_range_of_mem_page h)

/-- The fetch of a transaction the chain has fails or returns it. -/
theorem fetchTransaction_iff {n : Nat} {shown st : TxStatus}
    (hshown : shown ∈ (env.chainAt n).history) :
    env.fetchTransaction n shown.signature = .ok st ↔
      env.fetchFails n shown.signature = false ∧ shown = st := by
  unfold ScanEnv.fetchTransaction
  rw [Chain.status?_of_mem hshown]
  cases env.fetchFails n shown.signature <;> simp

/-- The successful transactions of a page that are fetched, by how their send goes. -/
theorem exists_fetched_iff {n : Nat} {page : List TxStatus} {tx : SolanaTransaction} {fails : Bool}
    (hpage : ∀ st ∈ page, st ∈ (env.chainAt n).history) :
    (∃ sig ∈ env.completion n (page.map TxStatus.signature).reverse,
        env.fetchTransaction n sig = .ok (.successful tx) ∧ env.sendFails n sig = fails) ↔
      TxStatus.successful tx ∈ page ∧ env.fetchFails n tx.signature = false ∧
        env.sendFails n tx.signature = fails := by
  constructor
  · rintro ⟨sig, hsig, hfetched, hsend⟩
    rw [(env.completes n _).mem_iff, List.mem_reverse, List.mem_map] at hsig
    obtain ⟨st, hst, rfl⟩ := hsig
    obtain ⟨hok, rfl⟩ := (fetchTransaction_iff (hpage st hst)).mp hfetched
    exact ⟨hst, hok, hsend⟩
  · rintro ⟨hst, hok, hsend⟩
    refine ⟨tx.signature, ?_, (fetchTransaction_iff (hpage _ hst)).mpr ⟨hok, rfl⟩, hsend⟩
    rw [(env.completes n _).mem_iff, List.mem_reverse]
    exact List.mem_map_of_mem hst

/-- What a page sends: its successful transactions whose fetch and whose send worked. -/
theorem mem_fetchAndSend {n : Nat} {page : List TxStatus} {tx : SolanaTransaction}
    (hpage : ∀ st ∈ page, st ∈ (env.chainAt n).history) :
    tx ∈ fetchAndSend env n (page.map TxStatus.signature).reverse ↔
      TxStatus.successful tx ∈ page ∧ env.fetchFails n tx.signature = false ∧
        env.sendFails n tx.signature = false := by
  rw [← exists_fetched_iff hpage, fetchAndSend, List.mem_filterMap]
  refine exists_congr fun sig => and_congr_right fun _ => ?_
  unfold ScanEnv.fetchAndSendTask
  cases env.fetchTransaction n sig with
  | error err => simp
  | ok st => cases st <;> cases env.sendFails n sig <;> simp

/-- What a page fetches and cannot send. -/
theorem mem_fetchedUnsent {n : Nat} {page : List TxStatus} {tx : SolanaTransaction}
    (hpage : ∀ st ∈ page, st ∈ (env.chainAt n).history) :
    tx ∈ fetchedUnsent env n (page.map TxStatus.signature).reverse ↔
      TxStatus.successful tx ∈ page ∧ env.fetchFails n tx.signature = false ∧
        env.sendFails n tx.signature = true := by
  rw [← exists_fetched_iff hpage, fetchedUnsent, List.mem_filterMap]
  refine exists_congr fun sig => and_congr_right fun _ => ?_
  cases env.fetchTransaction n sig with
  | error err => simp
  | ok st => cases st <;> cases env.sendFails n sig <;> simp

/-- What pass `k` adds to the transactions handled so far. -/
inductive Handles (env : ScanEnv) (programs : List Pubkey) (t1 t2 : Option Signature) (k : Nat) :
    Prop where
  | nothing : (∀ program st, ¬ Lists env programs t1 t2 k program st) →
      (scan env programs t1 t2 (k + 1)).sent = (scan env programs t1 t2 k).sent →
      (scan env programs t1 t2 (k + 1)).unsent = (scan env programs t1 t2 k).unsent →
      Handles env programs t1 t2 k
  | page (program : Pubkey) (page : List TxStatus) : (∀ st ∈ page, st ∈ (env.chainAt k).history) →
      (∀ other st, Lists env programs t1 t2 k other st ↔ other = program ∧ st ∈ page) →
      (scan env programs t1 t2 (k + 1)).sent = (scan env programs t1 t2 k).sent ++
        fetchAndSend env k (page.map TxStatus.signature).reverse →
      (scan env programs t1 t2 (k + 1)).unsent = (scan env programs t1 t2 k).unsent ++
        fetchedUnsent env k (page.map TxStatus.signature).reverse →
      Handles env programs t1 t2 k

/-- A pass whose page is answered handles that page. -/
theorem handles_of_answered {k : Nat} {program : Pubkey} {rest : List Pubkey}
    (hrun : (scan env programs t1 t2 k).result = none)
    (htodo : (scan env programs t1 t2 k).todo = program :: rest) (hok : env.pageFails k = false)
    (hsent : (scan env programs t1 t2 (k + 1)).sent =
      (afterPage env t1 (scan env programs t1 t2 k) program).sent)
    (hunsent : (scan env programs t1 t2 (k + 1)).unsent =
      (afterPage env t1 (scan env programs t1 t2 k) program).unsent) :
    Handles env programs t1 t2 k := by
  rw [afterPage, scan_requests hrun] at hsent hunsent
  refine .page program (pageOf env t1 (scan env programs t1 t2 k) program) ?_ ?_ hsent hunsent
  · intro st hst
    have hin := (mem_pageOf hst).1
    rwa [scan_requests hrun] at hin
  · intro other st
    constructor
    · intro hl
      obtain ⟨rest', hother⟩ := hl.current
      obtain ⟨rfl, -⟩ := List.cons.inj (htodo.symm.trans hother)
      exact ⟨rfl, hl.shown⟩
    · rintro ⟨rfl, hst⟩
      exact ⟨hrun, ⟨rest, htodo⟩, hok, hst⟩

theorem handles_scan (env : ScanEnv) (programs : List Pubkey) (t1 t2 : Option Signature) (k : Nat) :
    Handles env programs t1 t2 k := by
  have hpass := pass_scan env programs t1 t2 k
  generalize hs' : scan env programs t1 t2 (k + 1) = s' at hpass
  cases hpass with
  | idle hres => exact .nothing (fun _ _ hl => hres hl.running) (by rw [hs']) (by rw [hs'])
  | finished hres htodo =>
      refine .nothing (fun program st hl => ?_) (by rw [hs']) (by rw [hs'])
      obtain ⟨rest, hc⟩ := hl.current
      exact absurd (htodo.symm.trans hc) (by simp)
  | pageFailed hres htodo hfail =>
      refine .nothing (fun program st hl => ?_) (by simp [hs']) (by simp [hs'])
      rw [scan_requests hres] at hfail
      exact absurd (hfail.symm.trans hl.answered) (by simp)
  | completed hres htodo hok =>
      rw [scan_requests hres] at hok
      exact handles_of_answered hres htodo hok (by rw [hs', recordNewest_sent])
        (by rw [hs', recordNewest_unsent])
  | again hres htodo hok =>
      rw [scan_requests hres] at hok
      exact handles_of_answered hres htodo hok (by simp [hs']) (by simp [hs'])

/-- What pass `k` sends, beside what was sent before. -/
theorem sent_succ_iff {k : Nat} {tx : SolanaTransaction} :
    tx ∈ (scan env programs t1 t2 (k + 1)).sent ↔ tx ∈ (scan env programs t1 t2 k).sent ∨
      ∃ program, Lists env programs t1 t2 k program (.successful tx) ∧
        env.fetchFails k tx.signature = false ∧ env.sendFails k tx.signature = false := by
  cases handles_scan env programs t1 t2 k with
  | nothing hno hsent => simp [hsent, hno]
  | page program page hpage hlists hsent =>
      rw [hsent, List.mem_append, mem_fetchAndSend hpage]
      simp [hlists]

theorem unsent_succ_iff {k : Nat} {tx : SolanaTransaction} :
    tx ∈ (scan env programs t1 t2 (k + 1)).unsent ↔ tx ∈ (scan env programs t1 t2 k).unsent ∨
      ∃ program, Lists env programs t1 t2 k program (.successful tx) ∧
        env.fetchFails k tx.signature = false ∧ env.sendFails k tx.signature = true := by
  cases handles_scan env programs t1 t2 k with
  | nothing hno _ hunsent => simp [hunsent, hno]
  | page program page hpage hlists _ hunsent =>
      rw [hunsent, List.mem_append, mem_fetchedUnsent hpage]
      simp [hlists]

/-- What every pass may add is there after `k` passes if one of them added it. -/
theorem exists_lt_of_succ_iff {q r : Nat → Prop} (h0 : ¬ q 0)
    (hsucc : ∀ k, q (k + 1) ↔ q k ∨ r k) (k : Nat) : q k ↔ ∃ j < k, r j := by
  induction k with
  | zero => simp [h0]
  | succ k ih =>
      rw [hsucc, ih]
      constructor
      · rintro (⟨j, hj, hr⟩ | hr)
        · exact ⟨j, Nat.lt_succ_of_lt hj, hr⟩
        · exact ⟨k, Nat.lt_succ_self k, hr⟩
      · rintro ⟨j, hj, hr⟩
        rcases Nat.lt_succ_iff_lt_or_eq.mp hj with hlt | rfl
        · exact Or.inl ⟨j, hlt, hr⟩
        · exact Or.inr hr

/-- **What was sent is what was listed, succeeded on chain, could be fetched and sent.** -/
theorem sent_iff {k : Nat} {tx : SolanaTransaction} :
    tx ∈ (scan env programs t1 t2 k).sent ↔ ∃ j < k, ∃ program,
      Lists env programs t1 t2 j program (.successful tx) ∧
        env.fetchFails j tx.signature = false ∧ env.sendFails j tx.signature = false :=
  exists_lt_of_succ_iff (q := fun k => tx ∈ (scan env programs t1 t2 k).sent)
    (by simp [scan, ScanState.start]) (fun _ => sent_succ_iff) k

/-- What could not be sent was listed and fetched while the receiver was gone. -/
theorem unsent_iff {k : Nat} {tx : SolanaTransaction} :
    tx ∈ (scan env programs t1 t2 k).unsent ↔ ∃ j < k, ∃ program,
      Lists env programs t1 t2 j program (.successful tx) ∧
        env.fetchFails j tx.signature = false ∧ env.sendFails j tx.signature = true :=
  exists_lt_of_succ_iff (q := fun k => tx ∈ (scan env programs t1 t2 k).unsent)
    (by simp [scan, ScanState.start]) (fun _ => unsent_succ_iff) k

/-- The upper bound of a page is the argument's or a transaction below it. -/
theorem bound_scan {k : Nat} (hrun : (scan env programs t1 t2 k).result = none) :
    (scan env programs t1 t2 k).t2InLoop = t2 ∨
      ∃ o ∈ (env.chainAt k).history, (env.chainAt k).Older t2 o ∧
        (scan env programs t1 t2 k).t2InLoop = some o.signature := by
  induction k with
  | zero => exact Or.inl rfl
  | succ k ih =>
      have hrunk := running_of_succ hrun
      have hreq := scan_requests hrunk
      have hpass := pass_scan env programs t1 t2 k
      generalize scan env programs t1 t2 (k + 1) = s' at hpass hrun ⊢
      cases hpass with
      | idle hres => exact absurd hrunk hres
      | finished => exact absurd hrun (by simp)
      | pageFailed => exact absurd hrun (by simp)
      | completed => exact Or.inl rfl
      | @again _ _ oldest _ _ _ hlast =>
          obtain ⟨hin, _, holder, _⟩ := mem_pageOf (List.mem_of_getLast? hlast)
          rw [hreq] at hin holder
          refine Or.inr ⟨oldest, Chain.mem_of_le (env.grows k) hin,
            older_mono (env.grows k) hin ?_, rfl⟩
          -- the last entry lies below the bound it was requested with, which lies below `t2`
          rcases ih hrunk with hb | ⟨o, _, ho, hb⟩
          · exact hb ▸ holder
          · rw [hb] at holder
            exact older_trans holder ho

/-- Everything listed is older than `t2`. -/
theorem older_of_lists {k : Nat} {program : Pubkey} {st : TxStatus}
    (hl : Lists env programs t1 t2 k program st) : (env.chainAt k).Older t2 st := by
  obtain ⟨_, _, holder, _⟩ := mem_pageOf hl.shown
  rw [scan_requests hl.running] at holder
  rcases bound_scan hl.running with hb | ⟨o, _, ho, hb⟩
  · exact hb ▸ holder
  · rw [hb] at holder
    exact older_trans holder ho

/-- Whatever was sent was confirmed by the time of the last request. -/
theorem confirmed_of_sent {k : Nat} {tx : SolanaTransaction}
    (h : tx ∈ (scan env programs t1 t2 k).sent) : ∃ j program,
      Lists env programs t1 t2 j program (.successful tx) ∧
        j ≤ (scan env programs t1 t2 k).requests ∧
        TxStatus.successful tx ∈ (env.chainAt (scan env programs t1 t2 k).requests).history := by
  obtain ⟨j, hj, program, hl, _⟩ := sent_iff.mp h
  obtain ⟨hin, _⟩ := mem_pageOf hl.shown
  rw [scan_requests hl.running] at hin
  have hle : j ≤ (scan env programs t1 t2 k).requests := by
    have := requests_mono env programs t1 t2 (Nat.le_of_lt hj)
    rwa [scan_requests hl.running] at this
  exact ⟨j, program, hl, hle, Chain.mem_of_le (chainAt_mono env hle) hin⟩

/-! ## Covering a range -/

/--
`st` lies in the range of `program` whose first page was requested by pass `m`;
the lower bound is read on `D`, a chain at least as long as all those involved.
-/
structure InRange (env : ScanEnv) (D : Chain) (t1 t2 : Option Signature) (program : Pubkey)
    (m : Nat) (st : TxStatus) : Prop where
  confirmed : st ∈ (env.chainAt m).history
  mentions : st.mentions program = true
  older : (env.chainAt m).Older t2 st
  newer : D.Newer t1 st

/-- The range opened by pass `m` has been listed completely. -/
def Covered (env : ScanEnv) (programs : List Pubkey) (D : Chain) (t1 t2 : Option Signature)
    (k m : Nat) (program : Pubkey) : Prop :=
  ∀ st, InRange env D t1 t2 program m st → ∃ j < k, Lists env programs t1 t2 j program st

/-- The recorded newest signature is the argument `t2` or stands on the given chain. -/
def NewestOn (t2 : Option Signature) (s : ScanState) (chain : Chain) : Prop :=
  ∀ n, s.chronologicallyNewestSig = some n →
    t2 = some n ∨ n ∈ chain.history.map TxStatus.signature

/-- Pass `k` is about to go on with the range that pass `m` opened. -/
structure Current (env : ScanEnv) (programs : List Pubkey) (D : Chain) (t1 t2 : Option Signature)
    (k m : Nat) (program : Pubkey) : Prop where
  le : m ≤ k
  /-- The upper bound is the argument's at first, a transaction of the range afterwards. -/
  cursor : (m = k ∧ (scan env programs t1 t2 k).t2InLoop = t2) ∨
    m < k ∧ ∃ o ∈ (env.chainAt m).history,
      (scan env programs t1 t2 k).t2InLoop = some o.signature
  /-- What was not listed yet is still below the upper bound. -/
  covered : ∀ st, InRange env D t1 t2 program m st →
    (∃ j < k, Lists env programs t1 t2 j program st) ∨
      (env.chainAt k).Older (scan env programs t1 t2 k).t2InLoop st
  newest : NewestOn t2 (scan env programs t1 t2 k) (env.chainAt m)

variable {D : Chain} {k m : Nat} {program : Pubkey}

/-- A range just opened: nothing is listed, everything is below the bound. -/
theorem Current.opened (hbound : (scan env programs t1 t2 k).t2InLoop = t2)
    (hnew : NewestOn t2 (scan env programs t1 t2 k) (env.chainAt k)) :
    Current env programs D t1 t2 k k program where
  le := Nat.le_refl _
  cursor := Or.inl ⟨rfl, hbound⟩
  covered := by
    intro st hst
    rw [hbound]
    exact Or.inr hst.older
  newest := hnew

/-- Every page of a range shows only what was confirmed when the range was opened. -/
theorem Current.page_subset (hc : Current env programs D t1 t2 k m program)
    (hrun : (scan env programs t1 t2 k).result = none) {st : TxStatus}
    (hst : st ∈ pageOf env t1 (scan env programs t1 t2 k) program) :
    st ∈ (env.chainAt m).history := by
  obtain ⟨hin, _, holder, _⟩ := mem_pageOf hst
  rw [scan_requests hrun] at hin holder
  rcases hc.cursor with ⟨rfl, _⟩ | ⟨_, o, ho, hbound⟩
  · exact hin
  · rw [hbound] at holder
    exact Paging.mem_of_position_lt (env.chainAt k).distinct (chainAt_mono env hc.le) hin
      (Chain.mem_signatures ho) (Nat.le_of_lt holder.2)

/-- What was not listed yet is in the range the next page is cut from. -/
theorem Current.remaining (hc : Current env programs D t1 t2 k m program)
    (hD : env.chainAt k ≤ D) {st : TxStatus} (hst : InRange env D t1 t2 program m st) :
    (∃ j < k + 1, Lists env programs t1 t2 j program st) ∨
      st ∈ (env.chainAt k).range program (scan env programs t1 t2 k).t2InLoop t1 := by
  have hin := Chain.mem_of_le (chainAt_mono env hc.le) hst.confirmed
  rcases hc.covered st hst with ⟨j, hj, hl⟩ | hbelow
  · exact Or.inl ⟨j, Nat.lt_succ_of_lt hj, hl⟩
  · exact Or.inr (Chain.mem_range.mpr ⟨hin, hst.mentions, hbelow, newer_of_le hD hin hst.newer⟩)

theorem lists_of_mem_page (hrun : (scan env programs t1 t2 k).result = none)
    (hcur : ∃ rest, (scan env programs t1 t2 k).todo = program :: rest)
    (hok : env.pageFails k = false) {st : TxStatus}
    (hst : st ∈ pageOf env t1 (scan env programs t1 t2 k) program) :
    ∃ j < k + 1, Lists env programs t1 t2 j program st :=
  ⟨k, Nat.lt_succ_self k, hrun, hcur, hok, hst⟩

/-- The newest signature a page reports is on that page. -/
theorem recordNewest_newest {s : ScanState} {page : List TxStatus} {n : Signature}
    (h : (s.recordNewest (page.head?.map slotSignature)).chronologicallyNewestSig = some n) :
    s.chronologicallyNewestSig = some n ∨ ∃ st ∈ page, st.signature = n := by
  cases hp : page.head? with
  | none =>
      rw [hp] at h
      simp only [Option.map_none, ScanState.recordNewest] at h
      exact Or.inl h
  | some x =>
      have hx : x ∈ page := List.mem_of_head? hp
      rw [hp, Option.map_some] at h
      -- the first head is recorded, or a later one with a later slot
      unfold ScanState.recordNewest at h
      split at h
      · rename_i heq _ _
        simp only [slotSignature, Option.some.injEq, Prod.mk.injEq] at heq h
        exact Or.inr ⟨x, hx, heq.1.trans h⟩
      · exact Or.inl h
      · rename_i heq _ _
        split at h
        · simp only [slotSignature, Option.some.injEq, Prod.mk.injEq] at heq h
          exact Or.inr ⟨x, hx, heq.1.trans h⟩
        · exact Or.inl h
      · exact Or.inl h
      · exact Or.inl h

theorem NewestOn.recordNewest {s : ScanState} {chain : Chain} {page : List TxStatus}
    (hn : NewestOn t2 s chain) (hpage : ∀ st ∈ page, st ∈ chain.history) :
    NewestOn t2 (s.recordNewest (page.head?.map slotSignature)) chain := by
  intro n h
  rcases recordNewest_newest h with hold | ⟨st, hst, rfl⟩
  · exact hn n hold
  · exact Or.inr (Chain.mem_signatures (hpage st hst))

/-- **One answered pass**: the range is covered, or its bound moved down. -/
theorem Current.step (hc : Current env programs D t1 t2 k m program) {rest : List Pubkey}
    (hrun : (scan env programs t1 t2 (k + 1)).result = none)
    (htodo : (scan env programs t1 t2 k).todo = program :: rest) (hD : env.chainAt k ≤ D) :
    NewestOn t2 (scan env programs t1 t2 (k + 1)) (env.chainAt m) ∧
    (((scan env programs t1 t2 (k + 1)).todo = program :: rest ∧
        Current env programs D t1 t2 (k + 1) m program) ∨
      ((scan env programs t1 t2 (k + 1)).todo = rest ∧
        (scan env programs t1 t2 (k + 1)).t2InLoop = t2 ∧
        Covered env programs D t1 t2 (k + 1) m program)) := by
  have hrunk := running_of_succ hrun
  have hreq := scan_requests hrunk
  have hnew : NewestOn t2 ((afterPage env t1 (scan env programs t1 t2 k) program).recordNewest
      ((pageOf env t1 (scan env programs t1 t2 k) program).head?.map slotSignature))
      (env.chainAt m) :=
    NewestOn.recordNewest hc.newest (fun _ hst => hc.page_subset hrunk hst)
  have hlist := fun (hok : env.pageFails k = false) (st : TxStatus)
    (hst : st ∈ pageOf env t1 (scan env programs t1 t2 k) program) =>
      lists_of_mem_page hrunk ⟨rest, htodo⟩ hok hst
  have hpass := pass_scan env programs t1 t2 k
  generalize hs' : scan env programs t1 t2 (k + 1) = s' at hpass hrun ⊢
  cases hpass with
  | idle hres => exact absurd hrunk hres
  | finished _ hnil => exact absurd (hnil.symm.trans htodo) (by simp)
  | pageFailed => exact absurd hrun (by simp)
  | @completed program' rest' _ htodo' hok hlen =>
      obtain ⟨rfl, rfl⟩ := List.cons.inj (htodo'.symm.trans htodo)
      rw [hreq] at hok
      -- a short page shows all that was left below the bound
      refine ⟨hnew, Or.inr ⟨rfl, rfl, ?_⟩⟩
      intro st hst
      rcases hc.remaining hD hst with hl | hr
      · exact hl
      · refine hlist hok st ?_
        rw [pageOf, hreq] at hlen ⊢
        exact Paging.mem_page_of_short hlen hr
  | @again program' rest' oldest _ htodo' hok hlast =>
      obtain ⟨rfl, rfl⟩ := List.cons.inj (htodo'.symm.trans htodo)
      rw [hreq] at hok
      -- a full page: its last entry is the next bound
      have hold := hc.page_subset hrunk (List.mem_of_getLast? hlast)
      refine ⟨hnew, Or.inl ⟨by simpa [afterPage] using htodo, ?_⟩⟩
      refine ⟨Nat.le_succ_of_le hc.le, Or.inr ⟨Nat.lt_succ_of_le hc.le, oldest, hold, by rw [hs']⟩,
        ?_, ?_⟩
      · intro st hst
        rw [hs']
        rcases hc.remaining hD hst with hl | hr
        · exact Or.inl hl
        · rw [pageOf, hreq] at hlast
          rcases Paging.page_cover (env.chainAt k).distinct hlast hr with hon | hbelow
          · exact Or.inl (hlist hok st (by rw [pageOf, hreq]; exact hon))
          · -- below the bound nothing changes when the chain grows
            exact Or.inr (older_mono (env.grows k) (Chain.mem_range.mp hr).1 hbelow)
      · rw [hs']
        exact hnew

/-! ## Two programs -/

/-- How far the scan of two programs has come, and what it has listed by then. -/
inductive Progress (env : ScanEnv) (D : Chain) (t1 t2 : Option Signature) (p q : Pubkey)
    (k : Nat) : Prop where
  | first : (∀ j ≤ k, (scan env [p, q] t1 t2 j).todo = [p, q]) → Current env [p, q] D t1 t2 k 0 p →
      Progress env D t1 t2 p q k
  | second {m : Nat} : (scan env [p, q] t1 t2 k).todo = [q] → 0 < m → m ≤ k →
      (∀ j < m, (scan env [p, q] t1 t2 j).todo = [p, q]) →
      Covered env [p, q] D t1 t2 k 0 p → Current env [p, q] D t1 t2 k m q →
      Progress env D t1 t2 p q k
  | done {m : Nat} : (scan env [p, q] t1 t2 k).todo = [] → m ≤ k →
      Covered env [p, q] D t1 t2 k 0 p → Covered env [p, q] D t1 t2 k m q →
      NewestOn t2 (scan env [p, q] t1 t2 k) (env.chainAt m) →
      Progress env D t1 t2 p q k

variable {p q : Pubkey}

/-- What is covered stays covered. -/
theorem Covered.mono {k' : Nat} (h : Covered env programs D t1 t2 k m program) (hle : k ≤ k') :
    Covered env programs D t1 t2 k' m program := by
  intro st hst
  obtain ⟨j, hj, hl⟩ := h st hst
  exact ⟨j, Nat.lt_of_lt_of_le hj hle, hl⟩

theorem Covered.succ (h : Covered env programs D t1 t2 k m program) :
    Covered env programs D t1 t2 (k + 1) m program := h.mono (Nat.le_succ k)

theorem NewestOn.mono {s : ScanState} {c d : Chain} (h : NewestOn t2 s c) (hle : c ≤ d) :
    NewestOn t2 s d := by
  intro n hn
  rcases h n hn with heq | hin
  · exact Or.inl heq
  · exact Or.inr ((List.IsPrefix.map TxStatus.signature hle).subset hin)

theorem progress_scan (hrun : (scan env [p, q] t1 t2 k).result = none) (hD : env.chainAt k ≤ D) :
    Progress env D t1 t2 p q k := by
  induction k with
  | zero =>
      refine .first ?_ (Current.opened rfl (fun n hn => Or.inl hn))
      intro j hj
      rw [Nat.le_zero.mp hj]
      rfl
  | succ k ih =>
      have hDk := Chain.le_trans (env.grows k) hD
      have hopen : NewestOn t2 (scan env [p, q] t1 t2 (k + 1)) (env.chainAt 0) →
          NewestOn t2 (scan env [p, q] t1 t2 (k + 1)) (env.chainAt (k + 1)) :=
        fun h => h.mono (chainAt_mono env (Nat.zero_le _))
      cases ih (running_of_succ hrun) hDk with
      | first htodo hc =>
          have hcur := htodo k (Nat.le_refl k)
          -- still the first program, or the scan of the second one opens
          obtain ⟨hnew, ⟨htodo', hc'⟩ | ⟨htodo', hbound, hcov⟩⟩ := hc.step hrun hcur hDk
          · refine .first (fun j hj => ?_) hc'
            rcases Nat.eq_or_lt_of_le hj with rfl | hlt
            · exact htodo'
            · exact htodo j (Nat.le_of_lt_succ hlt)
          · exact .second htodo' (Nat.succ_pos k) (Nat.le_refl _)
              (fun j hj => htodo j (Nat.le_of_lt_succ hj)) hcov (Current.opened hbound (hopen hnew))
      | second htodo hpos hm hbefore hcov hc =>
          obtain ⟨hnew, ⟨htodo', hc'⟩ | ⟨htodo', _, hcov'⟩⟩ := hc.step hrun htodo hDk
          · exact .second htodo' hpos (Nat.le_succ_of_le hm) hbefore hcov.succ hc'
          · exact .done htodo' (Nat.le_succ_of_le hm) hcov.succ hcov' hnew
      | done htodo =>
          -- without a program the call has returned
          exact absurd hrun (returned_of_nil htodo)

/-- A call that returned `Ok` visited both programs first. -/
theorem finished_of_ok {newest : Option Signature}
    (h : (scan env programs t1 t2 k).result = some (.ok newest)) :
    ∃ j, j < k ∧ (scan env programs t1 t2 j).result = none ∧
      (scan env programs t1 t2 j).todo = [] ∧
      (scan env programs t1 t2 j).chronologicallyNewestSig = newest ∧
      (scan env programs t1 t2 k).requests = j := by
  induction k with
  | zero => exact absurd h (by simp [scan, ScanState.start])
  | succ k ih =>
      by_cases hrun : (scan env programs t1 t2 k).result = none
      · have hpass := pass_scan env programs t1 t2 k
        generalize scan env programs t1 t2 (k + 1) = s' at hpass h ⊢
        cases hpass with
        | idle hres => exact absurd hrun hres
        | finished _ hnil =>
            simp only [Option.some.injEq, Except.ok.injEq] at h
            exact ⟨k, Nat.lt_succ_self k, hrun, hnil, h, scan_requests hrun⟩
        | pageFailed => exact absurd h (by simp)
        | completed hres => exact absurd h (by simp [afterPage, hres])
        | again hres => exact absurd h (by simp [afterPage, hres])
      · -- it had returned before
        have hstable := scan_stable hrun (Nat.le_succ k)
        obtain ⟨j, hj, hrest⟩ := ih (by rw [← hstable]; exact h)
        exact ⟨j, Nat.lt_succ_of_lt hj, by rw [hstable]; exact hrest⟩

/--
**What a call that returned `Ok` has listed**: both programs' ranges, each as of
its own first page, the first program's as of the call's first request.
-/
theorem listed_of_ok {newest : Option Signature}
    (h : (scan env [p, q] t1 t2 k).result = some (.ok newest))
    (hD : env.chainAt (scan env [p, q] t1 t2 k).requests ≤ D) :
    ∃ m ≤ (scan env [p, q] t1 t2 k).requests, Covered env [p, q] D t1 t2 k 0 p ∧ Covered env [p, q] D t1 t2 k m q ∧
      ∀ n, newest = some n → t2 = some n ∨
        n ∈ (env.chainAt m).history.map TxStatus.signature := by
  obtain ⟨j, hj, hrun, hnil, hnewest, hreq⟩ := finished_of_ok h
  rw [hreq] at hD ⊢
  cases progress_scan hrun hD with
  | first htodo => exact absurd (hnil.symm.trans (htodo j (Nat.le_refl j))) (by simp)
  | second htodo => exact absurd (hnil.symm.trans htodo) (by simp)
  | done _ hm hcp hcq hnew =>
      -- the pass behind the last one only returns
      exact ⟨_, hm, hcp.mono (Nat.le_of_lt hj), hcq.mono (Nat.le_of_lt hj),
        fun n hn => hnew n (hnewest.trans hn)⟩

/-- With all fetches working, listed and successful means sent, if nothing was left unsent. -/
theorem Covered.sent (hcov : Covered env programs D t1 t2 k m program)
    (hfetch : ∀ n sig, env.fetchFails n sig = false)
    (hopen : (scan env programs t1 t2 k).unsent = []) {st : TxStatus}
    (hst : InRange env D t1 t2 program m st) (hsucc : st.isSuccessful = true) :
    st.tx ∈ (scan env programs t1 t2 k).sent := by
  obtain ⟨j, hj, hl⟩ := hcov st hst
  rw [TxStatus.eq_successful hsucc] at hl
  refine sent_iff.mpr ⟨j, hj, program, hl, hfetch _ _, ?_⟩
  by_contra hsend
  -- a send that failed would have left the transaction unsent
  have hun : st.tx ∈ (scan env programs t1 t2 k).unsent :=
    unsent_iff.mpr ⟨j, hj, program, hl, hfetch _ _, by simpa using hsend⟩
  rw [hopen] at hun
  exact absurd hun List.not_mem_nil

end AxelarRelayer.Proof
