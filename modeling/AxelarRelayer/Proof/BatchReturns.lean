import AxelarRelayer.Proof.BatchDelivery

/-!
# A batch call returns, whatever the chain does meanwhile

The chain may grow between any two page requests, for ever. What is confirmed after the
first page of a program stands above the bound of every later page of this program, so it
is not visited, and a page that is not the last one moves the bound down by `LIMIT`
positions. So the number of page requests is bounded by what the chain held when the
two programs' turns came (`batch_returns`).
-/

namespace AxelarRelayer.Proof

open AxelarRelayer Listener

variable {config : Config} {env : ScanEnv} {programs rest : List Pubkey} {program p q : Pubkey}
  {t1 t2 : Option Signature} {k m : Nat}

/-! ## A page that is not the last one -/

theorem fetchingState_short {page : List TxStatus} (h : page.length < LIMIT) :
    fetchingState page = .completed (page.head?.map slotSignature) := by
  cases page with
  | nil => rfl
  | cons a page =>
      unfold fetchingState
      rw [List.getLast?_eq_some_getLast (List.cons_ne_nil a page), List.head?_cons]
      simp only [if_pos h, Option.map_some]

/-- A page after which the same program goes on is full. -/
theorem full_page (hrun : (scan env programs t1 t2 (k + 1)).result = none)
    (htodo : (scan env programs t1 t2 k).todo = program :: rest)
    (hsame : (scan env programs t1 t2 (k + 1)).todo = program :: rest) :
    LIMIT ≤ (pageOf env t1 (scan env programs t1 t2 k) program).length := by
  by_contra hshort
  have hdone := fetchingState_short (Nat.lt_of_not_le hshort)
  rw [pageOf] at hdone
  -- a short page ends the program's turn
  have hnext : (scan env programs t1 t2 (k + 1)).todo = rest := by
    have hrunk := running_of_succ hrun
    rw [scan] at hrun ⊢
    generalize scan env programs t1 t2 k = s at hrun hrunk htodo hdone ⊢
    unfold ScanState.step at hrun ⊢
    rw [hrunk, htodo] at hrun ⊢
    by_cases hfail : env.pageFails s.requests = true
    · simp [SignatureRangeFetcher.fetch, hfail] at hrun
    · simp only [SignatureRangeFetcher.fetch, hfail, if_false, Bool.false_eq_true, hdone]
  exact absurd (hsame.symm.trans hnext) (List.cons_ne_self program rest)

/-- The program whose turn began at pass `m` is still at it, and has used up its room. -/
structure Pace (env : ScanEnv) (programs : List Pubkey) (t1 t2 : Option Signature) (m k : Nat) :
    Prop where
  le : m ≤ k
  bound : k = m ∨ ∃ o, o ∈ (env.chainAt m).history ∧
    (scan env programs t1 t2 k).t2InLoop = some o.signature
  room : left (env.chainAt m) (scan env programs t1 t2 k) + (k - m) * LIMIT ≤
    (env.chainAt m).history.length

theorem Pace.opened (k : Nat) : Pace env programs t1 t2 k k where
  le := Nat.le_refl k
  bound := Or.inl rfl
  room := by
    rw [Nat.sub_self, Nat.zero_mul]
    exact left_le _

/-- What a page shows was there when the turn began, and stands below the bound. -/
theorem Pace.below (hpace : Pace env programs t1 t2 m k)
    (hrun : (scan env programs t1 t2 k).result = none) {st : TxStatus}
    (hst : st ∈ pageOf env t1 (scan env programs t1 t2 k) program) :
    st ∈ (env.chainAt m).history ∧
      (env.chainAt m).position st.signature <
        left (env.chainAt m) (scan env programs t1 t2 k) := by
  obtain ⟨hin, -, holder, -⟩ := mem_pageOf hst
  rw [scan_requests hrun] at hin holder
  cases hpace.bound with
  | inl heq =>
      subst heq
      refine ⟨hin, ?_⟩
      unfold left
      cases hb : (scan env programs t1 t2 k).t2InLoop with
      | none => exact Chain.position_lt_length hin
      | some b =>
          rw [hb] at holder
          exact holder.2
  | inr hbound =>
      obtain ⟨o, ho, hb⟩ := hbound
      have hle := chainAt_mono env hpace.le
      rw [hb] at holder
      have hst' := Paging.mem_of_position_lt (env.chainAt k).distinct hle hin
        (Chain.mem_signatures ho) (Nat.le_of_lt holder.2)
      refine ⟨hst', ?_⟩
      unfold left
      rw [hb]
      exact ((Chain.older_of_le hle hst' (Chain.mem_signatures ho)).mp holder).2

/-- **A page that is not the last one moves the bound down by `LIMIT` positions.** -/
theorem Pace.again (hpace : Pace env programs t1 t2 m k)
    (hrun : (scan env programs t1 t2 (k + 1)).result = none)
    (htodo : (scan env programs t1 t2 k).todo = program :: rest)
    (hsame : (scan env programs t1 t2 (k + 1)).todo = program :: rest) :
    Pace env programs t1 t2 m (k + 1) := by
  have hrunk := running_of_succ hrun
  have hfull := full_page hrun htodo hsame
  have hle := chainAt_mono env hpace.le
  have hpass := pass_scan env programs t1 t2 k
  generalize hs' : scan env programs t1 t2 (k + 1) = s' at hpass hrun hsame
  cases hpass with
  | idle hres => exact absurd hrunk hres
  | finished => cases hrun
  | pageFailed => cases hrun
  | completed _ htodo' =>
      obtain ⟨rfl, rfl⟩ := List.cons.inj (htodo'.symm.trans htodo)
      exact absurd hsame.symm (List.cons_ne_self _ _)
  | @again program' rest' oldest _ htodo' _ hlast =>
      obtain ⟨rfl, rfl⟩ := List.cons.inj (htodo'.symm.trans htodo)
      have hbelow := fun st (hst : st ∈ pageOf env t1 (scan env programs t1 t2 k) program') =>
        hpace.below hrunk hst
      obtain ⟨holdest, -⟩ := hbelow oldest (List.mem_of_getLast? hlast)
      have hposition : ∀ {st : TxStatus}, st ∈ (env.chainAt m).history →
          (env.chainAt k).position st.signature = (env.chainAt m).position st.signature :=
        fun hst => Chain.position_of_le hle (Chain.mem_signatures hst)
      have hreach : (env.chainAt m).position oldest.signature + LIMIT ≤
          left (env.chainAt m) (scan env programs t1 t2 k) := by
        rw [← hposition holdest]
        refine Nat.le_trans (Nat.add_le_add_left hfull _) ?_
        rw [pageOf, scan_requests hrunk] at hlast hbelow ⊢
        refine Paging.position_last_add_length_le (env.chainAt k).distinct hlast ?_
        intro st hst
        obtain ⟨hin, hlt⟩ := hbelow st hst
        exact Nat.lt_of_le_of_lt (Nat.le_of_eq (hposition hin)) hlt
      refine ⟨Nat.le_succ_of_le hpace.le, Or.inr ⟨oldest, holdest, by rw [hs']⟩, ?_⟩
      have hroom := hpace.room
      have hsub : k + 1 - m = (k - m) + 1 := Nat.succ_sub hpace.le
      rw [hs', hsub, Nat.succ_mul]
      change (env.chainAt m).position oldest.signature + _ ≤ _
      omega

/-! ## Two programs -/

/-- Page requests that a chain of this length leaves room for. -/
def pagesOf (c : Chain) : Nat := c.history.length / LIMIT + 1

theorem Pace.lt_pagesOf (hpace : Pace env programs t1 t2 m k) :
    k - m < pagesOf (env.chainAt m) := by
  have hroom : (k - m) * LIMIT ≤ (env.chainAt m).history.length :=
    Nat.le_trans (Nat.le_add_left _ _) hpace.room
  exact Nat.lt_succ_of_le ((Nat.le_div_iff_mul_le (by decide)).mpr hroom)

/-- Whose turn it is after `k` passes, and when it began. -/
inductive Turn (env : ScanEnv) (t1 t2 : Option Signature) (p q : Pubkey) (k : Nat) : Prop where
  | first : (scan env [p, q] t1 t2 k).todo = [p, q] → Pace env [p, q] t1 t2 0 k →
      Turn env t1 t2 p q k
  | second {m : Nat} : (scan env [p, q] t1 t2 k).todo = [q] → Pace env [p, q] t1 t2 m k →
      m ≤ pagesOf (env.chainAt 0) → Turn env t1 t2 p q k
  | finished : (scan env [p, q] t1 t2 k).todo = [] → Turn env t1 t2 p q k

/-- A pass that goes on stays with its program or goes on to the next one. -/
theorem todo_succ (hrun : (scan env programs t1 t2 (k + 1)).result = none)
    (htodo : (scan env programs t1 t2 k).todo = program :: rest) :
    (scan env programs t1 t2 (k + 1)).todo = program :: rest ∨
      (scan env programs t1 t2 (k + 1)).todo = rest := by
  have hrunk := running_of_succ hrun
  have hpass := pass_scan env programs t1 t2 k
  generalize scan env programs t1 t2 (k + 1) = s' at hpass hrun ⊢
  cases hpass with
  | idle hres => exact absurd hrunk hres
  | finished => cases hrun
  | pageFailed => cases hrun
  | completed _ htodo' =>
      obtain ⟨rfl, rfl⟩ := List.cons.inj (htodo'.symm.trans htodo)
      exact Or.inr rfl
  | again => exact Or.inl (by simpa [afterPage] using htodo)

theorem turn_scan (hrun : (scan env [p, q] t1 t2 k).result = none) : Turn env t1 t2 p q k := by
  induction k with
  | zero => exact .first rfl (Pace.opened 0)
  | succ k ih =>
      cases ih (running_of_succ hrun) with
      | first htodo hpace =>
          cases todo_succ hrun htodo with
          | inl hsame => exact .first hsame (hpace.again hrun htodo hsame)
          | inr hnext =>
              -- the turn of the second program begins
              have hlt := hpace.lt_pagesOf
              exact .second hnext (Pace.opened (k + 1)) (by omega)
      | second htodo hpace hm =>
          cases todo_succ hrun htodo with
          | inl hsame => exact .second hsame (hpace.again hrun htodo hsame) hm
          | inr hnext => exact .finished hnext
      | finished htodo => exact absurd hrun (returned_of_nil htodo)

/-- The page requests of a batch call, if the chain is `c` at first and `d` when the first
program is done. -/
def requestsWithin (c d : Chain) : Nat := pagesOf c + pagesOf d

theorem pagesOf_mono {c d : Chain} (h : c ≤ d) : pagesOf c ≤ pagesOf d :=
  Nat.succ_le_succ (Nat.div_le_div_right h.length_le)

theorem over_of_running
    (hrun : (scan env [p, q] t1 t2
      (requestsWithin (env.chainAt 0) (env.chainAt (pagesOf (env.chainAt 0))))).result = none) :
    (scan env [p, q] t1 t2
      (requestsWithin (env.chainAt 0) (env.chainAt (pagesOf (env.chainAt 0))))).todo = [] := by
  cases turn_scan hrun with
  | finished htodo => exact htodo
  | first _ hpace =>
      have hlt := hpace.lt_pagesOf
      unfold requestsWithin at hlt
      omega
  | second _ hpace hm =>
      have hlt := hpace.lt_pagesOf
      have hle := pagesOf_mono (chainAt_mono env hm)
      unfold requestsWithin at hlt
      omega

/--
**A batch call returns on any chain, growing or not**, within a number of page requests
that depends only on what the chain held before the call and when the gateway was done:
confirmations that keep arriving do not keep it busy.
-/
theorem batch_returns (config : Config) (env : ScanEnv) (t1 t2 : Option Signature) :
    (∃ result, Returns env config.programsToMonitor t1 t2 result) ∧
    ∀ k, (fetchBatchesInRange config env t1 t2 k).requests ≤
      requestsWithin (env.chainAt 0) (env.chainAt (pagesOf (env.chainAt 0))) := by
  generalize hbound : requestsWithin (env.chainAt 0) (env.chainAt (pagesOf (env.chainAt 0))) = n
  -- at the latest, pass `n` finds no program left
  have hlast : (scan env config.programsToMonitor t1 t2 n).result ≠ none ∨
      (scan env config.programsToMonitor t1 t2 n).todo = [] := by
    by_cases hrun : (scan env config.programsToMonitor t1 t2 n).result = none
    · subst hbound
      exact Or.inr (over_of_running hrun)
    · exact Or.inl hrun
  have hreturned : (scan env config.programsToMonitor t1 t2 (n + 1)).result ≠ none := by
    cases hlast with
    | inl hres => exact scan_stable hres (Nat.le_succ n) ▸ hres
    | inr htodo => exact returned_of_nil htodo
  have hrequests : (scan env config.programsToMonitor t1 t2 (n + 1)).requests ≤ n := by
    cases hlast with
    | inl hres =>
        rw [scan_stable hres (Nat.le_succ n)]
        exact requests_le n
    | inr htodo =>
        have hpass := pass_scan env config.programsToMonitor t1 t2 n
        have hn : (scan env config.programsToMonitor t1 t2 n).requests ≤ n := requests_le n
        generalize scan env config.programsToMonitor t1 t2 (n + 1) = s' at hpass ⊢
        cases hpass with
        | idle => exact hn
        | finished => exact hn
        | pageFailed _ htodo' => exact absurd (htodo.symm.trans htodo') (by simp)
        | completed _ htodo' => exact absurd (htodo.symm.trans htodo') (by simp)
        | again _ htodo' => exact absurd (htodo.symm.trans htodo') (by simp)
  refine ⟨?_, ?_⟩
  · obtain ⟨result, hres⟩ := Option.ne_none_iff_exists'.mp hreturned
    exact ⟨result, n + 1, hres⟩
  · intro k
    by_cases hk : k ≤ n + 1
    · exact Nat.le_trans (requests_mono env config.programsToMonitor t1 t2 hk) hrequests
    · rw [fetchBatchesInRange, scan_stable hreturned (Nat.le_of_not_le hk)]
      exact hrequests

end AxelarRelayer.Proof
