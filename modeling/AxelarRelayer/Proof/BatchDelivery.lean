import AxelarRelayer.Proof.Scan

/-!
# When `Ok` means delivered

On a history that does not grow the call always returns (`scan_returns`), and an
`Ok` means that every transaction of the range was listed (`listed_of_static`).
Listed is not sent: a fetch that fails, or a send that finds the receiver gone, ends
in an error `fetch_and_send` logs and drops, and nothing of it reaches the result.
Only a page request that fails does (`pageRequestFails_iff`), so an `Ok` delivers the
range exactly when every transaction of it was fetched at least once, and every
successful one sent by a task that fetched it.
-/

namespace AxelarRelayer.Proof

open AxelarRelayer Listener

variable {config : Config} {env : ScanEnv} {programs : List Pubkey} {t1 t2 : Option Signature}
  {c : Chain} {k : Nat}

/-- The call returns `result`. -/
def Returns (env : ScanEnv) (programs : List Pubkey) (t1 t2 : Option Signature)
    (result : Except Report (Option Signature)) : Prop :=
  ∃ k, (scan env programs t1 t2 k).result = some result

/-- A page request the call makes fails. -/
def PageRequestFails (env : ScanEnv) (programs : List Pubkey) (t1 t2 : Option Signature) : Prop :=
  ∃ j, (scan env programs t1 t2 j).result = none ∧ (scan env programs t1 t2 j).todo ≠ [] ∧
    env.pageFails j = true

/-- Strictly between `t1` and `t2`, and of interest to the listener. -/
structure InScanRange (config : Config) (c : Chain) (t1 t2 : Option Signature)
    (st : TxStatus) : Prop where
  confirmed : st ∈ c.history
  monitored : config.monitors st = true
  older : c.Older t2 st
  newer : c.Newer t1 st

/-- Some `fetch_transaction` call for `st` succeeds. -/
def Fetched (config : Config) (env : ScanEnv) (t1 t2 : Option Signature) (st : TxStatus) : Prop :=
  ∃ j program, Lists env config.programsToMonitor t1 t2 j program st ∧
    env.fetchFails j st.signature = false

/-- Some task that fetches `st` finds the receiver of `signature_sender` there. -/
def Delivered (config : Config) (env : ScanEnv) (t1 t2 : Option Signature) (st : TxStatus) :
    Prop :=
  ∃ j program, Lists env config.programsToMonitor t1 t2 j program st ∧
    env.fetchFails j st.signature = false ∧ env.sendFails j st.signature = false

/--
The call returns; it returns `Ok` only after every successful transaction of the
range was sent, and `Err` if the range has a transaction none of whose fetches
succeeds.
-/
structure OkMeansDelivered (config : Config) (env : ScanEnv) (t1 t2 : Option Signature)
    (c : Chain) : Prop where
  returns : ∃ result, Returns env config.programsToMonitor t1 t2 result
  delivered : ∀ k newest, (fetchBatchesInRange config env t1 t2 k).result = some (.ok newest) →
    ∀ st, InScanRange config c t1 t2 st → st.isSuccessful = true →
      st.tx ∈ (fetchBatchesInRange config env t1 t2 k).sent
  unfetched : ∀ st, InScanRange config c t1 t2 st → ¬ Fetched config env t1 t2 st →
    ∃ error, Returns env config.programsToMonitor t1 t2 (.error error)

/-! ## The call returns -/

/-- How much of the range of the current program is left, in positions. -/
def left (c : Chain) (s : ScanState) : Nat :=
  match s.t2InLoop with
  | none => c.history.length
  | some b => c.position b

/-- What a pass that goes on uses up. -/
def effort (c : Chain) (s : ScanState) : Nat := s.todo.length * (c.history.length + 1) + left c s

theorem left_le (s : ScanState) : left c s ≤ c.history.length := by
  unfold left
  split
  · exact Nat.le_refl _
  · rename_i b _
    have := List.idxOf_le_length (a := b) (l := c.history.map TxStatus.signature)
    simpa [Chain.position, Paging.position] using this

/-- The last entry of a page stands below the bound the page was requested with. -/
theorem position_lt_left {s : ScanState} {program : Pubkey} {st : TxStatus}
    (hstatic : ∀ n, env.chainAt n = c) (hst : st ∈ pageOf env t1 s program) :
    c.position st.signature < left c s := by
  obtain ⟨hin, _, holder, _⟩ := mem_pageOf hst
  rw [hstatic] at hin holder
  unfold left
  cases hb : s.t2InLoop with
  | none => exact Paging.position_lt_length hin
  | some b =>
      rw [hb] at holder
      exact holder.2

theorem effort_lt (hstatic : ∀ n, env.chainAt n = c)
    (hrun : (scan env programs t1 t2 (k + 1)).result = none) :
    effort c (scan env programs t1 t2 (k + 1)) < effort c (scan env programs t1 t2 k) := by
  have hrunk := running_of_succ hrun
  have hpass := pass_scan env programs t1 t2 k
  generalize scan env programs t1 t2 (k + 1) = s' at hpass hrun ⊢
  cases hpass with
  | idle hres => exact absurd hrunk hres
  | finished => exact absurd hrun (by simp)
  | pageFailed => exact absurd hrun (by simp)
  | @completed program rest _ htodo =>
      -- one program less pays for a full range of the next one
      have hle := left_le (c := c) { ((afterPage env t1 (scan env programs t1 t2 k) program).recordNewest
        ((pageOf env t1 (scan env programs t1 t2 k) program).head?.map slotSignature)) with
        todo := rest, t2InLoop := t2 }
      simp only [effort, htodo, List.length_cons, Nat.add_mul] at hle ⊢
      omega
  | @again program rest oldest _ htodo _ hlast =>
      have hlt := position_lt_left hstatic (List.mem_of_getLast? hlast)
      simp only [effort, recordNewest_todo, afterPage]
      change _ * _ + c.position oldest.signature < _
      omega

/-- **On a history that does not grow the call returns.** -/
theorem scan_returns (programs : List Pubkey) (t1 t2 : Option Signature)
    (hstatic : ∀ n, env.chainAt n = c) :
    ∃ result, Returns env programs t1 t2 result := by
  by_contra hnone
  have hrun : ∀ k, (scan env programs t1 t2 k).result = none := by
    intro k
    cases hres : (scan env programs t1 t2 k).result with
    | none => rfl
    | some result => exact absurd ⟨result, k, hres⟩ hnone
  -- a scan that never returned would spend more effort than there is
  have hbound : ∀ k, effort c (scan env programs t1 t2 k) + k ≤
      effort c (scan env programs t1 t2 0) := by
    intro k
    induction k with
    | zero => exact Nat.le_refl _
    | succ k ih =>
        have := effort_lt hstatic (hrun (k + 1))
        omega
  have := hbound (effort c (scan env programs t1 t2 0) + 1)
  omega

/-! ## What it returns -/

theorem Returns.unique {r r' : Except Report (Option Signature)}
    (h : Returns env programs t1 t2 r) (h' : Returns env programs t1 t2 r') : r = r' := by
  obtain ⟨k, hk⟩ := h
  obtain ⟨k', hk'⟩ := h'
  have hstable := fun (m : Nat) (hm : k ≤ m) =>
    scan_stable (fun hnone => absurd (hnone.symm.trans hk) (by simp)) hm
  have hstable' := fun (m : Nat) (hm : k' ≤ m) =>
    scan_stable (fun hnone => absurd (hnone.symm.trans hk') (by simp)) hm
  have heq := (hstable (max k k') (Nat.le_max_left _ _)).symm.trans
    (hstable' (max k k') (Nat.le_max_right _ _))
  rw [heq] at hk
  exact Option.some.inj (hk.symm.trans hk')

/-- An error comes from a page request. -/
theorem pageRequestFails_of_error {error : Report}
    (h : (scan env programs t1 t2 k).result = some (.error error)) :
    PageRequestFails env programs t1 t2 := by
  induction k with
  | zero => exact absurd h (by simp [scan, ScanState.start])
  | succ k ih =>
      have hpass := pass_scan env programs t1 t2 k
      generalize scan env programs t1 t2 (k + 1) = s' at hpass h
      cases hpass with
      | idle => exact ih h
      | finished => exact absurd h (by simp)
      | pageFailed hres htodo hfail =>
          rw [scan_requests hres] at hfail
          exact ⟨k, hres, by rw [htodo]; simp, hfail⟩
      | completed hres => exact absurd h (by simp [afterPage, hres])
      | again hres => exact absurd h (by simp [afterPage, hres])

/-- **The call returns an error exactly when one of its page requests fails.** -/
theorem pageRequestFails_iff :
    PageRequestFails env programs t1 t2 ↔
      ∃ error, Returns env programs t1 t2 (.error error) := by
  constructor
  · rintro ⟨k, hres, htodo, hfail⟩
    have hpass := pass_scan env programs t1 t2 k
    generalize hs' : scan env programs t1 t2 (k + 1) = s' at hpass
    have hreq := scan_requests hres
    cases hpass with
    | idle hidle => exact absurd hres hidle
    | finished _ hnil => exact absurd hnil htodo
    | @pageFailed _ _ error => exact ⟨error, k + 1, by rw [hs']⟩
    | completed _ _ hok => exact absurd (hreq ▸ hok) (by simp [hfail])
    | again _ _ hok => exact absurd (hreq ▸ hok) (by simp [hfail])
  · rintro ⟨error, k, hk⟩
    exact pageRequestFails_of_error hk

/-- A call that returned `Ok` has listed its range. -/
theorem listed_of_static (hstatic : ∀ n, env.chainAt n = c) {newest : Option Signature}
    (h : (fetchBatchesInRange config env t1 t2 k).result = some (.ok newest)) {st : TxStatus}
    (hst : InScanRange config c t1 t2 st) :
    ∃ j < k, ∃ program, Lists env config.programsToMonitor t1 t2 j program st := by
  obtain ⟨m, _, hgw, hgas, _⟩ := listed_of_ok (D := c) h (hstatic _ ▸ Chain.le_refl _)
  have hin : ∀ (n : Nat) (program : Pubkey), st.mentions program = true →
      InRange env c t1 t2 program n st := by
    intro n program hment
    refine ⟨?_, hment, ?_, hst.newer⟩
    · rw [hstatic]; exact hst.confirmed
    · rw [hstatic]; exact hst.older
  rcases Bool.or_eq_true_iff.mp hst.monitored with hment | hment
  · obtain ⟨j, hj, hl⟩ := hgw st (hin 0 _ hment)
    exact ⟨j, hj, _, hl⟩
  · obtain ⟨j, hj, hl⟩ := hgas st (hin m _ hment)
    exact ⟨j, hj, _, hl⟩

/-- After the call returned nothing is listed any more. -/
theorem lists_lt {result : Except Report (Option Signature)} {j : Nat} {program : Pubkey}
    {st : TxStatus} (h : (scan env programs t1 t2 k).result = some result)
    (hl : Lists env programs t1 t2 j program st) : j < k := by
  by_contra hge
  have hstable := scan_stable (fun hnone => absurd (hnone.symm.trans h) (by simp))
    (Nat.le_of_not_lt hge)
  have hrun := hl.running
  rw [hstable] at hrun
  exact absurd (hrun.symm.trans h) (by simp)

/-- A call that returned `Ok` has sent what some task fetched and could send. -/
theorem sent_iff_delivered {newest : Option Signature} {st : TxStatus}
    (h : (fetchBatchesInRange config env t1 t2 k).result = some (.ok newest))
    (hsucc : st.isSuccessful = true) :
    st.tx ∈ (fetchBatchesInRange config env t1 t2 k).sent ↔ Delivered config env t1 t2 st := by
  have hst := TxStatus.eq_successful hsucc
  constructor
  · intro hsent
    obtain ⟨j, _, program, hl, hok⟩ := sent_iff.mp hsent
    rw [← hst] at hl
    exact ⟨j, program, hl, hok⟩
  · rintro ⟨j, program, hl, hok⟩
    refine sent_iff.mpr ⟨j, lists_lt h hl, program, ?_, hok⟩
    rw [← hst]
    exact hl

/--
**When `Ok` means delivered.** On a static history, exactly when a page request
fails, or every transaction of the range is fetched successfully at least once and
every successful one is sent by a task that fetched it.
-/
theorem okMeansDelivered_iff (config : Config) (env : ScanEnv) (t1 t2 : Option Signature)
    (c : Chain) (hstatic : ∀ n, env.chainAt n = c) :
    OkMeansDelivered config env t1 t2 c ↔
      PageRequestFails env config.programsToMonitor t1 t2 ∨
        ∀ st, InScanRange config c t1 t2 st → Fetched config env t1 t2 st ∧
          (st.isSuccessful = true → Delivered config env t1 t2 st) := by
  have hreturns := scan_returns config.programsToMonitor t1 t2 hstatic
  constructor
  · intro h
    by_cases hpage : PageRequestFails env config.programsToMonitor t1 t2
    · exact Or.inl hpage
    · refine Or.inr fun st hst => ⟨?_, fun hsucc => ?_⟩
      · by_contra hun
        exact hpage (pageRequestFails_iff.mpr (h.unfetched st hst hun))
      · -- no page request fails, so the call returns `Ok`
        obtain ⟨result, k, hk⟩ := hreturns
        cases result with
        | error error => exact absurd (pageRequestFails_of_error hk) hpage
        | ok newest => exact (sent_iff_delivered hk hsucc).mp (h.delivered k newest hk st hst hsucc)
  · rintro (hpage | hall)
    · -- the error is what the call returns, whatever else happened
      obtain ⟨error, herr⟩ := pageRequestFails_iff.mp hpage
      refine ⟨⟨_, herr⟩, fun k newest hok => ?_, fun _ _ _ => ⟨error, herr⟩⟩
      exact absurd (herr.unique ⟨k, hok⟩) (by simp)
    · refine ⟨hreturns, fun k newest hok st hst hsucc => ?_, fun st hst hun => ?_⟩
      · exact (sent_iff_delivered hok hsucc).mpr ((hall st hst).2 hsucc)
      · exact absurd (hall st hst).1 hun

/-- If no single fetch and no send fails, the range is delivered or a page request fails. -/
theorem delivered_of_fetches (hstatic : ∀ n, env.chainAt n = c)
    (hfetch : ∀ n sig, env.fetchFails n sig = false)
    (hsend : ∀ n sig, env.sendFails n sig = false) :
    PageRequestFails env config.programsToMonitor t1 t2 ∨
      ∀ st, InScanRange config c t1 t2 st → Fetched config env t1 t2 st ∧
        (st.isSuccessful = true → Delivered config env t1 t2 st) := by
  obtain ⟨result, k, hk⟩ := scan_returns config.programsToMonitor t1 t2 hstatic
  cases result with
  | error error => exact Or.inl (pageRequestFails_of_error hk)
  | ok newest =>
      refine Or.inr fun st hst => ?_
      obtain ⟨j, _, program, hl⟩ := listed_of_static hstatic hk hst
      exact ⟨⟨j, program, hl, hfetch _ _⟩, fun _ => ⟨j, program, hl, hfetch _ _, hsend _ _⟩⟩

/-! ## One fetch that fails -/

/-- Two transactions, both fetched. -/
theorem okMeansDelivered_two : OkMeansDelivered ⟨.filled 1, .filled 2⟩
    (.static ⟨[gatewayTx 1, gasServiceTx 2], by decide, by decide⟩) none none
    ⟨[gatewayTx 1, gasServiceTx 2], by decide, by decide⟩ :=
  (okMeansDelivered_iff _ _ none none _ (fun _ => rfl)).mpr
    (delivered_of_fetches (fun _ => rfl) (fun _ _ => rfl) (fun _ _ => rfl))

/-- A history of one gateway transaction that cannot be fetched. -/
def unfetchable : ScanEnv :=
  { ScanEnv.static ⟨[gatewayTx 1], gatewayTx_distinct, gatewayTx_slots⟩ with fetchFails := fun _ _ => true }

/-- **The law fails**: the call returns `Ok` without the transaction it could not fetch. -/
theorem ok_loses_unfetched : ¬ ∀ (config : Config) (env : ScanEnv) (t1 t2 : Option Signature)
    (c : Chain), (∀ n, env.chainAt n = c) → OkMeansDelivered config env t1 t2 c := by
  intro hall
  have h := hall ⟨.filled 1, .filled 2⟩ unfetchable none none
    ⟨[gatewayTx 1], gatewayTx_distinct, gatewayTx_slots⟩ (fun _ => rfl)
  have hok : (fetchBatchesInRange ⟨.filled 1, .filled 2⟩ unfetchable none none 3).result =
      some (.ok (some (.filled 1))) := by decide +kernel
  have hsent := h.delivered 3 _ hok (gatewayTx 1)
    ⟨by decide, by decide, trivial, trivial⟩ rfl
  have hmissing : (gatewayTx 1).tx ∉
      (fetchBatchesInRange ⟨.filled 1, .filled 2⟩ unfetchable none none 3).sent := by
    decide +kernel
  exact hmissing hsent

end AxelarRelayer.Proof
