import AxelarRelayer.Proof.BatchDelivery

/-!
# The catch-up cursor on a growing chain

At startup everything newer than the stored cursor is scanned with no upper
bound, the gateway first and the gas service second, and one signature out of
both scans becomes the new cursor. It is the head of the gateway's first page,
until a gas service page *overtakes* it with a head in a later slot; `slot` is
never updated, so the last page that does so sets the cursor (`cursor_origin`).

The gas service's pages are answered later than the gateway's. So the page that
overtakes can stand above a gateway transaction that was confirmed in between
and that nobody will list any more, and `catchUp_safe_iff` says that this is the
only way to lose one while the channel is open.
-/

namespace AxelarRelayer.Proof

open AxelarRelayer Listener

variable {config : Config} {env : ScanEnv} {t1 : Option Signature} {D : Chain} {k : Nat}
  {n : Signature}

/-- The states of the catch-up call. -/
abbrev catchUp (config : Config) (env : ScanEnv) (t1 : Option Signature) (k : Nat) : ScanState :=
  fetchBatchesInRange config env t1 none k

/-- Everything newer than `t1` and not newer than `n` was sent. -/
def CatchUpSafe (config : Config) (t1 : Option Signature) (D : Chain) (n : Signature)
    (sent : List SolanaTransaction) : Prop :=
  ∀ st ∈ D.history, st.isSuccessful = true → config.monitors st = true → D.Newer t1 st →
    D.position st.signature ≤ D.position n → st.tx ∈ sent

/-- A gateway transaction confirmed after the first gateway page was served. -/
structure LateGateway (config : Config) (env : ScanEnv) (t1 : Option Signature) (D : Chain)
    (st : TxStatus) : Prop where
  confirmed : st ∈ D.history
  successful : st.isSuccessful = true
  gateway : st.mentions config.gatewayProgramAddress = true
  notGasService : st.mentions config.gasServiceConfigPda = false
  newer : D.Newer t1 st
  late : st ∉ (env.chainAt 0).history

/-- The gateway's first page, which answers the call's first request. -/
def gatewayPage (config : Config) (env : ScanEnv) (t1 : Option Signature) : List TxStatus :=
  (env.chainAt 0).getSignaturesForAddress config.gatewayProgramAddress none t1 LIMIT

/--
The gas service's page of pass `i` is headed by `x`, in a later slot than the
head of the gateway's first page; if that page was empty, by the first one at all.
-/
structure Overtakes (config : Config) (env : ScanEnv) (t1 : Option Signature) (i : Nat)
    (x : TxStatus) : Prop where
  running : (catchUp config env t1 i).result = none
  turn : (catchUp config env t1 i).todo = [config.gasServiceConfigPda]
  answered : env.pageFails i = false
  head : (pageOf env t1 (catchUp config env t1 i) config.gasServiceConfigPda).head? = some x
  later : match (gatewayPage config env t1).head? with
    | some g => g.tx.slot < x.tx.slot
    | none => i = 1

/-- No later page of the call overtakes. -/
def OvertakesLast (config : Config) (env : ScanEnv) (t1 : Option Signature) (i : Nat)
    (x : TxStatus) : Prop :=
  Overtakes config env t1 i x ∧ ∀ j y, Overtakes config env t1 j y → j ≤ i

/-- The head the cursor is taken from: the last one that overtakes, or the gateway's first. -/
def CursorHead (config : Config) (env : ScanEnv) (t1 : Option Signature) (x : TxStatus) : Prop :=
  (∃ i, OvertakesLast config env t1 i x) ∨
    ((∀ i y, ¬ Overtakes config env t1 i y) ∧ (gatewayPage config env t1).head? = some x)

/-- What the call lists of the successful transactions up to `x`, some task fetches and sends. -/
def SendsUpTo (config : Config) (env : ScanEnv) (t1 : Option Signature) (D : Chain)
    (x : TxStatus) : Prop :=
  ∀ st, st.isSuccessful = true → D.Newer t1 st →
    D.position st.signature ≤ D.position x.signature →
    (∃ j program, Lists env config.programsToMonitor t1 none j program st) →
    Delivered config env t1 none st

/-! ## Where the cursor comes from -/

/-- The cursor after the passes below `k`: the last head that overtook, or the gateway's. -/
def CursorBy (config : Config) (env : ScanEnv) (t1 : Option Signature) (k : Nat)
    (n : Signature) : Prop :=
  (∃ i x, i < k ∧ Overtakes config env t1 i x ∧ x.signature = n ∧
    ∀ j y, j < k → Overtakes config env t1 j y → j ≤ i) ∨
  ((∀ j y, j < k → ¬ Overtakes config env t1 j y) ∧
    ∃ g, (gatewayPage config env t1).head? = some g ∧ g.signature = n)

/-- A pass that does not overtake leaves the origin of the cursor as it was. -/
theorem CursorBy.keep (h : CursorBy config env t1 k n)
    (hno : ∀ y, ¬ Overtakes config env t1 k y) : CursorBy config env t1 (k + 1) n := by
  rcases h with ⟨i, x, hi, hx, hsig, hlast⟩ | ⟨hnone, hg⟩
  · refine Or.inl ⟨i, x, Nat.lt_succ_of_lt hi, hx, hsig, ?_⟩
    intro j y hj hy
    rcases Nat.lt_succ_iff_lt_or_eq.mp hj with hlt | rfl
    · exact hlast j y hlt hy
    · exact absurd hy (hno y)
  · refine Or.inr ⟨?_, hg⟩
    intro j y hj hy
    rcases Nat.lt_succ_iff_lt_or_eq.mp hj with hlt | rfl
    · exact hnone j y hlt hy
    · exact hno y hy

/-- A pass that overtakes sets the cursor. -/
theorem cursorBy_overtakes {x : TxStatus} (h : Overtakes config env t1 k x) :
    CursorBy config env t1 (k + 1) x.signature :=
  Or.inl ⟨k, x, Nat.lt_succ_self k, h, rfl, fun _ _ hj _ => Nat.le_of_lt_succ hj⟩

/-- The cursor and the slot it is compared with, between two passes. -/
structure CursorInv (config : Config) (env : ScanEnv) (t1 : Option Signature) (k : Nat) : Prop where
  newest : ∀ n, (catchUp config env t1 k).chronologicallyNewestSig = some n →
    CursorBy config env t1 k n
  /-- `slot` is the slot of the first head seen, and there is a cursor once there was one. -/
  slot : ((catchUp config env t1 k).chronologicallyNewestSig = none ∧
      (catchUp config env t1 k).slot = none ∧ (catchUp config env t1 k).todo.length + k ≤ 2 ∧
      (0 < k → (gatewayPage config env t1).head? = none)) ∨
    ∃ f, (catchUp config env t1 k).chronologicallyNewestSig ≠ none ∧
      (catchUp config env t1 k).slot = some f.tx.slot ∧
      ((gatewayPage config env t1).head? = some f ∨
        ((gatewayPage config env t1).head? = none ∧ Overtakes config env t1 1 f ∧ 1 < k))

theorem cursorInv_zero : CursorInv config env t1 0 where
  newest := by
    intro n h
    exact absurd h (by simp [scan, ScanState.start])
  slot := Or.inl ⟨rfl, rfl, Nat.le_refl 2, fun h => absurd h (Nat.lt_irrefl 0)⟩

/-- The head of a later gateway page is in no later slot than the first page's. -/
theorem slot_le_gatewayPage (hc : Current env config.programsToMonitor D t1 none k 0
      config.gatewayProgramAddress) (hrun : (catchUp config env t1 k).result = none)
    {y : TxStatus}
    (hy : y ∈ pageOf env t1 (catchUp config env t1 k) config.gatewayProgramAddress) :
    ∃ g, (gatewayPage config env t1).head? = some g ∧ y.tx.slot ≤ g.tx.slot := by
  obtain ⟨hin, hment, _, hnewer⟩ := mem_pageOf hy
  rw [scan_requests hrun] at hin hnewer
  have hin0 := hc.page_subset hrun hy
  exact Chain.le_head_of_mem_range (by decide) (Chain.mem_range.mpr
    ⟨hin0, hment, trivial, newer_of_le (chainAt_mono env (Nat.zero_le k)) hin0 hnewer⟩)

/-- With an empty gateway page, later gas service pages stay below the first one's head. -/
theorem slot_le_first_gasPage {f y : TxStatus} {m : Nat} (hf : Overtakes config env t1 1 f)
    (hk : 1 < k) (hpos : 0 < m)
    (hbefore : ∀ j < m, (catchUp config env t1 j).todo = config.programsToMonitor)
    (hc : Current env config.programsToMonitor D t1 none k m config.gasServiceConfigPda)
    (hrun : (catchUp config env t1 k).result = none)
    (hy : y ∈ pageOf env t1 (catchUp config env t1 k) config.gasServiceConfigPda) :
    y.tx.slot ≤ f.tx.slot := by
  have hm : m = 1 := by
    by_contra hne
    have h1 : (catchUp config env t1 1).todo = config.programsToMonitor := hbefore 1 (by omega)
    exact absurd (h1.symm.trans hf.turn) (by simp [Config.programsToMonitor])
  subst hm
  obtain ⟨hin, hment, _, hnewer⟩ := mem_pageOf hy
  rw [scan_requests hrun] at hin hnewer
  have hin1 := hc.page_subset hrun hy
  -- the first pass of the second program has no upper bound
  have hopen : (catchUp config env t1 1).t2InLoop = none := by
    cases progress_scan hf.running (Chain.le_refl (env.chainAt 1)) with
    | first htodo => exact absurd ((htodo 1 (Nat.le_refl 1)).symm.trans hf.turn) (by simp)
    | second _ hpos' _ _ _ hc1 =>
        rcases hc1.cursor with ⟨_, hb⟩ | ⟨hlt, _⟩
        · exact hb
        · omega
    | done htodo => exact absurd (htodo.symm.trans hf.turn) (by simp)
  have hrange : y ∈ (env.chainAt 1).range config.gasServiceConfigPda none t1 :=
    Chain.mem_range.mpr ⟨hin1, hment, trivial,
      newer_of_le (chainAt_mono env (Nat.le_of_lt hk)) hin1 hnewer⟩
  obtain ⟨g, hg, hle⟩ := Chain.le_head_of_mem_range (by decide : 0 < LIMIT) hrange
  have hhead := hf.head
  rw [pageOf, scan_requests hf.running, SignatureRangeFetcher.fetchedSignatures] at hhead
  simp only [ScanState.fetcher, hopen] at hhead
  rw [hg] at hhead
  exact Option.some.inj hhead ▸ hle

/-- A pass that leaves the cursor and its slot alone. -/
theorem CursorInv.keep (hi : CursorInv config env t1 k)
    (hno : ∀ y, ¬ Overtakes config env t1 k y)
    (hnew : (catchUp config env t1 (k + 1)).chronologicallyNewestSig =
      (catchUp config env t1 k).chronologicallyNewestSig)
    (hslot : (catchUp config env t1 (k + 1)).slot = (catchUp config env t1 k).slot)
    (hlen : (catchUp config env t1 k).chronologicallyNewestSig = none →
      (catchUp config env t1 (k + 1)).todo.length < (catchUp config env t1 k).todo.length ∧
      (gatewayPage config env t1).head? = none) : CursorInv config env t1 (k + 1) where
  newest := by
    intro n hn
    exact (hi.newest n (hnew ▸ hn)).keep hno
  slot := by
    rw [hnew, hslot]
    rcases hi.slot with ⟨hn, hs, htodo, _⟩ | ⟨f, hn, hs, hg | ⟨hg, hf, hk⟩⟩
    · obtain ⟨hlt, hnone⟩ := hlen hn
      exact Or.inl ⟨hn, hs, by omega, fun _ => hnone⟩
    · exact Or.inr ⟨f, hn, hs, Or.inl hg⟩
    · exact Or.inr ⟨f, hn, hs, Or.inr ⟨hg, hf, Nat.lt_succ_of_lt hk⟩⟩

theorem cursorInv_step (hi : CursorInv config env t1 k)
    (hrun : (catchUp config env t1 (k + 1)).result = none) : CursorInv config env t1 (k + 1) := by
  have hrunk := running_of_succ hrun
  cases progress_scan hrunk (Chain.le_refl (env.chainAt k)) with
  | first htodo hc =>
      have hcur := htodo k (Nat.le_refl k)
      have hno : ∀ y, ¬ Overtakes config env t1 k y := fun y h =>
        absurd (hcur.symm.trans h.turn) (by simp)
      obtain ⟨_, hempty, s, hs1, hs2, hnew, hslot⟩ := newest_succ hrun hcur
      cases hhead : (pageOf env t1 (catchUp config env t1 k) config.gatewayProgramAddress).head? with
      | none =>
          rw [hhead, Option.map_none, recordNewest_none] at hnew hslot
          refine hi.keep hno (hnew.trans hs1) (hslot.trans hs2) (fun hn => ?_)
          refine ⟨by rw [hempty (List.head?_eq_none_iff.mp hhead), hcur]; simp, ?_⟩
          rcases hi.slot with ⟨_, _, hlen, _⟩ | ⟨_, hsome, _⟩
          · -- two programs are left, so this is the call's first page
            have hk : k = 0 := by rw [hcur] at hlen; simp only [List.length_cons] at hlen; omega
            subst hk
            exact hhead
          · exact absurd hn hsome
      | some y =>
          obtain ⟨g, hg, hle⟩ := slot_le_gatewayPage hc hrunk (List.mem_of_head? hhead)
          rw [hhead, Option.map_some] at hnew hslot
          rcases hi.slot with ⟨hn, hs, hlen, _⟩ | ⟨f, hn, hs, hf | ⟨hf, _⟩⟩
          · have hk : k = 0 := by rw [hcur] at hlen; simp only [List.length_cons] at hlen; omega
            subst hk
            have hy : y = g := Option.some.inj (hhead.symm.trans hg)
            subst hy
            rw [recordNewest_first (hs1.trans hn) (hs2.trans hs)] at hnew hslot
            refine ⟨fun n h => Or.inr ⟨?_, y, hg, Option.some.inj (hnew.symm.trans h)⟩,
              Or.inr ⟨y, by rw [hnew]; simp, hslot, Or.inl hg⟩⟩
            intro j x hj hx
            rw [Nat.lt_one_iff.mp hj] at hx
            exact hno x hx
          · have hfg : f = g := Option.some.inj (hf.symm.trans hg)
            subst hfg
            rw [recordNewest_later (by rw [hs1]; exact hn) (hs2.trans hs),
              if_neg (Nat.not_lt.mpr hle)] at hnew hslot
            exact hi.keep hno (hnew.trans hs1) (hslot.trans hs2) (fun h => absurd h hn)
          · exact absurd (hf.symm.trans hg) (by simp)
  | second htodo hpos hm hbefore hcov hc =>
      obtain ⟨hok, hempty, s, hs1, hs2, hnew, hslot⟩ := newest_succ hrun htodo
      cases hhead : (pageOf env t1 (catchUp config env t1 k) config.gasServiceConfigPda).head? with
      | none =>
          rw [hhead, Option.map_none, recordNewest_none] at hnew hslot
          refine hi.keep (fun y h => absurd (hhead.symm.trans h.head) (by simp)) (hnew.trans hs1)
            (hslot.trans hs2) (fun hn => ?_)
          refine ⟨by rw [hempty (List.head?_eq_none_iff.mp hhead), htodo]; simp, ?_⟩
          rcases hi.slot with ⟨_, _, _, hg⟩ | ⟨_, hsome, _⟩
          · exact hg (by omega)
          · exact absurd hn hsome
      | some y =>
          rw [hhead, Option.map_some] at hnew hslot
          have hover : (match (gatewayPage config env t1).head? with
              | some g => g.tx.slot < y.tx.slot
              | none => k = 1) → Overtakes config env t1 k y :=
            fun hlater => ⟨hrunk, htodo, hok, hhead, hlater⟩
          rcases hi.slot with ⟨hn, hs, hlen, hg⟩ | ⟨f, hn, hs, hf | ⟨hf, hone, hk⟩⟩
          · -- the gateway had nothing, and this is the first page after it
            have hk : k = 1 := by rw [htodo] at hlen; simp only [List.length_cons] at hlen; omega
            have hy := hover (by rw [hg (by omega)]; exact hk)
            rw [recordNewest_first (hs1.trans hn) (hs2.trans hs)] at hnew hslot
            refine ⟨fun n h => ?_, Or.inr ⟨y, by rw [hnew]; simp, hslot,
              Or.inr ⟨hg (by omega), hk ▸ hy, by omega⟩⟩⟩
            have : _ = n := Option.some.inj (hnew.symm.trans h)
            exact this ▸ cursorBy_overtakes hy
          · by_cases hlt : f.tx.slot < y.tx.slot
            · have hy := hover (by rw [hf]; exact hlt)
              rw [recordNewest_later (by rw [hs1]; exact hn) (hs2.trans hs), if_pos hlt] at hnew hslot
              refine ⟨fun n h => ?_, Or.inr ⟨f, by rw [hnew]; simp, hslot.trans (hs2.trans hs),
                Or.inl hf⟩⟩
              have : _ = n := Option.some.inj (hnew.symm.trans h)
              exact this ▸ cursorBy_overtakes hy
            · rw [recordNewest_later (by rw [hs1]; exact hn) (hs2.trans hs), if_neg hlt] at hnew hslot
              refine hi.keep (fun x h => ?_) (hnew.trans hs1) (hslot.trans hs2)
                (fun h => absurd h hn)
              have hx : y = x := Option.some.inj (hhead.symm.trans h.head)
              have := h.later
              rw [hf] at this
              exact hlt (hx ▸ this)
          · have hle := slot_le_first_gasPage hone hk hpos hbefore hc hrunk (List.mem_of_head? hhead)
            rw [recordNewest_later (by rw [hs1]; exact hn) (hs2.trans hs),
              if_neg (Nat.not_lt.mpr hle)] at hnew hslot
            refine hi.keep (fun x h => ?_) (hnew.trans hs1) (hslot.trans hs2) (fun h => absurd h hn)
            have := h.later
            rw [hf] at this
            omega
  | done htodo => exact absurd hrun (returned_of_nil htodo)

theorem cursorInv_scan (hrun : (catchUp config env t1 k).result = none) :
    CursorInv config env t1 k := by
  induction k with
  | zero => exact cursorInv_zero
  | succ k ih => exact cursorInv_step (ih (running_of_succ hrun)) hrun

/-- **Where the returned cursor comes from.** -/
theorem cursor_origin (h : (catchUp config env t1 k).result = some (.ok (some n))) :
    ∃ x, CursorHead config env t1 x ∧ x.signature = n := by
  obtain ⟨j, _, hrun, hnil, hnew, _⟩ := finished_of_ok h
  -- no page is requested once both programs are done
  have hbelow : ∀ i x, Overtakes config env t1 i x → i < j := by
    intro i x hx
    by_contra hge
    rcases Nat.lt_or_eq_of_le (Nat.le_of_not_lt hge) with hlt | rfl
    · have hstable := scan_stable (returned_of_nil hnil) hlt
      exact returned_of_nil hnil (hstable ▸ hx.running)
    · exact absurd (hnil.symm.trans hx.turn) (by simp)
  rcases (cursorInv_scan hrun).newest n hnew with ⟨i, x, _, hx, hsig, hlast⟩ | ⟨hnone, hg⟩
  · exact ⟨x, Or.inl ⟨i, hx, fun l y hy => hlast l y (hbelow l y hy) hy⟩, hsig⟩
  · obtain ⟨g, hhead, hsig⟩ := hg
    exact ⟨g, Or.inr ⟨fun l y hy => hnone l y (hbelow l y hy) hy, hhead⟩, hsig⟩

theorem overtakesLast_unique {i j : Nat} {x y : TxStatus} (hx : OvertakesLast config env t1 i x)
    (hy : OvertakesLast config env t1 j y) : x = y := by
  have hij : i = j := Nat.le_antisymm (hy.2 i x hx.1) (hx.2 j y hy.1)
  subst hij
  exact Option.some.inj (hx.1.head.symm.trans hy.1.head)

theorem CursorHead.unique {x y : TxStatus} (hx : CursorHead config env t1 x)
    (hy : CursorHead config env t1 y) : x = y := by
  rcases hx with ⟨i, hi⟩ | ⟨hnone, hg⟩ <;> rcases hy with ⟨j, hj⟩ | ⟨hnone', hg'⟩
  · exact overtakesLast_unique hi hj
  · exact absurd hi.1 (hnone' i x)
  · exact absurd hj.1 (hnone j y)
  · exact Option.some.inj (hg.symm.trans hg')

/-! ## Safety -/

/-- The gateway's pages show only what its first page's chain had, the others gas service entries. -/
theorem listed_origin {j : Nat} {program : Pubkey} {st : TxStatus}
    (hl : Lists env config.programsToMonitor t1 none j program st) :
    st ∈ (env.chainAt 0).history ∨ st.mentions config.gasServiceConfigPda = true := by
  obtain ⟨rest, hcur⟩ := hl.current
  cases progress_scan hl.running (Chain.le_refl (env.chainAt j)) with
  | first htodo hc =>
      obtain ⟨rfl, _⟩ := List.cons.inj ((htodo j (Nat.le_refl j)).symm.trans hcur)
      exact Or.inl (hc.page_subset hl.running hl.shown)
  | second htodo =>
      obtain ⟨rfl, _⟩ := List.cons.inj (htodo.symm.trans hcur)
      exact Or.inr (mem_pageOf hl.shown).2.1
  | done htodo => exact absurd (htodo.symm.trans hcur) (by simp)

/-- A late gateway transaction is never sent by the catch-up call. -/
theorem late_not_sent {st : TxStatus} (hlate : LateGateway config env t1 D st) :
    st.tx ∉ (catchUp config env t1 k).sent := by
  intro hsent
  obtain ⟨j, _, program, hl, _⟩ := sent_iff.mp hsent
  rw [← TxStatus.eq_successful hlate.successful] at hl
  rcases listed_origin hl with hin | hgas
  · exact hlate.late hin
  · exact absurd (hgas.symm.trans hlate.notGasService) (by simp)

/-- A late gateway transaction that is not newer than the cursor was overtaken. -/
theorem overtaken_of_late (h : (catchUp config env t1 k).result = some (.ok (some n)))
    (hD : env.chainAt k ≤ D) {st : TxStatus} (hlate : LateGateway config env t1 D st)
    (hpos : D.position st.signature ≤ D.position n) :
    ∃ i x, OvertakesLast config env t1 i x ∧ D.position st.signature < D.position x.signature := by
  rcases cursor_origin h with ⟨x, ⟨i, hx⟩ | ⟨_, hg⟩, rfl⟩
  · refine ⟨i, x, hx, Nat.lt_of_le_of_ne hpos ?_⟩
    intro heq
    obtain ⟨hin, hgas, _⟩ := mem_pageOf (List.mem_of_head? hx.1.head)
    rw [scan_requests hx.1.running] at hin
    have hik : i ≤ k := by
      by_contra hlt
      have hstable : catchUp config env t1 i = catchUp config env t1 k :=
        scan_stable (fun hnone => absurd (hnone.symm.trans h) (by simp)) (Nat.le_of_not_le hlt)
      have hrun := hx.1.running
      rw [hstable] at hrun
      exact absurd (hrun.symm.trans h) (by simp)
    have hxD : x ∈ D.history := Chain.mem_of_le (Chain.le_trans (chainAt_mono env hik) hD) hin
    have hsx : st = x :=
      Chain.eq_of_signature_eq hlate.confirmed hxD (Chain.position_inj hlate.confirmed heq)
    exact absurd ((hsx ▸ hlate.notGasService).symm.trans hgas) (by simp)
  · -- the gateway's own first page has nothing late below its head
    exfalso
    have hin := (Paging.mem_range.mp (Paging.mem_range_of_mem_page (List.mem_of_head? hg))).1
    exact hlate.late (Paging.mem_of_position_lt D.distinct
      (Chain.le_trans (chainAt_mono env (Nat.zero_le k)) hD) hlate.confirmed
      (Chain.mem_signatures hin) hpos)

/-- What the call lists is on every chain that has grown from those it saw. -/
theorem listed_mem (h : (catchUp config env t1 k).result = some (.ok (some n)))
    (hD : env.chainAt k ≤ D) {j : Nat} {program : Pubkey} {st : TxStatus}
    (hl : Lists env config.programsToMonitor t1 none j program st) :
    st ∈ D.history ∧ config.monitors st = true := by
  obtain ⟨hin, hment, -, -⟩ := mem_pageOf hl.shown
  rw [scan_requests hl.running] at hin
  have hjk : j ≤ k := Nat.le_of_lt (lists_lt h hl)
  refine ⟨Chain.mem_of_le (Chain.le_trans (chainAt_mono env hjk) hD) hin, ?_⟩
  obtain ⟨rest, hcur⟩ := hl.current
  cases progress_scan hl.running (Chain.le_refl (env.chainAt j)) with
  | first htodo =>
      obtain ⟨rfl, -⟩ := List.cons.inj ((htodo j (Nat.le_refl j)).symm.trans hcur)
      simp [Config.monitors, hment]
  | second htodo =>
      obtain ⟨rfl, -⟩ := List.cons.inj (htodo.symm.trans hcur)
      simp [Config.monitors, hment]
  | done htodo => exact absurd (htodo.symm.trans hcur) (by simp)

/-- **What a catch-up call that returns has listed.** -/
theorem catchUp_lists {newest : Option Signature}
    (hret : (catchUp config env t1 k).result = some (.ok newest)) (hD : env.chainAt k ≤ D)
    {st : TxStatus} (hst : st ∈ D.history) (hsucc : st.isSuccessful = true)
    (hmon : config.monitors st = true) (hnewer : D.Newer t1 st) :
    (st ∈ (env.chainAt 0).history →
      ∃ j program, Lists env config.programsToMonitor t1 none j program st) ∧
    ∀ n, newest = some n → D.position st.signature ≤ D.position n →
      (∃ j program, Lists env config.programsToMonitor t1 none j program st) ∨
        LateGateway config env t1 D st := by
  obtain ⟨m, hm, hgw, hgas, hn⟩ :=
    listed_of_ok hret (Chain.le_trans (chainAt_mono env (requests_le k)) hD)
  have hmD : env.chainAt m ≤ D :=
    Chain.le_trans (chainAt_mono env (Nat.le_trans hm (requests_le k))) hD
  have hlisted : ∀ {m program}, Covered env config.programsToMonitor D t1 none k m program →
      st ∈ (env.chainAt m).history → st.mentions program = true →
      ∃ j program, Lists env config.programsToMonitor t1 none j program st := by
    intro m program hcov hin hment
    obtain ⟨j, -, hl⟩ := hcov st ⟨hin, hment, trivial, hnewer⟩
    exact ⟨j, program, hl⟩
  have hearly : st ∈ (env.chainAt 0).history →
      ∃ j program, Lists env config.programsToMonitor t1 none j program st := by
    intro hin
    cases Bool.or_eq_true_iff.mp hmon with
    | inl hgateway => exact hlisted hgw hin hgateway
    | inr hgasService =>
        exact hlisted hgas (Chain.mem_of_le (chainAt_mono env (Nat.zero_le m)) hin) hgasService
  refine ⟨hearly, fun n hnewest hpos => ?_⟩
  by_cases hgasService : st.mentions config.gasServiceConfigPda = true
  · -- the returned signature was there when the gas service's first page was served
    have hnm := (hn n hnewest).resolve_left (by simp)
    exact Or.inl (hlisted hgas (Paging.mem_of_position_lt D.distinct hmD hst hnm hpos) hgasService)
  · by_cases hin : st ∈ (env.chainAt 0).history
    · exact Or.inl (hearly hin)
    · refine Or.inr ⟨hst, hsucc, ?_, by simpa using hgasService, hnewer, hin⟩
      simpa [Config.monitors, hgasService] using hmon

/--
**When the catch-up cursor is safe.** If the call returns `Some(n)`, everything up
to `n` was sent exactly when the last gas service page that overtakes is not headed
by a transaction newer than a gateway transaction confirmed after the gateway's
first page was served, and what the call lists up to the head the cursor is taken
from is fetched and finds the receiver there, at least once.
-/
theorem catchUp_safe_iff (config : Config) (env : ScanEnv) (t1 : Option Signature) (k : Nat)
    (n : Signature) (D : Chain) (hret : (catchUp config env t1 k).result = some (.ok (some n)))
    (hD : env.chainAt k ≤ D) :
    CatchUpSafe config t1 D n (catchUp config env t1 k).sent ↔
      (∀ i x, OvertakesLast config env t1 i x → ∀ st, LateGateway config env t1 D st →
        ¬ D.position st.signature < D.position x.signature) ∧
      ∀ x, CursorHead config env t1 x → SendsUpTo config env t1 D x := by
  obtain ⟨head, hhead, hn⟩ := cursor_origin hret
  constructor
  · intro hsafe
    refine ⟨fun i x hx st hlate hlt => ?_, fun x hx st hsucc hnewer hpos hl => ?_⟩
    · have hxn : x = head := hhead.unique (Or.inl ⟨i, hx⟩) ▸ rfl
      refine late_not_sent hlate (hsafe st hlate.confirmed hlate.successful ?_ hlate.newer
        (Nat.le_of_lt (hn ▸ hxn ▸ hlt)))
      simp [Config.monitors, hlate.gateway]
    · -- it was sent, so one of its tasks was fetched and sent
      obtain ⟨j, program, hl⟩ := hl
      obtain ⟨hst, hmon⟩ := listed_mem hret hD hl
      have hxn : x = head := hx.unique hhead
      exact (sent_iff_delivered hret hsucc).mp
        (hsafe st hst hsucc hmon hnewer (hn ▸ hxn ▸ hpos))
  · rintro ⟨hcond, hsends⟩ st hst hsucc hmon hnewer hpos
    cases (catchUp_lists hret hD hst hsucc hmon hnewer).2 n rfl hpos with
    | inl hl =>
        exact (sent_iff_delivered hret hsucc).mpr
          (hsends head hhead st hsucc hnewer (hn ▸ hpos) hl)
    | inr hlate =>
        obtain ⟨i, x, hx, hlt⟩ := overtaken_of_late hret hD hlate hpos
        exact absurd hlt (hcond i x hx st hlate)

/-! ## A gateway transaction between the two first pages -/

/-- On a chain that does not grow nothing is late. -/
theorem catchUp_safe_static :
    CatchUpSafe ⟨.filled 1, .filled 2⟩ none
      ⟨[gatewayTx 1, gatewayTx 2, gasServiceTx 3], by decide, by decide⟩ (.filled 3)
      (catchUp ⟨.filled 1, .filled 2⟩
        (.static ⟨[gatewayTx 1, gatewayTx 2, gasServiceTx 3], by decide, by decide⟩)
        none 3).sent := by
  refine (catchUp_safe_iff ⟨.filled 1, .filled 2⟩
    (.static ⟨[gatewayTx 1, gatewayTx 2, gasServiceTx 3], by decide, by decide⟩)
    none 3 (.filled 3) _ (by decide +kernel) (Chain.le_refl _)).mpr ⟨?_, ?_⟩
  · intro i x _ st hlate
    exact absurd hlate.confirmed hlate.late
  · rintro x - st - - - ⟨j, program, hl⟩
    exact ⟨j, program, hl, rfl, rfl⟩

/-- Two more transactions are confirmed between the first pages of the two programs. -/
def growingEnv : ScanEnv where
  chainAt
    | 0 => ⟨[gatewayTx 1], gatewayTx_distinct, gatewayTx_slots⟩
    | _ + 1 => ⟨[gatewayTx 1, gatewayTx 2, gasServiceTx 3], by decide, by decide⟩
  grows
    | 0 => by decide
    | _ + 1 => Chain.le_refl _
  pageFails _ := false
  fetchFails _ _ := false
  sendFails _ _ := false
  completion _ sigs := sigs
  completes _ sigs := List.Perm.refl sigs

/-- **The law fails**: the gas service's page moves the cursor over an unlisted transaction. -/
theorem catchUp_skips : ¬ ∀ (config : Config) (env : ScanEnv) (t1 : Option Signature) (k : Nat)
    (n : Signature) (D : Chain), (∀ m sig, env.fetchFails m sig = false) →
    (catchUp config env t1 k).result = some (.ok (some n)) → env.chainAt k ≤ D →
    CatchUpSafe config t1 D n (catchUp config env t1 k).sent := by
  intro hall
  have hsafe := hall ⟨.filled 1, .filled 2⟩ growingEnv none 3 (.filled 3) (growingEnv.chainAt 3)
    (fun _ _ => rfl) (by rfl) (Chain.le_refl _)
  have hmissing : (gatewayTx 2).tx ∉
      (catchUp ⟨.filled 1, .filled 2⟩ growingEnv none 3).sent := by decide +kernel
  exact hmissing (hsafe (gatewayTx 2) (by decide) rfl (by decide) trivial (by decide))

end AxelarRelayer.Proof
