import AxelarRelayer.Proof.Pagination

/-!
# The newest signature

`fetch_batches_in_range` compares the newest entry of every page with the slot the
very first page had. Within one program the pages get older, so the first one
decides. The second program's pages are compared with the first program's slot, each
of them, and an older page overrides a newer one as long as its slot is larger.

`newest_returned_iff`: the result is the newest signature exactly when the gas
service's newest entry is not newer than the gateway's, or stands in a later slot
than it while the next page does not.
-/

namespace AxelarRelayer.Proof

open AxelarRelayer Listener

variable {config : Config} {env : ScanEnv} {programs : List Pubkey} {t1 : Option Signature}
  {c : Chain} {k : Nat} {a b st : TxStatus} {n : Signature} {address : Pubkey}

/-- What is newer than `t1` for an address, newest first. -/
def entries (c : Chain) (t1 : Option Signature) (address : Pubkey) : List TxStatus :=
  (c.range address none t1).reverse

/-- The chronologically newest signature of either address above `t1`. -/
def IsNewest (config : Config) (c : Chain) (t1 : Option Signature) : Option Signature → Prop
  | none => ∀ st, ¬ InScanRange config c t1 none st
  | some n => (∃ st, InScanRange config c t1 none st ∧ st.signature = n) ∧
      ∀ st, InScanRange config c t1 none st → c.position st.signature ≤ c.position n

/-- The law: the call returns the newest signature. -/
def ReturnsNewest (config : Config) (env : ScanEnv) (t1 : Option Signature) (c : Chain) : Prop :=
  ∃ newest, Returns env config.programsToMonitor t1 none (.ok newest) ∧
    IsNewest config c t1 newest

/--
Where the gas service's newest entry is newer than the gateway's, slots tell: it is in
a later slot, and no later page starts in a later slot, too.
-/
def SlotsTell (config : Config) (c : Chain) (t1 : Option Signature) : Prop :=
  ∀ a b, (entries c t1 config.gatewayProgramAddress).head? = some a →
    (entries c t1 config.gasServiceConfigPda).head? = some b →
    c.position a.signature < c.position b.signature →
    a.tx.slot < b.tx.slot ∧
      ∀ next, (entries c t1 config.gasServiceConfigPda)[LIMIT]? = some next →
        next.tx.slot ≤ a.tx.slot

/-! ## Entries -/

theorem mem_entries : st ∈ entries c t1 address ↔
    st ∈ c.history ∧ st.mentions address = true ∧ c.Newer t1 st := by
  rw [entries, List.mem_reverse, Chain.mem_range]
  exact ⟨fun h => ⟨h.1, h.2.1, h.2.2.2⟩, fun h => ⟨h.1, h.2.1, trivial, h.2.2⟩⟩

theorem inScanRange_iff : InScanRange config c t1 none st ↔
    st ∈ entries c t1 config.gatewayProgramAddress ∨
      st ∈ entries c t1 config.gasServiceConfigPda := by
  rw [mem_entries, mem_entries]
  constructor
  · rintro ⟨hin, hmonitored, -, hnewer⟩
    rcases Bool.or_eq_true_iff.mp hmonitored with hment | hment
    · exact Or.inl ⟨hin, hment, hnewer⟩
    · exact Or.inr ⟨hin, hment, hnewer⟩
  · rintro (⟨hin, hment, hnewer⟩ | ⟨hin, hment, hnewer⟩)
    · exact ⟨hin, by rw [Config.monitors, hment]; rfl, trivial, hnewer⟩
    · exact ⟨hin, by rw [Config.monitors, hment, Bool.or_true], trivial, hnewer⟩

/-- Further down means strictly older, and in no later slot. -/
theorem entries_older {l : List TxStatus} (h : entries c t1 address = a :: l) (hst : st ∈ l) :
    c.position st.signature < c.position a.signature ∧ st.tx.slot ≤ a.tx.slot := by
  have hpw := Paging.range_reverse_pairwise (p := TxStatus.mentions address) none t1 c.distinct
  have hall : ∀ x ∈ a :: l, x ∈ c.history := fun x hx => (mem_entries.mp (h ▸ hx)).1
  have hlt : c.position st.signature < c.position a.signature := by
    have hcons : (a :: l).Pairwise fun x y => c.position y.signature < c.position x.signature := by
      rw [← h]
      exact hpw
    exact (List.pairwise_cons.mp hcons).1 st hst
  exact ⟨hlt, Chain.slot_le_of_position_le (hall st (List.mem_cons_of_mem _ hst))
    (hall a List.mem_cons_self) (Nat.le_of_lt hlt)⟩

theorem entries_le_head {l : List TxStatus} (h : entries c t1 address = a :: l)
    (hst : st ∈ entries c t1 address) : c.position st.signature ≤ c.position a.signature := by
  rw [h] at hst
  rcases List.mem_cons.mp hst with rfl | hst
  · exact Nat.le_refl _
  · exact Nat.le_of_lt (entries_older h hst).1

theorem not_isNewest (hst : InScanRange config c t1 none st)
    (hlt : c.position n < c.position st.signature) : ¬ IsNewest config c t1 (some n) :=
  fun h => Nat.not_lt.mpr (h.2 st hst) hlt

/-! ## The cursor -/

/-- Heads in no later slot change nothing. -/
theorem record_keep {slot : Nat} {l : List TxStatus} (h : ∀ st ∈ l, st.tx.slot ≤ slot) :
    l.foldl record (some n, some slot) = (some n, some slot) := by
  induction l with
  | nil => rfl
  | cons st l ih =>
      have hst : ¬ slot < st.tx.slot := Nat.not_lt.mpr (h st List.mem_cons_self)
      rw [List.foldl_cons, record, if_neg hst]
      exact ih fun st' hst' => h st' (List.mem_cons_of_mem _ hst')

/-- The last head in a later slot overrides the cursor. -/
theorem record_override {slot : Nat} {l : List TxStatus} (h : ∃ st ∈ l, slot < st.tx.slot) :
    ∃ st ∈ l, l.foldl record (some n, some slot) = (some st.signature, some slot) := by
  induction l generalizing n with
  | nil =>
      obtain ⟨st, hst, -⟩ := h
      exact absurd hst List.not_mem_nil
  | cons st l ih =>
      rw [List.foldl_cons, record]
      -- the last entry with a later slot is the one that stays
      by_cases hlater : ∃ st' ∈ l, slot < st'.tx.slot
      · split
        · obtain ⟨st', hst', heq⟩ := ih (n := st.signature) hlater
          exact ⟨st', List.mem_cons_of_mem _ hst', heq⟩
        · obtain ⟨st', hst', heq⟩ := ih (n := n) hlater
          exact ⟨st', List.mem_cons_of_mem _ hst', heq⟩
      · obtain ⟨st', hst', hlt⟩ := h
        rcases List.mem_cons.mp hst' with rfl | hst'
        · rw [if_pos hlt]
          refine ⟨st', List.mem_cons_self, record_keep fun x hx => ?_⟩
          exact Nat.le_of_not_lt fun hx' => hlater ⟨x, hx, hx'⟩
        · exact absurd ⟨st', hst', hlt⟩ hlater

/-- The heads of one program leave its newest entry behind. -/
theorem record_heads {l : List TxStatus} (h : entries c t1 address = a :: l) :
    (Paging.pageHeads LIMIT (entries c t1 address)).foldl record (none, none) =
      (some a.signature, some a.tx.slot) := by
  rw [h, Paging.pageHeads, List.foldl_cons, record]
  refine record_keep fun st hst => (entries_older h ?_).2
  exact List.mem_of_mem_drop ((Paging.pageHeads_sublist _).subset hst)

/-- What the cursor and the heads still to come amount to never changes. -/
theorem cursor_and_pending (hstatic : ∀ n, env.chainAt n = c)
    (hrun : (scan env programs t1 none k).result = none) :
    ((pending c t1 none (scan env programs t1 none k)).flatMap (Paging.pageHeads LIMIT)).foldl
      record (cursor (scan env programs t1 none k)) =
    ((programs.map (entries c t1)).flatMap (Paging.pageHeads LIMIT)).foldl record (none, none) := by
  induction k with
  | zero =>
      rw [scan, pending_start]
      rfl
  | succ k ih =>
      obtain ⟨page, h⟩ := answered_scan hstatic hrun
      rw [← ih (running_of_succ hrun), h.advances.heads, List.foldl_append, h.cursor]

/-- **What the call returns**: the heads of all pages, recorded one after the other. -/
theorem newest_eq (hstatic : ∀ n, env.chainAt n = c) {newest : Option Signature}
    (h : (scan env programs t1 none k).result = some (.ok newest)) :
    newest = (((programs.map (entries c t1)).flatMap (Paging.pageHeads LIMIT)).foldl record
      (none, none)).1 := by
  obtain ⟨j, hrun, hnil, -, hnewest⟩ := final_of_ok h
  have hall := cursor_and_pending hstatic hrun
  have hnone : pending c t1 none (scan env programs t1 none j) = [] := by
    rw [pending, hnil]
  rw [hnone] at hall
  rw [hnewest, ← hall]
  rfl

/-- The heads behind the first one start with the entry that follows the first page. -/
theorem later_heads {l : List TxStatus} (h : entries c t1 address = b :: l) (slot : Nat) :
    (∃ st ∈ Paging.pageHeads LIMIT (l.drop (LIMIT - 1)), slot < st.tx.slot) ↔
      ∃ next, (entries c t1 address)[LIMIT]? = some next ∧ slot < next.tx.slot := by
  have hnext : (entries c t1 address)[LIMIT]? = (l.drop (LIMIT - 1)).head? := by
    rw [h, List.head?_drop]
    rfl
  rw [hnext]
  cases hdrop : l.drop (LIMIT - 1) with
  | nil =>
      rw [Paging.pageHeads_nil]
      exact ⟨fun ⟨_, hst, _⟩ => absurd hst List.not_mem_nil, fun ⟨_, hnone, _⟩ => by cases hnone⟩
  | cons next rest =>
      have hsub : (next :: rest).Sublist (entries c t1 address) := by
        rw [h, ← hdrop]
        exact (List.drop_sublist _ _).cons b
      -- newest first: of what is behind the first page its first entry has the latest slot
      have hpw := Paging.range_reverse_pairwise (p := TxStatus.mentions address) none t1 c.distinct
      have hcons : (next :: rest).Pairwise fun x y =>
          c.position y.signature < c.position x.signature := List.Pairwise.sublist hsub hpw
      have hin : ∀ x ∈ next :: rest, x ∈ c.history := fun x hx => (mem_entries.mp (hsub.subset hx)).1
      constructor
      · rintro ⟨st, hst, hlt⟩
        refine ⟨next, rfl, Nat.lt_of_lt_of_le hlt ?_⟩
        have hst := (Paging.pageHeads_sublist _).subset hst
        rcases List.mem_cons.mp hst with rfl | hrest
        · exact Nat.le_refl _
        · exact Chain.slot_le_of_position_le (hin st hst) (hin next List.mem_cons_self)
            (Nat.le_of_lt ((List.pairwise_cons.mp hcons).1 st hrest))
      · rintro ⟨st, hst, hlt⟩
        obtain rfl := Option.some.inj hst
        refine ⟨next, ?_, hlt⟩
        rw [Paging.pageHeads]
        exact List.mem_cons_self

/-- The recorded signature is the newest one exactly when the slots tell. -/
theorem recorded_iff (config : Config) (c : Chain) (t1 : Option Signature) :
    IsNewest config c t1 ((config.programsToMonitor.map (entries c t1)).flatMap
      (Paging.pageHeads LIMIT) |>.foldl record (none, none)).1 ↔ SlotsTell config c t1 := by
  have hsplit : ((config.programsToMonitor.map (entries c t1)).flatMap
      (Paging.pageHeads LIMIT)).foldl record (none, none) =
        (Paging.pageHeads LIMIT (entries c t1 config.gasServiceConfigPda)).foldl record
          ((Paging.pageHeads LIMIT (entries c t1 config.gatewayProgramAddress)).foldl record
            (none, none)) := by
    rw [Config.programsToMonitor, List.map_cons, List.map_cons, List.map_nil, List.flatMap_cons,
      List.flatMap_cons, List.flatMap_nil, List.append_nil, List.foldl_append]
  rw [hsplit]
  cases hgw : entries c t1 config.gatewayProgramAddress with
  | nil =>
      have htell : SlotsTell config c t1 := by
        intro a b ha
        rw [hgw] at ha
        cases ha
      rw [Paging.pageHeads_nil, List.foldl_nil]
      refine iff_of_true ?_ htell
      cases hgas : entries c t1 config.gasServiceConfigPda with
      | nil =>
          rw [Paging.pageHeads_nil, List.foldl_nil]
          intro st hst
          rcases inScanRange_iff.mp hst with hin | hin
          · exact absurd (hgw ▸ hin) List.not_mem_nil
          · exact absurd (hgas ▸ hin) List.not_mem_nil
      | cons b l =>
          rw [← hgas, record_heads hgas]
          refine ⟨⟨b, inScanRange_iff.mpr (Or.inr (hgas ▸ List.mem_cons_self)), rfl⟩, ?_⟩
          intro st hst
          rcases inScanRange_iff.mp hst with hin | hin
          · exact absurd (hgw ▸ hin) List.not_mem_nil
          · exact entries_le_head hgas hin
  | cons a l =>
      rw [← hgw, record_heads hgw]
      have ha : InScanRange config c t1 none a :=
        inScanRange_iff.mpr (Or.inl (hgw ▸ List.mem_cons_self))
      cases hgas : entries c t1 config.gasServiceConfigPda with
      | nil =>
          rw [Paging.pageHeads_nil, List.foldl_nil]
          refine iff_of_true ⟨⟨a, ha, rfl⟩, fun st hst => ?_⟩ fun x y _ hy => ?_
          · rcases inScanRange_iff.mp hst with hin | hin
            · exact entries_le_head hgw hin
            · exact absurd (hgas ▸ hin) List.not_mem_nil
          · rw [hgas] at hy
            cases hy
      | cons b m =>
          have hb : InScanRange config c t1 none b :=
            inScanRange_iff.mpr (Or.inr (hgas ▸ List.mem_cons_self))
          have htell : SlotsTell config c t1 ↔
              (c.position a.signature < c.position b.signature → a.tx.slot < b.tx.slot ∧
                ∀ next, (entries c t1 config.gasServiceConfigPda)[LIMIT]? = some next →
                  next.tx.slot ≤ a.tx.slot) := by
            unfold SlotsTell
            rw [hgw, hgas]
            simp
          rw [htell, Paging.pageHeads, List.foldl_cons, record]
          by_cases hlt : c.position a.signature < c.position b.signature
          · by_cases hslot : a.tx.slot < b.tx.slot
            · rw [if_pos hslot]
              by_cases hrest : ∃ next, (entries c t1 config.gasServiceConfigPda)[LIMIT]? = some next ∧
                  a.tx.slot < next.tx.slot
              · -- an older page overrides the newest entry
                obtain ⟨st, hst, heq⟩ := record_override (n := b.signature)
                  ((later_heads hgas _).mpr hrest)
                rw [heq]
                refine iff_of_false (not_isNewest hb (entries_older hgas ?_).1) fun htells => ?_
                · exact List.mem_of_mem_drop ((Paging.pageHeads_sublist _).subset hst)
                · obtain ⟨next, hnext, hlater⟩ := hrest
                  exact Nat.not_lt.mpr ((htells hlt).2 next hnext) hlater
              · rw [record_keep fun st hst => Nat.le_of_not_lt fun hlater =>
                  hrest ((later_heads hgas _).mp ⟨st, hst, hlater⟩)]
                refine iff_of_true ⟨⟨b, hb, rfl⟩, fun st hst => ?_⟩ fun _ => ⟨hslot, fun next hnext =>
                  Nat.le_of_not_lt fun hlater => hrest ⟨next, hnext, hlater⟩⟩
                rcases inScanRange_iff.mp hst with hin | hin
                · exact Nat.le_trans (entries_le_head hgw hin) (Nat.le_of_lt hlt)
                · exact entries_le_head hgas hin
            · -- within one slot the gateway's entry stays
              rw [if_neg hslot, record_keep fun st hst => Nat.le_trans (entries_older hgas
                (List.mem_of_mem_drop ((Paging.pageHeads_sublist _).subset hst))).2
                (Nat.le_of_not_lt hslot)]
              exact iff_of_false (not_isNewest hb hlt) fun htells => hslot (htells hlt).1
          · have hle : b.tx.slot ≤ a.tx.slot := Chain.slot_le_of_position_le hb.confirmed
              ha.confirmed (Nat.le_of_not_lt hlt)
            rw [if_neg (Nat.not_lt.mpr hle), record_keep fun st hst => Nat.le_trans
              (entries_older hgas (List.mem_of_mem_drop
                ((Paging.pageHeads_sublist _).subset hst))).2 hle]
            refine iff_of_true ⟨⟨a, ha, rfl⟩, fun st hst => ?_⟩ fun h => absurd h hlt
            rcases inScanRange_iff.mp hst with hin | hin
            · exact entries_le_head hgw hin
            · exact Nat.le_trans (entries_le_head hgas hin) (Nat.le_of_not_lt hlt)

/--
**When the result is the newest signature.** On a static history, if no page request
fails: exactly when the slots tell which of the two newest entries is newer.
-/
theorem newest_returned_iff (config : Config) (env : ScanEnv) (t1 : Option Signature) (c : Chain)
    (hstatic : ∀ n, env.chainAt n = c) (hpages : ∀ n, env.pageFails n = false) :
    ReturnsNewest config env t1 c ↔ SlotsTell config c t1 := by
  obtain ⟨result, k, hk⟩ := scan_returns config.programsToMonitor t1 none hstatic
  cases result with
  | error error =>
      obtain ⟨j, -, -, hfail⟩ := pageRequestFails_of_error hk
      exact absurd (hpages j ▸ hfail) (by simp)
  | ok newest =>
      rw [← recorded_iff, ← newest_eq hstatic hk]
      constructor
      · rintro ⟨newest', hreturns, hnewest⟩
        obtain rfl := Except.ok.inj (hreturns.unique ⟨k, hk⟩)
        exact hnewest
      · exact fun hnewest => ⟨newest, ⟨k, hk⟩, hnewest⟩

/-- The gateway's last transaction is the newest of the twelve. -/
theorem twelve_newest :
    ReturnsNewest ⟨.filled 1, .filled 2⟩ (.static twelve) (some (.filled 1)) twelve := by
  refine (newest_returned_iff _ _ _ _ (fun _ => rfl) fun _ => rfl).mpr ?_
  intro a b ha hb hlt
  have hgateway : (entries twelve (some (.filled 1)) (.filled 1)).head? =
      some (.successful (.bare (.filled 11) [.filled 1] 11)) := by decide +kernel
  have hgas : (entries twelve (some (.filled 1)) (.filled 2)).head? =
      some (.successful (.bare (.filled 10) [.filled 1, .filled 2] 10)) := by decide +kernel
  obtain rfl := Option.some.inj (hgateway.symm.trans ha)
  obtain rfl := Option.some.inj (hgas.symm.trans hb)
  exact absurd hlt (by decide +kernel)

/-- A transaction of the gateway, and eleven later ones of the gas service, one in each slot. -/
def elevenLater : Chain where
  history := gatewayTx 0 :: (List.range 11).map fun n => gasServiceTx (UInt8.ofNat (n + 1))
  distinct := by
    change (([0, 1, 2, 3, 4, 5, 6, 7, 8, 9, 10, 11] : List UInt8).map Signature.filled).Nodup
    exact Signature.nodup_filled (by decide)
  slots := by decide

/-- **The law fails**: the second page of the gas service overrides its first one. -/
theorem second_page_overrides : ¬ ∀ (config : Config) (env : ScanEnv) (t1 : Option Signature)
    (c : Chain), (∀ n, env.chainAt n = c) → (∀ n, env.pageFails n = false) →
      ReturnsNewest config env t1 c := by
  intro hall
  obtain ⟨newest, ⟨k, hk⟩, hnewest⟩ := hall ⟨.filled 1, .filled 2⟩ (.static elevenLater) none
    elevenLater (fun _ => rfl) fun _ => rfl
  have hret : Returns (.static elevenLater) [.filled 1, .filled 2] none none
      (.ok (some (.filled 1))) := ⟨4, by decide +kernel⟩
  obtain rfl := Except.ok.inj (hret.unique ⟨k, hk⟩)
  have hlast : InScanRange ⟨.filled 1, .filled 2⟩ elevenLater none none (gasServiceTx 11) :=
    ⟨by decide +kernel, by decide +kernel, trivial, trivial⟩
  exact absurd (hnewest.2 _ hlast) (by decide +kernel)

end AxelarRelayer.Proof
