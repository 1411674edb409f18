import Mathlib.Algebra.BigOperators.Group.Finset.Basic
import Mathlib.Algebra.Order.BigOperators.Group.Finset
import AxelarRelayer.Gas.Computation

/-!
# What `compute_total_gas` charges for an executed message

The lookup returns the whole history of the payload account
(`fetchSignaturesFrom_spec`), so the two nested loops compute, for every
successful transaction of it, the fee times the number of instructions that match
(`sumOfMatching_eq`). The transaction that is inspected closes the account and so
stands in this history itself, after its fee was already taken as the base.

`charged_once_iff`: the result is the sum over the *distinct* transactions exactly
when neither of the two repetitions costs anything.
-/

namespace AxelarRelayer.Proof

open AxelarRelayer Gas

variable {codec : Codec} {gatewayProgramId pda : Pubkey} {counts : GatewayInstruction → Bool}
  {lookup : Lookup}

/-- No call of the lookup fails. -/
structure Lookup.Works (lookup : Lookup) : Prop where
  pages : ∀ n, lookup.pageFails n = false
  fetches : ∀ sig, lookup.fetchFails sig = false

/-! ## The lookup -/

/-- **One pass from any point**: the rest of the history, unless a page request fails. -/
theorem fetchSignaturesFrom_spec (lookup : Lookup) (address : Pubkey) (fuel n : Nat)
    (before : Option Signature)
    (hfuel : ((lookup.chainAt n).range address before none).length < fuel) :
    (∃ m error, lookup.pageFails m = true ∧
      fetchSignaturesFrom lookup address fuel n before = some (.error error)) ∨
    fetchSignaturesFrom lookup address fuel n before = some (.ok
      (((lookup.chainAt n).range address before none).reverse.map TxStatus.signature)) := by
  induction fuel generalizing n before with
  | zero => exact absurd hfuel (Nat.not_lt_zero _)
  | succ fuel ih =>
      rw [fetchSignaturesFrom]
      by_cases hfail : lookup.pageFails n = true
      · rw [if_pos hfail]
        exact Or.inl ⟨n, _, hfail, rfl⟩
      rw [if_neg hfail]
      dsimp only
      cases hlast : ((lookup.chainAt n).getSignaturesForAddress address before none
          PAGE_LIMIT).getLast? with
      | none =>
          have hnil := Paging.range_eq_nil (by decide) (List.getLast?_eq_none_iff.mp hlast)
          refine Or.inr ?_
          change some (Except.ok []) = _
          rw [Chain.range, hnil]
          rfl
      | some last =>
          -- the next page continues below `last`, whatever was confirmed meanwhile
          have hmem := Paging.mem_range_of_mem_page (List.mem_of_getLast? hlast)
          have hlh := (Paging.mem_range.mp hmem).1
          have hgrow : (lookup.chainAt (n + 1)).range address (some last.signature) none =
              (lookup.chainAt n).range address (some last.signature) none :=
            Paging.range_grow (lookup.grows n) (lookup.chainAt (n + 1)).distinct
              (Chain.mem_signatures hlh)
          have hsplit : (lookup.chainAt n).getSignaturesForAddress address before none PAGE_LIMIT ++
              ((lookup.chainAt n).range address (some last.signature) none).reverse =
                ((lookup.chainAt n).range address before none).reverse :=
            (Paging.page_isPage (by decide)).append_below_last (lookup.chainAt n).distinct hlast
          have hshort : ((lookup.chainAt (n + 1)).range address (some last.signature) none).length
              < fuel := by
            have hpos := List.length_pos_of_mem (List.mem_of_getLast? hlast)
            have hlen := congrArg List.length hsplit
            rw [List.length_append, List.length_reverse, List.length_reverse] at hlen
            rw [hgrow]
            omega
          rcases ih (n + 1) (some last.signature) hshort with ⟨m, error, hm, herr⟩ | hok
          · exact Or.inl ⟨m, error, hm, by simp [herr, Except.map]⟩
          · refine Or.inr ?_
            dsimp only
            rw [hok, hgrow, ← hsplit, List.map_append]
            rfl

theorem length_range_lt_fuel (lookup : Lookup) (address : Pubkey) :
    ((lookup.chainAt 0).range address none none).length < lookup.fuel :=
  Nat.lt_succ_of_le (List.length_filter_le _ _)

/-- The loop of `fetch_signatures` ends. -/
theorem fetchSignatures_isSome (lookup : Lookup) (address : Pubkey) :
    (fetchSignatures lookup address).isSome = true := by
  rcases fetchSignaturesFrom_spec lookup address _ 0 none (length_range_lt_fuel lookup address) with
    ⟨_, _, _, h⟩ | h <;> simp [fetchSignatures, h]

/-- **The whole history**, as of the first page request, newest first. -/
theorem fetchSignatures_ok (hworks : Lookup.Works lookup) (address : Pubkey) :
    fetchSignatures lookup address = some (.ok
      (((lookup.chainAt 0).range address none none).reverse.map TxStatus.signature)) := by
  rcases fetchSignaturesFrom_spec lookup address _ 0 none (length_range_lt_fuel lookup address) with
    ⟨m, _, hm, _⟩ | h
  · exact absurd (hm.symm.trans (hworks.pages m)) (by simp)
  · exact h

/-- Fetching signatures of the chain gives their transactions, in some order. -/
theorem fetchAll_ok (hworks : Lookup.Works lookup) (sts : List TxStatus)
    (hsts : ∀ st ∈ sts, st ∈ (lookup.chainAt 0).history) :
    ∃ txLogs, fetchAll lookup (sts.map TxStatus.signature) = .ok txLogs ∧ txLogs.Perm sts := by
  have hfind : ∀ st ∈ sts, (lookup.chainAt 0).status? st.signature = some st :=
    fun st hst => Chain.status?_of_mem (hsts st hst)
  -- no fetch fails, so the order they complete in does not matter to this loop
  have hcollect : ∀ (sigs : List Signature), (∀ sig ∈ sigs, ∃ st ∈ sts, st.signature = sig) →
      sigs.mapM lookup.fetchTransaction =
        .ok (sigs.filterMap (lookup.chainAt 0).status?) := by
    intro sigs
    induction sigs with
    | nil => intro _; rfl
    | cons sig sigs ih =>
        intro hall
        obtain ⟨st, hst, rfl⟩ := hall sig List.mem_cons_self
        have hfetch : lookup.fetchTransaction st.signature = .ok st := by
          simp [Lookup.fetchTransaction, hworks.fetches, hfind st hst]
        rw [List.mapM_cons, hfetch, ih fun s hs => hall s (List.mem_cons_of_mem _ hs),
          List.filterMap_cons_some (hfind st hst)]
        rfl
  have hperm := lookup.completes (sts.map TxStatus.signature)
  refine ⟨_, hcollect _ ?_, ?_⟩
  · intro sig hsig
    obtain ⟨st, hst, heq⟩ := List.mem_map.mp (hperm.mem_iff.mp hsig)
    exact ⟨st, hst, heq⟩
  · refine (hperm.filterMap _).trans ?_
    rw [List.filterMap_map]
    exact List.Perm.of_eq ((List.filterMap_congr hfind).trans List.filterMap_some)

/-! ## The loops -/

/-- How many instructions of a transaction count. -/
def multiplicity (codec : Codec) (gatewayProgramId : Pubkey) (counts : GatewayInstruction → Bool)
    (tx : SolanaTransaction) : Nat :=
  tx.ixs.countP (matchesIx codec gatewayProgramId counts)

/-- What one transaction of the history adds. -/
def contribution (codec : Codec) (gatewayProgramId : Pubkey) (counts : GatewayInstruction → Bool) :
    TxStatus → Nat
  | .successful tx => multiplicity codec gatewayProgramId counts tx * tx.costInLamports
  | .failed .. => 0

/-- The inner loop adds the fee once for each matching instruction. -/
theorem foldl_matching (ixs : List ParsedIx) (cost total : Nat) (htotal : total ≤ Saturating.MAX) :
    ixs.foldl (fun total ix =>
        if matchesIx codec gatewayProgramId counts ix then Saturating.add total cost else total)
      total =
      min (total + ixs.countP (matchesIx codec gatewayProgramId counts) * cost) Saturating.MAX := by
  induction ixs generalizing total with
  | nil => simp only [List.foldl_nil, List.countP_nil]; omega
  | cons ix ixs ih =>
      rw [List.foldl_cons]
      by_cases hix : matchesIx codec gatewayProgramId counts ix = true
      · rw [if_pos hix, ih _ Saturating.add_le_max, List.countP_cons_of_pos hix, Nat.add_mul]
        simp only [Saturating.add]
        omega
      · rw [if_neg hix, ih _ htotal, List.countP_cons_of_neg hix]

/-- **Both loops**: fee times multiplicity, summed over the history. -/
theorem sumOfMatching_eq (txLogs : List TxStatus) :
    sumOfMatching codec gatewayProgramId counts txLogs =
      min (txLogs.map (contribution codec gatewayProgramId counts)).sum Saturating.MAX := by
  -- clamping at every step is clamping once
  have hfold : ∀ (sts : List TxStatus) (total : Nat), total ≤ Saturating.MAX →
      sts.foldl (addTransaction codec gatewayProgramId counts) total =
        min (total + (sts.map (contribution codec gatewayProgramId counts)).sum)
          Saturating.MAX := by
    intro sts
    induction sts with
    | nil => intro total h; simp only [List.foldl_nil, List.map_nil, List.sum_nil]; omega
    | cons st sts ih =>
        intro total h
        rw [List.foldl_cons, List.map_cons, List.sum_cons]
        cases st with
        | failed tx error =>
            rw [addTransaction, ih total h]
            simp only [contribution, Nat.zero_add]
        | successful tx =>
            rw [addTransaction, foldl_matching _ _ _ h, ih _ (Nat.min_le_right _ _)]
            simp only [contribution, multiplicity]
            omega
  rw [sumOfMatching, hfold txLogs 0 (Nat.zero_le _), Nat.zero_add]

/-- **What a lookup that works charges**, whatever order the fetches complete in. -/
theorem costOfHistory_ok (hworks : Lookup.Works lookup) :
    costOfHistory codec gatewayProgramId counts lookup pda =
      .ok (min (((lookup.chainAt 0).range pda none none).map
        (contribution codec gatewayProgramId counts)).sum Saturating.MAX) := by
  obtain ⟨txLogs, hfetch, hperm⟩ := fetchAll_ok hworks
    ((lookup.chainAt 0).range pda none none).reverse
    (fun st hst => (Chain.mem_range.mp (List.mem_reverse.mp hst)).1)
  rw [costOfHistory, fetchSignatures_ok hworks]
  change (fetchAll lookup _ >>= fun txLogs => _) = _
  rw [hfetch]
  change Except.ok (sumOfMatching _ _ _ txLogs) = _
  rw [sumOfMatching_eq, ((hperm.trans (List.reverse_perm _)).map _).sum_eq]

/-! ## Distinct transactions -/

/-- The successful transactions among `sts` that hold a matching instruction. -/
def matchingTxs (codec : Codec) (gatewayProgramId : Pubkey) (counts : GatewayInstruction → Bool)
    (sts : List TxStatus) : List SolanaTransaction :=
  sts.filterMap fun st => match st with
    | .successful tx =>
        if 0 < multiplicity codec gatewayProgramId counts tx then some tx else none
    | .failed .. => none

theorem mem_matchingTxs {sts : List TxStatus} {tx : SolanaTransaction} :
    tx ∈ matchingTxs codec gatewayProgramId counts sts ↔
      TxStatus.successful tx ∈ sts ∧ 0 < multiplicity codec gatewayProgramId counts tx := by
  rw [matchingTxs, List.mem_filterMap]
  constructor
  · rintro ⟨st, hst, hm⟩
    cases st with
    | failed t e => exact absurd hm (by simp)
    | successful t =>
        dsimp only at hm
        split at hm
        · rename_i hpos
          obtain rfl := Option.some.inj hm
          exact ⟨hst, hpos⟩
        · exact absurd hm (by simp)
  · rintro ⟨hst, hpos⟩
    exact ⟨_, hst, by simp [hpos]⟩

theorem matchingTxs_nodup {sts : List TxStatus} (h : sts.Nodup) :
    (matchingTxs codec gatewayProgramId counts sts).Nodup := by
  refine h.filterMap ?_
  intro a b tx ha hb
  cases a with
  | failed t e => exact absurd ha (by simp)
  | successful t =>
      cases b with
      | failed t' e => exact absurd hb (by simp)
      | successful t' =>
          simp only [Option.mem_def] at ha hb
          split at ha <;> split at hb <;> simp_all

/-- Only matching transactions contribute. -/
theorem sum_contribution (sts : List TxStatus) :
    (sts.map (contribution codec gatewayProgramId counts)).sum =
      ((matchingTxs codec gatewayProgramId counts sts).map fun tx =>
        multiplicity codec gatewayProgramId counts tx * tx.costInLamports).sum := by
  induction sts with
  | nil => rfl
  | cons st sts ih =>
      rw [List.map_cons, List.sum_cons, ih]
      cases st with
      | failed tx error =>
          simp only [matchingTxs, List.filterMap_cons, contribution, Nat.zero_add]
      | successful tx =>
          by_cases hpos : 0 < multiplicity codec gatewayProgramId counts tx
          · simp only [matchingTxs, List.filterMap_cons, contribution, if_pos hpos, List.map_cons,
              List.sum_cons]
          · -- without a counted instruction it does not match, and contributes nothing
            have hzero : multiplicity codec gatewayProgramId counts tx = 0 := by omega
            simp only [matchingTxs, List.filterMap_cons, contribution, hzero, Nat.lt_irrefl,
              if_false, Nat.zero_mul, Nat.zero_add]

/-- Counting with multiplicity exceeds counting once by the repetitions. -/
theorem sum_multiplicity {txs : List SolanaTransaction}
    (hpos : ∀ tx ∈ txs, 0 < multiplicity codec gatewayProgramId counts tx) :
    (txs.map fun tx => multiplicity codec gatewayProgramId counts tx * tx.costInLamports).sum =
      (txs.map fun tx => tx.costInLamports).sum +
        (txs.map fun tx =>
          (multiplicity codec gatewayProgramId counts tx - 1) * tx.costInLamports).sum := by
  induction txs with
  | nil => rfl
  | cons tx txs ih =>
      have hrest := ih fun t ht => hpos t (List.mem_cons_of_mem _ ht)
      obtain ⟨m, hm⟩ := Nat.exists_eq_succ_of_ne_zero (hpos tx List.mem_cons_self).ne'
      simp only [List.map_cons, List.sum_cons, hrest, hm, Nat.succ_mul, Nat.succ_sub_one]
      omega

/-- The repetitions cost nothing exactly when every repeated transaction was free. -/
theorem sum_repetitions_eq_zero {txs : List SolanaTransaction} :
    (txs.map fun tx =>
        (multiplicity codec gatewayProgramId counts tx - 1) * tx.costInLamports).sum = 0 ↔
      ∀ tx ∈ txs, 2 ≤ multiplicity codec gatewayProgramId counts tx → tx.costInLamports = 0 := by
  rw [List.sum_eq_zero_iff]
  constructor
  · intro h tx htx htwo
    have hz := h _ (List.mem_map_of_mem htx)
    rcases Nat.mul_eq_zero.mp hz with hz | hz
    · omega
    · exact hz
  · intro h n hn
    obtain ⟨tx, htx, rfl⟩ := List.mem_map.mp hn
    by_cases htwo : 2 ≤ multiplicity codec gatewayProgramId counts tx
    · rw [h tx htx htwo, Nat.mul_zero]
    · have hone : multiplicity codec gatewayProgramId counts tx - 1 = 0 := by omega
      rw [hone, Nat.zero_mul]

/-! ## The execute transaction -/

/--
A transaction of the form the relayer sends for an incoming message: the two
compute budget instructions, the destination program's executable instruction,
and the closing of the payload account.
-/
structure ExecuteForm (codec : Codec) (gatewayProgramId pda : Pubkey) (tx : SolanaTransaction)
    (price limit execute close : ParsedIx) : Prop where
  ixs : tx.ixs = [price, limit, execute, close]
  price : price.programId ≠ gatewayProgramId ∧ codec.isAxelarMessage price.data = false
  limit : limit.programId ≠ gatewayProgramId ∧ codec.isAxelarMessage limit.data = false
  execute : execute.programId ≠ gatewayProgramId ∧ codec.isAxelarMessage execute.data = true ∧
    execute.accounts[1]? = some pda
  close : close.programId = gatewayProgramId ∧
    codec.gatewayInstruction close.data = some .closeMessagePayload
  mentions : TxStatus.mentions pda (.successful tx) = true

/-- The set of distinct transactions the message is to be charged for. -/
def chargedSet (codec : Codec) (gatewayProgramId pda : Pubkey) (c : Chain)
    (tx : SolanaTransaction) : Finset SolanaTransaction :=
  insert tx (matchingTxs codec gatewayProgramId countsUpload (c.range pda none none)).toFinset

/-- What the loops add up, without clamping. -/
def countedTotal (codec : Codec) (gatewayProgramId pda : Pubkey) (c : Chain)
    (tx : SolanaTransaction) : Nat :=
  tx.costInLamports +
    ((c.range pda none none).map (contribution codec gatewayProgramId countsUpload)).sum

variable {tx : SolanaTransaction} {price limit execute close : ParsedIx} {c : Chain}
  {rpc : Nat → Lookup}

/-- What is skipped: no executable instruction, and of the gateway's none that shares a cost. -/
theorem chargeIx_skipped {ix : ParsedIx}
    (hgateway : ix.programId = gatewayProgramId → ∀ g, codec.gatewayInstruction ix.data = some g →
      countsUpload g = true)
    (hother : ix.programId ≠ gatewayProgramId → codec.isAxelarMessage ix.data = false)
    (lookup : Lookup) (total : Nat) :
    chargeIx codec gatewayProgramId lookup total ix = .ok total := by
  unfold chargeIx
  by_cases hid : ix.programId = gatewayProgramId
  · rw [if_pos hid]
    cases hdata : codec.gatewayInstruction ix.data with
    | none => rfl
    | some g =>
        have hcounts := hgateway hid g hdata
        cases g <;> first
          | rfl
          | cases hcounts
  · rw [if_neg hid, hother hid]
    rfl

/-- A transaction without an instruction that is charged costs its own fee. -/
theorem computeTotalGas_skipped (hskip : ∀ ix ∈ tx.ixs, ∀ (lookup : Lookup) (total : Nat),
    chargeIx codec gatewayProgramId lookup total ix = .ok total) (rpc : Nat → Lookup) :
    computeTotalGas codec gatewayProgramId tx rpc = .ok tx.costInLamports := by
  have hfold : ∀ (ixs : List ParsedIx) (n : Nat), (∀ ix ∈ ixs, ix ∈ tx.ixs) →
      (ixs.zipIdx n).foldlM (fun total ix => chargeIx codec gatewayProgramId (rpc ix.2) total ix.1)
        tx.costInLamports = .ok tx.costInLamports := by
    intro ixs
    induction ixs with
    | nil => intro n _; rfl
    | cons ix ixs ih =>
        intro n hall
        rw [List.zipIdx_cons, List.foldlM_cons, hskip ix (hall ix List.mem_cons_self)]
        exact ih (n + 1) fun ix' hix' => hall ix' (List.mem_cons_of_mem _ hix')
  exact hfold tx.ixs 0 fun _ h => h

/-- **Only the executable instruction is looked up.** -/
theorem computeTotalGas_execute
    (hform : ExecuteForm codec gatewayProgramId pda tx price limit execute close)
    (hworks : Lookup.Works (rpc 2)) :
    computeTotalGas codec gatewayProgramId tx rpc =
      .ok (min (countedTotal codec gatewayProgramId pda ((rpc 2).chainAt 0) tx)
        Saturating.MAX) := by
  -- the compute budget instructions
  have hskip : ∀ (lookup : Lookup) (total : Nat) (ix : ParsedIx),
      ix.programId ≠ gatewayProgramId ∧ codec.isAxelarMessage ix.data = false →
        chargeIx codec gatewayProgramId lookup total ix = .ok total := by
    intro lookup total ix ⟨hid, hmsg⟩
    exact chargeIx_skipped (fun h => absurd h hid) (fun _ => hmsg) lookup total
  -- the close instruction is the gateway's, but the costing does not look for it
  have hclose : ∀ (lookup : Lookup) (total : Nat),
      chargeIx codec gatewayProgramId lookup total close = .ok total := by
    intro lookup total
    refine chargeIx_skipped (fun _ g hg => ?_) (fun h => absurd hform.close.1 h) lookup total
    obtain rfl := Option.some.inj (hform.close.2.symm.trans hg)
    rfl
  -- the execute instruction, at index 2
  have hexecute : chargeIx codec gatewayProgramId (rpc 2) tx.costInLamports execute =
      .ok (min (countedTotal codec gatewayProgramId pda ((rpc 2).chainAt 0) tx)
        Saturating.MAX) := by
    obtain ⟨hid, hmsg, hacc⟩ := hform.execute
    rw [countedTotal]
    simp only [chargeIx, if_neg hid, hmsg, if_true, hacc, costOfPayloadUploading,
      costOfHistory_ok hworks]
    change Except.ok (Saturating.add _ _) = _
    simp only [Saturating.add, Except.ok.injEq]
    omega
  rw [computeTotalGas, hform.ixs]
  simp only [List.zipIdx_cons, List.zipIdx_nil, List.foldlM_cons, List.foldlM_nil,
    hskip _ _ _ hform.price, hskip _ _ _ hform.limit, Nat.zero_add]
  change (chargeIx codec gatewayProgramId (rpc 2) tx.costInLamports execute >>= fun total => _) = _
  rw [hexecute]
  change (chargeIx codec gatewayProgramId (rpc 3) _ close >>= fun total => _) = _
  rw [hclose]
  rfl

/--
**When every transaction is charged once.** For an execute transaction of the
relayer's form whose lookup works and does not saturate, exactly when the
transaction itself was free and so was every transaction of the payload account's
history with two or more matching instructions.
-/
theorem charged_once_iff (codec : Codec) (gatewayProgramId pda : Pubkey) (rpc : Nat → Lookup)
    (tx : SolanaTransaction) (price limit execute close : ParsedIx)
    (hform : ExecuteForm codec gatewayProgramId pda tx price limit execute close)
    (hchain : TxStatus.successful tx ∈ ((rpc 2).chainAt 0).history)
    (hworks : Lookup.Works (rpc 2))
    (hsat : countedTotal codec gatewayProgramId pda ((rpc 2).chainAt 0) tx ≤ Saturating.MAX) :
    computeTotalGas codec gatewayProgramId tx rpc =
        .ok (∑ t ∈ chargedSet codec gatewayProgramId pda ((rpc 2).chainAt 0) tx,
          t.costInLamports) ↔
      tx.costInLamports = 0 ∧
        ∀ t ∈ chargedSet codec gatewayProgramId pda ((rpc 2).chainAt 0) tx,
          2 ≤ multiplicity codec gatewayProgramId countsUpload t → t.costInLamports = 0 := by
  set c := (rpc 2).chainAt 0 with hc
  set txs := matchingTxs codec gatewayProgramId countsUpload (c.range pda none none) with htxs
  -- the closing instruction puts the transaction into the history it is charged for
  have hself : tx ∈ txs := by
    refine mem_matchingTxs.mpr ⟨Chain.mem_range.mpr ⟨hchain, hform.mentions, trivial, trivial⟩, ?_⟩
    rw [multiplicity, hform.ixs, List.countP_pos_iff]
    refine ⟨close, by simp, ?_⟩
    simp [matchesIx, hform.close.1, hform.close.2, countsUpload]
  have hnodup : txs.Nodup :=
    matchingTxs_nodup ((List.Nodup.of_map TxStatus.signature c.distinct).filter _)
  have hset : chargedSet codec gatewayProgramId pda c tx = txs.toFinset := by
    rw [chargedSet, ← htxs, Finset.insert_eq_of_mem (List.mem_toFinset.mpr hself)]
  have hcounted : countedTotal codec gatewayProgramId pda c tx =
      tx.costInLamports + ((txs.map fun t => t.costInLamports).sum +
        (txs.map fun t =>
          (multiplicity codec gatewayProgramId countsUpload t - 1) * t.costInLamports).sum) := by
    rw [countedTotal, sum_contribution,
      sum_multiplicity fun t ht => (mem_matchingTxs.mp ht).2]
  rw [computeTotalGas_execute hform hworks, Nat.min_eq_left hsat, hset,
    List.sum_toFinset _ hnodup, hcounted, Except.ok.injEq]
  have hzero : (txs.map fun t =>
      (multiplicity codec gatewayProgramId countsUpload t - 1) * t.costInLamports).sum = 0 ↔
        ∀ t ∈ txs, 2 ≤ multiplicity codec gatewayProgramId countsUpload t → t.costInLamports = 0 :=
    sum_repetitions_eq_zero
  constructor
  · intro heq
    refine ⟨by omega, fun t ht => hzero.mp (by omega) t (List.mem_toFinset.mp ht)⟩
  · rintro ⟨hfree, hrepeated⟩
    have := hzero.mpr fun t ht => hrepeated t (List.mem_toFinset.mpr ht)
    omega

/-! ## An executed message -/

/-- Decoding by the leading byte: the borsh tag, or the first byte of `axelar-execute__`. -/
def tagCodec : Codec where
  gatewayInstruction
    | 6 :: _ => some .initializeMessagePayload
    | 7 :: _ => some .writeMessagePayload
    | 8 :: _ => some .commitMessagePayload
    | 9 :: _ => some .closeMessagePayload
    | _ => none
  isAxelarMessage data := data.head? = some 97

/-- A relayer transaction on the payload account 7, where the gateway is program 1. -/
def payloadTx (sig : UInt8) (ixs : List ParsedIx) (fee : Nat) : SolanaTransaction where
  signature := .filled sig
  timestamp := none
  logs := []
  accountKeys := [.filled 7, .filled 1]
  ixs := [⟨.filled 3, [], [3]⟩, ⟨.filled 3, [], [2]⟩] ++ ixs
  slot := sig.toNat
  costInLamports := fee

/-- The initialization of the account. -/
def initializeTx : SolanaTransaction := payloadTx 1 [⟨.filled 1, [.filled 7], [6]⟩] 5000

/-- The execution at program 9, which also closes the account. -/
def executeTx (fee : Nat) : SolanaTransaction :=
  payloadTx 2 [⟨.filled 9, [.filled 8, .filled 7], [97]⟩, ⟨.filled 1, [.filled 7], [9]⟩] fee

theorem executeTx_form (fee : Nat) : ExecuteForm tagCodec (.filled 1) (.filled 7) (executeTx fee)
    ⟨.filled 3, [], [3]⟩ ⟨.filled 3, [], [2]⟩ ⟨.filled 9, [.filled 8, .filled 7], [97]⟩
    ⟨.filled 1, [.filled 7], [9]⟩ where
  ixs := rfl
  price := by decide
  limit := by decide
  execute := by decide
  close := by decide
  mentions := by simp [TxStatus.mentions, executeTx, payloadTx, TxStatus.tx]

/-- An execution that cost nothing. -/
theorem charged_once_free : computeTotalGas tagCodec (.filled 1) (executeTx 0)
      (fun _ => .static ⟨[.successful initializeTx, .successful (executeTx 0)],
        by decide, by decide⟩) = .ok 5000 := by
  have hsum := (charged_once_iff tagCodec (.filled 1) (.filled 7)
    (fun _ => .static ⟨[.successful initializeTx, .successful (executeTx 0)],
      by decide, by decide⟩) (executeTx 0) _ _ _ _ (executeTx_form 0) (by decide)
    ⟨fun _ => rfl, fun _ => rfl⟩ (by decide +kernel)).mpr ⟨rfl, by decide +kernel⟩
  rw [hsum]
  decide +kernel

/-- **The law fails**: the fee of the execution itself is charged twice. -/
theorem execution_charged_twice : ¬ ∀ (codec : Codec) (gatewayProgramId pda : Pubkey)
    (rpc : Nat → Lookup) (tx : SolanaTransaction) (price limit execute close : ParsedIx),
    ExecuteForm codec gatewayProgramId pda tx price limit execute close →
    TxStatus.successful tx ∈ ((rpc 2).chainAt 0).history → Lookup.Works (rpc 2) →
    countedTotal codec gatewayProgramId pda ((rpc 2).chainAt 0) tx ≤ Saturating.MAX →
    computeTotalGas codec gatewayProgramId tx rpc =
      .ok (∑ t ∈ chargedSet codec gatewayProgramId pda ((rpc 2).chainAt 0) tx,
        t.costInLamports) := by
  intro hall
  have hsum := hall tagCodec (.filled 1) (.filled 7)
    (fun _ => .static ⟨[.successful initializeTx, .successful (executeTx 5000)],
      by decide, by decide⟩) (executeTx 5000) _ _ _ _ (executeTx_form 5000) (by decide)
    ⟨fun _ => rfl, fun _ => rfl⟩ (by decide +kernel)
  have htwice : computeTotalGas tagCodec (.filled 1) (executeTx 5000)
      (fun _ => .static ⟨[.successful initializeTx, .successful (executeTx 5000)],
        by decide, by decide⟩) = .ok 15000 := by decide +kernel
  rw [htwice] at hsum
  exact absurd hsum (by decide +kernel)

end AxelarRelayer.Proof
