import AxelarRelayer.Gas.FetchSignatures

/-!
# The whole history of an address

Between two page requests the chain grows at its head, and the next page is taken
strictly below the last entry of the page before. What lies below an entry never changes,
so what was collected and what remains below the cursor are always, together, the
history as of the first request (`Walking.split`). A page that is not empty makes the rest
shorter, which bounds the number of passes.
-/

namespace AxelarRelayer.Proof

open AxelarRelayer Gas

variable {client : SignatureClient} {chainAt : Nat → Chain} {address : Pubkey} {limit : Nat}
  {s : FetchSignatures}

/-! ## The node -/

/-- `info` is how the client is told of a transaction. -/
def Names (client : SignatureClient) (info : SignatureInfo) (st : TxStatus) : Prop :=
  client.parse info.signature = .ok st.signature

/-- A node on a growing chain: whatever it answers is a page of the history of `address`. -/
structure Serves (client : SignatureClient) (chainAt : Nat → Chain) (address : Pubkey)
    (limit : Nat) : Prop where
  grows : ∀ n, chainAt n ≤ chainAt (n + 1)
  page : ∀ n before infos,
    (∀ sig ∈ before, sig ∈ (chainAt n).history.map TxStatus.signature) →
    client.getSignaturesForAddress n address before limit = .ok infos →
    ∃ shown, Paging.IsPage TxStatus.signature (chainAt n).history (TxStatus.mentions address)
      before none limit shown ∧ List.Forall₂ (Names client) infos shown

/-- The signatures of the transactions that list `address`, newest first, each of them once. -/
structure IsHistory (chain : Chain) (address : Pubkey) (signatures : List Signature) : Prop where
  complete : ∀ sig, sig ∈ signatures ↔
    ∃ st ∈ chain.history, st.mentions address = true ∧ st.signature = sig
  newestFirst : signatures.Pairwise fun a b => chain.position b < chain.position a
  nodup : signatures.Nodup

/-- What lies below `before`, newest first. -/
def below (chain : Chain) (address : Pubkey) (before : Option Signature) : List Signature :=
  (chain.range address before none).reverse.map TxStatus.signature

theorem below_isHistory (chain : Chain) (address : Pubkey) :
    IsHistory chain address (below chain address none) where
  complete := by
    intro sig
    simp only [below, List.mem_map, List.mem_reverse, Chain.mem_range]
    constructor
    · intro h
      obtain ⟨st, hst, rfl⟩ := h
      exact ⟨st, hst.1, hst.2.1, rfl⟩
    · intro h
      obtain ⟨st, hst, hmentions, rfl⟩ := h
      exact ⟨st, ⟨hst, hmentions, trivial, trivial⟩, rfl⟩
  newestFirst := List.pairwise_map.mpr
    (Paging.range_reverse_pairwise _ none none chain.distinct)
  nodup := by
    rw [below, List.map_reverse, List.nodup_reverse]
    exact (List.filter_sublist.map TxStatus.signature).nodup chain.distinct

/-! ## One pass -/

/-- What the client makes of a page. -/
theorem parsed_names {infos : List SignatureInfo} {shown : List TxStatus}
    (h : List.Forall₂ (Names client) infos shown) :
    infos.filterMap (fun info => (client.parse info.signature).toOption) =
      shown.map TxStatus.signature := by
  induction h with
  | nil => rfl
  | @cons info st infos shown hname _ ih =>
      rw [List.filterMap_cons_some (b := st.signature) (by rw [hname]; rfl), List.map_cons, ih]

/-- The last line of a page names the last transaction it shows. -/
theorem last_names {infos : List SignatureInfo} {shown : List TxStatus} {info : SignatureInfo}
    (h : List.Forall₂ (Names client) infos shown) (hlast : infos.getLast? = some info) :
    ∃ st, shown.getLast? = some st ∧ Names client info st := by
  have hreverse := List.forall₂_reverse_iff.mpr h
  rw [List.getLast?_eq_head?_reverse] at hlast ⊢
  generalize infos.reverse = infos' at hreverse hlast
  generalize shown.reverse = shown' at hreverse
  cases hreverse with
  | nil => cases hlast
  | @cons first st _ _ hname _ =>
      obtain rfl := Option.some.inj hlast
      exact ⟨st, rfl, hname⟩

/-- The call goes on, and what is collected and what remains are the whole history. -/
structure Walking (chainAt : Nat → Chain) (address : Pubkey) (s : FetchSignatures) : Prop where
  running : s.result = none
  /-- the cursor is a transaction of the chain -/
  known : ∀ sig ∈ s.beforeSig, sig ∈ (chainAt s.requests).history.map TxStatus.signature
  split : s.allSignatures ++ below (chainAt s.requests) address s.beforeSig =
    below (chainAt 0) address none

/-- How much is left. -/
def remaining (chainAt : Nat → Chain) (address : Pubkey) (s : FetchSignatures) : Nat :=
  (below (chainAt s.requests) address s.beforeSig).length

/-- The chain grows above an entry it shows; below it nothing changes. -/
theorem below_grow {c d : Chain} {sig : Signature} (h : c ≤ d)
    (hsig : sig ∈ c.history.map TxStatus.signature) :
    below d address (some sig) = below c address (some sig) := by
  rw [below, below, Chain.range, Chain.range, Paging.range_grow h d.distinct hsig]

/-- **One pass**: it shows a page and goes on, it shows that nothing is left, or it fails. -/
theorem walking_pass (hserves : Serves client chainAt address limit)
    (hwalk : Walking chainAt address s) :
    (Walking chainAt address (s.pass client address limit) ∧
      remaining chainAt address (s.pass client address limit) < remaining chainAt address s) ∨
    (s.pass client address limit).result = some (.ok (below (chainAt 0) address none)) ∨
    ∃ error, client.getSignaturesForAddress s.requests address s.beforeSig limit = .error error ∧
      (s.pass client address limit).result = some (.error error) := by
  have hsplit := hwalk.split
  rw [FetchSignatures.pass, hwalk.running]
  dsimp only
  cases hanswer : client.getSignaturesForAddress s.requests address s.beforeSig limit with
  | error error => exact Or.inr (Or.inr ⟨error, rfl, rfl⟩)
  | ok infos =>
      obtain ⟨shown, hpage, hnames⟩ := hserves.page _ _ _ hwalk.known hanswer
      dsimp only
      cases hlast : infos.getLast? with
      | none =>
          -- an empty page: nothing is left below the cursor
          obtain rfl := List.getLast?_eq_none_iff.mp hlast
          have hempty := hpage.empty (List.forall₂_nil_left_iff.mp hnames)
          have hbelow : below (chainAt s.requests) address s.beforeSig = [] := by
            rw [below, Chain.range, hempty]
            rfl
          rw [hbelow, List.append_nil] at hsplit
          refine Or.inr (Or.inl ?_)
          dsimp only
          rw [hsplit]
      | some info =>
          obtain ⟨last, hlastShown, hname⟩ := last_names hnames hlast
          rw [Names] at hname
          dsimp only
          rw [hname, parsed_names hnames]
          dsimp only
          -- the next page is served from a longer chain, below the same entry
          have hknown : last.signature ∈ (chainAt s.requests).history.map TxStatus.signature :=
            Chain.mem_signatures
              (Paging.mem_range.mp (hpage.mem_range (List.mem_of_getLast? hlastShown))).1
          have hgrow : below (chainAt (s.requests + 1)) address (some last.signature) =
              below (chainAt s.requests) address (some last.signature) :=
            below_grow (hserves.grows s.requests) hknown
          have hrest : below (chainAt s.requests) address s.beforeSig =
              shown.map TxStatus.signature ++
                below (chainAt (s.requests + 1)) address (some last.signature) := by
            rw [hgrow, below, below, ← List.map_append]
            exact congrArg _ (hpage.append_below_last (chainAt s.requests).distinct hlastShown).symm
          refine Or.inl ⟨⟨rfl, ?_, ?_⟩, ?_⟩
          · intro sig hsig
            obtain rfl := Option.some.inj hsig
            exact ((hserves.grows s.requests).map TxStatus.signature).subset hknown
          · dsimp only
            rw [List.append_assoc, ← hrest, hsplit]
          · have hpos := List.length_pos_of_mem (List.mem_of_getLast? hlastShown)
            have hlength := congrArg List.length hrest
            rw [List.length_append, List.length_map] at hlength
            rw [remaining, remaining, hlength]
            dsimp only
            omega

/-! ## The whole call -/

/-- Pass `n` makes a page request, and it fails with `error`. -/
def RequestFails (client : SignatureClient) (address : Pubkey) (limit n : Nat) (error : Report) :
    Prop :=
  (FetchSignatures.after client address limit n).result = none ∧
    client.getSignaturesForAddress (FetchSignatures.after client address limit n).requests address
      (FetchSignatures.after client address limit n).beforeSig limit = .error error

/-- How the call may end: with the error of a request, or with the whole history. -/
def Ends (client : SignatureClient) (chainAt : Nat → Chain) (address : Pubkey) (limit : Nat)
    (result : Except Report (List Signature)) : Prop :=
  (∃ n error, RequestFails client address limit n error ∧ result = .error error) ∨
    result = .ok (below (chainAt 0) address none)

theorem after_succ (client : SignatureClient) (address : Pubkey) (limit k : Nat) :
    FetchSignatures.after client address limit (k + 1) =
      (FetchSignatures.after client address limit k).pass client address limit :=
  Function.iterate_succ_apply' _ _ _

/-- A call that has returned stays as it is. -/
theorem pass_returned {result : Except Report (List Signature)} (h : s.result = some result) :
    s.pass client address limit = s := by
  rw [FetchSignatures.pass, h]

theorem result_stable {k m : Nat} {result : Except Report (List Signature)}
    (h : (FetchSignatures.after client address limit k).result = some result) (hkm : k ≤ m) :
    (FetchSignatures.after client address limit m).result = some result := by
  obtain ⟨d, rfl⟩ := Nat.exists_eq_add_of_le hkm
  rw [FetchSignatures.after] at h
  rw [FetchSignatures.after, Nat.add_comm, Function.iterate_add_apply,
    Function.iterate_fixed (pass_returned h)]
  exact h

/-- **The run**: every pass made so far has shown something, or the call has ended. -/
theorem after_passes (hserves : Serves client chainAt address limit) (k : Nat) :
    (Walking chainAt address (FetchSignatures.after client address limit k) ∧
      remaining chainAt address (FetchSignatures.after client address limit k) + k ≤
        (below (chainAt 0) address none).length) ∨
    ∃ result, (FetchSignatures.after client address limit k).result = some result ∧
      Ends client chainAt address limit result := by
  induction k with
  | zero =>
      exact Or.inl ⟨⟨rfl, fun sig hsig => absurd hsig (Option.not_mem_none sig), rfl⟩, Nat.le_refl _⟩
  | succ k ih =>
      rcases ih with ⟨hwalk, hleft⟩ | ⟨result, hresult, hends⟩
      · rw [after_succ]
        rcases walking_pass hserves hwalk with ⟨hnext, hless⟩ | hok | ⟨error, hfails, herror⟩
        · exact Or.inl ⟨hnext, by omega⟩
        · exact Or.inr ⟨_, hok, Or.inr rfl⟩
        · exact Or.inr ⟨_, herror, Or.inl ⟨k, error, ⟨hwalk.running, hfails⟩, rfl⟩⟩
      · exact Or.inr ⟨result, result_stable hresult (Nat.le_succ k), hends⟩

/-! ## Nodes that fill their pages -/

section Lookup

variable {lookup : Lookup} {text : Signature → String} {parse : String → Except Report Signature}

/-- The lines of a page name its transactions. -/
theorem names_client (page : List TxStatus)
    (hparse : ∀ st ∈ page, parse (text st.signature) = .ok st.signature) :
    List.Forall₂ (Names (lookup.client text parse))
      (page.map fun st => ⟨text st.signature⟩) page :=
  List.forall₂_map_left_iff.mpr (List.forall₂_same.mpr hparse)

/-- A node that fills its pages serves pages. -/
theorem serves_client (hlimit : 0 < limit)
    (hparse : ∀ n, ∀ st ∈ (lookup.chainAt n).history, parse (text st.signature) = .ok st.signature) :
    Serves (lookup.client text parse) lookup.chainAt address limit where
  grows := lookup.grows
  page := by
    intro n before infos _ hinfos
    rw [Lookup.client] at hinfos
    dsimp only at hinfos
    split at hinfos
    · cases hinfos
    · obtain rfl := Except.ok.inj hinfos
      refine ⟨_, Paging.page_isPage hlimit, names_client _ fun st hst => ?_⟩
      exact hparse n st (Paging.mem_range.mp (Paging.mem_range_of_mem_page hst)).1

/-- One pass against such a node. -/
theorem pass_client (hparse : ∀ sig, parse (text sig) = .ok sig) (n : Nat)
    (before : Option Signature) (collected : List Signature) :
    FetchSignatures.pass (lookup.client text parse) address limit ⟨collected, before, n, none⟩ =
      if lookup.pageFails n then ⟨collected, before, n + 1,
        some (.error (.msg "getSignaturesForAddress failed"))⟩
      else
        let page := (lookup.chainAt n).getSignaturesForAddress address before none limit
        match page.getLast? with
        | none => ⟨collected, before, n + 1, some (.ok collected)⟩
        | some last =>
            ⟨collected ++ page.map TxStatus.signature, some last.signature, n + 1, none⟩ := by
  rw [FetchSignatures.pass, Lookup.client]
  dsimp only
  by_cases hfail : lookup.pageFails n = true
  · rw [if_pos hfail, if_pos hfail]
  rw [if_neg hfail, if_neg hfail]
  dsimp only
  -- from here on only the page matters
  generalize (lookup.chainAt n).getSignaturesForAddress address before none limit = page
  have hnames : List.Forall₂ (Names (lookup.client text parse)) _ page :=
    names_client page fun st _ => hparse st.signature
  rw [List.getLast?_map]
  cases hlast : page.getLast? with
  | none => rfl
  | some last =>
      dsimp only [Option.map_some]
      rw [hparse]
      dsimp only
      exact congrArg (fun sigs => FetchSignatures.mk (collected ++ sigs) _ _ _) (parsed_names hnames)

/-- From any point, the passes collect what `fetchSignaturesFrom` returns. -/
theorem passes_eq_fetchSignaturesFrom (hparse : ∀ sig, parse (text sig) = .ok sig) (fuel n : Nat)
    (before : Option Signature) (collected : List Signature) :
    ((FetchSignatures.pass (lookup.client text parse) address PAGE_LIMIT)^[fuel]
      ⟨collected, before, n, none⟩).result =
      (fetchSignaturesFrom lookup address fuel n before).map
        fun result => result.map (collected ++ ·) := by
  induction fuel generalizing n before collected with
  | zero => rfl
  | succ fuel ih =>
      rw [Function.iterate_succ_apply, fetchSignaturesFrom, pass_client hparse]
      dsimp only
      by_cases hfail : lookup.pageFails n = true
      · rw [if_pos hfail, if_pos hfail, Function.iterate_fixed (pass_returned rfl)]
        rfl
      rw [if_neg hfail, if_neg hfail]
      cases hlast : ((lookup.chainAt n).getSignaturesForAddress address before none
          PAGE_LIMIT).getLast? with
      | none =>
          dsimp only
          -- an empty page
          rw [Function.iterate_fixed (pass_returned rfl)]
          simp only [Option.map_some, Except.map, List.append_nil]
      | some last =>
          dsimp only
          -- what is collected goes in front of what the rest returns
          rw [ih, Option.map_map]
          refine congrArg (fun f => Option.map f _) (funext fun result => ?_)
          cases result with
          | error error => rfl
          | ok rest => exact congrArg Except.ok (List.append_assoc _ _ _)

/-- `fetchSignatures` is this loop, at the page limit and with text that can be read back. -/
theorem fetchSignatures_eq_after (hparse : ∀ sig, parse (text sig) = .ok sig) :
    fetchSignatures lookup address =
      (FetchSignatures.after (lookup.client text parse) address PAGE_LIMIT lookup.fuel).result := by
  rw [FetchSignatures.after, FetchSignatures.start, passes_eq_fetchSignaturesFrom hparse,
    fetchSignatures]
  cases fetchSignaturesFrom lookup address lookup.fuel 0 none with
  | none => rfl
  | some result => cases result <;> rfl

end Lookup

/-! ## Completeness -/

/--
**The lookup is complete under growth.** Against any node that serves pages of a growing
chain the loop ends, at the latest behind one pass for every transaction of the first
chain and one more. It returns the history of the address as of the first request, newest
first and without duplicates, unless a page request it makes fails.
-/
theorem history_complete (client : SignatureClient) (chainAt : Nat → Chain) (address : Pubkey)
    (limit : Nat) (hserves : Serves client chainAt address limit) :
    ∃ result, (∀ k, (chainAt 0).history.length < k →
        (FetchSignatures.after client address limit k).result = some result) ∧
      ((∃ n error, RequestFails client address limit n error ∧ result = .error error) ∨
        ∃ signatures, result = .ok signatures ∧ IsHistory (chainAt 0) address signatures) := by
  have hlength : (below (chainAt 0) address none).length ≤ (chainAt 0).history.length := by
    rw [below, List.length_map, List.length_reverse]
    exact List.length_filter_le _ _
  rcases after_passes hserves ((chainAt 0).history.length + 1) with
    ⟨-, hleft⟩ | ⟨result, hresult, hends⟩
  · exact absurd hleft (by omega)
  · refine ⟨result, fun k hk => result_stable hresult hk, ?_⟩
    rcases hends with hfails | hok
    · exact Or.inl hfails
    · exact Or.inr ⟨_, hok, below_isHistory (chainAt 0) address⟩

/-- Two transactions of key 9; a third one is confirmed behind the first page request. -/
def growingLookup : Lookup where
  chainAt n :=
    let chain := Chain.empty.confirmAll [.successful (.bare (.filled 1) [.filled 9] 1),
      .successful (.bare (.filled 2) [.filled 9] 2)]
    if n = 0 then chain else chain.confirmAll [.successful (.bare (.filled 3) [.filled 9] 3)]
  grows n := by
    rw [if_neg (Nat.succ_ne_zero n)]
    split
    · exact Chain.le_confirmAll _ _
    · exact Chain.le_refl _
  pageFails _ := false
  fetchFails _ := false
  completion sigs := sigs
  completes sigs := List.Perm.refl sigs

/-- Three signatures in base 58. -/
def base58Table : List (Signature × String) :=
  [(.filled 1,
      "2AXDGYSE4f2sz7tvMMzyHvUfcoJmxudvdhBcmiUSo6ijwfYmfZYsKRxboQMPh3R4kUhXRVdtSXFXMheka4Rc4P2"),
    (.filled 2,
      "3L3RY5sT8K4kyEnqhizwaqxLEbcYvpGrGPNEYRwtbCSUtL6YL86jdrvCbohnP5q8VxQ3qzGmt3W3iQJW97rD7m3"),
    (.filled 3,
      "4VZdodJgBy6dxMgm45zusmRzrPvKtiumu5YrK9RLPJADpzeJzgebxHsoQD4B58FCFS6aGUufKZka56xFiBGpB94")]

def base58Text (sig : Signature) : String :=
  ((base58Table.find? fun entry => entry.1 = sig).map Prod.snd).getD ""

def parseBase58 (text : String) : Except Report Signature :=
  match base58Table.find? fun entry => entry.2 = text with
  | some entry => .ok entry.1
  | none => .error (.msg "failed to decode string to signature")

/-- One by one, the first two signatures are found; the third one came too late. -/
theorem growing_complete :
    (FetchSignatures.after (growingLookup.client base58Text parseBase58) (.filled 9) 1 3).result =
      some (.ok [.filled 2, .filled 1]) ∧
    ∃ result, (∀ k, (growingLookup.chainAt 0).history.length < k →
        (FetchSignatures.after (growingLookup.client base58Text parseBase58) (.filled 9) 1 k).result =
          some result) ∧
      ((∃ n error, RequestFails (growingLookup.client base58Text parseBase58) (.filled 9) 1 n error ∧
          result = .error error) ∨
        ∃ signatures, result = .ok signatures ∧
          IsHistory (growingLookup.chainAt 0) (.filled 9) signatures) := by
  have hparse : ∀ n, ∀ st ∈ (growingLookup.chainAt n).history,
      parseBase58 (base58Text st.signature) = .ok st.signature := by
    intro n
    cases n with
    | zero => decide +kernel
    | succ n =>
      change ∀ st ∈ (growingLookup.chainAt 1).history, _
      decide +kernel
  refine ⟨by decide +kernel, ?_⟩
  exact history_complete (growingLookup.client base58Text parseBase58) growingLookup.chainAt
    (.filled 9) 1 (serves_client (by decide) hparse)

end AxelarRelayer.Proof
