import Mathlib.Data.List.Basic
import Mathlib.Data.List.Nodup

/-!
# Newest-first pages of an append-only history

A history is a list of entries, oldest first, each with a key of its own. A
server answers a *page request* with the entries that satisfy a filter, lie
strictly below one key and strictly above another, newest first and at most
`limit` of them.

Two facts carry every walk over such a history. `page_cover`: an entry of the
range is on the page, or the page is full and the entry is older than the last
entry it shows. `position_grow`: the position of an entry never changes once
the history holds it, so a walk that goes downwards is not disturbed by entries
appended above it.
-/

namespace Paging

variable {α κ : Type} [DecidableEq κ] (key : α → κ)

/-- Where `k` stands, counted from the oldest entry; past the end when it is absent. -/
def position (h : List α) (k : κ) : Nat := (h.map key).idxOf k

/-- `a` lies strictly below the entry keyed `before`; nothing lies below an unknown one. -/
def Older (h : List α) (before : Option κ) (a : α) : Prop :=
  match before with
  | none => True
  | some b => b ∈ h.map key ∧ position key h (key a) < position key h b

/-- `a` lies strictly above the entry keyed `since`; an unknown one bounds nothing. -/
def Newer (h : List α) (since : Option κ) (a : α) : Prop :=
  match since with
  | none => True
  | some u => u ∈ h.map key → position key h u < position key h (key a)

instance (h : List α) (before : Option κ) (a : α) : Decidable (Older key h before a) := by
  unfold Older; cases before <;> infer_instance

instance (h : List α) (since : Option κ) (a : α) : Decidable (Newer key h since a) := by
  unfold Newer; cases since <;> infer_instance

/-- The entries of a range, oldest first. -/
def range (h : List α) (p : α → Bool) (before since : Option κ) : List α :=
  h.filter fun a => p a && decide (Older key h before a) && decide (Newer key h since a)

/-- One page of a range: newest first, at most `limit` entries. -/
def page (h : List α) (p : α → Bool) (before since : Option κ) (limit : Nat) : List α :=
  (range key h p before since).reverse.take limit

variable {key} {h h' : List α} {p : α → Bool} {before since : Option κ} {limit : Nat} {a b : α}

/-! ## Positions -/

omit [DecidableEq κ] in
/-- The history says which entry a key names. -/
theorem eq_of_key_eq (hnd : (h.map key).Nodup) (ha : a ∈ h) (hb : b ∈ h)
    (hk : key a = key b) : a = b :=
  List.inj_on_of_nodup_map hnd ha hb hk

theorem position_inj {k : κ} (ha : a ∈ h) (hpos : position key h (key a) = position key h k) :
    key a = k :=
  (List.idxOf_inj (List.mem_map_of_mem ha)).mp hpos

theorem position_lt_length (ha : a ∈ h) : position key h (key a) < h.length := by
  have := List.idxOf_lt_length_of_mem (List.mem_map_of_mem (f := key) ha)
  simpa [position] using this

/-- Appending entries leaves every known position where it was. -/
theorem position_grow {k : κ} (hpre : h <+: h') (hk : k ∈ h.map key) :
    position key h' k = position key h k :=
  ((hpre.map key).idxOf_eq_of_mem hk).symm

/-- What was appended stands above everything that was there. -/
theorem length_le_position (hpre : h <+: h') (ha : key a ∉ h.map key) :
    h.length ≤ position key h' (key a) := by
  have hle := (hpre.map key).idxOf_le (key a)
  rw [List.idxOf_of_notMem ha, List.length_map] at hle
  exact hle

/-- An entry below a known one was there when that one was. -/
theorem mem_of_position_lt {k : κ} (hnd : (h'.map key).Nodup) (hpre : h <+: h') (ha : a ∈ h')
    (hk : k ∈ h.map key) (hlt : position key h' (key a) ≤ position key h' k) : a ∈ h := by
  have hkey : key a ∈ h.map key := by
    by_contra hout
    have h1 := length_le_position hpre hout
    have h2 : position key h k < h.length := by
      simpa [position] using List.idxOf_lt_length_of_mem hk
    rw [position_grow hpre hk] at hlt
    omega
  obtain ⟨b, hb, hkb⟩ := List.mem_map.mp hkey
  rwa [← eq_of_key_eq hnd (hpre.subset hb) ha hkb]

/-- Entries of a history are listed in the order of their positions. -/
theorem pairwise_position (hnd : (h.map key).Nodup) :
    h.Pairwise (fun a b => position key h (key a) < position key h (key b)) := by
  rw [List.pairwise_iff_getElem]
  intro i j hi hj hij
  have hpos : ∀ n (hn : n < h.length), position key h (key h[n]) = n := by
    intro n hn
    have := hnd.idxOf_getElem n (by simpa using hn)
    simpa [position] using this
  rw [hpos i hi, hpos j hj]
  exact hij

theorem older_grow {k : κ} (hpre : h <+: h') (ha : a ∈ h) (hk : k ∈ h.map key) :
    Older key h' (some k) a ↔ Older key h (some k) a := by
  have hk' : k ∈ h'.map key := (hpre.map key).subset hk
  simp only [Older, hk, hk', true_and, position_grow hpre hk,
    position_grow hpre (List.mem_map_of_mem ha)]

/-- Appending entries does not change what lies below a known one. -/
theorem range_grow {k : κ} (hpre : h <+: h') (hnd : (h'.map key).Nodup) (hk : k ∈ h.map key) :
    range key h' p (some k) none = range key h p (some k) none := by
  obtain ⟨new, rfl⟩ := hpre
  -- what is new lies above `k`, so it is not older
  have hnone : new.filter (fun a => p a && decide (Older key (h ++ new) (some k) a) &&
      decide (Newer key (h ++ new) none a)) = [] := by
    rw [List.filter_eq_nil_iff]
    intro a ha hall
    have holder : Older key (h ++ new) (some k) a := by
      simp only [Bool.and_eq_true, decide_eq_true_eq] at hall
      exact hall.1.2
    have hin := mem_of_position_lt hnd (List.prefix_append h new) (List.mem_append_right _ ha) hk
      (Nat.le_of_lt holder.2)
    rw [List.map_append, List.nodup_append] at hnd
    exact hnd.2.2 _ (List.mem_map_of_mem hin) _ (List.mem_map_of_mem ha) rfl
  rw [range, List.filter_append, hnone, List.append_nil, range]
  refine List.filter_congr fun a ha => ?_
  have := older_grow (List.prefix_append h new) ha hk
  simp only [this, Newer]

/-- A bound that was known keeps its meaning as the history grows. -/
theorem newer_grow {k : κ} (hpre : h <+: h') (ha : a ∈ h) (hk : k ∈ h.map key) :
    Newer key h' (some k) a ↔ Newer key h (some k) a := by
  have hk' : k ∈ h'.map key := (hpre.map key).subset hk
  simp only [Newer, hk, hk', true_implies, position_grow hpre hk,
    position_grow hpre (List.mem_map_of_mem ha)]

/-! ## Pages -/

theorem mem_range :
    a ∈ range key h p before since ↔ a ∈ h ∧ p a ∧ Older key h before a ∧ Newer key h since a := by
  simp [range, and_assoc]

/-- A page shows nothing from outside its range. -/
theorem mem_range_of_mem_page (ha : a ∈ page key h p before since limit) :
    a ∈ range key h p before since :=
  List.mem_reverse.mp (List.mem_of_mem_take ha)

variable (p before since) in
theorem range_reverse_pairwise (hnd : (h.map key).Nodup) :
    (range key h p before since).reverse.Pairwise
      (fun a b => position key h (key b) < position key h (key a)) :=
  List.pairwise_reverse.mpr ((pairwise_position hnd).filter _)

/-- A page shows nothing twice. -/
theorem page_nodup (hnd : (h.map key).Nodup) :
    ((page key h p before since limit).map key).Nodup := by
  have hsub : (page key h p before since limit).Sublist h.reverse :=
    (List.take_sublist _ _).trans (List.reverse_sublist.mpr List.filter_sublist)
  refine List.Nodup.sublist (hsub.map key) ?_
  rw [List.map_reverse]
  exact List.nodup_reverse.mpr hnd

/-- Numbers below a bound that go down take up that much room below it. -/
theorem getLast?_add_length_le {l : List Nat} {bound last : Nat}
    (hdown : l.Pairwise fun a b => b < a) (hbound : ∀ a, a ∈ l → a < bound)
    (hlast : l.getLast? = some last) : last + l.length ≤ bound := by
  induction l generalizing bound with
  | nil => cases hlast
  | cons a l ih =>
      have ha := hbound a List.mem_cons_self
      cases l with
      | nil =>
          obtain rfl := Option.some.inj hlast
          exact ha
      | cons b l =>
          have hle := ih hdown.of_cons (fun c hc => List.rel_of_pairwise_cons hdown hc) hlast
          simp only [List.length_cons] at hle ⊢
          omega

/-- A page reaches down by as many positions as it has entries. -/
theorem position_last_add_length_le (hnd : (h.map key).Nodup) {last : α} {bound : Nat}
    (hlast : (page key h p before since limit).getLast? = some last)
    (hbound : ∀ a, a ∈ page key h p before since limit → position key h (key a) < bound) :
    position key h (key last) + (page key h p before since limit).length ≤ bound := by
  have hdown : (page key h p before since limit).Pairwise fun a b =>
      position key h (key b) < position key h (key a) :=
    (range_reverse_pairwise p before since hnd).sublist (List.take_sublist _ _)
  have hmap := getLast?_add_length_le (List.pairwise_map.mpr hdown)
    (fun n hn => by
      obtain ⟨a, ha, rfl⟩ := List.mem_map.mp hn
      exact hbound a ha)
    (by rw [List.getLast?_map, hlast]; rfl)
  rw [List.length_map] at hmap
  exact hmap

/-- What a page shows is not below the last entry it shows. -/
theorem not_older_last (hnd : (h.map key).Nodup) {last : α}
    (hlast : (page key h p before since limit).getLast? = some last)
    (ha : a ∈ page key h p before since limit) : ¬ Older key h (some (key last)) a := by
  intro hold
  have hdown : (page key h p before since limit).Pairwise fun a b =>
      position key h (key b) < position key h (key a) :=
    (range_reverse_pairwise p before since hnd).sublist (List.take_sublist _ _)
  obtain ⟨init, hinit⟩ := List.getLast?_eq_some_iff.mp hlast
  have hpos := hold.2
  rw [hinit] at ha hdown
  rcases List.mem_append.mp ha with hin | hin
  · have := (List.pairwise_append.mp hdown).2.2 a hin last (List.mem_singleton_self _)
    omega
  · rw [List.mem_singleton.mp hin] at hpos
    omega

/-- **A short page is the whole range.** -/
theorem mem_page_of_short (hshort : (page key h p before since limit).length < limit)
    (ha : a ∈ range key h p before since) : a ∈ page key h p before since limit := by
  have hlen : (range key h p before since).reverse.length ≤ limit := by
    rw [page, List.length_take] at hshort
    omega
  rw [page, List.take_of_length_le hlen]
  exact List.mem_reverse.mpr ha

/-- **An entry of the range is on the page or below its last entry.** -/
theorem page_cover (hnd : (h.map key).Nodup) {last : α}
    (hlast : (page key h p before since limit).getLast? = some last)
    (ha : a ∈ range key h p before since) :
    a ∈ page key h p before since limit ∨ Older key h (some (key last)) a := by
  have hsplit := List.take_append_drop limit (range key h p before since).reverse
  have hpw := range_reverse_pairwise p before since hnd
  rw [← hsplit, List.pairwise_append] at hpw
  have hmem : a ∈ (range key h p before since).reverse := List.mem_reverse.mpr ha
  rw [← hsplit] at hmem
  rcases List.mem_append.mp hmem with hin | hout
  · exact Or.inl hin
  · have hl : last ∈ page key h p before since limit := List.mem_of_getLast? hlast
    have hlh : last ∈ h := (mem_range.mp (mem_range_of_mem_page hl)).1
    exact Or.inr ⟨List.mem_map_of_mem hlh, hpw.2.2 last hl a hout⟩

/-- **A full walk**: below the last entry of a page comes what the page left out. -/
theorem range_below_last (hnd : (h.map key).Nodup) {last : α}
    (hlast : (page key h p before since limit).getLast? = some last) :
    (range key h p (some (key last)) since).reverse =
      (range key h p before since).reverse.drop limit := by
  have hl : last ∈ range key h p before since :=
    mem_range_of_mem_page (List.mem_of_getLast? hlast)
  obtain ⟨hlh, _, hlold, _⟩ := mem_range.mp hl
  -- below `last` is below the old bound too
  have hfilter : range key h p (some (key last)) since =
      (range key h p before since).filter fun a => decide (Older key h (some (key last)) a) := by
    rw [range, range, List.filter_filter]
    refine List.filter_congr fun a _ => ?_
    have himp : Older key h (some (key last)) a → Older key h before a := by
      intro ha
      cases before with
      | none => trivial
      | some b => exact ⟨hlold.1, Nat.lt_trans ha.2 hlold.2⟩
    rw [Bool.eq_iff_iff]
    simp only [Bool.and_eq_true, decide_eq_true_eq]
    tauto
  have hpw := range_reverse_pairwise p before since hnd
  rw [← List.take_append_drop limit (range key h p before since).reverse,
    List.pairwise_append] at hpw
  have hlastKey : key last ∈ h.map key := List.mem_map_of_mem hlh
  -- nothing on the page is below its last entry, everything after it is
  have hpage : ((range key h p before since).reverse.take limit).filter
      (fun a => decide (Older key h (some (key last)) a)) = [] := by
    rw [List.filter_eq_nil_iff]
    intro a ha hold
    obtain ⟨init, hinit⟩ := List.getLast?_eq_some_iff.mp hlast
    have hpos : position key h (key a) < position key h (key last) := (of_decide_eq_true hold).2
    have hpwPage := hpw.1
    change (page key h p before since limit).Pairwise _ at hpwPage
    change a ∈ page key h p before since limit at ha
    rw [hinit] at ha hpwPage
    rcases List.mem_append.mp ha with hin | hin
    · have := (List.pairwise_append.mp hpwPage).2.2 a hin last (List.mem_singleton_self _)
      omega
    · rw [List.mem_singleton.mp hin] at hpos
      omega
  have hrest : ((range key h p before since).reverse.drop limit).filter
      (fun a => decide (Older key h (some (key last)) a)) =
        (range key h p before since).reverse.drop limit := by
    rw [List.filter_eq_self]
    intro a ha
    exact decide_eq_true ⟨hlastKey, hpw.2.2 last (List.mem_of_getLast? hlast) a ha⟩
  calc (range key h p (some (key last)) since).reverse
      = (range key h p before since).reverse.filter
          (fun a => decide (Older key h (some (key last)) a)) := by
        rw [hfilter, List.filter_reverse]
    _ = ((range key h p before since).reverse.take limit ++
          (range key h p before since).reverse.drop limit).filter
          (fun a => decide (Older key h (some (key last)) a)) := by rw [List.take_append_drop]
    _ = (range key h p before since).reverse.drop limit := by
        rw [List.filter_append, hpage, hrest, List.nil_append]

/-- A short page is the whole range, newest first. -/
theorem reverse_range_eq_page (hshort : (page key h p before since limit).length < limit) :
    (range key h p before since).reverse = page key h p before since limit := by
  rw [page, List.length_take] at hshort
  rw [page, List.take_of_length_le (by omega)]

/-- Nothing in the range stands above the first entry of its page. -/
theorem position_le_head (hnd : (h.map key).Nodup) {first : α}
    (hfirst : (page key h p before since limit).head? = some first)
    (ha : a ∈ range key h p before since) :
    position key h (key a) ≤ position key h (key first) := by
  have hpw := range_reverse_pairwise p before since hnd
  have hmem : a ∈ (range key h p before since).reverse := List.mem_reverse.mpr ha
  cases hr : (range key h p before since).reverse with
  | nil => rw [hr] at hmem; exact absurd hmem List.not_mem_nil
  | cons x xs =>
      have hx : x = first := by
        cases limit with
        | zero => simp [page] at hfirst
        | succ n => simpa [page, hr] using hfirst
      rw [hr] at hmem hpw
      rcases List.mem_cons.mp hmem with rfl | hin
      · exact Nat.le_of_eq (by rw [hx])
      · rw [← hx]
        exact Nat.le_of_lt ((List.pairwise_cons.mp hpw).1 a hin)

/-- The empty page of a positive limit means an empty range. -/
theorem range_eq_nil (hlimit : 0 < limit) (hnil : page key h p before since limit = []) :
    range key h p before since = [] := by
  rw [List.eq_nil_iff_forall_not_mem]
  intro a ha
  have := mem_page_of_short (by rw [hnil]; exact hlimit) ha
  rw [hnil] at this
  exact absurd this List.not_mem_nil

/-! ## Pages that may be short -/

/-- What a server may show of a range when it need not fill its pages. -/
structure IsPage (key : α → κ) (h : List α) (p : α → Bool) (before since : Option κ) (limit : Nat)
    (shown : List α) : Prop where
  /-- the newest entries of the range, newest first -/
  newest : shown <+: (range key h p before since).reverse
  length_le : shown.length ≤ limit
  /-- empty only when nothing is left -/
  empty : shown = [] → range key h p before since = []

theorem page_isPage (hlimit : 0 < limit) :
    IsPage key h p before since limit (page key h p before since limit) where
  newest := List.take_prefix _ _
  length_le := List.length_take_le _ _
  empty := range_eq_nil hlimit

theorem IsPage.mem_range {shown : List α} (hpage : IsPage key h p before since limit shown)
    (ha : a ∈ shown) : a ∈ range key h p before since :=
  List.mem_reverse.mp (hpage.newest.subset ha)

/-- Below the last entry shown comes what was not shown. -/
theorem IsPage.append_below_last {shown : List α} (hpage : IsPage key h p before since limit shown)
    (hnd : (h.map key).Nodup) {last : α} (hlast : shown.getLast? = some last) :
    shown ++ (range key h p (some (key last)) since).reverse =
      (range key h p before since).reverse := by
  have hshown : shown = page key h p before since shown.length :=
    List.prefix_iff_eq_take.mp hpage.newest
  have hbelow := range_below_last hnd ((congrArg List.getLast? hshown).symm.trans hlast)
  obtain ⟨rest, hrest⟩ := hpage.newest
  rw [hbelow, ← hrest, List.drop_left]

/-! ## Working through several ranges -/

/--
One page is taken off the first of several ranges, all of them newest first. A short
page is the last of its range.
-/
inductive Advances (limit : Nat) : List (List α) → List (List α) → List α → Prop where
  | last {page : List α} {rest : List (List α)} : page.length < limit →
      Advances limit (page :: rest) rest page
  | more {entries : List α} {rest : List (List α)} : entries.take limit ≠ [] →
      Advances limit (entries :: rest) (entries.drop limit :: rest) (entries.take limit)

/-- Nothing is lost or repeated between a page and what is left. -/
theorem Advances.flatten {limit : Nat} {l l' : List (List α)} {page : List α}
    (h : Advances limit l l' page) : l.flatten = page ++ l'.flatten := by
  cases h with
  | last => rw [List.flatten_cons]
  | more => rw [List.flatten_cons, List.flatten_cons, ← List.append_assoc, List.take_append_drop]

/-- The first entry of every page of a range. -/
def pageHeads (limit : Nat) : List α → List α
  | [] => []
  | a :: l => a :: pageHeads limit (l.drop (limit - 1))
termination_by l => l.length
decreasing_by
  rw [List.length_drop, List.length_cons]
  omega

theorem pageHeads_nil (limit : Nat) : pageHeads limit ([] : List α) = [] := by
  rw [pageHeads]

theorem pageHeads_eq {limit : Nat} (hlimit : 0 < limit) (l : List α) :
    pageHeads limit l = l.head?.toList ++ pageHeads limit (l.drop limit) := by
  cases l with
  | nil => rw [List.drop_nil, pageHeads_nil]; rfl
  | cons a l =>
      obtain ⟨n, rfl⟩ := Nat.exists_eq_add_of_lt hlimit
      rw [pageHeads, List.head?_cons, Nat.zero_add, List.drop_succ_cons, Nat.add_sub_cancel]
      rfl

/-- The heads still to come lose the head of the page. -/
theorem Advances.heads {limit : Nat} {l l' : List (List α)} {page : List α}
    (h : Advances limit l l' page) :
    l.flatMap (pageHeads limit) = page.head?.toList ++ l'.flatMap (pageHeads limit) := by
  cases h with
  | last hshort =>
      rw [List.flatMap_cons, pageHeads_eq (Nat.lt_of_le_of_lt (Nat.zero_le _) hshort),
        List.drop_of_length_le (Nat.le_of_lt hshort), pageHeads_nil, List.append_nil]
  | @more entries rest hne =>
      have hlimit : 0 < limit := by
        rcases Nat.eq_zero_or_pos limit with rfl | hpos
        · exact absurd List.take_zero hne
        · exact hpos
      have hhead : (entries.take limit).head? = entries.head? := by
        rw [List.head?_take, if_neg (Nat.ne_of_gt hlimit)]
      rw [List.flatMap_cons, List.flatMap_cons, pageHeads_eq hlimit, hhead, List.append_assoc]

theorem pageHeads_sublist {limit : Nat} (l : List α) : (pageHeads limit l).Sublist l := by
  fun_induction pageHeads limit l with
  | case1 => exact List.Sublist.refl _
  | case2 a l ih => exact (ih.trans (List.drop_sublist _ _)).cons_cons a

end Paging
