import AxelarRelayer.Basic
import AxelarRelayer.Lib.Paging

/-!
# The chain and its two read methods

The confirmed transactions in chain order, oldest first. Signatures are unique
and slots never go down; both are fields, so a chain that breaks them cannot be
built. `getSignaturesForAddress` is a page request in the sense of
`AxelarRelayer.Lib.Paging`: newest first, both bounds exclusive and taken in the
order of the whole chain.
-/

namespace AxelarRelayer

/-- The confirmed transactions, oldest first. -/
structure Chain where
  history : List TxStatus
  /-- A signature names one transaction. -/
  distinct : (history.map TxStatus.signature).Nodup
  /-- Later transactions are in the same slot or a later one. -/
  slots : history.Pairwise (fun a b => a.tx.slot ≤ b.tx.slot)

namespace Chain

def empty : Chain := ⟨[], by simp, by simp⟩

/-- The chain only ever grows at its end. -/
instance : LE Chain := ⟨fun c d => c.history <+: d.history⟩

instance (c d : Chain) : Decidable (c ≤ d) :=
  inferInstanceAs (Decidable (c.history <+: d.history))

theorem le_refl (c : Chain) : c ≤ c := List.prefix_refl _

theorem le_trans {c d e : Chain} (h : c ≤ d) (h' : d ≤ e) : c ≤ e := List.IsPrefix.trans h h'

theorem mem_of_le {c d : Chain} (h : c ≤ d) {st : TxStatus} (hst : st ∈ c.history) :
    st ∈ d.history := List.IsPrefix.subset h hst

/-- Confirm one more transaction: its signature is new and its slot not in the past. -/
def confirm? (c : Chain) (st : TxStatus) : Option Chain :=
  if h : st.signature ∉ c.history.map TxStatus.signature ∧
      ∀ a ∈ c.history, a.tx.slot ≤ st.tx.slot then
    some {
      history := c.history ++ [st]
      distinct := by
        rw [List.map_append, List.nodup_append]
        refine ⟨c.distinct, by simp, ?_⟩
        intro a ha b hb hab
        simp only [List.map_cons, List.map_nil, List.mem_singleton] at hb
        exact h.1 (by rwa [← hb, ← hab])
      slots := by
        rw [List.pairwise_append]
        refine ⟨c.slots, by simp, ?_⟩
        intro a ha b hb
        rw [List.mem_singleton.mp hb]
        exact h.2 a ha }
  else none

theorem confirm?_history {c d : Chain} {st : TxStatus} (h : c.confirm? st = some d) :
    d.history = c.history ++ [st] := by
  unfold confirm? at h
  split at h
  · rw [← Option.some.inj h]
  · exact absurd h (by simp)

theorem confirm?_le {c d : Chain} {st : TxStatus} (h : c.confirm? st = some d) : c ≤ d := by
  change c.history <+: d.history
  rw [confirm?_history h]
  exact List.prefix_append _ _

theorem confirm?_fresh {c d : Chain} {st : TxStatus} (h : c.confirm? st = some d) :
    st.signature ∉ c.history.map TxStatus.signature := by
  unfold confirm? at h
  split at h
  · rename_i hc; exact hc.1
  · exact absurd h (by simp)

/-- Confirm what other parties send, one after the other; what is no longer valid is dropped. -/
def confirmAll (c : Chain) (sts : List TxStatus) : Chain :=
  sts.foldl (fun c st => (c.confirm? st).getD c) c

theorem le_confirmAll (c : Chain) (sts : List TxStatus) : c ≤ c.confirmAll sts := by
  induction sts generalizing c with
  | nil => exact c.le_refl
  | cons st sts ih =>
      rw [confirmAll, List.foldl_cons]
      refine le_trans ?_ (ih ((c.confirm? st).getD c))
      cases hc : c.confirm? st with
      | none => exact c.le_refl
      | some d => exact confirm?_le hc

/-! ## Chain order -/

/-- Where a signature stands in chain order. -/
def position (c : Chain) (sig : Signature) : Nat :=
  Paging.position TxStatus.signature c.history sig

/-- Strictly older than `before` (an absent bound is no bound). -/
def Older (c : Chain) (before : Option Signature) (st : TxStatus) : Prop :=
  Paging.Older TxStatus.signature c.history before st

/-- Strictly newer than `since`. -/
def Newer (c : Chain) (since : Option Signature) (st : TxStatus) : Prop :=
  Paging.Newer TxStatus.signature c.history since st

instance (c : Chain) (before : Option Signature) (st : TxStatus) : Decidable (c.Older before st) :=
  inferInstanceAs (Decidable (Paging.Older _ _ _ _))

instance (c : Chain) (since : Option Signature) (st : TxStatus) : Decidable (c.Newer since st) :=
  inferInstanceAs (Decidable (Paging.Newer _ _ _ _))

theorem mem_signatures {c : Chain} {st : TxStatus} (h : st ∈ c.history) :
    st.signature ∈ c.history.map TxStatus.signature := List.mem_map_of_mem h

theorem eq_of_signature_eq {c : Chain} {a b : TxStatus} (ha : a ∈ c.history) (hb : b ∈ c.history)
    (h : a.signature = b.signature) : a = b := Paging.eq_of_key_eq c.distinct ha hb h

theorem position_lt_length {c : Chain} {st : TxStatus} (hst : st ∈ c.history) :
    c.position st.signature < c.history.length := Paging.position_lt_length hst

/-- What is confirmed stands above everything confirmed before. -/
theorem length_le_position {c d : Chain} {st : TxStatus} (h : c.confirm? st = some d) :
    c.history.length ≤ d.position st.signature :=
  Paging.length_le_position (confirm?_le h) (confirm?_fresh h)

theorem position_inj {c : Chain} {st : TxStatus} {sig : Signature} (hst : st ∈ c.history)
    (h : c.position st.signature = c.position sig) : st.signature = sig :=
  Paging.position_inj hst h

theorem position_of_le {c d : Chain} {sig : Signature} (h : c ≤ d)
    (hs : sig ∈ c.history.map TxStatus.signature) : d.position sig = c.position sig :=
  Paging.position_grow h hs

theorem older_of_le {c d : Chain} {sig : Signature} {st : TxStatus} (h : c ≤ d)
    (hst : st ∈ c.history) (hs : sig ∈ c.history.map TxStatus.signature) :
    d.Older (some sig) st ↔ c.Older (some sig) st := Paging.older_grow h hst hs

/-- Earlier in the chain means no later slot. -/
theorem slot_le_of_position_le {c : Chain} {a b : TxStatus} (ha : a ∈ c.history)
    (hb : b ∈ c.history) (h : c.position a.signature ≤ c.position b.signature) :
    a.tx.slot ≤ b.tx.slot := by
  obtain ⟨i, hi, rfl⟩ := List.mem_iff_getElem.mp ha
  obtain ⟨j, hj, rfl⟩ := List.mem_iff_getElem.mp hb
  have hpos : ∀ n (hn : n < c.history.length), c.position (c.history[n]).signature = n := by
    intro n hn
    have := c.distinct.idxOf_getElem n (by simpa using hn)
    simpa [position, Paging.position] using this
  rw [hpos i hi, hpos j hj] at h
  rcases Nat.lt_or_eq_of_le h with hlt | rfl
  · exact List.pairwise_iff_getElem.mp c.slots i j hi hj hlt
  · exact Nat.le_refl _

/-! ## The RPC methods -/

/-- `getTransaction`: the confirmed transaction with this signature. -/
def status? (c : Chain) (sig : Signature) : Option TxStatus :=
  c.history.find? (fun st => st.signature = sig)

theorem status?_of_mem {c : Chain} {st : TxStatus} (h : st ∈ c.history) :
    c.status? st.signature = some st := by
  cases hf : c.status? st.signature with
  | none =>
      have := List.find?_eq_none.mp hf st h
      simp at this
  | some st' =>
      have hs : st'.signature = st.signature := by simpa using List.find?_some hf
      rw [eq_of_signature_eq (List.mem_of_find?_eq_some hf) h hs]

theorem mem_of_status? {c : Chain} {sig : Signature} {st : TxStatus} (h : c.status? sig = some st) :
    st ∈ c.history ∧ st.signature = sig :=
  ⟨List.mem_of_find?_eq_some h, by simpa using List.find?_some h⟩

/-- The entries of `address` strictly older than `before` and strictly newer than `since`. -/
def range (c : Chain) (address : Pubkey) (before since : Option Signature) : List TxStatus :=
  Paging.range TxStatus.signature c.history (TxStatus.mentions address) before since

theorem mem_range {c : Chain} {address : Pubkey} {before since : Option Signature}
    {st : TxStatus} : st ∈ c.range address before since ↔
      st ∈ c.history ∧ st.mentions address ∧ c.Older before st ∧ c.Newer since st :=
  Paging.mem_range

/-- `getSignaturesForAddress`: one page of a range, newest first. -/
def getSignaturesForAddress (c : Chain) (address : Pubkey) (before since : Option Signature)
    (limit : Nat) : List TxStatus :=
  Paging.page TxStatus.signature c.history (TxStatus.mentions address) before since limit

/-- The first entry of a page is the newest of its range. -/
theorem le_head_of_mem_range {c : Chain} {address : Pubkey} {before since : Option Signature}
    {limit : Nat} {st : TxStatus} (hlimit : 0 < limit) (hst : st ∈ c.range address before since) :
    ∃ first, (c.getSignaturesForAddress address before since limit).head? = some first ∧
      st.tx.slot ≤ first.tx.slot := by
  cases hf : (c.getSignaturesForAddress address before since limit).head? with
  | none =>
      have hnil := Paging.range_eq_nil hlimit (List.head?_eq_none_iff.mp hf)
      exact absurd (hnil ▸ hst : st ∈ ([] : List TxStatus)) List.not_mem_nil
  | some first =>
      have hmem := Paging.mem_range_of_mem_page (List.mem_of_head? hf)
      exact ⟨first, rfl, slot_le_of_position_le (mem_range.mp hst).1 (Paging.mem_range.mp hmem).1
        (Paging.position_le_head c.distinct hf hst)⟩

end Chain

end AxelarRelayer
