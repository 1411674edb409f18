import Mathlib.Data.List.Nodup
import Mathlib.Data.List.Perm.Basic

/-!
# A fair semaphore

A counter of free permits and a queue of callers, first in, first out. A permit that
comes back goes to the head of the queue and reaches the counter only when nobody
waits. Who holds a permit is part of the state: a permit is a value its holder gives
back exactly once.

`Sound` is what the operations keep: no permit is lost or made up, none is free while
somebody waits, and nobody is in two places. `Served` is the order: a caller moves up
by one place with every permit that comes back, whoever else arrives or gives up.
-/

namespace Fair

variable {ι : Type}

structure Semaphore (ι : Type) where
  permits : Nat
  waiting : List ι
  holding : List ι

namespace Semaphore

variable {s : Semaphore ι} {i j : ι} {max : Nat}

def new (permits : Nat) : Semaphore ι := ⟨permits, [], []⟩

/-- A free permit is taken at once; without one the caller joins the queue. -/
def acquire (s : Semaphore ι) (i : ι) : Semaphore ι :=
  match s.permits with
  | 0 => { s with waiting := s.waiting ++ [i] }
  | n + 1 => { s with permits := n, holding := i :: s.holding }

/-- A permit nobody holds: for the first in the queue, or for the counter. -/
def addPermit (s : Semaphore ι) : Semaphore ι :=
  match s.waiting with
  | [] => { s with permits := s.permits + 1 }
  | j :: rest => { s with waiting := rest, holding := j :: s.holding }

/-- `i` gives its permit back. -/
def release [DecidableEq ι] (s : Semaphore ι) (i : ι) : Semaphore ι :=
  addPermit { s with holding := s.holding.erase i }

/-- `i` gives up: out of the queue, or with a permit that it has not used. -/
def leave [DecidableEq ι] (s : Semaphore ι) (i : ι) : Semaphore ι :=
  if i ∈ s.holding then s.release i else { s with waiting := s.waiting.erase i }

/-- Everybody the semaphore knows. -/
def members (s : Semaphore ι) : List ι := s.waiting ++ s.holding

/-! ## No permit is lost, made up or idle -/

structure Sound (max : Nat) (s : Semaphore ι) : Prop where
  balanced : s.permits + s.holding.length = max
  busy : s.waiting ≠ [] → s.permits = 0
  apart : s.members.Nodup

theorem sound_new (max : Nat) : Sound max (new max : Semaphore ι) :=
  ⟨rfl, fun h => absurd rfl h, List.nodup_nil⟩

/-- The queue and the holders after `acquire`, as one list: the caller is added to it. -/
theorem members_acquire : (s.acquire i).members.Perm (i :: s.members) := by
  unfold acquire members
  split
  · rw [List.append_assoc, List.singleton_append]
    exact List.perm_middle
  · exact List.perm_middle

/-- A permit that comes back moves somebody from the queue to the holders, or nobody. -/
theorem members_addPermit : s.addPermit.members.Perm s.members := by
  unfold addPermit members
  split
  · rename_i hempty
    rw [hempty]
  · rename_i j rest hqueue
    rw [hqueue]
    exact List.perm_middle

theorem sound_acquire (h : Sound max s) (hfresh : i ∉ s.members) : Sound max (s.acquire i) := by
  have hapart : (s.acquire i).members.Nodup :=
    members_acquire.nodup_iff.mpr (List.nodup_cons.mpr ⟨hfresh, h.apart⟩)
  unfold acquire at hapart ⊢
  split at hapart
  · rename_i hnone
    rw [hnone]
    exact ⟨hnone ▸ h.balanced, fun _ => rfl, hapart⟩
  · rename_i n hsome
    refine ⟨?_, ?_, hapart⟩
    · have hbalanced := h.balanced
      simp only [List.length_cons]
      omega
    · intro hqueue
      have hzero := h.busy hqueue
      omega

/-- What `addPermit` is called on: one permit is missing from the balance. -/
theorem sound_addPermit (hbalanced : s.permits + s.holding.length + 1 = max)
    (hbusy : s.waiting ≠ [] → s.permits = 0) (hapart : s.members.Nodup) :
    Sound max s.addPermit := by
  have hapart' : s.addPermit.members.Nodup := members_addPermit.nodup_iff.mpr hapart
  unfold addPermit at hapart' ⊢
  split at hapart'
  · rename_i hempty
    refine ⟨?_, fun hqueue => absurd hempty hqueue, hapart'⟩
    simp only
    omega
  · rename_i j rest hqueue
    refine ⟨?_, fun _ => hbusy (by simp [hqueue]), hapart'⟩
    simp only [List.length_cons]
    omega

/-- While somebody waits and there are permits at all, somebody holds one. -/
theorem Sound.held_of_waiting (h : Sound max s) (hmax : 0 < max) (hwaits : i ∈ s.waiting) :
    ∃ j, j ∈ s.holding := by
  have hzero := h.busy (List.ne_nil_of_mem hwaits)
  have hbalanced := h.balanced
  exact List.exists_mem_of_length_pos (by omega)

theorem mem_members_acquire : j ∈ (s.acquire i).members ↔ j = i ∨ j ∈ s.members := by
  rw [members_acquire.mem_iff, List.mem_cons]

/-- Nobody is deprived of a permit. -/
theorem holding_acquire (h : j ∈ s.holding) : j ∈ (s.acquire i).holding := by
  unfold acquire
  split
  · exact h
  · exact List.mem_cons_of_mem _ h

theorem holding_addPermit (h : j ∈ s.holding) : j ∈ s.addPermit.holding := by
  unfold addPermit
  split
  · exact h
  · exact List.mem_cons_of_mem _ h

variable [DecidableEq ι]

theorem sound_release (h : Sound max s) (hheld : i ∈ s.holding) : Sound max (s.release i) := by
  refine sound_addPermit ?_ h.busy ?_
  · have hbalanced := h.balanced
    have hlen := List.length_erase_of_mem hheld
    have hpos := List.length_pos_of_mem hheld
    simp only
    omega
  · exact h.apart.sublist ((List.Sublist.refl _).append List.erase_sublist)

theorem sound_leave (h : Sound max s) : Sound max (s.leave i) := by
  unfold leave
  split
  · rename_i hheld
    exact sound_release h hheld
  · refine ⟨h.balanced, ?_, ?_⟩
    · intro hqueue
      refine h.busy ?_
      intro hempty
      exact hqueue (by simp [hempty])
    · exact h.apart.sublist (List.erase_sublist.append (List.Sublist.refl _))

/-! ## Who is where -/

theorem mem_members_release (h : Sound max s) (hheld : i ∈ s.holding) :
    j ∈ (s.release i).members ↔ j ≠ i ∧ j ∈ s.members := by
  unfold release
  rw [members_addPermit.mem_iff]
  have hapart := List.nodup_append.mp h.apart
  simp only [members, List.mem_append, hapart.2.1.mem_erase_iff]
  constructor
  · intro hmem
    cases hmem with
    | inl hwaits => exact ⟨fun heq => hapart.2.2 j hwaits i hheld heq, Or.inl hwaits⟩
    | inr hholds => exact ⟨hholds.1, Or.inr hholds.2⟩
  · intro hmem
    exact hmem.2.imp id (fun hholds => ⟨hmem.1, hholds⟩)

theorem mem_members_leave (h : Sound max s) :
    j ∈ (s.leave i).members ↔ j ≠ i ∧ j ∈ s.members := by
  unfold leave
  split
  · rename_i hheld
    exact mem_members_release h hheld
  · rename_i hheld
    have hapart := List.nodup_append.mp h.apart
    simp only [members, List.mem_append, hapart.1.mem_erase_iff]
    constructor
    · intro hmem
      cases hmem with
      | inl hwaits => exact ⟨hwaits.1, Or.inl hwaits.2⟩
      | inr hholds => exact ⟨fun heq => hheld (heq ▸ hholds), Or.inr hholds⟩
    · intro hmem
      exact hmem.2.imp (fun hwaits => ⟨hmem.1, hwaits⟩) id

theorem holding_release (hne : j ≠ i) (h : j ∈ s.holding) : j ∈ (s.release i).holding :=
  holding_addPermit ((List.mem_erase_of_ne hne).mpr h)

theorem holding_leave (hne : j ≠ i) (h : j ∈ s.holding) : j ∈ (s.leave i).holding := by
  unfold leave
  split
  · exact holding_release hne h
  · exact h

/-! ## First in, first out -/

/-- `i` holds a permit, or fewer than `n` callers are in front of it in the queue. -/
def Served (i : ι) (n : Nat) (s : Semaphore ι) : Prop :=
  i ∈ s.holding ∨ i ∈ s.waiting ∧ s.waiting.idxOf i < n

variable {n : Nat}

theorem Served.mono {m : Nat} (h : Served i n s) (hle : n ≤ m) : Served i m s :=
  h.imp id fun hqueue => ⟨hqueue.1, Nat.lt_of_lt_of_le hqueue.2 hle⟩

theorem served_acquire (h : Served i n s) : Served i n (s.acquire j) := by
  cases h with
  | inl hholds => exact Or.inl (holding_acquire hholds)
  | inr hqueue =>
      unfold acquire
      split
      · -- newcomers join at the end
        refine Or.inr ⟨List.mem_append_left _ hqueue.1, ?_⟩
        rw [List.idxOf_append_of_mem hqueue.1]
        exact hqueue.2
      · exact Or.inr hqueue

/-- A permit that comes back moves the queue up by one place. -/
theorem served_addPermit (h : Served i (n + 1) s) : Served i n s.addPermit := by
  cases h with
  | inl hholds => exact Or.inl (holding_addPermit hholds)
  | inr hqueue =>
      unfold addPermit
      split
      · rename_i hempty
        simp [hempty] at hqueue
      · rename_i first rest heq
        rw [heq] at hqueue
        by_cases hfirst : first = i
        · exact Or.inl (by simp [hfirst])
        · refine Or.inr ⟨(List.mem_cons.mp hqueue.1).resolve_left (Ne.symm hfirst), ?_⟩
          have hidx := hqueue.2
          rw [List.idxOf_cons_ne rest hfirst] at hidx
          simp only
          omega

theorem served_release (hne : i ≠ j) (h : Served i (n + 1) s) : Served i n (s.release j) :=
  served_addPermit (h.imp (fun hholds => (List.mem_erase_of_ne hne).mpr hholds) id)

/-- Taking somebody else out of a list moves nobody back. -/
theorem idxOf_erase_le {l : List ι} (hne : i ≠ j) : (l.erase j).idxOf i ≤ l.idxOf i := by
  induction l with
  | nil => simp
  | cons x l ih =>
      by_cases hx : x = j
      · rw [hx, List.erase_cons_head, List.idxOf_cons_ne l (Ne.symm hne)]
        omega
      · rw [List.erase_cons_tail (by simpa using hx)]
        by_cases hi : x = i
        · simp [hi]
        · rw [List.idxOf_cons_ne _ hi, List.idxOf_cons_ne _ hi]
          omega

theorem served_leave (hne : i ≠ j) (h : Served i n s) : Served i n (s.leave j) := by
  unfold leave
  split
  · exact served_release hne (h.mono (Nat.le_succ n))
  · exact h.imp id fun hqueue =>
      ⟨(List.mem_erase_of_ne hne).mpr hqueue.1, Nat.lt_of_le_of_lt (idxOf_erase_le hne) hqueue.2⟩

theorem Served.holds (h : Served i 0 s) : i ∈ s.holding :=
  h.resolve_right fun hqueue => Nat.not_lt_zero _ hqueue.2

end Semaphore

end Fair
