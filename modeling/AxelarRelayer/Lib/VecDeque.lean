import Mathlib.Data.List.Basic
import Mathlib.Data.List.Range
import Mathlib.Tactic.SplitIfs

/-!
# `VecDeque`

A double-ended queue in a ring buffer, as the standard library lays it out: the
elements start at `head` and wrap around at the end of the buffer. `contents` is the
queue without its layout. `push_front` and `make_contiguous` move elements between
slots in many ways; each is a new place for the same elements (`relayout`), and what is
left to prove of a layout is where each element went.

A slot that was never written holds nothing. A slot that is no longer in use keeps what
was in it. Elements take up space, and capacities are not bounded here: an allocation
that fails ends the program.
-/

/-- `wrap_index`. -/
def VecDeque.wrapIndex (logicalIndex capacity : Nat) : Nat :=
  if capacity ≤ logicalIndex then logicalIndex - capacity else logicalIndex

/-- `VecDeque`. -/
structure VecDeque (α : Type) where
  /-- the slots of the buffer -/
  buf : Nat → Option α
  capacity : Nat
  head : Nat
  len : Nat
  len_le : len ≤ capacity
  head_lt : head < capacity ∨ capacity = 0 ∧ head = 0
  /-- The slots in use are initialized. -/
  init : ∀ i < len, (buf (VecDeque.wrapIndex (head + i) capacity)).isSome

namespace VecDeque

variable {α : Type}

/-! ## Memory -/

/-- `ptr::copy`; the two ranges may overlap. -/
def copy (buf : Nat → Option α) (src dst len : Nat) : Nat → Option α :=
  fun i => if dst ≤ i ∧ i < dst + len then buf (src + (i - dst)) else buf i

/-- `ptr::write`. -/
def write (buf : Nat → Option α) (off : Nat) (value : α) : Nat → Option α :=
  fun i => if i = off then some value else buf i

/-- `slice::rotate_left` on the slots from `start` up to `stop`. -/
def rotateLeft (buf : Nat → Option α) (start stop mid : Nat) : Nat → Option α :=
  fun i =>
    if start ≤ i ∧ i < stop then
      if i + mid < stop then buf (i + mid) else buf (i + mid - (stop - start))
    else buf i

/-- `slice::rotate_right`. -/
def rotateRight (buf : Nat → Option α) (start stop k : Nat) : Nat → Option α :=
  rotateLeft buf start stop (stop - start - k)

/-- `slice::from_raw_parts`: what `len` slots from `start` on hold. -/
def slice (buf : Nat → Option α) (start len : Nat) : List α :=
  (List.range len).filterMap fun i => buf (start + i)

/-! ## Contents -/

/-- `to_physical_idx`. -/
def toPhysicalIdx (d : VecDeque α) (idx : Nat) : Nat := wrapIndex (d.head + idx) d.capacity

/-- The elements, front to back. -/
def contents (d : VecDeque α) : List α :=
  (List.range d.len).filterMap fun i => d.buf (d.toPhysicalIdx i)

theorem contents_congr {d d' : VecDeque α} (hlen : d'.len = d.len)
    (hsame : ∀ i < d.len, d'.buf (d'.toPhysicalIdx i) = d.buf (d.toPhysicalIdx i)) :
    d'.contents = d.contents := by
  rw [contents, contents, hlen]
  exact List.filterMap_congr fun i hi => hsame i (List.mem_range.mp hi)

theorem filterMap_range_succ {f : Nat → Option α} {n : Nat} {a : α} (h : f 0 = some a) :
    (List.range (n + 1)).filterMap f = a :: (List.range n).filterMap fun i => f (i + 1) := by
  rw [List.range_succ_eq_map, List.filterMap_cons_some h, List.filterMap_map]
  rfl

theorem length_filterMap_range {f : Nat → Option α} {n : Nat} (h : ∀ i < n, (f i).isSome) :
    ((List.range n).filterMap f).length = n := by
  rw [List.length_filterMap_eq_countP, List.countP_eq_length.mpr, List.length_range]
  intro i hi
  exact h i (List.mem_range.mp hi)

theorem getElem?_filterMap_range {f : Nat → Option α} {n j : Nat} (h : ∀ i < n, (f i).isSome)
    (hj : j < n) : ((List.range n).filterMap f)[j]? = f j := by
  induction n with
  | zero => exact absurd hj (Nat.not_lt_zero _)
  | succ n ih =>
      have hbelow : ∀ i < n, (f i).isSome := fun i hi => h i (Nat.lt_succ_of_lt hi)
      have hlength := length_filterMap_range hbelow
      obtain ⟨a, ha⟩ := Option.isSome_iff_exists.mp (h n (Nat.lt_succ_self n))
      rw [List.range_succ, List.filterMap_append, List.filterMap_cons_some ha]
      rcases Nat.lt_succ_iff_lt_or_eq.mp hj with hlt | rfl
      · rw [List.getElem?_append_left (by omega)]
        exact ih hbelow hlt
      · rw [List.getElem?_append_right (by omega), hlength, Nat.sub_self, ha]
        rfl

@[simp] theorem length_contents (d : VecDeque α) : d.contents.length = d.len :=
  length_filterMap_range d.init

theorem getElem?_contents {d : VecDeque α} {i : Nat} (hi : i < d.len) :
    d.contents[i]? = d.buf (d.toPhysicalIdx i) :=
  getElem?_filterMap_range d.init hi

/-! ## Moving the elements -/

/-- The same elements in other slots. -/
def relayout (d : VecDeque α) (buf : Nat → Option α) (capacity head : Nat)
    (hcapacity : d.len ≤ capacity) (hhead : head < capacity ∨ capacity = 0 ∧ head = 0)
    (hsame : ∀ i < d.len, buf (wrapIndex (head + i) capacity) = d.buf (d.toPhysicalIdx i)) :
    VecDeque α where
  buf := buf
  capacity := capacity
  head := head
  len := d.len
  len_le := hcapacity
  head_lt := hhead
  init := fun i hi => by
    rw [hsame i hi]
    exact d.init i hi

/-! ## `grow` -/

/-- How the allocator grows a full buffer, `RawVec::grow_one`. -/
structure Growth where
  growOne : Nat → Nat
  lt_growOne : ∀ capacity, capacity < growOne capacity

/-- Twice the capacity, and not less than `minNonZeroCap`. -/
def Growth.amortized (minNonZeroCap : Nat) : Growth where
  growOne capacity := max minNonZeroCap (max (capacity * 2) (capacity + 1))
  lt_growOne := fun _ => by omega

/-- The slots and the head behind `handle_capacity_increase`. -/
def handleCapacityIncrease (d : VecDeque α) (newCapacity : Nat) : (Nat → Option α) × Nat :=
  if d.head ≤ d.capacity - d.len then (d.buf, d.head)
  else
    let headLen := d.capacity - d.head
    let tailLen := d.len - headLen
    if tailLen < headLen ∧ tailLen ≤ newCapacity - d.capacity then
      (copy d.buf 0 d.capacity tailLen, d.head)
    else
      let newHead := newCapacity - headLen
      (copy d.buf d.head newHead headLen, newHead)

/-- The head stays within the buffer, and every element is found again. -/
theorem handleCapacityIncrease_spec (d : VecDeque α) {newCapacity : Nat}
    (hgrow : d.capacity < newCapacity) :
    (d.handleCapacityIncrease newCapacity).2 < newCapacity ∧
    ∀ i < d.len, (d.handleCapacityIncrease newCapacity).1
      (wrapIndex ((d.handleCapacityIncrease newCapacity).2 + i) newCapacity) =
        d.buf (d.toPhysicalIdx i) := by
  have hlen := d.len_le
  have hhead := d.head_lt
  rw [handleCapacityIncrease]
  by_cases hcontiguous : d.head ≤ d.capacity - d.len
  · -- the elements do not wrap
    rw [if_pos hcontiguous]
    refine ⟨by omega, fun i hi => congrArg d.buf ?_⟩
    simp only [toPhysicalIdx, wrapIndex]
    split_ifs <;> omega
  rw [if_neg hcontiguous]
  dsimp only
  by_cases htail : d.len - (d.capacity - d.head) < d.capacity - d.head ∧
      d.len - (d.capacity - d.head) ≤ newCapacity - d.capacity
  · -- the tail moves behind the head section
    rw [if_pos htail]
    refine ⟨by omega, fun i hi => ?_⟩
    simp only [copy, toPhysicalIdx, wrapIndex]
    split_ifs <;> first | omega | exact congrArg d.buf (by omega)
  · -- the head section moves to the end of the buffer
    rw [if_neg htail]
    refine ⟨by omega, fun i hi => ?_⟩
    simp only [copy, toPhysicalIdx, wrapIndex]
    split_ifs <;> first | omega | exact congrArg d.buf (by omega)

/-- `grow`. -/
def grow (growth : Growth) (d : VecDeque α) : VecDeque α :=
  let newCapacity := growth.growOne d.capacity
  d.relayout (d.handleCapacityIncrease newCapacity).1 newCapacity
    (d.handleCapacityIncrease newCapacity).2
    (Nat.le_of_lt (Nat.lt_of_le_of_lt d.len_le (growth.lt_growOne _)))
    (Or.inl (d.handleCapacityIncrease_spec (growth.lt_growOne _)).1)
    (d.handleCapacityIncrease_spec (growth.lt_growOne _)).2

@[simp] theorem len_grow (growth : Growth) (d : VecDeque α) : (d.grow growth).len = d.len := rfl

@[simp] theorem contents_grow (growth : Growth) (d : VecDeque α) :
    (d.grow growth).contents = d.contents :=
  contents_congr rfl (d.handleCapacityIncrease_spec (growth.lt_growOne _)).2

/-! ## `push_front` -/

/-- `is_full`. -/
def isFull (d : VecDeque α) : Prop := d.len = d.capacity

instance (d : VecDeque α) : Decidable d.isFull := inferInstanceAs (Decidable (_ = _))

/-- `wrap_sub`. -/
def wrapSub (idx subtrahend capacity : Nat) : Nat :=
  wrapIndex (idx + capacity - subtrahend) capacity

/-- The deque with room for one more element. -/
def makeRoom (growth : Growth) (d : VecDeque α) : VecDeque α :=
  if d.isFull then d.grow growth else d

@[simp] theorem len_makeRoom (growth : Growth) (d : VecDeque α) :
    (d.makeRoom growth).len = d.len := by
  unfold makeRoom
  split <;> rfl

@[simp] theorem contents_makeRoom (growth : Growth) (d : VecDeque α) :
    (d.makeRoom growth).contents = d.contents := by
  unfold makeRoom
  split
  · exact contents_grow growth d
  · rfl

theorem len_lt_capacity_makeRoom (growth : Growth) (d : VecDeque α) :
    (d.makeRoom growth).len < (d.makeRoom growth).capacity := by
  unfold makeRoom
  split
  · exact Nat.lt_of_le_of_lt d.len_le (growth.lt_growOne d.capacity)
  · rename_i hfull
    exact Nat.lt_of_le_of_ne d.len_le hfull

/-- The slots of a deque with room, once `value` is written in front of the head. -/
theorem write_front (d : VecDeque α) (hroom : d.len < d.capacity) (value : α) :
    write d.buf (wrapSub d.head 1 d.capacity) value
      (wrapIndex (wrapSub d.head 1 d.capacity) d.capacity) = some value ∧
    ∀ i < d.len, write d.buf (wrapSub d.head 1 d.capacity) value
      (wrapIndex (wrapSub d.head 1 d.capacity + (i + 1)) d.capacity) =
        d.buf (d.toPhysicalIdx i) := by
  have hhead := d.head_lt
  constructor
  · refine if_pos ?_
    simp only [wrapIndex, wrapSub]
    split_ifs <;> omega
  · intro i hi
    -- there is room, so the slot in front of the head holds no element
    simp only [write, toPhysicalIdx, wrapIndex, wrapSub]
    split_ifs <;> first | omega | exact congrArg d.buf (by omega)

/-- `push_front`. -/
def pushFront (growth : Growth) (d : VecDeque α) (value : α) : VecDeque α :=
  let d' := d.makeRoom growth
  { buf := write d'.buf (wrapSub d'.head 1 d'.capacity) value
    capacity := d'.capacity
    head := wrapSub d'.head 1 d'.capacity
    len := d'.len + 1
    len_le := d.len_lt_capacity_makeRoom growth
    head_lt := by
      have hhead := d'.head_lt
      have hroom : d'.len < d'.capacity := d.len_lt_capacity_makeRoom growth
      simp only [wrapSub, wrapIndex]
      split_ifs <;> omega
    init := by
      have hfront := d'.write_front (d.len_lt_capacity_makeRoom growth) value
      intro i hi
      cases i with
      | zero => exact Option.isSome_of_eq_some hfront.1
      | succ i =>
          rw [hfront.2 i (Nat.lt_of_succ_lt_succ hi)]
          exact d'.init i (Nat.lt_of_succ_lt_succ hi) }

@[simp] theorem len_pushFront (growth : Growth) (d : VecDeque α) (value : α) :
    (d.pushFront growth value).len = d.len + 1 :=
  congrArg (· + 1) (d.len_makeRoom growth)

@[simp] theorem contents_pushFront (growth : Growth) (d : VecDeque α) (value : α) :
    (d.pushFront growth value).contents = value :: d.contents := by
  have hfront := (d.makeRoom growth).write_front (d.len_lt_capacity_makeRoom growth) value
  rw [← contents_makeRoom growth d]
  refine (filterMap_range_succ (n := (d.makeRoom growth).len) hfront.1).trans (congrArg _ ?_)
  exact List.filterMap_congr fun i hi => hfront.2 i (List.mem_range.mp hi)

/-! ## `make_contiguous` -/

/-- `is_contiguous`. -/
def isContiguous (d : VecDeque α) : Prop := d.head ≤ d.capacity - d.len

instance (d : VecDeque α) : Decidable d.isContiguous := inferInstanceAs (Decidable (_ ≤ _))

theorem toPhysicalIdx_of_isContiguous {d : VecDeque α} {i : Nat} (h : d.isContiguous)
    (hi : i < d.len) : d.toPhysicalIdx i = d.head + i := by
  have hlen := d.len_le
  rw [isContiguous] at h
  exact if_neg (by omega)

/-- The slots and the head behind `make_contiguous`. -/
def contiguousLayout (d : VecDeque α) : (Nat → Option α) × Nat :=
  if d.isContiguous then (d.buf, d.head)
  else
    let free := d.capacity - d.len
    let headLen := d.capacity - d.head
    let tailLen := d.len - headLen
    if headLen ≤ free then
      (copy (copy d.buf 0 headLen tailLen) d.head 0 headLen, 0)
    else if tailLen ≤ free then
      (copy (copy d.buf d.head tailLen headLen) 0 (tailLen + headLen) tailLen, tailLen)
    else if tailLen < headLen then
      let buf := if free ≠ 0 then copy d.buf 0 free tailLen else d.buf
      (rotateLeft buf free d.capacity tailLen, free)
    else
      let buf := if free ≠ 0 then copy d.buf d.head tailLen headLen else d.buf
      (rotateRight buf 0 d.len headLen, 0)

/-- The elements lie in one piece from the head on. -/
theorem contiguousLayout_spec (d : VecDeque α) :
    d.contiguousLayout.2 + d.len ≤ d.capacity ∧
    ∀ i < d.len, d.contiguousLayout.1 (d.contiguousLayout.2 + i) = d.buf (d.toPhysicalIdx i) := by
  have hlen := d.len_le
  have hhead := d.head_lt
  rw [contiguousLayout]
  by_cases hcontiguous : d.isContiguous
  · -- the elements do not wrap: nothing moves
    rw [if_pos hcontiguous]
    rw [isContiguous] at hcontiguous
    refine ⟨by dsimp only; omega, fun i hi => congrArg d.buf ?_⟩
    simp only [toPhysicalIdx, wrapIndex]
    split_ifs <;> omega
  rw [if_neg hcontiguous]
  rw [isContiguous] at hcontiguous
  dsimp only
  by_cases hheadFits : d.capacity - d.head ≤ d.capacity - d.len
  · -- the tail moves up, and the head section to the start of the buffer
    rw [if_pos hheadFits]
    refine ⟨by dsimp only; omega, fun i hi => ?_⟩
    simp only [copy, toPhysicalIdx, wrapIndex]
    split_ifs <;> first | omega | exact congrArg d.buf (by omega)
  rw [if_neg hheadFits]
  by_cases htailFits : d.len - (d.capacity - d.head) ≤ d.capacity - d.len
  · -- the head section moves down, and the tail behind it
    rw [if_pos htailFits]
    refine ⟨by dsimp only; omega, fun i hi => ?_⟩
    simp only [copy, toPhysicalIdx, wrapIndex]
    split_ifs <;> first | omega | exact congrArg d.buf (by omega)
  rw [if_neg htailFits]
  by_cases htailShorter : d.len - (d.capacity - d.head) < d.capacity - d.head
  · -- the tail moves up to the head section, and both rotate into place
    rw [if_pos htailShorter]
    refine ⟨by dsimp only; omega, fun i hi => ?_⟩
    by_cases hfree : d.capacity - d.len ≠ 0
    · rw [if_pos hfree]
      simp only [copy, rotateLeft, toPhysicalIdx, wrapIndex]
      split_ifs <;> first | omega | exact congrArg d.buf (by omega)
    · rw [if_neg hfree]
      simp only [rotateLeft, toPhysicalIdx, wrapIndex]
      split_ifs <;> first | omega | exact congrArg d.buf (by omega)
  · -- the head section moves down to the tail, and both rotate into place
    rw [if_neg htailShorter]
    refine ⟨by dsimp only; omega, fun i hi => ?_⟩
    by_cases hfree : d.capacity - d.len ≠ 0
    · rw [if_pos hfree]
      simp only [copy, rotateRight, rotateLeft, toPhysicalIdx, wrapIndex]
      split_ifs <;> first | omega | exact congrArg d.buf (by omega)
    · rw [if_neg hfree]
      simp only [rotateRight, rotateLeft, toPhysicalIdx, wrapIndex]
      split_ifs <;> first | omega | exact congrArg d.buf (by omega)

theorem contiguousLayout_head_lt (d : VecDeque α) :
    d.contiguousLayout.2 < d.capacity ∨ d.capacity = 0 ∧ d.contiguousLayout.2 = 0 := by
  have hfits := d.contiguousLayout_spec.1
  rcases Nat.eq_zero_or_pos d.len with hempty | hpos
  · -- without elements the head stays where it is
    have hhead := d.head_lt
    rw [contiguousLayout, if_pos (by rw [isContiguous]; omega)]
    exact hhead
  · exact Or.inl (by omega)

theorem contiguousLayout_same (d : VecDeque α) {i : Nat} (hi : i < d.len) :
    d.contiguousLayout.1 (wrapIndex (d.contiguousLayout.2 + i) d.capacity) =
      d.buf (d.toPhysicalIdx i) := by
  have hfits := d.contiguousLayout_spec.1
  rw [wrapIndex, if_neg (by omega)]
  exact d.contiguousLayout_spec.2 i hi

/-- `make_contiguous`. -/
def makeContiguous (d : VecDeque α) : VecDeque α :=
  d.relayout d.contiguousLayout.1 d.capacity d.contiguousLayout.2 d.len_le
    d.contiguousLayout_head_lt fun _ hi => d.contiguousLayout_same hi

@[simp] theorem len_makeContiguous (d : VecDeque α) : d.makeContiguous.len = d.len := rfl

@[simp] theorem contents_makeContiguous (d : VecDeque α) :
    d.makeContiguous.contents = d.contents :=
  contents_congr rfl fun _ hi => d.contiguousLayout_same hi

theorem isContiguous_makeContiguous (d : VecDeque α) : d.makeContiguous.isContiguous :=
  Nat.le_sub_of_add_le d.contiguousLayout_spec.1

/-! ## Slices -/

/-- `as_slices`. -/
def asSlices (d : VecDeque α) : List α × List α :=
  if d.len = 0 then (slice d.buf 0 0, slice d.buf 0 0)
  else
    let wrappedStart := d.toPhysicalIdx 0
    let headLen := d.capacity - wrappedStart
    if d.len ≤ headLen then (slice d.buf wrappedStart d.len, slice d.buf 0 0)
    else (slice d.buf wrappedStart headLen, slice d.buf 0 (d.len - headLen))

/-- The elements from the `k`-th on, `n` of them. -/
def part (d : VecDeque α) (k n : Nat) : List α :=
  (List.range n).filterMap fun i => d.buf (d.toPhysicalIdx (k + i))

theorem contents_eq_part (d : VecDeque α) : d.contents = d.part 0 d.len :=
  List.filterMap_congr fun i _ => congrArg (fun k => d.buf (d.toPhysicalIdx k)) (Nat.zero_add i).symm

theorem part_append (d : VecDeque α) (m n : Nat) : d.part 0 m ++ d.part m n = d.part 0 (m + n) := by
  rw [part, part, part, List.range_add, List.filterMap_append, List.filterMap_map]
  refine congrArg _ (List.filterMap_congr fun i _ => ?_)
  exact congrArg (fun k => d.buf (d.toPhysicalIdx k)) (Nat.zero_add (m + i)).symm

/-- A slice shows the elements that lie in its slots. -/
theorem slice_eq_part (d : VecDeque α) (start k n : Nat)
    (h : ∀ i < n, d.toPhysicalIdx (k + i) = start + i) : slice d.buf start n = d.part k n :=
  List.filterMap_congr fun i hi => congrArg d.buf (h i (List.mem_range.mp hi)).symm

/-- As long as the elements do not wrap they lie in the slots from the head on. -/
theorem slice_head (d : VecDeque α) (n : Nat) (hn : n ≤ d.capacity - d.head) :
    slice d.buf d.head n = d.part 0 n := by
  refine d.slice_eq_part d.head 0 n fun i hi => ?_
  rw [toPhysicalIdx, wrapIndex, Nat.zero_add]
  exact if_neg (by omega)

/-- **The two slices are the queue.** -/
theorem asSlices_append (d : VecDeque α) : d.asSlices.1 ++ d.asSlices.2 = d.contents := by
  have hhead := d.head_lt
  have hlen := d.len_le
  rw [asSlices, contents_eq_part]
  by_cases hempty : d.len = 0
  · rw [if_pos hempty, hempty]
    rfl
  rw [if_neg hempty]
  dsimp only
  have hstart : d.toPhysicalIdx 0 = d.head := if_neg (by omega)
  rw [hstart]
  by_cases hone : d.len ≤ d.capacity - d.head
  · rw [if_pos hone]
    exact (List.append_nil _).trans (d.slice_head d.len hone)
  · -- the second slice starts where the buffer does
    rw [if_neg hone]
    have hsecond := d.slice_eq_part 0 (d.capacity - d.head) (d.len - (d.capacity - d.head))
      fun i hi => by
        rw [toPhysicalIdx, wrapIndex, if_pos (by omega)]
        omega
    dsimp only
    rw [d.slice_head _ (Nat.le_refl _), hsecond, part_append]
    exact congrArg (d.part 0) (by omega)

/-- A contiguous deque shows everything in its first slice. -/
theorem asSlices_of_isContiguous {d : VecDeque α} (h : d.isContiguous) :
    d.asSlices = (d.contents, []) := by
  have hhead := d.head_lt
  have hlen := d.len_le
  have hsecond : d.asSlices.2 = [] := by
    rw [isContiguous] at h
    rw [asSlices]
    by_cases hempty : d.len = 0
    · rw [if_pos hempty]
      rfl
    · have hstart : d.toPhysicalIdx 0 = d.head := if_neg (by omega)
      rw [if_neg hempty, hstart]
      dsimp only
      rw [if_pos (by omega)]
      rfl
  have hfirst := d.asSlices_append
  rw [hsecond, List.append_nil] at hfirst
  exact Prod.ext hfirst hsecond

/-- `valid_slice`, the slice `make_contiguous` returns. -/
def validSlice (d : VecDeque α) : List α := slice d.buf d.head d.len

theorem validSlice_of_isContiguous {d : VecDeque α} (h : d.isContiguous) :
    d.validSlice = d.contents := by
  have hhead := d.head_lt
  have hlen := d.len_le
  rw [isContiguous] at h
  rw [validSlice, contents_eq_part]
  exact d.slice_head d.len (by omega)

/-! ## Writing into the slice -/

/-- `valid_slice[i] = value`, with `i` in bounds. -/
def setSlice (d : VecDeque α) (i : Nat) (value : α) (_ : i < d.len) : VecDeque α where
  buf := write d.buf (d.head + i) value
  capacity := d.capacity
  head := d.head
  len := d.len
  len_le := d.len_le
  head_lt := d.head_lt
  init := fun j hj => by
    unfold write
    split
    · rfl
    · exact d.init j hj

theorem isContiguous_setSlice {d : VecDeque α} {i : Nat} (value : α) (hi : i < d.len)
    (h : d.isContiguous) : (d.setSlice i value hi).isContiguous := h

theorem contents_setSlice {d : VecDeque α} {i : Nat} (value : α) (hi : i < d.len)
    (h : d.isContiguous) : (d.setSlice i value hi).contents = d.contents.set i value := by
  refine List.ext_getElem? fun j => ?_
  rcases Nat.lt_or_ge j d.len with hj | hj
  · rw [getElem?_contents (d := d.setSlice i value hi) hj,
      toPhysicalIdx_of_isContiguous (isContiguous_setSlice value hi h) hj, List.getElem?_set,
      length_contents, if_pos hi]
    by_cases hij : i = j
    · subst hij
      rw [if_pos rfl]
      exact if_pos rfl
    · rw [if_neg hij, getElem?_contents hj, toPhysicalIdx_of_isContiguous h hj]
      exact if_neg (fun heq => hij (Nat.add_left_cancel heq).symm)
  · rw [List.getElem?_eq_none (by rw [length_contents]; exact hj),
      List.getElem?_eq_none (by rw [List.length_set, length_contents]; exact hj)]

end VecDeque
