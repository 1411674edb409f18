import Mathlib.Algebra.Ring.Nat
import Mathlib.Data.List.Basic

/-!
# Lists behind a compact length

A list is written as its length, seven bits a byte and lowest first, and then its
elements. A length has to fit into sixteen bits; it takes at most three bytes, and a
single one below 128.

`Sized` says of an encoder that may fail when it writes something, and how much. It
composes: what is written one behind the other takes up the sum.
-/

namespace ShortVec

variable {α : Type}

/-- The bytes of a length that takes at most `fuel` of them. -/
def lengthBytes : Nat → Nat → List UInt8
  | 0, _ => []
  | fuel + 1, rem =>
      if rem / 128 = 0 then [UInt8.ofNat (rem % 128)]
      else UInt8.ofNat (rem % 128 + 128) :: lengthBytes fuel (rem / 128)

/-- How many bytes the length `n` takes. -/
def lengthSize (n : Nat) : Nat := (lengthBytes 3 n).length

/-- The list, each element written by `write`; fails when there are too many of them. -/
def serialize (write : α → List UInt8) (xs : List α) : Option (List UInt8) :=
  if xs.length < 2 ^ 16 then some (lengthBytes 3 xs.length ++ xs.flatMap write) else none

/-! ## Lengths -/

theorem length_lengthBytes_le (fuel n : Nat) : (lengthBytes fuel n).length ≤ fuel := by
  induction fuel generalizing n with
  | zero => exact Nat.le_refl 0
  | succ fuel ih =>
      rw [lengthBytes]
      split
      · rw [List.length_singleton]
        omega
      · have hrest := ih (n / 128)
        rw [List.length_cons]
        omega

theorem lengthSize_le (n : Nat) : lengthSize n ≤ 3 := length_lengthBytes_le 3 n

theorem one_le_lengthSize (n : Nat) : 1 ≤ lengthSize n := by
  rw [lengthSize, lengthBytes]
  split
  · exact Nat.le_refl 1
  · rw [List.length_cons]
    omega

theorem lengthSize_of_lt {n : Nat} (h : n < 128) : lengthSize n = 1 := by
  rw [lengthSize, lengthBytes, if_pos (by omega), List.length_singleton]

/-! ## Encoders -/

/-- `x` writes something exactly when `p` holds, and then `n` bytes. -/
structure Sized (x : Option (List UInt8)) (p : Prop) (n : Nat) : Prop where
  exists_bytes : p → ∃ bytes, x = some bytes
  of_eq_some : ∀ bytes, x = some bytes → p ∧ bytes.length = n

variable {x y : Option (List UInt8)} {p q : Prop} {n k : Nat}

theorem Sized.congr (h : Sized x p n) (hp : p ↔ q) (hn : n = k) : Sized x q k := by
  obtain rfl := hn
  exact ⟨fun hq => h.exists_bytes (hp.mpr hq),
    fun bytes hbytes => (h.of_eq_some bytes hbytes).imp_left hp.mp⟩

/-- **One behind the other**, with `c` bytes around them. -/
theorem Sized.both (hx : Sized x p n) (hy : Sized y q k) {c : Nat}
    {f : List UInt8 → List UInt8 → List UInt8}
    (hf : ∀ a b, (f a b).length = a.length + b.length + c) :
    Sized (do let a ← x; let b ← y; return f a b) (p ∧ q) (n + k + c) := by
  constructor
  · intro ⟨hp, hq⟩
    obtain ⟨a, rfl⟩ := hx.exists_bytes hp
    obtain ⟨b, rfl⟩ := hy.exists_bytes hq
    exact ⟨f a b, rfl⟩
  · intro bytes hbytes
    obtain ⟨a, ha, hbytes⟩ := Option.bind_eq_some_iff.mp hbytes
    obtain ⟨b, hb, hbytes⟩ := Option.bind_eq_some_iff.mp hbytes
    obtain rfl := Option.some.inj hbytes
    obtain ⟨hp, rfl⟩ := hx.of_eq_some a ha
    obtain ⟨hq, rfl⟩ := hy.of_eq_some b hb
    exact ⟨⟨hp, hq⟩, hf a b⟩

theorem sized_serialize {write : α → List UInt8} {size : α → Nat}
    (hsize : ∀ x, (write x).length = size x) (xs : List α) :
    Sized (serialize write xs) (xs.length < 2 ^ 16)
      (lengthSize xs.length + (xs.map size).sum) := by
  have hlength : (xs.flatMap write).length = (xs.map size).sum := by
    simp only [List.length_flatMap, hsize]
  constructor
  · intro hshort
    exact ⟨_, if_pos hshort⟩
  · intro bytes hbytes
    unfold serialize at hbytes
    split at hbytes
    · rename_i hshort
      obtain rfl := Option.some.inj hbytes
      refine ⟨hshort, ?_⟩
      rw [List.length_append, hlength, lengthSize]
    · cases hbytes

/-- Elements of one size. -/
theorem sized_serialize_const {write : α → List UInt8} {size : Nat}
    (hsize : ∀ x, (write x).length = size) (xs : List α) :
    Sized (serialize write xs) (xs.length < 2 ^ 16)
      (lengthSize xs.length + size * xs.length) := by
  have hsum : (xs.map fun _ => size).sum = size * xs.length := by
    rw [List.map_const', List.sum_replicate_nat, Nat.mul_comm]
  rw [← hsum]
  exact sized_serialize hsize xs

/-- A list of things that are written one by one, and may fail. -/
theorem mapM_sized {f : α → Option (List UInt8)} {p : α → Prop} {size : α → Nat}
    (h : ∀ x, Sized (f x) (p x) (size x)) (xs : List α) :
    ((∀ x ∈ xs, p x) → ∃ elements, xs.mapM f = some elements) ∧
      ∀ elements, xs.mapM f = some elements → (∀ x ∈ xs, p x) ∧
        elements.length = xs.length ∧ (elements.map List.length).sum = (xs.map size).sum := by
  induction xs with
  | nil =>
      refine ⟨fun _ => ⟨[], rfl⟩, fun elements helements => ?_⟩
      obtain rfl := Option.some.inj helements
      exact ⟨fun _ hx => absurd hx List.not_mem_nil, rfl, rfl⟩
  | cons x xs ih =>
      obtain ⟨hexists, hsizes⟩ := ih
      rw [List.mapM_cons]
      constructor
      · -- every element can be written
        intro hall
        obtain ⟨bytes, hbytes⟩ := (h x).exists_bytes (hall x List.mem_cons_self)
        obtain ⟨rest, hrest⟩ := hexists fun y hy => hall y (List.mem_cons_of_mem x hy)
        exact ⟨bytes :: rest, by rw [hbytes, hrest]; rfl⟩
      · -- what was written has the sizes of the elements
        intro elements helements
        obtain ⟨bytes, hbytes, helements⟩ := Option.bind_eq_some_iff.mp helements
        obtain ⟨rest, hrest, helements⟩ := Option.bind_eq_some_iff.mp helements
        obtain rfl := Option.some.inj helements
        obtain ⟨hp, hlength⟩ := (h x).of_eq_some bytes hbytes
        obtain ⟨hall, hcount, hsum⟩ := hsizes rest hrest
        refine ⟨List.forall_mem_cons.mpr ⟨hp, hall⟩, ?_, ?_⟩
        · rw [List.length_cons, List.length_cons, hcount]
        · rw [List.map_cons, List.sum_cons, List.map_cons, List.sum_cons, hlength, hsum]

/-- **A list of such things**, behind its length. -/
theorem sized_serialize_mapM {f : α → Option (List UInt8)} {p : α → Prop} {size : α → Nat}
    (h : ∀ x, Sized (f x) (p x) (size x)) (xs : List α) :
    Sized (do let elements ← xs.mapM f; serialize id elements)
      (xs.length < 2 ^ 16 ∧ ∀ x ∈ xs, p x) (lengthSize xs.length + (xs.map size).sum) := by
  obtain ⟨hexists, hsizes⟩ := mapM_sized h xs
  have hwritten : ∀ elements : List (List UInt8), Sized (serialize id elements)
      (elements.length < 2 ^ 16)
      (lengthSize elements.length + (elements.map List.length).sum) :=
    fun elements => sized_serialize (fun _ => rfl) elements
  constructor
  · intro ⟨hshort, hall⟩
    obtain ⟨elements, helements⟩ := hexists hall
    obtain ⟨-, hcount, -⟩ := hsizes elements helements
    obtain ⟨bytes, hbytes⟩ := (hwritten elements).exists_bytes (hcount.symm ▸ hshort)
    exact ⟨bytes, by rw [helements]; exact hbytes⟩
  · intro bytes hbytes
    obtain ⟨elements, helements, hbytes⟩ := Option.bind_eq_some_iff.mp hbytes
    obtain ⟨hall, hcount, hsum⟩ := hsizes elements helements
    obtain ⟨hshort, hlength⟩ := (hwritten elements).of_eq_some bytes hbytes
    rw [hcount] at hshort
    rw [hcount, hsum] at hlength
    exact ⟨⟨hshort, hall⟩, hlength⟩

end ShortVec
