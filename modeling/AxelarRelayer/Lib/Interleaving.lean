import Mathlib.Data.List.Basic

/-!
# Interleavings

A list is an interleaving of two others when it arises by taking from the front of
either, as often as there is something left. It grows at the end as it does at the
front.
-/

variable {α : Type}

/-- `merged` is made of `xs` and `ys`, each in its order. -/
inductive Interleaving : List α → List α → List α → Prop where
  | nil : Interleaving [] [] []
  | left (x : α) {xs ys merged : List α} :
      Interleaving xs ys merged → Interleaving (x :: xs) ys (x :: merged)
  | right (y : α) {xs ys merged : List α} :
      Interleaving xs ys merged → Interleaving xs (y :: ys) (y :: merged)

namespace Interleaving

variable {xs ys merged : List α}

theorem symm (h : Interleaving xs ys merged) : Interleaving ys xs merged := by
  induction h with
  | nil => exact nil
  | left x _ ih => exact ih.right x
  | right y _ ih => exact ih.left y

theorem snoc_left (h : Interleaving xs ys merged) (x : α) :
    Interleaving (xs ++ [x]) ys (merged ++ [x]) := by
  induction h with
  | nil => exact nil.left x
  | left first _ ih => exact ih.left first
  | right first _ ih => exact ih.right first

end Interleaving
