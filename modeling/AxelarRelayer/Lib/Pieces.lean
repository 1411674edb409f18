import Mathlib.Data.List.Basic

/-!
# Putting a list together from pieces

A buffer is overwritten piece by piece. If every piece is cut out of one target,
the order and the number of times in which they are written do not matter: a
position holds the target's element as soon as one piece covers it
(`overwriteAll_pieces`), and pieces that cover everything give the target.
-/

namespace Pieces

variable {α : Type} {target buffer : List α} {piece : Nat × List α} {pieces : List (Nat × List α)}

/-- Overwrite from an offset on; `none` when that goes out of bounds. -/
def overwrite (buffer : List α) (piece : Nat × List α) : Option (List α) :=
  if piece.1 + piece.2.length ≤ buffer.length then
    some (buffer.take piece.1 ++ (piece.2 ++ buffer.drop (piece.1 + piece.2.length)))
  else none

/-- One piece after the other. -/
def overwriteAll (buffer : List α) (pieces : List (Nat × List α)) : Option (List α) :=
  pieces.foldlM overwrite buffer

/-- The piece is cut out of the target at its offset. -/
structure PieceOf (target : List α) (piece : Nat × List α) : Prop where
  bound : piece.1 + piece.2.length ≤ target.length
  elems : ∀ i < piece.2.length, piece.2[i]? = target[piece.1 + i]?

/-- The piece lies over a position. -/
def Covers (piece : Nat × List α) (i : Nat) : Prop :=
  piece.1 ≤ i ∧ i < piece.1 + piece.2.length

instance (piece : Nat × List α) (i : Nat) : Decidable (Covers piece i) :=
  inferInstanceAs (Decidable (_ ∧ _))

/-- What one write leaves at each position. -/
theorem getElem?_overwrite {buffer' : List α} (h : overwrite buffer piece = some buffer') (i : Nat) :
    buffer'[i]? = if Covers piece i then piece.2[i - piece.1]? else buffer[i]? := by
  unfold overwrite at h
  split at h
  case isFalse => cases h
  rename_i hbound
  obtain rfl := Option.some.inj h
  have htake : (buffer.take piece.1).length = piece.1 := by
    rw [List.length_take]
    omega
  -- below the piece, in the piece, or above it
  by_cases hlow : i < piece.1
  · have hout : ¬ Covers piece i := fun hc => absurd hc.1 (by omega)
    rw [if_neg hout, List.getElem?_append_left (by omega), List.getElem?_take_of_lt hlow]
  · rw [List.getElem?_append_right (by omega), htake]
    by_cases hin : i < piece.1 + piece.2.length
    · rw [if_pos ⟨by omega, hin⟩, List.getElem?_append_left (by omega)]
    · have hout : ¬ Covers piece i := fun hc => hin hc.2
      rw [if_neg hout, List.getElem?_append_right (by omega), List.getElem?_drop]
      congr 1
      omega

theorem length_overwrite {buffer' : List α} (h : overwrite buffer piece = some buffer') :
    buffer'.length = buffer.length := by
  unfold overwrite at h
  split at h
  case isFalse => cases h
  rw [← Option.some.inj h]
  simp only [List.length_append, List.length_take, List.length_drop]
  omega

/-- **Pieces of one target**: what they cover holds the target, the rest is untouched. -/
theorem overwriteAll_pieces (pieces : List (Nat × List α)) (buffer : List α)
    (hpieces : ∀ piece ∈ pieces, PieceOf target piece) (hlen : buffer.length = target.length) :
    ∃ result, overwriteAll buffer pieces = some result ∧ result.length = target.length ∧
      ∀ i, ((∃ piece ∈ pieces, Covers piece i) → result[i]? = target[i]?) ∧
        ((∀ piece ∈ pieces, ¬ Covers piece i) → result[i]? = buffer[i]?) := by
  induction pieces generalizing buffer with
  | nil =>
      refine ⟨buffer, rfl, hlen, fun i => ⟨?_, fun _ => rfl⟩⟩
      rintro ⟨piece, hin, -⟩
      exact absurd hin List.not_mem_nil
  | cons piece pieces ih =>
      have hpiece := hpieces piece List.mem_cons_self
      obtain ⟨buffer', hwrite⟩ : ∃ buffer', overwrite buffer piece = some buffer' :=
        ⟨_, if_pos (by rw [hlen]; exact hpiece.bound)⟩
      obtain ⟨result, hresult, hlength, hpos⟩ := ih buffer'
        (fun p hp => hpieces p (List.mem_cons_of_mem _ hp))
        ((length_overwrite hwrite).trans hlen)
      refine ⟨result, ?_, hlength, fun i => ⟨?_, ?_⟩⟩
      · rw [overwriteAll, List.foldlM_cons, hwrite]
        exact hresult
      · rintro ⟨p, hp, hcovers⟩
        by_cases hrest : ∃ p ∈ pieces, Covers p i
        · exact (hpos i).1 hrest
        · -- written last by this piece
          have hnone : ∀ p ∈ pieces, ¬ Covers p i := fun p hp hc => hrest ⟨p, hp, hc⟩
          rcases List.mem_cons.mp hp with rfl | hp
          · have hlow := hcovers.1
            have hhigh := hcovers.2
            rw [(hpos i).2 hnone, getElem?_overwrite hwrite, if_pos hcovers,
              hpiece.elems (i - p.1) (by omega), Nat.add_sub_cancel' hlow]
          · exact absurd hcovers (hnone p hp)
      · intro hnone
        rw [(hpos i).2 fun p hp => hnone p (List.mem_cons_of_mem _ hp),
          getElem?_overwrite hwrite, if_neg (hnone piece List.mem_cons_self)]

/-- A list that holds the target at every position is the target. -/
theorem eq_of_covered {result : List α} (hlen : result.length = target.length)
    (hcovered : ∀ i < target.length, result[i]? = target[i]?) : result = target := by
  refine List.ext_getElem? fun i => ?_
  by_cases hi : i < target.length
  · exact hcovered i hi
  · rw [List.getElem?_eq_none (by omega), List.getElem?_eq_none (by omega)]

end Pieces
