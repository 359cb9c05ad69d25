import Mathlib

/-!
# Transfers in chunks

A source of `size` items is read from a position in chunks of given lengths, a
chunk being cut off at the end of the source. The positions after the chunks,
and when all of them stay below a bound.
-/

namespace Chunks

/- The position after a chunk of at most `len` items. -/
def advance (size pos len : Nat) : Nat := pos + min (size - pos) len

theorem advance_eq {size pos : Nat} (h : pos ≤ size) (len : Nat) :
    advance size pos len = min size (pos + len) := by
  unfold advance
  omega

theorem advance_le {size pos : Nat} (h : pos ≤ size) (len : Nat) : advance size pos len ≤ size := by
  rw [advance_eq h]
  exact Nat.min_le_left _ _

def Within (bound size : Nat) : Nat → List Nat → Prop
  | _, [] => True
  | pos, len :: lens =>
    advance size pos len ≤ bound ∧ Within bound size (advance size pos len) lens

/-- The chunks stay below the bound iff the source ends there or the chunks do. -/
theorem within_iff {bound size : Nat} {pos : Nat} (hsize : pos ≤ size) (hbound : pos ≤ bound)
    (lens : List Nat) :
    Within bound size pos lens ↔ size ≤ bound ∨ pos + lens.sum ≤ bound := by
  induction lens generalizing pos with
  | nil =>
    rw [List.sum_nil]
    exact ⟨fun _ => Or.inr hbound, fun _ => trivial⟩
  | cons len lens ih =>
    rw [List.sum_cons]
    have hnext := advance_le hsize len
    have heq := advance_eq hsize len
    constructor
    · rintro ⟨hle, hrest⟩
      rcases (ih hnext hle).mp hrest with hs | hsum
      · exact Or.inl hs
      · omega
    · intro h
      have hle : advance size pos len ≤ bound := by omega
      refine ⟨hle, (ih hnext hle).mpr ?_⟩
      omega

end Chunks
