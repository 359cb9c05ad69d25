import Credentialsd.CborReads

/-!
# The recursion limit of the interpreter

A reading that runs out of calls raises `RecursionError`; every other outcome is the one that it
has with more calls left. So how deep an encoding is nested decides which of the two it is.
-/

namespace Credentialsd

open Cbor (Item Tree)
open Cbor.Tree (At)

namespace Shim

/-! ### With more calls left -/

/-- The second outcome is the first one, unless that is for want of calls. -/
def Cut {α : Type} (x y : Except PyError α) : Prop := x = .error .recursionError ∨ x = y

namespace Cut

variable {α β : Type}

theorem refl (x : Except PyError α) : Cut x x := Or.inr rfl

theorem map {x y : Except PyError α} (h : Cut x y) (f : α → β) : Cut (x.map f) (y.map f) := by
  rcases h with rfl | rfl
  · exact Or.inl rfl
  · exact refl _

theorem bind {x y : Except PyError α} (h : Cut x y) {f g : α → Except PyError β}
    (hfg : ∀ a, Cut (f a) (g a)) : Cut (x >>= f) (y >>= g) := by
  rcases h with rfl | rfl
  · exact Or.inl rfl
  · cases x with
    | error e => exact refl _
    | ok a => exact hfg a

end Cut

section Loops

variable {α : Type} {body body' : α → Nat → Except PyError (α × Nat)}

theorem times_cut (hbody : ∀ acc pos, Cut (body acc pos) (body' acc pos)) (n : Nat) (acc : α)
    (pos : Nat) : Cut (times body n acc pos) (times body' n acc pos) := by
  induction n generalizing acc pos with
  | zero => exact Cut.refl _
  | succ n ih => exact (hbody acc pos).bind fun r => ih r.1 r.2

theorem untilBreak_cut (hbody : ∀ acc pos, Cut (body acc pos) (body' acc pos)) (data : Bytes)
    (fuel : Nat) (acc : α) (pos : Nat) :
    Cut (untilBreak data body fuel acc pos) (untilBreak data body' fuel acc pos) := by
  induction fuel generalizing acc pos with
  | zero => exact Cut.refl _
  | succ fuel ih =>
    rw [untilBreak, untilBreak]
    split
    · exact Cut.refl _
    · split
      · exact Cut.refl _
      · exact (hbody acc pos).bind fun r => ih r.1 r.2

end Loops

section Content

variable {read read' : Nat → Except PyError (PyValue × Nat)}

theorem readItem_cut (hread : ∀ pos, Cut (read pos) (read' pos)) (items : List PyValue)
    (pos : Nat) : Cut (readItem read items pos) (readItem read' items pos) :=
  (hread pos).bind fun _ => Cut.refl _

theorem readText_cut (hread : ∀ pos, Cut (read pos) (read' pos)) (s : String) (pos : Nat) :
    Cut (readText read s pos) (readText read' s pos) :=
  (hread pos).bind fun _ => Cut.refl _

theorem readByte_cut (hread : ∀ pos, Cut (read pos) (read' pos)) (s : String) (pos : Nat) :
    Cut (readByte read s pos) (readByte read' s pos) :=
  (hread pos).bind fun _ => Cut.refl _

theorem readEntry_cut (hread : ∀ pos, Cut (read pos) (read' pos))
    (entries : List (PyValue × PyValue)) (pos : Nat) :
    Cut (readEntry read entries pos) (readEntry read' entries pos) :=
  (hread pos).bind fun key => (hread key.2).bind fun _ => Cut.refl _

theorem readContent_cut (hread : ∀ pos, Cut (read pos) (read' pos)) (data : Bytes) (major : Nat)
    (argument : Option Nat) (pos : Nat) :
    Cut (readContent read data major argument pos) (readContent read' data major argument pos) := by
  fun_cases readContent read data major argument pos
  case case6 => exact (untilBreak_cut (readByte_cut hread) _ _ _ _).map _
  case case8 => exact (untilBreak_cut (readText_cut hread) _ _ _ _).map _
  case case9 => exact (times_cut (readItem_cut hread) _ _ _).map _
  case case10 => exact (untilBreak_cut (readItem_cut hread) _ _ _ _).map _
  case case11 => exact (times_cut (readEntry_cut hread) _ _ _).map _
  case case12 => exact (untilBreak_cut (readEntry_cut hread) _ _ _ _).map _
  -- the other branches call nothing
  all_goals exact Or.inr (by simp_all [readContent])

end Content

/-- More calls change nothing but `RecursionError`. -/
theorem readValue_cut {limit more : Nat} (h : limit ≤ more) (data : Bytes) (pos : Nat) :
    Cut (readValue limit data pos) (readValue more data pos) := by
  induction limit generalizing more pos with
  | zero => exact Or.inl rfl
  | succ limit ih =>
    obtain ⟨more, rfl⟩ := Nat.exists_eq_add_of_lt h
    rw [readValue, readValue]
    split
    · exact Cut.refl _
    · refine (Cut.refl _).bind fun r => readContent_cut (fun p => ?_) _ _ _ _
      exact ih (by omega) p

/-- What has a value is read if it is not nested too deep, and otherwise the calls run out. -/
theorem parse_limit {data : Bytes} {t : Tree} {stop : Nat} {v : PyValue} (hat : At data 0 t stop)
    (hvalue : value t = .ok v) (limit : Nat) :
    parse limit data = if t.depth ≤ limit then .ok (v, stop) else .error .recursionError := by
  split
  · rename_i hdepth
    rw [parse_at hat hdepth, hvalue]
    rfl
  · rename_i hdeep
    have hlimit : limit ≤ t.depth := Nat.le_of_not_le hdeep
    have hread : parse t.depth data = .ok (v, stop) := by
      rw [parse_at hat (Nat.le_refl _), hvalue]
      rfl
    rcases readValue_cut hlimit data 0 with hcut | hsame
    · exact hcut
    · -- the tree of such a reading would be this one
      obtain ⟨t', ⟨hat', hdepth⟩, -⟩ := (parse_iff limit data v stop).mp (hsame.trans hread)
      obtain ⟨rfl, -⟩ := Tree.At.unique t t' hat hat'
      exact absurd hdepth hdeep

end Shim

end Credentialsd
