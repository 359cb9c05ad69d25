import Credentialsd.Lib.Base64Url

/-!
# A decoder of base64 that goes over what is no digit

`binascii.a2b_base64` without `strict_mode`: the digits come one by one, four make three bytes,
and the end of the text or enough padding ends it. Characters that are neither are left out.
-/

namespace Binascii

open Base64Url

/-- `quadPos` digits of a group were read, and `leftchar` are the bits of them that have not come
out yet. -/
structure Quad where
  quadPos : Fin 4
  leftchar : Nat
  pads : Nat

/-- `table_a2b_base64`, with the two digits of the alphabet for URLs beside those that they are
replaced by. -/
def table (c : Char) : Option (Fin 64) :=
  if c = '+' then some ⟨62, by decide⟩ else if c = '/' then some ⟨63, by decide⟩ else value? c

/- A digit: the byte that comes out, and the state after it. -/
def Quad.digit (q : Quad) (v : Nat) : Option UInt8 × Quad :=
  match q.quadPos with
  | 0 => (none, ⟨1, v, 0⟩)
  | 1 => (some (UInt8.ofNat (q.leftchar * 4 + v / 16)), ⟨2, v % 16, 0⟩)
  | 2 => (some (UInt8.ofNat (q.leftchar * 16 + v / 4)), ⟨3, v % 4, 0⟩)
  | 3 => (some (UInt8.ofNat (q.leftchar * 64 + v)), ⟨0, 0, 0⟩)

def incorrect (q : Quad) (out : List UInt8) : Except String (List UInt8) :=
  if q.quadPos = 0 then .ok out
  else if q.quadPos = 1 then
    .error ("Invalid base64-encoded string: number of data characters (" ++
      toString (out.length / 3 * 4 + 1) ++ ") cannot be 1 more than a multiple of 4")
  else .error "Incorrect padding"

def go (q : Quad) (out : List UInt8) : List Char → Except String (List UInt8)
  | [] => incorrect q out
  | c :: cs =>
    if c = '=' then
      if 2 ≤ q.quadPos.val then
        if 4 ≤ q.quadPos.val + (q.pads + 1) then .ok out
        else go { q with pads := q.pads + 1 } out cs
      else go q out cs
    else
      match table c with
      | none => go q out cs
      | some v => go (q.digit v.val).2 (out ++ (q.digit v.val).1.toList) cs

def start : Quad := ⟨0, 0, 0⟩

def a2bBase64 (cs : List Char) : Except String (List UInt8) := go start [] cs

/-! ### Texts of digits -/

theorem table_digit (n : Fin 64) : table (digit n) = some n := by
  revert n
  decide +kernel

theorem go_digit (q : Quad) (out : List UInt8) (d : Fin 64) (cs : List Char) :
    go q out (digit d :: cs) = go (q.digit d.val).2 (out ++ (q.digit d.val).1.toList) cs := by
  have hne : digit d ≠ '=' := bne_iff_ne.mp (digit_ne d).2
  rw [go, if_neg hne, table_digit]

/- What a text of `n` digits is filled up with. It may be more than it takes to a multiple of four. -/
def padding (n : Nat) : List Char := List.replicate (n % 4) '='

/-- Four digits are three bytes, and the next group begins. -/
theorem go_group (out : List UInt8) (a b c d : Fin 64) (cs : List Char) :
    go start out (digit a :: digit b :: digit c :: digit d :: cs) =
      go start (out ++ [UInt8.ofNat (a.val * 4 + b.val / 16),
        UInt8.ofNat (b.val % 16 * 16 + c.val / 4), UInt8.ofNat (c.val % 4 * 64 + d.val)]) cs := by
  rw [go_digit, go_digit, go_digit, go_digit]
  simp [start, Quad.digit]

theorem padding_add (n : Nat) : padding (n + 4) = padding n := by
  rw [padding, padding, Nat.add_mod_right]

theorem go_digits : ∀ (ds : List (Fin 64)) (out : List UInt8),
    (∀ b, bytes ds = some b → go start out (ds.map digit ++ padding ds.length) = .ok (out ++ b)) ∧
      (bytes ds = none → ∃ e, go start out (ds.map digit ++ padding ds.length) = .error e)
  | a :: b :: c :: d :: rest, out => by
    have hlength : (a :: b :: c :: d :: rest).length = rest.length + 4 := rfl
    obtain ⟨hsome, hnone⟩ := go_digits rest (out ++ [UInt8.ofNat (a.val * 4 + b.val / 16),
      UInt8.ofNat (b.val % 16 * 16 + c.val / 4), UInt8.ofNat (c.val % 4 * 64 + d.val)])
    simp only [List.map_cons, List.cons_append, go_group, hlength, padding_add]
    constructor
    · intro bs hbs
      obtain ⟨more, hmore, rfl⟩ := Option.map_eq_some_iff.mp hbs
      rw [hsome more hmore, List.append_assoc]
      rfl
    · intro hbs
      exact hnone (Option.map_eq_none_iff.mp hbs)
  | [a, b, c], out => by
    refine ⟨fun bs hbs => ?_, fun hbs => by cases hbs⟩
    cases hbs
    simp only [List.map_cons, List.map_nil, List.cons_append, List.nil_append, go_digit]
    simp [padding, start, Quad.digit, go]
  | [a, b], out => by
    refine ⟨fun bs hbs => ?_, fun hbs => by cases hbs⟩
    cases hbs
    simp only [List.map_cons, List.map_nil, List.cons_append, List.nil_append, go_digit]
    simp [padding, start, Quad.digit, go]
  | [a], out => by
    refine ⟨fun bs hbs => absurd hbs (Option.some_ne_none bs).symm, fun _ => ?_⟩
    simp only [List.map_cons, List.map_nil, List.cons_append, List.nil_append, go_digit]
    simp [padding, start, Quad.digit, go, incorrect]
  | [], out => by
    refine ⟨fun bs hbs => ?_, fun hbs => by cases hbs⟩
    cases hbs
    simp [padding, go, start, incorrect]

end Binascii
