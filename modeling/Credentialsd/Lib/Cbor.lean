import Mathlib.Data.List.Basic
import Mathlib.Tactic.Ring

/-!
# CBOR data items and their canonical encoding

A data item has one encoding here: definite lengths, and every argument in as few bytes
as it fits into. The order of the entries of a map is left open.
-/

namespace Cbor

theorem drop_append {α : Type} {data rest a : List α} {pos : Nat} (h : data.drop pos = a ++ rest) :
    data.drop (pos + a.length) = rest := by
  rw [← List.drop_drop, h, List.drop_left]

/-! ### Big-endian numbers -/

/-- The last `k` bytes of `n`, the most significant one first. -/
def bigEndian : Nat → Nat → List UInt8
  | 0, _ => []
  | k + 1, n => UInt8.ofNat (n / 256 ^ k) :: bigEndian k n

def fromBigEndian (b : List UInt8) : Nat := b.foldl (fun n x => 256 * n + x.toNat) 0

@[simp] theorem bigEndian_length (k n : Nat) : (bigEndian k n).length = k := by
  induction k with
  | zero => rfl
  | succ k ih => simp [bigEndian, ih]

theorem foldl_bigEndian (k n acc : Nat) :
    (bigEndian k n).foldl (fun n x => 256 * n + x.toNat) acc = acc * 256 ^ k + n % 256 ^ k := by
  induction k generalizing acc with
  | zero => simp [bigEndian, Nat.mod_one]
  | succ k ih =>
    have hbyte : (UInt8.ofNat (n / 256 ^ k)).toNat = n / 256 ^ k % 256 := UInt8.toNat_ofNat'
    have hsplit : n % 256 ^ (k + 1) = n % 256 ^ k + 256 ^ k * (n / 256 ^ k % 256) := by
      rw [pow_succ, Nat.mod_mul]
    simp only [bigEndian, List.foldl_cons, ih, hbyte]
    rw [hsplit, pow_succ]
    ring

theorem fromBigEndian_bigEndian {k n : Nat} (h : n < 256 ^ k) :
    fromBigEndian (bigEndian k n) = n := by
  rw [fromBigEndian, foldl_bigEndian, Nat.mod_eq_of_lt h]
  omega

theorem foldl_fromBigEndian (b : List UInt8) (acc : Nat) :
    b.foldl (fun n x => 256 * n + x.toNat) acc = acc * 256 ^ b.length + fromBigEndian b := by
  unfold fromBigEndian
  induction b generalizing acc with
  | nil => simp
  | cons x b ih =>
    rw [List.foldl_cons, List.foldl_cons, ih, ih (256 * 0 + x.toNat), List.length_cons, pow_succ]
    ring

theorem fromBigEndian_cons (x : UInt8) (b : List UInt8) :
    fromBigEndian (x :: b) = x.toNat * 256 ^ b.length + fromBigEndian b := by
  have hfirst : 256 * 0 + x.toNat = x.toNat := Nat.zero_add _
  exact (foldl_fromBigEndian b (256 * 0 + x.toNat)).trans (by rw [hfirst])

theorem fromBigEndian_lt (b : List UInt8) : fromBigEndian b < 256 ^ b.length := by
  induction b with
  | nil => decide
  | cons x b ih =>
    have hx : x.toNat < 256 := x.toNat_lt
    have hmul : x.toNat * 256 ^ b.length ≤ 255 * 256 ^ b.length :=
      Nat.mul_le_mul_right _ (by omega)
    rw [fromBigEndian_cons, List.length_cons, pow_succ]
    omega

theorem bigEndian_add (k a r : Nat) : bigEndian k (a * 256 ^ k + r) = bigEndian k r := by
  induction k generalizing a with
  | zero => rfl
  | succ k ih =>
    have hsplit : a * 256 ^ (k + 1) + r = a * 256 * 256 ^ k + r := by ring
    have hdiv : (a * 256 * 256 ^ k + r) / 256 ^ k = a * 256 + r / 256 ^ k := by
      rw [Nat.add_comm, Nat.add_mul_div_right _ _ (Nat.pow_pos (by decide)), Nat.add_comm]
    have hbyte : UInt8.ofNat (a * 256 + r / 256 ^ k) = UInt8.ofNat (r / 256 ^ k) := by
      apply UInt8.toNat_inj.mp
      rw [UInt8.toNat_ofNat', UInt8.toNat_ofNat']
      omega
    simp only [bigEndian]
    rw [hsplit, hdiv, hbyte, ih]

theorem bigEndian_fromBigEndian (b : List UInt8) : bigEndian b.length (fromBigEndian b) = b := by
  induction b with
  | nil => rfl
  | cons x b ih =>
    have hlt := fromBigEndian_lt b
    have hpos : 0 < 256 ^ b.length := Nat.pow_pos (by decide)
    have hdiv : (x.toNat * 256 ^ b.length + fromBigEndian b) / 256 ^ b.length = x.toNat := by
      rw [Nat.add_comm, Nat.add_mul_div_right _ _ hpos, Nat.div_eq_of_lt hlt, Nat.zero_add]
    rw [fromBigEndian_cons, List.length_cons]
    simp only [bigEndian]
    rw [hdiv, bigEndian_add, ih, UInt8.ofNat_toNat]

/-! ### Data items -/

/-- A data item. The number of `nint n` is `-1 - n`; floating-point numbers are given by their
bits. -/
inductive Item where
  | uint (n : Nat)
  | nint (n : Nat)
  | bytes (b : List UInt8)
  | text (s : String)
  | array (items : List Item)
  | map (entries : List (Item × Item))
  | tag (n : Nat) (item : Item)
  | simple (n : Nat)
  | half (bits : Nat)
  | single (bits : Nat)
  | double (bits : Nat)

def utf8 (s : String) : List UInt8 := s.toUTF8.data.toList

/-- A major type and an argument. -/
def head (major n : Nat) : List UInt8 :=
  if n < 24 then [UInt8.ofNat (32 * major + n)]
  else if n < 256 then UInt8.ofNat (32 * major + 24) :: bigEndian 1 n
  else if n < 65536 then UInt8.ofNat (32 * major + 25) :: bigEndian 2 n
  else if n < 4294967296 then UInt8.ofNat (32 * major + 26) :: bigEndian 4 n
  else UInt8.ofNat (32 * major + 27) :: bigEndian 8 n

mutual

def encode : Item → List UInt8
  | .uint n => head 0 n
  | .nint n => head 1 n
  | .bytes b => head 2 b.length ++ b
  | .text s => head 3 (utf8 s).length ++ utf8 s
  | .array items => head 4 items.length ++ encodeItems items
  | .map entries => head 5 entries.length ++ encodeEntries entries
  | .tag n item => head 6 n ++ encode item
  | .simple n => head 7 n
  | .half bits => UInt8.ofNat 249 :: bigEndian 2 bits
  | .single bits => UInt8.ofNat 250 :: bigEndian 4 bits
  | .double bits => UInt8.ofNat 251 :: bigEndian 8 bits

def encodeItems : List Item → List UInt8
  | [] => []
  | x :: xs => encode x ++ encodeItems xs

def encodeEntries : List (Item × Item) → List UInt8
  | [] => []
  | (k, v) :: rest => encode k ++ (encode v ++ encodeEntries rest)

end

mutual

/-- Numbers and lengths fit into 64 bits, and what stands for itself is not written otherwise. -/
def Fits : Item → Prop
  | .uint n => n < 2 ^ 64
  | .nint n => n < 2 ^ 64
  | .bytes b => b.length < 2 ^ 64
  | .text s => (utf8 s).length < 2 ^ 64
  | .array items => items.length < 2 ^ 64 ∧ FitItems items
  | .map entries => entries.length < 2 ^ 64 ∧ FitEntries entries
  | .tag n item => n < 2 ^ 64 ∧ Fits item
  | .simple n => n < 24 ∨ 32 ≤ n ∧ n < 256
  | .half bits => bits < 2 ^ 16
  | .single bits => bits < 2 ^ 32
  | .double bits => bits < 2 ^ 64

def FitItems : List Item → Prop
  | [] => True
  | x :: xs => Fits x ∧ FitItems xs

def FitEntries : List (Item × Item) → Prop
  | [] => True
  | (k, v) :: rest => Fits k ∧ Fits v ∧ FitEntries rest

end

mutual

/-- How deep items are nested; one that holds no other has the depth 1. -/
def depth : Item → Nat
  | .array items => depthItems items + 1
  | .map entries => depthEntries entries + 1
  | .tag _ item => depth item + 1
  | _ => 1

def depthItems : List Item → Nat
  | [] => 0
  | x :: xs => max (depth x) (depthItems xs)

def depthEntries : List (Item × Item) → Nat
  | [] => 0
  | (k, v) :: rest => max (max (depth k) (depth v)) (depthEntries rest)

end

theorem depth_pos (item : Item) : 0 < depth item := by
  cases item <;> exact Nat.succ_pos _

end Cbor
