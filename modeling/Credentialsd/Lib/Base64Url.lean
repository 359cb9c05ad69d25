import Mathlib.Data.Fintype.Basic
import Mathlib.Data.List.TakeWhile

/-!
# Base64 with the alphabet for URLs and without padding

Three bytes are four digits, and a rest of one or two bytes is two or three digits. No two
byte strings have the same text, and a decoder gives back the bytes. It takes other texts too:
blanks between the digits, padding at the end, and bits left over in the last digit.
-/

namespace Base64Url

def alphabet : String := "ABCDEFGHIJKLMNOPQRSTUVWXYZabcdefghijklmnopqrstuvwxyz0123456789-_"

def digit (n : Fin 64) : Char := alphabet.toList.getD n 'A'

def digits : List UInt8 → List (Fin 64)
  | a :: b :: c :: rest =>
    Fin.ofNat 64 (a.toNat / 4) :: Fin.ofNat 64 (a.toNat % 4 * 16 + b.toNat / 16) ::
      Fin.ofNat 64 (b.toNat % 16 * 4 + c.toNat / 64) :: Fin.ofNat 64 c.toNat :: digits rest
  | [a, b] =>
    [Fin.ofNat 64 (a.toNat / 4), Fin.ofNat 64 (a.toNat % 4 * 16 + b.toNat / 16),
      Fin.ofNat 64 (b.toNat % 16 * 4)]
  | [a] => [Fin.ofNat 64 (a.toNat / 4), Fin.ofNat 64 (a.toNat % 4 * 16)]
  | [] => []

def encode (b : List UInt8) : String := String.ofList ((digits b).map digit)

theorem digit_injective : Function.Injective digit := by
  decide +kernel

theorem ofNat_eq {m n : Nat} (h : Fin.ofNat 64 m = Fin.ofNat 64 n) : m % 64 = n % 64 :=
  congrArg Fin.val h

theorem byte_eq {a b : UInt8} (h : a.toNat = b.toNat) : a = b := UInt8.toNat_inj.mp h

theorem digits_injective : ∀ x y : List UInt8, digits x = digits y → x = y
  | a :: b :: c :: rest, [], h => by simp [digits] at h
  | a :: b :: c :: rest, [a'], h => by simp [digits] at h
  | a :: b :: c :: rest, [a', b'], h => by simp [digits] at h
  | a :: b :: c :: rest, a' :: b' :: c' :: rest', h => by
    simp only [digits, List.cons.injEq] at h
    obtain ⟨h1, h2, h3, h4, hrest⟩ := h
    have h1 := ofNat_eq h1
    have h2 := ofNat_eq h2
    have h3 := ofNat_eq h3
    have h4 := ofNat_eq h4
    have ha := a.toNat_lt
    have hb := b.toNat_lt
    have hc := c.toNat_lt
    have ha' := a'.toNat_lt
    have hb' := b'.toNat_lt
    have hc' := c'.toNat_lt
    rw [byte_eq (a := a) (b := a') (by omega), byte_eq (a := b) (b := b') (by omega),
      byte_eq (a := c) (b := c') (by omega), digits_injective rest rest' hrest]
  | [a, b], [], h => by simp [digits] at h
  | [a, b], [a'], h => by simp [digits] at h
  | [a, b], [a', b'], h => by
    simp only [digits, List.cons.injEq, and_true] at h
    obtain ⟨h1, h2, h3⟩ := h
    have h1 := ofNat_eq h1
    have h2 := ofNat_eq h2
    have h3 := ofNat_eq h3
    have ha := a.toNat_lt
    have hb := b.toNat_lt
    have ha' := a'.toNat_lt
    have hb' := b'.toNat_lt
    rw [byte_eq (a := a) (b := a') (by omega), byte_eq (a := b) (b := b') (by omega)]
  | [a, b], a' :: b' :: c' :: rest', h => by simp [digits] at h
  | [a], [], h => by simp [digits] at h
  | [a], [a'], h => by
    simp only [digits, List.cons.injEq, and_true] at h
    obtain ⟨h1, h2⟩ := h
    have h1 := ofNat_eq h1
    have h2 := ofNat_eq h2
    have ha := a.toNat_lt
    have ha' := a'.toNat_lt
    rw [byte_eq (a := a) (b := a') (by omega)]
  | [a], [a', b'], h => by simp [digits] at h
  | [a], a' :: b' :: c' :: rest', h => by simp [digits] at h
  | [], [], _ => rfl
  | [], [a'], h => by simp [digits] at h
  | [], [a', b'], h => by simp [digits] at h
  | [], a' :: b' :: c' :: rest', h => by simp [digits] at h

theorem encode_injective : Function.Injective encode := by
  intro x y h
  have hchars : (digits x).map digit = (digits y).map digit := String.ofList_injective h
  exact digits_injective x y (List.map_injective_iff.mpr digit_injective hchars)

/-! ### Decoding -/

def value? (c : Char) : Option (Fin 64) := (List.finRange 64).find? fun n => digit n == c

/- Of a rest of two or three digits the bits that are left over are dropped. -/
def bytes : List (Fin 64) → Option (List UInt8)
  | a :: b :: c :: d :: rest =>
    (bytes rest).map fun bs => UInt8.ofNat (a.val * 4 + b.val / 16) ::
      UInt8.ofNat (b.val % 16 * 16 + c.val / 4) :: UInt8.ofNat (c.val % 4 * 64 + d.val) :: bs
  | [a, b, c] =>
    some [UInt8.ofNat (a.val * 4 + b.val / 16), UInt8.ofNat (b.val % 16 * 16 + c.val / 4)]
  | [a, b] => some [UInt8.ofNat (a.val * 4 + b.val / 16)]
  | [_] => none
  | [] => some []

def isBlank (c : Char) : Bool :=
  c == '\t' || c == '\n' || c == '\x0c' || c == '\r' || c == ' '

/-- A text is decoded. Padding may be left out, but if there is any, it fills up the last four. -/
def decode (s : String) : Option (List UInt8) :=
  let chars := s.toList.filter fun c => !isBlank c
  let body := chars.takeWhile (· != '=')
  let padding := chars.dropWhile (· != '=')
  if padding = [] ∨ body.length % 4 = 3 ∧ padding = ['='] ∨
      body.length % 4 = 2 ∧ padding = ['=', '='] then
    (body.mapM value?).bind bytes
  else none

theorem value?_digit (n : Fin 64) : value? (digit n) = some n := by
  revert n
  decide +kernel

theorem digit_ne (n : Fin 64) : isBlank (digit n) = false ∧ (digit n != '=') = true := by
  revert n
  decide +kernel

theorem mapM_value? (ds : List (Fin 64)) : (ds.map digit).mapM value? = some ds := by
  induction ds with
  | nil => rfl
  | cons d ds ih =>
    rw [List.map_cons, List.mapM_cons, value?_digit, ih]
    rfl

theorem bytes_digits : ∀ b : List UInt8, bytes (digits b) = some b
  | a :: b :: c :: rest => by
    have ha := a.toNat_lt
    have hb := b.toNat_lt
    have hc := c.toNat_lt
    unfold digits bytes
    rw [bytes_digits rest, Option.map_some]
    simp only [Fin.ofNat, Option.some.injEq, List.cons.injEq, and_true]
    refine ⟨byte_eq ?_, byte_eq ?_, byte_eq ?_⟩
    · rw [UInt8.toNat_ofNat']
      omega
    · rw [UInt8.toNat_ofNat']
      omega
    · rw [UInt8.toNat_ofNat']
      omega
  | [a, b] => by
    have ha := a.toNat_lt
    have hb := b.toNat_lt
    unfold digits bytes
    simp only [Fin.ofNat, Option.some.injEq, List.cons.injEq, and_true]
    refine ⟨byte_eq ?_, byte_eq ?_⟩
    · rw [UInt8.toNat_ofNat']
      omega
    · rw [UInt8.toNat_ofNat']
      omega
  | [a] => by
    have ha := a.toNat_lt
    unfold digits bytes
    simp only [Fin.ofNat, Option.some.injEq, List.cons.injEq, and_true]
    refine byte_eq ?_
    rw [UInt8.toNat_ofNat']
    omega
  | [] => rfl

/-- A text of digits is what they stand for. -/
theorem decode_digits (ds : List (Fin 64)) : decode (String.ofList (ds.map digit)) = bytes ds := by
  have hchars : (ds.map digit).filter (fun c => !isBlank c) = ds.map digit := by
    rw [List.filter_eq_self]
    intro c hc
    obtain ⟨n, -, rfl⟩ := List.mem_map.mp hc
    rw [(digit_ne n).1]
    rfl
  have hdigits : ∀ c ∈ ds.map digit, (c != '=') = true := by
    intro c hc
    obtain ⟨n, -, rfl⟩ := List.mem_map.mp hc
    exact (digit_ne n).2
  unfold decode
  simp only [String.toList_ofList, hchars]
  rw [List.takeWhile_eq_self_iff.mpr hdigits, List.dropWhile_eq_nil_iff.mpr hdigits,
    if_pos (Or.inl rfl), mapM_value?, Option.bind_some]

/-- The bytes come back. -/
theorem decode_encode (b : List UInt8) : decode (encode b) = some b :=
  (decode_digits (digits b)).trans (bytes_digits b)

end Base64Url
