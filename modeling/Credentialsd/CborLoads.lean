import Credentialsd.CborParser
import Mathlib.Tactic.IntervalCases

/-!
# What the parser makes of a data item

`loaded` says it without positions. Where it is an error, so is the reading.
-/

namespace Credentialsd

open Cbor (Item drop_append)

namespace Shim

def constant : Nat → Except PyError PyValue
  | 20 => .ok (.bool false)
  | 21 => .ok (.bool true)
  | 22 => .ok .none
  | 23 => .ok .none
  | _ => .error (.exception "Float parsing not implemented")

mutual

def loaded : Item → Except PyError PyValue
  | .uint n => .ok (.int n)
  | .nint n => .ok (.int (-1 - n))
  | .bytes b => .ok (.bytes b)
  | .text s => .ok (.str s)
  | .array items => (loadedItems [] items).map .list
  | .map entries => (loadedEntries [] entries).map .dict
  | .tag _ _ => .error (.exception "Tag support not implemented")
  | .simple n => constant n
  | .half bits => constant bits
  | .single bits => constant bits
  | .double bits => constant bits

def loadedItems (acc : List PyValue) : List Item → Except PyError (List PyValue)
  | [] => .ok acc
  | x :: xs => do
    let value ← loaded x
    loadedItems (acc ++ [value]) xs

def loadedEntries (acc : List (PyValue × PyValue)) :
    List (Item × Item) → Except PyError (List (PyValue × PyValue))
  | [] => .ok acc
  | (k, v) :: rest => do
    let key ← loaded k
    let value ← loaded v
    let acc ← PyValue.setItem acc key value
    loadedEntries acc rest

end

theorem map_ok {α β : Type} {x : Except PyError α} {f : α → β} {b : β} (h : x.map f = .ok b) :
    ∃ a, x = .ok a ∧ f a = b := by
  cases x with
  | error e => cases h
  | ok a =>
    cases h
    exact ⟨a, rfl, rfl⟩

theorem bind_ok {α β : Type} {x : Except PyError α} {f : α → Except PyError β} {b : β}
    (h : x >>= f = .ok b) : ∃ a, x = .ok a ∧ f a = .ok b := by
  cases x with
  | error e => cases h
  | ok a => exact ⟨a, rfl, h⟩

/-! ### Reading heads and strings -/

theorem unpack_bigEndian {k n : Nat} (h : n < 256 ^ k) :
    unpack k (Cbor.bigEndian k n) = .ok n := by
  rw [unpack, if_pos (Cbor.bigEndian_length k n), Cbor.fromBigEndian_bigEndian h]

theorem toNat_first {major info : Nat} (hmajor : major < 8) (hinfo : info < 32) :
    (UInt8.ofNat (32 * major + info)).toNat = 32 * major + info := by
  rw [UInt8.toNat_ofNat']
  omega

/-- A first byte and `k` bytes of argument. -/
theorem readArgument_long (k info : Nat) {n : Nat} (rest : Bytes) (h : n < 256 ^ k)
    (hinfo : k = 1 ∧ info = 24 ∨ k = 2 ∧ info = 25 ∨ k = 4 ∧ info = 26 ∨ k = 8 ∧ info = 27) :
    readArgument info (Cbor.bigEndian k n ++ rest) = .ok (some n, k) := by
  have hread := unpack_bigEndian h
  rcases hinfo with ⟨rfl, rfl⟩ | ⟨rfl, rfl⟩ | ⟨rfl, rfl⟩ | ⟨rfl, rfl⟩ <;>
    simp [readArgument, hread, Except.map]

theorem readValue_first (major : Nat) {limit : Nat} {data : Bytes} {pos info k : Nat}
    {argument : Option Nat} {rest : Bytes}
    (hdrop : data.drop pos = UInt8.ofNat (32 * major + info) :: rest)
    (hmajor : major < 8) (hinfo : info < 32) (hread : readArgument info rest = .ok (argument, k)) :
    readValue (limit + 1) data pos =
      readContent (readValue limit data) data major argument (pos + 1 + k) := by
  have hnat := toNat_first hmajor hinfo
  have hmod : (32 * major + info) % 32 = info := by omega
  have hdiv : (32 * major + info) / 32 = major := by omega
  simp only [readValue, hdrop, hnat, hmod, hdiv, hread]
  rfl

theorem readValue_head {limit : Nat} {data : Bytes} {pos major n : Nat} {rest : Bytes}
    (hmajor : major < 8) (hn : n < 2 ^ 64) (hdrop : data.drop pos = Cbor.head major n ++ rest) :
    readValue (limit + 1) data pos =
      readContent (readValue limit data) data major (some n) (pos + (Cbor.head major n).length) := by
  unfold Cbor.head at hdrop ⊢
  split at hdrop
  · rename_i h24
    rw [if_pos h24]
    have hread : readArgument n rest = .ok (some n, 0) := by simp [readArgument, h24]
    exact readValue_first major hdrop hmajor (by omega) hread
  · rename_i h24
    rw [if_neg h24]
    split at hdrop
    · rename_i h256
      have hread := readArgument_long 1 24 rest h256 (by simp)
      rw [if_pos h256, readValue_first major hdrop hmajor (by omega) hread]
      simp [Nat.add_assoc]
    · rename_i h256
      rw [if_neg h256]
      split at hdrop
      · rename_i h65536
        have hread := readArgument_long 2 25 rest h65536 (by simp)
        rw [if_pos h65536, readValue_first major hdrop hmajor (by omega) hread]
        simp [Nat.add_assoc]
      · rename_i h65536
        rw [if_neg h65536]
        split at hdrop
        · rename_i h32
          have hread := readArgument_long 4 26 rest h32 (by simp)
          rw [if_pos h32, readValue_first major hdrop hmajor (by omega) hread]
          simp [Nat.add_assoc]
        · rename_i h32
          have hread := readArgument_long 8 27 rest hn (by simp)
          rw [if_neg h32, readValue_first major hdrop hmajor (by omega) hread]
          simp [Nat.add_assoc]

theorem slice_append {data rest a : Bytes} {pos : Nat} (h : data.drop pos = a ++ rest) :
    slice data pos (pos + a.length) = a := by
  rw [slice, List.drop_take, h, Nat.add_sub_cancel_left, List.take_left]

theorem utf8Decode_utf8 (s : String) : utf8Decode (Cbor.utf8 s) = .ok s := by
  have hbytes : (Cbor.utf8 s).toByteArray = s.toUTF8 := by
    apply ByteArray.ext
    apply Array.ext'
    simp [Cbor.utf8]
  have hvalid : String.fromUTF8? s.toUTF8 = some s := by
    unfold String.fromUTF8?
    split
    · rfl
    · rename_i h
      exact absurd s.isValidUTF8 h
  simp only [utf8Decode, hbytes, hvalid]
  rfl

/-! ### Reading an encoded item -/

theorem readContent_constant (read : Nat → Except PyError (PyValue × Nat)) (data : Bytes)
    (n pos : Nat) :
    readContent read data 7 (some n) pos = (constant n).map fun v => (v, pos) := by
  unfold readContent constant
  split <;> simp_all [Except.map]

mutual

theorem readValue_encode : ∀ (item : Item) (limit : Nat) (data : Bytes) (pos : Nat) (rest : Bytes),
    Cbor.Fits item → Cbor.depth item ≤ limit → data.drop pos = Cbor.encode item ++ rest →
    readValue limit data pos =
      (loaded item).map fun v => (v, pos + (Cbor.encode item).length)
  | item, 0, _, _, _, _, hdepth, _ => absurd hdepth (Nat.not_le_of_lt (Cbor.depth_pos item))
  | .uint n, limit + 1, data, pos, rest, hfits, _, hdrop => by
    rw [readValue_head (by omega) hfits hdrop]
    rfl
  | .nint n, limit + 1, data, pos, rest, hfits, _, hdrop => by
    rw [readValue_head (by omega) hfits hdrop]
    rfl
  | .bytes b, limit + 1, data, pos, rest, hfits, _, hdrop => by
    simp only [Cbor.encode, List.append_assoc] at hdrop
    have hslice := slice_append (drop_append hdrop)
    rw [readValue_head (by omega) hfits hdrop]
    simp only [readContent, hslice, loaded, Except.map, Cbor.encode, List.length_append,
      ← Nat.add_assoc]
  | .text s, limit + 1, data, pos, rest, hfits, _, hdrop => by
    simp only [Cbor.encode, List.append_assoc] at hdrop
    have hslice := slice_append (drop_append hdrop)
    rw [readValue_head (by omega) hfits hdrop]
    simp only [readContent, hslice, utf8Decode_utf8, loaded, Except.map, Cbor.encode,
      List.length_append, ← Nat.add_assoc]
  | .array items, limit + 1, data, pos, rest, hfits, hdepth, hdrop => by
    simp only [Cbor.encode, List.append_assoc] at hdrop
    have hdepth : Cbor.depthItems items ≤ limit := Nat.le_of_succ_le_succ hdepth
    have hitems := times_readItem items limit data _ rest [] hfits.2 hdepth (drop_append hdrop)
    rw [readValue_head (by omega) hfits.1 hdrop]
    simp only [readContent, hitems, loaded, Cbor.encode, List.length_append, Nat.add_assoc]
    cases loadedItems [] items <;> rfl
  | .map entries, limit + 1, data, pos, rest, hfits, hdepth, hdrop => by
    simp only [Cbor.encode, List.append_assoc] at hdrop
    have hdepth : Cbor.depthEntries entries ≤ limit := Nat.le_of_succ_le_succ hdepth
    have hentries :=
      times_readEntry entries limit data _ rest [] hfits.2 hdepth (drop_append hdrop)
    rw [readValue_head (by omega) hfits.1 hdrop]
    simp only [readContent, hentries, loaded, Cbor.encode, List.length_append, Nat.add_assoc]
    cases loadedEntries [] entries <;> rfl
  | .tag n item, limit + 1, data, pos, rest, hfits, _, hdrop => by
    simp only [Cbor.encode, List.append_assoc] at hdrop
    rw [readValue_head (by omega) hfits.1 hdrop]
    rfl
  | .simple n, limit + 1, data, pos, rest, hfits, _, hdrop => by
    have hn : n < 2 ^ 64 := by
      simp only [Cbor.Fits] at hfits
      omega
    rw [readValue_head (by omega) hn hdrop, readContent_constant]
    rfl
  | .half bits, limit + 1, data, pos, rest, hfits, _, hdrop => by
    have hread := readArgument_long 2 25 rest (show bits < 256 ^ 2 from hfits) (by simp)
    rw [readValue_first 7 hdrop (by omega) (by omega) hread, readContent_constant]
    simp [loaded, Cbor.encode, Nat.add_assoc]
  | .single bits, limit + 1, data, pos, rest, hfits, _, hdrop => by
    have hread := readArgument_long 4 26 rest (show bits < 256 ^ 4 from hfits) (by simp)
    rw [readValue_first 7 hdrop (by omega) (by omega) hread, readContent_constant]
    simp [loaded, Cbor.encode, Nat.add_assoc]
  | .double bits, limit + 1, data, pos, rest, hfits, _, hdrop => by
    have hread := readArgument_long 8 27 rest (show bits < 256 ^ 8 from hfits) (by simp)
    rw [readValue_first 7 hdrop (by omega) (by omega) hread, readContent_constant]
    simp [loaded, Cbor.encode, Nat.add_assoc]

theorem times_readItem : ∀ (items : List Item) (limit : Nat) (data : Bytes) (pos : Nat)
    (rest : Bytes) (acc : List PyValue), Cbor.FitItems items → Cbor.depthItems items ≤ limit →
    data.drop pos = Cbor.encodeItems items ++ rest →
    times (readItem (readValue limit data)) items.length acc pos =
      (loadedItems acc items).map fun vs => (vs, pos + (Cbor.encodeItems items).length)
  | [], _, _, _, _, _, _, _, _ => rfl
  | x :: xs, limit, data, pos, rest, acc, hfits, hdepth, hdrop => by
    simp only [Cbor.encodeItems, List.append_assoc] at hdrop
    simp only [Cbor.depthItems] at hdepth
    have hx := readValue_encode x limit data pos _ hfits.1 (by omega) hdrop
    simp only [List.length_cons, times, readItem, hx, loadedItems]
    cases hvalue : loaded x with
    | error e => rfl
    | ok value =>
      have hxs := times_readItem xs limit data _ rest (acc ++ [value]) hfits.2 (by omega)
        (drop_append hdrop)
      simp only [Cbor.encodeItems, List.length_append, ← Nat.add_assoc]
      exact hxs

theorem times_readEntry : ∀ (entries : List (Item × Item)) (limit : Nat) (data : Bytes) (pos : Nat)
    (rest : Bytes) (acc : List (PyValue × PyValue)), Cbor.FitEntries entries →
    Cbor.depthEntries entries ≤ limit → data.drop pos = Cbor.encodeEntries entries ++ rest →
    times (readEntry (readValue limit data)) entries.length acc pos =
      (loadedEntries acc entries).map fun es => (es, pos + (Cbor.encodeEntries entries).length)
  | [], _, _, _, _, _, _, _, _ => rfl
  | (k, v) :: more, limit, data, pos, rest, acc, hfits, hdepth, hdrop => by
    simp only [Cbor.encodeEntries, List.append_assoc] at hdrop
    simp only [Cbor.depthEntries] at hdepth
    have hk := readValue_encode k limit data pos _ hfits.1 (by omega) hdrop
    have hv := readValue_encode v limit data _ _ hfits.2.1 (by omega) (drop_append hdrop)
    simp only [List.length_cons, times, readEntry, hk, loadedEntries]
    cases loaded k with
    | error e => rfl
    | ok key =>
      cases hvalue : loaded v with
      | error e => simp [Except.map, Bind.bind, Except.bind, hv, hvalue]
      | ok value =>
        cases hset : PyValue.setItem acc key value with
        | error e => simp [Except.map, Bind.bind, Except.bind, hv, hvalue, hset]
        | ok acc' =>
          have hmore := times_readEntry more limit data _ rest acc' hfits.2.2 (by omega)
            (drop_append (drop_append hdrop))
          simp only [Except.map, Bind.bind, Except.bind, hv, hvalue, hset]
          simp only [Cbor.encodeEntries, List.length_append, ← Nat.add_assoc]
          exact hmore

end

mutual

/-- What can be read is nested no deeper than the calls may be. -/
theorem depth_le_of_readValue : ∀ (item : Item) (limit : Nat) (data : Bytes) (pos : Nat)
    (rest : Bytes) (r : PyValue × Nat), Cbor.Fits item → data.drop pos = Cbor.encode item ++ rest →
    readValue limit data pos = .ok r → Cbor.depth item ≤ limit
  | _, 0, _, _, _, _, _, _, hread => nomatch hread
  | .array items, limit + 1, data, pos, rest, r, hfits, hdrop, hread => by
    simp only [Cbor.encode, List.append_assoc] at hdrop
    rw [readValue_head (by omega) hfits.1 hdrop] at hread
    obtain ⟨out, hitems, -⟩ := map_ok hread
    exact Nat.succ_le_succ
      (depthItems_le_of_times items limit data _ rest [] out hfits.2 (drop_append hdrop) hitems)
  | .map entries, limit + 1, data, pos, rest, r, hfits, hdrop, hread => by
    simp only [Cbor.encode, List.append_assoc] at hdrop
    rw [readValue_head (by omega) hfits.1 hdrop] at hread
    obtain ⟨out, hentries, -⟩ := map_ok hread
    exact Nat.succ_le_succ
      (depthEntries_le_of_times entries limit data _ rest [] out hfits.2 (drop_append hdrop)
        hentries)
  | .tag n item, limit + 1, data, pos, rest, r, hfits, hdrop, hread => by
    simp only [Cbor.encode, List.append_assoc] at hdrop
    rw [readValue_head (by omega) hfits.1 hdrop] at hread
    cases hread
  | .uint _, _ + 1, _, _, _, _, _, _, _ => Nat.succ_pos _
  | .nint _, _ + 1, _, _, _, _, _, _, _ => Nat.succ_pos _
  | .bytes _, _ + 1, _, _, _, _, _, _, _ => Nat.succ_pos _
  | .text _, _ + 1, _, _, _, _, _, _, _ => Nat.succ_pos _
  | .simple _, _ + 1, _, _, _, _, _, _, _ => Nat.succ_pos _
  | .half _, _ + 1, _, _, _, _, _, _, _ => Nat.succ_pos _
  | .single _, _ + 1, _, _, _, _, _, _, _ => Nat.succ_pos _
  | .double _, _ + 1, _, _, _, _, _, _, _ => Nat.succ_pos _

theorem depthItems_le_of_times : ∀ (items : List Item) (limit : Nat) (data : Bytes) (pos : Nat)
    (rest : Bytes) (acc : List PyValue) (r : List PyValue × Nat), Cbor.FitItems items →
    data.drop pos = Cbor.encodeItems items ++ rest →
    times (readItem (readValue limit data)) items.length acc pos = .ok r →
    Cbor.depthItems items ≤ limit
  | [], _, _, _, _, _, _, _, _, _ => Nat.zero_le _
  | x :: xs, limit, data, pos, rest, acc, r, hfits, hdrop, htimes => by
    simp only [Cbor.encodeItems, List.append_assoc] at hdrop
    obtain ⟨⟨acc', p⟩, hitem, hmore⟩ := bind_ok htimes
    obtain ⟨⟨v, q⟩, hread, hitem⟩ := bind_ok hitem
    cases hitem
    have hx := depth_le_of_readValue x limit data pos _ _ hfits.1 hdrop hread
    -- the first item has been read up to its end, where the others begin
    rw [readValue_encode x limit data pos _ hfits.1 hx hdrop] at hread
    obtain ⟨w, -, heq⟩ := map_ok hread
    cases heq
    have hxs := depthItems_le_of_times xs limit data _ rest _ r hfits.2 (drop_append hdrop) hmore
    exact Nat.max_le.mpr ⟨hx, hxs⟩

theorem depthEntries_le_of_times : ∀ (entries : List (Item × Item)) (limit : Nat) (data : Bytes)
    (pos : Nat) (rest : Bytes) (acc : List (PyValue × PyValue))
    (r : List (PyValue × PyValue) × Nat), Cbor.FitEntries entries →
    data.drop pos = Cbor.encodeEntries entries ++ rest →
    times (readEntry (readValue limit data)) entries.length acc pos = .ok r →
    Cbor.depthEntries entries ≤ limit
  | [], _, _, _, _, _, _, _, _, _ => Nat.zero_le _
  | (k, v) :: more, limit, data, pos, rest, acc, r, hfits, hdrop, htimes => by
    simp only [Cbor.encodeEntries, List.append_assoc] at hdrop
    obtain ⟨⟨acc', p⟩, hentry, hmore⟩ := bind_ok htimes
    obtain ⟨⟨key, q⟩, hkey, hentry⟩ := bind_ok hentry
    obtain ⟨⟨value, q'⟩, hvalue, hentry⟩ := bind_ok hentry
    obtain ⟨entries', -, hentry⟩ := bind_ok hentry
    cases hentry
    have hk := depth_le_of_readValue k limit data pos _ _ hfits.1 hdrop hkey
    rw [readValue_encode k limit data pos _ hfits.1 hk hdrop] at hkey
    obtain ⟨_, -, heq⟩ := map_ok hkey
    cases heq
    have hdropv := drop_append hdrop
    have hv := depth_le_of_readValue v limit data _ _ _ hfits.2.1 hdropv hvalue
    rw [readValue_encode v limit data _ _ hfits.2.1 hv hdropv] at hvalue
    obtain ⟨_, -, heq⟩ := map_ok hvalue
    cases heq
    have hrest :=
      depthEntries_le_of_times more limit data _ rest _ r hfits.2.2 (drop_append hdropv) hmore
    exact Nat.max_le.mpr ⟨Nat.max_le.mpr ⟨hk, hv⟩, hrest⟩

end

/-- `parse` on an encoded item, whatever follows it. -/
theorem parse_encode {item : Item} {limit : Nat} (hfits : Cbor.Fits item)
    (hdepth : Cbor.depth item ≤ limit) (rest : Bytes) :
    parse limit (Cbor.encode item ++ rest) =
      (loaded item).map fun v => (v, (Cbor.encode item).length) := by
  have hread := readValue_encode item limit (Cbor.encode item ++ rest) 0 rest hfits hdepth rfl
  rw [Nat.zero_add] at hread
  exact hread

theorem depth_le_of_parse {item : Item} {limit : Nat} (hfits : Cbor.Fits item) {rest : Bytes}
    {r : PyValue × Nat} (h : parse limit (Cbor.encode item ++ rest) = .ok r) :
    Cbor.depth item ≤ limit :=
  depth_le_of_readValue item limit _ 0 rest r hfits rfl h

theorem cborLoads_encode {item : Item} {limit : Nat} (hfits : Cbor.Fits item)
    (hdepth : Cbor.depth item < limit) : cborLoads limit (Cbor.encode item) = loaded item := by
  have hparse := parse_encode hfits (Nat.le_sub_one_of_lt hdepth) []
  rw [List.append_nil] at hparse
  rw [cborLoads, hparse]
  cases loaded item <;> rfl

theorem depth_lt_of_cborLoads {item : Item} {limit : Nat} {value : PyValue}
    (hfits : Cbor.Fits item) (h : cborLoads limit (Cbor.encode item) = .ok value) :
    Cbor.depth item < limit := by
  obtain ⟨r, hparse, -⟩ := map_ok h
  rw [← List.append_nil (Cbor.encode item)] at hparse
  have hdepth := depth_le_of_parse hfits hparse
  have hpos := Cbor.depth_pos item
  omega

/-! ### What can be read, and what is read rightly -/

def isKey : Item → Bool
  | .array _ => false
  | .map _ => false
  | _ => true

mutual

/-- No tags, no floating-point numbers and no simple values but the four that are known (nor what
the parser takes for one of them), and no arrays and maps for keys. -/
def readable : Item → Bool
  | .uint _ => true
  | .nint _ => true
  | .bytes _ => true
  | .text _ => true
  | .array items => readableItems items
  | .map entries => readableEntries entries
  | .tag _ _ => false
  | .simple n => 20 ≤ n && n ≤ 23
  | .half bits => 20 ≤ bits && bits ≤ 23
  | .single bits => 20 ≤ bits && bits ≤ 23
  | .double bits => 20 ≤ bits && bits ≤ 23

def readableItems : List Item → Bool
  | [] => true
  | x :: xs => readable x && readableItems xs

def readableEntries : List (Item × Item) → Bool
  | [] => true
  | (k, v) :: rest => readable k && isKey k && readable v && readableEntries rest

end

def distinctKeys : List (PyValue × PyValue) → Bool
  | [] => true
  | e :: es => e.1.hashable && !(es.any fun f => e.1.sameKey f.1) && distinctKeys es

mutual

/-- The value of a data item in Python, as far as the parser has values for it. -/
def pyValue : Item → Option PyValue
  | .uint n => some (.int n)
  | .nint n => some (.int (-1 - n))
  | .bytes b => some (.bytes b)
  | .text s => some (.str s)
  | .array items => (pyValues items).map .list
  | .map entries =>
    (pyEntries entries).bind fun es => if distinctKeys es then some (.dict es) else none
  | .simple n => (constant n).toOption
  | _ => none

def pyValues : List Item → Option (List PyValue)
  | [] => some []
  | x :: xs => do
    let value ← pyValue x
    let values ← pyValues xs
    some (value :: values)

def pyEntries : List (Item × Item) → Option (List (PyValue × PyValue))
  | [] => some []
  | (k, v) :: rest => do
    let key ← pyValue k
    let value ← pyValue v
    let entries ← pyEntries rest
    some ((key, value) :: entries)

end

theorem pyValues_cons {x : Item} {xs : List Item} {values : List PyValue} :
    pyValues (x :: xs) = some values ↔
      ∃ v vs, pyValue x = some v ∧ pyValues xs = some vs ∧ v :: vs = values := by
  simp only [pyValues, Option.bind_eq_bind, Option.bind_eq_some_iff, Option.some.injEq]
  constructor
  · rintro ⟨v, hv, vs, hvs, rfl⟩
    exact ⟨v, vs, hv, hvs, rfl⟩
  · rintro ⟨v, vs, hv, hvs, rfl⟩
    exact ⟨v, hv, vs, hvs, rfl⟩

theorem pyEntries_cons {k v : Item} {rest : List (Item × Item)} {es : List (PyValue × PyValue)} :
    pyEntries ((k, v) :: rest) = some es ↔
      ∃ key value more, pyValue k = some key ∧ pyValue v = some value ∧
        pyEntries rest = some more ∧ (key, value) :: more = es := by
  simp only [pyEntries, Option.bind_eq_bind, Option.bind_eq_some_iff, Option.some.injEq]
  constructor
  · rintro ⟨key, hk, value, hv, more, hmore, rfl⟩
    exact ⟨key, value, more, hk, hv, hmore, rfl⟩
  · rintro ⟨key, value, more, hk, hv, hmore, rfl⟩
    exact ⟨key, hk, value, hv, more, hmore, rfl⟩

theorem setItem_new {entries : List (PyValue × PyValue)} {key : PyValue} (value : PyValue)
    (hkey : key.hashable = true) (hnew : ∀ e ∈ entries, e.1.sameKey key = false) :
    PyValue.setItem entries key value = .ok (entries ++ [(key, value)]) := by
  have hany : (entries.any fun e => e.1.sameKey key) = false := by
    simpa using hnew
  simp [PyValue.setItem, hkey, hany]

theorem setItem_isOk (entries : List (PyValue × PyValue)) (key value : PyValue) :
    (PyValue.setItem entries key value).isOk = key.hashable := by
  unfold PyValue.setItem
  split
  · rename_i h
    simpa [Except.isOk, Except.toBool] using h
  · rename_i h
    split <;> simpa [Except.isOk, Except.toBool] using h

mutual

theorem loaded_of_pyValue : ∀ (item : Item) (value : PyValue), pyValue item = some value →
    loaded item = .ok value
  | .uint n, value, h => by simpa [pyValue, loaded] using h
  | .nint n, value, h => by simpa [pyValue, loaded] using h
  | .bytes b, value, h => by simpa [pyValue, loaded] using h
  | .text s, value, h => by simpa [pyValue, loaded] using h
  | .array items, value, h => by
    simp only [pyValue, Option.map_eq_some_iff] at h
    obtain ⟨values, hvalues, rfl⟩ := h
    simp [loaded, loadedItems_of_pyValues items values [] hvalues, Except.map]
  | .map entries, value, h => by
    simp only [pyValue, Option.bind_eq_some_iff] at h
    obtain ⟨es, hes, hdistinct⟩ := h
    split at hdistinct
    · rename_i hkeys
      have hloaded := loadedEntries_of_pyEntries entries es [] hes hkeys (by simp)
      simpa [loaded, hloaded, Except.map] using hdistinct
    · cases hdistinct
  | .tag n item, value, h => by simp [pyValue] at h
  | .simple n, value, h => by
    simp only [pyValue] at h
    cases hn : constant n with
    | error e =>
      rw [hn] at h
      cases h
    | ok v =>
      rw [hn] at h
      simpa [loaded, hn, Except.toOption] using h
  | .half bits, value, h => by simp [pyValue] at h
  | .single bits, value, h => by simp [pyValue] at h
  | .double bits, value, h => by simp [pyValue] at h

theorem loadedItems_of_pyValues : ∀ (items : List Item) (values acc : List PyValue),
    pyValues items = some values → loadedItems acc items = .ok (acc ++ values)
  | [], values, acc, h => by
    simp only [pyValues, Option.some.injEq] at h
    simp [loadedItems, ← h]
  | x :: xs, values, acc, h => by
    obtain ⟨v, vs, hv, hvs, rfl⟩ := pyValues_cons.mp h
    have hxs := loadedItems_of_pyValues xs vs (acc ++ [v]) hvs
    simp [loadedItems, loaded_of_pyValue x v hv, hxs, Bind.bind, Except.bind]

theorem loadedEntries_of_pyEntries : ∀ (entries : List (Item × Item))
    (es acc : List (PyValue × PyValue)), pyEntries entries = some es → distinctKeys es = true →
    (∀ a ∈ acc, ∀ e ∈ es, a.1.sameKey e.1 = false) → loadedEntries acc entries = .ok (acc ++ es)
  | [], es, acc, h, _, _ => by
    simp only [pyEntries, Option.some.injEq] at h
    simp [loadedEntries, ← h]
  | (k, v) :: rest, es, acc, h, hkeys, hacc => by
    obtain ⟨key, value, more, hk, hv, hmore, rfl⟩ := pyEntries_cons.mp h
    simp only [distinctKeys, Bool.and_eq_true, Bool.not_eq_true', List.any_eq_false,
      Bool.not_eq_true] at hkeys
    obtain ⟨⟨hhash, hfirst⟩, hrest⟩ := hkeys
    have hset := setItem_new value hhash fun a ha => hacc a ha (key, value) (by simp)
    have hacc' : ∀ a ∈ acc ++ [(key, value)], ∀ e ∈ more, a.1.sameKey e.1 = false := by
      intro a ha e he
      rcases List.mem_append.mp ha with ha | ha
      · exact hacc a ha e (List.mem_cons_of_mem _ he)
      · rw [List.mem_singleton.mp ha]
        exact hfirst e he
    have hloaded := loadedEntries_of_pyEntries rest more _ hmore hrest hacc'
    simp [loadedEntries, loaded_of_pyValue k key hk, loaded_of_pyValue v value hv, hset, hloaded,
      Bind.bind, Except.bind]

end

theorem constant_isOk (n : Nat) : (constant n).isOk = (20 ≤ n && n ≤ 23) := by
  unfold constant
  split
  · rfl
  · rfl
  · rfl
  · rfl
  · rename_i h20 h21 h22 h23
    have hout : ¬(20 ≤ n ∧ n ≤ 23) := by
      rintro ⟨hlow, hhigh⟩
      interval_cases n
      · exact h20 rfl
      · exact h21 rfl
      · exact h22 rfl
      · exact h23 rfl
    simpa [Except.isOk, Except.toBool] using hout

theorem hashable_constant {n : Nat} {value : PyValue} (h : constant n = .ok value) :
    value.hashable = true := by
  unfold constant at h
  split at h <;> cases h <;> rfl

theorem hashable_loaded {item : Item} {value : PyValue} (h : loaded item = .ok value) :
    value.hashable = isKey item := by
  cases item with
  | uint n => cases h; rfl
  | nint n => cases h; rfl
  | bytes b => cases h; rfl
  | text s => cases h; rfl
  | array items =>
    rw [loaded] at h
    cases hitems : loadedItems [] items with
    | error e => simp [hitems, Except.map] at h
    | ok values =>
      rw [hitems] at h
      cases h
      rfl
  | map entries =>
    rw [loaded] at h
    cases hentries : loadedEntries [] entries with
    | error e => simp [hentries, Except.map] at h
    | ok es =>
      rw [hentries] at h
      cases h
      rfl
  | tag n item => cases h
  | simple n => exact hashable_constant h
  | half bits => exact hashable_constant h
  | single bits => exact hashable_constant h
  | double bits => exact hashable_constant h

mutual

theorem loaded_isOk : ∀ item : Item, (loaded item).isOk = readable item
  | .uint _ => rfl
  | .nint _ => rfl
  | .bytes _ => rfl
  | .text _ => rfl
  | .array items => by
    rw [readable, ← loadedItems_isOk items [], loaded]
    cases loadedItems [] items <;> rfl
  | .map entries => by
    rw [readable, ← loadedEntries_isOk entries [], loaded]
    cases loadedEntries [] entries <;> rfl
  | .tag _ _ => rfl
  | .simple n => constant_isOk n
  | .half bits => constant_isOk bits
  | .single bits => constant_isOk bits
  | .double bits => constant_isOk bits

theorem loadedItems_isOk : ∀ (items : List Item) (acc : List PyValue),
    (loadedItems acc items).isOk = readableItems items
  | [], _ => rfl
  | x :: xs, acc => by
    rw [readableItems, ← loaded_isOk x, loadedItems]
    cases loaded x with
    | error e => rfl
    | ok v => exact loadedItems_isOk xs (acc ++ [v])

theorem loadedEntries_isOk : ∀ (entries : List (Item × Item)) (acc : List (PyValue × PyValue)),
    (loadedEntries acc entries).isOk = readableEntries entries
  | [], _ => rfl
  | (k, v) :: rest, acc => by
    rw [readableEntries, ← loaded_isOk k, ← loaded_isOk v, loadedEntries]
    cases hk : loaded k with
    | error e => rfl
    | ok key =>
      have hhash := hashable_loaded hk
      have hset := fun value => setItem_isOk acc key value
      cases loaded v with
      | error e =>
        cases isKey k <;> rfl
      | ok value =>
        specialize hset value
        rw [hhash] at hset
        rw [← hset]
        cases hacc : PyValue.setItem acc key value with
        | error e => simp [hacc, Bind.bind, Except.bind, Except.isOk, Except.toBool]
        | ok acc' =>
          have hrest := loadedEntries_isOk rest acc'
          rw [← hrest]
          simp [hacc, Bind.bind, Except.bind, Except.isOk, Except.toBool]

end

end Shim

end Credentialsd
