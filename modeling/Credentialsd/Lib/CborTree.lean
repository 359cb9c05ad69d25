import Credentialsd.Lib.Cbor

/-!
# CBOR encodings as trees

A data item has many encodings: an argument may be written in more bytes than it
needs, and strings, arrays and maps may be of indefinite length. A `Tree` is one way
to write an item. It is `WellFormed` if the standard allows it; other trees describe
what a tolerant reader may see in bytes that are no encoding.
-/

namespace Cbor

/-! ### Heads -/

/- Where the argument of a head stands: in its first byte or in the bytes after that. -/
inductive Width where
  | immediate
  | one
  | two
  | four
  | eight
  deriving Repr, DecidableEq

namespace Width

def size : Width → Nat
  | .immediate => 0
  | .one => 1
  | .two => 2
  | .four => 4
  | .eight => 8

/- The low bits of the first byte. -/
def info : Width → Nat → Nat
  | .immediate, n => n
  | .one, _ => 24
  | .two, _ => 25
  | .four, _ => 26
  | .eight, _ => 27

def Holds (w : Width) (n : Nat) : Prop :=
  match w with
  | .immediate => n < 24
  | _ => n < 256 ^ w.size

end Width

/- A major type with an argument or with an indefinite length. -/
inductive Head where
  | definite (major : Nat) (width : Width) (n : Nat)
  | indefinite (major : Nat)
  deriving Repr, DecidableEq

/- What follows a head. -/
inductive Form where
  | atom
  | string
  | items
  | entries
  deriving Repr, DecidableEq

namespace Head

def major : Head → Nat
  | .definite m _ _ => m
  | .indefinite m => m

def argument : Head → Option Nat
  | .definite _ _ n => some n
  | .indefinite _ => none

def info : Head → Nat
  | .definite _ w n => w.info n
  | .indefinite _ => 31

def tail : Head → List UInt8
  | .definite _ w n => bigEndian w.size n
  | .indefinite _ => []

def bytes (h : Head) : List UInt8 := UInt8.ofNat (32 * h.major + h.info) :: h.tail

def Legal : Head → Prop
  | .definite m w n => m < 8 ∧ w.Holds n
  | .indefinite m => m < 8

/- The break byte. -/
def ending (h : Head) : List UInt8 :=
  match h.argument with
  | some _ => []
  | none => [0xFF]

def form (h : Head) : Form :=
  match h.major, h.argument with
  | 2, some _ => .string
  | 3, some _ => .string
  | 2, none => .items
  | 3, none => .items
  | 4, _ => .items
  | 5, _ => .entries
  | 6, _ => .items
  | _, _ => .atom

theorem info_lt_28 {w : Width} {n : Nat} (h : w.Holds n) : w.info n < 28 := by
  cases w <;> simp [Width.info, Width.Holds] at *
  omega

theorem Legal.major_lt {h : Head} (hl : h.Legal) : h.major < 8 := by
  cases h with
  | definite m w n => exact hl.1
  | indefinite m => exact hl

theorem Legal.info_lt {h : Head} (hl : h.Legal) : h.info < 32 := by
  cases h with
  | definite m w n => exact Nat.lt_trans (info_lt_28 hl.2) (by decide)
  | indefinite m => show 31 < 32; decide

theorem Legal.first {h : Head} (hl : h.Legal) :
    (UInt8.ofNat (32 * h.major + h.info)).toNat = 32 * h.major + h.info := by
  have hm := hl.major_lt
  have hi := hl.info_lt
  rw [UInt8.toNat_ofNat']
  omega

theorem bytes_length_pos (h : Head) : 0 < h.bytes.length := Nat.succ_pos _

end Head

theorem bigEndian_inj {k n m : Nat} (hn : n < 256 ^ k) (hm : m < 256 ^ k)
    (h : bigEndian k n = bigEndian k m) : n = m := by
  rw [← fromBigEndian_bigEndian hn, h, fromBigEndian_bigEndian hm]

/- The low bits tell the widths apart. -/
theorem Width.info_inj {v w : Width} {n m : Nat} (hn : v.Holds n) (hm : w.Holds m)
    (h : v.info n = w.info m) : v = w ∧ (v = .immediate → n = m) := by
  cases v <;> cases w <;> simp [Width.info, Width.Holds] at * <;> omega

theorem Width.Holds.lt {w : Width} {n : Nat} (h : w.Holds n) (hw : w ≠ .immediate) :
    n < 256 ^ w.size := by
  cases w with
  | immediate => exact absurd rfl hw
  | one => exact h
  | two => exact h
  | four => exact h
  | eight => exact h

/- A head is known by its bytes, whatever follows them. -/
theorem Head.bytes_inj {h h' : Head} {x x' : List UInt8} (hl : h.Legal) (hl' : h'.Legal)
    (heq : h.bytes ++ x = h'.bytes ++ x') : h = h' ∧ x = x' := by
  have hcons : UInt8.ofNat (32 * h.major + h.info) :: (h.tail ++ x) =
      UInt8.ofNat (32 * h'.major + h'.info) :: (h'.tail ++ x') := heq
  obtain ⟨hfirst, hrest⟩ := List.cons.inj hcons
  have hnat := congrArg UInt8.toNat hfirst
  rw [hl.first, hl'.first] at hnat
  have hi := hl.info_lt
  have hi' := hl'.info_lt
  have hmajor : h.major = h'.major := by omega
  have hinfo : h.info = h'.info := by omega
  cases h with
  | definite m w n =>
    cases h' with
    | definite m' w' n' =>
      obtain ⟨rfl, himm⟩ := Width.info_inj hl.2 hl'.2 hinfo
      obtain rfl : m = m' := hmajor
      obtain ⟨htail, hx⟩ := List.append_inj hrest (by simp [Head.tail])
      by_cases hw : w = .immediate
      · obtain rfl := himm hw
        exact ⟨rfl, hx⟩
      · obtain rfl := bigEndian_inj (hl.2.lt hw) (hl'.2.lt hw) htail
        exact ⟨rfl, hx⟩
    | indefinite m' =>
      have h31 : w.info n = 31 := hinfo
      have h28 := info_lt_28 hl.2
      omega
  | indefinite m =>
    cases h' with
    | definite m' w' n' =>
      have h31 : 31 = w'.info n' := hinfo
      have h28 := info_lt_28 hl'.2
      omega
    | indefinite m' =>
      obtain rfl : m = m' := hmajor
      exact ⟨rfl, hrest⟩

/-! ### Trees -/

inductive Tree where
  | nothing
  | atom (h : Head)
  | string (h : Head) (b : List UInt8)
  | items (h : Head) (xs : List Tree)
  | entries (h : Head) (es : List (Tree × Tree))

namespace Head

/- The heads that are an item by themselves. -/
def IsItem : Head → Prop
  | .definite 0 _ _ => True
  | .definite 1 _ _ => True
  | .definite 7 .immediate _ => True
  | .definite 7 .one n => 32 ≤ n
  | .definite 7 _ _ => True
  | _ => False

def atomItem : Head → Option Item
  | .definite 0 _ n => some (.uint n)
  | .definite 1 _ n => some (.nint n)
  | .definite 7 .immediate n => some (.simple n)
  | .definite 7 .one n => some (.simple n)
  | .definite 7 .two n => some (.half n)
  | .definite 7 .four n => some (.single n)
  | .definite 7 .eight n => some (.double n)
  | _ => none

/- A string of one piece. -/
def stringItem (h : Head) (b : List UInt8) : Option Item :=
  if h.major = 2 then some (.bytes b) else (String.fromUTF8? b.toByteArray).map .text

end Head

namespace Tree

/- A chunk of a string of indefinite length is a string of the same kind. -/
def IsChunk (major : Nat) : Tree → Prop
  | .string h _ => h.major = major
  | _ => False

/- How many items follow the head, and of what kind. -/
def Follow (h : Head) (xs : List Tree) : Prop :=
  match h with
  | .definite 4 _ n => xs.length = n
  | .definite 6 _ _ => xs.length = 1
  | .indefinite 2 => ∀ x ∈ xs, IsChunk 2 x
  | .indefinite 3 => ∀ x ∈ xs, IsChunk 3 x
  | .indefinite 4 => True
  | _ => False

def joinBytes : List Item → Option (List UInt8)
  | [] => some []
  | .bytes b :: rest => (joinBytes rest).map (b ++ ·)
  | _ => none

def joinText : List Item → Option String
  | [] => some ""
  | .text s :: rest => (joinText rest).map (s ++ ·)
  | _ => none

def joinItems (h : Head) (items : List Item) : Option Item :=
  match h with
  | .indefinite 2 => (joinBytes items).map .bytes
  | .indefinite 3 => (joinText items).map .text
  | .definite 6 _ n =>
    match items with
    | [item] => some (.tag n item)
    | _ => none
  | _ => some (.array items)

mutual

def write : Tree → List UInt8
  | .nothing => []
  | .atom h => h.bytes
  | .string h b => h.bytes ++ b
  | .items h xs => h.bytes ++ (writeItems xs ++ h.ending)
  | .entries h es => h.bytes ++ (writeEntries es ++ h.ending)

def writeItems : List Tree → List UInt8
  | [] => []
  | x :: xs => write x ++ writeItems xs

def writeEntries : List (Tree × Tree) → List UInt8
  | [] => []
  | (k, v) :: es => write k ++ (write v ++ writeEntries es)

end

mutual

/-- The tree is an encoding by the rules of the standard. -/
def WellFormed : Tree → Prop
  | .nothing => False
  | .atom h => h.Legal ∧ h.IsItem
  | .string h b => h.Legal ∧ h.form = .string ∧ h.argument = some b.length
  | .items h xs => h.Legal ∧ Follow h xs ∧ WellFormedItems xs
  | .entries h es =>
    h.Legal ∧ h.form = .entries ∧ (∀ n, h.argument = some n → es.length = n) ∧ WellFormedEntries es

def WellFormedItems : List Tree → Prop
  | [] => True
  | x :: xs => WellFormed x ∧ WellFormedItems xs

def WellFormedEntries : List (Tree × Tree) → Prop
  | [] => True
  | (k, v) :: es => WellFormed k ∧ WellFormed v ∧ WellFormedEntries es

end

mutual

/-- The data item that is written. -/
def item : Tree → Option Item
  | .nothing => none
  | .atom h => h.atomItem
  | .string h b => h.stringItem b
  | .items h xs => (itemList xs).bind (joinItems h)
  | .entries _ es => (itemPairs es).map .map

def itemList : List Tree → Option (List Item)
  | [] => some []
  | x :: xs => do
    let item ← item x
    let items ← itemList xs
    some (item :: items)

def itemPairs : List (Tree × Tree) → Option (List (Item × Item))
  | [] => some []
  | (k, v) :: es => do
    let key ← item k
    let value ← item v
    let pairs ← itemPairs es
    some ((key, value) :: pairs)

end

theorem itemList_cons {x : Tree} {xs : List Tree} {items : List Item} :
    itemList (x :: xs) = some items ↔
      ∃ i is, item x = some i ∧ itemList xs = some is ∧ i :: is = items := by
  simp only [itemList, Option.bind_eq_bind, Option.bind_eq_some_iff, Option.some.injEq]
  constructor
  · rintro ⟨i, hi, is, his, rfl⟩
    exact ⟨i, is, hi, his, rfl⟩
  · rintro ⟨i, is, hi, his, rfl⟩
    exact ⟨i, hi, is, his, rfl⟩

theorem itemPairs_cons {k v : Tree} {es : List (Tree × Tree)} {pairs : List (Item × Item)} :
    itemPairs ((k, v) :: es) = some pairs ↔
      ∃ a b ps, item k = some a ∧ item v = some b ∧ itemPairs es = some ps ∧
        (a, b) :: ps = pairs := by
  simp only [itemPairs, Option.bind_eq_bind, Option.bind_eq_some_iff, Option.some.injEq]
  constructor
  · rintro ⟨a, ha, b, hb, ps, hps, rfl⟩
    exact ⟨a, b, ps, ha, hb, hps, rfl⟩
  · rintro ⟨a, b, ps, ha, hb, hps, rfl⟩
    exact ⟨a, ha, b, hb, ps, hps, rfl⟩

mutual

/- No length is left open. -/
def Definite : Tree → Prop
  | .nothing => True
  | .atom h => h.argument ≠ none
  | .string h _ => h.argument ≠ none
  | .items h xs => h.argument ≠ none ∧ DefiniteItems xs
  | .entries h es => h.argument ≠ none ∧ DefiniteEntries es

def DefiniteItems : List Tree → Prop
  | [] => True
  | x :: xs => Definite x ∧ DefiniteItems xs

def DefiniteEntries : List (Tree × Tree) → Prop
  | [] => True
  | (k, v) :: es => Definite k ∧ Definite v ∧ DefiniteEntries es

end

mutual

/- A byte string is written in chunks. -/
def ChunkedBytes : Tree → Prop
  | .items h xs => h = .indefinite 2 ∨ ChunkedBytesItems xs
  | .entries _ es => ChunkedBytesEntries es
  | _ => False

def ChunkedBytesItems : List Tree → Prop
  | [] => False
  | x :: xs => ChunkedBytes x ∨ ChunkedBytesItems xs

def ChunkedBytesEntries : List (Tree × Tree) → Prop
  | [] => False
  | (k, v) :: es => ChunkedBytes k ∨ ChunkedBytes v ∨ ChunkedBytesEntries es

end

mutual

/- A tree that holds no other has the depth 1. -/
def depth : Tree → Nat
  | .items _ xs => depthItems xs + 1
  | .entries _ es => depthEntries es + 1
  | _ => 1

def depthItems : List Tree → Nat
  | [] => 0
  | x :: xs => max (depth x) (depthItems xs)

def depthEntries : List (Tree × Tree) → Nat
  | [] => 0
  | (k, v) :: es => max (max (depth k) (depth v)) (depthEntries es)

end

theorem depth_pos (t : Tree) : 0 < t.depth := by
  cases t <;> exact Nat.succ_pos _

theorem depth_atomItem {h : Head} {i : Item} (hi : h.atomItem = some i) : Cbor.depth i = 1 := by
  unfold Head.atomItem at hi
  split at hi <;> cases hi <;> rfl

theorem depth_stringItem {h : Head} {b : List UInt8} {i : Item} (hi : h.stringItem b = some i) :
    Cbor.depth i = 1 := by
  unfold Head.stringItem at hi
  split at hi
  · cases hi
    rfl
  · obtain ⟨s, -, rfl⟩ := Option.map_eq_some_iff.mp hi
    rfl

/- Chunks make a string, which is no deeper than they are; other items are held by one. -/
theorem depth_joinItems {h : Head} {items : List Item} {i : Item}
    (hi : joinItems h items = some i) : Cbor.depth i ≤ Cbor.depthItems items + 1 ∧
      (h.argument ≠ none → Cbor.depth i = Cbor.depthItems items + 1) := by
  unfold joinItems at hi
  split at hi
  · obtain ⟨b, -, rfl⟩ := Option.map_eq_some_iff.mp hi
    exact ⟨Nat.succ_le_succ (Nat.zero_le _), fun hsome => absurd rfl hsome⟩
  · obtain ⟨s, -, rfl⟩ := Option.map_eq_some_iff.mp hi
    exact ⟨Nat.succ_le_succ (Nat.zero_le _), fun hsome => absurd rfl hsome⟩
  · split at hi
    · cases hi
      simp [Cbor.depth, Cbor.depthItems]
    · cases hi
  · cases hi
    exact ⟨Nat.le_refl _, fun _ => rfl⟩

mutual

/-- An encoding is nested at least as deep as the item, and as deep if no length is left open. -/
theorem depth_item : ∀ (t : Tree) {i : Item}, t.item = some i →
    Cbor.depth i ≤ t.depth ∧ (t.Definite → t.depth = Cbor.depth i)
  | .atom h, i, hi => by
    have hone := depth_atomItem hi
    exact ⟨Nat.le_of_eq hone, fun _ => hone.symm⟩
  | .string h b, i, hi => by
    have hone := depth_stringItem hi
    exact ⟨Nat.le_of_eq hone, fun _ => hone.symm⟩
  | .items h xs, i, hi => by
    obtain ⟨items, hitems, hjoin⟩ := Option.bind_eq_some_iff.mp hi
    obtain ⟨hle, hdefinite⟩ := depth_itemList xs hitems
    obtain ⟨hjoined, hsome⟩ := depth_joinItems hjoin
    refine ⟨Nat.le_trans hjoined (Nat.succ_le_succ hle), fun hd => ?_⟩
    rw [depth, hdefinite hd.2, hsome hd.1]
  | .entries h es, i, hi => by
    obtain ⟨pairs, hpairs, rfl⟩ := Option.map_eq_some_iff.mp hi
    obtain ⟨hle, hdefinite⟩ := depth_itemPairs es hpairs
    refine ⟨Nat.succ_le_succ hle, fun hd => ?_⟩
    rw [depth, hdefinite hd.2, Cbor.depth]

theorem depth_itemList : ∀ (xs : List Tree) {is : List Item}, itemList xs = some is →
    Cbor.depthItems is ≤ depthItems xs ∧
      (DefiniteItems xs → depthItems xs = Cbor.depthItems is)
  | [], is, hi => by
    cases hi
    exact ⟨Nat.le_refl _, fun _ => rfl⟩
  | x :: xs, is, hi => by
    obtain ⟨i, more, hx, hxs, rfl⟩ := itemList_cons.mp hi
    obtain ⟨hfirst, hdefinite⟩ := depth_item x hx
    obtain ⟨hrest, hdefinites⟩ := depth_itemList xs hxs
    refine ⟨?_, fun hd => ?_⟩
    · simp only [depthItems, Cbor.depthItems]
      omega
    · rw [depthItems, Cbor.depthItems, hdefinite hd.1, hdefinites hd.2]

theorem depth_itemPairs : ∀ (es : List (Tree × Tree)) {pairs : List (Item × Item)},
    itemPairs es = some pairs → Cbor.depthEntries pairs ≤ depthEntries es ∧
      (DefiniteEntries es → depthEntries es = Cbor.depthEntries pairs)
  | [], pairs, hi => by
    cases hi
    exact ⟨Nat.le_refl _, fun _ => rfl⟩
  | (k, v) :: es, pairs, hi => by
    obtain ⟨key, value, more, hk, hv, hes, rfl⟩ := itemPairs_cons.mp hi
    obtain ⟨hkey, hdefkey⟩ := depth_item k hk
    obtain ⟨hvalue, hdefvalue⟩ := depth_item v hv
    obtain ⟨hrest, hdefinites⟩ := depth_itemPairs es hes
    refine ⟨?_, fun hd => ?_⟩
    · simp only [depthEntries, Cbor.depthEntries]
      omega
    · rw [depthEntries, Cbor.depthEntries, hdefkey hd.1, hdefvalue hd.2.1, hdefinites hd.2.2]

end

mutual

theorem not_chunkedBytes : ∀ t : Tree, Definite t → ¬ ChunkedBytes t
  | .nothing, _ => nofun
  | .atom h, _ => nofun
  | .string h b, _ => nofun
  | .items h xs, hd => by
    rintro (rfl | hxs)
    · exact hd.1 rfl
    · exact not_chunkedBytesItems xs hd.2 hxs
  | .entries h es, hd => not_chunkedBytesEntries es hd.2

theorem not_chunkedBytesItems : ∀ xs : List Tree, DefiniteItems xs → ¬ ChunkedBytesItems xs
  | [], _ => nofun
  | x :: xs, hd => by
    rintro (hx | hxs)
    · exact not_chunkedBytes x hd.1 hx
    · exact not_chunkedBytesItems xs hd.2 hxs

theorem not_chunkedBytesEntries : ∀ es : List (Tree × Tree), DefiniteEntries es →
    ¬ ChunkedBytesEntries es
  | [], _ => nofun
  | (k, v) :: es, hd => by
    rintro (hk | hv | hes)
    · exact not_chunkedBytes k hd.1 hk
    · exact not_chunkedBytes v hd.2.1 hv
    · exact not_chunkedBytesEntries es hd.2.2 hes

end

end Tree

end Cbor
