import Credentialsd.CborExact

/-!
# What else is accepted (`webext/app/credential_manager_shim.py:188-341`)

Bytes that the parser accepts are an encoding of what it gives, or there is a slip in
their layout: an item that is missing or cut off, a value that is none, two equal keys.
-/

namespace Credentialsd

open Cbor (Head Tree Item Width)
open Cbor.Tree (At AtItems AtEntries Counts)

namespace Shim

/-! ### Slips -/

def keyValue (e : Tree × Tree) : Option PyValue := e.1.item.bind pyValue

/- Two keys that Python takes for the same. -/
def Twins (es : List (Tree × Tree)) : Prop :=
  ¬ (es.filterMap keyValue).Pairwise fun p q => p.sameKey q = false

mutual

/-- What is wrong with a layout and not noticed: the end of the data in the place of an item, a
number without a value, a constant that takes more than one byte, a string that is cut off, a text
that is no UTF-8, a byte string in chunks, a text of other chunks than texts, equal keys. -/
def Slips : Tree → Prop
  | .nothing => True
  | .atom h => h.argument = none ∨ (h.major = 7 ∧ ∀ n, h ≠ .definite 7 .immediate n)
  | .string h b =>
    h.argument ≠ some b.length ∨ (h.major = 3 ∧ String.fromUTF8? b.toByteArray = none)
  | .items h xs =>
    h = .indefinite 2 ∨ (h = .indefinite 3 ∧ ∃ x ∈ xs, ¬ Tree.IsChunk 3 x) ∨ SlipsItems xs
  | .entries _ es => Twins es ∨ SlipsEntries es

def SlipsItems : List Tree → Prop
  | [] => False
  | x :: xs => Slips x ∨ SlipsItems xs

def SlipsEntries : List (Tree × Tree) → Prop
  | [] => False
  | (k, v) :: es => Slips k ∨ Slips v ∨ SlipsEntries es

end

/-- The bytes are an encoding of an item with this value. -/
def Encodes (e : Bytes) (v : PyValue) : Prop :=
  ∃ t i, Tree.WellFormed t ∧ t.write = e ∧ t.item = some i ∧ pyValue i = some v

/- An encoding goes on after the bytes. -/
def Truncated (d : Bytes) : Prop :=
  ∃ t rest, Tree.WellFormed t ∧ rest ≠ [] ∧ t.write = d ++ rest

/- What the parser accepts is an encoding of what it gives, and it accepts nothing truncated. -/
def Sound (limit : Nat) (d : Bytes) : Prop :=
  (∀ v pos, parse limit d = .ok (v, pos) → pos ≤ d.length ∧ Encodes (d.take pos) v) ∧
    (Truncated d → ∃ e, parse limit d = .error e)

/-- The layout of the data, read from its start, has a slip. -/
def Slipped (d : Bytes) : Prop := ∃ t stop, At d 0 t stop ∧ Slips t

theorem atom_slipless {h : Head} {i : Item} {v : PyValue} (hitem : h.IsItem)
    (hi : h.atomItem = some i) (hv : pyValue i = some v) : ¬ Slips (.atom h) := by
  cases h with
  | indefinite m => exact hitem.elim
  | definite m w n =>
    rintro (hnone | ⟨hmajor, himmediate⟩)
    · cases hnone
    · obtain rfl : m = 7 := hmajor
      cases w with
      | immediate => exact himmediate n rfl
      | one =>
        cases hi
        have hconstant := congrArg Except.isOk (loaded_of_pyValue _ v hv)
        have hn : 32 ≤ n := hitem
        rw [loaded_isOk] at hconstant
        simp [readable, Except.isOk, Except.toBool] at hconstant
        omega
      | two => cases hi; cases hv
      | four => cases hi; cases hv
      | eight => cases hi; cases hv

theorem string_slipless {h : Head} {b : Bytes} {i : Item} (harg : h.argument = some b.length)
    (hi : h.stringItem b = some i) : ¬ Slips (.string h b) := by
  rintro (hshort | ⟨hmajor, hinvalid⟩)
  · exact hshort harg
  · unfold Head.stringItem at hi
    rw [hmajor, hinvalid] at hi
    cases hi

/- The chunks of a text have values. -/
theorem pyValues_of_joinText : ∀ {items : List Item} {s : String}, Tree.joinText items = some s →
    ∃ vs, pyValues items = some vs
  | [], _, _ => ⟨[], rfl⟩
  | .text a :: rest, s, h => by
    obtain ⟨more, hmore, -⟩ := Option.map_eq_some_iff.mp h
    obtain ⟨vs, hvs⟩ := pyValues_of_joinText hmore
    exact ⟨.str a :: vs, by rw [pyValues, hvs]; rfl⟩

/- What is joined to an item with a value are items with values. -/
theorem pyValues_of_join {h : Head} {xs : List Tree} {items : List Item} {i : Item} {v : PyValue}
    (hfollow : Tree.Follow h xs) (hchunks : h ≠ .indefinite 2)
    (hjoin : Tree.joinItems h items = some i) (hv : pyValue i = some v) :
    ∃ vs, pyValues items = some vs := by
  have harray (harr : i = .array items) : ∃ vs, pyValues items = some vs := by
    subst harr
    obtain ⟨vs, hvs, -⟩ := Option.map_eq_some_iff.mp hv
    exact ⟨vs, hvs⟩
  unfold Tree.Follow at hfollow
  split at hfollow
  · exact harray (Option.some.inj hjoin).symm
  · -- a tag has no value
    cases items with
    | nil => cases hjoin
    | cons y ys =>
      cases ys with
      | nil =>
        cases hjoin
        cases hv
      | cons z zs => cases hjoin
  · exact absurd rfl hchunks
  · obtain ⟨s, hs, -⟩ := Option.map_eq_some_iff.mp hjoin
    exact pyValues_of_joinText hs
  · exact harray (Option.some.inj hjoin).symm
  · exact hfollow.elim

theorem keys_of_entries : ∀ {es : List (Tree × Tree)} {pairs : List (Item × Item)}
    {kvs : List (PyValue × PyValue)}, Tree.itemPairs es = some pairs →
    pyEntries pairs = some kvs → es.filterMap keyValue = kvs.map Prod.fst
  | [], _, _, hi, hv => by
    cases hi
    cases hv
    rfl
  | (k, v) :: es, pairs, kvs, hi, hv => by
    obtain ⟨key, item, more, hk, -, hes, rfl⟩ := Tree.itemPairs_cons.mp hi
    obtain ⟨p, q, rest, hp, -, hrest, rfl⟩ := pyEntries_cons.mp hv
    have hfirst : keyValue (k, v) = some p := by
      show k.item.bind pyValue = some p
      rw [hk]
      exact hp
    rw [List.filterMap_cons_some hfirst, List.map_cons, keys_of_entries hes hrest]

theorem distinctKeys_iff (es : List (PyValue × PyValue)) :
    distinctKeys es = true ↔ (∀ e ∈ es, e.1.hashable = true) ∧
      (es.map Prod.fst).Pairwise fun p q => p.sameKey q = false := by
  induction es with
  | nil => simp [distinctKeys]
  | cons e es ih =>
    simp only [distinctKeys, Bool.and_eq_true, ih, Bool.not_eq_true', List.any_eq_false,
      Bool.not_eq_true, List.mem_cons, forall_eq_or_imp, List.map_cons, List.pairwise_cons,
      List.mem_map]
    constructor
    · rintro ⟨⟨hhash, hfirst⟩, hall, hrest⟩
      refine ⟨⟨hhash, hall⟩, ?_, hrest⟩
      rintro p ⟨f, hf, rfl⟩
      exact hfirst f hf
    · rintro ⟨⟨hhash, hall⟩, hfirst, hrest⟩
      exact ⟨⟨hhash, fun f hf => hfirst f.1 ⟨f, hf, rfl⟩⟩, hall, hrest⟩

mutual

/-- An encoding of an item with a value in Python has no slip, but for chunked byte strings. -/
theorem slipless_of_wellFormed : ∀ (t : Tree) {i : Item} {v : PyValue}, t.WellFormed →
    t.item = some i → pyValue i = some v → ¬ t.ChunkedBytes → ¬ Slips t
  | .nothing, _, _, hwf, _, _, _ => hwf.elim
  | .atom h, _, _, hwf, hi, hv, _ => atom_slipless hwf.2 hi hv
  | .string h b, _, _, hwf, hi, _, _ => string_slipless hwf.2.2 hi
  | .items h xs, i, v, hwf, hi, hv, hchunks => by
    obtain ⟨items, hitems, hjoin⟩ := Option.bind_eq_some_iff.mp hi
    have hinner : ¬ Tree.ChunkedBytesItems xs := fun hxs => hchunks (Or.inr hxs)
    have hfollow := hwf.2.1
    rintro (rfl | ⟨rfl, x, hx, hchunk⟩ | hslip)
    · exact hchunks (Or.inl rfl)
    · exact hchunk (hfollow x hx)
    · have hhead : h ≠ .indefinite 2 := fun hh => hchunks (Or.inl hh)
      obtain ⟨vs, hvs⟩ := pyValues_of_join hfollow hhead hjoin hv
      exact slipless_of_items xs hwf.2.2 hitems hvs hinner hslip
  | .entries h es, i, v, hwf, hi, hv, hchunks => by
    obtain ⟨pairs, hpairs, rfl⟩ := Option.map_eq_some_iff.mp hi
    obtain ⟨kvs, hkvs, hdict⟩ := Option.bind_eq_some_iff.mp hv
    split at hdict
    · rename_i hdistinct
      rintro (htwins | hslip)
      · rw [Twins, keys_of_entries hpairs hkvs] at htwins
        exact htwins ((distinctKeys_iff kvs).mp hdistinct).2
      · exact slipless_of_entries es hwf.2.2.2 hpairs hkvs hchunks hslip
    · cases hdict

theorem slipless_of_items : ∀ (xs : List Tree) {items : List Item} {vs : List PyValue},
    Tree.WellFormedItems xs → Tree.itemList xs = some items → pyValues items = some vs →
    ¬ Tree.ChunkedBytesItems xs → ¬ SlipsItems xs
  | [], _, _, _, _, _, _ => nofun
  | x :: xs, items, vs, hwf, hi, hv, hchunks => by
    obtain ⟨item, more, hx, hxs, rfl⟩ := Tree.itemList_cons.mp hi
    obtain ⟨v, ws, hitem, hmore, rfl⟩ := pyValues_cons.mp hv
    rintro (hslip | hslip)
    · exact slipless_of_wellFormed x hwf.1 hx hitem (fun h => hchunks (Or.inl h)) hslip
    · exact slipless_of_items xs hwf.2 hxs hmore (fun h => hchunks (Or.inr h)) hslip

theorem slipless_of_entries : ∀ (es : List (Tree × Tree)) {pairs : List (Item × Item)}
    {kvs : List (PyValue × PyValue)}, Tree.WellFormedEntries es → Tree.itemPairs es = some pairs →
    pyEntries pairs = some kvs → ¬ Tree.ChunkedBytesEntries es → ¬ SlipsEntries es
  | [], _, _, _, _, _, _ => nofun
  | (k, v) :: es, pairs, kvs, hwf, hi, hv, hchunks => by
    obtain ⟨key, item, more, hk, hitem, hes, rfl⟩ := Tree.itemPairs_cons.mp hi
    obtain ⟨p, q, ws, hp, hq, hmore, rfl⟩ := pyEntries_cons.mp hv
    rintro (hslip | hslip | hslip)
    · exact slipless_of_wellFormed k hwf.1 hk hp (fun h => hchunks (Or.inl h)) hslip
    · exact slipless_of_wellFormed v hwf.2.1 hitem hq (fun h => hchunks (Or.inr (Or.inl h))) hslip
    · exact slipless_of_entries es hwf.2.2 hes hmore (fun h => hchunks (Or.inr (Or.inr h))) hslip

end

mutual

theorem slips_of_chunked : ∀ t : Tree, t.ChunkedBytes → Slips t
  | .nothing, h => h.elim
  | .atom _, h => h.elim
  | .string _ _, h => h.elim
  | .items _ xs, h => h.imp_right fun hxs => Or.inr (slips_of_chunkedItems xs hxs)
  | .entries _ es, h => Or.inr (slips_of_chunkedEntries es h)

theorem slips_of_chunkedItems : ∀ xs : List Tree, Tree.ChunkedBytesItems xs → SlipsItems xs
  | [], h => h.elim
  | x :: xs, h => h.imp (slips_of_chunked x) (slips_of_chunkedItems xs)

theorem slips_of_chunkedEntries : ∀ es : List (Tree × Tree), Tree.ChunkedBytesEntries es →
    SlipsEntries es
  | [], h => h.elim
  | (k, v) :: es, h =>
    h.imp (slips_of_chunked k) (Or.imp (slips_of_chunked v) (slips_of_chunkedEntries es))

end

/- Every value that a loop uses has been read. -/
theorem read_of_runTurns {α : Type} {step : α → PyValue → Except PyError α} :
    ∀ {rs : List (Except PyError PyValue)} {acc out : α},
      runTurns acc (rs.map (itemTurn step)) = .ok out → ∀ r ∈ rs, ∃ v, r = .ok v
  | [], _, _, _, _, hr => absurd hr List.not_mem_nil
  | r :: rs, acc, out, h, r', hr => by
    obtain ⟨acc', hturn, hrest⟩ := bind_ok (x := itemTurn step r acc) h
    obtain ⟨v, hv, -⟩ := bind_ok hturn
    rcases List.mem_cons.mp hr with rfl | hr
    · exact ⟨v, hv⟩
    · exact read_of_runTurns hrest r' hr

theorem read_of_entryTurns : ∀ {es : List (Tree × Tree)} {acc out : List (PyValue × PyValue)},
    runTurns acc (entryTurns es) = .ok out →
    ∀ e ∈ es, (∃ k, value e.1 = .ok k ∧ k.hashable = true) ∧ ∃ v, value e.2 = .ok v
  | [], _, _, _, _, he => absurd he List.not_mem_nil
  | (k, v) :: es, acc, out, h, e, he => by
    obtain ⟨acc', hturn, hrest⟩ := bind_ok (x := entryTurn (value k) (value v) acc) h
    obtain ⟨key, hk, hturn⟩ := bind_ok hturn
    obtain ⟨item, hv, hset⟩ := bind_ok hturn
    have hhash := setItem_isOk acc key item
    rw [hset] at hhash
    rcases List.mem_cons.mp he with rfl | he
    · exact ⟨⟨key, hk, hhash.symm⟩, item, hv⟩
    · exact read_of_entryTurns hrest e he

theorem atom_of_value {h : Head} {v : PyValue} (hl : h.Legal) (hform : h.form = .atom)
    (hvalue : value (.atom h) = .ok v) (hslip : ¬ Slips (.atom h)) :
    h.IsItem ∧ ∃ i w, h.atomItem = some i ∧ pyValue i = some w := by
  have hmajor := form_atom hl hform
  cases h with
  | indefinite m => exact absurd (Or.inl rfl) hslip
  | definite m w n =>
    rcases hmajor with hm | hm | hm
    · obtain rfl : m = 0 := hm
      exact ⟨trivial, _, _, rfl, rfl⟩
    · obtain rfl : m = 1 := hm
      exact ⟨trivial, _, _, rfl, rfl⟩
    · obtain rfl : m = 7 := hm
      cases w with
      | immediate =>
        have hconstant : constant n = .ok v := hvalue
        refine ⟨trivial, .simple n, v, rfl, ?_⟩
        rw [pyValue, hconstant]
        rfl
      | _ => exact absurd (Or.inr ⟨rfl, nofun⟩) hslip

theorem string_of_value {h : Head} {b : Bytes} (hform : h.form = .string)
    (hslip : ¬ Slips (.string h b)) :
    h.argument = some b.length ∧ ∃ i w, h.stringItem b = some i ∧ pyValue i = some w := by
  have harg : h.argument = some b.length := by
    by_contra hne
    exact hslip (Or.inl hne)
  refine ⟨harg, ?_⟩
  unfold Head.stringItem
  rcases (form_string hform).1 with hm | hm
  · rw [if_pos hm]
    exact ⟨_, _, rfl, rfl⟩
  · rw [if_neg (by omega)]
    cases hs : String.fromUTF8? b.toByteArray with
    | none => exact absurd (Or.inr ⟨hm, hs⟩) hslip
    | some s => exact ⟨_, _, rfl, rfl⟩

/- Chunks of text are joined. -/
theorem joinText_of_chunks : ∀ {xs : List Tree} {items : List Item}, (∀ x ∈ xs, Tree.IsChunk 3 x) →
    Tree.itemList xs = some items → ∃ s, Tree.joinText items = some s
  | [], _, _, hi => by
    cases hi
    exact ⟨"", rfl⟩
  | x :: xs, items, hchunks, hi => by
    obtain ⟨item, more, hx, hxs, rfl⟩ := Tree.itemList_cons.mp hi
    have hchunk := hchunks x List.mem_cons_self
    obtain ⟨s, hs⟩ := joinText_of_chunks (fun y hy => hchunks y (List.mem_cons_of_mem _ hy)) hxs
    cases x with
    | string h b =>
      have hm : h.major = 3 := hchunk
      have htext : h.stringItem b = some item := hx
      unfold Head.stringItem at htext
      rw [if_neg (by omega)] at htext
      obtain ⟨a, -, rfl⟩ := Option.map_eq_some_iff.mp htext
      refine ⟨a ++ s, ?_⟩
      rw [Tree.joinText, hs]
      rfl
    | _ => exact hchunk.elim

/- A head is what its major type and its argument make it, if it has no argument. -/
theorem indefinite_of_argument {h : Head} {m : Nat} (hm : h.major = m) (harg : h.argument = none) :
    h = .indefinite m := by
  cases h with
  | definite m' w n => cases harg
  | indefinite m' => exact congrArg Head.indefinite hm

/- Behind the head of an array stand as many items as it says. -/
theorem follow_of_array {h : Head} {xs : List Tree} (hm : h.major = 4)
    (hcount : Counts h xs.length) : Tree.Follow h xs := by
  cases h with
  | definite m w n =>
    obtain rfl : m = 4 := hm
    exact hcount n rfl
  | indefinite m =>
    obtain rfl : m = 4 := hm
    trivial

theorem joinItems_array {h : Head} (hm : h.major = 4) (items : List Item) :
    Tree.joinItems h items = some (.array items) := by
  cases h with
  | definite m w n =>
    obtain rfl : m = 4 := hm
    rfl
  | indefinite m =>
    obtain rfl : m = 4 := hm
    rfl

mutual

/-- What is accepted without a slip is an encoding of an item with a value in Python. -/
theorem wellFormed_of_value {data : Bytes} : ∀ (t : Tree) {pos stop : Nat} {v : PyValue},
    At data pos t stop → value t = .ok v → ¬ Slips t →
    t.WellFormed ∧ ∃ i w, t.item = some i ∧ pyValue i = some w
  | .nothing, _, _, _, _, _, hslip => absurd trivial hslip
  | .atom h, _, _, _, hat, hvalue, hslip => by
    obtain ⟨hitem, hread⟩ := atom_of_value hat.1.1 hat.1.2.2 hvalue hslip
    exact ⟨⟨hat.1.1, hitem⟩, hread⟩
  | .string h b, _, _, _, hat, _, hslip => by
    obtain ⟨harg, hread⟩ := string_of_value hat.1.2.2 hslip
    exact ⟨⟨hat.1.1, hat.1.2.2, harg⟩, hread⟩
  | .items h xs, pos, stop, v, hat, hvalue, hslip => by
    obtain ⟨⟨hl, -, hform⟩, hcount, p, hxs, -⟩ := hat
    have hinner : ¬ SlipsItems xs := fun hs => hslip (Or.inr (Or.inr hs))
    rw [value] at hvalue
    rcases form_items hform with ⟨hm | hm, harg⟩ | hm | hm
    · exact absurd (Or.inl (indefinite_of_argument hm harg)) hslip
    · obtain rfl := indefinite_of_argument hm harg
      obtain ⟨s, hrun, -⟩ := map_ok hvalue
      obtain ⟨hwf, items, vs, hitems, hvs⟩ :=
        wellFormed_of_values xs hxs (read_of_runTurns hrun) hinner
      have hchunks : ∀ x ∈ xs, Tree.IsChunk 3 x := by
        intro x hx
        by_contra hchunk
        exact hslip (Or.inr (Or.inl ⟨rfl, x, hx, hchunk⟩))
      obtain ⟨text, htext⟩ := joinText_of_chunks hchunks hitems
      refine ⟨⟨hl, hchunks, hwf⟩, .text text, .str text, ?_, rfl⟩
      rw [Tree.item, hitems]
      show (Tree.joinText items).map Item.text = _
      rw [htext]
      rfl
    · simp only [itemsValue, hm] at hvalue
      obtain ⟨out, hrun, -⟩ := map_ok hvalue
      obtain ⟨hwf, items, vs, hitems, hvs⟩ :=
        wellFormed_of_values xs hxs (read_of_runTurns hrun) hinner
      refine ⟨⟨hl, follow_of_array hm hcount, hwf⟩, .array items, .list vs, ?_, ?_⟩
      · rw [Tree.item, hitems]
        exact joinItems_array hm items
      · rw [pyValue, hvs]
        rfl
    · simp only [itemsValue, hm] at hvalue
      cases hvalue
  | .entries h es, pos, stop, v, hat, hvalue, hslip => by
    obtain ⟨⟨hl, -, hform⟩, hcount, p, hes, -⟩ := hat
    have hinner : ¬ SlipsEntries es := fun hs => hslip (Or.inr hs)
    rw [value] at hvalue
    obtain ⟨out, hrun, -⟩ := map_ok hvalue
    obtain ⟨hwf, pairs, kvs, hpairs, hkvs, hhash⟩ :=
      wellFormed_of_entries es hes (read_of_entryTurns hrun) hinner
    have hdistinct : distinctKeys kvs = true := by
      rw [distinctKeys_iff]
      refine ⟨hhash, ?_⟩
      rw [← keys_of_entries hpairs hkvs]
      by_contra htwins
      exact hslip (Or.inl htwins)
    refine ⟨⟨hl, hform, ?_, hwf⟩, .map pairs, .dict kvs, ?_, ?_⟩
    · intro n hn
      have hk := hcount n hn
      rwa [form_entries hform, if_neg (by decide)] at hk
    · rw [Tree.item, hpairs]
      rfl
    · rw [pyValue, hkvs]
      exact if_pos hdistinct

theorem wellFormed_of_values {data : Bytes} : ∀ (xs : List Tree) {pos p : Nat},
    AtItems data pos xs p → (∀ r ∈ values xs, ∃ v, r = .ok v) → ¬ SlipsItems xs →
    Tree.WellFormedItems xs ∧ ∃ items vs, Tree.itemList xs = some items ∧ pyValues items = some vs
  | [], _, _, _, _, _ => ⟨trivial, [], [], rfl, rfl⟩
  | x :: xs, pos, p, hat, hread, hslip => by
    obtain ⟨q, hx, hxs⟩ := hat
    obtain ⟨v, hv⟩ := hread _ List.mem_cons_self
    obtain ⟨hwf, i, w, hi, hw⟩ := wellFormed_of_value x hx hv (fun h => hslip (Or.inl h))
    obtain ⟨hwfs, items, ws, hitems, hws⟩ := wellFormed_of_values xs hxs
      (fun r hr => hread r (List.mem_cons_of_mem _ hr)) (fun h => hslip (Or.inr h))
    refine ⟨⟨hwf, hwfs⟩, i :: items, w :: ws, ?_, ?_⟩
    · exact Tree.itemList_cons.mpr ⟨i, items, hi, hitems, rfl⟩
    · exact pyValues_cons.mpr ⟨w, ws, hw, hws, rfl⟩

theorem wellFormed_of_entries {data : Bytes} : ∀ (es : List (Tree × Tree)) {pos p : Nat},
    AtEntries data pos es p →
    (∀ e ∈ es, (∃ k, value e.1 = .ok k ∧ k.hashable = true) ∧ ∃ v, value e.2 = .ok v) →
    ¬ SlipsEntries es → Tree.WellFormedEntries es ∧ ∃ pairs kvs, Tree.itemPairs es = some pairs ∧
      pyEntries pairs = some kvs ∧ ∀ e ∈ kvs, e.1.hashable = true
  | [], _, _, _, _, _ => ⟨trivial, [], [], rfl, rfl, nofun⟩
  | (k, v) :: es, pos, p, hat, hread, hslip => by
    obtain ⟨q, r, hk, hv, hes⟩ := hat
    obtain ⟨⟨key, hkey, hhash⟩, item, hitem⟩ := hread _ List.mem_cons_self
    have hslipk : ¬ Slips k := fun h => hslip (Or.inl h)
    obtain ⟨hwfk, a, w, ha, hw⟩ := wellFormed_of_value k hk hkey hslipk
    obtain ⟨hwfv, b, x, hb, hx⟩ := wellFormed_of_value v hv hitem
      (fun h => hslip (Or.inr (Or.inl h)))
    obtain ⟨hwfs, pairs, kvs, hpairs, hkvs, hmore⟩ := wellFormed_of_entries es hes
      (fun e he => hread e (List.mem_cons_of_mem _ he)) (fun h => hslip (Or.inr (Or.inr h)))
    -- the key that was read is the value of the item
    have hsame : w = key := by
      have hvalue := value_of_wellFormed k hwfk (fun h => hslipk (slips_of_chunked k h)) ha
      rw [hkey, loaded_of_pyValue a w hw] at hvalue
      exact (Except.ok.inj hvalue).symm
    refine ⟨⟨hwfk, hwfv, hwfs⟩, (a, b) :: pairs, (w, x) :: kvs, ?_, ?_, ?_⟩
    · exact Tree.itemPairs_cons.mpr ⟨a, b, pairs, ha, hb, hpairs, rfl⟩
    · exact pyEntries_cons.mpr ⟨w, x, kvs, hw, hx, hkvs, rfl⟩
    · intro e he
      rcases List.mem_cons.mp he with rfl | he
      · rw [hsame]
        exact hhash
      · exact hmore e he

end

/- Where nothing slips, the value is that of the item that is written. -/
theorem encodes_of_slipless {d : Bytes} {t : Tree} {v : PyValue} {stop : Nat}
    (hat : At d 0 t stop) (hvalue : value t = .ok v) (hslip : ¬ Slips t) :
    t.WellFormed ∧ ∃ i, t.item = some i ∧ pyValue i = some v := by
  obtain ⟨hwf, i, w, hi, hw⟩ := wellFormed_of_value t hat hvalue hslip
  have hread := value_of_wellFormed t hwf (fun h => hslip (slips_of_chunked t h)) hi
  rw [hvalue, loaded_of_pyValue i w hw] at hread
  refine ⟨hwf, i, hi, ?_⟩
  rw [hw, Except.ok.inj hread]

/- The position after a well-formed tree lies within the data, and up to it the tree is written. -/
theorem written_from_start {d : Bytes} {t : Tree} {stop : Nat} (hwf : t.WellFormed)
    (hat : At d 0 t stop) : stop ≤ d.length ∧ t.write = d.take stop := by
  obtain ⟨⟨rest, hrest⟩, hstop⟩ := Tree.written_of_at t hwf hat
  rw [List.drop_zero] at hrest
  rw [Nat.zero_add] at hstop
  constructor
  · rw [hrest, hstop, List.length_append]
    omega
  · rw [hrest, hstop, List.take_left]

theorem slipless_of_sound {limit : Nat} {d : Bytes} {v : PyValue} {pos : Nat}
    (hparse : parse limit d = .ok (v, pos)) (hsound : Sound limit d) : ¬ Slipped d := by
  rintro ⟨t, stop, hat, hslip⟩
  obtain ⟨-, t', i, hwf, hwrite, hi, hv⟩ := hsound.1 v pos hparse
  have hat' := at_start hwf (d.drop pos)
  rw [hwrite, List.take_append_drop] at hat'
  obtain ⟨rfl, -⟩ := Tree.At.unique t t' hat hat'
  obtain ⟨t'', ⟨hat'', -⟩, hvalue⟩ := (parse_iff limit d v pos).mp hparse
  obtain ⟨rfl, -⟩ := Tree.At.unique t t'' hat hat''
  have hchunks := not_chunked_of_value t hwf hi hv hvalue
  exact slipless_of_wellFormed t hwf hi hv hchunks hslip

/- Two well-formed trees that are written one at the start of the other are the same. -/
theorem not_truncated {d : Bytes} {t : Tree} {stop : Nat} (hwf : t.WellFormed)
    (hwrite : t.write = d.take stop) : ¬ Truncated d := by
  rintro ⟨whole, rest, hwhole, hrest, hcut⟩
  have hjoined : whole.write = t.write ++ (d.drop stop ++ rest) := by
    rw [hcut, hwrite, ← List.append_assoc, List.take_append_drop]
  have hwholeAt := at_start hwhole []
  rw [List.append_nil] at hwholeAt
  have htAt := at_start hwf (d.drop stop ++ rest)
  rw [← hjoined] at htAt
  obtain ⟨rfl, -⟩ := Tree.At.unique t whole htAt hwholeAt
  have hnil : d.drop stop ++ rest = [] := List.self_eq_append_right.mp hjoined
  exact hrest (List.append_eq_nil_iff.mp hnil).2

theorem sound_of_slipless {limit : Nat} {d : Bytes} {v : PyValue} {pos : Nat}
    (hparse : parse limit d = .ok (v, pos)) (hslipless : ¬ Slipped d) : Sound limit d := by
  obtain ⟨t, ⟨hat, -⟩, hvalue⟩ := (parse_iff limit d v pos).mp hparse
  have hslip : ¬ Slips t := fun h => hslipless ⟨t, pos, hat, h⟩
  obtain ⟨hwf, i, hi, hv⟩ := encodes_of_slipless hat hvalue hslip
  obtain ⟨hle, hwrite⟩ := written_from_start hwf hat
  refine ⟨?_, fun hcut => absurd hcut (not_truncated hwf hwrite)⟩
  intro v' pos' hparse'
  rw [hparse] at hparse'
  cases hparse'
  exact ⟨hle, t, i, hwf, hwrite, hi, hv⟩

/-- Whether data that the parser accepts begins with a complete encoding of what it gives, and is
not truncated, is whether its layout has no slip; of data that it does not accept it gives
nothing. -/
theorem parse_sound_iff (limit : Nat) (d : Bytes) :
    ((∃ e, parse limit d = .error e) → Sound limit d) ∧
      ((∃ r, parse limit d = .ok r) → (Sound limit d ↔ ¬ Slipped d)) := by
  constructor
  · rintro ⟨e, he⟩
    refine ⟨?_, fun _ => ⟨e, he⟩⟩
    intro v pos hparse
    rw [he] at hparse
    cases hparse
  · rintro ⟨⟨v, pos⟩, hparse⟩
    exact ⟨slipless_of_sound hparse, sound_of_slipless hparse⟩

/- Of nothing and of a string or an array that is cut off something is made, a length that is left
open is no number, and of two equal keys one is lost. -/
theorem parse_unsound :
    parse 1000 [] = .ok (.none, 0) ∧ parse 1000 [0x45, 0x61] = .ok (.bytes [0x61], 6) ∧
      parse 1000 [0x82, 0x01] = .ok (.list [.int 1, .none], 2) ∧ parse 1000 [0x1F] = .ok (.none, 1) ∧
      parse 1000 [0xA2, 0x01, 0x02, 0x01, 0x03] = .ok (.dict [(.int 1, .int 3)], 5) ∧
      Truncated [] ∧ Truncated [0x82, 0x01] ∧ ¬ Sound 1000 [0x45, 0x61] := by
  refine ⟨rfl, rfl, rfl, rfl, rfl, ?_, ?_, ?_⟩
  · exact ⟨.atom (.definite 0 .immediate 1), [1], by simp [Tree.WellFormed, Head.Legal,
      Head.IsItem, Width.Holds], nofun, rfl⟩
  · exact ⟨.items (.definite 4 .immediate 2) [.atom (.definite 0 .immediate 1),
      .atom (.definite 0 .immediate 1)], [1], by simp [Tree.WellFormed, Tree.WellFormedItems,
      Tree.Follow, Head.Legal, Head.IsItem, Width.Holds], nofun, rfl⟩
  · rintro ⟨hencodes, -⟩
    have hpos := (hencodes (.bytes [0x61]) 6 rfl).1
    exact absurd hpos (by decide)

end Shim

end Credentialsd
