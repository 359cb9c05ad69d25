import Credentialsd.AuthenticatorData
import Credentialsd.CborLimit

/-!
# Which encodings are read rightly (`webext/app/credential_manager_shim.py:188-341`)

Definite lengths are, in any width, and indefinite ones as long as no byte string is
written in chunks; either as long as the items are nested no deeper than the calls may be.
-/

namespace Credentialsd

open Cbor (Head Tree Item Width)
open Cbor.Tree (At)

namespace Shim

/-! ### Encodings without chunked byte strings -/

theorem atomValue_of_item {h : Head} {i : Item} (hi : h.atomItem = some i) :
    atomValue h = loaded i := by
  unfold Head.atomItem at hi
  split at hi <;> cases hi <;> rfl

theorem utf8Decode_of_valid {b : Bytes} {s : String}
    (h : String.fromUTF8? b.toByteArray = some s) : utf8Decode b = .ok s := by
  unfold utf8Decode
  rw [h]
  rfl

theorem stringValue_of_item {h : Head} {b : Bytes} {i : Item} (hi : h.stringItem b = some i) :
    stringValue h b = loaded i := by
  unfold Head.stringItem at hi
  unfold stringValue
  split at hi
  · rename_i hm
    cases hi
    rw [if_pos hm]
    rfl
  · rename_i hm
    obtain ⟨s, hs, rfl⟩ := Option.map_eq_some_iff.mp hi
    rw [if_neg hm, utf8Decode_of_valid hs]
    rfl

theorem runTurns_cons_ok {α : Type} {acc acc' : α} {turn : Turn α} (turns : List (Turn α))
    (h : turn acc = .ok acc') : runTurns acc (turn :: turns) = runTurns acc' turns := by
  unfold runTurns
  rw [List.foldlM_cons, h]
  rfl

theorem runTurns_cons_error {α : Type} {acc : α} {turn : Turn α} (turns : List (Turn α))
    {e : PyError} (h : turn acc = .error e) : runTurns acc (turn :: turns) = .error e := by
  unfold runTurns
  rw [List.foldlM_cons, h]
  rfl

theorem runTurns_loadedItems (items : List Item) (acc : List PyValue) :
    runTurns acc ((items.map loaded).map (itemTurn appendItem)) = loadedItems acc items := by
  induction items generalizing acc with
  | nil => rfl
  | cons x xs ih =>
    rw [List.map_cons, List.map_cons, loadedItems]
    cases hx : loaded x with
    | error e => exact runTurns_cons_error _ rfl
    | ok v =>
      have hturn : itemTurn appendItem (.ok v) acc = .ok (acc ++ [v]) := rfl
      exact (runTurns_cons_ok _ hturn).trans (ih (acc ++ [v]))

theorem runTurns_loadedEntries (entries : List (Item × Item)) (acc : List (PyValue × PyValue)) :
    runTurns acc (entries.map fun e => entryTurn (loaded e.1) (loaded e.2)) =
      loadedEntries acc entries := by
  induction entries generalizing acc with
  | nil => rfl
  | cons e es ih =>
    obtain ⟨k, v⟩ := e
    rw [List.map_cons, loadedEntries]
    cases hk : loaded k with
    | error e => exact runTurns_cons_error _ rfl
    | ok key =>
      cases hv : loaded v with
      | error e => exact runTurns_cons_error _ rfl
      | ok value =>
        cases hset : PyValue.setItem acc key value with
        | error e =>
          refine (runTurns_cons_error _ hset).trans ?_
          simp [hset, Bind.bind, Except.bind]
        | ok acc' =>
          refine (runTurns_cons_ok _ hset).trans ((ih acc').trans ?_)
          simp [hset, Bind.bind, Except.bind]

/- The texts of chunks are joined. -/
theorem runTurns_joinText {items : List Item} {s : String} (h : Tree.joinText items = some s)
    (acc : String) :
    runTurns acc ((items.map loaded).map (itemTurn appendText)) = .ok (acc ++ s) := by
  induction items generalizing s acc with
  | nil =>
    cases h
    rw [String.append_empty]
    rfl
  | cons x xs ih =>
    cases x with
    | text a =>
      obtain ⟨rest, hrest, rfl⟩ := Option.map_eq_some_iff.mp h
      have hturn : itemTurn appendText (.ok (.str a)) acc = .ok (acc ++ a) := rfl
      have hrun := (runTurns_cons_ok ((xs.map loaded).map (itemTurn appendText)) hturn).trans
        (ih hrest (acc ++ a))
      rw [String.append_assoc] at hrun
      exact hrun
    | _ => cases h

/- What a list of items is written for, by the head before it. -/
theorem itemsValue_of_join {h : Head} {xs : List Tree} {items : List Item} {i : Item}
    (hf : Tree.Follow h xs) (hchunks : h ≠ .indefinite 2) (hi : Tree.joinItems h items = some i) :
    itemsValue h (items.map loaded) = loaded i := by
  have harray (hm : h.major = 4) (harr : i = .array items) :
      itemsValue h (items.map loaded) = loaded i := by
    simp only [itemsValue, hm, harr, loaded, runTurns_loadedItems]
  unfold Tree.Follow at hf
  split at hf
  · exact harray rfl (Option.some.inj hi).symm
  · cases items with
    | nil => cases hi
    | cons x xs =>
      cases xs with
      | nil =>
        cases hi
        rfl
      | cons y ys => cases hi
  · exact absurd rfl hchunks
  · obtain ⟨s, hs, rfl⟩ := Option.map_eq_some_iff.mp hi
    show (runTurns "" _).map PyValue.str = _
    rw [runTurns_joinText hs, String.empty_append]
    rfl
  · exact harray rfl (Option.some.inj hi).symm
  · exact hf.elim

mutual

/-- What the parser makes of a well-formed tree is what is written, as long as no byte string
is written in chunks. -/
theorem value_of_wellFormed : ∀ (t : Tree) {i : Item}, t.WellFormed → ¬ t.ChunkedBytes →
    t.item = some i → value t = loaded i
  | .nothing, _, hwf, _, _ => hwf.elim
  | .atom h, i, _, _, hi => atomValue_of_item hi
  | .string h b, i, _, _, hi => stringValue_of_item hi
  | .items h xs, i, hwf, hchunks, hi => by
    obtain ⟨items, hitems, hjoin⟩ := Option.bind_eq_some_iff.mp hi
    have hvalues := values_of_wellFormed xs hwf.2.2 (fun hxs => hchunks (Or.inr hxs)) hitems
    have hhead : h ≠ .indefinite 2 := fun hh => hchunks (Or.inl hh)
    rw [value, hvalues]
    exact itemsValue_of_join hwf.2.1 hhead hjoin
  | .entries h es, i, hwf, hchunks, hi => by
    obtain ⟨pairs, hpairs, rfl⟩ := Option.map_eq_some_iff.mp hi
    have hturns := entryTurns_of_wellFormed es hwf.2.2.2 hchunks hpairs
    rw [value, hturns, runTurns_loadedEntries, loaded]

theorem values_of_wellFormed : ∀ (xs : List Tree) {items : List Item}, Tree.WellFormedItems xs →
    ¬ Tree.ChunkedBytesItems xs → Tree.itemList xs = some items → values xs = items.map loaded
  | [], items, _, _, hi => by
    cases hi
    rfl
  | x :: xs, items, hwf, hchunks, hi => by
    obtain ⟨item, more, hx, hxs, rfl⟩ := Tree.itemList_cons.mp hi
    have hfirst := value_of_wellFormed x hwf.1 (fun h => hchunks (Or.inl h)) hx
    have hrest := values_of_wellFormed xs hwf.2 (fun h => hchunks (Or.inr h)) hxs
    rw [values, hfirst, hrest, List.map_cons]

theorem entryTurns_of_wellFormed : ∀ (es : List (Tree × Tree)) {pairs : List (Item × Item)},
    Tree.WellFormedEntries es → ¬ Tree.ChunkedBytesEntries es → Tree.itemPairs es = some pairs →
    entryTurns es = pairs.map fun e => entryTurn (loaded e.1) (loaded e.2)
  | [], pairs, _, _, hi => by
    cases hi
    rfl
  | (k, v) :: es, pairs, hwf, hchunks, hi => by
    obtain ⟨key, item, more, hk, hv, hes, rfl⟩ := Tree.itemPairs_cons.mp hi
    have hkey := value_of_wellFormed k hwf.1 (fun h => hchunks (Or.inl h)) hk
    have hvalue := value_of_wellFormed v hwf.2.1 (fun h => hchunks (Or.inr (Or.inl h))) hv
    have hrest := entryTurns_of_wellFormed es hwf.2.2 (fun h => hchunks (Or.inr (Or.inr h))) hes
    rw [entryTurns, hkey, hvalue, hrest, List.map_cons]

end

/- A well-formed tree at the start of the data. -/
theorem at_start {t : Tree} (hwf : t.WellFormed) (rest : Bytes) :
    At (t.write ++ rest) 0 t t.write.length := by
  have hdrop : (t.write ++ rest).drop 0 = t.write ++ rest := rfl
  have hat := Tree.at_of_write t hwf hdrop
  rwa [Nat.zero_add] at hat

theorem parse_write {t : Tree} {i : Item} {limit : Nat} (hwf : t.WellFormed)
    (hchunks : ¬ t.ChunkedBytes) (hi : t.item = some i) (hdepth : t.depth ≤ limit) (rest : Bytes) :
    parse limit (t.write ++ rest) = (loaded i).map fun v => (v, t.write.length) := by
  rw [parse_at (at_start hwf rest) hdepth, value_of_wellFormed t hwf hchunks hi]

theorem parse_write_limit {t : Tree} {i : Item} {v : PyValue} (hwf : t.WellFormed)
    (hchunks : ¬ t.ChunkedBytes) (hi : t.item = some i) (hv : pyValue i = some v) (limit : Nat)
    (rest : Bytes) :
    parse limit (t.write ++ rest) =
      if t.depth ≤ limit then .ok (v, t.write.length) else .error .recursionError := by
  have hvalue := value_of_wellFormed t hwf hchunks hi
  rw [loaded_of_pyValue i v hv] at hvalue
  exact parse_limit (at_start hwf rest) hvalue limit

/-! ### Definite lengths -/

def isPlainKey : Item → Bool
  | .uint _ => true
  | .nint _ => true
  | .bytes _ => true
  | .text _ => true
  | _ => false

mutual

/- Integers, strings, booleans, null, arrays, and maps with different integers or strings for
keys. -/
def Plain : Item → Prop
  | .uint _ => True
  | .nint _ => True
  | .bytes _ => True
  | .text _ => True
  | .array items => PlainItems items
  | .map entries =>
    (entries.map Prod.fst).Nodup ∧ (∀ e ∈ entries, isPlainKey e.1) ∧ PlainEntries entries
  | .simple n => n = 20 ∨ n = 21 ∨ n = 22
  | _ => False

def PlainItems : List Item → Prop
  | [] => True
  | x :: xs => Plain x ∧ PlainItems xs

def PlainEntries : List (Item × Item) → Prop
  | [] => True
  | (_, v) :: es => Plain v ∧ PlainEntries es

end

/- Different keys of a plain map are different ones for Python. -/
theorem pyValue_key {k : Item} (h : isPlainKey k) :
    ∃ p, pyValue k = some p ∧ p.hashable = true ∧
      ∀ l q, isPlainKey l → pyValue l = some q → p.sameKey q = true → k = l := by
  cases k with
  | uint n =>
    refine ⟨_, rfl, rfl, ?_⟩
    intro l q hl hq hsame
    cases l <;> cases hl <;> cases hq <;> simp [PyValue.sameKey, PyValue.asInt] at hsame
    · rw [hsame]
    · omega
  | nint n =>
    refine ⟨_, rfl, rfl, ?_⟩
    intro l q hl hq hsame
    cases l <;> cases hl <;> cases hq <;> simp [PyValue.sameKey, PyValue.asInt] at hsame
    · omega
    · rw [hsame]
  | bytes b =>
    refine ⟨_, rfl, rfl, ?_⟩
    intro l q hl hq hsame
    cases l <;> cases hl <;> cases hq <;> simp [PyValue.sameKey, PyValue.asInt] at hsame
    rw [hsame]
  | text s =>
    refine ⟨_, rfl, rfl, ?_⟩
    intro l q hl hq hsame
    cases l <;> cases hl <;> cases hq <;> simp [PyValue.sameKey, PyValue.asInt] at hsame
    rw [hsame]
  | _ => cases h

theorem mem_pyEntries : ∀ {entries : List (Item × Item)} {es : List (PyValue × PyValue)},
    pyEntries entries = some es → ∀ f ∈ es, ∃ e ∈ entries, pyValue e.1 = some f.1
  | [], es, h, f, hf => by
    cases h
    cases hf
  | (k, v) :: more, es, h, f, hf => by
    obtain ⟨key, value, rest, hk, hv, hrest, rfl⟩ := pyEntries_cons.mp h
    rcases List.mem_cons.mp hf with rfl | hf
    · exact ⟨(k, v), List.mem_cons_self, hk⟩
    · obtain ⟨e, he, hvalue⟩ := mem_pyEntries hrest f hf
      exact ⟨e, List.mem_cons_of_mem _ he, hvalue⟩

mutual

/-- A plain item has its value in Python. -/
theorem pyValue_plain : ∀ i : Item, Plain i → ∃ v, pyValue i = some v
  | .uint n, _ => ⟨_, rfl⟩
  | .nint n, _ => ⟨_, rfl⟩
  | .bytes b, _ => ⟨_, rfl⟩
  | .text s, _ => ⟨_, rfl⟩
  | .array items, h => by
    obtain ⟨values, hvalues⟩ := pyValues_plain items h
    exact ⟨.list values, by rw [pyValue, hvalues]; rfl⟩
  | .map entries, ⟨hnodup, hkeys, h⟩ => by
    obtain ⟨es, hes, hdistinct⟩ := pyEntries_plain entries hnodup hkeys h
    refine ⟨.dict es, ?_⟩
    rw [pyValue, hes]
    exact if_pos hdistinct
  | .simple n, h => by
    rcases h with rfl | rfl | rfl
    · exact ⟨.bool false, rfl⟩
    · exact ⟨.bool true, rfl⟩
    · exact ⟨.none, rfl⟩

theorem pyValues_plain : ∀ items : List Item, PlainItems items → ∃ vs, pyValues items = some vs
  | [], _ => ⟨[], rfl⟩
  | x :: xs, h => by
    obtain ⟨v, hv⟩ := pyValue_plain x h.1
    obtain ⟨vs, hvs⟩ := pyValues_plain xs h.2
    exact ⟨v :: vs, pyValues_cons.mpr ⟨v, vs, hv, hvs, rfl⟩⟩

theorem pyEntries_plain : ∀ entries : List (Item × Item), (entries.map Prod.fst).Nodup →
    (∀ e ∈ entries, isPlainKey e.1) → PlainEntries entries →
    ∃ es, pyEntries entries = some es ∧ distinctKeys es = true
  | [], _, _, _ => ⟨[], rfl, rfl⟩
  | (k, v) :: rest, hnodup, hkeys, h => by
    obtain ⟨hnew, hnodup⟩ := List.nodup_cons.mp hnodup
    have hmore : ∀ e ∈ rest, isPlainKey e.1 := fun e he => hkeys e (List.mem_cons_of_mem _ he)
    obtain ⟨key, hk, hhash, hsame⟩ := pyValue_key (hkeys (k, v) List.mem_cons_self)
    obtain ⟨value, hv⟩ := pyValue_plain v h.1
    obtain ⟨es, hes, hdistinct⟩ := pyEntries_plain rest hnodup hmore h.2
    refine ⟨(key, value) :: es, pyEntries_cons.mpr ⟨key, value, es, hk, hv, hes, rfl⟩, ?_⟩
    have hother : (es.any fun f => key.sameKey f.1) = false := by
      rw [List.any_eq_false]
      intro f hf htwice
      obtain ⟨e, he, hvalue⟩ := mem_pyEntries hes f hf
      have heq := hsame e.1 f.1 (hmore e he) hvalue htwice
      exact hnew (List.mem_map.mpr ⟨e, he, heq.symm⟩)
    rw [distinctKeys, hhash, hother, hdistinct]
    rfl

end

/-- A value in definite lengths is read, and nothing of what follows it, and the bytes that are
taken for a public key are its encoding, if it is nested no deeper than the calls may be; otherwise
these run out. -/
theorem parse_definite {i : Item} {t : Tree} (hplain : Plain i) (hwf : t.WellFormed)
    (hdefinite : t.Definite) (hi : t.item = some i) (limit : Nat) (rest : Bytes) :
    (∃ v, pyValue i = some v ∧ parse limit (t.write ++ rest) =
      if Cbor.depth i ≤ limit then .ok (v, t.write.length) else .error .recursionError) ∧
      ∀ authData credIdLength, unpack 2 (slice authData 53 55) = .ok credIdLength →
        authData.drop (55 + credIdLength) = t.write ++ rest →
        readAttested limit authData =
          if Cbor.depth i ≤ limit then .ok (55 + credIdLength + t.write.length,
            slice authData 37 (37 + 16), slice authData 55 (55 + credIdLength), t.write)
          else .error .recursionError := by
  obtain ⟨v, hv⟩ := pyValue_plain i hplain
  have hparse := parse_write_limit hwf (Tree.not_chunkedBytes t hdefinite) hi hv limit rest
  rw [(Tree.depth_item t hi).2 hdefinite] at hparse
  refine ⟨⟨v, hv, hparse⟩, ?_⟩
  intro authData credIdLength hlength hdrop
  have hkey : (t.write ++ rest).take t.write.length = t.write := List.take_left
  unfold readAttested
  simp only [hlength, hdrop, hparse, Bind.bind, Except.bind]
  by_cases hdepth : Cbor.depth i ≤ limit
  · simp only [if_pos hdepth, hkey, if_true]
  · simp only [if_neg hdepth]

/- The key 1 in two bytes and the length of the text in three, at the end of 56 bytes. -/
theorem parse_definite_wide :
    (∃ v, pyValue (.map [(.uint 1, .text "a")]) = some v ∧
      parse 1000 ([0xA1, 0x18, 1, 0x79, 0, 1, 0x61] ++ [0xFF]) = .ok (v, 7)) ∧
    readAttested 1000 (List.replicate 53 0 ++ [0, 0, 0xA1, 0x18, 1, 0x79, 0, 1, 0x61, 0xFF]) =
      .ok (62, List.replicate 16 0, [], [0xA1, 0x18, 1, 0x79, 0, 1, 0x61]) := by
  have htext : String.fromUTF8? [0x61].toByteArray = some "a" := by decide +kernel
  have hread := parse_definite (i := .map [(.uint 1, .text "a")])
    (t := .entries (.definite 5 .immediate 1)
      [(.atom (.definite 0 .one 1), .string (.definite 3 .two 1) [0x61])])
    (by simp [Plain, PlainEntries, isPlainKey])
    (by simp [Tree.WellFormed, Tree.WellFormedEntries, Head.Legal, Head.IsItem, Head.form,
      Head.argument, Head.major, Width.Holds, Width.size])
    (by simp [Tree.Definite, Tree.DefiniteEntries, Head.argument])
    (by simp [Tree.item, Tree.itemPairs, Head.atomItem, Head.stringItem, Head.major, htext]) 1000
    [0xFF]
  exact ⟨hread.1, hread.2 _ 0 (by decide) (by decide)⟩

/- The empty array in `n` others. -/
def nestedItem : Nat → Item
  | 0 => .array []
  | n + 1 => .array [nestedItem n]

def nested : Nat → Tree
  | 0 => .items (.definite 4 .immediate 0) []
  | n + 1 => .items (.definite 4 .immediate 1) [nested n]

theorem nested_spec (n : Nat) : Plain (nestedItem n) ∧ (nested n).WellFormed ∧
    (nested n).Definite ∧ (nested n).item = some (nestedItem n) ∧
    Cbor.depth (nestedItem n) = n + 1 ∧ (nested n).write = List.replicate n 0x81 ++ [0x80] := by
  induction n with
  | zero =>
    refine ⟨trivial, ⟨⟨by decide, ?_⟩, rfl, trivial⟩, ⟨nofun, trivial⟩, rfl, rfl, rfl⟩
    show 0 < 24
    decide
  | succ n ih =>
    obtain ⟨hplain, hwf, hdefinite, hi, hdepth, hwrite⟩ := ih
    refine ⟨⟨hplain, trivial⟩, ⟨⟨by decide, ?_⟩, rfl, hwf, trivial⟩, ⟨nofun, hdefinite, trivial⟩,
      ?_, ?_, ?_⟩
    · show 1 < 24
      decide
    · rw [nested, Tree.item, Tree.itemList, hi]
      rfl
    · rw [nestedItem, Cbor.depth, Cbor.depthItems, Cbor.depthItems, hdepth, Nat.max_zero]
    · rw [nested, Tree.write, Tree.writeItems, Tree.writeItems, hwrite, List.append_nil]
      show 0x81 :: ((List.replicate n 0x81 ++ [0x80]) ++ []) = _
      rw [List.append_nil, List.replicate_succ, List.cons_append]

/- A thousand arrays around an empty one have a value, but it is not read. -/
theorem parse_too_deep :
    Plain (nestedItem 1000) ∧ (∃ v, pyValue (nestedItem 1000) = some v) ∧
      (nested 1000).WellFormed ∧ (nested 1000).Definite ∧
      (nested 1000).item = some (nestedItem 1000) ∧
      (nested 1000).write = List.replicate 1000 0x81 ++ [0x80] ∧
      parse 1000 (List.replicate 1000 0x81 ++ [0x80]) = .error .recursionError := by
  obtain ⟨hplain, hwf, hdefinite, hi, hdepth, hwrite⟩ := nested_spec 1000
  obtain ⟨v, hv⟩ := pyValue_plain (nestedItem 1000) hplain
  have hchunks := Tree.not_chunkedBytes (nested 1000) hdefinite
  have hparse := parse_write_limit hwf hchunks hi hv 1000 []
  rw [List.append_nil, hwrite, (Tree.depth_item (nested 1000) hi).2 hdefinite, hdepth,
    if_neg (by decide)] at hparse
  exact ⟨hplain, ⟨v, hv⟩, hwf, hdefinite, hi, hwrite, hparse⟩

/-! ### Indefinite lengths -/

/- A list that is read has been read item by item. -/
theorem appended_of_runTurns {rs : List (Except PyError PyValue)} {acc out : List PyValue}
    (h : runTurns acc (rs.map (itemTurn appendItem)) = .ok out) :
    ∃ vs : List PyValue, rs = vs.map Except.ok ∧ out = acc ++ vs := by
  induction rs generalizing acc with
  | nil =>
    cases h
    exact ⟨[], rfl, (List.append_nil _).symm⟩
  | cons r rs ih =>
    cases r with
    | error e =>
      have hturn : itemTurn appendItem (.error e) acc = .error e := rfl
      rw [List.map_cons, runTurns_cons_error _ hturn] at h
      cases h
    | ok v =>
      have hturn : itemTurn appendItem (.ok v) acc = .ok (acc ++ [v]) := rfl
      rw [List.map_cons, runTurns_cons_ok _ hturn] at h
      obtain ⟨vs, hvs, hout⟩ := ih h
      refine ⟨v :: vs, by rw [hvs, List.map_cons], ?_⟩
      rw [hout, List.append_assoc, List.singleton_append]

theorem setItem_grows {entries out : List (PyValue × PyValue)} {key value : PyValue}
    (h : PyValue.setItem entries key value = .ok out) :
    out.length ≤ entries.length ∨ out = entries ++ [(key, value)] := by
  unfold PyValue.setItem at h
  split at h
  · cases h
  · split at h
    · cases h
      exact Or.inl (by rw [List.length_map])
    · cases h
      exact Or.inr rfl

/- A dictionary that has as many entries as were read has them as they were read. -/
theorem appended_of_entryTurns : ∀ (es : List (Tree × Tree)) {acc out : List (PyValue × PyValue)},
    runTurns acc (entryTurns es) = .ok out → out.length ≤ acc.length + es.length ∧
      (out.length = acc.length + es.length → ∃ kvs, out = acc ++ kvs ∧
        es.map (fun e => (value e.1, value e.2)) = kvs.map fun e => (.ok e.1, .ok e.2))
  | [], acc, out, h => by
    cases h
    exact ⟨Nat.le_refl _, fun _ => ⟨[], (List.append_nil acc).symm, rfl⟩⟩
  | (k, v) :: es, acc, out, h => by
    obtain ⟨acc', hturn, hrest⟩ := bind_ok (x := entryTurn (value k) (value v) acc) h
    obtain ⟨key, hk, hturn⟩ := bind_ok hturn
    obtain ⟨item, hv, hset⟩ := bind_ok hturn
    obtain ⟨hle, happend⟩ := appended_of_entryTurns es hrest
    rw [List.length_cons]
    rcases setItem_grows hset with hsmall | rfl
    · exact ⟨by omega, fun hlength => by omega⟩
    · rw [List.length_append, List.length_singleton] at hle happend
      refine ⟨by omega, fun hlength => ?_⟩
      obtain ⟨kvs, hout, hkvs⟩ := happend (by omega)
      refine ⟨(key, item) :: kvs, ?_, ?_⟩
      · rw [hout, List.append_assoc, List.singleton_append]
      · rw [List.map_cons, List.map_cons, hkvs, hk, hv]

theorem itemPairs_length {es : List (Tree × Tree)} {pairs : List (Item × Item)}
    (h : Tree.itemPairs es = some pairs) : pairs.length = es.length := by
  induction es generalizing pairs with
  | nil =>
    cases h
    rfl
  | cons e es ih =>
    obtain ⟨key, item, more, hk, hv, hes, rfl⟩ := Tree.itemPairs_cons.mp h
    rw [List.length_cons, List.length_cons, ih hes]

theorem pyEntries_length {entries : List (Item × Item)} {es : List (PyValue × PyValue)}
    (h : pyEntries entries = some es) : es.length = entries.length := by
  induction entries generalizing es with
  | nil =>
    cases h
    rfl
  | cons e rest ih =>
    obtain ⟨key, value, more, hk, hv, hmore, rfl⟩ := pyEntries_cons.mp h
    rw [List.length_cons, List.length_cons, ih hmore]

/- A chunk is written in one piece. -/
theorem not_chunked_of_chunks {m : Nat} : ∀ {xs : List Tree}, (∀ x ∈ xs, Tree.IsChunk m x) →
    ¬ Tree.ChunkedBytesItems xs
  | [], _ => fun h => h
  | x :: xs, h => by
    rintro (hx | hxs)
    · have hchunk := h x List.mem_cons_self
      cases x with
      | string hd b => exact hx
      | _ => exact hchunk
    · exact not_chunked_of_chunks (fun y hy => h y (List.mem_cons_of_mem _ hy)) hxs

mutual

/-- What is read rightly has no byte string in chunks. -/
theorem not_chunked_of_value : ∀ (t : Tree) {i : Item} {v : PyValue}, t.WellFormed →
    t.item = some i → pyValue i = some v → value t = .ok v → ¬ t.ChunkedBytes
  | .nothing, _, _, hwf, _, _, _ => hwf.elim
  | .atom h, _, _, _, _, _, _ => nofun
  | .string h b, _, _, _, _, _, _ => nofun
  | .items h xs, i, v, hwf, hi, hv, hvalue => by
    obtain ⟨items, hitems, hjoin⟩ := Option.bind_eq_some_iff.mp hi
    -- the elements of an array are the only trees that may have chunks in them
    have harray (hm : h.major = 4) (harr : i = .array items) :
        ¬ (Tree.items h xs).ChunkedBytes := by
      subst harr
      obtain ⟨vs, hvs, rfl⟩ := Option.map_eq_some_iff.mp hv
      simp only [value, itemsValue, hm] at hvalue
      obtain ⟨out, hout, heq⟩ := map_ok hvalue
      cases heq
      obtain ⟨ws, hws, rfl⟩ := appended_of_runTurns hout
      have hxs := not_chunked_of_values xs hwf.2.2 hitems hvs hws
      rintro (rfl | hchunk)
      · cases hm
      · exact hxs hchunk
    have hfollow := hwf.2.1
    unfold Tree.Follow at hfollow
    split at hfollow
    · exact harray rfl (Option.some.inj hjoin).symm
    · cases hvalue
    · obtain ⟨b, -, rfl⟩ := Option.map_eq_some_iff.mp hjoin
      cases hv
      obtain ⟨s, -, heq⟩ := map_ok hvalue
      cases heq
    · rintro (hh | hchunk)
      · cases hh
      · exact not_chunked_of_chunks hfollow hchunk
    · exact harray rfl (Option.some.inj hjoin).symm
    · exact hfollow.elim
  | .entries h es, i, v, hwf, hi, hv, hvalue => by
    obtain ⟨pairs, hpairs, rfl⟩ := Option.map_eq_some_iff.mp hi
    obtain ⟨kvs, hkvs, hdict⟩ := Option.bind_eq_some_iff.mp hv
    split at hdict
    · cases hdict
      obtain ⟨out, hout, heq⟩ := map_ok hvalue
      cases heq
      obtain ⟨-, happend⟩ := appended_of_entryTurns es hout
      have hlength : kvs.length = es.length :=
        (pyEntries_length hkvs).trans (itemPairs_length hpairs)
      obtain ⟨_, rfl, hread⟩ := happend (by rw [hlength, List.length_nil, Nat.zero_add])
      exact not_chunked_of_entries es hwf.2.2.2 hpairs hkvs hread
    · cases hdict

theorem not_chunked_of_values : ∀ (xs : List Tree) {items : List Item} {vs : List PyValue},
    Tree.WellFormedItems xs → Tree.itemList xs = some items → pyValues items = some vs →
    values xs = vs.map Except.ok → ¬ Tree.ChunkedBytesItems xs
  | [], _, _, _, _, _, _ => nofun
  | x :: xs, items, vs, hwf, hi, hv, hvalues => by
    obtain ⟨item, more, hx, hxs, rfl⟩ := Tree.itemList_cons.mp hi
    obtain ⟨v, ws, hitem, hmore, rfl⟩ := pyValues_cons.mp hv
    obtain ⟨hfirst, hrest⟩ := List.cons.inj hvalues
    rintro (hchunk | hchunk)
    · exact not_chunked_of_value x hwf.1 hx hitem hfirst hchunk
    · exact not_chunked_of_values xs hwf.2 hxs hmore hrest hchunk

theorem not_chunked_of_entries : ∀ (es : List (Tree × Tree)) {pairs : List (Item × Item)}
    {kvs : List (PyValue × PyValue)}, Tree.WellFormedEntries es → Tree.itemPairs es = some pairs →
    pyEntries pairs = some kvs →
    es.map (fun e => (value e.1, value e.2)) = kvs.map (fun e => (.ok e.1, .ok e.2)) →
    ¬ Tree.ChunkedBytesEntries es
  | [], _, _, _, _, _, _ => nofun
  | (k, v) :: es, pairs, kvs, hwf, hi, hv, hread => by
    obtain ⟨key, item, more, hk, hitem, hes, rfl⟩ := Tree.itemPairs_cons.mp hi
    obtain ⟨p, q, ws, hp, hq, hmore, rfl⟩ := pyEntries_cons.mp hv
    obtain ⟨hfirst, hrest⟩ := List.cons.inj hread
    obtain ⟨hkey, hvalue⟩ := Prod.mk.inj hfirst
    rintro (hchunk | hchunk | hchunk)
    · exact not_chunked_of_value k hwf.1 hk hp hkey hchunk
    · exact not_chunked_of_value v hwf.2.1 hitem hq hvalue hchunk
    · exact not_chunked_of_entries es hwf.2.2 hes hmore hrest hchunk

end

/-- Without chunked byte strings an encoding is read as every definite one of the same item is, up
to its end, if it is nested no deeper than the calls may be. An item with a value in Python is read
in all such encodings but those with chunked byte strings. -/
theorem parse_indefinite {t : Tree} {i : Item} (hwf : t.WellFormed) (hi : t.item = some i)
    (limit : Nat) :
    (¬ t.ChunkedBytes → t.depth ≤ limit →
      ∀ d : Tree, d.WellFormed → d.Definite → d.item = some i → ∀ rest,
        parse limit (t.write ++ rest) =
          (parse limit (d.write ++ rest)).map fun r => (r.1, t.write.length)) ∧
    ∀ v, pyValue i = some v →
      (∀ d : Tree, d.WellFormed → d.Definite → d.item = some i → ∀ rest,
        parse limit (d.write ++ rest) =
          if Cbor.depth i ≤ limit then .ok (v, d.write.length) else .error .recursionError) ∧
      ((∀ rest, parse limit (t.write ++ rest) = .ok (v, t.write.length)) ↔
        ¬ t.ChunkedBytes ∧ t.depth ≤ limit) := by
  refine ⟨?_, ?_⟩
  · intro hchunks hdepth d hd hdef hitem rest
    -- a definite encoding is nested no deeper
    have hdepth' : d.depth ≤ limit := by
      rw [(Tree.depth_item d hitem).2 hdef]
      exact Nat.le_trans (Tree.depth_item t hi).1 hdepth
    rw [parse_write hwf hchunks hi hdepth,
      parse_write hd (Tree.not_chunkedBytes d hdef) hitem hdepth']
    cases loaded i <;> rfl
  · intro v hv
    refine ⟨?_, ?_, ?_⟩
    · intro d hd hdef hitem rest
      rw [parse_write_limit hd (Tree.not_chunkedBytes d hdef) hitem hv limit rest,
        (Tree.depth_item d hitem).2 hdef]
    · intro hread
      obtain ⟨t', ⟨hat, hdepth⟩, hvalue⟩ := (parse_iff limit _ v _).mp (hread [])
      obtain ⟨rfl, -⟩ := Tree.At.unique t t' (at_start hwf []) hat
      exact ⟨not_chunked_of_value t hwf hi hv hvalue, hdepth⟩
    · rintro ⟨hchunks, hdepth⟩ rest
      rw [parse_write_limit hwf hchunks hi hv limit rest, if_pos hdepth]

/- An array of indefinite length with a text in two chunks, and a byte after it. -/
theorem parse_indefinite_array :
    parse 1000 ([0x9F, 0x7F, 0x61, 0x61, 0x61, 0x62, 0xFF, 0xFF] ++ [0x61]) =
      .ok (.list [.str "ab"], 8) := by
  have ha : String.fromUTF8? [0x61].toByteArray = some "a" := by decide +kernel
  have hb : String.fromUTF8? [0x62].toByteArray = some "b" := by decide +kernel
  have htext : Tree.joinText [.text "a", .text "b"] = some "ab" := by decide +kernel
  have hread := parse_indefinite (t := .items (.indefinite 4) [.items (.indefinite 3)
      [.string (.definite 3 .immediate 1) [0x61], .string (.definite 3 .immediate 1) [0x62]]])
    (i := .array [.text "ab"])
    (by simp [Tree.WellFormed, Tree.WellFormedItems, Tree.Follow, Tree.IsChunk, Head.Legal,
      Head.form, Head.argument, Head.major, Width.Holds])
    (by simp [Tree.item, Tree.itemList, Tree.joinItems, Head.stringItem, Head.major, ha, hb, htext])
    1000
  refine (hread.2 (.list [.str "ab"]) rfl).2.mpr ⟨?_, by decide⟩ [0x61]
  simp [Tree.ChunkedBytes, Tree.ChunkedBytesItems]

/- A byte string of one chunk cannot be read, and of no chunks it is read as a text. -/
theorem parse_chunkedBytes :
    (Tree.items (.indefinite 2) [.string (.definite 2 .immediate 1) [0x61]]).WellFormed ∧
    (Tree.items (.indefinite 2) [.string (.definite 2 .immediate 1) [0x61]]).item =
      (Tree.string (.definite 2 .immediate 1) [0x61]).item ∧
    (Tree.items (.indefinite 2) [.string (.definite 2 .immediate 1) [0x61]]).write =
      [0x5F, 0x41, 0x61, 0xFF] ∧
    (Tree.string (.definite 2 .immediate 1) [0x61]).write = [0x41, 0x61] ∧
    parse 1000 [0x5F, 0x41, 0x61, 0xFF] = .error .typeError ∧
    parse 1000 [0x41, 0x61] = .ok (.bytes [0x61], 2) ∧
    parse 1000 [0x5F, 0xFF] = .ok (.str "", 2) := by
  refine ⟨?_, rfl, rfl, rfl, rfl, rfl, rfl⟩
  simp [Tree.WellFormed, Tree.WellFormedItems, Tree.Follow, Tree.IsChunk, Head.Legal, Head.form,
    Head.argument, Head.major, Width.Holds]

end Shim

end Credentialsd
