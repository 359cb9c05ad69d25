import Credentialsd.CborLoads
import Credentialsd.Lib.CborLayout

/-!
# The parser on any bytes

The trees that `_read_value` sees in the data, and what it makes of them. Every
reading that gives a value has its tree, and the tree tells what it gives; so what is
accepted is known from the layout of the data, whether it is an encoding or not.
-/

namespace Credentialsd

open Cbor (Head Tree Width)
open Cbor.Tree (At AtItems AtEntries Stands EndsAt Counts)

namespace Shim

/-! ### What is made of a tree -/

abbrev Turn (α : Type) := α → Except PyError α

def runTurns {α : Type} (acc : α) (turns : List (Turn α)) : Except PyError α :=
  turns.foldlM (fun acc turn => turn acc) acc

/- One turn of a loop that reads one value. -/
def itemTurn {α : Type} (step : α → PyValue → Except PyError α) (r : Except PyError PyValue) :
    Turn α := fun acc => do
  let value ← r
  step acc value

def appendItem (items : List PyValue) (value : PyValue) : Except PyError (List PyValue) :=
  .ok (items ++ [value])

def appendText (s : String) (value : PyValue) : Except PyError String := value.addTo s

def appendByte (s : String) (value : PyValue) : Except PyError String := do
  let first ← value.item0
  first.addTo s

/- One turn of a loop that reads a key and a value. -/
def entryTurn (k v : Except PyError PyValue) : Turn (List (PyValue × PyValue)) := fun entries => do
  let key ← k
  let value ← v
  PyValue.setItem entries key value

def atomValue (h : Head) : Except PyError PyValue :=
  match h.major, h.argument with
  | 0, some n => .ok (.int n)
  | 0, none => .ok .none
  | 1, some n => .ok (.int (-1 - n))
  | 1, none => .error .typeError
  | _, some n => constant n
  | _, none => .error (.exception "Float parsing not implemented")

def stringValue (h : Head) (b : Bytes) : Except PyError PyValue :=
  if h.major = 2 then .ok (.bytes b) else (utf8Decode b).map .str

def itemsValue (h : Head) (rs : List (Except PyError PyValue)) : Except PyError PyValue :=
  match h.major with
  | 2 => (runTurns "" (rs.map (itemTurn appendByte))).map .str
  | 3 => (runTurns "" (rs.map (itemTurn appendText))).map .str
  | 4 => (runTurns [] (rs.map (itemTurn appendItem))).map .list
  | _ => .error (.exception "Tag support not implemented")

mutual

/-- What the parser makes of a tree. -/
def value : Tree → Except PyError PyValue
  | .nothing => .ok .none
  | .atom h => atomValue h
  | .string h b => stringValue h b
  | .items h xs => itemsValue h (values xs)
  | .entries _ es => (runTurns [] (entryTurns es)).map .dict

def values : List Tree → List (Except PyError PyValue)
  | [] => []
  | x :: xs => value x :: values xs

def entryTurns : List (Tree × Tree) → List (Turn (List (PyValue × PyValue)))
  | [] => []
  | (k, v) :: es => entryTurn (value k) (value v) :: entryTurns es

end

theorem values_length (xs : List Tree) : (values xs).length = xs.length := by
  induction xs with
  | nil => rfl
  | cons x xs ih => simp only [values, List.length_cons, ih]

theorem entryTurns_length (es : List (Tree × Tree)) : (entryTurns es).length = es.length := by
  induction es with
  | nil => rfl
  | cons e es ih => simp only [entryTurns, List.length_cons, ih]

/-! ### Heads -/

theorem form_atom {h : Head} (hl : h.Legal) (hf : h.form = .atom) :
    h.major = 0 ∨ h.major = 1 ∨ h.major = 7 := by
  have hm := hl.major_lt
  unfold Head.form at hf
  generalize h.major = m at *
  generalize h.argument = argument at *
  interval_cases m <;> cases argument <;> simp_all

theorem form_string {h : Head} (hf : h.form = .string) :
    (h.major = 2 ∨ h.major = 3) ∧ ∃ n, h.argument = some n := by
  unfold Head.form at hf
  split at hf <;> simp_all

theorem form_items {h : Head} (hf : h.form = .items) :
    ((h.major = 2 ∨ h.major = 3) ∧ h.argument = none) ∨ h.major = 4 ∨ h.major = 6 := by
  unfold Head.form at hf
  split at hf <;> simp_all

theorem form_entries {h : Head} (hf : h.form = .entries) : h.major = 5 := by
  unfold Head.form at hf
  split at hf <;> simp_all

theorem readArgument_head {h : Head} (hl : h.Legal) (rest : Bytes) :
    readArgument h.info (h.tail ++ rest) = .ok (h.argument, h.tail.length) := by
  cases h with
  | indefinite m => rfl
  | definite m w n =>
    cases w with
    | immediate => exact if_pos hl.2
    | one =>
      rw [Head.tail, Cbor.bigEndian_length]
      exact readArgument_long 1 24 rest hl.2 (by simp)
    | two =>
      rw [Head.tail, Cbor.bigEndian_length]
      exact readArgument_long 2 25 rest hl.2 (by simp)
    | four =>
      rw [Head.tail, Cbor.bigEndian_length]
      exact readArgument_long 4 26 rest hl.2 (by simp)
    | eight =>
      rw [Head.tail, Cbor.bigEndian_length]
      exact readArgument_long 8 27 rest hl.2 (by simp)

theorem readValue_stands {limit : Nat} {data : Bytes} {pos : Nat} {h : Head} (hl : h.Legal)
    (hs : Stands data pos h) :
    readValue (limit + 1) data pos =
      readContent (readValue limit data) data h.major h.argument (pos + h.bytes.length) := by
  obtain ⟨rest, hdrop⟩ := hs
  have hlength : pos + h.bytes.length = pos + 1 + h.tail.length := by
    rw [Head.bytes, List.length_cons]
    omega
  rw [hlength]
  exact readValue_first h.major hdrop hl.major_lt hl.info_lt (readArgument_head hl rest)

/- The head that was read. -/
theorem head_of_readArgument {first : UInt8} {rest : Bytes} {argument : Option Nat} {k : Nat}
    (h : readArgument (first.toNat % 32) rest = .ok (argument, k)) :
    ∃ hd : Head, hd.Legal ∧ hd.major = first.toNat / 32 ∧ hd.argument = argument ∧
      hd.bytes.length = k + 1 ∧ first :: rest = hd.bytes ++ rest.drop k := by
  have hfirst : first.toNat < 256 := first.toNat_lt
  have hbyte (info : Nat) (hinfo : first.toNat % 32 = info) :
      first = UInt8.ofNat (32 * (first.toNat / 32) + info) := by
    rw [← hinfo, Nat.div_add_mod, UInt8.ofNat_toNat]
  have hmajor : first.toNat / 32 < 8 := by omega
  have hlong (w : Width) (hw : w ≠ .immediate) (hinfo : first.toNat % 32 = w.info 0)
      (hread : (unpack w.size (rest.take w.size)).map (fun n => (some n, w.size)) =
        .ok (argument, k)) :
      ∃ hd : Head, hd.Legal ∧ hd.major = first.toNat / 32 ∧ hd.argument = argument ∧
        hd.bytes.length = k + 1 ∧ first :: rest = hd.bytes ++ rest.drop k := by
    unfold unpack at hread
    split at hread
    · rename_i hlength
      cases hread
      have hlt := Cbor.fromBigEndian_lt (rest.take w.size)
      have hwritten := Cbor.bigEndian_fromBigEndian (rest.take w.size)
      rw [hlength] at hlt hwritten
      have hinfo' : first.toNat % 32 = w.info (Cbor.fromBigEndian (rest.take w.size)) := by
        rw [hinfo]
        cases w with
        | immediate => exact absurd rfl hw
        | one => rfl
        | two => rfl
        | four => rfl
        | eight => rfl
      have hholds : w.Holds (Cbor.fromBigEndian (rest.take w.size)) := by
        cases w with
        | immediate => exact absurd rfl hw
        | one => exact hlt
        | two => exact hlt
        | four => exact hlt
        | eight => exact hlt
      refine ⟨.definite (first.toNat / 32) w (Cbor.fromBigEndian (rest.take w.size)),
        ⟨hmajor, hholds⟩, rfl, rfl, ?_, ?_⟩
      · rw [Head.bytes, List.length_cons, Head.tail, hwritten, hlength]
      · rw [Head.bytes, Head.tail, hwritten, List.cons_append, List.take_append_drop]
        exact congrArg (· :: rest) (hbyte _ hinfo')
    · cases hread
  unfold readArgument at h
  split at h
  · rename_i himm
    cases h
    exact ⟨.definite (first.toNat / 32) .immediate (first.toNat % 32), ⟨hmajor, himm⟩, rfl, rfl,
      rfl, congrArg (· :: rest) (hbyte _ rfl)⟩
  · split at h
    · rename_i hinfo
      exact hlong .one (by decide) hinfo h
    · split at h
      · rename_i hinfo
        exact hlong .two (by decide) hinfo h
      · split at h
        · rename_i hinfo
          exact hlong .four (by decide) hinfo h
        · split at h
          · rename_i hinfo
            exact hlong .eight (by decide) hinfo h
          · split at h
            · rename_i hinfo
              cases h
              exact ⟨.indefinite (first.toNat / 32), hmajor, rfl, rfl, rfl,
                congrArg (· :: rest) (hbyte _ hinfo)⟩
            · cases h

/-! ### Loops -/

section Loops

variable {α : Type} {data : Bytes} {body : α → Nat → Except PyError (α × Nat)}

/-- The body of a loop, turn by turn: what each makes of the accumulator and where it ends. -/
def Chain (data : Bytes) (body : α → Nat → Except PyError (α × Nat)) :
    Nat → List (Turn α) → Nat → Prop
  | pos, [], stop => stop = pos
  | pos, turn :: turns, stop =>
    ∃ p, pos ≤ p ∧ data[pos]? ≠ some 0xFF ∧ (∀ acc, body acc pos = (turn acc).map fun a => (a, p)) ∧
      Chain data body p turns stop

theorem Chain.le {pos stop : Nat} {turns : List (Turn α)} (h : Chain data body pos turns stop) :
    pos ≤ stop := by
  induction turns generalizing pos with
  | nil => exact Nat.le_of_eq (Eq.symm h)
  | cons turn turns ih =>
    obtain ⟨p, hle, -, -, hrest⟩ := h
    exact Nat.le_trans hle (ih hrest)

theorem times_chain {pos stop : Nat} {turns : List (Turn α)}
    (h : Chain data body pos turns stop) (acc : α) :
    times body turns.length acc pos = (runTurns acc turns).map fun a => (a, stop) := by
  induction turns generalizing pos acc with
  | nil =>
    obtain rfl : stop = pos := h
    rfl
  | cons turn turns ih =>
    obtain ⟨p, -, -, hbody, hrest⟩ := h
    unfold runTurns
    rw [List.length_cons, times, hbody, List.foldlM_cons]
    cases turn acc with
    | error e => rfl
    | ok acc' => exact ih hrest acc'

theorem untilBreak_chain {pos stop fuel : Nat} {turns : List (Turn α)}
    (h : Chain data body pos turns stop) (hbreak : data[stop]? = some 0xFF)
    (hfuel : turns.length < fuel) (acc : α) :
    untilBreak data body fuel acc pos = (runTurns acc turns).map fun a => (a, stop) := by
  have hstop : stop < data.length := (List.getElem?_eq_some_iff.mp hbreak).1
  induction turns generalizing pos acc fuel with
  | nil =>
    obtain rfl : stop = pos := h
    obtain ⟨fuel, rfl⟩ := Nat.exists_eq_add_of_lt hfuel
    simp only [untilBreak, hbreak]
    rfl
  | cons turn turns ih =>
    obtain ⟨p, hle, hnot, hbody, hrest⟩ := h
    have hp := hrest.le
    cases fuel with
    | zero => cases hfuel
    | succ fuel =>
      have hbyte : data[pos]? = some data[pos] := List.getElem?_eq_getElem (by omega)
      have hne : data[pos] ≠ 0xFF := by
        intro heq
        rw [hbyte, heq] at hnot
        exact hnot rfl
      unfold runTurns
      rw [untilBreak, hbyte]
      simp only [if_neg hne]
      rw [hbody, List.foldlM_cons]
      cases turn acc with
      | error e => rfl
      | ok acc' => exact ih hrest (Nat.lt_of_succ_lt_succ hfuel) acc'

/- Things that stand one after the other. -/
def Parts {β : Type} (at_ : Nat → β → Nat → Prop) : Nat → List β → Nat → Prop
  | pos, [], stop => stop = pos
  | pos, b :: bs, stop => ∃ p, at_ pos b p ∧ Parts at_ p bs stop

variable {β : Type} {at_ : Nat → β → Nat → Prop} {turn : β → Turn α}

theorem times_parts
    (hbody : ∀ acc pos acc' p, body acc pos = .ok (acc', p) → ∃ b, at_ pos b p ∧
      turn b acc = .ok acc') {n : Nat} {acc acc' : α} {pos stop : Nat}
    (h : times body n acc pos = .ok (acc', stop)) :
    ∃ bs, bs.length = n ∧ Parts at_ pos bs stop ∧ runTurns acc (bs.map turn) = .ok acc' := by
  induction n generalizing acc pos with
  | zero =>
    cases h
    exact ⟨[], rfl, rfl, rfl⟩
  | succ n ih =>
    rw [times] at h
    obtain ⟨⟨acc₁, p⟩, hfirst, hrest⟩ := bind_ok h
    obtain ⟨b, hb, hturn⟩ := hbody acc pos acc₁ p hfirst
    obtain ⟨bs, hlength, hbs, hrun⟩ := ih hrest
    refine ⟨b :: bs, by rw [List.length_cons, hlength], ⟨p, hb, hbs⟩, ?_⟩
    unfold runTurns
    rw [List.map_cons, List.foldlM_cons, hturn]
    exact hrun

theorem untilBreak_parts
    (hbody : ∀ acc pos acc' p, body acc pos = .ok (acc', p) → ∃ b, at_ pos b p ∧
      turn b acc = .ok acc') {fuel : Nat} {acc acc' : α} {pos stop : Nat}
    (h : untilBreak data body fuel acc pos = .ok (acc', stop)) :
    ∃ bs, Parts at_ pos bs stop ∧ data[stop]? = some 0xFF ∧
      runTurns acc (bs.map turn) = .ok acc' := by
  induction fuel generalizing acc pos with
  | zero => cases h
  | succ fuel ih =>
    rw [untilBreak] at h
    split at h
    · cases h
    · rename_i b hbyte
      split at h
      · rename_i hff
        cases h
        exact ⟨[], rfl, by rw [hbyte, hff], rfl⟩
      · obtain ⟨⟨acc₁, p⟩, hfirst, hrest⟩ := bind_ok h
        obtain ⟨b, hb, hturn⟩ := hbody acc pos acc₁ p hfirst
        obtain ⟨bs, hbs, hbreak, hrun⟩ := ih hrest
        refine ⟨b :: bs, ⟨p, hb, hbs⟩, hbreak, ?_⟩
        unfold runTurns
        rw [List.map_cons, List.foldlM_cons, hturn]
        exact hrun

end Loops

/-! ### Reading a tree -/

/- Values that are read one after the other. -/
def Reads (data : Bytes) (read : Nat → Except PyError (PyValue × Nat)) :
    Nat → List (Except PyError PyValue) → Nat → Prop
  | pos, [], stop => stop = pos
  | pos, r :: rs, stop =>
    ∃ p, pos ≤ p ∧ data[pos]? ≠ some 0xFF ∧ read pos = (r.map fun v => (v, p)) ∧
      Reads data read p rs stop

/- A loop whose body reads one value and goes on with it. -/
theorem Reads.chain {α : Type} {data : Bytes} {read : Nat → Except PyError (PyValue × Nat)}
    {step : α → PyValue → Except PyError α} {body : α → Nat → Except PyError (α × Nat)}
    (hbody : ∀ acc pos, body acc pos = read pos >>= fun r => (step acc r.1).map fun a => (a, r.2))
    {pos stop : Nat} {rs : List (Except PyError PyValue)} (h : Reads data read pos rs stop) :
    Chain data body pos (rs.map (itemTurn step)) stop := by
  induction rs generalizing pos with
  | nil => exact h
  | cons r rs ih =>
    obtain ⟨p, hle, hnot, hread, hrest⟩ := h
    refine ⟨p, hle, hnot, ?_, ih hrest⟩
    intro acc
    rw [hbody, hread]
    cases r with
    | error e => rfl
    | ok v => rfl

theorem readItem_eq (read : Nat → Except PyError (PyValue × Nat)) (acc : List PyValue) (pos : Nat) :
    readItem read acc pos =
      read pos >>= fun r => (appendItem acc r.1).map fun a => (a, r.2) := rfl

theorem readText_eq (read : Nat → Except PyError (PyValue × Nat)) (acc : String) (pos : Nat) :
    readText read acc pos = read pos >>= fun r => (appendText acc r.1).map fun a => (a, r.2) := by
  unfold readText appendText
  refine bind_congr fun r => ?_
  obtain ⟨v, p⟩ := r
  show (v.addTo acc >>= fun s => Except.ok (s, p)) = (v.addTo acc).map fun a => (a, p)
  cases v.addTo acc <;> rfl

theorem readByte_eq (read : Nat → Except PyError (PyValue × Nat)) (acc : String) (pos : Nat) :
    readByte read acc pos = read pos >>= fun r => (appendByte acc r.1).map fun a => (a, r.2) := by
  unfold readByte appendByte
  refine bind_congr fun r => ?_
  obtain ⟨v, p⟩ := r
  show (v.item0 >>= fun first => first.addTo acc >>= fun s => Except.ok (s, p)) =
    (v.item0 >>= fun first => first.addTo acc).map fun a => (a, p)
  cases v.item0 with
  | error e => rfl
  | ok first =>
    show (first.addTo acc >>= fun s => Except.ok (s, p)) = (first.addTo acc).map fun a => (a, p)
    cases first.addTo acc <;> rfl

theorem readEntry_eq {read : Nat → Except PyError (PyValue × Nat)} {pos q p : Nat}
    {k v : Except PyError PyValue} (hk : read pos = k.map fun x => (x, q))
    (hv : read q = v.map fun x => (x, p)) (acc : List (PyValue × PyValue)) :
    readEntry read acc pos = (entryTurn k v acc).map fun a => (a, p) := by
  unfold readEntry entryTurn
  rw [hk]
  cases k with
  | error e => rfl
  | ok key =>
    show (read q >>= fun r => PyValue.setItem acc key r.1 >>= fun a => Except.ok (a, r.2)) =
      (v >>= fun value => PyValue.setItem acc key value).map fun a => (a, p)
    rw [hv]
    cases v with
    | error e => rfl
    | ok value =>
      show (PyValue.setItem acc key value >>= fun a => Except.ok (a, p)) =
        (PyValue.setItem acc key value).map fun a => (a, p)
      cases PyValue.setItem acc key value <;> rfl

section Content

variable {read : Nat → Except PyError (PyValue × Nat)} {data : Bytes} {h : Head} {pos p stop : Nat}

theorem readContent_atom (hl : h.Legal) (hf : h.form = .atom) (pos : Nat) :
    readContent read data h.major h.argument pos = (atomValue h).map fun v => (v, pos) := by
  unfold atomValue
  rcases form_atom hl hf with hm | hm | hm
  · rw [hm]
    cases h.argument <;> rfl
  · rw [hm]
    cases h.argument <;> rfl
  · rw [hm]
    cases h.argument with
    | none => rfl
    | some n => exact readContent_constant read data n pos

theorem readContent_string (hf : h.form = .string) {n : Nat} (hn : h.argument = some n) :
    readContent read data h.major h.argument pos =
      (stringValue h ((data.drop pos).take n)).map fun v => (v, pos + n) := by
  have hslice : slice data pos (pos + n) = (data.drop pos).take n := by
    rw [slice, List.drop_take, Nat.add_sub_cancel_left]
  unfold stringValue
  rw [hn]
  rcases (form_string hf).1 with hm | hm
  · rw [hm, ← hslice]
    rfl
  · rw [hm, ← hslice]
    show (utf8Decode _).map _ = ((utf8Decode _).map PyValue.str).map _
    cases utf8Decode (slice data pos (pos + n)) <;> rfl

/- A chunked or counted loop, by its turns. -/
theorem loop_chain {α : Type} {body : α → Nat → Except PyError (α × Nat)} {turns : List (Turn α)}
    (hchain : Chain data body pos turns p) (hend : EndsAt data h p stop)
    (hlt : p < data.length → turns.length < data.length) (acc : α) :
    (h.argument ≠ none → stop = p ∧
      times body turns.length acc pos = (runTurns acc turns).map fun a => (a, p)) ∧
    (h.argument = none → stop = p + 1 ∧
      untilBreak data body (data.length + 1) acc pos =
        (runTurns acc turns).map fun a => (a, p)) := by
  rcases hend with ⟨hsome, rfl⟩ | ⟨hnone, hbreak, rfl⟩
  · exact ⟨fun _ => ⟨rfl, times_chain hchain acc⟩, fun hnone => absurd hnone hsome⟩
  · have hp : p < data.length := (List.getElem?_eq_some_iff.mp hbreak).1
    refine ⟨fun hsome => absurd hnone hsome, fun _ => ⟨rfl, ?_⟩⟩
    exact untilBreak_chain hchain hbreak (Nat.lt_succ_of_lt (hlt hp)) acc

theorem readContent_items (hf : h.form = .items) {rs : List (Except PyError PyValue)}
    (hcount : Counts h rs.length) (hreads : Reads data read pos rs p) (hend : EndsAt data h p stop)
    (hlt : p < data.length → rs.length < data.length) :
    readContent read data h.major h.argument pos = (itemsValue h rs).map fun v => (v, stop) := by
  have hloop {α : Type} {step : α → PyValue → Except PyError α} (acc : α)
      {body : α → Nat → Except PyError (α × Nat)}
      (hbody : ∀ acc pos, body acc pos = read pos >>= fun r =>
        (step acc r.1).map fun a => (a, r.2)) :=
    loop_chain (hreads.chain hbody) hend (by rwa [List.length_map]) acc
  unfold itemsValue
  rcases form_items hf with ⟨hm | hm, harg⟩ | hm | hm
  · obtain ⟨hstop, hbreak⟩ := (hloop "" (readByte_eq read)).2 harg
    rw [hm, harg, hstop]
    simp only [readContent, hbreak]
    cases runTurns "" (rs.map (itemTurn appendByte)) <;> rfl
  · obtain ⟨hstop, hbreak⟩ := (hloop "" (readText_eq read)).2 harg
    rw [hm, harg, hstop]
    simp only [readContent, hbreak]
    cases runTurns "" (rs.map (itemTurn appendText)) <;> rfl
  · cases harg : h.argument with
    | none =>
      obtain ⟨hstop, hbreak⟩ := (hloop [] (readItem_eq read)).2 harg
      rw [hm, hstop]
      simp only [readContent, hbreak]
      cases runTurns [] (rs.map (itemTurn appendItem)) <;> rfl
    | some n =>
      have hn : rs.length = n := by
        have hk := hcount n harg
        rwa [hm, if_neg (by decide)] at hk
      have hsome : h.argument ≠ none := by simp [harg]
      obtain ⟨hstop, htimes⟩ := (hloop [] (readItem_eq read)).1 hsome
      rw [List.length_map, hn] at htimes
      rw [hm, hstop]
      simp only [readContent, htimes]
      cases runTurns [] (rs.map (itemTurn appendItem)) <;> rfl
  · rw [hm]
    cases h.argument <;> rfl

theorem readContent_entries (hf : h.form = .entries)
    {turns : List (Turn (List (PyValue × PyValue)))} (hcount : Counts h turns.length)
    (hchain : Chain data (readEntry read) pos turns p) (hend : EndsAt data h p stop)
    (hlt : p < data.length → turns.length < data.length) :
    readContent read data h.major h.argument pos =
      ((runTurns [] turns).map PyValue.dict).map fun v => (v, stop) := by
  have hloop := loop_chain hchain hend hlt []
  have hm := form_entries hf
  cases harg : h.argument with
  | none =>
    obtain ⟨hstop, hbreak⟩ := hloop.2 harg
    rw [hm, hstop]
    simp only [readContent, hbreak]
    cases runTurns [] turns <;> rfl
  | some n =>
    have hn : turns.length = n := by
      have hk := hcount n harg
      rwa [hm, if_neg (by decide)] at hk
    have hsome : h.argument ≠ none := by simp [harg]
    obtain ⟨hstop, htimes⟩ := hloop.1 hsome
    rw [hn] at htimes
    rw [hm, hstop]
    simp only [readContent, htimes]
    cases runTurns [] turns <;> rfl

end Content

mutual

/-- A tree in the data that is not nested too deep is read, and the reading gives its value. -/
theorem readValue_at {data : Bytes} : ∀ (t : Tree) {limit pos stop : Nat}, At data pos t stop →
    t.depth ≤ limit → readValue limit data pos = (value t).map fun v => (v, stop)
  | t, 0, _, _, _, hdepth => absurd hdepth (Nat.not_le_of_lt t.depth_pos)
  | .nothing, limit + 1, pos, stop, h, _ => by
    obtain ⟨hend, rfl⟩ := h
    have hdrop : data.drop stop = [] := List.drop_eq_nil_of_le hend
    simp only [readValue, hdrop]
    rfl
  | .atom hd, limit + 1, pos, stop, h, _ => by
    obtain ⟨⟨hl, hs, hf⟩, -, rfl⟩ := h
    rw [readValue_stands hl hs]
    exact readContent_atom hl hf _
  | .string hd b, limit + 1, pos, stop, h, _ => by
    obtain ⟨⟨hl, hs, hf⟩, n, hn, rfl, rfl⟩ := h
    rw [readValue_stands hl hs]
    exact readContent_string hf hn
  | .items hd xs, limit + 1, pos, stop, h, hdepth => by
    obtain ⟨⟨hl, hs, hf⟩, hcount, p, hxs, hend⟩ := h
    have hlength := AtItems.length_le xs hxs
    have hpos := hd.bytes_length_pos
    rw [readValue_stands hl hs]
    refine readContent_items hf ?_ (reads_at xs hxs (Nat.le_of_succ_le_succ hdepth)) hend ?_
    · rwa [values_length]
    · rw [values_length]
      intro hp
      have hbound := hlength hp
      omega
  | .entries hd es, limit + 1, pos, stop, h, hdepth => by
    obtain ⟨⟨hl, hs, hf⟩, hcount, p, hes, hend⟩ := h
    have hlength := AtEntries.length_le es hes
    have hpos := hd.bytes_length_pos
    rw [readValue_stands hl hs]
    refine readContent_entries hf ?_ (chain_at es hes (Nat.le_of_succ_le_succ hdepth)) hend ?_
    · rwa [entryTurns_length]
    · rw [entryTurns_length]
      intro hp
      have hbound := hlength hp
      omega

theorem reads_at {data : Bytes} : ∀ (xs : List Tree) {limit pos p : Nat}, AtItems data pos xs p →
    Tree.depthItems xs ≤ limit → Reads data (readValue limit data) pos (values xs) p
  | [], _, _, _, h, _ => h
  | x :: xs, limit, pos, p, h, hdepth => by
    obtain ⟨q, hx, hxs⟩ := h
    simp only [Tree.depthItems] at hdepth
    have hq := At.advance x hx
    exact ⟨q, by omega, hx.not_break, readValue_at x hx (by omega), reads_at xs hxs (by omega)⟩

theorem chain_at {data : Bytes} : ∀ (es : List (Tree × Tree)) {limit pos p : Nat},
    AtEntries data pos es p → Tree.depthEntries es ≤ limit →
    Chain data (readEntry (readValue limit data)) pos (entryTurns es) p
  | [], _, _, _, h, _ => h
  | (k, v) :: es, limit, pos, p, h, hdepth => by
    obtain ⟨q, r, hk, hv, hes⟩ := h
    simp only [Tree.depthEntries] at hdepth
    have hq := At.advance k hk
    have hr := At.advance v hv
    have hkey : readValue limit data pos = _ := readValue_at k hk (by omega)
    have hvalue : readValue limit data q = _ := readValue_at v hv (by omega)
    exact ⟨r, by omega, hk.not_break, readEntry_eq hkey hvalue, chain_at es hes (by omega)⟩

end

/-! ### The tree of a reading -/

/- A tree stands in the data, and is not nested too deep. -/
def Within (data : Bytes) (limit pos : Nat) (t : Tree) (stop : Nat) : Prop :=
  At data pos t stop ∧ t.depth ≤ limit

theorem atItems_of_parts {data : Bytes} {limit : Nat} : ∀ (xs : List Tree) {pos p : Nat},
    Parts (Within data limit) pos xs p → AtItems data pos xs p ∧ Tree.depthItems xs ≤ limit
  | [], _, _, h => ⟨h, Nat.zero_le _⟩
  | _ :: xs, _, _, h => by
    obtain ⟨q, ⟨hx, hdepth⟩, hxs⟩ := h
    obtain ⟨hat, hdepths⟩ := atItems_of_parts xs hxs
    exact ⟨⟨q, hx, hat⟩, Nat.max_le.mpr ⟨hdepth, hdepths⟩⟩

theorem atEntries_of_parts {data : Bytes} {limit : Nat} : ∀ (es : List (Tree × Tree)) {pos p : Nat},
    Parts (fun pos e p => ∃ q, Within data limit pos e.1 q ∧ Within data limit q e.2 p) pos es p →
      AtEntries data pos es p ∧ Tree.depthEntries es ≤ limit
  | [], _, _, h => ⟨h, Nat.zero_le _⟩
  | (_, _) :: es, _, _, h => by
    obtain ⟨r, ⟨q, ⟨hk, hkey⟩, hv, hvalue⟩, hes⟩ := h
    obtain ⟨hat, hdepths⟩ := atEntries_of_parts es hes
    exact ⟨⟨q, r, hk, hv, hat⟩, Nat.max_le.mpr ⟨Nat.max_le.mpr ⟨hkey, hvalue⟩, hdepths⟩⟩

theorem values_eq_map (xs : List Tree) : values xs = xs.map value := by
  induction xs with
  | nil => rfl
  | cons x xs ih => rw [values, List.map_cons, ih]

theorem entryTurns_eq_map (es : List (Tree × Tree)) :
    entryTurns es = es.map fun e => entryTurn (value e.1) (value e.2) := by
  induction es with
  | nil => rfl
  | cons e es ih => rw [entryTurns, List.map_cons, ih]

section Readings

variable {read : Nat → Except PyError (PyValue × Nat)} {data : Bytes} {limit : Nat}

/- Everything that is read has its tree. -/
def HasTrees (read : Nat → Except PyError (PyValue × Nat)) (data : Bytes) (limit : Nat) : Prop :=
  ∀ pos v stop, read pos = .ok (v, stop) → ∃ t, Within data limit pos t stop ∧ value t = .ok v

/- What one turn of a loop has read. -/
theorem item_of_body (hread : HasTrees read data limit) {α : Type}
    {step : α → PyValue → Except PyError α} {body : α → Nat → Except PyError (α × Nat)}
    (hbody : ∀ acc pos, body acc pos = read pos >>= fun r => (step acc r.1).map fun a => (a, r.2))
    (acc : α) (pos : Nat) (acc' : α) (p : Nat) (h : body acc pos = .ok (acc', p)) :
    ∃ t, Within data limit pos t p ∧ itemTurn step (value t) acc = .ok acc' := by
  rw [hbody] at h
  obtain ⟨⟨v, q⟩, hv, hstep⟩ := bind_ok h
  obtain ⟨a, ha, heq⟩ := map_ok hstep
  cases heq
  obtain ⟨t, ht, hvalue⟩ := hread pos v q hv
  refine ⟨t, ht, ?_⟩
  unfold itemTurn
  rw [hvalue]
  exact ha

theorem entry_of_body (hread : HasTrees read data limit)
    (acc : List (PyValue × PyValue)) (pos : Nat) (acc' : List (PyValue × PyValue)) (p : Nat)
    (h : readEntry read acc pos = .ok (acc', p)) :
    ∃ e : Tree × Tree, (∃ q, Within data limit pos e.1 q ∧ Within data limit q e.2 p) ∧
      entryTurn (value e.1) (value e.2) acc = .ok acc' := by
  unfold readEntry at h
  obtain ⟨⟨key, q⟩, hk, h⟩ := bind_ok h
  obtain ⟨⟨v, r⟩, hv, h⟩ := bind_ok h
  obtain ⟨entries, hset, heq⟩ := bind_ok h
  cases heq
  obtain ⟨k, hk, hkey⟩ := hread pos key q hk
  obtain ⟨t, ht, hvalue⟩ := hread q v _ hv
  refine ⟨(k, t), ⟨q, hk, ht⟩, ?_⟩
  unfold entryTurn
  rw [hkey, hvalue]
  exact hset

theorem runTurns_values {α : Type} (step : α → PyValue → Except PyError α) (acc : α)
    (xs : List Tree) :
    runTurns acc (xs.map fun t => itemTurn step (value t)) =
      runTurns acc ((values xs).map (itemTurn step)) := by
  rw [values_eq_map, List.map_map]
  rfl

/- The items that a loop has read, up to a break or by their number. -/
theorem items_of_loop (hread : HasTrees read data limit) {h : Head} (hl : h.Legal) {pos : Nat}
    (hs : Stands data pos h) (hf : h.form = .items) {α : Type}
    {step : α → PyValue → Except PyError α} {body : α → Nat → Except PyError (α × Nat)}
    (hbody : ∀ acc pos, body acc pos = read pos >>= fun r => (step acc r.1).map fun a => (a, r.2))
    {acc a : α} {mk : α → PyValue}
    (hvalue : ∀ rs, itemsValue h rs = (runTurns acc (rs.map (itemTurn step))).map mk) {p : Nat} :
    (h.argument = none →
      untilBreak data body (data.length + 1) acc (pos + h.bytes.length) = .ok (a, p) →
      ∃ t, Within data (limit + 1) pos t (p + 1) ∧ value t = .ok (mk a)) ∧
    ∀ n, h.argument = some n → h.major ≠ 6 →
      times body n acc (pos + h.bytes.length) = .ok (a, p) →
      ∃ t, Within data (limit + 1) pos t p ∧ value t = .ok (mk a) := by
  constructor
  · intro harg hloop
    obtain ⟨bs, hbs, hbreak, hrun⟩ := untilBreak_parts (item_of_body hread hbody) hloop
    obtain ⟨hat, hdepth⟩ := atItems_of_parts bs hbs
    refine ⟨.items h bs, ⟨⟨⟨hl, hs, hf⟩, ?_, p, hat, Or.inr ⟨harg, hbreak, rfl⟩⟩,
      Nat.succ_le_succ hdepth⟩, ?_⟩
    · intro n hn
      rw [harg] at hn
      cases hn
    · rw [value, hvalue, ← runTurns_values, hrun]
      rfl
  · intro n harg hmajor hloop
    obtain ⟨bs, hlength, hbs, hrun⟩ := times_parts (item_of_body hread hbody) hloop
    obtain ⟨hat, hdepth⟩ := atItems_of_parts bs hbs
    refine ⟨.items h bs, ⟨⟨⟨hl, hs, hf⟩, ?_, p, hat, Or.inl ⟨?_, rfl⟩⟩,
      Nat.succ_le_succ hdepth⟩, ?_⟩
    · intro m hm
      rw [if_neg hmajor, hlength]
      exact Option.some.inj (harg.symm.trans hm)
    · rw [harg]
      nofun
    · rw [value, hvalue, ← runTurns_values, hrun]
      rfl

theorem entries_of_loop (hread : HasTrees read data limit) {h : Head} (hl : h.Legal) {pos : Nat}
    (hs : Stands data pos h) (hf : h.form = .entries) {a : List (PyValue × PyValue)} {p : Nat} :
    (h.argument = none →
      untilBreak data (readEntry read) (data.length + 1) [] (pos + h.bytes.length) = .ok (a, p) →
      ∃ t, Within data (limit + 1) pos t (p + 1) ∧ value t = .ok (.dict a)) ∧
    ∀ n, h.argument = some n → times (readEntry read) n [] (pos + h.bytes.length) = .ok (a, p) →
      ∃ t, Within data (limit + 1) pos t p ∧ value t = .ok (.dict a) := by
  have hmajor : h.major ≠ 6 := by
    rw [form_entries hf]
    decide
  constructor
  · intro harg hloop
    obtain ⟨es, hes, hbreak, hrun⟩ := untilBreak_parts (entry_of_body hread) hloop
    obtain ⟨hat, hdepth⟩ := atEntries_of_parts es hes
    refine ⟨.entries h es, ⟨⟨⟨hl, hs, hf⟩, ?_, p, hat, Or.inr ⟨harg, hbreak, rfl⟩⟩,
      Nat.succ_le_succ hdepth⟩, ?_⟩
    · intro n hn
      rw [harg] at hn
      cases hn
    · rw [value, entryTurns_eq_map, hrun]
      rfl
  · intro n harg hloop
    obtain ⟨es, hlength, hes, hrun⟩ := times_parts (entry_of_body hread) hloop
    obtain ⟨hat, hdepth⟩ := atEntries_of_parts es hes
    refine ⟨.entries h es, ⟨⟨⟨hl, hs, hf⟩, ?_, p, hat, Or.inl ⟨?_, rfl⟩⟩,
      Nat.succ_le_succ hdepth⟩, ?_⟩
    · intro m hm
      rw [if_neg hmajor, hlength]
      exact Option.some.inj (harg.symm.trans hm)
    · rw [harg]
      nofun
    · rw [value, entryTurns_eq_map, hrun]
      rfl

/- What `readContent` has read after a head. -/
theorem tree_of_content (hread : HasTrees read data limit) {h : Head} (hl : h.Legal) {pos : Nat}
    (hs : Stands data pos h) {v : PyValue} {stop : Nat}
    (hc : readContent read data h.major h.argument (pos + h.bytes.length) = .ok (v, stop)) :
    ∃ t, Within data (limit + 1) pos t stop ∧ value t = .ok v := by
  cases hf : h.form with
  | atom =>
    rw [readContent_atom hl hf] at hc
    obtain ⟨w, hw, heq⟩ := map_ok hc
    cases heq
    refine ⟨.atom h, ⟨⟨⟨hl, hs, hf⟩, ?_, rfl⟩, Nat.succ_pos _⟩, hw⟩
    rintro rfl
    cases hw
  | string =>
    obtain ⟨-, n, hn⟩ := form_string hf
    rw [readContent_string hf hn] at hc
    obtain ⟨w, hw, heq⟩ := map_ok hc
    cases heq
    exact ⟨.string h _, ⟨⟨⟨hl, hs, hf⟩, n, hn, rfl, rfl⟩, Nat.succ_pos _⟩, hw⟩
  | items =>
    rcases form_items hf with ⟨hm | hm, harg⟩ | hm | hm
    · have hvalue (rs : List (Except PyError PyValue)) : itemsValue h rs =
          (runTurns "" (rs.map (itemTurn appendByte))).map .str := by
        simp only [itemsValue, hm]
      rw [hm, harg] at hc
      obtain ⟨⟨s, p⟩, hloop, heq⟩ := map_ok hc
      cases heq
      exact (items_of_loop hread hl hs hf (readByte_eq read) hvalue).1 harg hloop
    · have hvalue (rs : List (Except PyError PyValue)) : itemsValue h rs =
          (runTurns "" (rs.map (itemTurn appendText))).map .str := by
        simp only [itemsValue, hm]
      rw [hm, harg] at hc
      obtain ⟨⟨s, p⟩, hloop, heq⟩ := map_ok hc
      cases heq
      exact (items_of_loop hread hl hs hf (readText_eq read) hvalue).1 harg hloop
    · have hvalue (rs : List (Except PyError PyValue)) : itemsValue h rs =
          (runTurns [] (rs.map (itemTurn appendItem))).map .list := by
        simp only [itemsValue, hm]
      have hloops {a : List PyValue} {p : Nat} :=
        items_of_loop (a := a) (p := p) hread hl hs hf (readItem_eq read) hvalue
      cases harg : h.argument with
      | none =>
        rw [hm, harg] at hc
        obtain ⟨⟨items, p⟩, hloop, heq⟩ := map_ok hc
        cases heq
        exact hloops.1 harg hloop
      | some n =>
        rw [hm, harg] at hc
        obtain ⟨⟨items, p⟩, hloop, heq⟩ := map_ok hc
        cases heq
        exact hloops.2 n harg (by rw [hm]; decide) hloop
    · rw [hm] at hc
      cases harg : h.argument <;> rw [harg] at hc <;> cases hc
  | entries =>
    have hloops {a : List (PyValue × PyValue)} {p : Nat} :=
      entries_of_loop (a := a) (p := p) hread hl hs hf
    cases harg : h.argument with
    | none =>
      rw [form_entries hf, harg] at hc
      obtain ⟨⟨entries, p⟩, hloop, heq⟩ := map_ok hc
      cases heq
      exact hloops.1 harg hloop
    | some n =>
      rw [form_entries hf, harg] at hc
      obtain ⟨⟨entries, p⟩, hloop, heq⟩ := map_ok hc
      cases heq
      exact hloops.2 n harg hloop

end Readings

/-- Whatever is read has a tree in the data, which is nested no deeper than the calls may be. -/
theorem tree_of_readValue (limit : Nat) (data : Bytes) :
    HasTrees (readValue limit data) data limit := by
  induction limit with
  | zero =>
    intro pos v stop h
    cases h
  | succ limit ih =>
    intro pos v stop h
    rw [readValue] at h
    split at h
    · rename_i hdrop
      cases h
      exact ⟨.nothing, ⟨⟨List.drop_eq_nil_iff.mp hdrop, rfl⟩, Nat.succ_pos _⟩, rfl⟩
    · rename_i first rest hdrop
      obtain ⟨⟨argument, k⟩, hargument, hcontent⟩ := bind_ok h
      obtain ⟨hd, hl, hmajor, harg, hlength, hbytes⟩ := head_of_readArgument hargument
      have hs : Stands data pos hd := ⟨rest.drop k, by rw [hdrop, hbytes]⟩
      have hpos : pos + hd.bytes.length = pos + 1 + k := by omega
      refine tree_of_content ih hl hs ?_
      rw [hmajor, harg, hpos]
      exact hcontent

theorem parse_at {data : Bytes} {t : Tree} {stop limit : Nat} (h : At data 0 t stop)
    (hdepth : t.depth ≤ limit) : parse limit data = (value t).map fun v => (v, stop) :=
  readValue_at t h hdepth

/-- What the parser accepts: the trees that stand at the start of the data, have a value and are
not nested too deep. -/
theorem parse_iff (limit : Nat) (data : Bytes) (v : PyValue) (stop : Nat) :
    parse limit data = .ok (v, stop) ↔
      ∃ t, (At data 0 t stop ∧ t.depth ≤ limit) ∧ value t = .ok v := by
  constructor
  · exact tree_of_readValue limit data 0 v stop
  · rintro ⟨t, ⟨ht, hdepth⟩, hvalue⟩
    rw [parse_at ht hdepth, hvalue]
    rfl

end Shim

end Credentialsd
