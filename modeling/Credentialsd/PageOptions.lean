import Credentialsd.Answers
import Credentialsd.CreatePasskey

/-!
# What the page asks for (`webext/add-on/content-main.js:40-50, 173-214`)

The options of a request are made of JSON, with the bytes as base64url, before they leave the
page; without the signal, which stays there. The native host takes what is under `publicKey`
and hands it to the portal as a text.
-/

namespace Credentialsd

namespace PageOptions

open Js (Error Step Value)
open Shim (PyError PyValue)

/-- A view of a part of a buffer. -/
structure View where
  buffer : Bytes
  byteOffset : Nat
  byteLength : Nat
  inside : byteOffset + byteLength ≤ buffer.length

/- `new Uint8Array(value.buffer, value.byteOffset, value.byteLength)`. -/
def View.bytes (v : View) : Bytes := (v.buffer.drop v.byteOffset).take v.byteLength

/-- What a page may put into its options. Arrays and objects are what their items and properties
read as; `keys` are the ones that are enumerated. Functions and symbols are `callable`, and objects
that have a `toJSON` are left out. -/
inductive PageValue where
  | undefined
  | null
  | boolean (b : Bool)
  | number (n : Int)
  | nan
  | infinity (negative : Bool)
  | bigint (n : Int)
  | string (s : String)
  | callable
  | arrayBuffer (bytes : Bytes)
  | view (v : View)
  | array (length : Nat) (item : Nat → PageValue)
  | object (keys : List String) (property : String → PageValue)

/- The properties that are written, of all that are enumerated. -/
def entries (keys : List String) (values : List (Option Value)) : List (String × Value) :=
  (keys.zip values).filterMap fun e => e.2.map fun value => (e.1, value)

namespace PageValue

def truthy : PageValue → Bool
  | undefined => false
  | null => false
  | boolean b => b
  | number n => n != 0
  | nan => false
  | bigint n => n != 0
  | string s => s != ""
  | _ => true

def child : PageValue → Step → PageValue
  | array length item, .index i => if i < length then item i else undefined
  | object keys property, .key k => if k ∈ keys then property k else undefined
  | _, _ => undefined

def follow (v : PageValue) (path : List Step) : PageValue := path.foldl child v

def toBase64 (bytes : Bytes) : Value := .string (Base64Url.encode bytes)

/-- `JSON.stringify` with the function that replaces buffers, read again by `JSON.parse`; `none`
where nothing is written. -/
def serialize : PageValue → Except Error (Option Value)
  | undefined => .ok none
  | callable => .ok none
  | null => .ok (some .null)
  | nan => .ok (some .null)
  | infinity _ => .ok (some .null)
  | boolean b => .ok (some (.boolean b))
  | number n => .ok (some (.number n))
  | string s => .ok (some (.string s))
  | bigint _ => .error .typeError
  | arrayBuffer bytes => .ok (some (toBase64 bytes))
  | view v => .ok (some (toBase64 v.bytes))
  | array length item => do
    let values ← (List.range length).mapM fun i => serialize (item i)
    return some (.array (values.map fun value => value.getD .null))
  | object keys property => do
    let values ← keys.mapM fun k => serialize (property k)
    return some (.obj (entries keys values))

end PageValue

open PageValue

def serializePublicKeyOptions (options : PageValue) : Except Error Value := do
  match ← options.serialize with
  | some value => return value
  | none => .error .syntaxError

/- `const { signal, ...rest } = options`. -/
def rest : PageValue → PageValue
  | .object keys property => .object (keys.filter (· ≠ "signal")) property
  | _ => .object [] fun _ => .undefined

def isConditional : PageValue → Bool
  | .string s => s == "conditional"
  | _ => false

/-- Whether `navigator.credentials.create` and `get` leave the call to the browser. -/
def leaves (options : PageValue) : Bool :=
  !options.truthy || !(options.child (.key "publicKey")).truthy ||
    isConditional (options.child (.key "mediation"))

/-- The options that are posted. -/
def posted (options : PageValue) : Option (Except Error Value) :=
  if leaves options then none else some (serializePublicKeyOptions (rest options))

/-- `options["publicKey"]`, of which `create_passkey` and `get_passkey` make `req_json`. -/
def publicKeyOptions (options : PyValue) : Except PyError PyValue :=
  match options with
  | .dict entries =>
    if entries.any fun e => e.1.sameKey (.str "publicKey") then options.item "publicKey"
    else .error .typeError
  | _ => .error .typeError

/-! ### What is read of what was written -/

theorem mapM_forall {α β ε : Type} {f : α → Except ε β} {xs : List α} {ys : List β}
    (h : xs.mapM f = .ok ys) : List.Forall₂ (fun a b => f a = .ok b) xs ys := by
  induction xs generalizing ys with
  | nil =>
    cases h
    exact List.Forall₂.nil
  | cons x xs ih =>
    rw [List.mapM_cons] at h
    cases hx : f x with
    | error e =>
      rw [hx] at h
      cases h
    | ok y =>
      cases hxs : xs.mapM f with
      | error e =>
        rw [hx, hxs] at h
        cases h
      | ok zs =>
        rw [hx, hxs] at h
        cases h
        exact List.Forall₂.cons hx (ih hxs)

theorem lookup_absent {k : String} {keys : List String} (hk : k ∉ keys)
    (values : List (Option Value)) : (entries keys values).lookup k = none := by
  rw [List.lookup_eq_none_iff]
  intro e he
  obtain ⟨pair, hpair, hsome⟩ := List.mem_filterMap.mp he
  obtain ⟨v, -, rfl⟩ := Option.map_eq_some_iff.mp hsome
  rw [bne_iff_ne]
  exact fun hsame => hk (hsame ▸ (List.of_mem_zip hpair).1)

/- A key that is enumerated twice is written twice, with what its property reads as. -/
theorem lookup_entries {f : String → Except Error (Option Value)} {keys : List String}
    {values : List (Option Value)} (h : List.Forall₂ (fun k v => f k = .ok v) keys values)
    {k : String} (hk : k ∈ keys) :
    ∃ v, f k = .ok v ∧ (entries keys values).lookup k = v := by
  induction h with
  | nil => cases hk
  | cons hfirst htail ih =>
    rename_i key value keys values
    by_cases heq : k = key
    · subst heq
      refine ⟨value, hfirst, ?_⟩
      cases value with
      | some v => exact List.lookup_cons_self
      | none =>
        show (entries keys values).lookup k = none
        by_cases hmem : k ∈ keys
        · obtain ⟨v, hv, hlookup⟩ := ih hmem
          rw [hfirst] at hv
          cases hv
          exact hlookup
        · exact lookup_absent hmem values
    · obtain ⟨v, hv, hlookup⟩ := ih ((List.mem_cons.mp hk).resolve_left heq)
      refine ⟨v, hv, ?_⟩
      cases value with
      | none => exact hlookup
      | some w =>
        show ((key, w) :: entries keys values).lookup k = v
        rw [List.lookup_cons, beq_eq_false_iff_ne.mpr heq]
        exact hlookup

/- What is read where a value was written; where nothing was, it is `undefined`, or `null` in an
array. -/
def Shows : Option Value → Value → Prop
  | some written, w => w = written
  | none, w => w = .undefined ∨ w = .null

theorem shows_undefined {v : PageValue} (h : v = .undefined) {w : Value} (hw : w = .undefined) :
    ∃ x, v.serialize = .ok x ∧ Shows x w :=
  ⟨none, by rw [h, serialize], Or.inl hw⟩

theorem serialize_array {length : Nat} {item : Nat → PageValue} {x : Option Value}
    (h : (PageValue.array length item).serialize = .ok x) :
    ∃ values, (List.range length).mapM (fun i => (item i).serialize) = .ok values ∧
      x = some (.array (values.map fun value => value.getD .null)) := by
  rw [serialize] at h
  cases hvalues : (List.range length).mapM fun i => (item i).serialize with
  | error e =>
    rw [hvalues] at h
    cases h
  | ok values =>
    rw [hvalues] at h
    cases h
    exact ⟨values, rfl, rfl⟩

theorem serialize_object {keys : List String} {property : String → PageValue} {x : Option Value}
    (h : (PageValue.object keys property).serialize = .ok x) :
    ∃ values, keys.mapM (fun k => (property k).serialize) = .ok values ∧
      x = some (.obj (entries keys values)) := by
  rw [serialize] at h
  cases hvalues : keys.mapM fun k => (property k).serialize with
  | error e =>
    rw [hvalues] at h
    cases h
  | ok values =>
    rw [hvalues] at h
    cases h
    exact ⟨values, rfl, rfl⟩

theorem serialize_item {length : Nat} {item : Nat → PageValue} {values : List (Option Value)}
    (h : (List.range length).mapM (fun i => (item i).serialize) = .ok values) :
    values.length = length ∧
      ∀ i, i < length → ∃ x, (item i).serialize = .ok x ∧ values[i]? = some x := by
  have hall := mapM_forall h
  have hlength : values.length = length := by
    rw [← hall.length_eq, List.length_range]
  refine ⟨hlength, fun i hi => ?_⟩
  have hi' : i < values.length := by omega
  have hitem := hall.get (i := i) (by rw [List.length_range]; exact hi) hi'
  simp only [List.get_eq_getElem, List.getElem_range] at hitem
  exact ⟨values[i], hitem, List.getElem?_eq_getElem hi'⟩

/-- One step down. -/
theorem serialize_child {v : PageValue} {x : Option Value} {w : Value}
    (h : v.serialize = .ok x) (hw : Shows x w) (s : Step) :
    ∃ x', (v.child s).serialize = .ok x' ∧ Shows x' (w.child s) := by
  cases v with
  | array length item =>
    obtain ⟨values, hvalues, rfl⟩ := serialize_array h
    obtain ⟨hlength, hitem⟩ := serialize_item hvalues
    cases hw
    cases s with
    | key k => exact shows_undefined rfl rfl
    | index i =>
      by_cases hi : i < length
      · obtain ⟨x, hx, hread⟩ := hitem i hi
        have hgetD : (values.map fun value => value.getD Value.null).getD i .undefined =
            x.getD .null := by
          rw [List.getD_eq_getElem?_getD, List.getElem?_map, hread]
          rfl
        refine ⟨x, by rw [PageValue.child, if_pos hi, hx], ?_⟩
        show Shows x ((values.map fun value => value.getD Value.null).getD i .undefined)
        rw [hgetD]
        cases x with
        | none => exact Or.inr rfl
        | some y => rfl
      · have hbeyond : values[i]? = none := List.getElem?_eq_none (by omega)
        refine shows_undefined (if_neg hi) ?_
        show (values.map fun value => value.getD Value.null).getD i .undefined = _
        rw [List.getD_eq_getElem?_getD, List.getElem?_map, hbeyond]
        rfl
  | object keys property =>
    obtain ⟨values, hvalues, rfl⟩ := serialize_object h
    cases hw
    cases s with
    | index i => exact shows_undefined rfl rfl
    | key k =>
      have hread : ∀ entries : List (String × Value), (Value.obj entries).child (.key k) =
          (entries.lookup k).getD .undefined := fun _ => rfl
      rw [hread]
      by_cases hk : k ∈ keys
      · obtain ⟨x, hx, hlookup⟩ := lookup_entries (mapM_forall hvalues) hk
        refine ⟨x, by rw [PageValue.child, if_pos hk, hx], ?_⟩
        rw [hlookup]
        cases x with
        | none => exact Or.inl rfl
        | some y => rfl
      · refine shows_undefined (if_neg hk) ?_
        rw [lookup_absent hk, Option.getD_none]
  | undefined =>
    cases h
    rcases hw with rfl | rfl
    · exact shows_undefined rfl rfl
    · exact shows_undefined rfl rfl
  | callable =>
    cases h
    rcases hw with rfl | rfl
    · exact shows_undefined rfl rfl
    · exact shows_undefined rfl rfl
  | bigint n => cases h
  | _ =>
    cases h
    cases hw
    exact shows_undefined rfl rfl

/-- What is read along a path is what was written of what is there. -/
theorem serialize_follow {v : PageValue} {x : Option Value} {w : Value} (h : v.serialize = .ok x)
    (hw : Shows x w) (path : List Step) :
    ∃ x', (v.follow path).serialize = .ok x' ∧ Shows x' (w.follow path) := by
  induction path generalizing v x w with
  | nil => exact ⟨x, h, hw⟩
  | cons s path ih =>
    obtain ⟨x', hx', hw'⟩ := serialize_child h hw s
    exact ih hx' hw'

theorem follow_cons (v : PageValue) (s : Step) (path : List Step) :
    v.follow (s :: path) = (v.child s).follow path := rfl

/-- Nothing but a `BigInt` cannot be written, wherever it is. -/
theorem serialize_ok_iff (v : PageValue) :
    (∃ x, v.serialize = .ok x) ↔ ∀ path n, v.follow path ≠ .bigint n := by
  constructor
  · intro h path n hbigint
    obtain ⟨x, hx⟩ := h
    have hshows : Shows x (x.getD .null) := by
      cases x with
      | none => exact Or.inr rfl
      | some y => rfl
    obtain ⟨x', hx', -⟩ := serialize_follow hx hshows path
    rw [hbigint] at hx'
    cases hx'
  · intro h
    induction v with
    | array length item ih =>
      have hitems : ∃ values, (List.range length).mapM (fun i => (item i).serialize) =
          .ok values := by
        refine (except_mapM_ok _ _).mpr fun i hi => ih i fun path n hbigint => h (.index i :: path) n ?_
        rw [follow_cons, PageValue.child, if_pos (List.mem_range.mp hi), hbigint]
      obtain ⟨values, hvalues⟩ := hitems
      exact ⟨_, by rw [serialize, hvalues]; rfl⟩
    | object keys property ih =>
      have hproperties : ∃ values, keys.mapM (fun k => (property k).serialize) = .ok values := by
        refine (except_mapM_ok _ _).mpr fun k hk => ih k fun path n hbigint => h (.key k :: path) n ?_
        rw [follow_cons, PageValue.child, if_pos hk, hbigint]
      obtain ⟨values, hvalues⟩ := hproperties
      exact ⟨_, by rw [serialize, hvalues]; rfl⟩
    | bigint n => exact absurd rfl (h [] n)
    | _ => exact ⟨_, rfl⟩

/-! ### From the page to the portal -/

namespace PageValue

/- The bytes of a buffer, or of the part that is in view. -/
def bytes? : PageValue → Option Bytes
  | arrayBuffer bytes => some bytes
  | view v => some v.bytes
  | _ => none

/- A value that is the same in JSON. -/
def scalar? : PageValue → Option Value
  | null => some .null
  | boolean b => some (.boolean b)
  | number n => some (.number n)
  | string s => some (.string s)
  | _ => none

theorem serialize_bytes {v : PageValue} {bytes : Bytes} (h : v.bytes? = some bytes) :
    v.serialize = .ok (some (toBase64 bytes)) := by
  cases v with
  | arrayBuffer | view =>
    cases h
    rw [serialize]
  | _ => cases h

theorem serialize_scalar {v : PageValue} {x : Value} (h : v.scalar? = some x) :
    v.serialize = .ok (some x) := by
  cases v with
  | null | boolean | number | string =>
    cases h
    rw [serialize]
  | _ => cases h

end PageValue

/-- Where the page has bytes, `w` has a text that decodes to them; other values are the same, an
array keeps its length, and nothing is where there was nothing. -/
structure Carries (v : PageValue) (w : Value) : Prop where
  bytes : ∀ path bytes, (v.follow path).bytes? = some bytes →
    ∃ text, w.follow path = .string text ∧ Base64Url.decode text = some bytes
  scalar : ∀ path x, (v.follow path).scalar? = some x → w.follow path = x
  array : ∀ path length item, v.follow path = .array length item →
    ∃ items, w.follow path = .array items ∧ items.length = length
  absent : ∀ path, v.follow path = .undefined → w.follow path = .undefined ∨ w.follow path = .null

theorem carries {v : PageValue} {w : Value} (h : v.serialize = .ok (some w)) : Carries v w := by
  have hread : ∀ path x, (v.follow path).serialize = .ok (some x) → w.follow path = x := by
    intro path x hx
    obtain ⟨x', hx', hw⟩ := serialize_follow h (w := w) rfl path
    rw [hx] at hx'
    cases hx'
    exact hw
  constructor
  · intro path bytes hbytes
    exact ⟨Base64Url.encode bytes, hread path _ (PageValue.serialize_bytes hbytes),
      Base64Url.decode_encode bytes⟩
  · intro path x hx
    exact hread path x (PageValue.serialize_scalar hx)
  · intro path length item harray
    obtain ⟨x, hx, hw⟩ := serialize_follow h (w := w) rfl path
    rw [harray] at hx
    obtain ⟨values, hvalues, rfl⟩ := serialize_array hx
    refine ⟨_, hw, ?_⟩
    rw [List.length_map]
    exact (serialize_item hvalues).1
  · intro path habsent
    obtain ⟨x, hx, hw⟩ := serialize_follow h (w := w) rfl path
    rw [habsent] at hx
    cases hx
    exact hw

theorem serializePublicKeyOptions_ok {v : PageValue} {w : Value} :
    serializePublicKeyOptions v = .ok w ↔ v.serialize = .ok (some w) := by
  unfold serializePublicKeyOptions
  cases v.serialize with
  | error e => exact ⟨fun h => (by cases h), fun h => (by cases h)⟩
  | ok x =>
    cases x with
    | none => exact ⟨fun h => (by cases h), fun h => (by cases h)⟩
    | some y =>
      constructor
      · intro h
        cases h
        rfl
      · intro h
        cases h
        rfl

/- Only an object has a `publicKey`. -/
theorem object_of_posted {options : PageValue} {r : Except Error Value}
    (h : posted options = some r) :
    ∃ keys property, options = .object keys property ∧ "publicKey" ∈ keys ∧
      (property "publicKey").truthy = true ∧
      r = serializePublicKeyOptions (.object (keys.filter (· ≠ "signal")) property) := by
  unfold posted at h
  split at h
  · cases h
  · rename_i hleaves
    rw [leaves, Bool.or_eq_true, Bool.or_eq_true, not_or, not_or, Bool.not_eq_true',
      Bool.not_eq_true', Bool.not_eq_false, Bool.not_eq_false] at hleaves
    obtain ⟨⟨-, hpublicKey⟩, -⟩ := hleaves
    cases options with
    | object keys property =>
      by_cases hkey : "publicKey" ∈ keys
      · rw [PageValue.child, if_pos hkey] at hpublicKey
        cases h
        exact ⟨keys, property, rfl, hkey, hpublicKey, rfl⟩
      · rw [PageValue.child, if_neg hkey] at hpublicKey
        cases hpublicKey
    | _ => cases hpublicKey

theorem posted_ok_iff (options : PageValue) :
    (∃ value, posted options = some (.ok value)) ↔
      leaves options = false ∧ ∀ path n, (rest options).follow path ≠ .bigint n := by
  rw [← serialize_ok_iff]
  constructor
  · rintro ⟨value, hvalue⟩
    have hleaves : leaves options = false := by
      unfold posted at hvalue
      split at hvalue
      · cases hvalue
      · rename_i hleaves
        rwa [Bool.not_eq_true] at hleaves
    obtain ⟨keys, property, rfl, -, -, hserialized⟩ := object_of_posted hvalue
    exact ⟨hleaves, _, serializePublicKeyOptions_ok.mp hserialized.symm⟩
  · rintro ⟨hleaves, x, hx⟩
    have hposted : posted options = some (serializePublicKeyOptions (rest options)) := by
      rw [posted, hleaves, if_neg Bool.false_ne_true]
    obtain ⟨keys, property, rfl, -, -, -⟩ := object_of_posted hposted
    obtain ⟨values, -, rfl⟩ := serialize_object hx
    exact ⟨_, by rw [hposted, serializePublicKeyOptions_ok.mpr hx]⟩

/- What is written under a key. -/
theorem property_written {keys : List String} {property : String → PageValue} {value : Value}
    (h : (PageValue.object keys property).serialize = .ok (some value)) {k : String}
    (hk : k ∈ keys) (hundefined : property k ≠ .undefined) (hcallable : property k ≠ .callable) :
    ∃ w, value.get k = .ok w ∧ w ≠ .undefined ∧ (property k).serialize = .ok (some w) := by
  obtain ⟨values, hvalues, hvalue⟩ := serialize_object h
  cases hvalue
  obtain ⟨x, hx, hlookup⟩ := lookup_entries (mapM_forall hvalues) hk
  have hkept : ∃ w, x = some w ∧ w ≠ .undefined := by
    revert hx hundefined hcallable
    cases property k with
    | undefined => exact fun h => absurd rfl h
    | callable => exact fun _ h => absurd rfl h
    | array length item =>
      intro _ _ hx
      obtain ⟨items, -, rfl⟩ := serialize_array hx
      exact ⟨_, rfl, fun h => by cases h⟩
    | object keys property =>
      intro _ _ hx
      obtain ⟨items, -, rfl⟩ := serialize_object hx
      exact ⟨_, rfl, fun h => by cases h⟩
    | bigint n =>
      intro _ _ hx
      cases hx
    | _ =>
      intro _ _ hx
      cases hx
      exact ⟨_, rfl, fun h => by cases h⟩
  obtain ⟨w, rfl, hw⟩ := hkept
  exact ⟨w, by rw [Value.get_obj, hlookup]; rfl, hw, hx⟩

/-- The options that a page gives are posted unless there is a `BigInt` in them, and without the
signal. The request that the native host makes of them for the portal has each buffer, and each part
of a buffer that is in view, as a text that decodes to its bytes, at the same place. -/
theorem options_reach_portal (options : PageValue) :
    ((∃ value, posted options = some (.ok value)) ↔
      leaves options = false ∧ ∀ path n, (rest options).follow path ≠ .bigint n) ∧
    ∀ value, posted options = some (.ok value) →
      value.follow [.key "signal"] = .undefined ∧
      (options.child (.key "publicKey") ≠ .callable →
        ∀ received, Shim.asJson received = some value →
          ∃ request w, publicKeyOptions received = .ok request ∧ Shim.asJson request = some w ∧
            Carries (options.child (.key "publicKey")) w) := by
  refine ⟨posted_ok_iff options, fun value hposted => ?_⟩
  obtain ⟨keys, property, rfl, hkey, htruthy, hserialized⟩ := object_of_posted hposted
  have hobject := serializePublicKeyOptions_ok.mp hserialized.symm
  constructor
  · obtain ⟨values, -, hvalue⟩ := serialize_object hobject
    cases hvalue
    have hsignal : "signal" ∉ keys.filter (· ≠ "signal") := by simp
    show ((entries _ values).lookup "signal").getD .undefined = _
    rw [lookup_absent hsignal, Option.getD_none]
  · intro hcallable received hreceived
    rw [PageValue.child, if_pos hkey] at hcallable ⊢
    have hundefined : property "publicKey" ≠ .undefined := by
      intro h
      rw [h] at htruthy
      cases htruthy
    have hkept : "publicKey" ∈ keys.filter (· ≠ "signal") :=
      List.mem_filter.mpr ⟨hkey, by decide⟩
    obtain ⟨w, hget, hw, hwritten⟩ := property_written hobject hkept hundefined hcallable
    obtain ⟨request, hitem, hrequest⟩ := Shim.item_of_get hreceived hget hw
    refine ⟨request, w, ?_, hrequest, carries hwritten⟩
    cases received with
    | dict es =>
      have hany : (es.any fun e => e.1.sameKey (.str "publicKey")) = true := by
        rw [List.any_eq_true]
        cases hfind : es.find? fun e => e.1.sameKey (.str "publicKey") with
        | none =>
          rw [PyValue.item, hfind] at hitem
          cases hitem
        | some e =>
          have hsame := List.find?_some hfind
          exact ⟨e, List.mem_of_find?_eq_some hfind, hsame⟩
      rw [publicKeyOptions, if_pos hany, hitem]
    | _ => cases hitem

/- A challenge that is a part of a larger buffer, and a signal. -/
def sampleOptions : PageValue :=
  .object ["signal", "publicKey"] fun key =>
    if key = "publicKey" then
      .object ["challenge"] fun _ => .view ⟨[9, 1, 2, 9], 1, 2, by decide⟩
    else .object [] fun _ => .undefined

def sampleReceived : PyValue :=
  .dict [(.str "publicKey", .dict [(.str "challenge", .str "AQI")])]

theorem options_reach_portal_challenge :
    ∃ request w text, publicKeyOptions sampleReceived = .ok request ∧
      Shim.asJson request = some w ∧ w.follow [.key "challenge"] = .string text ∧
      Base64Url.decode text = some [1, 2] := by
  have htext : Base64Url.encode [1, 2] = "AQI" := by decide +kernel
  have hposted : posted sampleOptions =
      some (.ok (.obj [("publicKey", .obj [("challenge", .string "AQI")])])) := by
    rw [← htext]
    rfl
  have hreceived : Shim.asJson sampleReceived =
      some (.obj [("publicKey", .obj [("challenge", .string "AQI")])]) := by
    simp [sampleReceived, Shim.asJson, Shim.asJsonEntries]
  obtain ⟨request, w, hrequest, hw, hcarries⟩ :=
    ((options_reach_portal sampleOptions).2 _ hposted).2 (fun h => by cases h) _ hreceived
  obtain ⟨text, htext, hdecode⟩ := hcarries.bytes [.key "challenge"] [1, 2] rfl
  exact ⟨request, w, text, hrequest, hw, htext, hdecode⟩

end PageOptions

end Credentialsd
