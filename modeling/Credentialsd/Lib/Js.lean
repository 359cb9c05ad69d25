import Mathlib.Logic.Basic

/-!
# Values of JavaScript

An object is what its properties read as. A property that is absent reads as `undefined`, the
order of the properties is not seen, and two objects with the same properties are the same.
-/

namespace Js

inductive Value where
  | undefined
  | null
  | boolean (b : Bool)
  | number (n : Int)
  | string (s : String)
  | array (items : List Value)
  | arrayBuffer (bytes : List UInt8)
  | object (property : String → Value)

inductive Error where
  | typeError
  | syntaxError
  | error (message : String)
  deriving Repr, DecidableEq

/-- A step into an object or an array. -/
inductive Step where
  | key (k : String)
  | index (i : Nat)
  deriving Repr, DecidableEq

@[simp] theorem ok_bind {α β : Type} (a : α) (f : α → Except Error β) :
    (Except.ok a : Except Error α) >>= f = f a := rfl

namespace Value

def truthy : Value → Bool
  | undefined => false
  | null => false
  | boolean b => b
  | number n => n != 0
  | string s => s != ""
  | _ => true

/-- Reading a property. Those that strings, arrays and buffers have of their own are left out. -/
def get : Value → String → Except Error Value
  | undefined, _ => .error .typeError
  | null, _ => .error .typeError
  | object property, key => .ok (property key)
  | _, _ => .ok undefined

/-- `[...v]`. -/
def spread : Value → Except Error Value
  | array items => .ok (array items)
  | string s => .ok (array (s.toList.map fun c => string (String.singleton c)))
  | _ => .error .typeError

/-- `v ? f(v) : default`. -/
def presentOr (v default : Value) (f : Value → Except Error Value) : Except Error Value :=
  if v.truthy then f v else .ok default

/-- What is set only if there is something to set it to. -/
def ifPresent (v : Value) (f : Value → Except Error Value) : Except Error Value :=
  presentOr v undefined f

/-- A property that may be left out. -/
def ofOption (v : Option Value) : Value := v.getD undefined

@[simp] theorem ofOption_some (v : Value) : ofOption (some v) = v := rfl

/-- The object with the properties of a list. -/
def obj (entries : List (String × Value)) : Value :=
  object fun key => ofOption (entries.lookup key)

@[simp] theorem get_obj (entries : List (String × Value)) (key : String) :
    (obj entries).get key = .ok (ofOption (entries.lookup key)) := rfl

theorem lookup_none {entries : List (String × Value)} {key : String}
    (h : key ∉ entries.map Prod.fst) : entries.lookup key = none := by
  rw [List.lookup_eq_none_iff]
  intro p hp
  rw [bne_iff_ne]
  exact fun heq => h (heq ▸ List.mem_map_of_mem hp)

/-- Setting a property of an object. -/
def set : Value → String → Value → Value
  | object property, key, v => object fun k => if k = key then v else property k
  | w, _, _ => w

/-- What is read one step further down. -/
def child : Value → Step → Value
  | object property, .key k => property k
  | array items, .index i => items.getD i undefined
  | _, _ => undefined

def follow (v : Value) (path : List Step) : Value := path.foldl child v

/-- Two objects are the same property by property. -/
theorem obj_cons_inj {key : String} {v w : Value} {es fs : List (String × Value)}
    (hes : key ∉ es.map Prod.fst) (hfs : key ∉ fs.map Prod.fst) :
    obj ((key, v) :: es) = obj ((key, w) :: fs) ↔ v = w ∧ obj es = obj fs := by
  constructor
  · intro h
    have hget : ∀ k, ofOption (((key, v) :: es).lookup k) = ofOption (((key, w) :: fs).lookup k) :=
      fun k => congrFun (Value.object.inj h) k
    refine ⟨?_, congrArg object (funext fun k => ?_)⟩
    · have hkey := hget key
      rwa [List.lookup_cons_self, List.lookup_cons_self] at hkey
    · by_cases hk : k = key
      · rw [hk, lookup_none hes, lookup_none hfs]
      · have hother := hget k
        have hne : (k == key) = false := beq_eq_false_iff_ne.mpr hk
        rwa [List.lookup_cons, List.lookup_cons, hne] at hother
  · rintro ⟨rfl, h⟩
    refine congrArg object (funext fun k => ?_)
    have hother : ofOption (es.lookup k) = ofOption (fs.lookup k) :=
      congrFun (Value.object.inj h) k
    rw [List.lookup_cons, List.lookup_cons]
    cases k == key with
    | true => rfl
    | false => exact hother

theorem obj_nil_eq {key : String} {v : Value} {es : List (String × Value)}
    (hes : key ∉ es.map Prod.fst) :
    obj [] = obj ((key, v) :: es) ↔ undefined = v ∧ obj [] = obj es := by
  have hnil : obj [] = obj [(key, undefined)] := by
    refine congrArg object (funext fun k => ?_)
    rw [List.lookup_cons]
    cases k == key with
    | true => rfl
    | false => rfl
  rw [hnil, obj_cons_inj List.not_mem_nil hes, ← hnil]

end Value

end Js
