import Credentialsd.Model
import Credentialsd.Lib.Cbor

/-!
# The CBOR parser of the native messaging host
(`webext/app/credential_manager_shim.py:188-341`)

A position in the data is passed on by what the parser calls on itself. The slices of the
source end where the data ends, and reading where there is nothing gives `None`. How deep calls
may be nested is up to the interpreter, which has a limit of 1000 frames unless it is told
otherwise; what is left of it is a parameter.
-/

namespace Credentialsd

namespace Shim

/-! ### What Python has for it -/

inductive PyError where
  | indexError
  | keyError
  | typeError
  | structError
  | unboundLocalError
  | unicodeDecodeError
  | assertionError
  | recursionError
  | exception (message : String)
  deriving Repr, DecidableEq

inductive PyValue where
  | none
  | bool (b : Bool)
  | int (n : Int)
  | bytes (b : Bytes)
  | str (s : String)
  | list (items : List PyValue)
  | dict (entries : List (PyValue × PyValue))

namespace PyValue

def hashable : PyValue → Bool
  | .list _ => false
  | .dict _ => false
  | _ => true

/- `True` and `False` are numbers. -/
def asInt : PyValue → Option Int
  | .int n => some n
  | .bool true => some 1
  | .bool false => some 0
  | _ => Option.none

/-- Whether two keys are the same one. -/
def sameKey : PyValue → PyValue → Bool
  | .none, .none => true
  | .bytes a, .bytes b => a == b
  | .str a, .str b => a == b
  | a, b => a.asInt.isSome && a.asInt == b.asInt

/-- `entries[key] = value`; the first of two equal keys stays. -/
def setItem (entries : List (PyValue × PyValue)) (key value : PyValue) :
    Except PyError (List (PyValue × PyValue)) :=
  if !key.hashable then .error .typeError
  else if entries.any fun e => e.1.sameKey key then
    .ok (entries.map fun e => if e.1.sameKey key then (e.1, value) else e)
  else .ok (entries ++ [(key, value)])

/-- `value[0]` -/
def item0 : PyValue → Except PyError PyValue
  | .bytes (b :: _) => .ok (.int b.toNat)
  | .bytes [] => .error .indexError
  | .str s =>
    match s.toList with
    | c :: _ => .ok (.str (String.ofList [c]))
    | [] => .error .indexError
  | .list (x :: _) => .ok x
  | .list [] => .error .indexError
  | .dict entries =>
    match entries.find? fun e => e.1.sameKey (.int 0) with
    | some e => .ok e.2
    | Option.none => .error .keyError
  | _ => .error .typeError

/-- `value += val`, for a string on the left. -/
def addTo (s : String) : PyValue → Except PyError String
  | .str s' => .ok (s ++ s')
  | _ => .error .typeError

end PyValue

def slice (b : Bytes) (start stop : Nat) : Bytes := (b.take stop).drop start

/-- `struct.unpack` of one unsigned big-endian number of `size` bytes. -/
def unpack (size : Nat) (b : Bytes) : Except PyError Nat :=
  if b.length = size then .ok (Cbor.fromBigEndian b) else .error .structError

/- The bytes begin a character, and more of them would end it. -/
def startsCharacter : Bytes → Bool
  | [a] => 0xC2 ≤ a && a ≤ 0xF4
  | [a, b] => threeBytes a b || fourBytes a b
  | [a, b, c] => fourBytes a b && continues c
  | _ => false
where
  continues (b : UInt8) : Bool := 0x80 ≤ b && b ≤ 0xBF
  threeBytes (a b : UInt8) : Bool :=
    0xE0 ≤ a && a ≤ 0xEF && continues b && (a != 0xE0 || 0xA0 ≤ b) && (a != 0xED || b ≤ 0x9F)
  fourBytes (a b : UInt8) : Bool :=
    0xF0 ≤ a && a ≤ 0xF4 && continues b && (a != 0xF0 || 0x90 ≤ b) && (a != 0xF4 || b ≤ 0x8F)

/- The text before the last `k` bytes, if those begin a character. -/
def decodeBut (b : Bytes) (k : Nat) : Option String :=
  if startsCharacter (b.drop (b.length - k)) then
    String.fromUTF8? (b.take (b.length - k)).toByteArray
  else none

/-- `codecs.utf_8_decode(b)[0]`: a character that is cut off at the end is left out. -/
def utf8Decode (b : Bytes) : Except PyError String :=
  match String.fromUTF8? b.toByteArray <|> decodeBut b 1 <|> decodeBut b 2 <|> decodeBut b 3 with
  | some s => .ok s
  | none => .error .unicodeDecodeError

/-! ### The parser -/

/-- The argument of a head, `None` where the length is indefinite, and the bytes that it takes. -/
def readArgument (additionalInfo : Nat) (buf : Bytes) : Except PyError (Option Nat × Nat) :=
  if additionalInfo < 24 then .ok (some additionalInfo, 0)
  else if additionalInfo = 24 then (unpack 1 (buf.take 1)).map fun n => (some n, 1)
  else if additionalInfo = 25 then (unpack 2 (buf.take 2)).map fun n => (some n, 2)
  else if additionalInfo = 26 then (unpack 4 (buf.take 4)).map fun n => (some n, 4)
  else if additionalInfo = 27 then (unpack 8 (buf.take 8)).map fun n => (some n, 8)
  else if additionalInfo = 31 then .ok (none, 0)
  else .error .unboundLocalError

/-- `for _ in range(n)` -/
def times {α : Type} (body : α → Nat → Except PyError (α × Nat)) :
    Nat → α → Nat → Except PyError (α × Nat)
  | 0, acc, pos => .ok (acc, pos)
  | n + 1, acc, pos => do
    let (acc, pos) ← body acc pos
    times body n acc pos

/-- `while self.data[self.pos] != 0xFF`. Every turn takes a byte at least, so that the data have
ended after as many turns as they have bytes. -/
def untilBreak {α : Type} (data : Bytes) (body : α → Nat → Except PyError (α × Nat)) :
    Nat → α → Nat → Except PyError (α × Nat)
  | 0, _, _ => .error .indexError
  | fuel + 1, acc, pos =>
    match data[pos]? with
    | none => .error .indexError
    | some b =>
      if b = 0xFF then .ok (acc, pos)
      else do
        let (acc, pos) ← body acc pos
        untilBreak data body fuel acc pos

section Bodies

variable (read : Nat → Except PyError (PyValue × Nat))

/- What is done in the loops of the parser; `read` is the parser itself. -/
def readEntry (entries : List (PyValue × PyValue)) (pos : Nat) :
    Except PyError (List (PyValue × PyValue) × Nat) := do
  let (key, pos) ← read pos
  let (value, pos) ← read pos
  let entries ← PyValue.setItem entries key value
  .ok (entries, pos)

def readItem (items : List PyValue) (pos : Nat) : Except PyError (List PyValue × Nat) := do
  let (value, pos) ← read pos
  .ok (items ++ [value], pos)

def readText (s : String) (pos : Nat) : Except PyError (String × Nat) := do
  let (value, pos) ← read pos
  let s ← value.addTo s
  .ok (s, pos)

def readByte (s : String) (pos : Nat) : Except PyError (String × Nat) := do
  let (value, pos) ← read pos
  let first ← value.item0
  let s ← first.addTo s
  .ok (s, pos)

end Bodies

/-- What is left of `_read_value` after the head. -/
def readContent (read : Nat → Except PyError (PyValue × Nat)) (data : Bytes) (majorType : Nat)
    (argument : Option Nat) (pos : Nat) : Except PyError (PyValue × Nat) :=
  match majorType, argument with
  | 0, some n => .ok (.int n, pos)
  | 0, none => .ok (.none, pos)
  | 1, some n => .ok (.int (-1 - n), pos)
  | 1, none => .error .typeError
  | 2, some n => .ok (.bytes (slice data pos (pos + n)), pos + n)
  | 2, none =>
    (untilBreak data (readByte read) (data.length + 1) "" pos).map fun r => (.str r.1, r.2 + 1)
  | 3, some n => (utf8Decode (slice data pos (pos + n))).map fun s => (.str s, pos + n)
  | 3, none =>
    (untilBreak data (readText read) (data.length + 1) "" pos).map fun r => (.str r.1, r.2 + 1)
  | 4, some n => (times (readItem read) n [] pos).map fun r => (.list r.1, r.2)
  | 4, none =>
    (untilBreak data (readItem read) (data.length + 1) [] pos).map fun r => (.list r.1, r.2 + 1)
  | 5, some n => (times (readEntry read) n [] pos).map fun r => (.dict r.1, r.2)
  | 5, none =>
    (untilBreak data (readEntry read) (data.length + 1) [] pos).map fun r => (.dict r.1, r.2 + 1)
  | 6, _ => .error (.exception "Tag support not implemented")
  | _, some 20 => .ok (.bool false, pos)
  | _, some 21 => .ok (.bool true, pos)
  | _, some 22 => .ok (.none, pos)
  | _, some 23 => .ok (.none, pos)
  | _, _ => .error (.exception "Float parsing not implemented")

/-- `CborParser._read_value`, from the position `pos` on: the value and the position after it.
`limit` is how many of its calls may be nested, this one included. -/
def readValue : Nat → Bytes → Nat → Except PyError (PyValue × Nat)
  | 0, _, _ => .error .recursionError
  | limit + 1, data, pos =>
    match data.drop pos with
    | [] => .ok (.none, pos)
    | first :: rest => do
      let (argument, argumentLen) ← readArgument (first.toNat % 32) rest
      readContent (readValue limit data) data (first.toNat / 32) argument (pos + 1 + argumentLen)

/-- `CborParser(data).parse()` with the position after it. -/
def parse (limit : Nat) (data : Bytes) : Except PyError (PyValue × Nat) := readValue limit data 0

/-- `cbor_loads`, which is one call more. -/
def cborLoads (limit : Nat) (data : Bytes) : Except PyError PyValue :=
  (parse (limit - 1) data).map Prod.fst

end Shim

end Credentialsd
