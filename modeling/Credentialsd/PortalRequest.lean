import Credentialsd.Gateway
import Mathlib.Data.List.Infix
import Mathlib.Data.List.TakeWhile

/-!
# Waiting for the portal (`webext/app/credential_manager_shim.py:56-77, 128-186`)

A request to the portal is answered by a signal. The handler for the messages of the bus settles a
future with the first signal that matches; an error comes as a text, whose beginning names the
class of the exception.
-/

namespace Credentialsd

namespace Shim

/-! ### Errors -/

/-- `PortalError` and the classes derived from it. -/
inductive PortalError where
  | portalError
  | abortError
  | constraintError
  | invalidStateError
  | notSupportedError
  | securityError
  | notAllowedError
  | typeError
  deriving Repr, DecidableEq

/- What `from_string` returns: nothing, a class or an instance. -/
inductive Raisable where
  | none
  | type (e : PortalError)
  | object (e : PortalError)
  deriving Repr, DecidableEq

/- What is raised in the handler. -/
inductive HandlerError where
  | valueError
  | typeError
  | keyError
  | attributeError
  | runtimeError
  | invalidStateError
  deriving Repr, DecidableEq

def skip : List Char → List Char → Option (List Char)
  | [], s => some s
  | _ :: _, [] => none
  | p :: ps, c :: s => if p = c then skip ps s else none

/- `.` in a pattern -/
def anyChar : List Char → Option (List Char)
  | [] => none
  | c :: s => if c = '\n' then none else some s

section Pattern

/- Whether Python takes a character beyond ASCII for a letter or a number. -/
variable (isAlnum : Char → Bool)

/- `\w` in a pattern -/
def isWord (c : Char) : Bool :=
  if c.toNat < 128 then c.isAlphanum || c == '_' else isAlnum c

/-- The name that `re.match` finds. The end of the pattern matches whatever is left. -/
def matchName (s : String) : Option String := do
  let rest ← skip "xyz".toList s.toList
  let rest ← anyChar rest
  let rest ← skip "iinuwa".toList rest
  let rest ← anyChar rest
  let rest ← skip "credentialsd".toList rest
  let rest ← anyChar rest
  let name := rest.takeWhile (isWord isAlnum)
  let _ ← skip [':', ' '] (rest.dropWhile (isWord isAlnum))
  if name = [] then none else some (String.ofList name)

/-- `PortalError.from_string` -/
def fromString (s : String) : Raisable :=
  match matchName isAlnum s with
  | none => .none
  | some name =>
    if name = "AbortError" then .type .abortError
    else if name = "ConstraintError" then .type .constraintError
    else if name = "InvalidStateError" then .type .invalidStateError
    else if name = "NotSupportedError" then .type .notSupportedError
    else if name = "SecurityError" then .type .securityError
    else if name = "NotAllowedError" then .type .notAllowedError
    else if name = "TypeError" then .type .typeError
    else .object .portalError

/-! ### Messages -/

/-- The values of a message as they come from the library; of a number in floating point its bits
are kept. -/
inductive DBusValue where
  | bool (b : Bool)
  | int (n : Int)
  | double (bits : Nat)
  | str (s : String)
  | bytes (b : Bytes)
  | list (items : List DBusValue)
  | dict (entries : List (DBusValue × DBusValue))
  | variant (signature : String) (value : DBusValue)

namespace DBusValue

/-- `code == n` for 0, 1 and 2. -/
def isNumber (n : Nat) : DBusValue → Bool
  | .bool b => b.toNat == n
  | .int k => k == n
  | .double bits =>
    (bits, n) ∈ [(0, 0), (0x8000000000000000, 0), (0x3FF0000000000000, 1), (0x4000000000000000, 2)]
  | _ => false

def isStr (s : String) : DBusValue → Bool
  | .str s' => s' == s
  | _ => false

def lookup (key : String) (entries : List (DBusValue × DBusValue)) : Option DBusValue :=
  (entries.find? fun e => e.1.isStr key).map Prod.snd

/-- `key in value` -/
def contains (key : String) : DBusValue → Except HandlerError Bool
  | .str s => .ok (decide (key.toList <:+: s.toList))
  | .list items => .ok (items.any (isStr key))
  | .dict entries => .ok (lookup key entries).isSome
  | _ => .error .typeError

/-- `value[key]` -/
def getItem (key : String) : DBusValue → Except HandlerError DBusValue
  | .dict entries =>
    match lookup key entries with
    | some v => .ok v
    | none => .error .keyError
  | _ => .error .typeError

/-- `value.value` -/
def unwrap : DBusValue → Except HandlerError DBusValue
  | .variant _ v => .ok v
  | _ => .error .attributeError

end DBusValue

inductive MessageType where
  | methodCall
  | methodReturn
  | error
  | signal
  deriving Repr, DecidableEq

structure Message where
  path : Option String
  messageType : MessageType
  destination : Option String
  interface : Option String
  member : Option String
  body : List DBusValue

/-! ### The future -/

inductive Outcome where
  | result (value : DBusValue)
  | exception (e : PortalError)

inductive Future where
  | pending
  | done (outcome : Outcome)

namespace Future

def isDone : Future → Bool
  | .pending => false
  | .done _ => true

def setResult (value : DBusValue) : Future → Except HandlerError Future
  | .pending => .ok (.done (.result value))
  | .done _ => .error .invalidStateError

/-- `set_exception`, which takes an instance of an exception or makes one of a class. -/
def setException (e : Raisable) : Future → Except HandlerError Future
  | .done _ => .error .invalidStateError
  | .pending =>
    match e with
    | .none => .error .typeError
    | .type e => .ok (.done (.exception e))
    | .object e => .ok (.done (.exception e))

end Future

/-! ### The handler -/

structure Bus where
  connected : Bool
  uniqueName : Option String

structure PortalRequest where
  uniqueName : String
  token : String
  deriving Repr

namespace PortalRequest

/-- `create_portal_request_message_handler`; the token is drawn from random bytes. -/
def create (bus : Bus) (token : String) : Except String PortalRequest :=
  match bus.connected, bus.uniqueName with
  | true, some uniqueName => .ok ⟨uniqueName, token⟩
  | _, _ => .error "Bus is not connected"

/-- `object_path` -/
def objectPath (r : PortalRequest) : String :=
  "/org/freedesktop/portal/desktop/request/" ++
    String.ofList ((r.uniqueName.toList.drop 1).map fun c => if c = '.' then '_' else c) ++ "/" ++
    r.token

/-- `message_matches` -/
def Matches (r : PortalRequest) (msg : Message) : Prop :=
  msg.path = some r.objectPath ∧ msg.messageType = .signal ∧
    msg.destination = some r.uniqueName ∧
    msg.interface = some "org.freedesktop.portal.Request" ∧ msg.member = some "Response"

instance (r : PortalRequest) (msg : Message) : Decidable (r.Matches msg) := by
  unfold Matches
  infer_instance

end PortalRequest

/- The exception for a response of code 2 with an error. -/
def errorOf (value : DBusValue) : Except HandlerError Raisable := do
  let v ← value.getItem "error"
  let error ← v.unwrap
  match error with
  | .str s => .ok (fromString isAlnum s)
  | _ => .error .typeError

/- A call that may settle the future, and what the handler does after it. -/
def settling (future : Future) (call : Except HandlerError Future)
    (after : Except HandlerError Bool) : Future × Except HandlerError Bool :=
  match call with
  | .ok future' => (future', after)
  | .error e => (future, .error e)

/-- What a response does to the future. After code 1 there is a `raise` with nothing to raise
again. -/
def respond (future : Future) (code value : DBusValue) : Future × Except HandlerError Bool :=
  if code.isNumber 0 then settling future (future.setResult value) (.ok true)
  else if code.isNumber 1 then
    settling future (future.setException (.object .abortError)) (.error .runtimeError)
  else if code.isNumber 2 then
    match value.contains "error" with
    | .error e => (future, .error e)
    | .ok true =>
      match errorOf isAlnum value with
      | .error e => (future, .error e)
      | .ok e => settling future (future.setException e) (.ok true)
    | .ok false => settling future (future.setException (.object .portalError)) (.ok true)
  else settling future (future.setException (.object .portalError)) (.ok true)

/-- `message_handler`, with the future after it. -/
def messageHandler (r : PortalRequest) (future : Future) (msg : Message) :
    Future × Except HandlerError Bool :=
  if future.isDone then (future, .ok false)
  else if r.Matches msg then
    match msg.body with
    | [code, value] => respond isAlnum future code value
    | _ => (future, .error .valueError)
  else (future, .ok false)

/-! ### Runs -/

structure State where
  future : Future
  registered : Bool

/- A message of the bus, or the callback that takes the handler from the bus. -/
inductive Event where
  | message (msg : Message)
  | whenDone

def step (r : PortalRequest) (s : State) : Event → State
  | .message msg =>
    if s.registered then { s with future := (messageHandler isAlnum r s.future msg).1 } else s
  | .whenDone => if s.future.isDone then { s with registered := false } else s

def run (r : PortalRequest) (events : List Event) : State :=
  events.foldl (step isAlnum r) ⟨.pending, true⟩

/-! ### Names of errors -/

theorem skip_eq_some {p s rest : List Char} : skip p s = some rest ↔ s = p ++ rest := by
  induction p generalizing s with
  | nil => simp [skip]
  | cons c p ih =>
    cases s with
    | nil => simp [skip]
    | cons d s =>
      unfold skip
      split
      · rename_i hc
        rw [ih, hc, List.cons_append, List.cons.injEq]
        simp
      · rename_i hc
        have hne : d ≠ c := fun h => hc h.symm
        simp [hne]

theorem anyChar_eq_some {s rest : List Char} :
    anyChar s = some rest ↔ ∃ c, c ≠ '\n' ∧ s = c :: rest := by
  cases s with
  | nil => simp [anyChar]
  | cons d s =>
    unfold anyChar
    split
    · rename_i hd
      simp [hd]
    · rename_i hd
      simp [hd]

theorem skip_append (p rest : List Char) : skip p (p ++ rest) = some rest := skip_eq_some.mpr rfl

theorem anyChar_cons {c : Char} {rest : List Char} (h : c ≠ '\n') :
    anyChar (c :: rest) = some rest := anyChar_eq_some.mpr ⟨c, h, rfl⟩

theorem colon_not_word : isWord isAlnum ':' = false := by
  unfold isWord
  rw [if_pos (by decide)]
  decide

/- A text that the pattern matches, with the name that it finds. -/
def Names (s : String) (name : List Char) : Prop :=
  ∃ a b c rest, s.toList = "xyz".toList ++ a :: ("iinuwa".toList ++
      b :: ("credentialsd".toList ++ c :: (name ++ (':' :: ' ' :: rest)))) ∧
    (a ≠ '\n' ∧ b ≠ '\n' ∧ c ≠ '\n') ∧ name ≠ [] ∧ ∀ x ∈ name, isWord isAlnum x = true

theorem takeWhile_name {name : List Char} (rest : List Char)
    (h : ∀ x ∈ name, isWord isAlnum x = true) :
    (name ++ (':' :: ' ' :: rest)).takeWhile (isWord isAlnum) = name ∧
      (name ++ (':' :: ' ' :: rest)).dropWhile (isWord isAlnum) = ':' :: ' ' :: rest := by
  have hcolon := colon_not_word isAlnum
  have htake : (':' :: ' ' :: rest).takeWhile (isWord isAlnum) = [] :=
    List.takeWhile_cons_of_neg (by simp [hcolon])
  have hdrop : (':' :: ' ' :: rest).dropWhile (isWord isAlnum) = ':' :: ' ' :: rest :=
    List.dropWhile_cons_of_neg (by simp [hcolon])
  constructor
  · rw [List.takeWhile_append_of_pos h, htake, List.append_nil]
  · rw [List.dropWhile_append_of_pos h, hdrop]

theorem matchName_iff {s n : String} :
    matchName isAlnum s = some n ↔ ∃ name, Names isAlnum s name ∧ n = String.ofList name := by
  constructor
  · intro h
    unfold matchName at h
    obtain ⟨r₁, h₁, h⟩ := Option.bind_eq_some_iff.mp h
    obtain ⟨r₂, h₂, h⟩ := Option.bind_eq_some_iff.mp h
    obtain ⟨r₃, h₃, h⟩ := Option.bind_eq_some_iff.mp h
    obtain ⟨r₄, h₄, h⟩ := Option.bind_eq_some_iff.mp h
    obtain ⟨r₅, h₅, h⟩ := Option.bind_eq_some_iff.mp h
    obtain ⟨r₆, h₆, h⟩ := Option.bind_eq_some_iff.mp h
    obtain ⟨r₇, h₇, h⟩ := Option.bind_eq_some_iff.mp h
    split at h
    · cases h
    · rename_i hname
      cases h
      obtain ⟨a, ha, h₂⟩ := anyChar_eq_some.mp h₂
      obtain ⟨b, hb, h₄⟩ := anyChar_eq_some.mp h₄
      obtain ⟨c, hc, h₆⟩ := anyChar_eq_some.mp h₆
      have hsplit : r₆ = r₆.takeWhile (isWord isAlnum) ++ (':' :: ' ' :: r₇) := by
        have hrest : r₆.dropWhile (isWord isAlnum) = ':' :: ' ' :: r₇ := skip_eq_some.mp h₇
        rw [← hrest, List.takeWhile_append_dropWhile]
      refine ⟨_, ⟨a, b, c, r₇, ?_, ⟨ha, hb, hc⟩, hname, ?_⟩, rfl⟩
      · rw [skip_eq_some.mp h₁, h₂, skip_eq_some.mp h₃, h₄, skip_eq_some.mp h₅, h₆, ← hsplit]
      · intro x hx
        exact List.mem_takeWhile_imp hx
  · rintro ⟨name, ⟨a, b, c, rest, hs, ⟨ha, hb, hc⟩, hname, hword⟩, rfl⟩
    obtain ⟨htake, hdrop⟩ := takeWhile_name isAlnum rest hword
    have hcolon : skip [':', ' '] (':' :: ' ' :: rest) = some rest := skip_append [':', ' '] rest
    simp only [matchName, hs, skip_append, anyChar_cons ha, anyChar_cons hb, anyChar_cons hc, htake,
      hdrop, hcolon, Option.bind_eq_bind, Option.bind_some, if_neg hname]

/-- The texts that are taken for errors. -/
def Understood (s : String) : Prop := ∃ name, Names isAlnum s name

theorem fromString_none_iff (s : String) :
    fromString isAlnum s = .none ↔ ¬ Understood isAlnum s := by
  have hmatch : matchName isAlnum s = none ↔ ¬ Understood isAlnum s := by
    rw [Option.eq_none_iff_forall_ne_some]
    constructor
    · rintro hnone ⟨name, hname⟩
      exact hnone _ ((matchName_iff isAlnum).mpr ⟨name, hname, rfl⟩)
    · intro hnot n hn
      obtain ⟨name, hname, -⟩ := (matchName_iff isAlnum).mp hn
      exact hnot ⟨name, hname⟩
  rw [← hmatch]
  unfold fromString
  constructor
  · intro h
    cases hm : matchName isAlnum s with
    | none => rfl
    | some name =>
      rw [hm] at h
      dsimp only at h
      split_ifs at h
  · intro h
    rw [h]

/-! ### Responses -/

/- What a response has to come to. -/
def Answers (body : List DBusValue) (outcome : Outcome) : Prop :=
  ∃ code value, body = [code, value] ∧
    if code.isNumber 0 then outcome = .result value else ∃ e, outcome = .exception e

/- The results of a response with an error: there is none, or it is a text that is understood. -/
def ErrorReadable (value : DBusValue) : Prop :=
  value.contains "error" = .ok false ∨
    ∃ signature s, value.getItem "error" = .ok (.variant signature (.str s)) ∧ Understood isAlnum s

def Answerable (body : List DBusValue) : Prop :=
  ∃ code value, body = [code, value] ∧ (code.isNumber 2 → ErrorReadable isAlnum value)

theorem isNumber_unique {v : DBusValue} {m n : Nat} (hm : v.isNumber m) (hn : v.isNumber n) :
    m = n := by
  cases v with
  | bool b =>
    have hm : b.toNat = m := by simpa [DBusValue.isNumber] using hm
    have hn : b.toNat = n := by simpa [DBusValue.isNumber] using hn
    omega
  | int k =>
    have hm : k = m := by simpa [DBusValue.isNumber] using hm
    have hn : k = n := by simpa [DBusValue.isNumber] using hn
    omega
  | double bits =>
    simp [DBusValue.isNumber] at hm hn
    omega
  | _ => cases hm

theorem contains_of_getItem {value v : DBusValue} {key : String}
    (h : value.getItem key = .ok v) : value.contains key = .ok true := by
  cases value with
  | dict entries =>
    simp only [DBusValue.getItem] at h
    cases hlookup : DBusValue.lookup key entries with
    | none =>
      rw [hlookup] at h
      cases h
    | some w => simp only [DBusValue.contains, hlookup, Option.isSome_some]
  | _ => cases h

theorem errorOf_eq {value : DBusValue} {signature s : String}
    (h : value.getItem "error" = .ok (.variant signature (.str s))) :
    errorOf isAlnum value = .ok (fromString isAlnum s) := by
  unfold errorOf
  rw [h]
  rfl

theorem readable_of_errorOf {value : DBusValue} {e : Raisable}
    (h : errorOf isAlnum value = .ok e) (he : e ≠ .none) : ErrorReadable isAlnum value := by
  unfold errorOf at h
  cases hitem : value.getItem "error" with
  | error e =>
    rw [hitem] at h
    cases h
  | ok v =>
    rw [hitem] at h
    cases v with
    | variant signature inner =>
      cases inner with
      | str s =>
        cases h
        refine Or.inr ⟨signature, s, hitem, ?_⟩
        by_contra hnot
        exact he ((fromString_none_iff isAlnum s).mpr hnot)
      | _ => cases h
    | _ => cases h

/-- A response settles the future as it should if and only if it can be answered to. -/
theorem respond_spec (code value : DBusValue) :
    (∃ o, (respond isAlnum .pending code value).1 = .done o ∧ Answers [code, value] o) ↔
      (code.isNumber 2 → ErrorReadable isAlnum value) := by
  have hanswers (o : Outcome) : Answers [code, value] o ↔
      if code.isNumber 0 then o = .result value else ∃ e, o = .exception e := by
    constructor
    · rintro ⟨c, v, hbody, ho⟩
      cases hbody
      exact ho
    · exact fun ho => ⟨code, value, rfl, ho⟩
  have hexception (e : PortalError) (h0 : ¬ code.isNumber 0) :
      Answers [code, value] (.exception e) := by
    rw [hanswers, if_neg h0]
    exact ⟨e, rfl⟩
  unfold respond
  by_cases h0 : code.isNumber 0
  · have hnot2 : ¬ code.isNumber 2 := fun h2 => absurd (isNumber_unique h0 h2) (by decide)
    rw [if_pos h0]
    have hresult : Answers [code, value] (.result value) := by
      rw [hanswers, if_pos h0]
    exact iff_of_true ⟨_, rfl, hresult⟩ (fun h2 => absurd h2 hnot2)
  · rw [if_neg h0]
    by_cases h1 : code.isNumber 1
    · have hnot2 : ¬ code.isNumber 2 := fun h2 => absurd (isNumber_unique h1 h2) (by decide)
      rw [if_pos h1]
      exact iff_of_true ⟨_, rfl, hexception _ h0⟩ (fun h2 => absurd h2 hnot2)
    · rw [if_neg h1]
      by_cases h2 : code.isNumber 2
      · rw [if_pos h2]
        cases hcontains : value.contains "error" with
        | error e =>
          refine iff_of_false ?_ ?_
          · rintro ⟨o, ho, -⟩
            cases ho
          · intro hreadable
            rcases hreadable h2 with hfalse | ⟨signature, s, hitem, -⟩
            · rw [hcontains] at hfalse
              cases hfalse
            · rw [contains_of_getItem hitem] at hcontains
              cases hcontains
        | ok found =>
          cases found with
          | false => exact iff_of_true ⟨_, rfl, hexception _ h0⟩ (fun _ => Or.inl hcontains)
          | true =>
            constructor
            · rintro ⟨o, ho, -⟩ -
              cases herror : errorOf isAlnum value with
              | error e =>
                simp only [herror] at ho
                cases ho
              | ok e =>
                refine readable_of_errorOf isAlnum herror ?_
                rintro rfl
                simp only [herror] at ho
                cases ho
            · intro hreadable
              rcases hreadable h2 with hfalse | ⟨signature, s, hitem, hs⟩
              · rw [hcontains] at hfalse
                cases hfalse
              · have hsome := mt (fromString_none_iff isAlnum s).mp (not_not.mpr hs)
                simp only [errorOf_eq isAlnum hitem]
                cases hr : fromString isAlnum s with
                | none => exact absurd hr hsome
                | type e => exact ⟨_, rfl, hexception e h0⟩
                | object e => exact ⟨_, rfl, hexception e h0⟩
      · rw [if_neg h2]
        exact iff_of_true ⟨_, rfl, hexception _ h0⟩ (fun h => absurd h h2)

/-! ### The first response -/

section Runs

variable (r : PortalRequest)

def NoResponse (events : List Event) : Prop := ∀ msg, .message msg ∈ events → ¬ r.Matches msg

/- The message after `before` is the first that matches. -/
def FirstResponse (events before : List Event) (msg : Message) (after : List Event) : Prop :=
  events = before ++ .message msg :: after ∧ NoResponse r before ∧ r.Matches msg

/-- The first response settles the future, which was not settled before and is as it is then
ever after; where there is none, the future is not settled. -/
def SettlesOnce (events : List Event) : Prop :=
  (∀ before msg after, FirstResponse r events before msg after →
    (run isAlnum r before).future = .pending ∧
      ∃ outcome, Answers msg.body outcome ∧ ∀ more, more <+: after →
        (run isAlnum r (before ++ .message msg :: more)).future = .done outcome) ∧
  (NoResponse r events → (run isAlnum r events).future = .pending)

theorem run_append (events more : List Event) :
    run isAlnum r (events ++ more) = more.foldl (step isAlnum r) (run isAlnum r events) := by
  unfold run
  rw [List.foldl_append]

/- A future that is done is not touched any more. -/
theorem step_done {s : State} {o : Outcome} (h : s.future = .done o) (e : Event) :
    (step isAlnum r s e).future = .done o := by
  have hhandler (msg : Message) : (messageHandler isAlnum r s.future msg).1 = .done o := by
    unfold messageHandler
    rw [h]
    rfl
  cases e with
  | message msg =>
    simp only [step]
    split
    · exact hhandler msg
    · exact h
  | whenDone =>
    simp only [step]
    split
    · exact h
    · exact h

theorem foldl_done {s : State} {o : Outcome} (h : s.future = .done o) (events : List Event) :
    (events.foldl (step isAlnum r) s).future = .done o := by
  induction events generalizing s with
  | nil => exact h
  | cons e events ih => exact ih (step_done isAlnum r h e)

/- Before a response nothing happens. -/
theorem run_noResponse {events : List Event} (h : NoResponse r events) :
    run isAlnum r events = ⟨.pending, true⟩ := by
  unfold run
  induction events with
  | nil => rfl
  | cons e events ih =>
    have hrest : NoResponse r events := fun msg hm => h msg (List.mem_cons_of_mem e hm)
    have hstep : step isAlnum r ⟨.pending, true⟩ e = ⟨.pending, true⟩ := by
      cases e with
      | message msg =>
        have hnot : ¬ r.Matches msg := h msg List.mem_cons_self
        simp only [step, messageHandler, Future.isDone, Bool.false_eq_true, if_false, if_true,
          if_neg hnot]
      | whenDone => rfl
    rw [List.foldl_cons, hstep]
    exact ih hrest

theorem run_message {before : List Event} (hbefore : NoResponse r before) (msg : Message) :
    (run isAlnum r (before ++ [.message msg])).future =
      (messageHandler isAlnum r .pending msg).1 := by
  rw [run_append, run_noResponse isAlnum r hbefore]
  rfl

/- What the handler makes of a response. -/
theorem messageHandler_spec {msg : Message} (hmsg : r.Matches msg) :
    (∃ o, (messageHandler isAlnum r .pending msg).1 = .done o ∧ Answers msg.body o) ↔
      Answerable isAlnum msg.body := by
  have hresponse : messageHandler isAlnum r .pending msg =
      match msg.body with
      | [code, value] => respond isAlnum .pending code value
      | _ => (.pending, .error .valueError) := by
    unfold messageHandler
    rw [if_neg (by decide), if_pos hmsg]
  rw [hresponse]
  split
  · rename_i code value hbody
    rw [hbody, respond_spec]
    constructor
    · exact fun h => ⟨code, value, rfl, h⟩
    · rintro ⟨c, v, heq, h⟩
      cases heq
      exact h
  · rename_i hbody
    refine iff_of_false ?_ ?_
    · rintro ⟨o, ho, -⟩
      cases ho
    · rintro ⟨code, value, heq, -⟩
      exact hbody code value heq

/-- The future is settled once, by the first response, if and only if the handler can answer to
it: its body are a code and results, and an error that comes with code 2 is a text whose beginning
is that of the daemon's errors. -/
theorem settlesOnce_iff (events : List Event) :
    SettlesOnce isAlnum r events ↔
      ∀ before msg after, FirstResponse r events before msg after →
        Answerable isAlnum msg.body := by
  constructor
  · rintro ⟨hfirst, -⟩ before msg after hresponse
    obtain ⟨-, o, ho, hmore⟩ := hfirst before msg after hresponse
    have hdone := hmore [] (List.nil_prefix)
    rw [run_message isAlnum r hresponse.2.1] at hdone
    exact (messageHandler_spec isAlnum r hresponse.2.2).mp ⟨o, hdone, ho⟩
  · intro h
    refine ⟨?_, ?_⟩
    · intro before msg after hresponse
      have hanswer := h before msg after hresponse
      obtain ⟨-, hbefore, hmsg⟩ := hresponse
      obtain ⟨o, hdone, ho⟩ := (messageHandler_spec isAlnum r hmsg).mpr hanswer
      refine ⟨by rw [run_noResponse isAlnum r hbefore], o, ho, ?_⟩
      intro more _
      rw [← List.singleton_append, ← List.append_assoc, run_append]
      refine foldl_done isAlnum r ?_ more
      rw [run_message isAlnum r hbefore]
      exact hdone
    · intro hnone
      rw [run_noResponse isAlnum r hnone]

end Runs

/- An error that is written without the names of the daemon comes to nothing. -/
theorem unnamed_not_settled :
    (PortalRequest.mk ":1.42" "00").Matches
        ⟨some "/org/freedesktop/portal/desktop/request/1_42/00", .signal, some ":1.42",
          some "org.freedesktop.portal.Request", some "Response",
          [.int 2, .dict [(.str "error", .variant "s" (.str "NotAllowedError"))]]⟩ ∧
      ¬ SettlesOnce (fun _ => false) ⟨":1.42", "00"⟩ [.message
        ⟨some "/org/freedesktop/portal/desktop/request/1_42/00", .signal, some ":1.42",
          some "org.freedesktop.portal.Request", some "Response",
          [.int 2, .dict [(.str "error", .variant "s" (.str "NotAllowedError"))]]⟩] := by
  refine ⟨by decide +kernel, ?_⟩
  rintro ⟨hfirst, -⟩
  obtain ⟨-, o, -, hmore⟩ := hfirst [] _ [] ⟨rfl, nofun, by decide +kernel⟩
  have hisDone : (Future.done o).isDone = true := rfl
  rw [← hmore [] List.nil_prefix] at hisDone
  exact absurd hisDone (by decide +kernel)

end Pattern

end Shim

/-! ### The responses of the daemon (`credentialsd/src/gateway/dbus.rs:227-323`) -/

namespace Gateway

open Shim

/- `PortalResponse` -/
inductive PortalResponse where
  | success
  | other
  deriving Repr, DecidableEq

def PortalResponse.code : PortalResponse → Nat
  | .success => 0
  | .other => 2

/-- `PortalResult::serialize`, where `display` is how the error is written. -/
def PortalResult.serialize {E : Type} (display : E → String)
    (inner : Except E (List (DBusValue × DBusValue))) : List DBusValue :=
  match inner with
  | .error err =>
    [.int PortalResponse.other.code, .dict [(.str "error", .variant "s" (.str (display err)))]]
  | .ok response => [.int PortalResponse.success.code, .dict response]

/-- A response of the daemon can be answered to if and only if its error is understood. -/
theorem PortalResult.answerable_serialize (isAlnum : Char → Bool) {E : Type}
    (display : E → String) (inner : Except E (List (DBusValue × DBusValue))) :
    Answerable isAlnum (PortalResult.serialize display inner) ↔
      ∀ err, inner = .error err → Understood isAlnum (display err) := by
  cases inner with
  | ok response =>
    refine iff_of_true ⟨_, _, rfl, ?_⟩ nofun
    intro h
    exact absurd h (by decide)
  | error err =>
    constructor
    · rintro ⟨code, value, hbody, hreadable⟩ err' herr
      cases herr
      cases hbody
      rcases hreadable (by decide) with hfalse | ⟨signature, s, hitem, hs⟩
      · cases hfalse
      · cases hitem
        exact hs
    · intro h
      exact ⟨_, _, rfl, fun _ => Or.inr ⟨"s", display err, rfl, h err rfl⟩⟩

/- The class of the host that stands for an error of the daemon, and its name. -/
def WebAuthnError.portalError : WebAuthnError → PortalError
  | .abortError => .abortError
  | .constraintError => .constraintError
  | .invalidStateError => .invalidStateError
  | .notSupportedError => .notSupportedError
  | .securityError => .securityError
  | .notAllowedError => .notAllowedError
  | .typeError => .typeError

def WebAuthnError.name : WebAuthnError → String
  | .abortError => "AbortError"
  | .constraintError => "ConstraintError"
  | .invalidStateError => "InvalidStateError"
  | .notSupportedError => "NotSupportedError"
  | .securityError => "SecurityError"
  | .notAllowedError => "NotAllowedError"
  | .typeError => "TypeError"

/-- The errors of the daemon keep their names, whatever they are described by. -/
theorem WebAuthnError.fromString_name (isAlnum : Char → Bool) (e : WebAuthnError)
    (description : String) :
    fromString isAlnum ("xyz.iinuwa.credentialsd." ++ e.name ++ ": " ++ description) =
      .type e.portalError := by
  have hall : (e.name.toList.all fun x => x.toNat < 128 && x.isAlphanum) = true := by
    cases e <;> rfl
  have hword : ∀ x ∈ e.name.toList, isWord isAlnum x = true := by
    intro x hx
    have hx := List.all_eq_true.mp hall x hx
    rw [Bool.and_eq_true, decide_eq_true_eq] at hx
    unfold isWord
    rw [if_pos hx.1, hx.2, Bool.true_or]
  have hnames : Names isAlnum ("xyz.iinuwa.credentialsd." ++ e.name ++ ": " ++ description)
      e.name.toList := by
    refine ⟨'.', '.', '.', description.toList, ?_, by decide, ?_, hword⟩
    · have hfront : "xyz.iinuwa.credentialsd.".toList = "xyz".toList ++ '.' :: ("iinuwa".toList ++
          '.' :: ("credentialsd".toList ++ ['.'])) := by decide +kernel
      have hcolon : ": ".toList = [':', ' '] := by decide +kernel
      simp only [String.toList_append, hfront, hcolon, List.append_assoc, List.cons_append,
        List.nil_append]
    · cases e <;> decide +kernel
  have hmatch := (matchName_iff isAlnum).mpr ⟨_, hnames, rfl⟩
  rw [String.ofList_toList] at hmatch
  unfold fromString
  rw [hmatch]
  cases e <;> rfl

end Gateway

end Credentialsd
