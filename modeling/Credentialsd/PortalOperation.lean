import Credentialsd.AddOn
import Credentialsd.NativeHost
import Credentialsd.PageOptions
import Credentialsd.PortalRequest

/-!
# The operations on the portal (`webext/app/credential_manager_shim.py:408-487`)

`create_passkey` and `get_passkey` register a handler for the response, call a method of the
portal, wait for the method to return, and then for the future that the handler settles.
-/

namespace Credentialsd

open NativeHost (Raised)

namespace Shim

/-! ### Exceptions -/

/- `type(e).__name__` for the exceptions of the portal. They are made without a text. -/
def PortalError.name : PortalError → String
  | .portalError => "PortalError"
  | .abortError => "AbortError"
  | .constraintError => "ConstraintError"
  | .invalidStateError => "InvalidStateError"
  | .notSupportedError => "NotSupportedError"
  | .securityError => "SecurityError"
  | .notAllowedError => "NotAllowedError"
  | .typeError => "TypeError"

def PortalError.raised (e : PortalError) : Raised := ⟨true, e.name, ""⟩

def PyError.name : PyError → String
  | .indexError => "IndexError"
  | .keyError => "KeyError"
  | .typeError => "TypeError"
  | .structError => "error"
  | .unboundLocalError => "UnboundLocalError"
  | .unicodeDecodeError => "UnicodeDecodeError"
  | .assertionError => "AssertionError"
  | .recursionError => "RecursionError"
  | .exception _ => "Exception"

def HandlerError.name : HandlerError → String
  | .valueError => "ValueError"
  | .typeError => "TypeError"
  | .keyError => "KeyError"
  | .attributeError => "AttributeError"
  | .runtimeError => "RuntimeError"
  | .invalidStateError => "InvalidStateError"

/-- What the host and the browser leave to their libraries and to the interpreter: JSON there and
here, texts, and how many calls may be nested. `options` are those of a native message, `arrives` is
a value of a reply as the page gets it. -/
structure Runtime where
  dumps : PyValue → Except Raised String
  loads : DBusValue → Except Raised PyValue
  options : String → PyValue
  parse : Bytes → Option AddOn.Response
  arrives : PyValue → String
  str : DBusValue → String
  describe : PyError → String
  describeHandler : HandlerError → String
  isAlnum : Char → Bool
  recursionLimit : Nat

namespace Runtime

variable (rt : Runtime)

def raisedPython : PyError → Raised
  | .exception message => ⟨true, "Exception", message⟩
  | e => ⟨true, e.name, rt.describe e⟩

def raisedHandler (e : HandlerError) : Raised := ⟨true, e.name, rt.describeHandler e⟩

def raisedReply : ReplyError → Raised
  | .python e => rt.raisedPython e
  | .valueError message => ⟨true, "ValueError", message⟩
  | .binascii message => ⟨true, "Error", message⟩

end Runtime

/-! ### The call -/

/-- A call of a method: its arguments that are texts, and the options, which come last. -/
structure PortalCall where
  member : String
  arguments : List String
  handleToken : String
  publicKey : String
  topOrigin : Option String
  deriving Repr, DecidableEq

/- `if top_origin != origin` -/
def topOriginOption (origin topOrigin : String) : Option String :=
  if topOrigin ≠ origin then some topOrigin else none

def createPasskeyCall (origin topOrigin reqJson token : String) : PortalCall :=
  ⟨"CreateCredential", ["", origin, "publicKey"], token, reqJson,
    topOriginOption origin topOrigin⟩

def getPasskeyCall (origin topOrigin reqJson token : String) : PortalCall :=
  ⟨"GetCredential", ["", origin], token, reqJson, topOriginOption origin topOrigin⟩

/- What `run` calls the portal with. -/
def portalCall (cmd : AddOn.Cmd) (origin topOrigin reqJson token : String) : Option PortalCall :=
  match cmd with
  | .create => some (createPasskeyCall origin topOrigin reqJson token)
  | .get => some (getPasskeyCall origin topOrigin reqJson token)
  | .getClientCapabilities => none

/-! ### The response -/

/- `value[key].value` -/
def unwrapItem (key : String) (value : DBusValue) : Except HandlerError DBusValue := do
  (← value.getItem key).unwrap

namespace Runtime

variable (rt : Runtime)

/-- The response in the results of the portal, which both operations read in the same way. -/
def responseJson (key : String) (result : DBusValue) : Except Raised PyValue := do
  let type ← (unwrapItem "type" result).mapError rt.raisedHandler
  if type.isStr "public-key" then
    let publicKey ← (unwrapItem "public_key" result).mapError rt.raisedHandler
    rt.loads (← (unwrapItem key publicKey).mapError rt.raisedHandler)
  else
    .error ⟨true, "Exception",
      "Invalid credential type received: expected 'public-key', received " ++ rt.str type⟩

def createPasskeyResult (result : DBusValue) : Except Raised PyValue := do
  let responseJson ← rt.responseJson "registration_response_json" result
  (createPasskey rt.recursionLimit "public-key" responseJson).mapError rt.raisedReply

def getPasskeyResult (result : DBusValue) : Except Raised PyValue :=
  rt.responseJson "authentication_response_json" result

/-- What the operation returns or raises once the future is done. -/
def result (cmd : AddOn.Cmd) : Outcome → Except Raised PyValue
  | .exception e => .error e.raised
  | .result value =>
    match cmd with
    | .create => rt.createPasskeyResult value
    | _ => rt.getPasskeyResult value

end Runtime

/-! ### The operation -/

/-- An operation that has called the portal: what the handler has received since, and whether the
method has returned. -/
structure PasskeyOperation where
  call : PortalCall
  request : PortalRequest
  received : List Event := []
  returned : Bool := false

namespace PasskeyOperation

variable (rt : Runtime)

def future (o : PasskeyOperation) : Future := (run rt.isAlnum o.request o.received).future

/-- The signal that has settled the future with results: it is for the handle of this request, says
that the request was successful, and has been received. -/
structure SettledBy (o : PasskeyOperation) (msg : Message) (value : DBusValue) : Prop where
  received : .message msg ∈ o.received
  matched : o.request.Matches msg
  successful : ∃ code, msg.body = [code, value] ∧ code.isNumber 0

end PasskeyOperation

section Settled

variable (isAlnum : Char → Bool)

/- An exception never is a result. -/
theorem setException_ne_result {future : Future} {e : Raisable} {value : DBusValue}
    {future' : Future} (h : future.setException e = .ok future') :
    future' ≠ .done (.result value) := by
  cases future with
  | done o => cases h
  | pending =>
    cases e with
    | none => cases h
    | type e =>
      cases h
      intro hresult
      cases hresult
    | object e =>
      cases h
      intro hresult
      cases hresult

theorem settling_exception {e : Raisable} {after : Except HandlerError Bool} {value : DBusValue} :
    (settling .pending (Future.pending.setException e) after).1 ≠ .done (.result value) := by
  unfold settling
  cases hset : Future.pending.setException e with
  | error e' =>
    intro h
    cases h
  | ok future' => exact setException_ne_result hset

theorem respond_result {code value result : DBusValue}
    (h : (respond isAlnum .pending code value).1 = .done (.result result)) :
    code.isNumber 0 = true ∧ value = result := by
  unfold respond at h
  split at h
  · rename_i hcode
    cases h
    exact ⟨hcode, rfl⟩
  · split at h
    · exact absurd h settling_exception
    · split at h
      · split at h
        · cases h
        · split at h
          · cases h
          · exact absurd h settling_exception
        · exact absurd h settling_exception
      · exact absurd h settling_exception

theorem messageHandler_result (r : PortalRequest) {msg : Message} {result : DBusValue}
    (h : (messageHandler isAlnum r .pending msg).1 = .done (.result result)) :
    r.Matches msg ∧ ∃ code, msg.body = [code, result] ∧ code.isNumber 0 := by
  unfold messageHandler at h
  rw [if_neg (by decide)] at h
  split at h
  · rename_i hmatch
    split at h
    · rename_i code value hbody
      obtain ⟨hcode, rfl⟩ := respond_result isAlnum h
      exact ⟨hmatch, code, hbody, hcode⟩
    · cases h
  · cases h

/- The events so far have settled the future, or the next one does. -/
theorem step_result (r : PortalRequest) {s : State} {e : Event} {result : DBusValue}
    (h : (step isAlnum r s e).future = .done (.result result)) :
    s.future = .done (.result result) ∨
      ∃ msg, e = .message msg ∧ r.Matches msg ∧
        ∃ code, msg.body = [code, result] ∧ code.isNumber 0 := by
  cases e with
  | whenDone =>
    simp only [step] at h
    split at h
    · exact Or.inl h
    · exact Or.inl h
  | message msg =>
    simp only [step] at h
    split at h
    · cases hfuture : s.future with
      | done o =>
        rw [hfuture] at h
        exact Or.inl h
      | pending =>
        rw [hfuture] at h
        exact Or.inr ⟨msg, rfl, messageHandler_result isAlnum r h⟩
    · exact Or.inl h

theorem run_result (r : PortalRequest) {events : List Event} {result : DBusValue}
    (h : (run isAlnum r events).future = .done (.result result)) :
    ∃ msg, .message msg ∈ events ∧ r.Matches msg ∧
      ∃ code, msg.body = [code, result] ∧ code.isNumber 0 := by
  induction events using List.reverseRecOn with
  | nil => cases h
  | append_singleton events e ih =>
    rw [run_append] at h
    rcases step_result isAlnum r h with hbefore | ⟨msg, rfl, hmsg⟩
    · obtain ⟨msg, hmem, hmsg⟩ := ih hbefore
      exact ⟨msg, List.mem_append_left _ hmem, hmsg⟩
    · exact ⟨msg, List.mem_append_right _ (List.mem_singleton_self _), hmsg⟩

end Settled

namespace PasskeyOperation

variable (rt : Runtime)

theorem settledBy_of_future {o : PasskeyOperation} {value : DBusValue}
    (h : o.future rt = .done (.result value)) : ∃ msg, o.SettledBy msg value := by
  obtain ⟨msg, hmem, hmatch, hcode⟩ := run_result rt.isAlnum o.request h
  exact ⟨msg, hmem, hmatch, hcode⟩

/- What comes after the future is done does not change it. -/
theorem future_receive {o : PasskeyOperation} {outcome : Outcome}
    (h : o.future rt = .done outcome) (e : Event) :
    ({ o with received := o.received ++ [e] } : PasskeyOperation).future rt = .done outcome := by
  unfold future at h ⊢
  rw [run_append]
  exact step_done rt.isAlnum o.request h e

end PasskeyOperation

end Shim

end Credentialsd
