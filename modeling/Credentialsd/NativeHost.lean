import Credentialsd.Model
import Credentialsd.Lib.Cbor
import Credentialsd.Lib.Machine

/-!
# `main` of the native messaging host
(`webext/app/credential_manager_shim.py:108-121, 514-619`)

`main` waits twice: for the interface, and for the first of the credential operation, the
task that `SIGTERM` completes, and the timeout. What is raised in between comes to one
handler, which answers to an `Exception` and lets everything else pass.
-/

namespace Credentialsd

namespace NativeHost

/-- What is raised, whether it is an `Exception`, its type and its text. -/
structure Raised where
  isException : Bool
  name : String
  message : String
  deriving Repr, DecidableEq

inductive Timeout where
  | missing
  | number
  | other (typeName : String)
  deriving Repr, DecidableEq

/-- The `options` of a message, `none` where there are none. -/
inductive Options where
  | none
  | dict (publicKey : Bool) (timeout : Timeout)
  | other (typeName : String)
  deriving Repr, DecidableEq

/-- A message that has a `requestId`; `J` are the JSON values. -/
structure ReceivedMessage (J : Type) where
  requestId : J
  cmd : Option String
  options : Options
  origin : Option String
  topOrigin : Option String

inductive Body (J : Type) where
  | data (value : J)
  | error (name message : String)

structure Reply (J : Type) where
  requestId : J
  body : Body J

/-! ### Errors of the language -/

def keyError (key : String) : Raised := ⟨true, "KeyError", "'" ++ key ++ "'"⟩

def noGet (typeName : String) : Raised :=
  ⟨true, "AttributeError", "'" ++ typeName ++ "' object has no attribute 'get'"⟩

def noDivision (typeName : String) : Raised :=
  ⟨true, "TypeError", "unsupported operand type(s) for //: '" ++ typeName ++ "' and 'int'"⟩

def structError : Raised :=
  ⟨true, "error", "'I' format requires 0 <= number <= 4294967295"⟩

def cancelledError : Raised := ⟨false, "CancelledError", "Cancelled"⟩

def timeoutError : Raised := ⟨true, "TimeoutError", "Timed out"⟩

/-! ### Writing -/

/-- A message on `stdout`: its length in the order of the machine, which is the little-endian
one here, and its content. -/
def frame (content : Bytes) : Bytes := (Cbor.bigEndian 4 content.length).reverse ++ content

section Json

variable {J : Type} (dumps : Reply J → Except Raised Bytes)

/-- `encodeMessage`, with the two parts joined as `sendMessage` writes them. -/
def encodeMessage (reply : Reply J) : Except Raised Bytes :=
  match dumps reply with
  | .error e => .error e
  | .ok content =>
    if content.length < 4294967296 then .ok (frame content) else .error structError

/-! ### `run` -/

/-- `run`, where `outcome` is what the operation on the portal comes to. A `dict_keys` has no
first element. -/
def run (cmd : String) (options : Options) (outcome : Except Raised J) : Except Raised J :=
  if cmd = "create" ∨ cmd = "get" then
    match options with
    | .dict true _ => outcome
    | .dict false _ =>
      .error ⟨true, "TypeError", "'dict_keys' object is not subscriptable"⟩
    | .none => .error ⟨true, "TypeError", "argument of type 'NoneType' is not iterable"⟩
    | .other typeName =>
      .error ⟨true, "TypeError", "argument of type '" ++ typeName ++ "' is not iterable"⟩
  else if cmd = "getClientCapabilities" then outcome
  else .error ⟨true, "Exception", "unknown cmd: " ++ cmd⟩

/-! ### `main` -/

/-- What is read from the message once there is an interface: the command, or what is raised. -/
def readMessage (m : ReceivedMessage J) : Except Raised String :=
  match m.cmd, m.origin, m.topOrigin with
  | none, _, _ => .error (keyError "cmd")
  | some _, none, _ => .error (keyError "origin")
  | some _, some _, none => .error (keyError "topOrigin")
  | some cmd, some _, some _ =>
    match m.options with
    | .none => .error (noGet "NoneType")
    | .other typeName => .error (noGet typeName)
    | .dict _ (.other typeName) => .error (noDivision typeName)
    | .dict _ _ => .ok cmd

inductive Stage where
  | gettingInterface
  | waiting
  | ended (escaped : Option Raised)
  deriving Repr, DecidableEq

/-- `interface`, `credentialsdTask` and `disconnected` are what the calls of that name have come
to; `cancelTask` and `timedOut` say whether that task is done and whether time is up. -/
structure State (J : Type) where
  message : ReceivedMessage J
  stage : Stage := .gettingInterface
  stdout : Bytes := []
  quit : Bool := false
  cancelTask : Bool := false
  timedOut : Bool := false
  interface : Option (Except Raised Unit) := none
  credentialsdTask : Option (Except Raised J) := none
  disconnected : Option (Except Raised Unit) := none

def init (m : ReceivedMessage J) : State J := { message := m }

namespace State

/-- `except Exception as e` -/
def raise (s : State J) (e : Raised) : State J :=
  if e.isException then
    match encodeMessage dumps ⟨s.message.requestId, .error e.name e.message⟩ with
    | .ok message => { s with stdout := s.stdout ++ message, stage := .ended none }
    | .error e' => { s with stage := .ended (some e') }
  else { s with stage := .ended (some e) }

def gotInterface (s : State J) (r : Except Raised Unit) : State J :=
  let s := { s with interface := some r }
  match r with
  | .error e => s.raise dumps e
  | .ok _ =>
    match readMessage s.message with
    | .error e => s.raise dumps e
    | .ok _ => { s with stage := .waiting }

/-- What comes after `asyncio.wait`; `r` is what becomes of `interface.bus.disconnect()`. -/
def resume (s : State J) (r : Except Raised Unit) : State J :=
  match s.credentialsdTask with
  | some (.error e) => s.raise dumps e
  | some (.ok authData) =>
    match encodeMessage dumps ⟨s.message.requestId, .data authData⟩ with
    | .error e => s.raise dumps e
    | .ok message =>
      let s := { s with stdout := s.stdout ++ message, disconnected := some r }
      match r with
      | .error e => s.raise dumps e
      | .ok _ => { s with stage := .ended none }
  | none => if s.cancelTask then s.raise dumps cancelledError else s.raise dumps timeoutError

def ended (s : State J) : Bool :=
  match s.stage with
  | .ended _ => true
  | _ => false

end State

inductive Event (J : Type) where
  | sigterm
  | cancelTask
  | interface (r : Except Raised Unit)
  | credentialsd (r : Except Raised J)
  | timer
  | resume (r : Except Raised Unit)

def step (s : State J) : Event J → Option (State J)
  | .sigterm => if s.ended then none else some { s with quit := true }
  | .cancelTask =>
    if !s.ended && s.quit && !s.cancelTask then some { s with cancelTask := true } else none
  | .interface r => if s.stage = .gettingInterface then some (s.gotInterface dumps r) else none
  | .credentialsd r =>
    match s.stage, s.credentialsdTask, readMessage s.message with
    | .waiting, none, .ok cmd =>
      some { s with credentialsdTask := some (run cmd s.message.options r) }
    | _, _, _ => none
  | .timer =>
    if s.stage = .waiting ∧ s.timedOut = false then some { s with timedOut := true } else none
  | .resume r =>
    if s.stage = .waiting ∧
        (s.credentialsdTask.isSome = true ∨ s.cancelTask = true ∨ s.timedOut = true) then
      some (s.resume dumps r)
    else none

end Json

end NativeHost

end Credentialsd
