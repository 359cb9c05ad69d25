import Credentialsd.Lib.Machine
import Mathlib.Logic.Function.Basic

/-!
# The add-on (`webext/add-on/content-main.js`, `content-bridge.js`, `background.js`)

A call of the page goes to the bridge as a message of the window, from there over a port
to the background script, and on to the native messaging host; the reply comes back the
same way. Messages stay in order within the window and within either direction of a
port, and a port that is disconnected may lose them.
-/

namespace Credentialsd

namespace AddOn

/-! ### Messages -/

inductive Cmd where
  | create
  | get
  | getClientCapabilities
  deriving Repr, DecidableEq

structure Request where
  requestId : Nat
  cmd : Cmd
  options : Option String
  deriving Repr, DecidableEq

/-- What the host answers with: the `data` or the `error` of its reply. -/
inductive Reply where
  | data (value : String)
  | error (name message : String)
  deriving Repr, DecidableEq

structure Response where
  requestId : Nat
  reply : Reply
  deriving Repr, DecidableEq

inductive Message where
  | windowRequest (request : Request)
  | portRequest (port : Nat) (request : Request)
  | portResponse (port : Nat) (response : Response)
  | windowResponse (response : Response)
  deriving Repr, DecidableEq

/-- What a message keeps its place in. -/
inductive Channel where
  | window
  | toBackground (port : Nat)
  | toContent (port : Nat)
  deriving Repr, DecidableEq

namespace Message

def channel : Message → Channel
  | .windowRequest _ => .window
  | .portRequest port _ => .toBackground port
  | .portResponse port _ => .toContent port
  | .windowResponse _ => .window

def port : Message → Option Nat
  | .portRequest port _ => some port
  | .portResponse port _ => some port
  | _ => none

def request : Message → Option Request
  | .windowRequest request => some request
  | .portRequest _ request => some request
  | _ => none

def response : Message → Option Response
  | .portResponse _ response => some response
  | .windowResponse response => some response
  | _ => none

end Message

/-! ### The state -/

/-- How the promise of a call is settled. -/
inductive Settlement where
  | resolved (data : String)
  | rejected (message name : String)
  deriving Repr, DecidableEq

/- `error.message || 'WebAuthn operation failed'` and the like. -/
def orElse (text default : String) : String := if text = "" then default else text

def Settlement.of : Reply → Settlement
  | .data value => .resolved value
  | .error name message =>
    .rejected (orElse message "WebAuthn operation failed") (orElse name "NotAllowedError")

/-- The options of a call: whether it has `publicKey`, its `mediation`, and what serialising comes
to, `none` if that throws. -/
structure CallOptions where
  publicKey : Bool
  mediation : Option String
  serialized : Option String

def intercepts (options : CallOptions) : Bool :=
  options.publicKey && options.mediation != some "conditional"

/-- A call of `rcvFromContent`. -/
structure Task where
  port : Nat
  request : Request
  deriving Repr, DecidableEq

inductive Outcome where
  | replied (reply : Reply)
  | rejected
  deriving Repr, DecidableEq

/-- What the bridge keeps: `mainPort`, how many ports it has opened, which of them it has seen
disconnected, and the calls of `connectToBackground` that wait for their time. -/
structure Bridge where
  mainPort : Option Nat := none
  ports : Nat := 0
  noticed : Nat → Bool := fun _ => false
  timers : Nat := 0

/-- `thrown` are the requests whose call has thrown, `settled` those whose promise has been settled,
with how; `finished` are the calls of `rcvFromContent` that have returned, with what came of the
native message. -/
structure State where
  requestCounter : Nat := 0
  pendingRequests : List Nat := []
  thrown : List Nat := []
  settled : List (Nat × Settlement) := []
  messages : List Message := []
  bridge : Bridge := {}
  connected : Nat → Bool := fun _ => true
  awaiting : List Task := []
  finished : List (Task × Outcome) := []

def init : State := {}

namespace State

def post (s : State) (m : Message) : State := { s with messages := s.messages ++ [m] }

/-! ### `content-main.js` -/

def startRequest (s : State) : State :=
  { s with
    requestCounter := s.requestCounter + 1
    pendingRequests := s.pendingRequests ++ [s.requestCounter] }

/-- `navigator.credentials.create` and `get`. A call that is not intercepted goes to the browser. -/
def call (s : State) (cmd : Cmd) : Option CallOptions → State
  | none => s
  | some options =>
    if intercepts options then
      match options.serialized with
      | none => { s.startRequest with thrown := s.thrown ++ [s.requestCounter] }
      | some text => s.startRequest.post (.windowRequest ⟨s.requestCounter, cmd, some text⟩)
    else s

def getClientCapabilities (s : State) : State :=
  s.startRequest.post (.windowRequest ⟨s.requestCounter, .getClientCapabilities, none⟩)

/-- The listener for responses. -/
def receiveResponse (s : State) (r : Response) : State :=
  if r.requestId ∈ s.pendingRequests then
    { s with
      pendingRequests := s.pendingRequests.erase r.requestId
      settled := s.settled ++ [(r.requestId, .of r.reply)] }
  else s

/-! ### `content-bridge.js` -/

def connectToBackground (s : State) : State :=
  { s with
    bridge := { s.bridge with ports := s.bridge.ports + 1, mainPort := some s.bridge.ports } }

/- `port.postMessage` throws when the port is disconnected. -/
def postTo (s : State) (port : Nat) (m : Message) : State :=
  if s.connected port then s.post m else s

/-- The listener for requests. -/
def receiveRequest (s : State) (r : Request) : State :=
  match s.bridge.mainPort with
  | some port => s.postTo port (.portRequest port r)
  | none => s.connectToBackground.postTo s.bridge.ports (.portRequest s.bridge.ports r)

/-- The listener for the disconnection of a port. -/
def onDisconnect (s : State) (port : Nat) : State :=
  { s with bridge :=
    { s.bridge with
      noticed := Function.update s.bridge.noticed port true
      mainPort := none
      timers := s.bridge.timers + 1 } }

/-- The time of a waiting call of `connectToBackground` has come. -/
def onTimer (s : State) : State :=
  { s with bridge := { s.bridge with timers := s.bridge.timers - 1 } }.connectToBackground

/-! ### `background.js` -/

/-- `rcvFromContent` as far as it waits for the host. -/
def rcvFromContent (s : State) (port : Nat) (r : Request) : State :=
  { s with awaiting := s.awaiting ++ [⟨port, r⟩] }

/-- The rest of `rcvFromContent`; what is caught there is not passed on. -/
def nativeSettled (s : State) (t : Task) : Outcome → State
  | .replied reply => s.postTo t.port (.portResponse t.port ⟨t.request.requestId, reply⟩)
  | .rejected => s

/-! ### The steps -/

def receive (s : State) : Message → State
  | .windowRequest r => s.receiveRequest r
  | .portRequest port r => s.rcvFromContent port r
  | .portResponse _ r => s.post (.windowResponse r)
  | .windowResponse r => s.receiveResponse r

/-- No message before it in its channel. -/
def isNext (s : State) (i : Nat) (m : Message) : Bool :=
  (s.messages.take i).all fun other => other.channel != m.channel

end State

inductive Event where
  | create (options : Option CallOptions)
  | get (options : Option CallOptions)
  | getClientCapabilities
  | deliver (i : Nat)
  | native (i : Nat) (outcome : Outcome)
  | disconnect (port : Nat)
  | noticed (port : Nat)
  | timer
  | lose (i : Nat)

def step (s : State) : Event → Option State
  | .create options => some (s.call .create options)
  | .get options => some (s.call .get options)
  | .getClientCapabilities => some s.getClientCapabilities
  | .deliver i =>
    match s.messages[i]? with
    | none => none
    | some m =>
      if s.isNext i m then
        some ({ s with messages := s.messages.eraseIdx i }.receive m)
      else none
  | .native i outcome =>
    match s.awaiting[i]? with
    | none => none
    | some t =>
      some ({ s with
        awaiting := s.awaiting.eraseIdx i
        finished := s.finished ++ [(t, outcome)] }.nativeSettled t outcome)
  | .disconnect port =>
    if port < s.bridge.ports ∧ s.connected port = true then
      some { s with connected := Function.update s.connected port false }
    else none
  | .noticed port =>
    if port < s.bridge.ports ∧ s.connected port = false ∧ s.bridge.noticed port = false then
      some (s.onDisconnect port)
    else none
  | .timer => if 0 < s.bridge.timers then some s.onTimer else none
  | .lose i =>
    match s.messages[i]? with
    | none => none
    | some m =>
      match m.port with
      | none => none
      | some port =>
        if s.connected port then none
        else some { s with messages := s.messages.eraseIdx i }

end AddOn

end Credentialsd
