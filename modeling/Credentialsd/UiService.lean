import Credentialsd.FlowControl

/-!
# The sessions of the UI (`credentialsd-ui/src/dbus.rs:64-155, 389-774`, `gui/mod.rs:17-66`)

A call of `create_session` spawns a task that waits for a reason to cancel and, by
`start`, one that forwards what the GUI has to say. It hands a request to the GUI thread
and registers the session in the object server, where calls for the session find it.
All these tasks meet at the path of the session and at the lock of its interface.
-/

namespace Credentialsd

namespace UiService

/-! ### The object server -/

/-- Who holds the interface of a session for writing. -/
inductive Holder where
  | notify (k : Nat)
  | close (k : Nat)
  deriving Repr, DecidableEq

/-- What of a `CeremonySession` the calls for it share: its lock, whether `Closed` has still to be
emitted, and how often it has been. -/
structure CeremonySession where
  writer : Option Holder := none
  readers : Nat := 0
  emitClosedSignal : Bool := true
  closedSignals : Nat := 0
  deriving Repr, DecidableEq

/- `Closed` is emitted at most once. -/
def CeremonySession.emitClosed (c : CeremonySession) : CeremonySession :=
  if c.emitClosedSignal then
    { c with emitClosedSignal := false, closedSignals := c.closedSignals + 1 }
  else c

structure ObjectServer where
  registry : String → Option Nat := fun _ => none
  objects : Nat → CeremonySession := fun _ => {}

/-- Where `CeremonySession::shutdown` stands. -/
inductive Shutdown where
  | lookup
  | get (i : Nat)
  | emit (i : Nat)
  | remove (i : Nat)
  deriving Repr, DecidableEq

/- The session whose interface it reads. -/
def Shutdown.guard : Shutdown → Option Nat
  | .emit i => some i
  | .remove i => some i
  | _ => none

/- The session that it keeps a reference to. -/
def Shutdown.refs : Shutdown → List Nat
  | .lookup => []
  | .get i => [i]
  | .emit i => [i]
  | .remove i => [i]

namespace ObjectServer

def onObject (o : ObjectServer) (i : Nat) (f : CeremonySession → CeremonySession) : ObjectServer :=
  { o with objects := Function.update o.objects i (f (o.objects i)) }

/- A task that is dropped drops its guard. -/
def release (o : ObjectServer) (stage : Shutdown) : ObjectServer :=
  match stage.guard with
  | some i => o.onObject i fun c => { c with readers := c.readers - 1 }
  | none => o

/-- A step of `CeremonySession::shutdown`, with the stage after it unless it returns. A lookup in
the object server reads the interface, too. -/
def shutdown (o : ObjectServer) (sessionHandle : String) :
    Shutdown → Option (ObjectServer × Option Shutdown)
  | .lookup =>
    match o.registry sessionHandle with
    | none => some (o, none)
    | some i => if (o.objects i).writer = none then some (o, some (.get i)) else none
  | .get i =>
    if (o.objects i).writer = none then
      some (o.onObject i fun c => { c with readers := c.readers + 1 }, some (.emit i))
    else none
  | .emit i => some (o.onObject i CeremonySession.emitClosed, some (.remove i))
  | .remove i =>
    some ({ o.release (.remove i) with
      registry := Function.update o.registry sessionHandle none }, none)

/- `InterfaceRef::get_mut`, and the dispatch of a `&mut self` method. -/
def lock (o : ObjectServer) (i : Nat) (w : Holder) : Option ObjectServer :=
  if (o.objects i).writer = none ∧ (o.objects i).readers = 0 then
    some (o.onObject i fun c => { c with writer := some w })
  else none

def unlock (o : ObjectServer) (i : Nat) : ObjectServer :=
  o.onObject i fun c => { c with writer := none }

end ObjectServer

/-! ### The tasks of a call -/

structure RequestingApplication where
  pathOrAppId : String
  name : String
  pid : UInt32
  deriving Repr, DecidableEq

structure ViewRequest where
  operation : Operation
  rpId : String
  requestingApp : RequestingApplication
  initialDevices : List Device
  windowHandle : Option WindowHandle
  deriving Repr, DecidableEq

/-- A call of `create_session`: the sender in its header, its arguments, and the error with which
the bus answers when the sender is to be watched. -/
structure CreateSession where
  sender : Option String
  args : SessionArgs
  watchError : Option String
  deriving Repr, DecidableEq

/-- Where `create_session` stands. -/
inductive CreateStage where
  | absent
  | received (call : CreateSession)
  | watching (call : CreateSession)
  | starting (call : CreateSession) (appDisplayName : String)
  | registering
  | returned (reply : Except String Unit)
  deriving Repr, DecidableEq

/-- The task that `setup_cancellation` spawns. -/
inductive CancelTask where
  | notSpawned
  | waiting
  | cancelling
  | shutdown (stage : Shutdown)
  | finished
  | aborted
  deriving Repr, DecidableEq

/-- The task that `CeremonyObject::start` spawns. -/
inductive ForwarderTask where
  | notSpawned
  | receiving
  | shutdown (stage : Shutdown)
  | stopping
  | finished
  | aborted
  deriving Repr, DecidableEq

/-- The event loop of `run_gui`: it has left `start_event_loop` from `leaving` on. -/
inductive EventLoop where
  | notRequested
  | requested
  | running
  | leaving
  | ended
  deriving Repr, DecidableEq

/-- One call of `create_session` with what it has spawned. `clientGone` is what the watcher of the
sender has sent; `cancelRx` tells whether somebody holds the receiver on which the GUI is cancelled,
`cancelled` whether a message was sent to it and `userCancelled` whether `run_gui` passed it on. -/
structure UiSession where
  sessionHandle : String := ""
  create : CreateStage := .absent
  canceller : CancelTask := .notSpawned
  forwarder : ForwarderTask := .notSpawned
  clientGone : Bool := false
  cancelRx : Bool := false
  cancelled : Bool := false
  userCancelled : Bool := false
  eventLoop : EventLoop := .notRequested
  uiEvents : List UserInteractedEvent := []
  deriving Repr, DecidableEq

/-- Where `notify_state_changed` stands. -/
inductive NotifyTask where
  | absent
  | lookup (sessionHandle : String)
  | getMut (sessionHandle : String) (i : Nat)
  | onStateChanged (sessionHandle : String) (i : Nat)
  | shutdown (sessionHandle : String) (i : Nat) (stage : Shutdown)
  | returned (reply : Except String Unit)
  deriving Repr, DecidableEq

/-- Where `CeremonySession::close` stands. -/
inductive CloseTask where
  | absent
  | lock (i : Nat)
  | abortForwarder (i : Nat)
  | abortCanceller (i : Nat)
  | store (i : Nat)
  | shutdown (i : Nat) (stage : Shutdown)
  | returned (i : Nat)
  deriving Repr, DecidableEq

inductive GuiThread where
  | idle
  | showing (i : Nat)
  | gone
  deriving Repr, DecidableEq

end UiService

/-- The UI process. -/
structure UiService where
  server : UiService.ObjectServer := {}
  sessions : Nat → UiService.UiSession := fun _ => {}
  nextSession : Nat := 0
  requests : List (Nat × UiService.ViewRequest) := []
  gui : UiService.GuiThread := .idle
  notifies : Nat → UiService.NotifyTask := fun _ => .absent
  nextNotify : Nat := 0
  closes : Nat → UiService.CloseTask := fun _ => .absent
  nextClose : Nat := 0

namespace UiService

def onSession (s : UiService) (i : Nat) (f : UiSession → UiSession) : UiService :=
  { s with sessions := Function.update s.sessions i (f (s.sessions i)) }

def setNotify (s : UiService) (k : Nat) (task : NotifyTask) : UiService :=
  { s with notifies := Function.update s.notifies k task }

def setClose (s : UiService) (k : Nat) (task : CloseTask) : UiService :=
  { s with closes := Function.update s.closes k task }

/-! ### `create_session` -/

/-- The name that the desktop file gives, by `DesktopAppInfo::new`. -/
def appDisplayName (desktop : String → Option String) (appId : String) : Option String :=
  desktop (appId ++ ".desktop") <|>
    if appId = "org.mozilla.firefox" then desktop "firefox.desktop" else none

def viewRequest (args : SessionArgs) (appDisplayName rpId : String) : ViewRequest where
  operation := args.operation
  rpId := rpId
  requestingApp := ⟨args.appId, appDisplayName, args.appPid⟩
  initialDevices := args.devices
  windowHandle := args.parentWindow

/- The call returns with an error and drops the channels that it holds. -/
def fail (s : UiService) (i : Nat) (err : String) : UiService :=
  s.onSession i fun u => { u with create := .returned (.error err), cancelRx := false }

/-- `setup_cancellation`, after the sender has been read. -/
def setupCancellation (s : UiService) (i : Nat) (call : CreateSession) : UiService :=
  match call.sender, call.watchError with
  | none, _ => s.fail i "Sender not found"
  | some _, some err => s.fail i err
  | some _, none => s.onSession i fun u =>
    { u with create := .watching call, canceller := .waiting, cancelRx := true }

/-- `CeremonyObject::start` after the forwarder has been spawned. It waits while two requests are
waiting for the GUI thread. -/
def sendRequest (s : UiService) (i : Nat) (call : CreateSession) (appDisplayName : String) :
    Option UiService :=
  match call.args.options.rpId with
  | none => some (s.fail i "rp_id is required for public key credential requests")
  | some rpId =>
    if s.gui = .gone then some (s.fail i "Failed to start GUI")
    else if s.requests.length < 2 then
      some { s.onSession i fun u =>
          { u with create := .registering, eventLoop := .requested } with
        requests := s.requests ++ [(i, viewRequest call.args appDisplayName rpId)] }
    else none

/-- `ObjectServer::at`; a session that is not registered is dropped. -/
def register (s : UiService) (i : Nat) : UiService :=
  match s.server.registry (s.sessions i).sessionHandle with
  | some _ =>
    s.onSession i fun u => { u with create := .returned (.error "Could not create session") }
  | none =>
    { s.onSession i fun u => { u with create := .returned (.ok ()) } with
      server := { s.server with
        registry := Function.update s.server.registry (s.sessions i).sessionHandle (some i) } }

/-- The next step of a call of `create_session`. -/
def createSession (desktop : String → Option String) (s : UiService) (i : Nat) :
    Option UiService :=
  match (s.sessions i).create with
  | .received call => some (s.setupCancellation i call)
  | .watching call =>
    match appDisplayName desktop call.args.appId with
    | none =>
      some (s.fail i ("Failed to retrieve app name for " ++ call.args.appId ++
        ": Could not find desktop file"))
    | some name => some (s.onSession i fun u =>
      { u with create := .starting call name, forwarder := .receiving })
  | .starting call name => s.sendRequest i call name
  | .registering => some (s.register i)
  | _ => none

/-! ### Who cancels -/

def NotifyTask.refs : NotifyTask → List Nat
  | .getMut _ i => [i]
  | .onStateChanged _ i => [i]
  | .shutdown _ i stage => i :: stage.refs
  | _ => []

def CloseTask.refs : CloseTask → List Nat
  | .lock i => [i]
  | .abortForwarder i => [i]
  | .abortCanceller i => [i]
  | .store i => [i]
  | .shutdown i stage => i :: stage.refs
  | _ => []

def CancelTask.refs : CancelTask → List Nat
  | .shutdown stage => stage.refs
  | _ => []

def ForwarderTask.refs : ForwarderTask → List Nat
  | .shutdown stage => stage.refs
  | _ => []

/- Some task keeps a reference to the session. -/
def referenced (s : UiService) (i : Nat) : Bool :=
  (List.range s.nextSession).any (fun j =>
    (s.sessions j).canceller.refs.contains i || (s.sessions j).forwarder.refs.contains i) ||
  (List.range s.nextNotify).any (fun k => (s.notifies k).refs.contains i) ||
  (List.range s.nextClose).any fun k => (s.closes k).refs.contains i

/-- The `CeremonySession` of the call does not exist any more, and with it the sender of
`client_cancelled` is gone. -/
def dropped (s : UiService) (i : Nat) : Bool :=
  match (s.sessions i).create with
  | .returned (.error _) => true
  | .returned (.ok _) =>
    s.server.registry (s.sessions i).sessionHandle != some i && !s.referenced i
  | _ => false

def ForwarderTask.stopped : ForwarderTask → Bool
  | .finished => true
  | .aborted => true
  | _ => false

/- One of the three futures of the race is ready. A message on `client_cancelled` is sent only after
the receiver is gone. -/
def wakes (s : UiService) (i : Nat) : Bool :=
  (s.sessions i).clientGone || s.dropped i || (s.sessions i).forwarder.stopped

/-- The next step of the task of `setup_cancellation`. -/
def cancelTask (s : UiService) (i : Nat) : Option UiService :=
  match (s.sessions i).canceller with
  | .waiting =>
    if s.wakes i then some (s.onSession i fun u => { u with canceller := .cancelling }) else none
  | .cancelling =>
    some (s.onSession i fun u =>
      { u with canceller := .shutdown .lookup, cancelled := u.cancelled || u.cancelRx })
  | .shutdown stage =>
    (s.server.shutdown (s.sessions i).sessionHandle stage).map fun next =>
      { s.onSession i fun u =>
          { u with canceller := (next.2.map .shutdown).getD .finished } with server := next.1 }
  | _ => none

/- Somebody holds the `FlowControlClient`. -/
def flowClient (s : UiService) (i : Nat) : Bool :=
  match (s.sessions i).eventLoop, (s.sessions i).create with
  | .notRequested, .starting _ _ => true
  | .requested, _ => true
  | .running, _ => true
  | .leaving, _ => true
  | _, _ => false

/-- The next step of the task that forwards the events of the GUI; `ok` tells whether a signal
could be emitted. -/
def forwardUiEvents (s : UiService) (i : Nat) (ok : Bool) : Option UiService :=
  match (s.sessions i).forwarder with
  | .receiving =>
    match (s.sessions i).uiEvents with
    | .requestCancelled :: rest => some (s.onSession i fun u =>
      { u with uiEvents := rest, forwarder := .shutdown .lookup })
    | _ :: rest => some (s.onSession i fun u =>
      { u with uiEvents := rest, forwarder := if ok then .receiving else .stopping })
    | [] =>
      if s.flowClient i then none
      else some (s.onSession i fun u => { u with forwarder := .stopping })
  | .shutdown stage =>
    (s.server.shutdown (s.sessions i).sessionHandle stage).map fun next =>
      { s.onSession i fun u =>
          { u with forwarder := (next.2.map .shutdown).getD .receiving } with server := next.1 }
  | .stopping => some (s.onSession i fun u => { u with forwarder := .finished })
  | _ => none

/-! ### The GUI -/

inductive GuiLabel where
  | take
  | passCancellation (i : Nat)
  | send (i : Nat) (event : UserInteractedEvent)
  | leave (i : Nat)
  | finish (i : Nat)
  | panic (i : Nat)
  | quit
  | threadPanics
  deriving Repr, DecidableEq

/-- `FlowControlClient::send`: nothing is sent when the forwarder is gone. -/
def sendUiEvent (s : UiService) (i : Nat) (event : UserInteractedEvent) : Option UiService :=
  if (s.sessions i).forwarder.stopped then some s
  else if (s.sessions i).uiEvents.length < 32 then
    some (s.onSession i fun u => { u with uiEvents := u.uiEvents ++ [event] })
  else none

/- The future of the event loop is dropped. -/
def dropLoop (s : UiService) (i : Nat) : UiService :=
  s.onSession i fun u => { u with eventLoop := .ended }

/-- A step of the GUI thread, of `run_gui`'s task for cancellation or of its event loop. -/
def guiStep (s : UiService) : GuiLabel → Option UiService
  | .take =>
    match s.gui, s.requests with
    | .idle, (i, _) :: rest =>
      some { s.onSession i fun u => { u with eventLoop := .running } with
        gui := .showing i, requests := rest }
    | _, _ => none
  | .passCancellation i =>
    if (s.sessions i).eventLoop = .running ∧ (s.sessions i).cancelled = true then
      some (s.onSession i fun u => { u with userCancelled := true })
    else none
  -- a cancellation as well: a PIN that cannot be written is followed by one
  | .send i event =>
    if (s.sessions i).eventLoop = .running then s.sendUiEvent i event else none
  -- `start_event_loop` returns, and `run_gui` cancels the task that waits for a cancellation
  | .leave i =>
    if (s.sessions i).eventLoop = .running then
      some (s.onSession i fun u => { u with eventLoop := .leaving, cancelRx := false })
    else none
  | .finish i =>
    if (s.sessions i).eventLoop = .leaving then
      (s.sendUiEvent i .requestCancelled).map (dropLoop · i)
    else none
  | .panic i =>
    if (s.sessions i).eventLoop = .running then some (s.dropLoop i) else none
  | .quit =>
    match s.gui with
    | .showing i => some { s.dropLoop i with gui := .idle }
    | _ => none
  | .threadPanics =>
    match s.gui with
    | .showing _ => some { s with gui := .gone }
    | _ => none

/-! ### Calls for a session -/

/- The receiver of `bg_events` exists. -/
def EventLoop.receives : EventLoop → Bool
  | .requested => true
  | .running => true
  | _ => false

/-- The next step of `notify_state_changed`. A channel that is full makes it wait. -/
def notifyStateChanged (s : UiService) (k : Nat) : Option UiService :=
  match s.notifies k with
  | .lookup sessionHandle =>
    match s.server.registry sessionHandle with
    | none =>
      some (s.setNotify k (.returned (.error ("No session exists at " ++ sessionHandle))))
    | some i =>
      if (s.server.objects i).writer = none then some (s.setNotify k (.getMut sessionHandle i))
      else none
  | .getMut sessionHandle i =>
    (s.server.lock i (.notify k)).map fun server =>
      { s.setNotify k (.onStateChanged sessionHandle i) with server }
  | .onStateChanged sessionHandle i =>
    if (s.sessions i).eventLoop.receives then
      some { s.setNotify k (.returned (.ok ())) with server := s.server.unlock i }
    else some (s.setNotify k (.shutdown sessionHandle i .lookup))
  | .shutdown sessionHandle i stage =>
    -- the guard of `get_mut` is held all the time
    (s.server.shutdown sessionHandle stage).map fun next =>
      match next.2 with
      | some stage' => { s.setNotify k (.shutdown sessionHandle i stage') with server := next.1 }
      | none =>
        { s.setNotify k (.returned (.error
            "Error sending state notification. Closing session.")) with
          server := next.1.unlock i }
  | _ => none

/- `JoinHandle::cancel` drops what the task holds; a task that has finished stays so. -/
def abortForwarder (s : UiService) (i : Nat) : UiService :=
  match (s.sessions i).forwarder with
  | .receiving | .stopping => s.onSession i fun u => { u with forwarder := .aborted }
  | .shutdown stage =>
    { s.onSession i fun u => { u with forwarder := .aborted } with
      server := s.server.release stage }
  | _ => s

def abortCanceller (s : UiService) (i : Nat) : UiService :=
  match (s.sessions i).canceller with
  | .waiting | .cancelling => s.onSession i fun u => { u with canceller := .aborted }
  | .shutdown stage =>
    { s.onSession i fun u => { u with canceller := .aborted } with
      server := s.server.release stage }
  | _ => s

/-- The next step of `CeremonySession::close`. -/
def closeSession (s : UiService) (k : Nat) : Option UiService :=
  match s.closes k with
  | .lock i =>
    (s.server.lock i (.close k)).map fun server =>
      { s.setClose k (.abortForwarder i) with server }
  | .abortForwarder i => some ((s.abortForwarder i).setClose k (.abortCanceller i))
  | .abortCanceller i => some ((s.abortCanceller i).setClose k (.store i))
  -- the message on `client_cancelled` finds no receiver
  | .store i =>
    some { s.setClose k (.shutdown i .lookup) with
      server := s.server.onObject i fun c => { c with emitClosedSignal := false } }
  | .shutdown i stage =>
    (s.server.shutdown (s.sessions i).sessionHandle stage).map fun next =>
      match next.2 with
      | some stage' => { s.setClose k (.shutdown i stage') with server := next.1 }
      | none => { s.setClose k (.returned i) with server := next.1.unlock i }
  | _ => none

/-! ### All of it -/

inductive Label where
  | createSession (call : CreateSession)
  | create (i : Nat)
  | disconnect (i : Nat)
  | canceller (i : Nat)
  | forwarder (i : Nat) (ok : Bool)
  | gui (l : GuiLabel)
  | notifyStateChanged (sessionHandle : String)
  | notify (k : Nat)
  | close (sessionHandle : String)
  | closing (k : Nat)
  deriving Repr, DecidableEq

def step (desktop : String → Option String) (s : UiService) : Label → Option UiService
  | .createSession call =>
    some { s with
      sessions := Function.update s.sessions s.nextSession
        { sessionHandle := call.args.sessionHandle, create := .received call }
      nextSession := s.nextSession + 1 }
  | .create i => s.createSession desktop i
  -- the watcher of the sender reports, or ends
  | .disconnect i =>
    if (s.sessions i).canceller = .notSpawned then none
    else some (s.onSession i fun u => { u with clientGone := true })
  | .canceller i => s.cancelTask i
  | .forwarder i ok => s.forwardUiEvents i ok
  | .gui l => s.guiStep l
  | .notifyStateChanged sessionHandle =>
    some { s with
      notifies := Function.update s.notifies s.nextNotify (.lookup sessionHandle)
      nextNotify := s.nextNotify + 1 }
  | .notify k => s.notifyStateChanged k
  -- a call for a path without a session is refused by the object server
  | .close sessionHandle =>
    (s.server.registry sessionHandle).map fun i =>
      { s with
        closes := Function.update s.closes s.nextClose (.lock i)
        nextClose := s.nextClose + 1 }
  | .closing k => s.closeSession k

def init : UiService := {}

end UiService

end Credentialsd
