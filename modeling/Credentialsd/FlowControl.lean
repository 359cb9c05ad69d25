import Credentialsd.ServiceTasks

/-!
# Flow control (`dbus/flow_control.rs`, `dbus/ui_control.rs`)

The daemon as its tasks see it: the flow-control task, which handles one
request after the other, the UI event loop of every request, and the tasks that
forward the states of a discovery to the UI. They share the credential service
behind the async mutex `svc`; the steps on the service itself are those of
`ServiceTasks`. A label names the task that moves and what its environment (the
UI, the devices, the system calls) answers.
-/

namespace Credentialsd

/-! ### The UI -/

/-- A signal of the UI. A secret is what `read_secret` finds behind the descriptor that came with
the signal. -/
inductive UserInteractedEvent where
  | discoveryRequested
  | clientPinEntered (secret : Except String Bytes)
  | setDevicePin (secret : Except String Bytes)
  | credentialSelected (id : String)
  | requestCancelled
  deriving Repr, DecidableEq

/-- A method call of `send_state_update`. -/
inductive Notification where
  | needsPin (attemptsLeft : UInt32)
  | pinNotSet (error : PinNotSetError)
  | needsUserVerification (attemptsLeft : UInt32)
  | needsUserPresence
  | selectingCredential (creds : List Credential)
  | hybridStarted (invocationData : OwnedFd)
  | hybridConnecting
  | hybridConnected
  | nfcConnected
  | usbConnected
  | ceremonyCompleted
  | errorOccurred (error : UInt32)
  deriving Repr, DecidableEq

/-- `Ceremony::send_state_update` up to the call (`ui_control.rs:205-345`); the idle states are not
sent. -/
def stateUpdate : BackgroundEvent → Except Panic (Option Notification)
  | .nfcIdle | .nfcWaiting | .usbIdle | .usbSelectingDevice | .usbWaiting => .ok none
  | .needsPin attemptsLeft => .ok (some (.needsPin (attemptsLeft.getD 0xffffffff)))
  | .pinNotSet error => .ok (some (.pinNotSet error))
  | .needsUserVerification attemptsLeft =>
    .ok (some (.needsUserVerification (attemptsLeft.getD 0xffffffff)))
  | .needsUserPresence => .ok (some .needsUserPresence)
  | .selectingCredential creds => .ok (some (.selectingCredential creds))
  | .hybridIdle => .error (.todo "not yet implemented")
  | .hybridStarted fd => .ok (some (.hybridStarted fd))
  | .hybridConnecting => .ok (some .hybridConnecting)
  | .hybridConnected => .ok (some .hybridConnected)
  | .nfcConnected => .ok (some .nfcConnected)
  | .usbConnected => .ok (some .usbConnected)
  | .errorInternal => .ok (some (.errorOccurred 0x80000001))
  | .errorTimedOut => .ok (some (.errorOccurred 0x80000002))
  | .errorCancelled => .ok (some (.errorOccurred 0x80000003))
  | .errorAuthenticator => .ok (some (.errorOccurred 0x80000004))
  | .errorNoCredentials => .ok (some (.errorOccurred 0x80000005))
  | .errorCredentialExcluded => .ok (some (.errorOccurred 0x80000006))
  | .errorPinAttemptsExhausted => .ok (some (.errorOccurred 0x80000007))
  | .errorPinNotSet => .ok (some (.errorOccurred 0x80000008))
  | .ceremonyCompleted => .ok (some .ceremonyCompleted)

structure SessionArgs where
  sessionHandle : String
  parentWindow : Option WindowHandle
  origin : String
  operation : Operation
  devices : List Device
  appId : String
  appPid : UInt32
  options : PortalBackendOptions
  deriving Repr, DecidableEq

/-! ### The tasks -/

structure UiRequestContext where
  request : CredentialRequest
  app : ClientDetails
  windowHandle : Option WindowHandle
  activationToken : Option String
  deriving Repr, DecidableEq

namespace UiRequestContext

/-- What `handle` passes to `create_session` (`flow_control.rs:96-131`); `n` is the random number of
the session. -/
def sessionArgs (m : UiRequestContext) (devices : List Device) (n : UInt32) : SessionArgs where
  sessionHandle := "/org/freedesktop/portal/desktop/session/CREDENTIALSD_" ++ toString n
  parentWindow := m.windowHandle
  origin := m.request.origin
  operation := m.request.operation
  devices := devices
  appId := m.app.appId
  appPid := m.app.pid
  options := {
    activationToken := m.activationToken
    topOrigin := m.request.topOrigin
    rpId := some m.request.relyingPartyId }

end UiRequestContext

/-- `get_available_public_key_devices` (`mod.rs:314-334`), given what is available. -/
def availablePublicKeyDevices (hybrid nfc : Bool) : List Device :=
  [⟨"0", .usb⟩] ++ (if hybrid then [⟨"1", .hybridQr⟩] else []) ++
    (if nfc then [⟨"2", .nfc⟩] else [])

/-- How far `handle` has come with a request; `listing` holds `svc`. -/
inductive FlowPhase where
  | idle
  | received (m : UiRequestContext)
  | accepted (m : UiRequestContext) (c : RequestContext)
  | listing (m : UiRequestContext) (c : RequestContext)
  | session (c : RequestContext) (args : SessionArgs)
  | waiting (c : RequestContext)
  | panicked
  deriving Repr, DecidableEq

def FlowPhase.request : FlowPhase → Option RequestContext
  | .accepted _ c => some c
  | .listing _ c => some c
  | .session c _ => some c
  | .waiting c => some c
  | _ => none

inductive Reply where
  | pin (pin : String)
  | credential (id : String)
  deriving Repr, DecidableEq

inductive LoopStop where
  | streamClosed
  | unreadableSecret
  | requestCancelled
  | tokenCancelled
  | panicked
  deriving Repr, DecidableEq

/-- Where a UI event loop is. It holds `svc` from `transports` to `forwarding`, that is during
`start_discovery`, and in `cancelling` and `releasing`, that is during `cancel_request`. -/
inductive LoopPc where
  | receiving
  | lockingDiscovery
  | transports
  | startingUsb (hybrid : Bool)
  | startingHybrid (usb : Option Nat)
  | forwarding (streams : List Nat)
  | replying (tx : ReplyTx) (reply : Reply)
  | lockingCancel
  | cancelling
  | releasing
  | stopped (why : LoopStop)
  deriving Repr, DecidableEq

/-- The UI event loop of one request; `closed` says that no more events can come. -/
structure UiLoop where
  request : RequestContext
  inbox : List UserInteractedEvent
  closed : Bool
  pc : LoopPc
  clientPinTx : Option ReplyTx
  setPinTx : Option ReplyTx
  credSelectorTx : Option ReplyTx
  deriving Repr, DecidableEq

inductive ForwardStop where
  | ended
  | sendFailed
  | panicked
  deriving Repr, DecidableEq

/-- Where a `forward_background_event_stream` task is; `inside` a `poll_next` of one stream. -/
inductive ForwardPc where
  | polling
  | inside (sid : Nat)
  | sending (event : BackgroundEvent)
  | stopped (why : ForwardStop)
  deriving Repr, DecidableEq

/-- The state is converted to the event that is sent next. -/
def ForwardPc.ofUpdate (u : DeviceStateUpdate) (secretFile : Option OwnedFd) : ForwardPc :=
  match u.toBackgroundEvent fun _ => secretFile with
  | .ok event => .sending event
  | .error _ => .stopped .panicked

/-- The task that forwards the merged streams of one discovery. -/
structure Forward where
  loop : Nat
  streams : List Nat
  pc : ForwardPc
  deriving Repr, DecidableEq

inductive SvcOwner where
  | flow
  | loop (k : Nat)
  deriving Repr, DecidableEq

/-- The daemon. `poisoned` is the state of the `ctx` mutex; `returned` lists what `handle` returned,
with the context if the request was accepted; `replies` lists what was sent to devices. -/
structure Daemon where
  tasks : Tasks
  poisoned : Bool
  svc : Option SvcOwner
  queue : List UiRequestContext
  phase : FlowPhase
  loops : Nat → Option UiLoop
  nextLoop : Nat
  forwards : Nat → Option Forward
  nextForward : Nat
  returned : List (Option RequestContext × Response)
  replies : List (ReplyTx × Reply)
  updates : List (Nat × Notification)

/-! ### The UI event loop by itself -/

/-- `read_secret` and `String::from_utf8`; the texts of the two errors are only logged. -/
def readPin : Except String Bytes → Option String
  | .ok bytes => String.fromUTF8? ⟨bytes.toArray⟩
  | .error _ => none

namespace UiLoop

def new (c : RequestContext) : UiLoop := ⟨c, [], false, .receiving, none, none, none⟩

/-- The closure that `handle` maps over a discovery: it keeps the sender of a prompt. -/
def register (lp : UiLoop) : DeviceStateUpdate → UiLoop
  | .nfc (.needsPin _ pinTx) => { lp with clientPinTx := some pinTx }
  | .usb (.needsPin _ pinTx) => { lp with clientPinTx := some pinTx }
  | .nfc (.pinNotSet _ pinTx) => { lp with setPinTx := some pinTx }
  | .usb (.pinNotSet _ pinTx) => { lp with setPinTx := some pinTx }
  | .usb (.selectingCredential _ credTx) => { lp with credSelectorTx := some credTx }
  | _ => lp

def replyTo (lp : UiLoop) (tx : Option ReplyTx) (reply : Reply) : UiLoop :=
  match tx with
  | some tx => { lp with pc := .replying tx reply }
  | none => { lp with pc := .receiving }

/- The arms of the event loop, each up to its first await. -/
def handleEvent (lp : UiLoop) : UserInteractedEvent → UiLoop
  | .discoveryRequested => { lp with pc := .lockingDiscovery }
  | .clientPinEntered secret =>
    match readPin secret with
    | some pin => ({ lp with clientPinTx := none }).replyTo lp.clientPinTx (.pin pin)
    | none => { lp with pc := .stopped .unreadableSecret }
  | .setDevicePin secret =>
    match readPin secret with
    | some pin => ({ lp with setPinTx := none }).replyTo lp.setPinTx (.pin pin)
    | none => { lp with pc := .stopped .unreadableSecret }
  | .credentialSelected id =>
    ({ lp with credSelectorTx := none }).replyTo lp.credSelectorTx (.credential id)
  | .requestCancelled => { lp with pc := .lockingCancel }

/-- `receive_ui_event`, when it does not wait: the next event, or the end of the stream. -/
def receive (lp : UiLoop) : Option UiLoop :=
  match lp.pc, lp.inbox with
  | .receiving, e :: inbox => some (({ lp with inbox := inbox }).handleEvent e)
  | .receiving, [] => if lp.closed then some { lp with pc := .stopped .streamClosed } else none
  | _, _ => none

/-- The loop waits at an await, and which owner of `svc` it is there; only there can
`run_until_cancelled` drop it. -/
def pending (lp : UiLoop) (svc : Option SvcOwner) : Bool :=
  match lp.pc with
  | .receiving => lp.inbox.isEmpty && !lp.closed
  | .lockingDiscovery => svc.isSome
  | .lockingCancel => svc.isSome
  | .transports => true
  | .replying _ _ => true
  | _ => false

/-- Dropping the loop in `start_discovery` unlocks `svc`. -/
def svcAfterDrop (lp : UiLoop) (svc : Option SvcOwner) : Option SvcOwner :=
  match lp.pc with
  | .transports => none
  | _ => svc

end UiLoop

/-! ### Steps -/

inductive FlowLabel where
  | receive
  | initRequest (requestId : RequestId)
  | listDevices
  | devices (hybrid nfc : Bool) (session : UInt32)
  | createSession (outcome : Except String Unit)
  | respond
  deriving Repr, DecidableEq

inductive LoopLabel where
  | event (e : UserInteractedEvent)
  | close
  | receive
  | lockService
  | transports (usb hybrid : Bool)
  | getUsb
  | getHybrid
  | forward
  | replied (sent : Bool)
  | cancel
  | cancelled
  | drop
  deriving Repr, DecidableEq

inductive ForwardLabel where
  | event (sid : Nat) (e : HandlerEvent)
  | innerEnded (sid : Nat)
  | check
  | take
  | finish (secretFile : Option OwnedFd)
  | streamsEnded
  | sent (ok : Bool)
  deriving Repr, DecidableEq

inductive Label where
  | submit (m : UiRequestContext)
  | flow (l : FlowLabel)
  | ui (k : Nat) (l : LoopLabel)
  | forward (f : Nat) (l : ForwardLabel)
  | advance
  deriving Repr, DecidableEq

namespace Daemon

def init : Daemon :=
  ⟨Tasks.init, false, none, [], .idle, fun _ => none, 0, fun _ => none, 0, [], [], []⟩

def setLoop (d : Daemon) (k : Nat) (lp : UiLoop) : Daemon :=
  { d with loops := Function.update d.loops k (some lp) }

def setForward (d : Daemon) (f : Nat) (fw : Forward) : Daemon :=
  { d with forwards := Function.update d.forwards f (some fw) }

def onTasks (d : Daemon) (l : Tasks.Label) (next : Tasks → Daemon) : Option Daemon :=
  (Tasks.step d.tasks l).map next

def returns (d : Daemon) (c : Option RequestContext) (response : Response) : Daemon :=
  { d with phase := .idle, returned := d.returned ++ [(c, response)] }

/-- `start_flow_control_service` and `handle` (`flow_control.rs:52-141, 289-293`). -/
def flowStep (d : Daemon) : FlowLabel → Option Daemon
  | .receive =>
    match d.phase, d.queue with
    | .idle, m :: queue => some { d with phase := .received m, queue := queue }
    | _, _ => none
  | .initRequest requestId =>
    match d.phase, d.svc with
    | .received m, none =>
      if d.poisoned then some { d with phase := .panicked }
      else
        d.onTasks (.init m.request requestId) fun tasks =>
          let d' := { d with tasks := tasks }
          match (d.tasks.service.initRequest m.request d.tasks.nextChannel requestId).1 with
          | .ok (requestId, cancellation) =>
            { d' with
              phase := .accepted m ⟨m.request, d.tasks.nextChannel, requestId, cancellation⟩ }
          | .error err => d'.returns none (.error err)
    | _, _ => none
  | .listDevices =>
    match d.phase, d.svc with
    | .accepted m c, none => some { d with phase := .listing m c, svc := some .flow }
    | _, _ => none
  | .devices hybrid nfc session =>
    match d.phase with
    | .listing m c =>
      some { d with
        phase := .session c (m.sessionArgs (availablePublicKeyDevices hybrid nfc) session)
        svc := none }
    | _ => none
  | .createSession outcome =>
    match d.phase, outcome with
    | .session c _, .ok _ =>
      some { d.setLoop d.nextLoop (.new c) with phase := .waiting c, nextLoop := d.nextLoop + 1 }
    | .session c _, .error err => some (d.returns (some c) (.error (.internal err)))
    | _, _ => none
  | .respond =>
    match d.phase with
    | .waiting c =>
      match (d.tasks.service.channels c.responseChannel).recv with
      | .ready response => some (d.returns (some c) response)
      | .closed => some { d with phase := .panicked }
      | .pending => none
    | _ => none

/- A UI event loop panics: what it holds of `svc` is released. -/
def loopPanics (d : Daemon) (k : Nat) (lp : UiLoop) : Daemon :=
  { d.setLoop k { lp with pc := .stopped .panicked } with svc := none }

/-- `get_usb_credential` or `get_hybrid_credential`: the context is read under the mutex, whose
guard is dropped by the `todo!()` panic. -/
def getCredential (d : Daemon) (k : Nat) (lp : UiLoop) (kind : StreamKind) (next : Nat → LoopPc) :
    Option Daemon :=
  if d.poisoned then some (d.loopPanics k lp)
  else
    match d.tasks.lock, d.tasks.service.getCredential with
    | none, .ok _ =>
      d.onTasks (.start kind) fun tasks =>
        { d.setLoop k { lp with pc := next d.tasks.nextStream } with tasks := tasks }
    | none, .error _ => some { d.loopPanics k lp with poisoned := true }
    | some _, _ => none

/-- The UI event loop of `handle` (`flow_control.rs:142-288`) and `start_discovery`
(`mod.rs:336-375`). -/
def loopStep (d : Daemon) (k : Nat) (lp : UiLoop) : LoopLabel → Option Daemon
  | .event e =>
    if lp.inbox.length < 32 && !lp.closed then
      some (d.setLoop k { lp with inbox := lp.inbox ++ [e] })
    else none
  | .close => some (d.setLoop k { lp with closed := true })
  | .receive => lp.receive.map fun lp' => d.setLoop k lp'
  | .lockService =>
    match lp.pc, d.svc with
    | .lockingDiscovery, none =>
      some { d.setLoop k { lp with pc := .transports } with svc := some (.loop k) }
    | .lockingCancel, none =>
      some { d.setLoop k { lp with pc := .cancelling } with svc := some (.loop k) }
    | _, _ => none
  | .transports usb hybrid =>
    match lp.pc with
    | .transports =>
      let pc := if usb then .startingUsb hybrid
        else if hybrid then .startingHybrid none else .forwarding []
      some (d.setLoop k { lp with pc := pc })
    | _ => none
  | .getUsb =>
    match lp.pc with
    | .startingUsb hybrid =>
      d.getCredential k lp .usb fun sid =>
        if hybrid then .startingHybrid (some sid) else .forwarding [sid]
    | _ => none
  | .getHybrid =>
    match lp.pc with
    | .startingHybrid usb =>
      d.getCredential k lp .hybrid fun sid => .forwarding (usb.toList ++ [sid])
    | _ => none
  | .forward =>
    match lp.pc with
    | .forwarding streams =>
      some { (d.setLoop k { lp with pc := .receiving }).setForward d.nextForward
          ⟨k, streams, .polling⟩ with
        svc := none, nextForward := d.nextForward + 1 }
    | _ => none
  | .replied sent =>
    match lp.pc with
    | .replying tx reply =>
      some { d.setLoop k { lp with pc := .receiving } with
        replies := if sent then d.replies ++ [(tx, reply)] else d.replies }
    | _ => none
  | .cancel =>
    match lp.pc with
    | .cancelling =>
      if d.poisoned then some (d.loopPanics k lp)
      else
        d.onTasks (.cancel lp.request.requestId) fun tasks =>
          { d.setLoop k { lp with pc := .releasing } with tasks := tasks }
    | _ => none
  | .cancelled =>
    match lp.pc, d.tasks.lock with
    | .releasing, some (.canceller, _) => none
    | .releasing, _ =>
      some { d.setLoop k { lp with pc := .stopped .requestCancelled } with svc := none }
    | _, _ => none
  | .drop =>
    if d.tasks.service.cancelled lp.request.cancellation && lp.pending d.svc then
      some { d.setLoop k { lp with pc := .stopped .tokenCancelled } with
        svc := lp.svcAfterDrop d.svc }
    else none

/-- What a `poll_next` yielded goes through the closure of `handle` and into a `BackgroundEvent`. -/
def forwardUpdate (d : Daemon) (f : Nat) (fw : Forward) (u : DeviceStateUpdate)
    (secretFile : Option OwnedFd) : Daemon :=
  let d' := match d.loops fw.loop with
    | some lp => d.setLoop fw.loop (lp.register u)
    | none => d
  d'.setForward f { fw with pc := .ofUpdate u secretFile }

/-- `forward_background_event_stream` (`flow_control.rs:295-309`) over the merged streams. -/
def forwardStep (credHash : Bytes → String) (d : Daemon) (f : Nat) (fw : Forward) :
    ForwardLabel → Option Daemon
  | .event sid e =>
    if fw.pc == .polling && fw.streams.contains sid then
      d.onTasks (.event sid e) fun tasks =>
        { d.setForward f { fw with pc := .inside sid } with tasks := tasks }
    else none
  | .innerEnded sid =>
    if fw.pc == .polling && fw.streams.contains sid then
      some (d.setForward f { fw with streams := fw.streams.erase sid })
    else none
  | .check =>
    match fw.pc with
    | .inside sid =>
      d.onTasks (.check sid) fun tasks =>
        match tasks.streams sid with
        | some ⟨_, _, .idle⟩ =>
          { d.setForward f { fw with pc := .polling, streams := fw.streams.erase sid } with
            tasks := tasks }
        | _ => { d with tasks := tasks }
    | _ => none
  | .take =>
    match fw.pc with
    | .inside sid =>
      match d.tasks.streams sid with
      | some ⟨_, _, .passed e⟩ =>
        if d.poisoned && e.completion.isSome then
          some (d.setForward f { fw with pc := .stopped .panicked })
        else d.onTasks (.take sid) fun tasks => { d with tasks := tasks }
      | _ => none
    | _ => none
  | .finish secretFile =>
    match fw.pc with
    | .inside sid =>
      match d.tasks.streams sid with
      | some ⟨_, _, .done e⟩ =>
        d.onTasks (.finish sid) fun tasks =>
          let d' := { d with tasks := tasks }
          match e.toUpdate credHash with
          | .ok u => d'.forwardUpdate f fw u secretFile
          | .error _ => d'.setForward f { fw with pc := .stopped .panicked }
      | _ => none
    | _ => none
  | .streamsEnded =>
    if fw.pc == .polling && fw.streams.isEmpty then
      some (d.setForward f { fw with pc := .stopped .ended })
    else none
  | .sent ok =>
    match fw.pc with
    | .sending event =>
      match stateUpdate event with
      | .error _ => some (d.setForward f { fw with pc := .stopped .panicked })
      | .ok none => some (d.setForward f { fw with pc := .polling })
      | .ok (some notification) =>
        if ok then
          some { d.setForward f { fw with pc := .polling } with
            updates := d.updates ++ [(fw.loop, notification)] }
        else some (d.setForward f { fw with pc := .stopped .sendFailed })
    | _ => none

/-- `listener` holds two requests (`main.rs`). -/
def step (credHash : Bytes → String) (d : Daemon) : Label → Option Daemon
  | .submit m => if d.queue.length < 2 then some { d with queue := d.queue ++ [m] } else none
  | .flow l => d.flowStep l
  | .ui k l => (d.loops k).bind fun lp => d.loopStep k lp l
  | .forward f l => (d.forwards f).bind fun fw => d.forwardStep credHash f fw l
  | .advance => d.onTasks .advance fun tasks => { d with tasks := tasks }

end Daemon

end Credentialsd
