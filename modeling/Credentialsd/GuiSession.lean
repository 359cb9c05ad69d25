import Credentialsd.GuiWindow
import Credentialsd.Lib.Fifo
import Credentialsd.Lib.Machine

/-!
# One request in the GUI (`credentialsd-ui/src/gui/mod.rs`, `view_model/mod.rs:122-360`)

`run_gui` has two threads of control: the main loop of GTK with the window, and the event loop of
the view model. They talk over two channels. What happens on the bus comes in by a third one, and
what the user decides leaves by `FlowControlClient`. The event loop handles an event in pieces, and
between any two of them the other side may move.
-/

namespace Credentialsd

namespace Gui

/-- What the GUI has sent on the channel of `FlowControlClient`. -/
inductive Sent where
  | discoveryRequested
  | credentialSelected (id : String)
  | client (event : ClientEvent)

inductive Event where
  | view (event : ViewEvent)
  | background (event : BackgroundEvent)
  deriving Repr, DecidableEq

/-- What the event loop awaits while it handles an event. -/
inductive Op where
  | update (update : ViewUpdate)
  | startDiscovery
  | enterClientPin (pin : String)
  | setDevicePin (pin : String)
  | selectCredential (id : String)
  deriving Repr, DecidableEq

/-- Where the task of `run_gui` stands: it has left `start_event_loop` from `leaving` on, and is
cancelled when the application has returned before it is done. -/
inductive LoopStage where
  | waiting
  | handling (op : Op) (ops : List Op) (breaks : Bool)
  | leaving
  | ended
  | cancelled
  | panicked (p : Panic)
  deriving Repr, DecidableEq

namespace LoopStage

def resume (breaks : Bool) : List Op → LoopStage
  | op :: ops => .handling op ops breaks
  | [] => if breaks then .leaving else .waiting

def ops : LoopStage → List Op
  | .handling op ops _ => op :: ops
  | _ => []

/- In `start_event_loop`, which holds the receiver of the background events. -/
def running : LoopStage → Bool
  | .waiting => true
  | .handling _ _ _ => true
  | _ => false

/- The task still holds its ends of the other channels. -/
def alive : LoopStage → Bool
  | .waiting => true
  | .handling _ _ _ => true
  | .leaving => true
  | _ => false

@[simp] theorem resume_ops (breaks : Bool) (ops : List Op) : (resume breaks ops).ops = ops := by
  cases ops with
  | cons op ops => rfl
  | nil => cases breaks <;> rfl

end LoopStage

/-! ### The events -/

structure EventLoop where
  vm : ViewModel
  devices : List Device

section Events

variable (gettext : String → String) (qrCode : OwnedFd → Except Panic String)

/- The device that is shown for a transport. -/
def bogus (transport : Transport) : Device := ⟨"TODO: bogus", transport⟩

/-- What is awaited for a background event, and whether the loop breaks. `qrCode` reads the text
behind a descriptor; both of its `unwrap`s may panic. -/
def onBackground : BackgroundEvent → Except Panic (List Op × Bool)
  | .usbConnected => .ok ([.update (.waitingForDevice (bogus .usb))], false)
  | .needsPin attemptsLeft => .ok ([.update (.needsPin attemptsLeft)], false)
  | .pinNotSet error => .ok ([.update (.pinNotSet error)], false)
  | .needsUserVerification attemptsLeft =>
    .ok ([.update (.needsUserVerification attemptsLeft)], false)
  | .needsUserPresence => .ok ([.update .needsUserPresence], false)
  | .ceremonyCompleted => .ok ([.update .completed], false)
  | .usbSelectingDevice => .ok ([.update .selectingDevice], false)
  | .usbIdle => .ok ([], false)
  | .usbWaiting => .ok ([], false)
  | .selectingCredential creds => .ok ([.update (.setCredentials creds)], false)
  | .errorNoCredentials =>
    .ok ([.update (.failed (gettext "No matching credentials found on this authenticator."))],
      false)
  | .errorPinAttemptsExhausted =>
    .ok ([.update (.failed (gettext "No more PIN attempts allowed. Try removing your device and plugging it back in."))], false)
  | .errorPinNotSet =>
    .ok ([.update (.failed (gettext "This server requires your device to have additional protection like a PIN, which is not set. Please set a PIN for this device and try again."))], false)
  | .errorTimedOut =>
    .ok ([.update (.failed (gettext "The credential request timed out. Please try again."))],
      false)
  | .errorAuthenticator | .errorInternal =>
    .ok ([.update (.failed (gettext "Something went wrong while retrieving a credential. Please try again later or use a different authenticator."))], false)
  | .errorCredentialExcluded =>
    .ok ([.update (.failed (gettext "This credential is already registered on this authenticator."))],
      false)
  | .nfcConnected => .ok ([.update (.waitingForDevice (bogus .nfc))], false)
  | .nfcIdle => .ok ([], false)
  | .nfcWaiting => .ok ([], false)
  | .hybridIdle => .ok ([], false)
  | .hybridStarted qrCodeFd =>
    (qrCode qrCodeFd).map fun text => ([.update (.hybridNeedsQrCode text)], false)
  | .hybridConnecting =>
    .ok ([.update (.waitingForDevice (bogus .hybridQr)), .update .hybridConnecting], false)
  | .hybridConnected => .ok ([.update .hybridConnected], false)
  | .errorCancelled => .ok ([], true)

/-- One turn of `start_event_loop`. -/
def EventLoop.handle (l : EventLoop) : Event → Except Panic (EventLoop × List Op × Bool)
  | .view .initiated =>
    .ok ({ l with vm := (ViewModel.updateTitle gettext l.vm).1 },
      [.update (.setTitle (ViewModel.updateTitle gettext l.vm).2),
        .update (.setDevices l.devices), .startDiscovery], false)
  | .view (.pinEntered pin) => .ok (l, [.enterClientPin pin], false)
  | .view (.setNewDevicePin pin) => .ok (l, [.setDevicePin pin], false)
  | .view (.credentialSelected id) => .ok (l, [.selectCredential id], false)
  | .view .userCancelled => .ok (l, [.update .cancelled], true)
  | .background event =>
    (onBackground gettext qrCode event).map fun handled => (l, handled.1, handled.2)

end Events

/-! ### The state -/

/-- The main loop of GTK: the application has a window from `open` on, until it is closed. -/
inductive Gtk where
  | starting
  | open
  | closed
  | returned
  | panicked (p : Panic)
  deriving Repr, DecidableEq

/- The main loop still runs what was spawned on it. -/
def Gtk.runs : Gtk → Bool
  | .open => true
  | .closed => true
  | _ => false

end Gui

/-- `spawned` are the events that futures of the main loop still have to send, `listening` tells
whether the loop of `setup_channel` runs, and `cancelTask` whether nothing has come on `cancel_rx`
yet. -/
structure Gui where
  gtk : Gui.Gtk := .starting
  window : Gui.Window := {}
  listening : Bool := true
  spawned : List Gui.ViewEvent := []
  events : Fifo Gui.ViewEvent := Fifo.empty
  updates : Fifo Gui.ViewUpdate := Fifo.empty
  background : Fifo BackgroundEvent := Fifo.empty
  cancelTask : Bool := true
  eventLoop : Gui.EventLoop
  stage : Gui.LoopStage := .waiting
  sent : List Gui.Sent := []

namespace Gui

/-! ### GTK -/

/- `send(..).await.unwrap()` of a future of the main loop. -/
def sendEvent (s : Gui) (event : ViewEvent) : Gui :=
  if s.stage.alive then { s with events := s.events.send event }
  else { s with gtk := .panicked .unwrap }

/- `close_request`, where an error is only logged. -/
def closeRequest (s : Gui) : Gui :=
  if s.stage.alive then { s with events := s.events.send .userCancelled } else s

/-- The application is activated: `ViewModel::new` and the window. -/
def activate (s : Gui) : Option Gui :=
  if s.gtk = .starting then some (sendEvent { s with gtk := .open } .initiated) else none

def user (s : Gui) (a : Window.UserAction) : Option Gui :=
  if s.gtk = .open then
    (s.window.act a).map fun
      | (window, some .userCancelled) => closeRequest { s with window }
      | (window, some event) => { s with window, spawned := s.spawned ++ [event] }
      | (window, none) => { s with window }
  else none

/-- The main loop polls one of the futures that send an event. -/
def poll (s : Gui) (i : Nat) : Option Gui :=
  if s.gtk.runs then
    s.spawned[i]?.map fun event =>
      sendEvent { s with spawned := s.spawned.eraseIdx i } event
  else none

/-- The loop of `setup_channel` goes on. -/
def update (cat : Catalogue) (qrFits : String → Bool) (s : Gui) : Option Gui :=
  if s.gtk.runs ∧ s.listening then
    match s.updates.recv with
    | some (u, updates) =>
      match s.window.receive cat qrFits u with
      | .ok window => some { s with window, updates }
      | .error p => some { s with updates, gtk := .panicked p }
    | none =>
      if s.stage.alive then none
      else some { s with window := s.window.interrupted, listening := false }
  else none

/-- The window is closed, by its frame, a shortcut or a task of the main loop. -/
def close (s : Gui) : Option Gui :=
  if s.gtk = .open then some { s.closeRequest with gtk := .closed } else none

/-- The application has no window any more, and returns. -/
def quit (s : Gui) : Option Gui :=
  if s.gtk = .closed then some { s with gtk := .returned } else none

/-! ### The event loop -/

/- `on_state_changed`, which comes from the bus. -/
def deliver (s : Gui) (event : BackgroundEvent) : Option Gui :=
  if s.stage.running then some { s with background := s.background.send event } else none

/- The task that waits for a cancellation. -/
def passCancellation (s : Gui) : Option Gui :=
  if s.cancelTask ∧ s.stage.running then
    some { s with cancelTask := false, events := s.events.send .userCancelled }
  else none

def take (gettext : String → String) (qrCode : OwnedFd → Except Panic String) (s : Gui)
    (event : Event) : Gui :=
  match s.eventLoop.handle gettext qrCode event with
  | .ok (eventLoop, ops, breaks) => { s with eventLoop, stage := .resume breaks ops }
  | .error p => { s with stage := .panicked p }

/-- The next event of one of the two channels. -/
def takeView (gettext : String → String) (qrCode : OwnedFd → Except Panic String) (s : Gui) :
    Option Gui :=
  if s.stage = .waiting then
    s.events.recv.map fun (event, events) =>
      take gettext qrCode { s with events } (.view event)
  else none

def takeBackground (gettext : String → String) (qrCode : OwnedFd → Except Panic String)
    (s : Gui) : Option Gui :=
  if s.stage = .waiting then
    s.background.recv.map fun (event, background) =>
      take gettext qrCode { s with background } (.background event)
  else none

/-- What the world answers to an operation: what the system does for a secret, and whether the
channel of `FlowControlClient` and the one of the updates still have a receiver. -/
structure Answer where
  calls : WriteCalls
  flowOpen : Bool
  updatesOpen : Bool

def resumeWith (s : Gui) (breaks : Bool) (ops : List Op) (sent : List Sent) : Gui :=
  { s with stage := .resume breaks ops, sent := s.sent ++ sent }

/-- The loop gets over an operation. -/
def operate (gettext : String → String) (s : Gui) (answer : Answer) (op : Op) (ops : List Op)
    (breaks : Bool) : Gui :=
  match op with
  | .update u =>
    -- the receiver lives at least as long as the application
    if s.gtk = .returned ∧ answer.updatesOpen = false then { s with stage := .panicked .unwrap }
    else { s with stage := .resume breaks ops, updates := s.updates.send u }
  | .startDiscovery =>
    if answer.flowOpen then s.resumeWith breaks ops [.discoveryRequested]
    else { s with stage := .panicked .unwrap }
  | .enterClientPin pin =>
    match Credentialsd.enterClientPin answer.calls answer.flowOpen pin with
    | .error p => { s with stage := .panicked p }
    | .ok (_, events) => s.resumeWith breaks ops (events.map .client)
  | .setDevicePin pin =>
    match Credentialsd.setDevicePin answer.calls answer.flowOpen pin with
    | .error p => { s with stage := .panicked p }
    | .ok (.error (some error), events) =>
      s.resumeWith breaks (.update (.pinNotSet error) :: ops) (events.map .client)
    | .ok (_, events) => s.resumeWith breaks ops (events.map .client)
  | .selectCredential id =>
    if answer.flowOpen then s.resumeWith breaks ops [.credentialSelected id]
    else
      s.resumeWith breaks
        (.update (.failed (gettext "Failed to select credential from device.")) :: ops) []

def work (gettext : String → String) (s : Gui) (answer : Answer) : Option Gui :=
  match s.stage with
  | .handling op ops breaks => some (s.operate gettext answer op ops breaks)
  | _ => none

/-- `cancel_request`, after the task that waits for a cancellation was cancelled. -/
def finish (s : Gui) (flowOpen : Bool) : Option Gui :=
  match s.stage with
  | .leaving =>
    some { s with
      stage := .ended
      sent := s.sent ++ (clientSend flowOpen .requestCancelled).2.map .client }
  | _ => none

/-- `run_gui` cancels the event loop when the application has returned. -/
def cancelLoop (s : Gui) : Option Gui :=
  if s.gtk = .returned ∧ s.stage.alive then some { s with stage := .cancelled } else none

/-! ### All of it -/

inductive Label where
  | activate
  | user (a : Window.UserAction)
  | poll (i : Nat)
  | update
  | close
  | quit
  | deliver (event : BackgroundEvent)
  | passCancellation
  | takeView
  | takeBackground
  | work (answer : Answer)
  | finish (flowOpen : Bool)
  | cancelLoop

section

variable (cat : Catalogue) (qrFits : String → Bool) (qrCode : OwnedFd → Except Panic String)

def step (s : Gui) : Label → Option Gui
  | .activate => s.activate
  | .user a => s.user a
  | .poll i => s.poll i
  | .update => s.update cat qrFits
  | .close => s.close
  | .quit => s.quit
  | .deliver event => s.deliver event
  | .passCancellation => s.passCancellation
  | .takeView => s.takeView cat.gettext qrCode
  | .takeBackground => s.takeBackground cat.gettext qrCode
  | .work answer => s.work cat.gettext answer
  | .finish flowOpen => s.finish flowOpen
  | .cancelLoop => s.cancelLoop

/-- `run_gui` at its beginning. -/
def run (request : UiService.ViewRequest) : Gui :=
  { eventLoop := ⟨ViewModel.new cat.gettext request, request.initialDevices⟩ }

end

end Gui

end Credentialsd
