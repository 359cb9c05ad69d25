import Credentialsd.Secrets
import Credentialsd.ViewModel

/-!
# The window of the prompt (`credentialsd-ui/src/gui/view_model/gtk/`)

The view model of GTK has properties, and the window reacts to their changes: some of them turn to
another page of the stack. It takes one update after the other, in between the user types and
clicks. Setting a property notifies even if the value stays the same.
-/

namespace Credentialsd

def Transport.asStr : Transport → String
  | .ble => "Ble"
  | .hybridLinked => "HybridLinked"
  | .hybridQr => "HybridQr"
  | .internal => "Internal"
  | .nfc => "Nfc"
  | .usb => "Usb"

/- `TryInto<Transport>`. -/
def Transport.ofStr (s : String) : Except String Transport :=
  if s = "Ble" then .ok .ble
  else if s = "HybridLinked" then .ok .hybridLinked
  else if s = "HybridQr" then .ok .hybridQr
  else if s = "Internal" then .ok .internal
  else if s = "Nfc" then .ok .nfc
  else if s = "Usb" then .ok .usb
  else .error ("Unrecognized transport: " ++ s)

theorem Transport.ofStr_asStr (transport : Transport) : ofStr transport.asStr = .ok transport := by
  cases transport <;> decide

namespace Gui

/-- `gettext` and `ngettext`, in the language of the user. -/
structure Catalogue where
  gettext : String → String
  ngettext : String → String → UInt32 → String

inductive ViewUpdate where
  | setTitle (texts : SetTitle)
  | setDevices (devices : List Device)
  | setCredentials (credentials : List Credential)
  | waitingForDevice (device : Device)
  | selectingDevice
  | needsPin (attemptsLeft : Option UInt32)
  | pinNotSet (error : PinNotSetError)
  | needsUserVerification (attemptsLeft : Option UInt32)
  | needsUserPresence
  | hybridNeedsQrCode (qrCode : String)
  | hybridConnecting
  | hybridConnected
  | completed
  | cancelled
  | failed (error : String)
  deriving Repr, DecidableEq

inductive ViewEvent where
  | initiated
  | credentialSelected (id : String)
  | pinEntered (pin : String)
  | setNewDevicePin (pin : String)
  | userCancelled
  deriving Repr, DecidableEq

inductive ModelState where
  | pending
  | completed
  | failed
  | cancelled
  deriving Repr, DecidableEq

/-- The pages of the stack (`window.blp`). -/
inductive Page where
  | startPage
  | usbOrNfc
  | hybridQr
  | chooseCredential
  | setNewPin
  | completed
  | failed
  deriving Repr, DecidableEq

structure DeviceObject where
  id : String
  transport : String
  name : String
  deriving Repr, DecidableEq

/-- A button of the list of credentials: the name of the widget and what it says. -/
structure CredentialButton where
  name : String
  label : String
  deriving Repr, DecidableEq

/-- The view model of GTK with the stack and the entries of the window. `closing` tells whether a
task of the main loop is going to close the window. -/
structure Window where
  title : String := ""
  subtitle : String := ""
  scanQrPrompt : String := ""
  activateUsbPrompt : String := ""
  hybridTransportAvailable : Bool := false
  credentials : List CredentialButton := []
  selectedDevice : Option DeviceObject := none
  usbNfcPinEntryVisible : Bool := false
  prompt : String := ""
  state : ModelState := .pending
  completed : Bool := false
  failed : Bool := false
  qrCodePaintable : Option String := none
  qrCodeVisible : Bool := false
  qrSpinnerVisible : Bool := false
  startSettingNewPinVisible : Bool := false
  stack : Page := .startPage
  newPinPrimaryEntry : String := ""
  newPinConfirmEntry : String := ""
  newPinBtnContinue : Bool := false
  closing : Bool := false
  deriving Repr, DecidableEq

namespace Window

/-! ### Properties with somebody who listens -/

def setSelectedDevice (w : Window) (d : DeviceObject) : Window :=
  { w with
    selectedDevice := some d
    stack := match Transport.ofStr d.transport with
      | .ok .usb => .usbOrNfc
      | .ok .hybridQr => .hybridQr
      | .ok .nfc => .usbOrNfc
      | _ => w.stack }

def setCompleted (w : Window) (value : Bool) : Window :=
  { w with
    completed := value
    stack := if value then .completed else w.stack
    closing := w.closing || value }

def setFailed (w : Window) (value : Bool) : Window :=
  { w with failed := value, stack := if value then .failed else w.stack }

def setCredentials (w : Window) (credentials : List CredentialButton) : Window :=
  { w with credentials, stack := .chooseCredential }

def setUsbNfcPinEntryVisible (w : Window) (value : Bool) : Window :=
  { w with usbNfcPinEntryVisible := value, stack := if value then .usbOrNfc else w.stack }

def setState (w : Window) (state : ModelState) : Window :=
  { w with state, closing := w.closing || state == .cancelled }

/-! ### Updates -/

variable (cat : Catalogue)

def transportName : Transport → String
  | .ble => cat.gettext "A Bluetooth device"
  | .internal => cat.gettext "This device"
  | .hybridQr => cat.gettext "A mobile device"
  | .hybridLinked => cat.gettext "Linked Device"
  | .nfc => cat.gettext "An security key or card (NFC)"
  | .usb => cat.gettext "A security key (USB)"

/- `From<&Device> for DeviceObject`. -/
def deviceObject (device : Device) : DeviceObject :=
  ⟨device.id, device.transport.asStr, transportName cat device.transport⟩

def updateDevices (w : Window) (devices : List Device) : Window :=
  { w with hybridTransportAvailable := devices.any fun dev =>
      dev.transport == .hybridLinked || dev.transport == .hybridQr }

def credentialButton (credential : Credential) : CredentialButton where
  name := credential.id
  label := match credential.username with
    | some username => credential.name ++ (" (" ++ username ++ ")")
    | none => credential.name

def updateCredentials (w : Window) (credentials : List Credential) : Window :=
  w.setCredentials (credentials.map credentialButton)

def waitingForDevice (w : Window) (device : Device) : Except Panic Window :=
  let prompted : Except Panic Window := match device.transport with
    | .usb => .ok { w with prompt := cat.gettext "Insert your security key." }
    | .hybridQr => .ok { w with prompt := "" }
    | .nfc => .ok { w with prompt := "Place your security key on your NFC reader" }
    | .internal => .ok w
    | _ => .error (.todo "not yet implemented")
  prompted.map fun w => w.setSelectedDevice (deviceObject cat device)

def selectingDevice (w : Window) : Window :=
  { w with
    prompt := cat.gettext "Multiple devices found. Please select with which to proceed." }

def attemptsPrompt (one many : String) (left : UInt32) : String :=
  Text.replace (cat.ngettext one many left) "%d" (toString left)

def pinPrompt : Option UInt32 → String
  | some left => attemptsPrompt cat "Enter your PIN. One attempt remaining."
      "Enter your PIN. %d attempts remaining." left
  | none => cat.gettext "Enter your PIN."

def userVerificationPrompt : Option UInt32 → String
  | some left => attemptsPrompt cat "Touch your device again. One attempt remaining."
      "Touch your device again. %d attempts remaining." left
  | none => cat.gettext "Touch your device."

def pinNotSetText : PinNotSetError → String
  | .pinNotSet => cat.gettext "This server requires your device to have additional protection like a PIN, which is not set. Please set a PIN for this device and try again."
  | .pinTooShort => cat.gettext "The entered PIN violates the PIN-policy of this device (likely too short). Please try again."
  | .pinPolicyViolation => cat.gettext "The entered PIN violates the PIN-policy of this device (likely too short). Please try again."
  | .pinTooLong => cat.gettext "The entered PIN violates the PIN-policy of this device (PIN too long). Please try again."
  | .pinChangeRequired => cat.gettext "A PIN change is required by your device to continue."

/- `QrCode::new` takes texts up to some length; the picture is what is drawn of the text. -/
def drawQrCode (qrFits : String → Bool) (qrCode : String) : Except Panic String :=
  if qrFits qrCode then .ok qrCode else .error (.expect "QR code to be valid")

/- What is unset at every update. -/
def unset (w : Window) : Window :=
  let w := w.setUsbNfcPinEntryVisible false
  let w := { w with startSettingNewPinVisible := false }
  w.setFailed false

/-- An update from the loop of `setup_channel`. -/
def receive (qrFits : String → Bool) (w : Window) (update : ViewUpdate) : Except Panic Window :=
  let w := w.unset
  match update with
  | .setTitle texts =>
    .ok { w with
      title := texts.title
      subtitle := texts.subtitle
      scanQrPrompt := texts.qrPrompt
      activateUsbPrompt := texts.usbPrompt }
  | .setDevices devices => .ok (w.updateDevices devices)
  | .setCredentials credentials => .ok (w.updateCredentials credentials)
  | .selectingDevice => .ok (w.selectingDevice cat)
  | .waitingForDevice device => w.waitingForDevice cat device
  | .needsPin attemptsLeft =>
    let w := { w with prompt := pinPrompt cat attemptsLeft }
    .ok (w.setUsbNfcPinEntryVisible true)
  | .needsUserVerification attemptsLeft =>
    .ok { w with prompt := userVerificationPrompt cat attemptsLeft }
  | .needsUserPresence => .ok { w with prompt := cat.gettext "Touch your device" }
  | .pinNotSet error =>
    let w := w.setFailed true
    .ok { w with startSettingNewPinVisible := true, prompt := pinNotSetText cat error }
  | .hybridNeedsQrCode qrCode =>
    (drawQrCode qrFits qrCode).map fun texture =>
      { w with
        prompt := cat.gettext "Scan the QR code with your device to begin authentication."
        qrCodePaintable := some texture
        qrCodeVisible := true }
  | .hybridConnecting =>
    (waitingForDevice cat { w with qrCodeVisible := false } ⟨"x", .hybridQr⟩).map fun w =>
      { w with
        prompt := cat.gettext "Connecting to your device. Make sure both devices are near each other and have Bluetooth enabled."
        qrSpinnerVisible := true }
  | .hybridConnected =>
    .ok { w with
      qrCodeVisible := false
      prompt := cat.gettext "Device connected. Follow the instructions on your device"
      qrSpinnerVisible := false }
  | .completed =>
    let w := { w with qrSpinnerVisible := false }
    .ok (w.setCompleted true)
  | .failed error =>
    let w := { w with qrSpinnerVisible := false }
    let w := w.setFailed true
    .ok { w with prompt := error }
  | .cancelled => .ok (w.setState .cancelled)

/- The sender of the updates is gone. -/
def interrupted (w : Window) : Window := w.setState .cancelled

/-! ### The user -/

inductive UserAction where
  | enterPin (text : String)
  | startSettingNewPin
  | typeNewPin (text : String)
  | typeConfirmPin (text : String)
  | commitNewPin
  | selectCredential (i : Nat)
  | closeWindow
  deriving Repr, DecidableEq

def handleStartSettingNewPin (w : Window) : Window :=
  { w with
    stack := .setNewPin
    newPinPrimaryEntry := ""
    newPinConfirmEntry := ""
    newPinBtnContinue := false }

def handleSettingPinChange (w : Window) : Window :=
  { w with newPinBtnContinue :=
      w.newPinPrimaryEntry != "" && w.newPinPrimaryEntry == w.newPinConfirmEntry }

/-- What the user can do on the page that is shown, and the event that is sent for it. The button
`Close` is on two of the pages. -/
def act (w : Window) : UserAction → Option (Window × Option ViewEvent)
  | .enterPin text =>
    if w.stack = .usbOrNfc ∧ w.usbNfcPinEntryVisible then some (w, some (.pinEntered text))
    else none
  | .startSettingNewPin =>
    if w.stack = .failed ∧ w.startSettingNewPinVisible then
      some (w.handleStartSettingNewPin, none)
    else none
  | .typeNewPin text =>
    if w.stack = .setNewPin then
      some (handleSettingPinChange { w with newPinPrimaryEntry := text }, none)
    else none
  | .typeConfirmPin text =>
    if w.stack = .setNewPin then
      some (handleSettingPinChange { w with newPinConfirmEntry := text }, none)
    else none
  | .commitNewPin =>
    if w.stack = .setNewPin ∧ w.newPinBtnContinue then
      some (w, some (.setNewDevicePin w.newPinPrimaryEntry))
    else none
  | .selectCredential i =>
    if w.stack = .chooseCredential then
      w.credentials[i]?.map fun button => (w, some (.credentialSelected button.name))
    else none
  | .closeWindow =>
    if w.stack = .setNewPin ∨ w.stack = .failed ∧ w.startSettingNewPinVisible then
      some (w, some .userCancelled)
    else none

/-- What an action of the user does, one case for each. -/
inductive Acts : Window → UserAction → Window → Option ViewEvent → Prop where
  | enterPin {w : Window} {text : String} (hstack : w.stack = .usbOrNfc)
    (hshown : w.usbNfcPinEntryVisible = true) : Acts w (.enterPin text) w (some (.pinEntered text))
  | startSettingNewPin {w : Window} (hstack : w.stack = .failed)
    (hshown : w.startSettingNewPinVisible = true) :
    Acts w .startSettingNewPin w.handleStartSettingNewPin none
  | typeNewPin {w : Window} {text : String} (hstack : w.stack = .setNewPin) :
    Acts w (.typeNewPin text) (handleSettingPinChange { w with newPinPrimaryEntry := text }) none
  | typeConfirmPin {w : Window} {text : String} (hstack : w.stack = .setNewPin) :
    Acts w (.typeConfirmPin text) (handleSettingPinChange { w with newPinConfirmEntry := text })
      none
  | commitNewPin {w : Window} (hstack : w.stack = .setNewPin)
    (hbutton : w.newPinBtnContinue = true) :
    Acts w .commitNewPin w (some (.setNewDevicePin w.newPinPrimaryEntry))
  | selectCredential {w : Window} {i : Nat} {button : CredentialButton}
    (hstack : w.stack = .chooseCredential) (hbutton : w.credentials[i]? = some button) :
    Acts w (.selectCredential i) w (some (.credentialSelected button.name))
  | closeWindow {w : Window} : Acts w .closeWindow w (some .userCancelled)

theorem acts_of_act {w w' : Window} {a : UserAction} {event : Option ViewEvent}
    (h : w.act a = some (w', event)) : Acts w a w' event := by
  cases a with
  | selectCredential i =>
    simp only [act] at h
    split at h
    · rename_i hstack
      obtain ⟨button, hbutton, heq⟩ := Option.map_eq_some_iff.mp h
      cases heq
      exact .selectCredential hstack hbutton
    · cases h
  | enterPin text =>
    simp only [act] at h
    split at h
    · rename_i hshown
      cases h
      exact .enterPin hshown.1 hshown.2
    · cases h
  | startSettingNewPin =>
    simp only [act] at h
    split at h
    · rename_i hshown
      cases h
      exact .startSettingNewPin hshown.1 hshown.2
    · cases h
  | typeNewPin text =>
    simp only [act] at h
    split at h
    · rename_i hstack
      cases h
      exact .typeNewPin hstack
    · cases h
  | typeConfirmPin text =>
    simp only [act] at h
    split at h
    · rename_i hstack
      cases h
      exact .typeConfirmPin hstack
    · cases h
  | commitNewPin =>
    simp only [act] at h
    split at h
    · rename_i hshown
      cases h
      exact .commitNewPin hshown.1 hshown.2
    · cases h
  | closeWindow =>
    simp only [act] at h
    split at h
    · cases h
      exact .closeWindow
    · cases h

end Window

end Gui

end Credentialsd
