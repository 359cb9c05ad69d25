import Credentialsd.Model

/-!
# Device states of the three transports

The internal states shared between a handler and the credential service, the
public states shared with the UI, and the two conversions internal → public →
`BackgroundEvent` (`credential_service/usb.rs:527-714`, `nfc.rs:410-597`,
`hybrid.rs:201-296`). The hash that hides a credential id from the UI
(`URL_SAFE_NO_PAD.encode(SHA256(id))`) is the parameter `credHash`.
-/

namespace Credentialsd

/-- Names the `mpsc` channel on which a device prompt awaits the user's reply. -/
abbrev ReplyTx := Nat

structure HidDevice where
  path : String
  deriving Repr, DecidableEq

structure NfcDevice where
  name : String
  deriving Repr, DecidableEq

/-! ### Internal states -/

inductive UsbStateInternal where
  | idle
  | waiting
  | selectingDevice (devices : List HidDevice)
  | connected (device : HidDevice)
  | needsPin (attemptsLeft : Option UInt32) (pinTx : ReplyTx)
  | pinNotSet (reason : PinNotSetReason) (pinTx : ReplyTx)
  | needsUserVerification (attemptsLeft : Option UInt32)
  | needsUserPresence
  | selectCredential (response : GetAssertionResponse) (credTx : ReplyTx)
  | completed (response : CredentialResponse)
  | failed (err : CredentialServiceError)
  deriving Repr, DecidableEq

inductive NfcStateInternal where
  | idle
  | waiting
  | connected (device : NfcDevice)
  | needsPin (attemptsLeft : Option UInt32) (pinTx : ReplyTx)
  | pinNotSet (reason : PinNotSetReason) (pinTx : ReplyTx)
  | needsUserVerification (attemptsLeft : Option UInt32)
  | selectCredential (response : GetAssertionResponse) (credTx : ReplyTx)
  | completed (response : CredentialResponse)
  | failed (err : CredentialServiceError)
  deriving Repr, DecidableEq

inductive HybridStateInternal where
  | init (qrCode : String)
  | connecting
  | connected
  | completed (response : CredentialResponse)
  | failed (err : CredentialServiceError)
  deriving Repr, DecidableEq

/-! ### Public states -/

inductive UsbState where
  | idle
  | waiting
  | selectingDevice
  | connected
  | needsPin (attemptsLeft : Option UInt32) (pinTx : ReplyTx)
  | pinNotSet (reason : PinNotSetReason) (pinTx : ReplyTx)
  | needsUserVerification (attemptsLeft : Option UInt32)
  | needsUserPresence
  | selectingCredential (creds : List Credential) (credTx : ReplyTx)
  | completed
  | failed (err : CredentialServiceError)
  deriving Repr, DecidableEq

inductive NfcState where
  | idle
  | waiting
  | connected
  | needsPin (attemptsLeft : Option UInt32) (pinTx : ReplyTx)
  | pinNotSet (reason : PinNotSetReason) (pinTx : ReplyTx)
  | needsUserVerification (attemptsLeft : Option UInt32)
  | selectingCredential (creds : List Credential) (credTx : ReplyTx)
  | completed
  | failed (err : CredentialServiceError)
  deriving Repr, DecidableEq

inductive HybridState where
  | init (qrCode : String)
  | connecting
  | connected
  | completed
  | failed (err : CredentialServiceError)
  deriving Repr, DecidableEq

inductive DeviceStateUpdate where
  | hybrid (state : HybridState)
  | nfc (state : NfcState)
  | usb (state : UsbState)
  deriving Repr, DecidableEq

/-! ### Internal to public -/

/-- One entry of the list shown to the UI; the id is unwrapped without a check. -/
def Assertion.toCredential (credHash : Bytes → String) (x : Assertion) :
    Except Panic Credential :=
  match x.credentialId with
  | none => .error .unwrap
  | some i => .ok {
      id := credHash i.id
      name := (x.user.bind (·.name)).getD "<unknown>"
      username := (x.user.map (·.displayName)).getD none }

def GetAssertionResponse.toCredentials (credHash : Bytes → String) (r : GetAssertionResponse) :
    Except Panic (List Credential) :=
  r.assertions.mapM (·.toCredential credHash)

def UsbStateInternal.toPublic (credHash : Bytes → String) : UsbStateInternal → Except Panic UsbState
  | .idle => .ok .idle
  | .waiting => .ok .waiting
  | .connected _ => .ok .connected
  | .needsPin attemptsLeft pinTx => .ok (.needsPin attemptsLeft pinTx)
  | .pinNotSet reason pinTx => .ok (.pinNotSet reason pinTx)
  | .needsUserVerification attemptsLeft => .ok (.needsUserVerification attemptsLeft)
  | .needsUserPresence => .ok .needsUserPresence
  | .completed _ => .ok .completed
  | .selectingDevice _ => .ok .selectingDevice
  | .selectCredential response credTx =>
      (response.toCredentials credHash).map fun creds => .selectingCredential creds credTx
  | .failed err => .ok (.failed err)

def NfcStateInternal.toPublic (credHash : Bytes → String) : NfcStateInternal → Except Panic NfcState
  | .idle => .ok .idle
  | .waiting => .ok .waiting
  | .connected _ => .ok .connected
  | .needsPin attemptsLeft pinTx => .ok (.needsPin attemptsLeft pinTx)
  | .pinNotSet reason pinTx => .ok (.pinNotSet reason pinTx)
  | .needsUserVerification attemptsLeft => .ok (.needsUserVerification attemptsLeft)
  | .completed _ => .ok .completed
  | .selectCredential response credTx =>
      (response.toCredentials credHash).map fun creds => .selectingCredential creds credTx
  | .failed err => .ok (.failed err)

def HybridStateInternal.toPublic : HybridStateInternal → HybridState
  | .init qrCode => .init qrCode
  | .connecting => .connecting
  | .connected => .connected
  | .completed _ => .completed
  | .failed err => .failed err

/-! ### Public to `BackgroundEvent` -/

def PinNotSetReason.toError : PinNotSetReason → PinNotSetError
  | .pinNotSet => .pinNotSet
  | .pinTooShort => .pinTooShort
  | .pinTooLong => .pinTooLong
  | .pinPolicyViolation => .pinPolicyViolation
  | .pinChangeRequired => .pinChangeRequired

/-- The `Failed` arms, the same in all three conversions. -/
def CredentialServiceError.toBackgroundEvent : CredentialServiceError → BackgroundEvent
  | .authenticatorError => .errorAuthenticator
  | .noCredentials => .errorNoCredentials
  | .credentialExcluded => .errorCredentialExcluded
  | .pinAttemptsExhausted => .errorAuthenticator
  | .requestCancelled => .errorCancelled
  | .internal _ => .errorInternal

def UsbState.toBackgroundEvent : UsbState → BackgroundEvent
  | .idle => .usbIdle
  | .waiting => .usbWaiting
  | .selectingDevice => .usbSelectingDevice
  | .connected => .usbConnected
  | .needsPin attemptsLeft _ => .needsPin attemptsLeft
  | .pinNotSet reason _ => .pinNotSet reason.toError
  | .needsUserVerification attemptsLeft => .needsUserVerification attemptsLeft
  | .needsUserPresence => .needsUserPresence
  | .selectingCredential creds _ => .selectingCredential creds
  | .completed => .ceremonyCompleted
  | .failed err => err.toBackgroundEvent

def NfcState.toBackgroundEvent : NfcState → BackgroundEvent
  | .idle => .nfcIdle
  | .waiting => .nfcWaiting
  | .connected => .nfcConnected
  | .needsPin attemptsLeft _ => .needsPin attemptsLeft
  | .pinNotSet reason _ => .pinNotSet reason.toError
  | .needsUserVerification attemptsLeft => .needsUserVerification attemptsLeft
  | .selectingCredential creds _ => .selectingCredential creds
  | .completed => .ceremonyCompleted
  | .failed err => err.toBackgroundEvent

/-- The QR code travels in a fresh secret file; `writeSecret` is `write_secret` with the outcome
of its system calls. -/
def HybridState.toBackgroundEvent (writeSecret : Bytes → Option OwnedFd) :
    HybridState → Except Panic BackgroundEvent
  | .init qrCode =>
    match writeSecret qrCode.toUTF8.toList with
    | some fd => .ok (.hybridStarted fd)
    | none => .error (.panic "Failed to write QR code secret")
  | .connecting => .ok .hybridConnecting
  | .connected => .ok .hybridConnected
  | .completed => .ok .ceremonyCompleted
  | .failed err => .ok err.toBackgroundEvent

def DeviceStateUpdate.toBackgroundEvent (writeSecret : Bytes → Option OwnedFd) :
    DeviceStateUpdate → Except Panic BackgroundEvent
  | .hybrid state => state.toBackgroundEvent writeSecret
  | .nfc state => .ok state.toBackgroundEvent
  | .usb state => .ok state.toBackgroundEvent

end Credentialsd
