/-!
# Data of the daemon (`credentialsd/src/model.rs`, `credentialsd-common/src/model.rs`)

Requests, responses and events as the daemon passes them between its tasks.
Values of the authenticator library keep the fields that the daemon reads; the
rest of their contents is carried along unread as bytes.
-/

namespace Credentialsd

abbrev Bytes := List UInt8

/-- A panic of the daemon, with the text the macro prints. -/
inductive Panic where
  | unwrap
  | expect (msg : String)
  | todo (msg : String)
  | unimplemented (msg : String)
  | panic (msg : String)
  | index
  deriving Repr, DecidableEq

/-! ### Values of the authenticator library -/

structure MakeCredentialRequest where
  relyingPartyId : String
  origin : String
  topOrigin : Option String
  body : Bytes
  deriving Repr, DecidableEq

structure GetAssertionRequest where
  relyingPartyId : String
  origin : String
  topOrigin : Option String
  body : Bytes
  deriving Repr, DecidableEq

structure MakeCredentialResponse where
  body : Bytes
  deriving Repr, DecidableEq

structure PublicKeyCredentialDescriptor where
  id : Bytes
  deriving Repr, DecidableEq

structure PublicKeyCredentialUserEntity where
  name : Option String
  displayName : Option String
  deriving Repr, DecidableEq

structure Assertion where
  credentialId : Option PublicKeyCredentialDescriptor
  user : Option PublicKeyCredentialUserEntity
  body : Bytes
  deriving Repr, DecidableEq

structure GetAssertionResponse where
  assertions : List Assertion
  deriving Repr, DecidableEq

inductive PinNotSetReason where
  | pinNotSet
  | pinTooShort
  | pinTooLong
  | pinPolicyViolation
  | pinChangeRequired
  deriving Repr, DecidableEq

/-! ### Requests and responses (`credentialsd/src/model.rs`) -/

inductive Operation where
  | publicKeyCreate
  | publicKeyGet
  deriving Repr, DecidableEq

inductive CredentialRequest where
  | createPublicKeyCredentialRequest (r : MakeCredentialRequest)
  | getPublicKeyCredentialRequest (r : GetAssertionRequest)
  deriving Repr, DecidableEq

namespace CredentialRequest

def operation : CredentialRequest → Operation
  | .createPublicKeyCredentialRequest _ => .publicKeyCreate
  | .getPublicKeyCredentialRequest _ => .publicKeyGet

def relyingPartyId : CredentialRequest → String
  | .createPublicKeyCredentialRequest r => r.relyingPartyId
  | .getPublicKeyCredentialRequest r => r.relyingPartyId

def origin : CredentialRequest → String
  | .createPublicKeyCredentialRequest r => r.origin
  | .getPublicKeyCredentialRequest r => r.origin

def topOrigin : CredentialRequest → Option String
  | .createPublicKeyCredentialRequest r => r.topOrigin
  | .getPublicKeyCredentialRequest r => r.topOrigin

end CredentialRequest

structure MakeCredentialResponseInternal where
  ctap : MakeCredentialResponse
  transport : List String
  attachmentModality : String
  deriving Repr, DecidableEq

structure GetAssertionResponseInternal where
  ctap : Assertion
  attachmentModality : String
  deriving Repr, DecidableEq

inductive CredentialResponse where
  | createPublicKeyCredentialResponse (r : MakeCredentialResponseInternal)
  | getPublicKeyCredentialResponse (r : GetAssertionResponseInternal)
  deriving Repr, DecidableEq

namespace CredentialResponse

def fromMakeCredential (response : MakeCredentialResponse) (transports : List String)
    (modality : String) : CredentialResponse :=
  .createPublicKeyCredentialResponse ⟨response, transports, modality⟩

def fromGetAssertion (assertion : Assertion) (modality : String) : CredentialResponse :=
  .getPublicKeyCredentialResponse ⟨assertion, modality⟩

end CredentialResponse

structure ClientDetails where
  appId : String
  pid : UInt32
  deriving Repr, DecidableEq

/- What an authenticator answered (`credential_service/mod.rs`). -/
inductive AuthenticatorResponse where
  | credentialCreated (r : MakeCredentialResponse)
  | credentialsAsserted (r : GetAssertionResponse)
  deriving Repr, DecidableEq

inductive CredentialServiceError where
  | authenticatorError
  | noCredentials
  | credentialExcluded
  | pinAttemptsExhausted
  | requestCancelled
  | internal (msg : String)
  deriving Repr, DecidableEq

def CredentialServiceError.display : CredentialServiceError → String
  | .authenticatorError => "AuthenticatorError"
  | .noCredentials => "NoCredentials"
  | .credentialExcluded => "CredentialExcluded"
  | .pinAttemptsExhausted => "PinAttemptsExhausted"
  | .requestCancelled => "RequestCancelled"
  | .internal s => "InternalError: " ++ s

abbrev Response := Except CredentialServiceError CredentialResponse

abbrev RequestId := UInt32

/-! ### Types shared with the UI (`credentialsd-common/src/model.rs`) -/

inductive Transport where
  | ble
  | hybridLinked
  | hybridQr
  | internal
  | nfc
  | usb
  deriving Repr, DecidableEq

structure Device where
  id : String
  transport : Transport
  deriving Repr, DecidableEq

structure Credential where
  id : String
  name : String
  username : Option String
  deriving Repr, DecidableEq

inductive PinNotSetError where
  | pinTooShort
  | pinTooLong
  | pinPolicyViolation
  | pinChangeRequired
  | pinNotSet
  deriving Repr, DecidableEq

abbrev OwnedFd := Nat

inductive BackgroundEvent where
  | ceremonyCompleted
  | needsPin (attemptsLeft : Option UInt32)
  | pinNotSet (error : PinNotSetError)
  | needsUserVerification (attemptsLeft : Option UInt32)
  | needsUserPresence
  | selectingCredential (creds : List Credential)
  | hybridIdle
  | hybridStarted (fd : OwnedFd)
  | hybridConnecting
  | hybridConnected
  | nfcIdle
  | nfcWaiting
  | nfcConnected
  | usbIdle
  | usbWaiting
  | usbSelectingDevice
  | usbConnected
  | errorInternal
  | errorTimedOut
  | errorCancelled
  | errorAuthenticator
  | errorNoCredentials
  | errorCredentialExcluded
  | errorPinAttemptsExhausted
  | errorPinNotSet
  deriving Repr, DecidableEq

inductive WindowHandle where
  | wayland (handle : String)
  | x11 (xid : String)
  deriving Repr, DecidableEq

structure PortalBackendOptions where
  activationToken : Option String
  topOrigin : Option String
  rpId : Option String
  deriving Repr, DecidableEq

end Credentialsd
