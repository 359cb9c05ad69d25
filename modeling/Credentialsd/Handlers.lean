import Credentialsd.States

/-!
# The steps of the USB and the NFC handler (`usb.rs`, `nfc.rs`)

What one iteration of the two `process` loops computes from the outcome that it
awaited, and what the tasks beside the loop make of the authenticator's updates.
The two handlers share a loop, so `Handler` collects the functions in which they
differ, with the facts about them that the loop rests on.
-/

namespace Credentialsd

/-! ### The authenticator library -/

inductive CtapError where
  | pinAuthBlocked
  | noCredentials
  | credentialExcluded
  | other (code : UInt8)
  deriving Repr, DecidableEq

inductive WebAuthnError where
  | ctap (err : CtapError)
  | other (msg : String)
  deriving Repr, DecidableEq

/- The errors of an operation as both handlers and the hybrid handler report them. -/
def WebAuthnError.toServiceError : WebAuthnError → CredentialServiceError
  | .ctap .pinAuthBlocked => .pinAttemptsExhausted
  | .ctap .noCredentials => .noCredentials
  | .ctap .credentialExcluded => .credentialExcluded
  | _ => .authenticatorError

theorem WebAuthnError.toServiceError_ne_cancelled (err : WebAuthnError) :
    err.toServiceError ≠ .requestCancelled := by
  unfold toServiceError
  split <;> nofun

inductive UvUpdate where
  | uvRetry (attemptsLeft : Option UInt32)
  | pinRequired (attemptsLeft : Option UInt32)
  | pinNotSet (reason : PinNotSetReason)
  | presenceRequired
  deriving Repr, DecidableEq

/-- The updates that are followed by a wait for the user's PIN. -/
def UvUpdate.asksPin : UvUpdate → Bool
  | .pinRequired _ => true
  | .pinNotSet _ => true
  | _ => false

def AuthenticatorResponse.operation : AuthenticatorResponse → Operation
  | .credentialCreated _ => .publicKeyCreate
  | .credentialsAsserted _ => .publicKeyGet

/-- The request of a run, the library's notion of an error worth a retry, and the size of its
broadcast channel of updates. -/
structure Ceremony where
  request : CredentialRequest
  isRetryableUserError : CtapError → Bool
  uxCapacity : Nat

def Ceremony.admits (c : Ceremony) : Except WebAuthnError AuthenticatorResponse → Bool
  | .ok r => r.operation == c.request.operation
  | .error _ => true

def Ceremony.retries (c : Ceremony) : Except WebAuthnError AuthenticatorResponse → Bool
  | .error (.ctap err) => c.isRetryableUserError err
  | _ => false

/-! ### Choosing a credential -/

/-- `process_select_credential` up to the type of its states; `None` is a closed channel. -/
def selectAssertion (credHash : Bytes → String) (response : GetAssertionResponse) :
    Option String → Except CredentialServiceError CredentialResponse
  | some credId =>
    match response.assertions.find? fun c =>
        ((c.credentialId.map fun i => credHash i.id == credId).getD false) with
    | some assertion => .ok (.getPublicKeyCredentialResponse ⟨assertion, "cross-platform"⟩)
    | none => .error .noCredentials
  | none => .error (.internal "Cred channel disconnected prematurely")

theorem selectAssertion_error {credHash : Bytes → String} {response : GetAssertionResponse}
    {reply : Option String} {err : CredentialServiceError}
    (h : selectAssertion credHash response reply = .error err) : err ≠ .requestCancelled := by
  unfold selectAssertion at h
  split at h
  · split at h
    · cases h
    · cases h
      nofun
  · cases h
    nofun

/-! ### USB -/

inductive UsbUvMessage where
  | needsPin (attemptsLeft : Option UInt32) (pinTx : ReplyTx)
  | pinNotSet (reason : PinNotSetReason) (pinTx : ReplyTx)
  | needsUserVerification (attemptsLeft : Option UInt32)
  | needsUserPresence
  | receivedCredentials (response : AuthenticatorResponse)
  deriving Repr, DecidableEq

namespace Usb

/-- `InProcessUsbHandler::process_user_interaction`, on what `signal_rx` yields. -/
def processUserInteraction (credTx : ReplyTx) :
    Option (Except CredentialServiceError UsbUvMessage) →
      Except CredentialServiceError UsbStateInternal
  | some (.ok (.needsPin attemptsLeft pinTx)) => .ok (.needsPin attemptsLeft pinTx)
  | some (.ok (.pinNotSet reason pinTx)) => .ok (.pinNotSet reason pinTx)
  | some (.ok (.needsUserVerification attemptsLeft)) => .ok (.needsUserVerification attemptsLeft)
  | some (.ok .needsUserPresence) => .ok .needsUserPresence
  | some (.ok (.receivedCredentials (.credentialCreated r))) =>
    .ok (.completed (.fromMakeCredential r ["usb"] "cross-platform"))
  | some (.ok (.receivedCredentials (.credentialsAsserted r))) =>
    match r.assertions with
    | [assertion] => .ok (.completed (.fromGetAssertion assertion "cross-platform"))
    | _ => .ok (.selectCredential r credTx)
  | some (.error err) => .error err
  | none => .error (.internal "USB UV handler channel closed")

def processSelectCredential (credHash : Bytes → String) (response : GetAssertionResponse)
    (reply : Option String) : Except CredentialServiceError UsbStateInternal :=
  (selectAssertion credHash response reply).map .completed

def stateChanged : UsbStateInternal → UsbStateInternal → Bool
  | .pinNotSet _ _, .pinNotSet _ _ => true
  | .needsPin _ _, .needsPin _ _ => true
  | new, old => new.ctorIdx != old.ctorIdx

/- The message of `handle_usb_updates`. -/
def handleUpdate (pinTx : ReplyTx) : UvUpdate → Option UsbUvMessage
  | .uvRetry attemptsLeft => some (.needsUserVerification attemptsLeft)
  | .pinRequired attemptsLeft => some (.needsPin attemptsLeft pinTx)
  | .pinNotSet reason => some (.pinNotSet reason pinTx)
  | .presenceRequired => some .needsUserPresence

end Usb

/-! ### NFC -/

inductive NfcUvMessage where
  | needsPin (attemptsLeft : Option UInt32) (pinTx : ReplyTx)
  | pinNotSet (reason : PinNotSetReason) (pinTx : ReplyTx)
  | needsUserVerification (attemptsLeft : Option UInt32)
  | receivedCredentials (response : AuthenticatorResponse)
  deriving Repr, DecidableEq

namespace Nfc

/-- `InProcessNfcHandler::process_user_interaction`, on what `signal_rx` yields. -/
def processUserInteraction (credTx : ReplyTx) :
    Option (Except CredentialServiceError NfcUvMessage) →
      Except CredentialServiceError NfcStateInternal
  | some (.ok (.needsPin attemptsLeft pinTx)) => .ok (.needsPin attemptsLeft pinTx)
  | some (.ok (.pinNotSet reason pinTx)) => .ok (.pinNotSet reason pinTx)
  | some (.ok (.needsUserVerification attemptsLeft)) => .ok (.needsUserVerification attemptsLeft)
  | some (.ok (.receivedCredentials (.credentialCreated r))) =>
    .ok (.completed (.fromMakeCredential r ["nfc"] "cross-platform"))
  | some (.ok (.receivedCredentials (.credentialsAsserted r))) =>
    match r.assertions with
    | [assertion] => .ok (.completed (.fromGetAssertion assertion "cross-platform"))
    | _ => .ok (.selectCredential r credTx)
  | some (.error err) => .error err
  | none => .error (.internal "NFC UV handler channel closed")

def processSelectCredential (credHash : Bytes → String) (response : GetAssertionResponse)
    (reply : Option String) : Except CredentialServiceError NfcStateInternal :=
  (selectAssertion credHash response reply).map .completed

def stateChanged : NfcStateInternal → NfcStateInternal → Bool
  | .pinNotSet _ _, .pinNotSet _ _ => true
  | .needsPin _ _, .needsPin _ _ => true
  | new, old => new.ctorIdx != old.ctorIdx

/-- The message of `handle_nfc_updates`; a request for presence is skipped. -/
def handleUpdate (pinTx : ReplyTx) : UvUpdate → Option NfcUvMessage
  | .uvRetry attemptsLeft => some (.needsUserVerification attemptsLeft)
  | .pinRequired attemptsLeft => some (.needsPin attemptsLeft pinTx)
  | .pinNotSet reason => some (.pinNotSet reason pinTx)
  | .presenceRequired => none

end Nfc

/-! ### What the loops share -/

/-- What `process` does in a state, for devices of type `D`. -/
inductive Phase (D : Type) where
  | idleWaiting
  | selectingDevice (devices : List D)
  | connected
  | interaction
  | selectCredential (response : GetAssertionResponse)
  | completed
  | failed (err : CredentialServiceError)
  deriving Repr, DecidableEq

def Phase.isTerminal {D : Type} : Phase D → Bool
  | .completed => true
  | .failed _ => true
  | _ => false

/-- A handler with a `process` loop: `S` are its internal states, `M` the messages of its signal
channel, `D` its devices and `F` what a listing of devices finds. -/
structure Handler (S M D F : Type) where
  idle : S
  connected : D → S
  failed : CredentialServiceError → S
  phase : S → Phase D
  /-- The next state after a listing, and whether the loop sleeps before it. -/
  listed : F → S × Bool
  listError : String → String
  streamClosed : String
  processUserInteraction : ReplyTx → Option (Except CredentialServiceError M) →
    Except CredentialServiceError S
  processSelectCredential : GetAssertionResponse → Option String → Except CredentialServiceError S
  stateChanged : S → S → Bool
  handleUpdate : ReplyTx → UvUpdate → Option M
  receivedCredentials : AuthenticatorResponse → M
  /-- The channel on which a state or a message asks for a reply of the user. -/
  replyTx : S → Option ReplyTx
  msgTx : M → Option ReplyTx
  phase_idle : phase idle = .idleWaiting
  phase_connected : ∀ d, phase (connected d) = .connected
  phase_failed : ∀ err, phase (failed err) = .failed err
  phase_listed : ∀ f, phase (listed f).1 = .idleWaiting ∨ phase (listed f).1 = .connected ∨
    ∃ ds, ds ≠ [] ∧ phase (listed f).1 = .selectingDevice ds
  interact_error : ∀ tx err, processUserInteraction tx (some (.error err)) = .error err
  interact_update : ∀ tx pin u m, handleUpdate pin u = some m →
    ∃ st, processUserInteraction tx (some (.ok m)) = .ok st ∧ phase st = .interaction
  interact_received : ∀ tx r, ∃ st,
    processUserInteraction tx (some (.ok (receivedCredentials r))) = .ok st ∧
      (phase st = .completed ∨ ∃ resp, phase st = .selectCredential resp)
  select_cases : ∀ resp reply, (∃ st, processSelectCredential resp reply = .ok st ∧
      phase st = .completed) ∨
    ∃ err, processSelectCredential resp reply = .error err ∧ err ≠ .requestCancelled
  changed_phase : ∀ new old, stateChanged new old = false →
    (phase new).ctorIdx = (phase old).ctorIdx

structure AfterListing (S : Type) where
  failures : Nat
  sleeps : Bool
  next : Except CredentialServiceError S

section idle

variable {S M D F : Type} (h : Handler S M D F)

def Handler.processIdleWaiting (failures : Nat) (prev : S) : Except String F → AfterListing S
  | .ok found => ⟨failures, (h.listed found).2, .ok (h.listed found).1⟩
  | .error err =>
    if failures + 1 = 5 then ⟨failures + 1, false, .error (.internal (h.listError err))⟩
    else ⟨failures + 1, true, .ok prev⟩

def Handler.Listed (st : S) : Prop :=
  h.phase st = .idleWaiting ∨ h.phase st = .connected ∨
    ∃ ds, ds ≠ [] ∧ h.phase st = .selectingDevice ds

theorem Handler.processIdleWaiting_next (failures : Nat) (prev : S) (result : Except String F)
    (hprev : h.phase prev = .idleWaiting) :
    (∃ st, (h.processIdleWaiting failures prev result).next = .ok st ∧ h.Listed st) ∨
      (h.processIdleWaiting failures prev result).sleeps = false ∧
      ∃ err, (h.processIdleWaiting failures prev result).next = .error err ∧
        err ≠ .requestCancelled := by
  cases result with
  | ok found => exact Or.inl ⟨_, rfl, h.phase_listed found⟩
  | error err =>
    by_cases hlast : failures + 1 = 5
    · simp only [processIdleWaiting, if_pos hlast]
      exact Or.inr ⟨trivial, _, rfl, nofun⟩
    · simp only [processIdleWaiting, if_neg hlast]
      exact Or.inl ⟨_, rfl, Or.inl hprev⟩

end idle

theorem selectAssertion_map_cases {S : Type} (credHash : Bytes → String)
    (response : GetAssertionResponse) (reply : Option String) (completed : CredentialResponse → S) :
    (∃ r, (selectAssertion credHash response reply).map completed = .ok (completed r)) ∨
      ∃ err, (selectAssertion credHash response reply).map completed = .error err ∧
        err ≠ .requestCancelled := by
  cases hr : selectAssertion credHash response reply with
  | ok r => exact Or.inl ⟨r, rfl⟩
  | error err => exact Or.inr ⟨err, rfl, selectAssertion_error hr⟩

namespace Usb

def phase : UsbStateInternal → Phase HidDevice
  | .idle => .idleWaiting
  | .waiting => .idleWaiting
  | .selectingDevice devices => .selectingDevice devices
  | .connected _ => .connected
  | .needsPin _ _ => .interaction
  | .pinNotSet _ _ => .interaction
  | .needsUserVerification _ => .interaction
  | .needsUserPresence => .interaction
  | .selectCredential response _ => .selectCredential response
  | .completed _ => .completed
  | .failed err => .failed err

def listed : List HidDevice → UsbStateInternal × Bool
  | [] => (.waiting, true)
  | d :: ds => (.selectingDevice (d :: ds), false)

def listError (err : String) : String :=
  "Failed to list USB authenticators: " ++ err ++ ". Cancelling USB state updates."

def replyTx : UsbStateInternal → Option ReplyTx
  | .needsPin _ pinTx => some pinTx
  | .pinNotSet _ pinTx => some pinTx
  | .selectCredential _ credTx => some credTx
  | _ => none

def msgTx : UsbUvMessage → Option ReplyTx
  | .needsPin _ pinTx => some pinTx
  | .pinNotSet _ pinTx => some pinTx
  | _ => none

theorem interact_received (tx : ReplyTx) (r : AuthenticatorResponse) : ∃ st,
    processUserInteraction tx (some (.ok (.receivedCredentials r))) = .ok st ∧
      (phase st = .completed ∨ ∃ resp, phase st = .selectCredential resp) := by
  cases r with
  | credentialCreated r => exact ⟨_, rfl, Or.inl rfl⟩
  | credentialsAsserted r =>
    obtain ⟨assertions⟩ := r
    match assertions with
    | [] => exact ⟨_, rfl, Or.inr ⟨_, rfl⟩⟩
    | [_] => exact ⟨_, rfl, Or.inl rfl⟩
    | _ :: _ :: _ => exact ⟨_, rfl, Or.inr ⟨_, rfl⟩⟩

theorem changed_phase (new old : UsbStateInternal) (h : stateChanged new old = false) :
    (phase new).ctorIdx = (phase old).ctorIdx := by
  cases new <;> cases old <;> first | rfl | cases h

def handler (credHash : Bytes → String) :
    Handler UsbStateInternal UsbUvMessage HidDevice (List HidDevice) where
  idle := .idle
  connected := .connected
  failed := .failed
  phase := phase
  listed := listed
  listError := listError
  streamClosed := "USB state channel receiver closed prematurely"
  processUserInteraction := processUserInteraction
  processSelectCredential := processSelectCredential credHash
  stateChanged := stateChanged
  handleUpdate := handleUpdate
  receivedCredentials := .receivedCredentials
  replyTx := replyTx
  msgTx := msgTx
  phase_idle := rfl
  phase_connected _ := rfl
  phase_failed _ := rfl
  phase_listed found := by
    cases found with
    | nil => exact Or.inl rfl
    | cons d ds => exact Or.inr (Or.inr ⟨d :: ds, nofun, rfl⟩)
  interact_error _ _ := rfl
  interact_update tx pin u m hm := by
    cases u <;> cases hm <;> exact ⟨_, rfl, rfl⟩
  interact_received := interact_received
  select_cases resp reply := by
    rcases selectAssertion_map_cases credHash resp reply UsbStateInternal.completed with
      ⟨r, hr⟩ | herr
    · exact Or.inl ⟨_, hr, rfl⟩
    · exact Or.inr herr
  changed_phase := changed_phase

end Usb

namespace Nfc

def phase : NfcStateInternal → Phase NfcDevice
  | .idle => .idleWaiting
  | .waiting => .idleWaiting
  | .connected _ => .connected
  | .needsPin _ _ => .interaction
  | .pinNotSet _ _ => .interaction
  | .needsUserVerification _ => .interaction
  | .selectCredential response _ => .selectCredential response
  | .completed _ => .completed
  | .failed err => .failed err

def listed : Option NfcDevice → NfcStateInternal × Bool
  | none => (.waiting, false)
  | some d => (.connected d, false)

def listError (err : String) : String :=
  "Failed to list NFC authenticators: " ++ err ++ ". Cancelling NFC state updates."

def replyTx : NfcStateInternal → Option ReplyTx
  | .needsPin _ pinTx => some pinTx
  | .pinNotSet _ pinTx => some pinTx
  | .selectCredential _ credTx => some credTx
  | _ => none

def msgTx : NfcUvMessage → Option ReplyTx
  | .needsPin _ pinTx => some pinTx
  | .pinNotSet _ pinTx => some pinTx
  | _ => none

theorem interact_received (tx : ReplyTx) (r : AuthenticatorResponse) : ∃ st,
    processUserInteraction tx (some (.ok (.receivedCredentials r))) = .ok st ∧
      (phase st = .completed ∨ ∃ resp, phase st = .selectCredential resp) := by
  cases r with
  | credentialCreated r => exact ⟨_, rfl, Or.inl rfl⟩
  | credentialsAsserted r =>
    obtain ⟨assertions⟩ := r
    match assertions with
    | [] => exact ⟨_, rfl, Or.inr ⟨_, rfl⟩⟩
    | [_] => exact ⟨_, rfl, Or.inl rfl⟩
    | _ :: _ :: _ => exact ⟨_, rfl, Or.inr ⟨_, rfl⟩⟩

theorem changed_phase (new old : NfcStateInternal) (h : stateChanged new old = false) :
    (phase new).ctorIdx = (phase old).ctorIdx := by
  cases new <;> cases old <;> first | rfl | cases h

def handler (credHash : Bytes → String) :
    Handler NfcStateInternal NfcUvMessage NfcDevice (Option NfcDevice) where
  idle := .idle
  connected := .connected
  failed := .failed
  phase := phase
  listed := listed
  listError := listError
  streamClosed := "NFC state channel receiver closed prematurely"
  processUserInteraction := processUserInteraction
  processSelectCredential := processSelectCredential credHash
  stateChanged := stateChanged
  handleUpdate := handleUpdate
  receivedCredentials := .receivedCredentials
  replyTx := replyTx
  msgTx := msgTx
  phase_idle := rfl
  phase_connected _ := rfl
  phase_failed _ := rfl
  phase_listed found := by
    cases found with
    | none => exact Or.inl rfl
    | some d => exact Or.inr (Or.inl rfl)
  interact_error _ _ := rfl
  interact_update tx pin u m hm := by
    cases u <;> cases hm <;> exact ⟨_, rfl, rfl⟩
  interact_received := interact_received
  select_cases resp reply := by
    rcases selectAssertion_map_cases credHash resp reply NfcStateInternal.completed with
      ⟨r, hr⟩ | herr
    · exact Or.inl ⟨_, hr, rfl⟩
    · exact Or.inr herr
  changed_phase := changed_phase

end Nfc

end Credentialsd
