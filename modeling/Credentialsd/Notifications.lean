import Credentialsd.FlowControl
import Credentialsd.Answers

/-!
# What arrives at the UI (`ui_control.rs:205-363`, `credentialsd-ui/src/dbus.rs:157-355`)

A state of a device becomes an event, the event a method call of the portal
interface, and the call an event of the UI again. What the API documents of an event
is compared at both ends.
-/

namespace Credentialsd

/-! ### Arguments on the bus -/

/-- The string of a `PinNotSetError` (`credentialsd-common/src/model.rs:90-106`). -/
def PinNotSetError.serialize : PinNotSetError → String
  | .pinTooShort => "PinTooShort"
  | .pinTooLong => "PinTooLong"
  | .pinPolicyViolation => "PinPolicyViolation"
  | .pinChangeRequired => "PinChangeRequired"
  | .pinNotSet => "PinNotSet"

/-- Any other string is read as the variant marked `serde(other)`. -/
def PinNotSetError.deserialize (s : String) : PinNotSetError :=
  if s = "PinTooShort" then .pinTooShort
  else if s = "PinTooLong" then .pinTooLong
  else if s = "PinPolicyViolation" then .pinPolicyViolation
  else if s = "PinChangeRequired" then .pinChangeRequired
  else .pinNotSet

theorem PinNotSetError.deserialize_serialize (err : PinNotSetError) :
    deserialize err.serialize = err := by
  cases err <;> simp [serialize, deserialize]

/-- The dictionary of a `Credential`; an absent user name has no entry. -/
def Credential.serialize (c : Credential) : List (String × String) :=
  [("id", c.id), ("name", c.name)] ++ (c.username.map fun username => ("username", username)).toList

def Credential.deserialize (entries : List (String × String)) : Option Credential :=
  match entries.lookup "id", entries.lookup "name" with
  | some id, some name => some ⟨id, name, entries.lookup "username"⟩
  | _, _ => none

theorem Credential.deserialize_serialize (c : Credential) : deserialize c.serialize = some c := by
  obtain ⟨id, name, username⟩ := c
  cases username <;> simp [serialize, deserialize, List.lookup]

def deserializeCredentials : List (List (String × String)) → Option (List Credential)
  | [] => some []
  | entries :: rest =>
    (Credential.deserialize entries).bind fun c => (deserializeCredentials rest).map (c :: ·)

theorem deserializeCredentials_serialize (creds : List Credential) :
    deserializeCredentials (creds.map Credential.serialize) = some creds := by
  induction creds with
  | nil => rfl
  | cons c creds ih =>
    rw [List.map_cons, deserializeCredentials, Credential.deserialize_serialize, Option.bind_some,
      ih]
    rfl

/-- The arguments of a call as the UI reads them; those of basic types arrive as they are. -/
def Notification.overBus : Notification → Option Notification
  | .pinNotSet error => some (.pinNotSet (PinNotSetError.deserialize error.serialize))
  | .selectingCredential creds =>
    (deserializeCredentials (creds.map Credential.serialize)).map .selectingCredential
  | notification => some notification

theorem Notification.overBus_eq (notification : Notification) :
    notification.overBus = some notification := by
  cases notification with
  | pinNotSet error => rw [overBus, PinNotSetError.deserialize_serialize]
  | selectingCredential creds =>
    rw [overBus, deserializeCredentials_serialize]
    rfl
  | _ => rfl

/-! ### The UI -/

namespace CredentialPortalBackend

/- The argument `attempts_left` of two of the methods. -/
def attemptsLeft (n : UInt32) : Option UInt32 := if n = 0xffffffff then none else some n

/-- `notify_error_occurred`. -/
def notifyErrorOccurred (error : UInt32) : Except String BackgroundEvent :=
  if error = 0x80000001 then .ok .errorInternal
  else if error = 0x80000002 then .ok .errorTimedOut
  else if error = 0x80000003 then .ok .errorCancelled
  else if error = 0x80000004 then .ok .errorAuthenticator
  else if error = 0x80000005 then .ok .errorNoCredentials
  else if error = 0x80000006 then .ok .errorCredentialExcluded
  else if error = 0x80000007 then .ok .errorPinAttemptsExhausted
  else if error = 0x80000008 then .ok .errorPinNotSet
  else .error "Unknown error code"

/-- The event of each of the `notify_*` methods. -/
def notify : Notification → Except String BackgroundEvent
  | .needsPin n => .ok (.needsPin (attemptsLeft n))
  | .pinNotSet error => .ok (.pinNotSet error)
  | .needsUserVerification n => .ok (.needsUserVerification (attemptsLeft n))
  | .needsUserPresence => .ok .needsUserPresence
  | .selectingCredential creds => .ok (.selectingCredential creds)
  | .hybridStarted fd => .ok (.hybridStarted fd)
  | .hybridConnecting => .ok .hybridConnecting
  | .hybridConnected => .ok .hybridConnected
  | .nfcConnected => .ok .nfcConnected
  | .usbConnected => .ok .usbConnected
  | .ceremonyCompleted => .ok .ceremonyCompleted
  | .errorOccurred error => notifyErrorOccurred error

end CredentialPortalBackend

/-- What the UI makes of an event of the daemon: nothing if the event is not sent, an error if the
call is refused. -/
def BackgroundEvent.received (event : BackgroundEvent) :
    Except Panic (Option (Except String BackgroundEvent)) :=
  (stateUpdate event).map fun notification =>
    notification.bind fun n => n.overBus.map CredentialPortalBackend.notify

/- The number of attempts that the API calls unknown. -/
def BackgroundEvent.readAttempts : BackgroundEvent → BackgroundEvent
  | .needsPin attemptsLeft =>
    .needsPin (CredentialPortalBackend.attemptsLeft (attemptsLeft.getD 0xffffffff))
  | .needsUserVerification attemptsLeft =>
    .needsUserVerification (CredentialPortalBackend.attemptsLeft (attemptsLeft.getD 0xffffffff))
  | event => event

def BackgroundEvent.isSent : BackgroundEvent → Bool
  | .nfcIdle => false
  | .nfcWaiting => false
  | .usbIdle => false
  | .usbSelectingDevice => false
  | .usbWaiting => false
  | _ => true

/-- The two ends of the interface agree on every event but for the attempts. -/
theorem BackgroundEvent.received_eq {event : BackgroundEvent} (h : event ≠ .hybridIdle) :
    event.received = .ok (if event.isSent then some (.ok event.readAttempts) else none) := by
  unfold received
  cases event with
  | hybridIdle => exact absurd rfl h
  | pinNotSet error =>
    simp only [stateUpdate, Except.map, Option.bind_some, Notification.overBus_eq]
    rfl
  | selectingCredential creds =>
    simp only [stateUpdate, Except.map, Option.bind_some, Notification.overBus_eq]
    rfl
  | _ => rfl

/-! ### What the API documents -/

inductive ErrorClass where
  | internal
  | timedOut
  | cancelled
  | authenticator
  | noCredentials
  | credentialExcluded
  | pinAttemptsExhausted
  | pinNotSet
  deriving Repr, DecidableEq

/-- Kind and payload of an event (`doc/api.md`, `BackgroundEvent`); of a QR code the payload is what
the file holds. -/
inductive Documented where
  | ceremonyCompleted
  | needsPin (attemptsLeft : Option UInt32)
  | pinNotSet (error : PinNotSetError)
  | needsUserVerification (attemptsLeft : Option UInt32)
  | needsUserPresence
  | selectingCredential (creds : List Credential)
  | hybridStarted (qrCode : Bytes)
  | hybridConnecting
  | hybridConnected
  | nfcConnected
  | usbConnected
  | error (kind : ErrorClass)
  deriving Repr, DecidableEq

/- "If the value is `0xffffffff`, the number of attempts left is unknown." -/
def knownAttempts (attemptsLeft : Option UInt32) : Option UInt32 :=
  attemptsLeft.filter (· != 0xffffffff)

def CredentialServiceError.errorClass : CredentialServiceError → ErrorClass
  | .authenticatorError => .authenticator
  | .noCredentials => .noCredentials
  | .credentialExcluded => .credentialExcluded
  | .pinAttemptsExhausted => .pinAttemptsExhausted
  | .requestCancelled => .cancelled
  | .internal _ => .internal

/- The states before a connection are not for the UI. -/
def UsbState.documented : UsbState → Option Documented
  | .idle => none
  | .waiting => none
  | .selectingDevice => none
  | .connected => some .usbConnected
  | .needsPin attemptsLeft _ => some (.needsPin (knownAttempts attemptsLeft))
  | .pinNotSet reason _ => some (.pinNotSet reason.toError)
  | .needsUserVerification attemptsLeft =>
    some (.needsUserVerification (knownAttempts attemptsLeft))
  | .needsUserPresence => some .needsUserPresence
  | .selectingCredential creds _ => some (.selectingCredential creds)
  | .completed => some .ceremonyCompleted
  | .failed err => some (.error err.errorClass)

def NfcState.documented : NfcState → Option Documented
  | .idle => none
  | .waiting => none
  | .connected => some .nfcConnected
  | .needsPin attemptsLeft _ => some (.needsPin (knownAttempts attemptsLeft))
  | .pinNotSet reason _ => some (.pinNotSet reason.toError)
  | .needsUserVerification attemptsLeft =>
    some (.needsUserVerification (knownAttempts attemptsLeft))
  | .selectingCredential creds _ => some (.selectingCredential creds)
  | .completed => some .ceremonyCompleted
  | .failed err => some (.error err.errorClass)

def HybridState.documented : HybridState → Option Documented
  | .init qrCode => some (.hybridStarted qrCode.toUTF8.toList)
  | .connecting => some .hybridConnecting
  | .connected => some .hybridConnected
  | .completed => some .ceremonyCompleted
  | .failed err => some (.error err.errorClass)

/-- An event with what the file behind its descriptor holds. -/
structure Delivered where
  event : BackgroundEvent
  secret : Bytes
  deriving Repr, DecidableEq

def Delivered.documented (d : Delivered) : Option Documented :=
  match d.event with
  | .ceremonyCompleted => some .ceremonyCompleted
  | .needsPin attemptsLeft => some (.needsPin (knownAttempts attemptsLeft))
  | .pinNotSet error => some (.pinNotSet error)
  | .needsUserVerification attemptsLeft =>
    some (.needsUserVerification (knownAttempts attemptsLeft))
  | .needsUserPresence => some .needsUserPresence
  | .selectingCredential creds => some (.selectingCredential creds)
  | .hybridStarted _ => some (.hybridStarted d.secret)
  | .hybridConnecting => some .hybridConnecting
  | .hybridConnected => some .hybridConnected
  | .nfcConnected => some .nfcConnected
  | .usbConnected => some .usbConnected
  | .errorInternal => some (.error .internal)
  | .errorTimedOut => some (.error .timedOut)
  | .errorCancelled => some (.error .cancelled)
  | .errorAuthenticator => some (.error .authenticator)
  | .errorNoCredentials => some (.error .noCredentials)
  | .errorCredentialExcluded => some (.error .credentialExcluded)
  | .errorPinAttemptsExhausted => some (.error .pinAttemptsExhausted)
  | .errorPinNotSet => some (.error .pinNotSet)
  | _ => none

namespace DeviceStateUpdate

def documented : DeviceStateUpdate → Option Documented
  | .hybrid state => state.documented
  | .nfc state => state.documented
  | .usb state => state.documented

/- The payload `attempts_left`, of a state that has one. -/
def attemptsLeft : DeviceStateUpdate → Option (Option UInt32)
  | .nfc (.needsPin attemptsLeft _) => some attemptsLeft
  | .nfc (.needsUserVerification attemptsLeft) => some attemptsLeft
  | .usb (.needsPin attemptsLeft _) => some attemptsLeft
  | .usb (.needsUserVerification attemptsLeft) => some attemptsLeft
  | _ => none

/- The conversion, with the system calls for the secret file. -/
def event (calls : WriteCalls) : DeviceStateUpdate → Except Panic BackgroundEvent
  | .hybrid state => Hybrid.stateEvent calls state
  | .nfc state => .ok state.toBackgroundEvent
  | .usb state => .ok state.toBackgroundEvent

def secret (calls : WriteCalls) : DeviceStateUpdate → Bytes
  | .hybrid (.init qrCode) =>
    match writeSecret calls qrCode.toUTF8.toList with
    | .ok (.ok file) => file.content
    | _ => []
  | _ => []

/-- From a state of the daemon to the event of the UI. -/
def deliver (calls : WriteCalls) (st : DeviceStateUpdate) :
    Except Panic (Option (Except String Delivered)) :=
  (st.event calls).bind fun event => event.received.map fun answer =>
    answer.map fun received => received.map fun e => ⟨e, st.secret calls⟩

end DeviceStateUpdate

def BackgroundEvent.attemptsLeft : BackgroundEvent → Option (Option UInt32)
  | .needsPin attemptsLeft => some attemptsLeft
  | .needsUserVerification attemptsLeft => some attemptsLeft
  | _ => none

/- The one error that the conversions report as another one. -/
def Documented.reported : Documented → Documented
  | .error .pinAttemptsExhausted => .error .authenticator
  | content => content

/-! ### What is kept on the way -/

theorem attemptsLeft_getD (attemptsLeft : Option UInt32) :
    CredentialPortalBackend.attemptsLeft (attemptsLeft.getD 0xffffffff) =
      knownAttempts attemptsLeft := by
  unfold CredentialPortalBackend.attemptsLeft knownAttempts
  cases attemptsLeft with
  | none => rfl
  | some n =>
    by_cases hn : n = 0xffffffff
    · simp [hn, Option.filter]
    · simp [hn, Option.filter]

theorem knownAttempts_idem (attemptsLeft : Option UInt32) :
    knownAttempts (knownAttempts attemptsLeft) = knownAttempts attemptsLeft := by
  simp [knownAttempts, Option.filter_filter]

theorem knownAttempts_eq (attemptsLeft : Option UInt32) :
    knownAttempts attemptsLeft = attemptsLeft ↔ attemptsLeft ≠ some 0xffffffff := by
  unfold knownAttempts
  cases attemptsLeft with
  | none => simp
  | some n =>
    by_cases hn : n = 0xffffffff
    · simp [hn, Option.filter]
    · simp [hn, Option.filter]

structure Kept (calls : WriteCalls) (st : DeviceStateUpdate) (event : BackgroundEvent) : Prop where
  notIdle : event ≠ .hybridIdle
  sent : event.isSent = st.documented.isSome
  documented : event.isSent = true →
    (⟨event.readAttempts, st.secret calls⟩ : Delivered).documented =
      st.documented.map Documented.reported
  attempts : event.attemptsLeft = st.attemptsLeft

theorem failed_kept (calls : WriteCalls) {st : DeviceStateUpdate} (err : CredentialServiceError)
    (hst : st.documented = some (.error err.errorClass)) (hnone : st.attemptsLeft = none) :
    Kept calls st err.toBackgroundEvent where
  notIdle := by
    cases err <;> exact nofun
  sent := by
    rw [hst]
    cases err <;> rfl
  documented _ := by
    rw [hst]
    cases err <;> rfl
  attempts := by
    rw [hnone]
    cases err <;> rfl

theorem usb_kept (calls : WriteCalls) (state : UsbState) :
    Kept calls (.usb state) state.toBackgroundEvent := by
  cases state with
  | failed err => exact failed_kept calls err rfl rfl
  | needsPin attemptsLeft pinTx =>
    refine ⟨nofun, rfl, fun _ => ?_, rfl⟩
    simp only [UsbState.toBackgroundEvent, BackgroundEvent.readAttempts, Delivered.documented,
      attemptsLeft_getD, knownAttempts_idem]
    rfl
  | needsUserVerification attemptsLeft =>
    refine ⟨nofun, rfl, fun _ => ?_, rfl⟩
    simp only [UsbState.toBackgroundEvent, BackgroundEvent.readAttempts, Delivered.documented,
      attemptsLeft_getD, knownAttempts_idem]
    rfl
  | _ => exact ⟨nofun, rfl, fun _ => rfl, rfl⟩

theorem nfc_kept (calls : WriteCalls) (state : NfcState) :
    Kept calls (.nfc state) state.toBackgroundEvent := by
  cases state with
  | failed err => exact failed_kept calls err rfl rfl
  | needsPin attemptsLeft pinTx =>
    refine ⟨nofun, rfl, fun _ => ?_, rfl⟩
    simp only [NfcState.toBackgroundEvent, BackgroundEvent.readAttempts, Delivered.documented,
      attemptsLeft_getD, knownAttempts_idem]
    rfl
  | needsUserVerification attemptsLeft =>
    refine ⟨nofun, rfl, fun _ => ?_, rfl⟩
    simp only [NfcState.toBackgroundEvent, BackgroundEvent.readAttempts, Delivered.documented,
      attemptsLeft_getD, knownAttempts_idem]
    rfl
  | _ => exact ⟨nofun, rfl, fun _ => rfl, rfl⟩

theorem qrCode_event {calls : WriteCalls} {qrCode : String} {event : BackgroundEvent}
    (h : Hybrid.stateEvent calls (.init qrCode) = .ok event) :
    ∃ file, writeSecret calls qrCode.toUTF8.toList = .ok (.ok file) ∧
      event = .hybridStarted file.fd := by
  simp only [Hybrid.stateEvent] at h
  cases hw : writeSecret calls qrCode.toUTF8.toList with
  | error p =>
    rw [hw] at h
    cases h
  | ok written =>
    rw [hw] at h
    cases written with
    | error err => cases h
    | ok file =>
      cases h
      exact ⟨file, rfl, rfl⟩

theorem hybrid_kept {calls : WriteCalls} {state : HybridState} {event : BackgroundEvent}
    (h : Hybrid.stateEvent calls state = .ok event) : Kept calls (.hybrid state) event := by
  cases state with
  | init qrCode =>
    obtain ⟨file, hfile, rfl⟩ := qrCode_event h
    refine ⟨nofun, rfl, fun _ => ?_, rfl⟩
    have hsecret : DeviceStateUpdate.secret calls (.hybrid (.init qrCode)) =
        qrCode.toUTF8.toList := by
      simp only [DeviceStateUpdate.secret, hfile]
      exact writeSecret_content hfile
    rw [hsecret]
    rfl
  | failed err =>
    cases h
    exact failed_kept calls err rfl rfl
  | _ =>
    cases h
    exact ⟨nofun, rfl, fun _ => rfl, rfl⟩

theorem event_kept {calls : WriteCalls} {st : DeviceStateUpdate} {event : BackgroundEvent}
    (h : st.event calls = .ok event) : Kept calls st event := by
  cases st with
  | hybrid state => exact hybrid_kept h
  | nfc state =>
    cases h
    exact nfc_kept calls state
  | usb state =>
    cases h
    exact usb_kept calls state

theorem deliver_eq {calls : WriteCalls} {st : DeviceStateUpdate} {event : BackgroundEvent}
    (h : st.event calls = .ok event) :
    st.deliver calls = .ok (if st.documented.isSome
      then some (.ok ⟨event.readAttempts, st.secret calls⟩) else none) := by
  have hkept := event_kept h
  unfold DeviceStateUpdate.deliver
  rw [h]
  show event.received.map _ = _
  rw [BackgroundEvent.received_eq hkept.notIdle, hkept.sent]
  cases st.documented <;> rfl

/- What reaches the UI comes from an event of the daemon. -/
theorem deliver_some {calls : WriteCalls} {st : DeviceStateUpdate}
    {answer : Except String Delivered} (h : st.deliver calls = .ok (some answer)) :
    ∃ event content, st.event calls = .ok event ∧ st.documented = some content ∧
      answer = .ok ⟨event.readAttempts, st.secret calls⟩ := by
  cases he : st.event calls with
  | error p =>
    unfold DeviceStateUpdate.deliver at h
    rw [he] at h
    cases h
  | ok event =>
    rw [deliver_eq he] at h
    cases hd : st.documented with
    | none =>
      rw [hd] at h
      cases h
    | some content =>
      rw [hd] at h
      cases h
      exact ⟨event, content, rfl, rfl, rfl⟩

/-- Nothing is sent of the states before a connection, and of no other one. -/
theorem deliver_none_iff (calls : WriteCalls) (st : DeviceStateUpdate) :
    st.deliver calls = .ok none ↔ st.documented = none := by
  cases he : st.event calls with
  | error p =>
    have hne : st.documented ≠ none := by
      cases st with
      | hybrid state => cases state <;> exact nofun
      | nfc state => cases he
      | usb state => cases he
    unfold DeviceStateUpdate.deliver
    rw [he]
    exact ⟨nofun, fun h => absurd h hne⟩
  | ok event =>
    rw [deliver_eq he]
    cases st.documented with
    | none => exact ⟨fun _ => rfl, fun _ => rfl⟩
    | some content => exact ⟨nofun, nofun⟩

theorem readAttempts_attemptsLeft (event : BackgroundEvent) :
    event.readAttempts.attemptsLeft = event.attemptsLeft.map knownAttempts := by
  cases event with
  | needsPin attemptsLeft =>
    simp only [BackgroundEvent.readAttempts, BackgroundEvent.attemptsLeft, attemptsLeft_getD,
      Option.map_some]
  | needsUserVerification attemptsLeft =>
    simp only [BackgroundEvent.readAttempts, BackgroundEvent.attemptsLeft, attemptsLeft_getD,
      Option.map_some]
  | _ => rfl

theorem reported_eq (content : Documented) :
    content.reported = content ↔ content ≠ .error .pinAttemptsExhausted := by
  unfold Documented.reported
  split
  · exact ⟨nofun, fun h => absurd rfl h⟩
  · rename_i hne
    exact ⟨fun _ h => hne h, fun _ => rfl⟩

/- One of two contents is reported as the other one. -/
def Documented.Confused (content content' : Documented) : Prop :=
  content = .error .pinAttemptsExhausted ∧ content' = .error .authenticator ∨
    content = .error .authenticator ∧ content' = .error .pinAttemptsExhausted

theorem reported_inj {content content' : Documented}
    (h : content.reported = content'.reported) :
    content = content' ∨ content.Confused content' := by
  unfold Documented.reported at h
  split at h
  · split at h
    · exact Or.inl rfl
    · exact Or.inr (Or.inl ⟨rfl, h.symm⟩)
  · split at h
    · exact Or.inr (Or.inr ⟨h, rfl⟩)
    · exact Or.inl h

theorem failed_event {calls : WriteCalls} {st : DeviceStateUpdate} {event : BackgroundEvent}
    {kind : ErrorClass} (hst : st.documented = some (.error kind))
    (h : st.event calls = .ok event) :
    ∃ err : CredentialServiceError, kind = err.errorClass ∧ event = err.toBackgroundEvent ∧
      st.secret calls = [] := by
  cases st with
  | hybrid state =>
    cases state with
    | failed err =>
      cases hst
      cases h
      exact ⟨err, rfl, rfl, rfl⟩
    | _ => cases hst
  | nfc state =>
    cases state with
    | failed err =>
      cases hst
      cases h
      exact ⟨err, rfl, rfl, rfl⟩
    | _ => cases hst
  | usb state =>
    cases state with
    | failed err =>
      cases hst
      cases h
      exact ⟨err, rfl, rfl, rfl⟩
    | _ => cases hst

theorem authenticator_event {calls : WriteCalls} {st : DeviceStateUpdate}
    {event : BackgroundEvent} (hst : st.documented = some (.error .authenticator) ∨
      st.documented = some (.error .pinAttemptsExhausted)) (h : st.event calls = .ok event) :
    event = .errorAuthenticator ∧ st.secret calls = [] := by
  rcases hst with hst | hst
  · obtain ⟨err, hkind, rfl, hsecret⟩ := failed_event hst h
    cases err <;> first | exact ⟨rfl, hsecret⟩ | cases hkind
  · obtain ⟨err, hkind, rfl, hsecret⟩ := failed_event hst h
    cases err <;> first | exact ⟨rfl, hsecret⟩ | cases hkind

/-- A state that is forwarded arrives as an event of the documented kind and payload iff it is not
that of exhausted PIN attempts, a number of attempts arrives as the same number iff it is not the
one that stands for an unknown number, and of two states that are documented as different the events
are different iff the one is not that of exhausted PIN attempts and the other one that of another
error of the authenticator. -/
theorem delivered_as_documented_iff (calls : WriteCalls) (st : DeviceStateUpdate)
    (answer : Except String Delivered) (h : st.deliver calls = .ok (some answer)) :
    ∃ d content, answer = .ok d ∧ st.documented = some content ∧
      (d.documented = some content ↔ content ≠ .error .pinAttemptsExhausted) ∧
      (d.event.attemptsLeft = st.attemptsLeft ↔ st.attemptsLeft ≠ some (some 0xffffffff)) ∧
      ∀ (calls' : WriteCalls) (st' : DeviceStateUpdate) (d' : Delivered) (content' : Documented),
        st'.deliver calls' = .ok (some (.ok d')) → st'.documented = some content' →
        content' ≠ content → (d' ≠ d ↔ ¬ content'.Confused content) := by
  obtain ⟨event, content, hevent, hst, rfl⟩ := deliver_some h
  have hkept := event_kept hevent
  have hdoc := hkept.documented (by rw [hkept.sent, hst]; rfl)
  rw [hst, Option.map_some] at hdoc
  refine ⟨_, content, rfl, hst, ?_, ?_, ?_⟩
  · rw [hdoc, ← reported_eq, Option.some.injEq]
  · rw [readAttempts_attemptsLeft, hkept.attempts]
    cases hattempts : st.attemptsLeft with
    | none => simp
    | some attemptsLeft =>
      rw [Option.map_some, Option.some.injEq, knownAttempts_eq, ne_eq, ne_eq, Option.some.injEq]
  · intro calls' st' d' content' h' hst' hne
    obtain ⟨event', content'', hevent', hst'', hd'⟩ := deliver_some h'
    rw [hst'] at hst''
    cases hst''
    cases hd'
    have hkept' := event_kept hevent'
    have hdoc' := hkept'.documented (by rw [hkept'.sent, hst']; rfl)
    rw [hst', Option.map_some] at hdoc'
    constructor
    · -- both are the event of an error of the authenticator
      intro hdiffer hconfused
      have hboth : (st'.documented = some (.error .authenticator) ∨
          st'.documented = some (.error .pinAttemptsExhausted)) ∧
          (st.documented = some (.error .authenticator) ∨
            st.documented = some (.error .pinAttemptsExhausted)) := by
        rw [hst, hst']
        rcases hconfused with ⟨rfl, rfl⟩ | ⟨rfl, rfl⟩
        · exact ⟨Or.inr rfl, Or.inl rfl⟩
        · exact ⟨Or.inl rfl, Or.inr rfl⟩
      obtain ⟨he', hs'⟩ := authenticator_event hboth.1 hevent'
      obtain ⟨he, hs⟩ := authenticator_event hboth.2 hevent
      exact hdiffer (by rw [he, he', hs, hs'])
    · intro hconfused he
      rw [he, hdoc, Option.some.injEq] at hdoc'
      rcases reported_inj hdoc'.symm with heq | hyes
      · exact hne heq
      · exact hconfused hyes

/-- A prompt with three attempts left, and one with exhausted attempts. -/
theorem delivered_as_documented_attempts :
    (∃ d, DeviceStateUpdate.deliver .working (.nfc (.needsPin (some 3) 1)) = .ok (some (.ok d)) ∧
      d.documented = some (.needsPin (some 3))) ∧
    (∃ d, DeviceStateUpdate.deliver .working (.usb (.failed .pinAttemptsExhausted)) =
        .ok (some (.ok d)) ∧ d.documented ≠ some (.error .pinAttemptsExhausted)) := by
  constructor
  · obtain ⟨d, content, hd, hst, hdoc, -⟩ :=
      delivered_as_documented_iff .working (.nfc (.needsPin (some 3) 1)) _ rfl
    cases hd
    cases hst
    exact ⟨_, rfl, hdoc.mpr nofun⟩
  · obtain ⟨d, content, hd, hst, hdoc, -⟩ :=
      delivered_as_documented_iff .working (.usb (.failed .pinAttemptsExhausted)) _ rfl
    cases hd
    cases hst
    exact ⟨_, rfl, fun hyes => hdoc.mp hyes rfl⟩

/-- On every transport exhausted PIN attempts arrive as another error. -/
theorem exhausted_attempts_lost :
    DeviceStateUpdate.deliver .working (.usb (.failed .pinAttemptsExhausted)) =
      .ok (some (.ok ⟨.errorAuthenticator, []⟩)) ∧
    DeviceStateUpdate.deliver .working (.nfc (.failed .pinAttemptsExhausted)) =
      .ok (some (.ok ⟨.errorAuthenticator, []⟩)) ∧
    DeviceStateUpdate.deliver .working (.hybrid (.failed .pinAttemptsExhausted)) =
      .ok (some (.ok ⟨.errorAuthenticator, []⟩)) ∧
    DeviceStateUpdate.deliver .working (.usb (.failed .authenticatorError)) =
      .ok (some (.ok ⟨.errorAuthenticator, []⟩)) ∧
    DeviceStateUpdate.documented (.usb (.failed .pinAttemptsExhausted)) =
      some (.error .pinAttemptsExhausted) ∧
    DeviceStateUpdate.documented (.usb (.failed .authenticatorError)) =
      some (.error .authenticator) :=
  ⟨rfl, rfl, rfl, rfl, rfl, rfl⟩

end Credentialsd
