import Credentialsd.Hybrid
import Credentialsd.Memfd

/-!
# From an answer to an event

What an authenticator answers is turned into a state of the handler, the service turns
that into a public state and the flow control into a `BackgroundEvent`. Which answers
and which QR codes come through.
-/

namespace Credentialsd

/-! ### The conversions, one after the other -/

/-- The state of `process_user_interaction` for an answer of the authenticator, its public state
and its event. -/
def Usb.answerEvent (credHash : Bytes → String) (credTx : ReplyTx) (r : AuthenticatorResponse) :
    Except Panic BackgroundEvent :=
  match Usb.processUserInteraction credTx (some (.ok (.receivedCredentials r))) with
  | .ok state => (state.toPublic credHash).map UsbState.toBackgroundEvent
  | .error err => .ok (UsbState.failed err).toBackgroundEvent

/-- The same of NFC. -/
def Nfc.answerEvent (credHash : Bytes → String) (credTx : ReplyTx) (r : AuthenticatorResponse) :
    Except Panic BackgroundEvent :=
  match Nfc.processUserInteraction credTx (some (.ok (.receivedCredentials r))) with
  | .ok state => (state.toPublic credHash).map NfcState.toBackgroundEvent
  | .error err => .ok (NfcState.failed err).toBackgroundEvent

namespace Hybrid

/- The conversion of a hybrid state, with the system calls that it makes for a QR code. A failed
assertion of `write_secret` ends it before its own check of the outcome. -/
def stateEvent (calls : WriteCalls) (state : HybridState) : Except Panic BackgroundEvent :=
  match state with
  | .init qrCode =>
    (writeSecret calls qrCode.toUTF8.toList).bind fun written =>
      state.toBackgroundEvent fun _ => (written.map (·.fd)).toOption
  | _ => state.toBackgroundEvent fun _ => none

/-- The state of an answer of the phone, its public state and its event. -/
def answerEvent (calls : WriteCalls) (r : AuthenticatorResponse) : Except Panic BackgroundEvent :=
  (credentialResponse r).bind fun response =>
    stateEvent calls (HybridStateInternal.completed response).toPublic

/-- The public state of a QR code and its event. -/
def qrCodeEvent (calls : WriteCalls) (qrCode : String) : Except Panic BackgroundEvent :=
  stateEvent calls (HybridStateInternal.init qrCode).toPublic

end Hybrid

/-! ### Which come through -/

/- The handlers of USB and NFC make no list of a single assertion. -/
def AuthenticatorResponse.Listable : AuthenticatorResponse → Prop
  | .credentialCreated _ => True
  | .credentialsAsserted r =>
    r.assertions.length = 1 ∨ ∀ assertion ∈ r.assertions, assertion.credentialId.isSome

def AuthenticatorResponse.HasFirst : AuthenticatorResponse → Prop
  | .credentialCreated _ => True
  | .credentialsAsserted r => r.assertions ≠ []

theorem Assertion.toCredential_ok (credHash : Bytes → String) (x : Assertion) :
    (∃ cred, x.toCredential credHash = .ok cred) ↔ x.credentialId.isSome := by
  unfold toCredential
  cases x.credentialId with
  | none => exact ⟨nofun, nofun⟩
  | some i => exact ⟨fun _ => rfl, fun _ => ⟨_, rfl⟩⟩

theorem except_map_ok {ε α β : Type} (f : α → β) (x : Except ε α) :
    (∃ y, x.map f = .ok y) ↔ ∃ a, x = .ok a := by
  cases x with
  | error err => exact ⟨nofun, nofun⟩
  | ok a => exact ⟨fun _ => ⟨a, rfl⟩, fun _ => ⟨f a, rfl⟩⟩

/- A list converts iff all its entries do. -/
theorem except_mapM_ok {ε α β : Type} (f : α → Except ε β) (xs : List α) :
    (∃ ys, xs.mapM f = .ok ys) ↔ ∀ x ∈ xs, ∃ y, f x = .ok y := by
  induction xs with
  | nil => exact ⟨fun _ => nofun, fun _ => ⟨[], rfl⟩⟩
  | cons x xs ih =>
    rw [List.forall_mem_cons, ← ih, List.mapM_cons]
    cases f x with
    | error err => exact ⟨nofun, nofun⟩
    | ok y =>
      cases xs.mapM f with
      | error err => exact ⟨nofun, nofun⟩
      | ok ys => exact ⟨fun _ => ⟨⟨y, rfl⟩, ys, rfl⟩, fun _ => ⟨y :: ys, rfl⟩⟩

theorem GetAssertionResponse.toCredentials_ok (credHash : Bytes → String)
    (r : GetAssertionResponse) :
    (∃ creds, r.toCredentials credHash = .ok creds) ↔
      ∀ assertion ∈ r.assertions, assertion.credentialId.isSome := by
  unfold toCredentials
  rw [except_mapM_ok]
  simp only [Assertion.toCredential_ok]

/- A state with a list of credentials is the only one whose conversion is partial. -/
theorem selectCredential_public (credHash : Bytes → String) (credTx : ReplyTx)
    (r : GetAssertionResponse) :
    ((∃ event, ((UsbStateInternal.selectCredential r credTx).toPublic credHash).map
        UsbState.toBackgroundEvent = .ok event) ↔
      ∀ assertion ∈ r.assertions, assertion.credentialId.isSome) ∧
    ((∃ event, ((NfcStateInternal.selectCredential r credTx).toPublic credHash).map
        NfcState.toBackgroundEvent = .ok event) ↔
      ∀ assertion ∈ r.assertions, assertion.credentialId.isSome) := by
  rw [except_map_ok, except_map_ok, UsbStateInternal.toPublic, NfcStateInternal.toPublic,
    except_map_ok, except_map_ok, GetAssertionResponse.toCredentials_ok]
  exact ⟨Iff.rfl, Iff.rfl⟩

theorem answerEvent_ok (credHash : Bytes → String) (credTx : ReplyTx)
    (r : AuthenticatorResponse) :
    ((∃ event, Usb.answerEvent credHash credTx r = .ok event) ↔ r.Listable) ∧
    ((∃ event, Nfc.answerEvent credHash credTx r = .ok event) ↔ r.Listable) := by
  cases r with
  | credentialCreated r =>
    exact ⟨⟨fun _ => trivial, fun _ => ⟨_, rfl⟩⟩, ⟨fun _ => trivial, fun _ => ⟨_, rfl⟩⟩⟩
  | credentialsAsserted r =>
    obtain ⟨assertions⟩ := r
    have hlist := selectCredential_public credHash credTx ⟨assertions⟩
    unfold AuthenticatorResponse.Listable
    cases assertions with
    | nil => exact ⟨hlist.1.trans (by simp), hlist.2.trans (by simp)⟩
    | cons a rest =>
      cases rest with
      | nil =>
        exact ⟨⟨fun _ => Or.inl rfl, fun _ => ⟨_, rfl⟩⟩, ⟨fun _ => Or.inl rfl, fun _ => ⟨_, rfl⟩⟩⟩
      | cons b rest => exact ⟨hlist.1.trans (by simp), hlist.2.trans (by simp)⟩

theorem byteArray_toList_loop_length (bs : ByteArray) (i : Nat) (r : List UInt8) :
    (ByteArray.toList.loop bs i r).length = r.length + (bs.size - i) := by
  fun_induction ByteArray.toList.loop bs i r with
  | case1 i r hlt ih =>
    rw [ih, List.length_cons]
    omega
  | case2 i r hge =>
    rw [List.length_reverse]
    omega

theorem toUTF8_toList_length (s : String) : s.toUTF8.toList.length = s.utf8ByteSize := by
  unfold ByteArray.toList
  rw [byteArray_toList_loop_length, List.length_nil, Nat.zero_add, Nat.sub_zero]
  rfl

namespace Hybrid

theorem answerEvent_ok (calls : WriteCalls) (r : AuthenticatorResponse) :
    (∃ event, answerEvent calls r = .ok event) ↔ r.HasFirst := by
  cases r with
  | credentialCreated r => exact ⟨fun _ => trivial, fun _ => ⟨_, rfl⟩⟩
  | credentialsAsserted r =>
    obtain ⟨assertions⟩ := r
    cases assertions with
    | nil => exact ⟨nofun, fun h => absurd rfl h⟩
    | cons a rest => exact ⟨fun _ => nofun, fun _ => ⟨_, rfl⟩⟩

theorem qrCodeEvent_ok (calls : WriteCalls) (qrCode : String) :
    (∃ event, qrCodeEvent calls qrCode = .ok event) ↔
      qrCode.utf8ByteSize ≤ minPageSize ∧ calls.succeed = true := by
  rw [← toUTF8_toList_length, ← writeSecret_ok]
  show (∃ event, (writeSecret calls qrCode.toUTF8.toList).bind (fun written =>
    HybridState.toBackgroundEvent (fun _ => (written.map (·.fd)).toOption) (.init qrCode)) =
      .ok event) ↔ _
  cases writeSecret calls qrCode.toUTF8.toList with
  | error p => exact ⟨nofun, nofun⟩
  | ok written =>
    cases written with
    | error err => exact ⟨nofun, nofun⟩
    | ok file => exact ⟨fun _ => ⟨file, rfl⟩, fun _ => ⟨_, rfl⟩⟩

theorem qrCodeEvent_long (calls : WriteCalls) {qrCode : String}
    (h : minPageSize < qrCode.utf8ByteSize) :
    qrCodeEvent calls qrCode = .error (.panic "Failed to write QR code secret") := by
  have hlong : minPageSize < qrCode.toUTF8.toList.length := by
    rw [toUTF8_toList_length]
    exact h
  show (writeSecret calls qrCode.toUTF8.toList).bind (fun written =>
    HybridState.toBackgroundEvent (fun _ => (written.map (·.fd)).toOption) (.init qrCode)) = _
  unfold writeSecret
  rw [if_pos hlong]
  rfl

end Hybrid

/-- Over USB and NFC an answer comes through iff it has one assertion or all of its assertions
carry an id, over hybrid iff it has an assertion; a QR code comes through iff it fits in a page
and the system calls succeed. -/
theorem answers_come_through_iff (credHash : Bytes → String) (credTx : ReplyTx)
    (calls : WriteCalls) (r : AuthenticatorResponse) (qrCode : String) :
    ((∃ event, Usb.answerEvent credHash credTx r = .ok event) ↔ r.Listable) ∧
    ((∃ event, Nfc.answerEvent credHash credTx r = .ok event) ↔ r.Listable) ∧
    ((∃ event, Hybrid.answerEvent calls r = .ok event) ↔ r.HasFirst) ∧
    ((∃ event, Hybrid.qrCodeEvent calls qrCode = .ok event) ↔
      qrCode.utf8ByteSize ≤ minPageSize ∧ calls.succeed = true) :=
  ⟨(answerEvent_ok credHash credTx r).1, (answerEvent_ok credHash credTx r).2,
    Hybrid.answerEvent_ok calls r, Hybrid.qrCodeEvent_ok calls qrCode⟩

def WriteCalls.working : WriteCalls := ⟨.ok 5, .ok (), .page MmapReader.zeroPage, true⟩

def longQrCode : String := String.ofList (List.replicate 4097 '0')

theorem longQrCode_size : longQrCode.utf8ByteSize = 4097 := by
  have hsize (n : Nat) : String.utf8Len (List.replicate n '0') = n := by
    induction n with
    | zero => rfl
    | succ n ih =>
      rw [List.replicate_succ, String.utf8Len_cons, ih]
      rfl
  unfold longQrCode
  rw [String.utf8ByteSize_ofList, hsize]

/-- An empty answer of a phone, two assertions without an id over USB and NFC, and a QR code that
is one byte too long. -/
theorem answers_panic :
    Hybrid.answerEvent .working (.credentialsAsserted ⟨[]⟩) = .error .index ∧
    Usb.answerEvent (fun _ => "") 0
      (.credentialsAsserted ⟨[⟨none, none, []⟩, ⟨none, none, []⟩]⟩) = .error .unwrap ∧
    Nfc.answerEvent (fun _ => "") 0
      (.credentialsAsserted ⟨[⟨none, none, []⟩, ⟨none, none, []⟩]⟩) = .error .unwrap ∧
    Hybrid.qrCodeEvent .working longQrCode = .error (.panic "Failed to write QR code secret") :=
  ⟨rfl, rfl, rfl, Hybrid.qrCodeEvent_long .working (by rw [longQrCode_size]; decide)⟩

end Credentialsd
