import Credentialsd.CredentialChoice
import Credentialsd.GuiScreen

/-!
# What is sent for the user

What the GUI sends on the bus in the name of the user was entered or clicked by him, at a moment at
which the window asked for it: a PIN, a new PIN and the credential that he chose. Between that moment
and the sending the two loops may do anything.
-/

namespace Credentialsd

/-! ### PINs on the way out -/

/- A file holds a PIN, and a short enough one. -/
def SecretFile.HoldsPin (file : SecretFile) (pin : String) : Prop :=
  pin.utf8ByteSize ≤ ctapClientSecretMaxLen ∧
    ∀ bufs, readSecret file.shared bufs = some (.ok (.ok pin.toUTF8.data.toList))

/-- Whatever the result is: what comes out of the channel is the PIN, a cancellation or nothing. -/
theorem sendPin_event {ε : Type} {tooLong failed : ε} {event : SecretFile → ClientEvent}
    {calls : WriteCalls} {isOpen : Bool} {pin : String} {result : Except ε Unit}
    {events : List ClientEvent}
    (h : sendPin tooLong failed event calls isOpen pin = .ok (result, events)) :
    events = [] ∨ events = [.requestCancelled] ∨
      ∃ file, events = [event file] ∧ file.HoldsPin pin := by
  have hsent : ∀ event : ClientEvent, (clientSend isOpen event).2 = [] ∨
      (clientSend isOpen event).2 = [event] := by
    intro event
    unfold clientSend
    split
    · exact Or.inr rfl
    · exact Or.inl rfl
  unfold sendPin at h
  split at h
  · cases h
    exact Or.inl rfl
  · rename_i hshort
    cases hw : writeSecret calls pin.toUTF8.data.toList with
    | error p =>
      rw [hw] at h
      cases h
    | ok written =>
      rw [hw] at h
      cases written with
      | error err =>
        cases h
        exact (hsent .requestCancelled).imp id Or.inl
      | ok file =>
        cases h
        exact (hsent (event file)).imp id fun heq =>
          Or.inr ⟨file, heq, Nat.le_of_not_lt hshort, readSecret_written hw⟩

theorem sendPin_events {ε : Type} {tooLong failed : ε} {event : SecretFile → ClientEvent}
    {calls : WriteCalls} {isOpen : Bool} {pin : String} {result : Except ε Unit}
    {events : List ClientEvent}
    (h : sendPin tooLong failed event calls isOpen pin = .ok (result, events)) :
    ∀ e ∈ events, e = .requestCancelled ∨ ∃ file, e = event file ∧ file.HoldsPin pin := by
  rcases sendPin_event h with rfl | rfl | ⟨file, rfl, hfile⟩
  · exact List.forall_mem_nil _
  · exact List.forall_mem_singleton.mpr (Or.inl rfl)
  · exact List.forall_mem_singleton.mpr (Or.inr ⟨file, rfl, hfile⟩)

namespace Gui

variable {cat : Catalogue} {qrFits : String → Bool} {qrCode : OwnedFd → Except Panic String}

/-! ### A new PIN is entered twice -/

/- The button is only active for two entries that are the same and not empty. -/
def matchingPins : Marks where
  window w := w.newPinBtnContinue = true →
    w.newPinPrimaryEntry = w.newPinConfirmEntry ∧ w.newPinPrimaryEntry ≠ ""
  event _ := True
  background _ := True
  op _ := True
  sent _ := True

/- No update touches the entries or the button. -/
theorem receive_entries {w w' : Window} {u : ViewUpdate} (h : w.receive cat qrFits u = .ok w') :
    w'.newPinBtnContinue = w.newPinBtnContinue ∧ w'.newPinPrimaryEntry = w.newPinPrimaryEntry ∧
      w'.newPinConfirmEntry = w.newPinConfirmEntry := by
  cases u with
  | waitingForDevice device =>
    obtain ⟨prompt, rfl⟩ := Window.waitingForDevice_ok h
    exact ⟨rfl, rfl, rfl⟩
  | hybridNeedsQrCode code =>
    rw [Window.hybridNeedsQrCode_ok h]
    exact ⟨rfl, rfl, rfl⟩
  | _ =>
    cases h
    exact ⟨rfl, rfl, rfl⟩

theorem changed_pins (w : Window) (h : w.handleSettingPinChange.newPinBtnContinue = true) :
    w.newPinPrimaryEntry = w.newPinConfirmEntry ∧ w.newPinPrimaryEntry ≠ "" := by
  simp only [Window.handleSettingPinChange, Bool.and_eq_true, bne_iff_ne, beq_iff_eq] at h
  exact ⟨h.2, h.1⟩

theorem act_matchingPins {w w' : Window} {a : Window.UserAction} {event : Option ViewEvent}
    (hw : matchingPins.window w) (h : w.act a = some (w', event)) : matchingPins.window w' := by
  cases Window.acts_of_act h with
  | startSettingNewPin => exact fun hbutton => by cases hbutton
  | typeNewPin => exact changed_pins _
  | typeConfirmPin => exact changed_pins _
  | _ => exact hw

theorem matchingPins_respected : matchingPins.Respected cat qrFits qrCode where
  initiated := trivial
  userCancelled := trivial
  onView _ _ _ _ := trivial
  onBackground _ _ _ _ := trivial
  pinNotSet _ _ := trivial
  failed _ := trivial
  received hw _ h := by
    obtain ⟨hbutton, hprimary, hconfirm⟩ := receive_entries h
    show _ = true → _
    rw [hbutton, hprimary, hconfirm]
    exact hw
  interrupted hw := hw
  acted := act_matchingPins
  discoveryRequested := trivial
  enterClientPin _ _ _ _ := trivial
  setDevicePin _ _ _ _ := trivial
  selectCredential _ := trivial
  requestCancelled := trivial

/-! ### Entered and sent -/

/- The user activates the entry for the PIN, while it is shown. -/
def Enters (pin : String) (s : Gui) (l : Label) (_ : Gui) : Prop :=
  l = .user (.enterPin pin) ∧ s.window.stack = .usbOrNfc ∧ s.window.usbNfcPinEntryVisible = true

/- The user commits a new PIN, which is in both entries. -/
def Commits (pin : String) (s : Gui) (l : Label) (_ : Gui) : Prop :=
  l = .user .commitNewPin ∧ s.window.stack = .setNewPin ∧
    s.window.newPinPrimaryEntry = pin ∧ s.window.newPinConfirmEntry = pin ∧ pin ≠ ""

/-- PINs that were entered somehow, and new ones that were committed, from the event to the file. -/
def pinMarks (entered committed : String → Prop) : Marks where
  window _ := True
  event
    | .pinEntered pin => entered pin
    | .setNewDevicePin pin => committed pin
    | _ => True
  background _ := True
  op
    | .enterClientPin pin => entered pin
    | .setDevicePin pin => committed pin
    | _ => True
  sent
    | .client (.clientPinEntered file) => ∃ pin, entered pin ∧ file.HoldsPin pin
    | .client (.setDevicePin file) => ∃ pin, committed pin ∧ file.HoldsPin pin
    | _ => True

theorem pinMarks_respected (entered committed : String → Prop) :
    (pinMarks entered committed).Respected cat qrFits qrCode where
  initiated := trivial
  userCancelled := trivial
  onView {_ _ event _ _} hevent h := by
    cases event with
    | initiated =>
      cases h
      simp [pinMarks]
    | credentialSelected id =>
      cases h
      simp [pinMarks]
    | userCancelled =>
      cases h
      simp [pinMarks]
    | _ =>
      cases h
      exact List.forall_mem_singleton.mpr hevent
  onBackground _ h op hop := by
    obtain ⟨u, rfl⟩ := updates_only h op hop
    trivial
  pinNotSet _ _ := trivial
  failed _ := trivial
  received _ _ _ := trivial
  interrupted _ := trivial
  acted _ _ := trivial
  discoveryRequested := trivial
  enterClientPin {_ _ pin _ _} hpin h e he := by
    rcases sendPin_events h e he with rfl | ⟨file, rfl, hfile⟩
    · trivial
    · exact ⟨pin, hpin, hfile⟩
  setDevicePin {_ _ pin _ _} hpin h e he := by
    rcases sendPin_events h e he with rfl | ⟨file, rfl, hfile⟩
    · trivial
    · exact ⟨pin, hpin, hfile⟩
  selectCredential _ := trivial
  requestCancelled := trivial

/-- What the user does at a step is what it brings in. -/
theorem fresh_pins {s t : Gui} {l : Label} {entered committed : String → Prop}
    (hmatching : matchingPins.Held s)
    (hentered : ∀ pin, Enters pin s l t → entered pin)
    (hcommitted : ∀ pin, Commits pin s l t → committed pin) :
    (pinMarks entered committed).Fresh s l t := by
  refine ⟨fun _ _ => trivial, ?_⟩
  rintro a window event rfl hact
  cases Window.acts_of_act hact with
  | enterPin hstack hshown => exact hentered _ ⟨rfl, hstack, hshown⟩
  | commitNewPin hstack hbutton =>
    obtain ⟨hsame, hne⟩ := hmatching.window hbutton
    exact hcommitted _ ⟨rfl, hstack, rfl, hsame.symm, hne⟩
  | _ => trivial

/-- A PIN that is sent was entered while the entry for it was shown, a new PIN was in both entries
when it was committed, and is not empty; the file that is sent holds it, in 63 bytes at most. -/
theorem pins_as_entered {request : UiService.ViewRequest} {ls : List Label} {s : Gui}
    (h : Machine.exec (step cat qrFits qrCode) (run cat request) ls = some s) :
    (∀ file, .client (.clientPinEntered file) ∈ s.sent → ∃ pin,
      Machine.Sometime (step cat qrFits qrCode) (Enters pin) (run cat request) ls ∧
      file.HoldsPin pin) ∧
    ∀ file, .client (.setDevicePin file) ∈ s.sent → ∃ pin,
      Machine.Sometime (step cat qrFits qrCode) (Commits pin) (run cat request) ls ∧
      file.HoldsPin pin := by
  let marks := pinMarks
    (fun pin => Machine.Sometime (step cat qrFits qrCode) (Enters pin) (run cat request) ls)
    (fun pin => Machine.Sometime (step cat qrFits qrCode) (Commits pin) (run cat request) ls)
  have hstart : matchingPins.Held (run cat request) :=
    Marks.held_start (fun hbutton => by cases hbutton) request
  have hfresh : Machine.Along (step cat qrFits qrCode) marks.Fresh (run cat request) ls := by
    refine Machine.along_mono (I := matchingPins.Held) ?_ hstart
      (Machine.along_sometime (step cat qrFits qrCode) (run cat request) ls)
    intro s l t hs hc hl
    refine ⟨hs.step matchingPins_respected ⟨fun _ _ => trivial, fun _ _ _ _ _ => trivial⟩ hl, ?_⟩
    exact fresh_pins hs (fun pin => hc (Enters pin)) (fun pin => hc (Commits pin))
  have hheld := (pinMarks_respected _ _).run trivial hfresh h
  exact ⟨fun file hfile => hheld.sent _ hfile, fun file hfile => hheld.sent _ hfile⟩

/- A new PIN is entered and committed, and the loop is about to send it. -/
def sampleNewPin : List Label :=
  [.activate, .deliver (.pinNotSet .pinNotSet), .takeBackground, .work sampleAnswer, .update,
    .user .startSettingNewPin, .user (.typeNewPin "1234"), .user (.typeConfirmPin "1234"),
    .user .commitNewPin, .poll 0, .takeView, .work sampleAnswer, .work sampleAnswer,
    .work sampleAnswer, .takeView]

theorem pins_as_entered_sample :
    ∃ s file, Machine.exec (step english (fun _ => true) fun _ => .error .unwrap)
      (run english sampleRequest) (sampleNewPin ++ [.work sampleAnswer]) = some s ∧
      .client (.setDevicePin file) ∈ s.sent ∧ ∃ pin,
        Machine.Sometime (step english (fun _ => true) fun _ => .error .unwrap) (Commits pin)
          (run english sampleRequest) (sampleNewPin ++ [.work sampleAnswer]) ∧
        file.HoldsPin pin := by
  obtain ⟨file, hfile⟩ := (writeSecret_ok .working "1234".toUTF8.data.toList).mpr
    ⟨by decide, rfl⟩
  have hpin : setDevicePin .working true "1234" = .ok (.ok (), [.setDevicePin file]) := by
    rw [setDevicePin, sendPin, if_neg (by decide), hfile]
    rfl
  have hprefix : ∃ m, Machine.exec (step english (fun _ => true) fun _ => .error .unwrap)
      (run english sampleRequest) sampleNewPin = some m ∧
      m.stage = .handling (.setDevicePin "1234") [] false := ⟨_, rfl, rfl⟩
  obtain ⟨m, hm, hstage⟩ := hprefix
  have hwork : step english (fun _ => true) (fun _ => .error .unwrap) m (.work sampleAnswer) =
      some (m.resumeWith false [] [.client (.setDevicePin file)]) := by
    simp only [step, work, hstage, operate, sampleAnswer, hpin]
    rfl
  have hrun := Machine.exec_append_some hm (Machine.exec_single hwork)
  have hmem : Sent.client (.setDevicePin file) ∈
      (m.resumeWith false [] [.client (.setDevicePin file)]).sent :=
    List.mem_append_right _ (List.mem_singleton_self _)
  exact ⟨_, file, hrun, hmem, (pins_as_entered hrun).2 file hmem⟩

/-! ### The credential that is chosen -/

section Credentials

variable (r : GetAssertionResponse) (credHash : Bytes → String)

/- What the daemon shows of the assertions. -/
def entries : List Credential := r.assertions.map fun x => x.entry credHash

/-- The user clicks the button of an assertion. -/
def Clicks (id : String) (s : Gui) (l : Label) (_ : Gui) : Prop :=
  ∃ i, l = .user (.selectCredential i) ∧ s.window.stack = .chooseCredential ∧
    ∃ x ∈ r.assertions, s.window.credentials[i]? = some (Window.credentialButton (x.entry credHash)) ∧
      id = (x.entry credHash).id

/-- The list of the daemon, from the bus to the buttons, and ids that were clicked somehow. -/
def credentialMarks (clicked : String → Prop) : Marks where
  window w := ∀ b ∈ w.credentials, ∃ x ∈ r.assertions,
    b = Window.credentialButton (x.entry credHash)
  event
    | .credentialSelected id => clicked id
    | _ => True
  background
    | .selectingCredential creds => creds = entries r credHash
    | _ => True
  op
    | .update (.setCredentials creds) => creds = entries r credHash
    | .selectCredential id => clicked id
    | _ => True
  sent
    | .credentialSelected id => clicked id
    | _ => True

end Credentials

variable {r : GetAssertionResponse} {credHash : Bytes → String}

theorem receive_credentials {w w' : Window} {u : ViewUpdate} (h : w.receive cat qrFits u = .ok w') :
    w'.credentials = w.credentials ∨
      ∃ creds, u = .setCredentials creds ∧ w'.credentials = creds.map Window.credentialButton := by
  cases u with
  | setCredentials creds =>
    cases h
    exact Or.inr ⟨creds, rfl, rfl⟩
  | waitingForDevice device =>
    obtain ⟨prompt, rfl⟩ := Window.waitingForDevice_ok h
    exact Or.inl rfl
  | hybridNeedsQrCode code =>
    rw [Window.hybridNeedsQrCode_ok h]
    exact Or.inl rfl
  | _ =>
    cases h
    exact Or.inl rfl

theorem act_credentials {w w' : Window} {a : Window.UserAction} {event : Option ViewEvent}
    (h : w.act a = some (w', event)) : w'.credentials = w.credentials := by
  cases Window.acts_of_act h <;> rfl

theorem credentialMarks_respected (clicked : String → Prop) :
    (credentialMarks r credHash clicked).Respected cat qrFits qrCode where
  initiated := trivial
  userCancelled := trivial
  onView {_ _ event _ _} hevent h := by
    cases event with
    | credentialSelected id =>
      cases h
      exact List.forall_mem_singleton.mpr hevent
    | initiated =>
      cases h
      simp [credentialMarks]
    | pinEntered pin =>
      cases h
      simp [credentialMarks]
    | setNewDevicePin pin =>
      cases h
      simp [credentialMarks]
    | userCancelled =>
      cases h
      simp [credentialMarks]
  onBackground {event _ _} hevent h := by
    cases event with
    | selectingCredential creds =>
      cases h
      exact List.forall_mem_singleton.mpr hevent
    | hybridStarted fd =>
      obtain ⟨text, -, rfl, -⟩ := onBackground_hybridStarted h
      simp [credentialMarks]
    | _ =>
      cases h
      simp [credentialMarks]
  pinNotSet _ _ := trivial
  failed _ := trivial
  received {w w' u} hw hu h := by
    intro b hb
    rcases receive_credentials h with heq | ⟨creds, rfl, heq⟩
    · rw [heq] at hb
      exact hw b hb
    · rw [heq, show creds = entries r credHash from hu, entries, List.map_map] at hb
      obtain ⟨x, hx, rfl⟩ := List.mem_map.mp hb
      exact ⟨x, hx, rfl⟩
  interrupted hw := hw
  acted {w w' _ _} hw h := by
    intro b hb
    rw [act_credentials h] at hb
    exact hw b hb
  discoveryRequested := trivial
  enterClientPin _ h e he := by
    rcases sendPin_events h e he with rfl | ⟨file, rfl, -⟩ <;> trivial
  setDevicePin _ h e he := by
    rcases sendPin_events h e he with rfl | ⟨file, rfl, -⟩ <;> trivial
  selectCredential h := h
  requestCancelled := trivial

theorem fresh_credentials {s t : Gui} {l : Label} {clicked : String → Prop}
    (hs : (credentialMarks r credHash fun _ => True).Held s)
    (hlist : ∀ creds, l = .deliver (.selectingCredential creds) → creds = entries r credHash)
    (hclicked : ∀ id, Clicks r credHash id s l t → clicked id) :
    (credentialMarks r credHash clicked).Fresh s l t := by
  constructor
  · rintro event rfl
    cases event with
    | selectingCredential creds => exact hlist creds rfl
    | _ => trivial
  · rintro a window event rfl hact
    cases Window.acts_of_act hact with
    | @selectCredential i button hstack hbutton =>
      obtain ⟨x, hx, rfl⟩ := hs.window button (List.mem_of_getElem? hbutton)
      exact hclicked _ ⟨i, rfl, hstack, x, hx, hbutton, rfl⟩
    | _ => trivial

theorem clicked_of_sent {request : UiService.ViewRequest} {ls : List Label} {s : Gui}
    (hlist : ∀ creds, .deliver (.selectingCredential creds) ∈ ls → creds = entries r credHash)
    (h : Machine.exec (step cat qrFits qrCode) (run cat request) ls = some s) {id : String}
    (hid : .credentialSelected id ∈ s.sent) :
    Machine.Sometime (step cat qrFits qrCode) (Clicks r credHash id) (run cat request) ls := by
  have hstart : (credentialMarks r credHash fun _ => True).Held (run cat request) :=
    Marks.held_start (List.forall_mem_nil _) request
  have hlabels : Machine.Along (step cat qrFits qrCode)
      (fun _ l _ => ∀ creds, l = .deliver (.selectingCredential creds) → creds = entries r credHash)
      (run cat request) ls :=
    Machine.along_of_forall fun l hl creds heq => hlist creds (heq ▸ hl)
  have hfresh : Machine.Along (step cat qrFits qrCode) (credentialMarks r credHash fun id =>
      Machine.Sometime (step cat qrFits qrCode) (Clicks r credHash id) (run cat request) ls).Fresh
      (run cat request) ls := by
    refine Machine.along_mono (I := (credentialMarks r credHash fun _ => True).Held) ?_ hstart
      (Machine.along_and hlabels
        (Machine.along_sometime (step cat qrFits qrCode) (run cat request) ls))
    rintro s l t hs ⟨hlabel, hsometime⟩ hl
    have hany := fresh_credentials (t := t) hs hlabel fun _ _ => trivial
    exact ⟨hs.step (credentialMarks_respected _) hany hl,
      fresh_credentials hs hlabel fun id => hsometime (Clicks r credHash id)⟩
  have hheld := (credentialMarks_respected _).run (List.forall_mem_nil _) hfresh h
  exact hheld.sent _ hid

/-- If the assertions of an authenticator are the only ones that the user is asked to choose from,
every id that is sent is the one of the button that he clicked, and makes the daemon complete the
request with the assertion of that button. -/
theorem clicked_credential_completes (sha256 : Bytes → Bytes) {r : GetAssertionResponse}
    (hr : r.Distinct)
    (hsha : ∀ x ∈ r.assertions, ∀ y ∈ r.assertions, sha256 x.id = sha256 y.id → x.id = y.id)
    {request : UiService.ViewRequest} {ls : List Label} {s : Gui}
    (hlist : ∀ creds, .deliver (.selectingCredential creds) ∈ ls →
      r.toCredentials (credentialHash sha256) = .ok creds)
    (h : Machine.exec (step cat qrFits qrCode) (run cat request) ls = some s) (id : String)
    (hid : .credentialSelected id ∈ s.sent) :
    ∃ x ∈ r.assertions,
      Machine.Sometime (step cat qrFits qrCode) (fun m l _ => ∃ i, l = .user (.selectCredential i) ∧
        m.window.stack = .chooseCredential ∧ m.window.credentials[i]? =
          some (Window.credentialButton (x.entry (credentialHash sha256))))
        (run cat request) ls ∧
      Usb.processSelectCredential (credentialHash sha256) r (some id) =
        .ok (.completed (.getPublicKeyCredentialResponse ⟨x, "cross-platform"⟩)) ∧
      Nfc.processSelectCredential (credentialHash sha256) r (some id) =
        .ok (.completed (.getPublicKeyCredentialResponse ⟨x, "cross-platform"⟩)) := by
  have hentries : ∀ creds, .deliver (.selectingCredential creds) ∈ ls →
      creds = entries r (credentialHash sha256) := by
    intro creds hcreds
    have hlisted := hlist creds hcreds
    rw [hr.toCredentials] at hlisted
    cases hlisted
    rfl
  have hclicks := clicked_of_sent hentries h hid
  obtain ⟨ms, l, ns, m, t, hls, hms, hl, i, hlabel, hstack, x, hx, hbutton, rfl⟩ := hclicks
  have hinj : ∀ x ∈ r.assertions, ∀ y ∈ r.assertions,
      credentialHash sha256 x.id = credentialHash sha256 y.id → x.id = y.id :=
    fun x hx y hy heq => hsha x hx y hy (Base64Url.encode_injective heq)
  have hselect := hr.selectAssertion_entry (hr.hashes_nodup hinj) hx
  refine ⟨x, hx, ⟨ms, l, ns, m, t, hls, hms, hl, i, hlabel, hstack, hbutton⟩, ?_, ?_⟩
  · rw [Usb.processSelectCredential, hselect]
    rfl
  · rw [Nfc.processSelectCredential, hselect]
    rfl

/- The user clicks the second of two accounts. -/
def sampleClick : List Label :=
  [.activate,
    .deliver (.selectingCredential (entries sampleAssertions (credentialHash sampleSha256))),
    .takeBackground, .work sampleAnswer, .update, .user (.selectCredential 1), .poll 0, .takeView,
    .work sampleAnswer, .work sampleAnswer, .work sampleAnswer, .takeView, .work sampleAnswer]

theorem clicked_credential_sample :
    ∃ s, Machine.exec (step english (fun _ => true) fun _ => .error .unwrap)
      (run english sampleRequest) sampleClick = some s ∧
      ∃ x ∈ sampleAssertions.assertions,
        Usb.processSelectCredential (credentialHash sampleSha256) sampleAssertions
          (some (credentialHash sampleSha256 [2])) =
            .ok (.completed (.getPublicKeyCredentialResponse ⟨x, "cross-platform"⟩)) := by
  have hrun : Machine.exec (step english (fun _ => true) fun _ => .error .unwrap)
      (run english sampleRequest) sampleClick = some _ := rfl
  have hr : sampleAssertions.Distinct := ⟨by decide, by decide⟩
  have hlist : ∀ creds, .deliver (.selectingCredential creds) ∈ sampleClick →
      sampleAssertions.toCredentials (credentialHash sampleSha256) = .ok creds := by
    intro creds hcreds
    simp only [sampleClick, List.mem_cons, Label.deliver.injEq, reduceCtorEq, false_or,
      BackgroundEvent.selectingCredential.injEq, List.not_mem_nil, or_false] at hcreds
    rw [hcreds]
    exact hr.toCredentials
  obtain ⟨x, hx, -, husb, -⟩ := clicked_credential_completes sampleSha256 hr (by decide +kernel)
    hlist hrun (credentialHash sampleSha256 [2])
    (List.mem_cons_of_mem _ (List.mem_singleton_self _))
  exact ⟨_, hrun, x, hx, husb⟩

end Gui

end Credentialsd
