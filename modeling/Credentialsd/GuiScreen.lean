import Credentialsd.GuiPages
import Credentialsd.Notifications

/-!
# What is on the screen

The properties are always as the update sets them that the window has received last, and at rest as
the device has last asked for: nothing that the user can do changes that. He sees it if the page that
the window has been turned to before has a place for it.
-/

namespace Credentialsd

namespace Gui

variable {cat : Catalogue} {qrFits : String → Bool} {qrCode : OwnedFd → Except Panic String}

/-! ### Every run -/

/- The window is only told to wait for devices that it knows to show. -/
def shownDevices : Marks where
  window _ := True
  event _ := True
  background _ := True
  op
    | .update (.waitingForDevice device) =>
      device.transport = .usb ∨ device.transport = .nfc ∨ device.transport = .hybridQr
    | _ => True
  sent _ := True

theorem shownDevices_respected : shownDevices.Respected cat qrFits qrCode where
  initiated := trivial
  userCancelled := trivial
  onView {_ _ event _ _} _ h := by
    cases event with
    | initiated =>
      cases h
      simp [shownDevices]
    | _ =>
      cases h
      simp [shownDevices]
  onBackground {event _ _} _ h := by
    cases event with
    | hybridStarted fd =>
      obtain ⟨text, -, rfl, -⟩ := onBackground_hybridStarted h
      simp [shownDevices]
    | _ =>
      cases h
      simp [shownDevices, bogus]
  pinNotSet _ _ := trivial
  failed _ := trivial
  received _ _ _ := trivial
  interrupted _ := trivial
  acted _ _ := trivial
  discoveryRequested := trivial
  enterClientPin _ _ _ _ := trivial
  setDevicePin _ _ _ _ := trivial
  selectCredential _ := trivial
  requestCancelled := trivial

theorem receive_todo {w : Window} {u : ViewUpdate} {msg : String}
    (h : w.receive cat qrFits u = .error (.todo msg)) : ¬ shownDevices.op (.update u) := by
  cases u with
  | waitingForDevice device =>
    intro hshown
    simp only [Window.receive, Window.waitingForDevice] at h
    rcases hshown with htransport | htransport | htransport <;>
    · rw [htransport] at h
      cases h
  | hybridNeedsQrCode code =>
    simp only [Window.receive, Window.drawQrCode] at h
    split at h <;> cases h
  | _ => cases h

/-- The window follows the updates that it has received, and no branch is reached that is still to
be written. -/
structure KeepsUp (cat : Catalogue) (s : Gui) : Prop where
  screen : (∀ p, s.gtk ≠ .panicked p) → s.window.After cat s.updates.taken
  noTodo : ∀ msg, s.gtk ≠ .panicked (.todo msg)

/- A step that leaves the window and what it has received alone. -/
theorem KeepsUp.same {s t : Gui} (h : KeepsUp cat s) (hgtk : t.gtk = s.gtk)
    (hwindow : t.window = s.window) (htaken : t.updates.taken = s.updates.taken) :
    KeepsUp cat t := by
  refine ⟨?_, ?_⟩
  · rw [hgtk, hwindow, htaken]
    exact h.screen
  · rw [hgtk]
    exact h.noTodo

theorem KeepsUp.closeRequest {s : Gui} (h : KeepsUp cat s) : KeepsUp cat s.closeRequest := by
  unfold Gui.closeRequest
  split
  · exact h.same rfl rfl rfl
  · exact h

theorem KeepsUp.acted {s : Gui} (h : KeepsUp cat s) {a : Window.UserAction} {window : Window}
    {event : Option ViewEvent} (hact : s.window.act a = some (window, event)) :
    KeepsUp cat { s with window } :=
  ⟨fun hgtk => (h.screen hgtk).act hact, h.noTodo⟩

theorem KeepsUp.take {s : Gui} (h : KeepsUp cat s) (event : Event) :
    KeepsUp cat (Gui.take cat.gettext qrCode s event) := by
  unfold Gui.take
  split
  · exact h.same rfl rfl rfl
  · exact h.same rfl rfl rfl

theorem KeepsUp.operate {s : Gui} (h : KeepsUp cat s) (answer : Answer) (op : Op) (ops : List Op)
    (breaks : Bool) : KeepsUp cat (s.operate cat.gettext answer op ops breaks) := by
  cases op with
  | update u =>
    simp only [Gui.operate]
    split
    · exact h.same rfl rfl rfl
    · exact h.same rfl rfl (Fifo.send_taken ..)
  | _ =>
    simp only [Gui.operate]
    split <;> exact h.same rfl rfl rfl

theorem not_panicked_of_runs {gtk : Gtk} (h : gtk.runs = true) (p : Panic) : gtk ≠ .panicked p := by
  rintro rfl
  cases h

theorem KeepsUp.step {s t : Gui} {l : Label} (h : KeepsUp cat s) (hshown : shownDevices.Held s)
    (hstep : Gui.step cat qrFits qrCode s l = some t) : KeepsUp cat t := by
  cases moves_of_step hstep with
  | activated hgtk =>
    refine ⟨fun _ => h.screen ?_, fun msg hpanic => by cases hpanic⟩
    intro p hpanic
    rw [hgtk] at hpanic
    cases hpanic
  | activatedLate => exact ⟨fun hgtk => absurd rfl (hgtk _), fun msg hpanic => by cases hpanic⟩
  | acted hgtk hact => exact h.acted hact
  | spawned hgtk hevent hact => exact (h.acted hact).same rfl rfl rfl
  | asked hgtk hact => exact (h.acted hact).closeRequest
  | polled => exact h.same rfl rfl rfl
  | polledLate => exact ⟨fun hgtk => absurd rfl (hgtk _), fun msg hpanic => by cases hpanic⟩
  | @updated u updates window hgtk hrecv hwindow =>
    have htaken := (Fifo.recv_some hrecv).2.1
    refine ⟨fun _ => ?_, h.noTodo⟩
    have hreceived := (h.screen (not_panicked_of_runs hgtk)).receive hwindow
    rwa [← htaken] at hreceived
  | @updatePanicked u updates p hgtk hrecv hwindow =>
    refine ⟨fun hgtk => absurd rfl (hgtk _), fun msg hpanic => ?_⟩
    cases hpanic
    exact receive_todo hwindow (hshown.updates u (Fifo.mem_of_recv hrecv))
  | interrupted => exact ⟨fun hgtk => (h.screen hgtk).interrupted, h.noTodo⟩
  | closed hgtk =>
    have hclosed := h.closeRequest
    refine ⟨fun _ => hclosed.screen ?_, fun msg hpanic => by cases hpanic⟩
    intro p hpanic
    unfold Gui.closeRequest at hpanic
    split at hpanic
    · rw [hgtk] at hpanic
      cases hpanic
    · rw [hgtk] at hpanic
      cases hpanic
  | quit hgtk =>
    refine ⟨fun _ => h.screen ?_, fun msg hpanic => by cases hpanic⟩
    intro p hpanic
    rw [hgtk] at hpanic
    cases hpanic
  | @viewTaken event events hstage hrecv =>
    have hevents : KeepsUp cat { s with events } := h.same rfl rfl rfl
    exact hevents.take _
  | @backgroundTaken event background hstage hrecv =>
    have hbackground : KeepsUp cat { s with background } := h.same rfl rfl rfl
    exact hbackground.take _
  | worked => exact h.operate ..
  | _ => exact h.same rfl rfl rfl

theorem keepsUp_of_run {request : UiService.ViewRequest} {ls : List Label} {s : Gui}
    (h : Machine.exec (step cat qrFits qrCode) (run cat request) ls = some s) :
    KeepsUp cat s := by
  have hstart : KeepsUp cat (run cat request) ∧ shownDevices.Held (run cat request) :=
    ⟨⟨fun _ => Window.after_start, fun msg hpanic => by cases hpanic⟩,
      Marks.held_start trivial request⟩
  have hfresh : ∀ s l t, shownDevices.Fresh s l t :=
    fun _ _ _ => ⟨fun _ _ => trivial, fun _ _ _ _ _ => trivial⟩
  have hinvariant := Machine.exec_invariant
    (I := fun s => KeepsUp cat s ∧ shownDevices.Held s)
    (fun s l t hs _ hl => ⟨hs.1.step hs.2 hl, hs.2.step shownDevices_respected (hfresh s l t) hl⟩)
    hstart (Machine.along_trivial _ _ ls) h
  exact hinvariant.1

/-- Whatever the order is in which the two loops move and the user acts: the properties are as the
update sets them that the window has received last, and what it says can be seen exactly if the page
has a place for it that the window has been turned to; the entry for the PIN is on its page and only
after a prompt for the PIN, the button for a new PIN only after a failure for want of one, and never
both. No branch is reached that is still to be written. -/
theorem prompts_in_their_place {request : UiService.ViewRequest} {ls : List Label} {s : Gui}
    (h : Machine.exec (step cat qrFits qrCode) (run cat request) ls = some s) :
    (∀ msg, s.gtk ≠ .panicked (.todo msg)) ∧
    ((∀ p, s.gtk ≠ .panicked p) →
      (s.window.stack ∈ pagesAfter s.updates.taken ∧
        s.window.hybridTransportAvailable = hybridAfter s.updates.taken) ∧
      (∀ u, s.updates.taken.getLast? = some u → s.window.Follows cat u ∧
        (s.window.Displays cat u ↔ s.window.HasPlace u)) ∧
      (s.window.usbNfcPinEntryVisible = true → s.window.pinEntryShown = true ∧
        s.window.startSettingNewPinVisible = false ∧ ∃ attemptsLeft,
          s.updates.taken.getLast? = some (.needsPin attemptsLeft) ∧
          s.window.promptShown = some (Window.pinPrompt cat attemptsLeft)) ∧
      (s.window.startSettingNewPinVisible = true →
        (s.window.newPinShown = true ∨ s.window.stack = .setNewPin) ∧ ∃ error,
          s.updates.taken.getLast? = some (.pinNotSet error) ∧
          s.window.prompt = Window.pinNotSetText cat error)) := by
  have hkeeps := keepsUp_of_run h
  refine ⟨hkeeps.noTodo, fun hgtk => ?_⟩
  have hafter := hkeeps.screen hgtk
  refine ⟨⟨hafter.page, hafter.hybrid⟩, fun u hu => ⟨hafter.follows u hu, ?_⟩, ?_, ?_⟩
  · exact Window.displays_iff (hafter.follows u hu)
  · intro hentry
    obtain ⟨attemptsLeft, hlast, hfollows⟩ := hafter.pinEntry hentry
    obtain ⟨hprompt, hshown⟩ := (Window.displays_iff hfollows).mpr trivial
    exact ⟨hshown, hfollows.newPin, attemptsLeft, hlast, hprompt⟩
  · intro hbutton
    obtain ⟨error, hlast, hfollows⟩ := hafter.newPin hbutton
    refine ⟨?_, error, hlast, hfollows.prompt _ rfl⟩
    have hpage := hfollows.page _ rfl
    simp only [List.mem_cons, List.not_mem_nil, or_false] at hpage
    refine hpage.imp (fun hfailed => ?_) id
    exact ((Window.displays_iff hfollows).mpr hfailed).2

/- The messages in English. -/
def english : Catalogue := ⟨id, fun one many n => if n = 1 then one else many⟩

def sampleRequest : UiService.ViewRequest :=
  ⟨.publicKeyGet, "example.com", ⟨"org.example.App", "App", 7⟩, [⟨"0", .usb⟩], none⟩

def sampleAnswer : Answer := ⟨.working, true, true⟩

/- A key asks for its PIN, as soon as the window is there. -/
def samplePin : List Label :=
  [.activate, .deliver (.needsPin (some 3)), .takeBackground, .work sampleAnswer, .update]

theorem prompts_in_their_place_pin :
    ∃ s, Machine.exec (step english (fun _ => true) fun _ => .error .unwrap)
      (run english sampleRequest) samplePin = some s ∧ s.window.pinEntryShown = true ∧
      s.window.promptShown = some "Enter your PIN. 3 attempts remaining." := by
  have hrun : Machine.exec (step english (fun _ => true) fun _ => .error .unwrap)
      (run english sampleRequest) samplePin = some _ := rfl
  obtain ⟨-, -, hentry, -⟩ := (prompts_in_their_place hrun).2 (fun p hp => by cases hp)
  obtain ⟨hshown, -, attemptsLeft, hlast, hprompt⟩ := hentry rfl
  cases hlast
  exact ⟨_, hrun, hshown, hprompt⟩

/- Of several devices one is to be selected, but the page with the QR code does not say so. -/
example : ∃ s, Machine.exec (step english (fun _ => true) fun _ => .error .unwrap)
    (run english sampleRequest) [.activate, .deliver .usbSelectingDevice, .takeBackground,
      .work sampleAnswer, .update] = some s ∧
    s.updates.taken = [.selectingDevice] ∧ s.window.promptShown = none :=
  ⟨_, rfl, rfl, rfl⟩

/-! ### At rest -/

/-- The loop is on its way to the updates `total`. -/
def Brings (total : List ViewUpdate) (s : Gui) : Prop :=
  match s.stage with
  | .waiting => s.updates.sent = total
  | .handling op ops _ =>
    ∃ us : List ViewUpdate, op :: ops = us.map .update ∧ s.updates.sent ++ us = total
  | _ => True

theorem Brings.same {total : List ViewUpdate} {s t : Gui} (h : Brings total s)
    (hstage : t.stage = s.stage) (hsent : t.updates.sent = s.updates.sent) : Brings total t := by
  unfold Brings
  rw [hstage, hsent]
  exact h

/-- An update that is handed over is the next of them. -/
theorem Brings.operate {total : List ViewUpdate} {s : Gui} {op : Op} {ops : List Op}
    {breaks : Bool} (h : Brings total s) (hstage : s.stage = .handling op ops breaks)
    (answer : Answer) : Brings total (s.operate cat.gettext answer op ops breaks) := by
  unfold Brings at h
  rw [hstage] at h
  obtain ⟨us, hops, htotal⟩ := h
  cases us with
  | nil => cases hops
  | cons v us =>
    cases hops
    simp only [Gui.operate]
    split
    · trivial
    · cases us with
      | nil =>
        cases breaks with
        | true => trivial
        | false => exact htotal
      | cons w us =>
        refine ⟨w :: us, rfl, ?_⟩
        show s.updates.sent ++ [v] ++ (w :: us) = total
        rw [List.append_assoc]
        exact htotal

theorem Brings.step {total : List ViewUpdate} {s t : Gui} {l : Label} (h : Brings total s)
    (hview : l ≠ .takeView) (hbackground : l ≠ .takeBackground)
    (hstep : Gui.step cat qrFits qrCode s l = some t) : Brings total t := by
  cases moves_of_step hstep with
  | asked => exact h.same (closeRequest_stage _) (congrArg Fifo.sent (closeRequest_updates _))
  | closed => exact h.same (closeRequest_stage _) (congrArg Fifo.sent (closeRequest_updates _))
  | updated hgtk hrecv => exact h.same rfl (Fifo.recv_some hrecv).1
  | updatePanicked hgtk hrecv => exact h.same rfl (Fifo.recv_some hrecv).1
  | viewTaken => exact absurd rfl hview
  | backgroundTaken => exact absurd rfl hbackground
  | worked hstage => exact h.operate hstage _
  | finished => trivial
  | loopCancelled => trivial
  | _ => exact h.same rfl rfl

/-- When all updates have arrived and the loop waits for another event, the window has received the
updates of the event that was taken last after those from before. -/
theorem screen_at_rest {request : UiService.ViewRequest} {ls ms : List Label} {s r : Gui}
    {event : BackgroundEvent} {background : Fifo BackgroundEvent} {us : List ViewUpdate}
    {breaks : Bool}
    (hls : Machine.exec (step cat qrFits qrCode) (run cat request) ls = some s)
    (hrecv : s.background.recv = some (event, background))
    (hevent : onBackground cat.gettext qrCode event = .ok (us.map .update, breaks))
    (hsome : us ≠ [])
    (hrun : Machine.exec (step cat qrFits qrCode) (run cat request) (ls ++ .takeBackground :: ms) =
      some r)
    (hquiet : ∀ l ∈ ms, l ≠ .takeView ∧ l ≠ .takeBackground)
    (hstage : r.stage = .waiting) (hwaiting : r.updates.waiting = [])
    (hgtk : ∀ p, r.gtk ≠ .panicked p) : r.window.After cat (s.updates.sent ++ us) := by
  obtain ⟨t, hstep, hms⟩ := Machine.exec_split hls hrun
  have hbrings : Brings (s.updates.sent ++ us) t := by
    cases moves_of_step hstep with
    | backgroundTaken hs hrecv' =>
      rw [hrecv] at hrecv'
      cases hrecv'
      simp only [Gui.take, EventLoop.handle, hevent, Except.map]
      cases us with
      | nil => exact absurd rfl hsome
      | cons v us => exact ⟨v :: us, rfl, rfl⟩
  have hrest := Machine.exec_invariant (I := Brings (s.updates.sent ++ us))
    (fun s l t hs hl hstep => hs.step hl.1 hl.2 hstep) hbrings (Machine.along_of_forall hquiet) hms
  have htaken : r.updates.taken = r.updates.sent := by
    rw [← r.updates.taken_append_waiting, hwaiting, List.append_nil]
  unfold Brings at hrest
  rw [hstage] at hrest
  have hscreen := (keepsUp_of_run hrun).screen hgtk
  rwa [htaken, hrest] at hscreen

/-! ### From the device to the screen -/

/- The message for a class of errors; there is no message for a cancellation. -/
def errorMessage : ErrorClass → String
  | .internal => "Something went wrong while retrieving a credential. Please try again later or use a different authenticator."
  | .timedOut => "The credential request timed out. Please try again."
  | .cancelled => ""
  | .authenticator => "Something went wrong while retrieving a credential. Please try again later or use a different authenticator."
  | .noCredentials => "No matching credentials found on this authenticator."
  | .credentialExcluded => "This credential is already registered on this authenticator."
  | .pinAttemptsExhausted => "No more PIN attempts allowed. Try removing your device and plugging it back in."
  | .pinNotSet => "This server requires your device to have additional protection like a PIN, which is not set. Please set a PIN for this device and try again."

/-- What the user has to see of what the API documents. -/
def ShowsDocumented (cat : Catalogue) (w : Window) : Documented → Prop
  | .ceremonyCompleted => w.stack = .completed ∧ w.closing = true
  | .needsPin attemptsLeft =>
    w.promptShown = some (Window.pinPrompt cat attemptsLeft) ∧ w.pinEntryShown = true
  | .pinNotSet error =>
    w.promptShown = some (Window.pinNotSetText cat error) ∧ w.newPinShown = true
  | .needsUserVerification attemptsLeft =>
    w.promptShown = some (Window.userVerificationPrompt cat attemptsLeft)
  | .needsUserPresence => w.promptShown = some (cat.gettext "Touch your device")
  | .selectingCredential creds =>
    w.credentialsShown = some (creds.map Window.credentialButton)
  | .hybridStarted qrCode => ∃ text, w.qrCodeShown = some text ∧ text.toUTF8.toList = qrCode
  | .hybridConnecting => w.promptShown = some (cat.gettext hybridConnectingText) ∧
    w.spinnerShown = true ∧ w.qrCodeShown = none
  | .hybridConnected => w.promptShown = some (cat.gettext hybridConnectedText) ∧
    w.spinnerShown = false ∧ w.qrCodeShown = none
  | .nfcConnected => w.promptShown = some "Place your security key on your NFC reader"
  | .usbConnected => w.promptShown = some (cat.gettext "Insert your security key.")
  | .error kind => w.promptShown = some (cat.gettext (errorMessage kind))

/-- The page is one with a place for that. -/
def HasPlaceFor (w : Window) : Documented → Prop
  | .needsUserVerification _ => w.stack.bindsPrompt = true
  | .needsUserPresence => w.stack.bindsPrompt = true
  | .hybridConnected => w.stack.bindsPrompt = true
  | .hybridStarted _ => w.mobileSectionShown = true
  | .pinNotSet _ => w.stack = .failed
  | .ceremonyCompleted | .needsPin _ | .selectingCredential _ | .hybridConnecting | .nfcConnected
  | .usbConnected | .error _ => True

/-- The pages that the window is turned to for it, if it is. -/
def documentedPages : Documented → Option (List Page)
  | .ceremonyCompleted => some [.completed]
  | .needsPin _ => some [.usbOrNfc]
  | .pinNotSet _ => some [.failed, .setNewPin]
  | .selectingCredential _ => some [.chooseCredential]
  | .hybridConnecting => some [.hybridQr]
  | .nfcConnected => some [.usbOrNfc]
  | .usbConnected => some [.usbOrNfc]
  | .error _ => some [.failed]
  | .needsUserVerification _ | .needsUserPresence | .hybridStarted _ | .hybridConnected => none

/-- The window shows what is documented exactly if its page has a place for it; the page is the one
that is turned to for it, or else one that the updates before have turned to. -/
structure AsDocumented (cat : Catalogue) (w : Window) (before : List ViewUpdate)
    (content : Documented) : Prop where
  shows : ShowsDocumented cat w content ↔ HasPlaceFor w content
  page : w.stack ∈ (documentedPages content).getD (pagesAfter before)
  hybrid : w.hybridTransportAvailable = hybridAfter before

/- The only update of an event. -/
theorem asDocumented_of_update {w : Window} {before : List ViewUpdate} {content : Documented}
    {u : ViewUpdate} (hw : w.After cat (before ++ [u]))
    (hshows : ShowsDocumented cat w content ↔ w.Displays cat u)
    (hplace : HasPlaceFor w content ↔ w.HasPlace u) (hpages : documentedPages content = u.pages)
    (hdevices : ∀ devices, u ≠ .setDevices devices) : AsDocumented cat w before content where
  shows := by
    rw [hshows, hplace]
    exact Window.displays_iff (hw.follows u List.getLast?_concat)
  page := by
    have hpage := hw.page
    rwa [pagesAfter_append, List.foldl_cons, List.foldl_nil, ← hpages] at hpage
  hybrid := by
    have hhybrid := hw.hybrid
    unfold hybridAfter at hhybrid
    rw [List.foldl_append, List.foldl_cons, List.foldl_nil] at hhybrid
    cases u with
    | setDevices devices => exact absurd rfl (hdevices devices)
    | _ => exact hhybrid

/-- An event that arrived makes updates, and the window that has received them last shows what the
event documents. -/
theorem documented_update {event : BackgroundEvent} {secret : Bytes} {content : Documented}
    {ops : List Op} {breaks : Bool}
    (hcontent : Delivered.documented ⟨event.readAttempts, secret⟩ = some content)
    (hcancel : content ≠ .error .cancelled)
    (hqr : ∀ fd text, event.readAttempts = .hybridStarted fd → qrCode fd = .ok text →
      text.toUTF8.toList = secret)
    (h : onBackground cat.gettext qrCode event.readAttempts = .ok (ops, breaks)) :
    ∃ us : List ViewUpdate, ops = us.map .update ∧ us ≠ [] ∧ ∀ before (w : Window),
      w.After cat (before ++ us) → AsDocumented cat w before content := by
  cases event with
  | hybridStarted fd =>
    cases hcontent
    obtain ⟨text, htext, rfl, -⟩ := onBackground_hybridStarted h
    refine ⟨[_], rfl, List.cons_ne_nil _ _, fun before w hw => ?_⟩
    refine asDocumented_of_update hw ⟨?_, ?_⟩ Iff.rfl rfl fun _ h => by cases h
    · rintro ⟨shown, hshown, -⟩
      exact (Window.displays_iff (hw.follows _ List.getLast?_concat)).mpr
        (Window.mobileSectionShown_of_qrCode hshown)
    · intro hshown
      exact ⟨text, hshown, hqr fd text rfl htext⟩
  | hybridConnecting =>
    cases hcontent
    cases h
    refine ⟨[_, _], rfl, List.cons_ne_nil _ _, fun before w hw => ?_⟩
    rw [List.append_cons] at hw
    have hwaiting : AsDocumented cat w (before ++ [.waitingForDevice (bogus .hybridQr)])
        .hybridConnecting := asDocumented_of_update hw Iff.rfl Iff.rfl rfl fun _ h => by cases h
    refine ⟨hwaiting.shows, hwaiting.page, hwaiting.hybrid.trans ?_⟩
    simp [hybridAfter]
  | needsPin attemptsLeft | needsUserVerification attemptsLeft =>
    simp only [BackgroundEvent.readAttempts, attemptsLeft_getD, Delivered.documented,
      knownAttempts_idem] at hcontent h
    cases hcontent
    cases h
    exact ⟨[_], rfl, List.cons_ne_nil _ _, fun before w hw =>
      asDocumented_of_update hw Iff.rfl Iff.rfl rfl fun _ h => by cases h⟩
  | nfcConnected | usbConnected =>
    cases hcontent
    cases h
    refine ⟨[_], rfl, List.cons_ne_nil _ _, fun before w hw => ?_⟩
    refine asDocumented_of_update hw ?_ Iff.rfl rfl fun _ h => by cases h
    simp [ShowsDocumented, Window.Displays, bogus, devicePrompt]
  | ceremonyCompleted | pinNotSet error | needsUserPresence | selectingCredential creds
  | hybridConnected =>
    cases hcontent
    cases h
    exact ⟨[_], rfl, List.cons_ne_nil _ _, fun before w hw =>
      asDocumented_of_update hw Iff.rfl Iff.rfl rfl fun _ h => by cases h⟩
  | errorCancelled =>
    cases hcontent
    exact absurd rfl hcancel
  | errorInternal | errorTimedOut | errorAuthenticator | errorNoCredentials
  | errorCredentialExcluded | errorPinAttemptsExhausted | errorPinNotSet =>
    cases hcontent
    cases h
    exact ⟨[_], rfl, List.cons_ne_nil _ _, fun before w hw =>
      asDocumented_of_update hw Iff.rfl Iff.rfl rfl fun _ h => by cases h⟩
  | _ => cases hcontent

/-- A state of a device that reaches the GUI is on the screen as it is documented, once the GUI has
taken it and is at rest again, exactly if the window is on a page with a place for it; exhausted PIN
attempts as another error of the authenticator. -/
theorem shown_as_documented {calls : WriteCalls} {st : DeviceStateUpdate} {d : Delivered}
    {content : Documented} (hdeliver : st.deliver calls = .ok (some (.ok d)))
    (hst : st.documented = some content) (hcancel : content ≠ .error .cancelled)
    (hqr : ∀ fd text, d.event = .hybridStarted fd → qrCode fd = .ok text →
      text.toUTF8.toList = d.secret)
    {request : UiService.ViewRequest} {ls ms : List Label} {s r : Gui}
    {background : Fifo BackgroundEvent}
    (hls : Machine.exec (step cat qrFits qrCode) (run cat request) ls = some s)
    (hrecv : s.background.recv = some (d.event, background))
    (hrun : Machine.exec (step cat qrFits qrCode) (run cat request) (ls ++ .takeBackground :: ms) =
      some r)
    (hquiet : ∀ l ∈ ms, l ≠ .takeView ∧ l ≠ .takeBackground)
    (hstage : r.stage = .waiting) (hwaiting : r.updates.waiting = [])
    (hgtk : ∀ p, r.gtk ≠ .panicked p) :
    AsDocumented cat r.window s.updates.sent content.reported := by
  obtain ⟨event, content', hevent, hst', hd⟩ := deliver_some hdeliver
  cases hd
  rw [hst] at hst'
  cases hst'
  have hkept := event_kept hevent
  have hcontent := hkept.documented (by rw [hkept.sent, hst]; rfl)
  rw [hst, Option.map_some] at hcontent
  have hcancel' : content.reported ≠ .error .cancelled := by
    cases content with
    | error kind => cases kind <;> simp_all [Documented.reported]
    | _ => simp [Documented.reported]
  cases hhandled : onBackground cat.gettext qrCode event.readAttempts with
  | error p =>
    -- the loop has panicked, and does not come to rest
    obtain ⟨t, hstep, hms⟩ := Machine.exec_split hls hrun
    have ht : t.stage.running = false := by
      cases moves_of_step hstep with
      | backgroundTaken _ hrecv' =>
        rw [hrecv] at hrecv'
        cases hrecv'
        simp only [Gui.take, EventLoop.handle, hhandled]
        rfl
    have hr := Machine.exec_invariant (I := fun s => s.stage.running = false)
      (fun s l t hs _ hl => not_running_step hs hl) ht (Machine.along_trivial _ _ ms) hms
    rw [hstage] at hr
    cases hr
  | ok handled =>
    obtain ⟨ops, breaks⟩ := handled
    obtain ⟨us, rfl, hsome, hshows⟩ := documented_update hcontent hcancel' hqr hhandled
    exact hshows _ _ (screen_at_rest hls hrecv hhandled hsome hrun hquiet hstage hwaiting hgtk)

theorem shown_as_documented_pin :
    ∃ r, Machine.exec (step english (fun _ => true) fun _ => .error .unwrap)
      (run english sampleRequest) samplePin = some r ∧
      AsDocumented english r.window [] (.needsPin (some 3)) ∧
      ShowsDocumented english r.window (.needsPin (some 3)) := by
  have hdeliver : DeviceStateUpdate.deliver .working (.nfc (.needsPin (some 3) 1)) =
      .ok (some (.ok ⟨.needsPin (some 3), []⟩)) := rfl
  have hls : Machine.exec (step english (fun _ => true) fun _ => .error .unwrap)
      (run english sampleRequest) [.activate, .deliver (.needsPin (some 3))] = some _ := rfl
  have hrun : Machine.exec (step english (fun _ => true) fun _ => .error .unwrap)
      (run english sampleRequest) ([.activate, .deliver (.needsPin (some 3))] ++
        .takeBackground :: [.work sampleAnswer, .update]) = some _ := rfl
  have hshown := shown_as_documented hdeliver rfl (by decide) (fun fd text h => by cases h) hls rfl
    hrun (by simp) rfl rfl (fun p hp => by cases hp)
  exact ⟨_, hrun, hshown, hshown.shows.mpr trivial⟩

/- The page with the credentials does not say that the device has to be touched. -/
example : ∃ r, Machine.exec (step english (fun _ => true) fun _ => .error .unwrap)
    (run english sampleRequest) [.activate, .deliver (.selectingCredential []),
      .deliver .needsUserPresence, .takeBackground, .work sampleAnswer, .takeBackground,
      .work sampleAnswer, .update, .update] = some r ∧
    r.updates.taken.getLast? = some .needsUserPresence ∧ r.window.promptShown = none :=
  ⟨_, rfl, rfl, rfl⟩

end Gui

end Credentialsd
