import Credentialsd.GuiMoves

/-!
# What is on a page (`credentialsd-ui/data/resources/ui/window.blp`)

The title and the subtitle are above the stack. Everything else is bound on some of the pages, and is
on the screen only while the window is on one of them. Every update leaves the properties as it has
to, whatever they were before; whether that can be seen depends on the page.
-/

namespace Credentialsd

namespace Gui

/- The pages with a label for the prompt. -/
def Page.bindsPrompt : Page → Bool
  | .usbOrNfc => true
  | .hybridQr => true
  | .failed => true
  | _ => false

namespace Window

/-! ### What is bound -/

def promptShown (w : Window) : Option String :=
  if w.stack.bindsPrompt then some w.prompt else none

/- On the start page there is a section for mobile devices, with the QR code. -/
def mobileSectionShown (w : Window) : Bool := w.stack == .startPage && w.hybridTransportAvailable

def scanQrPromptShown (w : Window) : Option String :=
  if w.mobileSectionShown then some w.scanQrPrompt else none

def qrCodeShown (w : Window) : Option String :=
  if w.mobileSectionShown && w.qrCodeVisible then w.qrCodePaintable else none

def activateUsbPromptShown (w : Window) : Option String :=
  if w.stack == .startPage then some w.activateUsbPrompt else none

def pinEntryShown (w : Window) : Bool := w.stack == .usbOrNfc && w.usbNfcPinEntryVisible

def spinnerShown (w : Window) : Bool := w.stack == .hybridQr && w.qrSpinnerVisible

def credentialsShown (w : Window) : Option (List CredentialButton) :=
  if w.stack == .chooseCredential then some w.credentials else none

/- The buttons below a failure. -/
def newPinShown (w : Window) : Bool := w.stack == .failed && w.startSettingNewPinVisible

end Window

/-! ### What an update says -/

def Device.isHybrid (device : Device) : Bool :=
  device.transport == .hybridLinked || device.transport == .hybridQr

/- The page and the prompt for a device that the window waits for. -/
def devicePage : Transport → Option Page
  | .usb => some .usbOrNfc
  | .nfc => some .usbOrNfc
  | .hybridQr => some .hybridQr
  | _ => none

def devicePrompt (cat : Catalogue) : Transport → Option String
  | .usb => some (cat.gettext "Insert your security key.")
  | .hybridQr => some ""
  | .nfc => some "Place your security key on your NFC reader"
  | _ => none

def hybridConnectingText : String :=
  "Connecting to your device. Make sure both devices are near each other and have Bluetooth enabled."

def hybridConnectedText : String := "Device connected. Follow the instructions on your device"

namespace ViewUpdate

def asksForPin : ViewUpdate → Bool
  | .needsPin _ => true
  | _ => false

def asksForNewPin : ViewUpdate → Bool
  | .pinNotSet _ => true
  | _ => false

def fails : ViewUpdate → Bool
  | .failed _ => true
  | .pinNotSet _ => true
  | _ => false

def prompt (cat : Catalogue) : ViewUpdate → Option String
  | .waitingForDevice device => devicePrompt cat device.transport
  | .selectingDevice =>
    some (cat.gettext "Multiple devices found. Please select with which to proceed.")
  | .needsPin attemptsLeft => some (Window.pinPrompt cat attemptsLeft)
  | .pinNotSet error => some (Window.pinNotSetText cat error)
  | .needsUserVerification attemptsLeft => some (Window.userVerificationPrompt cat attemptsLeft)
  | .needsUserPresence => some (cat.gettext "Touch your device")
  | .hybridNeedsQrCode _ =>
    some (cat.gettext "Scan the QR code with your device to begin authentication.")
  | .hybridConnecting => some (cat.gettext hybridConnectingText)
  | .hybridConnected => some (cat.gettext hybridConnectedText)
  | .failed error => some error
  | .setTitle _ | .setDevices _ | .setCredentials _ | .completed | .cancelled => none

/-- The pages that an update turns to, if it does: from a failure for want of a PIN the user may go
on to the page for a new one. -/
def pages : ViewUpdate → Option (List Page)
  | .setCredentials _ => some [.chooseCredential]
  | .waitingForDevice device => (devicePage device.transport).map fun page => [page]
  | .needsPin _ => some [.usbOrNfc]
  | .pinNotSet _ => some [.failed, .setNewPin]
  | .hybridConnecting => some [.hybridQr]
  | .completed => some [.completed]
  | .failed _ => some [.failed]
  | .setTitle _ | .setDevices _ | .selectingDevice | .needsUserVerification _ | .needsUserPresence
  | .hybridNeedsQrCode _ | .hybridConnected | .cancelled => none

end ViewUpdate

/-- Where the window may be after some updates: where the last one has turned to that turns to a
page. -/
def pagesAfter (us : List ViewUpdate) : List Page :=
  us.foldl (fun pages u => u.pages.getD pages) [.startPage]

/- What the last list of devices says. -/
def hybridAfter (us : List ViewUpdate) : Bool :=
  us.foldl (fun available u => match u with
    | .setDevices devices => devices.any Device.isHybrid
    | _ => available) false

theorem pagesAfter_append (us vs : List ViewUpdate) : pagesAfter (us ++ vs) =
    vs.foldl (fun pages u => u.pages.getD pages) (pagesAfter us) := List.foldl_append

theorem pagesAfter_last {us : List ViewUpdate} {u : ViewUpdate} {pages : List Page}
    (hlast : us.getLast? = some u) (hpages : u.pages = some pages) : pagesAfter us = pages := by
  obtain ⟨vs, rfl⟩ := List.getLast?_eq_some_iff.mp hlast
  rw [pagesAfter_append, List.foldl_cons, hpages]
  rfl

namespace Window

variable (cat : Catalogue)

/-- The properties are as the update sets them, besides the prompt. -/
def Holds (w : Window) : ViewUpdate → Prop
  | .setTitle texts => w.title = texts.title ∧ w.subtitle = texts.subtitle ∧
    w.scanQrPrompt = texts.qrPrompt ∧ w.activateUsbPrompt = texts.usbPrompt
  | .setDevices devices => w.hybridTransportAvailable = devices.any Device.isHybrid
  | .setCredentials credentials => w.credentials = credentials.map credentialButton
  | .waitingForDevice device => w.selectedDevice = some (deviceObject cat device)
  | .hybridNeedsQrCode qrCode => w.qrCodeVisible = true ∧ w.qrCodePaintable = some qrCode
  | .hybridConnecting => w.qrSpinnerVisible = true ∧ w.qrCodeVisible = false
  | .hybridConnected => w.qrSpinnerVisible = false ∧ w.qrCodeVisible = false
  | .completed => w.qrSpinnerVisible = false ∧ w.closing = true
  | .failed _ => w.qrSpinnerVisible = false
  | .cancelled => w.closing = true
  | .selectingDevice | .needsPin _ | .pinNotSet _ | .needsUserVerification _
  | .needsUserPresence => True

/-- The properties after an update: what it sets, and nothing that only others set. -/
structure Follows (w : Window) (u : ViewUpdate) : Prop where
  holds : w.Holds cat u
  prompt : ∀ text, u.prompt cat = some text → w.prompt = text
  page : ∀ pages, u.pages = some pages → w.stack ∈ pages
  pinEntry : w.usbNfcPinEntryVisible = u.asksForPin
  newPin : w.startSettingNewPinVisible = u.asksForNewPin
  failed : w.failed = u.fails

/-- What an update says can be seen. -/
def Displays (w : Window) : ViewUpdate → Prop
  | .setTitle texts => w.title = texts.title ∧ w.subtitle = texts.subtitle ∧
    w.scanQrPromptShown = some texts.qrPrompt ∧ w.activateUsbPromptShown = some texts.usbPrompt
  | .setDevices devices => w.mobileSectionShown = devices.any Device.isHybrid
  | .setCredentials credentials => w.credentialsShown = some (credentials.map credentialButton)
  | .waitingForDevice device =>
    ∀ text, devicePrompt cat device.transport = some text → w.promptShown = some text
  | .needsPin attemptsLeft =>
    w.promptShown = some (pinPrompt cat attemptsLeft) ∧ w.pinEntryShown = true
  | .pinNotSet error => w.promptShown = some (pinNotSetText cat error) ∧ w.newPinShown = true
  | .hybridNeedsQrCode qrCode => w.qrCodeShown = some qrCode
  | .hybridConnecting => w.promptShown = some (cat.gettext hybridConnectingText) ∧
    w.spinnerShown = true ∧ w.qrCodeShown = none
  | .hybridConnected => w.promptShown = some (cat.gettext hybridConnectedText) ∧
    w.spinnerShown = false ∧ w.qrCodeShown = none
  | .completed => w.stack = .completed ∧ w.closing = true
  | .cancelled => w.closing = true
  | .failed error => w.promptShown = some error
  | .selectingDevice => w.promptShown =
    some (cat.gettext "Multiple devices found. Please select with which to proceed.")
  | .needsUserVerification attemptsLeft =>
    w.promptShown = some (userVerificationPrompt cat attemptsLeft)
  | .needsUserPresence => w.promptShown = some (cat.gettext "Touch your device")

/-- The page is one with a place for what an update says. -/
def HasPlace (w : Window) : ViewUpdate → Prop
  | .setTitle _ => w.mobileSectionShown = true
  | .setDevices devices => w.stack = .startPage ∨ devices.any Device.isHybrid = false
  | .selectingDevice => w.stack.bindsPrompt = true
  | .needsUserVerification _ => w.stack.bindsPrompt = true
  | .needsUserPresence => w.stack.bindsPrompt = true
  | .pinNotSet _ => w.stack = .failed
  | .hybridNeedsQrCode _ => w.mobileSectionShown = true
  | .hybridConnected => w.stack.bindsPrompt = true
  | .setCredentials _ | .waitingForDevice _ | .needsPin _ | .hybridConnecting | .completed
  | .failed _ | .cancelled => True

variable {cat}

theorem promptShown_iff {w : Window} {text : String} (h : w.prompt = text) :
    w.promptShown = some text ↔ w.stack.bindsPrompt = true := by
  unfold promptShown
  split
  · rename_i hpage
    exact iff_of_true (congrArg some h) hpage
  · rename_i hpage
    exact iff_of_false nofun hpage

theorem promptShown_of_page {w : Window} {u : ViewUpdate} {page : Page} {text : String}
    (h : w.Follows cat u) (hpages : u.pages = some [page]) (hbinds : page.bindsPrompt = true)
    (htext : u.prompt cat = some text) : w.promptShown = some text := by
  have hstack : w.stack = page := List.mem_singleton.mp (h.page _ hpages)
  rw [promptShown_iff (h.prompt text htext), hstack]
  exact hbinds

theorem mobileSectionShown_of_qrCode {w : Window} {text : String}
    (h : w.qrCodeShown = some text) : w.mobileSectionShown = true := by
  unfold qrCodeShown at h
  split at h
  · rename_i hshown
    exact (Bool.and_eq_true_iff.mp hshown).1
  · cases h

theorem devicePage_of_prompt {transport : Transport} {text : String}
    (h : devicePrompt cat transport = some text) :
    ∃ page, devicePage transport = some page ∧ page.bindsPrompt = true := by
  cases transport with
  | usb | nfc | hybridQr => exact ⟨_, rfl, rfl⟩
  | _ => cases h

/-- What an update says can be seen exactly if the page has a place for it. -/
theorem displays_iff {w : Window} {u : ViewUpdate} (h : w.Follows cat u) :
    w.Displays cat u ↔ w.HasPlace u := by
  cases u with
  | setTitle texts =>
    obtain ⟨htitle, hsubtitle, hscan, husb⟩ := h.holds
    simp only [Displays, HasPlace, scanQrPromptShown, activateUsbPromptShown, htitle, hsubtitle,
      hscan, husb, true_and]
    cases hsection : w.mobileSectionShown with
    | true =>
      have hstack : (w.stack == .startPage) = true := by
        simp only [mobileSectionShown, Bool.and_eq_true] at hsection
        exact hsection.1
      simp [hstack]
    | false => simp
  | setDevices devices =>
    have hdevices : w.hybridTransportAvailable = devices.any Device.isHybrid := h.holds
    simp only [Displays, HasPlace, mobileSectionShown, hdevices]
    cases devices.any Device.isHybrid <;> simp
  | setCredentials credentials =>
    have hstack : w.stack = .chooseCredential := List.mem_singleton.mp (h.page _ rfl)
    have hcredentials : w.credentials = credentials.map credentialButton := h.holds
    simp [Displays, HasPlace, credentialsShown, hstack, hcredentials]
  | waitingForDevice device =>
    refine iff_of_true (fun text htext => ?_) trivial
    obtain ⟨page, hpage, hbinds⟩ := devicePage_of_prompt htext
    exact promptShown_of_page h (by rw [ViewUpdate.pages, hpage]; rfl) hbinds htext
  | needsPin attemptsLeft =>
    have hstack : w.stack = .usbOrNfc := List.mem_singleton.mp (h.page _ rfl)
    have hentry : w.usbNfcPinEntryVisible = true := h.pinEntry
    refine iff_of_true ⟨promptShown_of_page h rfl rfl rfl, ?_⟩ trivial
    rw [pinEntryShown, hstack, hentry]
    rfl
  | pinNotSet error =>
    have hbutton : w.startSettingNewPinVisible = true := h.newPin
    simp only [Displays, HasPlace, promptShown_iff (h.prompt _ rfl), newPinShown, hbutton]
    cases w.stack <;> simp [Page.bindsPrompt]
  | hybridNeedsQrCode qrCode =>
    obtain ⟨hvisible, hpaintable⟩ := h.holds
    simp [Displays, HasPlace, qrCodeShown, hvisible, hpaintable]
  | hybridConnecting =>
    have hstack : w.stack = .hybridQr := List.mem_singleton.mp (h.page _ rfl)
    obtain ⟨hspinner, hcode⟩ := h.holds
    refine iff_of_true ⟨promptShown_of_page h rfl rfl rfl, ?_, ?_⟩ trivial
    · rw [spinnerShown, hstack, hspinner]
      rfl
    · simp [qrCodeShown, hcode]
  | hybridConnected =>
    obtain ⟨hspinner, hcode⟩ := h.holds
    simp [Displays, HasPlace, promptShown_iff (h.prompt _ rfl), spinnerShown, qrCodeShown, hspinner,
      hcode]
  | completed =>
    exact iff_of_true ⟨List.mem_singleton.mp (h.page _ rfl), h.holds.2⟩ trivial
  | failed error => exact iff_of_true (promptShown_of_page h rfl rfl rfl) trivial
  | cancelled => exact iff_of_true h.holds trivial
  | selectingDevice | needsUserVerification attemptsLeft | needsUserPresence =>
    exact promptShown_iff (h.prompt _ rfl)

/-! ### One update -/

theorem setSelectedDevice_eq (w : Window) (device : Device) :
    w.setSelectedDevice (deviceObject cat device) = { w with
      selectedDevice := some (deviceObject cat device)
      stack := (devicePage device.transport).getD w.stack } := by
  have htransport : Transport.ofStr (deviceObject cat device).transport = .ok device.transport :=
    Transport.ofStr_asStr device.transport
  simp only [setSelectedDevice, htransport]
  cases device.transport <;> rfl

theorem waitingForDevice_ok {w w' : Window} {device : Device}
    (h : w.waitingForDevice cat device = .ok w') :
    w' = { w with
      prompt := (devicePrompt cat device.transport).getD w.prompt
      selectedDevice := some (deviceObject cat device)
      stack := (devicePage device.transport).getD w.stack } := by
  unfold waitingForDevice at h
  simp only [setSelectedDevice_eq] at h
  cases htransport : device.transport with
  | ble | hybridLinked =>
    rw [htransport] at h
    cases h
  | _ =>
    rw [htransport] at h
    cases h
    rfl

theorem hybridNeedsQrCode_ok {qrFits : String → Bool} {w w' : Window} {qrCode : String}
    (h : w.receive cat qrFits (.hybridNeedsQrCode qrCode) = .ok w') :
    w' = { w.unset with
      prompt := cat.gettext "Scan the QR code with your device to begin authentication."
      qrCodePaintable := some qrCode
      qrCodeVisible := true } := by
  simp only [receive, drawQrCode] at h
  split at h
  · cases h
    rfl
  · cases h

/-- Nothing of what the properties were before is in the way of an update. -/
theorem receive_follows {qrFits : String → Bool} {w w' : Window} {u : ViewUpdate}
    (h : w.receive cat qrFits u = .ok w') : w'.Follows cat u := by
  cases u with
  | setTitle texts =>
    cases h
    exact ⟨⟨rfl, rfl, rfl, rfl⟩, nofun, nofun, rfl, rfl, rfl⟩
  | setDevices devices =>
    cases h
    exact ⟨rfl, nofun, nofun, rfl, rfl, rfl⟩
  | setCredentials credentials =>
    cases h
    refine ⟨rfl, nofun, ?_, rfl, rfl, rfl⟩
    rintro _ ⟨⟩
    exact List.mem_singleton_self _
  | waitingForDevice device =>
    rw [waitingForDevice_ok h]
    refine ⟨rfl, ?_, ?_, rfl, rfl, rfl⟩
    · intro text htext
      show (devicePrompt cat device.transport).getD _ = text
      rw [show devicePrompt cat device.transport = some text from htext, Option.getD_some]
    · intro pages hpages
      obtain ⟨page, hpage, rfl⟩ := Option.map_eq_some_iff.mp hpages
      rw [hpage]
      exact List.mem_singleton_self _
  | hybridNeedsQrCode qrCode =>
    rw [hybridNeedsQrCode_ok h]
    refine ⟨⟨rfl, rfl⟩, ?_, nofun, rfl, rfl, rfl⟩
    rintro _ ⟨⟩
    rfl
  | needsPin attemptsLeft | pinNotSet error =>
    cases h
    refine ⟨trivial, ?_, ?_, rfl, rfl, rfl⟩
    · rintro _ ⟨⟩
      rfl
    · rintro _ ⟨⟩
      exact List.mem_cons_self
  | hybridConnecting =>
    cases h
    refine ⟨⟨rfl, rfl⟩, ?_, ?_, rfl, rfl, rfl⟩
    · rintro _ ⟨⟩
      rfl
    · rintro _ ⟨⟩
      exact List.mem_singleton_self _
  | hybridConnected =>
    cases h
    refine ⟨⟨rfl, rfl⟩, ?_, nofun, rfl, rfl, rfl⟩
    rintro _ ⟨⟩
    rfl
  | completed =>
    cases h
    refine ⟨⟨rfl, Bool.or_true _⟩, nofun, ?_, rfl, rfl, rfl⟩
    rintro _ ⟨⟩
    exact List.mem_singleton_self _
  | failed error =>
    cases h
    refine ⟨rfl, ?_, ?_, rfl, rfl, rfl⟩
    · rintro _ ⟨⟩
      rfl
    · rintro _ ⟨⟩
      exact List.mem_singleton_self _
  | cancelled =>
    cases h
    exact ⟨Bool.or_true _, nofun, nofun, rfl, rfl, rfl⟩
  | selectingDevice | needsUserVerification attemptsLeft | needsUserPresence =>
    cases h
    refine ⟨trivial, ?_, nofun, rfl, rfl, rfl⟩
    rintro _ ⟨⟩
    rfl

/- What an update does not turn to or list stays. -/
theorem receive_kept {qrFits : String → Bool} {w w' : Window} {u : ViewUpdate}
    (h : w.receive cat qrFits u = .ok w') : (u.pages = none → w'.stack = w.stack) ∧
      ((∀ devices, u ≠ .setDevices devices) →
        w'.hybridTransportAvailable = w.hybridTransportAvailable) := by
  cases u with
  | setDevices devices =>
    cases h
    exact ⟨fun _ => rfl, fun hother => absurd rfl (hother devices)⟩
  | waitingForDevice device =>
    rw [waitingForDevice_ok h]
    refine ⟨fun hpages => ?_, fun _ => rfl⟩
    rw [Option.map_eq_none_iff.mp hpages]
    rfl
  | hybridNeedsQrCode qrCode =>
    rw [hybridNeedsQrCode_ok h]
    exact ⟨fun _ => rfl, fun _ => rfl⟩
  | setCredentials | needsPin | pinNotSet | hybridConnecting | completed | failed =>
    cases h
    exact ⟨nofun, fun _ => rfl⟩
  | _ =>
    cases h
    exact ⟨fun _ => rfl, fun _ => rfl⟩

/-! ### One update after the other -/

/-- The window after some updates, whatever the user has done in between. -/
structure After (cat : Catalogue) (w : Window) (us : List ViewUpdate) : Prop where
  follows : ∀ u, us.getLast? = some u → w.Follows cat u
  page : w.stack ∈ pagesAfter us
  hybrid : w.hybridTransportAvailable = hybridAfter us
  blank : us = [] → w.usbNfcPinEntryVisible = false ∧ w.startSettingNewPinVisible = false

theorem after_start : After cat {} [] :=
  ⟨nofun, List.mem_singleton_self _, rfl, fun _ => ⟨rfl, rfl⟩⟩

theorem receive_page {qrFits : String → Bool} {w w' : Window} {u : ViewUpdate}
    (h : w.receive cat qrFits u = .ok w') {us : List ViewUpdate}
    (hw : w.stack ∈ pagesAfter us) : w'.stack ∈ pagesAfter (us ++ [u]) := by
  rw [pagesAfter_append, List.foldl_cons, List.foldl_nil]
  cases hpages : u.pages with
  | none =>
    rw [(receive_kept h).1 hpages]
    exact hw
  | some pages => exact (receive_follows h).page pages hpages

theorem receive_hybrid {qrFits : String → Bool} {w w' : Window} {u : ViewUpdate}
    (h : w.receive cat qrFits u = .ok w') {us : List ViewUpdate}
    (hw : w.hybridTransportAvailable = hybridAfter us) :
    w'.hybridTransportAvailable = hybridAfter (us ++ [u]) := by
  unfold hybridAfter
  rw [List.foldl_append, List.foldl_cons, List.foldl_nil]
  have hkept := (receive_kept h).2
  cases u with
  | setDevices devices => exact (receive_follows h).holds
  | _ => exact (hkept nofun).trans hw

theorem After.receive {qrFits : String → Bool} {w w' : Window} {u : ViewUpdate}
    {us : List ViewUpdate} (hw : w.After cat us) (h : w.receive cat qrFits u = .ok w') :
    w'.After cat (us ++ [u]) where
  follows v hv := by
    rw [List.getLast?_concat] at hv
    cases hv
    exact receive_follows h
  page := receive_page h hw.page
  hybrid := receive_hybrid h hw.hybrid
  blank hnone := absurd hnone (List.concat_ne_nil u us)

/- The button for a new PIN is there after a failure for want of one. -/
theorem After.newPin {w : Window} {us : List ViewUpdate} (hw : w.After cat us)
    (hshown : w.startSettingNewPinVisible = true) :
    ∃ error, us.getLast? = some (.pinNotSet error) ∧ w.Follows cat (.pinNotSet error) := by
  cases hlast : us.getLast? with
  | none =>
    have hblank := (hw.blank (List.getLast?_eq_none_iff.mp hlast)).2
    rw [hshown] at hblank
    cases hblank
  | some u =>
    have hfollows := hw.follows u hlast
    have hu : u.asksForNewPin = true := hfollows.newPin.symm.trans hshown
    cases u with
    | pinNotSet error => exact ⟨error, rfl, hfollows⟩
    | _ => cases hu

theorem After.pinEntry {w : Window} {us : List ViewUpdate} (hw : w.After cat us)
    (hshown : w.usbNfcPinEntryVisible = true) :
    ∃ attemptsLeft, us.getLast? = some (.needsPin attemptsLeft) ∧
      w.Follows cat (.needsPin attemptsLeft) := by
  cases hlast : us.getLast? with
  | none =>
    have hblank := (hw.blank (List.getLast?_eq_none_iff.mp hlast)).1
    rw [hshown] at hblank
    cases hblank
  | some u =>
    have hfollows := hw.follows u hlast
    have hu : u.asksForPin = true := hfollows.pinEntry.symm.trans hshown
    cases u with
    | needsPin attemptsLeft => exact ⟨attemptsLeft, rfl, hfollows⟩
    | _ => cases hu

/-- The user turns to another page only from a failure that can be mended by a new PIN. -/
theorem After.act {w w' : Window} {us : List ViewUpdate} {a : UserAction}
    {event : Option ViewEvent} (hw : w.After cat us) (h : w.act a = some (w', event)) :
    w'.After cat us := by
  cases acts_of_act h with
  | startSettingNewPin hstack hshown =>
    obtain ⟨error, hlast, hfollows⟩ := hw.newPin hshown
    have hnewPin : Page.setNewPin ∈ pagesAfter us := by
      rw [pagesAfter_last hlast rfl]
      exact List.mem_cons_of_mem _ (List.mem_singleton_self _)
    refine { hw with follows := fun u hu => ?_, page := hnewPin }
    rw [hlast] at hu
    cases hu
    refine { hfollows with page := ?_ }
    rintro _ ⟨⟩
    exact List.mem_cons_of_mem _ (List.mem_singleton_self _)
  | typeNewPin | typeConfirmPin =>
    refine { hw with follows := fun u hu => ?_ }
    have hfollows := hw.follows u hu
    exact { hfollows with holds := by cases u <;> exact hfollows.holds }
  | _ => exact hw

theorem After.interrupted {w : Window} {us : List ViewUpdate} (hw : w.After cat us) :
    w.interrupted.After cat us := by
  have hclosing : (w.closing || ModelState.cancelled == .cancelled) = true := Bool.or_true _
  refine { hw with follows := fun u hu => ?_ }
  have hfollows := hw.follows u hu
  refine { hfollows with holds := ?_ }
  cases u with
  | completed => exact ⟨hfollows.holds.1, hclosing⟩
  | cancelled => exact hclosing
  | _ => exact hfollows.holds

end Window

end Gui

end Credentialsd
