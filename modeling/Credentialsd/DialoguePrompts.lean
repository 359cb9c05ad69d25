import Credentialsd.Dialogue
import Credentialsd.GuiScreen

/-!
# What the window asks for

The window has an entry for a PIN, a page for a new one or a list of credentials only after the
daemon has passed on a prompt that asks for it. Between the two the update is converted, sent, taken
by a task of its own and shown, in any order with the other updates.
-/

namespace Credentialsd
open Machine

/-! ### Prompts in a history -/

/-- A prompt of that kind has passed. -/
def Prompted (history : List Entry) (kind : PromptKind) : Prop :=
  ∃ u, .passed u ∈ history ∧ u.promptKind = some kind

/-- A prompt with that credential has passed. -/
def Offered (history : List Entry) (c : Credential) : Prop :=
  ∃ u creds, .passed u ∈ history ∧ u.documented = some (.selectingCredential creds) ∧ c ∈ creds

/- The event is one of an update that has passed. -/
def Converted (history : List Entry) (event : BackgroundEvent) : Prop :=
  ∃ u calls, .passed u ∈ history ∧ u.event calls = .ok event

/-- The prompt that an event stands for has passed. -/
def PromptPassed (history : List Entry) : BackgroundEvent → Prop
  | .needsPin _ => Prompted history .clientPin
  | .pinNotSet _ => Prompted history .setPin
  | .selectingCredential creds => ∀ c ∈ creds, Offered history c
  | _ => True

theorem Prompted.mono {history history' : List Entry} {kind : PromptKind}
    (h : Prompted history kind) (hle : history ⊆ history') : Prompted history' kind := by
  obtain ⟨u, hu, hkind⟩ := h
  exact ⟨u, hle hu, hkind⟩

theorem Offered.mono {history history' : List Entry} {c : Credential} (h : Offered history c)
    (hle : history ⊆ history') : Offered history' c := by
  obtain ⟨u, creds, hu, hcreds⟩ := h
  exact ⟨u, creds, hle hu, hcreds⟩

theorem Converted.mono {history history' : List Entry} {event : BackgroundEvent}
    (h : Converted history event) (hle : history ⊆ history') : Converted history' event := by
  obtain ⟨u, calls, hu, hevent⟩ := h
  exact ⟨u, calls, hle hu, hevent⟩

theorem PromptPassed.mono {history history' : List Entry} {event : BackgroundEvent}
    (h : PromptPassed history event) (hle : history ⊆ history') : PromptPassed history' event := by
  cases event with
  | needsPin attemptsLeft => exact Prompted.mono h hle
  | pinNotSet error => exact Prompted.mono h hle
  | selectingCredential creds => exact fun c hc => (h c hc).mono hle
  | _ => trivial

/-! ### From the update to the event -/

theorem arrives_some {event e : BackgroundEvent} (hne : event ≠ .hybridIdle)
    (h : event.arrives = some e) : event.isSent = true ∧ e = event.readAttempts := by
  unfold BackgroundEvent.arrives at h
  rw [BackgroundEvent.received_eq hne] at h
  cases hsent : event.isSent with
  | false =>
    rw [hsent] at h
    cases h
  | true =>
    rw [hsent] at h
    cases h
    exact ⟨rfl, rfl⟩

/- Only an error is reported as something else. -/
theorem reported_prompt {content content' : Documented} (h : content.reported = content')
    (hprompt : ∀ err, content' ≠ .error err) : content = content' := by
  unfold Documented.reported at h
  split at h
  · exact absurd h.symm (hprompt _)
  · exact h

theorem promptKind_of_needsPin {u : DeviceStateUpdate} {attemptsLeft : Option UInt32}
    (h : u.documented = some (.needsPin attemptsLeft)) : u.promptKind = some .clientPin := by
  rcases u with state | state | state <;> cases state <;> cases h <;> rfl

theorem promptKind_of_pinNotSet {u : DeviceStateUpdate} {error : PinNotSetError}
    (h : u.documented = some (.pinNotSet error)) : u.promptKind = some .setPin := by
  rcases u with state | state | state <;> cases state <;> cases h <;> rfl

/-- What arrives at the window asks for what the update asks for. -/
theorem passed_of_converted {history : List Entry} {event e : BackgroundEvent}
    (h : Converted history event) (he : event.arrives = some e) : PromptPassed history e := by
  obtain ⟨u, calls, hu, hevent⟩ := h
  have hkept := event_kept hevent
  obtain ⟨hsent, rfl⟩ := arrives_some hkept.notIdle he
  have hdocumented := hkept.documented hsent
  have hcontent : ∀ content, (⟨event.readAttempts, u.secret calls⟩ : Delivered).documented =
      some content → (∀ err, content ≠ .error err) → u.documented = some content := by
    intro content hread hprompt
    rw [hread] at hdocumented
    obtain ⟨content', hu', hreported⟩ := Option.map_eq_some_iff.mp hdocumented.symm
    rw [hu', reported_prompt hreported hprompt]
  generalize event.readAttempts = e at hcontent ⊢
  cases e with
  | needsPin attemptsLeft => exact ⟨u, hu, promptKind_of_needsPin (hcontent _ rfl nofun)⟩
  | pinNotSet error => exact ⟨u, hu, promptKind_of_pinNotSet (hcontent _ rfl nofun)⟩
  | selectingCredential creds => exact fun c hc => ⟨u, creds, hu, hcontent _ rfl nofun, hc⟩
  | _ => trivial

/-! ### In the window -/

namespace Gui

variable {cat : Catalogue} {qrFits : String → Bool} {qrCode : OwnedFd → Except Panic String}

/-- What is shown of the prompts that have passed, and what is on its way to be shown. -/
def asking (history : List Entry) : Marks where
  window w :=
    (w.usbNfcPinEntryVisible = true → Prompted history .clientPin) ∧
      (w.startSettingNewPinVisible = true ∨ w.stack = .setNewPin → Prompted history .setPin) ∧
      ∀ b ∈ w.credentials, ∃ c, Offered history c ∧ b = Window.credentialButton c
  event
    | .setNewDevicePin _ => Prompted history .setPin
    | _ => True
  background := PromptPassed history
  op
    | .update (.needsPin _) => Prompted history .clientPin
    | .update (.pinNotSet _) => Prompted history .setPin
    | .update (.setCredentials creds) => ∀ c ∈ creds, Offered history c
    | .setDevicePin _ => Prompted history .setPin
    | _ => True
  sent _ := True

/- No update turns to the page for a new PIN. -/
theorem receive_setNewPin {w w' : Window} {u : ViewUpdate} (h : w.receive cat qrFits u = .ok w')
    (hstack : w'.stack = .setNewPin) : w.stack = .setNewPin := by
  cases u with
  | waitingForDevice device =>
    rw [Window.waitingForDevice_ok h] at hstack
    simp only at hstack
    cases htransport : device.transport <;> rw [htransport] at hstack <;>
      first | exact hstack | cases hstack
  | hybridNeedsQrCode code =>
    rw [Window.hybridNeedsQrCode_ok h] at hstack
    exact hstack
  | _ =>
    cases h
    first | exact hstack | cases hstack

theorem asking_received {history : List Entry} {w w' : Window} {u : ViewUpdate}
    (hw : (asking history).window w) (hu : (asking history).op (.update u))
    (h : w.receive cat qrFits u = .ok w') : (asking history).window w' := by
  have hfollows := Window.receive_follows h
  refine ⟨fun hvisible => ?_, ?_, fun b hb => ?_⟩
  · rw [hfollows.pinEntry] at hvisible
    cases u with
    | needsPin attemptsLeft => exact hu
    | _ => cases hvisible
  · rintro (hvisible | hstack)
    · rw [hfollows.newPin] at hvisible
      cases u with
      | pinNotSet error => exact hu
      | _ => cases hvisible
    · exact hw.2.1 (Or.inr (receive_setNewPin h hstack))
  · rcases receive_credentials h with heq | ⟨creds, rfl, heq⟩
    · rw [heq] at hb
      exact hw.2.2 b hb
    · rw [heq] at hb
      obtain ⟨c, hc, rfl⟩ := List.mem_map.mp hb
      exact ⟨c, hu c hc, rfl⟩

theorem asking_acted {history : List Entry} {w w' : Window} {a : Window.UserAction}
    {event : Option ViewEvent} (hw : (asking history).window w) (h : w.act a = some (w', event)) :
    (asking history).window w' := by
  cases Window.acts_of_act h with
  | startSettingNewPin hstack hshown => exact ⟨hw.1, fun _ => hw.2.1 (Or.inl hshown), hw.2.2⟩
  | _ => exact hw

theorem asking_respected (history : List Entry) :
    (asking history).Respected cat qrFits qrCode where
  initiated := trivial
  userCancelled := trivial
  onView {_ _ event _ _} hevent h := by
    cases event with
    | setNewDevicePin pin =>
      cases h
      exact List.forall_mem_singleton.mpr hevent
    | _ =>
      cases h
      simp [asking]
  onBackground {event _ _} hevent h := by
    cases event with
    | hybridStarted fd =>
      obtain ⟨text, -, rfl, -⟩ := onBackground_hybridStarted h
      simp [asking]
    | needsPin attemptsLeft =>
      cases h
      exact List.forall_mem_singleton.mpr hevent
    | pinNotSet error =>
      cases h
      exact List.forall_mem_singleton.mpr hevent
    | selectingCredential creds =>
      cases h
      exact List.forall_mem_singleton.mpr hevent
    | _ =>
      cases h
      simp [asking]
  pinNotSet _ h := h
  failed _ := trivial
  received := asking_received
  interrupted hw := hw
  acted := asking_acted
  discoveryRequested := trivial
  enterClientPin _ _ _ _ := trivial
  setDevicePin _ _ _ _ := trivial
  selectCredential _ := trivial
  requestCancelled := trivial

theorem asking_mono {history history' : List Entry} (hle : history ⊆ history') {s : Gui}
    (h : (asking history).Held s) : (asking history').Held s := by
  refine h.mono (fun w hw => ?_) (fun event he => ?_) (fun event he => he.mono hle)
    (fun op ho => ?_) fun _ _ => trivial
  · refine ⟨fun hvisible => (hw.1 hvisible).mono hle, fun hnew => (hw.2.1 hnew).mono hle, ?_⟩
    intro b hb
    obtain ⟨c, hc, hbutton⟩ := hw.2.2 b hb
    exact ⟨c, hc.mono hle, hbutton⟩
  · cases event with
    | setNewDevicePin pin => exact Prompted.mono he hle
    | _ => trivial
  · cases op with
    | setDevicePin pin => exact Prompted.mono ho hle
    | update u =>
      cases u with
      | needsPin attemptsLeft => exact Prompted.mono ho hle
      | pinNotSet error => exact Prompted.mono ho hle
      | setCredentials creds => exact fun c hc => (ho c hc).mono hle
      | _ => trivial
    | _ => trivial

theorem asking_fresh {history : List Entry} {s t : Gui} {l : Label}
    (h : (asking history).window s.window)
    (hdeliver : ∀ event, l = .deliver event → PromptPassed history event) :
    (asking history).Fresh s l t := by
  refine ⟨hdeliver, ?_⟩
  rintro a window event rfl hact
  cases Window.acts_of_act hact with
  | commitNewPin hstack => exact h.2.1 (Or.inr hstack)
  | _ => trivial

end Gui

namespace Dialogue

variable {cat : Gui.Catalogue} {qrFits : String → Bool} {qrCode : OwnedFd → Except Panic String}
  {describe : IoError → String}

/-! ### In every run -/

/- The history only grows. -/
theorem history_subset {s t : Handle} {l : UiLoop.Move} (h : s.ui l = some t) :
    s.history ⊆ t.history := by
  obtain ⟨lp, -, rfl⟩ := Option.map_eq_some_iff.mp h
  exact List.subset_append_right _ _

/- The tasks of the session are those of the updates that were sent to it, whatever they do. -/
theorem calls_of_step {session session' : SessionUpdates} {l : SessionUpdates.Label}
    (hl : ∀ event, l ≠ .sendStateUpdate event) (h : session.step l = some session') :
    session'.updates = session.updates ∧
      session'.calls.map (·.event) = session.calls.map (·.event) := by
  have hset : ∀ {i call stage}, session.calls[i]? = some call →
      (session.setStage i call.event stage).calls.map (·.event) =
        session.calls.map (·.event) := by
    intro i call stage hcall
    obtain ⟨post, hsplit, hset⟩ := split_getElem? hcall
    rw [SessionUpdates.setStage, hset, List.map_append, List.map_cons]
    conv_rhs => rw [hsplit, List.map_append, List.map_cons]
  cases l with
  | sendStateUpdate event => exact absurd rfl (hl event)
  | notify i =>
    obtain ⟨call, hcall, hcase⟩ := SessionUpdates.notify_cases h
    rcases hcase with ⟨-, rfl | ⟨-, err, rfl⟩⟩ | ⟨-, rfl⟩ | ⟨-, ⟨tx, -, rfl⟩ | ⟨-, rfl⟩⟩ |
      ⟨-, -, err, rfl⟩ <;>
    exact ⟨rfl, hset hcall⟩
  | recv =>
    obtain ⟨tx, -, rfl⟩ := Option.map_eq_some_iff.mp h
    exact ⟨rfl, rfl⟩
  | dropReceiver =>
    obtain ⟨tx, -, rfl⟩ := Option.map_eq_some_iff.mp h
    exact ⟨rfl, rfl⟩
  | close =>
    simp only [SessionUpdates.step] at h
    split at h
    · cases h
      exact ⟨rfl, rfl⟩
    · cases h
  | closeShutdown =>
    simp only [SessionUpdates.step] at h
    split at h
    · cases h
      exact ⟨rfl, rfl⟩
    · cases h
  | shutdownStarts =>
    simp only [SessionUpdates.step] at h
    split at h
    · cases h
      exact ⟨rfl, rfl⟩
    · cases h
  | shutdownEnds =>
    simp only [SessionUpdates.step] at h
    split at h
    · cases h
      exact ⟨rfl, rfl⟩
    · cases h

/-- Everything between the prompts that have passed and the window. -/
structure Inv (s : Dialogue) : Prop where
  channel : s.SameChannel
  converted : ∀ event ∈ s.session.updates ++ s.converted, Converted s.handle.history event
  calls : s.session.calls.map (·.event) =
    s.session.updates.filterMap BackgroundEvent.arrives
  asking : (Gui.asking s.handle.history).Held s.gui

theorem Inv.asks {s : Dialogue} (h : s.Inv) {call : NotifyCall} (hcall : call ∈ s.session.calls) :
    PromptPassed s.handle.history call.event := by
  have hmem : call.event ∈ s.session.calls.map (·.event) := List.mem_map_of_mem hcall
  rw [h.calls] at hmem
  obtain ⟨event, hevent, harrives⟩ := List.mem_filterMap.mp hmem
  exact passed_of_converted (h.converted event (List.mem_append_left _ hevent)) harrives

theorem inv_start (request : UiService.ViewRequest) (c : RequestContext)
    (sessionHandle : String) : Inv (start cat request c sessionHandle) := by
  have hwindow : (Gui.asking []).window {} := by
    refine ⟨nofun, ?_, List.forall_mem_nil _⟩
    rintro (hshown | hstack)
    · cases hshown
    · cases hstack
  exact ⟨rfl, List.forall_mem_nil _, rfl, Gui.Marks.held_start hwindow request⟩

theorem Inv.handle {s : Dialogue} (h : s.Inv) {handle : Handle} {signals : Fifo Gui.Sent}
    (hle : s.handle.history ⊆ handle.history) : Inv { s with handle, signals } :=
  ⟨h.channel, fun event he => (h.converted event he).mono hle, h.calls,
    Gui.asking_mono hle h.asking⟩

theorem Inv.session {s : Dialogue} (h : s.Inv) {l : SessionUpdates.Label}
    {session : SessionUpdates} {gui : Gui} (hl : ∀ event, l ≠ .sendStateUpdate event)
    (hsession : s.session.step l = some session) (hchannel : SameChannel { s with gui, session })
    (hgui : gui = s.gui ∨ ∃ call ∈ s.session.calls, s.gui.deliver call.event = some gui) :
    Inv { s with gui, session } := by
  obtain ⟨hupdates, hcalls⟩ := calls_of_step hl hsession
  refine ⟨hchannel, ?_, ?_, ?_⟩
  · rw [hupdates]
    exact h.converted
  · rw [hupdates, hcalls]
    exact h.calls
  · rcases hgui with rfl | ⟨call, hcall, hdeliver⟩
    · exact h.asking
    · simp only [Gui.deliver] at hdeliver
      split at hdeliver
      · cases hdeliver
        exact { h.asking with
          background := Gui.Marks.mem_send h.asking.background (h.asks hcall) }
      · cases hdeliver

/- The GUI takes from the channel of the session, and no more. -/
theorem calls_of_received {session session' : SessionUpdates} {gui gui' : Gui}
    (h : exec SessionUpdates.step session (received gui gui') = some session') :
    session'.updates = session.updates ∧
      session'.calls.map (·.event) = session.calls.map (·.event) := by
  have hlabels : ∀ l ∈ received gui gui', ∀ event, l ≠ .sendStateUpdate event := by
    intro l hl event heq
    rw [heq, received] at hl
    rcases List.mem_append.mp hl with hl | hl
    · split at hl <;> simp at hl
    · split at hl <;> simp at hl
  have hkept : ∀ (x : SessionUpdates) (l : SessionUpdates.Label) (y : SessionUpdates),
      x.updates = session.updates ∧ x.calls.map (·.event) = session.calls.map (·.event) →
      (∀ event, l ≠ .sendStateUpdate event) → x.step l = some y →
      y.updates = session.updates ∧ y.calls.map (·.event) = session.calls.map (·.event) := by
    rintro x l y ⟨hupdates, hcalls⟩ hl hstep
    obtain ⟨hupdates', hcalls'⟩ := calls_of_step hl hstep
    exact ⟨hupdates'.trans hupdates, hcalls'.trans hcalls⟩
  exact exec_invariant hkept ⟨rfl, rfl⟩ (along_of_forall hlabels) h

theorem Inv.step {s t : Dialogue} {l : Label} (h : s.Inv)
    (hl : step cat qrFits qrCode describe s l = some t) : t.Inv := by
  have hchannel := h.channel.step hl
  have hown : ∀ {l : SessionUpdates.Label}, isOwn l = true →
      ∀ event, l ≠ .sendStateUpdate event := by
    rintro l hown event rfl
    cases hown
  cases moves_of_step hl with
  | @gui l gui session hagrees hgui hsession =>
    obtain ⟨hupdates, hcalls⟩ := calls_of_received hsession
    refine ⟨hchannel, ?_, ?_, ?_⟩
    · rw [hupdates]
      exact h.converted
    · rw [hupdates, hcalls]
      exact h.calls
    · refine h.asking.step (Gui.asking_respected _) (Gui.asking_fresh h.asking.window ?_) hgui
      rintro event rfl
      cases hagrees
  | signalled hrecv hreceived hui => exact h.handle (history_subset hui)
  | daemon hl hui => exact h.handle (history_subset hui)
  | @updated u calls =>
    have hle : s.handle.history ⊆ (s.handle.update u).history := List.subset_cons_self _ _
    refine ⟨hchannel, fun event he => ?_, h.calls, Gui.asking_mono hle h.asking⟩
    rcases List.mem_append.mp he with he | he
    · exact (h.converted event (List.mem_append_left _ he)).mono hle
    · rcases List.mem_append.mp he with he | he
      · exact (h.converted event (List.mem_append_right _ he)).mono hle
      · cases hevent : (u.withTx s.handle.nextTx).event calls with
        | error p =>
          rw [hevent] at he
          cases he
        | ok e =>
          rw [hevent] at he
          rw [List.mem_singleton.mp he]
          exact ⟨_, calls, List.mem_cons_self .., hevent⟩
  | @sent i event session hevent hsession =>
    cases hsession
    refine ⟨hchannel, fun e he => ?_, ?_, h.asking⟩
    · rw [List.append_assoc] at he
      rcases List.mem_append.mp he with he | he
      · exact h.converted e (List.mem_append_left _ he)
      · refine h.converted e (List.mem_append_right _ ?_)
        rcases List.mem_append.mp he with he | he
        · rw [List.mem_singleton.mp he]
          exact List.mem_of_getElem? hevent
        · exact List.mem_of_mem_eraseIdx he
    · have hcalls := h.calls
      simp only [List.map_append, List.filterMap_append, Gui.filterMap_singleton, hcalls]
      cases event.arrives <;> rfl
  | session hsession hstep =>
    obtain ⟨gui, hmoves, hsame, hgui⟩ := h.channel.moveSession hsession hstep
    rw [Option.some.inj (hl.symm.trans hmoves)]
    exact h.session (hown hsession) hstep hsame hgui
  | delivered hsession hstep =>
    obtain ⟨gui, hmoves, hsame, hgui⟩ := h.channel.moveSession hsession hstep
    rw [Option.some.inj (hl.symm.trans hmoves)]
    exact h.session (hown hsession) hstep hsame hgui
  | _ => exact ⟨hchannel, h.converted, h.calls, h.asking⟩

/-- In every state of a request: the session and the GUI share a channel, and what the window asks for,
or is about to ask for, has been asked for by the daemon. -/
theorem inv_of_run {request : UiService.ViewRequest} {c : RequestContext}
    {sessionHandle : String} {ls : List Label} {s : Dialogue}
    (h : exec (step cat qrFits qrCode describe) (start cat request c sessionHandle) ls = some s) :
    s.Inv :=
  reaches_invariant (fun _ _ _ hs hl => hs.step hl) (inv_start request c sessionHandle) ⟨ls, h⟩

end Dialogue

end Credentialsd
