import Credentialsd.GuiValues
import Credentialsd.SessionUpdates

/-!
# A request from the user to the device (`credentialsd-ui/src/dbus.rs`, `dbus/ui_control.rs`)

The window, the session of the UI and the loop of the daemon, each as in its own module, and what is
between them. What the GUI sends is taken by a task of the session, goes over the bus as a signal and
is an event of the loop. An update of the discovery passes the closure of `handle`, is sent to the
UI, and a task of the session puts it into the channel that the GUI receives from.
-/

namespace Credentialsd
open Machine

/- What the daemon makes of a message of the GUI, when it has read the secret. -/
def Gui.Sent.received (describe : IoError → String) (bufs : Nat → Buffer) :
    Gui.Sent → Option UserInteractedEvent
  | .discoveryRequested => some .discoveryRequested
  | .credentialSelected id => some (.credentialSelected id)
  | .client event => event.received describe bufs

/- A cancellation is no signal of its own, it shuts the session down. -/
def Gui.Sent.isSignal : Gui.Sent → Bool
  | .client .requestCancelled => false
  | _ => true

/-- `taken` counts what the task of the session has taken from the GUI, `forwarding` tells whether it
still runs, and `converted` are the updates that the daemon has not sent yet. -/
structure Dialogue where
  gui : Gui
  taken : Nat := 0
  forwarding : Bool := true
  signals : Fifo Gui.Sent := Fifo.empty
  handle : Handle
  converted : List BackgroundEvent := []
  session : SessionUpdates

namespace Dialogue

inductive Label where
  | gui (l : Gui.Label)
  | forward (ok : Bool)
  | stopForwarder
  | signal (bufs : Nat → Buffer)
  | daemon (l : UiLoop.Move)
  | update (u : DeviceStateUpdate) (calls : WriteCalls)
  | sendStateUpdate (i : Nat)
  | session (l : SessionUpdates.Label)

/-! ### The GUI -/

/- The GUI hears from the session only, and its messages have a receiver as long as the task runs. -/
def agrees (s : Dialogue) : Gui.Label → Bool
  | .deliver _ => false
  | .work answer => answer.flowOpen == s.forwarding
  | .finish flowOpen => flowOpen == s.forwarding
  | _ => true

/- What a move of the GUI means for the channel between it and the session. -/
def received (gui gui' : Gui) : List SessionUpdates.Label :=
  (if gui.background.received < gui'.background.received then [.recv] else []) ++
    if gui.stage.running && !gui'.stage.running then [.dropReceiver] else []

def moveGui (cat : Gui.Catalogue) (qrFits : String → Bool) (qrCode : OwnedFd → Except Panic String)
    (s : Dialogue) (l : Gui.Label) : Option Dialogue :=
  if s.agrees l then
    (s.gui.step cat qrFits qrCode l).bind fun gui =>
      (exec SessionUpdates.step s.session (received s.gui gui)).map fun session =>
        { s with gui, session }
  else none

/-! ### From the GUI to the daemon -/

/-- The task that `CeremonyObject::start` spawns: `on_user_interacted` with the next message. An error
ends it. The signal that a session is closed comes on a stream of its own, see `daemon`. -/
def forward (s : Dialogue) (ok : Bool) : Option Dialogue :=
  if s.forwarding then
    s.gui.sent[s.taken]?.map fun event =>
      { s with
        taken := s.taken + 1
        forwarding := ok
        signals := if ok && event.isSignal then s.signals.send event else s.signals }
  else none

/- The task is cancelled, or the GUI has dropped its end of the channel. -/
def stopForwarder (s : Dialogue) : Option Dialogue :=
  if s.forwarding then some { s with forwarding := false } else none

/-- The task of `subscribe_ui_events`, with the signals in the order in which they were sent. -/
def signal (describe : IoError → String) (s : Dialogue) (bufs : Nat → Buffer) : Option Dialogue :=
  s.signals.recv.bind fun (event, signals) =>
    (event.received describe bufs).bind fun e =>
      (s.handle.ui (.event e)).map fun handle => { s with signals, handle }

/- What comes with a signal of the session. -/
def isSignalled : UiLoop.Move → Bool
  | .event .requestCancelled => false
  | .event _ => true
  | _ => false

def daemon (s : Dialogue) (l : UiLoop.Move) : Option Dialogue :=
  if isSignalled l then none else (s.handle.ui l).map fun handle => { s with handle }

/-! ### From the daemon to the GUI -/

/-- An update of the discovery: the closure of `handle` with the conversion. -/
def update (s : Dialogue) (u : DeviceStateUpdate) (calls : WriteCalls) : Dialogue :=
  { s with
    handle := s.handle.update u
    converted := s.converted ++ ((u.withTx s.handle.nextTx).event calls).toOption.toList }

/- Every discovery has a task of its own that sends its updates. -/
def sendStateUpdate (s : Dialogue) (i : Nat) : Option Dialogue :=
  s.converted[i]?.bind fun event =>
    (s.session.step (.sendStateUpdate event)).map fun session =>
      { s with session, converted := s.converted.eraseIdx i }

/- The steps of the session that it takes by itself. -/
def isOwn : SessionUpdates.Label → Bool
  | .sendStateUpdate _ => false
  | .recv => false
  | .dropReceiver => false
  | _ => true

/-- A task of the session; what it puts into the channel is there for the GUI. -/
def moveSession (s : Dialogue) (l : SessionUpdates.Label) : Option Dialogue :=
  if isOwn l then
    (s.session.step l).bind fun session =>
      match session.events.drop s.session.events.length with
      | [] => some { s with session }
      | event :: _ => (s.gui.deliver event).map fun gui => { s with gui, session }
  else none

/-! ### All of it -/

section

variable (cat : Gui.Catalogue) (qrFits : String → Bool) (qrCode : OwnedFd → Except Panic String)
  (describe : IoError → String)

def step (s : Dialogue) : Label → Option Dialogue
  | .gui l => s.moveGui cat qrFits qrCode l
  | .forward ok => s.forward ok
  | .stopForwarder => s.stopForwarder
  | .signal bufs => s.signal describe bufs
  | .daemon l => s.daemon l
  | .update u calls => some (s.update u calls)
  | .sendStateUpdate i => s.sendStateUpdate i
  | .session l => s.moveSession l

/-- The window is about to be shown for an accepted request. -/
def start (request : UiService.ViewRequest) (c : RequestContext) (sessionHandle : String) :
    Dialogue where
  gui := Gui.run cat request
  handle := .init c
  session := .created sessionHandle

end

/-! ### What a step does -/

section

variable (cat : Gui.Catalogue) (qrFits : String → Bool) (qrCode : OwnedFd → Except Panic String)
  (describe : IoError → String)

inductive Moves : Dialogue → Label → Dialogue → Prop where
  | gui {s : Dialogue} {l : Gui.Label} {gui : Gui} {session : SessionUpdates}
    (hagrees : s.agrees l = true) (hgui : s.gui.step cat qrFits qrCode l = some gui)
    (hsession : exec SessionUpdates.step s.session (received s.gui gui) = some session) :
    Moves s (.gui l) { s with gui, session }
  | forwarded {s : Dialogue} {ok : Bool} {event : Gui.Sent} (hforwarding : s.forwarding = true)
    (hevent : s.gui.sent[s.taken]? = some event) :
    Moves s (.forward ok) { s with
      taken := s.taken + 1
      forwarding := ok
      signals := if ok && event.isSignal then s.signals.send event else s.signals }
  | stopped {s : Dialogue} : Moves s .stopForwarder { s with forwarding := false }
  | signalled {s : Dialogue} {bufs : Nat → Buffer} {event : Gui.Sent} {signals : Fifo Gui.Sent}
    {e : UserInteractedEvent} {handle : Handle} (hrecv : s.signals.recv = some (event, signals))
    (hreceived : event.received describe bufs = some e)
    (hui : s.handle.ui (.event e) = some handle) :
    Moves s (.signal bufs) { s with signals, handle }
  | daemon {s : Dialogue} {l : UiLoop.Move} {handle : Handle} (hl : isSignalled l = false)
    (hui : s.handle.ui l = some handle) : Moves s (.daemon l) { s with handle }
  | updated {s : Dialogue} {u : DeviceStateUpdate} {calls : WriteCalls} :
    Moves s (.update u calls) (s.update u calls)
  | sent {s : Dialogue} {i : Nat} {event : BackgroundEvent} {session : SessionUpdates}
    (hevent : s.converted[i]? = some event)
    (hsession : s.session.step (.sendStateUpdate event) = some session) :
    Moves s (.sendStateUpdate i) { s with session, converted := s.converted.eraseIdx i }
  | session {s : Dialogue} {l : SessionUpdates.Label} {session : SessionUpdates}
    (hown : isOwn l = true) (hsession : s.session.step l = some session)
    (hevents : session.events.drop s.session.events.length = []) :
    Moves s (.session l) { s with session }
  | delivered {s : Dialogue} {l : SessionUpdates.Label} {session : SessionUpdates}
    {event : BackgroundEvent} {rest : List BackgroundEvent} {gui : Gui} (hown : isOwn l = true)
    (hsession : s.session.step l = some session)
    (hevents : session.events.drop s.session.events.length = event :: rest)
    (hgui : s.gui.deliver event = some gui) :
    Moves s (.session l) { s with gui, session }

end

variable {cat : Gui.Catalogue} {qrFits : String → Bool} {qrCode : OwnedFd → Except Panic String}
  {describe : IoError → String}

theorem moves_of_step {s t : Dialogue} {l : Label}
    (h : step cat qrFits qrCode describe s l = some t) :
    Moves cat qrFits qrCode describe s l t := by
  cases l with
  | gui l =>
    simp only [step, moveGui] at h
    split at h
    · obtain ⟨gui, hgui, h⟩ := Option.bind_eq_some_iff.mp h
      obtain ⟨session, hsession, rfl⟩ := Option.map_eq_some_iff.mp h
      exact .gui ‹_› hgui hsession
    · cases h
  | forward ok =>
    simp only [step, forward] at h
    split at h
    · obtain ⟨event, hevent, rfl⟩ := Option.map_eq_some_iff.mp h
      exact .forwarded ‹_› hevent
    · cases h
  | stopForwarder =>
    simp only [step, stopForwarder] at h
    split at h
    · cases h
      exact .stopped
    · cases h
  | signal bufs =>
    obtain ⟨⟨event, signals⟩, hrecv, h⟩ := Option.bind_eq_some_iff.mp h
    obtain ⟨e, hreceived, h⟩ := Option.bind_eq_some_iff.mp h
    obtain ⟨handle, hui, rfl⟩ := Option.map_eq_some_iff.mp h
    exact .signalled hrecv hreceived hui
  | daemon l =>
    simp only [step, daemon] at h
    split at h
    · cases h
    · rename_i hl
      obtain ⟨handle, hui, rfl⟩ := Option.map_eq_some_iff.mp h
      exact .daemon (Bool.eq_false_iff.mpr hl) hui
  | update u calls =>
    cases h
    exact .updated
  | sendStateUpdate i =>
    obtain ⟨event, hevent, h⟩ := Option.bind_eq_some_iff.mp h
    obtain ⟨session, hsession, rfl⟩ := Option.map_eq_some_iff.mp h
    exact .sent hevent hsession
  | session l =>
    simp only [step, moveSession] at h
    split at h
    · obtain ⟨session, hsession, h⟩ := Option.bind_eq_some_iff.mp h
      split at h
      · cases h
        exact .session ‹_› hsession ‹_›
      · obtain ⟨gui, hgui, rfl⟩ := Option.map_eq_some_iff.mp h
        exact .delivered ‹_› hsession ‹_› hgui
    · cases h

/-! ### The parts -/

/-- Every part goes its own way, so that what holds of its runs holds here. -/
structure Parts (cat : Gui.Catalogue) (qrFits : String → Bool)
    (qrCode : OwnedFd → Except Panic String) (start s : Dialogue) : Prop where
  gui : Reaches (Gui.step cat qrFits qrCode) start.gui s.gui
  session : Reaches SessionUpdates.step start.session s.session
  handle : Reaches Handle.step start.handle s.handle

theorem Parts.refl (s : Dialogue) : Parts cat qrFits qrCode s s :=
  ⟨.refl _ _, .refl _ _, .refl _ _⟩

theorem Parts.step {start s t : Dialogue} {l : Label} (h : Parts cat qrFits qrCode start s)
    (hstep : step cat qrFits qrCode describe s l = some t) : Parts cat qrFits qrCode start t := by
  cases moves_of_step hstep with
  | gui hagrees hgui hsession =>
    exact ⟨h.gui.snoc hgui, h.session.trans ⟨_, hsession⟩, h.handle⟩
  | forwarded => exact ⟨h.gui, h.session, h.handle⟩
  | stopped => exact ⟨h.gui, h.session, h.handle⟩
  | signalled hrecv hreceived hui =>
    exact ⟨h.gui, h.session, h.handle.snoc (l := .ui (.event _)) hui⟩
  | @daemon l _ hl hui => exact ⟨h.gui, h.session, h.handle.snoc (l := .ui l) hui⟩
  | @updated u _ => exact ⟨h.gui, h.session, h.handle.snoc (l := .update u) rfl⟩
  | sent hevent hsession => exact ⟨h.gui, h.session.snoc hsession, h.handle⟩
  | session hown hsession => exact ⟨h.gui, h.session.snoc hsession, h.handle⟩
  | @delivered _ _ event _ _ hown hsession hevents hgui =>
    exact ⟨h.gui.snoc (l := .deliver event) hgui, h.session.snoc hsession, h.handle⟩

theorem parts_of_run {start s : Dialogue} {ls : List Label}
    (h : exec (step cat qrFits qrCode describe) start ls = some s) :
    Parts cat qrFits qrCode start s :=
  reaches_invariant (fun _ _ _ hs hl => hs.step hl) (.refl start) ⟨ls, h⟩

/-! ### One channel -/

/-- The channel that the session sends on is the one that the GUI receives from. -/
def SameChannel (s : Dialogue) : Prop :=
  s.session.bgEventsTx =
    some ⟨s.gui.background.sent, s.gui.background.received, !s.gui.stage.running⟩

/- What a step of the GUI does to its end of the channel. -/
inductive Receives (gui gui' : Gui) : Prop where
  | nothing (hbackground : gui'.background = gui.background)
  | event (hrunning : gui.stage.running = true)
    (hsent : gui'.background.sent = gui.background.sent)
    (hreceived : gui'.background.received = gui.background.received + 1)
    (hlt : gui.background.received < gui.background.sent.length)

theorem recv_received {α : Type} {c c' : Fifo α} {a : α} (h : c.recv = some (a, c')) :
    c'.received = c.received + 1 ∧ c.received < c.sent.length := by
  unfold Fifo.recv at h
  split at h
  · cases h
    exact ⟨rfl, ‹_›⟩
  · cases h

theorem take_background (gettext : String → String) (gui : Gui) (event : Gui.Event) :
    (Gui.take gettext qrCode gui event).background = gui.background := by
  obtain ⟨-, stage, eventLoop, htake⟩ := Gui.take_rank gettext qrCode gui event
  rw [htake]

theorem closeRequest_background (gui : Gui) : gui.closeRequest.background = gui.background := by
  obtain ⟨events, hrequest, -⟩ := Gui.closeRequest_frame gui
  rw [hrequest]

theorem receives_of_step {gui gui' : Gui} {l : Gui.Label} (hl : ∀ event, l ≠ .deliver event)
    (h : gui.step cat qrFits qrCode l = some gui') : Receives gui gui' := by
  cases Gui.moves_of_step h with
  | asked => exact .nothing (closeRequest_background _)
  | closed => exact .nothing (closeRequest_background _)
  | delivered => exact absurd rfl (hl _)
  | viewTaken => exact .nothing (take_background _ _ _)
  | worked => exact .nothing (Gui.operate_frame ..).2.2
  | backgroundTaken hstage hrecv =>
    obtain ⟨hreceived, hlt⟩ := recv_received hrecv
    have hsent := (Fifo.recv_some hrecv).1
    refine .event (by rw [hstage]; rfl) ?_ ?_ hlt
    · rw [take_background]
      exact hsent
    · rw [take_background]
      exact hreceived
  | _ => exact .nothing rfl

/- The receiver of the session's channel is dropped when the GUI leaves its loop. -/
theorem exec_dropReceiver {session : SessionUpdates} {sent : List BackgroundEvent}
    {received : Nat} {running running' : Bool}
    (htx : session.bgEventsTx = some ⟨sent, received, !running⟩)
    (hstays : running = false → running' = false) :
    ∃ session', exec SessionUpdates.step session
        (if running && !running' then [.dropReceiver] else []) = some session' ∧
      session'.bgEventsTx = some ⟨sent, received, !running'⟩ := by
  cases running with
  | false =>
    rw [hstays rfl]
    exact ⟨session, rfl, htx⟩
  | true =>
    cases running' with
    | true => exact ⟨session, rfl, htx⟩
    | false =>
      refine ⟨{ session with bgEventsTx := some ⟨sent, received, true⟩ }, ?_, rfl⟩
      exact exec_single (by simp [SessionUpdates.step, htx])

/-- A step of the GUI that agrees with its surroundings is a step here, and the session follows. -/
theorem SameChannel.moveGui {s : Dialogue} {l : Gui.Label} {gui : Gui} (h : s.SameChannel)
    (hagrees : s.agrees l = true) (hgui : s.gui.step cat qrFits qrCode l = some gui) :
    ∃ session, s.moveGui cat qrFits qrCode l = some { s with gui, session } ∧
      SameChannel { s with gui, session } := by
  have hl : ∀ event, l ≠ .deliver event := by
    rintro event rfl
    cases hagrees
  have hstays : s.gui.stage.running = false → gui.stage.running = false :=
    fun hstopped => Gui.not_running_step hstopped hgui
  unfold SameChannel at h
  unfold Dialogue.moveGui received
  rw [if_pos hagrees, hgui, Option.bind_some]
  cases receives_of_step hl hgui with
  | nothing hbackground =>
    obtain ⟨session, hdrop, htx⟩ := exec_dropReceiver h hstays
    rw [if_neg (by rw [hbackground]; exact Nat.lt_irrefl _), List.nil_append, hdrop]
    exact ⟨session, rfl, by rw [SameChannel, hbackground]; exact htx⟩
  | event hrunning hsent hreceived hlt =>
    let session₁ : SessionUpdates := { s.session with
      bgEventsTx := some ⟨s.gui.background.sent, s.gui.background.received + 1,
        !s.gui.stage.running⟩ }
    have hrecv : s.session.step .recv = some session₁ := by
      simp [session₁, SessionUpdates.step, h, EventChannel.recv, hrunning, hlt]
    have hnext : session₁.bgEventsTx = some ⟨s.gui.background.sent,
        s.gui.background.received + 1, !s.gui.stage.running⟩ := rfl
    obtain ⟨session, hdrop, htx⟩ := exec_dropReceiver hnext hstays
    rw [if_pos (by rw [hreceived]; exact Nat.lt_succ_self _),
      exec_append_some (exec_single hrecv) hdrop]
    refine ⟨session, rfl, ?_⟩
    rw [SameChannel, hsent, hreceived]
    exact htx

/- What a step of the session itself does to the channel. -/
theorem events_of_step {session session' : SessionUpdates} {l : SessionUpdates.Label}
    {tx : EventChannel} (hown : isOwn l = true) (htx : session.bgEventsTx = some tx)
    (h : session.step l = some session') :
    session'.bgEventsTx = some tx ∨ tx.closed = false ∧ ∃ call ∈ session.calls,
      session'.bgEventsTx = some { tx with sent := tx.sent ++ [call.event] } := by
  cases l with
  | sendStateUpdate event => cases hown
  | recv => cases hown
  | dropReceiver => cases hown
  | notify i =>
    obtain ⟨call, hcall, hcase⟩ := SessionUpdates.notify_cases h
    rcases hcase with ⟨-, rfl | ⟨-, err, rfl⟩⟩ | ⟨-, rfl⟩ | ⟨hstage, ⟨tx', htx', rfl⟩ | ⟨-, rfl⟩⟩ |
      ⟨-, -, err, rfl⟩
    · exact Or.inl htx
    · exact Or.inl htx
    · exact Or.inl htx
    · rw [htx] at htx'
      cases htx'
      refine Or.inr ⟨?_, call, List.mem_of_getElem? hcall, rfl⟩
      -- a closed channel takes nothing
      cases hclosed : tx.closed with
      | false => rfl
      | true =>
        have hevents := congrArg (Option.map fun t => t.events.length) h
        simp [SessionUpdates.step, hcall, SessionUpdates.notifyStateChanged, hstage,
          onStateChanged, htx, EventChannel.send, hclosed, SessionUpdates.events, Except.mapError,
          SessionUpdates.setStage] at hevents
    · exact Or.inl htx
    · exact Or.inl htx
  | close =>
    simp only [SessionUpdates.step] at h
    split at h
    · cases h
      exact Or.inl htx
    · cases h
  | closeShutdown =>
    simp only [SessionUpdates.step] at h
    split at h
    · cases h
      exact Or.inl htx
    · cases h
  | shutdownStarts =>
    simp only [SessionUpdates.step] at h
    split at h
    · cases h
      exact Or.inl htx
    · cases h
  | shutdownEnds =>
    simp only [SessionUpdates.step] at h
    split at h
    · cases h
      exact Or.inl htx
    · cases h

theorem events_eq {session : SessionUpdates} {tx : EventChannel}
    (htx : session.bgEventsTx = some tx) : session.events = tx.sent := by
  rw [SessionUpdates.events, htx]
  rfl

/-- A task of the session that can go on can go on here, and what it sends the GUI gets. -/
theorem SameChannel.moveSession {s : Dialogue} {l : SessionUpdates.Label}
    {session : SessionUpdates} (h : s.SameChannel) (hown : isOwn l = true)
    (hsession : s.session.step l = some session) :
    ∃ gui, s.moveSession l = some { s with gui, session } ∧
      SameChannel { s with gui, session } ∧
      (gui = s.gui ∨ ∃ call ∈ s.session.calls, s.gui.deliver call.event = some gui) := by
  unfold Dialogue.moveSession
  rw [if_pos hown, hsession, Option.bind_some, events_eq h]
  rcases events_of_step hown h hsession with htx | ⟨hclosed, call, hcall, htx⟩
  · refine ⟨s.gui, ?_, htx, Or.inl rfl⟩
    simp only [events_eq htx, List.drop_length]
  · have hrunning : s.gui.stage.running = true := by simpa using hclosed
    have hgui : s.gui.deliver call.event =
        some { s.gui with background := s.gui.background.send call.event } := if_pos hrunning
    refine ⟨{ s.gui with background := s.gui.background.send call.event }, ?_, htx,
      Or.inr ⟨call, hcall, hgui⟩⟩
    simp only [events_eq htx, List.drop_left, hgui, Option.map_some]

theorem SameChannel.step {s t : Dialogue} {l : Label} (h : s.SameChannel)
    (hl : step cat qrFits qrCode describe s l = some t) : t.SameChannel := by
  cases moves_of_step hl with
  | gui hagrees hgui hsession =>
    obtain ⟨session, hmoves, hsame⟩ := h.moveGui hagrees hgui
    rw [Option.some.inj (hl.symm.trans hmoves)]
    exact hsame
  | sent hevent hsession =>
    cases hsession
    exact h
  | session hown hsession =>
    obtain ⟨gui, hmoves, hsame, -⟩ := h.moveSession hown hsession
    rw [Option.some.inj (hl.symm.trans hmoves)]
    exact hsame
  | delivered hown hsession =>
    obtain ⟨gui, hmoves, hsame, -⟩ := h.moveSession hown hsession
    rw [Option.some.inj (hl.symm.trans hmoves)]
    exact hsame
  | _ => exact h

end Dialogue

end Credentialsd
