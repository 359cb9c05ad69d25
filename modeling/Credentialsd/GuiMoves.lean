import Credentialsd.GuiSession

/-!
# What a step of the GUI does

One case for every way in which a step may end, with what it changes. What the user is shown and
what is sent for him is derived from these.
-/

namespace Credentialsd

namespace Gui

variable (cat : Catalogue) (qrFits : String → Bool) (qrCode : OwnedFd → Except Panic String)

inductive Moves : Gui → Label → Gui → Prop where
  | activated {s : Gui} (hgtk : s.gtk = .starting) (halive : s.stage.alive = true) :
    Moves s .activate { s with gtk := .open, events := s.events.send .initiated }
  | activatedLate {s : Gui} (hgtk : s.gtk = .starting) (halive : s.stage.alive = false) :
    Moves s .activate { s with gtk := .panicked .unwrap }
  | acted {s : Gui} {a : Window.UserAction} {window : Window} (hgtk : s.gtk = .open)
    (hact : s.window.act a = some (window, none)) : Moves s (.user a) { s with window }
  | spawned {s : Gui} {a : Window.UserAction} {window : Window} {event : ViewEvent}
    (hgtk : s.gtk = .open) (hevent : event ≠ .userCancelled)
    (hact : s.window.act a = some (window, some event)) :
    Moves s (.user a) { s with window, spawned := s.spawned ++ [event] }
  | asked {s : Gui} {a : Window.UserAction} {window : Window} (hgtk : s.gtk = .open)
    (hact : s.window.act a = some (window, some .userCancelled)) :
    Moves s (.user a) (closeRequest { s with window })
  | polled {s : Gui} {i : Nat} {event : ViewEvent} (hgtk : s.gtk.runs = true)
    (hevent : s.spawned[i]? = some event) (halive : s.stage.alive = true) :
    Moves s (.poll i)
      { s with spawned := s.spawned.eraseIdx i, events := s.events.send event }
  | polledLate {s : Gui} {i : Nat} {event : ViewEvent} (hgtk : s.gtk.runs = true)
    (hevent : s.spawned[i]? = some event) (halive : s.stage.alive = false) :
    Moves s (.poll i) { s with spawned := s.spawned.eraseIdx i, gtk := .panicked .unwrap }
  | updated {s : Gui} {u : ViewUpdate} {updates : Fifo ViewUpdate} {window : Window}
    (hgtk : s.gtk.runs = true) (hrecv : s.updates.recv = some (u, updates))
    (hwindow : s.window.receive cat qrFits u = .ok window) :
    Moves s .update { s with window, updates }
  | updatePanicked {s : Gui} {u : ViewUpdate} {updates : Fifo ViewUpdate} {p : Panic}
    (hgtk : s.gtk.runs = true) (hrecv : s.updates.recv = some (u, updates))
    (hwindow : s.window.receive cat qrFits u = .error p) :
    Moves s .update { s with updates, gtk := .panicked p }
  | interrupted {s : Gui} (hgtk : s.gtk.runs = true) (hlistening : s.listening = true)
    (hrecv : s.updates.recv = none) (halive : s.stage.alive = false) :
    Moves s .update { s with window := s.window.interrupted, listening := false }
  | closed {s : Gui} (hgtk : s.gtk = .open) :
    Moves s .close { s.closeRequest with gtk := .closed }
  | quit {s : Gui} (hgtk : s.gtk = .closed) : Moves s .quit { s with gtk := .returned }
  | delivered {s : Gui} {event : BackgroundEvent} (hrunning : s.stage.running = true) :
    Moves s (.deliver event) { s with background := s.background.send event }
  | cancellationPassed {s : Gui} (htask : s.cancelTask = true)
    (hrunning : s.stage.running = true) :
    Moves s .passCancellation
      { s with cancelTask := false, events := s.events.send .userCancelled }
  | viewTaken {s : Gui} {event : ViewEvent} {events : Fifo ViewEvent}
    (hstage : s.stage = .waiting) (hrecv : s.events.recv = some (event, events)) :
    Moves s .takeView (take cat.gettext qrCode { s with events } (.view event))
  | backgroundTaken {s : Gui} {event : BackgroundEvent} {background : Fifo BackgroundEvent}
    (hstage : s.stage = .waiting) (hrecv : s.background.recv = some (event, background)) :
    Moves s .takeBackground (take cat.gettext qrCode { s with background } (.background event))
  | worked {s : Gui} {answer : Answer} {op : Op} {ops : List Op} {breaks : Bool}
    (hstage : s.stage = .handling op ops breaks) :
    Moves s (.work answer) (s.operate cat.gettext answer op ops breaks)
  | finished {s : Gui} {flowOpen : Bool} (hstage : s.stage = .leaving) :
    Moves s (.finish flowOpen) { s with
      stage := .ended
      sent := s.sent ++ (clientSend flowOpen .requestCancelled).2.map .client }
  | loopCancelled {s : Gui} (hgtk : s.gtk = .returned) (halive : s.stage.alive = true) :
    Moves s .cancelLoop { s with stage := .cancelled }

variable {cat qrFits qrCode}

theorem moves_of_step {s t : Gui} {l : Label} (h : step cat qrFits qrCode s l = some t) :
    Moves cat qrFits qrCode s l t := by
  cases l with
  | activate =>
    simp only [step, activate, sendEvent] at h
    split at h
    · rename_i hgtk
      split at h
      · rename_i halive
        cases h
        exact .activated hgtk halive
      · rename_i halive
        cases h
        exact .activatedLate hgtk (Bool.eq_false_iff.mpr halive)
    · cases h
  | user a =>
    simp only [step, user] at h
    split at h
    · rename_i hgtk
      obtain ⟨⟨window, event⟩, hact, rfl⟩ := Option.map_eq_some_iff.mp h
      cases event with
      | none => exact .acted hgtk hact
      | some event =>
        by_cases hevent : event = .userCancelled
        · subst hevent
          exact .asked hgtk hact
        · have hspawned : Moves cat qrFits qrCode s (.user a)
              { s with window, spawned := s.spawned ++ [event] } := .spawned hgtk hevent hact
          cases event with
          | userCancelled => exact absurd rfl hevent
          | _ => exact hspawned
    · cases h
  | poll i =>
    simp only [step, poll, sendEvent] at h
    split at h
    · rename_i hgtk
      obtain ⟨event, hevent, h⟩ := Option.map_eq_some_iff.mp h
      split at h
      · rename_i halive
        cases h
        exact .polled hgtk hevent halive
      · rename_i halive
        cases h
        exact .polledLate hgtk hevent (Bool.eq_false_iff.mpr halive)
    · cases h
  | update =>
    simp only [step, update] at h
    split at h
    · rename_i hrun
      split at h
      · rename_i hrecv
        split at h
        · rename_i hwindow
          cases h
          exact .updated hrun.1 hrecv hwindow
        · rename_i hwindow
          cases h
          exact .updatePanicked hrun.1 hrecv hwindow
      · rename_i hrecv
        split at h
        · cases h
        · rename_i halive
          cases h
          exact .interrupted hrun.1 hrun.2 hrecv (Bool.eq_false_iff.mpr halive)
    · cases h
  | close =>
    simp only [step, close] at h
    split at h
    · cases h
      exact .closed ‹_›
    · cases h
  | quit =>
    simp only [step, quit] at h
    split at h
    · cases h
      exact .quit ‹_›
    · cases h
  | deliver event =>
    simp only [step, deliver] at h
    split at h
    · cases h
      exact .delivered ‹_›
    · cases h
  | passCancellation =>
    simp only [step, passCancellation] at h
    split at h
    · rename_i hpass
      cases h
      exact .cancellationPassed hpass.1 hpass.2
    · cases h
  | takeView =>
    simp only [step, takeView] at h
    split at h
    · obtain ⟨⟨event, events⟩, hrecv, rfl⟩ := Option.map_eq_some_iff.mp h
      exact .viewTaken ‹_› hrecv
    · cases h
  | takeBackground =>
    simp only [step, takeBackground] at h
    split at h
    · obtain ⟨⟨event, background⟩, hrecv, rfl⟩ := Option.map_eq_some_iff.mp h
      exact .backgroundTaken ‹_› hrecv
    · cases h
  | work answer =>
    simp only [step, work] at h
    split at h
    · cases h
      exact .worked ‹_›
    · cases h
  | finish flowOpen =>
    simp only [step, finish] at h
    split at h
    · cases h
      exact .finished ‹_›
    · cases h
  | cancelLoop =>
    simp only [step, cancelLoop] at h
    split at h
    · rename_i hcancel
      cases h
      exact .loopCancelled hcancel.1 hcancel.2
    · cases h

/-! ### What the loop does for an event -/

theorem onBackground_hybridStarted {gettext : String → String} {fd : OwnedFd} {ops : List Op}
    {breaks : Bool} (h : onBackground gettext qrCode (.hybridStarted fd) = .ok (ops, breaks)) :
    ∃ text, qrCode fd = .ok text ∧ ops = [.update (.hybridNeedsQrCode text)] ∧
      breaks = false := by
  simp only [onBackground] at h
  cases hqr : qrCode fd with
  | error p =>
    rw [hqr] at h
    cases h
  | ok text =>
    rw [hqr] at h
    cases h
    exact ⟨text, rfl, rfl, rfl⟩

/- Nothing that comes from the bus goes back to it. -/
theorem updates_only {gettext : String → String} {event : BackgroundEvent} {ops : List Op}
    {breaks : Bool}
    (h : onBackground gettext qrCode event = .ok (ops, breaks)) :
    ∀ op ∈ ops, ∃ u, op = .update u := by
  cases event with
  | hybridStarted fd =>
    obtain ⟨text, -, rfl, -⟩ := onBackground_hybridStarted h
    simp
  | _ =>
    cases h
    simp

theorem handle_background {gettext : String → String} {l l' : EventLoop} {event : BackgroundEvent}
    {ops : List Op} {breaks : Bool}
    (h : l.handle gettext qrCode (.background event) = .ok (l', ops, breaks)) :
    onBackground gettext qrCode event = .ok (ops, breaks) := by
  simp only [EventLoop.handle] at h
  cases hhandled : onBackground gettext qrCode event with
  | error p =>
    rw [hhandled] at h
    cases h
  | ok handled =>
    rw [hhandled] at h
    cases h
    rfl

/-! ### The loop is left once -/

@[simp] theorem closeRequest_stage (s : Gui) : s.closeRequest.stage = s.stage := by
  unfold Gui.closeRequest
  split <;> rfl

@[simp] theorem closeRequest_updates (s : Gui) : s.closeRequest.updates = s.updates := by
  unfold Gui.closeRequest
  split <;> rfl

theorem not_running_step {s t : Gui} {l : Label} (h : s.stage.running = false)
    (hstep : step cat qrFits qrCode s l = some t) : t.stage.running = false := by
  cases moves_of_step hstep with
  | asked =>
    rw [closeRequest_stage]
    exact h
  | closed =>
    show s.closeRequest.stage.running = false
    rw [closeRequest_stage]
    exact h
  | viewTaken hstage =>
    rw [hstage] at h
    cases h
  | backgroundTaken hstage =>
    rw [hstage] at h
    cases h
  | worked hstage =>
    rw [hstage] at h
    cases h
  | finished => rfl
  | loopCancelled => rfl
  | _ => exact h

/-! ### What is handed on -/

/-- Properties of what the GUI holds and hands on, from the bus to the window and from the user to
the bus. -/
structure Marks where
  window : Window → Prop
  event : ViewEvent → Prop
  background : BackgroundEvent → Prop
  op : Op → Prop
  sent : Sent → Prop

namespace Marks

/-- The properties go along with what is handed on. -/
structure Respected (cat : Catalogue) (qrFits : String → Bool)
    (qrCode : OwnedFd → Except Panic String) (m : Marks) : Prop where
  initiated : m.event .initiated
  userCancelled : m.event .userCancelled
  onView : ∀ {l l' event ops breaks}, m.event event →
    EventLoop.handle cat.gettext qrCode l (.view event) = .ok (l', ops, breaks) →
    ∀ op ∈ ops, m.op op
  onBackground : ∀ {event ops breaks}, m.background event →
    onBackground cat.gettext qrCode event = .ok (ops, breaks) → ∀ op ∈ ops, m.op op
  pinNotSet : ∀ {pin} error, m.op (.setDevicePin pin) → m.op (.update (.pinNotSet error))
  failed : ∀ error, m.op (.update (.failed error))
  received : ∀ {w w' u}, m.window w → m.op (.update u) → w.receive cat qrFits u = .ok w' →
    m.window w'
  interrupted : ∀ {w}, m.window w → m.window w.interrupted
  acted : ∀ {w w' a event}, m.window w → w.act a = some (w', event) → m.window w'
  discoveryRequested : m.sent .discoveryRequested
  enterClientPin : ∀ {calls isOpen pin result events}, m.op (.enterClientPin pin) →
    Credentialsd.enterClientPin calls isOpen pin = .ok (result, events) →
    ∀ e ∈ events, m.sent (.client e)
  setDevicePin : ∀ {calls isOpen pin result events}, m.op (.setDevicePin pin) →
    Credentialsd.setDevicePin calls isOpen pin = .ok (result, events) →
    ∀ e ∈ events, m.sent (.client e)
  selectCredential : ∀ {id}, m.op (.selectCredential id) → m.sent (.credentialSelected id)
  requestCancelled : m.sent (.client .requestCancelled)

/-- Everything in a state has them. -/
structure Held (m : Marks) (s : Gui) : Prop where
  window : m.window s.window
  spawned : ∀ event ∈ s.spawned, m.event event
  events : ∀ event ∈ s.events.sent, m.event event
  background : ∀ event ∈ s.background.sent, m.background event
  ops : ∀ op ∈ s.stage.ops, m.op op
  updates : ∀ u ∈ s.updates.sent, m.op (.update u)
  sent : ∀ e ∈ s.sent, m.sent e

/-- What comes in with a label has them. -/
def Fresh (m : Marks) (s : Gui) (l : Label) (_ : Gui) : Prop :=
  (∀ event, l = .deliver event → m.background event) ∧
  ∀ a window event, l = .user a → s.window.act a = some (window, some event) → m.event event

theorem mem_send {α : Type} {P : α → Prop} {c : Fifo α} {a : α} (hc : ∀ x ∈ c.sent, P x)
    (ha : P a) : ∀ x ∈ (c.send a).sent, P x := by
  intro x hx
  rw [Fifo.send_sent] at hx
  rcases List.mem_append.mp hx with hx | hx
  · exact hc x hx
  · rw [List.mem_singleton.mp hx]
    exact ha

theorem mem_append {α : Type} {P : α → Prop} {xs ys : List α} (hxs : ∀ x ∈ xs, P x)
    (hys : ∀ y ∈ ys, P y) : ∀ x ∈ xs ++ ys, P x := by
  intro x hx
  exact (List.mem_append.mp hx).elim (hxs x) (hys x)

variable {m : Marks} {s : Gui}

theorem Held.take (h : m.Held s) {event : Event}
    (hops : ∀ l' ops breaks, s.eventLoop.handle cat.gettext qrCode event = .ok (l', ops, breaks) →
      ∀ op ∈ ops, m.op op) : m.Held (Gui.take cat.gettext qrCode s event) := by
  unfold Gui.take
  split
  · rename_i l' ops breaks hhandle
    refine ⟨h.window, h.spawned, h.events, h.background, ?_, h.updates, h.sent⟩
    rw [LoopStage.resume_ops]
    exact hops l' ops breaks hhandle
  · exact ⟨h.window, h.spawned, h.events, h.background, List.forall_mem_nil _, h.updates, h.sent⟩

/- After an operation: the ones that are left, and what was sent. -/
theorem Held.resumeWith (h : m.Held s) {breaks : Bool} {ops : List Op} {sent : List Sent}
    (hops : ∀ op ∈ ops, m.op op) (hsent : ∀ e ∈ sent, m.sent e) :
    m.Held (s.resumeWith breaks ops sent) := by
  refine ⟨h.window, h.spawned, h.events, h.background, ?_, h.updates, mem_append h.sent hsent⟩
  show ∀ op ∈ (LoopStage.resume breaks ops).ops, m.op op
  rw [LoopStage.resume_ops]
  exact hops

theorem Held.panicked (h : m.Held s) (p : Panic) : m.Held { s with stage := .panicked p } :=
  ⟨h.window, h.spawned, h.events, h.background, List.forall_mem_nil _, h.updates, h.sent⟩

theorem forall_mem_client {events : List ClientEvent} {P : Sent → Prop}
    (h : ∀ e ∈ events, P (.client e)) : ∀ e ∈ events.map Sent.client, P e := by
  intro e he
  obtain ⟨event, hevent, rfl⟩ := List.mem_map.mp he
  exact h event hevent

theorem Held.operate (hm : m.Respected cat qrFits qrCode) (h : m.Held s) {answer : Answer}
    {op : Op} {ops : List Op} {breaks : Bool} (hop : m.op op) (hops : ∀ op ∈ ops, m.op op) :
    m.Held (s.operate cat.gettext answer op ops breaks) := by
  cases op with
  | update u =>
    simp only [Gui.operate]
    split
    · exact h.panicked _
    · refine ⟨h.window, h.spawned, h.events, h.background, ?_, mem_send h.updates hop, h.sent⟩
      rw [LoopStage.resume_ops]
      exact hops
  | startDiscovery =>
    simp only [Gui.operate]
    split
    · exact h.resumeWith hops (by simpa using hm.discoveryRequested)
    · exact h.panicked _
  | enterClientPin pin =>
    simp only [Gui.operate]
    split
    · exact h.panicked _
    · rename_i hpin
      exact h.resumeWith hops (forall_mem_client (hm.enterClientPin hop hpin))
  | setDevicePin pin =>
    simp only [Gui.operate]
    split
    · exact h.panicked _
    · rename_i error events hpin
      refine h.resumeWith ?_ (forall_mem_client (hm.setDevicePin hop hpin))
      exact List.forall_mem_cons.mpr ⟨hm.pinNotSet error hop, hops⟩
    · rename_i hpin
      exact h.resumeWith hops (forall_mem_client (hm.setDevicePin hop hpin))
  | selectCredential id =>
    simp only [Gui.operate]
    split
    · exact h.resumeWith hops (by simpa using hm.selectCredential hop)
    · refine h.resumeWith ?_ (List.forall_mem_nil _)
      exact List.forall_mem_cons.mpr ⟨hm.failed _, hops⟩

theorem Held.closeRequest (hm : m.Respected cat qrFits qrCode) (h : m.Held s) :
    m.Held s.closeRequest := by
  unfold Gui.closeRequest
  split
  · exact ⟨h.window, h.spawned, mem_send h.events hm.userCancelled, h.background, h.ops, h.updates,
      h.sent⟩
  · exact h

theorem Held.step (hm : m.Respected cat qrFits qrCode) {t : Gui} {l : Label} (h : m.Held s)
    (hfresh : m.Fresh s l t) (hstep : Gui.step cat qrFits qrCode s l = some t) : m.Held t := by
  have hupdates : ∀ {u updates}, s.updates.recv = some (u, updates) →
      ∀ x ∈ updates.sent, m.op (.update x) := by
    intro u updates hrecv
    rw [(Fifo.recv_some hrecv).1]
    exact h.updates
  cases moves_of_step hstep with
  | activated =>
    exact ⟨h.window, h.spawned, mem_send h.events hm.initiated, h.background, h.ops, h.updates,
      h.sent⟩
  | acted hgtk hact => exact { h with window := hm.acted h.window hact }
  | spawned hgtk hevent hact =>
    exact { h with
      window := hm.acted h.window hact
      spawned := mem_append h.spawned (by simpa using hfresh.2 _ _ _ rfl hact) }
  | @asked _ window hgtk hact =>
    have hwindow : m.Held { s with window } := { h with window := hm.acted h.window hact }
    exact hwindow.closeRequest hm
  | polled hgtk hevent =>
    exact { h with
      spawned := fun e he => h.spawned e (List.mem_of_mem_eraseIdx he)
      events := mem_send h.events (h.spawned _ (List.mem_of_getElem? hevent)) }
  | polledLate =>
    exact { h with spawned := fun e he => h.spawned e (List.mem_of_mem_eraseIdx he) }
  | updated hgtk hrecv hwindow =>
    exact { h with
      window := hm.received h.window (h.updates _ (Fifo.mem_of_recv hrecv)) hwindow
      updates := hupdates hrecv }
  | updatePanicked hgtk hrecv hwindow => exact { h with updates := hupdates hrecv }
  | interrupted => exact { h with window := hm.interrupted h.window }
  | closed => exact { h.closeRequest hm with }
  | delivered => exact { h with background := mem_send h.background (hfresh.1 _ rfl) }
  | cancellationPassed => exact { h with events := mem_send h.events hm.userCancelled }
  | @viewTaken event events hstage hrecv =>
    have htaken : m.Held { s with events } := { h with
      events := by
        rw [(Fifo.recv_some hrecv).1]
        exact h.events }
    exact htaken.take fun l' ops breaks hhandle =>
      hm.onView (h.events _ (Fifo.mem_of_recv hrecv)) hhandle
  | @backgroundTaken event background hstage hrecv =>
    have htaken : m.Held { s with background } := { h with
      background := by
        rw [(Fifo.recv_some hrecv).1]
        exact h.background }
    exact htaken.take fun l' ops breaks hhandle =>
      hm.onBackground (h.background _ (Fifo.mem_of_recv hrecv)) (handle_background hhandle)
  | worked hstage =>
    have hops := h.ops
    rw [hstage] at hops
    obtain ⟨hop, hrest⟩ := List.forall_mem_cons.mp hops
    exact h.operate hm hop hrest
  | @finished flowOpen hstage =>
    refine { h with
      ops := List.forall_mem_nil _
      sent := mem_append h.sent (forall_mem_client fun e he => ?_) }
    unfold clientSend at he
    split at he
    · rw [List.mem_singleton.mp he]
      exact hm.requestCancelled
    · cases he
  | loopCancelled => exact { h with ops := List.forall_mem_nil _ }
  | _ => exact { h with }

/- Weaker properties hold too. -/
theorem Held.mono {m' : Marks} (h : m.Held s) (hwindow : ∀ w, m.window w → m'.window w)
    (hevent : ∀ event, m.event event → m'.event event)
    (hbackground : ∀ event, m.background event → m'.background event)
    (hop : ∀ op, m.op op → m'.op op) (hsent : ∀ e, m.sent e → m'.sent e) : m'.Held s where
  window := hwindow _ h.window
  spawned event he := hevent event (h.spawned event he)
  events event he := hevent event (h.events event he)
  background event he := hbackground event (h.background event he)
  ops op ho := hop op (h.ops op ho)
  updates u hu := hop _ (h.updates u hu)
  sent e he := hsent e (h.sent e he)

theorem held_start (hwindow : m.window {}) (request : UiService.ViewRequest) :
    m.Held (Gui.run cat request) :=
  ⟨hwindow, List.forall_mem_nil _, List.forall_mem_nil _, List.forall_mem_nil _,
    List.forall_mem_nil _, List.forall_mem_nil _, List.forall_mem_nil _⟩

/-- What holds at the beginning and of everything that comes in holds in the whole run. -/
theorem Respected.run (hm : m.Respected cat qrFits qrCode) {request : UiService.ViewRequest}
    {ls : List Label} (hwindow : m.window {})
    (hfresh : Machine.Along (step cat qrFits qrCode) m.Fresh (run cat request) ls)
    (h : Machine.exec (step cat qrFits qrCode) (run cat request) ls = some s) : m.Held s :=
  Machine.exec_invariant (fun _ _ _ hs hc hl => hs.step hm hc hl) (held_start hwindow request)
    hfresh h

end Marks

end Gui

end Credentialsd
