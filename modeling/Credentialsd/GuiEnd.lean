import Credentialsd.GuiScreen

/-!
# The end of a request in the GUI

`run_gui` is done when the application has returned, and only then the next request is shown. What
is left to do for a request when neither the user nor the bus does anything is bounded, and ends
with a window that waits for one of them or with the end of `run_gui`.
-/

namespace Credentialsd

namespace Gui

variable {cat : Catalogue} {qrFits : String → Bool} {qrCode : OwnedFd → Except Panic String}

/-- A step that nobody outside of the GUI takes: a window is closed by a task of the main loop only
after something has asked for it. -/
def Internal (s : Gui) : Label → Prop
  | .user _ => False
  | .deliver _ => False
  | .passCancellation => False
  | .close => s.window.closing = true
  | _ => True

/-! ### What is left to do -/

def Sent.isDiscovery : Sent → Bool
  | .discoveryRequested => true
  | _ => false

def Op.isDiscovery : Op → Bool
  | .startDiscovery => true
  | _ => false

def Gtk.rank : Gtk → ℕ
  | .starting => 15
  | .open => 8
  | .closed => 1
  | _ => 0

/- An update has to be sent and to be received; two operations may be followed by another update. -/
def Op.rank : Op → ℕ
  | .update _ => 2
  | .setDevicePin _ => 3
  | .selectCredential _ => 3
  | _ => 1

def opsRank (ops : List Op) : ℕ := (ops.map Op.rank).sum

def LoopStage.rank : LoopStage → ℕ
  | .waiting => 3
  | .handling op ops _ => opsRank (op :: ops) + 3
  | .leaving => 2
  | _ => 0

/- A bound on the steps that are left. An event is worth more than what it makes the loop do. -/
def rank (s : Gui) : ℕ :=
  s.gtk.rank + 7 * s.spawned.length + 6 * s.events.waiting.length +
    6 * s.background.waiting.length + s.updates.waiting.length + s.stage.rank +
    s.listening.toNat

@[simp] theorem opsRank_nil : opsRank [] = 0 := rfl

@[simp] theorem opsRank_cons (op : Op) (ops : List Op) :
    opsRank (op :: ops) = op.rank + opsRank ops := rfl

theorem LoopStage.resume_rank (breaks : Bool) (ops : List Op) :
    (resume breaks ops).rank ≤ opsRank ops + 3 := by
  cases ops with
  | cons op ops => exact Nat.le_refl _
  | nil => cases breaks <;> simp [resume, rank]

theorem onBackground_rank {gettext : String → String} {event : BackgroundEvent} {ops : List Op}
    {breaks : Bool} (h : onBackground gettext qrCode event = .ok (ops, breaks)) :
    opsRank ops ≤ 5 := by
  cases event with
  | hybridStarted fd =>
    obtain ⟨text, -, rfl, -⟩ := onBackground_hybridStarted h
    simp [Op.rank]
  | _ =>
    cases h
    simp [Op.rank]

theorem handle_rank {gettext : String → String} {l l' : EventLoop} {event : Event} {ops : List Op}
    {breaks : Bool} (h : l.handle gettext qrCode event = .ok (l', ops, breaks)) :
    opsRank ops ≤ 5 := by
  cases event with
  | view event => cases event <;> cases h <;> simp [Op.rank]
  | background event => exact onBackground_rank (handle_background h)

theorem take_rank (gettext : String → String) (qrCode : OwnedFd → Except Panic String) (s : Gui)
    (event : Event) :
    (take gettext qrCode s event).stage.rank ≤ 8 ∧
      ∃ stage eventLoop, take gettext qrCode s event = { s with stage, eventLoop } := by
  unfold take
  split
  · rename_i l' ops breaks hhandle
    have hops := handle_rank hhandle
    have hresume := LoopStage.resume_rank breaks ops
    refine ⟨?_, _, _, rfl⟩
    show (LoopStage.resume breaks ops).rank ≤ 8
    omega
  · exact ⟨Nat.zero_le _, _, _, rfl⟩

/- What an operation sends: a request for a discovery only if it is one, and a cancellation only if
the system fails. -/
structure Sends (answer : Answer) (op : Op) (sent : List Sent) : Prop where
  discovery : sent.countP Sent.isDiscovery = [op].countP Op.isDiscovery
  cancelled : answer.calls.succeed = true → .client .requestCancelled ∉ sent

theorem sendPin_sends {ε : Type} {tooLong failed : ε} {event : SecretFile → ClientEvent}
    (hevent : ∀ file, event file ≠ .requestCancelled) {answer : Answer} {pin : String}
    {result : Except ε Unit} {events : List ClientEvent}
    (h : sendPin tooLong failed event answer.calls answer.flowOpen pin = .ok (result, events))
    {op : Op} (hop : op.isDiscovery = false) : Sends answer op (events.map .client) := by
  constructor
  · rw [List.countP_singleton, hop]
    exact List.countP_eq_zero.mpr fun e he => by
      obtain ⟨event, -, rfl⟩ := List.mem_map.mp he
      exact Bool.false_ne_true
  · intro hcalls hmem
    obtain ⟨e, he, heq⟩ := List.mem_map.mp hmem
    cases heq
    unfold sendPin at h
    split at h
    · cases h
      cases he
    · rename_i hshort
      have hlength : pin.toUTF8.data.toList.length = pin.utf8ByteSize := rfl
      have hpage : ctapClientSecretMaxLen < minPageSize := by decide
      obtain ⟨file, hw⟩ :=
        (writeSecret_ok answer.calls pin.toUTF8.data.toList).mpr ⟨by omega, hcalls⟩
      rw [hw] at h
      cases h
      unfold clientSend at he
      split at he
      · exact hevent file (List.mem_singleton.mp he).symm
      · cases he

/-- What an operation leads to: the loop panics, or gets over it, with another update to send after
one that has failed. -/
inductive Operates (s : Gui) (answer : Answer) : Op → List Op → Bool → Gui → Prop where
  | panicked {op : Op} {ops : List Op} {breaks : Bool} (p : Panic) :
    Operates s answer op ops breaks { s with stage := .panicked p }
  | update {ops : List Op} {breaks : Bool} (u : ViewUpdate) :
    Operates s answer (.update u) ops breaks
      { s with stage := .resume breaks ops, updates := s.updates.send u }
  | sent {op : Op} {ops : List Op} {breaks : Bool} {sent : List Sent}
    (hop : ∀ u, op ≠ .update u) (hsends : Sends answer op sent) :
    Operates s answer op ops breaks (s.resumeWith breaks ops sent)
  | failed {op : Op} {ops : List Op} {breaks : Bool} {sent : List Sent} (hop : op.rank = 3)
    (u : ViewUpdate) (hsends : Sends answer op sent) :
    Operates s answer op ops breaks (s.resumeWith breaks (.update u :: ops) sent)

theorem operates (gettext : String → String) (s : Gui) (answer : Answer) (op : Op)
    (ops : List Op) (breaks : Bool) :
    Operates s answer op ops breaks (s.operate gettext answer op ops breaks) := by
  cases op with
  | update u =>
    simp only [operate]
    split
    · exact .panicked _
    · exact .update u
  | startDiscovery =>
    simp only [operate]
    split
    · refine .sent (fun u hu => by cases hu) ⟨rfl, fun _ hmem => ?_⟩
      cases List.mem_singleton.mp hmem
    · exact .panicked _
  | enterClientPin pin =>
    simp only [operate]
    split
    · exact .panicked _
    · rename_i hpin
      exact .sent (fun u hu => by cases hu) (sendPin_sends (fun _ heq => by cases heq) hpin rfl)
  | setDevicePin pin =>
    simp only [operate]
    split
    · exact .panicked _
    · rename_i hpin
      exact .failed rfl _ (sendPin_sends (fun _ heq => by cases heq) hpin rfl)
    · rename_i hpin
      exact .sent (fun u hu => by cases hu) (sendPin_sends (fun _ heq => by cases heq) hpin rfl)
  | selectCredential id =>
    simp only [operate]
    split
    · refine .sent (fun u hu => by cases hu) ⟨rfl, fun _ hmem => ?_⟩
      cases List.mem_singleton.mp hmem
    · exact .failed rfl _ ⟨rfl, fun _ => List.not_mem_nil⟩

theorem Op.rank_pos (op : Op) : 0 < op.rank := by
  cases op <;> simp [rank]

theorem Operates.rank {s t : Gui} {answer : Answer} {op : Op} {ops : List Op} {breaks : Bool}
    (h : Operates s answer op ops breaks t) (hstage : s.stage = .handling op ops breaks) :
    t.rank < s.rank := by
  have hpos := op.rank_pos
  have hresume := LoopStage.resume_rank breaks ops
  have hs : s.stage.rank = op.rank + opsRank ops + 3 := by
    rw [hstage]
    rfl
  cases h with
  | panicked p =>
    have hpanicked : (LoopStage.panicked p).rank = 0 := rfl
    simp only [Gui.rank, hs, hpanicked]
    omega
  | update u =>
    have hop : (Op.update u).rank = 2 := rfl
    simp only [Gui.rank, hs, hop, Fifo.send_waiting, List.length_append, List.length_singleton]
    omega
  | sent hop hsends =>
    simp only [resumeWith, Gui.rank, hs]
    omega
  | failed hop u hsends =>
    have hafter := LoopStage.resume_rank breaks (.update u :: ops)
    have hu : (Op.update u).rank = 2 := rfl
    rw [opsRank_cons, hu] at hafter
    simp only [resumeWith, Gui.rank, hs, hop]
    omega

/- A request to close is at most one more event. -/
theorem closeRequest_frame (s : Gui) : ∃ events, s.closeRequest = { s with events } ∧
    (events = s.events ∨ events = s.events.send .userCancelled) := by
  unfold Gui.closeRequest
  split
  · exact ⟨_, rfl, Or.inr rfl⟩
  · exact ⟨_, rfl, Or.inl rfl⟩

theorem closeRequest_rank (s : Gui) : s.closeRequest.rank ≤ s.rank + 6 := by
  obtain ⟨events, heq, rfl | rfl⟩ := closeRequest_frame s
  · rw [heq]
    exact Nat.le_add_right _ _
  · rw [heq]
    simp only [rank, Fifo.send_waiting, List.length_append, List.length_singleton]
    omega

theorem recv_length {α : Type} {c c' : Fifo α} {a : α} (h : c.recv = some (a, c')) :
    c.waiting.length = c'.waiting.length + 1 := by
  rw [(Fifo.recv_some h).2.2, List.length_cons]

/- Every step from inside leaves less to do. -/
theorem internal_lowers {s t : Gui} {l : Label} (hinternal : Internal s l)
    (h : step cat qrFits qrCode s l = some t) : t.rank < s.rank := by
  cases moves_of_step h with
  | acted => exact absurd hinternal id
  | spawned => exact absurd hinternal id
  | asked => exact absurd hinternal id
  | delivered => exact absurd hinternal id
  | cancellationPassed => exact absurd hinternal id
  | activated hgtk =>
    simp only [rank, hgtk, Gtk.rank, Fifo.send_waiting, List.length_append, List.length_singleton]
    omega
  | activatedLate hgtk =>
    simp only [rank, hgtk, Gtk.rank]
    omega
  | polled hgtk hevent =>
    have hlt := (List.getElem?_eq_some_iff.mp hevent).1
    simp only [rank, List.length_eraseIdx_of_lt hlt, Fifo.send_waiting, List.length_append,
      List.length_singleton]
    omega
  | polledLate hgtk hevent =>
    have hlt := (List.getElem?_eq_some_iff.mp hevent).1
    simp only [rank, List.length_eraseIdx_of_lt hlt, Gtk.rank]
    omega
  | updated hgtk hrecv =>
    have hlength := recv_length hrecv
    simp only [rank]
    omega
  | updatePanicked hgtk hrecv =>
    have hlength := recv_length hrecv
    simp only [rank, Gtk.rank]
    omega
  | interrupted hgtk hlistening =>
    simp only [rank, hlistening, Bool.toNat_true, Bool.toNat_false]
    omega
  | closed hgtk =>
    have hrequest := closeRequest_rank s
    obtain ⟨events, heq, -⟩ := closeRequest_frame s
    rw [heq] at hrequest ⊢
    simp only [rank, hgtk, Gtk.rank] at hrequest ⊢
    omega
  | quit hgtk =>
    simp only [rank, hgtk, Gtk.rank]
    omega
  | @viewTaken event events hstage hrecv =>
    have hlength := recv_length hrecv
    obtain ⟨hrank, stage, eventLoop, htake⟩ :=
      take_rank cat.gettext qrCode { s with events } (.view event)
    rw [htake] at hrank ⊢
    simp only [rank, hstage, LoopStage.rank] at hrank ⊢
    omega
  | @backgroundTaken event background hstage hrecv =>
    have hlength := recv_length hrecv
    obtain ⟨hrank, stage, eventLoop, htake⟩ :=
      take_rank cat.gettext qrCode { s with background } (.background event)
    rw [htake] at hrank ⊢
    simp only [rank, hstage, LoopStage.rank] at hrank ⊢
    omega
  | worked hstage => exact (operates cat.gettext s _ _ _ _).rank hstage
  | finished hstage =>
    simp only [rank, hstage, LoopStage.rank]
    omega
  | loopCancelled hgtk halive =>
    have hpos : 0 < s.stage.rank := by
      cases hstage : s.stage with
      | waiting => decide
      | handling => simp [LoopStage.rank]
      | leaving => decide
      | _ =>
        rw [hstage] at halive
        cases halive
    have hcancelled : LoopStage.cancelled.rank = 0 := rfl
    simp only [rank, hcancelled]
    omega

/-! ### What was taken -/

/- The loop breaks after what it handles, or is over. -/
def LoopStage.breaking : LoopStage → Bool
  | .waiting => false
  | .handling _ _ breaks => breaks
  | _ => true

/-- A cancellation that was taken ends the loop, and what ends a request closes the window. -/
structure Ends (s : Gui) : Prop where
  userCancelled : .userCancelled ∈ s.events.taken → s.stage.breaking = true
  errorCancelled : .errorCancelled ∈ s.background.taken → s.stage.breaking = true
  ceremony : .ceremonyCompleted ∈ s.background.taken →
    .update .completed ∈ s.stage.ops ∨ .completed ∈ s.updates.sent ∨ s.stage.running = false
  completed : .completed ∈ s.updates.taken → s.window.closing = true
  interrupted : s.listening = false → s.window.closing = true

@[simp] theorem LoopStage.resume_breaking (breaks : Bool) (ops : List Op) :
    (resume breaks ops).breaking = breaks := by
  cases ops with
  | cons op ops => rfl
  | nil => cases breaks <;> rfl

/- A task of the main loop is going to close the window. -/
def ViewUpdate.closes : ViewUpdate → Bool
  | .completed => true
  | .cancelled => true
  | _ => false

theorem receive_closing {w w' : Window} {u : ViewUpdate} (h : w.receive cat qrFits u = .ok w') :
    w'.closing = (w.closing || u.closes) := by
  cases u with
  | waitingForDevice device =>
    obtain ⟨prompt, rfl⟩ := Window.waitingForDevice_ok h
    exact (Bool.or_false _).symm
  | hybridNeedsQrCode qrCode =>
    rw [Window.hybridNeedsQrCode_ok h]
    exact (Bool.or_false _).symm
  | completed =>
    cases h
    rfl
  | cancelled =>
    cases h
    rfl
  | _ =>
    cases h
    exact (Bool.or_false _).symm

theorem act_closing {w w' : Window} {a : Window.UserAction} {event : Option ViewEvent}
    (h : w.act a = some (w', event)) : w'.closing = w.closing := by
  cases Window.acts_of_act h <;> rfl

theorem closeRequest_ends {s : Gui} (h : Ends s) : Ends s.closeRequest := by
  obtain ⟨events, heq, rfl | rfl⟩ := closeRequest_frame s
  · rwa [heq]
  · rw [heq]
    exact { h with userCancelled := fun hmem => h.userCancelled (by rwa [Fifo.send_taken] at hmem) }

theorem mem_taken {α : Type} {c c' : Fifo α} {a b : α} (hrecv : c.recv = some (a, c'))
    (hb : b ∈ c'.taken) : b ∈ c.taken ∨ b = a := by
  rw [(Fifo.recv_some hrecv).2.1] at hb
  exact (List.mem_append.mp hb).imp_right List.mem_singleton.mp

/- While the loop waits, no cancellation was taken. -/
theorem Ends.waiting {s : Gui} (h : Ends s) (hstage : s.stage = .waiting) :
    .userCancelled ∉ s.events.taken ∧ .errorCancelled ∉ s.background.taken ∧
      (.ceremonyCompleted ∈ s.background.taken → .completed ∈ s.updates.sent) := by
  have huser := h.userCancelled
  have herror := h.errorCancelled
  have hceremony := h.ceremony
  rw [hstage] at huser herror hceremony
  refine ⟨fun hmem => ?_, fun hmem => ?_, fun hmem => ?_⟩
  · cases huser hmem
  · cases herror hmem
  · rcases hceremony hmem with hmem | hmem | hrunning
    · cases hmem
    · exact hmem
    · cases hrunning

theorem Ends.operate {s t : Gui} (h : Ends s) {answer : Answer} {op : Op} {ops : List Op}
    {breaks : Bool} (hstage : s.stage = .handling op ops breaks)
    (ht : Operates s answer op ops breaks t) : Ends t := by
  have huser := h.userCancelled
  have herror := h.errorCancelled
  have hceremony := h.ceremony
  rw [hstage] at huser herror hceremony
  cases ht with
  | panicked p =>
    exact { h with
      userCancelled := fun _ => rfl
      errorCancelled := fun _ => rfl
      ceremony := fun _ => Or.inr (Or.inr rfl) }
  | update u =>
    refine { h with
      userCancelled := fun hmem => (LoopStage.resume_breaking breaks _).trans (huser hmem)
      errorCancelled := fun hmem => (LoopStage.resume_breaking breaks _).trans (herror hmem)
      ceremony := fun hmem => ?_
      completed := fun hmem => h.completed (by rwa [Fifo.send_taken] at hmem) }
    rw [LoopStage.resume_ops]
    rcases hceremony hmem with hop | hmem | hrunning
    · rcases List.mem_cons.mp hop with heq | hop
      · cases heq
        exact Or.inr (Or.inl (List.mem_append_right _ (List.mem_singleton_self _)))
      · exact Or.inl hop
    · exact Or.inr (Or.inl (List.mem_append_left _ hmem))
    · cases hrunning
  | sent hop hsends =>
    refine { h with
      userCancelled := fun hmem => (LoopStage.resume_breaking breaks _).trans (huser hmem)
      errorCancelled := fun hmem => (LoopStage.resume_breaking breaks _).trans (herror hmem)
      ceremony := fun hmem => ?_ }
    show _ ∈ (LoopStage.resume breaks ops).ops ∨ _
    rw [LoopStage.resume_ops]
    rcases hceremony hmem with hmem | hmem | hrunning
    · rcases List.mem_cons.mp hmem with heq | hmem
      · exact absurd heq.symm (hop _)
      · exact Or.inl hmem
    · exact Or.inr (Or.inl hmem)
    · cases hrunning
  | failed hop u hsends =>
    refine { h with
      userCancelled := fun hmem => huser hmem
      errorCancelled := fun hmem => herror hmem
      ceremony := fun hmem => ?_ }
    show _ ∈ (LoopStage.resume breaks (.update u :: ops)).ops ∨ _
    rw [LoopStage.resume_ops]
    rcases hceremony hmem with hmem | hmem | hrunning
    · rcases List.mem_cons.mp hmem with heq | hmem
      · rw [← heq] at hop
        cases hop
      · exact Or.inl (List.mem_cons_of_mem _ hmem)
    · exact Or.inr (Or.inl hmem)
    · cases hrunning

theorem Ends.step {s t : Gui} {l : Label} (h : Ends s)
    (hstep : step cat qrFits qrCode s l = some t) : Ends t := by
  cases moves_of_step hstep with
  | activated =>
    exact { h with userCancelled := fun hmem => h.userCancelled (by rwa [Fifo.send_taken] at hmem) }
  | acted hgtk hact =>
    exact { h with
      completed := fun hmem => (act_closing hact).trans (h.completed hmem)
      interrupted := fun hoff => (act_closing hact).trans (h.interrupted hoff) }
  | spawned hgtk hevent hact =>
    exact { h with
      completed := fun hmem => (act_closing hact).trans (h.completed hmem)
      interrupted := fun hoff => (act_closing hact).trans (h.interrupted hoff) }
  | @asked _ window hgtk hact =>
    have hwindow : Ends { s with window } := { h with
      completed := fun hmem => (act_closing hact).trans (h.completed hmem)
      interrupted := fun hoff => (act_closing hact).trans (h.interrupted hoff) }
    exact closeRequest_ends hwindow
  | polled =>
    exact { h with userCancelled := fun hmem => h.userCancelled (by rwa [Fifo.send_taken] at hmem) }
  | @updated u updates window hgtk hrecv hwindow =>
    have hclosing := receive_closing hwindow
    refine { h with
      ceremony := fun hmem => ?_
      completed := fun hmem => ?_
      interrupted := fun hoff => ?_ }
    · rw [(Fifo.recv_some hrecv).1]
      exact h.ceremony hmem
    · rcases mem_taken hrecv hmem with hmem | rfl
      · rw [hclosing, h.completed hmem]
        rfl
      · rw [hclosing]
        exact Bool.or_true _
    · rw [hclosing, h.interrupted hoff]
      rfl
  | @updatePanicked u updates p hgtk hrecv hwindow =>
    refine { h with
      ceremony := fun hmem => ?_
      completed := fun hmem => ?_ }
    · rw [(Fifo.recv_some hrecv).1]
      exact h.ceremony hmem
    · rcases mem_taken hrecv hmem with hmem | rfl
      · exact h.completed hmem
      · cases hwindow
  | interrupted =>
    exact { h with
      completed := fun _ => Bool.or_true _
      interrupted := fun _ => Bool.or_true _ }
  | closed => exact { closeRequest_ends h with }
  | delivered =>
    exact { h with
      errorCancelled := fun hmem => h.errorCancelled (by rwa [Fifo.send_taken] at hmem)
      ceremony := fun hmem => h.ceremony (by rwa [Fifo.send_taken] at hmem) }
  | cancellationPassed =>
    exact { h with userCancelled := fun hmem => h.userCancelled (by rwa [Fifo.send_taken] at hmem) }
  | @viewTaken event events hstage hrecv =>
    obtain ⟨huser, herror, hceremony⟩ := h.waiting hstage
    have hbreaks : event = .userCancelled →
        (take cat.gettext qrCode { s with events } (.view event)).stage.breaking = true := by
      rintro rfl
      rfl
    obtain ⟨-, stage, eventLoop, htake⟩ :=
      take_rank cat.gettext qrCode { s with events } (.view event)
    rw [htake] at hbreaks ⊢
    exact { h with
      userCancelled := fun hmem =>
        (mem_taken hrecv hmem).elim (fun hmem => absurd hmem huser) fun heq => hbreaks heq.symm
      errorCancelled := fun hmem => absurd hmem herror
      ceremony := fun hmem => Or.inr (Or.inl (hceremony hmem)) }
  | @backgroundTaken event background hstage hrecv =>
    obtain ⟨huser, herror, hceremony⟩ := h.waiting hstage
    have hbreaks : event = .errorCancelled →
        (take cat.gettext qrCode { s with background } (.background event)).stage.breaking =
          true := by
      rintro rfl
      rfl
    have hcompletes : event = .ceremonyCompleted →
        .update .completed ∈
          (take cat.gettext qrCode { s with background } (.background event)).stage.ops := by
      rintro rfl
      exact List.mem_singleton_self _
    obtain ⟨-, stage, eventLoop, htake⟩ :=
      take_rank cat.gettext qrCode { s with background } (.background event)
    rw [htake] at hbreaks hcompletes ⊢
    exact { h with
      userCancelled := fun hmem => absurd hmem huser
      errorCancelled := fun hmem =>
        (mem_taken hrecv hmem).elim (fun hmem => absurd hmem herror) fun heq => hbreaks heq.symm
      ceremony := fun hmem => (mem_taken hrecv hmem).elim
        (fun hmem => Or.inr (Or.inl (hceremony hmem))) fun heq => Or.inl (hcompletes heq.symm) }
  | worked hstage => exact h.operate hstage (operates ..)
  | finished =>
    exact { h with
      userCancelled := fun _ => rfl
      errorCancelled := fun _ => rfl
      ceremony := fun _ => Or.inr (Or.inr rfl) }
  | loopCancelled =>
    exact { h with
      userCancelled := fun _ => rfl
      errorCancelled := fun _ => rfl
      ceremony := fun _ => Or.inr (Or.inr rfl) }
  | _ => exact { h with }

theorem ends {request : UiService.ViewRequest} {ls : List Label} {s : Gui}
    (h : Machine.exec (step cat qrFits qrCode) (run cat request) ls = some s) : Ends s := by
  have hstart : Ends (run cat request) := by
    refine ⟨fun hmem => ?_, fun hmem => ?_, fun hmem => ?_, fun hmem => ?_, fun hoff => ?_⟩
    · cases hmem
    · cases hmem
    · cases hmem
    · cases hmem
    · cases hoff
  exact Machine.exec_invariant (fun _ _ _ hs _ hl => hs.step hl) hstart
    (Machine.along_trivial _ _ ls) h

/-! ### At rest -/

/-- No step is left that the GUI takes on its own. -/
def AtRest (cat : Catalogue) (qrFits : String → Bool) (qrCode : OwnedFd → Except Panic String)
    (s : Gui) : Prop :=
  ∀ l, Internal s l → step cat qrFits qrCode s l = none

/-- The prompt waits for the user or for the bus: it has handled all that has come, and nothing of
it ends the request. -/
structure Waits (s : Gui) : Prop where
  gtk : s.gtk = .open
  stage : s.stage = .waiting
  closing : s.window.closing = false
  spawned : s.spawned = []
  events : s.events.waiting = []
  background : s.background.waiting = []
  updates : s.updates.waiting = []
  userCancelled : .userCancelled ∉ s.events.sent
  errorCancelled : .errorCancelled ∉ s.background.sent
  ceremony : .ceremonyCompleted ∉ s.background.sent

/-- `run_gui` is done: neither a window nor a loop is left. -/
structure Gone (s : Gui) : Prop where
  gtk : s.gtk = .returned
  stage : s.stage.alive = false

theorem AtRest.stage {s : Gui} (h : AtRest cat qrFits qrCode s) (halive : s.stage.alive = true) :
    s.stage = .waiting := by
  cases hstage : s.stage with
  | waiting => rfl
  | handling op ops breaks =>
    have hwork := h (.work ⟨.working, true, true⟩) trivial
    simp only [step, work, hstage] at hwork
    cases hwork
  | leaving =>
    have hfinish := h (.finish true) trivial
    simp only [step, finish, hstage] at hfinish
    cases hfinish
  | _ =>
    rw [hstage] at halive
    cases halive

/- The loop of `setup_channel` has received everything, and knows whether the sender is gone. -/
theorem AtRest.received {s : Gui} (h : AtRest cat qrFits qrCode s) (hruns : s.gtk.runs = true)
    (hlistening : s.listening = true) : s.updates.waiting = [] ∧ s.stage.alive = true := by
  have hupdate := h .update trivial
  simp only [step, update, hruns, hlistening, and_self, if_true] at hupdate
  cases hrecv : s.updates.recv with
  | none =>
    rw [hrecv] at hupdate
    refine ⟨Fifo.recv_none_iff.mp hrecv, ?_⟩
    cases halive : s.stage.alive with
    | true => rfl
    | false =>
      simp [halive] at hupdate
  | some received =>
    obtain ⟨u, updates⟩ := received
    rw [hrecv] at hupdate
    simp only at hupdate
    split at hupdate <;> cases hupdate

theorem AtRest.waits {s : Gui} (h : AtRest cat qrFits qrCode s) (hends : Ends s)
    (hgtk : s.gtk = .open) : Waits s := by
  have hclosing : s.window.closing = false := by
    cases hclosing : s.window.closing with
    | false => rfl
    | true =>
      have hclose := h .close hclosing
      simp [step, close, hgtk] at hclose
  have hlistening : s.listening = true := by
    cases hlistening : s.listening with
    | true => rfl
    | false => rw [hends.interrupted hlistening] at hclosing; cases hclosing
  have hruns : s.gtk.runs = true := by
    rw [hgtk]
    rfl
  obtain ⟨hupdates, halive⟩ := h.received hruns hlistening
  have hstage := h.stage halive
  obtain ⟨huser, herror, hceremony⟩ := hends.waiting hstage
  have hview := h .takeView trivial
  simp only [step, takeView, hstage, if_true, Option.map_eq_none_iff] at hview
  have hevents := Fifo.recv_none_iff.mp hview
  have hbus := h .takeBackground trivial
  simp only [step, takeBackground, hstage, if_true, Option.map_eq_none_iff] at hbus
  have hbackground := Fifo.recv_none_iff.mp hbus
  have hpoll := h (.poll 0) trivial
  simp only [step, poll, hruns, if_true, Option.map_eq_none_iff, List.getElem?_eq_none_iff]
    at hpoll
  refine ⟨hgtk, hstage, hclosing, List.eq_nil_of_length_eq_zero (Nat.le_zero.mp hpoll), hevents,
    hbackground, hupdates, fun hmem => ?_, fun hmem => ?_, fun hmem => ?_⟩
  · rw [← s.events.taken_append_waiting, hevents, List.append_nil] at hmem
    exact huser hmem
  · rw [← s.background.taken_append_waiting, hbackground, List.append_nil] at hmem
    exact herror hmem
  · rw [← s.background.taken_append_waiting, hbackground, List.append_nil] at hmem
    have hcompleted := hceremony hmem
    rw [← s.updates.taken_append_waiting, hupdates, List.append_nil] at hcompleted
    rw [hends.completed hcompleted] at hclosing
    cases hclosing

theorem AtRest.waits_or_gone {s : Gui} (h : AtRest cat qrFits qrCode s) (hends : Ends s)
    (hgtk : ∀ p, s.gtk ≠ .panicked p) : Waits s ∨ Gone s := by
  cases hs : s.gtk with
  | starting =>
    have hactivate := h .activate trivial
    simp [step, activate, hs] at hactivate
  | «open» => exact Or.inl (h.waits hends hs)
  | closed =>
    have hquit := h .quit trivial
    simp [step, quit, hs] at hquit
  | returned =>
    have hcancel := h .cancelLoop trivial
    simp only [step, cancelLoop, hs, true_and] at hcancel
    refine Or.inr ⟨hs, ?_⟩
    cases halive : s.stage.alive with
    | false => rfl
    | true => simp [halive] at hcancel
  | panicked p => exact absurd hs (hgtk p)

/-- The request was completed or cancelled, by the user, the caller or the daemon. -/
def Over (s : Gui) : Prop :=
  .userCancelled ∈ s.events.sent ∨ .errorCancelled ∈ s.background.sent ∨
    .ceremonyCompleted ∈ s.background.sent

theorem Over.mono {s t : Gui} (h : Over s) (hevents : ∀ e ∈ s.events.sent, e ∈ t.events.sent)
    (hbackground : ∀ e ∈ s.background.sent, e ∈ t.background.sent) : Over t :=
  h.imp (hevents _) (Or.imp (hbackground _) (hbackground _))

theorem Operates.sent_kept {s t : Gui} {answer : Answer} {op : Op} {ops : List Op} {breaks : Bool}
    (h : Operates s answer op ops breaks t) :
    t.events = s.events ∧ t.background = s.background ∧ t.spawned = s.spawned := by
  cases h <;> exact ⟨rfl, rfl, rfl⟩

theorem closeRequest_over {s : Gui} (h : Over s) : Over s.closeRequest := by
  obtain ⟨events, heq, rfl | rfl⟩ := closeRequest_frame s
  · rwa [heq]
  · rw [heq]
    exact h.mono (fun _ he => List.mem_append_left _ he) fun _ he => he

theorem Over.step {s t : Gui} {l : Label} (h : Over s)
    (hstep : step cat qrFits qrCode s l = some t) : Over t := by
  have hsend : ∀ event, ∀ e ∈ s.events.sent, e ∈ (s.events.send event).sent :=
    fun event e he => List.mem_append_left _ he
  cases moves_of_step hstep with
  | activated => exact h.mono (hsend _) fun _ he => he
  | @asked _ window hgtk hact =>
    have hwindow : Over { s with window } := h
    exact closeRequest_over hwindow
  | polled => exact h.mono (hsend _) fun _ he => he
  | closed => exact closeRequest_over h
  | delivered => exact h.mono (fun _ he => he) fun _ he => List.mem_append_left _ he
  | cancellationPassed => exact h.mono (hsend _) fun _ he => he
  | @viewTaken event events hstage hrecv =>
    obtain ⟨-, stage, eventLoop, htake⟩ :=
      take_rank cat.gettext qrCode { s with events } (.view event)
    rw [htake]
    exact h.mono (fun _ he => (Fifo.recv_some hrecv).1 ▸ he) fun _ he => he
  | @backgroundTaken event background hstage hrecv =>
    obtain ⟨-, stage, eventLoop, htake⟩ :=
      take_rank cat.gettext qrCode { s with background } (.background event)
    rw [htake]
    exact h.mono (fun _ he => he) fun _ he => (Fifo.recv_some hrecv).1 ▸ he
  | @worked answer op ops breaks hstage =>
    obtain ⟨hevents, hbackground, -⟩ := (operates cat.gettext s answer op ops breaks).sent_kept
    exact h.mono (fun _ he => hevents ▸ he) fun _ he => hbackground ▸ he
  | _ => exact h

/-- What the GUI does on its own ends after as many steps as its rank at most, with a prompt that
waits for the user or the bus, or with the end of `run_gui`. If the request is over, it is the end
of `run_gui`, in whatever order the two loops go on. -/
theorem comes_to_rest {request : UiService.ViewRequest} {ls : List Label} {s : Gui}
    (h : Machine.exec (step cat qrFits qrCode) (run cat request) ls = some s) :
    (∃ ms r, Machine.exec (step cat qrFits qrCode) s ms = some r ∧
      Machine.Along (step cat qrFits qrCode) (fun m l _ => Internal m l) s ms ∧
      AtRest cat qrFits qrCode r) ∧
    ∀ ms r, Machine.exec (step cat qrFits qrCode) s ms = some r →
      Machine.Along (step cat qrFits qrCode) (fun m l _ => Internal m l) s ms →
      ms.length + r.rank ≤ s.rank ∧
      (AtRest cat qrFits qrCode r → (∀ p, r.gtk ≠ .panicked p) →
        (Waits r ∨ Gone r) ∧ (Over s → Gone r)) := by
  have hlower : ∀ m l t, Internal m l → step cat qrFits qrCode m l = some t → t.rank < m.rank :=
    fun _ _ _ => internal_lowers
  refine ⟨?_, fun ms r hms hinternal => ⟨?_, fun hrest hgtk => ?_⟩⟩
  · obtain ⟨ms, r, hms, hinternal, hrest⟩ := Machine.exists_rest hlower s
    refine ⟨ms, r, hms, hinternal, fun l hl => ?_⟩
    exact Option.eq_none_iff_forall_ne_some.mpr fun t => hrest l t hl
  · exact Machine.length_le_of_lowers hlower hinternal hms
  · have hends := ends (Machine.exec_append_some h hms)
    have hover : Over s → Over r := fun hs =>
      Machine.exec_invariant (fun _ _ _ hm _ hl => Over.step hm hl) hs
        (Machine.along_trivial _ _ ms) hms
    have hchoice := hrest.waits_or_gone hends hgtk
    refine ⟨hchoice, fun hs => hchoice.resolve_left fun hwaits => ?_⟩
    rcases hover hs with hmem | hmem | hmem
    · exact hwaits.userCancelled hmem
    · exact hwaits.errorCancelled hmem
    · exact hwaits.ceremony hmem

/-- The window is closed as soon as it is there. -/
theorem comes_to_rest_closed :
    ∃ s ms r, Machine.exec (step english (fun _ => true) fun _ => .error .unwrap)
      (run english sampleRequest) [.activate, .close] = some s ∧
      Machine.exec (step english (fun _ => true) fun _ => .error .unwrap) s ms = some r ∧
      ms.length ≤ s.rank ∧ ((∀ p, r.gtk ≠ .panicked p) → Gone r) := by
  have hrun : Machine.exec (step english (fun _ => true) fun _ => .error .unwrap)
      (run english sampleRequest) [.activate, .close] = some _ := rfl
  obtain ⟨⟨ms, r, hms, hinternal, hrest⟩, hall⟩ := comes_to_rest hrun
  obtain ⟨hlength, hgone⟩ := hall ms r hms hinternal
  refine ⟨_, ms, r, hrun, hms, Nat.le_of_add_right_le hlength, fun hgtk => ?_⟩
  exact (hgone hrest hgtk).2 (Or.inl (List.mem_cons_of_mem _ (List.mem_singleton_self _)))

end Gui

end Credentialsd
