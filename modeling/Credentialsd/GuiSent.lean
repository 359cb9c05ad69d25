import Credentialsd.GuiEnd

/-!
# What the GUI sends for a request

A request leaves the GUI once: one discovery when the window is there, one cancellation when the
loop has come to its end. What the user enters in between is in `GuiChoices`.
-/

namespace Credentialsd

namespace Gui

variable {cat : Catalogue} {qrFits : String → Bool} {qrCode : OwnedFd → Except Panic String}

/-! ### Discoveries -/

/- How often the application is still activated. -/
def Gtk.activations : Gtk → ℕ
  | .starting => 1
  | _ => 0

def ViewEvent.isInitiated : ViewEvent → Bool
  | .initiated => true
  | _ => false

def Event.isInitiated : Event → Bool
  | .view event => event.isInitiated
  | .background _ => false

/- The request for a discovery, wherever it is on its way. -/
def discoveries (s : Gui) : ℕ :=
  s.gtk.activations + s.events.waiting.countP ViewEvent.isInitiated +
    s.stage.ops.countP Op.isDiscovery + s.sent.countP Sent.isDiscovery

theorem take_discoveries (gettext : String → String) (qrCode : OwnedFd → Except Panic String)
    (s : Gui) (event : Event) :
    (take gettext qrCode s event).stage.ops.countP Op.isDiscovery ≤ event.isInitiated.toNat ∧
      ((take gettext qrCode s event).stage.alive = true →
        (take gettext qrCode s event).stage.ops.countP Op.isDiscovery =
          event.isInitiated.toNat) := by
  cases event with
  | view event =>
    have hops : (take gettext qrCode s (.view event)).stage.ops.countP Op.isDiscovery =
        event.isInitiated.toNat := by
      cases event <;> rfl
    exact ⟨Nat.le_of_eq hops, fun _ => hops⟩
  | background event =>
    unfold take
    split
    · rename_i l' ops breaks hhandle
      have hops : (LoopStage.resume breaks ops).ops.countP Op.isDiscovery = 0 := by
        rw [LoopStage.resume_ops]
        refine List.countP_eq_zero.mpr fun op hop => ?_
        obtain ⟨u, rfl⟩ := updates_only (handle_background hhandle) op hop
        exact Bool.false_ne_true
      exact ⟨Nat.le_of_eq hops, fun _ => hops⟩
    · exact ⟨Nat.zero_le _, fun halive => by cases halive⟩

theorem closeRequest_discoveries (s : Gui) : s.closeRequest.discoveries = s.discoveries := by
  obtain ⟨events, heq, rfl | rfl⟩ := closeRequest_frame s
  · rw [heq]
  · rw [heq]
    simp [discoveries, ViewEvent.isInitiated]

theorem Operates.discoveries {s t : Gui} {answer : Answer} {op : Op} {ops : List Op}
    {breaks : Bool} (hstage : s.stage = .handling op ops breaks)
    (h : Operates s answer op ops breaks t) :
    t.discoveries ≤ s.discoveries ∧ (t.stage.alive = true → t.discoveries = s.discoveries) := by
  have hops : s.stage.ops.countP Op.isDiscovery =
      ops.countP Op.isDiscovery + [op].countP Op.isDiscovery := by
    rw [hstage, List.countP_singleton]
    exact List.countP_cons
  cases h with
  | panicked p =>
    have hpanicked : (LoopStage.panicked p).ops.countP Op.isDiscovery = 0 := rfl
    refine ⟨?_, fun halive => by cases halive⟩
    simp only [Gui.discoveries, hpanicked]
    omega
  | update u =>
    have hu : [Op.update u].countP Op.isDiscovery = 0 := rfl
    have heq : Gui.discoveries
        { s with stage := .resume breaks ops, updates := s.updates.send u } = s.discoveries := by
      simp only [Gui.discoveries, hops, LoopStage.resume_ops]
      omega
    exact ⟨Nat.le_of_eq heq, fun _ => heq⟩
  | @sent _ _ _ sent hop hsends =>
    have heq : (s.resumeWith breaks ops sent).discoveries = s.discoveries := by
      simp only [Gui.discoveries, resumeWith, hops, LoopStage.resume_ops, List.countP_append,
        hsends.discovery]
      omega
    exact ⟨Nat.le_of_eq heq, fun _ => heq⟩
  | @failed _ _ _ sent hop u hsends =>
    have hu : (Op.update u :: ops).countP Op.isDiscovery = ops.countP Op.isDiscovery :=
      List.countP_cons_of_neg Bool.false_ne_true
    have heq : (s.resumeWith breaks (.update u :: ops) sent).discoveries = s.discoveries := by
      simp only [Gui.discoveries, resumeWith, hops, LoopStage.resume_ops, List.countP_append,
        hsends.discovery, hu]
      omega
    exact ⟨Nat.le_of_eq heq, fun _ => heq⟩

/-- Whatever the user and the bus do: at most one discovery is asked for, and exactly one unless the
loop stops before. -/
structure Asks (s : Gui) : Prop where
  spawned : ∀ event ∈ s.spawned, event.isInitiated = false
  le : s.discoveries ≤ 1
  eq : s.stage.alive = true → s.discoveries = 1

theorem Asks.of_eq {s t : Gui} (h : Asks s)
    (hspawned : ∀ event ∈ t.spawned, event.isInitiated = false)
    (hdiscoveries : t.discoveries ≤ s.discoveries)
    (halive : t.stage.alive = true → s.stage.alive = true ∧ t.discoveries = s.discoveries) :
    Asks t :=
  ⟨hspawned, hdiscoveries.trans h.le, fun ht => (halive ht).2.trans (h.eq (halive ht).1)⟩

theorem countP_waiting {α : Type} (p : α → Bool) {c c' : Fifo α} {a : α}
    (h : c.recv = some (a, c')) :
    c.waiting.countP p = c'.waiting.countP p + (p a).toNat := by
  rw [(Fifo.recv_some h).2.2, List.countP_cons]
  cases p a <;> rfl

theorem Asks.step {s t : Gui} {l : Label} (h : Asks s)
    (hstep : step cat qrFits qrCode s l = some t) : Asks t := by
  cases moves_of_step hstep with
  | activated hgtk =>
    have hevents : (s.events.send .initiated).waiting.countP ViewEvent.isInitiated =
        s.events.waiting.countP ViewEvent.isInitiated + 1 := by
      rw [Fifo.send_waiting, List.countP_append]
      rfl
    have heq : Gui.discoveries { s with gtk := .open, events := s.events.send .initiated } =
        s.discoveries := by
      simp only [discoveries, hgtk, Gtk.activations, hevents]
      omega
    exact h.of_eq h.spawned (Nat.le_of_eq heq) fun halive => ⟨halive, heq⟩
  | activatedLate hgtk halive =>
    refine h.of_eq h.spawned ?_ fun ht => ?_
    · simp only [discoveries, hgtk, Gtk.activations]
      omega
    · rw [halive] at ht
      cases ht
  | acted => exact h.of_eq h.spawned (Nat.le_refl _) fun halive => ⟨halive, rfl⟩
  | @spawned a window event hgtk hevent hact =>
    have hinitiated : event.isInitiated = false := by
      cases Window.acts_of_act hact <;> rfl
    refine h.of_eq ?_ (Nat.le_refl _) fun halive => ⟨halive, rfl⟩
    exact Marks.mem_append h.spawned (List.forall_mem_singleton.mpr hinitiated)
  | @asked _ window hgtk hact =>
    have heq : (closeRequest { s with window }).discoveries = s.discoveries :=
      closeRequest_discoveries _
    obtain ⟨events, hrequest, -⟩ := closeRequest_frame { s with window }
    rw [hrequest] at heq ⊢
    exact h.of_eq h.spawned (Nat.le_of_eq heq) fun halive => ⟨halive, heq⟩
  | @polled i event hgtk hevent =>
    have hinitiated := h.spawned event (List.mem_of_getElem? hevent)
    have hevents : (s.events.send event).waiting.countP ViewEvent.isInitiated =
        s.events.waiting.countP ViewEvent.isInitiated := by
      rw [Fifo.send_waiting, List.countP_append, List.countP_singleton, hinitiated]
      rfl
    have heq : Gui.discoveries
        { s with spawned := s.spawned.eraseIdx i, events := s.events.send event } =
          s.discoveries := by
      simp only [discoveries, hevents]
    refine h.of_eq ?_ (Nat.le_of_eq heq) fun halive => ⟨halive, heq⟩
    exact fun e he => h.spawned e (List.mem_of_mem_eraseIdx he)
  | polledLate hgtk hevent halive =>
    refine h.of_eq (fun e he => h.spawned e (List.mem_of_mem_eraseIdx he)) ?_ fun ht => ?_
    · simp only [discoveries, Gtk.activations]
      omega
    · rw [halive] at ht
      cases ht
  | @updatePanicked u updates p hgtk =>
    have heq : Gui.discoveries { s with updates, gtk := .panicked p } = s.discoveries := by
      cases hs : s.gtk with
      | starting =>
        rw [hs] at hgtk
        cases hgtk
      | _ => simp only [discoveries, hs, Gtk.activations]
    exact h.of_eq h.spawned (Nat.le_of_eq heq) fun halive => ⟨halive, heq⟩
  | closed hgtk =>
    have hrequested := closeRequest_discoveries s
    obtain ⟨events, hrequest, -⟩ := closeRequest_frame s
    rw [hrequest] at hrequested ⊢
    have heq : Gui.discoveries { s with events, gtk := .closed } = s.discoveries := by
      rw [← hrequested]
      simp only [discoveries, hgtk, Gtk.activations]
    exact h.of_eq h.spawned (Nat.le_of_eq heq) fun halive => ⟨halive, heq⟩
  | quit hgtk =>
    have heq : Gui.discoveries { s with gtk := .returned } = s.discoveries := by
      simp only [discoveries, hgtk, Gtk.activations]
    exact h.of_eq h.spawned (Nat.le_of_eq heq) fun halive => ⟨halive, heq⟩
  | cancellationPassed =>
    have heq : Gui.discoveries
        { s with cancelTask := false, events := s.events.send .userCancelled } =
          s.discoveries := by
      simp [discoveries, ViewEvent.isInitiated]
    exact h.of_eq h.spawned (Nat.le_of_eq heq) fun halive => ⟨halive, heq⟩
  | @viewTaken event events hstage hrecv =>
    have hcount := countP_waiting ViewEvent.isInitiated hrecv
    have hops : s.stage.ops.countP Op.isDiscovery = 0 := by
      rw [hstage]
      rfl
    obtain ⟨hle, heq⟩ := take_discoveries cat.gettext qrCode { s with events } (.view event)
    obtain ⟨-, stage, eventLoop, htake⟩ :=
      take_rank cat.gettext qrCode { s with events } (.view event)
    rw [htake] at hle heq ⊢
    simp only [Event.isInitiated] at hle heq
    refine h.of_eq h.spawned ?_ fun halive => ⟨by rw [hstage]; rfl, ?_⟩
    · simp only [discoveries]
      omega
    · have hstart := heq halive
      simp only [discoveries]
      omega
  | @backgroundTaken event background hstage hrecv =>
    have hops : s.stage.ops.countP Op.isDiscovery = 0 := by
      rw [hstage]
      rfl
    obtain ⟨hle, heq⟩ :=
      take_discoveries cat.gettext qrCode { s with background } (.background event)
    obtain ⟨-, stage, eventLoop, htake⟩ :=
      take_rank cat.gettext qrCode { s with background } (.background event)
    rw [htake] at hle heq ⊢
    simp only [Event.isInitiated, Bool.toNat_false] at hle heq
    refine h.of_eq h.spawned ?_ fun halive => ⟨by rw [hstage]; rfl, ?_⟩
    · simp only [discoveries]
      omega
    · have hnone := heq halive
      simp only [discoveries]
      omega
  | @worked answer op ops breaks hstage =>
    have hoperates := operates cat.gettext s answer op ops breaks
    obtain ⟨hle, heq⟩ := hoperates.discoveries hstage
    refine h.of_eq ?_ hle fun halive => ⟨by rw [hstage]; rfl, heq halive⟩
    rw [hoperates.sent_kept.2.2]
    exact h.spawned
  | @finished flowOpen hstage =>
    refine h.of_eq h.spawned ?_ fun halive => by cases halive
    have hnone : ((clientSend flowOpen .requestCancelled).2.map Sent.client).countP
        Sent.isDiscovery = 0 := by
      cases flowOpen <;> rfl
    have hops : LoopStage.ended.ops.countP Op.isDiscovery = 0 := rfl
    simp only [discoveries, List.countP_append, hnone, hops]
    omega
  | loopCancelled =>
    refine h.of_eq h.spawned ?_ fun halive => by cases halive
    have hops : LoopStage.cancelled.ops.countP Op.isDiscovery = 0 := rfl
    simp only [discoveries, hops]
    omega
  | _ => exact h.of_eq h.spawned (Nat.le_refl _) fun halive => ⟨halive, rfl⟩

/-! ### Cancellations -/

/-- A cancellation is sent when the loop ends, and not before. -/
structure Cancels (s : Gui) : Prop where
  before : s.stage ≠ .ended → .client .requestCancelled ∉ s.sent
  after : s.stage = .ended → ∃ sent,
    s.sent = sent ++ [.client .requestCancelled] ∧ .client .requestCancelled ∉ sent

theorem LoopStage.resume_ended (breaks : Bool) (ops : List Op) : resume breaks ops ≠ .ended := by
  cases ops with
  | cons op ops => exact fun h => by cases h
  | nil => cases breaks <;> exact fun h => by cases h

theorem Cancels.operate {s t : Gui} (h : Cancels s) {answer : Answer}
    (hcalls : answer.calls.succeed = true) {op : Op} {ops : List Op} {breaks : Bool}
    (hstage : s.stage = .handling op ops breaks) (ht : Operates s answer op ops breaks t) :
    Cancels t := by
  have hbefore : .client .requestCancelled ∉ s.sent :=
    h.before fun hended => by rw [hstage] at hended; cases hended
  have happend : ∀ {sent}, Sends answer op sent → .client .requestCancelled ∉ s.sent ++ sent :=
    fun hsends hmem => (List.mem_append.mp hmem).elim hbefore (hsends.cancelled hcalls)
  cases ht with
  | panicked p => exact ⟨fun _ => hbefore, fun hended => by cases hended⟩
  | update u =>
    exact ⟨fun _ => hbefore, fun hended => absurd hended (LoopStage.resume_ended _ _)⟩
  | sent hop hsends =>
    exact ⟨fun _ => happend hsends, fun hended => absurd hended (LoopStage.resume_ended _ _)⟩
  | failed hop u hsends => exact ⟨fun _ => happend hsends, fun hended => by cases hended⟩

theorem take_ended (gettext : String → String) (qrCode : OwnedFd → Except Panic String) (s : Gui)
    (event : Event) : (take gettext qrCode s event).stage ≠ .ended := by
  unfold take
  split
  · exact LoopStage.resume_ended _ _
  · exact fun h => by cases h

/- The system does what it is asked for, and the daemon listens to the cancellation. -/
def Label.Reliable : Label → Prop
  | .work answer => answer.calls.succeed = true
  | .finish flowOpen => flowOpen = true
  | _ => True

theorem Cancels.step {s t : Gui} {l : Label} (h : Cancels s) (hl : l.Reliable)
    (hstep : step cat qrFits qrCode s l = some t) : Cancels t := by
  cases moves_of_step hstep with
  | @asked _ window hgtk hact =>
    obtain ⟨events, heq, -⟩ := closeRequest_frame { s with window }
    rw [heq]
    exact ⟨h.before, h.after⟩
  | closed =>
    obtain ⟨events, heq, -⟩ := closeRequest_frame s
    rw [heq]
    exact ⟨h.before, h.after⟩
  | @viewTaken event events hstage hrecv =>
    have hended := take_ended cat.gettext qrCode { s with events } (.view event)
    obtain ⟨-, stage, eventLoop, htake⟩ :=
      take_rank cat.gettext qrCode { s with events } (.view event)
    rw [htake] at hended ⊢
    refine ⟨fun _ => h.before ?_, fun heq => absurd heq hended⟩
    rw [hstage]
    exact fun heq => by cases heq
  | @backgroundTaken event background hstage hrecv =>
    have hended := take_ended cat.gettext qrCode { s with background } (.background event)
    obtain ⟨-, stage, eventLoop, htake⟩ :=
      take_rank cat.gettext qrCode { s with background } (.background event)
    rw [htake] at hended ⊢
    refine ⟨fun _ => h.before ?_, fun heq => absurd heq hended⟩
    rw [hstage]
    exact fun heq => by cases heq
  | worked hstage => exact h.operate hl hstage (operates ..)
  | @finished flowOpen hstage =>
    have hopen : flowOpen = true := hl
    have hbefore := h.before (by rw [hstage]; exact fun heq => by cases heq)
    refine ⟨fun hne => absurd rfl hne, fun _ => ⟨s.sent, ?_, hbefore⟩⟩
    rw [hopen]
    rfl
  | loopCancelled hgtk halive =>
    refine ⟨fun _ => h.before fun heq => ?_, fun heq => by cases heq⟩
    rw [heq] at halive
    cases halive
  | _ => exact ⟨h.before, h.after⟩

/-- If the system does what it is asked for, what the GUI sends for a request has one discovery at
most, and one once it waits for the user; a cancellation is the last thing that is sent, by a loop
that has come to its end, and by each of them. -/
theorem sent_in_order {request : UiService.ViewRequest} {ls : List Label} {s : Gui}
    (hreliable : ∀ l ∈ ls, l.Reliable)
    (h : Machine.exec (step cat qrFits qrCode) (run cat request) ls = some s) :
    s.sent.countP Sent.isDiscovery ≤ 1 ∧
      (Waits s → s.sent.countP Sent.isDiscovery = 1) ∧
      (s.stage ≠ .ended → .client .requestCancelled ∉ s.sent) ∧
      (s.stage = .ended → ∃ sent,
        s.sent = sent ++ [.client .requestCancelled] ∧ .client .requestCancelled ∉ sent) := by
  have hasks : Asks s := by
    refine Machine.exec_invariant (fun _ _ _ hs _ hl => hs.step hl) ?_
      (Machine.along_trivial _ _ ls) h
    exact ⟨List.forall_mem_nil _, Nat.le_refl 1, fun _ => rfl⟩
  have hcancels : Cancels s := by
    refine Machine.exec_invariant (fun _ _ _ hs hl hstep => hs.step hl hstep) ?_
      (Machine.along_of_forall hreliable) h
    exact ⟨fun _ => List.not_mem_nil, fun hended => by cases hended⟩
  have hle := hasks.le
  refine ⟨?_, fun hwaits => ?_, hcancels.before, hcancels.after⟩
  · unfold discoveries at hle
    omega
  · have heq := hasks.eq (by rw [hwaits.stage]; rfl)
    have hgtk : s.gtk.activations = 0 := by
      rw [hwaits.gtk]
      rfl
    have hops : s.stage.ops.countP Op.isDiscovery = 0 := by
      rw [hwaits.stage]
      rfl
    rw [discoveries, hgtk, hops, hwaits.events] at heq
    simpa using heq

/- It is closed at once, and the loop comes to its end. -/
def sampleClose : List Label :=
  [.activate, .close, .takeView, .work sampleAnswer, .work sampleAnswer, .work sampleAnswer,
    .takeView, .work sampleAnswer, .finish true]

theorem sent_in_order_closed :
    ∃ s, Machine.exec (step english (fun _ => true) fun _ => .error .unwrap)
      (run english sampleRequest) sampleClose = some s ∧
      s.sent.countP Sent.isDiscovery ≤ 1 ∧ ∃ sent,
        s.sent = sent ++ [.client .requestCancelled] ∧ .client .requestCancelled ∉ sent := by
  have hreliable : ∀ l ∈ sampleClose, l.Reliable := by
    have hworks : sampleAnswer.calls.succeed = true := rfl
    simp [sampleClose, Label.Reliable, hworks]
  have hrun : Machine.exec (step english (fun _ => true) fun _ => .error .unwrap)
      (run english sampleRequest) sampleClose = some _ := rfl
  have hsent := sent_in_order hreliable hrun
  exact ⟨_, hrun, hsent.1, hsent.2.2.2 rfl⟩

end Gui

end Credentialsd
