import Credentialsd.AddOn
import Mathlib.Data.List.Perm.Basic

/-!
# What becomes of the promises of the add-on

The number of a request is in one place at a time: in a message, with a task that waits
for the host, or with one that has returned. A response is on its way only when such a
task has returned with it.
-/

namespace Credentialsd

namespace AddOn

/-! ### What a step can do -/

/-- All that a step can come to. The bridge's own affairs are left open. -/
inductive Move (s : State) : State → Prop where
  | bridge (b : Bridge) : Move s { s with bridge := b }
  | throws : Move s { s.startRequest with thrown := s.thrown ++ [s.requestCounter] }
  | calls (cmd : Cmd) (options : Option String) :
      Move s (s.startRequest.post (.windowRequest ⟨s.requestCounter, cmd, options⟩))
  | passRequest (i : Nat) (r : Request) (port : Nat) (b : Bridge)
      (hm : s.messages[i]? = some (.windowRequest r)) :
      Move s { s with
        messages := s.messages.eraseIdx i ++ [.portRequest port r], bridge := b }
  | drop (i : Nat) (m : Message) (b : Bridge) (hm : s.messages[i]? = some m)
      (hdrop : m.response = none ∨ ∃ port, m.port = some port ∧ s.connected port = false) :
      Move s { s with messages := s.messages.eraseIdx i, bridge := b }
  | takeRequest (i port : Nat) (r : Request) (hm : s.messages[i]? = some (.portRequest port r)) :
      Move s { s with
        messages := s.messages.eraseIdx i, awaiting := s.awaiting ++ [⟨port, r⟩] }
  | passResponse (i port : Nat) (r : Response) (hm : s.messages[i]? = some (.portResponse port r)) :
      Move s { s with messages := s.messages.eraseIdx i ++ [.windowResponse r] }
  | takeResponse (i : Nat) (r : Response) (hm : s.messages[i]? = some (.windowResponse r)) :
      Move s ({ s with messages := s.messages.eraseIdx i }.receiveResponse r)
  | replied (i : Nat) (t : Task) (reply : Reply) (ht : s.awaiting[i]? = some t) :
      Move s { s with
        messages := s.messages ++ [.portResponse t.port ⟨t.request.requestId, reply⟩]
        awaiting := s.awaiting.eraseIdx i
        finished := s.finished ++ [(t, .replied reply)] }
  | returned (i : Nat) (t : Task) (outcome : Outcome) (ht : s.awaiting[i]? = some t)
      (hout : outcome = .rejected ∨ s.connected t.port = false) :
      Move s { s with
        awaiting := s.awaiting.eraseIdx i
        finished := s.finished ++ [(t, outcome)] }
  | disconnect (port : Nat) :
      Move s { s with connected := Function.update s.connected port false }

theorem move_call (s : State) (cmd : Cmd) (options : Option CallOptions) :
    Move s (s.call cmd options) := by
  cases options with
  | none => exact .bridge s.bridge
  | some options =>
    simp only [State.call]
    split
    · cases options.serialized with
      | none => exact .throws
      | some text => exact .calls cmd (some text)
    · exact .bridge s.bridge

theorem move_receiveRequest {s : State} {i : Nat} {r : Request}
    (hm : s.messages[i]? = some (.windowRequest r)) :
    Move s ({ s with messages := s.messages.eraseIdx i }.receiveRequest r) := by
  unfold State.receiveRequest State.postTo
  split
  · split
    · exact .passRequest i r _ s.bridge hm
    · exact .drop i _ s.bridge hm (Or.inl rfl)
  · split
    · exact .passRequest i r _ _ hm
    · exact .drop i _ _ hm (Or.inl rfl)

theorem move_receive {s : State} {i : Nat} {m : Message} (hm : s.messages[i]? = some m) :
    Move s ({ s with messages := s.messages.eraseIdx i }.receive m) := by
  cases m with
  | windowRequest r => exact move_receiveRequest hm
  | portRequest port r => exact .takeRequest i port r hm
  | portResponse port r => exact .passResponse i port r hm
  | windowResponse r => exact .takeResponse i r hm

theorem move_native {s : State} {i : Nat} {t : Task} (outcome : Outcome)
    (ht : s.awaiting[i]? = some t) :
    Move s ({ s with
      awaiting := s.awaiting.eraseIdx i
      finished := s.finished ++ [(t, outcome)] }.nativeSettled t outcome) := by
  cases outcome with
  | rejected => exact .returned i t .rejected ht (Or.inl rfl)
  | replied reply =>
    simp only [State.nativeSettled, State.postTo]
    split
    · exact .replied i t reply ht
    · rename_i hconnected
      exact .returned i t (.replied reply) ht (Or.inr (by simpa using hconnected))

theorem step_move {s t : State} {e : Event} (h : step s e = some t) : Move s t := by
  cases e with
  | create options =>
    cases h
    exact move_call s .create options
  | get options =>
    cases h
    exact move_call s .get options
  | getClientCapabilities =>
    cases h
    exact .calls .getClientCapabilities none
  | deliver i =>
    simp only [step] at h
    split at h
    · cases h
    · rename_i m hm
      split at h
      · cases h
        exact move_receive hm
      · cases h
  | native i outcome =>
    simp only [step] at h
    split at h
    · cases h
    · rename_i task ht
      cases h
      exact move_native outcome ht
  | disconnect port =>
    simp only [step] at h
    split at h
    · cases h
      exact .disconnect port
    · cases h
  | noticed port =>
    simp only [step] at h
    split at h
    · cases h
      exact .bridge _
    · cases h
  | timer =>
    simp only [step] at h
    split at h
    · cases h
      exact .bridge _
    · cases h
  | lose i =>
    simp only [step] at h
    split at h
    · cases h
    · rename_i m hm
      split at h
      · cases h
      · rename_i port hport
        split at h
        · cases h
        · rename_i hconnected
          cases h
          exact .drop i m s.bridge hm (Or.inr ⟨port, hport, by simpa using hconnected⟩)

/-! ### Where a request is -/

def Message.asks (r : Nat) (m : Message) : Bool :=
  match m.request with
  | some request => request.requestId == r
  | none => false

def Task.asks (r : Nat) (t : Task) : Bool := t.request.requestId == r

namespace State

def places (s : State) (r : Nat) : Nat :=
  s.messages.countP (Message.asks r) + s.awaiting.countP (Task.asks r) +
    s.finished.countP fun f => f.1.asks r

/-- The host has answered the request with the reply. -/
def Answered (s : State) (r : Nat) (reply : Reply) : Prop :=
  ∃ t, (t, Outcome.replied reply) ∈ s.finished ∧ t.request.requestId = r

/-- The response to the request of the task has still to arrive. -/
def OnItsWay (s : State) (t : Task) : Prop :=
  ∃ r, r.requestId = t.request.requestId ∧
    (.portResponse t.port r ∈ s.messages ∨ .windowResponse r ∈ s.messages)

end State

theorem perm_eraseIdx {α : Type} {l : List α} {i : Nat} {a : α} (h : l[i]? = some a) :
    (a :: l.eraseIdx i).Perm l := by
  obtain ⟨hi, rfl⟩ := List.getElem?_eq_some_iff.mp h
  exact List.getElem_cons_eraseIdx_perm hi

theorem countP_eraseIdx {α : Type} {l : List α} {i : Nat} {a : α} (p : α → Bool)
    (h : l[i]? = some a) : l.countP p = (l.eraseIdx i).countP p + if p a then 1 else 0 := by
  rw [← (perm_eraseIdx h).countP_eq, List.countP_cons]

theorem two_le_countP {α : Type} {l : List α} {a b : α} {p : α → Bool} (ha : a ∈ l) (hb : b ∈ l)
    (hne : a ≠ b) (hpa : p a = true) (hpb : p b = true) : 2 ≤ l.countP p := by
  induction l with
  | nil => simp at ha
  | cons c l ih =>
    rw [List.countP_cons]
    rcases List.mem_cons.mp ha with hac | hal
    · rcases List.mem_cons.mp hb with hbc | hbl
      · exact absurd (hac.trans hbc.symm) hne
      · have hpos := List.countP_pos_iff.mpr ⟨b, hbl, hpb⟩
        rw [← hac, if_pos hpa]
        omega
    · rcases List.mem_cons.mp hb with hbc | hbl
      · have hpos := List.countP_pos_iff.mpr ⟨a, hal, hpa⟩
        rw [← hbc, if_pos hpb]
        omega
      · have htail := ih hal hbl
        omega

theorem mem_of_eraseIdx {α : Type} {l : List α} {i : Nat} {a b : α} (h : l[i]? = some a)
    (hb : b ∈ l) : b = a ∨ b ∈ l.eraseIdx i :=
  List.mem_cons.mp ((perm_eraseIdx h).mem_iff.mpr hb)

/-- A request that has been made is in one place at most, unless its call has thrown. -/
structure Placed (s : State) : Prop where
  once : ∀ r, s.places r ≤ 1
  known : ∀ r, 0 < s.places r → r < s.requestCounter ∧ r ∉ s.thrown
  thrown : ∀ r ∈ s.thrown, r < s.requestCounter

theorem Placed.of_le {s t : State} (h : Placed s) (hplaces : ∀ r, t.places r ≤ s.places r)
    (hcounter : t.requestCounter = s.requestCounter) (hthrown : t.thrown = s.thrown) :
    Placed t where
  once r := Nat.le_trans (hplaces r) (h.once r)
  known r hr := by
    rw [hcounter, hthrown]
    exact h.known r (Nat.lt_of_lt_of_le hr (hplaces r))
  thrown r hr := by
    rw [hthrown] at hr
    rw [hcounter]
    exact h.thrown r hr

theorem places_calls (s : State) (cmd : Cmd) (options : Option String) (r : Nat) :
    (s.startRequest.post (.windowRequest ⟨s.requestCounter, cmd, options⟩)).places r =
      s.places r + if s.requestCounter = r then 1 else 0 := by
  simp only [State.places, State.post, State.startRequest, List.countP_append,
    List.countP_singleton, Message.asks, Message.request, beq_iff_eq]
  omega

theorem placed_throws {s : State} (h : Placed s) :
    Placed { s.startRequest with thrown := s.thrown ++ [s.requestCounter] } := by
  constructor
  · exact h.once
  · intro r hr
    obtain ⟨hlt, hnot⟩ := h.known r hr
    have hne : r ≠ s.requestCounter := by omega
    exact ⟨Nat.lt_succ_of_lt hlt, by simp [hnot, hne]⟩
  · intro r hr
    rcases List.mem_append.mp hr with hr | hr
    · exact Nat.lt_succ_of_lt (h.thrown r hr)
    · rw [List.mem_singleton.mp hr]
      exact Nat.lt_succ_self _

/- The number of the call is a new one. -/
theorem placed_calls {s : State} (h : Placed s) (cmd : Cmd) (options : Option String) :
    Placed (s.startRequest.post (.windowRequest ⟨s.requestCounter, cmd, options⟩)) := by
  have hplaces := places_calls s cmd options
  have hfresh : s.places s.requestCounter = 0 := by
    have hknown := h.known s.requestCounter
    omega
  constructor
  · intro r
    have honce := h.once r
    rw [hplaces]
    split
    · rename_i hr
      rw [← hr]
      omega
    · omega
  · intro r hr
    rw [hplaces] at hr
    split at hr
    · rename_i hrc
      rw [← hrc]
      exact ⟨Nat.lt_succ_self _, fun hin => Nat.lt_irrefl _ (h.thrown _ hin)⟩
    · obtain ⟨hlt, hnot⟩ := h.known r hr
      exact ⟨Nat.lt_succ_of_lt hlt, hnot⟩
  · intro r hr
    exact Nat.lt_succ_of_lt (h.thrown r hr)

theorem placed_move {s t : State} (h : Placed s) (hm : Move s t) : Placed t := by
  cases hm with
  | bridge b => exact h.of_le (fun r => Nat.le_refl _) rfl rfl
  | throws => exact placed_throws h
  | calls cmd options => exact placed_calls h cmd options
  | passRequest i r port b hm =>
    refine h.of_le (fun n => ?_) rfl rfl
    have hcount := countP_eraseIdx (Message.asks n) hm
    simp only [State.places, List.countP_append, List.countP_singleton]
    have hsame : Message.asks n (.portRequest port r) = Message.asks n (.windowRequest r) := rfl
    rw [hsame]
    omega
  | drop i m b hm hdrop =>
    refine h.of_le (fun n => ?_) rfl rfl
    have hcount := countP_eraseIdx (Message.asks n) hm
    simp only [State.places]
    omega
  | takeRequest i port r hm =>
    refine h.of_le (fun n => ?_) rfl rfl
    have hcount := countP_eraseIdx (Message.asks n) hm
    simp only [State.places, List.countP_append, List.countP_singleton]
    have hsame : Task.asks n ⟨port, r⟩ = Message.asks n (.portRequest port r) := rfl
    rw [hsame]
    omega
  | passResponse i port r hm =>
    refine h.of_le (fun n => ?_) rfl rfl
    have hcount := countP_eraseIdx (Message.asks n) hm
    simp only [State.places, List.countP_append, List.countP_singleton]
    simp only [Message.asks, Message.request] at hcount ⊢
    simp only [Bool.false_eq_true, if_false] at hcount ⊢
    omega
  | takeResponse i r hm =>
    have hcount := fun n => countP_eraseIdx (Message.asks n) hm
    unfold State.receiveResponse
    split
    · refine h.of_le (fun n => ?_) rfl rfl
      have hn := hcount n
      simp only [State.places]
      omega
    · refine h.of_le (fun n => ?_) rfl rfl
      have hn := hcount n
      simp only [State.places]
      omega
  | replied i task reply ht =>
    refine h.of_le (fun n => ?_) rfl rfl
    have hcount := countP_eraseIdx (Task.asks n) ht
    simp only [State.places, List.countP_append, List.countP_singleton]
    simp only [Message.asks, Message.request, Bool.false_eq_true, if_false]
    omega
  | returned i task outcome ht hout =>
    refine h.of_le (fun n => ?_) rfl rfl
    have hcount := countP_eraseIdx (Task.asks n) ht
    simp only [State.places, List.countP_append, List.countP_singleton]
    omega
  | disconnect port => exact h.of_le (fun r => Nat.le_refl _) rfl rfl

/-! ### What has become of the calls -/

/-- Every call is pending or settled, and it is settled with what the host has answered. -/
structure Settles (s : State) : Prop where
  calls : (s.pendingRequests ++ s.settled.map Prod.fst).Perm (List.range s.requestCounter)
  answers : ∀ m ∈ s.messages, ∀ r, m.response = some r → s.Answered r.requestId r.reply
  settled : ∀ r x, (r, x) ∈ s.settled → ∃ reply, s.Answered r reply ∧ x = .of reply
  arrives : ∀ t reply, (t, Outcome.replied reply) ∈ s.finished → s.connected t.port = true →
    t.request.requestId ∈ s.pendingRequests → s.OnItsWay t

theorem Settles.nodup {s : State} (h : Settles s) :
    (s.pendingRequests ++ s.settled.map Prod.fst).Nodup :=
  h.calls.nodup_iff.mpr (List.nodup_range)

theorem State.Answered.mono {s t : State} {r : Nat} {reply : Reply} (h : s.Answered r reply)
    (hfinished : s.finished ⊆ t.finished) : t.Answered r reply := by
  obtain ⟨task, hmem, hid⟩ := h
  exact ⟨task, hfinished hmem, hid⟩

theorem State.OnItsWay.mono {s t : State} {task : Task} (h : s.OnItsWay task)
    (hmessages : ∀ m ∈ s.messages, m.response ≠ none → m ∈ t.messages) : t.OnItsWay task := by
  obtain ⟨r, hid, hr⟩ := h
  refine ⟨r, hid, hr.imp (fun hmem => ?_) fun hmem => ?_⟩
  · exact hmessages _ hmem (by simp [Message.response])
  · exact hmessages _ hmem (by simp [Message.response])

/-- A message that carries no response makes way. -/
theorem remains_of_no_response {s : State} {i : Nat} {m : Message} (hm : s.messages[i]? = some m)
    (hnone : m.response = none) : ∀ x ∈ s.messages, x.response ≠ none →
      x ∈ s.messages.eraseIdx i := by
  intro x hx hsome
  rcases mem_of_eraseIdx hm hx with rfl | hx
  · exact absurd hnone hsome
  · exact hx

theorem known_of_finished {s : State} (h : Placed s) {t : Task} {outcome : Outcome}
    (ht : (t, outcome) ∈ s.finished) : t.request.requestId < s.requestCounter ∧
      t.request.requestId ∉ s.thrown := by
  apply h.known
  have hpos : 0 < s.finished.countP fun f => f.1.asks t.request.requestId :=
    List.countP_pos_iff.mpr ⟨(t, outcome), ht, by simp [Task.asks]⟩
  unfold State.places
  omega

theorem perm_startRequest {s : State} (h : Settles s) :
    ((s.pendingRequests ++ [s.requestCounter]) ++ s.settled.map Prod.fst).Perm
      (List.range (s.requestCounter + 1)) := by
  have hswap : (s.pendingRequests ++ ([s.requestCounter] ++ s.settled.map Prod.fst)).Perm
      (s.pendingRequests ++ (s.settled.map Prod.fst ++ [s.requestCounter])) :=
    List.perm_append_comm.append_left _
  have hcalls := h.calls.append_right [s.requestCounter]
  rw [List.append_assoc] at hcalls
  rw [List.range_succ, List.append_assoc]
  exact hswap.trans hcalls

theorem perm_receiveResponse {s : State} (h : Settles s) {r : Nat} {x : Settlement}
    (hr : r ∈ s.pendingRequests) :
    (s.pendingRequests.erase r ++ (s.settled ++ [(r, x)]).map Prod.fst).Perm
      (List.range s.requestCounter) := by
  have hpending := List.perm_cons_erase hr
  have hsettled : (s.settled ++ [(r, x)]).map Prod.fst = s.settled.map Prod.fst ++ [r] := by
    simp
  rw [hsettled, ← List.append_assoc]
  refine List.Perm.trans ?_ h.calls
  refine List.Perm.trans List.perm_append_comm ?_
  exact (hpending.append_right _).symm

/-- A pending request that has been answered is not the one that has just been called. -/
theorem arrives_startRequest {s : State} (hp : Placed s) (h : Settles s) {t : Task} {reply : Reply}
    (ht : (t, Outcome.replied reply) ∈ s.finished) (hconnected : s.connected t.port = true)
    (hpending : t.request.requestId ∈ s.pendingRequests ++ [s.requestCounter]) : s.OnItsWay t := by
  have hlt := (known_of_finished hp ht).1
  rcases List.mem_append.mp hpending with hin | hin
  · exact h.arrives t reply ht hconnected hin
  · rw [List.mem_singleton] at hin
    omega

theorem settles_takeResponse {s : State} (h : Settles s) {i : Nat} {r : Response}
    (hm : s.messages[i]? = some (.windowResponse r)) :
    Settles ({ s with messages := s.messages.eraseIdx i }.receiveResponse r) := by
  have hanswered := h.answers _ (List.mem_of_getElem? hm) r rfl
  have hanswers : ∀ m ∈ s.messages.eraseIdx i, ∀ r, m.response = some r →
      s.Answered r.requestId r.reply :=
    fun m hmem => h.answers m (List.mem_of_mem_eraseIdx hmem)
  -- a task whose response this is has its promise settled by it
  have harrives : ∀ t reply, (t, Outcome.replied reply) ∈ s.finished →
      s.connected t.port = true → t.request.requestId ∈ s.pendingRequests →
      t.request.requestId ≠ r.requestId →
      { s with messages := s.messages.eraseIdx i }.OnItsWay t := by
    intro t reply ht hconnected hpending hne
    obtain ⟨x, hid, hx⟩ := h.arrives t reply ht hconnected hpending
    refine ⟨x, hid, hx.imp (fun hmem => ?_) fun hmem => ?_⟩
    · rcases mem_of_eraseIdx hm hmem with heq | hmem
      · cases heq
      · exact hmem
    · rcases mem_of_eraseIdx hm hmem with heq | hmem
      · cases heq
        exact absurd hid.symm hne
      · exact hmem
  unfold State.receiveResponse
  split
  · rename_i hr
    constructor
    · exact perm_receiveResponse h hr
    · exact hanswers
    · intro n x hx
      rcases List.mem_append.mp hx with hx | hx
      · exact h.settled n x hx
      · cases List.mem_singleton.mp hx
        exact ⟨r.reply, hanswered, rfl⟩
    · intro t reply ht hconnected hpending
      have hnodup : s.pendingRequests.Nodup := (List.nodup_append.mp h.nodup).1
      have hin := (List.Nodup.mem_erase_iff hnodup).mp hpending
      exact harrives t reply ht hconnected hin.2 hin.1
  · rename_i hr
    constructor
    · exact h.calls
    · exact hanswers
    · exact h.settled
    · intro t reply ht hconnected hpending
      apply harrives t reply ht hconnected hpending
      rintro heq
      rw [heq] at hpending
      exact hr hpending

theorem Settles.answers_erase {s : State} (h : Settles s) (i : Nat) :
    ∀ m ∈ s.messages.eraseIdx i, ∀ r, m.response = some r → s.Answered r.requestId r.reply :=
  fun m hmem => h.answers m (List.mem_of_mem_eraseIdx hmem)

theorem answers_snoc {s : State} {messages : List Message} {m : Message}
    (hall : ∀ x ∈ messages, ∀ r, x.response = some r → s.Answered r.requestId r.reply)
    (hm : ∀ r, m.response = some r → s.Answered r.requestId r.reply) :
    ∀ x ∈ messages ++ [m], ∀ r, x.response = some r → s.Answered r.requestId r.reply := by
  intro x hx r hr
  rcases List.mem_append.mp hx with hx | hx
  · exact hall x hx r hr
  · rw [List.mem_singleton.mp hx] at hr
    exact hm r hr

theorem Settles.settled_mono {s t : State} (h : Settles s) (hfinished : s.finished ⊆ t.finished) :
    ∀ r x, (r, x) ∈ s.settled → ∃ reply, t.Answered r reply ∧ x = .of reply := by
  intro r x hx
  obtain ⟨reply, hreply, heq⟩ := h.settled r x hx
  exact ⟨reply, hreply.mono hfinished, heq⟩

/- A response is lost only with its port. -/
theorem State.OnItsWay.drop {s t : State} {task : Task} {i : Nat} {m : Message}
    (hway : s.OnItsWay task) (hm : s.messages[i]? = some m)
    (hdrop : m.response = none ∨ ∃ port, m.port = some port ∧ s.connected port = false)
    (hconnected : s.connected task.port = true) (ht : t.messages = s.messages.eraseIdx i) :
    t.OnItsWay task := by
  rcases hdrop with hnone | ⟨port, hport, hgone⟩
  · apply hway.mono
    rw [ht]
    exact remains_of_no_response hm hnone
  · obtain ⟨r, hid, hr⟩ := hway
    refine ⟨r, hid, hr.imp (fun hmem => ?_) fun hmem => ?_⟩
    · rcases mem_of_eraseIdx hm hmem with heq | hmem
      · rw [← heq] at hport
        cases hport
        rw [hconnected] at hgone
        cases hgone
      · rw [ht]
        exact hmem
    · rcases mem_of_eraseIdx hm hmem with heq | hmem
      · rw [← heq] at hport
        cases hport
      · rw [ht]
        exact hmem

/- A response that has come over the port goes on in the window. -/
theorem State.OnItsWay.pass {s t : State} {task : Task} {i port : Nat} {r : Response}
    (hway : s.OnItsWay task) (hm : s.messages[i]? = some (.portResponse port r))
    (ht : t.messages = s.messages.eraseIdx i ++ [.windowResponse r]) : t.OnItsWay task := by
  obtain ⟨x, hid, hx⟩ := hway
  unfold State.OnItsWay
  rw [ht]
  rcases hx with hmem | hmem
  · rcases mem_of_eraseIdx hm hmem with heq | hmem
    · cases heq
      exact ⟨r, hid, Or.inr (by simp)⟩
    · exact ⟨x, hid, Or.inl (List.mem_append_left _ hmem)⟩
  · rcases mem_of_eraseIdx hm hmem with heq | hmem
    · cases heq
    · exact ⟨x, hid, Or.inr (List.mem_append_left _ hmem)⟩

theorem settles_move {s t : State} (hp : Placed s) (h : Settles s) (hm : Move s t) :
    Settles t := by
  cases hm with
  | bridge b => exact ⟨h.calls, h.answers, h.settled, h.arrives⟩
  | throws =>
    exact ⟨perm_startRequest h, h.answers, h.settled,
      fun t reply ht hc hpending => arrives_startRequest hp h ht hc hpending⟩
  | calls cmd options =>
    constructor
    · exact perm_startRequest h
    · exact answers_snoc h.answers nofun
    · exact h.settled
    · intro t reply ht hconnected hpending
      exact (arrives_startRequest hp h ht hconnected hpending).mono
        fun m hmem _ => List.mem_append_left _ hmem
  | passRequest i r port b hm =>
    constructor
    · exact h.calls
    · exact answers_snoc (h.answers_erase i) nofun
    · exact h.settled
    · intro t reply ht hconnected hpending
      exact (h.arrives t reply ht hconnected hpending).mono fun m hmem hsome =>
        List.mem_append_left _ (remains_of_no_response hm rfl m hmem hsome)
  | drop i m b hm hdrop =>
    constructor
    · exact h.calls
    · exact h.answers_erase i
    · exact h.settled
    · intro t reply ht hconnected hpending
      exact (h.arrives t reply ht hconnected hpending).drop hm hdrop hconnected rfl
  | takeRequest i port r hm =>
    constructor
    · exact h.calls
    · exact h.answers_erase i
    · exact h.settled
    · intro t reply ht hconnected hpending
      exact (h.arrives t reply ht hconnected hpending).mono (remains_of_no_response hm rfl)
  | passResponse i port r hm =>
    constructor
    · exact h.calls
    · refine answers_snoc (h.answers_erase i) fun x hx => ?_
      cases hx
      exact h.answers _ (List.mem_of_getElem? hm) r rfl
    · exact h.settled
    · intro t reply ht hconnected hpending
      exact (h.arrives t reply ht hconnected hpending).pass hm rfl
  | takeResponse i r hm => exact settles_takeResponse h hm
  | replied i task reply ht =>
    have hmore : s.finished ⊆ s.finished ++ [(task, .replied reply)] :=
      List.subset_append_left ..
    constructor
    · exact h.calls
    · refine answers_snoc (fun m hmem x hx => (h.answers m hmem x hx).mono hmore) fun x hx => ?_
      cases hx
      exact ⟨task, by simp, rfl⟩
    · exact h.settled_mono hmore
    · intro t x htx hconnected hpending
      rcases List.mem_append.mp htx with hold | hnew
      · exact (h.arrives t x hold hconnected hpending).mono
          fun m hmem _ => List.mem_append_left _ hmem
      · cases List.mem_singleton.mp hnew
        exact ⟨⟨task.request.requestId, reply⟩, rfl, Or.inl (by simp)⟩
  | returned i task outcome ht hout =>
    have hmore : s.finished ⊆ s.finished ++ [(task, outcome)] := List.subset_append_left ..
    constructor
    · exact h.calls
    · exact fun m hmem x hx => (h.answers m hmem x hx).mono hmore
    · exact h.settled_mono hmore
    · intro t x htx hconnected hpending
      rcases List.mem_append.mp htx with hold | hnew
      · exact h.arrives t x hold hconnected hpending
      · cases List.mem_singleton.mp hnew
        rcases hout with hout | hout
        · cases hout
        · have hon : s.connected task.port = true := hconnected
          rw [hout] at hon
          cases hon
  | disconnect port =>
    constructor
    · exact h.calls
    · exact h.answers
    · exact h.settled
    · intro t reply ht hconnected hpending
      apply h.arrives t reply ht _ hpending
      by_cases hport : t.port = port
      · simp [hport] at hconnected
      · simpa [Function.update_of_ne hport] using hconnected

/-! ### Runs -/

theorem placed_init : Placed init := ⟨by simp [State.places, init], by simp [State.places, init],
  by simp [init]⟩

theorem settles_init : Settles init :=
  ⟨by simp [init], by simp [init], by simp [init], by simp [init]⟩

theorem reachable_inv {s : State} (h : Machine.Reaches step init s) : Placed s ∧ Settles s := by
  apply Machine.reaches_invariant (I := fun s => Placed s ∧ Settles s) _
    ⟨placed_init, settles_init⟩ h
  intro s e t hs he
  have hmove := step_move he
  exact ⟨placed_move hs.1 hmove, settles_move hs.1 hs.2 hmove⟩

/-- Every promise is settled at most once, and as the reply to its own request says. -/
def SettledRightly (s : State) : Prop :=
  (s.settled.map Prod.fst).Nodup ∧
  ∀ r x, (r, x) ∈ s.settled → ∃ t reply, (t, Outcome.replied reply) ∈ s.finished ∧
    t.request.requestId = r ∧ x = .of reply

/-- No promise is left behind: the calls that have thrown have no entry, and the requests that
`background.js` is done with over a port that is still connected have none, once no response
is on its way. -/
def NothingLeft (s : State) : Prop :=
  (∀ r ∈ s.thrown, r ∉ s.pendingRequests) ∧
  ∀ t outcome, (t, outcome) ∈ s.finished → s.connected t.port = true →
    t.request.requestId ∈ s.pendingRequests → s.OnItsWay t

theorem pending_of_unanswered {s : State} (h : Settles s) {r : Nat} (hr : r < s.requestCounter)
    (hnone : ∀ reply, ¬s.Answered r reply) : r ∈ s.pendingRequests := by
  have hmem : r ∈ s.pendingRequests ++ s.settled.map Prod.fst :=
    h.calls.mem_iff.mpr (List.mem_range.mpr hr)
  rcases List.mem_append.mp hmem with hmem | hmem
  · exact hmem
  · obtain ⟨⟨r', x⟩, hx, rfl⟩ := List.mem_map.mp hmem
    obtain ⟨reply, hreply, -⟩ := h.settled r' x hx
    exact absurd hreply (hnone reply)

theorem not_answered_of_rejected {s : State} (h : Placed s) {t : Task}
    (ht : (t, Outcome.rejected) ∈ s.finished) (reply : Reply) :
    ¬s.Answered t.request.requestId reply := by
  rintro ⟨t', ht', hid⟩
  have htwo := two_le_countP (p := fun f : Task × Outcome => f.1.asks t.request.requestId) ht ht'
    (by simp) (by simp [Task.asks]) (by simp [Task.asks, hid])
  have honce := h.once t.request.requestId
  unfold State.places at honce
  omega

theorem not_answered_of_thrown {s : State} (h : Placed s) {r : Nat} (hr : r ∈ s.thrown)
    (reply : Reply) : ¬s.Answered r reply := by
  rintro ⟨t, ht, rfl⟩
  exact (known_of_finished h ht).2 hr

theorem nothingLeft_iff {s : State} (hp : Placed s) (h : Settles s) :
    NothingLeft s ↔ s.thrown = [] ∧
      ∀ t, (t, Outcome.rejected) ∈ s.finished → s.connected t.port = false := by
  constructor
  · rintro ⟨hthrown, hfinished⟩
    constructor
    · apply List.eq_nil_iff_forall_not_mem.mpr
      intro r hr
      have hpending := pending_of_unanswered h (hp.thrown r hr) (not_answered_of_thrown hp hr)
      exact hthrown r hr hpending
    · intro t ht
      have hnone := not_answered_of_rejected hp ht
      have hpending := pending_of_unanswered h (known_of_finished hp ht).1 hnone
      by_contra hconnected
      obtain ⟨r, hid, hr⟩ := hfinished t .rejected ht (by simpa using hconnected) hpending
      have hanswered : s.Answered r.requestId r.reply := by
        rcases hr with hr | hr
        · exact h.answers _ hr r rfl
        · exact h.answers _ hr r rfl
      rw [hid] at hanswered
      exact hnone r.reply hanswered
  · rintro ⟨hthrown, hrejected⟩
    constructor
    · simp [hthrown]
    · intro t outcome ht hconnected hpending
      cases outcome with
      | replied reply => exact h.arrives t reply ht hconnected hpending
      | rejected =>
        rw [hrejected t ht] at hconnected
        cases hconnected

theorem settledRightly_of_settles {s : State} (h : Settles s) : SettledRightly s := by
  constructor
  · exact (List.nodup_append.mp h.nodup).2.1
  · intro r x hx
    obtain ⟨reply, ⟨t, ht, hid⟩, hof⟩ := h.settled r x hx
    exact ⟨t, reply, ht, hid, hof⟩

/-- A call whose options can be serialised, if it is intercepted at all. -/
def serializes : Option CallOptions → Bool
  | none => true
  | some options => !intercepts options || options.serialized.isSome

def Event.succeeds : Event → Bool
  | .create options => serializes options
  | .get options => serializes options
  | .native _ outcome => outcome != .rejected
  | _ => true

/-- Nothing has gone wrong up to now. -/
def Unfailing (s : State) : Prop :=
  s.thrown = [] ∧ ∀ t, (t, Outcome.rejected) ∉ s.finished

theorem unfailing_of_eq {s t : State} (hs : Unfailing s) (hthrown : t.thrown = s.thrown)
    (hfinished : t.finished = s.finished) : Unfailing t := by
  unfold Unfailing
  rw [hthrown, hfinished]
  exact hs

theorem unfailing_call {s : State} {cmd : Cmd} {options : Option CallOptions} (hs : Unfailing s)
    (h : serializes options = true) : Unfailing (s.call cmd options) := by
  cases options with
  | none => exact hs
  | some options =>
    simp only [State.call]
    split
    · rename_i hin
      simp only [serializes, hin, Bool.not_true, Bool.false_or] at h
      obtain ⟨text, htext⟩ := Option.isSome_iff_exists.mp h
      rw [htext]
      exact unfailing_of_eq hs rfl rfl
    · exact hs

theorem unfailing_postTo {s : State} (port : Nat) (m : Message) (hs : Unfailing s) :
    Unfailing (s.postTo port m) := by
  unfold State.postTo
  split
  · exact unfailing_of_eq hs rfl rfl
  · exact hs

theorem unfailing_receive {s : State} (m : Message) (hs : Unfailing s) :
    Unfailing (s.receive m) := by
  cases m with
  | windowRequest r =>
    simp only [State.receive, State.receiveRequest]
    split
    · exact unfailing_postTo _ _ hs
    · exact unfailing_postTo _ _ (unfailing_of_eq hs rfl rfl)
  | portRequest port r => exact unfailing_of_eq hs rfl rfl
  | portResponse port r => exact unfailing_of_eq hs rfl rfl
  | windowResponse r =>
    simp only [State.receive, State.receiveResponse]
    split
    · exact unfailing_of_eq hs rfl rfl
    · exact hs

theorem unfailing_step {s t : State} {e : Event} (hs : Unfailing s) (he : e.succeeds = true)
    (h : step s e = some t) : Unfailing t := by
  cases e with
  | create options =>
    cases h
    exact unfailing_call hs he
  | get options =>
    cases h
    exact unfailing_call hs he
  | getClientCapabilities =>
    cases h
    exact unfailing_of_eq hs rfl rfl
  | deliver i =>
    simp only [step] at h
    split at h
    · cases h
    · rename_i m hm
      split at h
      · cases h
        exact unfailing_receive m (unfailing_of_eq hs rfl rfl)
      · cases h
  | native i outcome =>
    simp only [step] at h
    split at h
    · cases h
    · rename_i task ht
      cases h
      cases outcome with
      | rejected => cases he
      | replied reply =>
        apply unfailing_postTo
        refine ⟨hs.1, fun t ht => ?_⟩
        rcases List.mem_append.mp ht with hold | hnew
        · exact hs.2 t hold
        · cases List.mem_singleton.mp hnew
  | disconnect port =>
    simp only [step] at h
    split at h
    · cases h
      exact unfailing_of_eq hs rfl rfl
    · cases h
  | noticed port =>
    simp only [step] at h
    split at h
    · cases h
      exact unfailing_of_eq hs rfl rfl
    · cases h
  | timer =>
    simp only [step] at h
    split at h
    · cases h
      exact unfailing_of_eq hs rfl rfl
    · cases h
  | lose i =>
    simp only [step] at h
    split at h
    · cases h
    · split at h
      · cases h
      · split at h
        · cases h
        · cases h
          exact unfailing_of_eq hs rfl rfl

theorem unfailing_run {es : List Event} {s : State} (h : Machine.exec step init es = some s)
    (hes : ∀ e ∈ es, e.succeeds = true) : Unfailing s := by
  have hinit : Unfailing init := ⟨rfl, by simp [init]⟩
  have hstep : ∀ s e t, Unfailing s → e.succeeds = true → step s e = some t → Unfailing t :=
    fun s e t hs he ht => unfailing_step hs he ht
  exact Machine.exec_invariant hstep hinit (Machine.along_of_forall hes) h

/-- In every run a promise is settled at most once, by the reply to its request. Nothing is left
behind when all options can be serialised and the host turns down no message; and just when what
could not be serialised is nothing, and what has been turned down came from ports that are gone. -/
theorem promises_settled (es : List Event) (s : State) (h : Machine.exec step init es = some s) :
    SettledRightly s ∧
    ((∀ e ∈ es, e.succeeds = true) → NothingLeft s) ∧
    (NothingLeft s ↔ s.thrown = [] ∧
      ∀ t, (t, Outcome.rejected) ∈ s.finished → s.connected t.port = false) := by
  obtain ⟨hp, hs⟩ := reachable_inv ⟨es, h⟩
  have hiff := nothingLeft_iff hp hs
  refine ⟨settledRightly_of_settles hs, fun hes => hiff.mpr ?_, hiff⟩
  obtain ⟨hthrown, hfinished⟩ := unfailing_run h hes
  exact ⟨hthrown, fun t ht => absurd ht (hfinished t)⟩

def sampleOptions : CallOptions := ⟨true, none, some "options"⟩

theorem promise_settled_sample : ∃ s,
    Machine.exec step init [.create (some sampleOptions), .deliver 0, .deliver 0,
      .native 0 (.replied (.data "credential")), .deliver 0, .deliver 0] = some s ∧
    s.settled = [(0, .resolved "credential")] ∧ SettledRightly s ∧ NothingLeft s := by
  refine ⟨_, rfl, rfl, ?_⟩
  have hrun := promises_settled [.create (some sampleOptions), .deliver 0, .deliver 0,
    .native 0 (.replied (.data "credential")), .deliver 0, .deliver 0] _ rfl
  exact ⟨hrun.1, hrun.2.1 (by decide)⟩

/-- The host cannot be started: the promise stays as it is. -/
theorem promise_left : ∃ s,
    Machine.exec step init [.get (some sampleOptions), .deliver 0, .deliver 0,
      .native 0 .rejected] = some s ∧ ¬NothingLeft s := by
  refine ⟨_, rfl, ?_⟩
  rintro ⟨-, hfinished⟩
  obtain ⟨r, -, hr⟩ := hfinished ⟨0, 0, .get, some "options"⟩ .rejected (by decide) rfl (by decide)
  rcases hr with hr | hr <;> cases hr

/-- The options cannot be serialised: the call throws, and its entry stays. -/
theorem entry_left : ∃ s,
    Machine.exec step init [.create (some ⟨true, none, none⟩)] = some s ∧ ¬NothingLeft s := by
  refine ⟨_, rfl, ?_⟩
  rintro ⟨hthrown, -⟩
  exact hthrown 0 (by decide) (by decide)

end AddOn

end Credentialsd
