import Credentialsd.Notifications
import Credentialsd.Lib.Machine

/-!
# The state updates of one session (`credentialsd-ui/src/dbus.rs:389-429, 625-636`)

The daemon does not wait for a reply to a `notify_*` call, and every call that arrives
is a task of its own in the UI. The task looks the session up, waits for its interface
and enqueues the event. The states of all these tasks, and in which order the events
get into the channel of the session.
-/

/- What satisfies the condition comes first, so the rest follows it. -/
theorem filter_then_rest {α : Type*} {p : α → Bool} {l : List α}
    (h : l.Pairwise fun a b => p b = true → p a = true) :
    l.filter p ++ l.filter (fun a => !p a) = l := by
  induction l with
  | nil => rfl
  | cons a l ih =>
    obtain ⟨ha, hl⟩ := List.pairwise_cons.mp h
    have hrest := ih hl
    cases hp : p a with
    | true =>
      rw [List.filter_cons_of_pos hp, List.filter_cons_of_neg (by simp [hp]), List.cons_append,
        hrest]
    | false =>
      have hnone : l.filter p = [] := by
        apply List.filter_eq_nil_iff.mpr
        intro b hb hpb
        have hpa := ha b hb hpb
        simp [hp] at hpa
      rw [hnone, List.nil_append] at hrest
      rw [List.filter_cons_of_neg (by simp [hp]), List.filter_cons_of_pos (by simp [hp]), hnone,
        hrest, List.nil_append]

/- An entry of a list and what stands around it. -/
theorem split_getElem? {α : Type*} {l : List α} {i : Nat} {a : α} (h : l[i]? = some a) :
    ∃ post, l = l.take i ++ a :: post ∧ ∀ b, l.set i b = l.take i ++ b :: post := by
  obtain ⟨hi, rfl⟩ := List.getElem?_eq_some_iff.mp h
  refine ⟨l.drop (i + 1), ?_, fun b => ?_⟩
  · rw [← List.drop_eq_getElem_cons hi, List.take_append_drop]
  · rw [List.set_eq_take_append_cons_drop, if_pos hi]

namespace Credentialsd

/-! ### The channel -/

/-- `channel::bounded(32)` between the session and the GUI. -/
structure EventChannel where
  sent : List BackgroundEvent := []
  received : Nat := 0
  closed : Bool := false
  deriving Repr, DecidableEq

namespace EventChannel

/- `Sender::send`: it fails when the receiver is gone and waits while the channel is full. -/
def send (c : EventChannel) (event : BackgroundEvent) : Option (Except Unit EventChannel) :=
  if c.closed then some (.error ())
  else if c.sent.length < c.received + 32 then some (.ok { c with sent := c.sent ++ [event] })
  else none

def recv (c : EventChannel) : Option EventChannel :=
  if c.closed = false ∧ c.received < c.sent.length then some { c with received := c.received + 1 }
  else none

end EventChannel

/-- `CeremonyObject::on_state_changed`, `none` while it waits. -/
def onStateChanged (bgEventsTx : Option EventChannel) (event : BackgroundEvent) :
    Option (Except String EventChannel) :=
  match bgEventsTx with
  | some tx => (tx.send event).map fun sent => sent.mapError fun _ => "Failed to handle event"
  | none => some (.error "Failed to handle event")

/-! ### The tasks -/

/-- Where `notify_state_changed` stands. -/
inductive NotifyStage where
  | lookup
  | getMut
  | onStateChanged
  | shutdown
  | returned (reply : Except String Unit)
  deriving Repr, DecidableEq

structure NotifyCall where
  event : BackgroundEvent
  stage : NotifyStage
  deriving Repr, DecidableEq

/- Who holds the interface of the session for writing. -/
inductive Writer where
  | call (i : Nat)
  | close
  deriving Repr, DecidableEq

/-- What the UI keeps of a session, the calls for it in the order of arrival, and the updates that
the daemon has sent. -/
structure SessionUpdates where
  sessionHandle : String
  registered : Bool := true
  bgEventsTx : Option EventChannel := some {}
  writer : Option Writer := none
  readers : Nat := 0
  calls : List NotifyCall := []
  updates : List BackgroundEvent := []
  deriving Repr, DecidableEq

/-- The event that reaches the task of an update, if the update is sent and the call accepted. -/
def BackgroundEvent.arrives (event : BackgroundEvent) : Option BackgroundEvent :=
  match event.received with
  | .ok (some (.ok e)) => some e
  | _ => none

namespace SessionUpdates

inductive Label where
  | sendStateUpdate (event : BackgroundEvent)
  | notify (i : Nat)
  | recv
  | dropReceiver
  | close
  | closeShutdown
  | shutdownStarts
  | shutdownEnds
  deriving Repr, DecidableEq

/- A session when `create_session` returns: `start` has opened the channel before `at`. -/
def created (sessionHandle : String) : SessionUpdates := { sessionHandle }

def setStage (s : SessionUpdates) (i : Nat) (event : BackgroundEvent) (stage : NotifyStage) :
    SessionUpdates :=
  { s with calls := s.calls.set i ⟨event, stage⟩ }

/-- One step of `notify_state_changed` in the task of the call. -/
def notifyStateChanged (s : SessionUpdates) (i : Nat) (call : NotifyCall) :
    Option SessionUpdates :=
  match call.stage with
  | .lookup =>
    if s.registered then
      -- the lookup reads the interface
      if s.writer = none then some (s.setStage i call.event .getMut) else none
    else
      some (s.setStage i call.event
        (.returned (.error ("No session exists at " ++ s.sessionHandle))))
  | .getMut =>
    if s.writer = none ∧ s.readers = 0 then
      some { s.setStage i call.event .onStateChanged with writer := some (.call i) }
    else none
  | .onStateChanged =>
    (Credentialsd.onStateChanged s.bgEventsTx call.event).map fun sent =>
      match sent with
      | .ok tx =>
        { s.setStage i call.event (.returned (.ok ())) with
          bgEventsTx := some tx, writer := none }
      | .error _ => s.setStage i call.event .shutdown
  | .shutdown =>
    -- its own guard keeps the lookup in `CeremonySession::shutdown` waiting
    if s.registered then none
    else
      some { s.setStage i call.event
        (.returned (.error "Error sending state notification. Closing session.")) with
        writer := none }
  | .returned _ => none

def step (s : SessionUpdates) : Label → Option SessionUpdates
  | .sendStateUpdate event =>
    some { s with
      updates := s.updates ++ [event],
      calls := s.calls ++ (event.arrives.map (⟨·, .lookup⟩)).toList }
  | .notify i => (s.calls[i]?).bind (s.notifyStateChanged i)
  | .recv => (s.bgEventsTx.bind EventChannel.recv).map fun tx => { s with bgEventsTx := some tx }
  | .dropReceiver =>
    s.bgEventsTx.map fun tx => { s with bgEventsTx := some { tx with closed := true } }
  -- the method `close` of the session, which the interface is locked for
  | .close =>
    if s.registered ∧ s.writer = none ∧ s.readers = 0 then some { s with writer := some .close }
    else none
  | .closeShutdown =>
    if s.writer = some .close ∧ s.registered = false then some { s with writer := none } else none
  -- `CeremonySession::shutdown` in a task that does not hold the interface
  | .shutdownStarts =>
    if s.registered ∧ s.writer = none then some { s with readers := s.readers + 1 } else none
  | .shutdownEnds =>
    if 0 < s.readers then some { s with readers := s.readers - 1, registered := false } else none

/-! ### In order -/

/-- What the channel of the session has received. -/
def events (s : SessionUpdates) : List BackgroundEvent := (s.bgEventsTx.map (·.sent)).getD []

def hasReceiver (s : SessionUpdates) : Bool := s.bgEventsTx.any fun tx => !tx.closed

end SessionUpdates

namespace NotifyCall

def onItsWay (call : NotifyCall) : Bool :=
  call.stage = .lookup ∨ call.stage = .getMut ∨ call.stage = .onStateChanged

def enqueued (call : NotifyCall) : Bool := call.stage = .returned (.ok ())

def isReturned (call : NotifyCall) : Bool :=
  match call.stage with
  | .returned _ => true
  | _ => false

/- It was the task's turn to enqueue. -/
def hadTurn (call : NotifyCall) : Bool := call.stage = .onStateChanged ∨ call.enqueued

theorem hadTurn_of_enqueued {call : NotifyCall} (h : call.enqueued = true) :
    call.hadTurn = true := by
  simp [hadTurn, h]

theorem isReturned_of_enqueued {call : NotifyCall} (h : call.enqueued = true) :
    call.isReturned = true := by
  simp only [enqueued, decide_eq_true_eq] at h
  simp [isReturned, h]

theorem not_isReturned_of_onItsWay {call : NotifyCall} (h : call.onItsWay = true) :
    call.isReturned = false := by
  simp only [onItsWay, decide_eq_true_eq] at h
  rcases h with h | h | h
  · simp [isReturned, h]
  · simp [isReturned, h]
  · simp [isReturned, h]

theorem onItsWay_eq {call : NotifyCall} (h : call.enqueued = true ∨ call.onItsWay = true) :
    call.onItsWay = !call.enqueued := by
  rcases h with hyes | hway
  · have hret := isReturned_of_enqueued hyes
    rw [hyes]
    cases hway : call.onItsWay with
    | false => rfl
    | true =>
      rw [not_isReturned_of_onItsWay hway] at hret
      cases hret
  · have hret := not_isReturned_of_onItsWay hway
    rw [hway]
    cases hyes : call.enqueued with
    | false => rfl
    | true =>
      rw [isReturned_of_enqueued hyes] at hret
      cases hret

end NotifyCall

namespace SessionUpdates

/-- The channel receives a part of the updates, in their order. While the session exists, what it
has received and what is on its way to it are together all the updates that were sent. -/
def InOrder (s : SessionUpdates) : Prop :=
  s.events.Sublist (s.updates.filterMap BackgroundEvent.arrives) ∧
  (s.registered = true →
    s.events ++ (s.calls.filter NotifyCall.onItsWay).map (·.event) =
      s.updates.filterMap BackgroundEvent.arrives)

/-- No task gets hold of the interface before those of all earlier calls have returned, and none
enqueues an event after the receiver is gone. -/
def InTurn (s : SessionUpdates) : Label → Prop
  | .notify i => ∀ call, s.calls[i]? = some call →
    (call.stage = .getMut → ∀ earlier ∈ s.calls.take i, earlier.isReturned = true) ∧
    (call.stage = .onStateChanged → s.hasReceiver = true)
  | _ => True

instance (s : SessionUpdates) (l : Label) : Decidable (s.InTurn l) :=
  match l with
  | .notify i =>
    match h : s.calls[i]? with
    | none => isTrue fun call hcall => by
      rw [h] at hcall
      cases hcall
    | some call =>
      decidable_of_iff
        ((call.stage = .getMut → ∀ earlier ∈ s.calls.take i, earlier.isReturned = true) ∧
          (call.stage = .onStateChanged → s.hasReceiver = true))
        ⟨fun hc call' hcall => by
          rw [h] at hcall
          cases hcall
          exact hc, fun hc => hc call h⟩
  | .sendStateUpdate _ | .recv | .dropReceiver | .close | .closeShutdown | .shutdownStarts
  | .shutdownEnds => isTrue trivial

structure Inv (s : SessionUpdates) : Prop where
  arrived : s.calls.map (·.event) = s.updates.filterMap BackgroundEvent.arrives
  enqueued : s.events = (s.calls.filter NotifyCall.enqueued).map (·.event)
  turn : s.calls.Pairwise fun a b => b.hadTurn = true → a.isReturned = true
  kept : s.registered = true → ∀ call ∈ s.calls, call.enqueued = true ∨ call.onItsWay = true

theorem inv_created (sessionHandle : String) : Inv (created sessionHandle) :=
  ⟨rfl, rfl, List.Pairwise.nil, fun _ _ hmem => nomatch hmem⟩

theorem Inv.inOrder {s : SessionUpdates} (h : Inv s) : s.InOrder := by
  constructor
  · rw [h.enqueued, ← h.arrived]
    exact List.filter_sublist.map _
  · intro hreg
    have hkept := h.kept hreg
    have hfirst : s.calls.Pairwise fun a b => b.enqueued = true → a.enqueued = true := by
      apply List.Pairwise.imp_of_mem _ h.turn
      intro a b ha _ hturn hb
      rcases hkept a ha with hyes | hway
      · exact hyes
      · exact absurd (hturn (NotifyCall.hadTurn_of_enqueued hb))
          (by simp [NotifyCall.not_isReturned_of_onItsWay hway])
    have hway : s.calls.filter NotifyCall.onItsWay = s.calls.filter fun call => !call.enqueued := by
      apply List.filter_congr
      intro call hmem
      exact NotifyCall.onItsWay_eq (hkept call hmem)
    rw [h.enqueued, hway, ← List.map_append, filter_then_rest hfirst, h.arrived]

/-! ### A step of a task -/

theorem notify_cases {s t : SessionUpdates} {i : Nat} (h : s.step (.notify i) = some t) :
    ∃ call, s.calls[i]? = some call ∧
      (call.stage = .lookup ∧
          (t = s.setStage i call.event .getMut ∨
            s.registered = false ∧ ∃ err, t = s.setStage i call.event (.returned (.error err))) ∨
        call.stage = .getMut ∧
          t = { s.setStage i call.event .onStateChanged with writer := some (.call i) } ∨
        call.stage = .onStateChanged ∧
          ((∃ tx, s.bgEventsTx = some tx ∧ t = { s.setStage i call.event (.returned (.ok ())) with
              bgEventsTx := some { tx with sent := tx.sent ++ [call.event] }, writer := none }) ∨
            s.hasReceiver = false ∧ t = s.setStage i call.event .shutdown) ∨
        call.stage = .shutdown ∧ s.registered = false ∧ ∃ err,
          t = { s.setStage i call.event (.returned (.error err)) with writer := none }) := by
  obtain ⟨call, hcall, hnotify⟩ := Option.bind_eq_some_iff.mp h
  refine ⟨call, hcall, ?_⟩
  unfold notifyStateChanged at hnotify
  split at hnotify
  · rename_i hstage
    refine Or.inl ⟨hstage, ?_⟩
    split at hnotify
    · split at hnotify
      · cases hnotify
        exact Or.inl rfl
      · cases hnotify
    · rename_i hreg
      cases hnotify
      exact Or.inr ⟨by simpa using hreg, _, rfl⟩
  · rename_i hstage
    refine Or.inr (Or.inl ⟨hstage, ?_⟩)
    split at hnotify
    · cases hnotify
      rfl
    · cases hnotify
  · rename_i hstage
    refine Or.inr (Or.inr (Or.inl ⟨hstage, ?_⟩))
    obtain ⟨sent, hsent, ht⟩ := Option.map_eq_some_iff.mp hnotify
    cases htx : s.bgEventsTx with
    | none =>
      rw [htx] at hsent
      cases hsent
      cases ht
      exact Or.inr ⟨by simp [hasReceiver, htx], rfl⟩
    | some tx =>
      simp only [Credentialsd.onStateChanged, htx, EventChannel.send] at hsent
      split at hsent
      · rename_i hclosed
        cases hsent
        cases ht
        exact Or.inr ⟨by simp [hasReceiver, htx, hclosed], rfl⟩
      · split at hsent
        · cases hsent
          cases ht
          exact Or.inl ⟨tx, rfl, rfl⟩
        · cases hsent
  · rename_i hstage
    refine Or.inr (Or.inr (Or.inr ⟨hstage, ?_⟩))
    split at hnotify
    · cases hnotify
    · rename_i hreg
      cases hnotify
      exact ⟨by simpa using hreg, _, rfl⟩
  · cases hnotify

/- No task behind one that has not returned has had its turn. -/
theorem Inv.split {s : SessionUpdates} {i : Nat} {call : NotifyCall} (h : Inv s)
    (hcall : s.calls[i]? = some call) (hrun : call.isReturned = false) :
    ∃ post, s.calls = s.calls.take i ++ call :: post ∧
      (∀ b, s.calls.set i b = s.calls.take i ++ b :: post) ∧
      ∀ later ∈ post, later.hadTurn = false := by
  obtain ⟨post, hsplit, hset⟩ := split_getElem? hcall
  refine ⟨post, hsplit, hset, ?_⟩
  intro later hmem
  have hpairs := h.turn
  rw [hsplit] at hpairs
  obtain ⟨hhead, -⟩ := List.pairwise_cons.mp (List.pairwise_append.mp hpairs).2.1
  cases hl : later.hadTurn with
  | false => rfl
  | true =>
    have hret := hhead later hmem hl
    rw [hrun] at hret
    cases hret

/- The events that are enqueued when one of the calls makes its move. -/
theorem enqueued_move (pre : List NotifyCall) (new : NotifyCall) {post : List NotifyCall}
    {call : NotifyCall} (hcall : call.isReturned = false)
    (hlater : ∀ later ∈ post, later.hadTurn = false) :
    (pre ++ new :: post).filter NotifyCall.enqueued =
      (pre ++ call :: post).filter NotifyCall.enqueued ++ if new.enqueued then [new] else [] := by
  have hnone : post.filter NotifyCall.enqueued = [] := by
    apply List.filter_eq_nil_iff.mpr
    intro later hmem hyes
    have hno := hlater later hmem
    rw [NotifyCall.hadTurn_of_enqueued hyes] at hno
    cases hno
  have hno : ¬ call.enqueued = true := by
    intro hyes
    rw [NotifyCall.isReturned_of_enqueued hyes] at hcall
    cases hcall
  rw [List.filter_append, List.filter_append, List.filter_cons_of_neg hno, hnone, List.append_nil]
  by_cases hnew : new.enqueued = true
  · rw [List.filter_cons_of_pos hnew, hnone, if_pos hnew]
  · rw [List.filter_cons_of_neg hnew, hnone, if_neg hnew]

/- What the move of one task to its next stage has to respect. -/
theorem Inv.move {s t : SessionUpdates} {i : Nat} {call : NotifyCall} {stage : NotifyStage}
    (h : Inv s) (hcall : s.calls[i]? = some call) (hrun : call.isReturned = false)
    (hcalls : t.calls = s.calls.set i ⟨call.event, stage⟩) (hupdates : t.updates = s.updates)
    (hevents : t.events = s.events ++ if stage = .returned (.ok ()) then [call.event] else [])
    (hturn : (⟨call.event, stage⟩ : NotifyCall).hadTurn = true →
      ∀ earlier ∈ s.calls.take i, earlier.isReturned = true)
    (hkept : t.registered = true → s.registered = true ∧
      ((⟨call.event, stage⟩ : NotifyCall).enqueued = true ∨
        (⟨call.event, stage⟩ : NotifyCall).onItsWay = true)) : Inv t := by
  obtain ⟨post, hsplit, hset, hlater⟩ := h.split hcall hrun
  have harrived := h.arrived
  have henqueued := h.enqueued
  have hpairs := h.turn
  rw [hsplit] at harrived henqueued hpairs
  constructor
  · rw [hcalls, hset, hupdates, ← harrived]
    simp
  · have hmove := enqueued_move (s.calls.take i) ⟨call.event, stage⟩ hrun hlater
    rw [hevents, henqueued, hcalls, hset, hmove, List.map_append]
    by_cases hstage : stage = .returned (.ok ())
    · rw [if_pos hstage, if_pos (by simp [NotifyCall.enqueued, hstage])]
      rfl
    · rw [if_neg hstage, if_neg (by simp [NotifyCall.enqueued, hstage])]
      rfl
  · rw [hcalls, hset]
    obtain ⟨hbefore, hafter, hcross⟩ := List.pairwise_append.mp hpairs
    apply List.pairwise_append.mpr
    refine ⟨hbefore, List.pairwise_cons.mpr ⟨?_, (List.pairwise_cons.mp hafter).2⟩, ?_⟩
    · intro later hmem hl
      rw [hlater later hmem] at hl
      cases hl
    · intro earlier hmem b hb hturned
      rcases List.mem_cons.mp hb with rfl | hb
      · exact hturn hturned earlier hmem
      · exact hcross earlier hmem b (List.mem_cons_of_mem _ hb) hturned
  · intro hreg b hb
    obtain ⟨hold, hnew⟩ := hkept hreg
    rw [hcalls] at hb
    rcases List.mem_or_eq_of_mem_set hb with hb | rfl
    · exact h.kept hold b hb
    · exact hnew

/- What no task does leaves the invariant alone. -/
theorem Inv.frame {s t : SessionUpdates} (h : Inv s) (hcalls : t.calls = s.calls)
    (hupdates : t.updates = s.updates) (hevents : t.events = s.events)
    (hreg : t.registered = true → s.registered = true) : Inv t := by
  constructor
  · rw [hcalls, hupdates]
    exact h.arrived
  · rw [hcalls, hevents]
    exact h.enqueued
  · rw [hcalls]
    exact h.turn
  · rw [hcalls]
    exact fun ht => h.kept (hreg ht)

theorem Inv.sendStateUpdate {s t : SessionUpdates} {event : BackgroundEvent} (h : Inv s)
    (hstep : s.step (.sendStateUpdate event) = some t) : Inv t := by
  cases hstep
  cases harrives : event.arrives with
  | none =>
    constructor
    · simp [h.arrived, harrives]
    · rw [Option.map_none, Option.toList_none, List.append_nil]
      exact h.enqueued
    · rw [Option.map_none, Option.toList_none, List.append_nil]
      exact h.turn
    · rw [Option.map_none, Option.toList_none, List.append_nil]
      exact h.kept
  | some e =>
    constructor
    · simp [h.arrived, harrives]
    · have hnone : [⟨e, .lookup⟩].filter NotifyCall.enqueued = [] := rfl
      rw [Option.map_some, Option.toList_some, List.filter_append, hnone, List.append_nil]
      exact h.enqueued
    · apply List.pairwise_append.mpr
      refine ⟨h.turn, List.pairwise_singleton _ _, ?_⟩
      intro earlier _ b hb hturned
      cases List.mem_singleton.mp hb
      cases hturned
    · intro hreg b hb
      rcases List.mem_append.mp hb with hb | hb
      · exact h.kept hreg b hb
      · cases List.mem_singleton.mp hb
        exact Or.inr rfl

theorem Inv.notify {s t : SessionUpdates} {i : Nat} (h : Inv s) (hc : s.InTurn (.notify i))
    (hstep : s.step (.notify i) = some t) : Inv t := by
  obtain ⟨call, hcall, hcase⟩ := notify_cases hstep
  obtain ⟨hmut, hreceiver⟩ := hc call hcall
  rcases hcase with ⟨hstage, rfl | ⟨hreg, err, rfl⟩⟩ | ⟨hstage, rfl⟩ |
    ⟨hstage, ⟨tx, htx, rfl⟩ | ⟨hgone, rfl⟩⟩ | ⟨hstage, hreg, err, rfl⟩
  · refine h.move hcall (by simp [NotifyCall.isReturned, hstage]) rfl rfl ?_ ?_ ?_
    · exact (List.append_nil _).symm
    · exact nofun
    · exact fun hr => ⟨hr, Or.inr rfl⟩
  · refine h.move hcall (by simp [NotifyCall.isReturned, hstage]) rfl rfl ?_ ?_ ?_
    · exact (List.append_nil _).symm
    · exact nofun
    · exact fun hr => absurd hr (by simp [setStage, hreg])
  · refine h.move hcall (by simp [NotifyCall.isReturned, hstage]) rfl rfl ?_ ?_ ?_
    · exact (List.append_nil _).symm
    · exact fun _ => hmut hstage
    · exact fun hr => ⟨hr, Or.inr rfl⟩
  · refine h.move hcall (by simp [NotifyCall.isReturned, hstage]) rfl rfl ?_ ?_ ?_
    · simp [events, htx]
    · -- it has the interface, so it has had its turn already
      intro _
      obtain ⟨post, hsplit, -⟩ := split_getElem? hcall
      have hpairs := h.turn
      rw [hsplit] at hpairs
      intro earlier hmem
      apply (List.pairwise_append.mp hpairs).2.2 earlier hmem call (List.mem_cons_self ..)
      simp [NotifyCall.hadTurn, hstage]
    · exact fun hr => ⟨hr, Or.inl rfl⟩
  · rw [hreceiver hstage] at hgone
    cases hgone
  · refine h.move hcall (by simp [NotifyCall.isReturned, hstage]) rfl rfl ?_ ?_ ?_
    · exact (List.append_nil _).symm
    · exact nofun
    · exact fun hr => absurd hr (by simp [setStage, hreg])

theorem Inv.step {s t : SessionUpdates} {l : Label} (h : Inv s) (hc : s.InTurn l)
    (hstep : s.step l = some t) : Inv t := by
  cases l with
  | sendStateUpdate event => exact h.sendStateUpdate hstep
  | notify i => exact h.notify hc hstep
  | recv =>
    obtain ⟨tx', hrecv, rfl⟩ := Option.map_eq_some_iff.mp hstep
    obtain ⟨tx, htx, hrecv⟩ := Option.bind_eq_some_iff.mp hrecv
    unfold EventChannel.recv at hrecv
    split at hrecv
    · cases hrecv
      exact h.frame rfl rfl (by simp [events, htx]) id
    · cases hrecv
  | dropReceiver =>
    obtain ⟨tx, htx, rfl⟩ := Option.map_eq_some_iff.mp hstep
    exact h.frame rfl rfl (by simp [events, htx]) id
  | close =>
    simp only [SessionUpdates.step] at hstep
    split at hstep
    · cases hstep
      exact h.frame rfl rfl rfl id
    · cases hstep
  | closeShutdown =>
    simp only [SessionUpdates.step] at hstep
    split at hstep
    · cases hstep
      exact h.frame rfl rfl rfl id
    · cases hstep
  | shutdownStarts =>
    simp only [SessionUpdates.step] at hstep
    split at hstep
    · cases hstep
      exact h.frame rfl rfl rfl id
    · cases hstep
  | shutdownEnds =>
    simp only [SessionUpdates.step] at hstep
    split at hstep
    · cases hstep
      exact h.frame rfl rfl rfl nofun
    · cases hstep

theorem inv_of_run {sessionHandle : String} {ls : List Label} {s : SessionUpdates}
    (hturn : Machine.Along step (fun s l _ => s.InTurn l) (created sessionHandle) ls)
    (hrun : Machine.exec step (created sessionHandle) ls = some s) : Inv s := by
  apply Machine.exec_invariant _ (inv_created sessionHandle) hturn hrun
  intro s l t hs hc hl
  exact hs.step hc hl

/-- In every run in which each task enqueues in its turn, the channel of the session receives the
updates in the order in which they were sent, and none is lost while the session exists. -/
theorem updates_in_order (sessionHandle : String) (ls : List Label) (s : SessionUpdates)
    (hturn : Machine.Along step (fun s l _ => s.InTurn l) (created sessionHandle) ls)
    (hrun : Machine.exec step (created sessionHandle) ls = some s) : s.InOrder :=
  (inv_of_run hturn hrun).inOrder

/-- Two calls at once, of which the second one finds the session first. -/
theorem updates_in_order_two :
    ∃ s, Machine.exec step (created "/session/1")
        [.sendStateUpdate .usbConnected, .sendStateUpdate (.needsPin (some 8)), .notify 1,
          .notify 0, .notify 0, .notify 0, .notify 1, .notify 1] = some s ∧
      s.InOrder ∧ s.events = [.usbConnected, .needsPin (some 8)] := by
  refine ⟨_, rfl, updates_in_order "/session/1" [.sendStateUpdate .usbConnected,
    .sendStateUpdate (.needsPin (some 8)), .notify 1, .notify 0, .notify 0, .notify 0, .notify 1,
    .notify 1] _ ?_ rfl, rfl⟩
  decide

/-- The task of the second call is through before that of the first one starts. The session exists,
nothing fails, and the GUI learns of the PIN first. -/
theorem update_overtakes :
    ∃ s, Machine.exec step (created "/session/1")
        [.sendStateUpdate .usbConnected, .sendStateUpdate (.needsPin (some 8)), .notify 1,
          .notify 1, .notify 1, .notify 0, .notify 0, .notify 0] = some s ∧
      s.registered = true ∧ (∀ call ∈ s.calls, call.stage = .returned (.ok ())) ∧
      s.updates = [.usbConnected, .needsPin (some 8)] ∧
      s.events = [.needsPin (some 8), .usbConnected] ∧ ¬ s.InOrder := by
  refine ⟨_, rfl, rfl, by decide, rfl, rfl, fun h => ?_⟩
  have hall := h.2 rfl
  revert hall
  decide

/-! ### Out of turn, and one at a time -/

/- The task that has waited for the interface takes two steps and has enqueued its event. -/
theorem enqueue_cases {s t u : SessionUpdates} {i : Nat} {call : NotifyCall}
    (hcall : s.calls[i]? = some call) (hstage : call.stage = .getMut)
    (ht : s.step (.notify i) = some t) (hu : t.step (.notify i) = some u)
    (hreceiver : t.hasReceiver = true) :
    u.events = s.events ++ [call.event] ∧ u.updates = s.updates ∧ u.registered = s.registered := by
  obtain ⟨call', hcall', hcase⟩ := notify_cases ht
  rw [hcall] at hcall'
  cases hcall'
  rw [hstage] at hcase
  simp only [reduceCtorEq, false_and, false_or, or_false, true_and] at hcase
  subst hcase
  obtain ⟨call', hcall', hcase⟩ := notify_cases hu
  obtain ⟨hi, -⟩ := List.getElem?_eq_some_iff.mp hcall
  have hset : (s.calls.set i ⟨call.event, .onStateChanged⟩)[i]? =
      some ⟨call.event, .onStateChanged⟩ := List.getElem?_set_self hi
  have heq : call' = ⟨call.event, .onStateChanged⟩ := Option.some.inj (hcall'.symm.trans hset)
  rw [heq] at hcase
  simp only [reduceCtorEq, false_and, false_or, or_false, true_and] at hcase
  rcases hcase with ⟨tx, htx, rfl⟩ | ⟨hgone, -⟩
  · have htx' : s.bgEventsTx = some tx := htx
    refine ⟨?_, rfl, rfl⟩
    simp [events, htx']
  · rw [hreceiver] at hgone
    cases hgone

/-- After a run in turn, a task that enqueues before the first one of those on their way puts the
updates out of order, unless their events are equal. -/
theorem out_of_turn {sessionHandle : String} {ls : List Label} {s t u : SessionUpdates} {i j : Nat}
    {first call : NotifyCall}
    (hturn : Machine.Along step (fun s l _ => s.InTurn l) (created sessionHandle) ls)
    (hrun : Machine.exec step (created sessionHandle) ls = some s) (hreg : s.registered = true)
    (hfirst : s.calls[i]? = some first) (hway : first.onItsWay = true)
    (hbefore : ∀ earlier ∈ s.calls.take i, earlier.onItsWay = false)
    (hcall : s.calls[j]? = some call) (hstage : call.stage = .getMut)
    (hne : first.event ≠ call.event) (ht : s.step (.notify j) = some t)
    (hu : t.step (.notify j) = some u) (hreceiver : t.hasReceiver = true) : ¬ u.InOrder := by
  intro horder
  obtain ⟨hevents, hupdates, hregistered⟩ := enqueue_cases hcall hstage ht hu hreceiver
  have hall := (inv_of_run hturn hrun).inOrder.2 hreg
  have hall' := horder.2 (hregistered.trans hreg)
  rw [hevents, hupdates, ← hall, List.append_assoc] at hall'
  have hrest := List.append_cancel_left hall'
  obtain ⟨post, hsplit, -⟩ := split_getElem? hfirst
  have hnone : (s.calls.take i).filter NotifyCall.onItsWay = [] := by
    apply List.filter_eq_nil_iff.mpr
    intro earlier hmem
    simp [hbefore earlier hmem]
  rw [hsplit, List.filter_append, hnone, List.nil_append, List.filter_cons_of_pos hway,
    List.map_cons, List.singleton_append] at hrest
  exact hne (List.cons.inj hrest).1.symm

/- Nothing is on its way, and the GUI has taken everything. -/
structure Idle (s : SessionUpdates) : Prop where
  registered : s.registered = true
  writer : s.writer = none
  readers : s.readers = 0
  returned : ∀ call ∈ s.calls, call.isReturned = true
  channel : ∃ sent : List BackgroundEvent, s.bgEventsTx = some ⟨sent, sent.length, false⟩

/- The session with the task of one more call. -/
def withLast (s : SessionUpdates) (event : BackgroundEvent) (stage : NotifyStage)
    (writer : Option Writer) : SessionUpdates :=
  { s with calls := s.calls ++ [⟨event, stage⟩], writer := writer }

theorem notify_last (s : SessionUpdates) (event : BackgroundEvent) (stage : NotifyStage)
    (writer : Option Writer) :
    (s.withLast event stage writer).step (.notify s.calls.length) =
      (s.withLast event stage writer).notifyStateChanged s.calls.length ⟨event, stage⟩ := by
  have hlast : (s.withLast event stage writer).calls[s.calls.length]? = some ⟨event, stage⟩ := by
    simp [withLast]
  rw [SessionUpdates.step, hlast, Option.bind_some]

theorem withLast_setStage (s : SessionUpdates) (event : BackgroundEvent)
    (stage stage' : NotifyStage) (writer : Option Writer) :
    (s.withLast event stage writer).setStage s.calls.length event stage' =
      s.withLast event stage' writer := by
  simp [withLast, setStage]

theorem inTurn_last {s : SessionUpdates} {event : BackgroundEvent} {stage : NotifyStage}
    {writer : Option Writer} (h : ∀ call ∈ s.calls, call.isReturned = true)
    (hreceiver : s.hasReceiver = true) :
    (s.withLast event stage writer).InTurn (.notify s.calls.length) := by
  intro call _
  refine ⟨fun _ earlier hmem => h earlier ?_, fun _ => hreceiver⟩
  simpa [withLast] using hmem

/- A call that is alone goes through. -/
theorem Idle.call {s : SessionUpdates} (h : Idle s) (event : BackgroundEvent) :
    ∃ ls t, Machine.exec step (s.withLast event .lookup none) ls = some t ∧
      Machine.Along step (fun s l _ => s.InTurn l) (s.withLast event .lookup none) ls ∧ Idle t ∧
      t.updates = s.updates := by
  obtain ⟨sent, htx⟩ := h.channel
  have hreceiver : s.hasReceiver = true := by simp [hasReceiver, htx]
  have hlookup : (s.withLast event .lookup none).step (.notify s.calls.length) =
      some (s.withLast event .getMut none) := by
    have hreg : (s.withLast event .lookup none).registered = true := h.registered
    have hwriter : (s.withLast event .lookup none).writer = none := rfl
    simp only [notify_last, notifyStateChanged, withLast_setStage, hreg, hwriter, if_true]
  have hgetMut : (s.withLast event .getMut none).step (.notify s.calls.length) =
      some (s.withLast event .onStateChanged (some (.call s.calls.length))) := by
    have hfree : (s.withLast event .getMut none).writer = none ∧
        (s.withLast event .getMut none).readers = 0 := ⟨rfl, h.readers⟩
    simp only [notify_last, notifyStateChanged, withLast_setStage, if_pos hfree]
    rfl
  have hsent : onStateChanged s.bgEventsTx event =
      some (.ok ⟨sent ++ [event], sent.length, false⟩) := by
    simp [onStateChanged, htx, EventChannel.send, Except.mapError]
  have hsend : (s.withLast event .onStateChanged (some (.call s.calls.length))).step
        (.notify s.calls.length) =
      some { s.withLast event (.returned (.ok ())) none with
        bgEventsTx := some ⟨sent ++ [event], sent.length, false⟩ } := by
    have htx' : (s.withLast event .onStateChanged (some (.call s.calls.length))).bgEventsTx =
        s.bgEventsTx := rfl
    simp only [notify_last, notifyStateChanged, htx', hsent, Option.map_some, withLast_setStage]
    rfl
  have hrecv : step { s.withLast event (.returned (.ok ())) none with
        bgEventsTx := some ⟨sent ++ [event], sent.length, false⟩ } .recv =
      some { s.withLast event (.returned (.ok ())) none with
        bgEventsTx := some ⟨sent ++ [event], sent.length + 1, false⟩ } := by
    simp [step, EventChannel.recv]
  have hexec := Machine.exec_cons_some.mpr ⟨_, hlookup, Machine.exec_cons_some.mpr ⟨_, hgetMut,
    Machine.exec_cons_some.mpr ⟨_, hsend, Machine.exec_single hrecv⟩⟩⟩
  refine ⟨_, _, hexec, ?_, ?_, ?_⟩
  · apply Machine.along_cons_of_step hlookup (inTurn_last h.returned hreceiver)
    apply Machine.along_cons_of_step hgetMut (inTurn_last h.returned hreceiver)
    apply Machine.along_cons_of_step hsend (inTurn_last h.returned hreceiver)
    exact Machine.along_cons_of_step hrecv trivial trivial
  · refine ⟨h.registered, rfl, h.readers, ?_, sent ++ [event], by simp⟩
    intro call hmem
    rcases List.mem_append.mp hmem with hmem | hmem
    · exact h.returned call hmem
    · cases List.mem_singleton.mp hmem
      rfl
  · rfl

theorem Idle.update {s : SessionUpdates} (h : Idle s) (event : BackgroundEvent) :
    ∃ ls t, Machine.exec step s ls = some t ∧
      Machine.Along step (fun s l _ => s.InTurn l) s ls ∧ Idle t ∧
      t.updates = s.updates ++ [event] := by
  cases harrives : event.arrives with
  | none =>
    have hstep : s.step (.sendStateUpdate event) =
        some { s with updates := s.updates ++ [event] } := by
      simp [step, harrives]
    refine ⟨[.sendStateUpdate event], _, Machine.exec_single hstep, ?_, ?_, rfl⟩
    · exact Machine.along_cons_of_step hstep trivial trivial
    · exact ⟨h.registered, h.writer, h.readers, h.returned, h.channel⟩
  | some e =>
    have hidle : Idle { s with updates := s.updates ++ [event] } :=
      ⟨h.registered, h.writer, h.readers, h.returned, h.channel⟩
    have hstep : s.step (.sendStateUpdate event) =
        some (withLast { s with updates := s.updates ++ [event] } e .lookup none) := by
      simp [step, harrives, withLast, h.writer]
    obtain ⟨ls, t, hexec, hturn, ht, hupdates⟩ := hidle.call e
    refine ⟨.sendStateUpdate event :: ls, t, Machine.exec_cons_some.mpr ⟨_, hstep, hexec⟩, ?_, ht,
      hupdates⟩
    exact Machine.along_cons_of_step hstep trivial hturn

/-- Every sequence of updates has a run in turn in which the GUI takes all their events: that in
which a call arrives only after the one before it has returned. -/
theorem one_at_a_time (sessionHandle : String) (updates : List BackgroundEvent) :
    ∃ ls s, Machine.exec step (created sessionHandle) ls = some s ∧
      Machine.Along step (fun s l _ => s.InTurn l) (created sessionHandle) ls ∧
      s.updates = updates ∧ s.events = updates.filterMap BackgroundEvent.arrives := by
  have hrun : ∃ ls s, Machine.exec step (created sessionHandle) ls = some s ∧
      Machine.Along step (fun s l _ => s.InTurn l) (created sessionHandle) ls ∧ Idle s ∧
      s.updates = updates := by
    induction updates using List.reverseRecOn with
    | nil =>
      refine ⟨[], _, rfl, trivial, ?_, rfl⟩
      exact ⟨rfl, rfl, rfl, fun _ hmem => (nomatch hmem), [], rfl⟩
    | append_singleton updates event ih =>
      obtain ⟨ls, s, hexec, hturn, hidle, rfl⟩ := ih
      obtain ⟨ls', t, hexec', hturn', ht, hupdates⟩ := hidle.update event
      exact ⟨ls ++ ls', t, Machine.exec_append_some hexec hexec',
        Machine.along_append hturn hexec hturn', ht, hupdates⟩
  obtain ⟨ls, s, hexec, hturn, hidle, rfl⟩ := hrun
  refine ⟨ls, s, hexec, hturn, rfl, ?_⟩
  have hall := (inv_of_run hturn hexec).inOrder.2 hidle.registered
  have hnone : s.calls.filter NotifyCall.onItsWay = [] := by
    apply List.filter_eq_nil_iff.mpr
    intro call hmem hway
    have hret := hidle.returned call hmem
    rw [NotifyCall.not_isReturned_of_onItsWay hway] at hret
    cases hret
  rw [← hall, hnone, List.map_nil, List.append_nil]

end SessionUpdates

end Credentialsd
