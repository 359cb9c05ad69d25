import Credentialsd.UiClosed

/-!
# The window of a session is told that the session is cancelled

Only the cancel task of a call sends to the window. Its message finds a receiver as long as
the request of the call waits for the GUI thread or its event loop runs.
-/

namespace Credentialsd

namespace UiService

/-! ### The queue to the GUI thread -/

/- `start_event_loop` has returned. -/
def EventLoop.left : EventLoop → Bool
  | .leaving => true
  | .ended => true
  | _ => false

/- The call has not sent its request yet. -/
def CreateStage.early : CreateStage → Bool
  | .absent => true
  | .received _ => true
  | .watching _ => true
  | .starting _ _ => true
  | _ => false

theorem CreateStep.early {s t : UiService} {i : Nat} (h : CreateStep s t i)
    (hlate : (s.sessions i).create.early = false) :
    (t.sessions i).create.early = false ∧ (t.sessions i).eventLoop = (s.sessions i).eventLoop ∧
      (t.sessions i).cancelRx = (s.sessions i).cancelRx := by
  cases h with
  | fails call err hstage =>
    obtain ⟨hstage, -⟩ | hstage | ⟨_, hstage⟩ := hstage <;> (rw [hstage] at hlate; cases hlate)
  | watches call hstage => rw [hstage] at hlate; cases hlate
  | starts call name hstage => rw [hstage] at hlate; cases hlate
  | sends call name request hstage => rw [hstage] at hlate; cases hlate
  | refused _ _ _ _ hsessions =>
    rw [hsessions]
    exact ⟨rfl, rfl, rfl⟩
  | registers _ _ hsessions =>
    rw [hsessions]
    exact ⟨rfl, rfl, rfl⟩

/-- What the GUI does to the event loop of a session. -/
inductive LoopStep (s t : UiService) (g : GuiLabel) (j : Nat) : Prop where
  | same (loop : (t.sessions j).eventLoop = (s.sessions j).eventLoop)
      (receiver : (t.sessions j).cancelRx = (s.sessions j).cancelRx)
  | runs (request : ViewRequest) (label : g = .take)
      (requests : s.requests = (j, request) :: t.requests)
      (loop : (t.sessions j).eventLoop = .running)
      (receiver : (t.sessions j).cancelRx = (s.sessions j).cancelRx)
  | leaves (before : (s.sessions j).eventLoop = .running ∨ (s.sessions j).eventLoop = .leaving ∨
        s.gui = .showing j)
      (loop : (t.sessions j).eventLoop.left = true)

theorem loopStep_onSession {s t : UiService} {g : GuiLabel} {i : Nat}
    {f : UiSession → UiSession} (ht : t.sessions = (s.onSession i f).sessions)
    (h : ∀ v, t.sessions i = v → v = f (s.sessions i) → LoopStep s t g i) (j : Nat) :
    LoopStep s t g j := by
  by_cases hj : j = i
  · subst hj
    exact h _ rfl (by rw [ht, onSession_self])
  · have hsame : t.sessions j = s.sessions j := by rw [ht, onSession_ne s f hj]
    exact .same (by rw [hsame]) (by rw [hsame])

theorem guiStep_loop {s t : UiService} {g : GuiLabel} (h : s.guiStep g = some t) (j : Nat) :
    LoopStep s t g j := by
  unfold guiStep at h
  split at h
  · split at h
    · rename_i i request rest _ hrequests
      cases h
      refine loopStep_onSession (i := i) (f := fun u => { u with eventLoop := .running }) ?_ ?_ j
      · rfl
      intro v hv hfv
      exact .runs request rfl hrequests (by rw [hv, hfv]) (by rw [hv, hfv])
    · cases h
  · split at h
    · cases h
      refine loopStep_onSession rfl ?_ j
      intro v hv hfv
      exact .same (by rw [hv, hfv]) (by rw [hv, hfv])
    · cases h
  · split at h
    · obtain ⟨events, rfl⟩ := sendUiEvent_some h
      refine loopStep_onSession rfl ?_ j
      intro v hv hfv
      exact .same (by rw [hv, hfv]) (by rw [hv, hfv])
    · cases h
  · split at h
    · rename_i hrunning
      cases h
      refine loopStep_onSession rfl ?_ j
      intro v hv hfv
      exact .leaves (.inl hrunning) (by rw [hv, hfv]; rfl)
    · cases h
  · rename_i i
    split at h
    · rename_i hleaving
      obtain ⟨m, hm, rfl⟩ := Option.map_eq_some_iff.mp h
      obtain ⟨events, rfl⟩ := sendUiEvent_some hm
      refine loopStep_onSession (i := i)
        (f := fun u => { u with uiEvents := events, eventLoop := .ended }) ?_ ?_ j
      · simp [dropLoop, onSession]
      · intro v hv hfv
        exact .leaves (.inr (.inl hleaving)) (by rw [hv, hfv]; rfl)
    · cases h
  · split at h
    · rename_i hrunning
      cases h
      refine loopStep_onSession rfl ?_ j
      intro v hv hfv
      exact .leaves (.inl hrunning) (by rw [hv, hfv]; rfl)
    · cases h
  · split at h
    · rename_i i hshowing
      cases h
      refine loopStep_onSession (i := i) (f := fun u => { u with eventLoop := .ended }) ?_ ?_ j
      · rfl
      intro v hv hfv
      exact .leaves (.inr (.inr hshowing)) (by rw [hv, hfv]; rfl)
    · cases h
  · split at h
    · cases h
      exact .same rfl rfl
    · cases h

/-- The window that is open, and the requests that wait for one. -/
inductive QueueStep (s t : UiService) (l : Label) : Prop where
  | same (requests : t.requests = s.requests)
      (gui : t.gui = s.gui ∨ ∀ i, t.gui ≠ .showing i)
  | sends (i : Nat) (request : ViewRequest) (label : l = .create i)
      (stage : (s.sessions i).create.early = true)
      (next : (t.sessions i).create = .registering)
      (loop : (t.sessions i).eventLoop = .requested)
      (requests : t.requests = s.requests ++ [(i, request)]) (gui : t.gui = s.gui)
  | takes (i : Nat) (request : ViewRequest) (label : l = .gui .take)
      (requests : s.requests = (i, request) :: t.requests) (gui : t.gui = .showing i)

theorem createSession_gui {desktop : String → Option String} {s t : UiService} {i : Nat}
    (h : s.createSession desktop i = some t) : t.gui = s.gui := by
  unfold createSession at h
  split at h
  · cases h
    unfold setupCancellation
    split <;> rfl
  · split at h <;> (cases h; rfl)
  · unfold sendRequest at h
    split at h
    · cases h
      rfl
    · split at h
      · cases h
        rfl
      · split at h
        · cases h
          rfl
        · cases h
  · cases h
    unfold register
    split <;> rfl
  · cases h

theorem createSession_queue {desktop : String → Option String} {s t : UiService} {i : Nat}
    (h : s.createSession desktop i = some t) : QueueStep s t (.create i) := by
  have hgui := createSession_gui h
  cases createSession_cases h with
  | fails _ _ _ _ _ hrequests => exact .same hrequests (.inl hgui)
  | watches _ _ _ _ _ hrequests => exact .same hrequests (.inl hgui)
  | starts _ _ _ _ _ hrequests => exact .same hrequests (.inl hgui)
  | sends call name request hstage hsessions _ hrequests =>
    refine .sends i request rfl (by rw [hstage]; rfl) ?_ ?_ hrequests hgui
    · rw [hsessions]
    · rw [hsessions]
  | refused _ _ _ _ _ _ hrequests => exact .same hrequests (.inl hgui)
  | registers _ _ _ hrequests => exact .same hrequests (.inl hgui)

theorem guiStep_queue {s t : UiService} {g : GuiLabel} (h : s.guiStep g = some t) :
    QueueStep s t (.gui g) := by
  unfold guiStep at h
  split at h
  · split at h
    · rename_i i request rest _ hrequests
      cases h
      exact .takes i request rfl hrequests rfl
    · cases h
  · split at h
    · cases h
      exact .same rfl (.inl rfl)
    · cases h
  · split at h
    · obtain ⟨events, rfl⟩ := sendUiEvent_some h
      exact .same rfl (.inl rfl)
    · cases h
  · split at h
    · cases h
      exact .same rfl (.inl rfl)
    · cases h
  · split at h
    · obtain ⟨m, hm, rfl⟩ := Option.map_eq_some_iff.mp h
      obtain ⟨events, rfl⟩ := sendUiEvent_some hm
      exact .same rfl (.inl rfl)
    · cases h
  · split at h
    · cases h
      exact .same rfl (.inl rfl)
    · cases h
  · split at h
    · cases h
      exact .same rfl (.inr fun i hi => by cases hi)
    · cases h
  · split at h
    · cases h
      exact .same rfl (.inr fun i hi => by cases hi)
    · cases h

theorem abortForwarder_queue (s : UiService) (i : Nat) :
    (s.abortForwarder i).requests = s.requests ∧ (s.abortForwarder i).gui = s.gui := by
  unfold abortForwarder
  split <;> exact ⟨rfl, rfl⟩

theorem abortCanceller_queue (s : UiService) (i : Nat) :
    (s.abortCanceller i).requests = s.requests ∧ (s.abortCanceller i).gui = s.gui := by
  unfold abortCanceller
  split <;> exact ⟨rfl, rfl⟩

theorem queue_step {desktop : String → Option String} {s t : UiService} {l : Label}
    (h : step desktop s l = some t) : QueueStep s t l := by
  cases l with
  | createSession call =>
    cases h
    exact .same rfl (.inl rfl)
  | create i => exact createSession_queue h
  | disconnect i =>
    simp only [step] at h
    split at h
    · cases h
    · cases h
      exact .same rfl (.inl rfl)
  | canceller i =>
    obtain ⟨-, -, rfl⟩ | ⟨-, rfl⟩ | ⟨_, _, _, -, -, rfl⟩ := cancelTask_cases h <;>
      exact .same rfl (.inl rfl)
  | forwarder i ok =>
    obtain ⟨-, _, _, -, rfl⟩ | ⟨_, _, _, -, -, rfl⟩ | ⟨-, rfl⟩ := forwardUiEvents_cases h <;>
      exact .same rfl (.inl rfl)
  | gui g => exact guiStep_queue h
  | notifyStateChanged sessionHandle =>
    cases h
    exact .same rfl (.inl rfl)
  | notify k =>
    obtain ⟨-, -, -, hrequests, hgui, -⟩ := notifyStateChanged_others h
    exact .same hrequests (.inl hgui)
  | close sessionHandle =>
    obtain ⟨i, -, rfl⟩ := Option.map_eq_some_iff.mp h
    exact .same rfl (.inl rfl)
  | closing k =>
    simp only [step, closeSession] at h
    split at h
    · obtain ⟨server, -, rfl⟩ := Option.map_eq_some_iff.mp h
      exact .same rfl (.inl rfl)
    · rename_i i _
      cases h
      exact .same (s.abortForwarder_queue i).1 (.inl (s.abortForwarder_queue i).2)
    · rename_i i _
      cases h
      exact .same (s.abortCanceller_queue i).1 (.inl (s.abortCanceller_queue i).2)
    · cases h
      exact .same rfl (.inl rfl)
    · obtain ⟨⟨o, next⟩, -, rfl⟩ := Option.map_eq_some_iff.mp h
      cases next <;> exact .same rfl (.inl rfl)
    · cases h

/- A call that has sent its request does not take that back, and only the GUI moves its loop. -/
theorem late_step {desktop : String → Option String} {s t : UiService} {l : Label} (hwf : Wf s)
    (h : step desktop s l = some t) {j : Nat} (hlate : (s.sessions j).create.early = false) :
    (t.sessions j).create.early = false ∧
      (((t.sessions j).eventLoop = (s.sessions j).eventLoop ∧
        (t.sessions j).cancelRx = (s.sessions j).cancelRx) ∨
      ∃ g, l = .gui g ∧ LoopStep s t g j) := by
  cases session_step h j with
  | same hsame =>
    rw [hsame]
    exact ⟨hlate, .inl ⟨rfl, rfl⟩⟩
  | arrives _ _ hnext =>
    rw [hwf.fresh j (Nat.le_of_eq hnext.symm)] at hlate
    cases hlate
  | create _ hstep =>
    obtain ⟨hlate', hloop, hreceiver⟩ := (createSession_cases hstep).early hlate
    exact ⟨hlate', .inl ⟨hloop, hreceiver⟩⟩
  | disconnect _ hsame =>
    rw [hsame]
    exact ⟨hlate, .inl ⟨rfl, rfl⟩⟩
  | canceller _ hstep =>
    obtain ⟨-, -, rfl⟩ | ⟨-, rfl⟩ | ⟨_, _, _, -, -, rfl⟩ := cancelTask_cases hstep <;>
      simpa using hlate
  | forwarder _ _ hstep =>
    obtain ⟨-, _, _, -, rfl⟩ | ⟨_, _, _, -, -, rfl⟩ | ⟨-, rfl⟩ := forwardUiEvents_cases hstep <;>
      simpa using hlate
  | gui g hlabel hstep hmoves =>
    rw [hmoves.create]
    exact ⟨hlate, .inr ⟨g, hlabel, guiStep_loop hstep j⟩⟩
  | abortsForwarder _ _ _ _ hsame =>
    rw [hsame]
    exact ⟨hlate, .inl ⟨rfl, rfl⟩⟩
  | abortsCanceller _ _ _ _ hsame =>
    rw [hsame]
    exact ⟨hlate, .inl ⟨rfl, rfl⟩⟩

/-- Each call sends one request, which waits until its event loop starts. -/
structure Queue (s : UiService) : Prop where
  nodup : (s.requests.map Prod.fst).Nodup
  requested (i : Nat) : i ∈ s.requests.map Prod.fst →
    (s.sessions i).eventLoop = .requested ∧ (s.sessions i).create.early = false
  showing (i : Nat) : s.gui = .showing i →
    i ∉ s.requests.map Prod.fst ∧ (s.sessions i).create.early = false

theorem queue_init : Queue init where
  nodup := List.nodup_nil
  requested _ h := by cases h
  showing _ h := by cases h

/- A request that stays in the queue has no event loop yet. -/
theorem requested_step {desktop : String → Option String} {s t : UiService} {l : Label}
    (hwf : Wf s) (hqueue : Queue s) (h : step desktop s l = some t) {j : Nat}
    (hj : j ∈ s.requests.map Prod.fst)
    (hstays : ∀ request, s.requests ≠ (j, request) :: t.requests) :
    (t.sessions j).eventLoop = .requested ∧ (t.sessions j).create.early = false := by
  obtain ⟨hloop, hlate⟩ := hqueue.requested j hj
  obtain ⟨hlate', ⟨hsame, -⟩ | ⟨g, -, hstep⟩⟩ := late_step hwf h hlate
  · exact ⟨hsame.trans hloop, hlate'⟩
  · refine ⟨?_, hlate'⟩
    cases hstep with
    | same hsame => exact hsame.trans hloop
    | runs request _ hrequests => exact absurd hrequests (hstays request)
    | leaves hbefore =>
      obtain hrunning | hleaving | hshowing := hbefore
      · rw [hloop] at hrunning
        cases hrunning
      · rw [hloop] at hleaving
        cases hleaving
      · exact absurd hj (hqueue.showing j hshowing).1

theorem queue_inv_step {desktop : String → Option String} {s t : UiService} {l : Label}
    (hwf : Wf s) (hqueue : Queue s) (h : step desktop s l = some t) : Queue t := by
  cases queue_step h with
  | same hrequests hgui =>
    constructor
    · rw [hrequests]
      exact hqueue.nodup
    · intro j hj
      rw [hrequests] at hj
      refine requested_step hwf hqueue h hj fun request heq => ?_
      have hlength := congrArg List.length heq
      rw [hrequests, List.length_cons] at hlength
      omega
    · intro j hj
      obtain hsame | hnone := hgui
      · obtain ⟨hnot, hlate⟩ := hqueue.showing j (hsame.symm.trans hj)
        rw [hrequests]
        exact ⟨hnot, (late_step hwf h hlate).1⟩
      · exact absurd hj (hnone j)
  | sends i request hlabel hearly hnext hloop hrequests hgui =>
    have hlate : (t.sessions i).create.early = false := by
      rw [hnext]
      rfl
    have hnew : i ∉ s.requests.map Prod.fst := by
      intro hi
      rw [(hqueue.requested i hi).2] at hearly
      cases hearly
    have hmem : ∀ j, j ∈ t.requests.map Prod.fst ↔ j ∈ s.requests.map Prod.fst ∨ j = i := by
      intro j
      simp [hrequests]
    constructor
    · rw [hrequests, List.map_append, List.map_singleton]
      exact List.nodup_append.mpr ⟨hqueue.nodup, by simp, fun a ha b hb hab =>
        hnew (by rw [List.mem_singleton.mp hb] at hab; rwa [hab] at ha)⟩
    · intro j hj
      obtain hold | rfl := (hmem j).mp hj
      · refine requested_step hwf hqueue h hold fun other heq => ?_
        have hlength := congrArg List.length heq
        rw [hrequests, List.length_cons, List.length_append] at hlength
        omega
      · exact ⟨hloop, hlate⟩
    · intro j hj
      obtain ⟨hnot, hlatej⟩ := hqueue.showing j (hgui.symm.trans hj)
      refine ⟨fun hmemj => ?_, (late_step hwf h hlatej).1⟩
      obtain hold | rfl := (hmem j).mp hmemj
      · exact hnot hold
      · rw [hlatej] at hearly
        cases hearly
  | takes i request _ hrequests hgui =>
    have hnodup := hqueue.nodup
    rw [hrequests, List.map_cons, List.nodup_cons] at hnodup
    have htail : ∀ j, j ∈ t.requests.map Prod.fst → j ∈ s.requests.map Prod.fst := by
      intro j hj
      rw [hrequests, List.map_cons]
      exact List.mem_cons_of_mem _ hj
    refine ⟨hnodup.2, ?_, ?_⟩
    · intro j hj
      refine requested_step hwf hqueue h (htail j hj) fun other heq => ?_
      rw [hrequests] at heq
      cases heq
      exact hnodup.1 hj
    · intro j hj
      rw [hgui] at hj
      cases hj
      have hi : i ∈ s.requests.map Prod.fst := by
        rw [hrequests, List.map_cons]
        exact List.mem_cons_self ..
      exact ⟨hnodup.1, (late_step hwf h (hqueue.requested i hi).2).1⟩

/-! ### The message on the cancel channel -/

def CancelTask.early : CancelTask → Bool
  | .waiting => true
  | .cancelling => true
  | _ => false

def CreateStage.failed : CreateStage → Bool
  | .returned (.error _) => true
  | _ => false

/-- As long as the cancel task has not sent its message, somebody holds the receiver, unless the
event loop is over. When it has, the message has got through. -/
structure UiSession.Cancels (u : UiSession) : Prop where
  fresh : u.create.early = true → u.eventLoop = .notRequested
  requested : u.create.early = false → u.create.failed = false → u.eventLoop ≠ .notRequested
  receiver : u.create.failed = false → u.canceller.early = true →
    u.cancelRx = true ∨ u.eventLoop.left = true
  delivered : u.create.failed = false → u.canceller ≠ .notSpawned → u.canceller.early = false →
    u.cancelled = true ∨ u.eventLoop.left = true

theorem cancels_new (u : UiSession) (hcreate : u.create.early = true)
    (hcanceller : u.canceller = .notSpawned) (hloop : u.eventLoop = .notRequested) : u.Cancels where
  fresh _ := hloop
  requested h := by rw [hcreate] at h; cases h
  receiver _ h := by rw [hcanceller] at h; cases h
  delivered _ h := absurd hcanceller h

/-- The session whose cancel task a step aborts. -/
def aborts (s : UiService) : Label → Option Nat
  | .closing k =>
    match s.closes k with
    | .abortCanceller i => some i
    | _ => none
  | _ => none

/-- A call of `close` aborts the cancel task only after it has sent its message, or when there is
no window to be told. -/
def CancelsFirst (s : UiService) (l : Label) : Prop :=
  ∀ i ∈ s.aborts l, (s.sessions i).canceller.early = true → (s.sessions i).eventLoop.left = true

instance (s : UiService) (l : Label) : Decidable (s.CancelsFirst l) := by
  unfold CancelsFirst
  infer_instance

theorem createSession_cancels {s t : UiService} {i : Nat} (h : CreateStep s t i)
    (hcancels : (s.sessions i).Cancels) : (t.sessions i).Cancels := by
  have hnot : (s.sessions i).create.early = true → (s.sessions i).eventLoop.left = false := by
    intro hearly
    rw [hcancels.fresh hearly]
    rfl
  cases h with
  | fails _ _ _ hsessions =>
    rw [hsessions]
    constructor
    · intro h; cases h
    · intro _ h; cases h
    · intro h; cases h
    · intro h; cases h
  | watches call hstage _ hsessions =>
    have hearly : (s.sessions i).create.early = true := by rw [hstage]; rfl
    rw [hsessions]
    constructor
    · exact fun _ => hcancels.fresh hearly
    · intro h; cases h
    · exact fun _ _ => .inl rfl
    · intro _ _ h; cases h
  | starts call name hstage hsessions =>
    have hearly : (s.sessions i).create.early = true := by rw [hstage]; rfl
    have hlive : (s.sessions i).create.failed = false := by rw [hstage]; rfl
    rw [hsessions]
    constructor
    · exact fun _ => hcancels.fresh hearly
    · intro h; cases h
    · exact fun _ => hcancels.receiver hlive
    · exact fun _ => hcancels.delivered hlive
  | sends call name request hstage hsessions =>
    have hearly : (s.sessions i).create.early = true := by rw [hstage]; rfl
    have hlive : (s.sessions i).create.failed = false := by rw [hstage]; rfl
    rw [hsessions]
    constructor
    · intro h; cases h
    · intro _ _ h; cases h
    · intro _ hcanceller
      obtain hreceiver | hleft := hcancels.receiver hlive hcanceller
      · exact .inl hreceiver
      · rw [hnot hearly] at hleft
        cases hleft
    · intro _ hspawned hcanceller
      obtain hcancelled | hleft := hcancels.delivered hlive hspawned hcanceller
      · exact .inl hcancelled
      · rw [hnot hearly] at hleft
        cases hleft
  | refused _ _ _ _ hsessions =>
    rw [hsessions]
    constructor
    · intro h; cases h
    · intro _ h; cases h
    · intro h; cases h
    · intro h; cases h
  | registers hstage _ hsessions =>
    have hlate : (s.sessions i).create.early = false := by rw [hstage]; rfl
    have hlive : (s.sessions i).create.failed = false := by rw [hstage]; rfl
    rw [hsessions]
    constructor
    · intro h; cases h
    · exact fun _ _ => hcancels.requested hlate hlive
    · exact fun _ => hcancels.receiver hlive
    · exact fun _ => hcancels.delivered hlive

theorem cancelTask_cancels {s t : UiService} {i : Nat} (h : s.cancelTask i = some t)
    (hcancels : (s.sessions i).Cancels) : (t.sessions i).Cancels := by
  obtain ⟨hstage, -, rfl⟩ | ⟨hstage, rfl⟩ | ⟨stage, o, next, hstage, -, rfl⟩ := cancelTask_cases h
  · rw [onSession_self]
    constructor
    · exact hcancels.fresh
    · exact hcancels.requested
    · exact fun hlive _ => hcancels.receiver hlive (by rw [hstage]; rfl)
    · intro _ _ h; cases h
  · rw [onSession_self]
    constructor
    · exact hcancels.fresh
    · exact hcancels.requested
    · intro _ h; cases h
    · intro hlive _ _
      obtain hreceiver | hleft := hcancels.receiver hlive (by rw [hstage]; rfl)
      · exact .inl (by simp [hreceiver])
      · exact .inr hleft
  · have hdelivered : (s.sessions i).create.failed = false →
        (s.sessions i).cancelled = true ∨ (s.sessions i).eventLoop.left = true :=
      fun hlive => hcancels.delivered hlive (by simp [hstage]) (by rw [hstage]; rfl)
    simp only [onSession_self]
    constructor
    · exact hcancels.fresh
    · exact hcancels.requested
    · intro _ hearly
      cases next <;> cases hearly
    · exact fun hlive _ _ => hdelivered hlive

theorem gui_cancels {s t : UiService} {g : GuiLabel} {j : Nat} (hqueue : Queue s)
    (hmoves : (s.sessions j).GuiMoves (t.sessions j)) (h : LoopStep s t g j)
    (hcancels : (s.sessions j).Cancels) : (t.sessions j).Cancels := by
  -- a loop that moves belongs to a call that has sent its request
  have hlate : (t.sessions j).eventLoop = (s.sessions j).eventLoop ∨
      (s.sessions j).create.early = false := by
    cases h with
    | same hloop => exact .inl hloop
    | runs request _ hrequests =>
      refine .inr (hqueue.requested j ?_).2
      rw [hrequests, List.map_cons]
      exact List.mem_cons_self ..
    | leaves hbefore =>
      refine .inr ?_
      cases hearly : (s.sessions j).create.early with
      | false => rfl
      | true =>
        have hloop := hcancels.fresh hearly
        obtain hrunning | hleaving | hshowing := hbefore
        · rw [hloop] at hrunning
          cases hrunning
        · rw [hloop] at hleaving
          cases hleaving
        · exact hearly.symm.trans (hqueue.showing j hshowing).2
  -- the receiver and the message stay where they are, or the loop is over
  have hkept : (s.sessions j).eventLoop.left = true → (t.sessions j).eventLoop.left = true := by
    intro hleft
    cases h with
    | same hloop => rwa [hloop]
    | runs request _ hrequests =>
      have hrequested := (hqueue.requested j (by
        rw [hrequests, List.map_cons]
        exact List.mem_cons_self ..)).1
      rw [hrequested] at hleft
      cases hleft
    | leaves _ hloop => exact hloop
  have hreceiver : (t.sessions j).cancelRx = (s.sessions j).cancelRx ∨
      (t.sessions j).eventLoop.left = true := by
    cases h with
    | same _ hrx => exact .inl hrx
    | runs _ _ _ _ hrx => exact .inl hrx
    | leaves _ hloop => exact .inr hloop
  constructor
  · intro hearly
    rw [hmoves.create] at hearly
    obtain hloop | hnot := hlate
    · exact hloop.trans (hcancels.fresh hearly)
    · rw [hearly] at hnot
      cases hnot
  · intro hearly hlive
    rw [hmoves.create] at hearly hlive
    have hrequested := hcancels.requested hearly hlive
    cases h with
    | same hloop => rwa [hloop]
    | runs _ _ _ hloop =>
      rw [hloop]
      exact fun h => by cases h
    | leaves _ hloop =>
      intro hnone
      rw [hnone] at hloop
      cases hloop
  · intro hlive hcanceller
    rw [hmoves.create] at hlive
    rw [hmoves.canceller] at hcanceller
    obtain hrx | hleft := hcancels.receiver hlive hcanceller
    · exact hreceiver.imp (fun hsame => hsame.trans hrx) id
    · exact .inr (hkept hleft)
  · intro hlive hspawned hcanceller
    rw [hmoves.create] at hlive
    rw [hmoves.canceller] at hspawned hcanceller
    rw [hmoves.cancelled]
    exact (hcancels.delivered hlive hspawned hcanceller).imp id hkept

theorem cancels_step {desktop : String → Option String} {s t : UiService} {l : Label}
    (hqueue : Queue s) (hcancels : ∀ j, (s.sessions j).Cancels) (hl : s.CancelsFirst l)
    (h : step desktop s l = some t) (j : Nat) : (t.sessions j).Cancels := by
  have hj := hcancels j
  cases session_step h j with
  | same hsame => rwa [hsame]
  | arrives call _ _ hsessions =>
    rw [hsessions]
    exact cancels_new _ rfl rfl rfl
  | create _ hstep => exact createSession_cancels (createSession_cases hstep) hj
  | disconnect _ hsessions =>
    rw [hsessions]
    exact ⟨hj.fresh, hj.requested, hj.receiver, hj.delivered⟩
  | canceller _ hstep => exact cancelTask_cancels hstep hj
  | forwarder _ _ hstep =>
    obtain ⟨-, events, task, -, rfl⟩ | ⟨_, _, _, -, -, rfl⟩ | ⟨-, rfl⟩ :=
      forwardUiEvents_cases hstep
    · rw [onSession_self]
      exact ⟨hj.fresh, hj.requested, hj.receiver, hj.delivered⟩
    · simp only [onSession_self]
      exact ⟨hj.fresh, hj.requested, hj.receiver, hj.delivered⟩
    · rw [onSession_self]
      exact ⟨hj.fresh, hj.requested, hj.receiver, hj.delivered⟩
  | gui _ _ hstep hmoves => exact gui_cancels hqueue hmoves (guiStep_loop hstep j) hj
  | abortsForwarder _ _ _ _ hsessions =>
    rw [hsessions]
    exact ⟨hj.fresh, hj.requested, hj.receiver, hj.delivered⟩
  | abortsCanceller k hlabel hstage hspawned hsessions =>
    have hfirst : (s.sessions j).canceller.early = true →
        (s.sessions j).eventLoop.left = true := by
      subst hlabel
      exact hl j (by simp [aborts, hstage])
    rw [hsessions]
    refine ⟨hj.fresh, hj.requested, (fun _ h => by cases h), fun hlive _ _ => ?_⟩
    cases hearly : (s.sessions j).canceller.early with
    | true => exact .inr (hfirst hearly)
    | false => exact hj.delivered hlive hspawned hearly

/-- In a run in which no call of `close` aborts a cancel task that has still to tell an open
window, a session whose cancel task has ended has lost its event loop, or the message is on its
way: what waits for it in `run_gui` passes it on to the view model. -/
theorem window_is_told (desktop : String → Option String) (ls : List Label) (s : UiService)
    (hfirst : Machine.Along (step desktop) (fun s l _ => s.CancelsFirst l) init ls)
    (hrun : Machine.exec (step desktop) init ls = some s) (i : Nat) (hcreated : s.created i)
    (hended : (s.sessions i).canceller.ended = true) :
    (s.sessions i).eventLoop.left = true ∨
      ((s.sessions i).cancelled = true ∧ ((s.sessions i).eventLoop = .running →
        ∃ t, step desktop s (.gui (.passCancellation i)) = some t ∧
          (t.sessions i).userCancelled = true)) := by
  have hinv : Wf s ∧ Queue s ∧ ∀ j, (s.sessions j).Cancels := by
    refine Machine.exec_invariant (I := fun s => Wf s ∧ Queue s ∧ ∀ j, (s.sessions j).Cancels) ?_
      ⟨wf_init, queue_init, fun _ => cancels_new _ rfl rfl rfl⟩ hfirst hrun
    rintro s l t ⟨hwf, hqueue, hcancels⟩ hl hstep
    exact ⟨wf_step hwf hstep, queue_inv_step hwf hqueue hstep,
      cancels_step hqueue hcancels hl hstep⟩
  have hlive : (s.sessions i).create.failed = false := by
    rw [hcreated]
    rfl
  have hspawned : (s.sessions i).canceller ≠ .notSpawned := by
    intro hnone
    rw [hnone] at hended
    cases hended
  have hearly : (s.sessions i).canceller.early = false := by
    cases htask : (s.sessions i).canceller with
    | waiting => rw [htask] at hended; cases hended
    | cancelling => rw [htask] at hended; cases hended
    | _ => rfl
  obtain hcancelled | hleft := (hinv.2.2 i).delivered hlive hspawned hearly
  · refine .inr ⟨hcancelled, fun hrunning => ?_⟩
    refine ⟨s.onSession i fun u => { u with userCancelled := true }, ?_, by simp⟩
    simp [step, guiStep, hrunning, hcancelled]
  · exact .inl hleft

/-- The client leaves the bus while the window is open. -/
theorem window_is_told_disconnected :
    ∃ s, Machine.exec (step oneApp) init (openSession 0 "/session/1" ++ leaveBus 0) = some s ∧
      (s.sessions 0).eventLoop = .running ∧ ((s.sessions 0).eventLoop.left = true ∨
      ((s.sessions 0).cancelled = true ∧ ((s.sessions 0).eventLoop = .running →
        ∃ t, step oneApp s (.gui (.passCancellation 0)) = some t ∧
          (t.sessions 0).userCancelled = true))) := by
  refine ⟨_, rfl, rfl, window_is_told oneApp (openSession 0 "/session/1" ++ leaveBus 0) _ ?_ rfl 0
    rfl rfl⟩
  decide

/-- The client calls `Close`. Both tasks of the session are aborted, nothing has been sent, and the
window stays open. -/
theorem window_not_told :
    ∃ s, Machine.exec (step oneApp) init (openSession 0 "/session/1" ++
        [.close "/session/1", .closing 0, .closing 0, .closing 0]) = some s ∧
      s.created 0 ∧ (s.sessions 0).canceller = .aborted ∧ (s.sessions 0).forwarder = .aborted ∧
      (s.sessions 0).cancelled = false ∧ (s.sessions 0).eventLoop = .running ∧
      s.gui = .showing 0 ∧ step oneApp s (.gui (.passCancellation 0)) = none :=
  ⟨_, rfl, rfl, rfl, rfl, rfl, rfl, rfl, rfl⟩

end UiService

end Credentialsd
