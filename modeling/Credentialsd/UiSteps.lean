import Credentialsd.UiRegistry

/-!
# Which task of the UI moves

A label moves one task of one session or one call. Everything else is left as it is.
-/

namespace Credentialsd

namespace UiService

/-- A step of a session, to which the calls for it are of no concern. -/
structure OwnStep (s t : UiService) : Prop where
  notifies : t.notifies = s.notifies
  closes : t.closes = s.closes
  nextSession : t.nextSession = s.nextSession
  nextNotify : t.nextNotify = s.nextNotify
  nextClose : t.nextClose = s.nextClose
  absent (i : Nat) : (s.sessions i).create = .absent → (t.sessions i).create = .absent
  writer (i : Nat) : (t.server.objects i).writer = (s.server.objects i).writer

theorem ObjectServer.onObject_writer (o : ObjectServer) {i : Nat}
    {f : CeremonySession → CeremonySession} (hf : (f (o.objects i)).writer = (o.objects i).writer)
    (j : Nat) : ((o.onObject i f).objects j).writer = (o.objects j).writer := by
  by_cases hj : j = i
  · subst hj
    rw [onObject_self, hf]
  · rw [onObject_ne o f hj]

theorem ObjectServer.release_writer (o : ObjectServer) (stage : Shutdown) (j : Nat) :
    ((o.release stage).objects j).writer = (o.objects j).writer := by
  cases stage with
  | lookup => rfl
  | get => rfl
  | emit i =>
    exact onObject_writer o (i := i) (f := fun c => { c with readers := c.readers - 1 }) rfl j
  | remove i =>
    exact onObject_writer o (i := i) (f := fun c => { c with readers := c.readers - 1 }) rfl j

theorem ObjectServer.ShutdownStep.writer {o o' : ObjectServer} {h : String} {stage : Shutdown}
    {next : Option Shutdown} (hstep : o.ShutdownStep h stage o' next) (i : Nat) :
    (o'.objects i).writer = (o.objects i).writer := by
  cases hstep with
  | missing => rfl
  | found => rfl
  | get => exact onObject_writer o rfl i
  | emit =>
    apply onObject_writer
    unfold CeremonySession.emitClosed
    split <;> rfl
  | @remove j => exact release_writer o (.remove j) i

theorem ownStep_onSession {s : UiService} {i : Nat} {f : UiSession → UiSession}
    (h : (s.sessions i).create = .absent → (f (s.sessions i)).create = .absent) :
    OwnStep s (s.onSession i f) := by
  refine ⟨rfl, rfl, rfl, rfl, rfl, ?_, fun _ => rfl⟩
  intro j hj
  by_cases hji : j = i
  · subst hji
    rw [onSession_self]
    exact h hj
  · rwa [onSession_ne s f hji]

theorem createSession_ownStep {desktop : String → Option String} {s t : UiService} {i : Nat}
    (h : s.createSession desktop i = some t) : OwnStep s t := by
  have hpresent : (s.sessions i).create ≠ .absent := by
    intro habsent
    simp [createSession, habsent] at h
  have hown : ∀ f : UiSession → UiSession, OwnStep s (s.onSession i f) :=
    fun f => ownStep_onSession fun habsent => absurd habsent hpresent
  unfold createSession at h
  split at h
  · cases h
    unfold setupCancellation
    split <;> exact hown _
  · split at h <;> (cases h; exact hown _)
  · unfold sendRequest at h
    split at h
    · cases h
      exact hown _
    · split at h
      · cases h
        exact hown _
      · split at h
        · cases h
          exact ⟨rfl, rfl, rfl, rfl, rfl, (hown fun u =>
            { u with create := .registering, eventLoop := .requested }).absent, fun _ => rfl⟩
        · cases h
  · cases h
    unfold register
    split
    · exact hown _
    · exact ⟨rfl, rfl, rfl, rfl, rfl,
        (hown fun u => { u with create := .returned (.ok ()) }).absent, fun _ => rfl⟩
  · cases h

theorem cancelTask_ownStep {s t : UiService} {i : Nat} (h : s.cancelTask i = some t) :
    OwnStep s t := by
  unfold cancelTask at h
  split at h
  · split at h
    · cases h
      exact ownStep_onSession id
    · cases h
  · cases h
    exact ownStep_onSession id
  · obtain ⟨⟨o, next⟩, hstep, rfl⟩ := Option.map_eq_some_iff.mp h
    exact ⟨rfl, rfl, rfl, rfl, rfl, (ownStep_onSession (s := s) (i := i)
      (f := fun u => { u with canceller := (next.map .shutdown).getD .finished }) id).absent,
      (ObjectServer.shutdown_cases hstep).writer⟩
  · cases h

theorem forwardUiEvents_ownStep {s t : UiService} {i : Nat} {ok : Bool}
    (h : s.forwardUiEvents i ok = some t) : OwnStep s t := by
  unfold forwardUiEvents at h
  split at h
  · split at h
    · cases h
      exact ownStep_onSession id
    · cases h
      exact ownStep_onSession id
    · split at h
      · cases h
      · cases h
        exact ownStep_onSession id
  · obtain ⟨⟨o, next⟩, hstep, rfl⟩ := Option.map_eq_some_iff.mp h
    exact ⟨rfl, rfl, rfl, rfl, rfl, (ownStep_onSession (s := s) (i := i)
      (f := fun u => { u with forwarder := (next.map .shutdown).getD .receiving }) id).absent,
      (ObjectServer.shutdown_cases hstep).writer⟩
  · cases h
    exact ownStep_onSession id
  · cases h

theorem guiStep_ownStep {s t : UiService} {l : GuiLabel} (h : s.guiStep l = some t) :
    OwnStep s t := by
  unfold guiStep at h
  split at h
  · split at h
    · rename_i i _ _ _ _
      cases h
      exact ⟨rfl, rfl, rfl, rfl, rfl, (ownStep_onSession (s := s) (i := i)
        (f := fun u => { u with eventLoop := .running }) id).absent, fun _ => rfl⟩
    · cases h
  · split at h
    · cases h
      exact ownStep_onSession id
    · cases h
  · split at h
    · obtain ⟨events, rfl⟩ := sendUiEvent_some h
      exact ownStep_onSession id
    · cases h
  · split at h
    · cases h
      exact ownStep_onSession id
    · cases h
  · rename_i i
    split at h
    · obtain ⟨m, hm, rfl⟩ := Option.map_eq_some_iff.mp h
      obtain ⟨events, rfl⟩ := sendUiEvent_some hm
      have hfirst : OwnStep s (s.onSession i fun u => { u with uiEvents := events }) :=
        ownStep_onSession id
      have hsecond : OwnStep (s.onSession i fun u => { u with uiEvents := events })
          (dropLoop (s.onSession i fun u => { u with uiEvents := events }) i) :=
        ownStep_onSession id
      exact ⟨rfl, rfl, rfl, rfl, rfl, fun j hj =>
        hsecond.absent j (hfirst.absent j hj), fun _ => rfl⟩
    · cases h
  · split at h
    · cases h
      exact ownStep_onSession id
    · cases h
  · split at h
    · rename_i i _
      cases h
      exact ⟨rfl, rfl, rfl, rfl, rfl, (ownStep_onSession (s := s) (i := i)
        (f := fun u => { u with eventLoop := .ended }) id).absent, fun _ => rfl⟩
    · cases h
  · split at h
    · cases h
      exact ⟨rfl, rfl, rfl, rfl, rfl, fun _ => id, fun _ => rfl⟩
    · cases h

theorem abortForwarder_ownStep (s : UiService) (i : Nat) : OwnStep s (s.abortForwarder i) := by
  have haborted : OwnStep s (s.onSession i fun u => { u with forwarder := .aborted }) :=
    ownStep_onSession id
  unfold abortForwarder
  split
  · exact haborted
  · exact haborted
  · exact ⟨rfl, rfl, rfl, rfl, rfl, haborted.absent, s.server.release_writer _⟩
  · exact ⟨rfl, rfl, rfl, rfl, rfl, fun _ => id, fun _ => rfl⟩

theorem abortCanceller_ownStep (s : UiService) (i : Nat) : OwnStep s (s.abortCanceller i) := by
  have haborted : OwnStep s (s.onSession i fun u => { u with canceller := .aborted }) :=
    ownStep_onSession id
  unfold abortCanceller
  split
  · exact haborted
  · exact haborted
  · exact ⟨rfl, rfl, rfl, rfl, rfl, haborted.absent, s.server.release_writer _⟩
  · exact ⟨rfl, rfl, rfl, rfl, rfl, fun _ => id, fun _ => rfl⟩

/-! ### Which call moves -/

theorem notifyStateChanged_others {s t : UiService} {k : Nat}
    (h : s.notifyStateChanged k = some t) :
    t.sessions = s.sessions ∧ t.closes = s.closes ∧ t.nextSession = s.nextSession ∧
      t.requests = s.requests ∧ t.gui = s.gui ∧
      ∀ m, m ≠ k → t.notifies m = s.notifies m := by
  unfold notifyStateChanged at h
  split at h
  · split at h
    · cases h
      exact ⟨rfl, rfl, rfl, rfl, rfl, fun m hm => setNotify_ne s _ hm⟩
    · split at h
      · cases h
        exact ⟨rfl, rfl, rfl, rfl, rfl, fun m hm => setNotify_ne s _ hm⟩
      · cases h
  · obtain ⟨server, -, rfl⟩ := Option.map_eq_some_iff.mp h
    exact ⟨rfl, rfl, rfl, rfl, rfl, fun m hm => setNotify_ne s _ hm⟩
  · split at h
    · cases h
      exact ⟨rfl, rfl, rfl, rfl, rfl, fun m hm => setNotify_ne s _ hm⟩
    · cases h
      exact ⟨rfl, rfl, rfl, rfl, rfl, fun m hm => setNotify_ne s _ hm⟩
  · obtain ⟨⟨o, next⟩, -, rfl⟩ := Option.map_eq_some_iff.mp h
    cases next with
    | none => exact ⟨rfl, rfl, rfl, rfl, rfl, fun m hm => setNotify_ne s _ hm⟩
    | some stage' => exact ⟨rfl, rfl, rfl, rfl, rfl, fun m hm => setNotify_ne s _ hm⟩
  · cases h

theorem closeSession_others {s t : UiService} {k : Nat} (h : s.closeSession k = some t) :
    t.notifies = s.notifies ∧ t.nextSession = s.nextSession ∧
      ∀ m, m ≠ k → t.closes m = s.closes m := by
  unfold closeSession at h
  split at h
  · obtain ⟨server, -, rfl⟩ := Option.map_eq_some_iff.mp h
    exact ⟨rfl, rfl, fun m hm => setClose_ne s _ hm⟩
  · rename_i i _
    cases h
    have hown := s.abortForwarder_ownStep i
    refine ⟨hown.notifies, hown.nextSession, fun m hm => ?_⟩
    rw [setClose_ne _ _ hm, hown.closes]
  · rename_i i _
    cases h
    have hown := s.abortCanceller_ownStep i
    refine ⟨hown.notifies, hown.nextSession, fun m hm => ?_⟩
    rw [setClose_ne _ _ hm, hown.closes]
  · cases h
    exact ⟨rfl, rfl, fun m hm => setClose_ne s _ hm⟩
  · obtain ⟨⟨o, next⟩, -, rfl⟩ := Option.map_eq_some_iff.mp h
    cases next with
    | none => exact ⟨rfl, rfl, fun m hm => setClose_ne s _ hm⟩
    | some stage' => exact ⟨rfl, rfl, fun m hm => setClose_ne s _ hm⟩
  · cases h

/-- A step of the call `k` of `notify_state_changed`, its arrival, or a step of somebody else. -/
theorem notifies_cases {desktop : String → Option String} {s t : UiService} {l : Label}
    (h : step desktop s l = some t) (k : Nat) :
    t.notifies k = s.notifies k ∨ (l = .notify k ∧ s.notifyStateChanged k = some t) ∨
      ∃ sessionHandle, t.notifies k = .lookup sessionHandle := by
  cases l with
  | createSession call =>
    cases h
    exact .inl rfl
  | create i => exact .inl (by rw [(createSession_ownStep h).notifies])
  | disconnect i =>
    simp only [step] at h
    split at h
    · cases h
    · cases h
      exact .inl rfl
  | canceller i => exact .inl (by rw [(cancelTask_ownStep h).notifies])
  | forwarder i ok => exact .inl (by rw [(forwardUiEvents_ownStep h).notifies])
  | gui l => exact .inl (by rw [(guiStep_ownStep h).notifies])
  | notifyStateChanged sessionHandle =>
    cases h
    by_cases hk : k = s.nextNotify
    · subst hk
      exact .inr (.inr ⟨sessionHandle, by simp⟩)
    · exact .inl (by simp [hk])
  | notify m =>
    by_cases hk : k = m
    · subst hk
      exact .inr (.inl ⟨rfl, h⟩)
    · obtain ⟨-, -, -, -, -, hne⟩ := notifyStateChanged_others h
      exact .inl (hne k hk)
  | close sessionHandle =>
    obtain ⟨i, -, rfl⟩ := Option.map_eq_some_iff.mp h
    exact .inl rfl
  | closing m => exact .inl (by rw [(closeSession_others h).1])

theorem closes_cases {desktop : String → Option String} {s t : UiService} {l : Label}
    (h : step desktop s l = some t) (k : Nat) :
    t.closes k = s.closes k ∨ (l = .closing k ∧ s.closeSession k = some t) ∨
      (k = s.nextClose ∧ ∃ i, t.closes k = .lock i) := by
  cases l with
  | createSession call =>
    cases h
    exact .inl rfl
  | create i => exact .inl (by rw [(createSession_ownStep h).closes])
  | disconnect i =>
    simp only [step] at h
    split at h
    · cases h
    · cases h
      exact .inl rfl
  | canceller i => exact .inl (by rw [(cancelTask_ownStep h).closes])
  | forwarder i ok => exact .inl (by rw [(forwardUiEvents_ownStep h).closes])
  | gui l => exact .inl (by rw [(guiStep_ownStep h).closes])
  | notifyStateChanged sessionHandle =>
    cases h
    exact .inl rfl
  | notify m =>
    obtain ⟨-, hcloses, -⟩ := notifyStateChanged_others h
    exact .inl (by rw [hcloses])
  | close sessionHandle =>
    obtain ⟨i, -, rfl⟩ := Option.map_eq_some_iff.mp h
    by_cases hk : k = s.nextClose
    · subst hk
      exact .inr (.inr ⟨rfl, i, by simp⟩)
    · exact .inl (by simp [hk])
  | closing m =>
    by_cases hk : k = m
    · subst hk
      exact .inr (.inl ⟨rfl, h⟩)
    · obtain ⟨-, -, hne⟩ := closeSession_others h
      exact .inl (hne k hk)

/-! ### Which session moves -/

theorem createSession_others {desktop : String → Option String} {s t : UiService} {i : Nat}
    (h : s.createSession desktop i = some t) {j : Nat} (hj : j ≠ i) :
    t.sessions j = s.sessions j := by
  unfold createSession at h
  split at h
  · cases h
    unfold setupCancellation
    split <;> exact onSession_ne s _ hj
  · split at h <;> (cases h; exact onSession_ne s _ hj)
  · unfold sendRequest at h
    split at h
    · cases h
      exact onSession_ne s _ hj
    · split at h
      · cases h
        exact onSession_ne s _ hj
      · split at h
        · cases h
          exact Function.update_of_ne hj ..
        · cases h
  · cases h
    unfold register
    split <;> exact Function.update_of_ne hj ..
  · cases h

/-- What `create_session` does in one step. -/
inductive CreateStep (s t : UiService) (i : Nat) : Prop where
  | fails (call : CreateSession) (err : String)
      (stage : (s.sessions i).create = .received call ∧
          (call.sender = none ∨ call.watchError ≠ none) ∨
        (s.sessions i).create = .watching call ∨
        ∃ name, (s.sessions i).create = .starting call name)
      (sessions : t.sessions i =
        { s.sessions i with create := .returned (.error err), cancelRx := false })
      (server : t.server = s.server) (requests : t.requests = s.requests)
  | watches (call : CreateSession) (stage : (s.sessions i).create = .received call)
      (sender : call.sender ≠ none ∧ call.watchError = none)
      (sessions : t.sessions i =
        { s.sessions i with create := .watching call, canceller := .waiting, cancelRx := true })
      (server : t.server = s.server) (requests : t.requests = s.requests)
  | starts (call : CreateSession) (name : String) (stage : (s.sessions i).create = .watching call)
      (sessions : t.sessions i =
        { s.sessions i with create := .starting call name, forwarder := .receiving })
      (server : t.server = s.server) (requests : t.requests = s.requests)
  | sends (call : CreateSession) (name : String) (request : ViewRequest)
      (stage : (s.sessions i).create = .starting call name)
      (sessions : t.sessions i =
        { s.sessions i with create := .registering, eventLoop := .requested })
      (server : t.server = s.server) (requests : t.requests = s.requests ++ [(i, request)])
  | refused (j : Nat) (err : String) (stage : (s.sessions i).create = .registering)
      (inUse : s.server.registry (s.sessions i).sessionHandle = some j)
      (sessions : t.sessions i = { s.sessions i with create := .returned (.error err) })
      (server : t.server = s.server) (requests : t.requests = s.requests)
  | registers (stage : (s.sessions i).create = .registering)
      (free : s.server.registry (s.sessions i).sessionHandle = none)
      (sessions : t.sessions i = { s.sessions i with create := .returned (.ok ()) })
      (requests : t.requests = s.requests)

theorem createSession_cases {desktop : String → Option String} {s t : UiService} {i : Nat}
    (h : s.createSession desktop i = some t) : CreateStep s t i := by
  unfold createSession at h
  split at h
  · rename_i call hstage
    cases h
    unfold setupCancellation
    split
    · rename_i hsender
      exact .fails call _ (.inl ⟨hstage, .inl hsender⟩) (onSession_self ..) rfl rfl
    · rename_i err _ herr
      exact .fails call err (.inl ⟨hstage, .inr (by simp [herr])⟩) (onSession_self ..) rfl rfl
    · rename_i sender hsender herr
      exact .watches call hstage ⟨by simp [hsender], herr⟩ (onSession_self ..) rfl rfl
  · rename_i call hstage
    split at h
    · cases h
      exact .fails call _ (.inr (.inl hstage)) (onSession_self ..) rfl rfl
    · rename_i name _
      cases h
      exact .starts call name hstage (onSession_self ..) rfl rfl
  · rename_i call name hstage
    unfold sendRequest at h
    split at h
    · cases h
      exact .fails call _ (.inr (.inr ⟨name, hstage⟩)) (onSession_self ..) rfl rfl
    · rename_i rpId _
      split at h
      · cases h
        exact .fails call _ (.inr (.inr ⟨name, hstage⟩)) (onSession_self ..) rfl rfl
      · split at h
        · cases h
          exact .sends call name (viewRequest call.args name rpId) hstage (by simp) rfl rfl
        · cases h
  · rename_i hstage
    cases h
    unfold register
    split
    · rename_i j hj
      exact .refused j "Could not create session" hstage hj (onSession_self ..) rfl rfl
    · rename_i hfree
      exact .registers hstage hfree (by simp) rfl
  · cases h

/-- What the task of `setup_cancellation` does in one step. -/
theorem cancelTask_cases {s t : UiService} {i : Nat} (h : s.cancelTask i = some t) :
    ((s.sessions i).canceller = .waiting ∧ s.wakes i = true ∧
      t = s.onSession i fun u => { u with canceller := .cancelling }) ∨
    ((s.sessions i).canceller = .cancelling ∧
      t = s.onSession i fun u =>
        { u with canceller := .shutdown .lookup, cancelled := u.cancelled || u.cancelRx }) ∨
    ∃ stage o next, (s.sessions i).canceller = .shutdown stage ∧
      s.server.ShutdownStep (s.sessions i).sessionHandle stage o next ∧
      t = { s.onSession i fun u =>
        { u with canceller := (next.map .shutdown).getD .finished } with server := o } := by
  unfold cancelTask at h
  split at h
  · rename_i hstage
    split at h
    · rename_i hwakes
      cases h
      exact .inl ⟨hstage, hwakes, rfl⟩
    · cases h
  · rename_i hstage
    cases h
    exact .inr (.inl ⟨hstage, rfl⟩)
  · rename_i stage hstage
    obtain ⟨⟨o, next⟩, hstep, rfl⟩ := Option.map_eq_some_iff.mp h
    exact .inr (.inr ⟨stage, o, next, hstage, ObjectServer.shutdown_cases hstep, rfl⟩)
  · cases h

/-- What the task that forwards the events of the GUI does in one step. -/
theorem forwardUiEvents_cases {s t : UiService} {i : Nat} {ok : Bool}
    (h : s.forwardUiEvents i ok = some t) :
    ((s.sessions i).forwarder = .receiving ∧ ∃ events task,
      (task = .shutdown .lookup ∧ .requestCancelled ∈ (s.sessions i).uiEvents ∨
        task = .receiving ∨ task = .stopping) ∧
      t = s.onSession i fun u => { u with uiEvents := events, forwarder := task }) ∨
    (∃ stage o next, (s.sessions i).forwarder = .shutdown stage ∧
      s.server.ShutdownStep (s.sessions i).sessionHandle stage o next ∧
      t = { s.onSession i fun u =>
        { u with forwarder := (next.map .shutdown).getD .receiving } with server := o }) ∨
    ((s.sessions i).forwarder = .stopping ∧
      t = s.onSession i fun u => { u with forwarder := .finished }) := by
  unfold forwardUiEvents at h
  split at h
  · rename_i hstage
    refine .inl ⟨hstage, ?_⟩
    split at h
    · rename_i rest hevents
      cases h
      exact ⟨rest, .shutdown .lookup, .inl ⟨rfl, by rw [hevents]; exact List.mem_cons_self ..⟩, rfl⟩
    · rename_i event rest _ _
      cases h
      cases ok with
      | false => exact ⟨rest, .stopping, .inr (.inr rfl), rfl⟩
      | true => exact ⟨rest, .receiving, .inr (.inl rfl), rfl⟩
    · rename_i hevents
      split at h
      · cases h
      · cases h
        refine ⟨(s.sessions i).uiEvents, .stopping, .inr (.inr rfl), ?_⟩
        simp [onSession]
  · rename_i stage hstage
    obtain ⟨⟨o, next⟩, hstep, rfl⟩ := Option.map_eq_some_iff.mp h
    exact .inr (.inl ⟨stage, o, next, hstage, ObjectServer.shutdown_cases hstep, rfl⟩)
  · rename_i hstage
    cases h
    exact .inr (.inr ⟨hstage, rfl⟩)
  · cases h

/-- The GUI moves, and the tasks of a session stay where they are. -/
structure UiSession.GuiMoves (u v : UiSession) : Prop where
  sessionHandle : v.sessionHandle = u.sessionHandle
  create : v.create = u.create
  canceller : v.canceller = u.canceller
  forwarder : v.forwarder = u.forwarder
  cancelled : v.cancelled = u.cancelled

theorem guiMoves_onSession {s t : UiService} {i : Nat} {f : UiSession → UiSession}
    (ht : t.sessions = (s.onSession i f).sessions)
    (h : (s.sessions i).GuiMoves (f (s.sessions i))) (j : Nat) :
    (s.sessions j).GuiMoves (t.sessions j) := by
  rw [ht]
  by_cases hj : j = i
  · subst hj
    rw [onSession_self]
    exact h
  · rw [onSession_ne s f hj]
    exact ⟨rfl, rfl, rfl, rfl, rfl⟩

theorem guiStep_moves {s t : UiService} {l : GuiLabel} (h : s.guiStep l = some t) (j : Nat) :
    (s.sessions j).GuiMoves (t.sessions j) := by
  unfold guiStep at h
  split at h
  · split at h
    · rename_i i _ _ _ _
      cases h
      exact guiMoves_onSession (i := i) (f := fun u => { u with eventLoop := .running }) rfl
        ⟨rfl, rfl, rfl, rfl, rfl⟩ j
    · cases h
  · split at h
    · cases h
      exact guiMoves_onSession rfl ⟨rfl, rfl, rfl, rfl, rfl⟩ j
    · cases h
  · split at h
    · obtain ⟨events, rfl⟩ := sendUiEvent_some h
      exact guiMoves_onSession rfl ⟨rfl, rfl, rfl, rfl, rfl⟩ j
    · cases h
  · split at h
    · cases h
      exact guiMoves_onSession rfl ⟨rfl, rfl, rfl, rfl, rfl⟩ j
    · cases h
  · rename_i i
    split at h
    · obtain ⟨m, hm, rfl⟩ := Option.map_eq_some_iff.mp h
      obtain ⟨events, rfl⟩ := sendUiEvent_some hm
      refine guiMoves_onSession (i := i)
        (f := fun u => { u with uiEvents := events, eventLoop := .ended }) ?_
        ⟨rfl, rfl, rfl, rfl, rfl⟩ j
      simp [dropLoop, onSession]
    · cases h
  · split at h
    · cases h
      exact guiMoves_onSession rfl ⟨rfl, rfl, rfl, rfl, rfl⟩ j
    · cases h
  · split at h
    · rename_i i _
      cases h
      exact guiMoves_onSession (i := i) (f := fun u => { u with eventLoop := .ended }) rfl
        ⟨rfl, rfl, rfl, rfl, rfl⟩ j
    · cases h
  · split at h
    · cases h
      exact ⟨rfl, rfl, rfl, rfl, rfl⟩
    · cases h

/-- What one step does to one session, and who does it. -/
inductive SessionStep (desktop : String → Option String) (s t : UiService) (l : Label)
    (j : Nat) : Prop where
  | same (sessions : t.sessions j = s.sessions j)
  | arrives (call : CreateSession) (label : l = .createSession call) (at_next : j = s.nextSession)
      (sessions : t.sessions j =
        { sessionHandle := call.args.sessionHandle, create := .received call })
  | create (label : l = .create j) (step : s.createSession desktop j = some t)
  | disconnect (label : l = .disconnect j)
      (sessions : t.sessions j = { s.sessions j with clientGone := true })
  | canceller (label : l = .canceller j) (step : s.cancelTask j = some t)
  | forwarder (ok : Bool) (label : l = .forwarder j ok) (step : s.forwardUiEvents j ok = some t)
  | gui (g : GuiLabel) (label : l = .gui g) (step : s.guiStep g = some t)
      (moves : (s.sessions j).GuiMoves (t.sessions j))
  | abortsForwarder (k : Nat) (label : l = .closing k) (stage : s.closes k = .abortForwarder j)
      (spawned : (s.sessions j).forwarder ≠ .notSpawned)
      (sessions : t.sessions j = { s.sessions j with forwarder := .aborted })
  | abortsCanceller (k : Nat) (label : l = .closing k) (stage : s.closes k = .abortCanceller j)
      (spawned : (s.sessions j).canceller ≠ .notSpawned)
      (sessions : t.sessions j = { s.sessions j with canceller := .aborted })

/- An abort drops what has not come to its end. -/
theorem abortForwarder_sessions (s : UiService) (i j : Nat) :
    (s.abortForwarder i).sessions j = s.sessions j ∨
      j = i ∧ (s.sessions j).forwarder ≠ .notSpawned ∧
        (s.abortForwarder i).sessions j = { s.sessions j with forwarder := .aborted } := by
  have haborted : ∀ t : UiService, (s.sessions i).forwarder ≠ .notSpawned →
      t.sessions = (s.onSession i fun u => { u with forwarder := .aborted }).sessions →
      t.sessions j = s.sessions j ∨ j = i ∧ (s.sessions j).forwarder ≠ .notSpawned ∧
        t.sessions j = { s.sessions j with forwarder := .aborted } := by
    intro t hspawned ht
    rw [ht]
    by_cases hj : j = i
    · subst hj
      exact .inr ⟨rfl, hspawned, onSession_self ..⟩
    · exact .inl (onSession_ne s _ hj)
  unfold abortForwarder
  split
  · rename_i hstage
    exact haborted _ (by simp [hstage]) rfl
  · rename_i hstage
    exact haborted _ (by simp [hstage]) rfl
  · rename_i hstage
    exact haborted _ (by simp [hstage]) rfl
  · exact .inl rfl

theorem abortCanceller_sessions (s : UiService) (i j : Nat) :
    (s.abortCanceller i).sessions j = s.sessions j ∨
      j = i ∧ (s.sessions j).canceller ≠ .notSpawned ∧
        (s.abortCanceller i).sessions j = { s.sessions j with canceller := .aborted } := by
  have haborted : ∀ t : UiService, (s.sessions i).canceller ≠ .notSpawned →
      t.sessions = (s.onSession i fun u => { u with canceller := .aborted }).sessions →
      t.sessions j = s.sessions j ∨ j = i ∧ (s.sessions j).canceller ≠ .notSpawned ∧
        t.sessions j = { s.sessions j with canceller := .aborted } := by
    intro t hspawned ht
    rw [ht]
    by_cases hj : j = i
    · subst hj
      exact .inr ⟨rfl, hspawned, onSession_self ..⟩
    · exact .inl (onSession_ne s _ hj)
  unfold abortCanceller
  split
  · rename_i hstage
    exact haborted _ (by simp [hstage]) rfl
  · rename_i hstage
    exact haborted _ (by simp [hstage]) rfl
  · rename_i hstage
    exact haborted _ (by simp [hstage]) rfl
  · exact .inl rfl

theorem closeSession_sessions {desktop : String → Option String} {s t : UiService} {k : Nat}
    (h : s.closeSession k = some t) (j : Nat) : SessionStep desktop s t (.closing k) j := by
  unfold closeSession at h
  split at h
  · obtain ⟨server, -, rfl⟩ := Option.map_eq_some_iff.mp h
    exact .same rfl
  · rename_i i hstage
    cases h
    obtain hsame | ⟨rfl, hspawned, haborted⟩ := s.abortForwarder_sessions i j
    · exact .same hsame
    · exact .abortsForwarder k rfl hstage hspawned haborted
  · rename_i i hstage
    cases h
    obtain hsame | ⟨rfl, hspawned, haborted⟩ := s.abortCanceller_sessions i j
    · exact .same hsame
    · exact .abortsCanceller k rfl hstage hspawned haborted
  · cases h
    exact .same rfl
  · obtain ⟨⟨o, next⟩, -, rfl⟩ := Option.map_eq_some_iff.mp h
    cases next <;> exact .same rfl
  · cases h

theorem session_step {desktop : String → Option String} {s t : UiService} {l : Label}
    (h : step desktop s l = some t) (j : Nat) : SessionStep desktop s t l j := by
  cases l with
  | createSession call =>
    cases h
    by_cases hj : j = s.nextSession
    · exact .arrives call rfl hj (by rw [hj]; exact Function.update_self ..)
    · exact .same (Function.update_of_ne hj ..)
  | create i =>
    by_cases hj : j = i
    · subst hj
      exact .create rfl h
    · exact .same (createSession_others h hj)
  | disconnect i =>
    simp only [step] at h
    split at h
    · cases h
    · cases h
      by_cases hj : j = i
      · subst hj
        exact .disconnect rfl (onSession_self ..)
      · exact .same (onSession_ne s _ hj)
  | canceller i =>
    by_cases hj : j = i
    · subst hj
      exact .canceller rfl h
    · refine .same ?_
      obtain ⟨-, -, rfl⟩ | ⟨-, rfl⟩ | ⟨_, _, _, -, -, rfl⟩ := cancelTask_cases h
      · exact onSession_ne s _ hj
      · exact onSession_ne s _ hj
      · exact Function.update_of_ne hj ..
  | forwarder i ok =>
    by_cases hj : j = i
    · subst hj
      exact .forwarder ok rfl h
    · refine .same ?_
      obtain ⟨-, _, _, -, rfl⟩ | ⟨_, _, _, -, -, rfl⟩ | ⟨-, rfl⟩ := forwardUiEvents_cases h
      · exact onSession_ne s _ hj
      · exact Function.update_of_ne hj ..
      · exact onSession_ne s _ hj
  | gui g => exact .gui g rfl h (guiStep_moves h j)
  | notifyStateChanged sessionHandle =>
    cases h
    exact .same rfl
  | notify k => exact .same (by rw [(notifyStateChanged_others h).1])
  | close sessionHandle =>
    obtain ⟨i, -, rfl⟩ := Option.map_eq_some_iff.mp h
    exact .same rfl
  | closing k => exact closeSession_sessions h j

end UiService

end Credentialsd
