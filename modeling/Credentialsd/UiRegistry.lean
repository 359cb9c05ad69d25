import Credentialsd.UiService
import Credentialsd.Lib.Machine

/-!
# What a step of the UI does to the object server

Four kinds of tasks run `CeremonySession::shutdown`. A step registers a session, emits
its signal, removes what is registered at a path, stores that nothing is to be emitted,
or leaves the paths and the signals alone.
-/

namespace Credentialsd

namespace UiService

/-! ### Who shuts down -/

inductive Runner where
  | canceller (i : Nat)
  | forwarder (i : Nat)
  | notify (k : Nat)
  | close (k : Nat)
  deriving Repr, DecidableEq

def CancelTask.shuttingDown : CancelTask → Option Shutdown
  | .shutdown stage => some stage
  | _ => none

def ForwarderTask.shuttingDown : ForwarderTask → Option Shutdown
  | .shutdown stage => some stage
  | _ => none

theorem CancelTask.shuttingDown_eq {task : CancelTask} {stage : Shutdown} :
    task.shuttingDown = some stage ↔ task = .shutdown stage := by
  cases task <;> simp [shuttingDown]

theorem ForwarderTask.shuttingDown_eq {task : ForwarderTask} {stage : Shutdown} :
    task.shuttingDown = some stage ↔ task = .shutdown stage := by
  cases task <;> simp [shuttingDown]

def UiSession.cancellerPath (u : UiSession) : Option (String × Shutdown) :=
  u.canceller.shuttingDown.map fun stage => (u.sessionHandle, stage)

def UiSession.forwarderPath (u : UiSession) : Option (String × Shutdown) :=
  u.forwarder.shuttingDown.map fun stage => (u.sessionHandle, stage)

/-- The path that a task shuts down, and how far it is. -/
def shuttingDown (s : UiService) : Runner → Option (String × Shutdown)
  | .canceller i => (s.sessions i).cancellerPath
  | .forwarder i => (s.sessions i).forwarderPath
  | .notify k =>
    match s.notifies k with
    | .shutdown sessionHandle _ stage => some (sessionHandle, stage)
    | _ => none
  | .close k =>
    match s.closes k with
    | .shutdown i stage => some ((s.sessions i).sessionHandle, stage)
    | _ => none

theorem setNotify_ne (s : UiService) {k m : Nat} (task : NotifyTask) (h : m ≠ k) :
    (s.setNotify k task).notifies m = s.notifies m := by
  simp [setNotify, h]

theorem setClose_ne (s : UiService) {k m : Nat} (task : CloseTask) (h : m ≠ k) :
    (s.setClose k task).closes m = s.closes m := by
  simp [setClose, h]

def Label.runner : Label → Option Runner
  | .canceller i => some (.canceller i)
  | .forwarder i _ => some (.forwarder i)
  | .notify k => some (.notify k)
  | .closing k => some (.close k)
  | _ => none

/-! ### Paths and signals -/

/- The lock is left aside. -/
structure ObjectServer.SameSignals (o o' : ObjectServer) : Prop where
  emit (j : Nat) : (o'.objects j).emitClosedSignal = (o.objects j).emitClosedSignal
  count (j : Nat) : (o'.objects j).closedSignals = (o.objects j).closedSignals

theorem ObjectServer.SameSignals.refl (o : ObjectServer) : o.SameSignals o :=
  ⟨fun _ => rfl, fun _ => rfl⟩

theorem ObjectServer.SameSignals.trans {o o' o'' : ObjectServer} (h : o.SameSignals o')
    (h' : o'.SameSignals o'') : o.SameSignals o'' :=
  ⟨fun j => (h'.emit j).trans (h.emit j), fun j => (h'.count j).trans (h.count j)⟩

namespace ObjectServer

@[simp] theorem onObject_registry (o : ObjectServer) (i : Nat)
    (f : CeremonySession → CeremonySession) : (o.onObject i f).registry = o.registry := rfl

@[simp] theorem onObject_self (o : ObjectServer) (i : Nat)
    (f : CeremonySession → CeremonySession) : (o.onObject i f).objects i = f (o.objects i) := by
  simp [onObject]

theorem onObject_ne (o : ObjectServer) {i j : Nat} (f : CeremonySession → CeremonySession)
    (h : j ≠ i) : (o.onObject i f).objects j = o.objects j := by
  simp [onObject, h]

theorem onObject_same (o : ObjectServer) {i : Nat} {f : CeremonySession → CeremonySession}
    (hemit : (f (o.objects i)).emitClosedSignal = (o.objects i).emitClosedSignal)
    (hcount : (f (o.objects i)).closedSignals = (o.objects i).closedSignals) :
    o.SameSignals (o.onObject i f) := by
  constructor
  · intro j
    by_cases hj : j = i
    · subst hj
      rw [onObject_self, hemit]
    · rw [onObject_ne o f hj]
  · intro j
    by_cases hj : j = i
    · subst hj
      rw [onObject_self, hcount]
    · rw [onObject_ne o f hj]

@[simp] theorem unlock_registry (o : ObjectServer) (i : Nat) :
    (o.unlock i).registry = o.registry := rfl

theorem unlock_same (o : ObjectServer) (i : Nat) : o.SameSignals (o.unlock i) :=
  onObject_same o rfl rfl

@[simp] theorem release_registry (o : ObjectServer) (stage : Shutdown) :
    (o.release stage).registry = o.registry := by
  cases stage <;> rfl

theorem release_same (o : ObjectServer) (stage : Shutdown) : o.SameSignals (o.release stage) := by
  cases stage with
  | lookup => exact .refl o
  | get i => exact .refl o
  | emit i =>
    exact onObject_same o (i := i) (f := fun c => { c with readers := c.readers - 1 }) rfl rfl
  | remove i =>
    exact onObject_same o (i := i) (f := fun c => { c with readers := c.readers - 1 }) rfl rfl

theorem lock_some {o o' : ObjectServer} {i : Nat} {w : Holder} (h : o.lock i w = some o') :
    (o.objects i).writer = none ∧ (o.objects i).readers = 0 ∧
      o' = o.onObject i fun c => { c with writer := some w } := by
  unfold lock at h
  split at h
  · rename_i hfree
    cases h
    exact ⟨hfree.1, hfree.2, rfl⟩
  · cases h

theorem lock_registry {o o' : ObjectServer} {i : Nat} {w : Holder} (h : o.lock i w = some o') :
    o'.registry = o.registry := by
  obtain ⟨-, -, rfl⟩ := lock_some h
  rfl

theorem lock_same {o o' : ObjectServer} {i : Nat} {w : Holder} (h : o.lock i w = some o') :
    o.SameSignals o' := by
  obtain ⟨-, -, rfl⟩ := lock_some h
  exact onObject_same o rfl rfl

/-- What `CeremonySession::shutdown` does in one step. -/
inductive ShutdownStep (o : ObjectServer) (sessionHandle : String) :
    Shutdown → ObjectServer → Option Shutdown → Prop where
  | missing (h : o.registry sessionHandle = none) : ShutdownStep o sessionHandle .lookup o none
  | found {i : Nat} (h : o.registry sessionHandle = some i)
      (hfree : (o.objects i).writer = none) :
      ShutdownStep o sessionHandle .lookup o (some (.get i))
  | get {i : Nat} (hfree : (o.objects i).writer = none) :
      ShutdownStep o sessionHandle (.get i)
        (o.onObject i fun c => { c with readers := c.readers + 1 }) (some (.emit i))
  | emit {i : Nat} :
      ShutdownStep o sessionHandle (.emit i)
        (o.onObject i CeremonySession.emitClosed) (some (.remove i))
  | remove {i : Nat} :
      ShutdownStep o sessionHandle (.remove i)
        { o.release (.remove i) with
          registry := Function.update o.registry sessionHandle none } none

theorem shutdown_cases {o o' : ObjectServer} {sessionHandle : String} {stage : Shutdown}
    {next : Option Shutdown} (h : o.shutdown sessionHandle stage = some (o', next)) :
    ShutdownStep o sessionHandle stage o' next := by
  cases stage with
  | lookup =>
    cases hreg : o.registry sessionHandle with
    | none =>
      simp only [shutdown, hreg] at h
      cases h
      exact .missing hreg
    | some i =>
      simp only [shutdown, hreg] at h
      split at h
      · rename_i hfree
        cases h
        exact .found hreg hfree
      · cases h
  | get i =>
    simp only [shutdown] at h
    split at h
    · rename_i hfree
      cases h
      exact .get hfree
    · cases h
  | emit i =>
    cases h
    exact .emit
  | remove i =>
    cases h
    exact .remove

end ObjectServer

/-! ### Sessions and tasks -/

@[simp] theorem onSession_self (s : UiService) (i : Nat) (f : UiSession → UiSession) :
    (s.onSession i f).sessions i = f (s.sessions i) := by
  simp [onSession]

theorem onSession_ne (s : UiService) {i j : Nat} (f : UiSession → UiSession) (h : j ≠ i) :
    (s.onSession i f).sessions j = s.sessions j := by
  simp [onSession, h]

/- What `f` keeps of the session, the step keeps of every session. -/
theorem keeps_of_sessions {α : Type*} {s t : UiService} {i : Nat} {f : UiSession → UiSession}
    (hsessions : t.sessions = (s.onSession i f).sessions) (g : UiSession → α)
    (h : g (f (s.sessions i)) = g (s.sessions i)) (j : Nat) :
    g (t.sessions j) = g (s.sessions j) := by
  rw [hsessions]
  by_cases hj : j = i
  · subst hj
    rw [onSession_self, h]
  · rw [onSession_ne s f hj]

theorem shuttingDown_canceller {s : UiService} {i : Nat} {h : String} {stage : Shutdown} :
    s.shuttingDown (.canceller i) = some (h, stage) ↔
      (s.sessions i).canceller = .shutdown stage ∧ (s.sessions i).sessionHandle = h := by
  simp only [shuttingDown, UiSession.cancellerPath, Option.map_eq_some_iff, Prod.mk.injEq,
    CancelTask.shuttingDown_eq]
  constructor
  · rintro ⟨a, ha, hh, rfl⟩
    exact ⟨ha, hh⟩
  · rintro ⟨ha, hh⟩
    exact ⟨stage, ha, hh, rfl⟩

theorem shuttingDown_forwarder {s : UiService} {i : Nat} {h : String} {stage : Shutdown} :
    s.shuttingDown (.forwarder i) = some (h, stage) ↔
      (s.sessions i).forwarder = .shutdown stage ∧ (s.sessions i).sessionHandle = h := by
  simp only [shuttingDown, UiSession.forwarderPath, Option.map_eq_some_iff, Prod.mk.injEq,
    ForwarderTask.shuttingDown_eq]
  constructor
  · rintro ⟨a, ha, hh, rfl⟩
    exact ⟨ha, hh⟩
  · rintro ⟨ha, hh⟩
    exact ⟨stage, ha, hh, rfl⟩

theorem shuttingDown_notify {s : UiService} {k : Nat} {h : String} {stage : Shutdown} :
    s.shuttingDown (.notify k) = some (h, stage) ↔ ∃ i, s.notifies k = .shutdown h i stage := by
  cases hk : s.notifies k <;> simp [shuttingDown, hk]

theorem shuttingDown_close {s : UiService} {k : Nat} {h : String} {stage : Shutdown} :
    s.shuttingDown (.close k) = some (h, stage) ↔
      ∃ i, s.closes k = .shutdown i stage ∧ (s.sessions i).sessionHandle = h := by
  cases hk : s.closes k <;> simp [shuttingDown, hk, and_comm]

/-- The call has registered its session. -/
def created (s : UiService) (i : Nat) : Prop := (s.sessions i).create = .returned (.ok ())

/-- How a task comes closer to the removal of a session without getting there. -/
inductive Progress (o : ObjectServer) :
    Option (String × Shutdown) → Option (String × Shutdown) → Prop where
  | same (x : Option (String × Shutdown)) : Progress o x x
  | stops (x : Option (String × Shutdown)) : Progress o x none
  | starts (h : String) : Progress o none (some (h, .lookup))
  | finds {h : String} {i : Nat} (registered : o.registry h = some i) :
      Progress o (some (h, .lookup)) (some (h, .get i))
  | reads (h : String) (i : Nat) : Progress o (some (h, .get i)) (some (h, .emit i))

theorem Progress.removing {o : ObjectServer} {x : Option (String × Shutdown)} {h : String}
    {i : Nat} (hp : Progress o x (some (h, .remove i))) : x = some (h, .remove i) := by
  cases hp
  rfl

/-- What one step does to the paths and to the signals, and who does it. -/
inductive Change (s t : UiService) (l : Label) : Prop where
  | quiet (registry : t.server.registry = s.server.registry)
      (signals : s.server.SameSignals t.server)
      (tasks : ∀ r, Progress s.server (s.shuttingDown r) (t.shuttingDown r))
      (created : ∀ i, t.created i ↔ s.created i)
  | registers (i : Nat) (label : l = .create i) (stage : (s.sessions i).create = .registering)
      (free : s.server.registry (s.sessions i).sessionHandle = none)
      (registry : t.server.registry =
        Function.update s.server.registry (s.sessions i).sessionHandle (some i))
      (signals : s.server.SameSignals t.server)
      (tasks : ∀ r, t.shuttingDown r = s.shuttingDown r)
      (handle : (t.sessions i).sessionHandle = (s.sessions i).sessionHandle)
      (created : ∀ j, t.created j ↔ j = i ∨ s.created j)
  | emits (r : Runner) (h : String) (i : Nat) (label : l.runner = some r)
      (stage : s.shuttingDown r = some (h, .emit i))
      (registry : t.server.registry = s.server.registry)
      (signals : (s.server.onObject i CeremonySession.emitClosed).SameSignals t.server)
      (next : t.shuttingDown r = some (h, .remove i))
      (tasks : ∀ r', r' ≠ r → t.shuttingDown r' = s.shuttingDown r')
      (created : ∀ j, t.created j ↔ s.created j)
  | removes (r : Runner) (h : String) (i : Nat) (label : l.runner = some r)
      (stage : s.shuttingDown r = some (h, .remove i))
      (registry : t.server.registry = Function.update s.server.registry h none)
      (signals : s.server.SameSignals t.server)
      (next : t.shuttingDown r = none)
      (tasks : ∀ r', r' ≠ r → t.shuttingDown r' = s.shuttingDown r')
      (created : ∀ j, t.created j ↔ s.created j)
  | stores (k i : Nat) (label : l = .closing k) (stage : s.closes k = .store i)
      (next : t.closes k = .shutdown i .lookup)
      (registry : t.server.registry = s.server.registry)
      (signals : (s.server.onObject i fun c => { c with emitClosedSignal := false }).SameSignals
        t.server)
      (tasks : ∀ r, Progress s.server (s.shuttingDown r) (t.shuttingDown r))
      (created : ∀ j, t.created j ↔ s.created j)

/-- What one step does; a session that is registered keeps its path. -/
structure Effect (s t : UiService) (l : Label) : Prop where
  handles (i : Nat) : s.created i → (t.sessions i).sessionHandle = (s.sessions i).sessionHandle
  change : Change s t l

/-! ### Well-formed states -/

def NotifyTask.target : NotifyTask → Option Nat
  | .getMut _ i => some i
  | .onStateChanged _ i => some i
  | .shutdown _ i _ => some i
  | _ => none

/- The session that a call of `close` is for, also when it has returned. -/
def CloseTask.target : CloseTask → Option Nat
  | .absent => none
  | .lock i => some i
  | .abortForwarder i => some i
  | .abortCanceller i => some i
  | .store i => some i
  | .shutdown i _ => some i
  | .returned i => some i

structure Wf (s : UiService) : Prop where
  fresh (i : Nat) : s.nextSession ≤ i → (s.sessions i).create = .absent
  registered (h : String) (i : Nat) : s.server.registry h = some i →
    s.created i ∧ (s.sessions i).sessionHandle = h
  stage (r : Runner) (h : String) (stage : Shutdown) (i : Nat) :
    s.shuttingDown r = some (h, stage) → i ∈ stage.refs → s.created i
  notify (k i : Nat) : (s.notifies k).target = some i → s.created i
  close (k i : Nat) : (s.closes k).target = some i → s.created i
  freshNotify (k : Nat) : s.nextNotify ≤ k → s.notifies k = .absent
  freshClose (k : Nat) : s.nextClose ≤ k → s.closes k = .absent

theorem Wf.created_lt {s : UiService} (hwf : Wf s) {i : Nat} (h : s.created i) :
    i < s.nextSession := by
  by_contra hge
  have hfresh := hwf.fresh i (Nat.le_of_not_lt hge)
  unfold created at h
  rw [hfresh] at h
  cases h

/-! ### Steps of one session -/

/-- The tasks of a session move on, none of them to the removal. -/
structure UiSession.Moves (o : ObjectServer) (u v : UiSession) : Prop where
  handle : v.sessionHandle = u.sessionHandle
  canceller : Progress o u.cancellerPath v.cancellerPath
  forwarder : Progress o u.forwarderPath v.forwarderPath
  created : v.create = .returned (.ok ()) ↔ u.create = .returned (.ok ())

theorem UiSession.Moves.refl (o : ObjectServer) (u : UiSession) : u.Moves o u :=
  ⟨rfl, .same _, .same _, Iff.rfl⟩

theorem moves_onSession {s : UiService} {i : Nat} {f : UiSession → UiSession}
    (h : (s.sessions i).Moves s.server (f (s.sessions i))) (j : Nat) :
    (s.sessions j).Moves s.server ((s.onSession i f).sessions j) := by
  by_cases hj : j = i
  · subst hj
    rw [onSession_self]
    exact h
  · rw [onSession_ne s f hj]
    exact .refl ..

theorem shuttingDown_close_congr {s t : UiService} {k : Nat} (hcloses : t.closes k = s.closes k)
    (hhandles : ∀ i, (t.sessions i).sessionHandle = (s.sessions i).sessionHandle) :
    t.shuttingDown (.close k) = s.shuttingDown (.close k) := by
  simp only [shuttingDown, hcloses, hhandles]

theorem shuttingDown_notify_congr {s t : UiService} {k : Nat}
    (hnotifies : t.notifies k = s.notifies k) :
    t.shuttingDown (.notify k) = s.shuttingDown (.notify k) := by
  simp only [shuttingDown, hnotifies]

theorem effect_moves {s t : UiService} {l : Label}
    (hsessions : ∀ j, (s.sessions j).Moves s.server (t.sessions j))
    (hregistry : t.server.registry = s.server.registry)
    (hsignals : s.server.SameSignals t.server)
    (hnotifies : ∀ k, Progress s.server (s.shuttingDown (.notify k)) (t.shuttingDown (.notify k)))
    (hcloses : ∀ k, Progress s.server (s.shuttingDown (.close k)) (t.shuttingDown (.close k))) :
    Effect s t l := by
  refine ⟨fun i _ => (hsessions i).handle, .quiet hregistry hsignals ?_ ?_⟩
  · intro r
    cases r with
    | canceller i => exact (hsessions i).canceller
    | forwarder i => exact (hsessions i).forwarder
    | notify k => exact hnotifies k
    | close k => exact hcloses k
  · exact fun i => (hsessions i).created

/- A step of one session that leaves the calls for sessions alone. -/
theorem effect_session {s t : UiService} {l : Label} {i : Nat} {f : UiSession → UiSession}
    (hsessions : t.sessions = (s.onSession i f).sessions)
    (hmoves : (s.sessions i).Moves s.server (f (s.sessions i)))
    (hregistry : t.server.registry = s.server.registry)
    (hsignals : s.server.SameSignals t.server)
    (hnotifies : t.notifies = s.notifies) (hcloses : t.closes = s.closes) : Effect s t l := by
  have hall : ∀ j, (s.sessions j).Moves s.server (t.sessions j) := by
    intro j
    rw [hsessions]
    exact moves_onSession hmoves j
  apply effect_moves hall hregistry hsignals
  · intro k
    rw [shuttingDown_notify_congr (congrFun hnotifies k)]
    exact .same _
  · intro k
    rw [shuttingDown_close_congr (congrFun hcloses k) fun j => (hall j).handle]
    exact .same _

theorem effect_onSession {s : UiService} {l : Label} {i : Nat} {f : UiSession → UiSession}
    (hmoves : (s.sessions i).Moves s.server (f (s.sessions i))) : Effect s (s.onSession i f) l :=
  effect_session rfl hmoves rfl (.refl _) rfl rfl

/-! ### Steps of `CeremonySession::shutdown` -/

/- The task `r` takes a step of a shutdown, and nobody else moves. -/
theorem effect_shutdown {s t : UiService} {l : Label} {r : Runner} {h : String} {stage : Shutdown}
    {o : ObjectServer} {next : Option Shutdown}
    (hstep : s.server.ShutdownStep h stage o next) (hlabel : l.runner = some r)
    (hstage : s.shuttingDown r = some (h, stage))
    (hnext : t.shuttingDown r = next.map fun stage' => (h, stage'))
    (hothers : ∀ r', r' ≠ r → t.shuttingDown r' = s.shuttingDown r')
    (hhandles : ∀ i, (t.sessions i).sessionHandle = (s.sessions i).sessionHandle)
    (hcreated : ∀ i, t.created i ↔ s.created i)
    (hregistry : t.server.registry = o.registry) (hsignals : o.SameSignals t.server) :
    Effect s t l := by
  refine ⟨fun i _ => hhandles i, ?_⟩
  have htasks : Progress s.server (s.shuttingDown r) (t.shuttingDown r) →
      ∀ r', Progress s.server (s.shuttingDown r') (t.shuttingDown r') := by
    intro hr r'
    by_cases hrr : r' = r
    · rw [hrr]
      exact hr
    · rw [hothers r' hrr]
      exact .same _
  cases hstep with
  | missing hnone =>
    refine .quiet hregistry hsignals (htasks ?_) hcreated
    rw [hnext]
    exact .stops _
  | found hreg _ =>
    refine .quiet hregistry hsignals (htasks ?_) hcreated
    rw [hnext, hstage]
    exact .finds hreg
  | @get i _ =>
    refine .quiet hregistry ?_ (htasks ?_) hcreated
    · exact (ObjectServer.onObject_same s.server rfl rfl).trans hsignals
    · rw [hnext, hstage]
      exact .reads h i
  | @emit i => exact .emits r h i hlabel hstage hregistry hsignals hnext hothers hcreated
  | @remove i =>
    refine .removes r h i hlabel hstage ?_ ?_ hnext hothers hcreated
    · rw [hregistry]
    · exact (ObjectServer.release_same s.server (.remove i)).trans ⟨hsignals.emit, hsignals.count⟩

/- A task of session `i` takes a step of a shutdown: no call is changed. -/
theorem effect_shutdown_own {s t : UiService} {l : Label} {r : Runner} {h : String}
    {stage : Shutdown} {o : ObjectServer} {next : Option Shutdown} {i : Nat}
    {f : UiSession → UiSession}
    (hstep : s.server.ShutdownStep h stage o next) (hlabel : l.runner = some r)
    (hstage : s.shuttingDown r = some (h, stage))
    (hnext : t.shuttingDown r = next.map fun stage' => (h, stage'))
    (hsessions : t.sessions = (s.onSession i f).sessions)
    (hhandle : (f (s.sessions i)).sessionHandle = (s.sessions i).sessionHandle)
    (hcreate : (f (s.sessions i)).create = (s.sessions i).create)
    (hcancellers : ∀ j, .canceller j ≠ r →
      t.shuttingDown (.canceller j) = s.shuttingDown (.canceller j))
    (hforwarders : ∀ j, .forwarder j ≠ r →
      t.shuttingDown (.forwarder j) = s.shuttingDown (.forwarder j))
    (hnotifies : t.notifies = s.notifies) (hcloses : t.closes = s.closes)
    (hserver : t.server = o) : Effect s t l := by
  have hhandles := keeps_of_sessions hsessions UiSession.sessionHandle hhandle
  refine effect_shutdown hstep hlabel hstage hnext ?_ hhandles ?_ ?_ ?_
  · intro r' hr
    cases r' with
    | canceller j => exact hcancellers j hr
    | forwarder j => exact hforwarders j hr
    | notify k => exact shuttingDown_notify_congr (congrFun hnotifies k)
    | close k => exact shuttingDown_close_congr (congrFun hcloses k) hhandles
  · intro j
    rw [created, created, keeps_of_sessions hsessions UiSession.create hcreate j]
  · rw [hserver]
  · rw [hserver]
    exact .refl _

/- A call takes a step of a shutdown: no session is changed, and the server is unlocked at most. -/
theorem effect_shutdown_call {s t : UiService} {l : Label} {r : Runner} {h : String}
    {stage : Shutdown} {o : ObjectServer} {next : Option Shutdown} {i : Nat}
    (hstep : s.server.ShutdownStep h stage o next) (hlabel : l.runner = some r)
    (hstage : s.shuttingDown r = some (h, stage))
    (hnext : t.shuttingDown r = next.map fun stage' => (h, stage'))
    (hsessions : t.sessions = s.sessions)
    (hnotifies : ∀ k, .notify k ≠ r → t.shuttingDown (.notify k) = s.shuttingDown (.notify k))
    (hcloses : ∀ k, .close k ≠ r → t.shuttingDown (.close k) = s.shuttingDown (.close k))
    (hserver : t.server = o ∨ t.server = o.unlock i) : Effect s t l := by
  refine effect_shutdown hstep hlabel hstage hnext ?_ ?_ ?_ ?_ ?_
  · intro r' hr
    cases r' with
    | canceller j => rw [shuttingDown, shuttingDown, hsessions]
    | forwarder j => rw [shuttingDown, shuttingDown, hsessions]
    | notify k => exact hnotifies k hr
    | close k => exact hcloses k hr
  · intro j
    rw [hsessions]
  · intro j
    rw [created, created, hsessions]
  · obtain hserver | hserver := hserver <;> rw [hserver]
    exact ObjectServer.unlock_registry ..
  · obtain hserver | hserver := hserver <;> rw [hserver]
    · exact .refl _
    · exact ObjectServer.unlock_same ..

/-! ### One effect per step -/

theorem fail_effect {s : UiService} {l : Label} {i : Nat} {err : String}
    (h : ¬ s.created i) : Effect s (s.fail i err) l := by
  apply effect_onSession
  refine ⟨rfl, .same _, .same _, ?_⟩
  exact iff_of_false (fun hc => by cases hc) h

theorem createSession_effect {desktop : String → Option String} {s t : UiService} {i : Nat}
    (h : s.createSession desktop i = some t) : Effect s t (.create i) := by
  unfold createSession at h
  split at h
  · rename_i call hstage
    have hnew : ¬ s.created i := by simp [created, hstage]
    cases h
    unfold setupCancellation
    split
    · exact fail_effect hnew
    · exact fail_effect hnew
    · apply effect_onSession
      refine ⟨rfl, .stops _, .same _, ?_⟩
      exact iff_of_false (fun hc => by cases hc) hnew
  · rename_i call hstage
    have hnew : ¬ s.created i := by simp [created, hstage]
    split at h
    · cases h
      exact fail_effect hnew
    · cases h
      apply effect_onSession
      refine ⟨rfl, .same _, .stops _, ?_⟩
      exact iff_of_false (fun hc => by cases hc) hnew
  · rename_i call name hstage
    have hnew : ¬ s.created i := by simp [created, hstage]
    unfold sendRequest at h
    split at h
    · cases h
      exact fail_effect hnew
    · split at h
      · cases h
        exact fail_effect hnew
      · split at h
        · cases h
          have hmoves : (s.sessions i).Moves s.server
              { s.sessions i with create := .registering, eventLoop := .requested } := by
            refine ⟨rfl, .same _, .same _, ?_⟩
            exact iff_of_false (fun hc => by cases hc) hnew
          exact effect_session (i := i)
            (f := fun u => { u with create := .registering, eventLoop := .requested })
            rfl hmoves rfl (.refl _) rfl rfl
        · cases h
  · rename_i hstage
    have hnew : ¬ s.created i := by simp [created, hstage]
    have ht : t = s.register i := (Option.some.inj h).symm
    unfold register at ht
    split at ht
    · rw [ht]
      apply effect_onSession
      refine ⟨rfl, .same _, .same _, ?_⟩
      exact iff_of_false (fun hc => by cases hc) hnew
    · rename_i hfree
      have hsessions : t.sessions =
          (s.onSession i fun u => { u with create := .returned (.ok ()) }).sessions := by rw [ht]
      have hhandles := keeps_of_sessions hsessions UiSession.sessionHandle rfl
      refine ⟨fun j _ => hhandles j, .registers i rfl hstage hfree ?_ ?_ ?_ (hhandles i) ?_⟩
      · rw [ht]
      · rw [ht]
        exact ⟨fun _ => rfl, fun _ => rfl⟩
      · intro r
        cases r with
        | canceller j => exact keeps_of_sessions hsessions UiSession.cancellerPath rfl j
        | forwarder j => exact keeps_of_sessions hsessions UiSession.forwarderPath rfl j
        | notify k => exact shuttingDown_notify_congr (by rw [ht]; rfl)
        | close k => exact shuttingDown_close_congr (by rw [ht]; rfl) hhandles
      · intro j
        rw [created, hsessions]
        by_cases hj : j = i
        · subst hj
          simp
        · simp [created, onSession_ne s _ hj, hj]
  · cases h

theorem cancelTask_effect {s t : UiService} {i : Nat} (h : s.cancelTask i = some t) :
    Effect s t (.canceller i) := by
  unfold cancelTask at h
  split at h
  · split at h
    · cases h
      apply effect_onSession
      exact ⟨rfl, .stops _, .same _, Iff.rfl⟩
    · cases h
  · rename_i hstage
    cases h
    apply effect_onSession
    refine ⟨rfl, ?_, .same _, Iff.rfl⟩
    rw [UiSession.cancellerPath, hstage]
    exact .starts _
  · rename_i stage hstage
    obtain ⟨⟨o, next⟩, hstep, ht⟩ := Option.map_eq_some_iff.mp h
    have hsessions : t.sessions = (s.onSession i fun u =>
        { u with canceller := (next.map .shutdown).getD .finished }).sessions := by rw [← ht]
    refine effect_shutdown_own (r := .canceller i) (ObjectServer.shutdown_cases hstep) rfl
      (shuttingDown_canceller.mpr ⟨hstage, rfl⟩) ?_ hsessions rfl rfl ?_ ?_ ?_ ?_ ?_
    · rw [shuttingDown, hsessions, onSession_self]
      cases next <;> rfl
    · intro j hr
      have hj : j ≠ i := fun hji => hr (by rw [hji])
      rw [shuttingDown, hsessions, onSession_ne s _ hj]
      rfl
    · exact fun j _ => keeps_of_sessions hsessions UiSession.forwarderPath rfl j
    · rw [← ht]
      rfl
    · rw [← ht]
      rfl
    · rw [← ht]
  · cases h

theorem forwardUiEvents_effect {s t : UiService} {i : Nat} {ok : Bool}
    (h : s.forwardUiEvents i ok = some t) : Effect s t (.forwarder i ok) := by
  unfold forwardUiEvents at h
  split at h
  · rename_i hstage
    split at h
    · cases h
      apply effect_onSession
      refine ⟨rfl, .same _, ?_, Iff.rfl⟩
      rw [UiSession.forwarderPath, hstage]
      exact .starts _
    · cases h
      apply effect_onSession
      refine ⟨rfl, .same _, ?_, Iff.rfl⟩
      cases ok <;> exact .stops _
    · split at h
      · cases h
      · cases h
        apply effect_onSession
        exact ⟨rfl, .same _, .stops _, Iff.rfl⟩
  · rename_i stage hstage
    obtain ⟨⟨o, next⟩, hstep, ht⟩ := Option.map_eq_some_iff.mp h
    have hsessions : t.sessions = (s.onSession i fun u =>
        { u with forwarder := (next.map .shutdown).getD .receiving }).sessions := by rw [← ht]
    refine effect_shutdown_own (r := .forwarder i) (ObjectServer.shutdown_cases hstep) rfl
      (shuttingDown_forwarder.mpr ⟨hstage, rfl⟩) ?_ hsessions rfl rfl ?_ ?_ ?_ ?_ ?_
    · rw [shuttingDown, hsessions, onSession_self]
      cases next <;> rfl
    · exact fun j _ => keeps_of_sessions hsessions UiSession.cancellerPath rfl j
    · intro j hr
      have hj : j ≠ i := fun hji => hr (by rw [hji])
      rw [shuttingDown, hsessions, onSession_ne s _ hj]
      rfl
    · rw [← ht]
      rfl
    · rw [← ht]
      rfl
    · rw [← ht]
  · cases h
    apply effect_onSession
    exact ⟨rfl, .same _, .stops _, Iff.rfl⟩
  · cases h

/- What the calls for sessions see is left as it is. -/
theorem effect_same {s t : UiService} {l : Label} (hsessions : t.sessions = s.sessions)
    (hregistry : t.server.registry = s.server.registry)
    (hsignals : s.server.SameSignals t.server)
    (hnotifies : ∀ k, Progress s.server (s.shuttingDown (.notify k)) (t.shuttingDown (.notify k)))
    (hcloses : ∀ k, Progress s.server (s.shuttingDown (.close k)) (t.shuttingDown (.close k))) :
    Effect s t l := by
  refine effect_moves (fun j => ?_) hregistry hsignals hnotifies hcloses
  rw [hsessions]
  exact .refl ..

theorem sendUiEvent_some {s t : UiService} {i : Nat} {event : UserInteractedEvent}
    (h : s.sendUiEvent i event = some t) :
    ∃ events, t = s.onSession i fun u => { u with uiEvents := events } := by
  unfold sendUiEvent at h
  split at h
  · cases h
    exact ⟨(s.sessions i).uiEvents, by simp [onSession]⟩
  · split at h
    · cases h
      exact ⟨_, rfl⟩
    · cases h

theorem guiStep_effect {s t : UiService} {l : GuiLabel} (h : s.guiStep l = some t) :
    Effect s t (.gui l) := by
  cases l with
  | take =>
    simp only [guiStep] at h
    split at h
    · rename_i i req rest _ _
      cases h
      exact effect_session (i := i) (f := fun u => { u with eventLoop := .running }) rfl
        ⟨rfl, .same _, .same _, Iff.rfl⟩ rfl (.refl _) rfl rfl
    · cases h
  | passCancellation i =>
    simp only [guiStep] at h
    split at h
    · cases h
      apply effect_onSession
      exact ⟨rfl, .same _, .same _, Iff.rfl⟩
    · cases h
  | send i event =>
    simp only [guiStep] at h
    split at h
    · obtain ⟨events, rfl⟩ := sendUiEvent_some h
      apply effect_onSession
      exact ⟨rfl, .same _, .same _, Iff.rfl⟩
    · cases h
  | leave i =>
    simp only [guiStep] at h
    split at h
    · cases h
      apply effect_onSession
      exact ⟨rfl, .same _, .same _, Iff.rfl⟩
    · cases h
  | finish i =>
    simp only [guiStep] at h
    split at h
    · obtain ⟨m, hm, rfl⟩ := Option.map_eq_some_iff.mp h
      obtain ⟨events, rfl⟩ := sendUiEvent_some hm
      have hsessions : (dropLoop (s.onSession i fun u => { u with uiEvents := events }) i).sessions
          = (s.onSession i fun u =>
            { u with uiEvents := events, eventLoop := .ended }).sessions := by
        simp [dropLoop, onSession]
      exact effect_session hsessions ⟨rfl, .same _, .same _, Iff.rfl⟩ rfl (.refl _) rfl rfl
    · cases h
  | panic i =>
    simp only [guiStep] at h
    split at h
    · cases h
      apply effect_onSession
      exact ⟨rfl, .same _, .same _, Iff.rfl⟩
    · cases h
  | quit =>
    simp only [guiStep] at h
    split at h
    · rename_i i _
      cases h
      exact effect_session (i := i) (f := fun u => { u with eventLoop := .ended }) rfl
        ⟨rfl, .same _, .same _, Iff.rfl⟩ rfl (.refl _) rfl rfl
    · cases h
  | threadPanics =>
    simp only [guiStep] at h
    split at h
    · cases h
      exact effect_same rfl rfl (.refl _) (fun _ => .same _) fun _ => .same _
    · cases h

/- A call of `notify_state_changed` moves on outside of a shutdown. -/
theorem effect_notify {s t : UiService} {l : Label} (k : Nat) (task : NotifyTask)
    (hnotifies : t.notifies = (s.setNotify k task).notifies)
    (htask : Progress s.server (s.shuttingDown (.notify k)) (t.shuttingDown (.notify k)))
    (hsessions : t.sessions = s.sessions) (hcloses : t.closes = s.closes)
    (hregistry : t.server.registry = s.server.registry)
    (hsignals : s.server.SameSignals t.server) : Effect s t l := by
  refine effect_same hsessions hregistry hsignals ?_ ?_
  · intro m
    by_cases hm : m = k
    · subst hm
      exact htask
    · have hsame : t.notifies m = s.notifies m := by rw [hnotifies, setNotify_ne s task hm]
      rw [shuttingDown_notify_congr hsame]
      exact .same _
  · intro m
    rw [shuttingDown_close_congr (congrFun hcloses m) fun i => by rw [hsessions]]
    exact .same _

theorem notifyStateChanged_effect {s t : UiService} {k : Nat}
    (h : s.notifyStateChanged k = some t) : Effect s t (.notify k) := by
  unfold notifyStateChanged at h
  split at h
  · split at h
    · cases h
      refine effect_notify k _ rfl ?_ rfl rfl rfl (.refl _)
      simpa [shuttingDown, setNotify] using Progress.stops _
    · split at h
      · cases h
        refine effect_notify k _ rfl ?_ rfl rfl rfl (.refl _)
        simpa [shuttingDown, setNotify] using Progress.stops _
      · cases h
  · obtain ⟨server, hlock, rfl⟩ := Option.map_eq_some_iff.mp h
    refine effect_notify k _ rfl ?_ rfl rfl (ObjectServer.lock_registry hlock)
      (ObjectServer.lock_same hlock)
    simpa [shuttingDown, setNotify] using Progress.stops _
  · rename_i sessionHandle i hstage
    split at h
    · cases h
      refine effect_notify k _ rfl ?_ rfl rfl rfl (ObjectServer.unlock_same ..)
      simpa [shuttingDown, setNotify] using Progress.stops _
    · cases h
      refine effect_notify k _ rfl ?_ rfl rfl rfl (.refl _)
      simpa [shuttingDown, setNotify, hstage] using Progress.starts sessionHandle
  · rename_i sessionHandle i stage hstage
    obtain ⟨⟨o, next⟩, hstep, ht⟩ := Option.map_eq_some_iff.mp h
    have hserver : t.server = o ∨ t.server = o.unlock i := by
      cases next with
      | none => exact .inr (by rw [← ht])
      | some stage' => exact .inl (by rw [← ht])
    have hsessions : t.sessions = s.sessions := by
      cases next <;> (rw [← ht]; rfl)
    have hcloses : t.closes = s.closes := by
      cases next <;> (rw [← ht]; rfl)
    refine effect_shutdown_call (r := .notify k) (ObjectServer.shutdown_cases hstep) rfl
      (shuttingDown_notify.mpr ⟨i, hstage⟩) ?_ hsessions ?_ ?_ hserver
    · cases next <;> (rw [← ht]; simp [shuttingDown, setNotify])
    · intro m hr
      have hm : m ≠ k := fun hmk => hr (by rw [hmk])
      apply shuttingDown_notify_congr
      cases next <;> (rw [← ht]; exact setNotify_ne s _ hm)
    · intro m _
      exact shuttingDown_close_congr (congrFun hcloses m) fun j => by rw [hsessions]
  · cases h

/- A call of `close` moves on outside of a shutdown. -/
theorem effect_close {s t : UiService} {l : Label} (k : Nat) (task : CloseTask)
    (hcloses : t.closes = (s.setClose k task).closes)
    (htask : Progress s.server (s.shuttingDown (.close k)) (t.shuttingDown (.close k)))
    (hsessions : ∀ j, (s.sessions j).Moves s.server (t.sessions j))
    (hnotifies : t.notifies = s.notifies)
    (hregistry : t.server.registry = s.server.registry)
    (hsignals : s.server.SameSignals t.server) : Effect s t l := by
  refine effect_moves hsessions hregistry hsignals ?_ ?_
  · intro m
    rw [shuttingDown_notify_congr (congrFun hnotifies m)]
    exact .same _
  · intro m
    by_cases hm : m = k
    · subst hm
      exact htask
    · have hsame : t.closes m = s.closes m := by rw [hcloses, setClose_ne s task hm]
      rw [shuttingDown_close_congr hsame fun j => (hsessions j).handle]
      exact .same _

/- The session whose task is aborted, and the object server. -/
theorem abortForwarder_some (s : UiService) (i : Nat) :
    (∀ j, (s.sessions j).Moves s.server ((s.abortForwarder i).sessions j)) ∧
      (s.abortForwarder i).notifies = s.notifies ∧ (s.abortForwarder i).closes = s.closes ∧
      (s.abortForwarder i).server.registry = s.server.registry ∧
      s.server.SameSignals (s.abortForwarder i).server := by
  have haborted : ∀ j, (s.sessions j).Moves s.server
      ((s.onSession i fun u => { u with forwarder := .aborted }).sessions j) :=
    moves_onSession ⟨rfl, .same _, .stops _, Iff.rfl⟩
  unfold abortForwarder
  split
  · exact ⟨haborted, rfl, rfl, rfl, .refl _⟩
  · exact ⟨haborted, rfl, rfl, rfl, .refl _⟩
  · exact ⟨haborted, rfl, rfl, ObjectServer.release_registry .., ObjectServer.release_same ..⟩
  · exact ⟨fun j => .refl .., rfl, rfl, rfl, .refl _⟩

theorem abortCanceller_some (s : UiService) (i : Nat) :
    (∀ j, (s.sessions j).Moves s.server ((s.abortCanceller i).sessions j)) ∧
      (s.abortCanceller i).notifies = s.notifies ∧ (s.abortCanceller i).closes = s.closes ∧
      (s.abortCanceller i).server.registry = s.server.registry ∧
      s.server.SameSignals (s.abortCanceller i).server := by
  have haborted : ∀ j, (s.sessions j).Moves s.server
      ((s.onSession i fun u => { u with canceller := .aborted }).sessions j) :=
    moves_onSession ⟨rfl, .stops _, .same _, Iff.rfl⟩
  unfold abortCanceller
  split
  · exact ⟨haborted, rfl, rfl, rfl, .refl _⟩
  · exact ⟨haborted, rfl, rfl, rfl, .refl _⟩
  · exact ⟨haborted, rfl, rfl, ObjectServer.release_registry .., ObjectServer.release_same ..⟩
  · exact ⟨fun j => .refl .., rfl, rfl, rfl, .refl _⟩

theorem closeSession_effect {s t : UiService} {k : Nat} (h : s.closeSession k = some t) :
    Effect s t (.closing k) := by
  unfold closeSession at h
  split at h
  · obtain ⟨server, hlock, rfl⟩ := Option.map_eq_some_iff.mp h
    refine effect_close k _ rfl ?_ (fun j => .refl ..) rfl (ObjectServer.lock_registry hlock)
      (ObjectServer.lock_same hlock)
    simpa [shuttingDown, setClose] using Progress.stops _
  · rename_i i hstage
    cases h
    obtain ⟨hmoves, hnotifies, hcloses, hregistry, hsignals⟩ := s.abortForwarder_some i
    refine effect_close k (.abortCanceller i) ?_ ?_ hmoves hnotifies hregistry
      hsignals
    · simp [setClose, hcloses]
    · simpa [shuttingDown, setClose] using Progress.stops _
  · rename_i i hstage
    cases h
    obtain ⟨hmoves, hnotifies, hcloses, hregistry, hsignals⟩ := s.abortCanceller_some i
    refine effect_close k (.store i) ?_ ?_ hmoves hnotifies hregistry hsignals
    · simp [setClose, hcloses]
    · simpa [shuttingDown, setClose] using Progress.stops _
  · rename_i i hstage
    cases h
    refine ⟨fun _ _ => rfl, .stores k i rfl hstage ?_ rfl (.refl _) ?_ fun _ => Iff.rfl⟩
    · simp [setClose]
    · intro r
      cases r with
      | canceller j => exact .same _
      | forwarder j => exact .same _
      | notify m => exact .same _
      | close m =>
        by_cases hm : m = k
        · subst hm
          simpa [shuttingDown, setClose, hstage] using Progress.starts (s.sessions i).sessionHandle
        · have hsame : (s.setClose k (.shutdown i .lookup)).shuttingDown (.close m) =
              s.shuttingDown (.close m) :=
            shuttingDown_close_congr (setClose_ne s _ hm) fun _ => rfl
          show Progress _ _ ((s.setClose k (.shutdown i .lookup)).shuttingDown (.close m))
          rw [hsame]
          exact .same _
  · rename_i i stage hstage
    obtain ⟨⟨o, next⟩, hstep, ht⟩ := Option.map_eq_some_iff.mp h
    have hserver : t.server = o ∨ t.server = o.unlock i := by
      cases next with
      | none => exact .inr (by rw [← ht])
      | some stage' => exact .inl (by rw [← ht])
    have hsessions : t.sessions = s.sessions := by
      cases next <;> (rw [← ht]; rfl)
    have hnotifies : t.notifies = s.notifies := by
      cases next <;> (rw [← ht]; rfl)
    refine effect_shutdown_call (r := .close k) (ObjectServer.shutdown_cases hstep) rfl
      (shuttingDown_close.mpr ⟨i, hstage, rfl⟩) ?_ hsessions ?_ ?_ hserver
    · cases next <;> (rw [← ht]; simp [shuttingDown, setClose])
    · intro m _
      exact shuttingDown_notify_congr (congrFun hnotifies m)
    · intro m hr
      have hm : m ≠ k := fun hmk => hr (by rw [hmk])
      refine shuttingDown_close_congr ?_ fun j => by rw [hsessions]
      cases next <;> (rw [← ht]; exact setClose_ne s _ hm)
  · cases h

/- A call that arrives finds no task that would be in its way. -/
theorem arrives_effect {s : UiService} (hwf : Wf s) (call : CreateSession) {l : Label}
    {t : UiService} (ht : t = { s with
      sessions := Function.update s.sessions s.nextSession
        { sessionHandle := call.args.sessionHandle, create := .received call }
      nextSession := s.nextSession + 1 }) : Effect s t l := by
  have hself : t.sessions s.nextSession =
      { sessionHandle := call.args.sessionHandle, create := .received call } := by
    rw [ht]
    exact Function.update_self ..
  have hother : ∀ j, j ≠ s.nextSession → t.sessions j = s.sessions j := by
    intro j hj
    rw [ht]
    exact Function.update_of_ne hj ..
  have hnew : ¬ s.created s.nextSession := fun hc => absurd (hwf.created_lt hc) (Nat.lt_irrefl _)
  refine ⟨?_, .quiet (by rw [ht]) (by rw [ht]; exact .refl _) ?_ ?_⟩
  · intro j hj
    rw [hother j fun hjn => hnew (hjn ▸ hj)]
  · intro r
    cases r with
    | canceller j =>
      by_cases hj : j = s.nextSession
      · rw [shuttingDown, shuttingDown, hj, hself]
        exact .stops _
      · rw [shuttingDown, shuttingDown, hother j hj]
        exact .same _
    | forwarder j =>
      by_cases hj : j = s.nextSession
      · rw [shuttingDown, shuttingDown, hj, hself]
        exact .stops _
      · rw [shuttingDown, shuttingDown, hother j hj]
        exact .same _
    | notify k =>
      rw [shuttingDown_notify_congr (t := t) (by rw [ht])]
      exact .same _
    | close k =>
      have hsame : t.shuttingDown (.close k) = s.shuttingDown (.close k) := by
        have hcloses : t.closes = s.closes := by rw [ht]
        simp only [shuttingDown, hcloses]
        split
        · rename_i i stage hstage
          have hi : s.created i := hwf.close k i (by rw [hstage]; rfl)
          rw [hother i fun hin => hnew (hin ▸ hi)]
        · rfl
      rw [hsame]
      exact .same _
  · intro j
    unfold created
    by_cases hj : j = s.nextSession
    · rw [hj, hself]
      exact iff_of_false (fun hc => by cases hc) hnew
    · rw [hother j hj]

theorem step_effect {desktop : String → Option String} {s t : UiService} {l : Label} (hwf : Wf s)
    (h : step desktop s l = some t) : Effect s t l := by
  cases l with
  | createSession call => exact arrives_effect hwf call (Option.some.inj h).symm
  | create i => exact createSession_effect h
  | disconnect i =>
    simp only [step] at h
    split at h
    · cases h
    · cases h
      apply effect_onSession
      exact ⟨rfl, .same _, .same _, Iff.rfl⟩
  | canceller i => exact cancelTask_effect h
  | forwarder i ok => exact forwardUiEvents_effect h
  | gui l => exact guiStep_effect h
  | notifyStateChanged sessionHandle =>
    cases h
    refine effect_notify s.nextNotify (.lookup sessionHandle) rfl ?_ rfl rfl rfl
      (.refl _)
    simpa [shuttingDown] using Progress.stops _
  | notify k => exact notifyStateChanged_effect h
  | close sessionHandle =>
    obtain ⟨i, -, rfl⟩ := Option.map_eq_some_iff.mp h
    refine effect_close s.nextClose (.lock i) rfl ?_ (fun j => .refl ..) rfl rfl
      (.refl _)
    simpa [shuttingDown] using Progress.stops _
  | closing k => exact closeSession_effect h

end UiService

end Credentialsd
