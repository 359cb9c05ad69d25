import Credentialsd.UiWellFormed

/-!
# The lock of a session

A call of `close` holds the interface of its session for writing from the dispatch on, and
`notify_state_changed` from `get_mut` on. What they call to shut the session down asks the
object server for the same interface, unless the session is not at its path any more.
-/

namespace Credentialsd

namespace UiService

/-! ### Who holds a lock -/

def NotifyTask.locked : NotifyTask → Option Nat
  | .onStateChanged _ i => some i
  | .shutdown _ i _ => some i
  | _ => none

def CloseTask.locked : CloseTask → Option Nat
  | .abortForwarder i => some i
  | .abortCanceller i => some i
  | .store i => some i
  | .shutdown i _ => some i
  | _ => none

/-- The session whose guard a task has got by where it stands. -/
def locked (s : UiService) : Holder → Option Nat
  | .notify k => (s.notifies k).locked
  | .close k => (s.closes k).locked

theorem NotifyTask.target_of_locked {task : NotifyTask} {i : Nat} (h : task.locked = some i) :
    task.target = some i := by
  cases task with
  | onStateChanged => exact h
  | shutdown => exact h
  | _ => cases h

theorem CloseTask.target_of_locked {task : CloseTask} {i : Nat} (h : task.locked = some i) :
    task.target = some i := by
  cases task with
  | abortForwarder => exact h
  | abortCanceller => exact h
  | store => exact h
  | shutdown => exact h
  | _ => cases h

/-- The session for whose lock a task asks in its next step. -/
def awaits (s : UiService) : Holder → Option Nat
  | .notify k =>
    match s.notifies k with
    | .lookup sessionHandle => s.server.registry sessionHandle
    | .getMut _ i => some i
    | .shutdown sessionHandle _ .lookup => s.server.registry sessionHandle
    | .shutdown _ _ (.get i) => some i
    | _ => none
  | .close k =>
    match s.closes k with
    | .lock i => some i
    | .shutdown i .lookup => s.server.registry (s.sessions i).sessionHandle
    | .shutdown _ (.get i) => some i
    | _ => none

/-- A task that holds the lock of a session asks for it again. -/
def WaitsForItself (s : UiService) (w : Holder) (i : Nat) : Prop :=
  (s.server.objects i).writer = some w ∧ s.awaits w = some i

/-- Whoever holds a lock stands where it is held. -/
def Locks (s : UiService) : Prop :=
  ∀ i w, (s.server.objects i).writer = some w → s.locked w = some i

theorem locks_init : Locks init := by
  intro i w h
  cases h

theorem OwnStep.locks {s t : UiService} (h : OwnStep s t) (hlocks : Locks s) : Locks t := by
  intro i w hw
  rw [h.writer] at hw
  have hs := hlocks i w hw
  cases w with
  | notify k => rwa [locked, h.notifies]
  | close k => rwa [locked, h.closes]

theorem locks_setNotify {s t : UiService} (k : Nat) (task : NotifyTask) (hlocks : Locks s)
    (hnotifies : t.notifies = (s.setNotify k task).notifies) (hcloses : t.closes = s.closes)
    (hwriter : ∀ i w, (t.server.objects i).writer = some w →
      (w ≠ .notify k ∧ (s.server.objects i).writer = some w) ∨
        (w = .notify k ∧ task.locked = some i)) : Locks t := by
  intro i w hw
  obtain ⟨hne, hold⟩ | ⟨rfl, htask⟩ := hwriter i w hw
  · have hs := hlocks i w hold
    cases w with
    | notify m =>
      have hm : m ≠ k := fun hmk => hne (by rw [hmk])
      rwa [locked, hnotifies, setNotify_ne s task hm]
    | close m => rwa [locked, hcloses]
  · rw [locked, hnotifies]
    simpa [setNotify] using htask

theorem locks_setClose {s t : UiService} (k : Nat) (task : CloseTask) (hlocks : Locks s)
    (hcloses : t.closes = (s.setClose k task).closes) (hnotifies : t.notifies = s.notifies)
    (hwriter : ∀ i w, (t.server.objects i).writer = some w →
      (w ≠ .close k ∧ (s.server.objects i).writer = some w) ∨
        (w = .close k ∧ task.locked = some i)) : Locks t := by
  intro i w hw
  obtain ⟨hne, hold⟩ | ⟨rfl, htask⟩ := hwriter i w hw
  · have hs := hlocks i w hold
    cases w with
    | notify m => rwa [locked, hnotifies]
    | close m =>
      have hm : m ≠ k := fun hmk => hne (by rw [hmk])
      rwa [locked, hcloses, setClose_ne s task hm]
  · rw [locked, hcloses]
    simpa [setClose] using htask

theorem ObjectServer.lock_writer {o o' : ObjectServer} {i j : Nat} {w w' : Holder}
    (h : o.lock i w = some o') (hw : (o'.objects j).writer = some w') :
    (j = i ∧ w' = w) ∨ (j ≠ i ∧ (o.objects j).writer = some w') := by
  obtain ⟨-, -, rfl⟩ := lock_some h
  by_cases hj : j = i
  · subst hj
    rw [onObject_self] at hw
    exact .inl ⟨rfl, (Option.some.inj hw).symm⟩
  · rw [onObject_ne o _ hj] at hw
    exact .inr ⟨hj, hw⟩

theorem ObjectServer.unlock_writer {o : ObjectServer} {i j : Nat} {w : Holder}
    (hw : ((o.unlock i).objects j).writer = some w) : j ≠ i ∧ (o.objects j).writer = some w := by
  by_cases hj : j = i
  · subst hj
    rw [unlock, onObject_self] at hw
    cases hw
  · rw [unlock, onObject_ne o _ hj] at hw
    exact ⟨hj, hw⟩

theorem notifyStateChanged_locks {s t : UiService} {k : Nat} (hlocks : Locks s)
    (h : s.notifyStateChanged k = some t) : Locks t := by
  -- while the task stands where it holds nothing, no lock is held by it
  have hidle : (s.notifies k).locked = none → ∀ i w, (s.server.objects i).writer = some w →
      w ≠ .notify k := by
    rintro hnone i w hw rfl
    have hk := hlocks i _ hw
    rw [locked, hnone] at hk
    cases hk
  unfold notifyStateChanged at h
  split at h
  · rename_i sessionHandle hstage
    have hnone : (s.notifies k).locked = none := by rw [hstage]; rfl
    split at h
    · cases h
      exact locks_setNotify k _ hlocks rfl rfl fun i w hw => .inl ⟨hidle hnone i w hw, hw⟩
    · split at h
      · cases h
        exact locks_setNotify k _ hlocks rfl rfl fun i w hw => .inl ⟨hidle hnone i w hw, hw⟩
      · cases h
  · rename_i sessionHandle i hstage
    have hnone : (s.notifies k).locked = none := by rw [hstage]; rfl
    obtain ⟨server, hlock, rfl⟩ := Option.map_eq_some_iff.mp h
    refine locks_setNotify k (.onStateChanged sessionHandle i) hlocks rfl rfl fun j w hw => ?_
    obtain ⟨rfl, rfl⟩ | ⟨-, hold⟩ := ObjectServer.lock_writer hlock hw
    · exact .inr ⟨rfl, rfl⟩
    · exact .inl ⟨hidle hnone j w hold, hold⟩
  · rename_i sessionHandle i hstage
    have hat : ∀ j, (s.server.objects j).writer = some (.notify k) → j = i := by
      intro j hj
      have hk := hlocks j _ hj
      rw [locked, hstage] at hk
      exact (Option.some.inj hk).symm
    split at h
    · cases h
      refine locks_setNotify k (.returned (.ok ())) hlocks rfl rfl fun j w hw => ?_
      obtain ⟨hj, hold⟩ := ObjectServer.unlock_writer hw
      refine .inl ⟨?_, hold⟩
      rintro rfl
      exact hj (hat j hold)
    · cases h
      refine locks_setNotify k _ hlocks rfl rfl fun j w hw => ?_
      by_cases hwk : w = .notify k
      · subst hwk
        exact .inr ⟨rfl, congrArg some (hat j hw).symm⟩
      · exact .inl ⟨hwk, hw⟩
  · rename_i sessionHandle i stage hstage
    have hat : ∀ j, (s.server.objects j).writer = some (.notify k) → j = i := by
      intro j hj
      have hk := hlocks j _ hj
      rw [locked, hstage] at hk
      exact (Option.some.inj hk).symm
    obtain ⟨⟨o, next⟩, hstep, rfl⟩ := Option.map_eq_some_iff.mp h
    have hsame := (ObjectServer.shutdown_cases hstep).writer
    cases next with
    | none =>
      refine locks_setNotify k (.returned (.error
        "Error sending state notification. Closing session.")) hlocks rfl rfl fun j w hw => ?_
      obtain ⟨hj, hold⟩ := ObjectServer.unlock_writer hw
      have holds : (s.server.objects j).writer = some w := (hsame j).symm.trans hold
      refine .inl ⟨?_, holds⟩
      rintro rfl
      exact hj (hat j holds)
    | some stage' =>
      refine locks_setNotify k (.shutdown sessionHandle i stage') hlocks rfl rfl fun j w hw => ?_
      have hold : (s.server.objects j).writer = some w := (hsame j).symm.trans hw
      by_cases hwk : w = .notify k
      · subst hwk
        exact .inr ⟨rfl, congrArg some (hat j hold).symm⟩
      · exact .inl ⟨hwk, hold⟩
  · cases h

theorem closeSession_locks {s t : UiService} {k : Nat} (hlocks : Locks s)
    (h : s.closeSession k = some t) : Locks t := by
  -- a step that goes on under the lock
  have hkeeps : ∀ {u : UiService} (task : CloseTask) {i : Nat}, (s.closes k).locked = some i →
      task.locked = some i → u.closes = (s.setClose k task).closes → u.notifies = s.notifies →
      (∀ j, (u.server.objects j).writer = (s.server.objects j).writer) → Locks u := by
    intro u task i hold hnew hcloses hnotifies hsame
    refine locks_setClose k task hlocks hcloses hnotifies fun j w hw => ?_
    rw [hsame] at hw
    by_cases hwk : w = .close k
    · subst hwk
      have hk := hlocks j _ hw
      rw [locked, hold] at hk
      exact .inr ⟨rfl, hnew.trans hk⟩
    · exact .inl ⟨hwk, hw⟩
  unfold closeSession at h
  split at h
  · rename_i i hstage
    obtain ⟨server, hlock, rfl⟩ := Option.map_eq_some_iff.mp h
    refine locks_setClose k (.abortForwarder i) hlocks rfl rfl fun j w hw => ?_
    obtain ⟨rfl, rfl⟩ | ⟨-, hold⟩ := ObjectServer.lock_writer hlock hw
    · exact .inr ⟨rfl, rfl⟩
    · refine .inl ⟨?_, hold⟩
      rintro rfl
      have hk := hlocks j _ hold
      rw [locked, hstage] at hk
      cases hk
  · rename_i i hstage
    cases h
    have hown := s.abortForwarder_ownStep i
    refine hkeeps (.abortCanceller i) (by rw [hstage]; rfl) rfl ?_ hown.notifies hown.writer
    simp [setClose, hown.closes]
  · rename_i i hstage
    cases h
    have hown := s.abortCanceller_ownStep i
    refine hkeeps (.store i) (by rw [hstage]; rfl) rfl ?_ hown.notifies hown.writer
    simp [setClose, hown.closes]
  · rename_i i hstage
    cases h
    have hwriter := s.server.onObject_writer (i := i)
      (f := fun c => { c with emitClosedSignal := false }) rfl
    exact hkeeps _ (by rw [hstage]; rfl) rfl rfl rfl hwriter
  · rename_i i stage hstage
    obtain ⟨⟨o, next⟩, hstep, rfl⟩ := Option.map_eq_some_iff.mp h
    have hsame := (ObjectServer.shutdown_cases hstep).writer
    cases next with
    | none =>
      refine locks_setClose k (.returned i) hlocks rfl rfl fun j w hw => ?_
      obtain ⟨hj, hold⟩ := ObjectServer.unlock_writer hw
      have holds : (s.server.objects j).writer = some w := (hsame j).symm.trans hold
      refine .inl ⟨?_, holds⟩
      rintro rfl
      have hk := hlocks j _ holds
      rw [locked, hstage] at hk
      exact hj (Option.some.inj hk).symm
    | some stage' => exact hkeeps _ (by rw [hstage]; rfl) rfl rfl rfl hsame
  · cases h

theorem locks_step {desktop : String → Option String} {s t : UiService} {l : Label} (hwf : Wf s)
    (hlocks : Locks s) (h : step desktop s l = some t) : Locks t := by
  cases l with
  | createSession call =>
    cases h
    exact fun i w hw => hlocks i w hw
  | create i => exact (createSession_ownStep h).locks hlocks
  | disconnect i =>
    simp only [step] at h
    split at h
    · cases h
    · cases h
      exact (ownStep_onSession id).locks hlocks
  | canceller i => exact (cancelTask_ownStep h).locks hlocks
  | forwarder i ok => exact (forwardUiEvents_ownStep h).locks hlocks
  | gui l => exact (guiStep_ownStep h).locks hlocks
  | notifyStateChanged sessionHandle =>
    cases h
    refine locks_setNotify s.nextNotify (.lookup sessionHandle) hlocks rfl rfl fun i w hw => ?_
    refine .inl ⟨?_, hw⟩
    rintro rfl
    have hk := hlocks i _ hw
    rw [locked, hwf.freshNotify s.nextNotify (Nat.le_refl _)] at hk
    cases hk
  | notify k => exact notifyStateChanged_locks hlocks h
  | close sessionHandle =>
    obtain ⟨i, -, rfl⟩ := Option.map_eq_some_iff.mp h
    refine locks_setClose s.nextClose (.lock i) hlocks rfl rfl fun j w hw => ?_
    refine .inl ⟨?_, hw⟩
    rintro rfl
    have hk := hlocks j _ hw
    rw [locked, hwf.freshClose s.nextClose (Nat.le_refl _)] at hk
    cases hk
  | closing k => exact closeSession_locks hlocks h

/-! ### What is locked is not at its path -/

/-- A call of `close` gets the lock of a session that is registered no more. -/
def ClosesAside (s : UiService) : Label → Prop
  | .closing k =>
    match s.closes k with
    | .lock i => s.server.registry (s.sessions i).sessionHandle ≠ some i
    | _ => True
  | _ => True

instance (s : UiService) (l : Label) : Decidable (s.ClosesAside l) := by
  unfold ClosesAside
  split <;> (try split) <;> infer_instance

/-- A call of `notify_state_changed` shuts down under the lock only what is not registered. -/
def NotifiesAside (s : UiService) : Label → Prop
  | .notify k =>
    match s.notifies k with
    | .onStateChanged sessionHandle i =>
      (s.sessions i).eventLoop.receives = true ∨ s.server.registry sessionHandle ≠ some i
    | _ => True
  | _ => True

instance (s : UiService) (l : Label) : Decidable (s.NotifiesAside l) := by
  unfold NotifiesAside
  split <;> (try split) <;> infer_instance

structure Aside (s : UiService) : Prop where
  notify (k i : Nat) (h : String) (stage : Shutdown) : s.notifies k = .shutdown h i stage →
    s.server.registry h ≠ some i ∧ stage ≠ .get i
  close (k i : Nat) : (s.closes k).locked = some i →
    s.server.registry (s.sessions i).sessionHandle ≠ some i
  closing (k i : Nat) (stage : Shutdown) : s.closes k = .shutdown i stage → stage ≠ .get i

theorem aside_init : Aside init where
  notify _ _ _ _ h := by cases h
  close _ _ h := by cases h
  closing _ _ _ h := by cases h

/- What has been registered once and is not any more stays so. -/
theorem Effect.unregistered {s t : UiService} {l : Label} (heff : Effect s t l) {i : Nat}
    {h : String} (hcreated : s.created i) (hreg : s.server.registry h ≠ some i) :
    t.server.registry h ≠ some i := by
  cases heff.change with
  | quiet hregistry => rwa [hregistry]
  | registers j _ hstage _ hregistry =>
    rw [hregistry]
    by_cases hh : h = (s.sessions j).sessionHandle
    · subst hh
      rw [Function.update_self]
      intro hji
      cases hji
      rw [created, hstage] at hcreated
      cases hcreated
    · rwa [Function.update_of_ne hh]
  | emits _ _ _ _ _ hregistry => rwa [hregistry]
  | removes _ h' _ _ _ hregistry =>
    rw [hregistry]
    by_cases hh : h = h'
    · rw [hh, Function.update_self]
      exact fun hn => by cases hn
    · rwa [Function.update_of_ne hh]
  | stores _ _ _ _ _ hregistry => rwa [hregistry]

theorem ObjectServer.ShutdownStep.ne_get {o o' : ObjectServer} {h : String}
    {stage stage' : Shutdown} {i : Nat} (hstep : o.ShutdownStep h stage o' (some stage'))
    (hreg : o.registry h ≠ some i) : stage' ≠ .get i := by
  cases hstep with
  | found hfound =>
    rintro ⟨⟩
    exact hreg hfound
  | get => exact fun hn => by cases hn
  | emit => exact fun hn => by cases hn

/- Where a shutdown of `notify_state_changed` comes from. -/
theorem notify_shutdown_cases {s t : UiService} {k : Nat} (h : s.notifyStateChanged k = some t)
    {sessionHandle : String} {i : Nat} {stage : Shutdown}
    (hk : t.notifies k = .shutdown sessionHandle i stage) :
    (s.notifies k = .onStateChanged sessionHandle i ∧
      (s.sessions i).eventLoop.receives = false ∧ stage = .lookup) ∨
    ∃ before o, s.notifies k = .shutdown sessionHandle i before ∧
      s.server.ShutdownStep sessionHandle before o (some stage) := by
  unfold notifyStateChanged at h
  split at h
  · split at h
    · cases h
      simp [setNotify] at hk
    · split at h
      · cases h
        simp [setNotify] at hk
      · cases h
  · obtain ⟨server, -, rfl⟩ := Option.map_eq_some_iff.mp h
    simp [setNotify] at hk
  · rename_i hstage
    split at h
    · cases h
      simp [setNotify] at hk
    · rename_i hgone
      cases h
      simp only [setNotify, Function.update_self, NotifyTask.shutdown.injEq] at hk
      obtain ⟨rfl, rfl, rfl⟩ := hk
      exact .inl ⟨hstage, by simpa using hgone, rfl⟩
  · rename_i hstage
    obtain ⟨⟨o, next⟩, hstep, rfl⟩ := Option.map_eq_some_iff.mp h
    cases next with
    | none => simp [setNotify] at hk
    | some stage' =>
      simp only [setNotify, Function.update_self, NotifyTask.shutdown.injEq] at hk
      obtain ⟨rfl, rfl, rfl⟩ := hk
      exact .inr ⟨_, o, hstage, ObjectServer.shutdown_cases hstep⟩
  · cases h

/- How a call of `close` comes to hold a lock, and where its shutdown comes from. -/
theorem close_locked_cases {s t : UiService} {k : Nat} (h : s.closeSession k = some t) {i : Nat}
    (hk : (t.closes k).locked = some i) : s.closes k = .lock i ∨ (s.closes k).locked = some i := by
  have hat : ∀ (task : CloseTask), t.closes k = task → task.locked = some i := by
    rintro task rfl
    exact hk
  unfold closeSession at h
  split at h
  · rename_i j hstage
    obtain ⟨server, -, rfl⟩ := Option.map_eq_some_iff.mp h
    have hj := hat (.abortForwarder j) (by simp [setClose])
    cases hj
    exact .inl hstage
  · rename_i j hstage
    cases h
    have hj := hat (.abortCanceller j) (by simp [setClose])
    cases hj
    exact .inr (by rw [hstage]; rfl)
  · rename_i j hstage
    cases h
    have hj := hat (.store j) (by simp [setClose])
    cases hj
    exact .inr (by rw [hstage]; rfl)
  · rename_i j hstage
    cases h
    have hj := hat (.shutdown j .lookup) (by simp [setClose])
    cases hj
    exact .inr (by rw [hstage]; rfl)
  · rename_i j stage hstage
    obtain ⟨⟨o, next⟩, -, rfl⟩ := Option.map_eq_some_iff.mp h
    cases next with
    | none =>
      have hj := hat (.returned j) (by simp [setClose])
      cases hj
    | some stage' =>
      have hj := hat (.shutdown j stage') (by simp [setClose])
      cases hj
      exact .inr (by rw [hstage]; rfl)
  · cases h

theorem close_shutdown_cases {s t : UiService} {k : Nat} (h : s.closeSession k = some t) {i : Nat}
    {stage : Shutdown} (hk : t.closes k = .shutdown i stage) :
    (s.closes k = .store i ∧ stage = .lookup) ∨
    ∃ before o, s.closes k = .shutdown i before ∧
      s.server.ShutdownStep (s.sessions i).sessionHandle before o (some stage) := by
  unfold closeSession at h
  split at h
  · obtain ⟨server, -, rfl⟩ := Option.map_eq_some_iff.mp h
    simp [setClose] at hk
  · cases h
    simp [setClose] at hk
  · cases h
    simp [setClose] at hk
  · rename_i j hstage
    cases h
    simp only [setClose, Function.update_self, CloseTask.shutdown.injEq] at hk
    obtain ⟨rfl, rfl⟩ := hk
    exact .inl ⟨hstage, rfl⟩
  · rename_i j before hstage
    obtain ⟨⟨o, next⟩, hstep, rfl⟩ := Option.map_eq_some_iff.mp h
    cases next with
    | none => simp [setClose] at hk
    | some stage' =>
      simp only [setClose, Function.update_self, CloseTask.shutdown.injEq] at hk
      obtain ⟨rfl, rfl⟩ := hk
      exact .inr ⟨before, o, hstage, ObjectServer.shutdown_cases hstep⟩
  · cases h

theorem close_aside_step {desktop : String → Option String} {s t : UiService} {l : Label}
    (hwf : Wf s) (hclose : ∀ k i, (s.closes k).locked = some i →
      s.server.registry (s.sessions i).sessionHandle ≠ some i)
    (hl : s.ClosesAside l) (h : step desktop s l = some t) :
    ∀ k i, (t.closes k).locked = some i →
      t.server.registry (t.sessions i).sessionHandle ≠ some i := by
  have heff := step_effect hwf h
  intro k i hk
  have hkept : s.server.registry (s.sessions i).sessionHandle ≠ some i →
      (s.closes k).target = some i →
      t.server.registry (t.sessions i).sessionHandle ≠ some i := by
    intro hreg htarget
    have hcreated := hwf.close k i htarget
    rw [heff.handles i hcreated]
    exact heff.unregistered hcreated hreg
  obtain hsame | ⟨rfl, hstep⟩ | ⟨-, _, hlock⟩ := closes_cases h k
  · rw [hsame] at hk
    exact hkept (hclose k i hk) (CloseTask.target_of_locked hk)
  · obtain hbefore | hbefore := close_locked_cases hstep hk
    · simp only [ClosesAside, hbefore] at hl
      exact hkept hl (by rw [hbefore]; rfl)
    · exact hkept (hclose k i hbefore) (CloseTask.target_of_locked hbefore)
  · rw [hlock] at hk
    cases hk

theorem aside_step {desktop : String → Option String} {s t : UiService} {l : Label} (hwf : Wf s)
    (haside : Aside s) (hl : s.ClosesAside l ∧ s.NotifiesAside l)
    (h : step desktop s l = some t) : Aside t := by
  have heff := step_effect hwf h
  constructor
  · intro k i sessionHandle stage hk
    -- what was aside before stays aside
    have hkept : s.server.registry sessionHandle ≠ some i → (s.notifies k).target = some i →
        t.server.registry sessionHandle ≠ some i :=
      fun hreg htarget => heff.unregistered (hwf.notify k i htarget) hreg
    obtain hsame | ⟨rfl, hstep⟩ | ⟨_, hlookup⟩ := notifies_cases h k
    · rw [hsame] at hk
      obtain ⟨hreg, hstage⟩ := haside.notify k i sessionHandle stage hk
      exact ⟨hkept hreg (by rw [hk]; rfl), hstage⟩
    · obtain ⟨hbefore, hreceives, rfl⟩ | ⟨before, o, hbefore, hshutdown⟩ :=
        notify_shutdown_cases hstep hk
      · have haway := hl.2
        simp only [NotifiesAside, hbefore, hreceives, Bool.false_eq_true, false_or] at haway
        exact ⟨hkept haway (by rw [hbefore]; rfl), fun hn => by cases hn⟩
      · obtain ⟨hreg, -⟩ := haside.notify k i sessionHandle before hbefore
        exact ⟨hkept hreg (by rw [hbefore]; rfl), hshutdown.ne_get hreg⟩
    · rw [hlookup] at hk
      cases hk
  · exact close_aside_step hwf haside.close hl.1 h
  · intro k i stage hk
    obtain hsame | ⟨rfl, hstep⟩ | ⟨-, _, hlock⟩ := closes_cases h k
    · rw [hsame] at hk
      exact haside.closing k i stage hk
    · obtain ⟨-, rfl⟩ | ⟨before, o, hbefore, hshutdown⟩ := close_shutdown_cases hstep hk
      · exact fun hn => by cases hn
      · exact hshutdown.ne_get (haside.close k i (by rw [hbefore]; rfl))
    · rw [hlock] at hk
      cases hk

/-- Under the lock of a session a task does not ask for it, as long as the session is aside. -/
theorem Aside.not_waits {s : UiService} (haside : Aside s) (hlocks : Locks s) (w : Holder)
    (i : Nat) : ¬ s.WaitsForItself w i := by
  rintro ⟨hw, hawaits⟩
  have hlocked := hlocks i w hw
  cases w with
  | notify k =>
    cases hk : s.notifies k with
    | shutdown sessionHandle j stage =>
      simp only [locked, hk, NotifyTask.locked, Option.some.injEq] at hlocked
      subst hlocked
      obtain ⟨hreg, hstage⟩ := haside.notify k j sessionHandle stage hk
      cases stage with
      | lookup =>
        simp only [awaits, hk] at hawaits
        exact hreg hawaits
      | get m =>
        simp only [awaits, hk, Option.some.injEq] at hawaits
        exact hstage (by rw [hawaits])
      | emit m => simp [awaits, hk] at hawaits
      | remove m => simp [awaits, hk] at hawaits
    | onStateChanged => simp [awaits, hk] at hawaits
    | _ => simp [locked, hk, NotifyTask.locked] at hlocked
  | close k =>
    have hreg := haside.close k i hlocked
    cases hk : s.closes k with
    | shutdown j stage =>
      simp only [locked, hk, CloseTask.locked, Option.some.injEq] at hlocked
      subst hlocked
      cases stage with
      | lookup =>
        simp only [awaits, hk] at hawaits
        exact hreg hawaits
      | get m =>
        simp only [awaits, hk, Option.some.injEq] at hawaits
        exact haside.closing k j _ hk (by rw [hawaits])
      | emit m => simp [awaits, hk] at hawaits
      | remove m => simp [awaits, hk] at hawaits
    | lock j => simp [locked, hk, CloseTask.locked] at hlocked
    | _ => simp [awaits, hk] at hawaits

/-- As long as no task that holds the lock of a session comes to look for a session that is at its
path, no task waits for a lock that it holds itself. -/
theorem no_task_waits_for_itself (desktop : String → Option String) (ls : List Label)
    (s : UiService)
    (haside : Machine.Along (step desktop) (fun s l _ => s.ClosesAside l ∧ s.NotifiesAside l)
      init ls)
    (hrun : Machine.exec (step desktop) init ls = some s) (w : Holder) (i : Nat) :
    ¬ s.WaitsForItself w i := by
  have hinv : Wf s ∧ Locks s ∧ Aside s := by
    refine Machine.exec_invariant (I := fun s => Wf s ∧ Locks s ∧ Aside s) ?_
      ⟨wf_init, locks_init, aside_init⟩ haside hrun
    rintro s l t ⟨hwf, hlocks, has⟩ hl hstep
    exact ⟨wf_step hwf hstep, locks_step hwf hlocks hstep, aside_step hwf has hl hstep⟩
  exact hinv.2.2.not_waits hinv.2.1 w i

/- A desktop with one application, and a call of `create_session` for it. -/
def oneApp (desktopId : String) : Option String :=
  if desktopId = "app.desktop" then some "App" else none

def sampleCall (sessionHandle : String) : CreateSession where
  sender := some ":1.7"
  args := ⟨sessionHandle, none, "https://example.com", .publicKeyGet, [], "app", 77,
    ⟨none, none, some "example.com"⟩⟩
  watchError := none

/- The session `i` is registered, and its window is open. -/
def openSession (i : Nat) (sessionHandle : String) : List Label :=
  [.createSession (sampleCall sessionHandle), .create i, .create i, .create i, .create i,
    .gui .take]

/-- A notification gets through, the user cancels, and the forwarder shuts the session down. -/
theorem no_task_waits_for_itself_cancelled :
    ∃ s, Machine.exec (step oneApp) init (openSession 0 "/session/1" ++
        [.notifyStateChanged "/session/1", .notify 0, .notify 0, .notify 0, .gui (.leave 0),
          .gui (.finish 0), .forwarder 0 true, .forwarder 0 true, .forwarder 0 true,
          .forwarder 0 true, .forwarder 0 true]) = some s ∧
      s.notifies 0 = .returned (.ok ()) ∧ s.server.registry "/session/1" = none ∧
      ¬ s.WaitsForItself (.notify 0) 0 := by
  refine ⟨_, rfl, rfl, rfl, no_task_waits_for_itself oneApp (openSession 0 "/session/1" ++
    [.notifyStateChanged "/session/1", .notify 0, .notify 0, .notify 0, .gui (.leave 0),
      .gui (.finish 0), .forwarder 0 true, .forwarder 0 true, .forwarder 0 true,
      .forwarder 0 true, .forwarder 0 true]) _ ?_ rfl (.notify 0) 0⟩
  decide

/-- `close` holds the lock of its session and asks for it, and so does `notify_state_changed` when
the window is gone. -/
theorem calls_wait_for_themselves :
    (∃ s, Machine.exec (step oneApp) init (openSession 0 "/session/1" ++
        [.close "/session/1", .closing 0, .closing 0, .closing 0, .closing 0]) = some s ∧
      s.WaitsForItself (.close 0) 0 ∧ step oneApp s (.closing 0) = none) ∧
    ∃ s, Machine.exec (step oneApp) init (openSession 0 "/session/1" ++
        [.notifyStateChanged "/session/1", .notify 0, .notify 0, .gui (.leave 0), .notify 0]) =
        some s ∧
      s.WaitsForItself (.notify 0) 0 ∧ step oneApp s (.notify 0) = none :=
  ⟨⟨_, rfl, ⟨rfl, rfl⟩, rfl⟩, ⟨_, rfl, ⟨rfl, rfl⟩, rfl⟩⟩

/-! ### Otherwise it waits -/

/- A call of `close` that has the lock comes to its shutdown, and finds the path as it was. -/
theorem close_comes_to_shutdown {desktop : String → Option String} {s t : UiService} {k i : Nat}
    (hclose : s.closes k = .lock i) (h : step desktop s (.closing k) = some t) :
    ∃ u, Machine.exec (step desktop) t [.closing k, .closing k, .closing k] = some u ∧
      u.closes k = .shutdown i .lookup ∧ (u.server.objects i).writer = some (.close k) ∧
      u.server.registry = s.server.registry ∧
      (u.sessions i).sessionHandle = (s.sessions i).sessionHandle := by
  simp only [step, closeSession, hclose] at h
  obtain ⟨server, hlock, rfl⟩ := Option.map_eq_some_iff.mp h
  -- the state at which each of the three steps arrives
  let a : UiService := { s.setClose k (.abortForwarder i) with server }
  let b : UiService := (a.abortForwarder i).setClose k (.abortCanceller i)
  let c : UiService := (b.abortCanceller i).setClose k (.store i)
  let u : UiService := { c.setClose k (.shutdown i .lookup) with
    server := c.server.onObject i fun o => { o with emitClosedSignal := false } }
  have hab : step desktop a (.closing k) = some b := by
    simp [step, closeSession, a, b, setClose]
  have hbc : step desktop b (.closing k) = some c := by
    simp [step, closeSession, b, c, setClose]
  have hcu : step desktop c (.closing k) = some u := by
    simp [step, closeSession, c, u, setClose]
  refine ⟨u, ?_, by simp [u, setClose], ?_, ?_, ?_⟩
  · exact Machine.exec_cons_some.mpr ⟨b, hab, Machine.exec_cons_some.mpr
      ⟨c, hbc, Machine.exec_single hcu⟩⟩
  · have hlast : (u.server.objects i).writer = (c.server.objects i).writer :=
      c.server.onObject_writer (i := i) (f := fun o => { o with emitClosedSignal := false }) rfl i
    calc (u.server.objects i).writer
        = (c.server.objects i).writer := hlast
      _ = (b.server.objects i).writer := (b.abortCanceller_ownStep i).writer i
      _ = (a.server.objects i).writer := (a.abortForwarder_ownStep i).writer i
      _ = some (.close k) := by
        obtain ⟨-, -, hserver⟩ := ObjectServer.lock_some hlock
        simp [a, hserver]
  · obtain ⟨-, -, -, hcanceller, -⟩ := b.abortCanceller_some i
    obtain ⟨-, -, -, hforwarder, -⟩ := a.abortForwarder_some i
    exact hcanceller.trans (hforwarder.trans (ObjectServer.lock_registry hlock))
  · obtain ⟨hcanceller, -⟩ := b.abortCanceller_some i
    obtain ⟨hforwarder, -⟩ := a.abortForwarder_some i
    exact (hcanceller i).handle.trans (hforwarder i).handle

/-- A call of `close` that gets the lock of a session at its path has come to wait for itself three
steps later, unless somebody else comes in between. -/
theorem close_waits {desktop : String → Option String} {s t : UiService} {k i : Nat}
    (hclose : s.closes k = .lock i)
    (hreg : s.server.registry (s.sessions i).sessionHandle = some i)
    (h : step desktop s (.closing k) = some t) :
    ∃ u, Machine.exec (step desktop) t [.closing k, .closing k, .closing k] = some u ∧
      u.WaitsForItself (.close k) i := by
  obtain ⟨u, hrun, hstage, hwriter, hregistry, hhandle⟩ := close_comes_to_shutdown hclose h
  refine ⟨u, hrun, hwriter, ?_⟩
  simp only [awaits, hstage, hregistry, hhandle, hreg]

/-- So has a call of `notify_state_changed` that has the lock and finds the window gone. -/
theorem notify_waits {desktop : String → Option String} {s t : UiService} {k i : Nat} {h : String}
    (hwriter : (s.server.objects i).writer = some (.notify k))
    (hnotify : s.notifies k = .onStateChanged h i)
    (hgone : (s.sessions i).eventLoop.receives = false) (hreg : s.server.registry h = some i)
    (hstep : step desktop s (.notify k) = some t) : t.WaitsForItself (.notify k) i := by
  simp only [step, notifyStateChanged, hnotify, hgone, Bool.false_eq_true, if_false] at hstep
  cases hstep
  refine ⟨hwriter, ?_⟩
  simp [awaits, setNotify, hreg]

end UiService

end Credentialsd
