import Credentialsd.UiLocks

/-!
# `Closed` is emitted once

Whoever shuts a session down takes the flag of the session with it, so that the signal is
emitted at most once. That it is emitted at all depends on the cancel task: it has to find
the session at its path.
-/

namespace Credentialsd

namespace UiService

/-! ### At most once -/

@[simp] theorem CeremonySession.emitClosed_emit (c : CeremonySession) :
    c.emitClosed.emitClosedSignal = false := by
  unfold emitClosed
  split
  · rfl
  · rename_i h
    simpa using h

theorem CeremonySession.emitClosed_count (c : CeremonySession) :
    c.emitClosed.closedSignals = c.closedSignals + if c.emitClosedSignal then 1 else 0 := by
  unfold emitClosed
  split <;> simp_all

/-- A session whose flag is set has not emitted its signal, and one whose flag is not set has
done so, or its client asked for it to be closed. -/
structure Once (s : UiService) : Prop where
  pending (i : Nat) : (s.server.objects i).emitClosedSignal = true →
    (s.server.objects i).closedSignals = 0
  spent (i : Nat) : (s.server.objects i).emitClosedSignal = false →
    (s.server.objects i).closedSignals = 1 ∨
      ((s.server.objects i).closedSignals = 0 ∧ ∃ k, (s.closes k).target = some i)

theorem Once.le_one {s : UiService} (h : Once s) (i : Nat) :
    (s.server.objects i).closedSignals ≤ 1 := by
  cases hflag : (s.server.objects i).emitClosedSignal with
  | true =>
    have hzero := h.pending i hflag
    omega
  | false =>
    obtain hone | ⟨hzero, -⟩ := h.spent i hflag
    · omega
    · omega

theorem once_init : Once init where
  pending _ _ := rfl
  spent _ h := by cases h

/- A call of `close` stays the one for its session. -/
theorem closeSession_target {s t : UiService} {k : Nat} (h : s.closeSession k = some t) :
    (t.closes k).target = (s.closes k).target := by
  unfold closeSession at h
  split at h
  · rename_i i hstage
    obtain ⟨server, -, rfl⟩ := Option.map_eq_some_iff.mp h
    simp [setClose, hstage, CloseTask.target]
  · rename_i i hstage
    cases h
    simp [setClose, hstage, CloseTask.target]
  · rename_i i hstage
    cases h
    simp [setClose, hstage, CloseTask.target]
  · rename_i i hstage
    cases h
    simp [setClose, hstage, CloseTask.target]
  · rename_i i stage hstage
    obtain ⟨⟨o, next⟩, -, rfl⟩ := Option.map_eq_some_iff.mp h
    cases next <;> simp [setClose, hstage, CloseTask.target]
  · cases h

theorem target_step {desktop : String → Option String} {s t : UiService} {l : Label} (hwf : Wf s)
    (h : step desktop s l = some t) {k i : Nat} (hk : (s.closes k).target = some i) :
    (t.closes k).target = some i := by
  obtain hsame | ⟨-, hstep⟩ | ⟨hnext, -⟩ := closes_cases h k
  · rwa [hsame]
  · rwa [closeSession_target hstep]
  · rw [hwf.freshClose k (Nat.le_of_eq hnext.symm)] at hk
    cases hk

/- The flag of a session is not set again. -/
theorem Effect.emit_false {s t : UiService} {l : Label} (heff : Effect s t l) {i : Nat}
    (h : (s.server.objects i).emitClosedSignal = false) :
    (t.server.objects i).emitClosedSignal = false := by
  cases heff.change with
  | quiet _ hsignals => rwa [hsignals.emit]
  | registers _ _ _ _ _ hsignals => rwa [hsignals.emit]
  | emits _ _ j _ _ _ hsignals =>
    rw [hsignals.emit]
    by_cases hij : i = j
    · subst hij
      rw [ObjectServer.onObject_self, CeremonySession.emitClosed_emit]
    · rwa [ObjectServer.onObject_ne _ _ hij]
  | removes _ _ _ _ _ _ hsignals => rwa [hsignals.emit]
  | stores _ j _ _ _ _ hsignals =>
    rw [hsignals.emit]
    by_cases hij : i = j
    · subst hij
      rw [ObjectServer.onObject_self]
    · rwa [ObjectServer.onObject_ne _ _ hij]

/- The signal is taken together with the flag, and given up together with it. -/
theorem signals_cases {desktop : String → Option String} {s t : UiService} {l : Label}
    (hwf : Wf s) (h : step desktop s l = some t) (i : Nat) :
    ((t.server.objects i).emitClosedSignal = (s.server.objects i).emitClosedSignal ∧
      (t.server.objects i).closedSignals = (s.server.objects i).closedSignals) ∨
    ((t.server.objects i).emitClosedSignal = false ∧
      (s.server.objects i).emitClosedSignal = true ∧
      (t.server.objects i).closedSignals = (s.server.objects i).closedSignals + 1) ∨
    ((t.server.objects i).emitClosedSignal = false ∧
      (t.server.objects i).closedSignals = (s.server.objects i).closedSignals ∧
      ∃ k, (t.closes k).target = some i) := by
  have heff := step_effect hwf h
  cases heff.change with
  | quiet _ hsignals => exact .inl ⟨hsignals.emit i, hsignals.count i⟩
  | registers _ _ _ _ _ hsignals => exact .inl ⟨hsignals.emit i, hsignals.count i⟩
  | emits _ _ j _ _ _ hsignals =>
    by_cases hij : i = j
    · subst hij
      rw [hsignals.emit, hsignals.count, ObjectServer.onObject_self,
        CeremonySession.emitClosed_emit, CeremonySession.emitClosed_count]
      cases (s.server.objects i).emitClosedSignal with
      | true => exact .inr (.inl ⟨rfl, rfl, rfl⟩)
      | false => exact .inl ⟨rfl, rfl⟩
    · rw [hsignals.emit, hsignals.count, ObjectServer.onObject_ne _ _ hij]
      exact .inl ⟨rfl, rfl⟩
  | removes _ _ _ _ _ _ hsignals => exact .inl ⟨hsignals.emit i, hsignals.count i⟩
  | stores k j _ hstage hnext _ hsignals =>
    by_cases hij : i = j
    · subst hij
      rw [hsignals.emit, hsignals.count, ObjectServer.onObject_self]
      exact .inr (.inr ⟨rfl, rfl, k, by rw [hnext]; rfl⟩)
    · rw [hsignals.emit, hsignals.count, ObjectServer.onObject_ne _ _ hij]
      exact .inl ⟨rfl, rfl⟩

theorem once_step {desktop : String → Option String} {s t : UiService} {l : Label} (hwf : Wf s)
    (honce : Once s) (h : step desktop s l = some t) : Once t := by
  constructor
  · intro i hflag
    obtain ⟨hemit, hcount⟩ | ⟨hemit, -⟩ | ⟨hemit, -⟩ := signals_cases hwf h i
    · rw [hcount]
      exact honce.pending i (hemit.symm.trans hflag)
    · rw [hemit] at hflag
      cases hflag
    · rw [hemit] at hflag
      cases hflag
  · intro i hflag
    obtain ⟨hemit, hcount⟩ | ⟨-, hset, hcount⟩ | ⟨-, hcount, hclose⟩ := signals_cases hwf h i
    · rw [hcount]
      obtain hone | ⟨hzero, k, hk⟩ := honce.spent i (hemit.symm.trans hflag)
      · exact .inl hone
      · exact .inr ⟨hzero, k, target_step hwf h hk⟩
    · rw [hcount, honce.pending i hset]
      exact .inl rfl
    · rw [hcount]
      cases hbefore : (s.server.objects i).emitClosedSignal with
      | true => exact .inr ⟨honce.pending i hbefore, hclose⟩
      | false =>
        obtain hone | ⟨hzero, -⟩ := honce.spent i hbefore
        · exact .inl hone
        · exact .inr ⟨hzero, hclose⟩

/-! ### The cancel task comes to the session -/

def CancelTask.beforeLookup : CancelTask → Bool
  | .waiting => true
  | .cancelling => true
  | .shutdown .lookup => true
  | _ => false

def CancelTask.ended : CancelTask → Bool
  | .finished => true
  | .aborted => true
  | _ => false

/- The task has still to shut the session down. -/
def CancelTask.comesTo (i : Nat) : CancelTask → Prop
  | .waiting => True
  | .cancelling => True
  | .shutdown .lookup => True
  | .shutdown (.get j) => j = i
  | .shutdown (.emit j) => j = i
  | .shutdown (.remove j) => j = i
  | _ => False

theorem CancelTask.comesTo_of_beforeLookup {task : CancelTask} {i : Nat}
    (h : task.beforeLookup = true) : task.comesTo i := by
  cases task with
  | waiting => trivial
  | cancelling => trivial
  | shutdown stage =>
    cases stage with
    | lookup => trivial
    | _ => cases h
  | _ => cases h

theorem CancelTask.not_ended_of_comesTo {task : CancelTask} {i : Nat} (h : task.comesTo i) :
    task.ended = false := by
  cases task with
  | finished => cases h
  | aborted => cases h
  | _ => rfl

/-- The cancel task of a call that registers its session has not looked for the session. -/
def RegistersInTime (s : UiService) : Label → Prop
  | .create i => (s.sessions i).create = .registering →
      s.server.registry (s.sessions i).sessionHandle = none →
      (s.sessions i).canceller.beforeLookup = true
  | _ => True

instance (s : UiService) (l : Label) : Decidable (s.RegistersInTime l) := by
  unfold RegistersInTime
  split <;> infer_instance

/-- Whoever removes what is at a path has found the same session there before. -/
def RemovesOwn (s : UiService) (l : Label) : Prop :=
  match l.runner.bind s.shuttingDown with
  | some (sessionHandle, .remove i) =>
    s.server.registry sessionHandle = none ∨ s.server.registry sessionHandle = some i
  | _ => True

instance (s : UiService) (l : Label) : Decidable (s.RemovesOwn l) := by
  unfold RemovesOwn
  split <;> infer_instance

def InTime (s : UiService) (l : Label) : Prop :=
  s.RegistersInTime l ∧ s.RemovesOwn l ∧ s.ClosesAside l

instance (s : UiService) (l : Label) : Decidable (s.InTime l) := by
  unfold InTime
  infer_instance

/-- A session at its path has its cancel task before it, and a session that has left its path has
lost its flag. -/
structure Live (s : UiService) : Prop where
  comes (i : Nat) : s.created i → s.server.registry (s.sessions i).sessionHandle = some i →
    (s.sessions i).canceller.comesTo i
  removing (r : Runner) (h : String) (i : Nat) : s.shuttingDown r = some (h, .remove i) →
    (s.server.objects i).emitClosedSignal = false
  gone (i : Nat) : s.created i → s.server.registry (s.sessions i).sessionHandle ≠ some i →
    (s.server.objects i).emitClosedSignal = false
  aside (k i : Nat) : (s.closes k).locked = some i →
    s.server.registry (s.sessions i).sessionHandle ≠ some i

theorem live_init : Live init where
  comes _ h := by cases h
  removing r _ _ h := by cases r <;> cases h
  gone _ h := by cases h
  aside _ _ h := by cases h

/- A session is created by the step that registers it. -/
theorem created_cases {desktop : String → Option String} {s t : UiService} {l : Label} {i : Nat}
    (hwf : Wf s) (h : step desktop s l = some t) (hcreated : t.created i) :
    s.created i ∨ (l = .create i ∧ (s.sessions i).create = .registering ∧
      s.server.registry (s.sessions i).sessionHandle = none ∧
      t.server.registry (t.sessions i).sessionHandle = some i ∧
      (t.sessions i).canceller = (s.sessions i).canceller) := by
  have heff := step_effect hwf h
  cases heff.change with
  | quiet _ _ _ hc => exact .inl ((hc i).mp hcreated)
  | registers j hlabel hstage hfree hregistry _ _ hhandle hc =>
    obtain rfl | hold := (hc i).mp hcreated
    · refine .inr ⟨hlabel, hstage, hfree, ?_, ?_⟩
      · rw [hregistry, hhandle, Function.update_self]
      · subst hlabel
        simp only [step, createSession, hstage, register, hfree] at h
        cases h
        simp
    · exact .inl hold
  | emits _ _ _ _ _ _ _ _ _ hc => exact .inl ((hc i).mp hcreated)
  | removes _ _ _ _ _ _ _ _ _ hc => exact .inl ((hc i).mp hcreated)
  | stores _ _ _ _ _ _ _ _ hc => exact .inl ((hc i).mp hcreated)

/- The cancel task goes on to the session that is at its path. -/
theorem cancelTask_comes {s t : UiService} {i : Nat} (h : s.cancelTask i = some t)
    (hreg : s.server.registry (s.sessions i).sessionHandle = some i)
    (hreg' : t.server.registry (t.sessions i).sessionHandle = some i)
    (hcomes : (s.sessions i).canceller.comesTo i) : (t.sessions i).canceller.comesTo i := by
  obtain ⟨-, -, rfl⟩ | ⟨-, rfl⟩ | ⟨stage, o, next, hstage, hshutdown, rfl⟩ := cancelTask_cases h
  · simp [CancelTask.comesTo]
  · simp [CancelTask.comesTo]
  · rw [hstage] at hcomes
    cases hshutdown with
    | missing hnone =>
      rw [hnone] at hreg
      cases hreg
    | found hfound =>
      rw [hreg] at hfound
      cases hfound
      simp [CancelTask.comesTo]
    | get => simpa [CancelTask.comesTo] using hcomes
    | emit => simpa [CancelTask.comesTo] using hcomes
    | remove => simp at hreg'

theorem comes_step {desktop : String → Option String} {s t : UiService} {l : Label} (hwf : Wf s)
    (hlive : Live s) (hl : s.RegistersInTime l) (h : step desktop s l = some t) {i : Nat}
    (hcreated : t.created i) (hreg : t.server.registry (t.sessions i).sessionHandle = some i) :
    (t.sessions i).canceller.comesTo i := by
  have heff := step_effect hwf h
  obtain hold | ⟨rfl, hstage, hfree, -, hcanceller⟩ := created_cases hwf h hcreated
  · have hregs : s.server.registry (s.sessions i).sessionHandle = some i := by
      by_contra hne
      have hne' := heff.unregistered hold hne
      rw [← heff.handles i hold] at hne'
      exact hne' hreg
    have hcomes := hlive.comes i hold hregs
    cases session_step h i with
    | same hsame => rwa [hsame]
    | arrives _ _ hnext =>
      have hlt := hwf.created_lt hold
      omega
    | create hlabel hstep =>
      rw [created] at hold
      simp [createSession, hold] at hstep
    | disconnect _ hsame => rwa [hsame]
    | canceller _ hstep => exact cancelTask_comes hstep hregs hreg hcomes
    | forwarder ok _ hstep =>
      obtain ⟨-, _, _, -, rfl⟩ | ⟨_, _, _, -, -, rfl⟩ | ⟨-, rfl⟩ := forwardUiEvents_cases hstep
      · simpa using hcomes
      · simpa using hcomes
      · simpa using hcomes
    | gui _ _ _ hmoves => rwa [hmoves.canceller]
    | abortsForwarder _ _ _ _ hsame => rwa [hsame]
    | abortsCanceller k _ hk =>
      exact absurd hregs (hlive.aside k i (by rw [hk]; rfl))
  · rw [hcanceller]
    exact CancelTask.comesTo_of_beforeLookup (hl hstage hfree)

theorem removing_step {s t : UiService} {l : Label} (hlive : Live s) (heff : Effect s t l)
    {r : Runner} {h : String} {i : Nat} (hr : t.shuttingDown r = some (h, .remove i)) :
    (t.server.objects i).emitClosedSignal = false := by
  have hbefore : s.shuttingDown r = some (h, .remove i) →
      (t.server.objects i).emitClosedSignal = false :=
    fun hs => heff.emit_false (hlive.removing r h i hs)
  cases heff.change with
  | quiet _ _ htasks => exact hbefore (hr ▸ htasks r).removing
  | registers _ _ _ _ _ _ htasks => exact hbefore (by rw [← htasks r, hr])
  | emits r' h' j _ _ _ hsignals hnext hothers =>
    by_cases hrr : r = r'
    · rw [hrr, hnext] at hr
      cases hr
      rw [hsignals.emit, ObjectServer.onObject_self, CeremonySession.emitClosed_emit]
    · exact hbefore (by rw [← hothers r hrr, hr])
  | removes r' _ _ _ _ _ _ hnext hothers =>
    by_cases hrr : r = r'
    · rw [hrr, hnext] at hr
      cases hr
    · exact hbefore (by rw [← hothers r hrr, hr])
  | stores _ _ _ _ _ _ _ htasks => exact hbefore (hr ▸ htasks r).removing

theorem gone_step {desktop : String → Option String} {s t : UiService} {l : Label} (hwf : Wf s)
    (hlive : Live s) (hl : s.RemovesOwn l) (h : step desktop s l = some t) {i : Nat}
    (hcreated : t.created i) (hreg : t.server.registry (t.sessions i).sessionHandle ≠ some i) :
    (t.server.objects i).emitClosedSignal = false := by
  have heff := step_effect hwf h
  obtain hold | ⟨-, -, -, hregistered, -⟩ := created_cases hwf h hcreated
  · rw [heff.handles i hold] at hreg
    by_cases hregs : s.server.registry (s.sessions i).sessionHandle = some i
    · -- it has left its path in this step
      cases heff.change with
      | quiet hregistry =>
        rw [hregistry] at hreg
        exact absurd hregs hreg
      | registers j _ _ hfree hregistry =>
        have hne : (s.sessions i).sessionHandle ≠ (s.sessions j).sessionHandle := by
          intro heq
          rw [heq, hfree] at hregs
          cases hregs
        rw [hregistry, Function.update_of_ne hne] at hreg
        exact absurd hregs hreg
      | emits _ _ _ _ _ hregistry =>
        rw [hregistry] at hreg
        exact absurd hregs hreg
      | removes r h' j hlabel hstage hregistry hsignals =>
        by_cases heq : (s.sessions i).sessionHandle = h'
        · have hown : s.server.registry h' = none ∨ s.server.registry h' = some j := by
            simpa [RemovesOwn, hlabel, hstage] using hl
          rw [← heq, hregs] at hown
          obtain hnone | hsame := hown
          · cases hnone
          · cases hsame
            rw [hsignals.emit]
            exact hlive.removing r h' i hstage
        · rw [hregistry, Function.update_of_ne heq] at hreg
          exact absurd hregs hreg
      | stores _ _ _ _ _ hregistry =>
        rw [hregistry] at hreg
        exact absurd hregs hreg
    · exact heff.emit_false (hlive.gone i hold hregs)
  · exact absurd hregistered hreg

theorem live_step {desktop : String → Option String} {s t : UiService} {l : Label} (hwf : Wf s)
    (hlive : Live s) (hl : s.InTime l) (h : step desktop s l = some t) : Live t where
  comes _ hcreated hreg := comes_step hwf hlive hl.1 h hcreated hreg
  removing _ _ _ hr := removing_step hlive (step_effect hwf h) hr
  gone _ hcreated hreg := gone_step hwf hlive hl.2.1 h hcreated hreg
  aside := close_aside_step hwf hlive.aside hl.2.2 h

/-! ### Exactly once -/

theorem once_of_run {desktop : String → Option String} {ls : List Label} {s : UiService}
    (hrun : Machine.exec (step desktop) init ls = some s) : Wf s ∧ Once s := by
  refine Machine.reaches_invariant (I := fun s => Wf s ∧ Once s) ?_ ⟨wf_init, once_init⟩ ⟨ls, hrun⟩
  rintro s l t ⟨hwf, honce⟩ hstep
  exact ⟨wf_step hwf hstep, once_step hwf honce hstep⟩

theorem live_of_run {desktop : String → Option String} {ls : List Label} {s : UiService}
    (htime : Machine.Along (step desktop) (fun s l _ => s.InTime l) init ls)
    (hrun : Machine.exec (step desktop) init ls = some s) : Live s := by
  have hinv : Wf s ∧ Live s := by
    refine Machine.exec_invariant (I := fun s => Wf s ∧ Live s) ?_ ⟨wf_init, live_init⟩ htime hrun
    rintro s l t ⟨hwf, hlive⟩ hl hstep
    exact ⟨wf_step hwf hstep, live_step hwf hlive hl hstep⟩
  exact hinv.2

/-- No session emits `Closed` twice. In a run in which every session is registered before its
cancel task looks for it, only the session that was found is removed, and `close` comes too late for
a session at its path, a session whose cancel task has ended is not registered and has emitted
`Closed`, unless its client has called `close`. -/
theorem closed_once (desktop : String → Option String) (ls : List Label) (s : UiService)
    (hrun : Machine.exec (step desktop) init ls = some s) :
    (∀ i, (s.server.objects i).closedSignals ≤ 1) ∧
    (Machine.Along (step desktop) (fun s l _ => s.InTime l) init ls →
      ∀ i, s.created i → (s.sessions i).canceller.ended = true →
        (∀ h, s.server.registry h ≠ some i) ∧
        ((∀ k, (s.closes k).target ≠ some i) → (s.server.objects i).closedSignals = 1)) := by
  obtain ⟨hwf, honce⟩ := once_of_run hrun
  refine ⟨honce.le_one, ?_⟩
  intro htime i hcreated hended
  have hlive := live_of_run htime hrun
  have haway : s.server.registry (s.sessions i).sessionHandle ≠ some i := by
    intro hreg
    have hcomes := CancelTask.not_ended_of_comesTo (hlive.comes i hcreated hreg)
    rw [hended] at hcomes
    cases hcomes
  constructor
  · intro sessionHandle hreg
    obtain ⟨-, hhandle⟩ := hwf.registered sessionHandle i hreg
    rw [← hhandle] at hreg
    exact haway hreg
  · intro hclose
    obtain hone | ⟨-, k, hk⟩ := honce.spent i (hlive.gone i hcreated haway)
    · exact hone
    · exact absurd hk (hclose k)

/- The client leaves the bus, and the cancel task shuts the session down. -/
def leaveBus (i : Nat) : List Label :=
  [.disconnect i, .canceller i, .canceller i, .canceller i, .canceller i, .canceller i,
    .canceller i]

theorem closed_once_disconnected :
    ∃ s, Machine.exec (step oneApp) init (openSession 0 "/session/1" ++ leaveBus 0) = some s ∧
      s.created 0 ∧ (s.server.objects 0).closedSignals ≤ 1 ∧
      (s.server.objects 0).closedSignals = 1 := by
  refine ⟨_, rfl, rfl, (closed_once oneApp (openSession 0 "/session/1" ++ leaveBus 0) _ rfl).1 0,
    ?_⟩
  refine ((closed_once oneApp (openSession 0 "/session/1" ++ leaveBus 0) _ rfl).2 ?_ 0 rfl
    rfl).2 fun k hk => by cases hk
  decide

/-- The window is closed before `create_session` has registered the session. Everything that would
shut the session down has ended when it is registered, and `Closed` is not emitted. -/
theorem closed_never :
    ∃ s, Machine.exec (step oneApp) init ([.createSession (sampleCall "/session/1"), .create 0,
        .create 0, .create 0, .gui .take, .gui (.leave 0), .gui (.finish 0), .forwarder 0 true,
        .forwarder 0 true, .forwarder 0 true, .forwarder 0 true, .canceller 0, .canceller 0,
        .canceller 0, .create 0]) = some s ∧
      s.created 0 ∧ (s.sessions 0).forwarder = .finished ∧
      (s.sessions 0).canceller = .finished ∧ (∀ k, s.closes k = .absent) ∧
      s.server.registry "/session/1" = some 0 ∧ (s.server.objects 0).closedSignals = 0 :=
  ⟨_, rfl, rfl, rfl, rfl, fun _ => rfl, rfl, rfl⟩

end UiService

end Credentialsd
