import Credentialsd.UiSteps

/-!
# Tasks refer to sessions that were registered

What is registered has been created and is at its own path, and whoever shuts a session
down, notifies it or closes it found it there.
-/

namespace Credentialsd

namespace UiService

theorem Progress.refs {o : ObjectServer} {x : Option (String × Shutdown)} {h : String}
    {stage : Shutdown} {i : Nat} (hp : Progress o x (some (h, stage))) (hi : i ∈ stage.refs) :
    (∃ before, x = some (h, before) ∧ i ∈ before.refs) ∨ o.registry h = some i := by
  cases hp with
  | same => exact .inl ⟨stage, rfl, hi⟩
  | starts => cases hi
  | finds hreg =>
    rw [List.mem_singleton.mp hi]
    exact .inr hreg
  | reads j => exact .inl ⟨.get _, rfl, hi⟩

theorem Effect.created_mono {s t : UiService} {l : Label} (heff : Effect s t l) {i : Nat}
    (h : s.created i) : t.created i := by
  cases heff.change with
  | quiet _ _ _ hcreated => exact (hcreated i).mpr h
  | registers _ _ _ _ _ _ _ _ hcreated => exact (hcreated i).mpr (.inr h)
  | emits _ _ _ _ _ _ _ _ _ hcreated => exact (hcreated i).mpr h
  | removes _ _ _ _ _ _ _ _ _ hcreated => exact (hcreated i).mpr h
  | stores _ _ _ _ _ _ _ _ hcreated => exact (hcreated i).mpr h

theorem registered_step {s t : UiService} {l : Label} (hwf : Wf s) (heff : Effect s t l)
    {h : String} {i : Nat} (hreg : t.server.registry h = some i) :
    t.created i ∧ (t.sessions i).sessionHandle = h := by
  have hold : s.server.registry h = some i → t.created i ∧ (t.sessions i).sessionHandle = h := by
    intro hs
    obtain ⟨hcreated, hhandle⟩ := hwf.registered h i hs
    exact ⟨heff.created_mono hcreated, (heff.handles i hcreated).trans hhandle⟩
  cases heff.change with
  | quiet hregistry => exact hold (by rw [← hregistry, hreg])
  | registers j _ _ _ hregistry _ _ hhandle hcreated =>
    rw [hregistry] at hreg
    by_cases hh : h = (s.sessions j).sessionHandle
    · subst hh
      rw [Function.update_self] at hreg
      cases hreg
      exact ⟨(hcreated i).mpr (.inl rfl), hhandle⟩
    · rw [Function.update_of_ne hh] at hreg
      exact hold hreg
  | emits _ _ _ _ _ hregistry => exact hold (by rw [← hregistry, hreg])
  | removes _ h' _ _ _ hregistry =>
    rw [hregistry] at hreg
    by_cases hh : h = h'
    · rw [hh, Function.update_self] at hreg
      cases hreg
    · rw [Function.update_of_ne hh] at hreg
      exact hold hreg
  | stores _ _ _ _ _ hregistry => exact hold (by rw [← hregistry, hreg])

theorem stage_step {s t : UiService} {l : Label} (hwf : Wf s) (heff : Effect s t l) {r : Runner}
    {h : String} {stage : Shutdown} {i : Nat} (hr : t.shuttingDown r = some (h, stage))
    (hi : i ∈ stage.refs) : t.created i := by
  have hprogress : Progress s.server (s.shuttingDown r) (t.shuttingDown r) → t.created i := by
    intro hp
    rw [hr] at hp
    obtain ⟨before, hbefore, hmem⟩ | hreg := hp.refs hi
    · exact heff.created_mono (hwf.stage r h before i hbefore hmem)
    · exact heff.created_mono (hwf.registered h i hreg).1
  have hsame : t.shuttingDown r = s.shuttingDown r → t.created i := by
    intro hrr
    exact heff.created_mono (hwf.stage r h stage i (hrr ▸ hr) hi)
  cases heff.change with
  | quiet _ _ htasks => exact hprogress (htasks r)
  | registers _ _ _ _ _ _ htasks => exact hsame (htasks r)
  | emits r' h' j _ hstage _ _ hnext hothers =>
    by_cases hrr : r = r'
    · rw [hrr, hnext] at hr
      cases hr
      rw [List.mem_singleton.mp hi]
      exact heff.created_mono (hwf.stage r' _ (.emit j) j hstage (List.mem_singleton_self j))
    · exact hsame (hothers r hrr)
  | removes r' _ _ _ _ _ _ hnext hothers =>
    by_cases hrr : r = r'
    · rw [hrr, hnext] at hr
      cases hr
    · exact hsame (hothers r hrr)
  | stores _ _ _ _ _ _ _ htasks => exact hprogress (htasks r)

/-- What a call for a session refers to was registered, or it did so before. -/
structure Calls (s t : UiService) : Prop where
  notify (k i : Nat) : (t.notifies k).target = some i →
    (s.notifies k).target = some i ∨ ∃ h, s.server.registry h = some i
  close (k i : Nat) : (t.closes k).target = some i →
    (s.closes k).target = some i ∨ ∃ h, s.server.registry h = some i
  fresh (i : Nat) : t.nextSession ≤ i →
    s.nextSession ≤ i ∧ ((s.sessions i).create = .absent → (t.sessions i).create = .absent)
  freshNotify (k : Nat) : t.nextNotify ≤ k →
    s.nextNotify ≤ k ∧ (s.notifies k = .absent → t.notifies k = .absent)
  freshClose (k : Nat) : t.nextClose ≤ k →
    s.nextClose ≤ k ∧ (s.closes k = .absent → t.closes k = .absent)

theorem OwnStep.calls {s t : UiService} (h : OwnStep s t) : Calls s t := by
  constructor
  · intro k i hk
    exact .inl (by rwa [h.notifies] at hk)
  · intro k i hk
    exact .inl (by rwa [h.closes] at hk)
  · intro i hi
    rw [h.nextSession] at hi
    exact ⟨hi, h.absent i⟩
  · intro k hk
    rw [h.nextNotify] at hk
    exact ⟨hk, fun habsent => by rwa [h.notifies]⟩
  · intro k hk
    rw [h.nextClose] at hk
    exact ⟨hk, fun habsent => by rwa [h.closes]⟩

theorem calls_setNotify {s t : UiService} (k : Nat) (task : NotifyTask)
    (hnotifies : t.notifies = (s.setNotify k task).notifies)
    (htarget : ∀ i, task.target = some i →
      (s.notifies k).target = some i ∨ ∃ h, s.server.registry h = some i)
    (hfresh : ∀ m, t.nextNotify ≤ m → s.nextNotify ≤ m ∧ (s.notifies m = .absent → m ≠ k))
    (hcloses : t.closes = s.closes) (hsessions : t.sessions = s.sessions)
    (hnext : t.nextSession = s.nextSession) (hclose : t.nextClose = s.nextClose) :
    Calls s t := by
  constructor
  · intro m i hm
    rw [hnotifies] at hm
    by_cases hmk : m = k
    · subst hmk
      exact htarget i (by simpa [setNotify] using hm)
    · rw [setNotify_ne s task hmk] at hm
      exact .inl hm
  · intro m i hm
    exact .inl (by rwa [hcloses] at hm)
  · intro i hi
    rw [hnext] at hi
    exact ⟨hi, fun habsent => by rwa [hsessions]⟩
  · intro m hm
    obtain ⟨hm', hne⟩ := hfresh m hm
    exact ⟨hm', fun habsent => by rwa [hnotifies, setNotify_ne s task (hne habsent)]⟩
  · intro m hm
    rw [hclose] at hm
    exact ⟨hm, fun habsent => by rwa [hcloses]⟩

theorem notifyStateChanged_calls {s t : UiService} {k : Nat}
    (h : s.notifyStateChanged k = some t) : Calls s t := by
  have hfresh : ∀ m, s.nextNotify ≤ m → s.nextNotify ≤ m ∧ (s.notifies m = .absent → m ≠ k) := by
    refine fun m hm => ⟨hm, ?_⟩
    rintro habsent rfl
    simp [notifyStateChanged, habsent] at h
  unfold notifyStateChanged at h
  split at h
  · split at h
    · cases h
      exact calls_setNotify k _ rfl (fun i hi => by cases hi) hfresh rfl rfl rfl rfl
    · rename_i i hreg
      split at h
      · cases h
        refine calls_setNotify k _ rfl (fun j hj => ?_) hfresh rfl rfl rfl rfl
        cases hj
        exact .inr ⟨_, hreg⟩
      · cases h
  · rename_i sessionHandle i hstage
    obtain ⟨server, -, rfl⟩ := Option.map_eq_some_iff.mp h
    refine calls_setNotify k (.onStateChanged sessionHandle i) rfl (fun j hj => ?_)
      hfresh rfl rfl rfl rfl
    cases hj
    exact .inl (by rw [hstage]; rfl)
  · rename_i sessionHandle i hstage
    split at h
    · cases h
      exact calls_setNotify k (.returned (.ok ())) rfl (fun j hj => by cases hj)
        hfresh rfl rfl rfl rfl
    · cases h
      refine calls_setNotify k _ rfl (fun j hj => ?_) hfresh rfl rfl rfl rfl
      cases hj
      exact .inl (by rw [hstage]; rfl)
  · rename_i sessionHandle i stage hstage
    obtain ⟨⟨o, next⟩, -, rfl⟩ := Option.map_eq_some_iff.mp h
    cases next with
    | none =>
      exact calls_setNotify k (.returned (.error
        "Error sending state notification. Closing session.")) rfl (fun j hj => by cases hj)
        hfresh rfl rfl rfl rfl
    | some stage' =>
      refine calls_setNotify k (.shutdown sessionHandle i stage') rfl
        (fun j hj => ?_) hfresh rfl rfl rfl rfl
      cases hj
      exact .inl (by rw [hstage]; rfl)
  · cases h

theorem calls_setClose {s t : UiService} (k : Nat) (task : CloseTask)
    (hcloses : t.closes = (s.setClose k task).closes)
    (htarget : ∀ i, task.target = some i →
      (s.closes k).target = some i ∨ ∃ h, s.server.registry h = some i)
    (hfresh : ∀ m, t.nextClose ≤ m → s.nextClose ≤ m ∧ (s.closes m = .absent → m ≠ k))
    (hnotifies : t.notifies = s.notifies)
    (habsent : ∀ j, (s.sessions j).create = .absent → (t.sessions j).create = .absent)
    (hnext : t.nextSession = s.nextSession) (hnotify : t.nextNotify = s.nextNotify) :
    Calls s t := by
  constructor
  · intro m i hm
    exact .inl (by rwa [hnotifies] at hm)
  · intro m i hm
    rw [hcloses] at hm
    by_cases hmk : m = k
    · subst hmk
      exact htarget i (by simpa [setClose] using hm)
    · rw [setClose_ne s task hmk] at hm
      exact .inl hm
  · intro i hi
    rw [hnext] at hi
    exact ⟨hi, habsent i⟩
  · intro m hm
    rw [hnotify] at hm
    exact ⟨hm, fun habsent => by rwa [hnotifies]⟩
  · intro m hm
    obtain ⟨hm', hne⟩ := hfresh m hm
    exact ⟨hm', fun habsent => by rwa [hcloses, setClose_ne s task (hne habsent)]⟩

theorem closeSession_calls {s t : UiService} {k : Nat} (h : s.closeSession k = some t) :
    Calls s t := by
  have hfresh : ∀ m, s.nextClose ≤ m → s.nextClose ≤ m ∧ (s.closes m = .absent → m ≠ k) := by
    refine fun m hm => ⟨hm, ?_⟩
    rintro habsent rfl
    simp [closeSession, habsent] at h
  unfold closeSession at h
  split at h
  · rename_i i hstage
    obtain ⟨server, -, rfl⟩ := Option.map_eq_some_iff.mp h
    refine calls_setClose k (.abortForwarder i) rfl (fun j hj => ?_) hfresh rfl
      (fun _ => id) rfl rfl
    exact .inl (by rw [hstage]; exact hj)
  · rename_i i hstage
    cases h
    have hown := s.abortForwarder_ownStep i
    refine calls_setClose k (.abortCanceller i) ?_ (fun j hj => ?_) ?_ hown.notifies hown.absent
      hown.nextSession hown.nextNotify
    · simp [setClose, hown.closes]
    · exact .inl (by rw [hstage]; exact hj)
    · intro m hm
      exact hfresh m (hown.nextClose ▸ hm)
  · rename_i i hstage
    cases h
    have hown := s.abortCanceller_ownStep i
    refine calls_setClose k (.store i) ?_ (fun j hj => ?_) ?_ hown.notifies hown.absent
      hown.nextSession hown.nextNotify
    · simp [setClose, hown.closes]
    · exact .inl (by rw [hstage]; exact hj)
    · intro m hm
      exact hfresh m (hown.nextClose ▸ hm)
  · rename_i i hstage
    cases h
    refine calls_setClose k (.shutdown i .lookup) rfl (fun j hj => ?_) hfresh rfl
      (fun _ => id) rfl rfl
    exact .inl (by rw [hstage]; exact hj)
  · rename_i i stage hstage
    obtain ⟨⟨o, next⟩, -, rfl⟩ := Option.map_eq_some_iff.mp h
    cases next with
    | none =>
      refine calls_setClose k (.returned i) rfl (fun j hj => ?_) hfresh rfl
        (fun _ => id) rfl rfl
      exact .inl (by rw [hstage]; exact hj)
    | some stage' =>
      refine calls_setClose k (.shutdown i stage') rfl (fun j hj => ?_) hfresh rfl
        (fun _ => id) rfl rfl
      exact .inl (by rw [hstage]; exact hj)
  · cases h

theorem step_calls {desktop : String → Option String} {s t : UiService} {l : Label}
    (h : step desktop s l = some t) : Calls s t := by
  cases l with
  | createSession call =>
    cases h
    refine ⟨fun _ _ hk => .inl hk, fun _ _ hk => .inl hk, ?_, fun _ hk => ⟨hk, id⟩,
      fun _ hk => ⟨hk, id⟩⟩
    intro i hi
    have hlt : s.nextSession < i := hi
    refine ⟨Nat.le_of_lt hlt, ?_⟩
    simp [Function.update_of_ne (Nat.ne_of_gt hlt)]
  | create i => exact (createSession_ownStep h).calls
  | disconnect i =>
    simp only [step] at h
    split at h
    · cases h
    · cases h
      exact (ownStep_onSession id).calls
  | canceller i => exact (cancelTask_ownStep h).calls
  | forwarder i ok => exact (forwardUiEvents_ownStep h).calls
  | gui l => exact (guiStep_ownStep h).calls
  | notifyStateChanged sessionHandle =>
    cases h
    refine calls_setNotify s.nextNotify (.lookup sessionHandle) rfl (fun i hi => by cases hi) ?_
      rfl rfl rfl rfl
    intro m hm
    have hlt : s.nextNotify < m := hm
    exact ⟨Nat.le_of_lt hlt, fun _ => Nat.ne_of_gt hlt⟩
  | notify k => exact notifyStateChanged_calls h
  | close sessionHandle =>
    obtain ⟨i, hreg, rfl⟩ := Option.map_eq_some_iff.mp h
    refine calls_setClose s.nextClose (.lock i) rfl (fun j hj => ?_) ?_ rfl (fun _ => id) rfl rfl
    · cases hj
      exact .inr ⟨sessionHandle, hreg⟩
    · intro m hm
      have hlt : s.nextClose < m := hm
      exact ⟨Nat.le_of_lt hlt, fun _ => Nat.ne_of_gt hlt⟩
  | closing k => exact closeSession_calls h

theorem wf_init : Wf init where
  fresh _ _ := rfl
  registered _ _ h := by cases h
  stage r _ _ _ h _ := by cases r <;> cases h
  notify _ _ h := by cases h
  close _ _ h := by cases h
  freshNotify _ _ := rfl
  freshClose _ _ := rfl

theorem wf_step {desktop : String → Option String} {s t : UiService} {l : Label} (hwf : Wf s)
    (h : step desktop s l = some t) : Wf t := by
  have heff := step_effect hwf h
  have hcalls := step_calls h
  constructor
  · intro i hi
    obtain ⟨hi', habsent⟩ := hcalls.fresh i hi
    exact habsent (hwf.fresh i hi')
  · intro sessionHandle i hreg
    exact registered_step hwf heff hreg
  · intro r sessionHandle stage i hr hi
    exact stage_step hwf heff hr hi
  · intro k i hk
    obtain hold | ⟨sessionHandle, hreg⟩ := hcalls.notify k i hk
    · exact heff.created_mono (hwf.notify k i hold)
    · exact heff.created_mono (hwf.registered sessionHandle i hreg).1
  · intro k i hk
    obtain hold | ⟨sessionHandle, hreg⟩ := hcalls.close k i hk
    · exact heff.created_mono (hwf.close k i hold)
    · exact heff.created_mono (hwf.registered sessionHandle i hreg).1
  · intro k hk
    obtain ⟨hk', habsent⟩ := hcalls.freshNotify k hk
    exact habsent (hwf.freshNotify k hk')
  · intro k hk
    obtain ⟨hk', habsent⟩ := hcalls.freshClose k hk
    exact habsent (hwf.freshClose k hk')

end UiService

end Credentialsd
