import Credentialsd.HandlersLive

/-!
# The end of a selection (`usb.rs:41-174`)

Unless the request is cancelled, all handles are collected, whether a device is touched or not, and
the function returns the first device that it receives as touched, or none if no device is.
-/

namespace Credentialsd

namespace Selection

variable {D : Type}

/-! ### What a step does -/

def Label.isCancel : Label → Bool
  | .cancel => true
  | _ => false

/- The step is the answer of a user who has to touch a device. -/
def Label.isBlinked : Label → Bool
  | .blinked _ _ => true
  | _ => false

/-- The steps of a selection that nobody cancels; none of them is a failed `unwrap`. -/
inductive Moves (s : Selection D) : Label → Selection D → Prop where
  | opened {idx : Nat} {t : DeviceTask D} {ok : Bool} (ht : s.tasks[idx]? = some t)
      (hst : t.stage = .opening) :
      Moves s (.opened idx ok)
        (s.setStage idx t (if ok then .registering else .notifying none true))
  | registered {idx : Nat} {t : DeviceTask D} (ht : s.tasks[idx]? = some t)
      (hst : t.stage = .registering) :
      Moves s (.register idx)
        { s.setStage idx t .blinking with setup := s.setup ++ [(idx, t.device)] }
  | blinked {idx : Nat} {t : DeviceTask D} {r : Except String Bool} (ht : s.tasks[idx]? = some t)
      (hst : t.stage = .blinking) :
      Moves s (.blinked idx r) (s.setStage idx t (.notifying (blinkResult idx r) false))
  | notified {idx : Nat} {t : DeviceTask D} {res : Option Nat} {b : Bool}
      (ht : s.tasks[idx]? = some t) (hst : t.stage = .notifying res b) :
      Moves s (.notify idx) { s.setStage idx t .ended with blinks := s.blinks ++ [res] }
  | collected {idx : Nat} {d : D} {rest : List (Nat × D)} (hloop : s.loop = .collecting)
      (hsetup : s.setup = (idx, d) :: rest) :
      Moves s .collect { s with setup := rest, channelMap := (idx, d) :: s.channelMap }
  | closed (hloop : s.loop = .collecting) (hsetup : s.setup = []) :
      Moves s .collect { s with loop := .waiting }
  | touched {idx : Nat} {d : D} {rest : List (Option Nat)} (hloop : s.loop = .waiting)
      (hblinks : s.blinks = some idx :: rest) (hd : s.channelMap.lookup idx = some d) :
      Moves s .receive { s with
        blinks := rest
        loop := .stopping ((s.channelMap.map Prod.fst).filter (· != idx)) (.selected d) }
  | untouched {rest : List (Option Nat)} (hloop : s.loop = .waiting)
      (hblinks : s.blinks = none :: rest) : Moves s .receive { s with blinks := rest }
  | ended (hloop : s.loop = .waiting) (hblinks : s.blinks = [])
      (hdone : ∀ t ∈ s.tasks, t.stage.running = false) :
      Moves s .receive { s with loop := .stopping [] .idle }
  | stopped {idx : Nat} {rest : List Nat} {outcome : Outcome D}
      (hloop : s.loop = .stopping rest outcome) (hidx : idx ∈ rest) :
      Moves s (.stop idx)
        { s with stopped := idx :: s.stopped, loop := .stopping (rest.erase idx) outcome }

theorem openChannel_moves {s s' : Selection D} {idx : Nat} {t : DeviceTask D} {ok : Bool}
    (ht : s.tasks[idx]? = some t) (h : s.openChannel idx t ok = some s') :
    s.Moves (.opened idx ok) s' := by
  unfold openChannel at h
  split at h
  · rename_i hst
    cases h
    exact .opened ht hst
  · cases h

theorem register_moves {s s' : Selection D} {idx : Nat} {t : DeviceTask D}
    (hlive : s.loop.receives = true) (ht : s.tasks[idx]? = some t)
    (h : s.register idx t = some s') : s.Moves (.register idx) s' := by
  unfold register at h
  split at h
  · rename_i hst
    rw [if_pos hlive] at h
    split at h
    · cases h
      exact .registered ht hst
    · cases h
  · cases h

theorem blink_moves {s s' : Selection D} {idx : Nat} {t : DeviceTask D} {r : Except String Bool}
    (ht : s.tasks[idx]? = some t) (h : s.blink idx t r = some s') :
    s.Moves (.blinked idx r) s' := by
  unfold blink at h
  split at h
  · rename_i hst
    cases h
    exact .blinked ht hst
  · cases h

theorem notify_moves {s s' : Selection D} {idx : Nat} {t : DeviceTask D}
    (hlive : s.loop.receives = true) (ht : s.tasks[idx]? = some t)
    (h : s.notify idx t = some s') : s.Moves (.notify idx) s' := by
  unfold notify at h
  split at h
  · rename_i res b hst
    rw [if_pos hlive] at h
    split at h
    · cases h
      exact .notified ht hst
    · cases h
  · cases h

theorem collect_moves {s s' : Selection D} (h : s.collect = some s') : s.Moves .collect s' := by
  unfold collect at h
  split at h
  · rename_i hloop
    split at h
    · rename_i idx d rest hsetup
      cases h
      exact .collected hloop hsetup
    · rename_i hsetup
      split at h
      · cases h
      · cases h
        exact .closed hloop hsetup
  · cases h

theorem receive_moves {s s' : Selection D} (hi : s.Inv) (h : s.receive = some s') :
    s.Moves .receive s' := by
  have hnoPanic := (receive_inv h hi).noPanic
  unfold receive at h
  split at h
  · rename_i hloop
    split at h
    · rename_i idx rest hblinks
      split at h
      · rename_i d hd
        cases h
        exact .touched hloop hblinks hd
      · cases h
        exact absurd rfl hnoPanic
    · rename_i rest hblinks
      cases h
      exact .untouched hloop hblinks
    · rename_i hblinks
      split at h
      · cases h
      · rename_i hany
        cases h
        refine .ended hloop hblinks fun t ht => ?_
        exact Bool.eq_false_iff.mpr fun hyes => hany (List.any_eq_true.mpr ⟨t, ht, hyes⟩)
  · cases h

theorem stop_moves {s s' : Selection D} {idx : Nat} (h : s.stop idx = some s') :
    s.Moves (.stop idx) s' := by
  unfold stop at h
  split at h
  · rename_i rest outcome hloop
    split at h
    · rename_i hidx
      cases h
      exact .stopped hloop hidx
    · cases h
  · cases h

theorem step_moves {s s' : Selection D} {l : Label} (hi : s.Inv) (hlive : s.loop.receives = true)
    (hl : l.isCancel = false) (h : s.step l = some s') : s.Moves l s' := by
  cases l with
  | opened idx ok =>
    obtain ⟨t, ht, h⟩ := Option.bind_eq_some_iff.mp h
    exact openChannel_moves ht h
  | register idx =>
    obtain ⟨t, ht, h⟩ := Option.bind_eq_some_iff.mp h
    exact register_moves hlive ht h
  | blinked idx r =>
    obtain ⟨t, ht, h⟩ := Option.bind_eq_some_iff.mp h
    exact blink_moves ht h
  | notify idx =>
    obtain ⟨t, ht, h⟩ := Option.bind_eq_some_iff.mp h
    exact notify_moves hlive ht h
  | collect => exact collect_moves h
  | receive => exact receive_moves hi h
  | stop idx => exact stop_moves h
  | cancel => cases hl

/-! ### Both channels have room -/

/- The task has still to send its handle, if it gets one. -/
def Stage.unregistered : Stage → Nat
  | .opening => 1
  | .registering => 1
  | _ => 0

/- The task has still to send its answer. -/
def Stage.unreported : Stage → Nat
  | .ended => 0
  | .panicked => 0
  | _ => 1

def sumOver (f : Stage → Nat) : List (DeviceTask D) → Nat
  | [] => 0
  | t :: tasks => f t.stage + sumOver f tasks

def total (s : Selection D) (f : Stage → Nat) : Nat := sumOver f s.tasks

theorem sumOver_set {tasks : List (DeviceTask D)} {idx : Nat} {t : DeviceTask D} (f : Stage → Nat)
    (stage : Stage) (ht : tasks[idx]? = some t) :
    sumOver f (tasks.set idx { t with stage := stage }) + f t.stage =
      sumOver f tasks + f stage := by
  induction tasks generalizing idx with
  | nil => cases ht
  | cons u tasks ih =>
    cases idx with
    | zero =>
      cases ht
      simp only [List.set_cons_zero, sumOver]
      omega
    | succ idx =>
      have hrest := ih ht
      simp only [List.set_cons_succ, sumOver]
      omega

theorem le_sumOver {tasks : List (DeviceTask D)} {t : DeviceTask D} (f : Stage → Nat)
    (ht : t ∈ tasks) : f t.stage ≤ sumOver f tasks := by
  induction tasks with
  | nil => cases ht
  | cons u tasks ih =>
    simp only [sumOver]
    rcases List.mem_cons.mp ht with rfl | hrest
    · omega
    · have hle := ih hrest
      omega

theorem sumOver_opening (f : Stage → Nat) (devices : List D) :
    sumOver f (devices.map fun d => ⟨d, .opening⟩) = devices.length * f .opening := by
  induction devices with
  | nil => simp [sumOver]
  | cons d devices ih =>
    simp only [List.map_cons, sumOver, List.length_cons, Nat.succ_mul, ih]
    omega

theorem length_setStage (s : Selection D) (idx : Nat) (t : DeviceTask D) (stage : Stage) :
    (s.setStage idx t stage).tasks.length = s.tasks.length :=
  List.length_set

/-- A message is sent by a task that was still to send it, so the messages of all tasks fit in. -/
structure Room (s : Selection D) : Prop where
  live : s.loop.receives = true
  unpanicked : ∀ t ∈ s.tasks, t.stage ≠ .panicked
  setup : s.setup.length + s.channelMap.length + s.total Stage.unregistered ≤ s.tasks.length
  blinks : s.blinks.length + s.total Stage.unreported ≤ s.tasks.length

theorem room_start (devices : List D) : (start devices).Room where
  live := rfl
  unpanicked t ht := by
    obtain ⟨d, -, rfl⟩ := List.mem_map.mp ht
    nofun
  setup := by
    simp [start, total, sumOver_opening, Stage.unregistered]
  blinks := by
    simp [start, total, sumOver_opening, Stage.unreported]

/-- A task goes on and sends no more than it has announced. -/
theorem Room.setStage {s : Selection D} (hr : s.Room) {idx : Nat} {t : DeviceTask D}
    {stage : Stage} {setup : List (Nat × D)} {blinks : List (Option Nat)}
    (ht : s.tasks[idx]? = some t) (hstage : stage ≠ .panicked)
    (hsetup : setup.length + stage.unregistered ≤ s.setup.length + t.stage.unregistered)
    (hblinks : blinks.length + stage.unreported ≤ s.blinks.length + t.stage.unreported) :
    Room { s.setStage idx t stage with setup := setup, blinks := blinks } where
  live := hr.live
  unpanicked u hu := by
    rcases List.mem_or_eq_of_mem_set hu with hold | rfl
    · exact hr.unpanicked u hold
    · exact hstage
  setup := by
    have hcount := sumOver_set Stage.unregistered stage ht
    have hlength := length_setStage s idx t stage
    have hroom := hr.setup
    simp only [total, Selection.setStage] at hcount hlength hroom ⊢
    omega
  blinks := by
    have hcount := sumOver_set Stage.unreported stage ht
    have hlength := length_setStage s idx t stage
    have hroom := hr.blinks
    simp only [total, Selection.setStage] at hcount hlength hroom ⊢
    omega

theorem Moves.room {s s' : Selection D} {l : Label} (hm : s.Moves l s') (hr : s.Room) :
    s'.Room := by
  have hsetup := hr.setup
  have hblinks := hr.blinks
  cases hm with
  | @opened idx t ok ht hst =>
    have hstage : (if ok then Stage.registering else .notifying none true) ≠ .panicked := by
      cases ok <;> nofun
    apply hr.setStage ht hstage
    · cases ok <;> simp [hst, Stage.unregistered]
    · cases ok <;> simp [hst, Stage.unreported]
  | registered ht hst =>
    have hstage : Stage.blinking ≠ .panicked := nofun
    apply hr.setStage ht hstage
    · simp [hst, Stage.unregistered]
    · simp [hst, Stage.unreported, setStage]
  | @blinked idx t r ht hst =>
    have hstage : Stage.notifying (blinkResult idx r) false ≠ .panicked := nofun
    apply hr.setStage ht hstage
    · simp [hst, Stage.unregistered]
    · simp [hst, Stage.unreported]
  | notified ht hst =>
    have hstage : Stage.ended ≠ .panicked := nofun
    apply hr.setStage ht hstage
    · simp [hst, Stage.unregistered, setStage]
    · simp [hst, Stage.unreported]
  | collected hloop hs =>
    rw [hs, List.length_cons] at hsetup
    refine ⟨hr.live, hr.unpanicked, ?_, hblinks⟩
    simp only [List.length_cons, total] at hsetup ⊢
    omega
  | closed hloop hs => exact ⟨rfl, hr.unpanicked, hsetup, hblinks⟩
  | touched hloop hb hd =>
    rw [hb, List.length_cons] at hblinks
    refine ⟨rfl, hr.unpanicked, hsetup, ?_⟩
    simp only [total] at hblinks ⊢
    omega
  | untouched hloop hb =>
    rw [hb, List.length_cons] at hblinks
    refine ⟨hr.live, hr.unpanicked, hsetup, ?_⟩
    simp only [total] at hblinks ⊢
    omega
  | ended hloop hb hdone => exact ⟨rfl, hr.unpanicked, hsetup, hblinks⟩
  | stopped hloop hidx => exact ⟨rfl, hr.unpanicked, hsetup, hblinks⟩

/-! ### No send waits -/

theorem Room.register_enabled {s : Selection D} (hr : s.Room) {idx : Nat} {t : DeviceTask D}
    (ht : s.tasks[idx]? = some t) (hst : t.stage = .registering) :
    (s.step (.register idx)).isSome = true := by
  have hle := le_sumOver Stage.unregistered (List.mem_of_getElem? ht)
  have hsetup := hr.setup
  rw [hst] at hle
  simp only [Stage.unregistered] at hle
  unfold total at hsetup
  have hroom : s.setup.length < s.expectedAnswers := by
    show s.setup.length < s.tasks.length
    omega
  simp [step, register, ht, hst, hr.live, hroom]

theorem Room.notify_enabled {s : Selection D} (hr : s.Room) {idx : Nat} {t : DeviceTask D}
    {res : Option Nat} {b : Bool} (ht : s.tasks[idx]? = some t)
    (hst : t.stage = .notifying res b) : (s.step (.notify idx)).isSome = true := by
  have hle := le_sumOver Stage.unreported (List.mem_of_getElem? ht)
  have hblinks := hr.blinks
  rw [hst] at hle
  simp only [Stage.unreported] at hle
  unfold total at hblinks
  have hroom : s.blinks.length < s.expectedAnswers := by
    show s.blinks.length < s.tasks.length
    omega
  simp [step, notify, ht, hst, hr.live, hroom]

/-- A task that holds a sender of the setup channel waits for no user. -/
theorem Room.holder_enabled {s : Selection D} (hr : s.Room) {t : DeviceTask D} (ht : t ∈ s.tasks)
    (hholds : t.stage.holdsSetup = true) :
    ∃ l, l.isCancel = false ∧ l.isBlinked = false ∧ (s.step l).isSome = true := by
  obtain ⟨idx, hidx⟩ := List.getElem?_of_mem ht
  cases hst : t.stage with
  | opening => exact ⟨.opened idx true, rfl, rfl, by simp [step, openChannel, hidx, hst]⟩
  | registering => exact ⟨.register idx, rfl, rfl, hr.register_enabled hidx hst⟩
  | notifying res b => exact ⟨.notify idx, rfl, rfl, hr.notify_enabled hidx hst⟩
  | blinking =>
    rw [hst] at hholds
    cases hholds
  | ended =>
    rw [hst] at hholds
    cases hholds
  | panicked =>
    rw [hst] at hholds
    cases hholds

theorem Room.running_enabled {s : Selection D} (hr : s.Room) {t : DeviceTask D} (ht : t ∈ s.tasks)
    (hrunning : t.stage.running = true) : ∃ l, l.isCancel = false ∧ (s.step l).isSome = true := by
  obtain ⟨idx, hidx⟩ := List.getElem?_of_mem ht
  cases hst : t.stage with
  | opening => exact ⟨.opened idx true, rfl, by simp [step, openChannel, hidx, hst]⟩
  | registering => exact ⟨.register idx, rfl, hr.register_enabled hidx hst⟩
  | blinking => exact ⟨.blinked idx (.ok true), rfl, by simp [step, blink, hidx, hst]⟩
  | notifying res b => exact ⟨.notify idx, rfl, hr.notify_enabled hidx hst⟩
  | ended =>
    rw [hst] at hrunning
    cases hrunning
  | panicked =>
    rw [hst] at hrunning
    cases hrunning

/-- While handles are collected, a step goes on that no user has to take. -/
theorem Room.collecting_enabled {s : Selection D} (hr : s.Room) (hloop : s.loop = .collecting) :
    ∃ l, l.isCancel = false ∧ l.isBlinked = false ∧ (s.step l).isSome = true := by
  cases hsetup : s.setup with
  | cons handle rest => exact ⟨.collect, rfl, rfl, by simp [step, collect, hloop, hsetup]⟩
  | nil =>
    by_cases hany : (s.tasks.any fun t => t.stage.holdsSetup) = true
    · obtain ⟨t, ht, hholds⟩ := List.any_eq_true.mp hany
      exact hr.holder_enabled ht hholds
    · refine ⟨.collect, rfl, rfl, ?_⟩
      simp only [step, collect, hloop, hsetup, if_neg hany]
      rfl

theorem receive_enabled {s : Selection D} (hloop : s.loop = .waiting)
    (h : s.blinks ≠ [] ∨ ¬ (s.tasks.any fun t => t.stage.running) = true) :
    (s.step .receive).isSome = true := by
  cases hblinks : s.blinks with
  | nil =>
    have hnone := h.resolve_left (fun hne => hne hblinks)
    simp only [step, receive, hloop, hblinks, if_neg hnone]
    rfl
  | cons msg rest =>
    cases msg with
    | none =>
      simp only [step, receive, hloop, hblinks]
      rfl
    | some idx =>
      simp only [step, receive, hloop, hblinks]
      split <;> rfl

/-- A selection without a result goes on. -/
theorem Room.enabled {s : Selection D} (hr : s.Room) (hresult : s.result = none) :
    ∃ l, l.isCancel = false ∧ (s.step l).isSome = true := by
  cases hloop : s.loop with
  | collecting =>
    obtain ⟨l, hl, -, henabled⟩ := hr.collecting_enabled hloop
    exact ⟨l, hl, henabled⟩
  | waiting =>
    by_cases hblinks : s.blinks ≠ []
    · exact ⟨.receive, rfl, receive_enabled hloop (Or.inl hblinks)⟩
    · by_cases hany : (s.tasks.any fun t => t.stage.running) = true
      · obtain ⟨t, ht, hrunning⟩ := List.any_eq_true.mp hany
        exact hr.running_enabled ht hrunning
      · exact ⟨.receive, rfl, receive_enabled hloop (Or.inr hany)⟩
  | stopping rest outcome =>
    cases rest with
    | nil => simp [result, hloop] at hresult
    | cons idx rest => exact ⟨.stop idx, rfl, by simp [step, stop, hloop]⟩
  | panicked =>
    have hlive := hr.live
    rw [hloop] at hlive
    cases hlive
  | gone =>
    have hlive := hr.live
    rw [hloop] at hlive
    cases hlive

/-! ### How many steps are left -/

def Stage.steps : Stage → Nat
  | .opening => 6
  | .registering => 5
  | .blinking => 3
  | .notifying _ _ => 2
  | _ => 0

def Loop.steps (devices : Nat) : Loop D → Nat
  | .collecting => devices + 2
  | .waiting => devices + 1
  | .stopping rest _ => rest.length
  | _ => 0

/-- A bound of the steps to come: a message counts for the step that receives it. -/
def stepsLeft (s : Selection D) : Nat :=
  s.total Stage.steps + s.setup.length + s.blinks.length + s.loop.steps s.tasks.length

theorem stepsLeft_start (devices : List D) :
    (start devices).stepsLeft = 7 * devices.length + 2 := by
  simp only [start, stepsLeft, total, sumOver_opening, Stage.steps, Loop.steps, List.length_nil,
    List.length_map]
  omega

theorem stepsLeft_setStage {s : Selection D} {idx : Nat} {t : DeviceTask D}
    {stage : Stage} {setup : List (Nat × D)} {blinks : List (Option Nat)}
    (ht : s.tasks[idx]? = some t)
    (hless : setup.length + blinks.length + stage.steps <
      s.setup.length + s.blinks.length + t.stage.steps) :
    stepsLeft { s.setStage idx t stage with setup := setup, blinks := blinks } < s.stepsLeft := by
  have hcount := sumOver_set Stage.steps stage ht
  have hlength := length_setStage s idx t stage
  simp only [stepsLeft, total, Selection.setStage] at hcount hlength ⊢
  rw [hlength]
  omega

theorem Moves.stepsLeft {s s' : Selection D} {l : Label} (hm : s.Moves l s') (hr : s.Room) :
    s'.stepsLeft < s.stepsLeft := by
  cases hm with
  | @opened idx t ok ht hst =>
    cases ok with
    | true => exact stepsLeft_setStage ht (by simp [hst, Stage.steps])
    | false => exact stepsLeft_setStage ht (by simp [hst, Stage.steps])
  | registered ht hst =>
    apply stepsLeft_setStage ht
    simp only [hst, Stage.steps, setStage, List.length_append, List.length_singleton]
    omega
  | blinked ht hst => exact stepsLeft_setStage ht (by simp [hst, Stage.steps])
  | notified ht hst =>
    apply stepsLeft_setStage ht
    simp only [hst, Stage.steps, setStage, List.length_append, List.length_singleton]
    omega
  | collected hloop hs =>
    simp only [Selection.stepsLeft, total, hs, List.length_cons]
    omega
  | closed hloop hs =>
    simp only [Selection.stepsLeft, total, hloop, Loop.steps]
    omega
  | @touched idx d rest hloop hb hd =>
    have hsetup := hr.setup
    have hothers := List.length_filter_le (fun j => j != idx) (s.channelMap.map Prod.fst)
    rw [List.length_map] at hothers
    simp only [Selection.stepsLeft, total, hloop, Loop.steps, hb, List.length_cons]
    omega
  | untouched hloop hb =>
    simp only [Selection.stepsLeft, total, hb, List.length_cons]
    omega
  | ended hloop hb hdone =>
    simp only [Selection.stepsLeft, total, hloop, Loop.steps, List.length_nil]
    omega
  | stopped hloop hidx =>
    have hlength := List.length_erase_of_mem hidx
    have hpos := List.length_pos_of_mem hidx
    simp only [Selection.stepsLeft, total, hloop, Loop.steps]
    omega

/-! ### Which device is meant -/

/-- The messages carry the devices of the list under their own indices. -/
structure Named (devices : List D) (s : Selection D) : Prop where
  tasks : s.tasks.map (fun t => t.device) = devices
  setup : ∀ idx d, (idx, d) ∈ s.setup → devices[idx]? = some d
  channelMap : ∀ idx d, (idx, d) ∈ s.channelMap → devices[idx]? = some d

theorem named_start (devices : List D) : Named devices (start devices) := by
  refine ⟨?_, nofun, nofun⟩
  simp [start, Function.comp_def]

theorem Named.device {devices : List D} {s : Selection D} (hn : Named devices s) {idx : Nat}
    {t : DeviceTask D} (ht : s.tasks[idx]? = some t) : devices[idx]? = some t.device := by
  rw [← hn.tasks, List.getElem?_map, ht]
  rfl

theorem map_device_set {tasks : List (DeviceTask D)} {idx : Nat} {t : DeviceTask D} (stage : Stage)
    (ht : tasks[idx]? = some t) :
    (tasks.set idx { t with stage := stage }).map (fun u => u.device) =
      tasks.map fun u => u.device := by
  have hlt := (List.getElem?_eq_some_iff.mp ht).1
  have heq := (List.getElem?_eq_some_iff.mp ht).2
  rw [List.map_set]
  show (tasks.map fun u => u.device).set idx t.device = _
  apply List.ext_getElem?
  intro k
  rw [List.getElem?_set]
  split
  · rename_i hk
    rw [← hk, List.getElem?_map, ht, if_pos (by rw [List.length_map]; exact hlt)]
    rfl
  · rfl

theorem mem_of_lookup {m : List (Nat × D)} {idx : Nat} {d : D} (h : m.lookup idx = some d) :
    (idx, d) ∈ m := by
  obtain ⟨before, after, heq, -⟩ := List.lookup_eq_some_iff.mp h
  rw [heq]
  simp

theorem Moves.named {devices : List D} {s s' : Selection D} {l : Label} (hm : s.Moves l s')
    (hn : Named devices s) : Named devices s' := by
  cases hm with
  | opened ht hst => exact ⟨by rw [← hn.tasks]; exact map_device_set _ ht, hn.setup, hn.channelMap⟩
  | @registered idx t ht hst =>
    refine ⟨by rw [← hn.tasks]; exact map_device_set _ ht, fun j d hj => ?_, hn.channelMap⟩
    rcases List.mem_append.mp hj with hold | hnew
    · exact hn.setup j d hold
    · cases List.mem_singleton.mp hnew
      exact hn.device ht
  | blinked ht hst => exact ⟨by rw [← hn.tasks]; exact map_device_set _ ht, hn.setup, hn.channelMap⟩
  | notified ht hst =>
    exact ⟨by rw [← hn.tasks]; exact map_device_set _ ht, hn.setup, hn.channelMap⟩
  | collected hloop hs =>
    have hsetup := hn.setup
    rw [hs] at hsetup
    refine ⟨hn.tasks, fun j d hj => hsetup j d (List.mem_cons_of_mem _ hj), fun j d hj => ?_⟩
    rcases List.mem_cons.mp hj with hhead | htail
    · cases hhead
      exact hsetup _ _ (List.mem_cons_self ..)
    · exact hn.channelMap j d htail
  | closed hloop hs => exact ⟨hn.tasks, hn.setup, hn.channelMap⟩
  | touched hloop hb hd => exact ⟨hn.tasks, hn.setup, hn.channelMap⟩
  | untouched hloop hb => exact ⟨hn.tasks, hn.setup, hn.channelMap⟩
  | ended hloop hb hdone => exact ⟨hn.tasks, hn.setup, hn.channelMap⟩
  | stopped hloop hidx => exact ⟨hn.tasks, hn.setup, hn.channelMap⟩

/-! ### Every answer is received or on its way -/

/- What a step takes out of the blinking channel. -/
def taken (s : Selection D) : Label → List (Option Nat)
  | .receive => s.blinks.take 1
  | _ => []

/-- The messages that the function receives over a run, in their order. -/
def received : Selection D → List Label → List (Option Nat)
  | _, [] => []
  | s, l :: ls =>
    match s.step l with
    | some s' => s.taken l ++ received s' ls
    | none => []

theorem received_snoc {s t u : Selection D} {ls : List Label} {l : Label}
    (h : Machine.exec step s ls = some t) (hl : t.step l = some u) :
    received s (ls ++ [l]) = received s ls ++ t.taken l := by
  induction ls generalizing s with
  | nil =>
    cases h
    simp [received, hl]
  | cons k ls ih =>
    obtain ⟨m, hm, hrest⟩ := Machine.exec_cons_some.mp h
    simp only [List.cons_append, received, hm]
    rw [ih hrest, List.append_assoc]

def Stage.answer : Stage → Option Nat
  | .notifying res _ => res
  | _ => none

def Reports (tasks : List (DeviceTask D)) (j : Nat) : Prop :=
  ∃ t ∈ tasks, t.stage.answer = some j

def ReportsBeside (tasks : List (DeviceTask D)) (idx j : Nat) : Prop :=
  ∃ k t, k ≠ idx ∧ tasks[k]? = some t ∧ t.stage.answer = some j

theorem reports_iff {tasks : List (DeviceTask D)} {idx j : Nat} {t : DeviceTask D}
    (ht : tasks[idx]? = some t) :
    Reports tasks j ↔ t.stage.answer = some j ∨ ReportsBeside tasks idx j := by
  constructor
  · rintro ⟨u, hu, hanswer⟩
    obtain ⟨k, hk⟩ := List.getElem?_of_mem hu
    by_cases hidx : k = idx
    · rw [hidx, ht] at hk
      cases hk
      exact Or.inl hanswer
    · exact Or.inr ⟨k, u, hidx, hk, hanswer⟩
  · rintro (hanswer | ⟨k, u, -, hk, hanswer⟩)
    · exact ⟨t, List.mem_of_getElem? ht, hanswer⟩
    · exact ⟨u, List.mem_of_getElem? hk, hanswer⟩

theorem reports_set {tasks : List (DeviceTask D)} {idx j : Nat} {t : DeviceTask D} (stage : Stage)
    (ht : tasks[idx]? = some t) : Reports (tasks.set idx { t with stage := stage }) j ↔
      stage.answer = some j ∨ ReportsBeside tasks idx j := by
  have hlt := (List.getElem?_eq_some_iff.mp ht).1
  have hset : (tasks.set idx { t with stage := stage })[idx]? = some { t with stage := stage } :=
    List.getElem?_set_self hlt
  have hbeside : ReportsBeside (tasks.set idx { t with stage := stage }) idx j ↔
      ReportsBeside tasks idx j := by
    have hother : ∀ k, k ≠ idx →
        (tasks.set idx { t with stage := stage })[k]? = tasks[k]? :=
      fun k hk => List.getElem?_set_ne (Ne.symm hk)
    constructor
    · rintro ⟨k, u, hk, hu, hanswer⟩
      exact ⟨k, u, hk, (hother k hk).symm.trans hu, hanswer⟩
    · rintro ⟨k, u, hk, hu, hanswer⟩
      exact ⟨k, u, hk, (hother k hk).trans hu, hanswer⟩
  rw [reports_iff hset, hbeside]

/-- The device has been touched: its task reports that, or the function has received it or is to
receive it. -/
def Answered (s : Selection D) (got : List (Option Nat)) (j : Nat) : Prop :=
  Reports s.tasks j ∨ some j ∈ s.blinks ∨ some j ∈ got

theorem blinkResult_iff {idx j : Nat} {r : Except String Bool} :
    blinkResult idx r = some j ↔ idx = j ∧ r = .ok true := by
  constructor
  · intro h
    refine ⟨(blinkResult_some h).symm, ?_⟩
    unfold blinkResult at h
    split at h
    · rfl
    · cases h
  · rintro ⟨rfl, rfl⟩
    rfl

theorem Moves.answered {s s' : Selection D} {l : Label} {got : List (Option Nat)} {j : Nat}
    (hm : s.Moves l s') :
    s'.Answered (got ++ s.taken l) j ↔ s.Answered got j ∨ l = .blinked j (.ok true) := by
  unfold Answered
  cases hm with
  | @opened idx t ok ht hst =>
    have hnone : (if ok then Stage.registering else .notifying none true).answer = none := by
      cases ok <;> rfl
    simp only [setStage]
    rw [reports_set _ ht, reports_iff ht, hnone, hst]
    simp [taken, Stage.answer]
  | registered ht hst =>
    simp only [setStage]
    rw [reports_set _ ht, reports_iff ht, hst]
    simp [taken, Stage.answer]
  | @blinked idx t r ht hst =>
    simp only [setStage]
    rw [reports_set _ ht, reports_iff ht, hst]
    simp only [Stage.answer, blinkResult_iff, taken, List.append_nil, Label.blinked.injEq,
      reduceCtorEq, false_or]
    tauto
  | notified ht hst =>
    simp only [setStage]
    rw [reports_set _ ht, reports_iff ht, hst]
    simp only [Stage.answer, taken, List.append_nil, List.mem_append, List.mem_singleton,
      reduceCtorEq, false_or, or_false, eq_comm (a := some j)]
    tauto
  | collected hloop hs => simp [taken]
  | closed hloop hs => simp [taken]
  | touched hloop hb hd =>
    simp only [taken, hb, List.take_succ_cons, List.take_zero, List.mem_append, List.mem_cons,
      List.not_mem_nil, reduceCtorEq, or_false]
    tauto
  | untouched hloop hb => simp [taken, hb]
  | ended hloop hb hdone => simp [taken, hb]
  | stopped hloop hidx => simp [taken]

/-! ### What the function returns -/

/-- What the function has made of the messages that it has received. -/
structure Decides (devices : List D) (got : List (Option Nat)) (s : Selection D) : Prop where
  undecided : s.loop = .collecting ∨ s.loop = .waiting → ∀ msg ∈ got, msg = none
  idle : ∀ rest, s.loop = .stopping rest .idle →
    (∀ msg ∈ got, msg = none) ∧ s.blinks = [] ∧ ∀ t ∈ s.tasks, t.stage.running = false
  selected : ∀ rest d, s.loop = .stopping rest (.selected d) → ∃ idx earlier,
    got = earlier ++ [some idx] ∧ (∀ msg ∈ earlier, msg = none) ∧ devices[idx]? = some d
  notCancelled : ∀ rest, s.loop ≠ .stopping rest .cancelled

theorem decides_start (devices : List D) : Decides devices [] (start devices) :=
  ⟨fun _ => nofun, nofun, nofun, nofun⟩

/- No task goes on once the function has found that all have ended. -/
theorem Decides.setStage {devices : List D} {got : List (Option Nat)} {s : Selection D}
    (hd : Decides devices got s) {idx : Nat} {t : DeviceTask D} {stage : Stage}
    {setup : List (Nat × D)} {blinks : List (Option Nat)} (ht : s.tasks[idx]? = some t)
    (hrunning : t.stage.running = true) : Decides devices got
      { s.setStage idx t stage with setup := setup, blinks := blinks } where
  undecided := hd.undecided
  idle rest hloop := by
    have hdone := (hd.idle rest hloop).2.2 t (List.mem_of_getElem? ht)
    rw [hrunning] at hdone
    cases hdone
  selected := hd.selected
  notCancelled := hd.notCancelled

theorem Moves.decides {devices : List D} {got : List (Option Nat)} {s s' : Selection D} {l : Label}
    (hm : s.Moves l s') (hn : Named devices s) (hd : Decides devices got s) :
    Decides devices (got ++ s.taken l) s' := by
  cases hm with
  | opened ht hst =>
    simp only [taken, List.append_nil]
    exact hd.setStage ht (by rw [hst]; rfl)
  | registered ht hst =>
    simp only [taken, List.append_nil]
    exact hd.setStage ht (by rw [hst]; rfl)
  | blinked ht hst =>
    simp only [taken, List.append_nil]
    exact hd.setStage ht (by rw [hst]; rfl)
  | notified ht hst =>
    simp only [taken, List.append_nil]
    exact hd.setStage ht (by rw [hst]; rfl)
  | collected hloop hs =>
    simp only [taken, List.append_nil]
    refine ⟨hd.undecided, fun rest h => ?_, hd.selected, hd.notCancelled⟩
    rw [hloop] at h
    cases h
  | closed hloop hs =>
    simp only [taken, List.append_nil]
    exact ⟨fun _ => hd.undecided (Or.inl hloop), nofun, nofun, nofun⟩
  | @touched idx d rest hloop hb hlookup =>
    refine ⟨fun h => (by rcases h with h | h <;> cases h), nofun, fun rest' d' h => ?_, nofun⟩
    cases h
    refine ⟨idx, got, ?_, hd.undecided (Or.inr hloop), hn.channelMap idx d (mem_of_lookup hlookup)⟩
    rw [taken, hb]
    rfl
  | untouched hloop hb =>
    have hbefore := hd.undecided (Or.inr hloop)
    refine ⟨fun _ msg hmsg => ?_, fun rest h => ?_, fun rest d h => ?_, hd.notCancelled⟩
    · rw [taken, hb] at hmsg
      rcases List.mem_append.mp hmsg with hold | hnew
      · exact hbefore msg hold
      · exact List.mem_singleton.mp hnew
    · rw [hloop] at h
      cases h
    · rw [hloop] at h
      cases h
  | ended hloop hb hdone =>
    have hgot : got ++ s.taken .receive = got := by
      simp [taken, hb]
    rw [hgot]
    have hnone := hd.undecided (Or.inr hloop)
    exact ⟨fun _ => hnone, fun _ _ => ⟨hnone, hb, hdone⟩, nofun, nofun⟩
  | @stopped idx rest outcome hloop hidx =>
    simp only [taken, List.append_nil]
    refine ⟨fun h => (by rcases h with h | h <;> cases h), fun rest' h => ?_, fun rest' d h => ?_,
      fun rest' h => ?_⟩
    · cases h
      exact hd.idle rest hloop
    · cases h
      exact hd.selected rest d hloop
    · cases h
      exact hd.notCancelled rest hloop

/-- What holds after every run that nobody cancels. -/
structure Uncancelled (devices : List D) (run : List Label) (s : Selection D) : Prop where
  inv : s.Inv
  room : s.Room
  named : Named devices s
  answered : ∀ idx,
    s.Answered (received (start devices) run) idx ↔ Label.blinked idx (.ok true) ∈ run
  decides : Decides devices (received (start devices) run) s
  steps : run.length + s.stepsLeft ≤ 7 * devices.length + 2

theorem uncancelled_start (devices : List D) : Uncancelled devices [] (start devices) where
  inv := inv_start devices
  room := room_start devices
  named := named_start devices
  answered idx := by
    simp [Answered, Reports, start, received, Stage.answer]
  decides := decides_start devices
  steps := by
    rw [stepsLeft_start, List.length_nil]
    omega

theorem Uncancelled.step {devices : List D} {run : List Label} {s s' : Selection D} {l : Label}
    (hrun : Machine.exec Selection.step (start devices) run = some s)
    (hu : Uncancelled devices run s) (hl : l.isCancel = false) (h : s.step l = some s') :
    Uncancelled devices (run ++ [l]) s' := by
  have hm := step_moves hu.inv hu.room.live hl h
  have hgot := received_snoc hrun h
  have hless := hm.stepsLeft hu.room
  have hsteps := hu.steps
  refine ⟨step_inv h hu.inv, hm.room hu.room, hm.named hu.named, fun idx => ?_, ?_, ?_⟩
  · rw [hgot, hm.answered, hu.answered, List.mem_append, List.mem_singleton, eq_comm (a := l)]
  · rw [hgot]
    exact hm.decides hu.named hu.decides
  · rw [List.length_append, List.length_singleton]
    omega

theorem uncancelled_run {devices : List D} {run : List Label} {s : Selection D}
    (h : Machine.exec Selection.step (start devices) run = some s)
    (hrun : ∀ l ∈ run, l.isCancel = false) : Uncancelled devices run s :=
  Machine.exec_history (uncancelled_start devices)
    (fun _ _ _ _ hms hu hl h => hu.step hms hl h) (Machine.along_of_forall hrun) h

/-- The function returns the first device that it receives as touched, and if no device is touched
none. -/
theorem Uncancelled.result {devices : List D} {run : List Label} {s : Selection D}
    {outcome : Outcome D} (hu : Uncancelled devices run s) (h : s.result = some outcome) :
    (∃ idx d earlier, outcome = .selected d ∧ devices[idx]? = some d ∧
      received (start devices) run = earlier ++ [some idx] ∧ (∀ msg ∈ earlier, msg = none) ∧
      Label.blinked idx (.ok true) ∈ run) ∨
    outcome = .idle ∧ ∀ idx, Label.blinked idx (.ok true) ∉ run := by
  unfold Selection.result at h
  split at h
  · rename_i hloop
    cases h
    cases outcome with
    | idle =>
      obtain ⟨hgot, hblinks, hdone⟩ := hu.decides.idle [] hloop
      refine Or.inr ⟨rfl, fun idx htouched => ?_⟩
      rcases (hu.answered idx).mpr htouched with ⟨t, ht, hanswer⟩ | hblink | hreceived
      · have hended := hdone t ht
        cases hst : t.stage with
        | notifying res b =>
          rw [hst] at hended
          cases hended
        | _ =>
          rw [hst] at hanswer
          cases hanswer
      · rw [hblinks] at hblink
        cases hblink
      · cases hgot _ hreceived
    | selected d =>
      obtain ⟨idx, earlier, hgot, hearlier, hd⟩ := hu.decides.selected [] d hloop
      refine Or.inl ⟨idx, d, earlier, rfl, hd, hgot, hearlier, (hu.answered idx).mp ?_⟩
      refine Or.inr (Or.inr ?_)
      rw [hgot]
      exact List.mem_append_right _ (List.mem_singleton.mpr rfl)
    | cancelled => exact absurd hloop (hu.decides.notCancelled [])
  · cases h

/-- A selection never fails an `unwrap`, no task waits for room in a channel, the handles are
collected without an answer of the user, and the steps come to an end with a result. -/
structure Sound (devices : List D) (run : List Label) (s : Selection D) : Prop where
  loop : s.loop ≠ .panicked
  tasks : ∀ t ∈ s.tasks, t.stage ≠ .panicked
  registers : ∀ idx t, s.tasks[idx]? = some t → t.stage = .registering →
    (s.step (.register idx)).isSome = true
  notifies : ∀ idx t res b, s.tasks[idx]? = some t → t.stage = .notifying res b →
    (s.step (.notify idx)).isSome = true
  collects : s.loop = .collecting →
    ∃ l, l.isCancel = false ∧ l.isBlinked = false ∧ (s.step l).isSome = true
  goesOn : s.result = none → ∃ l, l.isCancel = false ∧ (s.step l).isSome = true
  ends : run.length ≤ 7 * devices.length + 2

theorem Uncancelled.sound {devices : List D} {run : List Label} {s : Selection D}
    (hu : Uncancelled devices run s) : Sound devices run s where
  loop := hu.inv.noPanic
  tasks := hu.room.unpanicked
  registers _ _ ht hst := hu.room.register_enabled ht hst
  notifies _ _ _ _ ht hst := hu.room.notify_enabled ht hst
  collects := hu.room.collecting_enabled
  goesOn := hu.room.enabled
  ends := Nat.le_trans (Nat.le_add_right _ _) hu.steps

end Selection

/-! ### The selections of the loop -/

namespace Process

variable {S M D F : Type} (h : Handler S M D F) (c : Ceremony)

/-- No listing of devices is empty, and a selection that is not cancelled has run from the devices
of the state without being cancelled. -/
structure Selecting (s : Process S M D) : Prop where
  devices : h.phase s.state ≠ .selectingDevice []
  asleep : ∀ st, s.pending = .sleeping (.ok st) → h.phase st ≠ .selectingDevice []
  runs : s.pending.selects = true → s.cancelled = false → ∃ devices run,
    h.phase s.state = .selectingDevice devices ∧ (∀ l ∈ run, l.isCancel = false) ∧
      Machine.exec Selection.step (.start devices) run = some s.selection

theorem init_selecting : Selecting h (init h) := by
  refine ⟨?_, fun st hst => ?_, fun hselects => ?_⟩
  · show h.phase h.idle ≠ _
    rw [h.phase_idle]
    nofun
  · cases hst
  · cases hselects

theorem done_selecting {s : Process S M D} {result : Except CredentialServiceError Unit}
    (hdevices : h.phase s.state ≠ .selectingDevice []) (hp : s.pending = .done result) :
    Selecting h s := by
  refine ⟨hdevices, fun st hst => ?_, fun hselects => ?_⟩
  · rw [hp] at hst
    cases hst
  · rw [hp] at hselects
    cases hselects

theorem again_selecting {s : Process S M D} (hdevices : h.phase s.state ≠ .selectingDevice []) :
    Selecting h (again h s) := by
  unfold again
  split
  · exact ⟨hdevices, nofun, nofun⟩
  · exact ⟨hdevices, nofun, nofun⟩
  · exact ⟨hdevices, nofun, nofun⟩
  · exact ⟨hdevices, nofun, nofun⟩
  · rename_i d ds hp
    exact ⟨hdevices, nofun, fun _ _ => ⟨d :: ds, [], hp, nofun, rfl⟩⟩
  · exact ⟨hdevices, nofun, nofun⟩
  · exact ⟨hdevices, nofun, nofun⟩
  · exact ⟨hdevices, nofun, nofun⟩

theorem settle_selecting {s : Process S M D} {next : Except CredentialServiceError S}
    (hdevices : h.phase s.state ≠ .selectingDevice [])
    (hnext : ∀ st, next = .ok st → h.phase st ≠ .selectingDevice []) :
    Selecting h (settle h s next) := by
  have henter : ∀ st, h.phase st ≠ .selectingDevice [] → Selecting h (enter h s st) := by
    intro st hst
    unfold enter
    split
    · exact ⟨hst, nofun, nofun⟩
    · exact again_selecting h hst
  unfold settle
  split
  · exact ⟨hdevices, nofun, nofun⟩
  · rename_i err _
    exact henter _ (by rw [h.phase_failed]; nofun)
  · rename_i st
    exact henter st (hnext st rfl)

theorem listed_devices (found : F) : h.phase (h.listed found).1 ≠ .selectingDevice [] := by
  intro hnil
  rcases h.phase_listed found with hp | hp | ⟨ds, hne, hp⟩
  · rw [hp] at hnil
    cases hnil
  · rw [hp] at hnil
    cases hnil
  · rw [hp] at hnil
    injection hnil with hnil
    exact hne hnil

theorem processIdleWaiting_devices (failures : Nat) {prev : S} (result : Except String F)
    (hprev : h.phase prev ≠ .selectingDevice []) (st : S)
    (hst : (h.processIdleWaiting failures prev result).next = .ok st) :
    h.phase st ≠ .selectingDevice [] := by
  cases result with
  | ok found =>
    cases hst
    exact listed_devices h found
  | error err =>
    unfold Handler.processIdleWaiting at hst
    simp only at hst
    split at hst
    · cases hst
    · cases hst
      exact hprev

/- The function moves on, or a task of a device; only a cancellation is none of the run. -/
theorem select_selecting {s t : Process S M D} {l : Selection.Label} (hs : Selecting h s)
    (hstep : select s l = some t) : Selecting h t := by
  unfold select at hstep
  split at hstep
  · rename_i henabled
    obtain ⟨sel, hsel, rfl⟩ := Option.map_eq_some_iff.mp hstep
    split
    · exact ⟨hs.devices, nofun, nofun⟩
    · refine ⟨hs.devices, hs.asleep, fun hselects hcancelled => ?_⟩
      obtain ⟨devices, run, hp, hrun, hexec⟩ := hs.runs hselects hcancelled
      have hl : l.isCancel = false := by
        cases l with
        | cancel =>
          have hno : s.cancelled = false := hcancelled
          rw [selectEnabled, hno, Bool.and_false] at henabled
          cases henabled
        | _ => rfl
      refine ⟨devices, run ++ [l], hp, fun k hk => ?_,
        Machine.exec_append_some hexec (Machine.exec_single hsel)⟩
      rcases List.mem_append.mp hk with hold | hnew
      · exact hrun k hold
      · rw [List.mem_singleton.mp hnew]
        exact hl
  · cases hstep

theorem outcome_devices (outcome : Selection.Outcome D) (st : S)
    (hst : ofOutcome h outcome = .ok st) : h.phase st ≠ .selectingDevice [] := by
  cases outcome with
  | idle =>
    cases hst
    rw [h.phase_idle]
    nofun
  | selected d =>
    cases hst
    rw [h.phase_connected]
    nofun
  | cancelled => cases hst

theorem choice_devices (response : GetAssertionResponse) (reply : Option String) (st : S)
    (hst : h.processSelectCredential response reply = .ok st) :
    h.phase st ≠ .selectingDevice [] := by
  rcases h.select_cases response reply with ⟨st', hst', hp⟩ | ⟨err, herr, -⟩
  · rw [hst] at hst'
    cases hst'
    rw [hp]
    nofun
  · rw [hst] at herr
    cases herr

theorem step_selecting {s t : Process S M D} {l : Label F}
    (hinteract : ∀ tx msg st, h.processUserInteraction tx msg = .ok st →
      h.phase st ≠ .selectingDevice [])
    (hs : Selecting h s) (hstep : step h c s l = some t) : Selecting h t := by
  cases hloop : l.isLoop with
  | false =>
    obtain ⟨hsame, hcancel⟩ := step_beside h c hloop hstep
    refine ⟨?_, fun st hst => hs.asleep st (by rw [← hsame.pending, hst]),
      fun hselects hcancelled => ?_⟩
    · rw [hsame.state]
      exact hs.devices
    · rw [hsame.pending] at hselects
      rw [hsame.state, hsame.selection]
      exact hs.runs hselects (hcancel hcancelled)
  | true =>
    cases loop_moves h c hloop hstep with
    | @sleeps result hp =>
      have hnext := processIdleWaiting_devices h s.failures result hs.devices
      refine ⟨hs.devices, fun st hst => ?_, fun hselects => ?_⟩
      · injection hst with hst
        exact hnext st hst
      · cases hselects
    | @listed result hp =>
      exact settle_selecting h hs.devices
        (processIdleWaiting_devices h s.failures result hs.devices)
    | slept hp =>
      exact settle_selecting h hs.devices fun st hst => hs.asleep st (by rw [hp, hst])
    | select hselect => exact select_selecting h hs hselect
    | @selected outcome hp hresult =>
      exact settle_selecting h hs.devices (outcome_devices h outcome)
    | interact hp hsignals => exact settle_selecting h hs.devices (hinteract _ _)
    | choose hp hcreds => exact settle_selecting h hs.devices (choice_devices h _ _)
    | emitted hp hconsumer => exact again_selecting h hs.devices
    | closed hp hconsumer => exact done_selecting h hs.devices rfl
    | cancelled hcancel =>
      unfold cancelLoop at hcancel
      split at hcancel
      · cases hcancel
        exact done_selecting h hs.devices rfl
      · cases hcancel

end Process

namespace Usb

theorem interact_devices (tx : ReplyTx) (msg : Option (Except CredentialServiceError UsbUvMessage))
    (st : UsbStateInternal) (h : processUserInteraction tx msg = .ok st) :
    phase st ≠ .selectingDevice [] := by
  unfold processUserInteraction at h
  split at h
  · cases h
    nofun
  · cases h
    nofun
  · cases h
    nofun
  · cases h
    nofun
  · cases h
    nofun
  · split at h
    · cases h
      nofun
    · cases h
      nofun
  · cases h
  · cases h

theorem phase_selectingDevice {st : UsbStateInternal} {devices : List HidDevice}
    (h : phase st = .selectingDevice devices) : st = .selectingDevice devices := by
  cases st <;> cases h
  rfl

theorem selecting_reachable (credHash : Bytes → String) (c : Ceremony)
    {s : Process UsbStateInternal UsbUvMessage HidDevice}
    (hreach : Machine.Reaches (Process.step (handler credHash) c)
      (Process.init (handler credHash)) s) : Process.Selecting (handler credHash) s :=
  Machine.reaches_invariant
    (fun _ _ _ hs hstep => Process.step_selecting (handler credHash) c interact_devices hs hstep)
    (Process.init_selecting (handler credHash)) hreach

/-- In every state of the USB handler that selects a device there is a device, and what the loop
awaits is a run of the selection of the devices. Every such run that is not cancelled is sound, and
it returns the first device that was received as touched, or none if no device was touched. -/
theorem selection_ends (credHash : Bytes → String) (c : Ceremony)
    (s : Process UsbStateInternal UsbUvMessage HidDevice)
    (hreach : Machine.Reaches (Process.step (handler credHash) c)
      (Process.init (handler credHash)) s) :
    (s.pending.selects = true → s.cancelled = false → ∃ devices run,
      s.state = .selectingDevice devices ∧ (∀ l ∈ run, Selection.Label.isCancel l = false) ∧
        Machine.exec Selection.step (.start devices) run = some s.selection) ∧
    ∀ devices, s.state = .selectingDevice devices → devices ≠ [] ∧
      ∀ run sel, Machine.exec Selection.step (.start devices) run = some sel →
        (∀ l ∈ run, Selection.Label.isCancel l = false) →
        Selection.Sound devices run sel ∧
        ∀ outcome, sel.result = some outcome →
          (∃ idx d earlier,
            Process.ofOutcome (handler credHash) outcome = .ok (.connected d) ∧
            devices[idx]? = some d ∧
            Selection.received (.start devices) run = earlier ++ [some idx] ∧
            (∀ msg ∈ earlier, msg = none) ∧ Selection.Label.blinked idx (.ok true) ∈ run) ∨
          Process.ofOutcome (handler credHash) outcome = .ok .idle ∧
            ∀ idx, Selection.Label.blinked idx (.ok true) ∉ run := by
  have hs := selecting_reachable credHash c hreach
  refine ⟨fun hselects hcancelled => ?_, fun devices hstate => ⟨fun hnil => ?_, ?_⟩⟩
  · obtain ⟨devices, run, hp, hrun, hexec⟩ := hs.runs hselects hcancelled
    exact ⟨devices, run, phase_selectingDevice hp, hrun, hexec⟩
  · apply hs.devices
    rw [hstate, hnil]
    rfl
  · intro run sel hexec hrun
    have hu := Selection.uncancelled_run hexec hrun
    refine ⟨hu.sound, fun outcome hresult => ?_⟩
    rcases hu.result hresult with ⟨idx, d, earlier, rfl, hd, hgot, hearlier, htouched⟩ |
      ⟨rfl, hnone⟩
    · exact Or.inl ⟨idx, d, earlier, rfl, hd, hgot, hearlier, htouched⟩
    · exact Or.inr ⟨rfl, hnone⟩

/- One device is touched, the other one cannot be opened. -/
def firstTouched : List Selection.Label :=
  [.opened 0 true, .register 0, .opened 1 false, .collect, .notify 1, .collect,
    .blinked 0 (.ok true), .notify 0, .receive, .receive]

theorem selection_ends_sample : ∃ sel : Selection HidDevice,
    Machine.exec Selection.step (.start [⟨"/dev/hidraw0"⟩, ⟨"/dev/hidraw1"⟩]) firstTouched =
      some sel ∧
    sel.result = some (.selected ⟨"/dev/hidraw0"⟩) ∧
    Selection.Sound [⟨"/dev/hidraw0"⟩, ⟨"/dev/hidraw1"⟩] firstTouched sel := by
  have hreach : Machine.exec (Process.step (handler fun _ => "") sampleCeremony)
      (Process.init (handler fun _ => ""))
      [.listed (.ok [⟨"/dev/hidraw0"⟩, ⟨"/dev/hidraw1"⟩]), .emit] = some _ := rfl
  obtain ⟨-, hends⟩ := selection_ends (fun _ => "") sampleCeremony _ ⟨_, hreach⟩
  obtain ⟨-, hruns⟩ := hends [⟨"/dev/hidraw0"⟩, ⟨"/dev/hidraw1"⟩] rfl
  exact ⟨_, rfl, rfl, (hruns firstTouched _ rfl (by decide)).1⟩

end Usb

end Credentialsd
