import Credentialsd.Lib.Machine

/-!
# Selecting a device by touch (`usb.rs:81-174`)

`process_selecting_device` spawns a task for each listed device. A task opens a
channel to its device, hands the loop a cancel handle over the setup channel,
lets the device blink and reports over the blinking channel whether the user
touched it. The loop first collects the handles until no task can send one, then
waits for the first touch and stops the other devices. Both channels have room
for one message of each task.
-/

namespace Credentialsd

namespace Selection

/-- Where the task of a device stands. `setup` of `notifying`: a task that could not open its
channel keeps its sender of the setup channel until it ends. -/
inductive Stage where
  | opening
  | registering
  | blinking
  | notifying (res : Option Nat) (setup : Bool)
  | ended
  | panicked
  deriving Repr, DecidableEq

def Stage.holdsSetup : Stage → Bool
  | .opening => true
  | .registering => true
  | .notifying _ setup => setup
  | _ => false

def Stage.running : Stage → Bool
  | .ended => false
  | .panicked => false
  | _ => true

structure DeviceTask (D : Type) where
  device : D
  stage : Stage
  deriving Repr, DecidableEq

inductive Outcome (D : Type) where
  | idle
  | selected (device : D)
  | cancelled
  deriving Repr, DecidableEq

/-- Where the function itself stands; `stopping` calls `cancel_ongoing_operation` on the handles
that are left, `gone` is after its return and after its future was dropped. -/
inductive Loop (D : Type) where
  | collecting
  | waiting
  | stopping (rest : List Nat) (outcome : Outcome D)
  | panicked
  | gone
  deriving Repr, DecidableEq

def Loop.receives {D : Type} : Loop D → Bool
  | .panicked => false
  | .gone => false
  | _ => true

def Loop.hasPanicked {D : Type} : Loop D → Bool
  | .panicked => true
  | _ => false

end Selection

structure Selection (D : Type) where
  tasks : List (Selection.DeviceTask D)
  setup : List (Nat × D)
  blinks : List (Option Nat)
  channelMap : List (Nat × D)
  loop : Selection.Loop D
  stopped : List Nat
  deriving Repr, DecidableEq

namespace Selection

inductive Label where
  | opened (idx : Nat) (ok : Bool)
  | register (idx : Nat)
  | blinked (idx : Nat) (wasSelected : Except String Bool)
  | notify (idx : Nat)
  | collect
  | receive
  | stop (idx : Nat)
  | cancel
  deriving Repr

variable {D : Type}

def notStarted : Selection D := ⟨[], [], [], [], .gone, []⟩

def start (devices : List D) : Selection D :=
  ⟨devices.map fun d => ⟨d, .opening⟩, [], [], [], .collecting, []⟩

def expectedAnswers (s : Selection D) : Nat := s.tasks.length

def setStage (s : Selection D) (idx : Nat) (t : DeviceTask D) (stage : Stage) : Selection D :=
  { s with tasks := s.tasks.set idx { t with stage := stage } }

/- What a task reports of the answer of `blink_and_wait_for_user_presence`. -/
def blinkResult (idx : Nat) : Except String Bool → Option Nat
  | .ok true => some idx
  | _ => none

def openChannel (s : Selection D) (idx : Nat) (t : DeviceTask D) (ok : Bool) :
    Option (Selection D) :=
  match t.stage with
  | .opening => some (s.setStage idx t (if ok then .registering else .notifying none true))
  | _ => none

def register (s : Selection D) (idx : Nat) (t : DeviceTask D) : Option (Selection D) :=
  match t.stage with
  | .registering =>
    if s.loop.receives then
      if s.setup.length < s.expectedAnswers then
        some { s.setStage idx t .blinking with setup := s.setup ++ [(idx, t.device)] }
      else none
    -- the `unwrap` of the `send`
    else some (s.setStage idx t .panicked)
  | _ => none

def blink (s : Selection D) (idx : Nat) (t : DeviceTask D) (wasSelected : Except String Bool) :
    Option (Selection D) :=
  match t.stage with
  | .blinking => some (s.setStage idx t (.notifying (blinkResult idx wasSelected) false))
  | _ => none

def notify (s : Selection D) (idx : Nat) (t : DeviceTask D) : Option (Selection D) :=
  match t.stage with
  | .notifying res _ =>
    if s.loop.receives then
      if s.blinks.length < s.expectedAnswers then
        some { s.setStage idx t .ended with blinks := s.blinks ++ [res] }
      else none
    else some (s.setStage idx t .ended)
  | _ => none

/-- `setup_rx.recv()`; the channel is closed once no task can send a handle. -/
def collect (s : Selection D) : Option (Selection D) :=
  match s.loop with
  | .collecting =>
    match s.setup with
    | (idx, device) :: rest =>
      some { s with setup := rest, channelMap := (idx, device) :: s.channelMap }
    | [] =>
      if s.tasks.any fun t => t.stage.holdsSetup then none
      else some { s with loop := .waiting }
  | _ => none

/-- `blinking_rx.recv()`. -/
def receive (s : Selection D) : Option (Selection D) :=
  match s.loop with
  | .waiting =>
    match s.blinks with
    | some idx :: rest =>
      match s.channelMap.lookup idx with
      | some device =>
        let others := (s.channelMap.map Prod.fst).filter (· != idx)
        some { s with blinks := rest, loop := .stopping others (.selected device) }
      -- the `unwrap` of the `remove`
      | none => some { s with blinks := rest, loop := .panicked }
    | none :: rest => some { s with blinks := rest }
    | [] =>
      if s.tasks.any fun t => t.stage.running then none
      else some { s with loop := .stopping [] .idle }
  | _ => none

def stop (s : Selection D) (idx : Nat) : Option (Selection D) :=
  match s.loop with
  | .stopping rest outcome =>
    if idx ∈ rest then
      some { s with stopped := idx :: s.stopped, loop := .stopping (rest.erase idx) outcome }
    else none
  | _ => none

def cancel (s : Selection D) : Option (Selection D) :=
  match s.loop with
  | .waiting => some { s with loop := .stopping (s.channelMap.map Prod.fst) .cancelled }
  | _ => none

def step (s : Selection D) : Label → Option (Selection D)
  | .opened idx ok => s.tasks[idx]?.bind fun t => s.openChannel idx t ok
  | .register idx => s.tasks[idx]?.bind fun t => s.register idx t
  | .blinked idx wasSelected => s.tasks[idx]?.bind fun t => s.blink idx t wasSelected
  | .notify idx => s.tasks[idx]?.bind fun t => s.notify idx t
  | .collect => s.collect
  | .receive => s.receive
  | .stop idx => s.stop idx
  | .cancel => s.cancel

/-- What the function returns, once all devices are stopped that had to be. -/
def result (s : Selection D) : Option (Outcome D) :=
  match s.loop with
  | .stopping [] outcome => some outcome
  | _ => none

def leave (s : Selection D) : Selection D := { s with loop := .gone }

/-- The function is suspended where the request's token can drop it: it awaits another handle, or
the call that stops a device. While it awaits an answer it looks at the token itself. -/
def suspended (s : Selection D) : Bool :=
  match s.loop with
  | .collecting => s.setup.isEmpty && s.tasks.any fun t => t.stage.holdsSetup
  | .stopping _ _ => !s.stopped.isEmpty
  | _ => false

/-! ### What a task can do -/

structure TaskMove (s : Selection D) (idx : Nat) (t : DeviceTask D) (s' : Selection D) : Prop where
  tasks : ∃ stage, s'.tasks = s.tasks.set idx { t with stage := stage } ∧
    (stage.holdsSetup = true → t.stage.holdsSetup = true) ∧
    (stage = .blinking → (idx, t.device) ∈ s'.setup) ∧
    (∀ j b, stage = .notifying (some j) b → j = idx ∧ t.stage = .blinking)
  setup : ∃ new, s'.setup = s.setup ++ new ∧ (new = [] ∨ t.stage.holdsSetup = true)
  blinks : ∀ j, some j ∈ s'.blinks → some j ∈ s.blinks ∨ ∃ b, t.stage = .notifying (some j) b
  channelMap : s'.channelMap = s.channelMap
  loop : s'.loop = s.loop

/-- A step that only brings the task to another stage. -/
theorem setStage_move {s : Selection D} {idx : Nat} {t : DeviceTask D} {stage : Stage}
    (hholds : stage.holdsSetup = true → t.stage.holdsSetup = true) (hblink : stage ≠ .blinking)
    (hnotify : ∀ j b, stage = .notifying (some j) b → j = idx ∧ t.stage = .blinking) :
    s.TaskMove idx t (s.setStage idx t stage) where
  tasks := ⟨stage, rfl, hholds, fun h => absurd h hblink, hnotify⟩
  setup := ⟨[], (List.append_nil _).symm, Or.inl rfl⟩
  blinks _ hj := Or.inl hj
  channelMap := rfl
  loop := rfl

theorem openChannel_move {s s' : Selection D} {idx : Nat} {t : DeviceTask D} {ok : Bool}
    (h : s.openChannel idx t ok = some s') : s.TaskMove idx t s' := by
  unfold openChannel at h
  split at h
  · rename_i hst
    cases h
    refine setStage_move (fun _ => by rw [hst]; rfl) ?_ ?_
    · cases ok <;> exact nofun
    · cases ok <;> exact nofun
  · cases h

theorem register_move {s s' : Selection D} {idx : Nat} {t : DeviceTask D}
    (h : s.register idx t = some s') : s.TaskMove idx t s' := by
  unfold register at h
  split at h
  · rename_i hst
    have hholds : t.stage.holdsSetup = true := by rw [hst]; rfl
    split at h
    · split at h
      · cases h
        have hnew : (idx, t.device) ∈ s.setup ++ [(idx, t.device)] :=
          List.mem_append_right _ (List.mem_singleton.mpr rfl)
        exact ⟨⟨.blinking, rfl, nofun, fun _ => hnew, nofun⟩, ⟨_, rfl, Or.inr hholds⟩,
          fun j hj => Or.inl hj, rfl, rfl⟩
      · cases h
    · cases h
      exact setStage_move nofun nofun nofun
  · cases h

theorem blinkResult_some {idx j : Nat} {r : Except String Bool} (h : blinkResult idx r = some j) :
    j = idx := by
  unfold blinkResult at h
  split at h
  · cases h
    rfl
  · cases h

theorem blink_move {s s' : Selection D} {idx : Nat} {t : DeviceTask D} {r : Except String Bool}
    (h : s.blink idx t r = some s') : s.TaskMove idx t s' := by
  unfold blink at h
  split at h
  · rename_i hst
    cases h
    refine setStage_move nofun nofun fun j b hj => ⟨?_, hst⟩
    injection hj with hres _
    exact blinkResult_some hres
  · cases h

theorem notify_move {s s' : Selection D} {idx : Nat} {t : DeviceTask D}
    (h : s.notify idx t = some s') : s.TaskMove idx t s' := by
  unfold notify at h
  split at h
  · rename_i res b hst
    split at h
    · split at h
      · cases h
        refine ⟨⟨.ended, rfl, nofun, nofun, nofun⟩, ⟨[], (List.append_nil _).symm, Or.inl rfl⟩,
          fun j hj => ?_, rfl, rfl⟩
        rcases List.mem_append.mp hj with hold | hnew
        · exact Or.inl hold
        · rw [← List.mem_singleton.mp hnew] at hst
          exact Or.inr ⟨b, hst⟩
      · cases h
    · cases h
      exact setStage_move nofun nofun nofun
  · cases h

/-- A step is one of a task or one of the function itself. -/
theorem step_cases {s s' : Selection D} {l : Label} (h : s.step l = some s') :
    (∃ idx t, s.tasks[idx]? = some t ∧ s.TaskMove idx t s') ∨ s.collect = some s' ∨
      s.receive = some s' ∨ (∃ idx, s.stop idx = some s') ∨ l = .cancel ∧ s.cancel = some s' := by
  cases l with
  | opened idx ok =>
    obtain ⟨t, ht, h⟩ := Option.bind_eq_some_iff.mp h
    exact Or.inl ⟨idx, t, ht, openChannel_move h⟩
  | register idx =>
    obtain ⟨t, ht, h⟩ := Option.bind_eq_some_iff.mp h
    exact Or.inl ⟨idx, t, ht, register_move h⟩
  | blinked idx wasSelected =>
    obtain ⟨t, ht, h⟩ := Option.bind_eq_some_iff.mp h
    exact Or.inl ⟨idx, t, ht, blink_move h⟩
  | notify idx =>
    obtain ⟨t, ht, h⟩ := Option.bind_eq_some_iff.mp h
    exact Or.inl ⟨idx, t, ht, notify_move h⟩
  | collect => exact Or.inr (Or.inl h)
  | receive => exact Or.inr (Or.inr (Or.inl h))
  | stop idx => exact Or.inr (Or.inr (Or.inr (Or.inl ⟨idx, h⟩)))
  | cancel => exact Or.inr (Or.inr (Or.inr (Or.inr ⟨rfl, h⟩)))

/- Once the function has returned, only tasks of devices move. -/
theorem step_gone {s s' : Selection D} {l : Label} (hgone : s.loop = .gone)
    (h : s.step l = some s') : s'.loop = .gone := by
  rcases step_cases h with ⟨idx, t, ht, hm⟩ | h | h | ⟨idx, h⟩ | ⟨-, h⟩
  · rw [hm.loop, hgone]
  · simp only [collect, hgone] at h
    cases h
  · simp only [receive, hgone] at h
    cases h
  · simp only [stop, hgone] at h
    cases h
  · simp only [cancel, hgone] at h
    cases h

/-! ### Every answer comes from a registered device -/

/-- The cancel handle of the device is in the setup channel or in the map. -/
def Registered (s : Selection D) (idx : Nat) : Prop :=
  (∃ d, (idx, d) ∈ s.setup) ∨ ∃ d, (idx, d) ∈ s.channelMap

/-- The device may still be reported as touched. -/
def MayAnswer (s : Selection D) (idx : Nat) : Prop :=
  (∃ t, s.tasks[idx]? = some t ∧ t.stage = .blinking) ∨
  (∃ t b, t ∈ s.tasks ∧ t.stage = .notifying (some idx) b) ∨
  some idx ∈ s.blinks

structure Inv (s : Selection D) : Prop where
  registered : ∀ idx, s.MayAnswer idx → s.Registered idx
  collected : s.loop = .waiting → s.setup = [] ∧ ∀ t ∈ s.tasks, t.stage.holdsSetup = false
  noPanic : s.loop ≠ .panicked

theorem TaskMove.registered {s s' : Selection D} {idx : Nat} {t : DeviceTask D}
    (hm : s.TaskMove idx t s') {j : Nat} (h : s.Registered j) : s'.Registered j := by
  obtain ⟨new, hsetup, -⟩ := hm.setup
  rcases h with ⟨d, hd⟩ | ⟨d, hd⟩
  · exact Or.inl ⟨d, by rw [hsetup]; exact List.mem_append_left _ hd⟩
  · exact Or.inr ⟨d, by rw [hm.channelMap]; exact hd⟩

/-- A device may be reported as touched only if it might have been before, or if it has registered
itself by this step. -/
theorem TaskMove.mayAnswer {s s' : Selection D} {idx : Nat} {t : DeviceTask D}
    (hm : s.TaskMove idx t s') (ht : s.tasks[idx]? = some t) {j : Nat} (h : s'.MayAnswer j) :
    s.MayAnswer j ∨ s'.Registered j := by
  obtain ⟨stage, htasks, -, hblink, hnotify⟩ := hm.tasks
  rcases h with ⟨u, hu, hst⟩ | ⟨u, b, hu, hst⟩ | hj
  · rw [htasks, List.getElem?_set] at hu
    split at hu
    · rename_i hidx
      split at hu
      · cases hu
        rw [← hidx]
        exact Or.inr (Or.inl ⟨_, hblink hst⟩)
      · cases hu
    · exact Or.inl (Or.inl ⟨u, hu, hst⟩)
  · rw [htasks] at hu
    rcases List.mem_or_eq_of_mem_set hu with hold | rfl
    · exact Or.inl (Or.inr (Or.inl ⟨u, b, hold, hst⟩))
    · obtain ⟨rfl, hblinking⟩ := hnotify j b hst
      exact Or.inl (Or.inl ⟨t, ht, hblinking⟩)
  · rcases hm.blinks j hj with hold | ⟨b, hst⟩
    · exact Or.inl (Or.inr (Or.inr hold))
    · exact Or.inl (Or.inr (Or.inl ⟨t, b, List.mem_of_getElem? ht, hst⟩))

theorem TaskMove.inv {s s' : Selection D} {idx : Nat} {t : DeviceTask D}
    (hm : s.TaskMove idx t s') (ht : s.tasks[idx]? = some t) (hi : s.Inv) : s'.Inv := by
  refine ⟨fun j hj => ?_, fun hw => ?_, by rw [hm.loop]; exact hi.noPanic⟩
  · rcases hm.mayAnswer ht hj with hold | hnew
    · exact hm.registered (hi.registered j hold)
    · exact hnew
  · rw [hm.loop] at hw
    obtain ⟨hsetup, htasks⟩ := hi.collected hw
    have htask := htasks t (List.mem_of_getElem? ht)
    constructor
    · obtain ⟨new, hnew, hwhy⟩ := hm.setup
      rw [hnew, hsetup, hwhy.resolve_right (by rw [htask]; nofun), List.append_nil]
    · intro u hu
      obtain ⟨stage, hset, hholds, -, -⟩ := hm.tasks
      rw [hset] at hu
      rcases List.mem_or_eq_of_mem_set hu with hold | rfl
      · exact htasks u hold
      · exact Bool.eq_false_iff.mpr fun hyes => by rw [hholds hyes] at htask; cases htask

theorem inv_start (devices : List D) : (start devices).Inv := by
  refine ⟨fun idx h => ?_, nofun, nofun⟩
  have hopening : ∀ t ∈ (start devices).tasks, t.stage = .opening := by
    intro t ht
    obtain ⟨d, -, rfl⟩ := List.mem_map.mp ht
    rfl
  rcases h with ⟨t, ht, hst⟩ | ⟨t, b, ht, hst⟩ | h
  · rw [hopening t (List.mem_of_getElem? ht)] at hst
    cases hst
  · rw [hopening t ht] at hst
    cases hst
  · cases h

theorem collect_inv {s s' : Selection D} (h : s.collect = some s') (hi : s.Inv) : s'.Inv := by
  unfold collect at h
  split at h
  · rename_i hloop
    split at h
    · rename_i idx device rest hsetup
      cases h
      refine ⟨fun j hj => ?_, fun hw => ?_, hi.noPanic⟩
      · rcases hi.registered j hj with ⟨d, hd⟩ | ⟨d, hd⟩
        · rw [hsetup] at hd
          rcases List.mem_cons.mp hd with hhead | htail
          · cases hhead
            exact Or.inr ⟨_, List.mem_cons_self ..⟩
          · exact Or.inl ⟨d, htail⟩
        · exact Or.inr ⟨d, List.mem_cons_of_mem _ hd⟩
      · rw [hloop] at hw
        cases hw
    · rename_i hsetup
      split at h
      · cases h
      · rename_i hany
        cases h
        refine ⟨hi.registered, fun _ => ⟨hsetup, fun t ht => ?_⟩, nofun⟩
        exact Bool.eq_false_iff.mpr fun hyes => hany (List.any_eq_true.mpr ⟨t, ht, hyes⟩)
  · cases h

theorem lookup_isSome {m : List (Nat × D)} {idx : Nat} {d : D} (h : (idx, d) ∈ m) :
    ∃ device, m.lookup idx = some device := by
  cases hl : m.lookup idx with
  | some device => exact ⟨device, rfl⟩
  | none =>
    have hne := List.lookup_eq_none_iff.mp hl (idx, d) h
    simp at hne

theorem receive_inv {s s' : Selection D} (h : s.receive = some s') (hi : s.Inv) : s'.Inv := by
  unfold receive at h
  split at h
  · rename_i hloop
    obtain ⟨hsetup, htasks⟩ := hi.collected hloop
    have hfewer : ∀ {x : Option Nat} {rest : List (Option Nat)}, s.blinks = x :: rest →
        ∀ loop j, MayAnswer { s with blinks := rest, loop := loop } j → s.Registered j := by
      intro x rest hb loop j hj
      refine hi.registered j (hj.imp id (Or.imp id fun hmem => ?_))
      rw [hb]
      exact List.mem_cons_of_mem _ hmem
    split at h
    · rename_i idx rest hb
      split at h
      · cases h
        exact ⟨fun j hj => hfewer hb _ j hj, nofun, nofun⟩
      · rename_i hlookup
        -- the touched device has registered, so the `remove` finds it
        have hreg := hi.registered idx
          (Or.inr (Or.inr (by rw [hb]; exact List.mem_cons_self ..)))
        rcases hreg with ⟨d, hd⟩ | ⟨d, hd⟩
        · rw [hsetup] at hd
          cases hd
        · obtain ⟨device, hdevice⟩ := lookup_isSome hd
          rw [hlookup] at hdevice
          cases hdevice
    · rename_i rest hb
      cases h
      exact ⟨fun j hj => hfewer hb s.loop j hj, fun _ => ⟨hsetup, htasks⟩, hi.noPanic⟩
    · split at h
      · cases h
      · cases h
        exact ⟨hi.registered, nofun, nofun⟩
  · cases h

theorem stop_inv {s s' : Selection D} {idx : Nat} (h : s.stop idx = some s') (hi : s.Inv) :
    s'.Inv := by
  unfold stop at h
  split at h
  · split at h
    · cases h
      exact ⟨hi.registered, nofun, nofun⟩
    · cases h
  · cases h

theorem cancel_inv {s s' : Selection D} (h : s.cancel = some s') (hi : s.Inv) : s'.Inv := by
  unfold cancel at h
  split at h
  · cases h
    exact ⟨hi.registered, nofun, nofun⟩
  · cases h

theorem step_inv {s s' : Selection D} {l : Label} (h : s.step l = some s') (hi : s.Inv) :
    s'.Inv := by
  rcases step_cases h with ⟨idx, t, ht, hm⟩ | h | h | ⟨idx, h⟩ | ⟨-, h⟩
  · exact hm.inv ht hi
  · exact collect_inv h hi
  · exact receive_inv h hi
  · exact stop_inv h hi
  · exact cancel_inv h hi

/-! ### The cancelled outcome -/

def WasCancelled (s : Selection D) : Prop := ∃ rest, s.loop = .stopping rest .cancelled

theorem collect_wasCancelled {s s' : Selection D} (h : s.collect = some s')
    (hc : s'.WasCancelled) : s.WasCancelled := by
  obtain ⟨rest, hrest⟩ := hc
  unfold collect at h
  split at h
  · split at h
    · cases h
      exact ⟨rest, hrest⟩
    · split at h
      · cases h
      · cases h
        cases hrest
  · cases h

theorem receive_wasCancelled {s s' : Selection D} (h : s.receive = some s')
    (hc : s'.WasCancelled) : s.WasCancelled := by
  obtain ⟨rest, hrest⟩ := hc
  unfold receive at h
  split at h
  · split at h
    · split at h
      · cases h
        cases hrest
      · cases h
        cases hrest
    · cases h
      exact ⟨rest, hrest⟩
    · split at h
      · cases h
      · cases h
        cases hrest
  · cases h

theorem stop_wasCancelled {s s' : Selection D} {idx : Nat} (h : s.stop idx = some s')
    (hc : s'.WasCancelled) : s.WasCancelled := by
  obtain ⟨rest, hrest⟩ := hc
  unfold stop at h
  split at h
  · rename_i rest' outcome hloop
    split at h
    · cases h
      injection hrest with _ houtcome
      exact ⟨rest', by rw [hloop, houtcome]⟩
    · cases h
  · cases h

theorem step_wasCancelled {s s' : Selection D} {l : Label} (h : s.step l = some s')
    (hc : s'.WasCancelled) : s.WasCancelled ∨ l = .cancel := by
  rcases step_cases h with ⟨idx, t, ht, hm⟩ | h | h | ⟨idx, h⟩ | ⟨hl, -⟩
  · obtain ⟨rest, hrest⟩ := hc
    exact Or.inl ⟨rest, by rw [← hm.loop]; exact hrest⟩
  · exact Or.inl (collect_wasCancelled h hc)
  · exact Or.inl (receive_wasCancelled h hc)
  · exact Or.inl (stop_wasCancelled h hc)
  · exact Or.inr hl

theorem leave_inv {s : Selection D} (hi : s.Inv) : s.leave.Inv :=
  ⟨hi.registered, nofun, nofun⟩

theorem notStarted_inv : (notStarted : Selection D).Inv :=
  inv_start [] |> leave_inv

end Selection

end Credentialsd
