import Credentialsd.FlowRelease

/-!
# Early exits of the UI tasks

The UI event loop and the task that forwards the background events can exit before
the request is answered. The condition under which the request is out of the slot
at every exit, and what an exit at any other moment leaves behind.
-/

namespace Credentialsd
open Machine

namespace Daemon

/-- The request whose UI event loop or forwarding task exits early in this step. -/
def exits (d : Daemon) : Label → Option RequestContext
  | .ui k .receive => do
    let lp ← d.loops k
    let lp' ← lp.receive
    if lp'.pc.early then some lp.request else none
  | .forward f (.sent false) => do
    let fw ← d.forwards f
    let lp ← d.loops fw.loop
    match fw.pc with
    | .sending event =>
      match stateUpdate event with
      | .ok (some _) => some lp.request
      | _ => none
    | _ => none
  | _ => none

def exitsSettled (d : Daemon) (l : Label) : Bool := (d.exits l).all d.settled

structure ExitsGone (d : Daemon) : Prop where
  loops : ∀ k lp, d.loops k = some lp → lp.pc.early = true → Gone d lp.request
  forwards : ∀ f fw lp, d.forwards f = some fw → fw.pc.early = true →
    d.loops fw.loop = some lp → Gone d lp.request

theorem exitsGone_init : ExitsGone init where
  loops := by intro k lp h; cases h
  forwards := by intro f fw lp h; cases h

theorem ExitsGone.same {credHash : Bytes → String} {d d' : Daemon} {l : Label} (h : ExitsGone d)
    (hd : Wf d) (hl : step credHash d l = some d') (hloops : d'.loops = d.loops)
    (hforwards : d'.forwards = d.forwards) : ExitsGone d' := by
  refine ⟨fun k lp hk hearly => ?_, fun f fw lp hf hearly hk => ?_⟩
  · rw [hloops] at hk
    exact (h.loops k lp hk hearly).step hd hl
  · rw [hforwards] at hf
    rw [hloops] at hk
    exact (h.forwards f fw lp hf hearly hk).step hd hl

theorem ExitsGone.flow {credHash : Bytes → String} {d d' : Daemon} {l : FlowLabel}
    (h : ExitsGone d) (hd : Wf d) (hl : step credHash d (.flow l) = some d') : ExitsGone d' := by
  have hforwards := (flowStep_frame hl).1
  cases flowStep_move hl with
  | stays tasks request returned loops => exact h.same hd hl loops hforwards
  | accepts request requestId c hstep free empty ctx phase returned loops =>
    exact h.same hd hl loops hforwards
  | refuses request requestId response hstep free full phase returned loops =>
    exact h.same hd hl loops hforwards
  | returns c response tasks request phase returned loops =>
    exact h.same hd hl loops hforwards
  | panics c tasks request closed =>
    exact absurd closed (hd.tasks.recv_ne_closed (hd.phase c request))
  | launches c tasks request phase returned loops =>
    refine ⟨fun k lp hk hearly => ?_, fun f fw lp hf hearly hk => ?_⟩
    · rw [loops, Function.update_apply] at hk
      split at hk
      · cases hk
        cases hearly
      · exact (h.loops k lp hk hearly).step hd hl
    · rw [hforwards] at hf
      rw [loops, Function.update_apply] at hk
      split at hk
      · rename_i he
        -- a forwarding task belongs to an older loop
        obtain ⟨lp', hlp'⟩ := Option.isSome_iff_exists.mp (hd.forwards f fw hf)
        have hlt := (hd.loops _ lp' hlp').1
        omega
      · exact (h.forwards f fw lp hf hearly hk).step hd hl

theorem ExitsGone.ui {credHash : Bytes → String} {d d' : Daemon} {k : Nat} {l : LoopLabel}
    (h : ExitsGone d) (hd : Wf d) (hok : d.exitsSettled (.ui k l) = true)
    (hl : step credHash d (.ui k l) = some d') : ExitsGone d' := by
  obtain ⟨lp, hk, hstep⟩ := Option.bind_eq_some_iff.mp hl
  have hmove := loopStep_move hstep
  obtain ⟨lp', hloops, hrequest, hearly⟩ := hmove.loop
  refine ⟨fun k' lp'' hk' hearly' => ?_, fun f fw lp'' hf hearly' hk' => ?_⟩
  · rw [hloops, Function.update_apply] at hk'
    split at hk'
    · cases hk'
      rw [hrequest]
      rcases hearly hearly' with hpc | rfl
      · rw [hpc] at hearly'
        exact (h.loops k lp hk hearly').step hd hl
      · obtain ⟨lp₁, hlp₁, rfl⟩ := Option.map_eq_some_iff.mp hstep
        have hsame : lp₁ = lp' := by
          have hupdate := congrFun hloops k
          simp only [setLoop, Function.update_self] at hupdate
          exact Option.some.inj hupdate
        have hexit : d.exits (.ui k .receive) = some lp.request := by
          simp only [exits, hk, hlp₁, hsame, hearly', if_true, Option.bind_eq_bind,
            Option.bind_some]
        simp only [exitsSettled, hexit, Option.all_some] at hok
        have hc := (hd.loops k lp hk).2
        exact Gone.step ⟨hc, (settled_iff hd hc).mp hok⟩ hd hl
    · exact (h.loops k' lp'' hk' hearly').step hd hl
  · rcases hmove.forwards f fw hf with hold | ⟨-, hpolling⟩
    · rw [hloops, Function.update_apply] at hk'
      split at hk'
      · rename_i he
        cases hk'
        rw [hrequest]
        exact (h.forwards f fw lp hold hearly' (by rw [he]; exact hk)).step hd hl
      · exact (h.forwards f fw lp'' hold hearly' hk').step hd hl
    · rw [hpolling] at hearly'
      cases hearly'

theorem sent_exits {credHash : Bytes → String} {d d' : Daemon} {f : Nat} {fw fw' : Forward}
    {lp : UiLoop} (hf : d.forwards f = some fw) (hk : d.loops fw.loop = some lp)
    (hstep : d.forwardStep credHash f fw (.sent false) = some d')
    (hf' : d'.forwards f = some fw') (hearly : fw'.pc.early = true) :
    d.exits (.forward f (.sent false)) = some lp.request := by
  simp only [forwardStep] at hstep
  split at hstep
  · rename_i event hpc
    split at hstep
    · cases hstep
      simp only [setForward, Function.update_self] at hf'
      cases hf'
      cases hearly
    · cases hstep
      simp only [setForward, Function.update_self] at hf'
      cases hf'
      cases hearly
    · rename_i notification hnotification
      simp only [exits, hf, hk, hpc, hnotification, Option.bind_eq_bind, Option.bind_some]
  · cases hstep

theorem ExitsGone.forward {credHash : Bytes → String} {d d' : Daemon} {f : Nat} {l : ForwardLabel}
    (h : ExitsGone d) (hd : Wf d) (hok : d.exitsSettled (.forward f l) = true)
    (hl : step credHash d (.forward f l) = some d') : ExitsGone d' := by
  obtain ⟨fw, hf, hstep⟩ := Option.bind_eq_some_iff.mp hl
  have hmove := forwardStep_move hf hstep
  obtain ⟨fw', hforwards, hloop, hearly⟩ := hmove.forward
  refine ⟨fun k lp' hk hearly' => ?_, fun g fw'' lp' hg hearly' hk => ?_⟩
  · obtain ⟨lp, hlp, hrequest, hpc⟩ := hmove.loops k lp' hk
    rw [hpc] at hearly'
    rw [hrequest]
    exact (h.loops k lp hlp hearly').step hd hl
  · obtain ⟨lp, hlp, hrequest, -⟩ := hmove.loops _ lp' hk
    rw [hrequest]
    have hg' := hg
    rw [hforwards, Function.update_apply] at hg
    split at hg
    · rename_i he
      cases hg
      rw [hloop] at hlp
      rcases hearly hearly' with hpc | rfl
      · rw [hpc] at hearly'
        exact (h.forwards f fw lp hf hearly' hlp).step hd hl
      · rw [he] at hg'
        have hexit := sent_exits hf hlp hstep hg' hearly'
        simp only [exitsSettled, hexit, Option.all_some] at hok
        have hc := (hd.loops _ lp hlp).2
        exact Gone.step ⟨hc, (settled_iff hd hc).mp hok⟩ hd hl
    · exact (h.forwards g fw'' lp hg hearly' hlp).step hd hl

theorem ExitsGone.step {credHash : Bytes → String} {d d' : Daemon} {l : Label} (h : ExitsGone d)
    (hd : Wf d) (hok : d.exitsSettled l = true) (hl : step credHash d l = some d') :
    ExitsGone d' := by
  cases l with
  | submit m =>
    have hl' := hl
    simp only [Daemon.step] at hl'
    split at hl'
    · cases hl'
      exact h.same hd hl rfl rfl
    · cases hl'
  | flow l => exact h.flow hd hl
  | ui k l => exact h.ui hd hok hl
  | forward f l => exact h.forward hd hok hl
  | advance =>
    obtain ⟨t, ht, rfl⟩ := onTasks_some hl
    exact h.same hd hl rfl rfl

theorem exits_tasks {credHash : Bytes → String} {d d' : Daemon} {l : Label} {c : RequestContext}
    (hexit : d.exits l = some c) (hl : Daemon.step credHash d l = some d') :
    d'.tasks = d.tasks ∧
      ((∃ k lp, d'.loops k = some lp ∧ lp.request = c ∧ lp.pc.early = true) ∨
        ∃ f fw lp, d'.forwards f = some fw ∧ fw.pc.early = true ∧ d'.loops fw.loop = some lp ∧
          lp.request = c) := by
  unfold exits at hexit
  split at hexit
  · rename_i k
    simp only [Option.bind_eq_bind, Option.bind_eq_some_iff] at hexit
    obtain ⟨lp, hk, lp', hlp', hexit⟩ := hexit
    split at hexit
    · rename_i hearly
      cases hexit
      simp only [Daemon.step, hk, Option.bind_some, loopStep, hlp', Option.map_some] at hl
      cases hl
      refine ⟨rfl, Or.inl ⟨k, lp', ?_, UiLoop.receive_request hlp', hearly⟩⟩
      simp only [setLoop, Function.update_self]
    · cases hexit
  · rename_i f
    simp only [Option.bind_eq_bind, Option.bind_eq_some_iff] at hexit
    obtain ⟨fw, hf, lp, hk, hexit⟩ := hexit
    split at hexit
    · rename_i event hpc
      split at hexit
      · rename_i notification hnotification
        cases hexit
        simp only [Daemon.step, hf, Option.bind_some, forwardStep, hpc, hnotification] at hl
        cases hl
        refine ⟨rfl, Or.inr ⟨f, { fw with pc := .stopped .sendFailed }, lp, ?_, rfl, hk, rfl⟩⟩
        simp only [setForward, Function.update_self]
      · cases hexit
    · cases hexit
  · cases hexit

/-- In a run in which every early exit finds its request released, the request of a task that exited
early is out of the slot, and answered once the lock is free. An early exit at any other moment
leaves the request in the slot, uncancelled and without an answer. -/
theorem early_exit_released (credHash : Bytes → String) :
    (∀ ls d, Along (step credHash) (fun d l _ => d.exitsSettled l = true) init ls →
      exec (step credHash) init ls = some d →
        ∀ c, ((∃ k lp, d.loops k = some lp ∧ lp.request = c ∧ lp.pc.early = true) ∨
            ∃ f fw lp, d.forwards f = some fw ∧ fw.pc.early = true ∧
              d.loops fw.loop = some lp ∧ lp.request = c) →
          d.tasks.service.ctx ≠ some c ∧
            (d.tasks.lock = none → d.tasks.service.Answered c)) ∧
    ∀ ls d l d', exec (step credHash) init ls = some d → step credHash d l = some d' →
      d.exitsSettled l = false →
        ∃ c, ((∃ k lp, d'.loops k = some lp ∧ lp.request = c ∧ lp.pc.early = true) ∨
            ∃ f fw lp, d'.forwards f = some fw ∧ fw.pc.early = true ∧
              d'.loops fw.loop = some lp ∧ lp.request = c) ∧
          d'.tasks.service.ctx = some c ∧
          d'.tasks.service.cancelled c.cancellation = false ∧
          (d'.tasks.service.channels c.responseChannel).recv = .pending := by
  constructor
  · intro ls d ha hrun c hexited
    have hinv : Wf d ∧ ExitsGone d := exec_invariant (I := fun d => Wf d ∧ ExitsGone d)
      (fun d l d' hi hok hl => ⟨hi.1.step hl, hi.2.step hi.1 hok hl⟩)
      ⟨wf_init, exitsGone_init⟩ ha hrun
    obtain ⟨hd, hgone⟩ := hinv
    have hc : Gone d c := by
      rcases hexited with ⟨k, lp, hk, rfl, hearly⟩ | ⟨f, fw, lp, hf, hearly, hk, rfl⟩
      · exact hgone.loops k lp hk hearly
      · exact hgone.forwards f fw lp hf hearly hk
    exact ⟨hc.2, hc.answered hd⟩
  · intro ls d l d' hrun hl hok
    have hd : Wf d := wf_of_reaches ⟨ls, hrun⟩
    cases hexit : d.exits l with
    | none =>
      simp only [exitsSettled, hexit, Option.all_none] at hok
      cases hok
    | some c =>
      simp only [exitsSettled, hexit, Option.all_some] at hok
      obtain ⟨htasks, hexited⟩ := exits_tasks hexit hl
      have hd' : Wf d' := hd.step hl
      have hc : c ∈ d.tasks.service.accepted := by
        rw [← htasks]
        rcases hexited with ⟨k, lp, hk, rfl, -⟩ | ⟨f, fw, lp, -, -, hk, rfl⟩
        · exact (hd'.loops k lp hk).2
        · exact (hd'.loops _ lp hk).2
      have hctx := not_settled hd hc hok
      obtain ⟨-, hlive, hfresh⟩ := hd.tasks.slotInv.slot c hctx
      refine ⟨c, hexited, by rw [htasks]; exact hctx, by rw [htasks]; exact hlive, ?_⟩
      rw [htasks, hfresh]
      rfl

/- The UI goes away before the user did anything. -/
def closedUiRun : List Label :=
  setUpRun "a.test" 7 ++ [.flow (.createSession (.ok ())), .ui 0 .close]

/- The credential is made, but the UI cannot be told. -/
def failedSendRun : List Label :=
  discoveryRun ++
  [.forward 0 (.event 0 (.usb (.completed Tasks.sampleResponse))), .forward 0 .check,
    .forward 0 .take, .advance, .advance, .advance, .forward 0 (.finish none),
    .forward 0 (.sent false)]

theorem early_exit_released_runs :
    (∃ d c, exec (step fun _ => "") init failedSendRun = some d ∧
      d.phase.request = some c ∧ d.tasks.service.Answered c) ∧
    ∃ d d' c, exec (step fun _ => "") init closedUiRun = some d ∧
      step (fun _ => "") d (.ui 0 .receive) = some d' ∧ d'.tasks.service.ctx = some c := by
  constructor
  · have hrun := (early_exit_released fun _ => "").1 failedSendRun _ (by decide) rfl _
      (Or.inr ⟨0, _, _, rfl, rfl, rfl, rfl⟩)
    exact ⟨_, _, rfl, rfl, hrun.2 rfl⟩
  · obtain ⟨c, -, hctx, -, -⟩ := (early_exit_released fun _ => "").2 closedUiRun _ (.ui 0 .receive)
      _ rfl rfl rfl
    exact ⟨_, _, c, rfl, rfl, hctx⟩

/-- `handle` waits for a request whose UI event loop has ended, with no other task around. -/
theorem closed_ui_strands :
    ∃ d c, exec (step fun _ => "") init (closedUiRun ++ [.ui 0 .receive]) = some d ∧
      (d.loops 0).map (·.pc) = some (.stopped .streamClosed) ∧ d.phase = .waiting c ∧
      d.tasks.service.ctx = some c ∧
      (d.tasks.service.channels c.responseChannel).recv = .pending ∧ d.nextForward = 0 :=
  ⟨_, _, rfl, rfl, rfl, rfl, rfl, rfl⟩

end Daemon

end Credentialsd
