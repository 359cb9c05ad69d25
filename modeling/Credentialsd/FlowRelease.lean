import Credentialsd.FlowDiscovery

/-!
# Requests that `handle` returned from

`handle` can return while its request is still in the slot: when the UI cannot be
launched. What it means that a request has left the slot, and the condition under
which every request has when `handle` returns and the next one is accepted.
-/

namespace Credentialsd
open Machine

namespace Tasks

theorem ctx_ne_step {s t : Tasks} {l : Label} {c : RequestContext} (h : Inv s)
    (hl : step s l = some t) (hc : c ∈ s.service.accepted) (hne : s.service.ctx ≠ some c) :
    t.service.ctx ≠ some c := by
  have hlt := h.slotInv.token_lt hc
  cases slotMove_of_step hl with
  | same service =>
    rw [service]
    exact hne
  | init request requestId label free service =>
    rw [service, Service.initRequest]
    cases hctx : s.service.ctx with
    | some d => exact hne
    | none =>
      intro he
      have htoken := congrArg RequestContext.cancellation (Option.some.inj he)
      simp only at htoken
      omega
  | taken holder d response free ctx service =>
    rw [service]
    exact (Option.some_ne_none c).symm
  | worked holder x held service =>
    rw [service]
    cases x with
    | cancelToken d response => exact hne
    | sendResponse d response => exact hne
    | unlock => exact hne

theorem Inv.ctx_ne_of_ready {s : Tasks} (h : Inv s) {c : RequestContext} {response : Response}
    (hrecv : (s.service.channels c.responseChannel).recv = .ready response) :
    s.service.ctx ≠ some c := by
  intro hctx
  obtain ⟨-, -, hfresh⟩ := h.slotInv.slot c hctx
  rw [hfresh] at hrecv
  cases hrecv

end Tasks

namespace Daemon

theorem step_tasks {credHash : Bytes → String} {d d' : Daemon} {l : Label}
    (hl : step credHash d l = some d') :
    d'.tasks = d.tasks ∨ ∃ tl, Tasks.step d.tasks tl = some d'.tasks := by
  have hquiet : Tasks.Quiet d.tasks d'.tasks →
      d'.tasks = d.tasks ∨ ∃ tl, Tasks.step d.tasks tl = some d'.tasks := by
    rintro (he | ⟨tl, -, htl⟩)
    · exact Or.inl he
    · exact Or.inr ⟨tl, htl⟩
  cases l with
  | submit m =>
    simp only [step] at hl
    split at hl
    · cases hl
      exact Or.inl rfl
    · cases hl
  | flow l =>
    cases flowStep_move hl with
    | stays tasks => exact Or.inl tasks
    | accepts request requestId c hstep => exact Or.inr ⟨_, hstep⟩
    | refuses request requestId response hstep => exact Or.inr ⟨_, hstep⟩
    | launches c tasks => exact Or.inl tasks
    | returns c response tasks => exact Or.inl tasks
    | panics c tasks => exact Or.inl tasks
  | ui k l =>
    obtain ⟨lp, hk, hstep⟩ := Option.bind_eq_some_iff.mp hl
    exact hquiet (loopStep_move hstep).quiet
  | forward f l =>
    obtain ⟨fw, hf, hstep⟩ := Option.bind_eq_some_iff.mp hl
    exact hquiet (forwardStep_move hf hstep).quiet
  | advance =>
    obtain ⟨t, ht, rfl⟩ := onTasks_some hl
    exact Or.inr ⟨_, ht⟩

def Gone (d : Daemon) (c : RequestContext) : Prop :=
  c ∈ d.tasks.service.accepted ∧ d.tasks.service.ctx ≠ some c

theorem Gone.step {credHash : Bytes → String} {d d' : Daemon} {l : Label} {c : RequestContext}
    (h : Gone d c) (hd : Wf d) (hl : step credHash d l = some d') : Gone d' c := by
  rcases step_tasks hl with he | ⟨tl, htl⟩
  · unfold Gone
    rw [he]
    exact h
  · exact ⟨(Tasks.slotMove_of_step htl).mem_accepted h.1, Tasks.ctx_ne_step hd.tasks htl h.1 h.2⟩

theorem Gone.answered {d : Daemon} {c : RequestContext} (h : Gone d c) (hd : Wf d)
    (hfree : d.tasks.lock = none) : d.tasks.service.Answered c :=
  hd.tasks.answered hfree h.1 h.2

/-- The token of the request is cancelled, or some task holds the lock to cancel one. -/
def settled (d : Daemon) (c : RequestContext) : Bool :=
  d.tasks.lock.isSome || d.tasks.service.cancelled c.cancellation

theorem settled_iff {d : Daemon} (h : Wf d) {c : RequestContext}
    (hc : c ∈ d.tasks.service.accepted) :
    d.settled c = true ↔ d.tasks.service.ctx ≠ some c := by
  unfold settled
  cases hlock : d.tasks.lock with
  | some x =>
    obtain ⟨hctx, -⟩ := h.tasks.slotInv.held x.1 x.2 hlock
    rw [hctx]
    exact ⟨fun _ => nofun, fun _ => rfl⟩
  | none =>
    simp only [Option.isSome_none, Bool.false_or]
    constructor
    · intro hcancelled hctx
      have hlive := (h.tasks.slotInv.slot c hctx).2.1
      rw [hcancelled] at hlive
      cases hlive
    · intro hne
      exact (h.tasks.answered hlock hc hne).1

theorem not_settled {d : Daemon} (h : Wf d) {c : RequestContext}
    (hc : c ∈ d.tasks.service.accepted) (hs : d.settled c = false) :
    d.tasks.service.ctx = some c := by
  by_contra hne
  have htrue := (settled_iff h hc).mpr hne
  rw [hs] at htrue
  cases htrue

/-! ### Returning from `handle` -/

/-- When `create_session` fails, someone else has already released the request. -/
def releasedOnFailure (d : Daemon) : Label → Bool
  | .flow (.createSession (.error _)) =>
    match d.phase with
    | .session c _ => d.settled c
    | _ => true
  | _ => true

/-- The slot holds the request in hand or nothing; what was returned is gone. -/
structure Released (d : Daemon) : Prop where
  owned : ∀ c, d.tasks.service.ctx = some c → d.phase.request = some c
  returned : ∀ c response, (some c, response) ∈ d.returned → Gone d c
  refused : ∀ response, (none, response) ∉ d.returned

theorem released_init : Released init where
  owned := by intro c h; cases h
  returned := by intro c response h; cases h
  refused := by intro response h; cases h

theorem Released.quiet {credHash : Bytes → String} {d d' : Daemon} {l : Label} (h : Released d)
    (hd : Wf d) (hl : step credHash d l = some d') (hquiet : Tasks.Quiet d.tasks d'.tasks)
    (hphase : d'.phase = d.phase) (hreturned : d'.returned = d.returned) : Released d' := by
  refine ⟨?_, ?_, by rw [hreturned]; exact h.refused⟩
  · intro c hc
    rw [hphase]
    rcases hquiet.slot.2 with he | he
    · rw [he] at hc
      exact h.owned c hc
    · rw [he] at hc
      cases hc
  · intro c response hmem
    rw [hreturned] at hmem
    exact (h.returned c response hmem).step hd hl

theorem Released.flow {credHash : Bytes → String} {d d' : Daemon} {l : FlowLabel}
    (h : Released d) (hd : Wf d) (hl : step credHash d (.flow l) = some d')
    (hok : d.releasedOnFailure (.flow l) = true) : Released d' := by
  have hreturned : ∀ c response, (some c, response) ∈ d.returned → Gone d' c :=
    fun c response hmem => (h.returned c response hmem).step hd hl
  cases flowStep_move hl with
  | stays tasks request returned =>
    refine ⟨?_, by rw [returned]; exact hreturned, by rw [returned]; exact h.refused⟩
    rw [tasks, request]
    exact h.owned
  | accepts request requestId c step free empty ctx phase returned =>
    refine ⟨?_, by rw [returned]; exact hreturned, by rw [returned]; exact h.refused⟩
    rw [ctx, phase]
    exact fun _ => id
  | refuses request requestId response step free full =>
    obtain ⟨c, hctx⟩ := Option.ne_none_iff_exists'.mp full
    have howned := h.owned c hctx
    rw [free] at howned
    cases howned
  | launches c tasks request phase returned =>
    refine ⟨?_, by rw [returned]; exact hreturned, by rw [returned]; exact h.refused⟩
    rw [tasks, phase, ← request]
    exact h.owned
  | returns c response tasks request phase returned loops nextLoop why =>
    have hc := hd.phase c request
    have hne : d.tasks.service.ctx ≠ some c := by
      rcases why with hrecv | ⟨args, err, hphase, rfl, -⟩
      · exact hd.tasks.ctx_ne_of_ready hrecv
      · simp only [releasedOnFailure, hphase] at hok
        exact (settled_iff hd hc).mp hok
    refine ⟨?_, ?_, ?_⟩
    · intro c' hc'
      rw [tasks] at hc'
      have howned := h.owned c' hc'
      rw [request] at howned
      cases howned
      exact absurd hc' hne
    · intro c' response' hmem
      rw [returned] at hmem
      rcases List.mem_append.mp hmem with hold | hnew
      · exact hreturned c' response' hold
      · cases List.mem_singleton.mp hnew
        exact Gone.step (l := .flow l) ⟨hc, hne⟩ hd hl
    · intro response' hmem
      rw [returned] at hmem
      rcases List.mem_append.mp hmem with hold | hnew
      · exact h.refused response' hold
      · cases List.mem_singleton.mp hnew
  | panics c tasks request closed =>
    exact absurd closed (hd.tasks.recv_ne_closed (hd.phase c request))

theorem Released.step {credHash : Bytes → String} {d d' : Daemon} {l : Label} (h : Released d)
    (hd : Wf d) (hok : d.releasedOnFailure l = true) (hl : step credHash d l = some d') :
    Released d' := by
  cases l with
  | submit m =>
    have hl' := hl
    simp only [Daemon.step] at hl'
    split at hl'
    · cases hl'
      exact h.quiet hd hl (Or.inl rfl) rfl rfl
    · cases hl'
  | flow l => exact h.flow hd hl hok
  | ui k l =>
    obtain ⟨lp, hk, hstep⟩ := Option.bind_eq_some_iff.mp hl
    have hmove := loopStep_move hstep
    exact h.quiet hd hl hmove.quiet hmove.phase hmove.returned
  | forward f l =>
    obtain ⟨fw, hf, hstep⟩ := Option.bind_eq_some_iff.mp hl
    have hmove := forwardStep_move hf hstep
    exact h.quiet hd hl hmove.quiet hmove.phase hmove.returned
  | advance =>
    obtain ⟨t, ht, rfl⟩ := onTasks_some hl
    exact h.quiet hd hl (.of_step ht fun _ _ he => by cases he) rfl rfl

/-! ### The next request -/

/-- The flow-control task goes on: only a poisoned mutex or a dropped channel would end it. -/
theorem flowStep_alive {d d' : Daemon} {l : FlowLabel} (hd : Wf d) (hp : d.poisoned = false)
    (hl : d.flowStep l = some d') : d'.phase ≠ .panicked := by
  cases l with
  | receive =>
    simp only [flowStep] at hl
    split at hl
    · cases hl
      intro h
      cases h
    · cases hl
  | initRequest requestId =>
    simp only [flowStep, hp, Bool.false_eq_true, if_false] at hl
    split at hl
    · obtain ⟨t, -, rfl⟩ := onTasks_some hl
      split <;> intro h <;> cases h
    · cases hl
  | listDevices =>
    simp only [flowStep] at hl
    split at hl
    · cases hl
      intro h
      cases h
    · cases hl
  | devices hybrid nfc session =>
    simp only [flowStep] at hl
    split at hl
    · cases hl
      intro h
      cases h
    · cases hl
  | createSession outcome =>
    simp only [flowStep] at hl
    split at hl
    · cases hl
      intro h
      cases h
    · cases hl
      intro h
      cases h
    · cases hl
  | respond =>
    simp only [flowStep] at hl
    split at hl
    · rename_i c hphase
      split at hl
      · cases hl
        intro h
        cases h
      · rename_i hclosed
        have hc := hd.phase c (by rw [hphase]; rfl)
        exact absurd hclosed (hd.tasks.recv_ne_closed hc)
      · cases hl
    · cases hl

theorem phase_alive {credHash : Bytes → String} {d d' : Daemon} {l : Label} (hd : Wf d)
    (hp : d.poisoned = false) (halive : d.phase ≠ .panicked) (hl : step credHash d l = some d') :
    d'.phase ≠ .panicked := by
  cases l with
  | submit m =>
    simp only [step] at hl
    split at hl
    · cases hl
      exact halive
    · cases hl
  | flow l => exact flowStep_alive hd hp hl
  | ui k l =>
    obtain ⟨lp, hk, hstep⟩ := Option.bind_eq_some_iff.mp hl
    rw [(loopStep_move hstep).phase]
    exact halive
  | forward f l =>
    obtain ⟨fw, hf, hstep⟩ := Option.bind_eq_some_iff.mp hl
    rw [(forwardStep_move hf hstep).phase]
    exact halive
  | advance =>
    obtain ⟨t, -, rfl⟩ := onTasks_some hl
    exact halive

theorem init_accepts {credHash : Bytes → String} {d : Daemon} {m : UiRequestContext}
    (hphase : d.phase = .received m) (hsvc : d.svc = none) (hlock : d.tasks.lock = none)
    (hp : d.poisoned = false) (hctx : d.tasks.service.ctx = none) (requestId : RequestId) :
    ∃ d' c, step credHash d (.flow (.initRequest requestId)) = some d' ∧
      d'.phase = .accepted m c ∧ d'.tasks.service.ctx = some c := by
  simp only [step, flowStep, hphase, hsvc, hp, Bool.false_eq_true, if_false, onTasks, Tasks.step,
    hlock, Option.map_some, Service.initRequest, hctx]
  exact ⟨_, _, rfl, rfl, rfl⟩

theorem init_refuses {credHash : Bytes → String} {d d' : Daemon} {c : RequestContext}
    {requestId : RequestId} (hp : d.poisoned = false) (hctx : d.tasks.service.ctx = some c)
    (hl : step credHash d (.flow (.initRequest requestId)) = some d') :
    d'.phase = .idle ∧ d'.returned =
      d.returned ++ [(none, .error (.internal "Already a request in progress."))] := by
  simp only [step, flowStep, hp, Bool.false_eq_true, if_false] at hl
  split at hl
  · obtain ⟨t, -, rfl⟩ := onTasks_some hl
    simp only [Service.initRequest, hctx]
    exact ⟨rfl, rfl⟩
  · cases hl

/-- What holds along a run in which the steps meet both conditions. -/
structure Serving (d : Daemon) : Prop where
  wf : Wf d
  released : Released d
  poisoned : d.poisoned = false
  alive : d.phase ≠ .panicked

theorem serving_init : Serving init := ⟨wf_init, released_init, rfl, nofun⟩

theorem Serving.step {credHash : Bytes → String} {d d' : Daemon} {l : Label} (h : Serving d)
    (hreleased : d.releasedOnFailure l = true) (hlive : d.startsForLive l = true)
    (hl : step credHash d l = some d') : Serving d' where
  wf := h.wf.step hl
  released := h.released.step h.wf hreleased hl
  poisoned := (poisoned_step h.wf hlive hl h.poisoned).1
  alive := phase_alive h.wf h.poisoned h.alive hl

theorem Serving.ctx_none {d : Daemon} (h : Serving d) (hphase : d.phase.request = none) :
    d.tasks.service.ctx = none := by
  by_contra hfull
  obtain ⟨c, hctx⟩ := Option.ne_none_iff_exists'.mp hfull
  have howned := h.released.owned c hctx
  rw [hphase] at howned
  cases howned

/-- In a run in which `create_session` fails only after the request was released and streams are
started only while some accepted request is uncancelled, a request that `handle` returned from is
out of the slot, no request is refused, and the flow-control task, when it has received the next
request and the locks are free, has it accepted. A failure at any other moment leaves the request
in the slot, and as long as it is there `init_request` refuses the next one or, with a poisoned
mutex, panics; a stream that is started at any other moment makes every later `init_request`
panic. -/
theorem returned_request_released (credHash : Bytes → String) :
    (∀ ls d,
      Along (step credHash)
        (fun d l _ => d.releasedOnFailure l = true ∧ d.startsForLive l = true) init ls →
      exec (step credHash) init ls = some d →
        (∀ c response, (some c, response) ∈ d.returned → d.tasks.service.ctx ≠ some c) ∧
        (∀ response, (none, response) ∉ d.returned) ∧
        d.phase ≠ .panicked ∧
        ∀ m requestId, d.phase = .received m → d.svc = none → d.tasks.lock = none →
          ∃ d' c, step credHash d (.flow (.initRequest requestId)) = some d' ∧
            d'.phase = .accepted m c ∧ d'.tasks.service.ctx = some c) ∧
    (∀ ls d l d', exec (step credHash) init ls = some d → step credHash d l = some d' →
      d.releasedOnFailure l = false →
        ∃ c response, (some c, response) ∈ d'.returned ∧ d'.phase = .idle ∧
          d'.tasks.service.ctx = some c ∧
          ∀ d₁ requestId d₂, Reaches (step credHash) d' d₁ → d₁.tasks.service.ctx = some c →
            step credHash d₁ (.flow (.initRequest requestId)) = some d₂ →
              if d₁.poisoned then d₂.phase = .panicked
              else d₂.returned =
                d₁.returned ++ [(none, .error (.internal "Already a request in progress."))]) ∧
    ∀ ls d l d', exec (step credHash) init ls = some d → step credHash d l = some d' →
      d.startsForLive l = false →
        ∀ d₁ requestId d₂, Reaches (step credHash) d' d₁ →
          step credHash d₁ (.flow (.initRequest requestId)) = some d₂ → d₂.phase = .panicked := by
  refine ⟨?_, ?_, ?_⟩
  · intro ls d ha hrun
    have h : Serving d := exec_invariant (I := Serving)
      (fun d l d' hi hok hl => hi.step hok.1 hok.2 hl) serving_init ha hrun
    refine ⟨fun c response hmem => (h.released.returned c response hmem).2, h.released.refused,
      h.alive, fun m requestId hphase hsvc hlock => ?_⟩
    have hctx : d.tasks.service.ctx = none := h.ctx_none (by rw [hphase]; rfl)
    exact init_accepts hphase hsvc hlock h.poisoned hctx requestId
  · intro ls d l d' hrun hl hok
    have hd : Wf d := wf_of_reaches ⟨ls, hrun⟩
    unfold releasedOnFailure at hok
    split at hok
    · split at hok
      · rename_i err c args hphase
        have hctx := not_settled hd (hd.phase c (by rw [hphase]; rfl)) hok
        simp only [step, flowStep, hphase] at hl
        cases hl
        refine ⟨c, _, List.mem_append_right _ (List.mem_singleton.mpr rfl), rfl, hctx, ?_⟩
        intro d₁ requestId d₂ _ hstuck hinit
        cases hp : d₁.poisoned with
        | true => exact init_panics hp hinit
        | false => exact (init_refuses hp hstuck hinit).2
      · cases hok
    · cases hok
  · intro ls d l d' hrun hl hok d₁ requestId d₂ hlater hinit
    have hd : Wf d := wf_of_reaches ⟨ls, hrun⟩
    have hp' : d'.poisoned = true := by
      cases hp : d.poisoned with
      | true => exact poisoned_kept hl hp
      | false => exact (startsForLive_poisons hd hok hp hl).2
    have hp₁ : d₁.poisoned = true :=
      reaches_invariant (fun _ _ _ hi hl => poisoned_kept hl hi) hp' hlater
    exact init_panics hp₁ hinit

/-- The user cancels, then the UI of a second request cannot be launched. -/
def failedLaunchRun : List Label :=
  setUpRun "a.test" 7 ++
  [.flow (.createSession (.ok ())), .ui 0 (.event .requestCancelled), .ui 0 .receive,
    .ui 0 .lockService, .ui 0 .cancel, .advance, .advance, .advance, .ui 0 .cancelled,
    .flow .respond] ++
  setUpRun "b.test" 8

theorem returned_request_released_runs :
    (∃ d c, exec (step fun _ => "") init (failedLaunchRun.take 17) = some d ∧
      d.returned.map (·.1) = [some c] ∧ d.tasks.service.ctx ≠ some c ∧
      ∃ d' c', step (fun _ => "") d (.flow (.initRequest 8)) = some d' ∧
        d'.tasks.service.ctx = some c') ∧
    (∃ d d' c, exec (step fun _ => "") init failedLaunchRun = some d ∧
      step (fun _ => "") d (.flow (.createSession (.error "no UI"))) = some d' ∧
      d'.tasks.service.ctx = some c) ∧
    ∃ d d', exec (step fun _ => "") init doubleDiscoveryRun = some d ∧
      step (fun _ => "") d (.ui 0 .getUsb) = some d' ∧
      ∀ d₁ requestId d₂, Reaches (step fun _ => "") d' d₁ →
        step (fun _ => "") d₁ (.flow (.initRequest requestId)) = some d₂ →
          d₂.phase = .panicked := by
  refine ⟨?_, ?_, ?_⟩
  · obtain ⟨hgone, -, -, hnext⟩ := (returned_request_released fun _ => "").1
      (failedLaunchRun.take 17) _ (by decide) rfl
    obtain ⟨d', c', hstep, -, hctx⟩ := hnext _ 8 rfl rfl rfl
    exact ⟨_, _, rfl, rfl, hgone _ _ (List.mem_singleton.mpr rfl), d', c', hstep, hctx⟩
  · obtain ⟨c, response, -, -, hctx, -⟩ := (returned_request_released fun _ => "").2.1
      failedLaunchRun _ (.flow (.createSession (.error "no UI"))) _ rfl rfl rfl
    exact ⟨_, _, c, rfl, rfl, hctx⟩
  · exact ⟨_, _, rfl, rfl, (returned_request_released fun _ => "").2.2 doubleDiscoveryRun _
      (.ui 0 .getUsb) _ rfl rfl rfl⟩

/-- The client's next request is refused although `handle` returned. -/
theorem failed_launch_blocks :
    ∃ d c, exec (step fun _ => "") init (setUpRun "a.test" 7 ++
        [.flow (.createSession (.error "no UI"))] ++
        [.submit (sampleUiRequest "b.test"), .flow .receive, .flow (.initRequest 8)]) = some d ∧
      d.returned = [(some c, .error (.internal "no UI")),
        (none, .error (.internal "Already a request in progress."))] ∧
      d.phase = .idle ∧ d.tasks.service.ctx = some c :=
  ⟨_, _, rfl, rfl, rfl, rfl⟩

end Daemon

end Credentialsd
