import Credentialsd.FlowControl
import Credentialsd.ServiceInvariant

/-!
# What the tasks of the daemon keep

One lemma for each of the three kinds of task says what its steps change; from
them follow the invariant of the service, that every loop works for an accepted
request, and that every forwarding task belongs to a loop.
-/

namespace Credentialsd
open Machine

/-! ### The service under the daemon -/

namespace Tasks

/-- At most one step, and not one that accepts a request. -/
def Quiet (s t : Tasks) : Prop :=
  t = s ∨ ∃ l, (∀ request requestId, l ≠ .init request requestId) ∧ step s l = some t

theorem Quiet.of_step {s t : Tasks} {l : Label} (hl : step s l = some t)
    (h : ∀ request requestId, l ≠ .init request requestId) : Quiet s t := Or.inr ⟨l, h, hl⟩

theorem Quiet.inv {s t : Tasks} (h : Quiet s t) (hinv : Inv s) : Inv t := by
  rcases h with rfl | ⟨l, -, hl⟩
  · exact hinv
  · exact inv_step hinv hl

theorem Quiet.slot {s t : Tasks} (h : Quiet s t) :
    t.service.accepted = s.service.accepted ∧
      (t.service.ctx = s.service.ctx ∨ t.service.ctx = none) := by
  rcases h with rfl | ⟨l, hne, hl⟩
  · exact ⟨rfl, Or.inl rfl⟩
  · exact (slotMove_of_step hl).quiet hne

end Tasks

/-! ### What the steps change -/

/-- An exit of a UI event loop by which nobody cancels the request. -/
def LoopPc.early : LoopPc → Bool
  | .stopped .streamClosed => true
  | .stopped .unreadableSecret => true
  | _ => false

/-- An exit of a forwarding task before its streams end. -/
def ForwardPc.early : ForwardPc → Bool
  | .stopped .sendFailed => true
  | _ => false

theorem UiLoop.replyTo_request (lp : UiLoop) (tx : Option ReplyTx) (reply : Reply) :
    (lp.replyTo tx reply).request = lp.request := by
  cases tx <;> rfl

theorem UiLoop.handleEvent_request (lp : UiLoop) (e : UserInteractedEvent) :
    (lp.handleEvent e).request = lp.request := by
  cases e with
  | discoveryRequested => rfl
  | clientPinEntered secret =>
    simp only [handleEvent]
    split
    · exact replyTo_request _ _ _
    · rfl
  | setDevicePin secret =>
    simp only [handleEvent]
    split
    · exact replyTo_request _ _ _
    · rfl
  | credentialSelected id => exact replyTo_request _ _ _
  | requestCancelled => rfl

theorem UiLoop.receive_request {lp lp' : UiLoop} (h : lp.receive = some lp') :
    lp'.request = lp.request := by
  simp only [receive] at h
  split at h
  · cases h
    exact handleEvent_request _ _
  · split at h
    · cases h
      rfl
    · cases h
  · cases h

theorem UiLoop.register_request (lp : UiLoop) (u : DeviceStateUpdate) :
    (lp.register u).request = lp.request ∧ (lp.register u).pc = lp.pc := by
  unfold register
  split <;> exact ⟨rfl, rfl⟩

namespace Daemon

theorem onTasks_some {d d' : Daemon} {l : Tasks.Label} {next : Tasks → Daemon}
    (h : d.onTasks l next = some d') : ∃ t, Tasks.step d.tasks l = some t ∧ d' = next t := by
  obtain ⟨t, ht, he⟩ := Option.map_eq_some_iff.mp h
  exact ⟨t, ht, he.symm⟩

/-- What a step of a UI event loop changes. -/
structure LoopMove (d : Daemon) (k : Nat) (lp : UiLoop) (l : LoopLabel) (d' : Daemon) : Prop where
  quiet : Tasks.Quiet d.tasks d'.tasks
  phase : d'.phase = d.phase
  returned : d'.returned = d.returned
  nextLoop : d'.nextLoop = d.nextLoop
  loop : ∃ lp', d'.loops = Function.update d.loops k (some lp') ∧ lp'.request = lp.request ∧
    (lp'.pc.early = true → lp'.pc = lp.pc ∨ l = .receive)
  forwards : ∀ f fw, d'.forwards f = some fw →
    d.forwards f = some fw ∨ fw.loop = k ∧ fw.pc = .polling
  poisoned : d'.poisoned = d.poisoned ∨
    (l = .getUsb ∨ l = .getHybrid) ∧ d.poisoned = false ∧ d.tasks.service.ctx = none

theorem LoopMove.own {d d' : Daemon} {k : Nat} {lp lp' : UiLoop} {l : LoopLabel}
    (htasks : Tasks.Quiet d.tasks d'.tasks) (hphase : d'.phase = d.phase)
    (hreturned : d'.returned = d.returned) (hnext : d'.nextLoop = d.nextLoop)
    (hforwards : d'.forwards = d.forwards) (hpoisoned : d'.poisoned = d.poisoned)
    (hloops : d'.loops = Function.update d.loops k (some lp')) (hrequest : lp'.request = lp.request)
    (hearly : lp'.pc.early = true → lp'.pc = lp.pc ∨ l = .receive) : LoopMove d k lp l d' :=
  ⟨htasks, hphase, hreturned, hnext, ⟨lp', hloops, hrequest, hearly⟩,
    fun f fw h => Or.inl (by rw [← hforwards]; exact h), Or.inl hpoisoned⟩

theorem getCredential_move {d d' : Daemon} {k : Nat} {lp : UiLoop} {kind : StreamKind}
    {next : Nat → LoopPc} {l : LoopLabel} (hl : l = .getUsb ∨ l = .getHybrid)
    (hnext : ∀ sid, (next sid).early = false) (h : d.getCredential k lp kind next = some d') :
    LoopMove d k lp l d' := by
  simp only [getCredential] at h
  split at h
  · cases h
    exact .own (Or.inl rfl) rfl rfl rfl rfl rfl rfl rfl nofun
  · rename_i hpoisoned
    split at h
    · obtain ⟨t, ht, rfl⟩ := onTasks_some h
      refine .own (.of_step ht fun _ _ => nofun) rfl rfl rfl rfl rfl rfl rfl ?_
      intro hearly
      rw [hnext] at hearly
      cases hearly
    · rename_i p hlock hget
      cases h
      refine ⟨Or.inl rfl, rfl, rfl, rfl, ⟨_, rfl, rfl, nofun⟩, fun _ _ h => Or.inl h, Or.inr ?_⟩
      refine ⟨hl, Bool.eq_false_iff.mpr hpoisoned, ?_⟩
      unfold Service.getCredential at hget
      split at hget
      · cases hget
      · assumption
    · cases h

theorem loopStep_move {d d' : Daemon} {k : Nat} {lp : UiLoop} {l : LoopLabel}
    (h : d.loopStep k lp l = some d') : LoopMove d k lp l d' := by
  cases l with
  | event e =>
    simp only [loopStep] at h
    split at h
    · cases h
      exact .own (Or.inl rfl) rfl rfl rfl rfl rfl rfl rfl fun _ => Or.inl rfl
    · cases h
  | close =>
    cases h
    exact .own (Or.inl rfl) rfl rfl rfl rfl rfl rfl rfl fun _ => Or.inl rfl
  | receive =>
    obtain ⟨lp', hlp, rfl⟩ := Option.map_eq_some_iff.mp h
    exact .own (Or.inl rfl) rfl rfl rfl rfl rfl rfl (UiLoop.receive_request hlp) fun _ => Or.inr rfl
  | lockService =>
    simp only [loopStep] at h
    split at h
    · cases h
      exact .own (Or.inl rfl) rfl rfl rfl rfl rfl rfl rfl nofun
    · cases h
      exact .own (Or.inl rfl) rfl rfl rfl rfl rfl rfl rfl nofun
    · cases h
  | transports usb hybrid =>
    simp only [loopStep] at h
    split at h
    · cases h
      refine .own (Or.inl rfl) rfl rfl rfl rfl rfl rfl rfl ?_
      cases usb
      · cases hybrid
        · exact nofun
        · exact nofun
      · exact nofun
    · cases h
  | getUsb =>
    simp only [loopStep] at h
    split at h
    · rename_i hybrid hpc
      refine getCredential_move (Or.inl rfl) ?_ h
      intro sid
      cases hybrid <;> rfl
    · cases h
  | getHybrid =>
    simp only [loopStep] at h
    split at h
    · exact getCredential_move (Or.inr rfl) (fun sid => rfl) h
    · cases h
  | forward =>
    simp only [loopStep] at h
    split at h
    · cases h
      refine ⟨Or.inl rfl, rfl, rfl, rfl, ⟨_, rfl, rfl, nofun⟩, ?_, Or.inl rfl⟩
      intro f fw hf
      simp only [setForward, setLoop, Function.update_apply] at hf
      split at hf
      · cases hf
        exact Or.inr ⟨rfl, rfl⟩
      · exact Or.inl hf
    · cases h
  | replied sent =>
    simp only [loopStep] at h
    split at h
    · cases h
      exact .own (Or.inl rfl) rfl rfl rfl rfl rfl rfl rfl nofun
    · cases h
  | cancel =>
    simp only [loopStep] at h
    split at h
    · split at h
      · cases h
        exact .own (Or.inl rfl) rfl rfl rfl rfl rfl rfl rfl nofun
      · obtain ⟨t, ht, rfl⟩ := onTasks_some h
        exact .own (.of_step ht fun _ _ => nofun) rfl rfl rfl rfl
          rfl rfl rfl nofun
    · cases h
  | cancelled =>
    simp only [loopStep] at h
    split at h
    · cases h
    · cases h
      exact .own (Or.inl rfl) rfl rfl rfl rfl rfl rfl rfl nofun
    · cases h
  | drop =>
    simp only [loopStep] at h
    split at h
    · cases h
      exact .own (Or.inl rfl) rfl rfl rfl rfl rfl rfl rfl nofun
    · cases h

/-- What a step of a forwarding task changes; of a loop only the senders that it keeps. -/
structure ForwardMove (d : Daemon) (f : Nat) (fw : Forward) (l : ForwardLabel) (d' : Daemon) :
    Prop where
  quiet : Tasks.Quiet d.tasks d'.tasks
  phase : d'.phase = d.phase
  returned : d'.returned = d.returned
  nextLoop : d'.nextLoop = d.nextLoop
  poisoned : d'.poisoned = d.poisoned
  loops : ∀ k lp', d'.loops k = some lp' →
    ∃ lp, d.loops k = some lp ∧ lp'.request = lp.request ∧ lp'.pc = lp.pc
  live : ∀ k, (d.loops k).isSome → (d'.loops k).isSome
  forward : ∃ fw', d'.forwards = Function.update d.forwards f (some fw') ∧ fw'.loop = fw.loop ∧
    (fw'.pc.early = true → fw'.pc = fw.pc ∨ l = .sent false)

theorem ForwardMove.own {d d' : Daemon} {f : Nat} {fw fw' : Forward} {l : ForwardLabel}
    (htasks : Tasks.Quiet d.tasks d'.tasks) (hphase : d'.phase = d.phase)
    (hreturned : d'.returned = d.returned) (hnext : d'.nextLoop = d.nextLoop)
    (hpoisoned : d'.poisoned = d.poisoned) (hloops : d'.loops = d.loops)
    (hforwards : d'.forwards = Function.update d.forwards f (some fw')) (hloop : fw'.loop = fw.loop)
    (hearly : fw'.pc.early = true → fw'.pc = fw.pc ∨ l = .sent false) : ForwardMove d f fw l d' :=
  ⟨htasks, hphase, hreturned, hnext, hpoisoned,
    fun k lp h => ⟨lp, by rw [← hloops]; exact h, rfl, rfl⟩,
    fun k h => by rw [hloops]; exact h, fw', hforwards, hloop, hearly⟩

theorem update_forward_self {d : Daemon} {f : Nat} {fw : Forward} (h : d.forwards f = some fw) :
    d.forwards = Function.update d.forwards f (some fw) := by
  rw [← h, Function.update_eq_self]

theorem forwardUpdate_move {d : Daemon} {f : Nat} {fw : Forward} {l : ForwardLabel}
    {t : Tasks} (u : DeviceStateUpdate) (secretFile : Option OwnedFd)
    (hquiet : Tasks.Quiet d.tasks t) :
    ForwardMove d f fw l (({ d with tasks := t } : Daemon).forwardUpdate f fw u secretFile) := by
  have hearly : (ForwardPc.ofUpdate u secretFile).early = false := by
    unfold ForwardPc.ofUpdate
    split <;> rfl
  unfold forwardUpdate
  cases hloop : d.loops fw.loop with
  | none => exact .own hquiet rfl rfl rfl rfl rfl rfl rfl (by rw [hearly]; exact nofun)
  | some lp =>
    refine ⟨hquiet, rfl, rfl, rfl, rfl, ?_, ?_, _, rfl, rfl, by rw [hearly]; exact nofun⟩
    · intro k lp' hk
      simp only [setForward, setLoop, Function.update_apply] at hk
      split at hk
      · rename_i he
        cases hk
        exact ⟨lp, by rw [he]; exact hloop, lp.register_request u⟩
      · exact ⟨lp', hk, rfl, rfl⟩
    · intro k hk
      simp only [setForward, setLoop, Function.update_apply]
      split
      · rfl
      · exact hk

theorem forwardStep_move {credHash : Bytes → String} {d d' : Daemon} {f : Nat} {fw : Forward}
    {l : ForwardLabel} (hf : d.forwards f = some fw) (h : d.forwardStep credHash f fw l = some d') :
    ForwardMove d f fw l d' := by
  have hself := update_forward_self hf
  cases l with
  | event sid e =>
    simp only [forwardStep] at h
    split at h
    · obtain ⟨t, ht, rfl⟩ := onTasks_some h
      exact .own (.of_step ht fun _ _ => nofun) rfl rfl rfl rfl rfl rfl rfl nofun
    · cases h
  | innerEnded sid =>
    simp only [forwardStep] at h
    split at h
    · cases h
      exact .own (Or.inl rfl) rfl rfl rfl rfl rfl rfl rfl fun _ => Or.inl rfl
    · cases h
  | check =>
    simp only [forwardStep] at h
    split at h
    · obtain ⟨t, ht, rfl⟩ := onTasks_some h
      have hquiet : Tasks.Quiet d.tasks t := .of_step ht fun _ _ => nofun
      split
      · exact .own hquiet rfl rfl rfl rfl rfl rfl rfl nofun
      · exact .own hquiet rfl rfl rfl rfl rfl hself rfl fun _ => Or.inl rfl
    · cases h
  | take =>
    simp only [forwardStep] at h
    split at h
    · split at h
      · split at h
        · cases h
          exact .own (Or.inl rfl) rfl rfl rfl rfl rfl rfl rfl nofun
        · obtain ⟨t, ht, rfl⟩ := onTasks_some h
          exact .own (.of_step ht fun _ _ => nofun) rfl rfl rfl rfl rfl hself rfl
            fun _ => Or.inl rfl
      · cases h
    · cases h
  | finish secretFile =>
    simp only [forwardStep] at h
    split at h
    · split at h
      · obtain ⟨t, ht, rfl⟩ := onTasks_some h
        have hquiet : Tasks.Quiet d.tasks t := .of_step ht fun _ _ => nofun
        split
        · exact forwardUpdate_move _ secretFile hquiet
        · exact .own hquiet rfl rfl rfl rfl rfl rfl rfl nofun
      · cases h
    · cases h
  | streamsEnded =>
    simp only [forwardStep] at h
    split at h
    · cases h
      exact .own (Or.inl rfl) rfl rfl rfl rfl rfl rfl rfl nofun
    · cases h
  | sent ok =>
    simp only [forwardStep] at h
    split at h
    · split at h
      · cases h
        exact .own (Or.inl rfl) rfl rfl rfl rfl rfl rfl rfl nofun
      · cases h
        exact .own (Or.inl rfl) rfl rfl rfl rfl rfl rfl rfl nofun
      · cases ok with
        | true =>
          cases h
          exact .own (Or.inl rfl) rfl rfl rfl rfl rfl rfl rfl nofun
        | false =>
          cases h
          exact .own (Or.inl rfl) rfl rfl rfl rfl rfl rfl rfl fun _ => Or.inr rfl
    · cases h

/-- What a step of the flow-control task does to the service, the request in hand, the returned
requests and the UI event loops. -/
inductive FlowMove (d : Daemon) (l : FlowLabel) (d' : Daemon) : Prop where
  | stays (tasks : d'.tasks = d.tasks) (request : d'.phase.request = d.phase.request)
      (returned : d'.returned = d.returned) (loops : d'.loops = d.loops)
      (nextLoop : d'.nextLoop = d.nextLoop)
  | accepts (request : CredentialRequest) (requestId : RequestId) (c : RequestContext)
      (step : Tasks.step d.tasks (.init request requestId) = some d'.tasks)
      (free : d.phase.request = none) (empty : d.tasks.service.ctx = none)
      (ctx : d'.tasks.service.ctx = some c) (phase : d'.phase.request = some c)
      (returned : d'.returned = d.returned) (loops : d'.loops = d.loops)
      (nextLoop : d'.nextLoop = d.nextLoop)
  | refuses (request : CredentialRequest) (requestId : RequestId) (response : Response)
      (step : Tasks.step d.tasks (.init request requestId) = some d'.tasks)
      (free : d.phase.request = none) (full : d.tasks.service.ctx ≠ none)
      (phase : d'.phase.request = none) (returned : d'.returned = d.returned ++ [(none, response)])
      (loops : d'.loops = d.loops) (nextLoop : d'.nextLoop = d.nextLoop)
  | launches (c : RequestContext) (tasks : d'.tasks = d.tasks) (request : d.phase.request = some c)
      (phase : d'.phase.request = some c) (returned : d'.returned = d.returned)
      (loops : d'.loops = Function.update d.loops d.nextLoop (some (.new c)))
      (nextLoop : d'.nextLoop = d.nextLoop + 1)
  | returns (c : RequestContext) (response : Response) (tasks : d'.tasks = d.tasks)
      (request : d.phase.request = some c) (phase : d'.phase.request = none)
      (returned : d'.returned = d.returned ++ [(some c, response)]) (loops : d'.loops = d.loops)
      (nextLoop : d'.nextLoop = d.nextLoop)
      (why : (d.tasks.service.channels c.responseChannel).recv = .ready response ∨
        ∃ args err, d.phase = .session c args ∧ l = .createSession (.error err) ∧
          response = .error (.internal err))
  | panics (c : RequestContext) (tasks : d'.tasks = d.tasks) (request : d.phase.request = some c)
      (closed : (d.tasks.service.channels c.responseChannel).recv = .closed)

theorem flowStep_frame {d d' : Daemon} {l : FlowLabel} (h : d.flowStep l = some d') :
    d'.forwards = d.forwards ∧ d'.poisoned = d.poisoned := by
  cases l with
  | receive =>
    simp only [flowStep] at h
    split at h
    · cases h
      exact ⟨rfl, rfl⟩
    · cases h
  | initRequest requestId =>
    simp only [flowStep] at h
    split at h
    · split at h
      · cases h
        exact ⟨rfl, rfl⟩
      · obtain ⟨t, -, rfl⟩ := onTasks_some h
        split <;> exact ⟨rfl, rfl⟩
    · cases h
  | listDevices =>
    simp only [flowStep] at h
    split at h
    · cases h
      exact ⟨rfl, rfl⟩
    · cases h
  | devices hybrid nfc session =>
    simp only [flowStep] at h
    split at h
    · cases h
      exact ⟨rfl, rfl⟩
    · cases h
  | createSession outcome =>
    simp only [flowStep] at h
    split at h
    · cases h
      exact ⟨rfl, rfl⟩
    · cases h
      exact ⟨rfl, rfl⟩
    · cases h
  | respond =>
    simp only [flowStep] at h
    split at h
    · split at h
      · cases h
        exact ⟨rfl, rfl⟩
      · cases h
        exact ⟨rfl, rfl⟩
      · cases h
    · cases h

theorem flowStep_move {d d' : Daemon} {l : FlowLabel} (h : d.flowStep l = some d') :
    FlowMove d l d' := by
  cases l with
  | receive =>
    simp only [flowStep] at h
    split at h
    · rename_i m queue hphase hqueue
      cases h
      exact .stays rfl (by rw [hphase]; rfl) rfl rfl rfl
    · cases h
  | initRequest requestId =>
    simp only [flowStep] at h
    split at h
    · rename_i m hphase hsvc
      have hnone : d.phase.request = none := by rw [hphase]; rfl
      split at h
      · cases h
        exact .stays rfl hnone.symm rfl rfl rfl
      · obtain ⟨t, ht, rfl⟩ := onTasks_some h
        have hservice := (Tasks.init_some ht).2
        cases hctx : d.tasks.service.ctx with
        | none =>
          simp only [Service.initRequest, hctx] at hservice ⊢
          exact .accepts m.request requestId _ ht hnone hctx (by rw [hservice]) rfl rfl rfl rfl
        | some c =>
          simp only [Service.initRequest, hctx]
          have hfull : d.tasks.service.ctx ≠ none := by rw [hctx]; exact Option.some_ne_none c
          exact .refuses m.request requestId _ ht hnone hfull rfl rfl rfl rfl
    · cases h
  | listDevices =>
    simp only [flowStep] at h
    split at h
    · rename_i m c hphase hsvc
      cases h
      exact .stays rfl (by rw [hphase]; rfl) rfl rfl rfl
    · cases h
  | devices hybrid nfc session =>
    simp only [flowStep] at h
    split at h
    · rename_i m c hphase
      cases h
      exact .stays rfl (by rw [hphase]; rfl) rfl rfl rfl
    · cases h
  | createSession outcome =>
    simp only [flowStep] at h
    split at h
    · rename_i c args _ hphase
      cases h
      exact .launches c rfl (by rw [hphase]; rfl) rfl rfl rfl rfl
    · rename_i c args err hphase
      cases h
      exact .returns c _ rfl (by rw [hphase]; rfl) rfl rfl rfl rfl
        (Or.inr ⟨args, err, hphase, rfl, rfl⟩)
    · cases h
  | respond =>
    simp only [flowStep] at h
    split at h
    · rename_i c hphase
      have hrequest : d.phase.request = some c := by rw [hphase]; rfl
      split at h
      · rename_i response hrecv
        cases h
        exact .returns c response rfl hrequest rfl rfl rfl rfl (Or.inl hrecv)
      · rename_i hrecv
        cases h
        exact .panics c rfl hrequest hrecv
      · cases h
    · cases h

/-! ### The invariant of the daemon -/

structure Wf (d : Daemon) : Prop where
  tasks : Tasks.Inv d.tasks
  phase : ∀ c, d.phase.request = some c → c ∈ d.tasks.service.accepted
  loops : ∀ k lp, d.loops k = some lp → k < d.nextLoop ∧ lp.request ∈ d.tasks.service.accepted
  forwards : ∀ f fw, d.forwards f = some fw → (d.loops fw.loop).isSome

theorem wf_init : Wf init where
  tasks := Tasks.inv_init
  phase := by intro c h; cases h
  loops := by intro k lp h; cases h
  forwards := by intro f fw h; cases h

theorem Wf.loopStep {d d' : Daemon} {k : Nat} {lp : UiLoop} {l : LoopLabel} (h : Wf d)
    (hk : d.loops k = some lp) (m : LoopMove d k lp l d') : Wf d' := by
  obtain ⟨lp', hloops, hrequest, -⟩ := m.loop
  have haccepted := m.quiet.slot.1
  refine ⟨m.quiet.inv h.tasks, ?_, ?_, ?_⟩
  · intro c hc
    rw [m.phase] at hc
    rw [haccepted]
    exact h.phase c hc
  · intro k' lp'' hk'
    rw [hloops, Function.update_apply] at hk'
    rw [m.nextLoop, haccepted]
    split at hk'
    · rename_i he
      cases hk'
      rw [he, hrequest]
      exact h.loops k lp hk
    · exact h.loops k' lp'' hk'
  · intro f fw hf
    rw [hloops, Function.update_apply]
    split
    · rfl
    · rcases m.forwards f fw hf with hold | ⟨he, -⟩
      · exact h.forwards f fw hold
      · exact absurd he ‹_›

theorem Wf.forwardStep {d d' : Daemon} {f : Nat} {fw : Forward} {l : ForwardLabel} (h : Wf d)
    (hf : d.forwards f = some fw) (m : ForwardMove d f fw l d') : Wf d' := by
  obtain ⟨fw', hforwards, hloop, -⟩ := m.forward
  have haccepted := m.quiet.slot.1
  refine ⟨m.quiet.inv h.tasks, ?_, ?_, ?_⟩
  · intro c hc
    rw [m.phase] at hc
    rw [haccepted]
    exact h.phase c hc
  · intro k lp' hk
    obtain ⟨lp, hlp, hrequest, -⟩ := m.loops k lp' hk
    rw [m.nextLoop, haccepted, hrequest]
    exact h.loops k lp hlp
  · intro g fw'' hg
    rw [hforwards, Function.update_apply] at hg
    split at hg
    · cases hg
      rw [hloop]
      exact m.live _ (h.forwards f fw hf)
    · exact m.live _ (h.forwards g fw'' hg)

theorem Wf.flowStep {d d' : Daemon} {l : FlowLabel} (h : Wf d) (hl : d.flowStep l = some d') :
    Wf d' := by
  have hforwards := (flowStep_frame hl).1
  have hsame : ∀ f fw, d'.forwards f = some fw → (d.loops fw.loop).isSome := by
    intro f fw hf
    rw [hforwards] at hf
    exact h.forwards f fw hf
  have hkept : ∀ k, (d.loops k).isSome → d'.loops = d.loops → (d'.loops k).isSome := by
    intro k hk he
    rw [he]
    exact hk
  cases flowStep_move hl with
  | stays tasks request returned loops nextLoop =>
    refine ⟨by rw [tasks]; exact h.tasks, ?_, ?_, fun f fw hf => hkept _ (hsame f fw hf) loops⟩
    · rw [request, tasks]
      exact h.phase
    · rw [loops, nextLoop, tasks]
      exact h.loops
  | accepts request requestId c step free empty ctx phase returned loops nextLoop =>
    have hmove := Tasks.slotMove_of_step step
    have hinv := Tasks.inv_step h.tasks step
    refine ⟨hinv, ?_, ?_, fun f fw hf => hkept _ (hsame f fw hf) loops⟩
    · intro c' hc
      rw [phase] at hc
      cases hc
      exact (hinv.slotInv.slot c ctx).1
    · intro k lp hk
      rw [loops] at hk
      rw [nextLoop]
      exact ⟨(h.loops k lp hk).1, hmove.mem_accepted (h.loops k lp hk).2⟩
  | refuses request requestId response step free full phase returned loops nextLoop =>
    have hmove := Tasks.slotMove_of_step step
    refine ⟨Tasks.inv_step h.tasks step, ?_, ?_, fun f fw hf => hkept _ (hsame f fw hf) loops⟩
    · intro c hc
      rw [phase] at hc
      cases hc
    · intro k lp hk
      rw [loops] at hk
      rw [nextLoop]
      exact ⟨(h.loops k lp hk).1, hmove.mem_accepted (h.loops k lp hk).2⟩
  | launches c tasks request phase returned loops nextLoop =>
    refine ⟨by rw [tasks]; exact h.tasks, ?_, ?_, ?_⟩
    · rw [phase, ← request, tasks]
      exact h.phase
    · intro k lp hk
      rw [loops, Function.update_apply] at hk
      rw [nextLoop, tasks]
      split at hk
      · rename_i he
        cases hk
        rw [he]
        exact ⟨Nat.lt_succ_self _, h.phase c request⟩
      · exact ⟨Nat.lt_succ_of_lt (h.loops k lp hk).1, (h.loops k lp hk).2⟩
    · intro f fw hf
      rw [loops, Function.update_apply]
      split
      · rfl
      · exact hsame f fw hf
  | returns c response tasks request phase returned loops nextLoop why =>
    refine ⟨by rw [tasks]; exact h.tasks, ?_, ?_, fun f fw hf => hkept _ (hsame f fw hf) loops⟩
    · rw [phase]
      intro c' hc
      cases hc
    · rw [loops, nextLoop, tasks]
      exact h.loops
  | panics c tasks request closed =>
    exact absurd closed (h.tasks.recv_ne_closed (h.phase c request))

theorem Wf.step {credHash : Bytes → String} {d d' : Daemon} {l : Label} (h : Wf d)
    (hl : step credHash d l = some d') : Wf d' := by
  cases l with
  | submit m =>
    simp only [Daemon.step] at hl
    split at hl
    · cases hl
      exact ⟨h.tasks, h.phase, h.loops, h.forwards⟩
    · cases hl
  | flow l => exact h.flowStep hl
  | ui k l =>
    obtain ⟨lp, hk, hstep⟩ := Option.bind_eq_some_iff.mp hl
    exact h.loopStep hk (loopStep_move hstep)
  | forward f l =>
    obtain ⟨fw, hf, hstep⟩ := Option.bind_eq_some_iff.mp hl
    exact h.forwardStep hf (forwardStep_move hf hstep)
  | advance =>
    obtain ⟨t, ht, rfl⟩ := onTasks_some hl
    have hquiet : Tasks.Quiet d.tasks t := .of_step ht fun _ _ => nofun
    have haccepted := hquiet.slot.1
    refine ⟨hquiet.inv h.tasks, ?_, ?_, h.forwards⟩
    · intro c hc
      rw [haccepted]
      exact h.phase c hc
    · intro k lp hk
      rw [haccepted]
      exact h.loops k lp hk

theorem wf_of_reaches {credHash : Bytes → String} {d : Daemon}
    (h : Reaches (step credHash) init d) : Wf d :=
  reaches_invariant (fun _ _ _ hi hl => hi.step hl) wf_init h

end Daemon

end Credentialsd
