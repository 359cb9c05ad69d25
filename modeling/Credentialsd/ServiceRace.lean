import Credentialsd.ServiceInvariant

/-!
# Late events of one request and the context of the next

`complete_request` takes whatever context it finds. A stream that passed its
token check before its request was cancelled can therefore find the context of
the next request. `takesOwn` excludes exactly that step; along a run that keeps
to it, no stream touches the token or the channel of a request that is not its
own.
-/

namespace Credentialsd
open Machine

namespace Tasks

def mover (s : Tasks) : Label → Option Nat
  | .event sid _ => some sid
  | .check sid => some sid
  | .take sid => some sid
  | .finish sid => some sid
  | .advance =>
    match s.lock with
    | some (.stream sid, _) => some sid
    | _ => none
  | _ => none

/-- The stream that takes the step leaves the other requests' tokens and channels alone. A stream
belongs to the request whose token it was started with. -/
def OwnOnly (s : Tasks) (l : Label) (t : Tasks) : Prop :=
  ∀ sid u, s.mover l = some sid → s.streams sid = some u →
    ∀ b ∈ s.service.accepted, b.cancellation ≠ u.token →
      t.service.cancelled b.cancellation = s.service.cancelled b.cancellation ∧
      t.service.channels b.responseChannel = s.service.channels b.responseChannel

/-- At the lock-and-take of a terminal event, the stream's token is still uncancelled or the slot
is empty. -/
def takesOwn (s : Tasks) : Label → Bool
  | .take sid =>
    match s.streams sid with
    | some ⟨_, token, .passed e⟩ =>
      e.completion.isNone || !s.service.cancelled token || s.service.ctx.isNone
    | _ => true
  | _ => true

def HolderOwns (s : Tasks) : Prop :=
  ∀ sid x, s.lock = some (.stream sid, x) →
    ∃ u, s.streams sid = some u ∧ ∀ c, x.context = some c → c.cancellation = u.token

theorem HolderOwns.setStream {s : Tasks} (h : HolderOwns s) {sid : Nat} {kind : StreamKind}
    {token : Nat} {pc pc' : PollPc} (hs : s.streams sid = some ⟨kind, token, pc⟩) :
    HolderOwns (s.setStream sid ⟨kind, token, pc'⟩) := by
  intro sid' x hlock
  obtain ⟨u, hu, hown⟩ := h sid' x hlock
  by_cases he : sid' = sid
  · subst he
    rw [hs] at hu
    cases hu
    exact ⟨_, setStream_self s sid' _, hown⟩
  · exact ⟨u, by rw [setStream_other s sid _ he]; exact hu, hown⟩

theorem HolderOwns.of_free {s : Tasks} (h : s.lock = none) : HolderOwns s := by
  intro sid x hlock
  rw [h] at hlock
  cases hlock

/- The step lemma: only `take` hands a context to a stream. -/
theorem HolderOwns.step {s t : Tasks} {l : Label} (h : HolderOwns s) (hinv : Inv s)
    (htake : s.takesOwn l = true) (hl : step s l = some t) : HolderOwns t := by
  cases l with
  | init request requestId =>
    obtain ⟨hfree, rfl⟩ := init_some hl
    exact .of_free hfree
  | cancel requestId =>
    obtain ⟨-, ⟨c, -, -, rfl⟩ | ⟨rfl, -⟩⟩ := cancel_some hl
    · intro sid x hlock
      cases hlock
    · exact h
  | start kind =>
    obtain ⟨c, hfree, -, rfl⟩ := start_some hl
    exact .of_free hfree
  | event sid e =>
    obtain ⟨kind, token, pc, pc', hs, rfl⟩ := poll_some (Or.inl ⟨e, rfl⟩) hl
    exact h.setStream hs
  | check sid =>
    obtain ⟨kind, token, pc, pc', hs, rfl⟩ := poll_some (Or.inr (Or.inl rfl)) hl
    exact h.setStream hs
  | finish sid =>
    obtain ⟨kind, token, pc, pc', hs, rfl⟩ := poll_some (Or.inr (Or.inr rfl)) hl
    exact h.setStream hs
  | take sid =>
    obtain ⟨kind, token, e, hs, ⟨rfl, -⟩ | ⟨response, c, hresponse, hfree, hctx, rfl⟩⟩ :=
      take_some hl
    · exact h.setStream hs
    · intro sid' x hlock
      cases hlock
      refine ⟨_, setStream_self s sid _, fun d hd => ?_⟩
      cases hd
      have hlive : s.service.cancelled token = false := by
        simpa [takesOwn, hs, hresponse, hctx] using htake
      obtain ⟨a, ha, htoken⟩ := hinv.ctx_of_uncancelled hfree (hinv.streamToken sid _ hs) hlive
      rw [hctx] at ha
      cases ha
      exact htoken
  | advance =>
    obtain ⟨holder, x, hheld, -, hlock, -, -⟩ := advance_some hl
    intro sid y hy
    cases x with
    | unlock =>
      rw [hlock] at hy
      cases hy
    | cancelToken c response =>
      simp only [Tasks.step, hheld, Section.next] at hl
      cases hl
      cases hy
      obtain ⟨u, hu, hown⟩ := h sid _ hheld
      exact ⟨u, hu, hown⟩
    | sendResponse c response =>
      simp only [Tasks.step, hheld, Section.next] at hl
      cases hl
      cases hy
      obtain ⟨u, hu, -⟩ := h sid _ hheld
      exact ⟨u, hu, fun c hc => by cases hc⟩

theorem Section.effect_other {s : Tasks} (hinv : Inv s) {holder : Holder} {x : Section}
    (hheld : s.lock = some (holder, x)) {b : RequestContext} (hb : b ∈ s.service.accepted)
    (hne : ∀ c, x.context = some c → c.cancellation ≠ b.cancellation) :
    (x.effect s.service).cancelled b.cancellation = s.service.cancelled b.cancellation ∧
      (x.effect s.service).channels b.responseChannel = s.service.channels b.responseChannel := by
  have hok := (hinv.slotInv.held holder x hheld).2
  cases x with
  | cancelToken c response =>
    exact ⟨s.service.cancel_other (hne c rfl).symm, rfl⟩
  | sendResponse c response =>
    refine ⟨rfl, s.service.send_other _ ?_⟩
    intro he
    have hbc := hinv.slotInv.channelInj b hb c hok.1 he
    exact hne c rfl (by rw [hbc])
  | unlock => exact ⟨rfl, rfl⟩

theorem HolderOwns.ownOnly {s t : Tasks} {l : Label} (h : HolderOwns s) (hinv : Inv s)
    (hl : Tasks.step s l = some t) : OwnOnly s l t := by
  intro sid u hmover hu b hb hne
  have hpoll : ∀ sid', ((∃ e, l = .event sid' e) ∨ l = .check sid' ∨ l = .finish sid') →
      t.service = s.service := by
    intro sid' hlabel
    obtain ⟨kind, token, pc, pc', -, rfl⟩ := poll_some hlabel hl
    rfl
  cases l with
  | init request requestId => cases hmover
  | cancel requestId => cases hmover
  | start kind => cases hmover
  | event sid' e =>
    rw [hpoll sid' (Or.inl ⟨e, rfl⟩)]
    exact ⟨rfl, rfl⟩
  | check sid' =>
    rw [hpoll sid' (Or.inr (Or.inl rfl))]
    exact ⟨rfl, rfl⟩
  | finish sid' =>
    rw [hpoll sid' (Or.inr (Or.inr rfl))]
    exact ⟨rfl, rfl⟩
  | take sid' =>
    obtain ⟨kind, token, e, -, ⟨rfl, -⟩ | ⟨response, c, -, -, -, rfl⟩⟩ := take_some hl
    · exact ⟨rfl, rfl⟩
    · exact ⟨rfl, rfl⟩
  | advance =>
    obtain ⟨holder, x, hheld, hservice, -⟩ := advance_some hl
    rw [hservice]
    refine Section.effect_other hinv hheld hb ?_
    simp only [mover, hheld] at hmover
    cases holder with
    | canceller => cases hmover
    | stream sid' =>
      cases hmover
      obtain ⟨u', hu', hown⟩ := h sid x hheld
      rw [hu] at hu'
      cases hu'
      intro c hc
      rw [hown c hc]
      exact hne.symm

/-- A terminal event that is taken although the stream's own request is cancelled is delivered to
the request that is in the slot. -/
theorem take_crosses {s t : Tasks} {sid : Nat} (hinv : Inv s) (hl : step s (.take sid) = some t)
    (htake : s.takesOwn (.take sid) = false) :
    ∃ stream b response u, s.streams sid = some stream ∧ s.service.ctx = some b ∧
      b.cancellation ≠ stream.token ∧ exec step t [.advance, .advance] = some u ∧
      s.service.cancelled b.cancellation = false ∧ u.service.cancelled b.cancellation = true ∧
      (u.service.channels b.responseChannel).Answered response := by
  obtain ⟨kind, token, e, hs, hcase⟩ := take_some hl
  simp only [takesOwn, hs, Bool.or_eq_false_iff, Option.isNone_eq_false_iff, Bool.not_eq_false']
    at htake
  obtain ⟨⟨hterminal, hcancelled⟩, hfull⟩ := htake
  rcases hcase with ⟨-, hnone | ⟨-, hempty⟩⟩ | ⟨response, b, -, -, hctx, rfl⟩
  · rw [hnone] at hterminal
    cases hterminal
  · rw [hempty] at hfull
    cases hfull
  · obtain ⟨-, hlive, hfresh⟩ := hinv.slotInv.slot b hctx
    refine ⟨_, b, response, _, hs, hctx, ?_, rfl, hlive, ?_, ?_⟩
    · intro he
      rw [he, hcancelled] at hlive
      cases hlive
    · exact Service.cancel_self _ _
    · simp only [Section.effect, Service.send_self, Service.cancel_channels]
      change ((s.service.channels b.responseChannel).send response).Answered response
      rw [hfresh]
      exact Oneshot.send_fresh response

/-- Streams keep to their own request in every run in which each lock-and-take of a terminal event
finds the stream's token uncancelled or the slot empty; a run that goes on to any other one delivers
the response to another request. -/
theorem streams_keep_to_own_request (ls : List Label) :
    (Along step (fun s l _ => s.takesOwn l = true) init ls → Along step OwnOnly init ls) ∧
    ∀ s t sid, exec step init ls = some s → step s (.take sid) = some t →
      s.takesOwn (.take sid) = false →
      ∃ stream b response u, s.streams sid = some stream ∧ s.service.ctx = some b ∧
        b.cancellation ≠ stream.token ∧ exec step t [.advance, .advance] = some u ∧
        s.service.cancelled b.cancellation = false ∧ u.service.cancelled b.cancellation = true ∧
        (u.service.channels b.responseChannel).Answered response := by
  constructor
  · intro ha
    refine along_mono (I := fun s => Inv s ∧ HolderOwns s) ?_ ⟨inv_init, .of_free rfl⟩ ha
    rintro s l t ⟨hinv, hown⟩ htake hl
    exact ⟨⟨inv_step hinv hl, hown.step hinv htake hl⟩, hown.ownOnly hinv hl⟩
  · intro s t sid hrun hl htake
    exact take_crosses (inv_of_reaches ⟨ls, hrun⟩) hl htake

/- The first request is cancelled between the token check and the lock of its USB stream, and the
second one is accepted in between. -/
def crossingRun : List Label :=
  [.init (sampleRequest "a.test") 7, .start .usb, .event 0 (.usb (.completed sampleResponse)),
    .check 0, .cancel 7, .advance, .advance, .advance, .init (sampleRequest "b.test") 8, .take 0,
    .advance, .advance]

/- A completed request whose stream meets its own context, and the crossing take above. -/
theorem streams_keep_to_own_request_runs :
    Along step OwnOnly init (crossingRun.take 4 ++ [.take 0, .advance, .advance, .advance]) ∧
    ∃ (b : RequestContext) (u : Tasks) (response : Response),
      exec step init crossingRun = some u ∧ b.cancellation = 1 ∧
      (u.service.channels b.responseChannel).Answered response := by
  refine ⟨(streams_keep_to_own_request _).1 (by decide), ?_⟩
  obtain ⟨stream, b, response, u, hs, hctx, -, hu, -, -, hsent⟩ :=
    (streams_keep_to_own_request (crossingRun.take 9)).2 _ _ 0 rfl rfl rfl
  cases hctx
  exact ⟨_, u, response, hu, rfl, hsent⟩

/-- The credential made for the first request reaches the caller of the second. -/
theorem streams_cross :
    ¬ (∀ ls, Along step OwnOnly init ls) ∧
    ∃ (a b : RequestContext) (u : Tasks),
      exec step init crossingRun = some u ∧ u.service.accepted = [a, b] ∧
      a.requestId = 7 ∧ b.requestId = 8 ∧ (u.streams 0).map (·.token) = some a.cancellation ∧
      u.service.cancelled b.cancellation = true ∧
      (u.service.channels b.responseChannel).Answered (.ok sampleResponse) := by
  refine ⟨fun hall => ?_, _, _, _, rfl, rfl, rfl, rfl, rfl, rfl, rfl⟩
  have hown := along_snoc (hall (crossingRun.take 10 ++ [.advance])) rfl rfl
  have hsame := (hown 0 _ rfl rfl ⟨sampleRequest "b.test", 1, 8, 1⟩ (by decide) (by decide)).1
  cases hsame

end Tasks

end Credentialsd
