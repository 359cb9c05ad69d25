import Credentialsd.FlowInvariant

/-!
# Discoveries without a context

A discovery that the UI asks for starts its streams for the context in the slot and
panics without one, with the mutex of the slot locked. The condition under which
there is one, and what the panic does to the next request.
-/

namespace Credentialsd
open Machine

namespace Daemon

def startsStream : Label → Bool
  | .ui _ .getUsb => true
  | .ui _ .getHybrid => true
  | _ => false

/-- When a stream is started, the token of some accepted request is uncancelled: that of the
discovery's own request or of a later one. -/
def startsForLive (d : Daemon) (l : Label) : Bool :=
  !startsStream l ||
    d.tasks.service.accepted.any fun c => !d.tasks.service.cancelled c.cancellation

theorem startsStream_cases {credHash : Bytes → String} {d d' : Daemon} {l : Label}
    (hstarts : startsStream l = true) (hp : d.poisoned = false)
    (hl : step credHash d l = some d') :
    d.tasks.lock = none ∧
      (d.tasks.service.ctx ≠ none ∧ d'.poisoned = false ∨
        d.tasks.service.ctx = none ∧ d'.poisoned = true) := by
  have hget : ∀ k lp kind next, d.getCredential k lp kind next = some d' →
      d.tasks.lock = none ∧
        (d.tasks.service.ctx ≠ none ∧ d'.poisoned = false ∨
          d.tasks.service.ctx = none ∧ d'.poisoned = true) := by
    intro k lp kind next h
    simp only [getCredential, hp, Bool.false_eq_true, if_false] at h
    split at h
    · rename_i c hlock hc
      obtain ⟨t, -, rfl⟩ := onTasks_some h
      refine ⟨hlock, Or.inl ⟨?_, hp⟩⟩
      intro hnone
      simp only [Service.getCredential, hnone] at hc
      cases hc
    · rename_i p hlock hc
      cases h
      refine ⟨hlock, Or.inr ⟨?_, rfl⟩⟩
      unfold Service.getCredential at hc
      split at hc
      · cases hc
      · assumption
    · cases h
  unfold startsStream at hstarts
  split at hstarts
  · rename_i k
    obtain ⟨lp, hk, hstep⟩ := Option.bind_eq_some_iff.mp hl
    simp only [loopStep] at hstep
    split at hstep
    · exact hget _ _ _ _ hstep
    · cases hstep
  · rename_i k
    obtain ⟨lp, hk, hstep⟩ := Option.bind_eq_some_iff.mp hl
    simp only [loopStep] at hstep
    split at hstep
    · exact hget _ _ _ _ hstep
    · cases hstep
  · cases hstarts

theorem ctx_ne_none_iff {d : Daemon} (hd : Wf d) (hfree : d.tasks.lock = none) :
    d.tasks.service.ctx ≠ none ↔
      (d.tasks.service.accepted.any fun c => !d.tasks.service.cancelled c.cancellation) = true := by
  rw [List.any_eq_true]
  constructor
  · intro hfull
    obtain ⟨c, hctx⟩ := Option.ne_none_iff_exists'.mp hfull
    obtain ⟨hc, hlive, -⟩ := hd.tasks.slotInv.slot c hctx
    exact ⟨c, hc, by rw [hlive]; rfl⟩
  · rintro ⟨c, hc, hlive⟩ hnone
    have hlt := hd.tasks.slotInv.token_lt hc
    obtain ⟨a, ha, -⟩ := hd.tasks.ctx_of_uncancelled hfree hlt (by simpa using hlive)
    rw [hnone] at ha
    cases ha

theorem poisoned_step {credHash : Bytes → String} {d d' : Daemon} {l : Label} (hd : Wf d)
    (hok : d.startsForLive l = true) (hl : step credHash d l = some d')
    (hp : d.poisoned = false) :
    d'.poisoned = false ∧ (startsStream l = true → d.tasks.service.ctx ≠ none) := by
  cases hstarts : startsStream l with
  | true =>
    obtain ⟨hfree, ⟨hfull, hp'⟩ | ⟨hnone, -⟩⟩ := startsStream_cases hstarts hp hl
    · exact ⟨hp', fun _ => hfull⟩
    · simp only [startsForLive, hstarts, Bool.not_true, Bool.false_or] at hok
      exact absurd hnone ((ctx_ne_none_iff hd hfree).mpr hok)
  | false =>
    refine ⟨?_, nofun⟩
    cases l with
    | submit m =>
      simp only [step] at hl
      split at hl
      · cases hl
        exact hp
      · cases hl
    | flow l => exact (flowStep_frame hl).2.trans hp
    | ui k l =>
      obtain ⟨lp, hk, hstep⟩ := Option.bind_eq_some_iff.mp hl
      rcases (loopStep_move hstep).poisoned with he | ⟨rfl | rfl, -⟩
      · exact he.trans hp
      · cases hstarts
      · cases hstarts
    | forward f l =>
      obtain ⟨fw, hf, hstep⟩ := Option.bind_eq_some_iff.mp hl
      exact (forwardStep_move hf hstep).poisoned.trans hp
    | advance =>
      obtain ⟨t, -, rfl⟩ := onTasks_some hl
      exact hp

/- A poisoned mutex stays poisoned, whichever task moves. -/
theorem poisoned_kept {credHash : Bytes → String} {d d' : Daemon} {l : Label}
    (hl : step credHash d l = some d') (hp : d.poisoned = true) : d'.poisoned = true := by
  cases l with
  | submit m =>
    simp only [step] at hl
    split at hl
    · cases hl
      exact hp
    · cases hl
  | flow l => exact (flowStep_frame hl).2.trans hp
  | ui k l =>
    obtain ⟨lp, hk, hstep⟩ := Option.bind_eq_some_iff.mp hl
    rcases (loopStep_move hstep).poisoned with he | ⟨-, hfalse, -⟩
    · exact he.trans hp
    · rw [hp] at hfalse
      cases hfalse
  | forward f l =>
    obtain ⟨fw, hf, hstep⟩ := Option.bind_eq_some_iff.mp hl
    exact (forwardStep_move hf hstep).poisoned.trans hp
  | advance =>
    obtain ⟨t, -, rfl⟩ := onTasks_some hl
    exact hp

theorem startsForLive_poisons {credHash : Bytes → String} {d d' : Daemon} {l : Label} (hd : Wf d)
    (hok : d.startsForLive l = false) (hp : d.poisoned = false)
    (hl : step credHash d l = some d') : d.tasks.service.ctx = none ∧ d'.poisoned = true := by
  simp only [startsForLive, Bool.or_eq_false_iff, Bool.not_eq_false'] at hok
  obtain ⟨hstarts, hnone⟩ := hok
  obtain ⟨hfree, ⟨hfull, -⟩ | hempty⟩ := startsStream_cases hstarts hp hl
  · have htrue := (ctx_ne_none_iff hd hfree).mp hfull
    rw [hnone] at htrue
    cases htrue
  · exact hempty

theorem init_panics {credHash : Bytes → String} {d d' : Daemon} {requestId : RequestId}
    (hp : d.poisoned = true) (hl : step credHash d (.flow (.initRequest requestId)) = some d') :
    d'.phase = .panicked := by
  simp only [step, flowStep] at hl
  split at hl
  · rw [hp, if_pos rfl] at hl
    cases hl
    rfl
  · cases hl

/-- In a run in which streams are started only while some accepted request is uncancelled, every
stream is started for a context and the mutex is never poisoned. The first stream that is started at
any other moment finds no context and poisons the mutex, and the next `init_request` panics. -/
theorem discovery_finds_context (credHash : Bytes → String) :
    (∀ ls, Along (step credHash) (fun d l _ => d.startsForLive l = true) init ls →
      Along (step credHash)
        (fun d l _ => startsStream l = true → d.tasks.service.ctx ≠ none) init ls ∧
      ∀ d, exec (step credHash) init ls = some d → d.poisoned = false) ∧
    ∀ ls d l d', exec (step credHash) init ls = some d → d.poisoned = false →
      step credHash d l = some d' → d.startsForLive l = false →
        d.tasks.service.ctx = none ∧ d'.poisoned = true ∧
        ∀ d'' requestId, step credHash d' (.flow (.initRequest requestId)) = some d'' →
          d''.phase = .panicked := by
  refine ⟨fun ls ha => ⟨?_, fun d hrun => ?_⟩, ?_⟩
  · refine along_mono (I := fun d => Wf d ∧ d.poisoned = false) ?_ ⟨wf_init, rfl⟩ ha
    rintro d l d' ⟨hd, hp⟩ hok hl
    obtain ⟨hp', hctx⟩ := poisoned_step hd hok hl hp
    exact ⟨⟨hd.step hl, hp'⟩, hctx⟩
  · have hinv : Wf d ∧ d.poisoned = false :=
      exec_invariant (I := fun d => Wf d ∧ d.poisoned = false)
        (fun d l d' hi hok hl => ⟨hi.1.step hl, (poisoned_step hi.1 hok hl hi.2).1⟩)
        ⟨wf_init, rfl⟩ ha hrun
    exact hinv.2
  · intro ls d l d' hrun hp hl hok
    have hd : Wf d := wf_of_reaches ⟨ls, hrun⟩
    obtain ⟨hempty, hp'⟩ := startsForLive_poisons hd hok hp hl
    exact ⟨hempty, hp', fun d'' requestId hl' => init_panics hp' hl'⟩

def sampleUiRequest (rpId : String) : UiRequestContext :=
  ⟨Tasks.sampleRequest rpId, ⟨"xyz.iinuwa.credentialsd.DemoCredentialsUi", 1⟩, none, none⟩

def setUpRun (rpId : String) (requestId : RequestId) : List Label :=
  [.submit (sampleUiRequest rpId), .flow .receive, .flow (.initRequest requestId),
    .flow .listDevices, .flow (.devices true false 5)]

def discoveryRun : List Label :=
  setUpRun "a.test" 7 ++
  [.flow (.createSession (.ok ())), .ui 0 (.event .discoveryRequested), .ui 0 .receive,
    .ui 0 .lockService, .ui 0 (.transports true false), .ui 0 .getUsb, .ui 0 .forward]

/-- The UI asks twice for a discovery; the credential of the first one is made while the second is
looking for transports. -/
def doubleDiscoveryRun : List Label :=
  discoveryRun ++
  [.ui 0 (.event .discoveryRequested), .ui 0 .receive, .ui 0 .lockService,
    .forward 0 (.event 0 (.usb (.completed Tasks.sampleResponse))), .forward 0 .check,
    .forward 0 .take, .advance, .advance, .advance, .ui 0 (.transports true false)]

theorem discovery_finds_context_runs :
    (∃ d, exec (step fun _ => "") init (doubleDiscoveryRun.take 21) = some d ∧
      d.poisoned = false) ∧
    ∃ d d', exec (step fun _ => "") init doubleDiscoveryRun = some d ∧
      step (fun _ => "") d (.ui 0 .getUsb) = some d' ∧ d'.poisoned = true :=
  ⟨⟨_, rfl, ((discovery_finds_context fun _ => "").1 (doubleDiscoveryRun.take 21)
      (by decide)).2 _ rfl⟩,
    _, _, rfl, rfl, ((discovery_finds_context fun _ => "").2 doubleDiscoveryRun _ (.ui 0 .getUsb) _
      rfl rfl rfl rfl).2.1⟩

/-- The second discovery meets the empty slot, and the next request of any client dies with it. -/
theorem double_discovery_panics :
    ∃ d, exec (step fun _ => "") init (doubleDiscoveryRun ++ [.ui 0 .getUsb, .flow .respond,
        .submit (sampleUiRequest "b.test"), .flow .receive, .flow (.initRequest 8)]) = some d ∧
      (d.loops 0).map (·.pc) = some (.stopped .panicked) ∧ d.poisoned = true ∧
      d.phase = .panicked ∧
      ¬ Along (step fun _ => "")
        (fun d l _ => startsStream l = true → d.tasks.service.ctx ≠ none) init
        (doubleDiscoveryRun ++ [.ui 0 .getUsb]) := by
  refine ⟨_, rfl, rfl, rfl, rfl, fun ha => ?_⟩
  exact along_snoc ha rfl rfl rfl rfl

end Daemon

end Credentialsd
