import Credentialsd.ServiceInvariant

/-!
# What the streams of one request yield

Here every call of the service is one step, `poll_next` included, and the states
that the streams yield are recorded. `toTasks` forgets the record and runs each
call as its uninterrupted sequence of smaller steps, so the invariant of
`ServiceInvariant` carries over. A request has one outcome at most: the first
terminal state of any of its streams, which is also the response that is sent.
-/

namespace Credentialsd
open Machine

/-! ### Outcomes -/

/-- What a public state says about the end of its request. Whoever cancelled the request knows, so
`RequestCancelled` is no outcome. -/
def CredentialServiceError.outcome :
    CredentialServiceError → Option (Except CredentialServiceError Unit)
  | .requestCancelled => none
  | err => some (.error err)

def HybridState.outcome : HybridState → Option (Except CredentialServiceError Unit)
  | .completed => some (.ok ())
  | .failed err => err.outcome
  | _ => none

def NfcState.outcome : NfcState → Option (Except CredentialServiceError Unit)
  | .completed => some (.ok ())
  | .failed err => err.outcome
  | _ => none

def UsbState.outcome : UsbState → Option (Except CredentialServiceError Unit)
  | .completed => some (.ok ())
  | .failed err => err.outcome
  | _ => none

def DeviceStateUpdate.outcome : DeviceStateUpdate → Option (Except CredentialServiceError Unit)
  | .hybrid state => state.outcome
  | .nfc state => state.outcome
  | .usb state => state.outcome

def outcomeOf (response : Response) : Except CredentialServiceError Unit :=
  response.map fun _ => ()

theorem CredentialServiceError.completion_outcome (err : CredentialServiceError) :
    err.completion.map outcomeOf = err.outcome := by
  cases err <;> rfl

theorem HandlerEvent.outcome_eq {credHash : Bytes → String} {e : HandlerEvent}
    {u : DeviceStateUpdate} (h : e.toUpdate credHash = .ok u) :
    u.outcome = e.completion.map outcomeOf := by
  cases e with
  | hybrid state =>
    cases h
    cases state with
    | failed err => exact err.completion_outcome.symm
    | init qrCode => rfl
    | connecting => rfl
    | connected => rfl
    | completed response => rfl
  | nfc state =>
    cases state with
    | failed err =>
      cases h
      exact err.completion_outcome.symm
    | selectCredential response credTx =>
      simp only [toUpdate, NfcStateInternal.toPublic] at h
      cases hcreds : response.toCredentials credHash with
      | error p =>
        rw [hcreds] at h
        cases h
      | ok creds =>
        rw [hcreds] at h
        cases h
        rfl
    | _ =>
      cases h
      rfl
  | usb state =>
    cases state with
    | failed err =>
      cases h
      exact err.completion_outcome.symm
    | selectCredential response credTx =>
      simp only [toUpdate, UsbStateInternal.toPublic] at h
      cases hcreds : response.toCredentials credHash with
      | error p =>
        rw [hcreds] at h
        cases h
      | ok creds =>
        rw [hcreds] at h
        cases h
        rfl
    | _ =>
      cases h
      rfl

theorem HandlerEvent.toUpdate_of_completion {e : HandlerEvent} {response : Response}
    (credHash : Bytes → String) (h : e.completion = some response) :
    ∃ u, e.toUpdate credHash = .ok u := by
  cases e with
  | hybrid state => exact ⟨_, rfl⟩
  | nfc state =>
    cases state with
    | selectCredential r credTx => cases h
    | _ => exact ⟨_, rfl⟩
  | usb state =>
    cases state with
    | selectCredential r credTx => cases h
    | _ => exact ⟨_, rfl⟩

/-! ### The machine of atomic calls -/

/-- The service with its streams, each with its kind and its token, and the states yielded so far,
each with the token of the stream that yielded it. -/
structure Polls where
  service : Service
  streams : Nat → Option (StreamKind × Nat)
  nextStream : Nat
  nextChannel : Nat
  yielded : List (Nat × DeviceStateUpdate)

namespace Polls

def init : Polls := ⟨Service.new, fun _ => none, 0, 0, []⟩

inductive Label where
  | init (request : CredentialRequest) (requestId : RequestId)
  | cancel (requestId : RequestId)
  | start (kind : StreamKind)
  | poll (sid : Nat) (inner : Inner HandlerEvent)
  deriving Repr, DecidableEq

def accepts (kind : StreamKind) : Inner HandlerEvent → Bool
  | .item e => e.kind == kind
  | _ => true

def yields : Poll DeviceStateUpdate → List DeviceStateUpdate
  | .item u => [u]
  | _ => []

def polled (s : Polls) (token : Nat) (service : Service) (us : List DeviceStateUpdate) : Polls :=
  { s with service := service, yielded := s.yielded ++ us.map fun u => (token, u) }

def step (credHash : Bytes → String) (s : Polls) : Label → Option Polls
  | .init request requestId =>
    some { s with
      service := (s.service.initRequest request s.nextChannel requestId).2
      nextChannel := s.nextChannel + 1 }
  | .cancel requestId => some { s with service := s.service.cancelRequest requestId }
  | .start kind =>
    match s.service.getCredential with
    | .ok c => some { s with
        streams := Function.update s.streams s.nextStream (some (kind, c.cancellation))
        nextStream := s.nextStream + 1 }
    | .error _ => none
  | .poll sid inner =>
    match s.streams sid with
    | some (kind, token) =>
      if accepts kind inner then
        let (service, poll) := statePollNext credHash s.service token inner
        some (s.polled token service (yields poll))
      else none
    | none => none

def yieldsOf (s : Polls) (token : Nat) : List DeviceStateUpdate :=
  (s.yielded.filter fun y => y.1 == token).map (·.2)

def outcomesOf (s : Polls) (token : Nat) : List (Except CredentialServiceError Unit) :=
  (s.yieldsOf token).filterMap (·.outcome)

theorem polled_yieldsOf (s : Polls) (token token' : Nat) (service : Service)
    (us : List DeviceStateUpdate) :
    (s.polled token service us).yieldsOf token' =
      s.yieldsOf token' ++ if token = token' then us else [] := by
  simp only [yieldsOf, polled, List.filter_append, List.map_append, List.filter_map]
  congr 1
  split
  · rename_i he
    simp [he, Function.comp_def]
  · rename_i hne
    simp [hne, Function.comp_def]

theorem polled_outcomesOf (s : Polls) (token token' : Nat) (service : Service)
    (us : List DeviceStateUpdate) :
    (s.polled token service us).outcomesOf token' =
      s.outcomesOf token' ++ if token = token' then us.filterMap (·.outcome) else [] := by
  rw [outcomesOf, polled_yieldsOf, List.filterMap_append]
  congr 1
  split <;> rfl

/-! ### Atomic calls are runs of smaller steps -/

def toTasks (s : Polls) : Tasks where
  service := s.service
  lock := none
  streams sid := (s.streams sid).map fun x => ⟨x.1, x.2, .idle⟩
  nextStream := s.nextStream
  nextChannel := s.nextChannel

def releaseSteps : List Tasks.Label := [.advance, .advance, .advance]

def pollSteps (v : Service) (token sid : Nat) (e : HandlerEvent) : List Tasks.Label :=
  if v.cancelled token then [.event sid e, .check sid]
  else
    match e.completion, v.ctx with
    | some _, some _ => [.event sid e, .check sid, .take sid] ++ releaseSteps ++ [.finish sid]
    | _, _ => [.event sid e, .check sid, .take sid, .finish sid]

def calls (s : Polls) : Label → List Tasks.Label
  | .init request requestId => [.init request requestId]
  | .cancel requestId =>
    match (Service.takeIf (fun c => c.requestId == requestId) s.service.ctx).1 with
    | some _ => .cancel requestId :: releaseSteps
    | none => [.cancel requestId]
  | .start kind => [.start kind]
  | .poll sid (.item e) =>
    match s.streams sid with
    | some (_, token) => pollSteps s.service token sid e
    | none => []
  | .poll _ _ => []

theorem exec_releaseSteps (s : Tasks) (h : Holder) (c : RequestContext) (response : Response) :
    exec Tasks.step (s.takeContext h c response) releaseSteps =
      some { ({ s with
        service := (s.service.setCtx none).release c response
        lock := some (h, .unlock) } : Tasks).leave h with lock := none } := rfl

theorem exec_pollSteps (credHash : Bytes → String) {s : Tasks} {sid token : Nat} {kind : StreamKind}
    {e : HandlerEvent} (hfree : s.lock = none) (hs : s.streams sid = some ⟨kind, token, .idle⟩)
    (hkind : e.kind = kind) :
    exec Tasks.step s (pollSteps s.service token sid e) =
      some { s with service := (statePollNext credHash s.service token (.item e)).1 } := by
  have hback := Tasks.setStream_eq_self hs
  have hevent : Tasks.step s (.event sid e) =
      some (s.setStream sid ⟨kind, token, .received e⟩) := by
    simp only [Tasks.step, hs, hkind, if_true]
  have hfinish : ∀ v : Tasks, Tasks.step (v.setStream sid ⟨kind, token, .done e⟩) (.finish sid) =
      some (v.setStream sid ⟨kind, token, .idle⟩) := by
    intro v
    simp only [Tasks.step, Tasks.setStream_self, Tasks.setStream_setStream]
  unfold pollSteps statePollNext
  cases hcancelled : s.service.cancelled token with
  | true =>
    rw [pollNext_cancelled _ hcancelled]
    refine exec_cons_some.mpr ⟨_, hevent, exec_single ?_⟩
    simp only [Tasks.step, Tasks.setStream_self, Tasks.setStream_service, hcancelled, if_true,
      Tasks.setStream_setStream, hback]
  | false =>
    have hcheck : Tasks.step (s.setStream sid ⟨kind, token, .received e⟩) (.check sid) =
        some (s.setStream sid ⟨kind, token, .passed e⟩) := by
      simp only [Tasks.step, Tasks.setStream_self, Tasks.setStream_service, hcancelled,
        Bool.false_eq_true, if_false, Tasks.setStream_setStream]
    cases hcompletion : e.completion with
    | none =>
      rw [pollNext_silent _ hcancelled hcompletion]
      refine exec_cons_some.mpr ⟨_, hevent, exec_cons_some.mpr ⟨_, hcheck, ?_⟩⟩
      refine exec_cons_some.mpr ⟨s.setStream sid ⟨kind, token, .done e⟩, ?_, ?_⟩
      · simp only [Tasks.step, Tasks.setStream_self, hcompletion, Tasks.setStream_setStream]
      · exact exec_single ((hfinish s).trans (by rw [hback]))
    | some response =>
      rw [pollNext_terminal _ hcancelled hcompletion, Service.completeRequest]
      cases hctx : s.service.ctx with
      | none =>
        refine exec_cons_some.mpr ⟨_, hevent, exec_cons_some.mpr ⟨_, hcheck, ?_⟩⟩
        refine exec_cons_some.mpr ⟨s.setStream sid ⟨kind, token, .done e⟩, ?_, ?_⟩
        · simp only [Tasks.step, Tasks.setStream_self, hcompletion, Tasks.setStream_lock, hfree,
            Tasks.setStream_service, hctx, Tasks.setStream_setStream]
        · refine exec_single ((hfinish s).trans ?_)
          rw [hback]
      | some c =>
        refine exec_cons_some.mpr ⟨_, hevent, exec_cons_some.mpr ⟨_, hcheck, ?_⟩⟩
        refine exec_cons_some.mpr
          ⟨(s.setStream sid ⟨kind, token, .completing e⟩).takeContext (.stream sid) c response,
            ?_, ?_⟩
        · simp only [Tasks.step, Tasks.setStream_self, hcompletion, Tasks.setStream_lock, hfree,
            Tasks.setStream_service, hctx, Tasks.setStream_setStream]
        · refine exec_append_some (exec_releaseSteps _ _ _ _) (exec_single ?_)
          have hleave : Tasks.leave { s.setStream sid ⟨kind, token, .completing e⟩ with
                service := (s.service.setCtx none).release c response
                lock := some (.stream sid, .unlock) } (.stream sid) =
              Tasks.setStream { s with
                service := (s.service.setCtx none).release c response
                lock := some (.stream sid, .unlock) } sid ⟨kind, token, .done e⟩ := by
            simp only [Tasks.leave, Tasks.setStream, Function.update_self, Function.update_idem]
          simp only [Tasks.setStream_service, hleave]
          refine (hfinish { s with
            service := (s.service.setCtx none).release c response
            lock := none }).trans ?_
          have hidle := Tasks.setStream_eq_self (s := { s with
            service := (s.service.setCtx none).release c response
            lock := none }) hs
          rw [hidle, hfree]

theorem exec_cancelSteps {s : Tasks} (hfree : s.lock = none) (requestId : RequestId) :
    exec Tasks.step s
        (match (Service.takeIf (fun c => c.requestId == requestId) s.service.ctx).1 with
        | some _ => Tasks.Label.cancel requestId :: releaseSteps
        | none => [.cancel requestId]) =
      some { s with service := s.service.cancelRequest requestId } := by
  unfold Service.cancelRequest
  cases htake : Service.takeIf (fun c => c.requestId == requestId) s.service.ctx with
  | mk taken rest =>
    cases taken with
    | none =>
      have hsame : s.service.setCtx rest = s.service := by
        cases hctx : s.service.ctx with
        | none =>
          rw [hctx] at htake
          cases htake
          simp only [Service.setCtx, ← hctx]
        | some c =>
          rw [hctx] at htake
          simp only [Service.takeIf] at htake
          split at htake
          · cases htake
          · cases htake
            simp only [Service.setCtx, ← hctx]
      refine exec_single ?_
      simp only [Tasks.step, hfree, htake, hsame]
      rw [← hfree]
    | some c =>
      obtain ⟨-, hid, rfl⟩ := Service.takeIf_some htake
      obtain rfl : c.requestId = requestId := eq_of_beq hid
      refine exec_cons_some.mpr ⟨s.takeContext .canceller c (Service.cancelResponse c.requestId),
        ?_, ?_⟩
      · simp only [Tasks.step, hfree, htake, beq_self_eq_true, if_true]
      · refine (exec_releaseSteps _ _ _ _).trans ?_
        simp only [Tasks.leave, beq_self_eq_true, if_true, hfree]

/-- Every run of atomic calls is a run of the service under concurrent tasks. -/
theorem step_simulates (credHash : Bytes → String) :
    Simulates (step credHash) Tasks.step (fun _ => True) toTasks calls := by
  intro s l t _ hl
  cases l with
  | init request requestId =>
    cases hl
    rfl
  | cancel requestId =>
    cases hl
    exact exec_cancelSteps (s := s.toTasks) rfl requestId
  | start kind =>
    simp only [step] at hl
    split at hl
    · rename_i c hget
      cases hl
      refine exec_single ?_
      simp only [Tasks.step, toTasks, hget, Tasks.setStream]
      congr 2
      funext sid
      simp only [Function.update_apply]
      split <;> rfl
    · cases hl
  | poll sid inner =>
    simp only [step] at hl
    split at hl
    · rename_i kind token hs
      split at hl
      · rename_i hkind
        cases hl
        cases inner with
        | pending => rfl
        | ended => rfl
        | item e =>
          have hs' : s.toTasks.streams sid = some ⟨kind, token, .idle⟩ := by
            simp only [toTasks, hs, Option.map_some]
          simp only [calls, hs]
          exact exec_pollSteps credHash (s := s.toTasks) rfl hs' (eq_of_beq hkind)
      · cases hl
    · cases hl

theorem inv_step {credHash : Bytes → String} {s t : Polls} {l : Label} (h : Tasks.Inv s.toTasks)
    (hl : step credHash s l = some t) : Tasks.Inv t.toTasks :=
  reaches_invariant (fun _ _ _ hi hm => Tasks.inv_step hi hm) h
    ⟨calls s l, step_simulates credHash s l t trivial hl⟩

/-! ### One outcome per request -/

/-- Live without an outcome; or cancelled, answered, and with no outcome but that of the answer,
which it must have unless the answer is an error. -/
def Tracked (v : Service) (outcomes : List (Except CredentialServiceError Unit))
    (c : RequestContext) : Prop :=
  v.Live c ∧ outcomes = [] ∨
    v.cancelled c.cancellation = true ∧ ∃ response,
      (v.channels c.responseChannel).Answered response ∧
      (outcomes = [outcomeOf response] ∨ outcomes = [] ∧ ∃ err, response = .error err)

theorem Tracked.congr {v w : Service} {outcomes : List (Except CredentialServiceError Unit)}
    {c : RequestContext} (h : Tracked v outcomes c)
    (hcancelled : w.cancelled c.cancellation = v.cancelled c.cancellation)
    (hchannel : w.channels c.responseChannel = v.channels c.responseChannel) :
    Tracked w outcomes c := by
  unfold Tracked Service.Live
  rw [hcancelled, hchannel]
  exact h

structure Recorded (s : Polls) : Prop where
  unnamed : ∀ token, s.service.accepted.length ≤ token → s.yieldsOf token = []
  tracked : ∀ c ∈ s.service.accepted, Tracked s.service (s.outcomesOf c.cancellation) c

theorem recorded_init : Recorded init := ⟨fun _ _ => rfl, by intro c hc; cases hc⟩

theorem release_self {v : Service} {c : RequestContext} (h : v.Live c) (response : Response) :
    ((v.setCtx none).release c response).cancelled c.cancellation = true ∧
      (((v.setCtx none).release c response).channels c.responseChannel).Answered response := by
  constructor
  · exact Service.cancel_self _ _
  · simp only [Service.release, Service.send_self, Service.cancel_channels, Service.setCtx_channels]
    rw [h.2]
    exact Oneshot.send_fresh response

theorem release_other {v : Service} {n : Nat} (h : Tasks.SlotInv v none n) {c d : RequestContext}
    (hc : c ∈ v.accepted) (hd : d ∈ v.accepted) (hne : d ≠ c) (response : Response) :
    ((v.setCtx none).release c response).cancelled d.cancellation = v.cancelled d.cancellation ∧
      ((v.setCtx none).release c response).channels d.responseChannel =
        v.channels d.responseChannel := by
  constructor
  · exact Service.cancel_other _ (h.token_ne hd hc hne)
  · exact Service.send_other _ _ fun he => hne (h.channelInj d hd c hc he)

theorem Recorded.init {s : Polls} (h : Recorded s) (hinv : Tasks.Inv s.toTasks)
    (request : CredentialRequest) (requestId : RequestId) :
    Recorded { s with
      service := (s.service.initRequest request s.nextChannel requestId).2
      nextChannel := s.nextChannel + 1 } := by
  cases hctx : s.service.ctx with
  | some c =>
    simp only [Service.initRequest, hctx]
    refine ⟨h.unnamed, fun d hd => (h.tracked d hd).congr rfl ?_⟩
    exact Service.dropSender_other _ (Nat.ne_of_lt (hinv.slotInv.channelLt d hd))
  | none =>
    simp only [Service.initRequest, hctx]
    refine ⟨fun token ht => ?_, fun d hd => ?_⟩
    · rw [List.length_append] at ht
      exact h.unnamed token (by omega)
    · rcases List.mem_append.mp hd with hd | hd
      · exact (h.tracked d hd).congr rfl rfl
      · rw [List.mem_singleton.mp hd]
        refine Or.inl ⟨⟨?_, ?_⟩, ?_⟩
        · exact hinv.slotInv.tokenFresh _ (Nat.le_refl _)
        · exact hinv.slotInv.channelFresh _ (Nat.le_refl _)
        · have hnone := h.unnamed s.service.accepted.length (Nat.le_refl _)
          simp only [outcomesOf, yieldsOf] at hnone ⊢
          rw [hnone]
          rfl

/-- The request in the slot is released while one of its streams yields `us`: the outcome of the
response, or none beside an error. -/
theorem Recorded.release {s : Polls} (h : Recorded s) (hinv : Tasks.Inv s.toTasks)
    {c : RequestContext} (hctx : s.service.ctx = some c) (response : Response)
    (us : List DeviceStateUpdate)
    (hus : us.filterMap (·.outcome) = [outcomeOf response] ∨
      us.filterMap (·.outcome) = [] ∧ ∃ err, response = .error err) :
    Recorded (s.polled c.cancellation ((s.service.setCtx none).release c response) us) := by
  obtain ⟨hc, hlive⟩ := hinv.slotInv.slot c hctx
  have hlt : c.cancellation < s.service.accepted.length := hinv.slotInv.token_lt hc
  refine ⟨fun token ht => ?_, fun d hd => ?_⟩
  · have hle : s.service.accepted.length ≤ token := ht
    rw [polled_yieldsOf, if_neg (by omega), List.append_nil]
    exact h.unnamed token hle
  · rw [polled_outcomesOf]
    by_cases hdc : d = c
    · subst hdc
      obtain ⟨hcancelled, hanswered⟩ := release_self hlive response
      have hnone : s.outcomesOf d.cancellation = [] := by
        rcases h.tracked d hc with ⟨-, hnone⟩ | ⟨htrue, -⟩
        · exact hnone
        · exact absurd (htrue.symm.trans hlive.1) nofun
      rw [if_pos rfl, hnone, List.nil_append]
      exact Or.inr ⟨hcancelled, response, hanswered, hus⟩
    · obtain ⟨hcancelled, hchannel⟩ := release_other hinv.slotInv hc hd hdc response
      have hne : c.cancellation ≠ d.cancellation := (hinv.slotInv.token_ne hd hc hdc).symm
      rw [if_neg hne, List.append_nil]
      exact (h.tracked d hd).congr hcancelled hchannel

theorem Recorded.silent {s : Polls} (h : Recorded s) {token : Nat}
    (hlt : token < s.service.accepted.length) {us : List DeviceStateUpdate}
    (hus : us.filterMap (·.outcome) = []) : Recorded (s.polled token s.service us) := by
  refine ⟨fun token' ht => ?_, fun d hd => ?_⟩
  · have hle : s.service.accepted.length ≤ token' := ht
    rw [polled_yieldsOf, if_neg (by omega), List.append_nil]
    exact h.unnamed token' hle
  · rw [polled_outcomesOf, hus, ite_self, List.append_nil]
    exact h.tracked d hd

theorem yields_outcome (credHash : Bytes → String) (e : HandlerEvent) :
    (yields (.ofConversion (e.toUpdate credHash))).filterMap (·.outcome) =
      (e.completion.map outcomeOf).toList := by
  cases hu : e.toUpdate credHash with
  | ok u =>
    have houtcome := HandlerEvent.outcome_eq hu
    simp only [Poll.ofConversion, yields, List.filterMap_cons, houtcome, List.filterMap_nil]
    cases e.completion with
    | none => rfl
    | some response => rfl
  | error p =>
    cases hcompletion : e.completion with
    | none => rfl
    | some response =>
      obtain ⟨u, hok⟩ := HandlerEvent.toUpdate_of_completion credHash hcompletion
      rw [hu] at hok
      cases hok

theorem Recorded.step {credHash : Bytes → String} {s t : Polls} {l : Label} (h : Recorded s)
    (hinv : Tasks.Inv s.toTasks) (hl : step credHash s l = some t) : Recorded t := by
  cases l with
  | init request requestId =>
    cases hl
    exact h.init hinv request requestId
  | cancel requestId =>
    cases hl
    by_cases hid : ∃ c, s.service.ctx = some c ∧ c.requestId = requestId
    · obtain ⟨c, hctx, rfl⟩ := hid
      have hrelease := h.release hinv hctx (Service.cancelResponse c.requestId) []
        (Or.inr ⟨rfl, _, rfl⟩)
      simpa [polled, Service.cancelRequest, Service.takeIf, hctx] using hrelease
    · rw [Service.cancelRequest_of_ne _ _ fun c hctx he => hid ⟨c, hctx, he⟩]
      exact h
  | start kind =>
    simp only [Polls.step] at hl
    split at hl
    · cases hl
      exact ⟨h.unnamed, h.tracked⟩
    · cases hl
  | poll sid inner =>
    simp only [Polls.step] at hl
    split at hl
    · rename_i kind token hs
      split at hl
      · cases hl
        have hlt : token < s.service.accepted.length :=
          hinv.streamToken sid ⟨kind, token, .idle⟩ (by simp only [toTasks, hs, Option.map_some])
        cases inner with
        | pending => exact h.silent hlt rfl
        | ended => exact h.silent hlt rfl
        | item e =>
          unfold statePollNext
          cases hcancelled : s.service.cancelled token with
          | true =>
            rw [pollNext_cancelled _ hcancelled]
            exact h.silent hlt rfl
          | false =>
            obtain ⟨c, hctx, rfl⟩ := hinv.ctx_of_uncancelled rfl hlt hcancelled
            have houtcome := yields_outcome credHash e
            cases hcompletion : e.completion with
            | none =>
              rw [pollNext_silent _ hcancelled hcompletion]
              rw [hcompletion] at houtcome
              exact h.silent hlt houtcome
            | some response =>
              have hctx' : s.service.ctx = some c := hctx
              rw [pollNext_terminal _ hcancelled hcompletion]
              rw [hcompletion] at houtcome
              simp only [Service.completeRequest, hctx']
              exact h.release hinv hctx' response _ (Or.inl houtcome)
      · cases hl
    · cases hl

theorem recorded_of_reaches {credHash : Bytes → String} {s : Polls}
    (h : Reaches (step credHash) Polls.init s) : Recorded s := by
  have hrun : Tasks.Inv s.toTasks ∧ Recorded s :=
    reaches_invariant (I := fun s => Tasks.Inv s.toTasks ∧ Recorded s)
      (fun _ _ _ hi hl => ⟨inv_step hi.1 hl, hi.2.step hi.1 hl⟩)
      ⟨Tasks.inv_init, recorded_init⟩ h
  exact hrun.2

theorem cancelRequest_cancelled {v : Service} {token : Nat} (requestId : RequestId)
    (h : v.cancelled token = true) : (v.cancelRequest requestId).cancelled token = true := by
  unfold Service.cancelRequest
  split
  · split
    · simp only [Service.release, Service.send_cancelled, Service.cancel, Function.update_apply]
      split
      · rfl
      · exact h
    · exact h
  · exact h

theorem completeRequest_cancelled {v : Service} {token : Nat} (response : Response)
    (h : v.cancelled token = true) : (v.completeRequest response).cancelled token = true := by
  unfold Service.completeRequest
  split
  · simp only [Service.release, Service.send_cancelled, Service.cancel, Function.update_apply]
    split
    · rfl
    · exact h
  · exact h

theorem silent_step {credHash : Bytes → String} {s t : Polls} {l : Label} {token : Nat}
    (h : s.service.cancelled token = true) (hl : step credHash s l = some t) :
    t.service.cancelled token = true ∧ t.yieldsOf token = s.yieldsOf token := by
  cases l with
  | init request requestId =>
    cases hl
    refine ⟨?_, rfl⟩
    unfold Service.initRequest
    split
    · exact h
    · exact h
  | cancel requestId =>
    cases hl
    exact ⟨cancelRequest_cancelled requestId h, rfl⟩
  | start kind =>
    simp only [step] at hl
    split at hl
    · cases hl
      exact ⟨h, rfl⟩
    · cases hl
  | poll sid inner =>
    simp only [step] at hl
    split at hl
    · rename_i kind token' hs
      split at hl
      · cases hl
        rw [polled_yieldsOf]
        by_cases he : token' = token
        · subst he
          cases inner with
          | pending => exact ⟨h, by simp [statePollNext, pollNext, yields]⟩
          | ended => exact ⟨h, by simp [statePollNext, pollNext, yields]⟩
          | item e =>
            rw [statePollNext, pollNext_cancelled _ h]
            exact ⟨h, by simp [yields]⟩
        · rw [if_neg he, List.append_nil]
          refine ⟨?_, rfl⟩
          cases inner with
          | pending => exact h
          | ended => exact h
          | item e =>
            unfold statePollNext
            cases hcancelled : s.service.cancelled token' with
            | true =>
              rw [pollNext_cancelled _ hcancelled]
              exact h
            | false =>
              cases hcompletion : e.completion with
              | none =>
                rw [pollNext_silent _ hcancelled hcompletion]
                exact h
              | some response =>
                rw [pollNext_terminal _ hcancelled hcompletion]
                exact completeRequest_cancelled response h
      · cases hl
    · cases hl

theorem Tracked.unique {v : Service} {outcomes : List (Except CredentialServiceError Unit)}
    {c : RequestContext} (h : Tracked v outcomes c) :
    outcomes.length ≤ 1 ∧
    (∀ o ∈ outcomes, ∃ response, (v.channels c.responseChannel).Answered response ∧
      o = outcomeOf response) ∧
    ∀ r, (v.channels c.responseChannel).Answered (.ok r) → outcomes = [.ok ()] := by
  rcases h with ⟨⟨-, hfresh⟩, rfl⟩ | ⟨-, response, hanswered, hcase⟩
  · refine ⟨Nat.zero_le _, nofun, fun r hr => absurd hfresh hr.ne_fresh⟩
  · have hresponse : ∀ r, (v.channels c.responseChannel).Answered r → r = response := by
      intro r hr
      have hs := hr.sends.symm.trans hanswered.sends
      cases hs
      rfl
    rcases hcase with rfl | ⟨rfl, err, rfl⟩
    · refine ⟨Nat.le_refl _, ?_, fun r hr => ?_⟩
      · intro o ho
        exact ⟨response, hanswered, List.mem_singleton.mp ho⟩
      · rw [← hresponse _ hr]
        rfl
    · refine ⟨Nat.zero_le _, nofun, fun r hr => ?_⟩
      cases hresponse _ hr

/-- Over all its streams a request yields one outcome at most, that of the response which is sent;
a credential that is sent is also yielded as `Completed`; and nothing is yielded once the token is
cancelled. -/
theorem one_outcome_per_request (credHash : Bytes → String) (ls : List Label) {s : Polls}
    (hrun : exec (step credHash) Polls.init ls = some s) :
    ∀ c ∈ s.service.accepted,
      (s.outcomesOf c.cancellation).length ≤ 1 ∧
      (∀ o ∈ s.outcomesOf c.cancellation, ∃ response,
        (s.service.channels c.responseChannel).Answered response ∧ o = outcomeOf response) ∧
      (∀ r, (s.service.channels c.responseChannel).Answered (.ok r) →
        s.outcomesOf c.cancellation = [.ok ()]) ∧
      (s.service.cancelled c.cancellation = true → ∀ ms t,
        exec (step credHash) s ms = some t →
          t.yieldsOf c.cancellation = s.yieldsOf c.cancellation) := by
  intro c hc
  obtain ⟨hlength, hresponse, hsent⟩ := ((recorded_of_reaches ⟨ls, hrun⟩).tracked c hc).unique
  refine ⟨hlength, hresponse, hsent, fun hcancelled ms t hms => ?_⟩
  have hsilent := reaches_invariant
    (I := fun v : Polls => v.service.cancelled c.cancellation = true ∧
      v.yieldsOf c.cancellation = s.yieldsOf c.cancellation)
    (fun u l v hi hl => by
      obtain ⟨hv, hyields⟩ := silent_step hi.1 hl
      exact ⟨hv, hyields.trans hi.2⟩)
    ⟨hcancelled, rfl⟩ ⟨ms, hms⟩
  exact hsilent.2

/-- Hybrid fails, then USB completes: the USB stream, polled twice with a credential, stays
silent. -/
def lateWinnerRun : List Label :=
  [.init (Tasks.sampleRequest "a.test") 7, .start .usb, .start .hybrid,
    .poll 0 (.item (.usb .waiting)), .poll 1 (.item (.hybrid (.failed .authenticatorError))),
    .poll 0 (.item (.usb (.completed Tasks.sampleResponse))), .cancel 7,
    .poll 0 (.item (.usb (.completed Tasks.sampleResponse)))]

theorem one_outcome_per_request_late : ∃ s c, exec (step fun _ => "") Polls.init lateWinnerRun =
      some s ∧ s.service.accepted = [c] ∧ (s.outcomesOf c.cancellation).length ≤ 1 ∧
      s.outcomesOf c.cancellation = [.error .authenticatorError] :=
  ⟨_, _, rfl, rfl, (one_outcome_per_request (fun _ => "") lateWinnerRun rfl _
    (List.mem_singleton.mpr rfl)).1, rfl⟩

end Polls

end Credentialsd
