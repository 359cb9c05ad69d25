import Credentialsd.UiCancel

/-!
# A call of `create_session` that fails

What the call has spawned acts on the path that it was given. It does so without harm as
long as it finds nothing there.
-/

namespace Credentialsd

namespace UiService

/-! ### The tasks of a call -/

/- A step of the call `i`, or of what it has spawned. -/
def Label.ofCall (i : Nat) : Label → Bool
  | .create j => j == i
  | .canceller j => j == i
  | .forwarder j _ => j == i
  | _ => false

/-- The same sessions are registered, with the same flags, and none of them has emitted `Closed`. -/
def SameSessions (s t : UiService) : Prop :=
  t.server.registry = s.server.registry ∧ s.server.SameSignals t.server

theorem SameSessions.refl (s : UiService) : s.SameSessions s := ⟨rfl, .refl _⟩

theorem SameSessions.trans {s t u : UiService} (h : s.SameSessions t) (h' : t.SameSessions u) :
    s.SameSessions u :=
  ⟨h'.1.trans h.1, h.2.trans h'.2⟩

theorem sameSessions_of_server {s t : UiService} (h : t.server = s.server) :
    s.SameSessions t := by
  refine ⟨by rw [h], ?_⟩
  rw [h]
  exact .refl _

/-- The call `i` or one of its tasks looks at its path in this step. -/
def looks (i : Nat) (s : UiService) : Label → Bool
  | .create j => j == i && (s.sessions i).create == .registering
  | .canceller j => j == i && (s.sessions i).canceller == .shutdown .lookup
  | .forwarder j _ => j == i && (s.sessions i).forwarder == .shutdown .lookup
  | _ => false

/-- When the call `i` or one of its tasks looks at its path, no session is there. -/
def FindsNothing (i : Nat) (s : UiService) (l : Label) : Prop :=
  looks i s l = true → s.server.registry (s.sessions i).sessionHandle = none

instance (i : Nat) (s : UiService) (l : Label) : Decidable (FindsNothing i s l) := by
  unfold FindsNothing
  infer_instance

/-- No task of the call has found a session. -/
def Unfound (i : Nat) (s : UiService) : Prop :=
  (s.sessions i).canceller.refs = [] ∧ (s.sessions i).forwarder.refs = []

theorem ObjectServer.ShutdownStep.of_nothing {o o' : ObjectServer} {h : String}
    {stage : Shutdown} {next : Option Shutdown} (hstep : o.ShutdownStep h stage o' next)
    (hrefs : stage.refs = []) (hfree : stage = .lookup → o.registry h = none) :
    o' = o ∧ next = none := by
  cases hstep with
  | missing => exact ⟨rfl, rfl⟩
  | found hreg =>
    rw [hfree rfl] at hreg
    cases hreg
  | get => cases hrefs
  | emit => cases hrefs
  | remove => cases hrefs

theorem unfound_step {desktop : String → Option String} {s t : UiService} {l : Label} {i : Nat}
    (hfound : Unfound i s) (hl : FindsNothing i s l) (h : step desktop s l = some t) :
    Unfound i t := by
  obtain ⟨hcanceller, hforwarder⟩ := hfound
  cases session_step h i with
  | same hsame =>
    rw [Unfound, hsame]
    exact ⟨hcanceller, hforwarder⟩
  | arrives _ _ _ hsessions =>
    rw [Unfound, hsessions]
    exact ⟨rfl, rfl⟩
  | create _ hstep =>
    cases createSession_cases hstep with
    | fails _ _ _ hsessions => rw [Unfound, hsessions]; exact ⟨hcanceller, hforwarder⟩
    | watches _ _ _ hsessions => rw [Unfound, hsessions]; exact ⟨rfl, hforwarder⟩
    | starts _ _ _ hsessions => rw [Unfound, hsessions]; exact ⟨hcanceller, rfl⟩
    | sends _ _ _ _ hsessions => rw [Unfound, hsessions]; exact ⟨hcanceller, hforwarder⟩
    | refused _ _ _ _ hsessions => rw [Unfound, hsessions]; exact ⟨hcanceller, hforwarder⟩
    | registers _ _ hsessions => rw [Unfound, hsessions]; exact ⟨hcanceller, hforwarder⟩
  | disconnect _ hsessions =>
    rw [Unfound, hsessions]
    exact ⟨hcanceller, hforwarder⟩
  | canceller hlabel hstep =>
    subst hlabel
    obtain ⟨-, -, rfl⟩ | ⟨-, rfl⟩ | ⟨stage, o, next, hstage, hshutdown, rfl⟩ :=
      cancelTask_cases hstep
    · rw [Unfound, onSession_self]
      exact ⟨rfl, hforwarder⟩
    · rw [Unfound, onSession_self]
      exact ⟨rfl, hforwarder⟩
    · rw [hstage] at hcanceller
      obtain ⟨-, rfl⟩ := hshutdown.of_nothing hcanceller fun hlookup =>
        hl (by simp [looks, hstage, hlookup])
      simp only [Unfound, onSession_self]
      exact ⟨rfl, hforwarder⟩
  | forwarder ok hlabel hstep =>
    subst hlabel
    obtain ⟨-, events, task, htask, rfl⟩ | ⟨stage, o, next, hstage, hshutdown, rfl⟩ | ⟨-, rfl⟩ :=
      forwardUiEvents_cases hstep
    · rw [Unfound, onSession_self]
      refine ⟨hcanceller, ?_⟩
      obtain ⟨rfl, -⟩ | rfl | rfl := htask <;> rfl
    · rw [hstage] at hforwarder
      obtain ⟨-, rfl⟩ := hshutdown.of_nothing hforwarder fun hlookup =>
        hl (by simp [looks, hstage, hlookup])
      simp only [Unfound, onSession_self]
      exact ⟨hcanceller, rfl⟩
    · rw [Unfound, onSession_self]
      exact ⟨hcanceller, rfl⟩
  | gui _ _ _ hmoves =>
    rw [Unfound, hmoves.canceller, hmoves.forwarder]
    exact ⟨hcanceller, hforwarder⟩
  | abortsForwarder _ _ _ _ hsessions =>
    rw [Unfound, hsessions]
    exact ⟨hcanceller, rfl⟩
  | abortsCanceller _ _ _ _ hsessions =>
    rw [Unfound, hsessions]
    exact ⟨rfl, hforwarder⟩

/- As long as they find nothing, the call and its tasks leave the sessions alone. -/
theorem ofCall_same {desktop : String → Option String} {s t : UiService} {l : Label} {i : Nat}
    (hfound : Unfound i s) (hl : FindsNothing i s l) (h : step desktop s l = some t)
    (hcall : l.ofCall i = true) (hnew : ¬ t.created i) : s.SameSessions t := by
  obtain ⟨hcanceller, hforwarder⟩ := hfound
  cases l with
  | create j =>
    obtain rfl : j = i := by simpa [Label.ofCall] using hcall
    cases createSession_cases h with
    | fails _ _ _ _ hserver => exact sameSessions_of_server hserver
    | watches _ _ _ _ hserver => exact sameSessions_of_server hserver
    | starts _ _ _ _ hserver => exact sameSessions_of_server hserver
    | sends _ _ _ _ _ hserver => exact sameSessions_of_server hserver
    | refused _ _ _ _ _ hserver => exact sameSessions_of_server hserver
    | registers _ _ hsessions => exact absurd (by rw [created, hsessions]) hnew
  | canceller j =>
    obtain rfl : j = i := by simpa [Label.ofCall] using hcall
    obtain ⟨-, -, rfl⟩ | ⟨-, rfl⟩ | ⟨stage, o, next, hstage, hshutdown, rfl⟩ := cancelTask_cases h
    · exact .refl _
    · exact .refl _
    · rw [hstage] at hcanceller
      obtain ⟨hserver, -⟩ := hshutdown.of_nothing hcanceller fun hlookup =>
        hl (by simp [looks, hstage, hlookup])
      exact sameSessions_of_server hserver
  | forwarder j ok =>
    obtain rfl : j = i := by simpa [Label.ofCall] using hcall
    obtain ⟨-, events, task, -, rfl⟩ | ⟨stage, o, next, hstage, hshutdown, rfl⟩ | ⟨-, rfl⟩ :=
      forwardUiEvents_cases h
    · exact .refl _
    · rw [hstage] at hforwarder
      obtain ⟨hserver, -⟩ := hshutdown.of_nothing hforwarder fun hlookup =>
        hl (by simp [looks, hstage, hlookup])
      exact sameSessions_of_server hserver
    · exact .refl _
  | _ => cases hcall

/-! ### The request of a call -/

/-- The call has sent its request, and has not been refused. -/
def Sent (i : Nat) (s : UiService) : Prop :=
  (s.sessions i).create = .registering ∨ s.created i

theorem sent_step {desktop : String → Option String} {s t : UiService} {l : Label} {i : Nat}
    (hwf : Wf s) (hsent : Sent i s) (hl : FindsNothing i s l) (h : step desktop s l = some t) :
    Sent i t := by
  obtain hstage | hcreated := hsent
  · cases session_step h i with
    | same hsame => exact .inl (by rw [hsame, hstage])
    | arrives _ _ hnext =>
      rw [hwf.fresh i (Nat.le_of_eq hnext.symm)] at hstage
      cases hstage
    | create hlabel hstep =>
      subst hlabel
      cases createSession_cases hstep with
      | fails _ _ hbefore =>
        obtain ⟨hbefore, -⟩ | hbefore | ⟨_, hbefore⟩ := hbefore <;>
          (rw [hstage] at hbefore; cases hbefore)
      | watches _ hbefore => rw [hstage] at hbefore; cases hbefore
      | starts _ _ hbefore => rw [hstage] at hbefore; cases hbefore
      | sends _ _ _ hbefore => rw [hstage] at hbefore; cases hbefore
      | refused _ _ _ hused =>
        rw [hl (by simp [looks, hstage])] at hused
        cases hused
      | registers _ _ hsessions => exact .inr (by rw [created, hsessions])
    | disconnect _ hsessions => exact .inl (by rw [hsessions, hstage])
    | canceller _ hstep =>
      obtain ⟨-, -, rfl⟩ | ⟨-, rfl⟩ | ⟨_, _, _, -, -, rfl⟩ := cancelTask_cases hstep <;>
        exact .inl (by simpa using hstage)
    | forwarder _ _ hstep =>
      obtain ⟨-, _, _, -, rfl⟩ | ⟨_, _, _, -, -, rfl⟩ | ⟨-, rfl⟩ := forwardUiEvents_cases hstep <;>
        exact .inl (by simpa using hstage)
    | gui _ _ _ hmoves => exact .inl (hmoves.create.trans hstage)
    | abortsForwarder _ _ _ _ hsessions => exact .inl (by rw [hsessions, hstage])
    | abortsCanceller _ _ _ _ hsessions => exact .inl (by rw [hsessions, hstage])
  · exact .inr ((step_effect hwf h).created_mono hcreated)

/- What waits for the GUI thread has been sent by a call that has not failed. -/
def Asked (i : Nat) (s : UiService) : Prop := i ∈ s.requests.map Prod.fst → Sent i s

theorem asked_step {desktop : String → Option String} {s t : UiService} {l : Label} {i : Nat}
    (hwf : Wf s) (hasked : Asked i s) (hl : FindsNothing i s l) (h : step desktop s l = some t) :
    Asked i t := by
  intro hi
  have hold : i ∈ s.requests.map Prod.fst → Sent i t :=
    fun hmem => sent_step hwf (hasked hmem) hl h
  cases queue_step h with
  | same hrequests => exact hold (by rwa [hrequests] at hi)
  | sends j request _ _ hnext _ hrequests =>
    rw [hrequests, List.map_append, List.mem_append] at hi
    obtain hmem | hnew := hi
    · exact hold hmem
    · obtain rfl : i = j := by simpa using hnew
      exact .inl hnext
  | takes j request _ hrequests =>
    refine hold ?_
    rw [hrequests, List.map_cons]
    exact List.mem_cons_of_mem _ hi

theorem not_mem_of_asked {s : UiService} {i : Nat} {err : String} (hasked : Asked i s)
    (herr : (s.sessions i).create = .returned (.error err)) : i ∉ s.requests.map Prod.fst := by
  intro hi
  obtain hstage | hcreated := hasked hi
  · rw [herr] at hstage
    cases hstage
  · rw [created, herr] at hcreated
    cases hcreated

theorem not_created_of_error {s : UiService} {i : Nat} {err : String}
    (herr : (s.sessions i).create = .returned (.error err)) : ¬ s.created i := by
  intro hcreated
  rw [created, herr] at hcreated
  cases hcreated

/-! ### A call that finds nothing -/

/- The state in which a call has arrived. -/
def arrived (s : UiService) (call : CreateSession) : UiService :=
  { s with
    sessions := Function.update s.sessions s.nextSession
      { sessionHandle := call.args.sessionHandle, create := .received call }
    nextSession := s.nextSession + 1 }

theorem step_arrived (desktop : String → Option String) (s : UiService) (call : CreateSession) :
    step desktop s (.createSession call) = some (s.arrived call) := rfl

theorem arrived_session (s : UiService) (call : CreateSession) :
    (s.arrived call).sessions s.nextSession =
      { sessionHandle := call.args.sessionHandle, create := .received call } :=
  Function.update_self ..

theorem arrived_unfound (s : UiService) (call : CreateSession) :
    Unfound s.nextSession (s.arrived call) := by
  rw [Unfound, arrived_session]
  exact ⟨rfl, rfl⟩

theorem arrived_asked {s : UiService} (hwf : Wf s) (hqueue : Queue s) (call : CreateSession) :
    Asked s.nextSession (s.arrived call) := by
  intro hi
  have hlate := (hqueue.requested s.nextSession hi).2
  rw [hwf.fresh s.nextSession (Nat.le_refl _)] at hlate
  cases hlate

theorem wf_queue_of_reaches {desktop : String → Option String} {s : UiService}
    (h : Machine.Reaches (step desktop) init s) : Wf s ∧ Queue s := by
  refine Machine.reaches_invariant (I := fun s => Wf s ∧ Queue s) ?_ ⟨wf_init, queue_init⟩ h
  rintro s l t ⟨hwf, hqueue⟩ hstep
  exact ⟨wf_step hwf hstep, queue_inv_step hwf hqueue hstep⟩

/-- Whoever else moves in between: a call that fails and finds nothing at its path leaves the
sessions alone, and no request of it waits for the GUI thread. -/
theorem failed_call_finds_nothing {desktop : String → Option String} {s t : UiService}
    {call : CreateSession} {ls : List Label} {err : String} (hwf : Wf s) (hqueue : Queue s)
    (hrun : Machine.exec (step desktop) (s.arrived call) ls = some t)
    (herr : (t.sessions s.nextSession).create = .returned (.error err))
    (hnothing : Machine.Along (step desktop) (fun u l _ => FindsNothing s.nextSession u l)
      (s.arrived call) ls) :
    Machine.Along (step desktop) (fun u l v => l.ofCall s.nextSession = true → u.SameSessions v)
      (s.arrived call) ls ∧ s.nextSession ∉ t.requests.map Prod.fst := by
  have hstart : Wf (s.arrived call) ∧ Unfound s.nextSession (s.arrived call) ∧
      Asked s.nextSession (s.arrived call) :=
    ⟨wf_step hwf (step_arrived desktop s call), arrived_unfound s call,
      arrived_asked hwf hqueue call⟩
  have hstep : ∀ u l v, (Wf u ∧ Unfound s.nextSession u ∧ Asked s.nextSession u) →
      FindsNothing s.nextSession u l → step desktop u l = some v →
      Wf v ∧ Unfound s.nextSession v ∧ Asked s.nextSession v := by
    rintro u l v ⟨hu, hfound, hasked⟩ hl hv
    exact ⟨wf_step hu hv, unfound_step hfound hl hv, asked_step hu hasked hl hv⟩
  constructor
  · refine Machine.along_of_end
      (I := fun u => Wf u ∧ Unfound s.nextSession u ∧ Asked s.nextSession u)
      (Q := fun u => u.created s.nextSession) ?_ hstart hnothing hrun (not_created_of_error herr)
    intro u l v hu hl hv
    refine ⟨hstep u l v hu hl hv, (step_effect hu.1 hv).created_mono, fun hnew hcall => ?_⟩
    exact ofCall_same hu.2.1 hl hv hcall hnew
  · have hend := Machine.exec_invariant hstep hstart hnothing hrun
    exact not_mem_of_asked hend.2.2 herr

/-! ### A call on its own -/

/-- The call has failed before anything was spawned for it, or is about to. -/
structure Unspawned (i : Nat) (call : CreateSession) (s : UiService) : Prop where
  stage : (s.sessions i).create = .received call ∨ (s.sessions i).create.failed = true
  canceller : (s.sessions i).canceller = .notSpawned
  forwarder : (s.sessions i).forwarder = .notSpawned

theorem unspawned_findsNothing {i : Nat} {call : CreateSession} {s : UiService} {l : Label}
    (h : Unspawned i call s) : FindsNothing i s l := by
  intro hlooks
  have hstage : (s.sessions i).create ≠ .registering := by
    intro hregistering
    obtain hbefore | hbefore := h.stage
    · rw [hregistering] at hbefore
      cases hbefore
    · rw [hregistering] at hbefore
      cases hbefore
  cases l with
  | create => simp [looks, hstage] at hlooks
  | canceller => simp [looks, h.canceller] at hlooks
  | forwarder => simp [looks, h.forwarder] at hlooks
  | _ => cases hlooks

theorem unspawned_step {desktop : String → Option String} {s t : UiService} {l : Label} {i : Nat}
    {call : CreateSession} (hwf : Wf s) (hcall : call.sender = none ∨ call.watchError ≠ none)
    (hun : Unspawned i call s) (h : step desktop s l = some t) : Unspawned i call t := by
  obtain ⟨hstage, hcanceller, hforwarder⟩ := hun
  cases session_step h i with
  | same hsame => exact ⟨by rwa [hsame], by rwa [hsame], by rwa [hsame]⟩
  | arrives _ _ hnext =>
    rw [hwf.fresh i (Nat.le_of_eq hnext.symm)] at hstage
    obtain hstage | hstage := hstage <;> cases hstage
  | create _ hstep =>
    cases createSession_cases hstep with
    | fails _ _ _ hsessions =>
      exact ⟨.inr (by rw [hsessions]; rfl), by rwa [hsessions], by rwa [hsessions]⟩
    | watches other hbefore hsender =>
      obtain hreceived | hfailed := hstage
      · rw [hbefore] at hreceived
        cases hreceived
        obtain hnone | herr := hcall
        · exact absurd hnone hsender.1
        · exact absurd hsender.2 herr
      · rw [hbefore] at hfailed
        cases hfailed
    | starts _ _ hbefore =>
      rw [hbefore] at hstage
      obtain hstage | hstage := hstage <;> cases hstage
    | sends _ _ _ hbefore =>
      rw [hbefore] at hstage
      obtain hstage | hstage := hstage <;> cases hstage
    | refused _ _ hbefore =>
      rw [hbefore] at hstage
      obtain hstage | hstage := hstage <;> cases hstage
    | registers hbefore =>
      rw [hbefore] at hstage
      obtain hstage | hstage := hstage <;> cases hstage
  | disconnect _ hsessions => exact ⟨by rwa [hsessions], by rwa [hsessions], by rwa [hsessions]⟩
  | canceller _ hstep => simp [cancelTask, hcanceller] at hstep
  | forwarder _ _ hstep => simp [forwardUiEvents, hforwarder] at hstep
  | gui _ _ _ hmoves =>
    exact ⟨by rwa [hmoves.create], by rwa [hmoves.canceller], by rwa [hmoves.forwarder]⟩
  | abortsForwarder _ _ _ hspawned => exact absurd hforwarder hspawned
  | abortsCanceller _ _ _ hspawned => exact absurd hcanceller hspawned

theorem handle_step {desktop : String → Option String} {s t : UiService} {l : Label} {i : Nat}
    (h : step desktop s l = some t) (hi : i < s.nextSession) :
    i < t.nextSession ∧ (t.sessions i).sessionHandle = (s.sessions i).sessionHandle := by
  constructor
  · by_contra hge
    have hold := ((step_calls h).fresh i (Nat.le_of_not_lt hge)).1
    omega
  · cases session_step h i with
    | same hsame => rw [hsame]
    | arrives _ _ hnext => omega
    | create _ hstep =>
      cases createSession_cases hstep with
      | fails _ _ _ hsessions => rw [hsessions]
      | watches _ _ _ hsessions => rw [hsessions]
      | starts _ _ _ hsessions => rw [hsessions]
      | sends _ _ _ _ hsessions => rw [hsessions]
      | refused _ _ _ _ hsessions => rw [hsessions]
      | registers _ _ hsessions => rw [hsessions]
    | disconnect _ hsessions => rw [hsessions]
    | canceller _ hstep =>
      obtain ⟨-, -, rfl⟩ | ⟨-, rfl⟩ | ⟨_, _, _, -, -, rfl⟩ := cancelTask_cases hstep <;> simp
    | forwarder _ _ hstep =>
      obtain ⟨-, _, _, -, rfl⟩ | ⟨_, _, _, -, -, rfl⟩ | ⟨-, rfl⟩ := forwardUiEvents_cases hstep <;>
        simp
    | gui _ _ _ hmoves => rw [hmoves.sessionHandle]
    | abortsForwarder _ _ _ _ hsessions => rw [hsessions]
    | abortsCanceller _ _ _ _ hsessions => rw [hsessions]

/- Why the call and its tasks find nothing as long as the sessions are those of `s`. -/
def Free (i : Nat) (call : CreateSession) (s u : UiService) : Prop :=
  s.server.registry call.args.sessionHandle = none ∨
    ((call.sender = none ∨ call.watchError ≠ none) ∧ Unspawned i call u)

/-- What a call comes to that finds nothing: it registers its session, or the sessions are those
that were there when it arrived. -/
structure Alone (i : Nat) (call : CreateSession) (s u : UiService) : Prop where
  wf : Wf u
  lt : i < u.nextSession
  handle : (u.sessions i).sessionHandle = call.args.sessionHandle
  asked : Asked i u
  same : u.created i ∨ (Unfound i u ∧ s.SameSessions u ∧ Free i call s u)

theorem alone_step {desktop : String → Option String} {s u v : UiService} {l : Label} {i : Nat}
    {call : CreateSession} (halone : Alone i call s u)
    (hothers : l.ofCall i = false → u.SameSessions v) (h : step desktop u l = some v) :
    Alone i call s v := by
  obtain ⟨hwf, hlt, hhandle, hasked, hsame⟩ := halone
  obtain ⟨hlt', hhandle'⟩ := handle_step h hlt
  have hwf' := wf_step hwf h
  obtain hcreated | ⟨hfound, hsessions, hfree⟩ := hsame
  · have hcreated' := (step_effect hwf h).created_mono hcreated
    exact ⟨hwf', hlt', hhandle'.trans hhandle, fun _ => .inr hcreated', .inl hcreated'⟩
  · have hnothing : FindsNothing i u l := by
      obtain hnone | ⟨-, hun⟩ := hfree
      · intro _
        rw [hhandle, hsessions.1, hnone]
      · exact unspawned_findsNothing hun
    refine ⟨hwf', hlt', hhandle'.trans hhandle, asked_step hwf hasked hnothing h, ?_⟩
    by_cases hcreated : v.created i
    · exact .inl hcreated
    · refine .inr ⟨unfound_step hfound hnothing h, ?_, ?_⟩
      · cases hcall : l.ofCall i with
        | true => exact hsessions.trans (ofCall_same hfound hnothing h hcall hcreated)
        | false => exact hsessions.trans (hothers hcall)
      · obtain hnone | ⟨hcall, hun⟩ := hfree
        · exact .inl hnone
        · exact .inr ⟨hcall, unspawned_step hwf hcall hun h⟩

theorem alone_arrived (desktop : String → Option String) {s : UiService}
    {call : CreateSession} (hwf : Wf s) (hqueue : Queue s)
    (hcall : s.server.registry call.args.sessionHandle = none ∨ call.sender = none ∨
      call.watchError ≠ none) : Alone s.nextSession call s (s.arrived call) where
  wf := wf_step hwf (step_arrived desktop s call)
  lt := Nat.lt_succ_self s.nextSession
  handle := by rw [arrived_session]
  asked := arrived_asked hwf hqueue call
  same := by
    refine .inr ⟨arrived_unfound s call, .refl s, hcall.imp id fun hsender => ⟨hsender, ?_⟩⟩
    exact ⟨.inl (by rw [arrived_session]), by rw [arrived_session], by rw [arrived_session]⟩

/-! ### A call that finds a session -/

/-- What a call comes to whose path is in use: it registers its session, or its cancel task has
emptied the path when it ends. -/
structure InUse (i : Nat) (call : CreateSession) (u : UiService) : Prop where
  wf : Wf u
  lt : i < u.nextSession
  handle : (u.sessions i).sessionHandle = call.args.sessionHandle
  emptied : u.created i ∨
    (((u.sessions i).create = .received call ∨ (u.sessions i).canceller ≠ .notSpawned) ∧
      (u.sessions i).canceller ≠ .aborted ∧
      ((u.sessions i).canceller = .finished →
        u.server.registry call.args.sessionHandle = none))

/- A path that is empty stays so, unless the call registers its session there. -/
theorem empty_step {desktop : String → Option String} {u v : UiService} {l : Label} {i : Nat}
    (hwf : Wf u) (h : step desktop u l = some v) (hothers : l.ofCall i = false → u.SameSessions v)
    (hnew : ¬ v.created i) (hempty : u.server.registry (u.sessions i).sessionHandle = none) :
    v.server.registry (u.sessions i).sessionHandle = none := by
  cases (step_effect hwf h).change with
  | quiet hregistry => rwa [hregistry]
  | registers j hlabel _ _ _ _ _ _ hcreated =>
    by_cases hj : j = i
    · exact absurd ((hcreated i).mpr (.inl hj.symm)) hnew
    · rw [(hothers (by simp [hlabel, Label.ofCall, hj])).1]
      exact hempty
  | emits _ _ _ _ _ hregistry => rwa [hregistry]
  | removes _ h' _ _ _ hregistry =>
    rw [hregistry]
    by_cases hh : (u.sessions i).sessionHandle = h'
    · rw [hh, Function.update_self]
    · rwa [Function.update_of_ne hh]
  | stores _ _ _ _ _ hregistry => rwa [hregistry]

/-- The path is empty once the cancel task of the call has ended. -/
def Empties (i : Nat) (call : CreateSession) (u : UiService) : Prop :=
  ((u.sessions i).create = .received call ∨ (u.sessions i).canceller ≠ .notSpawned) ∧
    (u.sessions i).canceller ≠ .aborted ∧
    ((u.sessions i).canceller = .finished → u.server.registry call.args.sessionHandle = none)

theorem empties_running {i : Nat} {call : CreateSession} {u : UiService} {task : CancelTask}
    (htask : (u.sessions i).canceller = task) (hspawned : task ≠ .notSpawned)
    (haborted : task ≠ .aborted) (hended : task ≠ .finished) : Empties i call u := by
  rw [← htask] at hspawned haborted hended
  exact ⟨.inr hspawned, haborted, fun hfinished => absurd hfinished hended⟩

theorem create_empties {u v : UiService} {i : Nat} {call : CreateSession}
    (hcall : call.sender ≠ none ∧ call.watchError = none) (hstep : CreateStep u v i)
    (hnew : ¬ v.created i) (he : Empties i call u)
    (hempty : (u.sessions i).canceller = .finished →
      v.server.registry call.args.sessionHandle = none) : Empties i call v := by
  obtain ⟨hstage, hrunning, -⟩ := he
  unfold Empties
  cases hstep with
  | fails other err hbefore hsessions =>
    rw [hsessions]
    refine ⟨.inr ?_, hrunning, hempty⟩
    obtain hreceived | hspawned := hstage
    · rw [hreceived] at hbefore
      obtain ⟨hother, hfails⟩ | hbefore | ⟨_, hbefore⟩ := hbefore
      · cases hother
        obtain hnone | herr := hfails
        · exact absurd hnone hcall.1
        · exact absurd hcall.2 herr
      · cases hbefore
      · cases hbefore
    · exact hspawned
  | watches _ _ _ hsessions =>
    have htask : (v.sessions i).canceller = .waiting := by rw [hsessions]
    exact empties_running htask nofun nofun nofun
  | starts _ _ hbefore hsessions =>
    rw [hsessions]
    rw [hbefore] at hstage
    exact ⟨.inr (hstage.resolve_left nofun), hrunning, hempty⟩
  | sends _ _ _ hbefore hsessions =>
    rw [hsessions]
    rw [hbefore] at hstage
    exact ⟨.inr (hstage.resolve_left nofun), hrunning, hempty⟩
  | refused _ _ hbefore _ hsessions =>
    rw [hsessions]
    rw [hbefore] at hstage
    exact ⟨.inr (hstage.resolve_left nofun), hrunning, hempty⟩
  | registers _ _ hsessions => exact absurd (by rw [created, hsessions]) hnew

/-- The cancel task ends when it has found the path empty or has emptied it. -/
theorem cancelTask_empties {u v : UiService} {i : Nat} {call : CreateSession}
    (hhandle : (u.sessions i).sessionHandle = call.args.sessionHandle)
    (hstep : u.cancelTask i = some v) : Empties i call v := by
  obtain ⟨-, -, rfl⟩ | ⟨-, rfl⟩ | ⟨stage, o, next, _, hshutdown, rfl⟩ := cancelTask_cases hstep
  · exact empties_running (congrArg _ (onSession_self ..)) nofun nofun nofun
  · exact empties_running (congrArg _ (onSession_self ..)) nofun nofun nofun
  · rw [hhandle] at hshutdown
    unfold Empties
    simp only [onSession_self]
    cases hshutdown with
    | missing hnone => exact ⟨.inr nofun, nofun, fun _ => hnone⟩
    | found => exact ⟨.inr nofun, nofun, nofun⟩
    | get => exact ⟨.inr nofun, nofun, nofun⟩
    | emit => exact ⟨.inr nofun, nofun, nofun⟩
    | remove => exact ⟨.inr nofun, nofun, fun _ => Function.update_self ..⟩

theorem inUse_step {desktop : String → Option String} {u v : UiService} {l : Label} {i : Nat}
    {call : CreateSession} (hcall : call.sender ≠ none ∧ call.watchError = none)
    (huse : InUse i call u) (hothers : l.ofCall i = false → u.SameSessions v)
    (h : step desktop u l = some v) : InUse i call v := by
  obtain ⟨hwf, hlt, hhandle, hemptied⟩ := huse
  obtain ⟨hlt', hhandle'⟩ := handle_step h hlt
  refine ⟨wf_step hwf h, hlt', hhandle'.trans hhandle, ?_⟩
  obtain hcreated | hempties := hemptied
  · exact .inl ((step_effect hwf h).created_mono hcreated)
  by_cases hnew : v.created i
  · exact .inl hnew
  have hempty : (u.sessions i).canceller = .finished →
      v.server.registry call.args.sessionHandle = none := by
    intro hended
    have hbefore := hempties.2.2 hended
    rw [← hhandle] at hbefore ⊢
    exact empty_step hwf h hothers hnew hbefore
  have hkept : (v.sessions i).create = (u.sessions i).create →
      (v.sessions i).canceller = (u.sessions i).canceller → Empties i call v := by
    intro hcreate hcanceller
    unfold Empties
    rw [hcreate, hcanceller]
    exact ⟨hempties.1, hempties.2.1, hempty⟩
  refine .inr ?_
  cases session_step h i with
  | same hsame => exact hkept (by rw [hsame]) (by rw [hsame])
  | arrives _ _ hnext => omega
  | create _ hstep => exact create_empties hcall (createSession_cases hstep) hnew hempties hempty
  | disconnect _ hsessions => exact hkept (by rw [hsessions]) (by rw [hsessions])
  | canceller _ hstep => exact cancelTask_empties hhandle hstep
  | forwarder _ _ hstep =>
    obtain ⟨-, _, _, -, rfl⟩ | ⟨_, _, _, -, -, rfl⟩ | ⟨-, rfl⟩ := forwardUiEvents_cases hstep <;>
      exact hkept (by simp) (by simp)
  | gui _ _ _ hmoves => exact hkept hmoves.create hmoves.canceller
  | abortsForwarder _ _ _ _ hsessions => exact hkept (by rw [hsessions]) (by rw [hsessions])
  | abortsCanceller k _ hk =>
    have hcreated := hwf.close k i (by rw [hk]; rfl)
    exact absurd ((step_effect hwf h).created_mono hcreated) hnew

theorem inUse_arrived {s : UiService} (hwf : Wf s) (desktop : String → Option String)
    (call : CreateSession) : InUse s.nextSession call (s.arrived call) where
  wf := wf_step hwf (step_arrived desktop s call)
  lt := Nat.lt_succ_self s.nextSession
  handle := by rw [arrived_session]
  emptied := by
    rw [arrived_session]
    exact .inr ⟨.inl rfl, (fun hn => by cases hn), (fun hn => by cases hn)⟩

/-! ### What a failed call leaves behind -/

/- Every task of the call has come to its end. -/
def Over (i : Nat) (s : UiService) : Prop :=
  ((s.sessions i).canceller = .notSpawned ∨ (s.sessions i).canceller.ended = true) ∧
    ((s.sessions i).forwarder = .notSpawned ∨ (s.sessions i).forwarder.stopped = true)

/-- The sessions and their flags are the same, and no request of the call waits. -/
def Untouched (i : Nat) (s t : UiService) : Prop :=
  s.SameSessions t ∧ i ∉ t.requests.map Prod.fst

theorem untouched_iff {desktop : String → Option String} {s t : UiService} {call : CreateSession}
    {ls : List Label} {err : String} (hwf : Wf s) (hqueue : Queue s)
    (hrun : Machine.exec (step desktop) (s.arrived call) ls = some t)
    (herr : (t.sessions s.nextSession).create = .returned (.error err))
    (hover : Over s.nextSession t)
    (hothers : Machine.Along (step desktop)
      (fun u l v => l.ofCall s.nextSession = false → u.SameSessions v) (s.arrived call) ls) :
    Untouched s.nextSession s t ↔ s.server.registry call.args.sessionHandle = none ∨
      call.sender = none ∨ call.watchError ≠ none := by
  constructor
  · intro huntouched
    by_contra hcall
    rw [not_or, not_or, not_not] at hcall
    obtain ⟨hused, hsender⟩ := hcall
    -- the cancel task has been spawned, and has emptied the path of somebody else
    have huse : InUse s.nextSession call t := by
      refine Machine.exec_invariant ?_ (inUse_arrived hwf desktop call) hothers hrun
      exact fun u l v hu hl hv => inUse_step hsender hu hl hv
    obtain hcreated | ⟨hspawned, hrunning, hfinished⟩ := huse.emptied
    · exact not_created_of_error herr hcreated
    · have hended : (t.sessions s.nextSession).canceller = .finished := by
        have hover' := hover.1
        cases htask : (t.sessions s.nextSession).canceller with
        | finished => rfl
        | aborted => exact absurd htask hrunning
        | notSpawned =>
          rw [herr] at hspawned
          exact absurd htask (hspawned.resolve_left fun hn => by cases hn)
        | _ =>
          rw [htask] at hover'
          exact absurd hover' (by simp [CancelTask.ended])
      exact hused (huntouched.1.1 ▸ hfinished hended)
  · intro hcall
    have halone : Alone s.nextSession call s t := by
      refine Machine.exec_invariant ?_ (alone_arrived desktop hwf hqueue hcall)
        hothers hrun
      exact fun u l v hu hl hv => alone_step hu hl hv
    refine ⟨?_, not_mem_of_asked halone.asked herr⟩
    obtain hcreated | ⟨-, hsame, -⟩ := halone.same
    · exact absurd hcreated (not_created_of_error herr)
    · exact hsame

/-- A call of `create_session` has failed, and what it has spawned has ended. Whatever moved in
between, the call and its tasks have left the sessions alone, and no request of the call waits, if
nothing was at the path of the call whenever one of them looked. When nobody else has touched the
sessions, they are as they were if and only if nothing was at the path to begin with, or the sender
of the call could not be watched. -/
theorem failed_call_touches_nothing (desktop : String → Option String) (s t : UiService)
    (call : CreateSession) (ls : List Label) (err : String)
    (hreach : Machine.Reaches (step desktop) init s)
    (hrun : Machine.exec (step desktop) s (.createSession call :: ls) = some t)
    (herr : (t.sessions s.nextSession).create = .returned (.error err))
    (hover : Over s.nextSession t) :
    (Machine.Along (step desktop) (fun u l _ => FindsNothing s.nextSession u l) s
        (.createSession call :: ls) →
      Machine.Along (step desktop) (fun u l v => l.ofCall s.nextSession = true → u.SameSessions v)
        s (.createSession call :: ls) ∧ s.nextSession ∉ t.requests.map Prod.fst) ∧
    (Machine.Along (step desktop) (fun u l v => l.ofCall s.nextSession = false → u.SameSessions v)
        s (.createSession call :: ls) →
      (Untouched s.nextSession s t ↔ s.server.registry call.args.sessionHandle = none ∨
        call.sender = none ∨ call.watchError ≠ none)) := by
  obtain ⟨hwf, hqueue⟩ := wf_queue_of_reaches hreach
  have harrived := step_arrived desktop s call
  have hrest : Machine.exec (step desktop) (s.arrived call) ls = some t := by
    rwa [Machine.exec_cons, harrived] at hrun
  constructor
  · intro hnothing
    obtain ⟨hsame, hnone⟩ :=
      failed_call_finds_nothing hwf hqueue hrest herr (hnothing _ harrived).2
    exact ⟨Machine.along_cons_of_step harrived (fun hcall => by cases hcall) hsame, hnone⟩
  · exact fun hothers => untouched_iff hwf hqueue hrest herr hover (hothers _ harrived).2

/- A call for an application that has no desktop file. -/
def strayCall (sessionHandle : String) : CreateSession where
  sender := some ":1.8"
  args := ⟨sessionHandle, none, "https://example.com", .publicKeyGet, [], "stray", 78,
    ⟨none, none, some "example.com"⟩⟩
  watchError := none

theorem failed_call_touches_nothing_stray :
    ∃ s t, Machine.exec (step oneApp) init (openSession 0 "/session/1") = some s ∧
      Machine.exec (step oneApp) s [.createSession (strayCall "/session/2"), .create 1, .create 1,
        .canceller 1, .canceller 1, .canceller 1] = some t ∧
      Untouched 1 s t ∧ 1 ∉ t.requests.map Prod.fst := by
  refine ⟨_, _, rfl, rfl, ((failed_call_touches_nothing oneApp _ _ (strayCall "/session/2")
    [.create 1, .create 1, .canceller 1, .canceller 1, .canceller 1] _
    ⟨openSession 0 "/session/1", rfl⟩ rfl rfl ⟨.inr rfl, .inl rfl⟩).2 ?_).mpr (.inl rfl),
    ((failed_call_touches_nothing oneApp _ _ (strayCall "/session/2")
    [.create 1, .create 1, .canceller 1, .canceller 1, .canceller 1] _
    ⟨openSession 0 "/session/1", rfl⟩ rfl rfl ⟨.inr rfl, .inl rfl⟩).1 ?_).2⟩
  · refine Machine.along_cons_of_step rfl (fun _ => .refl _) ?_
    refine Machine.along_mono (I := fun _ => True) ?_ trivial
      (Machine.along_of_forall (P := fun l => l.ofCall 1 = true) (by decide))
    intro u l v _ hl _
    refine ⟨trivial, fun hn => ?_⟩
    have hother : l.ofCall 1 = false := hn
    rw [hl] at hother
    cases hother
  · decide

/-- A call for the path of a session that is open, by an application without a desktop file, shuts
that session down. One whose path is found to be in use has left its request with the GUI thread. -/
theorem failed_call_shuts_down :
    ∃ s, Machine.exec (step oneApp) init (openSession 0 "/session/1") = some s ∧
      s.server.registry "/session/1" = some 0 ∧ (s.server.objects 0).closedSignals = 0 ∧
      (∃ t, Machine.exec (step oneApp) s [.createSession (strayCall "/session/1"), .create 1,
          .create 1, .canceller 1, .canceller 1, .canceller 1, .canceller 1, .canceller 1,
          .canceller 1] = some t ∧
        (t.sessions 1).create = .returned (.error
          "Failed to retrieve app name for stray: Could not find desktop file") ∧
        Over 1 t ∧ t.server.registry "/session/1" = none ∧
        (t.server.objects 0).closedSignals = 1) ∧
      ∃ t, Machine.exec (step oneApp) s [.createSession (sampleCall "/session/1"), .create 1,
          .create 1, .create 1, .create 1] = some t ∧
        (t.sessions 1).create = .returned (.error "Could not create session") ∧
        t.requests.map Prod.fst = [1] :=
  ⟨_, rfl, rfl, rfl, ⟨_, rfl, rfl, ⟨.inr rfl, .inl rfl⟩, rfl, rfl⟩, ⟨_, rfl, rfl, rfl⟩⟩

end UiService

end Credentialsd
