import Credentialsd.FlowInvariant
import Credentialsd.Gateway

/-!
# The gateway's method calls (`gateway/dbus.rs`, `gateway/mod.rs:76-206`)

Any number of clients call `CreateCredential` and `GetCredential`, each call in a
task of its own. A call checks its caller, waits for the mutex of the gateway
service, and keeps it until the controller's answer has come back: the daemon
behind the controller is the one of `FlowControl`. What becomes of the JSON of a
request and of a response is left to parameters.
-/

namespace Credentialsd
open Machine

namespace Gateway

/-- The arguments of a method call that its handler reads. -/
structure MethodCall where
  operation : Operation
  publicKey : Option String
  windowHandle : Option WindowHandle
  activationToken : Option String
  details : Call
  deriving Repr, DecidableEq

/-- What a handler checks before it locks the gateway service (`dbus.rs:80-97, 138-161`). -/
def MethodCall.precheck (m : MethodCall) : Except Error (String × RequestContext) :=
  match m.publicKey with
  | none => .error .typeError
  | some requestJson =>
    match m.details.validateAppDetails with
    | .ok context => .ok (requestJson, context)
    | .error err => .error err

/-- Where the task of a method call stands. It holds the gateway service from `validating` on. -/
inductive CallStage where
  | received
  | locking (requestJson : String) (context : RequestContext)
  | validating (requestJson : String) (context : RequestContext)
  | sending (request : CredentialRequest) (app : ClientDetails)
  | awaiting (request : CredentialRequest) (ticket : Nat)
  | answered (result : Except Error String)
  | panicked
  deriving Repr

def CallStage.holdsService : CallStage → Bool
  | .validating _ _ => true
  | .sending _ _ => true
  | .awaiting _ _ => true
  | _ => false

def CallStage.finished : CallStage → Bool
  | .answered _ => true
  | .panicked => true
  | _ => false

/-- The gateway and the daemon behind it. `lock` is the call that holds the gateway service;
`submitted` counts the requests sent to the controller, which answers them in order. -/
structure Admission where
  calls : List (MethodCall × CallStage)
  lock : Option Nat
  daemon : Daemon
  submitted : Nat

namespace Admission

/-- The steps of the task of a call. -/
inductive CallLabel where
  | precheck
  | lock
  | validate
  | send
  | respond
  deriving Repr, DecidableEq

inductive Label where
  | arrive (m : MethodCall)
  | call (j : Nat) (l : CallLabel)
  | daemon (l : Credentialsd.Label)
  deriving Repr, DecidableEq

/- The call whose task moves. -/
def Label.caller : Label → Option Nat
  | .call j _ => some j
  | _ => none

/- The conversions of `gateway/util.rs`, with the check of the algorithms, and back. -/
variable (parse : Operation → String → NavigationContext → Except WebAuthnError CredentialRequest)
  (serialize : CredentialRequest → CredentialResponse → Option String) (credHash : Bytes → String)

def init : Admission := ⟨[], none, .init, 0⟩

def setStage (s : Admission) (j : Nat) (m : MethodCall) (stage : CallStage) : Admission :=
  { s with calls := s.calls.set j (m, stage) }

/-- `validate_request` and the conversion of the JSON (`mod.rs:83-107, 148-169`). -/
def toRequest (m : MethodCall) (requestJson : String) (context : RequestContext) :
    Except WebAuthnError CredentialRequest :=
  match validateRequest context with
  | .ok environment => parse m.operation requestJson environment
  | .error err => .error err

/-- The end of `request_credential` and of the two handlers. -/
def toResult (request : CredentialRequest) : Response → Except Error String
  | .error .credentialExcluded => .error .invalidStateError
  | .error _ => .error .notAllowedError
  | .ok response =>
    match request, response with
    | .createPublicKeyCredentialRequest _, .createPublicKeyCredentialResponse _
    | .getPublicKeyCredentialRequest _, .getPublicKeyCredentialResponse _ =>
      match serialize request response with
      | some responseJson => .ok responseJson
      | none => .error .notAllowedError
    | _, _ => .error .notAllowedError

/-- One step of the task of a call. -/
def callStep (s : Admission) (j : Nat) (m : MethodCall) (stage : CallStage) :
    CallLabel → Option Admission
  | .precheck =>
    match stage, m.precheck with
    | .received, .ok (requestJson, context) => some (s.setStage j m (.locking requestJson context))
    | .received, .error err => some (s.setStage j m (.answered (.error err)))
    | _, _ => none
  | .lock =>
    match stage, s.lock with
    | .locking requestJson context, none =>
      some { s.setStage j m (.validating requestJson context) with lock := some j }
    | _, _ => none
  | .validate =>
    match stage with
    | .validating requestJson context =>
      match toRequest parse m requestJson context with
      | .ok request => some (s.setStage j m (.sending request ⟨context.appId.val, context.pid⟩))
      | .error err =>
        some { s.setStage j m (.answered (.error (.ofWebAuthn err))) with lock := none }
    | _ => none
  | .send =>
    match stage with
    | .sending request app =>
      -- the receiver is gone, and the `unwrap` of the `send` panics
      if s.daemon.phase = .panicked then some { s.setStage j m .panicked with lock := none }
      else
        (s.daemon.step credHash (.submit ⟨request, app, m.windowHandle, m.activationToken⟩)).map
          fun daemon =>
            { s.setStage j m (.awaiting request s.submitted) with
              daemon := daemon, submitted := s.submitted + 1 }
    | _ => none
  | .respond =>
    match stage with
    | .awaiting request ticket =>
      match s.daemon.returned[ticket]? with
      | some (_, response) =>
        some { s.setStage j m (.answered (toResult serialize request response)) with lock := none }
      | none =>
        if s.daemon.phase = .panicked then
          some { s.setStage j m (.answered (.error .notAllowedError)) with lock := none }
        else none
    | _ => none

/-- A step of the daemon; only a call submits a request to it. -/
def daemonStep (s : Admission) : Credentialsd.Label → Option Admission
  | .submit _ => none
  | l => (s.daemon.step credHash l).map fun daemon => { s with daemon := daemon }

def step (s : Admission) : Label → Option Admission
  | .arrive m => some { s with calls := s.calls ++ [(m, .received)] }
  | .call j l => s.calls[j]?.bind fun c => callStep parse serialize credHash s j c.1 c.2 l
  | .daemon l => daemonStep credHash s l

/-! ### What a call can do -/

/-- What a step of the task of call `j` changes. -/
inductive CallMove (s : Admission) (j : Nat) (m : MethodCall) (stage : CallStage) (s' : Admission) :
    Prop where
  | checks (requestJson : String) (context : RequestContext) (before : stage = .received)
      (ok : m.precheck = .ok (requestJson, context))
      (calls : s'.calls = s.calls.set j (m, .locking requestJson context)) (lock : s'.lock = s.lock)
  | rejects (err : Error) (before : stage = .received) (bad : m.precheck = .error err)
      (calls : s'.calls = s.calls.set j (m, .answered (.error err))) (lock : s'.lock = s.lock)
  | locks (requestJson : String) (context : RequestContext)
      (before : stage = .locking requestJson context) (free : s.lock = none)
      (calls : s'.calls = s.calls.set j (m, .validating requestJson context))
      (lock : s'.lock = some j)
  | works (stage' : CallStage) (before : stage.holdsService = true)
      (after : stage'.holdsService = true) (calls : s'.calls = s.calls.set j (m, stage'))
      (lock : s'.lock = s.lock)
  | finishes (stage' : CallStage) (before : stage.holdsService = true)
      (after : stage'.finished = true) (calls : s'.calls = s.calls.set j (m, stage'))
      (lock : s'.lock = none)

variable {parse serialize credHash}

theorem callStep_move {s s' : Admission} {j : Nat} {m : MethodCall} {stage : CallStage}
    {l : CallLabel} (h : callStep parse serialize credHash s j m stage l = some s') :
    CallMove s j m stage s' := by
  cases l with
  | precheck =>
    simp only [callStep] at h
    split at h
    · rename_i requestJson context hok
      cases h
      exact .checks requestJson context rfl hok rfl rfl
    · rename_i err hbad
      cases h
      exact .rejects err rfl hbad rfl rfl
    · cases h
  | lock =>
    simp only [callStep] at h
    split at h
    · rename_i requestJson context hfree
      cases h
      exact .locks requestJson context rfl hfree rfl rfl
    · cases h
  | validate =>
    simp only [callStep] at h
    split at h
    · split at h
      · cases h
        exact .works _ rfl rfl rfl rfl
      · cases h
        exact .finishes _ rfl rfl rfl rfl
    · cases h
  | send =>
    simp only [callStep] at h
    split at h
    · split at h
      · cases h
        exact .finishes _ rfl rfl rfl rfl
      · obtain ⟨daemon, -, rfl⟩ := Option.map_eq_some_iff.mp h
        exact .works _ rfl rfl rfl rfl
    · cases h
  | respond =>
    simp only [callStep] at h
    split at h
    · split at h
      · cases h
        exact .finishes _ rfl rfl rfl rfl
      · split at h
        · cases h
          exact .finishes _ rfl rfl rfl rfl
        · cases h
    · cases h

/-- A step is the arrival of a call, one of a call's task, or one of the daemon. -/
theorem step_cases {s s' : Admission} {l : Label}
    (h : step parse serialize credHash s l = some s') :
    (∃ m, s'.calls = s.calls ++ [(m, .received)] ∧ s'.lock = s.lock) ∨
      (∃ j m stage, l.caller = some j ∧ s.calls[j]? = some (m, stage) ∧ CallMove s j m stage s') ∨
      s'.calls = s.calls ∧ s'.lock = s.lock := by
  cases l with
  | arrive m =>
    cases h
    exact Or.inl ⟨m, rfl, rfl⟩
  | call j l =>
    obtain ⟨⟨m, stage⟩, hj, h⟩ := Option.bind_eq_some_iff.mp h
    exact Or.inr (Or.inl ⟨j, m, stage, rfl, hj, callStep_move h⟩)
  | daemon l =>
    right
    right
    simp only [step, daemonStep] at h
    split at h
    · cases h
    · obtain ⟨daemon, -, rfl⟩ := Option.map_eq_some_iff.mp h
      exact ⟨rfl, rfl⟩

/-! ### The lock of the gateway service -/

structure Inv (s : Admission) : Prop where
  holder : ∀ (j : Nat) (m : MethodCall) (stage : CallStage), s.calls[j]? = some (m, stage) →
    (stage.holdsService = true ↔ s.lock = some j)
  checked : ∀ (j : Nat) (m : MethodCall) (requestJson : String) (context : RequestContext),
    s.calls[j]? = some (m, .locking requestJson context) →
      m.precheck = .ok (requestJson, context)
  present : ∀ j, s.lock = some j → j < s.calls.length

theorem inv_init : init.Inv :=
  ⟨fun j m stage h => (by cases h), fun j m json context h => (by cases h), fun j h => by cases h⟩

theorem finished_not_holding {stage : CallStage} (h : stage.finished = true) :
    stage.holdsService = false := by
  cases stage <;> first | rfl | cases h

/-- The stage of one call is replaced; `locked` says who holds the service afterwards. -/
theorem Inv.setCall {s s' : Admission} {j : Nat} {m : MethodCall} {stage stage' : CallStage}
    (hi : s.Inv) (hj : s.calls[j]? = some (m, stage))
    (hcalls : s'.calls = s.calls.set j (m, stage'))
    (hown : stage'.holdsService = true ↔ s'.lock = some j)
    (hothers : ∀ k, k ≠ j → (s'.lock = some k ↔ s.lock = some k))
    (hchecked : ∀ json context, stage' = .locking json context →
      m.precheck = .ok (json, context)) : s'.Inv := by
  have hlt : j < s.calls.length := (List.getElem?_eq_some_iff.mp hj).1
  have hget : ∀ k m' st, s'.calls[k]? = some (m', st) →
      k = j ∧ m' = m ∧ st = stage' ∨ k ≠ j ∧ s.calls[k]? = some (m', st) := by
    intro k m' st hk
    rw [hcalls, List.getElem?_set] at hk
    by_cases he : j = k
    · rw [if_pos he, if_pos hlt] at hk
      cases hk
      exact Or.inl ⟨he.symm, rfl, rfl⟩
    · rw [if_neg he] at hk
      exact Or.inr ⟨fun h => he h.symm, hk⟩
  refine ⟨fun k m' st hk => ?_, fun k m' json context hk => ?_, fun k hk => ?_⟩
  · rcases hget k m' st hk with ⟨rfl, -, rfl⟩ | ⟨hne, hold⟩
    · exact hown
    · rw [hothers k hne]
      exact hi.holder k m' st hold
  · rcases hget k m' _ hk with ⟨rfl, rfl, hst⟩ | ⟨-, hold⟩
    · exact hchecked json context hst.symm
    · exact hi.checked k m' json context hold
  · rw [hcalls, List.length_set]
    by_cases he : k = j
    · rw [he]
      exact hlt
    · exact hi.present k ((hothers k he).mp hk)

theorem callMove_inv {s s' : Admission} {j : Nat} {m : MethodCall} {stage : CallStage}
    (hi : s.Inv) (hj : s.calls[j]? = some (m, stage)) (hm : CallMove s j m stage s') : s'.Inv := by
  have hholder := hi.holder j m stage hj
  cases hm with
  | checks json context before ok calls lock =>
    rw [before] at hholder
    refine hi.setCall hj calls (by rw [lock]; exact hholder) (fun k _ => by rw [lock]) ?_
    intro json' context' he
    cases he
    exact ok
  | rejects err before bad calls lock =>
    rw [before] at hholder
    exact hi.setCall hj calls (by rw [lock]; exact hholder) (fun k _ => by rw [lock])
      fun json context he => by cases he
  | locks json context before free calls lock =>
    refine hi.setCall hj calls (by rw [lock]; simp [CallStage.holdsService]) (fun k hk => ?_)
      fun json context he => by cases he
    rw [lock, free]
    simp [Ne.symm hk]
  | works stage' before after calls lock =>
    refine hi.setCall hj calls ?_ (fun k _ => by rw [lock]) fun json context he => ?_
    · rw [lock]
      exact ⟨fun _ => hholder.mp before, fun _ => after⟩
    · rw [he] at after
      cases after
  | finishes stage' before after calls lock =>
    refine hi.setCall hj calls ?_ (fun k hk => ?_) fun json context he => ?_
    · rw [lock, finished_not_holding after]
      simp
    · rw [lock, hholder.mp before]
      simp [Ne.symm hk]
    · rw [he] at after
      cases after

theorem step_inv {s s' : Admission} {l : Label} (hi : s.Inv)
    (h : step parse serialize credHash s l = some s') : s'.Inv := by
  rcases step_cases h with ⟨m, hcalls, hlock⟩ | ⟨j, m, stage, -, hj, hm⟩ | ⟨hcalls, hlock⟩
  · refine ⟨fun k m' st hk => ?_, fun k m' json context hk => ?_, fun k hk => ?_⟩
    · rw [hlock]
      rw [hcalls, List.getElem?_append] at hk
      split at hk
      · exact hi.holder k m' st hk
      · -- the new call comes after all others, among which is the holder
        rename_i hge
        have hlt := fun he => hge (hi.present k he)
        rcases List.mem_singleton.mp (List.mem_of_getElem? hk) with he
        cases he
        exact ⟨fun h => (by cases h), fun h => absurd h hlt⟩
    · rw [hcalls, List.getElem?_append] at hk
      split at hk
      · exact hi.checked k m' json context hk
      · rcases List.mem_singleton.mp (List.mem_of_getElem? hk) with he
        cases he
    · rw [hcalls, List.length_append]
      exact Nat.lt_add_right _ (hi.present k (hlock ▸ hk))
  · exact callMove_inv hi hj hm
  · exact ⟨fun k m' st hk => by rw [hlock]; exact hi.holder k m' st (hcalls ▸ hk),
      fun k m' json context hk => hi.checked k m' json context (hcalls ▸ hk),
      fun k hk => by rw [hcalls]; exact hi.present k (hlock ▸ hk)⟩

/-! ### A call while another one is handled -/

def Finished (s : Admission) (j : Nat) : Prop :=
  ∃ m stage, s.calls[j]? = some (m, stage) ∧ stage.finished = true

/-- Call `j` has come in but cannot be handled, because call `i` is. -/
structure Waits (s : Admission) (i j : Nat) (m : MethodCall) : Prop where
  lock : s.lock = some i
  ne : j ≠ i
  stage : s.calls[j]? = some (m, .received) ∨
    ∃ json context, s.calls[j]? = some (m, .locking json context)

theorem Waits.lookup {s : Admission} {i j : Nat} {m : MethodCall} (h : s.Waits i j m) :
    ∃ stage, s.calls[j]? = some (m, stage) ∧ stage.holdsService = false ∧
      stage.finished = false := by
  rcases h.stage with h | ⟨json, context, h⟩
  · exact ⟨_, h, rfl, rfl⟩
  · exact ⟨_, h, rfl, rfl⟩

theorem Waits.not_finished {s : Admission} {i j : Nat} {m : MethodCall} (h : s.Waits i j m) :
    ¬ s.Finished j := by
  rintro ⟨m', stage, hj, hfinished⟩
  obtain ⟨stage', hj', -, hopen⟩ := h.lookup
  rw [hj] at hj'
  cases hj'
  rw [hfinished] at hopen
  cases hopen

/-- It goes on to wait until a step of call `i` itself finishes that. -/
theorem Waits.of_step {s t : Admission} {i j : Nat} {m : MethodCall} {l : Label} (hi : s.Inv)
    (hw : s.Waits i j m) (hok : ∀ err, m.precheck ≠ .error err)
    (h : step parse serialize credHash s l = some t) :
    t.Waits i j m ∨ l.caller = some i ∧ t.Finished i := by
  rcases step_cases h with ⟨m', hcalls, hlock⟩ | ⟨k, mk, stage, hl, hk, hm⟩ | ⟨hcalls, hlock⟩
  · have hkeep : ∀ st, s.calls[j]? = some (m, st) → t.calls[j]? = some (m, st) := by
      intro st hj
      rw [hcalls, List.getElem?_append_left (List.getElem?_eq_some_iff.mp hj).1, hj]
    exact Or.inl ⟨by rw [hlock, hw.lock], hw.ne,
      hw.stage.imp (hkeep _) fun ⟨json, context, hj⟩ => ⟨json, context, hkeep _ hj⟩⟩
  · by_cases he : k = j
    · -- its own task can only go on to the lock, which is taken
      rw [he] at hk hm
      have hlt : j < s.calls.length := (List.getElem?_eq_some_iff.mp hk).1
      obtain ⟨stage', hj', hfree, -⟩ := hw.lookup
      rw [hk] at hj'
      cases hj'
      cases hm with
      | checks json context before ok calls lock =>
        refine Or.inl ⟨by rw [lock, hw.lock], hw.ne, Or.inr ⟨json, context, ?_⟩⟩
        rw [calls, List.getElem?_set_self hlt]
      | rejects err before bad calls lock => exact absurd bad (hok err)
      | locks json context before free calls lock =>
        rw [hw.lock] at free
        cases free
      | works stage' before after calls lock =>
        rw [before] at hfree
        cases hfree
      | finishes stage' before after calls lock =>
        rw [before] at hfree
        cases hfree
    · have hkeep : ∀ st c, t.calls = s.calls.set k c → s.calls[j]? = some (m, st) →
          t.calls[j]? = some (m, st) := fun st c hcalls hj => by
        rw [hcalls, List.getElem?_set_ne he, hj]
      have hwaits : ∀ c, t.calls = s.calls.set k c → t.lock = s.lock → t.Waits i j m :=
        fun c hcalls hlock => ⟨by rw [hlock, hw.lock], hw.ne, hw.stage.imp (hkeep _ c hcalls)
          fun ⟨json, context, hj⟩ => ⟨json, context, hkeep _ c hcalls hj⟩⟩
      cases hm with
      | checks json context before ok calls lock => exact Or.inl (hwaits _ calls lock)
      | rejects err before bad calls lock => exact Or.inl (hwaits _ calls lock)
      | locks json context before free calls lock =>
        rw [hw.lock] at free
        cases free
      | works stage' before after calls lock => exact Or.inl (hwaits _ calls lock)
      | finishes stage' before after calls lock =>
        have hki := (hi.holder k mk stage hk).mp before
        rw [hw.lock] at hki
        cases hki
        refine Or.inr ⟨hl, mk, stage', ?_, after⟩
        rw [calls, List.getElem?_set_self (List.getElem?_eq_some_iff.mp hk).1]
  · exact Or.inl ⟨by rw [hlock, hw.lock], hw.ne, by rw [hcalls]; exact hw.stage⟩

theorem Finished.of_step {s t : Admission} {i : Nat} {l : Label} (hf : s.Finished i)
    (h : step parse serialize credHash s l = some t) : t.Finished i := by
  obtain ⟨mi, sti, hi, hfinished⟩ := hf
  rcases step_cases h with ⟨m', hcalls, -⟩ | ⟨k, mk, stage, -, hk, hm⟩ | ⟨hcalls, -⟩
  · refine ⟨mi, sti, ?_, hfinished⟩
    rw [hcalls, List.getElem?_append_left (List.getElem?_eq_some_iff.mp hi).1, hi]
  · have hother : k ≠ i := by
      rintro rfl
      rw [hi] at hk
      cases hk
      have hfree := finished_not_holding hfinished
      cases hm with
      | checks json context before => rw [before] at hfinished; cases hfinished
      | rejects err before => rw [before] at hfinished; cases hfinished
      | locks json context before => rw [before] at hfinished; cases hfinished
      | works stage' before => rw [before] at hfree; cases hfree
      | finishes stage' before => rw [before] at hfree; cases hfree
    have hkeep : ∀ c, t.calls = s.calls.set k c → t.calls[i]? = some (mi, sti) := fun c hcalls => by
      rw [hcalls, List.getElem?_set_ne hother, hi]
    refine ⟨mi, sti, ?_, hfinished⟩
    cases hm with
    | checks json context before ok calls lock => exact hkeep _ calls
    | rejects err before bad calls lock => exact hkeep _ calls
    | locks json context before free calls lock => exact hkeep _ calls
    | works stage' before after calls lock => exact hkeep _ calls
    | finishes stage' before after calls lock => exact hkeep _ calls
  · exact ⟨mi, sti, by rw [hcalls, hi], hfinished⟩

/-! ### Who is answered first -/

variable (parse serialize credHash)

/-- The task of the call can bring it to an error by itself, whatever the other tasks do or wait
for. -/
def RejectsAlone (s : Admission) (j : Nat) : Prop :=
  ∃ ls t m err, (∀ l ∈ ls, l.caller = some j) ∧
    exec (step parse serialize credHash) s ls = some t ∧
    t.calls[j]? = some (m, .answered (.error err))

variable {parse serialize credHash}

theorem run_inv {ls : List Label} {s : Admission}
    (h : exec (step parse serialize credHash) init ls = some s) : s.Inv :=
  reaches_invariant (fun _ _ _ => step_inv) inv_init ⟨ls, h⟩

theorem Waits.run {s t : Admission} {i j : Nat} {m : MethodCall} {ls : List Label} (hi : s.Inv)
    (hw : s.Waits i j m) (hok : ∀ err, m.precheck ≠ .error err)
    (h : exec (step parse serialize credHash) s ls = some t) : t.Waits i j m ∨ t.Finished i := by
  have hkeep : ∀ s l t, (Inv s ∧ (s.Waits i j m ∨ s.Finished i)) →
      step parse serialize credHash s l = some t → Inv t ∧ (t.Waits i j m ∨ t.Finished i) := by
    rintro s l t ⟨hi, hw | hf⟩ h
    · exact ⟨step_inv hi h, (hw.of_step hi hok h).imp id And.right⟩
    · exact ⟨step_inv hi h, Or.inr (hf.of_step h)⟩
  exact (reaches_invariant hkeep ⟨hi, Or.inl hw⟩ ⟨ls, h⟩).2

theorem Waits.run_alone {s t : Admission} {i j : Nat} {m : MethodCall} {ls : List Label}
    (hi : s.Inv) (hw : s.Waits i j m) (hok : ∀ err, m.precheck ≠ .error err)
    (hown : ∀ l ∈ ls, l.caller = some j)
    (h : exec (step parse serialize credHash) s ls = some t) : t.Waits i j m := by
  have hkeep : ∀ s l t, (Inv s ∧ s.Waits i j m) → Label.caller l = some j →
      step parse serialize credHash s l = some t → Inv t ∧ t.Waits i j m := by
    rintro s l t ⟨hi, hw⟩ hl h
    refine ⟨step_inv hi h, (hw.of_step hi hok h).resolve_right ?_⟩
    rintro ⟨hother, -⟩
    rw [hl] at hother
    exact hw.ne (Option.some.inj hother)
  exact (exec_invariant hkeep ⟨hi, hw⟩ (along_of_forall hown) h).2

/-- A call that is neither answered nor handled is waiting, if another call is handled. -/
theorem Inv.waits {s : Admission} {i j : Nat} {m : MethodCall} {stage : CallStage} (hi : s.Inv)
    (hlock : s.lock = some i) (hne : j ≠ i) (hj : s.calls[j]? = some (m, stage))
    (hopen : stage.finished = false) : s.Waits i j m := by
  have hfree : stage.holdsService = false := Bool.eq_false_iff.mpr fun hholds => by
    have hown := (hi.holder j m stage hj).mp hholds
    rw [hlock] at hown
    exact hne (Option.some.inj hown).symm
  refine ⟨hlock, hne, ?_⟩
  cases stage with
  | received => exact Or.inl hj
  | locking json context => exact Or.inr ⟨json, context, hj⟩
  | validating json context => cases hfree
  | sending request app => cases hfree
  | awaiting request ticket => cases hfree
  | answered result => cases hopen
  | panicked => cases hopen

theorem not_rejectsAlone {s : Admission} {i j : Nat} {m : MethodCall} (hi : s.Inv)
    (hw : s.Waits i j m) (hok : ∀ err, m.precheck ≠ .error err) :
    ¬ RejectsAlone parse serialize credHash s j := by
  rintro ⟨ls, t, m', err, hown, hrun, hj⟩
  exact (hw.run_alone hi hok hown hrun).not_finished ⟨m', _, hj, rfl⟩

/-- While a call is handled, another one is rejected at once iff it fails a check made before the
lock; all others are answered after the call that is handled. -/
theorem rejected_at_once_iff
    (parse : Operation → String → NavigationContext → Except WebAuthnError CredentialRequest)
    (serialize : CredentialRequest → CredentialResponse → Option String)
    (credHash : Bytes → String) (ls : List Label) (s : Admission) (i j : Nat) (m : MethodCall)
    (stage : CallStage) (hs : exec (step parse serialize credHash) init ls = some s)
    (hlock : s.lock = some i) (hne : j ≠ i) (hj : s.calls[j]? = some (m, stage))
    (hopen : stage.finished = false) :
    (RejectsAlone parse serialize credHash s j ↔ ∃ err, m.precheck = .error err) ∧
    ((∀ err, m.precheck ≠ .error err) →
      ∀ t, Reaches (step parse serialize credHash) s t → t.Finished j → t.Finished i) := by
  have hi := run_inv hs
  have hw := hi.waits hlock hne hj hopen
  refine ⟨⟨fun halone => ?_, ?_⟩, ?_⟩
  · refine Classical.byContradiction fun hok => ?_
    exact not_rejectsAlone hi hw (fun err herr => hok ⟨err, herr⟩) halone
  · rintro ⟨err, herr⟩
    rcases hw.stage with hreceived | ⟨json, context, hlocking⟩
    · refine ⟨[.call j .precheck], s.setStage j m (.answered (.error err)), m, err, ?_, ?_, ?_⟩
      · intro l hl
        rw [List.mem_singleton.mp hl]
        rfl
      · exact exec_single (by simp only [step, hreceived, Option.bind_some, callStep, herr])
      · exact List.getElem?_set_self (List.getElem?_eq_some_iff.mp hreceived).1
    · rw [hi.checked j m json context hlocking] at herr
      cases herr
  · rintro hok t ⟨ms, hms⟩ hfinished
    exact (hw.run hi hok hms).resolve_left fun h => h.not_finished hfinished

def sampleCall (pid : UInt32) (publicKey : Option String) : MethodCall where
  operation := .publicKeyGet
  publicKey := publicKey
  windowHandle := none
  activationToken := none
  details := { portalCall "com.example.App" "https://a.test" none with pid := some pid }

def sampleParse (_ : Operation) (requestJson : String) (_ : NavigationContext) :
    Except WebAuthnError CredentialRequest :=
  .ok (.getPublicKeyCredentialRequest ⟨"a.test", "https://a.test", none, requestJson.toUTF8.toList⟩)

/- The first call is accepted by the credential service; then a second client calls. -/
def secondCall (publicKey : Option String) : List Label :=
  [.arrive (sampleCall 1 (some "a")), .call 0 .precheck, .call 0 .lock, .call 0 .validate,
   .call 0 .send, .daemon (.flow .receive), .daemon (.flow (.initRequest 7)),
   .arrive (sampleCall 2 publicKey)]

theorem rejected_at_once_typeError :
    ∃ s, exec (step sampleParse (fun _ _ => none) fun _ => "") init (secondCall none) = some s ∧
      RejectsAlone sampleParse (fun _ _ => none) (fun _ => "") s 1 :=
  ⟨_, rfl, ((rejected_at_once_iff sampleParse (fun _ _ => none) (fun _ => "") (secondCall none) _
    0 1 (sampleCall 2 none) .received rfl rfl (by decide) rfl rfl).1).mpr ⟨.typeError, rfl⟩⟩

/- The second client's call is parked: its task cannot move, and no error comes of it. -/
theorem second_call_parked :
    ∃ s context, exec (step sampleParse (fun _ _ => none) fun _ => "") init
        (secondCall (some "b") ++ [.call 1 .precheck]) = some s ∧
      s.daemon.phase.request.isSome = true ∧ s.lock = some 0 ∧
      s.calls[1]? = some (sampleCall 2 (some "b"), .locking "b" context) ∧
      (∀ l, step sampleParse (fun _ _ => none) (fun _ => "") s (.call 1 l) = none) ∧
      ¬ RejectsAlone sampleParse (fun _ _ => none) (fun _ => "") s 1 := by
  have hrun : exec (step sampleParse (fun _ _ => none) fun _ => "") init
      (secondCall (some "b") ++ [.call 1 .precheck]) = some _ := rfl
  refine ⟨_, _, hrun, rfl, rfl, rfl, fun l => by cases l <;> rfl, ?_⟩
  exact not_rejectsAlone (run_inv hrun) ((run_inv hrun).waits rfl (by decide) rfl rfl)
    fun err h => by cases h

end Admission

end Gateway

end Credentialsd
