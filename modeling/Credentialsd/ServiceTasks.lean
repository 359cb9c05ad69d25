import Credentialsd.Lib.Machine
import Credentialsd.Service

/-!
# The credential service under concurrent tasks

The calls of `Service` split into the steps between which other tasks of the
multi-threaded runtime can run. A `poll_next` receives an event, then reads its
own token, then, for a terminal state, locks `ctx` and takes the context; the
holder of the lock cancels the token, sends the response and unlocks in three
further steps. `cancel_request` takes the context under the lock and releases it
in the same way. `init_request` and the `get_*_credential` calls hold the lock
for one step.
-/

namespace Credentialsd

inductive Holder where
  | canceller
  | stream (sid : Nat)
  deriving Repr, DecidableEq

inductive Section where
  | cancelToken (c : RequestContext) (response : Response)
  | sendResponse (c : RequestContext) (response : Response)
  | unlock
  deriving Repr, DecidableEq

namespace Section

def effect (s : Service) : Section → Service
  | .cancelToken c _ => s.cancel c.cancellation
  | .sendResponse c response => s.send c.responseChannel response
  | .unlock => s

def next : Section → Option Section
  | .cancelToken c response => some (.sendResponse c response)
  | .sendResponse _ _ => some .unlock
  | .unlock => none

def context : Section → Option RequestContext
  | .cancelToken c _ => some c
  | .sendResponse c _ => some c
  | .unlock => none

end Section

inductive PollPc where
  | idle
  | received (e : HandlerEvent)
  | passed (e : HandlerEvent)
  | completing (e : HandlerEvent)
  | done (e : HandlerEvent)
  deriving Repr, DecidableEq

structure StreamTask where
  kind : StreamKind
  token : Nat
  pc : PollPc
  deriving Repr, DecidableEq

structure Tasks where
  service : Service
  lock : Option (Holder × Section)
  streams : Nat → Option StreamTask
  nextStream : Nat
  nextChannel : Nat

namespace Tasks

def init : Tasks := ⟨Service.new, none, fun _ => none, 0, 0⟩

inductive Label where
  | init (request : CredentialRequest) (requestId : RequestId)
  | cancel (requestId : RequestId)
  | start (kind : StreamKind)
  | event (sid : Nat) (e : HandlerEvent)
  | check (sid : Nat)
  | take (sid : Nat)
  | advance
  | finish (sid : Nat)
  deriving Repr, DecidableEq

def setStream (s : Tasks) (sid : Nat) (t : StreamTask) : Tasks :=
  { s with streams := Function.update s.streams sid (some t) }

section setStream

variable (s : Tasks) (sid : Nat) (t u : StreamTask)

@[simp] theorem setStream_service : (s.setStream sid t).service = s.service := rfl
@[simp] theorem setStream_lock : (s.setStream sid t).lock = s.lock := rfl

@[simp] theorem setStream_self : (s.setStream sid u).streams sid = some u := by
  simp only [setStream, Function.update_self]

theorem setStream_other {sid' : Nat} (h : sid' ≠ sid) :
    (s.setStream sid u).streams sid' = s.streams sid' := by
  simp only [setStream, Function.update_of_ne h]

@[simp] theorem setStream_setStream : (s.setStream sid t).setStream sid u = s.setStream sid u := by
  simp only [setStream, Function.update_idem]

theorem setStream_eq_self {s : Tasks} {sid : Nat} {u : StreamTask} (h : s.streams sid = some u) :
    s.setStream sid u = s := by
  simp only [setStream, ← h, Function.update_eq_self]

end setStream

def takeContext (s : Tasks) (h : Holder) (c : RequestContext) (response : Response) : Tasks :=
  { s with service := s.service.setCtx none, lock := some (h, .cancelToken c response) }

def leave (s : Tasks) : Holder → Tasks
  | .canceller => s
  | .stream sid =>
    match s.streams sid with
    | some ⟨kind, token, .completing e⟩ => s.setStream sid ⟨kind, token, .done e⟩
    | _ => s

def step (s : Tasks) : Label → Option Tasks
  | .init request requestId =>
    match s.lock with
    | none => some { s with
        service := (s.service.initRequest request s.nextChannel requestId).2
        nextChannel := s.nextChannel + 1 }
    | some _ => none
  | .cancel requestId =>
    match s.lock, Service.takeIf (fun c => c.requestId == requestId) s.service.ctx with
    | none, (some c, _) =>
      if requestId == c.requestId then
        some (s.takeContext .canceller c (Service.cancelResponse requestId))
      else some { s with service := (s.service.setCtx none).dropSender c.responseChannel }
    | none, (none, _) => some s
    | some _, _ => none
  | .start kind =>
    match s.lock, s.service.getCredential with
    | none, .ok c => some { s.setStream s.nextStream ⟨kind, c.cancellation, .idle⟩ with
        nextStream := s.nextStream + 1 }
    | _, _ => none
  | .event sid e =>
    match s.streams sid with
    | some ⟨kind, token, .idle⟩ =>
      if e.kind = kind then some (s.setStream sid ⟨kind, token, .received e⟩) else none
    | _ => none
  | .check sid =>
    match s.streams sid with
    | some ⟨kind, token, .received e⟩ =>
      if s.service.cancelled token then some (s.setStream sid ⟨kind, token, .idle⟩)
      else some (s.setStream sid ⟨kind, token, .passed e⟩)
    | _ => none
  | .take sid =>
    match s.streams sid with
    | some ⟨kind, token, .passed e⟩ =>
      match e.completion with
      | none => some (s.setStream sid ⟨kind, token, .done e⟩)
      | some response =>
        match s.lock, s.service.ctx with
        | none, some c =>
          some ((s.setStream sid ⟨kind, token, .completing e⟩).takeContext (.stream sid) c response)
        | none, none => some (s.setStream sid ⟨kind, token, .done e⟩)
        | some _, _ => none
    | _ => none
  | .advance =>
    match s.lock with
    | some (h, x) =>
      match x.next with
      | some y => some { s with service := x.effect s.service, lock := some (h, y) }
      | none => some { s.leave h with lock := none }
    | none => none
  | .finish sid =>
    match s.streams sid with
    | some ⟨kind, token, .done _⟩ => some (s.setStream sid ⟨kind, token, .idle⟩)
    | _ => none

end Tasks

end Credentialsd
