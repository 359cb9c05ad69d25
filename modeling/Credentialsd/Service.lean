import Mathlib.Logic.Function.Basic
import Credentialsd.Lib.Oneshot
import Credentialsd.States

/-!
# The credential service (`credential_service/mod.rs`)

The shared slot `ctx` of the request in progress, with the cancellation token
and the response channel of every request, and the operations on it:
`init_request`, `cancel_request`, `complete_request`, and the `poll_next` of the
three transport streams. Every function below is one call run without
interruption; `ServiceTasks` splits the calls at the points where other tasks
can run.
-/

namespace Credentialsd

/-- A `RequestContext`; the numbers name its oneshot channel and its `CancellationToken`, whose
clones share the name. -/
structure RequestContext where
  request : CredentialRequest
  responseChannel : Nat
  requestId : RequestId
  cancellation : Nat
  deriving Repr, DecidableEq

/-- The slot, and the tokens and channels it shares with the other tasks. Tokens are named in the
order in which `init_request` makes them; `accepted` is the history of the contexts it stored. -/
structure Service where
  ctx : Option RequestContext
  cancelled : Nat → Bool
  channels : Nat → Oneshot Response
  accepted : List RequestContext

namespace Service

def new : Service := ⟨none, fun _ => false, fun _ => .fresh, []⟩

def setCtx (s : Service) (ctx : Option RequestContext) : Service := { s with ctx := ctx }

/- `CancellationToken::cancel`. -/
def cancel (s : Service) (t : Nat) : Service :=
  { s with cancelled := Function.update s.cancelled t true }

/- `oneshot::Sender::send`. -/
def send (s : Service) (tx : Nat) (r : Response) : Service :=
  { s with channels := Function.update s.channels tx ((s.channels tx).send r) }

def dropSender (s : Service) (tx : Nat) : Service :=
  { s with channels := Function.update s.channels tx (s.channels tx).drop }

section fields

variable (s : Service) (ctx : Option RequestContext) (t : Nat) (tx : Nat) (r : Response)

@[simp] theorem setCtx_ctx : (s.setCtx ctx).ctx = ctx := rfl
@[simp] theorem setCtx_cancelled : (s.setCtx ctx).cancelled = s.cancelled := rfl
@[simp] theorem setCtx_channels : (s.setCtx ctx).channels = s.channels := rfl
@[simp] theorem setCtx_accepted : (s.setCtx ctx).accepted = s.accepted := rfl
@[simp] theorem cancel_ctx : (s.cancel t).ctx = s.ctx := rfl
@[simp] theorem cancel_channels : (s.cancel t).channels = s.channels := rfl
@[simp] theorem cancel_accepted : (s.cancel t).accepted = s.accepted := rfl
@[simp] theorem send_ctx : (s.send tx r).ctx = s.ctx := rfl
@[simp] theorem send_cancelled : (s.send tx r).cancelled = s.cancelled := rfl
@[simp] theorem send_accepted : (s.send tx r).accepted = s.accepted := rfl
@[simp] theorem dropSender_ctx : (s.dropSender tx).ctx = s.ctx := rfl
@[simp] theorem dropSender_cancelled : (s.dropSender tx).cancelled = s.cancelled := rfl
@[simp] theorem dropSender_accepted : (s.dropSender tx).accepted = s.accepted := rfl

@[simp] theorem cancel_self : (s.cancel t).cancelled t = true := by
  simp only [cancel, Function.update_self]

theorem cancel_other {t u : Nat} (h : u ≠ t) : (s.cancel t).cancelled u = s.cancelled u := by
  simp only [cancel, Function.update_of_ne h]

@[simp] theorem send_self : (s.send tx r).channels tx = (s.channels tx).send r := by
  simp only [send, Function.update_self]

theorem send_other {tx ty : Nat} (h : ty ≠ tx) : (s.send tx r).channels ty = s.channels ty := by
  simp only [send, Function.update_of_ne h]

theorem dropSender_other {tx ty : Nat} (h : ty ≠ tx) :
    (s.dropSender tx).channels ty = s.channels ty := by
  simp only [dropSender, Function.update_of_ne h]

end fields

/-- `init_request` (`mod.rs:269-294`). `requestId` is the random id and `tx` the sender it is
given, which is dropped when the request is refused. -/
def initRequest (s : Service) (request : CredentialRequest) (tx : Nat) (requestId : RequestId) :
    Except CredentialServiceError (RequestId × Nat) × Service :=
  match s.ctx with
  | some _ => (.error (.internal "Already a request in progress."), s.dropSender tx)
  | none =>
    let cancellation := s.accepted.length
    let ctx : RequestContext := ⟨request, tx, requestId, cancellation⟩
    (.ok (requestId, cancellation), { s with ctx := some ctx, accepted := s.accepted ++ [ctx] })

/-- `Option::take_if`: what is taken, and what is left behind. -/
def takeIf {α : Type} (p : α → Bool) : Option α → Option α × Option α
  | some a => if p a then (some a, none) else (none, some a)
  | none => (none, none)

def cancelResponse (requestId : RequestId) : Response :=
  .error (.internal ("Cancelled request " ++ toString requestId ++ "."))

/- What `cancel_request` and `complete_request` do with a context they took. -/
def release (s : Service) (c : RequestContext) (r : Response) : Service :=
  (s.cancel c.cancellation).send c.responseChannel r

/-- `cancel_request` (`mod.rs:296-312`). -/
def cancelRequest (s : Service) (requestId : RequestId) : Service :=
  match takeIf (fun c => c.requestId == requestId) s.ctx with
  | (some c, ctx) =>
    if requestId == c.requestId then (s.setCtx ctx).release c (cancelResponse requestId)
    else (s.setCtx ctx).dropSender c.responseChannel
  | (none, ctx) => s.setCtx ctx

/-- `complete_request` (`mod.rs:546-559`): it takes whatever context is in the slot. -/
def completeRequest (s : Service) (response : Response) : Service :=
  match s.ctx with
  | some c => (s.setCtx none).release c response
  | none => s

/-- The slot as `get_usb_credential`, `get_hybrid_credential` and `_get_nfc_credential` read it
(`mod.rs:181-262`): they start a stream for the context they find and panic without one. -/
def getCredential (s : Service) : Except Panic RequestContext :=
  match s.ctx with
  | some c => .ok c
  | none => .error (.todo "Handle error when context is not set up.")

end Service

/-! ### Terminal states of the handlers -/

/-- The response with which `poll_next` calls `complete_request`, if it does. The cancellation of
the request itself is not one: whoever cancelled has answered already. -/
def CredentialServiceError.completion : CredentialServiceError → Option Response
  | .requestCancelled => none
  | err => some (.error err)

def UsbStateInternal.completion : UsbStateInternal → Option Response
  | .completed response => some (.ok response)
  | .failed err => err.completion
  | _ => none

def NfcStateInternal.completion : NfcStateInternal → Option Response
  | .completed response => some (.ok response)
  | .failed err => err.completion
  | _ => none

def HybridStateInternal.completion : HybridStateInternal → Option Response
  | .completed response => some (.ok response)
  | .failed err => err.completion
  | _ => none

/-! ### The three streams -/

/- What `self.inner.next()` gives when it is polled. -/
inductive Inner (σ : Type) where
  | pending
  | ended
  | item (state : σ)
  deriving Repr, DecidableEq

inductive Poll (τ : Type) where
  | pending
  | ended
  | item (state : τ)
  | panicked (p : Panic)
  deriving Repr, DecidableEq

namespace Poll

def ofConversion {τ : Type} : Except Panic τ → Poll τ
  | .ok state => .item state
  | .error p => .panicked p

def map {τ υ : Type} (g : τ → υ) : Poll τ → Poll υ
  | .pending => .pending
  | .ended => .ended
  | .item state => .item (g state)
  | .panicked p => .panicked p

theorem ofConversion_map {τ υ : Type} (g : τ → υ) (x : Except Panic τ) :
    ofConversion (x.map g) = (ofConversion x).map g := by
  cases x <;> rfl

end Poll

def Inner.map {σ τ : Type} (f : σ → τ) : Inner σ → Inner τ
  | .pending => .pending
  | .ended => .ended
  | .item state => .item (f state)

/-- The common body of the three `poll_next`; `token` is the stream's own token. -/
def pollNext {σ τ : Type} (completion : σ → Option Response) (convert : σ → Except Panic τ)
    (s : Service) (token : Nat) : Inner σ → Service × Poll τ
  | .pending => (s, .pending)
  | .ended => (s, .ended)
  | .item state =>
    if s.cancelled token then (s, .ended)
    else
      let s' := match completion state with
        | some response => s.completeRequest response
        | none => s
      (s', .ofConversion (convert state))

section pollNext

variable {σ τ : Type} {completion : σ → Option Response} (convert : σ → Except Panic τ)
  {s : Service} {token : Nat} {x : σ}

theorem pollNext_cancelled (h : s.cancelled token = true) :
    pollNext completion convert s token (.item x) = (s, .ended) := by
  simp only [pollNext, h, if_true]

theorem pollNext_silent (h : s.cancelled token = false) (hx : completion x = none) :
    pollNext completion convert s token (.item x) = (s, .ofConversion (convert x)) := by
  simp only [pollNext, h, hx, Bool.false_eq_true, if_false]

theorem pollNext_terminal {response : Response} (h : s.cancelled token = false)
    (hx : completion x = some response) :
    pollNext completion convert s token (.item x) =
      (s.completeRequest response, .ofConversion (convert x)) := by
  simp only [pollNext, h, hx, Bool.false_eq_true, if_false]

end pollNext

/-- Polling a stream whose states are relabelled, before and after, is polling the stream itself. -/
theorem pollNext_map {σ σ' τ τ' : Type} {completion : σ → Option Response}
    {convert : σ → Except Panic τ} {completion' : σ' → Option Response}
    {convert' : σ' → Except Panic τ'} (f : σ → σ') (g : τ → τ')
    (hcompletion : ∀ x, completion' (f x) = completion x)
    (hconvert : ∀ x, convert' (f x) = (convert x).map g)
    (s : Service) (token : Nat) (inner : Inner σ) :
    pollNext completion' convert' s token (inner.map f) =
      ((pollNext completion convert s token inner).1,
        (pollNext completion convert s token inner).2.map g) := by
  cases inner with
  | pending => rfl
  | ended => rfl
  | item state =>
    simp only [Inner.map, pollNext, hcompletion, hconvert, Poll.ofConversion_map]
    split <;> rfl

/- `HybridStateStream::poll_next` (`mod.rs:390-420`). -/
def hybridPollNext (s : Service) (token : Nat) (inner : Inner HybridStateInternal) :
    Service × Poll HybridState :=
  pollNext HybridStateInternal.completion (fun state => .ok state.toPublic) s token inner

/- `UsbStateStream::poll_next` (`mod.rs:434-464`). -/
def usbPollNext (credHash : Bytes → String) (s : Service) (token : Nat)
    (inner : Inner UsbStateInternal) : Service × Poll UsbState :=
  pollNext UsbStateInternal.completion (·.toPublic credHash) s token inner

/- `NfcStateStream::poll_next` (`mod.rs:479-510`). -/
def nfcPollNext (credHash : Bytes → String) (s : Service) (token : Nat)
    (inner : Inner NfcStateInternal) : Service × Poll NfcState :=
  pollNext NfcStateInternal.completion (·.toPublic credHash) s token inner

inductive HandlerEvent where
  | hybrid (state : HybridStateInternal)
  | nfc (state : NfcStateInternal)
  | usb (state : UsbStateInternal)
  deriving Repr, DecidableEq

inductive StreamKind where
  | hybrid
  | nfc
  | usb
  deriving Repr, DecidableEq

namespace HandlerEvent

def kind : HandlerEvent → StreamKind
  | .hybrid _ => .hybrid
  | .nfc _ => .nfc
  | .usb _ => .usb

def completion : HandlerEvent → Option Response
  | .hybrid state => state.completion
  | .nfc state => state.completion
  | .usb state => state.completion

def toUpdate (credHash : Bytes → String) : HandlerEvent → Except Panic DeviceStateUpdate
  | .hybrid state => .ok (.hybrid state.toPublic)
  | .nfc state => (state.toPublic credHash).map .nfc
  | .usb state => (state.toPublic credHash).map .usb

end HandlerEvent

/- `poll_next` of any of the three streams, mapped into `DeviceStateUpdate`. -/
def statePollNext (credHash : Bytes → String) (s : Service) (token : Nat)
    (inner : Inner HandlerEvent) : Service × Poll DeviceStateUpdate :=
  pollNext HandlerEvent.completion (·.toUpdate credHash) s token inner

theorem statePollNext_hybrid (credHash : Bytes → String) (s : Service) (token : Nat)
    (inner : Inner HybridStateInternal) :
    statePollNext credHash s token (inner.map .hybrid) =
      ((hybridPollNext s token inner).1, (hybridPollNext s token inner).2.map .hybrid) := by
  unfold statePollNext hybridPollNext
  exact pollNext_map HandlerEvent.hybrid DeviceStateUpdate.hybrid (fun _ => rfl) (fun _ => rfl) s
    token
    inner

theorem statePollNext_nfc (credHash : Bytes → String) (s : Service) (token : Nat)
    (inner : Inner NfcStateInternal) :
    statePollNext credHash s token (inner.map .nfc) =
      ((nfcPollNext credHash s token inner).1,
        (nfcPollNext credHash s token inner).2.map .nfc) := by
  unfold statePollNext nfcPollNext
  exact pollNext_map HandlerEvent.nfc DeviceStateUpdate.nfc (fun _ => rfl) (fun _ => rfl) s token
    inner

theorem statePollNext_usb (credHash : Bytes → String) (s : Service) (token : Nat)
    (inner : Inner UsbStateInternal) :
    statePollNext credHash s token (inner.map .usb) =
      ((usbPollNext credHash s token inner).1,
        (usbPollNext credHash s token inner).2.map .usb) := by
  unfold statePollNext usbPollNext
  exact pollNext_map HandlerEvent.usb DeviceStateUpdate.usb (fun _ => rfl) (fun _ => rfl) s token
    inner

end Credentialsd
