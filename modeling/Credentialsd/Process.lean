import Credentialsd.Handlers
import Credentialsd.DeviceSelection
import Credentialsd.Lib.Broadcast

/-!
# The loop of the USB and the NFC handler and its tasks

`process` (`usb.rs:272-371`, `nfc.rs:168-262`) with the tasks it starts:
`handle_events` (`usb.rs:374-479`, `nfc.rs:265-371`), the relay of the
authenticator's updates (`usb.rs:716-792`, `nfc.rs:590-665`) and, for USB, the
selection of a device. The tasks report to the loop over the signal channel, of
which the loop keeps a sender itself; the loop reports to the consumer of the
stream. The authenticator library, the user and the consumer choose their labels
freely.
-/

namespace Credentialsd

namespace Process

inductive Pending (S : Type) where
  | listing
  | sleeping (next : Except CredentialServiceError S)
  | selecting
  | interacting
  | choosing (response : GetAssertionResponse)
  | emitting
  | done (result : Except CredentialServiceError Unit)
  | panicked
  deriving Repr

def Pending.alive {S : Type} : Pending S → Bool
  | .done _ => false
  | .panicked => false
  | _ => true

/- `run_until_cancelled` may end the wait. -/
def Pending.cancellable {S : Type} : Pending S → Bool
  | .listing => true
  | .sleeping _ => true
  | .selecting => true
  | .interacting => true
  | .choosing _ => true
  | _ => false

def Pending.selects {S : Type} : Pending S → Bool
  | .selecting => true
  | _ => false

/-- Where `handle_events` stands. -/
inductive EventsTask (M : Type) where
  | notSpawned
  | opening
  | operating
  | sending (response : Except CredentialServiceError M)
  | ended
  deriving Repr

def EventsTask.holdsSender {M : Type} : EventsTask M → Bool
  | .opening => true
  | .operating => true
  | .sending _ => true
  | _ => false

/- The channel to the device, which also sends the updates, is open. -/
def EventsTask.channelOpen {M : Type} : EventsTask M → Bool
  | .operating => true
  | .sending _ => true
  | _ => false

def EventsTask.finished {M : Type} : EventsTask M → Bool
  | .notSpawned => true
  | .ended => true
  | _ => false

/-- Where the relay of the updates stands; while it relays and while it awaits a PIN it holds a
sender of the signal channel that it upgraded. -/
inductive UpdatesTask (M : Type) where
  | notSpawned
  | receiving
  | relaying (msg : M) (pinTx : Option ReplyTx)
  | awaitingPin (pinTx : ReplyTx)
  | ended
  deriving Repr

def UpdatesTask.holdsSender {M : Type} : UpdatesTask M → Bool
  | .relaying _ _ => true
  | .awaitingPin _ => true
  | _ => false

def UpdatesTask.finished {M : Type} : UpdatesTask M → Bool
  | .notSpawned => true
  | .ended => true
  | _ => false

def UpdatesTask.relayed {M : Type} : Option ReplyTx → UpdatesTask M
  | some pinTx => .awaitingPin pinTx
  | none => .receiving

end Process

structure Process (S M D : Type) where
  state : S
  pending : Process.Pending S
  failures : Nat
  selection : Selection D
  signals : List (Except CredentialServiceError M)
  creds : List String
  events : Process.EventsTask M
  /-- How often `handle_events` was spawned. -/
  spawned : Nat
  updates : Process.UpdatesTask M
  ux : Broadcast UvUpdate
  nextTx : ReplyTx
  /-- What was sent to the stream, and how much of it the consumer has taken. -/
  sent : List S
  taken : Nat
  cancelled : Bool
  consumer : Bool

namespace Process

inductive Label (F : Type) where
  -- the loop
  | listed (result : Except String F)
  | slept
  | select (l : Selection.Label)
  | selected
  | interact
  | choose
  | emit
  | cancelLoop
  -- `handle_events`
  | opened (ok : Bool)
  | answered (result : Except WebAuthnError AuthenticatorResponse)
  | respond
  | cancelEvents
  -- the relay of the updates
  | recvUpdate
  | relay
  | pin (reply : Option String)
  -- the authenticator, the consumer and the user
  | update (u : UvUpdate)
  | take
  | selectCredential (id : String)
  | cancel
  | dropConsumer
  deriving Repr

/-- The name of the `cred` channel; those of the PIN prompts are larger. -/
def credTx : ReplyTx := 0

def signalCapacity : Nat := 256

def streamCapacity : Nat := 32

variable {S M D F : Type} (h : Handler S M D F) (c : Ceremony)

def init : Process S M D where
  state := h.idle
  pending := .listing
  failures := 0
  selection := .notStarted
  signals := []
  creds := []
  events := .notSpawned
  spawned := 0
  updates := .notSpawned
  ux := .subscribe
  nextTx := credTx + 1
  sent := []
  taken := 0
  cancelled := false
  consumer := true

/-! ### The loop -/

/-- The end of an iteration and the start of the next one. -/
def again (s : Process S M D) : Process S M D :=
  match h.phase s.state with
  | .completed => { s with pending := .done (.ok ()) }
  | .failed err => { s with pending := .done (.error err) }
  | .idleWaiting => { s with pending := .listing }
  -- a channel without capacity panics
  | .selectingDevice [] => { s with pending := .panicked }
  | .selectingDevice (d :: ds) => { s with pending := .selecting, selection := .start (d :: ds) }
  | .connected => { s with pending := .interacting, events := .opening, spawned := s.spawned + 1 }
  | .interaction => { s with pending := .interacting }
  | .selectCredential response => { s with pending := .choosing response }

def enter (s : Process S M D) (st : S) : Process S M D :=
  if h.stateChanged st s.state then { s with state := st, pending := .emitting }
  else again h { s with state := st }

/-- What the loop does with the next state. -/
def settle (s : Process S M D) : Except CredentialServiceError S → Process S M D
  | .error .requestCancelled => { s with pending := .done (.ok ()) }
  | .error err => enter h s (h.failed err)
  | .ok st => enter h s st

def listed (s : Process S M D) (result : Except String F) : Option (Process S M D) :=
  match s.pending with
  | .listing =>
    let r := h.processIdleWaiting s.failures s.state result
    if r.sleeps then some { s with failures := r.failures, pending := .sleeping r.next }
    else some (settle h { s with failures := r.failures } r.next)
  | _ => none

def slept (s : Process S M D) : Option (Process S M D) :=
  match s.pending with
  | .sleeping next => some (settle h s next)
  | _ => none

/-- The function itself moves only while the loop awaits it; its tasks go on after that. -/
def selectEnabled (s : Process S M D) : Selection.Label → Bool
  | .collect => s.pending.selects
  | .receive => s.pending.selects
  | .stop _ => s.pending.selects
  | .cancel => s.pending.selects && s.cancelled
  | _ => true

def select (s : Process S M D) (l : Selection.Label) : Option (Process S M D) :=
  if s.selectEnabled l then
    (s.selection.step l).map fun sel =>
      if sel.loop.hasPanicked then { s with selection := sel, pending := .panicked }
      else { s with selection := sel }
  else none

def ofOutcome : Selection.Outcome D → Except CredentialServiceError S
  | .idle => .ok h.idle
  | .selected device => .ok (h.connected device)
  | .cancelled => .error .requestCancelled

def selected (s : Process S M D) : Option (Process S M D) :=
  match s.pending with
  | .selecting => s.selection.result.map fun outcome =>
      settle h { s with selection := s.selection.leave } (ofOutcome h outcome)
  | _ => none

/-- `signal_rx.recv()`, which never finds the channel closed: the loop holds a sender. -/
def interact (s : Process S M D) : Option (Process S M D) :=
  match s.pending, s.signals with
  | .interacting, msg :: rest =>
    some (settle h { s with signals := rest } (h.processUserInteraction credTx (some msg)))
  | _, _ => none

/-- `cred_rx.recv()`; the loop holds a sender here too. -/
def choose (s : Process S M D) : Option (Process S M D) :=
  match s.pending, s.creds with
  | .choosing response, id :: rest =>
    some (settle h { s with creds := rest } (h.processSelectCredential response (some id)))
  | _, _ => none

def emit (s : Process S M D) : Option (Process S M D) :=
  match s.pending with
  | .emitting =>
    if s.consumer then
      if s.sent.length < s.taken + streamCapacity then
        some (again h { s with sent := s.sent ++ [s.state] })
      else none
    else some { s with pending := .done (.error (.internal h.streamClosed)) }
  | _ => none

/-- `run_until_cancelled` drops what the loop awaits, if that is pending. -/
def cancelLoop (s : Process S M D) : Option (Process S M D) :=
  if s.cancelled && s.pending.cancellable && (!s.pending.selects || s.selection.suspended) then
    some { s with pending := .done (.ok ()), selection := s.selection.leave }
  else none

/-! ### `handle_events` -/

def opened (s : Process S M D) (ok : Bool) : Option (Process S M D) :=
  match s.events with
  | .opening =>
    if ok then some { s with events := .operating, updates := .receiving, ux := .subscribe }
    else some { s with events := .ended }
  | _ => none

def answered (s : Process S M D) (result : Except WebAuthnError AuthenticatorResponse) :
    Option (Process S M D) :=
  match s.events with
  | .operating =>
    if c.admits result then
      if c.retries result then some s
      else match result with
        | .ok r => some { s with events := .sending (.ok (h.receivedCredentials r)) }
        | .error err => some { s with events := .sending (.error err.toServiceError) }
    else none
  | _ => none

def respond (s : Process S M D) : Option (Process S M D) :=
  match s.events with
  | .sending response =>
    if s.pending.alive then
      if s.signals.length < signalCapacity then
        some { s with events := .ended, signals := s.signals ++ [response] }
      else none
    else some { s with events := .ended }
  | _ => none

def cancelEvents (s : Process S M D) : Option (Process S M D) :=
  match s.events with
  | .operating =>
    if s.cancelled then some { s with events := .sending (.error .requestCancelled) } else none
  | _ => none

/-! ### The relay of the updates -/

def upgrades (s : Process S M D) : Bool := s.pending.alive || s.events.holdsSender

def handleUpdate (s : Process S M D) (u : UvUpdate) : Process S M D :=
  match h.handleUpdate s.nextTx u with
  | some msg =>
    { s with
      nextTx := s.nextTx + 1
      updates := .relaying msg (if u.asksPin then some s.nextTx else none) }
  | none => s

def recvUpdate (s : Process S M D) : Option (Process S M D) :=
  match s.updates with
  | .receiving =>
    (s.ux.recv (!s.events.channelOpen)).map fun r =>
      match r with
      | (.ok u, ux) =>
        if s.upgrades then handleUpdate h { s with ux := ux } u
        else { s with ux := ux, updates := .ended }
      | (.error _, ux) => { s with ux := ux, updates := .ended }
  | _ => none

def relay (s : Process S M D) : Option (Process S M D) :=
  match s.updates with
  | .relaying msg pinTx =>
    if s.pending.alive then
      if s.signals.length < signalCapacity then
        some { s with updates := .relayed pinTx, signals := s.signals ++ [.ok msg] }
      else none
    else some { s with updates := .relayed pinTx }
  | _ => none

/-- The loop, its signal channel or the stream holds a sender of the prompt. -/
def holdsPrompt (s : Process S M D) (pinTx : ReplyTx) : Bool :=
  (s.pending.alive && (h.replyTx s.state == some pinTx ||
    s.signals.any fun x => match x with
      | .ok msg => h.msgTx msg == some pinTx
      | .error _ => false)) ||
  (s.consumer && (s.sent.drop s.taken).any fun st => h.replyTx st == some pinTx)

/-- `pin_rx.recv()`: a reply to a prompt that the consumer has, or every sender is dropped. -/
def pin (s : Process S M D) (reply : Option String) : Option (Process S M D) :=
  match s.updates with
  | .awaitingPin pinTx =>
    if reply.isSome then
      if (s.sent.take s.taken).any fun st => h.replyTx st == some pinTx then
        some { s with updates := .receiving }
      else none
    else if holdsPrompt h s pinTx then none
    else some { s with updates := .receiving }
  | _ => none

/-! ### The authenticator, the consumer and the user -/

def update (s : Process S M D) (u : UvUpdate) : Option (Process S M D) :=
  if s.events.channelOpen then some { s with ux := s.ux.send c.uxCapacity u } else none

def take (s : Process S M D) : Option (Process S M D) :=
  if s.consumer && s.taken < s.sent.length then some { s with taken := s.taken + 1 } else none

def selectCredential (s : Process S M D) (id : String) : Option (Process S M D) :=
  if (s.sent.take s.taken).any fun st => h.replyTx st == some credTx then
    if s.pending.alive && s.creds.isEmpty then some { s with creds := [id] } else none
  else none

def step (s : Process S M D) : Label F → Option (Process S M D)
  | .listed result => listed h s result
  | .slept => slept h s
  | .select l => select s l
  | .selected => selected h s
  | .interact => interact h s
  | .choose => choose h s
  | .emit => emit h s
  | .cancelLoop => cancelLoop s
  | .opened ok => opened s ok
  | .answered result => answered h c s result
  | .respond => respond s
  | .cancelEvents => cancelEvents s
  | .recvUpdate => recvUpdate h s
  | .relay => relay s
  | .pin reply => pin h s reply
  | .update u => update c s u
  | .take => take s
  | .selectCredential id => selectCredential h s id
  | .cancel => some { s with cancelled := true }
  | .dropConsumer => some { s with consumer := false }

/-! ### What the tasks beside the loop leave alone -/

/-- The steps of the loop itself; those of its selection of a device are among them. -/
def Label.isLoop : Label F → Bool
  | .listed _ => true
  | .slept => true
  | .select _ => true
  | .selected => true
  | .interact => true
  | .choose => true
  | .emit => true
  | .cancelLoop => true
  | _ => false

structure SameLoop (s t : Process S M D) : Prop where
  state : t.state = s.state
  pending : t.pending = s.pending
  selection : t.selection = s.selection
  spawned : t.spawned = s.spawned
  sent : t.sent = s.sent

theorem handleUpdate_same (s : Process S M D) (u : UvUpdate) :
    SameLoop s (handleUpdate h s u) ∧ (handleUpdate h s u).cancelled = s.cancelled := by
  unfold handleUpdate
  split <;> exact ⟨⟨rfl, rfl, rfl, rfl, rfl⟩, rfl⟩

/-- A step beside the loop, which takes no cancellation back. -/
theorem step_beside {s t : Process S M D} {l : Label F} (hl : l.isLoop = false)
    (hstep : step h c s l = some t) :
    SameLoop s t ∧ (t.cancelled = false → s.cancelled = false) := by
  cases l with
  | listed result => cases hl
  | slept => cases hl
  | select l => cases hl
  | selected => cases hl
  | interact => cases hl
  | choose => cases hl
  | emit => cases hl
  | cancelLoop => cases hl
  | opened ok =>
    simp only [step, opened] at hstep
    split at hstep
    · split at hstep <;> cases hstep <;> exact ⟨⟨rfl, rfl, rfl, rfl, rfl⟩, id⟩
    · cases hstep
  | answered result =>
    simp only [step, answered] at hstep
    split at hstep
    · split at hstep
      · split at hstep
        · cases hstep
          exact ⟨⟨rfl, rfl, rfl, rfl, rfl⟩, id⟩
        · split at hstep <;> cases hstep <;> exact ⟨⟨rfl, rfl, rfl, rfl, rfl⟩, id⟩
      · cases hstep
    · cases hstep
  | respond =>
    simp only [step, respond] at hstep
    split at hstep
    · split at hstep
      · split at hstep <;> cases hstep
        exact ⟨⟨rfl, rfl, rfl, rfl, rfl⟩, id⟩
      · cases hstep
        exact ⟨⟨rfl, rfl, rfl, rfl, rfl⟩, id⟩
    · cases hstep
  | cancelEvents =>
    simp only [step, cancelEvents] at hstep
    split at hstep
    · split at hstep <;> cases hstep
      exact ⟨⟨rfl, rfl, rfl, rfl, rfl⟩, id⟩
    · cases hstep
  | recvUpdate =>
    simp only [step, recvUpdate] at hstep
    split at hstep
    · obtain ⟨r, -, rfl⟩ := Option.map_eq_some_iff.mp hstep
      split
      · split
        · obtain ⟨⟨hstate, hpending, hselection, hspawned, hsent⟩, hcancelled⟩ :=
            handleUpdate_same h { s with ux := _ } _
          exact ⟨⟨hstate, hpending, hselection, hspawned, hsent⟩, hcancelled.symm.trans⟩
        · exact ⟨⟨rfl, rfl, rfl, rfl, rfl⟩, id⟩
      · exact ⟨⟨rfl, rfl, rfl, rfl, rfl⟩, id⟩
    · cases hstep
  | relay =>
    simp only [step, relay] at hstep
    split at hstep
    · split at hstep
      · split at hstep <;> cases hstep
        exact ⟨⟨rfl, rfl, rfl, rfl, rfl⟩, id⟩
      · cases hstep
        exact ⟨⟨rfl, rfl, rfl, rfl, rfl⟩, id⟩
    · cases hstep
  | pin reply =>
    simp only [step, pin] at hstep
    split at hstep
    · split at hstep
      · split at hstep <;> cases hstep
        exact ⟨⟨rfl, rfl, rfl, rfl, rfl⟩, id⟩
      · split at hstep <;> cases hstep
        exact ⟨⟨rfl, rfl, rfl, rfl, rfl⟩, id⟩
    · cases hstep
  | update u =>
    simp only [step, update] at hstep
    split at hstep <;> cases hstep
    exact ⟨⟨rfl, rfl, rfl, rfl, rfl⟩, id⟩
  | take =>
    simp only [step, take] at hstep
    split at hstep <;> cases hstep
    exact ⟨⟨rfl, rfl, rfl, rfl, rfl⟩, id⟩
  | selectCredential credId =>
    simp only [step, selectCredential] at hstep
    split at hstep
    · split at hstep <;> cases hstep
      exact ⟨⟨rfl, rfl, rfl, rfl, rfl⟩, id⟩
    · cases hstep
  | cancel =>
    cases hstep
    exact ⟨⟨rfl, rfl, rfl, rfl, rfl⟩, nofun⟩
  | dropConsumer =>
    cases hstep
    exact ⟨⟨rfl, rfl, rfl, rfl, rfl⟩, id⟩

theorem step_same {s t : Process S M D} {l : Label F} (hl : l.isLoop = false)
    (hstep : step h c s l = some t) : SameLoop s t :=
  (step_beside h c hl hstep).1

/-! ### What the loop does -/

/-- The selection goes on as it does by itself, since it does not panic. -/
theorem select_goes {s t : Process S M D} {l : Selection.Label} (hi : s.selection.Inv)
    (hstep : select s l = some t) :
    ∃ sel, s.selectEnabled l = true ∧ s.selection.step l = some sel ∧ sel.Inv ∧
      t = { s with selection := sel } := by
  unfold select at hstep
  split at hstep
  · rename_i henabled
    obtain ⟨sel, hsel, rfl⟩ := Option.map_eq_some_iff.mp hstep
    have hinv := Selection.step_inv hsel hi
    have hno := hinv.noPanic
    have hgoes : sel.loop.hasPanicked = false := by
      unfold Selection.Loop.hasPanicked
      split
      · rename_i hp
        exact absurd hp hno
      · rfl
    rw [hgoes]
    exact ⟨sel, henabled, hsel, hinv, rfl⟩
  · cases hstep

/-- All that a step of the loop can come to. -/
inductive LoopMove (s : Process S M D) : Label F → Process S M D → Prop where
  | sleeps {result : Except String F} (hp : s.pending = .listing) :
      LoopMove s (.listed result)
        { s with
          failures := (h.processIdleWaiting s.failures s.state result).failures
          pending := .sleeping (h.processIdleWaiting s.failures s.state result).next }
  | listed {result : Except String F} (hp : s.pending = .listing) :
      LoopMove s (.listed result)
        (settle h { s with failures := (h.processIdleWaiting s.failures s.state result).failures }
          (h.processIdleWaiting s.failures s.state result).next)
  | slept {next : Except CredentialServiceError S} (hp : s.pending = .sleeping next) :
      LoopMove s .slept (settle h s next)
  | select {l : Selection.Label} {t : Process S M D} (hselect : select s l = some t) :
      LoopMove s (.select l) t
  | selected {outcome : Selection.Outcome D} (hp : s.pending = .selecting)
      (hresult : s.selection.result = some outcome) :
      LoopMove s .selected
        (settle h { s with selection := s.selection.leave } (ofOutcome h outcome))
  | interact {msg : Except CredentialServiceError M}
      {rest : List (Except CredentialServiceError M)} (hp : s.pending = .interacting)
      (hsignals : s.signals = msg :: rest) :
      LoopMove s .interact
        (settle h { s with signals := rest } (h.processUserInteraction credTx (some msg)))
  | choose {response : GetAssertionResponse} {id : String} {rest : List String}
      (hp : s.pending = .choosing response) (hcreds : s.creds = id :: rest) :
      LoopMove s .choose
        (settle h { s with creds := rest } (h.processSelectCredential response (some id)))
  | emitted (hp : s.pending = .emitting) (hconsumer : s.consumer = true) :
      LoopMove s .emit (again h { s with sent := s.sent ++ [s.state] })
  | closed (hp : s.pending = .emitting) (hconsumer : ¬ s.consumer = true) :
      LoopMove s .emit { s with pending := .done (.error (.internal h.streamClosed)) }
  | cancelled {t : Process S M D} (hcancel : cancelLoop s = some t) : LoopMove s .cancelLoop t

theorem loop_moves {s t : Process S M D} {l : Label F} (hl : l.isLoop = true)
    (hstep : step h c s l = some t) : LoopMove h s l t := by
  cases l with
  | listed result =>
    simp only [step, Process.listed] at hstep
    split at hstep
    · rename_i hp
      split at hstep
      · cases hstep
        exact .sleeps hp
      · cases hstep
        exact .listed hp
    · cases hstep
  | slept =>
    simp only [step, Process.slept] at hstep
    split at hstep
    · rename_i next hp
      cases hstep
      exact .slept hp
    · cases hstep
  | select l => exact .select hstep
  | selected =>
    simp only [step, Process.selected] at hstep
    split at hstep
    · rename_i hp
      obtain ⟨outcome, hresult, rfl⟩ := Option.map_eq_some_iff.mp hstep
      exact .selected hp hresult
    · cases hstep
  | interact =>
    simp only [step, Process.interact] at hstep
    split at hstep
    · rename_i hp hsignals
      cases hstep
      exact .interact hp hsignals
    · cases hstep
  | choose =>
    simp only [step, Process.choose] at hstep
    split at hstep
    · rename_i hp hcreds
      cases hstep
      exact .choose hp hcreds
    · cases hstep
  | emit =>
    simp only [step, Process.emit] at hstep
    split at hstep
    · rename_i hp
      split at hstep
      · rename_i hconsumer
        split at hstep <;> cases hstep
        exact .emitted hp hconsumer
      · rename_i hconsumer
        cases hstep
        exact .closed hp hconsumer
    · cases hstep
  | cancelLoop => exact .cancelled hstep
  | _ => cases hl

end Process

end Credentialsd
