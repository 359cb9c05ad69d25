import Credentialsd.FlowInvariant
import Mathlib.Logic.Relation

/-!
# The UI event loop by itself (`dbus/flow_control.rs:142-288`)

The three slots of a UI event loop, the prompts whose senders they keep, and the
moves of a loop whose service takes as long as it likes. Every loop of the daemon
makes only such moves.
-/

namespace Credentialsd
open Machine

/-- The kinds of prompts, each with its slot and its event. -/
inductive PromptKind where
  | clientPin
  | setPin
  | credential
  deriving Repr, DecidableEq

def UiLoop.slot (lp : UiLoop) : PromptKind → Option ReplyTx
  | .clientPin => lp.clientPinTx
  | .setPin => lp.setPinTx
  | .credential => lp.credSelectorTx

/-- The value of an event, `none` if its secret cannot be read. -/
def UserInteractedEvent.value : UserInteractedEvent → Option (PromptKind × Option Reply)
  | .clientPinEntered secret => some (.clientPin, (readPin secret).map .pin)
  | .setDevicePin secret => some (.setPin, (readPin secret).map .pin)
  | .credentialSelected id => some (.credential, some (.credential id))
  | _ => none

namespace DeviceStateUpdate

/-- The kind of the prompt that an update is, and its channel. -/
def prompt : DeviceStateUpdate → Option (PromptKind × ReplyTx)
  | .nfc (.needsPin _ pinTx) => some (.clientPin, pinTx)
  | .usb (.needsPin _ pinTx) => some (.clientPin, pinTx)
  | .nfc (.pinNotSet _ pinTx) => some (.setPin, pinTx)
  | .usb (.pinNotSet _ pinTx) => some (.setPin, pinTx)
  | .nfc (.selectingCredential _ credTx) => some (.credential, credTx)
  | .usb (.selectingCredential _ credTx) => some (.credential, credTx)
  | _ => none

/-- The arms of the closure of `handle`. -/
def registered : DeviceStateUpdate → Option (PromptKind × ReplyTx)
  | .nfc (.needsPin _ pinTx) => some (.clientPin, pinTx)
  | .usb (.needsPin _ pinTx) => some (.clientPin, pinTx)
  | .nfc (.pinNotSet _ pinTx) => some (.setPin, pinTx)
  | .usb (.pinNotSet _ pinTx) => some (.setPin, pinTx)
  | .usb (.selectingCredential _ credTx) => some (.credential, credTx)
  | _ => none

/- The same update with another channel, if it carries one. -/
def withTx (tx : ReplyTx) : DeviceStateUpdate → DeviceStateUpdate
  | .nfc (.needsPin attemptsLeft _) => .nfc (.needsPin attemptsLeft tx)
  | .usb (.needsPin attemptsLeft _) => .usb (.needsPin attemptsLeft tx)
  | .nfc (.pinNotSet reason _) => .nfc (.pinNotSet reason tx)
  | .usb (.pinNotSet reason _) => .usb (.pinNotSet reason tx)
  | .nfc (.selectingCredential creds _) => .nfc (.selectingCredential creds tx)
  | .usb (.selectingCredential creds _) => .usb (.selectingCredential creds tx)
  | u => u

theorem registered_withTx (u : DeviceStateUpdate) (tx : ReplyTx) :
    (u.withTx tx).registered = u.registered.map fun p => (p.1, tx) := by
  rcases u with s | s | s <;> cases s <;> rfl

end DeviceStateUpdate

/-! ### The UI event loop -/

namespace LoopPc

def discovers : LoopPc → Bool
  | .lockingDiscovery => true
  | .transports => true
  | .startingUsb _ => true
  | .startingHybrid _ => true
  | .forwarding _ => true
  | _ => false

def cancels : LoopPc → Bool
  | .lockingCancel => true
  | .cancelling => true
  | .releasing => true
  | _ => false

def isStopped : LoopPc → Bool
  | .stopped _ => true
  | _ => false

end LoopPc

namespace UiLoop

/-- What a UI event loop does by itself; the service decides how long `start_discovery` and
`cancel_request` take. -/
inductive Move where
  | event (e : UserInteractedEvent)
  | close
  | receive
  | discovery (pc : LoopPc)
  | cancellation (pc : LoopPc)
  | replied (sent : Bool)
  | drop
  deriving Repr, DecidableEq

def step (lp : UiLoop) : Move → Option UiLoop
  | .event e =>
    if lp.inbox.length < 32 && !lp.closed then some { lp with inbox := lp.inbox ++ [e] } else none
  | .close => some { lp with closed := true }
  | .receive => lp.receive
  | .discovery pc =>
    if lp.pc.discovers && (pc.discovers || pc == .receiving || pc == .stopped .panicked) then
      some { lp with pc := pc }
    else none
  | .cancellation pc =>
    if lp.pc.cancels &&
        (pc.cancels || pc == .stopped .requestCancelled || pc == .stopped .panicked) then
      some { lp with pc := pc }
    else none
  | .replied _ =>
    match lp.pc with
    | .replying _ _ => some { lp with pc := .receiving }
    | _ => none
  | .drop => if lp.pc.isStopped then none else some { lp with pc := .stopped .tokenCancelled }

theorem register_slot (lp : UiLoop) (u : DeviceStateUpdate) (kind : PromptKind) :
    (lp.register u).slot kind =
      match u.registered with
      | some (kind', tx) => if kind = kind' then some tx else lp.slot kind
      | none => lp.slot kind := by
  rcases u with s | s | s <;> cases s <;> first | rfl | (cases kind <;> rfl)

theorem replyTo_slot (lp : UiLoop) (tx : Option ReplyTx) (reply : Reply) (kind : PromptKind) :
    (lp.replyTo tx reply).slot kind = lp.slot kind := by
  cases tx <;> cases kind <;> rfl

theorem replyTo_pc (lp : UiLoop) (tx : Option ReplyTx) (reply : Reply) :
    (lp.replyTo tx reply).pc =
      match tx with
      | some tx => .replying tx reply
      | none => .receiving := by
  cases tx <;> rfl

/-- What an event does to the slots, and where the loop goes. -/
theorem handleEvent_cases (lp : UiLoop) (e : UserInteractedEvent) :
    (e.value = none ∧ (∀ kind, (lp.handleEvent e).slot kind = lp.slot kind) ∧
        ∀ tx reply, (lp.handleEvent e).pc ≠ .replying tx reply) ∨
      (∃ kind, e.value = some (kind, none) ∧
        (∀ kind, (lp.handleEvent e).slot kind = lp.slot kind) ∧
        (lp.handleEvent e).pc = .stopped .unreadableSecret) ∨
      ∃ kind reply, e.value = some (kind, some reply) ∧
        (∀ kind', (lp.handleEvent e).slot kind' = if kind' = kind then none else lp.slot kind') ∧
        (lp.handleEvent e).pc =
          match lp.slot kind with
          | some tx => .replying tx reply
          | none => .receiving := by
  cases e with
  | discoveryRequested =>
    exact Or.inl ⟨rfl, fun kind => by cases kind <;> rfl, fun tx reply h => by cases h⟩
  | requestCancelled =>
    exact Or.inl ⟨rfl, fun kind => by cases kind <;> rfl, fun tx reply h => by cases h⟩
  | credentialSelected id =>
    refine Or.inr (Or.inr ⟨.credential, .credential id, rfl, fun kind => ?_, replyTo_pc ..⟩)
    rw [handleEvent, replyTo_slot]
    cases kind <;> rfl
  | clientPinEntered secret =>
    right
    simp only [UserInteractedEvent.value, handleEvent]
    cases readPin secret with
    | none => exact Or.inl ⟨.clientPin, rfl, fun kind => by cases kind <;> rfl, rfl⟩
    | some pin =>
      refine Or.inr ⟨.clientPin, .pin pin, rfl, fun kind => ?_, replyTo_pc ..⟩
      rw [replyTo_slot]
      cases kind <;> rfl
  | setDevicePin secret =>
    right
    simp only [UserInteractedEvent.value, handleEvent]
    cases readPin secret with
    | none => exact Or.inl ⟨.setPin, rfl, fun kind => by cases kind <;> rfl, rfl⟩
    | some pin =>
      refine Or.inr ⟨.setPin, .pin pin, rfl, fun kind => ?_, replyTo_pc ..⟩
      rw [replyTo_slot]
      cases kind <;> rfl

/-- The value that the next event brings, if the loop is ready for it. -/
def nextValue (lp : UiLoop) : Option (PromptKind × Option Reply) :=
  match lp.pc, lp.inbox with
  | .receiving, e :: _ => e.value
  | _, _ => none

/-- What receiving an event, or the end of the events, does. -/
theorem receive_cases {lp lp' : UiLoop} (h : lp.receive = some lp') :
    (lp.nextValue = none ∧ (∀ kind, lp'.slot kind = lp.slot kind) ∧
        ∀ tx reply, lp'.pc ≠ .replying tx reply) ∨
      (∃ kind, lp.nextValue = some (kind, none) ∧ (∀ kind, lp'.slot kind = lp.slot kind) ∧
        lp'.pc = .stopped .unreadableSecret) ∨
      ∃ kind reply, lp.nextValue = some (kind, some reply) ∧
        (∀ kind', lp'.slot kind' = if kind' = kind then none else lp.slot kind') ∧
        lp'.pc =
          match lp.slot kind with
          | some tx => .replying tx reply
          | none => .receiving := by
  unfold receive at h
  split at h
  · rename_i e inbox hpc hinbox
    cases h
    have hnext : lp.nextValue = e.value := by simp only [nextValue, hpc, hinbox]
    have hslot : ∀ kind, slot { lp with inbox := inbox } kind = lp.slot kind := fun kind => by
      cases kind <;> rfl
    have hcases := handleEvent_cases { lp with inbox := inbox } e
    simp only [hslot] at hcases
    rw [hnext]
    exact hcases
  · rename_i hpc hinbox
    split at h
    · cases h
      have hnext : lp.nextValue = none := by simp only [nextValue, hpc, hinbox]
      exact Or.inl ⟨hnext, fun kind => by cases kind <;> rfl, fun tx reply hr => by cases hr⟩
    · cases h
  · cases h

/-- The other moves leave the slots alone, and none of them starts a reply. -/
theorem step_slot {lp lp' : UiLoop} {l : Move} (h : lp.step l = some lp') (hne : l ≠ .receive) :
    (∀ kind, lp'.slot kind = lp.slot kind) ∧
      ∀ tx reply, lp'.pc = .replying tx reply → lp.pc = .replying tx reply := by
  cases l with
  | event e =>
    simp only [step] at h
    split at h
    · cases h
      exact ⟨fun kind => by cases kind <;> rfl, fun _ _ hpc => hpc⟩
    · cases h
  | close =>
    cases h
    exact ⟨fun kind => by cases kind <;> rfl, fun _ _ hpc => hpc⟩
  | receive => exact absurd rfl hne
  | discovery pc =>
    simp only [step] at h
    split at h
    · rename_i hpc
      cases h
      refine ⟨fun kind => by cases kind <;> rfl, fun tx reply hreply => ?_⟩
      cases hreply
      simp [LoopPc.discovers] at hpc
    · cases h
  | cancellation pc =>
    simp only [step] at h
    split at h
    · rename_i hpc
      cases h
      refine ⟨fun kind => by cases kind <;> rfl, fun tx reply hreply => ?_⟩
      cases hreply
      simp [LoopPc.cancels] at hpc
    · cases h
  | replied sent =>
    simp only [step] at h
    split at h
    · cases h
      exact ⟨fun kind => by cases kind <;> rfl, fun _ _ hpc => by cases hpc⟩
    · cases h
  | drop =>
    simp only [step] at h
    split at h
    · cases h
    · cases h
      exact ⟨fun kind => by cases kind <;> rfl, fun _ _ hpc => by cases hpc⟩

end UiLoop

/-! ### The loops of the daemon -/

namespace Daemon

theorem getCredential_follows {d d' : Daemon} {k : Nat} {lp : UiLoop} {kind : StreamKind}
    {next : Nat → LoopPc} (hpc : lp.pc.discovers = true)
    (hnext : ∀ sid, (next sid).discovers = true)
    (h : d.getCredential k lp kind next = some d') :
    ∃ m lp', lp.step m = some lp' ∧ d'.loops = Function.update d.loops k (some lp') := by
  simp only [getCredential] at h
  split at h
  · cases h
    exact ⟨.discovery (.stopped .panicked), _, by simp [UiLoop.step, hpc], rfl⟩
  · split at h
    · obtain ⟨t, -, rfl⟩ := onTasks_some h
      exact ⟨.discovery (next d.tasks.nextStream), _, by simp [UiLoop.step, hpc, hnext], rfl⟩
    · cases h
      exact ⟨.discovery (.stopped .panicked), _, by simp [UiLoop.step, hpc], rfl⟩
    · cases h

/-- Every step of a UI event loop of the daemon is a move of the loop by itself. -/
theorem loopStep_follows {d d' : Daemon} {k : Nat} {lp : UiLoop} {l : LoopLabel}
    (h : d.loopStep k lp l = some d') :
    ∃ m lp', lp.step m = some lp' ∧ d'.loops = Function.update d.loops k (some lp') := by
  cases l with
  | event e =>
    simp only [loopStep] at h
    split at h
    · rename_i hroom
      cases h
      exact ⟨.event e, _, if_pos hroom, rfl⟩
    · cases h
  | close =>
    cases h
    exact ⟨.close, _, rfl, rfl⟩
  | receive =>
    obtain ⟨lp', hlp, rfl⟩ := Option.map_eq_some_iff.mp h
    exact ⟨.receive, lp', hlp, rfl⟩
  | lockService =>
    simp only [loopStep] at h
    split at h
    · rename_i hpc _
      cases h
      exact ⟨.discovery .transports, _, by simp [UiLoop.step, hpc, LoopPc.discovers], rfl⟩
    · rename_i hpc _
      cases h
      exact ⟨.cancellation .cancelling, _, by simp [UiLoop.step, hpc, LoopPc.cancels], rfl⟩
    · cases h
  | transports usb hybrid =>
    simp only [loopStep] at h
    split at h
    · rename_i hpc
      cases h
      cases usb
      · cases hybrid
        · exact ⟨.discovery (.forwarding []), _, by simp [UiLoop.step, hpc, LoopPc.discovers], rfl⟩
        · exact ⟨.discovery (.startingHybrid none), _,
            by simp [UiLoop.step, hpc, LoopPc.discovers], rfl⟩
      · exact ⟨.discovery (.startingUsb hybrid), _,
          by simp [UiLoop.step, hpc, LoopPc.discovers], rfl⟩
    · cases h
  | getUsb =>
    simp only [loopStep] at h
    split at h
    · rename_i hybrid hpc
      refine getCredential_follows (by rw [hpc]; rfl) (fun sid => ?_) h
      cases hybrid <;> rfl
    · cases h
  | getHybrid =>
    simp only [loopStep] at h
    split at h
    · rename_i usb hpc
      exact getCredential_follows (by rw [hpc]; rfl) (fun sid => rfl) h
    · cases h
  | forward =>
    simp only [loopStep] at h
    split at h
    · rename_i streams hpc
      cases h
      exact ⟨.discovery .receiving, _, by simp [UiLoop.step, hpc, LoopPc.discovers], rfl⟩
    · cases h
  | replied sent =>
    simp only [loopStep] at h
    split at h
    · rename_i tx reply hpc
      cases h
      exact ⟨.replied sent, _, by simp only [UiLoop.step, hpc], rfl⟩
    · cases h
  | cancel =>
    simp only [loopStep] at h
    split at h
    · rename_i hpc
      split at h
      · cases h
        exact ⟨.cancellation (.stopped .panicked), _,
          by simp [UiLoop.step, hpc, LoopPc.cancels], rfl⟩
      · obtain ⟨t, -, rfl⟩ := onTasks_some h
        exact ⟨.cancellation .releasing, _, by simp [UiLoop.step, hpc, LoopPc.cancels], rfl⟩
    · cases h
  | cancelled =>
    simp only [loopStep] at h
    split at h
    · cases h
    · rename_i hpc _
      cases h
      exact ⟨.cancellation (.stopped .requestCancelled), _,
        by simp [UiLoop.step, hpc, LoopPc.cancels], rfl⟩
    · cases h
  | drop =>
    simp only [loopStep] at h
    split at h
    · rename_i hdrop
      cases h
      have hrunning : lp.pc.isStopped = false := by
        cases hpc : lp.pc with
        | stopped why => simp [UiLoop.pending, hpc] at hdrop
        | _ => rfl
      exact ⟨.drop, _, by simp [UiLoop.step, hrunning], rfl⟩
    · cases h

/-- A forwarding task changes a loop only by the closure of `handle`. -/
theorem forwardStep_follows {credHash : Bytes → String} {d d' : Daemon} {f : Nat} {fw : Forward}
    {l : ForwardLabel} (h : d.forwardStep credHash f fw l = some d') :
    d'.loops = d.loops ∨ ∃ lp u, d.loops fw.loop = some lp ∧
      d'.loops = Function.update d.loops fw.loop (some (lp.register u)) := by
  cases l with
  | event sid e =>
    simp only [forwardStep] at h
    split at h
    · obtain ⟨t, -, rfl⟩ := onTasks_some h
      exact Or.inl rfl
    · cases h
  | innerEnded sid =>
    simp only [forwardStep] at h
    split at h
    · cases h
      exact Or.inl rfl
    · cases h
  | check =>
    simp only [forwardStep] at h
    split at h
    · obtain ⟨t, -, rfl⟩ := onTasks_some h
      split <;> exact Or.inl rfl
    · cases h
  | take =>
    simp only [forwardStep] at h
    split at h
    · split at h
      · split at h
        · cases h
          exact Or.inl rfl
        · obtain ⟨t, -, rfl⟩ := onTasks_some h
          exact Or.inl rfl
      · cases h
    · cases h
  | finish secretFile =>
    simp only [forwardStep] at h
    split at h
    · split at h
      · obtain ⟨t, -, rfl⟩ := onTasks_some h
        split
        · rename_i u _
          unfold forwardUpdate
          cases hloop : d.loops fw.loop with
          | none => exact Or.inl rfl
          | some lp => exact Or.inr ⟨lp, u, rfl, rfl⟩
        · exact Or.inl rfl
      · cases h
    · cases h
  | streamsEnded =>
    simp only [forwardStep] at h
    split at h
    · cases h
      exact Or.inl rfl
    · cases h
  | sent ok =>
    simp only [forwardStep] at h
    split at h
    · split at h
      · cases h
        exact Or.inl rfl
      · cases h
        exact Or.inl rfl
      · split at h
        · cases h
          exact Or.inl rfl
        · cases h
          exact Or.inl rfl
    · cases h

theorem flowStep_follows {d d' : Daemon} {l : FlowLabel} (h : d.flowStep l = some d') :
    d'.loops = d.loops ∨
      ∃ c, d'.loops = Function.update d.loops d.nextLoop (some (.new c)) := by
  cases l with
  | receive =>
    simp only [flowStep] at h
    split at h
    · cases h
      exact Or.inl rfl
    · cases h
  | initRequest requestId =>
    simp only [flowStep] at h
    split at h
    · split at h
      · cases h
        exact Or.inl rfl
      · obtain ⟨t, -, rfl⟩ := onTasks_some h
        split <;> exact Or.inl rfl
    · cases h
  | listDevices =>
    simp only [flowStep] at h
    split at h
    · cases h
      exact Or.inl rfl
    · cases h
  | devices hybrid nfc session =>
    simp only [flowStep] at h
    split at h
    · cases h
      exact Or.inl rfl
    · cases h
  | createSession outcome =>
    simp only [flowStep] at h
    split at h
    · rename_i c _ _ _
      cases h
      exact Or.inr ⟨c, rfl⟩
    · cases h
      exact Or.inl rfl
    · cases h
  | respond =>
    simp only [flowStep] at h
    split at h
    · split at h
      · cases h
        exact Or.inl rfl
      · cases h
        exact Or.inl rfl
      · cases h
    · cases h

/-- What happens to a loop in one step of the daemon: nothing, one move, or one update passes. -/
def Follows (lp lp' : UiLoop) : Prop :=
  lp' = lp ∨ (∃ m, lp.step m = some lp') ∨ ∃ u, lp' = lp.register u

theorem step_follows {credHash : Bytes → String} {d d' : Daemon} {l : Label} {k : Nat}
    {lp : UiLoop} (hwf : Wf d) (h : d.step credHash l = some d') (hk : d.loops k = some lp) :
    ∃ lp', d'.loops k = some lp' ∧ Follows lp lp' := by
  have hstays : d'.loops = d.loops → ∃ lp', d'.loops k = some lp' ∧ Follows lp lp' :=
    fun he => ⟨lp, by rw [he, hk], Or.inl rfl⟩
  cases l with
  | submit m =>
    simp only [step] at h
    split at h
    · cases h
      exact hstays rfl
    · cases h
  | flow l =>
    rcases flowStep_follows h with hloops | ⟨c, hloops⟩
    · exact hstays hloops
    · have hne : k ≠ d.nextLoop := Nat.ne_of_lt (hwf.loops k lp hk).1
      exact ⟨lp, by rw [hloops, Function.update_of_ne hne, hk], Or.inl rfl⟩
  | ui k' l =>
    obtain ⟨lp₀, hk', h⟩ := Option.bind_eq_some_iff.mp h
    obtain ⟨m, lp', hm, hloops⟩ := loopStep_follows h
    by_cases he : k = k'
    · rw [he, hk'] at hk
      cases hk
      exact ⟨lp', by rw [hloops, he, Function.update_self], Or.inr (Or.inl ⟨m, hm⟩)⟩
    · exact ⟨lp, by rw [hloops, Function.update_of_ne he, hk], Or.inl rfl⟩
  | forward f l =>
    obtain ⟨fw, hf, h⟩ := Option.bind_eq_some_iff.mp h
    rcases forwardStep_follows h with hloops | ⟨lp₀, u, hk', hloops⟩
    · exact hstays hloops
    · by_cases he : k = fw.loop
      · rw [he, hk'] at hk
        cases hk
        exact ⟨_, by rw [hloops, he, Function.update_self], Or.inr (Or.inr ⟨u, rfl⟩)⟩
      · exact ⟨lp, by rw [hloops, Function.update_of_ne he, hk], Or.inl rfl⟩
  | advance =>
    obtain ⟨t, -, rfl⟩ := onTasks_some h
    exact hstays rfl

/-- Over a run of the daemon a loop makes moves of its own and has updates pass, nothing else. -/
theorem run_follows {credHash : Bytes → String} {d d' : Daemon} {ls : List Label} {k : Nat}
    {lp : UiLoop} (hwf : Wf d) (h : exec (step credHash) d ls = some d')
    (hk : d.loops k = some lp) :
    ∃ lp', d'.loops k = some lp' ∧ Relation.ReflTransGen Follows lp lp' := by
  induction ls generalizing d lp with
  | nil =>
    cases h
    exact ⟨lp, hk, .refl⟩
  | cons l ls ih =>
    obtain ⟨m, hm, hrest⟩ := exec_cons_some.mp h
    obtain ⟨lp', hk', hfirst⟩ := step_follows hwf hm hk
    obtain ⟨lp'', hk'', hlater⟩ := ih (hwf.step hm) hrest hk'
    exact ⟨lp'', hk'', .head hfirst hlater⟩

end Daemon

end Credentialsd
