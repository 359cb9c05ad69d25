import Credentialsd.Handlers
import Credentialsd.Lib.Broadcast
import Credentialsd.Lib.Machine

/-!
# The hybrid handler (`hybrid.rs:46-198`, `hybrid.rs:298-331`)

`start` spawns a task that makes the QR code and starts the task that talks to the
phone; that one starts the relay of the library's updates. All three send to the
stream.
-/

namespace Credentialsd

inductive CableUpdate where
  | proximityCheck
  | connecting
  | authenticating
  | connected
  | error (err : String)
  deriving Repr, DecidableEq

inductive CableUxUpdate where
  | uvUpdate (u : UvUpdate)
  | cableUpdate (u : CableUpdate)
  deriving Repr, DecidableEq

def HybridStateInternal.isTerminal : HybridStateInternal → Bool
  | .completed _ => true
  | .failed _ => true
  | _ => false

namespace Hybrid

/-- The state of `handle_hybrid_updates`; an update may have none. -/
def handleUpdate : CableUxUpdate → Option HybridStateInternal
  | .uvUpdate _ => none
  | .cableUpdate .proximityCheck => none
  | .cableUpdate .connecting => some .connecting
  | .cableUpdate .authenticating => some .connecting
  | .cableUpdate .connected => some .connected
  | .cableUpdate (.error _) => some (.failed .authenticatorError)

/-- The response of the phone; of its assertions the first is taken without a check. -/
def credentialResponse : AuthenticatorResponse → Except Panic CredentialResponse
  | .credentialCreated r => .ok (.fromMakeCredential r ["hybrid"] "cross-platform")
  | .credentialsAsserted r =>
    match r.assertions with
    | assertion :: _ => .ok (.fromGetAssertion assertion "cross-platform")
    | [] => .error .index

def terminalState : Except CredentialServiceError CredentialResponse → Option HybridStateInternal
  | .ok response => some (.completed response)
  | .error .requestCancelled => none
  | .error err => some (.failed err)

inductive Starter where
  | creating
  | sendingInit (qrCode : String)
  | ended
  deriving Repr, DecidableEq

inductive Main where
  | notSpawned
  | opening
  | operating
  | sending (state : HybridStateInternal)
  | ended
  | panicked
  deriving Repr, DecidableEq

def Main.channelOpen : Main → Bool
  | .operating => true
  | .sending _ => true
  | _ => false

def Main.finished : Main → Bool
  | .notSpawned => true
  | .ended => true
  | .panicked => true
  | _ => false

inductive Updates where
  | notSpawned
  | receiving
  | relaying (state : HybridStateInternal)
  | ended
  deriving Repr, DecidableEq

def Updates.finished : Updates → Bool
  | .notSpawned => true
  | .ended => true
  | _ => false

inductive Label where
  | created (qrCode : Except String String)
  | sendInit
  | opened (ok : Bool)
  | answered (result : Except WebAuthnError AuthenticatorResponse)
  | sendTerminal
  | cancelMain
  | recvUpdate
  | relay
  | update (u : CableUxUpdate)
  | take
  | cancel
  | dropConsumer
  deriving Repr

def streamCapacity : Nat := 16

end Hybrid

structure Hybrid where
  starter : Hybrid.Starter
  main : Hybrid.Main
  updates : Hybrid.Updates
  ux : Broadcast CableUxUpdate
  sent : List HybridStateInternal
  taken : Nat
  cancelled : Bool
  consumer : Bool
  deriving Repr, DecidableEq

namespace Hybrid

def init : Hybrid := ⟨.creating, .notSpawned, .notSpawned, .subscribe, [], 0, false, true⟩

/-- `tx.send(..).await`: `none` while the stream is full, the stream unchanged if it is dropped. -/
def send (s : Hybrid) (state : HybridStateInternal) : Option Hybrid :=
  if s.consumer then
    if s.sent.length < s.taken + streamCapacity then some { s with sent := s.sent ++ [state] }
    else none
  else some s

def created (s : Hybrid) (qrCode : Except String String) : Option Hybrid :=
  match s.starter with
  | .creating =>
    match qrCode with
    | .ok qrCode => some { s with starter := .sendingInit qrCode }
    | .error _ => some { s with starter := .ended }
  | _ => none

def sendInit (s : Hybrid) : Option Hybrid :=
  match s.starter with
  | .sendingInit qrCode =>
    (s.send (.init qrCode)).map fun s =>
      if s.consumer then { s with starter := .ended, main := .opening }
      else { s with starter := .ended }
  | _ => none

def opened (s : Hybrid) (ok : Bool) : Option Hybrid :=
  match s.main with
  | .opening =>
    if ok then some { s with main := .operating, updates := .receiving, ux := .subscribe }
    else some { s with main := .panicked }
  | _ => none

def finish (s : Hybrid) (response : Except CredentialServiceError CredentialResponse) : Hybrid :=
  match terminalState response with
  | some state => { s with main := .sending state }
  | none => { s with main := .ended }

def answered (c : Ceremony) (s : Hybrid) (result : Except WebAuthnError AuthenticatorResponse) :
    Option Hybrid :=
  match s.main with
  | .operating =>
    if c.admits result then
      if c.retries result then some s
      else match result with
        | .ok r =>
          match credentialResponse r with
          | .ok response => some (s.finish (.ok response))
          | .error _ => some { s with main := .panicked }
        | .error err => some (s.finish (.error err.toServiceError))
    else none
  | _ => none

def sendTerminal (s : Hybrid) : Option Hybrid :=
  match s.main with
  | .sending state => (s.send state).map fun s => { s with main := .ended }
  | _ => none

def cancelMain (s : Hybrid) : Option Hybrid :=
  match s.main with
  | .operating => if s.cancelled then some (s.finish (.error .requestCancelled)) else none
  | _ => none

def recvUpdate (s : Hybrid) : Option Hybrid :=
  match s.updates with
  | .receiving =>
    (s.ux.recv (!s.main.channelOpen)).map fun r =>
      match r with
      | (.ok u, ux) =>
        match handleUpdate u with
        | some state => { s with ux := ux, updates := .relaying state }
        | none => { s with ux := ux }
      | (.error _, ux) => { s with ux := ux, updates := .ended }
  | _ => none

def relay (s : Hybrid) : Option Hybrid :=
  match s.updates with
  | .relaying state => (s.send state).map fun s => { s with updates := .receiving }
  | _ => none

def update (c : Ceremony) (s : Hybrid) (u : CableUxUpdate) : Option Hybrid :=
  if s.main.channelOpen then some { s with ux := s.ux.send c.uxCapacity u } else none

def take (s : Hybrid) : Option Hybrid :=
  if s.consumer && s.taken < s.sent.length then some { s with taken := s.taken + 1 } else none

def step (c : Ceremony) (s : Hybrid) : Label → Option Hybrid
  | .created qrCode => s.created qrCode
  | .sendInit => s.sendInit
  | .opened ok => s.opened ok
  | .answered result => answered c s result
  | .sendTerminal => s.sendTerminal
  | .cancelMain => s.cancelMain
  | .recvUpdate => s.recvUpdate
  | .relay => s.relay
  | .update u => update c s u
  | .take => s.take
  | .cancel => some { s with cancelled := true }
  | .dropConsumer => some { s with consumer := false }

/-! ### Stuck -/

def terminalSent (s : Hybrid) : Bool := s.sent.any (·.isTerminal)

/-- The only wait of a task for another one is that of the relay, and it holds no sender of the
broadcast channel: the handler is stuck once all tasks are finished. -/
structure AllFinished (s : Hybrid) : Prop where
  starter : s.starter = .ended
  main : s.main.finished = true
  updates : s.updates.finished = true

def Stuck (s : Hybrid) : Prop := s.terminalSent = false ∧ s.AllFinished

/-- The relay has a transport error to report. -/
def failureComes (s : Hybrid) : Bool :=
  let queued := !s.ux.lagged && s.ux.queue.any fun u => (handleUpdate u).any (·.isTerminal)
  match s.updates with
  | .relaying state => state.isTerminal || queued
  | .receiving => queued
  | _ => false

/-- The step loses the outcome: no QR code, no channel to the phone, or an empty list of assertions
when no failure is reported besides. -/
def loses (s : Hybrid) : Label → Bool
  | .created (.error _) => true
  | .opened ok => !ok
  | .answered (.ok (.credentialsAsserted r)) =>
    r.assertions.isEmpty && !s.terminalSent && !s.failureComes
  | _ => false

def Label.disturbs : Label → Bool
  | .cancel => true
  | .dropConsumer => true
  | _ => false

/-! ### The invariant -/

structure Live (s : Hybrid) : Prop where
  cancelled : s.cancelled = false
  consumer : s.consumer = true
  spawned : s.starter = .ended → s.main ≠ .notSpawned
  sending : ∀ state, s.main = .sending state → state.isTerminal = true
  ended : s.main = .ended → s.terminalSent = true
  panicked : s.main = .panicked → s.terminalSent = true ∨ s.failureComes = true

theorem Live.not_stuck {s : Hybrid} (hl : s.Live) : ¬ s.Stuck := by
  rintro ⟨hterm, hfin⟩
  have hmain := hfin.main
  cases hm : s.main with
  | notSpawned => exact hl.spawned hfin.starter hm
  | opening =>
    rw [hm] at hmain
    cases hmain
  | operating =>
    rw [hm] at hmain
    cases hmain
  | sending state =>
    rw [hm] at hmain
    cases hmain
  | ended =>
    rw [hl.ended hm] at hterm
    cases hterm
  | panicked =>
    rcases hl.panicked hm with hyes | hcomes
    · rw [hyes] at hterm
      cases hterm
    · have hupdates := hfin.updates
      unfold failureComes at hcomes
      cases hu : s.updates with
      | notSpawned =>
        rw [hu] at hcomes
        cases hcomes
      | receiving =>
        rw [hu] at hupdates
        cases hupdates
      | relaying state =>
        rw [hu] at hupdates
        cases hupdates
      | ended =>
        rw [hu] at hcomes
        cases hcomes

theorem Live.send_some {s t : Hybrid} {state : HybridStateInternal} (hl : s.Live)
    (h : s.send state = some t) : t = { s with sent := s.sent ++ [state] } := by
  unfold send at h
  rw [if_pos hl.consumer] at h
  split at h
  · cases h
    rfl
  · cases h

theorem terminalSent_append (s : Hybrid) (state : HybridStateInternal) :
    terminalSent { s with sent := s.sent ++ [state] } = (s.terminalSent || state.isTerminal) := by
  simp [terminalSent]

theorem terminalState_isTerminal {r : Except CredentialServiceError CredentialResponse}
    {state : HybridStateInternal} (h : terminalState r = some state) : state.isTerminal = true := by
  unfold terminalState at h
  split at h
  · cases h
    rfl
  · cases h
  · cases h
    rfl

theorem finish_live {s : Hybrid} {r : Except CredentialServiceError CredentialResponse}
    (hl : s.Live) (hr : r ≠ .error .requestCancelled) : (s.finish r).Live := by
  unfold finish
  split
  · rename_i state hstate
    refine ⟨hl.cancelled, hl.consumer, nofun, fun state' h => ?_, nofun, nofun⟩
    cases h
    exact terminalState_isTerminal hstate
  · rename_i hnone
    unfold terminalState at hnone
    split at hnone
    · cases hnone
    · exact absurd rfl hr
    · cases hnone

theorem answered_live {c : Ceremony} {s t : Hybrid}
    {result : Except WebAuthnError AuthenticatorResponse} (hl : s.Live)
    (h : answered c s result = some t) (hkeeps : s.loses (.answered result) = false) : t.Live := by
  unfold answered at h
  split at h
  · split at h
    · split at h
      · cases h
        exact hl
      · split at h
        · rename_i r _ _
          split at h
          · cases h
            exact finish_live hl nofun
          · -- an empty list: the relay still reports a failure
            rename_i err hempty
            cases h
            refine ⟨hl.cancelled, hl.consumer, nofun, nofun, nofun, fun _ => ?_⟩
            have hcomes : s.terminalSent = true ∨ s.failureComes = true := by
              cases r with
              | credentialCreated r => cases hempty
              | credentialsAsserted r =>
                obtain ⟨assertions⟩ := r
                cases assertions with
                | cons a rest => cases hempty
                | nil =>
                  cases hs : s.terminalSent with
                  | true => exact Or.inl rfl
                  | false =>
                    right
                    simpa [loses, hs] using hkeeps
            exact hcomes
        · rename_i err _ _
          cases h
          refine finish_live hl fun he => ?_
          injection he with he
          exact err.toServiceError_ne_cancelled he
    · cases h
  · cases h

theorem relay_live {s t : Hybrid} (hl : s.Live) (h : s.relay = some t) : t.Live := by
  unfold relay at h
  split at h
  · rename_i state hu
    obtain ⟨u, hsend, rfl⟩ := Option.map_eq_some_iff.mp h
    rw [hl.send_some hsend]
    refine ⟨hl.cancelled, hl.consumer, hl.spawned, hl.sending, fun hm => ?_, fun hm => ?_⟩
    · exact (terminalSent_append s state).trans (by rw [hl.ended hm]; rfl)
    · have happ : terminalSent { s with updates := .receiving, sent := s.sent ++ [state] } =
          (s.terminalSent || state.isTerminal) := terminalSent_append s state
      rw [happ]
      rcases hl.panicked hm with hyes | hcomes
      · exact Or.inl (by rw [hyes]; rfl)
      · unfold failureComes at hcomes
        rw [hu] at hcomes
        rcases Bool.or_eq_true_iff.mp hcomes with hterm | hqueued
        · exact Or.inl (by rw [hterm, Bool.or_true])
        · exact Or.inr hqueued
  · cases h

theorem recvUpdate_live {s t : Hybrid} (hl : s.Live) (h : s.recvUpdate = some t) : t.Live := by
  unfold recvUpdate at h
  split at h
  · rename_i hu
    obtain ⟨⟨r, ux⟩, hrecv, rfl⟩ := Option.map_eq_some_iff.mp h
    cases r with
    | error err =>
      refine ⟨hl.cancelled, hl.consumer, hl.spawned, hl.sending, hl.ended, fun hm => ?_⟩
      rcases hl.panicked hm with hyes | hcomes
      · exact Or.inl hyes
      · exfalso
        unfold failureComes at hcomes
        rw [hu] at hcomes
        rcases Broadcast.recv_error hrecv with hlag | hempty
        · rw [hlag] at hcomes
          cases hcomes
        · rw [hempty] at hcomes
          simp at hcomes
    | ok u =>
      obtain ⟨hlag, hlag', hqueue⟩ := Broadcast.recv_ok hrecv
      have hcomes : s.failureComes = true →
          (handleUpdate u).any (·.isTerminal) = true ∨
          ux.queue.any (fun u => (handleUpdate u).any (·.isTerminal)) = true := by
        intro hcomes
        unfold failureComes at hcomes
        rw [hu, hlag, hqueue] at hcomes
        simpa using hcomes
      simp only
      split
      · rename_i state hstate
        refine ⟨hl.cancelled, hl.consumer, hl.spawned, hl.sending, hl.ended, fun hm => ?_⟩
        refine (hl.panicked hm).imp id fun hc => ?_
        rcases hcomes hc with hterm | hrest
        · rw [hstate] at hterm
          simp only [failureComes]
          rw [show state.isTerminal = true from hterm, Bool.true_or]
        · simp only [failureComes, hlag', hrest, Bool.not_false, Bool.and_true, Bool.or_true]
      · rename_i hnone
        refine ⟨hl.cancelled, hl.consumer, hl.spawned, hl.sending, hl.ended, fun hm => ?_⟩
        refine (hl.panicked hm).imp id fun hc => ?_
        rcases hcomes hc with hterm | hrest
        · rw [hnone] at hterm
          cases hterm
        · simp only [failureComes, hu, hlag', hrest, Bool.not_false, Bool.and_true]
  · cases h

theorem step_live {c : Ceremony} {s t : Hybrid} {l : Label} (hl : s.Live)
    (h : step c s l = some t) (hgoes : l.disturbs = false) (hkeeps : s.loses l = false) :
    t.Live := by
  cases l with
  | created qrCode =>
    simp only [step, created] at h
    split at h
    · split at h
      · cases h
        exact ⟨hl.cancelled, hl.consumer, nofun, hl.sending, hl.ended, hl.panicked⟩
      · cases hkeeps
    · cases h
  | sendInit =>
    simp only [step, sendInit] at h
    split at h
    · rename_i qrCode _
      obtain ⟨u, hsend, rfl⟩ := Option.map_eq_some_iff.mp h
      rw [hl.send_some hsend, if_pos hl.consumer]
      exact ⟨hl.cancelled, hl.consumer, nofun, nofun, nofun, nofun⟩
    · cases h
  | opened ok =>
    simp only [step, opened] at h
    split at h
    · split at h
      · cases h
        exact ⟨hl.cancelled, hl.consumer, nofun, nofun, nofun, nofun⟩
      · rename_i hok
        rw [loses, Bool.not_eq_false'] at hkeeps
        exact absurd hkeeps hok
    · cases h
  | answered result => exact answered_live hl h hkeeps
  | sendTerminal =>
    simp only [step, sendTerminal] at h
    split at h
    · rename_i state hm
      obtain ⟨u, hsend, rfl⟩ := Option.map_eq_some_iff.mp h
      rw [hl.send_some hsend]
      refine ⟨hl.cancelled, hl.consumer, nofun, nofun, fun _ => ?_, nofun⟩
      exact (terminalSent_append s state).trans (by rw [hl.sending state hm, Bool.or_true])
    · cases h
  | cancelMain =>
    simp only [step, cancelMain, hl.cancelled] at h
    split at h <;> cases h
  | recvUpdate => exact recvUpdate_live hl h
  | relay => exact relay_live hl h
  | update u =>
    simp only [step, update] at h
    split at h
    · rename_i hopen
      cases h
      refine ⟨hl.cancelled, hl.consumer, hl.spawned, hl.sending, hl.ended, fun hm => ?_⟩
      rw [show s.main = .panicked from hm] at hopen
      cases hopen
    · cases h
  | take =>
    simp only [step, take] at h
    split at h
    · cases h
      exact ⟨hl.cancelled, hl.consumer, hl.spawned, hl.sending, hl.ended, hl.panicked⟩
    · cases h
  | cancel => cases hgoes
  | dropConsumer => cases hgoes

theorem init_live : init.Live where
  cancelled := rfl
  consumer := rfl
  spawned := nofun
  sending := nofun
  ended := nofun
  panicked := nofun

end Hybrid

end Credentialsd
