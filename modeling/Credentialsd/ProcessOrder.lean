import Credentialsd.HandlersLive

/-!
# The loop goes one way

What may follow a state of the loop of USB or NFC is a relation between their phases:
before a device is connected anything, then a prompt, a choice or the end, after a
choice only the end, and after the end nothing. Every step of the loop keeps to it.
So do the states that it sends, and the device is operated on once.
-/

namespace Credentialsd

namespace Phase

variable {D : Type}

/- No device is connected yet. -/
def isEarly : Phase D → Bool
  | .idleWaiting => true
  | .selectingDevice _ => true
  | _ => false

/- The operation on the device has been started. -/
def isOperating : Phase D → Bool
  | .interaction => true
  | .selectCredential _ => true
  | .completed => true
  | .failed _ => true
  | _ => false

/- The second phase may come after the first one. -/
def allows : Phase D → Phase D → Bool
  | .idleWaiting, _ => true
  | .selectingDevice _, _ => true
  | .connected, p => p.isOperating
  | .interaction, p => p.isOperating
  | .selectCredential _, p => p.isTerminal
  | .completed, _ => false
  | .failed _, _ => false

theorem allows_trans {p q r : Phase D} (hpq : p.allows q = true) (hqr : q.allows r = true) :
    p.allows r = true := by
  cases p <;> cases q <;> cases r <;> simp_all [allows, isOperating, isTerminal]

theorem allows_of_isEarly {p : Phase D} (h : p.isEarly = true) (q : Phase D) :
    p.allows q = true := by
  cases p <;> first | rfl | cases h

theorem allows_isOperating {p q : Phase D} (h : p.allows q = true)
    (hp : p.isEarly = false) : q.isOperating = true := by
  cases p <;> cases q <;> simp_all [allows, isEarly, isOperating, isTerminal]

theorem isTerminal_allows {p : Phase D} (h : p.isTerminal = true) (q : Phase D) :
    p.allows q = false := by
  cases p <;> first | rfl | cases h

end Phase

namespace Process

variable {S M D F : Type} (h : Handler S M D F) (c : Ceremony)

/-! ### What a step keeps -/

/- An error, an answer of the authenticator or one of its updates. -/
def IsMessage (x : Except CredentialServiceError M) : Prop :=
  (∃ err, x = .error err) ∨ (∃ r, x = .ok (h.receivedCredentials r)) ∨
    ∃ msg, x = .ok msg ∧ IsUpdate h msg

structure Messages (s : Process S M D) : Prop where
  signals : ∀ x ∈ s.signals, IsMessage h x
  sending : ∀ x, s.events = .sending x → IsMessage h x
  relaying : ∀ msg pinTx, s.updates = .relaying msg pinTx → IsUpdate h msg

def Follows (a b : S) : Prop := (h.phase a).allows (h.phase b) = true

/-- The states sent so far come in order and before the state of the loop, and `handle_events` is
spawned once and not before a device is connected. -/
structure InOrder (s : Process S M D) : Prop where
  sent : s.sent.Pairwise (Follows h)
  before : ∀ st ∈ s.sent, st = s.state ∨ Follows h st s.state
  early : (h.phase s.state).isEarly = true → s.spawned = 0
  once : s.spawned ≤ 1

/- What the loop awaits fits its state; a new state is about to be sent after all others. -/
def Stands (s : Process S M D) : Prop :=
  match s.pending with
  | .listing => h.phase s.state = .idleWaiting
  | .sleeping next => h.phase s.state = .idleWaiting ∧ ∃ st, next = .ok st ∧ h.Listed st
  | .selecting => ∃ ds, h.phase s.state = .selectingDevice ds
  | .interacting => h.phase s.state = .connected ∨ h.phase s.state = .interaction
  | .choosing response => h.phase s.state = .selectCredential response
  | .emitting =>
    (∀ st ∈ s.sent, Follows h st s.state) ∧ (h.phase s.state = .connected → s.spawned = 0)
  | .done _ => True
  | .panicked => True

structure OneWay (s : Process S M D) : Prop where
  messages : Messages h s
  order : InOrder h s
  stands : Stands h s

/- The state of the loop stays or is followed by the new one. -/
def GoesOn (s t : Process S M D) : Prop := t.state = s.state ∨ Follows h s.state t.state

theorem GoesOn.trans {s t u : Process S M D} (hst : GoesOn h s t) (htu : GoesOn h t u) :
    GoesOn h s u := by
  unfold GoesOn Follows at *
  rcases hst with hst | hst
  · rw [hst] at htu
    exact htu
  · rcases htu with htu | htu
    · rw [htu]
      exact Or.inr hst
    · exact Or.inr (Phase.allows_trans hst htu)

theorem isUpdate_isMessage {msg : M} (hu : IsUpdate h msg) : IsMessage h (.ok msg) :=
  Or.inr (Or.inr ⟨msg, rfl, hu⟩)

/-! ### The loop -/

theorem again_oneWay {s : Process S M D} (hm : Messages h s) (ho : InOrder h s)
    (hconnected : h.phase s.state = .connected → s.spawned = 0) : OneWay h (again h s) := by
  have hsent := ho.sent
  have hbefore := ho.before
  have hearly := ho.early
  have honce := ho.once
  unfold again
  split
  · exact ⟨{ hm with }, { ho with }, trivial⟩
  · exact ⟨{ hm with }, { ho with }, trivial⟩
  · rename_i hp
    exact ⟨{ hm with }, { ho with }, hp⟩
  · exact ⟨{ hm with }, { ho with }, trivial⟩
  · rename_i d ds hp
    exact ⟨{ hm with }, { ho with }, ⟨_, hp⟩⟩
  · rename_i hp
    have hzero := hconnected hp
    refine ⟨{ hm with sending := nofun }, { ho with early := fun he => ?_, once := ?_ }, Or.inl hp⟩
    · rw [show h.phase s.state = .connected from hp] at he
      cases he
    · show s.spawned + 1 ≤ 1
      omega
  · rename_i hp
    exact ⟨{ hm with }, { ho with }, Or.inr hp⟩
  · rename_i response hp
    exact ⟨{ hm with }, { ho with }, hp⟩

/- The loop goes to a state that its own allows, and to a connected one only from an early one. -/
theorem enter_oneWay {s : Process S M D} {st : S} (hm : Messages h s) (ho : InOrder h s)
    (hfollows : Follows h s.state st)
    (hconnected : h.phase st = .connected → (h.phase s.state).isEarly = true)
    (hearly : (h.phase st).isEarly = true → (h.phase s.state).isEarly = true) :
    OneWay h (enter h s st) ∧ GoesOn h s (enter h s st) := by
  have hafter : ∀ x ∈ s.sent, Follows h x st := by
    intro x hx
    rcases ho.before x hx with rfl | hx
    · exact hfollows
    · exact Phase.allows_trans hx hfollows
  have horder : InOrder h { s with state := st } :=
    { ho with
      before := fun x hx => Or.inr (hafter x hx)
      early := fun he => ho.early (hearly he) }
  have hspawn : h.phase st = .connected → s.spawned = 0 := fun hp => ho.early (hconnected hp)
  have hstate : (again h { s with state := st }).state = st := by
    unfold again
    split <;> rfl
  unfold enter
  split
  · exact ⟨⟨{ hm with }, { horder with }, hafter, hspawn⟩, Or.inr hfollows⟩
  · refine ⟨again_oneWay h { hm with } horder hspawn, Or.inr ?_⟩
    rw [hstate]
    exact hfollows

/- What the loop finds next, in a state of one of its functions. -/
structure Next (s : Process S M D) (next : Except CredentialServiceError S) : Prop where
  ok : ∀ st, next = .ok st → Follows h s.state st ∧
    ((h.phase st).isOperating = true ∨ (h.phase s.state).isEarly = true)
  running : (h.phase s.state).isTerminal = false

theorem settle_oneWay {s : Process S M D} {next : Except CredentialServiceError S}
    (hm : Messages h s) (ho : InOrder h s) (hn : Next h s next) :
    OneWay h (settle h s next) ∧ GoesOn h s (settle h s next) := by
  unfold settle
  split
  · exact ⟨⟨{ hm with }, { ho with }, trivial⟩, Or.inl rfl⟩
  · rename_i err _
    have hfailed := h.phase_failed err
    have hrunning := hn.running
    refine enter_oneWay h hm ho ?_ ?_ ?_
    · unfold Follows
      rw [hfailed]
      revert hrunning
      cases h.phase s.state <;> simp [Phase.isTerminal, Phase.allows, Phase.isOperating]
    · intro hp
      rw [hfailed] at hp
      cases hp
    · intro he
      rw [hfailed] at he
      cases he
  · rename_i st
    obtain ⟨hfollows, hoperating⟩ := hn.ok st rfl
    refine enter_oneWay h hm ho hfollows (fun hp => ?_) (fun he => ?_)
    · rcases hoperating with hop | hearly
      · rw [hp] at hop
        cases hop
      · exact hearly
    · rcases hoperating with hop | hearly
      · revert hop he
        cases h.phase st <;> simp [Phase.isOperating, Phase.isEarly]
      · exact hearly

theorem next_of_early {s : Process S M D} (next : Except CredentialServiceError S)
    (h' : (h.phase s.state).isEarly = true) : Next h s next where
  ok st _ := ⟨Phase.allows_of_isEarly h' _, Or.inr h'⟩
  running := by
    revert h'
    cases h.phase s.state <;> simp [Phase.isEarly, Phase.isTerminal]

theorem listed_oneWay {s t : Process S M D} {result : Except String F} (hi : OneWay h s)
    (hstep : listed h s result = some t) : OneWay h t ∧ GoesOn h s t := by
  unfold listed at hstep
  split at hstep
  · rename_i hp
    have hidle : h.phase s.state = .idleWaiting := by simpa only [Stands, hp] using hi.stands
    have hearly : (h.phase s.state).isEarly = true := by rw [hidle]; rfl
    simp only at hstep
    split at hstep
    · rename_i hsleeps
      cases hstep
      refine ⟨⟨{ hi.messages with }, { hi.order with }, hidle, ?_⟩, Or.inl rfl⟩
      rcases h.processIdleWaiting_next s.failures s.state result hidle with hst | ⟨hno, -⟩
      · exact hst
      · rw [hno] at hsleeps
        cases hsleeps
    · cases hstep
      exact settle_oneWay h { hi.messages with } { hi.order with } (next_of_early h _ hearly)
  · cases hstep

/- A loop that has slept or selects a device has not got to one yet. -/
theorem OneWay.early_of_sleeping {s : Process S M D} {next : Except CredentialServiceError S}
    (hi : OneWay h s) (hp : s.pending = .sleeping next) :
    (h.phase s.state).isEarly = true := by
  have hstands := hi.stands
  rw [Stands, hp] at hstands
  rw [hstands.1]
  rfl

theorem OneWay.early_of_selecting {s : Process S M D} (hi : OneWay h s)
    (hp : s.pending = .selecting) : (h.phase s.state).isEarly = true := by
  have hstands := hi.stands
  rw [Stands, hp] at hstands
  obtain ⟨ds, hds⟩ := hstands
  rw [hds]
  rfl

/- What the loop makes of a message belongs to the operation on the device. -/
theorem interact_isOperating {x : Except CredentialServiceError M} (hx : IsMessage h x) {st : S}
    (hst : h.processUserInteraction credTx (some x) = .ok st) :
    (h.phase st).isOperating = true := by
  rcases hx with ⟨err, rfl⟩ | ⟨r, rfl⟩ | ⟨msg, rfl, pinTx, u, hu⟩
  · rw [h.interact_error] at hst
    cases hst
  · obtain ⟨st', hst', hphase⟩ := h.interact_received credTx r
    rw [hst] at hst'
    cases hst'
    rcases hphase with hp | ⟨resp, hp⟩ <;> rw [hp] <;> rfl
  · obtain ⟨st', hst', hphase⟩ := h.interact_update credTx pinTx u msg hu
    rw [hst] at hst'
    cases hst'
    rw [hphase]
    rfl

theorem interact_oneWay {s : Process S M D} {msg : Except CredentialServiceError M}
    {rest : List (Except CredentialServiceError M)} (hi : OneWay h s)
    (hp : s.pending = .interacting) (hsignals : s.signals = msg :: rest) :
    OneWay h (settle h { s with signals := rest } (h.processUserInteraction credTx (some msg))) ∧
      GoesOn h s
        (settle h { s with signals := rest } (h.processUserInteraction credTx (some msg))) := by
  have hstands := hi.stands
  rw [Stands, hp] at hstands
  have hmsg : IsMessage h msg := hi.messages.signals msg (by
    rw [hsignals]
    exact List.mem_cons_self ..)
  have hm : Messages h { s with signals := rest } :=
    { hi.messages with signals := fun x hx => hi.messages.signals x (by
        rw [hsignals]
        exact List.mem_cons_of_mem _ hx) }
  refine settle_oneWay h hm { hi.order with } ⟨fun st hst => ?_, ?_⟩
  · have hop := interact_isOperating h hmsg hst
    refine ⟨?_, Or.inl hop⟩
    show (h.phase s.state).allows (h.phase st) = true
    rcases hstands with hp | hp <;> rw [hp] <;> exact hop
  · show (h.phase s.state).isTerminal = false
    rcases hstands with hp | hp <;> rw [hp] <;> rfl

theorem OneWay.phase_of_choosing {s : Process S M D} {response : GetAssertionResponse}
    (hi : OneWay h s) (hp : s.pending = .choosing response) :
    h.phase s.state = .selectCredential response := by
  have hstands := hi.stands
  rw [Stands, hp] at hstands
  exact hstands

theorem choose_oneWay {s : Process S M D} {response : GetAssertionResponse} (hi : OneWay h s)
    (hp : s.pending = .choosing response) (id : String) (rest : List String) :
    OneWay h (settle h { s with creds := rest } (h.processSelectCredential response (some id))) ∧
      GoesOn h s
        (settle h { s with creds := rest } (h.processSelectCredential response (some id))) := by
  have hphase := hi.phase_of_choosing h hp
  refine settle_oneWay h (s := { s with creds := rest }) { hi.messages with }
    { hi.order with } ⟨fun st hst => ?_, ?_⟩
  · rcases h.select_cases response (some id) with ⟨st', hst', hcompleted⟩ | ⟨err, herr, -⟩
    · rw [hst] at hst'
      cases hst'
      refine ⟨?_, Or.inl ?_⟩
      · show (h.phase s.state).allows (h.phase st) = true
        rw [hphase, hcompleted]
        rfl
      · rw [hcompleted]
        rfl
    · rw [hst] at herr
      cases herr
  · show (h.phase s.state).isTerminal = false
    rw [hphase]
    rfl

theorem emit_oneWay {s t : Process S M D} (hi : OneWay h s) (hstep : emit h s = some t) :
    OneWay h t ∧ GoesOn h s t := by
  unfold emit at hstep
  split at hstep
  · rename_i hp
    have hstands := hi.stands
    rw [Stands, hp] at hstands
    obtain ⟨hafter, hspawn⟩ := hstands
    split at hstep
    · split at hstep
      · cases hstep
        have horder : InOrder h { s with sent := s.sent ++ [s.state] } :=
          { hi.order with
            sent := by
              refine List.pairwise_append.mpr ⟨hi.order.sent, List.pairwise_singleton .., ?_⟩
              intro st hst x hx
              rw [List.mem_singleton.mp hx]
              exact hafter st hst
            before := by
              intro st hst
              rcases List.mem_append.mp hst with hst | hst
              · exact Or.inr (hafter st hst)
              · exact Or.inl (List.mem_singleton.mp hst) }
        refine ⟨again_oneWay h { hi.messages with } horder hspawn, Or.inl ?_⟩
        unfold again
        split <;> rfl
      · cases hstep
    · cases hstep
      exact ⟨⟨{ hi.messages with }, { hi.order with }, trivial⟩, Or.inl rfl⟩
  · cases hstep

/- A step that leaves state, states sent and spawned tasks alone. -/
theorem OneWay.frame {s t : Process S M D} (hi : OneWay h s) (hm : Messages h t)
    (hstate : t.state = s.state) (hsent : t.sent = s.sent) (hspawned : t.spawned = s.spawned)
    (hpending : t.pending = s.pending ∨ t.pending.alive = false) :
    OneWay h t ∧ GoesOn h s t := by
  refine ⟨⟨hm, ⟨?_, ?_, ?_, ?_⟩, ?_⟩, Or.inl hstate⟩
  · rw [hsent]
    exact hi.order.sent
  · rw [hsent, hstate]
    exact hi.order.before
  · rw [hstate, hspawned]
    exact hi.order.early
  · rw [hspawned]
    exact hi.order.once
  · unfold Stands
    rcases hpending with hp | hdead
    · rw [hp, hstate, hsent, hspawned]
      exact hi.stands
    · revert hdead
      cases t.pending <;> simp [Pending.alive]

theorem select_oneWay {s t : Process S M D} {l : Selection.Label} (hi : OneWay h s)
    (hstep : select s l = some t) : OneWay h t ∧ GoesOn h s t := by
  unfold select at hstep
  split at hstep
  · obtain ⟨sel, -, rfl⟩ := Option.map_eq_some_iff.mp hstep
    split
    · exact hi.frame h { hi.messages with } rfl rfl rfl (Or.inr rfl)
    · exact hi.frame h { hi.messages with } rfl rfl rfl (Or.inl rfl)
  · cases hstep

theorem cancelLoop_oneWay {s t : Process S M D} (hi : OneWay h s)
    (hstep : cancelLoop s = some t) : OneWay h t ∧ GoesOn h s t := by
  unfold cancelLoop at hstep
  split at hstep
  · cases hstep
    exact hi.frame h { hi.messages with } rfl rfl rfl (Or.inr rfl)
  · cases hstep

/-! ### The tasks beside the loop -/

theorem answered_messages {s t : Process S M D}
    {result : Except WebAuthnError AuthenticatorResponse} (hm : Messages h s)
    (hstep : answered h c s result = some t) : Messages h t := by
  unfold answered at hstep
  split at hstep
  · split at hstep
    · split at hstep
      · cases hstep
        exact hm
      · split at hstep
        · rename_i r _ _
          cases hstep
          refine { hm with sending := fun x hx => ?_ }
          cases hx
          exact Or.inr (Or.inl ⟨r, rfl⟩)
        · rename_i err _ _
          cases hstep
          refine { hm with sending := fun x hx => ?_ }
          cases hx
          exact Or.inl ⟨_, rfl⟩
    · cases hstep
  · cases hstep

theorem respond_messages {s t : Process S M D} (hm : Messages h s) (hstep : respond s = some t) :
    Messages h t := by
  unfold respond at hstep
  split at hstep
  · rename_i response hevents
    split at hstep
    · split at hstep
      · cases hstep
        refine { hm with signals := fun x hx => ?_, sending := nofun }
        rcases List.mem_append.mp hx with hold | hnew
        · exact hm.signals x hold
        · rw [List.mem_singleton.mp hnew]
          exact hm.sending response hevents
      · cases hstep
    · cases hstep
      exact { hm with sending := nofun }
  · cases hstep

theorem recvUpdate_messages {s t : Process S M D} (hm : Messages h s)
    (hstep : recvUpdate h s = some t) : Messages h t := by
  unfold recvUpdate at hstep
  split at hstep
  · obtain ⟨⟨r, ux⟩, -, rfl⟩ := Option.map_eq_some_iff.mp hstep
    cases r with
    | error err => exact { hm with relaying := nofun }
    | ok u =>
      simp only
      split
      · unfold handleUpdate
        split
        · rename_i msg hmsg
          refine { hm with relaying := fun m pinTx he => ?_ }
          injection he with hmsg' _
          rw [← hmsg']
          exact ⟨_, u, hmsg⟩
        · exact { hm with }
      · exact { hm with relaying := nofun }
  · cases hstep

theorem relay_messages {s t : Process S M D} (hm : Messages h s) (hstep : relay s = some t) :
    Messages h t := by
  unfold relay at hstep
  split at hstep
  · rename_i msg pinTx hupdates
    have hu := hm.relaying msg pinTx hupdates
    have hdone : ∀ m pin, UpdatesTask.relayed pinTx = .relaying m pin → IsUpdate h m :=
      fun m pin he => absurd he (relayed_ne_relaying pinTx m pin)
    split at hstep
    · split at hstep
      · cases hstep
        refine { hm with signals := fun x hx => ?_, relaying := hdone }
        rcases List.mem_append.mp hx with hold | hnew
        · exact hm.signals x hold
        · rw [List.mem_singleton.mp hnew]
          exact isUpdate_isMessage h hu
      · cases hstep
    · cases hstep
      exact { hm with relaying := hdone }
  · cases hstep

theorem opened_messages {s t : Process S M D} {ok : Bool} (hm : Messages h s)
    (hstep : opened s ok = some t) : Messages h t := by
  unfold opened at hstep
  split at hstep
  · split at hstep
    · cases hstep
      exact { hm with
        sending := fun x hx => by cases hx
        relaying := fun msg pinTx hr => by cases hr }
    · cases hstep
      exact { hm with sending := fun x hx => by cases hx }
  · cases hstep

theorem cancelEvents_messages {s t : Process S M D} (hm : Messages h s)
    (hstep : cancelEvents s = some t) : Messages h t := by
  unfold cancelEvents at hstep
  split at hstep
  · split at hstep
    · cases hstep
      refine { hm with sending := fun x hx => ?_ }
      cases hx
      exact Or.inl ⟨_, rfl⟩
    · cases hstep
  · cases hstep

theorem pin_messages {s t : Process S M D} {reply : Option String} (hm : Messages h s)
    (hstep : pin h s reply = some t) : Messages h t := by
  unfold pin at hstep
  split at hstep
  · split at hstep
    · split at hstep
      · cases hstep
        exact { hm with relaying := fun msg pinTx hr => by cases hr }
      · cases hstep
    · split at hstep
      · cases hstep
      · cases hstep
        exact { hm with relaying := fun msg pinTx hr => by cases hr }
  · cases hstep

theorem task_messages {s t : Process S M D} {l : Label F} (hl : l.isLoop = false)
    (hm : Messages h s) (hstep : step h c s l = some t) : Messages h t := by
  cases l with
  | opened ok => exact opened_messages h hm hstep
  | answered result => exact answered_messages h c hm hstep
  | respond => exact respond_messages h hm hstep
  | cancelEvents => exact cancelEvents_messages h hm hstep
  | recvUpdate => exact recvUpdate_messages h hm hstep
  | relay => exact relay_messages h hm hstep
  | pin reply => exact pin_messages h hm hstep
  | update u =>
    simp only [step, update] at hstep
    split at hstep
    · cases hstep
      exact { hm with }
    · cases hstep
  | take =>
    simp only [step, take] at hstep
    split at hstep
    · cases hstep
      exact { hm with }
    · cases hstep
  | selectCredential id =>
    simp only [step, selectCredential] at hstep
    split at hstep
    · split at hstep
      · cases hstep
        exact { hm with }
      · cases hstep
    · cases hstep
  | cancel =>
    cases hstep
    exact { hm with }
  | dropConsumer =>
    cases hstep
    exact { hm with }
  | listed result => cases hl
  | slept => cases hl
  | select l => cases hl
  | selected => cases hl
  | interact => cases hl
  | choose => cases hl
  | emit => cases hl
  | cancelLoop => cases hl

/-! ### Steps and runs -/

theorem step_oneWay {s t : Process S M D} {l : Label F} (hi : OneWay h s)
    (hstep : step h c s l = some t) : OneWay h t ∧ GoesOn h s t := by
  by_cases hloop : l.isLoop = true
  · cases loop_moves h c hloop hstep with
    | sleeps => exact listed_oneWay h hi hstep
    | listed => exact listed_oneWay h hi hstep
    | slept hp =>
      exact settle_oneWay h hi.messages hi.order (next_of_early h _ (hi.early_of_sleeping h hp))
    | select hselect => exact select_oneWay h hi hselect
    | selected hp _ =>
      exact settle_oneWay h (s := { s with selection := s.selection.leave }) { hi.messages with }
        { hi.order with } (next_of_early h _ (hi.early_of_selecting h hp))
    | interact hp hsignals => exact interact_oneWay h hi hp hsignals
    | choose hp _ => exact choose_oneWay h hi hp _ _
    | emitted => exact emit_oneWay h hi hstep
    | closed => exact emit_oneWay h hi hstep
    | cancelled hcancel => exact cancelLoop_oneWay h hi hcancel
  · have htask : l.isLoop = false := by simpa using hloop
    have hsame := step_same h c htask hstep
    exact hi.frame h (task_messages h c htask hi.messages hstep) hsame.state hsame.sent
      hsame.spawned (Or.inl hsame.pending)

theorem init_oneWay : OneWay h (init h : Process S M D) where
  messages := ⟨nofun, nofun, nofun⟩
  order := ⟨List.Pairwise.nil, nofun, fun _ => rfl, Nat.zero_le _⟩
  stands := h.phase_idle

theorem run_oneWay {s t : Process S M D} (hi : OneWay h s)
    (hrun : Machine.Reaches (step h c) s t) : OneWay h t ∧ GoesOn h s t := by
  refine Machine.reaches_invariant (I := fun u => OneWay h u ∧ GoesOn h s u)
    (fun u l v hu hstep => ?_) ⟨hi, Or.inl rfl⟩ hrun
  obtain ⟨hv, hgoes⟩ := step_oneWay h c hu.1 hstep
  exact ⟨hv, hu.2.trans h hgoes⟩

/-- What holds between a state of the process and a later one. -/
structure GoesOneWay (s t : Process S M D) : Prop where
  connected : h.phase s.state = .connected →
    t.state = s.state ∨ (h.phase t.state).isOperating = true
  operating : (h.phase s.state).isOperating = true → (h.phase t.state).isOperating = true
  selectCredential : ∀ response, h.phase s.state = .selectCredential response →
    t.state = s.state ∨ (h.phase t.state).isTerminal = true
  spawned : t.spawned ≤ 1
  terminalLast : ∀ before st after, t.sent = before ++ st :: after →
    (h.phase st).isTerminal = true → after = []

theorem terminal_last {s : Process S M D} (hi : OneWay h s) (before : List S) (st : S)
    (after : List S) (hsent : s.sent = before ++ st :: after)
    (hterminal : (h.phase st).isTerminal = true) : after = [] := by
  have hpairs := hi.order.sent
  rw [hsent] at hpairs
  have hrest := (List.pairwise_cons.mp (List.pairwise_append.mp hpairs).2.1).1
  cases after with
  | nil => rfl
  | cons x rest =>
    have hfollows : (h.phase st).allows (h.phase x) = true := hrest x (List.mem_cons_self ..)
    rw [Phase.isTerminal_allows hterminal] at hfollows
    cases hfollows

theorem reaches_goesOneWay {s t : Process S M D} (hs : Machine.Reaches (step h c) (init h) s)
    (ht : Machine.Reaches (step h c) s t) : GoesOneWay h s t := by
  have hi := (run_oneWay h c (init_oneWay h) hs).1
  obtain ⟨hi', hgoes⟩ := run_oneWay h c hi ht
  refine ⟨fun hp => ?_, fun hop => ?_, fun response hp => ?_, hi'.order.once, terminal_last h hi'⟩
  · rcases hgoes with hstay | hfollows
    · exact Or.inl hstay
    · unfold Follows at hfollows
      rw [hp] at hfollows
      exact Or.inr hfollows
  · rcases hgoes with hstay | hfollows
    · rw [hstay]
      exact hop
    · refine Phase.allows_isOperating hfollows ?_
      revert hop
      cases h.phase s.state <;> simp [Phase.isOperating, Phase.isEarly]
  · rcases hgoes with hstay | hfollows
    · exact Or.inl hstay
    · unfold Follows at hfollows
      rw [hp] at hfollows
      exact Or.inr hfollows

end Process

/-- Over every run of the USB and of the NFC handler: a connected device stays the one until the
operation on it goes on, which is never left again and started once; a choice of credential is left
for the end only; and nothing is sent after a terminal state. -/
theorem processes_go_one_way (credHash : Bytes → String) (c : Ceremony) :
    (∀ s t, Machine.Reaches (Process.step (Usb.handler credHash) c)
        (Process.init (Usb.handler credHash)) s →
      Machine.Reaches (Process.step (Usb.handler credHash) c) s t →
      Process.GoesOneWay (Usb.handler credHash) s t) ∧
    (∀ s t, Machine.Reaches (Process.step (Nfc.handler credHash) c)
        (Process.init (Nfc.handler credHash)) s →
      Machine.Reaches (Process.step (Nfc.handler credHash) c) s t →
      Process.GoesOneWay (Nfc.handler credHash) s t) :=
  ⟨fun _ _ => Process.reaches_goesOneWay (Usb.handler credHash) c,
    fun _ _ => Process.reaches_goesOneWay (Nfc.handler credHash) c⟩

def usbAfterSelected : List (Process.Label (List HidDevice)) :=
  [.opened true, .answered (.ok (.credentialsAsserted ⟨[sampleAssertion]⟩)), .respond, .interact,
    .emit]

def nfcAfterConnected : List (Process.Label (Option NfcDevice)) :=
  [.opened true, .answered (.ok (.credentialsAsserted ⟨[sampleAssertion]⟩)), .respond, .interact,
    .emit]

/-- A device of each kind, from its connection to its answer. -/
theorem processes_go_one_way_sample :
    (∃ s t, (Usb.handler fun _ => "").phase s.state = .connected ∧
      (Usb.handler fun _ => "").phase t.state = .completed ∧
      Process.GoesOneWay (Usb.handler fun _ => "") s t) ∧
    (∃ s t, (Nfc.handler fun _ => "").phase s.state = .connected ∧
      (Nfc.handler fun _ => "").phase t.state = .completed ∧
      Process.GoesOneWay (Nfc.handler fun _ => "") s t) := by
  obtain ⟨husb, hnfc⟩ := processes_go_one_way (fun _ => "") sampleCeremony
  exact ⟨⟨_, _, rfl, rfl, husb _ _ ⟨usbSelected, rfl⟩ ⟨usbAfterSelected, rfl⟩⟩,
    ⟨_, _, rfl, rfl,
      hnfc _ _ ⟨[.listed (.ok (some ⟨"tag"⟩)), .emit], rfl⟩ ⟨nfcAfterConnected, rfl⟩⟩⟩

end Credentialsd
