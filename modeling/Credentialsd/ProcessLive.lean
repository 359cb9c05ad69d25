import Credentialsd.Process

/-!
# The loop never waits for itself

Once a device is connected, the loop waits on the signal channel, of which it
keeps a sender: a task that ends without a message leaves it waiting for good.
The invariant `Live` says that a result is on its way whenever the loop waits for
one. Only a channel to the device that cannot be opened breaks it.
-/

namespace Credentialsd

namespace Process

variable {S M D F : Type} (h : Handler S M D F) (c : Ceremony)

/-! ### Stuck -/

def TerminalSent (s : Process S M D) : Prop := ∃ st ∈ s.sent, (h.phase st).isTerminal = true

structure AllFinished (s : Process S M D) : Prop where
  loop : s.pending.alive = false
  events : s.events.finished = true
  updates : s.updates.finished = true
  devices : ∀ t ∈ s.selection.tasks, t.stage.running = false

/-- The loop awaits a message that only it could send. While it selects a device it holds no sender
of the channels that it waits on. -/
def WaitsForItself (s : Process S M D) : Prop :=
  match s.pending with
  | .interacting => s.signals = [] ∧ s.events.holdsSender = false ∧ s.updates.holdsSender = false
  | .choosing _ => s.creds = []
  | _ => False

/-- A prompt that the stream has got awaits a reply. -/
def PromptOpen (s : Process S M D) : Prop :=
  (∃ pinTx, s.updates = .awaitingPin pinTx) ∨
  ∃ response, s.pending = .choosing response ∧
    ∃ st ∈ s.sent, h.phase st = .selectCredential response

def CallOutstanding (s : Process S M D) : Prop :=
  s.pending = .listing ∨ s.events = .opening ∨ s.events = .operating ∨
  ∃ t ∈ s.selection.tasks, t.stage = .opening ∨ t.stage = .blinking

/-- Nothing is left to happen, and the stream has not been told the end. -/
def Stuck (s : Process S M D) : Prop :=
  ¬ TerminalSent h s ∧
    (AllFinished s ∨ WaitsForItself s ∧ ¬ PromptOpen h s ∧ ¬ CallOutstanding s)

/-- A loop that waits for `handle_events` after that ended, with no message on its way. -/
theorem stuck_of_forsaken {s : Process S M D} (hloop : s.pending = .interacting)
    (hsignals : s.signals = []) (hevents : s.events = .ended) (hupdates : s.updates = .notSpawned)
    (hdevices : s.selection.tasks.all (fun t => !t.stage.running) = true)
    (hsent : s.sent.all (fun st => !(h.phase st).isTerminal) = true) : Stuck h s := by
  refine ⟨?_, Or.inr ⟨?_, ?_, ?_⟩⟩
  · rintro ⟨st, hst, hterm⟩
    have hno := List.all_eq_true.mp hsent st hst
    rw [hterm] at hno
    cases hno
  · rw [WaitsForItself, hloop, hevents, hupdates]
    exact ⟨hsignals, rfl, rfl⟩
  · rintro (⟨pinTx, hpin⟩ | ⟨response, hchoosing, -⟩)
    · rw [hupdates] at hpin
      cases hpin
    · rw [hloop] at hchoosing
      cases hchoosing
  · rintro (hlisting | hopening | hoperating | ⟨t, ht, hstage⟩)
    · rw [hloop] at hlisting
      cases hlisting
    · rw [hevents] at hopening
      cases hopening
    · rw [hevents] at hoperating
      cases hoperating
    · have hno := List.all_eq_true.mp hdevices t ht
      rcases hstage with hstage | hstage <;> rw [hstage] at hno <;> cases hno

/-! ### The invariant -/

def IsUpdate (msg : M) : Prop := ∃ pinTx u, h.handleUpdate pinTx u = some msg

/- What `handle_events` sends when it was not cancelled. -/
def IsResult (x : Except CredentialServiceError M) : Prop :=
  (∃ r, x = .ok (h.receivedCredentials r)) ∨ ∃ err, x = .error err ∧ err ≠ .requestCancelled

/-- A result is in the signal channel or `handle_events` is about to find one. -/
def ResultComes (s : Process S M D) : Prop :=
  s.events.holdsSender = true ∨ ∃ x ∈ s.signals, IsResult h x

/-- Everything that is or will be in the signal channel is an update or a result, and the request is
neither cancelled nor abandoned. -/
structure Core (s : Process S M D) : Prop where
  signals : ∀ x ∈ s.signals, IsResult h x ∨ ∃ msg, x = .ok msg ∧ IsUpdate h msg
  sending : ∀ x, s.events = .sending x → IsResult h x
  relaying : ∀ msg pinTx, s.updates = .relaying msg pinTx → IsUpdate h msg
  selection : s.selection.Inv
  notCancelled : ¬ s.selection.WasCancelled
  cancelled : s.cancelled = false
  consumer : s.consumer = true

def Waits (s : Process S M D) : Prop :=
  match s.pending with
  | .listing => h.phase s.state = .idleWaiting
  | .sleeping next => h.phase s.state = .idleWaiting ∧ ∃ st, next = .ok st ∧ h.Listed st
  | .selecting => ∃ ds, h.phase s.state = .selectingDevice ds
  | .interacting =>
    (h.phase s.state = .connected ∨ h.phase s.state = .interaction) ∧ ResultComes h s
  | .choosing response => h.phase s.state = .selectCredential response ∧ s.state ∈ s.sent
  | .emitting => h.phase s.state ≠ .selectingDevice [] ∧
    (h.phase s.state = .interaction → ResultComes h s)
  | .done _ => TerminalSent h s
  | .panicked => False

structure Live (s : Process S M D) : Prop extends Core h s where
  waits : Waits h s

theorem Live.not_stuck {s : Process S M D} (hl : Live h s) : ¬ Stuck h s := by
  rintro ⟨hterm, hfin | ⟨hself, hprompt, -⟩⟩
  · have hw := hl.waits
    have halive := hfin.loop
    unfold Waits at hw
    split at hw <;> first | exact hterm hw | exact hw | skip
    all_goals rename_i hp; rw [hp] at halive; cases halive
  · have hw := hl.waits
    unfold WaitsForItself at hself
    split at hself
    · rename_i hp
      obtain ⟨hsignals, hevents, -⟩ := hself
      rw [Waits, hp] at hw
      rcases hw.2 with hyes | ⟨x, hx, -⟩
      · rw [hevents] at hyes
        cases hyes
      · rw [hsignals] at hx
        cases hx
    · rename_i response hp
      rw [Waits, hp] at hw
      exact hprompt (Or.inr ⟨response, hp, s.state, hw.2, hw.1⟩)
    · exact hself

/-! ### The loop -/

theorem again_live {s : Process S M D} (hc : Core h s)
    (hdevices : h.phase s.state ≠ .selectingDevice [])
    (hresult : h.phase s.state = .interaction → ResultComes h s)
    (hterm : (h.phase s.state).isTerminal = true → TerminalSent h s)
    (hselect : ∀ r, h.phase s.state = .selectCredential r → s.state ∈ s.sent) :
    Live h (again h s) := by
  unfold again
  split
  · rename_i hp
    exact ⟨{ hc with }, hterm (by rw [hp]; rfl)⟩
  · rename_i err hp
    exact ⟨{ hc with }, hterm (by rw [hp]; rfl)⟩
  · rename_i hp
    exact ⟨{ hc with }, hp⟩
  · rename_i hp
    exact absurd hp hdevices
  · rename_i d ds hp
    exact ⟨{ hc with selection := Selection.inv_start (d :: ds), notCancelled := nofun }, ⟨_, hp⟩⟩
  · rename_i hp
    exact ⟨{ hc with sending := nofun }, Or.inl hp, Or.inl rfl⟩
  · rename_i hp
    exact ⟨{ hc with }, Or.inr hp, hresult hp⟩
  · rename_i response hp
    exact ⟨{ hc with }, hp, hselect response hp⟩

structure Founded (s : Process S M D) (st : S) : Prop where
  devices : h.phase st ≠ .selectingDevice []
  result : h.phase st = .interaction → ResultComes h s
  -- Not terminal before; and a choice of credential is asked for once.
  terminal : (h.phase s.state).isTerminal = false
  select : ∀ r, h.phase st = .selectCredential r → ∀ r', h.phase s.state ≠ .selectCredential r'

theorem enter_live {s : Process S M D} {st : S} (hc : Core h s) (hf : Founded h s st) :
    Live h (enter h s st) := by
  unfold enter
  split
  · exact ⟨{ hc with }, hf.devices, hf.result⟩
  · rename_i hch
    have hsame := h.changed_phase st s.state (by simpa using hch)
    have hterminal := hf.terminal
    refine again_live h (s := { s with state := st }) { hc with } hf.devices hf.result ?_ ?_
    · intro hyes
      exfalso
      revert hsame hterminal hyes
      cases h.phase st <;> cases h.phase s.state <;> simp [Phase.isTerminal, Phase.ctorIdx]
    · intro r hr
      exfalso
      have hnot := hf.select r hr
      rw [show h.phase st = .selectCredential r from hr] at hsame
      revert hsame hnot
      cases h.phase s.state <;> simp [Phase.ctorIdx]

theorem settle_live {s : Process S M D} {next : Except CredentialServiceError S} (hc : Core h s)
    (hterminal : (h.phase s.state).isTerminal = false)
    (hok : ∀ st, next = .ok st → Founded h s st)
    (herr : ∀ err, next = .error err → err ≠ .requestCancelled) : Live h (settle h s next) := by
  unfold settle
  split
  · exact absurd rfl (herr _ rfl)
  · rename_i err _
    have hfailed := h.phase_failed err
    refine enter_live h hc ⟨?_, ?_, hterminal, ?_⟩ <;> rw [hfailed] <;> exact nofun
  · rename_i st
    exact enter_live h hc (hok st rfl)

theorem founded_of_listed {s : Process S M D} {st : S} (ha : h.Listed st)
    (hterminal : (h.phase s.state).isTerminal = false) : Founded h s st := by
  rcases ha with hp | hp | ⟨ds, hne, hp⟩
  · exact ⟨by rw [hp]; nofun, by rw [hp]; nofun, hterminal, by rw [hp]; nofun⟩
  · exact ⟨by rw [hp]; nofun, by rw [hp]; nofun, hterminal, by rw [hp]; nofun⟩
  · refine ⟨?_, by rw [hp]; nofun, hterminal, by rw [hp]; nofun⟩
    rw [hp]
    intro he
    injection he with hnil
    exact hne hnil

theorem listed_live {s t : Process S M D} {result : Except String F} (hl : Live h s)
    (hstep : listed h s result = some t) : Live h t := by
  unfold listed at hstep
  split at hstep
  · rename_i hp
    have hidle : h.phase s.state = .idleWaiting := by simpa only [Waits, hp] using hl.waits
    have hterminal : (h.phase s.state).isTerminal = false := by rw [hidle]; rfl
    have hnext := h.processIdleWaiting_next s.failures s.state result hidle
    simp only at hstep
    split at hstep
    · rename_i hsleeps
      cases hstep
      rcases hnext with ⟨st, hst, hlisted⟩ | ⟨hno, -⟩
      · exact ⟨{ hl.toCore with }, hidle, st, hst, hlisted⟩
      · rw [hno] at hsleeps
        cases hsleeps
    · cases hstep
      refine settle_live h { hl.toCore with } hterminal (fun st hst => ?_) fun err herr => ?_
      · rcases hnext with ⟨st', hst', hlisted⟩ | ⟨-, err, herr, -⟩
        · rw [hst] at hst'
          cases hst'
          exact founded_of_listed h hlisted hterminal
        · rw [hst] at herr
          cases herr
      · rcases hnext with ⟨st, hst, -⟩ | ⟨-, err', herr', hne⟩
        · rw [herr] at hst
          cases hst
        · rw [herr] at herr'
          cases herr'
          exact hne
  · cases hstep

theorem slept_live {s t : Process S M D} (hl : Live h s) (hstep : slept h s = some t) :
    Live h t := by
  unfold slept at hstep
  split at hstep
  · rename_i next hp
    cases hstep
    have hw := hl.waits
    rw [Waits, hp] at hw
    obtain ⟨hidle, st, rfl, hafter⟩ := hw
    have hterminal : (h.phase s.state).isTerminal = false := by rw [hidle]; rfl
    refine settle_live h hl.toCore hterminal (fun st' hst => ?_) nofun
    cases hst
    exact founded_of_listed h hafter hterminal
  · cases hstep

theorem Live.frame {s t : Process S M D} (hl : Live h s) (hpending : t.pending = s.pending)
    (hstate : t.state = s.state) (hsent : t.sent = s.sent) (hc : Core h t)
    (hresult : ResultComes h s → ResultComes h t) : Live h t := by
  refine ⟨hc, ?_⟩
  have hw := hl.waits
  unfold Waits TerminalSent at hw ⊢
  rw [hpending, hstate, hsent]
  split at hw
  · exact hw
  · exact hw
  · exact hw
  · exact ⟨hw.1, hresult hw.2⟩
  · exact hw
  · exact ⟨hw.1, fun hp => hresult (hw.2 hp)⟩
  · exact hw
  · exact hw

theorem select_live {s t : Process S M D} {l : Selection.Label} (hl : Live h s)
    (hstep : select s l = some t) : Live h t := by
  obtain ⟨sel, henabled, hsel, hinv, rfl⟩ := select_goes hl.selection hstep
  have hnot : ¬ sel.WasCancelled := by
    intro hyes
    rcases Selection.step_wasCancelled hsel hyes with hold | rfl
    · exact hl.notCancelled hold
    · rw [selectEnabled, hl.cancelled, Bool.and_false] at henabled
      cases henabled
  exact hl.frame h rfl rfl rfl { hl.toCore with selection := hinv, notCancelled := hnot } id

theorem selected_live {s t : Process S M D} (hl : Live h s) (hstep : selected h s = some t) :
    Live h t := by
  unfold selected at hstep
  split at hstep
  · rename_i hp
    obtain ⟨outcome, hres, rfl⟩ := Option.map_eq_some_iff.mp hstep
    have hw := hl.waits
    rw [Waits, hp] at hw
    obtain ⟨ds, hds⟩ := hw
    have hterminal : (h.phase s.state).isTerminal = false := by rw [hds]; rfl
    have hloop : s.selection.loop = .stopping [] outcome := by
      unfold Selection.result at hres
      split at hres
      · cases hres
        assumption
      · cases hres
    have hc : Core h { s with selection := s.selection.leave } :=
      { hl.toCore with selection := Selection.leave_inv hl.selection, notCancelled := nofun }
    have hlisted : ∀ st, ofOutcome h outcome = .ok st → h.Listed st := by
      intro st hst
      cases outcome with
      | idle =>
        cases hst
        exact Or.inl h.phase_idle
      | selected device =>
        cases hst
        exact Or.inr (Or.inl (h.phase_connected device))
      | cancelled => cases hst
    refine settle_live h hc hterminal
      (fun st hst => founded_of_listed h (hlisted st hst) hterminal) fun err herr => ?_
    cases outcome with
    | idle => cases herr
    | selected device => cases herr
    | cancelled => exact absurd ⟨[], hloop⟩ hl.notCancelled
  · cases hstep

/- An update is not a result: the loop goes on after it. -/
theorem isUpdate_not_result {msg : M} (hu : IsUpdate h msg) : ¬ IsResult h (.ok msg) := by
  obtain ⟨pinTx, u, hu⟩ := hu
  rintro (⟨r, hr⟩ | ⟨err, herr, -⟩)
  · injection hr with hr
    obtain ⟨st, hst, hp⟩ := h.interact_update credTx pinTx u msg hu
    obtain ⟨st', hst', hp'⟩ := h.interact_received credTx r
    rw [← hr, hst] at hst'
    injection hst' with he
    rw [← he, hp] at hp'
    rcases hp' with hno | ⟨resp, hno⟩
    · cases hno
    · cases hno
  · cases herr

theorem interact_live {s t : Process S M D} (hl : Live h s) (hstep : interact h s = some t) :
    Live h t := by
  unfold interact at hstep
  split at hstep
  · rename_i msg rest hp hsignals
    cases hstep
    have hw := hl.waits
    rw [Waits, hp] at hw
    obtain ⟨hphase, hresult⟩ := hw
    have hterminal : (h.phase s.state).isTerminal = false := by
      rcases hphase with hp | hp <;> rw [hp] <;> rfl
    have hselect : ∀ r, h.phase s.state ≠ .selectCredential r := by
      intro r
      rcases hphase with hp | hp <;> rw [hp] <;> exact nofun
    have hc : Core h { s with signals := rest } :=
      { hl.toCore with signals := fun x hx => hl.signals x (by
          rw [hsignals]
          exact List.mem_cons_of_mem _ hx) }
    rcases hl.signals msg (by rw [hsignals]; exact List.mem_cons_self ..) with
      (⟨r, rfl⟩ | ⟨err, rfl, hne⟩) | ⟨msg, rfl, hu⟩
    · -- the credential: completed, or a choice of the user
      obtain ⟨st, hst, hst'⟩ := h.interact_received credTx r
      rw [hst]
      refine settle_live h hc hterminal (fun st' he => ?_) nofun
      cases he
      rcases hst' with hp' | ⟨resp, hp'⟩
      · exact ⟨by rw [hp']; nofun, by rw [hp']; nofun, hterminal, by rw [hp']; nofun⟩
      · exact ⟨by rw [hp']; nofun, by rw [hp']; nofun, hterminal, fun r _ r' => hselect r'⟩
    · rw [h.interact_error]
      refine settle_live h hc hterminal nofun fun err' he => ?_
      cases he
      exact hne
    · -- an update: the result is still to come
      obtain ⟨pinTx, u, hmsg⟩ := hu
      obtain ⟨st, hst, hp'⟩ := h.interact_update credTx pinTx u msg hmsg
      rw [hst]
      refine settle_live h hc hterminal (fun st' he => ?_) nofun
      cases he
      refine ⟨by rw [hp']; nofun, fun _ => ?_, hterminal, by rw [hp']; nofun⟩
      rcases hresult with hyes | ⟨x, hx, hres⟩
      · exact Or.inl hyes
      · rw [hsignals] at hx
        rcases List.mem_cons.mp hx with rfl | hrest
        · exact absurd hres (isUpdate_not_result h ⟨pinTx, u, hmsg⟩)
        · exact Or.inr ⟨x, hrest, hres⟩
  · cases hstep

theorem choose_live {s t : Process S M D} (hl : Live h s) (hstep : choose h s = some t) :
    Live h t := by
  unfold choose at hstep
  split at hstep
  · rename_i response id rest hp hcreds
    cases hstep
    have hw := hl.waits
    rw [Waits, hp] at hw
    have hterminal : (h.phase s.state).isTerminal = false := by rw [hw.1]; rfl
    refine settle_live h { hl.toCore with } hterminal (fun st hst => ?_) fun err herr => ?_
    · rcases h.select_cases response (some id) with ⟨st', hst', hp'⟩ | ⟨err, herr, -⟩
      · rw [hst] at hst'
        cases hst'
        exact ⟨by rw [hp']; nofun, by rw [hp']; nofun, hterminal, by rw [hp']; nofun⟩
      · rw [hst] at herr
        cases herr
    · rcases h.select_cases response (some id) with ⟨st', hst', -⟩ | ⟨err', herr', hne⟩
      · rw [herr] at hst'
        cases hst'
      · rw [herr] at herr'
        cases herr'
        exact hne
  · cases hstep

theorem emit_live {s t : Process S M D} (hl : Live h s) (hstep : emit h s = some t) :
    Live h t := by
  unfold emit at hstep
  split at hstep
  · rename_i hp
    rw [if_pos hl.consumer] at hstep
    split at hstep
    · cases hstep
      have hw := hl.waits
      rw [Waits, hp] at hw
      have hmem : s.state ∈ s.sent ++ [s.state] :=
        List.mem_append_right _ (List.mem_singleton.mpr rfl)
      exact again_live h (s := { s with sent := s.sent ++ [s.state] }) { hl.toCore with }
        hw.1 hw.2 (fun hterm => ⟨s.state, hmem, hterm⟩) fun _ _ => hmem
    · cases hstep
  · cases hstep

/-! ### The tasks beside the loop -/

theorem opened_live {s t : Process S M D} (hl : Live h s) (hstep : opened s true = some t) :
    Live h t := by
  unfold opened at hstep
  split at hstep
  · cases hstep
    exact hl.frame h rfl rfl rfl { hl.toCore with sending := nofun, relaying := nofun }
      fun _ => Or.inl rfl
  · cases hstep

theorem answered_live {s t : Process S M D} {result : Except WebAuthnError AuthenticatorResponse}
    (hl : Live h s) (hstep : answered h c s result = some t) : Live h t := by
  unfold answered at hstep
  split at hstep
  · split at hstep
    · split at hstep
      · cases hstep
        exact hl
      · split at hstep
        · rename_i r _ _
          cases hstep
          refine hl.frame h rfl rfl rfl { hl.toCore with sending := fun x hx => ?_ }
            fun _ => Or.inl rfl
          cases hx
          exact Or.inl ⟨r, rfl⟩
        · rename_i err _ _
          cases hstep
          refine hl.frame h rfl rfl rfl { hl.toCore with sending := fun x hx => ?_ }
            fun _ => Or.inl rfl
          cases hx
          exact Or.inr ⟨_, rfl, err.toServiceError_ne_cancelled⟩
    · cases hstep
  · cases hstep

theorem respond_live {s t : Process S M D} (hl : Live h s) (hstep : respond s = some t) :
    Live h t := by
  unfold respond at hstep
  split at hstep
  · rename_i response hev
    have hres := hl.sending response hev
    split at hstep
    · split at hstep
      · cases hstep
        have hmem : response ∈ s.signals ++ [response] :=
          List.mem_append_right _ (List.mem_singleton.mpr rfl)
        refine hl.frame h rfl rfl rfl
          { hl.toCore with signals := fun x hx => ?_, sending := nofun }
          fun _ => Or.inr ⟨response, hmem, hres⟩
        rcases List.mem_append.mp hx with hold | hnew
        · exact hl.signals x hold
        · rw [List.mem_singleton.mp hnew]
          exact Or.inl hres
      · cases hstep
    · -- the loop has ended
      rename_i halive
      cases hstep
      have hw := hl.waits
      have hdead : s.pending.alive = false := by simpa using halive
      refine ⟨{ hl.toCore with sending := nofun }, ?_⟩
      revert hw hdead
      unfold Waits
      cases s.pending <;> simp [Pending.alive, TerminalSent]
  · cases hstep

theorem recvUpdate_live {s t : Process S M D} (hl : Live h s) (hstep : recvUpdate h s = some t) :
    Live h t := by
  unfold recvUpdate at hstep
  split at hstep
  · obtain ⟨⟨r, ux⟩, -, rfl⟩ := Option.map_eq_some_iff.mp hstep
    cases r with
    | error err => exact hl.frame h rfl rfl rfl { hl.toCore with relaying := nofun } id
    | ok u =>
      simp only
      split
      · unfold handleUpdate
        split
        · rename_i msg hmsg
          refine hl.frame h rfl rfl rfl { hl.toCore with relaying := fun m pinTx hm => ?_ } id
          injection hm with hmsg' _
          rw [← hmsg']
          exact ⟨_, u, hmsg⟩
        · exact hl.frame h rfl rfl rfl { hl.toCore with } id
      · exact hl.frame h rfl rfl rfl { hl.toCore with relaying := nofun } id
  · cases hstep

theorem relayed_ne_relaying (pinTx : Option ReplyTx) (msg : M) (pin : Option ReplyTx) :
    UpdatesTask.relayed pinTx ≠ .relaying msg pin := by
  cases pinTx <;> exact nofun

theorem relay_live {s t : Process S M D} (hl : Live h s) (hstep : relay s = some t) :
    Live h t := by
  unfold relay at hstep
  split at hstep
  · rename_i msg pinTx hup
    have hu := hl.relaying msg pinTx hup
    have hdone : ∀ m pin, UpdatesTask.relayed pinTx = .relaying m pin → IsUpdate h m :=
      fun m pin hm => absurd hm (relayed_ne_relaying pinTx m pin)
    split at hstep
    · split at hstep
      · cases hstep
        refine hl.frame h rfl rfl rfl
          { hl.toCore with signals := fun x hx => ?_, relaying := hdone } ?_
        · rcases List.mem_append.mp hx with hold | hnew
          · exact hl.signals x hold
          · rw [List.mem_singleton.mp hnew]
            exact Or.inr ⟨msg, rfl, hu⟩
        · rintro (hyes | ⟨x, hx, hres⟩)
          · exact Or.inl hyes
          · exact Or.inr ⟨x, List.mem_append_left _ hx, hres⟩
      · cases hstep
    · cases hstep
      exact hl.frame h rfl rfl rfl { hl.toCore with relaying := hdone } id
  · cases hstep

theorem pin_live {s t : Process S M D} {reply : Option String} (hl : Live h s)
    (hstep : pin h s reply = some t) : Live h t := by
  unfold pin at hstep
  split at hstep
  · split at hstep
    · split at hstep
      · cases hstep
        exact hl.frame h rfl rfl rfl { hl.toCore with relaying := nofun } id
      · cases hstep
    · split at hstep
      · cases hstep
      · cases hstep
        exact hl.frame h rfl rfl rfl { hl.toCore with relaying := nofun } id
  · cases hstep

/-! ### Steps and runs -/

/- The channel to the selected device could not be opened. -/
def Label.failsToOpen : Label F → Bool
  | .opened ok => !ok
  | _ => false

def Label.disturbs : Label F → Bool
  | .cancel => true
  | .dropConsumer => true
  | _ => false

theorem init_live : Live h (init h : Process S M D) where
  signals := nofun
  sending := nofun
  relaying := nofun
  selection := Selection.notStarted_inv
  notCancelled := nofun
  cancelled := rfl
  consumer := rfl
  waits := h.phase_idle

theorem step_live {s t : Process S M D} {l : Label F} (hl : Live h s)
    (hstep : step h c s l = some t) (hgoes : l.disturbs = false) (hopens : l.failsToOpen = false) :
    Live h t := by
  cases l with
  | listed result => exact listed_live h hl hstep
  | slept => exact slept_live h hl hstep
  | select l => exact select_live h hl hstep
  | selected => exact selected_live h hl hstep
  | interact => exact interact_live h hl hstep
  | choose => exact choose_live h hl hstep
  | emit => exact emit_live h hl hstep
  | cancelLoop =>
    simp only [step, cancelLoop, hl.cancelled] at hstep
    cases hstep
  | opened ok =>
    cases ok with
    | true => exact opened_live h hl hstep
    | false => cases hopens
  | answered result => exact answered_live h c hl hstep
  | respond => exact respond_live h hl hstep
  | cancelEvents =>
    simp only [step, cancelEvents, hl.cancelled] at hstep
    split at hstep <;> cases hstep
  | recvUpdate => exact recvUpdate_live h hl hstep
  | relay => exact relay_live h hl hstep
  | pin reply => exact pin_live h hl hstep
  | update u =>
    simp only [step, update] at hstep
    split at hstep
    · cases hstep
      exact hl.frame h rfl rfl rfl { hl.toCore with } id
    · cases hstep
  | take =>
    simp only [step, take] at hstep
    split at hstep
    · cases hstep
      exact hl.frame h rfl rfl rfl { hl.toCore with } id
    · cases hstep
  | selectCredential cred =>
    simp only [step, selectCredential] at hstep
    split at hstep
    · split at hstep
      · cases hstep
        exact hl.frame h rfl rfl rfl { hl.toCore with } fun hr => hr
      · cases hstep
    · cases hstep
  | cancel => cases hgoes
  | dropConsumer => cases hgoes

end Process

end Credentialsd
