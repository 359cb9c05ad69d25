import Credentialsd.ProcessOrder

/-!
# Until the channel to the device is open

A process whose task `handle_events` has not opened the channel has asked the user for
nothing: no message is on its way, no prompt has been sent, and its loop waits in the
connected state for the first message.
-/

namespace Credentialsd

/- A state of this phase may hold the channel of a prompt. -/
def Phase.prompts {D : Type} : Phase D → Bool
  | .interaction => true
  | .selectCredential _ => true
  | _ => false

def Handler.PromptsOnly {S M D F : Type} (h : Handler S M D F) : Prop :=
  ∀ st, (h.phase st).prompts = false → h.replyTx st = none

namespace Process

def EventsTask.unopened {M : Type} : EventsTask M → Bool
  | .notSpawned => true
  | .opening => true
  | _ => false

theorem unopened_channelOpen {M : Type} {e : EventsTask M} (h : e.unopened = true) :
    e.channelOpen = false := by
  cases e <;> first | rfl | cases h

variable {S M D F : Type} (h : Handler S M D F) (c : Ceremony)

/-- Nothing has been asked of the user. -/
structure Quiet (s : Process S M D) : Prop where
  updates : s.updates = .notSpawned
  signals : s.signals = []
  creds : s.creds = []
  ux : s.ux = .subscribe
  nextTx : s.nextTx = credTx + 1
  state : h.replyTx s.state = none
  sent : ∀ x ∈ s.sent, h.replyTx x = none

structure Opening (s : Process S M D) : Prop where
  quiet : s.events.unopened = true → Quiet h s
  spawned : s.spawned = 0 → s.events = .notSpawned
  waits : s.events = .opening → s.pending.alive = true →
    s.pending = .interacting ∧ h.phase s.state = .connected
  selection : s.pending.alive = true → s.pending.selects = false → s.selection.loop = .gone

/-! ### The loop -/

/- What a step of the loop starts from: it does not wait for the channel to be opened, and the
channel is not being opened before a device is connected. -/
structure Moving (s : Process S M D) : Prop where
  quiet : s.events.unopened = true → Quiet h s
  spawned : s.spawned = 0 → s.events = .notSpawned
  notOpening : s.events ≠ .opening
  selection : s.selection.loop = .gone

theorem again_opening {s : Process S M D} (hm : Moving h s)
    (hconnected : h.phase s.state = .connected → s.spawned = 0) : Opening h (again h s) := by
  have hwaits : ∀ {P : Prop}, s.events = .opening → P := fun he => absurd he hm.notOpening
  unfold again
  split
  · exact ⟨fun he => { hm.quiet he with }, hm.spawned, hwaits, nofun⟩
  · exact ⟨fun he => { hm.quiet he with }, hm.spawned, hwaits, nofun⟩
  · exact ⟨fun he => { hm.quiet he with }, hm.spawned, hwaits, fun _ _ => hm.selection⟩
  · exact ⟨fun he => { hm.quiet he with }, hm.spawned, hwaits, nofun⟩
  · exact ⟨fun he => { hm.quiet he with }, hm.spawned, hwaits, nofun⟩
  · rename_i hp
    have hquiet : Quiet h s := hm.quiet (by rw [hm.spawned (hconnected hp)]; rfl)
    refine ⟨fun _ => { hquiet with }, fun hzero => ?_, fun _ _ => ⟨rfl, hp⟩,
      fun _ _ => hm.selection⟩
    have hnonzero : s.spawned + 1 ≠ 0 := Nat.succ_ne_zero _
    exact absurd hzero hnonzero
  · exact ⟨fun he => { hm.quiet he with }, hm.spawned, hwaits, fun _ _ => hm.selection⟩
  · exact ⟨fun he => { hm.quiet he with }, hm.spawned, hwaits, fun _ _ => hm.selection⟩

theorem enter_opening {s : Process S M D} {st : S} (hm : Moving h s)
    (hst : s.events.unopened = true → h.replyTx st = none)
    (hconnected : h.phase st = .connected → s.spawned = 0) : Opening h (enter h s st) := by
  unfold enter
  split
  · exact ⟨fun he => { hm.quiet he with state := hst he }, hm.spawned,
      fun he => absurd he hm.notOpening, fun _ _ => hm.selection⟩
  · exact again_opening h (s := { s with state := st })
      { hm with quiet := fun he => { hm.quiet he with state := hst he } } hconnected

theorem settle_opening (hprompts : h.PromptsOnly) {s : Process S M D}
    {next : Except CredentialServiceError S} (hm : Moving h s)
    (hok : ∀ st, next = .ok st → (s.events.unopened = true → h.replyTx st = none) ∧
      (h.phase st = .connected → s.spawned = 0)) : Opening h (settle h s next) := by
  unfold settle
  split
  · exact ⟨fun he => { hm.quiet he with }, hm.spawned, fun he => absurd he hm.notOpening, nofun⟩
  · rename_i err _
    have hfailed := h.phase_failed err
    refine enter_opening h hm (fun _ => hprompts _ ?_) ?_
    · rw [hfailed]
      rfl
    · rw [hfailed]
      exact nofun
  · rename_i st
    obtain ⟨hst, hconnected⟩ := hok st rfl
    exact enter_opening h hm hst hconnected

/- The loop of an early state. -/
theorem moving_of_early {s : Process S M D} (ho : OneWay h s) (hi : Opening h s)
    (hearly : (h.phase s.state).isEarly = true) (hselection : s.selection.loop = .gone) :
    Moving h s where
  quiet := hi.quiet
  spawned := hi.spawned
  notOpening he := by
    rw [hi.spawned (ho.order.early hearly)] at he
    cases he
  selection := hselection

theorem moving_of_opened {s : Process S M D} (hi : Opening h s)
    (hopened : s.events.unopened = false) (hselection : s.selection.loop = .gone) :
    Moving h s where
  quiet := hi.quiet
  spawned := hi.spawned
  notOpening he := by
    rw [he] at hopened
    cases hopened
  selection := hselection

theorem listed_prompts {st : S} (hl : h.Listed st) : (h.phase st).prompts = false := by
  rcases hl with hp | hp | ⟨ds, -, hp⟩ <;> rw [hp] <;> rfl

theorem listed_opening (hprompts : h.PromptsOnly) {s t : Process S M D}
    {result : Except String F} (ho : OneWay h s) (hi : Opening h s)
    (hstep : listed h s result = some t) : Opening h t := by
  unfold listed at hstep
  split at hstep
  · rename_i hp
    have hidle : h.phase s.state = .idleWaiting := by simpa only [Stands, hp] using ho.stands
    have hearly : (h.phase s.state).isEarly = true := by rw [hidle]; rfl
    have hselection := hi.selection (by rw [hp]; rfl) (by rw [hp]; rfl)
    have hm := moving_of_early h ho hi hearly hselection
    have hzero := ho.order.early hearly
    simp only at hstep
    split at hstep
    · cases hstep
      exact ⟨fun he => { hi.quiet he with }, hi.spawned, fun he => absurd he hm.notOpening,
        fun _ _ => hselection⟩
    · cases hstep
      refine settle_opening h hprompts { hm with quiet := fun he => { hm.quiet he with } }
        fun st hst => ⟨fun _ => hprompts st ?_, fun _ => hzero⟩
      rcases h.processIdleWaiting_next s.failures s.state result hidle with
        ⟨st', hst', hlisted⟩ | ⟨-, err, herr, -⟩
      · rw [hst] at hst'
        cases hst'
        exact listed_prompts h hlisted
      · rw [hst] at herr
        cases herr
  · cases hstep

theorem slept_opening (hprompts : h.PromptsOnly) {s t : Process S M D} (ho : OneWay h s)
    (hi : Opening h s) (hstep : slept h s = some t) : Opening h t := by
  unfold slept at hstep
  split at hstep
  · rename_i next hp
    cases hstep
    have hstands := ho.stands
    rw [Stands, hp] at hstands
    obtain ⟨hidle, st, rfl, hlisted⟩ := hstands
    have hearly : (h.phase s.state).isEarly = true := by rw [hidle]; rfl
    have hselection := hi.selection (by rw [hp]; rfl) (by rw [hp]; rfl)
    refine settle_opening h hprompts (moving_of_early h ho hi hearly hselection) fun st' hst => ?_
    cases hst
    exact ⟨fun _ => hprompts st (listed_prompts h hlisted), fun _ => ho.order.early hearly⟩
  · cases hstep

theorem selected_opening (hprompts : h.PromptsOnly) {s t : Process S M D} (ho : OneWay h s)
    (hi : Opening h s) (hstep : selected h s = some t) : Opening h t := by
  unfold selected at hstep
  split at hstep
  · rename_i hp
    obtain ⟨outcome, -, rfl⟩ := Option.map_eq_some_iff.mp hstep
    have hstands := ho.stands
    rw [Stands, hp] at hstands
    obtain ⟨ds, hds⟩ := hstands
    have hearly : (h.phase s.state).isEarly = true := by rw [hds]; rfl
    have hzero := ho.order.early hearly
    have hnotSpawned := hi.spawned hzero
    have hm : Moving h { s with selection := s.selection.leave } :=
      { quiet := fun he => { hi.quiet he with }
        spawned := hi.spawned
        notOpening := by
          intro he
          rw [show s.events = .opening from he] at hnotSpawned
          cases hnotSpawned
        selection := rfl }
    refine settle_opening h hprompts hm fun st hst => ⟨fun _ => hprompts st ?_, fun _ => hzero⟩
    cases outcome with
    | idle =>
      cases hst
      rw [h.phase_idle]
      rfl
    | selected device =>
      cases hst
      rw [h.phase_connected]
      rfl
    | cancelled => cases hst
  · cases hstep

theorem interact_opening (hprompts : h.PromptsOnly) {s t : Process S M D} (ho : OneWay h s)
    (hi : Opening h s) (hstep : interact h s = some t) : Opening h t := by
  unfold interact at hstep
  split at hstep
  · rename_i msg rest hp hsignals
    cases hstep
    -- a message has come, so the channel has been opened
    have hopened : s.events.unopened = false := by
      refine Bool.eq_false_iff.mpr fun he => ?_
      have hnone := (hi.quiet he).signals
      rw [hsignals] at hnone
      cases hnone
    have hmsg : IsMessage h msg := ho.messages.signals msg (by
      rw [hsignals]
      exact List.mem_cons_self ..)
    have hselection := hi.selection (by rw [hp]; rfl) (by rw [hp]; rfl)
    have hm := moving_of_opened h hi hopened hselection
    have hclosed : ¬ s.events.unopened = true := by simp [hopened]
    have hm' : Moving h { s with signals := rest } :=
      { hm with quiet := fun he => absurd he hclosed }
    refine settle_opening h hprompts hm' fun st hst =>
      ⟨fun he => absurd he hclosed, fun hconnected => ?_⟩
    · have hop := interact_isOperating h hmsg hst
      rw [hconnected] at hop
      cases hop
  · cases hstep

theorem choose_opening (hprompts : h.PromptsOnly) {s t : Process S M D} (hi : Opening h s)
    (hstep : choose h s = some t) : Opening h t := by
  unfold choose at hstep
  split at hstep
  · rename_i response id rest hp hcreds
    cases hstep
    have hopened : s.events.unopened = false := by
      refine Bool.eq_false_iff.mpr fun he => ?_
      have hnone := (hi.quiet he).creds
      rw [hcreds] at hnone
      cases hnone
    have hselection := hi.selection (by rw [hp]; rfl) (by rw [hp]; rfl)
    have hm := moving_of_opened h hi hopened hselection
    have hclosed : ¬ s.events.unopened = true := by simp [hopened]
    have hm' : Moving h { s with creds := rest } :=
      { hm with quiet := fun he => absurd he hclosed }
    refine settle_opening h hprompts hm' fun st hst => ?_
    rcases h.select_cases response (some id) with ⟨st', hst', hcompleted⟩ | ⟨err, herr, -⟩
    · rw [hst] at hst'
      cases hst'
      refine ⟨fun _ => hprompts st ?_, fun hconnected => ?_⟩
      · rw [hcompleted]
        rfl
      · rw [hcompleted] at hconnected
        cases hconnected
    · rw [hst] at herr
      cases herr
  · cases hstep

theorem emit_opening {s t : Process S M D} (ho : OneWay h s) (hi : Opening h s)
    (hstep : emit h s = some t) : Opening h t := by
  unfold emit at hstep
  split at hstep
  · rename_i hp
    have hstands := ho.stands
    rw [Stands, hp] at hstands
    have hnotOpening : s.events ≠ .opening := by
      intro he
      have hwaits := (hi.waits he (by rw [hp]; rfl)).1
      rw [hp] at hwaits
      cases hwaits
    split at hstep
    · split at hstep
      · cases hstep
        refine again_opening h (s := { s with sent := s.sent ++ [s.state] })
          ⟨fun he => ?_, hi.spawned, hnotOpening, hi.selection (by rw [hp]; rfl) (by rw [hp]; rfl)⟩
          hstands.2
        refine { hi.quiet he with sent := fun x hx => ?_ }
        rcases List.mem_append.mp hx with hold | hnew
        · exact (hi.quiet he).sent x hold
        · rw [List.mem_singleton.mp hnew]
          exact (hi.quiet he).state
      · cases hstep
    · cases hstep
      refine ⟨fun he => { hi.quiet he with }, hi.spawned, fun he => absurd he hnotOpening, ?_⟩
      intro halive
      cases halive
  · cases hstep

theorem select_opening {s t : Process S M D} {l : Selection.Label} (hi : Opening h s)
    (hstep : select s l = some t) : Opening h t := by
  unfold select at hstep
  split at hstep
  · rename_i henabled
    obtain ⟨sel, hsel, rfl⟩ := Option.map_eq_some_iff.mp hstep
    split
    · exact ⟨fun he => { hi.quiet he with }, hi.spawned, nofun, nofun⟩
    · refine ⟨fun he => { hi.quiet he with }, hi.spawned, hi.waits, fun halive hno => ?_⟩
      exact Selection.step_gone (hi.selection halive hno) hsel
  · cases hstep

theorem cancelLoop_opening {s t : Process S M D} (hi : Opening h s)
    (hstep : cancelLoop s = some t) : Opening h t := by
  unfold cancelLoop at hstep
  split at hstep
  · cases hstep
    exact ⟨fun he => { hi.quiet he with }, hi.spawned, nofun, nofun⟩
  · cases hstep

/-! ### The tasks beside the loop -/

/- A task moves before or after the opening. -/
theorem Opening.of_same {s t : Process S M D} (hi : Opening h s) (hsame : SameLoop s t)
    (hquiet : t.events.unopened = true → Quiet h t)
    (hspawned : s.events = .notSpawned → t.events = .notSpawned)
    (hopening : t.events = .opening → s.events = .opening) : Opening h t where
  quiet := hquiet
  spawned hzero := hspawned (hi.spawned (by rw [← hsame.spawned, hzero]))
  waits he halive := by
    rw [hsame.pending] at halive ⊢
    rw [hsame.state]
    exact hi.waits (hopening he) halive
  selection halive hno := by
    rw [hsame.pending] at halive hno
    rw [hsame.selection]
    exact hi.selection halive hno

/- `handle_events` moves once it is spawned, and has left the opening then. -/
structure Operates (s t : Process S M D) : Prop where
  spawned : s.events ≠ .notSpawned
  unopened : t.events.unopened = false

theorem Opening.of_operates {s t : Process S M D} (hi : Opening h s) (hsame : SameLoop s t)
    (hop : Operates s t) : Opening h t := by
  refine hi.of_same h hsame ?_ ?_ ?_
  · intro he
    rw [hop.unopened] at he
    cases he
  · intro hn
    exact absurd hn hop.spawned
  · intro he
    have hclosed := hop.unopened
    rw [he] at hclosed
    cases hclosed

theorem opened_operates {s t : Process S M D} {ok : Bool} (hstep : opened s ok = some t) :
    Operates s t := by
  unfold opened at hstep
  split at hstep
  · rename_i he
    have hspawned : s.events ≠ .notSpawned := by simp [he]
    split at hstep
    · cases hstep
      exact ⟨hspawned, rfl⟩
    · cases hstep
      exact ⟨hspawned, rfl⟩
  · cases hstep

theorem answered_operates {s t : Process S M D}
    {result : Except WebAuthnError AuthenticatorResponse}
    (hstep : answered h c s result = some t) : Operates s t := by
  unfold answered at hstep
  split at hstep
  · rename_i he
    have hspawned : s.events ≠ .notSpawned := by simp [he]
    split at hstep
    · split at hstep
      · cases hstep
        exact ⟨hspawned, by rw [he]; rfl⟩
      · split at hstep
        · cases hstep
          exact ⟨hspawned, rfl⟩
        · cases hstep
          exact ⟨hspawned, rfl⟩
    · cases hstep
  · cases hstep

theorem respond_operates {s t : Process S M D} (hstep : respond s = some t) : Operates s t := by
  unfold respond at hstep
  split at hstep
  · rename_i x he
    have hspawned : s.events ≠ .notSpawned := by simp [he]
    split at hstep
    · split at hstep
      · cases hstep
        exact ⟨hspawned, rfl⟩
      · cases hstep
    · cases hstep
      exact ⟨hspawned, rfl⟩
  · cases hstep

theorem cancelEvents_operates {s t : Process S M D} (hstep : cancelEvents s = some t) :
    Operates s t := by
  unfold cancelEvents at hstep
  split at hstep
  · rename_i he
    have hspawned : s.events ≠ .notSpawned := by simp [he]
    split at hstep
    · cases hstep
      exact ⟨hspawned, rfl⟩
    · cases hstep
  · cases hstep

/- The task that relays the updates moves once it is spawned, and `handle_events` does not. -/
structure Relays (s t : Process S M D) : Prop where
  spawned : s.updates ≠ .notSpawned
  events : t.events = s.events

/- It is spawned when the channel is open. -/
theorem Opening.of_relays {s t : Process S M D} (hi : Opening h s) (hsame : SameLoop s t)
    (hr : Relays s t) : Opening h t := by
  refine hi.of_same h hsame ?_ ?_ ?_
  · intro he
    rw [hr.events] at he
    exact absurd (hi.quiet he).updates hr.spawned
  · intro hn
    rw [hr.events, hn]
  · intro he
    rw [← hr.events, he]

theorem recvUpdate_relays {s t : Process S M D} (hstep : recvUpdate h s = some t) :
    Relays s t := by
  unfold recvUpdate at hstep
  split at hstep
  · rename_i hreceiving
    have hspawned : s.updates ≠ .notSpawned := by simp [hreceiving]
    obtain ⟨⟨r, ux⟩, -, rfl⟩ := Option.map_eq_some_iff.mp hstep
    cases r with
    | error err => exact ⟨hspawned, rfl⟩
    | ok u =>
      simp only
      split
      · unfold handleUpdate
        split
        · exact ⟨hspawned, rfl⟩
        · exact ⟨hspawned, rfl⟩
      · exact ⟨hspawned, rfl⟩
  · cases hstep

theorem relay_relays {s t : Process S M D} (hstep : relay s = some t) : Relays s t := by
  unfold relay at hstep
  split at hstep
  · rename_i msg pinTx hrelaying
    have hspawned : s.updates ≠ .notSpawned := by simp [hrelaying]
    split at hstep
    · split at hstep
      · cases hstep
        exact ⟨hspawned, rfl⟩
      · cases hstep
    · cases hstep
      exact ⟨hspawned, rfl⟩
  · cases hstep

theorem pin_relays {s t : Process S M D} {reply : Option String} (hstep : pin h s reply = some t) :
    Relays s t := by
  unfold pin at hstep
  split at hstep
  · rename_i pinTx hawaiting
    have hspawned : s.updates ≠ .notSpawned := by simp [hawaiting]
    split at hstep
    · split at hstep
      · cases hstep
        exact ⟨hspawned, rfl⟩
      · cases hstep
    · split at hstep
      · cases hstep
      · cases hstep
        exact ⟨hspawned, rfl⟩
  · cases hstep

/- The authenticator reports nothing before the channel is open. -/
theorem update_opening {s t : Process S M D} {u : UvUpdate} (hi : Opening h s)
    (hsame : SameLoop s t) (hstep : update c s u = some t) : Opening h t := by
  unfold update at hstep
  split at hstep
  · rename_i hopen
    cases hstep
    refine hi.of_same h hsame ?_ id id
    intro he
    rw [unopened_channelOpen he] at hopen
    cases hopen
  · cases hstep

theorem take_opening {s t : Process S M D} (hi : Opening h s) (hsame : SameLoop s t)
    (hstep : take s = some t) : Opening h t := by
  unfold take at hstep
  split at hstep
  · cases hstep
    exact hi.of_same h hsame (fun he => { hi.quiet he with }) id id
  · cases hstep

/- The user selects from a prompt, and none has been sent. -/
theorem selectCredential_opening {s t : Process S M D} {id : String} (hi : Opening h s)
    (hsame : SameLoop s t) (hstep : selectCredential h s id = some t) : Opening h t := by
  unfold selectCredential at hstep
  split at hstep
  · rename_i hprompt
    split at hstep
    · cases hstep
      refine hi.of_same h hsame ?_ (fun hn => hn) fun he => he
      intro he
      obtain ⟨st, hst, htx⟩ := List.any_eq_true.mp hprompt
      rw [(hi.quiet he).sent st (List.mem_of_mem_take hst)] at htx
      cases htx
    · cases hstep
  · cases hstep

theorem task_opening {s t : Process S M D} {l : Label F} (hl : l.isLoop = false)
    (hi : Opening h s) (hstep : step h c s l = some t) : Opening h t := by
  have hsame := step_same h c hl hstep
  cases l with
  | opened ok => exact hi.of_operates h hsame (opened_operates hstep)
  | answered result => exact hi.of_operates h hsame (answered_operates h c hstep)
  | respond => exact hi.of_operates h hsame (respond_operates hstep)
  | cancelEvents => exact hi.of_operates h hsame (cancelEvents_operates hstep)
  | recvUpdate => exact hi.of_relays h hsame (recvUpdate_relays h hstep)
  | relay => exact hi.of_relays h hsame (relay_relays hstep)
  | pin reply => exact hi.of_relays h hsame (pin_relays h hstep)
  | update u => exact update_opening h c hi hsame hstep
  | take => exact take_opening h hi hsame hstep
  | selectCredential id => exact selectCredential_opening h hi hsame hstep
  | cancel =>
    cases hstep
    exact hi.of_same h hsame (fun he => { hi.quiet he with }) id id
  | dropConsumer =>
    cases hstep
    exact hi.of_same h hsame (fun he => { hi.quiet he with }) id id
  | listed result => cases hl
  | slept => cases hl
  | select l => cases hl
  | selected => cases hl
  | interact => cases hl
  | choose => cases hl
  | emit => cases hl
  | cancelLoop => cases hl

/-! ### Steps and runs -/

theorem step_opening (hprompts : h.PromptsOnly) {s t : Process S M D} {l : Label F}
    (ho : OneWay h s) (hi : Opening h s) (hstep : step h c s l = some t) : Opening h t := by
  by_cases hloop : l.isLoop = true
  · cases l with
    | listed result => exact listed_opening h hprompts ho hi hstep
    | slept => exact slept_opening h hprompts ho hi hstep
    | select l => exact select_opening h hi hstep
    | selected => exact selected_opening h hprompts ho hi hstep
    | interact => exact interact_opening h hprompts ho hi hstep
    | choose => exact choose_opening h hprompts hi hstep
    | emit => exact emit_opening h ho hi hstep
    | cancelLoop => exact cancelLoop_opening h hi hstep
    | _ => cases hloop
  · exact task_opening h c (by simpa using hloop) hi hstep

theorem init_opening (hprompts : h.PromptsOnly) : Opening h (init h : Process S M D) where
  quiet _ := ⟨rfl, rfl, rfl, rfl, rfl, hprompts _ (by
    show (h.phase h.idle).prompts = false
    rw [h.phase_idle]
    rfl), nofun⟩
  spawned _ := rfl
  waits := nofun
  selection _ _ := rfl

theorem reaches_opening (hprompts : h.PromptsOnly) {s : Process S M D}
    (hrun : Machine.Reaches (step h c) (init h) s) : Opening h s := by
  refine (Machine.reaches_invariant (I := fun u => OneWay h u ∧ Opening h u)
    (fun u l v hu hstep => ?_) ⟨init_oneWay h, init_opening h hprompts⟩ hrun).2
  exact ⟨(step_oneWay h c hu.1 hstep).1, step_opening h c hprompts hu.1 hu.2 hstep⟩

/-- A process in its run, connected and about to open the channel to the device. -/
structure Starts (s : Process S M D) : Prop where
  reached : Machine.Reaches (step h c) (init h) s
  events : s.events = .opening
  pending : s.pending = .interacting

end Process

end Credentialsd
