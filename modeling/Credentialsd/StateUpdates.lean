import Credentialsd.ProcessOrder

/-!
# Which states the loop sends

The loop sends a state whose kind is another one than that of the state before it, and every state
that asks for a PIN. What the UI is shown of a state also depends on what is in it.
-/

namespace Credentialsd

namespace Process

variable {S M D F : Type} (h : Handler S M D F) (c : Ceremony)

/-! ### The selection does not panic -/

theorem again_selection (s : Process S M D) :
    (again h s).selection = s.selection ∨ ∃ ds, (again h s).selection = .start ds := by
  unfold again
  split
  · exact Or.inl rfl
  · exact Or.inl rfl
  · exact Or.inl rfl
  · exact Or.inl rfl
  · exact Or.inr ⟨_, rfl⟩
  · exact Or.inl rfl
  · exact Or.inl rfl
  · exact Or.inl rfl

theorem again_selection_inv {s : Process S M D} (hi : s.selection.Inv) :
    (again h s).selection.Inv := by
  rcases again_selection h s with hsame | ⟨ds, hstart⟩
  · rw [hsame]
    exact hi
  · rw [hstart]
    exact Selection.inv_start ds

theorem settle_selection_inv {s : Process S M D} (next : Except CredentialServiceError S)
    (hi : s.selection.Inv) : (settle h s next).selection.Inv := by
  have henter : ∀ st, (enter h s st).selection.Inv := by
    intro st
    unfold enter
    split
    · exact hi
    · exact again_selection_inv h (s := { s with state := st }) hi
  unfold settle
  split
  · exact hi
  · exact henter _
  · exact henter _

theorem step_selection_inv {s t : Process S M D} {l : Label F} (hi : s.selection.Inv)
    (hstep : step h c s l = some t) : t.selection.Inv := by
  cases hloop : l.isLoop with
  | false =>
    rw [(step_same h c hloop hstep).selection]
    exact hi
  | true =>
    cases loop_moves h c hloop hstep with
    | sleeps hp => exact hi
    | listed hp => exact settle_selection_inv h (s := { s with failures := _ }) _ hi
    | slept hp => exact settle_selection_inv h _ hi
    | select hselect =>
      obtain ⟨sel, -, -, hinv, rfl⟩ := select_goes hi hselect
      exact hinv
    | selected hp hresult =>
      exact settle_selection_inv h (s := { s with selection := s.selection.leave }) _
        (Selection.leave_inv hi)
    | interact hp hsignals => exact settle_selection_inv h (s := { s with signals := _ }) _ hi
    | choose hp hcreds => exact settle_selection_inv h (s := { s with creds := _ }) _ hi
    | emitted hp hconsumer => exact again_selection_inv h (s := { s with sent := _ }) hi
    | closed hp hconsumer => exact hi
    | cancelled hcancel =>
      unfold cancelLoop at hcancel
      split at hcancel
      · cases hcancel
        exact Selection.leave_inv hi
      · cases hcancel

/-! ### What the UI is told of -/

def Pending.emits : Pending S → Bool
  | .emitting => true
  | _ => false

/-- The new state is sent if the UI is to be shown another thing than before; and a state that is
being sent goes to the stream, unless nobody listens to that any more. -/
structure Told {α : Type} (image : S → α) (s t : Process S M D) : Prop where
  changed : image t.state ≠ image s.state → t.pending.emits = true
  sent : s.pending.emits = true →
    (t.pending.emits = true ∧ t.state = s.state ∧ t.sent = s.sent) ∨
    t.sent = s.sent ++ [s.state] ∨
    s.consumer = false ∧ t.pending = .done (.error (.internal h.streamClosed))

/-- How many attempts are left where the user has to be verified, in a state and in a message, and
what of a state makes its image. -/
structure Shows {α : Type} (image : S → α) (attempts : S → Option (Option UInt32))
    (msgAttempts : M → Option (Option UInt32)) : Prop where
  hidden : ∀ new old, h.stateChanged new old = false → image new = image old ∨
    (∃ a b, attempts old = some a ∧ attempts new = some b ∧ a ≠ b) ∨
    (∃ response, h.phase old = .selectCredential response) ∨ (h.phase old).isTerminal = true
  retried : ∀ new old a b, attempts old = some a → attempts new = some b → a ≠ b →
    h.stateChanged new old = false ∧ image new ≠ image old
  interaction : ∀ st a, attempts st = some a → h.phase st = .interaction
  interact : ∀ tx msg st, h.processUserInteraction tx (some (.ok msg)) = .ok st →
    attempts st = msgAttempts msg

/-- Not the message of another number of attempts than the one that is shown. -/
def KeepsAttempts (attempts : S → Option (Option UInt32))
    (msgAttempts : M → Option (Option UInt32)) (s : Process S M D) : Label F → Prop
  | .interact => ∀ msg rest a b, s.signals = .ok msg :: rest → attempts s.state = some a →
      msgAttempts msg = some b → a = b
  | _ => True

variable {α : Type} {image : S → α} {attempts : S → Option (Option UInt32)}
  {msgAttempts : M → Option (Option UInt32)}

theorem told_of_quiet {s t : Process S M D} (hstate : t.state = s.state)
    (hquiet : s.pending.emits = false) : Told h image s t where
  changed hne := absurd (congrArg image hstate) hne
  sent hemits := by
    rw [hquiet] at hemits
    cases hemits

theorem again_state (s : Process S M D) : (again h s).state = s.state := by
  unfold again
  split <;> rfl

theorem again_emits (s : Process S M D) : (again h s).pending.emits = false := by
  unfold again
  split <;> rfl

theorem again_sent (s : Process S M D) : (again h s).sent = s.sent := by
  unfold again
  split <;> rfl

/- The next state is sent or looks like the one before it. -/
theorem told_enter (s s' : Process S M D) {st : S} (hstate : s'.state = s.state)
    (hquiet : s.pending.emits = false)
    (hsame : h.stateChanged st s.state = false → image st = image s.state) :
    Told h image s (enter h s' st) := by
  constructor
  · intro hne
    unfold enter at hne ⊢
    split
    · rfl
    · rename_i hchanged
      rw [if_neg hchanged, again_state] at hne
      rw [hstate] at hchanged
      exact absurd (hsame (by simpa using hchanged)) hne
  · intro hemits
    rw [hquiet] at hemits
    cases hemits

theorem told_settle (s s' : Process S M D) {next : Except CredentialServiceError S}
    (hstate : s'.state = s.state) (hquiet : s.pending.emits = false)
    (hfailed : ∀ err, next = .error err →
      h.stateChanged (h.failed err) s.state = false → image (h.failed err) = image s.state)
    (hok : ∀ st, next = .ok st → h.stateChanged st s.state = false → image st = image s.state) :
    Told h image s (settle h s' next) := by
  unfold settle
  split
  · exact told_of_quiet h hstate hquiet
  · exact told_enter h s s' hstate hquiet (hfailed _ rfl)
  · exact told_enter h s s' hstate hquiet (hok _ rfl)

/-- A state that is not sent looks the same, unless the attempts have changed. -/
theorem image_of_unchanged (hshows : Shows h image attempts msgAttempts) {new old : S}
    (hchanged : h.stateChanged new old = false)
    (hselect : ∀ response, h.phase old ≠ .selectCredential response)
    (hrunning : (h.phase old).isTerminal = false)
    (hattempts : ∀ a b, attempts old = some a → attempts new = some b → a = b) :
    image new = image old := by
  rcases hshows.hidden new old hchanged with himage | ⟨a, b, ha, hb, hne⟩ | ⟨response, hr⟩ | hend
  · exact himage
  · exact absurd (hattempts a b ha hb) hne
  · exact absurd hr (hselect response)
  · rw [hrunning] at hend
    cases hend

theorem attempts_failed (hshows : Shows h image attempts msgAttempts)
    (err : CredentialServiceError) : attempts (h.failed err) = none := by
  cases ha : attempts (h.failed err) with
  | none => rfl
  | some a =>
    have hphase := hshows.interaction _ a ha
    rw [h.phase_failed] at hphase
    cases hphase

theorem attempts_of_phase (hshows : Shows h image attempts msgAttempts) {st : S}
    (hphase : h.phase st ≠ .interaction) : attempts st = none := by
  cases ha : attempts st with
  | none => rfl
  | some a => exact absurd (hshows.interaction st a ha) hphase

/- Before a device is connected, no attempts are shown. -/
theorem told_settle_early (hshows : Shows h image attempts msgAttempts) (s s' : Process S M D)
    {next : Except CredentialServiceError S} (hstate : s'.state = s.state)
    (hquiet : s.pending.emits = false) (hearly : (h.phase s.state).isEarly = true) :
    Told h image s (settle h s' next) := by
  have hnone : attempts s.state = none := by
    apply attempts_of_phase h hshows
    intro hp
    rw [hp] at hearly
    cases hearly
  have hsame : ∀ st, h.stateChanged st s.state = false → image st = image s.state := by
    intro st hchanged
    apply image_of_unchanged h hshows hchanged
    · intro response hp
      rw [hp] at hearly
      cases hearly
    · revert hearly
      cases h.phase s.state <;> simp [Phase.isEarly, Phase.isTerminal]
    · intro a b ha
      rw [hnone] at ha
      cases ha
  exact told_settle h s s' hstate hquiet (fun err _ => hsame _) fun st _ => hsame st

/-- A message that says how many attempts are left becomes a state that says so. -/
theorem interact_attempts (hshows : Shows h image attempts msgAttempts) {msg : M}
    {b : Option UInt32} (hmsg : IsMessage h (.ok msg)) (hb : msgAttempts msg = some b) :
    ∃ st, h.processUserInteraction credTx (some (.ok msg)) = .ok st ∧ attempts st = some b := by
  rcases hmsg with ⟨err, he⟩ | ⟨r, hr⟩ | ⟨m, hm, pinTx, u, hu⟩
  · cases he
  · cases hr
    obtain ⟨st, hst, hphase⟩ := h.interact_received credTx r
    have hattempts := hshows.interact credTx _ st hst
    rw [hb] at hattempts
    have hinteraction := hshows.interaction st b hattempts
    rcases hphase with hp | ⟨response, hp⟩
    · rw [hinteraction] at hp
      cases hp
    · rw [hinteraction] at hp
      cases hp
  · cases hm
    obtain ⟨st, hst, -⟩ := h.interact_update credTx pinTx u msg hu
    exact ⟨st, hst, (hshows.interact credTx msg st hst).trans hb⟩

theorem interact_told (hshows : Shows h image attempts msgAttempts) {s : Process S M D}
    {x : Except CredentialServiceError M} {rest : List (Except CredentialServiceError M)}
    (hi : OneWay h s) (hp : s.pending = .interacting) (hsignals : s.signals = x :: rest) :
    Told h image s
        (settle h { s with signals := rest } (h.processUserInteraction credTx (some x))) ↔
      KeepsAttempts attempts msgAttempts s (Label.interact : Label F) := by
  have hquiet : s.pending.emits = false := by
    rw [hp]
    rfl
  have hx : IsMessage h x := hi.messages.signals x (by
    rw [hsignals]
    exact List.mem_cons_self ..)
  have hstands := hi.stands
  rw [Stands, hp] at hstands
  constructor
  · intro htold msg rest' a b hsignals' ha hb
    rw [hsignals] at hsignals'
    cases hsignals'
    by_contra hne
    obtain ⟨st, hst, hattempts⟩ := interact_attempts h hshows hx hb
    obtain ⟨hunchanged, himage⟩ := hshows.retried st s.state a b ha hattempts hne
    have hchanged := htold.changed
    rw [hst] at hchanged
    simp only [settle, enter, hunchanged, Bool.false_eq_true, if_false, again_state,
      again_emits, imp_false, not_not] at hchanged
    exact himage hchanged
  · intro hkeeps
    have hselect : ∀ response, h.phase s.state ≠ .selectCredential response := by
      intro response hresponse
      rcases hstands with hphase | hphase <;> rw [hphase] at hresponse <;> cases hresponse
    have hrunning : (h.phase s.state).isTerminal = false := by
      rcases hstands with hphase | hphase <;> rw [hphase] <;> rfl
    apply told_settle h s { s with signals := rest } rfl hquiet
    · intro err _ hunchanged
      apply image_of_unchanged h hshows hunchanged hselect hrunning
      intro a b _ hb
      rw [attempts_failed h hshows] at hb
      cases hb
    · intro st hst hunchanged
      apply image_of_unchanged h hshows hunchanged hselect hrunning
      intro a b ha hb
      cases x with
      | error err =>
        rw [h.interact_error] at hst
        cases hst
      | ok msg =>
        rw [hshows.interact credTx msg st hst] at hb
        exact hkeeps msg rest a b hsignals ha hb

theorem choose_told {s : Process S M D} {response : GetAssertionResponse} (hi : OneWay h s)
    (hp : s.pending = .choosing response) (id : String) (rest : List String) :
    Told h image s
      (settle h { s with creds := rest } (h.processSelectCredential response (some id))) := by
  have hphase := hi.phase_of_choosing h hp
  have hquiet : s.pending.emits = false := by
    rw [hp]
    rfl
  -- from a choice the loop only goes to an end, which is of another kind
  have hother : ∀ st, (h.phase st).isTerminal = true →
      h.stateChanged st s.state = false → image st = image s.state := by
    intro st hterminal hunchanged
    have hsame := h.changed_phase st s.state hunchanged
    rw [hphase] at hsame
    revert hsame hterminal
    cases h.phase st <;> simp [Phase.isTerminal, Phase.ctorIdx]
  apply told_settle h s { s with creds := rest } rfl hquiet
  · intro err _
    apply hother
    rw [h.phase_failed]
    rfl
  · intro st hst
    apply hother
    rcases h.select_cases response (some id) with ⟨st', hst', hcompleted⟩ | ⟨err, herr, -⟩
    · rw [hst] at hst'
      cases hst'
      rw [hcompleted]
      rfl
    · rw [hst] at herr
      cases herr

theorem emitted_told {s : Process S M D} :
    Told h image s (again h { s with sent := s.sent ++ [s.state] }) := by
  constructor
  · intro hne
    rw [again_state] at hne
    exact absurd rfl hne
  · intro _
    rw [again_sent]
    exact Or.inr (Or.inl rfl)

theorem select_told {s t : Process S M D} {l : Selection.Label} (hi : s.selection.Inv)
    (hstep : select s l = some t) : Told h image s t := by
  obtain ⟨sel, -, -, -, rfl⟩ := select_goes hi hstep
  exact ⟨fun hne => absurd rfl hne, fun hemits => Or.inl ⟨hemits, rfl, rfl⟩⟩

theorem cancelLoop_told {s t : Process S M D} (hstep : cancelLoop s = some t) :
    Told h image s t := by
  unfold cancelLoop at hstep
  split at hstep
  · rename_i hcancel
    cases hstep
    refine told_of_quiet h rfl ?_
    simp only [Bool.and_eq_true] at hcancel
    have hcancellable := hcancel.1.2
    revert hcancellable
    cases s.pending <;> simp [Pending.cancellable, Pending.emits]
  · cases hstep

theorem step_told_iff (hshows : Shows h image attempts msgAttempts) {s t : Process S M D}
    {l : Label F} (hi : OneWay h s) (hs : s.selection.Inv) (hstep : step h c s l = some t) :
    Told h image s t ↔ KeepsAttempts attempts msgAttempts s l := by
  by_cases hloop : l.isLoop = true
  · cases loop_moves h c hloop hstep with
    | sleeps hp => exact iff_of_true (told_of_quiet h rfl (by rw [hp]; rfl)) trivial
    | listed hp =>
      have hidle : h.phase s.state = .idleWaiting := by simpa only [Stands, hp] using hi.stands
      have hearly : (h.phase s.state).isEarly = true := by rw [hidle]; rfl
      exact iff_of_true (told_settle_early h hshows s _ rfl (by rw [hp]; rfl) hearly) trivial
    | slept hp =>
      have hearly := hi.early_of_sleeping h hp
      exact iff_of_true (told_settle_early h hshows s _ rfl (by rw [hp]; rfl) hearly) trivial
    | select hselect => exact iff_of_true (select_told h hs hselect) trivial
    | selected hp _ =>
      have hearly := hi.early_of_selecting h hp
      exact iff_of_true (told_settle_early h hshows s { s with selection := s.selection.leave } rfl
        (by rw [hp]; rfl) hearly) trivial
    | interact hp hsignals => exact interact_told h hshows hi hp hsignals
    | choose hp _ => exact iff_of_true (choose_told h hi hp _ _) trivial
    | emitted => exact iff_of_true (emitted_told h) trivial
    | closed _ hconsumer =>
      refine iff_of_true ⟨fun hne => absurd rfl hne, fun _ => ?_⟩ trivial
      exact Or.inr (Or.inr ⟨by simpa using hconsumer, rfl⟩)
    | cancelled hcancel => exact iff_of_true (cancelLoop_told h hcancel) trivial
  · have hsame := step_same h c (by simpa using hloop) hstep
    have htold : Told h image s t := by
      constructor
      · intro hne
        rw [hsame.state] at hne
        exact absurd rfl hne
      · intro hemits
        rw [hsame.pending]
        exact Or.inl ⟨hemits, hsame.state, hsame.sent⟩
    refine iff_of_true htold ?_
    cases l <;> trivial

theorem along_told_iff (hshows : Shows h image attempts msgAttempts) (ls : List (Label F))
    {s : Process S M D} (hi : OneWay h s) (hs : s.selection.Inv) :
    Machine.Along (step h c) (fun s _ t => Told h image s t) s ls ↔
      Machine.Along (step h c) (fun s l _ => KeepsAttempts attempts msgAttempts s l) s ls := by
  induction ls generalizing s with
  | nil => exact Iff.rfl
  | cons l ls ih =>
    have hnext : ∀ t, step h c s l = some t →
        ((Told h image s t ↔ KeepsAttempts attempts msgAttempts s l) ∧
        (Machine.Along (step h c) (fun s _ t => Told h image s t) t ls ↔
          Machine.Along (step h c) (fun s l _ => KeepsAttempts attempts msgAttempts s l) t
            ls)) := by
      intro t ht
      have hi' := (step_oneWay h c hi ht).1
      exact ⟨step_told_iff h c hshows hi hs ht, ih hi' (step_selection_inv h c hs ht)⟩
    constructor
    · intro hall t ht
      obtain ⟨htold, hrest⟩ := hall t ht
      exact ⟨(hnext t ht).1.mp htold, (hnext t ht).2.mp hrest⟩
    · intro hall t ht
      obtain ⟨hkeeps, hrest⟩ := hall t ht
      exact ⟨(hnext t ht).1.mpr hkeeps, (hnext t ht).2.mpr hrest⟩

end Process

/-! ### The two handlers -/

namespace Usb

/-- What the UI is shown of a state. -/
def image (credHash : Bytes → String) (st : UsbStateInternal) : Except Panic BackgroundEvent :=
  (st.toPublic credHash).map UsbState.toBackgroundEvent

def attempts : UsbStateInternal → Option (Option UInt32)
  | .needsUserVerification attemptsLeft => some attemptsLeft
  | _ => none

def msgAttempts : UsbUvMessage → Option (Option UInt32)
  | .needsUserVerification attemptsLeft => some attemptsLeft
  | _ => none

theorem shows (credHash : Bytes → String) :
    Process.Shows (handler credHash) (image credHash) attempts msgAttempts where
  hidden new old hunchanged := by
    cases new <;> cases old <;> first
      | exact Or.inl rfl
      | exact Or.inr (Or.inr (Or.inl ⟨_, rfl⟩))
      | exact Or.inr (Or.inr (Or.inr rfl))
      | cases hunchanged
    rename_i b a
    by_cases hab : a = b
    · rw [hab]
      exact Or.inl rfl
    · exact Or.inr (Or.inl ⟨a, b, rfl, rfl, hab⟩)
  retried new old a b ha hb hne := by
    cases old <;> cases ha
    cases new <;> cases hb
    refine ⟨rfl, fun himage => hne ?_⟩
    cases himage
    rfl
  interaction st a ha := by
    cases st <;> cases ha
    rfl
  interact tx msg st hst := by
    cases msg with
    | needsPin attemptsLeft pinTx => cases hst; rfl
    | pinNotSet reason pinTx => cases hst; rfl
    | needsUserVerification attemptsLeft => cases hst; rfl
    | needsUserPresence => cases hst; rfl
    | receivedCredentials response =>
      cases response with
      | credentialCreated r => cases hst; rfl
      | credentialsAsserted r =>
        obtain ⟨assertions⟩ := r
        match assertions with
        | [] => cases hst; rfl
        | [_] => cases hst; rfl
        | _ :: _ :: _ => cases hst; rfl

end Usb

namespace Nfc

def image (credHash : Bytes → String) (st : NfcStateInternal) : Except Panic BackgroundEvent :=
  (st.toPublic credHash).map NfcState.toBackgroundEvent

def attempts : NfcStateInternal → Option (Option UInt32)
  | .needsUserVerification attemptsLeft => some attemptsLeft
  | _ => none

def msgAttempts : NfcUvMessage → Option (Option UInt32)
  | .needsUserVerification attemptsLeft => some attemptsLeft
  | _ => none

theorem shows (credHash : Bytes → String) :
    Process.Shows (handler credHash) (image credHash) attempts msgAttempts where
  hidden new old hunchanged := by
    cases new <;> cases old <;> first
      | exact Or.inl rfl
      | exact Or.inr (Or.inr (Or.inl ⟨_, rfl⟩))
      | exact Or.inr (Or.inr (Or.inr rfl))
      | cases hunchanged
    rename_i b a
    by_cases hab : a = b
    · rw [hab]
      exact Or.inl rfl
    · exact Or.inr (Or.inl ⟨a, b, rfl, rfl, hab⟩)
  retried new old a b ha hb hne := by
    cases old <;> cases ha
    cases new <;> cases hb
    refine ⟨rfl, fun himage => hne ?_⟩
    cases himage
    rfl
  interaction st a ha := by
    cases st <;> cases ha
    rfl
  interact tx msg st hst := by
    cases msg with
    | needsPin attemptsLeft pinTx => cases hst; rfl
    | pinNotSet reason pinTx => cases hst; rfl
    | needsUserVerification attemptsLeft => cases hst; rfl
    | receivedCredentials response =>
      cases response with
      | credentialCreated r => cases hst; rfl
      | credentialsAsserted r =>
        obtain ⟨assertions⟩ := r
        match assertions with
        | [] => cases hst; rfl
        | [_] => cases hst; rfl
        | _ :: _ :: _ => cases hst; rfl

end Nfc

/-- Over a run of either handler, everything that looks different from the state before it is sent,
iff the loop never takes a message of another number of attempts while it has the user verified. -/
theorem changes_told_iff (credHash : Bytes → String) (c : Ceremony) :
    (∀ ls : List (Process.Label (List HidDevice)),
      Machine.Along (Process.step (Usb.handler credHash) c)
          (fun s _ t => Process.Told (Usb.handler credHash) (Usb.image credHash) s t)
          (Process.init (Usb.handler credHash)) ls ↔
        Machine.Along (Process.step (Usb.handler credHash) c)
          (fun s l _ => Process.KeepsAttempts Usb.attempts Usb.msgAttempts s l)
          (Process.init (Usb.handler credHash)) ls) ∧
    ∀ ls : List (Process.Label (Option NfcDevice)),
      Machine.Along (Process.step (Nfc.handler credHash) c)
          (fun s _ t => Process.Told (Nfc.handler credHash) (Nfc.image credHash) s t)
          (Process.init (Nfc.handler credHash)) ls ↔
        Machine.Along (Process.step (Nfc.handler credHash) c)
          (fun s l _ => Process.KeepsAttempts Nfc.attempts Nfc.msgAttempts s l)
          (Process.init (Nfc.handler credHash)) ls :=
  ⟨fun ls => Process.along_told_iff _ c (Usb.shows credHash) ls (Process.init_oneWay _)
      Selection.notStarted_inv,
    fun ls => Process.along_told_iff _ c (Nfc.shows credHash) ls (Process.init_oneWay _)
      Selection.notStarted_inv⟩

/- The user is verified by a wrong finger twice. -/
def usbRetries : List (Process.Label (List HidDevice)) :=
  usbSelected ++ [.opened true, .update (.uvRetry (some 3)), .recvUpdate, .relay, .interact, .emit,
    .update (.uvRetry (some 2)), .recvUpdate, .relay]

def nfcRetries : List (Process.Label (Option NfcDevice)) :=
  [.listed (.ok (some ⟨"tag"⟩)), .emit, .opened true, .update (.uvRetry (some 3)), .recvUpdate,
    .relay, .interact, .emit, .update (.uvRetry (some 2)), .recvUpdate, .relay]

/-- The UI is not told that there are two attempts left. -/
theorem retries_not_told :
    (∃ s t, Machine.exec (Process.step (Usb.handler fun _ => "") sampleCeremony)
        (Process.init (Usb.handler fun _ => "")) usbRetries = some s ∧
      Process.step (Usb.handler fun _ => "") sampleCeremony s .interact = some t ∧
      s.state = .needsUserVerification (some 3) ∧ t.state = .needsUserVerification (some 2) ∧
      ¬Process.Told (Usb.handler fun _ => "") (Usb.image fun _ => "") s t) ∧
    ∃ s t, Machine.exec (Process.step (Nfc.handler fun _ => "") sampleCeremony)
        (Process.init (Nfc.handler fun _ => "")) nfcRetries = some s ∧
      Process.step (Nfc.handler fun _ => "") sampleCeremony s .interact = some t ∧
      s.state = .needsUserVerification (some 3) ∧ t.state = .needsUserVerification (some 2) ∧
      ¬Process.Told (Nfc.handler fun _ => "") (Nfc.image fun _ => "") s t := by
  refine ⟨⟨_, _, rfl, rfl, rfl, rfl, fun h => ?_⟩, ⟨_, _, rfl, rfl, rfl, rfl, fun h => ?_⟩⟩
  · have hemits := h.changed (by rintro ⟨⟩)
    cases hemits
  · have hemits := h.changed (by rintro ⟨⟩)
    cases hemits

end Credentialsd
