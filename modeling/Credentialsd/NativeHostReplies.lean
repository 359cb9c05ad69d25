import Credentialsd.NativeHost

/-!
# What the native messaging host replies

What is written by the end of a run is a function of what the calls of `main` have come to.
-/

namespace Credentialsd

namespace NativeHost

theorem frame_length (content : Bytes) : (frame content).length = 4 + content.length := by
  simp [frame]

theorem frame_ne_nil (content : Bytes) : frame content ≠ [] := by
  intro h
  have hlength := frame_length content
  rw [h] at hlength
  simp only [List.length_nil] at hlength
  omega

section Json

variable {J : Type} (dumps : Reply J → Except Raised Bytes)

theorem encodeMessage_ok {reply : Reply J} {message : Bytes} :
    encodeMessage dumps reply = .ok message ↔ ∃ content, dumps reply = .ok content ∧
      content.length < 4294967296 ∧ message = frame content := by
  unfold encodeMessage
  cases dumps reply with
  | error e => simp
  | ok content =>
    by_cases hlt : content.length < 4294967296
    · simp [hlt, eq_comm]
    · simp [hlt]

namespace State

/-- What the handling of the message has come to. -/
def outcome (s : State J) : Except Raised J :=
  match s.interface, readMessage s.message, s.credentialsdTask with
  | some (.error e), _, _ => .error e
  | _, .error e, _ => .error e
  | _, .ok _, some r => r
  | _, .ok _, none => .error (if s.cancelTask then cancelledError else timeoutError)

/-- What the handler writes. -/
def handled (s : State J) (e : Raised) : Bytes :=
  if e.isException then
    match encodeMessage dumps ⟨s.message.requestId, .error e.name e.message⟩ with
    | .ok message => message
    | .error _ => []
  else []

def written (s : State J) : Bytes :=
  match s.outcome with
  | .error e => s.handled dumps e
  | .ok authData =>
    match encodeMessage dumps ⟨s.message.requestId, .data authData⟩ with
    | .error e => s.handled dumps e
    | .ok message =>
      match s.disconnected with
      | some (.error e) => message ++ s.handled dumps e
      | _ => message

@[simp] theorem raise_stdout (s : State J) (e : Raised) :
    (s.raise dumps e).stdout = s.stdout ++ s.handled dumps e := by
  unfold raise handled
  split
  · cases encodeMessage dumps ⟨s.message.requestId, .error e.name e.message⟩ <;> simp
  · simp

end State

/-- What has been written and what is known, stage by stage. -/
def Inv (s : State J) : Prop :=
  match s.stage with
  | .gettingInterface => s.stdout = [] ∧ s.interface = none ∧ s.credentialsdTask = none ∧
      s.disconnected = none
  | .waiting => s.stdout = [] ∧ s.interface = some (.ok ()) ∧ s.disconnected = none ∧
      ∃ cmd, readMessage s.message = .ok cmd
  | .ended _ => s.stdout = s.written dumps ∧ ∀ r, s.credentialsdTask = some r → s.outcome = r

theorem inv_raise {s : State J} {e : Raised}
    (hwritten : s.stdout ++ s.handled dumps e = s.written dumps)
    (hknown : ∀ r, s.credentialsdTask = some r → s.outcome = r) : Inv dumps (s.raise dumps e) := by
  have hstdout := s.raise_stdout dumps e
  rw [hwritten] at hstdout
  unfold State.raise at hstdout ⊢
  split at hstdout
  · rename_i hexception
    rw [if_pos hexception]
    split at hstdout
    · exact ⟨hstdout, hknown⟩
    · exact ⟨hstdout, hknown⟩
  · rename_i hexception
    rw [if_neg hexception]
    exact ⟨hstdout, hknown⟩

theorem written_of_ok {s : State J} {v : J} {message : Bytes} {u : Unit}
    (houtcome : s.outcome = .ok v)
    (hdata : encodeMessage dumps ⟨s.message.requestId, .data v⟩ = .ok message)
    (hdisconnected : s.disconnected = some (.ok u)) : s.written dumps = message := by
  simp only [State.written, houtcome, hdata, hdisconnected]

theorem written_of_error {s : State J} {v : J} {message : Bytes} {e : Raised}
    (houtcome : s.outcome = .ok v)
    (hdata : encodeMessage dumps ⟨s.message.requestId, .data v⟩ = .ok message)
    (hdisconnected : s.disconnected = some (.error e)) :
    s.written dumps = message ++ s.handled dumps e := by
  simp only [State.written, houtcome, hdata, hdisconnected]

theorem inv_gotInterface {s : State J} (r : Except Raised Unit) (h : Inv dumps s)
    (hstage : s.stage = .gettingInterface) : Inv dumps (s.gotInterface dumps r) := by
  simp only [Inv, hstage] at h
  obtain ⟨hstdout, -, htask, hdisconnected⟩ := h
  cases r with
  | error e =>
    apply inv_raise
    · simp [hstdout, State.written, State.outcome, State.handled]
    · intro r hr
      simp [htask] at hr
  | ok u =>
    simp only [State.gotInterface]
    cases hread : readMessage s.message with
    | error e =>
      apply inv_raise
      · simp [hstdout, State.written, State.outcome, State.handled, hread]
      · intro r hr
        simp [htask] at hr
    | ok cmd => exact ⟨hstdout, rfl, hdisconnected, cmd, hread⟩

theorem inv_resume {s : State J} (r : Except Raised Unit) (h : Inv dumps s)
    (hstage : s.stage = .waiting) : Inv dumps (s.resume dumps r) := by
  simp only [Inv, hstage] at h
  obtain ⟨hstdout, hinterface, hdisconnected, cmd, hread⟩ := h
  cases htask : s.credentialsdTask with
  | none =>
    have houtcome : s.outcome = .error (if s.cancelTask then cancelledError else timeoutError) := by
      simp [State.outcome, hinterface, hread, htask]
    have hresume : s.resume dumps r =
        s.raise dumps (if s.cancelTask then cancelledError else timeoutError) := by
      simp only [State.resume, htask]
      split <;> rfl
    rw [hresume]
    apply inv_raise
    · simp [hstdout, State.written, houtcome]
    · intro r hr
      rw [htask] at hr
      cases hr
  | some result =>
    have houtcome : s.outcome = result := by
      simp [State.outcome, hinterface, hread, htask]
    have hknown : ∀ r, s.credentialsdTask = some r → s.outcome = r := by
      intro r hr
      rw [htask] at hr
      cases hr
      exact houtcome
    cases result with
    | error e =>
      have hresume : s.resume dumps r = s.raise dumps e := by simp only [State.resume, htask]
      rw [hresume]
      apply inv_raise _ _ hknown
      simp [hstdout, State.written, houtcome]
    | ok authData =>
      cases hdata : encodeMessage dumps ⟨s.message.requestId, .data authData⟩ with
      | error e =>
        have hresume : s.resume dumps r = s.raise dumps e := by
          simp only [State.resume, htask, hdata]
        rw [hresume]
        apply inv_raise _ _ hknown
        simp [hstdout, State.written, houtcome, hdata]
      | ok message =>
        cases r with
        | ok u =>
          have hresume : s.resume dumps (.ok u) = { s with
              stdout := s.stdout ++ message
              disconnected := some (.ok u)
              stage := .ended none } := by
            simp only [State.resume, htask, hdata]
          rw [hresume]
          have hwritten := written_of_ok dumps (s := { s with
            stdout := s.stdout ++ message, disconnected := some (.ok u), stage := .ended none })
            houtcome hdata rfl
          exact ⟨by rw [hwritten, hstdout, List.nil_append], hknown⟩
        | error e =>
          have hresume : s.resume dumps (.error e) = ({ s with
              stdout := s.stdout ++ message, disconnected := some (.error e) } :
                State J).raise dumps e := by
            simp only [State.resume, htask, hdata]
          rw [hresume]
          have hwritten := written_of_error dumps (s := { s with
            stdout := s.stdout ++ message, disconnected := some (.error e) }) houtcome hdata rfl
          exact inv_raise dumps (by rw [hwritten, hstdout, List.nil_append]) hknown

/-- Before the end, nothing depends on the flags. -/
theorem inv_flags {s : State J} (h : Inv dumps s) (hended : s.ended = false)
    (quit cancelTask timedOut : Bool) :
    Inv dumps { s with quit := quit, cancelTask := cancelTask, timedOut := timedOut } := by
  cases hstage : s.stage with
  | gettingInterface =>
    simp only [Inv, hstage] at h ⊢
    exact h
  | waiting =>
    simp only [Inv, hstage] at h ⊢
    exact h
  | ended escaped =>
    simp only [State.ended, hstage] at hended
    cases hended

theorem inv_step {s t : State J} {e : Event J} (h : Inv dumps s) (he : step dumps s e = some t) :
    Inv dumps t := by
  cases e with
  | sigterm =>
    simp only [step] at he
    split at he
    · cases he
    · rename_i hended
      cases he
      exact inv_flags dumps h (by simpa using hended) true s.cancelTask s.timedOut
  | cancelTask =>
    simp only [step] at he
    split at he
    · rename_i hcancel
      cases he
      have hended : s.ended = false := by
        simp only [Bool.and_eq_true, Bool.not_eq_true'] at hcancel
        exact hcancel.1.1
      exact inv_flags dumps h hended s.quit true s.timedOut
    · cases he
  | interface r =>
    simp only [step] at he
    split at he
    · rename_i hstage
      cases he
      exact inv_gotInterface dumps r h hstage
    · cases he
  | credentialsd r =>
    simp only [step] at he
    split at he
    · rename_i hstage htask hread
      cases he
      simp only [Inv, hstage] at h ⊢
      exact h
    · cases he
  | timer =>
    simp only [step] at he
    split at he
    · rename_i hwaiting
      cases he
      have hended : s.ended = false := by
        simp [State.ended, hwaiting.1]
      exact inv_flags dumps h hended s.quit s.cancelTask true
    · cases he
  | resume r =>
    simp only [step] at he
    split at he
    · rename_i hwaiting
      cases he
      exact inv_resume dumps r h hwaiting.1
    · cases he

theorem raise_message (s : State J) (e : Raised) : (s.raise dumps e).message = s.message := by
  unfold State.raise
  split
  · cases encodeMessage dumps ⟨s.message.requestId, .error e.name e.message⟩ <;> rfl
  · rfl

theorem gotInterface_message (s : State J) (r : Except Raised Unit) :
    (s.gotInterface dumps r).message = s.message := by
  cases r with
  | error e => exact raise_message dumps _ e
  | ok u =>
    simp only [State.gotInterface]
    cases readMessage s.message with
    | error e => exact raise_message dumps _ e
    | ok cmd => rfl

theorem resume_message (s : State J) (r : Except Raised Unit) :
    (s.resume dumps r).message = s.message := by
  unfold State.resume
  split
  · exact raise_message dumps s _
  · rename_i v htask
    cases encodeMessage dumps ⟨s.message.requestId, .data v⟩ with
    | error e => exact raise_message dumps s e
    | ok message =>
      cases r with
      | error e => exact raise_message dumps _ e
      | ok u => rfl
  · split
    · exact raise_message dumps s _
    · exact raise_message dumps s _

theorem step_message {s t : State J} {e : Event J} (he : step dumps s e = some t) :
    t.message = s.message := by
  cases e with
  | sigterm =>
    simp only [step] at he
    split at he <;> cases he
    rfl
  | cancelTask =>
    simp only [step] at he
    split at he <;> cases he
    rfl
  | interface r =>
    simp only [step] at he
    split at he <;> cases he
    exact gotInterface_message dumps s r
  | credentialsd r =>
    simp only [step] at he
    split at he <;> cases he
    rfl
  | timer =>
    simp only [step] at he
    split at he <;> cases he
    rfl
  | resume r =>
    simp only [step] at he
    split at he <;> cases he
    exact resume_message dumps s r

theorem inv_run {m : ReceivedMessage J} {es : List (Event J)} {s : State J}
    (h : Machine.exec (step dumps) (init m) es = some s) : Inv dumps s ∧ s.message = m := by
  apply Machine.reaches_invariant (I := fun s => Inv dumps s ∧ s.message = m) _ _ ⟨es, h⟩
  · intro s e t hs he
    exact ⟨inv_step dumps hs.1 he, (step_message dumps he).trans hs.2⟩
  · exact ⟨⟨rfl, rfl, rfl, rfl⟩, rfl⟩

/-! ### The reply -/

namespace State

/-- The output is one frame with one reply to the message; it has `data`, namely what the operation
has resulted in, when the operation has succeeded, and `error` otherwise. -/
def RepliedOnce (s : State J) (m : ReceivedMessage J) : Prop :=
  ∃ body content, dumps ⟨m.requestId, body⟩ = .ok content ∧ content.length < 4294967296 ∧
    s.stdout = frame content ∧ ∀ v, body = .data v ↔ s.credentialsdTask = some (.ok v)

/-- An exception that is answered to. -/
def Caught (s : State J) (e : Raised) : Prop :=
  e.isException = true ∧
  ∃ message, encodeMessage dumps ⟨s.message.requestId, .error e.name e.message⟩ = .ok message

/-- What the handling comes to can be replied, and nothing is answered to after the result. -/
def Orderly (s : State J) : Prop :=
  (∀ e, s.outcome = .error e → s.Caught dumps e) ∧
  ∀ authData, s.outcome = .ok authData →
    (∃ message, encodeMessage dumps ⟨s.message.requestId, .data authData⟩ = .ok message) ∧
    ∀ e, s.disconnected = some (.error e) → ¬s.Caught dumps e

theorem task_of_outcome {s : State J} {v : J} (h : s.outcome = .ok v) :
    s.credentialsdTask = some (.ok v) := by
  unfold outcome at h
  split at h
  · cases h
  · cases h
  · rename_i r _ htask _
    rw [htask, h]
  · cases h

theorem handled_of_caught {s : State J} {e : Raised} (h : s.Caught dumps e) :
    ∃ content, dumps ⟨s.message.requestId, .error e.name e.message⟩ = .ok content ∧
      content.length < 4294967296 ∧ s.handled dumps e = frame content := by
  obtain ⟨hexception, message, hmessage⟩ := h
  obtain ⟨content, hdumps, hlt, rfl⟩ := (encodeMessage_ok dumps).mp hmessage
  refine ⟨content, hdumps, hlt, ?_⟩
  simp [handled, hexception, hmessage]

theorem handled_of_not_caught {s : State J} {e : Raised} (h : ¬s.Caught dumps e) :
    s.handled dumps e = [] := by
  unfold handled
  split
  · rename_i hexception
    cases hmessage : encodeMessage dumps ⟨s.message.requestId, .error e.name e.message⟩ with
    | error e' => rfl
    | ok message => exact absurd ⟨hexception, message, hmessage⟩ h
  · rfl

theorem caught_of_handled {s : State J} {e : Raised} (h : s.handled dumps e ≠ []) :
    s.Caught dumps e := by
  by_contra hnot
  exact h (handled_of_not_caught dumps hnot)

end State

theorem repliedOnce_iff {s : State J} (h : Inv dumps s) (hended : s.ended = true) :
    s.RepliedOnce dumps s.message ↔ s.Orderly dumps := by
  obtain ⟨hstdout, hknown⟩ : s.stdout = s.written dumps ∧
      ∀ r, s.credentialsdTask = some r → s.outcome = r := by
    cases hstage : s.stage with
    | gettingInterface => simp [State.ended, hstage] at hended
    | waiting => simp [State.ended, hstage] at hended
    | ended escaped => simpa only [Inv, hstage] using h
  cases houtcome : s.outcome with
  | error e =>
    have hwritten : s.written dumps = s.handled dumps e := by
      simp only [State.written, houtcome]
    have hfailed : ∀ v, s.credentialsdTask ≠ some (.ok v) := by
      intro v hv
      rw [hknown _ hv] at houtcome
      cases houtcome
    constructor
    · rintro ⟨body, content, -, -, hframe, -⟩
      have hcaught : s.Caught dumps e := by
        apply State.caught_of_handled
        rw [← hwritten, ← hstdout, hframe]
        exact frame_ne_nil content
      refine ⟨fun e' he' => ?_, fun v hv => ?_⟩
      · rw [houtcome] at he'
        cases he'
        exact hcaught
      · rw [houtcome] at hv
        cases hv
    · rintro ⟨hcaught, -⟩
      obtain ⟨content, hdumps, hlt, hhandled⟩ :=
        State.handled_of_caught dumps (hcaught e houtcome)
      refine ⟨.error e.name e.message, content, hdumps, hlt, ?_, fun v => ?_⟩
      · rw [hstdout, hwritten, hhandled]
      · simp [hfailed v]
  | ok v =>
    have htask := State.task_of_outcome houtcome
    constructor
    · rintro ⟨body, content, hdumps, hlt, hframe, hbody⟩
      rw [(hbody v).mpr htask] at hdumps
      have hdata := (encodeMessage_ok dumps).mpr ⟨content, hdumps, hlt, rfl⟩
      refine ⟨fun e he => ?_, fun w hw => ?_⟩
      · rw [houtcome] at he
        cases he
      · rw [houtcome] at hw
        cases hw
        refine ⟨⟨_, hdata⟩, fun e he hcaught => ?_⟩
        rw [hframe, written_of_error dumps houtcome hdata he] at hstdout
        obtain ⟨content', -, -, hhandled⟩ := State.handled_of_caught dumps hcaught
        rw [hhandled] at hstdout
        exact frame_ne_nil content' (List.append_right_eq_self.mp hstdout.symm)
    · rintro ⟨-, horderly⟩
      obtain ⟨⟨message, hdata⟩, hclosed⟩ := horderly v houtcome
      obtain ⟨content, hdumps, hlt, rfl⟩ := (encodeMessage_ok dumps).mp hdata
      have hwritten : s.written dumps = frame content := by
        cases hdisconnected : s.disconnected with
        | none => simp only [State.written, houtcome, hdata, hdisconnected]
        | some r =>
          cases r with
          | ok u => exact written_of_ok dumps houtcome hdata hdisconnected
          | error e =>
            rw [written_of_error dumps houtcome hdata hdisconnected,
              State.handled_of_not_caught dumps (hclosed e hdisconnected), List.append_nil]
      refine ⟨.data v, content, hdumps, hlt, ?_, fun w => ?_⟩
      · rw [hstdout, hwritten]
      · rw [htask]
        simp

/-- At the end of a run exactly one reply has been written, with the right content, if and only if
what the handling came to could be replied and closing the connection was not answered to. -/
theorem replies_once (m : ReceivedMessage J) (es : List (Event J)) (s : State J)
    (h : Machine.exec (step dumps) (init m) es = some s) (hended : s.ended = true) :
    s.RepliedOnce dumps m ↔ s.Orderly dumps := by
  obtain ⟨hinv, hmessage⟩ := inv_run dumps h
  rw [← hmessage]
  exact repliedOnce_iff dumps hinv hended

end Json

/- Texts without anything to escape; the values are JSON texts themselves. -/
def sampleDumps (reply : Reply String) : Except Raised Bytes :=
  let body := match reply.body with
    | .data value => "\"data\": " ++ value
    | .error name message =>
      "\"error\": \x7b\"name\": \"" ++ name ++ "\", \"message\": \"" ++ message ++ "\"\x7d"
  .ok (Cbor.utf8 ("\x7b\"requestId\": " ++ reply.requestId ++ ", " ++ body ++ "\x7d"))

def sampleMessage : ReceivedMessage String where
  requestId := "0"
  cmd := some "get"
  options := .dict true .missing
  origin := some "https://example.org"
  topOrigin := some "https://example.org"

theorem sample_replied : ∃ s, Machine.exec (step sampleDumps) (init sampleMessage)
      [.interface (.ok ()), .credentialsd (.ok "null"), .resume (.ok ())] = some s ∧
    s.RepliedOnce sampleDumps sampleMessage := by
  refine ⟨_, rfl, ?_⟩
  apply (replies_once sampleDumps sampleMessage
    [.interface (.ok ()), .credentialsd (.ok "null"), .resume (.ok ())] _ rfl rfl).mpr
  constructor
  · intro e he
    cases he
  · intro v hv
    cases hv
    refine ⟨⟨_, (encodeMessage_ok sampleDumps).mpr ⟨_, rfl, ?_, rfl⟩⟩, fun e he => ?_⟩
    · decide +kernel
    · cases he

/-- `SIGTERM` while `main` waits for the portal. -/
theorem sigterm_not_replied : ∃ s, Machine.exec (step sampleDumps) (init sampleMessage)
      [.interface (.ok ()), .sigterm, .cancelTask, .resume (.ok ())] = some s ∧ s.ended = true ∧
    ¬s.RepliedOnce sampleDumps sampleMessage := by
  refine ⟨_, rfl, rfl, ?_⟩
  rintro ⟨body, content, -, -, hframe, -⟩
  exact frame_ne_nil content hframe.symm

end NativeHost

end Credentialsd
