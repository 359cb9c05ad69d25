import Credentialsd.Extension

/-!
# What a host replies

A host calls the portal once at most, with what its own request asks for. What it replies is
what its `main` has come to, and a reply with data has the results of the signal that has
settled the future of that call.
-/

namespace Credentialsd

open Shim (Runtime PasskeyOperation PortalCall PyValue)

/-! ### Steps of `main` -/

namespace NativeHost

variable {J : Type} (dumps : Reply J → Except Raised Bytes)

theorem raise_frame (s : State J) (e : Raised) :
    (s.raise dumps e).credentialsdTask = s.credentialsdTask ∧
      ∃ x, (s.raise dumps e).stage = .ended x := by
  unfold State.raise
  split
  · cases encodeMessage dumps ⟨s.message.requestId, .error e.name e.message⟩ with
    | ok message => exact ⟨rfl, _, rfl⟩
    | error e' => exact ⟨rfl, _, rfl⟩
  · exact ⟨rfl, _, rfl⟩

theorem gotInterface_frame (s : State J) (r : Except Raised Unit) :
    (s.gotInterface dumps r).credentialsdTask = s.credentialsdTask ∧
      (s.gotInterface dumps r).stage ≠ .gettingInterface := by
  have hraise (s' : State J) (e : Raised) (htask : s'.credentialsdTask = s.credentialsdTask) :
      (s'.raise dumps e).credentialsdTask = s.credentialsdTask ∧
        (s'.raise dumps e).stage ≠ .gettingInterface := by
    obtain ⟨hsame, x, hstage⟩ := raise_frame dumps s' e
    refine ⟨hsame.trans htask, ?_⟩
    rw [hstage]
    exact Stage.noConfusion
  cases r with
  | error e => exact hraise { s with interface := some (.error e) } e rfl
  | ok u =>
    simp only [State.gotInterface]
    cases readMessage s.message with
    | error e => exact hraise { s with interface := some (.ok u) } e rfl
    | ok cmd => exact ⟨rfl, Stage.noConfusion⟩

theorem resume_frame (s : State J) (r : Except Raised Unit) :
    (s.resume dumps r).credentialsdTask = s.credentialsdTask ∧
      ∃ x, (s.resume dumps r).stage = .ended x := by
  unfold State.resume
  split
  · exact raise_frame dumps s _
  · rename_i v htask
    cases encodeMessage dumps ⟨s.message.requestId, .data v⟩ with
    | error e => exact raise_frame dumps s e
    | ok message =>
      cases r with
      | error e =>
        exact raise_frame dumps
          { s with stdout := s.stdout ++ message, disconnected := some (.error e) } e
      | ok u => exact ⟨rfl, _, rfl⟩
  · split
    · exact raise_frame dumps s _
    · exact raise_frame dumps s _

/-- The operation comes to something only while `main` waits for it, and that stays. -/
theorem step_task {s t : State J} {e : Event J} (he : step dumps s e = some t) :
    t.credentialsdTask = s.credentialsdTask ∨
      ∃ r cmd, e = .credentialsd r ∧ s.credentialsdTask = none ∧
        readMessage s.message = .ok cmd ∧
        t.credentialsdTask = some (run cmd s.message.options r) := by
  cases e with
  | sigterm =>
    simp only [step] at he
    split at he <;> cases he
    exact Or.inl rfl
  | cancelTask =>
    simp only [step] at he
    split at he <;> cases he
    exact Or.inl rfl
  | interface r =>
    simp only [step] at he
    split at he <;> cases he
    exact Or.inl (gotInterface_frame dumps s r).1
  | credentialsd r =>
    simp only [step] at he
    split at he
    · rename_i cmd hstage htask hread
      cases he
      exact Or.inr ⟨r, cmd, rfl, htask, hread, rfl⟩
    · cases he
  | timer =>
    simp only [step] at he
    split at he <;> cases he
    exact Or.inl rfl
  | resume r =>
    simp only [step] at he
    split at he <;> cases he
    exact Or.inl (resume_frame dumps s r).1

/-- Once there is an interface, or none will come, `main` does not ask for it again. -/
theorem step_stage {s t : State J} {e : Event J} (he : step dumps s e = some t)
    (ht : t.stage = .gettingInterface) : s.stage = .gettingInterface := by
  cases e with
  | sigterm =>
    simp only [step] at he
    split at he <;> cases he
    exact ht
  | cancelTask =>
    simp only [step] at he
    split at he <;> cases he
    exact ht
  | interface r =>
    simp only [step] at he
    split at he
    · assumption
    · cases he
  | credentialsd r =>
    simp only [step] at he
    split at he <;> cases he
    exact ht
  | timer =>
    simp only [step] at he
    split at he <;> cases he
    exact ht
  | resume r =>
    simp only [step] at he
    split at he <;> cases he
    obtain ⟨-, x, hstage⟩ := resume_frame dumps s r
    rw [hstage] at ht
    cases ht

/-- What a reply tells of what the handling of the message has come to. -/
def Tells (s : State J) : Body J → Prop
  | .data v => s.outcome = .ok v
  | .error name message => ∃ e : Raised,
      e.isException = true ∧ name = e.name ∧ message = e.message ∧ (s.outcome = .error e ∨
        ∃ v, s.outcome = .ok v ∧ encodeMessage dumps ⟨s.message.requestId, .data v⟩ = .error e)

end NativeHost

namespace Host

open NativeHost (frame encodeMessage_ok)

/-! ### Reading a reply -/

theorem firstMessage_nil : firstMessage [] = none := by decide

theorem firstMessage_frame (content more : Bytes) (h : content.length < 4294967296) :
    firstMessage (frame content ++ more) = some content := by
  have hhead : (frame content ++ more).take 4 = (Cbor.bigEndian 4 content.length).reverse := by
    unfold frame
    rw [List.append_assoc, List.take_left' (by simp)]
  have htail : (frame content ++ more).drop 4 = content ++ more := by
    unfold frame
    rw [List.append_assoc, List.drop_left' (by simp)]
  have hlength : Cbor.fromBigEndian ((frame content ++ more).take 4).reverse = content.length := by
    rw [hhead, List.reverse_reverse]
    exact Cbor.fromBigEndian_bigEndian (by omega)
  unfold firstMessage
  simp only [hlength, htail, List.take_left']
  rw [if_pos]
  rw [List.length_append, NativeHost.frame_length]
  omega

section Reply

variable {J : Type} (dumps : NativeHost.Reply J → Except NativeHost.Raised Bytes)

theorem firstMessage_encoded {reply : NativeHost.Reply J} {message more content : Bytes}
    (h : NativeHost.encodeMessage dumps reply = .ok message)
    (hfirst : firstMessage (message ++ more) = some content) : dumps reply = .ok content := by
  obtain ⟨content', hdumps, hlt, rfl⟩ := (encodeMessage_ok dumps).mp h
  rw [firstMessage_frame content' more hlt] at hfirst
  cases hfirst
  exact hdumps

theorem firstMessage_handled {s : NativeHost.State J} {e : NativeHost.Raised} {content : Bytes}
    (h : firstMessage (s.handled dumps e) = some content) :
    e.isException = true ∧
      dumps ⟨s.message.requestId, .error e.name e.message⟩ = .ok content := by
  unfold NativeHost.State.handled at h
  split at h
  · rename_i hexception
    cases hencoded : NativeHost.encodeMessage dumps
        ⟨s.message.requestId, .error e.name e.message⟩ with
    | error e' =>
      rw [hencoded] at h
      rw [firstMessage_nil] at h
      cases h
    | ok message =>
      rw [hencoded] at h
      rw [← List.append_nil message] at h
      exact ⟨hexception, firstMessage_encoded dumps hencoded h⟩
  · rw [firstMessage_nil] at h
    cases h

theorem firstMessage_written {s : NativeHost.State J} {content : Bytes}
    (h : firstMessage (s.written dumps) = some content) :
    ∃ body, dumps ⟨s.message.requestId, body⟩ = .ok content ∧ NativeHost.Tells dumps s body := by
  unfold NativeHost.State.written at h
  cases houtcome : s.outcome with
  | error e =>
    rw [houtcome] at h
    obtain ⟨hexception, hdumps⟩ := firstMessage_handled dumps h
    exact ⟨_, hdumps, e, hexception, rfl, rfl, Or.inl houtcome⟩
  | ok v =>
    rw [houtcome] at h
    cases hdata : NativeHost.encodeMessage dumps ⟨s.message.requestId, .data v⟩ with
    | error e =>
      simp only [hdata] at h
      obtain ⟨hexception, hdumps⟩ := firstMessage_handled dumps h
      exact ⟨_, hdumps, e, hexception, rfl, rfl, Or.inr ⟨v, houtcome, hdata⟩⟩
    | ok message =>
      simp only [hdata] at h
      refine ⟨.data v, ?_, houtcome⟩
      split at h
      · exact firstMessage_encoded dumps hdata h
      · rw [← List.append_nil message] at h
        exact firstMessage_encoded dumps hdata h

/-- What stands in the output is what `main` has come to. -/
theorem firstMessage_inv {s : NativeHost.State J} {content : Bytes} (hs : NativeHost.Inv dumps s)
    (h : firstMessage s.stdout = some content) :
    ∃ body, dumps ⟨s.message.requestId, body⟩ = .ok content ∧ NativeHost.Tells dumps s body := by
  cases hstage : s.stage with
  | gettingInterface =>
    simp only [NativeHost.Inv, hstage] at hs
    rw [hs.1, firstMessage_nil] at h
    cases h
  | waiting =>
    simp only [NativeHost.Inv, hstage] at hs
    rw [hs.1, firstMessage_nil] at h
    cases h
  | ended escaped =>
    simp only [NativeHost.Inv, hstage] at hs
    rw [hs.1] at h
    exact firstMessage_written dumps h

end Reply

/-! ### What holds of a host -/

section

variable (rt : Runtime)

/-- The operation has called the portal with what the options ask for. -/
structure Called (h : Host) (o : PasskeyOperation) : Prop where
  asked : ∃ options reqJson, PageOptions.publicKeyOptions h.options = .ok options ∧
    rt.dumps options = .ok reqJson ∧
    Shim.portalCall h.task.request.cmd h.origin h.topOrigin reqJson o.request.token = some o.call
  named : h.uniqueName = some o.request.uniqueName

/-- The result comes from the portal. -/
def Completed (h : Host) (v : PyValue) : Prop :=
  ∃ o value, h.operation = some o ∧ o.future rt = .done (.result value) ∧
    rt.result h.task.request.cmd (.result value) = .ok v

structure Inv (h : Host) : Prop where
  native : NativeHost.Inv rt.encode h.process
  message : h.process.message = message h.task h.origin h.topOrigin h.options
  options : h.options = requestOptions rt h.task.request
  early : h.process.stage = .gettingInterface → h.operation = none
  called : ∀ o, h.operation = some o → h.Called rt o
  completed : ∀ v, h.process.credentialsdTask = some (.ok v) →
    h.task.request.cmd = .getClientCapabilities ∨ h.Completed rt v

theorem inv_launch (origin topOrigin : String) (task : AddOn.Task) :
    (launch rt origin topOrigin task).Inv rt where
  native := ⟨rfl, rfl, rfl, rfl⟩
  message := rfl
  options := rfl
  early := fun _ => rfl
  called := fun o h => by cases h
  completed := fun v h => by cases h

/-- What a step leaves as it is. -/
structure Frame (h h' : Host) : Prop where
  task : h'.task = h.task
  origin : h'.origin = h.origin

theorem moves_eq {h h' : Host} {e : NativeHost.Event PyValue} (he : h.moves rt e = some h') :
    ∃ process, NativeHost.step rt.encode h.process e = some process ∧
      h' = { h with process } := by
  unfold moves at he
  obtain ⟨process, hprocess, rfl⟩ := Option.map_eq_some_iff.mp he
  exact ⟨process, hprocess, rfl⟩

/-- A step of `main` by which the operation comes to what it should, if to anything. -/
theorem inv_moves {h h' : Host} {e : NativeHost.Event PyValue} (hi : h.Inv rt)
    (he : h.moves rt e = some h')
    (hresult : ∀ r cmd v, e = .credentialsd r →
      NativeHost.readMessage h.process.message = .ok cmd →
      NativeHost.run cmd h.process.message.options r = .ok v →
      h.task.request.cmd = .getClientCapabilities ∨ h.Completed rt v) :
    h'.Inv rt := by
  obtain ⟨process, hprocess, rfl⟩ := moves_eq rt he
  refine ⟨NativeHost.inv_step rt.encode hi.native hprocess, ?_, hi.options, ?_, ?_, ?_⟩
  · rw [NativeHost.step_message rt.encode hprocess]
    exact hi.message
  · exact fun hstage => hi.early (NativeHost.step_stage rt.encode hprocess hstage)
  · intro o ho
    obtain ⟨hasked, hnamed⟩ := hi.called o ho
    exact ⟨hasked, hnamed⟩
  · intro v hv
    rcases NativeHost.step_task rt.encode hprocess with hsame | ⟨r, cmd, rfl, -, hread, htask⟩
    · exact hi.completed v (hsame ▸ hv)
    · rw [htask] at hv
      cases hrun : NativeHost.run cmd h.process.message.options r with
      | error e =>
        rw [hrun] at hv
        cases hv
      | ok w =>
        rw [hrun] at hv
        cases hv
        exact hresult r cmd v rfl hread hrun

/-- A step of `main` that is none of the operation. -/
theorem inv_moves_other {h h' : Host} {e : NativeHost.Event PyValue} (hi : h.Inv rt)
    (he : h.moves rt e = some h') (hother : ∀ r, e ≠ .credentialsd r) : h'.Inv rt :=
  inv_moves rt hi he fun r _ _ hr => absurd hr (hother r)

theorem inv_interface {h h' : Host} {r : Except NativeHost.Raised String} (hi : h.Inv rt)
    (he : h.step rt (.interface r) = some h') : h'.Inv rt := by
  simp only [step] at he
  obtain ⟨h₁, hmoved, rfl⟩ := Option.map_eq_some_iff.mp he
  have hinv := inv_moves_other rt hi hmoved nofun
  obtain ⟨process, hprocess, rfl⟩ := moves_eq rt hmoved
  -- Before there is an interface there is no operation that could have used the name.
  have hearly : h.operation = none := by
    apply hi.early
    simp only [NativeHost.step] at hprocess
    split at hprocess
    · assumption
    · cases hprocess
  refine ⟨hinv.native, hinv.message, hinv.options, hinv.early, ?_, hinv.completed⟩
  intro o ho
  rw [hearly] at ho
  cases ho

theorem run_ok {J : Type} {cmd : String} {options : NativeHost.Options}
    {r : Except NativeHost.Raised J} {v : J} (h : NativeHost.run cmd options r = .ok v) :
    r = .ok v := by
  unfold NativeHost.run at h
  split at h
  · split at h
    · exact h
    · cases h
    · cases h
    · cases h
  · split at h
    · exact h
    · cases h

/- An operation that fails has no result. -/
theorem inv_failed {h h' : Host} {e : NativeHost.Raised} (hi : h.Inv rt)
    (he : h.moves rt (.credentialsd (.error e)) = some h') : h'.Inv rt := by
  refine inv_moves rt hi he fun r cmd v hr _ hrun => ?_
  cases hr
  cases run_ok hrun

theorem inv_begin {h h' : Host} {connected : Bool} {token : String} (hi : h.Inv rt)
    (he : h.step rt (.begin connected token) = some h') : h'.Inv rt := by
  simp only [step] at he
  split at he
  · rename_i hwaiting
    obtain ⟨hwaits, hnone⟩ := (Bool.and_eq_true _ _).mp hwaiting
    obtain ⟨hstage, htask⟩ := (Bool.and_eq_true _ _).mp hwaits
    unfold beginOperation at he
    cases hoptions : PageOptions.publicKeyOptions h.options with
    | error e =>
      rw [hoptions] at he
      exact inv_failed rt hi he
    | ok options =>
      cases hdumps : rt.dumps options with
      | error e =>
        simp only [hoptions, hdumps] at he
        exact inv_failed rt hi he
      | ok reqJson =>
        cases hcreate : Shim.PortalRequest.create ⟨connected, h.uniqueName⟩ token with
        | error text =>
          simp only [hoptions, hdumps, hcreate] at he
          exact inv_failed rt hi he
        | ok request =>
          simp only [hoptions, hdumps, hcreate] at he
          obtain ⟨call, hcall, rfl⟩ := Option.map_eq_some_iff.mp he
          have hrequest : h.uniqueName = some request.uniqueName ∧ request.token = token := by
            unfold Shim.PortalRequest.create at hcreate
            split at hcreate
            · rename_i name hconnected hname
              cases hcreate
              exact ⟨hname, rfl⟩
            · cases hcreate
          refine ⟨hi.native, hi.message, hi.options, ?_, ?_, ?_⟩
          · intro hgetting
            rw [show h.process.stage = .waiting by simpa using hstage] at hgetting
            cases hgetting
          · intro o ho
            cases ho
            exact ⟨⟨options, reqJson, hoptions, hdumps, by rw [hrequest.2]; exact hcall⟩,
              hrequest.1⟩
          · intro v hv
            rw [show h.process.credentialsdTask = none by simpa using htask] at hv
            cases hv
  · cases he

/-- The operation goes on with the call that it has made, and what it has got stays. -/
theorem inv_operation {h : Host} {o o' : PasskeyOperation} (hi : h.Inv rt)
    (ho : h.operation = some o) (hcall : o'.call = o.call) (hrequest : o'.request = o.request)
    (hfuture : ∀ outcome, o.future rt = .done outcome → o'.future rt = .done outcome) :
    ({ h with operation := some o' } : Host).Inv rt := by
  refine ⟨hi.native, hi.message, hi.options, ?_, ?_, ?_⟩
  · intro hgetting
    rw [hi.early hgetting] at ho
    cases ho
  · intro o₁ ho₁
    cases ho₁
    obtain ⟨⟨options, reqJson, hoptions, hdumps, hportal⟩, hnamed⟩ := hi.called o ho
    refine ⟨⟨options, reqJson, hoptions, hdumps, ?_⟩, ?_⟩
    · rw [hcall, hrequest]
      exact hportal
    · rw [hrequest]
      exact hnamed
  · intro v hv
    refine (hi.completed v hv).imp_right ?_
    rintro ⟨o₁, value, ho₁, hvalue, hresult⟩
    rw [ho] at ho₁
    cases ho₁
    exact ⟨o', value, rfl, hfuture _ hvalue, hresult⟩

theorem inv_hear {h h' : Host} {e : Shim.Event} (hi : h.Inv rt) (he : h.hear e = some h') :
    h'.Inv rt := by
  obtain ⟨o, ho, rfl⟩ := Option.map_eq_some_iff.mp he
  exact inv_operation rt hi ho rfl rfl fun _ hdone =>
    PasskeyOperation.future_receive rt hdone e

theorem inv_returned {h h' : Host} {r : Except NativeHost.Raised Unit} (hi : h.Inv rt)
    (he : h.returnCall rt r = some h') : h'.Inv rt := by
  obtain ⟨o, ho, hreturned⟩ := Option.bind_eq_some_iff.mp he
  cases r with
  | error e => exact inv_failed rt hi hreturned
  | ok u =>
    cases hreturned
    exact inv_operation rt hi ho rfl rfl fun _ hdone => hdone

theorem inv_complete {h h' : Host} (hi : h.Inv rt) (he : h.completeOperation rt = some h') :
    h'.Inv rt := by
  obtain ⟨o, ho, hcompleted⟩ := Option.bind_eq_some_iff.mp he
  split at hcompleted
  · rename_i outcome hreturned hfuture
    refine inv_moves rt hi hcompleted fun r cmd v hr _ hrun => ?_
    cases hr
    have hresult := run_ok hrun
    cases outcome with
    | exception e => cases hresult
    | result value => exact Or.inr ⟨o, value, ho, hfuture, hresult⟩
  · cases hcompleted

theorem inv_step {h h' : Host} {l : Label} (hi : h.Inv rt) (he : h.step rt l = some h') :
    h'.Inv rt := by
  cases l with
  | sigterm => exact inv_moves_other rt hi he nofun
  | cancelTask => exact inv_moves_other rt hi he nofun
  | timer => exact inv_moves_other rt hi he nofun
  | interface r => exact inv_interface rt hi he
  | begin connected token => exact inv_begin rt hi he
  | capabilities r =>
    simp only [step] at he
    split at he
    · rename_i hcmd
      exact inv_moves rt hi he fun _ _ _ _ _ _ => Or.inl hcmd
    · cases he
  | hear e => exact inv_hear rt hi he
  | returned r => exact inv_returned rt hi he
  | complete => exact inv_complete rt hi he
  | resume r => exact inv_moves_other rt hi he nofun

/-! ### What a step leaves as it is -/

theorem frame_moves {h h' : Host} {e : NativeHost.Event PyValue} (he : h.moves rt e = some h') :
    h.Frame h' ∧ h'.uniqueName = h.uniqueName := by
  obtain ⟨process, -, rfl⟩ := moves_eq rt he
  exact ⟨⟨rfl, rfl⟩, rfl⟩

theorem frame_begin {h h' : Host} {connected : Bool} {token : String}
    (he : h.beginOperation rt connected token = some h') :
    h.Frame h' ∧ h'.uniqueName = h.uniqueName := by
  unfold beginOperation at he
  split at he
  · exact frame_moves rt he
  · split at he
    · exact frame_moves rt he
    · split at he
      · exact frame_moves rt he
      · obtain ⟨call, -, rfl⟩ := Option.map_eq_some_iff.mp he
        exact ⟨⟨rfl, rfl⟩, rfl⟩

/-- A step keeps the task and the origin, and the name unless it is the one that the bus gives. -/
theorem frame_step {h h' : Host} {l : Label} (he : h.step rt l = some h') :
    h.Frame h' ∧ (h'.uniqueName = h.uniqueName ∨
      ∃ r, l = .interface r ∧ h'.uniqueName = r.toOption) := by
  cases l with
  | sigterm => exact (frame_moves rt he).imp_right Or.inl
  | cancelTask => exact (frame_moves rt he).imp_right Or.inl
  | timer => exact (frame_moves rt he).imp_right Or.inl
  | interface r =>
    simp only [step] at he
    obtain ⟨h₁, hmoved, rfl⟩ := Option.map_eq_some_iff.mp he
    obtain ⟨⟨htask, horigin⟩, -⟩ := frame_moves rt hmoved
    exact ⟨⟨htask, horigin⟩, Or.inr ⟨r, rfl, rfl⟩⟩
  | begin connected token =>
    simp only [step] at he
    split at he
    · exact (frame_begin rt he).imp_right Or.inl
    · cases he
  | capabilities r =>
    simp only [step] at he
    split at he
    · exact (frame_moves rt he).imp_right Or.inl
    · cases he
  | hear e =>
    obtain ⟨o, -, rfl⟩ := Option.map_eq_some_iff.mp he
    exact ⟨⟨rfl, rfl⟩, Or.inl rfl⟩
  | returned r =>
    obtain ⟨o, -, hreturned⟩ := Option.bind_eq_some_iff.mp he
    cases r with
    | error e => exact (frame_moves rt hreturned).imp_right Or.inl
    | ok u =>
      cases hreturned
      exact ⟨⟨rfl, rfl⟩, Or.inl rfl⟩
  | complete =>
    obtain ⟨o, -, hcompleted⟩ := Option.bind_eq_some_iff.mp he
    split at hcompleted
    · exact (frame_moves rt hcompleted).imp_right Or.inl
    · cases hcompleted
  | resume r => exact (frame_moves rt he).imp_right Or.inl

/-! ### The reply of a host -/

/-- The host can only reply to its own request, and with what its `main` has come to. -/
theorem outcome_tells {h : Host} {response : AddOn.Response} (hrt : rt.Faithful) (hi : h.Inv rt)
    (houtcome : h.outcome rt = some (some response)) :
    response.requestId = h.task.request.requestId ∧
      ∃ body, NativeHost.Tells rt.encode h.process body ∧
        match body with
        | .data v => response.reply = .data (rt.arrives v)
        | .error name message => response.reply = .error name message := by
  unfold outcome at houtcome
  cases hfirst : firstMessage h.process.stdout with
  | none =>
    simp only [hfirst] at houtcome
    split at houtcome
    · cases houtcome
    · cases houtcome
  | some content =>
    simp only [hfirst] at houtcome
    obtain ⟨body, hencoded, htells⟩ := firstMessage_inv rt.encode hi.native hfirst
    obtain ⟨hid, hreply⟩ := hrt _ content response hencoded (Option.some.inj houtcome)
    rw [hi.message] at hid
    refine ⟨?_, body, htells, hreply⟩
    have hid : (h.task.request.requestId : Int) = response.requestId := by
      simpa [message] using hid
    omega

/-- A result is one of the portal, if the request has options when it is one for a credential. -/
theorem completed_of_outcome {h : Host} {v : PyValue} (hi : h.Inv rt)
    (hcmd : h.task.request.cmd = .getClientCapabilities → h.task.request.options = none)
    (houtcome : h.process.outcome = .ok v) : h.Completed rt v := by
  rcases hi.completed v (NativeHost.State.task_of_outcome houtcome) with hcapabilities | hcompleted
  · -- Without options `main` has raised, whatever the interface has come to.
    exfalso
    have hoptions : h.options = .none := by
      rw [hi.options]
      unfold requestOptions
      rw [hcmd hcapabilities]
    have hread : NativeHost.readMessage h.process.message =
        .error (NativeHost.noGet "NoneType") := by
      rw [hi.message, hoptions]
      rfl
    have hraised : ∃ e, h.process.outcome = .error e := by
      unfold NativeHost.State.outcome
      rw [hread]
      cases h.process.interface with
      | none => exact ⟨_, rfl⟩
      | some r =>
        cases r with
        | error e => exact ⟨_, rfl⟩
        | ok u => exact ⟨_, rfl⟩
    obtain ⟨e, he⟩ := hraised
    rw [he] at houtcome
    cases houtcome
  · exact hcompleted

end

end Host

end Credentialsd
