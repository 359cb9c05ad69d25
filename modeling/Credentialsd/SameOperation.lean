import Mathlib.Data.List.Forall2
import Credentialsd.Opening

/-!
# USB and NFC run the same operation

From the moment that a device is connected, two handlers whose functions agree up to
relations between their states and between their messages go through the same run:
each step of one is a step of the other. The handlers of USB and NFC agree as long as
the authenticator does not ask for the user's presence.
-/

namespace Credentialsd

/-! ### Lists that agree -/

theorem any_forall₂ {α β : Type} {R : α → β → Prop} {p : α → Bool} {q : β → Bool}
    {xs : List α} {ys : List β} (hR : ∀ a b, R a b → p a = q b) (h : List.Forall₂ R xs ys) :
    xs.any p = ys.any q := by
  induction h with
  | nil => rfl
  | cons hab _ ih => rw [List.any_cons, List.any_cons, hR _ _ hab, ih]

/- A prefix in which nothing is found can be left out. -/
theorem any_take_prefix {α : Type} {p : α → Bool} {xs : List α} (h : ∀ x ∈ xs, p x = false)
    (ys : List α) (n : Nat) :
    ((xs ++ ys).take n).any p = (ys.take (n - xs.length)).any p := by
  have hnone : (xs.take n).any p = false := by
    refine List.any_eq_false.mpr fun x hx => ?_
    rw [h x (List.mem_of_mem_take hx)]
    decide
  rw [List.take_append, List.any_append, hnone, Bool.false_or]

theorem any_drop_prefix {α : Type} {p : α → Bool} {xs : List α} (h : ∀ x ∈ xs, p x = false)
    (ys : List α) (n : Nat) :
    ((xs ++ ys).drop n).any p = (ys.drop (n - xs.length)).any p := by
  have hnone : (xs.drop n).any p = false := by
    refine List.any_eq_false.mpr fun x hx => ?_
    rw [h x (List.mem_of_mem_drop hx)]
    decide
  rw [List.drop_append, List.any_append, hnone, Bool.false_or]

/-! ### Handlers that agree -/

/- The same phase of an operation, on devices of either kind. -/
inductive Phase.Agree {D D' : Type} : Phase D → Phase D' → Prop where
  | interaction : Agree .interaction .interaction
  | selectCredential (response : GetAssertionResponse) :
    Agree (.selectCredential response) (.selectCredential response)
  | completed : Agree .completed .completed
  | failed (err : CredentialServiceError) : Agree (.failed err) (.failed err)

inductive ResultAgree {α β : Type} (R : α → β → Prop) :
    Except CredentialServiceError α → Except CredentialServiceError β → Prop where
  | ok {a : α} {b : β} (h : R a b) : ResultAgree R (.ok a) (.ok b)
  | error (err : CredentialServiceError) : ResultAgree R (.error err) (.error err)

/-- The functions of two handlers take related states and messages to related ones. Messages for
the user's presence are left out. -/
structure Handler.Agrees {S M D F S' M' D' F' : Type} (h : Handler S M D F)
    (h' : Handler S' M' D' F') (st : S → S' → Prop) (msg : M → M' → Prop) : Prop where
  phase : ∀ a b, st a b → (h.phase a).Agree (h'.phase b)
  failed : ∀ err, st (h.failed err) (h'.failed err)
  interact : ∀ tx m m', msg m m' → ResultAgree st (h.processUserInteraction tx (some (.ok m)))
    (h'.processUserInteraction tx (some (.ok m')))
  select : ∀ response reply, ResultAgree st (h.processSelectCredential response reply)
    (h'.processSelectCredential response reply)
  changed : ∀ a b a' b', st a b → st a' b' → h'.stateChanged b b' = h.stateChanged a a'
  update : ∀ tx u, u ≠ .presenceRequired →
    ∃ m m', h.handleUpdate tx u = some m ∧ h'.handleUpdate tx u = some m' ∧ msg m m'
  received : ∀ r, msg (h.receivedCredentials r) (h'.receivedCredentials r)
  replyTx : ∀ a b, st a b → h'.replyTx b = h.replyTx a
  msgTx : ∀ m m', msg m m' → h'.msgTx m' = h.msgTx m
  noReply : ∀ a, h.phase a = .connected → h.replyTx a = none
  noReply' : ∀ b, h'.phase b = .connected → h'.replyTx b = none

theorem Phase.Agree.symm {D D' : Type} {p : Phase D} {p' : Phase D'} (h : p.Agree p') :
    p'.Agree p := by
  cases h with
  | interaction => exact .interaction
  | selectCredential response => exact .selectCredential response
  | completed => exact .completed
  | failed err => exact .failed err

theorem ResultAgree.symm {α β : Type} {R : α → β → Prop} {x : Except CredentialServiceError α}
    {y : Except CredentialServiceError β} (h : ResultAgree R x y) :
    ResultAgree (fun b a => R a b) y x := by
  cases h with
  | ok h => exact .ok h
  | error err => exact .error err

theorem Handler.Agrees.symm {S M D F S' M' D' F' : Type} {h : Handler S M D F}
    {h' : Handler S' M' D' F'} {st : S → S' → Prop} {msg : M → M' → Prop}
    (ha : h.Agrees h' st msg) : h'.Agrees h (fun b a => st a b) (fun m' m => msg m m') where
  phase b a hab := (ha.phase a b hab).symm
  failed := ha.failed
  interact tx m' m hm := (ha.interact tx m m' hm).symm
  select response reply := (ha.select response reply).symm
  changed b a b' a' hab hab' := (ha.changed a b a' b' hab hab').symm
  update tx u hu := by
    obtain ⟨m, m', hm, hm', hmsg⟩ := ha.update tx u hu
    exact ⟨m', m, hm', hm, hmsg⟩
  received := ha.received
  replyTx b a hab := (ha.replyTx a b hab).symm
  msgTx m' m hm := (ha.msgTx m m' hm).symm
  noReply := ha.noReply'
  noReply' := ha.noReply

namespace Process

/-! ### Processes that agree -/

/- The end of the loop, up to the text of an internal error. -/
def SameEnd (r r' : Except CredentialServiceError Unit) : Prop :=
  match r, r' with
  | .ok (), .ok () => True
  | .error err, .error err' => err.ctorIdx = err'.ctorIdx
  | _, _ => False

inductive Pending.Agree {S S' : Type} : Pending S → Pending S' → Prop where
  | interacting : Agree .interacting .interacting
  | choosing (response : GetAssertionResponse) : Agree (.choosing response) (.choosing response)
  | emitting : Agree .emitting .emitting
  | done {r r' : Except CredentialServiceError Unit} (h : SameEnd r r') : Agree (.done r) (.done r')

theorem SameEnd.symm {r r' : Except CredentialServiceError Unit} (h : SameEnd r r') :
    SameEnd r' r := by
  cases r with
  | ok u => cases r' <;> exact h
  | error err =>
    cases r' with
    | ok u => exact h
    | error err' => exact Eq.symm h

theorem Pending.Agree.symm {S S' : Type} {p : Pending S} {p' : Pending S'} (h : p.Agree p') :
    p'.Agree p := by
  cases h with
  | interacting => exact .interacting
  | choosing response => exact .choosing response
  | emitting => exact .emitting
  | done h => exact .done h.symm

inductive EventsTask.Agree {M M' : Type} (msg : M → M' → Prop) :
    EventsTask M → EventsTask M' → Prop where
  | notSpawned : Agree msg .notSpawned .notSpawned
  | opening : Agree msg .opening .opening
  | operating : Agree msg .operating .operating
  | sending {x : Except CredentialServiceError M} {x' : Except CredentialServiceError M'}
    (h : ResultAgree msg x x') : Agree msg (.sending x) (.sending x')
  | ended : Agree msg .ended .ended

inductive UpdatesTask.Agree {M M' : Type} (msg : M → M' → Prop) :
    UpdatesTask M → UpdatesTask M' → Prop where
  | notSpawned : Agree msg .notSpawned .notSpawned
  | receiving : Agree msg .receiving .receiving
  | relaying {m : M} {m' : M'} (pinTx : Option ReplyTx) (h : msg m m') :
    Agree msg (.relaying m pinTx) (.relaying m' pinTx)
  | awaitingPin (pinTx : ReplyTx) : Agree msg (.awaitingPin pinTx) (.awaitingPin pinTx)
  | ended : Agree msg .ended .ended

theorem Pending.Agree.alive {S S' : Type} {p : Pending S} {p' : Pending S'} (h : p.Agree p') :
    p'.alive = p.alive := by
  cases h <;> rfl

theorem Pending.Agree.cancellable {S S' : Type} {p : Pending S} {p' : Pending S'}
    (h : p.Agree p') : p'.cancellable = p.cancellable := by
  cases h <;> rfl

theorem Pending.Agree.selects {S S' : Type} {p : Pending S} {p' : Pending S'} (h : p.Agree p') :
    p.selects = false ∧ p'.selects = false := by
  cases h <;> exact ⟨rfl, rfl⟩

theorem Pending.Agree.interacting_right {S S' : Type} {p' : Pending S'}
    (h : (Pending.interacting : Pending S).Agree p') : p' = .interacting := by
  cases h
  rfl

theorem Pending.Agree.choosing_right {S S' : Type} {response : GetAssertionResponse}
    {p' : Pending S'} (h : (Pending.choosing response : Pending S).Agree p') :
    p' = .choosing response := by
  cases h
  rfl

theorem Pending.Agree.emitting_right {S S' : Type} {p' : Pending S'}
    (h : (Pending.emitting : Pending S).Agree p') : p' = .emitting := by
  cases h
  rfl

theorem EventsTask.Agree.opening_right {M M' : Type} {msg : M → M' → Prop} {e' : EventsTask M'}
    (h : EventsTask.Agree msg .opening e') : e' = .opening := by
  cases h
  rfl

theorem EventsTask.Agree.operating_right {M M' : Type} {msg : M → M' → Prop} {e' : EventsTask M'}
    (h : EventsTask.Agree msg .operating e') : e' = .operating := by
  cases h
  rfl

theorem EventsTask.Agree.sending_right {M M' : Type} {msg : M → M' → Prop}
    {x : Except CredentialServiceError M} {e' : EventsTask M'}
    (h : EventsTask.Agree msg (.sending x) e') :
    ∃ x', e' = .sending x' ∧ ResultAgree msg x x' := by
  cases h with
  | sending hx => exact ⟨_, rfl, hx⟩

theorem UpdatesTask.Agree.receiving_right {M M' : Type} {msg : M → M' → Prop}
    {e' : UpdatesTask M'} (h : UpdatesTask.Agree msg .receiving e') : e' = .receiving := by
  cases h
  rfl

theorem UpdatesTask.Agree.relaying_right {M M' : Type} {msg : M → M' → Prop} {m : M}
    {pinTx : Option ReplyTx} {e' : UpdatesTask M'}
    (h : UpdatesTask.Agree msg (.relaying m pinTx) e') :
    ∃ m', e' = .relaying m' pinTx ∧ msg m m' := by
  cases h with
  | relaying _ hm => exact ⟨_, rfl, hm⟩

theorem UpdatesTask.Agree.awaitingPin_right {M M' : Type} {msg : M → M' → Prop}
    {pinTx : ReplyTx} {e' : UpdatesTask M'}
    (h : UpdatesTask.Agree msg (.awaitingPin pinTx) e') : e' = .awaitingPin pinTx := by
  cases h
  rfl

theorem EventsTask.Agree.holdsSender {M M' : Type} {msg : M → M' → Prop} {e : EventsTask M}
    {e' : EventsTask M'} (h : e.Agree msg e') : e'.holdsSender = e.holdsSender := by
  cases h <;> rfl

theorem EventsTask.Agree.channelOpen {M M' : Type} {msg : M → M' → Prop} {e : EventsTask M}
    {e' : EventsTask M'} (h : e.Agree msg e') : e'.channelOpen = e.channelOpen := by
  cases h <;> rfl

theorem UpdatesTask.Agree.relayed {M M' : Type} {msg : M → M' → Prop} (pinTx : Option ReplyTx) :
    UpdatesTask.Agree msg (.relayed pinTx) (.relayed pinTx) := by
  cases pinTx with
  | none => exact .receiving
  | some pinTx => exact .awaitingPin pinTx

section agree

variable {S M D F S' M' D' F' : Type} (h : Handler S M D F) (h' : Handler S' M' D' F')
  (st : S → S' → Prop) (msg : M → M' → Prop) (c : Ceremony)

/-- What two processes have in common besides what their loops await; `pre` and `pre'` are the
states that they had sent before. -/
structure Beside (pre : List S) (pre' : List S') (s : Process S M D) (s' : Process S' M' D') :
    Prop where
  signals : List.Forall₂ (ResultAgree msg) s.signals s'.signals
  creds : s'.creds = s.creds
  events : s.events.Agree msg s'.events
  updates : s.updates.Agree msg s'.updates
  ux : s'.ux = s.ux
  noPresence : UvUpdate.presenceRequired ∉ s.ux.queue
  nextTx : s'.nextTx = s.nextTx
  sent : ∃ new new', s.sent = pre ++ new ∧ s'.sent = pre' ++ new' ∧ List.Forall₂ st new new'
  unread : s.taken + pre'.length = s'.taken + pre.length
  cancelled : s'.cancelled = s.cancelled
  consumer : s'.consumer = s.consumer
  selection : s.selection.loop = .gone
  selection' : s'.selection.loop = .gone
  noPrompt : ∀ x ∈ pre, h.replyTx x = none
  noPrompt' : ∀ x ∈ pre', h'.replyTx x = none

def StatesAgree (a : S) (b : S') : Prop :=
  (h.phase a = .connected ∧ h'.phase b = .connected) ∨ st a b

structure Agree (pre : List S) (pre' : List S') (s : Process S M D) (s' : Process S' M' D') :
    Prop extends Beside h h' st msg pre pre' s s' where
  state : StatesAgree h h' st s.state s'.state
  pending : s.pending.Agree s'.pending
  emitting : s.pending = .emitting → st s.state s'.state

variable {h h' st msg} {pre : List S} {pre' : List S'}

/-! ### The loop -/

theorem changed_of_phase (hh : Handler S M D F) {a b : S}
    (hne : (hh.phase a).ctorIdx ≠ (hh.phase b).ctorIdx) : hh.stateChanged a b = true := by
  cases hch : hh.stateChanged a b with
  | true => rfl
  | false => exact absurd (hh.changed_phase a b hch) hne

/- The loop leaves the connected state for a phase of the operation. -/
theorem Phase.Agree.ctorIdx_ne {p : Phase D} {p' : Phase D'} (ha : p.Agree p') :
    p.ctorIdx ≠ (Phase.connected : Phase D).ctorIdx ∧
      p'.ctorIdx ≠ (Phase.connected : Phase D').ctorIdx := by
  cases ha <;> simp [Phase.ctorIdx]

theorem statesAgree_changed (ha : h.Agrees h' st msg) {a new : S} {b new' : S'}
    (hold : StatesAgree h h' st a b) (hnew : st new new') :
    h'.stateChanged new' b = h.stateChanged new a := by
  rcases hold with ⟨hp, hp'⟩ | hold
  · obtain ⟨hne, hne'⟩ := Phase.Agree.ctorIdx_ne (ha.phase new new' hnew)
    rw [← hp] at hne
    rw [← hp'] at hne'
    rw [changed_of_phase h hne, changed_of_phase h' hne']
  · exact ha.changed new new' a b hnew hold

theorem again_agree (ha : h.Agrees h' st msg) (s : Process S M D) (s' : Process S' M' D')
    (hb : Beside h h' st msg pre pre' s s') (hst : st s.state s'.state) :
    Agree h h' st msg pre pre' (again h s) (again h' s') := by
  have hphase := ha.phase s.state s'.state hst
  unfold again
  generalize h.phase s.state = p at hphase
  generalize h'.phase s'.state = p' at hphase
  cases hphase with
  | interaction => exact ⟨{ hb with }, Or.inr hst, .interacting, fun _ => hst⟩
  | selectCredential response => exact ⟨{ hb with }, Or.inr hst, .choosing response, fun _ => hst⟩
  | completed => exact ⟨{ hb with }, Or.inr hst, .done trivial, fun _ => hst⟩
  | failed err => exact ⟨{ hb with }, Or.inr hst, .done rfl, fun _ => hst⟩

theorem enter_agree (ha : h.Agrees h' st msg) {s : Process S M D} {s' : Process S' M' D'}
    (hb : Beside h h' st msg pre pre' s s') (hold : StatesAgree h h' st s.state s'.state)
    {a : S} {b : S'} (hst : st a b) :
    Agree h h' st msg pre pre' (enter h s a) (enter h' s' b) := by
  unfold enter
  rw [statesAgree_changed ha hold hst]
  split
  · exact ⟨{ hb with }, Or.inr hst, .emitting, fun _ => hst⟩
  · exact again_agree ha { s with state := a } { s' with state := b }
      { hb with } hst

theorem settle_agree (ha : h.Agrees h' st msg) (s : Process S M D) (s' : Process S' M' D')
    (hb : Beside h h' st msg pre pre' s s') (hold : StatesAgree h h' st s.state s'.state)
    {next : Except CredentialServiceError S} {next' : Except CredentialServiceError S'}
    (hnext : ResultAgree st next next') :
    Agree h h' st msg pre pre' (settle h s next) (settle h' s' next') := by
  cases hnext with
  | ok hst => exact enter_agree ha hb hold hst
  | error err =>
    cases err with
    | requestCancelled => exact ⟨{ hb with }, hold, .done trivial, nofun⟩
    | _ => exact enter_agree ha hb hold (ha.failed _)

theorem interact_agree (ha : h.Agrees h' st msg) {s t : Process S M D} {s' : Process S' M' D'}
    (hs : Agree h h' st msg pre pre' s s') (hstep : interact h s = some t) :
    ∃ t', interact h' s' = some t' ∧ Agree h h' st msg pre pre' t t' := by
  unfold interact at hstep
  split at hstep
  · rename_i x rest hp hsignals
    cases hstep
    have hpending := hs.pending
    rw [hp] at hpending
    have hxs := hs.signals
    rw [hsignals] at hxs
    obtain ⟨x', rest', hx, hrest, hsignals'⟩ := List.forall₂_cons_left_iff.mp hxs
    have hp' := hpending.interacting_right
    have hnext : ResultAgree st (h.processUserInteraction credTx (some x))
        (h'.processUserInteraction credTx (some x')) := by
      cases hx with
      | ok hm => exact ha.interact credTx _ _ hm
      | error err =>
        rw [h.interact_error, h'.interact_error]
        exact .error err
    have hinteract : interact h' s' = some (settle h' { s' with signals := rest' }
        (h'.processUserInteraction credTx (some x'))) := by
      simp only [interact, hp', hsignals']
    exact ⟨_, hinteract, settle_agree ha { s with signals := rest }
      { s' with signals := rest' } { hs.toBeside with signals := hrest } hs.state hnext⟩
  · cases hstep

theorem choose_agree (ha : h.Agrees h' st msg) {s t : Process S M D} {s' : Process S' M' D'}
    (hs : Agree h h' st msg pre pre' s s') (hstep : choose h s = some t) :
    ∃ t', choose h' s' = some t' ∧ Agree h h' st msg pre pre' t t' := by
  unfold choose at hstep
  split at hstep
  · rename_i response id rest hp hcreds
    cases hstep
    have hpending := hs.pending
    rw [hp] at hpending
    have hp' := hpending.choosing_right
    have hcreds' : s'.creds = id :: rest := by rw [hs.creds, hcreds]
    have hchoose : choose h' s' = some (settle h' { s' with creds := rest }
        (h'.processSelectCredential response (some id))) := by
      simp only [choose, hp', hcreds']
    exact ⟨_, hchoose, settle_agree ha { s with creds := rest }
      { s' with creds := rest } { hs.toBeside with creds := rfl } hs.state
      (ha.select response (some id))⟩
  · cases hstep

theorem Beside.sent_length {s : Process S M D} {s' : Process S' M' D'}
    (hb : Beside h h' st msg pre pre' s s') :
    s.sent.length + pre'.length = s'.sent.length + pre.length := by
  obtain ⟨new, new', hsent, hsent', hnew⟩ := hb.sent
  rw [hsent, hsent', List.length_append, List.length_append, hnew.length_eq]
  omega

theorem emit_agree (ha : h.Agrees h' st msg) {s t : Process S M D} {s' : Process S' M' D'}
    (hs : Agree h h' st msg pre pre' s s') (hstep : emit h s = some t) :
    ∃ t', emit h' s' = some t' ∧ Agree h h' st msg pre pre' t t' := by
  have hlength := hs.sent_length
  have hunread := hs.unread
  unfold emit at hstep
  split at hstep
  · rename_i hp
    have hpending := hs.pending
    rw [hp] at hpending
    have hp' := hpending.emitting_right
    have hst := hs.emitting hp
    split at hstep
    · rename_i hconsumer
      have hconsumer' : s'.consumer = true := by rw [hs.consumer, hconsumer]
      split at hstep
      · rename_i hroom
        cases hstep
        have hroom' : s'.sent.length < s'.taken + streamCapacity := by omega
        have hemit : emit h' s' = some (again h' { s' with sent := s'.sent ++ [s'.state] }) := by
          simp only [emit, hp', if_pos hconsumer', if_pos hroom']
        obtain ⟨new, new', hsent, hsent', hnew⟩ := hs.sent
        have hlast : List.Forall₂ st (new ++ [s.state]) (new' ++ [s'.state]) :=
          List.rel_append hnew (.cons hst .nil)
        refine ⟨_, hemit, again_agree ha { s with sent := s.sent ++ [s.state] }
          { s' with sent := s'.sent ++ [s'.state] }
          { hs.toBeside with sent := ⟨_, _, ?_, ?_, hlast⟩ } hst⟩
        · rw [hsent, List.append_assoc]
        · rw [hsent', List.append_assoc]
      · cases hstep
    · rename_i hconsumer
      cases hstep
      have hconsumer' : ¬ s'.consumer = true := by rwa [hs.consumer]
      have hemit : emit h' s' =
          some { s' with pending := .done (.error (.internal h'.streamClosed)) } := by
        simp only [emit, hp', if_neg hconsumer']
      exact ⟨_, hemit, { hs.toBeside with }, hs.state, .done rfl, fun _ => hst⟩
  · cases hstep

theorem cancelLoop_agree {s t : Process S M D} {s' : Process S' M' D'}
    (hs : Agree h h' st msg pre pre' s s') (hstep : cancelLoop s = some t) :
    ∃ t', cancelLoop s' = some t' ∧ Agree h h' st msg pre pre' t t' := by
  obtain ⟨hselects, hselects'⟩ := hs.pending.selects
  have hcancellable := hs.pending.cancellable
  unfold cancelLoop at hstep
  simp only [hselects, Bool.not_false, Bool.true_or, Bool.and_true] at hstep
  split at hstep
  · rename_i hcancel
    cases hstep
    rw [← hs.cancelled, ← hcancellable] at hcancel
    have hcancel' : cancelLoop s' =
        some { s' with pending := .done (.ok ()), selection := s'.selection.leave } := by
      simp only [cancelLoop, hselects', hcancel, Bool.not_false, Bool.true_or, Bool.and_true,
        if_true]
    refine ⟨_, hcancel', { hs.toBeside with selection := rfl, selection' := rfl }, hs.state,
      .done trivial, ?_⟩
    intro hemitting
    cases hemitting
  · cases hstep

/- The tasks of the devices that were not selected end by themselves. -/
theorem select_agree {s t : Process S M D} {s' : Process S' M' D'} {l : Selection.Label}
    (hs : Agree h h' st msg pre pre' s s') (hstep : select s l = some t) :
    Agree h h' st msg pre pre' t s' := by
  have hselects := hs.pending.selects.1
  have hgone := hs.selection
  unfold select at hstep
  split at hstep
  · rename_i henabled
    obtain ⟨sel, hsel, rfl⟩ := Option.map_eq_some_iff.mp hstep
    have hloop : sel.loop = .gone := Selection.step_gone hgone hsel
    rw [hloop]
    exact ⟨{ hs.toBeside with selection := hloop }, hs.state, hs.pending, hs.emitting⟩
  · cases hstep

/-! ### The tasks beside the loop -/

/- A task moves, the loop does not. -/
theorem Agree.beside {s t : Process S M D} {s' t' : Process S' M' D'}
    (hs : Agree h h' st msg pre pre' s s') (hb : Beside h h' st msg pre pre' t t')
    (hstate : t.state = s.state) (hstate' : t'.state = s'.state)
    (hpending : t.pending = s.pending) (hpending' : t'.pending = s'.pending) :
    Agree h h' st msg pre pre' t t' := by
  refine ⟨hb, ?_, ?_, ?_⟩
  · rw [hstate, hstate']
    exact hs.state
  · rw [hpending, hpending']
    exact hs.pending
  · rw [hstate, hstate', hpending]
    exact hs.emitting

theorem opened_agree {s t : Process S M D} {s' : Process S' M' D'} {ok : Bool}
    (hs : Agree h h' st msg pre pre' s s') (hstep : opened s ok = some t) :
    ∃ t', opened s' ok = some t' ∧ Agree h h' st msg pre pre' t t' := by
  have hevents := hs.events
  unfold opened at hstep
  split at hstep
  · rename_i he
    rw [he] at hevents
    have he' := hevents.opening_right
    cases ok with
    | true =>
      cases hstep
      refine ⟨{ s' with events := .operating, updates := .receiving, ux := .subscribe }, ?_,
        hs.beside { hs.toBeside with
          events := .operating, updates := .receiving, ux := rfl, noPresence := nofun }
          rfl rfl rfl rfl⟩
      simp only [opened, he', if_true]
    | false =>
      cases hstep
      refine ⟨{ s' with events := .ended }, ?_,
        hs.beside { hs.toBeside with events := .ended } rfl rfl rfl rfl⟩
      simp only [opened, he', Bool.false_eq_true, if_false]
  · cases hstep

theorem answered_agree (ha : h.Agrees h' st msg) {s t : Process S M D} {s' : Process S' M' D'}
    {result : Except WebAuthnError AuthenticatorResponse}
    (hs : Agree h h' st msg pre pre' s s') (hstep : answered h c s result = some t) :
    ∃ t', answered h' c s' result = some t' ∧ Agree h h' st msg pre pre' t t' := by
  have hevents := hs.events
  unfold answered at hstep
  split at hstep
  · rename_i he
    rw [he] at hevents
    have he' := hevents.operating_right
    split at hstep
    · rename_i hadmits
      split at hstep
      · rename_i hretries
        cases hstep
        refine ⟨s', ?_, hs⟩
        simp only [answered, he', if_pos hadmits, if_pos hretries]
      · rename_i hretries
        cases result with
        | ok r =>
          cases hstep
          refine ⟨{ s' with events := .sending (.ok (h'.receivedCredentials r)) }, ?_,
            hs.beside { hs.toBeside with events := .sending (.ok (ha.received r)) }
              rfl rfl rfl rfl⟩
          simp only [answered, he', if_pos hadmits, if_neg hretries]
        | error err =>
          cases hstep
          refine ⟨{ s' with events := .sending (.error err.toServiceError) }, ?_,
            hs.beside { hs.toBeside with events := .sending (.error _) } rfl rfl rfl rfl⟩
          simp only [answered, he', if_pos hadmits, if_neg hretries]
    · cases hstep
  · cases hstep

theorem respond_agree {s t : Process S M D} {s' : Process S' M' D'}
    (hs : Agree h h' st msg pre pre' s s') (hstep : respond s = some t) :
    ∃ t', respond s' = some t' ∧ Agree h h' st msg pre pre' t t' := by
  have hevents := hs.events
  have halive := hs.pending.alive
  have hlength := hs.signals.length_eq
  unfold respond at hstep
  split at hstep
  · rename_i x he
    rw [he] at hevents
    obtain ⟨x', he', hx⟩ := hevents.sending_right
    split at hstep
    · rename_i hp
      rw [← halive] at hp
      split at hstep
      · rename_i hroom
        rw [hlength] at hroom
        cases hstep
        refine ⟨{ s' with events := .ended, signals := s'.signals ++ [x'] }, ?_,
          hs.beside { hs.toBeside with
            events := .ended, signals := List.rel_append hs.signals (.cons hx .nil) }
            rfl rfl rfl rfl⟩
        simp only [respond, he', if_pos hp, if_pos hroom]
      · cases hstep
    · rename_i hp
      rw [← halive] at hp
      cases hstep
      refine ⟨{ s' with events := .ended }, ?_,
        hs.beside { hs.toBeside with events := .ended } rfl rfl rfl rfl⟩
      simp only [respond, he', if_neg hp]
  · cases hstep

theorem cancelEvents_agree {s t : Process S M D} {s' : Process S' M' D'}
    (hs : Agree h h' st msg pre pre' s s') (hstep : cancelEvents s = some t) :
    ∃ t', cancelEvents s' = some t' ∧ Agree h h' st msg pre pre' t t' := by
  have hevents := hs.events
  unfold cancelEvents at hstep
  split at hstep
  · rename_i he
    rw [he] at hevents
    have he' := hevents.operating_right
    split at hstep
    · rename_i hcancelled
      rw [← hs.cancelled] at hcancelled
      cases hstep
      refine ⟨{ s' with events := .sending (.error .requestCancelled) }, ?_,
        hs.beside { hs.toBeside with events := .sending (.error _) } rfl rfl rfl rfl⟩
      simp only [cancelEvents, he', if_pos hcancelled]
    · cases hstep
  · cases hstep

theorem upgrades_agree {s : Process S M D} {s' : Process S' M' D'}
    (hs : Agree h h' st msg pre pre' s s') : s'.upgrades = s.upgrades := by
  unfold upgrades
  rw [hs.pending.alive, hs.events.holdsSender]

theorem handleUpdate_some (hh : Handler S M D F) {s : Process S M D} {u : UvUpdate} {m : M}
    (hm : hh.handleUpdate s.nextTx u = some m) :
    handleUpdate hh s u = { s with
      nextTx := s.nextTx + 1
      updates := .relaying m (if u.asksPin then some s.nextTx else none) } := by
  unfold handleUpdate
  rw [hm]

theorem handleUpdate_agree (ha : h.Agrees h' st msg) (s : Process S M D)
    (s' : Process S' M' D') (hs : Agree h h' st msg pre pre' s s') {u : UvUpdate}
    (hu : u ≠ .presenceRequired) :
    Agree h h' st msg pre pre' (handleUpdate h s u) (handleUpdate h' s' u) := by
  obtain ⟨m, m', hm, hm', hmsg⟩ := ha.update s.nextTx u hu
  rw [← hs.nextTx] at hm'
  rw [handleUpdate_some h hm, handleUpdate_some h' hm', hs.nextTx]
  exact hs.beside { hs.toBeside with nextTx := rfl, updates := .relaying _ hmsg } rfl rfl rfl rfl

theorem recvUpdate_agree (ha : h.Agrees h' st msg) {s t : Process S M D}
    {s' : Process S' M' D'} (hs : Agree h h' st msg pre pre' s s')
    (hstep : recvUpdate h s = some t) :
    ∃ t', recvUpdate h' s' = some t' ∧ Agree h h' st msg pre pre' t t' := by
  have hupdates := hs.updates
  have hopen := hs.events.channelOpen
  unfold recvUpdate at hstep
  split at hstep
  · rename_i hr
    rw [hr] at hupdates
    have hr' := hupdates.receiving_right
    obtain ⟨⟨r, ux⟩, hrecv, rfl⟩ := Option.map_eq_some_iff.mp hstep
    have hrecv' : s'.ux.recv (!s'.events.channelOpen) = some (r, ux) := by
      rw [hs.ux, hopen]
      exact hrecv
    cases r with
    | error err =>
      have hux : ux.queue = s.ux.queue := Broadcast.recv_error_queue hrecv
      refine ⟨{ s' with ux := ux, updates := .ended }, ?_,
        hs.beside { hs.toBeside with ux := rfl, noPresence := ?_, updates := .ended }
          rfl rfl rfl rfl⟩
      · simp only [recvUpdate, hr', hrecv', Option.map_some]
      · rw [hux]
        exact hs.noPresence
    | ok u =>
      obtain ⟨-, -, hqueue⟩ := Broadcast.recv_ok hrecv
      have hrest : UvUpdate.presenceRequired ∉ ux.queue := fun hmem =>
        hs.noPresence (by rw [hqueue]; exact List.mem_cons_of_mem _ hmem)
      have hu : u ≠ .presenceRequired := fun he =>
        hs.noPresence (by rw [hqueue, he]; exact List.mem_cons_self ..)
      have hstep' : recvUpdate h' s' =
          some (if s'.upgrades then handleUpdate h' { s' with ux := ux } u
            else { s' with ux := ux, updates := .ended }) := by
        simp only [recvUpdate, hr', hrecv', Option.map_some]
      refine ⟨_, hstep', ?_⟩
      rw [upgrades_agree hs]
      simp only
      split
      · exact handleUpdate_agree ha { s with ux := ux } { s' with ux := ux }
          (hs.beside { hs.toBeside with ux := rfl, noPresence := hrest } rfl rfl rfl rfl) hu
      · exact hs.beside { hs.toBeside with ux := rfl, noPresence := hrest, updates := .ended }
          rfl rfl rfl rfl
  · cases hstep

theorem relay_agree {s t : Process S M D} {s' : Process S' M' D'}
    (hs : Agree h h' st msg pre pre' s s') (hstep : relay s = some t) :
    ∃ t', relay s' = some t' ∧ Agree h h' st msg pre pre' t t' := by
  have hupdates := hs.updates
  have halive := hs.pending.alive
  have hlength := hs.signals.length_eq
  unfold relay at hstep
  split at hstep
  · rename_i m pinTx hr
    rw [hr] at hupdates
    obtain ⟨m', hr', hmsg⟩ := hupdates.relaying_right
    split at hstep
    · rename_i hp
      rw [← halive] at hp
      split at hstep
      · rename_i hroom
        rw [hlength] at hroom
        cases hstep
        refine ⟨{ s' with updates := .relayed pinTx, signals := s'.signals ++ [.ok m'] }, ?_,
          hs.beside { hs.toBeside with
            updates := .relayed pinTx
            signals := List.rel_append hs.signals (.cons (.ok hmsg) .nil) } rfl rfl rfl rfl⟩
        simp only [relay, hr', if_pos hp, if_pos hroom]
      · cases hstep
    · rename_i hp
      rw [← halive] at hp
      cases hstep
      refine ⟨{ s' with updates := .relayed pinTx }, ?_,
        hs.beside { hs.toBeside with updates := .relayed pinTx } rfl rfl rfl rfl⟩
      simp only [relay, hr', if_neg hp]
  · cases hstep

/- The consumer of either stream holds the same prompts. -/
theorem taken_prompt_agree (ha : h.Agrees h' st msg) {s : Process S M D}
    {s' : Process S' M' D'} (hb : Beside h h' st msg pre pre' s s') (tx : ReplyTx) :
    ((s'.sent.take s'.taken).any fun x => h'.replyTx x == some tx) =
      (s.sent.take s.taken).any fun x => h.replyTx x == some tx := by
  obtain ⟨new, new', hsent, hsent', hnew⟩ := hb.sent
  have hunread := hb.unread
  have htaken : s'.taken - pre'.length = s.taken - pre.length := by omega
  rw [hsent, hsent', any_take_prefix (fun x hx => by rw [hb.noPrompt' x hx]; rfl),
    any_take_prefix (fun x hx => by rw [hb.noPrompt x hx]; rfl), htaken]
  refine (any_forall₂ (R := st) (fun a b hab => ?_) (List.forall₂_take _ hnew)).symm
  rw [ha.replyTx a b hab]

theorem unread_prompt_agree (ha : h.Agrees h' st msg) {s : Process S M D}
    {s' : Process S' M' D'} (hb : Beside h h' st msg pre pre' s s') (tx : ReplyTx) :
    ((s'.sent.drop s'.taken).any fun x => h'.replyTx x == some tx) =
      (s.sent.drop s.taken).any fun x => h.replyTx x == some tx := by
  obtain ⟨new, new', hsent, hsent', hnew⟩ := hb.sent
  have hunread := hb.unread
  have htaken : s'.taken - pre'.length = s.taken - pre.length := by omega
  rw [hsent, hsent', any_drop_prefix (fun x hx => by rw [hb.noPrompt' x hx]; rfl),
    any_drop_prefix (fun x hx => by rw [hb.noPrompt x hx]; rfl), htaken]
  refine (any_forall₂ (R := st) (fun a b hab => ?_) (List.forall₂_drop _ hnew)).symm
  rw [ha.replyTx a b hab]

theorem state_replyTx_agree (ha : h.Agrees h' st msg) {a : S} {b : S'}
    (hab : StatesAgree h h' st a b) : h'.replyTx b = h.replyTx a := by
  rcases hab with ⟨hp, hp'⟩ | hst
  · rw [ha.noReply a hp, ha.noReply' b hp']
  · exact ha.replyTx a b hst

theorem holdsPrompt_agree (ha : h.Agrees h' st msg) {s : Process S M D}
    {s' : Process S' M' D'} (hs : Agree h h' st msg pre pre' s s') (tx : ReplyTx) :
    holdsPrompt h' s' tx = holdsPrompt h s tx := by
  unfold holdsPrompt
  rw [hs.pending.alive, hs.consumer, state_replyTx_agree ha hs.state,
    unread_prompt_agree ha hs.toBeside]
  congr 3
  refine (any_forall₂ (R := ResultAgree msg) (fun x y hxy => ?_) hs.signals).symm
  cases hxy with
  | ok hm => simp only [ha.msgTx _ _ hm]
  | error err => rfl

theorem pin_agree (ha : h.Agrees h' st msg) {s t : Process S M D} {s' : Process S' M' D'}
    {reply : Option String} (hs : Agree h h' st msg pre pre' s s')
    (hstep : pin h s reply = some t) :
    ∃ t', pin h' s' reply = some t' ∧ Agree h h' st msg pre pre' t t' := by
  have hupdates := hs.updates
  unfold pin at hstep
  split at hstep
  · rename_i tx hr
    rw [hr] at hupdates
    have hr' := hupdates.awaitingPin_right
    have hnext : Agree h h' st msg pre pre' { s with updates := .receiving }
        { s' with updates := .receiving } :=
      hs.beside { hs.toBeside with updates := .receiving } rfl rfl rfl rfl
    split at hstep
    · rename_i hreply
      split at hstep
      · rename_i htaken
        rw [← taken_prompt_agree ha hs.toBeside] at htaken
        cases hstep
        refine ⟨{ s' with updates := .receiving }, ?_, hnext⟩
        simp only [pin, hr', if_pos hreply, if_pos htaken]
      · cases hstep
    · rename_i hreply
      split at hstep
      · cases hstep
      · rename_i hholds
        rw [← holdsPrompt_agree ha hs] at hholds
        cases hstep
        refine ⟨{ s' with updates := .receiving }, ?_, hnext⟩
        simp only [pin, hr', if_neg hreply, if_neg hholds]
  · cases hstep

/-! ### The authenticator, the consumer and the user -/

theorem update_agree {s t : Process S M D} {s' : Process S' M' D'} {u : UvUpdate}
    (hu : u ≠ .presenceRequired) (hs : Agree h h' st msg pre pre' s s')
    (hstep : update c s u = some t) :
    ∃ t', update c s' u = some t' ∧ Agree h h' st msg pre pre' t t' := by
  have hopen := hs.events.channelOpen
  unfold update at hstep
  split at hstep
  · rename_i ho
    rw [← hopen] at ho
    cases hstep
    refine ⟨{ s' with ux := s'.ux.send c.uxCapacity u }, ?_,
      hs.beside { hs.toBeside with ux := ?_, noPresence := fun hmem => ?_ } rfl rfl rfl rfl⟩
    · simp only [update, if_pos ho]
    · rw [hs.ux]
    · rcases Broadcast.mem_send hmem with hold | hnew
      · exact hs.noPresence hold
      · exact hu hnew.symm
  · cases hstep

theorem take_agree {s t : Process S M D} {s' : Process S' M' D'}
    (hs : Agree h h' st msg pre pre' s s') (hstep : take s = some t) :
    ∃ t', take s' = some t' ∧ Agree h h' st msg pre pre' t t' := by
  have hlength := hs.sent_length
  have hunread := hs.unread
  unfold take at hstep
  split at hstep
  · rename_i hread
    have hread' : (s'.consumer && decide (s'.taken < s'.sent.length)) = true := by
      simp only [Bool.and_eq_true, decide_eq_true_eq] at hread ⊢
      rw [hs.consumer]
      exact ⟨hread.1, by omega⟩
    cases hstep
    refine ⟨{ s' with taken := s'.taken + 1 }, ?_,
      hs.beside { hs.toBeside with unread := ?_ } rfl rfl rfl rfl⟩
    · simp only [take, if_pos hread']
    · simp only
      omega
  · cases hstep

theorem selectCredential_agree (ha : h.Agrees h' st msg) {s t : Process S M D}
    {s' : Process S' M' D'} {id : String} (hs : Agree h h' st msg pre pre' s s')
    (hstep : selectCredential h s id = some t) :
    ∃ t', selectCredential h' s' id = some t' ∧ Agree h h' st msg pre pre' t t' := by
  unfold selectCredential at hstep
  split at hstep
  · rename_i htaken
    rw [← taken_prompt_agree ha hs.toBeside] at htaken
    split at hstep
    · rename_i hfree
      rw [← hs.pending.alive, ← hs.creds] at hfree
      cases hstep
      refine ⟨{ s' with creds := [id] }, ?_,
        hs.beside { hs.toBeside with creds := rfl } rfl rfl rfl rfl⟩
      simp only [selectCredential, if_pos htaken, if_pos hfree]
    · cases hstep
  · cases hstep

/-! ### Steps and runs -/

/- The steps of the other process for a step of one: none of a listing, which no process makes here,
and none of a device that was not selected. -/
def Label.shared : Label F → List (Label F')
  | .listed _ => []
  | .slept => [.slept]
  | .select _ => []
  | .selected => [.selected]
  | .interact => [.interact]
  | .choose => [.choose]
  | .emit => [.emit]
  | .cancelLoop => [.cancelLoop]
  | .opened ok => [.opened ok]
  | .answered result => [.answered result]
  | .respond => [.respond]
  | .cancelEvents => [.cancelEvents]
  | .recvUpdate => [.recvUpdate]
  | .relay => [.relay]
  | .pin reply => [.pin reply]
  | .update u => [.update u]
  | .take => [.take]
  | .selectCredential id => [.selectCredential id]
  | .cancel => [.cancel]
  | .dropConsumer => [.dropConsumer]

def Label.asksPresence : Label F → Bool
  | .update .presenceRequired => true
  | _ => false

theorem exec_of_step {s' : Process S' M' D'} {l' : Label F'}
    {P : Process S' M' D' → Prop} (hstep : ∃ t', step h' c s' l' = some t' ∧ P t') :
    ∃ t', Machine.exec (step h' c) s' [l'] = some t' ∧ P t' := by
  obtain ⟨t', ht', hp⟩ := hstep
  exact ⟨t', Machine.exec_single ht', hp⟩

theorem step_agree (ha : h.Agrees h' st msg) {s t : Process S M D} {s' : Process S' M' D'}
    {l : Label F} (hl : l.asksPresence = false) (hs : Agree h h' st msg pre pre' s s')
    (hstep : step h c s l = some t) :
    ∃ t', Machine.exec (step h' c) s' l.shared = some t' ∧ Agree h h' st msg pre pre' t t' := by
  have hpending := hs.pending
  cases l with
  | listed result =>
    simp only [step, listed] at hstep
    split at hstep
    · rename_i hp
      rw [hp] at hpending
      cases hpending
    · cases hstep
  | slept =>
    simp only [step, slept] at hstep
    split at hstep
    · rename_i hp
      rw [hp] at hpending
      cases hpending
    · cases hstep
  | selected =>
    simp only [step, selected] at hstep
    split at hstep
    · rename_i hp
      rw [hp] at hpending
      cases hpending
    · cases hstep
  | select l => exact ⟨s', rfl, select_agree hs hstep⟩
  | interact => exact exec_of_step c (interact_agree ha hs hstep)
  | choose => exact exec_of_step c (choose_agree ha hs hstep)
  | emit => exact exec_of_step c (emit_agree ha hs hstep)
  | cancelLoop => exact exec_of_step c (cancelLoop_agree hs hstep)
  | opened ok => exact exec_of_step c (opened_agree hs hstep)
  | answered result => exact exec_of_step c (answered_agree c ha hs hstep)
  | respond => exact exec_of_step c (respond_agree hs hstep)
  | cancelEvents => exact exec_of_step c (cancelEvents_agree hs hstep)
  | recvUpdate => exact exec_of_step c (recvUpdate_agree ha hs hstep)
  | relay => exact exec_of_step c (relay_agree hs hstep)
  | pin reply => exact exec_of_step c (pin_agree ha hs hstep)
  | update u =>
    refine exec_of_step c (update_agree c (fun hu => ?_) hs hstep)
    rw [hu] at hl
    cases hl
  | take => exact exec_of_step c (take_agree hs hstep)
  | selectCredential id => exact exec_of_step c (selectCredential_agree ha hs hstep)
  | cancel =>
    cases hstep
    exact ⟨_, Machine.exec_single rfl,
      hs.beside { hs.toBeside with cancelled := rfl } rfl rfl rfl rfl⟩
  | dropConsumer =>
    cases hstep
    exact ⟨_, Machine.exec_single rfl,
      hs.beside { hs.toBeside with consumer := rfl } rfl rfl rfl rfl⟩

/-- Each run of one process is a run of the other. -/
theorem run_agree (ha : h.Agrees h' st msg) {s t : Process S M D} {s' : Process S' M' D'}
    {ls : List (Label F)} (hls : ∀ l ∈ ls, l.asksPresence = false)
    (hs : Agree h h' st msg pre pre' s s') (hrun : Machine.exec (step h c) s ls = some t) :
    ∃ t', Machine.exec (step h' c) s' (ls.flatMap Label.shared) = some t' ∧
      Agree h h' st msg pre pre' t t' := by
  induction ls generalizing s s' with
  | nil =>
    cases hrun
    exact ⟨s', rfl, hs⟩
  | cons l ls ih =>
    obtain ⟨m, hm, hrest⟩ := Machine.exec_cons_some.mp hrun
    obtain ⟨m', hm', hagree⟩ := step_agree c ha (hls l (List.mem_cons_self ..)) hs hm
    obtain ⟨t', ht', hend⟩ := ih (fun k hk => hls k (List.mem_cons_of_mem _ hk)) hagree hrest
    rw [List.flatMap_cons]
    exact ⟨t', Machine.exec_append_some hm' ht', hend⟩

/-! ### From the connected state -/

/- The consumers of the two streams have as much to read. -/
structure SameConsumer (s : Process S M D) (s' : Process S' M' D') : Prop where
  unread : s.taken + s'.sent.length = s'.taken + s.sent.length
  cancelled : s'.cancelled = s.cancelled
  consumer : s'.consumer = s.consumer

theorem SameConsumer.symm {s : Process S M D} {s' : Process S' M' D'} (hc : SameConsumer s s') :
    SameConsumer s' s :=
  ⟨hc.unread.symm, hc.cancelled.symm, hc.consumer.symm⟩

theorem starts_agree (hp : h.PromptsOnly) (hp' : h'.PromptsOnly) {s : Process S M D}
    {s' : Process S' M' D'} (hs : Starts h c s) (hs' : Starts h' c s')
    (hc : SameConsumer s s') : Agree h h' st msg s.sent s'.sent s s' := by
  have ho := reaches_opening h c hp hs.reached
  have ho' := reaches_opening h' c hp' hs'.reached
  have hq := ho.quiet (by rw [hs.events]; rfl)
  have hq' := ho'.quiet (by rw [hs'.events]; rfl)
  have halive : s.pending.alive = true := by rw [hs.pending]; rfl
  have halive' : s'.pending.alive = true := by rw [hs'.pending]; rfl
  refine ⟨⟨?_, ?_, ?_, ?_, ?_, ?_, ?_, ⟨[], [], ?_, ?_, .nil⟩, hc.unread, hc.cancelled, hc.consumer,
    ho.selection halive (by rw [hs.pending]; rfl),
    ho'.selection halive' (by rw [hs'.pending]; rfl), hq.sent, hq'.sent⟩, Or.inl ?_, ?_, ?_⟩
  · rw [hq.signals, hq'.signals]
    exact .nil
  · rw [hq.creds, hq'.creds]
  · rw [hs.events, hs'.events]
    exact .opening
  · rw [hq.updates, hq'.updates]
    exact .notSpawned
  · rw [hq.ux, hq'.ux]
  · rw [hq.ux]
    exact nofun
  · rw [hq.nextTx, hq'.nextTx]
  · rw [List.append_nil]
  · rw [List.append_nil]
  · exact ⟨(ho.waits hs.events halive).2, (ho'.waits hs'.events halive').2⟩
  · rw [hs.pending, hs'.pending]
    exact .interacting
  · rw [hs.pending]
    exact nofun

end agree

end Process

/-! ### USB and NFC -/

/- Registration responses name their transport. -/
inductive CredentialResponse.SameButTransport : CredentialResponse → CredentialResponse → Prop where
  | create (response : MakeCredentialResponse) (modality : String) :
    SameButTransport (.fromMakeCredential response ["usb"] modality)
      (.fromMakeCredential response ["nfc"] modality)
  | get (response : GetAssertionResponseInternal) :
    SameButTransport (.getPublicKeyCredentialResponse response)
      (.getPublicKeyCredentialResponse response)

inductive UsbStateInternal.Same : UsbStateInternal → NfcStateInternal → Prop where
  | needsPin (attemptsLeft : Option UInt32) (pinTx : ReplyTx) :
    Same (.needsPin attemptsLeft pinTx) (.needsPin attemptsLeft pinTx)
  | pinNotSet (reason : PinNotSetReason) (pinTx : ReplyTx) :
    Same (.pinNotSet reason pinTx) (.pinNotSet reason pinTx)
  | needsUserVerification (attemptsLeft : Option UInt32) :
    Same (.needsUserVerification attemptsLeft) (.needsUserVerification attemptsLeft)
  | selectCredential (response : GetAssertionResponse) (credTx : ReplyTx) :
    Same (.selectCredential response credTx) (.selectCredential response credTx)
  | completed {r r' : CredentialResponse} (h : r.SameButTransport r') :
    Same (.completed r) (.completed r')
  | failed (err : CredentialServiceError) : Same (.failed err) (.failed err)

inductive UsbUvMessage.Same : UsbUvMessage → NfcUvMessage → Prop where
  | needsPin (attemptsLeft : Option UInt32) (pinTx : ReplyTx) :
    Same (.needsPin attemptsLeft pinTx) (.needsPin attemptsLeft pinTx)
  | pinNotSet (reason : PinNotSetReason) (pinTx : ReplyTx) :
    Same (.pinNotSet reason pinTx) (.pinNotSet reason pinTx)
  | needsUserVerification (attemptsLeft : Option UInt32) :
    Same (.needsUserVerification attemptsLeft) (.needsUserVerification attemptsLeft)
  | receivedCredentials (response : AuthenticatorResponse) :
    Same (.receivedCredentials response) (.receivedCredentials response)

theorem received_same (tx : ReplyTx) (r : AuthenticatorResponse) :
    ResultAgree UsbStateInternal.Same
      (Usb.processUserInteraction tx (some (.ok (.receivedCredentials r))))
      (Nfc.processUserInteraction tx (some (.ok (.receivedCredentials r)))) := by
  cases r with
  | credentialCreated r => exact .ok (.completed (.create r "cross-platform"))
  | credentialsAsserted r =>
    obtain ⟨assertions⟩ := r
    match assertions with
    | [] => exact .ok (.selectCredential _ tx)
    | [assertion] => exact .ok (.completed (.get _))
    | _ :: _ :: _ => exact .ok (.selectCredential _ tx)

theorem selected_same (credHash : Bytes → String) (response : GetAssertionResponse)
    (reply : Option String) :
    ResultAgree UsbStateInternal.Same (Usb.processSelectCredential credHash response reply)
      (Nfc.processSelectCredential credHash response reply) := by
  unfold Usb.processSelectCredential Nfc.processSelectCredential selectAssertion
  cases reply with
  | none => exact .error _
  | some credId =>
    simp only
    split
    · exact .ok (.completed (.get _))
    · exact .error _

theorem usb_agrees_nfc (credHash : Bytes → String) :
    (Usb.handler credHash).Agrees (Nfc.handler credHash) UsbStateInternal.Same
      UsbUvMessage.Same where
  phase a b hab := by
    cases hab with
    | needsPin attemptsLeft pinTx => exact .interaction
    | pinNotSet reason pinTx => exact .interaction
    | needsUserVerification attemptsLeft => exact .interaction
    | selectCredential response credTx => exact .selectCredential response
    | completed _ => exact .completed
    | failed err => exact .failed err
  failed err := .failed err
  interact tx m m' hm := by
    cases hm with
    | needsPin attemptsLeft pinTx => exact .ok (.needsPin attemptsLeft pinTx)
    | pinNotSet reason pinTx => exact .ok (.pinNotSet reason pinTx)
    | needsUserVerification attemptsLeft => exact .ok (.needsUserVerification attemptsLeft)
    | receivedCredentials r => exact received_same tx r
  select response reply := selected_same credHash response reply
  changed a b a' b' hab hab' := by
    cases hab <;> cases hab' <;> rfl
  update tx u hu := by
    cases u with
    | uvRetry attemptsLeft => exact ⟨_, _, rfl, rfl, .needsUserVerification attemptsLeft⟩
    | pinRequired attemptsLeft => exact ⟨_, _, rfl, rfl, .needsPin attemptsLeft tx⟩
    | pinNotSet reason => exact ⟨_, _, rfl, rfl, .pinNotSet reason tx⟩
    | presenceRequired => exact absurd rfl hu
  received r := .receivedCredentials r
  replyTx a b hab := by
    cases hab <;> rfl
  msgTx m m' hm := by
    cases hm <;> rfl
  noReply a hp := by
    cases a <;> first | rfl | cases hp
  noReply' b hp := by
    cases b <;> first | rfl | cases hp

theorem usb_promptsOnly (credHash : Bytes → String) : (Usb.handler credHash).PromptsOnly := by
  intro st hp
  cases st <;> first | rfl | cases hp

theorem nfc_promptsOnly (credHash : Bytes → String) : (Nfc.handler credHash).PromptsOnly := by
  intro st hp
  cases st <;> first | rfl | cases hp

/- The event of an internal state. -/
def UsbStateInternal.event (credHash : Bytes → String) (st : UsbStateInternal) :
    Except Panic BackgroundEvent :=
  (st.toPublic credHash).map UsbState.toBackgroundEvent

def NfcStateInternal.event (credHash : Bytes → String) (st : NfcStateInternal) :
    Except Panic BackgroundEvent :=
  (st.toPublic credHash).map NfcState.toBackgroundEvent

theorem UsbStateInternal.Same.event {st : UsbStateInternal} {st' : NfcStateInternal}
    (h : st.Same st') (credHash : Bytes → String) :
    st.event credHash = st'.event credHash := by
  cases h with
  | selectCredential response credTx =>
    simp only [UsbStateInternal.event, NfcStateInternal.event, UsbStateInternal.toPublic,
      NfcStateInternal.toPublic]
    cases response.toCredentials credHash <;> rfl
  | _ => rfl

abbrev UsbProcess := Process UsbStateInternal UsbUvMessage HidDevice

abbrev NfcProcess := Process NfcStateInternal NfcUvMessage NfcDevice

/-- The two runs from `s` and `s'` have come to the same: they sent the same events, their loops
await the same or have ended alike, and they are in the same state but for the transport of a
registration. -/
structure SameOutcome (credHash : Bytes → String) (s t : UsbProcess) (s' t' : NfcProcess) :
    Prop where
  events : (t.sent.drop s.sent.length).map (·.event credHash) =
    (t'.sent.drop s'.sent.length).map (·.event credHash)
  loop : t.pending.Agree t'.pending
  state : (Usb.phase t.state = .connected ∧ Nfc.phase t'.state = .connected) ∨
    t.state.Same t'.state

theorem sameOutcome_of_sent {credHash : Bytes → String} {s t : UsbProcess} {s' t' : NfcProcess}
    {new : List UsbStateInternal} {new' : List NfcStateInternal}
    (hsent : t.sent = s.sent ++ new) (hsent' : t'.sent = s'.sent ++ new')
    (hnew : List.Forall₂ UsbStateInternal.Same new new') (hloop : t.pending.Agree t'.pending)
    (hstate : (Usb.phase t.state = .connected ∧ Nfc.phase t'.state = .connected) ∨
      t.state.Same t'.state) : SameOutcome credHash s t s' t' := by
  refine ⟨?_, hloop, hstate⟩
  rw [hsent, hsent', List.drop_left, List.drop_left]
  clear hsent hsent'
  induction hnew with
  | nil => rfl
  | cons hab _ ih => rw [List.map_cons, List.map_cons, hab.event credHash, ih]

/-- From the moment that a device is connected, as long as the authenticator does not ask for the
user's presence: each run of the USB handler is one of the NFC handler, step by step and to the same
outcome, and the other way round. -/
theorem usb_nfc_same_operation (credHash : Bytes → String) (c : Ceremony) (s : UsbProcess)
    (s' : NfcProcess) (hs : Process.Starts (Usb.handler credHash) c s)
    (hs' : Process.Starts (Nfc.handler credHash) c s') (hc : Process.SameConsumer s s') :
    (∀ ls t, (∀ l ∈ ls, l.asksPresence = false) →
      Machine.exec (Process.step (Usb.handler credHash) c) s ls = some t →
      ∃ t', Machine.exec (Process.step (Nfc.handler credHash) c) s'
          (ls.flatMap Process.Label.shared) = some t' ∧ SameOutcome credHash s t s' t') ∧
    (∀ ls t', (∀ l ∈ ls, l.asksPresence = false) →
      Machine.exec (Process.step (Nfc.handler credHash) c) s' ls = some t' →
      ∃ t, Machine.exec (Process.step (Usb.handler credHash) c) s
          (ls.flatMap Process.Label.shared) = some t ∧ SameOutcome credHash s t s' t') := by
  have husb := usb_promptsOnly credHash
  have hnfc := nfc_promptsOnly credHash
  have hagrees := usb_agrees_nfc credHash
  constructor
  · intro ls t hls hrun
    obtain ⟨t', ht', hagree⟩ := Process.run_agree c hagrees hls
      (Process.starts_agree c husb hnfc hs hs' hc) hrun
    obtain ⟨new, new', hsent, hsent', hnew⟩ := hagree.sent
    exact ⟨t', ht', sameOutcome_of_sent hsent hsent' hnew hagree.pending hagree.state⟩
  · intro ls t' hls hrun
    obtain ⟨t, ht, hagree⟩ := Process.run_agree c hagrees.symm hls
      (Process.starts_agree c hnfc husb hs' hs hc.symm) hrun
    obtain ⟨new', new, hsent', hsent, hnew⟩ := hagree.sent
    refine ⟨t, ht, sameOutcome_of_sent hsent hsent' hnew.flip hagree.pending.symm ?_⟩
    rcases hagree.state with ⟨hp', hp⟩ | hst
    · exact Or.inl ⟨hp, hp'⟩
    · exact Or.inr hst

/-- Both handlers, each with its device connected and the states that it sent so far read, up to the
answer of the device. -/
theorem usb_nfc_same_operation_sample :
    ∃ s s' t t',
      Machine.exec (Process.step (Usb.handler fun _ => "") sampleCeremony)
        (Process.init (Usb.handler fun _ => "")) (usbSelected ++ [.take, .take]) = some s ∧
      Machine.exec (Process.step (Nfc.handler fun _ => "") sampleCeremony)
        (Process.init (Nfc.handler fun _ => ""))
        [.listed (.ok (some ⟨"tag"⟩)), .emit, .take] = some s' ∧
      Machine.exec (Process.step (Usb.handler fun _ => "") sampleCeremony) s usbAfterSelected =
        some t ∧
      Machine.exec (Process.step (Nfc.handler fun _ => "") sampleCeremony) s'
        (usbAfterSelected.flatMap Process.Label.shared) = some t' ∧
      SameOutcome (fun _ => "") s t s' t' := by
  have hsame := usb_nfc_same_operation (fun _ => "") sampleCeremony _ _
    ⟨⟨usbSelected ++ [.take, .take], rfl⟩, rfl, rfl⟩
    ⟨⟨[.listed (.ok (some ⟨"tag"⟩)), .emit, .take], rfl⟩, rfl, rfl⟩ ⟨rfl, rfl, rfl⟩
  obtain ⟨t', ht', houtcome⟩ := hsame.1 usbAfterSelected _ (by decide) rfl
  exact ⟨_, _, _, t', rfl, rfl, rfl, ht', houtcome⟩

end Credentialsd
