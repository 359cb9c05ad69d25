import Credentialsd.DialoguePrompts

/-!
# Every answer is the user's

What reaches a device as the answer to a prompt was given by the user once for each time that it
reaches one, for a prompt of the same kind, and at a moment at which the window asked for it because
the daemon had asked before.
-/

namespace Credentialsd
open Machine

/-! ### In the daemon -/

/- The value of an event whose secret can be read. -/
def UserInteractedEvent.given (e : UserInteractedEvent) : Option UserValue :=
  e.value.bind fun v => v.2.map fun reply => (v.1, reply)

namespace Entry

def value : Entry → Option UserValue
  | .handled kind (some reply) => some (kind, reply)
  | _ => none

def isSent : Entry → Bool
  | .sent _ _ => true
  | _ => false

end Entry

namespace UiLoop

theorem replyTo_inbox (lp : UiLoop) (tx : Option ReplyTx) (reply : Reply) :
    (lp.replyTo tx reply).inbox = lp.inbox := by
  cases tx <;> rfl

theorem handleEvent_inbox (lp : UiLoop) (e : UserInteractedEvent) :
    (lp.handleEvent e).inbox = lp.inbox := by
  cases e with
  | clientPinEntered secret =>
    simp only [handleEvent]
    cases readPin secret with
    | none => rfl
    | some pin => exact replyTo_inbox ..
  | setDevicePin secret =>
    simp only [handleEvent]
    cases readPin secret with
    | none => rfl
    | some pin => exact replyTo_inbox ..
  | credentialSelected id => exact replyTo_inbox ..
  | _ => rfl

theorem register_inbox (lp : UiLoop) (u : DeviceStateUpdate) :
    (lp.register u).inbox = lp.inbox := by
  rcases u with state | state | state <;> cases state <;> rfl

/- What a move brings to the loop. -/
def Move.brings : Move → List UserValue
  | .event e => e.given.toList
  | _ => []

theorem entry_receive {lp : UiLoop} {e : UserInteractedEvent} {inbox : List UserInteractedEvent}
    (hpc : lp.pc = .receiving) (hinbox : lp.inbox = e :: inbox) :
    (lp.entry .receive).toList.filterMap Entry.value = e.given.toList := by
  simp only [entry, nextValue, hpc, hinbox, UserInteractedEvent.given]
  cases e.value with
  | none => rfl
  | some v =>
    obtain ⟨kind, reply⟩ := v
    cases reply <;> rfl

/-- A value is handled when it leaves the inbox. -/
theorem step_values {lp lp' : UiLoop} {l : Move} (h : lp.step l = some lp') (v : UserValue) :
    (lp'.inbox.filterMap UserInteractedEvent.given).count v +
        ((lp.entry l).toList.filterMap Entry.value).count v =
      (lp.inbox.filterMap UserInteractedEvent.given).count v + l.brings.count v := by
  have hquiet : ∀ {lp' : UiLoop} {l : Move}, lp'.inbox = lp.inbox →
      (lp.entry l).toList.filterMap Entry.value = [] → l.brings = [] →
      (lp'.inbox.filterMap UserInteractedEvent.given).count v +
          ((lp.entry l).toList.filterMap Entry.value).count v =
        (lp.inbox.filterMap UserInteractedEvent.given).count v + l.brings.count v := by
    intro lp' l hinbox hentry hbrings
    rw [hinbox, hentry, hbrings]
  cases l with
  | event e =>
    simp only [step] at h
    split at h
    · cases h
      simp only [entry, Move.brings, List.filterMap_append, Gui.filterMap_singleton,
        List.count_append, Option.toList_none, List.filterMap_nil, List.count_nil]
      omega
    · cases h
  | receive =>
    simp only [step, receive] at h
    split at h
    · rename_i e inbox hpc hinbox
      cases h
      have hbrings : Move.brings .receive = [] := rfl
      rw [entry_receive hpc hinbox, handleEvent_inbox, hinbox, hbrings, ← List.singleton_append,
        List.filterMap_append, Gui.filterMap_singleton, List.count_append, List.count_nil]
      exact Nat.add_comm _ _
    · rename_i hpc hinbox
      split at h
      · cases h
        exact hquiet rfl (by simp [entry, nextValue, hpc, hinbox]) rfl
      · cases h
    · cases h
  | close =>
    cases h
    exact hquiet rfl rfl rfl
  | discovery pc =>
    simp only [step] at h
    split at h
    · cases h
      exact hquiet rfl rfl rfl
    · cases h
  | cancellation pc =>
    simp only [step] at h
    split at h
    · cases h
      exact hquiet rfl rfl rfl
    · cases h
  | replied sent =>
    simp only [step] at h
    split at h
    · rename_i tx reply hpc
      cases h
      refine hquiet rfl ?_ rfl
      cases sent with
      | false => rfl
      | true => simp [entry, hpc, Entry.value]
    · cases h
  | drop =>
    simp only [step] at h
    split at h
    · cases h
    · cases h
      exact hquiet rfl rfl rfl

end UiLoop

namespace Handle

/-- The values that have come, handled or not. -/
def onWay (s : Handle) : List UserValue :=
  s.loop.inbox.filterMap UserInteractedEvent.given ++ s.history.filterMap Entry.value

theorem ui_values {s t : Handle} {l : UiLoop.Move} (h : s.ui l = some t) (v : UserValue) :
    t.onWay.count v = s.onWay.count v + l.brings.count v := by
  obtain ⟨lp, hlp, rfl⟩ := Option.map_eq_some_iff.mp h
  have hvalues := UiLoop.step_values hlp v
  simp only [onWay, List.filterMap_append, List.count_append]
  omega

theorem update_values (s : Handle) (u : DeviceStateUpdate) : (s.update u).onWay = s.onWay := by
  simp only [onWay, update, UiLoop.register_inbox]
  rfl

end Handle

/-! ### The answers in a history -/

/-- An answer that was sent: the kind and the channel of its prompt, and what it says. -/
structure SentAnswer where
  kind : PromptKind
  tx : ReplyTx
  reply : Reply

def SentAnswer.entry (a : SentAnswer) : Entry := .sent a.tx a.reply

def SentAnswer.value (a : SentAnswer) : UserValue := (a.kind, a.reply)

/-- The answers of a history, each on the channel of an earlier prompt of its kind, and each with a
value that was handled, of its own. -/
structure SentAnswers (history : List Entry) (answers : List SentAnswer) : Prop where
  sent : answers.map SentAnswer.entry = history.filter Entry.isSent
  prompted : ∀ a ∈ answers, ∃ later earlier u, history = later ++ a.entry :: earlier ∧
    .passed u ∈ earlier ∧ u.registered = some (a.kind, a.tx)
  values : (answers.map SentAnswer.value).Sublist (history.filterMap Entry.value)

namespace SentAnswers

variable {history : List Entry} {answers : List SentAnswer}

theorem later (h : SentAnswers history answers) {after : List Entry}
    (hafter : ∀ e ∈ after, e.isSent = false) : SentAnswers (after ++ history) answers where
  sent := by
    have hnone : after.filter Entry.isSent = [] :=
      List.filter_eq_nil_iff.mpr fun e he => by rw [hafter e he]; exact Bool.false_ne_true
    rw [List.filter_append, hnone, List.nil_append]
    exact h.sent
  prompted a ha := by
    obtain ⟨later, earlier, u, rfl, hu, hregistered⟩ := h.prompted a ha
    exact ⟨after ++ later, earlier, u, by rw [List.append_assoc], hu, hregistered⟩
  values := by
    rw [List.filterMap_append]
    exact h.values.trans (List.sublist_append_right _ _)

/- The value of an answer is the last one that was handled, and none of the earlier answers has it. -/
theorem cons {before after : List Entry} {tx : ReplyTx} {kind : PromptKind} {reply : Reply}
    (h : SentAnswers before answers) (hafter : ∀ e ∈ after, e.isPassed = true)
    (hnewest : newest kind before = some tx) :
    SentAnswers (.sent tx reply :: (after ++ .handled kind (some reply) :: before))
      (⟨kind, tx, reply⟩ :: answers) := by
  have hquiet : ∀ e ∈ after ++ [.handled kind (some reply)], e.isSent = false := by
    intro e he
    rcases List.mem_append.mp he with he | he
    · have hpassed := hafter e he
      cases e with
      | passed u => rfl
      | _ => cases hpassed
    · rw [List.mem_singleton.mp he]
      rfl
  have hcut : after ++ .handled kind (some reply) :: before =
      (after ++ [.handled kind (some reply)]) ++ before := by
    rw [List.append_assoc]
    rfl
  have hlater := h.later hquiet
  obtain ⟨u, hu, hregistered⟩ := newest_registered hnewest
  refine ⟨?_, List.forall_mem_cons.mpr ⟨?_, fun a ha => ?_⟩, ?_⟩
  · rw [List.map_cons, List.filter_cons_of_pos rfl, hcut, hlater.sent]
    rfl
  · exact ⟨[], _, u, rfl, List.mem_append_right _ (List.mem_cons_of_mem _ hu), hregistered⟩
  · obtain ⟨later, earlier, u', hsplit, hu', hregistered'⟩ := hlater.prompted a ha
    exact ⟨.sent tx reply :: later, earlier, u', by rw [hcut, hsplit]; rfl, hu', hregistered'⟩
  · have hvalues : (.sent tx reply :: (after ++ .handled kind (some reply) :: before)).filterMap
        Entry.value =
          after.filterMap Entry.value ++ (kind, reply) :: before.filterMap Entry.value := by
      rw [List.filterMap_cons_none rfl, List.filterMap_append]
      rfl
    rw [hvalues]
    exact (h.values.cons_cons (kind, reply)).trans (List.sublist_append_right _ _)

end SentAnswers

theorem Sound.suffix {after before : List Entry} (h : Sound (after ++ before)) : Sound before := by
  induction after with
  | nil => exact h
  | cons e after ih =>
    cases e with
    | passed u => exact ih h
    | handled kind reply => exact ih h
    | sent tx reply => exact ih h.2

theorem Sound.answers {history : List Entry} (h : Sound history) :
    ∃ answers, SentAnswers history answers := by
  induction hn : history.length using Nat.strong_induction_on generalizing history with
  | _ n ih =>
    cases history with
    | nil => exact ⟨[], rfl, List.forall_mem_nil _, List.Sublist.refl _⟩
    | cons e history =>
      rw [List.length_cons] at hn
      cases e with
      | passed u =>
        have hsound : Sound history := h
        obtain ⟨answers, hanswers⟩ := ih history.length (by omega) hsound rfl
        exact ⟨answers, hanswers.later (List.forall_mem_singleton.mpr rfl)⟩
      | handled kind reply =>
        have hsound : Sound history := h
        obtain ⟨answers, hanswers⟩ := ih history.length (by omega) hsound rfl
        exact ⟨answers, hanswers.later (List.forall_mem_singleton.mpr rfl)⟩
      | sent tx reply =>
        -- between the answer and its value only updates have passed
        obtain ⟨⟨kind, after, before, rfl, hafter, hnewest, -⟩, hsound⟩ := h
        rw [List.length_append, List.length_cons] at hn
        have hbefore : Sound before := hsound.suffix
        obtain ⟨answers, hanswers⟩ := ih before.length (by omega) hbefore rfl
        exact ⟨_, hanswers.cons hafter hnewest⟩

namespace Dialogue

variable {cat : Gui.Catalogue} {qrFits : String → Bool} {qrCode : OwnedFd → Except Panic String}
  {describe : IoError → String}

/-! ### No value becomes two -/

/-- The values of the user that are on their way or have been handled. -/
def onWay (s : Dialogue) : List UserValue :=
  s.gui.onWay ++ (s.gui.sent.drop s.taken).filterMap Gui.Sent.value ++
    s.signals.waiting.filterMap Gui.Sent.value ++ s.handle.onWay

/-- What the user gives with a label. -/
def given (s : Dialogue) : Label → List UserValue
  | .gui l => s.gui.given l
  | _ => []

theorem secretEvent_some {event : Except String Bytes → UserInteractedEvent}
    {read : Option (Except Panic (Except IoError Bytes))} {e : UserInteractedEvent}
    (h : secretEvent describe event read = some e) :
    ∃ result, read = some (.ok result) ∧ e = event (result.mapError describe) := by
  unfold secretEvent at h
  split at h
  · rename_i result
    exact ⟨result, rfl, (Option.some.inj h).symm⟩
  · cases h

/- A secret is read for what the file holds, or not at all. -/
theorem secretEvent_value {file : SecretFile} {bufs : Nat → Buffer} {kind : PromptKind}
    {event : Except String Bytes → UserInteractedEvent} {e : UserInteractedEvent}
    (hevent : ∀ secret, (event secret).value = some (kind, (readPin secret).map .pin))
    (h : secretEvent describe event (readSecret file.shared bufs) = some e) :
    e.given = none ∨ e.given = (readPin (.ok file.content)).map fun pin => (kind, .pin pin) := by
  obtain ⟨result, hread, rfl⟩ := secretEvent_some h
  rw [UserInteractedEvent.given, hevent, Option.bind_some, Option.map_map]
  cases result with
  | error err => exact Or.inl rfl
  | ok bytes =>
    rw [readSecret_content hread]
    exact Or.inr rfl

theorem received_value {event : Gui.Sent} {bufs : Nat → Buffer} {e : UserInteractedEvent}
    (h : event.received describe bufs = some e) : e.given = none ∨ e.given = event.value := by
  cases event with
  | discoveryRequested =>
    cases h
    exact Or.inl rfl
  | credentialSelected id =>
    cases h
    exact Or.inr rfl
  | client event =>
    cases event with
    | requestCancelled =>
      cases h
      exact Or.inl rfl
    | clientPinEntered file =>
      simp only [Gui.Sent.received, ClientEvent.received] at h
      exact secretEvent_value (fun _ => rfl) h
    | setDevicePin file =>
      simp only [Gui.Sent.received, ClientEvent.received] at h
      exact secretEvent_value (fun _ => rfl) h

theorem brings_nothing {l : UiLoop.Move} (h : isSignalled l = false) : l.brings = [] := by
  cases l with
  | event e =>
    cases e with
    | requestCancelled => rfl
    | _ => cases h
  | _ => rfl

theorem drop_values (sent new : List Gui.Sent) (n : Nat) (v : UserValue) :
    (((sent ++ new).drop n).filterMap Gui.Sent.value).count v ≤
      ((sent.drop n).filterMap Gui.Sent.value).count v +
        (new.filterMap Gui.Sent.value).count v := by
  have hnew := ((List.drop_sublist (n - sent.length) new).filterMap Gui.Sent.value).count_le v
  rw [List.drop_append, List.filterMap_append, List.count_append]
  omega

/-- Whatever moves: there are no more of a value than before, but for what the user gives. -/
theorem step_values {s t : Dialogue} {l : Label}
    (h : step cat qrFits qrCode describe s l = some t) (v : UserValue) :
    t.onWay.count v ≤ s.onWay.count v + (s.given l).count v := by
  cases moves_of_step h with
  | gui hagrees hgui hsession =>
    obtain ⟨sent, hsent, hle⟩ := Gui.step_values hgui v
    have hdrop := drop_values s.gui.sent sent s.taken v
    simp only [onWay, given, hsent, List.count_append]
    omega
  | @forwarded ok event hforwarding hevent =>
    obtain ⟨hlt, heq⟩ := List.getElem?_eq_some_iff.mp hevent
    have hcut : (s.gui.sent.drop s.taken).filterMap Gui.Sent.value =
        event.value.toList ++ (s.gui.sent.drop (s.taken + 1)).filterMap Gui.Sent.value := by
      rw [List.drop_eq_getElem_cons hlt, heq, ← List.singleton_append, List.filterMap_append,
        Gui.filterMap_singleton]
    simp only [onWay, hcut, List.count_append]
    split
    · rw [Fifo.send_waiting, List.filterMap_append, Gui.filterMap_singleton, List.count_append]
      omega
    · omega
  | @signalled bufs event signals e handle hrecv hreceived hui =>
    have hvalues := Handle.ui_values hui v
    have hevent : (UiLoop.Move.event e).brings.count v ≤ event.value.toList.count v := by
      rw [UiLoop.Move.brings]
      rcases received_value hreceived with hnone | hsame
      · rw [hnone]
        exact Nat.zero_le _
      · rw [hsame]
    have hwaiting : s.signals.waiting.filterMap Gui.Sent.value =
        event.value.toList ++ signals.waiting.filterMap Gui.Sent.value := by
      rw [(Fifo.recv_some hrecv).2.2, ← List.singleton_append, List.filterMap_append,
        Gui.filterMap_singleton]
    simp only [onWay, hwaiting, List.count_append]
    omega
  | daemon hl hui =>
    have hvalues := Handle.ui_values hui v
    rw [brings_nothing hl, List.count_nil] at hvalues
    simp only [onWay, List.count_append]
    omega
  | updated =>
    refine Nat.le_of_eq ?_
    simp only [onWay, update, Handle.update_values]
    rfl
  | delivered hown hsession hevents hgui =>
    simp only [Gui.deliver] at hgui
    split at hgui
    · cases hgui
      exact Nat.le_add_right _ _
    · cases hgui
  | _ => exact Nat.le_add_right _ _

/-- The values that the daemon handles are among those that the user has given, each as often. -/
theorem handled_subperm {request : UiService.ViewRequest} {c : RequestContext}
    {sessionHandle : String} {ls : List Label} {s : Dialogue}
    (h : exec (step cat qrFits qrCode describe) (start cat request c sessionHandle) ls = some s) :
    (s.handle.history.filterMap Entry.value).Subperm
      (inputs (step cat qrFits qrCode describe) given (start cat request c sessionHandle) ls) := by
  have hheld := held_subperm (fun _ _ _ v hl => step_values hl v) h
  have hstart : (start cat request c sessionHandle).onWay = [] := rfl
  rw [hstart, List.nil_append] at hheld
  exact (List.sublist_append_of_sublist_right (List.sublist_append_right _ _)).subperm.trans hheld

/-! ### No answer but the user's -/

/-- The window asks for it, and the daemon has asked before. -/
def Asked (s : Dialogue) : UserValue → Prop
  | (.clientPin, .pin _) =>
    s.gui.window.stack = .usbOrNfc ∧ s.gui.window.usbNfcPinEntryVisible = true ∧
      Prompted s.handle.history .clientPin
  | (.setPin, .pin pin) =>
    s.gui.window.stack = .setNewPin ∧ s.gui.window.newPinPrimaryEntry = pin ∧
      s.gui.window.newPinConfirmEntry = pin ∧ pin ≠ "" ∧ Prompted s.handle.history .setPin
  | (.credential, .credential id) =>
    s.gui.window.stack = .chooseCredential ∧ ∃ c, Offered s.handle.history c ∧ c.id = id ∧
      Gui.Window.credentialButton c ∈ s.gui.window.credentials
  | _ => False

theorem given_asked {s : Dialogue} {l : Label} (h : s.Inv)
    (hpins : Gui.matchingPins.window s.gui.window) : ∀ v ∈ s.given l, s.Asked v := by
  intro v hv
  cases l with
  | gui l =>
    cases l with
    | user a =>
      simp only [given, Gui.given, Option.mem_toList, Option.bind_eq_some_iff] at hv
      obtain ⟨⟨window, event⟩, hact, event', hevent, hvalue⟩ := hv
      simp only at hevent
      subst hevent
      cases Gui.Window.acts_of_act hact with
      | enterPin hstack hshown =>
        cases hvalue
        exact ⟨hstack, hshown, h.asking.window.1 hshown⟩
      | commitNewPin hstack hbutton =>
        cases hvalue
        obtain ⟨hsame, hne⟩ := hpins hbutton
        exact ⟨hstack, rfl, hsame.symm, hne, h.asking.window.2.1 (Or.inr hstack)⟩
      | selectCredential hstack hbutton =>
        cases hvalue
        have hmem := List.mem_of_getElem? hbutton
        obtain ⟨c, hoffered, rfl⟩ := h.asking.window.2.2 _ hmem
        exact ⟨hstack, c, hoffered, rfl, hmem⟩
      | closeWindow => cases hvalue
    | _ => cases hv
  | _ => cases hv

theorem matchingPins_step {s t : Dialogue} {l : Label} (h : Gui.matchingPins.Held s.gui)
    (hl : step cat qrFits qrCode describe s l = some t) : Gui.matchingPins.Held t.gui := by
  have hgui : Reaches (Gui.step cat qrFits qrCode) s.gui t.gui :=
    ((Parts.refl s).step hl).gui
  refine reaches_invariant (fun _ _ _ hs hl => hs.step Gui.matchingPins_respected ?_ hl) h hgui
  exact ⟨fun _ _ => trivial, fun _ _ _ _ _ => trivial⟩

/-- In every run of a request, each answer that is sent to a device is on the channel of a prompt
that asked for its kind, and has a value of its own among those that the user has given; and whenever
he gives one, the window asks for it and the daemon has asked for it before. -/
theorem answers_are_the_users {request : UiService.ViewRequest} {c : RequestContext}
    {sessionHandle : String} {ls : List Label} {s : Dialogue}
    (h : exec (step cat qrFits qrCode describe) (start cat request c sessionHandle) ls = some s) :
    (∃ answers, SentAnswers s.handle.history answers ∧
      (answers.map SentAnswer.value).Subperm
        (inputs (step cat qrFits qrCode describe) given (start cat request c sessionHandle) ls)) ∧
    Along (step cat qrFits qrCode describe) (fun m l _ => ∀ v ∈ m.given l, m.Asked v)
      (start cat request c sessionHandle) ls := by
  constructor
  · have hsound := (reaches_invariant (fun _ _ _ => Handle.step_inv) (Handle.inv_init c)
      (parts_of_run h).handle).sound
    obtain ⟨answers, hanswers⟩ := hsound.answers
    exact ⟨answers, hanswers, hanswers.values.subperm.trans (handled_subperm h)⟩
  · have hstart : Gui.matchingPins.Held (start cat request c sessionHandle).gui :=
      Gui.Marks.held_start (fun hbutton => by cases hbutton) request
    refine along_mono (I := fun s => s.Inv ∧ Gui.matchingPins.Held s.gui) ?_
      ⟨inv_start request c sessionHandle, hstart⟩ (along_trivial _ _ ls)
    rintro s l t ⟨hinv, hpins⟩ - hl
    exact ⟨⟨hinv.step hl, matchingPins_step hpins hl⟩, given_asked hinv hpins.window⟩

/- A key has two accounts, and the user chooses the second one while the loops are still busy with the
beginning of the request. -/
def sampleChoice : List Label :=
  [.gui .activate,
    .update (.usb (.selectingCredential [⟨"a", "Alice", none⟩, ⟨"b", "Bob", none⟩] 0)) .working,
    .sendStateUpdate 0, .session (.notify 0), .session (.notify 0), .session (.notify 0),
    .gui .takeBackground, .gui (.work Gui.sampleAnswer), .gui .update,
    .gui (.user (.selectCredential 1)), .gui (.poll 0), .gui .takeView,
    .gui (.work Gui.sampleAnswer), .gui (.work Gui.sampleAnswer), .gui (.work Gui.sampleAnswer),
    .gui .takeView, .forward true, .gui (.work Gui.sampleAnswer), .forward true,
    .signal (fun _ => ⟨1, Nat.one_pos⟩), .daemon .receive, .daemon (.discovery .receiving),
    .signal (fun _ => ⟨1, Nat.one_pos⟩), .daemon .receive, .daemon (.replied true)]

theorem answers_are_the_users_sample :
    ∃ s, exec (step Gui.english (fun _ => true) (fun _ => .error .unwrap) fun _ => "")
        (start Gui.english Gui.sampleRequest sampleContext "/session/1") sampleChoice = some s ∧
      .sent 0 (.credential "b") ∈ s.handle.history ∧
      ∃ answers, SentAnswers s.handle.history answers ∧
        (answers.map SentAnswer.value).Subperm [(.credential, .credential "b")] := by
  have hrun : exec (step Gui.english (fun _ => true) (fun _ => .error .unwrap) fun _ => "")
      (start Gui.english Gui.sampleRequest sampleContext "/session/1") sampleChoice =
        some _ := rfl
  exact ⟨_, hrun, List.mem_cons_self .., (answers_are_the_users hrun).1⟩

end Dialogue

end Credentialsd
