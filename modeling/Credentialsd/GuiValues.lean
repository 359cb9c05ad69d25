import Credentialsd.GuiChoices
import Credentialsd.GuiEnd
import Credentialsd.Prompts

/-!
# The values of the user in the GUI

A PIN, a new PIN or the id of a credential is first an event of a future of the main loop, then an
event of the view model, then what the loop is about to send, and at last a message. On this way none
of them becomes two.
-/

namespace Credentialsd

/-! ### What a file holds -/

namespace MmapReader

theorem read_bytes {r r' : MmapReader} {len : Nat} {bytes : Bytes}
    (h : r.read len = some (bytes, r')) :
    bytes = (r.inner.val.drop r.pos).take (min (r.size - r.pos) len) := by
  unfold read at h
  split at h
  · rename_i hend
    cases h
    rw [hend, Nat.zero_min]
    rfl
  · split at h
    · cases h
      rfl
    · cases h

/- If there is a result, it is the rest of the file, or of the page. -/
theorem readAll_content {r : MmapReader} {bufs : Nat → Buffer} {bytes : Bytes}
    (h : r.readAll bufs = some bytes) : bytes = (r.inner.val.drop r.pos).take (r.size - r.pos) := by
  induction hn : r.size - r.pos using Nat.strong_induction_on generalizing r bufs bytes with
  | _ n ih =>
    have hbuf := (bufs 0).property
    unfold readAll at h
    split at h
    · cases h
    · rename_i piece r' hread
      have hpiece := read_bytes hread
      obtain ⟨hsize, hinner, hpos⟩ := read_some hread
      rw [Chunks.advance] at hpos
      split at h
      · rename_i hempty
        cases h
        rw [List.isEmpty_iff.mp hempty, eq_comm, List.take_eq_nil_iff] at hpiece
        rw [eq_comm, List.take_eq_nil_iff]
        exact hpiece.imp (by omega) id
      · rename_i hsome
        obtain ⟨rest, hrest, rfl⟩ := Option.map_eq_some_iff.mp h
        have hlt := read_pos_lt hread (by simpa using hsome)
        have hrest := ih _ (hn ▸ hlt) hrest rfl
        have hcut : n = min (r.size - r.pos) (bufs 0).val + (r'.size - r'.pos) := by omega
        rw [hpiece, hrest, hinner, hcut, List.take_add, List.drop_drop, ← hpos]

end MmapReader

theorem usizeTryFrom_some {n : Int} {size : Nat} (h : usizeTryFrom n = some size) :
    size = n.toNat := by
  unfold usizeTryFrom at h
  split at h
  · exact (Option.some.inj h).symm
  · cases h

theorem MmapReader.fromFd_some {page : Page} {stSize : Int} {reader : MmapReader}
    (h : fromFd (.page page) (.ok stSize) = .ok reader) :
    reader.inner = page ∧ reader.size = stSize.toNat ∧ reader.pos = 0 := by
  unfold fromFd at h
  simp only at h
  split at h
  · cases h
  · rename_i size hsize
    cases h
    exact ⟨rfl, usizeTryFrom_some hsize, rfl⟩

theorem readSecret_some {calls : ReadCalls} {bufs : Nat → Buffer} {bytes : Bytes}
    (h : readSecret calls bufs = some (.ok (.ok bytes))) :
    ∃ reader, MmapReader.fromFd calls.mmap calls.fstat = .ok reader ∧
      reader.readAll bufs = some bytes := by
  unfold readSecret at h
  split at h
  · cases h
  · rename_i reader hreader
    obtain ⟨buf, hbuf, hresult⟩ := Option.map_eq_some_iff.mp h
    split at hresult
    · cases hresult
      exact ⟨reader, hreader, hbuf⟩
    · cases hresult

theorem readSecret_content {file : SecretFile} {bufs : Nat → Buffer} {bytes : Bytes}
    (h : readSecret file.shared bufs = some (.ok (.ok bytes))) : bytes = file.content := by
  obtain ⟨reader, hreader, hread⟩ := readSecret_some h
  obtain ⟨hinner, hsize, hpos⟩ := MmapReader.fromFd_some hreader
  have hcontent := MmapReader.readAll_content hread
  rw [hinner, hsize, hpos, List.drop_zero, Nat.sub_zero] at hcontent
  exact hcontent

theorem SecretFile.HoldsPin.content {file : SecretFile} {pin : String} (h : file.HoldsPin pin) :
    file.content = pin.toUTF8.data.toList :=
  (readSecret_content (h.2 fun _ => ⟨1, Nat.one_pos⟩)).symm

/-! ### On the way through the GUI -/

/-- What the user has entered or chosen, with the kind of the prompt that it answers. -/
abbrev UserValue := PromptKind × Reply

namespace Gui

def ViewEvent.value : ViewEvent → Option UserValue
  | .pinEntered pin => some (.clientPin, .pin pin)
  | .setNewDevicePin pin => some (.setPin, .pin pin)
  | .credentialSelected id => some (.credential, .credential id)
  | _ => none

def Op.value : Op → Option UserValue
  | .enterClientPin pin => some (.clientPin, .pin pin)
  | .setDevicePin pin => some (.setPin, .pin pin)
  | .selectCredential id => some (.credential, .credential id)
  | _ => none

/- Of a PIN what the file holds. -/
def Sent.value : Sent → Option UserValue
  | .client (.clientPinEntered file) =>
    (readPin (.ok file.content)).map fun pin => (.clientPin, .pin pin)
  | .client (.setDevicePin file) =>
    (readPin (.ok file.content)).map fun pin => (.setPin, .pin pin)
  | .credentialSelected id => some (.credential, .credential id)
  | _ => none

/-- What the user gives with a label. -/
def given (s : Gui) : Label → List UserValue
  | .user a => ((s.window.act a).bind fun acted => acted.2.bind ViewEvent.value).toList
  | _ => []

/-- The values that have not been sent yet. -/
def onWay (s : Gui) : List UserValue :=
  s.spawned.filterMap ViewEvent.value ++ s.events.waiting.filterMap ViewEvent.value ++
    s.stage.ops.filterMap Op.value

variable {cat : Catalogue} {qrFits : String → Bool} {qrCode : OwnedFd → Except Panic String}

theorem filterMap_singleton {α β : Type} (f : α → Option β) (a : α) :
    [a].filterMap f = (f a).toList := by
  cases h : f a <;> simp [h]

theorem holdsPin_value {file : SecretFile} {pin : String} (h : file.HoldsPin pin) :
    readPin (.ok file.content) = some pin := by
  rw [h.content]
  exact readPin_utf8 pin

/- An operation on a PIN sends it at most once, and nothing else of the user. -/
theorem sendPin_values {ε : Type} {tooLong failed : ε} {event : SecretFile → ClientEvent}
    {calls : WriteCalls} {isOpen : Bool} {pin : String} {result : Except ε Unit}
    {events : List ClientEvent} {kind : PromptKind}
    (hevent : ∀ file, Sent.value (.client (event file)) =
      (readPin (.ok file.content)).map fun pin => (kind, .pin pin))
    (h : sendPin tooLong failed event calls isOpen pin = .ok (result, events)) :
    (events.map Sent.client).filterMap Sent.value = [] ∨
      (events.map Sent.client).filterMap Sent.value = [(kind, .pin pin)] := by
  rcases sendPin_event h with rfl | rfl | ⟨file, rfl, hfile⟩
  · exact Or.inl rfl
  · exact Or.inl rfl
  · right
    rw [List.map_singleton, filterMap_singleton, hevent, holdsPin_value hfile]
    rfl

theorem operate_frame (gettext : String → String) (s : Gui) (answer : Answer) (op : Op)
    (ops : List Op) (breaks : Bool) :
    (s.operate gettext answer op ops breaks).spawned = s.spawned ∧
      (s.operate gettext answer op ops breaks).events = s.events ∧
      (s.operate gettext answer op ops breaks).background = s.background := by
  have h := operates gettext s answer op ops breaks
  generalize s.operate gettext answer op ops breaks = t at h
  cases h <;> exact ⟨rfl, rfl, rfl⟩

/- What was to be sent is sent, or not at all. -/
theorem operate_values (gettext : String → String) (s : Gui) (answer : Answer) (op : Op)
    (ops : List Op) (breaks : Bool) :
    ∃ sent, (s.operate gettext answer op ops breaks).sent = s.sent ++ sent ∧
      (sent.filterMap Sent.value).Sublist op.value.toList ∧
      ((s.operate gettext answer op ops breaks).stage.ops.filterMap Op.value).Sublist
        (ops.filterMap Op.value) := by
  cases op with
  | update u =>
    simp only [operate]
    split
    · exact ⟨[], (List.append_nil _).symm, List.Sublist.refl _, List.nil_sublist _⟩
    · refine ⟨[], (List.append_nil _).symm, List.Sublist.refl _, ?_⟩
      rw [LoopStage.resume_ops]
  | startDiscovery =>
    simp only [operate]
    split
    · refine ⟨[.discoveryRequested], rfl, List.Sublist.refl _, ?_⟩
      simp only [resumeWith, LoopStage.resume_ops, List.Sublist.refl]
    · exact ⟨[], (List.append_nil _).symm, List.Sublist.refl _, List.nil_sublist _⟩
  | enterClientPin pin =>
    simp only [operate]
    split
    · exact ⟨[], (List.append_nil _).symm, List.nil_sublist _, List.nil_sublist _⟩
    · rename_i hpin
      refine ⟨_, rfl, ?_, ?_⟩
      · rcases sendPin_values (fun _ => rfl) hpin with hnone | hpin
        · rw [hnone]
          exact List.nil_sublist _
        · rw [hpin]
          exact List.Sublist.refl _
      · simp only [resumeWith, LoopStage.resume_ops, List.Sublist.refl]
  | setDevicePin pin =>
    have hvalues : ∀ {result events}, Credentialsd.setDevicePin answer.calls answer.flowOpen pin =
        .ok (result, events) → ((events.map Sent.client).filterMap Sent.value).Sublist
          (Op.setDevicePin pin).value.toList := by
      intro result events hpin
      rcases sendPin_values (fun _ => rfl) hpin with hnone | hpin
      · rw [hnone]
        exact List.nil_sublist _
      · rw [hpin]
        exact List.Sublist.refl _
    simp only [operate]
    split
    · exact ⟨[], (List.append_nil _).symm, List.nil_sublist _, List.nil_sublist _⟩
    · rename_i hpin
      refine ⟨_, rfl, hvalues hpin, ?_⟩
      simp only [resumeWith, LoopStage.resume_ops]
      exact List.Sublist.refl _
    · rename_i hpin
      refine ⟨_, rfl, hvalues hpin, ?_⟩
      simp only [resumeWith, LoopStage.resume_ops, List.Sublist.refl]
  | selectCredential id =>
    simp only [operate]
    split
    · refine ⟨[.credentialSelected id], rfl, List.Sublist.refl _, ?_⟩
      simp only [resumeWith, LoopStage.resume_ops, List.Sublist.refl]
    · refine ⟨[], rfl, List.nil_sublist _, ?_⟩
      simp only [resumeWith, LoopStage.resume_ops]
      exact List.Sublist.refl _

/- What is asked of the loop for an event is what the event has of the user. -/
theorem take_values (gettext : String → String) (qrCode : OwnedFd → Except Panic String)
    (s : Gui) (event : Event) :
    ((take gettext qrCode s event).stage.ops.filterMap Op.value).Sublist
      (match event with
        | .view event => event.value.toList
        | .background _ => []) := by
  cases event with
  | view event =>
    have hops : (take gettext qrCode s (.view event)).stage.ops.filterMap Op.value =
        event.value.toList := by
      cases event <;> rfl
    rw [hops]
  | background event =>
    unfold take
    split
    · rename_i l' ops breaks hhandle
      have hnone : (LoopStage.resume breaks ops).ops.filterMap Op.value = [] := by
        rw [LoopStage.resume_ops, List.filterMap_eq_nil_iff]
        intro op hop
        obtain ⟨u, rfl⟩ := updates_only (handle_background hhandle) op hop
        rfl
      exact hnone ▸ List.Sublist.refl _
    · exact List.Sublist.refl _

/- A request to close brings in nothing of the user. -/
theorem closeRequest_onWay (s : Gui) :
    s.closeRequest.onWay = s.onWay ∧ s.closeRequest.sent = s.sent := by
  obtain ⟨events, heq, rfl | rfl⟩ := closeRequest_frame s
  · rw [heq]
    exact ⟨rfl, rfl⟩
  · rw [heq]
    exact ⟨by simp [onWay, filterMap_singleton, ViewEvent.value], rfl⟩

theorem count_waiting {c c' : Fifo ViewEvent} {event : ViewEvent} (v : UserValue)
    (h : c.recv = some (event, c')) :
    (c.waiting.filterMap ViewEvent.value).count v =
      event.value.toList.count v + (c'.waiting.filterMap ViewEvent.value).count v := by
  rw [(Fifo.recv_some h).2.2, ← List.singleton_append, List.filterMap_append, filterMap_singleton,
    List.count_append]

theorem count_eraseIdx {events : List ViewEvent} {i : Nat} {event : ViewEvent} (v : UserValue)
    (h : events[i]? = some event) :
    (events.filterMap ViewEvent.value).count v =
      event.value.toList.count v + ((events.eraseIdx i).filterMap ViewEvent.value).count v := by
  obtain ⟨hi, rfl⟩ := List.getElem?_eq_some_iff.mp h
  have hperm := (List.getElem_cons_eraseIdx_perm hi).filterMap ViewEvent.value
  rw [← hperm.count_eq, ← List.singleton_append, List.filterMap_append, filterMap_singleton,
    List.count_append]

/-- A step of the GUI sends a value or keeps it, and makes nothing up. -/
theorem step_values {s t : Gui} {l : Label} (h : step cat qrFits qrCode s l = some t)
    (v : UserValue) :
    ∃ sent, t.sent = s.sent ++ sent ∧
      t.onWay.count v + (sent.filterMap Sent.value).count v ≤
        s.onWay.count v + (s.given l).count v := by
  have hquiet : ∀ {t : Gui}, t.sent = s.sent → t.onWay.count v ≤ s.onWay.count v →
      ∃ sent, t.sent = s.sent ++ sent ∧
        t.onWay.count v + (sent.filterMap Sent.value).count v ≤
          s.onWay.count v + (s.given l).count v := by
    intro t hsent hle
    refine ⟨[], by rw [hsent, List.append_nil], ?_⟩
    rw [List.filterMap_nil, List.count_nil]
    omega
  cases moves_of_step h with
  | activated =>
    refine hquiet rfl (Nat.le_of_eq ?_)
    simp [onWay, filterMap_singleton, ViewEvent.value]
  | @spawned a window event hgtk hevent hact =>
    refine ⟨[], (List.append_nil _).symm, Nat.le_of_eq ?_⟩
    have hgiven : s.given (.user a) = event.value.toList := by
      rw [given, hact]
      rfl
    simp only [onWay, hgiven, List.filterMap_append, filterMap_singleton, List.count_append,
      List.filterMap_nil, List.count_nil]
    omega
  | asked =>
    obtain ⟨honWay, hsent⟩ := closeRequest_onWay { s with window := _ }
    exact hquiet hsent (Nat.le_of_eq (by rw [honWay]; rfl))
  | polled hgtk hevent =>
    refine hquiet rfl (Nat.le_of_eq ?_)
    simp only [onWay, Fifo.send_waiting, List.filterMap_append, filterMap_singleton,
      List.count_append, count_eraseIdx v hevent]
    omega
  | polledLate hgtk hevent =>
    refine hquiet rfl ?_
    simp only [onWay, List.count_append, count_eraseIdx v hevent]
    omega
  | closed =>
    obtain ⟨honWay, hsent⟩ := closeRequest_onWay s
    exact hquiet hsent (Nat.le_of_eq (by rw [← honWay]; rfl))
  | cancellationPassed =>
    refine hquiet rfl (Nat.le_of_eq ?_)
    simp [onWay, filterMap_singleton, ViewEvent.value]
  | @viewTaken event events hstage hrecv =>
    obtain ⟨-, stage, eventLoop, htake⟩ :=
      take_rank cat.gettext qrCode { s with events } (.view event)
    have hops := (take_values cat.gettext qrCode { s with events } (.view event)).count_le v
    rw [htake] at hops ⊢
    refine hquiet rfl ?_
    simp only [onWay, List.count_append, count_waiting v hrecv]
    simp only at hops
    omega
  | @backgroundTaken event background hstage hrecv =>
    obtain ⟨-, stage, eventLoop, htake⟩ :=
      take_rank cat.gettext qrCode { s with background } (.background event)
    have hops :=
      (take_values cat.gettext qrCode { s with background } (.background event)).count_le v
    rw [htake] at hops ⊢
    refine hquiet rfl ?_
    simp only [onWay, List.count_append]
    simp only [List.count_nil] at hops
    omega
  | @worked answer op ops breaks hstage =>
    obtain ⟨sent, hsent, hvalue, hops⟩ := operate_values cat.gettext s answer op ops breaks
    obtain ⟨hspawned, hevents, -⟩ := operate_frame cat.gettext s answer op ops breaks
    have hvalue := hvalue.count_le v
    have hops := hops.count_le v
    have hbefore : s.stage.ops.filterMap Op.value =
        op.value.toList ++ ops.filterMap Op.value := by
      rw [hstage, LoopStage.ops, ← List.singleton_append, List.filterMap_append,
        filterMap_singleton]
    refine ⟨sent, hsent, ?_⟩
    simp only [onWay, hspawned, hevents, hbefore, List.count_append]
    omega
  | @finished flowOpen hstage =>
    refine ⟨_, rfl, ?_⟩
    have hnone : (((clientSend flowOpen .requestCancelled).2.map .client).filterMap
        Sent.value).count v = 0 := by
      cases flowOpen <;> rfl
    have hops : LoopStage.ended.ops = [] := rfl
    simp only [onWay, hnone, hops, List.filterMap_nil, List.count_append, List.count_nil]
    omega
  | loopCancelled =>
    refine hquiet rfl ?_
    simp [onWay, LoopStage.ops]
  | _ => exact hquiet rfl (Nat.le_refl _)

end Gui

end Credentialsd
