import Credentialsd.LoopMoves

/-!
# The prompts of a request (`dbus/flow_control.rs:142-288`)

`handle` works with any `ManageDevice`, so here a request is its UI event loop
and a discovery that yields any updates. Every prompt asks on a channel of its
own, and the closure that `handle` maps over the discovery keeps the sender in
one of three slots until a value of the user arrives. The history records, newest
entry first, what passed the closure, what the loop made of the user's values
and what it sent to a device.
-/

namespace Credentialsd
open Machine

/-! ### A request with its history -/

inductive Entry where
  | passed (u : DeviceStateUpdate)
  | handled (kind : PromptKind) (reply : Option Reply)
  | sent (tx : ReplyTx) (reply : Reply)
  deriving Repr, DecidableEq

namespace Entry

def isPassed : Entry → Bool
  | .passed _ => true
  | _ => false

/-- The channel of a prompt of this kind that the closure has kept. -/
def registered (kind : PromptKind) : Entry → Option ReplyTx
  | .passed u => u.registered.bind fun p => if p.1 = kind then some p.2 else none
  | _ => none

end Entry

/-- The newest prompt of a kind that has been registered. -/
def newest (kind : PromptKind) (history : List Entry) : Option ReplyTx :=
  history.findSome? (Entry.registered kind)

/-- The entry that a move of the loop leaves in the history. -/
def UiLoop.entry (lp : UiLoop) : UiLoop.Move → Option Entry
  | .receive => lp.nextValue.map fun v => .handled v.1 v.2
  | .replied true =>
    match lp.pc with
    | .replying tx reply => some (.sent tx reply)
    | _ => none
  | _ => none

structure Handle where
  loop : UiLoop
  nextTx : ReplyTx
  history : List Entry

namespace Handle

inductive Label where
  | update (u : DeviceStateUpdate)
  | ui (l : UiLoop.Move)
  deriving Repr, DecidableEq

def init (c : RequestContext) : Handle := ⟨.new c, 0, []⟩

/-- The closure of `handle` on an update of the discovery. A handler makes a channel for each of its
prompts, so an update that carries one carries a new one. -/
def update (s : Handle) (u : DeviceStateUpdate) : Handle where
  loop := s.loop.register (u.withTx s.nextTx)
  nextTx := s.nextTx + 1
  history := .passed (u.withTx s.nextTx) :: s.history

def ui (s : Handle) (l : UiLoop.Move) : Option Handle :=
  (s.loop.step l).map fun lp =>
    { s with loop := lp, history := (s.loop.entry l).toList ++ s.history }

def step (s : Handle) : Label → Option Handle
  | .update u => some (s.update u)
  | .ui l => s.ui l

end Handle

/-! ### What the history may look like -/

theorem newest_passed (kind : PromptKind) (u : DeviceStateUpdate) (history : List Entry) :
    newest kind (.passed u :: history) =
      match u.registered with
      | some (kind', tx) => if kind = kind' then some tx else newest kind history
      | none => newest kind history := by
  simp only [newest, List.findSome?_cons, Entry.registered]
  cases u.registered with
  | none => rfl
  | some p =>
    by_cases h : p.1 = kind
    · simp [h]
    · simp [h, Ne.symm h]

/-- The reply is the last value handled, the channel was the newest registered one of its kind then,
and nothing has been sent on it. -/
def Delivers (history : List Entry) (tx : ReplyTx) (reply : Reply) : Prop :=
  ∃ kind after before, history = after ++ .handled kind (some reply) :: before ∧
    (∀ e ∈ after, e.isPassed = true) ∧ newest kind before = some tx ∧ ∀ r, .sent tx r ∉ history

def Sound : List Entry → Prop
  | [] => True
  | .sent tx reply :: history => Delivers history tx reply ∧ Sound history
  | .passed _ :: history => Sound history
  | .handled _ _ :: history => Sound history

theorem Delivers.passed {history : List Entry} {tx : ReplyTx} {reply : Reply}
    (h : Delivers history tx reply) (u : DeviceStateUpdate) :
    Delivers (.passed u :: history) tx reply := by
  obtain ⟨kind, after, before, rfl, hafter, hnewest, hunsent⟩ := h
  refine ⟨kind, .passed u :: after, before, rfl, fun e he => ?_, hnewest, fun r hr => ?_⟩
  · rcases List.mem_cons.mp he with rfl | hold
    · rfl
    · exact hafter e hold
  · rcases List.mem_cons.mp hr with hnew | hold
    · cases hnew
    · exact hunsent r hold

namespace Handle

structure Inv (s : Handle) : Prop where
  sound : Sound s.history
  sent_lt : ∀ tx r, .sent tx r ∈ s.history → tx < s.nextTx
  slot : ∀ kind tx, s.loop.slot kind = some tx →
    tx < s.nextTx ∧ newest kind s.history = some tx ∧ ∀ r, .sent tx r ∉ s.history
  slot_inj : ∀ kind kind' tx, s.loop.slot kind = some tx → s.loop.slot kind' = some tx →
    kind = kind'
  replying : ∀ tx r, s.loop.pc = .replying tx r →
    tx < s.nextTx ∧ Delivers s.history tx r ∧ ∀ kind, s.loop.slot kind ≠ some tx

theorem inv_init (c : RequestContext) : (init c).Inv := by
  refine ⟨trivial, fun tx r h => (by cases h), fun kind tx h => ?_, fun kind kind' tx h => ?_,
    fun tx r h => by cases h⟩
  · cases kind <;> cases h
  · cases kind <;> cases h

theorem update_slot (s : Handle) (u : DeviceStateUpdate) (kind : PromptKind) :
    (s.update u).loop.slot kind = s.loop.slot kind ∧
        newest kind (s.update u).history = newest kind s.history ∨
      (s.update u).loop.slot kind = some s.nextTx ∧
        newest kind (s.update u).history = some s.nextTx ∧
        ∀ kind', kind' ≠ kind → (s.update u).loop.slot kind' = s.loop.slot kind' := by
  simp only [update, UiLoop.register_slot, newest_passed, DeviceStateUpdate.registered_withTx]
  cases u.registered with
  | none => exact Or.inl ⟨rfl, rfl⟩
  | some p =>
    by_cases h : kind = p.1
    · refine Or.inr ⟨if_pos h, if_pos h, fun kind' hne => if_neg fun he => hne ?_⟩
      rw [he, h]
    · exact Or.inl ⟨if_neg h, if_neg h⟩

theorem update_inv {s : Handle} (u : DeviceStateUpdate) (hi : s.Inv) : (s.update u).Inv := by
  have hlt : s.nextTx < (s.update u).nextTx := Nat.lt_succ_self _
  have hsent : ∀ tx r, .sent tx r ∈ (s.update u).history → .sent tx r ∈ s.history := by
    intro tx r h
    rcases List.mem_cons.mp h with hnew | hold
    · cases hnew
    · exact hold
  have hold : ∀ kind tx, (s.update u).loop.slot kind = some tx → tx ≠ s.nextTx →
      s.loop.slot kind = some tx ∧ newest kind (s.update u).history = newest kind s.history := by
    intro kind tx h hne
    rcases update_slot s u kind with ⟨hs, hn⟩ | ⟨hs, -, -⟩
    · exact ⟨hs ▸ h, hn⟩
    · rw [hs] at h
      exact absurd (Option.some.inj h).symm hne
  refine ⟨hi.sound, fun tx r h => ?_, fun kind tx h => ?_, fun kind kind' tx h h' => ?_,
    fun tx r h => ?_⟩
  · exact Nat.lt_trans (hi.sent_lt tx r (hsent tx r h)) hlt
  · by_cases hnew : tx = s.nextTx
    · refine ⟨by rw [hnew]; exact hlt, ?_, fun r hr => ?_⟩
      · rcases update_slot s u kind with ⟨hs, -⟩ | ⟨-, hn, -⟩
        · rw [hs] at h
          exact absurd hnew (Nat.ne_of_lt (hi.slot kind tx h).1)
        · rw [hn, hnew]
      · exact absurd hnew (Nat.ne_of_lt (hi.sent_lt tx r (hsent tx r hr)))
    · obtain ⟨hs, hn⟩ := hold kind tx h hnew
      obtain ⟨hslot, hnewest, hunsent⟩ := hi.slot kind tx hs
      exact ⟨Nat.lt_trans hslot hlt, by rw [hn, hnewest], fun r hr => hunsent r (hsent tx r hr)⟩
  · by_cases hnew : tx = s.nextTx
    · refine Classical.byContradiction fun hne => ?_
      rcases update_slot s u kind with ⟨hs, -⟩ | ⟨-, -, hother⟩
      · rw [hs] at h
        exact absurd hnew (Nat.ne_of_lt (hi.slot kind tx h).1)
      · rw [hother kind' fun he => hne he.symm] at h'
        exact absurd hnew (Nat.ne_of_lt (hi.slot kind' tx h').1)
    · exact hi.slot_inj kind kind' tx (hold kind tx h hnew).1 (hold kind' tx h' hnew).1
  · obtain ⟨hreply, hdelivers, hslots⟩ := hi.replying tx r
      ((s.loop.register_request (u.withTx s.nextTx)).2 ▸ h)
    refine ⟨Nat.lt_trans hreply hlt, hdelivers.passed _, fun kind hk => ?_⟩
    exact hslots kind (hold kind tx hk (Nat.ne_of_lt hreply)).1

/-- A move that starts no reply keeps what is in the slots. -/
theorem Inv.keep {s s' : Handle} (hi : s.Inv) (hsound : Sound s'.history)
    (hnext : s'.nextTx = s.nextTx)
    (hnewest : ∀ kind, newest kind s'.history = newest kind s.history)
    (hsent : ∀ tx r, .sent tx r ∈ s'.history → .sent tx r ∈ s.history)
    (hslot : ∀ kind tx, s'.loop.slot kind = some tx → s.loop.slot kind = some tx)
    (hreply : ∀ tx r, s'.loop.pc = .replying tx r →
      tx < s.nextTx ∧ Delivers s'.history tx r ∧ ∀ kind, s'.loop.slot kind ≠ some tx) : s'.Inv where
  sound := hsound
  sent_lt tx r h := by rw [hnext]; exact hi.sent_lt tx r (hsent tx r h)
  slot kind tx h := by
    obtain ⟨hlt, hn, hunsent⟩ := hi.slot kind tx (hslot kind tx h)
    exact ⟨hnext ▸ hlt, by rw [hnewest, hn], fun r hr => hunsent r (hsent tx r hr)⟩
  slot_inj kind kind' tx h h' := hi.slot_inj kind kind' tx (hslot kind tx h) (hslot kind' tx h')
  replying tx r h := hnext ▸ hreply tx r h

theorem receive_inv {s : Handle} {lp : UiLoop} (h : s.loop.receive = some lp) (hi : s.Inv) :
    Inv { s with loop := lp, history := (s.loop.entry .receive).toList ++ s.history } := by
  have hnone : ∀ kind reply, s.loop.nextValue = some (kind, reply) →
      (s.loop.entry .receive).toList ++ s.history = .handled kind reply :: s.history := by
    intro kind reply hv
    simp only [UiLoop.entry, hv, Option.map_some, Option.toList_some, List.cons_append,
      List.nil_append]
  rcases UiLoop.receive_cases h with ⟨hv, hslot, hpc⟩ | ⟨kind, hv, hslot, hpc⟩ |
    ⟨kind, reply, hv, hslot, hpc⟩
  · have he : (s.loop.entry .receive).toList ++ s.history = s.history := by
      simp only [UiLoop.entry, hv, Option.map_none, Option.toList_none, List.nil_append]
    rw [he]
    refine hi.keep hi.sound rfl (fun _ => rfl) (fun _ _ h => h) (fun kind tx h => ?_)
      fun tx r h => absurd h (hpc tx r)
    exact hslot kind ▸ h
  · rw [hnone kind none hv]
    refine hi.keep hi.sound rfl (fun _ => rfl) (fun tx r h => ?_) (fun kind tx h => ?_)
      fun tx r h => ?_
    · exact (List.mem_cons.mp h).resolve_left (fun he => by cases he)
    · exact hslot kind ▸ h
    · rw [hpc] at h
      cases h
  · rw [hnone kind (some reply) hv]
    have hsent : ∀ tx r, .sent tx r ∈ Entry.handled kind (some reply) :: s.history →
        .sent tx r ∈ s.history := fun tx r h =>
      (List.mem_cons.mp h).resolve_left fun he => by cases he
    refine hi.keep hi.sound rfl (fun _ => rfl) hsent (fun kind' tx h => ?_) fun tx r h => ?_
    · rw [hslot] at h
      split at h
      · cases h
      · exact h
    · -- the channel comes from the slot of the value's kind
      rw [hpc] at h
      split at h
      · rename_i tx' htx
        cases h
        obtain ⟨hlt, hn, hunsent⟩ := hi.slot kind _ htx
        refine ⟨hlt, ⟨kind, [], s.history, rfl, fun e he => (by cases he), hn, fun r hr => ?_⟩,
          fun kind' hk => ?_⟩
        · exact hunsent r (hsent _ r hr)
        · rw [hslot] at hk
          split at hk
          · cases hk
          · rename_i hne
            exact hne (hi.slot_inj kind' kind _ hk htx)
      · cases h

theorem ui_inv {s s' : Handle} {l : UiLoop.Move} (h : s.ui l = some s') (hi : s.Inv) : s'.Inv := by
  obtain ⟨lp, hlp, rfl⟩ := Option.map_eq_some_iff.mp h
  by_cases hl : l = .receive
  · rw [hl] at hlp ⊢
    exact receive_inv hlp hi
  · obtain ⟨hslot, hpc⟩ := UiLoop.step_slot hlp hl
    have hquiet : ∀ history, history = s.history →
        Inv { s with loop := lp, history := history } := by
      rintro history rfl
      refine hi.keep hi.sound rfl (fun _ => rfl) (fun _ _ h => h) (fun kind tx h => ?_)
        fun tx r h => ?_
      · exact hslot kind ▸ h
      · obtain ⟨hlt, hd, hs⟩ := hi.replying tx r (hpc tx r h)
        exact ⟨hlt, hd, fun kind hk => hs kind (hslot kind ▸ hk)⟩
    cases he : s.loop.entry l with
    | none => exact hquiet _ rfl
    | some e =>
      -- only the end of a successful reply leaves an entry
      cases l with
      | replied sent =>
        cases sent with
        | false => cases he
        | true =>
          simp only [UiLoop.entry] at he
          split at he
          · rename_i tx reply hreply
            cases he
            obtain ⟨hlt, hd, hs⟩ := hi.replying tx reply hreply
            simp only [UiLoop.step, hreply, Option.some.injEq] at hlp
            subst hlp
            refine ⟨⟨hd, hi.sound⟩, fun tx' r h => ?_, fun kind tx' h => ?_,
              fun kind kind' tx' h h' => ?_, fun tx' r h => by cases h⟩
            · rcases List.mem_cons.mp h with hnew | hold
              · cases hnew
                exact hlt
              · exact hi.sent_lt tx' r hold
            · rw [hslot] at h
              obtain ⟨hlt', hn, hunsent⟩ := hi.slot kind tx' h
              refine ⟨hlt', hn, fun r hr => ?_⟩
              rcases List.mem_cons.mp hr with hnew | hold
              · cases hnew
                exact hs kind h
              · exact hunsent r hold
            · rw [hslot] at h h'
              exact hi.slot_inj kind kind' tx' h h'
          · cases he
      | receive => exact absurd rfl hl
      | event e => cases he
      | close => cases he
      | discovery pc => cases he
      | cancellation pc => cases he
      | drop => cases he

theorem step_inv {s s' : Handle} {l : Label} (hi : s.Inv) (h : s.step l = some s') : s'.Inv := by
  cases l with
  | update u =>
    cases h
    exact update_inv u hi
  | ui l => exact ui_inv h hi

theorem run_inv {c : RequestContext} {ls : List Label} {s : Handle}
    (h : exec step (init c) ls = some s) : s.Inv :=
  reaches_invariant (fun _ _ _ => step_inv) (inv_init c) ⟨ls, h⟩

end Handle

/-! ### One value for each prompt -/

namespace Entry

def isSentOn (tx : ReplyTx) : Entry → Bool
  | .sent tx' _ => tx' == tx
  | _ => false

end Entry

/-- What the slots are for, said of a history: a channel gets one value at most, it gets the last
value handled and was the newest registered one of its kind then, and a value that found no
registered prompt without an answer is never sent. -/
structure Faithful (history : List Entry) : Prop where
  once : ∀ tx, history.countP (Entry.isSentOn tx) ≤ 1
  newest : ∀ later tx reply earlier, history = later ++ .sent tx reply :: earlier →
    ∃ kind after before, earlier = after ++ .handled kind (some reply) :: before ∧
      (∀ e ∈ after, e.isPassed = true) ∧ newest kind before = some tx
  discarded : ∀ later kind reply earlier, history = later ++ .handled kind reply :: earlier →
    (∀ u tx, .passed u ∈ earlier → u.registered = some (kind, tx) → ∃ r, .sent tx r ∈ earlier) →
    ∀ rest tx r between, later = rest ++ .sent tx r :: between →
      ∃ kind' reply', .handled kind' reply' ∈ between

theorem Sound.sent {later earlier : List Entry} {tx : ReplyTx} {reply : Reply}
    (h : Sound (later ++ .sent tx reply :: earlier)) : Delivers earlier tx reply := by
  induction later with
  | nil => exact h.1
  | cons e later ih =>
    cases e with
    | passed u => exact ih h
    | handled kind r => exact ih h
    | sent tx' r => exact ih h.2

theorem Sound.once {history : List Entry} (h : Sound history) (tx : ReplyTx) :
    history.countP (Entry.isSentOn tx) ≤ 1 := by
  induction history with
  | nil => exact Nat.zero_le 1
  | cons e history ih =>
    cases e with
    | passed u => exact ih h
    | handled kind r => exact ih h
    | sent tx' r =>
      obtain ⟨hd, hrest⟩ := h
      by_cases he : tx' = tx
      · -- nothing has been sent on it before
        have hzero : history.countP (Entry.isSentOn tx) = 0 := by
          refine List.countP_eq_zero.mpr fun e hmem => ?_
          obtain ⟨kind, after, before, -, -, -, hunsent⟩ := hd
          cases e with
          | passed u => exact Bool.false_ne_true
          | handled kind r => exact Bool.false_ne_true
          | sent tx'' r' =>
            intro hsame
            rw [← he] at hsame
            rw [beq_iff_eq.mp hsame] at hmem
            exact hunsent r' hmem
        rw [List.countP_cons, hzero]
        split <;> omega
      · have hfalse : Entry.isSentOn tx (.sent tx' r) = false := beq_false_of_ne he
        rw [List.countP_cons, hfalse]
        exact ih hrest

theorem newest_registered {kind : PromptKind} {history : List Entry} {tx : ReplyTx}
    (h : newest kind history = some tx) :
    ∃ u, .passed u ∈ history ∧ u.registered = some (kind, tx) := by
  obtain ⟨e, hmem, he⟩ := List.exists_of_findSome?_eq_some h
  cases e with
  | passed u =>
    refine ⟨u, hmem, ?_⟩
    simp only [Entry.registered] at he
    cases hu : u.registered with
    | none =>
      rw [hu] at he
      cases he
    | some p =>
      simp only [hu, Option.bind_some] at he
      split at he
      · rename_i hkind
        cases he
        rw [← hkind]
      · cases he
  | handled kind r => cases he
  | sent tx' r => cases he

/- The last value before an entry is found by going back over the updates that passed since. -/
theorem last_handled {between earlier after before : List Entry} {kind kind' : PromptKind}
    {reply reply' : Option Reply}
    (h : between ++ .handled kind reply :: earlier = after ++ .handled kind' reply' :: before)
    (hafter : ∀ e ∈ after, e.isPassed = true) :
    (kind = kind' ∧ earlier = before) ∨ ∃ k r, .handled k r ∈ between := by
  induction between generalizing after with
  | nil =>
    cases after with
    | nil =>
      injection h with hhead htail
      injection hhead with hkind
      exact Or.inl ⟨hkind, htail⟩
    | cons e after =>
      injection h with hhead htail
      have hpassed := hafter e (List.mem_cons_self ..)
      rw [← hhead] at hpassed
      cases hpassed
  | cons e between ih =>
    cases after with
    | nil =>
      injection h with hhead htail
      exact Or.inr ⟨kind', reply', by rw [hhead]; exact List.mem_cons_self ..⟩
    | cons e' after =>
      injection h with hhead htail
      refine (ih htail fun x hx => hafter x (List.mem_cons_of_mem _ hx)).imp id ?_
      rintro ⟨k, r, hmem⟩
      exact ⟨k, r, List.mem_cons_of_mem _ hmem⟩

theorem Sound.faithful {history : List Entry} (h : Sound history) : Faithful history where
  once := h.once
  newest later tx reply earlier he := by
    rw [he] at h
    obtain ⟨kind, after, before, hearlier, hafter, hnewest, -⟩ := h.sent
    exact ⟨kind, after, before, hearlier, hafter, hnewest⟩
  discarded later kind reply earlier he hanswered rest tx r between hlater := by
    rw [he, hlater, List.append_assoc, List.cons_append] at h
    obtain ⟨kind', after, before, hsplit, hafter, hnewest, hunsent⟩ := h.sent
    rcases last_handled hsplit hafter with ⟨hkind, hbefore⟩ | hother
    · -- the value itself was sent, on a registered channel that had no answer
      rw [← hkind, ← hbefore] at hnewest
      obtain ⟨u, hu, hregistered⟩ := newest_registered hnewest
      obtain ⟨r', hr'⟩ := hanswered u tx hu hregistered
      exact absurd (List.mem_append_right between (List.mem_cons_of_mem _ hr')) (hunsent r')
    · exact hother

/-- Over any run of a request, with any prompts and any values, the loop keeps to its prompts. -/
theorem values_reach_own_prompt (c : RequestContext) (ls : List Handle.Label) (s : Handle)
    (h : exec Handle.step (Handle.init c) ls = some s) : Faithful s.history :=
  (Handle.run_inv h).sound.faithful

def sampleContext : RequestContext :=
  ⟨.getPublicKeyCredentialRequest ⟨"example.com", "https://example.com", none, []⟩, 0, 1, 0⟩

/- Two wrong PINs and a right one, with a value too many in between. -/
def pinRun : List Handle.Label :=
  [.update (.usb (.needsPin (some 8) 0)), .ui (.event (.clientPinEntered (.ok [49, 50]))),
   .ui .receive, .ui (.replied true), .ui (.event (.clientPinEntered (.ok [51]))), .ui .receive,
   .update (.usb (.needsPin (some 7) 0)), .ui (.event (.clientPinEntered (.ok [52]))),
   .ui .receive, .ui (.replied true)]

theorem values_reach_own_prompt_pins :
    ∃ s, exec Handle.step (Handle.init sampleContext) pinRun = some s ∧
      s.history = [.sent 1 (.pin "4"), .handled .clientPin (some (.pin "4")),
        .passed (.usb (.needsPin (some 7) 1)), .handled .clientPin (some (.pin "3")),
        .sent 0 (.pin "12"), .handled .clientPin (some (.pin "12")),
        .passed (.usb (.needsPin (some 8) 0))] ∧ Faithful s.history :=
  ⟨_, rfl, rfl, values_reach_own_prompt sampleContext pinRun _ rfl⟩

/-! ### The prompt that is answered -/

namespace DeviceStateUpdate

def promptKind (u : DeviceStateUpdate) : Option PromptKind := u.prompt.map Prod.fst

end DeviceStateUpdate

namespace Handle

end Handle

end Credentialsd
