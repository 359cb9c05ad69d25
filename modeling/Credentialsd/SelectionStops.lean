import Credentialsd.HandlersLive

/-!
# Which devices are told to stop blinking (`usb.rs:81-174, 284-342`)

The selection of a device can end by itself, and the loop around it can drop its
future. Whoever blinks when it has ended must have been told to stop.
-/

namespace Credentialsd

namespace Selection

variable {D : Type}

/-- The task of the device is in `blink_and_wait_for_user_presence`. -/
def blinking (s : Selection D) (idx : Nat) : Bool :=
  match s.tasks[idx]? with
  | some t => t.stage == .blinking
  | none => false

/-- The function leaves a blinking device to itself if its future is dropped here. -/
def abandons (s : Selection D) : Bool :=
  match s.loop with
  | .collecting => (List.range s.tasks.length).any s.blinking
  | .stopping rest _ => rest.any fun idx => s.blinking idx && !s.stopped.contains idx
  | _ => false

/-- Every device that blinks after the end has been told to stop. -/
def AllStopped (s : Selection D) : Prop :=
  s.loop = .gone → ∀ idx, s.blinking idx = true → idx ∈ s.stopped

theorem blinking_iff {s : Selection D} {idx : Nat} :
    s.blinking idx = true ↔ ∃ t, s.tasks[idx]? = some t ∧ t.stage = .blinking := by
  unfold blinking
  cases s.tasks[idx]? with
  | none => simp
  | some t => simp

theorem blinking_lt {s : Selection D} {idx : Nat} (h : s.blinking idx = true) :
    idx < s.tasks.length := by
  obtain ⟨t, ht, -⟩ := blinking_iff.mp h
  exact (List.getElem?_eq_some_iff.mp ht).1

theorem blinking_setStage {s : Selection D} {idx : Nat} {t : DeviceTask D} {stage : Stage}
    (hne : stage ≠ .blinking) {j : Nat} (h : (s.setStage idx t stage).blinking j = true) :
    j ≠ idx ∧ s.blinking j = true := by
  obtain ⟨u, hu, hst⟩ := blinking_iff.mp h
  simp only [setStage, List.getElem?_set] at hu
  split at hu
  · split at hu
    · cases hu
      exact absurd hst hne
    · cases hu
  · rename_i hother
    exact ⟨fun he => hother he.symm, blinking_iff.mpr ⟨u, hu, hst⟩⟩

/-! ### What the function keeps while it runs -/

/-- Beyond `Inv`: who has answered is done, handles are collected before any device is stopped, and
from then on every device that blinks is stopped or about to be. -/
structure Stops (s : Selection D) : Prop where
  own : ∀ idx (t : DeviceTask D) j b, s.tasks[idx]? = some t → t.stage = .notifying (some j) b →
    j = idx
  answered : ∀ j (t : DeviceTask D), some j ∈ s.blinks → s.tasks[j]? = some t →
    t.stage.running = false
  unstopped : s.loop = .collecting ∨ s.loop = .waiting → s.stopped = []
  collected : ∀ rest outcome, s.loop = .stopping rest outcome →
    ∀ t ∈ s.tasks, t.stage.holdsSetup = false
  left : ∀ rest outcome, s.loop = .stopping rest outcome →
    ∀ idx, s.blinking idx = true → idx ∈ rest ∨ idx ∈ s.stopped
  allStopped : s.AllStopped

theorem running_of_blinking {s : Selection D} {idx : Nat} (h : s.blinking idx = true) :
    ∃ t, s.tasks[idx]? = some t ∧ t.stage.running = true := by
  obtain ⟨t, ht, hst⟩ := blinking_iff.mp h
  exact ⟨t, ht, by rw [hst]; rfl⟩

theorem mem_setStage {s : Selection D} {idx j : Nat} {t u : DeviceTask D} {stage : Stage}
    (h : (s.setStage idx t stage).tasks[j]? = some u) :
    j = idx ∧ u.stage = stage ∨ j ≠ idx ∧ s.tasks[j]? = some u := by
  simp only [setStage, List.getElem?_set] at h
  split at h
  · rename_i he
    split at h
    · cases h
      exact Or.inl ⟨he.symm, rfl⟩
    · cases h
  · rename_i hother
    exact Or.inr ⟨fun he => hother he.symm, h⟩

/-- A task goes on to a stage in which it does not blink. -/
theorem Stops.setStage {s : Selection D} (hs : s.Stops) {idx : Nat} {t : DeviceTask D}
    {stage : Stage} (ht : s.tasks[idx]? = some t) (hrun : t.stage.running = true)
    (hne : stage ≠ .blinking) (hholds : stage.holdsSetup = true → t.stage.holdsSetup = true)
    (hown : ∀ j b, stage = .notifying (some j) b → j = idx) : (s.setStage idx t stage).Stops where
  own j u k b hu hst := by
    rcases mem_setStage hu with ⟨rfl, hstage⟩ | ⟨-, hold⟩
    · exact hown k b (hstage ▸ hst)
    · exact hs.own j u k b hold hst
  answered j u hj hu := by
    rcases mem_setStage hu with ⟨rfl, -⟩ | ⟨-, hold⟩
    · have hdone := hs.answered j t hj ht
      rw [hrun] at hdone
      cases hdone
    · exact hs.answered j u hj hold
  unstopped := hs.unstopped
  collected rest outcome hloop u hu := by
    have hold := hs.collected rest outcome hloop
    rcases List.mem_or_eq_of_mem_set hu with hu | rfl
    · exact hold u hu
    · refine Bool.eq_false_iff.mpr fun hyes => ?_
      have hno := hold t (List.mem_of_getElem? ht)
      rw [hholds hyes] at hno
      cases hno
  left rest outcome hloop j hj := hs.left rest outcome hloop j (blinking_setStage hne hj).2
  allStopped hloop j hj := hs.allStopped hloop j (blinking_setStage hne hj).2

theorem openChannel_stops {s s' : Selection D} {idx : Nat} {t : DeviceTask D} {ok : Bool}
    (hs : s.Stops) (ht : s.tasks[idx]? = some t) (h : s.openChannel idx t ok = some s') :
    s'.Stops := by
  unfold openChannel at h
  split at h
  · rename_i hst
    cases h
    refine hs.setStage ht (by rw [hst]; rfl) ?_ (fun _ => by rw [hst]; rfl) ?_
    · cases ok <;> exact nofun
    · cases ok <;> exact nofun
  · cases h

theorem register_stops {s s' : Selection D} {idx : Nat} {t : DeviceTask D} (hi : s.Inv)
    (hs : s.Stops) (ht : s.tasks[idx]? = some t) (h : s.register idx t = some s') : s'.Stops := by
  unfold register at h
  split at h
  · rename_i hst
    split at h
    · rename_i hreceives
      split at h
      · cases h
        -- somebody can still register, so the handles are being collected
        have hcollecting : s.loop = .collecting := by
          have hmem := List.mem_of_getElem? ht
          have hholds : t.stage.holdsSetup = true := by rw [hst]; rfl
          cases hloop : s.loop with
          | collecting => rfl
          | waiting =>
            have hno := (hi.collected hloop).2 t hmem
            rw [hholds] at hno
            cases hno
          | stopping rest outcome =>
            have hno := hs.collected rest outcome hloop t hmem
            rw [hholds] at hno
            cases hno
          | panicked => exact absurd hloop hi.noPanic
          | gone =>
            rw [hloop] at hreceives
            cases hreceives
        refine ⟨fun j u k b hu hk => ?_, fun j u hj hu => ?_, hs.unstopped, ?_, ?_, ?_⟩
        · rcases mem_setStage hu with ⟨rfl, hstage⟩ | ⟨-, hold⟩
          · rw [hstage] at hk
            cases hk
          · exact hs.own j u k b hold hk
        · rcases mem_setStage hu with ⟨rfl, -⟩ | ⟨-, hold⟩
          · have hdone := hs.answered j t hj ht
            rw [hst] at hdone
            cases hdone
          · exact hs.answered j u hj hold
        · intro rest outcome hloop
          rw [show s.loop = .stopping rest outcome from hloop] at hcollecting
          cases hcollecting
        · intro rest outcome hloop
          rw [show s.loop = .stopping rest outcome from hloop] at hcollecting
          cases hcollecting
        · intro hloop
          rw [show s.loop = .gone from hloop] at hcollecting
          cases hcollecting
      · cases h
    · cases h
      exact hs.setStage ht (by rw [hst]; rfl) nofun nofun nofun
  · cases h

theorem blink_stops {s s' : Selection D} {idx : Nat} {t : DeviceTask D} {r : Except String Bool}
    (hs : s.Stops) (ht : s.tasks[idx]? = some t) (h : s.blink idx t r = some s') : s'.Stops := by
  unfold blink at h
  split at h
  · rename_i hst
    cases h
    refine hs.setStage ht (by rw [hst]; rfl) nofun nofun fun j b hj => ?_
    injection hj with hres _
    exact blinkResult_some hres
  · cases h

theorem notify_stops {s s' : Selection D} {idx : Nat} {t : DeviceTask D} (hs : s.Stops)
    (ht : s.tasks[idx]? = some t) (h : s.notify idx t = some s') : s'.Stops := by
  unfold notify at h
  split at h
  · rename_i res b hst
    have hended : (s.setStage idx t .ended).Stops :=
      hs.setStage ht (by rw [hst]; rfl) nofun nofun nofun
    split at h
    · split at h
      · cases h
        refine { hended with answered := fun j u hj hu => ?_ }
        rcases List.mem_append.mp hj with hold | hnew
        · exact hended.answered j u hold hu
        · have hres := List.mem_singleton.mp hnew
          have hj := hs.own idx t j b ht (by rw [hst, ← hres])
          rcases mem_setStage hu with ⟨-, hstage⟩ | ⟨hother, -⟩
          · rw [hstage]
            rfl
          · exact absurd hj hother
      · cases h
    · cases h
      exact hended
  · cases h

theorem collect_stops {s s' : Selection D} (hs : s.Stops) (h : s.collect = some s') :
    s'.Stops := by
  unfold collect at h
  split at h
  · rename_i hloop
    split at h
    · cases h
      exact { hs with }
    · split at h
      · cases h
      · cases h
        exact ⟨hs.own, hs.answered, fun _ => hs.unstopped (Or.inl hloop), nofun, nofun, nofun⟩
  · cases h

/-- While the function waits, every device that blinks is in its map. -/
theorem Inv.mem_channelMap {s : Selection D} (hi : s.Inv) (hloop : s.loop = .waiting) {idx : Nat}
    (h : s.blinking idx = true) : idx ∈ s.channelMap.map Prod.fst := by
  rcases hi.registered idx (Or.inl (blinking_iff.mp h)) with ⟨d, hd⟩ | ⟨d, hd⟩
  · rw [(hi.collected hloop).1] at hd
    cases hd
  · exact List.mem_map.mpr ⟨_, hd, rfl⟩

theorem receive_stops {s s' : Selection D} (hi : s.Inv) (hs : s.Stops) (h : s.receive = some s') :
    s'.Stops := by
  unfold receive at h
  split at h
  · rename_i hloop
    have hfewer : ∀ {x : Option Nat} {rest : List (Option Nat)}, s.blinks = x :: rest →
        ∀ j (t : DeviceTask D), some j ∈ rest → s.tasks[j]? = some t →
          t.stage.running = false := by
      intro x rest hb j t hj
      exact hs.answered j t (by rw [hb]; exact List.mem_cons_of_mem _ hj)
    split at h
    · rename_i idx rest hb
      split at h
      · cases h
        refine ⟨hs.own, hfewer hb, fun hno => (by rcases hno with hno | hno <;> cases hno),
          fun _ _ _ => (hi.collected hloop).2, fun others outcome hstop j hj => ?_, nofun⟩
        injection hstop with hothers
        left
        rw [← hothers]
        refine List.mem_filter.mpr ⟨hi.mem_channelMap hloop hj, ?_⟩
        -- the device that was touched does not blink any more
        simp only [bne_iff_ne, ne_eq]
        rintro rfl
        obtain ⟨t, ht, hrun⟩ := running_of_blinking hj
        have hdone := hs.answered j t (by rw [hb]; exact List.mem_cons_self ..) ht
        rw [hrun] at hdone
        cases hdone
      · cases h
        exact ⟨hs.own, hfewer hb, fun hno => (by rcases hno with hno | hno <;> cases hno),
          nofun, nofun, nofun⟩
    · rename_i rest hb
      cases h
      exact { hs with answered := hfewer hb }
    · rename_i hb
      split at h
      · cases h
      · rename_i hany
        cases h
        refine ⟨hs.own, hs.answered, fun hno => (by rcases hno with hno | hno <;> cases hno),
          fun _ _ _ => (hi.collected hloop).2, fun _ _ _ j hj => ?_, nofun⟩
        obtain ⟨t, ht, hrun⟩ := running_of_blinking hj
        exact absurd (List.any_eq_true.mpr ⟨t, List.mem_of_getElem? ht, hrun⟩) hany
  · cases h

theorem stop_stops {s s' : Selection D} {idx : Nat} (hs : s.Stops) (h : s.stop idx = some s') :
    s'.Stops := by
  unfold stop at h
  split at h
  · rename_i rest outcome hloop
    split at h
    · cases h
      refine ⟨hs.own, hs.answered, fun hno => (by rcases hno with hno | hno <;> cases hno),
        fun _ _ _ => hs.collected rest outcome hloop, fun rest' _ hstop j hj => ?_, nofun⟩
      injection hstop with hrest
      by_cases he : j = idx
      · exact Or.inr (by rw [he]; exact List.mem_cons_self ..)
      · refine (hs.left rest outcome hloop j hj).imp (fun hmem => ?_) (List.mem_cons_of_mem _)
        rw [← hrest]
        exact (List.mem_erase_of_ne he).mpr hmem
    · cases h
  · cases h

theorem cancel_stops {s s' : Selection D} (hi : s.Inv) (hs : s.Stops) (h : s.cancel = some s') :
    s'.Stops := by
  unfold cancel at h
  split at h
  · rename_i hloop
    cases h
    refine ⟨hs.own, hs.answered, fun hno => (by rcases hno with hno | hno <;> cases hno),
      fun _ _ _ => (hi.collected hloop).2, fun rest _ hstop j hj => ?_, nofun⟩
    injection hstop with hrest
    rw [← hrest]
    exact Or.inl (hi.mem_channelMap hloop hj)
  · cases h

theorem step_stops {s s' : Selection D} {l : Label} (hi : s.Inv) (hs : s.Stops)
    (h : s.step l = some s') : s'.Stops := by
  cases l with
  | opened idx ok =>
    obtain ⟨t, ht, h⟩ := Option.bind_eq_some_iff.mp h
    exact openChannel_stops hs ht h
  | register idx =>
    obtain ⟨t, ht, h⟩ := Option.bind_eq_some_iff.mp h
    exact register_stops hi hs ht h
  | blinked idx wasSelected =>
    obtain ⟨t, ht, h⟩ := Option.bind_eq_some_iff.mp h
    exact blink_stops hs ht h
  | notify idx =>
    obtain ⟨t, ht, h⟩ := Option.bind_eq_some_iff.mp h
    exact notify_stops hs ht h
  | collect => exact collect_stops hs h
  | receive => exact receive_stops hi hs h
  | stop idx => exact stop_stops hs h
  | cancel => exact cancel_stops hi hs h

theorem start_stops (devices : List D) : (start devices).Stops := by
  refine ⟨fun idx t j b ht hst => ?_, fun j t hj => (by cases hj), fun _ => rfl, nofun, nofun,
    nofun⟩
  obtain ⟨d, -, rfl⟩ := List.mem_map.mp (List.mem_of_getElem? ht)
  cases hst

theorem notStarted_stops : (notStarted : Selection D).Stops := by
  refine ⟨fun idx t j b ht => (by cases ht), fun j t hj => (by cases hj),
    fun h => (by rcases h with h | h <;> cases h), nofun, nofun, fun _ idx h => ?_⟩
  obtain ⟨t, ht, -⟩ := blinking_iff.mp h
  cases ht

theorem leave_stops {s : Selection D} (hs : s.Stops)
    (hall : ∀ idx, s.blinking idx = true → idx ∈ s.stopped) : s.leave.Stops :=
  ⟨hs.own, hs.answered, fun h => (by rcases h with h | h <;> cases h), nofun, nofun,
    fun _ idx hidx => hall idx hidx⟩

/-! ### The end of a selection -/

theorem result_stopped {s : Selection D} {outcome : Outcome D} (hs : s.Stops)
    (h : s.result = some outcome) (idx : Nat) (hidx : s.blinking idx = true) : idx ∈ s.stopped := by
  unfold result at h
  split at h
  · rename_i hloop
    exact (hs.left _ _ hloop idx hidx).resolve_left nofun
  · cases h

/-- Where the future can be dropped, dropping it leaves a blinking device alone iff there is one
that the function has not come to. -/
theorem abandons_iff {s : Selection D} (hs : s.Stops) (hsuspended : s.suspended = true) :
    s.abandons = false ↔ ∀ idx, s.blinking idx = true → idx ∈ s.stopped := by
  unfold suspended at hsuspended
  split at hsuspended
  · rename_i hloop
    simp only [abandons, hloop, hs.unstopped (Or.inl hloop), List.any_eq_false, List.mem_range,
      List.not_mem_nil]
    exact ⟨fun h idx hidx => h idx (blinking_lt hidx) hidx, fun h idx _ hidx => h idx hidx⟩
  · rename_i rest outcome hloop
    simp only [abandons, hloop, List.any_eq_false, Bool.and_eq_true, Bool.not_eq_true',
      List.contains_eq_mem, decide_eq_false_iff_not, not_and, not_not]
    refine ⟨fun h idx hidx => ?_, fun h idx _ hidx => h idx hidx⟩
    exact (hs.left rest outcome hloop idx hidx).elim (fun hr => h idx hr hidx) id
  · cases hsuspended

end Selection

/-! ### The loop around the selection -/

namespace Process

variable {S M D F : Type} (h : Handler S M D F) (c : Ceremony)

structure Selects (s : Process S M D) : Prop where
  inv : s.selection.Inv
  stops : s.selection.Stops
  gone : s.pending.selects = false → s.selection.loop = .gone

theorem again_selects {s : Process S M D} (hi : s.selection.Inv) (hs : s.selection.Stops)
    (hgone : s.selection.loop = .gone) : Selects (again h s) := by
  unfold again
  split
  · exact ⟨hi, hs, fun _ => hgone⟩
  · exact ⟨hi, hs, fun _ => hgone⟩
  · exact ⟨hi, hs, fun _ => hgone⟩
  · exact ⟨hi, hs, fun _ => hgone⟩
  · exact ⟨Selection.inv_start _, Selection.start_stops _, fun hno => by cases hno⟩
  · exact ⟨hi, hs, fun _ => hgone⟩
  · exact ⟨hi, hs, fun _ => hgone⟩
  · exact ⟨hi, hs, fun _ => hgone⟩

theorem enter_selects {s : Process S M D} (st : S) (hi : s.selection.Inv)
    (hs : s.selection.Stops) (hgone : s.selection.loop = .gone) : Selects (enter h s st) := by
  unfold enter
  split
  · exact ⟨hi, hs, fun _ => hgone⟩
  · exact again_selects h hi hs hgone

theorem settle_selects {s : Process S M D} (next : Except CredentialServiceError S)
    (hi : s.selection.Inv) (hs : s.selection.Stops) (hgone : s.selection.loop = .gone) :
    Selects (settle h s next) := by
  unfold settle
  split
  · exact ⟨hi, hs, fun _ => hgone⟩
  · exact enter_selects h _ hi hs hgone
  · exact enter_selects h _ hi hs hgone

theorem select_selects {s t : Process S M D} {l : Selection.Label} (hs : Selects s)
    (hstep : select s l = some t) : Selects t := by
  obtain ⟨sel, -, hsel, hinv, rfl⟩ := select_goes hs.inv hstep
  exact ⟨hinv, Selection.step_stops hs.inv hs.stops hsel,
    fun hno => Selection.step_gone (hs.gone hno) hsel⟩

/-- The loop drops the selection with a blinking device left to itself. -/
def abandons (s : Process S M D) (l : Label F) : Bool :=
  match l with
  | .cancelLoop => s.pending.selects && s.selection.abandons
  | _ => false

theorem cancelLoop_selects {s t : Process S M D} (hs : Selects s)
    (hstep : cancelLoop s = some t) (hkeeps : s.pending.selects = true →
      s.selection.abandons = false) : Selects t := by
  unfold cancelLoop at hstep
  split at hstep
  · rename_i hcancel
    cases hstep
    refine ⟨Selection.leave_inv hs.inv, Selection.leave_stops hs.stops ?_, fun _ => rfl⟩
    cases hp : s.pending.selects with
    | false => exact hs.stops.allStopped (hs.gone hp)
    | true =>
      simp only [hp, Bool.not_true, Bool.false_or, Bool.and_eq_true] at hcancel
      exact (Selection.abandons_iff hs.stops hcancel.2).mp (hkeeps hp)
  · cases hstep

theorem step_selects {s t : Process S M D} {l : Label F} (hs : Selects s)
    (hstep : step h c s l = some t) (hkeeps : s.abandons l = false) : Selects t := by
  cases hloop : l.isLoop with
  | false =>
    obtain ⟨-, hpending, hselection, -, -⟩ := step_same h c hloop hstep
    exact ⟨by rw [hselection]; exact hs.inv, by rw [hselection]; exact hs.stops,
      by rw [hpending, hselection]; exact hs.gone⟩
  | true =>
    cases loop_moves h c hloop hstep with
    | sleeps hp => exact ⟨hs.inv, hs.stops, fun _ => hs.gone (by rw [hp]; rfl)⟩
    | listed hp => exact settle_selects h _ hs.inv hs.stops (hs.gone (by rw [hp]; rfl))
    | slept hp => exact settle_selects h _ hs.inv hs.stops (hs.gone (by rw [hp]; rfl))
    | select hselect => exact select_selects hs hselect
    | selected hp hresult =>
      exact settle_selects h _ (Selection.leave_inv hs.inv)
        (Selection.leave_stops hs.stops (Selection.result_stopped hs.stops hresult)) rfl
    | interact hp hsignals => exact settle_selects h _ hs.inv hs.stops (hs.gone (by rw [hp]; rfl))
    | choose hp hcreds => exact settle_selects h _ hs.inv hs.stops (hs.gone (by rw [hp]; rfl))
    | emitted hp hconsumer => exact again_selects h hs.inv hs.stops (hs.gone (by rw [hp]; rfl))
    | closed hp hconsumer => exact ⟨hs.inv, hs.stops, fun _ => hs.gone (by rw [hp]; rfl)⟩
    | cancelled hcancel =>
      refine cancelLoop_selects hs hcancel fun hp => ?_
      simpa [abandons, hp] using hkeeps

theorem init_selects : Selects (init h : Process S M D) :=
  ⟨Selection.notStarted_inv, Selection.notStarted_stops, fun _ => rfl⟩

/-- A selection that is abandoned leaves a device blinking. -/
theorem abandons_leaves {s t : Process S M D} {l : Label F} (hs : Selects s)
    (hstep : step h c s l = some t) (habandons : s.abandons l = true) :
    ¬ t.selection.AllStopped := by
  cases l with
  | cancelLoop =>
    simp only [abandons, Bool.and_eq_true] at habandons
    obtain ⟨hp, habandons⟩ := habandons
    simp only [step, cancelLoop] at hstep
    split at hstep
    · rename_i hcancel
      cases hstep
      simp only [hp, Bool.not_true, Bool.false_or, Bool.and_eq_true] at hcancel
      intro hall
      have hfalse := (Selection.abandons_iff hs.stops hcancel.2).mpr (hall rfl)
      rw [habandons] at hfalse
      cases hfalse
    · cases hstep
  | _ => cases habandons

theorem allStopped_iff (ls : List (Label F)) {s : Process S M D} (hs : Selects s) :
    Machine.Along (step h c) (fun _ _ t => t.selection.AllStopped) s ls ↔
      Machine.Along (step h c) (fun s l _ => s.abandons l = false) s ls := by
  induction ls generalizing s with
  | nil => exact Iff.rfl
  | cons l ls ih =>
    constructor
    · intro hall t ht
      obtain ⟨hstopped, hrest⟩ := hall t ht
      have hkeeps : s.abandons l = false :=
        Bool.eq_false_iff.mpr fun hyes => abandons_leaves h c hs ht hyes hstopped
      exact ⟨hkeeps, (ih (step_selects h c hs ht hkeeps)).mp hrest⟩
    · intro hkeeps t ht
      obtain ⟨hkeep, hrest⟩ := hkeeps t ht
      have hs' := step_selects h c hs ht hkeep
      exact ⟨hs'.stops.allStopped, (ih hs').mpr hrest⟩

end Process

namespace Usb

/-- Over a run of the USB handler, whoever still blinks when a selection has ended has been told to
stop, iff the loop never drops a selection that is collecting handles while a device blinks, or that
is stopping one device with another one left that blinks. -/
theorem blinking_devices_stopped_iff (credHash : Bytes → String) (c : Ceremony)
    (ls : List (Process.Label (List HidDevice))) :
    Machine.Along (Process.step (handler credHash) c) (fun _ _ t => t.selection.AllStopped)
        (Process.init (handler credHash)) ls ↔
      Machine.Along (Process.step (handler credHash) c) (fun s l _ => s.abandons l = false)
        (Process.init (handler credHash)) ls :=
  Process.allStopped_iff (handler credHash) c ls (Process.init_selects _)

/- The request is cancelled while one device blinks and the other one is still being opened. -/
def cancelledCollecting : List (Process.Label (List HidDevice)) :=
  [.listed (.ok [⟨"/dev/hidraw0"⟩, ⟨"/dev/hidraw1"⟩]), .emit, .select (.opened 0 true),
    .select (.register 0), .select .collect, .cancel, .cancelLoop]

/- It is cancelled while both blink; the call that stops the first one has not come back. -/
def cancelledStopping : List (Process.Label (List HidDevice)) :=
  [.listed (.ok [⟨"/dev/hidraw0"⟩, ⟨"/dev/hidraw1"⟩]), .emit, .select (.opened 0 true),
    .select (.register 0), .select (.opened 1 true), .select (.register 1), .select .collect,
    .select .collect, .select .collect, .cancel, .select .cancel, .select (.stop 0), .cancelLoop]

theorem blinking_devices_abandoned :
    (∃ t, Machine.exec (Process.step (handler fun _ => "") sampleCeremony)
        (Process.init (handler fun _ => "")) cancelledCollecting = some t ∧
      t.selection.blinking 0 = true ∧ ¬ t.selection.AllStopped) ∧
    ∃ t, Machine.exec (Process.step (handler fun _ => "") sampleCeremony)
        (Process.init (handler fun _ => "")) cancelledStopping = some t ∧
      t.selection.blinking 1 = true ∧ ¬ t.selection.AllStopped := by
  refine ⟨⟨_, rfl, rfl, fun h => ?_⟩, ⟨_, rfl, rfl, fun h => ?_⟩⟩
  · have hmem := h rfl 0 rfl
    cases hmem
  · have hmem := h rfl 1 rfl
    rcases List.mem_cons.mp hmem with he | hno
    · cases he
    · cases hno

end Usb

end Credentialsd
