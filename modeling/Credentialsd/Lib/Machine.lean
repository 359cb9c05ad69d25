import Mathlib.Data.List.Perm.Subperm

/-!
# Runs of a deterministic labelled machine

A machine is a function `step : S → L → Option S`: the label resolves every
choice (which task moves, what the environment answers), and `none` means that
the label is not enabled. A run is a list of labels. The rules below carry an
invariant, a condition on every transition and a simulation from one step to
every run.
-/

namespace Machine

variable {S L T M : Type*}

/-- The state after a run, `none` as soon as one label is not enabled. -/
def exec (step : S → L → Option S) : S → List L → Option S
  | s, [] => some s
  | s, l :: ls => (step s l).bind fun t => exec step t ls

@[simp] theorem exec_nil (step : S → L → Option S) (s : S) : exec step s [] = some s := rfl

theorem exec_cons (step : S → L → Option S) (s : S) (l : L) (ls : List L) :
    exec step s (l :: ls) = (step s l).bind fun t => exec step t ls := rfl

theorem exec_cons_some {step : S → L → Option S} {s t : S} {l : L} {ls : List L} :
    exec step s (l :: ls) = some t ↔ ∃ m, step s l = some m ∧ exec step m ls = some t := by
  rw [exec_cons]
  exact Option.bind_eq_some_iff

theorem exec_single {step : S → L → Option S} {s t : S} {l : L} (h : step s l = some t) :
    exec step s [l] = some t :=
  exec_cons_some.mpr ⟨t, h, rfl⟩

theorem exec_append (step : S → L → Option S) (s : S) (ls ms : List L) :
    exec step s (ls ++ ms) = (exec step s ls).bind fun t => exec step t ms := by
  induction ls generalizing s with
  | nil => rfl
  | cons l ls ih =>
    rw [List.cons_append, exec_cons, exec_cons]
    cases step s l with
    | none => rfl
    | some m => exact ih m

theorem exec_append_some {step : S → L → Option S} {s t u : S} {ls ms : List L}
    (h : exec step s ls = some t) (h' : exec step t ms = some u) :
    exec step s (ls ++ ms) = some u := by
  rw [exec_append, h]
  exact h'

/-- A run that goes on from where a part of it has led. -/
theorem exec_split {step : S → L → Option S} {s t u : S} {ls ms : List L} {l : L}
    (h : exec step s ls = some t) (h' : exec step s (ls ++ l :: ms) = some u) :
    ∃ m, step t l = some m ∧ exec step m ms = some u := by
  rw [exec_append, h] at h'
  exact exec_cons_some.mp h'

def Reaches (step : S → L → Option S) (s t : S) : Prop := ∃ ls, exec step s ls = some t

theorem Reaches.refl (step : S → L → Option S) (s : S) : Reaches step s s := ⟨[], rfl⟩

theorem Reaches.trans {step : S → L → Option S} {s t u : S} (h : Reaches step s t)
    (h' : Reaches step t u) : Reaches step s u := by
  obtain ⟨ls, hls⟩ := h
  obtain ⟨ms, hms⟩ := h'
  exact ⟨ls ++ ms, exec_append_some hls hms⟩

theorem Reaches.snoc {step : S → L → Option S} {s t u : S} {l : L} (h : Reaches step s t)
    (hl : step t l = some u) : Reaches step s u :=
  h.trans ⟨[l], exec_single hl⟩

/-! ### Conditions on the transitions of a run -/

/-- Every transition that the run takes from `s` satisfies `C`. -/
def Along (step : S → L → Option S) (C : S → L → S → Prop) : S → List L → Prop
  | _, [] => True
  | s, l :: ls => ∀ t, step s l = some t → C s l t ∧ Along step C t ls

instance decidableAlong (step : S → L → Option S) (C : S → L → S → Prop)
    [∀ s l t, Decidable (C s l t)] : ∀ s ls, Decidable (Along step C s ls)
  | _, [] => isTrue trivial
  | s, l :: ls =>
    match h : step s l with
    | none => isTrue fun t ht => by rw [h] at ht; cases ht
    | some t =>
      have := decidableAlong step C t ls
      decidable_of_iff (C s l t ∧ Along step C t ls)
        ⟨fun hc u hu => by rw [h] at hu; cases hu; exact hc, fun ha => ha t h⟩

theorem along_trivial (step : S → L → Option S) (s : S) (ls : List L) :
    Along step (fun _ _ _ => True) s ls := by
  induction ls generalizing s with
  | nil => trivial
  | cons l ls ih => exact fun t _ => ⟨trivial, ih t⟩

theorem along_cons_of_step {step : S → L → Option S} {C : S → L → S → Prop} {s t : S} {l : L}
    {ls : List L} (h : step s l = some t) (hc : C s l t) (ha : Along step C t ls) :
    Along step C s (l :: ls) := by
  intro u hu
  rw [h] at hu
  cases hu
  exact ⟨hc, ha⟩

theorem along_append {step : S → L → Option S} {C : S → L → S → Prop} {s t : S} {ls ms : List L}
    (ha : Along step C s ls) (h : exec step s ls = some t) (hb : Along step C t ms) :
    Along step C s (ls ++ ms) := by
  induction ls generalizing s with
  | nil =>
    cases h
    exact hb
  | cons l ls ih =>
    obtain ⟨m, hm, hrest⟩ := exec_cons_some.mp h
    exact along_cons_of_step hm (ha m hm).1 (ih (ha m hm).2 hrest)

theorem along_of_forall {step : S → L → Option S} {P : L → Prop} {s : S} {ls : List L}
    (h : ∀ l ∈ ls, P l) : Along step (fun _ l _ => P l) s ls := by
  induction ls generalizing s with
  | nil => trivial
  | cons l ls ih =>
    intro t _
    exact ⟨h l (List.mem_cons_self ..), ih fun k hk => h k (List.mem_cons_of_mem _ hk)⟩

theorem along_and {step : S → L → Option S} {C D : S → L → S → Prop} {s : S} {ls : List L}
    (hC : Along step C s ls) (hD : Along step D s ls) :
    Along step (fun s l t => C s l t ∧ D s l t) s ls := by
  induction ls generalizing s with
  | nil => trivial
  | cons l ls ih =>
    intro t ht
    obtain ⟨hc, hC'⟩ := hC t ht
    obtain ⟨hd, hD'⟩ := hD t ht
    exact ⟨⟨hc, hd⟩, ih hC' hD'⟩

/-- Step rule: an invariant that every transition of the run preserves holds at its end. -/
theorem exec_invariant {step : S → L → Option S} {C : S → L → S → Prop} {I : S → Prop}
    (hstep : ∀ s l t, I s → C s l t → step s l = some t → I t)
    {s t : S} {ls : List L} (hs : I s) (ha : Along step C s ls) (h : exec step s ls = some t) :
    I t := by
  induction ls generalizing s with
  | nil =>
    cases h
    exact hs
  | cons l ls ih =>
    obtain ⟨m, hm, hrest⟩ := exec_cons_some.mp h
    obtain ⟨hc, ha'⟩ := ha m hm
    exact ih (hstep s l m hs hc hm) ha' hrest

theorem reaches_invariant {step : S → L → Option S} {I : S → Prop}
    (hstep : ∀ s l t, I s → step s l = some t → I t)
    {s t : S} (hs : I s) (h : Reaches step s t) : I t := by
  obtain ⟨ls, hls⟩ := h
  exact exec_invariant (fun s l t hi _ hl => hstep s l t hi hl) hs (along_trivial step s ls) hls

/-- A run that ends in `t` followed by a transition from `t`: the condition holds of that too. -/
theorem along_snoc {step : S → L → Option S} {C : S → L → S → Prop} {s t u : S} {ls : List L}
    {l : L} (ha : Along step C s (ls ++ [l])) (h : exec step s ls = some t)
    (hl : step t l = some u) : C t l u := by
  induction ls generalizing s with
  | nil =>
    cases h
    exact (ha u hl).1
  | cons k ls ih =>
    obtain ⟨m, hm, hrest⟩ := exec_cons_some.mp h
    exact ih (ha m hm).2 hrest

/-- A condition that follows at every transition from the invariant and from `C`
holds along the run whenever `C` does. -/
theorem along_mono {step : S → L → Option S} {C D : S → L → S → Prop} {I : S → Prop}
    (hstep : ∀ s l t, I s → C s l t → step s l = some t → I t ∧ D s l t)
    {s : S} {ls : List L} (hs : I s) (ha : Along step C s ls) : Along step D s ls := by
  induction ls generalizing s with
  | nil => trivial
  | cons l ls ih =>
    intro t ht
    obtain ⟨hc, ha'⟩ := ha t ht
    obtain ⟨hi, hd⟩ := hstep s l t hs hc ht
    exact ⟨hd, ih hi ha'⟩

/-- What holds at every transition that does not come to `Q`, which a run does not leave, holds
along a run that ends outside of `Q`. -/
theorem along_of_end {step : S → L → Option S} {C D : S → L → S → Prop} {I Q : S → Prop}
    (hstep : ∀ s l t, I s → C s l t → step s l = some t →
      I t ∧ (Q s → Q t) ∧ (¬ Q t → D s l t))
    {s t : S} {ls : List L} (hs : I s) (ha : Along step C s ls) (h : exec step s ls = some t)
    (hend : ¬ Q t) : Along step D s ls := by
  have hstays : ∀ {s ls}, I s → Along step C s ls → exec step s ls = some t → ¬ Q s := by
    intro s ls
    induction ls generalizing s with
    | nil =>
      intro _ _ h
      cases h
      exact hend
    | cons l ls ih =>
      intro hs ha h hq
      obtain ⟨m, hm, hrest⟩ := exec_cons_some.mp h
      obtain ⟨hc, ha'⟩ := ha m hm
      obtain ⟨hi, hkept, -⟩ := hstep s l m hs hc hm
      exact ih hi ha' hrest (hkept hq)
  induction ls generalizing s with
  | nil => trivial
  | cons l ls ih =>
    obtain ⟨m, hm, hrest⟩ := exec_cons_some.mp h
    obtain ⟨hc, ha'⟩ := ha m hm
    obtain ⟨hi, -, hd⟩ := hstep s l m hs hc hm
    exact along_cons_of_step hm (hd (hstays hi ha' hrest)) (ih hi ha' hrest)

/-- Step rule with the history: what a run has established of its labels and the state that they
lead to, each further transition establishes again. -/
theorem exec_history {step : S → L → Option S} {C : S → L → S → Prop} {I : List L → S → Prop}
    {s t : S} {ls : List L} (hnil : I [] s)
    (hstep : ∀ ms m l u, exec step s ms = some m → I ms m → C m l u → step m l = some u →
      I (ms ++ [l]) u)
    (ha : Along step C s ls) (h : exec step s ls = some t) : I ls t := by
  have hrest : ∀ (rest ms : List L) (m : S), exec step s ms = some m → I ms m →
      Along step C m rest → exec step m rest = some t → I (ms ++ rest) t := by
    intro rest
    induction rest with
    | nil =>
      intro ms m _ hi _ h
      cases h
      rw [List.append_nil]
      exact hi
    | cons l rest ih =>
      intro ms m hms hi ha h
      obtain ⟨u, hu, h⟩ := exec_cons_some.mp h
      obtain ⟨hc, ha⟩ := ha u hu
      have hnext := ih (ms ++ [l]) u (exec_append_some hms (exec_single hu))
        (hstep ms m l u hms hi hc hu) ha h
      rw [List.append_assoc] at hnext
      exact hnext
  exact hrest ls [] s rfl hnil ha h

/-- Some transition that the run takes from `s` satisfies `C`. -/
def Sometime (step : S → L → Option S) (C : S → L → S → Prop) (s : S) (ls : List L) : Prop :=
  ∃ ms l ns m t, ls = ms ++ l :: ns ∧ exec step s ms = some m ∧ step m l = some t ∧ C m l t

/-- What a transition of the run satisfies, the run satisfies sometime. -/
theorem along_sometime (step : S → L → Option S) (s : S) (ls : List L) :
    Along step (fun m l t => ∀ C : S → L → S → Prop, C m l t → Sometime step C s ls) s ls := by
  have hrest : ∀ (rest ms : List L) (m : S), ls = ms ++ rest → exec step s ms = some m →
      Along step (fun m l t => ∀ C : S → L → S → Prop, C m l t → Sometime step C s ls) m rest := by
    intro rest
    induction rest with
    | nil => exact fun _ _ _ _ => trivial
    | cons l rest ih =>
      intro ms m hls hms t ht
      refine ⟨fun C hc => ⟨ms, l, rest, m, t, hls, hms, ht, hc⟩, ih (ms ++ [l]) t ?_ ?_⟩
      · rw [hls, List.append_assoc]
        rfl
      · exact exec_append_some hms (exec_single ht)
  exact hrest ls [] s rfl rfl

/-! ### What comes in during a run -/

variable {A : Type*}

/-- What the transitions of a run bring in, one after the other. -/
def inputs (step : S → L → Option S) (f : S → L → List A) : S → List L → List A
  | _, [] => []
  | s, l :: ls => f s l ++ ((step s l).map fun t => inputs step f t ls).getD []

theorem inputs_cons {step : S → L → Option S} {f : S → L → List A} {s t : S} {l : L} {ls : List L}
    (h : step s l = some t) : inputs step f s (l :: ls) = f s l ++ inputs step f t ls := by
  rw [inputs, h]
  rfl

/-- If no transition holds more of a value than there was and it brings in, then what is held at the
end was held at the beginning or has come in on the way, each as often. -/
theorem held_subperm [BEq A] [LawfulBEq A] {step : S → L → Option S} {f : S → L → List A}
    {held : S → List A}
    (hstep : ∀ s l t a, step s l = some t → (held t).count a ≤ (held s).count a + (f s l).count a)
    {s t : S} {ls : List L} (h : exec step s ls = some t) :
    (held t).Subperm (held s ++ inputs step f s ls) := by
  refine List.subperm_ext_iff.mpr fun a _ => ?_
  rw [List.count_append]
  induction ls generalizing s with
  | nil =>
    cases h
    exact Nat.le_refl _
  | cons l ls ih =>
    obtain ⟨m, hm, hrest⟩ := exec_cons_some.mp h
    have hfirst := hstep s l m a hm
    have hothers := ih hrest
    rw [inputs_cons hm, List.count_append]
    omega

/-! ### Coming to rest -/

/-- A run whose transitions lower a rank is not longer than the rank it starts from. -/
theorem length_le_of_lowers {step : S → L → Option S} {C : S → L → S → Prop} {rank : S → ℕ}
    (hlower : ∀ s l t, C s l t → step s l = some t → rank t < rank s)
    {s t : S} {ls : List L} (ha : Along step C s ls) (h : exec step s ls = some t) :
    ls.length + rank t ≤ rank s := by
  induction ls generalizing s with
  | nil =>
    cases h
    exact Nat.le_of_eq (Nat.zero_add _)
  | cons l ls ih =>
    obtain ⟨m, hm, hrest⟩ := exec_cons_some.mp h
    obtain ⟨hc, ha'⟩ := ha m hm
    have hfirst := hlower s l m hc hm
    have hothers := ih ha' hrest
    rw [List.length_cons]
    omega

/-- It can be continued to where no transition of that kind is left. -/
theorem exists_rest {step : S → L → Option S} {C : S → L → S → Prop} {rank : S → ℕ}
    (hlower : ∀ s l t, C s l t → step s l = some t → rank t < rank s) (s : S) :
    ∃ ls t, exec step s ls = some t ∧ Along step C s ls ∧ ∀ l u, C t l u → step t l ≠ some u := by
  induction hn : rank s using Nat.strongRecOn generalizing s with
  | _ n ih =>
    by_cases hrest : ∀ l u, C s l u → step s l ≠ some u
    · exact ⟨[], s, rfl, trivial, hrest⟩
    · push Not at hrest
      obtain ⟨l, m, hc, hl⟩ := hrest
      obtain ⟨ls, t, hls, ha, ht⟩ := ih (rank m) (hn ▸ hlower s l m hc hl) m rfl
      exact ⟨l :: ls, t, exec_cons_some.mpr ⟨m, hl, hls⟩, along_cons_of_step hl hc ha, ht⟩

/-! ### Simulation -/

/-- Every transition of the first machine, from a state satisfying `I`, is the run `g s l` of the
second one under the state map `f`; an empty run is a stutter. -/
def Simulates (step : S → L → Option S) (step' : T → M → Option T) (I : S → Prop)
    (f : S → T) (g : S → L → List M) : Prop :=
  ∀ s l t, I s → step s l = some t → exec step' (f s) (g s l) = some (f t)

theorem Simulates.reaches {step : S → L → Option S} {step' : T → M → Option T} {I : S → Prop}
    {f : S → T} {g : S → L → List M} (hsim : Simulates step step' I f g)
    (hstep : ∀ s l t, I s → step s l = some t → I t)
    {s t : S} (hs : I s) (h : Reaches step s t) : Reaches step' (f s) (f t) := by
  obtain ⟨ls, hls⟩ := h
  induction ls generalizing s with
  | nil =>
    cases hls
    exact Reaches.refl step' _
  | cons l ls ih =>
    obtain ⟨m, hm, hrest⟩ := exec_cons_some.mp hls
    obtain ⟨ms, hms⟩ := ih (hstep s l m hs hm) hrest
    exact ⟨g s l ++ ms, exec_append_some (hsim s l m hs hm) hms⟩

end Machine
