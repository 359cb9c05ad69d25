import Mathlib.Data.List.Infix
import Mathlib.Tactic.Tauto

/-!
# Labels joined by a separator

A list is split at a separator. That no label of it is empty is said by four
scans of the list itself: it is not empty, it does not begin or end with the
separator, and nowhere do two separators stand side by side.
-/

namespace Labels

variable {α : Type}

/- Two separators stand side by side. -/
def Doubled (sep : α) (s : List α) : Prop := [sep, sep] <:+: s

theorem doubled_cons_iff (sep c : α) (s : List α) :
    Doubled sep (c :: s) ↔ (c = sep ∧ s.head? = some sep) ∨ Doubled sep s := by
  unfold Doubled
  rw [List.infix_cons_iff]
  refine or_congr_left ?_
  cases s with
  | nil => simp
  | cons d s =>
    rw [List.cons_prefix_cons, List.cons_prefix_cons, List.head?_cons, Option.some.injEq]
    exact ⟨fun h => ⟨h.1.symm, h.2.1.symm⟩, fun h => ⟨h.1.symm, h.2.symm, List.nil_prefix⟩⟩

theorem getLast?_cons_ne (sep c : α) (s : List α) :
    (c :: s).getLast? ≠ some sep ↔ (s = [] → c ≠ sep) ∧ s.getLast? ≠ some sep := by
  cases s with
  | nil => simp
  | cons d s =>
    rw [List.getLast?_cons_cons]
    simp

variable [DecidableEq α]

theorem splitOn_sep (sep : α) (s : List α) : (sep :: s).splitOn sep = [] :: s.splitOn sep := by
  rw [List.splitOn_cons_eq_if_modifyHead, if_pos (beq_self_eq_true sep)]

theorem splitOn_cons {sep c : α} (hc : c ≠ sep) (s : List α) :
    ∃ l ls, s.splitOn sep = l :: ls ∧ (c :: s).splitOn sep = (c :: l) :: ls := by
  obtain ⟨l, ls, hs⟩ := List.exists_cons_of_ne_nil (List.splitOn_ne_nil sep s)
  refine ⟨l, ls, hs, ?_⟩
  rw [List.splitOn_cons_eq_if_modifyHead, if_neg (by simpa using hc), hs]
  rfl

/-- What holds of every item of every label holds of every item but the separators. -/
theorem forall_labels (sep : α) (p : α → Prop) (s : List α) :
    (∀ l ∈ s.splitOn sep, ∀ c ∈ l, p c) ↔ ∀ c ∈ s, c ≠ sep → p c := by
  induction s with
  | nil =>
    rw [List.splitOn_nil]
    simp
  | cons c s ih =>
    by_cases hc : c = sep
    · subst hc
      rw [splitOn_sep, List.forall_mem_cons, List.forall_mem_cons, ih]
      simp
    · obtain ⟨l, ls, hs, hcons⟩ := splitOn_cons hc s
      rw [hs, List.forall_mem_cons] at ih
      rw [hcons, List.forall_mem_cons, List.forall_mem_cons, List.forall_mem_cons, and_assoc, ih]
      exact and_congr_left fun _ => ⟨fun h _ => h, fun h => h hc⟩

/- The labels after the first one. -/
theorem nil_notMem_tail (sep : α) (s : List α) :
    ([] ∉ (s.splitOn sep).tail ↔ ¬ Doubled sep s ∧ s.getLast? ≠ some sep) ∧
    ([] ∉ s.splitOn sep ↔
      s ≠ [] ∧ s.head? ≠ some sep ∧ ¬ Doubled sep s ∧ s.getLast? ≠ some sep) := by
  induction s with
  | nil =>
    rw [List.splitOn_nil]
    simp [Doubled]
  | cons c s ih =>
    rw [doubled_cons_iff, getLast?_cons_ne, List.head?_cons]
    by_cases hc : c = sep
    · subst hc
      rw [splitOn_sep, List.tail_cons, ih.2]
      constructor
      · simp only [true_and, not_or]
        tauto
      · simp
    · obtain ⟨l, ls, hs, hcons⟩ := splitOn_cons hc s
      rw [hs, List.tail_cons] at ih
      have htail := ih.1
      rw [hcons, List.tail_cons, List.mem_cons, not_or]
      simpa [hc] using htail

/-- No label is empty. -/
theorem nil_notMem_iff (sep : α) (s : List α) :
    [] ∉ s.splitOn sep ↔
      s ≠ [] ∧ s.head? ≠ some sep ∧ ¬ Doubled sep s ∧ s.getLast? ≠ some sep :=
  (nil_notMem_tail sep s).2

end Labels
