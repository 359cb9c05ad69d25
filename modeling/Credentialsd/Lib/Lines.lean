import Mathlib.Data.List.DropRight

/-!
# The lines of a text

A text is read line by line, and what is read of a line is trimmed. Lines that are
written one after the other are read back in that order, whatever follows them.
-/

namespace Lines

/- A line break may be `\r\n`. -/
def chop (line : List Char) : List Char :=
  if line.getLast? = some '\r' then line.dropLast else line

/-- Each line ends with `\n` or `\r\n`, the last one perhaps with neither. -/
def lines (text : List Char) : List (List Char) :=
  go (text.splitOn '\n')
where
  go : List (List Char) → List (List Char)
    | [] => []
    | [last] => if last.isEmpty then [] else [last]
    | line :: rest => chop line :: go rest

theorem chop_prefix (line : List Char) : chop line <+: line := by
  unfold chop
  split
  · exact List.dropLast_prefix line
  · exact List.prefix_rfl

theorem lines_cons {line : List Char} (h : '\n' ∉ line) (rest : List Char) :
    lines (line ++ '\n' :: rest) = chop line :: lines rest := by
  unfold lines
  rw [List.splitOn_append_cons_self_of_not_mem h]
  obtain ⟨piece, pieces, hrest⟩ := List.exists_cons_of_ne_nil (List.splitOn_ne_nil '\n' rest)
  rw [hrest]
  rfl

theorem lines_append {before : List (List Char)} (h : ∀ line ∈ before, '\n' ∉ line)
    (rest : List Char) :
    lines (before.flatMap (· ++ ['\n']) ++ rest) = before.map chop ++ lines rest := by
  induction before with
  | nil => rfl
  | cons line before ih =>
    have hline : '\n' ∉ line := h line List.mem_cons_self
    have htail : ∀ l ∈ before, '\n' ∉ l := fun l hl => h l (List.mem_cons_of_mem _ hl)
    calc
      lines ((line :: before).flatMap (· ++ ['\n']) ++ rest)
          = lines (line ++ '\n' :: (before.flatMap (· ++ ['\n']) ++ rest)) := by
            rw [List.flatMap_cons, List.append_assoc, List.append_assoc, List.singleton_append]
      _ = chop line :: lines (before.flatMap (· ++ ['\n']) ++ rest) := lines_cons hline _
      _ = (line :: before).map chop ++ lines rest := by
            rw [ih htail, List.map_cons, List.cons_append]

/-! ### Trimming -/

section trim

variable {α : Type} (space : α → Bool)

def trim (s : List α) : List α := (s.dropWhile space).rdropWhile space

variable {space}

theorem trim_pad {before core after : List α} (hbefore : ∀ c ∈ before, space c = true)
    (hcore : ∀ c ∈ core, space c = false) (hafter : ∀ c ∈ after, space c = true) :
    trim space (before ++ core ++ after) = core := by
  unfold trim
  rw [List.append_assoc, List.dropWhile_append_of_pos hbefore]
  cases core with
  | nil =>
    have hnil : after.dropWhile space = [] := List.dropWhile_eq_nil_iff.mpr hafter
    rw [List.nil_append, hnil, List.rdropWhile_nil]
  | cons c core =>
    have hc : ¬ space c = true := by
      rw [hcore c List.mem_cons_self]
      exact Bool.false_ne_true
    rw [List.cons_append, List.dropWhile_cons_of_neg hc, ← List.cons_append, List.rdropWhile,
      List.reverse_append,
      List.dropWhile_append_of_pos fun d hd => hafter d (List.mem_reverse.mp hd)]
    have hself : (c :: core).rdropWhile space = c :: core := by
      rw [List.rdropWhile_eq_self_iff]
      intro hne
      rw [hcore _ (List.getLast_mem hne)]
      exact Bool.false_ne_true
    exact hself

end trim

end Lines
