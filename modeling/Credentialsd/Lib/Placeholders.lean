import Mathlib.Data.List.Infix
import Mathlib.Data.Option.Basic

/-!
# Texts with placeholders

The keys of a text give way to values, all in one scan or one key after the other. The two
come to the same as long as the values that are written in make no new keys.
-/

namespace Placeholders

variable {α : Type}

/-! ### Keys and open places -/

/-- Something is written into the open places of a text. -/
def fill (value : List α) (ps : List (Option α)) : List α :=
  ps.flatMap fun p => match p with
    | none => value
    | some c => [c]

@[simp] theorem fill_nil (value : List α) : fill value [] = [] := rfl

@[simp] theorem fill_none (value : List α) (ps : List (Option α)) :
    fill value (none :: ps) = value ++ fill value ps := rfl

@[simp] theorem fill_some (value : List α) (c : α) (ps : List (Option α)) :
    fill value (some c :: ps) = c :: fill value ps := rfl

@[simp] theorem fill_append (value : List α) (ps qs : List (Option α)) :
    fill value (ps ++ qs) = fill value ps ++ fill value qs := by
  unfold fill
  exact List.flatMap_append

@[simp] theorem fill_letters (value s : List α) : fill value (s.map some) = s := by
  induction s with
  | nil => rfl
  | cons c s ih =>
    rw [List.map_cons, fill_some, ih]

/-- A mark with letters after it, none of which is the mark. Two keys never overlap. -/
def IsKey (mark : α) (key : List α) : Prop := ∃ letters, key = mark :: letters ∧ mark ∉ letters

theorem drop_letters {mark : α} {key : List α} (hkey : IsKey mark key) (s : List α) :
    ∃ c rest, key ++ s = c :: rest ∧ rest.drop (key.length - 1) = s := by
  obtain ⟨letters, rfl, -⟩ := hkey
  refine ⟨mark, letters ++ s, rfl, ?_⟩
  rw [List.length_cons, Nat.add_sub_cancel, List.drop_left]

theorem head_eq_mark {mark : α} {key : List α} (hkey : IsKey mark key) {c : α} {s : List α}
    (h : key <+: c :: s) : mark = c := by
  obtain ⟨letters, rfl, -⟩ := hkey
  exact (List.cons_prefix_cons.mp h).1

/-- A key is not found across something that does not occur in it. -/
theorem infix_fence {k x y : List α} {z : α} (hk : k ≠ []) (hz : z ∉ k) :
    k <:+: x ++ z :: y ↔ k <:+: x ∨ k <:+: y := by
  have hhead : ∀ l, l ≠ [] → l <+: z :: y → z ∈ l := by
    intro l hl hbegins
    cases l with
    | nil => exact absurd rfl hl
    | cons c l =>
      rw [(List.cons_prefix_cons.mp hbegins).1]
      exact List.mem_cons_self
  rw [List.infix_append_iff_ne_nil, List.infix_cons_iff]
  constructor
  · rintro (h | (h | h) | ⟨l₁, l₂, -, hl₂, rfl, -, h⟩)
    · exact Or.inl h
    · exact absurd (hhead k hk h) hz
    · exact Or.inr h
    · exact absurd (List.mem_append_right l₁ (hhead l₂ hl₂ h)) hz
  · rintro (h | h)
    · exact Or.inl h
    · exact Or.inr (Or.inl (Or.inr h))

theorem not_infix_letters {mark : α} {key : List α} (hkey : IsKey mark key) {letters : List α}
    (h : mark ∉ letters) : ¬ key <:+: letters := by
  obtain ⟨ls, rfl, -⟩ := hkey
  exact fun hinside => h (hinside.mem List.mem_cons_self)

theorem infix_map_some {key letters : List α} :
    key.map some <:+: letters.map some ↔ key <:+: letters := by
  constructor
  · intro h
    obtain ⟨l, hl, heq⟩ := List.infix_map_iff.mp h
    rw [List.map_injective_iff.mpr (Option.some_injective α) heq]
    exact hl
  · exact fun h => h.map some

/- A key that begins at a letter does not reach into an open place. -/
theorem letters_begin {mark : α} {letters : List α} (hmark : mark ∉ letters) {rest : List α}
    {ps : List (Option α)} (h : letters <+: fill (mark :: rest) ps) :
    letters.map some <+: ps := by
  induction letters generalizing ps with
  | nil => exact List.nil_prefix
  | cons c letters ih =>
    rw [List.mem_cons, not_or] at hmark
    cases ps with
    | nil => exact absurd (List.prefix_nil.mp h) (List.cons_ne_nil _ _)
    | cons place ps =>
      cases place with
      | none =>
        rw [fill_none, List.cons_append, List.cons_prefix_cons] at h
        exact absurd h.1.symm hmark.1
      | some d =>
        rw [fill_some, List.cons_prefix_cons] at h
        rw [List.map_cons, List.cons_prefix_cons]
        exact ⟨congrArg some h.1, ih hmark.2 h.2⟩

theorem key_begins {mark : α} {key : List α} (hkey : IsKey mark key) {c : α}
    {ps : List (Option α)} (h : key <+: c :: fill key ps) : key.map some <+: some c :: ps := by
  obtain ⟨letters, rfl, hletters⟩ := hkey
  rw [List.cons_prefix_cons] at h
  rw [List.map_cons, List.cons_prefix_cons]
  exact ⟨congrArg some h.1, letters_begin hletters h.2⟩

theorem not_infix_none {mark : α} {key : List α} (hkey : IsKey mark key)
    {ps : List (Option α)} :
    key.map some <:+: none :: ps ↔ key.map some <:+: ps := by
  obtain ⟨letters, rfl, -⟩ := hkey
  rw [List.infix_cons_iff, List.map_cons, List.cons_prefix_cons]
  exact or_iff_right fun h => nomatch h.1

/-! ### One scan -/

variable [DecidableEq α]

/-- The key that the text begins with, and its value. -/
def keyAt (pairs : List (List α × List α)) (s : List α) : Option (List α × List α) :=
  pairs.find? fun p => p.1.isPrefixOf s

/- The first number are the letters of a key that are still to be passed over. -/
def substituteFrom (pairs : List (List α × List α)) : Nat → List α → List α
  | _, [] => []
  | n + 1, _ :: s => substituteFrom pairs n s
  | 0, c :: s =>
    match keyAt pairs (c :: s) with
    | some p => p.2 ++ substituteFrom pairs (p.1.length - 1) s
    | none => c :: substituteFrom pairs 0 s

/-- All keys give way to their values at once. -/
def substitute (pairs : List (List α × List α)) (s : List α) : List α := substituteFrom pairs 0 s

/-- Every occurrence of the key gives way to the value, from the left. -/
def replace (key value s : List α) : List α := substitute [(key, value)] s

def piecesFrom (pairs : List (List α × List α)) (key : List α) : Nat → List α → List (Option α)
  | _, [] => []
  | n + 1, _ :: s => piecesFrom pairs key n s
  | 0, c :: s =>
    match keyAt pairs (c :: s) with
    | some p => p.2.map some ++ piecesFrom pairs key (p.1.length - 1) s
    | none =>
      if key.isPrefixOf (c :: s) then none :: piecesFrom pairs key (key.length - 1) s
      else some c :: piecesFrom pairs key 0 s

/-- The text with the values written in, in which the places of `key` are left open. -/
def pieces (pairs : List (List α × List α)) (key s : List α) : List (Option α) :=
  piecesFrom pairs key 0 s

/-- Apart from its own places in the text, the key can be read where the values were written in. -/
def Makes (pairs : List (List α × List α)) (key s : List α) : Prop :=
  key.map some <:+: pieces pairs key s

instance (pairs : List (List α × List α)) (key s : List α) : Decidable (Makes pairs key s) :=
  inferInstanceAs (Decidable (_ <:+: _))

theorem keyAt_some {pairs : List (List α × List α)} {s : List α} {p : List α × List α}
    (h : keyAt pairs s = some p) : p ∈ pairs ∧ p.1 <+: s := by
  refine ⟨List.mem_of_find?_eq_some h, ?_⟩
  have hbegins := List.find?_some h
  exact List.isPrefixOf_iff_prefix.mp hbegins

theorem keyAt_none {pairs : List (List α × List α)} {s : List α} :
    keyAt pairs s = none ↔ ∀ p ∈ pairs, ¬ p.1 <+: s := by
  unfold keyAt
  rw [List.find?_eq_none]
  simp only [List.isPrefixOf_iff_prefix]

theorem substituteFrom_eq (pairs : List (List α × List α)) (n : Nat) (s : List α) :
    substituteFrom pairs n s = substitute pairs (s.drop n) := by
  induction n generalizing s with
  | zero => rfl
  | succ n ih =>
    cases s with
    | nil => rfl
    | cons c s => exact ih s

theorem piecesFrom_eq (pairs : List (List α × List α)) (key : List α) (n : Nat) (s : List α) :
    piecesFrom pairs key n s = pieces pairs key (s.drop n) := by
  induction n generalizing s with
  | zero => rfl
  | succ n ih =>
    cases s with
    | nil => rfl
    | cons c s => exact ih s

theorem substitute_cons (pairs : List (List α × List α)) (c : α) (s : List α) :
    substitute pairs (c :: s) = match keyAt pairs (c :: s) with
      | some p => p.2 ++ substitute pairs (s.drop (p.1.length - 1))
      | none => c :: substitute pairs s := by
  conv_lhs => unfold substitute substituteFrom
  cases keyAt pairs (c :: s) with
  | some p => exact congrArg (p.2 ++ ·) (substituteFrom_eq pairs _ s)
  | none => rfl

theorem pieces_cons (pairs : List (List α × List α)) (key : List α) (c : α) (s : List α) :
    pieces pairs key (c :: s) = match keyAt pairs (c :: s) with
      | some p => p.2.map some ++ pieces pairs key (s.drop (p.1.length - 1))
      | none =>
        if key.isPrefixOf (c :: s) then none :: pieces pairs key (s.drop (key.length - 1))
        else some c :: pieces pairs key s := by
  conv_lhs => unfold pieces piecesFrom
  cases keyAt pairs (c :: s) with
  | some p => exact congrArg (p.2.map some ++ ·) (piecesFrom_eq pairs key _ s)
  | none => exact congrArg (ite _ · _) (congrArg _ (piecesFrom_eq pairs key _ s))

section Scan

variable {mark : α} {key : List α} {pairs : List (List α × List α)}

theorem substitute_pair {p : List α × List α} {s : List α} (hp : IsKey mark p.1)
    (h : keyAt pairs (p.1 ++ s) = some p) :
    substitute pairs (p.1 ++ s) = p.2 ++ substitute pairs s := by
  obtain ⟨c, rest, hcons, hdrop⟩ := drop_letters hp s
  rw [hcons] at h ⊢
  rw [substitute_cons, h]
  dsimp only
  rw [hdrop]

theorem substitute_other {c : α} {s : List α} (h : keyAt pairs (c :: s) = none) :
    substitute pairs (c :: s) = c :: substitute pairs s := by
  rw [substitute_cons, h]

theorem pieces_pair {p : List α × List α} {s : List α} (hp : IsKey mark p.1)
    (h : keyAt pairs (p.1 ++ s) = some p) :
    pieces pairs key (p.1 ++ s) = p.2.map some ++ pieces pairs key s := by
  obtain ⟨c, rest, hcons, hdrop⟩ := drop_letters hp s
  rw [hcons] at h ⊢
  rw [pieces_cons, h]
  dsimp only
  rw [hdrop]

theorem pieces_key {s : List α} (hkey : IsKey mark key) (h : keyAt pairs (key ++ s) = none) :
    pieces pairs key (key ++ s) = none :: pieces pairs key s := by
  have hbegins := List.isPrefixOf_iff_prefix.mpr (List.prefix_append key s)
  obtain ⟨c, rest, hcons, hdrop⟩ := drop_letters hkey s
  rw [hcons] at h hbegins ⊢
  rw [pieces_cons, h]
  dsimp only
  rw [if_pos hbegins, hdrop]

theorem pieces_other {c : α} {s : List α} (h : keyAt pairs (c :: s) = none)
    (hkey : ¬ key <+: c :: s) : pieces pairs key (c :: s) = some c :: pieces pairs key s := by
  rw [← List.isPrefixOf_iff_prefix] at hkey
  rw [pieces_cons, h]
  dsimp only
  rw [if_neg hkey]

/-- Along the scan a text is empty, or begins with a key, or with anything else. -/
theorem scan_induction (hpairs : ∀ p ∈ pairs, IsKey mark p.1) (hkey : IsKey mark key)
    {motive : List α → Prop} (nil : motive [])
    (pair : ∀ p s, IsKey mark p.1 → keyAt pairs (p.1 ++ s) = some p → motive s →
      motive (p.1 ++ s))
    (own : ∀ s, keyAt pairs (key ++ s) = none → motive s → motive (key ++ s))
    (other : ∀ c s, keyAt pairs (c :: s) = none → ¬ key <+: c :: s → motive s → motive (c :: s))
    (s : List α) : motive s := by
  induction hn : s.length using Nat.strong_induction_on generalizing s with
  | _ n ih =>
    subst hn
    cases hat : keyAt pairs s with
    | some p =>
      obtain ⟨hmem, rest, rfl⟩ := keyAt_some hat
      have hp := hpairs p hmem
      obtain ⟨letters, hletters, -⟩ := id hp
      refine pair p rest hp hat (ih rest.length ?_ rest rfl)
      rw [List.length_append, hletters, List.length_cons]
      omega
    | none =>
      by_cases hown : key <+: s
      · obtain ⟨rest, rfl⟩ := hown
        obtain ⟨letters, hletters, -⟩ := id hkey
        refine own rest hat (ih rest.length ?_ rest rfl)
        rw [List.length_append, hletters, List.length_cons]
        omega
      · cases s with
        | nil => exact nil
        | cons c s => exact other c s hat hown (ih s.length (Nat.lt_succ_self _) s rfl)

/- No key begins at a letter that is not the mark. -/
theorem substitute_letters (hpairs : ∀ p ∈ pairs, IsKey mark p.1) {letters : List α}
    (h : mark ∉ letters) (s : List α) :
    substitute pairs (letters ++ s) = letters ++ substitute pairs s := by
  induction letters with
  | nil => rfl
  | cons c letters ih =>
    rw [List.mem_cons, not_or] at h
    have hnone : keyAt pairs (c :: (letters ++ s)) = none := by
      rw [keyAt_none]
      intro p hp hbegins
      exact h.1 (head_eq_mark (hpairs p hp) hbegins)
    rw [List.cons_append, substitute_other hnone, ih h.2, List.cons_append]

theorem pieces_letters (hpairs : ∀ p ∈ pairs, IsKey mark p.1) (hkey : IsKey mark key)
    {letters : List α} (h : mark ∉ letters) (s : List α) :
    pieces pairs key (letters ++ s) = letters.map some ++ pieces pairs key s := by
  induction letters with
  | nil => rfl
  | cons c letters ih =>
    rw [List.mem_cons, not_or] at h
    have hnone : keyAt pairs (c :: (letters ++ s)) = none := by
      rw [keyAt_none]
      intro p hp hbegins
      exact h.1 (head_eq_mark (hpairs p hp) hbegins)
    have hown : ¬ key <+: c :: (letters ++ s) := fun hbegins =>
      h.1 (head_eq_mark hkey hbegins)
    rw [List.cons_append, pieces_other hnone hown, ih h.2, List.map_cons, List.cons_append]

/- A key that is none of the pairs' and not the open one. -/
theorem pieces_stranger (hpairs : ∀ p ∈ pairs, IsKey mark p.1) (hkey : IsKey mark key)
    {other : List α} (hother : IsKey mark other) {s : List α}
    (h : keyAt pairs (other ++ s) = none) (hown : ¬ key <+: other ++ s) :
    pieces pairs key (other ++ s) = other.map some ++ pieces pairs key s := by
  obtain ⟨letters, rfl, hletters⟩ := hother
  rw [List.cons_append] at h hown ⊢
  rw [pieces_other h hown, pieces_letters hpairs hkey hletters]
  rfl

/-- With the key itself in the open places, only the pairs have given way. -/
theorem fill_key (hpairs : ∀ p ∈ pairs, IsKey mark p.1) (hkey : IsKey mark key) (s : List α) :
    fill key (pieces pairs key s) = substitute pairs s := by
  induction s using scan_induction hpairs hkey with
  | nil => rfl
  | pair p s hp h ih =>
    rw [pieces_pair hp h, substitute_pair hp h, fill_append, fill_letters, ih]
  | own s h ih =>
    rw [pieces_key hkey h, fill_none, ih]
    obtain ⟨letters, rfl, hletters⟩ := id hkey
    simp only [List.cons_append] at h ⊢
    rw [substitute_other h, substitute_letters hpairs hletters]
  | other c s h hown ih =>
    rw [pieces_other h hown, substitute_other h, fill_some, ih]

theorem keyAt_append {s value : List α} (h : keyAt pairs s = none) :
    keyAt (pairs ++ [(key, value)]) s = if key.isPrefixOf s then some (key, value) else none := by
  unfold keyAt at h ⊢
  rw [List.find?_append, h, Option.none_or, List.find?_singleton]

/-- With a value in the open places, the key gives way together with the pairs. -/
theorem fill_value (hpairs : ∀ p ∈ pairs, IsKey mark p.1) (hkey : IsKey mark key)
    (value s : List α) :
    fill value (pieces pairs key s) = substitute (pairs ++ [(key, value)]) s := by
  induction s using scan_induction hpairs hkey with
  | nil => rfl
  | pair p s hp h ih =>
    have hfirst : keyAt (pairs ++ [(key, value)]) (p.1 ++ s) = some p := by
      unfold keyAt at h ⊢
      rw [List.find?_append, h, Option.some_or]
    rw [pieces_pair hp h, substitute_pair hp hfirst, fill_append, fill_letters, ih]
  | own s h ih =>
    have hlast : keyAt (pairs ++ [(key, value)]) (key ++ s) = some (key, value) := by
      rw [keyAt_append h, if_pos (List.isPrefixOf_iff_prefix.mpr (List.prefix_append key s))]
    rw [pieces_key hkey h, fill_none, ih]
    exact (substitute_pair (p := (key, value)) hkey hlast).symm
  | other c s h hown ih =>
    have hnone : keyAt (pairs ++ [(key, value)]) (c :: s) = none := by
      rw [keyAt_append h, if_neg fun hp => hown (List.isPrefixOf_iff_prefix.mp hp)]
    rw [pieces_other h hown, substitute_other hnone, fill_some, ih]

/-! ### One key after the other -/

theorem keyAt_single {value s : List α} (h : ¬ key <+: s) : keyAt [(key, value)] s = none := by
  rw [keyAt_none]
  intro p hp
  rw [List.mem_singleton] at hp
  subst hp
  exact h

theorem replace_key (hkey : IsKey mark key) (value s : List α) :
    replace key value (key ++ s) = value ++ replace key value s := by
  refine substitute_pair (p := (key, value)) hkey ?_
  unfold keyAt
  rw [List.find?_singleton, if_pos (List.isPrefixOf_iff_prefix.mpr (List.prefix_append key s))]

theorem replace_other {value s : List α} {c : α} (h : ¬ key <+: c :: s) :
    replace key value (c :: s) = c :: replace key value s :=
  substitute_other (keyAt_single h)

/-- A key that gives way to itself leaves the text as it is. -/
theorem replace_self (hkey : IsKey mark key) (s : List α) : replace key key s = s := by
  have hnone : ∀ p ∈ ([] : List (List α × List α)), IsKey mark p.1 := by simp
  induction s using scan_induction hnone hkey with
  | nil => rfl
  | pair p s hp h ih => exact nomatch h
  | own s h ih => rw [replace_key hkey, ih]
  | other c s h hown ih => rw [replace_other hown, ih]

/-- Where the key can be read in no other place, its own places are the ones that give way. -/
theorem replace_fill (hkey : IsKey mark key) (value : List α) {ps : List (Option α)}
    (h : ¬ key.map some <:+: ps) : replace key value (fill key ps) = fill value ps := by
  induction ps with
  | nil => rfl
  | cons place ps ih =>
    cases place with
    | none =>
      rw [not_infix_none hkey] at h
      rw [fill_none, fill_none, replace_key hkey, ih h]
    | some c =>
      rw [List.infix_cons_iff, not_or] at h
      have hother : ¬ key <+: c :: fill key ps := fun hbegins => h.1 (key_begins hkey hbegins)
      rw [fill_some, fill_some, replace_other hother, ih h.2]

/- How much longer a text gets. -/
theorem length_fill (key value : List α) (ps : List (Option α)) :
    (fill value ps).length + ps.count none * key.length =
      (fill key ps).length + ps.count none * value.length := by
  induction ps with
  | nil => rw [List.count_nil, Nat.zero_mul, Nat.zero_mul, fill_nil, fill_nil]
  | cons place ps ih =>
    cases place with
    | none =>
      rw [fill_none, fill_none, List.length_append, List.length_append, List.count_cons_self,
        Nat.add_mul, Nat.add_mul, Nat.one_mul, Nat.one_mul]
      omega
    | some c =>
      rw [fill_some, fill_some, List.length_cons, List.length_cons,
        List.count_cons_of_ne (Option.some_ne_none c)]
      omega

/- Reading the text anew finds the open places again, and with them every other place where the
key can be read. -/
theorem count_le (hkey : IsKey mark key) (ps : List (Option α)) :
    ps.count none ≤ (pieces [] key (fill key ps)).count none ∧
      (key.map some <:+: ps → ps.count none < (pieces [] key (fill key ps)).count none) := by
  induction hn : ps.length using Nat.strong_induction_on generalizing ps with
  | _ n ih =>
    subst hn
    cases ps with
    | nil =>
      obtain ⟨letters, rfl, -⟩ := hkey
      exact ⟨Nat.zero_le _, fun h => absurd (List.infix_nil.mp h) (List.cons_ne_nil _ _)⟩
    | cons place ps =>
      cases place with
      | none =>
        obtain ⟨hle, hlt⟩ := ih ps.length (Nat.lt_succ_self _) ps rfl
        rw [fill_none, pieces_key hkey rfl, List.count_cons_self, List.count_cons_self,
          not_infix_none hkey]
        exact ⟨Nat.succ_le_succ hle, fun h => Nat.succ_lt_succ (hlt h)⟩
      | some c =>
        by_cases hbegins : key.map some <+: some c :: ps
        · obtain ⟨qs, hqs⟩ := hbegins
          have hshort : qs.length < (some c :: ps).length := by
            obtain ⟨letters, rfl, -⟩ := id hkey
            rw [← hqs, List.length_append, List.map_cons, List.length_cons]
            omega
          have hle := (ih qs.length hshort qs rfl).1
          have hletters : (key.map some).count none = 0 :=
            List.count_eq_zero.mpr fun h => by
              obtain ⟨d, -, hd⟩ := List.mem_map.mp h
              exact nomatch hd
          rw [← hqs, fill_append, fill_letters, pieces_key hkey rfl, List.count_append, hletters,
            List.count_cons_self]
          omega
        · obtain ⟨hle, hlt⟩ := ih ps.length (Nat.lt_succ_self _) ps rfl
          have hother : ¬ key <+: c :: fill key ps := fun h => hbegins (key_begins hkey h)
          rw [fill_some, pieces_other rfl hother, List.count_cons_of_ne (Option.some_ne_none c),
            List.count_cons_of_ne (Option.some_ne_none c), List.infix_cons_iff,
            or_iff_right hbegins]
          exact ⟨hle, hlt⟩

/- The key in another place gives way to something as long as the key: it is the key. -/
theorem eq_key_of_same_length (hkey : IsKey mark key) {value : List α}
    (hlength : value.length = key.length) {ps : List (Option α)} (h : key.map some <:+: ps)
    (heq : replace key value (fill key ps) = fill value ps) : value = key := by
  induction ps with
  | nil =>
    obtain ⟨letters, rfl, -⟩ := hkey
    exact absurd (List.infix_nil.mp h) (List.cons_ne_nil _ _)
  | cons place ps ih =>
    cases place with
    | none =>
      rw [not_infix_none hkey] at h
      rw [fill_none, fill_none, replace_key hkey] at heq
      exact ih h (List.append_cancel_left heq)
    | some c =>
      by_cases hbegins : key.map some <+: some c :: ps
      · obtain ⟨qs, hqs⟩ := hbegins
        rw [← hqs, fill_append, fill_append, fill_letters, fill_letters, replace_key hkey] at heq
        exact (List.append_inj heq hlength).1
      · have hother : ¬ key <+: c :: fill key ps := fun h => hbegins (key_begins hkey h)
        rw [List.infix_cons_iff, or_iff_right hbegins] at h
        rw [fill_some, fill_some, replace_other hother, List.cons.injEq] at heq
        exact ih h heq.2

theorem eq_key_of_replace_fill (hkey : IsKey mark key) {value : List α} {ps : List (Option α)}
    (h : key.map some <:+: ps) (heq : replace key value (fill key ps) = fill value ps) :
    value = key := by
  refine eq_key_of_same_length hkey ?_ h heq
  have hlt := (count_le hkey ps).2 h
  have hnone : ∀ p ∈ ([] : List (List α × List α)), IsKey mark p.1 := by simp
  have hplaces : fill value (pieces [] key (fill key ps)) = replace key value (fill key ps) :=
    fill_value hnone hkey value (fill key ps)
  have hkeys : fill key (pieces [] key (fill key ps)) = fill key ps := by
    rw [fill_value hnone hkey key, List.nil_append]
    exact replace_self hkey (fill key ps)
  have hfound := length_fill key value (pieces [] key (fill key ps))
  have hopen := length_fill key value ps
  rw [hplaces, hkeys, heq] at hfound
  obtain ⟨d, hd⟩ := Nat.exists_eq_add_of_lt hlt
  rw [hd, Nat.add_mul, Nat.add_mul, Nat.add_mul, Nat.add_mul] at hfound
  have hmul : (d + 1) * value.length = (d + 1) * key.length := by
    rw [Nat.add_mul, Nat.add_mul]
    omega
  exact Nat.eq_of_mul_eq_mul_left (Nat.succ_pos d) hmul

/-- One more key after the others is one more key among them, as long as the values do not make
it, or it stays what it is. -/
theorem replace_substitute_iff (hpairs : ∀ p ∈ pairs, IsKey mark p.1) (hkey : IsKey mark key)
    (value s : List α) :
    replace key value (substitute pairs s) = substitute (pairs ++ [(key, value)]) s ↔
      (Makes pairs key s → value = key) := by
  rw [← fill_value hpairs hkey, ← fill_key hpairs hkey]
  constructor
  · intro heq hmakes
    exact eq_key_of_replace_fill hkey hmakes heq
  · intro h
    by_cases hmakes : Makes pairs key s
    · rw [h hmakes, replace_self hkey]
    · exact replace_fill hkey value hmakes

/-- Whatever the last value is, it comes out right if and only if the text before it was right and
the last key is not made by the others. -/
theorem forall_replace_iff (hpairs : ∀ p ∈ pairs, IsKey mark p.1) (hkey : IsKey mark key)
    (t s : List α) :
    (∀ value, replace key value t = substitute (pairs ++ [(key, value)]) s) ↔
      t = substitute pairs s ∧ ¬ Makes pairs key s := by
  constructor
  · intro h
    have ht : t = substitute pairs s := by
      have hself := h key
      rwa [replace_self hkey, ← fill_value hpairs hkey, fill_key hpairs hkey] at hself
    subst ht
    refine ⟨rfl, fun hmakes => ?_⟩
    have hnil := (replace_substitute_iff hpairs hkey [] s).mp (h []) hmakes
    obtain ⟨letters, rfl, -⟩ := hkey
    exact nomatch hnil
  · intro ⟨ht, hmakes⟩ value
    rw [ht]
    exact (replace_substitute_iff hpairs hkey value s).mpr fun h => absurd h hmakes

end Scan

end Placeholders
