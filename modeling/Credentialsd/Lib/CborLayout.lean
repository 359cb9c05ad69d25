import Credentialsd.Lib.CborTree

/-!
# How a tolerant reader lays a tree over data

`At data pos t stop` says that the data reads as `t` from `pos` on and that the reader
is at `stop` afterwards. Where the data ends, it reads `nothing`, and a string is what
is left of it. There is at most one such tree; a well-formed one is written there.
-/

namespace Cbor

namespace Tree

def Stands (data : List UInt8) (pos : Nat) (h : Head) : Prop :=
  ∃ rest, data.drop pos = h.bytes ++ rest

/- The number of items behind a head; a tag has one. -/
def Counts (h : Head) (k : Nat) : Prop :=
  ∀ n, h.argument = some n → k = if h.major = 6 then 1 else n

def EndsAt (data : List UInt8) (h : Head) (pos stop : Nat) : Prop :=
  (h.argument ≠ none ∧ stop = pos) ∨
    (h.argument = none ∧ data[pos]? = some 0xFF ∧ stop = pos + 1)

mutual

def At (data : List UInt8) : Nat → Tree → Nat → Prop
  | pos, .nothing, stop => data.length ≤ pos ∧ stop = pos
  | pos, .atom h, stop =>
    (h.Legal ∧ Stands data pos h ∧ h.form = .atom) ∧ h ≠ .indefinite 7 ∧
      stop = pos + h.bytes.length
  | pos, .string h b, stop =>
    (h.Legal ∧ Stands data pos h ∧ h.form = .string) ∧ ∃ n, h.argument = some n ∧
      b = (data.drop (pos + h.bytes.length)).take n ∧ stop = pos + h.bytes.length + n
  | pos, .items h xs, stop =>
    (h.Legal ∧ Stands data pos h ∧ h.form = .items) ∧ Counts h xs.length ∧
      ∃ p, AtItems data (pos + h.bytes.length) xs p ∧ EndsAt data h p stop
  | pos, .entries h es, stop =>
    (h.Legal ∧ Stands data pos h ∧ h.form = .entries) ∧ Counts h es.length ∧
      ∃ p, AtEntries data (pos + h.bytes.length) es p ∧ EndsAt data h p stop

def AtItems (data : List UInt8) : Nat → List Tree → Nat → Prop
  | pos, [], stop => stop = pos
  | pos, x :: xs, stop => ∃ p, At data pos x p ∧ AtItems data p xs stop

def AtEntries (data : List UInt8) : Nat → List (Tree × Tree) → Nat → Prop
  | pos, [], stop => stop = pos
  | pos, (k, v) :: es, stop => ∃ p q, At data pos k p ∧ At data p v q ∧ AtEntries data q es stop

end

/-! ### Heads in the data -/

theorem Stands.lt {data : List UInt8} {pos : Nat} {h : Head} (hs : Stands data pos h) :
    pos < data.length := by
  obtain ⟨rest, hdrop⟩ := hs
  by_contra hge
  rw [List.drop_eq_nil_of_le (by omega)] at hdrop
  cases hdrop

theorem Stands.unique {data : List UInt8} {pos : Nat} {h h' : Head} (hl : h.Legal)
    (hl' : h'.Legal) (hs : Stands data pos h) (hs' : Stands data pos h') : h = h' := by
  obtain ⟨rest, hdrop⟩ := hs
  obtain ⟨rest', hdrop'⟩ := hs'
  exact (Head.bytes_inj hl hl' (hdrop.symm.trans hdrop')).1

/- No tree begins with the break byte. -/
theorem Stands.not_break {data : List UInt8} {pos : Nat} {h : Head} (hl : h.Legal)
    (hs : Stands data pos h) (hne : h ≠ .indefinite 7) : data[pos]? ≠ some 0xFF := by
  obtain ⟨rest, hdrop⟩ := hs
  intro hbreak
  have hhead : (data.drop pos).head? = some (UInt8.ofNat (32 * h.major + h.info)) := by
    rw [hdrop]
    rfl
  rw [List.head?_drop, hbreak] at hhead
  have hnat := congrArg UInt8.toNat (Option.some.inj hhead)
  rw [hl.first] at hnat
  have h255 : (0xFF : UInt8).toNat = 255 := rfl
  have hm := hl.major_lt
  have hi := hl.info_lt
  cases h with
  | definite m w n =>
    have h28 : w.info n < 28 := Head.info_lt_28 hl.2
    have hinfo : (Head.definite m w n).info = w.info n := rfl
    omega
  | indefinite m =>
    have hmajor : m = 7 := by
      have hm' : (Head.indefinite m).major = m := rfl
      omega
    exact hne (by rw [hmajor])

theorem At.not_break {data : List UInt8} {pos stop : Nat} {t : Tree} (h : At data pos t stop) :
    data[pos]? ≠ some 0xFF := by
  cases t with
  | nothing =>
    rw [List.getElem?_eq_none h.1]
    nofun
  | atom hd => exact h.1.2.1.not_break h.1.1 h.2.1
  | string hd b =>
    refine h.1.2.1.not_break h.1.1 ?_
    rintro rfl
    exact absurd h.1.2.2 (by decide)
  | items hd xs =>
    refine h.1.2.1.not_break h.1.1 ?_
    rintro rfl
    exact absurd h.1.2.2 (by decide)
  | entries hd es =>
    refine h.1.2.1.not_break h.1.1 ?_
    rintro rfl
    exact absurd h.1.2.2 (by decide)

/-! ### One tree at most -/

theorem endsAt_unique {data : List UInt8} {h : Head} {p stop stop' : Nat}
    (he : EndsAt data h p stop) (he' : EndsAt data h p stop') : stop = stop' := by
  rcases he with ⟨hsome, rfl⟩ | ⟨hnone, -, rfl⟩
  · rcases he' with ⟨-, rfl⟩ | ⟨hnone, -⟩
    · rfl
    · exact absurd hnone hsome
  · rcases he' with ⟨hsome, -⟩ | ⟨-, -, rfl⟩
    · exact absurd hnone hsome
    · rfl

/- Two lists behind one head have the same length, or both end at a break. -/
def Matching (data : List UInt8) (k k' p p' : Nat) : Prop :=
  k = k' ∨ (data[p]? = some 0xFF ∧ data[p']? = some 0xFF)

theorem matching_of_head {data : List UInt8} {h : Head} {k k' p p' stop stop' : Nat}
    (hk : Counts h k) (hk' : Counts h k') (he : EndsAt data h p stop)
    (he' : EndsAt data h p' stop') : Matching data k k' p p' := by
  cases harg : h.argument with
  | some n => exact Or.inl ((hk n harg).trans (hk' n harg).symm)
  | none =>
    rcases he with ⟨hsome, -⟩ | ⟨-, hbreak, -⟩
    · exact absurd harg hsome
    · rcases he' with ⟨hsome, -⟩ | ⟨-, hbreak', -⟩
      · exact absurd harg hsome
      · exact Or.inr ⟨hbreak, hbreak'⟩

theorem Matching.tail {data : List UInt8} {k k' p p' : Nat}
    (h : Matching data (k + 1) (k' + 1) p p') : Matching data k k' p p' :=
  h.imp_left Nat.succ.inj

theorem nil_unmatched {data : List UInt8} {k pos p : Nat} (h : Matching data 0 (k + 1) pos p)
    (hbreak : data[pos]? ≠ some 0xFF) : False := by
  rcases h with hk | ⟨hpos, -⟩
  · cases hk
  · exact hbreak hpos

theorem Matching.symm {data : List UInt8} {k k' p p' : Nat} (h : Matching data k k' p p') :
    Matching data k' k p' p :=
  h.imp Eq.symm And.symm

/- A tree that begins with a head, and what its constructor tells of it. -/
theorem At.head_unique {data : List UInt8} {pos : Nat} {h h' : Head} {f f' : Form}
    (hh : h.Legal ∧ Stands data pos h ∧ h.form = f)
    (hh' : h'.Legal ∧ Stands data pos h' ∧ h'.form = f') : h = h' ∧ f = f' := by
  obtain rfl := Stands.unique hh.1 hh'.1 hh.2.1 hh'.2.1
  exact ⟨rfl, hh.2.2.symm.trans hh'.2.2⟩

mutual

/-- The data reads as one tree only. -/
theorem At.unique {data : List UInt8} : ∀ {pos stop stop' : Nat} (t t' : Tree),
    At data pos t stop → At data pos t' stop' → t = t' ∧ stop = stop'
  | pos, stop, stop', .nothing, t', h, h' => by
    have hend : data.length ≤ pos := h.1
    cases t' with
    | nothing => exact ⟨rfl, h.2.trans h'.2.symm⟩
    | atom hd => exact absurd h'.1.2.1.lt (by omega)
    | string hd b => exact absurd h'.1.2.1.lt (by omega)
    | items hd xs => exact absurd h'.1.2.1.lt (by omega)
    | entries hd es => exact absurd h'.1.2.1.lt (by omega)
  | pos, stop, stop', .atom hd, t', h, h' => by
    cases t' with
    | nothing => exact absurd h.1.2.1.lt (Nat.not_lt.mpr h'.1)
    | atom hd' =>
      obtain ⟨rfl, -⟩ := At.head_unique h.1 h'.1
      exact ⟨rfl, h.2.2.trans h'.2.2.symm⟩
    | string hd' b => cases (At.head_unique h.1 h'.1).2
    | items hd' xs => cases (At.head_unique h.1 h'.1).2
    | entries hd' es => cases (At.head_unique h.1 h'.1).2
  | pos, stop, stop', .string hd b, t', h, h' => by
    cases t' with
    | nothing => exact absurd h.1.2.1.lt (Nat.not_lt.mpr h'.1)
    | atom hd' => cases (At.head_unique h.1 h'.1).2
    | string hd' b' =>
      obtain ⟨rfl, -⟩ := At.head_unique h.1 h'.1
      obtain ⟨-, n, hn, rfl, rfl⟩ := h
      obtain ⟨-, n', hn', rfl, rfl⟩ := h'
      obtain rfl := Option.some.inj (hn.symm.trans hn')
      exact ⟨rfl, rfl⟩
    | items hd' xs => cases (At.head_unique h.1 h'.1).2
    | entries hd' es => cases (At.head_unique h.1 h'.1).2
  | pos, stop, stop', .items hd xs, t', h, h' => by
    cases t' with
    | nothing => exact absurd h.1.2.1.lt (Nat.not_lt.mpr h'.1)
    | atom hd' => cases (At.head_unique h.1 h'.1).2
    | string hd' b' => cases (At.head_unique h.1 h'.1).2
    | items hd' ys =>
      obtain ⟨rfl, -⟩ := At.head_unique h.1 h'.1
      obtain ⟨-, hk, p, hxs, he⟩ := h
      obtain ⟨-, hk', p', hys, he'⟩ := h'
      obtain ⟨rfl, rfl⟩ := AtItems.unique xs ys hxs hys (matching_of_head hk hk' he he')
      exact ⟨rfl, endsAt_unique he he'⟩
    | entries hd' es => cases (At.head_unique h.1 h'.1).2
  | pos, stop, stop', .entries hd es, t', h, h' => by
    cases t' with
    | nothing => exact absurd h.1.2.1.lt (Nat.not_lt.mpr h'.1)
    | atom hd' => cases (At.head_unique h.1 h'.1).2
    | string hd' b' => cases (At.head_unique h.1 h'.1).2
    | items hd' ys => cases (At.head_unique h.1 h'.1).2
    | entries hd' es' =>
      obtain ⟨rfl, -⟩ := At.head_unique h.1 h'.1
      obtain ⟨-, hk, p, hes, he⟩ := h
      obtain ⟨-, hk', p', hes', he'⟩ := h'
      obtain ⟨rfl, rfl⟩ := AtEntries.unique es es' hes hes' (matching_of_head hk hk' he he')
      exact ⟨rfl, endsAt_unique he he'⟩

theorem AtItems.unique {data : List UInt8} : ∀ {pos p p' : Nat} (xs ys : List Tree),
    AtItems data pos xs p → AtItems data pos ys p' →
    Matching data xs.length ys.length p p' → xs = ys ∧ p = p'
  | pos, p, p', [], [], h, h', _ => ⟨rfl, Eq.trans h (Eq.symm h')⟩
  | pos, p, p', [], y :: ys, h, h', hm => by
    obtain rfl : p = pos := h
    obtain ⟨q, hy, -⟩ := h'
    exact (nil_unmatched hm hy.not_break).elim
  | pos, p, p', x :: xs, [], h, h', hm => by
    obtain rfl : p' = pos := h'
    obtain ⟨q, hx, -⟩ := h
    exact (nil_unmatched hm.symm hx.not_break).elim
  | pos, p, p', x :: xs, y :: ys, h, h', hm => by
    obtain ⟨q, hx, hxs⟩ := h
    obtain ⟨q', hy, hys⟩ := h'
    obtain ⟨rfl, rfl⟩ := At.unique x y hx hy
    obtain ⟨rfl, hp⟩ := AtItems.unique xs ys hxs hys hm.tail
    exact ⟨rfl, hp⟩

theorem AtEntries.unique {data : List UInt8} : ∀ {pos p p' : Nat} (es es' : List (Tree × Tree)),
    AtEntries data pos es p → AtEntries data pos es' p' →
    Matching data es.length es'.length p p' → es = es' ∧ p = p'
  | pos, p, p', [], [], h, h', _ => ⟨rfl, Eq.trans h (Eq.symm h')⟩
  | pos, p, p', [], (k, v) :: es', h, h', hm => by
    obtain rfl : p = pos := h
    obtain ⟨q, r, hk, -⟩ := h'
    exact (nil_unmatched hm hk.not_break).elim
  | pos, p, p', (k, v) :: es, [], h, h', hm => by
    obtain rfl : p' = pos := h'
    obtain ⟨q, r, hk, -⟩ := h
    exact (nil_unmatched hm.symm hk.not_break).elim
  | pos, p, p', (k, v) :: es, (k', v') :: es', h, h', hm => by
    obtain ⟨q, r, hk, hv, hes⟩ := h
    obtain ⟨q', r', hk', hv', hes'⟩ := h'
    obtain ⟨rfl, rfl⟩ := At.unique k k' hk hk'
    obtain ⟨rfl, rfl⟩ := At.unique v v' hv hv'
    obtain ⟨rfl, hp⟩ := AtEntries.unique es es' hes hes' hm.tail
    exact ⟨rfl, hp⟩

end

/-! ### Progress -/

theorem endsAt_le {data : List UInt8} {h : Head} {p stop : Nat} (he : EndsAt data h p stop) :
    p ≤ stop := by
  rcases he with ⟨-, rfl⟩ | ⟨-, -, rfl⟩
  · exact Nat.le_refl _
  · exact Nat.le_succ _

mutual

/-- The reader moves on, unless it is at the end of the data. -/
theorem At.advance {data : List UInt8} : ∀ {pos stop : Nat} (t : Tree), At data pos t stop →
    (data.length ≤ pos ∧ stop = pos) ∨ pos < stop
  | pos, stop, .nothing, h => Or.inl h
  | pos, stop, .atom hd, h => by
    have hpos := hd.bytes_length_pos
    have hstop := h.2.2
    exact Or.inr (by omega)
  | pos, stop, .string hd b, h => by
    have hpos := hd.bytes_length_pos
    obtain ⟨-, n, -, -, rfl⟩ := h
    exact Or.inr (by omega)
  | pos, stop, .items hd xs, h => by
    have hpos := hd.bytes_length_pos
    obtain ⟨-, -, p, hxs, he⟩ := h
    have hle := AtItems.le xs hxs
    have hend := endsAt_le he
    exact Or.inr (by omega)
  | pos, stop, .entries hd es, h => by
    have hpos := hd.bytes_length_pos
    obtain ⟨-, -, p, hes, he⟩ := h
    have hle := AtEntries.le es hes
    have hend := endsAt_le he
    exact Or.inr (by omega)

theorem AtItems.le {data : List UInt8} : ∀ {pos p : Nat} (xs : List Tree), AtItems data pos xs p →
    pos ≤ p
  | pos, p, [], h => Nat.le_of_eq (Eq.symm h)
  | pos, p, x :: xs, h => by
    obtain ⟨q, hx, hxs⟩ := h
    have hq := At.advance x hx
    have hp := AtItems.le xs hxs
    omega

theorem AtEntries.le {data : List UInt8} : ∀ {pos p : Nat} (es : List (Tree × Tree)),
    AtEntries data pos es p → pos ≤ p
  | pos, p, [], h => Nat.le_of_eq (Eq.symm h)
  | pos, p, (k, v) :: es, h => by
    obtain ⟨q, r, hk, hv, hes⟩ := h
    have hq := At.advance k hk
    have hr := At.advance v hv
    have hp := AtEntries.le es hes
    omega

end

/- Before a break every item takes a byte. -/
theorem AtItems.length_le {data : List UInt8} : ∀ {pos p : Nat} (xs : List Tree),
    AtItems data pos xs p → p < data.length → pos + xs.length ≤ p
  | pos, p, [], h, _ => Nat.le_of_eq (Eq.symm h)
  | pos, p, x :: xs, h, hp => by
    obtain ⟨q, hx, hxs⟩ := h
    have hq := At.advance x hx
    have hle := AtItems.le xs hxs
    have hlength := AtItems.length_le xs hxs hp
    rw [List.length_cons]
    omega

theorem AtEntries.length_le {data : List UInt8} : ∀ {pos p : Nat} (es : List (Tree × Tree)),
    AtEntries data pos es p → p < data.length → pos + es.length ≤ p
  | pos, p, [], h, _ => Nat.le_of_eq (Eq.symm h)
  | pos, p, (k, v) :: es, h, hp => by
    obtain ⟨q, r, hk, hv, hes⟩ := h
    have hq := At.advance k hk
    have hr := At.advance v hv
    have hle := AtEntries.le es hes
    have hlength := AtEntries.length_le es hes hp
    rw [List.length_cons]
    omega

/-! ### Well-formed trees -/

theorem form_of_isItem {h : Head} (hi : h.IsItem) : h.form = .atom ∧ h ≠ .indefinite 7 := by
  unfold Head.IsItem at hi
  split at hi
  · exact ⟨rfl, nofun⟩
  · exact ⟨rfl, nofun⟩
  · exact ⟨rfl, nofun⟩
  · exact ⟨rfl, nofun⟩
  · exact ⟨rfl, nofun⟩
  · exact hi.elim

theorem form_of_follow {h : Head} {xs : List Tree} (hf : Follow h xs) :
    h.form = .items ∧ Counts h xs.length := by
  unfold Follow at hf
  split at hf
  · exact ⟨rfl, fun n hn => hf.trans (Option.some.inj hn)⟩
  · exact ⟨rfl, fun n _ => hf⟩
  · exact ⟨rfl, nofun⟩
  · exact ⟨rfl, nofun⟩
  · exact ⟨rfl, nofun⟩
  · exact hf.elim

theorem counts_of_entries {h : Head} {k : Nat} (hform : h.form = .entries)
    (hk : ∀ n, h.argument = some n → k = n) : Counts h k := by
  intro n hn
  rw [if_neg ?_]
  · exact hk n hn
  · intro hsix
    unfold Head.form at hform
    rw [hsix] at hform
    cases hform

theorem stands_of_write {data rest x : List UInt8} {pos : Nat} {h : Head}
    (hdrop : data.drop pos = h.bytes ++ x ++ rest) : Stands data pos h :=
  ⟨x ++ rest, by rw [hdrop, List.append_assoc]⟩

theorem endsAt_of_write {data rest : List UInt8} {pos : Nat} {h : Head}
    (hdrop : data.drop pos = h.ending ++ rest) : EndsAt data h pos (pos + h.ending.length) := by
  unfold Head.ending at hdrop ⊢
  cases harg : h.argument with
  | some n => exact Or.inl ⟨by rw [harg]; nofun, rfl⟩
  | none =>
    rw [harg] at hdrop
    have hbreak : data[pos]? = some 0xFF := by
      rw [← List.head?_drop, hdrop]
      rfl
    exact Or.inr ⟨harg, hbreak, rfl⟩

mutual

/-- A well-formed tree that is written in the data is read there. -/
theorem at_of_write {data : List UInt8} : ∀ (t : Tree) {pos : Nat} {rest : List UInt8},
    WellFormed t → data.drop pos = write t ++ rest → At data pos t (pos + (write t).length)
  | .nothing, _, _, h, _ => h.elim
  | .atom hd, pos, rest, h, hdrop => by
    obtain ⟨hform, hne⟩ := form_of_isItem h.2
    exact ⟨⟨h.1, ⟨rest, hdrop⟩, hform⟩, hne, rfl⟩
  | .string hd b, pos, rest, h, hdrop => by
    have hs : Stands data pos hd := stands_of_write hdrop
    simp only [write, List.append_assoc] at hdrop
    have hb := drop_append hdrop
    refine ⟨⟨h.1, hs, h.2.1⟩, b.length, h.2.2, ?_, ?_⟩
    · rw [hb, List.take_left]
    · simp only [write, List.length_append, Nat.add_assoc]
  | .items hd xs, pos, rest, h, hdrop => by
    obtain ⟨hform, hcount⟩ := form_of_follow h.2.1
    have hs : Stands data pos hd := stands_of_write hdrop
    simp only [write, List.append_assoc] at hdrop
    have hxs := drop_append hdrop
    have hend := endsAt_of_write (drop_append hxs)
    refine ⟨⟨h.1, hs, hform⟩, hcount, _, atItems_of_write xs h.2.2 hxs, ?_⟩
    simpa only [write, List.length_append, Nat.add_assoc] using hend
  | .entries hd es, pos, rest, h, hdrop => by
    have hs : Stands data pos hd := stands_of_write hdrop
    simp only [write, List.append_assoc] at hdrop
    have hes := drop_append hdrop
    have hend := endsAt_of_write (drop_append hes)
    refine ⟨⟨h.1, hs, h.2.1⟩, counts_of_entries h.2.1 h.2.2.1, _,
      atEntries_of_write es h.2.2.2 hes, ?_⟩
    simpa only [write, List.length_append, Nat.add_assoc] using hend

theorem atItems_of_write {data : List UInt8} : ∀ (xs : List Tree) {pos : Nat} {rest : List UInt8},
    WellFormedItems xs → data.drop pos = writeItems xs ++ rest →
    AtItems data pos xs (pos + (writeItems xs).length)
  | [], _, _, _, _ => rfl
  | x :: xs, pos, rest, h, hdrop => by
    simp only [writeItems, List.append_assoc] at hdrop
    have hxs := atItems_of_write xs h.2 (drop_append hdrop)
    refine ⟨_, at_of_write x h.1 hdrop, ?_⟩
    simpa only [writeItems, List.length_append, Nat.add_assoc] using hxs

theorem atEntries_of_write {data : List UInt8} : ∀ (es : List (Tree × Tree)) {pos : Nat}
    {rest : List UInt8}, WellFormedEntries es → data.drop pos = writeEntries es ++ rest →
    AtEntries data pos es (pos + (writeEntries es).length)
  | [], _, _, _, _ => rfl
  | (k, v) :: es, pos, rest, h, hdrop => by
    simp only [writeEntries, List.append_assoc] at hdrop
    have hv := drop_append hdrop
    have hes := atEntries_of_write es h.2.2 (drop_append hv)
    refine ⟨_, _, at_of_write k h.1 hdrop, at_of_write v h.2.1 hv, ?_⟩
    simpa only [writeEntries, List.length_append, Nat.add_assoc] using hes

end

/- Bytes that stand in the data up to a position. -/
def Written (data b : List UInt8) (pos stop : Nat) : Prop :=
  (∃ rest, data.drop pos = b ++ rest) ∧ stop = pos + b.length

theorem Written.append {data b c : List UInt8} {pos p stop : Nat} (hb : Written data b pos p)
    (hc : Written data c p stop) : Written data (b ++ c) pos stop := by
  obtain ⟨⟨rest, hrest⟩, rfl⟩ := hb
  obtain ⟨⟨rest', hrest'⟩, rfl⟩ := hc
  refine ⟨⟨rest', ?_⟩, ?_⟩
  · rw [hrest, List.append_assoc, ← hrest', drop_append hrest]
  · rw [List.length_append, Nat.add_assoc]

theorem written_ending {data : List UInt8} {h : Head} {p stop : Nat} (he : EndsAt data h p stop) :
    Written data h.ending p stop := by
  unfold Head.ending
  rcases he with ⟨hsome, rfl⟩ | ⟨hnone, hbreak, rfl⟩
  · cases harg : h.argument with
    | some n => exact ⟨⟨_, rfl⟩, rfl⟩
    | none => exact absurd harg hsome
  · rw [hnone]
    rw [← List.head?_drop] at hbreak
    obtain ⟨rest, hrest⟩ := List.head?_eq_some_iff.mp hbreak
    exact ⟨⟨rest, hrest⟩, rfl⟩

theorem written_string {data : List UInt8} {pos n : Nat} {b : List UInt8}
    (hb : b = (data.drop pos).take n) (hn : n = b.length) : Written data b pos (pos + n) := by
  refine ⟨⟨(data.drop pos).drop n, ?_⟩, by rw [hn]⟩
  rw [hb, List.take_append_drop]

mutual

/-- A well-formed tree that is read is written there, up to where the reader is. -/
theorem written_of_at {data : List UInt8} : ∀ (t : Tree) {pos stop : Nat}, WellFormed t →
    At data pos t stop → Written data (write t) pos stop
  | .nothing, _, _, h, _ => h.elim
  | .atom hd, pos, stop, _, h => ⟨h.1.2.1, h.2.2⟩
  | .string hd b, pos, stop, hwf, h => by
    obtain ⟨⟨-, hs, -⟩, n, hn, hb, rfl⟩ := h
    have hlength : n = b.length := Option.some.inj (hn.symm.trans hwf.2.2)
    exact Written.append ⟨hs, rfl⟩ (written_string hb hlength)
  | .items hd xs, pos, stop, hwf, h => by
    obtain ⟨⟨-, hs, -⟩, -, p, hxs, he⟩ := h
    exact Written.append ⟨hs, rfl⟩ ((written_of_atItems xs hwf.2.2 hxs).append (written_ending he))
  | .entries hd es, pos, stop, hwf, h => by
    obtain ⟨⟨-, hs, -⟩, -, p, hes, he⟩ := h
    exact Written.append ⟨hs, rfl⟩
      ((written_of_atEntries es hwf.2.2.2 hes).append (written_ending he))

theorem written_of_atItems {data : List UInt8} : ∀ (xs : List Tree) {pos p : Nat},
    WellFormedItems xs → AtItems data pos xs p → Written data (writeItems xs) pos p
  | [], pos, p, _, h => ⟨⟨data.drop pos, rfl⟩, h⟩
  | x :: xs, pos, p, hwf, h => by
    obtain ⟨q, hx, hxs⟩ := h
    exact (written_of_at x hwf.1 hx).append (written_of_atItems xs hwf.2 hxs)

theorem written_of_atEntries {data : List UInt8} : ∀ (es : List (Tree × Tree)) {pos p : Nat},
    WellFormedEntries es → AtEntries data pos es p → Written data (writeEntries es) pos p
  | [], pos, p, _, h => ⟨⟨data.drop pos, rfl⟩, h⟩
  | (k, v) :: es, pos, p, hwf, h => by
    obtain ⟨q, r, hk, hv, hes⟩ := h
    exact (written_of_at k hwf.1 hk).append
      ((written_of_at v hwf.2.1 hv).append (written_of_atEntries es hwf.2.2 hes))

end

end Tree

end Cbor
