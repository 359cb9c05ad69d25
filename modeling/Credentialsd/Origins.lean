import Credentialsd.Gateway
import Credentialsd.Lib.Labels
import Mathlib

/-!
# What an origin and an app id are (`webauthn.rs`, `doc/api.md`)

The parsers scan a string a few times; the grammars they stand for speak of labels
and of decimal numbers. Here the strings that are accepted are compared with the
grammars, and the parsed values with the web origins that the strings denote.
-/

namespace Credentialsd

namespace Text

theorem contains_iff (p s : List Char) : contains p s = true ↔ p <:+: s := by
  induction s with
  | nil =>
    unfold contains
    rw [List.isEmpty_iff, List.infix_nil]
  | cons c s ih =>
    unfold contains
    rw [Bool.or_eq_true, List.isPrefixOf_iff_prefix, ih, List.infix_cons_iff]

theorem beginsWithLetter_iff (s : List Char) :
    beginsWithLetter s = true ↔ ∃ c ∈ s.head?, c.isAlpha = true := by
  cases s with
  | nil => exact ⟨nofun, fun ⟨_, h, _⟩ => nomatch h⟩
  | cons c s =>
    refine ⟨fun h => ⟨c, rfl, h⟩, ?_⟩
    rintro ⟨d, hd, h⟩
    cases hd
    exact h

theorem isAlphanum_ascii {c : Char} (h : c.isAlphanum = true) : c.toNat < 128 := by
  simp only [Char.isAlphanum, Char.isAlpha, Char.isUpper, Char.isLower, Char.isDigit,
    Bool.or_eq_true, Bool.and_eq_true, decide_eq_true_eq] at h
  have hbound : c.val ≤ 122 := by
    rcases h with (⟨-, hc⟩ | ⟨-, hc⟩) | ⟨-, hc⟩
    · exact UInt32.le_trans hc (by decide)
    · exact hc
    · exact UInt32.le_trans hc (by decide)
  have hnat : c.toNat ≤ 122 := hbound
  omega

/- Every label has an item, and the first one begins with a letter. -/
theorem noEmptyLabel_iff {s : List Char} (h : beginsWithLetter s = true) :
    [] ∉ s.splitOn '.' ↔ contains ['.', '.'] s = false ∧ (s.getLast? == some '.') = false := by
  obtain ⟨c, hc, hletter⟩ := (beginsWithLetter_iff s).mp h
  have hne : s ≠ [] := by
    rintro rfl
    cases hc
  have hhead : s.head? ≠ some '.' := by
    intro hdot
    rw [hdot] at hc
    cases hc
    revert hletter
    decide
  rw [Labels.nil_notMem_iff, ← Bool.not_eq_true, contains_iff, beq_eq_false_iff_ne]
  exact ⟨fun hl => hl.2.2, fun hl => ⟨hne, hhead, hl⟩⟩

end Text

/-! ### App ids -/

/- The characters of a label of an app id. -/
def AppId.IsLabelChar (c : Char) : Prop := c.isAlphanum = true ∨ c = '-' ∨ c = '_'

theorem AppId.accepts_iff (s : List Char) :
    AppId.accepts s = true ↔
      (∀ l ∈ s.splitOn '.', l ≠ [] ∧ ∀ c ∈ l, AppId.IsLabelChar c) ∧
        ∃ c ∈ s.head?, c.isAlpha = true := by
  have hchars : s.all (fun c => c.isAlphanum || c == '.' || c == '-' || c == '_') = true ↔
      ∀ l ∈ s.splitOn '.', ∀ c ∈ l, AppId.IsLabelChar c := by
    rw [Labels.forall_labels, List.all_eq_true]
    refine forall₂_congr fun c _ => ?_
    unfold AppId.IsLabelChar
    simp only [Bool.or_eq_true, beq_iff_eq]
    tauto
  have hlabels : (∀ l ∈ s.splitOn '.', l ≠ [] ∧ ∀ c ∈ l, AppId.IsLabelChar c) ↔
      [] ∉ s.splitOn '.' ∧ ∀ l ∈ s.splitOn '.', ∀ c ∈ l, AppId.IsLabelChar c := by
    refine ⟨fun h => ⟨fun hnil => (h [] hnil).1 rfl, fun l hl => (h l hl).2⟩, ?_⟩
    rintro ⟨hnil, h⟩ l hl
    exact ⟨fun hempty => hnil (hempty ▸ hl), h l hl⟩
  unfold AppId.accepts
  rw [hlabels, ← hchars, ← Text.beginsWithLetter_iff]
  simp only [Bool.and_eq_true, Bool.not_eq_true']
  constructor
  · rintro ⟨⟨⟨hletter, hall⟩, hdots⟩, hlast⟩
    exact ⟨⟨(Text.noEmptyLabel_iff hletter).mpr ⟨hdots, hlast⟩, hall⟩, hletter⟩
  · rintro ⟨⟨hnil, hall⟩, hletter⟩
    obtain ⟨hdots, hlast⟩ := (Text.noEmptyLabel_iff hletter).mp hnil
    exact ⟨⟨⟨hletter, hall⟩, hdots⟩, hlast⟩

theorem AppId.fromStr_isSome (s : String) :
    (∃ id, AppId.fromStr s = some id) ↔ AppId.accepts s.toList = true := by
  unfold AppId.fromStr
  by_cases h : AppId.accepts s.toList = true
  · rw [dif_pos h]
    exact ⟨fun _ => h, fun _ => ⟨_, rfl⟩⟩
  · rw [dif_neg h]
    exact ⟨nofun, fun hs => absurd hs h⟩

/- The characters of an accepted app id, dots included. -/
theorem AppId.accepts_chars {s : List Char} (h : AppId.accepts s = true) {c : Char} (hc : c ∈ s) :
    c = '.' ∨ AppId.IsLabelChar c := by
  have hlabels := (AppId.accepts_iff s).mp h
  have hchars := (Labels.forall_labels '.' AppId.IsLabelChar s).mp fun l hl => (hlabels.1 l hl).2
  by_cases hdot : c = '.'
  · exact Or.inl hdot
  · exact Or.inr (hchars c hc hdot)

/-- An app id is accepted iff its labels are non-empty words over the alphabet and it begins with a
letter; it is kept as it is, and is no path and plain ASCII. -/
theorem AppId.fromStr_iff (s : String) :
    ((∃ id, AppId.fromStr s = some id) ↔
      (∀ l ∈ s.toList.splitOn '.', l ≠ [] ∧ ∀ c ∈ l, AppId.IsLabelChar c) ∧
        ∃ c ∈ s.toList.head?, c.isAlpha = true) ∧
    ∀ id, AppId.fromStr s = some id →
      id.val = s ∧ '/' ∉ s.toList ∧ '\\' ∉ s.toList ∧ [] ∉ s.toList.splitOn '.' ∧
        ∀ c ∈ s.toList, c.toNat < 128 := by
  refine ⟨(AppId.fromStr_isSome s).trans (AppId.accepts_iff s.toList), ?_⟩
  intro id h
  have haccepts := (AppId.fromStr_isSome s).mp ⟨id, h⟩
  have hlabels := (AppId.accepts_iff s.toList).mp haccepts
  have hchar {c : Char} (hc : c ∈ s.toList) := AppId.accepts_chars haccepts hc
  unfold AppId.IsLabelChar at hchar
  refine ⟨AppId.fromStr_some h, ?_, ?_, fun hnil => (hlabels.1 [] hnil).1 rfl, ?_⟩
  · intro hslash
    have hbad := hchar hslash
    revert hbad
    decide
  · intro hslash
    have hbad := hchar hslash
    revert hbad
    decide
  · intro c hc
    rcases hchar hc with rfl | halnum | rfl | rfl
    · decide
    · exact Text.isAlphanum_ascii halnum
    · decide
    · decide

/-- The id that the tests parse. -/
theorem AppId.fromStr_example :
    (⟨"com.example.ExampleApp", by decide⟩ : AppId).val = "com.example.ExampleApp" :=
  ((AppId.fromStr_iff "com.example.ExampleApp").2 _ rfl).1

/-! ### What the parser accepts -/

namespace Origin

/- What stands behind the host of an origin. -/
def portText : Option (List Char) → List Char
  | none => []
  | some p => ':' :: p

def render (host : List Char) (port : Option (List Char)) : List Char :=
  "https://".toList ++ host ++ portText port

theorem render_append (host : List Char) (port : Option (List Char)) :
    render host port = "https://".toList ++ (host ++ portText port) :=
  List.append_assoc _ _ _

/- `port_candidate.map(|p| p.parse()).transpose()`. -/
def parsePort : Option (List Char) → Option (Option UInt16)
  | none => some none
  | some p => (Text.parseU16 p).map some

def lower (host : List Char) : String := String.ofList (host.map Char.toLower)

/- The strings that `from_str` accepts, with what it makes of them. -/
inductive Accepted : List Char → Origin → Prop
  | https {host : List Char} {p : Option (List Char)} {port : Option UInt16} :
    acceptsHost host = true → parsePort p = some port →
      Accepted (render host p) (.https (lower host) port)
  | appId (id : AppId) : Accepted ("app:".toList ++ id.val.toList) (.appId id)

theorem splitPort_portText {host : List Char} (h : ':' ∉ host) (p : Option (List Char)) :
    splitPort (host ++ portText p) = (host, p) := by
  have hall : ∀ c ∈ host, (c != ':') = true := by
    intro c hc
    rw [bne_iff_ne]
    rintro rfl
    exact h hc
  cases p with
  | none =>
    have hdrop : host.dropWhile (· != ':') = [] := List.dropWhile_eq_nil_iff.mpr hall
    unfold splitPort Text.splitOnce portText
    rw [List.append_nil, hdrop]
  | some p =>
    have hdrop : (host ++ ':' :: p).dropWhile (· != ':') = ':' :: p := by
      rw [List.dropWhile_append_of_pos hall, List.dropWhile_cons_of_neg (by decide)]
    have htake : (host ++ ':' :: p).takeWhile (· != ':') = host := by
      rw [List.takeWhile_append_of_pos hall, List.takeWhile_cons_of_neg (by decide),
        List.append_nil]
    unfold splitPort Text.splitOnce portText
    rw [hdrop, htake]

theorem portText_splitPort (rest : List Char) :
    (splitPort rest).1 ++ portText (splitPort rest).2 = rest := by
  have hsplit := List.takeWhile_append_dropWhile (p := (· != ':')) (l := rest)
  unfold splitPort Text.splitOnce
  cases hd : rest.dropWhile (· != ':') with
  | nil => exact List.append_nil rest
  | cons c tail =>
    have hc : c = ':' := by
      have hfirst := List.head?_dropWhile_not (· != ':') rest
      rw [hd] at hfirst
      simpa using hfirst
    rw [hd, hc] at hsplit
    exact hsplit

theorem acceptsHost_iff (host : List Char) :
    acceptsHost host = true ↔
      Text.beginsWithLetter host = true ∧
        (∀ c ∈ host, c.isAlphanum = true ∨ c = '-' ∨ c = '.') ∧
        (host.getLast? == some '.') = false := by
  unfold acceptsHost
  simp only [Bool.and_eq_true, Bool.not_eq_true', List.all_eq_true, Bool.or_eq_true, beq_iff_eq,
    and_assoc, or_assoc]

theorem acceptsHost_colon {host : List Char} (h : acceptsHost host = true) : ':' ∉ host := by
  intro hcolon
  have hbad := ((acceptsHost_iff host).mp h).2.1 ':' hcolon
  revert hbad
  decide

theorem fromHostPort_iff {host : List Char} {p : Option (List Char)} (hcolon : ':' ∉ host)
    (o : Origin) :
    fromHostPort (host ++ portText p) = .ok o ↔
      acceptsHost host = true ∧ ∃ port, parsePort p = some port ∧ o = .https (lower host) port := by
  unfold fromHostPort
  rw [splitPort_portText hcolon]
  by_cases hhost : acceptsHost host = true
  · rw [if_pos hhost]
    cases p with
    | none =>
      constructor
      · rintro ⟨⟩
        exact ⟨hhost, none, rfl, rfl⟩
      · rintro ⟨-, port, hport, rfl⟩
        cases hport
        rfl
    | some p =>
      have hparse : parsePort (some p) = (Text.parseU16 p).map some := rfl
      rw [hparse]
      cases hu : Text.parseU16 p with
      | none =>
        refine ⟨by simp [hu], ?_⟩
        rintro ⟨-, port, hport, -⟩
        cases hport
      | some n =>
        constructor
        · intro h
          simp only [hu, Except.ok.injEq] at h
          exact ⟨hhost, some n, rfl, h.symm⟩
        · rintro ⟨-, port, hport, rfl⟩
          cases hport
          simp only [hu]
          rfl
  · rw [if_neg hhost]
    exact ⟨nofun, fun h => absurd h.1 hhost⟩

/-- `from_str` accepts these strings and gives these values. -/
theorem fromStr_ok_iff (s : String) (o : Origin) : fromStr s = .ok o ↔ Accepted s.toList o := by
  constructor
  · intro h
    cases hs : Text.stripPrefix "https://".toList s.toList with
    | some rest =>
      have hrest := Text.stripPrefix_some hs
      have hparse : fromHostPort rest = .ok o := by
        unfold fromStr at h
        simpa only [hs] using h
      have hcolon : ':' ∉ (splitPort rest).1 := by
        have haccepts : acceptsHost (splitPort rest).1 = true := by
          by_contra hno
          unfold fromHostPort at hparse
          rw [if_neg hno] at hparse
          cases hparse
        exact acceptsHost_colon haccepts
      rw [← portText_splitPort rest, fromHostPort_iff hcolon] at hparse
      obtain ⟨hhost, port, hport, rfl⟩ := hparse
      have hrender : s.toList = render (splitPort rest).1 (splitPort rest).2 := by
        rw [render_append, portText_splitPort]
        exact hrest
      rw [hrender]
      exact .https hhost hport
    | none =>
      have happ : ∃ id, o = .appId id := by
        unfold fromStr at h
        simp only [hs] at h
        split at h
        · split at h
          · rename_i id _
            exact ⟨id, (Except.ok.inj h).symm⟩
          · cases h
        · cases h
      obtain ⟨id, rfl⟩ := happ
      rw [(fromStr_appId_iff s id).mp h]
      exact .appId id
  · intro h
    generalize hs : s.toList = chars at h
    cases h with
    | @https host p port hhost hport =>
      have hstrip : Text.stripPrefix "https://".toList s.toList = some (host ++ portText p) := by
        rw [hs, render_append]
        exact Text.stripPrefix_append _ _
      unfold fromStr
      simp only [hstrip]
      exact (fromHostPort_iff (acceptsHost_colon hhost) _).mpr ⟨hhost, port, hport, rfl⟩
    | appId id => exact (fromStr_appId_iff s id).mpr hs

/-! ### The grammar of origins -/

/- An encoded label, in any case. -/
def IsPunycode (l : List Char) : Prop := "xn--".toList <+: l.map Char.toLower

/- A host of the documentation: no Unicode and no Punycode. -/
structure IsHost (host : List Char) : Prop where
  labels : ∀ l ∈ host.splitOn '.', l ≠ [] ∧ ∀ c ∈ l, c.isAlphanum = true ∨ c = '-'
  ascii : ∀ l ∈ host.splitOn '.', ¬ IsPunycode l
  letter : ∃ c ∈ host.head?, c.isAlpha = true

/- A port number in decimal digits. -/
def IsPort (digits : List Char) (n : Nat) : Prop :=
  digits ≠ [] ∧ (∀ c ∈ digits, c.isDigit = true) ∧ n = Nat.ofDigitChars 10 digits 0 ∧ n ≤ 65535

def WrittenPort : Option (List Char) → Option UInt16 → Prop
  | none, port => port = none
  | some digits, port => ∃ n, IsPort digits n ∧ port = some (UInt16.ofNat n)

/- The strings of the grammar and the values they stand for. -/
inductive Written : List Char → Origin → Prop
  | https {host : List Char} {p : Option (List Char)} {port : Option UInt16} :
    IsHost host → WrittenPort p port → Written (render host p) (.https (lower host) port)
  | appId (id : AppId) : Written ("app:".toList ++ id.val.toList) (.appId id)

def BeginsWithPlus : Option (List Char) → Prop
  | some ('+' :: _) => True
  | _ => False

/- An origin that passes the scans of the parser but has a label that is empty or encoded, or a
signed port. -/
def SlipsThrough (s : List Char) : Prop :=
  ∃ host p, s = render host p ∧ acceptsHost host = true ∧ (parsePort p).isSome = true ∧
    ([] ∈ host.splitOn '.' ∨ (∃ l ∈ host.splitOn '.', IsPunycode l) ∨ BeginsWithPlus p)

theorem isHost_iff (host : List Char) :
    IsHost host ↔ acceptsHost host = true ∧ [] ∉ host.splitOn '.' ∧
      ∀ l ∈ host.splitOn '.', ¬ IsPunycode l := by
  have hchars := Labels.forall_labels '.' (fun c => c.isAlphanum = true ∨ c = '-') host
  rw [acceptsHost_iff]
  constructor
  · rintro ⟨hlabels, hascii, hletter⟩
    have hfirst := (Text.beginsWithLetter_iff host).mpr hletter
    have hnil : [] ∉ host.splitOn '.' := fun hnil => (hlabels [] hnil).1 rfl
    have hall := hchars.mp fun l hl => (hlabels l hl).2
    refine ⟨⟨hfirst, ?_, ((Text.noEmptyLabel_iff hfirst).mp hnil).2⟩, hnil, hascii⟩
    intro c hc
    by_cases hdot : c = '.'
    · exact Or.inr (Or.inr hdot)
    · exact (hall c hc hdot).imp_right Or.inl
  · rintro ⟨⟨hfirst, hall, -⟩, hnil, hascii⟩
    have hlabels := hchars.mpr fun c hc hdot =>
      (hall c hc).imp_right fun h => h.resolve_right hdot
    exact ⟨fun l hl => ⟨fun hempty => hnil (hempty ▸ hl), hlabels l hl⟩, hascii,
      (Text.beginsWithLetter_iff host).mp hfirst⟩

end Origin

/- The digits of a port, behind the sign that the integer parser allows. -/
def Text.unsigned : List Char → List Char
  | '+' :: digits => digits
  | digits => digits

theorem Text.parseU16_eq (s : List Char) :
    Text.parseU16 s =
      if (Text.unsigned s).isEmpty || !(Text.unsigned s).all Char.isDigit then none
      else if Nat.ofDigitChars 10 (Text.unsigned s) 0 < UInt16.size then
        some (UInt16.ofNat (Nat.ofDigitChars 10 (Text.unsigned s) 0))
      else none := by
  cases s with
  | nil => rfl
  | cons c s =>
    by_cases hc : c = '+'
    · subst hc
      rfl
    · have hunsigned : Text.unsigned (c :: s) = c :: s := by
        unfold Text.unsigned
        split
        · rename_i heq
          exact absurd (List.head_eq_of_cons_eq heq) hc
        · rfl
      rw [hunsigned]
      unfold Text.parseU16
      split
      · rename_i heq
        exact absurd (List.head_eq_of_cons_eq heq) hc
      · rfl

theorem Text.parseU16_iff (s : List Char) (n : UInt16) :
    Text.parseU16 s = some n ↔ Origin.IsPort (Text.unsigned s) n.toNat := by
  have hsize : UInt16.size = 65536 := rfl
  unfold Origin.IsPort
  rw [Text.parseU16_eq]
  generalize Text.unsigned s = digits
  by_cases hbad : (digits.isEmpty || !digits.all Char.isDigit) = true
  · rw [if_pos hbad]
    refine ⟨nofun, ?_⟩
    rintro ⟨hne, hall, -, -⟩
    rw [Bool.or_eq_true, List.isEmpty_iff, Bool.not_eq_true', ← Bool.not_eq_true,
      List.all_eq_true] at hbad
    exact (hbad.elim hne fun h => h hall).elim
  · rw [if_neg hbad]
    rw [Bool.or_eq_true, not_or, List.isEmpty_iff, Bool.not_eq_true', Bool.not_eq_false,
      List.all_eq_true] at hbad
    by_cases hlt : Nat.ofDigitChars 10 digits 0 < UInt16.size
    · rw [if_pos hlt, Option.some.injEq]
      constructor
      · rintro rfl
        rw [UInt16.toNat_ofNat_of_lt' hlt]
        exact ⟨hbad.1, hbad.2, rfl, by omega⟩
      · rintro ⟨-, -, hn, -⟩
        rw [← hn, UInt16.ofNat_toNat]
    · rw [if_neg hlt]
      refine ⟨nofun, ?_⟩
      rintro ⟨-, -, hn, hle⟩
      omega

namespace Origin

theorem isPort_unsigned {digits : List Char} {n : Nat} (h : IsPort digits n) :
    Text.unsigned digits = digits := by
  unfold Text.unsigned
  split
  · have hplus := h.2.1 '+' List.mem_cons_self
    exact absurd hplus (by decide)
  · rfl

/- A port is written in digits iff the integer parser takes it and it has no sign. -/
theorem writtenPort_iff (p : Option (List Char)) (port : Option UInt16) :
    WrittenPort p port ↔ parsePort p = some port ∧ ¬ BeginsWithPlus p := by
  cases p with
  | none =>
    constructor
    · rintro rfl
      exact ⟨rfl, nofun⟩
    · rintro ⟨h, -⟩
      exact (Option.some.inj h).symm
  | some digits =>
    have hparse : parsePort (some digits) = some port ↔
        ∃ n, Text.parseU16 digits = some n ∧ some n = port := Option.map_eq_some_iff
    rw [hparse]
    constructor
    · rintro ⟨n, hn, rfl⟩
      have hlt : n < UInt16.size := Nat.lt_succ_of_le hn.2.2.2
      have hunsigned := isPort_unsigned hn
      refine ⟨⟨UInt16.ofNat n, (Text.parseU16_iff digits _).mpr ?_, rfl⟩, ?_⟩
      · rw [hunsigned, UInt16.toNat_ofNat_of_lt' hlt]
        exact hn
      · intro hplus
        unfold BeginsWithPlus at hplus
        split at hplus
        · rename_i heq
          cases heq
          have hdigit := hn.2.1 '+' List.mem_cons_self
          revert hdigit
          decide
        · exact hplus
    · rintro ⟨⟨n, hn, rfl⟩, hplus⟩
      have hunsigned : Text.unsigned digits = digits := by
        unfold Text.unsigned
        split
        · exact absurd trivial hplus
        · rfl
      rw [Text.parseU16_iff, hunsigned] at hn
      exact ⟨n.toNat, hn, by rw [UInt16.ofNat_toNat]⟩

theorem render_inj {host host' : List Char} {p p' : Option (List Char)} (h : ':' ∉ host)
    (h' : ':' ∉ host') (heq : render host p = render host' p') : host = host' ∧ p = p' := by
  rw [render_append, render_append] at heq
  have hrest := congrArg splitPort (List.append_cancel_left heq)
  rw [splitPort_portText h, splitPort_portText h'] at hrest
  exact Prod.mk.inj hrest

theorem app_ne_render (id host : List Char) (p : Option (List Char)) :
    "app:".toList ++ id ≠ render host p := by
  intro h
  rw [render_append] at h
  have hfirst : 'a' = 'h' := List.head_eq_of_cons_eq h
  revert hfirst
  decide

/- The grammar has the accepted strings that do not slip through. -/
theorem written_iff (s : List Char) (o : Origin) :
    Written s o ↔ Accepted s o ∧ ¬ SlipsThrough s := by
  constructor
  · intro h
    cases h with
    | @https host p port hhost hport =>
      obtain ⟨haccepts, hnil, hascii⟩ := (isHost_iff host).mp hhost
      obtain ⟨hparse, hplus⟩ := (writtenPort_iff p port).mp hport
      refine ⟨.https haccepts hparse, ?_⟩
      rintro ⟨host', p', heq, haccepts', -, hslip⟩
      obtain ⟨rfl, rfl⟩ :=
        render_inj (acceptsHost_colon haccepts) (acceptsHost_colon haccepts') heq
      rcases hslip with hempty | ⟨l, hl, hcode⟩ | hsign
      · exact hnil hempty
      · exact hascii l hl hcode
      · exact hplus hsign
    | appId id =>
      refine ⟨.appId id, ?_⟩
      rintro ⟨host, p, heq, -⟩
      exact app_ne_render _ _ _ heq
  · rintro ⟨h, hslip⟩
    cases h with
    | @https host p port hhost hport =>
      have hsome : (parsePort p).isSome = true := by rw [hport, Option.isSome_some]
      have hclean (hbad : [] ∈ host.splitOn '.' ∨ (∃ l ∈ host.splitOn '.', IsPunycode l) ∨
          BeginsWithPlus p) : False := hslip ⟨host, p, rfl, hhost, hsome, hbad⟩
      refine .https ((isHost_iff host).mpr ⟨hhost, ?_, ?_⟩)
        ((writtenPort_iff p port).mpr ⟨hport, ?_⟩)
      · exact fun hempty => hclean (Or.inl hempty)
      · exact fun l hl hcode => hclean (Or.inr (Or.inl ⟨l, hl, hcode⟩))
      · exact fun hsign => hclean (Or.inr (Or.inr hsign))
    | appId id => exact .appId id

theorem accepted_of_slips {s : List Char} (h : SlipsThrough s) : ∃ o, Accepted s o := by
  obtain ⟨host, p, rfl, hhost, hport, -⟩ := h
  obtain ⟨port, hp⟩ := Option.isSome_iff_exists.mp hport
  exact ⟨_, .https hhost hp⟩

/- What slips through is accepted and is not in the grammar. -/
theorem not_grammar_of_slips {s : String} (h : SlipsThrough s.toList) :
    ¬ ∀ o, fromStr s = .ok o ↔ Written s.toList o := by
  intro hall
  obtain ⟨o, ho⟩ := accepted_of_slips h
  have hwritten := (hall o).mp ((fromStr_ok_iff s o).mpr ho)
  exact ((written_iff s.toList o).mp hwritten).2 h

/-- The parser agrees with the grammar exactly on the strings that do not slip through. -/
theorem fromStr_grammar (s : String) :
    (∀ o, fromStr s = .ok o ↔ Written s.toList o) ↔ ¬ SlipsThrough s.toList := by
  constructor
  · exact fun hall hslip => not_grammar_of_slips hslip hall
  · intro hslip o
    rw [fromStr_ok_iff, written_iff]
    exact ⟨fun h => ⟨h, hslip⟩, fun h => h.1⟩

/-- An empty label, an encoded one and a signed port. -/
theorem fromStr_slips :
    (¬ ∀ o, fromStr "https://a..b" = .ok o ↔ Written "https://a..b".toList o) ∧
    (¬ ∀ o, fromStr "https://xn--a.test" = .ok o ↔ Written "https://xn--a.test".toList o) ∧
    ¬ ∀ o, fromStr "https://a.test:+443" = .ok o ↔ Written "https://a.test:+443".toList o := by
  refine ⟨not_grammar_of_slips ?_, not_grammar_of_slips ?_, not_grammar_of_slips ?_⟩
  · exact ⟨"a..b".toList, none, rfl, by decide, rfl, Or.inl (by decide)⟩
  · exact ⟨"xn--a.test".toList, none, rfl, by decide, rfl,
      Or.inr (Or.inl ⟨"xn--a".toList, by decide, by unfold IsPunycode; decide⟩)⟩
  · exact ⟨"a.test".toList, some "+443".toList, rfl, by decide, rfl, Or.inr (Or.inr trivial)⟩

/-! ### Web origins -/

/- The port of an origin, 443 if it has none. -/
def effectivePort : Option (List Char) → Nat
  | none => 443
  | some p => Nat.ofDigitChars 10 (Text.unsigned p) 0

/- The web origin that a string denotes: its host in lower case and its port. -/
inductive Denotes : List Char → List Char × Nat → Prop
  | mk {host : List Char} {p : Option (List Char)} : ':' ∉ host →
    Denotes (render host p) (host.map Char.toLower, effectivePort p)

def SameWebOrigin (a b : List Char) : Prop := ∃ w, Denotes a w ∧ Denotes b w

/- One string leaves the default port out and the other one writes it. -/
def DefaultPortOnce (a b : List Char) : Prop :=
  ∃ host host' p, ':' ∉ host ∧ ':' ∉ host' ∧ host.map Char.toLower = host'.map Char.toLower ∧
    effectivePort (some p) = 443 ∧
    (a = render host none ∧ b = render host' (some p) ∨
      a = render host (some p) ∧ b = render host' none)

theorem denotes_iff {host : List Char} (h : ':' ∉ host) (p : Option (List Char))
    (w : List Char × Nat) :
    Denotes (render host p) w ↔ w = (host.map Char.toLower, effectivePort p) := by
  constructor
  · intro hw
    generalize hs : render host p = s at hw
    cases hw with
    | mk h' =>
      obtain ⟨rfl, rfl⟩ := render_inj h h' hs
      rfl
  · rintro rfl
    exact .mk h

theorem sameWebOrigin_iff {host host' : List Char} (h : ':' ∉ host) (h' : ':' ∉ host')
    (p p' : Option (List Char)) :
    SameWebOrigin (render host p) (render host' p') ↔
      host.map Char.toLower = host'.map Char.toLower ∧ effectivePort p = effectivePort p' := by
  unfold SameWebOrigin
  simp only [denotes_iff h, denotes_iff h']
  constructor
  · rintro ⟨w, hw, hw'⟩
    exact Prod.mk.inj (hw.symm.trans hw')
  · rintro ⟨hhost, hport⟩
    exact ⟨_, rfl, by rw [hhost, hport]⟩

theorem defaultPortOnce_iff {host host' : List Char} (h : ':' ∉ host) (h' : ':' ∉ host')
    (p p' : Option (List Char)) :
    DefaultPortOnce (render host p) (render host' p') ↔
      host.map Char.toLower = host'.map Char.toLower ∧
        ((p = none ∧ ∃ q, p' = some q ∧ effectivePort p' = 443) ∨
          (p' = none ∧ ∃ q, p = some q ∧ effectivePort p = 443)) := by
  constructor
  · rintro ⟨host₁, host₂, q, h₁, h₂, hhost, hport, ⟨ha, hb⟩ | ⟨ha, hb⟩⟩
    · obtain ⟨rfl, rfl⟩ := render_inj h h₁ ha
      obtain ⟨rfl, rfl⟩ := render_inj h' h₂ hb
      exact ⟨hhost, Or.inl ⟨rfl, q, rfl, hport⟩⟩
    · obtain ⟨rfl, rfl⟩ := render_inj h h₁ ha
      obtain ⟨rfl, rfl⟩ := render_inj h' h₂ hb
      exact ⟨hhost, Or.inr ⟨rfl, q, rfl, hport⟩⟩
  · rintro ⟨hhost, ⟨rfl, q, rfl, hport⟩ | ⟨rfl, q, rfl, hport⟩⟩
    · exact ⟨host, host', q, h, h', hhost, hport, Or.inl ⟨rfl, rfl⟩⟩
    · exact ⟨host, host', q, h, h', hhost, hport, Or.inr ⟨rfl, rfl⟩⟩

/- The effective port of what is parsed. -/
def portOr443 : Option UInt16 → Nat
  | none => 443
  | some n => n.toNat

theorem parsePort_effective {p : Option (List Char)} {port : Option UInt16}
    (h : parsePort p = some port) :
    effectivePort p = portOr443 port ∧ (p = none ↔ port = none) := by
  cases p with
  | none =>
    cases h
    exact ⟨rfl, fun _ => rfl, fun _ => rfl⟩
  | some digits =>
    obtain ⟨n, hn, rfl⟩ := Option.map_eq_some_iff.mp h
    have hvalue := ((Text.parseU16_iff digits n).mp hn).2.2.1
    exact ⟨hvalue.symm, nofun, nofun⟩

theorem lower_inj {host host' : List Char} :
    lower host = lower host' ↔ host.map Char.toLower = host'.map Char.toLower :=
  String.ofList_inj

/- Two optional ports are equal iff they are so in effect, unless one of them is the default. -/
theorem ports_eq_iff (port port' : Option UInt16) :
    (port = port' ↔ portOr443 port = portOr443 port') ↔
      ¬ ((port = none ∧ port' ≠ none ∧ portOr443 port' = 443) ∨
        (port' = none ∧ port ≠ none ∧ portOr443 port = 443)) := by
  cases port with
  | none =>
    cases port' with
    | none => simp
    | some n =>
      simp only [portOr443]
      constructor
      · rintro h (⟨-, -, hn⟩ | ⟨h', -⟩)
        · cases h.mpr hn.symm
        · cases h'
      · intro h
        exact ⟨nofun, fun hn => absurd (Or.inl ⟨trivial, nofun, hn.symm⟩) h⟩
  | some m =>
    cases port' with
    | none =>
      simp only [portOr443]
      constructor
      · rintro h (⟨h', -⟩ | ⟨-, -, hn⟩)
        · cases h'
        · cases h.mpr hn
      · intro h
        exact ⟨nofun, fun hn => absurd (Or.inr ⟨trivial, nofun, hn⟩) h⟩
    | some n =>
      simp only [portOr443, Option.some.injEq, UInt16.toNat_inj]
      simp

theorem checkOrigin_sameOrigin {oa ob : Origin} (ha : oa.isHttps = true) (hb : ob.isHttps = true) :
    Gateway.checkOriginFromPrivilegedClient oa (some ob) = .ok (.sameOrigin oa) ↔ oa = ob := by
  cases oa with
  | appId id => cases ha
  | https host port =>
    cases ob with
    | appId id => cases hb
    | https host' port' =>
      show (if Origin.https host port = .https host' port' then
        Except.ok (NavigationContext.sameOrigin (.https host port)) else _) = _ ↔ _
      by_cases heq : Origin.https host port = .https host' port'
      · rw [if_pos heq]
        exact ⟨fun _ => heq, fun _ => rfl⟩
      · rw [if_neg heq]
        exact ⟨nofun, fun h => absurd h heq⟩

/-- Parsed origins are equal iff the strings denote one web origin, unless the two differ in
leaving out the default port; a privileged client is told apart by the same comparison. -/
theorem sameOrigin_iff (a b : String) (oa ob : Origin) (ha : fromStr a = .ok oa)
    (hb : fromStr b = .ok ob) (hsa : oa.isHttps = true) (hsb : ob.isHttps = true) :
    ((oa = ob ↔ SameWebOrigin a.toList b.toList) ↔ ¬ DefaultPortOnce a.toList b.toList) ∧
    ((Gateway.checkOriginFromPrivilegedClient oa (some ob) = .ok (.sameOrigin oa) ↔
      SameWebOrigin a.toList b.toList) ↔ ¬ DefaultPortOnce a.toList b.toList) := by
  rw [fromStr_ok_iff] at ha hb
  rw [checkOrigin_sameOrigin hsa hsb]
  suffices hmain : (oa = ob ↔ SameWebOrigin a.toList b.toList) ↔
      ¬ DefaultPortOnce a.toList b.toList from ⟨hmain, hmain⟩
  generalize a.toList = s at ha
  generalize b.toList = t at hb
  cases ha with
  | appId id => cases hsa
  | @https host p port hhost hport =>
    cases hb with
    | appId id => cases hsb
    | @https host' p' port' hhost' hport' =>
      have hc := acceptsHost_colon hhost
      have hc' := acceptsHost_colon hhost'
      obtain ⟨heff, hnone⟩ := parsePort_effective hport
      obtain ⟨heff', hnone'⟩ := parsePort_effective hport'
      have hports := ports_eq_iff port port'
      rw [sameWebOrigin_iff hc hc', defaultPortOnce_iff hc hc', Origin.https.injEq, lower_inj,
        heff, heff', hnone, hnone']
      have hsome {q : Option (List Char)} {n : Option UInt16} (h : q = none ↔ n = none) :
          (∃ r, q = some r ∧ portOr443 n = 443) ↔ n ≠ none ∧ portOr443 n = 443 := by
        rw [exists_and_right, ← Option.ne_none_iff_exists', ne_eq, h]
      rw [hsome hnone, hsome hnone']
      by_cases heq : host.map Char.toLower = host'.map Char.toLower
      · simpa only [heq, true_and] using hports
      · simp only [heq, false_and, not_false_eq_true]

/-- The origins of the tests, on one host and on two ports. -/
theorem sameOrigin_iff_ports :
    (Origin.https "example.org" none = .https "example.org" (some 8443) ↔
      SameWebOrigin "https://example.org".toList "https://Example.org:8443".toList) ↔
      ¬ DefaultPortOnce "https://example.org".toList "https://Example.org:8443".toList :=
  (sameOrigin_iff "https://example.org" "https://Example.org:8443" (.https "example.org" none)
    (.https "example.org" (some 8443)) (by decide) (by decide) rfl rfl).1

/-- With and without the default port. -/
theorem sameOrigin_default_port :
    ∃ oa ob, fromStr "https://example.org" = .ok oa ∧ fromStr "https://example.org:443" = .ok ob ∧
      SameWebOrigin "https://example.org".toList "https://example.org:443".toList ∧ oa ≠ ob ∧
      Gateway.checkOriginFromPrivilegedClient oa (some ob) = .ok (.crossOrigin oa ob) := by
  have h : ':' ∉ "example.org".toList := by decide
  refine ⟨.https "example.org" none, .https "example.org" (some 443), by decide, by decide, ?_,
    by decide, by decide⟩
  exact (sameWebOrigin_iff h h none (some "443".toList)).mpr ⟨rfl, by decide⟩

/-! ### Display -/

theorem unsigned_toDigits (n : Nat) : Text.unsigned (Nat.toDigits 10 n) = Nat.toDigits 10 n := by
  unfold Text.unsigned
  split
  · rename_i digits heq
    have hplus := Nat.isDigit_of_mem_toDigits (b := 10) (n := n) (by decide) (by decide)
      (heq ▸ List.mem_cons_self)
    exact absurd hplus (by decide)
  · rfl

/- A port that is printed is parsed back. -/
theorem parseU16_toString (n : UInt16) : Text.parseU16 (toString n).toList = some n := by
  have hdigits : (toString n).toList = Nat.toDigits 10 n.toNat := Nat.toList_repr
  have hlt : n.toNat < 65536 := n.toNat_lt
  rw [Text.parseU16_iff, hdigits, unsigned_toDigits]
  refine ⟨Nat.toDigits_ne_nil, ?_, Nat.ofDigitChars_ten_toDigits.symm, by omega⟩
  intro c hc
  exact Nat.isDigit_of_mem_toDigits (by decide) (by decide) hc

theorem lower_lower (host : List Char) : lower (lower host).toList = lower host := by
  unfold lower
  rw [String.toList_ofList, List.map_map]
  congr 1
  exact List.map_congr_left fun c _ => Char.toLower_toLower_eq_toLower c

theorem toLower_cases (c : Char) :
    c.toLower = c ∨ (c.isAlpha = true ∧ c.toLower.isAlpha = true) := by
  by_cases h : c.isUpper = true
  · have halpha : c.isAlpha = true := by
      unfold Char.isAlpha
      rw [h, Bool.true_or]
    exact Or.inr ⟨halpha, by rw [Char.isAlpha_toLower_eq_isAlpha, halpha]⟩
  · exact Or.inl (Char.toLower_eq_of_not_isUpper h)

/- The scans do not depend on the case. -/
theorem acceptsHost_lower {host : List Char} (h : acceptsHost host = true) :
    acceptsHost (host.map Char.toLower) = true := by
  rw [acceptsHost_iff] at h ⊢
  obtain ⟨hfirst, hall, hlast⟩ := h
  refine ⟨?_, ?_, ?_⟩
  · cases host with
    | nil => cases hfirst
    | cons c host => exact (Char.isAlpha_toLower_eq_isAlpha c).trans hfirst
  · intro d hd
    obtain ⟨c, hc, rfl⟩ := List.mem_map.mp hd
    rcases toLower_cases c with heq | ⟨-, halpha⟩
    · rw [heq]
      exact hall c hc
    · unfold Char.isAlphanum
      rw [halpha]
      exact Or.inl rfl
  · rw [List.getLast?_map, beq_eq_false_iff_ne]
    rw [beq_eq_false_iff_ne] at hlast
    intro hdot
    obtain ⟨c, hc, hcdot⟩ := Option.map_eq_some_iff.mp hdot
    rcases toLower_cases c with heq | ⟨-, halpha⟩
    · rw [← heq, hcdot] at hc
      exact hlast hc
    · rw [hcdot] at halpha
      exact absurd halpha (by decide)

/- What is displayed, as a string of the parser. -/
theorem display_toList (host : List Char) (port : Option UInt16) :
    (Origin.https (lower host) port).display.toList =
      render (lower host).toList (port.map fun n => (toString n).toList) := by
  cases port with
  | none =>
    unfold display render portText
    rw [String.toList_append, Option.map_none, List.append_nil]
  | some n =>
    unfold display render portText
    rw [String.toList_append, String.toList_append, String.toList_append, Option.map_some,
      List.append_assoc]
    rfl

/- Every accepted value is accepted again from what it displays. -/
theorem accepted_display {s : List Char} {o : Origin} (h : Accepted s o) :
    Accepted o.display.toList o := by
  cases h with
  | @https host p port hhost hport =>
    have hlower : acceptsHost (lower host).toList = true := by
      unfold lower
      rw [String.toList_ofList]
      exact acceptsHost_lower hhost
    have hprinted : parsePort (port.map fun n => (toString n).toList) = some port := by
      cases port with
      | none => rfl
      | some n =>
        show (Text.parseU16 (toString n).toList).map some = _
        rw [parseU16_toString, Option.map_some]
    have haccepted := Accepted.https hlower hprinted
    rw [lower_lower] at haccepted
    rw [display_toList]
    exact haccepted
  | appId id =>
    unfold display
    rw [String.toList_append]
    exact .appId id

/- An origin string after one pass of the parser and `Display`. -/
def normalise (s : String) : Except OriginParseError String := (fromStr s).map display

/-- Parsing what is displayed gives the value back, so normalising twice is normalising once and
leaves the origin as it is. -/
theorem fromStr_display :
    (∀ s o, fromStr s = .ok o → fromStr o.display = .ok o) ∧
    ∀ s t, normalise s = .ok t → normalise t = .ok t ∧ fromStr t = fromStr s := by
  have hdisplay (s : String) (o : Origin) (h : fromStr s = .ok o) : fromStr o.display = .ok o :=
    (fromStr_ok_iff _ _).mpr (accepted_display ((fromStr_ok_iff s o).mp h))
  refine ⟨hdisplay, ?_⟩
  intro s t h
  unfold normalise at h ⊢
  cases hs : fromStr s with
  | error err =>
    rw [hs] at h
    cases h
  | ok o =>
    rw [hs] at h
    cases h
    have hagain := hdisplay s o hs
    rw [hagain]
    exact ⟨rfl, rfl⟩

/-- Upper case and a padded port. -/
theorem fromStr_display_padded :
    normalise "https://Example.org:08443" = .ok "https://example.org:8443" ∧
    normalise "https://example.org:8443" = .ok "https://example.org:8443" ∧
    fromStr "https://example.org:8443" = fromStr "https://Example.org:08443" := by
  have h : normalise "https://Example.org:08443" = .ok "https://example.org:8443" := by decide
  exact ⟨h, fromStr_display.2 _ _ h⟩

end Origin

end Credentialsd
