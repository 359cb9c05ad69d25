import Credentialsd.Model

/-!
# Origins and app ids (`webauthn.rs`)

Both are parsed from strings that a client sends; an app id carries the proof
that the parser accepts it. The text functions follow those of `str`, on the
list of its characters.
-/

namespace Credentialsd

namespace Text

/- `str::strip_prefix`. -/
def stripPrefix (p s : List Char) : Option (List Char) :=
  if p.isPrefixOf s then some (s.drop p.length) else none

/- `str::split_once` at a character. -/
def splitOnce (c : Char) (s : List Char) : Option (List Char × List Char) :=
  match s.dropWhile (· != c) with
  | [] => none
  | _ :: rest => some (s.takeWhile (· != c), rest)

/- `str::contains`. -/
def contains (p : List Char) : List Char → Bool
  | [] => p.isEmpty
  | c :: s => p.isPrefixOf (c :: s) || contains p s

/- `str::parse::<u16>`: a sign `+` may come first. -/
def parseU16 (s : List Char) : Option UInt16 :=
  let digits := match s with
    | '+' :: rest => rest
    | _ => s
  if digits.isEmpty || !digits.all Char.isDigit then none
  else
    let n := digits.foldl (fun n c => 10 * n + (c.toNat - '0'.toNat)) 0
    if n < UInt16.size then some (UInt16.ofNat n) else none

/- `matches!(s.chars().nth(0), Some(c) if c.is_ascii_alphabetic())`. -/
def beginsWithLetter : List Char → Bool
  | c :: _ => c.isAlpha
  | [] => false

end Text

/-! ### App ids -/

/-- The checks of `AppId::from_str` (`webauthn.rs:26-51`). -/
def AppId.accepts (s : List Char) : Bool :=
  Text.beginsWithLetter s &&
  s.all (fun c => c.isAlphanum || c == '.' || c == '-' || c == '_') &&
  !Text.contains ['.', '.'] s &&
  !(s.getLast? == some '.')

structure AppId where
  val : String
  valid : AppId.accepts val.toList = true
  deriving Repr, DecidableEq

def AppId.fromStr (s : String) : Option AppId :=
  if h : AppId.accepts s.toList = true then some ⟨s, h⟩ else none

theorem AppId.fromStr_some {s : String} {appId : AppId} (h : AppId.fromStr s = some appId) :
    appId.val = s := by
  unfold fromStr at h
  split at h
  · cases h
    rfl
  · cases h

/-! ### Origins -/

inductive OriginParseError where
  | scheme
  | host
  | port
  deriving Repr, DecidableEq

def OriginParseError.display : OriginParseError → String
  | .scheme => "Invalid scheme"
  | .host => "Invalid host"
  | .port => "Invalid port"

inductive Origin where
  | https (host : String) (port : Option UInt16)
  | appId (id : AppId)
  deriving Repr, DecidableEq

namespace Origin

def display : Origin → String
  | .https host none => "https://" ++ host
  | .https host (some port) => "https://" ++ host ++ ":" ++ toString port
  | .appId id => "app:" ++ id.val

def splitPort (rest : List Char) : List Char × Option (List Char) :=
  match Text.splitOnce ':' rest with
  | some (h, p) => (h, some p)
  | none => (rest, none)

/- The checks of the host; each fails with the same error. -/
def acceptsHost (host : List Char) : Bool :=
  Text.beginsWithLetter host &&
  host.all (fun c => c.isAlphanum || c == '-' || c == '.') &&
  !(host.getLast? == some '.')

def fromHostPort (rest : List Char) : Except OriginParseError Origin :=
  if acceptsHost (splitPort rest).1 then
    let host := String.ofList ((splitPort rest).1.map Char.toLower)
    match (splitPort rest).2 with
    | none => .ok (.https host none)
    | some p =>
      match Text.parseU16 p with
      | some port => .ok (.https host (some port))
      | none => .error .port
  else .error .host

/-- `Origin::from_str` (`webauthn.rs:96-134`). -/
def fromStr (s : String) : Except OriginParseError Origin :=
  match Text.stripPrefix "https://".toList s.toList with
  | some rest => fromHostPort rest
  | none =>
    match Text.stripPrefix "app:".toList s.toList with
    | some rest =>
      match AppId.fromStr (String.ofList rest) with
      | some id => .ok (.appId id)
      | none => .error .host
    | none => .error .scheme

def isHttps : Origin → Bool
  | .https _ _ => true
  | .appId _ => false

theorem fromHostPort_isHttps {rest : List Char} {o : Origin} (h : fromHostPort rest = .ok o) :
    o.isHttps = true := by
  unfold fromHostPort at h
  split at h
  · split at h
    · cases h
      rfl
    · split at h
      · cases h
        rfl
      · cases h
  · cases h

end Origin

theorem Text.stripPrefix_some {p s rest : List Char} (h : Text.stripPrefix p s = some rest) :
    s = p ++ rest := by
  unfold Text.stripPrefix at h
  split at h
  · rename_i hp
    cases h
    exact (List.prefix_iff_eq_append.mp (List.isPrefixOf_iff_prefix.mp hp)).symm
  · cases h

theorem Text.stripPrefix_append (p rest : List Char) :
    Text.stripPrefix p (p ++ rest) = some rest := by
  have hp : p.isPrefixOf (p ++ rest) = true :=
    List.isPrefixOf_iff_prefix.mpr (List.prefix_append p rest)
  rw [Text.stripPrefix, if_pos hp, List.drop_left]

theorem AppId.fromStr_val (appId : AppId) : AppId.fromStr appId.val = some appId := by
  rw [AppId.fromStr, dif_pos appId.valid]

/- The origins of apps are the strings `app:` with an accepted app id. -/
theorem Origin.fromStr_appId_iff (s : String) (id : AppId) :
    Origin.fromStr s = .ok (.appId id) ↔ s.toList = "app:".toList ++ id.val.toList := by
  unfold Origin.fromStr
  constructor
  · intro h
    split at h
    · have hhttps := fromHostPort_isHttps h
      cases hhttps
    · split at h
      · rename_i rest hrest
        split at h
        · rename_i id' hid
          cases h
          have hval := AppId.fromStr_some hid
          rw [Text.stripPrefix_some hrest, hval]
          exact congrArg _ String.toList_ofList.symm
        · cases h
      · cases h
  · intro h
    have hnone : Text.stripPrefix "https://".toList s.toList = none := by
      rw [h]
      rfl
    rw [hnone, h, Text.stripPrefix_append]
    simp only [String.ofList_toList, AppId.fromStr_val]

/-- The origin of the request, and its top-level origin, if it is cross-origin. -/
inductive NavigationContext where
  | sameOrigin (origin : Origin)
  | crossOrigin (origin topOrigin : Origin)
  deriving Repr, DecidableEq

def NavigationContext.origins : NavigationContext → List Origin
  | .sameOrigin origin => [origin]
  | .crossOrigin origin topOrigin => [origin, topOrigin]

end Credentialsd
