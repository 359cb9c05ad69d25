import Credentialsd.Origins
import Credentialsd.Lib.Lines

/-!
# Who calls (`gateway/dbus.rs`, `gateway/mod.rs`)

The peer of a call is looked up at the bus, its pid is read from the text that procfs
keeps of its pidfd, and it is classified by its executable, if it runs in the mount
namespace of the daemon. The checks of the gateway start from this classification.
-/

namespace Credentialsd

namespace Text

/- `char::is_whitespace`. -/
def isWhitespace (c : Char) : Bool :=
  let n := c.toNat
  (9 ≤ n && n ≤ 13) || n == 32 || n == 0x85 || n == 0xA0 || n == 0x1680 ||
    (0x2000 ≤ n && n ≤ 0x200A) || n == 0x2028 || n == 0x2029 || n == 0x202F || n == 0x205F ||
    n == 0x3000

/- `str::parse::<u32>`: a sign `+` may come first. -/
def parseU32 (s : List Char) : Option UInt32 :=
  let digits := unsigned s
  if digits.isEmpty || !digits.all Char.isDigit then none
  else
    let n := Nat.ofDigitChars 10 digits 0
    if n < UInt32.size then some (UInt32.ofNat n) else none

/- `Path::components`: whether the path begins at the root, and its parts. Empty ones are left out
and so is `.`, but for a leading one. -/
def components (path : List Char) : Bool × List (List Char) :=
  let parts := path.splitOn '/'
  let kept := (parts.drop 1).filter fun part => part != [] && part != ['.']
  match parts.head? with
  | none => (false, kept)
  | some [] => (!path.isEmpty, kept)
  | some first => (false, first :: kept)

def samePath (p q : String) : Bool := components p.toList == components q.toList

end Text

namespace Gateway

/-- What the daemon asks of its surroundings: the peer's credentials with the pidfd if the bus has
one, files and links by their path, and what the build and the environment are. -/
structure System where
  build : Build
  /- `CREDSD_TRUSTED_CALLERS`, empty if unset. -/
  trustedCallersEnv : String
  connectionCredentials : String → Option (Option Nat)
  readToString : String → Option String
  readLink : String → Option String
  canonicalize : String → Option String

/- The text part of `query_peer_pid_via_fdinfo` (`dbus.rs:433-452`). -/
def pidOfFdinfo (fdinfo : String) : Option UInt32 :=
  match (Lines.lines fdinfo.toList).find? ("Pid:".toList.isPrefixOf ·) with
  | none => none
  | some pidLine => Text.parseU32 (Lines.trim Text.isWhitespace (pidLine.drop 4))

namespace System

variable (sys : System)

def queryPeerPidViaFdinfo (senderUniqueName : String) : Option UInt32 :=
  match sys.connectionCredentials senderUniqueName with
  | none => none
  | some none => none
  | some (some pidfd) =>
    match sys.readToString ("/proc/self/fdinfo/" ++ toString pidfd) with
    | none => none
    | some fdinfo => pidOfFdinfo fdinfo

def sidecarPath : String := "/usr/lib/credentials-portal-sidecar"

def portalPaths : List String :=
  ["/usr/lib/xdg-desktop-portal", "/usr/libexec/xdg-desktop-portal",
    "/usr/local/lib/xdg-desktop-portal", "/usr/local/libexec/xdg-desktop-portal"]

def trustedCallers : List String :=
  if sys.build.debugAssertions then
    portalPaths ++ (sys.trustedCallersEnv.toList.splitOn ',').filterMap fun path =>
      sys.canonicalize (String.ofList path)
  else portalPaths

/-- `trusted_caller` (`mod.rs:238-303`). -/
def trustedCaller (pid : UInt32) : Option TrustedCaller :=
  match sys.readLink "/proc/self/ns/mnt" with
  | none => none
  | some myMntNs =>
    match sys.readLink ("/proc/" ++ toString pid ++ "/ns/mnt") with
    | none => none
    | some peerMntNs =>
      if !Text.samePath myMntNs peerMntNs then none
      else
        match sys.readLink ("/proc/" ++ toString pid ++ "/exe") with
        | none => none
        | some exePath =>
          if Text.samePath exePath sidecarPath then some .sidecar
          else if !sys.trustedCallers.any (Text.samePath exePath) then none
          else some .desktopPortal

def peerPid (sender : Option String) : Option UInt32 :=
  sender.bind sys.queryPeerPidViaFdinfo

/-- The call as `validate_app_details` finds it; a peer without a pid is not classified. -/
def call (sender : Option String) (claimedAppId claimedOrigin : String)
    (claimedTopOrigin : Option String) : Call :=
  ⟨sys.build, sys.peerPid sender, (sys.peerPid sender).bind sys.trustedCaller, claimedAppId,
    claimedOrigin, claimedTopOrigin⟩

end System

/-! ### The pid that is read -/

theorem parseU32_toString (n : UInt32) : Text.parseU32 (toString n).toList = some n := by
  have hdigits : (toString n).toList = Nat.toDigits 10 n.toNat := Nat.toList_repr
  have hall : (Nat.toDigits 10 n.toNat).all Char.isDigit = true := by
    rw [List.all_eq_true]
    intro c hc
    exact Nat.isDigit_of_mem_toDigits (by decide) (by decide) hc
  have hne : (Nat.toDigits 10 n.toNat).isEmpty = false := by
    rw [List.isEmpty_eq_false_iff]
    exact Nat.toDigits_ne_nil
  have hlt : n.toNat < UInt32.size := n.toNat_lt
  rw [hdigits, Text.parseU32, Origin.unsigned_toDigits]
  simp only [hne, hall, Bool.not_true, Bool.or_false, Nat.ofDigitChars_ten_toDigits]
  rw [if_neg Bool.false_ne_true, if_pos hlt, UInt32.ofNat_toNat]

theorem parseU32_minus (digits : List Char) : Text.parseU32 ('-' :: digits) = none := by
  have hunsigned : Text.unsigned ('-' :: digits) = '-' :: digits := rfl
  have hall : ('-' :: digits).all Char.isDigit = false := rfl
  rw [Text.parseU32, hunsigned]
  simp only [hall, Bool.not_false, Bool.or_true, if_true]

theorem digit_not_whitespace {c : Char} (h : c.isDigit = true) : Text.isWhitespace c = false := by
  have hrange : 48 ≤ c.toNat ∧ c.toNat ≤ 57 := by
    rw [Char.isDigit, Bool.and_eq_true, decide_eq_true_eq, decide_eq_true_eq] at h
    exact h
  unfold Text.isWhitespace
  simp only [Bool.or_eq_false_iff, Bool.and_eq_false_iff, decide_eq_false_iff_not, beq_eq_false_iff_ne]
  omega

/- Without the `\r` of a line break, if the padding ends with one. -/
theorem chop_pad {core pad : List Char} (hcore : ∀ c ∈ core, Text.isWhitespace c = false)
    (hpad : ∀ c ∈ pad, Text.isWhitespace c = true) (label : List Char) (hne : core ≠ []) :
    ∃ pad', (∀ c ∈ pad', Text.isWhitespace c = true) ∧
      Lines.chop (label ++ core ++ pad) = label ++ core ++ pad' := by
  unfold Lines.chop
  by_cases hnil : pad = []
  · subst hnil
    have hlast : (label ++ core ++ []).getLast? ≠ some '\r' := by
      rw [List.append_nil, List.getLast?_append_of_ne_nil _ hne]
      intro h
      have hspace := hcore '\r' (List.mem_of_getLast? h)
      exact absurd hspace (by decide)
    exact ⟨[], hpad, if_neg hlast⟩
  · split
    · refine ⟨pad.dropLast, fun c hc => hpad c (List.mem_of_mem_dropLast hc), ?_⟩
      rw [List.dropLast_append_of_ne_nil hnil]
    · exact ⟨pad, hpad, rfl⟩

/-- The text of lines before the one of the pid, of that line with blanks on both sides of what it
says, and of any text after it. -/
def fdinfoText (before : List (List Char)) (pad pid tail after : List Char) : String :=
  String.ofList (before.flatMap (· ++ ['\n']) ++ ("Pid:".toList ++ pad ++ pid ++ tail) ++
    '\n' :: after)

theorem pidOfFdinfo_text {before : List (List Char)} {pad pid tail : List Char}
    (hbefore : ∀ line ∈ before, '\n' ∉ line ∧ ¬ "Pid:".toList <+: line)
    (hpad : ∀ c ∈ pad ++ tail, Text.isWhitespace c = true ∧ c ≠ '\n')
    (hpid : ∀ c ∈ pid, Text.isWhitespace c = false) (hne : pid ≠ []) (after : List Char) :
    pidOfFdinfo (fdinfoText before pad pid tail after) = Text.parseU32 pid := by
  have hline : '\n' ∉ "Pid:".toList ++ pad ++ pid ++ tail := by
    simp only [List.mem_append, not_or]
    refine ⟨⟨⟨by decide, fun h => ?_⟩, fun h => ?_⟩, fun h => ?_⟩
    · exact (hpad _ (List.mem_append_left _ h)).2 rfl
    · exact absurd (hpid _ h) (by decide)
    · exact (hpad _ (List.mem_append_right _ h)).2 rfl
  obtain ⟨tail', htail, hchop⟩ := chop_pad hpid
    (fun c hc => (hpad c (List.mem_append_right _ hc)).1) ("Pid:".toList ++ pad) hne
  have hskip : (before.map Lines.chop).find? ("Pid:".toList.isPrefixOf ·) = none := by
    rw [List.find?_eq_none]
    intro line hline
    obtain ⟨whole, hmem, rfl⟩ := List.mem_map.mp hline
    rw [List.isPrefixOf_iff_prefix]
    exact fun h => (hbefore whole hmem).2 (h.trans (Lines.chop_prefix whole))
  have hlines : Lines.lines (fdinfoText before pad pid tail after).toList =
      before.map Lines.chop ++ ("Pid:".toList ++ pad ++ pid ++ tail') :: Lines.lines after := by
    unfold fdinfoText
    rw [String.toList_ofList, List.append_assoc, Lines.lines_append fun l hl => (hbefore l hl).1,
      Lines.lines_cons hline, hchop]
  have htrim : Lines.trim Text.isWhitespace (pad ++ pid ++ tail') = pid :=
    Lines.trim_pad (fun c hc => (hpad c (List.mem_append_left _ hc)).1) hpid htail
  have hfound : (("Pid:".toList ++ pad ++ pid ++ tail') :: Lines.lines after).find?
      ("Pid:".toList.isPrefixOf ·) = some ("Pid:".toList ++ (pad ++ pid ++ tail')) := by
    rw [List.append_assoc, List.append_assoc, ← List.append_assoc pad pid]
    refine List.find?_cons_of_pos ?_
    rw [List.isPrefixOf_iff_prefix]
    exact List.prefix_append _ _
  have hdrop : ("Pid:".toList ++ (pad ++ pid ++ tail')).drop 4 = pad ++ pid ++ tail' := rfl
  unfold pidOfFdinfo
  rw [hlines, List.find?_append, hskip, Option.none_or, hfound]
  simp only [hdrop, htrim]

/-- Whatever the lines before and the text after, each pid is read back, and a negative one is not
taken for a pid. -/
theorem pid_read_back (before : List (List Char)) (pad tail after : List Char) (pid : UInt32)
    (hbefore : ∀ line ∈ before, '\n' ∉ line ∧ ¬ "Pid:".toList <+: line)
    (hpad : ∀ c ∈ pad ++ tail, Text.isWhitespace c = true ∧ c ≠ '\n') :
    pidOfFdinfo (fdinfoText before pad (toString pid).toList tail after) = some pid ∧
      pidOfFdinfo (fdinfoText before pad ('-' :: (toString pid).toList) tail after) = none := by
  have hdigits : (toString pid).toList = Nat.toDigits 10 pid.toNat := Nat.toList_repr
  have hspace : ∀ c ∈ (toString pid).toList, Text.isWhitespace c = false := by
    intro c hc
    rw [hdigits] at hc
    exact digit_not_whitespace (Nat.isDigit_of_mem_toDigits (by decide) (by decide) hc)
  have hne : (toString pid).toList ≠ [] := by
    rw [hdigits]
    exact Nat.toDigits_ne_nil
  constructor
  · rw [pidOfFdinfo_text hbefore hpad hspace hne, parseU32_toString]
  · have hminus : ∀ c ∈ '-' :: (toString pid).toList, Text.isWhitespace c = false :=
      List.forall_mem_cons.mpr ⟨by decide, hspace⟩
    rw [pidOfFdinfo_text hbefore hpad hminus (List.cons_ne_nil _ _), parseU32_minus]

theorem pid_read_back_pidfd :
    pidOfFdinfo (fdinfoText ["pos:\t0".toList, "ino:\t7".toList] ['\t'] "4242".toList []
        "NSpid:\t4242\n".toList) = some 4242 ∧
      pidOfFdinfo (fdinfoText ["pos:\t0".toList, "ino:\t7".toList] ['\t'] "-4242".toList []
        "NSpid:\t4242\n".toList) = none :=
  pid_read_back _ ['\t'] [] _ 4242 (by simp) (by simp [Text.isWhitespace])

/-! ### Who is trusted -/

/- The app is one that may act for any origin, in this build. -/
def PrivilegedApp (b : Build) (appId : String) : Prop :=
  appId ∈ privilegedAppIds ∨
    b.debugAssertions = true ∧ appId.toList ∈ b.trustedAppIds.toList.splitOn ',' ∧
      (AppId.fromStr appId).isSome = true

theorem isPrivilegedClient_build_iff (b : Build) (appId : AppId) :
    isPrivilegedClient b appId = true ↔
      appId.val ∈ privilegedAppIds ∨
        b.debugAssertions = true ∧ appId.val.toList ∈ b.trustedAppIds.toList.splitOn ',' := by
  have hrelease := isPrivilegedClient_iff b.trustedAppIds appId
  unfold isPrivilegedClient at hrelease ⊢
  rw [Bool.false_and, Bool.or_false] at hrelease
  rw [Bool.or_eq_true, hrelease, Bool.and_eq_true, List.contains_iff_mem]

theorem claimed_privileged_iff (b : Build) (caller : Option TrustedCaller)
    (claimedAppId : String) :
    (∃ s appId, resolveClaimedAppId claimedAppId caller = .ok s ∧ AppId.fromStr s = some appId ∧
        isPrivilegedClient b appId = true) ↔
      caller ≠ none ∧
        (PrivilegedApp b claimedAppId ∨ claimedAppId = "" ∧ caller = some .sidecar) := by
  constructor
  · rintro ⟨s, appId, hs, happ, hclient⟩
    obtain ⟨hcaller, ⟨-, rfl⟩ | ⟨hempty, hsidecar, -⟩⟩ := (resolveClaimedAppId_iff _ _ _).mp hs
    · rw [isPrivilegedClient_build_iff, AppId.fromStr_some happ] at hclient
      have hsome : (AppId.fromStr s).isSome = true := by rw [happ]; rfl
      exact ⟨hcaller, Or.inl (hclient.imp_right fun h => ⟨h.1, h.2, hsome⟩)⟩
    · exact ⟨hcaller, Or.inr ⟨hempty, hsidecar⟩⟩
  · rintro ⟨hcaller, (hmem | ⟨hdebug, hmem, hsome⟩) | hempty⟩
    · obtain ⟨s, appId, hs, happ, hlisted⟩ :=
        (trusted_appId_iff caller claimedAppId).mpr ⟨hcaller, Or.inl hmem⟩
      exact ⟨s, appId, hs, happ, (isPrivilegedClient_build_iff b appId).mpr (Or.inl hlisted)⟩
    · -- an id of the environment, which a release build does not read
      obtain ⟨appId, happ⟩ := Option.isSome_iff_exists.mp hsome
      have hne : claimedAppId ≠ "" := by
        intro h
        rw [h] at hsome
        exact absurd hsome (by decide)
      refine ⟨claimedAppId, appId, (resolveClaimedAppId_iff _ _ _).mpr ?_, happ, ?_⟩
      · exact ⟨hcaller, Or.inl ⟨hne, rfl⟩⟩
      · rw [isPrivilegedClient_build_iff, AppId.fromStr_some happ]
        exact Or.inr ⟨hdebug, hmem⟩
    · obtain ⟨s, appId, hs, happ, hlisted⟩ :=
        (trusted_appId_iff caller claimedAppId).mpr ⟨hcaller, Or.inr hempty⟩
      exact ⟨s, appId, hs, happ, (isPrivilegedClient_build_iff b appId).mpr (Or.inl hlisted)⟩

namespace System

variable (sys : System)

/- The process runs this executable, in the mount namespace of the daemon. -/
structure Runs (pid : UInt32) (exe : String) : Prop where
  mountNamespace : ∃ mine theirs, sys.readLink "/proc/self/ns/mnt" = some mine ∧
    sys.readLink ("/proc/" ++ toString pid ++ "/ns/mnt") = some theirs ∧
    Text.samePath mine theirs = true
  exe : sys.readLink ("/proc/" ++ toString pid ++ "/exe") = some exe

def IsSidecar (exe : String) : Prop := Text.samePath exe sidecarPath = true

/- One of the five fixed paths or, in a debug build only, a file that the environment names. -/
def TrustedPath (path : String) : Prop :=
  path = sidecarPath ∨ path ∈ portalPaths ∨
    sys.build.debugAssertions = true ∧ ∃ entry ∈ sys.trustedCallersEnv.toList.splitOn ',',
      sys.canonicalize (String.ofList entry) = some path

def Trusts (exe : String) : Prop := ∃ path, sys.TrustedPath path ∧ Text.samePath exe path = true

theorem mem_trustedCallers_iff (path : String) :
    path ∈ sys.trustedCallers ↔ path ∈ portalPaths ∨
      sys.build.debugAssertions = true ∧ ∃ entry ∈ sys.trustedCallersEnv.toList.splitOn ',',
        sys.canonicalize (String.ofList entry) = some path := by
  unfold trustedCallers
  cases sys.build.debugAssertions with
  | false => simp
  | true => simp only [if_true, List.mem_append, List.mem_filterMap, true_and]

theorem trusts_iff (exe : String) :
    sys.Trusts exe ↔ IsSidecar exe ∨ sys.trustedCallers.any (Text.samePath exe) = true := by
  rw [List.any_eq_true]
  constructor
  · rintro ⟨path, rfl | hpath, hsame⟩
    · exact Or.inl hsame
    · exact Or.inr ⟨path, (sys.mem_trustedCallers_iff path).mpr hpath, hsame⟩
  · rintro (hsame | ⟨path, hpath, hsame⟩)
    · exact ⟨sidecarPath, Or.inl rfl, hsame⟩
    · exact ⟨path, Or.inr ((sys.mem_trustedCallers_iff path).mp hpath), hsame⟩

/-- Only the executable and the namespace decide how a process is classified. -/
theorem trustedCaller_iff (pid : UInt32) (caller : TrustedCaller) :
    sys.trustedCaller pid = some caller ↔
      ∃ exe, sys.Runs pid exe ∧ sys.Trusts exe ∧ (caller = .sidecar ↔ IsSidecar exe) := by
  constructor
  · intro h
    unfold trustedCaller at h
    split at h
    · cases h
    rename_i mine hmine
    split at h
    · cases h
    rename_i theirs htheirs
    split at h
    · cases h
    rename_i hsame
    rw [Bool.not_eq_true', Bool.not_eq_false] at hsame
    split at h
    · cases h
    rename_i exe hexe
    refine ⟨exe, ⟨⟨mine, theirs, hmine, htheirs, hsame⟩, hexe⟩, ?_⟩
    rw [trusts_iff]
    split at h
    · rename_i hsidecar
      cases h
      exact ⟨Or.inl hsidecar, fun _ => hsidecar, fun _ => rfl⟩
    rename_i hother
    split at h
    · cases h
    rename_i hany
    rw [Bool.not_eq_true', Bool.not_eq_false] at hany
    cases h
    exact ⟨Or.inr hany, fun h => (by cases h), fun h => absurd h hother⟩
  · rintro ⟨exe, ⟨⟨mine, theirs, hmine, htheirs, hsame⟩, hexe⟩, htrusts, hkind⟩
    rw [trusts_iff] at htrusts
    simp only [trustedCaller, hmine, htheirs, hsame, hexe, Bool.not_true, Bool.false_eq_true,
      if_false]
    by_cases hsidecar : Text.samePath exe sidecarPath = true
    · rw [if_pos hsidecar, hkind.mpr hsidecar]
    · have hany := htrusts.resolve_left hsidecar
      rw [if_neg hsidecar, hany, Bool.not_true, if_neg Bool.false_ne_true]
      cases caller with
      | sidecar => exact absurd (hkind.mp rfl) hsidecar
      | desktopPortal => rfl

end System

/-! ### Accepted and privileged calls -/

theorem Call.validateAppDetails_ok {call : Call} {context : RequestContext}
    (h : call.validateAppDetails = .ok context) :
    call.pid = some context.pid ∧ ∃ s, resolveClaimedAppId call.claimedAppId call.caller = .ok s ∧
      AppId.fromStr s = some context.appId := by
  rcases call.parses_or_invalid with ⟨appId, origin, topOrigin, hp⟩ | herr
  · obtain ⟨pid, hpid⟩ := Option.ne_none_iff_exists'.mp hp.pid
    obtain ⟨s, hs, happ⟩ := hp.appId
    simp only [validateAppDetails, hpid, hs, happ, hp.origin, hp.topOrigin] at h
    split at h
    · cases h
    · cases h
      exact ⟨hpid, s, hs, happ⟩
  · rw [herr] at h
    cases h

theorem Call.privileged_build_iff (call : Call) :
    call.Privileged ↔ call.pid ≠ none ∧
      (∃ s appId, resolveClaimedAppId call.claimedAppId call.caller = .ok s ∧
        AppId.fromStr s = some appId ∧ isPrivilegedClient call.build appId = true) ∧
      ParsesHttps call.claimedOrigin ∧
      ∀ t, call.claimedTopOrigin = some t → ParsesHttps t := by
  rw [← parseTopOrigin_https_iff]
  constructor
  · intro hpriv
    rcases call.parses_or_invalid with ⟨appId, origin, topOrigin, hp⟩ | herr
    · obtain ⟨hclient, ho, ht⟩ := (Call.privileged_iff_of_parses hp).mp hpriv
      obtain ⟨s, hs, happ⟩ := hp.appId
      exact ⟨hp.pid, ⟨s, appId, hs, happ, hclient⟩, ⟨origin, hp.origin, ho⟩, topOrigin,
        hp.topOrigin, ht⟩
    · obtain ⟨context, hc, -⟩ := hpriv
      rw [herr] at hc
      cases hc
  · rintro ⟨hpid, ⟨s, appId, hs, happ, hclient⟩, ⟨origin, horigin, ho⟩, topOrigin, htop, ht⟩
    have hp : call.Parses appId origin topOrigin := ⟨hpid, ⟨s, hs, happ⟩, horigin, htop⟩
    exact (Call.privileged_iff_of_parses hp).mpr ⟨hclient, ho, ht⟩

namespace System

variable (sys : System)

/- The classification of a call, by the executable of its peer. -/
theorem caller_iff (sender : Option String) (claimedAppId claimedOrigin : String)
    (claimedTopOrigin : Option String) (caller : TrustedCaller) :
    (sys.call sender claimedAppId claimedOrigin claimedTopOrigin).caller = some caller ↔
      ∃ pid exe, sys.peerPid sender = some pid ∧ sys.Runs pid exe ∧ sys.Trusts exe ∧
        (caller = .sidecar ↔ IsSidecar exe) := by
  show (sys.peerPid sender).bind sys.trustedCaller = some caller ↔ _
  rw [Option.bind_eq_some_iff]
  constructor
  · rintro ⟨pid, hpid, hcaller⟩
    obtain ⟨exe, h⟩ := (sys.trustedCaller_iff pid caller).mp hcaller
    exact ⟨pid, exe, hpid, h⟩
  · rintro ⟨pid, exe, hpid, h⟩
    exact ⟨pid, hpid, (sys.trustedCaller_iff pid caller).mpr ⟨exe, h⟩⟩

theorem accepted_checked {sender : Option String} {claimedAppId claimedOrigin : String}
    {claimedTopOrigin : Option String} {context : RequestContext}
    (h : (sys.call sender claimedAppId claimedOrigin claimedTopOrigin).validateAppDetails =
      .ok context) :
    ∃ exe, sys.peerPid sender = some context.pid ∧ sys.Runs context.pid exe ∧ sys.Trusts exe ∧
      (context.appId.val = claimedAppId ∨
        claimedAppId = "" ∧ IsSidecar exe ∧ context.appId.val = "org.mozilla.firefox") := by
  obtain ⟨hpid, s, hs, happ⟩ := Call.validateAppDetails_ok h
  obtain ⟨hcaller, hwhich⟩ := (resolveClaimedAppId_iff _ _ _).mp hs
  obtain ⟨caller, hc⟩ := Option.ne_none_iff_exists'.mp hcaller
  obtain ⟨pid, exe, hpid', hruns, htrusts, hkind⟩ := (sys.caller_iff ..).mp hc
  have hsame : context.pid = pid := Option.some.inj (hpid.symm.trans hpid')
  subst hsame
  refine ⟨exe, hpid', hruns, htrusts, ?_⟩
  rw [AppId.fromStr_some happ]
  rcases hwhich with ⟨-, hclaimed⟩ | ⟨hempty, hsidecar, hfirefox⟩
  · exact Or.inl hclaimed
  · have hwho : caller = .sidecar := Option.some.inj (hc.symm.trans hsidecar)
    exact Or.inr ⟨hempty, hkind.mp hwho, hfirefox⟩

theorem privileged_procfs_iff (sender : Option String) (claimedAppId claimedOrigin : String)
    (claimedTopOrigin : Option String) :
    (sys.call sender claimedAppId claimedOrigin claimedTopOrigin).Privileged ↔
      (∃ pid exe, sys.peerPid sender = some pid ∧ sys.Runs pid exe ∧ sys.Trusts exe ∧
        (PrivilegedApp sys.build claimedAppId ∨ claimedAppId = "" ∧ IsSidecar exe)) ∧
      ParsesHttps claimedOrigin ∧ ∀ t, claimedTopOrigin = some t → ParsesHttps t := by
  rw [Call.privileged_build_iff, ← and_assoc, claimed_privileged_iff]
  refine and_congr_left fun _ => ?_
  constructor
  · rintro ⟨-, hcaller, hwhich⟩
    obtain ⟨caller, hc⟩ := Option.ne_none_iff_exists'.mp hcaller
    obtain ⟨pid, exe, hpid, hruns, htrusts, hkind⟩ := (sys.caller_iff ..).mp hc
    refine ⟨pid, exe, hpid, hruns, htrusts, hwhich.imp_right fun ⟨hempty, hsidecar⟩ => ?_⟩
    have hwho : caller = .sidecar := Option.some.inj (hc.symm.trans hsidecar)
    exact ⟨hempty, hkind.mp hwho⟩
  · rintro ⟨pid, exe, hpid, hruns, htrusts, hwhich⟩
    have hpid' : (sys.call sender claimedAppId claimedOrigin claimedTopOrigin).pid ≠ none := by
      show sys.peerPid sender ≠ none
      rw [hpid]
      exact Option.some_ne_none pid
    by_cases hsidecar : IsSidecar exe
    · have hc := (sys.caller_iff sender claimedAppId claimedOrigin claimedTopOrigin .sidecar).mpr
        ⟨pid, exe, hpid, hruns, htrusts, fun _ => hsidecar, fun _ => rfl⟩
      refine ⟨hpid', ?_, hwhich.imp_right fun h => ⟨h.1, hc⟩⟩
      rw [hc]
      exact Option.some_ne_none _
    · have hc := (sys.caller_iff sender claimedAppId claimedOrigin claimedTopOrigin
        .desktopPortal).mpr
        ⟨pid, exe, hpid, hruns, htrusts, fun h => (by cases h), fun h => absurd h hsidecar⟩
      refine ⟨hpid', ?_, hwhich.imp_right fun h => absurd h.2 hsidecar⟩
      rw [hc]
      exact Option.some_ne_none _

/-- What an accepted call names as its peer is the process whose executable was checked. A call is
privileged exactly for a trusted executable that names a privileged app, or no app if it is the
sidecar, with origins that are all `https`. -/
theorem trust_from_procfs (sender : Option String) (claimedAppId claimedOrigin : String)
    (claimedTopOrigin : Option String) :
    (∀ context, (sys.call sender claimedAppId claimedOrigin claimedTopOrigin).validateAppDetails =
        .ok context →
      ∃ exe, sys.peerPid sender = some context.pid ∧ sys.Runs context.pid exe ∧ sys.Trusts exe ∧
        (context.appId.val = claimedAppId ∨
          claimedAppId = "" ∧ IsSidecar exe ∧ context.appId.val = "org.mozilla.firefox")) ∧
    ((sys.call sender claimedAppId claimedOrigin claimedTopOrigin).Privileged ↔
      (∃ pid exe, sys.peerPid sender = some pid ∧ sys.Runs pid exe ∧ sys.Trusts exe ∧
        (PrivilegedApp sys.build claimedAppId ∨ claimedAppId = "" ∧ IsSidecar exe)) ∧
      ParsesHttps claimedOrigin ∧ ∀ t, claimedTopOrigin = some t → ParsesHttps t) :=
  ⟨fun _ h => sys.accepted_checked h,
    sys.privileged_procfs_iff sender claimedAppId claimedOrigin claimedTopOrigin⟩

/- The sidecar with pid 4242 calls, and the daemon is a release build. -/
def withSidecar : System where
  build := ⟨false, ""⟩
  trustedCallersEnv := ""
  connectionCredentials name := if name = ":1.42" then some (some 9) else none
  readToString path :=
    if path = "/proc/self/fdinfo/9" then some "pos:\t0\nPid:\t4242\nNSpid:\t4242\n" else none
  readLink path :=
    if path = "/proc/4242/exe" then some "/usr/lib/credentials-portal-sidecar"
    else if path = "/proc/self/ns/mnt" ∨ path = "/proc/4242/ns/mnt" then some "mnt:[1]"
    else none
  canonicalize _ := none

theorem trust_from_procfs_sidecar :
    (withSidecar.call (some ":1.42") "" "https://a.test" none).Privileged :=
  (trust_from_procfs withSidecar (some ":1.42") "" "https://a.test" none).2.mpr
    ⟨⟨4242, _, rfl, ⟨⟨_, _, rfl, rfl, rfl⟩, rfl⟩, ⟨_, Or.inl rfl, rfl⟩, Or.inr ⟨rfl, rfl⟩⟩,
      ⟨_, rfl, rfl⟩, fun t ht => by cases ht⟩

end System

end Gateway

end Credentialsd
