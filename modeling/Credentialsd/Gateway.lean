import Credentialsd.WebAuthn

/-!
# The gateway (`gateway/mod.rs`, `gateway/dbus.rs`, `gateway/util.rs`)

From the strings that a caller claims to the navigation context that the
authenticator library is given: the app id is resolved, app id and origins are
parsed, the origins are checked against the app, and the result is converted.
The peer's pid and its classification come from D-Bus and procfs and are
parameters, as are the build profile and the library's own origin parser.
-/

namespace Credentialsd

namespace Gateway

inductive WebAuthnError where
  | abortError
  | constraintError
  | invalidStateError
  | notSupportedError
  | securityError
  | notAllowedError
  | typeError
  deriving Repr, DecidableEq

inductive Error where
  | zBus (msg : String)
  | abortError
  | constraintError
  | invalidStateError
  | notSupportedError
  | securityError
  | notAllowedError
  | typeError
  deriving Repr, DecidableEq

def Error.ofWebAuthn : WebAuthnError → Error
  | .abortError => .abortError
  | .constraintError => .constraintError
  | .invalidStateError => .invalidStateError
  | .notSupportedError => .notSupportedError
  | .securityError => .securityError
  | .notAllowedError => .notAllowedError
  | .typeError => .typeError

/-- `cfg!(debug_assertions)` and `CREDSD_TRUSTED_APP_IDS`, empty if unset. -/
structure Build where
  debugAssertions : Bool
  trustedAppIds : String
  deriving Repr, DecidableEq

inductive TrustedCaller where
  | desktopPortal
  | sidecar
  deriving Repr, DecidableEq

inductive RequestKind where
  | privileged (origin : Origin) (topOrigin : Option Origin)
  | unprivileged (origin : Origin)
  deriving Repr, DecidableEq

structure RequestContext where
  appId : AppId
  pid : UInt32
  requestKind : RequestKind
  deriving Repr, DecidableEq

def canonicalPrivilegedAppId (appId : AppId) : String :=
  if appId.val = "firefox" then "org.mozilla.firefox" else appId.val

/-- The first half of `check_origin_from_app` (`mod.rs:310-328`). -/
def isPrivilegedClient (b : Build) (appId : AppId) : Bool :=
  ["org.mozilla.firefox", "xyz.iinuwa.credentialsd.DemoCredentialsUi"].contains
    (canonicalPrivilegedAppId appId) ||
  (b.debugAssertions && (b.trustedAppIds.toList.splitOn ',').contains appId.val.toList)

def checkOriginFromPrivilegedClient :
    Origin → Option Origin → Except WebAuthnError NavigationContext
  | .https host port, none => .ok (.sameOrigin (.https host port))
  | .https host port, some (.https topHost topPort) =>
    if Origin.https host port = .https topHost topPort then .ok (.sameOrigin (.https host port))
    else .ok (.crossOrigin (.https host port) (.https topHost topPort))
  | _, _ => .error .securityError

def checkOriginFromApp (b : Build) (appId : AppId) (origin : Origin) (topOrigin : Option Origin) :
    Except WebAuthnError RequestKind :=
  if isPrivilegedClient b appId then
    match checkOriginFromPrivilegedClient origin topOrigin with
    | .ok (.sameOrigin origin) => .ok (.privileged origin none)
    | .ok (.crossOrigin origin topOrigin) => .ok (.privileged origin (some topOrigin))
    | .error err => .error err
  else .ok (.unprivileged origin)

def resolveClaimedAppId (claimedAppId : String) : Option TrustedCaller → Except Error String
  | none => .error .securityError
  | some caller =>
    if claimedAppId.isEmpty then
      if caller ≠ .sidecar then .error .securityError else .ok "org.mozilla.firefox"
    else .ok claimedAppId

/-- What `validate_app_details` reads of a call: the pid and the classification of the peer, if they
can be found out, and what the peer claims. -/
structure Call where
  build : Build
  pid : Option UInt32
  caller : Option TrustedCaller
  claimedAppId : String
  claimedOrigin : String
  claimedTopOrigin : Option String
  deriving Repr, DecidableEq

def parseTopOrigin : Option String → Except Error (Option Origin)
  | none => .ok none
  | some s =>
    match Origin.fromStr s with
    | .ok o => .ok (some o)
    | .error _ => .error .securityError

namespace Call

/-- `validate_app_details` (`dbus.rs:336-383`). -/
def validateAppDetails (call : Call) : Except Error RequestContext :=
  match call.pid with
  | none => .error .securityError
  | some pid =>
    match resolveClaimedAppId call.claimedAppId call.caller with
    | .error err => .error err
    | .ok claimedAppId =>
      match AppId.fromStr claimedAppId with
      | none => .error .securityError
      | some appId =>
        match Origin.fromStr call.claimedOrigin with
        | .error _ => .error .securityError
        | .ok origin =>
          match parseTopOrigin call.claimedTopOrigin with
          | .error err => .error err
          | .ok topOrigin =>
            match checkOriginFromApp call.build appId origin topOrigin with
            | .error err => .error (.ofWebAuthn err)
            | .ok requestKind => .ok ⟨appId, pid, requestKind⟩

end Call

/-- `validate_request` (`mod.rs:211-230`). -/
def validateRequest (context : RequestContext) : Except WebAuthnError NavigationContext :=
  match context.requestKind with
  | .privileged origin topOrigin => checkOriginFromPrivilegedClient origin topOrigin
  | .unprivileged origin =>
    let originAllowedForAppId := true
    if originAllowedForAppId then .ok (.sameOrigin origin) else .error .securityError

/-- The navigation context that a call is handled with. -/
def Call.navigationContext (call : Call) : Except Error NavigationContext :=
  match call.validateAppDetails with
  | .error err => .error err
  | .ok context => (validateRequest context).mapError .ofWebAuthn

/-! ### The conversion for the library -/

inductive RequestOrigin (α : Type) where
  | new (origin : α)
  | newCrossOrigin (origin topOrigin : α)
  deriving Repr, DecidableEq

section conversion

variable {α : Type} (parse : String → Option α)

/-- `TryFrom<&Origin>`; `parse` is the library's parser. -/
def libOrigin : Origin → Except Panic (Except WebAuthnError α)
  | .https host port =>
    match parse (Origin.https host port).display with
    | some o => .ok (.ok o)
    | none => .ok (.error .securityError)
  | .appId _ => .error (.unimplemented "AppId origins are not supported")

def requestOrigin : NavigationContext → Except Panic (Except WebAuthnError (RequestOrigin α))
  | .sameOrigin o => (libOrigin parse o).map fun r => r.map .new
  | .crossOrigin o top =>
    match libOrigin parse o with
    | .error p => .error p
    | .ok (.error err) => .ok (.error err)
    | .ok (.ok o) => (libOrigin parse top).map fun r => r.map (.newCrossOrigin o)

end conversion

/-! ### What is accepted -/

/-- The call gets as far as the check of its origins. -/
structure Call.Parses (call : Call) (appId : AppId) (origin : Origin) (topOrigin : Option Origin) :
    Prop where
  pid : call.pid ≠ none
  appId : ∃ s, resolveClaimedAppId call.claimedAppId call.caller = .ok s ∧
    AppId.fromStr s = some appId
  origin : Origin.fromStr call.claimedOrigin = .ok origin
  topOrigin : parseTopOrigin call.claimedTopOrigin = .ok topOrigin

theorem resolveClaimedAppId_error {claimedAppId : String} {caller : Option TrustedCaller}
    {err : Error} (h : resolveClaimedAppId claimedAppId caller = .error err) :
    err = .securityError := by
  unfold resolveClaimedAppId at h
  split at h
  · cases h
    rfl
  · split at h
    · split at h
      · cases h
        rfl
      · cases h
    · cases h

theorem parseTopOrigin_error {claimed : Option String} {err : Error}
    (h : parseTopOrigin claimed = .error err) : err = .securityError := by
  unfold parseTopOrigin at h
  split at h
  · cases h
  · split at h
    · cases h
    · cases h
      rfl

/- The only error of the check is `SecurityError`; what it accepts it accepts again. -/
theorem checkOriginFromPrivilegedClient_cases (origin : Origin) (topOrigin : Option Origin) :
    checkOriginFromPrivilegedClient origin topOrigin = .error .securityError ∧
        (origin.isHttps = false ∨ ∃ t, topOrigin = some t ∧ t.isHttps = false) ∨
      origin.isHttps = true ∧ (∀ t, topOrigin = some t → t.isHttps = true) ∧
        ((topOrigin = none ∨ topOrigin = some origin) ∧
            checkOriginFromPrivilegedClient origin topOrigin = .ok (.sameOrigin origin) ∨
          ∃ t, topOrigin = some t ∧ t ≠ origin ∧
            checkOriginFromPrivilegedClient origin topOrigin = .ok (.crossOrigin origin t)) := by
  cases origin with
  | appId id =>
    left
    cases topOrigin with
    | none => exact ⟨rfl, Or.inl rfl⟩
    | some t => exact ⟨rfl, Or.inl rfl⟩
  | https host port =>
    cases topOrigin with
    | none => exact Or.inr ⟨rfl, nofun, Or.inl ⟨Or.inl rfl, rfl⟩⟩
    | some t =>
      cases t with
      | appId id => exact Or.inl ⟨rfl, Or.inr ⟨_, rfl, rfl⟩⟩
      | https topHost topPort =>
        refine Or.inr ⟨rfl, fun t ht => by cases ht; rfl, ?_⟩
        by_cases he : Origin.https host port = .https topHost topPort
        · exact Or.inl ⟨Or.inr (by rw [he]), if_pos he⟩
        · exact Or.inr ⟨_, rfl, fun h => he h.symm, if_neg he⟩

theorem Call.validateAppDetails_of_parses {call : Call} {appId : AppId} {origin : Origin}
    {topOrigin : Option Origin} (h : call.Parses appId origin topOrigin) :
    ∃ pid, call.validateAppDetails =
      match checkOriginFromApp call.build appId origin topOrigin with
      | .error err => .error (.ofWebAuthn err)
      | .ok requestKind => .ok ⟨appId, pid, requestKind⟩ := by
  obtain ⟨pid, hpid⟩ := Option.ne_none_iff_exists'.mp h.pid
  obtain ⟨s, hs, happ⟩ := h.appId
  exact ⟨pid, by simp only [validateAppDetails, hpid, hs, happ, h.origin, h.topOrigin]⟩

theorem Call.navigationContext_of_parses {call : Call} {appId : AppId} {origin : Origin}
    {topOrigin : Option Origin} (h : call.Parses appId origin topOrigin) :
    call.navigationContext =
      if isPrivilegedClient call.build appId then
        (checkOriginFromPrivilegedClient origin topOrigin).mapError .ofWebAuthn
      else .ok (.sameOrigin origin) := by
  obtain ⟨pid, hdetails⟩ := validateAppDetails_of_parses h
  rw [navigationContext, hdetails]
  unfold checkOriginFromApp
  cases hpriv : isPrivilegedClient call.build appId with
  | false => rfl
  | true =>
    rcases checkOriginFromPrivilegedClient_cases origin topOrigin with
      ⟨herr, -⟩ | ⟨hhttps, -, ⟨-, hok⟩ | ⟨t, rfl, -, hok⟩⟩
    · rw [herr]
      rfl
    · -- checked a second time, without the top origin
      have hagain : checkOriginFromPrivilegedClient origin none = .ok (.sameOrigin origin) := by
        cases origin with
        | https host port => rfl
        | appId id => cases hhttps
      simp only [if_true, hok, validateRequest, hagain]
    · simp only [if_true, hok, validateRequest]

theorem Call.parses_or_invalid (call : Call) :
    (∃ appId origin topOrigin, call.Parses appId origin topOrigin) ∨
      call.validateAppDetails = .error .securityError := by
  unfold validateAppDetails
  split
  · exact Or.inr rfl
  · rename_i pid hpid
    split
    · rename_i err herr
      exact Or.inr (by rw [resolveClaimedAppId_error herr])
    · rename_i s hs
      split
      · exact Or.inr rfl
      · rename_i appId happ
        split
        · exact Or.inr rfl
        · rename_i origin horigin
          split
          · rename_i err herr
            exact Or.inr (by rw [parseTopOrigin_error herr])
          · rename_i topOrigin htop
            refine Or.inl ⟨appId, origin, topOrigin, ?_, ⟨s, hs, happ⟩, horigin, htop⟩
            rw [hpid]
            exact Option.some_ne_none pid

theorem Call.parses_or_rejected (call : Call) :
    (∃ appId origin topOrigin, call.Parses appId origin topOrigin) ∨
      call.navigationContext = .error .securityError := by
  refine call.parses_or_invalid.imp id fun herr => ?_
  rw [navigationContext, herr]

/-! ### Only HTTPS origins -/

def ParsesHttps (s : String) : Prop := ∃ o, Origin.fromStr s = .ok o ∧ o.isHttps = true

theorem libOrigin_https {α : Type} (parse : String → Option α) {o : Origin}
    (h : o.isHttps = true) :
    (∃ l, libOrigin parse o = .ok (.ok l)) ∨ libOrigin parse o = .ok (.error .securityError) := by
  cases o with
  | appId id => cases h
  | https host port =>
    cases hparse : parse (Origin.https host port).display with
    | some l => exact Or.inl ⟨l, by simp only [libOrigin, hparse]⟩
    | none => exact Or.inr (by simp only [libOrigin, hparse])

theorem requestOrigin_https {α : Type} (parse : String → Option α) {nav : NavigationContext}
    (h : ∀ o ∈ nav.origins, o.isHttps = true) :
    (∃ r, requestOrigin parse nav = .ok (.ok r)) ∨
      requestOrigin parse nav = .ok (.error .securityError) := by
  cases nav with
  | sameOrigin o =>
    rcases libOrigin_https parse (h o (List.mem_cons_self ..)) with ⟨l, hl⟩ | hl
    · exact Or.inl ⟨.new l, by rw [requestOrigin, hl]; rfl⟩
    · exact Or.inr (by rw [requestOrigin, hl]; rfl)
  | crossOrigin o top =>
    rcases libOrigin_https parse (h o (List.mem_cons_self ..)) with ⟨l, hl⟩ | hl
    · rcases libOrigin_https parse (h top (List.mem_cons_of_mem _ (List.mem_cons_self ..)))
        with ⟨m, hm⟩ | hm
      · exact Or.inl ⟨.newCrossOrigin l m, by rw [requestOrigin, hl, hm]; rfl⟩
      · exact Or.inr (by rw [requestOrigin, hl, hm]; rfl)
    · exact Or.inr (by rw [requestOrigin, hl])

/-- What the rule asks of a call: its context has `https` origins only and converts without a panic,
and without an `https` origin it is rejected. -/
structure Call.HttpsOnly (call : Call) : Prop where
  https : ∀ nav, call.navigationContext = .ok nav → ∀ o ∈ nav.origins, o.isHttps = true
  converts : ∀ nav, call.navigationContext = .ok nav →
    ∀ (α : Type) (parse : String → Option α),
      (∃ r, requestOrigin parse nav = .ok (.ok r)) ∨
        requestOrigin parse nav = .ok (.error .securityError)
  rejects : ¬ ParsesHttps call.claimedOrigin → call.navigationContext = .error .securityError

theorem Call.outcome_of_parses {call : Call} {appId : AppId} {origin : Origin}
    {topOrigin : Option Origin} (h : call.Parses appId origin topOrigin) :
    isPrivilegedClient call.build appId = false ∧
        call.navigationContext = .ok (.sameOrigin origin) ∨
      isPrivilegedClient call.build appId = true ∧
        (call.navigationContext = .error .securityError ∧
            (origin.isHttps = false ∨ ∃ t, topOrigin = some t ∧ t.isHttps = false) ∨
          origin.isHttps = true ∧ (∀ t, topOrigin = some t → t.isHttps = true) ∧
            ((topOrigin = none ∨ topOrigin = some origin) ∧
                call.navigationContext = .ok (.sameOrigin origin) ∨
              ∃ t, topOrigin = some t ∧ t ≠ origin ∧
                call.navigationContext = .ok (.crossOrigin origin t))) := by
  rw [navigationContext_of_parses h]
  cases hpriv : isPrivilegedClient call.build appId with
  | false => exact Or.inl ⟨rfl, rfl⟩
  | true =>
    right
    rcases checkOriginFromPrivilegedClient_cases origin topOrigin with
      ⟨herr, hwhy⟩ | ⟨hhttps, htop, ⟨hsame, hok⟩ | ⟨t, ht, hne, hok⟩⟩
    · exact ⟨rfl, Or.inl ⟨by rw [herr]; rfl, hwhy⟩⟩
    · exact ⟨rfl, Or.inr ⟨hhttps, htop, Or.inl ⟨hsame, by rw [hok]; rfl⟩⟩⟩
    · exact ⟨rfl, Or.inr ⟨hhttps, htop, Or.inr ⟨t, ht, hne, by rw [hok]; rfl⟩⟩⟩

theorem httpsOnly_iff (call : Call) :
    call.HttpsOnly ↔ ∀ appId origin topOrigin, call.Parses appId origin topOrigin →
      isPrivilegedClient call.build appId = true ∨ origin.isHttps = true := by
  constructor
  · intro h appId origin topOrigin hp
    rcases Call.outcome_of_parses hp with ⟨-, hok⟩ | ⟨hpriv, -⟩
    · exact Or.inr (h.https _ hok origin (List.mem_cons_self ..))
    · exact Or.inl hpriv
  · intro h
    have hhttps : ∀ nav, call.navigationContext = .ok nav →
        ∀ o ∈ nav.origins, o.isHttps = true := by
      intro nav hnav
      rcases call.parses_or_rejected with ⟨appId, origin, topOrigin, hp⟩ | herr
      · have hcond := h appId origin topOrigin hp
        rcases Call.outcome_of_parses hp with
          ⟨hpriv, hok⟩ | ⟨-, ⟨herr, -⟩ | ⟨ho, ht, ⟨-, hok⟩ | ⟨t, htop, -, hok⟩⟩⟩
        · rw [hok] at hnav
          cases hnav
          rw [hpriv] at hcond
          simpa [NavigationContext.origins] using hcond
        · rw [herr] at hnav
          cases hnav
        · rw [hok] at hnav
          cases hnav
          simpa [NavigationContext.origins] using ho
        · rw [hok] at hnav
          cases hnav
          simpa [NavigationContext.origins] using ⟨ho, ht t htop⟩
      · rw [herr] at hnav
        cases hnav
    refine ⟨hhttps, fun nav hnav α parse => requestOrigin_https parse (hhttps nav hnav), ?_⟩
    intro hno
    rcases call.parses_or_rejected with ⟨appId, origin, topOrigin, hp⟩ | herr
    · have hfalse : ¬ origin.isHttps = true := fun ho => hno ⟨origin, hp.origin, ho⟩
      have hcond := h appId origin topOrigin hp
      rcases Call.outcome_of_parses hp with ⟨hpriv, -⟩ | ⟨-, ⟨herr, -⟩ | ⟨ho, -⟩⟩
      · rw [hpriv] at hcond
        exact absurd (hcond.resolve_left nofun) hfalse
      · exact herr
      · exact absurd ho hfalse
    · exact herr

theorem httpsOnly_topOrigin_iff (call : Call) :
    (call.HttpsOnly ∧ ∀ t, call.claimedTopOrigin = some t → ¬ ParsesHttps t →
        call.navigationContext = .error .securityError) ↔
      ∀ appId origin topOrigin, call.Parses appId origin topOrigin →
        isPrivilegedClient call.build appId = true ∨
          origin.isHttps = true ∧ ∀ t, topOrigin = some t → t.isHttps = true := by
  have htop : ∀ {appId origin topOrigin}, call.Parses appId origin topOrigin →
      ∀ s, call.claimedTopOrigin = some s →
        ∃ t, topOrigin = some t ∧ Origin.fromStr s = .ok t := by
    intro appId origin topOrigin hp s hs
    have hparse := hp.topOrigin
    simp only [hs, parseTopOrigin] at hparse
    split at hparse
    · rename_i t ht
      cases hparse
      exact ⟨t, rfl, ht⟩
    · cases hparse
  constructor
  · rintro ⟨honly, hreject⟩ appId origin topOrigin hp
    rcases (httpsOnly_iff call).mp honly appId origin topOrigin hp with hpriv | ho
    · exact Or.inl hpriv
    · rcases Call.outcome_of_parses hp with ⟨-, hok⟩ | ⟨hpriv, -⟩
      · refine Or.inr ⟨ho, fun t ht => ?_⟩
        refine Classical.byContradiction fun hfalse => ?_
        cases hs : call.claimedTopOrigin with
        | none =>
          have hparse := hp.topOrigin
          rw [hs, ht] at hparse
          cases hparse
        | some s =>
          obtain ⟨t', ht', hparse⟩ := htop hp s hs
          rw [ht] at ht'
          cases ht'
          have herr := hreject s hs fun hyes => by
            obtain ⟨t'', hparse', hhttps⟩ := hyes
            rw [hparse] at hparse'
            cases hparse'
            exact hfalse hhttps
          rw [hok] at herr
          cases herr
      · exact Or.inl hpriv
  · intro h
    refine ⟨(httpsOnly_iff call).mpr fun appId origin topOrigin hp =>
      (h appId origin topOrigin hp).imp id And.left, fun s hs hno => ?_⟩
    rcases call.parses_or_rejected with ⟨appId, origin, topOrigin, hp⟩ | herr
    · obtain ⟨t, ht, hparse⟩ := htop hp s hs
      have hfalse : ¬ t.isHttps = true := fun hyes => hno ⟨t, hparse, hyes⟩
      have hcond := h appId origin topOrigin hp
      rcases Call.outcome_of_parses hp with ⟨hpriv, -⟩ | ⟨-, ⟨herr, -⟩ | ⟨-, hall, -⟩⟩
      · rw [hpriv] at hcond
        exact absurd ((hcond.resolve_left nofun).2 t ht) hfalse
      · exact herr
      · exact absurd (hall t ht) hfalse
    · exact herr

/-- Exactly the calls of an unprivileged app with an `app:` origin, and a top origin that parses if
one is given, break the rule that origins are `https`; asked of the top origin too, also those of an
unprivileged app with an `app:` top origin. -/
theorem https_origins_only (call : Call) :
    (call.HttpsOnly ↔ ∀ appId origin topOrigin, call.Parses appId origin topOrigin →
      isPrivilegedClient call.build appId = true ∨ origin.isHttps = true) ∧
    ((call.HttpsOnly ∧ ∀ t, call.claimedTopOrigin = some t → ¬ ParsesHttps t →
        call.navigationContext = .error .securityError) ↔
      ∀ appId origin topOrigin, call.Parses appId origin topOrigin →
        isPrivilegedClient call.build appId = true ∨
          origin.isHttps = true ∧ ∀ t, topOrigin = some t → t.isHttps = true) :=
  ⟨httpsOnly_iff call, httpsOnly_topOrigin_iff call⟩

def portalCall (claimedAppId claimedOrigin : String) (claimedTopOrigin : Option String) : Call :=
  ⟨⟨false, ""⟩, some 1, some .desktopPortal, claimedAppId, claimedOrigin, claimedTopOrigin⟩

/- An app that names itself as its origin reaches `unimplemented!()`. -/
theorem app_origin_panics :
    ¬ (portalCall "com.example.App" "app:com.example.App" none).HttpsOnly ∧
    ∃ nav, (portalCall "com.example.App" "app:com.example.App" none).navigationContext = .ok nav ∧
      ∀ (α : Type) (parse : String → Option α),
        requestOrigin parse nav = .error (.unimplemented "AppId origins are not supported") := by
  have hnav : (portalCall "com.example.App" "app:com.example.App" none).navigationContext =
      .ok (.sameOrigin (.appId ⟨"com.example.App", rfl⟩)) := rfl
  refine ⟨fun h => ?_, _, hnav, fun α parse => rfl⟩
  have hhttps := h.https _ hnav _ (List.mem_cons_self ..)
  cases hhttps

/-! ### The top origin -/

/-- Cross-origin if a top origin is given that differs. -/
def expectedContext (origin : Origin) : Option Origin → NavigationContext
  | none => .sameOrigin origin
  | some topOrigin =>
    if topOrigin = origin then .sameOrigin origin else .crossOrigin origin topOrigin

/-- An accepted call has the expected context iff the app is privileged or there is no other top
origin to be dropped. -/
theorem top_origin_kept_iff (call : Call) (appId : AppId) (origin : Origin)
    (topOrigin : Option Origin) (hp : call.Parses appId origin topOrigin)
    (nav : NavigationContext) (hok : call.navigationContext = .ok nav) :
    nav = expectedContext origin topOrigin ↔
      isPrivilegedClient call.build appId = true ∨ topOrigin = none ∨ topOrigin = some origin := by
  have hsame : topOrigin = none ∨ topOrigin = some origin →
      expectedContext origin topOrigin = .sameOrigin origin := by
    rintro (rfl | rfl)
    · rfl
    · exact if_pos rfl
  rcases Call.outcome_of_parses hp with
    ⟨hpriv, h⟩ | ⟨hpriv, ⟨h, -⟩ | ⟨-, -, ⟨hwhy, h⟩ | ⟨t, rfl, hne, h⟩⟩⟩
  · rw [hok] at h
    cases h
    rw [hpriv]
    constructor
    · intro he
      cases topOrigin with
      | none => exact Or.inr (Or.inl rfl)
      | some t =>
        by_cases ht : t = origin
        · exact Or.inr (Or.inr (by rw [ht]))
        · rw [expectedContext, if_neg ht] at he
          cases he
    · rintro (hfalse | hwhy)
      · cases hfalse
      · exact (hsame hwhy).symm
  · rw [hok] at h
    cases h
  · rw [hok] at h
    cases h
    exact ⟨fun _ => Or.inl hpriv, fun _ => (hsame hwhy).symm⟩
  · rw [hok] at h
    cases h
    refine ⟨fun _ => Or.inl hpriv, fun _ => ?_⟩
    rw [expectedContext, if_neg hne]

theorem top_origin_kept_firefox :
    NavigationContext.crossOrigin (.https "a.test" none) (.https "b.test" (some 8443)) =
        expectedContext (.https "a.test" none) (some (.https "b.test" (some 8443))) ↔
      isPrivilegedClient ⟨false, ""⟩ ⟨"firefox", rfl⟩ = true ∨
        some (Origin.https "b.test" (some 8443)) = none ∨
        some (Origin.https "b.test" (some 8443)) = some (.https "a.test" none) :=
  top_origin_kept_iff (portalCall "firefox" "https://A.test" (some "https://b.test:8443")) _ _ _
    ⟨nofun, ⟨"firefox", rfl, rfl⟩, rfl, rfl⟩ _ rfl

theorem top_origin_dropped :
    (portalCall "com.example.App" "https://a.test" (some "https://b.test")).navigationContext =
        .ok (.sameOrigin (.https "a.test" none)) ∧
      NavigationContext.sameOrigin (.https "a.test" none) ≠
        expectedContext (.https "a.test" none) (some (.https "b.test" none)) :=
  ⟨rfl, by decide⟩

/-! ### Privileged calls -/

def RequestKind.isPrivileged : RequestKind → Bool
  | .privileged _ _ => true
  | .unprivileged _ => false

def Call.Privileged (call : Call) : Prop :=
  ∃ context, call.validateAppDetails = .ok context ∧ context.requestKind.isPrivileged = true

def privilegedAppIds : List String :=
  ["org.mozilla.firefox", "firefox", "xyz.iinuwa.credentialsd.DemoCredentialsUi"]

/- A call in a build without debug assertions, from a peer whose pid is known. -/
def releaseCall (trustedAppIds : String) (pid : UInt32) (caller : Option TrustedCaller)
    (claimedAppId claimedOrigin : String) (claimedTopOrigin : Option String) : Call :=
  ⟨⟨false, trustedAppIds⟩, some pid, caller, claimedAppId, claimedOrigin, claimedTopOrigin⟩

theorem isPrivilegedClient_iff (trustedAppIds : String) (appId : AppId) :
    isPrivilegedClient ⟨false, trustedAppIds⟩ appId = true ↔ appId.val ∈ privilegedAppIds := by
  unfold isPrivilegedClient canonicalPrivilegedAppId privilegedAppIds
  by_cases h : appId.val = "firefox"
  · simp [h]
  · simp [h]

theorem resolveClaimedAppId_iff (claimedAppId s : String) (caller : Option TrustedCaller) :
    resolveClaimedAppId claimedAppId caller = .ok s ↔
      caller ≠ none ∧ (claimedAppId ≠ "" ∧ s = claimedAppId ∨
        claimedAppId = "" ∧ caller = some .sidecar ∧ s = "org.mozilla.firefox") := by
  cases caller with
  | none => simp [resolveClaimedAppId]
  | some c =>
    have hswap : s = "org.mozilla.firefox" ↔ "org.mozilla.firefox" = s := eq_comm
    by_cases h : claimedAppId = ""
    · cases c with
      | desktopPortal => simp [resolveClaimedAppId, h]
      | sidecar => simp [resolveClaimedAppId, h, hswap]
    · have hswap' : s = claimedAppId ↔ claimedAppId = s := eq_comm
      simp [resolveClaimedAppId, h, hswap']

theorem checkOriginFromApp_privileged_iff (b : Build) (appId : AppId) (origin : Origin)
    (topOrigin : Option Origin) :
    (∃ kind, checkOriginFromApp b appId origin topOrigin = .ok kind ∧ kind.isPrivileged = true) ↔
      isPrivilegedClient b appId = true ∧ origin.isHttps = true ∧
        ∀ t, topOrigin = some t → t.isHttps = true := by
  unfold checkOriginFromApp
  cases isPrivilegedClient b appId with
  | false => simp [RequestKind.isPrivileged]
  | true =>
    rcases checkOriginFromPrivilegedClient_cases origin topOrigin with
      ⟨herr, hwhy⟩ | ⟨ho, ht, ⟨-, hok⟩ | ⟨t, rfl, -, hok⟩⟩
    · simp only [herr, if_true, true_and]
      constructor
      · rintro ⟨kind, h, -⟩
        cases h
      rintro ⟨ho, ht⟩
      rcases hwhy with hfalse | ⟨t, rfl, hfalse⟩
      · rw [hfalse] at ho
        cases ho
      · rw [ht t rfl] at hfalse
        cases hfalse
    · simp only [hok, if_true, true_and]
      exact ⟨fun _ => ⟨ho, ht⟩, fun _ => ⟨_, rfl, rfl⟩⟩
    · simp only [hok, if_true, true_and]
      exact ⟨fun _ => ⟨ho, ht⟩, fun _ => ⟨_, rfl, rfl⟩⟩

theorem Call.privileged_iff_of_parses {call : Call} {appId : AppId} {origin : Origin}
    {topOrigin : Option Origin} (h : call.Parses appId origin topOrigin) :
    call.Privileged ↔ isPrivilegedClient call.build appId = true ∧ origin.isHttps = true ∧
      ∀ t, topOrigin = some t → t.isHttps = true := by
  obtain ⟨pid, hdetails⟩ := validateAppDetails_of_parses h
  rw [← checkOriginFromApp_privileged_iff, Privileged, hdetails]
  cases checkOriginFromApp call.build appId origin topOrigin with
  | error err =>
    exact ⟨fun ⟨context, hc, _⟩ => (by cases hc), fun ⟨kind, hk, _⟩ => by cases hk⟩
  | ok kind =>
    refine ⟨fun ⟨context, hc, hp⟩ => ?_, fun ⟨kind', hk, hp⟩ => ?_⟩
    · cases hc
      exact ⟨kind, rfl, hp⟩
    · cases hk
      exact ⟨_, rfl, hp⟩

theorem parseTopOrigin_ok_iff (claimed : Option String) (topOrigin : Option Origin) :
    parseTopOrigin claimed = .ok topOrigin ↔
      claimed = none ∧ topOrigin = none ∨
        ∃ s t, claimed = some s ∧ topOrigin = some t ∧ Origin.fromStr s = .ok t := by
  cases claimed with
  | none => simp [parseTopOrigin, eq_comm]
  | some s =>
    cases hs : Origin.fromStr s with
    | error err => simp [parseTopOrigin, hs]
    | ok t => simp [parseTopOrigin, hs, eq_comm]

theorem parseTopOrigin_https_iff (claimed : Option String) :
    (∃ topOrigin, parseTopOrigin claimed = .ok topOrigin ∧
        ∀ t, topOrigin = some t → t.isHttps = true) ↔
      ∀ s, claimed = some s → ParsesHttps s := by
  constructor
  · rintro ⟨topOrigin, hparse, hhttps⟩ s rfl
    rcases (parseTopOrigin_ok_iff _ _).mp hparse with ⟨h, -⟩ | ⟨s', t, hs, rfl, ht⟩
    · cases h
    · cases hs
      exact ⟨t, ht, hhttps t rfl⟩
  · intro h
    cases claimed with
    | none => exact ⟨none, rfl, fun t ht => by cases ht⟩
    | some s =>
      obtain ⟨t, ht, hhttps⟩ := h s rfl
      refine ⟨some t, (parseTopOrigin_ok_iff _ _).mpr (Or.inr ⟨s, t, rfl, rfl, ht⟩), ?_⟩
      rintro t' ⟨⟩
      exact hhttps

/- The app id that a call is checked with, when there is one. -/
theorem trusted_appId_iff (caller : Option TrustedCaller) (claimedAppId : String) :
    (∃ s appId, resolveClaimedAppId claimedAppId caller = .ok s ∧ AppId.fromStr s = some appId ∧
        appId.val ∈ privilegedAppIds) ↔
      caller ≠ none ∧
        (claimedAppId ∈ privilegedAppIds ∨ claimedAppId = "" ∧ caller = some .sidecar) := by
  constructor
  · rintro ⟨s, appId, hs, happ, hmem⟩
    rw [AppId.fromStr_some happ] at hmem
    obtain ⟨hcaller, ⟨-, rfl⟩ | ⟨hempty, hsidecar, -⟩⟩ := (resolveClaimedAppId_iff _ _ _).mp hs
    · exact ⟨hcaller, Or.inl hmem⟩
    · exact ⟨hcaller, Or.inr ⟨hempty, hsidecar⟩⟩
  · rintro ⟨hcaller, hmem | ⟨hempty, hsidecar⟩⟩
    · have hparse : ∃ appId, AppId.fromStr claimedAppId = some appId ∧ claimedAppId ≠ "" := by
        simp only [privilegedAppIds, List.mem_cons, List.not_mem_nil, or_false] at hmem
        rcases hmem with rfl | rfl | rfl
        · exact ⟨⟨"org.mozilla.firefox", rfl⟩, rfl, by decide⟩
        · exact ⟨⟨"firefox", rfl⟩, rfl, by decide⟩
        · exact ⟨⟨"xyz.iinuwa.credentialsd.DemoCredentialsUi", rfl⟩, rfl, by decide⟩
      obtain ⟨appId, happ, hne⟩ := hparse
      refine ⟨claimedAppId, appId, (resolveClaimedAppId_iff _ _ _).mpr ?_, happ, ?_⟩
      · exact ⟨hcaller, Or.inl ⟨hne, rfl⟩⟩
      · rw [AppId.fromStr_some happ]
        exact hmem
    · refine ⟨"org.mozilla.firefox", ⟨"org.mozilla.firefox", rfl⟩,
        (resolveClaimedAppId_iff _ _ _).mpr ?_, rfl, by decide⟩
      exact ⟨hcaller, Or.inr ⟨hempty, hsidecar, rfl⟩⟩

/-- Who gets to act for any origin: a classified peer that names one of three apps, or none if it
is the sidecar, with origins that are all `https`. -/
theorem privileged_iff (trustedAppIds : String) (pid : UInt32) (caller : Option TrustedCaller)
    (claimedAppId claimedOrigin : String) (claimedTopOrigin : Option String) :
    ((releaseCall trustedAppIds pid caller claimedAppId claimedOrigin claimedTopOrigin).Privileged ↔
      caller ≠ none ∧
      (claimedAppId ∈ privilegedAppIds ∨ claimedAppId = "" ∧ caller = some .sidecar) ∧
      ParsesHttps claimedOrigin ∧ ∀ t, claimedTopOrigin = some t → ParsesHttps t) ∧
    (caller = none ∨ claimedAppId = "" ∧ caller ≠ some .sidecar →
      (releaseCall trustedAppIds pid caller claimedAppId claimedOrigin
        claimedTopOrigin).validateAppDetails = .error .securityError) := by
  constructor
  · rw [← and_assoc, ← trusted_appId_iff, ← parseTopOrigin_https_iff]
    constructor
    · intro hpriv
      rcases Call.parses_or_invalid (releaseCall trustedAppIds pid caller claimedAppId
        claimedOrigin claimedTopOrigin) with ⟨appId, origin, topOrigin, hp⟩ | herr
      · obtain ⟨hclient, ho, ht⟩ := (Call.privileged_iff_of_parses hp).mp hpriv
        obtain ⟨s, hs, happ⟩ := hp.appId
        exact ⟨⟨s, appId, hs, happ, (isPrivilegedClient_iff _ _).mp hclient⟩,
          ⟨origin, hp.origin, ho⟩, topOrigin, hp.topOrigin, ht⟩
      · obtain ⟨context, hc, -⟩ := hpriv
        rw [herr] at hc
        cases hc
    · rintro ⟨⟨s, appId, hs, happ, hmem⟩, ⟨origin, horigin, ho⟩, topOrigin, htop, ht⟩
      have hp : (releaseCall trustedAppIds pid caller claimedAppId claimedOrigin
          claimedTopOrigin).Parses appId origin topOrigin :=
        ⟨Option.some_ne_none pid, ⟨s, hs, happ⟩, horigin, htop⟩
      exact (Call.privileged_iff_of_parses hp).mpr
        ⟨(isPrivilegedClient_iff _ _).mpr hmem, ho, ht⟩
  · intro hno
    rcases Call.parses_or_invalid (releaseCall trustedAppIds pid caller claimedAppId
      claimedOrigin claimedTopOrigin) with ⟨appId, origin, topOrigin, hp⟩ | herr
    · obtain ⟨s, hs, -⟩ := hp.appId
      obtain ⟨hcaller, hwhy⟩ := (resolveClaimedAppId_iff _ _ _).mp hs
      rcases hno with hnone | ⟨hempty, hother⟩
      · exact absurd hnone hcaller
      · rcases hwhy with ⟨hne, -⟩ | ⟨-, hsidecar, -⟩
        · exact absurd hempty hne
        · exact absurd hsidecar hother
    · exact herr

end Gateway

end Credentialsd
