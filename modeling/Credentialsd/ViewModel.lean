import Credentialsd.Lib.Placeholders
import Credentialsd.UiService

/-!
# The texts of the prompt (`credentialsd-ui/src/gui/view_model/mod.rs`)

The messages are looked up in the catalogue of the user's language, and the relying party,
the name and the id of the application are written in for `%s1`, `%s2` and `%s3`, one after the
other.
-/

namespace Credentialsd

/- `str::replace`, of a pattern that is not empty. -/
def Text.replace (s pattern value : String) : String :=
  String.ofList (Placeholders.replace pattern.toList value.toList s.toList)

structure ViewModel where
  operation : Operation
  rpId : String
  appName : String
  appPathOrId : String
  title : String := ""
  subtitle : String := ""
  deriving Repr, DecidableEq

/-- `ViewUpdate::SetTitle`. -/
structure SetTitle where
  title : String
  subtitle : String
  qrPrompt : String
  usbPrompt : String
  deriving Repr, DecidableEq

namespace ViewModel

/- The catalogue of messages. -/
variable (gettext : String → String)

def new (request : UiService.ViewRequest) : ViewModel :=
  { operation := request.operation
    rpId := request.rpId
    appName := (some request.requestingApp.name).getD (gettext "unknown application")
    appPathOrId := request.requestingApp.pathOrAppId }

def titleMessage : Operation → String
  | .publicKeyCreate => "Create a passkey for %s1"
  | .publicKeyGet => "Use a passkey for %s1"

def subtitleMessage : Operation → String
  | .publicKeyCreate => "<b>\"%s2\"</b> (%s3) is asking to create a credential to register at \"%s1\". Only proceed if you trust this process."
  | .publicKeyGet => "<b>\"%s2\"</b> (%s3) is asking to use a credential to sign in to \"%s1\". Only proceed if you trust this process."

def updateTitle (self : ViewModel) : ViewModel × SetTitle :=
  let title := gettext (titleMessage self.operation)
  let title := Text.replace title "%s1" self.rpId
  let subtitle := gettext (subtitleMessage self.operation)
  let subtitle := Text.replace subtitle "%s1" self.rpId
  let subtitle := Text.replace subtitle "%s2" self.appName
  let subtitle := Text.replace subtitle "%s3" self.appPathOrId
  let self := { self with title := title, subtitle := subtitle }
  let qrPrompt := Text.replace (gettext
    "Scan the QR code using the camera on the device that has the passkey for %s1") "%s1" self.rpId
  let usbPrompt := Text.replace (gettext
    "Insert and activate your security key to use it for %s1") "%s1" self.rpId
  (self, { title := self.title, subtitle := self.subtitle, qrPrompt, usbPrompt })

/-! ### What the subtitle is meant to be -/

/-- The values of the view, each for its placeholder. -/
def values (self : ViewModel) : List (List Char × List Char) :=
  [("%s1".toList, self.rpId.toList), ("%s2".toList, self.appName.toList),
    ("%s3".toList, self.appPathOrId.toList)]

/-- The message with the three values in it, written in at once. -/
def verbatim (self : ViewModel) : String :=
  String.ofList (Placeholders.substitute self.values
    (gettext (subtitleMessage self.operation)).toList)

/-- The relying party, written into the message, makes a new `%s2`. -/
def MakesName (self : ViewModel) : Prop :=
  Placeholders.Makes (self.values.take 1) "%s2".toList
    (gettext (subtitleMessage self.operation)).toList

/-- The relying party and the name, written into the message, make a new `%s3`. -/
def MakesId (self : ViewModel) : Prop :=
  Placeholders.Makes (self.values.take 2) "%s3".toList
    (gettext (subtitleMessage self.operation)).toList

theorem isKey_values (self : ViewModel) :
    ∀ p ∈ self.values, Placeholders.IsKey '%' p.1 := by
  simp only [values, List.forall_mem_cons]
  exact ⟨⟨_, rfl, by decide⟩, ⟨_, rfl, by decide⟩, ⟨_, rfl, by decide⟩, by simp⟩

theorem isKey_take (self : ViewModel) (n : Nat) :
    ∀ p ∈ self.values.take n, Placeholders.IsKey '%' p.1 :=
  fun p hp => self.isKey_values p (List.mem_of_mem_take hp)

theorem isKey_name : Placeholders.IsKey '%' "%s2".toList := ⟨_, rfl, by decide⟩

theorem isKey_id : Placeholders.IsKey '%' "%s3".toList := ⟨_, rfl, by decide⟩

/- The message after the first two placeholders. -/
def named (self : ViewModel) : List Char :=
  Placeholders.replace "%s2".toList self.appName.toList
    (Placeholders.substitute (self.values.take 1)
      (gettext (subtitleMessage self.operation)).toList)

theorem named_iff (self : ViewModel) :
    self.named gettext = Placeholders.substitute (self.values.take 2)
      (gettext (subtitleMessage self.operation)).toList ↔
      (self.MakesName gettext → self.appName = "%s2") := by
  have h := Placeholders.replace_substitute_iff (self.isKey_take 1) isKey_name
    self.appName.toList (gettext (subtitleMessage self.operation)).toList
  rw [String.toList_inj] at h
  exact h

theorem updateTitle_subtitle (self : ViewModel) :
    (updateTitle gettext self).2.subtitle = String.ofList
      (Placeholders.replace "%s3".toList self.appPathOrId.toList (self.named gettext)) := by
  unfold updateTitle
  simp only [Text.replace, String.toList_ofList]
  rfl

theorem updateTitle_verbatim (self : ViewModel) :
    (updateTitle gettext self).2.subtitle = verbatim gettext self ↔
      Placeholders.replace "%s3".toList self.appPathOrId.toList (self.named gettext) =
        Placeholders.substitute (self.values.take 2 ++ [("%s3".toList, self.appPathOrId.toList)])
          (gettext (subtitleMessage self.operation)).toList := by
  rw [updateTitle_subtitle]
  exact String.ofList_inj

/-- Whatever the id of the application is, the subtitle shows the three values as they are if and
only if the values before it make no placeholders; and as long as they make no `%s2`, a new `%s3`
is always wrong, but for an id that reads the same. -/
theorem subtitle_verbatim_iff (self : ViewModel) :
    ((∀ appPathOrId, (updateTitle gettext { self with appPathOrId }).2.subtitle =
        verbatim gettext { self with appPathOrId }) ↔
      (self.MakesName gettext → self.appName = "%s2") ∧ ¬ self.MakesId gettext) ∧
    ((self.MakesName gettext → self.appName = "%s2") →
      ((updateTitle gettext self).2.subtitle = verbatim gettext self ↔
        (self.MakesId gettext → self.appPathOrId = "%s3"))) := by
  constructor
  · have hall := Placeholders.forall_replace_iff (self.isKey_take 2) isKey_id
      (self.named gettext) (gettext (subtitleMessage self.operation)).toList
    rw [named_iff] at hall
    refine Iff.trans ?_ hall
    constructor
    · intro h value
      have hid : Placeholders.replace "%s3".toList (String.ofList value).toList
          (self.named gettext) =
          Placeholders.substitute (self.values.take 2 ++
            [("%s3".toList, (String.ofList value).toList)])
            (gettext (subtitleMessage self.operation)).toList :=
        (updateTitle_verbatim gettext { self with appPathOrId := String.ofList value }).mp
          (h (String.ofList value))
      have hvalue : (String.ofList value).toList = value := String.toList_ofList
      rwa [hvalue] at hid
    · intro h appPathOrId
      rw [updateTitle_verbatim]
      exact h appPathOrId.toList
  · intro hname
    have hid := Placeholders.replace_substitute_iff (self.isKey_take 2) isKey_id
      self.appPathOrId.toList (gettext (subtitleMessage self.operation)).toList
    rw [String.toList_inj] at hid
    rw [updateTitle_verbatim, (named_iff gettext self).mpr hname]
    exact hid

/-- An application whose name is `%s3`. -/
def sampleView : ViewModel :=
  { operation := .publicKeyGet
    rpId := "example.com"
    appName := "%s3"
    appPathOrId := "org.example.App" }

/-- Its name gives way to its id. -/
theorem name_not_verbatim : (updateTitle id sampleView).2.subtitle ≠ verbatim id sampleView := by
  rw [ne_eq, updateTitle_verbatim]
  decide

/-! ### The messages as they are written in the source -/

theorem subtitleMessage_eq (operation : Operation) :
    ∃ asks : List Char, '%' ∉ asks ∧ (subtitleMessage operation).toList =
      "<b>\"".toList ++ ("%s2".toList ++ ("\"</b> (".toList ++ ("%s3".toList ++
        ((')' :: asks ++ ['"']) ++ ("%s1".toList ++
          ("\". Only proceed if you trust this process.".toList ++ [])))))) := by
  cases operation with
  | publicKeyCreate =>
    refine ⟨" is asking to create a credential to register at ".toList, ?_, ?_⟩
    · simp
    · unfold subtitleMessage
      repeat rw [String.toList_ofList]
      rfl
  | publicKeyGet =>
    refine ⟨" is asking to use a credential to sign in to ".toList, ?_, ?_⟩
    · simp
    · unfold subtitleMessage
      repeat rw [String.toList_ofList]
      rfl

/-- In these messages a new `%s2` comes from the relying party. -/
theorem makesName_iff (self : ViewModel) :
    self.MakesName id ↔ "%s2".toList <:+: self.rpId.toList := by
  obtain ⟨asks, hasks, heq⟩ := subtitleMessage_eq self.operation
  have hfence : '%' ∉ ')' :: asks ++ ['"'] := by simp [hasks]
  have hpairs := self.isKey_take 1
  have hpieces : Placeholders.pieces (self.values.take 1) "%s2".toList
      (subtitleMessage self.operation).toList =
      "<b>\"".toList.map some ++ none :: (("\"</b> (%s3".toList ++ ')' :: (asks ++ '"' ::
        (self.rpId.toList ++ '"' :: ". Only proceed if you trust this process.".toList))).map
          some) := by
    rw [heq, Placeholders.pieces_letters hpairs isKey_name (by decide),
      Placeholders.pieces_key isKey_name rfl,
      Placeholders.pieces_letters hpairs isKey_name (by decide),
      Placeholders.pieces_stranger hpairs isKey_name isKey_id rfl (by simp),
      Placeholders.pieces_letters hpairs isKey_name hfence,
      Placeholders.pieces_pair (p := ("%s1".toList, self.rpId.toList)) ⟨_, rfl, by decide⟩ rfl,
      Placeholders.pieces_letters hpairs isKey_name (by decide)]
    simp [Placeholders.pieces, Placeholders.piecesFrom]
  unfold MakesName Placeholders.Makes
  rw [id_eq, hpieces, Placeholders.infix_fence (by simp) (by simp), Placeholders.infix_map_some,
    Placeholders.infix_map_some, Placeholders.infix_fence (by simp) (by decide),
    Placeholders.infix_fence (by simp) (by decide),
    Placeholders.infix_fence (by simp) (by decide)]
  have hbold : ¬ "%s2".toList <:+: "<b>\"".toList := by decide
  have hid : ¬ "%s2".toList <:+: "\"</b> (%s3".toList := by decide
  have hrest : ¬ "%s2".toList <:+: ". Only proceed if you trust this process.".toList := by
    decide
  have hasks := Placeholders.not_infix_letters isKey_name hasks
  tauto

/-- A new `%s3` comes from the relying party or the name. -/
theorem makesId_iff (self : ViewModel) :
    self.MakesId id ↔
      "%s3".toList <:+: self.rpId.toList ∨ "%s3".toList <:+: self.appName.toList := by
  obtain ⟨asks, hasks, heq⟩ := subtitleMessage_eq self.operation
  have hfence : '%' ∉ ')' :: asks ++ ['"'] := by simp [hasks]
  have hpairs := self.isKey_take 2
  have hpieces : Placeholders.pieces (self.values.take 2) "%s3".toList
      (subtitleMessage self.operation).toList =
      ("<b>".toList ++ '"' :: (self.appName.toList ++ '"' :: "</b> (".toList)).map some ++ none ::
        ((')' :: asks ++ '"' ::
          (self.rpId.toList ++ '"' :: ". Only proceed if you trust this process.".toList)).map
            some) := by
    rw [heq, Placeholders.pieces_letters hpairs isKey_id (by decide),
      Placeholders.pieces_pair (p := ("%s2".toList, self.appName.toList)) isKey_name rfl,
      Placeholders.pieces_letters hpairs isKey_id (by decide),
      Placeholders.pieces_key isKey_id rfl,
      Placeholders.pieces_letters hpairs isKey_id hfence,
      Placeholders.pieces_pair (p := ("%s1".toList, self.rpId.toList)) ⟨_, rfl, by decide⟩ rfl,
      Placeholders.pieces_letters hpairs isKey_id (by decide)]
    simp [Placeholders.pieces, Placeholders.piecesFrom]
  unfold MakesId Placeholders.Makes
  rw [id_eq, hpieces, Placeholders.infix_fence (by simp) (by simp), Placeholders.infix_map_some,
    Placeholders.infix_map_some, Placeholders.infix_fence (by simp) (by decide),
    Placeholders.infix_fence (by simp) (by decide),
    Placeholders.infix_fence (by simp) (by decide),
    Placeholders.infix_fence (by simp) (by decide)]
  have hbold : ¬ "%s3".toList <:+: "<b>".toList := by decide
  have hafter : ¬ "%s3".toList <:+: "</b> (".toList := by decide
  have hrest : ¬ "%s3".toList <:+: ". Only proceed if you trust this process.".toList := by
    decide
  have hasks : ¬ "%s3".toList <:+: ')' :: asks :=
    Placeholders.not_infix_letters isKey_id (by simp [hasks])
  tauto

end ViewModel

end Credentialsd
