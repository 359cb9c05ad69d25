import Credentialsd.Answers
import Credentialsd.Lib.Base64Url
import Mathlib.Data.List.Find

/-!
# The choice of a credential (`usb.rs:176-218, 629-660`, `nfc.rs:73-115, 507-538`)

The UI gets a hash of each credential id and sends one of them back, by which the assertion is found
again. Both ways compute the hash for themselves.
-/

namespace Credentialsd

/-- `URL_SAFE_NO_PAD.encode(digest(&SHA256, id))` -/
def credentialHash (sha256 : Bytes → Bytes) (id : Bytes) : String := Base64Url.encode (sha256 id)

/- The id of an assertion that carries one. -/
def Assertion.id (x : Assertion) : Bytes := (x.credentialId.map fun i => i.id).getD []

/- The entry of such an assertion. -/
def Assertion.entry (credHash : Bytes → String) (x : Assertion) : Credential where
  id := credHash x.id
  name := (x.user.bind (·.name)).getD "<unknown>"
  username := (x.user.map (·.displayName)).getD none

theorem toCredential_entry {credHash : Bytes → String} {x : Assertion}
    (h : x.credentialId.isSome = true) : x.toCredential credHash = .ok (x.entry credHash) := by
  obtain ⟨i, hi⟩ := Option.isSome_iff_exists.mp h
  simp [Assertion.toCredential, Assertion.entry, Assertion.id, hi]

theorem mapM_map {α β ε : Type} {f : α → Except ε β} {g : α → β} {xs : List α}
    (h : ∀ x ∈ xs, f x = .ok (g x)) : xs.mapM f = .ok (xs.map g) := by
  induction xs with
  | nil => rfl
  | cons x xs ih =>
    have hx := h x (List.mem_cons_self ..)
    have hxs := ih fun y hy => h y (List.mem_cons_of_mem _ hy)
    rw [List.mapM_cons, hx, hxs]
    rfl

/-- The element with the key of `x` is `x` itself. -/
theorem find_key {α β : Type} [BEq β] [LawfulBEq β] (key : α → β) {xs : List α} {x : α}
    (hkeys : (xs.map key).Nodup) (hx : x ∈ xs) : xs.find? (fun y => key y == key x) = some x := by
  induction xs with
  | nil => cases hx
  | cons y ys ih =>
    obtain ⟨hnew, hrest⟩ := List.nodup_cons.mp hkeys
    rw [List.find?_cons]
    rcases List.mem_cons.mp hx with rfl | hx
    · simp
    · have hne : key y ≠ key x := by
        intro heq
        apply hnew
        rw [heq]
        exact List.mem_map_of_mem hx
      have hno : (key y == key x) = false := by simpa using hne
      rw [hno]
      exact ih hrest hx

namespace GetAssertionResponse

/- Every assertion carries an id, and no two of them the same one. -/
structure Distinct (r : GetAssertionResponse) : Prop where
  carried : ∀ x ∈ r.assertions, x.credentialId.isSome = true
  nodup : (r.assertions.map Assertion.id).Nodup

variable {r : GetAssertionResponse} {credHash : Bytes → String}

theorem Distinct.toCredentials (hr : r.Distinct) :
    r.toCredentials credHash = .ok (r.assertions.map fun x => x.entry credHash) :=
  mapM_map fun x hx => toCredential_entry (hr.carried x hx)

theorem Distinct.hashes_nodup (hr : r.Distinct)
    (hinj : ∀ x ∈ r.assertions, ∀ y ∈ r.assertions, credHash x.id = credHash y.id → x.id = y.id) :
    (r.assertions.map fun x => credHash x.id).Nodup := by
  have hmap : (r.assertions.map fun x => credHash x.id) =
      (r.assertions.map Assertion.id).map credHash := by
    rw [List.map_map]
    rfl
  rw [hmap]
  apply List.Nodup.map_on _ hr.nodup
  intro i hi j hj hij
  obtain ⟨x, hx, rfl⟩ := List.mem_map.mp hi
  obtain ⟨y, hy, rfl⟩ := List.mem_map.mp hj
  exact hinj x hx y hy hij

/-- Where all assertions carry an id, the search is one by the hash of the id. -/
theorem selectAssertion_carried (hcarried : ∀ x ∈ r.assertions, x.credentialId.isSome = true)
    (reply : String) : selectAssertion credHash r (some reply) =
      match r.assertions.find? fun x => credHash x.id == reply with
      | some assertion => .ok (.getPublicKeyCredentialResponse ⟨assertion, "cross-platform"⟩)
      | none => .error .noCredentials := by
  have hfind : (r.assertions.find? fun x =>
      (x.credentialId.map fun i => credHash i.id == reply).getD false) =
      r.assertions.find? fun x => credHash x.id == reply := by
    apply List.find?_congr
    intro x hx
    obtain ⟨i, hi⟩ := Option.isSome_iff_exists.mp (hcarried x hx)
    simp [Assertion.id, hi]
  unfold selectAssertion
  cases hx : r.assertions.find? fun x => credHash x.id == reply with
  | none => simp only [hfind, hx]
  | some x => simp only [hfind, hx]

/-- The id of an entry selects its own assertion. -/
theorem Distinct.selectAssertion_entry (hr : r.Distinct)
    (hhashes : (r.assertions.map fun x => credHash x.id).Nodup) {x : Assertion}
    (hx : x ∈ r.assertions) : selectAssertion credHash r (some (x.entry credHash).id) =
      .ok (.getPublicKeyCredentialResponse ⟨x, "cross-platform"⟩) := by
  have hfind := find_key (fun x => credHash x.id) hhashes hx
  rw [selectAssertion_carried hr.carried]
  unfold Assertion.entry
  simp only at hfind ⊢
  rw [hfind]

/-- A text that is the id of no entry selects nothing. -/
theorem Distinct.selectAssertion_other (hr : r.Distinct) {reply : String}
    (hreply : ∀ x ∈ r.assertions, credHash x.id ≠ reply) :
    selectAssertion credHash r (some reply) = .error .noCredentials := by
  have hfind : (r.assertions.find? fun x => credHash x.id == reply) = none := by
    apply List.find?_eq_none.mpr
    intro x hx hyes
    exact hreply x hx (beq_iff_eq.mp hyes)
  rw [selectAssertion_carried hr.carried, hfind]

end GetAssertionResponse

/-- If SHA-256 tells the ids apart, the list has one entry for each assertion in their order, no two
entries have one id, the id of an entry completes the request with its assertion, and any other
text is refused. -/
theorem credential_choice (sha256 : Bytes → Bytes) (r : GetAssertionResponse) (credTx : ReplyTx)
    (hr : r.Distinct)
    (hsha : ∀ x ∈ r.assertions, ∀ y ∈ r.assertions, sha256 x.id = sha256 y.id → x.id = y.id) :
    ∃ creds : List Credential,
      (UsbStateInternal.selectCredential r credTx).toPublic (credentialHash sha256) =
        .ok (.selectingCredential creds credTx) ∧
      (NfcStateInternal.selectCredential r credTx).toPublic (credentialHash sha256) =
        .ok (.selectingCredential creds credTx) ∧
      creds.length = r.assertions.length ∧
      (creds.map fun cred => cred.id).Nodup ∧
      (∀ (i : Nat) (x : Assertion), r.assertions[i]? = some x → ∃ cred : Credential,
        creds[i]? = some cred ∧
        x.toCredential (credentialHash sha256) = .ok cred ∧
        Usb.processSelectCredential (credentialHash sha256) r (some cred.id) =
          .ok (.completed (.getPublicKeyCredentialResponse ⟨x, "cross-platform"⟩)) ∧
        Nfc.processSelectCredential (credentialHash sha256) r (some cred.id) =
          .ok (.completed (.getPublicKeyCredentialResponse ⟨x, "cross-platform"⟩))) ∧
      ∀ reply, reply ∉ (creds.map fun cred => cred.id) →
        Usb.processSelectCredential (credentialHash sha256) r (some reply) =
          .error .noCredentials ∧
        Nfc.processSelectCredential (credentialHash sha256) r (some reply) =
          .error .noCredentials := by
  have hinj : ∀ x ∈ r.assertions, ∀ y ∈ r.assertions,
      credentialHash sha256 x.id = credentialHash sha256 y.id → x.id = y.id :=
    fun x hx y hy heq => hsha x hx y hy (Base64Url.encode_injective heq)
  have hhashes := hr.hashes_nodup hinj
  have hlist : r.toCredentials (credentialHash sha256) = _ := hr.toCredentials
  have hids : ((r.assertions.map fun x => x.entry (credentialHash sha256)).map
      fun cred => cred.id) = r.assertions.map fun x => credentialHash sha256 x.id := by
    rw [List.map_map]
    rfl
  refine ⟨r.assertions.map fun x => x.entry (credentialHash sha256), ?_, ?_, ?_, ?_, ?_, ?_⟩
  · rw [UsbStateInternal.toPublic, hlist]
    rfl
  · rw [NfcStateInternal.toPublic, hlist]
    rfl
  · exact List.length_map ..
  · rw [hids]
    exact hhashes
  · intro i x hi
    have hx := List.mem_of_getElem? hi
    have hselect := hr.selectAssertion_entry hhashes hx
    refine ⟨x.entry (credentialHash sha256), ?_, toCredential_entry (hr.carried x hx), ?_, ?_⟩
    · rw [List.getElem?_map, hi]
      rfl
    · rw [Usb.processSelectCredential, hselect]
      rfl
    · rw [Nfc.processSelectCredential, hselect]
      rfl
  · intro reply hreply
    rw [hids] at hreply
    have hother : ∀ x ∈ r.assertions, credentialHash sha256 x.id ≠ reply := by
      intro x hx heq
      exact hreply (List.mem_map.mpr ⟨x, hx, heq⟩)
    have hnone := hr.selectAssertion_other hother
    rw [Usb.processSelectCredential, Nfc.processSelectCredential, hnone]
    exact ⟨rfl, rfl⟩

def sampleAssertions : GetAssertionResponse :=
  ⟨[⟨some ⟨[1]⟩, some ⟨some "ada", some "Ada"⟩, []⟩, ⟨some ⟨[2]⟩, none, []⟩]⟩

/- SHA-256 at the two ids of the sample. -/
def sampleSha256 : Bytes → Bytes
  | [1] => [75, 245, 18, 47, 52, 69, 84, 197, 59, 222, 46, 187, 140, 210, 183, 227, 209, 96, 10,
    214, 49, 195, 133, 165, 215, 204, 226, 60, 119, 133, 69, 154]
  | [2] => [219, 193, 180, 201, 0, 255, 228, 141, 87, 91, 93, 165, 198, 56, 4, 1, 37, 246, 93, 176,
    254, 62, 36, 73, 75, 118, 234, 152, 100, 87, 217, 134]
  | _ => []

/-- Two accounts: the text of the second entry completes with the second assertion. -/
theorem credential_choice_sample :
    ∃ creds : List Credential,
      (UsbStateInternal.selectCredential sampleAssertions 0).toPublic
        (credentialHash sampleSha256) = .ok (.selectingCredential creds 0) ∧
      (∀ x : Assertion, sampleAssertions.assertions[1]? = some x → ∃ cred : Credential,
        creds[1]? = some cred ∧
        Usb.processSelectCredential (credentialHash sampleSha256) sampleAssertions
          (some cred.id) =
            .ok (.completed (.getPublicKeyCredentialResponse ⟨x, "cross-platform"⟩))) := by
  obtain ⟨creds, husb, -, -, -, hentries, -⟩ :=
    credential_choice sampleSha256 sampleAssertions 0 ⟨by decide, by decide⟩ (by decide +kernel)
  refine ⟨creds, husb, fun x hx => ?_⟩
  obtain ⟨cred, hcred, -, hcomplete, -⟩ := hentries 1 x hx
  exact ⟨cred, hcred, hcomplete⟩

end Credentialsd
