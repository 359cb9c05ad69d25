import Credentialsd.Lib.Base64Url
import Credentialsd.Lib.Js

/-!
# What the page gets (`webext/add-on/content-main.js`)

The reply of the daemon is a credential as JSON, with its bytes as base64url. The add-on makes
of it the object that the page expects, with its bytes in buffers, and gives that object a
`toJSON`.
-/

namespace Credentialsd

namespace PageCredential

open Js Js.Value

/-! ### `reconstructCredentialResponse` -/

/- `Uint8Array.fromBase64(str, b64urlDecodeOpts).buffer`. -/
def fromBase64 : Value → Except Error Value
  | .string s =>
    match Base64Url.decode s with
    | some b => .ok (.arrayBuffer b)
    | none => .error .syntaxError
  | _ => .error .typeError

def base64urlToArrayBuffer (str : Value) : Except Error Value :=
  if !str.truthy then .ok .null else fromBase64 str

def registrationResponse (response : Value) : Except Error Value := do
  let clientDataJSON ← base64urlToArrayBuffer (← response.get "clientDataJSON")
  let attestationObject ← base64urlToArrayBuffer (← response.get "attestationObject")
  let transports ← presentOr (← response.get "transports") (.array []) spread
  let authenticatorData ← base64urlToArrayBuffer (← response.get "authenticatorData")
  let publicKey ← ifPresent (← response.get "publicKey") base64urlToArrayBuffer
  return obj [("clientDataJSON", clientDataJSON), ("attestationObject", attestationObject),
    ("transports", transports), ("authenticatorData", authenticatorData),
    ("publicKey", publicKey)]

def assertionResponse (response : Value) : Except Error Value := do
  let clientDataJSON ← base64urlToArrayBuffer (← response.get "clientDataJSON")
  let authenticatorData ← base64urlToArrayBuffer (← response.get "authenticatorData")
  let signature ← base64urlToArrayBuffer (← response.get "signature")
  let userHandle ← presentOr (← response.get "userHandle") .null base64urlToArrayBuffer
  return obj [("clientDataJSON", clientDataJSON), ("authenticatorData", authenticatorData),
    ("signature", signature), ("userHandle", userHandle)]

def reconstructResponse (response : Value) : Except Error Value := do
  if (← response.get "attestationObject").truthy then
    registrationResponse response
  else if (← response.get "signature").truthy then
    assertionResponse response
  else
    .error (.error "Unknown credential response type received")

/- Two outputs, the second of which may be left out. -/
def outputPair (first second : String) (outputs : Value) : Except Error Value := do
  let output1 ← base64urlToArrayBuffer (← outputs.get first)
  let output2 ← ifPresent (← outputs.get second) base64urlToArrayBuffer
  return obj [(first, output1), (second, output2)]

def hmacGetSecret : Value → Except Error Value := outputPair "output1" "output2"

def prfResults : Value → Except Error Value := outputPair "first" "second"

def prf (outputs : Value) : Except Error Value := do
  let results ← ifPresent (← outputs.get "results") prfResults
  let enabled ← outputs.get "enabled"
  return obj [("results", results), ("enabled", enabled)]

def largeBlob (outputs : Value) : Except Error Value := do
  let blob ← ifPresent (← outputs.get "blob") base64urlToArrayBuffer
  return obj [("blob", blob)]

/- `Client extension results`. -/
def extensionResults (results : Value) : Except Error Value := do
  if results.truthy then
    let hmacGetSecret ← ifPresent (← results.get "hmacGetSecret") hmacGetSecret
    let prf ← ifPresent (← results.get "prf") prf
    let largeBlob ← ifPresent (← results.get "largeBlob") largeBlob
    let credProps ← ifPresent (← results.get "credProps") .ok
    return obj [("hmacGetSecret", hmacGetSecret), ("prf", prf), ("largeBlob", largeBlob),
      ("credProps", credProps)]
  else
    return obj []

/-- The object that the page gets. Its methods keep `credential`, the reply that it was made of. -/
structure PublicKeyCredential where
  credential : Value
  id : Value
  rawId : Value
  authenticatorAttachment : Value
  response : Value
  clientExtensionResults : Value
  type : Value

def reconstructCredentialResponse (credential : Value) : Except Error PublicKeyCredential := do
  let id ← credential.get "id"
  let rawId ← base64urlToArrayBuffer (← credential.get "rawId")
  let authenticatorAttachment ← credential.get "authenticatorAttachment"
  let response ← reconstructResponse (← credential.get "response")
  let extensions ← extensionResults (← credential.get "clientExtensionResults")
  return { credential, id, rawId, authenticatorAttachment, response,
           clientExtensionResults := extensions, type := .string "public-key" }

namespace PublicKeyCredential

/-! The methods of the response to a registration. -/

def getAuthenticatorData (this : PublicKeyCredential) : Except Error Value :=
  this.response.get "authenticatorData"

def getPublicKeyAlgorithm (this : PublicKeyCredential) : Except Error Value := do
  (← this.credential.get "response").get "publicKeyAlgorithm"

def getPublicKey (this : PublicKeyCredential) : Except Error Value := do
  presentOr (← this.response.get "publicKey") .null .ok

def getTransports (this : PublicKeyCredential) : Except Error Value :=
  this.response.get "transports"

/-! The methods of the credential. -/

def getClientExtensionResults (this : PublicKeyCredential) : Value := this.clientExtensionResults

def responseToJSON (this : PublicKeyCredential) : Except Error Value := do
  let response ← this.credential.get "response"
  if (← response.get "attestationObject").truthy then
    return obj [("clientDataJSON", ← response.get "clientDataJSON"),
      ("authenticatorData", ← response.get "authenticatorData"),
      ("transports", ← this.response.get "transports"),
      ("publicKey", ← response.get "publicKey"),
      ("publicKeyAlgorithm", ← response.get "publicKeyAlgorithm"),
      ("attestationObject", ← response.get "attestationObject")]
  else if (← response.get "signature").truthy then
    return obj [("clientDataJSON", ← response.get "clientDataJSON"),
      ("authenticatorData", ← response.get "authenticatorData"),
      ("signature", ← response.get "signature"),
      ("userHandle", ← response.get "userHandle")]
  else
    return obj []

def toJSON (this : PublicKeyCredential) : Except Error Value := do
  let response ← this.responseToJSON
  return obj [("id", this.id), ("rawId", this.id), ("response", response),
    ("authenticatorAttachment", this.authenticatorAttachment),
    ("clientExtensionResults", this.clientExtensionResults), ("type", this.type)]

end PublicKeyCredential

/-! ### The JSON forms of WebAuthn -/

/-- A text that stands for bytes. -/
structure Base64UrlString where
  text : String
  decodes : (Base64Url.decode text).isSome = true

namespace Base64UrlString

def ofBytes (b : List UInt8) : Base64UrlString :=
  ⟨Base64Url.encode b, by rw [Base64Url.decode_encode]; rfl⟩

def bytes (t : Base64UrlString) : List UInt8 := (Base64Url.decode t.text).get t.decodes

def toValue (t : Base64UrlString) : Value := .string t.text

end Base64UrlString

structure HmacGetSecretOutputs where
  output1 : Base64UrlString
  output2 : Option Base64UrlString

def HmacGetSecretOutputs.toValue (o : HmacGetSecretOutputs) : Value :=
  obj [("output1", o.output1.toValue), ("output2", ofOption (o.output2.map (·.toValue)))]

structure PrfValues where
  first : Base64UrlString
  second : Option Base64UrlString

def PrfValues.toValue (v : PrfValues) : Value :=
  obj [("first", v.first.toValue), ("second", ofOption (v.second.map (·.toValue)))]

structure PrfOutputs where
  enabled : Option Bool
  results : Option PrfValues

def PrfOutputs.toValue (o : PrfOutputs) : Value :=
  obj [("results", ofOption (o.results.map (·.toValue))),
    ("enabled", ofOption (o.enabled.map .boolean))]

structure LargeBlobOutputs where
  supported : Option Bool
  blob : Option Base64UrlString
  written : Option Bool

def LargeBlobOutputs.toValue (o : LargeBlobOutputs) : Value :=
  obj [("blob", ofOption (o.blob.map (·.toValue))),
    ("supported", ofOption (o.supported.map .boolean)),
    ("written", ofOption (o.written.map .boolean))]

/-- `credProps` may have any properties. -/
structure ExtensionsClientOutputs where
  hmacGetSecret : Option HmacGetSecretOutputs
  prf : Option PrfOutputs
  largeBlob : Option LargeBlobOutputs
  credProps : Option (String → Value)

def ExtensionsClientOutputs.toValue (o : ExtensionsClientOutputs) : Value :=
  obj [("hmacGetSecret", ofOption (o.hmacGetSecret.map (·.toValue))),
    ("prf", ofOption (o.prf.map (·.toValue))),
    ("largeBlob", ofOption (o.largeBlob.map (·.toValue))),
    ("credProps", ofOption (o.credProps.map .object))]

inductive AuthenticatorResponseJSON where
  | attestation (clientDataJSON authenticatorData : Base64UrlString) (transports : List String)
      (publicKey : Option Base64UrlString) (publicKeyAlgorithm : Int)
      (attestationObject : Base64UrlString)
  | assertion (clientDataJSON authenticatorData signature : Base64UrlString)
      (userHandle : Option Base64UrlString)

namespace AuthenticatorResponseJSON

def toValue : AuthenticatorResponseJSON → Value
  | attestation clientDataJSON authenticatorData transports publicKey publicKeyAlgorithm
      attestationObject =>
    obj [("clientDataJSON", clientDataJSON.toValue),
      ("authenticatorData", authenticatorData.toValue),
      ("transports", .array (transports.map .string)),
      ("publicKey", ofOption (publicKey.map (·.toValue))),
      ("publicKeyAlgorithm", .number publicKeyAlgorithm),
      ("attestationObject", attestationObject.toValue)]
  | assertion clientDataJSON authenticatorData signature userHandle =>
    obj [("clientDataJSON", clientDataJSON.toValue),
      ("authenticatorData", authenticatorData.toValue), ("signature", signature.toValue),
      ("userHandle", ofOption (userHandle.map (·.toValue)))]

/-- What a response is told by is not empty. -/
def Recognized : AuthenticatorResponseJSON → Prop
  | attestation _ _ _ _ _ attestationObject => attestationObject.text ≠ ""
  | assertion _ _ signature _ => signature.text ≠ ""

end AuthenticatorResponseJSON

/-- `RegistrationResponseJSON` and `AuthenticationResponseJSON`. -/
structure ResponseJSON where
  id : String
  rawId : Base64UrlString
  response : AuthenticatorResponseJSON
  authenticatorAttachment : Option String
  clientExtensionResults : ExtensionsClientOutputs
  type : String

def ResponseJSON.toValue (c : ResponseJSON) : Value :=
  obj [("id", .string c.id), ("rawId", c.rawId.toValue), ("response", c.response.toValue),
    ("authenticatorAttachment", ofOption (c.authenticatorAttachment.map .string)),
    ("clientExtensionResults", c.clientExtensionResults.toValue), ("type", .string c.type)]

/-! ### What comes back -/

/-- No output is bytes, and none is of those that are left out. -/
def ExtensionsClientOutputs.ComesBack (o : ExtensionsClientOutputs) : Prop :=
  o.hmacGetSecret = none ∧ (∀ p ∈ o.prf, p.results = none) ∧
    ∀ b ∈ o.largeBlob, b.supported = none ∧ b.blob = none ∧ b.written = none

theorem boolean_undefined (b : Option Bool) :
    Value.undefined = ofOption (b.map .boolean) ↔ b = none := by
  cases b with
  | none => exact iff_of_true rfl rfl
  | some b => exact iff_of_false (fun h => nomatch h) (Option.some_ne_none b)

namespace Base64UrlString

/- An empty text is falsy. -/
def nonempty (t : Base64UrlString) : Option Value :=
  if t.text = "" then none else some (.arrayBuffer t.bytes)

/-- What the add-on makes of a text. -/
def buffer (t : Base64UrlString) : Value := t.nonempty.getD .null

theorem truthy_toValue (t : Base64UrlString) : t.toValue.truthy = true ↔ t.text ≠ "" := by
  unfold toValue truthy
  exact bne_iff_ne

theorem truthy_of_empty {t : Base64UrlString} (h : t.text = "") : t.toValue.truthy = false := by
  rw [Bool.eq_false_iff]
  exact fun htruthy => (truthy_toValue t).mp htruthy h

theorem fromBase64_toValue (t : Base64UrlString) :
    fromBase64 t.toValue = .ok (.arrayBuffer t.bytes) := by
  obtain ⟨text, hdecodes⟩ := t
  obtain ⟨b, hb⟩ := Option.isSome_iff_exists.mp hdecodes
  unfold fromBase64 toValue bytes
  simp only [hb, Option.get_some]

theorem base64urlToArrayBuffer_eq (t : Base64UrlString) :
    base64urlToArrayBuffer t.toValue = .ok t.buffer := by
  unfold base64urlToArrayBuffer buffer nonempty
  by_cases htext : t.text = ""
  · rw [if_pos htext, truthy_of_empty htext]
    rfl
  · rw [if_neg htext, (truthy_toValue t).mpr htext, fromBase64_toValue]
    rfl

theorem buffer_ne (t : Base64UrlString) : t.buffer ≠ t.toValue := by
  unfold buffer nonempty toValue
  split
  · exact fun h => nomatch h
  · exact fun h => nomatch h

/-- The page reads the bytes that were encoded, or `null` if there were none. -/
theorem buffer_ofBytes (b : List UInt8) :
    (ofBytes b).buffer = if b = [] then .null else .arrayBuffer b := by
  have hempty : Base64Url.encode b = "" ↔ b = [] :=
    ⟨fun h => Base64Url.encode_injective h, fun h => by rw [h]; rfl⟩
  have hbytes : (ofBytes b).bytes = b := by
    unfold bytes ofBytes
    simp only [Base64Url.decode_encode, Option.get_some]
  unfold buffer nonempty
  rw [hbytes]
  simp only [ofBytes, hempty]
  split
  · rfl
  · rfl

/- A text that is left out, or empty, gives what stands in for it. -/
theorem presentOr_text (t : Option Base64UrlString) (default : Value) :
    presentOr (ofOption (t.map (·.toValue))) default base64urlToArrayBuffer =
      .ok ((t.bind nonempty).getD default) := by
  unfold presentOr
  cases t with
  | none => rfl
  | some t =>
    rw [Option.map_some, ofOption_some, Option.bind_some]
    by_cases htext : t.text = ""
    · rw [truthy_of_empty htext, nonempty, if_pos htext]
      rfl
    · rw [(truthy_toValue t).mpr htext, if_pos rfl, base64urlToArrayBuffer_eq, buffer, nonempty,
        if_neg htext]
      rfl

theorem ifPresent_text (t : Option Base64UrlString) :
    ifPresent (ofOption (t.map (·.toValue))) base64urlToArrayBuffer =
      .ok (ofOption (t.bind nonempty)) :=
  presentOr_text t .undefined

theorem nonempty_ne (t : Option Base64UrlString) :
    ofOption (t.bind nonempty) = ofOption (t.map (·.toValue)) ↔ t = none := by
  cases t with
  | none => exact iff_of_true rfl rfl
  | some t =>
    refine iff_of_false ?_ (Option.some_ne_none t)
    rw [Option.bind_some, Option.map_some, nonempty]
    split
    · exact fun h => nomatch h
    · exact fun h => nomatch h

end Base64UrlString

open Base64UrlString

/- Anything else that may be left out. -/
theorem ifPresent_spec {σ : Type} {toValue : σ → Value} {f : Value → Except Error Value}
    {Back : σ → Prop} (htruthy : ∀ x, (toValue x).truthy = true)
    (hf : ∀ x, ∃ v, f (toValue x) = .ok v ∧ (v = toValue x ↔ Back x)) (o : Option σ) :
    ∃ v, ifPresent (ofOption (o.map toValue)) f = .ok v ∧
      (v = ofOption (o.map toValue) ↔ ∀ x ∈ o, Back x) := by
  cases o with
  | none =>
    have hnone : ∀ x ∈ (none : Option σ), Back x := fun x hx => absurd hx (Option.not_mem_none x)
    exact ⟨.undefined, rfl, iff_of_true rfl hnone⟩
  | some x =>
    obtain ⟨v, hv, hback⟩ := hf x
    refine ⟨v, ?_, hback.trans ⟨fun h y hy => Option.some.inj hy ▸ h, fun h => h x rfl⟩⟩
    exact (if_pos (htruthy x)).trans hv

theorem outputPair_spec {first second : String} (hne : second ≠ first) (a : Base64UrlString)
    (b : Option Base64UrlString) :
    ∃ v, outputPair first second
        (obj [(first, a.toValue), (second, ofOption (b.map (·.toValue)))]) = .ok v ∧
      (v = obj [(first, a.toValue), (second, ofOption (b.map (·.toValue)))] ↔ False) := by
  refine ⟨obj [(first, a.buffer), (second, ofOption (b.bind nonempty))], ?_, ?_⟩
  · have hbeq : (second == first) = false := beq_eq_false_iff_ne.mpr hne
    unfold outputPair
    rw [get_obj, get_obj, List.lookup_cons_self, List.lookup_cons, hbeq]
    dsimp only
    rw [List.lookup_cons_self]
    simp only [ok_bind, ofOption_some, base64urlToArrayBuffer_eq, ifPresent_text]
    rfl
  · rw [obj_cons_inj (by simpa using hne.symm) (by simpa using hne.symm)]
    exact ⟨fun h => buffer_ne a h.1, False.elim⟩

theorem prf_spec (o : PrfOutputs) :
    ∃ v, prf o.toValue = .ok v ∧ (v = o.toValue ↔ o.results = none) := by
  have hpair : ∀ v : PrfValues, ∃ w, prfResults v.toValue = .ok w ∧ (w = v.toValue ↔ False) :=
    fun v => outputPair_spec (by decide) v.first v.second
  obtain ⟨results, hresults, hback⟩ := ifPresent_spec (fun _ => rfl) hpair o.results
  refine ⟨obj [("results", results), ("enabled", ofOption (o.enabled.map .boolean))], ?_, ?_⟩
  · have h1 : o.toValue.get "results" = .ok (ofOption (o.results.map (·.toValue))) := rfl
    have h2 : o.toValue.get "enabled" = .ok (ofOption (o.enabled.map .boolean)) := rfl
    unfold prf
    rw [h1, ok_bind, h2]
    exact congrArg (· >>= _) hresults
  · unfold PrfOutputs.toValue
    rw [obj_cons_inj (by simp) (by simp), and_iff_left rfl, Option.eq_none_iff_forall_not_mem]
    exact hback

theorem largeBlob_spec (o : LargeBlobOutputs) :
    ∃ v, largeBlob o.toValue = .ok v ∧
      (v = o.toValue ↔ o.supported = none ∧ o.blob = none ∧ o.written = none) := by
  refine ⟨obj [("blob", ofOption (o.blob.bind nonempty))], ?_, ?_⟩
  · have h1 : o.toValue.get "blob" = .ok (ofOption (o.blob.map (·.toValue))) := rfl
    unfold largeBlob
    rw [h1, ok_bind, ifPresent_text]
    rfl
  · unfold LargeBlobOutputs.toValue
    rw [obj_cons_inj (by simp) (by simp), obj_nil_eq (by simp), obj_nil_eq (by simp), nonempty_ne,
      boolean_undefined, boolean_undefined, and_iff_left rfl, and_left_comm]

theorem extensionResults_spec (o : ExtensionsClientOutputs) :
    ∃ v, extensionResults o.toValue = .ok v ∧ (v = o.toValue ↔ o.ComesBack) := by
  have hpair : ∀ h : HmacGetSecretOutputs,
      ∃ v, hmacGetSecret h.toValue = .ok v ∧ (v = h.toValue ↔ False) :=
    fun h => outputPair_spec (by decide) h.output1 h.output2
  have hprops : ∀ p : String → Value, ∃ v, (.ok (object p) : Except Error Value) = .ok v ∧
      (v = object p ↔ True) := fun p => ⟨object p, rfl, iff_true_intro rfl⟩
  obtain ⟨hmac, hhmac, hmacBack⟩ := ifPresent_spec (fun _ => rfl) hpair o.hmacGetSecret
  obtain ⟨prf, hprf, prfBack⟩ := ifPresent_spec (fun _ => rfl) prf_spec o.prf
  obtain ⟨blob, hblob, blobBack⟩ := ifPresent_spec (fun _ => rfl) largeBlob_spec o.largeBlob
  obtain ⟨props, hcredProps, propsBack⟩ := ifPresent_spec (fun _ => rfl) hprops o.credProps
  refine ⟨obj [("hmacGetSecret", hmac), ("prf", prf), ("largeBlob", blob), ("credProps", props)],
    ?_, ?_⟩
  · have h1 : o.toValue.get "hmacGetSecret" = .ok (ofOption (o.hmacGetSecret.map (·.toValue))) :=
      rfl
    have h2 : o.toValue.get "prf" = .ok (ofOption (o.prf.map (·.toValue))) := rfl
    have h3 : o.toValue.get "largeBlob" = .ok (ofOption (o.largeBlob.map (·.toValue))) := rfl
    have h4 : o.toValue.get "credProps" = .ok (ofOption (o.credProps.map object)) := rfl
    have hobj : o.toValue.truthy = true := rfl
    unfold extensionResults
    rw [if_pos hobj, h1, ok_bind, hhmac, ok_bind, h2, ok_bind, hprf, ok_bind, h3, ok_bind, hblob,
      ok_bind, h4, ok_bind, hcredProps]
    rfl
  · unfold ExtensionsClientOutputs.toValue ExtensionsClientOutputs.ComesBack
    rw [obj_cons_inj (by simp) (by simp), obj_cons_inj (by simp) (by simp),
      obj_cons_inj (by simp) (by simp), obj_cons_inj (by simp) (by simp), hmacBack, prfBack,
      blobBack, propsBack, Option.eq_none_iff_forall_not_mem]
    simp

namespace AuthenticatorResponseJSON

/-- What the page gets for a response. -/
def buffers : AuthenticatorResponseJSON → Value
  | attestation clientDataJSON authenticatorData transports publicKey _ attestationObject =>
    obj [("clientDataJSON", clientDataJSON.buffer),
      ("attestationObject", attestationObject.buffer),
      ("transports", .array (transports.map .string)),
      ("authenticatorData", authenticatorData.buffer),
      ("publicKey", ofOption (publicKey.bind nonempty))]
  | assertion clientDataJSON authenticatorData signature userHandle =>
    obj [("clientDataJSON", clientDataJSON.buffer), ("authenticatorData", authenticatorData.buffer),
      ("signature", signature.buffer), ("userHandle", (userHandle.bind nonempty).getD .null)]

theorem registrationResponse_eq (clientDataJSON authenticatorData : Base64UrlString)
    (transports : List String) (publicKey : Option Base64UrlString) (publicKeyAlgorithm : Int)
    (attestationObject : Base64UrlString) :
    registrationResponse (attestation clientDataJSON authenticatorData transports publicKey
      publicKeyAlgorithm attestationObject).toValue =
      .ok (attestation clientDataJSON authenticatorData transports publicKey
        publicKeyAlgorithm attestationObject).buffers := by
  generalize hr : (attestation clientDataJSON authenticatorData transports publicKey
    publicKeyAlgorithm attestationObject).toValue = r
  have h1 : r.get "clientDataJSON" = .ok clientDataJSON.toValue := hr ▸ rfl
  have h2 : r.get "attestationObject" = .ok attestationObject.toValue := hr ▸ rfl
  have h3 : r.get "transports" = .ok (.array (transports.map .string)) := hr ▸ rfl
  have h4 : r.get "authenticatorData" = .ok authenticatorData.toValue := hr ▸ rfl
  have h5 : r.get "publicKey" = .ok (ofOption (publicKey.map (·.toValue))) := hr ▸ rfl
  have htransports : presentOr (.array (transports.map .string)) (.array []) spread =
      .ok (.array (transports.map .string)) := rfl
  unfold registrationResponse
  rw [h1, ok_bind, base64urlToArrayBuffer_eq, ok_bind, h2, ok_bind, base64urlToArrayBuffer_eq,
    ok_bind, h3, ok_bind, htransports, ok_bind, h4, ok_bind, base64urlToArrayBuffer_eq, ok_bind,
    h5, ok_bind, ifPresent_text, ok_bind]
  rfl

theorem assertionResponse_eq (clientDataJSON authenticatorData signature : Base64UrlString)
    (userHandle : Option Base64UrlString) :
    assertionResponse (assertion clientDataJSON authenticatorData signature userHandle).toValue =
      .ok (assertion clientDataJSON authenticatorData signature userHandle).buffers := by
  generalize hr : (assertion clientDataJSON authenticatorData signature userHandle).toValue = r
  have h1 : r.get "clientDataJSON" = .ok clientDataJSON.toValue := hr ▸ rfl
  have h2 : r.get "authenticatorData" = .ok authenticatorData.toValue := hr ▸ rfl
  have h3 : r.get "signature" = .ok signature.toValue := hr ▸ rfl
  have h4 : r.get "userHandle" = .ok (ofOption (userHandle.map (·.toValue))) := hr ▸ rfl
  unfold assertionResponse
  rw [h1, ok_bind, base64urlToArrayBuffer_eq, ok_bind, h2, ok_bind, base64urlToArrayBuffer_eq,
    ok_bind, h3, ok_bind, base64urlToArrayBuffer_eq, ok_bind, h4, ok_bind, presentOr_text, ok_bind]
  rfl

theorem reconstructResponse_ok {r : AuthenticatorResponseJSON} (h : r.Recognized) :
    reconstructResponse r.toValue = .ok r.buffers := by
  cases r with
  | attestation clientDataJSON authenticatorData transports publicKey publicKeyAlgorithm
      attestationObject =>
    rw [← registrationResponse_eq]
    exact if_pos ((truthy_toValue attestationObject).mpr h)
  | assertion clientDataJSON authenticatorData signature userHandle =>
    rw [← assertionResponse_eq]
    exact if_pos ((truthy_toValue signature).mpr h)

/- An attestation object or a signature that is empty is taken for one that is not there. -/
theorem reconstructResponse_error {r : AuthenticatorResponseJSON} (h : ¬ r.Recognized) :
    reconstructResponse r.toValue =
      .error (.error "Unknown credential response type received") := by
  cases r with
  | attestation clientDataJSON authenticatorData transports publicKey publicKeyAlgorithm
      attestationObject =>
    exact if_neg fun htruthy => h ((truthy_toValue attestationObject).mp htruthy)
  | assertion clientDataJSON authenticatorData signature userHandle =>
    exact if_neg fun htruthy => h ((truthy_toValue signature).mp htruthy)

end AuthenticatorResponseJSON

/-- What the page gets for a reply. -/
def ResponseJSON.page (c : ResponseJSON) (extensions : Value) : PublicKeyCredential :=
  { credential := c.toValue
    id := .string c.id
    rawId := c.rawId.buffer
    authenticatorAttachment := ofOption (c.authenticatorAttachment.map .string)
    response := c.response.buffers
    clientExtensionResults := extensions
    type := .string "public-key" }

theorem reconstruct_eq (c : ResponseJSON) {extensions : Value}
    (hextensions : extensionResults c.clientExtensionResults.toValue = .ok extensions) :
    reconstructCredentialResponse c.toValue = (do
      let response ← reconstructResponse c.response.toValue
      return { c.page extensions with response }) := by
  have h1 : c.toValue.get "id" = .ok (.string c.id) := rfl
  have h2 : c.toValue.get "rawId" = .ok c.rawId.toValue := rfl
  have h3 : c.toValue.get "authenticatorAttachment" =
      .ok (ofOption (c.authenticatorAttachment.map .string)) := rfl
  have h4 : c.toValue.get "response" = .ok c.response.toValue := rfl
  have h5 : c.toValue.get "clientExtensionResults" = .ok c.clientExtensionResults.toValue := rfl
  unfold reconstructCredentialResponse
  rw [h1, ok_bind, h2, ok_bind, base64urlToArrayBuffer_eq, ok_bind, h3, ok_bind, h4, ok_bind, h5]
  simp only [ok_bind, hextensions]
  rfl

/-- The response itself comes back, from the reply that the method keeps. -/
theorem responseToJSON_page {c : ResponseJSON} (h : c.response.Recognized) (extensions : Value) :
    (c.page extensions).responseToJSON = .ok c.response.toValue := by
  obtain ⟨id, rawId, response, attachment, results, type⟩ := c
  cases response with
  | attestation clientDataJSON authenticatorData transports publicKey publicKeyAlgorithm
      attestationObject => exact if_pos ((truthy_toValue attestationObject).mpr h)
  | assertion clientDataJSON authenticatorData signature userHandle =>
    exact if_pos ((truthy_toValue signature).mpr h)

theorem toJSON_reconstruct {c : ResponseJSON} (h : c.response.Recognized) {extensions : Value}
    (hextensions : extensionResults c.clientExtensionResults.toValue = .ok extensions) :
    (reconstructCredentialResponse c.toValue >>= PublicKeyCredential.toJSON) =
      .ok (obj [("id", .string c.id), ("rawId", .string c.id), ("response", c.response.toValue),
        ("authenticatorAttachment", ofOption (c.authenticatorAttachment.map .string)),
        ("clientExtensionResults", extensions), ("type", .string "public-key")]) := by
  have hpage : reconstructCredentialResponse c.toValue = .ok (c.page extensions) := by
    rw [reconstruct_eq c hextensions, AuthenticatorResponseJSON.reconstructResponse_ok h]
    rfl
  rw [hpage, ok_bind]
  unfold PublicKeyCredential.toJSON
  rw [responseToJSON_page h, ok_bind]
  rfl

/-- What the methods of a registration say is what came in the reply. -/
theorem methods_page (c : ResponseJSON) (extensions : Value)
    {clientDataJSON authenticatorData attestationObject : Base64UrlString}
    {transports : List String} {publicKey : Option Base64UrlString} {publicKeyAlgorithm : Int}
    (h : c.response = .attestation clientDataJSON authenticatorData transports publicKey
      publicKeyAlgorithm attestationObject) :
    (c.page extensions).getAuthenticatorData = .ok authenticatorData.buffer ∧
    (c.page extensions).getPublicKeyAlgorithm = .ok (.number publicKeyAlgorithm) ∧
    (c.page extensions).getPublicKey = .ok ((publicKey.bind nonempty).getD .null) ∧
    (c.page extensions).getTransports = .ok (.array (transports.map .string)) := by
  obtain ⟨id, rawId, response, attachment, results, type⟩ := c
  subst h
  refine ⟨rfl, rfl, ?_, rfl⟩
  cases publicKey with
  | none => rfl
  | some t =>
    change presentOr (ofOption (nonempty t)) .null .ok = .ok ((nonempty t).getD .null)
    unfold nonempty
    split
    · rfl
    · rfl

/-- A reply that the page can post back to its server as it was. -/
def ResponseJSON.ComesBack (c : ResponseJSON) : Prop :=
  c.response.Recognized ∧ c.id = c.rawId.text ∧ c.clientExtensionResults.ComesBack ∧
    c.type = "public-key"

/-- `toJSON` gives back what the credential was made of if and only if no extension has bytes to
give back, `largeBlob` has nothing, and the rest is as it has to be. -/
theorem toJSON_iff (c : ResponseJSON) :
    (reconstructCredentialResponse c.toValue >>= PublicKeyCredential.toJSON) = .ok c.toValue ↔
      c.ComesBack := by
  obtain ⟨extensions, hextensions, hback⟩ := extensionResults_spec c.clientExtensionResults
  unfold ResponseJSON.ComesBack
  by_cases h : c.response.Recognized
  · rw [toJSON_reconstruct h hextensions, and_iff_right h, Except.ok.injEq]
    unfold ResponseJSON.toValue
    rw [obj_cons_inj (by simp) (by simp), obj_cons_inj (by simp) (by simp),
      obj_cons_inj (by simp) (by simp), obj_cons_inj (by simp) (by simp),
      obj_cons_inj (by simp) (by simp), obj_cons_inj (by simp) (by simp), hback]
    simp [Base64UrlString.toValue, eq_comm]
  · rw [reconstruct_eq c hextensions, AuthenticatorResponseJSON.reconstructResponse_error h]
    exact iff_of_false (fun heq => nomatch heq) fun hback => h hback.1

/-- The reply to an authentication with an output of `prf`. -/
def sampleReply : ResponseJSON :=
  { id := Base64Url.encode [1, 2, 3]
    rawId := .ofBytes [1, 2, 3]
    response := .assertion (.ofBytes [4]) (.ofBytes [5]) (.ofBytes [6]) none
    authenticatorAttachment := some "cross-platform"
    clientExtensionResults :=
      { hmacGetSecret := none
        prf := some { enabled := none, results := some { first := .ofBytes [7], second := none } }
        largeBlob := none
        credProps := none }
    type := "public-key" }

/-- The output does not come back as text. -/
theorem prf_not_text :
    (reconstructCredentialResponse sampleReply.toValue >>= PublicKeyCredential.toJSON) ≠
      .ok sampleReply.toValue := by
  intro heq
  obtain ⟨extensions, hextensions, hback⟩ :=
    extensionResults_spec sampleReply.clientExtensionResults
  have htext : Base64Url.encode [6] ≠ "" := by decide
  have hrecognized : sampleReply.response.Recognized := htext
  rw [toJSON_reconstruct hrecognized hextensions] at heq
  have hextension : (.ok extensions : Except Error Value) =
      .ok sampleReply.clientExtensionResults.toValue :=
    congrArg (fun v => v.get "clientExtensionResults") (Except.ok.inj heq)
  have hcomes := hback.mp (Except.ok.inj hextension)
  exact nomatch hcomes.2.1 _ rfl

end PageCredential

end Credentialsd
