import Credentialsd.AuthenticatorData
import Credentialsd.Lib.Binascii
import Credentialsd.PageCredential

/-!
# The reply to a registration
(`webext/app/credential_manager_shim.py:124-131, 408-446`)

`create_passkey` adds to the reply of the portal what the page asks for by methods: the
authenticator data, and the public key with its algorithm. All of them are in the attestation
object, so the reply is taken apart on the way, as far as the interpreter's limit on nested calls
lets it.
-/

namespace Credentialsd

open Cbor (Item)

namespace Shim

/-- What else is raised while a reply is taken apart. -/
inductive ReplyError where
  | python (e : PyError)
  | valueError (message : String)
  | binascii (message : String)
  deriving Repr, DecidableEq

def b64Encode (data : Bytes) : String := Base64Url.encode data

/-- `b64_decode`. -/
def b64Decode : PyValue → Except ReplyError Bytes
  | .str s =>
    if s.toList.all fun c => c.toNat < 128 then
      (Binascii.a2bBase64 (s.toList ++ Binascii.padding s.toList.length)).mapError .binascii
    else .error (.valueError "string argument should contain only ASCII characters")
  | _ => .error (.python .typeError)

namespace PyValue

/-- `value[key]` for a string. -/
def item (key : String) : PyValue → Except PyError PyValue
  | .dict entries =>
    match entries.find? fun e => e.1.sameKey (.str key) with
    | some e => .ok e.2
    | Option.none => .error .keyError
  | _ => .error .typeError

/-- `value[n]`. -/
def itemAt (n : Nat) : PyValue → Except PyError PyValue
  | .bytes b =>
    match b[n]? with
    | some x => .ok (.int x.toNat)
    | Option.none => .error .indexError
  | .str s =>
    match s.toList[n]? with
    | some c => .ok (.str (String.ofList [c]))
    | Option.none => .error .indexError
  | .list xs =>
    match xs[n]? with
    | some x => .ok x
    | Option.none => .error .indexError
  | .dict entries =>
    match entries.find? fun e => e.1.sameKey (.int n) with
    | some e => .ok e.2
    | Option.none => .error .keyError
  | _ => .error .typeError

/-- `value[key] = x` for a string. -/
def withItem (value : PyValue) (key : String) (x : PyValue) : Except PyError PyValue :=
  match value with
  | .dict entries => (setItem entries (.str key) x).map .dict
  | _ => .error .typeError

end PyValue

def raised {α : Type} (x : Except PyError α) : Except ReplyError α := x.mapError .python

/-- `get_pub_key` with the item that is asked of it. -/
def coseAlg : Nat := 3

/- What the authenticator data add to the response. -/
def addPublicKey (limit : Nat) (response : PyValue) (authData : AuthenticatorData) :
    Except PyError PyValue :=
  match authData.pubKeyBytes with
  | some (b :: bs) => do
    let response ← response.withItem "publicKey" (.str (b64Encode (b :: bs)))
    let key ← cborLoads (limit - 1) (b :: bs)
    let alg ← key.itemAt coseAlg
    response.withItem "publicKeyAlgorithm" alg
  | _ => .ok response

/-- `create_passkey` after the portal has replied; `responseJson` is what `json.loads` makes of
`registration_response_json`. `_parse_authenticator_data` and `get_pub_key` are a call more each. -/
def createPasskey (limit : Nat) (type : String) (responseJson : PyValue) :
    Except ReplyError PyValue :=
  if type ≠ "public-key" then
    .error (.python (.exception
      ("Invalid credential type received: expected 'public-key', received " ++ type)))
  else do
    let response ← raised (responseJson.item "response")
    let attestationObject ← b64Decode (← raised (response.item "attestationObject"))
    let attestation ← raised (cborLoads limit attestationObject)
    match ← raised (attestation.item "authData") with
    | .bytes authDataView =>
      let response ← raised (response.withItem "authenticatorData" (.str (b64Encode authDataView)))
      let authData ← raised (parseAuthenticatorData (limit - 1) authDataView)
      let response ← raised (addPublicKey limit response authData)
      raised (responseJson.withItem "response" response)
    | _ => .error (.python .typeError)

/-! ### On to the page -/

open Js (Value)

mutual

/-- What `json.dumps` here and `JSON.parse` there make of a value, as far as it is one of JSON with
numbers that are exact in JavaScript. -/
def asJson : PyValue → Option Value
  | .none => some .null
  | .bool b => some (.boolean b)
  | .int n => if n.natAbs ≤ 2 ^ 53 then some (.number n) else none
  | .bytes _ => none
  | .str s => some (.string s)
  | .list xs => (asJsonItems xs).map .array
  | .dict entries => (asJsonEntries entries).map .obj

def asJsonItems : List PyValue → Option (List Value)
  | [] => some []
  | x :: xs => do
    let value ← asJson x
    let values ← asJsonItems xs
    some (value :: values)

def asJsonEntries : List (PyValue × PyValue) → Option (List (String × Value))
  | [] => some []
  | (.str key, x) :: rest => do
    let value ← asJson x
    let entries ← asJsonEntries rest
    some ((key, value) :: entries)
  | _ => none

end

theorem asJsonEntries_cons {k x : PyValue} {rest : List (PyValue × PyValue)}
    {ps : List (String × Value)} (h : asJsonEntries ((k, x) :: rest) = some ps) :
    ∃ key value more, k = .str key ∧ asJson x = some value ∧ asJsonEntries rest = some more ∧
      ps = (key, value) :: more := by
  cases k with
  | str key =>
    simp only [asJsonEntries, Option.bind_eq_bind, Option.bind_eq_some_iff, Option.some.injEq] at h
    obtain ⟨value, hvalue, more, hmore, rfl⟩ := h
    exact ⟨key, value, more, rfl, hvalue, hmore, rfl⟩
  | _ => simp [asJsonEntries] at h

theorem sameKey_str (a b : String) : (PyValue.str a).sameKey (.str b) = (a == b) := rfl

/-- A property of the object is the item of the dictionary. -/
theorem item_of_asJson : ∀ {entries : List (PyValue × PyValue)} {ps : List (String × Value)}
    {key : String} {x : Value}, asJsonEntries entries = some ps → ps.lookup key = some x →
    ∃ v, (PyValue.dict entries).item key = .ok v ∧ asJson v = some x
  | [], ps, key, x, h, hx => by
    cases h
    cases hx
  | (k, v) :: rest, ps, key, x, h, hx => by
    obtain ⟨name, value, more, rfl, hvalue, hmore, rfl⟩ := asJsonEntries_cons h
    rw [List.lookup_cons] at hx
    by_cases hname : name = key
    · subst hname
      rw [beq_self_eq_true] at hx
      cases hx
      refine ⟨v, ?_, hvalue⟩
      simp [PyValue.item, sameKey_str]
    · have hkey : (key == name) = false := beq_eq_false_iff_ne.mpr (Ne.symm hname)
      have hskip : (name == key) = false := beq_eq_false_iff_ne.mpr hname
      rw [hkey] at hx
      obtain ⟨w, hw, hjson⟩ := item_of_asJson hmore hx
      refine ⟨w, ?_, hjson⟩
      simp only [PyValue.item, List.find?_cons, sameKey_str, hskip] at hw ⊢
      exact hw

theorem asJsonEntries_replace (key : String) {x : PyValue} {y : Value} (hy : asJson x = some y) :
    ∀ {entries : List (PyValue × PyValue)} {ps : List (String × Value)},
    asJsonEntries entries = some ps →
    asJsonEntries (entries.map fun e => if e.1.sameKey (.str key) then (e.1, x) else e) =
      some (ps.map fun p => if p.1 == key then (p.1, y) else p)
  | [], ps, h => by
    cases h
    rfl
  | (k, v) :: rest, ps, h => by
    obtain ⟨name, value, more, rfl, hvalue, hmore, rfl⟩ := asJsonEntries_cons h
    have hrest := asJsonEntries_replace key hy hmore
    rw [List.map_cons, List.map_cons]
    by_cases hname : (name == key) = true
    · simp [sameKey_str, hname, asJsonEntries, hy, hrest]
    · simp [sameKey_str, hname, asJsonEntries, hvalue, hrest]

theorem asJsonEntries_append {key : String} {x : PyValue} {y : Value} (hy : asJson x = some y) :
    ∀ {entries : List (PyValue × PyValue)} {ps : List (String × Value)},
    asJsonEntries entries = some ps →
    asJsonEntries (entries ++ [(.str key, x)]) = some (ps ++ [(key, y)])
  | [], ps, h => by
    cases h
    simp [asJsonEntries, hy]
  | (k, v) :: rest, ps, h => by
    obtain ⟨name, value, more, rfl, hvalue, hmore, rfl⟩ := asJsonEntries_cons h
    simp [asJsonEntries, hvalue, asJsonEntries_append hy hmore]

theorem any_sameKey (key : String) : ∀ {entries : List (PyValue × PyValue)}
    {ps : List (String × Value)}, asJsonEntries entries = some ps →
    (entries.any fun e => e.1.sameKey (.str key)) = (ps.lookup key).isSome
  | [], ps, h => by
    cases h
    rfl
  | (k, v) :: rest, ps, h => by
    obtain ⟨name, value, more, rfl, hvalue, hmore, rfl⟩ := asJsonEntries_cons h
    rw [List.any_cons, any_sameKey key hmore, List.lookup_cons, sameKey_str]
    by_cases hname : name = key
    · subst hname
      simp
    · have hkey : (key == name) = false := beq_eq_false_iff_ne.mpr (Ne.symm hname)
      rw [hkey, beq_eq_false_iff_ne.mpr hname]
      rfl

theorem lookup_replace (key k : String) (y : Value) (ps : List (String × Value)) :
    (ps.map fun p => if p.1 == key then (p.1, y) else p).lookup k =
      if k = key then (ps.lookup k).map fun _ => y else ps.lookup k := by
  induction ps with
  | nil => split <;> rfl
  | cons p ps ih =>
    obtain ⟨name, v⟩ := p
    rw [List.map_cons, List.lookup_cons]
    by_cases hname : name = key
    · subst hname
      rw [if_pos (beq_self_eq_true _), List.lookup_cons, ih]
      by_cases hk : k = name
      · simp [hk]
      · simp [hk, beq_eq_false_iff_ne.mpr hk]
    · rw [if_neg (fun h => hname (beq_iff_eq.mp h)), List.lookup_cons, ih]
      by_cases hk : k = name
      · subst hk
        simp [hname]
      · simp [beq_eq_false_iff_ne.mpr hk]

/-- Setting an item is setting the property. -/
theorem asJson_withItem {value value' x : PyValue} {w y : Value} {key : String}
    (hw : asJson value = some w) (hy : asJson x = some y)
    (h : value.withItem key x = .ok value') : asJson value' = some (w.set key y) := by
  cases value with
  | dict entries =>
    obtain ⟨ps, hps, rfl⟩ := Option.map_eq_some_iff.mp (by rwa [asJson] at hw)
    have hany := any_sameKey key hps
    simp only [PyValue.withItem, PyValue.setItem, PyValue.hashable, hany] at h
    cases hsome : (ps.lookup key).isSome with
    | true =>
      rw [hsome] at h
      cases h
      rw [asJson, asJsonEntries_replace key hy hps, Option.map_some]
      refine congrArg (fun f => some (Value.object f)) (funext fun k => ?_)
      rw [lookup_replace]
      split
      · rename_i hk
        subst hk
        obtain ⟨v, hv⟩ := Option.isSome_iff_exists.mp hsome
        rw [hv]
        rfl
      · rfl
    | false =>
      rw [hsome] at h
      cases h
      rw [asJson, asJsonEntries_append hy hps, Option.map_some]
      refine congrArg (fun f => some (Value.object f)) (funext fun k => ?_)
      rw [List.lookup_append, List.lookup_cons]
      by_cases hk : k = key
      · subst hk
        simp [Option.isNone_iff_eq_none.mp (Option.isSome_eq_false_iff.mp hsome)]
      · simp [hk, beq_eq_false_iff_ne.mpr hk]
  | _ => cases h

/-! ### Taking the attestation object apart -/

/-- A text in the alphabet is decoded like the page decodes it. -/
theorem b64Decode_digits (ds : List (Fin 64)) :
    (∀ b, Base64Url.bytes ds = some b →
      b64Decode (.str (String.ofList (ds.map Base64Url.digit))) = .ok b) ∧
    (Base64Url.bytes ds = none →
      ∃ e, b64Decode (.str (String.ofList (ds.map Base64Url.digit))) = .error e) := by
  have hascii : ∀ n : Fin 64, (Base64Url.digit n).toNat < 128 := by
    decide +kernel
  have hall : ((ds.map Base64Url.digit).all fun c => c.toNat < 128) = true := by
    simp [hascii]
  obtain ⟨hsome, hnone⟩ := Binascii.go_digits ds []
  simp only [b64Decode, String.toList_ofList, hall, if_true, List.length_map, Binascii.a2bBase64]
  constructor
  · intro b hb
    rw [hsome b hb]
    rfl
  · intro hb
    obtain ⟨e, he⟩ := hnone hb
    rw [he]
    exact ⟨_, rfl⟩

theorem b64Decode_encode (b : Bytes) : b64Decode (.str (b64Encode b)) = .ok b :=
  (b64Decode_digits (Base64Url.digits b)).1 b (Base64Url.bytes_digits b)

theorem alphabet_eq : Base64Url.alphabet.toList = (List.finRange 64).map Base64Url.digit := by
  decide +kernel

theorem exists_digits : ∀ cs : List Char, (∀ c ∈ cs, c ∈ Base64Url.alphabet.toList) →
    ∃ ds : List (Fin 64), cs = ds.map Base64Url.digit
  | [], _ => ⟨[], rfl⟩
  | c :: cs, h => by
    obtain ⟨ds, rfl⟩ := exists_digits cs fun x hx => h x (List.mem_cons_of_mem _ hx)
    have hc : c ∈ (List.finRange 64).map Base64Url.digit := alphabet_eq ▸ h c List.mem_cons_self
    obtain ⟨n, -, rfl⟩ := List.mem_map.mp hc
    exact ⟨n :: ds, rfl⟩

/-- `b64_decode` gives back what `b64_encode` was given, and of the texts in the alphabet it takes
the ones that the page takes, for the same bytes, although it does not fill them up rightly. -/
theorem b64Decode_agrees :
    (∀ b, b64Decode (.str (b64Encode b)) = .ok b) ∧
    ∀ s : String, (∀ c ∈ s.toList, c ∈ Base64Url.alphabet.toList) →
      (b64Decode (.str s)).toOption = Base64Url.decode s := by
  refine ⟨b64Decode_encode, fun s hs => ?_⟩
  obtain ⟨ds, hds⟩ := exists_digits s.toList hs
  have htext : s = String.ofList (ds.map Base64Url.digit) := by
    rw [← hds, String.ofList_toList]
  obtain ⟨hsome, hnone⟩ := b64Decode_digits ds
  rw [htext, Base64Url.decode_digits]
  cases hbytes : Base64Url.bytes ds with
  | none =>
    obtain ⟨e, he⟩ := hnone hbytes
    rw [he]
    rfl
  | some b =>
    rw [hsome b hbytes]
    rfl

/- Two bytes, and a padding that is too long. -/
theorem b64Decode_agrees_two : (b64Decode (.str "AQI")).toOption = some [1, 2] := by
  have hpage : Base64Url.decode "AQI" = some [1, 2] := by decide +kernel
  have hdigits : "AQI".toList = [0, 16, 8].map Base64Url.digit := by decide +kernel
  have hchars : ∀ c ∈ "AQI".toList, c ∈ Base64Url.alphabet.toList := by
    intro c hc
    rw [hdigits] at hc
    obtain ⟨n, -, rfl⟩ := List.mem_map.mp hc
    rw [alphabet_eq]
    exact List.mem_map_of_mem (List.mem_finRange n)
  rw [b64Decode_agrees.2 "AQI" hchars, hpage]

/- In a dictionary there is one entry for a key. -/
theorem find_distinct {key value : PyValue} (hrefl : key.sameKey key = true) :
    ∀ {es : List (PyValue × PyValue)}, distinctKeys es = true → (key, value) ∈ es →
    es.find? (fun e => e.1.sameKey key) = some (key, value)
  | e :: es, hdistinct, hmem => by
    simp only [distinctKeys, Bool.and_eq_true, Bool.not_eq_true', List.any_eq_false] at hdistinct
    rcases List.mem_cons.mp hmem with rfl | hmem
    · rw [List.find?_cons, hrefl]
    · have hother := hdistinct.1.2 (key, value) hmem
      rw [List.find?_cons, Bool.eq_false_iff.mpr hother]
      exact find_distinct hrefl hdistinct.2 hmem

theorem mem_of_pyEntries : ∀ {entries : List (Item × Item)} {es : List (PyValue × PyValue)}
    {k v : Item}, pyEntries entries = some es → (k, v) ∈ entries →
    ∃ key value, pyValue k = some key ∧ pyValue v = some value ∧ (key, value) ∈ es
  | (k', v') :: rest, es, k, v, h, hmem => by
    obtain ⟨key, value, more, hk, hv, hmore, rfl⟩ := pyEntries_cons.mp h
    rcases List.mem_cons.mp hmem with heq | hmem
    · cases heq
      exact ⟨key, value, hk, hv, List.mem_cons_self⟩
    · obtain ⟨key', value', hk', hv', hin⟩ := mem_of_pyEntries hmore hmem
      exact ⟨key', value', hk', hv', List.mem_cons_of_mem _ hin⟩

/-- What is in a map comes out under its key. -/
theorem find_pyValue (key : PyValue) {entries : List (Item × Item)}
    {es : List (PyValue × PyValue)} {k v : Item} {value : PyValue}
    (hes : pyValue (.map entries) = some (.dict es)) (hmem : (k, v) ∈ entries)
    (hk : pyValue k = some key) (hv : pyValue v = some value) (hrefl : key.sameKey key = true) :
    es.find? (fun e => e.1.sameKey key) = some (key, value) := by
  simp only [pyValue, Option.bind_eq_some_iff] at hes
  obtain ⟨es', hes', hif⟩ := hes
  split at hif
  · rename_i hdistinct
    cases hif
    obtain ⟨key', value', hk', hv', hin⟩ := mem_of_pyEntries hes' hmem
    rw [hk] at hk'
    rw [hv] at hv'
    cases hk'
    cases hv'
    exact find_distinct hrefl hdistinct hin
  · cases hif

theorem loads_of_pyValue {item : Item} {limit : Nat} {value : PyValue} (hfits : Cbor.Fits item)
    (hdepth : Cbor.depth item < limit) (h : pyValue item = some value) :
    cborLoads limit (Cbor.encode item) = .ok value :=
  (cborLoads_encode hfits hdepth).trans (loaded_of_pyValue item value h)

/- No bytes load as no dictionary. -/
theorem encode_ne_of_dict {item : Item} {es : List (PyValue × PyValue)} (hfits : Cbor.Fits item)
    (h : pyValue item = some (.dict es)) : Cbor.encode item ≠ [] := by
  intro hempty
  have hloads := loads_of_pyValue hfits (Nat.lt_succ_self _) h
  rw [hempty] at hloads
  have hnot := cborLoads_not_dict (fun b hb => by cases hb) hloads
  cases hnot

/-! ### From the portal to the page -/

open PageCredential (Base64UrlString AuthenticatorResponseJSON ResponseJSON PublicKeyCredential
  reconstructCredentialResponse)

/-- A property that is there is an item. -/
theorem item_of_get {v : PyValue} {w x : Value} {key : String} (hw : asJson v = some w)
    (hget : w.get key = .ok x) (hx : x ≠ .undefined) :
    ∃ u, v.item key = .ok u ∧ asJson u = some x := by
  cases v with
  | dict entries =>
    obtain ⟨ps, hps, rfl⟩ := Option.map_eq_some_iff.mp (by rwa [asJson] at hw)
    rw [Value.get_obj, Except.ok.injEq] at hget
    cases hlookup : ps.lookup key with
    | none =>
      rw [hlookup] at hget
      exact absurd hget.symm hx
    | some y =>
      rw [hlookup] at hget
      cases hget
      exact item_of_asJson hps hlookup
  | int n =>
    rw [asJson] at hw
    split at hw
    · cases hw
      cases hget
      exact absurd rfl hx
    · cases hw
  | list xs =>
    obtain ⟨values, -, rfl⟩ := Option.map_eq_some_iff.mp (by rwa [asJson] at hw)
    cases hget
    exact absurd rfl hx
  | bytes b => cases hw
  | none =>
    cases hw
    cases hget
  | _ =>
    cases hw
    cases hget
    exact absurd rfl hx

theorem asJson_string {v : PyValue} {text : String} (h : asJson v = some (.string text)) :
    v = .str text := by
  cases v with
  | str t =>
    cases h
    rfl
  | int n =>
    rw [asJson] at h
    split at h <;> cases h
  | list xs =>
    obtain ⟨values, -, heq⟩ := Option.map_eq_some_iff.mp (by rwa [asJson] at h)
    cases heq
  | dict entries =>
    obtain ⟨ps, -, heq⟩ := Option.map_eq_some_iff.mp (by rwa [asJson] at h)
    cases heq
  | _ => cases h

theorem isDict_of_item {v u : PyValue} {key : String} (h : v.item key = .ok u) :
    v.isDict = true := by
  cases v with
  | dict entries => rfl
  | _ => cases h

theorem withItem_ok {v : PyValue} (h : v.isDict = true) (key : String) (x : PyValue) :
    ∃ v', v.withItem key x = .ok v' ∧ v'.isDict = true := by
  cases v with
  | dict entries =>
    simp only [PyValue.withItem, PyValue.setItem]
    split
    · rename_i hkey
      cases hkey
    · split
      · exact ⟨_, rfl, rfl⟩
      · exact ⟨_, rfl, rfl⟩
  | _ => cases h

section Registration

variable {d : WellFormed} {a : AttestedCredentialData} {entries : List (Item × Item)}
  {es ks : List (PyValue × PyValue)} {algorithm : Item} {alg : Int} {limit : Nat}

/-- The attestation object and the key in it are nested no deeper than the calls may be that read
them. -/
def NestedWithin (limit : Nat) (entries : List (Item × Item)) (a : AttestedCredentialData) :
    Prop :=
  Cbor.depth (.map entries) < limit ∧ Cbor.depth (.map a.publicKey) + 1 < limit

theorem keyReadable_of_pyValue (hattested : d.attested = some a)
    (hks : pyValue (.map a.publicKey) = some (.dict ks))
    (hdepth : Cbor.depth (.map a.publicKey) ≤ limit) : d.keyReadable limit := by
  intro a' ha'
  rw [hattested] at ha'
  cases ha'
  refine ⟨?_, hdepth⟩
  rw [← loaded_isOk, loaded_of_pyValue _ _ hks]
  rfl

/- The key is not empty, and has its algorithm under 3. -/
theorem addPublicKey_ok (hks : pyValue (.map a.publicKey) = some (.dict ks))
    (hmem : (.uint coseAlg, algorithm) ∈ a.publicKey) (halg : pyValue algorithm = some (.int alg))
    {authData : AuthenticatorData} (hkey : authData.pubKeyBytes = some a.coseKey)
    {response : PyValue} (hdict : response.isDict = true) {w : Value}
    (hw : asJson response = some w) (hexact : alg.natAbs ≤ 2 ^ 53)
    (hdepth : Cbor.depth (.map a.publicKey) + 1 < limit) :
    ∃ response', addPublicKey limit response authData = .ok response' ∧
      asJson response' = some ((w.set "publicKey" (.string (b64Encode a.coseKey))).set
        "publicKeyAlgorithm" (.number alg)) := by
  obtain ⟨r1, h1, hdict1⟩ := withItem_ok hdict "publicKey" (.str (b64Encode a.coseKey))
  obtain ⟨r2, h2, -⟩ := withItem_ok hdict1 "publicKeyAlgorithm" (.int alg)
  have hw1 := asJson_withItem hw (y := .string (b64Encode a.coseKey)) rfl h1
  have halgorithm : asJson (.int alg) = some (.number alg) := by
    rw [asJson, if_pos hexact]
  have hw2 := asJson_withItem hw1 halgorithm h2
  have hloads : cborLoads (limit - 1) a.coseKey = .ok (.dict ks) :=
    loads_of_pyValue a.publicKey_fits (by omega) hks
  have hfind := find_pyValue (.int coseAlg) hks hmem rfl halg rfl
  have hitem : (PyValue.dict ks).itemAt coseAlg = .ok (.int alg) := by
    simp only [PyValue.itemAt, hfind]
  refine ⟨r2, ?_, hw2⟩
  cases hbytes : a.coseKey with
  | nil => exact absurd hbytes (encode_ne_of_dict a.publicKey_fits hks)
  | cons b bs =>
    rw [hbytes] at hkey h1 hloads
    simp only [addPublicKey, hkey, h1, hloads, hitem, h2, Bind.bind, Except.bind]

/- The key has been loaded for it. -/
theorem depth_of_addPublicKey (hks : pyValue (.map a.publicKey) = some (.dict ks))
    {authData : AuthenticatorData} (hkey : authData.pubKeyBytes = some a.coseKey)
    {response response' : PyValue} (h : addPublicKey limit response authData = .ok response') :
    Cbor.depth (.map a.publicKey) + 1 < limit := by
  unfold addPublicKey at h
  rw [hkey] at h
  cases hbytes : a.coseKey with
  | nil => exact absurd hbytes (encode_ne_of_dict a.publicKey_fits hks)
  | cons b bs =>
    rw [hbytes] at h
    obtain ⟨response₁, -, h⟩ := bind_ok h
    obtain ⟨key, hloads, -⟩ := bind_ok h
    rw [← hbytes] at hloads
    have hdepth := depth_lt_of_cborLoads a.publicKey_fits hloads
    omega

/-- `create_passkey` fails if what it reads for the extensions cannot be read. Otherwise the
response has the three properties, and everything else as it came. -/
theorem createPasskey_eq (hwithin : NestedWithin limit entries a) (hattested : d.attested = some a)
    (hfits : Cbor.Fits (.map entries)) (hes : pyValue (.map entries) = some (.dict es))
    (hauth : (.text "authData", .bytes d.encode) ∈ entries)
    (hks : pyValue (.map a.publicKey) = some (.dict ks))
    (hmem : (.uint coseAlg, algorithm) ∈ a.publicKey) (halg : pyValue algorithm = some (.int alg))
    (hexact : alg.natAbs ≤ 2 ^ 53) {json : PyValue} {w r : Value} (hjson : asJson json = some w)
    (hresponse : w.get "response" = .ok r) (hr : r ≠ .undefined)
    (hattestation : r.get "attestationObject" =
      .ok (.string (b64Encode (Cbor.encode (.map entries))))) :
    (∀ e, d.extensionsRead (limit - 1) = .error e →
      createPasskey limit "public-key" json = .error (.python e)) ∧
    ∀ x, d.extensionsRead (limit - 1) = .ok x →
      ∃ json', createPasskey limit "public-key" json = .ok json' ∧
        asJson json' = some (w.set "response"
          (((r.set "authenticatorData" (.string (b64Encode d.encode))).set
            "publicKey" (.string (b64Encode a.coseKey))).set
              "publicKeyAlgorithm" (.number alg))) := by
  obtain ⟨hentries, hkeyDepth⟩ := hwithin
  obtain ⟨response, hitem, hresponseJson⟩ := item_of_get hjson hresponse hr
  obtain ⟨text, hobject, htext⟩ := item_of_get hresponseJson hattestation (fun h => by cases h)
  have hstr := asJson_string htext
  subst hstr
  have hloads := loads_of_pyValue hfits hentries hes
  have hfind := find_pyValue (.str "authData") hes hauth rfl rfl (beq_self_eq_true _)
  have hview : (PyValue.dict es).item "authData" = .ok (.bytes d.encode) := by
    simp only [PyValue.item, hfind]
  obtain ⟨r1, h1, hdict1⟩ := withItem_ok (isDict_of_item hobject) "authenticatorData"
    (.str (b64Encode d.encode))
  have hw1 := asJson_withItem hresponseJson (y := .string (b64Encode d.encode)) rfl h1
  have hdepth : Cbor.depth (.map a.publicKey) ≤ limit - 1 := by omega
  have hparse := d.parse_of_readable (keyReadable_of_pyValue hattested hks hdepth)
  have hkey : ∀ x, (d.result x).pubKeyBytes = some a.coseKey := by
    intro x
    simp [WellFormed.result, hattested]
  constructor
  · intro e he
    rw [he] at hparse
    simp only [createPasskey, ne_eq, not_true_eq_false, if_false, hitem, hobject, b64Decode_encode,
      hloads, hview, h1, hparse, raised, Except.mapError, Except.map, Bind.bind, Except.bind]
  · intro x hx
    rw [hx] at hparse
    obtain ⟨r2, h2, hw2⟩ := addPublicKey_ok hks hmem halg (hkey x) hdict1 hw1 hexact hkeyDepth
    obtain ⟨json', h3, -⟩ := withItem_ok (isDict_of_item hitem) "response" r2
    refine ⟨json', ?_, asJson_withItem hjson hw2 h3⟩
    simp only [createPasskey, ne_eq, not_true_eq_false, if_false, hitem, hobject, b64Decode_encode,
      hloads, hview, h1, hparse, h2, h3, raised, Except.mapError, Except.map, Bind.bind,
      Except.bind]

/- What has been completed has been read on the way. -/
theorem within_of_createPasskey (hattested : d.attested = some a)
    (hfits : Cbor.Fits (.map entries)) (hes : pyValue (.map entries) = some (.dict es))
    (hauth : (.text "authData", .bytes d.encode) ∈ entries)
    (hks : pyValue (.map a.publicKey) = some (.dict ks)) {json json' : PyValue} {w r : Value}
    (hjson : asJson json = some w) (hresponse : w.get "response" = .ok r) (hr : r ≠ .undefined)
    (hattestation : r.get "attestationObject" =
      .ok (.string (b64Encode (Cbor.encode (.map entries)))))
    (h : createPasskey limit "public-key" json = .ok json') : NestedWithin limit entries a := by
  obtain ⟨response, hitem, hresponseJson⟩ := item_of_get hjson hresponse hr
  obtain ⟨text, hobject, htext⟩ := item_of_get hresponseJson hattestation (fun h => by cases h)
  have hstr := asJson_string htext
  subst hstr
  simp only [createPasskey, ne_eq, not_true_eq_false, if_false, hitem, hobject, b64Decode_encode,
    raised, Except.mapError, Bind.bind, Except.bind] at h
  cases hloads : cborLoads limit (Cbor.encode (.map entries)) with
  | error e =>
    rw [hloads] at h
    cases h
  | ok value =>
    have hentries := depth_lt_of_cborLoads hfits hloads
    have hfind := find_pyValue (.str "authData") hes hauth rfl rfl (beq_self_eq_true _)
    rw [loads_of_pyValue hfits hentries hes] at h
    simp only [PyValue.item, hfind] at h
    obtain ⟨r1, h1, -⟩ := withItem_ok (isDict_of_item hobject) "authenticatorData"
      (.str (b64Encode d.encode))
    rw [h1] at h
    simp only at h
    cases hparse : parseAuthenticatorData (limit - 1) d.encode with
    | error e =>
      rw [hparse] at h
      cases h
    | ok authData =>
      rw [hparse] at h
      simp only at h
      have hresult := d.parse_of_readable (d.keyReadable_of_parse hparse)
      rw [hparse] at hresult
      obtain ⟨x, -, rfl⟩ := map_ok hresult.symm
      have hkey : (d.result x).pubKeyBytes = some a.coseKey := by
        simp [WellFormed.result, hattested]
      cases hadd : addPublicKey limit r1 (d.result x) with
      | error e =>
        rw [hadd] at h
        cases h
      | ok r2 => exact ⟨hentries, depth_of_addPublicKey hks hkey hadd⟩

/- The response that `create_passkey` makes of one. -/
def completed (d : WellFormed) (a : AttestedCredentialData) (alg : Int)
    (clientDataJSON : Base64UrlString) (transports : List String)
    (attestationObject : Base64UrlString) : AuthenticatorResponseJSON :=
  .attestation clientDataJSON (.ofBytes d.encode) transports (some (.ofBytes a.coseKey)) alg
    attestationObject

theorem set_obj {ps qs : List (String × Value)} {key : String} {y : Value}
    (hkey : qs.lookup key = some y) (hother : ∀ k, k ≠ key → ps.lookup k = qs.lookup k) :
    (Value.obj ps).set key y = .obj qs := by
  refine congrArg Value.object (funext fun k => ?_)
  by_cases hk : k = key
  · rw [if_pos hk, hk, hkey]
    rfl
  · rw [if_neg hk]
    exact congrArg Value.ofOption (hother k hk)

theorem set_completed {clientDataJSON authenticatorData attestationObject : Base64UrlString}
    {transports : List String} {publicKey : Option Base64UrlString} {publicKeyAlgorithm : Int}
    {c : ResponseJSON} (hc : c.response = .attestation clientDataJSON authenticatorData transports
      publicKey publicKeyAlgorithm attestationObject) :
    c.toValue.set "response" (((c.response.toValue.set "authenticatorData"
      (.string (b64Encode d.encode))).set "publicKey" (.string (b64Encode a.coseKey))).set
        "publicKeyAlgorithm" (.number alg)) =
      { c with
        response := completed d a alg clientDataJSON transports attestationObject }.toValue := by
  have hresponse : ((c.response.toValue.set "authenticatorData"
      (.string (b64Encode d.encode))).set "publicKey" (.string (b64Encode a.coseKey))).set
        "publicKeyAlgorithm" (.number alg) =
      (completed d a alg clientDataJSON transports attestationObject).toValue := by
    rw [hc]
    refine congrArg Value.object (funext fun k => ?_)
    by_cases h1 : k = "publicKeyAlgorithm"
    · subst h1
      rfl
    · by_cases h2 : k = "publicKey"
      · subst h2
        rfl
      · by_cases h3 : k = "authenticatorData"
        · subst h3
          rfl
        · simp [h1, h2, h3, List.lookup_cons, beq_eq_false_iff_ne.mpr h1,
            beq_eq_false_iff_ne.mpr h2, beq_eq_false_iff_ne.mpr h3]
  rw [hresponse]
  refine set_obj rfl fun k hk => ?_
  simp [List.lookup_cons, beq_eq_false_iff_ne.mpr hk]

theorem encode_ne (d : WellFormed) : d.encode ≠ [] := by
  intro hempty
  have hbyte := d.flagByte_read
  rw [hempty] at hbyte
  cases hbyte

/- What is read for the extensions. -/
theorem extensionsRead_eq (limit : Nat) (hattested : d.attested = some a) :
    (∃ x, d.extensionsRead limit = .ok x) ↔ ∀ exts, d.extensions = some exts →
      ∃ x, cborLoads limit ((Cbor.encode (.map exts)).drop 37) = .ok x := by
  cases hextensions : d.extensions with
  | none =>
    refine iff_of_true ⟨.none, ?_⟩ fun exts hexts => by cases hexts
    simp [WellFormed.extensionsRead, hextensions]
  | some exts =>
    rw [d.extensionsRead_attested limit hattested hextensions]
    exact ⟨fun h exts' heq => by cases heq; exact h, fun h => h exts rfl⟩

/-- What the page is told of a reply that has been completed. -/
theorem page_completed {clientDataJSON : Base64UrlString} {transports : List String}
    {attestationObject : Bytes} {reply : ResponseJSON} (hobject : attestationObject ≠ [])
    (hkey : a.coseKey ≠ []) (hreply : reply.response =
      completed d a alg clientDataJSON transports (.ofBytes attestationObject)) :
    ∃ page, reconstructCredentialResponse reply.toValue = .ok page ∧
      page.getAuthenticatorData = .ok (.arrayBuffer d.encode) ∧
      page.getPublicKey = .ok (.arrayBuffer a.coseKey) ∧
      page.getPublicKeyAlgorithm = .ok (.number alg) ∧
      page.response.get "attestationObject" = .ok (.arrayBuffer attestationObject) ∧
      page.getTransports = .ok (.array (transports.map .string)) := by
  obtain ⟨extensions, hextensions, -⟩ :=
    PageCredential.extensionResults_spec reply.clientExtensionResults
  have hrecognized : reply.response.Recognized := by
    rw [hreply]
    exact fun hempty => hobject (Base64Url.encode_injective hempty)
  obtain ⟨hdata, halgorithm, hpublicKey, htransports⟩ :=
    PageCredential.methods_page reply extensions hreply
  have hbuffer := Base64UrlString.buffer_ofBytes d.encode
  rw [if_neg (encode_ne d)] at hbuffer
  have hobjectBuffer := Base64UrlString.buffer_ofBytes attestationObject
  rw [if_neg hobject] at hobjectBuffer
  have hkeyBuffer := Base64UrlString.buffer_ofBytes a.coseKey
  rw [if_neg hkey] at hkeyBuffer
  refine ⟨reply.page extensions, ?_, ?_, ?_, halgorithm, ?_, htransports⟩
  · rw [PageCredential.reconstruct_eq _ hextensions,
      AuthenticatorResponseJSON.reconstructResponse_ok hrecognized]
    rfl
  · rw [hdata, hbuffer]
  · rw [hpublicKey, ← hkeyBuffer]
    rfl
  · rw [← hobjectBuffer]
    show reply.response.buffers.get "attestationObject" = _
    rw [hreply]
    rfl

/-- What the page is told by the methods of a registration is what is in the attestation object that
the portal has replied with, byte by byte; the registration fails exactly if something is nested too
deep, or there are extensions and what is found 37 bytes into them cannot be read. -/
theorem registration_reaches_page (limit : Nat) (hattested : d.attested = some a)
    (hfits : Cbor.Fits (.map entries)) (hes : pyValue (.map entries) = some (.dict es))
    (hauth : (.text "authData", .bytes d.encode) ∈ entries)
    (hks : pyValue (.map a.publicKey) = some (.dict ks))
    (hmem : (.uint coseAlg, algorithm) ∈ a.publicKey) (halg : pyValue algorithm = some (.int alg))
    (hexact : alg.natAbs ≤ 2 ^ 53) {json : PyValue} {c : ResponseJSON}
    (hjson : asJson json = some c.toValue)
    {clientDataJSON authenticatorData : Base64UrlString} {transports : List String}
    {publicKey : Option Base64UrlString} {publicKeyAlgorithm : Int}
    (hc : c.response = .attestation clientDataJSON authenticatorData transports publicKey
      publicKeyAlgorithm (.ofBytes (Cbor.encode (.map entries)))) :
    ((∃ json', createPasskey limit "public-key" json = .ok json') ↔
      NestedWithin limit entries a ∧ ∀ exts, d.extensions = some exts →
        ∃ x, cborLoads (limit - 1) ((Cbor.encode (.map exts)).drop 37) = .ok x) ∧
    ∀ json', createPasskey limit "public-key" json = .ok json' →
      ∃ reply : ResponseJSON, asJson json' = some reply.toValue ∧
        ∃ page, reconstructCredentialResponse reply.toValue = .ok page ∧
          page.getAuthenticatorData = .ok (.arrayBuffer d.encode) ∧
          page.getPublicKey = .ok (.arrayBuffer a.coseKey) ∧
          page.getPublicKeyAlgorithm = .ok (.number alg) ∧
          page.response.get "attestationObject" =
            .ok (.arrayBuffer (Cbor.encode (.map entries))) ∧
          page.getTransports = .ok (.array (transports.map .string)) := by
  have hr : c.response.toValue ≠ .undefined := by
    rw [hc]
    exact fun h => by cases h
  have hattestation : c.response.toValue.get "attestationObject" =
      .ok (.string (b64Encode (Cbor.encode (.map entries)))) := by
    rw [hc]
    rfl
  have hresponse : c.toValue.get "response" = .ok c.response.toValue := rfl
  have hcreated (hwithin : NestedWithin limit entries a) := createPasskey_eq hwithin hattested
    hfits hes hauth hks hmem halg hexact hjson hresponse hr hattestation
  have hread : (∃ json', createPasskey limit "public-key" json = .ok json') ↔
      NestedWithin limit entries a ∧ ∃ x, d.extensionsRead (limit - 1) = .ok x := by
    constructor
    · rintro ⟨json', hcreate⟩
      have hwithin := within_of_createPasskey hattested hfits hes hauth hks hjson hresponse hr
        hattestation hcreate
      refine ⟨hwithin, ?_⟩
      cases hx : d.extensionsRead (limit - 1) with
      | error e =>
        rw [(hcreated hwithin).1 e hx] at hcreate
        cases hcreate
      | ok x => exact ⟨x, rfl⟩
    · rintro ⟨hwithin, x, hx⟩
      obtain ⟨json', hcreate, -⟩ := (hcreated hwithin).2 x hx
      exact ⟨json', hcreate⟩
  refine ⟨hread.trans (and_congr_right fun _ => extensionsRead_eq (limit - 1) hattested),
    fun json' hcreate => ?_⟩
  obtain ⟨hwithin, x, hx⟩ := hread.mp ⟨json', hcreate⟩
  obtain ⟨json'', hcreate', hjson'⟩ := (hcreated hwithin).2 x hx
  rw [hcreate] at hcreate'
  cases hcreate'
  rw [set_completed hc] at hjson'
  exact ⟨_, hjson', page_completed (encode_ne_of_dict hfits hes)
    (encode_ne_of_dict a.publicKey_fits hks) rfl⟩

end Registration

/-! ### A registration with a key and an extension -/

def sampleEntries : List (Item × Item) :=
  [(.text "fmt", .text "none"), (.text "attStmt", .map []),
    (.text "authData", .bytes (WellFormed.sample (some WellFormed.sampleAttested)).encode)]

theorem sampleEntries_fit : Cbor.Fits (.map sampleEntries) := by
  have hlength : (WellFormed.sample (some WellFormed.sampleAttested)).encode.length <
      18446744073709551616 := by decide +kernel
  have hfmt : (Cbor.utf8 "fmt").length = 3 := by decide +kernel
  have hnone : (Cbor.utf8 "none").length = 4 := by decide +kernel
  have hstmt : (Cbor.utf8 "attStmt").length = 7 := by decide +kernel
  have hdata : (Cbor.utf8 "authData").length = 8 := by decide +kernel
  simp [sampleEntries, Cbor.Fits, Cbor.FitEntries, hfmt, hnone, hstmt, hdata]
  exact hlength

def sampleObject : Base64UrlString := .ofBytes (Cbor.encode (.map sampleEntries))

def sampleRegistration : ResponseJSON where
  id := "AQID"
  rawId := .ofBytes [1, 2, 3]
  response := .attestation (.ofBytes [4]) (.ofBytes []) ["usb"] (some (.ofBytes [])) 0 sampleObject
  authenticatorAttachment := some "cross-platform"
  clientExtensionResults := ⟨none, none, none, none⟩
  type := "public-key"

def sampleJson : PyValue :=
  .dict [(.str "id", .str "AQID"), (.str "rawId", .str (b64Encode [1, 2, 3])),
    (.str "response", .dict [(.str "clientDataJSON", .str (b64Encode [4])),
      (.str "authenticatorData", .str (b64Encode [])), (.str "transports", .list [.str "usb"]),
      (.str "publicKey", .str (b64Encode [])), (.str "publicKeyAlgorithm", .int 0),
      (.str "attestationObject", .str sampleObject.text)]),
    (.str "authenticatorAttachment", .str "cross-platform"),
    (.str "clientExtensionResults", .dict []), (.str "type", .str "public-key")]

theorem sampleJson_eq : asJson sampleJson = some sampleRegistration.toValue := by
  have hextensions : Value.obj [] = sampleRegistration.clientExtensionResults.toValue := by
    show Value.obj [] = .obj [("hmacGetSecret", .undefined), ("prf", .undefined),
      ("largeBlob", .undefined), ("credProps", .undefined)]
    simp [Value.obj_nil_eq]
  simp [sampleJson, asJson, asJsonEntries, asJsonItems, hextensions, ResponseJSON.toValue]
  rfl

theorem registration_reaches_page_sample :
    ∃ json' page, createPasskey 1000 "public-key" sampleJson = .ok json' ∧
      (asJson json').map reconstructCredentialResponse = some (.ok page) ∧
      page.getAuthenticatorData =
        .ok (.arrayBuffer (WellFormed.sample (some WellFormed.sampleAttested)).encode) ∧
      page.getPublicKey = .ok (.arrayBuffer WellFormed.sampleAttested.coseKey) ∧
      page.getPublicKeyAlgorithm = .ok (.number (-7)) := by
  have halg : pyValue (.nint 6) = some (.int (-7)) := rfl
  have hauth : (Item.text "authData",
      Item.bytes (WellFormed.sample (some WellFormed.sampleAttested)).encode) ∈ sampleEntries :=
    List.mem_cons_of_mem _ (List.mem_cons_of_mem _ (List.mem_singleton_self _))
  obtain ⟨hcreates, hreaches⟩ := registration_reaches_page
    (d := WellFormed.sample (some WellFormed.sampleAttested)) 1000 rfl sampleEntries_fit rfl hauth
    rfl (List.mem_singleton_self _) halg (by decide) sampleJson_eq rfl
  have hwithin : NestedWithin 1000 sampleEntries WellFormed.sampleAttested := by
    constructor <;> decide
  have hextensions : ∀ exts, some WellFormed.sampleExtensions = some exts →
      ∃ x, cborLoads 999 ((Cbor.encode (.map exts)).drop 37) = .ok x := by
    intro exts hexts
    cases hexts
    have hshort : (Cbor.encode (.map WellFormed.sampleExtensions)).drop 37 = [] := by
      decide +kernel
    rw [hshort]
    exact ⟨.none, rfl⟩
  obtain ⟨json', hcreate⟩ := hcreates.mpr ⟨hwithin, hextensions⟩
  obtain ⟨reply, hjson, page, hpage, hdata, hkey, halgorithm, -⟩ := hreaches json' hcreate
  exact ⟨json', page, hcreate, by rw [hjson, Option.map_some, hpage], hdata, hkey, halgorithm⟩

end Shim

end Credentialsd
