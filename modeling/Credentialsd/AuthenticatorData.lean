import Credentialsd.CborLoads

/-!
# Authenticator data in the native messaging host
(`webext/app/credential_manager_shim.py:344-406`)

`_parse_authenticator_data` finds the parts by counting bytes. With attested credential data, the
37 bytes before it are counted twice on the way to the extensions. `limit` is how many calls of
`_read_value` the interpreter lets a `parse` nest that is called from here.
-/

namespace Credentialsd

open Cbor (Item drop_append)

namespace Shim

/-! ### Parsing -/

structure AuthenticatorData where
  rpIdHash : Bytes
  flags : List String
  signCount : Nat
  aaguid : Option Bytes
  credId : Option Bytes
  pubKeyBytes : Option Bytes
  extensions : PyValue

def flagBits : List String := ["UP", "RFU1", "UV", "RFU2", "RFU2", "RFU2", "AT", "ED"]

/-- The set of the names of the bits that are set, the lowest bit first. -/
def readFlags : List String → Nat → List String
  | [], _ => []
  | bit :: bits, flagByte =>
    if flagByte % 2 = 1 then (readFlags bits (flagByte / 2)).insert bit
    else readFlags bits (flagByte / 2)

/- The branch of `AT`: `attested_cred_data_len`, `aaguid`, `cred_id` and `cose_key_bytes`. -/
def readAttested (limit : Nat) (authData : Bytes) : Except PyError (Nat × Bytes × Bytes × Bytes) := do
  let aaguid := slice authData 37 (37 + 16)
  let credIdLength ← unpack 2 (slice authData 53 55)
  let credId := slice authData 55 (55 + credIdLength)
  let (_, pos) ← parse limit (authData.drop (55 + credIdLength))
  let coseKeyBytes := (authData.drop (55 + credIdLength)).take pos
  if coseKeyBytes.length = pos then
    .ok (55 + credIdLength + coseKeyBytes.length, aaguid, credId, coseKeyBytes)
  else .error .assertionError

def readExtensions (limit : Nat) (authData : Bytes) (flags : List String)
    (attestedCredDataLen : Nat) : Except PyError PyValue :=
  if "ED" ∈ flags then cborLoads limit (authData.drop (37 + attestedCredDataLen)) else .ok .none

/-- `_parse_authenticator_data` -/
def parseAuthenticatorData (limit : Nat) (authData : Bytes) : Except PyError AuthenticatorData :=
  match authData[32]? with
  | none => .error .indexError
  | some flagByte => do
    let clientRpIdHash := slice authData 0 32
    let flags := readFlags flagBits flagByte.toNat
    let signCount ← unpack 4 (slice authData 33 37)
    if "AT" ∈ flags then do
      let (attestedCredDataLen, aaguid, credId, coseKeyBytes) ← readAttested limit authData
      let extensions ← readExtensions limit authData flags attestedCredDataLen
      .ok ⟨clientRpIdHash, flags, signCount, some aaguid, some credId, some coseKeyBytes,
        extensions⟩
    else do
      let extensions ← readExtensions limit authData flags 0
      .ok ⟨clientRpIdHash, flags, signCount, none, none, none, extensions⟩

/-! ### Well-formed authenticator data -/

structure AttestedCredentialData where
  aaguid : Bytes
  credId : Bytes
  publicKey : List (Item × Item)
  aaguid_length : aaguid.length = 16
  credId_length : credId.length < 65536
  publicKey_fits : Cbor.Fits (.map publicKey)

/-- `otherFlags` are the six lower bits of the flags. -/
structure WellFormed where
  rpIdHash : Bytes
  otherFlags : Nat
  signCount : Nat
  attested : Option AttestedCredentialData
  extensions : Option (List (Item × Item))
  rpIdHash_length : rpIdHash.length = 32
  otherFlags_lt : otherFlags < 64
  signCount_lt : signCount < 4294967296
  extensions_fit : ∀ entries, extensions = some entries → Cbor.Fits (.map entries)

namespace AttestedCredentialData

def coseKey (a : AttestedCredentialData) : Bytes := Cbor.encode (.map a.publicKey)

def encode (a : AttestedCredentialData) : Bytes :=
  a.aaguid ++ (Cbor.bigEndian 2 a.credId.length ++ (a.credId ++ a.coseKey))

end AttestedCredentialData

namespace WellFormed

def flagByte (d : WellFormed) : Nat :=
  d.otherFlags + (if d.attested.isSome then 64 else 0) + (if d.extensions.isSome then 128 else 0)

def attestedBytes (d : WellFormed) : Bytes := (d.attested.map fun a => a.encode).getD []

def extensionBytes (d : WellFormed) : Bytes :=
  (d.extensions.map fun entries => Cbor.encode (.map entries)).getD []

def encode (d : WellFormed) : Bytes :=
  d.rpIdHash ++ ([UInt8.ofNat d.flagByte] ++
    (Cbor.bigEndian 4 d.signCount ++ (d.attestedBytes ++ d.extensionBytes)))

/-- What parsing has to return. -/
structure Returned (d : WellFormed) (r : AuthenticatorData) : Prop where
  rpIdHash : r.rpIdHash = d.rpIdHash
  signCount : r.signCount = d.signCount
  aaguid : r.aaguid = d.attested.map fun a => a.aaguid
  credId : r.credId = d.attested.map fun a => a.credId
  pubKeyBytes : r.pubKeyBytes = d.attested.map fun a => a.coseKey
  extensions : some r.extensions =
    (d.extensions.map fun entries => pyValue (.map entries)).getD (some .none)

def ReturnsEncoded (limit : Nat) (d : WellFormed) : Prop :=
  ∃ r, parseAuthenticatorData limit d.encode = .ok r ∧ Returned d r

end WellFormed

/-! ### The flags -/

theorem mem_readFlags_cons (name bit : String) (bits : List String) (flagByte : Nat) :
    name ∈ readFlags (bit :: bits) flagByte ↔
      (flagByte % 2 = 1 ∧ name = bit) ∨ name ∈ readFlags bits (flagByte / 2) := by
  simp only [readFlags]
  split
  · rename_i h
    simp [h]
  · rename_i h
    simp [h]

theorem at_mem (flagByte : Nat) :
    "AT" ∈ readFlags flagBits flagByte ↔ flagByte / 64 % 2 = 1 := by
  simp only [flagBits, mem_readFlags_cons, Nat.div_div_eq_div_mul]
  simp [readFlags]

theorem ed_mem (flagByte : Nat) :
    "ED" ∈ readFlags flagBits flagByte ↔ flagByte / 128 % 2 = 1 := by
  simp only [flagBits, mem_readFlags_cons, Nat.div_div_eq_div_mul]
  simp [readFlags]

namespace WellFormed

variable (d : WellFormed)

def flags : List String := readFlags flagBits d.flagByte

theorem at_mem_flags : "AT" ∈ d.flags ↔ d.attested.isSome := by
  have hother := d.otherFlags_lt
  rw [flags, at_mem, flagByte]
  cases d.attested <;> cases d.extensions <;> simp <;> omega

theorem ed_mem_flags : "ED" ∈ d.flags ↔ d.extensions.isSome := by
  have hother := d.otherFlags_lt
  rw [flags, ed_mem, flagByte]
  cases d.attested <;> cases d.extensions <;> simp <;> omega

theorem flagByte_lt : d.flagByte < 256 := by
  have hother := d.otherFlags_lt
  rw [flagByte]
  cases d.attested <;> cases d.extensions <;> simp <;> omega

/-! ### Where the parts lie -/

theorem drop_rpIdHash : d.encode.drop 32 = [UInt8.ofNat d.flagByte] ++
    (Cbor.bigEndian 4 d.signCount ++ (d.attestedBytes ++ d.extensionBytes)) := by
  have hstart : d.encode.drop 0 = d.rpIdHash ++ _ := List.drop_zero
  have hdrop := drop_append hstart
  rwa [d.rpIdHash_length] at hdrop

theorem drop_flags :
    d.encode.drop 33 = Cbor.bigEndian 4 d.signCount ++ (d.attestedBytes ++ d.extensionBytes) :=
  drop_append d.drop_rpIdHash

theorem drop_signCount : d.encode.drop 37 = d.attestedBytes ++ d.extensionBytes := by
  have hdrop := drop_append d.drop_flags
  rwa [Cbor.bigEndian_length] at hdrop

theorem rpIdHash_read : slice d.encode 0 32 = d.rpIdHash := by
  have hstart : d.encode.drop 0 = d.rpIdHash ++ _ := List.drop_zero
  have hslice := slice_append hstart
  rwa [d.rpIdHash_length] at hslice

theorem flagByte_read : d.encode[32]? = some (UInt8.ofNat d.flagByte) := by
  have hdrop := congrArg (fun b => b[0]?) d.drop_rpIdHash
  simpa using hdrop

theorem signCount_read : unpack 4 (slice d.encode 33 37) = .ok d.signCount := by
  have hslice := slice_append d.drop_flags
  rw [Cbor.bigEndian_length] at hslice
  rw [hslice]
  exact unpack_bigEndian d.signCount_lt

end WellFormed

/-- What comes before and after the attested credential data is of no matter. -/
theorem readAttested_eq (limit : Nat) {authData rest : Bytes} {a : AttestedCredentialData}
    (hdrop : authData.drop 37 = a.encode ++ rest) :
    readAttested limit authData = parse limit (a.coseKey ++ rest) >>= fun r =>
      if ((a.coseKey ++ rest).take r.2).length = r.2 then
        .ok (55 + a.credId.length + ((a.coseKey ++ rest).take r.2).length, a.aaguid, a.credId,
          (a.coseKey ++ rest).take r.2)
      else .error .assertionError := by
  simp only [AttestedCredentialData.encode, List.append_assoc] at hdrop
  have haaguid := slice_append hdrop
  rw [a.aaguid_length] at haaguid
  have hdrop53 := drop_append hdrop
  rw [a.aaguid_length] at hdrop53
  have hlength := slice_append hdrop53
  rw [Cbor.bigEndian_length] at hlength
  have hdrop55 := drop_append hdrop53
  rw [Cbor.bigEndian_length] at hdrop55
  have hcredId := slice_append hdrop55
  have hkey := drop_append hdrop55
  rw [readAttested, haaguid, hlength, unpack_bigEndian a.credId_length]
  simp only [Bind.bind, Except.bind, hcredId, hkey]

theorem readAttested_encode {limit : Nat} {authData rest : Bytes} {a : AttestedCredentialData}
    (hdrop : authData.drop 37 = a.encode ++ rest)
    (hdepth : Cbor.depth (.map a.publicKey) ≤ limit) :
    readAttested limit authData = (loaded (.map a.publicKey)).map fun _ =>
      (37 + a.encode.length, a.aaguid, a.credId, a.coseKey) := by
  have hparse := parse_encode a.publicKey_fits hdepth rest
  rw [readAttested_eq limit hdrop, AttestedCredentialData.coseKey, hparse]
  cases loaded (.map a.publicKey) with
  | error e => rfl
  | ok value =>
    simp only [Except.map, Bind.bind, Except.bind, List.take_left, if_true,
      AttestedCredentialData.encode, List.length_append, a.aaguid_length, Cbor.bigEndian_length,
      AttestedCredentialData.coseKey]
    congr 2
    omega

theorem depth_le_of_readAttested {limit : Nat} {authData rest : Bytes} {a : AttestedCredentialData}
    {r : Nat × Bytes × Bytes × Bytes} (hdrop : authData.drop 37 = a.encode ++ rest)
    (h : readAttested limit authData = .ok r) : Cbor.depth (.map a.publicKey) ≤ limit := by
  rw [readAttested_eq limit hdrop] at h
  obtain ⟨r, hparse, -⟩ := bind_ok h
  exact depth_le_of_parse a.publicKey_fits hparse

namespace WellFormed

variable (d : WellFormed)

def result (extensions : PyValue) : AuthenticatorData where
  rpIdHash := d.rpIdHash
  flags := d.flags
  signCount := d.signCount
  aaguid := d.attested.map fun a => a.aaguid
  credId := d.attested.map fun a => a.credId
  pubKeyBytes := d.attested.map fun a => a.coseKey
  extensions := extensions

theorem returned_result (extensions : PyValue) : Returned d (d.result extensions) ↔
    some extensions = (d.extensions.map fun entries => pyValue (.map entries)).getD (some .none) :=
  ⟨fun h => h.extensions, fun h => ⟨rfl, rfl, rfl, rfl, rfl, h⟩⟩

/-- The byte that the extensions are read from. -/
def extensionsFrom : Nat := 37 + (d.attested.map fun a => 37 + a.encode.length).getD 0

/-- What there is to be read when all is well up to the extensions. -/
def extensionsRead (limit : Nat) : Except PyError PyValue :=
  (d.extensions.map fun _ => cborLoads limit (d.encode.drop d.extensionsFrom)).getD (.ok .none)

/-- The parser knows the items of the key, and the calls do for them. -/
def keyReadable (limit : Nat) : Prop :=
  ∀ a, d.attested = some a →
    readable (.map a.publicKey) = true ∧ Cbor.depth (.map a.publicKey) ≤ limit

theorem flags_read : readFlags flagBits (UInt8.ofNat d.flagByte).toNat = d.flags := by
  rw [UInt8.toNat_ofNat', Nat.mod_eq_of_lt d.flagByte_lt, flags]

theorem parse_unattested (limit : Nat) (hattested : d.attested = none) :
    parseAuthenticatorData limit d.encode =
      (readExtensions limit d.encode d.flags 0).map d.result := by
  have hflag : ¬"AT" ∈ d.flags := by
    simp [at_mem_flags, hattested]
  simp only [parseAuthenticatorData, d.flagByte_read, d.signCount_read, d.rpIdHash_read,
    d.flags_read, if_neg hflag, Bind.bind, Except.bind]
  cases readExtensions limit d.encode d.flags 0 with
  | error e => rfl
  | ok extensions => simp [Except.map, result, hattested]

theorem drop_attestedBytes {a : AttestedCredentialData} (hattested : d.attested = some a) :
    d.encode.drop 37 = a.encode ++ d.extensionBytes := by
  simp [drop_signCount, attestedBytes, hattested]

theorem parse_attested {limit : Nat} {a : AttestedCredentialData}
    (hattested : d.attested = some a) :
    parseAuthenticatorData limit d.encode = readAttested limit d.encode >>= fun r =>
      (readExtensions limit d.encode d.flags r.1).map fun extensions =>
        ⟨d.rpIdHash, d.flags, d.signCount, some r.2.1, some r.2.2.1, some r.2.2.2, extensions⟩ := by
  have hflag : "AT" ∈ d.flags := by
    simp [at_mem_flags, hattested]
  simp only [parseAuthenticatorData, d.flagByte_read, d.signCount_read, d.rpIdHash_read,
    d.flags_read, if_pos hflag, Bind.bind, Except.bind]
  cases readAttested limit d.encode with
  | error e => rfl
  | ok r =>
    simp only
    cases readExtensions limit d.encode d.flags r.1 <;> rfl

theorem readExtensions_eq (limit n : Nat) : readExtensions limit d.encode d.flags n =
    (d.extensions.map fun _ => cborLoads limit (d.encode.drop (37 + n))).getD (.ok .none) := by
  unfold readExtensions
  split
  · rename_i h
    obtain ⟨entries, hentries⟩ := Option.isSome_iff_exists.mp (d.ed_mem_flags.mp h)
    simp [hentries]
  · rename_i h
    have hnone : d.extensions = none := by
      simpa [ed_mem_flags] using h
    simp [hnone]

theorem parse_of_readable {limit : Nat} (h : d.keyReadable limit) :
    parseAuthenticatorData limit d.encode = (d.extensionsRead limit).map d.result := by
  cases hattested : d.attested with
  | none =>
    rw [parse_unattested d limit hattested, readExtensions_eq]
    simp [extensionsRead, extensionsFrom, hattested]
  | some a =>
    obtain ⟨hreadable, hdepth⟩ := h a hattested
    have hok : (loaded (.map a.publicKey)).isOk = true := by
      rwa [loaded_isOk]
    rw [parse_attested d hattested, readAttested_encode (d.drop_attestedBytes hattested) hdepth]
    cases hkey : loaded (.map a.publicKey) with
    | error e => simp [hkey, Except.isOk, Except.toBool] at hok
    | ok value =>
      show (readExtensions limit d.encode d.flags (37 + a.encode.length)).map _ = _
      rw [readExtensions_eq]
      simp only [extensionsRead, extensionsFrom, hattested, Option.map_some, Option.getD_some]
      congr 1
      funext extensions
      simp [result, hattested]

theorem keyReadable_of_parse {limit : Nat} {r : AuthenticatorData}
    (h : parseAuthenticatorData limit d.encode = .ok r) : d.keyReadable limit := by
  intro a hattested
  have hdrop := d.drop_attestedBytes hattested
  rw [parse_attested d hattested] at h
  obtain ⟨read, hread, -⟩ := bind_ok h
  have hdepth := depth_le_of_readAttested hdrop hread
  rw [readAttested_encode hdrop hdepth] at hread
  obtain ⟨value, hkey, -⟩ := map_ok hread
  refine ⟨?_, hdepth⟩
  rw [← loaded_isOk, hkey]
  rfl

theorem returnsEncoded_iff (limit : Nat) : d.ReturnsEncoded limit ↔ d.keyReadable limit ∧
    ∃ extensions, d.extensionsRead limit = .ok extensions ∧
      some extensions =
        (d.extensions.map fun entries => pyValue (.map entries)).getD (some .none) := by
  constructor
  · rintro ⟨r, hparse, hreturned⟩
    have hkey := keyReadable_of_parse d hparse
    rw [parse_of_readable d hkey] at hparse
    cases hread : d.extensionsRead limit with
    | error e =>
      rw [hread] at hparse
      cases hparse
    | ok extensions =>
      rw [hread] at hparse
      cases hparse
      exact ⟨hkey, extensions, rfl, (d.returned_result extensions).mp hreturned⟩
  · rintro ⟨hkey, extensions, hread, hright⟩
    refine ⟨d.result extensions, ?_, (d.returned_result extensions).mpr hright⟩
    rw [parse_of_readable d hkey, hread]
    rfl

/-! ### The extensions -/

theorem drop_attested :
    d.encode.drop (37 + d.attestedBytes.length) = d.extensionBytes :=
  drop_append d.drop_signCount

theorem extensionsRead_unattested {entries : List (Item × Item)} (limit : Nat)
    (hattested : d.attested = none) (hextensions : d.extensions = some entries) :
    d.extensionsRead limit = cborLoads limit (Cbor.encode (.map entries)) := by
  have hdrop := d.drop_attested
  simp only [attestedBytes, extensionBytes, hattested, hextensions, Option.map_none,
    Option.map_some, Option.getD_none, Option.getD_some, List.length_nil] at hdrop
  simp only [extensionsRead, extensionsFrom, hattested, hextensions, Option.map_none,
    Option.map_some, Option.getD_none, Option.getD_some, hdrop]

/-- The 37 bytes before the attested credential data are left out a second time. -/
theorem extensionsRead_attested (limit : Nat) {a : AttestedCredentialData}
    {entries : List (Item × Item)} (hattested : d.attested = some a)
    (hextensions : d.extensions = some entries) :
    d.extensionsRead limit = cborLoads limit ((Cbor.encode (.map entries)).drop 37) := by
  have hdrop := d.drop_attested
  simp only [attestedBytes, extensionBytes, hattested, hextensions, Option.map_some,
    Option.getD_some] at hdrop
  simp only [extensionsRead, extensionsFrom, hattested, hextensions, Option.map_some,
    Option.getD_some]
  rw [← hdrop, List.drop_drop]
  congr 2
  omega

end WellFormed

def PyValue.isDict : PyValue → Bool
  | .dict _ => true
  | _ => false

theorem readContent_not_dict {read : Nat → Except PyError (PyValue × Nat)} {data : Bytes}
    {major pos : Nat} {argument : Option Nat} {r : PyValue × Nat} (hmajor : major ≠ 5)
    (h : readContent read data major argument pos = .ok r) : r.1.isDict = false := by
  unfold readContent at h
  split at h
  all_goals first
    | exact absurd rfl hmajor
    | (cases h; done)
    | (cases h; rfl)
    | (obtain ⟨a, -, rfl⟩ := map_ok h; rfl)

theorem cborLoads_not_dict {limit : Nat} {data : Bytes} {value : PyValue}
    (hfirst : ∀ b, data[0]? = some b → b.toNat / 32 ≠ 5) (h : cborLoads limit data = .ok value) :
    value.isDict = false := by
  obtain ⟨⟨v, pos⟩, hparse, rfl⟩ := map_ok h
  unfold parse at hparse
  cases hlimit : limit - 1 with
  | zero =>
    rw [hlimit] at hparse
    cases hparse
  | succ calls =>
    rw [hlimit] at hparse
    cases data with
    | nil =>
      cases hparse
      rfl
    | cons b bs =>
      have hmajor := hfirst b rfl
      simp only [readValue, List.drop_zero] at hparse
      obtain ⟨argument, -, hcontent⟩ := bind_ok hparse
      exact readContent_not_dict hmajor hcontent

theorem isDict_pyValue {entries : List (Item × Item)} {value : PyValue}
    (h : pyValue (.map entries) = some value) : value.isDict = true := by
  simp only [pyValue, Option.bind_eq_some_iff] at h
  obtain ⟨es, -, hes⟩ := h
  split at hes
  · cases hes
    rfl
  · cases hes

namespace WellFormed

/-- The extensions have a value in Python, and the calls do for them: `cbor_loads` is one itself. -/
def extensionsReadable (limit : Nat) (d : WellFormed) : Prop :=
  ∀ entries, d.extensions = some entries →
    (pyValue (.map entries)).isSome = true ∧ Cbor.depth (.map entries) < limit

theorem returnsEncoded_iff_of_one (limit : Nat) (d : WellFormed)
    (h : d.attested = none ∨ d.extensions = none) :
    d.ReturnsEncoded limit ↔ d.keyReadable limit ∧ d.extensionsReadable limit := by
  rw [returnsEncoded_iff]
  apply and_congr_right
  intro _
  cases hextensions : d.extensions with
  | none => simp [extensionsRead, extensionsReadable, hextensions]
  | some entries =>
    have hattested : d.attested = none := by
      simpa [hextensions] using h
    have hfits := d.extensions_fit entries hextensions
    rw [extensionsRead_unattested d limit hattested hextensions]
    simp only [extensionsReadable, hextensions, Option.map_some, Option.getD_some,
      Option.some.injEq, forall_eq']
    constructor
    · rintro ⟨value, hloads, hvalue⟩
      refine ⟨?_, depth_lt_of_cborLoads hfits hloads⟩
      rw [← hvalue]
      rfl
    · rintro ⟨hsome, hdepth⟩
      obtain ⟨value, hvalue⟩ := Option.isSome_iff_exists.mp hsome
      exact ⟨value, (cborLoads_encode hfits hdepth).trans (loaded_of_pyValue _ value hvalue),
        hvalue.symm⟩

theorem not_returnsEncoded_of_both (limit : Nat) (d : WellFormed) {a : AttestedCredentialData}
    {entries : List (Item × Item)} (hattested : d.attested = some a)
    (hextensions : d.extensions = some entries)
    (hbyte : ∀ b, (Cbor.encode (.map entries))[37]? = some b → b.toNat / 32 ≠ 5) :
    ¬d.ReturnsEncoded limit := by
  rw [returnsEncoded_iff]
  rintro ⟨-, value, hread, hvalue⟩
  rw [extensionsRead_attested d limit hattested hextensions] at hread
  have hnot : value.isDict = false := by
    apply cborLoads_not_dict _ hread
    intro b hb
    apply hbyte b
    simpa using hb
  rw [hextensions] at hvalue
  have hdict := isDict_pyValue hvalue.symm
  rw [hnot] at hdict
  cases hdict

/-- Authenticator data with attested credential data or extensions, but not with both, is returned
as it was encoded exactly when the parser knows the data items in it, and these are not nested too
deep. With both, the extensions are looked for 37 bytes too far on. -/
theorem returns_encoded (limit : Nat) (d : WellFormed) :
    ((d.attested = none ∨ d.extensions = none) →
      (d.ReturnsEncoded limit ↔ d.keyReadable limit ∧ d.extensionsReadable limit)) ∧
    ∀ a entries, d.attested = some a → d.extensions = some entries →
      (∀ b, (Cbor.encode (.map entries))[37]? = some b → b.toNat / 32 ≠ 5) →
      ¬d.ReturnsEncoded limit :=
  ⟨returnsEncoded_iff_of_one limit d, fun _ _ => not_returnsEncoded_of_both limit d⟩

/- A key of a single entry, and `credProtect` for an extension. -/
def sampleAttested : AttestedCredentialData where
  aaguid := List.replicate 16 0
  credId := [1, 2, 3]
  publicKey := [(.uint 3, .nint 6)]
  aaguid_length := List.length_replicate
  credId_length := by decide
  publicKey_fits := by simp [Cbor.Fits, Cbor.FitEntries]

def sampleExtensions : List (Item × Item) := [(.text "credProtect", .uint 2)]

theorem sampleExtensions_fit : Cbor.Fits (.map sampleExtensions) := by
  have hlength : (Cbor.utf8 "credProtect").length = 11 := by decide +kernel
  simp [sampleExtensions, Cbor.Fits, Cbor.FitEntries, hlength]

def sample (attested : Option AttestedCredentialData) : WellFormed where
  rpIdHash := List.replicate 32 7
  otherFlags := 5
  signCount := 9
  attested := attested
  extensions := some sampleExtensions
  rpIdHash_length := List.length_replicate
  otherFlags_lt := by decide
  signCount_lt := by decide
  extensions_fit := by
    intro entries h
    cases h
    exact sampleExtensions_fit

theorem returns_encoded_unattested : (sample none).ReturnsEncoded 1000 := by
  have hkey : (sample none).keyReadable 1000 := by
    intro a h
    cases h
  have hextensions : (sample none).extensionsReadable 1000 := by
    intro entries h
    cases h
    exact ⟨rfl, by decide⟩
  exact ((returns_encoded 1000 (sample none)).1 (Or.inl rfl)).mpr ⟨hkey, hextensions⟩

theorem extensions_lost : ¬(sample (some sampleAttested)).ReturnsEncoded 1000 := by
  have hattested : (sample (some sampleAttested)).attested = some sampleAttested := rfl
  have hextensions : (sample (some sampleAttested)).extensions = some sampleExtensions := rfl
  apply not_returnsEncoded_of_both 1000 _ hattested hextensions
  have hshort : (Cbor.encode (.map sampleExtensions))[37]? = none := by decide +kernel
  rw [hshort]
  intro b h
  cases h

end WellFormed

end Shim

end Credentialsd
