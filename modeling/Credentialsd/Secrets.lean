import Credentialsd.FlowControl
import Credentialsd.Memfd

/-!
# Secrets on their way to the daemon (`memfd.rs`, `credentialsd-ui/src/client.rs`)

`write_secret` and `read_secret` are two cursors over one shared page: the writer
is bounded by the page, the reader by the length of the file. The standard
library chooses the buffers of both, so they are parameters here. Over them,
`enter_client_pin` and `set_device_pin`, and what the event loop of the daemon
makes of the descriptor it gets.
-/

namespace Credentialsd

/- The spare room that `read_to_end` reads into is never empty. -/
abbrev Buffer := { len : Nat // 0 < len }

/-! ### Reading -/

namespace MmapReader

theorem read_in_page {r : MmapReader} (h : r.size ≤ minPageSize) (len : Nat) :
    ∃ r', r.read len =
        some ((r.inner.val.drop r.pos).take (min (r.size - r.pos) len), r') ∧
      r'.size = r.size ∧ r'.inner = r.inner ∧ r'.pos = r.pos + min (r.size - r.pos) len := by
  have hle := r.pos_le
  have hin : r.pos + min (r.size - r.pos) len ≤ minPageSize := by omega
  unfold read
  by_cases hend : r.size - r.pos = 0
  · rw [if_pos hend, hend, Nat.zero_min]
    exact ⟨r, rfl, rfl, rfl, rfl⟩
  · rw [if_neg hend, if_pos hin]
    exact ⟨_, rfl, rfl, rfl, rfl⟩

theorem read_pos_lt {r r' : MmapReader} {len : Nat} {bytes : Bytes}
    (h : r.read len = some (bytes, r')) (hbytes : bytes.isEmpty = false) :
    r'.size - r'.pos < r.size - r.pos := by
  have hle := r.pos_le
  unfold read at h
  split at h
  · cases h
    cases hbytes
  · split at h
    · cases h
      have hlen : 0 < len := by
        by_contra hzero
        have hempty : len = 0 := by omega
        rw [hempty, Nat.min_zero, List.take_zero] at hbytes
        cases hbytes
      show r.size - (r.pos + min (r.size - r.pos) len) < _
      omega
    · cases h

/-- `Read::read_to_end`, the loop of the standard library: the `i`-th read is into a buffer of
length `bufs i`, and an empty read is the end. No result if a read leaves the page. -/
def readAll (r : MmapReader) (bufs : Nat → Buffer) : Option Bytes :=
  match _ : r.read (bufs 0).val with
  | none => none
  | some (bytes, r') =>
    if _ : bytes.isEmpty then some []
    else (r'.readAll fun i => bufs (i + 1)).map (bytes ++ ·)
termination_by r.size - r.pos
decreasing_by
  rename_i hread hbytes
  exact read_pos_lt hread (by simpa using hbytes)

/- What is read from any position on is the rest of the file, whatever the buffers are. -/
theorem readAll_eq {r : MmapReader} (h : r.size ≤ minPageSize) (bufs : Nat → Buffer) :
    r.readAll bufs = some ((r.inner.val.drop r.pos).take (r.size - r.pos)) := by
  induction hn : r.size - r.pos using Nat.strong_induction_on generalizing r bufs with
  | _ n ih =>
    obtain ⟨r', hread, hsize, hinner, hpos⟩ := read_in_page h (bufs 0).val
    have hbuf := (bufs 0).property
    have hpage := r.inner.property
    have hle := r.pos_le
    have hlength : ((r.inner.val.drop r.pos).take (min (r.size - r.pos) (bufs 0).val)).length =
        min (r.size - r.pos) (bufs 0).val := by
      rw [List.length_take, List.length_drop, hpage]
      omega
    unfold readAll
    split
    · rename_i hnone
      rw [hread] at hnone
      cases hnone
    · rename_i bytes r'' hsome
      rw [hread] at hsome
      cases hsome
      by_cases hend : n = 0
      · have hempty : min (r.size - r.pos) (bufs 0).val = 0 := by omega
        rw [hempty, hend, List.take_zero]
        rfl
      · have hmore : 0 < min (r.size - r.pos) (bufs 0).val := by omega
        have hsome : ((r.inner.val.drop r.pos).take
            (min (r.size - r.pos) (bufs 0).val)).isEmpty = false := by
          rw [← Bool.not_eq_true, List.isEmpty_iff, ← List.length_eq_zero_iff, hlength]
          omega
        have hrest := ih (r'.size - r'.pos) (by omega) (r := r') (by omega)
          (fun i => bufs (i + 1)) rfl
        have hcut : n = min (r.size - r.pos) (bufs 0).val + (r'.size - r'.pos) := by omega
        rw [dif_neg (by rw [hsome]; decide), hrest, hinner, Option.map_some, hcut, List.take_add,
          List.drop_drop, ← hpos]

end MmapReader

/- What the system answers to `read_secret`. -/
structure ReadCalls where
  mmap : Mapped
  fstat : Except Int Int
  munmap : Bool

/-- `read_secret`; no result if a read leaves the page. -/
def readSecret (calls : ReadCalls) (bufs : Nat → Buffer) :
    Option (Except Panic (Except IoError Bytes)) :=
  match MmapReader.fromFd calls.mmap calls.fstat with
  | .error err => some (.ok (.error err))
  | .ok reader => (reader.readAll bufs).map fun buf =>
    if calls.munmap then .ok (.ok buf) else .error (.panic "assertion failed: munmap")

/- The calls succeed, the page is shared and `fstat` gives the length that was set. -/
def SecretFile.shared (file : SecretFile) : ReadCalls := ⟨.page file.page, .ok file.size, true⟩

theorem usizeTryFrom_ok {n : Nat} (h : n < 2 ^ 64) : usizeTryFrom n = some n := by
  have hn : (0 : Int) ≤ n ∧ (n : Int) < 2 ^ 64 := by omega
  exact if_pos hn

theorem MmapReader.fromFd_page (page : Page) {stSize : Int} {size : Nat}
    (h : usizeTryFrom stSize = some size) :
    fromFd (.page page) (.ok stSize) = .ok ⟨page, size, 0, Nat.zero_le _⟩ := by
  unfold fromFd
  simp only [h]

theorem fromFd_shared {file : SecretFile} {len : Nat} (hsize : file.size = len)
    (h : len ≤ minPageSize) :
    MmapReader.fromFd file.shared.mmap file.shared.fstat =
      .ok ⟨file.page, len, 0, Nat.zero_le _⟩ := by
  have hpage : minPageSize < 2 ^ 64 := by decide
  have hlen : usizeTryFrom file.size = some len := by
    rw [hsize]
    exact usizeTryFrom_ok (by omega)
  exact MmapReader.fromFd_page file.page hlen

theorem readSecret_ok {calls : ReadCalls} {reader : MmapReader} {buf : Bytes}
    {bufs : Nat → Buffer} (hfd : MmapReader.fromFd calls.mmap calls.fstat = .ok reader)
    (hread : reader.readAll bufs = some buf) (hunmap : calls.munmap = true) :
    readSecret calls bufs = some (.ok (.ok buf)) := by
  unfold readSecret
  simp only [hfd, hread, Option.map_some, hunmap, if_true]

theorem readSecret_shared {file : SecretFile} {len : Nat} (hsize : file.size = len)
    (h : len ≤ minPageSize) (bufs : Nat → Buffer) :
    readSecret file.shared bufs = some (.ok (.ok file.content)) := by
  have hread := MmapReader.readAll_eq (r := ⟨file.page, len, 0, Nat.zero_le _⟩) h bufs
  rw [List.drop_zero, Nat.sub_zero] at hread
  rw [SecretFile.content, hsize, Int.toNat_natCast]
  exact readSecret_ok (fromFd_shared hsize h) hread rfl

/-! ### Writing in pieces -/

namespace Mmap

/- A secret that is handed to `write_all` piece by piece. -/
def writePieces (m : Mmap) : List Bytes → Except IoError Mmap
  | [] => .ok m
  | buf :: bufs => (m.writeAll buf).bind fun m' => m'.writePieces bufs

/- Pieces that fit are in the page one after the other, and nothing else has changed. -/
theorem writePieces_fits {m : Mmap} {bufs : List Bytes}
    (h : m.pos + bufs.flatten.length ≤ m.size) :
    ∃ m', m.writePieces bufs = .ok m' ∧ m'.fd = m.fd ∧
      m'.inner.val =
        m.inner.val.take m.pos ++ bufs.flatten ++
          m.inner.val.drop (m.pos + bufs.flatten.length) := by
  induction bufs generalizing m with
  | nil =>
    refine ⟨m, rfl, rfl, ?_⟩
    rw [List.flatten_nil, List.length_nil, List.append_nil, Nat.add_zero, List.take_append_drop]
  | cons buf bufs ih =>
    rw [List.flatten_cons, List.length_append] at h
    have hpage := m.inner.property
    have hsize := m.size_le
    have hfits : m.pos + buf.length ≤ m.size := by omega
    obtain ⟨m₁, hwrite, hfd, hsize₁, hpos, hinner⟩ := writeAll_fits hfits
    obtain ⟨m₂, hrest, hfd₂, hinner₂⟩ := ih (m := m₁) (by omega)
    have hfront : (m.inner.val.take m.pos ++ buf).length = m₁.pos := by
      rw [List.length_append, List.length_take, hpos]
      omega
    have htake : m₁.inner.val.take m₁.pos = m.inner.val.take m.pos ++ buf := by
      rw [hinner, List.take_left' hfront]
    have hdrop : m₁.inner.val.drop (m₁.pos + bufs.flatten.length) =
        m.inner.val.drop (m.pos + (buf.length + bufs.flatten.length)) := by
      rw [hinner, ← List.drop_drop, List.drop_left' hfront, List.drop_drop, Nat.add_assoc]
    refine ⟨m₂, ?_, hfd₂.trans hfd, ?_⟩
    · unfold writePieces
      rw [hwrite]
      exact hrest
    · rw [hinner₂, htake, hdrop, List.flatten_cons, List.length_append, List.append_assoc _ buf]

end Mmap

/- `write_secret` with the secret handed on in pieces. -/
def writeSecretPieces (calls : WriteCalls) (bufs : List Bytes) :
    Except Panic (Except IoError SecretFile) :=
  if minPageSize < bufs.flatten.length then .ok (.error (.fileTooLarge "value is too large"))
  else
    match openMemfdSecret calls bufs.flatten.length with
    | .error err => .ok (.error err)
    | .ok (fd, size) =>
      match Mmap.fromFd fd calls.mmap with
      | .error err => .ok (.error err)
      | .ok mem =>
        match mem.writePieces bufs with
        | .error err => unmapped calls (.error err)
        | .ok mem => unmapped calls (.ok ⟨mem.fd, mem.inner, size⟩)

theorem writePieces_writeAll (fd : OwnedFd) (page : Page) {bufs : List Bytes}
    (h : bufs.flatten.length ≤ minPageSize) :
    ∃ mem mem₁ mem₂, Mmap.fromFd fd (.page page) = .ok mem ∧
      mem.writePieces bufs = .ok mem₁ ∧ mem.writeAll bufs.flatten = .ok mem₂ ∧
      mem₁.fd = mem₂.fd ∧ mem₁.inner = mem₂.inner := by
  have hfits : 0 + bufs.flatten.length ≤ minPageSize := by omega
  obtain ⟨mem₁, hpieces, hfd₁, hinner₁⟩ :=
    Mmap.writePieces_fits (m := ⟨page, fd, minPageSize, 0, Nat.le_refl _, Nat.zero_le _⟩) hfits
  obtain ⟨mem₂, hall, hfd₂, -, -, hinner₂⟩ :=
    Mmap.writeAll_fits (m := ⟨page, fd, minPageSize, 0, Nat.le_refl _, Nat.zero_le _⟩) hfits
  exact ⟨_, mem₁, mem₂, rfl, hpieces, hall, hfd₁.trans hfd₂.symm,
    Subtype.ext (hinner₁.trans hinner₂.symm)⟩

/-- How a secret is cut into pieces makes no difference. -/
theorem writeSecretPieces_eq (calls : WriteCalls) (bufs : List Bytes) :
    writeSecretPieces calls bufs = writeSecret calls bufs.flatten := by
  unfold writeSecretPieces writeSecret
  by_cases hlong : minPageSize < bufs.flatten.length
  · rw [if_pos hlong, if_pos hlong]
  · rw [if_neg hlong, if_neg hlong]
    cases ho : openMemfdSecret calls bufs.flatten.length with
    | error err => rfl
    | ok opened =>
      obtain ⟨fd, size⟩ := opened
      cases hm : calls.mmap with
      | failed errno => rfl
      | null => rfl
      | page page =>
        obtain ⟨mem, mem₁, mem₂, hmap, hpieces, hall, hfd, hinner⟩ :=
          writePieces_writeAll fd page (Nat.le_of_not_lt hlong)
        simp only [hmap, hpieces, hall, hfd, hinner]

/-! ### PINs (`FlowControlClient`) -/

def ctapClientSecretMaxLen : Nat := 63

/- A `UserInteractedEvent` as the UI sends it, with the file behind the descriptor. -/
inductive ClientEvent where
  | clientPinEntered (fd : SecretFile)
  | setDevicePin (fd : SecretFile)
  | requestCancelled

/-- `FlowControlClient::send`; `isOpen` says whether the channel still has a receiver. -/
def clientSend (isOpen : Bool) (event : ClientEvent) : Except Unit Unit × List ClientEvent :=
  if isOpen then (.ok (), [event]) else (.error (), [])

/- The two PIN functions: their result and what comes out of the channel. -/
def sendPin {ε : Type} (tooLong failed : ε) (event : SecretFile → ClientEvent)
    (calls : WriteCalls) (isOpen : Bool) (pin : String) :
    Except Panic (Except ε Unit × List ClientEvent) :=
  if ctapClientSecretMaxLen < pin.utf8ByteSize then .ok (.error tooLong, [])
  else
    (writeSecret calls pin.toUTF8.data.toList).map fun
      | .error _ => (.error failed, (clientSend isOpen .requestCancelled).2)
      | .ok fd =>
        ((clientSend isOpen (event fd)).1.mapError fun _ => failed,
          (clientSend isOpen (event fd)).2)

/-- `enter_client_pin`. -/
def enterClientPin : WriteCalls → Bool → String →
    Except Panic (Except Unit Unit × List ClientEvent) :=
  sendPin () () .clientPinEntered

/-- `set_device_pin`. -/
def setDevicePin : WriteCalls → Bool → String →
    Except Panic (Except (Option PinNotSetError) Unit × List ClientEvent) :=
  sendPin (some .pinTooLong) none .setDevicePin

/- The event of a signal whose descriptor `read_secret` is called on; `describe` is the text that is
logged for an error. -/
def secretEvent (describe : IoError → String) (event : Except String Bytes → UserInteractedEvent) :
    Option (Except Panic (Except IoError Bytes)) → Option UserInteractedEvent
  | some (.ok read) => some (event (read.mapError describe))
  | _ => none

theorem secretEvent_ok (describe : IoError → String)
    (event : Except String Bytes → UserInteractedEvent)
    {read : Option (Except Panic (Except IoError Bytes))} {bytes : Bytes}
    (h : read = some (.ok (.ok bytes))) :
    secretEvent describe event read = some (event (.ok bytes)) := by
  rw [h]
  rfl

/-- What the event loop of the daemon makes of an event of the UI. -/
def ClientEvent.received (describe : IoError → String) (bufs : Nat → Buffer) :
    ClientEvent → Option UserInteractedEvent
  | .clientPinEntered fd => secretEvent describe .clientPinEntered (readSecret fd.shared bufs)
  | .setDevicePin fd => secretEvent describe .setDevicePin (readSecret fd.shared bufs)
  | .requestCancelled => some .requestCancelled

theorem readPin_utf8 (pin : String) : readPin (.ok pin.toUTF8.data.toList) = some pin := by
  have hbytes : (⟨pin.toUTF8.data.toList.toArray⟩ : ByteArray) = pin.toUTF8 := by
    rw [Array.toArray_toList]
  show String.fromUTF8? ⟨pin.toUTF8.data.toList.toArray⟩ = _
  rw [hbytes]
  unfold String.fromUTF8?
  split
  · rfl
  · rename_i hvalid
    exact absurd pin.isValidUTF8 hvalid

theorem readSecret_written {calls : WriteCalls} {secret : Bytes} {file : SecretFile}
    (h : writeSecret calls secret = .ok (.ok file)) (bufs : Nat → Buffer) :
    readSecret file.shared bufs = some (.ok (.ok secret)) := by
  obtain ⟨hfits, hsize, hcontent⟩ := writeSecret_file h
  rw [readSecret_shared hsize hfits, hcontent]

/- A PIN that is accepted is the only event sent, and what is read behind it is the PIN. -/
theorem sendPin_ok {ε : Type} {tooLong failed : ε} {event : SecretFile → ClientEvent}
    {calls : WriteCalls} {isOpen : Bool} {pin : String} {events : List ClientEvent}
    (h : sendPin tooLong failed event calls isOpen pin = .ok (.ok (), events)) :
    ∃ file, events = [event file] ∧
      ∀ bufs, readSecret file.shared bufs = some (.ok (.ok pin.toUTF8.data.toList)) := by
  unfold sendPin clientSend at h
  split at h
  · cases h
  · cases hw : writeSecret calls pin.toUTF8.data.toList with
    | error p =>
      rw [hw] at h
      cases h
    | ok written =>
      cases written with
      | error err =>
        rw [hw] at h
        cases h
      | ok file =>
        rw [hw] at h
        cases isOpen with
        | false => cases h
        | true =>
          cases h
          exact ⟨file, rfl, readSecret_written hw⟩

theorem sendPin_accepts {ε : Type} (tooLong failed : ε) (event : SecretFile → ClientEvent)
    {calls : WriteCalls} (hcalls : calls.succeed = true) (isOpen : Bool) (pin : String) :
    (∃ events, sendPin tooLong failed event calls isOpen pin = .ok (.ok (), events)) ↔
      pin.utf8ByteSize ≤ ctapClientSecretMaxLen ∧ isOpen = true := by
  have hlength : pin.toUTF8.data.toList.length = pin.utf8ByteSize := rfl
  have hpage : ctapClientSecretMaxLen < minPageSize := by decide
  unfold sendPin clientSend
  by_cases hlong : ctapClientSecretMaxLen < pin.utf8ByteSize
  · rw [if_pos hlong]
    exact ⟨nofun, fun h => absurd h.1 (by omega)⟩
  · rw [if_neg hlong]
    obtain ⟨file, hw⟩ := (writeSecret_ok calls pin.toUTF8.data.toList).mpr ⟨by omega, hcalls⟩
    rw [hw]
    cases isOpen with
    | false => exact ⟨nofun, nofun⟩
    | true => exact ⟨fun _ => ⟨by omega, rfl⟩, fun _ => ⟨_, rfl⟩⟩

/-- A secret can be written iff it fits in a page, and what is read is what was written, in
whatever pieces it is written and read. A PIN that is accepted is what the daemon replies with. -/
theorem secrets_arrive (calls : WriteCalls) (hcalls : calls.succeed = true) :
    (∀ (secret : Bytes) (pieces : List Bytes), pieces.flatten = secret →
      ((∃ file, writeSecretPieces calls pieces = .ok (.ok file)) ↔
        secret.length ≤ minPageSize) ∧
      ∀ file, writeSecretPieces calls pieces = .ok (.ok file) →
        ∀ bufs, readSecret file.shared bufs = some (.ok (.ok secret))) ∧
    ∀ (isOpen : Bool) (pin : String),
      ((∃ events, enterClientPin calls isOpen pin = .ok (.ok (), events)) ↔
        pin.utf8ByteSize ≤ ctapClientSecretMaxLen ∧ isOpen = true) ∧
      ((∃ events, setDevicePin calls isOpen pin = .ok (.ok (), events)) ↔
        pin.utf8ByteSize ≤ ctapClientSecretMaxLen ∧ isOpen = true) ∧
      ∀ (events : List ClientEvent) (describe : IoError → String) (bufs : Nat → Buffer)
        (lp : UiLoop),
        (enterClientPin calls isOpen pin = .ok (.ok (), events) →
          ∃ e, events.map (·.received describe bufs) = [some e] ∧
            lp.handleEvent e = { lp with clientPinTx := none }.replyTo lp.clientPinTx (.pin pin)) ∧
        (setDevicePin calls isOpen pin = .ok (.ok (), events) →
          ∃ e, events.map (·.received describe bufs) = [some e] ∧
            lp.handleEvent e = { lp with setPinTx := none }.replyTo lp.setPinTx (.pin pin)) := by
  refine ⟨?_, ?_⟩
  · rintro secret pieces rfl
    rw [writeSecretPieces_eq, writeSecret_ok, hcalls]
    exact ⟨⟨fun h => h.1, fun h => ⟨h, rfl⟩⟩, fun file h => readSecret_written h⟩
  · intro isOpen pin
    refine ⟨sendPin_accepts _ _ _ hcalls isOpen pin, sendPin_accepts _ _ _ hcalls isOpen pin, ?_⟩
    intro events describe bufs lp
    have hpin := readPin_utf8 pin
    constructor
    · intro h
      obtain ⟨file, rfl, hread⟩ := sendPin_ok h
      have hevent := secretEvent_ok describe .clientPinEntered (hread bufs)
      refine ⟨.clientPinEntered (.ok pin.toUTF8.data.toList), congrArg (fun e => [e]) hevent, ?_⟩
      unfold UiLoop.handleEvent
      simp only [hpin]
    · intro h
      obtain ⟨file, rfl, hread⟩ := sendPin_ok h
      have hevent := secretEvent_ok describe .setDevicePin (hread bufs)
      refine ⟨.setDevicePin (.ok pin.toUTF8.data.toList), congrArg (fun e => [e]) hevent, ?_⟩
      unfold UiLoop.handleEvent
      simp only [hpin]

/-- A PIN of four digits. -/
theorem secrets_arrive_pin :
    ∃ events, enterClientPin ⟨.ok 9, .ok (), .page MmapReader.zeroPage, true⟩ true "1234" =
      .ok (.ok (), events) :=
  ((secrets_arrive ⟨.ok 9, .ok (), .page MmapReader.zeroPage, true⟩ rfl).2 true "1234").1.mpr
    ⟨by decide, rfl⟩

end Credentialsd
