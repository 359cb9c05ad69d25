import Credentialsd.Lib.Chunks
import Credentialsd.Model

/-!
# Secret files (`credentialsd-common/src/memfd.rs`)

A PIN comes as a file descriptor. `MmapReader` maps one page of it and reads as
many bytes as the file is said to have. `write_secret` makes such a file, for PINs
and for QR codes. System calls are represented by their outcomes; the mapping is a
page of bytes, and a read that leaves the page has no result here.
-/

namespace Credentialsd

def minPageSize : Nat := 4096

abbrev Page := { xs : Bytes // xs.length = minPageSize }

inductive IoError where
  | os (errno : Int)
  | other (msg : String)
  | fileTooLarge (msg : String)
  | writeZero (msg : String)
  deriving Repr, DecidableEq

inductive Mapped where
  | failed (errno : Int)
  | null
  | page (page : Page)

/-- `usize::try_from` on a 64-bit machine. -/
def usizeTryFrom (n : Int) : Option Nat := if 0 ≤ n ∧ n < 2 ^ 64 then some n.toNat else none

structure MmapReader where
  inner : Page
  size : Nat
  pos : Nat
  pos_le : pos ≤ size

namespace MmapReader

/-- `MmapReader::from_fd`; `fstat` gives `st_size`. -/
def fromFd (mmap : Mapped) (fstat : Except Int Int) : Except IoError MmapReader :=
  match mmap with
  | .failed errno => .error (.os errno)
  | .null => .error (.other "mmap returned NULL pointer")
  | .page inner =>
    match fstat with
    | .error errno => .error (.os errno)
    | .ok stSize =>
      match usizeTryFrom stSize with
      | none => .error (.fileTooLarge "file is too large")
      | some size => .ok ⟨inner, size, 0, Nat.zero_le size⟩

/-- `Read::read` into a buffer of `len` bytes; no result if it leaves the page. -/
def read (r : MmapReader) (len : Nat) : Option (Bytes × MmapReader) :=
  if r.size - r.pos = 0 then some ([], r)
  else if r.pos + min (r.size - r.pos) len ≤ minPageSize then
    some ((r.inner.val.drop r.pos).take (min (r.size - r.pos) len),
      { r with pos := Chunks.advance r.size r.pos len, pos_le := Chunks.advance_le r.pos_le len })
  else none

def readMany (r : MmapReader) : List Nat → Option MmapReader
  | [] => some r
  | len :: lens => (r.read len).bind fun (_, r') => r'.readMany lens

/-- `read_to_end` with buffers of the given lengths: it stops at the first empty read. -/
def readToEnd (r : MmapReader) : List Nat → Option Bytes
  | [] => some []
  | len :: lens => (r.read len).bind fun (bytes, r') =>
    if bytes.isEmpty then some [] else (r'.readToEnd lens).map (bytes ++ ·)

theorem read_isSome {r : MmapReader} (h : r.pos ≤ minPageSize) (len : Nat) :
    (r.read len).isSome ↔ Chunks.advance r.size r.pos len ≤ minPageSize := by
  have hle := r.pos_le
  unfold read Chunks.advance
  split
  · have hend : r.pos + min (r.size - r.pos) len = r.pos := by omega
    rw [hend]
    exact ⟨fun _ => h, fun _ => rfl⟩
  · split
    · exact ⟨fun _ => ‹_›, fun _ => rfl⟩
    · exact ⟨nofun, fun hin => absurd hin ‹_›⟩

theorem read_some {r r' : MmapReader} {len : Nat} {bytes : Bytes}
    (h : r.read len = some (bytes, r')) :
    r'.size = r.size ∧ r'.inner = r.inner ∧ r'.pos = Chunks.advance r.size r.pos len := by
  have hle := r.pos_le
  unfold read at h
  split at h
  · cases h
    refine ⟨rfl, rfl, ?_⟩
    unfold Chunks.advance
    omega
  · split at h
    · cases h
      exact ⟨rfl, rfl, rfl⟩
    · cases h

theorem readMany_isSome {r : MmapReader} (h : r.pos ≤ minPageSize) (lens : List Nat) :
    (r.readMany lens).isSome ↔ Chunks.Within minPageSize r.size r.pos lens := by
  induction lens generalizing r with
  | nil => exact ⟨fun _ => trivial, fun _ => rfl⟩
  | cons len lens ih =>
    have hread := read_isSome h len
    unfold readMany Chunks.Within
    cases hr : r.read len with
    | none =>
      rw [hr] at hread
      exact ⟨nofun, fun hw => absurd (hread.mpr hw.1) nofun⟩
    | some x =>
      obtain ⟨bytes, r'⟩ := x
      rw [hr] at hread
      have hin := hread.mp rfl
      obtain ⟨hsize, -, hpos⟩ := read_some hr
      have hrest := ih (r := r') (by rw [hpos]; exact hin)
      rw [hsize, hpos] at hrest
      rw [Option.bind_some, hrest]
      exact ⟨fun hw => ⟨hin, hw⟩, fun hw => hw.2⟩

theorem read_empty {r r' : MmapReader} {len : Nat} (hlen : 0 < len) (h : r.pos ≤ minPageSize)
    (hr : r.read len = some ([], r')) : r.pos = r.size := by
  have hle := r.pos_le
  have hpage : r.inner.val.length = minPageSize := r.inner.property
  unfold read at hr
  split at hr
  · omega
  · split at hr
    · simp only [Option.some.injEq, Prod.mk.injEq] at hr
      have hlength := congrArg List.length hr.1
      simp only [List.length_take, List.length_drop, List.length_nil, hpage] at hlength
      omega
    · cases hr

theorem readToEnd_isSome {r : MmapReader} (h : r.pos ≤ minPageSize) {lens : List Nat}
    (hlens : ∀ len ∈ lens, 0 < len) :
    (r.readToEnd lens).isSome ↔ Chunks.Within minPageSize r.size r.pos lens := by
  induction lens generalizing r with
  | nil => exact ⟨fun _ => trivial, fun _ => rfl⟩
  | cons len lens ih =>
    have hread := read_isSome h len
    unfold readToEnd
    cases hr : r.read len with
    | none =>
      rw [hr] at hread
      exact ⟨nofun, fun hw => absurd (hread.mpr hw.1) nofun⟩
    | some x =>
      obtain ⟨bytes, r'⟩ := x
      rw [hr] at hread
      have hin := hread.mp rfl
      obtain ⟨hsize, -, hpos⟩ := read_some hr
      show (if bytes.isEmpty then some [] else (r'.readToEnd lens).map (bytes ++ ·)).isSome ↔ _
      split
      · rename_i hempty
        rw [List.isEmpty_iff.mp hempty] at hr
        have hend := read_empty (hlens len (List.mem_cons_self ..)) h hr
        refine ⟨fun _ => (Chunks.within_iff r.pos_le h _).mpr (Or.inl ?_), fun _ => rfl⟩
        omega
      · have hrest := ih (r := r') (by rw [hpos]; exact hin)
          (fun l hl => hlens l (List.mem_cons_of_mem _ hl))
        rw [hsize, hpos] at hrest
        rw [Option.isSome_map, hrest]
        exact ⟨fun hw => ⟨hin, hw⟩, fun hw => hw.2⟩

theorem fromFd_ok {mmap : Mapped} {stSize : Int} {r : MmapReader}
    (h : fromFd mmap (.ok stSize) = .ok r) :
    r.pos = 0 ∧ 0 ≤ stSize ∧ stSize < 2 ^ 64 ∧ (r.size : Int) = stSize := by
  unfold fromFd usizeTryFrom at h
  split at h
  · cases h
  · cases h
  · simp only at h
    split at h
    · cases h
    · rename_i size hsize
      split at hsize
      · cases hsize
        cases h
        exact ⟨rfl, by omega, by omega, by simp only; omega⟩
      · cases hsize

/-- The reads stay in the page iff the file is said to fit in it or the buffers do; reading to the
end with any buffers stays in the page iff the file is said to fit. -/
theorem reads_in_page (mmap : Mapped) (stSize : Int) (r : MmapReader)
    (hr : fromFd mmap (.ok stSize) = .ok r) (lens : List Nat) :
    ((r.readMany lens).isSome ↔ stSize ≤ minPageSize ∨ lens.sum ≤ minPageSize) ∧
    ((∀ len ∈ lens, 0 < len) → stSize ≤ lens.sum →
      ((r.readToEnd lens).isSome ↔ stSize ≤ minPageSize)) := by
  obtain ⟨hpos, hnonneg, -, hsize⟩ := fromFd_ok hr
  have hstart : r.pos ≤ minPageSize := by omega
  have hwithin := Chunks.within_iff r.pos_le hstart lens
  rw [hpos, Nat.zero_add] at hwithin
  constructor
  · rw [readMany_isSome hstart, hpos, hwithin]
    omega
  · intro hlens hlong
    rw [readToEnd_isSome hstart hlens, hpos, hwithin]
    omega

def zeroPage : Page := ⟨List.replicate minPageSize 0, List.length_replicate⟩

/-- A PIN file of the UI, read with a buffer of 32 bytes, and a file of two pages, read with one
buffer. -/
theorem reads_in_page_sizes :
    (((⟨zeroPage, 4, 0, by decide⟩ : MmapReader).readToEnd [32]).isSome ↔ (4 : Int) ≤ 4096) ∧
    (((⟨zeroPage, 8192, 0, by decide⟩ : MmapReader).readMany [8192]).isSome ↔
      (8192 : Int) ≤ minPageSize ∨ [8192].sum ≤ minPageSize) :=
  ⟨(reads_in_page (.page zeroPage) 4 _ rfl [32]).2 (by decide) (by decide),
    (reads_in_page (.page zeroPage) 8192 _ rfl [8192]).1⟩

/-- `st_size` is the sender's: a file of two pages is read past the mapped one. -/
theorem reads_past_page :
    ∃ r, fromFd (.page zeroPage) (.ok 8192) = .ok r ∧ r.readMany [4096, 1] = none ∧
      r.readToEnd [8192] = none :=
  ⟨_, rfl, rfl, rfl⟩

end MmapReader

/-! ### Writing -/

/- `copy_from_nonoverlapping` into the mapping. -/
def Page.copy (p : Page) (pos : Nat) (bytes : Bytes) (h : pos + bytes.length ≤ minPageSize) :
    Page :=
  ⟨p.val.take pos ++ bytes ++ p.val.drop (pos + bytes.length), by
    have hpage := p.property
    simp only [List.length_append, List.length_take, List.length_drop]
    omega⟩

structure Mmap where
  inner : Page
  fd : OwnedFd
  size : Nat
  pos : Nat
  size_le : size ≤ minPageSize
  pos_le : pos ≤ size

namespace Mmap

/-- `Mmap::from_fd`. -/
def fromFd (fd : OwnedFd) : Mapped → Except IoError Mmap
  | .failed errno => .error (.os errno)
  | .null => .error (.other "mmap returned NULL pointer")
  | .page inner => .ok ⟨inner, fd, minPageSize, 0, Nat.le_refl _, Nat.zero_le _⟩

theorem copied_le (m : Mmap) (buf : Bytes) :
    m.pos + (buf.take (m.size - m.pos)).length ≤ minPageSize := by
  have hsize := m.size_le
  have hpos := m.pos_le
  simp only [List.length_take]
  omega

/-- `Write::write`; the number of bytes written and the mapping. -/
def write (m : Mmap) (buf : Bytes) : Nat × Mmap :=
  if m.size - m.pos = 0 then (0, m)
  else (min (m.size - m.pos) buf.length,
    { m with
      inner := m.inner.copy m.pos (buf.take (m.size - m.pos)) (m.copied_le buf)
      pos := Chunks.advance m.size m.pos buf.length
      pos_le := Chunks.advance_le m.pos_le buf.length })

/-- `Write::write_all`, the loop of the standard library. -/
def writeAll (m : Mmap) (buf : Bytes) : Except IoError Mmap :=
  if _ : buf = [] then .ok m
  else if _ : (m.write buf).1 = 0 then .error (.writeZero "failed to write whole buffer")
  else (m.write buf).2.writeAll (buf.drop (m.write buf).1)
termination_by buf.length
decreasing_by
  rename_i hbuf hzero
  have hlen : 0 < buf.length := List.length_pos_iff.mpr hbuf
  rw [List.length_drop]
  omega

theorem write_fits {m : Mmap} {buf : Bytes} (hbuf : buf ≠ []) (h : m.pos + buf.length ≤ m.size) :
    (m.write buf).1 = buf.length ∧
      (m.write buf).2.pos = m.pos + buf.length ∧
      (m.write buf).2.inner.val =
        m.inner.val.take m.pos ++ buf ++ m.inner.val.drop (m.pos + buf.length) ∧
      (m.write buf).2.fd = m.fd ∧ (m.write buf).2.size = m.size := by
  have hlen : 0 < buf.length := List.length_pos_iff.mpr hbuf
  have hroom : m.size - m.pos ≠ 0 := by omega
  have hall : buf.take (m.size - m.pos) = buf := List.take_of_length_le (by omega)
  unfold write
  rw [if_neg hroom]
  refine ⟨by simp only; omega, ?_, ?_, rfl, rfl⟩
  · show Chunks.advance m.size m.pos buf.length = _
    rw [Chunks.advance_eq m.pos_le]
    omega
  · simp only [Page.copy, hall]

/- A buffer that fits is written as a whole, after what was written before. -/
theorem writeAll_fits {m : Mmap} {buf : Bytes} (h : m.pos + buf.length ≤ m.size) :
    ∃ m', m.writeAll buf = .ok m' ∧ m'.fd = m.fd ∧ m'.size = m.size ∧
      m'.pos = m.pos + buf.length ∧
      m'.inner.val = m.inner.val.take m.pos ++ buf ++ m.inner.val.drop (m.pos + buf.length) := by
  by_cases hbuf : buf = []
  · subst hbuf
    unfold writeAll
    exact ⟨m, rfl, rfl, rfl, by simp, by simp⟩
  · obtain ⟨hn, hpos, hinner, hfd, hsize⟩ := write_fits hbuf h
    have hlen : 0 < buf.length := List.length_pos_iff.mpr hbuf
    unfold writeAll
    rw [dif_neg hbuf, dif_neg (by omega), hn, List.drop_length]
    unfold writeAll
    exact ⟨_, rfl, hfd, hsize, hpos, hinner⟩

end Mmap

/- What the system answers to `write_secret`; `munmap` says whether the call succeeds. -/
structure WriteCalls where
  memfdSecret : Except Int OwnedFd
  ftruncate : Except Int Unit
  mmap : Mapped
  munmap : Bool

def Mapped.isPage : Mapped → Bool
  | .page _ => true
  | _ => false

def WriteCalls.succeed (calls : WriteCalls) : Bool :=
  calls.memfdSecret.isOk && calls.ftruncate.isOk && calls.mmap.isPage && calls.munmap

/- A secret file: what its page holds and the length that `ftruncate` has set on it. -/
structure SecretFile where
  fd : OwnedFd
  page : Page
  size : Int

def SecretFile.content (file : SecretFile) : Bytes := file.page.val.take file.size.toNat

/-- `off_t::try_from`, of a 64-bit machine. -/
def offTTryFrom (n : Nat) : Option Int := if n < 2 ^ 63 then some n else none

/-- `open_memfd_secret`; with the descriptor comes the length that `ftruncate` has set on it. -/
def openMemfdSecret (calls : WriteCalls) (len : Nat) : Except IoError (OwnedFd × Int) :=
  match offTTryFrom len with
  | none => .error (.fileTooLarge "File is too large")
  | some len =>
    match calls.memfdSecret with
    | .error errno => .error (.os errno)
    | .ok fd =>
      match calls.ftruncate with
      | .error errno => .error (.os errno)
      | .ok () => .ok (fd, len)

/- `into_fd` and `Drop` both assert that the page is unmapped. -/
def unmapped {α : Type} (calls : WriteCalls) (result : α) : Except Panic α :=
  if calls.munmap then .ok result else .error (.panic "assertion failed: munmap")

/-- `write_secret`. -/
def writeSecret (calls : WriteCalls) (secret : Bytes) :
    Except Panic (Except IoError SecretFile) :=
  if minPageSize < secret.length then .ok (.error (.fileTooLarge "value is too large"))
  else
    match openMemfdSecret calls secret.length with
    | .error err => .ok (.error err)
    | .ok (fd, size) =>
      match Mmap.fromFd fd calls.mmap with
      | .error err => .ok (.error err)
      | .ok mem =>
        match mem.writeAll secret with
        | .error err => unmapped calls (.error err)
        | .ok mem => unmapped calls (.ok ⟨mem.fd, mem.inner, size⟩)

theorem openMemfdSecret_ok (calls : WriteCalls) {len : Nat} (h : len ≤ minPageSize) :
    (∃ opened, openMemfdSecret calls len = .ok opened) ↔
      calls.memfdSecret.isOk = true ∧ calls.ftruncate.isOk = true := by
  have hlen : len < 2 ^ 63 := Nat.lt_of_le_of_lt h (by decide)
  unfold openMemfdSecret offTTryFrom
  rw [if_pos hlen]
  cases calls.memfdSecret with
  | error errno => exact ⟨nofun, nofun⟩
  | ok fd =>
    cases calls.ftruncate with
    | error errno => exact ⟨nofun, nofun⟩
    | ok u => exact ⟨fun _ => ⟨rfl, rfl⟩, fun _ => ⟨(fd, len), rfl⟩⟩

/- What `ftruncate` is given is the length that was asked for. -/
theorem openMemfdSecret_size {calls : WriteCalls} {len : Nat} {fd : OwnedFd} {size : Int}
    (h : openMemfdSecret calls len = .ok (fd, size)) : size = len := by
  unfold openMemfdSecret offTTryFrom at h
  split at h
  · cases h
  · rename_i len' hlen
    split at hlen
    · cases hlen
      split at h
      · cases h
      · split at h
        · cases h
        · cases h
          rfl
    · cases hlen

/- In a page that is mapped the secret stands first. -/
theorem fromFd_writeAll (fd : OwnedFd) (page : Page) {secret : Bytes}
    (h : secret.length ≤ minPageSize) :
    ∃ mem mem', Mmap.fromFd fd (.page page) = .ok mem ∧ mem.writeAll secret = .ok mem' ∧
      mem'.fd = fd ∧ mem'.inner.val = secret ++ page.val.drop secret.length := by
  have hfits : 0 + secret.length ≤ minPageSize := by omega
  obtain ⟨mem', hwrite, hfd, -, -, hinner⟩ :=
    Mmap.writeAll_fits (m := ⟨page, fd, minPageSize, 0, Nat.le_refl _, Nat.zero_le _⟩) hfits
  refine ⟨_, mem', rfl, hwrite, hfd, ?_⟩
  simpa using hinner

theorem writeSecret_ok (calls : WriteCalls) (secret : Bytes) :
    (∃ file, writeSecret calls secret = .ok (.ok file)) ↔
      secret.length ≤ minPageSize ∧ calls.succeed = true := by
  unfold writeSecret WriteCalls.succeed
  by_cases hlong : minPageSize < secret.length
  · rw [if_pos hlong]
    exact ⟨nofun, fun h => absurd h.1 (by omega)⟩
  · have hfits : secret.length ≤ minPageSize := by omega
    have hopen := openMemfdSecret_ok calls hfits
    rw [if_neg hlong]
    cases ho : openMemfdSecret calls secret.length with
    | error err =>
      rw [ho] at hopen
      have hcalls : ¬ (calls.memfdSecret.isOk = true ∧ calls.ftruncate.isOk = true) :=
        fun hc => absurd (hopen.mpr hc) nofun
      refine ⟨nofun, fun h => absurd ?_ hcalls⟩
      simp only [Bool.and_eq_true] at h
      exact h.2.1.1
    | ok opened =>
      obtain ⟨fd, size⟩ := opened
      rw [ho] at hopen
      obtain ⟨hsecret, htruncate⟩ := hopen.mp ⟨(fd, size), rfl⟩
      rw [hsecret, htruncate]
      cases hm : calls.mmap with
      | failed errno => exact ⟨nofun, nofun⟩
      | null => exact ⟨nofun, nofun⟩
      | page page =>
        obtain ⟨mem, mem', hmap, hwrite, -, -⟩ := fromFd_writeAll fd page hfits
        simp only [hmap, hwrite]
        unfold unmapped
        cases hunmap : calls.munmap with
        | false => exact ⟨nofun, nofun⟩
        | true => exact ⟨fun _ => ⟨hfits, rfl⟩, fun _ => ⟨_, rfl⟩⟩

theorem writeSecret_file {calls : WriteCalls} {secret : Bytes} {file : SecretFile}
    (h : writeSecret calls secret = .ok (.ok file)) :
    secret.length ≤ minPageSize ∧ file.size = secret.length ∧ file.content = secret := by
  unfold writeSecret at h
  split at h
  · cases h
  · rename_i hlong
    have hfits : secret.length ≤ minPageSize := by omega
    cases ho : openMemfdSecret calls secret.length with
    | error err =>
      rw [ho] at h
      cases h
    | ok opened =>
      obtain ⟨fd, size⟩ := opened
      have hsize := openMemfdSecret_size ho
      cases hm : calls.mmap with
      | failed errno =>
        rw [ho, hm] at h
        cases h
      | null =>
        rw [ho, hm] at h
        cases h
      | page page =>
        obtain ⟨mem, mem', hmap, hwrite, -, hinner⟩ :=
          fromFd_writeAll fd page hfits
        simp only [ho, hm, hmap, hwrite, unmapped] at h
        split at h
        · cases h
          refine ⟨hfits, hsize, ?_⟩
          unfold SecretFile.content
          rw [hinner, hsize, Int.toNat_natCast, List.take_left]
        · cases h

/-- The file holds what was written. -/
theorem writeSecret_content {calls : WriteCalls} {secret : Bytes} {file : SecretFile}
    (h : writeSecret calls secret = .ok (.ok file)) : file.content = secret :=
  (writeSecret_file h).2.2

end Credentialsd
