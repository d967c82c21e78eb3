import PrivmxEndpoint.FaultyCalls
import PrivmxEndpoint.FileIntegrity

/-!
# Sessions of a read handle

A session of this module interleaves the calls of a read handle with changes that
are made elsewhere, and any request of a call may fail.  `FileReadHandle::sync`
first compares sizes, then replaces the encryptor, and only then asks for the tags;
a throw behind the comparison leaves the handle with the encryptor of the new
parameters (`ReadSession.sync_refused`).

As long as a throwing `sync` leaves the encryptor as it was, and one that succeeds
is made for the file of the server and keeps the chunk size, the handle describes
the plain text of some version (`ReadSession.tracked_step`).
-/

namespace PrivmxEndpoint

open Word Splice Blocks Runs

/-- The chunk reader of the handle. -/
abbrev FileReadHandle.reader (h : FileReadHandle) : ChunkReader :=
  h.fileReader.chunkReader

/-- A read handle, the server it talks to and the plain text of the version to
which the handle was last brought. -/
structure ReadSession where
  handle : FileReadHandle
  server : ServerFile
  text : Bytes

/-- What can happen in a session: a call of the handle, below which requests may
fail, or a change of the file made elsewhere.  A `sync` brings the parameters of a
file and, for the record, its plain text. -/
inductive ReadEvent
  | read (faults : Faults) (length : Nat)
  | seek (pos : Nat)
  | sync (faults : Faults) (newParms : FileEncryptionParams) (text : Bytes)
  | foreign (server : ServerFile)

/-- What a read returns. -/
def ReadSession.read (C : Primitives) (x : ReadSession) (F : Faults) (length : Nat) :
    Except StoreError Bytes :=
  (x.handle.read C (faultyBridge F) length x.server).1

/-- The session after an event, also if a call throws.  No call changes the server. -/
def ReadSession.next (C : Primitives) (x : ReadSession) : ReadEvent → ReadSession
  | .read F length => { x with handle := (x.handle.read C (faultyBridge F) length x.server).2.1 }
  | .seek pos => { x with handle := (x.handle.seek pos).toOption.getD x.handle }
  | .sync F newParms text =>
      match x.handle.sync C (faultyBridge F) newParms.fileDecryptionParams x.server with
      | (.ok (), h, _) => { x with handle := h, text := text }
      | (.error _, h, _) => { x with handle := h }
  | .foreign server => { x with server := server }

/-- One step of a session.  A change made elsewhere counts the version up. -/
def ReadEvent.step (C : Primitives) (x : ReadSession) (a : ReadEvent) (y : ReadSession) : Prop :=
  (∀ server, a = .foreign server → x.server.version < server.version) ∧ y = x.next C a

/-! ## The outcomes of a `sync` -/

/-- The request of `getCurrentChecksumsFromBridge`. -/
def ChunkDataProvider.checksumRequest (p : ChunkDataProvider) : StoreFileReadModel where
  fileId := p.fileId
  range := .checksum
  version := none
  thumb := false

/-- The reader with another encryptor. -/
def ChunkReader.withEncryptor (r : ChunkReader) (e : ChunkEncryptor) : ChunkReader :=
  { r with chunkEncryptor := e }

@[inherit_doc ChunkReader.withEncryptor]
def FileReadHandle.withEncryptor (h : FileReadHandle) (e : ChunkEncryptor) : FileReadHandle :=
  { h with fileReader := { h.fileReader with chunkReader := h.reader.withEncryptor e } }

/-- The handle after a `sync` that does not throw. -/
def FileReadHandle.synced (h : FileReadHandle) (C : Primitives) (checksum : Bytes)
    (d : FileDecryptionParams) : FileReadHandle where
  fileReader :=
    { chunkReader :=
        { chunkDataProvider :=
            h.reader.chunkDataProvider.sync d.version d.sizeOnServer none none
          chunkEncryptor := d.encryptor
          hashList := openedHashList C d.key checksum
          version := d.version
          lastChunk := none }
      plainfileSize := d.originalSize }
  size := d.originalSize
  pos := h.pos

/-- The comparison of sizes lets the parameters pass. -/
def ReadSession.SizeFits (x : ReadSession) (d : FileDecryptionParams) : Prop :=
  d.sizeOnServer = x.handle.reader.chunkEncryptor.getEncryptedFileSize d.originalSize

/-- The request for the tags fails, or its answer does not pass the checks of the
tag list. -/
def ReadSession.Refuses (C : Primitives) (x : ReadSession) (F : Faults)
    (d : FileDecryptionParams) : Prop :=
  F.read x.handle.reader.chunkDataProvider.checksumRequest ≠ none ∨
    d.hmac ≠ C.hmacSha256 d.key x.server.checksum ∨ x.server.checksum.length % HMAC_SIZE ≠ 0

/-- The chunks of a text are addressable. -/
def ChunkDataProvider.Reaches (p : ChunkDataProvider) (cs len : Nat) : Prop :=
  ∀ i, i * cs < len → p.Addressable i

/-- The request for the tags is answered, and the parameters are made for the file
on the server, which has the chunk size of the handle. -/
structure ReadSession.Accepts (C : Primitives) (x : ReadSession) (F : Faults)
    (d : FileDecryptionParams) (text : Bytes) : Prop where
  answered : F.read x.handle.reader.chunkDataProvider.checksumRequest = none
  stored : StoredFile C d text x.server
  chunkSize_eq : d.chunkSize = x.handle.reader.chunkEncryptor.chunkSize
  length_lt : x.server.file.length < 2 ^ 63
  reaches : x.handle.reader.chunkDataProvider.Reaches d.chunkSize text.length

/-- A throw with these parameters leaves the handle as it was. -/
def ReadSession.LeavesHandle (x : ReadSession) (d : FileDecryptionParams) : Prop :=
  ¬ x.SizeFits d ∨ d.encryptor = x.handle.reader.chunkEncryptor

section Sync

variable {C : Primitives} {x : ReadSession} {F : Faults} {d : FileDecryptionParams} {text : Bytes}

theorem FileReadHandle.withEncryptor_self (h : FileReadHandle) :
    h.withEncryptor h.reader.chunkEncryptor = h := rfl

/-- The size check throws before anything is changed. -/
theorem ReadSession.sync_of_not_sizeFits (h : ¬ x.SizeFits d) :
    x.handle.sync C (faultyBridge F) d x.server = (.error .fileCorrupted, x.handle, x.server) := by
  unfold FileReadHandle.sync
  exact if_pos h

theorem ChunkDataProvider.getCurrentChecksums_faulty (p : ChunkDataProvider) (s : ServerFile) :
    p.getCurrentChecksumsFromBridge (faultyBridge F) s =
      match F.read p.checksumRequest with
      | some e => (.error e, s)
      | none => (.ok s.checksum, s) := rfl

/-- Tags of another file, or no whole number of them. -/
theorem HmacList.sync_refused {checksum : Bytes} (l : HmacList)
    (h : d.hmac ≠ C.hmacSha256 d.key checksum ∨ checksum.length % HMAC_SIZE ≠ 0) :
    ∃ e, l.sync C d.key d.hmac checksum = .error e := by
  unfold HmacList.sync HmacList.create
  by_cases hhmac : C.hmacSha256 d.key checksum = d.hmac
  · rw [if_neg (not_not.mpr hhmac), if_pos (h.resolve_left (not_not.mpr hhmac.symm))]
    exact ⟨_, rfl⟩
  · rw [if_pos hhmac]
    exact ⟨_, rfl⟩

/-- **A throw behind the size check** leaves the new encryptor in the handle. -/
theorem ReadSession.sync_refused (hsize : x.SizeFits d) (h : x.Refuses C F d) :
    ∃ e, x.handle.sync C (faultyBridge F) d x.server =
      (.error e, x.handle.withEncryptor d.encryptor, x.server) := by
  unfold ReadSession.SizeFits at hsize
  rw [FileReadHandle.sync, if_neg (not_not.mpr hsize)]
  dsimp only
  rw [ChunkDataProvider.getCurrentChecksums_faulty]
  cases hread : F.read x.handle.reader.chunkDataProvider.checksumRequest with
  | some e => exact ⟨e, rfl⟩
  | none =>
      obtain ⟨e, herror⟩ := HmacList.sync_refused x.handle.reader.hashList
        (h.resolve_left (not_not.mpr hread))
      dsimp only
      rw [herror]
      exact ⟨e, rfl⟩

/-- A `sync` that is not refused. -/
theorem ReadSession.sync_ok (hsize : x.SizeFits d) (h : ¬ x.Refuses C F d) :
    x.handle.sync C (faultyBridge F) d x.server =
      (.ok (), x.handle.synced C x.server.checksum d, x.server) := by
  simp only [ReadSession.Refuses, not_or, not_not] at h
  obtain ⟨hread, hhmac, hlength⟩ := h
  unfold ReadSession.SizeFits at hsize
  rw [FileReadHandle.sync, if_neg (not_not.mpr hsize)]
  dsimp only
  rw [ChunkDataProvider.getCurrentChecksums_faulty]
  simp only [hread, HmacList.sync, HmacList.create_eq hhmac hlength]
  rfl

/-- **A throw** leaves the handle as it was, or as it was but for the encryptor. -/
theorem ReadSession.sync_throws {e : StoreError} {h : FileReadHandle} {s : ServerFile}
    (hsync : x.handle.sync C (faultyBridge F) d x.server = (.error e, h, s)) :
    s = x.server ∧
      (¬ x.SizeFits d ∧ h = x.handle ∨
        x.SizeFits d ∧ h = x.handle.withEncryptor d.encryptor) := by
  by_cases hsize : x.SizeFits d
  · by_cases hrefuses : x.Refuses C F d
    · obtain ⟨e', hcall⟩ := ReadSession.sync_refused hsize hrefuses
      obtain ⟨-, hh, hs⟩ := by simpa using hsync.symm.trans hcall
      exact ⟨hs, Or.inr ⟨hsize, hh⟩⟩
    · rw [ReadSession.sync_ok hsize hrefuses] at hsync
      cases hsync
  · obtain ⟨-, hh, hs⟩ := by simpa using hsync.symm.trans (ReadSession.sync_of_not_sizeFits hsize)
    exact ⟨hs, Or.inl ⟨hsize, hh⟩⟩

theorem ReadSession.Accepts.not_refuses (h : x.Accepts C F d text) : ¬ x.Refuses C F d := by
  intro hrefuses
  rcases hrefuses with hread | hhmac | hlength
  · exact hread h.answered
  · exact hhmac h.stored.hmac_eq
  · exact hlength h.stored.checksum_mod

end Sync

/-! ## What the handle describes -/

/-- The handle describes the text of the version it was brought to; all chunks of
the text are addressable, and a kept chunk is one of them. -/
structure ReadSession.Tracks (C : Primitives) (x : ReadSession) (n : Nat)
    (file checksum : Bytes) : Prop where
  describes : x.handle.reader.Describes C x.text n file checksum
  plainfileSize_eq : x.handle.fileReader.plainfileSize = x.text.length
  size_eq : x.handle.size = x.text.length
  version_le : x.handle.reader.version ≤ x.server.version
  current : x.server.version = x.handle.reader.version → x.server.file = file
  reaches : x.handle.reader.chunkDataProvider.Reaches x.handle.reader.chunkEncryptor.chunkSize
    x.text.length
  kept : ∀ c, x.handle.reader.lastChunk = some c →
    c.index * x.handle.reader.chunkEncryptor.chunkSize < x.text.length
  size_lt : x.text.length < 2 ^ 63
  encLen_le : encLen x.handle.reader.chunkEncryptor.chunkSize ≤ 2 ^ 62

/-- The text of some version is described. -/
def ReadSession.Tracked (C : Primitives) (x : ReadSession) : Prop :=
  ∃ n file checksum, x.Tracks C n file checksum

/-- Events that keep the handle in line with some version: reads within 64 bits, and
calls of `sync` that leave the handle as it was when they throw and bring the
parameters of the stored file when they do not. -/
def ReadEvent.Sound (C : Primitives) (x : ReadSession) : ReadEvent → Prop
  | .read _ length => x.handle.pos + length < 2 ^ 64
  | .seek _ => True
  | .sync F newParms text =>
      x.LeavesHandle newParms.fileDecryptionParams ∧
          (¬ x.SizeFits newParms.fileDecryptionParams ∨
            x.Refuses C F newParms.fileDecryptionParams) ∨
        x.Accepts C F newParms.fileDecryptionParams text
  | .foreign _ => True

section Reads

variable {σ : Type} {B : Bridge σ} {C : Primitives} {r : ChunkReader} {s : σ}

/-- A chunk that is kept after a loop was kept before or is one of the loop. -/
theorem ChunkReader.getDecryptedChunks_kept (Q : Nat → Prop) {k i : Nat}
    (hr : ∀ c, r.lastChunk = some c → Q c.index) (hi : ∀ j, i ≤ j → j < i + k → Q j) :
    ∀ c, (ChunkReader.getDecryptedChunks C B k i r s).2.1.lastChunk = some c → Q c.index := by
  induction k generalizing i r s with
  | zero => exact hr
  | succ k ih =>
      have hfetch : ∀ c, (r.fetchChunk C B i s).2.1.lastChunk = some c → Q c.index := by
        unfold ChunkReader.fetchChunk
        split
        · exact hr
        · split
          · exact hr
          · intro c hc
            obtain rfl := Option.some.inj hc
            exact hi i le_rfl (by omega)
      have hchunk : ∀ c, (r.getDecryptedChunk C B i s).2.1.lastChunk = some c → Q c.index := by
        unfold ChunkReader.getDecryptedChunk
        split
        · exact hfetch
        · split
          · exact hr
          · exact hfetch
      unfold ChunkReader.getDecryptedChunks
      cases hcall : r.getDecryptedChunk C B i s with
      | mk result rest =>
          obtain ⟨r₁, s₁⟩ := rest
          rw [hcall] at hchunk
          cases result with
          | error e => exact hchunk
          | ok chunk =>
              have hrest := ih (i := i + 1) (s := s₁) hchunk fun j h1 h2 => hi j (by omega) (by omega)
              dsimp only
              cases hcalls : ChunkReader.getDecryptedChunks C B k (i + 1) r₁ s₁ with
              | mk result rest =>
                  obtain ⟨r₂, s₂⟩ := rest
                  rw [hcalls] at hrest
                  cases result with
                  | error e => exact hrest
                  | ok data => exact hrest

/-- A chunk that is kept after a read has an index in the file. -/
theorem ChunkReader.read_kept {size pos length : Nat} {s : ServerFile} {B : Bridge ServerFile}
    (hcs : 0 < r.chunkEncryptor.chunkSize) (hsum : pos + length < 2 ^ 64)
    (hr : ∀ c, r.lastChunk = some c → c.index * r.chunkEncryptor.chunkSize < size) :
    ∀ c, (r.read C B size pos length s).2.1.lastChunk = some c →
      c.index * r.chunkEncryptor.chunkSize < size := by
  by_cases hin : pos < size ∧ 0 < length
  · obtain ⟨hpos, hlen⟩ := hin
    have hkept := ChunkReader.getDecryptedChunks_kept (C := C) (B := B) (s := s)
      (fun j => j * r.chunkEncryptor.chunkSize < size)
      (k := lastReadChunk r.chunkEncryptor.chunkSize size pos length + 1 -
        pos / r.chunkEncryptor.chunkSize) (i := pos / r.chunkEncryptor.chunkSize) hr
      (fun j _ hj => by
        have hmono : pos / r.chunkEncryptor.chunkSize ≤
            lastReadChunk r.chunkEncryptor.chunkSize size pos length :=
          Nat.div_le_div_right (by omega)
        have hle : j ≤ (min (pos + length) size - 1) / r.chunkEncryptor.chunkSize := by
          have : (min (pos + length) size - 1) / r.chunkEncryptor.chunkSize =
            lastReadChunk r.chunkEncryptor.chunkSize size pos length := rfl
          omega
        have hmul := (Nat.le_div_iff_mul_le hcs).mp hle
        omega)
    rw [ChunkReader.read_eq hsum hpos hlen rfl]
    exact hkept
  · rw [ChunkReader.read_nil hsum hin]
    exact hr

/-- The handle after a read of its file. -/
def FileReadHandle.afterRead (h : FileReadHandle) (r : ChunkReader) (length : Nat) :
    Except StoreError Bytes → FileReadHandle
  | .ok _ =>
      { h with
        fileReader := { h.fileReader with chunkReader := r }
        pos := u64 (h.pos + length) }
  | .error _ => { h with fileReader := { h.fileReader with chunkReader := r } }

theorem FileReadHandle.read_of_call {h : FileReadHandle} {length : Nat} {s' : σ}
    {result : Except StoreError Bytes}
    (hcall : h.reader.read C B h.fileReader.plainfileSize h.pos length s = (result, r, s')) :
    h.read C B length s = (result, h.afterRead r length result, s') := by
  cases result with
  | error e => simp only [FileReadHandle.read, FileReader.read, hcall, FileReadHandle.afterRead]
  | ok buf => simp only [FileReadHandle.read, FileReader.read, hcall, FileReadHandle.afterRead]

@[simp] theorem FileReadHandle.afterRead_reader (h : FileReadHandle) (r : ChunkReader)
    (length : Nat) (result : Except StoreError Bytes) :
    (h.afterRead r length result).reader = r := by
  cases result <;> rfl

@[simp] theorem FileReadHandle.afterRead_size (h : FileReadHandle) (r : ChunkReader)
    (length : Nat) (result : Except StoreError Bytes) :
    (h.afterRead r length result).size = h.size := by
  cases result <;> rfl

@[simp] theorem FileReadHandle.afterRead_plainfileSize (h : FileReadHandle) (r : ChunkReader)
    (length : Nat) (result : Except StoreError Bytes) :
    (h.afterRead r length result).fileReader.plainfileSize = h.fileReader.plainfileSize := by
  cases result <;> rfl

end Reads

section Steps

variable {C : Primitives} {x y : ReadSession} {F : Faults} {n : Nat} {file checksum : Bytes}

/-- A handle whose reader describes the same file. -/
theorem ReadSession.Tracks.withHandle (hx : x.Tracks C n file checksum) {h : FileReadHandle}
    (hsame : x.handle.reader.SameFile h.reader)
    (hd : h.reader.Describes C x.text n file checksum)
    (hkept : ∀ c, h.reader.lastChunk = some c →
      c.index * h.reader.chunkEncryptor.chunkSize < x.text.length)
    (hplain : h.fileReader.plainfileSize = x.handle.fileReader.plainfileSize)
    (hsize : h.size = x.handle.size) :
    ReadSession.Tracks C { x with handle := h } n file checksum where
  describes := hd
  plainfileSize_eq := hplain.trans hx.plainfileSize_eq
  size_eq := hsize.trans hx.size_eq
  version_le := hsame.version_eq ▸ hx.version_le
  current hv := hx.current (hv.trans hsame.version_eq)
  reaches i hi := by
    have hi' : i * x.handle.reader.chunkEncryptor.chunkSize < x.text.length := by
      rw [← hsame.chunkEncryptor_eq]
      exact hi
    exact hsame.shape.addressable (hx.reaches i hi')
  kept := hkept
  size_lt := hx.size_lt
  encLen_le := hsame.chunkEncryptor_eq ▸ hx.encLen_le

/-- Moving the position. -/
theorem ReadSession.Tracks.moved (hx : x.Tracks C n file checksum) (pos : Nat) :
    ReadSession.Tracks C { x with handle := { x.handle with pos := pos } } n file checksum :=
  hx.withHandle (.refl _) hx.describes hx.kept rfl rfl

/-- A change made elsewhere. -/
theorem ReadSession.Tracks.foreign (hx : x.Tracks C n file checksum) {server : ServerFile}
    (hlt : x.server.version < server.version) :
    ReadSession.Tracks C { x with server := server } n file checksum := by
  have hle := hx.version_le
  refine ⟨hx.describes, hx.plainfileSize_eq, hx.size_eq, hle.trans hlt.le, ?_, hx.reaches, hx.kept,
    hx.size_lt, hx.encLen_le⟩
  intro hv
  have hv' : server.version = x.handle.reader.version := hv
  omega

/-- The last chunk of a read is addressable. -/
theorem ReadSession.Tracks.addressable (hx : x.Tracks C n file checksum) {pos length : Nat}
    (hpos : pos < x.text.length) :
    x.handle.reader.chunkDataProvider.Addressable
      (lastReadChunk x.handle.reader.chunkEncryptor.chunkSize x.text.length pos length) := by
  apply hx.reaches
  have hle := Nat.div_mul_le_self (min (pos + length) x.text.length - 1)
    x.handle.reader.chunkEncryptor.chunkSize
  unfold lastReadChunk
  omega

/-- **A read behind faults** throws or returns the range of the text, and the handle
describes the text as before. -/
theorem ReadSession.Tracks.read (hx : x.Tracks C n file checksum) (F : Faults) {length : Nat}
    (hsum : x.handle.pos + length < 2 ^ 64) :
    ∃ result r, x.handle.read C (faultyBridge F) length x.server =
        (result, x.handle.afterRead r length result, x.server) ∧
      (∀ data, result = .ok data → data = slice x.text x.handle.pos length) ∧
      x.handle.reader.SameFile r ∧
      ReadSession.Tracks C { x with handle := x.handle.afterRead r length result } n file
        checksum := by
  obtain ⟨result, r, hsame, hd, hcall, hresult⟩ := ChunkReader.read_under (F := F) hx.describes
    hsum (fun hpos _ => hx.addressable hpos) hx.current
  have hkept := ChunkReader.read_kept (C := C) (B := faultyBridge F) (s := x.server)
    hx.describes.chunkSize_pos hsum hx.kept
  rw [hcall] at hkept
  rw [← hx.plainfileSize_eq] at hcall
  refine ⟨result, r, FileReadHandle.read_of_call hcall, hresult, hsame, ?_⟩
  apply hx.withHandle
  · rw [FileReadHandle.afterRead_reader]
    exact hsame
  · rw [FileReadHandle.afterRead_reader]
    exact hd
  · rw [FileReadHandle.afterRead_reader, hsame.chunkEncryptor_eq]
    exact hkept
  · exact FileReadHandle.afterRead_plainfileSize ..
  · exact FileReadHandle.afterRead_size ..

/-- On the current file a read does not throw. -/
theorem ReadSession.Tracks.read_current (hx : x.Tracks C n file checksum) {length : Nat}
    (hsum : x.handle.pos + length < 2 ^ 64)
    (hv : x.server.version = x.handle.reader.version) :
    x.read C .none length = .ok (slice x.text x.handle.pos length) := by
  obtain ⟨r, -, -, hok | ⟨hne, -⟩⟩ := ChunkReader.read_spec honestReads_versionedBridge
    hx.describes hsum (fun hpos _ => hx.addressable hpos) hx.current
  · rw [← hx.plainfileSize_eq] at hok
    unfold ReadSession.read
    rw [faultyBridge_none, FileReadHandle.read_of_call hok]
  · exact absurd hv hne

/-- What a provider keeps over a `sync` to a new version matches the file of that
version, if an unchanged version means an unchanged file. -/
theorem ChunkDataProvider.CacheMatches.sync_to {p : ChunkDataProvider} {v v' : Int}
    {file file' : Bytes} (hc : p.CacheMatches v file) (hle : v ≤ v')
    (hsame : v' = v → file' = file) (size : Nat) :
    (p.sync v' size none none).CacheMatches v' file' := by
  refine ⟨le_rfl, ?_⟩
  intro _ w hw hne
  by_cases hlt : p.fileVersion < v'
  · simp only [ChunkDataProvider.sync, hlt, if_true] at hw
    exact absurd hw (by simp)
  · have hp := hc.fileVersion_le
    simp only [ChunkDataProvider.sync, hlt, if_false] at hw ⊢
    rw [hsame (by omega)]
    exact hc.window_eq (by omega) w hw hne

/-- Accepted parameters pass the comparison of sizes. -/
theorem ReadSession.Accepts.sizeFits {d : FileDecryptionParams} {text : Bytes}
    (h : x.Accepts C F d text) (hx : x.Tracks C n file checksum) : x.SizeFits d := by
  have hcs := hx.encLen_le
  rw [← h.chunkSize_eq] at hcs
  have hsize := h.stored.sizeOnServer_eq_predicted h.length_lt hcs
  unfold ReadSession.SizeFits
  rw [hsize]
  unfold ChunkEncryptor.getEncryptedFileSize
  rw [show d.encryptor.chunkSize = x.handle.reader.chunkEncryptor.chunkSize from h.chunkSize_eq]

/-- **An accepted `sync`** brings the handle to the file of the server. -/
theorem ReadSession.Accepts.tracks {d : FileDecryptionParams} {text : Bytes}
    (h : x.Accepts C F d text) (hx : x.Tracks C n file checksum) :
    ReadSession.Tracks C ⟨x.handle.synced C x.server.checksum d, x.server, text⟩
      (chunksFor d.chunkSize text.length) x.server.file x.server.checksum := by
  have hversion : d.version = x.server.version := h.stored.version_eq
  have hcs : d.encryptor.chunkSize = x.handle.reader.chunkEncryptor.chunkSize := h.chunkSize_eq
  have hshape : x.handle.reader.chunkDataProvider.SameShape
      (x.handle.synced C x.server.checksum d).reader.chunkDataProvider := ⟨rfl, rfl⟩
  have hle := hx.version_le
  refine ⟨⟨h.stored.encoded, h.stored.chunkSize_pos, hshape.shaped hx.describes.shaped, ?_, ?_,
    HmacList.sound_opened d.key h.stored.checksum_mod, rfl, rfl, ?_⟩, h.stored.originalSize_eq,
    h.stored.originalSize_eq, hversion.le, fun _ => rfl, ?_, ?_, ?_, ?_⟩
  · exact hx.describes.encryptedChunkSize_eq.trans (congrArg encLen hcs.symm)
  · exact hx.describes.cache.sync_to (by omega)
      (fun hv => hx.current (hversion.symm.trans hv)) d.sizeOnServer
  · intro c hc _
    cases hc
  · intro i hi
    exact hshape.addressable (h.reaches i hi)
  · intro c hc
    cases hc
  · exact lt_of_le_of_lt h.stored.encoded.length_plain_le h.length_lt
  · exact hcs ▸ hx.encLen_le

/-- A `sync` that throws and leaves the handle as it was leaves the session. -/
theorem ReadSession.next_sync_of_leaves {newParms : FileEncryptionParams} {text : Bytes}
    (hleaves : x.LeavesHandle newParms.fileDecryptionParams)
    (hthrows : ¬ x.SizeFits newParms.fileDecryptionParams ∨
      x.Refuses C F newParms.fileDecryptionParams) :
    x.next C (.sync F newParms text) = x := by
  have hsame : ∃ e, x.handle.sync C (faultyBridge F) newParms.fileDecryptionParams x.server =
      (.error e, x.handle, x.server) := by
    by_cases hsize : x.SizeFits newParms.fileDecryptionParams
    · obtain ⟨e, hcall⟩ := ReadSession.sync_refused hsize
        (hthrows.resolve_left (not_not.mpr hsize))
      rw [hleaves.resolve_left (not_not.mpr hsize), FileReadHandle.withEncryptor_self] at hcall
      exact ⟨e, hcall⟩
    · exact ⟨_, ReadSession.sync_of_not_sizeFits hsize⟩
  obtain ⟨e, hcall⟩ := hsame
  unfold ReadSession.next
  dsimp only
  rw [hcall]

theorem ReadSession.Accepts.next_sync {newParms : FileEncryptionParams} {text : Bytes}
    (h : x.Accepts C F newParms.fileDecryptionParams text) (hx : x.Tracks C n file checksum) :
    x.next C (.sync F newParms text) =
      ⟨x.handle.synced C x.server.checksum newParms.fileDecryptionParams, x.server, text⟩ := by
  unfold ReadSession.next
  dsimp only
  rw [ReadSession.sync_ok (h.sizeFits hx) h.not_refuses]

/-- **Step.**  Every sound event keeps the handle in line with some version. -/
theorem ReadSession.tracked_step {a : ReadEvent} (hx : x.Tracked C) (hok : a.Sound C x)
    (hstep : a.step C x y) : y.Tracked C := by
  obtain ⟨n, file, checksum, hx⟩ := hx
  obtain ⟨hforeign, rfl⟩ := hstep
  cases a with
  | read F length =>
      obtain ⟨result, r, hcall, -, -, hy⟩ := hx.read F hok
      refine ⟨n, file, checksum, ?_⟩
      simp only [ReadSession.next, hcall]
      exact hy
  | seek pos =>
      refine ⟨n, file, checksum, ?_⟩
      unfold ReadSession.next FileReadHandle.seek
      dsimp only
      split
      · exact hx
      · exact hx.moved pos
  | sync F newParms text =>
      rcases hok with ⟨hleaves, hthrows⟩ | haccepts
      · rw [ReadSession.next_sync_of_leaves hleaves hthrows]
        exact ⟨n, file, checksum, hx⟩
      · rw [haccepts.next_sync hx]
        exact ⟨_, _, _, haccepts.tracks hx⟩
  | foreign server =>
      exact ⟨n, file, checksum, hx.foreign (hforeign server rfl)⟩

/-- By induction on the run. -/
theorem ReadSession.tracked_run {events : List ReadEvent} (hx : x.Tracked C)
    (hrun : Run (guarded (ReadEvent.Sound C) (ReadEvent.step C)) x events y) : y.Tracked C :=
  hrun.preserves (ReadSession.Tracked C) (fun _ _ _ hs h => ReadSession.tracked_step hs h.1 h.2) hx

/-- **A freshly opened handle** is in line with the server. -/
theorem ReadSession.tracked_opened {d : FileDecryptionParams} {P : Bytes} {s : ServerFile}
    {win : Nat} {h : FileReadHandle} (hstored : StoredFile C d P s)
    (hwin : WindowSize d.chunkSize win) (hlen : s.file.length < 2 ^ 63)
    (hopen : FileReadHandle.create C versionedBridge d win s = (.ok h, s))
    (hreaches : h.reader.chunkDataProvider.Reaches d.chunkSize P.length) :
    ReadSession.Tracked C ⟨h, s, P⟩ := by
  obtain ⟨hreader, hd⟩ := openChunkReader_ok honestReads_versionedBridge hstored hwin hlen
  have hsum := hwin.sum_le
  simp only [FileReadHandle.create, hreader, Prod.mk.injEq, Except.ok.injEq, and_true] at hopen
  obtain rfl := hopen
  refine ⟨_, _, _, hd, hstored.originalSize_eq, hstored.originalSize_eq, hstored.version_eq.le,
    fun _ => rfl, hreaches, ?_, ?_, ?_⟩
  · intro c hc
    cases hc
  · exact lt_of_le_of_lt hstored.encoded.length_plain_le hlen
  · exact le_trans (Nat.le_add_left _ _) hsum

end Steps

end PrivmxEndpoint
