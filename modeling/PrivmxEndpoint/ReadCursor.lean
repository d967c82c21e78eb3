import PrivmxEndpoint.FailedWrite
import PrivmxEndpoint.ReadHandleSync

/-!
# The read cursor

Two classes read a stored file as a stream.  `FileHandlerImpl::read` moves its cursor by
the number of bytes it returns, `FileReadHandle::read` by the number of bytes it is asked
for, in 64 bits.  The two agree as long as no read asks for more than the file has
(`ReadPair.inStep_run`); behind the end the cursor of the read handle leaves the file, and
a `sync` to a grown file does not bring it back.

The readers of the two classes differ in what they keep of an old version.  Two readers
are alike if they would use the same window for their version.
-/

namespace PrivmxEndpoint

open Word Splice Blocks Runs

/-! ## Readers that are alike -/

/-- The kept window, with its number, that a request for version `v` would use. -/
def ChunkDataProvider.windowAt (p : ChunkDataProvider) (v : Int) : Option (Nat × Bytes) :=
  (p.forVersion v).lastServerChunkNumber.map fun w => (w, p.lastServerChunk)

/-- Two providers of one file that would use the same window for version `v`. -/
structure ChunkDataProvider.Alike (v : Int) (p p' : ChunkDataProvider) : Prop where
  encryptedChunkSize_eq : p'.encryptedChunkSize = p.encryptedChunkSize
  serverChunkSize_eq : p'.serverChunkSize = p.serverChunkSize
  fileId_eq : p'.fileId = p.fileId
  windowAt_eq : p'.windowAt v = p.windowAt v
  le : p.fileVersion ≤ v
  le' : p'.fileVersion ≤ v

/-- Two readers that differ in windows of other versions only. -/
structure ChunkReader.Alike (r r' : ChunkReader) : Prop where
  chunkDataProvider : ChunkDataProvider.Alike r.version r.chunkDataProvider r'.chunkDataProvider
  chunkEncryptor_eq : r'.chunkEncryptor = r.chunkEncryptor
  hashList_eq : r'.hashList = r.hashList
  version_eq : r'.version = r.version
  lastChunk_eq : r'.lastChunk = r.lastChunk

section Providers

variable {σ : Type} {B : Bridge σ} {p p' : ChunkDataProvider} {v : Int}

/-- The provider is at the version that was asked for. -/
theorem ChunkDataProvider.forVersion_fileVersion (p : ChunkDataProvider) (v : Int) :
    (p.forVersion v).fileVersion = v := by
  unfold ChunkDataProvider.forVersion
  split
  · rfl
  · rename_i h
    exact (not_not.mp h).symm

/-- It stays when it already was. -/
theorem ChunkDataProvider.forVersion_of_eq (h : p.fileVersion = v) : p.forVersion v = p :=
  if_neg (not_not.mpr h.symm)

/-- A window of another version is not used. -/
theorem ChunkDataProvider.windowAt_of_ne (h : p.fileVersion ≠ v) : p.windowAt v = none := by
  unfold ChunkDataProvider.windowAt ChunkDataProvider.forVersion
  rw [if_pos h.symm]
  rfl

/-- A window of the version itself is. -/
theorem ChunkDataProvider.windowAt_of_eq (h : p.fileVersion = v) :
    p.windowAt v = p.lastServerChunkNumber.map fun w => (w, p.lastServerChunk) := by
  rw [ChunkDataProvider.windowAt, ChunkDataProvider.forVersion_of_eq h]

/-- A window depends on the version and the cached chunk. -/
theorem ChunkDataProvider.windowAt_congr (h : p.fileVersion = v) (h' : p'.fileVersion = v)
    (hnumber : p'.lastServerChunkNumber = p.lastServerChunkNumber)
    (hchunk : p'.lastServerChunk = p.lastServerChunk) : p'.windowAt v = p.windowAt v := by
  rw [ChunkDataProvider.windowAt_of_eq h, ChunkDataProvider.windowAt_of_eq h', hnumber, hchunk]

/-- The window is looked up at the version asked for. -/
theorem ChunkDataProvider.windowAt_forVersion (p : ChunkDataProvider) (v : Int) :
    (p.forVersion v).windowAt v = p.windowAt v := by
  rw [ChunkDataProvider.windowAt_of_eq (p.forVersion_fileVersion v)]
  unfold ChunkDataProvider.windowAt ChunkDataProvider.forVersion
  split <;> rfl

/-- A `sync` to the version itself leaves the window. -/
theorem ChunkDataProvider.windowAt_sync (p : ChunkDataProvider) (h : p.fileVersion ≤ v) (n : Nat) :
    (p.sync v n none none).windowAt v = p.windowAt v := by
  have hversion : (p.sync v n none none).fileVersion = v := rfl
  rw [ChunkDataProvider.windowAt_of_eq hversion]
  by_cases hlt : p.fileVersion < v
  · rw [ChunkDataProvider.windowAt_of_ne hlt.ne]
    simp only [ChunkDataProvider.sync, if_pos hlt]
    rfl
  · rw [ChunkDataProvider.windowAt_of_eq (le_antisymm h (not_lt.mp hlt))]
    simp only [ChunkDataProvider.sync, if_neg hlt]

/-- A provider is like itself. -/
theorem ChunkDataProvider.Alike.refl (h : p.fileVersion ≤ v) : ChunkDataProvider.Alike v p p :=
  ⟨rfl, rfl, rfl, rfl, h, h⟩

/-- Alike providers stay alike at a new version. -/
theorem ChunkDataProvider.Alike.forVersion (h : ChunkDataProvider.Alike v p p') :
    ChunkDataProvider.Alike v (p.forVersion v) (p'.forVersion v) := by
  have hfields : ∀ q : ChunkDataProvider,
      (q.forVersion v).encryptedChunkSize = q.encryptedChunkSize ∧
        (q.forVersion v).serverChunkSize = q.serverChunkSize ∧
        (q.forVersion v).fileId = q.fileId := by
    intro q
    unfold ChunkDataProvider.forVersion
    split <;> exact ⟨rfl, rfl, rfl⟩
  obtain ⟨he, hs, hf⟩ := hfields p
  obtain ⟨he', hs', hf'⟩ := hfields p'
  refine ⟨?_, ?_, ?_, ?_, (p.forVersion_fileVersion v).le, (p'.forVersion_fileVersion v).le⟩
  · rw [he, he', h.encryptedChunkSize_eq]
  · rw [hs, hs', h.serverChunkSize_eq]
  · rw [hf, hf', h.fileId_eq]
  · rw [p.windowAt_forVersion, p'.windowAt_forVersion, h.windowAt_eq]

/-- One chunk.  The two providers make the same request, or none. -/
theorem ChunkDataProvider.Alike.getChunk (h : ChunkDataProvider.Alike v p p') (i : Nat) (s : σ) :
    ∃ result q q' s', p.getChunk B i v s = (result, q, s') ∧
      p'.getChunk B i v s = (result, q', s') ∧ ChunkDataProvider.Alike v q q' := by
  have hboth := h.forVersion
  have hver := p.forVersion_fileVersion v
  have hver' := p'.forVersion_fileVersion v
  unfold ChunkDataProvider.getChunk
  obtain ⟨q, hq⟩ : ∃ q, p.forVersion v = q := ⟨_, rfl⟩
  obtain ⟨q', hq'⟩ : ∃ q', p'.forVersion v = q' := ⟨_, rfl⟩
  rw [hq] at hboth hver ⊢
  rw [hq'] at hboth hver' ⊢
  obtain ⟨he, hs, hf, hw, -, -⟩ := hboth
  have hreq : ∀ w s, q'.requestServerChunk B w s = q.requestServerChunk B w s := by
    intro w s
    unfold ChunkDataProvider.requestServerChunk
    rw [hs, hf, hver, hver']
  have hkept : q'.lastServerChunkNumber = q.lastServerChunkNumber ∧
      ∀ w, q.lastServerChunkNumber = some w → q'.lastServerChunk = q.lastServerChunk := by
    rw [ChunkDataProvider.windowAt_of_eq hver, ChunkDataProvider.windowAt_of_eq hver'] at hw
    cases hn : q.lastServerChunkNumber <;> cases hn' : q'.lastServerChunkNumber <;>
      simp_all
  obtain ⟨hnumber, hchunk⟩ := hkept
  dsimp only
  rw [he, hs, hnumber]
  split
  · exact ⟨_, q, q', s, rfl, rfl, he, hs, hf, hw, hver.le, hver'.le⟩
  · split
    · rename_i hhit
      rw [hchunk _ hhit]
      exact ⟨_, q, q', s, rfl, rfl, he, hs, hf, hw, hver.le, hver'.le⟩
    · rw [hreq]
      cases q.requestServerChunk B
          (u32 (u64 (q.encryptedChunkSize * i) / q.serverChunkSize)) s with
      | mk result s' =>
          cases result with
          | error e => exact ⟨_, q, q', s', rfl, rfl, he, hs, hf, hw, hver.le, hver'.le⟩
          | ok data =>
              refine ⟨_, _, _, s', rfl, rfl, rfl, rfl, hf, ?_, hver.le, hver'.le⟩
              apply ChunkDataProvider.windowAt_congr
              · exact hver
              · exact hver'
              · rfl
              · rfl

/-- **A `sync`** of the two providers, the one to a new version and the other to the old
one. -/
theorem ChunkDataProvider.Alike.sync {v' : Int} (h : ChunkDataProvider.Alike v p p')
    (hle : v ≤ v') (n n' : Nat) :
    ChunkDataProvider.Alike v' (p.sync v' n none none) (p'.sync v n' none none) := by
  refine ⟨h.encryptedChunkSize_eq, h.serverChunkSize_eq, h.fileId_eq, ?_, le_rfl, hle⟩
  have hp := h.le
  have hp' := h.le'
  by_cases hlt : v < v'
  · -- the one drops its window, the other goes on with one of the old version
    have hdropped : (p.sync v' n none none).windowAt v' = none := by
      have hversion : (p.sync v' n none none).fileVersion = v' := rfl
      have hlt' : p.fileVersion < v' := by omega
      rw [ChunkDataProvider.windowAt_of_eq hversion]
      simp only [ChunkDataProvider.sync, if_pos hlt']
      rfl
    have hold : (p'.sync v n' none none).windowAt v' = none :=
      ChunkDataProvider.windowAt_of_ne hlt.ne
    rw [hdropped, hold]
  · obtain rfl : v = v' := le_antisymm hle (not_lt.mp hlt)
    rw [p.windowAt_sync hp, p'.windowAt_sync hp', h.windowAt_eq]

end Providers

section Readers

variable {σ : Type} {B : Bridge σ} {C : Primitives} {r r' : ChunkReader}

/-- A reader is like itself. -/
theorem ChunkReader.Alike.refl (h : r.chunkDataProvider.fileVersion ≤ r.version) :
    r.Alike r :=
  ⟨.refl h, rfl, rfl, rfl, rfl⟩

/-- Alike readers decrypt alike. -/
theorem ChunkReader.Alike.decryptWithHash (h : r.Alike r') (i : Nat) (data : Bytes) :
    r'.decryptWithHash C i data = r.decryptWithHash C i data := by
  unfold ChunkReader.decryptWithHash
  rw [h.hashList_eq, h.chunkEncryptor_eq]

/-- A chunk that is not the kept one. -/
theorem ChunkReader.Alike.fetchChunk (h : r.Alike r') (i : Nat) (s : σ) :
    ∃ result q q' s', r.fetchChunk C B i s = (result, q, s') ∧
      r'.fetchChunk C B i s = (result, q', s') ∧ q.Alike q' := by
  obtain ⟨result, p, p', s', hcall, hcall', hp⟩ := h.chunkDataProvider.getChunk (B := B) (u32 i) s
  rw [← h.version_eq] at hcall'
  unfold ChunkReader.fetchChunk
  rw [hcall, hcall']
  cases result with
  | error e =>
      exact ⟨_, _, _, s', rfl, rfl, hp, h.chunkEncryptor_eq, h.hashList_eq, h.version_eq,
        h.lastChunk_eq⟩
  | ok chunk =>
      dsimp only
      rw [h.decryptWithHash]
      cases r.decryptWithHash C i chunk with
      | error e =>
          exact ⟨_, _, _, s', rfl, rfl, hp, h.chunkEncryptor_eq, h.hashList_eq, h.version_eq,
            h.lastChunk_eq⟩
      | ok plain =>
          exact ⟨_, _, _, s', rfl, rfl, hp, h.chunkEncryptor_eq, h.hashList_eq, h.version_eq, rfl⟩

/-- Alike readers read one chunk and stay alike. -/
theorem ChunkReader.Alike.getDecryptedChunk (h : r.Alike r') (i : Nat) (s : σ) :
    ∃ result q q' s', r.getDecryptedChunk C B i s = (result, q, s') ∧
      r'.getDecryptedChunk C B i s = (result, q', s') ∧ q.Alike q' := by
  unfold ChunkReader.getDecryptedChunk
  rw [h.lastChunk_eq]
  cases r.lastChunk with
  | none => exact h.fetchChunk i s
  | some c =>
      dsimp only
      split
      · exact ⟨_, r, r', s, rfl, rfl, h⟩
      · exact h.fetchChunk i s

/-- By induction on the number of chunks. -/
theorem ChunkReader.Alike.getDecryptedChunks (h : r.Alike r') (k i : Nat) (s : σ) :
    ∃ result q q' s', ChunkReader.getDecryptedChunks C B k i r s = (result, q, s') ∧
      ChunkReader.getDecryptedChunks C B k i r' s = (result, q', s') ∧ q.Alike q' := by
  induction k generalizing i r r' s with
  | zero => exact ⟨_, r, r', s, rfl, rfl, h⟩
  | succ k ih =>
      obtain ⟨result, q, q', s', hcall, hcall', hq⟩ := h.getDecryptedChunk (C := C) (B := B) i s
      unfold ChunkReader.getDecryptedChunks
      rw [hcall, hcall']
      cases result with
      | error e => exact ⟨_, q, q', s', rfl, rfl, hq⟩
      | ok chunk =>
          obtain ⟨result, q, q', s', hcall, hcall', hq⟩ := ih hq (i + 1) s'
          dsimp only
          rw [hcall, hcall']
          cases result with
          | error e => exact ⟨_, q, q', s', rfl, rfl, hq⟩
          | ok data => exact ⟨_, q, q', s', rfl, rfl, hq⟩

/-- **Alike readers read alike**, whatever the position, the length and the server. -/
theorem ChunkReader.Alike.read (h : r.Alike r') (size pos length : Nat) (s : σ) :
    ∃ result q q' s', r.read C B size pos length s = (result, q, s') ∧
      r'.read C B size pos length s = (result, q', s') ∧ q.Alike q' := by
  have hindex : ∀ position, r'.filePosToFileChunkIndex position =
      r.filePosToFileChunkIndex position := by
    intro position
    unfold ChunkReader.filePosToFileChunkIndex
    rw [h.chunkEncryptor_eq]
  unfold ChunkReader.read
  by_cases hpos : pos ≥ size
  · rw [if_pos hpos, if_pos hpos]
    exact ⟨_, r, r', s, rfl, rfl, h⟩
  · rw [if_neg hpos, if_neg hpos]
    obtain ⟨n, hn⟩ : ∃ n, (if u64 (pos + length) > size then size - pos else length) = n :=
      ⟨_, rfl⟩
    dsimp only
    rw [hn]
    by_cases hzero : n = 0
    · rw [if_pos hzero, if_pos hzero]
      exact ⟨_, r, r', s, rfl, rfl, h⟩
    · rw [if_neg hzero, if_neg hzero, hindex, hindex]
      obtain ⟨result, q, q', s', hcall, hcall', hq⟩ := h.getDecryptedChunks (C := C) (B := B)
        (r.filePosToFileChunkIndex (u64 (pos + n - 1)) + 1 - r.filePosToFileChunkIndex pos)
        (r.filePosToFileChunkIndex pos) s
      rw [hcall, hcall']
      cases result with
      | error e => exact ⟨_, q, q', s', rfl, rfl, hq⟩
      | ok data =>
          have hpart : q'.filePosToPosInFileChunk pos = q.filePosToPosInFileChunk pos := by
            unfold ChunkReader.filePosToPosInFileChunk
            rw [hq.chunkEncryptor_eq]
          dsimp only
          rw [hpart]
          exact ⟨_, q, q', s', rfl, rfl, hq⟩

end Readers

/-! ## The cursor of the read handle -/

/-- What a read does to the cursor of a stream: it returns the bytes behind the cursor,
which it moves by the number of them; it stays in the file; a read that throws does not
move; and the file of the server can be read. -/
structure ReadSession.CursorLaw (C : Primitives) (x : ReadSession) (F : Faults) (length : Nat) :
    Prop where
  returned : ∀ data, x.read C F length = .ok data →
    data = slice x.text x.handle.pos length ∧
      (x.next C (.read F length)).handle.pos = x.handle.pos + data.length ∧
      x.handle.pos + data.length ≤ x.handle.size
  thrown : ∀ e, x.read C F length = .error e →
    (x.next C (.read F length)).handle.pos = x.handle.pos
  answered : F = .none → x.server.version = x.handle.reader.version →
    ∃ data, x.read C F length = .ok data

/-- A sound event; a read asks for no more than the file has behind the cursor. -/
def ReadEvent.InBounds (C : Primitives) (x : ReadSession) (a : ReadEvent) : Prop :=
  a.Sound C x ∧ ∀ F length, a = .read F length → x.handle.pos + length ≤ x.handle.size

/-- An event of one stretch of reading: no seek, and the text only grows. -/
def ReadEvent.Continues (C : Primitives) (x : ReadSession) (a : ReadEvent) : Prop :=
  a.InBounds C x ∧ (∀ pos, a ≠ .seek pos) ∧ x.text <+: (x.next C a).text

/-- The bytes that an event returns. -/
def ReadEvent.bytes (C : Primitives) (x : ReadSession) : ReadEvent → Bytes
  | .read F length => (x.read C F length).toOption.getD []
  | _ => []

/-- The bytes that the events of a session return, joined. -/
def ReadSession.returned (C : Primitives) : ReadSession → List ReadEvent → Bytes
  | _, [] => []
  | x, a :: events => a.bytes C x ++ (x.next C a).returned C events

section Cursor

variable {C : Primitives} {x y : ReadSession} {F : Faults} {n : Nat} {file checksum : Bytes}

/-- A read at or behind the end returns nothing, whatever the length. -/
theorem ReadSession.Tracks.read_atEnd (hx : x.Tracks C n file checksum)
    (hpos : x.handle.size ≤ x.handle.pos) (F : Faults) (length : Nat) :
    x.read C F length = .ok [] := by
  have hplain : x.handle.pos ≥ x.handle.fileReader.plainfileSize := by
    rw [hx.plainfileSize_eq, ← hx.size_eq]
    exact hpos
  have hcall : x.handle.reader.read C (faultyBridge F) x.handle.fileReader.plainfileSize
      x.handle.pos length x.server = (.ok [], x.handle.reader, x.server) := by
    unfold ChunkReader.read
    rw [if_pos hplain]
  unfold ReadSession.read
  rw [FileReadHandle.read_of_call hcall]

/-- **A read of what the file has** obeys the law of the cursor. -/
theorem ReadSession.Tracks.cursorLaw (hx : x.Tracks C n file checksum) (F : Faults) {length : Nat}
    (hin : x.handle.pos + length ≤ x.handle.size) : x.CursorLaw C F length := by
  have hsize := hx.size_eq
  have hlt := hx.size_lt
  have hsum : x.handle.pos + length < 2 ^ 64 := by omega
  obtain ⟨result, r, hcall, hdata, -⟩ := hx.read F hsum
  have hread : x.read C F length = result := congrArg Prod.fst hcall
  have hnext : (x.next C (.read F length)).handle = x.handle.afterRead r length result := by
    simp only [ReadSession.next, hcall]
  constructor
  · intro data hok
    rw [hread] at hok
    obtain rfl := hdata data hok
    subst hok
    have hlength : (slice x.text x.handle.pos length).length = length := by
      rw [length_slice]
      omega
    rw [hnext, hlength]
    exact ⟨rfl, u64_of_lt hsum, hin⟩
  · intro e herr
    rw [hread] at herr
    subst herr
    rw [hnext]
    rfl
  · intro hnone hv
    subst hnone
    exact ⟨_, hx.read_current hsum hv⟩

/-- **No other read does**, on the file that the server holds. -/
theorem ReadSession.CursorLaw.in_bounds {length : Nat} (h : x.CursorLaw C .none length)
    (hx : x.Tracks C n file checksum) (hv : x.server.version = x.handle.reader.version)
    (hlength : length < 2 ^ 64) : x.handle.pos + length ≤ x.handle.size := by
  obtain ⟨data, hok⟩ := h.answered rfl hv
  obtain ⟨hdata, hnext, hle⟩ := h.returned data hok
  have hmoved : (x.next C (.read .none length)).handle.pos = u64 (x.handle.pos + length) := by
    obtain ⟨⟨result, r, s⟩, hcall⟩ : ∃ out, x.handle.reader.read C (faultyBridge .none)
        x.handle.fileReader.plainfileSize x.handle.pos length x.server = out := ⟨_, rfl⟩
    have hread := FileReadHandle.read_of_call hcall
    have hresult : x.read C .none length = result := congrArg Prod.fst hread
    rw [hresult] at hok
    subst hok
    simp only [ReadSession.next, hread]
    rfl
  have hsize := hx.size_eq
  have hlt := hx.size_lt
  have hshort : data.length = min length (x.text.length - x.handle.pos) := by
    rw [hdata, length_slice]
  unfold u64 at hmoved
  omega

/-- One event of a stretch of reading. -/
theorem ReadEvent.Continues.step {a : ReadEvent} (ha : a.Continues C x) (hx : x.Tracked C) :
    (x.next C a).handle.pos = x.handle.pos + (a.bytes C x).length ∧
      (a.bytes C x = [] ∨ x.handle.pos + (a.bytes C x).length ≤ x.text.length) ∧
      slice x.text x.handle.pos (a.bytes C x).length = a.bytes C x := by
  obtain ⟨n, file, checksum, hx⟩ := hx
  obtain ⟨⟨hsound, hin⟩, hseek, -⟩ := ha
  cases a with
  | read F length =>
      have hlaw := hx.cursorLaw F (hin F length rfl)
      cases hread : x.read C F length with
      | error e =>
          have hbytes : ReadEvent.bytes C x (.read F length) = [] := by
            simp only [ReadEvent.bytes, hread]
            rfl
          rw [hbytes]
          exact ⟨hlaw.thrown e hread, Or.inl rfl, rfl⟩
      | ok data =>
          have hbytes : ReadEvent.bytes C x (.read F length) = data := by
            simp only [ReadEvent.bytes, hread]
            rfl
          obtain ⟨hdata, hpos, hle⟩ := hlaw.returned data hread
          rw [hbytes]
          refine ⟨hpos, Or.inr (hx.size_eq ▸ hle), ?_⟩
          have hlength : data.length = min length (x.text.length - x.handle.pos) := by
            rw [hdata, length_slice]
          rw [hlength, slice_min_length, ← hdata]
  | seek pos => exact absurd rfl (hseek pos)
  | sync F newParms text =>
      have hpos : (x.next C (.sync F newParms text)).handle.pos = x.handle.pos := by
        rcases hsound with ⟨hleaves, hthrows⟩ | haccepts
        · rw [ReadSession.next_sync_of_leaves hleaves hthrows]
        · rw [haccepts.next_sync hx]
          rfl
      exact ⟨hpos, Or.inl rfl, rfl⟩
  | foreign server => exact ⟨rfl, Or.inl rfl, rfl⟩

/-- **A stretch of reading** returns, joined, one range of the text, and the cursor stands
behind it.  By induction on the run. -/
theorem ReadSession.contiguous {events : List ReadEvent} (hx : x.Tracked C)
    (hrun : Run (guarded (ReadEvent.Continues C) (ReadEvent.step C)) x events y) :
    x.text <+: y.text ∧ y.handle.pos = x.handle.pos + (x.returned C events).length ∧
      slice y.text x.handle.pos (x.returned C events).length = x.returned C events ∧
      (x.handle.pos ≤ x.text.length → y.handle.pos ≤ y.text.length) := by
  induction hrun with
  | nil x => exact ⟨List.prefix_rfl, rfl, rfl, id⟩
  | @cons x t y a events h _ ih =>
      obtain ⟨ha, hstep⟩ := h
      have hgrows := ha.2.2
      obtain ⟨hpos, hbound, hslice⟩ := ha.step hx
      obtain ⟨hbegin, hend, hrest, hle⟩ := ih (ReadSession.tracked_step hx ha.1.1 hstep)
      obtain ⟨-, rfl⟩ := hstep
      have hall := hgrows.trans hbegin
      have hfirst : slice y.text x.handle.pos (a.bytes C x).length = a.bytes C x := by
        rcases hbound with hnil | hbound
        · rw [hnil]
          rfl
        · rw [ slice_of_prefix hall hbound, hslice]
      refine ⟨hall, ?_, ?_, ?_⟩
      · rw [hend, hpos, ReadSession.returned, List.length_append, Nat.add_assoc]
      · rw [ReadSession.returned, List.length_append, ← slice_append_slice, hfirst, ← hpos, hrest]
      · intro hstart
        apply hle
        have hlength := hgrows.length_le
        rw [hpos]
        rcases hbound with hnil | hbound
        · rw [hnil, List.length_nil]
          omega
        · omega

end Cursor

/-! ## The two classes side by side -/

/-- A session of a read handle, and a `FileHandlerImpl` that reads the same file. -/
structure ReadPair where
  reader : ReadSession
  handler : FileHandlerImpl

/-- What a read of the handler returns. -/
def ReadPair.read (C : Primitives) (z : ReadPair) (F : Faults) (length : Nat) :
    Except StoreError Bytes :=
  (z.handler.read C (faultyBridge F) length z.reader.server).1

/-- The pair after both have made the same call. -/
def ReadPair.next (C : Primitives) (z : ReadPair) (a : ReadEvent) : ReadPair where
  reader := z.reader.next C a
  handler :=
    match a with
    | .read F length => (z.handler.read C (faultyBridge F) length z.reader.server).2.1
    | .seek pos => (z.handler.seekg pos).toOption.getD z.handler
    | .sync F newParms _ =>
        (z.handler.sync C (faultyBridge F) newParms.fileMeta newParms.fileDecryptionParams
          newParms.encKey z.reader.server).2.1
    | .foreign _ => z.handler

/-- One step of a pair. -/
def ReadEvent.pairStep (C : Primitives) (z : ReadPair) (a : ReadEvent) (z' : ReadPair) : Prop :=
  a.step C z.reader z'.reader ∧ z' = z.next C a

/-- Calls that both classes carry out alike.  `FileReadHandle::seek` refuses the end of the
file, and `FileHandler::sync` keeps its key and does not compare sizes. -/
def ReadEvent.Within (C : Primitives) (z : ReadPair) : ReadEvent → Prop
  | .read _ length => z.reader.handle.pos + length ≤ z.reader.handle.size
  | .seek pos => pos = z.reader.handle.size → z.reader.handle.pos = pos
  | .sync F newParms text =>
      newParms.fileDecryptionParams.encryptor = z.reader.handle.reader.chunkEncryptor ∧
        (z.reader.Refuses C F newParms.fileDecryptionParams ∨
          z.reader.Accepts C F newParms.fileDecryptionParams text)
  | .foreign _ => True

/-- Two handles at one position of one file, with readers that are alike. -/
structure FileReadHandle.Beside (h : FileReadHandle) (f : FileHandlerImpl) : Prop where
  alike : h.reader.Alike f.file.chunkReader
  version_eq : f.file.version = h.reader.version
  plainfileSize_eq : f.file.plainfileSize = h.fileReader.plainfileSize
  readPos_eq : f.readPos = h.pos

/-- The handle of the session describes some version, and the handler is beside it. -/
structure ReadPair.InStep (C : Primitives) (z : ReadPair) : Prop where
  tracked : z.reader.Tracked C
  beside : z.reader.handle.Beside z.handler

section Handler

variable {C : Primitives} {F : Faults} {h : FileHandler} {s : ServerFile}
  {d : FileDecryptionParams}

/-- A `sync` of the handler that is refused leaves it. -/
theorem FileHandler.sync_faulty_refused (fileMeta : FileMeta) (fileEncKey : DecryptedEncKey)
    (hrefused : F.read h.chunkReader.chunkDataProvider.checksumRequest ≠ none ∨
      d.hmac ≠ C.hmacSha256 d.key s.checksum ∨ s.checksum.length % HMAC_SIZE ≠ 0) :
    (h.sync C (faultyBridge F) fileMeta d fileEncKey s).2.1 = h := by
  unfold FileHandler.sync
  dsimp only
  rw [ChunkDataProvider.getCurrentChecksums_faulty]
  cases hread : F.read h.chunkReader.chunkDataProvider.checksumRequest with
  | some e => rfl
  | none =>
      obtain ⟨e, herror⟩ := HmacList.sync_refused h.chunkReader.hashList
        (hrefused.resolve_left (not_not.mpr hread))
      dsimp only
      rw [herror]

/-- One that is not brings the tags of the server. -/
theorem FileHandler.sync_faulty_ok (fileMeta : FileMeta) (fileEncKey : DecryptedEncKey)
    (hread : F.read h.chunkReader.chunkDataProvider.checksumRequest = none)
    (hhmac : d.hmac = C.hmacSha256 d.key s.checksum)
    (hlength : s.checksum.length % HMAC_SIZE = 0) :
    (h.sync C (faultyBridge F) fileMeta d fileEncKey s).2.1 =
      h.synced C s.checksum fileMeta d fileEncKey := by
  unfold FileHandler.sync
  dsimp only
  rw [ChunkDataProvider.getCurrentChecksums_faulty, hread]
  simp only [HmacList.sync, HmacList.create_eq hhmac hlength]
  rfl

end Handler

section Beside

variable {C : Primitives} {h : FileReadHandle} {f : FileHandlerImpl} {B : Bridge ServerFile}
  {s : ServerFile}

/-- **Both return the same**, whatever the length and the server. -/
theorem FileReadHandle.Beside.read (hb : h.Beside f) (length : Nat) :
    ∃ result r r' s', h.read C B length s = (result, h.afterRead r length result, s') ∧
      f.read C B length s =
        (result, f.afterRead { f.file with chunkReader := r' } result, s') ∧ r.Alike r' := by
  obtain ⟨result, r, r', s', hcall, hcall', halike⟩ :=
    hb.alike.read (C := C) (B := B) h.fileReader.plainfileSize h.pos length s
  refine ⟨result, r, r', s', FileReadHandle.read_of_call hcall, ?_, halike⟩
  rw [← hb.plainfileSize_eq, ← hb.readPos_eq] at hcall'
  apply FileHandlerImpl.read_of_call
  unfold FileHandler.read
  rw [hcall']

/-- After a read that returned as many bytes as it was asked for, or none. -/
theorem FileReadHandle.Beside.afterRead (hb : h.Beside f) {r r' : ChunkReader} {length : Nat}
    {result : Except StoreError Bytes} (halike : r.Alike r')
    (hversion : r.version = h.reader.version)
    (hlength : ∀ data, result = .ok data → data.length = length) :
    (h.afterRead r length result).Beside
      (f.afterRead { f.file with chunkReader := r' } result) := by
  cases result with
  | error e => exact ⟨halike, hb.version_eq.trans hversion.symm, hb.plainfileSize_eq, hb.readPos_eq⟩
  | ok data =>
      refine ⟨halike, hb.version_eq.trans hversion.symm, hb.plainfileSize_eq, ?_⟩
      have hpos : (f.afterRead { f.file with chunkReader := r' } (.ok data)).readPos =
          u64 (f.readPos + data.length) := rfl
      rw [hpos, hlength data rfl, hb.readPos_eq]
      rfl

/-- After a seek; the end itself is refused by the one only. -/
theorem FileReadHandle.Beside.seek (hb : h.Beside f) (hsize : h.size = h.fileReader.plainfileSize)
    {pos : Nat} (hend : pos = h.size → h.pos = pos) :
    ((h.seek pos).toOption.getD h).Beside ((f.seekg pos).toOption.getD f) := by
  have hfile : f.file.getFileSize = h.size := hb.plainfileSize_eq.trans hsize.symm
  unfold FileReadHandle.seek FileHandlerImpl.seekg
  rw [hfile]
  by_cases hlt : pos < h.size
  · rw [if_neg (Nat.not_le.mpr hlt), if_neg (Nat.not_lt.mpr hlt.le)]
    exact ⟨hb.alike, hb.version_eq, hb.plainfileSize_eq, rfl⟩
  · rw [if_pos (Nat.not_lt.mp hlt)]
    by_cases heq : pos = h.size
    · rw [if_neg (by omega)]
      exact ⟨hb.alike, hb.version_eq, hb.plainfileSize_eq, (hend heq).symm⟩
    · rw [if_pos (by omega)]
      exact hb

/-- After a `sync` that both accept. -/
theorem FileReadHandle.Beside.synced (hb : h.Beside f) (checksum : Bytes)
    {d : FileDecryptionParams} (hle : h.reader.version ≤ d.version)
    (hkey : d.encryptor = h.reader.chunkEncryptor) (fileMeta : FileMeta)
    (fileEncKey : DecryptedEncKey) :
    (h.synced C checksum d).Beside
      { f with file := f.file.synced C checksum fileMeta d fileEncKey } := by
  refine ⟨⟨?_, ?_, rfl, rfl, rfl⟩, rfl, rfl, hb.readPos_eq⟩
  · have hproviders := hb.alike.chunkDataProvider.sync hle d.sizeOnServer f.file.encryptedFileSize
    rw [← hb.version_eq] at hproviders
    exact hproviders
  · exact hb.alike.chunkEncryptor_eq.trans hkey.symm

end Beside

section Pairs

variable {C : Primitives} {z z' : ReadPair}

/-- Calls that both carry out alike are sound for the read handle. -/
theorem ReadEvent.Within.sound {a : ReadEvent} (ha : a.Within C z) (hx : z.reader.Tracked C) :
    a.Sound C z.reader := by
  obtain ⟨n, file, checksum, hx⟩ := hx
  cases a with
  | read F length =>
      have hin : z.reader.handle.pos + length ≤ z.reader.handle.size := ha
      have hsize := hx.size_eq
      have hlt := hx.size_lt
      show z.reader.handle.pos + length < 2 ^ 64
      omega
  | seek pos => exact trivial
  | sync F newParms text =>
      obtain ⟨hkey, hrefuses | haccepts⟩ := ha
      · exact Or.inl ⟨Or.inr hkey, Or.inr hrefuses⟩
      · exact Or.inr haccepts
  | foreign server => exact trivial

/-- **A `sync`** of both. -/
theorem ReadPair.InStep.next_sync (hz : z.InStep C) {F : Faults} {newParms : FileEncryptionParams}
    {text : Bytes} (ha : (ReadEvent.sync F newParms text).Within C z) :
    (z.next C (.sync F newParms text)).reader.handle.Beside
      (z.next C (.sync F newParms text)).handler := by
  obtain ⟨hkey, ha⟩ := ha
  obtain ⟨n, file, checksum, hx⟩ := hz.tracked
  have hrequest : z.handler.file.chunkReader.chunkDataProvider.checksumRequest =
      z.reader.handle.reader.chunkDataProvider.checksumRequest := by
    unfold ChunkDataProvider.checksumRequest
    rw [hz.beside.alike.chunkDataProvider.fileId_eq]
  have hhandler : (z.next C (.sync F newParms text)).handler =
      { z.handler with
        file := (z.handler.file.sync C (faultyBridge F) newParms.fileMeta
          newParms.fileDecryptionParams newParms.encKey z.reader.server).2.1 } := rfl
  have hreader : (z.next C (.sync F newParms text)).reader =
      z.reader.next C (.sync F newParms text) := rfl
  rw [hhandler, hreader]
  rcases ha with hrefuses | haccepts
  · rw [ReadSession.next_sync_of_leaves (Or.inr hkey) (Or.inr hrefuses)]
    unfold ReadSession.Refuses at hrefuses
    rw [← hrequest] at hrefuses
    rw [FileHandler.sync_faulty_refused _ _ hrefuses]
    exact hz.beside
  · have hread := haccepts.answered
    rw [← hrequest] at hread
    have hversion : newParms.fileDecryptionParams.version = z.reader.server.version :=
      haccepts.stored.version_eq
    rw [haccepts.next_sync hx, FileHandler.sync_faulty_ok _ _ hread haccepts.stored.hmac_eq
      haccepts.stored.checksum_mod]
    exact hz.beside.synced _ (hversion ▸ hx.version_le) hkey _ _

/-- **Step.**  The two classes stay in step. -/
theorem ReadPair.inStep_step {a : ReadEvent} (hz : z.InStep C) (ha : a.Within C z)
    (hstep : a.pairStep C z z') : z'.InStep C := by
  refine ⟨ReadSession.tracked_step hz.tracked (ha.sound hz.tracked) hstep.1, ?_⟩
  obtain ⟨-, rfl⟩ := hstep
  obtain ⟨n, file, checksum, hx⟩ := hz.tracked
  have hsize := hx.size_eq
  cases a with
  | read F length =>
      have hin : z.reader.handle.pos + length ≤ z.reader.handle.size := ha
      have hlt := hx.size_lt
      obtain ⟨result, r, r', s', hcall, hcall', halike⟩ := hz.beside.read (C := C)
        (B := faultyBridge F) (s := z.reader.server) length
      obtain ⟨result₁, r₁, hcall₁, hdata, hsame, -⟩ := hx.read F
        (show z.reader.handle.pos + length < 2 ^ 64 by omega)
      obtain ⟨rfl, hhandle, -⟩ := by simpa using hcall.symm.trans hcall₁
      have hreader := congrArg FileReadHandle.reader hhandle
      rw [FileReadHandle.afterRead_reader, FileReadHandle.afterRead_reader] at hreader
      have hlength : ∀ data, result = .ok data → data.length = length := by
        intro data hok
        rw [hdata data hok, length_slice]
        omega
      have hbeside := hz.beside.afterRead halike (hreader ▸ hsame.version_eq) hlength
      simp only [ReadPair.next, ReadSession.next, hcall, hcall']
      exact hbeside
  | seek pos => exact hz.beside.seek (hsize.trans hx.plainfileSize_eq.symm) ha
  | sync F newParms text => exact hz.next_sync ha
  | foreign server => exact hz.beside

/-- By induction on the run. -/
theorem ReadPair.inStep_run {events : List ReadEvent} (hz : z.InStep C)
    (hrun : Run (guarded (ReadEvent.Within C) (ReadEvent.pairStep C)) z events z') : z'.InStep C :=
  hrun.preserves (ReadPair.InStep C) (fun _ _ _ hz h => ReadPair.inStep_step hz h.1 h.2) hz

/-- In step, both are at one position, and read the same there. -/
theorem ReadPair.InStep.same (hz : z.InStep C) :
    z.handler.readPos = z.reader.handle.pos ∧
      ∀ F length, z.read C F length = z.reader.read C F length := by
  refine ⟨hz.beside.readPos_eq, ?_⟩
  intro F length
  obtain ⟨result, r, r', s', hcall, hcall', -⟩ := hz.beside.read (C := C)
    (B := faultyBridge F) (s := z.reader.server) length
  unfold ReadPair.read ReadSession.read
  rw [hcall, hcall']

/-- Both freshly opened. -/
theorem ReadPair.inStep_opened {p : FileEncryptionParams} {P : Bytes} {s : ServerFile} {win : Nat}
    {h : FileReadHandle} {f : FileHandlerImpl} {info : FileInfo}
    (hstored : StoredFile C p.fileDecryptionParams P s)
    (hwin : WindowSize p.fileDecryptionParams.chunkSize win) (hlen : s.file.length < 2 ^ 63)
    (hopen : FileReadHandle.create C versionedBridge p.fileDecryptionParams win s = (.ok h, s))
    (hopen' : FileReadWriteHandle.create C versionedBridge info p win s = (.ok f, s))
    (hx : ReadSession.Tracked C ⟨h, s, P⟩) : ReadPair.InStep C ⟨⟨h, s, P⟩, f⟩ := by
  refine ⟨hx, ?_⟩
  have hreader := (openChunkReader_ok honestReads_versionedBridge hstored hwin hlen).1
  have hcreate := (FileReadWriteHandle.create_ok honestReads_versionedBridge hstored hwin hlen
    info).1
  simp only [FileReadHandle.create, hreader, Prod.mk.injEq, Except.ok.injEq, and_true] at hopen
  simp only [hcreate, Prod.mk.injEq, Except.ok.injEq, and_true] at hopen'
  obtain rfl := hopen
  obtain rfl := hopen'
  exact ⟨.refl le_rfl, rfl, rfl, rfl⟩

end Pairs

/-- What a read handle is as a stream.  A read of what the file has obeys the law of the
cursor, and on the file of the server no other read does; at the end there is nothing to
read; and what a stretch of reads returns is one range of the text, also over calls of
`sync` that bring a longer text. -/
structure ReadSession.Stream (C : Primitives) (x : ReadSession) : Prop where
  cursorLaw : ∀ F length, x.handle.pos + length ≤ x.handle.size → x.CursorLaw C F length
  cursorLaw_iff : x.server.version = x.handle.reader.version → ∀ length, length < 2 ^ 64 →
    (x.CursorLaw C .none length ↔ x.handle.pos + length ≤ x.handle.size)
  atEnd : x.handle.size ≤ x.handle.pos → ∀ F length, x.read C F length = .ok []
  contiguous : ∀ events y, Run (guarded (ReadEvent.Continues C) (ReadEvent.step C)) x events y →
    slice y.text x.handle.pos (x.returned C events).length = x.returned C events ∧
      y.handle.pos = x.handle.pos + (x.returned C events).length ∧
      (x.handle.pos ≤ x.handle.size → y.handle.pos ≤ y.handle.size)

/-- A tracked session reads like a stream. -/
theorem ReadSession.Tracked.stream {C : Primitives} {x : ReadSession} (hx : x.Tracked C) :
    x.Stream C := by
  have htracked := hx
  obtain ⟨n, file, checksum, hx⟩ := hx
  refine ⟨fun F length hin => hx.cursorLaw F hin, ?_, hx.read_atEnd, ?_⟩
  · intro hv length hlength
    exact ⟨fun h => h.in_bounds hx hv hlength, fun hin => hx.cursorLaw .none hin⟩
  · intro events y hrun
    obtain ⟨-, hpos, hslice, hle⟩ := ReadSession.contiguous htracked hrun
    have hsound : Run (guarded (ReadEvent.Sound C) (ReadEvent.step C)) x events y :=
      hrun.refines id fun _ _ _ h => ⟨h.1.1.1, h.2⟩
    obtain ⟨n', file', checksum', hy⟩ := ReadSession.tracked_run htracked hsound
    refine ⟨hslice, hpos, ?_⟩
    rw [hx.size_eq, hy.size_eq]
    exact hle

/-- **The read cursor.**  A read handle that is opened on a stored file is a stream in every
state of every run whose reads ask for no more than the file has; and while its calls are
those that a `FileHandlerImpl` carries out alike, the two stay at one position and read the
same. -/
theorem FileReadHandle.read_cursor {C : Primitives} {p : FileEncryptionParams} {P : Bytes}
    {s : ServerFile} {win : Nat} {h : FileReadHandle}
    (hstored : StoredFile C p.fileDecryptionParams P s)
    (hwin : WindowSize p.fileDecryptionParams.chunkSize win) (hlen : s.file.length < 2 ^ 63)
    (hopen : FileReadHandle.create C versionedBridge p.fileDecryptionParams win s = (.ok h, s))
    (hreaches : h.reader.chunkDataProvider.Reaches p.fileDecryptionParams.chunkSize P.length) :
    (∀ events y, Run (guarded (ReadEvent.InBounds C) (ReadEvent.step C)) ⟨h, s, P⟩ events y →
        y.Stream C) ∧
      ∀ info f, FileReadWriteHandle.create C versionedBridge info p win s = (.ok f, s) →
        ∀ events z, Run (guarded (ReadEvent.Within C) (ReadEvent.pairStep C)) ⟨⟨h, s, P⟩, f⟩
          events z → z.handler.readPos = z.reader.handle.pos ∧
            ∀ F length, z.read C F length = z.reader.read C F length := by
  have hx := ReadSession.tracked_opened hstored hwin hlen hopen hreaches
  constructor
  · intro events y hrun
    exact (ReadSession.tracked_run hx (hrun.refines id fun _ _ _ h => ⟨h.1.1, h.2⟩)).stream
  · intro info f hopen' events z hrun
    exact (ReadPair.inStep_run (ReadPair.inStep_opened hstored hwin hlen hopen hopen' hx)
      hrun).same

/-! ### The sample file -/

/-- The read handle and the handler of the sample file, freshly opened. -/
def samplePair : ReadPair :=
  ⟨sampleReadSession, sampleSession.handle⟩

/-- Both have read four bytes and gone back to the third one. -/
def soughtPair : ReadPair :=
  (samplePair.next samplePrimitives (.read .none 4)).next samplePrimitives (.seek 2)

/-- A read handle that has read four of seven bytes is a stream, and in step with a handler
that has done the same. -/
theorem FileReadHandle.read_cursor_sample :
    (∃ y, Run (guarded (ReadEvent.InBounds samplePrimitives) (ReadEvent.step samplePrimitives))
        sampleReadSession [.read .none 4] y ∧ y.Stream samplePrimitives ∧
          sampleReadSession.read samplePrimitives .none 4 = .ok [1, 2, 3, 4] ∧
            y.handle.pos = 4) ∧
      soughtPair.handler.readPos = soughtPair.reader.handle.pos ∧
        ∀ F length, soughtPair.read samplePrimitives F length =
          soughtPair.reader.read samplePrimitives F length := by
  obtain ⟨hstored, hwin, hlen, hopen'⟩ := sampleSession_opened
  have hopen : FileReadHandle.create samplePrimitives versionedBridge
      sampleParams.fileDecryptionParams 100 sampleFile =
        (.ok sampleReadSession.handle, sampleFile) := by
    rw [FileReadHandle.create, (openChunkReader_ok honestReads_versionedBridge hstored hwin hlen).1]
    rfl
  have h := FileReadHandle.read_cursor hstored hwin hlen hopen
    (sampleReadSession_reaches (by decide))
  have hstream : sampleReadSession.Stream samplePrimitives := h.1 [] _ (.nil _)
  have hlaw := hstream.cursorLaw .none 4 (by show 0 + 4 ≤ 7; omega)
  obtain ⟨data, hread⟩ := hlaw.answered rfl rfl
  obtain ⟨rfl, hpos, -⟩ := hlaw.returned data hread
  have hrun : Run (guarded (ReadEvent.InBounds samplePrimitives) (ReadEvent.step samplePrimitives))
      sampleReadSession [.read .none 4] (sampleReadSession.next samplePrimitives (.read .none 4)) := by
    refine .cons ⟨⟨?_, ?_⟩, (fun _ h => by cases h), rfl⟩ (.nil _)
    · show 0 + 4 < 2 ^ 64
      omega
    · rintro F length heq
      cases heq
      show 0 + 4 ≤ 7
      omega
  refine ⟨⟨_, hrun, h.1 _ _ hrun, hread, hpos⟩,
    h.2 _ _ hopen' [.read .none 4, .seek 2] soughtPair ?_⟩
  refine .cons ⟨?_, ⟨?_, rfl⟩, rfl⟩ (.cons ⟨?_, ⟨?_, rfl⟩, rfl⟩ (.nil _))
  · show 0 + 4 ≤ 7
    omega
  · exact fun _ h => by cases h
  · intro hend
    exact absurd hend (by decide +kernel)
  · exact fun _ h => by cases h

/-- The sample file grown by two bytes. -/
def grownFile : ServerFile :=
  encodedServer samplePrimitives { key := sampleKey, chunkSize := 4 } (fun _ => sampleIv)
    [1, 2, 3, 4, 5, 6, 7, 8, 9] 4

@[inherit_doc grownFile]
def grownParams : FileEncryptionParams :=
  encodedEncryption samplePrimitives { key := sampleKey, chunkSize := 4 } (fun _ => sampleIv)
    [1, 2, 3, 4, 5, 6, 7, 8, 9] 4

/-- Both have been asked for ten of seven bytes. -/
def overreadPair : ReadPair :=
  samplePair.next samplePrimitives (.read .none 10)

/-- Then the file has grown, and both have been synchronized. -/
def grownPair : ReadPair :=
  (overreadPair.next samplePrimitives (.foreign grownFile)).next samplePrimitives
    (.sync .none grownParams [1, 2, 3, 4, 5, 6, 7, 8, 9])

/-- Both have read the whole file, and then been asked for as many bytes as take the sum
to `2 ^ 64`. -/
def wrappedPair : ReadPair :=
  (samplePair.next samplePrimitives (.read .none 7)).next samplePrimitives
    (.read .none (2 ^ 64 - 7))

/-- Behind a read that asks for too much the cursor is outside of the file.  When the file
has grown, reading goes on behind the new bytes; and the cursor wraps. -/
theorem FileReadHandle.cursor_leaves_file :
    sampleReadSession.read samplePrimitives .none 10 = .ok [1, 2, 3, 4, 5, 6, 7] ∧
      overreadPair.reader.handle.pos = 10 ∧ overreadPair.handler.readPos = 7 ∧
      ¬ sampleReadSession.CursorLaw samplePrimitives .none 10 ∧
      grownPair.reader.handle.size = 9 ∧ grownPair.handler.file.getFileSize = 9 ∧
      grownPair.reader.read samplePrimitives .none 5 = .ok [] ∧
      grownPair.read samplePrimitives .none 5 = .ok [8, 9] ∧
      wrappedPair.reader.handle.pos = 0 ∧ wrappedPair.handler.readPos = 7 ∧
      wrappedPair.reader.read samplePrimitives .none 2 = .ok [1, 2] ∧
      wrappedPair.read samplePrimitives .none 2 = .ok [] := by
  have hread : sampleReadSession.read samplePrimitives .none 10 =
      .ok [1, 2, 3, 4, 5, 6, 7] := by decide +kernel
  have hpos : overreadPair.reader.handle.pos = 10 := by decide +kernel
  refine ⟨hread, hpos, by decide +kernel, ?_, by decide +kernel, by decide +kernel,
    by decide +kernel, by decide +kernel, by decide +kernel, by decide +kernel, by decide +kernel,
    by decide +kernel⟩
  intro hlaw
  obtain ⟨-, hmoved, -⟩ := hlaw.returned _ hread
  have hseven : overreadPair.reader.handle.pos = 7 := hmoved
  omega

end PrivmxEndpoint
