import PrivmxEndpoint.RandomAccess
import PrivmxEndpoint.ReadHandleSync

/-!
# Reading a file back

A freshly opened reader of a stored file, and what its reads return one after the other.
Every read of addressable chunks returns its range of the plain text.

A file with at most `2 ^ 32` chunks is read back as a whole exactly when none of its chunks
lies in the window with the initial number of the cache: such a chunk reads as empty, and
nothing decrypts to it.
-/

namespace PrivmxEndpoint

open Word Splice Blocks Runs

/-- A read at a position by a reader that goes on with its caches. -/
def FileReader.Reads (C : Primitives) (s : ServerFile) (f : FileReader) (range : Nat × Nat)
    (f' : FileReader) : Prop :=
  ∃ result, f.read C acknowledgingBridge range.1 range.2 s = (result, f', s)

/-- The last chunk of a read is addressable, and its end fits in 64 bits. -/
def FileReader.InRange (f : FileReader) (range : Nat × Nat) : Prop :=
  range.1 + range.2 < 2 ^ 64 ∧
    (range.1 < f.plainfileSize → 0 < range.2 →
      f.chunkReader.chunkDataProvider.Addressable
        (lastReadChunk f.chunkReader.chunkEncryptor.chunkSize f.plainfileSize range.1 range.2))

/-- The reader describes the file on the server, of which it has the version. -/
structure FileReader.Describes (C : Primitives) (f : FileReader) (P : Bytes) (n : Nat)
    (s : ServerFile) : Prop where
  plainfileSize_eq : f.plainfileSize = P.length
  version_eq : s.version = f.chunkReader.version
  reader : f.chunkReader.Describes C P n s.file s.checksum

/-- The reader returns every range of the text. -/
def FileReader.ReadsAll (C : Primitives) (f : FileReader) (P : Bytes) (s : ServerFile) : Prop :=
  ∀ offset size, offset + size < 2 ^ 64 →
    (f.read C acknowledgingBridge offset size s).1 = .ok (slice P offset size)

section Reading

variable {C : Primitives} {f g : FileReader} {P : Bytes} {n : Nat} {s : ServerFile}

/-- **Step.** -/
theorem FileReader.Describes.read (h : f.Describes C P n s) {offset size : Nat}
    (hin : f.InRange (offset, size)) :
    ∃ f', f.read C acknowledgingBridge offset size s = (.ok (slice P offset size), f', s) ∧
      f'.Describes C P n s := by
  obtain ⟨hsum, haddr⟩ := hin
  dsimp only at hsum haddr
  rw [h.plainfileSize_eq] at haddr
  obtain ⟨r, hsame, hr, hok | ⟨hne, -⟩⟩ := ChunkReader.read_spec honestReads_acknowledgingBridge
    h.reader hsum haddr (fun _ => rfl)
  · refine ⟨{ f with chunkReader := r }, ?_, h.plainfileSize_eq,
      h.version_eq.trans hsame.version_eq.symm, hr⟩
    unfold FileReader.read
    rw [h.plainfileSize_eq, hok]
  · exact absurd h.version_eq hne

/-- **Run.** -/
theorem FileReader.Describes.run {reads : List (Nat × Nat)} (h : f.Describes C P n s)
    (hrun : Run (guarded FileReader.InRange (FileReader.Reads C s)) f reads g) :
    g.Describes C P n s := by
  refine hrun.preserves (FileReader.Describes C · P n s) ?_ h
  rintro f ⟨offset, size⟩ f' hf ⟨hin, result, hread⟩
  obtain ⟨f'', hok, hf''⟩ := hf.read hin
  obtain rfl : f'' = f' := (Prod.mk.inj (Prod.mk.inj (hok.symm.trans hread)).2).1
  exact hf''

/-! ## The initial window number -/

/-- An empty chunk is not decrypted under a tag of the list. -/
theorem ChunkReader.Describes.decryptWithHash_empty {r : ChunkReader} {file checksum : Bytes}
    (h : r.Describes C P n file checksum) {i : Nat} (hi : i < n) (plain : Bytes) :
    r.decryptWithHash C i [] ≠ .ok plain := by
  have hsize := h.size_eq
  have hlength := h.hashList.length_eq
  have hget : r.hashList.getHash i = _ := HmacList.getHash_eq hlength (by omega)
  obtain ⟨ivs, -, htag⟩ := h.encoded.slice_file i
  rw [if_pos hi] at htag
  have hnonempty : (encChunk C r.chunkEncryptor P ivs i).hmac ≠ [] := by
    rw [← List.length_pos_iff, length_encChunk_hmac]
    decide
  rw [ChunkReader.decryptWithHash, hget, h.hashes_eq, htag]
  dsimp only
  unfold ChunkEncryptor.decrypt
  rw [List.take_nil, if_pos hnonempty]
  exact fun hok => by cases hok

/-- A fresh reader fails on a chunk in the window with the initial number. -/
theorem ChunkReader.Describes.read_initial {r : ChunkReader} {B : Bridge ServerFile}
    {file checksum : Bytes} (h : r.Describes C P n file checksum)
    (hversion : r.chunkDataProvider.fileVersion = r.version) (hlast : r.lastChunk = none)
    (hnumber : r.chunkDataProvider.lastServerChunkNumber = some initialServerChunkNumber)
    (hempty : r.chunkDataProvider.lastServerChunk = []) {i : Nat} (hi : i < n)
    (hindex : i < 2 ^ 32) (hstart : i * r.chunkDataProvider.encryptedChunkSize < 2 ^ 64)
    (hwindow : r.chunkDataProvider.window i = initialServerChunkNumber)
    (hpos : i * r.chunkEncryptor.chunkSize < P.length)
    (hsum : i * r.chunkEncryptor.chunkSize + 1 < 2 ^ 64) (bytes : Bytes) :
    (r.read C B P.length (i * r.chunkEncryptor.chunkSize) 1 s).1 ≠ .ok bytes := by
  have hget : r.chunkDataProvider.getChunk B (u32 i) r.version s =
      (.ok [], r.chunkDataProvider, s) := by
    rw [← hversion, u32_of_lt hindex]
    apply ChunkDataProvider.getChunk_initial hnumber hempty h.shaped.window_pos.ne'
    rw [Nat.mul_comm, u64_of_lt hstart]
    exact hwindow
  have hfetch : ∀ data, (r.getDecryptedChunk C B i s).1 ≠ .ok data := by
    intro data
    rw [ChunkReader.getDecryptedChunk, hlast]
    simp only [ChunkReader.fetchChunk, hget]
    have hdecrypt := h.decryptWithHash_empty hi
    cases hplain : r.decryptWithHash C i [] with
    | error e => exact fun hok => by cases hok
    | ok plain => exact absurd hplain (hdecrypt plain)
  rw [ChunkReader.read_byte hsum hpos, Nat.mul_div_cancel _ h.chunkSize_pos]
  cases hchunk : (r.getDecryptedChunk C B i s).1 with
  | error e => exact fun hok => by cases hok
  | ok data => exact absurd hchunk (hfetch data)

/-- The windows of a fresh reader are a chunk longer than asked for at most. -/
theorem ChunkDataProvider.serverChunkSize_create_lt {ecs win : Nat} (hecs : 0 < ecs)
    (hwin : 0 < win) (hsum : win + ecs ≤ 2 ^ 62) (fileId : String) (size : Nat) (v : Int) :
    (create ecs win fileId size v).serverChunkSize < win + ecs := by
  have hle : (win + ecs - 1) / ecs * ecs ≤ win + ecs - 1 := Nat.div_mul_le_self _ _
  rw [ChunkDataProvider.serverChunkSize_create hwin hsum]
  omega

variable {d : FileDecryptionParams} {win : Nat}

/-- The reader of a handle that has just been opened. -/
def openedFileReader (d : FileDecryptionParams) (win : Nat) (C : Primitives) (checksum : Bytes) :
    FileReader :=
  FileReader.create (openedReader d win C checksum) d

/-- Opening a read handle of a stored file. -/
theorem FileReadHandle.create_ok (h : StoredFile C d P s) (hwin : WindowSize d.chunkSize win)
    (hlen : s.file.length < 2 ^ 63) :
    FileReadHandle.create C acknowledgingBridge d win s =
        (.ok { fileReader := openedFileReader d win C s.checksum
               size := d.originalSize
               pos := 0 }, s) ∧
      (openedFileReader d win C s.checksum).Describes C P (chunksFor d.chunkSize P.length) s := by
  obtain ⟨hopen, hd⟩ := openChunkReader_ok honestReads_acknowledgingBridge h hwin hlen
  refine ⟨?_, h.originalSize_eq, h.version_eq.symm, hd⟩
  unfold FileReadHandle.create
  rw [hopen]
  rfl

theorem StoredFile.chunk_lt (h : StoredFile C d P s) {i : Nat} (hi : i * d.chunkSize < P.length) :
    i < chunksFor d.chunkSize P.length :=
  Nat.lt_of_mul_lt_mul_right (lt_of_lt_of_le hi (chunksFor_mul_ge h.chunkSize_pos))

/-- A chunk of a stored file that the code cannot address lies in the window with the
initial number, if the index fits. -/
theorem StoredFile.addressable_or (h : StoredFile C d P s) (hwin : WindowSize d.chunkSize win)
    (hlen : s.file.length + (win + encLen d.chunkSize) ≤ 2 ^ 63) {i : Nat}
    (hi : i < chunksFor d.chunkSize P.length) (hindex : i < 2 ^ 32) :
    i * encLen d.chunkSize ≤ s.file.length ∧
      ((openedReader d win C s.checksum).chunkDataProvider.Addressable i ∨
        (openedReader d win C s.checksum).chunkDataProvider.window i =
          initialServerChunkNumber) := by
  have hsum := hwin.sum_le
  have hpos := hwin.pos
  obtain ⟨-, hd⟩ := openChunkReader_ok honestReads_acknowledgingBridge h hwin (by omega)
  generalize hp : (openedReader d win C s.checksum).chunkDataProvider = p
  have hecs : p.encryptedChunkSize = encLen d.chunkSize := by
    rw [← hp]
    exact hd.encryptedChunkSize_eq
  have hshaped : p.Shaped := hp ▸ hd.shaped
  have hbound : p.serverChunkSize < win + encLen d.chunkSize := by
    have hcreate : p = ChunkDataProvider.create p.encryptedChunkSize win d.fileId d.sizeOnServer
        d.version := by
      rw [← hp]
      rfl
    rw [hcreate, hecs]
    exact ChunkDataProvider.serverChunkSize_create_lt (encLen_pos _) hwin.pos hsum _ _ _
  have hstart : i * encLen d.chunkSize ≤ s.file.length := by
    have hlength := h.encoded.length_file (by omega)
    have hmul : i * encLen d.chunkSize ≤
        (chunksFor d.chunkSize P.length - 1) * encLen d.chunkSize :=
      Nat.mul_le_mul_right _ (by omega)
    rw [hlength]
    exact le_trans hmul (Nat.le_add_right _ _)
  refine ⟨hstart, ?_⟩
  have hwindow : p.window i ≤ i := by
    have hle := Nat.le_of_dvd hshaped.window_pos hshaped.dvd
    apply Nat.div_le_of_le_mul
    rw [Nat.mul_comm p.serverChunkSize]
    exact Nat.mul_le_mul_left _ hle
  have hend : p.serverChunkSize * (p.window i + 1) < 2 ^ 63 := by
    have hle := Nat.div_mul_le_self (i * p.encryptedChunkSize) p.serverChunkSize
    rw [hecs] at hle
    rw [Nat.mul_succ, Nat.mul_comm, ChunkDataProvider.window, hecs]
    omega
  rcases Nat.lt_or_ge (p.window i) initialServerChunkNumber with hlt | hge
  · exact Or.inl ⟨hindex, hlt, hend⟩
  · refine Or.inr (le_antisymm ?_ hge)
    unfold initialServerChunkNumber
    omega

/-- The first byte of such a chunk is not read. -/
theorem StoredFile.read_initial (h : StoredFile C d P s) (hwin : WindowSize d.chunkSize win)
    (hlen : s.file.length + (win + encLen d.chunkSize) ≤ 2 ^ 63) {i : Nat}
    (hi : i * d.chunkSize < P.length) (hindex : i < 2 ^ 32)
    (hwindow : (openedReader d win C s.checksum).chunkDataProvider.window i =
      initialServerChunkNumber) (bytes : Bytes) :
    ((openedFileReader d win C s.checksum).read C acknowledgingBridge (i * d.chunkSize) 1 s).1 ≠
      .ok bytes := by
  have hpos := hwin.pos
  have hplain := h.encoded.length_plain_le
  obtain ⟨-, hd⟩ := FileReadHandle.create_ok h hwin (by omega)
  have hchunk := h.chunk_lt hi
  obtain ⟨hstart, -⟩ := h.addressable_or hwin hlen hchunk hindex
  have hecs : (openedReader d win C s.checksum).chunkDataProvider.encryptedChunkSize =
      encLen d.chunkSize := hd.reader.encryptedChunkSize_eq
  rw [← hecs] at hstart
  have hbyte : i * d.chunkSize + 1 < 2 ^ 64 := by omega
  unfold FileReader.read
  rw [hd.plainfileSize_eq]
  exact hd.reader.read_initial rfl rfl rfl rfl hchunk hindex
    (lt_of_le_of_lt hstart (by omega)) hwindow hi hbyte bytes

/-- **Reading everything back**, with a reader that has just been opened. -/
theorem FileReader.readsAll_iff (h : StoredFile C d P s) (hwin : WindowSize d.chunkSize win)
    (hlen : s.file.length + (win + encLen d.chunkSize) ≤ 2 ^ 63)
    (hcount : chunksFor d.chunkSize P.length ≤ 2 ^ 32) :
    (openedFileReader d win C s.checksum).ReadsAll C P s ↔
      (openedReader d win C s.checksum).chunkDataProvider.Reaches d.chunkSize P.length := by
  have hpos := hwin.pos
  obtain ⟨-, hd⟩ := FileReadHandle.create_ok h hwin (by omega)
  have hplain := h.encoded.length_plain_le
  constructor
  · intro hreads i hi
    have hchunk := h.chunk_lt hi
    obtain ⟨-, haddr | hwindow⟩ := h.addressable_or hwin hlen hchunk (by omega)
    · exact haddr
    · have hbyte : i * d.chunkSize + 1 < 2 ^ 64 := by omega
      exact absurd (hreads (i * d.chunkSize) 1 hbyte)
        (h.read_initial hwin hlen hi (by omega) hwindow _)
  · intro hreaches offset size hsum
    have haddr : offset < P.length → 0 < size →
        (openedReader d win C s.checksum).chunkDataProvider.Addressable
          (lastReadChunk d.chunkSize P.length offset size) := by
      intro hoffset hsize
      apply hreaches
      have hle := Nat.div_mul_le_self (min (offset + size) P.length - 1) d.chunkSize
      unfold lastReadChunk
      omega
    have hin : (openedFileReader d win C s.checksum).InRange (offset, size) := by
      refine ⟨hsum, ?_⟩
      rw [hd.plainfileSize_eq]
      exact haddr
    obtain ⟨f', hok, -⟩ := hd.read hin
    rw [hok]

end Reading

end PrivmxEndpoint
