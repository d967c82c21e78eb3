import PrivmxEndpoint.GuardedRuns
import PrivmxEndpoint.OpenedFile

/-!
# Random access refines a byte array

The handle and the server together are compared with a plain array of bytes.
The server of this module keeps its promise by definition: after a write it
holds the old chunks with the updated ones replaced, cut behind the last one
if the write truncates.  Reads and writes then behave like those of the array
for as long as every chunk they touch is addressable.

The last result of the module shows why the condition is there.  The window
cache starts with the number `2 ^ 32 - 1` and no data, so the chunks of that
window look as if they did not exist.
-/

namespace PrivmxEndpoint

open Word Splice Blocks Runs

/-- A server that answers reads and acknowledges writes. -/
def acknowledgingBridge : Bridge ServerFile where
  storeFileRead := ServerFile.storeFileRead
  storeFileWrite _ s := (.ok (), s)

theorem honestReads_acknowledgingBridge : HonestReads acknowledgingBridge := rfl

/-- The stored file with updated chunks and tags replaced at their places and,
if asked to, cut behind the last of them. -/
def ServerFile.replaceChunks (s : ServerFile) (encryptedChunkSize : Nat)
    (us : List UpdateChunkData) (truncate : Bool) : ServerFile :=
  { s with
    file := writeAll s.file truncate
      (us.map fun u => (u.chunkIndex * encryptedChunkSize, u.chunk.data))
    checksum := writeAll s.checksum truncate
      (us.map fun u => (u.chunkIndex * HMAC_SIZE, u.chunk.hmac))
    version := s.version + 1 }

/-- A handle and the server it talks to. -/
structure World where
  handle : FileHandler
  server : ServerFile

/-- A call on the handle. -/
inductive Access
  | write (c : WriteCall)
  | read (offset size : Nat)

/-- A successful call with a server that stores what a write intends. -/
def Access.step (C : Primitives) (x : World) : Access → World → Prop
  | .write c, y =>
      ∃ w h, x.handle.prepareWrite C acknowledgingBridge c.ivs c.encryptMeta c.offset c.data
            c.truncate x.server = (.ok w, h, x.server) ∧
        x.handle.write C acknowledgingBridge c.ivs c.encryptMeta c.offset c.data c.truncate
            x.server = (.ok (), y.handle, x.server) ∧
        y.server = x.server.replaceChunks x.handle.encryptedChunkSize w.chunksToUpdate c.truncate
  | .read offset size, y =>
      y.server = x.server ∧
        ∃ bytes, x.handle.read C acknowledgingBridge offset size x.server =
          (.ok bytes, y.handle, x.server)

/-- What a call does to the plain byte array. -/
def Access.apply (P : Bytes) : Access → Bytes
  | .write c => PlainFile.write P c.offset c.data c.truncate
  | .read _ _ => P

/-- The last chunk a call touches is addressable; positions fit in 64 bits. -/
def Access.InRange (x : World) : Access → Prop
  | .write c =>
      x.handle.chunkReader.chunkDataProvider.Addressable
        (c.lastChunk x.handle.chunkReader.chunkEncryptor.chunkSize)
  | .read offset size =>
      offset + size < 2 ^ 64 ∧
        (offset < x.handle.plainfileSize → 0 < size →
          x.handle.chunkReader.chunkDataProvider.Addressable
            (lastReadChunk x.handle.chunkReader.chunkEncryptor.chunkSize x.handle.plainfileSize
              offset size))

/-- The handle describes what the server holds, and this encodes `P`. -/
def World.Encodes (C : Primitives) (x : World) (P : Bytes) : Prop :=
  x.server.version = x.handle.version ∧
    ∃ n, x.handle.Describes C P n x.server.file x.server.checksum

section Steps

variable {C : Primitives} {B : Bridge ServerFile} {h : FileHandler} {s : ServerFile}
  {P file checksum : Bytes} {n : Nat}

/-- The file after the intended replacement of the chunks of a write. -/
theorem WriteCall.replaceChunks_eq (c : WriteCall) (hd : h.Describes C P n s.file s.checksum) :
    s.replaceChunks h.encryptedChunkSize (c.updates C h P s.file) c.truncate =
      { s with
        file := c.file C h.chunkReader.chunkEncryptor P s.file
        checksum := c.checksum C h.chunkReader.chunkEncryptor P s.checksum
        version := s.version + 1 } := by
  have hcs := hd.reader.chunkSize_pos
  obtain ⟨ivs, hfile, hsum⟩ := hd.reader.encoded.encoded
  have hdata := c.replaces_data hcs hd.reader.encoded ivs
  have hhmac := c.replaces_hmac hcs hd.reader.encoded ivs
  have h1 := hdata.start_length_le
  have h2 := hhmac.start_length_le
  rw [← hfile] at h1
  rw [← hsum] at h2
  have hw1 := writeAll_blocks c.truncate hdata.full hdata.pos h1
  have hw2 := writeAll_blocks c.truncate hhmac.full hhmac.pos h2
  unfold ServerFile.replaceChunks
  rw [WriteCall.updates, List.map_map, List.map_map, hd.encryptedChunkSize_eq]
  simp only [WriteCall.file, WriteCall.checksum, ← hw1, ← hw2]
  rfl

/-- A reader of the same file in the handle. -/
theorem FileHandler.Describes.withReader (hd : h.Describes C P n file checksum) {r : ChunkReader}
    (hsame : h.chunkReader.SameFile r) (hr : r.Describes C P n file checksum) :
    ({ h with chunkReader := r } : FileHandler).Describes C P n file checksum :=
  ⟨hr, hsame.version_eq.trans hd.version_eq, hd.plainfileSize_eq, hd.encryptedFileSize_eq,
    hsame.chunkEncryptor_eq ▸ hd.plainChunkSize_eq,
    hsame.chunkEncryptor_eq ▸ hd.encryptedChunkSize_eq, hd.size_lt⟩

/-- **A read through the handle**, whatever version the server has. -/
theorem FileHandler.read_spec (hB : HonestReads B) (hd : h.Describes C P n file checksum)
    (hfile : s.version = h.version → s.file = file) {offset size : Nat}
    (hsum : offset + size < 2 ^ 64)
    (haddr : offset < h.plainfileSize → 0 < size →
      h.chunkReader.chunkDataProvider.Addressable
        (lastReadChunk h.chunkReader.chunkEncryptor.chunkSize h.plainfileSize offset size)) :
    ∃ r, h.chunkReader.SameFile r ∧
      ({ h with chunkReader := r } : FileHandler).Describes C P n file checksum ∧
      (h.read C B offset size s = (.ok (slice P offset size), { h with chunkReader := r }, s) ∨
        s.version ≠ h.version ∧ h.read C B offset size s =
          (.error .fileVersionMismatch, { h with chunkReader := r }, s)) := by
  have hsize := hd.plainfileSize_eq
  rw [hsize] at haddr
  obtain ⟨r, hsame, hr, hcall⟩ := ChunkReader.read_spec hB hd.reader hsum haddr
    (fun hv => hfile (hv.trans hd.version_eq))
  refine ⟨r, hsame, hd.withReader hsame hr, ?_⟩
  rcases hcall with hok | ⟨hne, herr⟩
  · left
    simp only [FileHandler.read, hsize, hok]
  · right
    exact ⟨fun hv => hne (hv.trans hd.version_eq.symm), by
      simp only [FileHandler.read, hsize, herr]⟩

/-- A read through the handle of the current file. -/
theorem FileHandler.read_ok (hB : HonestReads B) (hd : h.Describes C P n s.file s.checksum)
    (hv : s.version = h.version) {offset size : Nat} (hsum : offset + size < 2 ^ 64)
    (haddr : offset < h.plainfileSize → 0 < size →
      h.chunkReader.chunkDataProvider.Addressable
        (lastReadChunk h.chunkReader.chunkEncryptor.chunkSize h.plainfileSize offset size)) :
    ∃ r, h.chunkReader.SameFile r ∧
      h.read C B offset size s = (.ok (slice P offset size), { h with chunkReader := r }, s) ∧
      ({ h with chunkReader := r } : FileHandler).Describes C P n s.file s.checksum := by
  obtain ⟨r, hsame, hr, hok | ⟨hne, -⟩⟩ := FileHandler.read_spec hB hd (fun _ => rfl) hsum haddr
  · exact ⟨r, hsame, hok, hr⟩
  · exact absurd hv hne

/-- A prepared write on the current file whose meta can be encrypted. -/
theorem FileHandler.prepareWrite_ok (hB : HonestReads B) (c : WriteCall)
    (hd : h.Describes C P n s.file s.checksum) (hv : s.version = h.version)
    (haddr : h.chunkReader.chunkDataProvider.Addressable
      (c.lastChunk h.chunkReader.chunkEncryptor.chunkSize)) :
    ∃ p, h.chunkReader.chunkDataProvider.SameShape p ∧ p.CacheMatches h.version s.file ∧
      p.Holds h.version (c.lastChunk h.chunkReader.chunkEncryptor.chunkSize) ∧
      h.prepareWrite C B c.ivs c.encryptMeta c.offset c.data c.truncate s =
        (match c.encryptMeta h.fileInfo (c.newFileMeta C h P s.checksum) h.fileEncKey with
          | .error e => .error e
          | .ok m => .ok (c.prepared C h P s.file s.checksum m),
          (h.withProvider p).withHashList (c.hashList C h P s.checksum n), s) := by
  obtain ⟨p, hshape, hcache, hcall⟩ :=
    FileHandler.prepareWrite_spec hB c hd haddr (fun _ => rfl)
  rcases hcall with ⟨hholds, hok⟩ | ⟨hne, -⟩
  · exact ⟨p, hshape, hcache, hholds, hok⟩
  · exact absurd hv hne

/-- The handle after a write that the server accepted. -/
theorem FileHandler.finishWrite_prepared (c : WriteCall) (hd : h.Describes C P n file checksum)
    (haddr : h.chunkReader.chunkDataProvider.Addressable
      (c.lastChunk h.chunkReader.chunkEncryptor.chunkSize)) {p : ChunkDataProvider}
    (hshape : h.chunkReader.chunkDataProvider.SameShape p) (hcache : p.CacheMatches h.version file)
    (hholds : p.Holds h.version (c.lastChunk h.chunkReader.chunkEncryptor.chunkSize))
    (m : EncryptedMeta) :
    (((h.withProvider p).withHashList (c.hashList C h P checksum n)).finishWrite
        (c.prepared C h P file checksum m) c.truncate).Describes C (c.plain P)
        (c.chunks h.chunkReader.chunkEncryptor.chunkSize P.length n)
        (c.file C h.chunkReader.chunkEncryptor P file)
        (c.checksum C h.chunkReader.chunkEncryptor P checksum) :=
  (FileHandler.finishWrite_describes c hd hshape hcache hholds haddr (c.sound_hashList hd) rfl
    hd.reader.topHashKey_eq rfl rfl rfl).1

/-- Acknowledged requests leave nothing to do. -/
theorem sendAll_acknowledging (reqs : List StoreFileWriteModelByOperations) (s : ServerFile) :
    sendAll acknowledgingBridge reqs s = (.ok (), s) := by
  induction reqs with
  | nil => rfl
  | cons req reqs ih => simpa [sendAll, acknowledgingBridge] using ih

/-- A write whose requests were all accepted. -/
theorem FileHandler.write_of_sent {c : WriteCall} {w : PreparedWrite} {h' : FileHandler}
    {s' : ServerFile}
    (hprep : h.prepareWrite C B c.ivs c.encryptMeta c.offset c.data c.truncate s = (.ok w, h', s))
    (hsend : sendAll B (h'.writeRequests w.squashedChunksToUpdate w.newMeta h'.fileEncKey.id
      c.truncate) s = (.ok (), s')) :
    h.write C B c.ivs c.encryptMeta c.offset c.data c.truncate s =
      (.ok (), h'.finishWrite w c.truncate, s') := by
  simp only [FileHandler.write, hprep, hsend]

/-- **A write on the current file.**  Its meta can be encrypted; what it sends
and what it leaves behind does not depend on the state of the caches. -/
theorem FileHandler.write_current (hB : HonestReads B) (c : WriteCall)
    (hd : h.Describes C P n s.file s.checksum) (hv : s.version = h.version)
    (haddr : h.chunkReader.chunkDataProvider.Addressable
      (c.lastChunk h.chunkReader.chunkEncryptor.chunkSize)) {m : EncryptedMeta}
    (hm : c.encryptMeta h.fileInfo (c.newFileMeta C h P s.checksum) h.fileEncKey = .ok m) :
    ∃ h₁ h', h.prepareWrite C B c.ivs c.encryptMeta c.offset c.data c.truncate s =
        (.ok (c.prepared C h P s.file s.checksum m), h₁, s) ∧
      h.Rewritten h' (c.newFileMeta C h P s.checksum) ∧
      h'.Describes C (c.plain P)
        (c.chunks h.chunkReader.chunkEncryptor.chunkSize P.length n)
        (c.file C h.chunkReader.chunkEncryptor P s.file)
        (c.checksum C h.chunkReader.chunkEncryptor P s.checksum) ∧
      ∀ s', sendAll B (h.writeRequests (h.createListOfUpdateChangesFromUpdateChunkData
          (c.updates C h P s.file)) m h.fileEncKey.id c.truncate) s = (.ok (), s') →
        h.write C B c.ivs c.encryptMeta c.offset c.data c.truncate s = (.ok (), h', s') := by
  obtain ⟨p, hshape, hcache, hholds, hok⟩ := FileHandler.prepareWrite_ok hB c hd hv haddr
  rw [hm] at hok
  have hnew := FileHandler.finishWrite_prepared c hd haddr hshape hcache hholds m
  have hnext := FileHandler.rewritten_finishWrite
    ((h.withProvider p).withHashList (c.hashList C h P s.checksum n))
    (c.prepared C h P s.file s.checksum m) c.truncate
  exact ⟨_, _, hok, ⟨hnext.version_eq, hnext.fileMeta_eq, hnext.fileInfo_eq, hnext.fileEncKey_eq,
    hnext.chunkEncryptor_eq⟩, hnew, fun s' hsend => FileHandler.write_of_sent hok hsend⟩

theorem FileHandler.write_acknowledging {c : WriteCall} {w : PreparedWrite} {h' : FileHandler}
    (hprep : h.prepareWrite C acknowledgingBridge c.ivs c.encryptMeta c.offset c.data c.truncate s =
      (.ok w, h', s)) :
    h.write C acknowledgingBridge c.ivs c.encryptMeta c.offset c.data c.truncate s =
      (.ok (), h'.finishWrite w c.truncate, s) :=
  FileHandler.write_of_sent hprep (sendAll_acknowledging _ _)

/-- A write takes an encoding of the array to one of the written array, and cuts the file
as before. -/
theorem World.encodes_write {x y : World} {c : WriteCall} (hx : x.Encodes C P)
    (hin : Access.InRange x (.write c)) (hstep : Access.step C x (.write c) y) :
    y.Encodes C (c.plain P) ∧
      x.handle.chunkReader.chunkDataProvider.SameShape y.handle.chunkReader.chunkDataProvider ∧
        y.handle.chunkReader.chunkEncryptor = x.handle.chunkReader.chunkEncryptor := by
  obtain ⟨hv, n, hd⟩ := hx
  obtain ⟨w, h₁, hprep, hwrite, hserver⟩ := hstep
  obtain ⟨p, hshape, hcache, hholds, hok⟩ :=
    FileHandler.prepareWrite_ok honestReads_acknowledgingBridge c hd hv hin
  cases hm : c.encryptMeta x.handle.fileInfo
      (c.newFileMeta C x.handle P x.server.checksum) x.handle.fileEncKey with
  | error e =>
      rw [hok, hm] at hprep
      exact absurd hprep (by simp)
  | ok m =>
      rw [hm] at hok
      simp only at hok
      obtain rfl : w = c.prepared C x.handle P x.server.file x.server.checksum m := by
        rw [hok] at hprep
        simpa using congrArg Prod.fst hprep.symm
      rw [FileHandler.write_acknowledging hok] at hwrite
      have hy := (Prod.mk.inj (Prod.mk.inj hwrite).2).1
      obtain ⟨hnew, hsame⟩ := FileHandler.finishWrite_describes c hd hshape hcache hholds hin
        (c.sound_hashList hd) rfl hd.reader.topHashKey_eq
        (w := c.prepared C x.handle P x.server.file x.server.checksum m) rfl rfl rfl
      have hnext := FileHandler.rewritten_finishWrite
        ((x.handle.withProvider p).withHashList (c.hashList C x.handle P x.server.checksum n))
        (c.prepared C x.handle P x.server.file x.server.checksum m) c.truncate
      rw [hy] at hnew hsame hnext
      have hstored : y.server = _ := hserver.trans (c.replaceChunks_eq hd)
      refine ⟨⟨?_, c.chunks x.handle.chunkReader.chunkEncryptor.chunkSize P.length n, ?_⟩,
        hsame, hnext.chunkEncryptor_eq⟩
      · rw [hstored, hnext.version_eq]
        exact congrArg (· + 1) hv
      · rw [hstored]
        exact hnew

/-- **Step.**  A call in range takes an encoding of the array to an encoding
of the array after the call. -/
theorem World.encodes_step {x y : World} {a : Access} (hx : x.Encodes C P) (hin : a.InRange x)
    (hstep : a.step C x y) : y.Encodes C (a.apply P) := by
  cases a with
  | read offset size =>
      obtain ⟨hv, n, hd⟩ := hx
      obtain ⟨hserver, bytes, hread⟩ := hstep
      obtain ⟨r, -, hok, hd'⟩ :=
        FileHandler.read_ok honestReads_acknowledgingBridge hd hv hin.1 hin.2
      rw [hok] at hread
      have hy : { x.handle with chunkReader := r } = y.handle :=
        (Prod.mk.inj (Prod.mk.inj hread).2).1
      rw [World.Encodes, hserver, ← hy]
      exact ⟨hv, n, hd'⟩
  | write c => exact (World.encodes_write hx hin hstep).1

end Steps

/-- A freshly opened handle is in line with the server. -/
theorem World.encodes_opened {C : Primitives} {B : Bridge ServerFile} (hB : HonestReads B)
    {P : Bytes} {s : ServerFile} {x : FileEncryptionParams} {info : FileInfo} {win : Nat}
    {f : FileHandlerImpl} (hstored : StoredFile C x.fileDecryptionParams P s)
    (hwin : WindowSize x.fileDecryptionParams.chunkSize win) (hlen : s.file.length < 2 ^ 63)
    (hopen : FileReadWriteHandle.create C B info x win s = (.ok f, s)) :
    World.Encodes C ⟨f.file, s⟩ P := by
  obtain ⟨hcreate, hd⟩ := FileReadWriteHandle.create_ok hB hstored hwin hlen info
  obtain rfl : openedHandle info x win C s.checksum = f := by
    rw [hcreate] at hopen
    simpa using hopen
  exact ⟨hstored.version_eq.symm, _, hd⟩

/-- **Random access refines a byte array.**  Take a handle opened on a stored
file and any run of successful calls each of which touches addressable chunks
only.  Then the reported size is the length of the array, every read in range
succeeds and returns the range of the array, and every write in range succeeds
if its meta can be encrypted. -/
theorem FileHandler.refines_plain_file {C : Primitives} {P : Bytes} {s : ServerFile}
    {x : FileEncryptionParams} {info : FileInfo} {win : Nat} {f : FileHandlerImpl}
    (hstored : StoredFile C x.fileDecryptionParams P s)
    (hwin : WindowSize x.fileDecryptionParams.chunkSize win) (hlen : s.file.length < 2 ^ 63)
    (hopen : FileReadWriteHandle.create C acknowledgingBridge info x win s = (.ok f, s))
    {calls : List Access} {y : World}
    (hrun : Run (guarded Access.InRange (Access.step C)) ⟨f.file, s⟩ calls y) :
    y.handle.getFileSize = (calls.foldl Access.apply P).length ∧
      (∀ offset size, Access.InRange y (.read offset size) →
        ∃ h, y.handle.read C acknowledgingBridge offset size y.server =
          (.ok (PlainFile.read (calls.foldl Access.apply P) offset size), h, y.server)) ∧
      ∀ c : WriteCall, Access.InRange y (.write c) →
        (∀ info fileMeta key, ∃ m, c.encryptMeta info fileMeta key = .ok m) →
          ∃ z, Access.step C y (.write c) z := by
  have hinit := World.encodes_opened honestReads_acknowledgingBridge hstored hwin hlen hopen
  obtain ⟨hv, n, hfinal⟩ := Run.simulates (World.Encodes C) Access.apply
    (fun _ _ _ _ hx hs => World.encodes_step hx hs.1 hs.2) hrun hinit
  refine ⟨hfinal.plainfileSize_eq, ?_, ?_⟩
  · intro offset size hin
    obtain ⟨r, -, hok, -⟩ :=
      FileHandler.read_ok honestReads_acknowledgingBridge hfinal hv hin.1 hin.2
    exact ⟨_, hok⟩
  · intro c hin hmeta
    obtain ⟨p, -, -, -, hok⟩ :=
      FileHandler.prepareWrite_ok honestReads_acknowledgingBridge c hfinal hv hin
    obtain ⟨m, hm⟩ := hmeta y.handle.fileInfo
      (c.newFileMeta C y.handle (calls.foldl Access.apply P) y.server.checksum)
      y.handle.fileEncKey
    rw [hm] at hok
    simp only at hok
    exact ⟨⟨_, _⟩, _, _, hok, FileHandler.write_acknowledging hok, rfl⟩

/-- The seven bytes `1, …, 7` in chunks of four bytes. -/
def sampleFile : ServerFile :=
  encodedServer samplePrimitives { key := sampleKey, chunkSize := 4 } (fun _ => sampleIv)
    [1, 2, 3, 4, 5, 6, 7] 3

@[inherit_doc sampleFile]
def sampleParams : FileEncryptionParams :=
  encodedEncryption samplePrimitives { key := sampleKey, chunkSize := 4 } (fun _ => sampleIv)
    [1, 2, 3, 4, 5, 6, 7] 3

/-- A write behind the end of the sample file. -/
def sampleWrite : WriteCall where
  ivs _ := sampleIv
  encryptMeta := sampleEncryptMeta
  offset := 9
  data := [8, 9]
  truncate := false

/-- The write moves the end, and what is read behind it are the old bytes, the zeros of the
gap and the new ones. -/
theorem FileHandler.refines_plain_file_sample :
    ∃ y, Run (guarded Access.InRange (Access.step samplePrimitives))
        ⟨(openedHandle sampleInfo sampleParams 100 samplePrimitives sampleFile.checksum).file,
          sampleFile⟩ [.write sampleWrite] y ∧
      y.handle.getFileSize = 11 ∧
      ∃ h, y.handle.read samplePrimitives acknowledgingBridge 5 6 y.server =
        (.ok [6, 7, 0, 0, 8, 9], h, y.server) := by
  have hstored : StoredFile samplePrimitives sampleParams.fileDecryptionParams _ sampleFile :=
    storedFile_encoded samplePrimitives (by decide) _ _ _
  have hwin : WindowSize sampleParams.fileDecryptionParams.chunkSize 100 :=
    ⟨by decide, by decide⟩
  have hlen : sampleFile.file.length < 2 ^ 63 :=
    lt_of_le_of_lt hstored.encoded.length_file_le (by decide)
  have hopen := (FileReadWriteHandle.create_ok honestReads_acknowledgingBridge hstored hwin hlen
    sampleInfo).1
  have hin : Access.InRange
      ⟨(openedHandle sampleInfo sampleParams 100 samplePrimitives sampleFile.checksum).file,
        sampleFile⟩ (.write sampleWrite) := ⟨by decide, by decide, by decide⟩
  obtain ⟨z, hstep⟩ := (FileHandler.refines_plain_file hstored hwin hlen hopen (.nil _)).2.2
    sampleWrite hin (fun _ _ _ => ⟨_, rfl⟩)
  have hrun : Run (guarded Access.InRange (Access.step samplePrimitives)) _ _ z :=
    .cons ⟨hin, hstep⟩ (.nil z)
  obtain ⟨hsize, hreads, -⟩ := FileHandler.refines_plain_file hstored hwin hlen hopen hrun
  have hz := World.encodes_write (World.encodes_opened honestReads_acknowledgingBridge hstored hwin
    hlen hopen) hin hstep
  have hlast : (openedHandle sampleInfo sampleParams 100 samplePrimitives
      sampleFile.checksum).file.chunkReader.chunkDataProvider.Addressable 2 :=
    ⟨by decide, by decide, by decide⟩
  refine ⟨z, hrun, hsize, hreads 5 6 ⟨by decide, fun _ _ => hz.2.1.addressable ?_⟩⟩
  rw [hz.2.2, show z.handle.plainfileSize = 11 from hsize]
  exact hlast

/-! ## The initial window number -/

/-- The chunks of the window with the initial number read as empty. -/
theorem ChunkDataProvider.getChunk_initial {σ : Type} {B : Bridge σ} {p : ChunkDataProvider}
    {i : Nat} {s : σ} (hnumber : p.lastServerChunkNumber = some initialServerChunkNumber)
    (hempty : p.lastServerChunk = []) (hS : p.serverChunkSize ≠ 0)
    (hwindow : u64 (p.encryptedChunkSize * i) / p.serverChunkSize = initialServerChunkNumber) :
    p.getChunk B i p.fileVersion s = (.ok [], p, s) := by
  have hfor : p.forVersion p.fileVersion = p := by simp [ChunkDataProvider.forVersion]
  simp only [ChunkDataProvider.getChunk, hfor, hS, if_false, hwindow, hnumber, if_true, hempty]
  simp [slice]

/-- A one-byte chunk that reads as empty is counted as new. -/
theorem FileHandler.prepareWrite_of_empty {C : Primitives} {B : Bridge ServerFile}
    {h : FileHandler} {s : ServerFile} (c : WriteCall) {b : UInt8}
    (hcs : h.chunkReader.chunkEncryptor.chunkSize = 1) (hpcs : h.plainChunkSize = 1)
    (hdata : c.data = [b]) (htruncate : c.truncate = false) (hoffset : c.offset < h.plainfileSize)
    (hsize : h.plainfileSize < 2 ^ 63) (hlist : c.offset < h.chunkReader.hashList.size)
    (hget : h.chunkReader.chunkDataProvider.getChunk B (u32 c.offset) h.version s =
      (.ok [], h.chunkReader.chunkDataProvider, s))
    (hmeta : ∀ info fileMeta key, ∃ m, c.encryptMeta info fileMeta key = .ok m) :
    ∃ w h', h.prepareWrite C B c.ivs c.encryptMeta c.offset c.data c.truncate s = (.ok w, h', s) ∧
      w.newPlainfileSize = h.plainfileSize + 1 := by
  have hself : h.withProvider h.chunkReader.chunkDataProvider = h := rfl
  have hnot : ¬ h.plainfileSize < c.offset := by omega
  have hu : u64 c.offset = c.offset := u64_of_lt (by omega)
  have hprev : h.chunkReader.decryptPrevious C c.offset [] = .ok [] := by
    simp [ChunkReader.decryptPrevious]
  have hsub : substr [b] 0 1 = .ok [b] := by
    rw [substr_of_le _ (Nat.zero_le _)]
    rfl
  have hchunk : h.createUpdateChunk C B c.offset 0 [b] false (c.ivs c.offset) s =
      (.ok (h.updateChunkData C c.offset [] [] [b] false (c.ivs c.offset)), h, s) := by
    simp [FileHandler.createUpdateChunk, hpcs, hget, hprev, hself, mergeChunk]
  have hchunks : FileHandler.createUpdateChunks C B c.ivs c.offset [b] c.offset c.offset false 1
      c.offset 0 h s =
      (.ok [h.updateChunkData C c.offset [] [] [b] false (c.ivs c.offset)], h, s) := by
    simp [FileHandler.createUpdateChunks, ChunkEncryptor.getPlainChunkSize, hcs, hpcs,
      Nat.mod_one, hsub, hchunk]
  have htag : (h.updateChunkData C c.offset [] [] [b] false (c.ivs c.offset)).chunk.hmac.length =
      HMAC_SIZE := ChunkEncryptor.length_encrypt_hmac _ _ _
  have hplus : addInt64 h.plainfileSize
      (h.updateChunkData C c.offset [] [] [b] false (c.ivs c.offset)).plainfileSizeChange =
      h.plainfileSize + 1 := by
    apply addInt64_eq (by omega)
    simp [FileHandler.updateChunkData, toInt64, u64]
  obtain ⟨l, hl⟩ : ∃ l, h.chunkReader.hashList.set c.offset
      (h.updateChunkData C c.offset [] [] [b] false (c.ivs c.offset)).chunk.hmac false = .ok l := by
    rw [HmacList.set, if_neg (by simpa using htag), if_pos hlist]
    exact ⟨_, rfl⟩
  have hset : setHashes false
      [h.updateChunkData C c.offset [] [] [b] false (c.ivs c.offset)] h.chunkReader.hashList =
      (.ok (), l) := by
    have hidx : (h.updateChunkData C c.offset [] [] [b] false (c.ivs c.offset)).chunkIndex =
        c.offset := rfl
    simp only [setHashes, hidx, hl]
  unfold FileHandler.prepareWrite
  simp only [hnot, if_false, hdata, htruncate, ChunkReader.filePosToFileChunkIndex,
    ChunkEncryptor.getPlainChunkSize, hcs, Nat.div_one, List.length_singleton, one_ne_zero,
    Nat.add_sub_cancel, hu, Nat.add_sub_cancel_left, hchunks, hset, List.map_cons, List.map_nil,
    List.foldl_cons, List.foldl_nil, hplus]
  split
  · rename_i e he
    obtain ⟨m, hm⟩ := hmeta _ _ _
    exact absurd (he.symm.trans hm) (by simp)
  · exact ⟨_, _, rfl, rfl⟩

/-- `2 ^ 32` zeros in chunks of one byte. -/
def hugeFile : ServerFile :=
  encodedServer samplePrimitives { key := sampleKey, chunkSize := 1 } (fun _ => sampleIv)
    (List.replicate (2 ^ 32) 0) 1

@[inherit_doc hugeFile]
def hugeParams : FileEncryptionParams :=
  encodedEncryption samplePrimitives { key := sampleKey, chunkSize := 1 } (fun _ => sampleIv)
    (List.replicate (2 ^ 32) 0) 1

/-- Overwriting the last byte of the huge file. -/
def hugeWrite : WriteCall where
  ivs _ := sampleIv
  encryptMeta := sampleEncryptMeta
  offset := 2 ^ 32 - 1
  data := [97]
  truncate := false

/-- Overwriting the last byte of a file of `2 ^ 32` one-byte chunks makes the
handle report one byte more than the array has. -/
theorem FileHandler.refinement_fails_at_initial_window :
    StoredFile samplePrimitives hugeParams.fileDecryptionParams (List.replicate (2 ^ 32) 0)
        hugeFile ∧
      FileReadWriteHandle.create samplePrimitives acknowledgingBridge sampleInfo hugeParams 64
        hugeFile = (.ok (openedHandle sampleInfo hugeParams 64 samplePrimitives
          hugeFile.checksum), hugeFile) ∧
      ∃ y, Run (Access.step samplePrimitives)
          ⟨(openedHandle sampleInfo hugeParams 64 samplePrimitives hugeFile.checksum).file,
            hugeFile⟩ [.write hugeWrite] y ∧
        y.handle.getFileSize = 2 ^ 32 + 1 ∧
        ([Access.write hugeWrite].foldl Access.apply (List.replicate (2 ^ 32) 0)).length =
          2 ^ 32 := by
  have hstored : StoredFile samplePrimitives hugeParams.fileDecryptionParams
      (List.replicate (2 ^ 32) 0) hugeFile :=
    storedFile_encoded samplePrimitives (by decide) _ _ _
  have hchunks : chunksFor hugeParams.fileDecryptionParams.chunkSize
      (List.replicate (2 ^ 32) (0 : UInt8)).length = 2 ^ 32 := by
    rw [List.length_replicate]
    decide
  have hlen : hugeFile.file.length < 2 ^ 63 := by
    refine lt_of_le_of_lt hstored.encoded.length_file_le ?_
    rw [hchunks]
    decide
  have hwin : WindowSize hugeParams.fileDecryptionParams.chunkSize 64 := ⟨by decide, by decide⟩
  obtain ⟨hopen, hd⟩ := FileReadWriteHandle.create_ok honestReads_acknowledgingBridge hstored
    hwin hlen sampleInfo
  rw [hchunks] at hd
  have hplain : (openedHandle sampleInfo hugeParams 64 samplePrimitives
      hugeFile.checksum).file.plainfileSize = 2 ^ 32 := by
    rw [hd.plainfileSize_eq, List.length_replicate]
  have hget := ChunkDataProvider.getChunk_initial (B := acknowledgingBridge) (s := hugeFile)
    (i := u32 hugeWrite.offset) (p := (openedHandle sampleInfo hugeParams 64 samplePrimitives
      hugeFile.checksum).file.chunkReader.chunkDataProvider) rfl rfl (by decide) (by decide)
  obtain ⟨w, h', hprep, hsize⟩ := FileHandler.prepareWrite_of_empty (C := samplePrimitives)
    hugeWrite rfl rfl rfl rfl (by rw [hplain]; decide) (by rw [hplain]; decide)
    (by rw [hd.reader.size_eq]; decide) hget (fun _ _ _ => ⟨_, rfl⟩)
  refine ⟨hstored, hopen, ⟨h'.finishWrite w false, _⟩, .cons ⟨w, h', hprep,
    FileHandler.write_acknowledging hprep, rfl⟩ (.nil _), ?_, ?_⟩
  · exact hsize.trans (by rw [hplain])
  · show (hugeWrite.plain (List.replicate (2 ^ 32) 0)).length = 2 ^ 32
    rw [WriteCall.length_plain, List.length_replicate]
    decide

end PrivmxEndpoint
