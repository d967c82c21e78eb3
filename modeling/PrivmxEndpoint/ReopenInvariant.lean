import PrivmxEndpoint.WriteOperations

/-!
# Files stay consistent for the next reader

A file is opened from its meta alone: the plain size, the key, the chunk size
and the top hash come from the meta, the blob size and the tag string from the
server.  After every successful write the four must fit together again.  They
do as long as the operations keep the tail of the file and the write leaves no
empty chunk behind its last byte (`WriteCall.LeavesEmptyChunk`): an empty
write at a chunk boundary appends a chunk that the size formula of the reader
does not know.
-/

namespace PrivmxEndpoint

open Word Splice Blocks Runs

/-- `StoreApiImpl::getFileDecryptionParams`, for a file with the given ids. -/
def getFileDecryptionParams (C : Primitives) (fileId resourceId : String) (file : ServerFile)
    (internalMeta : InternalStoreFileMeta) : FileDecryptionParams where
  fileId := fileId
  resourceId := resourceId
  sizeOnServer := file.file.length
  originalSize := ofInt64 internalMeta.size
  cipherType := internalMeta.cipherType
  chunkSize := ofInt64 internalMeta.chunkSize
  key := C.base64ToString internalMeta.key
  hmac := C.base64ToString internalMeta.hmac
  version := file.version

/-- An empty write at a chunk boundary at the end of the file, or with a cut. -/
def WriteCall.LeavesEmptyChunk (c : WriteCall) (cs size : Nat) : Prop :=
  c.data.length = 0 ∧ cs ∣ c.offset ∧ (c.truncate = true ∨ size ≤ c.offset)

/-- The state that a handle and the server have written back is consistent. -/
structure World.Consistent (C : Primitives) (x : World) : Prop where
  encryptedFileSize_eq : x.handle.encryptedFileSize =
    x.handle.chunkReader.chunkEncryptor.getEncryptedFileSize x.handle.plainfileSize
  size_eq : x.handle.chunkReader.hashList.size =
    chunksFor x.handle.plainChunkSize x.handle.plainfileSize
  decrypts_full : ∀ i, i + 1 < x.handle.chunkReader.hashList.size →
    ∃ chunk, x.handle.chunkReader.decryptWithHash C i
        (slice x.server.file (i * x.handle.encryptedChunkSize) x.handle.encryptedChunkSize) =
      .ok chunk ∧ chunk.length = x.handle.plainChunkSize
  topHash_eq : C.base64ToString x.handle.fileMeta.internalFileMeta.hmac =
    C.hmacSha256 x.handle.chunkReader.chunkEncryptor.key x.server.checksum
  reopens : ∀ fileId resourceId win, ∃ r,
    openChunkReader C applyingBridge (getFileDecryptionParams C fileId resourceId x.server
      x.handle.fileMeta.internalFileMeta) win x.server = (.ok r, x.server)

/-- A meta that belongs to an encryptor and a plain size. -/
structure InternalStoreFileMeta.Matches (C : Primitives) (m : InternalStoreFileMeta)
    (e : ChunkEncryptor) (size : Nat) (checksum : Bytes) : Prop where
  key_eq : C.base64ToString m.key = e.key
  chunkSize_eq : ofInt64 m.chunkSize = e.chunkSize
  size_eq : ofInt64 m.size = size
  hmac_eq : C.base64ToString m.hmac = C.hmacSha256 e.key checksum

/-- The handle, its meta and the server agree on a plain text in the smallest
number of chunks. -/
structure World.Settled (C : Primitives) (x : World) (P : Bytes) : Prop where
  version_eq : x.server.version = x.handle.version
  describes : x.handle.Describes C P
    (chunksFor x.handle.chunkReader.chunkEncryptor.chunkSize P.length) x.server.file
    x.server.checksum
  fileMeta : x.handle.fileMeta.internalFileMeta.Matches C x.handle.chunkReader.chunkEncryptor
    P.length x.server.checksum
  chunkSize_le : encLen x.handle.chunkReader.chunkEncryptor.chunkSize ≤ 2 ^ 62

theorem World.Settled.encodes {C : Primitives} {x : World} {P : Bytes} (h : x.Settled C P) :
    x.Encodes C P :=
  ⟨h.version_eq, _, h.describes⟩

/-- Reproducible, and no empty chunk is left behind. -/
def Access.Settling (x : World) (a : Access) : Prop :=
  a.Reproducible x ∧
    match a with
    | .write c => ¬ c.LeavesEmptyChunk x.handle.plainChunkSize x.handle.plainfileSize
    | .read _ _ => True

theorem chunksFor_mono {cs len len' : Nat} (h : len ≤ len') :
    chunksFor cs len ≤ chunksFor cs len' :=
  Nat.div_le_div_right (by omega)

theorem chunksFor_max (cs len len' : Nat) :
    chunksFor cs (max len len') = max (chunksFor cs len) (chunksFor cs len') := by
  rcases le_total len len' with h | h
  · rw [Nat.max_eq_right h, Nat.max_eq_right (chunksFor_mono h)]
  · rw [Nat.max_eq_left h, Nat.max_eq_left (chunksFor_mono h)]

/-- The number of chunks up to the last chunk of a write is the one its end
needs, except for an empty write at a chunk boundary. -/
theorem WriteCall.lastChunk_succ (c : WriteCall) {cs : Nat} (hcs : 0 < cs)
    (h : c.data.length ≠ 0 ∨ ¬ cs ∣ c.offset) :
    c.lastChunk cs + 1 = chunksFor cs (c.offset + c.data.length) := by
  unfold WriteCall.lastChunk chunksFor
  by_cases hd : c.data.length = 0
  · have hmod : c.offset % cs ≠ 0 := fun h0 => (h.resolve_left (by simpa using hd))
      (Nat.dvd_of_mod_eq_zero h0)
    have hdm := Nat.div_add_mod c.offset cs
    have hlt := Nat.mod_lt c.offset hcs
    have hnum : c.offset + cs - 1 = c.offset % cs - 1 + cs * (c.offset / cs + 1) := by
      rw [Nat.mul_add]
      omega
    simp only [hd, if_true, Nat.add_zero, Nat.sub_zero]
    rw [hnum, Nat.add_mul_div_left _ _ hcs,
      Nat.div_eq_of_lt (show c.offset % cs - 1 < cs by omega), Nat.zero_add]
  · have hnum : c.offset + c.data.length + cs - 1 = c.offset + c.data.length - 1 + cs := by
      omega
    rw [if_neg hd, hnum, Nat.add_div_right _ hcs]

/-- **No empty chunk.**  A write that leaves no empty chunk keeps the number
of chunks the smallest possible. -/
theorem WriteCall.chunks_eq (c : WriteCall) {cs : Nat} (hcs : 0 < cs) (P : Bytes)
    (h : ¬ c.LeavesEmptyChunk cs P.length) :
    c.chunks cs P.length (chunksFor cs P.length) = chunksFor cs (c.plain P).length := by
  rw [WriteCall.chunks, countAfter, c.firstChunk_add_count, c.length_plain]
  by_cases hboundary : c.data.length = 0 ∧ cs ∣ c.offset
  · have hrest : ¬ (c.truncate = true ∨ P.length ≤ c.offset) :=
      fun hr => h ⟨hboundary.1, hboundary.2, hr⟩
    have ht : c.truncate = false := by simpa using fun ht => hrest (Or.inl ht)
    have hlt : c.offset < P.length := by
      by_contra hge
      exact hrest (Or.inr (by omega))
    obtain ⟨q, hq⟩ := hboundary.2
    have hlast : c.lastChunk cs = q := by
      rw [WriteCall.lastChunk, if_pos hboundary.1, hboundary.1, Nat.add_zero, Nat.sub_zero, hq,
        Nat.mul_div_cancel_left _ hcs]
    have hle : q + 1 ≤ chunksFor cs P.length := by
      by_contra hlt'
      have h1 : P.length ≤ chunksFor cs P.length * cs := chunksFor_mul_ge hcs
      have h2 : chunksFor cs P.length * cs ≤ q * cs := Nat.mul_le_mul_right cs (by omega)
      rw [hq, Nat.mul_comm] at hlt
      omega
    simp only [ht, Bool.false_eq_true, if_false, hboundary.1, Nat.add_zero, hlast]
    rw [Nat.max_eq_left hle, Nat.max_eq_left (by omega)]
  · have hsucc := c.lastChunk_succ hcs (by
      by_cases hd : c.data.length = 0
      · exact Or.inr (fun hdvd => hboundary ⟨hd, hdvd⟩)
      · exact Or.inl hd)
    rw [hsucc]
    split
    · rfl
    · rw [chunksFor_max]

/-- An empty chunk that is left behind is one chunk too many. -/
theorem WriteCall.LeavesEmptyChunk.chunks_eq {c : WriteCall} {cs : Nat} {P : Bytes}
    (hcs : 0 < cs) (h : c.LeavesEmptyChunk cs P.length) :
    c.chunks cs P.length (chunksFor cs P.length) = chunksFor cs (c.plain P).length + 1 := by
  obtain ⟨hd, ⟨q, hq⟩, hend⟩ := h
  have hlast : c.lastChunk cs = q := by
    rw [WriteCall.lastChunk, if_pos hd, hd, Nat.add_zero, Nat.sub_zero, hq,
      Nat.mul_div_cancel_left _ hcs]
  have hneeds : chunksFor cs c.offset = q := by
    rw [chunksFor_eq hcs, hq, Nat.mul_mod_right, if_pos rfl, Nat.mul_div_cancel_left _ hcs,
      Nat.add_zero]
  rw [WriteCall.chunks, countAfter, c.firstChunk_add_count, c.length_plain, hlast, hd,
    Nat.add_zero]
  cases ht : c.truncate with
  | true => simp [hneeds]
  | false =>
      have hle : P.length ≤ c.offset := hend.resolve_left (by simp [ht])
      have hfew : chunksFor cs P.length ≤ q := hneeds ▸ chunksFor_mono hle
      simp only [Bool.false_eq_true, if_false, Nat.add_zero]
      rw [Nat.max_eq_right hle, hneeds, Nat.max_eq_right (by omega)]

section Steps

variable {C : Primitives} {P : Bytes} {x y : World}

/-- The meta that a write sends belongs to the written file. -/
theorem WriteCall.matches_newFileMeta (c : WriteCall) {h : FileHandler} {n : Nat}
    {file checksum : Bytes} (hd : h.Describes C P n file checksum)
    (hmeta : h.fileMeta.internalFileMeta.Matches C h.chunkReader.chunkEncryptor P.length checksum)
    (hlen : (c.plain P).length < 2 ^ 64) :
    (c.newFileMeta C h P checksum).internalFileMeta.Matches C h.chunkReader.chunkEncryptor
      (c.plain P).length (c.checksum C h.chunkReader.chunkEncryptor P checksum) where
  key_eq := hmeta.key_eq
  chunkSize_eq := hmeta.chunkSize_eq
  size_eq := ofInt64_natCast hlen
  hmac_eq := by
    rw [← hd.reader.topHashKey_eq]
    exact C.base64_toString_from _

/-- **Step.**  A settling call settles again. -/
theorem World.settled_step {a : Access} (hx : x.Settled C P) (hok : a.Settling x)
    (hstep : a.applied C x y) : y.Settled C (a.apply P) := by
  cases a with
  | read offset size =>
      obtain ⟨bytes, hread⟩ := hstep
      obtain ⟨r, hsame, hcall, hd⟩ := FileHandler.read_ok honestReads_applyingBridge hx.describes
        hx.version_eq hok.1.1.1 hok.1.1.2
      rw [hcall] at hread
      obtain ⟨hy, hs⟩ := Prod.mk.inj (Prod.mk.inj hread).2
      have henc : y.handle.chunkReader.chunkEncryptor = x.handle.chunkReader.chunkEncryptor := by
        rw [← hy]
        exact hsame.chunkEncryptor_eq
      have hmeta : y.handle.fileMeta = x.handle.fileMeta := by rw [← hy]
      refine ⟨?_, ?_, ?_, ?_⟩
      · rw [← hs, ← hy]
        exact hx.version_eq
      · rw [henc, ← hs, ← hy]
        exact hd
      · rw [hmeta, henc, ← hs]
        exact hx.fileMeta
      · rw [henc]
        exact hx.chunkSize_le
  | write c =>
      obtain ⟨m, p, n, hd, -, hnew, hnext, -, hsend⟩ :=
        World.write_applied hx.encodes c hok.1.1 hstep
      obtain rfl : n = chunksFor x.handle.chunkReader.chunkEncryptor.chunkSize P.length :=
        hd.reader.size_eq.symm.trans hx.describes.reader.size_eq
      have hcs := hd.reader.chunkSize_pos
      have hempty := hok.2
      simp only [hd.plainChunkSize_eq, hd.plainfileSize_eq] at hempty
      rw [c.applied_eq hd hok.1.1, (c.file_applied_iff hd).mpr hok.1.2,
        c.checksum_applied hd hok.1.2] at hsend
      have hserver := (Prod.mk.inj hsend).2
      rw [c.chunks_eq hcs P hempty] at hnew
      have hlen : (c.plain P).length < 2 ^ 63 :=
        lt_of_le_of_lt hnew.reader.encoded.length_plain_le hnew.size_lt
      refine ⟨?_, ?_, ?_, ?_⟩
      · rw [← hserver, hnext.version_eq]
      · rw [← hserver, hnext.chunkEncryptor_eq]
        exact hnew
      · rw [← hserver, hnext.fileMeta_eq, hnext.chunkEncryptor_eq]
        exact c.matches_newFileMeta hd hx.fileMeta (by omega)
      · rw [hnext.chunkEncryptor_eq]
        exact hx.chunkSize_le

/-- The parameters made from the meta of a settled state fit the stored file. -/
theorem World.Settled.storedFile (hx : x.Settled C P) (fileId resourceId : String) :
    StoredFile C (getFileDecryptionParams C fileId resourceId x.server
      x.handle.fileMeta.internalFileMeta) P x.server := by
  have hd := hx.describes
  have hm := hx.fileMeta
  have henc : (getFileDecryptionParams C fileId resourceId x.server
      x.handle.fileMeta.internalFileMeta).encryptor = x.handle.chunkReader.chunkEncryptor := by
    simp only [FileDecryptionParams.encryptor, getFileDecryptionParams, hm.key_eq, hm.chunkSize_eq]
  have hcs : (getFileDecryptionParams C fileId resourceId x.server
      x.handle.fileMeta.internalFileMeta).chunkSize =
      x.handle.chunkReader.chunkEncryptor.chunkSize := hm.chunkSize_eq
  refine ⟨?_, ?_, ?_, hm.size_eq, rfl, rfl⟩
  · rw [hcs]
    exact hd.reader.chunkSize_pos
  · rw [henc, hcs]
    exact hd.reader.encoded
  · simp only [getFileDecryptionParams, hm.key_eq, hm.hmac_eq]

/-- A settled state is consistent. -/
theorem World.Settled.consistent (hx : x.Settled C P) : x.Consistent C := by
  have hd := hx.describes
  have hcs := hd.reader.chunkSize_pos
  have hle := hx.chunkSize_le
  have hchunks := hd.reader.size_eq
  refine ⟨?_, ?_, ?_, hx.fileMeta.hmac_eq, ?_⟩
  · have hfile := hd.reader.encoded.length_eq_encFileLen hcs
    have hplain := hd.reader.encoded.length_plain_le
    have hlt := hd.size_lt
    have hsmall := lt_encLen x.handle.chunkReader.chunkEncryptor.chunkSize
    rw [hd.encryptedFileSize_eq, hd.plainfileSize_eq, hfile,
      ChunkEncryptor.getEncryptedFileSize_eq hcs (by omega) (by omega)]
  · rw [hchunks, hd.plainChunkSize_eq, hd.plainfileSize_eq]
  · intro i hi
    rw [hchunks] at hi
    rw [hd.encryptedChunkSize_eq, hd.plainChunkSize_eq]
    exact ⟨_, hd.reader.decrypt_chunk (by omega),
      length_block_before hd.reader.encoded.tight hi⟩
  · intro fileId resourceId win
    have hstored := hx.storedFile fileId resourceId
    have hcs' : (getFileDecryptionParams C fileId resourceId x.server
        x.handle.fileMeta.internalFileMeta).chunkSize =
        x.handle.chunkReader.chunkEncryptor.chunkSize := hx.fileMeta.chunkSize_eq
    exact ⟨_, openChunkReader_eq honestReads_applyingBridge hstored (by rw [hcs']; exact hle)
      hd.size_lt win⟩

/-- A reopened file whose blob has another length than predicted is refused. -/
theorem openChunkReader_fileCorrupted {B : Bridge ServerFile} (hB : HonestReads B)
    {d : FileDecryptionParams} {win : Nat} {r : ChunkReader} {s s' : ServerFile}
    (hsize : d.originalSize ≠ 0)
    (hlen : d.sizeOnServer ≠ d.encryptor.getEncryptedFileSize d.originalSize) :
    openChunkReader C B d win s ≠ (.ok r, s') := by
  have hread : B.storeFileRead = ServerFile.storeFileRead := hB
  have henc : ({ key := d.key, chunkSize := d.chunkSize } : ChunkEncryptor) = d.encryptor := rfl
  simp only [openChunkReader, henc, ChunkDataProvider.getCurrentChecksumsFromBridge, hread,
    ServerFile.storeFileRead, ChunkReader.create, hsize, hlen, ne_eq, not_false_eq_true, and_self,
    if_true]
  split <;> simp

/-- A consistent state after a write in range: no chunk too many. -/
theorem World.Consistent.not_leavesEmptyChunk (hy : y.Consistent C) (hx : x.Settled C P)
    {c : WriteCall} (hin : Access.InRange x (.write c))
    (hwrite : Access.applied C x (.write c) y) :
    ¬ c.LeavesEmptyChunk x.handle.plainChunkSize x.handle.plainfileSize := by
  obtain ⟨m, p, n, hd, -, hnew, hnext, -, -⟩ := World.write_applied hx.encodes c hin hwrite
  obtain rfl : n = chunksFor x.handle.chunkReader.chunkEncryptor.chunkSize P.length :=
    hd.reader.size_eq.symm.trans hx.describes.reader.size_eq
  rw [hd.plainChunkSize_eq, hd.plainfileSize_eq]
  intro hleaves
  have hsize := hy.size_eq
  rw [hnew.reader.size_eq, hnew.plainChunkSize_eq, hnew.plainfileSize_eq,
    hnext.chunkEncryptor_eq, hleaves.chunks_eq hd.reader.chunkSize_pos] at hsize
  omega

/-- A consistent state after a write in range: no chunk too few. -/
theorem World.Consistent.keepsTail (hy : y.Consistent C) (hx : x.Settled C P)
    {c : WriteCall} (hin : Access.InRange x (.write c))
    (hwrite : Access.applied C x (.write c) y) : c.KeepsTail x.handle := by
  obtain ⟨m, p, n, hd, -, hnew, hnext, -, hsend⟩ := World.write_applied hx.encodes c hin hwrite
  have hcs := hd.reader.chunkSize_pos
  have hplain : (c.plain P).length < 2 ^ 63 :=
    lt_of_le_of_lt hnew.reader.encoded.length_plain_le hnew.size_lt
  have hmeta := c.matches_newFileMeta hd hx.fileMeta (by omega)
  rw [c.applied_eq hd hin] at hsend
  have hserver := (Prod.mk.inj hsend).2
  by_cases hzero : (c.plain P).length = 0
  · -- Nothing is kept, so nothing can be lost.
    cases ht : c.truncate with
    | true => exact Or.inl ht
    | false =>
        rw [c.length_plain, ht] at hzero
        have hP : P.length = 0 := by simpa using (Nat.max_eq_zero_iff.mp hzero).1
        refine Or.inr (Or.inr ?_)
        rw [hx.describes.reader.size_eq, hP, chunksFor_zero hcs]
        exact Nat.zero_le _
  · -- The size check of the constructor has seen the whole file.
    rw [← c.file_applied_iff hd]
    obtain ⟨ivs, hfile, -⟩ := hd.reader.encoded.encoded
    have hstart := (c.replaces_data hcs hd.reader.encoded ivs).start_length_le
    rw [← hfile] at hstart
    apply writeAt_cut_eq_of_length hstart
    obtain ⟨r, hopen⟩ := hy.reopens "" "" 0
    have hcheck : y.server.file.length =
        y.handle.chunkReader.chunkEncryptor.getEncryptedFileSize (c.plain P).length := by
      by_contra hne
      refine openChunkReader_fileCorrupted honestReads_applyingBridge ?_ ?_ hopen
      · rw [hnext.fileMeta_eq]
        exact fun h0 => hzero (hmeta.size_eq.symm.trans h0)
      · rw [hnext.fileMeta_eq]
        simp only [FileDecryptionParams.encryptor, getFileDecryptionParams, hmeta.key_eq,
          hmeta.chunkSize_eq, hmeta.size_eq]
        rwa [hnext.chunkEncryptor_eq] at hne
    rw [← hserver, ← hnew.plainfileSize_eq, ← hy.encryptedFileSize_eq,
      hnew.encryptedFileSize_eq] at hcheck
    exact hcheck

/-- **Exactness.**  After a write in range to a settled file, the state is
consistent exactly if the tail is kept and no empty chunk is left behind. -/
theorem World.consistent_iff (hx : x.Settled C P) {c : WriteCall}
    (hin : Access.InRange x (.write c)) (hwrite : Access.applied C x (.write c) y) :
    y.Consistent C ↔ Access.Settling x (.write c) := by
  constructor
  · intro hy
    exact ⟨⟨hin, hy.keepsTail hx hin hwrite⟩, hy.not_leavesEmptyChunk hx hin hwrite⟩
  · exact fun hok => (World.settled_step hx hok hwrite).consistent

end Steps

/-- A freshly opened handle whose parameters were made from the meta. -/
theorem World.settled_opened {C : Primitives} {P : Bytes} {s : ServerFile}
    {x : FileEncryptionParams} {info : FileInfo} {win : Nat} {f : FileHandlerImpl}
    {fileId resourceId : String} (hstored : StoredFile C x.fileDecryptionParams P s)
    (hwin : WindowSize x.fileDecryptionParams.chunkSize win) (hlen : s.file.length < 2 ^ 63)
    (hparams : x.fileDecryptionParams =
      getFileDecryptionParams C fileId resourceId s x.fileMeta.internalFileMeta)
    (hopen : FileReadWriteHandle.create C applyingBridge info x win s = (.ok f, s)) :
    World.Settled C ⟨f.file, s⟩ P := by
  obtain ⟨hcreate, hd⟩ :=
    FileReadWriteHandle.create_ok honestReads_applyingBridge hstored hwin hlen info
  obtain rfl : openedHandle info x win C s.checksum = f := by
    rw [hcreate] at hopen
    simpa using hopen
  have hsum := hwin.sum_le
  refine ⟨hstored.version_eq.symm, hd, ⟨?_, ?_, ?_, ?_⟩, ?_⟩
  · exact (congrArg FileDecryptionParams.key hparams).symm
  · exact (congrArg FileDecryptionParams.chunkSize hparams).symm
  · exact (congrArg FileDecryptionParams.originalSize hparams).symm.trans hstored.originalSize_eq
  · exact (congrArg FileDecryptionParams.hmac hparams).symm.trans hstored.hmac_eq
  · show encLen x.fileDecryptionParams.chunkSize ≤ 2 ^ 62
    omega

/-- **The reopen invariant.**  In every state that a run of settling calls
reaches, sizes, tags and meta fit together and the file can be opened again.
One more successful write in range leaves such a state exactly if it settles,
and the meta on the server is then the encryption of the meta of the handle. -/
theorem FileHandler.reopen_invariant {C : Primitives} {P : Bytes} {s : ServerFile}
    {x : FileEncryptionParams} {info : FileInfo} {win : Nat} {f : FileHandlerImpl}
    {fileId resourceId : String} (hstored : StoredFile C x.fileDecryptionParams P s)
    (hwin : WindowSize x.fileDecryptionParams.chunkSize win) (hlen : s.file.length < 2 ^ 63)
    (hparams : x.fileDecryptionParams =
      getFileDecryptionParams C fileId resourceId s x.fileMeta.internalFileMeta)
    (hopen : FileReadWriteHandle.create C applyingBridge info x win s = (.ok f, s))
    {calls : List Access} {y : World}
    (hrun : Run (guarded (fun x a => Access.Settling x a) (Access.applied C)) ⟨f.file, s⟩
      calls y) :
    y.Consistent C ∧
      ∀ c z, Access.InRange y (.write c) → Access.applied C y (.write c) z →
        (z.Consistent C ↔ Access.Settling y (.write c)) ∧
          c.encryptMeta z.handle.fileInfo z.handle.fileMeta z.handle.fileEncKey =
            .ok z.server.encryptedMeta := by
  have hinit := World.settled_opened hstored hwin hlen hparams hopen
  have hfinal := Run.simulates (World.Settled C) Access.apply
    (fun _ _ _ _ hx hs => World.settled_step hx hs.1 hs.2) hrun hinit
  refine ⟨hfinal.consistent, ?_⟩
  intro c z hin hwrite
  refine ⟨World.consistent_iff hfinal hin hwrite, ?_⟩
  obtain ⟨m, p, n, hd, -, -, -, hmeta, hsend⟩ := World.write_applied hfinal.encodes c hin hwrite
  rw [c.applied_eq hd hin] at hsend
  rw [hmeta, ← (Prod.mk.inj hsend).2]

/-- The parameters of an encoded file are those made from its meta. -/
theorem encodedEncryption_params (C : Primitives) {e : ChunkEncryptor} (ivs : Nat → Iv)
    {P : Bytes} (version : Int) (hP : P.length < 2 ^ 64) (he : e.chunkSize < 2 ^ 64) :
    (encodedEncryption C e ivs P version).fileDecryptionParams =
      getFileDecryptionParams C "file" "resource" (encodedServer C e ivs P version)
        (encodedEncryption C e ivs P version).fileMeta.internalFileMeta := by
  simp only [encodedEncryption, encodedParams, getFileDecryptionParams, ofInt64_natCast hP,
    ofInt64_natCast he, C.base64_toString_from, encodedServer]

theorem FileHandler.reopen_invariant_sample :
    ∃ z, Access.applied samplePrimitives ⟨(openedHandle sampleInfo sampleParams 100
        samplePrimitives sampleFile.checksum).file, sampleFile⟩ (.write sampleWrite) z ∧
      z.Consistent samplePrimitives := by
  have hstored : StoredFile samplePrimitives sampleParams.fileDecryptionParams _ sampleFile :=
    storedFile_encoded samplePrimitives (by decide) _ _ _
  have hwin : WindowSize sampleParams.fileDecryptionParams.chunkSize 100 :=
    ⟨by decide, by decide⟩
  have hlen : sampleFile.file.length < 2 ^ 63 :=
    lt_of_le_of_lt hstored.encoded.length_file_le (by decide)
  have hopen := (FileReadWriteHandle.create_ok honestReads_applyingBridge hstored hwin hlen
    sampleInfo).1
  have hparams := encodedEncryption_params samplePrimitives
    (e := { key := sampleKey, chunkSize := 4 }) (P := [1, 2, 3, 4, 5, 6, 7]) (fun _ => sampleIv) 3
    (by decide) (by decide)
  have hin : Access.InRange
      ⟨(openedHandle sampleInfo sampleParams 100 samplePrimitives sampleFile.checksum).file,
        sampleFile⟩ (.write sampleWrite) := ⟨by decide, by decide, by decide⟩
  obtain ⟨w, h, z, -, hwrite⟩ := World.exists_write_applied
    (World.encodes_opened honestReads_applyingBridge hstored hwin hlen hopen) sampleWrite hin
    (fun _ _ _ => ⟨_, rfl⟩)
  have hsettling : Access.Settling
      ⟨(openedHandle sampleInfo sampleParams 100 samplePrimitives sampleFile.checksum).file,
        sampleFile⟩ (.write sampleWrite) :=
    ⟨⟨hin, Or.inr (Or.inl (by decide))⟩, fun h => absurd h.1 (by decide)⟩
  exact ⟨z, hwrite, ((FileHandler.reopen_invariant hstored hwin hlen hparams hopen
    (.nil _)).2 sampleWrite z hin hwrite).1.mpr hsettling⟩

/-- One full chunk of four bytes. -/
def fullFile : ServerFile :=
  encodedServer samplePrimitives { key := sampleKey, chunkSize := 4 } (fun _ => sampleIv)
    [1, 2, 3, 4] 1

@[inherit_doc fullFile]
def fullParams : FileEncryptionParams :=
  encodedEncryption samplePrimitives { key := sampleKey, chunkSize := 4 } (fun _ => sampleIv)
    [1, 2, 3, 4] 1

/-- Writing nothing at the end of the full chunk. -/
def emptyWrite : WriteCall where
  ivs _ := sampleIv
  encryptMeta := sampleEncryptMeta
  offset := 4
  data := []
  truncate := false

/-- An empty write behind a full chunk appends an empty chunk: the handle has
two tags for four bytes, and the written file cannot be opened again. -/
theorem FileHandler.empty_write_breaks_reopening :
    StoredFile samplePrimitives fullParams.fileDecryptionParams [1, 2, 3, 4] fullFile ∧
      FileReadWriteHandle.create samplePrimitives applyingBridge sampleInfo fullParams 100
        fullFile = (.ok (openedHandle sampleInfo fullParams 100 samplePrimitives
          fullFile.checksum), fullFile) ∧
      ∃ z, Access.applied samplePrimitives ⟨(openedHandle sampleInfo fullParams 100
          samplePrimitives fullFile.checksum).file, fullFile⟩ (.write emptyWrite) z ∧
        z.handle.plainfileSize = 4 ∧ z.handle.chunkReader.hashList.size = 2 ∧
        (∀ r s', openChunkReader samplePrimitives applyingBridge (getFileDecryptionParams
          samplePrimitives "file" "resource" z.server z.handle.fileMeta.internalFileMeta) 100
          z.server ≠ (.ok r, s')) ∧
        ¬ z.Consistent samplePrimitives := by
  have hstored : StoredFile samplePrimitives fullParams.fileDecryptionParams _ fullFile :=
    storedFile_encoded samplePrimitives (by decide) _ _ _
  have hwin : WindowSize fullParams.fileDecryptionParams.chunkSize 100 := ⟨by decide, by decide⟩
  have hlen : fullFile.file.length < 2 ^ 63 :=
    lt_of_le_of_lt hstored.encoded.length_file_le (by decide)
  have hopen := (FileReadWriteHandle.create_ok honestReads_applyingBridge hstored hwin hlen
    sampleInfo).1
  have hparams := encodedEncryption_params samplePrimitives
    (e := { key := sampleKey, chunkSize := 4 }) (P := [1, 2, 3, 4]) (fun _ => sampleIv) 1
    (by decide) (by decide)
  have hsettled := World.settled_opened hstored hwin hlen hparams hopen
  have hin : Access.InRange
      ⟨(openedHandle sampleInfo fullParams 100 samplePrimitives fullFile.checksum).file,
        fullFile⟩ (.write emptyWrite) := ⟨by decide, by decide, by decide⟩
  obtain ⟨w, h, z, -, hwrite⟩ := World.exists_write_applied hsettled.encodes emptyWrite hin
    (fun _ _ _ => ⟨_, rfl⟩)
  obtain ⟨m, p, n, hd, -, hnew, hnext, -, hsend⟩ :=
    World.write_applied hsettled.encodes emptyWrite hin hwrite
  obtain rfl : n = 1 := hd.reader.size_eq.symm.trans hsettled.describes.reader.size_eq
  have hmeta := emptyWrite.matches_newFileMeta hd hsettled.fileMeta (by decide)
  have hkeep : emptyWrite.KeepsTail (openedHandle sampleInfo fullParams 100 samplePrimitives
      fullFile.checksum).file := Or.inr (Or.inl (by decide))
  rw [emptyWrite.applied_eq hd hin, (emptyWrite.file_applied_iff hd).mpr hkeep] at hsend
  have hserver : z.server.file.length = 128 := by
    have hfile := hnew.reader.encoded.length_file (by decide)
    rw [hnext.chunkEncryptor_eq] at hfile
    rw [← (Prod.mk.inj hsend).2]
    exact hfile
  refine ⟨hstored, hopen, z, hwrite, hnew.plainfileSize_eq, hnew.reader.size_eq, ?_, ?_⟩
  · intro r s'
    apply openChunkReader_fileCorrupted honestReads_applyingBridge
    · rw [hnext.fileMeta_eq]
      exact fun h0 => absurd (hmeta.size_eq.symm.trans h0) (by decide)
    · rw [hnext.fileMeta_eq]
      simp only [FileDecryptionParams.encryptor, getFileDecryptionParams, hmeta.key_eq,
        hmeta.chunkSize_eq, hmeta.size_eq, hserver]
      decide
  · rw [World.consistent_iff hsettled hin hwrite]
    exact fun hsettling => hsettling.2 ⟨rfl, by decide, Or.inr (by decide)⟩

end PrivmxEndpoint
