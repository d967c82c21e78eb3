import PrivmxEndpoint.FileHandlerWrite

/-!
# Opening a stored file

`StoredFile` says that the server holds an encoding of a plain text in the
smallest number of chunks and that a set of decryption parameters was made for
it.  Opening such a file succeeds, and the fresh handle describes it
(`openChunkReader_ok`).
-/

namespace PrivmxEndpoint

open Word Splice Blocks

/-- The number of chunks a plain size needs. -/
def chunksFor (cs len : Nat) : Nat :=
  (len + cs - 1) / cs

/-- The encryptor of a set of decryption parameters. -/
def FileDecryptionParams.encryptor (d : FileDecryptionParams) : ChunkEncryptor where
  key := d.key
  chunkSize := d.chunkSize

/-- The server holds a plain text encoded for the given parameters. -/
structure StoredFile (C : Primitives) (d : FileDecryptionParams) (P : Bytes) (s : ServerFile) :
    Prop where
  chunkSize_pos : 0 < d.chunkSize
  encoded : EncodedFile C d.encryptor P (chunksFor d.chunkSize P.length) s.file s.checksum
  hmac_eq : d.hmac = C.hmacSha256 d.key s.checksum
  originalSize_eq : d.originalSize = P.length
  sizeOnServer_eq : d.sizeOnServer = s.file.length
  version_eq : d.version = s.version

/-- The window size of the code: positive and far from the end of the signed
range. -/
structure WindowSize (cs win : Nat) : Prop where
  pos : 0 < win
  sum_le : win + encLen cs ≤ 2 ^ 62

section Counting

variable {cs len : Nat}

theorem chunksFor_mul_ge (hcs : 0 < cs) : len ≤ chunksFor cs len * cs := by
  have h := Nat.lt_mul_div_succ (len + cs - 1) hcs
  rw [Nat.mul_succ, Nat.mul_comm] at h
  unfold chunksFor
  omega

theorem chunksFor_pred_mul_le (cs len : Nat) : (chunksFor cs len - 1) * cs ≤ len := by
  have h := Nat.div_mul_le_self (len + cs - 1) cs
  unfold chunksFor
  rw [Nat.sub_mul]
  omega

/-- The two shapes of the number of chunks. -/
theorem chunksFor_eq (hcs : 0 < cs) :
    chunksFor cs len = len / cs + if len % cs = 0 then 0 else 1 := by
  have hdm := Nat.div_add_mod len cs
  have hlt := Nat.mod_lt len hcs
  unfold chunksFor
  by_cases h : len % cs = 0
  · have hnum : len + cs - 1 = cs - 1 + cs * (len / cs) := by omega
    rw [if_pos h, hnum, Nat.add_mul_div_left _ _ hcs, Nat.div_eq_of_lt (by omega)]
    omega
  · have hnum : len + cs - 1 = len % cs - 1 + cs * (len / cs + 1) := by
      rw [Nat.mul_add]
      omega
    rw [if_neg h, hnum, Nat.add_mul_div_left _ _ hcs, Nat.div_eq_of_lt (by omega)]
    omega

/-- The predicted length is that of the full chunks and of a last short one. -/
theorem encFileLen_eq (hcs : 0 < cs) (hlen : 0 < len) :
    encFileLen cs len =
      (chunksFor cs len - 1) * encLen cs + encLen (len - (chunksFor cs len - 1) * cs) := by
  have hdm := Nat.div_add_mod len cs
  rw [chunksFor_eq hcs, encFileLen]
  by_cases h : len % cs = 0
  · have h0 : len / cs ≠ 0 := fun h0 => by
      rw [h0, h] at hdm
      omega
    obtain ⟨q, hq⟩ := Nat.exists_eq_succ_of_ne_zero h0
    have hrest : len - q * cs = cs := by
      rw [h, hq, Nat.mul_succ, Nat.mul_comm] at hdm
      omega
    rw [if_pos h, if_pos h, hq, Nat.add_zero, Nat.add_zero, Nat.succ_sub_one, hrest,
      Nat.succ_mul]
  · have hrest : len - len / cs * cs = len % cs := by
      rw [Nat.mul_comm]
      omega
    rw [if_neg h, if_neg h, Nat.add_sub_cancel, hrest]

theorem chunksFor_pos (hcs : 0 < cs) (hlen : 0 < len) : 0 < chunksFor cs len :=
  Nat.div_pos (by omega) hcs

theorem chunksFor_zero (hcs : 0 < cs) : chunksFor cs 0 = 0 := by
  rw [chunksFor, Nat.zero_add]
  exact Nat.div_eq_of_lt (by omega)

end Counting

section Opening

variable {C : Primitives} {e : ChunkEncryptor} {P file checksum : Bytes}

/-- A file in the smallest number of chunks has the predicted length. -/
theorem EncodedFile.length_eq_encFileLen (hcs : 0 < e.chunkSize)
    (h : EncodedFile C e P (chunksFor e.chunkSize P.length) file checksum) :
    file.length = encFileLen e.chunkSize P.length := by
  rcases Nat.eq_zero_or_pos P.length with h0 | hpos
  · rw [h0, chunksFor_zero hcs] at h
    obtain ⟨-, rfl, -⟩ := h.eq_nil_of_zero
    simp [h0, encFileLen]
  · rw [h.length_file (chunksFor_pos hcs hpos), encFileLen_eq hcs hpos]

variable {d : FileDecryptionParams} {s : ServerFile} {B : Bridge ServerFile} {win : Nat}

/-- The size check of the constructor accepts a stored file. -/
theorem StoredFile.sizeOnServer_eq_predicted (h : StoredFile C d P s)
    (hlen : s.file.length < 2 ^ 63) (hcs : encLen d.chunkSize ≤ 2 ^ 62) :
    d.sizeOnServer = d.encryptor.getEncryptedFileSize d.originalSize := by
  have hfile := h.encoded.length_eq_encFileLen h.chunkSize_pos
  have hle := h.encoded.length_plain_le
  have hlt := lt_encLen d.chunkSize
  have hsize : encFileLen d.encryptor.chunkSize P.length < 2 ^ 64 := by
    rw [← hfile]
    omega
  have hsum : P.length + d.encryptor.chunkSize ≤ 2 ^ 64 := by
    have : d.encryptor.chunkSize = d.chunkSize := rfl
    omega
  rw [h.sizeOnServer_eq, h.originalSize_eq,
    ChunkEncryptor.getEncryptedFileSize_eq h.chunkSize_pos hsum hsize, hfile]

/-- The chunk reader of a freshly opened file. -/
def openedReader (d : FileDecryptionParams) (win : Nat) (C : Primitives) (checksum : Bytes) :
    ChunkReader where
  chunkDataProvider := ChunkDataProvider.create d.encryptor.getEncryptedChunkSize win d.fileId
    d.sizeOnServer d.version
  chunkEncryptor := d.encryptor
  hashList :=
    { topHashKey := d.key
      topHash := some (C.hmacSha256 d.key checksum)
      size := checksum.length / HMAC_SIZE
      hashes := checksum }
  version := d.version
  lastChunk := none

/-- A stored file is opened without an exception, whatever the window size. -/
theorem openChunkReader_eq (hB : HonestReads B) (h : StoredFile C d P s)
    (hcs : encLen d.chunkSize ≤ 2 ^ 62) (hlen : s.file.length < 2 ^ 63) (win : Nat) :
    openChunkReader C B d win s = (.ok (openedReader d win C s.checksum), s) := by
  have hcheck := h.sizeOnServer_eq_predicted hlen hcs
  have htags := h.encoded.length_checksum
  have hread : B.storeFileRead = ServerFile.storeFileRead := hB
  have hlist : HmacList.create C d.key _ s.checksum = _ := HmacList.create_ok htags
  have hdiv : s.checksum.length / HMAC_SIZE = chunksFor d.chunkSize P.length := by
    rw [htags]
    exact Nat.mul_div_cancel _ (by decide)
  have hcreate : HmacList.create C d.key d.hmac s.checksum =
      .ok (openedReader d win C s.checksum).hashList := by
    rw [h.hmac_eq, hlist, ← hdiv]
    rfl
  have henc : ({ key := d.key, chunkSize := d.chunkSize } : ChunkEncryptor) = d.encryptor := rfl
  simp only [openChunkReader, henc, ChunkDataProvider.getCurrentChecksumsFromBridge, hread,
    ServerFile.storeFileRead, hcreate, ChunkReader.create]
  rw [if_neg (fun hne => hne.1 hcheck)]
  rfl

/-- **Opening.**  The fresh reader of a stored file describes it. -/
theorem openChunkReader_ok (hB : HonestReads B) (h : StoredFile C d P s)
    (hwin : WindowSize d.chunkSize win) (hlen : s.file.length < 2 ^ 63) :
    openChunkReader C B d win s = (.ok (openedReader d win C s.checksum), s) ∧
      (openedReader d win C s.checksum).Describes C P (chunksFor d.chunkSize P.length) s.file
        s.checksum := by
  have hsum := hwin.sum_le
  have hecs : d.encryptor.getEncryptedChunkSize = encLen d.chunkSize :=
    ChunkEncryptor.getEncryptedChunkSize_eq (show encLen d.chunkSize < 2 ^ 64 by omega)
  have htags := h.encoded.length_checksum
  refine ⟨openChunkReader_eq hB h (by omega) hlen win, h.encoded, h.chunkSize_pos, ?_, hecs, ?_,
    ⟨?_, ?_⟩, rfl, rfl, ?_⟩
  · show (ChunkDataProvider.create d.encryptor.getEncryptedChunkSize win d.fileId
      d.sizeOnServer d.version).Shaped
    rw [hecs]
    exact ChunkDataProvider.shaped_create (encLen_pos _) hwin.pos hsum _ _ _
  · exact ChunkDataProvider.cacheMatches_create _ _ _ _ _ _
  · show s.checksum.length = s.checksum.length / HMAC_SIZE * HMAC_SIZE
    rw [htags, Nat.mul_div_cancel _ (by decide)]
  · exact fun _ ht => (Option.some.inj ht).symm
  · exact fun _ hc => absurd hc (by simp [openedReader])

/-- The random-access handle of a freshly opened file. -/
def openedHandle (info : FileInfo) (x : FileEncryptionParams) (win : Nat) (C : Primitives)
    (checksum : Bytes) : FileHandlerImpl where
  file := FileHandler.create (openedReader x.fileDecryptionParams win C checksum)
    x.fileDecryptionParams.originalSize x.fileDecryptionParams.sizeOnServer
    x.fileDecryptionParams.version info x.fileMeta x.encKey
  readPos := 0
  writePos := 0

theorem FileReadWriteHandle.create_ok (hB : HonestReads B) {x : FileEncryptionParams}
    (h : StoredFile C x.fileDecryptionParams P s)
    (hwin : WindowSize x.fileDecryptionParams.chunkSize win) (hlen : s.file.length < 2 ^ 63)
    (info : FileInfo) :
    FileReadWriteHandle.create C B info x win s = (.ok (openedHandle info x win C s.checksum), s) ∧
      (openedHandle info x win C s.checksum).file.Describes C P
        (chunksFor x.fileDecryptionParams.chunkSize P.length) s.file s.checksum := by
  obtain ⟨hopen, hdesc⟩ := openChunkReader_ok hB h hwin hlen
  have hsum := hwin.sum_le
  constructor
  · simp only [FileReadWriteHandle.create, hopen]
    rfl
  · exact ⟨hdesc, rfl, h.originalSize_eq, h.sizeOnServer_eq, rfl,
      ChunkEncryptor.getEncryptedChunkSize_eq
        (show encLen x.fileDecryptionParams.chunkSize < 2 ^ 64 by omega), hlen⟩

end Opening

/-! ## Files as an upload leaves them -/

/-- The server after a plain text has been encrypted chunk by chunk. -/
def encodedServer (C : Primitives) (e : ChunkEncryptor) (ivs : Nat → Iv) (P : Bytes)
    (version : Int) : ServerFile where
  file := join (fun i => (encChunk C e P ivs i).data) 0 (chunksFor e.chunkSize P.length)
  checksum := join (fun i => (encChunk C e P ivs i).hmac) 0 (chunksFor e.chunkSize P.length)
  version := version
  encryptedMeta := { json := "" }
  keyId := ""

/-- The decryption parameters of such a file. -/
def encodedParams (C : Primitives) (e : ChunkEncryptor) (ivs : Nat → Iv) (P : Bytes)
    (version : Int) : FileDecryptionParams where
  fileId := "file"
  resourceId := "resource"
  sizeOnServer := (encodedServer C e ivs P version).file.length
  originalSize := P.length
  cipherType := 1
  chunkSize := e.chunkSize
  key := e.key
  hmac := C.hmacSha256 e.key (encodedServer C e ivs P version).checksum
  version := version

theorem storedFile_encoded (C : Primitives) {e : ChunkEncryptor} (hcs : 0 < e.chunkSize)
    (ivs : Nat → Iv) (P : Bytes) (version : Int) :
    StoredFile C (encodedParams C e ivs P version) P (encodedServer C e ivs P version) where
  chunkSize_pos := hcs
  encoded :=
    { encoded := ⟨ivs, rfl, rfl⟩
      covers := chunksFor_mul_ge hcs
      tight := chunksFor_pred_mul_le _ _ }
  hmac_eq := rfl
  originalSize_eq := rfl
  sizeOnServer_eq := rfl
  version_eq := rfl

/-- The encryption parameters of such a file. -/
def encodedEncryption (C : Primitives) (e : ChunkEncryptor) (ivs : Nat → Iv) (P : Bytes)
    (version : Int) : FileEncryptionParams where
  fileMeta :=
    { publicMeta := []
      privateMeta := []
      internalFileMeta :=
        { version := 4
          size := P.length
          cipherType := 1
          chunkSize := e.chunkSize
          key := C.base64From e.key
          hmac := C.base64From (encodedParams C e ivs P version).hmac
          randomWrite := some true } }
  fileDecryptionParams := encodedParams C e ivs P version
  encKey := { id := "key", key := [], dataStructureVersion := 5, statusCode := 0 }

/-- A key, an initialization vector, a file info and a meta encryption for
files made with `samplePrimitives`. -/
def sampleKey : Bytes := List.replicate 32 7

@[inherit_doc sampleKey]
def sampleIv : Iv := ⟨List.replicate 16 0, rfl⟩

@[inherit_doc sampleKey]
def sampleInfo : FileInfo where
  contextId := "context"
  storeId := "store"
  storeResourceId := "storeResource"
  fileId := "file"
  resourceId := "resource"

@[inherit_doc sampleKey]
def sampleEncryptMeta : EncryptMeta :=
  fun _ fileMeta _ => .ok { json := fileMeta.internalFileMeta.hmac }

end PrivmxEndpoint
