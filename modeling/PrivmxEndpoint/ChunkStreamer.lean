import PrivmxEndpoint.FileSizes
import PrivmxEndpoint.ThrowingPrograms

/-!
# Uploading a file

A `FileWriteHandle` collects what is written in a `ChunkBufferedStream` and hands
every full chunk to a `ChunkStreamer`.  The streamer encrypts it and collects the
encrypted bytes in a second stream, whose chunks have the size of a request to the
server; full ones are sent at once.  `finalize` sends what is left and commits the
file.

A request may throw anywhere.  What the calls have changed until then stays: every
member function is a program whose state is kept when it throws.
-/

namespace PrivmxEndpoint

open Word Splice Blocks Throwing

/-- The fields of `ChunkBufferedStream`. -/
structure ChunkBufferedStream where
  chunkSize : Nat
  buf : Bytes
  sizeControl : Bool
  maxTotalDataSize : Nat
  totalDataSize : Nat
  bufSize : Nat
  deriving Repr, DecidableEq

namespace ChunkBufferedStream

/-- The constructor of `ChunkBufferedStream`. -/
def create (chunkSize : Nat) (maxStreamLength : Option Nat) : ChunkBufferedStream where
  chunkSize := chunkSize
  buf := []
  sizeControl := maxStreamLength.isSome
  maxTotalDataSize := maxStreamLength.getD 0
  totalDataSize := 0
  bufSize := 0

/-- `ChunkBufferedStream::isEmpty`. -/
def isEmpty (s : ChunkBufferedStream) : Bool :=
  s.bufSize == 0

/-- `ChunkBufferedStream::isFullyFilled`. -/
def isFullyFilled (s : ChunkBufferedStream) : Bool :=
  if s.sizeControl then s.totalDataSize == s.maxTotalDataSize else false

/-- `ChunkBufferedStream::getNumberOfFullChunks`. -/
def getNumberOfFullChunks (s : ChunkBufferedStream) : Nat :=
  s.bufSize / s.chunkSize

/-- `ChunkBufferedStream::readChunk`. -/
def readChunk (s : ChunkBufferedStream) : Except StoreError (Bytes × ChunkBufferedStream) := do
  let chunkSize := min s.bufSize s.chunkSize
  let res ← substr s.buf 0 s.chunkSize
  let buf ← substr s.buf chunkSize s.buf.length
  return (res, { s with buf := buf, bufSize := sub64 s.bufSize chunkSize })

/-- `ChunkBufferedStream::write`. -/
def write (s : ChunkBufferedStream) (data : Bytes) : Except StoreError ChunkBufferedStream :=
  if s.sizeControl ∧ s.maxTotalDataSize < u64 (s.totalDataSize + data.length) then
    .error .dataBiggerThanDeclared
  else
    .ok { s with
      buf := s.buf ++ data
      bufSize := u64 (s.bufSize + data.length)
      totalDataSize := u64 (s.totalDataSize + data.length) }

/-- `ChunkBufferedStream::getFullChunk`. -/
def getFullChunk (s : ChunkBufferedStream) (pos : Nat) : Except StoreError Bytes :=
  substr s.buf (u64 (s.chunkSize * pos)) s.chunkSize

/-- `ChunkBufferedStream::freeFullChunks`. -/
def freeFullChunks (s : ChunkBufferedStream) : Except StoreError ChunkBufferedStream := do
  let buf ← substr s.buf (u64 (s.chunkSize * s.getNumberOfFullChunks)) s.buf.length
  return { s with
    buf := buf
    bufSize := sub64 s.bufSize (u64 (s.chunkSize * s.getNumberOfFullChunks)) }

/-- The bytes of a stream are replaced. -/
def setBuf (s : ChunkBufferedStream) (buf : Bytes) : ChunkBufferedStream :=
  { s with buf := buf, bufSize := buf.length }

/-- The size of the buffer is counted right. -/
structure Counted (s : ChunkBufferedStream) : Prop where
  chunkSize_pos : 0 < s.chunkSize
  bufSize_eq : s.bufSize = s.buf.length
  length_lt : s.buf.length < 2 ^ 64

section Counted

variable {s : ChunkBufferedStream}

theorem Counted.setBuf_self (h : s.Counted) : s.setBuf s.buf = s := by
  unfold setBuf
  rw [← h.bufSize_eq]

theorem Counted.getNumberOfFullChunks (h : s.Counted) :
    s.getNumberOfFullChunks = s.buf.length / s.chunkSize := by
  rw [ChunkBufferedStream.getNumberOfFullChunks, h.bufSize_eq]

theorem Counted.isEmpty (h : s.Counted) : s.isEmpty = true ↔ s.buf = [] := by
  rw [ChunkBufferedStream.isEmpty, h.bufSize_eq, beq_iff_eq, List.length_eq_zero_iff]

/-- A chunk that begins in the buffer. -/
theorem Counted.getFullChunk (h : s.Counted) {i : Nat} (hi : i * s.chunkSize ≤ s.buf.length) :
    s.getFullChunk i = .ok (block s.chunkSize s.buf i) := by
  have hlt := h.length_lt
  rw [ChunkBufferedStream.getFullChunk, Nat.mul_comm, u64_of_lt (by omega), substr_of_le _ hi]
  rfl

/-- What is left behind the full chunks. -/
theorem Counted.freeFullChunks (h : s.Counted) :
    s.freeFullChunks = .ok (s.setBuf (s.buf.drop (s.buf.length / s.chunkSize * s.chunkSize))) := by
  have hlt := h.length_lt
  have hle := Nat.div_mul_le_self s.buf.length s.chunkSize
  have hslice : slice s.buf (s.buf.length / s.chunkSize * s.chunkSize) s.buf.length =
      s.buf.drop (s.buf.length / s.chunkSize * s.chunkSize) := by
    simp [slice]
  unfold ChunkBufferedStream.freeFullChunks
  rw [h.getNumberOfFullChunks, Nat.mul_comm s.chunkSize, u64_of_lt (by omega), h.bufSize_eq,
    sub64_of_le hle hlt, substr_of_le _ hle, hslice, setBuf, List.length_drop]
  rfl

/-- A stream with at most one chunk is read to its end. -/
theorem Counted.readChunk (h : s.Counted) (hle : s.buf.length ≤ s.chunkSize) :
    s.readChunk = .ok (s.buf, s.setBuf []) := by
  have hall : slice s.buf 0 s.chunkSize = s.buf := by
    rw [slice, List.drop_zero, List.take_of_length_le hle]
  have hrest : slice s.buf s.buf.length s.buf.length = [] := by
    simp [slice]
  unfold ChunkBufferedStream.readChunk
  rw [h.bufSize_eq, Nat.min_eq_left hle]
  dsimp only
  rw [sub64_of_le (le_refl _) h.length_lt, Nat.sub_self, substr_of_le _ (Nat.zero_le _),
    substr_of_le _ (le_refl _), hall, hrest]
  rfl

/-- A stream takes what it has been declared for. -/
theorem Counted.write (h : s.Counted) {data : Bytes}
    (hfits : s.sizeControl = true → u64 (s.totalDataSize + data.length) ≤ s.maxTotalDataSize)
    (hroom : s.buf.length + data.length < 2 ^ 64) :
    s.write data = .ok
      { s.setBuf (s.buf ++ data) with totalDataSize := u64 (s.totalDataSize + data.length) } := by
  unfold ChunkBufferedStream.write
  rw [if_neg (fun hbig => absurd (hfits hbig.1) (Nat.not_le.mpr hbig.2)), h.bufSize_eq,
    u64_of_lt hroom, setBuf, List.length_append]

theorem Counted.setBuf (h : s.Counted) {buf : Bytes} (hlt : buf.length < 2 ^ 64) :
    (s.setBuf buf).Counted where
  chunkSize_pos := h.chunkSize_pos
  bufSize_eq := rfl
  length_lt := hlt

end Counted

end ChunkBufferedStream

/-- `server::FileDefinition`. -/
structure FileDefinition where
  size : Nat
  checksumSize : Nat
  randomWrite : Bool
  deriving Repr, DecidableEq

/-- `server::CreateRequestModel`, of one file. -/
structure CreateRequestModel where
  file : FileDefinition
  deriving Repr, DecidableEq

/-- `server::ChunkModel`. -/
structure ChunkModel where
  requestId : String
  fileIndex : Nat
  seq : Nat
  data : Bytes
  deriving Repr, DecidableEq

/-- `server::CommitFileModel`. -/
structure CommitFileModel where
  requestId : String
  fileIndex : Nat
  seq : Nat
  checksum : Bytes
  deriving Repr, DecidableEq

/-- `RequestApi`, the calls of the server that an upload makes. -/
structure RequestApi (σ : Type) where
  createRequest : CreateRequestModel → σ → Except StoreError String × σ
  sendChunk : ChunkModel → σ → Except StoreError Unit × σ
  commitFile : CommitFileModel → σ → Except StoreError Unit × σ

/-- `ChunksSentInfo`. -/
structure ChunksSentInfo where
  cipherType : Int
  key : Bytes
  hmac : Bytes
  chunkSize : Nat
  requestId : String
  deriving Repr, DecidableEq

/-- The fields of `ChunkStreamer`. -/
structure ChunkStreamer where
  chunkSize : Nat
  fileSize : Nat
  chunkBufferedStream : ChunkBufferedStream
  key : Bytes
  requestId : String
  uploadedFileSize : Nat
  seq : Nat
  dataProcessed : Nat
  checksums : Bytes
  fileIndex : Nat
  serverSeq : Nat
  deriving Repr, DecidableEq

/-- The constructor of `ChunkStreamer`. -/
def ChunkStreamer.create (chunkSize fileSize serverRequestChunkSize : Nat) : ChunkStreamer where
  chunkSize := chunkSize
  fileSize := fileSize
  chunkBufferedStream := ChunkBufferedStream.create serverRequestChunkSize none
  key := []
  requestId := ""
  uploadedFileSize := 0
  seq := 0
  dataProcessed := 0
  checksums := []
  fileIndex := 0
  serverSeq := 0

/-- `ChunkStreamer::prepareChunk`, the encryption that a `ChunkEncryptor` makes at the
index `_seq`. -/
def ChunkStreamer.prepareChunk (C : Primitives) (s : ChunkStreamer) (data : Bytes) (iv : Iv) :
    Chunk :=
  let chunkKey := C.sha256 (s.key ++ chunkIndexToBE s.seq)
  let ivWithCipher := iv.1 ++ C.aes256CbcPkcs7Encrypt data chunkKey iv.1
  let hmac := C.hmacSha256 chunkKey ivWithCipher
  { data := hmac ++ ivWithCipher, hmac := hmac }

/-- The fields of `FileWriteHandle`, with how many initialization vectors have been
drawn and the server of the requests. -/
structure Upload (σ : Type) where
  size : Nat
  stream : ChunkBufferedStream
  streamer : ChunkStreamer
  draws : Nat
  requests : σ

/-- The constructor of `FileWriteHandle`. -/
def FileWriteHandle.create {σ : Type} (size chunkSize serverRequestChunkSize : Nat) (requests : σ) :
    Upload σ where
  size := size
  stream := ChunkBufferedStream.create chunkSize (some size)
  streamer := ChunkStreamer.create chunkSize size serverRequestChunkSize
  draws := 0
  requests := requests

section Requests

variable {σ α : Type}

/-- A request to the server. -/
def request (call : σ → Except StoreError α × σ) : Prog StoreError (Upload σ) α :=
  ExceptT.mk fun s => ((call s.requests).1, { s with requests := (call s.requests).2 })

/-- A change of the streamer. -/
def modifyStreamer (f : ChunkStreamer → ChunkStreamer) : Prog StoreError (Upload σ) Unit :=
  modify fun s => { s with streamer := f s.streamer }

namespace ChunkStreamer

/-- `ChunkStreamer::createRequest`, with the key that is drawn. -/
def createRequest (A : RequestApi σ) (key : Bytes) (randomWriteSupport : Bool) :
    Prog StoreError (Upload σ) Unit := do
  modifyStreamer fun s => { s with key := key }
  let s ← get
  let size := getFileSize s.streamer.chunkSize s.streamer.fileSize
  modifyStreamer fun s => { s with fileIndex := 0 }
  let id ← request (A.createRequest
    { file :=
        { size := size.size
          checksumSize := size.checksumSize
          randomWrite := randomWriteSupport } })
  modifyStreamer fun s => { s with requestId := id }

/-- `ChunkStreamer::sendChunkToServer`. -/
def sendChunkToServer (A : RequestApi σ) (data : Bytes) : Prog StoreError (Upload σ) Unit := do
  let s ← get
  request (A.sendChunk
    { requestId := s.streamer.requestId
      fileIndex := s.streamer.fileIndex
      seq := s.streamer.serverSeq
      data := data })
  modifyStreamer fun s => { s with serverSeq := u64 (s.serverSeq + 1) }

/-- The loop of `ChunkStreamer::sendFullChunksWhileCollected`: `k` chunks from the
index `i` on. -/
def sendFullChunks (A : RequestApi σ) : Nat → Nat → Prog StoreError (Upload σ) Unit
  | 0, _ => pure ()
  | k + 1, i => do
      let s ← get
      let data ← lift (s.streamer.chunkBufferedStream.getFullChunk i)
      sendChunkToServer A data
      sendFullChunks A k (i + 1)

/-- `ChunkStreamer::sendFullChunksWhileCollected`. -/
def sendFullChunksWhileCollected (A : RequestApi σ) : Prog StoreError (Upload σ) Unit := do
  let s ← get
  let n := s.streamer.chunkBufferedStream.getNumberOfFullChunks
  sendFullChunks A n 0
  if 0 < n then
    let s ← get
    let stream ← lift s.streamer.chunkBufferedStream.freeFullChunks
    modifyStreamer fun s => { s with chunkBufferedStream := stream }

/-- `ChunkStreamer::sendLastChunkIfNonEmpty`.  The chunk is taken out of the stream
before it is sent. -/
def sendLastChunkIfNonEmpty (A : RequestApi σ) : Prog StoreError (Upload σ) Unit := do
  let s ← get
  if ¬ s.streamer.chunkBufferedStream.isEmpty then
    let (data, stream) ← lift s.streamer.chunkBufferedStream.readChunk
    modifyStreamer fun s => { s with chunkBufferedStream := stream }
    sendChunkToServer A data

/-- `ChunkStreamer::commitFile`. -/
def commitFile (A : RequestApi σ) : Prog StoreError (Upload σ) Unit := do
  sendFullChunksWhileCollected A
  sendLastChunkIfNonEmpty A
  let s ← get
  request (A.commitFile
    { requestId := s.streamer.requestId
      fileIndex := s.streamer.fileIndex
      seq := s.streamer.serverSeq
      checksum := s.streamer.checksums })

/-- `ChunkStreamer::prepareAndSendChunk`.  The index and the number of processed bytes
are counted up behind the requests. -/
def prepareAndSendChunk (C : Primitives) (A : RequestApi σ) (ivs : Nat → Iv) (data : Bytes) :
    Prog StoreError (Upload σ) Unit := do
  let s ← get
  if s.streamer.fileSize < u64 (s.streamer.dataProcessed + data.length) then
    throw .invalidFileChunkSize
  let encrypted := s.streamer.prepareChunk C data (ivs s.draws)
  modify fun s => { s with draws := s.draws + 1 }
  modifyStreamer fun s => { s with checksums := s.checksums ++ encrypted.hmac }
  let stream ← lift (s.streamer.chunkBufferedStream.write encrypted.data)
  modifyStreamer fun s => { s with chunkBufferedStream := stream }
  sendFullChunksWhileCollected A
  modifyStreamer fun s =>
    { s with dataProcessed := u64 (s.dataProcessed + data.length), seq := u32 (s.seq + 1) }

/-- `ChunkStreamer::sendChunk`. -/
def sendChunk (C : Primitives) (A : RequestApi σ) (ivs : Nat → Iv) (data : Bytes) :
    Prog StoreError (Upload σ) Unit := do
  let s ← get
  if data.length ≠ s.streamer.chunkSize then
    throw .invalidFileChunkSize
  modifyStreamer fun s => { s with uploadedFileSize := u64 (s.uploadedFileSize + data.length) }
  prepareAndSendChunk C A ivs data

/-- `ChunkStreamer::finalize`. -/
def finalize (C : Primitives) (A : RequestApi σ) (ivs : Nat → Iv) (data : Bytes) :
    Prog StoreError (Upload σ) ChunksSentInfo := do
  modifyStreamer fun s => { s with uploadedFileSize := u64 (s.uploadedFileSize + data.length) }
  if data ≠ [] then
    prepareAndSendChunk C A ivs data
  let s ← get
  if u64 (s.streamer.uploadedFileSize + data.length) < s.streamer.fileSize then
    throw .dataSmallerThanDeclared
  commitFile A
  let s ← get
  return { cipherType := 1
           key := s.streamer.key
           hmac := C.hmacSha256 s.streamer.key s.streamer.checksums
           chunkSize := s.streamer.chunkSize
           requestId := s.streamer.requestId }

end ChunkStreamer

namespace FileWriteHandle

/-- `FileWriteHandle::createRequestData`. -/
def createRequestData (A : RequestApi σ) (key : Bytes) (randomWriteSupport : Bool) :
    Prog StoreError (Upload σ) Unit :=
  ChunkStreamer.createRequest A key randomWriteSupport

/-- The loop of `FileWriteHandle::write`: `k` chunks from the index `i` on. -/
def sendCollected (C : Primitives) (A : RequestApi σ) (ivs : Nat → Iv) :
    Nat → Nat → Prog StoreError (Upload σ) Unit
  | 0, _ => pure ()
  | k + 1, i => do
      let s ← get
      let data ← lift (s.stream.getFullChunk i)
      ChunkStreamer.sendChunk C A ivs data
      sendCollected C A ivs k (i + 1)

/-- `FileWriteHandle::write`.  The full chunks stay in the stream until all of them
are sent. -/
def write (C : Primitives) (A : RequestApi σ) (ivs : Nat → Iv) (data : Bytes) :
    Prog StoreError (Upload σ) Unit := do
  let s ← get
  let stream ← lift (s.stream.write data)
  modify fun s => { s with stream := stream }
  sendCollected C A ivs stream.getNumberOfFullChunks 0
  let s ← get
  let stream ← lift s.stream.freeFullChunks
  modify fun s => { s with stream := stream }

/-- `FileWriteHandle::finalize`. -/
def finalize (C : Primitives) (A : RequestApi σ) (ivs : Nat → Iv) :
    Prog StoreError (Upload σ) ChunksSentInfo := do
  let s ← get
  if ¬ s.stream.isFullyFilled then
    throw .dataDifferentThanDeclared
  let (data, stream) ← lift s.stream.readChunk
  modify fun s => { s with stream := stream }
  let result ← ChunkStreamer.finalize C A ivs data
  modify fun s => { s with size := s.streamer.uploadedFileSize }
  return result

end FileWriteHandle

end Requests

end PrivmxEndpoint
