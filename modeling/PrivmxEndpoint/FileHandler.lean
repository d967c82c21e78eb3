import PrivmxEndpoint.FileReadHandle

/-!
# The random-access handle

`FileHandler` writes at any position of an encrypted file.  A write decrypts
and re-encrypts the chunks it touches, replaces their tags, sends the changed
ranges to the server in batches, and on success moves the size counters, the
version and both caches along.  `FileHandlerImpl` adds a read and a write
position.

A write is cut into the three stretches that a failure separates:
`prepareWrite` up to the first request, `sendAll` for the requests, and
`finishWrite` behind them.  Fresh initialization vectors and the encryption of
the meta are arguments of a write.
-/

namespace PrivmxEndpoint

open Word

/-- `FileHandler::SERVER_OPERATIONS_LIMIT`. -/
def SERVER_OPERATIONS_LIMIT : Nat := 4

/-- `FileHandler::SERVER_OPERATION_SIZE_LIMIT`. -/
def SERVER_OPERATION_SIZE_LIMIT : Nat := 512 * 1024

/-- `FileHandler::UpdateChunkData`. -/
structure UpdateChunkData where
  chunk : Chunk
  chunkIndex : Nat
  plainfileSizeChange : Int
  encryptedFileSizeChange : Int
  deriving Repr, DecidableEq

/-- `FileHandler::UpdateChanges`. -/
structure UpdateChanges where
  data : Bytes
  dataPos : Nat
  checksum : Bytes
  checksumPos : Nat
  deriving Repr, DecidableEq

/-- The fields of `FileHandler`.  Data provider, encryptor and tag list are
those of the chunk reader. -/
structure FileHandler where
  chunkReader : ChunkReader
  plainfileSize : Nat
  encryptedFileSize : Nat
  version : Int
  fileInfo : FileInfo
  fileMeta : FileMeta
  fileEncKey : DecryptedEncKey
  plainChunkSize : Nat
  encryptedChunkSize : Nat
  deriving Repr, DecidableEq

/-- The constructor of `FileHandler`. -/
def FileHandler.create (chunkReader : ChunkReader) (plainfileSize encryptedFileSize : Nat)
    (version : Int) (fileInfo : FileInfo) (fileMeta : FileMeta) (fileEncKey : DecryptedEncKey) :
    FileHandler where
  chunkReader := chunkReader
  plainfileSize := plainfileSize
  encryptedFileSize := encryptedFileSize
  version := version
  fileInfo := fileInfo
  fileMeta := fileMeta
  fileEncKey := fileEncKey
  plainChunkSize := chunkReader.chunkEncryptor.getPlainChunkSize
  encryptedChunkSize := chunkReader.chunkEncryptor.getEncryptedChunkSize

/-- The handler with another data provider. -/
def FileHandler.withProvider (h : FileHandler) (p : ChunkDataProvider) : FileHandler :=
  { h with chunkReader := { h.chunkReader with chunkDataProvider := p } }

/-- The handler with another tag list. -/
def FileHandler.withHashList (h : FileHandler) (l : HmacList) : FileHandler :=
  { h with chunkReader := { h.chunkReader with hashList := l } }

/-- `FileHandler::getFileSize`. -/
def FileHandler.getFileSize (h : FileHandler) : Nat :=
  h.plainfileSize

/-- The plain text that `createUpdateChunk` puts into a chunk. -/
def mergeChunk (prevChunk : Bytes) (chunkOffset : Nat) (data : Bytes) (truncate : Bool) : Bytes :=
  (if chunkOffset > 0 then
    prevChunk.take chunkOffset ++
      if chunkOffset > prevChunk.length then
        List.replicate (chunkOffset - prevChunk.length) 0
      else []
  else []) ++ data ++
    if prevChunk.length > chunkOffset + data.length ∧ truncate = false then
      prevChunk.drop (chunkOffset + data.length)
    else []

/-- The old text of a chunk; a chunk that the server does not have is empty. -/
def ChunkReader.decryptPrevious (C : Primitives) (r : ChunkReader) (index : Nat)
    (prevEncryptedChunk : Bytes) : Except StoreError Bytes :=
  if prevEncryptedChunk.length ≠ 0 then r.decryptWithHash C index prevEncryptedChunk else .ok []

/-- The record that `createUpdateChunk` returns for a new chunk text. -/
def FileHandler.updateChunkData (C : Primitives) (h : FileHandler) (index : Nat)
    (prevEncryptedChunk prevChunk newChunk : Bytes) (truncate : Bool) (iv : Iv) :
    UpdateChunkData :=
  let chunk := h.chunkReader.chunkEncryptor.encrypt C index newChunk iv
  { chunk := chunk
    chunkIndex := index
    plainfileSizeChange :=
      if truncate then
        toInt64 (index * h.plainChunkSize + newChunk.length) -
          max (toInt64 h.plainfileSize) (toInt64 (index * h.plainChunkSize))
      else
        toInt64 newChunk.length - toInt64 prevChunk.length
    encryptedFileSizeChange :=
      if truncate then
        toInt64 (index * h.encryptedChunkSize + chunk.data.length) -
          max (toInt64 h.encryptedFileSize) (toInt64 (index * h.encryptedChunkSize))
      else
        toInt64 chunk.data.length - toInt64 prevEncryptedChunk.length }

/-- A new change for one chunk. -/
def FileHandler.updateChange (h : FileHandler) (u : UpdateChunkData) : UpdateChanges where
  data := u.chunk.data
  dataPos := u64 (u.chunkIndex * h.encryptedChunkSize)
  checksum := u.chunk.hmac
  checksumPos := u64 (u.chunkIndex * h.chunkReader.hashList.getHashSize)

/-- The loop of `createListOfUpdateChangesFromUpdateChunkData` with the change
that is still open. -/
def FileHandler.squash (h : FileHandler) (open_ : UpdateChanges) :
    List UpdateChunkData → List UpdateChanges
  | [] => [open_]
  | u :: us =>
      if u64 (open_.dataPos + open_.data.length) = u64 (u.chunkIndex * h.encryptedChunkSize) ∧
          open_.data.length + u.chunk.data.length < SERVER_OPERATION_SIZE_LIMIT then
        h.squash
          { open_ with
            data := open_.data ++ u.chunk.data
            checksum := open_.checksum ++ u.chunk.hmac } us
      else
        open_ :: h.squash (h.updateChange u) us

/-- `FileHandler::createListOfUpdateChangesFromUpdateChunkData`. -/
def FileHandler.createListOfUpdateChangesFromUpdateChunkData (h : FileHandler) :
    List UpdateChunkData → List UpdateChanges
  | [] => []
  | u :: us => h.squash (h.updateChange u) us

/-- The two operations of one change. -/
def changeOperations (c : UpdateChanges) (truncate : Bool) :
    List StoreFileRandomWriteOperation :=
  [{ type := .file, pos := toInt64 c.dataPos, data := c.data, truncate := truncate },
    { type := .checksum, pos := toInt64 c.checksumPos, data := c.checksum, truncate := truncate }]

/-- The operations of all changes: the last change carries the flag of the
write, the others carry `true`. -/
def operationsByChange (truncate : Bool) :
    List UpdateChanges → List (List StoreFileRandomWriteOperation)
  | [] => []
  | [c] => [changeOperations c truncate]
  | c :: cs => changeOperations c true :: operationsByChange truncate cs

/-- The rest of the loops of `updateOnServer`: the operations of a batch so far, the number
of changes that it has room for, and the operations of the changes that are left. -/
def batchesFrom (operations : List StoreFileRandomWriteOperation) :
    (room : Nat) → List (List StoreFileRandomWriteOperation) →
      List (List StoreFileRandomWriteOperation)
  | _, [] => [operations]
  | 0, change :: rest => operations :: batchesFrom change (SERVER_OPERATIONS_LIMIT / 2 - 1) rest
  | room + 1, change :: rest => batchesFrom (operations ++ change) room rest

/-- The batches of `SERVER_OPERATIONS_LIMIT / 2` changes. -/
def batches : List (List StoreFileRandomWriteOperation) →
    List (List StoreFileRandomWriteOperation)
  | [] => []
  | change :: rest => batchesFrom change (SERVER_OPERATIONS_LIMIT / 2 - 1) rest

/-- The requests that `updateOnServer` sends one after another. -/
def FileHandler.writeRequests (h : FileHandler) (updatedChunks : List UpdateChanges)
    (updatedMeta : EncryptedMeta) (encKeyId : String) (truncate : Bool) :
    List StoreFileWriteModelByOperations :=
  (batches (operationsByChange truncate updatedChunks)).map fun operations =>
    { fileId := h.fileInfo.fileId
      operations := operations
      encryptedMeta := updatedMeta
      keyId := encKeyId
      version := h.version
      force := false }

/-- The loop that replaces the tags of the updated chunks; an exception leaves
the tags set before it. -/
def setHashes (truncate : Bool) :
    List UpdateChunkData → HmacList → Except StoreError Unit × HmacList
  | [], l => (.ok (), l)
  | [u], l =>
      match l.set u.chunkIndex u.chunk.hmac truncate with
      | .error e => (.error e, l)
      | .ok l => (.ok (), l)
  | u :: us, l =>
      match l.set u.chunkIndex u.chunk.hmac false with
      | .error e => (.error e, l)
      | .ok l => setHashes truncate us l

/-- Everything a write has computed when it turns to the server. -/
structure PreparedWrite where
  chunksToUpdate : List UpdateChunkData
  oldHashList : Bytes
  squashedChunksToUpdate : List UpdateChanges
  newFileMeta : FileMeta
  newMeta : EncryptedMeta
  newPlainfileSize : Nat
  newEncryptedFileSize : Nat
  deriving Repr, DecidableEq

/-- The end of a successful write: counters, meta, version and both caches. -/
def FileHandler.finishWrite (h : FileHandler) (w : PreparedWrite) (truncate : Bool) :
    FileHandler :=
  { h with
    version := h.version + 1
    fileMeta := w.newFileMeta
    plainfileSize := w.newPlainfileSize
    encryptedFileSize := w.newEncryptedFileSize
    chunkReader := w.chunksToUpdate.foldl (fun r u =>
      ({ r with
        chunkDataProvider := r.chunkDataProvider.update (h.version + 1) (u32 u.chunkIndex)
          u.chunk.data w.newEncryptedFileSize truncate } : ChunkReader).update
            (h.version + 1) u.chunkIndex) h.chunkReader }

/-- Exceptions that `write` catches in order to restore the tag list. -/
def StoreError.isPrivmxException : StoreError → Bool
  | .outOfRange => false
  | .divisionByZero => false
  | _ => true

/-- The encryption of a file meta, `FileMetaEncryptor::encrypt`. -/
abbrev EncryptMeta := FileInfo → FileMeta → DecryptedEncKey → Except StoreError EncryptedMeta

section Calls

variable {σ : Type}

/-- `FileHandler::createUpdateChunk`. -/
def FileHandler.createUpdateChunk (C : Primitives) (B : Bridge σ) (h : FileHandler)
    (index chunkOffset : Nat) (data : Bytes) (truncate : Bool) (iv : Iv) (s : σ) :
    Except StoreError UpdateChunkData × FileHandler × σ :=
  if chunkOffset + data.length > h.plainChunkSize then
    (.error (.fileRandomWriteInternal "Given data with offset won't fit Chunk"), h, s)
  else
    match h.chunkReader.chunkDataProvider.getChunk B (u32 index) h.version s with
    | (.error e, p, s) => (.error e, h.withProvider p, s)
    | (.ok prevEncryptedChunk, p, s) =>
        match h.chunkReader.decryptPrevious C index prevEncryptedChunk with
        | .error e => (.error e, h.withProvider p, s)
        | .ok prevChunk =>
            (.ok (h.updateChunkData C index prevEncryptedChunk prevChunk
              (mergeChunk prevChunk chunkOffset data truncate) truncate iv),
              h.withProvider p, s)

/-- The loop of `write` that prepares `count` chunks from `i` on, with
`dataSend` bytes of `toSend` used already. -/
def FileHandler.createUpdateChunks (C : Primitives) (B : Bridge σ) (ivs : Nat → Iv)
    (offset : Nat) (toSend : Bytes) (startIndex stopIndex : Nat) (truncate : Bool) :
    (count : Nat) → (i dataSend : Nat) → FileHandler → σ →
      Except StoreError (List UpdateChunkData) × FileHandler × σ
  | 0, _, _, h, s => (.ok [], h, s)
  | count + 1, i, dataSend, h, s =>
      let chunkOffset :=
        if i = startIndex then offset % h.chunkReader.chunkEncryptor.getPlainChunkSize else 0
      let size :=
        if i = startIndex then h.plainChunkSize - offset % h.plainChunkSize
        else h.plainChunkSize
      match substr toSend dataSend size with
      | .error e => (.error e, h, s)
      | .ok chunkData =>
          match h.createUpdateChunk C B i chunkOffset chunkData
              (if i = stopIndex then truncate else false) (ivs i) s with
          | (.error e, h, s) => (.error e, h, s)
          | (.ok u, h, s) =>
              match FileHandler.createUpdateChunks C B ivs offset toSend startIndex stopIndex
                  truncate count (i + 1) (dataSend + chunkData.length) h s with
              | (.error e, h, s) => (.error e, h, s)
              | (.ok us, h, s) => (.ok (u :: us), h, s)

/-- `FileHandler::write` up to the first request. -/
def FileHandler.prepareWrite (C : Primitives) (B : Bridge σ) (ivs : Nat → Iv)
    (encryptMeta : EncryptMeta) (h : FileHandler) (offset : Nat) (data : Bytes)
    (truncate : Bool) (s : σ) : Except StoreError PreparedWrite × FileHandler × σ :=
  let toSend :=
    if h.plainfileSize < offset then List.replicate (offset - h.plainfileSize) 0 ++ data
    else data
  let offset := if h.plainfileSize < offset then h.plainfileSize else offset
  let startIndex := h.chunkReader.filePosToFileChunkIndex offset
  let stopIndex := h.chunkReader.filePosToFileChunkIndex
    (u64 (offset + toSend.length - if data.length = 0 then 0 else 1))
  match FileHandler.createUpdateChunks C B ivs offset toSend startIndex stopIndex truncate
      (stopIndex + 1 - startIndex) startIndex 0 h s with
  | (.error e, h, s) => (.error e, h, s)
  | (.ok chunksToUpdate, h, s) =>
      let oldHashList := h.chunkReader.hashList.getAll
      match setHashes truncate chunksToUpdate h.chunkReader.hashList with
      | (.error e, l) => (.error e, h.withHashList l, s)
      | (.ok (), l) =>
          let newPlainfileSize :=
            (chunksToUpdate.map (·.plainfileSizeChange)).foldl addInt64 h.plainfileSize
          let newEncryptedFileSize :=
            (chunksToUpdate.map (·.encryptedFileSizeChange)).foldl addInt64 h.encryptedFileSize
          let squashed := h.createListOfUpdateChangesFromUpdateChunkData chunksToUpdate
          let newFileMeta : FileMeta :=
            { h.fileMeta with
              internalFileMeta :=
                { h.fileMeta.internalFileMeta with
                  hmac := C.base64From (l.getTopHash C).1
                  size := toInt64 newPlainfileSize } }
          let h := h.withHashList (l.getTopHash C).2
          match encryptMeta h.fileInfo newFileMeta h.fileEncKey with
          | .error e => (.error e, h, s)
          | .ok newMeta =>
              (.ok
                { chunksToUpdate := chunksToUpdate
                  oldHashList := oldHashList
                  squashedChunksToUpdate := squashed
                  newFileMeta := newFileMeta
                  newMeta := newMeta
                  newPlainfileSize := newPlainfileSize
                  newEncryptedFileSize := newEncryptedFileSize }, h, s)

/-- The requests of `updateOnServer` until one of them fails. -/
def sendAll (B : Bridge σ) :
    List StoreFileWriteModelByOperations → σ → Except StoreError Unit × σ
  | [], s => (.ok (), s)
  | req :: reqs, s =>
      match B.storeFileWrite req s with
      | (.error e, s) => (.error e, s)
      | (.ok (), s) => sendAll B reqs s

/-- `FileHandler::write`. -/
def FileHandler.write (C : Primitives) (B : Bridge σ) (ivs : Nat → Iv)
    (encryptMeta : EncryptMeta) (h : FileHandler) (offset : Nat) (data : Bytes)
    (truncate : Bool) (s : σ) : Except StoreError Unit × FileHandler × σ :=
  match h.prepareWrite C B ivs encryptMeta offset data truncate s with
  | (.error e, h, s) => (.error e, h, s)
  | (.ok w, h, s) =>
      match sendAll B (h.writeRequests w.squashedChunksToUpdate w.newMeta h.fileEncKey.id
          truncate) s with
      | (.ok (), s) => (.ok (), h.finishWrite w truncate, s)
      | (.error e, s) =>
          if e.isPrivmxException then
            match h.chunkReader.hashList.setAll w.oldHashList with
            | .error e => (.error e, h, s)
            | .ok l => (.error e, h.withHashList l, s)
          else
            (.error e, h, s)

/-- `FileHandler::read`. -/
def FileHandler.read (C : Primitives) (B : Bridge σ) (h : FileHandler) (offset size : Nat)
    (s : σ) : Except StoreError Bytes × FileHandler × σ :=
  match h.chunkReader.read C B h.plainfileSize offset size s with
  | (result, r, s) => (result, { h with chunkReader := r }, s)

/-- `FileHandler::sync`. -/
def FileHandler.sync (C : Primitives) (B : Bridge σ) (h : FileHandler) (fileMeta : FileMeta)
    (newParms : FileDecryptionParams) (fileEncKey : DecryptedEncKey) (s : σ) :
    Except StoreError Unit × FileHandler × σ :=
  let r := h.chunkReader
  match r.chunkDataProvider.getCurrentChecksumsFromBridge B s with
  | (.error e, s) => (.error e, h, s)
  | (.ok checksums, s) =>
      match r.hashList.sync C newParms.key newParms.hmac checksums with
      | .error e => (.error e, h, s)
      | .ok hashList =>
          let r := { r with
            hashList := hashList
            chunkDataProvider :=
              r.chunkDataProvider.sync h.version h.encryptedFileSize none none }
          (.ok (),
            { h with
              chunkReader := r.sync newParms
              fileMeta := fileMeta
              version := newParms.version
              plainfileSize := newParms.originalSize
              encryptedFileSize := newParms.sizeOnServer
              fileEncKey := fileEncKey }, s)

end Calls

/-- The fields of `FileHandlerImpl`. -/
structure FileHandlerImpl where
  file : FileHandler
  readPos : Nat
  writePos : Nat
  deriving Repr, DecidableEq

/-- `FileHandlerImpl::size`. -/
def FileHandlerImpl.size (f : FileHandlerImpl) : Nat :=
  f.file.getFileSize

/-- `FileHandlerImpl::seekg`. -/
def FileHandlerImpl.seekg (f : FileHandlerImpl) (pos : Nat) : Except StoreError FileHandlerImpl :=
  if pos > f.file.getFileSize then .error (.posOutOfBounds "seekg out of bounds")
  else .ok { f with readPos := pos }

/-- `FileHandlerImpl::seekp`. -/
def FileHandlerImpl.seekp (f : FileHandlerImpl) (pos : Nat) : Except StoreError FileHandlerImpl :=
  if pos > f.file.getFileSize then .error (.posOutOfBounds "seekg out of bounds")
  else .ok { f with writePos := pos }

section Calls

variable {σ : Type}

/-- `FileHandlerImpl::read`. -/
def FileHandlerImpl.read (C : Primitives) (B : Bridge σ) (f : FileHandlerImpl) (length : Nat)
    (s : σ) : Except StoreError Bytes × FileHandlerImpl × σ :=
  match f.file.read C B f.readPos length s with
  | (.error e, h, s) => (.error e, { f with file := h }, s)
  | (.ok buf, h, s) => (.ok buf, { f with file := h, readPos := u64 (f.readPos + buf.length) }, s)

/-- `FileHandlerImpl::write`. -/
def FileHandlerImpl.write (C : Primitives) (B : Bridge σ) (ivs : Nat → Iv)
    (encryptMeta : EncryptMeta) (f : FileHandlerImpl) (chunk : Bytes) (truncate : Bool) (s : σ) :
    Except StoreError Unit × FileHandlerImpl × σ :=
  match f.file.write C B ivs encryptMeta f.writePos chunk truncate s with
  | (.error e, h, s) => (.error e, { f with file := h }, s)
  | (.ok (), h, s) => (.ok (), { f with file := h, writePos := u64 (f.writePos + chunk.length) }, s)

/-- `FileHandlerImpl::sync`. -/
def FileHandlerImpl.sync (C : Primitives) (B : Bridge σ) (f : FileHandlerImpl)
    (fileMeta : FileMeta) (newParms : FileDecryptionParams) (fileEncKey : DecryptedEncKey)
    (s : σ) : Except StoreError Unit × FileHandlerImpl × σ :=
  match f.file.sync C B fileMeta newParms fileEncKey s with
  | (result, h, s) => (result, { f with file := h }, s)

/-- The constructor of `FileReadWriteHandle`. -/
def FileReadWriteHandle.create (C : Primitives) (B : Bridge σ) (fileInfo : FileInfo)
    (encryptionParams : FileEncryptionParams) (serverChunkSize : Nat) (s : σ) :
    Except StoreError FileHandlerImpl × σ :=
  let params := encryptionParams.fileDecryptionParams
  match openChunkReader C B params serverChunkSize s with
  | (.error e, s) => (.error e, s)
  | (.ok chunkReader, s) =>
      (.ok
        { file := FileHandler.create chunkReader params.originalSize params.sizeOnServer
            params.version fileInfo encryptionParams.fileMeta encryptionParams.encKey
          readPos := 0
          writePos := 0 }, s)

end Calls

end PrivmxEndpoint
