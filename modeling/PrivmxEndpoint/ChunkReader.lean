import PrivmxEndpoint.ChunkDataProvider
import PrivmxEndpoint.HmacList

/-!
# Reading decrypted chunks

`ChunkReader` fetches a chunk through the window cache, checks it against the
list of tags, decrypts it and keeps the last decrypted chunk.  `FileReader`
and `FileHandler` read a range by decrypting all chunks it touches and cutting
the range out of their concatenation; that loop is `ChunkReader.read` here.

The objects that the source shares through pointers (data provider, encryptor
and tag list) are fields of the reader, and a call that throws returns the
state it leaves behind next to the error.
-/

namespace PrivmxEndpoint

open Word

/-- `ChunkReader::DecryptedChunk`. -/
structure DecryptedChunk where
  decryptedData : Bytes
  index : Nat
  deriving Repr, DecidableEq

/-- The fields of `ChunkReader`. -/
structure ChunkReader where
  chunkDataProvider : ChunkDataProvider
  chunkEncryptor : ChunkEncryptor
  hashList : HmacList
  version : Int
  lastChunk : Option DecryptedChunk
  deriving Repr, DecidableEq

/-- The constructor of `ChunkReader`, which compares the size on the server
with the one predicted from the plain size. -/
def ChunkReader.create (chunkDataProvider : ChunkDataProvider) (chunkEncryptor : ChunkEncryptor)
    (hashList : HmacList) (decryptionParams : FileDecryptionParams) :
    Except StoreError ChunkReader :=
  if decryptionParams.sizeOnServer ≠
        chunkEncryptor.getEncryptedFileSize decryptionParams.originalSize ∧
      decryptionParams.originalSize ≠ 0 then
    .error .fileCorrupted
  else
    .ok
      { chunkDataProvider := chunkDataProvider
        chunkEncryptor := chunkEncryptor
        hashList := hashList
        version := decryptionParams.version
        lastChunk := none }

/-- `ChunkReader::filePosToFileChunkIndex`. -/
def ChunkReader.filePosToFileChunkIndex (r : ChunkReader) (position : Nat) : Nat :=
  position / r.chunkEncryptor.getPlainChunkSize

/-- `ChunkReader::filePosToPosInFileChunk`. -/
def ChunkReader.filePosToPosInFileChunk (r : ChunkReader) (position : Nat) : Nat :=
  position % r.chunkEncryptor.getPlainChunkSize

/-- `ChunkReader::sync`. -/
def ChunkReader.sync (r : ChunkReader) (newParms : FileDecryptionParams) : ChunkReader :=
  { r with version := newParms.version, lastChunk := none }

/-- `ChunkReader::update`. -/
def ChunkReader.update (r : ChunkReader) (newfileVersion : Int) (index : Nat) : ChunkReader :=
  { r with
    version := newfileVersion
    lastChunk := if r.lastChunk.any (·.index = index) then none else r.lastChunk }

/-- The tag of a chunk is looked up and the chunk decrypted under it. -/
def ChunkReader.decryptWithHash (C : Primitives) (r : ChunkReader) (index : Nat)
    (data : Bytes) : Except StoreError Bytes :=
  match r.hashList.getHash index with
  | .error e => .error e
  | .ok hmac => r.chunkEncryptor.decrypt C index { data := data, hmac := hmac }

section Calls

variable {σ : Type}

/-- The part of `ChunkReader::getDecryptedChunk` that runs when another chunk
is kept. -/
def ChunkReader.fetchChunk (C : Primitives) (B : Bridge σ) (r : ChunkReader) (index : Nat)
    (s : σ) : Except StoreError Bytes × ChunkReader × σ :=
  match r.chunkDataProvider.getChunk B (u32 index) r.version s with
  | (.error e, p, s) => (.error e, { r with chunkDataProvider := p }, s)
  | (.ok chunk, p, s) =>
      match r.decryptWithHash C index chunk with
      | .error e => (.error e, { r with chunkDataProvider := p }, s)
      | .ok plain =>
          (.ok plain,
            { r with
              chunkDataProvider := p
              lastChunk := some { decryptedData := plain, index := index } }, s)

/-- `ChunkReader::getDecryptedChunk`. -/
def ChunkReader.getDecryptedChunk (C : Primitives) (B : Bridge σ) (r : ChunkReader)
    (index : Nat) (s : σ) : Except StoreError Bytes × ChunkReader × σ :=
  match r.lastChunk with
  | none => r.fetchChunk C B index s
  | some c =>
      if c.index = index then (.ok c.decryptedData, r, s) else r.fetchChunk C B index s

/-- The loop that appends `count` decrypted chunks from `index` on. -/
def ChunkReader.getDecryptedChunks (C : Primitives) (B : Bridge σ) :
    (count : Nat) → (index : Nat) → ChunkReader → σ →
      Except StoreError Bytes × ChunkReader × σ
  | 0, _, r, s => (.ok [], r, s)
  | count + 1, index, r, s =>
      match r.getDecryptedChunk C B index s with
      | (.error e, r, s) => (.error e, r, s)
      | (.ok chunk, r, s) =>
          match ChunkReader.getDecryptedChunks C B count (index + 1) r s with
          | (.error e, r, s) => (.error e, r, s)
          | (.ok data, r, s) => (.ok (chunk ++ data), r, s)

/-- The common body of `FileReader::read` and `FileHandler::read`. -/
def ChunkReader.read (C : Primitives) (B : Bridge σ) (r : ChunkReader)
    (plainfileSize pos length : Nat) (s : σ) : Except StoreError Bytes × ChunkReader × σ :=
  if pos ≥ plainfileSize then
    (.ok [], r, s)
  else
    let length := if u64 (pos + length) > plainfileSize then plainfileSize - pos else length
    if length = 0 then
      (.ok [], r, s)
    else
      let startIndex := r.filePosToFileChunkIndex pos
      let stopIndex := r.filePosToFileChunkIndex (u64 (pos + length - 1))
      match ChunkReader.getDecryptedChunks C B (stopIndex + 1 - startIndex) startIndex r s with
      | (.error e, r, s) => (.error e, r, s)
      | (.ok data, r, s) => (substr data (r.filePosToPosInFileChunk pos) length, r, s)

end Calls

end PrivmxEndpoint
