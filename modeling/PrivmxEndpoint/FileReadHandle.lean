import PrivmxEndpoint.ChunkReader

/-!
# The read handle

`FileReader` adds the plain size to a `ChunkReader`; `FileReadHandle` wires
all objects together for a set of decryption parameters, keeps a read position
and can be brought to new parameters by `sync`.
-/

namespace PrivmxEndpoint

open Word

/-- The fields of `FileReader`. -/
structure FileReader where
  chunkReader : ChunkReader
  plainfileSize : Nat
  deriving Repr, DecidableEq

/-- The fields of `FileReadHandle`.  The encryptor, the data provider and the
tag list it also points to are those of the chunk reader. -/
structure FileReadHandle where
  fileReader : FileReader
  size : Nat
  pos : Nat
  deriving Repr, DecidableEq

/-- The constructor of `FileReader`. -/
def FileReader.create (chunkReader : ChunkReader) (decryptionParams : FileDecryptionParams) :
    FileReader where
  chunkReader := chunkReader
  plainfileSize := decryptionParams.originalSize

/-- `FileReader::sync`. -/
def FileReader.sync (f : FileReader) (newParms : FileDecryptionParams) : FileReader :=
  { f with plainfileSize := newParms.originalSize }

section Calls

variable {σ : Type}

/-- `FileReader::read`. -/
def FileReader.read (C : Primitives) (B : Bridge σ) (f : FileReader) (pos length : Nat)
    (s : σ) : Except StoreError Bytes × FileReader × σ :=
  match f.chunkReader.read C B f.plainfileSize pos length s with
  | (result, r, s) => (result, { f with chunkReader := r }, s)

/-- The objects that both constructors of file handles build from decryption
parameters. -/
def openChunkReader (C : Primitives) (B : Bridge σ) (decryptionParams : FileDecryptionParams)
    (serverChunkSize : Nat) (s : σ) : Except StoreError ChunkReader × σ :=
  let chunkEncryptor : ChunkEncryptor :=
    { key := decryptionParams.key, chunkSize := decryptionParams.chunkSize }
  let chunkDataProvider := ChunkDataProvider.create chunkEncryptor.getEncryptedChunkSize
    serverChunkSize decryptionParams.fileId decryptionParams.sizeOnServer decryptionParams.version
  match chunkDataProvider.getCurrentChecksumsFromBridge B s with
  | (.error e, s) => (.error e, s)
  | (.ok checksums, s) =>
      match HmacList.create C decryptionParams.key decryptionParams.hmac checksums with
      | .error e => (.error e, s)
      | .ok hashList =>
          (ChunkReader.create chunkDataProvider chunkEncryptor hashList decryptionParams, s)

/-- The constructor of `FileReadHandle`. -/
def FileReadHandle.create (C : Primitives) (B : Bridge σ)
    (decryptionParams : FileDecryptionParams) (serverChunkSize : Nat) (s : σ) :
    Except StoreError FileReadHandle × σ :=
  match openChunkReader C B decryptionParams serverChunkSize s with
  | (.error e, s) => (.error e, s)
  | (.ok chunkReader, s) =>
      (.ok
        { fileReader := FileReader.create chunkReader decryptionParams
          size := decryptionParams.originalSize
          pos := 0 }, s)

/-- `FileReadHandle::sync`. -/
def FileReadHandle.sync (C : Primitives) (B : Bridge σ) (h : FileReadHandle)
    (newDecryptionParams : FileDecryptionParams) (s : σ) :
    Except StoreError Unit × FileReadHandle × σ :=
  let r := h.fileReader.chunkReader
  if newDecryptionParams.sizeOnServer ≠
      r.chunkEncryptor.getEncryptedFileSize newDecryptionParams.originalSize then
    (.error .fileCorrupted, h, s)
  else
    let r := { r with
      chunkEncryptor :=
        r.chunkEncryptor.sync newDecryptionParams.key newDecryptionParams.chunkSize }
    let h := { h with fileReader := { h.fileReader with chunkReader := r } }
    match r.chunkDataProvider.getCurrentChecksumsFromBridge B s with
    | (.error e, s) => (.error e, h, s)
    | (.ok checksums, s) =>
        match r.hashList.sync C newDecryptionParams.key newDecryptionParams.hmac checksums with
        | .error e => (.error e, h, s)
        | .ok hashList =>
            let r := { r with
              hashList := hashList
              chunkDataProvider := r.chunkDataProvider.sync newDecryptionParams.version
                newDecryptionParams.sizeOnServer none none }
            let f := { h.fileReader with chunkReader := r.sync newDecryptionParams }
            (.ok (),
              { h with
                fileReader := f.sync newDecryptionParams
                size := newDecryptionParams.originalSize }, s)

/-- `FileReadHandle::read`. -/
def FileReadHandle.read (C : Primitives) (B : Bridge σ) (h : FileReadHandle) (length : Nat)
    (s : σ) : Except StoreError Bytes × FileReadHandle × σ :=
  match h.fileReader.read C B h.pos length s with
  | (.error e, f, s) => (.error e, { h with fileReader := f }, s)
  | (.ok result, f, s) => (.ok result, { h with fileReader := f, pos := u64 (h.pos + length) }, s)

end Calls

/-- `FileReadHandle::seek`. -/
def FileReadHandle.seek (h : FileReadHandle) (pos : Nat) : Except StoreError FileReadHandle :=
  if h.size ≤ pos then .error (.posOutOfBounds "") else .ok { h with pos := pos }

end PrivmxEndpoint
