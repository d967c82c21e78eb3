import PrivmxEndpoint.ListSplice
import PrivmxEndpoint.MachineWords

/-!
# Data model of the store module

The records that travel between the file handles, the encryptors and the
bridge server, and the interface of the server itself.  Byte strings are lists
of bytes.  An exception of the source is a constructor of `StoreError`; the
standard library's `std::out_of_range` and a division by zero are errors too,
so that a call which would end in one of them does not count as successful.

The server is a state machine (`Bridge`): what it answers may depend on
everything it has seen, so an honest server and a malicious one are instances
of the same interface.
-/

namespace PrivmxEndpoint

/-- A byte string (`std::string`, `core::Buffer`). -/
abbrev Bytes := List UInt8

instance instLawfulBEqBytes : LawfulBEq Bytes := inferInstance

/-- `IV_SIZE`, `HMAC_SIZE` and `CHUNK_PADDING` of `StoreTypes.hpp`. -/
def IV_SIZE : Nat := 16

@[inherit_doc IV_SIZE]
def HMAC_SIZE : Nat := 32

@[inherit_doc IV_SIZE]
def CHUNK_PADDING : Nat := 16

/-- The exceptions raised by the modelled code. -/
inductive StoreError
  | fileCorrupted
  | invalidFileTopHash
  | invalidHashSize
  | hashIndexOutOfBounds
  | fileChunkInvalidChecksum
  | fileChunkInvalidCipherChecksum
  | fileRandomWriteInternal (message : String)
  | posOutOfBounds (message : String)
  | fileVersionMismatch
  | invalidFileChunkSize
  | dataBiggerThanDeclared
  | dataSmallerThanDeclared
  | dataDifferentThanDeclared
  | unknownEncryptionKeyVersion
  /-- A failure inside the cryptographic library. -/
  | crypto
  /-- The server's `STORE_FILE_VERSION_MISMATCH`. -/
  | storeFileVersionMismatch
  /-- Any other failure reported by the server or the transport. -/
  | server (code : Nat)
  /-- `std::out_of_range`. -/
  | outOfRange
  | divisionByZero
  deriving Repr, DecidableEq

/-- `std::string::substr`, which throws for a position behind the end. -/
def substr (s : Bytes) (pos n : Nat) : Except StoreError Bytes :=
  if pos ≤ s.length then .ok (Splice.slice s pos n) else .error .outOfRange

theorem substr_of_le {s : Bytes} {pos : Nat} (n : Nat) (h : pos ≤ s.length) :
    substr s pos n = .ok (Splice.slice s pos n) := by
  rw [substr, if_pos h]

/-- `server::BufferReadRange` and `server::BufferReadRangeSlice`. -/
inductive BufferReadRange
  | checksum
  | slice (fromPos toPos : Int)
  deriving Repr, DecidableEq

/-- `server::StoreFileReadModel`. -/
structure StoreFileReadModel where
  fileId : String
  range : BufferReadRange
  version : Option Int
  thumb : Bool
  deriving Repr, DecidableEq

/-- Which of the two blobs of a file an operation writes. -/
inductive OperationType
  | file
  | checksum
  deriving Repr, DecidableEq

/-- `server::StoreFileRandomWriteOperation`. -/
structure StoreFileRandomWriteOperation where
  type : OperationType
  pos : Int
  data : Bytes
  truncate : Bool
  deriving Repr, DecidableEq

/-- An encrypted file meta as it is sent to the server. -/
structure EncryptedMeta where
  json : String
  deriving Repr, DecidableEq

/-- `server::StoreFileWriteModelByOperations`. -/
structure StoreFileWriteModelByOperations where
  fileId : String
  operations : List StoreFileRandomWriteOperation
  encryptedMeta : EncryptedMeta
  keyId : String
  version : Int
  force : Bool
  deriving Repr, DecidableEq

/-- The two calls of `ServerApi` that the file handles make.  A call may fail
and may change what the server answers later. -/
structure Bridge (σ : Type) where
  storeFileRead : StoreFileReadModel → σ → Except StoreError Bytes × σ
  storeFileWrite : StoreFileWriteModelByOperations → σ → Except StoreError Unit × σ

/-- `dynamic::InternalStoreFileMeta`. -/
structure InternalStoreFileMeta where
  version : Int
  size : Int
  cipherType : Int
  chunkSize : Int
  key : String
  hmac : String
  randomWrite : Option Bool
  deriving Repr, DecidableEq

/-- `store::FileMeta`. -/
structure FileMeta where
  publicMeta : Bytes
  privateMeta : Bytes
  internalFileMeta : InternalStoreFileMeta
  deriving Repr, DecidableEq

/-- `store::FileInfo`. -/
structure FileInfo where
  contextId : String
  storeId : String
  storeResourceId : String
  fileId : String
  resourceId : String
  deriving Repr, DecidableEq

/-- `core::DecryptedEncKey`. -/
structure DecryptedEncKey where
  id : String
  key : Bytes
  dataStructureVersion : Int
  statusCode : Int
  deriving Repr, DecidableEq

/-- `store::FileDecryptionParams`. -/
structure FileDecryptionParams where
  fileId : String
  resourceId : String
  sizeOnServer : Nat
  originalSize : Nat
  cipherType : Int
  chunkSize : Nat
  key : Bytes
  hmac : Bytes
  version : Int
  deriving Repr, DecidableEq

/-- `store::FileEncryptionParams`. -/
structure FileEncryptionParams where
  fileMeta : FileMeta
  fileDecryptionParams : FileDecryptionParams
  encKey : DecryptedEncKey
  deriving Repr, DecidableEq

end PrivmxEndpoint
