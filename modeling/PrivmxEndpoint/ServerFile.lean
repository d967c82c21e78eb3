import PrivmxEndpoint.StoreTypes

/-!
# The honest bridge server

The state the server keeps for one file: the encrypted blob, the checksum
blob, the version counter and the last meta.  A write request carries a list
of operations, each of which overwrites one of the blobs at a position and
cuts it behind the written bytes if asked to.  A request is applied as a
whole.

Two servers are described.  `versionedBridge` rejects a request whose version
is not the stored one and counts the version up on success; `applyingBridge`
applies every request it gets.
-/

namespace PrivmxEndpoint

/-- What the server stores for a file. -/
structure ServerFile where
  file : Bytes
  checksum : Bytes
  version : Int
  encryptedMeta : EncryptedMeta
  keyId : String
  deriving Repr, DecidableEq

/-- One operation overwrites a blob at its position and cuts it on demand. -/
def ServerFile.applyOperation (s : ServerFile) (op : StoreFileRandomWriteOperation) :
    ServerFile :=
  match op.type with
  | .file => { s with file := Splice.writeAt s.file op.pos.toNat op.data op.truncate }
  | .checksum => { s with checksum := Splice.writeAt s.checksum op.pos.toNat op.data op.truncate }

/-- All operations of a list in order. -/
def ServerFile.applyOperations (s : ServerFile)
    (ops : List StoreFileRandomWriteOperation) : ServerFile :=
  ops.foldl ServerFile.applyOperation s

/-- An accepted write request. -/
def ServerFile.applyRequest (s : ServerFile) (req : StoreFileWriteModelByOperations) :
    ServerFile :=
  { s.applyOperations req.operations with
    version := req.version + 1
    encryptedMeta := req.encryptedMeta
    keyId := req.keyId }

/-- A read of the checksum blob, or of a range of the encrypted blob at a
version. -/
def ServerFile.storeFileRead (m : StoreFileReadModel) (s : ServerFile) :
    Except StoreError Bytes × ServerFile :=
  match m.range with
  | .checksum => (.ok s.checksum, s)
  | .slice fromPos toPos =>
      if m.version.any (· ≠ s.version) then
        (.error .storeFileVersionMismatch, s)
      else if fromPos < 0 ∨ toPos < fromPos then
        (.error (.server 0), s)
      else
        (.ok (Splice.slice s.file fromPos.toNat (toPos - fromPos).toNat), s)

/-- The server that applies every write. -/
def applyingBridge : Bridge ServerFile where
  storeFileRead := ServerFile.storeFileRead
  storeFileWrite req s := (.ok (), s.applyRequest req)

/-- The server that accepts a write only for the stored version. -/
def versionedBridge : Bridge ServerFile where
  storeFileRead := ServerFile.storeFileRead
  storeFileWrite req s :=
    if req.force = false ∧ req.version ≠ s.version then
      (.error .storeFileVersionMismatch, s)
    else
      (.ok (), s.applyRequest req)

/-- A bridge whose reads are those of the honest server. -/
def HonestReads (B : Bridge ServerFile) : Prop :=
  B.storeFileRead = ServerFile.storeFileRead

theorem honestReads_applyingBridge : HonestReads applyingBridge := rfl

theorem honestReads_versionedBridge : HonestReads versionedBridge := rfl

end PrivmxEndpoint
