import PrivmxEndpoint.ItemListing

/-!
# Who signed an item and who is verified

A file, message or entry of version 5 carries a signed data integrity object.
The integrity check of an item compares that object with the *last* modifier
and the *last* modification date of the record.  The verification request is
assembled elsewhere, from the public item, and names its *author* and its
*creation* date.  The two agree exactly if the last modifier is the author and
the signature was made about when the item was created
(`ServerRecord.request_names_signer_iff`).
-/

namespace PrivmxEndpoint

/-- The fields of `EncryptedFileMetaV5`, `EncryptedMessageDataV5` and
`EncryptedKvdbEntryDataV5`. -/
structure EncryptedItemV5 where
  version : Int
  publicMeta : Bytes
  publicMetaObject : Option Bytes
  privateMeta : Bytes
  data : Bytes
  internalMeta : Option Bytes
  authorPubKey : Bytes
  dio : Bytes
  deriving Repr, DecidableEq

/-- The data of a record by its version; parsing version 5 may fail. -/
inductive ItemData
  | unknown
  | legacy
  | version5 (encrypted : Except EndpointException EncryptedItemV5)

/-- The fields of `server::File` that the listing reads. -/
structure Server.File where
  id : Bytes
  resourceId : Bytes
  contextId : Bytes
  storeId : Bytes
  created : Int
  creator : Bytes
  lastModificationDate : Int
  lastModifier : Bytes
  keyId : Bytes
  info : ItemData

/-- An entry of the `updates` of a message. -/
structure Server.MessageUpdate where
  createDate : Int
  author : Bytes
  deriving Repr, DecidableEq

/-- The fields of `server::Message` that the listing reads. -/
structure Server.Message where
  id : Bytes
  resourceId : Bytes
  contextId : Bytes
  threadId : Bytes
  createDate : Int
  author : Bytes
  updates : List Server.MessageUpdate
  keyId : Bytes
  data : ItemData

/-- The fields of `server::KvdbEntryInfo` that the listing reads. -/
structure Server.KvdbEntryInfo where
  kvdbEntryKey : Bytes
  contextId : Bytes
  kvdbId : Bytes
  createDate : Int
  author : Bytes
  lastModificationDate : Int
  lastModifier : Bytes
  keyId : Bytes
  version : Int
  kvdbEntryValue : ItemData

/-- The author of the last update of a message. -/
def Server.Message.lastModifier (message : Server.Message) : Bytes :=
  match message.updates.getLast? with
  | none => message.author
  | some update => update.author

/-- The date of the last update of a message. -/
def Server.Message.lastModificationDate (message : Server.Message) : Int :=
  match message.updates.getLast? with
  | none => message.createDate
  | some update => update.createDate

/-- The result of a decryption of version 5. -/
structure DecryptedItemV5 where
  statusCode : Nat
  publicMeta : Bytes
  privateMeta : Bytes
  data : Bytes
  internalMeta : Option Bytes
  authorPubKey : Bytes
  dio : DataIntegrityObject

/-- `DecryptedEncKey`, as far as an item's decryption reads it. -/
structure ItemKey where
  key : Bytes
  statusCode : Nat
  deriving Repr, DecidableEq

/-- The metadata and the data of a decrypted item, and the status of the
comparison of the two forms of the public metadata. -/
structure ItemContents where
  publicMeta : Bytes
  privateMeta : Bytes
  data : Bytes
  internalMeta : Option Bytes
  mismatchStatus : Nat

/-- What the items' encryptors use: the decoding of a signed data integrity
object, the checksum, and the verification and decryption of the contents. -/
structure ItemCrypto where
  sha256 : Bytes → Bytes
  decodeAndVerify : Bytes → Except EndpointException ExpandedDataIntegrityObject
  /-- The contents read before the exception, if there is one. -/
  decryptContents : EncryptedItemV5 → Bytes → ItemContents × Option EndpointException
  extractPublicContents : EncryptedItemV5 → ItemContents × Option EndpointException

/-- The comparison of the checksums, in order. -/
def ItemCrypto.assertChecksums (C : ItemCrypto) (checksums : List (String × Bytes)) :
    List (String × Bytes) → Except EndpointException Unit
  | [] => .ok ()
  | (field, value) :: fields =>
      match checksumAt checksums field with
      | .error e => .error e
      | .ok checksum =>
          if checksum ≠ C.sha256 value then
            .error (.core invalidDataIntegrityObjectChecksum)
          else
            C.assertChecksums checksums fields

/-- How the encryptors of the three modules differ: the format check and the
fields with a checksum. -/
structure ItemFormat where
  wellFormed : EncryptedItemV5 → Bool
  formatError : ErrorCode
  checkedFields : EncryptedItemV5 → List (String × Bytes)

/-- `getDIOAndAssertIntegrity` of the three encryptors. -/
def ItemCrypto.getDIOAndAssertIntegrity (C : ItemCrypto) (F : ItemFormat)
    (encrypted : EncryptedItemV5) : Except EndpointException DataIntegrityObject :=
  if F.wellFormed encrypted then
    match C.decodeAndVerify encrypted.dio with
    | .error e => .error e
    | .ok dio =>
        if dio.structureVersion ≠ 5 ∨ dio.creatorPubKey ≠ encrypted.authorPubKey then
          .error (.core invalidDataIntegrityObjectChecksum)
        else
          match C.assertChecksums dio.fieldChecksums (F.checkedFields encrypted) with
          | .error e => .error e
          | .ok () => .ok dio.toDataIntegrityObject
  else
    .error (.core F.formatError)

/-- The result of a decryption that ended before the contents. -/
def DecryptedItemV5.failed (statusCode : Nat) : DecryptedItemV5 where
  statusCode := statusCode
  publicMeta := []
  privateMeta := []
  data := []
  internalMeta := none
  authorPubKey := []
  dio := .empty

/-- `decrypt` and `extractPublic` of the three encryptors, which differ in the
contents they read. -/
def ItemCrypto.readItem (C : ItemCrypto) (F : ItemFormat)
    (contents : EncryptedItemV5 → ItemContents × Option EndpointException)
    (encrypted : EncryptedItemV5) : DecryptedItemV5 :=
  match C.getDIOAndAssertIntegrity F encrypted with
  | .error e => .failed e.statusCode.1
  | .ok dio =>
      let (c, exception) := contents encrypted
      { statusCode :=
          match exception with
          | none => c.mismatchStatus
          | some e => e.statusCode.1
        publicMeta := c.publicMeta
        privateMeta := c.privateMeta
        data := c.data
        internalMeta := c.internalMeta
        authorPubKey :=
          match exception with
          | none => encrypted.authorPubKey
          | some _ => []
        dio := dio }

/-- `decryptFileMetaV5`, `decryptMessageDataV5` and `decryptKvdbEntryDataV5`. -/
def ItemCrypto.decryptItemV5 (C : ItemCrypto) (F : ItemFormat)
    (encrypted : Except EndpointException EncryptedItemV5) (encKey : ItemKey) : DecryptedItemV5 :=
  match encrypted with
  | .error e => .failed e.statusCode.1
  | .ok encrypted =>
      if encKey.statusCode ≠ 0 then
        { C.readItem F C.extractPublicContents encrypted with statusCode := encKey.statusCode }
      else
        C.readItem F (C.decryptContents · encKey.key) encrypted

/-- `FileMetaEncryptorV5::assertDataFormat` and its checked fields. -/
def fileFormat : ItemFormat where
  wellFormed e :=
    e.version = 5 && !e.publicMeta.isEmpty && !e.privateMeta.isEmpty && !e.authorPubKey.isEmpty &&
      e.internalMeta.isSome
  formatError := ⟨0x00040019, by decide⟩
  checkedFields e :=
    [("publicMeta", e.publicMeta), ("privateMeta", e.privateMeta),
      ("internalMeta", e.internalMeta.getD [])]

/-- `MessageDataEncryptorV5::assertDataFormat` and its checked fields; the
entries of a kvdb have another exception. -/
def messageFormat (formatError : ErrorCode) : ItemFormat where
  wellFormed e :=
    e.version = 5 && !e.publicMeta.isEmpty && !e.privateMeta.isEmpty && !e.authorPubKey.isEmpty &&
      !e.data.isEmpty && !e.dio.isEmpty
  formatError := formatError
  checkedFields e :=
    [("publicMeta", e.publicMeta), ("privateMeta", e.privateMeta), ("data", e.data)] ++
      (e.internalMeta.map fun m => ("internalMeta", m)).toList

/-- What the integrity check compares an item's signed object with. -/
structure SignedContext where
  contextId : Bytes
  resourceId : Bytes
  containerId : Bytes
  containerResourceId : Bytes
  lastModifier : Bytes
  lastModificationDate : Int

/-- The comparison of the integrity checks. -/
def SignedContext.matches (x : SignedContext) (dio : DataIntegrityObject) : Bool :=
  dio.contextId = x.contextId && dio.resourceId = x.resourceId &&
    dio.containerId = some x.containerId && dio.containerResourceId = some x.containerResourceId &&
    dio.creatorUserId = x.lastModifier &&
    TimestampValidator.validate dio.timestamp x.lastModificationDate

/-- The integrity check of the three modules, with their formats and codes. -/
def ItemCrypto.validateDataIntegrity (C : ItemCrypto) (F : ItemFormat)
    (unknownFormat dataIntegrity : ErrorCode) (data : ItemData) (x : SignedContext) : Nat :=
  match data with
  | .unknown => unknownFormat.1
  | .legacy => 0
  | .version5 (.error e) => e.statusCode.1
  | .version5 (.ok encrypted) =>
      match C.getDIOAndAssertIntegrity F encrypted with
      | .error e => e.statusCode.1
      | .ok dio => if x.matches dio then 0 else dataIntegrity.1

/-- The object that stands for a legacy item. -/
def SignedContext.legacyDio (x : SignedContext) (creatorPubKey : Bytes) : DataIntegrityObject where
  creatorUserId := x.lastModifier
  creatorPubKey := creatorPubKey
  contextId := x.contextId
  resourceId := x.resourceId
  timestamp := x.lastModificationDate
  randomId := []
  containerId := some x.containerId
  containerResourceId := some []
  bridgeIdentity := none

/-! ## Files -/

/-- The rest of a public `File`. -/
structure FileContent where
  publicMeta : Bytes
  privateMeta : Bytes
  size : Int
  schemaVersion : Int
  randomWrite : Bool
  deriving Repr, DecidableEq

/-- What the store module uses besides: the parser of the internal metadata and
the decryption of legacy files, whose status may not be zero.  It gets the key
without the status of the key. -/
structure FileCrypto extends ItemCrypto where
  parseInternalMeta : Bytes → Except EndpointException (Int × Bool)
  decryptLegacy : Server.File → Bytes → LibItem FileContent

/-- The signed context of a file. -/
def Server.File.signedContext (file : Server.File) (storeResourceId : Bytes) : SignedContext where
  contextId := file.contextId
  resourceId := file.resourceId
  containerId := file.storeId
  containerResourceId := storeResourceId
  lastModifier := file.lastModifier
  lastModificationDate := file.lastModificationDate

/-- `StoreApiImpl::validateFileDataIntegrity`. -/
def StoreApiImpl.validateFileDataIntegrity (C : FileCrypto) (file : Server.File)
    (storeResourceId : Bytes) : Nat :=
  C.validateDataIntegrity fileFormat ⟨0x0004001D, by decide⟩ ⟨0x00040028, by decide⟩ file.info
    (file.signedContext storeResourceId)

/-- `StoreApiImpl::convertServerFileToLibFile`. -/
def StoreApiImpl.convertServerFileToLibFile (file : Server.File) (content : FileContent)
    (authorPubKey : Bytes) (statusCode : Nat) : LibItem FileContent where
  info := ⟨file.storeId, file.id, file.created, file.creator⟩
  content := content
  authorPubKey := authorPubKey
  statusCode := statusCode

/-- `StoreApiImpl::convertDecryptedFileMetaV5ToFile`. -/
def StoreApiImpl.convertDecryptedFileMetaV5ToFile (C : FileCrypto) (file : Server.File)
    (fileData : DecryptedItemV5) : LibItem FileContent :=
  let parsed :=
    if fileData.statusCode = 0 then C.parseInternalMeta (fileData.internalMeta.getD [])
    else .ok (0, false)
  let (statusCode, size, randomWrite) :=
    match parsed with
    | .ok (size, randomWrite) => (fileData.statusCode, size, randomWrite)
    | .error e => (e.statusCode.1, 0, false)
  StoreApiImpl.convertServerFileToLibFile file
    ⟨fileData.publicMeta, fileData.privateMeta, size, 5, randomWrite⟩ fileData.authorPubKey
    statusCode

/-- `StoreApiImpl::decryptAndConvertFileDataToFileInfo`. -/
def StoreApiImpl.decryptAndConvertFileDataToFileInfo (C : FileCrypto) (file : Server.File)
    (encKey : ItemKey) : LibItem FileContent × DataIntegrityObject :=
  match file.info with
  | .unknown =>
      (StoreApiImpl.convertServerFileToLibFile file ⟨[], [], 0, 0, false⟩ [] 0x0004001D, .empty)
  | .legacy =>
      let x := C.decryptLegacy file encKey.key
      (x, (file.signedContext []).legacyDio x.authorPubKey)
  | .version5 encrypted =>
      let decryptedFile := C.decryptItemV5 fileFormat encrypted encKey
      (StoreApiImpl.convertDecryptedFileMetaV5ToFile C file decryptedFile, decryptedFile.dio)

/-- `keyMap.at(item.keyId)`. -/
def keyAt (keyMap : List (Bytes × ItemKey)) (keyId : Bytes) : Except EndpointException ItemKey :=
  match keyMap.lookup keyId with
  | none => .error .other
  | some encKey => .ok encKey

/-- The listing of files turns only `core::Exception` into a status. -/
def StoreApiImpl.fileKind (C : FileCrypto) (storeResourceId : Bytes)
    (keyMap : List (Bytes × ItemKey)) : ItemKind Server.File FileContent where
  validateDataIntegrity file := StoreApiImpl.validateFileDataIntegrity C file storeResourceId
  decryptAndConvert file :=
    (keyAt keyMap file.keyId).map (StoreApiImpl.decryptAndConvertFileDataToFileInfo C file)
  convertServerItem file :=
    StoreApiImpl.convertServerFileToLibFile file ⟨[], [], 0, 0, false⟩ []
  handle
    | .core code => .ok code
    | e => .error e
  statusCode_convertServerItem _ _ := rfl

/-- `StoreApiImpl::validateDecryptAndConvertFilesDataToFilesInfo`, with the keys
that the key provider has returned. -/
def StoreApiImpl.validateDecryptAndConvertFilesDataToFilesInfo (C : FileCrypto)
    (contextId storeResourceId : Bytes) (keyMap : List (Bytes × ItemKey))
    (userVerifier : UserVerifierInterface) (files : List Server.File) :
    Except ListingError (List (LibItem FileContent)) :=
  (StoreApiImpl.fileKind C storeResourceId keyMap).validateDecryptAndConvert contextId userVerifier
    files

/-! ## Messages -/

/-- The rest of a public `Message`. -/
structure MessageContent where
  publicMeta : Bytes
  privateMeta : Bytes
  data : Bytes
  schemaVersion : Int
  deriving Repr, DecidableEq

/-- What the thread module uses besides: the decryption of legacy messages, with
the public key of their author.  It gets the key without the status of the key. -/
structure MessageCrypto extends ItemCrypto where
  decryptLegacy : Server.Message → Bytes → LibItem MessageContent × Bytes

/-- The signed context of a message. -/
def Server.Message.signedContext (message : Server.Message) (threadResourceId : Bytes) :
    SignedContext where
  contextId := message.contextId
  resourceId := message.resourceId
  containerId := message.threadId
  containerResourceId := threadResourceId
  lastModifier := message.lastModifier
  lastModificationDate := message.lastModificationDate

/-- `InvalidEncryptedMessageDataVersionException`. -/
def invalidEncryptedMessageDataVersion : ErrorCode := ⟨0x0003000C, by decide⟩

/-- `ThreadApiImpl::validateMessageDataIntegrity`. -/
def ThreadApiImpl.validateMessageDataIntegrity (C : MessageCrypto) (message : Server.Message)
    (threadResourceId : Bytes) : Nat :=
  C.validateDataIntegrity (messageFormat invalidEncryptedMessageDataVersion)
    ⟨0x0003000E, by decide⟩ ⟨0x00030015, by decide⟩ message.data
    (message.signedContext threadResourceId)

/-- `ThreadApiImpl::convertServerMessageToLibMessage`. -/
def ThreadApiImpl.convertServerMessageToLibMessage (message : Server.Message)
    (content : MessageContent) (authorPubKey : Bytes) (statusCode : Nat) :
    LibItem MessageContent where
  info := ⟨message.threadId, message.id, message.createDate, message.author⟩
  content := content
  authorPubKey := authorPubKey
  statusCode := statusCode

/-- `ThreadApiImpl::decryptAndConvertMessageDataToMessage`. -/
def ThreadApiImpl.decryptAndConvertMessageDataToMessage (C : MessageCrypto)
    (message : Server.Message) (encKey : ItemKey) :
    LibItem MessageContent × DataIntegrityObject :=
  match message.data with
  | .unknown =>
      (ThreadApiImpl.convertServerMessageToLibMessage message ⟨[], [], [], 0⟩ [] 0x0003000E,
        .empty)
  | .legacy =>
      let (x, creatorPubKey) := C.decryptLegacy message encKey.key
      (x, (message.signedContext []).legacyDio creatorPubKey)
  | .version5 encrypted =>
      let m := C.decryptItemV5 (messageFormat invalidEncryptedMessageDataVersion) encrypted encKey
      (ThreadApiImpl.convertServerMessageToLibMessage message
        ⟨m.publicMeta, m.privateMeta, m.data, 5⟩ m.authorPubKey m.statusCode, m.dio)

/-- The listing of messages turns every exception into a status. -/
def ThreadApiImpl.messageKind (C : MessageCrypto) (threadResourceId : Bytes)
    (keyMap : List (Bytes × ItemKey)) : ItemKind Server.Message MessageContent where
  validateDataIntegrity message :=
    ThreadApiImpl.validateMessageDataIntegrity C message threadResourceId
  decryptAndConvert message :=
    (keyAt keyMap message.keyId).map (ThreadApiImpl.decryptAndConvertMessageDataToMessage C message)
  convertServerItem message :=
    ThreadApiImpl.convertServerMessageToLibMessage message ⟨[], [], [], 0⟩ []
  handle e := .ok e.statusCode
  statusCode_convertServerItem _ _ := rfl

/-- `ThreadApiImpl::validateDecryptAndConvertMessagesDataToMessages`. -/
def ThreadApiImpl.validateDecryptAndConvertMessagesDataToMessages (C : MessageCrypto)
    (contextId threadResourceId : Bytes) (keyMap : List (Bytes × ItemKey))
    (userVerifier : UserVerifierInterface) (messages : List Server.Message) :
    Except ListingError (List (LibItem MessageContent)) :=
  (ThreadApiImpl.messageKind C threadResourceId keyMap).validateDecryptAndConvert contextId
    userVerifier messages

/-! ## Entries -/

/-- The rest of a public `KvdbEntry`. -/
structure EntryContent where
  publicMeta : Bytes
  privateMeta : Bytes
  data : Bytes
  version : Int
  schemaVersion : Int
  deriving Repr, DecidableEq

/-- The signed context of an entry; its key is its resource id. -/
def Server.KvdbEntryInfo.signedContext (entry : Server.KvdbEntryInfo) (kvdbResourceId : Bytes) :
    SignedContext where
  contextId := entry.contextId
  resourceId := entry.kvdbEntryKey
  containerId := entry.kvdbId
  containerResourceId := kvdbResourceId
  lastModifier := entry.lastModifier
  lastModificationDate := entry.lastModificationDate

/-- `InvalidEncryptedKvdbEntryDataVersionException`. -/
def invalidEncryptedKvdbEntryDataVersion : ErrorCode := ⟨0x0009000B, by decide⟩

/-- Entries have no legacy versions: what is not of version 5 is unknown. -/
def ItemData.entryVersion : ItemData → ItemData
  | .legacy => .unknown
  | data => data

/-- `KvdbApiImpl::validateEntryDataIntegrity`. -/
def KvdbApiImpl.validateEntryDataIntegrity (C : ItemCrypto) (entry : Server.KvdbEntryInfo)
    (kvdbResourceId : Bytes) : Nat :=
  C.validateDataIntegrity (messageFormat invalidEncryptedKvdbEntryDataVersion)
    ⟨0x00090010, by decide⟩ ⟨0x00090012, by decide⟩ entry.kvdbEntryValue.entryVersion
    (entry.signedContext kvdbResourceId)

/-- `KvdbApiImpl::convertServerKvdbEntryToLibKvdbEntry`. -/
def KvdbApiImpl.convertServerKvdbEntryToLibKvdbEntry (entry : Server.KvdbEntryInfo)
    (publicMeta privateMeta data authorPubKey : Bytes) (statusCode : Nat) (schemaVersion : Int) :
    LibItem EntryContent where
  info := ⟨entry.kvdbId, entry.kvdbEntryKey, entry.createDate, entry.author⟩
  content := ⟨publicMeta, privateMeta, data, entry.version, schemaVersion⟩
  authorPubKey := authorPubKey
  statusCode := statusCode

/-- `KvdbApiImpl::decryptAndConvertEntryDataToEntry`. -/
def KvdbApiImpl.decryptAndConvertEntryDataToEntry (C : ItemCrypto) (entry : Server.KvdbEntryInfo)
    (encKey : ItemKey) : LibItem EntryContent × DataIntegrityObject :=
  match entry.kvdbEntryValue with
  | .version5 encrypted =>
      let e := C.decryptItemV5 (messageFormat invalidEncryptedKvdbEntryDataVersion) encrypted encKey
      (KvdbApiImpl.convertServerKvdbEntryToLibKvdbEntry entry e.publicMeta e.privateMeta e.data
        e.authorPubKey e.statusCode 5, e.dio)
  | _ =>
      (KvdbApiImpl.convertServerKvdbEntryToLibKvdbEntry entry [] [] [] [] 0x00090010 0, .empty)

/-- The listing of entries turns every exception into a status. -/
def KvdbApiImpl.entryKind (C : ItemCrypto) (kvdbResourceId : Bytes)
    (keyMap : List (Bytes × ItemKey)) : ItemKind Server.KvdbEntryInfo EntryContent where
  validateDataIntegrity entry := KvdbApiImpl.validateEntryDataIntegrity C entry kvdbResourceId
  decryptAndConvert entry :=
    (keyAt keyMap entry.keyId).map (KvdbApiImpl.decryptAndConvertEntryDataToEntry C entry)
  convertServerItem entry statusCode :=
    KvdbApiImpl.convertServerKvdbEntryToLibKvdbEntry entry [] [] [] [] statusCode 0
  handle e := .ok e.statusCode
  statusCode_convertServerItem _ _ := rfl

/-- `KvdbApiImpl::validateDecryptAndConvertKvdbEntriesDataToKvdbEntries`. -/
def KvdbApiImpl.validateDecryptAndConvertKvdbEntriesDataToKvdbEntries (C : ItemCrypto)
    (contextId kvdbResourceId : Bytes) (keyMap : List (Bytes × ItemKey))
    (userVerifier : UserVerifierInterface) (entries : List Server.KvdbEntryInfo) :
    Except ListingError (List (LibItem EntryContent)) :=
  (KvdbApiImpl.entryKind C kvdbResourceId keyMap).validateDecryptAndConvert contextId userVerifier
    entries

/-! ## The signer and the verified user -/

section Signer

variable {C : ItemCrypto} {F : ItemFormat} {encrypted : EncryptedItemV5}

/-- The checked object is a decoded one. -/
theorem ItemCrypto.decode_of_getDIO {dio : DataIntegrityObject}
    (h : C.getDIOAndAssertIntegrity F encrypted = .ok dio) :
    ∃ expanded, C.decodeAndVerify encrypted.dio = .ok expanded ∧
      expanded.toDataIntegrityObject = dio := by
  unfold ItemCrypto.getDIOAndAssertIntegrity at h
  split at h
  · split at h
    · cases h
    · rename_i expanded hdecode
      split at h
      · cases h
      · split at h
        · cases h
        · exact ⟨expanded, hdecode, Except.ok.inj h⟩
  · cases h

/-- The checked object was signed with the key that the item names. -/
theorem ItemCrypto.creatorPubKey_of_getDIO {dio : DataIntegrityObject}
    (h : C.getDIOAndAssertIntegrity F encrypted = .ok dio) :
    dio.creatorPubKey = encrypted.authorPubKey := by
  unfold ItemCrypto.getDIOAndAssertIntegrity at h
  split at h
  · split at h
    · cases h
    · split at h
      · cases h
      · rename_i hsame
        split at h
        · cases h
        · cases h
          exact not_not.mp (not_or.mp hsame).2
  · cases h

/-- A decryption of status zero has the checked object and the key that signed
it. -/
theorem ItemCrypto.decryptItemV5_of_zero {encKey : ItemKey} {dio : DataIntegrityObject}
    (hdio : C.getDIOAndAssertIntegrity F encrypted = .ok dio)
    (hstatus : (C.decryptItemV5 F (.ok encrypted) encKey).statusCode = 0) :
    (C.decryptItemV5 F (.ok encrypted) encKey).dio = dio ∧
      (C.decryptItemV5 F (.ok encrypted) encKey).authorPubKey = dio.creatorPubKey := by
  have hkey : encKey.statusCode = 0 := by
    by_contra hkey
    simp only [ItemCrypto.decryptItemV5, if_pos hkey] at hstatus
    exact hkey hstatus
  have hread : C.decryptItemV5 F (.ok encrypted) encKey =
      C.readItem F (C.decryptContents · encKey.key) encrypted := by
    simp only [ItemCrypto.decryptItemV5, hkey, ne_eq, not_true_eq_false, if_false]
  rw [hread] at hstatus ⊢
  simp only [ItemCrypto.readItem, hdio] at hstatus ⊢
  refine ⟨trivial, ?_⟩
  cases hexc : (C.decryptContents encrypted encKey.key).2 with
  | none => rw [C.creatorPubKey_of_getDIO hdio]
  | some e =>
      rw [hexc] at hstatus
      exact absurd hstatus e.statusCode.2

/-- An item that passes its check was signed by its last modifier. -/
theorem ItemCrypto.matches_of_validateDataIntegrity {unknownFormat dataIntegrity : ErrorCode}
    {x : SignedContext} {dio : DataIntegrityObject}
    (hdio : C.getDIOAndAssertIntegrity F encrypted = .ok dio)
    (h : C.validateDataIntegrity F unknownFormat dataIntegrity (.version5 (.ok encrypted)) x = 0) :
    dio.creatorUserId = x.lastModifier := by
  simp only [ItemCrypto.validateDataIntegrity, hdio] at h
  split at h
  · rename_i hmatch
    simp only [SignedContext.matches, Bool.and_eq_true, decide_eq_true_eq] at hmatch
    exact hmatch.1.2
  · exact absurd h dataIntegrity.2

end Signer

/-- A record of one of the three modules. -/
inductive ServerRecord
  | file (C : FileCrypto) (file : Server.File)
  | message (C : MessageCrypto) (message : Server.Message)
  | entry (C : ItemCrypto) (entry : Server.KvdbEntryInfo)

namespace ServerRecord

/-- The user who created the record. -/
def author : ServerRecord → Bytes
  | .file _ f => f.creator
  | .message _ m => m.author
  | .entry _ e => e.author

/-- The date of its creation. -/
def createDate : ServerRecord → Int
  | .file _ f => f.created
  | .message _ m => m.createDate
  | .entry _ e => e.createDate

/-- The user who modified it last. -/
def lastModifier : ServerRecord → Bytes
  | .file _ f => f.lastModifier
  | .message _ m => m.lastModifier
  | .entry _ e => e.lastModifier

/-- Its data. -/
def data : ServerRecord → ItemData
  | .file _ f => f.info
  | .message _ m => m.data
  | .entry _ e => e.kvdbEntryValue

/-- The integrity check of its module. -/
def validateDataIntegrity (containerResourceId : Bytes) : ServerRecord → Nat
  | .file C f => StoreApiImpl.validateFileDataIntegrity C f containerResourceId
  | .message C m => ThreadApiImpl.validateMessageDataIntegrity C m containerResourceId
  | .entry C e => KvdbApiImpl.validateEntryDataIntegrity C e containerResourceId

/-- The signed data integrity object of its encrypted form. -/
def signedObject (encrypted : EncryptedItemV5) :
    ServerRecord → Except EndpointException DataIntegrityObject
  | .file C _ => C.getDIOAndAssertIntegrity fileFormat encrypted
  | .message C _ =>
      C.getDIOAndAssertIntegrity (messageFormat invalidEncryptedMessageDataVersion) encrypted
  | .entry C _ =>
      C.getDIOAndAssertIntegrity (messageFormat invalidEncryptedKvdbEntryDataVersion) encrypted

/-- The status of its decrypted public item. -/
def statusCode (encKey : ItemKey) : ServerRecord → Nat
  | .file C f => (StoreApiImpl.decryptAndConvertFileDataToFileInfo C f encKey).1.statusCode
  | .message C m => (ThreadApiImpl.decryptAndConvertMessageDataToMessage C m encKey).1.statusCode
  | .entry C e => (KvdbApiImpl.decryptAndConvertEntryDataToEntry C e encKey).1.statusCode

/-- The verification request that is made for it. -/
def verificationRequest (contextId : Bytes) (encKey : ItemKey) :
    ServerRecord → VerificationRequest
  | .file C f =>
      let (x, dio) := StoreApiImpl.decryptAndConvertFileDataToFileInfo C f encKey
      x.verificationRequest contextId dio.bridgeIdentity
  | .message C m =>
      let (x, dio) := ThreadApiImpl.decryptAndConvertMessageDataToMessage C m encKey
      x.verificationRequest contextId dio.bridgeIdentity
  | .entry C e =>
      let (x, dio) := KvdbApiImpl.decryptAndConvertEntryDataToEntry C e encKey
      x.verificationRequest contextId dio.bridgeIdentity

end ServerRecord

section Listed

variable {ι κ : Type} {keyMap : List (Bytes × ItemKey)}

/-- The items of a kind are records: one that is decrypted has the status and the
request of its record, with the key that the listing has for it. -/
def ItemKind.DecryptsRecords (K : ItemKind ι κ) (keyMap : List (Bytes × ItemKey))
    (keyId : ι → Bytes) (record : ι → ServerRecord) : Prop :=
  ∀ item x dio, K.outcome item = .ok (x, dio) → ∃ encKey,
    keyAt keyMap (keyId item) = .ok encKey ∧ (record item).statusCode encKey = x.statusCode ∧
      ∀ contextId, (record item).verificationRequest contextId encKey =
        x.verificationRequest contextId dio.bridgeIdentity

/-- A kind whose decryption is that of its records. -/
theorem ItemKind.decryptsRecords_of_eq {K : ItemKind ι κ} {keyId : ι → Bytes}
    {record : ι → ServerRecord} {decrypt : ι → ItemKey → LibItem κ × DataIntegrityObject}
    (hdecrypt : ∀ item, K.decryptAndConvert item = (keyAt keyMap (keyId item)).map (decrypt item))
    (hstatus : ∀ item encKey, (record item).statusCode encKey =
      (decrypt item encKey).1.statusCode)
    (hrequest : ∀ item encKey contextId, (record item).verificationRequest contextId encKey =
      (decrypt item encKey).1.verificationRequest contextId
        (decrypt item encKey).2.bridgeIdentity) :
    K.DecryptsRecords keyMap keyId record := by
  intro item x dio hout
  obtain ⟨-, hitem⟩ := K.outcome_eq_ok_iff.mp hout
  rw [hdecrypt] at hitem
  cases hkey : keyAt keyMap (keyId item) with
  | error e =>
      rw [hkey] at hitem
      cases hitem
  | ok encKey =>
      rw [hkey] at hitem
      have hdecrypted : decrypt item encKey = (x, dio) := Except.ok.inj hitem
      refine ⟨encKey, rfl, ?_, fun contextId => ?_⟩
      · rw [hstatus, hdecrypted]
      · rw [hrequest, hdecrypted]

theorem StoreApiImpl.fileKind_decryptsRecords (C : FileCrypto) (storeResourceId : Bytes) :
    (StoreApiImpl.fileKind C storeResourceId keyMap).DecryptsRecords keyMap Server.File.keyId
      (ServerRecord.file C) :=
  ItemKind.decryptsRecords_of_eq (fun _ => rfl) (fun _ _ => rfl) fun _ _ _ => rfl

theorem ThreadApiImpl.messageKind_decryptsRecords (C : MessageCrypto) (threadResourceId : Bytes) :
    (ThreadApiImpl.messageKind C threadResourceId keyMap).DecryptsRecords keyMap
      Server.Message.keyId (ServerRecord.message C) :=
  ItemKind.decryptsRecords_of_eq (fun _ => rfl) (fun _ _ => rfl) fun _ _ _ => rfl

theorem KvdbApiImpl.entryKind_decryptsRecords (C : ItemCrypto) (kvdbResourceId : Bytes) :
    (KvdbApiImpl.entryKind C kvdbResourceId keyMap).DecryptsRecords keyMap
      Server.KvdbEntryInfo.keyId (ServerRecord.entry C) :=
  ItemKind.decryptsRecords_of_eq (fun _ => rfl) (fun _ _ => rfl) fun _ _ _ => rfl

/-- **The requests of a listing.**  For each result of status zero a listing asks
the verifier what `verificationRequest` says of its record, but for the bridge
identity, which is that of the object at the item's index. -/
theorem ServerRecord.verificationRequest_listed {K : ItemKind ι κ} {keyId : ι → Bytes}
    {record : ι → ServerRecord} (hrecords : K.DecryptsRecords keyMap keyId record)
    {contextId : Bytes} {items : List ι} (hitems : K.Handles items)
    {userVerifier : UserVerifierInterface} {result : List (LibItem κ)}
    (h : K.validateDecryptAndConvert contextId userVerifier items = .ok result) :
    ∃ requests verified, UserVerifier.verify userVerifier requests = .ok verified ∧
      ∀ i item x, items[i]? = some item → (K.results [] items)[i]? = some x → x.statusCode = 0 →
        ∃ encKey found, keyAt keyMap (keyId item) = .ok encKey ∧
          (record item).statusCode encKey = 0 ∧ (items.filterMap K.dio)[i]? = some found ∧
          requests[rank (K.results [] items) i]? =
            some { (record item).verificationRequest contextId encKey with
              bridgeIdentity := found.bridgeIdentity } := by
  obtain ⟨requests, verified, hverify, hall⟩ := ItemKind.listed_spec hitems h
  refine ⟨requests, verified, hverify, fun i item x hitem hx hzero => ?_⟩
  obtain ⟨dio, ⟨item', hitem', hout⟩, -, -⟩ := (K.results_zero_iff i x).mp ⟨hx, hzero⟩
  obtain rfl := Option.some.inj (hitem.symm.trans hitem')
  obtain ⟨encKey, hkey, hstatus, hrequest⟩ := hrecords item x dio hout
  obtain ⟨y, -, -, hjudged⟩ := hall i x hx
  obtain ⟨found, verdict, hfound, hread, -, -⟩ := hjudged hzero
  refine ⟨encKey, found, hkey, hstatus.trans hzero, hfound, ?_⟩
  rw [hread, hrequest]
  rfl

end Listed

/-- The request names the user, the key and, up to the tolerance of the check,
the time of a signed object. -/
structure VerificationRequest.NamesSigner (request : VerificationRequest)
    (dio : DataIntegrityObject) : Prop where
  senderId : request.senderId = dio.creatorUserId
  senderPubKey : request.senderPubKey = dio.creatorPubKey
  date : TimestampValidator.validate dio.timestamp request.date = true

/-- A file of status zero was decrypted with status zero. -/
theorem StoreApiImpl.statusCode_of_convert {C : FileCrypto} {file : Server.File}
    {fileData : DecryptedItemV5}
    (h : (StoreApiImpl.convertDecryptedFileMetaV5ToFile C file fileData).statusCode = 0) :
    fileData.statusCode = 0 := by
  by_contra hne
  simp only [StoreApiImpl.convertDecryptedFileMetaV5ToFile, if_neg hne] at h
  exact hne h

/-- The request of a checked record names its author, the signing key and the
date of creation. -/
theorem ServerRecord.verificationRequest_eq {r : ServerRecord} {encrypted : EncryptedItemV5}
    {dio : DataIntegrityObject} {encKey : ItemKey} (hdata : r.data = .version5 (.ok encrypted))
    (hdio : r.signedObject encrypted = .ok dio) (hstatus : r.statusCode encKey = 0)
    (contextId : Bytes) :
    r.verificationRequest contextId encKey =
      { contextId := contextId
        senderId := r.author
        senderPubKey := dio.creatorPubKey
        date := r.createDate
        bridgeIdentity := dio.bridgeIdentity } := by
  cases r with
  | file C f =>
      simp only [ServerRecord.data] at hdata
      simp only [ServerRecord.statusCode, StoreApiImpl.decryptAndConvertFileDataToFileInfo, hdata]
        at hstatus
      obtain ⟨hown, hkey⟩ := ItemCrypto.decryptItemV5_of_zero hdio
        (StoreApiImpl.statusCode_of_convert hstatus)
      simp only [ServerRecord.verificationRequest,
        StoreApiImpl.decryptAndConvertFileDataToFileInfo, hdata, hown]
      rw [← hkey]
      rfl
  | message C m =>
      simp only [ServerRecord.data] at hdata
      simp only [ServerRecord.statusCode, ThreadApiImpl.decryptAndConvertMessageDataToMessage,
        hdata] at hstatus
      obtain ⟨hown, hkey⟩ := ItemCrypto.decryptItemV5_of_zero hdio hstatus
      simp only [ServerRecord.verificationRequest,
        ThreadApiImpl.decryptAndConvertMessageDataToMessage, hdata, hown]
      rw [← hkey]
      rfl
  | entry C e =>
      simp only [ServerRecord.data] at hdata
      simp only [ServerRecord.statusCode, KvdbApiImpl.decryptAndConvertEntryDataToEntry, hdata]
        at hstatus
      obtain ⟨hown, hkey⟩ := ItemCrypto.decryptItemV5_of_zero hdio hstatus
      simp only [ServerRecord.verificationRequest, KvdbApiImpl.decryptAndConvertEntryDataToEntry,
        hdata, hown]
      rw [← hkey]
      rfl

/-- A checked record was signed by its last modifier. -/
theorem ServerRecord.creatorUserId_eq {r : ServerRecord} {encrypted : EncryptedItemV5}
    {dio : DataIntegrityObject} {containerResourceId : Bytes}
    (hdata : r.data = .version5 (.ok encrypted)) (hdio : r.signedObject encrypted = .ok dio)
    (hvalid : r.validateDataIntegrity containerResourceId = 0) :
    dio.creatorUserId = r.lastModifier := by
  cases r with
  | file C f =>
      simp only [ServerRecord.data] at hdata
      simp only [ServerRecord.validateDataIntegrity, StoreApiImpl.validateFileDataIntegrity, hdata]
        at hvalid
      exact ItemCrypto.matches_of_validateDataIntegrity hdio hvalid
  | message C m =>
      simp only [ServerRecord.data] at hdata
      simp only [ServerRecord.validateDataIntegrity, ThreadApiImpl.validateMessageDataIntegrity,
        hdata] at hvalid
      exact ItemCrypto.matches_of_validateDataIntegrity hdio hvalid
  | entry C e =>
      simp only [ServerRecord.data] at hdata
      simp only [ServerRecord.validateDataIntegrity, KvdbApiImpl.validateEntryDataIntegrity, hdata]
        at hvalid
      exact ItemCrypto.matches_of_validateDataIntegrity hdio hvalid

/-- **Who is verified.**  For every file, message and entry of version 5 that
passes its integrity check and decrypts with status zero, the verification
request names the signer exactly if the last modifier is the author and the
signature is within the tolerance of the date of creation. -/
theorem ServerRecord.request_names_signer_iff (r : ServerRecord)
    (containerResourceId contextId : Bytes) (encKey : ItemKey) (encrypted : EncryptedItemV5)
    (dio : DataIntegrityObject) (hdata : r.data = .version5 (.ok encrypted))
    (hdio : r.signedObject encrypted = .ok dio)
    (hvalid : r.validateDataIntegrity containerResourceId = 0)
    (hstatus : r.statusCode encKey = 0) :
    (r.verificationRequest contextId encKey).NamesSigner dio ↔
      r.author = r.lastModifier ∧ TimestampValidator.validate dio.timestamp r.createDate = true := by
  rw [ServerRecord.verificationRequest_eq hdata hdio hstatus]
  have hsigner := ServerRecord.creatorUserId_eq hdata hdio hvalid
  constructor
  · rintro ⟨hid, -, hdate⟩
    exact ⟨hid.trans hsigner, hdate⟩
  · rintro ⟨hauthor, hdate⟩
    exact ⟨hauthor.trans hsigner.symm, rfl, hdate⟩

/-- Decoding that always yields an object signed by user 2 with key 2. -/
def sampleFileCrypto : FileCrypto where
  sha256 d := d
  decodeAndVerify _ :=
    .ok
      { creatorUserId := [2]
        creatorPubKey := [2]
        contextId := [3]
        resourceId := [4]
        timestamp := 1000000
        randomId := [5]
        containerId := some [6]
        containerResourceId := some [7]
        bridgeIdentity := none
        structureVersion := 5
        fieldChecksums := [("publicMeta", [8]), ("privateMeta", [9]), ("internalMeta", [10])] }
  decryptContents _ _ := (⟨[8], [9], [], some [10], 0⟩, none)
  extractPublicContents _ := (⟨[8], [], [], none, 0⟩, none)
  parseInternalMeta _ := .ok (1, false)
  decryptLegacy file _ := ⟨⟨file.storeId, file.id, file.created, file.creator⟩,
    ⟨[], [], 0, 1, false⟩, [], 1⟩

/-- A file that user 2 has signed, with the given creator and date of creation. -/
def sampleServerFile (creator : Bytes) (created : Int) : Server.File where
  id := [4]
  resourceId := [4]
  contextId := [3]
  storeId := [6]
  created := created
  creator := creator
  lastModificationDate := 1000000
  lastModifier := [2]
  keyId := [11]
  info := .version5 (.ok ⟨5, [8], none, [9], [], some [10], [2], [12]⟩)

theorem ServerRecord.request_names_signer_sample :
    ((ServerRecord.file sampleFileCrypto (sampleServerFile [2] 1000000)).verificationRequest [3]
      ⟨[], 0⟩).NamesSigner
      { creatorUserId := [2], creatorPubKey := [2], contextId := [3], resourceId := [4],
        timestamp := 1000000, randomId := [5], containerId := some [6],
        containerResourceId := some [7], bridgeIdentity := none } :=
  (ServerRecord.request_names_signer_iff (.file sampleFileCrypto (sampleServerFile [2] 1000000)) [7] [3]
    ⟨[], 0⟩ ⟨5, [8], none, [9], [], some [10], [2], [12]⟩ _ rfl rfl rfl rfl).mpr
    ⟨rfl, by decide⟩

/-- A file of user 1 that user 2 has modified: user 1 is verified with the key
of user 2. -/
theorem ServerRecord.request_names_author_not_signer :
    (ServerRecord.file sampleFileCrypto (sampleServerFile [1] 0)).validateDataIntegrity [7] = 0 ∧
      (ServerRecord.file sampleFileCrypto (sampleServerFile [1] 0)).statusCode ⟨[], 0⟩ = 0 ∧
      (ServerRecord.file sampleFileCrypto (sampleServerFile [1] 0)).verificationRequest [3] ⟨[], 0⟩ =
        { contextId := [3], senderId := [1], senderPubKey := [2], date := 0,
          bridgeIdentity := none } ∧
      ¬ ((ServerRecord.file sampleFileCrypto (sampleServerFile [1] 0)).verificationRequest [3]
        ⟨[], 0⟩).NamesSigner
        { creatorUserId := [2], creatorPubKey := [2], contextId := [3], resourceId := [4],
          timestamp := 1000000, randomId := [5], containerId := some [6],
          containerResourceId := some [7], bridgeIdentity := none } := by
  refine ⟨rfl, rfl, rfl, fun h => ?_⟩
  exact absurd h.senderId (by decide)

end PrivmxEndpoint
