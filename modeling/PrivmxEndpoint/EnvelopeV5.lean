import PrivmxEndpoint.DataEncryptor
import PrivmxEndpoint.SignedItems
import PrivmxEndpoint.ThrowingPrograms

/-!
# The envelopes of version 5

Modules, files, messages and entries of a kvdb are encrypted field by field
(`DataEncryptorV4`), and a data integrity object with the checksums of the
encrypted fields is signed with the same key.  The four encryptors are near
copies of each other; `readItem` of the listings is the frame of their
decryption, and what differs are the format and the fields.

A public text that is a JSON object is also sent as an object.  A variant that
holds one is given by its text (`publicMetaObject`), since the encryptors only
compare texts.
-/

namespace PrivmxEndpoint

open Throwing

/-! ### The plain data -/

/-- `ModuleInternalMetaV5`. -/
structure ModuleInternalMetaV5 where
  secret : Bytes
  resourceId : Bytes
  randomId : Bytes
  deriving Repr, DecidableEq

/-- `ModuleDataToEncryptV5`. -/
structure ModuleDataToEncryptV5 where
  publicMeta : Bytes
  privateMeta : Bytes
  internalMeta : ModuleInternalMetaV5
  dio : DataIntegrityObject

/-- `FileMetaToEncryptV5`. -/
structure FileMetaToEncryptV5 where
  publicMeta : Bytes
  privateMeta : Bytes
  internalMeta : Bytes
  dio : DataIntegrityObject

/-- `MessageDataToEncryptV5` and `KvdbEntryDataToEncryptV5`. -/
structure MessageDataToEncryptV5 where
  publicMeta : Bytes
  privateMeta : Bytes
  data : Bytes
  internalMeta : Option Bytes
  dio : DataIntegrityObject

/-- The fields of all of them, as they are encrypted. -/
structure ItemToEncryptV5 where
  publicMeta : Bytes
  privateMeta : Bytes
  data : Option Bytes
  internalMeta : Option Bytes
  dio : DataIntegrityObject

/-- `DecryptedModuleDataV5`. -/
structure DecryptedModuleDataV5 where
  statusCode : Nat
  publicMeta : Bytes
  privateMeta : Bytes
  internalMeta : ModuleInternalMetaV5
  authorPubKey : Bytes
  dio : DataIntegrityObject

/-- The vectors that are drawn for the encrypted fields. -/
structure ItemIvs where
  privateMeta : Iv
  data : Iv
  internalMeta : Iv

/-- `{dio, .structureVersion = 5, .fieldChecksums = fieldChecksums}`. -/
def DataIntegrityObject.expanded (dio : DataIntegrityObject)
    (fieldChecksums : List (String × Bytes)) : ExpandedDataIntegrityObject :=
  { dio with structureVersion := 5, fieldChecksums := fieldChecksums }

/-- `dynamic::ModuleInternalMetaV5::toJSON`. -/
def ModuleInternalMetaV5.toJSON (m : ModuleInternalMetaV5) : JsonObject :=
  [("secret", .leaf (.string m.secret)), ("resourceId", .leaf (.string m.resourceId)),
    ("randomId", .leaf (.string m.randomId))]

open JsonHelper in
/-- `dynamic::ModuleInternalMetaV5::fromJSON`. -/
def ModuleInternalMetaV5.fromJSON (json : JsonObject) :
    Except EndpointException ModuleInternalMetaV5 := do
  let secret ← deserializeString (leafOf (member "secret" json))
  let resourceId ← deserializeString (leafOf (member "resourceId" json))
  let randomId ← deserializeString (leafOf (member "randomId" json))
  return { secret := secret, resourceId := resourceId, randomId := randomId }

/-- `ModulePublicDataMismatchException` and its siblings. -/
def modulePublicDataMismatch : ErrorCode := coreCode 0x0021

@[inherit_doc modulePublicDataMismatch]
def filePublicDataMismatch : ErrorCode := ⟨0x00040021, by decide⟩

@[inherit_doc modulePublicDataMismatch]
def messagePublicDataMismatch : ErrorCode := ⟨0x00030011, by decide⟩

@[inherit_doc modulePublicDataMismatch]
def kvdbEntryPublicDataMismatch : ErrorCode := ⟨0x0009000A, by decide⟩

/-- `ModuleDataEncryptorV5::assertDataFormat` and its checked fields. -/
def moduleFormat : ItemFormat where
  wellFormed e :=
    e.version = 5 && !e.publicMeta.isEmpty && !e.privateMeta.isEmpty &&
      !(e.internalMeta.getD []).isEmpty && !e.authorPubKey.isEmpty && !e.dio.isEmpty
  formatError := coreCode 0x0022
  checkedFields e :=
    [("publicMeta", e.publicMeta), ("privateMeta", e.privateMeta),
      ("internalMeta", e.internalMeta.getD [])]

variable {C : KeyCrypto} (E : EnvelopeLibrary C)

/-! ### Encryption -/

/-- The `encrypt` of the four encryptors. -/
def encryptItemV5 (x : ItemToEncryptV5) (authorPrivateKey : C.PrivateKey) (encryptionKey : Bytes)
    (ivs : ItemIvs) : Except EndpointException EncryptedItemV5 := do
  let publicMeta := DataEncryptorV4.signAndEncode E x.publicMeta authorPrivateKey
  let publicMetaObject := (E.stringifyParsed x.publicMeta).toOption
  let privateMeta ← DataEncryptorV4.signAndEncryptAndEncode E x.privateMeta authorPrivateKey
    encryptionKey ivs.privateMeta
  let data ← x.data.mapM fun d =>
    DataEncryptorV4.signAndEncryptAndEncode E d authorPrivateKey encryptionKey ivs.data
  let internalMeta ← x.internalMeta.mapM fun m =>
    DataEncryptorV4.signAndEncryptAndEncode E m authorPrivateKey encryptionKey ivs.internalMeta
  let fieldChecksums :=
    [("publicMeta", C.sha256 publicMeta), ("privateMeta", C.sha256 privateMeta)] ++
      (data.map fun d => ("data", C.sha256 d)).toList ++
      (internalMeta.map fun m => ("internalMeta", C.sha256 m)).toList
  let dio ← E.signAndEncode (x.dio.expanded fieldChecksums) authorPrivateKey
  return {
    version := 5
    publicMeta := publicMeta
    publicMetaObject := publicMetaObject
    privateMeta := privateMeta
    data := data.getD []
    internalMeta := internalMeta
    authorPubKey := C.toBase58DER (C.getPublicKey authorPrivateKey)
    dio := dio }

/-- The fields of a module's data, its internal metadata serialized. -/
def ModuleDataToEncryptV5.item (x : ModuleDataToEncryptV5) : ItemToEncryptV5 where
  publicMeta := x.publicMeta
  privateMeta := x.privateMeta
  data := none
  internalMeta := some (E.stringify x.internalMeta.toJSON)
  dio := x.dio

/-- The fields of a file's metadata. -/
def FileMetaToEncryptV5.item (x : FileMetaToEncryptV5) : ItemToEncryptV5 where
  publicMeta := x.publicMeta
  privateMeta := x.privateMeta
  data := none
  internalMeta := some x.internalMeta
  dio := x.dio

/-- The fields of a message or an entry. -/
def MessageDataToEncryptV5.item (x : MessageDataToEncryptV5) : ItemToEncryptV5 where
  publicMeta := x.publicMeta
  privateMeta := x.privateMeta
  data := some x.data
  internalMeta := x.internalMeta
  dio := x.dio

/-- `ModuleDataEncryptorV5::encrypt`. -/
def ModuleDataEncryptorV5.encrypt (x : ModuleDataToEncryptV5) :=
  encryptItemV5 E (x.item E)

/-- `FileMetaEncryptorV5::encrypt`. -/
def FileMetaEncryptorV5.encrypt (x : FileMetaToEncryptV5) :=
  encryptItemV5 E x.item

/-- `MessageDataEncryptorV5::encrypt`. -/
def MessageDataEncryptorV5.encrypt (x : MessageDataToEncryptV5) :=
  encryptItemV5 E x.item

/-- `EntryDataEncryptorV5::encrypt`. -/
def EntryDataEncryptorV5.encrypt (x : MessageDataToEncryptV5) :=
  encryptItemV5 E x.item

/-! ### Decryption -/

/-- `Utils::stringifyVar` of a public object. -/
def EnvelopeLibrary.stringifyVar : Option Bytes → Except EndpointException Bytes
  | some text => .ok text
  | none => E.stringifyEmpty

/-- The contents before the first field is read. -/
def ItemContents.unread : ItemContents where
  publicMeta := []
  privateMeta := []
  data := []
  internalMeta := none
  mismatchStatus := 0

/-- The contents that a decryption leaves behind, and its exception. -/
def contentsOf (m : Prog EndpointException ItemContents Unit) :
    ItemContents × Option EndpointException :=
  match exec m .unread with
  | (.ok (), c) => (c, none)
  | (.error e, c) => (c, some e)

/-- The part that `decrypt` and `extractPublic` share: the public metadata,
compared with the public object if `compared`. -/
def readPublicMeta (mismatch : ErrorCode) (compared : Bool) (encrypted : EncryptedItemV5) :
    Prog EndpointException ItemContents C.PublicKey := do
  let authorPublicKey ← lift (C.fromBase58DER encrypted.authorPubKey)
  let publicMeta ← lift (DataEncryptorV4.decodeAndVerify E encrypted.publicMeta authorPublicKey)
  modify fun c => { c with publicMeta := publicMeta }
  if compared then
    let tmp_1 ← lift (E.stringifyParsed publicMeta)
    let tmp_2 ← lift (E.stringifyVar encrypted.publicMetaObject)
    if tmp_1 ≠ tmp_2 then
      modify fun c => { c with mismatchStatus := mismatch.1 }
  return authorPublicKey

/-- One encrypted field. -/
def decryptField (text : Bytes) (authorPublicKey : C.PublicKey) (encryptionKey : Bytes)
    (store : Bytes → ItemContents → ItemContents) : Prog EndpointException ItemContents Unit := do
  let value ← lift (DataEncryptorV4.decodeAndDecryptAndVerify E text authorPublicKey encryptionKey)
  modify (store value)

@[inherit_doc decryptField]
def decryptPrivateMeta (encrypted : EncryptedItemV5) (authorPublicKey : C.PublicKey)
    (encryptionKey : Bytes) : Prog EndpointException ItemContents Unit :=
  decryptField E encrypted.privateMeta authorPublicKey encryptionKey
    fun value c => { c with privateMeta := value }

/-- The fields of `extractPublic`. -/
def extractPublicFields (mismatch : ErrorCode) (compared : Bool) (encrypted : EncryptedItemV5) :
    Prog EndpointException ItemContents Unit := do
  let _ ← readPublicMeta E mismatch compared encrypted

/-- The encrypted fields of a module.  The serialized internal metadata is kept
once it could be parsed. -/
def ModuleDataEncryptorV5.decryptFields (encrypted : EncryptedItemV5)
    (authorPublicKey : C.PublicKey) (encryptionKey : Bytes) :
    Prog EndpointException ItemContents Unit := do
  decryptPrivateMeta E encrypted authorPublicKey encryptionKey
  let internalMeta ← lift (DataEncryptorV4.decodeAndDecryptAndVerify E
    (encrypted.internalMeta.getD []) authorPublicKey encryptionKey)
  let _ ← lift (E.parseJsonObject internalMeta >>= ModuleInternalMetaV5.fromJSON)
  modify fun c => { c with internalMeta := some internalMeta }

/-- The encrypted fields of a file. -/
def FileMetaEncryptorV5.decryptFields (encrypted : EncryptedItemV5)
    (authorPublicKey : C.PublicKey) (encryptionKey : Bytes) :
    Prog EndpointException ItemContents Unit := do
  decryptPrivateMeta E encrypted authorPublicKey encryptionKey
  decryptField E (encrypted.internalMeta.getD []) authorPublicKey encryptionKey
    fun value c => { c with internalMeta := some value }

/-- The encrypted fields of a message or an entry. -/
def MessageDataEncryptorV5.decryptFields (encrypted : EncryptedItemV5)
    (authorPublicKey : C.PublicKey) (encryptionKey : Bytes) :
    Prog EndpointException ItemContents Unit := do
  decryptPrivateMeta E encrypted authorPublicKey encryptionKey
  decryptField E encrypted.data authorPublicKey encryptionKey
    fun value c => { c with data := value }
  match encrypted.internalMeta with
  | some internalMeta =>
      decryptField E internalMeta authorPublicKey encryptionKey
        fun value c => { c with internalMeta := some value }
  | none => pure ()

/-- The operations of the listings, over the concrete encryptors.  `undefined`
is what reading an absent bridge identity comes to. -/
def itemCryptoV5 (undefined : Except EndpointException BridgeIdentity) (mismatch : ErrorCode)
    (comparedPublic : EncryptedItemV5 → Bool)
    (decryptFields : EncryptedItemV5 → C.PublicKey → Bytes →
      Prog EndpointException ItemContents Unit) : ItemCrypto where
  sha256 := C.sha256
  decodeAndVerify := E.decodeAndVerify undefined
  decryptContents encrypted encryptionKey := contentsOf do
    let authorPublicKey ← readPublicMeta E mismatch encrypted.publicMetaObject.isSome encrypted
    decryptFields encrypted authorPublicKey encryptionKey
  extractPublicContents encrypted :=
    contentsOf (extractPublicFields E mismatch (comparedPublic encrypted) encrypted)

variable (undefined : Except EndpointException BridgeIdentity)

@[inherit_doc itemCryptoV5]
def ModuleDataEncryptorV5.crypto : ItemCrypto :=
  itemCryptoV5 E undefined modulePublicDataMismatch (fun e => e.publicMetaObject.isSome)
    (ModuleDataEncryptorV5.decryptFields E)

/-- Here `extractPublic` compares the two forms of the public metadata if there
is *no* public object. -/
def FileMetaEncryptorV5.crypto : ItemCrypto :=
  itemCryptoV5 E undefined filePublicDataMismatch (fun e => e.publicMetaObject.isNone)
    (FileMetaEncryptorV5.decryptFields E)

@[inherit_doc itemCryptoV5]
def MessageDataEncryptorV5.crypto : ItemCrypto :=
  itemCryptoV5 E undefined messagePublicDataMismatch (fun e => e.publicMetaObject.isSome)
    (MessageDataEncryptorV5.decryptFields E)

@[inherit_doc itemCryptoV5]
def EntryDataEncryptorV5.crypto : ItemCrypto :=
  itemCryptoV5 E undefined kvdbEntryPublicDataMismatch (fun e => e.publicMetaObject.isSome)
    (MessageDataEncryptorV5.decryptFields E)

/-- The result of a module's decryption, with its internal metadata parsed. -/
def DecryptedItemV5.moduleData (result : DecryptedItemV5) : DecryptedModuleDataV5 where
  statusCode := result.statusCode
  publicMeta := result.publicMeta
  privateMeta := result.privateMeta
  internalMeta :=
    match result.internalMeta.map fun text =>
      E.parseJsonObject text >>= ModuleInternalMetaV5.fromJSON with
    | some (.ok internalMeta) => internalMeta
    | _ => { secret := [], resourceId := [], randomId := [] }
  authorPubKey := result.authorPubKey
  dio := result.dio

/-- `decrypt`, for a format and operations. -/
def ItemCrypto.decrypt (crypto : ItemCrypto) (F : ItemFormat) (encrypted : EncryptedItemV5)
    (encryptionKey : Bytes) : DecryptedItemV5 :=
  crypto.readItem F (crypto.decryptContents · encryptionKey) encrypted

/-- `extractPublic`, for a format and operations. -/
def ItemCrypto.extractPublic (crypto : ItemCrypto) (F : ItemFormat) (encrypted : EncryptedItemV5) :
    DecryptedItemV5 :=
  crypto.readItem F crypto.extractPublicContents encrypted

/-- `ModuleDataEncryptorV5::decrypt`. -/
def ModuleDataEncryptorV5.decrypt (encrypted : EncryptedItemV5) (encryptionKey : Bytes) :
    DecryptedModuleDataV5 :=
  ((ModuleDataEncryptorV5.crypto E undefined).decrypt moduleFormat encrypted
    encryptionKey).moduleData E

/-- `ModuleDataEncryptorV5::extractPublic`. -/
def ModuleDataEncryptorV5.extractPublic (encrypted : EncryptedItemV5) : DecryptedModuleDataV5 :=
  ((ModuleDataEncryptorV5.crypto E undefined).extractPublic moduleFormat encrypted).moduleData E

/-- `FileMetaEncryptorV5::decrypt`. -/
def FileMetaEncryptorV5.decrypt (encrypted : EncryptedItemV5) (encryptionKey : Bytes) :
    DecryptedItemV5 :=
  (FileMetaEncryptorV5.crypto E undefined).decrypt fileFormat encrypted encryptionKey

/-- `FileMetaEncryptorV5::extractPublic`. -/
def FileMetaEncryptorV5.extractPublic (encrypted : EncryptedItemV5) : DecryptedItemV5 :=
  (FileMetaEncryptorV5.crypto E undefined).extractPublic fileFormat encrypted

/-- `MessageDataEncryptorV5::decrypt`. -/
def MessageDataEncryptorV5.decrypt (encrypted : EncryptedItemV5) (encryptionKey : Bytes) :
    DecryptedItemV5 :=
  (MessageDataEncryptorV5.crypto E undefined).decrypt
    (messageFormat invalidEncryptedMessageDataVersion) encrypted encryptionKey

/-- `MessageDataEncryptorV5::extractPublic`. -/
def MessageDataEncryptorV5.extractPublic (encrypted : EncryptedItemV5) : DecryptedItemV5 :=
  (MessageDataEncryptorV5.crypto E undefined).extractPublic
    (messageFormat invalidEncryptedMessageDataVersion) encrypted

/-- `EntryDataEncryptorV5::decrypt`. -/
def EntryDataEncryptorV5.decrypt (encrypted : EncryptedItemV5) (encryptionKey : Bytes) :
    DecryptedItemV5 :=
  (EntryDataEncryptorV5.crypto E undefined).decrypt
    (messageFormat invalidEncryptedKvdbEntryDataVersion) encrypted encryptionKey

/-- `EntryDataEncryptorV5::extractPublic`. -/
def EntryDataEncryptorV5.extractPublic (encrypted : EncryptedItemV5) : DecryptedItemV5 :=
  (EntryDataEncryptorV5.crypto E undefined).extractPublic
    (messageFormat invalidEncryptedKvdbEntryDataVersion) encrypted

end PrivmxEndpoint
