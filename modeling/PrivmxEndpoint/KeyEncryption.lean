import PrivmxEndpoint.DataIntegrity
import PrivmxEndpoint.ThrowingPrograms

/-!
# Encrypted keys and their signed integrity objects

A key of version 2 travels in two parts: the key itself, encrypted for one user
with ECIES, and a data integrity object that the sender has signed.  The object
holds a checksum of the encrypted key and the hash of the key's secret.  A key
of version 1 is an ECIES cipher alone.

The elliptic curve operations, Base64 and JSON are a parameter (`KeyCrypto`).
What is used of them is that reading inverts writing (`KeyCrypto.Lawful`).

Two reads have no check before them: of the bridge identity, also of an object
that has none, and of the first byte of a cipher, also of one without bytes.
What they give is a part of the parameter (`UndefinedReads`).
-/

namespace PrivmxEndpoint

/-- `EncKeyLocation`. -/
structure EncKeyLocation where
  contextId : Bytes
  resourceId : Bytes
  deriving Repr, DecidableEq

/-- `dynamic::DataIntegrityObject`, as it is written to JSON. -/
structure DioJson where
  version : Int
  creatorUserId : Bytes
  creatorPublicKey : Bytes
  contextId : Bytes
  resourceId : Bytes
  timestamp : Int
  randomId : Bytes
  containerId : Option Bytes
  containerResourceId : Option Bytes
  fieldChecksums : List (String × Bytes)
  structureVersion : Int
  bridgeIdentity : Option BridgeIdentity
  deriving Repr, DecidableEq

/-- `dynamic::EncryptionKey`. -/
structure EncryptionKeyJson where
  id : Bytes
  key : Bytes
  keySecret : Bytes
  deriving Repr, DecidableEq

/-- What comes of reads that are undefined: of the bridge identity of an object
that has none, and of the first byte of an empty cipher. -/
structure UndefinedReads where
  bridgeIdentity : Except EndpointException BridgeIdentity
  plain : Except EndpointException Bytes

/-- The operations that keys are protected with. -/
structure KeyCrypto where
  PrivateKey : Type
  PublicKey : Type
  getPublicKey : PrivateKey → PublicKey
  toBase58DER : PublicKey → Bytes
  fromBase58DER : Bytes → Except EndpointException PublicKey
  sha256 : Bytes → Bytes
  hmacSha256 : Bytes → Bytes → Bytes
  base64From : Bytes → Bytes
  base64ToString : Bytes → Bytes
  /-- A signature of the data, packed with the data and encoded. -/
  signAndPack : Bytes → PrivateKey → Bytes
  /-- The data and the check of its signature. -/
  extractDataWithSignature : Bytes → Except EndpointException (Bytes × (PublicKey → Bool))
  serializeDio : DioJson → Bytes
  parseDio : Bytes → Except EndpointException DioJson
  serializeKey : EncryptionKeyJson → Bytes
  parseKey : Bytes → Except EndpointException EncryptionKeyJson
  /-- `EciesEncryptor::encrypt`: receiver, data and sender. -/
  encrypt : PublicKey → Bytes → PrivateKey → Bytes
  /-- `EciesEncryptor::decrypt`: receiver, cipher and expected sender. -/
  decrypt : PrivateKey → Bytes → Option PublicKey → Except EndpointException Bytes
  undefined : UndefinedReads

/-- The same operations where the undefined reads give something else. -/
abbrev KeyCrypto.withUndefined (C : KeyCrypto) (undefined : UndefinedReads) : KeyCrypto :=
  { C with undefined := undefined }

/-- Reading inverts writing. -/
structure KeyCrypto.Lawful (C : KeyCrypto) : Prop where
  fromBase58DER_toBase58DER : ∀ p, C.fromBase58DER (C.toBase58DER p) = .ok p
  base64ToString_base64From : ∀ d, C.base64ToString (C.base64From d) = d
  base64From_eq_nil : ∀ d, C.base64From d = [] → d = []
  toBase58DER_ne_nil : ∀ p, C.toBase58DER p ≠ []
  extract_signAndPack : ∀ d k, ∃ verify,
    C.extractDataWithSignature (C.signAndPack d k) = .ok (d, verify) ∧
      verify (C.getPublicKey k) = true
  parseDio_serializeDio : ∀ j, C.parseDio (C.serializeDio j) = .ok j
  parseKey_serializeKey : ∀ j, C.parseKey (C.serializeKey j) = .ok j
  decrypt_encrypt : ∀ receiver d sender,
    C.decrypt receiver (C.encrypt (C.getPublicKey receiver) d sender)
      (some (C.getPublicKey sender)) = .ok d
  encrypt_ne_nil : ∀ p d sender, C.encrypt p d sender ≠ []

/-- `MalformedDataIntegrityObjectException` and others of `CoreException.hpp`. -/
def malformedDataIntegrityObject : ErrorCode := coreCode 0x0014

@[inherit_doc malformedDataIntegrityObject]
def dataIntegrityObjectMismatchEncKey : ErrorCode := coreCode 0x0016

@[inherit_doc malformedDataIntegrityObject]
def dataIntegrityObjectInvalidSignature : ErrorCode := coreCode 0x0017

@[inherit_doc malformedDataIntegrityObject]
def malformedEncryptionKey : ErrorCode := coreCode 0x0010

@[inherit_doc malformedDataIntegrityObject]
def unknownEncryptionKeyVersion : ErrorCode := coreCode 0x0011

@[inherit_doc malformedDataIntegrityObject]
def encryptionKeyContainerValidation : ErrorCode := coreCode 0x0012

section Encryptors

variable (C : KeyCrypto)

/-- The `dioJSON` of `signAndEncode`. -/
def ExpandedDataIntegrityObject.toJson (dio : ExpandedDataIntegrityObject) : DioJson where
  version := 1
  creatorUserId := dio.creatorUserId
  creatorPublicKey := dio.creatorPubKey
  contextId := dio.contextId
  resourceId := dio.resourceId
  timestamp := dio.timestamp
  randomId := dio.randomId
  containerId := dio.containerId
  containerResourceId := dio.containerResourceId
  fieldChecksums := dio.fieldChecksums.map fun c => (c.1, C.base64From c.2)
  structureVersion := dio.structureVersion
  bridgeIdentity := dio.bridgeIdentity

/-- `DIOEncryptorV1::signAndEncode`. -/
def DIOEncryptorV1.signAndEncode (dio : ExpandedDataIntegrityObject) (authorKey : C.PrivateKey) :
    Except EndpointException Bytes :=
  if dio.creatorPubKey ≠ C.toBase58DER (C.getPublicKey authorKey) then
    .error (.core dataIntegrityObjectMismatchEncKey)
  else
    .ok (C.signAndPack (C.serializeDio (dio.toJson C)) authorKey)

/-- `DIOEncryptorV1::assertDataFormat`. -/
def DIOEncryptorV1.wellFormed (dioJson : DioJson) : Bool :=
  dioJson.version = 1 && !dioJson.creatorUserId.isEmpty && !dioJson.creatorPublicKey.isEmpty &&
    !dioJson.contextId.isEmpty && !dioJson.randomId.isEmpty

/-- The `dioJSON` of `decodeAndVerify`, after the checks of its format and of its
signature. -/
def DIOEncryptorV1.verifiedJson (signedDio : Bytes) : Except EndpointException DioJson := do
  let (data, verifySignature) ← C.extractDataWithSignature signedDio
  let dioJson ← C.parseDio data
  if !DIOEncryptorV1.wellFormed dioJson then
    throw (.core malformedDataIntegrityObject)
  let creator ← C.fromBase58DER dioJson.creatorPublicKey
  if !verifySignature creator then
    throw (.core dataIntegrityObjectInvalidSignature)
  return dioJson

/-- The checksums of an object, decoded. -/
def DioJson.decodedChecksums (dioJson : DioJson) : List (String × Bytes) :=
  dioJson.fieldChecksums.map fun c => (c.1, C.base64ToString c.2)

/-- `dioJSON.bridgeIdentity->…`, without a check that there is one.  `undefined`
is what reading the fields of an absent value comes to. -/
def DIOEncryptorV1.readBridgeIdentity (undefined : Except EndpointException BridgeIdentity) :
    Option BridgeIdentity → Except EndpointException BridgeIdentity
  | some bridgeIdentity => .ok bridgeIdentity
  | none => undefined

/-- `DIOEncryptorV1::decodeAndVerify`. -/
def DIOEncryptorV1.decodeAndVerify (signedDio : Bytes) :
    Except EndpointException ExpandedDataIntegrityObject := do
  let dioJson ← DIOEncryptorV1.verifiedJson C signedDio
  let bridgeIdentity ←
    DIOEncryptorV1.readBridgeIdentity C.undefined.bridgeIdentity dioJson.bridgeIdentity
  return {
    creatorUserId := dioJson.creatorUserId
    creatorPubKey := dioJson.creatorPublicKey
    contextId := dioJson.contextId
    resourceId := dioJson.resourceId
    timestamp := dioJson.timestamp
    randomId := dioJson.randomId
    containerId := dioJson.containerId
    containerResourceId := dioJson.containerResourceId
    bridgeIdentity := some bridgeIdentity
    structureVersion := dioJson.structureVersion
    fieldChecksums := dioJson.decodedChecksums C }

/-- `EciesEncryptor::encryptToBase64`. -/
def EciesEncryptor.encryptToBase64 (pub : C.PublicKey) (data : Bytes)
    (privForSignature : C.PrivateKey) : Bytes :=
  C.base64From (C.encrypt pub data privForSignature)

/-- `EciesEncryptor::decryptFromBase64`.  The first byte of the cipher is read
before its length is looked at. -/
def EciesEncryptor.decryptFromBase64 (priv : C.PrivateKey) (cipherBase64 : Bytes)
    (pubOfSignature : Option C.PublicKey) : Except EndpointException Bytes :=
  if C.base64ToString cipherBase64 = [] then
    C.undefined.plain
  else
    C.decrypt priv (C.base64ToString cipherBase64) pubOfSignature

/-- `server::EncryptedKeyEntryDataV2`. -/
structure EncryptedKeyEntryDataV2 where
  version : Int
  encryptedKey : Bytes
  dio : Bytes
  deriving Repr, DecidableEq

/-- `EncKeyV2ToEncrypt`, without the location that the encryptor does not read. -/
structure EncKeyV2ToEncrypt where
  id : Bytes
  key : Bytes
  dio : DataIntegrityObject
  keySecret : Bytes
  secretHash : Bytes
  deriving Repr, DecidableEq

/-- `DecryptedEncKeyV2`. -/
structure DecryptedEncKeyV2 where
  id : Bytes
  key : Bytes
  dataStructureVersion : Int
  statusCode : Nat
  dio : ExpandedDataIntegrityObject
  keySecret : Bytes
  secretHash : Bytes
  deriving Repr, DecidableEq

/-- A key with nothing but its version and status. -/
def DecryptedEncKeyV2.blank (dataStructureVersion : Int) (statusCode : Nat) :
    DecryptedEncKeyV2 where
  id := []
  key := []
  dataStructureVersion := dataStructureVersion
  statusCode := statusCode
  dio :=
    { DataIntegrityObject.empty with
      structureVersion := 0
      fieldChecksums := [] }
  keySecret := []
  secretHash := []

/-- `EncKeyEncryptorV2::encrypt`. -/
def EncKeyEncryptorV2.encrypt (key : EncKeyV2ToEncrypt) (encryptionKey : C.PublicKey)
    (authorPrivateKey : C.PrivateKey) : Except EndpointException EncryptedKeyEntryDataV2 := do
  let encryptedKey := EciesEncryptor.encryptToBase64 C encryptionKey
    (C.serializeKey
      { id := key.id, key := C.base64From key.key, keySecret := C.base64From key.keySecret })
    authorPrivateKey
  let dio ← DIOEncryptorV1.signAndEncode C
    { key.dio with
      structureVersion := 2
      fieldChecksums := [("encryptedKey", C.sha256 encryptedKey), ("secretHash", key.secretHash)] }
    authorPrivateKey
  return { version := 2, encryptedKey := encryptedKey, dio := dio }

/-- `EncKeyEncryptorV2::decrypt`, inside its `try`.  An exception leaves the
fields behind that were set before it. -/
def EncKeyEncryptorV2.tryDecrypt (encrypted : EncryptedKeyEntryDataV2)
    (decryptionKey : C.PrivateKey) :
    Except (EndpointException × DecryptedEncKeyV2) DecryptedEncKeyV2 := do
  let result := DecryptedEncKeyV2.blank 2 0
  if encrypted.version ≠ 2 ∨ encrypted.encryptedKey = [] then
    throw (.core malformedEncryptionKey, result)
  let expandedDio ← (DIOEncryptorV1.decodeAndVerify C encrypted.dio).mapError (·, result)
  let result := { result with dio := expandedDio }
  let checksum ← (checksumAt expandedDio.fieldChecksums "encryptedKey").mapError (·, result)
  if checksum ≠ C.sha256 encrypted.encryptedKey then
    throw (.core invalidDataIntegrityObjectChecksum, result)
  let creator ← (C.fromBase58DER expandedDio.creatorPubKey).mapError (·, result)
  let plain ← (EciesEncryptor.decryptFromBase64 C decryptionKey encrypted.encryptedKey
    (some creator)).mapError (·, result)
  let decryptedKey ← (C.parseKey plain).mapError (·, result)
  if decryptedKey.id = [] ∨ decryptedKey.key = [] then
    throw (.core malformedEncryptionKey, result)
  let result :=
    { result with id := decryptedKey.id, key := C.base64ToString decryptedKey.key }
  let secretHash ← (checksumAt expandedDio.fieldChecksums "secretHash").mapError (·, result)
  return { result with
    secretHash := secretHash
    keySecret := C.base64ToString decryptedKey.keySecret }

/-- `EncKeyEncryptorV2::decrypt`. -/
def EncKeyEncryptorV2.decrypt (encrypted : EncryptedKeyEntryDataV2)
    (decryptionKey : C.PrivateKey) : DecryptedEncKeyV2 :=
  match EncKeyEncryptorV2.tryDecrypt C encrypted decryptionKey with
  | .ok result => result
  | .error (e, result) => { result with statusCode := e.statusCode.1 }

/-- `EncKeyEncryptorV1::decrypt`. -/
def EncKeyEncryptorV1.decrypt (encryptedEncKey : Bytes) (decryptionKey : C.PrivateKey) :
    Except EndpointException Bytes :=
  EciesEncryptor.decryptFromBase64 C decryptionKey encryptedEncKey none

/-- The encryptor of version 2 comes to an undefined read: the signed object has
no bridge identity, or the cipher that it covers has no bytes. -/
def EncKeyEncryptorV2.ReadsUndefined (encrypted : EncryptedKeyEntryDataV2) : Prop :=
  encrypted.version = 2 ∧ encrypted.encryptedKey ≠ [] ∧
    ∃ dioJson, DIOEncryptorV1.verifiedJson C encrypted.dio = .ok dioJson ∧
      (dioJson.bridgeIdentity = none ∨
        checksumAt (dioJson.decodedChecksums C) "encryptedKey" =
            .ok (C.sha256 encrypted.encryptedKey) ∧
          C.base64ToString encrypted.encryptedKey = [])

end Encryptors

/-! ## Round trips -/

section RoundTrip

variable {C : KeyCrypto}

/-- An object that its author can sign and that passes the check of its format:
what `createDIO` makes for the author's own user. -/
structure DataIntegrityObject.SignableBy (dio : DataIntegrityObject) (C : KeyCrypto)
    (author : C.PrivateKey) : Prop where
  creatorPubKey : dio.creatorPubKey = C.toBase58DER (C.getPublicKey author)
  creatorUserId : dio.creatorUserId ≠ []
  contextId : dio.contextId ≠ []
  randomId : dio.randomId ≠ []
  bridgeIdentity : ∃ b, dio.bridgeIdentity = some b

/-- A signed object passes the checks of its format and of its signature. -/
theorem DIOEncryptorV1.verifiedJson_signAndEncode (hC : C.Lawful) {author : C.PrivateKey}
    (dio : ExpandedDataIntegrityObject) (h : dio.toDataIntegrityObject.SignableBy C author) :
    ∃ signed, DIOEncryptorV1.signAndEncode C dio author = .ok signed ∧
      DIOEncryptorV1.verifiedJson C signed = .ok (dio.toJson C) := by
  refine ⟨_, by rw [DIOEncryptorV1.signAndEncode, if_neg (not_not.mpr h.creatorPubKey)], ?_⟩
  obtain ⟨verify, hextract, hverify⟩ := hC.extract_signAndPack (C.serializeDio (dio.toJson C)) author
  have hwf : DIOEncryptorV1.wellFormed (dio.toJson C) = true := by
    have hkey : dio.creatorPubKey ≠ [] := by
      rw [h.creatorPubKey]
      exact hC.toBase58DER_ne_nil _
    simp [DIOEncryptorV1.wellFormed, ExpandedDataIntegrityObject.toJson, hkey, h.creatorUserId,
      h.contextId, h.randomId]
  have hcreator : C.fromBase58DER (dio.toJson C).creatorPublicKey = .ok (C.getPublicKey author) := by
    rw [ExpandedDataIntegrityObject.toJson, h.creatorPubKey, hC.fromBase58DER_toBase58DER]
  simp only [DIOEncryptorV1.verifiedJson, hextract, hC.parseDio_serializeDio, hwf, hcreator,
    hverify, bind, Except.bind, Bool.not_true, Bool.false_eq_true, if_false, pure, Except.pure]

/-- A signed object is read back as it was. -/
theorem DIOEncryptorV1.decodeAndVerify_signAndEncode (hC : C.Lawful) {author : C.PrivateKey}
    (dio : ExpandedDataIntegrityObject) (h : dio.toDataIntegrityObject.SignableBy C author) :
    ∃ signed, DIOEncryptorV1.signAndEncode C dio author = .ok signed ∧
      DIOEncryptorV1.decodeAndVerify C signed = .ok dio := by
  obtain ⟨b, hb⟩ := h.bridgeIdentity
  obtain ⟨signed, hsigned, hjson⟩ := DIOEncryptorV1.verifiedJson_signAndEncode hC dio h
  have hbridge : (dio.toJson C).bridgeIdentity = some b := hb
  have hchecksums : (dio.toJson C).decodedChecksums C = dio.fieldChecksums := by
    simp [DioJson.decodedChecksums, ExpandedDataIntegrityObject.toJson, Function.comp_def,
      hC.base64ToString_base64From]
  refine ⟨signed, hsigned, ?_⟩
  simp only [DIOEncryptorV1.decodeAndVerify, hjson, DIOEncryptorV1.readBridgeIdentity, hbridge,
    hchecksums, bind, Except.bind, pure, Except.pure]
  rw [← hb]
  rfl

theorem EciesEncryptor.encryptToBase64_ne_nil (hC : C.Lawful) (p : C.PublicKey) (data : Bytes)
    (sender : C.PrivateKey) : EciesEncryptor.encryptToBase64 C p data sender ≠ [] :=
  fun h => hC.encrypt_ne_nil _ _ _ (hC.base64From_eq_nil _ h)

/-- The receiver of a cipher reads what the sender has encrypted. -/
theorem EciesEncryptor.decryptFromBase64_encryptToBase64 (hC : C.Lawful)
    (receiver : C.PrivateKey) (data : Bytes) (sender : C.PrivateKey) :
    EciesEncryptor.decryptFromBase64 C receiver
      (EciesEncryptor.encryptToBase64 C (C.getPublicKey receiver) data sender)
      (some (C.getPublicKey sender)) = .ok data := by
  unfold EciesEncryptor.decryptFromBase64 EciesEncryptor.encryptToBase64
  rw [hC.base64ToString_base64From, if_neg (hC.encrypt_ne_nil _ _ _)]
  exact hC.decrypt_encrypt receiver data sender

/-- What the user for whom a key was encrypted reads. -/
theorem EncKeyEncryptorV2.tryDecrypt_encrypt (hC : C.Lawful) (receiver : C.PrivateKey)
    {author : C.PrivateKey} (key : EncKeyV2ToEncrypt) (hdio : key.dio.SignableBy C author) :
    ∃ encrypted checksum,
      EncKeyEncryptorV2.encrypt C key (C.getPublicKey receiver) author = .ok encrypted ∧
        encrypted.version = 2 ∧
        EncKeyEncryptorV2.tryDecrypt C encrypted receiver =
          let result : DecryptedEncKeyV2 :=
            { DecryptedEncKeyV2.blank 2 0 with
              dio :=
                { key.dio with
                  structureVersion := 2
                  fieldChecksums := [("encryptedKey", checksum), ("secretHash", key.secretHash)] } }
          if key.id = [] ∨ C.base64From key.key = [] then
            .error (.core malformedEncryptionKey, result)
          else
            .ok { result with
              id := key.id
              key := key.key
              keySecret := key.keySecret
              secretHash := key.secretHash } := by
  let keyJson : EncryptionKeyJson :=
    { id := key.id, key := C.base64From key.key, keySecret := C.base64From key.keySecret }
  let cipher :=
    EciesEncryptor.encryptToBase64 C (C.getPublicKey receiver) (C.serializeKey keyJson) author
  let expanded : ExpandedDataIntegrityObject :=
    { key.dio with
      structureVersion := 2
      fieldChecksums := [("encryptedKey", C.sha256 cipher), ("secretHash", key.secretHash)] }
  obtain ⟨signed, hsigned, hdecode⟩ :=
    DIOEncryptorV1.decodeAndVerify_signAndEncode hC expanded hdio
  have hcipher : cipher ≠ [] := EciesEncryptor.encryptToBase64_ne_nil hC _ _ _
  have hcreator : C.fromBase58DER expanded.creatorPubKey = .ok (C.getPublicKey author) := by
    rw [show expanded.creatorPubKey = C.toBase58DER (C.getPublicKey author) from
      hdio.creatorPubKey, hC.fromBase58DER_toBase58DER]
  have hplain : EciesEncryptor.decryptFromBase64 C receiver cipher
      (some (C.getPublicKey author)) = .ok (C.serializeKey keyJson) :=
    EciesEncryptor.decryptFromBase64_encryptToBase64 hC _ _ _
  have hchecksum : checksumAt expanded.fieldChecksums "encryptedKey" = .ok (C.sha256 cipher) := rfl
  have hsecret : checksumAt expanded.fieldChecksums "secretHash" = .ok key.secretHash := rfl
  refine ⟨⟨2, cipher, signed⟩, C.sha256 cipher, ?_, rfl, ?_⟩
  · simp only [EncKeyEncryptorV2.encrypt]
    rw [hsigned]
    rfl
  · simp only [EncKeyEncryptorV2.tryDecrypt, ne_eq, not_true_eq_false, hcipher, or_self, if_false,
      hdecode, hchecksum, hcreator, hplain, hC.parseKey_serializeKey, hsecret, Except.mapError,
      bind, Except.bind, pure, Except.pure]
    by_cases hempty : keyJson.id = [] ∨ keyJson.key = []
    · rw [if_pos hempty, if_pos hempty]
      rfl
    · rw [if_neg hempty, if_neg hempty]
      simp only [keyJson, hC.base64ToString_base64From]
      rfl

/-- **A key of version 2** is read back by the user it was encrypted for. -/
theorem EncKeyEncryptorV2.decrypt_encrypt (hC : C.Lawful) (receiver : C.PrivateKey)
    {author : C.PrivateKey} (key : EncKeyV2ToEncrypt) (hdio : key.dio.SignableBy C author) (hid : key.id ≠ [])
    (hkey : key.key ≠ []) :
    ∃ encrypted checksum,
      EncKeyEncryptorV2.encrypt C key (C.getPublicKey receiver) author = .ok encrypted ∧
        encrypted.version = 2 ∧
        EncKeyEncryptorV2.decrypt C encrypted receiver =
          { id := key.id
            key := key.key
            dataStructureVersion := 2
            statusCode := 0
            dio :=
              { key.dio with
                structureVersion := 2
                fieldChecksums := [("encryptedKey", checksum), ("secretHash", key.secretHash)] }
            keySecret := key.keySecret
            secretHash := key.secretHash } := by
  obtain ⟨encrypted, checksum, hencrypt, hversion, hopen⟩ :=
    EncKeyEncryptorV2.tryDecrypt_encrypt hC receiver key hdio
  refine ⟨encrypted, checksum, hencrypt, hversion, ?_⟩
  have hfull : ¬ (key.id = [] ∨ C.base64From key.key = []) :=
    not_or.mpr ⟨hid, fun h => hkey (hC.base64From_eq_nil _ h)⟩
  simp only [if_neg hfull] at hopen
  rw [EncKeyEncryptorV2.decrypt, hopen]
  rfl

/-- A key without bytes is refused by the user it was encrypted for. -/
theorem EncKeyEncryptorV2.decrypt_encrypt_of_empty (hC : C.Lawful) (receiver : C.PrivateKey)
    {author : C.PrivateKey} (key : EncKeyV2ToEncrypt) (hdio : key.dio.SignableBy C author)
    (hempty : C.base64From key.key = []) :
    ∃ encrypted,
      EncKeyEncryptorV2.encrypt C key (C.getPublicKey receiver) author = .ok encrypted ∧
        encrypted.version = 2 ∧
        (EncKeyEncryptorV2.decrypt C encrypted receiver).statusCode = malformedEncryptionKey.1 := by
  obtain ⟨encrypted, checksum, hencrypt, hversion, hopen⟩ :=
    EncKeyEncryptorV2.tryDecrypt_encrypt hC receiver key hdio
  refine ⟨encrypted, hencrypt, hversion, ?_⟩
  simp only [if_pos (show key.id = [] ∨ C.base64From key.key = [] from Or.inr hempty)] at hopen
  rw [EncKeyEncryptorV2.decrypt, hopen]
  rfl

theorem mapError_eq_ok {ε ε' α : Type} {f : ε → ε'} {x : Except ε α} {a : α}
    (h : x.mapError f = .ok a) : x = .ok a := by
  cases x with
  | error e => cases h
  | ok a' => cases h; rfl

/-- The checks of an object that is verified. -/
theorem DIOEncryptorV1.of_verifiedJson {signed : Bytes} {dioJson : DioJson}
    (h : DIOEncryptorV1.verifiedJson C signed = .ok dioJson) :
    DIOEncryptorV1.wellFormed dioJson = true ∧
      ∃ creator, C.fromBase58DER dioJson.creatorPublicKey = .ok creator := by
  obtain ⟨⟨data, verify⟩, -, h⟩ := Throwing.bind_eq_ok h
  obtain ⟨json, -, h⟩ := Throwing.bind_eq_ok h
  by_cases hwf : DIOEncryptorV1.wellFormed json
  · simp only [hwf, Bool.not_true, Bool.false_eq_true, if_false] at h
    obtain ⟨creator, hcreator, h⟩ := Throwing.bind_eq_ok h
    split at h
    · cases h
    · cases h
      exact ⟨hwf, creator, hcreator⟩
  · simp only [hwf] at h
    cases h

/-- An object that is decoded has a random id. -/
theorem DIOEncryptorV1.randomId_ne_nil {signed : Bytes} {dio : ExpandedDataIntegrityObject}
    (h : DIOEncryptorV1.decodeAndVerify C signed = .ok dio) : dio.randomId ≠ [] := by
  obtain ⟨dioJson, hjson, h⟩ := Throwing.bind_eq_ok h
  obtain ⟨bridgeIdentity, -, h⟩ := Throwing.bind_eq_ok h
  cases h
  have hwf := (DIOEncryptorV1.of_verifiedJson hjson).1
  simp only [DIOEncryptorV1.wellFormed, Bool.and_eq_true] at hwf
  simpa using hwf.2

theorem EncKeyEncryptorV2.of_tryDecrypt {encrypted : EncryptedKeyEntryDataV2}
    {receiver : C.PrivateKey} {key : DecryptedEncKeyV2}
    (h : EncKeyEncryptorV2.tryDecrypt C encrypted receiver = .ok key) :
    key.id ≠ [] ∧ key.dio.randomId ≠ [] ∧ key.dataStructureVersion = 2 := by
  unfold EncKeyEncryptorV2.tryDecrypt at h
  simp only at h
  split at h
  · cases h
  obtain ⟨dio, hdio, h⟩ := Throwing.bind_eq_ok h
  obtain ⟨checksum, -, h⟩ := Throwing.bind_eq_ok h
  split at h
  · cases h
  obtain ⟨creator, -, h⟩ := Throwing.bind_eq_ok h
  obtain ⟨plain, -, h⟩ := Throwing.bind_eq_ok h
  obtain ⟨decryptedKey, -, h⟩ := Throwing.bind_eq_ok h
  split at h
  · cases h
  rename_i hfull
  obtain ⟨secretHash, -, h⟩ := Throwing.bind_eq_ok h
  cases h
  exact ⟨(not_or.mp hfull).1, DIOEncryptorV1.randomId_ne_nil (mapError_eq_ok hdio), rfl⟩

/-- A decrypted key of status zero has an id and a random id. -/
theorem EncKeyEncryptorV2.ne_nil_of_decrypt {encrypted : EncryptedKeyEntryDataV2}
    {receiver : C.PrivateKey}
    (hzero : (EncKeyEncryptorV2.decrypt C encrypted receiver).statusCode = 0) :
    (EncKeyEncryptorV2.decrypt C encrypted receiver).id ≠ [] ∧
      (EncKeyEncryptorV2.decrypt C encrypted receiver).dio.randomId ≠ [] ∧
      (EncKeyEncryptorV2.decrypt C encrypted receiver).dataStructureVersion = 2 := by
  unfold EncKeyEncryptorV2.decrypt at hzero ⊢
  cases hopen : EncKeyEncryptorV2.tryDecrypt C encrypted receiver with
  | ok key => exact EncKeyEncryptorV2.of_tryDecrypt hopen
  | error e =>
      rw [hopen] at hzero
      exact absurd hzero e.1.statusCode.2
end RoundTrip

/-! ## Undefined reads -/

section Undefined

variable {C : KeyCrypto}

/-- An object that has a bridge identity is decoded without an undefined read. -/
theorem DIOEncryptorV1.decodeAndVerify_withUndefined {signed : Bytes}
    (h : ∀ dioJson, DIOEncryptorV1.verifiedJson C signed = .ok dioJson →
      dioJson.bridgeIdentity ≠ none) (undefined : UndefinedReads) :
    DIOEncryptorV1.decodeAndVerify (C.withUndefined undefined) signed =
      DIOEncryptorV1.decodeAndVerify C signed := by
  have hjson : DIOEncryptorV1.verifiedJson (C.withUndefined undefined) signed =
      DIOEncryptorV1.verifiedJson C signed := rfl
  unfold DIOEncryptorV1.decodeAndVerify
  rw [hjson]
  cases hverified : DIOEncryptorV1.verifiedJson C signed with
  | error e => rfl
  | ok dioJson =>
      obtain ⟨b, hb⟩ := Option.ne_none_iff_exists'.mp (h dioJson hverified)
      simp only [hb, DIOEncryptorV1.readBridgeIdentity, bind, Except.bind]
      rfl

/-- A decryption that comes to no undefined read does not depend on what such
reads give. -/
theorem EncKeyEncryptorV2.decrypt_withUndefined {encrypted : EncryptedKeyEntryDataV2}
    (h : ¬ EncKeyEncryptorV2.ReadsUndefined C encrypted) (receiver : C.PrivateKey)
    (undefined : UndefinedReads) :
    EncKeyEncryptorV2.decrypt (C.withUndefined undefined) encrypted receiver =
      EncKeyEncryptorV2.decrypt C encrypted receiver := by
  have hopen : EncKeyEncryptorV2.tryDecrypt (C.withUndefined undefined) encrypted receiver =
      EncKeyEncryptorV2.tryDecrypt C encrypted receiver := by
    unfold EncKeyEncryptorV2.tryDecrypt
    by_cases hformat : encrypted.version ≠ 2 ∨ encrypted.encryptedKey = []
    · rw [if_pos hformat, if_pos hformat]
      rfl
    obtain ⟨hversion, hkey⟩ := not_or.mp hformat
    rw [if_neg hformat, if_neg hformat, DIOEncryptorV1.decodeAndVerify_withUndefined
      fun dioJson hjson hnone => h ⟨not_not.mp hversion, hkey, dioJson, hjson, Or.inl hnone⟩]
    cases hdecode : DIOEncryptorV1.decodeAndVerify C encrypted.dio with
    | error e => rfl
    | ok dio =>
        obtain ⟨dioJson, hjson, hrest⟩ := Throwing.bind_eq_ok hdecode
        obtain ⟨b, -, hrest⟩ := Throwing.bind_eq_ok hrest
        have hsums : dio.fieldChecksums = dioJson.decodedChecksums C := by
          cases hrest
          rfl
        simp only [bind, Except.bind, Except.mapError]
        cases hchecksum : checksumAt dio.fieldChecksums "encryptedKey" with
        | error e => rfl
        | ok checksum =>
            by_cases hsame : checksum = C.sha256 encrypted.encryptedKey
            · have hbytes : C.base64ToString encrypted.encryptedKey ≠ [] := fun hempty =>
                h ⟨not_not.mp hversion, hkey, dioJson, hjson,
                  Or.inr ⟨by rw [← hsums, hchecksum, hsame], hempty⟩⟩
              simp only [EciesEncryptor.decryptFromBase64, if_neg hbytes]
            · simp only [hsame, ne_eq, not_false_eq_true, if_true]
              rfl
  unfold EncKeyEncryptorV2.decrypt
  rw [hopen]

/-- The undefined reads decide on the status of a key whose decryption comes to
one of them. -/
theorem EncKeyEncryptorV2.statusCode_of_readsUndefined {encrypted : EncryptedKeyEntryDataV2}
    (h : EncKeyEncryptorV2.ReadsUndefined C encrypted) (receiver : C.PrivateKey)
    (e : EndpointException) :
    (EncKeyEncryptorV2.decrypt (C.withUndefined ⟨.error e, .error e⟩) encrypted
      receiver).statusCode = e.statusCode.1 := by
  obtain ⟨hversion, hkey, dioJson, hjson, hread⟩ := h
  have hformat : ¬ (encrypted.version ≠ 2 ∨ encrypted.encryptedKey = []) :=
    not_or.mpr ⟨not_not.mpr hversion, hkey⟩
  obtain ⟨-, creator, hcreator⟩ := DIOEncryptorV1.of_verifiedJson hjson
  have hverified : DIOEncryptorV1.verifiedJson (C.withUndefined ⟨.error e, .error e⟩)
      encrypted.dio = .ok dioJson := hjson
  unfold EncKeyEncryptorV2.decrypt EncKeyEncryptorV2.tryDecrypt DIOEncryptorV1.decodeAndVerify
  rw [if_neg hformat, hverified]
  cases hidentity : dioJson.bridgeIdentity with
  | none =>
      simp only [hidentity, DIOEncryptorV1.readBridgeIdentity, bind, Except.bind, Except.mapError]
  | some b =>
      obtain ⟨hchecksum, hempty⟩ := hread.resolve_left (by rw [hidentity]; exact Option.some_ne_none b)
      simp only [DioJson.decodedChecksums] at hchecksum
      simp only [hidentity, DIOEncryptorV1.readBridgeIdentity, DioJson.decodedChecksums, hchecksum,
        hcreator, EciesEncryptor.decryptFromBase64, hempty, bind, Except.bind, Except.mapError,
        pure, Except.pure, ne_eq, not_true_eq_false, if_false, if_true]

/-- A key that is encrypted for a user comes to no undefined read. -/
theorem EncKeyEncryptorV2.not_readsUndefined_of_encrypt (hC : C.Lawful) {receiver : C.PublicKey}
    {author : C.PrivateKey} {key : EncKeyV2ToEncrypt} (hdio : key.dio.SignableBy C author)
    {encrypted : EncryptedKeyEntryDataV2}
    (h : EncKeyEncryptorV2.encrypt C key receiver author = .ok encrypted) :
    ¬ EncKeyEncryptorV2.ReadsUndefined C encrypted := by
  unfold EncKeyEncryptorV2.encrypt at h
  obtain ⟨dio, hsigned, h⟩ := Throwing.bind_eq_ok h
  cases h
  rintro ⟨-, -, dioJson, hjson, hread⟩
  let expanded : ExpandedDataIntegrityObject :=
    { key.dio with
      structureVersion := 2
      fieldChecksums :=
        [("encryptedKey", C.sha256 (EciesEncryptor.encryptToBase64 C receiver
          (C.serializeKey
            { id := key.id, key := C.base64From key.key, keySecret := C.base64From key.keySecret })
          author)), ("secretHash", key.secretHash)] }
  obtain ⟨signed, hsigned', hverified⟩ :=
    DIOEncryptorV1.verifiedJson_signAndEncode hC expanded hdio
  rw [hsigned] at hsigned'
  obtain rfl := Except.ok.inj hsigned'
  rw [hverified] at hjson
  obtain rfl := Except.ok.inj hjson
  rcases hread with hnone | ⟨-, hempty⟩
  · obtain ⟨b, hb⟩ := hdio.bridgeIdentity
    exact Option.some_ne_none b (hb.symm.trans hnone)
  · rw [EciesEncryptor.encryptToBase64, hC.base64ToString_base64From] at hempty
    exact hC.encrypt_ne_nil _ _ _ hempty

end Undefined

/-! ## A lawful instance -/

instance instEncodableUInt8 : Encodable UInt8 :=
  Encodable.ofLeftInverse UInt8.toNat UInt8.ofNat fun b => by simp

instance instEncodableChar : Encodable Char :=
  Encodable.ofLeftInverse Char.toNat Char.ofNat Char.ofNat_toNat

instance instEncodableString : Encodable String :=
  Encodable.ofLeftInverse String.toList String.ofList fun s => by simp

deriving instance Encodable for BridgeIdentity
deriving instance Encodable for DioJson
deriving instance Encodable for EncryptionKeyJson

/-- Values written as a number of zeros. -/
def unaryWrite {α : Type} [Encodable α] (a : α) : Bytes :=
  List.replicate (Encodable.encode a) 0

@[inherit_doc unaryWrite]
def unaryRead {α : Type} [Encodable α] (b : Bytes) : Except EndpointException α :=
  match Encodable.decode b.length with
  | none => .error .other
  | some a => .ok a

theorem unaryRead_unaryWrite {α : Type} [Encodable α] (a : α) :
    unaryRead (unaryWrite a) = .ok a := by
  rw [unaryRead, unaryWrite, List.length_replicate, Encodable.encodek]

/-- Keys that are bytes: a signature is the key in front of the data, a cipher
is the receiver and the sender in front of it. -/
def sampleKeyCrypto : KeyCrypto where
  PrivateKey := UInt8
  PublicKey := UInt8
  getPublicKey k := k
  toBase58DER p := [p]
  fromBase58DER
    | [p] => .ok p
    | _ => .error .other
  sha256 d := d
  hmacSha256 k d := k ++ d
  base64From d := d
  base64ToString d := d
  signAndPack d k := k :: d
  extractDataWithSignature
    | k :: d => .ok (d, fun p => p = k)
    | [] => .error .other
  serializeDio := unaryWrite
  parseDio := unaryRead
  serializeKey := unaryWrite
  parseKey := unaryRead
  encrypt receiver d sender := receiver :: sender :: d
  decrypt receiver cipher expected :=
    match cipher with
    | r :: s :: d => if r = receiver ∧ expected.getD s = s then .ok d else .error .other
    | _ => .error .other
  undefined := ⟨.error .other, .error .other⟩

theorem sampleKeyCrypto_lawful : sampleKeyCrypto.Lawful where
  fromBase58DER_toBase58DER _ := rfl
  base64ToString_base64From _ := rfl
  base64From_eq_nil _ h := h
  toBase58DER_ne_nil _ := List.cons_ne_nil _ _
  extract_signAndPack d k := by
    refine ⟨_, rfl, ?_⟩
    exact @decide_eq_true _ (instDecidableEqUInt8 k k) rfl
  parseDio_serializeDio j := by simp only [sampleKeyCrypto, unaryRead_unaryWrite]
  parseKey_serializeKey j := by simp only [sampleKeyCrypto, unaryRead_unaryWrite]
  decrypt_encrypt receiver d sender := if_pos ⟨rfl, rfl⟩
  encrypt_ne_nil _ _ _ := List.cons_ne_nil _ _

end PrivmxEndpoint
