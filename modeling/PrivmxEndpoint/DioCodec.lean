import PrivmxEndpoint.KeyEncryption

/-!
# The encoding of data integrity objects

`DIOEncryptorV1` writes an object as JSON, signs the text, puts signature and
text into a container of `DataInnerEncryptorV4` and encodes that with Base64.
The fields of the JSON object, the container and the order of the checks are
those of the source; the parser, Base64 and the signatures are a parameter
(`DioLibrary`).

The decoder reads the bridge identity of every object, also of one that has
none.  What that read gives is left open.
-/

namespace PrivmxEndpoint

/-! ### JSON objects -/

/-- A value that holds no other value.  Arrays, truth values, fractions and
objects inside of two others are not told apart. -/
inductive JsonLeaf
  | null
  | integer (n : Int)
  | string (s : Bytes)
  | other
  deriving Repr, DecidableEq

/-- `Poco::Dynamic::Var`, as the fields of an integrity object need it. -/
inductive JsonValue
  | leaf (value : JsonLeaf)
  | object (fields : List (String × JsonLeaf))
  deriving Repr, DecidableEq

/-- `Poco::JSON::Object`.  The library keeps the members in an order of its own;
a map of the source is listed in that order. -/
abbrev JsonObject := List (String × JsonValue)

/-- `utils::JSONParseException`, as `ExceptionConverter` gives it back. -/
def jsonParse : EndpointException := .privmx ⟨0xE0030008, by decide⟩

namespace JsonHelper

/-- `JSON->has(name) ? JSON->get(name) : Var()`. -/
def member (name : String) (json : JsonObject) : JsonValue :=
  (json.lookup name).getD (.leaf .null)

@[inherit_doc member]
def leafMember (name : String) (fields : List (String × JsonLeaf)) : JsonLeaf :=
  (fields.lookup name).getD .null

/-- `deserialize<std::string>`. -/
def deserializeString : JsonLeaf → Except EndpointException Bytes
  | .string s => .ok s
  | _ => .error jsonParse

/-- `deserialize<int64_t>`. -/
def deserializeInt64 : JsonLeaf → Except EndpointException Int
  | .integer n => .ok n
  | _ => .error jsonParse

/-- `deserialize<std::optional<std::string>>`. -/
def deserializeOptionalString : JsonLeaf → Except EndpointException (Option Bytes)
  | .null => .ok none
  | value => (deserializeString value).map some

/-- A value where a string or a number is read; an object is neither. -/
def leafOf : JsonValue → JsonLeaf
  | .leaf value => value
  | .object _ => .other

/-- `deserializeUnorderedMap<std::string>`. -/
def deserializeUnorderedMap : JsonValue → Except EndpointException (List (String × Bytes))
  | .leaf _ => .error jsonParse
  | .object fields =>
      fields.mapM fun field => do
        let value ← deserializeString field.2
        return (field.1, value)

/-- A member that is written only if there is a value. -/
def optionalMember (name : String) : Option JsonValue → JsonObject
  | none => []
  | some value => [(name, value)]

@[inherit_doc optionalMember]
def optionalLeaf (name : String) : Option Bytes → List (String × JsonLeaf)
  | none => []
  | some value => [(name, .string value)]

end JsonHelper

open JsonHelper

/-- `dynamic::BridgeIdentity::toJSON`. -/
def BridgeIdentity.toJSON (b : BridgeIdentity) : List (String × JsonLeaf) :=
  ("url", .string b.url) :: optionalLeaf "pubKey" b.pubKey ++
    optionalLeaf "instanceId" b.instanceId

/-- `dynamic::BridgeIdentity::fromJSON`. -/
def BridgeIdentity.fromJSON (fields : List (String × JsonLeaf)) :
    Except EndpointException BridgeIdentity := do
  let url ← deserializeString (leafMember "url" fields)
  let pubKey ← deserializeOptionalString (leafMember "pubKey" fields)
  let instanceId ← deserializeOptionalString (leafMember "instanceId" fields)
  return { url := url, pubKey := pubKey, instanceId := instanceId }

/-- `deserialize<std::optional<BridgeIdentity>>`. -/
def JsonHelper.deserializeBridgeIdentity :
    JsonValue → Except EndpointException (Option BridgeIdentity)
  | .leaf .null => .ok none
  | .leaf _ => .error jsonParse
  | .object fields => (BridgeIdentity.fromJSON fields).map some

/-- `dynamic::DataIntegrityObject::toJSON`. -/
def DioJson.toJSON (j : DioJson) : JsonObject :=
  [("version", .leaf (.integer j.version)),
    ("creatorUserId", .leaf (.string j.creatorUserId)),
    ("creatorPublicKey", .leaf (.string j.creatorPublicKey)),
    ("contextId", .leaf (.string j.contextId)),
    ("resourceId", .leaf (.string j.resourceId)),
    ("timestamp", .leaf (.integer j.timestamp)),
    ("randomId", .leaf (.string j.randomId))] ++
  optionalMember "containerId" (j.containerId.map fun s => .leaf (.string s)) ++
  optionalMember "containerResourceId" (j.containerResourceId.map fun s => .leaf (.string s)) ++
  [("fieldChecksums", .object (j.fieldChecksums.map fun c => (c.1, .string c.2))),
    ("structureVersion", .leaf (.integer j.structureVersion))] ++
  optionalMember "bridgeIdentity" (j.bridgeIdentity.map fun b => .object b.toJSON)

/-- `dynamic::DataIntegrityObject::fromJSON`. -/
def DioJson.fromJSON (json : JsonObject) : Except EndpointException DioJson := do
  let version ← deserializeInt64 (leafOf (member "version" json))
  let creatorUserId ← deserializeString (leafOf (member "creatorUserId" json))
  let creatorPublicKey ← deserializeString (leafOf (member "creatorPublicKey" json))
  let contextId ← deserializeString (leafOf (member "contextId" json))
  let resourceId ← deserializeString (leafOf (member "resourceId" json))
  let timestamp ← deserializeInt64 (leafOf (member "timestamp" json))
  let randomId ← deserializeString (leafOf (member "randomId" json))
  let containerId ← deserializeOptionalString (leafOf (member "containerId" json))
  let containerResourceId ← deserializeOptionalString (leafOf (member "containerResourceId" json))
  let fieldChecksums ← deserializeUnorderedMap (member "fieldChecksums" json)
  let structureVersion ← deserializeInt64 (leafOf (member "structureVersion" json))
  let bridgeIdentity ← deserializeBridgeIdentity (member "bridgeIdentity" json)
  return {
    version := version
    creatorUserId := creatorUserId
    creatorPublicKey := creatorPublicKey
    contextId := contextId
    resourceId := resourceId
    timestamp := timestamp
    randomId := randomId
    containerId := containerId
    containerResourceId := containerResourceId
    fieldChecksums := fieldChecksums
    structureVersion := structureVersion
    bridgeIdentity := bridgeIdentity }

/-! ### Reading JSON back -/

/-- A bridge identity is read back. -/
theorem BridgeIdentity.fromJSON_toJSON (b : BridgeIdentity) :
    BridgeIdentity.fromJSON b.toJSON = .ok b := by
  obtain ⟨url, pubKey, instanceId⟩ := b
  cases pubKey with
  | none =>
      cases instanceId with
      | none => rfl
      | some i => rfl
  | some p =>
      cases instanceId with
      | none => rfl
      | some i => rfl

/-- A map of strings is read back. -/
theorem JsonHelper.deserializeUnorderedMap_strings (map : List (String × Bytes)) :
    deserializeUnorderedMap (.object (map.map fun c => (c.1, .string c.2))) = .ok map := by
  show (map.map fun c => (c.1, JsonLeaf.string c.2)).mapM (fun field => do
    let value ← deserializeString field.2
    return (field.1, value)) = Except.ok map
  induction map with
  | nil => rfl
  | cons c map ih =>
      rw [List.map_cons, List.mapM_cons, ih]
      rfl

/-- The members of an integrity object, by name. -/
theorem DioJson.member_toJSON (j : DioJson) :
    member "containerId" j.toJSON =
        (j.containerId.map fun s => JsonValue.leaf (.string s)).getD (.leaf .null) ∧
      member "containerResourceId" j.toJSON =
        (j.containerResourceId.map fun s => JsonValue.leaf (.string s)).getD (.leaf .null) ∧
      member "fieldChecksums" j.toJSON =
        .object (j.fieldChecksums.map fun c => (c.1, .string c.2)) ∧
      member "structureVersion" j.toJSON = .leaf (.integer j.structureVersion) ∧
      member "bridgeIdentity" j.toJSON =
        (j.bridgeIdentity.map fun b => JsonValue.object b.toJSON).getD (.leaf .null) := by
  unfold DioJson.toJSON
  cases j.containerId with
  | none =>
      cases j.containerResourceId with
      | none =>
          cases j.bridgeIdentity with
          | none => exact ⟨rfl, rfl, rfl, rfl, rfl⟩
          | some b => exact ⟨rfl, rfl, rfl, rfl, rfl⟩
      | some r =>
          cases j.bridgeIdentity with
          | none => exact ⟨rfl, rfl, rfl, rfl, rfl⟩
          | some b => exact ⟨rfl, rfl, rfl, rfl, rfl⟩
  | some c =>
      cases j.containerResourceId with
      | none =>
          cases j.bridgeIdentity with
          | none => exact ⟨rfl, rfl, rfl, rfl, rfl⟩
          | some b => exact ⟨rfl, rfl, rfl, rfl, rfl⟩
      | some r =>
          cases j.bridgeIdentity with
          | none => exact ⟨rfl, rfl, rfl, rfl, rfl⟩
          | some b => exact ⟨rfl, rfl, rfl, rfl, rfl⟩

/-- An optional string is read back. -/
theorem JsonHelper.deserializeOptionalString_map (s : Option Bytes) :
    deserializeOptionalString
        (leafOf ((s.map fun s => JsonValue.leaf (.string s)).getD (.leaf .null))) = .ok s := by
  cases s with
  | none => rfl
  | some s => rfl

/-- An optional bridge identity is read back. -/
theorem JsonHelper.deserializeBridgeIdentity_map (b : Option BridgeIdentity) :
    deserializeBridgeIdentity
        ((b.map fun b => JsonValue.object b.toJSON).getD (.leaf .null)) = .ok b := by
  cases b with
  | none => rfl
  | some b =>
      show (BridgeIdentity.fromJSON b.toJSON).map some = _
      rw [BridgeIdentity.fromJSON_toJSON]
      rfl

/-- Every optional part may be there or not: the object is read back as it was
written. -/
theorem DioJson.fromJSON_toJSON (j : DioJson) : DioJson.fromJSON j.toJSON = .ok j := by
  obtain ⟨hcontainer, hresource, hchecksums, hstructure, hbridge⟩ := j.member_toJSON
  unfold DioJson.fromJSON
  rw [hcontainer, hresource, hchecksums, hstructure, hbridge,
    deserializeOptionalString_map, deserializeOptionalString_map,
    deserializeUnorderedMap_strings, deserializeBridgeIdentity_map]
  rfl

/-! ### The signature container -/

/-- The libraries below the encoder, for the keys of `C`. -/
structure DioLibrary (C : KeyCrypto) where
  signToCompactSignatureWithHash : C.PrivateKey → Bytes → Bytes
  verifyCompactSignatureWithHash : C.PublicKey → Bytes → Bytes → Except EndpointException Bool
  base64From : Bytes → Bytes
  base64ToString : Bytes → Except EndpointException Bytes
  stringify : JsonObject → Bytes
  parseJsonObject : Bytes → Except EndpointException JsonObject

/-- Compact signatures have 65 bytes and verify; the codecs invert. -/
structure DioLibrary.Lawful {C : KeyCrypto} (L : DioLibrary C) : Prop where
  fromBase58DER_toBase58DER : ∀ p, C.fromBase58DER (C.toBase58DER p) = .ok p
  toBase58DER_ne_nil : ∀ p, C.toBase58DER p ≠ []
  length_sign : ∀ k data, (L.signToCompactSignatureWithHash k data).length = 65
  verify_sign : ∀ k data, L.verifyCompactSignatureWithHash (C.getPublicKey k) data
    (L.signToCompactSignatureWithHash k data) = .ok true
  base64ToString_base64From : ∀ data, L.base64ToString (L.base64From data) = .ok data
  parseJsonObject_stringify : ∀ json, L.parseJsonObject (L.stringify json) = .ok json

/-- `UnsupportedTypeException`. -/
def unsupportedType : ErrorCode := coreCode 0x0004

/-- `DataInnerEncryptorV4::DataWithSignature`. -/
structure DataWithSignature where
  signature : Bytes
  data : Bytes
  deriving Repr, DecidableEq

namespace DataInnerEncryptorV4

/-- `packDataWithSignature`.  The length is cut to one byte. -/
def packDataWithSignature (dataWithSignature : DataWithSignature) : Bytes :=
  1 :: UInt8.ofNat dataWithSignature.signature.length ::
    (dataWithSignature.signature ++ dataWithSignature.data)

/-- `extractDataWithSignature`.  A byte behind the end of a string is its
terminator. -/
def extractDataWithSignature (buf : Bytes) : Except EndpointException DataWithSignature :=
  if buf.getD 0 0 = 1 then do
    let signatureLength := (buf.getD 1 0).toNat
    let signature ← stringSubstr buf 2 signatureLength
    let data ← stringSubstr buf (2 + signatureLength) buf.length
    return { signature := signature, data := data }
  else
    .error (.core unsupportedType)

/-- A container gives back the two parts it was packed from. -/
theorem extract_pack (dataWithSignature : DataWithSignature)
    (h : dataWithSignature.signature.length < 256) :
    extractDataWithSignature (packDataWithSignature dataWithSignature) =
      .ok dataWithSignature := by
  obtain ⟨signature, data⟩ := dataWithSignature
  dsimp only at h
  have hlength : (UInt8.ofNat signature.length).toNat = signature.length :=
    UInt8.toNat_ofNat_of_lt' h
  have hsignature : stringSubstr (packDataWithSignature ⟨signature, data⟩) 2 signature.length =
      .ok signature := by
    refine (if_pos (by simp [packDataWithSignature])).trans ?_
    show Except.ok ((signature ++ data).take signature.length) = _
    rw [List.take_left]
  have hdata : stringSubstr (packDataWithSignature ⟨signature, data⟩) (2 + signature.length)
      (packDataWithSignature ⟨signature, data⟩).length = .ok data := by
    have hdrop : (packDataWithSignature ⟨signature, data⟩).drop (2 + signature.length) =
        data := by
      rw [← List.drop_drop]
      show (signature ++ data).drop signature.length = data
      rw [List.drop_left]
    refine (if_pos (by simp [packDataWithSignature]; omega)).trans ?_
    rw [hdrop, List.take_of_length_le (by simp [packDataWithSignature]; omega)]
  have hoctet : ((packDataWithSignature ⟨signature, data⟩).getD 1 0).toNat =
      signature.length := hlength
  refine (if_pos rfl).trans ?_
  simp only [hoctet, hsignature, hdata, bind, Except.bind, pure, Except.pure]

end DataInnerEncryptorV4

open DataInnerEncryptorV4

/-! ### The encoder -/

namespace DioLibrary

variable {C : KeyCrypto} (L : DioLibrary C)

/-- `DataInnerEncryptorV4::signAndPackDataWithSignature`. -/
def signAndPackDataWithSignature (data : Bytes) (authorPrivateKey : C.PrivateKey) : Bytes :=
  packDataWithSignature
    { signature := L.signToCompactSignatureWithHash authorPrivateKey data, data := data }

/-- The `dioJSON` of `signAndEncode`. -/
def dioJson (dio : ExpandedDataIntegrityObject) : DioJson where
  version := 1
  creatorUserId := dio.creatorUserId
  creatorPublicKey := dio.creatorPubKey
  contextId := dio.contextId
  resourceId := dio.resourceId
  timestamp := dio.timestamp
  randomId := dio.randomId
  containerId := dio.containerId
  containerResourceId := dio.containerResourceId
  fieldChecksums := dio.fieldChecksums.map fun c => (c.1, L.base64From c.2)
  structureVersion := dio.structureVersion
  bridgeIdentity := dio.bridgeIdentity

/-- `DIOEncryptorV1::signAndEncode`. -/
def signAndEncode (dio : ExpandedDataIntegrityObject) (authorKey : C.PrivateKey) :
    Except EndpointException Bytes :=
  if dio.creatorPubKey ≠ C.toBase58DER (C.getPublicKey authorKey) then
    .error (.core dataIntegrityObjectMismatchEncKey)
  else
    .ok (L.base64From
      (L.signAndPackDataWithSignature (L.stringify (L.dioJson dio).toJSON) authorKey))

/-- What `decodeAndVerify` parses before it checks anything. -/
def openContainer (signedDio : Bytes) : Except EndpointException (DataWithSignature × DioJson) := do
  let decoded ← L.base64ToString signedDio
  let dioAndSignature ← extractDataWithSignature decoded
  let json ← L.parseJsonObject dioAndSignature.data
  let dioJson ← DioJson.fromJSON json
  return (dioAndSignature, dioJson)

/-- `fieldChecksums` of `decodeAndVerify`. -/
def decodeChecksums (checksums : List (String × Bytes)) :
    Except EndpointException (List (String × Bytes)) :=
  checksums.mapM fun c => do
    let checksum ← L.base64ToString c.2
    return (c.1, checksum)

/-- `DIOEncryptorV1::decodeAndVerify`. -/
def decodeAndVerify (undefined : Except EndpointException BridgeIdentity) (signedDio : Bytes) :
    Except EndpointException ExpandedDataIntegrityObject := do
  let (dioAndSignature, dioJson) ← L.openContainer signedDio
  if !DIOEncryptorV1.wellFormed dioJson then
    throw (.core malformedDataIntegrityObject)
  let fieldChecksums ← L.decodeChecksums dioJson.fieldChecksums
  let creator ← C.fromBase58DER dioJson.creatorPublicKey
  let signatureStatus ← L.verifyCompactSignatureWithHash creator dioAndSignature.data
    dioAndSignature.signature
  if !signatureStatus then
    throw (.core dataIntegrityObjectInvalidSignature)
  let bridgeIdentity ← DIOEncryptorV1.readBridgeIdentity undefined dioJson.bridgeIdentity
  return {
    creatorUserId := dioJson.creatorUserId
    creatorPubKey := dioJson.creatorPublicKey
    contextId := dioJson.contextId
    resourceId := dioJson.resourceId
    timestamp := dioJson.timestamp
    randomId := dioJson.randomId
    containerId := dioJson.containerId
    containerResourceId := dioJson.containerResourceId
    bridgeIdentity := some bridgeIdentity
    structureVersion := dioJson.structureVersion
    fieldChecksums := fieldChecksums }

variable {L}

/-- The checksums are decoded as they were encoded. -/
theorem decodeChecksums_dioJson (hL : L.Lawful) (dio : ExpandedDataIntegrityObject) :
    L.decodeChecksums (L.dioJson dio).fieldChecksums = .ok dio.fieldChecksums := by
  show (dio.fieldChecksums.map fun c => (c.1, L.base64From c.2)).mapM (fun c => do
    let checksum ← L.base64ToString c.2
    return (c.1, checksum)) = Except.ok dio.fieldChecksums
  induction dio.fieldChecksums with
  | nil => rfl
  | cons c map ih =>
      rw [List.map_cons, List.mapM_cons, ih, hL.base64ToString_base64From]
      rfl

/-- What is in a signed object. -/
theorem openContainer_signAndEncode (hL : L.Lawful) (author : C.PrivateKey)
    (dio : ExpandedDataIntegrityObject) :
    L.openContainer (L.base64From
        (L.signAndPackDataWithSignature (L.stringify (L.dioJson dio).toJSON) author)) =
      .ok (⟨L.signToCompactSignatureWithHash author (L.stringify (L.dioJson dio).toJSON),
        L.stringify (L.dioJson dio).toJSON⟩, L.dioJson dio) := by
  have hextract := extract_pack
    (⟨L.signToCompactSignatureWithHash author (L.stringify (L.dioJson dio).toJSON),
      L.stringify (L.dioJson dio).toJSON⟩ : DataWithSignature) (by rw [hL.length_sign]; decide)
  unfold openContainer signAndPackDataWithSignature
  rw [hL.base64ToString_base64From]
  show (extractDataWithSignature _ >>= fun dioAndSignature => _) = _
  rw [hextract]
  show (L.parseJsonObject _ >>= fun json => _) = _
  rw [hL.parseJsonObject_stringify]
  show (DioJson.fromJSON _ >>= fun dioJson => _) = _
  rw [DioJson.fromJSON_toJSON]
  rfl

/-- An object that `signAndEncode` accepts and whose format is the decoder's. -/
structure Signable (C : KeyCrypto) (dio : ExpandedDataIntegrityObject) (author : C.PrivateKey) :
    Prop where
  creatorPubKey : dio.creatorPubKey = C.toBase58DER (C.getPublicKey author)
  creatorUserId : dio.creatorUserId ≠ []
  contextId : dio.contextId ≠ []
  randomId : dio.randomId ≠ []

/-- **What the decoder makes of a signed object**: the object, with a bridge
identity in any case. -/
theorem decodeAndVerify_signAndEncode (hL : L.Lawful)
    (undefined : Except EndpointException BridgeIdentity) {author : C.PrivateKey}
    {dio : ExpandedDataIntegrityObject} (h : Signable C dio author) :
    ∃ signed, L.signAndEncode dio author = .ok signed ∧
      L.decodeAndVerify undefined signed =
        (DIOEncryptorV1.readBridgeIdentity undefined dio.bridgeIdentity).map fun b =>
          { dio with bridgeIdentity := some b } := by
  refine ⟨_, by rw [signAndEncode, if_neg (not_not.mpr h.creatorPubKey)], ?_⟩
  have hwf : DIOEncryptorV1.wellFormed (L.dioJson dio) = true := by
    have hkey : dio.creatorPubKey ≠ [] := by
      rw [h.creatorPubKey]
      exact hL.toBase58DER_ne_nil _
    simp [DIOEncryptorV1.wellFormed, dioJson, hkey, h.creatorUserId, h.contextId, h.randomId]
  have hcreator : C.fromBase58DER (L.dioJson dio).creatorPublicKey =
      .ok (C.getPublicKey author) := by
    rw [dioJson, h.creatorPubKey, hL.fromBase58DER_toBase58DER]
  have hbridge : (L.dioJson dio).bridgeIdentity = dio.bridgeIdentity := rfl
  simp only [decodeAndVerify, openContainer_signAndEncode hL, hwf, hcreator,
    decodeChecksums_dioJson hL, hL.verify_sign, hbridge, bind, Except.bind, Bool.not_true,
    Bool.false_eq_true, if_false, pure, Except.pure]
  cases DIOEncryptorV1.readBridgeIdentity undefined dio.bridgeIdentity with
  | error e => rfl
  | ok b => rfl

/-- The string holds data that the creator it names has signed. -/
def Genuine (L : DioLibrary C) (signedBy : C.PublicKey → Bytes → Prop) (signedDio : Bytes) :
    Prop :=
  ∃ dioAndSignature dioJson creator,
    L.openContainer signedDio = .ok (dioAndSignature, dioJson) ∧
      C.fromBase58DER dioJson.creatorPublicKey = .ok creator ∧
      signedBy creator dioAndSignature.data

/-- The signature in the string is none that somebody else made up: a key that
verifies it has signed the data. -/
def Unforged (L : DioLibrary C) (signedBy : C.PublicKey → Bytes → Prop) (signedDio : Bytes) :
    Prop :=
  ∀ dioAndSignature dioJson creator,
    L.openContainer signedDio = .ok (dioAndSignature, dioJson) →
      L.verifyCompactSignatureWithHash creator dioAndSignature.data
          dioAndSignature.signature = .ok true →
        signedBy creator dioAndSignature.data

/-- Without forged signatures only genuine strings are decoded. -/
theorem genuine_of_decodeAndVerify {signedBy : C.PublicKey → Bytes → Prop} {signedDio : Bytes}
    (hunforged : Unforged L signedBy signedDio)
    {undefined : Except EndpointException BridgeIdentity}
    {dio : ExpandedDataIntegrityObject} (h : L.decodeAndVerify undefined signedDio = .ok dio) :
    Genuine L signedBy signedDio := by
  obtain ⟨⟨dioAndSignature, dioJson⟩, hopen, h⟩ := Throwing.bind_eq_ok h
  dsimp only at h
  split at h
  · cases h
  obtain ⟨fieldChecksums, -, h⟩ := Throwing.bind_eq_ok h
  obtain ⟨creator, hcreator, h⟩ := Throwing.bind_eq_ok h
  obtain ⟨signatureStatus, hverify, h⟩ := Throwing.bind_eq_ok h
  cases signatureStatus with
  | false => cases h
  | true =>
      exact ⟨dioAndSignature, dioJson, creator, hopen, hcreator, hunforged _ _ _ hopen hverify⟩


/-! ### The operations of the key encryptors -/

variable (L) in
/-- The operations that keys are protected with, over this encoding. -/
def keyCrypto : KeyCrypto :=
  { C with
    base64From := L.base64From
    base64ToString := fun text =>
      match L.base64ToString text with
      | .ok data => data
      | .error _ => []
    signAndPack := fun data k => L.base64From (L.signAndPackDataWithSignature data k)
    extractDataWithSignature := fun signed => do
      let decoded ← L.base64ToString signed
      let dataWithSignature ← extractDataWithSignature decoded
      return (dataWithSignature.data, fun p =>
        match L.verifyCompactSignatureWithHash p dataWithSignature.data
            dataWithSignature.signature with
        | .ok status => status
        | .error _ => false)
    serializeDio := fun dioJson => L.stringify dioJson.toJSON
    parseDio := fun data => L.parseJsonObject data >>= DioJson.fromJSON }

/-- Signed data is extracted with a signature that its signer's key verifies. -/
theorem keyCrypto_extract_signAndPack (hL : L.Lawful) (data : Bytes) (k : C.PrivateKey) :
    ∃ verify : C.PublicKey → Bool,
      L.keyCrypto.extractDataWithSignature (L.keyCrypto.signAndPack data k) =
          .ok (data, verify) ∧
        verify (C.getPublicKey k) = true := by
  have hextract := extract_pack
    ⟨L.signToCompactSignatureWithHash k data, data⟩
    (show (L.signToCompactSignatureWithHash k data).length < 256 by
      rw [hL.length_sign]
      decide)
  refine ⟨fun p =>
    match L.verifyCompactSignatureWithHash p data (L.signToCompactSignatureWithHash k data) with
    | .ok status => status
    | .error _ => false, ?_, ?_⟩
  · show (L.base64ToString (L.base64From (L.signAndPackDataWithSignature data k)) >>=
      fun decoded => _) = _
    rw [hL.base64ToString_base64From]
    show (extractDataWithSignature (packDataWithSignature
      ⟨L.signToCompactSignatureWithHash k data, data⟩) >>= fun _ => _) = _
    rw [hextract]
    rfl
  · dsimp only
    rw [hL.verify_sign]

/-- Reading inverts writing for these operations. -/
theorem keyCrypto_lawful (hC : C.Lawful) (hL : L.Lawful)
    (hnil : ∀ data, L.base64From data = [] → data = []) : L.keyCrypto.Lawful where
  fromBase58DER_toBase58DER := hC.fromBase58DER_toBase58DER
  base64ToString_base64From data := by
    show (match L.base64ToString (L.base64From data) with
      | .ok data => data
      | .error _ => []) = data
    rw [hL.base64ToString_base64From]
  base64From_eq_nil := hnil
  toBase58DER_ne_nil := hC.toBase58DER_ne_nil
  extract_signAndPack data k := keyCrypto_extract_signAndPack hL data k
  parseDio_serializeDio j := by
    show (L.parseJsonObject (L.stringify j.toJSON) >>= DioJson.fromJSON) = _
    rw [hL.parseJsonObject_stringify]
    exact j.fromJSON_toJSON
  parseKey_serializeKey := hC.parseKey_serializeKey
  decrypt_encrypt := hC.decrypt_encrypt
  encrypt_ne_nil := hC.encrypt_ne_nil

/-- Checksums that decode all together decode one by one. -/
theorem mapM_base64_of_decodeChecksums {checksums fieldChecksums : List (String × Bytes)}
    (h : L.decodeChecksums checksums = .ok fieldChecksums) :
    checksums.map (fun c => (c.1, L.keyCrypto.base64ToString c.2)) = fieldChecksums := by
  induction checksums generalizing fieldChecksums with
  | nil =>
      cases h
      rfl
  | cons c checksums ih =>
      have hcons : ((L.base64ToString c.2 >>= fun checksum => pure (c.1, checksum)) >>=
          fun head => L.decodeChecksums checksums >>= fun rest => pure (head :: rest)) =
          Except.ok fieldChecksums :=
        (List.mapM_cons ..).symm.trans h
      obtain ⟨head, hhead, hcons⟩ := Throwing.bind_eq_ok hcons
      obtain ⟨checksum, hchecksum, hhead⟩ := Throwing.bind_eq_ok hhead
      obtain ⟨rest, hrest, hcons⟩ := Throwing.bind_eq_ok hcons
      cases hhead
      cases hcons
      have hvalue : L.keyCrypto.base64ToString c.2 = checksum := by
        show (match L.base64ToString c.2 with
          | .ok data => data
          | .error _ => []) = checksum
        rw [hchecksum]
      rw [List.map_cons, hvalue, ih hrest]

/-- What this decoder reads, the decoder over the abstract operations reads. -/
theorem keyCrypto_decodeAndVerify {signedDio : Bytes} {dio : ExpandedDataIntegrityObject}
    (h : L.decodeAndVerify C.undefined.bridgeIdentity signedDio = .ok dio) :
    DIOEncryptorV1.decodeAndVerify L.keyCrypto signedDio = .ok dio := by
  obtain ⟨⟨dioAndSignature, dioJson⟩, hopen, h⟩ := Throwing.bind_eq_ok h
  obtain ⟨decoded, hdecoded, hopen⟩ := Throwing.bind_eq_ok hopen
  obtain ⟨extracted, hextract, hopen⟩ := Throwing.bind_eq_ok hopen
  obtain ⟨json, hjson, hopen⟩ := Throwing.bind_eq_ok hopen
  obtain ⟨parsed, hparsed, hopen⟩ := Throwing.bind_eq_ok hopen
  cases hopen
  dsimp only at h
  split at h
  · cases h
  rename_i hwf
  obtain ⟨fieldChecksums, hchecksums, h⟩ := Throwing.bind_eq_ok h
  obtain ⟨creator, hcreator, h⟩ := Throwing.bind_eq_ok h
  obtain ⟨signatureStatus, hverify, h⟩ := Throwing.bind_eq_ok h
  cases signatureStatus with
  | false => cases h
  | true =>
      obtain ⟨b, hb, h⟩ := Throwing.bind_eq_ok h
      cases h
      have hbridge : DIOEncryptorV1.readBridgeIdentity L.keyCrypto.undefined.bridgeIdentity
          dioJson.bridgeIdentity = .ok b := hb
      have hparse : L.keyCrypto.parseDio dioAndSignature.data = .ok dioJson := by
        show (L.parseJsonObject dioAndSignature.data >>= DioJson.fromJSON) = _
        rw [hjson]
        exact hparsed
      have hcontainer : L.keyCrypto.extractDataWithSignature signedDio =
          .ok (dioAndSignature.data, fun p =>
            match L.verifyCompactSignatureWithHash p dioAndSignature.data
                dioAndSignature.signature with
            | .ok status => status
            | .error _ => false) := by
        show (L.base64ToString signedDio >>= fun decoded => _) = _
        rw [hdecoded]
        show (extractDataWithSignature decoded >>= fun _ => _) = _
        rw [hextract]
        rfl
      have hcreator' : L.keyCrypto.fromBase58DER dioJson.creatorPublicKey = .ok creator :=
        hcreator
      have hverified : DIOEncryptorV1.verifiedJson L.keyCrypto signedDio = .ok dioJson := by
        simp only [DIOEncryptorV1.verifiedJson, hcontainer, hparse, hwf, hcreator', hverify, bind,
          Except.bind, Bool.not_true, Bool.false_eq_true, if_false, pure, Except.pure]
      simp only [DIOEncryptorV1.decodeAndVerify, hverified, hbridge, DioJson.decodedChecksums,
        mapM_base64_of_decodeChecksums hchecksums, bind, Except.bind, pure, Except.pure]

/-! ### When the codec is exact -/

/-- **The round trip of integrity objects.**  What the encoder accepts comes
back exactly if it has a bridge identity; and a string whose data the creator
it names has not signed is not decoded. -/
theorem signAndEncode_exact_iff (hL : L.Lawful) {author : C.PrivateKey}
    {dio : ExpandedDataIntegrityObject} (h : Signable C dio author)
    (undefined : Except EndpointException BridgeIdentity)
    (signedBy : C.PublicKey → Bytes → Prop) :
    ((∃ signed, L.signAndEncode dio author = .ok signed ∧
        L.decodeAndVerify undefined signed = .ok dio) ↔ dio.bridgeIdentity.isSome) ∧
      ∀ signedDio, Unforged L signedBy signedDio → ¬ Genuine L signedBy signedDio →
        ∃ e, L.decodeAndVerify undefined signedDio = .error e := by
  refine ⟨?exact, ?tampered⟩
  case exact =>
    obtain ⟨signed, hsigned, hdecode⟩ := decodeAndVerify_signAndEncode hL undefined h
    constructor
    · rintro ⟨signed', hsigned', hback⟩
      rw [hsigned] at hsigned'
      obtain rfl := Except.ok.inj hsigned'
      rw [hdecode] at hback
      cases hread : DIOEncryptorV1.readBridgeIdentity undefined dio.bridgeIdentity with
      | error e =>
          rw [hread] at hback
          cases hback
      | ok b =>
          rw [hread] at hback
          have hsame : some b = dio.bridgeIdentity :=
            congrArg (fun d => d.bridgeIdentity) (Except.ok.inj hback)
          rw [← hsame]
          rfl
    · intro hsome
      obtain ⟨b, hb⟩ := Option.isSome_iff_exists.mp hsome
      refine ⟨signed, hsigned, ?_⟩
      rw [hdecode, hb]
      show Except.ok { dio with bridgeIdentity := some b } = _
      rw [← hb]
  case tampered =>
    intro signedDio hunforged hchanged
    cases hdecode : L.decodeAndVerify undefined signedDio with
    | error e => exact ⟨e, rfl⟩
    | ok d => exact absurd (genuine_of_decodeAndVerify hunforged hdecode) hchanged
end DioLibrary

/-! ### A lawful instance -/

deriving instance Encodable for JsonLeaf
deriving instance Encodable for JsonValue

/-- A signature that holds the key and the beginning of the data. -/
def sampleCompactSignature (key : UInt8) (data : Bytes) : Bytes :=
  27 :: key :: (data ++ List.replicate 63 0).take 63

/-- The sample signatures have 65 bytes. -/
theorem length_sampleCompactSignature (key : UInt8) (data : Bytes) :
    (sampleCompactSignature key data).length = 65 := by
  have hlength : (data ++ List.replicate 63 (0 : UInt8)).length = data.length + 63 := by
    rw [List.length_append, List.length_replicate]
  unfold sampleCompactSignature
  rw [List.length_cons, List.length_cons, List.length_take, hlength]
  omega

/-- Texts in unary under such signatures. -/
def sampleDioLibrary : DioLibrary sampleKeyCrypto where
  signToCompactSignatureWithHash := sampleCompactSignature
  verifyCompactSignatureWithHash p data signature :=
    .ok (decide (signature = sampleCompactSignature p data))
  base64From data := data
  base64ToString text := .ok text
  stringify := unaryWrite
  parseJsonObject := unaryRead

/-- The sample library satisfies the laws. -/
theorem sampleDioLibrary_lawful : sampleDioLibrary.Lawful where
  fromBase58DER_toBase58DER := sampleKeyCrypto_lawful.fromBase58DER_toBase58DER
  toBase58DER_ne_nil := sampleKeyCrypto_lawful.toBase58DER_ne_nil
  length_sign := length_sampleCompactSignature
  verify_sign _ _ := congrArg Except.ok (decide_eq_true rfl)
  base64ToString_base64From _ := rfl
  parseJsonObject_stringify json := unaryRead_unaryWrite json

/-- An object of the author `1`. -/
def sampleDio (bridgeIdentity : Option BridgeIdentity) : ExpandedDataIntegrityObject where
  creatorUserId := [117]
  creatorPubKey := [1]
  contextId := [99]
  resourceId := []
  timestamp := 5
  randomId := [114]
  containerId := none
  containerResourceId := some [109]
  bridgeIdentity := bridgeIdentity
  structureVersion := 2
  fieldChecksums := [("data", [0, 255])]

/-- The sample object can be signed. -/
theorem sampleDio_signable (bridgeIdentity : Option BridgeIdentity) :
    DioLibrary.Signable sampleKeyCrypto (sampleDio bridgeIdentity) (1 : UInt8) where
  creatorPubKey := rfl
  creatorUserId := List.cons_ne_nil _ _
  contextId := List.cons_ne_nil _ _
  randomId := List.cons_ne_nil _ _

/-- An object with its bridge identity is encoded exactly. -/
theorem DioLibrary.signAndEncode_exact_iff_sample :
    ∃ signed,
      sampleDioLibrary.signAndEncode
          (sampleDio (some { url := [104], pubKey := none, instanceId := some [105] }))
          (1 : UInt8) = .ok signed ∧
        sampleDioLibrary.decodeAndVerify (.error .other) signed =
          .ok (sampleDio (some { url := [104], pubKey := none, instanceId := some [105] })) :=
  (DioLibrary.signAndEncode_exact_iff sampleDioLibrary_lawful (sampleDio_signable _)
    (.error .other) fun _ _ => True).1.mpr rfl

/-- An object without a bridge identity does not come back as it was, whatever
the read of the absent fields gives. -/
theorem DioLibrary.signAndEncode_not_exact :
    sampleDioLibrary.Lawful ∧
      DioLibrary.Signable sampleKeyCrypto (sampleDio none) (1 : UInt8) ∧
      ∀ undefined, ¬ ∃ signed,
        sampleDioLibrary.signAndEncode (sampleDio none) (1 : UInt8) = .ok signed ∧
          sampleDioLibrary.decodeAndVerify undefined signed = .ok (sampleDio none) := by
  refine ⟨sampleDioLibrary_lawful, sampleDio_signable none, ?_⟩
  rintro undefined ⟨signed, hsigned, hback⟩
  obtain ⟨signed', hsigned', hdecode⟩ := DioLibrary.decodeAndVerify_signAndEncode
    sampleDioLibrary_lawful undefined (sampleDio_signable none)
  rw [hsigned] at hsigned'
  obtain rfl := Except.ok.inj hsigned'
  rw [hdecode] at hback
  cases undefined with
  | error e => cases hback
  | ok b => cases congrArg (fun d => d.bridgeIdentity) (Except.ok.inj hback)

end PrivmxEndpoint
