import PrivmxEndpoint.EnvelopeV5
import PrivmxEndpoint.GatedLoops
import PrivmxEndpoint.ItemListing
import PrivmxEndpoint.JsonStructText
import PrivmxEndpoint.KeyRequests
import PrivmxEndpoint.StreamApiLow

/-!
# Listing stream rooms

`StreamApiLowImpl::listStreamRooms` takes the rooms that fail their integrity check out of
the server's list while it walks over it, decrypts the rest as one batch and puts the batch
back between the failed ones.  Unlike the listings of files, messages and entries, the batch
leaves a data integrity object behind for every room, an empty one for a room whose
decryption throws, and so the indices of the two vectors agree.

What the checks and the decryption throw becomes the status of the room.  Three things stand
outside: the last data entry is read from a vector that may be empty, the policy is parsed
outside every `try`, and the keys of all rooms are asked for together.  So one room takes the
whole listing down, or its index out of a vector, unless each of them has a data entry, a
policy that parses, and a key entry that can be read (`listStreamRooms_aligned_iff`).
-/

namespace PrivmxEndpoint

namespace Stream

open DynamicTypes GatedLoops

/-! ### Policies -/

/-- `ItemPolicy`. -/
structure ItemPolicy where
  get : Option Bytes
  listMy : Option Bytes
  listAll : Option Bytes
  create : Option Bytes
  update : Option Bytes
  delete_ : Option Bytes

/-- `ContainerPolicy`. -/
structure ContainerPolicy where
  get : Option Bytes
  update : Option Bytes
  delete_ : Option Bytes
  updatePolicy : Option Bytes
  updaterCanBeRemovedFromManagers : Option Bytes
  ownerCanBeRemovedFromManagers : Option Bytes
  item : Option ItemPolicy

namespace ContainerPolicy

/-- A policy that says nothing. -/
def unset : ContainerPolicy where
  get := none
  update := none
  delete_ := none
  updatePolicy := none
  updaterCanBeRemovedFromManagers := none
  ownerCanBeRemovedFromManagers := none
  item := none

end ContainerPolicy

namespace Factory

/-- The library's `convert<std::string>()` of a value that is not empty. -/
abbrev StringConversion := DynamicVar → Except EndpointException Bytes

variable (convertString : StringConversion)

/-- `getValueOrNullopt<std::string>`. -/
def getValueOrNullopt (policyJsonObj : List (Bytes × DynamicVar)) (key : String) :
    Except EndpointException (Option Bytes) :=
  let valueFromKey := (policyJsonObj.lookup (fieldName key)).getD .empty
  if valueFromKey.isEmpty then .ok none else (convertString valueFromKey).map some

/-- The item policy of a container policy, if it has one that is an object. -/
def parseItemPolicy (obj : List (Bytes × DynamicVar)) :
    Except EndpointException (Option ItemPolicy) :=
  match obj.lookup (fieldName "item") with
  | some (.object itemObj) => do
      let get ← getValueOrNullopt convertString itemObj "get"
      let listMy ← getValueOrNullopt convertString itemObj "listMy"
      let listAll ← getValueOrNullopt convertString itemObj "listAll"
      let create ← getValueOrNullopt convertString itemObj "create"
      let update ← getValueOrNullopt convertString itemObj "update"
      let delete_ ← getValueOrNullopt convertString itemObj "delete"
      return some
        { get := get
          listMy := listMy
          listAll := listAll
          create := create
          update := update
          delete_ := delete_ }
  | _ => return none

/-- `parsePolicyServerObject`.  The extraction of anything but an object throws an exception
of the library, which none of the endpoint's handlers but the last one catches. -/
def parsePolicyServerObject : DynamicVar → Except EndpointException ContainerPolicy
  | .empty => return .unset
  | .object obj => do
      let get ← getValueOrNullopt convertString obj "get"
      let update ← getValueOrNullopt convertString obj "update"
      let delete_ ← getValueOrNullopt convertString obj "delete"
      let updatePolicy ← getValueOrNullopt convertString obj "updatePolicy"
      let updaterCanBeRemovedFromManagers ←
        getValueOrNullopt convertString obj "updaterCanBeRemovedFromManagers"
      let ownerCanBeRemovedFromManagers ←
        getValueOrNullopt convertString obj "ownerCanBeRemovedFromManagers"
      let item ← parseItemPolicy convertString obj
      return {
        get := get
        update := update
        delete_ := delete_
        updatePolicy := updatePolicy
        updaterCanBeRemovedFromManagers := updaterCanBeRemovedFromManagers
        ownerCanBeRemovedFromManagers := ownerCanBeRemovedFromManagers
        item := item }
  | _ => throw .other

/-- One field, where every value is converted. -/
theorem getValueOrNullopt_of_total (hconvert : ∀ x, ∃ text, convertString x = .ok text)
    (policyJsonObj : List (Bytes × DynamicVar)) (key : String) :
    ∃ value, getValueOrNullopt convertString policyJsonObj key = .ok value := by
  unfold getValueOrNullopt
  dsimp only
  split
  · exact ⟨_, rfl⟩
  · obtain ⟨text, htext⟩ := hconvert ((policyJsonObj.lookup (fieldName key)).getD .empty)
    rw [htext]
    exact ⟨_, rfl⟩

/-- The item policy, where every value is converted. -/
theorem parseItemPolicy_of_total (hconvert : ∀ x, ∃ text, convertString x = .ok text)
    (obj : List (Bytes × DynamicVar)) : ∃ item, parseItemPolicy convertString obj = .ok item := by
  unfold parseItemPolicy
  split
  · rename_i itemObj _
    obtain ⟨get, hget⟩ := getValueOrNullopt_of_total convertString hconvert itemObj "get"
    obtain ⟨listMy, hlistMy⟩ := getValueOrNullopt_of_total convertString hconvert itemObj "listMy"
    obtain ⟨listAll, hlistAll⟩ :=
      getValueOrNullopt_of_total convertString hconvert itemObj "listAll"
    obtain ⟨create, hcreate⟩ := getValueOrNullopt_of_total convertString hconvert itemObj "create"
    obtain ⟨update, hupdate⟩ := getValueOrNullopt_of_total convertString hconvert itemObj "update"
    obtain ⟨delete_, hdelete⟩ := getValueOrNullopt_of_total convertString hconvert itemObj "delete"
    rw [hget, hlistMy, hlistAll, hcreate, hupdate, hdelete]
    exact ⟨_, rfl⟩
  · exact ⟨_, rfl⟩

/-- **Policies that parse.**  Where every value is converted, they are the empty ones and the
objects. -/
theorem parsePolicyServerObject_iff (hconvert : ∀ x, ∃ text, convertString x = .ok text)
    (policy : DynamicVar) :
    (∃ parsed, parsePolicyServerObject convertString policy = .ok parsed) ↔
      policy = .empty ∨ ∃ obj, policy = .object obj := by
  constructor
  · rintro ⟨parsed, hparsed⟩
    cases policy with
    | empty => exact Or.inl rfl
    | object obj => exact Or.inr ⟨obj, rfl⟩
    | _ => cases hparsed
  · rintro (rfl | ⟨obj, rfl⟩)
    · exact ⟨_, rfl⟩
    · obtain ⟨get, hget⟩ := getValueOrNullopt_of_total convertString hconvert obj "get"
      obtain ⟨update, hupdate⟩ := getValueOrNullopt_of_total convertString hconvert obj "update"
      obtain ⟨delete_, hdelete⟩ := getValueOrNullopt_of_total convertString hconvert obj "delete"
      obtain ⟨updatePolicy, hpolicy⟩ :=
        getValueOrNullopt_of_total convertString hconvert obj "updatePolicy"
      obtain ⟨updater, hupdater⟩ := getValueOrNullopt_of_total convertString hconvert obj
        "updaterCanBeRemovedFromManagers"
      obtain ⟨owner, howner⟩ := getValueOrNullopt_of_total convertString hconvert obj
        "ownerCanBeRemovedFromManagers"
      obtain ⟨item, hitem⟩ := parseItemPolicy_of_total convertString hconvert obj
      rw [parsePolicyServerObject, hget, hupdate, hdelete, hpolicy, hupdater, howner, hitem]
      exact ⟨_, rfl⟩

end Factory

/-! ### The rooms of the server and of the library -/

/-- `UnknowStreamRoomFormatException`. -/
def unknowStreamRoomFormat : ErrorCode := streamCode 0x0005

/-- `StreamRoomDataIntegrityException`. -/
def streamRoomDataIntegrity : ErrorCode := streamCode 0x0018

namespace StreamRoomDataSchema

def UNKNOWN : ℤ := 0

def VERSION_5 : ℤ := 5

end StreamRoomDataSchema

/-- The data of a room: an object with what its parsers make of it, or something else. -/
inductive StreamRoomEntryData
  | object (version : Except EndpointException ℤ)
      (encrypted : Except EndpointException EncryptedItemV5)
  | other

/-- `server::StreamRoomDataEntry`. -/
structure StreamRoomDataEntry where
  keyId : Bytes
  data : StreamRoomEntryData

/-- `server::StreamRoomInfo` with all that a listing reads. -/
structure StreamRoomRecord where
  id : Bytes
  resourceId : Option Bytes
  contextId : Bytes
  createDate : ℤ
  creator : Bytes
  lastModificationDate : ℤ
  lastModifier : Bytes
  data : List StreamRoomDataEntry
  users : List Bytes
  managers : List Bytes
  keys : List KeyEntry
  version : ℤ
  policy : DynamicVar
  closed : Option Bool

/-- `StreamRoom`. -/
structure StreamRoom where
  contextId : Bytes
  streamRoomId : Bytes
  createDate : ℤ
  creator : Bytes
  lastModificationDate : ℤ
  lastModifier : Bytes
  users : List Bytes
  managers : List Bytes
  version : ℤ
  publicMeta : Bytes
  privateMeta : Bytes
  policy : ContainerPolicy
  statusCode : ℕ
  schemaVersion : ℤ
  closed : Bool

/-- The answer to `streamRoomList`, whose list is a vector. -/
structure StreamRoomListResult where
  list : List StreamRoomRecord
  count : ℤ
  length_lt : list.length < 2 ^ 64

/-- `core::PagingList<StreamRoom>`. -/
structure StreamRoomPage where
  totalAvailable : ℤ
  readItems : List StreamRoom

/-- What a `StreamApiLowImpl` uses to check and decrypt rooms. -/
structure StreamRoomReader extends StreamKeys where
  /-- `_streamRoomDataEncryptorV5.getDIOAndAssertIntegrity`. -/
  getDIOAndAssertIntegrity : EncryptedItemV5 → Except EndpointException DataIntegrityObject
  /-- `decryptModuleDataV5`: a result, or one of the library's own exceptions. -/
  decryptModuleDataV5 : StreamRoomDataEntry → DecryptedEncKeyV2 →
    Except ErrorCode DecryptedModuleDataV5
  convertString : Factory.StringConversion

/-- `streamRoom.data.back()`. -/
def StreamRoomRecord.back (streamRoom : StreamRoomRecord) :
    Except ListingError StreamRoomDataEntry :=
  match streamRoom.data.getLast? with
  | some entry => .ok entry
  | none => .error .indexOutOfRange

/-- What throws leaves the listing. -/
def thrownBy {α : Type} (result : Except EndpointException α) : Except ListingError α :=
  result.mapError .thrown

/-- What is thrown over a room is an exception of its own. -/
theorem thrownBy_eq_error {α : Type} {result : Except EndpointException α} {e : ListingError}
    (h : thrownBy result = .error e) : ∃ e', result = .error e' ∧ e = .thrown e' := by
  cases result with
  | ok a => cases h
  | error e' =>
      cases h
      exact ⟨e', rfl, rfl⟩

/-- What was not thrown was computed. -/
theorem thrownBy_eq_ok {α : Type} {result : Except EndpointException α} {a : α}
    (h : thrownBy result = .ok a) : result = .ok a := by
  cases result with
  | ok b =>
      cases h
      rfl
  | error e => cases h

/-- `getStreamRoomEntryDataStructureVersion`. -/
def getStreamRoomEntryDataStructureVersion (streamRoomEntry : StreamRoomDataEntry) :
    Except EndpointException ℤ :=
  match streamRoomEntry.data with
  | .object version _ => do
      let version ← version
      return if version = 5 then StreamRoomDataSchema.VERSION_5 else StreamRoomDataSchema.UNKNOWN
  | .other => return StreamRoomDataSchema.UNKNOWN

/-- `EncryptedModuleDataV5::fromJSON`, whose argument is known to be an object. -/
def StreamRoomDataEntry.encryptedModuleDataV5 (entry : StreamRoomDataEntry) :
    Except EndpointException EncryptedItemV5 :=
  match entry.data with
  | .object _ encrypted => encrypted
  | .other => throw .other

/-- The library's room with a policy that has been parsed. -/
def StreamRoomRecord.withPolicy (streamRoomInfo : StreamRoomRecord) (policy : ContainerPolicy)
    (publicMeta privateMeta : Bytes) (statusCode : ℕ) (schemaVersion : ℤ) : StreamRoom where
  contextId := streamRoomInfo.contextId
  streamRoomId := streamRoomInfo.id
  createDate := streamRoomInfo.createDate
  creator := streamRoomInfo.creator
  lastModificationDate := streamRoomInfo.lastModificationDate
  lastModifier := streamRoomInfo.lastModifier
  users := streamRoomInfo.users
  managers := streamRoomInfo.managers
  version := streamRoomInfo.version
  publicMeta := publicMeta
  privateMeta := privateMeta
  policy := policy
  statusCode := statusCode
  schemaVersion := schemaVersion
  closed := streamRoomInfo.closed.getD true

/-- Where the keys of a room are kept. -/
def StreamRoomRecord.location (streamRoom : StreamRoomRecord) : EncKeyLocation where
  contextId := streamRoom.contextId
  resourceId := streamRoom.resourceId.getD []

/-- The request for the keys of some rooms. -/
def keyProviderRequest (streamRooms : List StreamRoomRecord) : Except ListingError KeyRequest :=
  streamRooms.foldlM
    (fun request streamRoom => do
      let streamRoom_data_entry ← streamRoom.back
      return request.addOne streamRoom.keys streamRoom_data_entry.keyId streamRoom.location) []

/-- The verification request for a result and its data integrity object. -/
def StreamRoom.verificationRequest (x : StreamRoom) (dio : DataIntegrityObject) :
    VerificationRequest where
  contextId := x.contextId
  senderId := x.lastModifier
  senderPubKey := dio.creatorPubKey
  date := x.lastModificationDate
  bridgeIdentity := dio.bridgeIdentity

/-- The result that a verdict makes of a result. -/
def StreamRoom.withVerdict (x : StreamRoom) (verdict : Bool) : StreamRoom :=
  { x with statusCode := if verdict then 0 else userVerificationFailure.1 }

/-- The status is zero. -/
def StreamRoom.accepted (x : StreamRoom) : Bool :=
  decide (x.statusCode = 0)

/-- The local variables of the loop that decrypts the rooms. -/
structure DecryptionState where
  result : List StreamRoom
  streamRoomsDio : List DataIntegrityObject
  duplicationCheck : List Bytes

/-- The loop that collects the requests for the user verifier, from index `i` on. -/
def streamRoomVerifierInput (streamRoomsDio : List DataIntegrityObject) (i : ℕ) :
    List StreamRoom → Except ListingError (List VerificationRequest)
  | [] => .ok []
  | x :: result =>
      if x.statusCode = 0 then
        match streamRoomsDio[i]? with
        | none => .error .indexOutOfRange
        | some dio =>
            match streamRoomVerifierInput streamRoomsDio (i + 1) result with
            | .error e => .error e
            | .ok requests => .ok (x.verificationRequest dio :: requests)
      else
        streamRoomVerifierInput streamRoomsDio (i + 1) result

/-- The loop that writes the verdicts. -/
def writeRoomVerdicts (verified : List Bool) (result : List StreamRoom) :
    Except ListingError (List StreamRoom) :=
  match fill StreamRoom.accepted StreamRoom.withVerdict verified 0 result with
  | none => .error .indexOutOfRange
  | some result => .ok result

namespace StreamRoomReader

variable (P : StreamRoomReader)

/-- The same reader where undefined reads among the keys give something else. -/
def withUndefined (undefined : UndefinedReads) : StreamRoomReader :=
  { P with
    toStreamKeys :=
      { keyCrypto := P.keyCrypto.withUndefined undefined
        userPrivKey := P.userPrivKey
        userVerifier := P.userVerifier } }

def convertServerStreamRoomToLibStreamRoom (streamRoomInfo : StreamRoomRecord)
    (publicMeta privateMeta : Bytes) (statusCode : ℕ) (schemaVersion : ℤ) :
    Except EndpointException StreamRoom := do
  let policy ← Factory.parsePolicyServerObject P.convertString streamRoomInfo.policy
  return streamRoomInfo.withPolicy policy publicMeta privateMeta statusCode schemaVersion

def convertDecryptedStreamRoomDataV5ToStreamRoom (streamRoomInfo : StreamRoomRecord)
    (streamRoomData : DecryptedModuleDataV5) : Except EndpointException StreamRoom :=
  P.convertServerStreamRoomToLibStreamRoom streamRoomInfo streamRoomData.publicMeta
    streamRoomData.privateMeta streamRoomData.statusCode StreamRoomDataSchema.VERSION_5

/-- `convertServerStreamRoomToLibStreamRoom(streamRoom, {}, {}, statusCode)`. -/
def convertFailed (streamRoom : StreamRoomRecord) (statusCode : ℕ) :
    Except EndpointException StreamRoom :=
  P.convertServerStreamRoomToLibStreamRoom streamRoom [] [] statusCode StreamRoomDataSchema.UNKNOWN

def assertStreamRoomDataIntegrity (streamRoom : StreamRoomRecord) : Except ListingError Unit := do
  let streamRoom_data_entry ← streamRoom.back
  thrownBy do
    let version ← getStreamRoomEntryDataStructureVersion streamRoom_data_entry
    if version = StreamRoomDataSchema.VERSION_5 then
      let streamRoom_data ← streamRoom_data_entry.encryptedModuleDataV5
      let dio ← P.getDIOAndAssertIntegrity streamRoom_data
      if dio.contextId ≠ streamRoom.contextId ∨
          dio.resourceId ≠ streamRoom.resourceId.getD [] ∨
          dio.creatorUserId ≠ streamRoom.lastModifier ∨
          TimestampValidator.validate dio.timestamp streamRoom.lastModificationDate = false then
        throw (.core streamRoomDataIntegrity)
    else
      throw (.core unknowStreamRoomFormat)

def validateStreamRoomDataIntegrity (streamRoom : StreamRoomRecord) : Except ListingError ℕ :=
  match P.assertStreamRoomDataIntegrity streamRoom with
  | .ok () => .ok 0
  | .error (.thrown e) => .ok e.statusCode
  | .error .indexOutOfRange => .error .indexOutOfRange

/-- The first loop of the listing for one room, and whether its status is zero. -/
def checkStreamRoom (streamRoom : StreamRoomRecord) : Except ListingError (StreamRoom × Bool) := do
  let statusCode ← P.validateStreamRoomDataIntegrity streamRoom
  let x ← thrownBy (P.convertFailed streamRoom statusCode)
  return (x, decide (statusCode = 0))

/-- `decryptAndConvertStreamRoomDataToStreamRoom` with the key of a room. -/
def decryptAndConvertStreamRoomDataToStreamRoom (streamRoom : StreamRoomRecord)
    (streamRoomEntry : StreamRoomDataEntry) (encKey : DecryptedEncKeyV2) :
    Except EndpointException (StreamRoom × DataIntegrityObject) := do
  let version ← getStreamRoomEntryDataStructureVersion streamRoomEntry
  if version = StreamRoomDataSchema.VERSION_5 then
    let decryptedStreamRoomData ← (P.decryptModuleDataV5 streamRoomEntry encKey).mapError .core
    let x ← P.convertDecryptedStreamRoomDataV5ToStreamRoom streamRoom decryptedStreamRoomData
    return (x, decryptedStreamRoomData.dio)
  else
    let x ← P.convertFailed streamRoom unknowStreamRoomFormat
    return (x, .empty)

/-- `streamRoomsKeys.at(location).at(keyId)`, and the decryption with that key. -/
def decryptWith (streamRoomsKeys : KeyMaps) (streamRoom : StreamRoomRecord) :
    Except ListingError (StreamRoom × DataIntegrityObject) := do
  let entry ← streamRoom.back
  thrownBy do
    let keys ← mapAt streamRoom.location streamRoomsKeys
    let encKey ← mapAt entry.keyId keys
    P.decryptAndConvertStreamRoomDataToStreamRoom streamRoom entry encKey

/-- One round of the loop that decrypts the rooms. -/
def decryptNext (streamRoomsKeys : KeyMaps) (s : DecryptionState) (streamRoom : StreamRoomRecord) :
    Except ListingError DecryptionState :=
  match P.decryptWith streamRoomsKeys streamRoom with
  | .ok (x, dio) =>
      if dio.fullRandomId ∈ s.duplicationCheck then
        .ok
          { s with
            result := s.result ++ [{ x with statusCode := dataIntegrityObjectDuplicated.1 }]
            streamRoomsDio := s.streamRoomsDio ++ [dio] }
      else
        .ok
          { result := s.result ++ [x]
            streamRoomsDio := s.streamRoomsDio ++ [dio]
            duplicationCheck := s.duplicationCheck ++ [dio.fullRandomId] }
  | .error (.thrown (.core code)) => do
      let x ← thrownBy (P.convertFailed streamRoom code)
      return { s with
        result := s.result ++ [x]
        streamRoomsDio := s.streamRoomsDio ++ [.empty] }
  | .error e => .error e

/-- The loop that decrypts the rooms. -/
def decryptAll (streamRoomsKeys : KeyMaps) (s : DecryptionState) :
    List StreamRoomRecord → Except ListingError DecryptionState
  | [] => .ok s
  | streamRoom :: streamRooms =>
      match P.decryptNext streamRoomsKeys s streamRoom with
      | .error e => .error e
      | .ok s => decryptAll streamRoomsKeys s streamRooms

/-- `_keyProvider->getKeysAndVerify`. -/
def getKeysAndVerify (request : KeyRequest) : Except EndpointException KeyMaps :=
  KeyProvider.getKeysAndVerify P.keyCrypto P.userPrivKey P.userVerifier request

/-- `decryptAndConvertStreamRoomsDataToStreamRooms`.  Whatever the user verifier throws is
replaced by one exception. -/
def decryptAndConvertStreamRoomsDataToStreamRooms (streamRooms : List StreamRoomRecord) :
    Except ListingError (List StreamRoom) := do
  let request ← keyProviderRequest streamRooms
  let streamRoomsKeys ← thrownBy (P.getKeysAndVerify request)
  let s ← P.decryptAll streamRoomsKeys ⟨[], [], []⟩ streamRooms
  let verifierInput ← streamRoomVerifierInput s.streamRoomsDio 0 s.result
  match UserVerifier.verify P.userVerifier verifierInput with
  | .error _ => throw (.thrown (.core userVerificationMethodUnhandled))
  | .ok verified => writeRoomVerdicts verified s.result

/-- `listStreamRooms` with the answer of the server; `none` if the first loop needs more
than `fuel` rounds. -/
def listStreamRooms (fuel : ℕ) (streamRoomsList : StreamRoomListResult) :
    Option (Except ListingError StreamRoomPage) :=
  match eraseFailing P.checkStreamRoom fuel 0 streamRoomsList.list [] with
  | none => none
  | some (.error e) => some (.error e)
  | some (.ok (list, streamRooms)) =>
      match P.decryptAndConvertStreamRoomsDataToStreamRooms list with
      | .error e => some (.error e)
      | .ok tmp =>
          match fill StreamRoom.accepted (fun _ x => x) tmp 0 streamRooms with
          | none => some (.error .indexOutOfRange)
          | some streamRooms =>
              some (.ok { totalAvailable := streamRoomsList.count, readItems := streamRooms })

/-! ### Single rooms -/

/-- The integrity check of the room gives a status of zero. -/
def passes (streamRoom : StreamRoomRecord) : Bool :=
  match P.validateStreamRoomDataIntegrity streamRoom with
  | .ok statusCode => decide (statusCode = 0)
  | .error _ => false

/-- The status of the integrity check, if there is one. -/
def integrityStatus (streamRoom : StreamRoomRecord) : ℕ :=
  (P.validateStreamRoomDataIntegrity streamRoom).toOption.getD 0

/-- The policy of the room, if it parses. -/
def policyOf (streamRoom : StreamRoomRecord) : ContainerPolicy :=
  (Factory.parsePolicyServerObject P.convertString streamRoom.policy).toOption.getD .unset

/-- The room without its metadata. -/
def failedStreamRoom (streamRoom : StreamRoomRecord) (statusCode : ℕ) : StreamRoom :=
  streamRoom.withPolicy (P.policyOf streamRoom) [] [] statusCode StreamRoomDataSchema.UNKNOWN

/-- The policy of the room parses. -/
def PolicyParses (streamRoom : StreamRoomRecord) : Prop :=
  ∃ policy, Factory.parsePolicyServerObject P.convertString streamRoom.policy = .ok policy

section Rooms

variable {P} {streamRoom : StreamRoomRecord}

/-- Where the policy parses, every conversion ends. -/
theorem convertServerStreamRoomToLibStreamRoom_eq (hpolicy : P.PolicyParses streamRoom)
    (publicMeta privateMeta : Bytes) (statusCode : ℕ) (schemaVersion : ℤ) :
    P.convertServerStreamRoomToLibStreamRoom streamRoom publicMeta privateMeta statusCode
        schemaVersion =
      .ok (streamRoom.withPolicy (P.policyOf streamRoom) publicMeta privateMeta statusCode
        schemaVersion) := by
  obtain ⟨policy, hparsed⟩ := hpolicy
  rw [convertServerStreamRoomToLibStreamRoom, policyOf, hparsed]
  rfl

/-- Where it does not, none does. -/
theorem convertFailed_error (hpolicy : ¬ P.PolicyParses streamRoom) (statusCode : ℕ) :
    ∃ e, P.convertFailed streamRoom statusCode = .error e := by
  cases hparsed : Factory.parsePolicyServerObject P.convertString streamRoom.policy with
  | ok policy => exact absurd ⟨policy, hparsed⟩ hpolicy
  | error e =>
      refine ⟨e, ?_⟩
      rw [convertFailed, convertServerStreamRoomToLibStreamRoom, hparsed]
      rfl

/-- The last entry of a vector that is not empty. -/
theorem back_eq (hdata : streamRoom.data ≠ []) :
    streamRoom.back = .ok (streamRoom.data.getLast hdata) := by
  rw [StreamRoomRecord.back, List.getLast?_eq_some_getLast hdata]

/-- Without data there is no last entry. -/
theorem back_empty (hdata : streamRoom.data = []) : streamRoom.back = .error .indexOutOfRange := by
  rw [StreamRoomRecord.back, hdata]
  rfl

/-- The check of a room that has data gives a status. -/
theorem validateStreamRoomDataIntegrity_eq (hdata : streamRoom.data ≠ []) :
    P.validateStreamRoomDataIntegrity streamRoom = .ok (P.integrityStatus streamRoom) := by
  have hends : ∃ statusCode, P.validateStreamRoomDataIntegrity streamRoom = .ok statusCode := by
    rw [validateStreamRoomDataIntegrity, assertStreamRoomDataIntegrity, back_eq hdata]
    simp only [bind, Except.bind]
    cases hcheck : thrownBy _ with
    | ok _ => exact ⟨_, rfl⟩
    | error e =>
        obtain ⟨e, -, rfl⟩ := thrownBy_eq_error hcheck
        exact ⟨_, rfl⟩
  obtain ⟨statusCode, hstatus⟩ := hends
  rw [integrityStatus, hstatus]
  rfl

/-- A room with data passes when its integrity check does. -/
theorem passes_eq (hdata : streamRoom.data ≠ []) :
    P.passes streamRoom = decide (P.integrityStatus streamRoom = 0) := by
  rw [passes, validateStreamRoomDataIntegrity_eq hdata]

/-- The first loop for a room that has data and a policy. -/
theorem checkStreamRoom_eq (hdata : streamRoom.data ≠ []) (hpolicy : P.PolicyParses streamRoom) :
    P.checkStreamRoom streamRoom =
      .ok (P.failedStreamRoom streamRoom (P.integrityStatus streamRoom), P.passes streamRoom) := by
  rw [checkStreamRoom, validateStreamRoomDataIntegrity_eq hdata, passes_eq hdata]
  simp only [bind, Except.bind, convertFailed, convertServerStreamRoomToLibStreamRoom_eq hpolicy]
  rfl

/-- The first loop for a room that has not. -/
theorem checkStreamRoom_error (h : streamRoom.data = [] ∨ ¬ P.PolicyParses streamRoom) :
    ∃ e, P.checkStreamRoom streamRoom = .error e := by
  by_cases hdata : streamRoom.data = []
  · rw [checkStreamRoom, validateStreamRoomDataIntegrity, assertStreamRoomDataIntegrity,
      back_empty hdata]
    exact ⟨_, rfl⟩
  · obtain ⟨e, he⟩ := convertFailed_error (h.resolve_left hdata) (P.integrityStatus streamRoom)
    rw [checkStreamRoom, validateStreamRoomDataIntegrity_eq hdata]
    simp only [bind, Except.bind, he]
    exact ⟨_, rfl⟩

/-- A room that passes has data of version 5. -/
theorem structureVersion_of_passes (hpass : P.passes streamRoom = true) :
    ∃ entry, streamRoom.back = .ok entry ∧
      getStreamRoomEntryDataStructureVersion entry = .ok StreamRoomDataSchema.VERSION_5 := by
  have hzero : P.assertStreamRoomDataIntegrity streamRoom = .ok () := by
    rw [passes, validateStreamRoomDataIntegrity] at hpass
    cases hassert : P.assertStreamRoomDataIntegrity streamRoom with
    | ok _ => rfl
    | error e =>
        rw [hassert] at hpass
        cases e with
        | thrown e => exact absurd (of_decide_eq_true hpass) e.statusCode.2
        | indexOutOfRange => cases hpass
  obtain ⟨entry, hentry, hchecks⟩ := Throwing.bind_eq_ok hzero
  obtain ⟨version, hversion, hrest⟩ := Throwing.bind_eq_ok (thrownBy_eq_ok hchecks)
  refine ⟨entry, hentry, hversion.trans (congrArg Except.ok ?_)⟩
  by_contra hother
  rw [if_neg hother] at hrest
  cases hrest

end Rooms

/-! ### The keys of the rooms -/

/-- `data.back().keyId`. -/
def lastKeyId (streamRoom : StreamRoomRecord) : Bytes :=
  (streamRoom.data.getLast?.map StreamRoomDataEntry.keyId).getD []

/-- What a room adds to the request for keys. -/
def keyAddition (streamRoom : StreamRoomRecord) : KeyAddition :=
  .one streamRoom.keys (lastKeyId streamRoom) streamRoom.location

/-- The request that some rooms build, if they all have data. -/
def builtRequest (streamRooms : List StreamRoomRecord) : KeyRequest :=
  streamRooms.foldl (fun request streamRoom => (keyAddition streamRoom).apply request) []

/-- The key of a room is named by its last entry. -/
theorem lastKeyId_of_back {streamRoom : StreamRoomRecord} {entry : StreamRoomDataEntry}
    (h : streamRoom.back = .ok entry) : lastKeyId streamRoom = entry.keyId := by
  rw [StreamRoomRecord.back] at h
  unfold lastKeyId
  cases hlast : streamRoom.data.getLast? with
  | none =>
      rw [hlast] at h
      cases h
  | some last =>
      rw [hlast] at h
      cases h
      rfl

/-- The loop that builds the request. -/
theorem keyProviderRequest_eq {streamRooms : List StreamRoomRecord}
    (hdata : ∀ streamRoom ∈ streamRooms, streamRoom.data ≠ []) :
    keyProviderRequest streamRooms = .ok (builtRequest streamRooms) := by
  unfold keyProviderRequest builtRequest
  generalize ([] : KeyRequest) = request
  induction streamRooms generalizing request with
  | nil => rfl
  | cons streamRoom streamRooms ih =>
      have hback := back_eq (hdata streamRoom List.mem_cons_self)
      rw [List.foldlM_cons, List.foldl_cons, hback]
      refine Eq.trans ?_ (ih (fun r hr => hdata r (List.mem_cons_of_mem _ hr)) _)
      rw [keyAddition, lastKeyId_of_back hback]
      rfl

/-- The request of the listing is built from the additions of its rooms. -/
theorem builtBy_builtRequest (streamRooms : List StreamRoomRecord) :
    KeyRequest.BuiltBy (streamRooms.map keyAddition) (builtRequest streamRooms) := by
  have hfrom : ∀ {additions : List KeyAddition} {request : KeyRequest},
      KeyRequest.BuiltBy additions request →
        KeyRequest.BuiltBy (additions ++ streamRooms.map keyAddition)
          (streamRooms.foldl (fun request streamRoom => (keyAddition streamRoom).apply request)
            request) := by
    induction streamRooms with
    | nil =>
        intro additions request h
        simpa using h
    | cons streamRoom streamRooms ih =>
        intro additions request h
        have hrest := ih (.add (keyAddition streamRoom) h)
        rw [List.append_assoc] at hrest
        exact hrest
  exact hfrom .empty

/-- A request holds something for every addition. -/
theorem lastContent_isSome {location : EncKeyLocation} {keyId : Bytes}
    {additions : List KeyAddition} {last : Option KeyEntry}
    (h : last.isSome = true ∨ ∃ a ∈ additions, a.location = location ∧
      (a.content keyId).isSome = true) :
    (additions.foldl
      (fun last a => if a.location = location then (a.content keyId).or last else last)
      last).isSome = true := by
  induction additions generalizing last with
  | nil =>
      rcases h with h | ⟨a, ha, _⟩
      · exact h
      · exact absurd ha List.not_mem_nil
  | cons a additions ih =>
      rw [List.foldl_cons]
      apply ih
      rcases h with h | ⟨b, hb, hlocation, hcontent⟩
      · refine Or.inl ?_
        split
        · rw [Option.isSome_or, h, Bool.or_true]
        · exact h
      · rcases List.mem_cons.mp hb with rfl | hb
        · refine Or.inl ?_
          rw [if_pos hlocation, Option.isSome_or, hcontent, Bool.true_or]
        · exact Or.inr ⟨b, hb, hlocation, hcontent⟩

/-- In a map with distinct keys the entry is found. -/
theorem mapAt_of_mem {α β : Type} [DecidableEq α] {m : List (α × β)} (hm : DistinctKeys m)
    {a : α} {b : β} (h : (a, b) ∈ m) : mapAt a m = .ok b := by
  rw [mapAt, KeyRequest.lookup_of_mem hm h]

/-- **The keys of every room** of a batch are among those that come back. -/
theorem keys_found {streamRooms : List StreamRoomRecord} {streamRoomsKeys : KeyMaps}
    (h : P.getKeysAndVerify (builtRequest streamRooms) = .ok streamRoomsKeys)
    {streamRoom : StreamRoomRecord} (hroom : streamRoom ∈ streamRooms) :
    ∃ keys encKey, mapAt streamRoom.location streamRoomsKeys = .ok keys ∧
      mapAt (lastKeyId streamRoom) keys = .ok encKey := by
  have hbuilt := builtBy_builtRequest streamRooms
  have hcomplete := KeyProvider.complete_of_ok hbuilt.distinctKeys hbuilt.built.wellKeyed h
  have hcontent : ((builtRequest streamRooms).contentAt streamRoom.location
      (lastKeyId streamRoom)).isSome = true := by
    rw [hbuilt.contentAt_eq]
    refine lastContent_isSome (Or.inr ⟨keyAddition streamRoom, List.mem_map_of_mem hroom, rfl, ?_⟩)
    simp [keyAddition, KeyAddition.content]
  obtain ⟨entry, hentry⟩ := Option.isSome_iff_exists.mp hcontent
  obtain ⟨entries, hentries, hentry⟩ := Option.bind_eq_some_iff.mp hentry
  have hrequested := hcomplete.requested streamRoom.location
  rw [hentries, Option.map_some] at hrequested
  obtain ⟨keys, hkeys, hids⟩ := Option.map_eq_some_iff.mp hrequested
  have hid : lastKeyId streamRoom ∈ keys.map Prod.fst := by
    rw [hids]
    exact List.mem_map_of_mem (KeyRequest.mem_of_lookup hentry)
  obtain ⟨⟨id, encKey⟩, hmem, rfl⟩ := List.mem_map.mp hid
  have hdistinct : DistinctKeys keys := hcomplete.keyIds _ (KeyRequest.mem_of_lookup hkeys)
  refine ⟨keys, encKey, ?_, mapAt_of_mem hdistinct hmem⟩
  rw [mapAt, hkeys]

/-- The decryption of a room that passes throws nothing but the library's own exceptions. -/
theorem decryptWith_error {streamRooms : List StreamRoomRecord} {streamRoomsKeys : KeyMaps}
    (h : P.getKeysAndVerify (builtRequest streamRooms) = .ok streamRoomsKeys)
    {streamRoom : StreamRoomRecord} (hroom : streamRoom ∈ streamRooms)
    (hpass : P.passes streamRoom = true) (hpolicy : P.PolicyParses streamRoom) {e : ListingError}
    (he : P.decryptWith streamRoomsKeys streamRoom = .error e) :
    ∃ code, e = .thrown (.core code) := by
  obtain ⟨entry, hentry, hversion⟩ := structureVersion_of_passes hpass
  obtain ⟨keys, encKey, hkeys, hencKey⟩ := P.keys_found h hroom
  rw [lastKeyId_of_back hentry] at hencKey
  rw [decryptWith, hentry] at he
  obtain ⟨e, he, rfl⟩ := thrownBy_eq_error he
  simp only [hkeys, hencKey, decryptAndConvertStreamRoomDataToStreamRoom, hversion, bind,
    Except.bind, if_true] at he
  cases hdecrypt : P.decryptModuleDataV5 entry encKey with
  | error code =>
      rw [hdecrypt] at he
      cases he
      exact ⟨code, rfl⟩
  | ok decrypted =>
      rw [hdecrypt] at he
      simp only [Except.mapError, convertDecryptedStreamRoomDataV5ToStreamRoom,
        convertServerStreamRoomToLibStreamRoom_eq hpolicy] at he
      cases he

/-! ### A batch -/

/-- What the decryption of one room leaves behind, when these full random ids came before. -/
def ownResult (streamRoomsKeys : KeyMaps) (seen : List Bytes)
    (streamRoom : StreamRoomRecord) : StreamRoom × DataIntegrityObject :=
  match P.decryptWith streamRoomsKeys streamRoom with
  | .ok (x, dio) =>
      (if dio.fullRandomId ∈ seen then
        { x with statusCode := dataIntegrityObjectDuplicated.1 }
      else
        x, dio)
  | .error (.thrown e) => (P.failedStreamRoom streamRoom e.statusCode, .empty)
  | .error .indexOutOfRange => (P.failedStreamRoom streamRoom 0, .empty)

/-- The full random id that a room adds to the check for duplicates. -/
def fullRandomIds (streamRoomsKeys : KeyMaps) (streamRoom : StreamRoomRecord) :
    List Bytes :=
  match P.decryptWith streamRoomsKeys streamRoom with
  | .ok (_, dio) => [dio.fullRandomId]
  | .error _ => []

/-- What is left behind for each room of a batch. -/
def ownResults (streamRoomsKeys : KeyMaps) (seen : List Bytes) :
    List StreamRoomRecord → List (StreamRoom × DataIntegrityObject)
  | [] => []
  | streamRoom :: streamRooms =>
      P.ownResult streamRoomsKeys seen streamRoom ::
        ownResults streamRoomsKeys (seen ++ P.fullRandomIds streamRoomsKeys streamRoom) streamRooms

/-- One result for each room. -/
theorem length_ownResults (streamRoomsKeys : KeyMaps) (seen : List Bytes)
    (streamRooms : List StreamRoomRecord) :
    (P.ownResults streamRoomsKeys seen streamRooms).length = streamRooms.length := by
  induction streamRooms generalizing seen with
  | nil => rfl
  | cons streamRoom streamRooms ih => rw [ownResults, List.length_cons, ih, List.length_cons]

/-- The result of a room depends on the rooms before it only through their random ids. -/
theorem getElem?_ownResults (streamRoomsKeys : KeyMaps) (seen : List Bytes)
    (streamRooms : List StreamRoomRecord) (i : ℕ) :
    (P.ownResults streamRoomsKeys seen streamRooms)[i]? =
      streamRooms[i]?.map (P.ownResult streamRoomsKeys
        (seen ++ (streamRooms.take i).flatMap (P.fullRandomIds streamRoomsKeys))) := by
  induction streamRooms generalizing seen i with
  | nil => rfl
  | cons streamRoom streamRooms ih =>
      cases i with
      | zero => simp [ownResults]
      | succ i =>
          rw [ownResults, List.getElem?_cons_succ, List.getElem?_cons_succ, ih,
            List.take_succ_cons, List.flatMap_cons, List.append_assoc]

/-- **The loop that decrypts** leaves a result and an object behind for every room. -/
theorem decryptAll_eq {streamRoomsKeys : KeyMaps} {streamRooms : List StreamRoomRecord}
    (hpolicy : ∀ streamRoom ∈ streamRooms, P.PolicyParses streamRoom)
    (hcore : ∀ streamRoom ∈ streamRooms, ∀ e,
      P.decryptWith streamRoomsKeys streamRoom = .error e → ∃ code, e = .thrown (.core code))
    (s : DecryptionState) (seen : List Bytes)
    (hseen : ∀ id, id ∈ s.duplicationCheck ↔ id ∈ seen) :
    ∃ check, P.decryptAll streamRoomsKeys s streamRooms =
      .ok
        { result := s.result ++ (P.ownResults streamRoomsKeys seen streamRooms).map Prod.fst
          streamRoomsDio :=
            s.streamRoomsDio ++ (P.ownResults streamRoomsKeys seen streamRooms).map Prod.snd
          duplicationCheck := check } := by
  induction streamRooms generalizing s seen with
  | nil => exact ⟨s.duplicationCheck, by simp [decryptAll, ownResults]⟩
  | cons streamRoom streamRooms ih =>
      have hrest := fun r hr => hcore r (List.mem_cons_of_mem _ hr)
      have hpolicies := fun r hr => hpolicy r (List.mem_cons_of_mem _ hr)
      have hfirst := hcore streamRoom List.mem_cons_self
      cases hown : P.decryptWith streamRoomsKeys streamRoom with
      | error e =>
          obtain ⟨code, rfl⟩ := hfirst e hown
          obtain ⟨check, hcheck⟩ := ih hpolicies hrest
            { s with
              result := s.result ++ [P.failedStreamRoom streamRoom code]
              streamRoomsDio := s.streamRoomsDio ++ [.empty] } seen hseen
          have hconvert := convertServerStreamRoomToLibStreamRoom_eq
            (hpolicy streamRoom List.mem_cons_self) [] [] code StreamRoomDataSchema.UNKNOWN
          refine ⟨check, ?_⟩
          rw [decryptAll, decryptNext, hown]
          dsimp only
          rw [convertFailed, hconvert]
          refine Eq.trans ?_ (hcheck.trans ?_)
          · rfl
          simp [ownResults, ownResult, fullRandomIds, hown, EndpointException.statusCode]
      | ok decrypted =>
          obtain ⟨x, dio⟩ := decrypted
          have hids : P.fullRandomIds streamRoomsKeys streamRoom = [dio.fullRandomId] := by
            rw [fullRandomIds, hown]
          by_cases hdup : dio.fullRandomId ∈ s.duplicationCheck
          · obtain ⟨check, hcheck⟩ := ih hpolicies hrest
              { s with
                result := s.result ++ [{ x with statusCode := dataIntegrityObjectDuplicated.1 }]
                streamRoomsDio := s.streamRoomsDio ++ [dio] }
              (seen ++ [dio.fullRandomId]) (fun id => by
                rw [List.mem_append, List.mem_singleton, ← hseen id]
                exact ⟨Or.inl, fun h => h.elim (fun h => h) (fun h => h ▸ hdup)⟩)
            refine ⟨check, ?_⟩
            rw [decryptAll, decryptNext, hown]
            dsimp only
            rw [if_pos hdup]
            dsimp only
            rw [hcheck]
            simp [ownResults, ownResult, hids, hown, (hseen _).mp hdup]
          · have hnew : dio.fullRandomId ∉ seen := fun h => hdup ((hseen _).mpr h)
            obtain ⟨check, hcheck⟩ := ih hpolicies hrest
              { result := s.result ++ [x]
                streamRoomsDio := s.streamRoomsDio ++ [dio]
                duplicationCheck := s.duplicationCheck ++ [dio.fullRandomId] }
              (seen ++ [dio.fullRandomId]) (fun id => by
                rw [List.mem_append, List.mem_append, hseen id])
            refine ⟨check, ?_⟩
            rw [decryptAll, decryptNext, hown]
            dsimp only
            rw [if_neg hdup]
            dsimp only
            rw [hcheck]
            simp [ownResults, ownResult, hids, hown, hnew]

/-- The requests for the user verifier: one for each accepted result, with its own object. -/
def verificationRequests (results : List (StreamRoom × DataIntegrityObject)) :
    List VerificationRequest :=
  (results.filter (·.1.accepted)).map fun p => p.1.verificationRequest p.2

/-- Only rooms that were decoded are verified. -/
theorem verificationRequests_cons (x : StreamRoom) (dio : DataIntegrityObject)
    (results : List (StreamRoom × DataIntegrityObject)) :
    verificationRequests ((x, dio) :: results) =
      if x.statusCode = 0 then x.verificationRequest dio :: verificationRequests results
      else verificationRequests results := by
  unfold verificationRequests
  by_cases hx : x.statusCode = 0
  · simp [StreamRoom.accepted, hx]
  · simp [StreamRoom.accepted, hx]

/-- **The loop that collects requests** finds the object of each accepted result at the index
of the result. -/
theorem streamRoomVerifierInput_append (before : List DataIntegrityObject)
    (results : List (StreamRoom × DataIntegrityObject)) :
    streamRoomVerifierInput (before ++ results.map Prod.snd) before.length
        (results.map Prod.fst) = .ok (verificationRequests results) := by
  induction results generalizing before with
  | nil => rfl
  | cons p results ih =>
      obtain ⟨x, dio⟩ := p
      have hrest := ih (before ++ [dio])
      rw [List.append_assoc, List.length_append, List.length_singleton, List.singleton_append]
        at hrest
      have hget : (before ++ dio :: results.map Prod.snd)[before.length]? = some dio := by simp
      rw [List.map_cons, List.map_cons, streamRoomVerifierInput, hget, hrest,
        verificationRequests_cons]
      by_cases hx : x.statusCode = 0
      · rw [if_pos hx, if_pos hx]
      · rw [if_neg hx, if_neg hx]

/-- One request for each room that was decoded. -/
theorem length_verificationRequests
    (results : List (StreamRoom × DataIntegrityObject)) :
    (verificationRequests results).length =
      (results.map Prod.fst).countP StreamRoom.accepted := by
  rw [verificationRequests, List.length_map, ← List.countP_eq_length_filter, List.countP_map]
  rfl

/-- The index of the request of a result, and of its verdict. -/
def requestIndex (results : List (StreamRoom × DataIntegrityObject)) (i : ℕ) : ℕ :=
  passedBefore StreamRoom.accepted (results.map Prod.fst) i

/-- The request of a room stands where `requestIndex` counts it. -/
theorem getElem?_verificationRequests
    {results : List (StreamRoom × DataIntegrityObject)} {i : ℕ} {x : StreamRoom}
    {dio : DataIntegrityObject} (hx : results[i]? = some (x, dio)) (hzero : x.statusCode = 0) :
    (verificationRequests results)[requestIndex results i]? =
      some (x.verificationRequest dio) := by
  have hindex : requestIndex results i =
      passedBefore (fun p : StreamRoom × DataIntegrityObject => p.1.accepted) results i := by
    unfold requestIndex passedBefore
    rw [← List.map_take, List.countP_map]
    rfl
  have hfound := getElem?_filter
    (p := fun p : StreamRoom × DataIntegrityObject => p.1.accepted) hx
    (decide_eq_true hzero)
  rw [verificationRequests, List.getElem?_map, hindex, hfound]
  rfl

/-- Each result of a batch is the room's own decryption, with the verdict on its own
request. -/
structure DecryptsEach (streamRooms : List StreamRoomRecord) (streamRoomsKeys : KeyMaps)
    (verdicts : List Bool) (result : List StreamRoom) : Prop where
  answer : P.userVerifier (verificationRequests (P.ownResults streamRoomsKeys [] streamRooms)) =
    some verdicts
  length_verdicts : verdicts.length =
    (verificationRequests (P.ownResults streamRoomsKeys [] streamRooms)).length
  length : result.length = streamRooms.length
  room : ∀ i streamRoom, streamRooms[i]? = some streamRoom → ∃ x dio,
    P.ownResult streamRoomsKeys
        ((streamRooms.take i).flatMap (P.fullRandomIds streamRoomsKeys)) streamRoom = (x, dio) ∧
      (x.statusCode ≠ 0 → result[i]? = some x) ∧
      (x.statusCode = 0 → ∃ k verdict,
        k = requestIndex (P.ownResults streamRoomsKeys [] streamRooms) i ∧
        (verificationRequests (P.ownResults streamRoomsKeys [] streamRooms))[k]? =
          some (x.verificationRequest dio) ∧
        verdicts[k]? = some verdict ∧ result[i]? = some (x.withVerdict verdict))

/-- The rooms of a batch: they have data that passes its check, and a policy. -/
structure Batch (streamRooms : List StreamRoomRecord) : Prop where
  data : ∀ streamRoom ∈ streamRooms, streamRoom.data ≠ []
  policy : ∀ streamRoom ∈ streamRooms, P.PolicyParses streamRoom
  passes : ∀ streamRoom ∈ streamRooms, P.passes streamRoom = true

section Decrypted

variable {P} {streamRooms : List StreamRoomRecord} {streamRoomsKeys : KeyMaps}

/-- The batch without its loops. -/
theorem decryptAndConvert_eq (hbatch : P.Batch streamRooms)
    (hkeys : P.getKeysAndVerify (builtRequest streamRooms) = .ok streamRoomsKeys) :
    P.decryptAndConvertStreamRoomsDataToStreamRooms streamRooms =
      match UserVerifier.verify P.userVerifier
          (verificationRequests (P.ownResults streamRoomsKeys [] streamRooms)) with
      | .error _ => .error (.thrown (.core userVerificationMethodUnhandled))
      | .ok verified =>
          writeRoomVerdicts verified
            ((P.ownResults streamRoomsKeys [] streamRooms).map Prod.fst) := by
  obtain ⟨check, hall⟩ := P.decryptAll_eq hbatch.policy
    (fun streamRoom hroom _ he => P.decryptWith_error hkeys hroom (hbatch.passes streamRoom hroom)
      (hbatch.policy streamRoom hroom) he)
    ⟨[], [], []⟩ [] (fun _ => Iff.rfl)
  have hinput := streamRoomVerifierInput_append [] (P.ownResults streamRoomsKeys [] streamRooms)
  simp only [List.nil_append, List.length_nil] at hall hinput
  rw [decryptAndConvertStreamRoomsDataToStreamRooms, keyProviderRequest_eq hbatch.data]
  simp only [bind, Except.bind, hkeys, thrownBy, Except.mapError, hall, hinput]
  rfl

/-- **A batch** whose verdicts come is decrypted room by room. -/
theorem decryptsEach_of_verify (hbatch : P.Batch streamRooms)
    (hkeys : P.getKeysAndVerify (builtRequest streamRooms) = .ok streamRoomsKeys)
    {verified : List Bool}
    (hverify : UserVerifier.verify P.userVerifier
      (verificationRequests (P.ownResults streamRoomsKeys [] streamRooms)) = .ok verified) :
    ∃ result, P.decryptAndConvertStreamRoomsDataToStreamRooms streamRooms = .ok result ∧
      P.DecryptsEach streamRooms streamRoomsKeys verified result := by
  have hlength := UserVerifier.length_verify hverify
  obtain ⟨result, hresult, hresultLength, hspec⟩ := fill_spec
    (p := StreamRoom.accepted) StreamRoom.withVerdict verified 0
    ((P.ownResults streamRoomsKeys [] streamRooms).map Prod.fst)
    (by rw [hlength, length_verificationRequests, Nat.zero_add])
  refine ⟨result, ?_, ?_, hlength, ?_, ?_⟩
  · rw [decryptAndConvert_eq hbatch hkeys, hverify]
    dsimp only
    rw [writeRoomVerdicts, hresult]
  · unfold UserVerifier.verify at hverify
    split at hverify
    · cases hverify
    · rename_i given hgiven
      split at hverify
      · cases hverify
      · cases hverify
        exact hgiven
  · rw [hresultLength, List.length_map, length_ownResults]
  · intro i streamRoom hroom
    have hown := P.getElem?_ownResults streamRoomsKeys [] streamRooms i
    rw [hroom, Option.map_some, List.nil_append] at hown
    generalize P.ownResult streamRoomsKeys
      ((streamRooms.take i).flatMap (P.fullRandomIds streamRoomsKeys)) streamRoom = own at hown
    obtain ⟨x, dio⟩ := own
    have hx : ((P.ownResults streamRoomsKeys [] streamRooms).map Prod.fst)[i]? = some x := by
      rw [List.getElem?_map, hown, Option.map_some]
    obtain ⟨hfailed, haccepted⟩ := hspec i x hx
    refine ⟨x, dio, rfl, ?_, ?_⟩
    · intro hne
      exact hfailed (decide_eq_false hne)
    · intro hzero
      obtain ⟨verdict, hverdict, hwritten⟩ := haccepted (decide_eq_true hzero)
      rw [Nat.zero_add] at hverdict
      exact ⟨_, verdict, rfl, getElem?_verificationRequests hown hzero, hverdict, hwritten⟩

end Decrypted

/-! ### The whole listing -/

/-- One stream room for each room of the server, in the same order: the failed ones with
their integrity status and without metadata, the others as the batch decrypts them with
their keys. -/
structure ListsEach (streamRoomsList : StreamRoomListResult) (streamRoomsKeys : KeyMaps)
    (page : StreamRoomPage) : Prop where
  totalAvailable : page.totalAvailable = streamRoomsList.count
  length : page.readItems.length = streamRoomsList.list.length
  keys : ∃ request, keyProviderRequest (streamRoomsList.list.filter P.passes) = .ok request ∧
    ∀ undefined, (P.withUndefined undefined).getKeysAndVerify request = .ok streamRoomsKeys
  failed : ∀ (i : ℕ) (streamRoom : StreamRoomRecord) (statusCode : ℕ),
    streamRoomsList.list[i]? = some streamRoom →
    P.validateStreamRoomDataIntegrity streamRoom = .ok statusCode → statusCode ≠ 0 →
      ∃ x, P.convertFailed streamRoom statusCode = .ok x ∧ page.readItems[i]? = some x
  passed : ∃ (verdicts : List Bool) (tmp : List StreamRoom),
    P.decryptAndConvertStreamRoomsDataToStreamRooms (streamRoomsList.list.filter P.passes) =
      .ok tmp ∧
    P.DecryptsEach (streamRoomsList.list.filter P.passes) streamRoomsKeys verdicts tmp ∧
    ∀ (i : ℕ) (streamRoom : StreamRoomRecord), streamRoomsList.list[i]? = some streamRoom →
      P.validateStreamRoomDataIntegrity streamRoom = .ok 0 →
        (streamRoomsList.list.filter P.passes)[passedBefore P.passes streamRoomsList.list i]? =
          some streamRoom ∧
        ∃ x, tmp[passedBefore P.passes streamRoomsList.list i]? = some x ∧
          page.readItems[i]? = some x

/-- What a listing asks of its rooms: each has data and a policy that parses, and for the
rooms that pass their check, what the last of them hands over for a location and a key id
can be read. -/
structure Listable (list : List StreamRoomRecord) : Prop where
  data : ∀ streamRoom ∈ list, streamRoom.data ≠ []
  policy : ∀ streamRoom ∈ list, P.PolicyParses streamRoom
  keys : ∀ location keyId entry,
    KeyRequest.lastContent location keyId ((list.filter P.passes).map keyAddition) = some entry →
      entry.Readable P.keyCrypto P.userPrivKey

/-- The room as the first loop leaves it. -/
def checkedStreamRoom (streamRoom : StreamRoomRecord) : StreamRoom :=
  P.failedStreamRoom streamRoom (P.integrityStatus streamRoom)

section Listing

variable {P} {streamRoomsList : StreamRoomListResult} {streamRoomsKeys : KeyMaps}

/-- A listable answer leaves a batch without repeated rooms. -/
theorem Listable.batch {list : List StreamRoomRecord} (h : P.Listable list) :
    P.Batch (list.filter P.passes) where
  data streamRoom hroom := h.data streamRoom (List.mem_filter.mp hroom).1
  policy streamRoom hroom := h.policy streamRoom (List.mem_filter.mp hroom).1
  passes _ hroom := (List.mem_filter.mp hroom).2

/-- The entries of the request are those that the rooms hand over. -/
theorem readable_iff (streamRooms : List StreamRoomRecord) :
    (∀ location keyId entry,
      KeyRequest.lastContent location keyId (streamRooms.map keyAddition) = some entry →
        entry.Readable P.keyCrypto P.userPrivKey) ↔
      ∀ l ∈ builtRequest streamRooms, ∀ a ∈ l.2, a.2.Readable P.keyCrypto P.userPrivKey := by
  have hbuilt := builtBy_builtRequest streamRooms
  rw [← KeyProvider.forall_contentAt_iff hbuilt.distinctKeys hbuilt.built.wellKeyed
    (·.Readable P.keyCrypto P.userPrivKey)]
  simp only [hbuilt.contentAt_eq]

/-- The rooms that pass are those that the check leaves with a status of zero. -/
theorem passedBefore_checked {list : List StreamRoomRecord}
    (hdata : ∀ streamRoom ∈ list, streamRoom.data ≠ []) (i : ℕ) :
    passedBefore StreamRoom.accepted (list.map P.checkedStreamRoom) i =
      passedBefore P.passes list i := by
  unfold passedBefore
  rw [← List.map_take, List.countP_map]
  refine List.countP_congr fun streamRoom hroom => ?_
  rw [passes_eq (hdata streamRoom (List.mem_of_mem_take hroom))]
  rfl

/-- The batch goes back to where it came from. -/
theorem listsEach_of_batch (hlistable : P.Listable streamRoomsList.list)
    (hkeys : ∃ request,
      keyProviderRequest (streamRoomsList.list.filter P.passes) = .ok request ∧
        ∀ undefined, (P.withUndefined undefined).getKeysAndVerify request = .ok streamRoomsKeys)
    {verdicts : List Bool} {tmp : List StreamRoom}
    (htmp : P.decryptAndConvertStreamRoomsDataToStreamRooms
      (streamRoomsList.list.filter P.passes) = .ok tmp)
    (heach : P.DecryptsEach (streamRoomsList.list.filter P.passes) streamRoomsKeys verdicts tmp) :
    ∃ readItems, fill StreamRoom.accepted (fun _ x => x) tmp 0
        (streamRoomsList.list.map P.checkedStreamRoom) = some readItems ∧
      P.ListsEach streamRoomsList streamRoomsKeys
        { totalAvailable := streamRoomsList.count, readItems := readItems } := by
  have hcount : (streamRoomsList.list.map P.checkedStreamRoom).countP StreamRoom.accepted =
      tmp.length := by
    have hall := passedBefore_checked (P := P) hlistable.data streamRoomsList.list.length
    rw [passedBefore, passedBefore, List.take_of_length_le (by simp), List.take_length] at hall
    rw [heach.length, ← List.countP_eq_length_filter, hall]
  obtain ⟨readItems, hfill, hlength, hspec⟩ := fill_spec (p := StreamRoom.accepted)
    (fun _ x => x) tmp 0 (streamRoomsList.list.map P.checkedStreamRoom) (by omega)
  have hchecked : ∀ (i : ℕ) (streamRoom : StreamRoomRecord) (statusCode : ℕ),
      streamRoomsList.list[i]? = some streamRoom →
      P.validateStreamRoomDataIntegrity streamRoom = .ok statusCode →
        (streamRoomsList.list.map P.checkedStreamRoom)[i]? =
          some (P.failedStreamRoom streamRoom statusCode) := by
    intro i streamRoom statusCode hroom hstatus
    rw [List.getElem?_map, hroom, Option.map_some, checkedStreamRoom, integrityStatus, hstatus]
    rfl
  refine ⟨readItems, hfill, rfl, ?_, hkeys, ?_, verdicts, tmp, htmp, heach, ?_⟩
  · show readItems.length = streamRoomsList.list.length
    rw [hlength, List.length_map]
  · intro i streamRoom statusCode hroom hstatus hne
    refine ⟨P.failedStreamRoom streamRoom statusCode,
      convertServerStreamRoomToLibStreamRoom_eq
        (hlistable.policy streamRoom (List.mem_of_getElem? hroom)) [] [] statusCode _, ?_⟩
    exact (hspec i _ (hchecked i streamRoom statusCode hroom hstatus)).1 (decide_eq_false hne)
  · intro i streamRoom hroom hstatus
    have hpass : P.passes streamRoom = true := by
      rw [passes, hstatus]
      rfl
    obtain ⟨x, hx, hread⟩ := (hspec i _ (hchecked i streamRoom 0 hroom hstatus)).2 rfl
    rw [Nat.zero_add, passedBefore_checked hlistable.data] at hx
    exact ⟨getElem?_filter hroom hpass, x, hx, hread⟩

/-- The listing without its first loop. -/
theorem listStreamRooms_eq {fuel : ℕ} (hfuel : streamRoomsList.list.length < fuel)
    (hdata : ∀ streamRoom ∈ streamRoomsList.list, streamRoom.data ≠ [])
    (hpolicy : ∀ streamRoom ∈ streamRoomsList.list, P.PolicyParses streamRoom) :
    P.listStreamRooms fuel streamRoomsList =
      match P.decryptAndConvertStreamRoomsDataToStreamRooms
          (streamRoomsList.list.filter P.passes) with
      | .error e => some (.error e)
      | .ok tmp =>
          match fill StreamRoom.accepted (fun _ x => x) tmp 0
              (streamRoomsList.list.map P.checkedStreamRoom) with
          | none => some (.error .indexOutOfRange)
          | some readItems =>
              some (.ok { totalAvailable := streamRoomsList.count, readItems := readItems }) := by
  rw [listStreamRooms, eraseFailing_eq
    (fun streamRoom hroom => checkStreamRoom_eq (hdata streamRoom hroom)
      (hpolicy streamRoom hroom)) hfuel streamRoomsList.length_lt]
  rfl

/-- The decryption of a room reads its key, not where the key comes from. -/
theorem ownResults_withUndefined (undefined : UndefinedReads) (streamRoomsKeys : KeyMaps)
    (seen : List Bytes) (streamRooms : List StreamRoomRecord) :
    (P.withUndefined undefined).ownResults streamRoomsKeys seen streamRooms =
      P.ownResults streamRoomsKeys seen streamRooms := by
  induction streamRooms generalizing seen with
  | nil => rfl
  | cons streamRoom streamRooms ih =>
      rw [ownResults, ownResults, ih]
      rfl

/-- The keys are the only part of the listing that undefined reads reach. -/
theorem decryptAndConvert_withUndefined {undefined : UndefinedReads}
    {streamRooms : List StreamRoomRecord} (hbatch : P.Batch streamRooms)
    (hkeys : P.getKeysAndVerify (builtRequest streamRooms) = .ok streamRoomsKeys)
    (hother : (P.withUndefined undefined).getKeysAndVerify (builtRequest streamRooms) =
      .ok streamRoomsKeys) :
    (P.withUndefined undefined).decryptAndConvertStreamRoomsDataToStreamRooms streamRooms =
      P.decryptAndConvertStreamRoomsDataToStreamRooms streamRooms := by
  have hbatch' : (P.withUndefined undefined).Batch streamRooms :=
    ⟨hbatch.data, hbatch.policy, hbatch.passes⟩
  rw [decryptAndConvert_eq hbatch hkeys, decryptAndConvert_eq hbatch' hother,
    ownResults_withUndefined]
  rfl

/-- **Rooms that can be listed** are. -/
theorem listStreamRooms_of_listable (hanswers : KeyProvider.Answers P.userVerifier)
    (hlistable : P.Listable streamRoomsList.list) {fuel : ℕ}
    (hfuel : streamRoomsList.list.length < fuel) :
    ∃ streamRoomsKeys page, P.ListsEach streamRoomsList streamRoomsKeys page ∧
      ∀ undefined,
        (P.withUndefined undefined).listStreamRooms fuel streamRoomsList = some (.ok page) := by
  have hbatch := hlistable.batch
  obtain ⟨streamRoomsKeys, hkeys⟩ :=
    KeyProvider.getKeysAndVerify_of_readable ((readable_iff _).mp hlistable.keys) hanswers
  obtain ⟨verdicts, hverdicts, hlength⟩ := hanswers (verificationRequests
    (P.ownResults streamRoomsKeys [] (streamRoomsList.list.filter P.passes)))
  have hverify : UserVerifier.verify P.userVerifier (verificationRequests
      (P.ownResults streamRoomsKeys [] (streamRoomsList.list.filter P.passes))) = .ok verdicts := by
    rw [UserVerifier.verify, hverdicts]
    dsimp only
    rw [if_neg (not_not.mpr hlength)]
  have hown : P.getKeysAndVerify (builtRequest (streamRoomsList.list.filter P.passes)) =
      .ok streamRoomsKeys := hkeys P.keyCrypto.undefined
  obtain ⟨tmp, htmp, heach⟩ := decryptsEach_of_verify hbatch hown hverify
  obtain ⟨readItems, hfill, hlists⟩ := listsEach_of_batch hlistable
    ⟨_, keyProviderRequest_eq hbatch.data, hkeys⟩ htmp heach
  refine ⟨streamRoomsKeys, _, hlists, fun undefined => ?_⟩
  have hother := decryptAndConvert_withUndefined hbatch hown (hkeys undefined)
  rw [listStreamRooms_eq (P := P.withUndefined undefined) hfuel hlistable.data hlistable.policy]
  change (match (P.withUndefined undefined).decryptAndConvertStreamRoomsDataToStreamRooms
    (streamRoomsList.list.filter P.passes) with | .error e => _ | .ok tmp => _) = _
  rw [hother, htmp]
  dsimp only
  change (match fill StreamRoom.accepted (fun _ x => x) tmp 0
    (streamRoomsList.list.map P.checkedStreamRoom) with | none => _ | some readItems => _) = _
  rw [hfill]

/-- A room without data, or whose policy does not parse, takes the listing down. -/
theorem listStreamRooms_error
    (h : ∃ streamRoom ∈ streamRoomsList.list, streamRoom.data = [] ∨ ¬ P.PolicyParses streamRoom)
    {fuel : ℕ} (hfuel : streamRoomsList.list.length < fuel) :
    ∃ e, P.listStreamRooms fuel streamRoomsList = some (.error e) := by
  obtain ⟨streamRoom, hroom, hfails⟩ := h
  obtain ⟨_, _, e, -, herror⟩ := eraseFailing_error
    ⟨streamRoom, hroom, checkStreamRoom_error hfails⟩ hfuel streamRoomsList.length_lt
  exact ⟨e, by rw [listStreamRooms, herror]⟩

end Listing

/-- **Listing stream rooms.**  There is one page, with each room in its place and the same
whatever undefined reads give, exactly if every room has data and a policy that parses and
the key entries of the rooms that pass their check can be read. -/
theorem listStreamRooms_aligned_iff (hanswers : KeyProvider.Answers P.userVerifier)
    (streamRoomsList : StreamRoomListResult) {fuel : ℕ}
    (hfuel : streamRoomsList.list.length < fuel) :
    (∃ streamRoomsKeys page, P.ListsEach streamRoomsList streamRoomsKeys page ∧
      ∀ undefined,
        (P.withUndefined undefined).listStreamRooms fuel streamRoomsList = some (.ok page)) ↔
      P.Listable streamRoomsList.list := by
  constructor
  · rintro ⟨streamRoomsKeys, page, hlists, hpage⟩
    have hrooms : ∀ streamRoom ∈ streamRoomsList.list,
        streamRoom.data ≠ [] ∧ P.PolicyParses streamRoom := by
      intro streamRoom hroom
      by_contra hfails
      obtain ⟨e, he⟩ := listStreamRooms_error (P := P)
        ⟨streamRoom, hroom, (not_and_or.mp hfails).imp_left not_not.mp⟩ hfuel
      cases he.symm.trans (hpage P.keyCrypto.undefined)
    refine ⟨fun r hr => (hrooms r hr).1, fun r hr => (hrooms r hr).2, ?_⟩
    obtain ⟨request, hrequest, hkeys⟩ := hlists.keys
    rw [keyProviderRequest_eq fun r hr => (hrooms r (List.mem_filter.mp hr).1).1] at hrequest
    obtain rfl := Except.ok.inj hrequest
    have hbuilt := builtBy_builtRequest (streamRoomsList.list.filter P.passes)
    refine (readable_iff _).mpr fun l hl a ha => ?_
    exact KeyProvider.readable_of_getKeysAndVerify hbuilt.distinctKeys hbuilt.built.wellKeyed
      hkeys hl ha
  · exact fun hlistable => listStreamRooms_of_listable hanswers hlistable hfuel

/-! ### Samples -/

/-- Data of version 5 with a name and a signed object. -/
def sampleData (name dio : Bytes) : StreamRoomDataEntry where
  keyId := [8]
  data := .object (.ok 5) (.ok
    { version := 5
      publicMeta := name
      publicMetaObject := none
      privateMeta := [1]
      data := []
      internalMeta := some [1]
      authorPubKey := [1]
      dio := dio })

/-- A key entry that can be read. -/
def sampleEntry : KeyEntry := ⟨[8], .string [5, 0, 8]⟩

/-- An object of version 2 without the fields of a key entry. -/
def undecodableEntry : KeyEntry := ⟨[8], .object (.ok 2) (.error .other)⟩

/-- A room of the server. -/
def sampleRecord (id : Bytes) (data : List StreamRoomDataEntry) (key : KeyEntry)
    (policy : DynamicVar) : StreamRoomRecord where
  id := id
  resourceId := none
  contextId := id
  createDate := 0
  creator := [97]
  lastModificationDate := 0
  lastModifier := [97]
  data := data
  users := [[97]]
  managers := [[97]]
  keys := [key]
  version := 1
  policy := policy
  closed := none

/-- A reader whose signed objects are the ids of their contexts, that finds the name of a
room in its metadata, and that throws for one of them. -/
def sampleReader : StreamRoomReader where
  toStreamKeys := sampleStreamKeys
  getDIOAndAssertIntegrity encrypted :=
    if encrypted.dio = [] then
      .error .other
    else
      .ok
        { DataIntegrityObject.empty with
          contextId := encrypted.dio
          creatorUserId := [97] }
  decryptModuleDataV5 entry _ :=
    match entry.encryptedModuleDataV5 with
    | .error _ => .error unknowStreamRoomFormat
    | .ok encrypted =>
        if encrypted.publicMeta = [4] then
          .error dataIntegrityObjectDuplicated
        else
          .ok
            { statusCode := 0
              publicMeta := encrypted.publicMeta
              privateMeta := []
              internalMeta := ⟨[], [], []⟩
              authorPubKey := []
              dio := { DataIntegrityObject.empty with randomId := encrypted.publicMeta } }
  convertString _ := .ok []

/-- Two adjacent failures in front of a room, one of them with a key entry that cannot be
read, a room whose decryption throws, and one with a policy. -/
def sampleAnswer : StreamRoomListResult where
  list :=
    [sampleRecord [1] [sampleData [1] []] undecodableEntry .empty,
      sampleRecord [2] [sampleData [2] [2], ⟨[8], .other⟩] sampleEntry .empty,
      sampleRecord [3] [sampleData [3] [3]] sampleEntry .empty,
      sampleRecord [4] [sampleData [4] [4]] sampleEntry .empty,
      sampleRecord [5] [sampleData [5] [5]] sampleEntry (.object [])]
  count := 5
  length_lt := by decide

/-- The sample verifier answers every request. -/
theorem sampleReader_answers : KeyProvider.Answers sampleReader.userVerifier :=
  fun _ => ⟨_, rfl, List.length_map _⟩

/-- The sample answer can be listed. -/
theorem sampleAnswer_listable : sampleReader.Listable sampleAnswer.list where
  data := by
    simp only [sampleAnswer, List.forall_mem_cons, List.not_mem_nil, false_implies,
      implies_true, and_true]
    exact ⟨nofun, nofun, nofun, nofun, nofun⟩
  policy := by
    simp only [sampleAnswer, List.forall_mem_cons, List.not_mem_nil, false_implies,
      implies_true, and_true]
    have hempty : ∀ id data key, sampleReader.PolicyParses (sampleRecord id data key .empty) :=
      fun _ _ _ => ⟨_, rfl⟩
    exact ⟨hempty _ _ _, hempty _ _ _, hempty _ _ _, hempty _ _ _,
      (Factory.parsePolicyServerObject_iff _ (fun _ => ⟨_, rfl⟩) _).mpr (Or.inr ⟨[], rfl⟩)⟩
  keys location keyId entry hentry := by
    have hread : sampleEntry.Readable sampleKeyCrypto (5 : UInt8) :=
      ⟨List.cons_ne_nil _ _, [8], rfl⟩
    refine KeyProvider.readable_of_lastContent (fun a ha e he => ?_) hentry
    obtain ⟨streamRoom, hroom, rfl⟩ := List.mem_map.mp ha
    have hpassing : sampleAnswer.list.filter sampleReader.passes = sampleAnswer.list.drop 2 := rfl
    rw [hpassing] at hroom
    have hkeys : ∀ r ∈ sampleAnswer.list.drop 2, r.keys = [sampleEntry] := by
      simp only [sampleAnswer, List.drop_succ_cons, List.drop_zero, List.forall_mem_cons,
        List.not_mem_nil, false_implies, implies_true, and_true]
      exact ⟨rfl, rfl, rfl⟩
    change e ∈ streamRoom.keys at he
    rw [hkeys streamRoom hroom, List.mem_singleton] at he
    exact he ▸ hread

/-- The rooms of the sample answer are listed one by one, whatever an undefined read yields.
-/
theorem listStreamRooms_aligned_sample :
    ∃ streamRoomsKeys page, sampleReader.ListsEach sampleAnswer streamRoomsKeys page ∧
      ∀ undefined,
        (sampleReader.withUndefined undefined).listStreamRooms 6 sampleAnswer =
          some (.ok page) :=
  (sampleReader.listStreamRooms_aligned_iff sampleReader_answers sampleAnswer
    (by decide : sampleAnswer.list.length < 6)).mpr sampleAnswer_listable

/-- Two rooms, the first of which is in order. -/
def twoRooms (second : StreamRoomRecord) : StreamRoomListResult where
  list := [sampleRecord [3] [sampleData [3] [3]] sampleEntry .empty, second]
  count := 2
  length_lt := by simp

/-- There is no page if the second room passes its check and has a key entry that cannot be
read, or a policy that is no object, or if it has no data. -/
theorem listStreamRooms_not_aligned :
    sampleReader.passes (sampleRecord [6] [sampleData [6] [6]] undecodableEntry .empty) = true ∧
      sampleReader.listStreamRooms 3
          (twoRooms (sampleRecord [6] [sampleData [6] [6]] undecodableEntry .empty)) =
        some (.error (.thrown .other)) ∧
      sampleReader.passes (sampleRecord [7] [sampleData [7] [7]] sampleEntry (.bool true)) = true ∧
      sampleReader.listStreamRooms 3
          (twoRooms (sampleRecord [7] [sampleData [7] [7]] sampleEntry (.bool true))) =
        some (.error (.thrown .other)) ∧
      sampleReader.listStreamRooms 3 (twoRooms (sampleRecord [8] [] sampleEntry .empty)) =
        some (.error .indexOutOfRange) :=
  ⟨rfl, rfl, rfl, rfl, rfl⟩

end StreamRoomReader

end Stream

end PrivmxEndpoint
