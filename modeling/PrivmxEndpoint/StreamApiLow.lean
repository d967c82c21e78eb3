import PrivmxEndpoint.DataChannel
import PrivmxEndpoint.GuardedRuns
import PrivmxEndpoint.KeyProvider
import PrivmxEndpoint.ThrowingPrograms

/-!
# Rooms, stream handles and room keys of a `StreamApiLowImpl`

The calls of `StreamApiLowImpl` that change its table of rooms and its table of
stream handles, and the notification that changes the keys of a room.  Each of them
talks to the server and to the application's `WebRTCInterface`, and any of these
conversations may end in an exception.
-/

namespace PrivmxEndpoint

namespace Stream

open Throwing Runs

def incorrectStreamHandle : ErrorCode := streamCode 0x000A
def streamRoomConnectionNotInitialized : ErrorCode := streamCode 0x0020
def streamHandleNotInitialized : ErrorCode := streamCode 0x0021
def streamAlreadyPublished : ErrorCode := streamCode 0x0022
def alreadyJoinedStreamRoom : ErrorCode := streamCode 0x002D

/-- `server::StreamRoomInfo`, as far as the keys of a room need it. -/
structure StreamRoomInfo where
  id : Bytes
  contextId : Bytes
  resourceId : Option Bytes
  type : Option String
  keys : List KeyEntry
  /-- `data.back().keyId`. -/
  keyId : Bytes

/-- `STREAM_TYPE_FILTER_FLAG`. -/
def STREAM_TYPE_FILTER_FLAG : String := "stream"

/-- What a `StreamApiLowImpl` uses to decrypt the keys of a room. -/
structure StreamKeys where
  keyCrypto : KeyCrypto
  userPrivKey : keyCrypto.PrivateKey
  userVerifier : UserVerifierInterface

namespace StreamKeys

variable (P : StreamKeys)

/-- `extractStreamRoomKeys`. -/
def extractStreamRoomKeys (streamRoomInfo : StreamRoomInfo) :
    Except EndpointException (List (Bytes × DecryptedEncKeyV2)) := do
  let location : EncKeyLocation :=
    { contextId := streamRoomInfo.contextId, resourceId := streamRoomInfo.resourceId.getD [] }
  let keys ← KeyProvider.getKeysAndVerify P.keyCrypto P.userPrivKey P.userVerifier
    (KeyRequest.addAll [] streamRoomInfo.keys location)
  mapAt location keys

/-- `deriveStreamEncryptionKey`. -/
def deriveStreamEncryptionKey (encKey : DecryptedEncKeyV2) : Bytes :=
  P.keyCrypto.sha256 encKey.key

/-- A key for `WebRTCInterface`. -/
def webRTCKey (type : KeyType) (encKey : DecryptedEncKeyV2) : Key where
  keyId := encKey.id
  key := P.deriveStreamEncryptionKey encKey
  type := type

/-- `generateWebRTCKeysFromStreamRoomInfo`. -/
def generateWebRTCKeysFromStreamRoomInfo (streamRoomInfo : StreamRoomInfo)
    (encryptionKeyId : Bytes) : Except EndpointException (List Key) := do
  let keys ← P.extractStreamRoomKeys streamRoomInfo
  let currentStreamRoomKey ← mapAt encryptionKeyId keys
  if currentStreamRoomKey.statusCode ≠ 0 then throw (.core malformedEncryptionKey)
  return P.webRTCKey .LOCAL currentStreamRoomKey ::
    (keys.filter (·.2.statusCode = 0)).map fun key => P.webRTCKey .REMOTE key.2

end StreamKeys

/-- `StreamData`. -/
structure StreamData where
  sessionId : Option ℤ
  streamHandle : Option ℤ
  deriving Repr, DecidableEq

/-- `StreamRoomData`. -/
structure StreamRoomData where
  publisherStream : Option StreamData
  subscriberStream : Option StreamData
  messageEncryptor : DataChannelMessageEncryptorV1
  /-- The keys that `webRtc` was last given. -/
  webRtcKeys : List Key
  subscriptionsIds : List Bytes
  encryptionKeyId : Bytes
  /-- Not in the code: the last description of the room that arrived. -/
  latest : StreamRoomInfo

/-- The state of a `StreamApiLowImpl`. -/
structure StreamApiLow where
  streamRoomMap : AList (fun _ : Bytes => StreamRoomData)
  streamHandleToRoomId : AList (fun _ : ℤ => Bytes)
  /-- A counter of the class, not of the object. -/
  nextIdCounter : ℤ

/-- The state before the first call. -/
def StreamApiLow.initial : StreamApiLow where
  streamRoomMap := ∅
  streamHandleToRoomId := ∅
  nextIdCounter := 0

/-- Programs over a `StreamApiLowImpl`. -/
abbrev StreamProg := Prog EndpointException StreamApiLow

/-- How the calls end that `joinStreamRoom` makes. -/
structure JoinAnswers where
  streamRoomGet : Except EndpointException StreamRoomInfo
  updateKeys : Except EndpointException Unit
  subscribeFor : Except EndpointException (List Bytes)
  streamRoomJoin : Except EndpointException Unit

/-- How the calls end that `publishStream` makes. -/
structure PublishAnswers where
  createOffer : Except EndpointException Unit
  /-- The session of the stream. -/
  streamPublish : Except EndpointException ℤ
  /-- `updateSessionId` and `setAnswerAndSetRemoteDescription`. -/
  describe : Except EndpointException Unit

/-- How the calls end that `subscribeToRemoteStreams` makes. -/
structure SubscribeAnswers where
  /-- The session of the subscription. -/
  streamsSubscribeToRemote : Except EndpointException ℤ
  updateSessionId : Except EndpointException Unit
  /-- `createAnswerAndSetDescriptions` and `streamAcceptOffer`. -/
  acceptOffer : Except EndpointException Unit

/-- How the calls end that `leaveStreamRoom` makes. -/
structure LeaveAnswers where
  unsubscribeFrom : Except EndpointException Unit
  close : Except EndpointException Unit
  streamRoomLeave : Except EndpointException Unit

/-- How the calls end that a notification `streamRoomUpdated` makes. -/
structure UpdateAnswers where
  /-- `getSubscriptionQuery` knows one of the notification's subscriptions. -/
  subscribed : Bool
  /-- `decryptAndConvertStreamRoomDataToStreamRoom`. -/
  decrypted : Except EndpointException Unit
  updateKeys : Except EndpointException Unit

namespace StreamApiLow

/-- `_streamRoomMap.set`, and the changes made through a pointer to a room. -/
def setRoom (streamRoomId : Bytes) (room : StreamRoomData) (s : StreamApiLow) : StreamApiLow :=
  { s with streamRoomMap := s.streamRoomMap.insert streamRoomId room }

/-- `_streamHandleToRoomId.erase` of the handle that a stream has. -/
def eraseHandle (stream : Option StreamData) (s : StreamApiLow) : StreamApiLow :=
  match stream.bind (·.streamHandle) with
  | some streamHandle =>
      { s with streamHandleToRoomId := s.streamHandleToRoomId.erase streamHandle }
  | none => s

/-- The largest `int32_t`. -/
def NEXT_ID_MAX : ℤ := 2 ^ 31 - 1

/-- `nextId`.  The increment of the largest id is undefined; `overflowed` is what it
leaves in the counter. -/
def nextId (overflowed : ℤ) : StreamProg ℤ := do
  let s ← get
  modify fun s =>
    { s with
      nextIdCounter := if s.nextIdCounter = NEXT_ID_MAX then overflowed else s.nextIdCounter + 1 }
  return s.nextIdCounter

/-- `getStreamRoomData` of a room. -/
def getStreamRoomData (streamRoomId : Bytes) : StreamProg StreamRoomData := do
  let s ← get
  match s.streamRoomMap.lookup streamRoomId with
  | none => throw (.core streamRoomConnectionNotInitialized)
  | some room => return room

/-- `getStreamRoomData` of a stream, with the place where the room is found. -/
def getStreamRoomDataOf (streamHandle : ℤ) : StreamProg (Bytes × StreamRoomData) := do
  let s ← get
  match s.streamHandleToRoomId.lookup streamHandle with
  | none => throw (.core incorrectStreamHandle)
  | some streamRoomId => do
      let room ← getStreamRoomData streamRoomId
      return (streamRoomId, room)

/-- `createEmptyStreamRoomData`. -/
def createEmptyStreamRoomData (P : StreamKeys) (streamRoomId : Bytes) (answers : JoinAnswers) :
    StreamProg Unit := do
  let s ← get
  if streamRoomId ∈ s.streamRoomMap then throw (.core alreadyJoinedStreamRoom)
  let streamRoom ← lift answers.streamRoomGet
  let keys ← lift (P.generateWebRTCKeysFromStreamRoomInfo streamRoom streamRoom.keyId)
  lift answers.updateKeys
  let subscriptionsIds ← lift answers.subscribeFor
  modify (setRoom streamRoomId
    { publisherStream := none
      subscriberStream := none
      messageEncryptor := .new keys
      webRtcKeys := keys
      subscriptionsIds := subscriptionsIds
      encryptionKeyId := streamRoom.keyId
      latest := streamRoom })

/-- `joinStreamRoom`. -/
def joinStreamRoom (P : StreamKeys) (streamRoomId : Bytes) (answers : JoinAnswers) :
    StreamProg Unit := do
  createEmptyStreamRoomData P streamRoomId answers
  lift answers.streamRoomJoin

/-- `leaveStreamRoom`. -/
def leaveStreamRoom (streamRoomId : Bytes) (answers : LeaveAnswers) : StreamProg Unit := do
  let room ← getStreamRoomData streamRoomId
  lift answers.unsubscribeFrom
  modify (eraseHandle room.publisherStream)
  modify (eraseHandle room.subscriberStream)
  lift answers.close
  modify fun s => { s with streamRoomMap := s.streamRoomMap.erase streamRoomId }
  lift answers.streamRoomLeave

/-- `createStream`. -/
def createStream (streamRoomId : Bytes) (overflowed : ℤ) : StreamProg ℤ := do
  let streamHandle ← nextId overflowed
  let room ← getStreamRoomData streamRoomId
  if room.publisherStream.isSome then throw (.core streamAlreadyPublished)
  modify fun s =>
    { s with streamHandleToRoomId := s.streamHandleToRoomId.insert streamHandle streamRoomId }
  modify (setRoom streamRoomId
    { room with
      publisherStream := some { sessionId := none, streamHandle := some streamHandle } })
  return streamHandle

/-- `publishStream`. -/
def publishStream (streamHandle : ℤ) (answers : PublishAnswers) : StreamProg Unit := do
  let (streamRoomId, room) ← getStreamRoomDataOf streamHandle
  match room.publisherStream with
  | none => throw (.core streamHandleNotInitialized)
  | some streamData => do
      if streamData.streamHandle ≠ some streamHandle then
        throw (.core streamHandleNotInitialized)
      lift answers.createOffer
      let sessionId ← lift answers.streamPublish
      modify (setRoom streamRoomId
        { room with publisherStream := some { streamData with sessionId := some sessionId } })
      lift answers.describe

/-- `unpublishStream`; `streamUnpublish` is asked only about a stream with a session. -/
def unpublishStream (streamHandle : ℤ) (streamUnpublish : Except EndpointException Unit) :
    StreamProg Unit := do
  let (streamRoomId, room) ← getStreamRoomDataOf streamHandle
  match room.publisherStream with
  | none => throw (.core streamHandleNotInitialized)
  | some streamData => do
      if streamData.sessionId.isSome then lift streamUnpublish
      modify fun s =>
        { s with streamHandleToRoomId := s.streamHandleToRoomId.erase streamHandle }
      modify (setRoom streamRoomId { room with publisherStream := none })

/-- `subscribeToRemoteStreams`. -/
def subscribeToRemoteStreams (streamRoomId : Bytes) (answers : SubscribeAnswers) :
    StreamProg Unit := do
  let room ← getStreamRoomData streamRoomId
  let sessionId ← lift answers.streamsSubscribeToRemote
  lift answers.updateSessionId
  modify (setRoom streamRoomId
    { room with
      -- `StreamHandle()` is 0
      subscriberStream := some { sessionId := some sessionId, streamHandle := some 0 } })
  lift answers.acceptOffer

/-- `processNotificationEvent` for `streamRoomUpdated`, up to the event for the
application. -/
def streamRoomUpdated (P : StreamKeys) (raw : StreamRoomInfo) (answers : UpdateAnswers) :
    StreamProg Unit := do
  if answers.subscribed = false then return
  if raw.type.getD STREAM_TYPE_FILTER_FLAG ≠ STREAM_TYPE_FILTER_FLAG then return
  lift answers.decrypted
  let s ← get
  match s.streamRoomMap.lookup raw.id with
  | none => return
  | some room => do
      modify (setRoom raw.id { room with latest := raw })
      let keys ← lift (P.generateWebRTCKeysFromStreamRoomInfo raw room.encryptionKeyId)
      modify (setRoom raw.id { room with latest := raw, webRtcKeys := keys })
      lift answers.updateKeys

end StreamApiLow

/-- The calls and the notification. -/
inductive RoomCall
  | joinStreamRoom (streamRoomId : Bytes) (answers : JoinAnswers)
  | leaveStreamRoom (streamRoomId : Bytes) (answers : LeaveAnswers)
  | createStream (streamRoomId : Bytes) (overflowed : ℤ)
  | publishStream (streamHandle : ℤ) (answers : PublishAnswers)
  | unpublishStream (streamHandle : ℤ) (streamUnpublish : Except EndpointException Unit)
  | subscribeToRemoteStreams (streamRoomId : Bytes) (answers : SubscribeAnswers)
  | streamRoomUpdated (raw : StreamRoomInfo) (answers : UpdateAnswers)
  /-- Another object of the class takes an id. -/
  | nextIdElsewhere (overflowed : ℤ)

namespace RoomCall

/-- What a call runs; the handle that `createStream` returns is not used. -/
def run (P : StreamKeys) : RoomCall → StreamProg Unit
  | joinStreamRoom streamRoomId answers => StreamApiLow.joinStreamRoom P streamRoomId answers
  | leaveStreamRoom streamRoomId answers => StreamApiLow.leaveStreamRoom streamRoomId answers
  | createStream streamRoomId overflowed => do
      let _ ← StreamApiLow.createStream streamRoomId overflowed
  | publishStream streamHandle answers => StreamApiLow.publishStream streamHandle answers
  | unpublishStream streamHandle streamUnpublish =>
      StreamApiLow.unpublishStream streamHandle streamUnpublish
  | subscribeToRemoteStreams streamRoomId answers =>
      StreamApiLow.subscribeToRemoteStreams streamRoomId answers
  | streamRoomUpdated raw answers => StreamApiLow.streamRoomUpdated P raw answers
  | nextIdElsewhere overflowed => do
      let _ ← StreamApiLow.nextId overflowed

/-- One call; an exception ends it, not the run. -/
def Step (P : StreamKeys) (s : StreamApiLow) (call : RoomCall) (t : StreamApiLow) : Prop :=
  t = (exec (call.run P) s).2

end RoomCall

/-! ### What the calls do -/

namespace StreamApiLow

/-- A room is found when it has been joined. -/
theorem exec_getStreamRoomData (streamRoomId : Bytes) (s : StreamApiLow) :
    exec (getStreamRoomData streamRoomId) s =
      match s.streamRoomMap.lookup streamRoomId with
      | none => (.error (.core streamRoomConnectionNotInitialized), s)
      | some room => (.ok room, s) := by
  unfold getStreamRoomData
  rw [exec_get_bind]
  cases s.streamRoomMap.lookup streamRoomId with
  | none => rfl
  | some room => rfl

/-- A stream is found through its handle, and then its room. -/
theorem exec_getStreamRoomDataOf (streamHandle : ℤ) (s : StreamApiLow) :
    (∃ e, exec (getStreamRoomDataOf streamHandle) s = (.error e, s)) ∨
      ∃ streamRoomId room, s.streamHandleToRoomId.lookup streamHandle = some streamRoomId ∧
        s.streamRoomMap.lookup streamRoomId = some room ∧
        exec (getStreamRoomDataOf streamHandle) s = (.ok (streamRoomId, room), s) := by
  unfold getStreamRoomDataOf
  rw [exec_get_bind]
  cases hhandle : s.streamHandleToRoomId.lookup streamHandle with
  | none => exact Or.inl ⟨_, rfl⟩
  | some streamRoomId =>
      dsimp only
      rw [exec_bind, exec_getStreamRoomData]
      cases hroom : s.streamRoomMap.lookup streamRoomId with
      | none => exact Or.inl ⟨_, rfl⟩
      | some room => exact Or.inr ⟨streamRoomId, room, rfl, hroom, rfl⟩

/-- The last change of a room counts. -/
theorem setRoom_setRoom (streamRoomId : Bytes) (room other : StreamRoomData) (s : StreamApiLow) :
    (s.setRoom streamRoomId room).setRoom streamRoomId other = s.setRoom streamRoomId other := by
  unfold setRoom
  rw [AList.insert_insert]

@[simp] theorem eraseHandle_streamRoomMap (stream : Option StreamData) (s : StreamApiLow) :
    (s.eraseHandle stream).streamRoomMap = s.streamRoomMap := by
  unfold eraseHandle
  cases stream.bind (·.streamHandle) with
  | none => rfl
  | some streamHandle => rfl

/-- The counter after `nextId`. -/
def bumpId (overflowed : ℤ) (s : StreamApiLow) : StreamApiLow :=
  { s with
    nextIdCounter := if s.nextIdCounter = NEXT_ID_MAX then overflowed else s.nextIdCounter + 1 }

/-- The counter is read and then increased. -/
theorem exec_nextId (overflowed : ℤ) (s : StreamApiLow) :
    exec (nextId overflowed) s = (.ok s.nextIdCounter, s.bumpId overflowed) := rfl

/-- A handle is given to a room. -/
def setHandle (streamHandle : ℤ) (streamRoomId : Bytes) (s : StreamApiLow) : StreamApiLow :=
  { s with streamHandleToRoomId := s.streamHandleToRoomId.insert streamHandle streamRoomId }

/-- A handle is taken from its room. -/
def dropHandle (streamHandle : ℤ) (s : StreamApiLow) : StreamApiLow :=
  { s with streamHandleToRoomId := s.streamHandleToRoomId.erase streamHandle }

/-- A room is left. -/
def dropRoom (streamRoomId : Bytes) (s : StreamApiLow) : StreamApiLow :=
  { s with streamRoomMap := s.streamRoomMap.erase streamRoomId }

end StreamApiLow

/-- The room that `createEmptyStreamRoomData` enters. -/
def StreamRoomData.empty (streamRoom : StreamRoomInfo) (keys : List Key)
    (subscriptionsIds : List Bytes) : StreamRoomData where
  publisherStream := none
  subscriberStream := none
  messageEncryptor := .new keys
  webRtcKeys := keys
  subscriptionsIds := subscriptionsIds
  encryptionKeyId := streamRoom.keyId
  latest := streamRoom

namespace RoomCall

open StreamApiLow

/-- Everything that a call can do to the state. -/
inductive Effect (P : StreamKeys) (s : StreamApiLow) : RoomCall → StreamApiLow → Prop
  | unchanged (call : RoomCall) : Effect P s call s
  | joined {streamRoomId : Bytes} {answers : JoinAnswers} {streamRoom : StreamRoomInfo}
      {keys : List Key} (subscriptionsIds : List Bytes)
      (hnew : s.streamRoomMap.lookup streamRoomId = none)
      (hget : answers.streamRoomGet = .ok streamRoom)
      (hkeys : P.generateWebRTCKeysFromStreamRoomInfo streamRoom streamRoom.keyId = .ok keys) :
      Effect P s (joinStreamRoom streamRoomId answers)
        (s.setRoom streamRoomId (.empty streamRoom keys subscriptionsIds))
  | handlesErased {streamRoomId : Bytes} {answers : LeaveAnswers} {room : StreamRoomData}
      {e : EndpointException} (hroom : s.streamRoomMap.lookup streamRoomId = some room)
      (hunsubscribe : answers.unsubscribeFrom = .ok ()) (hclose : answers.close = .error e) :
      Effect P s (leaveStreamRoom streamRoomId answers)
        ((s.eraseHandle room.publisherStream).eraseHandle room.subscriberStream)
  | left {streamRoomId : Bytes} {answers : LeaveAnswers} {room : StreamRoomData}
      (hroom : s.streamRoomMap.lookup streamRoomId = some room)
      (hunsubscribe : answers.unsubscribeFrom = .ok ()) (hclose : answers.close = .ok ()) :
      Effect P s (leaveStreamRoom streamRoomId answers)
        (((s.eraseHandle room.publisherStream).eraseHandle room.subscriberStream).dropRoom
          streamRoomId)
  | notCreated (streamRoomId : Bytes) (overflowed : ℤ) :
      Effect P s (createStream streamRoomId overflowed) (s.bumpId overflowed)
  | bumped (overflowed : ℤ) : Effect P s (nextIdElsewhere overflowed) (s.bumpId overflowed)
  | created {streamRoomId : Bytes} {overflowed : ℤ} {room : StreamRoomData}
      (hroom : s.streamRoomMap.lookup streamRoomId = some room)
      (hnone : room.publisherStream = none) :
      Effect P s (createStream streamRoomId overflowed)
        (((s.bumpId overflowed).setHandle s.nextIdCounter streamRoomId).setRoom streamRoomId
          { room with
            publisherStream := some { sessionId := none, streamHandle := some s.nextIdCounter } })
  | published {streamHandle : ℤ} {answers : PublishAnswers} {streamRoomId : Bytes}
      {room : StreamRoomData} {streamData : StreamData} (sessionId : ℤ)
      (hhandle : s.streamHandleToRoomId.lookup streamHandle = some streamRoomId)
      (hroom : s.streamRoomMap.lookup streamRoomId = some room)
      (hstream : room.publisherStream = some streamData) :
      Effect P s (publishStream streamHandle answers)
        (s.setRoom streamRoomId
          { room with publisherStream := some { streamData with sessionId := some sessionId } })
  | unpublished {streamHandle : ℤ} {streamUnpublish : Except EndpointException Unit}
      {streamRoomId : Bytes} {room : StreamRoomData}
      (hhandle : s.streamHandleToRoomId.lookup streamHandle = some streamRoomId)
      (hroom : s.streamRoomMap.lookup streamRoomId = some room) :
      Effect P s (unpublishStream streamHandle streamUnpublish)
        ((s.dropHandle streamHandle).setRoom streamRoomId { room with publisherStream := none })
  | subscribed {streamRoomId : Bytes} {answers : SubscribeAnswers} {room : StreamRoomData}
      (sessionId : ℤ) (hroom : s.streamRoomMap.lookup streamRoomId = some room) :
      Effect P s (subscribeToRemoteStreams streamRoomId answers)
        (s.setRoom streamRoomId
          { room with
            subscriberStream := some { sessionId := some sessionId, streamHandle := some 0 } })
  | notified {raw : StreamRoomInfo} {answers : UpdateAnswers} {room : StreamRoomData}
      {e : EndpointException} (hsubscribed : answers.subscribed = true)
      (htype : raw.type.getD STREAM_TYPE_FILTER_FLAG = STREAM_TYPE_FILTER_FLAG)
      (hdecrypted : answers.decrypted = .ok ())
      (hroom : s.streamRoomMap.lookup raw.id = some room)
      (hkeys : P.generateWebRTCKeysFromStreamRoomInfo raw room.encryptionKeyId = .error e) :
      Effect P s (streamRoomUpdated raw answers) (s.setRoom raw.id { room with latest := raw })
  | updated {raw : StreamRoomInfo} {answers : UpdateAnswers} {room : StreamRoomData}
      {keys : List Key} (hsubscribed : answers.subscribed = true)
      (htype : raw.type.getD STREAM_TYPE_FILTER_FLAG = STREAM_TYPE_FILTER_FLAG)
      (hdecrypted : answers.decrypted = .ok ())
      (hroom : s.streamRoomMap.lookup raw.id = some room)
      (hkeys : P.generateWebRTCKeysFromStreamRoomInfo raw room.encryptionKeyId = .ok keys) :
      Effect P s (streamRoomUpdated raw answers)
        (s.setRoom raw.id { room with latest := raw, webRtcKeys := keys })

/-- What a join does to the rooms and their handles. -/
theorem effect_joinStreamRoom (P : StreamKeys) (streamRoomId : Bytes) (answers : JoinAnswers)
    (s : StreamApiLow) :
    Effect P s (joinStreamRoom streamRoomId answers)
      (exec (StreamApiLow.joinStreamRoom P streamRoomId answers) s).2 := by
  unfold StreamApiLow.joinStreamRoom createEmptyStreamRoomData
  rw [exec_bind, exec_get_bind]
  by_cases hjoined : streamRoomId ∈ s.streamRoomMap
  · simp only [hjoined, if_true]
    exact .unchanged _
  · simp only [hjoined, if_false]
    cases hget : answers.streamRoomGet with
    | error e => exact .unchanged _
    | ok streamRoom =>
        rw [exec_lift_ok_bind]
        cases hkeys : P.generateWebRTCKeysFromStreamRoomInfo streamRoom streamRoom.keyId with
        | error e => exact .unchanged _
        | ok keys =>
            rw [exec_lift_ok_bind]
            cases answers.updateKeys with
            | error e => exact .unchanged _
            | ok _ =>
                rw [exec_lift_ok_bind]
                cases answers.subscribeFor with
                | error e => exact .unchanged _
                | ok subscriptionsIds =>
                    exact .joined subscriptionsIds (AList.lookup_eq_none.mpr hjoined) hget hkeys

/-- What leaving a room does. -/
theorem effect_leaveStreamRoom (P : StreamKeys) (streamRoomId : Bytes) (answers : LeaveAnswers)
    (s : StreamApiLow) :
    Effect P s (leaveStreamRoom streamRoomId answers)
      (exec (StreamApiLow.leaveStreamRoom streamRoomId answers) s).2 := by
  unfold StreamApiLow.leaveStreamRoom
  rw [exec_bind, exec_getStreamRoomData]
  cases hroom : s.streamRoomMap.lookup streamRoomId with
  | none => exact .unchanged _
  | some room =>
      dsimp only
      cases hunsubscribe : answers.unsubscribeFrom with
      | error e => exact .unchanged _
      | ok _ =>
          rw [exec_lift_ok_bind, exec_modify_bind, exec_modify_bind]
          cases hclose : answers.close with
          | error e => exact .handlesErased hroom hunsubscribe hclose
          | ok _ => exact .left hroom hunsubscribe hclose

/-- What creating a stream does. -/
theorem effect_createStream (P : StreamKeys) (streamRoomId : Bytes) (overflowed : ℤ)
    (s : StreamApiLow) :
    Effect P s (createStream streamRoomId overflowed)
      (exec (StreamApiLow.createStream streamRoomId overflowed) s).2 := by
  unfold StreamApiLow.createStream
  rw [exec_bind, exec_nextId]
  dsimp only
  rw [exec_bind, exec_getStreamRoomData]
  cases hroom : (s.bumpId overflowed).streamRoomMap.lookup streamRoomId with
  | none => exact .notCreated _ _
  | some room =>
      dsimp only
      cases hstream : room.publisherStream with
      | some streamData => exact .notCreated _ _
      | none => exact .created hroom hstream

/-- Publishing a stream moves no handle. -/
theorem effect_publishStream (P : StreamKeys) (streamHandle : ℤ) (answers : PublishAnswers)
    (s : StreamApiLow) :
    Effect P s (publishStream streamHandle answers)
      (exec (StreamApiLow.publishStream streamHandle answers) s).2 := by
  unfold StreamApiLow.publishStream
  rw [exec_bind]
  obtain ⟨e, hexec⟩ | ⟨streamRoomId, room, hhandle, hroom, hexec⟩ :=
    exec_getStreamRoomDataOf streamHandle s
  · rw [hexec]
    exact .unchanged _
  · rw [hexec]
    dsimp only
    cases hstream : room.publisherStream with
    | none => exact .unchanged _
    | some streamData =>
        dsimp only
        by_cases hsame : streamData.streamHandle = some streamHandle
        · simp only [hsame, ne_eq, not_true_eq_false, if_false]
          cases answers.createOffer with
          | error e => exact .unchanged _
          | ok _ =>
              rw [exec_lift_ok_bind]
              cases answers.streamPublish with
              | error e => exact .unchanged _
              | ok sessionId => 
                  rw [exec_lift_ok_bind, exec_modify_bind, exec_lift, ← hsame]
                  exact .published sessionId hhandle hroom hstream
        · simp only [hsame, ne_eq, not_false_eq_true, if_true]
          exact .unchanged _

/-- What unpublishing a stream does. -/
theorem effect_unpublishStream (P : StreamKeys) (streamHandle : ℤ)
    (streamUnpublish : Except EndpointException Unit) (s : StreamApiLow) :
    Effect P s (unpublishStream streamHandle streamUnpublish)
      (exec (StreamApiLow.unpublishStream streamHandle streamUnpublish) s).2 := by
  unfold StreamApiLow.unpublishStream
  rw [exec_bind]
  obtain ⟨e, hexec⟩ | ⟨streamRoomId, room, hhandle, hroom, hexec⟩ :=
    exec_getStreamRoomDataOf streamHandle s
  · rw [hexec]
    exact .unchanged _
  · rw [hexec]
    dsimp only
    cases room.publisherStream with
    | none => exact .unchanged _
    | some streamData =>
        dsimp only
        cases streamData.sessionId with
        | none => exact .unpublished hhandle hroom
        | some sessionId =>
            cases streamUnpublish with
            | error e => exact .unchanged _
            | ok _ => exact .unpublished hhandle hroom

/-- An `unpublishStream` that throws leaves everything as it was. -/
theorem exec_unpublishStream_error {streamHandle : ℤ}
    {streamUnpublish : Except EndpointException Unit} {s : StreamApiLow}
    (h : (exec (StreamApiLow.unpublishStream streamHandle streamUnpublish) s).1 ≠ .ok ()) :
    (exec (StreamApiLow.unpublishStream streamHandle streamUnpublish) s).2 = s := by
  unfold StreamApiLow.unpublishStream at h ⊢
  rw [exec_bind] at h ⊢
  obtain ⟨e, hexec⟩ | ⟨streamRoomId, room, -, -, hexec⟩ :=
    exec_getStreamRoomDataOf streamHandle s
  · rw [hexec]
  · rw [hexec] at h ⊢
    dsimp only at h ⊢
    cases hstream : room.publisherStream with
    | none => rfl
    | some streamData =>
        rw [hstream] at h
        dsimp only at h ⊢
        cases hsession : streamData.sessionId with
        | none =>
            rw [hsession] at h
            exact absurd rfl h
        | some sessionId =>
            rw [hsession] at h
            cases hserver : streamUnpublish with
            | error e => rfl
            | ok _ =>
                rw [hserver] at h
                exact absurd rfl h

/-- Subscribing moves no handle. -/
theorem effect_subscribeToRemoteStreams (P : StreamKeys) (streamRoomId : Bytes)
    (answers : SubscribeAnswers) (s : StreamApiLow) :
    Effect P s (subscribeToRemoteStreams streamRoomId answers)
      (exec (StreamApiLow.subscribeToRemoteStreams streamRoomId answers) s).2 := by
  unfold StreamApiLow.subscribeToRemoteStreams
  rw [exec_bind, exec_getStreamRoomData]
  cases hroom : s.streamRoomMap.lookup streamRoomId with
  | none => exact .unchanged _
  | some room =>
      dsimp only
      cases answers.streamsSubscribeToRemote with
      | error e => exact .unchanged _
      | ok sessionId =>
          rw [exec_lift_ok_bind]
          cases answers.updateSessionId with
          | error e => exact .unchanged _
          | ok _ =>
              rw [exec_lift_ok_bind, exec_modify_bind, exec_lift]
              exact .subscribed sessionId hroom

/-- The news of a room moves no handle. -/
theorem effect_streamRoomUpdated (P : StreamKeys) (raw : StreamRoomInfo) (answers : UpdateAnswers)
    (s : StreamApiLow) :
    Effect P s (streamRoomUpdated raw answers)
      (exec (StreamApiLow.streamRoomUpdated P raw answers) s).2 := by
  unfold StreamApiLow.streamRoomUpdated
  cases hsubscribed : answers.subscribed with
  | false => exact .unchanged _
  | true =>
      simp only [Bool.true_eq_false, if_false]
      by_cases htype : raw.type.getD STREAM_TYPE_FILTER_FLAG = STREAM_TYPE_FILTER_FLAG
      · simp only [htype, ne_eq, not_true_eq_false, if_false]
        cases hdecrypted : answers.decrypted with
        | error e => exact .unchanged _
        | ok _ =>
            rw [exec_lift_ok_bind, exec_get_bind]
            cases hroom : s.streamRoomMap.lookup raw.id with
            | none => exact .unchanged _
            | some room =>
                dsimp only
                rw [exec_modify_bind]
                cases hkeys : P.generateWebRTCKeysFromStreamRoomInfo raw room.encryptionKeyId with
                | error e => exact .notified hsubscribed htype hdecrypted hroom hkeys
                | ok keys =>
                    rw [exec_lift_ok_bind, exec_modify_bind, exec_lift, setRoom_setRoom]
                    exact .updated hsubscribed htype hdecrypted hroom hkeys
      · simp only [htype, ne_eq, not_false_eq_true, if_true]
        exact .unchanged _

/-- **What a call does.** -/
theorem effect_of_step {P : StreamKeys} {s t : StreamApiLow} {call : RoomCall}
    (hstep : Step P s call t) : Effect P s call t := by
  obtain rfl := hstep
  cases call with
  | joinStreamRoom streamRoomId answers => exact effect_joinStreamRoom P streamRoomId answers s
  | leaveStreamRoom streamRoomId answers => exact effect_leaveStreamRoom P streamRoomId answers s
  | createStream streamRoomId overflowed =>
      have heffect := effect_createStream P streamRoomId overflowed s
      unfold run
      rw [exec_bind]
      cases hexec : exec (StreamApiLow.createStream streamRoomId overflowed) s with
      | mk result t =>
          rw [hexec] at heffect
          cases result with
          | error e => exact heffect
          | ok streamHandle => exact heffect
  | publishStream streamHandle answers => exact effect_publishStream P streamHandle answers s
  | unpublishStream streamHandle streamUnpublish =>
      exact effect_unpublishStream P streamHandle streamUnpublish s
  | subscribeToRemoteStreams streamRoomId answers =>
      exact effect_subscribeToRemoteStreams P streamRoomId answers s
  | streamRoomUpdated raw answers => exact effect_streamRoomUpdated P raw answers s
  | nextIdElsewhere overflowed => exact .bumped overflowed

/-! ### Runs of calls -/

/-- The state after some calls. -/
def after (P : StreamKeys) (calls : List RoomCall) : StreamApiLow :=
  calls.foldl (fun s call => (exec (call.run P) s).2) .initial

/-- The calls of a list make a run. -/
theorem run_after (P : StreamKeys) (calls : List RoomCall) :
    Run (Step P) .initial calls (after P calls) := by
  suffices h : ∀ s : StreamApiLow,
      Run (Step P) s calls (calls.foldl (fun s call => (exec (call.run P) s).2) s) from h _
  induction calls with
  | nil => exact Run.nil
  | cons call calls ih => exact fun s => Run.cons rfl (ih _)

end RoomCall

/-- Keys of version 1, which need no verification. -/
def sampleStreamKeys : StreamKeys where
  keyCrypto := sampleKeyCrypto
  userPrivKey := (5 : UInt8)
  userVerifier := fun requests => some (requests.map fun _ => true)

/-- A room with a key for each of the given ids. -/
def sampleRoomInfo (id : Bytes) (keyIds : List UInt8) (keyId : UInt8) : StreamRoomInfo where
  id := id
  contextId := []
  resourceId := none
  type := none
  keys := keyIds.map fun keyId => ⟨[keyId], .string [5, 0, keyId]⟩
  keyId := [keyId]

/-- Calls that succeed. -/
def sampleJoin (streamRoomInfo : StreamRoomInfo) : RoomCall :=
  .joinStreamRoom streamRoomInfo.id
    { streamRoomGet := .ok streamRoomInfo
      updateKeys := .ok ()
      subscribeFor := .ok []
      streamRoomJoin := .ok () }

@[inherit_doc sampleJoin]
def sampleSubscribe (streamRoomId : Bytes) : RoomCall :=
  .subscribeToRemoteStreams streamRoomId
    { streamsSubscribeToRemote := .ok 7
      updateSessionId := .ok ()
      acceptOffer := .ok () }

@[inherit_doc sampleJoin]
def sampleLeave (streamRoomId : Bytes) : RoomCall :=
  .leaveStreamRoom streamRoomId
    { unsubscribeFrom := .ok (), close := .ok (), streamRoomLeave := .ok () }

end Stream

end PrivmxEndpoint
