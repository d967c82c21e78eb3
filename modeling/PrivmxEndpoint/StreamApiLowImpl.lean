import PrivmxEndpoint.StreamApiLow
import PrivmxEndpoint.SubscriptionDelivery

/-!
# A `StreamApiLowImpl` and its subscriptions

`joinStreamRoom` and `leaveStreamRoom` change three tables: the rooms that are
joined, the subscriptions of the module's `Subscriber`, and the ids that the
module's listener holds.  `StreamApiLow` is the first of these; what happens to it
does not depend on the others (`StreamApiLowImpl.rooms_of_run`).
-/

namespace PrivmxEndpoint

namespace Stream

open Runs SubscriptionQueryObj Throwing

/-- How a call of a `StreamApiLowImpl` can fail. -/
inductive StreamException
  | endpoint (exception : EndpointException)
  | subscriber (exception : SubscriberException)
  deriving DecidableEq

/-- A `StreamApiLowImpl` with its subscriber and the middleware of its connection. -/
structure StreamApiLowImpl where
  rooms : StreamApiLow
  subscriber : Subscriber
  eventMiddleware : EventMiddleware
  notificationListenerId : ℤ

/-- Programs over a `StreamApiLowImpl`. -/
abbrev StreamImplProg := Prog StreamException StreamApiLowImpl

/-- `SubscriberImpl::getInternalEventsSubscriptionQuery`. -/
def getInternalEventsSubscriptionQuery (streamRoomId : Option Bytes) : Bytes :=
  ascii "streamroom" ++ ascii "/internal" ++
    match streamRoomId with
    | some streamRoomId => getSelector .STREAMROOM_ID streamRoomId
    | none => []

/-- How the calls end that `joinStreamRoom` makes. -/
structure JoinConversation where
  streamRoomGet : Except EndpointException StreamRoomInfo
  updateKeys : Except EndpointException Unit
  subscribeToChannels : Except SubscriberException (List Subscription)
  streamRoomJoin : Except EndpointException Unit

/-- How the calls end that `leaveStreamRoom` makes. -/
structure LeaveConversation where
  unsubscribeFromChannels : Except SubscriberException Unit
  close : Except EndpointException Unit
  streamRoomLeave : Except EndpointException Unit

namespace StreamApiLowImpl

/-- A call that ends in some way. -/
def answer {α : Type} (x : Except EndpointException α) : StreamImplProg α :=
  lift (x.mapError .endpoint)

/-- What only looks at the rooms and the handles. -/
def onRooms {α : Type} (m : StreamProg α) : StreamImplProg α := do
  let s ← get
  let (result, rooms) := exec m s.rooms
  modify fun s => { s with rooms := rooms }
  answer result

/-- `_subscriber.subscribeFor`. -/
def subscriberSubscribeFor (subscriptionQueries : List Bytes) (force : Bool)
    (subscribeToChannels : Except SubscriberException (List Subscription)) :
    StreamImplProg (List Bytes) := do
  let s ← get
  let (result, subscriber) ← lift
    ((s.subscriber.subscribeFor subscriberMethods subscriptionQueries force
      subscribeToChannels).mapError .subscriber)
  modify fun s => { s with subscriber := subscriber }
  return result

/-- `_subscriber.unsubscribeFrom`. -/
def subscriberUnsubscribeFrom (subscriptionIds : List Bytes)
    (unsubscribeFromChannels : Except SubscriberException Unit) : StreamImplProg Unit := do
  let s ← get
  let subscriber ← lift
    ((s.subscriber.unsubscribeFrom subscriptionIds unsubscribeFromChannels).mapError .subscriber)
  modify fun s => { s with subscriber := subscriber }

/-- `notificationEventListenerAddSubscriptionIds` for the listener of the module. -/
def addSubscriptionIds (subscriptionIds : List Bytes) (s : StreamApiLowImpl) :
    StreamApiLowImpl :=
  { s with
    eventMiddleware := s.eventMiddleware.notificationEventListenerAddSubscriptionIds
      s.notificationListenerId subscriptionIds }

/-- `notificationEventListenerRemoveSubscriptionIds` for the listener of the module. -/
def removeSubscriptionIds (moved : Bytes → Bytes) (subscriptionIds : List Bytes)
    (s : StreamApiLowImpl) : StreamApiLowImpl :=
  { s with
    eventMiddleware := s.eventMiddleware.notificationEventListenerRemoveSubscriptionIds moved
      s.notificationListenerId subscriptionIds }

/-- `subscribeFor`. -/
def subscribeFor (subscriptionQueries : List Bytes)
    (subscribeToChannels : Except SubscriberException (List Subscription)) :
    StreamImplProg (List Bytes) := do
  let result ← subscriberSubscribeFor subscriptionQueries false subscribeToChannels
  modify (addSubscriptionIds result)
  return result

/-- `unsubscribeFrom`. -/
def unsubscribeFrom (moved : Bytes → Bytes) (subscriptionIds : List Bytes)
    (unsubscribeFromChannels : Except SubscriberException Unit) : StreamImplProg Unit := do
  subscriberUnsubscribeFrom subscriptionIds unsubscribeFromChannels
  modify (removeSubscriptionIds moved subscriptionIds)

/-- The constructor.  It adds three listeners; only the first gets notifications. -/
def create (eventMiddleware : EventMiddleware)
    (subscribeToChannels : Except SubscriberException (List Subscription)) :
    Except SubscriberException StreamApiLowImpl := do
  let (eventMiddleware, notificationListenerId) :=
    eventMiddleware.addNotificationEventListener true
  let eventMiddleware := eventMiddleware.addOtherEventListener.addOtherEventListener
  let (result, subscriber) ← Subscriber.subscribeFor subscriberMethods
    { subscriptionQueries := ∅ } [getInternalEventsSubscriptionQuery none] true
    subscribeToChannels
  return {
    rooms := .initial
    subscriber := subscriber
    eventMiddleware := eventMiddleware.notificationEventListenerAddSubscriptionIds
      notificationListenerId result
    notificationListenerId := notificationListenerId }

/-- `createEmptyStreamRoomData`. -/
def createEmptyStreamRoomData (P : StreamKeys) (streamRoomId : Bytes)
    (calls : JoinConversation) : StreamImplProg Unit := do
  let s ← get
  if streamRoomId ∈ s.rooms.streamRoomMap then throw (.endpoint (.core alreadyJoinedStreamRoom))
  let streamRoom ← answer calls.streamRoomGet
  let keys ← answer (P.generateWebRTCKeysFromStreamRoomInfo streamRoom streamRoom.keyId)
  answer calls.updateKeys
  let internalSubscriptionQuery := getInternalEventsSubscriptionQuery (some streamRoomId)
  let updatedStreamRoom ← lift
    ((buildQuery .STREAMROOM_UPDATE .STREAMROOM_ID streamRoomId).mapError
      fun e => .subscriber (.query e))
  let subscriptionsIds ← subscriberSubscribeFor [internalSubscriptionQuery, updatedStreamRoom]
    true calls.subscribeToChannels
  modify (addSubscriptionIds subscriptionsIds)
  modify fun s =>
    { s with
      rooms := s.rooms.setRoom streamRoomId (.empty streamRoom keys subscriptionsIds) }

/-- `joinStreamRoom`. -/
def joinStreamRoom (P : StreamKeys) (streamRoomId : Bytes) (calls : JoinConversation) :
    StreamImplProg Unit := do
  createEmptyStreamRoomData P streamRoomId calls
  answer calls.streamRoomJoin

/-- `leaveStreamRoom`. -/
def leaveStreamRoom (moved : Bytes → Bytes) (streamRoomId : Bytes) (calls : LeaveConversation) :
    StreamImplProg Unit := do
  let room ← onRooms (StreamApiLow.getStreamRoomData streamRoomId)
  subscriberUnsubscribeFrom room.subscriptionsIds calls.unsubscribeFromChannels
  modify (removeSubscriptionIds moved room.subscriptionsIds)
  modify fun s => { s with rooms := s.rooms.eraseHandle room.publisherStream }
  modify fun s => { s with rooms := s.rooms.eraseHandle room.subscriberStream }
  answer calls.close
  modify fun s => { s with rooms := s.rooms.dropRoom streamRoomId }
  answer calls.streamRoomLeave

end StreamApiLowImpl

/-- The calls that do not join or leave a room. -/
def RoomCall.Stays : RoomCall → Prop
  | .joinStreamRoom _ _ => False
  | .leaveStreamRoom _ _ => False
  | _ => True

/-- The calls of a `StreamApiLowImpl`, and what others do to the middleware. -/
inductive StreamCall
  | joinStreamRoom (streamRoomId : Bytes) (calls : JoinConversation)
  | leaveStreamRoom (streamRoomId : Bytes) (calls : LeaveConversation)
  | room (call : RoomCall) (hcall : call.Stays)
  | subscribeFor (subscriptionQueries : List Bytes)
      (subscribeToChannels : Except SubscriberException (List Subscription))
  | unsubscribeFrom (subscriptionIds : List Bytes)
      (unsubscribeFromChannels : Except SubscriberException Unit)
  /-- The other objects of the connection leave the middleware like this. -/
  | elsewhere (eventMiddleware : EventMiddleware)

namespace StreamCall

open StreamApiLowImpl

/-- What a call runs. -/
def run (P : StreamKeys) (moved : Bytes → Bytes) : StreamCall → StreamImplProg Unit
  | joinStreamRoom streamRoomId calls => StreamApiLowImpl.joinStreamRoom P streamRoomId calls
  | leaveStreamRoom streamRoomId calls =>
      StreamApiLowImpl.leaveStreamRoom moved streamRoomId calls
  | room call _ => onRooms (call.run P)
  | subscribeFor subscriptionQueries subscribeToChannels => do
      let _ ← StreamApiLowImpl.subscribeFor subscriptionQueries subscribeToChannels
  | unsubscribeFrom subscriptionIds unsubscribeFromChannels =>
      StreamApiLowImpl.unsubscribeFrom moved subscriptionIds unsubscribeFromChannels
  | elsewhere eventMiddleware => modify fun s => { s with eventMiddleware := eventMiddleware }

/-- One call; an exception ends it, not the run. -/
def Step (P : StreamKeys) (moved : Bytes → Bytes) (s : StreamApiLowImpl) (call : StreamCall)
    (t : StreamApiLowImpl) : Prop :=
  t = (exec (call.run P moved) s).2

end StreamCall

/-! ### Joining -/

/-- The channels of a room. -/
def roomQueries (streamRoomId : Bytes) : List Bytes :=
  [getInternalEventsSubscriptionQuery (some streamRoomId),
    getChannel .STREAMROOM_UPDATE ++ getSelector .STREAMROOM_ID streamRoomId]

/-- The query for the news of a room. -/
theorem buildQuery_update (streamRoomId : Bytes) :
    buildQuery .STREAMROOM_UPDATE .STREAMROOM_ID streamRoomId =
      .ok (getChannel .STREAMROOM_UPDATE ++ getSelector .STREAMROOM_ID streamRoomId) := by
  unfold buildQuery
  rw [if_pos (by decide)]

namespace JoinConversation

/-- The calls before the last succeed, with these results. -/
structure Enters (P : StreamKeys) (streamRoomId : Bytes) (calls : JoinConversation)
    (streamRoom : StreamRoomInfo) (keys : List Key) (subscriptions : List Subscription) :
    Prop where
  streamRoomGet : calls.streamRoomGet = .ok streamRoom
  keys : P.generateWebRTCKeysFromStreamRoomInfo streamRoom streamRoom.keyId = .ok keys
  updateKeys : calls.updateKeys = .ok ()
  /-- The id of the room has no separators of queries in it. -/
  queries : ∃ parsed, (roomQueries streamRoomId).mapM parse = .ok parsed
  subscribeToChannels : calls.subscribeToChannels = .ok subscriptions

/-- The calls before the last succeed. -/
def Subscribes (P : StreamKeys) (streamRoomId : Bytes) (calls : JoinConversation) : Prop :=
  ∃ streamRoom keys subscriptions, calls.Enters P streamRoomId streamRoom keys subscriptions

end JoinConversation

/-- Every call succeeds. -/
def JoinConversation.Succeeds (P : StreamKeys) (streamRoomId : Bytes)
    (calls : JoinConversation) : Prop :=
  calls.Subscribes P streamRoomId ∧ calls.streamRoomJoin = .ok ()

@[inherit_doc JoinConversation.Succeeds]
structure LeaveConversation.Succeeds (calls : LeaveConversation) : Prop where
  unsubscribeFromChannels : calls.unsubscribeFromChannels = .ok ()
  close : calls.close = .ok ()
  streamRoomLeave : calls.streamRoomLeave = .ok ()

namespace StreamApiLowImpl

/-- The room in the three tables. -/
def enter (streamRoomId : Bytes) (streamRoom : StreamRoomInfo) (keys : List Key)
    (subscriptions : List Subscription) (s : StreamApiLowImpl) : StreamApiLowImpl :=
  let (subscriptionsIds, subscriptionQueries) := Subscriber.matchSubscriptions
    (roomQueries streamRoomId) subscriptions s.subscriber.subscriptionQueries
  addSubscriptionIds subscriptionsIds
    { s with
      rooms := s.rooms.setRoom streamRoomId (.empty streamRoom keys subscriptionsIds)
      subscriber := { subscriptionQueries := subscriptionQueries } }

/-- An answer is handed on. -/
theorem exec_answer_ok_bind {α β : Type} (a : α) (f : α → StreamImplProg β)
    (s : StreamApiLowImpl) : exec (answer (.ok a) >>= f) s = exec (f a) s := rfl

/-- A failed call ends the program. -/
theorem exec_answer_error_bind {α β : Type} (e : EndpointException) (f : α → StreamImplProg β)
    (s : StreamApiLowImpl) :
    exec (answer (.error e) >>= f) s = (.error (.endpoint e), s) := rfl

/-- Forced queries are sent as they are, once they have been parsed. -/
theorem exec_subscribe_forced {queries : List Bytes} {parsed : List SubscriptionQueryObj}
    (hparsed : queries.mapM parse = .ok parsed) (subscriptions : List Subscription)
    (s : StreamApiLowImpl) :
    exec (subscriberSubscribeFor queries true (.ok subscriptions)) s =
      (.ok (Subscriber.matchSubscriptions queries subscriptions
          s.subscriber.subscriptionQueries).1,
        { s with
          subscriber :=
            { subscriptionQueries := (Subscriber.matchSubscriptions queries subscriptions
                s.subscriber.subscriptionQueries).2 } }) := by
  unfold subscriberSubscribeFor Subscriber.subscribeFor Subscriber.requestChannels
  rw [exec_get_bind, hparsed]
  rfl

/-- Nothing changes if they cannot be parsed or the server does not answer. -/
theorem exec_subscribe_forced_error {queries : List Bytes}
    {subscribeToChannels : Except SubscriberException (List Subscription)}
    (h : (∃ e, queries.mapM parse = .error e) ∨ ∃ e, subscribeToChannels = .error e)
    (s : StreamApiLowImpl) :
    ∃ e, exec (subscriberSubscribeFor queries true subscribeToChannels) s = (.error e, s) := by
  unfold subscriberSubscribeFor Subscriber.subscribeFor Subscriber.requestChannels
  rw [exec_get_bind]
  cases hparse : queries.mapM parse with
  | error e => exact ⟨_, rfl⟩
  | ok parsed =>
      obtain ⟨e, he⟩ | ⟨e, rfl⟩ := h
      · cases hparse.symm.trans he
      · exact ⟨_, rfl⟩

/-- A room is entered, or something fails before anything has changed. -/
theorem exec_createEmptyStreamRoomData (P : StreamKeys) (streamRoomId : Bytes)
    (calls : JoinConversation) (s : StreamApiLowImpl) :
    ((∃ e, exec (createEmptyStreamRoomData P streamRoomId calls) s = (.error e, s)) ∧
        ¬ (streamRoomId ∉ s.rooms.streamRoomMap ∧ calls.Subscribes P streamRoomId)) ∨
      (streamRoomId ∉ s.rooms.streamRoomMap ∧ ∃ streamRoom keys subscriptions,
        calls.Enters P streamRoomId streamRoom keys subscriptions ∧
        exec (createEmptyStreamRoomData P streamRoomId calls) s =
          (.ok (), s.enter streamRoomId streamRoom keys subscriptions)) := by
  unfold createEmptyStreamRoomData
  rw [exec_get_bind]
  by_cases hjoined : streamRoomId ∈ s.rooms.streamRoomMap
  · simp only [hjoined, if_true]
    exact Or.inl ⟨⟨_, rfl⟩, fun h => h.1 trivial⟩
  · simp only [hjoined, if_false]
    cases hget : calls.streamRoomGet with
    | error e =>
        refine Or.inl ⟨⟨_, rfl⟩, ?_⟩
        rintro ⟨-, streamRoom, keys, subscriptions, henters⟩
        cases hget.symm.trans henters.streamRoomGet
    | ok streamRoom =>
        rw [exec_answer_ok_bind]
        cases hkeys : P.generateWebRTCKeysFromStreamRoomInfo streamRoom streamRoom.keyId with
        | error e =>
            refine Or.inl ⟨⟨_, rfl⟩, ?_⟩
            rintro ⟨-, other, keys, subscriptions, henters⟩
            cases hget.symm.trans henters.streamRoomGet
            cases hkeys.symm.trans henters.keys
        | ok keys =>
            rw [exec_answer_ok_bind]
            cases hupdate : calls.updateKeys with
            | error e =>
                refine Or.inl ⟨⟨_, rfl⟩, ?_⟩
                rintro ⟨-, other, keys', subscriptions, henters⟩
                cases hupdate.symm.trans henters.updateKeys
            | ok _ =>
                rw [exec_answer_ok_bind, buildQuery_update]
                simp only [Except.mapError, exec_lift_ok_bind]
                rw [exec_bind, ← roomQueries]
                by_cases hfails : (∃ e, (roomQueries streamRoomId).mapM parse = .error e) ∨
                    ∃ e, calls.subscribeToChannels = .error e
                · obtain ⟨e, he⟩ := exec_subscribe_forced_error hfails s
                  rw [he]
                  refine Or.inl ⟨⟨e, rfl⟩, ?_⟩
                  rintro ⟨-, other, keys', subscriptions, henters⟩
                  obtain ⟨parsed, hparsed⟩ := henters.queries
                  obtain ⟨e, he⟩ | ⟨e, he⟩ := hfails
                  · cases he.symm.trans hparsed
                  · cases he.symm.trans henters.subscribeToChannels
                · obtain ⟨hparse, hanswer⟩ := not_or.mp hfails
                  cases hparsed : (roomQueries streamRoomId).mapM parse with
                  | error e => exact absurd ⟨e, hparsed⟩ hparse
                  | ok parsed =>
                      cases hsubscribe : calls.subscribeToChannels with
                      | error e => exact absurd ⟨e, hsubscribe⟩ hanswer
                      | ok subscriptions =>
                          rw [exec_subscribe_forced hparsed]
                          exact Or.inr ⟨fun h => h, streamRoom, keys, subscriptions,
                            ⟨hget, hkeys, hupdate, ⟨parsed, hparsed⟩, hsubscribe⟩, rfl⟩

/-- A join fails before it changes anything, or it enters the room and asks the
server. -/
theorem exec_joinStreamRoom (P : StreamKeys) (streamRoomId : Bytes) (calls : JoinConversation)
    (s : StreamApiLowImpl) :
    ((∃ e, exec (joinStreamRoom P streamRoomId calls) s = (.error e, s)) ∧
        ¬ (streamRoomId ∉ s.rooms.streamRoomMap ∧ calls.Subscribes P streamRoomId)) ∨
      (streamRoomId ∉ s.rooms.streamRoomMap ∧ ∃ streamRoom keys subscriptions,
        calls.Enters P streamRoomId streamRoom keys subscriptions ∧
        exec (joinStreamRoom P streamRoomId calls) s =
          (calls.streamRoomJoin.mapError .endpoint,
            s.enter streamRoomId streamRoom keys subscriptions)) := by
  unfold joinStreamRoom
  rw [exec_bind]
  obtain ⟨⟨e, hexec⟩, hnot⟩ | ⟨hnew, streamRoom, keys, subscriptions, henters, hexec⟩ :=
    exec_createEmptyStreamRoomData P streamRoomId calls s
  · rw [hexec]
    exact Or.inl ⟨⟨e, rfl⟩, hnot⟩
  · rw [hexec]
    exact Or.inr ⟨hnew, streamRoom, keys, subscriptions, henters, rfl⟩

/-! ### Leaving -/

/-- The room is still in the table of rooms, but in no other. -/
def release (moved : Bytes → Bytes) (room : StreamRoomData) (s : StreamApiLowImpl) :
    StreamApiLowImpl :=
  removeSubscriptionIds moved room.subscriptionsIds
    { s with
      rooms := (s.rooms.eraseHandle room.publisherStream).eraseHandle room.subscriberStream
      subscriber :=
        { subscriptionQueries := room.subscriptionsIds.foldl
            (fun queries id => queries.erase id) s.subscriber.subscriptionQueries } }

/-- The room is in no table. -/
def forget (streamRoomId : Bytes) (s : StreamApiLowImpl) : StreamApiLowImpl :=
  { s with rooms := s.rooms.dropRoom streamRoomId }

/-- A call on the rooms changes only them. -/
theorem exec_onRooms {α : Type} (m : StreamProg α) (s : StreamApiLowImpl) :
    exec (onRooms m) s =
      ((exec m s.rooms).1.mapError .endpoint, { s with rooms := (exec m s.rooms).2 }) := rfl

/-- Only joined rooms are left. -/
theorem exec_leaveStreamRoom_notJoined (moved : Bytes → Bytes) {streamRoomId : Bytes}
    (calls : LeaveConversation) {s : StreamApiLowImpl}
    (hroom : s.rooms.streamRoomMap.lookup streamRoomId = none) :
    exec (leaveStreamRoom moved streamRoomId calls) s =
      (.error (.endpoint (.core streamRoomConnectionNotInitialized)), s) := by
  unfold leaveStreamRoom
  rw [exec_bind, exec_onRooms, StreamApiLow.exec_getStreamRoomData, hroom]
  rfl

/-- The three calls that leaving a room makes, and what has changed before each of
them. -/
theorem exec_leaveStreamRoom_joined (moved : Bytes → Bytes) {streamRoomId : Bytes}
    (calls : LeaveConversation) {s : StreamApiLowImpl} {room : StreamRoomData}
    (hroom : s.rooms.streamRoomMap.lookup streamRoomId = some room) :
    exec (leaveStreamRoom moved streamRoomId calls) s =
      match calls.unsubscribeFromChannels, calls.close with
      | .error e, _ => (.error (.subscriber e), s)
      | .ok _, .error e => (.error (.endpoint e), s.release moved room)
      | .ok _, .ok _ =>
          (calls.streamRoomLeave.mapError .endpoint,
            (s.release moved room).forget streamRoomId) := by
  unfold leaveStreamRoom
  rw [exec_bind, exec_onRooms, StreamApiLow.exec_getStreamRoomData, hroom]
  cases hunsubscribe : calls.unsubscribeFromChannels with
  | error e => rfl
  | ok _ =>
      cases hclose : calls.close with
      | error e => rfl
      | ok _ => rfl

/-! ### The rooms alone -/

/-- The answers that `StreamApiLow.joinStreamRoom` gets. -/
def joinAnswers (streamRoomId : Bytes) (calls : JoinConversation) (s : StreamApiLowImpl) :
    JoinAnswers where
  streamRoomGet := calls.streamRoomGet
  updateKeys := calls.updateKeys
  subscribeFor :=
    match exec (subscriberSubscribeFor (roomQueries streamRoomId) true
      calls.subscribeToChannels) s with
    | (.ok subscriptionsIds, _) => .ok subscriptionsIds
    | (.error _, _) => .error .other
  streamRoomJoin := calls.streamRoomJoin

/-- The answers that `StreamApiLow.leaveStreamRoom` gets. -/
def leaveAnswers (calls : LeaveConversation) : LeaveAnswers where
  unsubscribeFrom := calls.unsubscribeFromChannels.mapError fun _ => .other
  close := calls.close
  streamRoomLeave := calls.streamRoomLeave

/-- Subscribing leaves the rooms. -/
theorem subscriberSubscribeFor_rooms (queries : List Bytes) (force : Bool)
    (subscribeToChannels : Except SubscriberException (List Subscription))
    (s : StreamApiLowImpl) :
    (exec (subscriberSubscribeFor queries force subscribeToChannels) s).2.rooms = s.rooms := by
  unfold subscriberSubscribeFor
  rw [exec_get_bind]
  generalize (s.subscriber.subscribeFor subscriberMethods queries force
    subscribeToChannels).mapError StreamException.subscriber = x
  cases x with
  | error e => rfl
  | ok result => rfl

/-- A join does to the rooms what the inner join does. -/
theorem joinStreamRoom_rooms (P : StreamKeys) (streamRoomId : Bytes) (calls : JoinConversation)
    (s : StreamApiLowImpl) :
    (exec (joinStreamRoom P streamRoomId calls) s).2.rooms =
      (exec (StreamApiLow.joinStreamRoom P streamRoomId (s.joinAnswers streamRoomId calls))
        s.rooms).2 := by
  unfold joinStreamRoom createEmptyStreamRoomData StreamApiLow.joinStreamRoom
    StreamApiLow.createEmptyStreamRoomData
  rw [exec_bind, exec_get_bind, exec_bind, exec_get_bind]
  by_cases hjoined : streamRoomId ∈ s.rooms.streamRoomMap
  · simp only [hjoined, if_true]
    rfl
  · simp only [hjoined, if_false, joinAnswers]
    cases calls.streamRoomGet with
    | error e => rfl
    | ok streamRoom =>
        rw [exec_answer_ok_bind, exec_lift_ok_bind]
        cases P.generateWebRTCKeysFromStreamRoomInfo streamRoom streamRoom.keyId with
        | error e => rfl
        | ok keys =>
            rw [exec_answer_ok_bind, exec_lift_ok_bind]
            cases calls.updateKeys with
            | error e => rfl
            | ok _ =>
                rw [exec_answer_ok_bind, exec_lift_ok_bind, buildQuery_update]
                simp only [Except.mapError, exec_lift_ok_bind]
                rw [exec_bind, ← roomQueries]
                have hrooms := subscriberSubscribeFor_rooms (roomQueries streamRoomId) true
                  calls.subscribeToChannels s
                cases hsubscribe : exec (subscriberSubscribeFor (roomQueries streamRoomId) true
                    calls.subscribeToChannels) s with
                | mk result s' =>
                    rw [hsubscribe] at hrooms
                    cases result with
                    | error e => exact hrooms
                    | ok subscriptionsIds =>
                        exact congrArg (StreamApiLow.setRoom streamRoomId
                          (.empty streamRoom keys subscriptionsIds)) hrooms

/-- So does leaving. -/
theorem leaveStreamRoom_rooms (moved : Bytes → Bytes) (streamRoomId : Bytes)
    (calls : LeaveConversation) (s : StreamApiLowImpl) :
    (exec (leaveStreamRoom moved streamRoomId calls) s).2.rooms =
      (exec (StreamApiLow.leaveStreamRoom streamRoomId (leaveAnswers calls)) s.rooms).2 := by
  unfold leaveStreamRoom StreamApiLow.leaveStreamRoom leaveAnswers
  rw [exec_bind, exec_bind, exec_onRooms, StreamApiLow.exec_getStreamRoomData]
  cases s.rooms.streamRoomMap.lookup streamRoomId with
  | none => rfl
  | some room =>
      cases calls.unsubscribeFromChannels with
      | error e => rfl
      | ok _ =>
          cases calls.close with
          | error e => rfl
          | ok _ => rfl

/-- Subscribing for queries leaves the rooms. -/
theorem subscribeFor_rooms (queries : List Bytes)
    (subscribeToChannels : Except SubscriberException (List Subscription))
    (s : StreamApiLowImpl) :
    (exec (subscribeFor queries subscribeToChannels) s).2.rooms = s.rooms := by
  have hrooms := subscriberSubscribeFor_rooms queries false subscribeToChannels s
  unfold subscribeFor
  rw [exec_bind]
  cases hsubscribe : exec (subscriberSubscribeFor queries false subscribeToChannels) s with
  | mk result s' =>
      rw [hsubscribe] at hrooms
      cases result with
      | error e => exact hrooms
      | ok subscriptionsIds => exact hrooms

/-- So does unsubscribing. -/
theorem unsubscribeFrom_rooms (moved : Bytes → Bytes) (subscriptionIds : List Bytes)
    (unsubscribeFromChannels : Except SubscriberException Unit) (s : StreamApiLowImpl) :
    (exec (unsubscribeFrom moved subscriptionIds unsubscribeFromChannels) s).2.rooms =
      s.rooms := by
  cases unsubscribeFromChannels with
  | error e => rfl
  | ok _ => rfl

/-- The call of `StreamApiLow` that a call is, if it is one. -/
def roomCall (s : StreamApiLowImpl) : StreamCall → Option RoomCall
  | .joinStreamRoom streamRoomId calls =>
      some (.joinStreamRoom streamRoomId (s.joinAnswers streamRoomId calls))
  | .leaveStreamRoom streamRoomId calls =>
      some (.leaveStreamRoom streamRoomId (leaveAnswers calls))
  | .room call _ => some call
  | _ => none

/-- **The rooms alone.**  The rooms and the handles change as `StreamApiLow` says, or
not at all. -/
theorem rooms_of_step {P : StreamKeys} {moved : Bytes → Bytes} {s t : StreamApiLowImpl}
    {call : StreamCall} (hstep : call.Step P moved s t) :
    match s.roomCall call with
    | some roomCall => roomCall.Step P s.rooms t.rooms
    | none => t.rooms = s.rooms := by
  obtain rfl := hstep
  cases call with
  | joinStreamRoom streamRoomId calls => exact joinStreamRoom_rooms P streamRoomId calls s
  | leaveStreamRoom streamRoomId calls =>
      exact leaveStreamRoom_rooms moved streamRoomId calls s
  | room call hcall => exact rfl
  | subscribeFor subscriptionQueries subscribeToChannels =>
      refine Eq.trans ?_ (subscribeFor_rooms subscriptionQueries subscribeToChannels s)
      unfold StreamCall.run
      dsimp only
      rw [exec_bind]
      cases exec (subscribeFor subscriptionQueries subscribeToChannels) s with
      | mk result s' =>
          cases result with
          | error e => rfl
          | ok subscriptionsIds => rfl
  | unsubscribeFrom subscriptionIds unsubscribeFromChannels =>
      exact unsubscribeFrom_rooms moved subscriptionIds unsubscribeFromChannels s
  | elsewhere eventMiddleware => exact rfl

/-- Every run is a run of `StreamApiLow`. -/
theorem rooms_of_run {P : StreamKeys} {moved : Bytes → Bytes} {s t : StreamApiLowImpl}
    {calls : List StreamCall} (hrun : Run (StreamCall.Step P moved) s calls t) :
    ∃ roomCalls, Run (RoomCall.Step P) s.rooms roomCalls t.rooms := by
  induction hrun with
  | nil s => exact ⟨[], .nil s.rooms⟩
  | @cons s u t call calls hstep _ ih =>
      obtain ⟨roomCalls, hroomCalls⟩ := ih
      have hrooms := rooms_of_step hstep
      cases hcall : s.roomCall call with
      | some roomCall =>
          rw [hcall] at hrooms
          exact ⟨roomCall :: roomCalls, .cons hrooms hroomCalls⟩
      | none =>
          rw [hcall] at hrooms
          rw [hrooms] at hroomCalls
          exact ⟨roomCalls, hroomCalls⟩

end StreamApiLowImpl

end Stream

end PrivmxEndpoint
