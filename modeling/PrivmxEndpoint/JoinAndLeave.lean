import PrivmxEndpoint.StreamApiLowImpl
import PrivmxEndpoint.StreamHandles

/-!
# Joining and leaving as a whole

A join enters the room in the tables and asks the server last; nothing takes the
entries back if that request fails, and the room counts as joined from then on
(`StreamApiLowImpl.join_not_atomic`).  Every other failure of a join comes before the
first change, and a leave that fails half-way can be made again
(`StreamApiLowImpl.atomic_iff`).
-/

namespace PrivmxEndpoint

namespace Stream

open ListRemoval Runs Throwing

/-! ### What every call keeps -/

namespace StreamApiLow

/-- A handle leads to a joined room whose publisher has it. -/
def Leads (s : StreamApiLow) : Prop :=
  ∀ h r, s.streamHandleToRoomId.lookup h = some r → s.publisherHandle r = some h

/-- At the start no handle leads anywhere. -/
theorem leads_initial : Leads .initial := fun h r => (valid_initial h r).mp

/-- A change of a room that leaves its publisher's handle alone. -/
theorem Leads.setRoom {s : StreamApiLow} (hs : s.Leads) {r : Bytes} {room : StreamRoomData}
    (hsame : s.publisherHandle r = room.publisherHandle) : (s.setRoom r room).Leads := by
  intro h other hlookup
  by_cases hother : other = r
  · subst hother
    rw [publisherHandle_setRoom_self, ← hsame]
    exact hs h other hlookup
  · rw [publisherHandle_setRoom_ne s hother]
    exact hs h other hlookup

/-- An entry that the erasures of a room's handles leave was there before. -/
theorem lookup_of_eraseHandle {s : StreamApiLow} {stream : Option StreamData} {h : ℤ} {r : Bytes}
    (hlookup : (s.eraseHandle stream).streamHandleToRoomId.lookup h = some r) :
    stream.bind (·.streamHandle) ≠ some h ∧ s.streamHandleToRoomId.lookup h = some r := by
  rw [lookup_eraseHandle] at hlookup
  split at hlookup
  · cases hlookup
  · rename_i hne
    exact ⟨hne, hlookup⟩

/-- Forgetting a stream keeps the others in their rooms. -/
theorem Leads.eraseHandle {s : StreamApiLow} (hs : s.Leads) (stream : Option StreamData) :
    (s.eraseHandle stream).Leads := by
  intro h r hlookup
  unfold publisherHandle
  rw [eraseHandle_streamRoomMap]
  exact hs h r (lookup_of_eraseHandle hlookup).2

/-- No handle leads to a room whose handles have been erased. -/
theorem Leads.released {s : StreamApiLow} (hs : s.Leads) {r : Bytes} {room : StreamRoomData}
    (hroom : s.streamRoomMap.lookup r = some room) (h : ℤ) :
    ((s.eraseHandle room.publisherStream).eraseHandle
      room.subscriberStream).streamHandleToRoomId.lookup h ≠ some r := by
  intro hlookup
  obtain ⟨hne, hold⟩ := lookup_of_eraseHandle (lookup_of_eraseHandle hlookup).2
  have hpublisher := hs h r hold
  rw [publisherHandle_of_lookup hroom] at hpublisher
  exact hne hpublisher

/-- A room that no handle leads to is left. -/
theorem Leads.dropRoom {s : StreamApiLow} (hs : s.Leads) {r : Bytes}
    (hnone : ∀ h, s.streamHandleToRoomId.lookup h ≠ some r) : (s.dropRoom r).Leads := by
  intro h other hlookup
  have hother : other ≠ r := by
    intro heq
    subst heq
    exact hnone h hlookup
  unfold publisherHandle StreamApiLow.dropRoom
  rw [AList.lookup_erase_ne hother]
  exact hs h other hlookup

/-- A stream is created in a room without a publisher. -/
theorem Leads.create {s : StreamApiLow} (hs : s.Leads) (overflowed : ℤ) {r : Bytes}
    {room : StreamRoomData} (hroom : s.streamRoomMap.lookup r = some room) (hnone : room.publisherStream = none) :
    (((s.bumpId overflowed).setHandle s.nextIdCounter r).setRoom r
      { room with
        publisherStream :=
          some { sessionId := none, streamHandle := some s.nextIdCounter } }).Leads := by
  intro h other hlookup
  change (s.streamHandleToRoomId.insert s.nextIdCounter r).lookup h = some other at hlookup
  by_cases hh : h = s.nextIdCounter
  · subst hh
    rw [AList.lookup_insert] at hlookup
    obtain rfl := Option.some.inj hlookup
    rw [publisherHandle_setRoom_self]
    rfl
  · rw [AList.lookup_insert_ne hh] at hlookup
    have hold := hs h other hlookup
    have hother : other ≠ r := by
      intro heq
      subst heq
      rw [publisherHandle_of_lookup hroom, StreamRoomData.publisherHandle, hnone] at hold
      cases hold
    rw [publisherHandle_setRoom_ne _ hother]
    exact hold

/-- A stream is unpublished. -/
theorem Leads.unpublish {s : StreamApiLow} (hs : s.Leads) {streamHandle : ℤ} {r : Bytes}
    (room : StreamRoomData) (hhandle : s.streamHandleToRoomId.lookup streamHandle = some r) :
    ((s.dropHandle streamHandle).setRoom r { room with publisherStream := none }).Leads := by
  have hpublisher := hs streamHandle r hhandle
  intro h other hlookup
  change (s.streamHandleToRoomId.erase streamHandle).lookup h = some other at hlookup
  by_cases hh : h = streamHandle
  · rw [hh, AList.lookup_erase] at hlookup
    cases hlookup
  · rw [AList.lookup_erase_ne hh] at hlookup
    have hold := hs h other hlookup
    have hother : other ≠ r := by
      intro heq
      subst heq
      exact hh (Option.some.inj (hold.symm.trans hpublisher))
    rw [publisherHandle_setRoom_ne _ hother]
    exact hold

end StreamApiLow

namespace RoomCall

open StreamApiLow

/-- Every call keeps the way from the handles to the rooms. -/
theorem Effect.leads {P : StreamKeys} {s t : StreamApiLow} {call : RoomCall}
    (heffect : Effect P s call t) (hs : s.Leads) : t.Leads := by
  cases heffect with
  | unchanged => exact hs
  | joined subscriptionsIds hnew hget hkeys =>
      refine hs.setRoom ?_
      unfold publisherHandle
      rw [hnew]
      rfl
  | handlesErased => exact (hs.eraseHandle _).eraseHandle _
  | left hroom => exact ((hs.eraseHandle _).eraseHandle _).dropRoom (hs.released hroom)
  | notCreated | bumped => exact hs
  | created hroom hnone => exact hs.create _ hroom hnone
  | published sessionId hhandle hroom hstream =>
      refine hs.setRoom ?_
      rw [publisherHandle_of_lookup hroom, StreamRoomData.publisherHandle, hstream]
      rfl
  | unpublished hhandle hroom => exact hs.unpublish _ hhandle
  | subscribed sessionId hroom => exact hs.setRoom ((publisherHandle_of_lookup hroom).trans rfl)
  | notified hsubscribed htype hdecrypted hroom hkeys =>
      exact hs.setRoom ((publisherHandle_of_lookup hroom).trans rfl)
  | updated hsubscribed htype hdecrypted hroom hkeys =>
      exact hs.setRoom ((publisherHandle_of_lookup hroom).trans rfl)

/-- Two rooms with the same ids in the place of one another. -/
theorem sameIds_setRoom {s : StreamApiLow} {streamRoomId r : Bytes} {old new room : StreamRoomData}
    (hold : s.streamRoomMap.lookup streamRoomId = some old)
    (hroom : (s.setRoom streamRoomId new).streamRoomMap.lookup r = some room)
    (hids : new.subscriptionsIds = old.subscriptionsIds) :
    ∃ before, s.streamRoomMap.lookup r = some before ∧
      room.subscriptionsIds = before.subscriptionsIds := by
  by_cases hr : r = streamRoomId
  · subst hr
    rw [StreamApiLow.setRoom, AList.lookup_insert] at hroom
    obtain rfl := Option.some.inj hroom
    exact ⟨old, hold, hids⟩
  · rw [lookup_setRoom_ne s hr] at hroom
    exact ⟨room, hroom, rfl⟩

/-- A call that does not join a room leaves the ids of the rooms alone. -/
theorem Effect.sameIds {P : StreamKeys} {s t : StreamApiLow} {call : RoomCall}
    (heffect : Effect P s call t) (hcall : call.Stays) {r : Bytes} {room : StreamRoomData}
    (hroom : t.streamRoomMap.lookup r = some room) :
    ∃ before, s.streamRoomMap.lookup r = some before ∧
      room.subscriptionsIds = before.subscriptionsIds := by
  cases heffect with
  | unchanged | notCreated | bumped => exact ⟨room, hroom, rfl⟩
  | joined => exact hcall.elim
  | handlesErased => exact hcall.elim
  | left => exact hcall.elim
  | created hold hnone => exact sameIds_setRoom (s := (s.bumpId _).setHandle _ _) hold hroom rfl
  | published sessionId hhandle hold => exact sameIds_setRoom hold hroom rfl
  | unpublished hhandle hold => exact sameIds_setRoom (s := s.dropHandle _) hold hroom rfl
  | subscribed sessionId hold => exact sameIds_setRoom hold hroom rfl
  | notified hsubscribed htype hdecrypted hold => exact sameIds_setRoom hold hroom rfl
  | updated hsubscribed htype hdecrypted hold => exact sameIds_setRoom hold hroom rfl

end RoomCall

namespace StreamApiLowImpl

/-! ### Reachable states -/

/-- A room has one id for each of its channels. -/
def TwoIds (s : StreamApiLowImpl) : Prop :=
  ∀ r room, s.rooms.streamRoomMap.lookup r = some room → room.subscriptionsIds.length = 2

/-- What every reachable state keeps. -/
structure Inv (s : StreamApiLowImpl) : Prop where
  leads : s.rooms.Leads
  twoIds : s.TwoIds

/-- There is one query for each channel. -/
theorem length_matchSubscriptions (channels : List Bytes) (subscriptions : List Subscription)
    (queries : AList (fun _ : Bytes => Bytes)) :
    (Subscriber.matchSubscriptions channels subscriptions queries).1.length =
      channels.length := by
  obtain ⟨taken, left, -, hids, hchannels⟩ :=
    Subscriber.assigned_matchSubscriptions channels subscriptions queries
  rw [hids, List.length_map, hchannels.length_eq]

/-- Two ids for the room that is entered. -/
theorem TwoIds.enter {s : StreamApiLowImpl} (hs : s.TwoIds) (streamRoomId : Bytes)
    (streamRoom : StreamRoomInfo) (keys : List Key) (subscriptions : List Subscription) :
    (s.enter streamRoomId streamRoom keys subscriptions).TwoIds := by
  intro r room hroom
  unfold StreamApiLowImpl.enter addSubscriptionIds StreamApiLow.setRoom at hroom
  by_cases hr : r = streamRoomId
  · subst hr
    rw [AList.lookup_insert] at hroom
    obtain rfl := Option.some.inj hroom
    exact length_matchSubscriptions (roomQueries r) subscriptions _
  · rw [AList.lookup_insert_ne hr] at hroom
    exact hs r room hroom

/-- Forgetting a room takes its ids along. -/
theorem TwoIds.forget {s : StreamApiLowImpl} (hs : s.TwoIds) (streamRoomId : Bytes) :
    (s.forget streamRoomId).TwoIds := by
  intro r room hroom
  change (s.rooms.streamRoomMap.erase streamRoomId).lookup r = some room at hroom
  by_cases hr : r = streamRoomId
  · rw [hr, AList.lookup_erase] at hroom
    cases hroom
  · rw [AList.lookup_erase_ne hr] at hroom
    exact hs r room hroom

/-- A release of the room's state leaves the map of rooms. -/
theorem release_streamRoomMap (moved : Bytes → Bytes) (room : StreamRoomData)
    (s : StreamApiLowImpl) :
    (s.release moved room).rooms.streamRoomMap = s.rooms.streamRoomMap := by
  change ((s.rooms.eraseHandle _).eraseHandle _).streamRoomMap = _
  rw [StreamApiLow.eraseHandle_streamRoomMap, StreamApiLow.eraseHandle_streamRoomMap]

/-- A release leaves the rooms' ids. -/
theorem TwoIds.release {s : StreamApiLowImpl} (hs : s.TwoIds) (moved : Bytes → Bytes)
    (room : StreamRoomData) : (s.release moved room).TwoIds := by
  unfold TwoIds
  rw [release_streamRoomMap]
  exact hs

/-- A release keeps the invariant. -/
theorem Inv.release {s : StreamApiLowImpl} (hs : s.Inv) (moved : Bytes → Bytes)
    (room : StreamRoomData) : (s.release moved room).Inv where
  leads := (hs.leads.eraseHandle _).eraseHandle _
  twoIds := hs.twoIds.release moved room

/-- A new object satisfies the invariant. -/
theorem create_inv {eventMiddleware : EventMiddleware}
    {subscribeToChannels : Except SubscriberException (List Subscription)} {s : StreamApiLowImpl}
    (hcreate : create eventMiddleware subscribeToChannels = .ok s) : s.Inv := by
  unfold create at hcreate
  obtain ⟨result, -, hresult⟩ := Throwing.bind_eq_ok hcreate
  obtain rfl := Except.ok.inj hresult
  constructor
  · exact StreamApiLow.leads_initial
  · intro r room hroom
    cases hroom

/-- Leaving a room keeps two ids for each of the rest. -/
theorem TwoIds.leaveStreamRoom {s : StreamApiLowImpl} (hs : s.TwoIds) (moved : Bytes → Bytes)
    (streamRoomId : Bytes) (calls : LeaveConversation) :
    (exec (leaveStreamRoom moved streamRoomId calls) s).2.TwoIds := by
  cases hroom : s.rooms.streamRoomMap.lookup streamRoomId with
  | none =>
      rw [exec_leaveStreamRoom_notJoined moved calls hroom]
      exact hs
  | some room =>
      rw [exec_leaveStreamRoom_joined moved calls hroom]
      cases calls.unsubscribeFromChannels with
      | error e => exact hs
      | ok _ =>
          cases calls.close with
          | error e => exact hs.release moved room
          | ok _ => exact (hs.release moved room).forget streamRoomId

/-- Only the rooms count. -/
theorem TwoIds.of_rooms {s t : StreamApiLowImpl} (hs : s.TwoIds) (hrooms : t.rooms = s.rooms) :
    t.TwoIds := by
  unfold TwoIds
  rw [hrooms]
  exact hs

/-- **Step.** Every call keeps two ids for each room. -/
theorem TwoIds.step {P : StreamKeys} {moved : Bytes → Bytes} {s t : StreamApiLowImpl}
    {call : StreamCall} (hs : s.TwoIds) (hstep : call.Step P moved s t) : t.TwoIds := by
  have hrooms := rooms_of_step hstep
  cases call with
  | joinStreamRoom streamRoomId calls =>
      obtain rfl := hstep
      obtain ⟨⟨e, hexec⟩, -⟩ | ⟨-, streamRoom, keys, subscriptions, -, hexec⟩ :=
        exec_joinStreamRoom P streamRoomId calls s
      · rw [StreamCall.run, hexec]
        exact hs
      · rw [StreamCall.run, hexec]
        exact hs.enter streamRoomId streamRoom keys subscriptions
  | leaveStreamRoom streamRoomId calls =>
      obtain rfl := hstep
      exact hs.leaveStreamRoom moved streamRoomId calls
  | room call hcall =>
      intro r room hroom
      obtain ⟨before, hbefore, hids⟩ := (RoomCall.effect_of_step hrooms).sameIds hcall hroom
      rw [hids]
      exact hs r before hbefore
  | subscribeFor | unsubscribeFrom | elsewhere => exact hs.of_rooms hrooms

/-- The handles of every reachable state lead to their rooms. -/
theorem leads_of_run {P : StreamKeys} {moved : Bytes → Bytes} {s t : StreamApiLowImpl}
    {calls : List StreamCall} (hrun : Run (StreamCall.Step P moved) s calls t)
    (hs : s.rooms.Leads) : t.rooms.Leads := by
  obtain ⟨roomCalls, hroomCalls⟩ := rooms_of_run hrun
  exact hroomCalls.preserves StreamApiLow.Leads
    (fun _ _ _ hleads hstep => (RoomCall.effect_of_step hstep).leads hleads) hs

/-- Every run keeps the invariant. -/
theorem Inv.run {P : StreamKeys} {moved : Bytes → Bytes} {s t : StreamApiLowImpl}
    {calls : List StreamCall} (hs : s.Inv) (hrun : Run (StreamCall.Step P moved) s calls t) :
    t.Inv where
  leads := leads_of_run hrun hs.leads
  twoIds := hrun.preserves TwoIds (fun _ _ _ htwo hstep => htwo.step hstep) hs.twoIds

/-- The ids that the listener of the module holds. -/
def subscriptionIds (s : StreamApiLowImpl) : List Bytes :=
  match s.eventMiddleware.notificationsListeners.lookup s.notificationListenerId with
  | some listener => listener.subscriptionIds
  | none => []

/-- A room takes its two ids back, even if they are equal. -/
theorem subscriptionIds_release (moved : Bytes → Bytes) {s : StreamApiLowImpl}
    {room : StreamRoomData} (hids : room.subscriptionsIds.length = 2) :
    ((s.release moved room).subscriptionIds : Multiset Bytes) =
      s.subscriptionIds - room.subscriptionsIds := by
  unfold subscriptionIds release removeSubscriptionIds
    EventMiddleware.notificationEventListenerRemoveSubscriptionIds
    EventMiddleware.updateValueIfExist
  dsimp only
  cases hlookup : s.eventMiddleware.notificationsListeners.lookup s.notificationListenerId with
  | none =>
      dsimp only
      rw [hlookup, Multiset.coe_nil, Multiset.zero_sub]
  | some listener =>
      dsimp only
      rw [AList.lookup_insert, Multiset.coe_sub,
        ← removeItems_eq_diff moved (Erasable.of_length_le_two hids.le)]

/-- None of some ids is left in a table from which all of them are erased. -/
theorem notMem_foldl_erase (ids : List Bytes) (queries : AList (fun _ : Bytes => Bytes))
    {id : Bytes} (hid : id ∈ ids ∨ id ∉ queries) :
    id ∉ ids.foldl (fun queries id => queries.erase id) queries := by
  induction ids generalizing queries with
  | nil => exact hid.resolve_left (List.not_mem_nil)
  | cons a ids ih =>
      rw [List.foldl_cons]
      refine ih (queries.erase a) ?_
      rcases hid with hmem | hnot
      · rcases List.mem_cons.mp hmem with rfl | hrest
        · exact Or.inr fun h => (AList.mem_erase.mp h).1 rfl
        · exact Or.inl hrest
      · exact Or.inr fun h => hnot (AList.mem_erase.mp h).2

/-! ### Joining and leaving as a whole -/

/-- The tables that a join changes are the same. -/
structure SameTables (s t : StreamApiLowImpl) : Prop where
  streamRoomMap : t.rooms.streamRoomMap = s.rooms.streamRoomMap
  subscriptionQueries : t.subscriber.subscriptionQueries = s.subscriber.subscriptionQueries
  subscriptionIds : t.subscriptionIds = s.subscriptionIds

/-- A room that may have been joined in the state `s` is in no table of `t`. -/
structure FullyLeft (streamRoomId : Bytes) (s t : StreamApiLowImpl) : Prop where
  notJoined : streamRoomId ∉ t.rooms.streamRoomMap
  noHandle : ∀ h, t.rooms.streamHandleToRoomId.lookup h ≠ some streamRoomId
  unsubscribed : ∀ room, s.rooms.streamRoomMap.lookup streamRoomId = some room →
    ∀ id ∈ room.subscriptionsIds, id ∉ t.subscriber.subscriptionQueries
  /-- The listener has lost the ids of the room and no others. -/
  subscriptionIds : ∀ room, s.rooms.streamRoomMap.lookup streamRoomId = some room →
    (t.subscriptionIds : Multiset Bytes) ≤ s.subscriptionIds - room.subscriptionsIds ∧
      ∀ id, id ∉ room.subscriptionsIds →
        (t.subscriptionIds : Multiset Bytes).count id =
          (s.subscriptionIds : Multiset Bytes).count id

/-- A room that is joined in two states, and left in the second. -/
theorem fullyLeft_forget {s t : StreamApiLowImpl} (ht : t.Inv) (moved : Bytes → Bytes)
    {streamRoomId : Bytes} {room : StreamRoomData}
    (hs : s.rooms.streamRoomMap.lookup streamRoomId = some room)
    (hroom : t.rooms.streamRoomMap.lookup streamRoomId = some room)
    (hle : (t.subscriptionIds : Multiset Bytes) ≤ s.subscriptionIds)
    (hsame : ∀ id, id ∉ room.subscriptionsIds →
      (t.subscriptionIds : Multiset Bytes).count id =
        (s.subscriptionIds : Multiset Bytes).count id) :
    FullyLeft streamRoomId s ((t.release moved room).forget streamRoomId) := by
  have hremoved : (((t.release moved room).forget streamRoomId).subscriptionIds :
      Multiset Bytes) = t.subscriptionIds - room.subscriptionsIds :=
    subscriptionIds_release moved (ht.twoIds _ _ hroom)
  constructor
  · intro hmem
    exact (AList.mem_erase.mp hmem).1 rfl
  · exact ht.leads.released hroom
  · intro other hother id hid
    obtain rfl := Option.some.inj (hs.symm.trans hother)
    exact notMem_foldl_erase _ _ (Or.inl hid)
  · intro other hother
    obtain rfl := Option.some.inj (hs.symm.trans hother)
    rw [hremoved]
    refine ⟨tsub_le_tsub_right hle _, ?_⟩
    intro id hid
    rw [Multiset.count_sub, hsame id hid,
      Multiset.count_eq_zero_of_notMem fun h => hid (Multiset.mem_coe.mp h), Nat.sub_zero]

/-- Leaving completely, at once or with one more call. -/
theorem leaveStreamRoom_completes {s t : StreamApiLowImpl} (hs : s.Inv) {moved : Bytes → Bytes}
    {streamRoomId : Bytes} {calls : LeaveConversation} {e : StreamException}
    (hexec : exec (leaveStreamRoom moved streamRoomId calls) s = (.error e, t)) :
    FullyLeft streamRoomId s t ∨ ∀ again : LeaveConversation, again.Succeeds →
      ∃ u, exec (leaveStreamRoom moved streamRoomId again) t = (.ok (), u) ∧
        FullyLeft streamRoomId s u := by
  cases hroom : s.rooms.streamRoomMap.lookup streamRoomId with
  | none =>
      rw [exec_leaveStreamRoom_notJoined moved calls hroom] at hexec
      obtain ⟨-, rfl⟩ := Prod.mk.inj hexec
      refine Or.inl ⟨AList.lookup_eq_none.mp hroom, ?_, ?_, ?_⟩
      · intro h hlookup
        have hpublisher := hs.leads h streamRoomId hlookup
        rw [StreamApiLow.publisherHandle, hroom] at hpublisher
        cases hpublisher
      · intro room hjoined
        cases hroom.symm.trans hjoined
      · intro room hjoined
        cases hroom.symm.trans hjoined
  | some room =>
      rw [exec_leaveStreamRoom_joined moved calls hroom] at hexec
      have hagain : ∀ {s' : StreamApiLowImpl} {again : LeaveConversation}, again.Succeeds →
          s'.rooms.streamRoomMap.lookup streamRoomId = some room →
          exec (leaveStreamRoom moved streamRoomId again) s' =
            (.ok (), (s'.release moved room).forget streamRoomId) := by
        intro s' again hsucceeds hroom'
        rw [exec_leaveStreamRoom_joined moved again hroom', hsucceeds.unsubscribeFromChannels,
          hsucceeds.close, hsucceeds.streamRoomLeave]
        rfl
      cases hunsubscribe : calls.unsubscribeFromChannels with
      | error e' =>
          rw [hunsubscribe] at hexec
          obtain ⟨-, rfl⟩ := Prod.mk.inj hexec
          refine Or.inr fun again hsucceeds => ⟨_, hagain hsucceeds hroom, ?_⟩
          exact fullyLeft_forget hs moved hroom hroom le_rfl fun _ _ => rfl
      | ok _ =>
          cases hclose : calls.close with
          | error e' =>
              rw [hunsubscribe, hclose] at hexec
              obtain ⟨-, rfl⟩ := Prod.mk.inj hexec
              have hroom' : (s.release moved room).rooms.streamRoomMap.lookup streamRoomId =
                  some room := by
                rw [release_streamRoomMap]
                exact hroom
              have hremoved := subscriptionIds_release moved (s := s) (hs.twoIds _ _ hroom)
              refine Or.inr fun again hsucceeds => ⟨_, hagain hsucceeds hroom', ?_⟩
              refine fullyLeft_forget (hs.release moved room) moved hroom hroom' ?_ ?_
              · rw [hremoved]
                exact tsub_le_self
              · intro id hid
                rw [hremoved, Multiset.count_sub,
                  Multiset.count_eq_zero_of_notMem fun h => hid (Multiset.mem_coe.mp h),
                  Nat.sub_zero]
          | ok _ =>
              rw [hunsubscribe, hclose] at hexec
              obtain ⟨-, rfl⟩ := Prod.mk.inj hexec
              exact Or.inl (fullyLeft_forget hs moved hroom hroom le_rfl fun _ _ => rfl)

/-- A failed join has changed nothing and can be made again; a failed leave is
complete, or one more call completes it. -/
def Atomic (P : StreamKeys) (moved : Bytes → Bytes) (s : StreamApiLowImpl) : StreamCall → Prop
  | .joinStreamRoom streamRoomId calls =>
      ∀ e t, exec (joinStreamRoom P streamRoomId calls) s = (.error e, t) →
        SameTables s t ∧
          (streamRoomId ∉ s.rooms.streamRoomMap → ∀ again : JoinConversation,
            again.Succeeds P streamRoomId →
              (exec (joinStreamRoom P streamRoomId again) t).1 = .ok ())
  | .leaveStreamRoom streamRoomId calls =>
      ∀ e t, exec (leaveStreamRoom moved streamRoomId calls) s = (.error e, t) →
        FullyLeft streamRoomId s t ∨ ∀ again : LeaveConversation, again.Succeeds →
          ∃ u, exec (leaveStreamRoom moved streamRoomId again) t = (.ok (), u) ∧
            FullyLeft streamRoomId s u
  | _ => True

/-- If the room can be entered, the server lets it be joined. -/
def LetsJoin (P : StreamKeys) (s : StreamApiLowImpl) : StreamCall → Prop
  | .joinStreamRoom streamRoomId calls =>
      streamRoomId ∉ s.rooms.streamRoomMap → calls.Subscribes P streamRoomId →
        calls.streamRoomJoin = .ok ()
  | _ => True

/-- A join of which every call succeeds. -/
theorem joinStreamRoom_succeeds {P : StreamKeys} {streamRoomId : Bytes}
    {calls : JoinConversation} {s : StreamApiLowImpl}
    (hnew : streamRoomId ∉ s.rooms.streamRoomMap) (hsucceeds : calls.Succeeds P streamRoomId) :
    (exec (joinStreamRoom P streamRoomId calls) s).1 = .ok () := by
  obtain ⟨hsubscribes, hjoin⟩ := hsucceeds
  obtain ⟨-, hnot⟩ | ⟨-, streamRoom, keys, subscriptions, -, hexec⟩ :=
    exec_joinStreamRoom P streamRoomId calls s
  · exact absurd ⟨hnew, hsubscribes⟩ hnot
  · rw [hexec, hjoin]
    rfl

/-- A join is atomic exactly when what follows its first change does not throw. -/
theorem joinStreamRoom_atomic_iff (P : StreamKeys) (moved : Bytes → Bytes)
    (streamRoomId : Bytes) (calls : JoinConversation) (s : StreamApiLowImpl) :
    Atomic P moved s (.joinStreamRoom streamRoomId calls) ↔
      LetsJoin P s (.joinStreamRoom streamRoomId calls) := by
  obtain ⟨⟨e, hexec⟩, hnot⟩ | ⟨hnew, streamRoom, keys, subscriptions, henters, hexec⟩ :=
    exec_joinStreamRoom P streamRoomId calls s
  · constructor
    · intro _ hnew hsubscribes
      exact absurd ⟨hnew, hsubscribes⟩ hnot
    · intro _ e' t hfails
      obtain ⟨-, rfl⟩ := Prod.mk.inj (hexec.symm.trans hfails)
      exact ⟨⟨rfl, rfl, rfl⟩, fun hnew again => joinStreamRoom_succeeds hnew⟩
  · cases hjoin : calls.streamRoomJoin with
    | ok _ =>
        rw [hjoin] at hexec
        constructor
        · intro _ _ _
          exact hjoin
        · intro _ e' t hfails
          cases (Prod.mk.inj (hexec.symm.trans hfails)).1
    | error e =>
        rw [hjoin] at hexec
        constructor
        · intro hatomic
          -- the room is in the table now
          have hsame := (hatomic _ _ hexec).1.streamRoomMap
          refine absurd ?_ hnew
          rw [← hsame]
          exact (AList.mem_insert _).mpr (Or.inl rfl)
        · intro hlets
          have hok := hlets hnew ⟨streamRoom, keys, subscriptions, henters⟩
          rw [hjoin] at hok
          cases hok

/-- **Joining and leaving are atomic** in every reachable state, except for a join that
enters the room and is then refused by the server. -/
theorem atomic_iff {P : StreamKeys} {moved : Bytes → Bytes} {eventMiddleware : EventMiddleware}
    {subscribeToChannels : Except SubscriberException (List Subscription)}
    {initial s : StreamApiLowImpl} {calls : List StreamCall}
    (hcreate : create eventMiddleware subscribeToChannels = .ok initial)
    (hrun : Run (StreamCall.Step P moved) initial calls s) (call : StreamCall) :
    Atomic P moved s call ↔ LetsJoin P s call := by
  cases call with
  | joinStreamRoom streamRoomId joinCalls =>
      exact joinStreamRoom_atomic_iff P moved streamRoomId joinCalls s
  | leaveStreamRoom streamRoomId leaveCalls =>
      have hs := (create_inv hcreate).run hrun
      exact ⟨fun _ => trivial, fun _ e t hexec => leaveStreamRoom_completes hs hexec⟩
  | room | subscribeFor | unsubscribeFrom | elsewhere => exact Iff.rfl

/-- The server knows the room `7` and its key; it answers the subscriptions. -/
def sampleJoinCalls (streamRoomJoin : Except EndpointException Unit) : JoinConversation where
  streamRoomGet := .ok (sampleRoomInfo [7] [1] 1)
  updateKeys := .ok ()
  subscribeToChannels := .ok
    [{ subscriptionId := [2], channel := ascii "streamroom/update|containerId=" ++ [7] },
      { subscriptionId := [3], channel := ascii "streamroom/internal|containerId=" ++ [7] }]
  streamRoomJoin := streamRoomJoin

/-- A connection without listeners. -/
def sampleMiddleware : EventMiddleware where
  nextId := 0
  notificationsListeners := ∅

/-- The server's answer to the constructor. -/
def sampleInternalAnswer : Except SubscriberException (List Subscription) :=
  .ok [{ subscriptionId := [1], channel := ascii "streamroom/internal" }]

/-- The object of a new connection. -/
def sampleImpl : StreamApiLowImpl where
  rooms := .initial
  subscriber := { subscriptionQueries := AList.insert [1] (ascii "streamroom/internal") ∅ }
  eventMiddleware :=
    { nextId := 3
      notificationsListeners :=
        AList.insert 0 { callback := true, subscriptionIds := [[1]] } ∅ }
  notificationListenerId := 0

/-- The sample object is the one that is created. -/
theorem create_sampleImpl : create sampleMiddleware sampleInternalAnswer = .ok sampleImpl := rfl

/-- A leave of which only `close` fails. -/
def sampleLeaveCalls : LeaveConversation where
  unsubscribeFromChannels := .ok ()
  close := .error .other
  streamRoomLeave := .ok ()

/-- The room is joined. -/
def sampleJoinedImpl : StreamApiLowImpl :=
  (exec (joinStreamRoom sampleStreamKeys [7] (sampleJoinCalls (.ok ()))) sampleImpl).2

/-- A join of which `updateKeys` fails leaves the tables alone, and so does the same join in a
room that is joined already; a leave of which `close` fails can be made again. -/
theorem atomic_iff_sample :
    Atomic sampleStreamKeys (fun _ => []) sampleImpl
        (.joinStreamRoom [7] { sampleJoinCalls (.ok ()) with updateKeys := .error .other }) ∧
      Atomic sampleStreamKeys (fun _ => []) sampleJoinedImpl
        (.joinStreamRoom [7] (sampleJoinCalls (.error .other))) ∧
      Atomic sampleStreamKeys (fun _ => []) sampleJoinedImpl
        (.leaveStreamRoom [7] sampleLeaveCalls) := by
  have hjoined : Run (StreamCall.Step sampleStreamKeys fun _ => []) sampleImpl
      [.joinStreamRoom [7] (sampleJoinCalls (.ok ()))] sampleJoinedImpl := .cons rfl (.nil _)
  refine ⟨?_, ?_, ?_⟩
  · exact (atomic_iff create_sampleImpl (.nil _) _).mpr fun _ _ => rfl
  · refine (atomic_iff create_sampleImpl hjoined _).mpr fun hnew _ => absurd ?_ hnew
    exact (AList.mem_insert _).mpr (Or.inl rfl)
  · exact (atomic_iff create_sampleImpl hjoined (.leaveStreamRoom [7] sampleLeaveCalls)).mpr trivial

/-- The server refuses a join when the room is in all tables already: the room stays
there, and the next try fails because of it. -/
theorem join_not_atomic :
    (exec (joinStreamRoom sampleStreamKeys [7] (sampleJoinCalls (.error .other)))
        sampleImpl).1 = .error (.endpoint .other) ∧
      (exec (joinStreamRoom sampleStreamKeys [7] (sampleJoinCalls (.error .other)))
        sampleImpl).2.subscriptionIds = [[1], [3], [2]] ∧
      (exec (joinStreamRoom sampleStreamKeys [7] (sampleJoinCalls (.ok ())))
        (exec (joinStreamRoom sampleStreamKeys [7] (sampleJoinCalls (.error .other)))
          sampleImpl).2).1 = .error (.endpoint (.core alreadyJoinedStreamRoom)) ∧
      ¬ Atomic sampleStreamKeys (fun _ => []) sampleImpl
        (.joinStreamRoom [7] (sampleJoinCalls (.error .other))) := by
  have hfails : (exec (joinStreamRoom sampleStreamKeys [7] (sampleJoinCalls (.error .other)))
      sampleImpl).1 = .error (.endpoint .other) := by decide +kernel
  have hentered : ((exec (joinStreamRoom sampleStreamKeys [7]
      (sampleJoinCalls (.error .other))) sampleImpl).2.rooms.streamRoomMap.lookup
        [7]).isSome = true := by decide +kernel
  refine ⟨hfails, by decide +kernel, by decide +kernel, ?_⟩
  intro hatomic
  cases hexec : exec (joinStreamRoom sampleStreamKeys [7] (sampleJoinCalls (.error .other)))
      sampleImpl with
  | mk result t =>
      rw [hexec] at hfails hentered
      obtain rfl := hfails
      rw [(hatomic _ t hexec).1.streamRoomMap] at hentered
      cases hentered

end StreamApiLowImpl

end Stream

end PrivmxEndpoint
