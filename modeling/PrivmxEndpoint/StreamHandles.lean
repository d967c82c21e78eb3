import PrivmxEndpoint.StreamApiLow

/-!
# Stream handles

A handle stands for the room whose publisher has it.  `leaveStreamRoom` erases the
handles of both streams of a room, and the handle of a subscriber is always 0: the
first handle that `createStream` gives out.

Handles are ids of the counter, so that a new one is not in use as long as the counter
does not overflow.
-/

namespace PrivmxEndpoint

namespace Stream

open Throwing Runs

/-- The handle of the stream that is published in a room. -/
def StreamRoomData.publisherHandle (room : StreamRoomData) : Option ℤ :=
  room.publisherStream.bind (·.streamHandle)

namespace StreamApiLow

/-- The handle of the stream that is published in a room, if the room is joined. -/
def publisherHandle (s : StreamApiLow) (streamRoomId : Bytes) : Option ℤ :=
  (s.streamRoomMap.lookup streamRoomId).bind (·.publisherHandle)

/-- The two tables agree. -/
def Valid (s : StreamApiLow) : Prop :=
  ∀ h r, s.streamHandleToRoomId.lookup h = some r ↔ s.publisherHandle r = some h

/-- The counter is in front of every handle. -/
def Fresh (s : StreamApiLow) : Prop :=
  ∀ h r, s.streamHandleToRoomId.lookup h = some r → h < s.nextIdCounter

/-- At the start no handle is in use. -/
theorem fresh_initial : Fresh .initial := by
  intro h r hlookup
  cases hlookup

/-- The next handle is not in use. -/
theorem Fresh.lookup_next {s : StreamApiLow} (hs : s.Fresh) :
    s.streamHandleToRoomId.lookup s.nextIdCounter = none := by
  cases hlookup : s.streamHandleToRoomId.lookup s.nextIdCounter with
  | none => rfl
  | some r => exact absurd (hs _ r hlookup) (lt_irrefl _)

/-- Without an overflow the counter only grows. -/
theorem Fresh.bumpId {s : StreamApiLow} (hs : s.Fresh) (overflowed : ℤ)
    (hid : s.nextIdCounter ≠ NEXT_ID_MAX) : (s.bumpId overflowed).Fresh := by
  intro h r hlookup
  have hlt := hs h r hlookup
  show h < if s.nextIdCounter = NEXT_ID_MAX then overflowed else s.nextIdCounter + 1
  rw [if_neg hid]
  omega

/-- The id that is given out is behind the counter. -/
theorem Fresh.setHandle {s : StreamApiLow} (hs : s.Fresh) (overflowed : ℤ)
    (hid : s.nextIdCounter ≠ NEXT_ID_MAX) (r : Bytes) :
    ((s.bumpId overflowed).setHandle s.nextIdCounter r).Fresh := by
  have hcounter : ((s.bumpId overflowed).setHandle s.nextIdCounter r).nextIdCounter =
      s.nextIdCounter + 1 := if_neg hid
  intro h other hlookup
  rw [hcounter]
  by_cases hh : h = s.nextIdCounter
  · omega
  · have hold : s.streamHandleToRoomId.lookup h = some other :=
      (AList.lookup_insert_ne hh).symm.trans hlookup
    have hlt := hs h other hold
    omega

/-- Forgetting a stream makes no handle new. -/
theorem Fresh.eraseHandle {s : StreamApiLow} (hs : s.Fresh) (stream : Option StreamData) :
    (s.eraseHandle stream).Fresh := by
  unfold StreamApiLow.eraseHandle
  cases stream.bind (·.streamHandle) with
  | none => exact hs
  | some streamHandle =>
      intro h r hlookup
      by_cases hh : h = streamHandle
      · subst hh
        cases (AList.lookup_erase h s.streamHandleToRoomId).symm.trans hlookup
      · exact hs h r ((AList.lookup_erase_ne hh).symm.trans hlookup)

/-- Nor does dropping its handle. -/
theorem Fresh.dropHandle {s : StreamApiLow} (hs : s.Fresh) (streamHandle : ℤ) :
    (s.dropHandle streamHandle).Fresh :=
  hs.eraseHandle (some { sessionId := none, streamHandle := some streamHandle })

/-- At the start no handle leads anywhere. -/
theorem valid_initial : Valid .initial := by
  intro h r
  simp [initial, publisherHandle]

/-- A changed room has the publisher it was given. -/
theorem publisherHandle_setRoom_self (s : StreamApiLow) (r : Bytes) (room : StreamRoomData) :
    (s.setRoom r room).publisherHandle r = room.publisherHandle := by
  unfold publisherHandle setRoom
  rw [AList.lookup_insert]
  rfl

/-- The other rooms stay. -/
theorem lookup_setRoom_ne (s : StreamApiLow) {r other : Bytes} (hne : other ≠ r)
    (room : StreamRoomData) :
    (s.setRoom r room).streamRoomMap.lookup other = s.streamRoomMap.lookup other :=
  AList.lookup_insert_ne hne

/-- Their publishers stay, too. -/
theorem publisherHandle_setRoom_ne (s : StreamApiLow) {r other : Bytes} (hne : other ≠ r)
    (room : StreamRoomData) :
    (s.setRoom r room).publisherHandle other = s.publisherHandle other := by
  unfold publisherHandle
  rw [lookup_setRoom_ne s hne]

/-- The publisher is read from the room. -/
theorem publisherHandle_of_lookup {s : StreamApiLow} {r : Bytes} {room : StreamRoomData}
    (hroom : s.streamRoomMap.lookup r = some room) :
    s.publisherHandle r = room.publisherHandle := by
  unfold publisherHandle
  rw [hroom]
  rfl

/-- What is left in the table of handles when a stream's handle is erased. -/
theorem lookup_eraseHandle (stream : Option StreamData) (s : StreamApiLow) (h : ℤ) :
    (s.eraseHandle stream).streamHandleToRoomId.lookup h =
      if stream.bind (·.streamHandle) = some h then none
      else s.streamHandleToRoomId.lookup h := by
  unfold eraseHandle
  cases hstream : stream.bind (·.streamHandle) with
  | none => rfl
  | some streamHandle =>
      by_cases heq : streamHandle = h
      · subst heq
        rw [if_pos rfl]
        exact AList.lookup_erase _ _
      · rw [if_neg fun hsome => heq (Option.some.inj hsome)]
        exact AList.lookup_erase_ne fun hsame => heq hsame.symm

/-- A change of a room that leaves its publisher's handle alone. -/
theorem Valid.setRoom {s : StreamApiLow} (hs : s.Valid) {r : Bytes} {room : StreamRoomData}
    (hsame : s.publisherHandle r = room.publisherHandle) : (s.setRoom r room).Valid := by
  intro h other
  refine (hs h other).trans ?_
  by_cases hother : other = r
  · subst hother
    rw [publisherHandle_setRoom_self, hsame]
  · rw [publisherHandle_setRoom_ne s hother]

/-- The room that `leaveStreamRoom` gives up has a subscriber whose handle, as it
stands in the table, is not another room's. -/
def SubscriberOwn (s : StreamApiLow) (r : Bytes) (room : StreamRoomData) : Prop :=
  ∀ h, room.subscriberStream.bind (·.streamHandle) = some h →
    ∀ other, s.streamHandleToRoomId.lookup h = some other → other = r

/-- The handles of the other rooms when the handles of a room are erased. -/
theorem lookup_eraseHandles {s : StreamApiLow} (hs : s.Valid) {r : Bytes} {room : StreamRoomData}
    (hroom : s.streamRoomMap.lookup r = some room) (hown : s.SubscriberOwn r room) (h : ℤ)
    (other : Bytes) :
    ((s.eraseHandle room.publisherStream).eraseHandle
        room.subscriberStream).streamHandleToRoomId.lookup h = some other ↔
      other ≠ r ∧ s.streamHandleToRoomId.lookup h = some other := by
  have hpublisher : s.streamHandleToRoomId.lookup h = some r ↔
      room.publisherStream.bind (·.streamHandle) = some h := by
    rw [hs h r, publisherHandle_of_lookup hroom]
    rfl
  rw [lookup_eraseHandle, lookup_eraseHandle]
  by_cases hsub : room.subscriberStream.bind (·.streamHandle) = some h
  · rw [if_pos hsub]
    constructor
    · intro hnone
      cases hnone
    · rintro ⟨hne, hlookup⟩
      exact absurd (hown h hsub other hlookup) hne
  · rw [if_neg hsub]
    by_cases hpub : room.publisherStream.bind (·.streamHandle) = some h
    · rw [if_pos hpub, hpublisher.mpr hpub]
      constructor
      · intro hnone
        cases hnone
      · rintro ⟨hne, hlookup⟩
        exact absurd (Option.some.inj hlookup).symm hne
    · rw [if_neg hpub]
      refine ⟨fun hlookup => ⟨fun heq => hpub (hpublisher.mp (heq ▸ hlookup)), hlookup⟩,
        fun hlookup => hlookup.2⟩

/-- A room is left. -/
theorem Valid.leave {s : StreamApiLow} (hs : s.Valid) {r : Bytes} {room : StreamRoomData}
    (hroom : s.streamRoomMap.lookup r = some room) (hown : s.SubscriberOwn r room) :
    (((s.eraseHandle room.publisherStream).eraseHandle room.subscriberStream).dropRoom r).Valid := by
  intro h other
  refine (lookup_eraseHandles hs hroom hown h other).trans ?_
  unfold publisherHandle dropRoom
  rw [eraseHandle_streamRoomMap, eraseHandle_streamRoomMap]
  dsimp only
  by_cases hother : other = r
  · subst hother
    rw [AList.lookup_erase]
    simp
  · rw [AList.lookup_erase_ne hother]
    exact ⟨fun hlookup => (hs h other).mp hlookup.2, fun hp => ⟨hother, (hs h other).mpr hp⟩⟩

/-- The handles of a room without a publisher are erased. -/
theorem Valid.eraseHandles {s : StreamApiLow} (hs : s.Valid) {r : Bytes} {room : StreamRoomData}
    (hroom : s.streamRoomMap.lookup r = some room) (hown : s.SubscriberOwn r room)
    (hnone : room.publisherHandle = none) :
    ((s.eraseHandle room.publisherStream).eraseHandle room.subscriberStream).Valid := by
  intro h other
  refine (lookup_eraseHandles hs hroom hown h other).trans ?_
  unfold publisherHandle
  rw [eraseHandle_streamRoomMap, eraseHandle_streamRoomMap]
  refine ⟨fun hlookup => (hs h other).mp hlookup.2, fun hp => ⟨fun heq => ?_, (hs h other).mpr hp⟩⟩
  subst heq
  rw [hroom] at hp
  exact absurd (hnone.symm.trans hp) (by simp)

/-- A stream is created under a handle that is not in use. -/
theorem Valid.create {s : StreamApiLow} (hs : s.Valid) (overflowed : ℤ) {r : Bytes}
    {room : StreamRoomData} (hroom : s.streamRoomMap.lookup r = some room) (hnone : room.publisherStream = none)
    (hfresh : s.streamHandleToRoomId.lookup s.nextIdCounter = none) :
    (((s.bumpId overflowed).setHandle s.nextIdCounter r).setRoom r
      { room with
        publisherStream :=
          some { sessionId := none, streamHandle := some s.nextIdCounter } }).Valid := by
  have hpublisher : s.publisherHandle r = none := by
    rw [publisherHandle_of_lookup hroom, StreamRoomData.publisherHandle, hnone]
    rfl
  intro h other
  have hrooms : ((s.bumpId overflowed).setHandle s.nextIdCounter r).publisherHandle other =
      s.publisherHandle other := rfl
  show (s.streamHandleToRoomId.insert s.nextIdCounter r).lookup h = some other ↔ _
  by_cases hother : other = r
  · subst hother
    rw [publisherHandle_setRoom_self]
    by_cases hh : h = s.nextIdCounter
    · rw [hh, AList.lookup_insert]
      simp [StreamRoomData.publisherHandle]
    · rw [AList.lookup_insert_ne hh, hs h other, hpublisher]
      constructor
      · intro hcontra
        cases hcontra
      · intro hcontra
        exact absurd (Option.some.inj hcontra).symm hh
  · rw [publisherHandle_setRoom_ne _ hother, hrooms]
    by_cases hh : h = s.nextIdCounter
    · rw [hh, AList.lookup_insert, ← hs, hfresh]
      constructor
      · intro hcontra
        exact absurd (Option.some.inj hcontra).symm hother
      · intro hcontra
        cases hcontra
    · rw [AList.lookup_insert_ne hh]
      exact hs h other

/-- A stream is unpublished. -/
theorem Valid.unpublish {s : StreamApiLow} (hs : s.Valid) {streamHandle : ℤ} {r : Bytes}
    {room : StreamRoomData} (hhandle : s.streamHandleToRoomId.lookup streamHandle = some r) :
    ((s.dropHandle streamHandle).setRoom r { room with publisherStream := none }).Valid := by
  have hpublisher := (hs streamHandle r).mp hhandle
  intro h other
  have hrooms : (s.dropHandle streamHandle).publisherHandle other = s.publisherHandle other := rfl
  show (s.streamHandleToRoomId.erase streamHandle).lookup h = some other ↔ _
  by_cases hh : h = streamHandle
  · rw [hh, AList.lookup_erase]
    by_cases hother : other = r
    · subst hother
      rw [publisherHandle_setRoom_self]
      simp [StreamRoomData.publisherHandle]
    · rw [publisherHandle_setRoom_ne _ hother, hrooms, ← hs, hhandle]
      constructor
      · intro hcontra
        cases hcontra
      · intro hcontra
        exact absurd (Option.some.inj hcontra).symm hother
  · rw [AList.lookup_erase_ne hh, hs h other]
    by_cases hother : other = r
    · subst hother
      rw [publisherHandle_setRoom_self, hpublisher]
      constructor
      · intro hcontra
        exact absurd (Option.some.inj hcontra).symm hh
      · intro hcontra
        cases hcontra
    · rw [publisherHandle_setRoom_ne _ hother, hrooms]

/-- What the table of handles promises. -/
structure Consistent (s : StreamApiLow) : Prop where
  handles : ∀ h r, s.streamHandleToRoomId.lookup h = some r ↔
    ∃ room, s.streamRoomMap.lookup r = some room ∧ room.publisherHandle = some h
  usable : ∀ h r, s.streamHandleToRoomId.lookup h = some r →
    ∃ room, exec (getStreamRoomDataOf h) s = (.ok (r, room), s) ∧ room.publisherHandle = some h

/-- A publisher's handle belongs to a room. -/
theorem publisherHandle_eq_some_iff {s : StreamApiLow} {r : Bytes} {h : ℤ} :
    s.publisherHandle r = some h ↔
      ∃ room, s.streamRoomMap.lookup r = some room ∧ room.publisherHandle = some h :=
  Option.bind_eq_some_iff

/-- A valid state is a consistent one. -/
theorem Valid.consistent {s : StreamApiLow} (hs : s.Valid) : s.Consistent where
  handles := fun h r => (hs h r).trans publisherHandle_eq_some_iff
  usable := fun h r hlookup => by
    obtain ⟨room, hroom, hpublisher⟩ := publisherHandle_eq_some_iff.mp ((hs h r).mp hlookup)
    refine ⟨room, ?_, hpublisher⟩
    unfold getStreamRoomDataOf
    rw [exec_get_bind, hlookup]
    dsimp only
    rw [exec_bind, exec_getStreamRoomData, hroom]
    rfl

end StreamApiLow

namespace RoomCall

open StreamApiLow

/-- The room that a call is about. -/
def room (s : StreamApiLow) : RoomCall → Option Bytes
  | joinStreamRoom streamRoomId _ => some streamRoomId
  | leaveStreamRoom streamRoomId _ => some streamRoomId
  | createStream streamRoomId _ => some streamRoomId
  | publishStream streamHandle _ => s.streamHandleToRoomId.lookup streamHandle
  | unpublishStream streamHandle _ => s.streamHandleToRoomId.lookup streamHandle
  | subscribeToRemoteStreams streamRoomId _ => some streamRoomId
  | streamRoomUpdated raw _ => some raw.id
  | nextIdElsewhere _ => none

/-- The calls that end the use of a room's handle: the room is not joined any more, or the
stream has been unpublished. -/
def Ends (r : Bytes) (h : ℤ) (s : StreamApiLow) : RoomCall → Prop
  | leaveStreamRoom streamRoomId answers => streamRoomId = r ∧
      (exec (StreamApiLow.leaveStreamRoom streamRoomId answers) s).2.streamRoomMap.lookup r = none
  | unpublishStream streamHandle streamUnpublish => streamHandle = h ∧
      (exec (StreamApiLow.unpublishStream streamHandle streamUnpublish) s).1 = .ok ()
  | _ => False

/-- A room is left only if the handle of its subscriber, 0, is not another room's,
and `close` throws only if the room has no publisher; and no id is taken whose increment
overflows. -/
def Ok (s : StreamApiLow) : RoomCall → Prop
  | leaveStreamRoom streamRoomId answers => ∀ room, s.streamRoomMap.lookup streamRoomId = some room →
      answers.unsubscribeFrom = .ok () →
        s.SubscriberOwn streamRoomId room ∧
          (answers.close = .ok () ∨ room.publisherHandle = none)
  | createStream _ _ => s.nextIdCounter ≠ NEXT_ID_MAX
  | nextIdElsewhere _ => s.nextIdCounter ≠ NEXT_ID_MAX
  | _ => True

/-- Every call leaves the counter in front of the handles. -/
theorem Effect.fresh {P : StreamKeys} {s t : StreamApiLow} {call : RoomCall} (hs : s.Fresh)
    (hok : Ok s call) (heffect : Effect P s call t) : t.Fresh := by
  cases heffect with
  | unchanged | joined | published | subscribed | notified | updated => exact hs
  | handlesErased | left => exact (hs.eraseHandle _).eraseHandle _
  | notCreated _ overflowed | bumped overflowed => exact hs.bumpId overflowed hok
  | created => exact hs.setHandle _ hok _
  | unpublished => exact hs.dropHandle _

/-- Every call keeps the two tables in agreement. -/
theorem Effect.valid {P : StreamKeys} {s t : StreamApiLow} {call : RoomCall} (hs : s.Valid)
    (hfresh : s.Fresh) (hok : Ok s call) (heffect : Effect P s call t) : t.Valid := by
  cases heffect with
  | unchanged => exact hs
  | joined subscriptionsIds hnew hget hkeys =>
      refine hs.setRoom ?_
      unfold publisherHandle
      rw [hnew]
      rfl
  | handlesErased hroom hunsubscribe hclose =>
      obtain ⟨hown, hpublisher⟩ := hok _ hroom hunsubscribe
      refine hs.eraseHandles hroom hown (hpublisher.resolve_left fun hopen => ?_)
      rw [hclose] at hopen
      cases hopen
  | left hroom hunsubscribe hclose => exact hs.leave hroom (hok _ hroom hunsubscribe).1
  | notCreated => exact hs
  | bumped => exact hs
  | created hroom hnone => exact hs.create _ hroom hnone hfresh.lookup_next
  | published sessionId hhandle hroom hstream =>
      refine hs.setRoom ?_
      rw [publisherHandle_of_lookup hroom, StreamRoomData.publisherHandle, hstream]
      rfl
  | unpublished hhandle hroom => exact hs.unpublish hhandle
  | subscribed sessionId hroom => exact hs.setRoom ((publisherHandle_of_lookup hroom).trans rfl)
  | notified hsubscribed htype hdecrypted hroom hkeys =>
      exact hs.setRoom ((publisherHandle_of_lookup hroom).trans rfl)
  | updated hsubscribed htype hdecrypted hroom hkeys =>
      exact hs.setRoom ((publisherHandle_of_lookup hroom).trans rfl)

/-- A call leaves the other rooms alone. -/
theorem Effect.lookup_other {P : StreamKeys} {s t : StreamApiLow} {call : RoomCall}
    (heffect : Effect P s call t) {other : Bytes} (hother : call.room s ≠ some other) :
    t.streamRoomMap.lookup other = s.streamRoomMap.lookup other := by
  have hne : ∀ {r : Bytes}, call.room s = some r → other ≠ r := fun hr heq =>
    hother (heq ▸ hr)
  cases heffect with
  | unchanged | notCreated | bumped => rfl
  | joined => exact lookup_setRoom_ne _ (hne rfl) _
  | handlesErased => simp
  | left =>
      refine (AList.lookup_erase_ne (hne rfl)).trans ?_
      simp
  | created => exact lookup_setRoom_ne _ (hne rfl) _
  | published sessionId hhandle => exact lookup_setRoom_ne _ (hne hhandle) _
  | unpublished hhandle => exact lookup_setRoom_ne _ (hne hhandle) _
  | subscribed => exact lookup_setRoom_ne _ (hne rfl) _
  | notified => exact lookup_setRoom_ne _ (hne rfl) _
  | updated => exact lookup_setRoom_ne _ (hne rfl) _

/-- A call leaves the handles of the other rooms alone. -/
theorem handle_other {P : StreamKeys} {s t : StreamApiLow} {call : RoomCall} (hs : s.Valid)
    (hfresh : s.Fresh) (hstep : guarded Ok (Step P) s call t) {other : Bytes} (hother : call.room s ≠ some other)
    (h : ℤ) :
    t.streamHandleToRoomId.lookup h = some other ↔
      s.streamHandleToRoomId.lookup h = some other := by
  have heffect := effect_of_step hstep.2
  rw [heffect.valid hs hfresh hstep.1 h other, hs h other]
  unfold publisherHandle
  rw [heffect.lookup_other hother]

/-- A handle stays with its room until the stream is unpublished or the room left. -/
theorem handle_kept {P : StreamKeys} {s t : StreamApiLow} {call : RoomCall} (hs : s.Valid)
    (hfresh : s.Fresh) (hstep : guarded Ok (Step P) s call t) {r : Bytes} {h : ℤ}
    (hcall : ¬ call.Ends r h s) (hhandle : s.streamHandleToRoomId.lookup h = some r) :
    t.streamHandleToRoomId.lookup h = some r := by
  by_cases hother : call.room s = some r
  · have hpublisher := (hs h r).mp hhandle
    obtain ⟨room, hroom, hstream⟩ := publisherHandle_eq_some_iff.mp hpublisher
    have heffect := effect_of_step hstep.2
    refine (heffect.valid hs hfresh hstep.1 h r).mpr ?_
    -- the room of the call is the handle's own room
    cases heffect with
    | unchanged | notCreated | bumped => exact hpublisher
    | joined subscriptionsIds hnew =>
        cases hother
        rw [hroom] at hnew
        cases hnew
    | handlesErased hroom' hunsubscribe hclose =>
        obtain rfl := Option.some.inj hother
        have hnone := ((hstep.1 _ hroom' hunsubscribe).2).resolve_left fun hopen => by
          rw [hclose] at hopen
          cases hopen
        rw [hroom] at hroom'
        obtain rfl := Option.some.inj hroom'
        rw [hnone] at hstream
        cases hstream
    | left =>
        obtain rfl := Option.some.inj hother
        refine absurd ⟨rfl, ?_⟩ hcall
        rw [← show _ = (exec (StreamApiLow.leaveStreamRoom _ _) s).2 from hstep.2]
        exact AList.lookup_erase _ _
    | created hroom' hnone =>
        cases hother
        rw [hroom] at hroom'
        cases hroom'
        rw [StreamRoomData.publisherHandle, hnone] at hstream
        cases hstream
    | published sessionId hhandle' hroom' hstream' =>
        obtain rfl := Option.some.inj (hhandle'.symm.trans hother)
        rw [publisherHandle_setRoom_self, ← hpublisher, publisherHandle_of_lookup hroom',
          StreamRoomData.publisherHandle, StreamRoomData.publisherHandle, hstream']
        rfl
    | @unpublished streamHandle streamUnpublish streamRoomId room' hhandle' hroom' =>
        obtain rfl := Option.some.inj (hhandle'.symm.trans hother)
        have hsame := Option.some.inj (((hs _ _).mp hhandle').symm.trans hpublisher)
        -- the call has failed, and changed nothing
        have hfailed : (exec (StreamApiLow.unpublishStream streamHandle streamUnpublish) s).1 ≠
            .ok () := fun hok => hcall ⟨hsame, hok⟩
        rw [show _ = (exec (StreamApiLow.unpublishStream streamHandle streamUnpublish) s).2
          from hstep.2, exec_unpublishStream_error hfailed]
        exact hpublisher
    | subscribed sessionId hroom' =>
        cases hother
        rw [publisherHandle_setRoom_self, ← hpublisher, publisherHandle_of_lookup hroom']
        rfl
    | notified hsubscribed htype hdecrypted hroom' hkeys =>
        cases hother
        rw [publisherHandle_setRoom_self, ← hpublisher, publisherHandle_of_lookup hroom']
        rfl
    | updated hsubscribed htype hdecrypted hroom' hkeys =>
        cases hother
        rw [publisherHandle_setRoom_self, ← hpublisher, publisherHandle_of_lookup hroom']
        rfl
  · exact (handle_other hs hfresh hstep hother h).mpr hhandle

/-- The handle that `createStream` returns stands for its room. -/
theorem handle_created {s t : StreamApiLow} {r : Bytes} {overflowed h : ℤ}
    (hcreate : exec (StreamApiLow.createStream r overflowed) s = (.ok h, t)) :
    t.streamHandleToRoomId.lookup h = some r := by
  unfold StreamApiLow.createStream at hcreate
  rw [exec_bind, exec_nextId] at hcreate
  dsimp only at hcreate
  rw [exec_bind, exec_getStreamRoomData] at hcreate
  cases hroom : (s.bumpId overflowed).streamRoomMap.lookup r with
  | none =>
      rw [hroom] at hcreate
      cases hcreate
  | some room =>
      rw [hroom] at hcreate
      dsimp only at hcreate
      cases hstream : room.publisherStream with
      | some streamData =>
          rw [hstream] at hcreate
          cases hcreate
      | none =>
          rw [hstream] at hcreate
          cases hcreate
          exact AList.lookup_insert _

/-- A call that goes through is a step. -/
theorem step_createStream (P : StreamKeys) {s t : StreamApiLow} {r : Bytes} {overflowed h : ℤ}
    (hcreate : exec (StreamApiLow.createStream r overflowed) s = (.ok h, t)) :
    Step P s (createStream r overflowed) t := by
  unfold Step run
  rw [exec_bind, hcreate]
  rfl

/-- What a state promises about handles, and about the calls that follow. -/
structure HandlesValid (P : StreamKeys) (s : StreamApiLow) : Prop where
  consistent : s.Consistent
  others : ∀ call t, guarded Ok (Step P) s call t → ∀ other, call.room s ≠ some other →
    ∀ h, t.streamHandleToRoomId.lookup h = some other ↔
      s.streamHandleToRoomId.lookup h = some other
  created : ∀ r overflowed h t, Ok s (createStream r overflowed) →
    exec (StreamApiLow.createStream r overflowed) s = (.ok h, t) →
      ∀ later u,
        Run (guarded (fun v call => Ok v call ∧ ¬ call.Ends r h v) (Step P)) t later u →
          ∃ room, exec (getStreamRoomDataOf h) u = (.ok (r, room), u) ∧
            room.publisherHandle = some h

/-- **Stream handles.**  In every run whose calls meet the condition, a handle stands
for a room exactly if the room is joined and publishes under this handle; a call
leaves the handles of all other rooms as they are; and a handle that `createStream`
returns can be used until its stream is unpublished or its room left, whatever fails
before. -/
theorem streamHandles_valid (P : StreamKeys) {s : StreamApiLow} {calls : List RoomCall}
    (hrun : Run (guarded Ok (Step P)) .initial calls s) : HandlesValid P s := by
  have hinv : ∀ s call t, Valid s ∧ Fresh s → guarded Ok (Step P) s call t →
      Valid t ∧ Fresh t := fun s call t hs hstep =>
    ⟨(effect_of_step hstep.2).valid hs.1 hs.2 hstep.1, (effect_of_step hstep.2).fresh hs.2 hstep.1⟩
  obtain ⟨hs, hfresh⟩ : s.Valid ∧ s.Fresh :=
    hrun.preserves (fun s => Valid s ∧ Fresh s) hinv ⟨valid_initial, fresh_initial⟩
  refine ⟨hs.consistent, fun call t hstep other hother h => handle_other hs hfresh hstep hother h,
    ?_⟩
  intro r overflowed h t hok hcreate later u hlater
  have ht := hinv s _ t ⟨hs, hfresh⟩ ⟨hok, step_createStream P hcreate⟩
  have hkept : (u.Valid ∧ u.Fresh) ∧ u.streamHandleToRoomId.lookup h = some r := by
    refine hlater.preserves
      (fun u => (u.Valid ∧ u.Fresh) ∧ u.streamHandleToRoomId.lookup h = some r) ?_
      ⟨ht, handle_created hcreate⟩
    rintro u call v ⟨hu, hhandle⟩ ⟨⟨hcall, hnot⟩, hstep⟩
    exact ⟨hinv u call v hu ⟨hcall, hstep⟩,
      handle_kept hu.1 hu.2 ⟨hcall, hstep⟩ hnot hhandle⟩
  exact hkept.1.1.consistent.usable h r hkept.2

/-- Two rooms, the second one joined, subscribed to and left before a stream is created
in the first one. -/
def sampleCalls : List RoomCall :=
  [sampleJoin (sampleRoomInfo [1] [1, 2] 1), sampleJoin (sampleRoomInfo [2] [1, 2] 1),
    sampleSubscribe [2], sampleLeave [2]]

/-- The first room's stream is published; unpublishing it and leaving the room fail. -/
def sampleFailures : List RoomCall :=
  [publishStream 0 { createOffer := .ok (), streamPublish := .ok 7, describe := .ok () },
    unpublishStream 0 (.error .other),
    leaveStreamRoom [1] { unsubscribeFrom := .error .other, close := .ok (),
                          streamRoomLeave := .ok () }]

/-- Behind the failures the handle 0 still stands for the first room. -/
theorem streamHandles_valid_sample :
    HandlesValid sampleStreamKeys (after sampleStreamKeys sampleCalls) ∧
      ∃ room, exec (getStreamRoomDataOf 0)
          (after sampleStreamKeys (sampleCalls ++ createStream [1] 0 :: sampleFailures)) =
        (.ok ([1], room),
          after sampleStreamKeys (sampleCalls ++ createStream [1] 0 :: sampleFailures)) ∧
        room.publisherHandle = some 0 := by
  have hleave : Ok (after sampleStreamKeys [sampleJoin (sampleRoomInfo [1] [1, 2] 1),
      sampleJoin (sampleRoomInfo [2] [1, 2] 1), sampleSubscribe [2]]) (sampleLeave [2]) := by
    intro room hroom _
    refine ⟨fun h _ other hother => ?_, Or.inl rfl⟩
    cases hother
  have hrun : Run (guarded Ok (Step sampleStreamKeys)) .initial sampleCalls
      (after sampleStreamKeys sampleCalls) :=
    Run.cons ⟨trivial, rfl⟩ (Run.cons ⟨trivial, rfl⟩ (Run.cons ⟨trivial, rfl⟩
      (Run.cons ⟨hleave, rfl⟩ (Run.nil _))))
  have hvalid := streamHandles_valid sampleStreamKeys hrun
  have hid : Ok (after sampleStreamKeys sampleCalls) (createStream [1] 0) :=
    show (0 : ℤ) ≠ NEXT_ID_MAX by decide
  refine ⟨hvalid, hvalid.created [1] 0 0
    (after sampleStreamKeys (sampleCalls ++ [createStream [1] 0])) hid rfl sampleFailures _ ?_⟩
  refine Run.cons ⟨⟨trivial, id⟩, rfl⟩ (Run.cons ⟨⟨trivial, ?_⟩, rfl⟩
    (Run.cons ⟨⟨?_, ?_⟩, rfl⟩ (Run.nil _)))
  · rintro ⟨-, hok⟩
    cases hok
  · intro room _ hunsubscribe
    cases hunsubscribe
  · rintro ⟨-, hleft⟩
    cases hleft

/-- The same calls in another order: the second room is left while the first one
publishes under the handle 0. -/
def sampleCrossing : List RoomCall :=
  [sampleJoin (sampleRoomInfo [1] [1, 2] 1), sampleJoin (sampleRoomInfo [2] [1, 2] 1),
    createStream [1] 0, sampleSubscribe [2], sampleLeave [2]]

/-- Leaving a room takes the handle of another room's stream. -/
theorem streamHandles_not_consistent :
    Run (Step sampleStreamKeys) .initial sampleCrossing
        (after sampleStreamKeys sampleCrossing) ∧
      ¬ (after sampleStreamKeys sampleCrossing).Consistent := by
  refine ⟨run_after _ _, fun h => ?_⟩
  have hhandle :
      (after sampleStreamKeys sampleCrossing).streamHandleToRoomId.lookup 0 = some [1] :=
    (h.handles 0 [1]).mpr ⟨_, rfl, rfl⟩
  exact absurd hhandle (by decide)

end RoomCall

end Stream

end PrivmxEndpoint
