import PrivmxEndpoint.StreamApiLow

/-!
# The keys of a stream room

The keys of a room are held by the room's `DataChannelMessageEncryptorV1` and by the
application's `WebRTCInterface`, and the room stores the id of the key that encrypts.
Joining the room sets all three.  The notification that the room has changed gives new
keys to `WebRTCInterface` only, and has them encrypt with the key of the stored id.
-/

namespace PrivmxEndpoint

namespace Stream

open Throwing Runs

/-- The ids and contents of some keys. -/
def keySet (keys : List Key) : Set (Bytes × Bytes) :=
  { p | ∃ key ∈ keys, p = (key.keyId, key.key) }

namespace StreamKeys

variable (P : StreamKeys)

/-- The ids and contents of a room's keys with status 0. -/
def validKeys (streamRoomInfo : StreamRoomInfo) : Set (Bytes × Bytes) :=
  { p | ∃ keys, P.extractStreamRoomKeys streamRoomInfo = .ok keys ∧
      ∃ key ∈ keys, key.2.statusCode = 0 ∧
        p = (key.2.id, P.deriveStreamEncryptionKey key.2) }

/-- The key that a room has under an id, if its status is 0. -/
def localKey (streamRoomInfo : StreamRoomInfo) (keyId : Bytes) :
    Except EndpointException Key := do
  let keys ← P.extractStreamRoomKeys streamRoomInfo
  let key ← mapAt keyId keys
  if key.statusCode ≠ 0 then throw (.core malformedEncryptionKey)
  return P.webRTCKey .LOCAL key

variable {P}

/-- A value that `.at` finds is in the map. -/
theorem mem_of_mapAt {α β : Type} [DecidableEq α] {a : α} {m : List (α × β)} {b : β}
    (h : mapAt a m = .ok b) : ∃ a', (a', b) ∈ m := by
  unfold mapAt at h
  induction m with
  | nil => cases h
  | cons p m ih =>
      rw [List.lookup_cons] at h
      cases hp : (a == p.1) with
      | true =>
          rw [hp] at h
          cases h
          exact ⟨p.1, List.mem_cons_self ..⟩
      | false =>
          rw [hp] at h
          obtain ⟨a', hmem⟩ := ih h
          exact ⟨a', List.mem_cons_of_mem _ hmem⟩

/-- What is made of a room's keys and of the one under an id: the room's keys are
extracted, and the one has status 0. -/
theorem withKey_eq_ok_iff {α : Type} {streamRoomInfo : StreamRoomInfo} {keyId : Bytes}
    {f : List (Bytes × DecryptedEncKeyV2) → DecryptedEncKeyV2 → α} {a : α} :
    (do
        let keys ← P.extractStreamRoomKeys streamRoomInfo
        let key ← mapAt keyId keys
        if key.statusCode ≠ 0 then throw (EndpointException.core malformedEncryptionKey)
        return f keys key) = .ok a ↔
      ∃ keys key, P.extractStreamRoomKeys streamRoomInfo = .ok keys ∧
        mapAt keyId keys = .ok key ∧ key.statusCode = 0 ∧ f keys key = a := by
  constructor
  · intro h
    obtain ⟨keys, hkeys, h⟩ := Throwing.bind_eq_ok h
    obtain ⟨key, hkey, h⟩ := Throwing.bind_eq_ok h
    by_cases hstatus : key.statusCode = 0
    · simp only [hstatus, ne_eq, not_true_eq_false, if_false] at h
      exact ⟨keys, key, hkeys, hkey, hstatus, Except.ok.inj h⟩
    · simp only [hstatus, ne_eq, not_false_eq_true, if_true] at h
      cases h
  · rintro ⟨keys, key, hkeys, hkey, hstatus, rfl⟩
    rw [hkeys]
    show (mapAt keyId keys >>= _) = _
    rw [hkey]
    show (if key.statusCode ≠ 0 then _ else _) = _
    rw [if_neg (not_not.mpr hstatus)]
    rfl

/-- The keys for `WebRTCInterface` are there exactly if the key that encrypts is. -/
theorem generateWebRTCKeys_of_localKey {streamRoomInfo : StreamRoomInfo} {keyId : Bytes}
    {key : Key} (h : P.localKey streamRoomInfo keyId = .ok key) :
    ∃ webRTCKeys, P.generateWebRTCKeysFromStreamRoomInfo streamRoomInfo keyId =
      .ok webRTCKeys := by
  obtain ⟨keys, current, hkeys, hcurrent, hstatus, -⟩ := withKey_eq_ok_iff.mp h
  exact ⟨_, withKey_eq_ok_iff.mpr ⟨keys, current, hkeys, hcurrent, hstatus, rfl⟩⟩

/-- What `generateWebRTCKeysFromStreamRoomInfo` yields: the keys of status 0, and one
of them for encryption. -/
theorem generateWebRTCKeys_spec {streamRoomInfo : StreamRoomInfo} {keyId : Bytes}
    {webRTCKeys : List Key}
    (h : P.generateWebRTCKeysFromStreamRoomInfo streamRoomInfo keyId = .ok webRTCKeys) :
    keySet webRTCKeys = P.validKeys streamRoomInfo ∧
      ∃ key, P.localKey streamRoomInfo keyId = .ok key ∧
        webRTCKeys.filter (·.type = .LOCAL) = [key] := by
  obtain ⟨keys, current, hkeys, hcurrent, hstatus, rfl⟩ := withKey_eq_ok_iff.mp h
  constructor
  · obtain ⟨currentId, hmem⟩ := mem_of_mapAt hcurrent
    ext p
    constructor
    · rintro ⟨key, hkey, rfl⟩
      obtain rfl | hkey := List.mem_cons.mp hkey
      · exact ⟨keys, hkeys, (currentId, current), hmem, hstatus, rfl⟩
      · obtain ⟨entry, hentry, rfl⟩ := List.mem_map.mp hkey
        obtain ⟨hentry, hzero⟩ := List.mem_filter.mp hentry
        exact ⟨keys, hkeys, entry, hentry, of_decide_eq_true hzero, rfl⟩
    · rintro ⟨keys', hkeys', entry, hentry, hzero, rfl⟩
      obtain rfl := Except.ok.inj (hkeys.symm.trans hkeys')
      refine ⟨P.webRTCKey .REMOTE entry.2, List.mem_cons_of_mem _ ?_, rfl⟩
      exact List.mem_map.mpr ⟨entry, List.mem_filter.mpr ⟨hentry, decide_eq_true hzero⟩, rfl⟩
  · refine ⟨P.webRTCKey .LOCAL current,
      withKey_eq_ok_iff.mpr ⟨keys, current, hkeys, hcurrent, hstatus, rfl⟩, ?_⟩
    have hremote : ((keys.filter (·.2.statusCode = 0)).map fun key =>
        P.webRTCKey .REMOTE key.2).filter (·.type = .LOCAL) = [] := by
      rw [List.filter_eq_nil_iff]
      intro key hkey
      obtain ⟨entry, -, rfl⟩ := List.mem_map.mp hkey
      simp [webRTCKey]
    rw [List.filter_cons_of_pos (by simp [webRTCKey]), hremote]

end StreamKeys

/-- All copies of a room's keys are those of its last description, and the only key
that encrypts is the room's current one. -/
structure StreamRoomData.Agrees (P : StreamKeys) (room : StreamRoomData) : Prop where
  webRtc : keySet room.webRtcKeys = P.validKeys room.latest
  encryptor : keySet room.messageEncryptor.keys = P.validKeys room.latest
  current : ∃ key, P.localKey room.latest room.latest.keyId = .ok key ∧
    room.webRtcKeys.filter (·.type = .LOCAL) = [key] ∧
    room.messageEncryptor.keys.filter (·.type = .LOCAL) = [key]

/-- A description with the keys and the current key of the one before, where the id
that the room stores still stands for the current key. -/
structure StreamRoomData.NoRotation (P : StreamKeys) (room : StreamRoomData)
    (raw : StreamRoomInfo) : Prop where
  keys : P.validKeys raw = P.validKeys room.latest
  current : P.localKey raw raw.keyId = P.localKey room.latest room.latest.keyId
  stored : P.localKey raw room.encryptionKeyId = P.localKey raw raw.keyId

/-- Joining a room sets all copies. -/
theorem StreamRoomData.agrees_empty {P : StreamKeys} {streamRoom : StreamRoomInfo}
    {keys : List Key} (subscriptionsIds : List Bytes)
    (hkeys : P.generateWebRTCKeysFromStreamRoomInfo streamRoom streamRoom.keyId = .ok keys) :
    (StreamRoomData.empty streamRoom keys subscriptionsIds).Agrees P := by
  obtain ⟨hset, key, hlocal, hfilter⟩ := StreamKeys.generateWebRTCKeys_spec hkeys
  exact ⟨hset, hset, key, hlocal, hfilter, hfilter⟩

/-- A notification without a rotation of keys. -/
theorem StreamRoomData.Agrees.updated {P : StreamKeys} {room : StreamRoomData}
    (hroom : room.Agrees P) {raw : StreamRoomInfo} (hsame : room.NoRotation P raw)
    {keys : List Key}
    (hkeys : P.generateWebRTCKeysFromStreamRoomInfo raw room.encryptionKeyId = .ok keys) :
    StreamRoomData.Agrees P { room with latest := raw, webRtcKeys := keys } := by
  obtain ⟨hset, key, hlocal, hfilter⟩ := StreamKeys.generateWebRTCKeys_spec hkeys
  obtain ⟨key', hlatest, -, hencryptor⟩ := hroom.current
  obtain rfl : key = key' := by
    rw [hsame.stored, hsame.current, hlatest] at hlocal
    exact (Except.ok.inj hlocal).symm
  exact ⟨hset, hroom.encryptor.trans hsame.keys.symm, key, hsame.current.trans hlatest, hfilter,
    hencryptor⟩

namespace RoomCall

open StreamApiLow

/-- A notification that is processed for a joined room rotates no keys. -/
def KeysKept (P : StreamKeys) (s : StreamApiLow) : RoomCall → Prop
  | streamRoomUpdated raw answers => answers.subscribed = true →
      raw.type.getD STREAM_TYPE_FILTER_FLAG = STREAM_TYPE_FILTER_FLAG →
        answers.decrypted = .ok () → ∀ room, s.streamRoomMap.lookup raw.id = some room →
          room.NoRotation P raw
  | _ => True

/-- All rooms are in agreement. -/
def AllAgree (P : StreamKeys) (s : StreamApiLow) : Prop :=
  ∀ r room, s.streamRoomMap.lookup r = some room → room.Agrees P

theorem AllAgree.setRoom {P : StreamKeys} {s : StreamApiLow} (hs : AllAgree P s) {r : Bytes}
    {room : StreamRoomData} (hroom : room.Agrees P) : AllAgree P (s.setRoom r room) := by
  intro other room' hlookup
  by_cases hother : other = r
  · subst hother
    obtain rfl := Option.some.inj ((AList.lookup_insert _).symm.trans hlookup)
    exact hroom
  · exact hs other room' ((AList.lookup_insert_ne hother).symm.trans hlookup)

/-- A change of a room's streams. -/
theorem AllAgree.setStreams {P : StreamKeys} {s : StreamApiLow} (hs : AllAgree P s) {r : Bytes}
    {room : StreamRoomData} (hroom : s.streamRoomMap.lookup r = some room)
    (publisherStream subscriberStream : Option StreamData) :
    AllAgree P (s.setRoom r { room with
      publisherStream := publisherStream
      subscriberStream := subscriberStream }) := by
  have hagrees := hs r room hroom
  exact hs.setRoom ⟨hagrees.webRtc, hagrees.encryptor, hagrees.current⟩

theorem AllAgree.eraseHandles {P : StreamKeys} {s : StreamApiLow} (hs : AllAgree P s)
    (first second : Option StreamData) :
    AllAgree P ((s.eraseHandle first).eraseHandle second) := by
  intro r room hroom
  rw [eraseHandle_streamRoomMap, eraseHandle_streamRoomMap] at hroom
  exact hs r room hroom

theorem AllAgree.dropRoom {P : StreamKeys} {s : StreamApiLow} (hs : AllAgree P s) (r : Bytes) :
    AllAgree P (s.dropRoom r) := by
  intro other room hlookup
  by_cases hother : other = r
  · subst hother
    cases (AList.lookup_erase other s.streamRoomMap).symm.trans hlookup
  · exact hs other room ((AList.lookup_erase_ne hother).symm.trans hlookup)

/-- Every call keeps the copies of the keys in agreement. -/
theorem Effect.allAgree {P : StreamKeys} {s t : StreamApiLow} {call : RoomCall}
    (hs : AllAgree P s) (hkept : KeysKept P s call) (heffect : Effect P s call t) :
    AllAgree P t := by
  cases heffect with
  | unchanged | notCreated | bumped => exact hs
  | joined subscriptionsIds hnew hget hkeys =>
      exact hs.setRoom (StreamRoomData.agrees_empty subscriptionsIds hkeys)
  | handlesErased => exact hs.eraseHandles _ _
  | left => exact (hs.eraseHandles _ _).dropRoom _
  | @created r overflowed room hroom =>
      have hbump : AllAgree P ((s.bumpId overflowed).setHandle s.nextIdCounter r) := hs
      exact hbump.setStreams hroom _ _
  | published sessionId hhandle hroom => exact hs.setStreams hroom _ _
  | @unpublished streamHandle _ r room hhandle hroom =>
      have hdrop : AllAgree P (s.dropHandle streamHandle) := hs
      exact hdrop.setStreams hroom _ _
  | subscribed sessionId hroom => exact hs.setStreams hroom _ _
  | notified hsubscribed htype hdecrypted hroom hkeys =>
      -- without a rotation the stored id is found
      have hsame := hkept hsubscribed htype hdecrypted _ hroom
      obtain ⟨key, hlatest, -⟩ := (hs _ _ hroom).current
      obtain ⟨keys, hkeys'⟩ := StreamKeys.generateWebRTCKeys_of_localKey
        ((hsame.stored.trans hsame.current).trans hlatest)
      cases hkeys.symm.trans hkeys'
  | updated hsubscribed htype hdecrypted hroom hkeys =>
      exact hs.setRoom ((hs _ _ hroom).updated (hkept hsubscribed htype hdecrypted _ hroom) hkeys)

/-- **Keys of stream rooms.**  As long as the notifications rotate no keys, the keys
that `WebRTCInterface` was last given and the keys of the encryptor are those of the
last description of each joined room, and both encrypt with its current key. -/
theorem streamRoomKeys_agree (P : StreamKeys) {s : StreamApiLow} {calls : List RoomCall}
    (hrun : Run (guarded (KeysKept P) (Step P)) .initial calls s) :
    ∀ r room, s.streamRoomMap.lookup r = some room → room.Agrees P := by
  refine hrun.preserves (AllAgree P) ?_ ?_
  · exact fun _ _ _ hs hstep => (effect_of_step hstep.2).allAgree hs hstep.1
  · intro r room hroom
    cases hroom

/-- A notification that is processed. -/
def sampleNotify (raw : StreamRoomInfo) : RoomCall :=
  streamRoomUpdated raw { subscribed := true, decrypted := .ok (), updateKeys := .ok () }

/-- A room is joined and described once more. -/
theorem streamRoomKeys_agree_sample :
    AllAgree sampleStreamKeys
      (after sampleStreamKeys [sampleJoin (sampleRoomInfo [1] [1, 2] 1),
        sampleNotify (sampleRoomInfo [1] [1, 2] 1)]) := by
  have hkept : KeysKept sampleStreamKeys
      (after sampleStreamKeys [sampleJoin (sampleRoomInfo [1] [1, 2] 1)])
      (sampleNotify (sampleRoomInfo [1] [1, 2] 1)) := by
    intro _ _ _ room hroom
    cases hroom
    exact ⟨rfl, rfl, rfl⟩
  have hrun : Run (guarded (KeysKept sampleStreamKeys) (Step sampleStreamKeys)) .initial
      [sampleJoin (sampleRoomInfo [1] [1, 2] 1), sampleNotify (sampleRoomInfo [1] [1, 2] 1)]
      (after sampleStreamKeys [sampleJoin (sampleRoomInfo [1] [1, 2] 1),
        sampleNotify (sampleRoomInfo [1] [1, 2] 1)]) :=
    Run.cons ⟨trivial, rfl⟩ (Run.cons ⟨hkept, rfl⟩ (Run.nil _))
  exact streamRoomKeys_agree sampleStreamKeys hrun

/-- A rotation: the room gets a third key, and that is the current one. -/
def sampleRotation : List RoomCall :=
  [sampleJoin (sampleRoomInfo [1] [1, 2] 1), sampleNotify (sampleRoomInfo [1] [1, 2, 3] 3)]

/-- After a rotation `WebRTCInterface` still encrypts with the old key, and the encryptor
does not have the new one. -/
theorem streamRoomKeys_not_agree :
    Run (Step sampleStreamKeys) .initial sampleRotation
        (after sampleStreamKeys sampleRotation) ∧
      ∃ room, (after sampleStreamKeys sampleRotation).streamRoomMap.lookup [1] = some room ∧
        room.webRtcKeys.filter (·.type = .LOCAL) = [⟨[1], [1], .LOCAL⟩] ∧
        sampleStreamKeys.localKey room.latest room.latest.keyId = .ok ⟨[3], [3], .LOCAL⟩ ∧
        room.messageEncryptor.keys.find? (·.keyId = [3]) = none ∧
        ¬ room.Agrees sampleStreamKeys := by
  refine ⟨run_after _ _, _, rfl, rfl, rfl, rfl, fun h => ?_⟩
  obtain ⟨key, hlatest, hwebRtc, -⟩ := h.current
  obtain rfl := Except.ok.inj hlatest
  exact absurd hwebRtc (by decide)

end RoomCall

end Stream

end PrivmxEndpoint
