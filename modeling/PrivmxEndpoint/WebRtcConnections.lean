import PrivmxEndpoint.DataChannel

/-!
# Peer connections of a stream room

`WebRTCImpl` keeps two peer connections for a stream room, one for what is published and one
for what is received.  Every track that is sent or received has a frame cryptor with a key
store.  `updateKeys` gives new keys to both connections and then to the frame cryptors that
it finds in their maps.

The calls come from the threads of the application and from the one that handles the
notifications.  What a call does under one lock is a step of its thread, and the steps of
the threads alternate in any order.

The callbacks of the library take none of these locks.  `OnAddTrack` makes the frame cryptor
of a receiver with the current keys of the observer, and puts it into the observer's map
afterwards; anything can happen in between.  `UpdateCurrentKeys` is one step all the same: a
frame cryptor that is made between the change of the current keys and the walk over the map
has the new keys already, and one that gets into the map there is given them.
-/

namespace PrivmxEndpoint

open Runs

namespace Stream

/-- `webrtc::KeyStore`, by the keys that it was created from. -/
abbrev KeyStore := List Key

inductive TrackKind
  | audio
  | video
  deriving Repr, DecidableEq

/-- `ConnectionType`. -/
inductive ConnectionType
  | Subscriber
  | Publisher
  deriving Repr, DecidableEq

/-- A sender of `pc`, with the key store of the frame cryptor that was made for it. -/
structure RtpSender where
  number : ℕ
  keys : Option KeyStore
  deriving Repr, DecidableEq

/-- `PeerConnection`.  The maps `audioTracks` and `videoTracks` lead to the senders. -/
structure PeerConnection where
  /-- `pc` is no null pointer. -/
  hasPc : Bool
  senders : List RtpSender
  made : ℕ
  tracks : TrackKind → List (Bytes × ℕ)
  keys : Option KeyStore
  /-- `_currentKeys` of the observer. -/
  currentKeys : KeyStore
  /-- `_frameCryptors` of the observer. -/
  frameCryptors : List (Bytes × KeyStore)
  /-- Frame cryptors that `OnAddTrack` has made and that are on the way to the map. -/
  receiving : List (Bytes × KeyStore)

/-- What a thread does next. -/
inductive WebRtcAction
  | addTrack (connection : ℕ) (kind : TrackKind) (id : Bytes)
  /-- The track gets into its map. -/
  | insertTrack (connection : ℕ) (kind : TrackKind) (id : Bytes) (sender : ℕ)
  | removeTrack (connection : ℕ) (kind : TrackKind) (id : Bytes)
  /-- The first part of `updateKeys`. -/
  | setKeys (publisher subscriber : ℕ) (keys : KeyStore)
  /-- The second part of `updateKeys`. -/
  | applyKeys (publisher subscriber : ℕ)
  deriving Repr, DecidableEq

/-- The connections of a room, and the threads with what they have still to do. -/
structure WebRtcRoom where
  connections : ℕ → PeerConnection
  opened : ℕ
  publisher : Option ℕ
  subscriber : Option ℕ
  threads : List (List WebRtcAction)

/-- The functions of `WebRTCImpl`.  The last stands for those that only look for a
connection. -/
inductive WebRtcCall
  | createPeerConnectionWithLocalStream (audioTracks videoTracks : List Bytes)
  | updatePeerConnectionWithLocalStream
      (audioTracksToAdd videoTracksToAdd audioTracksToRemove videoTracksToRemove : List Bytes)
  | updateKeys (keys : List Key)
  | closeSingleConnection (connectionType : ConnectionType)
  | close
  | getConnectionWithSession (connectionType : ConnectionType)
  deriving Repr, DecidableEq

/-- What happens next. -/
inductive WebRtcEvent
  | call (call : WebRtcCall)
  | run (thread : ℕ) (action : WebRtcAction)
  | onAddTrack (connection : ℕ) (track : Bytes)
  /-- The second part of `OnAddTrack`. -/
  | insertReceiver (connection : ℕ) (receiver : Bytes × KeyStore)
  | onRemoveTrack (connection : ℕ) (track : Bytes)
  deriving Repr, DecidableEq

/-! ## One connection -/

namespace PeerConnection

/-- `WebRTCImpl::createPeerConnection`. -/
def create : PeerConnection where
  hasPc := true
  senders := []
  made := 0
  tracks _ := []
  keys := none
  currentKeys := []
  frameCryptors := []
  receiving := []

/-- `AddAudioTrack` and `AddVideoTrack` up to the frame cryptor. -/
def addSender (c : PeerConnection) : PeerConnection :=
  { c with senders := c.senders ++ [⟨c.made, c.keys⟩], made := c.made + 1 }

/-- The `insert` of a track into its map, which keeps an entry that is there. -/
def insertTrack (c : PeerConnection) (kind : TrackKind) (id : Bytes) (sender : ℕ) :
    PeerConnection :=
  if ((c.tracks kind).lookup id).isSome then c
  else { c with tracks := Function.update c.tracks kind ((id, sender) :: c.tracks kind) }

/-- `RemoveAudioTrack` and `RemoveVideoTrack`, of a track that is found. -/
def removeTrack (c : PeerConnection) (kind : TrackKind) (id : Bytes) (sender : ℕ) :
    PeerConnection :=
  { c with
    senders := c.senders.filter fun s => s.number ≠ sender
    tracks := Function.update c.tracks kind ((c.tracks kind).filter fun entry => entry.1 ≠ id) }

/-- A sender is in one of the maps. -/
def hasTrack (c : PeerConnection) (sender : ℕ) : Bool :=
  ((c.tracks .audio ++ c.tracks .video).map Prod.snd).contains sender

/-- The keys of the connection and of the observer, `UpdateCurrentKeys` included. -/
def setKeys (c : PeerConnection) (keys : KeyStore) : PeerConnection :=
  { c with
    keys := some keys
    currentKeys := keys
    frameCryptors := c.frameCryptors.map fun entry => (entry.1, keys) }

/-- `setKeyStore` for the frame cryptors of the maps. -/
def applyKeys (c : PeerConnection) : PeerConnection :=
  { c with senders := c.senders.map fun s =>
      if c.hasTrack s.number then { s with keys := c.keys } else s }

/-- `PmxPeerConnectionObserver::OnAddTrack` up to the frame cryptor. -/
def onAddTrack (c : PeerConnection) (track : Bytes) : PeerConnection :=
  { c with receiving := (track, c.currentKeys) :: c.receiving }

/-- The frame cryptor gets into `_frameCryptors`, in place of one that is there. -/
def insertReceiver (c : PeerConnection) (receiver : Bytes × KeyStore) : PeerConnection :=
  { c with
    receiving := c.receiving.erase receiver
    frameCryptors := receiver :: c.frameCryptors.filter fun entry => entry.1 ≠ receiver.1 }

/-- `PmxPeerConnectionObserver::OnRemoveTrack`. -/
def onRemoveTrack (c : PeerConnection) (track : Bytes) : PeerConnection :=
  { c with frameCryptors := c.frameCryptors.filter fun entry => entry.1 ≠ track }

/-- `PeerConnectionManager::closeConnection`.  The senders are gone with `pc`, and the frame
cryptors of the receivers with the observer. -/
def close (c : PeerConnection) : PeerConnection :=
  { c with
    hasPc := false
    senders := []
    tracks := fun _ => []
    frameCryptors := []
    receiving := [] }

end PeerConnection

/-! ## One room -/

namespace WebRtcRoom

/-- A room without connections. -/
def initial : WebRtcRoom where
  connections _ := PeerConnection.create.close
  opened := 0
  publisher := none
  subscriber := none
  threads := []

def connection (x : WebRtcRoom) : ConnectionType → Option ℕ
  | .Publisher => x.publisher
  | .Subscriber => x.subscriber

def setConnection (x : WebRtcRoom) (connectionType : ConnectionType) (c : Option ℕ) : WebRtcRoom :=
  match connectionType with
  | .Publisher => { x with publisher := c }
  | .Subscriber => { x with subscriber := c }

def update (x : WebRtcRoom) (c : ℕ) (f : PeerConnection → PeerConnection) : WebRtcRoom :=
  { x with connections := Function.update x.connections c (f (x.connections c)) }

/-- `PeerConnectionManager::initialize`, of a connection that is not there. -/
def initializeConnection (x : WebRtcRoom) (connectionType : ConnectionType) : WebRtcRoom :=
  { x.setConnection connectionType (some x.opened) with
    connections := Function.update x.connections x.opened .create
    opened := x.opened + 1 }

/-- `PeerConnectionManager::getConnectionWithSession`. -/
def getConnectionWithSession (x : WebRtcRoom) (connectionType : ConnectionType) :
    ℕ × WebRtcRoom :=
  match x.connection connectionType with
  | some c => (c, x)
  | none => (x.opened, x.initializeConnection connectionType)

/-- `PeerConnectionManager::closeConnection`. -/
def closeConnection (x : WebRtcRoom) (connectionType : ConnectionType) : WebRtcRoom :=
  match x.connection connectionType with
  | none => x
  | some c => (x.update c .close).setConnection connectionType none

/-- A call has begun. -/
def start (x : WebRtcRoom) (actions : List WebRtcAction) : WebRtcRoom :=
  { x with threads := x.threads ++ [actions] }

/-- A call, up to its first lock. -/
def call (x : WebRtcRoom) : WebRtcCall → WebRtcRoom
  | .createPeerConnectionWithLocalStream audioTracks videoTracks =>
      let (c, x) := x.getConnectionWithSession .Publisher
      x.start (audioTracks.map (.addTrack c .audio) ++ videoTracks.map (.addTrack c .video))
  | .updatePeerConnectionWithLocalStream audioTracksToAdd videoTracksToAdd audioTracksToRemove
      videoTracksToRemove =>
      let (c, x) := x.getConnectionWithSession .Publisher
      x.start (audioTracksToRemove.map (.removeTrack c .audio) ++
        videoTracksToRemove.map (.removeTrack c .video) ++
        audioTracksToAdd.map (.addTrack c .audio) ++ videoTracksToAdd.map (.addTrack c .video))
  | .updateKeys keys =>
      let (p, x) := x.getConnectionWithSession .Publisher
      let (s, x) := x.getConnectionWithSession .Subscriber
      x.start [.setKeys p s keys, .applyKeys p s]
  | .closeSingleConnection connectionType => x.closeConnection connectionType
  | .close => (x.closeConnection .Publisher).closeConnection .Subscriber
  | .getConnectionWithSession connectionType => (x.getConnectionWithSession connectionType).2

/-- A step of a thread: the room behind it and what the thread does before the rest, or
nothing any more if it throws `IncorrectTrackIdException`.  There is no step through a null
pointer. -/
def exec (x : WebRtcRoom) : WebRtcAction → Option (WebRtcRoom × Option (List WebRtcAction))
  | .addTrack c kind id =>
      if (x.connections c).hasPc then
        some (x.update c .addSender, some [.insertTrack c kind id (x.connections c).made])
      else none
  | .insertTrack c kind id sender => some (x.update c (.insertTrack · kind id sender), some [])
  | .removeTrack c kind id =>
      match ((x.connections c).tracks kind).lookup id with
      | none => some (x, none)
      | some sender =>
          if (x.connections c).hasPc then
            some (x.update c (.removeTrack · kind id sender), some [])
          else none
  | .setKeys p s keys => some ((x.update s (.setKeys · keys)).update p (.setKeys · keys), some [])
  | .applyKeys p s => some ((x.update p .applyKeys).update s .applyKeys, some [])

/-- A thread goes on. -/
def continueThread (x : WebRtcRoom) (thread : ℕ) (rest : List WebRtcAction) :
    Option (List WebRtcAction) → WebRtcRoom
  | some first => { x with threads := x.threads.set thread (first ++ rest) }
  | none => { x with threads := x.threads.set thread [] }

/-- The steps. -/
def Step (x : WebRtcRoom) : WebRtcEvent → WebRtcRoom → Prop
  | .call call, y => y = x.call call
  | .run thread action, y =>
      ∃ rest x' next, x.threads[thread]? = some (action :: rest) ∧
        x.exec action = some (x', next) ∧ y = x'.continueThread thread rest next
  | .onAddTrack c track, y =>
      (x.connections c).hasPc = true ∧ y = x.update c (.onAddTrack · track)
  | .insertReceiver c receiver, y =>
      receiver ∈ (x.connections c).receiving ∧ y = x.update c (.insertReceiver · receiver)
  | .onRemoveTrack c track, y =>
      (x.connections c).hasPc = true ∧ y = x.update c (.onRemoveTrack · track)

end WebRtcRoom

end Stream

end PrivmxEndpoint
