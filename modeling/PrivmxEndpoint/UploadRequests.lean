import PrivmxEndpoint.ChunkStreamer

/-!
# The requests of an upload

A `sendChunk` call that fails stores nothing on the server.  What is encrypted is only
ever appended to the second stream, so what the server holds and what still waits there
are one sequence (`Upload.sequence`): `Upload.flushed` and `Upload.lastStored` move bytes
from its second part to its first, and `Upload.prepared` appends a chunk.  Each member
function of the streamer is described by these, once for requests that do not fail and
once for a first request that fails.
-/

namespace PrivmxEndpoint

open Word Splice Blocks Throwing

/-- The server of an upload: the declared sizes, the stored chunks, the commits, and
how many `sendChunk` calls there were. -/
structure UploadServer where
  declared : List FileDefinition
  chunks : List ChunkModel
  commits : List CommitFileModel
  sends : Nat
  deriving Repr, DecidableEq

/-- The stored data. -/
def UploadServer.data (s : UploadServer) : Bytes :=
  s.chunks.flatMap (·.data)

/-- A transport that loses the `sendChunk` calls with some numbers, and a server that
accepts some of the commits. -/
structure Transport where
  requestId : String
  fails : Nat → Bool
  accepts : UploadServer → CommitFileModel → Bool

/-- The requests over such a transport. -/
def Transport.api (N : Transport) : RequestApi UploadServer where
  createRequest model s := (.ok N.requestId, { s with declared := s.declared ++ [model.file] })
  sendChunk model s :=
    if N.fails s.sends then
      (.error (.server 0), { s with sends := s.sends + 1 })
    else
      (.ok (), { s with sends := s.sends + 1, chunks := s.chunks ++ [model] })
  commitFile model s :=
    if N.accepts s model then
      (.ok (), { s with commits := s.commits ++ [model] })
    else
      (.error (.server 0), s)

namespace Upload

variable {N : Transport} {u : Upload UploadServer}

/-- The encrypted bytes that wait to be sent. -/
def buffer (u : Upload UploadServer) : Bytes :=
  u.streamer.chunkBufferedStream.buf

/-- The size of a full request. -/
def requestSize (u : Upload UploadServer) : Nat :=
  u.streamer.chunkBufferedStream.chunkSize

/-- What the server holds, and what waits to be sent. -/
def sequence (u : Upload UploadServer) : Bytes :=
  u.requests.data ++ u.buffer

/-- A `sendChunk` call fails. -/
def lost (u : Upload UploadServer) : Upload UploadServer :=
  { u with requests := { u.requests with sends := u.requests.sends + 1 } }

/-- A `sendChunk` call stores its data. -/
def stored (u : Upload UploadServer) (data : Bytes) : Upload UploadServer :=
  { u with
    streamer := { u.streamer with serverSeq := u64 (u.streamer.serverSeq + 1) }
    requests := { u.requests with
      sends := u.requests.sends + 1
      chunks := u.requests.chunks ++
        [{ requestId := u.streamer.requestId
           fileIndex := u.streamer.fileIndex
           seq := u.streamer.serverSeq
           data := data }] } }

/-- Several calls in order. -/
def storedAll (u : Upload UploadServer) (pieces : List Bytes) : Upload UploadServer :=
  pieces.foldl stored u

/-- The bytes that wait are replaced. -/
def setBuffer (u : Upload UploadServer) (buf : Bytes) : Upload UploadServer :=
  { u with
    streamer := { u.streamer with
      chunkBufferedStream := u.streamer.chunkBufferedStream.setBuf buf } }

/-- All full requests have been stored. -/
def flushed (u : Upload UploadServer) : Upload UploadServer :=
  let n := u.buffer.length / u.requestSize
  (u.storedAll ((List.range' 0 n).map (block u.requestSize u.buffer))).setBuffer
    (u.buffer.drop (n * u.requestSize))

/-- The last request, which may be short, has been stored. -/
def lastStored (u : Upload UploadServer) : Upload UploadServer :=
  if u.buffer = [] then u else (u.setBuffer []).stored u.buffer

/-- The buffer is counted right. -/
abbrev Buffered (u : Upload UploadServer) : Prop :=
  u.streamer.chunkBufferedStream.Counted

/-- The buffer is already what it is. -/
theorem setBuffer_self (h : u.Buffered) : u.setBuffer u.buffer = u := by
  unfold setBuffer buffer
  rw [h.setBuf_self]

/-- What storing some pieces changes. -/
theorem storedAll_eq (u : Upload UploadServer) (pieces : List Bytes) :
    ∃ seq chunks, u.storedAll pieces =
        { u with
          streamer := { u.streamer with serverSeq := seq }
          requests := { u.requests with
            sends := u.requests.sends + pieces.length
            chunks := u.requests.chunks ++ chunks } } ∧
      chunks.map (·.data) = pieces := by
  induction pieces generalizing u with
  | nil => exact ⟨u.streamer.serverSeq, [], by simp [storedAll], rfl⟩
  | cons data pieces ih =>
      obtain ⟨seq, chunks, heq, hdata⟩ := ih (u.stored data)
      have hfold : u.storedAll (data :: pieces) = (u.stored data).storedAll pieces := rfl
      refine ⟨seq,
        { requestId := u.streamer.requestId
          fileIndex := u.streamer.fileIndex
          seq := u.streamer.serverSeq
          data := data } :: chunks, ?_, by rw [List.map_cons, hdata]⟩
      rw [hfold, heq]
      simp only [stored, List.length_cons, List.append_assoc, List.singleton_append]
      congr 2
      omega

end Upload

/-- A request that does not fail stores its data, and one that fails loses it. -/
theorem exec_sendChunkToServer (N : Transport) (data : Bytes) (u : Upload UploadServer) :
    exec (ChunkStreamer.sendChunkToServer N.api data) u =
      if N.fails u.requests.sends then (.error (.server 0), u.lost) else (.ok (), u.stored data) := by
  unfold ChunkStreamer.sendChunkToServer
  rw [exec_get_bind, exec_bind]
  cases hfails : N.fails u.requests.sends with
  | true =>
      have hrequest : ∀ m, exec (request (N.api.sendChunk m)) u = (.error (.server 0), u.lost) := by
        intro m
        show ((N.api.sendChunk m u.requests).1, _) = _
        simp only [Transport.api, hfails, if_true]
        rfl
      rw [hrequest]
      rfl
  | false =>
      have hrequest : ∀ m, exec (request (N.api.sendChunk m)) u =
          (.ok (), { u with
            requests := { u.requests with
              sends := u.requests.sends + 1
              chunks := u.requests.chunks ++ [m] } }) := by
        intro m
        show ((N.api.sendChunk m u.requests).1, _) = _
        simp only [Transport.api, hfails, Bool.false_eq_true, if_false]
      rw [hrequest]
      rfl

/-- The full requests from some index on, if none of them fails. -/
theorem exec_sendFullChunks {N : Transport} {u : Upload UploadServer} (hbuf : u.Buffered)
    {k i : Nat} (hle : (i + k) * u.requestSize ≤ u.buffer.length)
    (hok : ∀ j < k, N.fails (u.requests.sends + j) = false) :
    exec (ChunkStreamer.sendFullChunks N.api k i) u =
      (.ok (), u.storedAll ((List.range' i k).map (block u.requestSize u.buffer))) := by
  induction k generalizing i u with
  | zero => rfl
  | succ k ih =>
      have hstart : i * u.requestSize ≤ u.buffer.length :=
        le_trans (Nat.mul_le_mul_right _ (by omega)) hle
      have hpiece : u.streamer.chunkBufferedStream.getFullChunk i =
          .ok (block u.requestSize u.buffer i) := hbuf.getFullChunk hstart
      have hfirst := hok 0 (Nat.succ_pos k)
      have hsends : ∀ j, (u.stored (block u.requestSize u.buffer i)).requests.sends + j =
          u.requests.sends + (j + 1) := by
        intro j
        show u.requests.sends + 1 + j = _
        omega
      have hrest := ih (u := u.stored (block u.requestSize u.buffer i)) (i := i + 1)
        hbuf (le_trans (Nat.mul_le_mul_right _ (by omega)) hle)
        (fun j hj => by
          rw [hsends]
          exact hok (j + 1) (by omega))
      rw [ChunkStreamer.sendFullChunks, exec_get_bind, hpiece, exec_lift_ok_bind, exec_bind,
        exec_sendChunkToServer, if_neg (by rw [← Nat.add_zero u.requests.sends, hfirst]; simp)]
      show exec (ChunkStreamer.sendFullChunks N.api k (i + 1)) _ = _
      rw [hrest, List.range'_succ, List.map_cons]
      rfl

/-- The first of several full requests fails. -/
theorem exec_sendFullChunks_lost {N : Transport} {u : Upload UploadServer} {k : Nat} (hk : 0 < k)
    (hfails : N.fails u.requests.sends = true) :
    exec (ChunkStreamer.sendFullChunks N.api k 0) u = (.error (.server 0), u.lost) := by
  obtain ⟨k, rfl⟩ : ∃ j, k = j + 1 := ⟨k - 1, by omega⟩
  have hpiece : ∃ data, u.streamer.chunkBufferedStream.getFullChunk 0 = .ok data := by
    refine ⟨_, substr_of_le _ ?_⟩
    rw [Nat.mul_zero]
    exact Nat.zero_le _
  obtain ⟨data, hpiece⟩ := hpiece
  rw [ChunkStreamer.sendFullChunks, exec_get_bind, hpiece, exec_lift_ok_bind, exec_bind,
    exec_sendChunkToServer, if_pos hfails]

namespace Upload

variable {N : Transport} {u : Upload UploadServer}

/-- The number of full requests, once some more bytes wait. -/
def fullRequests (u : Upload UploadServer) (more : Nat) : Nat :=
  (u.buffer.length + more) / u.requestSize

/-- The full requests do not take more than the buffer has. -/
theorem fullRequests_mul_le (u : Upload UploadServer) :
    u.fullRequests 0 * u.requestSize ≤ u.buffer.length :=
  Nat.div_mul_le_self _ _

/-- What a flush changes. -/
theorem flushed_eq (u : Upload UploadServer) :
    ∃ seq chunks, u.flushed =
        ({ u with
          streamer := { u.streamer with serverSeq := seq }
          requests := { u.requests with
            sends := u.requests.sends + u.fullRequests 0
            chunks := u.requests.chunks ++ chunks } } : Upload UploadServer).setBuffer
          (u.buffer.drop (u.fullRequests 0 * u.requestSize)) ∧
      chunks.map (·.data) =
        (List.range' 0 (u.fullRequests 0)).map (block u.requestSize u.buffer) := by
  obtain ⟨seq, chunks, heq, hdata⟩ := u.storedAll_eq
    ((List.range' 0 (u.fullRequests 0)).map (block u.requestSize u.buffer))
  refine ⟨seq, chunks, ?_, hdata⟩
  rw [List.length_map, List.length_range'] at heq
  have hflushed : u.flushed = (u.storedAll ((List.range' 0 (u.fullRequests 0)).map
      (block u.requestSize u.buffer))).setBuffer
        (u.buffer.drop (u.fullRequests 0 * u.requestSize)) := rfl
  rw [hflushed, heq]

/-- The pieces that a flush sends are the beginning of the buffer. -/
theorem flatten_pieces (u : Upload UploadServer) :
    ((List.range' 0 (u.fullRequests 0)).map (block u.requestSize u.buffer)).flatten =
      u.buffer.take (u.fullRequests 0 * u.requestSize) := by
  rw [← List.flatMap_def]
  show join _ 0 _ = _
  rw [join_block]
  simp [slice]

/-- The rest of the buffer stays behind the full requests. -/
theorem buffer_flushed (u : Upload UploadServer) :
    u.flushed.buffer = u.buffer.drop (u.fullRequests 0 * u.requestSize) := by
  obtain ⟨seq, chunks, heq, -⟩ := u.flushed_eq
  rw [heq]
  rfl

/-- That is less than a request. -/
theorem length_buffer_flushed (u : Upload UploadServer) :
    u.flushed.buffer.length = u.buffer.length % u.requestSize := by
  have hdm := Nat.div_add_mod u.buffer.length u.requestSize
  rw [buffer_flushed, List.length_drop, fullRequests, Nat.add_zero, Nat.mul_comm]
  omega

/-- The size of the requests stays. -/
theorem requestSize_flushed (u : Upload UploadServer) : u.flushed.requestSize = u.requestSize := by
  obtain ⟨seq, chunks, heq, -⟩ := u.flushed_eq
  rw [heq]
  rfl

/-- Each full request is sent once. -/
theorem sends_flushed (u : Upload UploadServer) :
    u.flushed.requests.sends = u.requests.sends + u.fullRequests 0 := by
  obtain ⟨seq, chunks, heq, -⟩ := u.flushed_eq
  rw [heq]
  rfl

/-- A flush only moves bytes to the server. -/
theorem sequence_flushed (u : Upload UploadServer) : u.flushed.sequence = u.sequence := by
  obtain ⟨seq, chunks, heq, hdata⟩ := u.flushed_eq
  have hsplit := List.take_append_drop (u.fullRequests 0 * u.requestSize) u.buffer
  have hchunks : chunks.flatMap (·.data) =
      u.buffer.take (u.fullRequests 0 * u.requestSize) := by
    rw [List.flatMap_def, hdata, flatten_pieces]
  unfold sequence
  rw [buffer_flushed, heq]
  show (u.requests.chunks ++ chunks).flatMap (·.data) ++ _ = _
  rw [List.flatMap_append, hchunks, List.append_assoc, hsplit]
  rfl

/-- The buffer stays within its bounds when it is flushed. -/
theorem Buffered.flushed (h : u.Buffered) : u.flushed.Buffered := by
  obtain ⟨seq, chunks, heq, -⟩ := u.flushed_eq
  rw [heq]
  refine h.setBuf (lt_of_le_of_lt ?_ h.length_lt)
  rw [List.length_drop]
  exact Nat.sub_le _ _

/-- What is stored does not change the stream of the plain text. -/
theorem stream_storedAll (u : Upload UploadServer) (pieces : List Bytes) :
    (u.storedAll pieces).streamer.chunkBufferedStream = u.streamer.chunkBufferedStream := by
  obtain ⟨seq, chunks, heq, -⟩ := u.storedAll_eq pieces
  rw [heq]

/-- No request fails while so many more bytes are encrypted and sent. -/
def Quiet (N : Transport) (u : Upload UploadServer) (more : Nat) : Prop :=
  ∀ j < u.fullRequests more, N.fails (u.requests.sends + j) = false

instance (N : Transport) (u : Upload UploadServer) (more : Nat) : Decidable (u.Quiet N more) :=
  inferInstanceAs (Decidable (∀ j < u.fullRequests more, N.fails (u.requests.sends + j) = false))

end Upload

/-- All full requests are sent. -/
theorem exec_sendFullChunksWhileCollected {N : Transport} {u : Upload UploadServer}
    (hbuf : u.Buffered) (hquiet : u.Quiet N 0) :
    exec (ChunkStreamer.sendFullChunksWhileCollected N.api) u = (.ok (), u.flushed) := by
  have hsent := exec_sendFullChunks hbuf (N := N) (k := u.fullRequests 0) (i := 0)
    (by rw [Nat.zero_add]; exact u.fullRequests_mul_le) hquiet
  unfold ChunkStreamer.sendFullChunksWhileCollected
  rw [exec_get_bind, exec_bind]
  have hcount : u.streamer.chunkBufferedStream.getNumberOfFullChunks = u.fullRequests 0 :=
    hbuf.getNumberOfFullChunks
  simp only [hcount, hsent]
  rcases Nat.eq_zero_or_pos (u.fullRequests 0) with hzero | hpos
  · have hflushed : u.flushed = u := by
      have hnone : u.buffer.length / u.requestSize = 0 := hzero
      unfold Upload.flushed
      simp only [hnone, Nat.zero_mul, List.drop_zero]
      exact Upload.setBuffer_self hbuf
    rw [hzero, if_neg (Nat.lt_irrefl 0), hflushed]
    rfl
  · have hfree : (u.storedAll ((List.range' 0 (u.fullRequests 0)).map
        (block u.requestSize u.buffer))).streamer.chunkBufferedStream.freeFullChunks =
          .ok ((u.storedAll ((List.range' 0 (u.fullRequests 0)).map
            (block u.requestSize u.buffer))).streamer.chunkBufferedStream.setBuf
              (u.buffer.drop (u.fullRequests 0 * u.requestSize))) := by
      rw [Upload.stream_storedAll]
      exact hbuf.freeFullChunks
    rw [if_pos hpos, exec_get_bind, hfree, exec_lift_ok_bind]
    rfl

/-- The first of the full requests fails. -/
theorem exec_sendFullChunksWhileCollected_lost {N : Transport} {u : Upload UploadServer}
    (hbuf : u.Buffered) (hpos : 0 < u.fullRequests 0) (hfails : N.fails u.requests.sends = true) :
    exec (ChunkStreamer.sendFullChunksWhileCollected N.api) u = (.error (.server 0), u.lost) := by
  have hcount : u.streamer.chunkBufferedStream.getNumberOfFullChunks = u.fullRequests 0 :=
    hbuf.getNumberOfFullChunks
  have hsent := exec_sendFullChunks_lost (N := N) hpos hfails
  unfold ChunkStreamer.sendFullChunksWhileCollected
  rw [exec_get_bind, exec_bind]
  simp only [hcount, hsent]

/-- The request with the rest, if there is a rest. -/
theorem exec_sendLastChunkIfNonEmpty {N : Transport} {u : Upload UploadServer}
    (hbuf : u.Buffered) (hshort : u.buffer.length < u.requestSize)
    (hok : u.buffer ≠ [] → N.fails u.requests.sends = false) :
    exec (ChunkStreamer.sendLastChunkIfNonEmpty N.api) u = (.ok (), u.lastStored) := by
  unfold ChunkStreamer.sendLastChunkIfNonEmpty Upload.lastStored
  rw [exec_get_bind]
  by_cases hempty : u.buffer = []
  · have hnone : u.streamer.chunkBufferedStream.isEmpty = true := hbuf.isEmpty.mpr hempty
    rw [if_pos hempty, if_neg (not_not.mpr hnone)]
    rfl
  · have hsome : ¬ u.streamer.chunkBufferedStream.isEmpty = true :=
      fun h => hempty (hbuf.isEmpty.mp h)
    have hfails : N.fails (u.setBuffer []).requests.sends = false := hok hempty
    rw [if_neg hempty, if_pos hsome, hbuf.readChunk hshort.le, exec_lift_ok_bind]
    show exec (ChunkStreamer.sendChunkToServer N.api u.buffer) (u.setBuffer []) = _
    rw [exec_sendChunkToServer, if_neg (by rw [hfails]; simp)]

namespace Upload

variable {C : Primitives} {N : Transport} {ivs : Nat → Iv} {u : Upload UploadServer}

/-- The commit of what the streamer has counted. -/
def commitModel (u : Upload UploadServer) : CommitFileModel where
  requestId := u.streamer.requestId
  fileIndex := u.streamer.fileIndex
  seq := u.streamer.serverSeq
  checksum := u.streamer.checksums

/-- The server has accepted the commit. -/
def committed (u : Upload UploadServer) : Upload UploadServer :=
  { u with requests := { u.requests with commits := u.requests.commits ++ [u.commitModel] } }

/-- A chunk has been encrypted. -/
def prepared (C : Primitives) (ivs : Nat → Iv) (u : Upload UploadServer) (data : Bytes) :
    Upload UploadServer :=
  let encrypted := u.streamer.prepareChunk C data (ivs u.draws)
  { u with
    draws := u.draws + 1
    streamer := { u.streamer with
      checksums := u.streamer.checksums ++ encrypted.hmac
      chunkBufferedStream :=
        { u.streamer.chunkBufferedStream.setBuf (u.buffer ++ encrypted.data) with
          totalDataSize :=
            u64 (u.streamer.chunkBufferedStream.totalDataSize + encrypted.data.length) } } }

/-- A chunk has been counted. -/
def processed (u : Upload UploadServer) (len : Nat) : Upload UploadServer :=
  { u with
    streamer := { u.streamer with
      dataProcessed := u64 (u.streamer.dataProcessed + len)
      seq := u32 (u.streamer.seq + 1) } }

/-- An encrypted chunk has the length that is computed for it. -/
theorem length_prepareChunk (s : ChunkStreamer) (data : Bytes) (iv : Iv) :
    (s.prepareChunk C data iv).data.length = encLen data.length :=
  ChunkEncryptor.length_encrypt_data (e := { key := s.key, chunkSize := s.chunkSize }) _ _ _

/-- It is put behind what the buffer has. -/
theorem length_buffer_prepared (data : Bytes) :
    (u.prepared C ivs data).buffer.length = u.buffer.length + encLen data.length := by
  show (u.buffer ++ _).length = _
  rw [List.length_append, length_prepareChunk]

/-- The requests that will be full are those with the chunk counted in. -/
theorem fullRequests_prepared (data : Bytes) (more : Nat) :
    (u.prepared C ivs data).fullRequests more = u.fullRequests (encLen data.length + more) := by
  unfold fullRequests
  rw [length_buffer_prepared, Nat.add_assoc]
  rfl

/-- What is sent at once need not be sent later. -/
theorem fullRequests_flushed (h : u.Buffered) (more : Nat) :
    u.fullRequests more = u.fullRequests 0 + u.flushed.fullRequests more := by
  have hpos : 0 < u.requestSize := h.chunkSize_pos
  have hdm := Nat.div_add_mod u.buffer.length u.requestSize
  have hsplit : u.buffer.length + more =
      u.buffer.length % u.requestSize + more + u.requestSize * (u.buffer.length / u.requestSize) := by
    omega
  unfold fullRequests
  rw [length_buffer_flushed, requestSize_flushed, hsplit, Nat.add_mul_div_left _ _ hpos,
    Nat.add_comm, Nat.add_zero]

/-- Fewer requests do not fail either. -/
theorem Quiet.mono {m n : Nat} (hquiet : u.Quiet N n) (h : m ≤ n) : u.Quiet N m :=
  fun j hj => hquiet j (lt_of_lt_of_le hj (Nat.div_le_div_right (Nat.add_le_add_left h _)))

/-- Behind a flush the remaining requests do not fail. -/
theorem Quiet.flushed (h : u.Buffered) {more : Nat} (hquiet : u.Quiet N more) :
    u.flushed.Quiet N more := by
  intro j hj
  rw [sends_flushed, Nat.add_assoc]
  apply hquiet
  rw [fullRequests_flushed h more]
  omega

/-- So it is with a chunk that is put into the buffer. -/
theorem Quiet.prepared {data : Bytes} {more : Nat}
    (hquiet : u.Quiet N (encLen data.length + more)) : (u.prepared C ivs data).Quiet N more := by
  intro j hj
  rw [fullRequests_prepared] at hj
  exact hquiet j hj

/-- The buffer has room for the chunk. -/
theorem Buffered.prepared (h : u.Buffered) {data : Bytes}
    (hroom : u.buffer.length + encLen data.length < 2 ^ 64) : (u.prepared C ivs data).Buffered where
  chunkSize_pos := h.chunkSize_pos
  bufSize_eq := rfl
  length_lt := by
    have hlength : (u.prepared C ivs data).buffer.length = u.buffer.length + encLen data.length :=
      length_buffer_prepared data
    rw [← hlength] at hroom
    exact hroom

end Upload

/-- The server accepts what is committed, or it throws. -/
theorem exec_request_commitFile (N : Transport) (u : Upload UploadServer) :
    exec (request (N.api.commitFile u.commitModel)) u =
      if N.accepts u.requests u.commitModel then (.ok (), u.committed)
      else (.error (.server 0), u) := by
  have hcall : N.api.commitFile u.commitModel u.requests =
      if N.accepts u.requests u.commitModel then
        (.ok (), { u.requests with commits := u.requests.commits ++ [u.commitModel] })
      else (.error (.server 0), u.requests) := rfl
  show ((N.api.commitFile u.commitModel u.requests).1,
    { u with requests := (N.api.commitFile u.commitModel u.requests).2 }) = _
  rw [hcall]
  split <;> rfl

/-- The commit after all requests. -/
theorem exec_commitFile {N : Transport} {u : Upload UploadServer} (hbuf : u.Buffered)
    (hquiet : u.Quiet N 0)
    (hlast : u.flushed.buffer ≠ [] → N.fails u.flushed.requests.sends = false) :
    exec (ChunkStreamer.commitFile N.api) u =
      if N.accepts u.flushed.lastStored.requests u.flushed.lastStored.commitModel then
        (.ok (), u.flushed.lastStored.committed)
      else
        (.error (.server 0), u.flushed.lastStored) := by
  have hshort : u.flushed.buffer.length < u.flushed.requestSize := by
    rw [Upload.length_buffer_flushed, Upload.requestSize_flushed]
    exact Nat.mod_lt _ hbuf.chunkSize_pos
  unfold ChunkStreamer.commitFile
  rw [exec_bind, exec_sendFullChunksWhileCollected hbuf hquiet]
  dsimp only
  rw [exec_bind, exec_sendLastChunkIfNonEmpty hbuf.flushed hshort hlast]
  dsimp only
  rw [exec_get_bind]
  exact exec_request_commitFile N _

/-- The first request of a commit fails. -/
theorem exec_commitFile_lost {N : Transport} {u : Upload UploadServer} (hbuf : u.Buffered)
    (hpos : 0 < u.fullRequests 0) (hfails : N.fails u.requests.sends = true) :
    exec (ChunkStreamer.commitFile N.api) u = (.error (.server 0), u.lost) := by
  unfold ChunkStreamer.commitFile
  rw [exec_bind, exec_sendFullChunksWhileCollected_lost hbuf hpos hfails]

section Prepare

variable {C : Primitives} {N : Transport} {ivs : Nat → Iv} {u : Upload UploadServer}
  {data : Bytes}

/-- The part of `prepareAndSendChunk` before the requests. -/
theorem exec_prepareAndSendChunk_eq (hbuf : u.Buffered)
    (hcontrol : u.streamer.chunkBufferedStream.sizeControl = false)
    (hcount : u64 (u.streamer.dataProcessed + data.length) ≤ u.streamer.fileSize)
    (hroom : u.buffer.length + encLen data.length < 2 ^ 64) :
    exec (ChunkStreamer.prepareAndSendChunk C N.api ivs data) u =
      match exec (ChunkStreamer.sendFullChunksWhileCollected N.api) (u.prepared C ivs data) with
      | (.ok _, v) => (.ok (), v.processed data.length)
      | (.error e, v) => (.error e, v) := by
  have hlength : u.buffer.length + (u.streamer.prepareChunk C data (ivs u.draws)).data.length <
      2 ^ 64 := by
    rw [Upload.length_prepareChunk]
    exact hroom
  have hwrite := hbuf.write (fun h => by rw [hcontrol] at h; cases h) hlength
  unfold ChunkStreamer.prepareAndSendChunk
  rw [exec_get_bind, if_neg (Nat.not_lt.mpr hcount)]
  dsimp only
  rw [exec_modify_bind]
  unfold modifyStreamer
  rw [exec_modify_bind, hwrite, exec_lift_ok_bind, exec_modify_bind]
  show exec (ChunkStreamer.sendFullChunksWhileCollected N.api >>= _) (u.prepared C ivs data) = _
  rw [exec_bind]
  cases hsent : exec (ChunkStreamer.sendFullChunksWhileCollected N.api) (u.prepared C ivs data) with
  | mk result v => cases result <;> rfl

/-- **One chunk.** It is encrypted, put into the buffer, and sent as far as requests are full.
-/
theorem exec_prepareAndSendChunk (hbuf : u.Buffered)
    (hcontrol : u.streamer.chunkBufferedStream.sizeControl = false)
    (hcount : u64 (u.streamer.dataProcessed + data.length) ≤ u.streamer.fileSize)
    (hroom : u.buffer.length + encLen data.length < 2 ^ 64)
    (hquiet : u.Quiet N (encLen data.length)) :
    exec (ChunkStreamer.prepareAndSendChunk C N.api ivs data) u =
      (.ok (), (u.prepared C ivs data).flushed.processed data.length) := by
  have hnow : (u.prepared C ivs data).Quiet N 0 := Upload.Quiet.prepared hquiet
  rw [exec_prepareAndSendChunk_eq hbuf hcontrol hcount hroom,
    exec_sendFullChunksWhileCollected (hbuf.prepared hroom) hnow]

/-- The chunk stays encrypted in the stream, and it has not been counted. -/
theorem exec_prepareAndSendChunk_lost (hbuf : u.Buffered)
    (hcontrol : u.streamer.chunkBufferedStream.sizeControl = false)
    (hcount : u64 (u.streamer.dataProcessed + data.length) ≤ u.streamer.fileSize)
    (hroom : u.buffer.length + encLen data.length < 2 ^ 64)
    (hpos : 0 < u.fullRequests (encLen data.length)) (hfails : N.fails u.requests.sends = true) :
    exec (ChunkStreamer.prepareAndSendChunk C N.api ivs data) u =
      (.error (.server 0), (u.prepared C ivs data).lost) := by
  have hfull : (u.prepared C ivs data).fullRequests 0 = u.fullRequests (encLen data.length) :=
    Upload.fullRequests_prepared data 0
  rw [← hfull] at hpos
  rw [exec_prepareAndSendChunk_eq hbuf hcontrol hcount hroom,
    exec_sendFullChunksWhileCollected_lost (hbuf.prepared hroom) hpos hfails]

end Prepare

/-! ## The stored requests -/

/-- The requests are numbered from zero on. -/
structure Upload.Numbered (u : Upload UploadServer) : Prop where
  next : u.streamer.serverSeq = u64 u.requests.chunks.length
  seqs : u.requests.chunks.map (·.seq) = (List.range u.requests.chunks.length).map u64

/-- All requests have the full size. -/
def Upload.FullSized (u : Upload UploadServer) : Prop :=
  ∀ chunk ∈ u.requests.chunks, chunk.data.length = u.requestSize

namespace Upload

variable {u : Upload UploadServer}

/-- A stored piece has the next number. -/
theorem Numbered.stored (h : u.Numbered) (data : Bytes) : (u.stored data).Numbered := by
  obtain ⟨hnext, hseqs⟩ := h
  have hlength : (u.stored data).requests.chunks.length = u.requests.chunks.length + 1 := by
    simp [Upload.stored]
  constructor
  · rw [hlength]
    show u64 (u.streamer.serverSeq + 1) = _
    rw [hnext]
    exact Nat.mod_add_mod _ _ _
  · rw [hlength, List.range_succ, List.map_append, ← hseqs, List.map_singleton, ← hnext]
    exact List.map_append

/-- So have many of them. -/
theorem Numbered.storedAll (h : u.Numbered) (pieces : List Bytes) :
    (u.storedAll pieces).Numbered := by
  induction pieces generalizing u with
  | nil => exact h
  | cons data pieces ih => exact ih (h.stored data)

/-- So have those of a flush. -/
theorem Numbered.flushed (h : u.Numbered) : u.flushed.Numbered :=
  ⟨(h.storedAll _).next, (h.storedAll _).seqs⟩

/-- So has the last one. -/
theorem Numbered.lastStored (h : u.Numbered) : u.lastStored.Numbered := by
  unfold Upload.lastStored
  by_cases hempty : u.buffer = []
  · rw [if_pos hempty]
    exact h
  · have hset : (u.setBuffer []).Numbered := ⟨h.next, h.seqs⟩
    rw [if_neg hempty]
    exact hset.stored _

/-- A flush stores full requests. -/
theorem FullSized.flushed (h : u.FullSized) : u.flushed.FullSized := by
  obtain ⟨seq, chunks, heq, hdata⟩ := u.flushed_eq
  intro chunk hchunk
  rw [requestSize_flushed]
  rw [heq] at hchunk
  rcases List.mem_append.mp hchunk with hold | hnew
  · exact h chunk hold
  · have hmem : chunk.data ∈
        (List.range' 0 (u.fullRequests 0)).map (block u.requestSize u.buffer) := by
      rw [← hdata]
      exact List.mem_map_of_mem hnew
    obtain ⟨j, hj, hblock⟩ := List.mem_map.mp hmem
    rw [List.mem_range'_1] at hj
    rw [← hblock]
    exact length_block_full
      (le_trans (Nat.mul_le_mul_right _ (by omega)) u.fullRequests_mul_le)

/-- With the last request the buffer is empty. -/
theorem buffer_lastStored (u : Upload UploadServer) : u.lastStored.buffer = [] := by
  unfold lastStored
  by_cases hempty : u.buffer = []
  · rw [if_pos hempty, hempty]
  · rw [if_neg hempty]
    rfl

/-- The data that was handed over is what it was. -/
theorem sequence_lastStored (u : Upload UploadServer) : u.lastStored.sequence = u.sequence := by
  unfold lastStored
  by_cases hempty : u.buffer = []
  · rw [if_pos hempty]
  · rw [if_neg hempty]
    show (u.requests.chunks ++ [_]).flatMap ChunkModel.data ++ [] = _
    rw [List.flatMap_append, List.append_nil]
    simp [sequence, UploadServer.data]

/-- The last request alone may be short. -/
theorem FullSized.lastStored (h : u.FullSized) :
    ∀ chunk ∈ u.lastStored.requests.chunks.dropLast, chunk.data.length = u.requestSize := by
  intro chunk hchunk
  unfold Upload.lastStored at hchunk
  by_cases hempty : u.buffer = []
  · rw [if_pos hempty] at hchunk
    exact h chunk (List.mem_of_mem_dropLast hchunk)
  · rw [if_neg hempty] at hchunk
    have hold : (((u.setBuffer []).stored u.buffer).requests.chunks).dropLast =
        u.requests.chunks := List.dropLast_concat
    rw [hold] at hchunk
    exact h chunk hchunk

end Upload

end PrivmxEndpoint
