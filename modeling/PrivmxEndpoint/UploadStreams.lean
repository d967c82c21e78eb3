import PrivmxEndpoint.UploadRequests

/-!
# What an upload has encrypted

`Upload.Streams` says that the first chunks of a plain text have been encrypted, each
once, and that none of their bytes is lost; `Upload.Awaits`, that the streamer knows which
chunk comes next.  A chunk of a `write` keeps both.  The encryption of the rest and the
commit keep the first, even if the first of their requests fails: `Upload.Ends` says how
`finalize` can end.
-/

namespace PrivmxEndpoint

open Word Splice Blocks Throwing

/-- What an upload is made of. -/
structure UploadParams where
  key : Bytes
  chunkSize : Nat
  fileSize : Nat
  serverRequestChunkSize : Nat
  randomWriteSupport : Bool
  deriving Repr, DecidableEq

/-- The encryptor of an upload. -/
def UploadParams.encryptor (p : UploadParams) : ChunkEncryptor where
  key := p.key
  chunkSize := p.chunkSize

/-- The chunk index is narrowed to 32 bits anyway. -/
theorem encrypt_u32 {C : Primitives} (e : ChunkEncryptor) (k : Nat) (data : Bytes) (iv : Iv) :
    e.encrypt C (u32 k) data iv = e.encrypt C k data iv := by
  have hindex : chunkIndexToBE (u32 k) = chunkIndexToBE k := by
    unfold chunkIndexToBE u32
    rw [Nat.mod_mod]
  unfold ChunkEncryptor.encrypt ivWithCipher chunkKey
  rw [hindex]

/-- The first `k` chunks of a plain text have been encrypted, each of them once. -/
structure Upload.Streams (C : Primitives) (ivs : Nat → Iv) (p : UploadParams) (T : Bytes)
    (k : Nat) (u : Upload UploadServer) : Prop where
  key_eq : u.streamer.key = p.key
  chunkSize_eq : u.streamer.chunkSize = p.chunkSize
  fileSize_eq : u.streamer.fileSize = p.fileSize
  requestSize_eq : u.requestSize = p.serverRequestChunkSize
  sizeControl_eq : u.streamer.chunkBufferedStream.sizeControl = false
  buffered : u.Buffered
  draws_eq : u.draws = k
  checksums_eq : u.streamer.checksums =
    join (fun i => (encChunk C p.encryptor T ivs i).hmac) 0 k
  sequence_eq : u.sequence = join (fun i => (encChunk C p.encryptor T ivs i).data) 0 k
  numbered : u.Numbered

/-- The streamer waits for the chunk of index `k`. -/
structure Upload.Awaits (p : UploadParams) (k : Nat) (u : Upload UploadServer) : Prop where
  seq_eq : u.streamer.seq = u32 k
  dataProcessed_eq : u.streamer.dataProcessed = k * p.chunkSize
  uploadedFileSize_eq : u.streamer.uploadedFileSize = k * p.chunkSize
  short : u.buffer.length < u.requestSize
  fullSized : u.FullSized

namespace Upload

variable {C : Primitives} {ivs : Nat → Iv} {p : UploadParams} {T : Bytes} {k : Nat}
  {u : Upload UploadServer}

/-- The chunks that have been encrypted do not change when more is written. -/
theorem Streams.append (h : u.Streams C ivs p T k) (hk : k * p.chunkSize ≤ T.length)
    (data : Bytes) : u.Streams C ivs p (T ++ data) k := by
  have hchunk : ∀ i < k, encChunk C p.encryptor T ivs i =
      encChunk C p.encryptor (T ++ data) ivs i := by
    intro i hi
    have hle : (i + 1) * p.chunkSize ≤ T.length := le_trans (Nat.mul_le_mul_right _ hi) hk
    rw [Nat.succ_mul] at hle
    have hblock : block p.chunkSize (T ++ data) i = block p.chunkSize T i :=
      slice_of_prefix (List.prefix_append T data) hle
    show p.encryptor.encrypt C i (block p.chunkSize T i) (ivs i) =
      p.encryptor.encrypt C i (block p.chunkSize (T ++ data) i) (ivs i)
    rw [hblock]
  refine { h with checksums_eq := ?_, sequence_eq := ?_ }
  · rw [h.checksums_eq]
    exact join_congr fun i _ hi => by rw [hchunk i (by omega)]
  · rw [h.sequence_eq]
    exact join_congr fun i _ hi => by rw [hchunk i (by omega)]

/-- A flush changes only what has been sent. -/
theorem Streams.flushed (h : u.Streams C ivs p T k) : u.flushed.Streams C ivs p T k := by
  have hsequence := u.sequence_flushed
  have hbuffered := h.buffered.flushed
  have hnumbered := h.numbered.flushed
  have hsize := u.requestSize_flushed
  obtain ⟨seq, chunks, heq, -⟩ := u.flushed_eq
  rw [heq] at hsequence hbuffered hnumbered hsize ⊢
  exact
    { h with
      requestSize_eq := hsize.trans h.requestSize_eq
      buffered := hbuffered
      sequence_eq := hsequence.trans h.sequence_eq
      numbered := hnumbered }

/-- A lost answer leaves what has been streamed. -/
theorem Streams.lost (h : u.Streams C ivs p T k) : u.lost.Streams C ivs p T k :=
  { h with numbered := ⟨h.numbered.next, h.numbered.seqs⟩ }

/-- So does the answer that arrives. -/
theorem Streams.lastStored (h : u.Streams C ivs p T k) : u.lastStored.Streams C ivs p T k := by
  have hsequence := u.sequence_lastStored
  have hnumbered := h.numbered.lastStored
  unfold Upload.lastStored at hsequence hnumbered ⊢
  by_cases hempty : u.buffer = []
  · rw [if_pos hempty]
    exact h
  · rw [if_neg hempty] at hsequence hnumbered ⊢
    exact
      { h with
        requestSize_eq := h.requestSize_eq
        buffered := h.buffered.setBuf (by decide)
        sequence_eq := hsequence.trans h.sequence_eq
        numbered := hnumbered }

/-- One more chunk has been encrypted. -/
theorem Streams.prepared (h : u.Streams C ivs p T k) (hseq : u.streamer.seq = u32 k)
    (hroom : u.buffer.length + encLen (block p.chunkSize T k).length < 2 ^ 64) :
    (u.prepared C ivs (block p.chunkSize T k)).Streams C ivs p T (k + 1) := by
  have hchunk : u.streamer.prepareChunk C (block p.chunkSize T k) (ivs u.draws) =
      encChunk C p.encryptor T ivs k := by
    have hencryptor : u.streamer.prepareChunk C (block p.chunkSize T k) (ivs u.draws) =
        ChunkEncryptor.encrypt C { key := u.streamer.key, chunkSize := u.streamer.chunkSize }
          u.streamer.seq (block p.chunkSize T k) (ivs u.draws) := rfl
    rw [hencryptor, h.key_eq, h.chunkSize_eq, hseq, encrypt_u32, h.draws_eq]
    rfl
  refine
    { h with
      requestSize_eq := h.requestSize_eq
      buffered := h.buffered.prepared hroom
      draws_eq := congrArg (· + 1) h.draws_eq
      checksums_eq := ?_
      sequence_eq := ?_
      numbered := ⟨h.numbered.next, h.numbered.seqs⟩ }
  · show u.streamer.checksums ++ (u.streamer.prepareChunk C _ _).hmac = _
    rw [hchunk, h.checksums_eq, join_last, Nat.zero_add]
  · show u.requests.data ++ (u.buffer ++ (u.streamer.prepareChunk C _ _).data) = _
    rw [hchunk, ← List.append_assoc, join_last, Nat.zero_add, ← h.sequence_eq]
    rfl

end Upload

/-- The sizes of an upload, which the counters of 64 bits can hold: of the file, and of
the second stream or of all that it is ever given. -/
structure UploadParams.Usable (p : UploadParams) : Prop where
  chunkSize_pos : 0 < p.chunkSize
  requestSize_pos : 0 < p.serverRequestChunkSize
  fileSize_lt : p.fileSize < 2 ^ 64
  buffer_lt : p.serverRequestChunkSize + encLen p.chunkSize ≤ 2 ^ 64 ∨
    encFileLen p.chunkSize p.fileSize < 2 ^ 64

/-- A piece behind some full ones is not behind the end of the encoded file. -/
theorem encFileLen_ge {cs len k n : Nat} (hn : 0 < n) (hle : n ≤ cs) (h : k * cs + n ≤ len) :
    k * encLen cs + encLen n ≤ encFileLen cs len := by
  have hdm := Nat.div_add_mod' len cs
  have hcs : 0 < cs := by omega
  unfold encFileLen
  rcases Nat.lt_or_ge k (len / cs) with hlt | hge
  · have hmul : (k + 1) * encLen cs ≤ len / cs * encLen cs := Nat.mul_le_mul_right _ hlt
    have hmono := encLen_mono hle
    rw [Nat.succ_mul] at hmul
    omega
  · have hk : k = len / cs := by
      have hdiv : k ≤ len / cs := (Nat.le_div_iff_mul_le hcs).mpr (by omega)
      omega
    have hrest : n ≤ len % cs := by
      rw [hk] at h
      omega
    rw [if_neg (by omega), hk]
    exact Nat.add_le_add_left (encLen_mono hrest) _

section Sending

variable {C : Primitives} {N : Transport} {ivs : Nat → Iv} {p : UploadParams} {T : Bytes}
  {k : Nat} {u : Upload UploadServer}

/-- All encrypted bytes so far. -/
theorem Upload.Streams.length_sequence (h : u.Streams C ivs p T k)
    (hk : k * p.chunkSize ≤ T.length) : u.sequence.length = k * encLen p.chunkSize := by
  rw [h.sequence_eq]
  refine length_join fun j _ hj => ?_
  have hfull : (block p.encryptor.chunkSize T j).length = p.chunkSize :=
    length_block_full (le_trans (Nat.mul_le_mul_right _ (by omega)) hk)
  rw [length_encChunk_data, hfull]

/-- The second stream has room for one more chunk. -/
theorem Upload.Streams.room (h : u.Streams C ivs p T k) (hp : p.Usable)
    (hk : k * p.chunkSize ≤ T.length) (hshort : u.buffer.length < u.requestSize) {n : Nat}
    (hn : 0 < n) (hle : n ≤ p.chunkSize) (hfits : k * p.chunkSize + n ≤ p.fileSize) :
    u.buffer.length + encLen n < 2 ^ 64 := by
  have hmono := encLen_mono hle
  rcases hp.buffer_lt with hwide | hfile
  · rw [h.requestSize_eq] at hshort
    omega
  · have hlen := h.length_sequence hk
    have hall := encFileLen_ge hn hle hfits
    have hpart : u.buffer.length ≤ u.sequence.length := by
      unfold Upload.sequence
      rw [List.length_append]
      omega
    omega

/-- What a call of the streamer does not touch. -/
structure Upload.Keeps (u t : Upload UploadServer) : Prop where
  size_eq : t.size = u.size
  stream_eq : t.stream = u.stream
  declared_eq : t.requests.declared = u.requests.declared
  commits_eq : t.requests.commits = u.requests.commits

theorem Upload.Keeps.trans {u v t : Upload UploadServer} (h : u.Keeps v) (h' : v.Keeps t) :
    u.Keeps t where
  size_eq := h'.size_eq.trans h.size_eq
  stream_eq := h'.stream_eq.trans h.stream_eq
  declared_eq := h'.declared_eq.trans h.declared_eq
  commits_eq := h'.commits_eq.trans h.commits_eq

/-- A flush keeps what an upload has agreed on. -/
theorem Upload.keeps_flushed (u : Upload UploadServer) : u.Keeps u.flushed := by
  obtain ⟨seq, chunks, heq, -⟩ := u.flushed_eq
  rw [heq]
  exact ⟨rfl, rfl, rfl, rfl⟩

/-- So does storing the last part. -/
theorem Upload.keeps_lastStored (u : Upload UploadServer) : u.Keeps u.lastStored := by
  unfold Upload.lastStored
  split <;> exact ⟨rfl, rfl, rfl, rfl⟩

/-- Some bytes have been counted as uploaded. -/
def Upload.uploaded (u : Upload UploadServer) (len : Nat) : Upload UploadServer :=
  { u with
    streamer := { u.streamer with uploadedFileSize := u64 (u.streamer.uploadedFileSize + len) } }

/-- Counting what was uploaded leaves the stream. -/
theorem Upload.Streams.uploaded (h : u.Streams C ivs p T k) (len : Nat) :
    (u.uploaded len).Streams C ivs p T k :=
  { h with numbered := ⟨h.numbered.next, h.numbered.seqs⟩ }

/-- Counting what was processed leaves the stream. -/
theorem Upload.Streams.processed (h : u.Streams C ivs p T k) (len : Nat) :
    (u.processed len).Streams C ivs p T k :=
  { h with numbered := ⟨h.numbered.next, h.numbered.seqs⟩ }

/-- A flush numbers no chunk. -/
theorem Upload.seq_flushed (u : Upload UploadServer) : u.flushed.streamer.seq = u.streamer.seq := by
  obtain ⟨seq, chunks, heq, -⟩ := u.flushed_eq
  rw [heq]
  rfl

/-- A flush takes in no data. -/
theorem Upload.dataProcessed_flushed (u : Upload UploadServer) :
    u.flushed.streamer.dataProcessed = u.streamer.dataProcessed := by
  obtain ⟨seq, chunks, heq, -⟩ := u.flushed_eq
  rw [heq]
  rfl

/-- A flush does not count as uploaded. -/
theorem Upload.uploadedFileSize_flushed (u : Upload UploadServer) :
    u.flushed.streamer.uploadedFileSize = u.streamer.uploadedFileSize := by
  obtain ⟨seq, chunks, heq, -⟩ := u.flushed_eq
  rw [heq]
  rfl

/-- A flush leaves less than a request. -/
theorem Upload.Buffered.short_flushed (h : u.Buffered) :
    u.flushed.buffer.length < u.flushed.requestSize := by
  rw [Upload.length_buffer_flushed, Upload.requestSize_flushed]
  exact Nat.mod_lt _ h.chunkSize_pos

/-- The state after one chunk of a write. -/
def Upload.sent (C : Primitives) (ivs : Nat → Iv) (u : Upload UploadServer) (data : Bytes) :
    Upload UploadServer :=
  (((u.uploaded data.length).prepared C ivs data).flushed).processed data.length

/-- Sending a chunk keeps what an upload has agreed on. -/
theorem Upload.keeps_sent (C : Primitives) (ivs : Nat → Iv) (u : Upload UploadServer)
    (data : Bytes) : u.Keeps (u.sent C ivs data) := by
  have hfirst : u.Keeps ((u.uploaded data.length).prepared C ivs data) := ⟨rfl, rfl, rfl, rfl⟩
  have hflushed := hfirst.trans (Upload.keeps_flushed _)
  exact ⟨hflushed.size_eq, hflushed.stream_eq, hflushed.declared_eq, hflushed.commits_eq⟩

/-- **One full chunk** is encrypted, and what is full is sent. -/
theorem exec_sendChunk (hp : p.Usable) (h : u.Streams C ivs p T k) (ha : u.Awaits p k)
    (hk : (k + 1) * p.chunkSize ≤ T.length) (hT : T.length ≤ p.fileSize) {more : Nat}
    (hquiet : u.Quiet N (encLen p.chunkSize + more)) :
    ∃ t, exec (ChunkStreamer.sendChunk C N.api ivs (block p.chunkSize T k)) u = (.ok (), t) ∧
      t.Streams C ivs p T (k + 1) ∧ t.Awaits p (k + 1) ∧ t.Quiet N more ∧ u.Keeps t := by
  have hlen : (block p.chunkSize T k).length = p.chunkSize := length_block_full hk
  have hmul : (k + 1) * p.chunkSize = k * p.chunkSize + p.chunkSize := Nat.succ_mul _ _
  have hF := hp.fileSize_lt
  have hroom : u.buffer.length + encLen (block p.chunkSize T k).length < 2 ^ 64 := by
    rw [hlen]
    exact h.room hp (by omega) ha.short hp.chunkSize_pos (le_refl _) (by omega)
  have hup := h.uploaded (block p.chunkSize T k).length
  have hcount : u64 (u.streamer.dataProcessed + (block p.chunkSize T k).length) ≤
      u.streamer.fileSize := by
    rw [ha.dataProcessed_eq, hlen, h.fileSize_eq, u64_of_lt (by omega)]
    omega
  rw [← hlen] at hquiet
  have hprepared := hup.prepared (k := k) ha.seq_eq hroom
  have hall : (u.uploaded (block p.chunkSize T k).length).Quiet N
      (encLen (block p.chunkSize T k).length + more) := hquiet
  refine ⟨u.sent C ivs (block p.chunkSize T k), ?_, ?_, ?_, ?_, ?_⟩
  · unfold ChunkStreamer.sendChunk
    rw [exec_get_bind, if_neg (by rw [hlen, h.chunkSize_eq]; exact not_not.mpr rfl)]
    dsimp only
    unfold modifyStreamer
    rw [exec_modify_bind]
    exact exec_prepareAndSendChunk hup.buffered hup.sizeControl_eq hcount hroom
      (hall.mono (Nat.le_add_right _ _))
  · exact hprepared.flushed.processed _
  · refine ⟨?_, ?_, ?_, Upload.Buffered.short_flushed hprepared.buffered, ?_⟩
    · show u32 (((u.uploaded _).prepared C ivs _).flushed.streamer.seq + 1) = _
      rw [Upload.seq_flushed]
      show u32 (u.streamer.seq + 1) = _
      rw [ha.seq_eq]
      exact Nat.mod_add_mod _ _ _
    · show u64 (((u.uploaded _).prepared C ivs _).flushed.streamer.dataProcessed + _) = _
      rw [Upload.dataProcessed_flushed]
      show u64 (u.streamer.dataProcessed + _) = _
      rw [ha.dataProcessed_eq, hlen, hmul, u64_of_lt (by omega)]
    · show ((u.uploaded _).prepared C ivs _).flushed.streamer.uploadedFileSize = _
      rw [Upload.uploadedFileSize_flushed]
      show u64 (u.streamer.uploadedFileSize + _) = _
      rw [ha.uploadedFileSize_eq, hlen, hmul, u64_of_lt (by omega)]
    · have hfull : ((u.uploaded (block p.chunkSize T k).length).prepared C ivs
          (block p.chunkSize T k)).FullSized := ha.fullSized
      exact hfull.flushed
  · exact Upload.Quiet.flushed hprepared.buffered (Upload.Quiet.prepared hall)
  · exact u.keeps_sent C ivs _

/-- The chunks of a sequence from some chunk on. -/
theorem block_drop (b : Nat) (xs : Bytes) (k i : Nat) :
    block b (xs.drop (k * b)) i = block b xs (k + i) := by
  unfold block slice
  rw [List.drop_drop, Nat.add_mul]

/-- **The full chunks of a write.** -/
theorem exec_sendCollected (hp : p.Usable) {m i : Nat} (h : u.Streams C ivs p T (k + i))
    (ha : u.Awaits p (k + i)) (hk : (k + i + m) * p.chunkSize ≤ T.length)
    (hT : T.length ≤ p.fileSize) (hcounted : u.stream.Counted)
    (hsize : u.stream.chunkSize = p.chunkSize) (hrest : u.stream.buf = T.drop (k * p.chunkSize))
    (hquiet : u.Quiet N (m * encLen p.chunkSize)) :
    ∃ t, exec (FileWriteHandle.sendCollected C N.api ivs m i) u = (.ok (), t) ∧
      t.Streams C ivs p T (k + i + m) ∧ t.Awaits p (k + i + m) ∧ u.Keeps t := by
  induction m generalizing i u with
  | zero => exact ⟨u, rfl, h, ha, ⟨rfl, rfl, rfl, rfl⟩⟩
  | succ m ih =>
      have hnext : (k + i + 1) * p.chunkSize ≤ T.length :=
        le_trans (Nat.mul_le_mul_right _ (by omega)) hk
      have hinside : i * u.stream.chunkSize ≤ u.stream.buf.length := by
        rw [Nat.add_mul, Nat.add_mul] at hnext
        rw [hsize, hrest, List.length_drop]
        omega
      have hpiece : u.stream.getFullChunk i = .ok (block p.chunkSize T (k + i)) := by
        rw [hcounted.getFullChunk hinside, hsize, hrest, block_drop]
      rw [Nat.succ_mul, Nat.add_comm] at hquiet
      obtain ⟨v, hsend, hv, hav, hquietv, hkeep⟩ := exec_sendChunk hp h ha hnext hT hquiet
      rw [← hkeep.stream_eq] at hcounted hsize hrest
      obtain ⟨t, hloop, ht, hat, hkeept⟩ := ih (i := i + 1) hv hav
        (by rw [show k + (i + 1) + m = k + i + (m + 1) by omega]; exact hk) hcounted hsize hrest
        hquietv
      refine ⟨t, ?_, ?_, ?_, hkeep.trans hkeept⟩
      · rw [FileWriteHandle.sendCollected, exec_get_bind, hpiece, exec_lift_ok_bind, exec_bind,
          hsend]
        exact hloop
      · rw [show k + i + (m + 1) = k + (i + 1) + m by omega]
        exact ht
      · rw [show k + i + (m + 1) = k + (i + 1) + m by omega]
        exact hat

/-- No request fails that the last call makes, or the first one does and is full. -/
def Upload.Finishes (N : Transport) (u : Upload UploadServer) (more : Nat) : Prop :=
  (0 < u.fullRequests more ∧ N.fails u.requests.sends = true) ∨
    u.Quiet N more ∧ ((u.buffer.length + more) % u.requestSize ≠ 0 →
      N.fails (u.requests.sends + u.fullRequests more) = false)

instance (N : Transport) (u : Upload UploadServer) (more : Nat) : Decidable (u.Finishes N more) :=
  inferInstanceAs (Decidable (_ ∨ _))

/-- What a commit leaves behind, whether it comes about or not. -/
structure Upload.Left (u t : Upload UploadServer) : Prop where
  size_eq : t.size = u.size
  stream_eq : t.stream = u.stream
  declared_eq : t.requests.declared = u.requests.declared
  uploadedFileSize_eq : t.streamer.uploadedFileSize = u.streamer.uploadedFileSize
  short : u.FullSized →
    (∀ chunk ∈ t.requests.chunks.dropLast, chunk.data.length = u.requestSize) ∧
      (t.buffer ≠ [] → t.FullSized)

/-- What the last part leaves behind. -/
theorem Upload.Left.of_stored (u : Upload UploadServer) : u.Left u.flushed.lastStored := by
  have hfirst := u.keeps_flushed
  have hlast := u.flushed.keeps_lastStored
  refine ⟨hlast.size_eq.trans hfirst.size_eq, hlast.stream_eq.trans hfirst.stream_eq,
    hlast.declared_eq.trans hfirst.declared_eq, ?_, fun hfull => ⟨?_, fun hne => ?_⟩⟩
  · rw [← u.uploadedFileSize_flushed]
    unfold Upload.lastStored
    split <;> rfl
  · rw [← u.requestSize_flushed]
    exact hfull.flushed.lastStored
  · exact absurd u.flushed.buffer_lastStored hne

/-- **A commit** of what has been encrypted. -/
theorem exec_commitFile_spec (h : u.Streams C ivs p T k) (hfinishes : u.Finishes N 0) :
    ∃ t, t.Streams C ivs p T k ∧ u.Left t ∧
      (exec (ChunkStreamer.commitFile N.api) u = (.error (.server 0), t) ∧
          t.requests.commits = u.requests.commits ∧
          (N.fails u.requests.sends = true ∨ N.accepts t.requests t.commitModel = false) ∨
        exec (ChunkStreamer.commitFile N.api) u = (.ok (), t) ∧ t.buffer = [] ∧
          ∃ model, t.requests.commits = u.requests.commits ++ [model] ∧
            model.checksum = t.streamer.checksums) := by
  obtain ⟨hpos, hfails⟩ | ⟨hquiet, hrest⟩ := hfinishes
  · refine ⟨u.lost, h.lost, ⟨rfl, rfl, rfl, rfl, fun hfull => ⟨?_, fun _ => hfull⟩⟩, Or.inl ?_⟩
    · exact fun chunk hchunk => hfull chunk (List.mem_of_mem_dropLast hchunk)
    · exact ⟨exec_commitFile_lost h.buffered hpos hfails, rfl, Or.inl hfails⟩
  · have hlast : u.flushed.buffer ≠ [] → N.fails u.flushed.requests.sends = false := by
      intro hne
      rw [Upload.sends_flushed]
      apply hrest
      rw [Nat.add_zero, ← Upload.length_buffer_flushed]
      exact fun hzero => hne (List.eq_nil_of_length_eq_zero hzero)
    have hexec := exec_commitFile h.buffered hquiet hlast
    have hcommits : u.flushed.lastStored.requests.commits = u.requests.commits :=
      u.flushed.keeps_lastStored.commits_eq.trans u.keeps_flushed.commits_eq
    have hstreams := h.flushed.lastStored
    have hleft := Upload.Left.of_stored u
    by_cases haccepts : N.accepts u.flushed.lastStored.requests u.flushed.lastStored.commitModel = true
    · rw [if_pos haccepts] at hexec
      refine ⟨u.flushed.lastStored.committed, ?_, ?_, Or.inr ⟨hexec, ?_, u.flushed.lastStored.commitModel, ?_, rfl⟩⟩
      · exact { hstreams with numbered := ⟨hstreams.numbered.next, hstreams.numbered.seqs⟩ }
      · exact ⟨hleft.size_eq, hleft.stream_eq, hleft.declared_eq, hleft.uploadedFileSize_eq,
          hleft.short⟩
      · exact u.flushed.buffer_lastStored
      · show u.flushed.lastStored.requests.commits ++ [_] = _
        rw [hcommits]
    · rw [if_neg haccepts] at hexec
      refine ⟨u.flushed.lastStored, hstreams, hleft, Or.inl ⟨hexec, hcommits, Or.inr ?_⟩⟩
      exact Bool.eq_false_iff.mpr haccepts

/-- The rest of the file behind the full chunks. -/
theorem block_rest {k cs : Nat} {T : Bytes} (h : (T.drop (k * cs)).length ≤ cs) :
    block cs T k = T.drop (k * cs) := by
  unfold block slice
  exact List.take_of_length_le h

/-- How a `finalize` of the streamer ends, after which all chunks have been encrypted. -/
structure Upload.Ends (C : Primitives) (N : Transport) (ivs : Nat → Iv) (p : UploadParams)
    (T : Bytes) (n more : Nat) (u t : Upload UploadServer)
    (result : Except StoreError ChunksSentInfo) : Prop where
  streams : t.Streams C ivs p T n
  size_eq : t.size = u.size
  stream_eq : t.stream = u.stream
  declared_eq : t.requests.declared = u.requests.declared
  uploadedFileSize_eq : t.streamer.uploadedFileSize = p.fileSize
  short : u.FullSized →
    (∀ chunk ∈ t.requests.chunks.dropLast, chunk.data.length = u.requestSize) ∧
      (t.buffer ≠ [] → t.FullSized)
  failed : ∀ e, result = .error e → t.requests.commits = u.requests.commits ∧
    ((∃ j, N.fails j = true) ∨ N.accepts t.requests t.commitModel = false ∨
      2 ^ 64 ≤ p.fileSize + more)
  succeeded : ∀ info, result = .ok info → t.buffer = [] ∧
    info.key = p.key ∧ info.chunkSize = p.chunkSize ∧
      info.hmac = C.hmacSha256 p.key t.streamer.checksums ∧
        ∃ model, t.requests.commits = u.requests.commits ++ [model] ∧
          model.checksum = t.streamer.checksums

/-- The last part of `finalize`, behind the encryption of the rest. -/
theorem exec_finalize_commit (h : u.Streams C ivs p T k)
    (hup : u.streamer.uploadedFileSize = p.fileSize) (hfinishes : u.Finishes N 0) (more : Nat) :
    ∃ result t, u.Ends C N ivs p T k more t result ∧
      exec (do
        let s ← get
        if u64 (s.streamer.uploadedFileSize + more) < s.streamer.fileSize then
          throw .dataSmallerThanDeclared
        ChunkStreamer.commitFile N.api
        let s ← get
        return ({ cipherType := 1
                  key := s.streamer.key
                  hmac := C.hmacSha256 s.streamer.key s.streamer.checksums
                  chunkSize := s.streamer.chunkSize
                  requestId := s.streamer.requestId } : ChunksSentInfo)) u = (result, t) := by
  rw [exec_get_bind]
  by_cases hwrap : u64 (u.streamer.uploadedFileSize + more) < u.streamer.fileSize
  · have hbig : 2 ^ 64 ≤ p.fileSize + more := by
      by_contra hsmall
      rw [hup, h.fileSize_eq, u64_of_lt (by omega)] at hwrap
      omega
    refine ⟨.error .dataSmallerThanDeclared, u, ⟨h, rfl, rfl, rfl, hup, fun hfull => ⟨?_, fun _ =>
      hfull⟩, fun e _ => ⟨rfl, Or.inr (Or.inr hbig)⟩, fun info h => (by cases h)⟩, ?_⟩
    · exact fun chunk hchunk => hfull chunk (List.mem_of_mem_dropLast hchunk)
    · rw [if_pos hwrap]
      rfl
  · obtain ⟨t, ht, hleft, hcases⟩ := exec_commitFile_spec h hfinishes
    have huploaded : t.streamer.uploadedFileSize = p.fileSize :=
      hleft.uploadedFileSize_eq.trans hup
    rw [if_neg hwrap]
    dsimp only
    rw [exec_bind]
    rcases hcases with ⟨hexec, hcommits, hwhy⟩ | ⟨hexec, hempty, model, hcommits, hchecksum⟩
    · refine ⟨.error (.server 0), t, ⟨ht, hleft.size_eq, hleft.stream_eq, hleft.declared_eq,
        huploaded, hleft.short, fun e _ => ⟨hcommits, ?_⟩, fun info h => (by cases h)⟩, ?_⟩
      · rcases hwhy with hfails | haccepts
        · exact Or.inl ⟨_, hfails⟩
        · exact Or.inr (Or.inl haccepts)
      · rw [hexec]
    · refine ⟨.ok _, t, ⟨ht, hleft.size_eq, hleft.stream_eq, hleft.declared_eq, huploaded,
        hleft.short, fun e h => (by cases h), fun info h => ?_⟩, by rw [hexec]; rfl⟩
      obtain rfl := Except.ok.inj h
      exact ⟨hempty, ht.key_eq, ht.chunkSize_eq, by rw [ht.key_eq], model, hcommits, hchecksum⟩

/-- **A `finalize` with nothing left** to encrypt. -/
theorem exec_finalize_nil (hp : p.Usable) (h : u.Streams C ivs p T k)
    (hup : u.streamer.uploadedFileSize = p.fileSize) (hfinishes : u.Finishes N 0) :
    ∃ result t, u.Ends C N ivs p T k 0 t result ∧
      exec (ChunkStreamer.finalize C N.api ivs []) u = (result, t) := by
  have hsame : u.uploaded 0 = u := by
    unfold Upload.uploaded
    rw [hup, Nat.add_zero, u64_of_lt hp.fileSize_lt, ← hup]
  obtain ⟨result, t, hends, hexec⟩ := exec_finalize_commit h hup hfinishes 0
  refine ⟨result, t, hends, ?_⟩
  unfold ChunkStreamer.finalize modifyStreamer
  rw [exec_modify_bind, if_neg (not_not.mpr rfl)]
  show exec _ (u.uploaded 0) = _
  rw [hsame]
  exact hexec

/-- Once the rest has been sent, only the request is left that it did not fill. -/
theorem Upload.finishes_sent (h : u.Buffered) {data : Bytes}
    (hlast : (u.buffer.length + encLen data.length) % u.requestSize ≠ 0 →
      N.fails (u.requests.sends + u.fullRequests (encLen data.length)) = false) :
    (u.sent C ivs data).Finishes N 0 := by
  have hbuffer : (u.sent C ivs data).buffer.length =
      (u.buffer.length + encLen data.length) % u.requestSize := by
    show ((u.uploaded data.length).prepared C ivs data).flushed.buffer.length = _
    rw [Upload.length_buffer_flushed, Upload.length_buffer_prepared]
    rfl
  have hsends : (u.sent C ivs data).requests.sends =
      u.requests.sends + u.fullRequests (encLen data.length) := by
    show ((u.uploaded data.length).prepared C ivs data).flushed.requests.sends = _
    rw [Upload.sends_flushed, Upload.fullRequests_prepared]
    rfl
  have hsize : (u.sent C ivs data).requestSize = u.requestSize := Upload.requestSize_flushed _
  have hnone : (u.sent C ivs data).fullRequests 0 = 0 := by
    unfold Upload.fullRequests
    rw [hbuffer, hsize, Nat.add_zero]
    exact Nat.div_eq_of_lt (Nat.mod_lt _ h.chunkSize_pos)
  refine Or.inr ⟨fun j hj => by omega, ?_⟩
  rw [Nat.add_zero, hbuffer, hsize, Nat.mod_mod, hnone, hsends, Nat.add_zero]
  exact hlast

/-- **A `finalize` with a rest** that is shorter than a chunk. -/
theorem exec_finalize_rest (hp : p.Usable) (h : u.Streams C ivs p T k) (ha : u.Awaits p k)
    (hk : k * p.chunkSize ≤ T.length) (hT : T.length = p.fileSize) {data : Bytes}
    (hdata : data = T.drop (k * p.chunkSize)) (hlt : data.length < p.chunkSize)
    (hne : data ≠ []) (hfinishes : u.Finishes N (encLen data.length)) :
    ∃ result t, u.Ends C N ivs p T (k + 1) data.length t result ∧
      exec (ChunkStreamer.finalize C N.api ivs data) u = (result, t) := by
  have hF := hp.fileSize_lt
  have hpos : 0 < data.length := List.length_pos_iff.mpr hne
  have hlen : data.length = T.length - k * p.chunkSize := by rw [hdata, List.length_drop]
  have hblock : block p.chunkSize T k = data := by
    rw [hdata] at hlt ⊢
    exact block_rest hlt.le
  have hup := h.uploaded data.length
  have hroom : u.buffer.length + encLen data.length < 2 ^ 64 :=
    h.room hp hk ha.short hpos hlt.le (by omega)
  have hcount : u64 (u.streamer.dataProcessed + data.length) ≤ u.streamer.fileSize := by
    rw [ha.dataProcessed_eq, h.fileSize_eq, u64_of_lt (by omega)]
    omega
  have huploaded : (u.uploaded data.length).streamer.uploadedFileSize = p.fileSize := by
    show u64 (u.streamer.uploadedFileSize + data.length) = _
    rw [ha.uploadedFileSize_eq, u64_of_lt (by omega)]
    omega
  have hprepared : ((u.uploaded data.length).prepared C ivs data).Streams C ivs p T (k + 1) := by
    rw [← hblock] at hroom ⊢
    exact (h.uploaded _).prepared ha.seq_eq hroom
  unfold ChunkStreamer.finalize modifyStreamer
  rw [exec_modify_bind, if_pos hne]
  dsimp only
  rw [exec_bind]
  obtain ⟨hfull, hfails⟩ | ⟨hquiet, hlast⟩ := hfinishes
  · have hexec : exec (ChunkStreamer.prepareAndSendChunk C N.api ivs data) { u with streamer := _ } =
        (.error (.server 0), ((u.uploaded data.length).prepared C ivs data).lost) :=
      exec_prepareAndSendChunk_lost hup.buffered hup.sizeControl_eq hcount hroom hfull hfails
    refine ⟨.error (.server 0), ((u.uploaded data.length).prepared C ivs data).lost,
      ⟨hprepared.lost, rfl, rfl, rfl, huploaded, fun hsized => ⟨?_, fun _ => hsized⟩,
        fun e _ => ⟨rfl, Or.inl ⟨_, hfails⟩⟩, fun info h => (by cases h)⟩, ?_⟩
    · exact fun chunk hchunk => hsized chunk (List.mem_of_mem_dropLast hchunk)
    · rw [hexec]
  · have hexec : exec (ChunkStreamer.prepareAndSendChunk C N.api ivs data) { u with streamer := _ } =
        (.ok (), u.sent C ivs data) :=
      exec_prepareAndSendChunk hup.buffered hup.sizeControl_eq hcount hroom hquiet
    have hv : (u.sent C ivs data).Streams C ivs p T (k + 1) := hprepared.flushed.processed _
    have hsize : (u.sent C ivs data).requestSize = u.requestSize := Upload.requestSize_flushed _
    have hfinish : (u.sent C ivs data).Finishes N 0 := Upload.finishes_sent h.buffered hlast
    have hupsent : (u.sent C ivs data).streamer.uploadedFileSize = p.fileSize := by
      show ((u.uploaded data.length).prepared C ivs data).flushed.streamer.uploadedFileSize = _
      rw [Upload.uploadedFileSize_flushed]
      exact huploaded
    have hkeeps : u.Keeps (u.sent C ivs data) := u.keeps_sent C ivs data
    obtain ⟨result, t, hends, hcommit⟩ := exec_finalize_commit hv hupsent hfinish data.length
    refine ⟨result, t, ?_, ?_⟩
    · exact
        { hends with
          size_eq := hends.size_eq.trans hkeeps.size_eq
          stream_eq := hends.stream_eq.trans hkeeps.stream_eq
          declared_eq := hends.declared_eq.trans hkeeps.declared_eq
          short := fun hsized => by
            rw [← hsize]
            have hstart : ((u.uploaded data.length).prepared C ivs data).FullSized := hsized
            exact hends.short hstart.flushed
          failed := fun e he => by
            rw [← hkeeps.commits_eq]
            exact hends.failed e he
          succeeded := fun info hinfo => by
            rw [← hkeeps.commits_eq]
            exact hends.succeeded info hinfo }
    · rw [hexec]
      exact hcommit

end Sending

end PrivmxEndpoint
