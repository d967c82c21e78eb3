import PrivmxEndpoint.GuardedRuns
import PrivmxEndpoint.UploadStreams

/-!
# Uploads over a transport that fails

A caller goes on with a `FileWriteHandle` after an exception.  A run of `write` and
`finalize` is watched together with the data of the writes that the handle has counted.

While the data is collected the handle knows which chunk comes next.  The first
`finalize` encrypts the rest, and from then on the handle only sends what is left and
commits.  Both phases keep the encoded file in one piece as long as no chunk is
encrypted twice and no request is sent twice or lost.
-/

namespace PrivmxEndpoint

open Word Splice Blocks Throwing Runs

/-- An upload and the data of the writes that its handle has counted. -/
structure UploadSession where
  upload : Upload UploadServer
  counted : Bytes

/-- The calls of a `FileWriteHandle`. -/
inductive UploadCall
  | write (data : Bytes)
  | finalize
  deriving Repr, DecidableEq

/-- A handle after `createRequestData`. -/
def UploadSession.opened (N : Transport) (p : UploadParams) : UploadSession where
  upload :=
    (exec (FileWriteHandle.createRequestData N.api p.key p.randomWriteSupport)
      (FileWriteHandle.create p.fileSize p.chunkSize p.serverRequestChunkSize
        { declared := [], chunks := [], commits := [], sends := 0 })).2
  counted := []

/-- A call of the handle.  A write is counted if the stream takes its data. -/
def UploadSession.call (C : Primitives) (N : Transport) (ivs : Nat → Iv) (s : UploadSession) :
    UploadCall → Except StoreError (Option ChunksSentInfo) × UploadSession
  | .write data =>
      let result := exec (FileWriteHandle.write C N.api ivs data) s.upload
      (result.1.map fun _ => none,
        { upload := result.2
          counted := match s.upload.stream.write data with
            | .ok _ => s.counted ++ data
            | .error _ => s.counted })
  | .finalize =>
      let result := exec (FileWriteHandle.finalize C N.api ivs) s.upload
      (result.1.map some, { s with upload := result.2 })

/-- A call, whatever comes of it. -/
def UploadSession.Step (C : Primitives) (N : Transport) (ivs : Nat → Iv) (s : UploadSession)
    (call : UploadCall) (t : UploadSession) : Prop :=
  t = (s.call C N ivs call).2

/-- The condition under which a call does no harm.  A write that the stream takes does not
wrap its counter, and none of its requests fails.  A `finalize` may lose the first of its
full requests, but none behind it and not the last one. -/
def UploadSession.Harmless (N : Transport) (s : UploadSession) : UploadCall → Prop
  | .write data => ∀ stream, s.upload.stream.write data = .ok stream →
      s.upload.stream.totalDataSize + data.length < 2 ^ 64 ∧
        s.upload.Quiet N ((s.upload.stream.buf.length + data.length) / s.upload.stream.chunkSize *
          encLen s.upload.stream.chunkSize)
  | .finalize => s.upload.stream.isFullyFilled = true →
      s.upload.Finishes N
        (if s.upload.stream.buf = [] then 0 else encLen s.upload.stream.buf.length)

/-- The stream of a handle that has counted so many bytes. -/
structure UploadParams.Counts (p : UploadParams) (n : Nat) (stream : ChunkBufferedStream) :
    Prop where
  counted : stream.Counted
  chunkSize_eq : stream.chunkSize = p.chunkSize
  sizeControl_eq : stream.sizeControl = true
  maxTotalDataSize_eq : stream.maxTotalDataSize = p.fileSize
  totalDataSize_eq : stream.totalDataSize = n
  le_fileSize : n ≤ p.fileSize

/-- The data is collected: the chunks before the `k`-th have been encrypted, and the rest
waits in the stream. -/
structure UploadSession.Collects (C : Primitives) (ivs : Nat → Iv) (p : UploadParams) (k : Nat)
    (s : UploadSession) : Prop where
  counts : p.Counts s.counted.length s.upload.stream
  streams : s.upload.Streams C ivs p s.counted k
  awaits : s.upload.Awaits p k
  taken : k * p.chunkSize ≤ s.counted.length
  rest_eq : s.upload.stream.buf = s.counted.drop (k * p.chunkSize)
  rest_lt : s.upload.stream.buf.length < p.chunkSize

/-- Everything has been encrypted, and something may wait to be sent. -/
structure UploadSession.Drains (C : Primitives) (ivs : Nat → Iv) (p : UploadParams)
    (s : UploadSession) : Prop where
  counts : p.Counts s.counted.length s.upload.stream
  streams : s.upload.Streams C ivs p s.counted (chunksFor p.chunkSize p.fileSize)
  length_eq : s.counted.length = p.fileSize
  rest_eq : s.upload.stream.buf = []
  uploadedFileSize_eq : s.upload.streamer.uploadedFileSize = p.fileSize

section Counting

variable {p : UploadParams} {n : Nat} {stream : ChunkBufferedStream} {data : Bytes}

theorem UploadParams.Counts.isFullyFilled (h : p.Counts n stream) :
    stream.isFullyFilled = true ↔ n = p.fileSize := by
  rw [ChunkBufferedStream.isFullyFilled, h.sizeControl_eq, h.totalDataSize_eq,
    h.maxTotalDataSize_eq, if_pos rfl, beq_iff_eq]

theorem UploadParams.Counts.setBuf (h : p.Counts n stream) {buf : Bytes}
    (hlt : buf.length < 2 ^ 64) : p.Counts n (stream.setBuf buf) :=
  { h with counted := h.counted.setBuf hlt }

/-- The stream takes what fits into the declared size. -/
theorem UploadParams.Counts.write_ok (h : p.Counts n stream) (hF : p.fileSize < 2 ^ 64)
    (hbuf : stream.buf.length ≤ n) (hfits : n + data.length ≤ p.fileSize) :
    ∃ stream', stream.write data = .ok stream' ∧ p.Counts (n + data.length) stream' ∧
      stream'.buf = stream.buf ++ data := by
  have htotal : u64 (stream.totalDataSize + data.length) = n + data.length := by
    rw [h.totalDataSize_eq, u64_of_lt (by omega)]
  have hroom : stream.buf.length + data.length < 2 ^ 64 := by omega
  have hwrite := h.counted.write
    (fun _ => by
      rw [htotal, h.maxTotalDataSize_eq]
      exact hfits) hroom
  rw [← List.length_append] at hroom
  have hset := h.setBuf hroom
  refine ⟨_, hwrite, ⟨⟨hset.counted.chunkSize_pos, rfl, hset.counted.length_lt⟩, h.chunkSize_eq,
    h.sizeControl_eq, h.maxTotalDataSize_eq, htotal, hfits⟩, rfl⟩

/-- A write is refused that does not fit, unless the counter wraps. -/
theorem UploadParams.Counts.write_cases (h : p.Counts n stream)
    (hwrap : ∀ stream', stream.write data = .ok stream' →
      stream.totalDataSize + data.length < 2 ^ 64) :
    (stream.write data = .error .dataBiggerThanDeclared ∧ p.fileSize < n + data.length) ∨
      n + data.length ≤ p.fileSize := by
  have htotal := h.totalDataSize_eq
  have hmax := h.maxTotalDataSize_eq
  by_cases hbig : stream.maxTotalDataSize < u64 (stream.totalDataSize + data.length)
  · left
    have hle : u64 (stream.totalDataSize + data.length) ≤ stream.totalDataSize + data.length :=
      Nat.mod_le _ _
    refine ⟨?_, by omega⟩
    rw [ChunkBufferedStream.write, if_pos ⟨h.sizeControl_eq, hbig⟩]
  · right
    have hlt := hwrap _ (by
      rw [ChunkBufferedStream.write, if_neg (fun hboth => hbig hboth.2)])
    rw [u64_of_lt hlt] at hbig
    omega

end Counting

namespace UploadSession

variable {C : Primitives} {N : Transport} {ivs : Nat → Iv} {p : UploadParams} {k : Nat}
  {s : UploadSession} {data : Bytes}

/-- A write that the stream refuses changes nothing. -/
theorem call_write_error {e : StoreError} (h : s.upload.stream.write data = .error e) :
    s.call C N ivs (.write data) = (.error e, s) := by
  have hexec : exec (FileWriteHandle.write C N.api ivs data) s.upload = (.error e, s.upload) := by
    unfold FileWriteHandle.write
    rw [exec_get_bind, h, exec_lift_error_bind]
  unfold UploadSession.call
  simp only [hexec, h]
  rfl

/-- A write whose chunks are all sent. -/
theorem call_write_ok {stream rest : ChunkBufferedStream} {v : Upload UploadServer}
    (hwrite : s.upload.stream.write data = .ok stream)
    (hloop : exec (FileWriteHandle.sendCollected C N.api ivs stream.getNumberOfFullChunks 0)
      { s.upload with stream := stream } = (.ok (), v))
    (hfree : v.stream.freeFullChunks = .ok rest) :
    s.call C N ivs (.write data) =
      (.ok none, { upload := { v with stream := rest }, counted := s.counted ++ data }) := by
  have hexec : exec (FileWriteHandle.write C N.api ivs data) s.upload =
      (.ok (), { v with stream := rest }) := by
    unfold FileWriteHandle.write
    rw [exec_get_bind, hwrite, exec_lift_ok_bind, exec_modify_bind, exec_bind, hloop]
    dsimp only
    rw [exec_get_bind, hfree, exec_lift_ok_bind]
    rfl
  unfold UploadSession.call
  simp only [hexec, hwrite]
  rfl

/-- **A write while data is collected** is refused without a change, or the handle goes
on collecting. -/
theorem Collects.write (hp : p.Usable) (h : s.Collects C ivs p k)
    (hharmless : s.Harmless N (.write data)) :
    (s.call C N ivs (.write data) = (.error .dataBiggerThanDeclared, s) ∧
        p.fileSize < s.counted.length + data.length) ∨
      ∃ k' t, s.call C N ivs (.write data) = (.ok none, t) ∧ t.Collects C ivs p k' ∧
        t.counted = s.counted ++ data ∧ t.upload.requests.declared = s.upload.requests.declared ∧
          t.upload.requests.commits = s.upload.requests.commits := by
  have htaken := h.taken
  have hbuf : s.upload.stream.buf.length = s.counted.length - k * p.chunkSize := by
    rw [h.rest_eq, List.length_drop]
  rcases h.counts.write_cases (fun stream hs => (hharmless stream hs).1) with ⟨herror, hbig⟩ | hfits
  · exact Or.inl ⟨call_write_error herror, hbig⟩
  right
  obtain ⟨stream, hwrite, hcounts, hall⟩ :=
    h.counts.write_ok hp.fileSize_lt (by omega) hfits
  obtain ⟨-, hquiet⟩ := hharmless stream hwrite
  have hrest : stream.buf = (s.counted ++ data).drop (k * p.chunkSize) := by
    rw [hall, h.rest_eq, List.drop_append_of_le_length htaken]
  have hlen : stream.buf.length = s.upload.stream.buf.length + data.length := by
    rw [hall, List.length_append]
  obtain ⟨m, hm⟩ : ∃ m, m = stream.buf.length / p.chunkSize := ⟨_, rfl⟩
  have hmle : m * p.chunkSize ≤ stream.buf.length := by
    rw [hm]
    exact Nat.div_mul_le_self _ _
  have hcount : stream.getNumberOfFullChunks = m := by
    rw [hcounts.counted.getNumberOfFullChunks, hcounts.chunkSize_eq, hm]
  rw [← hlen, h.counts.chunkSize_eq, ← hm] at hquiet
  rw [← List.length_append] at hcounts
  have hkm : (k + 0 + m) * p.chunkSize ≤ (s.counted ++ data).length := by
    rw [Nat.add_zero, Nat.add_mul, List.length_append]
    omega
  obtain ⟨v, hloop, hv, hav, hkeeps⟩ := exec_sendCollected (u := { s.upload with stream := stream })
    (N := N) hp (i := 0)
    { h.streams.append htaken data with
      numbered := ⟨h.streams.numbered.next, h.streams.numbered.seqs⟩ }
    ⟨h.awaits.seq_eq, h.awaits.dataProcessed_eq, h.awaits.uploadedFileSize_eq, h.awaits.short,
      h.awaits.fullSized⟩
    hkm hcounts.le_fileSize hcounts.counted hcounts.chunkSize_eq hrest hquiet
  have hfree : v.stream.freeFullChunks = .ok (stream.setBuf (stream.buf.drop (m * p.chunkSize))) := by
    rw [hkeeps.stream_eq, hcounts.counted.freeFullChunks, hcounts.chunkSize_eq, hm]
  rw [← hcount] at hloop
  refine ⟨k + 0 + m, _, call_write_ok hwrite hloop hfree, ?_, rfl, hkeeps.declared_eq,
    hkeeps.commits_eq⟩
  refine ⟨hcounts.setBuf ?_, ?_, ?_, hkm, ?_, ?_⟩
  · have hlt := hcounts.counted.length_lt
    rw [List.length_drop]
    omega
  · exact { hv with numbered := ⟨hv.numbered.next, hv.numbered.seqs⟩ }
  · exact ⟨hav.seq_eq, hav.dataProcessed_eq, hav.uploadedFileSize_eq, hav.short, hav.fullSized⟩
  · show stream.buf.drop (m * p.chunkSize) = _
    rw [hrest, List.drop_drop, Nat.add_zero, Nat.add_mul]
  · show (stream.buf.drop (m * p.chunkSize)).length < _
    have hdm := Nat.div_add_mod' stream.buf.length p.chunkSize
    have hmod := Nat.mod_lt stream.buf.length hp.chunkSize_pos
    rw [List.length_drop, hm]
    omega

/-- A `finalize` that comes too early changes nothing. -/
theorem call_finalize_early (h : ¬ s.upload.stream.isFullyFilled = true) :
    s.call C N ivs .finalize = (.error .dataDifferentThanDeclared, s) := by
  have hexec : exec (FileWriteHandle.finalize C N.api ivs) s.upload =
      (.error .dataDifferentThanDeclared, s.upload) := by
    unfold FileWriteHandle.finalize
    rw [exec_get_bind, if_pos h]
    rfl
  unfold UploadSession.call
  simp only [hexec]
  rfl

end UploadSession

/-- The handle after its streamer has come to an end. -/
def Upload.closed (t : Upload UploadServer) : Except StoreError ChunksSentInfo →
    Upload UploadServer
  | .ok _ => { t with size := t.streamer.uploadedFileSize }
  | .error _ => t

namespace UploadSession

variable {C : Primitives} {N : Transport} {ivs : Nat → Iv} {p : UploadParams} {k : Nat}
  {s : UploadSession} {data : Bytes}

/-- A `finalize` hands the rest to the streamer. -/
theorem call_finalize {stream : ChunkBufferedStream} {t : Upload UploadServer}
    {result : Except StoreError ChunksSentInfo} (hfilled : s.upload.stream.isFullyFilled = true)
    (hread : s.upload.stream.readChunk = .ok (data, stream))
    (hstreamer : exec (ChunkStreamer.finalize C N.api ivs data)
      { s.upload with stream := stream } = (result, t)) :
    s.call C N ivs .finalize =
      (result.map some, { upload := t.closed result, counted := s.counted }) := by
  have hexec : exec (FileWriteHandle.finalize C N.api ivs) s.upload =
      (result, t.closed result) := by
    unfold FileWriteHandle.finalize
    rw [exec_get_bind, if_neg (not_not.mpr hfilled), hread, exec_lift_ok_bind, exec_modify_bind,
      exec_bind, hstreamer]
    cases result <;> rfl
  unfold UploadSession.call
  simp only [hexec]

/-- The number of the chunks when some of them are behind us. -/
theorem chunksFor_of_rest {cs len : Nat} (hcs : 0 < cs) (hle : k * cs ≤ len)
    (hlt : len - k * cs < cs) : chunksFor cs len = if len - k * cs = 0 then k else k + 1 := by
  have hdm := Nat.div_add_mod' len cs
  have hmod := Nat.mod_lt len hcs
  have hk : k = len / cs := by
    have h1 : k ≤ len / cs := (Nat.le_div_iff_mul_le hcs).mpr hle
    have h2 : len / cs < k + 1 := (Nat.div_lt_iff_lt_mul hcs).mpr (by rw [Nat.succ_mul]; omega)
    omega
  have hrest : len - k * cs = len % cs := by
    rw [hk]
    omega
  rw [chunksFor_eq hcs, hrest, ← hk]
  split <;> rfl

/-- **The first `finalize`** encrypts the rest and sends it. -/
theorem Collects.finalize (hp : p.Usable) (h : s.Collects C ivs p k)
    (hfull : s.counted.length = p.fileSize) (hharmless : s.Harmless N .finalize) :
    ∃ result t, Upload.Ends C N ivs p s.counted (chunksFor p.chunkSize p.fileSize)
        (p.fileSize - k * p.chunkSize) { s.upload with stream := s.upload.stream.setBuf [] } t
        result ∧
      s.call C N ivs .finalize =
        (result.map some, { upload := t.closed result, counted := s.counted }) := by
  have htaken := h.taken
  have hlt := h.rest_lt
  have hfilled := h.counts.isFullyFilled.mpr hfull
  have hread := h.counts.counted.readChunk (by rw [h.counts.chunkSize_eq]; exact hlt.le)
  have hlen : s.upload.stream.buf.length = p.fileSize - k * p.chunkSize := by
    rw [h.rest_eq, List.length_drop, hfull]
  have hchunks : chunksFor p.chunkSize p.fileSize =
      if p.fileSize - k * p.chunkSize = 0 then k else k + 1 :=
    chunksFor_of_rest hp.chunkSize_pos (by omega) (by omega)
  have hstreams : Upload.Streams C ivs p s.counted k
      { s.upload with stream := s.upload.stream.setBuf [] } :=
    { h.streams with numbered := ⟨h.streams.numbered.next, h.streams.numbered.seqs⟩ }
  have hfinishes := hharmless hfilled
  by_cases hnil : s.upload.stream.buf = []
  · rw [if_pos hnil] at hfinishes
    rw [hnil, List.length_nil] at hlen
    rw [hnil] at hread
    rw [if_pos hlen.symm] at hchunks
    have hup : s.upload.streamer.uploadedFileSize = p.fileSize := by
      rw [h.awaits.uploadedFileSize_eq]
      omega
    obtain ⟨result, t, hends, hexec⟩ := exec_finalize_nil hp hstreams hup hfinishes
    rw [hchunks, ← hlen]
    exact ⟨result, t, hends, call_finalize hfilled hread hexec⟩
  · rw [if_neg hnil] at hfinishes
    have hpos : 0 < s.upload.stream.buf.length := List.length_pos_iff.mpr hnil
    rw [if_neg (by omega)] at hchunks
    have hawaits : Upload.Awaits p k { s.upload with stream := s.upload.stream.setBuf [] } :=
      ⟨h.awaits.seq_eq, h.awaits.dataProcessed_eq, h.awaits.uploadedFileSize_eq, h.awaits.short,
        h.awaits.fullSized⟩
    obtain ⟨result, t, hends, hexec⟩ := exec_finalize_rest hp hstreams hawaits htaken hfull
      h.rest_eq hlt hnil hfinishes
    rw [hchunks, ← hlen]
    exact ⟨result, t, hends, call_finalize hfilled hread hexec⟩

/-- **A later `finalize`** only sends. -/
theorem Drains.finalize (hp : p.Usable) (h : s.Drains C ivs p)
    (hharmless : s.Harmless N .finalize) :
    ∃ result t, Upload.Ends C N ivs p s.counted (chunksFor p.chunkSize p.fileSize) 0
        { s.upload with stream := s.upload.stream.setBuf [] } t result ∧
      s.call C N ivs .finalize =
        (result.map some, { upload := t.closed result, counted := s.counted }) := by
  have hfilled := h.counts.isFullyFilled.mpr h.length_eq
  have hread := h.counts.counted.readChunk (by rw [h.rest_eq]; exact Nat.zero_le _)
  have hstreams : Upload.Streams C ivs p s.counted (chunksFor p.chunkSize p.fileSize)
      { s.upload with stream := s.upload.stream.setBuf [] } :=
    { h.streams with numbered := ⟨h.streams.numbered.next, h.streams.numbered.seqs⟩ }
  have hfinishes := hharmless hfilled
  rw [if_pos h.rest_eq] at hfinishes
  rw [h.rest_eq] at hread
  obtain ⟨result, t, hends, hexec⟩ :=
    exec_finalize_nil hp hstreams h.uploadedFileSize_eq hfinishes
  exact ⟨result, t, hends, call_finalize hfilled hread hexec⟩

/-- Behind the first `finalize` everything has been encrypted. -/
theorem Drains.of_ends {more : Nat} {t : Upload UploadServer}
    {result : Except StoreError ChunksSentInfo}
    (hcounts : p.Counts s.counted.length s.upload.stream)
    (hfull : s.counted.length = p.fileSize)
    (h : Upload.Ends C N ivs p s.counted (chunksFor p.chunkSize p.fileSize) more
      { s.upload with stream := s.upload.stream.setBuf [] } t result) :
    Drains C ivs p { upload := t.closed result, counted := s.counted } := by
  have hstream : (t.closed result).stream = s.upload.stream.setBuf [] := by
    cases result <;> exact h.stream_eq
  have hstreamer : (t.closed result).streamer = t.streamer := by
    cases result <;> rfl
  refine ⟨?_, ?_, hfull, ?_, ?_⟩
  · show p.Counts _ (t.closed result).stream
    rw [hstream]
    exact hcounts.setBuf (by decide)
  · cases result with
    | error e => exact h.streams
    | ok info =>
        exact { h.streams with numbered := ⟨h.streams.numbered.next, h.streams.numbered.seqs⟩ }
  · show (t.closed result).stream.buf = []
    rw [hstream]
    rfl
  · show (t.closed result).streamer.uploadedFileSize = _
    rw [hstreamer]
    exact h.uploadedFileSize_eq

/-- **A write behind the first `finalize`** adds nothing. -/
theorem Drains.write (hp : p.Usable) (h : s.Drains C ivs p)
    (hharmless : s.Harmless N (.write data)) :
    (s.call C N ivs (.write data)).2.Drains C ivs p ∧
      (∀ info, (s.call C N ivs (.write data)).1 ≠ .ok (some info)) ∧
        (s.call C N ivs (.write data)).2.upload.requests.commits = s.upload.requests.commits := by
  have hfull := h.length_eq
  rcases h.counts.write_cases (fun stream hs => (hharmless stream hs).1) with ⟨herror, -⟩ | hfits
  · rw [call_write_error herror]
    exact ⟨h, fun info hok => (by cases hok), rfl⟩
  obtain rfl : data = [] := List.eq_nil_of_length_eq_zero (by omega)
  obtain ⟨stream, hwrite, hcounts, hall⟩ := h.counts.write_ok hp.fileSize_lt
    (by rw [h.rest_eq]; exact Nat.zero_le _) hfits
  have hempty : stream.buf = [] := by
    rw [hall, h.rest_eq]
    rfl
  have hcount : stream.getNumberOfFullChunks = 0 := by
    rw [hcounts.counted.getNumberOfFullChunks, hempty]
    exact Nat.zero_div _
  have hfree : stream.freeFullChunks = .ok (stream.setBuf []) := by
    rw [hcounts.counted.freeFullChunks, hempty]
    simp
  rw [call_write_ok hwrite (by rw [hcount]; rfl) hfree]
  refine ⟨⟨?_, ?_, ?_, rfl, h.uploadedFileSize_eq⟩, fun info hok => (by cases hok), rfl⟩
  · show p.Counts (s.counted ++ []).length (stream.setBuf [])
    rw [List.append_nil]
    exact hcounts.setBuf (by decide)
  · show Upload.Streams C ivs p (s.counted ++ []) _ _
    rw [List.append_nil]
    exact { h.streams with numbered := ⟨h.streams.numbered.next, h.streams.numbered.seqs⟩ }
  · show (s.counted ++ []).length = _
    rw [List.append_nil]
    exact hfull

/-- A handle that has just been opened. -/
theorem Collects.opened (hp : p.Usable) (N : Transport) :
    (UploadSession.opened N p).Collects C ivs p 0 := by
  have hzero : 0 * p.chunkSize = 0 := Nat.zero_mul _
  refine ⟨⟨⟨hp.chunkSize_pos, rfl, Nat.two_pow_pos 64⟩, rfl, rfl, rfl, rfl, Nat.zero_le _⟩,
    ⟨rfl, rfl, rfl, rfl, rfl, ⟨hp.requestSize_pos, rfl, Nat.two_pow_pos 64⟩, rfl, rfl, rfl, ⟨rfl, rfl⟩⟩,
    ⟨rfl, hzero.symm, hzero.symm, hp.requestSize_pos, fun chunk hchunk => (by cases hchunk)⟩,
    ?_, ?_, hp.chunkSize_pos⟩
  · rw [hzero]
    exact Nat.zero_le _
  · rw [hzero]
    rfl

/-- What has been committed: the encoding of the counted data, and its tags. -/
structure Committed (C : Primitives) (s t : UploadSession) (info : ChunksSentInfo)
    (model : CommitFileModel) : Prop where
  commits_eq : t.upload.requests.commits = s.upload.requests.commits ++ [model]
  encoded : EncodedFile C { key := info.key, chunkSize := info.chunkSize } s.counted
    (chunksFor info.chunkSize s.counted.length) t.upload.requests.data model.checksum
  hmac_eq : info.hmac = C.hmacSha256 info.key model.checksum

/-- A call that returns from `finalize` has committed what the handle has counted; any
other call has committed nothing. -/
def Sound (C : Primitives) (N : Transport) (ivs : Nat → Iv) (s : UploadSession)
    (call : UploadCall) : Prop :=
  match s.call C N ivs call with
  | (.ok (some info), t) => ∃ model, s.Committed C t info model
  | (_, t) => t.upload.requests.commits = s.upload.requests.commits

/-- What `finalize` has encrypted and sent is the encoded file. -/
theorem sound_of_ends {more : Nat} {t : Upload UploadServer}
    {result : Except StoreError ChunksSentInfo} (hp : p.Usable)
    (hfull : s.counted.length = p.fileSize)
    (hends : Upload.Ends C N ivs p s.counted (chunksFor p.chunkSize p.fileSize) more
      { s.upload with stream := s.upload.stream.setBuf [] } t result)
    (hcall : s.call C N ivs .finalize =
      (result.map some, { upload := t.closed result, counted := s.counted })) :
    s.Sound C N ivs .finalize := by
  unfold Sound
  rw [hcall]
  cases result with
  | error e => exact (hends.failed e rfl).1
  | ok info =>
      obtain ⟨hempty, hkey, hsize, hhmac, model, hcommits, hchecksum⟩ := hends.succeeded info rfl
      have hsequence := hends.streams.sequence_eq
      have hchecksums := hends.streams.checksums_eq
      rw [Upload.sequence, hempty, List.append_nil] at hsequence
      refine ⟨model, hcommits, ?_, by rw [hhmac, hkey, hchecksum]⟩
      rw [hkey, hsize, hfull]
      refine ⟨⟨ivs, hsequence, hchecksum.trans hchecksums⟩, ?_, ?_⟩
      · rw [hfull]
        exact chunksFor_mul_ge hp.chunkSize_pos
      · rw [hfull]
        exact chunksFor_pred_mul_le _ _

/-- A handle in one of its two phases. -/
def Intact (C : Primitives) (ivs : Nat → Iv) (p : UploadParams) (s : UploadSession) : Prop :=
  (∃ k, s.Collects C ivs p k) ∨ s.Drains C ivs p

/-- **One call** keeps a handle intact, and it is sound. -/
theorem Intact.call (hp : p.Usable) (h : s.Intact C ivs p) {call : UploadCall}
    (hharmless : s.Harmless N call) :
    (s.call C N ivs call).2.Intact C ivs p ∧ s.Sound C N ivs call := by
  cases call with
  | write data =>
      rcases h with ⟨k, hcollects⟩ | hdrains
      · rcases hcollects.write hp hharmless with ⟨hcall, -⟩ | ⟨k', t, hcall, ht, -, -, hcommits⟩
        · unfold Sound
          rw [hcall]
          exact ⟨Or.inl ⟨k, hcollects⟩, rfl⟩
        · unfold Sound
          rw [hcall]
          exact ⟨Or.inl ⟨k', ht⟩, hcommits⟩
      · obtain ⟨ht, hresult, hcommits⟩ := hdrains.write hp hharmless
        refine ⟨Or.inr ht, ?_⟩
        unfold Sound
        split
        · next info t hcall =>
            rw [hcall] at hresult
            exact absurd rfl (hresult info)
        · next result t _ hcall =>
            rw [hcall] at hcommits
            exact hcommits
  | finalize =>
      rcases h with ⟨k, hcollects⟩ | hdrains
      · by_cases hfull : s.counted.length = p.fileSize
        · obtain ⟨result, t, hends, hcall⟩ := hcollects.finalize hp hfull hharmless
          refine ⟨Or.inr ?_, sound_of_ends hp hfull hends hcall⟩
          rw [hcall]
          exact Drains.of_ends hcollects.counts hfull hends
        · have hearly : ¬ s.upload.stream.isFullyFilled = true := fun hfilled =>
            hfull (hcollects.counts.isFullyFilled.mp hfilled)
          unfold Sound
          rw [call_finalize_early hearly]
          exact ⟨Or.inl ⟨k, hcollects⟩, rfl⟩
      · obtain ⟨result, t, hends, hcall⟩ := hdrains.finalize hp hharmless
        refine ⟨Or.inr ?_, sound_of_ends hp hdrains.length_eq hends hcall⟩
        rw [hcall]
        exact Drains.of_ends hdrains.counts hdrains.length_eq hends

/-- **No silent corruption.**  In every run whose calls all do no harm, a `finalize` that
returns has committed the encoding of what the handle has counted, and no other call has
committed anything. -/
theorem no_silent_corruption (hp : p.Usable) {calls : List UploadCall}
    (hrun : Run (guarded (Harmless N) (Step C N ivs)) (opened N p) calls s) {call : UploadCall}
    (hharmless : s.Harmless N call) : s.Sound C N ivs call := by
  have hstep : ∀ v call w, Intact C ivs p v → guarded (Harmless N) (Step C N ivs) v call w →
      Intact C ivs p w := by
    intro v call w hv hstep
    obtain ⟨hok, rfl⟩ := hstep
    exact (hv.call hp hok).1
  have hintact := hrun.preserves (Intact C ivs p) hstep (Or.inl ⟨0, Collects.opened hp N⟩)
  exact (hintact.call hp hharmless).2

end UploadSession

/-- An upload of a small file, whose requests have the size of one encrypted chunk. -/
def sampleUpload (chunkSize fileSize : Nat) : UploadParams where
  key := sampleKey
  chunkSize := chunkSize
  fileSize := fileSize
  serverRequestChunkSize := 64
  randomWriteSupport := false

/-- A transport that loses one call. -/
def losing (n : Nat) : Transport where
  requestId := "request"
  fails j := j == n
  accepts _ _ := true

/-- The session of a sample upload after some calls. -/
def sampleUploadSession (n chunkSize fileSize : Nat) (calls : List UploadCall) : UploadSession :=
  calls.foldl (fun s call => (s.call samplePrimitives (losing n) (fun _ => sampleIv) call).2)
    (UploadSession.opened (losing n) (sampleUpload chunkSize fileSize))

namespace UploadSession

/-- Three bytes in chunks of two.  The first `finalize` loses its only request, the second
one sends it again. -/
theorem no_silent_corruption_sample :
    ∃ info, ((sampleUploadSession 1 2 3 [.write [1, 2, 3], .finalize]).call samplePrimitives (losing 1)
        (fun _ => sampleIv) .finalize).1 = .ok (some info) ∧
      (sampleUploadSession 1 2 3 [.write [1, 2, 3], .finalize]).Sound samplePrimitives (losing 1)
        (fun _ => sampleIv) .finalize := by
  have hp : (sampleUpload 2 3).Usable := ⟨by decide, by decide, by decide, Or.inl (by decide)⟩
  have hwrite : (sampleUploadSession 1 2 3 []).Harmless (losing 1) (.write [1, 2, 3]) := by
    intro stream hstream
    exact ⟨by decide, by decide +kernel⟩
  have hfirst : (sampleUploadSession 1 2 3 [.write [1, 2, 3]]).Harmless (losing 1) .finalize := by
    intro hfilled
    decide +kernel
  have hsecond : (sampleUploadSession 1 2 3 [.write [1, 2, 3], .finalize]).Harmless (losing 1)
      .finalize := by
    intro hfilled
    decide +kernel
  have hrun : Run (guarded (Harmless (losing 1)) (Step samplePrimitives (losing 1)
      (fun _ => sampleIv))) (opened (losing 1) (sampleUpload 2 3)) [.write [1, 2, 3], .finalize]
      (sampleUploadSession 1 2 3 [.write [1, 2, 3], .finalize]) :=
    .cons ⟨hwrite, rfl⟩ (.cons ⟨hfirst, rfl⟩ (.nil _))
  exact ⟨_, rfl, no_silent_corruption hp hrun hsecond⟩

/-- The chunks of an encoded file can be decrypted, with the tags in front of them. -/
theorem decrypt_of_encoded {e : ChunkEncryptor} {P file checksum : Bytes} {n i : Nat}
    (h : EncodedFile C e P n file checksum) (hi : i < n) :
    e.decrypt C i
        { data := slice file (i * encLen e.chunkSize) (encLen e.chunkSize)
          hmac := (slice file (i * encLen e.chunkSize) (encLen e.chunkSize)).take HMAC_SIZE } =
      .ok (block e.chunkSize P i) := by
  obtain ⟨ivs, hfile, -⟩ := h.slice_file i
  rw [if_pos hi] at hfile
  have htag : (encChunk C e P ivs i).data.take HMAC_SIZE = (encChunk C e P ivs i).hmac :=
    List.take_left' (length_encChunk_hmac ivs i)
  rw [hfile, htag]
  exact ChunkEncryptor.decrypt_encrypt i _ _

/-- **A repeated chunk.**  Two bytes in chunks of one.  The first request of the write is
lost, and the chunk that it would have sent stays encrypted.  `finalize` encrypts the first
byte once more, the second byte is dropped, and the file that is committed has exactly the
declared size. -/
theorem repeated_chunk_committed :
    ∃ s, Run (Step samplePrimitives (losing 0) (fun _ => sampleIv))
        (opened (losing 0) (sampleUpload 1 2)) [.write [1, 2]] s ∧ s.counted = [1, 2] ∧
      (s.call samplePrimitives (losing 0) (fun _ => sampleIv) .finalize).1.toOption.isSome ∧
        (s.call samplePrimitives (losing 0) (fun _ => sampleIv) .finalize).2.upload.requests.data.length =
            (ChunkStreamer.getFileSize 1 2).size ∧
          ¬ s.Sound samplePrimitives (losing 0) (fun _ => sampleIv) .finalize := by
  refine ⟨sampleUploadSession 0 1 2 [.write [1, 2]], .cons rfl (.nil _), rfl, by decide +kernel,
    by decide +kernel, ?_⟩
  obtain ⟨info, hok, hkey, hsize⟩ : ∃ info, ((sampleUploadSession 0 1 2 [.write [1, 2]]).call
      samplePrimitives (losing 0) (fun _ => sampleIv) .finalize).1 = .ok (some info) ∧
        info.key = sampleKey ∧ info.chunkSize = 1 := ⟨_, rfl, rfl, rfl⟩
  have hcall : (sampleUploadSession 0 1 2 [.write [1, 2]]).call samplePrimitives (losing 0)
      (fun _ => sampleIv) .finalize = (.ok (some info), ((sampleUploadSession 0 1 2
        [.write [1, 2]]).call samplePrimitives (losing 0) (fun _ => sampleIv) .finalize).2) :=
    Prod.ext hok rfl
  unfold Sound
  rw [hcall]
  rintro ⟨model, hcommitted⟩
  have hencoded := hcommitted.encoded
  rw [hkey, hsize] at hencoded
  -- the second chunk is encrypted under the index of the first one
  have hdecrypt := decrypt_of_encoded hencoded (i := 1) (by decide)
  exact absurd hdecrypt (by decide +kernel)

end UploadSession

end PrivmxEndpoint
