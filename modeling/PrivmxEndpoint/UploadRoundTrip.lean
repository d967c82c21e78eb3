import PrivmxEndpoint.ReadBack
import PrivmxEndpoint.UploadRuns

/-!
# Upload and download

A file that is written in any pieces over a transport that does not fail arrives on the
server as the encryption of its chunks, cut into requests, in the sizes that were declared
for it.  A handle that is opened with what `finalize` returned reads it back.

Two ranges of numbers limit this: the sizes have to fit into 64 bits, and a reader takes
the window with the initial number of its cache for one it has read.
-/

namespace PrivmxEndpoint

open Word Splice Blocks Throwing Runs

/-- A whole upload: the request, the writes, and `finalize`. -/
def uploadFile {σ : Type} (C : Primitives) (A : RequestApi σ) (ivs : Nat → Iv) (p : UploadParams)
    (pieces : List Bytes) : Prog StoreError (Upload σ) ChunksSentInfo := do
  FileWriteHandle.createRequestData A p.key p.randomWriteSupport
  pieces.forM (FileWriteHandle.write C A ivs)
  FileWriteHandle.finalize C A ivs

/-- A handle and a server before the upload. -/
def UploadParams.start (p : UploadParams) : Upload UploadServer :=
  FileWriteHandle.create p.fileSize p.chunkSize p.serverRequestChunkSize
    { declared := [], chunks := [], commits := [], sends := 0 }

/-- A transport that does not fail, and a server that accepts every commit. -/
def Transport.reliable (requestId : String) : Transport where
  requestId := requestId
  fails _ := false
  accepts _ _ := true

/-- The sizes that an upload computes with stay below `2 ^ 64`. -/
structure UploadParams.Fits (p : UploadParams) : Prop where
  chunkSize_pos : 0 < p.chunkSize
  requestSize_pos : 0 < p.serverRequestChunkSize
  chunk_lt : encLen p.chunkSize < 2 ^ 64
  file_lt : encFileLen p.chunkSize p.fileSize < 2 ^ 64
  sum_lt : p.fileSize = 0 ∨ p.fileSize + p.chunkSize < 2 ^ 64

/-- What is on the server after an upload, and what `finalize` returned. -/
structure Uploaded (C : Primitives) (ivs : Nat → Iv) (p : UploadParams) (P : Bytes)
    (s : UploadServer) (info : ChunksSentInfo) (model : CommitFileModel) : Prop where
  consecutive : s.chunks.map (·.seq) = List.range s.chunks.length
  fullSized : ∀ chunk ∈ s.chunks.dropLast, chunk.data.length = p.serverRequestChunkSize
  data_eq : s.data =
    join (fun i => (encChunk C p.encryptor P ivs i).data) 0 (chunksFor p.chunkSize P.length)
  checksum_eq : model.checksum =
    join (fun i => (encChunk C p.encryptor P ivs i).hmac) 0 (chunksFor p.chunkSize P.length)
  commits_eq : s.commits = [model]
  declared_eq : s.declared =
    [{ size := s.data.length
       checksumSize := model.checksum.length
       randomWrite := p.randomWriteSupport }]
  key_eq : info.key = p.key
  chunkSize_eq : info.chunkSize = p.chunkSize
  hmac_eq : info.hmac = C.hmacSha256 p.key model.checksum

section Uploading

variable {C : Primitives} {ivs : Nat → Iv} {p : UploadParams} {k : Nat} {requestId : String}
  {s : UploadSession}

/-- Over a reliable transport every call does no harm. -/
theorem UploadSession.harmless_reliable {n : Nat} (hcounts : p.Counts n s.upload.stream)
    (hF : p.fileSize < 2 ^ 64) {data : Bytes} (hfits : n + data.length ≤ p.fileSize) :
    s.Harmless (.reliable requestId) (.write data) := by
  intro stream _
  refine ⟨?_, fun _ _ => rfl⟩
  rw [hcounts.totalDataSize_eq]
  omega

theorem UploadSession.exec_of_call_write {N : Transport} {t : UploadSession} {data : Bytes}
    (h : s.call C N ivs (.write data) = (.ok none, t)) :
    exec (FileWriteHandle.write C N.api ivs data) s.upload = (.ok (), t.upload) := by
  unfold UploadSession.call at h
  cases hexec : exec (FileWriteHandle.write C N.api ivs data) s.upload with
  | mk result v =>
      simp only [hexec, Prod.mk.injEq] at h
      obtain ⟨hresult, rfl⟩ := h
      cases result with
      | error e => cases hresult
      | ok a => rfl

theorem UploadSession.exec_of_call_finalize {N : Transport} {t : UploadSession}
    {result : Except StoreError ChunksSentInfo}
    (h : s.call C N ivs .finalize = (result.map some, t)) :
    exec (FileWriteHandle.finalize C N.api ivs) s.upload = (result, t.upload) := by
  unfold UploadSession.call at h
  cases hexec : exec (FileWriteHandle.finalize C N.api ivs) s.upload with
  | mk result' v =>
      simp only [hexec, Prod.mk.injEq] at h
      obtain ⟨hresult, rfl⟩ := h
      cases result' <;> cases result <;> simp_all [Except.map]

/-- **The writes**, by induction on the pieces. -/
theorem exec_writes (hp : p.Usable) (h : s.Collects C ivs p k) {pieces : List Bytes}
    (hfits : s.counted.length + pieces.flatten.length ≤ p.fileSize) :
    ∃ k' t, exec (pieces.forM (FileWriteHandle.write C (Transport.reliable requestId).api ivs))
        s.upload = (.ok (), t) ∧
      UploadSession.Collects C ivs p k' { upload := t, counted := s.counted ++ pieces.flatten } ∧
        t.requests.declared = s.upload.requests.declared ∧
          t.requests.commits = s.upload.requests.commits := by
  induction pieces generalizing s k with
  | nil =>
      refine ⟨k, s.upload, rfl, ?_, rfl, rfl⟩
      rw [List.flatten_nil, List.append_nil]
      exact h
  | cons data pieces ih =>
      rw [List.flatten_cons, List.length_append] at hfits
      have hharmless : s.Harmless (.reliable requestId) (.write data) :=
        UploadSession.harmless_reliable h.counts hp.fileSize_lt (by omega)
      rcases h.write hp hharmless with ⟨-, hbig⟩ | ⟨k', v, hcall, hv, hcounted, hdeclared, hcommits⟩
      · omega
      · obtain ⟨k'', t, hrest, ht, hdeclared', hcommits'⟩ := ih hv
          (by rw [hcounted, List.length_append]; omega)
        rw [hcounted, List.append_assoc, ← List.flatten_cons] at ht
        refine ⟨k'', t, ?_, ht, hdeclared'.trans hdeclared, hcommits'.trans hcommits⟩
        show exec (FileWriteHandle.write C _ ivs data >>= fun _ => pieces.forM _) s.upload = _
        rw [exec_bind, UploadSession.exec_of_call_write hcall]
        exact hrest

theorem UploadParams.Fits.usable (h : p.Fits) : p.Usable where
  chunkSize_pos := h.chunkSize_pos
  requestSize_pos := h.requestSize_pos
  fileSize_lt := by
    rcases h.sum_lt with hzero | hsum
    · omega
    · omega
  buffer_lt := Or.inr h.file_lt

/-- The requests are numbered without a wrap: each but the last has a byte. -/
theorem consecutive_of_numbered {u : Upload UploadServer} (h : u.Numbered) {r : Nat} (hr : 0 < r)
    (hfull : ∀ chunk ∈ u.requests.chunks.dropLast, chunk.data.length = r)
    (hlt : u.requests.data.length < 2 ^ 64) :
    u.requests.chunks.map (·.seq) = List.range u.requests.chunks.length := by
  have hcount : u.requests.chunks.dropLast.length ≤ u.requests.data.length := by
    obtain ⟨rest, hsplit⟩ := List.dropLast_prefix u.requests.chunks
    have hsum : (u.requests.chunks.dropLast.map fun chunk => chunk.data.length).length ≤
        (u.requests.chunks.dropLast.map fun chunk => chunk.data.length).sum := by
      apply List.length_le_sum_of_one_le
      intro n hn
      obtain ⟨chunk, hchunk, rfl⟩ := List.mem_map.mp hn
      rw [hfull chunk hchunk]
      exact hr
    have hdata : u.requests.data =
        u.requests.chunks.dropLast.flatMap ChunkModel.data ++ rest.flatMap ChunkModel.data := by
      rw [← List.flatMap_append, hsplit]
      rfl
    rw [List.length_map] at hsum
    rw [hdata, List.length_append, List.length_flatMap]
    exact le_trans hsum (Nat.le_add_right _ _)
  rw [h.seqs]
  conv_rhs => rw [← List.map_id (List.range u.requests.chunks.length)]
  apply List.map_congr_left
  intro j hj
  rw [List.mem_range] at hj
  rw [List.length_dropLast] at hcount
  exact u64_of_lt (by omega)

/-- What `finalize` leaves on the server when it returns. -/
theorem uploaded_of_ends {N : Transport} {P : Bytes} {more : Nat} {u t : Upload UploadServer}
    {info : ChunksSentInfo} (hp : p.Fits) (hsize : p.fileSize = P.length)
    (hends : Upload.Ends C N ivs p P (chunksFor p.chunkSize p.fileSize) more u t (.ok info))
    (hfull : u.FullSized) (hrequest : u.requestSize = p.serverRequestChunkSize)
    (hdeclared : u.requests.declared =
      [{ size := (ChunkStreamer.getFileSize p.chunkSize p.fileSize).size
         checksumSize := (ChunkStreamer.getFileSize p.chunkSize p.fileSize).checksumSize
         randomWrite := p.randomWriteSupport }])
    (hcommits : u.requests.commits = []) :
    ∃ model, Uploaded C ivs p P t.requests info model := by
  have hcs := hp.chunkSize_pos
  obtain ⟨hempty, hkey, hchunkSize, hhmac, model, hcommit, hchecksum⟩ := hends.succeeded info rfl
  have hsequence := hends.streams.sequence_eq
  have hchecksums := hchecksum.trans hends.streams.checksums_eq
  rw [Upload.sequence, hempty, List.append_nil] at hsequence
  rw [hsize] at hsequence hchecksums
  have hencoded : EncodedFile C p.encryptor P (chunksFor p.chunkSize P.length) t.requests.data
      model.checksum :=
    ⟨⟨ivs, hsequence, hchecksums⟩, chunksFor_mul_ge hcs, chunksFor_pred_mul_le _ _⟩
  have hlength : t.requests.data.length = encFileLen p.chunkSize p.fileSize := by
    rw [hsize]
    exact EncodedFile.length_eq_encFileLen (e := p.encryptor) hcs hencoded
  have hchecked := (checkedFileSize_eq_some hcs hp.file_lt).mpr
    ⟨hp.sum_lt.imp_right fun hsum => ⟨hsum, hp.chunk_lt⟩, rfl⟩
  have hsizes := (getFileSize_of_checked hcs hp.file_lt hchecked).1
  have hshort : ∀ chunk ∈ t.requests.chunks.dropLast,
      chunk.data.length = p.serverRequestChunkSize := fun chunk hchunk =>
    ((hends.short hfull).1 chunk hchunk).trans hrequest
  refine ⟨model, consecutive_of_numbered hends.streams.numbered hp.requestSize_pos hshort ?_,
    hshort, hsequence, hchecksums, ?_, ?_, hkey, hchunkSize, ?_⟩
  · rw [hlength]
    exact hp.file_lt
  · rw [hcommit, hcommits]
    rfl
  · rw [hends.declared_eq, hdeclared, hsizes, hlength, hencoded.length_checksum, hsize]
  · rw [hhmac, hchecksum]

/-- **An upload** over a reliable transport does not throw, and it leaves on the server
what was declared. -/
theorem uploadFile_ok (hp : p.Fits) (pieces : List Bytes)
    (hsize : p.fileSize = pieces.flatten.length) :
    ∃ info t model, exec (uploadFile C (Transport.reliable requestId).api ivs p pieces) p.start =
        (.ok info, t) ∧
      Uploaded C ivs p pieces.flatten t.requests info model := by
  have hopened : exec (FileWriteHandle.createRequestData (Transport.reliable requestId).api p.key
      p.randomWriteSupport) p.start =
        (.ok (), (UploadSession.opened (.reliable requestId) p).upload) := rfl
  have hfits : 0 + pieces.flatten.length ≤ p.fileSize := by
    rw [hsize]
    exact Nat.le_of_eq (Nat.zero_add _)
  have hstart : UploadSession.Collects C ivs p 0 (UploadSession.opened (.reliable requestId) p) :=
    UploadSession.Collects.opened hp.usable (.reliable requestId)
  obtain ⟨k, v, hwrites, hcollects, hdeclared, hcommits⟩ := exec_writes hp.usable hstart hfits
  have hv : UploadSession.Collects C ivs p k { upload := v, counted := pieces.flatten } := hcollects
  obtain ⟨result, t, hends, hcall⟩ := hv.finalize (N := .reliable requestId) hp.usable hsize.symm
    (fun _ => Or.inr ⟨fun _ _ => rfl, fun _ => rfl⟩)
  have hfinalize := UploadSession.exec_of_call_finalize hcall
  have hexec : exec (uploadFile C (Transport.reliable requestId).api ivs p pieces) p.start =
      (result, t.closed result) := by
    unfold uploadFile
    rw [exec_bind, hopened]
    dsimp only
    rw [exec_bind, hwrites]
    exact hfinalize
  cases result with
  | error e =>
      exfalso
      obtain ⟨-, ⟨j, hfails⟩ | haccepts | hwrap⟩ := hends.failed e rfl
      · cases hfails
      · cases haccepts
      · have htaken := hv.taken
        have hrest := hv.rest_lt
        have hlt := hp.usable.fileSize_lt
        rw [hv.rest_eq, List.length_drop] at hrest
        dsimp only at htaken hrest
        rcases hp.sum_lt with hzero | hsum
        · omega
        · omega
  | ok info =>
      obtain ⟨model, huploaded⟩ := uploaded_of_ends hp hsize hends hv.awaits.fullSized
        hv.streams.requestSize_eq hdeclared hcommits
      exact ⟨info, t.closed (.ok info), model, hexec, huploaded⟩

/-! ## Reading the upload -/

/-- The file that the server keeps of an upload, and the parameters that a reader is given:
the key, the tag and the chunk size that `finalize` returned, and the sizes. -/
structure Served (s : UploadServer) (info : ChunksSentInfo) (model : CommitFileModel) (size : Nat)
    (file : ServerFile) (d : FileDecryptionParams) : Prop where
  file_eq : file.file = s.data
  checksum_eq : file.checksum = model.checksum
  key_eq : d.key = info.key
  hmac_eq : d.hmac = info.hmac
  chunkSize_eq : d.chunkSize = info.chunkSize
  originalSize_eq : d.originalSize = size
  sizeOnServer_eq : d.sizeOnServer = s.data.length
  version_eq : d.version = file.version

variable {P : Bytes} {u : UploadServer} {info : ChunksSentInfo} {model : CommitFileModel}
  {file : ServerFile} {d : FileDecryptionParams} {win : Nat}

theorem Uploaded.encodedFile (h : Uploaded C ivs p P u info model) (hcs : 0 < p.chunkSize) :
    EncodedFile C p.encryptor P (chunksFor p.chunkSize P.length) u.data model.checksum :=
  ⟨⟨ivs, h.data_eq, h.checksum_eq⟩, chunksFor_mul_ge hcs, chunksFor_pred_mul_le _ _⟩

theorem Uploaded.length_data (h : Uploaded C ivs p P u info model) (hcs : 0 < p.chunkSize) :
    u.data.length = encFileLen p.chunkSize P.length :=
  EncodedFile.length_eq_encFileLen (e := p.encryptor) hcs (h.encodedFile hcs)

/-- An upload is a stored file for its reader. -/
theorem Uploaded.storedFile (h : Uploaded C ivs p P u info model) (hcs : 0 < p.chunkSize)
    (hd : Served u info model P.length file d) : StoredFile C d P file := by
  have hchunkSize : d.chunkSize = p.chunkSize := hd.chunkSize_eq.trans h.chunkSize_eq
  have hkey : d.key = p.key := hd.key_eq.trans h.key_eq
  have hencryptor : d.encryptor = p.encryptor := by
    unfold FileDecryptionParams.encryptor UploadParams.encryptor
    rw [hkey, hchunkSize]
  refine ⟨hchunkSize ▸ hcs, ?_, ?_, hd.originalSize_eq, ?_, hd.version_eq⟩
  · rw [hencryptor, hchunkSize, hd.file_eq, hd.checksum_eq]
    exact h.encodedFile hcs
  · rw [hd.hmac_eq, h.hmac_eq, hkey, hd.checksum_eq]
  · rw [hd.sizeOnServer_eq, hd.file_eq]

/-- What is read from an upload: a handle is opened, every read in range of every run of
reads returns its range, and a fresh handle reads everything if and only if all chunks are
addressable. -/
structure ReadBack (C : Primitives) (P : Bytes) (file : ServerFile) (d : FileDecryptionParams)
    (win : Nat) (h : FileReadHandle) : Prop where
  opened : FileReadHandle.create C acknowledgingBridge d win file = (.ok h, file)
  reads : ∀ ranges f, Run (guarded FileReader.InRange (FileReader.Reads C file)) h.fileReader
      ranges f → ∀ offset size, f.InRange (offset, size) →
    ∃ f', f.read C acknowledgingBridge offset size file = (.ok (slice P offset size), f', file)
  readsAll_iff : chunksFor d.chunkSize P.length ≤ 2 ^ 32 →
    (h.fileReader.ReadsAll C P file ↔
      h.fileReader.chunkReader.chunkDataProvider.Reaches d.chunkSize P.length)

theorem StoredFile.readBack (h : StoredFile C d P file) (hwin : WindowSize d.chunkSize win)
    (hlen : file.file.length + (win + encLen d.chunkSize) ≤ 2 ^ 63) :
    ReadBack C P file d win
      { fileReader := openedFileReader d win C file.checksum
        size := d.originalSize
        pos := 0 } := by
  have hpos := hwin.pos
  obtain ⟨hopen, hd⟩ := FileReadHandle.create_ok h hwin (by omega)
  refine ⟨hopen, ?_, FileReader.readsAll_iff h hwin hlen⟩
  intro ranges f hrun offset size hin
  obtain ⟨f', hok, -⟩ := (hd.run hrun).read hin
  exact ⟨f', hok⟩

end Uploading

/-- **Upload and download.**  A plain text that is uploaded in any pieces arrives as its
encryption in requests of the declared sizes, and no step throws.  A handle that is opened
on it reads back every range whose chunks are addressable. -/
theorem FileWriteHandle.upload_read_back {C : Primitives} {ivs : Nat → Iv} {p : UploadParams}
    {requestId : String} (hp : p.Fits) (pieces : List Bytes)
    (hsize : p.fileSize = pieces.flatten.length) :
    ∃ info t model, exec (uploadFile C (Transport.reliable requestId).api ivs p pieces) p.start =
        (.ok info, t) ∧
      Uploaded C ivs p pieces.flatten t.requests info model ∧
      ∀ file d win, Served t.requests info model pieces.flatten.length file d →
        WindowSize d.chunkSize win →
        file.file.length + (win + encLen d.chunkSize) ≤ 2 ^ 63 →
          ∃ h, ReadBack C pieces.flatten file d win h := by
  obtain ⟨info, t, model, hexec, huploaded⟩ := uploadFile_ok hp pieces hsize
  refine ⟨info, t, model, hexec, huploaded, ?_⟩
  intro file d win hserved hwin hlen
  exact ⟨_, (huploaded.storedFile hp.chunkSize_pos hserved).readBack hwin hlen⟩

/-- What the server answers with for an upload. -/
def UploadServer.served (s : UploadServer) (model : CommitFileModel) : ServerFile where
  file := s.data
  checksum := model.checksum
  version := 1
  encryptedMeta := { json := "" }
  keyId := "key"

/-- The parameters of a reader of an upload. -/
def ChunksSentInfo.params (info : ChunksSentInfo) (sizeOnServer originalSize : Nat) :
    FileDecryptionParams where
  fileId := "file"
  resourceId := "resource"
  sizeOnServer := sizeOnServer
  originalSize := originalSize
  cipherType := 1
  chunkSize := info.chunkSize
  key := info.key
  hmac := info.hmac
  version := 1

/-- Four bytes in chunks of two, written in two pieces and read with windows of one
encrypted chunk. -/
theorem FileWriteHandle.upload_read_back_sample :
    (sampleUpload 2 4).Fits ∧
      ∃ info t model, exec (uploadFile samplePrimitives (Transport.reliable "request").api
          (fun _ => sampleIv) (sampleUpload 2 4) [[1, 2, 3], [4]]) (sampleUpload 2 4).start =
            (.ok info, t) ∧
        ∃ h, ReadBack samplePrimitives [1, 2, 3, 4] (t.requests.served model)
          (info.params t.requests.data.length 4) 64 h := by
  have hp : (sampleUpload 2 4).Fits :=
    ⟨by decide, by decide, by decide, by decide, Or.inr (by decide)⟩
  refine ⟨hp, ?_⟩
  obtain ⟨info, t, model, hexec, huploaded, hread⟩ :=
    @upload_read_back samplePrimitives (fun _ => sampleIv) _ "request" hp [[1, 2, 3], [4]] rfl
  have hchunkSize : info.chunkSize = 2 := huploaded.chunkSize_eq
  have hlength : t.requests.data.length = encFileLen 2 4 := huploaded.length_data (by decide)
  refine ⟨info, t, model, hexec, hread (t.requests.served model)
    (info.params t.requests.data.length 4) 64 ⟨rfl, rfl, rfl, rfl, rfl, rfl, rfl, rfl⟩ ?_ ?_⟩
  · show WindowSize info.chunkSize 64
    rw [hchunkSize]
    exact ⟨by decide, by decide⟩
  · show t.requests.data.length + (64 + encLen info.chunkSize) ≤ 2 ^ 63
    rw [hchunkSize, hlength]
    decide

end PrivmxEndpoint
