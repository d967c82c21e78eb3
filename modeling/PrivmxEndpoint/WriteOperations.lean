import PrivmxEndpoint.RandomAccess

/-!
# The operations a write sends

The updated chunks of a write are squashed into changes of less than 512 KiB,
each change becomes one operation on the blob and one on the tag string, and
two changes go into one request.  Every operation but those of the last change
asks the server to cut the blob behind its data.  The server therefore ends up
with one splice of all updated chunks, which cuts the rest of the file as soon
as there are two changes (`applyOperations_squash`).

So the operations reproduce the intended file exactly if the write truncates,
fits into one change, or reaches the last chunk of the file.
-/

namespace PrivmxEndpoint

open Word Splice Blocks Runs

/-- The change that holds `m` consecutive chunks from `i` on. -/
def runOfChunks (u : Nat → UpdateChunkData) (b i m : Nat) : UpdateChanges where
  data := join (fun j => (u j).chunk.data) i m
  dataPos := i * b
  checksum := join (fun j => (u j).chunk.hmac) i m
  checksumPos := i * HMAC_SIZE

/-- Consecutive updated chunks that can be named by 63-bit positions. -/
structure ChunkRun (h : FileHandler) (u : Nat → UpdateChunkData) (i k : Nat) : Prop where
  index_eq : ∀ j, (u j).chunkIndex = j
  tag : ∀ j, (u j).chunk.hmac.length = HMAC_SIZE
  full : ∀ j, i ≤ j → j + 1 < i + k → (u j).chunk.data.length = h.encryptedChunkSize
  fits : ∀ j, i ≤ j → j < i + k → (u j).chunk.data.length ≤ h.encryptedChunkSize
  tag_le : HMAC_SIZE ≤ h.encryptedChunkSize
  end_lt : (i + k) * h.encryptedChunkSize < 2 ^ 63

section Squash

variable {h : FileHandler} {u : Nat → UpdateChunkData}

/-- Every position of the run fits in 63 bits. -/
theorem ChunkRun.pos_lt {i k : Nat} (hr : ChunkRun h u i k) {j : Nat} (hj : j ≤ i + k) :
    j * h.encryptedChunkSize < 2 ^ 63 :=
  lt_of_le_of_lt (Nat.mul_le_mul_right _ hj) hr.end_lt

/-- So does every position of a tag. -/
theorem ChunkRun.tag_pos_lt {i k : Nat} (hr : ChunkRun h u i k) {j : Nat} (hj : j ≤ i + k) :
    j * HMAC_SIZE < 2 ^ 63 :=
  lt_of_le_of_lt (Nat.mul_le_mul_left _ hr.tag_le) (hr.pos_lt hj)

/-- One chunk of the run is a change of its own. -/
theorem ChunkRun.updateChange_eq {i k : Nat} (hr : ChunkRun h u i k) {j : Nat}
    (hj : j ≤ i + k) : h.updateChange (u j) = runOfChunks u h.encryptedChunkSize j 1 := by
  have h1 := hr.pos_lt hj
  have h2 := hr.tag_pos_lt hj
  simp only [FileHandler.updateChange, runOfChunks, join_succ, join_zero, List.append_nil,
    hr.index_eq, HmacList.getHashSize]
  rw [u64_of_lt (by omega), u64_of_lt (by omega)]

/-- The chunks behind the first `m` ones. -/
theorem ChunkRun.behind {i m k : Nat} (hr : ChunkRun h u i (m + (k + 1))) :
    ChunkRun h u (i + m) (1 + k) :=
  { hr with
    full := fun j h1 h2 => hr.full j (by omega) (by omega)
    fits := fun j h1 h2 => hr.fits j (by omega) (by omega)
    end_lt := by
      have hadd : i + m + (1 + k) = i + (m + (k + 1)) := by omega
      rw [hadd]
      exact hr.end_lt }

/-- The loop adds the next chunk to the open change or opens a new one; the
positions always meet, so only the size decides. -/
theorem ChunkRun.squash_succ {i m k : Nat} (hr : ChunkRun h u i (m + (k + 1))) :
    h.squash (runOfChunks u h.encryptedChunkSize i m)
        ((List.range' (i + m) (k + 1)).map u) =
      if (join (fun j => (u j).chunk.data) i (m + 1)).length < SERVER_OPERATION_SIZE_LIMIT then
        h.squash (runOfChunks u h.encryptedChunkSize i (m + 1))
          ((List.range' (i + (m + 1)) k).map u)
      else
        runOfChunks u h.encryptedChunkSize i m ::
          h.squash (runOfChunks u h.encryptedChunkSize (i + m) 1)
            ((List.range' (i + m + 1) k).map u) := by
  have hlen : (join (fun j => (u j).chunk.data) i m).length = m * h.encryptedChunkSize :=
    length_join (fun j h1 h2 => hr.full j h1 (by omega))
  have hpos := hr.pos_lt (show i + m ≤ i + (m + (k + 1)) by omega)
  have hmeet : i * h.encryptedChunkSize + (join (fun j => (u j).chunk.data) i m).length =
      (i + m) * h.encryptedChunkSize := by
    rw [hlen, Nat.add_mul]
  have hgrow : ({ runOfChunks u h.encryptedChunkSize i m with
      data := join (fun j => (u j).chunk.data) i m ++ (u (i + m)).chunk.data
      checksum := join (fun j => (u j).chunk.hmac) i m ++ (u (i + m)).chunk.hmac } :
        UpdateChanges) = runOfChunks u h.encryptedChunkSize i (m + 1) := by
    simp only [runOfChunks, join_last]
  have hcond : (u64 ((runOfChunks u h.encryptedChunkSize i m).dataPos +
        (runOfChunks u h.encryptedChunkSize i m).data.length) =
          u64 ((i + m) * h.encryptedChunkSize) ∧
        (runOfChunks u h.encryptedChunkSize i m).data.length + (u (i + m)).chunk.data.length <
          SERVER_OPERATION_SIZE_LIMIT) ↔
      (join (fun j => (u j).chunk.data) i (m + 1)).length < SERVER_OPERATION_SIZE_LIMIT := by
    rw [join_last, List.length_append]
    exact and_iff_right (congrArg u64 hmeet)
  rw [List.range'_succ, List.map_cons, FileHandler.squash, hr.index_eq,
    hr.updateChange_eq (show i + m ≤ i + (m + (k + 1)) by omega)]
  by_cases hlt : (join (fun j => (u j).chunk.data) i (m + 1)).length < SERVER_OPERATION_SIZE_LIMIT
  · rw [if_pos (hcond.mpr hlt), if_pos hlt, ← hgrow]
    rfl
  · rw [if_neg (fun hc => hlt (hcond.mp hc)), if_neg hlt]

/-- Only the last change truncates. -/
theorem operationsByChange_cons (truncate : Bool) (c : UpdateChanges) {cs : List UpdateChanges}
    (hcs : cs ≠ []) :
    operationsByChange truncate (c :: cs) = changeOperations c true ::
      operationsByChange truncate cs := by
  cases cs with
  | nil => exact absurd rfl hcs
  | cons d ds => rfl

/-- Squashing leaves at least the change it started with. -/
theorem FileHandler.squash_ne_nil (o : UpdateChanges) (us : List UpdateChunkData) :
    h.squash o us ≠ [] := by
  induction us generalizing o with
  | nil => simp [FileHandler.squash]
  | cons u us ih =>
      rw [FileHandler.squash]
      split
      · exact ih _
      · exact List.cons_ne_nil _ _

/-- The two operations of a change on the stored file. -/
theorem applyOperations_change (s : ServerFile) {i m k : Nat} (hr : ChunkRun h u i k)
    (truncate : Bool) :
    s.applyOperations
        (changeOperations (runOfChunks u h.encryptedChunkSize i m) truncate) =
      { s with
        file := writeAt s.file (i * h.encryptedChunkSize)
          (join (fun j => (u j).chunk.data) i m) truncate
        checksum := writeAt s.checksum (i * HMAC_SIZE)
          (join (fun j => (u j).chunk.hmac) i m) truncate } := by
  have h1 := hr.pos_lt (Nat.le_add_right i k)
  have h2 := hr.tag_pos_lt (Nat.le_add_right i k)
  simp only [changeOperations, ServerFile.applyOperations, ServerFile.applyOperation,
    List.foldl_cons, List.foldl_nil, runOfChunks, toInt64_of_lt h1, toInt64_of_lt h2,
    Int.toNat_natCast]

/-- **All operations together.**  The server splices in all updated chunks; it
cuts the rest of the file if the write truncates or takes two changes. -/
theorem applyOperations_squash (truncate : Bool) {i m k : Nat} (hm : 0 < m)
    (hr : ChunkRun h u i (m + k)) (s : ServerFile)
    (hfile : i * h.encryptedChunkSize ≤ s.file.length)
    (hsum : i * HMAC_SIZE ≤ s.checksum.length) :
    s.applyOperations (operationsByChange truncate
        (h.squash (runOfChunks u h.encryptedChunkSize i m)
          ((List.range' (i + m) k).map u))).flatten =
      { s with
        file := writeAt s.file (i * h.encryptedChunkSize)
          (join (fun j => (u j).chunk.data) i (m + k))
          (truncate || decide (1 < (h.squash (runOfChunks u h.encryptedChunkSize i m)
            ((List.range' (i + m) k).map u)).length))
        checksum := writeAt s.checksum (i * HMAC_SIZE)
          (join (fun j => (u j).chunk.hmac) i (m + k))
          (truncate || decide (1 < (h.squash (runOfChunks u h.encryptedChunkSize i m)
            ((List.range' (i + m) k).map u)).length)) } := by
  induction k generalizing i m s with
  | zero =>
      have hop := applyOperations_change s (m := m) hr truncate
      simp only [List.range'_zero, List.map_nil, FileHandler.squash, operationsByChange,
        List.flatten_cons, List.flatten_nil, List.append_nil, hop, Nat.add_zero,
        List.length_singleton, lt_self_iff_false, decide_false, Bool.or_false]
  | succ k ih =>
      rw [hr.squash_succ]
      split
      · have hr' : ChunkRun h u i (m + 1 + k) := by
          rw [Nat.add_assoc, Nat.add_comm 1 k]
          exact hr
        rw [ih (show 0 < m + 1 by omega) hr' s hfile hsum, Nat.add_assoc m 1 k, Nat.add_comm 1 k]
      · have hr' := hr.behind
        have hlen : (join (fun j => (u j).chunk.data) i m).length = m * h.encryptedChunkSize :=
          length_join (fun j h1 h2 => hr.full j h1 (by omega))
        have htags : (join (fun j => (u j).chunk.hmac) i m).length = m * HMAC_SIZE :=
          length_join (fun j _ _ => hr.tag j)
        have hne := FileHandler.squash_ne_nil (h := h)
          (runOfChunks u h.encryptedChunkSize (i + m) 1) ((List.range' (i + m + 1) k).map u)
        have hlong : 1 < (runOfChunks u h.encryptedChunkSize i m ::
            h.squash (runOfChunks u h.encryptedChunkSize (i + m) 1)
              ((List.range' (i + m + 1) k).map u)).length := by
          have := List.length_pos_iff.mpr hne
          rw [List.length_cons]
          omega
        have hjoin : ∀ f : Nat → Bytes,
            join f i m ++ join f (i + m) (1 + k) = join f i (m + (k + 1)) := by
          intro f
          rw [← join_add, Nat.add_comm 1 k]
        rw [operationsByChange_cons truncate _ hne, List.flatten_cons,
          ServerFile.applyOperations, List.foldl_append]
        change ServerFile.applyOperations (s.applyOperations
          (changeOperations (runOfChunks u h.encryptedChunkSize i m) true)) _ = _
        rw [applyOperations_change s (m := m) hr true, ih Nat.one_pos hr' _ (by
            rw [length_writeAt hfile, hlen, Nat.add_mul]
            simp) (by
            rw [length_writeAt hsum, htags, Nat.add_mul]
            simp)]
        simp only [hlong, decide_true, Bool.or_true, Nat.add_mul]
        rw [← hlen, writeAt_writeAt hfile, ← htags, writeAt_writeAt hsum]
        simp only [Bool.true_or, hjoin]

end Squash

/-! ## Requests -/

/-- Batching neither loses nor reorders operations. -/
theorem flatten_batchesFrom (operations : List StoreFileRandomWriteOperation) (room : Nat)
    (rest : List (List StoreFileRandomWriteOperation)) :
    (batchesFrom operations room rest).flatten = operations ++ rest.flatten := by
  induction rest generalizing operations room with
  | nil => rfl
  | cons change rest ih =>
      cases room with
      | zero => rw [batchesFrom, List.flatten_cons, ih, List.flatten_cons]
      | succ room => rw [batchesFrom, ih, List.flatten_cons, List.append_assoc]

/-- Nothing is lost or reordered in the batches. -/
theorem flatten_batches (ops : List (List StoreFileRandomWriteOperation)) :
    (batches ops).flatten = ops.flatten := by
  cases ops with
  | nil => rfl
  | cons change rest => exact flatten_batchesFrom change _ rest

/-- There is always a last request. -/
theorem batchesFrom_ne_nil (operations : List StoreFileRandomWriteOperation) (room : Nat)
    (rest : List (List StoreFileRandomWriteOperation)) : batchesFrom operations room rest ≠ [] := by
  induction rest generalizing operations room with
  | nil => exact List.cons_ne_nil _ _
  | cons change rest ih =>
      cases room with
      | zero => exact List.cons_ne_nil _ _
      | succ room => exact ih _ room

/-- A write with operations sends a request. -/
theorem batches_ne_nil {ops : List (List StoreFileRandomWriteOperation)} (h : ops ≠ []) :
    batches ops ≠ [] := by
  cases ops with
  | nil => exact absurd rfl h
  | cons change rest => exact batchesFrom_ne_nil change _ rest

/-- A batch is two changes. -/
theorem batches_cons_cons (change next : List StoreFileRandomWriteOperation)
    (rest : List (List StoreFileRandomWriteOperation)) :
    batches (change :: next :: rest) = (change ++ next) :: batches rest := by
  cases rest <;> rfl

/-- A write with changes has operations. -/
theorem operationsByChange_ne_nil {truncate : Bool} {cs : List UpdateChanges} (h : cs ≠ []) :
    operationsByChange truncate cs ≠ [] := by
  cases cs with
  | nil => exact absurd rfl h
  | cons c rest =>
      cases rest with
      | nil => simp [operationsByChange]
      | cons d rest => simp [operationsByChange]

/-- Operations do not look at the version and the meta. -/
theorem applyOperations_stamped (ops : List StoreFileRandomWriteOperation) (s : ServerFile)
    (v : Int) (m : EncryptedMeta) (key : String) :
    ({ s with version := v, encryptedMeta := m, keyId := key } : ServerFile).applyOperations ops =
      { s.applyOperations ops with version := v, encryptedMeta := m, keyId := key } := by
  induction ops generalizing s with
  | nil => rfl
  | cons op ops ih =>
      have hop : ({ s with version := v, encryptedMeta := m, keyId := key } :
          ServerFile).applyOperation op =
          { s.applyOperation op with version := v, encryptedMeta := m, keyId := key } := by
        cases htype : op.type <;> simp [ServerFile.applyOperation, htype]
      rw [ServerFile.applyOperations, List.foldl_cons, hop]
      exact ih _

/-- A server that accepts everything ends up with all operations applied and
the version of the requests counted up. -/
theorem sendAll_applying {h : FileHandler} {changes : List UpdateChanges} (hne : changes ≠ [])
    (m : EncryptedMeta) (key : String) (truncate : Bool) (s : ServerFile) :
    sendAll applyingBridge (h.writeRequests changes m key truncate) s =
      (.ok (),
        { s.applyOperations (operationsByChange truncate changes).flatten with
          version := h.version + 1
          encryptedMeta := m
          keyId := key }) := by
  have hall : ∀ (bs : List (List StoreFileRandomWriteOperation)) (s : ServerFile), bs ≠ [] →
      sendAll applyingBridge (bs.map fun operations =>
        { fileId := h.fileInfo.fileId
          operations := operations
          encryptedMeta := m
          keyId := key
          version := h.version
          force := false }) s =
      (.ok (),
        { s.applyOperations bs.flatten with
          version := h.version + 1
          encryptedMeta := m
          keyId := key }) := by
    intro bs
    induction bs with
    | nil => exact fun _ hbs => absurd rfl hbs
    | cons b bs ih =>
        intro s _
        rw [List.map_cons, sendAll]
        simp only [applyingBridge]
        cases bs with
        | nil => simp [sendAll, ServerFile.applyRequest]
        | cons b' bs =>
            refine (ih _ (List.cons_ne_nil _ _)).trans ?_
            rw [ServerFile.applyRequest, applyOperations_stamped]
            simp only [ServerFile.applyOperations, List.flatten_cons, List.foldl_append]
  rw [FileHandler.writeRequests, hall _ _ (batches_ne_nil (operationsByChange_ne_nil hne)),
    flatten_batches]

/-- One change is enough for one chunk or for less than 512 KiB. -/
theorem ChunkRun.length_squash_eq_one {h : FileHandler} {u : Nat → UpdateChunkData} {i m k : Nat}
    (hr : ChunkRun h u i (m + k)) :
    (h.squash (runOfChunks u h.encryptedChunkSize i m)
        ((List.range' (i + m) k).map u)).length = 1 ↔
      k = 0 ∨ (join (fun j => (u j).chunk.data) i (m + k)).length <
        SERVER_OPERATION_SIZE_LIMIT := by
  induction k generalizing m with
  | zero => simp [FileHandler.squash]
  | succ k ih =>
      have hadd : m + 1 + k = m + (k + 1) := by omega
      have hr' : ChunkRun h u i (m + 1 + k) := hadd ▸ hr
      have hmono : (join (fun j => (u j).chunk.data) i (m + 1)).length ≤
          (join (fun j => (u j).chunk.data) i (m + (k + 1))).length := by
        rw [← hadd, join_add _ _ (m + 1), List.length_append]
        exact Nat.le_add_right _ _
      rw [hr.squash_succ]
      split
      · rename_i hlt
        rw [ih hr', hadd]
        constructor
        · rintro (rfl | hlt')
          · exact Or.inr hlt
          · exact Or.inr hlt'
        · rintro (h0 | hlt')
          · omega
          · exact Or.inr hlt'
      · rename_i hge
        have hpos := List.length_pos_iff.mpr (FileHandler.squash_ne_nil (h := h)
          (runOfChunks u h.encryptedChunkSize (i + m) 1) ((List.range' (i + m + 1) k).map u))
        rw [List.length_cons]
        constructor
        · omega
        · rintro (h0 | hlt') <;> omega

/-! ## When the stored file is the intended one -/

/-- The plain size after a write. -/
def WriteCall.newSize (c : WriteCall) (size : Nat) : Nat :=
  if c.truncate then c.offset + c.data.length else max size (c.offset + c.data.length)

/-- The number of encrypted bytes a write sends. -/
def WriteCall.sentLength (c : WriteCall) (cs size : Nat) : Nat :=
  (c.count cs size - 1) * encLen cs + encLen (min cs (c.newSize size - c.lastChunk cs * cs))

/-- The write touches one chunk or sends less than 512 KiB. -/
def WriteCall.OneChange (c : WriteCall) (cs size : Nat) : Prop :=
  c.count cs size = 1 ∨ c.sentLength cs size < SERVER_OPERATION_SIZE_LIMIT

instance (c : WriteCall) (cs size : Nat) : Decidable (c.OneChange cs size) :=
  inferInstanceAs (Decidable (_ ∨ _))

/-- The write truncates, takes one change, or reaches the last chunk. -/
def WriteCall.KeepsTail (c : WriteCall) (h : FileHandler) : Prop :=
  c.truncate = true ∨ c.OneChange h.plainChunkSize h.plainfileSize ∨
    h.chunkReader.hashList.size ≤ c.lastChunk h.plainChunkSize + 1

section Applied

variable {C : Primitives} {h : FileHandler} {s : ServerFile} {P file checksum : Bytes} {n : Nat}
  (c : WriteCall)

/-- The chunks of a write make one run. -/
theorem WriteCall.chunkRun (hd : h.Describes C P n file checksum)
    (haddr : h.chunkReader.chunkDataProvider.Addressable
      (c.lastChunk h.chunkReader.chunkEncryptor.chunkSize)) :
    ChunkRun h (c.update C h P file) (c.firstChunk h.chunkReader.chunkEncryptor.chunkSize P.length)
      (1 + (c.count h.chunkReader.chunkEncryptor.chunkSize P.length - 1)) := by
  have hcs := hd.reader.chunkSize_pos
  have hpos := c.count_pos h.chunkReader.chunkEncryptor.chunkSize P.length
  have hone : 1 + (c.count h.chunkReader.chunkEncryptor.chunkSize P.length - 1) =
      c.count h.chunkReader.chunkEncryptor.chunkSize P.length := by omega
  obtain ⟨ivs, -, -⟩ := hd.reader.encoded.encoded
  have hrep := c.replaces_data hcs hd.reader.encoded ivs
  have hend := haddr.chunk_end_lt hd.reader.shaped
  rw [hd.reader.encryptedChunkSize_eq] at hend
  rw [hone]
  refine ⟨fun _ => rfl, fun j => ChunkEncryptor.length_encrypt_hmac _ _ _, ?_, ?_, ?_, ?_⟩
  · intro j h1 h2
    rw [hd.encryptedChunkSize_eq]
    exact hrep.full j h1 h2
  · intro j _ _
    rw [hd.encryptedChunkSize_eq]
    exact le_trans (ChunkEncryptor.length_encrypt_data _ _ _).le
      (encLen_mono (length_block_le _ _ _))
  · rw [hd.encryptedChunkSize_eq, encLen, HMAC_SIZE]
    omega
  · rw [c.firstChunk_add_count, hd.encryptedChunkSize_eq]
    exact hend

/-- The encrypted bytes of a write. -/
theorem WriteCall.length_sent (hd : h.Describes C P n file checksum) :
    (join (fun i => (c.chunk C h.chunkReader.chunkEncryptor P i).data)
      (c.firstChunk h.chunkReader.chunkEncryptor.chunkSize P.length)
      (c.count h.chunkReader.chunkEncryptor.chunkSize P.length)).length =
      c.sentLength h.chunkReader.chunkEncryptor.chunkSize P.length := by
  have hcs := hd.reader.chunkSize_pos
  obtain ⟨ivs, -, -⟩ := hd.reader.encoded.encoded
  have hrun := c.firstChunk_add_count h.chunkReader.chunkEncryptor.chunkSize P.length
  have hlast : c.firstChunk h.chunkReader.chunkEncryptor.chunkSize P.length +
      c.count h.chunkReader.chunkEncryptor.chunkSize P.length - 1 =
      c.lastChunk h.chunkReader.chunkEncryptor.chunkSize := by omega
  rw [(c.replaces_data hcs hd.reader.encoded ivs).length_run, hlast, WriteCall.chunk,
    length_encChunk_data, length_block, c.length_plain]
  rfl

/-- The changes of a write, as the loop finds them. -/
theorem WriteCall.changes_eq (hd : h.Describes C P n file checksum)
    (haddr : h.chunkReader.chunkDataProvider.Addressable
      (c.lastChunk h.chunkReader.chunkEncryptor.chunkSize)) :
    h.createListOfUpdateChangesFromUpdateChunkData (c.updates C h P file) =
      h.squash (runOfChunks (c.update C h P file) h.encryptedChunkSize
        (c.firstChunk h.chunkReader.chunkEncryptor.chunkSize P.length) 1)
        ((List.range' (c.firstChunk h.chunkReader.chunkEncryptor.chunkSize P.length + 1)
          (c.count h.chunkReader.chunkEncryptor.chunkSize P.length - 1)).map
            (c.update C h P file)) := by
  have hpos := c.count_pos h.chunkReader.chunkEncryptor.chunkSize P.length
  have hone : c.count h.chunkReader.chunkEncryptor.chunkSize P.length =
      c.count h.chunkReader.chunkEncryptor.chunkSize P.length - 1 + 1 := by omega
  have hchange := (c.chunkRun hd haddr).updateChange_eq (Nat.le_add_right _ _)
  rw [WriteCall.updates]
  conv_lhs => rw [hone]
  rw [List.range'_succ, List.map_cons,
    FileHandler.createListOfUpdateChangesFromUpdateChunkData, hchange]

/-- Every write changes something. -/
theorem WriteCall.changes_ne_nil (hd : h.Describes C P n file checksum)
    (haddr : h.chunkReader.chunkDataProvider.Addressable
      (c.lastChunk h.chunkReader.chunkEncryptor.chunkSize)) :
    h.createListOfUpdateChangesFromUpdateChunkData (c.updates C h P file) ≠ [] := by
  rw [c.changes_eq hd haddr]
  exact FileHandler.squash_ne_nil _ _

/-- When the chunks of a write are squashed into one change. -/
theorem WriteCall.length_changes_eq_one (hd : h.Describes C P n file checksum)
    (haddr : h.chunkReader.chunkDataProvider.Addressable
      (c.lastChunk h.chunkReader.chunkEncryptor.chunkSize)) :
    (h.createListOfUpdateChangesFromUpdateChunkData (c.updates C h P file)).length = 1 ↔
      c.OneChange h.chunkReader.chunkEncryptor.chunkSize P.length := by
  have hpos := c.count_pos h.chunkReader.chunkEncryptor.chunkSize P.length
  have hone : 1 + (c.count h.chunkReader.chunkEncryptor.chunkSize P.length - 1) =
      c.count h.chunkReader.chunkEncryptor.chunkSize P.length := by omega
  have hsent : (join (fun j => (c.update C h P file j).chunk.data)
      (c.firstChunk h.chunkReader.chunkEncryptor.chunkSize P.length)
      (c.count h.chunkReader.chunkEncryptor.chunkSize P.length)).length =
      c.sentLength h.chunkReader.chunkEncryptor.chunkSize P.length := c.length_sent hd
  have hcount := (c.chunkRun hd haddr).length_squash_eq_one
  rw [hone, hsent] at hcount
  rw [c.changes_eq hd haddr, hcount, WriteCall.OneChange]
  exact or_congr (by omega) Iff.rfl

/-- What the server holds after it has applied every operation of a write. -/
theorem WriteCall.applied_eq (hd : h.Describes C P n s.file s.checksum)
    (haddr : h.chunkReader.chunkDataProvider.Addressable
      (c.lastChunk h.chunkReader.chunkEncryptor.chunkSize)) (m : EncryptedMeta) (key : String) :
    sendAll applyingBridge (h.writeRequests
        (h.createListOfUpdateChangesFromUpdateChunkData (c.updates C h P s.file)) m key
        c.truncate) s =
      (.ok (),
        { file := writeAt s.file (c.firstChunk h.chunkReader.chunkEncryptor.chunkSize P.length *
              encLen h.chunkReader.chunkEncryptor.chunkSize)
            (join (fun i => (c.chunk C h.chunkReader.chunkEncryptor P i).data)
              (c.firstChunk h.chunkReader.chunkEncryptor.chunkSize P.length)
              (c.count h.chunkReader.chunkEncryptor.chunkSize P.length))
            (c.truncate || decide (¬ c.OneChange h.chunkReader.chunkEncryptor.chunkSize P.length))
          checksum := writeAt s.checksum
            (c.firstChunk h.chunkReader.chunkEncryptor.chunkSize P.length * HMAC_SIZE)
            (join (fun i => (c.chunk C h.chunkReader.chunkEncryptor P i).hmac)
              (c.firstChunk h.chunkReader.chunkEncryptor.chunkSize P.length)
              (c.count h.chunkReader.chunkEncryptor.chunkSize P.length))
            (c.truncate || decide (¬ c.OneChange h.chunkReader.chunkEncryptor.chunkSize P.length))
          version := h.version + 1
          encryptedMeta := m
          keyId := key }) := by
  have hcs := hd.reader.chunkSize_pos
  have hpos := c.count_pos h.chunkReader.chunkEncryptor.chunkSize P.length
  have hone : 1 + (c.count h.chunkReader.chunkEncryptor.chunkSize P.length - 1) =
      c.count h.chunkReader.chunkEncryptor.chunkSize P.length := by omega
  obtain ⟨ivs, hfile, hsum⟩ := hd.reader.encoded.encoded
  have hf := (c.replaces_data hcs hd.reader.encoded ivs).start_length_le
  have hc := (c.replaces_hmac hcs hd.reader.encoded ivs).start_length_le
  rw [← hfile, ← hd.encryptedChunkSize_eq] at hf
  rw [← hsum] at hc
  have hmany : 1 < (h.createListOfUpdateChangesFromUpdateChunkData
      (c.updates C h P s.file)).length ↔
      ¬ c.OneChange h.chunkReader.chunkEncryptor.chunkSize P.length := by
    have hp := List.length_pos_iff.mpr (c.changes_ne_nil hd haddr)
    rw [← c.length_changes_eq_one hd haddr]
    omega
  have hops := applyOperations_squash c.truncate Nat.one_pos (c.chunkRun hd haddr) s hf hc
  rw [← c.changes_eq hd haddr, hone] at hops
  simp only [hmany] at hops
  rw [sendAll_applying (c.changes_ne_nil hd haddr), hops, hd.encryptedChunkSize_eq]
  rfl

/-- **The blob is right exactly if the tail is kept.** -/
theorem WriteCall.file_applied_iff (hd : h.Describes C P n s.file s.checksum) :
    writeAt s.file (c.firstChunk h.chunkReader.chunkEncryptor.chunkSize P.length *
          encLen h.chunkReader.chunkEncryptor.chunkSize)
        (join (fun i => (c.chunk C h.chunkReader.chunkEncryptor P i).data)
          (c.firstChunk h.chunkReader.chunkEncryptor.chunkSize P.length)
          (c.count h.chunkReader.chunkEncryptor.chunkSize P.length))
        (c.truncate || decide (¬ c.OneChange h.chunkReader.chunkEncryptor.chunkSize P.length)) =
      c.file C h.chunkReader.chunkEncryptor P s.file ↔ c.KeepsTail h := by
  have hcs := hd.reader.chunkSize_pos
  obtain ⟨ivs, hfile, -⟩ := hd.reader.encoded.encoded
  have hrep := c.replaces_data hcs hd.reader.encoded ivs
  rw [WriteCall.file, WriteCall.KeepsTail, hd.plainChunkSize_eq, hd.plainfileSize_eq,
    hd.reader.size_eq]
  cases ht : c.truncate with
  | true => simp
  | false =>
      rw [ht] at hrep
      by_cases hone : c.OneChange h.chunkReader.chunkEncryptor.chunkSize P.length
      · simp [hone]
      · have hiff := hrep.cut_eq_iff (fun j => by
          rw [length_encChunk_data]
          exact encLen_pos _) (blocked_data hd.reader.encoded.tight ivs)
        rw [← hfile, c.firstChunk_add_count] at hiff
        simpa [hone] using hiff

/-- The tag string is right if the tail is kept. -/
theorem WriteCall.checksum_applied (hd : h.Describes C P n s.file s.checksum)
    (hkeep : c.KeepsTail h) :
    writeAt s.checksum
        (c.firstChunk h.chunkReader.chunkEncryptor.chunkSize P.length * HMAC_SIZE)
        (join (fun i => (c.chunk C h.chunkReader.chunkEncryptor P i).hmac)
          (c.firstChunk h.chunkReader.chunkEncryptor.chunkSize P.length)
          (c.count h.chunkReader.chunkEncryptor.chunkSize P.length))
        (c.truncate || decide (¬ c.OneChange h.chunkReader.chunkEncryptor.chunkSize P.length)) =
      c.checksum C h.chunkReader.chunkEncryptor P s.checksum := by
  have hcs := hd.reader.chunkSize_pos
  obtain ⟨ivs, -, hsum⟩ := hd.reader.encoded.encoded
  have hrep := c.replaces_hmac hcs hd.reader.encoded ivs
  rw [WriteCall.KeepsTail, hd.plainChunkSize_eq, hd.plainfileSize_eq, hd.reader.size_eq] at hkeep
  rw [WriteCall.checksum]
  cases ht : c.truncate with
  | true => simp
  | false =>
      rw [ht] at hrep
      by_cases hone : c.OneChange h.chunkReader.chunkEncryptor.chunkSize P.length
      · simp [hone]
      · have hiff := hrep.cut_eq_iff (fun j => by
          rw [length_encChunk_hmac]
          decide) (blocked_hmac ivs)
        rw [← hsum, c.firstChunk_add_count] at hiff
        simpa [hone] using hiff.mpr (by simpa [ht, hone] using hkeep)

end Applied

/-- A successful call with a server that applies the operations it gets. -/
def Access.applied (C : Primitives) (x : World) : Access → World → Prop
  | .write c, y =>
      x.handle.write C applyingBridge c.ivs c.encryptMeta c.offset c.data c.truncate x.server =
        (.ok (), y.handle, y.server)
  | .read offset size, y =>
      ∃ bytes, x.handle.read C applyingBridge offset size x.server =
        (.ok bytes, y.handle, y.server)

/-- In range, and the operations of a write keep the tail of the file. -/
def Access.Reproducible (x : World) (a : Access) : Prop :=
  a.InRange x ∧
    match a with
    | .write c => c.KeepsTail x.handle
    | .read _ _ => True

/-- The stored blob is the old one with exactly the updated chunks replaced,
and the stored tag string is the one of the handle. -/
def World.Reproduces (x : World) (w : PreparedWrite) (truncate : Bool) (y : World) : Prop :=
  y.server.file = (x.server.replaceChunks x.handle.encryptedChunkSize w.chunksToUpdate
      truncate).file ∧
    y.server.checksum = y.handle.chunkReader.hashList.getAll

section AppliedRuns

variable {C : Primitives} {P : Bytes} {x y : World}

/-- An applied write, for a handle of the current file. -/
theorem World.write_applied (hx : x.Encodes C P) (c : WriteCall) (hin : Access.InRange x (.write c))
    (hwrite : Access.applied C x (.write c) y) :
    ∃ m h n, x.handle.Describes C P n x.server.file x.server.checksum ∧
      x.handle.prepareWrite C applyingBridge c.ivs c.encryptMeta c.offset c.data c.truncate
          x.server = (.ok (c.prepared C x.handle P x.server.file x.server.checksum m), h,
            x.server) ∧
      y.handle.Describes C (c.plain P)
          (c.chunks x.handle.chunkReader.chunkEncryptor.chunkSize P.length n)
          (c.file C x.handle.chunkReader.chunkEncryptor P x.server.file)
          (c.checksum C x.handle.chunkReader.chunkEncryptor P x.server.checksum) ∧
      x.handle.Rewritten y.handle (c.newFileMeta C x.handle P x.server.checksum) ∧
      c.encryptMeta y.handle.fileInfo y.handle.fileMeta y.handle.fileEncKey = .ok m ∧
      sendAll applyingBridge (x.handle.writeRequests
        (x.handle.createListOfUpdateChangesFromUpdateChunkData
          (c.updates C x.handle P x.server.file)) m x.handle.fileEncKey.id c.truncate)
          x.server = (.ok (), y.server) := by
  obtain ⟨hv, n, hd⟩ := hx
  cases hm : c.encryptMeta x.handle.fileInfo
      (c.newFileMeta C x.handle P x.server.checksum) x.handle.fileEncKey with
  | error e =>
      obtain ⟨p, -, -, -, hok⟩ :=
        FileHandler.prepareWrite_ok honestReads_applyingBridge c hd hv hin
      rw [hm] at hok
      simp only [Access.applied, FileHandler.write, hok] at hwrite
      exact absurd (Prod.mk.inj hwrite).1 (by simp)
  | ok m =>
      obtain ⟨h, h', hok, hnext, hnew, hsent⟩ :=
        FileHandler.write_current honestReads_applyingBridge c hd hv hin hm
      have hsend := c.applied_eq hd hin m x.handle.fileEncKey.id
      rw [Access.applied, hsent _ hsend] at hwrite
      obtain ⟨rfl, hs⟩ := Prod.mk.inj (Prod.mk.inj hwrite).2
      refine ⟨m, h, n, hd, hok, hnew, hnext, ?_, ?_⟩
      · rw [hnext.fileInfo_eq, hnext.fileMeta_eq, hnext.fileEncKey_eq]
        exact hm
      · rw [hsend, hs]

/-- **Exactness.**  For a handle of the current file, the operations reproduce
the intended file exactly if the tail is kept. -/
theorem World.reproduces_iff (hx : x.Encodes C P) {c : WriteCall}
    (hin : Access.InRange x (.write c)) (hwrite : Access.applied C x (.write c) y)
    {w : PreparedWrite} {h : FileHandler}
    (hprep : x.handle.prepareWrite C applyingBridge c.ivs c.encryptMeta c.offset c.data c.truncate
      x.server = (.ok w, h, x.server)) :
    x.Reproduces w c.truncate y ↔ c.KeepsTail x.handle := by
  obtain ⟨m, p, n, hd, hok, hnew, -, -, hsend⟩ := World.write_applied hx c hin hwrite
  obtain rfl : w = c.prepared C x.handle P x.server.file x.server.checksum m := by
    rw [hok] at hprep
    simpa using congrArg Prod.fst hprep.symm
  rw [c.applied_eq hd hin] at hsend
  have hserver := (Prod.mk.inj hsend).2
  have hfile := c.file_applied_iff hd
  have htarget : (x.server.replaceChunks x.handle.encryptedChunkSize
      (c.prepared C x.handle P x.server.file x.server.checksum m).chunksToUpdate
      c.truncate).file = c.file C x.handle.chunkReader.chunkEncryptor P x.server.file :=
    congrArg ServerFile.file (c.replaceChunks_eq hd)
  rw [World.Reproduces, htarget, HmacList.getAll, hnew.reader.hashes_eq, ← hserver, ← hfile]
  constructor
  · exact fun h => h.1
  · exact fun h => ⟨h, c.checksum_applied hd (hfile.mp h)⟩

/-- **Step.**  A reproducible call keeps the handle in line with the server. -/
theorem World.encodes_applied {a : Access} (hx : x.Encodes C P) (hok : a.Reproducible x)
    (hstep : a.applied C x y) : y.Encodes C (a.apply P) := by
  cases a with
  | read offset size =>
      obtain ⟨hv, n, hd⟩ := hx
      obtain ⟨bytes, hread⟩ := hstep
      obtain ⟨r, -, hcall, hd'⟩ :=
        FileHandler.read_ok honestReads_applyingBridge hd hv hok.1.1 hok.1.2
      rw [hcall] at hread
      obtain ⟨hy, hs⟩ := Prod.mk.inj (Prod.mk.inj hread).2
      rw [World.Encodes, ← hs, ← hy]
      exact ⟨hv, n, hd'⟩
  | write c =>
      obtain ⟨m, p, n, hd, -, hnew, hnext, -, hsend⟩ := World.write_applied hx c hok.1 hstep
      rw [c.applied_eq hd hok.1, (c.file_applied_iff hd).mpr hok.2,
        c.checksum_applied hd hok.2] at hsend
      have hserver := (Prod.mk.inj hsend).2
      refine ⟨?_, c.chunks x.handle.chunkReader.chunkEncryptor.chunkSize P.length n, ?_⟩
      · rw [← hserver, hnext.version_eq]
      · rw [← hserver]
        exact hnew

/-- A write in range whose meta can be encrypted goes through. -/
theorem World.exists_write_applied (hx : x.Encodes C P) (c : WriteCall)
    (hin : Access.InRange x (.write c))
    (hmeta : ∀ info fileMeta key, ∃ m, c.encryptMeta info fileMeta key = .ok m) :
    ∃ w h y, x.handle.prepareWrite C applyingBridge c.ivs c.encryptMeta c.offset c.data c.truncate
        x.server = (.ok w, h, x.server) ∧ Access.applied C x (.write c) y := by
  obtain ⟨hv, n, hd⟩ := hx
  obtain ⟨p, -, -, -, hok⟩ :=
    FileHandler.prepareWrite_ok honestReads_applyingBridge c hd hv hin
  obtain ⟨m, hm⟩ := hmeta x.handle.fileInfo (c.newFileMeta C x.handle P x.server.checksum)
    x.handle.fileEncKey
  rw [hm] at hok
  exact ⟨_, _, ⟨_, _⟩, hok,
    FileHandler.write_of_sent hok (c.applied_eq hd hin m x.handle.fileEncKey.id)⟩

end AppliedRuns

/-- **Operations reproduce the intended file exactly if they keep its tail.**
In every state that a run of reproducible calls reaches, for every successful
write in range. -/
theorem FileHandler.operations_reproduce_iff {C : Primitives} {P : Bytes} {s : ServerFile}
    {x : FileEncryptionParams} {info : FileInfo} {win : Nat} {f : FileHandlerImpl}
    (hstored : StoredFile C x.fileDecryptionParams P s)
    (hwin : WindowSize x.fileDecryptionParams.chunkSize win) (hlen : s.file.length < 2 ^ 63)
    (hopen : FileReadWriteHandle.create C applyingBridge info x win s = (.ok f, s))
    {calls : List Access} {y z : World}
    (hrun : Run (guarded (fun x a => Access.Reproducible x a) (Access.applied C)) ⟨f.file, s⟩
      calls y)
    {c : WriteCall} (hin : Access.InRange y (.write c)) {w : PreparedWrite} {h : FileHandler}
    (hprep : y.handle.prepareWrite C applyingBridge c.ivs c.encryptMeta c.offset c.data c.truncate
      y.server = (.ok w, h, y.server))
    (hwrite : Access.applied C y (.write c) z) :
    y.Reproduces w c.truncate z ↔ c.KeepsTail y.handle := by
  have hinit := World.encodes_opened honestReads_applyingBridge hstored hwin hlen hopen
  have hfinal := Run.simulates (World.Encodes C) Access.apply
    (fun _ _ _ _ hx hs => World.encodes_applied hx hs.1 hs.2) hrun hinit
  exact World.reproduces_iff hfinal hin hwrite hprep

/-- A write into the sample file is one change, and it is reproduced. -/
theorem FileHandler.operations_reproduce_iff_sample :
    ∃ w h z,
      (openedHandle sampleInfo sampleParams 100 samplePrimitives
          sampleFile.checksum).file.prepareWrite samplePrimitives applyingBridge sampleWrite.ivs
          sampleWrite.encryptMeta sampleWrite.offset sampleWrite.data sampleWrite.truncate
          sampleFile = (.ok w, h, sampleFile) ∧
        World.Reproduces ⟨(openedHandle sampleInfo sampleParams 100 samplePrimitives
          sampleFile.checksum).file, sampleFile⟩ w sampleWrite.truncate z := by
  have hstored : StoredFile samplePrimitives sampleParams.fileDecryptionParams _ sampleFile :=
    storedFile_encoded samplePrimitives (by decide) _ _ _
  have hwin : WindowSize sampleParams.fileDecryptionParams.chunkSize 100 :=
    ⟨by decide, by decide⟩
  have hlen : sampleFile.file.length < 2 ^ 63 :=
    lt_of_le_of_lt hstored.encoded.length_file_le (by decide)
  have hopen := (FileReadWriteHandle.create_ok honestReads_applyingBridge hstored hwin hlen
    sampleInfo).1
  have hin : Access.InRange
      ⟨(openedHandle sampleInfo sampleParams 100 samplePrimitives sampleFile.checksum).file,
        sampleFile⟩ (.write sampleWrite) := ⟨by decide, by decide, by decide⟩
  obtain ⟨w, h, z, hprep, hwrite⟩ := World.exists_write_applied
    (World.encodes_opened honestReads_applyingBridge hstored hwin hlen hopen) sampleWrite hin
    (fun _ _ _ => ⟨_, rfl⟩)
  exact ⟨w, h, z, hprep, (FileHandler.operations_reproduce_iff hstored hwin hlen hopen (.nil _)
    hin hprep hwrite).mpr (Or.inr (Or.inl (by decide)))⟩

/-- Three chunks of 256 KiB. -/
def wideFile : ServerFile :=
  encodedServer samplePrimitives { key := sampleKey, chunkSize := 262144 } (fun _ => sampleIv)
    (List.replicate 786432 0) 1

@[inherit_doc wideFile]
def wideParams : FileEncryptionParams :=
  encodedEncryption samplePrimitives { key := sampleKey, chunkSize := 262144 } (fun _ => sampleIv)
    (List.replicate 786432 0) 1

/-- Overwriting the first two of the three chunks. -/
def wideWrite : WriteCall where
  ivs _ := sampleIv
  encryptMeta := sampleEncryptMeta
  offset := 0
  data := List.replicate 524288 1
  truncate := false

/-- The wide write ends in the second chunk. -/
theorem wideWrite_lastChunk : wideWrite.lastChunk 262144 = 1 := by
  have hdata : wideWrite.data.length = 524288 := List.length_replicate
  rw [WriteCall.lastChunk, hdata]
  decide

/-- Its chunks are not one change. -/
theorem wideWrite_not_oneChange : ¬ wideWrite.OneChange 262144 786432 := by
  have hdata : wideWrite.data.length = 524288 := List.length_replicate
  intro hone
  rcases hone with h1 | h1
  · rw [WriteCall.count, wideWrite_lastChunk] at h1
    exact absurd h1 (by decide)
  · rw [WriteCall.sentLength, WriteCall.count, WriteCall.newSize, wideWrite_lastChunk, hdata] at h1
    exact absurd h1 (by decide)

/-- Overwriting the first two chunks of three loses the third. -/
theorem FileHandler.operations_drop_tail :
    StoredFile samplePrimitives wideParams.fileDecryptionParams (List.replicate 786432 0)
        wideFile ∧
      FileReadWriteHandle.create samplePrimitives applyingBridge sampleInfo wideParams 100
        wideFile = (.ok (openedHandle sampleInfo wideParams 100 samplePrimitives
          wideFile.checksum), wideFile) ∧
      ∃ w h z,
        (openedHandle sampleInfo wideParams 100 samplePrimitives
            wideFile.checksum).file.prepareWrite samplePrimitives applyingBridge wideWrite.ivs
            wideWrite.encryptMeta wideWrite.offset wideWrite.data wideWrite.truncate
            wideFile = (.ok w, h, wideFile) ∧
          Access.applied samplePrimitives ⟨(openedHandle sampleInfo wideParams 100
            samplePrimitives wideFile.checksum).file, wideFile⟩ (.write wideWrite) z ∧
          ¬ World.Reproduces ⟨(openedHandle sampleInfo wideParams 100 samplePrimitives
            wideFile.checksum).file, wideFile⟩ w wideWrite.truncate z := by
  have hstored : StoredFile samplePrimitives wideParams.fileDecryptionParams
      (List.replicate 786432 0) wideFile :=
    storedFile_encoded samplePrimitives (by decide) _ _ _
  have hchunks : chunksFor wideParams.fileDecryptionParams.chunkSize
      (List.replicate 786432 (0 : UInt8)).length = 3 := by
    rw [List.length_replicate]
    decide
  have hlen : wideFile.file.length < 2 ^ 63 := by
    refine lt_of_le_of_lt hstored.encoded.length_file_le ?_
    rw [hchunks]
    decide
  have hwin : WindowSize wideParams.fileDecryptionParams.chunkSize 100 := ⟨by decide, by decide⟩
  obtain ⟨hopen, hd⟩ := FileReadWriteHandle.create_ok honestReads_applyingBridge hstored
    hwin hlen sampleInfo
  rw [hchunks] at hd
  have hinit := World.encodes_opened honestReads_applyingBridge hstored hwin hlen hopen
  have hin : Access.InRange
      ⟨(openedHandle sampleInfo wideParams 100 samplePrimitives wideFile.checksum).file,
        wideFile⟩ (.write wideWrite) := by
    show ChunkDataProvider.Addressable _ (wideWrite.lastChunk 262144)
    rw [wideWrite_lastChunk]
    exact ⟨by decide, by decide, by decide⟩
  obtain ⟨w, h, z, hprep, hwrite⟩ := World.exists_write_applied hinit wideWrite hin
    (fun _ _ _ => ⟨_, rfl⟩)
  refine ⟨hstored, hopen, w, h, z, hprep, hwrite, ?_⟩
  rw [World.reproduces_iff hinit hin hwrite hprep]
  have hcs : (openedHandle sampleInfo wideParams 100 samplePrimitives
      wideFile.checksum).file.plainChunkSize = 262144 := rfl
  have hsize : (openedHandle sampleInfo wideParams 100 samplePrimitives
      wideFile.checksum).file.plainfileSize = 786432 := by
    rw [hd.plainfileSize_eq, List.length_replicate]
  rintro (ht | hone | hlast)
  · exact absurd ht (by decide)
  · rw [hcs, hsize] at hone
    exact wideWrite_not_oneChange hone
  · rw [hcs, wideWrite_lastChunk, hd.reader.size_eq] at hlast
    exact absurd hlast (by decide)

end PrivmxEndpoint
