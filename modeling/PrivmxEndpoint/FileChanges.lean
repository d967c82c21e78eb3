import PrivmxEndpoint.ReopenInvariant

/-!
# The changes that an update event reports

The server announces the operations that have updated a file.  `Mapper` turns their
positions in the encrypted blob into ranges of the plain text: it counts the chunks an
operation touches, and cuts the range at the end of the file.

An operation is a run of chunks, of which only the last may be short, so that rounding up
gives the number of its chunks (`mapToFileChange_run`), and the operations of a write are
consecutive runs.  The ranges therefore cover every chunk that has been written.  They do
not cover what a write loses behind its last chunk because the operations before the last
one cut the blob.
-/

namespace PrivmxEndpoint

open Word Splice Blocks Runs

/-- `server::StoreFileChange`. -/
structure StoreFileChange where
  type : String
  pos : Int
  length : Int
  truncate : Bool
  deriving Repr, DecidableEq

/-- `store::FileChange`. -/
structure FileChange where
  pos : Int
  length : Int
  truncate : Bool
  deriving Repr, DecidableEq

/-- `store::File`, of which the mapping reads the size. -/
structure File where
  size : Int
  deriving Repr, DecidableEq

/-- `store::StoreFileUpdatedEventData`. -/
structure StoreFileUpdatedEventData where
  file : File
  changes : List FileChange
  deriving Repr, DecidableEq

namespace Mapper

/-- The body of the loop of `mapToStoreFileUpdatedEventData`.  Positions are divided as
unsigned numbers. -/
def mapToFileChange (chunkEncryptor : ChunkEncryptor) (file : File) (change : StoreFileChange) :
    FileChange :=
  let encryptedChunkSize := chunkEncryptor.getEncryptedChunkSize
  let plainChunkSize := chunkEncryptor.getPlainChunkSize
  let pos := toInt64 (u64 (ofInt64 change.pos / encryptedChunkSize * plainChunkSize))
  let length := toInt64 (u64 (sub64 (u64 (ofInt64 change.length + encryptedChunkSize)) 1 /
    encryptedChunkSize * plainChunkSize))
  { pos := pos
    length := if pos + length > file.size then file.size - pos else length
    truncate := change.truncate }

/-- `Mapper::mapToStoreFileUpdatedEventData`. -/
def mapToStoreFileUpdatedEventData (changes : Option (List StoreFileChange)) (file : File)
    (fileDecryptionParams : FileDecryptionParams) : StoreFileUpdatedEventData where
  file := file
  changes :=
    match changes with
    | none => []
    | some changes =>
        let chunkEncryptor : ChunkEncryptor :=
          { key := fileDecryptionParams.key, chunkSize := fileDecryptionParams.chunkSize }
        (changes.filter fun change => change.type = "file").map
          (mapToFileChange chunkEncryptor file)

end Mapper

/-- The `type` of an operation as it is sent. -/
def OperationType.name : OperationType → String
  | .file => "file"
  | .checksum => "checksum"

/-- What the update event says about the operations of some requests. -/
def announced (requests : List StoreFileWriteModelByOperations) : List StoreFileChange :=
  requests.flatMap fun request => request.operations.map fun operation =>
    { type := operation.type.name
      pos := operation.pos
      length := (operation.data.length : Int)
      truncate := operation.truncate }

/-- The byte that a reader with the right key finds in the stored file. -/
def ServerFile.plainByte (C : Primitives) (e : ChunkEncryptor) (s : ServerFile) (p : Nat) :
    Option UInt8 :=
  let i := p / e.chunkSize
  let chunk : Chunk :=
    { data := slice s.file (i * encLen e.chunkSize) (encLen e.chunkSize)
      hmac := slice s.checksum (i * HMAC_SIZE) HMAC_SIZE }
  match e.decrypt C i chunk with
  | .ok plain => plain[p % e.chunkSize]?
  | .error _ => none

/-- The changes lie within the new file, they cover every byte of it that is another one
than before, and one of them reports that the file has become shorter. -/
structure Reported (before after : Nat → Option UInt8) (size newSize : Nat)
    (changes : List FileChange) : Prop where
  within : ∀ change ∈ changes,
    0 ≤ change.pos ∧ 0 ≤ change.length ∧ change.pos + change.length ≤ newSize
  covers : ∀ p < newSize, before p ≠ after p →
    ∃ change ∈ changes, change.pos ≤ p ∧ (p : Int) < change.pos + change.length
  shrinks : newSize < size →
    ∃ change ∈ changes, change.truncate = true ∧ change.pos + change.length = newSize

/-- The write truncates, takes one change, or reaches the last byte. -/
def WriteCall.LosesNothing (c : WriteCall) (h : FileHandler) : Prop :=
  c.truncate = true ∨ c.OneChange h.plainChunkSize h.plainfileSize ∨
    h.plainfileSize ≤ (c.lastChunk h.plainChunkSize + 1) * h.plainChunkSize

/-! ### Consecutive runs of chunks -/

/-- Runs, given by their start and their number of chunks, that together are the chunks from
the first index up to the second one. -/
inductive Consecutive : Nat → Nat → List (Nat × Nat) → Prop
  | last {i m : Nat} (hm : 0 < m) : Consecutive i (i + m) [(i, m)]
  | cons {i m e : Nat} {runs : List (Nat × Nat)} (hm : 0 < m)
      (tail : Consecutive (i + m) e runs) : Consecutive i e ((i, m) :: runs)

namespace Consecutive

variable {i e : Nat} {runs : List (Nat × Nat)}

/-- There is at least one run. -/
theorem start_lt (h : Consecutive i e runs) : i < e := by
  induction h with
  | last hm => omega
  | cons hm tail ih => omega

/-- Every run lies within the whole. -/
theorem bounds (h : Consecutive i e runs) {q : Nat × Nat} (hq : q ∈ runs) :
    i ≤ q.1 ∧ 0 < q.2 ∧ q.1 + q.2 ≤ e := by
  induction h with
  | last hm =>
      rw [List.mem_singleton] at hq
      subst hq
      exact ⟨le_rfl, hm, le_rfl⟩
  | cons hm tail ih =>
      rcases List.mem_cons.mp hq with hq | hq
      · subst hq
        exact ⟨le_rfl, hm, tail.start_lt.le⟩
      · obtain ⟨hstart, hrest⟩ := ih hq
        exact ⟨by omega, hrest⟩

/-- Every chunk lies in a run. -/
theorem covers (h : Consecutive i e runs) {j : Nat} (hi : i ≤ j) (he : j < e) :
    ∃ q ∈ runs, q.1 ≤ j ∧ j < q.1 + q.2 := by
  induction h with
  | last hm => exact ⟨_, List.mem_singleton_self _, hi, he⟩
  | @cons i m e runs hm tail ih =>
      by_cases hj : j < i + m
      · exact ⟨(i, m), List.mem_cons_self, hi, hj⟩
      · obtain ⟨q, hq, hcover⟩ := ih (by omega) he
        exact ⟨q, List.mem_cons_of_mem _ hq, hcover⟩

/-- The last run ends where the whole does. -/
theorem getLast (h : Consecutive i e runs) : ∃ q, runs.getLast? = some q ∧ q.1 + q.2 = e := by
  induction h with
  | last hm => exact ⟨_, rfl, rfl⟩
  | cons hm tail ih =>
      obtain ⟨q, hq, he⟩ := ih
      refine ⟨q, ?_, he⟩
      rw [List.getLast?_cons, hq]
      rfl

end Consecutive

/-! ### The operations of a write -/

/-- The operation of a change on the blob. -/
def fileOperation (c : UpdateChanges) (truncate : Bool) : StoreFileRandomWriteOperation where
  type := .file
  pos := toInt64 c.dataPos
  data := c.data
  truncate := truncate

section Operations

variable {h : FileHandler} {u : Nat → UpdateChunkData}

/-- Every operation on the blob belongs to a change. -/
theorem mem_operationsByChange {truncate : Bool} {cs : List UpdateChanges}
    {op : StoreFileRandomWriteOperation} (hop : op ∈ (operationsByChange truncate cs).flatten)
    (hfile : op.type = .file) : ∃ c ∈ cs, ∃ flag, op = fileOperation c flag := by
  induction cs with
  | nil => cases hop
  | cons c cs ih =>
      have hchange (flag : Bool) (hmem : op ∈ changeOperations c flag) :
          op = fileOperation c flag := by
        rcases List.mem_pair.mp hmem with hop | hop
        · exact hop
        · rw [hop] at hfile
          cases hfile
      by_cases hcs : cs = []
      · subst hcs
        rw [operationsByChange, List.flatten_cons, List.flatten_nil, List.append_nil] at hop
        exact ⟨c, List.mem_singleton_self c, truncate, hchange truncate hop⟩
      · rw [operationsByChange_cons truncate c hcs, List.flatten_cons] at hop
        rcases List.mem_append.mp hop with hop | hop
        · exact ⟨c, List.mem_cons_self, true, hchange true hop⟩
        · obtain ⟨d, hd, hrest⟩ := ih hop
          exact ⟨d, List.mem_cons_of_mem _ hd, hrest⟩

/-- Every change has an operation on the file. -/
theorem fileOperation_mem (truncate : Bool) {cs : List UpdateChanges} {c : UpdateChanges}
    (hc : c ∈ cs) : ∃ flag, fileOperation c flag ∈ (operationsByChange truncate cs).flatten := by
  induction cs with
  | nil => cases hc
  | cons d cs ih =>
      by_cases hcs : cs = []
      · subst hcs
        rw [List.mem_singleton] at hc
        subst hc
        exact ⟨truncate, List.mem_cons_self⟩
      · rw [operationsByChange_cons truncate d hcs, List.flatten_cons]
        rcases List.mem_cons.mp hc with hc | hc
        · subst hc
          exact ⟨true, List.mem_cons_self⟩
        · obtain ⟨flag, hmem⟩ := ih hc
          exact ⟨flag, List.mem_append_right _ hmem⟩

/-- The last change carries the flag of the write. -/
theorem last_fileOperation_mem {truncate : Bool} {cs : List UpdateChanges} {c : UpdateChanges}
    (hc : cs.getLast? = some c) :
    fileOperation c truncate ∈ (operationsByChange truncate cs).flatten := by
  induction cs with
  | nil => cases hc
  | cons d cs ih =>
      by_cases hcs : cs = []
      · subst hcs
        obtain rfl : d = c := Option.some.inj hc
        exact List.mem_cons_self
      · rw [operationsByChange_cons truncate d hcs, List.flatten_cons]
        refine List.mem_append_right _ (ih ?_)
        rw [← hc, List.getLast?_cons_of_ne_nil hcs]

/-- The loop that squashes chunks gives consecutive runs of them. -/
theorem ChunkRun.squash_consecutive {i m k : Nat} (hm : 0 < m) (hr : ChunkRun h u i (m + k)) :
    ∃ runs, Consecutive i (i + (m + k)) runs ∧
      h.squash (runOfChunks u h.encryptedChunkSize i m) ((List.range' (i + m) k).map u) =
        runs.map fun q => runOfChunks u h.encryptedChunkSize q.1 q.2 := by
  induction k generalizing i m with
  | zero => exact ⟨[(i, m)], .last hm, rfl⟩
  | succ k ih =>
      rw [hr.squash_succ]
      split
      · have hadd : m + 1 + k = m + (k + 1) := by omega
        obtain ⟨runs, hruns, hsquash⟩ := ih (m := m + 1) (by omega) (hadd ▸ hr)
        exact ⟨runs, hadd ▸ hruns, hsquash⟩
      · obtain ⟨runs, hruns, hsquash⟩ := ih Nat.one_pos hr.behind
        have hadd : i + m + (1 + k) = i + (m + (k + 1)) := by omega
        refine ⟨(i, m) :: runs, .cons hm (hadd ▸ hruns), ?_⟩
        rw [hsquash]
        rfl

/-- A run of chunks is longer than the chunks before its last one. -/
theorem ChunkRun.length_run {i k : Nat} (hr : ChunkRun h u i k)
    (hpos : ∀ j, 0 < (u j).chunk.data.length) {q m : Nat} (hm : 0 < m) (hi : i ≤ q)
    (he : q + m ≤ i + k) :
    (m - 1) * h.encryptedChunkSize < (join (fun j => (u j).chunk.data) q m).length ∧
      (join (fun j => (u j).chunk.data) q m).length ≤ m * h.encryptedChunkSize := by
  have hsucc : m = m - 1 + 1 := by omega
  have hlength : (join (fun j => (u j).chunk.data) q m).length =
      (m - 1) * h.encryptedChunkSize + (u (q + (m - 1))).chunk.data.length := by
    conv_lhs => rw [hsucc]
    exact length_join_last fun j h1 h2 => hr.full j (by omega) (by omega)
  have hlast := hr.fits (q + (m - 1)) (by omega) (by omega)
  have hfirst := hpos (q + (m - 1))
  have hmul : m * h.encryptedChunkSize = (m - 1) * h.encryptedChunkSize + h.encryptedChunkSize := by
    conv_lhs => rw [hsucc, Nat.succ_mul]
  omega

end Operations

/-- The range of a run of chunks in a file of the given size. -/
def reportedRun (cs size i m : Nat) (truncate : Bool) : FileChange where
  pos := ((i * cs : Nat) : Int)
  length := if i * cs + m * cs > size then (size : Int) - (i * cs : Nat) else ((m * cs : Nat) : Int)
  truncate := truncate

/-- **Rounding.**  A run of `m` chunks, the last of which may be short, is reported as `m`
chunks. -/
theorem Mapper.mapToFileChange_run {e : ChunkEncryptor}
    (he : e.getEncryptedChunkSize = encLen e.chunkSize) {i m length : Nat} (hm : 0 < m)
    (hlow : (m - 1) * encLen e.chunkSize < length) (hhigh : length ≤ m * encLen e.chunkSize)
    (hend : (i + m) * encLen e.chunkSize < 2 ^ 63) (size : Nat) (type : String) (flag : Bool) :
    mapToFileChange e ⟨size⟩
        { type := type
          pos := ((i * encLen e.chunkSize : Nat) : Int)
          length := (length : Int)
          truncate := flag } =
      reportedRun e.chunkSize size i m flag := by
  have hb := encLen_pos e.chunkSize
  have hcs := lt_encLen e.chunkSize
  rw [Nat.add_mul] at hend
  have hone : encLen e.chunkSize ≤ m * encLen e.chunkSize := Nat.le_mul_of_pos_left _ hm
  have hicast : i * e.chunkSize ≤ i * encLen e.chunkSize := Nat.mul_le_mul_left _ hcs.le
  have hmcast : m * e.chunkSize ≤ m * encLen e.chunkSize := Nat.mul_le_mul_left _ hcs.le
  have hpos : ofInt64 ((i * encLen e.chunkSize : Nat) : Int) / encLen e.chunkSize = i := by
    rw [ofInt64_natCast (by omega), Nat.mul_div_cancel _ hb]
  have hcount : sub64 (u64 (ofInt64 (length : Int) + encLen e.chunkSize)) 1 /
      encLen e.chunkSize = m := by
    rw [ofInt64_natCast (by omega), u64_of_lt (by omega), sub64_of_le (by omega) (by omega)]
    apply Nat.div_eq_of_lt_le
    · have hsucc : m * encLen e.chunkSize =
          (m - 1) * encLen e.chunkSize + encLen e.chunkSize := by
        rw [← Nat.succ_mul, Nat.succ_eq_add_one, Nat.sub_add_cancel hm]
      omega
    · rw [Nat.succ_mul]
      omega
  unfold mapToFileChange reportedRun
  dsimp only
  rw [he, hpos, hcount, ChunkEncryptor.getPlainChunkSize, u64_of_lt (by omega),
    u64_of_lt (by omega), toInt64_of_lt (by omega), toInt64_of_lt (by omega)]
  have hcond : ((i * e.chunkSize : Nat) : Int) + ((m * e.chunkSize : Nat) : Int) > (size : Int) ↔
      i * e.chunkSize + m * e.chunkSize > size := by omega
  by_cases hcut : i * e.chunkSize + m * e.chunkSize > size
  · rw [if_pos (hcond.mpr hcut), if_pos hcut]
  · rw [if_neg (fun h => hcut (hcond.mp h)), if_neg hcut]

/-! ### The bytes of the stored file -/

section Stored

variable {C : Primitives} {e : ChunkEncryptor} {P : Bytes} {s : ServerFile}

/-- A byte of the file is found in its block. -/
theorem getElem?_block {cs : Nat} (hcs : 0 < cs) (P : Bytes) (p : Nat) :
    (block cs P (p / cs))[p % cs]? = P[p]? := by
  rw [block, getElem?_slice, if_pos (Nat.mod_lt p hcs), Nat.mul_comm, Nat.div_add_mod]

/-- The stored chunks are those of a text; behind them there is no byte. -/
theorem ServerFile.plainByte_of_join (ivs : Nat → Iv) {m : Nat} (hcs : 0 < e.chunkSize)
    (htight : (m - 1) * e.chunkSize ≤ P.length)
    (hfile : s.file = join (fun i => (encChunk C e P ivs i).data) 0 m)
    (hsum : s.checksum = join (fun i => (encChunk C e P ivs i).hmac) 0 m) (p : Nat) :
    s.plainByte C e p = if p / e.chunkSize < m then P[p]? else none := by
  have hdata := slice_join (blocked_data (C := C) htight ivs) (p / e.chunkSize)
  have htag := slice_join (blocked_hmac (C := C) (P := P) (e := e) ivs) (p / e.chunkSize)
    (n := m)
  unfold ServerFile.plainByte
  dsimp only
  rw [hfile, hsum, hdata, htag]
  by_cases hin : p / e.chunkSize < m
  · rw [if_pos hin, if_pos hin, if_pos hin]
    have hback : e.decrypt C (p / e.chunkSize) (encChunk C e P ivs (p / e.chunkSize)) =
        .ok (block e.chunkSize P (p / e.chunkSize)) := ChunkEncryptor.decrypt_encrypt _ _ _
    rw [hback]
    exact getElem?_block hcs P p
  · rw [if_neg hin, if_neg hin, if_neg hin]
    rfl

/-- The server's byte is the file's. -/
theorem EncodedFile.plainByte {n : Nat} (hcs : 0 < e.chunkSize)
    (h : EncodedFile C e P n s.file s.checksum) (p : Nat) : s.plainByte C e p = P[p]? := by
  obtain ⟨ivs, hfile, hsum⟩ := h.encoded
  rw [ServerFile.plainByte_of_join ivs hcs h.tight hfile hsum]
  by_cases hin : p / e.chunkSize < n
  · exact if_pos hin
  · rw [if_neg hin]
    symm
    apply List.getElem?_eq_none
    have hcov := h.covers
    have hle : n * e.chunkSize ≤ p := (Nat.le_div_iff_mul_le hcs).mp (Nat.le_of_not_lt hin)
    omega

variable (c : WriteCall) {file checksum : Bytes} {n : Nat}

/-- If the operations cut the blob, the file ends with the last chunk of the write. -/
theorem WriteCall.plainByte_cut (hcs : 0 < e.chunkSize) (h : EncodedFile C e P n file checksum)
    (hfile : s.file = writeAt file (c.firstChunk e.chunkSize P.length * encLen e.chunkSize)
      (join (fun i => (c.chunk C e P i).data) (c.firstChunk e.chunkSize P.length)
        (c.count e.chunkSize P.length)) true)
    (hsum : s.checksum = writeAt checksum (c.firstChunk e.chunkSize P.length * HMAC_SIZE)
      (join (fun i => (c.chunk C e P i).hmac) (c.firstChunk e.chunkSize P.length)
        (c.count e.chunkSize P.length)) true) (p : Nat) :
    s.plainByte C e p =
      if p / e.chunkSize < c.lastChunk e.chunkSize + 1 then (c.plain P)[p]? else none := by
  have hend := c.firstChunk_add_count e.chunkSize P.length
  obtain ⟨ivs, hf, hc⟩ := h.encoded
  have hdata := c.replaces_data hcs h ivs
  have hhmac := c.replaces_hmac hcs h ivs
  have hdata' : Replaces (encLen e.chunkSize) n (fun i => (encChunk C e P ivs i).data)
      (fun i => (c.chunk C e P i).data) (c.firstChunk e.chunkSize P.length)
      (c.count e.chunkSize P.length) true :=
    ⟨hdata.pos, hdata.start_le, hdata.before, hdata.full, hdata.fits, nofun, nofun⟩
  have hhmac' : Replaces HMAC_SIZE n (fun i => (encChunk C e P ivs i).hmac)
      (fun i => (c.chunk C e P i).hmac) (c.firstChunk e.chunkSize P.length)
      (c.count e.chunkSize P.length) true :=
    ⟨hhmac.pos, hhmac.start_le, hhmac.before, hhmac.full, hhmac.fits, nofun, nofun⟩
  have hkept (j : Nat) (hj : j < c.lastChunk e.chunkSize + 1) :
      j < c.chunks e.chunkSize P.length n := by
    rw [WriteCall.chunks, countAfter, hend]
    split <;> omega
  have htight : (c.lastChunk e.chunkSize + 1 - 1) * e.chunkSize ≤ (c.plain P).length := by
    have hlast := c.lastChunk_mul_le e.chunkSize
    rw [Nat.add_sub_cancel, c.length_plain]
    split <;> omega
  refine ServerFile.plainByte_of_join (c.ivsAfter ivs e.chunkSize P.length) hcs htight ?_ ?_ p
  · rw [hfile, hf, writeAt_join (blocked_data h.tight ivs) hdata', countAfter, if_pos rfl, hend]
    apply join_congr
    intro j _ hj
    rw [c.encChunk_after hcs ivs (hkept j (by omega)), patch]
    split <;> rfl
  · rw [hsum, hc, writeAt_join (blocked_hmac ivs) hhmac', countAfter, if_pos rfl, hend]
    apply join_congr
    intro j _ hj
    rw [c.encChunk_after hcs ivs (hkept j (by omega)), patch]
    split <;> rfl

/-- The bytes of the blob that the operations leave: without the operation that cuts by
mistake they are those of the written file. -/
theorem WriteCall.plainByte_applied (hcs : 0 < e.chunkSize)
    (h : EncodedFile C e P n file checksum)
    (hfile : s.file = writeAt file (c.firstChunk e.chunkSize P.length * encLen e.chunkSize)
      (join (fun i => (c.chunk C e P i).data) (c.firstChunk e.chunkSize P.length)
        (c.count e.chunkSize P.length))
      (c.truncate || decide (¬ c.OneChange e.chunkSize P.length)))
    (hsum : s.checksum = writeAt checksum (c.firstChunk e.chunkSize P.length * HMAC_SIZE)
      (join (fun i => (c.chunk C e P i).hmac) (c.firstChunk e.chunkSize P.length)
        (c.count e.chunkSize P.length))
      (c.truncate || decide (¬ c.OneChange e.chunkSize P.length))) (p : Nat) :
    s.plainByte C e p =
      if c.truncate = false ∧ ¬ c.OneChange e.chunkSize P.length then
        if p / e.chunkSize < c.lastChunk e.chunkSize + 1 then (c.plain P)[p]? else none
      else (c.plain P)[p]? := by
  by_cases hcut : c.truncate = false ∧ ¬ c.OneChange e.chunkSize P.length
  · have hflag : (c.truncate || decide (¬ c.OneChange e.chunkSize P.length)) = true := by
      rw [decide_eq_true hcut.2, Bool.or_true]
    rw [hflag] at hfile hsum
    rw [if_pos hcut]
    exact c.plainByte_cut hcs h hfile hsum p
  · have hflag : (c.truncate || decide (¬ c.OneChange e.chunkSize P.length)) = c.truncate := by
      cases ht : c.truncate with
      | true => rfl
      | false =>
          rw [Bool.false_or]
          exact decide_eq_false fun hmany => hcut ⟨ht, hmany⟩
    rw [hflag] at hfile hsum
    rw [if_neg hcut]
    apply EncodedFile.plainByte hcs
    rw [hfile, hsum]
    exact c.encodedFile hcs h

end Stored

/-! ### What is reported -/

/-- The changes are the ranges of the runs; the last one carries the flag of the write. -/
structure ReportsRuns (cs size : Nat) (truncate : Bool) (runs : List (Nat × Nat))
    (changes : List FileChange) : Prop where
  run_of_mem : ∀ change ∈ changes, ∃ q ∈ runs, ∃ flag, change = reportedRun cs size q.1 q.2 flag
  mem_of_run : ∀ q ∈ runs, ∃ flag, reportedRun cs size q.1 q.2 flag ∈ changes
  mem_of_last : ∀ q, runs.getLast? = some q → reportedRun cs size q.1 q.2 truncate ∈ changes

section Reports

variable {h : FileHandler} {u : Nat → UpdateChunkData}

/-- Every operation on the file is reported as a change. -/
theorem mem_changes_iff {cs : List UpdateChanges} {m : EncryptedMeta} {key : String}
    {truncate : Bool} {file : File} {d : FileDecryptionParams} {change : FileChange} :
    change ∈ (Mapper.mapToStoreFileUpdatedEventData
        (some (announced (h.writeRequests cs m key truncate))) file d).changes ↔
      ∃ op ∈ (operationsByChange truncate cs).flatten, op.type = .file ∧
        change = Mapper.mapToFileChange { key := d.key, chunkSize := d.chunkSize } file
          { type := "file", pos := op.pos, length := (op.data.length : Int),
            truncate := op.truncate } := by
  have hname (op : StoreFileRandomWriteOperation) : op.type.name = "file" ↔ op.type = .file := by
    cases op.type with
    | file => exact iff_of_true rfl rfl
    | checksum => exact iff_of_false (by decide) (by decide)
  have hall (op : StoreFileRandomWriteOperation) :
      (∃ request ∈ h.writeRequests cs m key truncate, op ∈ request.operations) ↔
        op ∈ (operationsByChange truncate cs).flatten := by
    rw [← flatten_batches]
    simp [FileHandler.writeRequests]
  unfold Mapper.mapToStoreFileUpdatedEventData announced
  simp only [List.mem_map, List.mem_filter, List.mem_flatMap, decide_eq_true_eq]
  constructor
  · intro hmem
    obtain ⟨sent, ⟨⟨request, hrequest, op, hop, hsent⟩, htype⟩, hchange⟩ := hmem
    subst hsent
    have hfile := (hname op).mp htype
    refine ⟨op, (hall op).mp ⟨request, hrequest, hop⟩, hfile, ?_⟩
    rw [← hchange, hfile]
    rfl
  · intro hmem
    obtain ⟨op, hop, hfile, hchange⟩ := hmem
    obtain ⟨request, hrequest, hmem⟩ := (hall op).mpr hop
    exact ⟨_, ⟨⟨request, hrequest, op, hmem, rfl⟩, (hname op).mpr hfile⟩,
      by rw [hchange, hfile]; rfl⟩

/-- The changes of consecutive chunks are reported run by run. -/
theorem ChunkRun.reportsRuns {i k : Nat} (hr : ChunkRun h u i k)
    (hpos : ∀ j, 0 < (u j).chunk.data.length) {d : FileDecryptionParams}
    (hd : encLen d.chunkSize < 2 ^ 64) (hb : h.encryptedChunkSize = encLen d.chunkSize)
    {runs : List (Nat × Nat)} (hruns : Consecutive i (i + k) runs) {cs : List UpdateChanges}
    (hcs : cs = runs.map fun q => runOfChunks u h.encryptedChunkSize q.1 q.2)
    (m : EncryptedMeta) (key : String) (truncate : Bool) (size : Nat) :
    ReportsRuns d.chunkSize size truncate runs
      (Mapper.mapToStoreFileUpdatedEventData
        (some (announced (h.writeRequests cs m key truncate))) ⟨size⟩ d).changes := by
  have hrun (q : Nat × Nat) (hq : q ∈ runs) (flag : Bool) :
      Mapper.mapToFileChange { key := d.key, chunkSize := d.chunkSize } ⟨size⟩
        { type := "file"
          pos := (fileOperation (runOfChunks u h.encryptedChunkSize q.1 q.2) flag).pos
          length := ((fileOperation (runOfChunks u h.encryptedChunkSize q.1 q.2)
            flag).data.length : Int)
          truncate := flag } = reportedRun d.chunkSize size q.1 q.2 flag := by
    obtain ⟨hstart, hm, hend⟩ := hruns.bounds hq
    obtain ⟨hlow, hhigh⟩ := hr.length_run hpos hm hstart hend
    have hlt := hr.pos_lt hend
    have hstartLt := hr.pos_lt (show q.1 ≤ i + k by omega)
    rw [hb] at hlow hhigh hlt hstartLt
    have hat : (fileOperation (runOfChunks u h.encryptedChunkSize q.1 q.2) flag).pos =
        ((q.1 * encLen d.chunkSize : Nat) : Int) := by
      show toInt64 (q.1 * h.encryptedChunkSize) = _
      rw [hb, toInt64_of_lt hstartLt]
    rw [hat]
    exact Mapper.mapToFileChange_run (e := { key := d.key, chunkSize := d.chunkSize })
      (ChunkEncryptor.getEncryptedChunkSize_eq hd) hm hlow hhigh hlt size "file" flag
  refine ⟨?_, ?_, ?_⟩
  · intro change hchange
    obtain ⟨op, hop, hfile, hchange⟩ := mem_changes_iff.mp hchange
    obtain ⟨c, hc, flag, hop⟩ := mem_operationsByChange hop hfile
    rw [hcs] at hc
    obtain ⟨q, hq, hc⟩ := List.mem_map.mp hc
    refine ⟨q, hq, flag, ?_⟩
    rw [hchange, hop, ← hc]
    exact hrun q hq flag
  · intro q hq
    have hmem : runOfChunks u h.encryptedChunkSize q.1 q.2 ∈ cs := by
      rw [hcs]
      exact List.mem_map_of_mem hq
    obtain ⟨flag, hop⟩ := fileOperation_mem truncate hmem
    exact ⟨flag, mem_changes_iff.mpr ⟨_, hop, rfl, (hrun q hq flag).symm⟩⟩
  · intro q hlast
    have hmem : cs.getLast? = some (runOfChunks u h.encryptedChunkSize q.1 q.2) := by
      rw [hcs, List.getLast?_map, hlast]
      rfl
    exact mem_changes_iff.mpr ⟨_, last_fileOperation_mem hmem, rfl,
      (hrun q (List.mem_of_getLast? hlast) truncate).symm⟩

end Reports

/-- Outside its chunks a write that does not truncate keeps the bytes. -/
theorem WriteCall.getElem?_outside (c : WriteCall) {cs : Nat} (hcs : 0 < cs) {P : Bytes} {p : Nat}
    (h : p / cs < c.firstChunk cs P.length ∨ c.lastChunk cs < p / cs ∧ c.truncate = false) :
    (c.plain P)[p]? = P[p]? := by
  rw [← getElem?_block hcs (c.plain P) p, c.block_outside hcs h, getElem?_block hcs]

/-! ### The ranges of consecutive runs -/

section Ranges

variable {cs size newSize first last : Nat} {truncate : Bool} {runs : List (Nat × Nat)}
  {changes : List FileChange}

/-- The end of a run that starts within the file. -/
theorem reportedRun_end {i m : Nat} (hi : i * cs ≤ size) (flag : Bool) :
    0 ≤ (reportedRun cs size i m flag).length ∧
      (reportedRun cs size i m flag).pos + (reportedRun cs size i m flag).length =
        ((min ((i + m) * cs) size : Nat) : Int) := by
  unfold reportedRun
  dsimp only
  rw [Nat.add_mul]
  split <;> omega

/-- A position in one of the chunks is in one of the ranges. -/
theorem ReportsRuns.covers_chunk (hcs : 0 < cs) (hr : ReportsRuns cs size truncate runs changes)
    (hruns : Consecutive first (last + 1) runs) {p : Nat}
    (hp : p < size) (hfirst : first ≤ p / cs) (hle : p / cs ≤ last) :
    ∃ change ∈ changes, change.pos ≤ p ∧ (p : Int) < change.pos + change.length := by
  obtain ⟨q, hq, hlow, hhigh⟩ := hruns.covers hfirst (Nat.lt_succ_of_le hle)
  obtain ⟨flag, hmem⟩ := hr.mem_of_run q hq
  have hstart : q.1 * cs ≤ p := (Nat.le_div_iff_mul_le hcs).mp hlow
  have hend : p < (q.1 + q.2) * cs := (Nat.div_lt_iff_lt_mul hcs).mp hhigh
  refine ⟨_, hmem, ?_, ?_⟩
  · show ((q.1 * cs : Nat) : Int) ≤ p
    exact_mod_cast hstart
  · rw [(reportedRun_end (by omega) flag).2]
    exact_mod_cast lt_min hend hp

/-- A position behind the chunks is in none of the ranges. -/
theorem ReportsRuns.not_covers_behind (hr : ReportsRuns cs size truncate runs changes)
    (hruns : Consecutive first (last + 1) runs) (hlast : last * cs ≤ size) {p : Nat}
    (hp : (last + 1) * cs ≤ p) :
    ¬ ∃ change ∈ changes, change.pos ≤ p ∧ (p : Int) < change.pos + change.length := by
  intro hcovers
  obtain ⟨change, hchange, -, hlt⟩ := hcovers
  obtain ⟨q, hq, flag, hrun⟩ := hr.run_of_mem change hchange
  obtain ⟨-, hpos, hend⟩ := hruns.bounds hq
  have hstart : q.1 * cs ≤ last * cs := Nat.mul_le_mul_right _ (by omega)
  have hle : (q.1 + q.2) * cs ≤ (last + 1) * cs := Nat.mul_le_mul_right _ hend
  rw [hrun, (reportedRun_end (by omega) flag).2] at hlt
  have hmin : min ((q.1 + q.2) * cs) size ≤ (q.1 + q.2) * cs := Nat.min_le_left _ _
  omega

/-- The reported ranges lie within the file. -/
theorem ReportsRuns.within (hr : ReportsRuns cs size truncate runs changes)
    (hruns : Consecutive first (last + 1) runs) (hlast : last * cs ≤ size) :
    ∀ change ∈ changes,
      0 ≤ change.pos ∧ 0 ≤ change.length ∧ change.pos + change.length ≤ size := by
  intro change hchange
  obtain ⟨q, hq, flag, hrun⟩ := hr.run_of_mem change hchange
  obtain ⟨-, hpos, hend⟩ := hruns.bounds hq
  have hstart : q.1 * cs ≤ last * cs := Nat.mul_le_mul_right _ (by omega)
  obtain ⟨hlength, hsum⟩ := reportedRun_end (m := q.2) (show q.1 * cs ≤ size by omega) flag
  rw [hrun]
  refine ⟨Int.natCast_nonneg _, hlength, ?_⟩
  rw [hsum]
  exact_mod_cast Nat.min_le_right _ _

/-- The last range ends with the file and carries the flag of the write. -/
theorem ReportsRuns.ends (hr : ReportsRuns cs size truncate runs changes)
    (hruns : Consecutive first (last + 1) runs) (hlast : last * cs ≤ size)
    (hend : size ≤ (last + 1) * cs) :
    ∃ change ∈ changes, change.truncate = truncate ∧ change.pos + change.length = size := by
  obtain ⟨q, hq, hstop⟩ := hruns.getLast
  obtain ⟨-, hpos, -⟩ := hruns.bounds (List.mem_of_getLast? hq)
  have hstart : q.1 * cs ≤ last * cs := Nat.mul_le_mul_right _ (by omega)
  refine ⟨_, hr.mem_of_last q hq, rfl, ?_⟩
  rw [(reportedRun_end (by omega) truncate).2, hstop, Nat.min_eq_right hend]

end Ranges

/-- **When a write is reported.**  For ranges of the chunks of the write, in a file that
holds the written text, or its chunks up to the last one of the write. -/
theorem WriteCall.reported_iff (c : WriteCall) {cs : Nat} (hcs : 0 < cs) {P : Bytes}
    {before after : Nat → Option UInt8} (hbefore : ∀ p, before p = P[p]?)
    (hafter : ∀ p, after p =
      if c.truncate = false ∧ ¬ c.OneChange cs P.length then
        if p / cs < c.lastChunk cs + 1 then (c.plain P)[p]? else none
      else (c.plain P)[p]?)
    {runs : List (Nat × Nat)} {changes : List FileChange}
    (hruns : Consecutive (c.firstChunk cs P.length) (c.lastChunk cs + 1) runs)
    (hr : ReportsRuns cs (c.plain P).length c.truncate runs changes) :
    Reported before after P.length (c.plain P).length changes ↔
      c.truncate = true ∨ c.OneChange cs P.length ∨ P.length ≤ (c.lastChunk cs + 1) * cs := by
  have hend := c.end_le hcs
  have hlastEnd := c.lastChunk_mul_le cs
  have hplain := c.length_plain P
  have hlast : c.lastChunk cs * cs ≤ (c.plain P).length := by
    rw [hplain]
    split <;> omega
  constructor
  · intro hreported
    by_contra hlost
    obtain ⟨htruncate, hlost⟩ := not_or.mp hlost
    obtain ⟨hmany, hbehind⟩ := not_or.mp hlost
    have hflag : c.truncate = false := Bool.eq_false_iff.mpr htruncate
    -- the first byte behind the chunks of the write is lost
    have hp : (c.lastChunk cs + 1) * cs < (c.plain P).length := by
      rw [hplain, hflag]
      simp only [Bool.false_eq_true, if_false]
      omega
    refine hr.not_covers_behind hruns hlast le_rfl (hreported.covers _ hp ?_)
    rw [hbefore, hafter, if_pos ⟨hflag, hmany⟩, Nat.mul_div_cancel _ hcs,
      if_neg (lt_irrefl _), List.getElem?_eq_getElem (by omega)]
    exact Option.some_ne_none _
  · intro hkept
    refine ⟨hr.within hruns hlast, ?_, ?_⟩
    · intro p hp hdiffers
      by_cases hchunk : c.firstChunk cs P.length ≤ p / cs ∧ p / cs ≤ c.lastChunk cs
      · exact hr.covers_chunk hcs hruns hp hchunk.1 hchunk.2
      have hfirstLast := c.firstChunk_le_lastChunk cs P.length
      rw [hbefore, hafter] at hdiffers
      by_cases hfirst : p / cs < c.firstChunk cs P.length
      · rw [if_pos (show p / cs < c.lastChunk cs + 1 by omega), ite_self,
          c.getElem?_outside hcs (Or.inl hfirst)] at hdiffers
        exact absurd rfl hdiffers
      · have hbehind : c.lastChunk cs < p / cs := by omega
        have hfar : (c.lastChunk cs + 1) * cs ≤ p := (Nat.le_div_iff_mul_le hcs).mp hbehind
        cases hflag : c.truncate with
        | true =>
            rw [hplain, hflag, if_pos rfl] at hp
            omega
        | false =>
            by_cases hone : c.OneChange cs P.length
            · rw [if_neg (fun h => h.2 hone), c.getElem?_outside hcs (Or.inr ⟨hbehind, hflag⟩)]
                at hdiffers
              exact absurd rfl hdiffers
            · have hshort : P.length ≤ (c.lastChunk cs + 1) * cs := by
                rcases hkept with ht | hone' | hshort
                · exact absurd (hflag.symm.trans ht) (by decide)
                · exact absurd hone' hone
                · exact hshort
              rw [hplain, hflag] at hp
              simp only [Bool.false_eq_true, if_false] at hp
              omega
    · intro hshrinks
      cases hflag : c.truncate with
      | false =>
          rw [hplain, hflag] at hshrinks
          simp only [Bool.false_eq_true, if_false] at hshrinks
          omega
      | true =>
          rw [hflag] at hr
          refine hr.ends hruns hlast ?_
          rw [hplain, hflag, if_pos rfl]
          exact hend

/-! ### Runs of calls -/

section Runs

variable {C : Primitives} {P : Bytes} {x y : World}

/-- The handle is in line with the server, and its meta names its chunk size. -/
structure World.Announces (C : Primitives) (x : World) (P : Bytes) : Prop where
  encodes : x.Encodes C P
  chunkSize_eq : ofInt64 x.handle.fileMeta.internalFileMeta.chunkSize =
    x.handle.chunkReader.chunkEncryptor.chunkSize
  chunkSize_le : encLen x.handle.chunkReader.chunkEncryptor.chunkSize ≤ 2 ^ 62

/-- **Step.**  A reproducible call keeps the meta in line. -/
theorem World.announces_applied {a : Access} (hx : x.Announces C P) (hok : a.Reproducible x)
    (hstep : a.applied C x y) : y.Announces C (a.apply P) := by
  have hencodes := World.encodes_applied hx.encodes hok hstep
  have hsame : y.handle.fileMeta.internalFileMeta.chunkSize =
        x.handle.fileMeta.internalFileMeta.chunkSize ∧
      y.handle.chunkReader.chunkEncryptor = x.handle.chunkReader.chunkEncryptor := by
    cases a with
    | read offset size =>
        obtain ⟨hv, n, hd⟩ := hx.encodes
        obtain ⟨bytes, hread⟩ := hstep
        obtain ⟨r, hsame, hcall, -⟩ :=
          FileHandler.read_ok honestReads_applyingBridge hd hv hok.1.1 hok.1.2
        rw [hcall] at hread
        obtain ⟨hy, -⟩ := Prod.mk.inj (Prod.mk.inj hread).2
        rw [← hy]
        exact ⟨rfl, hsame.chunkEncryptor_eq⟩
    | write c =>
        obtain ⟨m, h, n, -, -, -, hnext, -, -⟩ := World.write_applied hx.encodes c hok.1 hstep
        rw [hnext.fileMeta_eq]
        exact ⟨rfl, hnext.chunkEncryptor_eq⟩
  refine ⟨hencodes, ?_, ?_⟩
  · rw [hsame.1, hsame.2]
    exact hx.chunkSize_eq
  · rw [hsame.2]
    exact hx.chunkSize_le

/-- The event of a write to a file that is in line with the handle. -/
theorem World.reported_iff (hx : x.Announces C P) {c : WriteCall}
    (hin : Access.InRange x (.write c)) {w : PreparedWrite} {h : FileHandler}
    (hprep : x.handle.prepareWrite C applyingBridge c.ivs c.encryptMeta c.offset c.data c.truncate
      x.server = (.ok w, h, x.server))
    (hwrite : Access.applied C x (.write c) y) (fileId resourceId : String) :
    Reported (x.server.plainByte C x.handle.chunkReader.chunkEncryptor)
        (y.server.plainByte C y.handle.chunkReader.chunkEncryptor) x.handle.getFileSize
        y.handle.getFileSize
        (Mapper.mapToStoreFileUpdatedEventData
          (some (announced (x.handle.writeRequests w.squashedChunksToUpdate w.newMeta
            x.handle.fileEncKey.id c.truncate)))
          ⟨y.handle.fileMeta.internalFileMeta.size⟩
          (getFileDecryptionParams C fileId resourceId y.server
            y.handle.fileMeta.internalFileMeta)).changes ↔
      c.LosesNothing x.handle := by
  obtain ⟨m, p, n, hd, hok, hnew, hnext, -, hsend⟩ := World.write_applied hx.encodes c hin hwrite
  obtain rfl : w = c.prepared C x.handle P x.server.file x.server.checksum m := by
    rw [hok] at hprep
    simpa using congrArg Prod.fst hprep.symm
  have hcs := hd.reader.chunkSize_pos
  have hle := hx.chunkSize_le
  have hcount := c.count_pos x.handle.chunkReader.chunkEncryptor.chunkSize P.length
  have hend := c.firstChunk_add_count x.handle.chunkReader.chunkEncryptor.chunkSize P.length
  have hrun := c.chunkRun hd hin
  have hparams : (getFileDecryptionParams C fileId resourceId y.server
      y.handle.fileMeta.internalFileMeta).chunkSize =
      x.handle.chunkReader.chunkEncryptor.chunkSize := by
    show ofInt64 y.handle.fileMeta.internalFileMeta.chunkSize = _
    rw [hnext.fileMeta_eq]
    exact hx.chunkSize_eq
  have hsize : y.handle.fileMeta.internalFileMeta.size = ((c.plain P).length : Int) := by
    rw [hnext.fileMeta_eq]
    rfl
  obtain ⟨runs, hruns, hsquash⟩ := hrun.squash_consecutive Nat.one_pos
  have hchanges : (c.prepared C x.handle P x.server.file x.server.checksum
      m).squashedChunksToUpdate =
        runs.map fun q => runOfChunks (c.update C x.handle P x.server.file)
          x.handle.encryptedChunkSize q.1 q.2 :=
    (c.changes_eq hd hin).trans hsquash
  have hpos (j : Nat) : 0 < (c.update C x.handle P x.server.file j).chunk.data.length := by
    have hdata : (c.update C x.handle P x.server.file j).chunk.data.length = encLen _ :=
      ChunkEncryptor.length_encrypt_data _ _ _
    rw [hdata]
    exact encLen_pos _
  have hreports := hrun.reportsRuns hpos (d := getFileDecryptionParams C fileId resourceId
    y.server y.handle.fileMeta.internalFileMeta) (by rw [hparams]; omega)
    (by rw [hparams]; exact hd.encryptedChunkSize_eq) hruns hchanges m x.handle.fileEncKey.id
    c.truncate (c.plain P).length
  rw [hparams] at hreports
  have hall : c.firstChunk x.handle.chunkReader.chunkEncryptor.chunkSize P.length +
      (1 + (c.count x.handle.chunkReader.chunkEncryptor.chunkSize P.length - 1)) =
      c.lastChunk x.handle.chunkReader.chunkEncryptor.chunkSize + 1 := by omega
  rw [hall] at hruns
  rw [c.applied_eq hd hin] at hsend
  have hserver := (Prod.mk.inj hsend).2
  have hafter (p : Nat) : y.server.plainByte C y.handle.chunkReader.chunkEncryptor p =
      if c.truncate = false ∧
          ¬ c.OneChange x.handle.chunkReader.chunkEncryptor.chunkSize P.length then
        if p / x.handle.chunkReader.chunkEncryptor.chunkSize <
            c.lastChunk x.handle.chunkReader.chunkEncryptor.chunkSize + 1 then
          (c.plain P)[p]?
        else none
      else (c.plain P)[p]? := by
    rw [hnext.chunkEncryptor_eq]
    exact c.plainByte_applied hcs hd.reader.encoded (by rw [← hserver]) (by rw [← hserver]) p
  rw [hsize, FileHandler.getFileSize, FileHandler.getFileSize, hd.plainfileSize_eq,
    hnew.plainfileSize_eq, WriteCall.LosesNothing, hd.plainChunkSize_eq, hd.plainfileSize_eq]
  exact c.reported_iff hcs (fun p => hd.reader.encoded.plainByte hcs p) hafter hruns hreports

end Runs

/-- A freshly opened handle whose parameters were made from the meta. -/
theorem World.announces_opened {C : Primitives} {P : Bytes} {s : ServerFile}
    {x : FileEncryptionParams} {info : FileInfo} {win : Nat} {f : FileHandlerImpl}
    {fileId resourceId : String} (hstored : StoredFile C x.fileDecryptionParams P s)
    (hwin : WindowSize x.fileDecryptionParams.chunkSize win) (hlen : s.file.length < 2 ^ 63)
    (hparams : x.fileDecryptionParams =
      getFileDecryptionParams C fileId resourceId s x.fileMeta.internalFileMeta)
    (hopen : FileReadWriteHandle.create C applyingBridge info x win s = (.ok f, s)) :
    World.Announces C ⟨f.file, s⟩ P := by
  have hsettled := World.settled_opened hstored hwin hlen hparams hopen
  exact ⟨hsettled.encodes, hsettled.fileMeta.chunkSize_eq, hsettled.chunkSize_le⟩

/-- **Update events cover the change exactly if no byte is lost.**  In every state that a run
of reproducible calls reaches, for every successful write in range and the event that the
server sends for it. -/
theorem FileHandler.changes_reported_iff {C : Primitives} {P : Bytes} {s : ServerFile}
    {x : FileEncryptionParams} {info : FileInfo} {win : Nat} {f : FileHandlerImpl}
    {fileId resourceId : String} (hstored : StoredFile C x.fileDecryptionParams P s)
    (hwin : WindowSize x.fileDecryptionParams.chunkSize win) (hlen : s.file.length < 2 ^ 63)
    (hparams : x.fileDecryptionParams =
      getFileDecryptionParams C fileId resourceId s x.fileMeta.internalFileMeta)
    (hopen : FileReadWriteHandle.create C applyingBridge info x win s = (.ok f, s))
    {calls : List Access} {y z : World}
    (hrun : Run (guarded (fun x a => Access.Reproducible x a) (Access.applied C)) ⟨f.file, s⟩
      calls y)
    {c : WriteCall} (hin : Access.InRange y (.write c)) {w : PreparedWrite} {h : FileHandler}
    (hprep : y.handle.prepareWrite C applyingBridge c.ivs c.encryptMeta c.offset c.data c.truncate
      y.server = (.ok w, h, y.server))
    (hwrite : Access.applied C y (.write c) z) :
    Reported (y.server.plainByte C y.handle.chunkReader.chunkEncryptor)
        (z.server.plainByte C z.handle.chunkReader.chunkEncryptor) y.handle.getFileSize
        z.handle.getFileSize
        (Mapper.mapToStoreFileUpdatedEventData
          (some (announced (y.handle.writeRequests w.squashedChunksToUpdate w.newMeta
            y.handle.fileEncKey.id c.truncate)))
          ⟨z.handle.fileMeta.internalFileMeta.size⟩
          (getFileDecryptionParams C fileId resourceId z.server
            z.handle.fileMeta.internalFileMeta)).changes ↔
      c.LosesNothing y.handle := by
  have hinit := World.announces_opened hstored hwin hlen hparams hopen
  have hfinal := Run.simulates (World.Announces C) Access.apply
    (fun _ _ _ _ hx hs => World.announces_applied hx hs.1 hs.2) hrun hinit
  exact World.reported_iff hfinal hin hprep hwrite fileId resourceId

/-- The change of a write into the sample file is reported. -/
theorem FileHandler.changes_reported_iff_sample :
    ∃ w h, ∃ z : World,
      (openedHandle sampleInfo sampleParams 100 samplePrimitives
          sampleFile.checksum).file.prepareWrite samplePrimitives applyingBridge sampleWrite.ivs
          sampleWrite.encryptMeta sampleWrite.offset sampleWrite.data sampleWrite.truncate
          sampleFile = (.ok w, h, sampleFile) ∧
        Reported (sampleFile.plainByte samplePrimitives { key := sampleKey, chunkSize := 4 })
          (z.server.plainByte samplePrimitives z.handle.chunkReader.chunkEncryptor) 7
          z.handle.getFileSize
          (Mapper.mapToStoreFileUpdatedEventData
            (some (announced ((openedHandle sampleInfo sampleParams 100 samplePrimitives
              sampleFile.checksum).file.writeRequests w.squashedChunksToUpdate w.newMeta
                sampleParams.encKey.id sampleWrite.truncate)))
            ⟨z.handle.fileMeta.internalFileMeta.size⟩
            (getFileDecryptionParams samplePrimitives "file" "resource" z.server
              z.handle.fileMeta.internalFileMeta)).changes := by
  have hstored : StoredFile samplePrimitives sampleParams.fileDecryptionParams _ sampleFile :=
    storedFile_encoded samplePrimitives (by decide) _ _ _
  have hwin : WindowSize sampleParams.fileDecryptionParams.chunkSize 100 :=
    ⟨by decide, by decide⟩
  have hlen : sampleFile.file.length < 2 ^ 63 :=
    lt_of_le_of_lt hstored.encoded.length_file_le (by decide)
  have hopen := (FileReadWriteHandle.create_ok honestReads_applyingBridge hstored hwin hlen
    sampleInfo).1
  have hparams := encodedEncryption_params samplePrimitives
    (e := { key := sampleKey, chunkSize := 4 }) (P := [1, 2, 3, 4, 5, 6, 7]) (fun _ => sampleIv) 3
    (by decide) (by decide)
  have hin : Access.InRange
      ⟨(openedHandle sampleInfo sampleParams 100 samplePrimitives sampleFile.checksum).file,
        sampleFile⟩ (.write sampleWrite) := ⟨by decide, by decide, by decide⟩
  obtain ⟨w, h, z, hprep, hwrite⟩ := World.exists_write_applied
    (World.encodes_opened honestReads_applyingBridge hstored hwin hlen hopen) sampleWrite hin
    (fun _ _ _ => ⟨_, rfl⟩)
  exact ⟨w, h, z, hprep, (FileHandler.changes_reported_iff hstored hwin hlen hparams hopen (.nil _)
    hin hprep hwrite).mpr (Or.inr (Or.inl (by decide)))⟩

/-- Overwriting the first two chunks of three loses the third, and no change says so. -/
theorem FileHandler.lost_tail_unreported :
    StoredFile samplePrimitives wideParams.fileDecryptionParams (List.replicate 786432 0)
        wideFile ∧
      ∃ w h z,
        (openedHandle sampleInfo wideParams 100 samplePrimitives
            wideFile.checksum).file.prepareWrite samplePrimitives applyingBridge wideWrite.ivs
            wideWrite.encryptMeta wideWrite.offset wideWrite.data wideWrite.truncate
            wideFile = (.ok w, h, wideFile) ∧
          Access.applied samplePrimitives ⟨(openedHandle sampleInfo wideParams 100
            samplePrimitives wideFile.checksum).file, wideFile⟩ (.write wideWrite) z ∧
          ¬ Reported
            (wideFile.plainByte samplePrimitives (openedHandle sampleInfo wideParams 100
              samplePrimitives wideFile.checksum).file.chunkReader.chunkEncryptor)
            (z.server.plainByte samplePrimitives z.handle.chunkReader.chunkEncryptor)
            (openedHandle sampleInfo wideParams 100 samplePrimitives
              wideFile.checksum).file.getFileSize z.handle.getFileSize
            (Mapper.mapToStoreFileUpdatedEventData
              (some (announced ((openedHandle sampleInfo wideParams 100 samplePrimitives
                wideFile.checksum).file.writeRequests w.squashedChunksToUpdate w.newMeta
                  wideParams.encKey.id wideWrite.truncate)))
              ⟨z.handle.fileMeta.internalFileMeta.size⟩
              (getFileDecryptionParams samplePrimitives "file" "resource" z.server
                z.handle.fileMeta.internalFileMeta)).changes := by
  have hstored : StoredFile samplePrimitives wideParams.fileDecryptionParams
      (List.replicate 786432 0) wideFile :=
    storedFile_encoded samplePrimitives (by decide) _ _ _
  have hchunks : chunksFor wideParams.fileDecryptionParams.chunkSize
      (List.replicate 786432 (0 : UInt8)).length = 3 := by
    rw [List.length_replicate]
    decide
  have hlen : wideFile.file.length < 2 ^ 63 := by
    refine lt_of_le_of_lt hstored.encoded.length_file_le ?_
    rw [hchunks]
    decide
  have hwin : WindowSize wideParams.fileDecryptionParams.chunkSize 100 := ⟨by decide, by decide⟩
  obtain ⟨hopen, hd⟩ := FileReadWriteHandle.create_ok honestReads_applyingBridge hstored
    hwin hlen sampleInfo
  have hparams := encodedEncryption_params samplePrimitives
    (e := { key := sampleKey, chunkSize := 262144 }) (P := List.replicate 786432 0)
    (fun _ => sampleIv) 1 (by rw [List.length_replicate]; decide) (by decide)
  have hinit := World.announces_opened hstored hwin hlen hparams hopen
  have hin : Access.InRange
      ⟨(openedHandle sampleInfo wideParams 100 samplePrimitives wideFile.checksum).file,
        wideFile⟩ (.write wideWrite) := by
    show ChunkDataProvider.Addressable _ (wideWrite.lastChunk 262144)
    rw [wideWrite_lastChunk]
    exact ⟨by decide, by decide, by decide⟩
  obtain ⟨w, h, z, hprep, hwrite⟩ := World.exists_write_applied hinit.encodes wideWrite hin
    (fun _ _ _ => ⟨_, rfl⟩)
  refine ⟨hstored, w, h, z, hprep, hwrite, ?_⟩
  intro hreported
  have hloses : wideWrite.LosesNothing (openedHandle sampleInfo wideParams 100 samplePrimitives
      wideFile.checksum).file :=
    (World.reported_iff hinit hin hprep hwrite "file" "resource").mp hreported
  have hcs : (openedHandle sampleInfo wideParams 100 samplePrimitives
      wideFile.checksum).file.plainChunkSize = 262144 := rfl
  have hsize : (openedHandle sampleInfo wideParams 100 samplePrimitives
      wideFile.checksum).file.plainfileSize = 786432 := by
    rw [hd.plainfileSize_eq, List.length_replicate]
  rw [WriteCall.LosesNothing, hcs, hsize, wideWrite_lastChunk] at hloses
  rcases hloses with ht | hone | hlast
  · exact absurd ht (by decide)
  · exact wideWrite_not_oneChange hone
  · omega

end PrivmxEndpoint
