import PrivmxEndpoint.BlockJoin
import PrivmxEndpoint.ServerFile

/-!
# The window cache in front of the server

`ChunkDataProvider` reads the encrypted blob in windows of several chunks and
keeps the last window together with its number and the file version it was
read for.  The window number starts as the 32-bit value of `-1`, which the
code treats as a number like any other.

The central fact is `getChunk_eq`: as long as the kept window is what the
server holds (`CacheMatches`) and the chunk is `Addressable` in the widths the
code uses, `getChunk` answers as if there were no cache at all.
-/

namespace PrivmxEndpoint

open Word Splice

/-- The fields of `ChunkDataProvider`. -/
structure ChunkDataProvider where
  encryptedChunkSize : Nat
  serverChunkSize : Nat
  fileId : String
  serverFileSize : Nat
  fileVersion : Int
  lastServerChunk : Bytes
  lastServerChunkNumber : Option Nat
  deriving Repr, DecidableEq

/-- `ChunkDataProvider::getServerReadDataSize`: the window size rounded up to
whole chunks. -/
def getServerReadDataSize (encryptedChunkSize severChunkSize : Int) : Int :=
  (severChunkSize + encryptedChunkSize - 1).tdiv encryptedChunkSize * encryptedChunkSize

/-- The 32-bit value of the initializer `-1`. -/
def initialServerChunkNumber : Nat := 2 ^ 32 - 1

/-- The constructor of `ChunkDataProvider`. -/
def ChunkDataProvider.create (encryptedChunkSize severChunkSize : Nat) (fileId : String)
    (serverFileSize : Nat) (fileVersion : Int) : ChunkDataProvider where
  encryptedChunkSize := encryptedChunkSize
  serverChunkSize :=
    ofInt64 (getServerReadDataSize (toInt64 encryptedChunkSize) (toInt64 severChunkSize))
  fileId := fileId
  serverFileSize := serverFileSize
  fileVersion := fileVersion
  lastServerChunk := []
  lastServerChunkNumber := some initialServerChunkNumber

/-- `ChunkDataProvider::sync`. -/
def ChunkDataProvider.sync (p : ChunkDataProvider) (newfileVersion : Int)
    (encryptedFileSize : Nat) (encryptedChunkSize serverChunkSize : Option Nat) :
    ChunkDataProvider :=
  { p with
    lastServerChunkNumber :=
      if p.fileVersion < newfileVersion then none else p.lastServerChunkNumber
    lastServerChunk := if p.fileVersion < newfileVersion then [] else p.lastServerChunk
    serverFileSize := encryptedFileSize
    fileVersion := newfileVersion
    encryptedChunkSize := encryptedChunkSize.getD p.encryptedChunkSize
    serverChunkSize := serverChunkSize.getD p.serverChunkSize }

section Calls

variable {σ : Type}

/-- `ChunkDataProvider::requestServerChunk`. -/
def ChunkDataProvider.requestServerChunk (B : Bridge σ) (p : ChunkDataProvider)
    (serverChunkNumber : Nat) (s : σ) : Except StoreError Bytes × σ :=
  match B.storeFileRead
      { fileId := p.fileId
        range := .slice (toInt64 (p.serverChunkSize * serverChunkNumber))
          (toInt64 (p.serverChunkSize * u32 (serverChunkNumber + 1)))
        version := some p.fileVersion
        thumb := false } s with
  | (.error .storeFileVersionMismatch, s) => (.error .fileVersionMismatch, s)
  | (.error e, s) => (.error e, s)
  | (.ok data, s) => (.ok data, s)

/-- A version other than the kept one discards the kept window. -/
def ChunkDataProvider.forVersion (p : ChunkDataProvider) (fileVersion : Int) :
    ChunkDataProvider :=
  if fileVersion ≠ p.fileVersion then
    { p with lastServerChunkNumber := none, fileVersion := fileVersion }
  else
    p

/-- `ChunkDataProvider::getChunk`. -/
def ChunkDataProvider.getChunk (B : Bridge σ) (p : ChunkDataProvider) (chunkNumber : Nat)
    (fileVersion : Int) (s : σ) : Except StoreError Bytes × ChunkDataProvider × σ :=
  let p := p.forVersion fileVersion
  let fromPos := u64 (p.encryptedChunkSize * chunkNumber)
  if p.serverChunkSize = 0 then
    (.error .divisionByZero, p, s)
  else
    let serverChunkNumber := fromPos / p.serverChunkSize
    let serverChunkPos := fromPos % p.serverChunkSize
    if p.lastServerChunkNumber = some serverChunkNumber then
      (.ok (slice p.lastServerChunk serverChunkPos p.encryptedChunkSize), p, s)
    else
      match p.requestServerChunk B (u32 serverChunkNumber) s with
      | (.error e, s) => (.error e, p, s)
      | (.ok data, s) =>
          (.ok (slice data serverChunkPos p.encryptedChunkSize),
            { p with
              lastServerChunk := data
              lastServerChunkNumber := some (u32 serverChunkNumber) }, s)

/-- `ChunkDataProvider::getCurrentChecksumsFromBridge`. -/
def ChunkDataProvider.getCurrentChecksumsFromBridge (B : Bridge σ) (p : ChunkDataProvider)
    (s : σ) : Except StoreError Bytes × σ :=
  B.storeFileRead
    { fileId := p.fileId
      range := .checksum
      version := none
      thumb := false } s

/-- `ChunkDataProvider::update`. -/
def ChunkDataProvider.update (p : ChunkDataProvider) (newfileVersion : Int) (chunkNumber : Nat)
    (newChunkEncryptedData : Bytes) (encryptedFileSize : Nat) (truncate : Bool) :
    ChunkDataProvider :=
  let fromPos := u64 (p.encryptedChunkSize * chunkNumber)
  let serverChunkNumber := fromPos / p.serverChunkSize
  let serverChunkPos := fromPos % p.serverChunkSize
  let oldServerChunkDataAfter :=
    if truncate = false ∧
        p.lastServerChunk.length > serverChunkPos + newChunkEncryptedData.length then
      p.lastServerChunk.drop (serverChunkPos + newChunkEncryptedData.length)
    else
      []
  { p with
    lastServerChunk :=
      if p.lastServerChunkNumber = some serverChunkNumber then
        p.lastServerChunk.take serverChunkPos ++ newChunkEncryptedData ++ oldServerChunkDataAfter
      else
        p.lastServerChunk
    serverFileSize := encryptedFileSize
    fileVersion := newfileVersion }

end Calls

/-! ## The cache is invisible -/

/-- The number of the window that holds a chunk. -/
def ChunkDataProvider.window (p : ChunkDataProvider) (i : Nat) : Nat :=
  i * p.encryptedChunkSize / p.serverChunkSize

/-- A window holds one or more whole chunks. -/
structure ChunkDataProvider.Shaped (p : ChunkDataProvider) : Prop where
  chunk_pos : 0 < p.encryptedChunkSize
  window_pos : 0 < p.serverChunkSize
  dvd : p.encryptedChunkSize ∣ p.serverChunkSize

/-- The widths of the code can name the chunk: its index fits in 32 bits, its
window has a number below the initial value of the cache, and the window ends
within a signed 64-bit position. -/
structure ChunkDataProvider.Addressable (p : ChunkDataProvider) (i : Nat) : Prop where
  index_lt : i < 2 ^ 32
  window_lt : p.window i < initialServerChunkNumber
  end_lt : p.serverChunkSize * (p.window i + 1) < 2 ^ 63

/-- The kept window was read for version `v` or before, and one that would be
used for version `v` is a window of `file`. -/
structure ChunkDataProvider.CacheMatches (p : ChunkDataProvider) (v : Int) (file : Bytes) :
    Prop where
  fileVersion_le : p.fileVersion ≤ v
  window_eq : p.fileVersion = v → ∀ w, p.lastServerChunkNumber = some w →
    w ≠ initialServerChunkNumber →
      p.lastServerChunk = slice file (w * p.serverChunkSize) p.serverChunkSize

/-- The kept window is the one of chunk `i` at version `v`. -/
def ChunkDataProvider.Holds (p : ChunkDataProvider) (v : Int) (i : Nat) : Prop :=
  p.fileVersion = v ∧ p.lastServerChunkNumber = some (p.window i)

instance (p : ChunkDataProvider) (v : Int) (i : Nat) : Decidable (p.Holds v i) :=
  inferInstanceAs (Decidable (_ ∧ _))

/-- The state after the window of a chunk has been read. -/
def ChunkDataProvider.loaded (p : ChunkDataProvider) (v : Int) (i : Nat) (file : Bytes) :
    ChunkDataProvider :=
  { p with
    fileVersion := v
    lastServerChunk := slice file (p.window i * p.serverChunkSize) p.serverChunkSize
    lastServerChunkNumber := some (p.window i) }

variable {p : ChunkDataProvider} {v : Int} {s : ServerFile} {i : Nat} {file : Bytes}

theorem ChunkDataProvider.cacheMatches_create (ecs win : Nat) (fileId : String) (size : Nat)
    (v : Int) (file : Bytes) : (create ecs win fileId size v).CacheMatches v file := by
  refine ⟨le_rfl, ?_⟩
  intro _ w hw hne
  exact absurd (Option.some.inj hw).symm hne

theorem ChunkDataProvider.cacheMatches_loaded (p : ChunkDataProvider) (v : Int) (i : Nat)
    (file : Bytes) : (p.loaded v i file).CacheMatches v file := by
  refine ⟨le_rfl, ?_⟩
  intro _ w hw _
  obtain rfl : p.window i = w := Option.some.inj hw
  rfl

theorem ChunkDataProvider.CacheMatches.forVersion (h : p.CacheMatches v file) :
    (p.forVersion v).CacheMatches v file := by
  unfold ChunkDataProvider.forVersion
  split
  · refine ⟨le_rfl, ?_⟩
    intro _ w hw _
    exact absurd hw (by simp)
  · exact h

/-- The chunk lies inside its window. -/
theorem ChunkDataProvider.Shaped.chunk_in_window (h : p.Shaped) (i : Nat) :
    i * p.encryptedChunkSize % p.serverChunkSize + p.encryptedChunkSize ≤ p.serverChunkSize := by
  obtain ⟨m, hm⟩ := h.dvd
  have hmpos : 0 < m := by
    rcases Nat.eq_zero_or_pos m with h0 | h0
    · have := h.window_pos
      rw [hm, h0] at this
      omega
    · exact h0
  have hmod : i * p.encryptedChunkSize % p.serverChunkSize =
      (i % m) * p.encryptedChunkSize := by
    rw [hm, Nat.mul_comm i, Nat.mul_mod_mul_left, Nat.mul_comm]
  have hle : i % m + 1 ≤ m := Nat.mod_lt i hmpos
  calc i * p.encryptedChunkSize % p.serverChunkSize + p.encryptedChunkSize
      = (i % m + 1) * p.encryptedChunkSize := by rw [hmod, Nat.succ_mul]
    _ ≤ m * p.encryptedChunkSize := Nat.mul_le_mul_right _ hle
    _ = p.serverChunkSize := by rw [hm, Nat.mul_comm]

theorem ChunkDataProvider.window_mul_add (p : ChunkDataProvider) (i : Nat) :
    p.window i * p.serverChunkSize + i * p.encryptedChunkSize % p.serverChunkSize =
      i * p.encryptedChunkSize := by
  rw [ChunkDataProvider.window, Nat.mul_comm, Nat.div_add_mod]

/-- Within the widths of the code the start of a chunk is not wrapped. -/
theorem ChunkDataProvider.Addressable.start_eq (hs : p.Shaped) (h : p.Addressable i) :
    u64 (p.encryptedChunkSize * u32 i) = i * p.encryptedChunkSize := by
  have hlt : i * p.encryptedChunkSize < p.serverChunkSize * (p.window i + 1) := by
    rw [ChunkDataProvider.window]
    exact Nat.lt_mul_div_succ _ hs.window_pos
  have hend := h.end_lt
  rw [u32_of_lt h.index_lt, Nat.mul_comm]
  exact u64_of_lt (by omega)

/-- Reading a window from the honest server. -/
theorem ChunkDataProvider.requestServerChunk_eq {B : Bridge ServerFile} (hB : HonestReads B)
    {w : Nat} (hw : w < initialServerChunkNumber) (hend : p.serverChunkSize * (w + 1) < 2 ^ 63) :
    p.requestServerChunk B w s =
      if s.version = p.fileVersion then
        (.ok (slice s.file (w * p.serverChunkSize) p.serverChunkSize), s)
      else
        (.error .fileVersionMismatch, s) := by
  have hmul : p.serverChunkSize * (w + 1) = p.serverChunkSize * w + p.serverChunkSize := by ring
  have hfrom : toInt64 (p.serverChunkSize * w) = ((p.serverChunkSize * w : Nat) : Int) :=
    toInt64_of_lt (by omega)
  have hto : toInt64 (p.serverChunkSize * u32 (w + 1)) =
      ((p.serverChunkSize * (w + 1) : Nat) : Int) := by
    rw [u32_of_lt (by unfold initialServerChunkNumber at hw; omega)]
    exact toInt64_of_lt hend
  unfold ChunkDataProvider.requestServerChunk
  rw [hB, hfrom, hto]
  by_cases hv : s.version = p.fileVersion
  · have hlen : (((p.serverChunkSize * (w + 1) : Nat) : Int) -
        ((p.serverChunkSize * w : Nat) : Int)).toNat = p.serverChunkSize := by
      omega
    have hrange : ¬ (((p.serverChunkSize * w : Nat) : Int) < 0 ∨
        ((p.serverChunkSize * (w + 1) : Nat) : Int) < ((p.serverChunkSize * w : Nat) : Int)) := by
      omega
    simp only [ServerFile.storeFileRead, Option.any_some, ← hv, ne_eq, not_true_eq_false,
      decide_false, Bool.false_eq_true, if_false, if_true]
    rw [if_neg hrange, hlen, Int.toNat_natCast, Nat.mul_comm]
  · have hv' : ¬ p.fileVersion = s.version := fun h => hv h.symm
    simp [ServerFile.storeFileRead, hv, hv']

/-- **The cache is invisible.**  For an addressable chunk and a matching cache
`getChunk` returns the chunk's range of the blob if it holds the window or can
read it at this version, and reports a version mismatch otherwise. -/
theorem ChunkDataProvider.getChunk_eq {B : Bridge ServerFile} (hB : HonestReads B)
    (hs : p.Shaped) (hi : p.Addressable i) (hc : p.CacheMatches v file)
    (hfile : s.version = v → s.file = file) :
    p.getChunk B (u32 i) v s =
      if p.Holds v i ∨ s.version = v then
        (.ok (slice file (i * p.encryptedChunkSize) p.encryptedChunkSize), p.loaded v i file, s)
      else
        (.error .fileVersionMismatch, p.forVersion v, s) := by
  have hstart := hi.start_eq hs
  have hwlt := hi.window_lt
  have hwin : slice (slice file (p.window i * p.serverChunkSize) p.serverChunkSize)
        (i * p.encryptedChunkSize % p.serverChunkSize) p.encryptedChunkSize =
      slice file (i * p.encryptedChunkSize) p.encryptedChunkSize := by
    rw [slice_slice (hs.chunk_in_window i), p.window_mul_add]
  have hu : u32 (p.window i) = p.window i := u32_of_lt (by
    unfold initialServerChunkNumber at hwlt
    omega)
  have hnum : i * p.encryptedChunkSize / p.serverChunkSize = p.window i := rfl
  have hS : p.serverChunkSize ≠ 0 := by have := hs.window_pos; omega
  by_cases hver : v = p.fileVersion
  · have hfor : p.forVersion v = p := by simp [ChunkDataProvider.forVersion, hver]
    simp only [ChunkDataProvider.getChunk, hfor, hstart, hS, if_false, hnum]
    by_cases hhit : p.lastServerChunkNumber = some (p.window i)
    · have hlast := hc.window_eq hver.symm _ hhit (by omega)
      have hload : p.loaded v i file = p := by
        unfold ChunkDataProvider.loaded
        rw [← hlast, ← hhit, hver]
      rw [if_pos hhit, if_pos (Or.inl ⟨hver.symm, hhit⟩), hload, ← hwin, ← hlast]
    · have hnot : ¬ p.Holds v i := fun h => hhit h.2
      simp only [hhit, if_false, hu, requestServerChunk_eq hB hwlt hi.end_lt, ← hver, hnot,
        false_or]
      by_cases hsv : s.version = v
      · simp only [hsv, if_true, hfile hsv, hwin, ChunkDataProvider.loaded, hver]
      · simp only [hsv, if_false]
  · have hfor : p.forVersion v = { p with lastServerChunkNumber := none, fileVersion := v } := by
      simp [ChunkDataProvider.forVersion, hver]
    have hreq := requestServerChunk_eq (s := s)
      (p := { p with lastServerChunkNumber := none, fileVersion := v }) hB hwlt hi.end_lt
    have hnot : ¬ p.Holds v i := fun h => hver h.1.symm
    simp only [ChunkDataProvider.getChunk, hfor, hstart, hS, if_false, hnum, reduceCtorEq, hu,
      hreq, hnot, false_or]
    by_cases hsv : s.version = v
    · simp only [hsv, if_true, hfile hsv, hwin, ChunkDataProvider.loaded]
    · simp only [hsv, if_false]

/-- Patching a kept window is a write into it. -/
theorem ChunkDataProvider.update_eq (hs : p.Shaped) (hi : p.Addressable i) (v : Int)
    (data : Bytes) (size : Nat) (truncate : Bool) :
    p.update v (u32 i) data size truncate =
      { p with
        lastServerChunk :=
          if p.lastServerChunkNumber = some (p.window i) then
            writeAt p.lastServerChunk (i * p.encryptedChunkSize % p.serverChunkSize) data truncate
          else
            p.lastServerChunk
        serverFileSize := size
        fileVersion := v } := by
  unfold ChunkDataProvider.update
  rw [hi.start_eq hs]
  simp only [ChunkDataProvider.window, writeAt]
  congr 2
  cases truncate with
  | true => simp
  | false =>
      by_cases h : p.lastServerChunk.length >
          i * p.encryptedChunkSize % p.serverChunkSize + data.length
      · simp [h]
      · simp [h, List.drop_eq_nil_of_le (Nat.le_of_not_lt h)]

/-- A positive window size within the signed range is rounded up to whole
chunks. -/
theorem ChunkDataProvider.serverChunkSize_create {ecs win : Nat} (hwin : 0 < win)
    (hsum : win + ecs ≤ 2 ^ 62) (fileId : String) (size : Nat) (fv : Int) :
    (create ecs win fileId size fv).serverChunkSize = (win + ecs - 1) / ecs * ecs := by
  have hle : (win + ecs - 1) / ecs * ecs ≤ win + ecs - 1 := Nat.div_mul_le_self _ _
  simp only [create, getServerReadDataSize]
  rw [toInt64_of_lt (by omega), toInt64_of_lt (by omega)]
  have hcast : (win : Int) + (ecs : Int) - 1 = ((win + ecs - 1 : Nat) : Int) := by omega
  rw [hcast, Int.tdiv_eq_ediv_of_nonneg (Int.natCast_nonneg _), ← Int.natCast_ediv,
    ← Int.natCast_mul]
  exact ofInt64_natCast (by omega)

theorem ChunkDataProvider.shaped_create {ecs win : Nat} (hecs : 0 < ecs) (hwin : 0 < win)
    (hsum : win + ecs ≤ 2 ^ 62) (fileId : String) (size : Nat) (fv : Int) :
    (create ecs win fileId size fv).Shaped := by
  have hsize := serverChunkSize_create hwin hsum fileId size fv
  refine ⟨hecs, ?_, ?_⟩
  · rw [hsize]
    exact Nat.mul_pos (Nat.div_pos (by omega) hecs) hecs
  · rw [hsize]
    exact Dvd.intro_left _ rfl

end PrivmxEndpoint
