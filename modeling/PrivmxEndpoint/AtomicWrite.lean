import PrivmxEndpoint.FileSync
import PrivmxEndpoint.ReopenInvariant

/-!
# Writes are all or nothing up to two changes

A server that counts versions accepts the first request of a write and refuses
the second one, because both carry the version from before the write.  A
request holds two changes, so a write of three or more changes leaves the first
two of them on the server and throws.

The sessions of this module interleave every call of the handle, failing ones
included, with changes made elsewhere and with `sync`.  The handle then
describes the file of the version it has last seen (`Session.Tracks`), whether
or not the server still has that version.
-/

namespace PrivmxEndpoint

open Word Splice Blocks Runs

/-! ## Requests and versions -/

section Requests

variable {h : FileHandler} {s : ServerFile} {req req' : StoreFileWriteModelByOperations}
  {reqs : List StoreFileWriteModelByOperations}

theorem sendAll_versioned_stale (hforce : req.force = false) (hv : req.version ≠ s.version) :
    sendAll versionedBridge (req :: reqs) s = (.error .storeFileVersionMismatch, s) := by
  simp [sendAll, versionedBridge, hforce, hv]

theorem sendAll_versioned_cons (hv : req.version = s.version) :
    sendAll versionedBridge (req :: reqs) s = sendAll versionedBridge reqs (s.applyRequest req) := by
  simp [sendAll, versionedBridge, hv]

/-- The second request of a write meets the version that the first one left. -/
theorem sendAll_versioned_second (hv : req.version = s.version) (hv' : req'.version = s.version)
    (hforce : req'.force = false) :
    sendAll versionedBridge (req :: req' :: reqs) s =
      (.error .storeFileVersionMismatch, s.applyRequest req) := by
  rw [sendAll_versioned_cons hv]
  apply sendAll_versioned_stale hforce
  rw [hv']
  simp only [ServerFile.applyRequest, hv]
  omega

/-- **Requests of a write.**  They are refused for another version, applied if
there is only one, and broken off behind the first one otherwise. -/
theorem FileHandler.sendAll_writeRequests {changes : List UpdateChanges} (hne : changes ≠ [])
    (m : EncryptedMeta) (key : String) (truncate : Bool) :
    (s.version ≠ h.version →
      sendAll versionedBridge (h.writeRequests changes m key truncate) s =
        (.error .storeFileVersionMismatch, s)) ∧
    (s.version = h.version → changes.length ≤ 2 →
      sendAll versionedBridge (h.writeRequests changes m key truncate) s =
        sendAll applyingBridge (h.writeRequests changes m key truncate) s) ∧
    (s.version = h.version → 2 < changes.length →
      ∃ s', sendAll versionedBridge (h.writeRequests changes m key truncate) s =
        (.error .storeFileVersionMismatch, s') ∧ s'.version = s.version + 1) := by
  rcases changes with - | ⟨c, - | ⟨d, - | ⟨e, rest⟩⟩⟩
  · exact absurd rfl hne
  · refine ⟨fun hv => sendAll_versioned_stale rfl hv.symm, fun hv _ => ?_, fun _ h2 => ?_⟩
    · exact sendAll_versioned_cons hv.symm
    · exact absurd h2 (by simp)
  · refine ⟨fun hv => sendAll_versioned_stale rfl hv.symm, fun hv _ => ?_, fun _ h2 => ?_⟩
    · exact sendAll_versioned_cons hv.symm
    · exact absurd h2 (by simp)
  · obtain ⟨b, bs, hb⟩ : ∃ b bs, batches (operationsByChange truncate (e :: rest)) = b :: bs :=
      List.exists_cons_of_ne_nil (batches_ne_nil (operationsByChange_ne_nil (by simp)))
    have hreqs : batches (operationsByChange truncate (c :: d :: e :: rest)) =
        (changeOperations c true ++ changeOperations d true) :: b :: bs := by
      rw [operationsByChange_cons truncate c (by simp),
        operationsByChange_cons truncate d (by simp), batches_cons_cons, hb]
    simp only [FileHandler.writeRequests, hreqs, List.map_cons]
    refine ⟨fun hv => sendAll_versioned_stale rfl hv.symm, fun _ h2 => ?_, fun hv _ => ?_⟩
    · exact absurd h2 (by simp)
    · refine ⟨_, sendAll_versioned_second hv.symm hv.symm rfl, ?_⟩
      simp only [ServerFile.applyRequest, hv]

end Requests

/-! ## Counting changes -/

/-- The number of full chunks that fit into one change. -/
def chunksPerChange (ecs : Nat) : Nat :=
  max 1 ((SERVER_OPERATION_SIZE_LIMIT - 1) / ecs)

/-- **Two changes are enough** exactly if what the first change leaves over is
one chunk or less than 512 KiB. -/
theorem ChunkRun.length_squash_le_two {h : FileHandler} {u : Nat → UpdateChunkData} {i m k : Nat}
    (hr : ChunkRun h u i (m + k)) (hm : 0 < m) (hmle : m ≤ chunksPerChange h.encryptedChunkSize) :
    (h.squash (runOfChunks u h.encryptedChunkSize i m)
        ((List.range' (i + m) k).map u)).length ≤ 2 ↔
      m + k ≤ chunksPerChange h.encryptedChunkSize + 1 ∨
        (join (fun j => (u j).chunk.data) i (m + k)).length <
          chunksPerChange h.encryptedChunkSize * h.encryptedChunkSize +
            SERVER_OPERATION_SIZE_LIMIT := by
  have hecs : 0 < h.encryptedChunkSize := lt_of_lt_of_le (by decide) hr.tag_le
  induction k generalizing m with
  | zero =>
      simp only [List.range'_zero, List.map_nil, FileHandler.squash, List.length_singleton,
        Nat.add_zero]
      exact ⟨fun _ => Or.inl (by omega), fun _ => by omega⟩
  | succ k ih =>
      have hadd : m + 1 + k = m + (k + 1) := by omega
      have hr' : ChunkRun h u i (m + 1 + k) := hadd ▸ hr
      rw [hr.squash_succ]
      rcases Nat.eq_zero_or_pos k with rfl | hk
      · -- The last chunk joins the open change or is the second one.
        refine ⟨fun _ => Or.inl (by omega), fun _ => ?_⟩
        split <;> simp [FileHandler.squash]
      · have hfull : (join (fun j => (u j).chunk.data) i (m + 1)).length =
            (m + 1) * h.encryptedChunkSize :=
          length_join (fun j h1 h2 => hr.full j h1 (by omega))
        split
        · rename_i hlt
          have hnext : m + 1 ≤ chunksPerChange h.encryptedChunkSize := by
            refine le_trans ?_ (le_max_right _ _)
            rw [Nat.le_div_iff_mul_le hecs, ← hfull]
            omega
          have hgrown := ih hr' (Nat.succ_pos m) hnext
          rwa [hadd] at hgrown
        · rename_i hge
          -- The open change is as full as any change gets.
          have hmeq : m = chunksPerChange h.encryptedChunkSize := by
            refine le_antisymm hmle (max_le hm ?_)
            have hlt : (SERVER_OPERATION_SIZE_LIMIT - 1) / h.encryptedChunkSize < m + 1 := by
              rw [Nat.div_lt_iff_lt_mul hecs, ← hfull]
              have : 0 < SERVER_OPERATION_SIZE_LIMIT := by decide
              omega
            omega
          have hrest : ChunkRun h u (i + m) (1 + k) :=
            { hr with
              full := fun j h1 h2 => hr.full j (by omega) (by omega)
              fits := fun j h1 h2 => hr.fits j (by omega) (by omega)
              end_lt := by
                have hsum : i + m + (1 + k) = i + (m + (k + 1)) := by omega
                rw [hsum]
                exact hr.end_lt }
          have htotal : (join (fun j => (u j).chunk.data) i (m + (k + 1))).length =
              m * h.encryptedChunkSize +
                (join (fun j => (u j).chunk.data) (i + m) (1 + k)).length := by
            rw [Nat.add_comm k 1, join_add, List.length_append]
            congr 1
            exact length_join (fun j h1 h2 => hr.full j h1 (by omega))
          have hone := hrest.length_squash_eq_one
          have hpos := List.length_pos_iff.mpr (FileHandler.squash_ne_nil (h := h)
            (runOfChunks u h.encryptedChunkSize (i + m) 1) ((List.range' (i + m + 1) k).map u))
          rw [List.length_cons, htotal, ← hmeq]
          constructor
          · intro hle
            rcases hone.mp (by omega) with h0 | hlt
            · omega
            · exact Or.inr (by omega)
          · rintro (hle | hlt)
            · omega
            · have := hone.mpr (Or.inr (by omega))
              omega

/-- What a write leaves over after its first change is one chunk or less than
512 KiB. -/
def WriteCall.TwoChanges (c : WriteCall) (cs size : Nat) : Prop :=
  c.count cs size ≤ chunksPerChange (encLen cs) + 1 ∨
    c.sentLength cs size < chunksPerChange (encLen cs) * encLen cs + SERVER_OPERATION_SIZE_LIMIT

theorem WriteCall.length_changes_le_two (c : WriteCall) {C : Primitives} {h : FileHandler}
    {P file checksum : Bytes} {n : Nat} (hd : h.Describes C P n file checksum)
    (haddr : h.chunkReader.chunkDataProvider.Addressable
      (c.lastChunk h.chunkReader.chunkEncryptor.chunkSize)) :
    (h.createListOfUpdateChangesFromUpdateChunkData (c.updates C h P file)).length ≤ 2 ↔
      c.TwoChanges h.chunkReader.chunkEncryptor.chunkSize P.length := by
  have hpos := c.count_pos h.chunkReader.chunkEncryptor.chunkSize P.length
  have hone : 1 + (c.count h.chunkReader.chunkEncryptor.chunkSize P.length - 1) =
      c.count h.chunkReader.chunkEncryptor.chunkSize P.length := by omega
  have hsent : (join (fun j => (c.update C h P file j).chunk.data)
      (c.firstChunk h.chunkReader.chunkEncryptor.chunkSize P.length)
      (c.count h.chunkReader.chunkEncryptor.chunkSize P.length)).length =
      c.sentLength h.chunkReader.chunkEncryptor.chunkSize P.length := c.length_sent hd
  have hcount := (c.chunkRun hd haddr).length_squash_le_two Nat.one_pos (le_max_left _ _)
  rw [hone, hsent, hd.encryptedChunkSize_eq] at hcount
  rw [c.changes_eq hd haddr, hd.encryptedChunkSize_eq]
  exact hcount

/-! ## Sessions -/

/-- The arguments of a write at the write position. -/
structure WriteArgs where
  ivs : Nat → Iv
  encryptMeta : EncryptMeta
  data : Bytes
  truncate : Bool

/-- The write that these arguments make at a position. -/
def WriteArgs.call (w : WriteArgs) (offset : Nat) : WriteCall where
  ivs := w.ivs
  encryptMeta := w.encryptMeta
  offset := offset
  data := w.data
  truncate := w.truncate

/-- A read-write handle and the server it talks to. -/
structure Session where
  handle : FileHandlerImpl
  server : ServerFile

/-- What can happen in a session: a call of the handle, or a change of the
file that does not come from it. -/
inductive HandleCall
  | seekg (pos : Nat)
  | seekp (pos : Nat)
  | read (length : Nat)
  | write (w : WriteArgs)
  | sync (fileMeta : FileMeta) (newParms : FileDecryptionParams) (fileEncKey : DecryptedEncKey)
  | foreign (server : ServerFile)

/-- One step of a session.  A call may fail; the handle then goes on with the
state the exception left. -/
def HandleCall.step (C : Primitives) (x : Session) : HandleCall → Session → Prop
  | .seekg pos, y => y = { x with handle := (x.handle.seekg pos).toOption.getD x.handle }
  | .seekp pos, y => y = { x with handle := (x.handle.seekp pos).toOption.getD x.handle }
  | .read length, y =>
      ∃ result, x.handle.read C versionedBridge length x.server = (result, y.handle, y.server)
  | .write w, y =>
      ∃ result, x.handle.write C versionedBridge w.ivs w.encryptMeta w.data w.truncate x.server =
        (result, y.handle, y.server)
  | .sync fileMeta newParms fileEncKey, y =>
      ∃ result, x.handle.sync C versionedBridge fileMeta newParms fileEncKey x.server =
        (result, y.handle, y.server)
  | .foreign server, y =>
      x.server.version < server.version ∧ y = { x with server := server }

/-- The write finds another version on the server, or it takes at most two
changes and keeps the tail of the file. -/
def Session.Atomic (x : Session) (w : WriteArgs) : Prop :=
  x.server.version ≠ x.handle.file.version ∨
    (w.call x.handle.writePos).TwoChanges x.handle.file.plainChunkSize
        x.handle.file.plainfileSize ∧
      (w.call x.handle.writePos).KeepsTail x.handle.file

/-- The last chunk of a write is addressable and every meta can be encrypted. -/
structure Session.CanWrite (x : Session) (w : WriteArgs) : Prop where
  addressable : x.handle.file.chunkReader.chunkDataProvider.Addressable
    ((w.call x.handle.writePos).lastChunk x.handle.file.chunkReader.chunkEncryptor.chunkSize)
  encrypts : ∀ info fileMeta key, ∃ m, w.encryptMeta info fileMeta key = .ok m

/-- Calls that keep a session in line with the server.  A `sync` is refused by
the check of the top hash, or brings parameters made for the stored file with
the key and the chunk size of the handle. -/
def HandleCall.Sound (C : Primitives) (x : Session) : HandleCall → Prop
  | .seekg _ => True
  | .seekp _ => True
  | .read length =>
      x.handle.readPos + length < 2 ^ 64 ∧
        (x.handle.readPos < x.handle.file.plainfileSize → 0 < length →
          x.handle.file.chunkReader.chunkDataProvider.Addressable
            (lastReadChunk x.handle.file.chunkReader.chunkEncryptor.chunkSize
              x.handle.file.plainfileSize x.handle.readPos length))
  | .write w => x.CanWrite w ∧ x.Atomic w
  | .sync _ newParms _ =>
      newParms.hmac ≠ C.hmacSha256 newParms.key x.server.checksum ∨
        newParms.encryptor = x.handle.file.chunkReader.chunkEncryptor ∧
          x.server.file.length < 2 ^ 63 ∧ ∃ P, StoredFile C newParms P x.server
  | .foreign _ => True

/-- The handle describes the file of the version it has last seen. -/
structure Session.Tracks (C : Primitives) (x : Session) (P : Bytes) (n : Nat)
    (file checksum : Bytes) : Prop where
  describes : x.handle.file.Describes C P n file checksum
  version_le : x.handle.file.version ≤ x.server.version
  current : x.server.version = x.handle.file.version →
    x.server.file = file ∧ x.server.checksum = checksum

/-- Some file is tracked. -/
def Session.Tracked (C : Primitives) (x : Session) : Prop :=
  ∃ P n file checksum, x.Tracks C P n file checksum

section Handle

variable {C : Primitives} {h : FileHandler} {P file checksum : Bytes} {n : Nat}
  {B : Bridge ServerFile} {s : ServerFile}

theorem FileHandler.Describes.withProvider (hd : h.Describes C P n file checksum)
    {p : ChunkDataProvider} (hshape : h.chunkReader.chunkDataProvider.SameShape p)
    (hcache : p.CacheMatches h.version file) :
    (h.withProvider p).Describes C P n file checksum :=
  { hd with reader := hd.reader.withProvider hshape (hd.version_eq ▸ hcache) }

theorem FileHandler.Describes.withHashList (hd : h.Describes C P n file checksum) {l : HmacList}
    (hl : l.Sound C) (hhashes : l.hashes = checksum)
    (hkey : l.topHashKey = h.chunkReader.hashList.topHashKey) :
    (h.withHashList l).Describes C P n file checksum :=
  { hd with
    reader :=
      { hd.reader with
        hashList := hl
        hashes_eq := hhashes
        topHashKey_eq := hkey.trans hd.reader.topHashKey_eq } }

/-- Rolling back the tag list. -/
theorem FileHandler.Describes.setAll (hd : h.Describes C P n file checksum) (l : HmacList)
    (hkey : l.topHashKey = h.chunkReader.hashList.topHashKey) :
    ∃ l', l.setAll checksum = .ok l' ∧ (h.withHashList l').Describes C P n file checksum := by
  have hlen := hd.reader.encoded.length_checksum
  have hmod : checksum.length % HMAC_SIZE = 0 := by
    rw [hlen]
    exact Nat.mul_mod_left _ _
  refine ⟨_, if_neg (by simpa using hmod), hd.withHashList ⟨?_, ?_⟩ rfl hkey⟩
  · exact (Nat.div_mul_cancel (Nat.dvd_of_mod_eq_zero hmod)).symm
  · intro t ht
    exact absurd ht (by simp)

/-- A write that the server refuses rolls the tag list back. -/
theorem FileHandler.write_of_refused {c : WriteCall} {w : PreparedWrite} {h' : FileHandler}
    {s' : ServerFile} {e : StoreError} {l : HmacList}
    (hprep : h.prepareWrite C B c.ivs c.encryptMeta c.offset c.data c.truncate s = (.ok w, h', s))
    (hsend : sendAll B (h'.writeRequests w.squashedChunksToUpdate w.newMeta h'.fileEncKey.id
      c.truncate) s = (.error e, s')) (he : e.isPrivmxException = true)
    (hset : h'.chunkReader.hashList.setAll w.oldHashList = .ok l) :
    h.write C B c.ivs c.encryptMeta c.offset c.data c.truncate s =
      (.error e, h'.withHashList l, s') := by
  simp only [FileHandler.write, hprep, hsend, he, if_true, hset]

/-- A write at a version that the server no longer has is refused. -/
theorem FileHandler.write_stale (hd : h.Describes C P n file checksum) (c : WriteCall)
    (haddr : h.chunkReader.chunkDataProvider.Addressable
      (c.lastChunk h.chunkReader.chunkEncryptor.chunkSize))
    (hmeta : ∀ info fileMeta key, ∃ m, c.encryptMeta info fileMeta key = .ok m)
    (hv : s.version ≠ h.version) :
    ∃ e h', h.write C versionedBridge c.ivs c.encryptMeta c.offset c.data c.truncate s =
        (.error e, h', s) ∧ h'.version = h.version ∧ h'.Describes C P n file checksum := by
  obtain ⟨p, hshape, hcache, ⟨-, hprep⟩ | ⟨-, hprep⟩⟩ := FileHandler.prepareWrite_spec
    honestReads_versionedBridge c hd haddr (fun h0 => absurd h0 hv)
  · -- All windows were at hand, so the server sees the request.
    obtain ⟨m, hm⟩ := hmeta h.fileInfo (c.newFileMeta C h P checksum) h.fileEncKey
    rw [hm] at hprep
    obtain ⟨l, hset, hback⟩ := (hd.withProvider hshape hcache).setAll
      (c.hashList C h P checksum n) rfl
    have hsend := (FileHandler.sendAll_writeRequests (h := h) (s := s)
      (c.changes_ne_nil hd haddr) m h.fileEncKey.id c.truncate).1 hv
    exact ⟨_, _, FileHandler.write_of_refused hprep hsend rfl hset, rfl, hback⟩
  · refine ⟨.fileVersionMismatch, h.withProvider p, ?_, rfl, hd.withProvider hshape hcache⟩
    simp only [FileHandler.write, hprep]

/-- A write of at most two changes on the current file is committed. -/
theorem FileHandler.write_two_changes (hd : h.Describes C P n s.file s.checksum) (c : WriteCall)
    (haddr : h.chunkReader.chunkDataProvider.Addressable
      (c.lastChunk h.chunkReader.chunkEncryptor.chunkSize))
    (hmeta : ∀ info fileMeta key, ∃ m, c.encryptMeta info fileMeta key = .ok m)
    (hv : s.version = h.version)
    (htwo : c.TwoChanges h.chunkReader.chunkEncryptor.chunkSize P.length) :
    ∃ m h₁ h' s', h.prepareWrite C versionedBridge c.ivs c.encryptMeta c.offset c.data c.truncate
        s = (.ok (c.prepared C h P s.file s.checksum m), h₁, s) ∧
      h.write C versionedBridge c.ivs c.encryptMeta c.offset c.data c.truncate s =
        (.ok (), h', s') ∧
      h.Rewritten h' (c.newFileMeta C h P s.checksum) ∧
      h'.Describes C (c.plain P)
        (c.chunks h.chunkReader.chunkEncryptor.chunkSize P.length n)
        (c.file C h.chunkReader.chunkEncryptor P s.file)
        (c.checksum C h.chunkReader.chunkEncryptor P s.checksum) ∧
      sendAll applyingBridge (h.writeRequests (h.createListOfUpdateChangesFromUpdateChunkData
        (c.updates C h P s.file)) m h.fileEncKey.id c.truncate) s = (.ok (), s') := by
  obtain ⟨m, hm⟩ := hmeta h.fileInfo (c.newFileMeta C h P s.checksum) h.fileEncKey
  obtain ⟨h₁, h', hprep, hnext, hnew, hsent⟩ :=
    FileHandler.write_current honestReads_versionedBridge c hd hv haddr hm
  have happlied := c.applied_eq hd haddr m h.fileEncKey.id
  have hsend := (FileHandler.sendAll_writeRequests (h := h) (s := s)
    (c.changes_ne_nil hd haddr) m h.fileEncKey.id c.truncate).2.1 hv
    ((c.length_changes_le_two hd haddr).mpr htwo)
  exact ⟨m, h₁, h', _, hprep, hsent _ (hsend.trans happlied), hnext, hnew, happlied⟩

/-- A write of more changes commits the first two and throws. -/
theorem FileHandler.write_three_changes (hd : h.Describes C P n s.file s.checksum) (c : WriteCall)
    (haddr : h.chunkReader.chunkDataProvider.Addressable
      (c.lastChunk h.chunkReader.chunkEncryptor.chunkSize))
    (hmeta : ∀ info fileMeta key, ∃ m, c.encryptMeta info fileMeta key = .ok m)
    (hv : s.version = h.version)
    (hmany : ¬ c.TwoChanges h.chunkReader.chunkEncryptor.chunkSize P.length) :
    ∃ h' s', h.write C versionedBridge c.ivs c.encryptMeta c.offset c.data c.truncate s =
      (.error .storeFileVersionMismatch, h', s') ∧ s'.version = s.version + 1 := by
  obtain ⟨m, hm⟩ := hmeta h.fileInfo (c.newFileMeta C h P s.checksum) h.fileEncKey
  obtain ⟨p, hshape, hcache, -, hprep⟩ :=
    FileHandler.prepareWrite_ok honestReads_versionedBridge c hd hv haddr
  rw [hm] at hprep
  obtain ⟨l, hset, -⟩ := (hd.withProvider hshape hcache).setAll
    (c.hashList C h P s.checksum n) rfl
  obtain ⟨s', hsend, hver⟩ := (FileHandler.sendAll_writeRequests (h := h) (s := s)
    (c.changes_ne_nil hd haddr) m h.fileEncKey.id c.truncate).2.2 hv
    (by rw [← c.length_changes_le_two hd haddr] at hmany; omega)
  exact ⟨_, s', FileHandler.write_of_refused hprep hsend rfl hset, hver⟩

end Handle

section Steps

variable {C : Primitives} {x y : Session} {P file checksum : Bytes} {n : Nat}

/-- A call that stays at the version of the handle. -/
theorem Session.Tracks.same_version (hx : x.Tracks C P n file checksum)
    (hd : y.handle.file.Describes C P n file checksum)
    (hver : y.handle.file.version = x.handle.file.version) (hserver : y.server = x.server) :
    y.Tracked C := by
  refine ⟨P, n, file, checksum, hd, ?_, ?_⟩ <;> rw [hver, hserver]
  · exact hx.version_le
  · exact hx.current

/-- A call that brings the handle to the version of the server. -/
theorem Session.tracked_current (hd : y.handle.file.Describes C P n y.server.file y.server.checksum)
    (hver : y.handle.file.version = y.server.version) : y.Tracked C :=
  ⟨P, n, _, _, hd, hver.le, fun _ => ⟨rfl, rfl⟩⟩

theorem FileHandlerImpl.write_eq {B : Bridge ServerFile} {f : FileHandlerImpl} {w : WriteArgs}
    {s s' : ServerFile} {result : Except StoreError Unit} {h' : FileHandler}
    (hcall : f.file.write C B (w.call f.writePos).ivs (w.call f.writePos).encryptMeta
      (w.call f.writePos).offset (w.call f.writePos).data (w.call f.writePos).truncate s =
        (result, h', s')) :
    ∃ f', f.write C B w.ivs w.encryptMeta w.data w.truncate s = (result, f', s') ∧
      f'.file = h' := by
  have hcall' : f.file.write C B w.ivs w.encryptMeta f.writePos w.data w.truncate s =
      (result, h', s') := hcall
  cases result with
  | error e => exact ⟨{ f with file := h' }, by simp only [FileHandlerImpl.write, hcall'], rfl⟩
  | ok u =>
      exact ⟨{ f with file := h', writePos := u64 (f.writePos + w.data.length) },
        by simp only [FileHandlerImpl.write, hcall'], rfl⟩

/-- A sound write. -/
theorem Session.tracked_write (hx : x.Tracks C P n file checksum) {w : WriteArgs}
    (hcan : x.CanWrite w) (hatomic : x.Atomic w)
    (hstep : HandleCall.step C x (.write w) y) : y.Tracked C := by
  obtain ⟨result, hwrite⟩ := hstep
  have hd := hx.describes
  by_cases hv : x.server.version = x.handle.file.version
  · obtain ⟨rfl, rfl⟩ := hx.current hv
    obtain ⟨htwo, hkeep⟩ := hatomic.resolve_left (fun hne => hne hv)
    rw [hd.plainChunkSize_eq, hd.plainfileSize_eq] at htwo
    obtain ⟨m, h₁, h', s', -, hcall, hnext, hnew, hsend⟩ := FileHandler.write_two_changes hd
      (w.call x.handle.writePos) hcan.addressable hcan.encrypts hv htwo
    rw [WriteCall.applied_eq _ hd hcan.addressable, (WriteCall.file_applied_iff _ hd).mpr hkeep,
      WriteCall.checksum_applied _ hd hkeep] at hsend
    obtain ⟨f', hcall', rfl⟩ := FileHandlerImpl.write_eq hcall
    rw [hcall'] at hwrite
    obtain ⟨hf, hs⟩ := Prod.mk.inj (Prod.mk.inj hwrite).2
    have hserver := (Prod.mk.inj hsend).2
    apply Session.tracked_current (P := (w.call x.handle.writePos).plain P)
      (n := (w.call x.handle.writePos).chunks x.handle.file.chunkReader.chunkEncryptor.chunkSize
        P.length n)
    · rw [← hs, ← hserver, ← hf]
      exact hnew
    · rw [← hs, ← hserver, ← hf, hnext.version_eq]
  · obtain ⟨e, h', hcall, hver, hd'⟩ := FileHandler.write_stale hd
      (w.call x.handle.writePos) hcan.addressable hcan.encrypts hv
    obtain ⟨f', hcall', rfl⟩ := FileHandlerImpl.write_eq hcall
    rw [hcall'] at hwrite
    obtain ⟨rfl, hs⟩ := Prod.mk.inj (Prod.mk.inj hwrite).2
    exact hx.same_version hd' hver hs.symm

/-- A sound `sync`. -/
theorem Session.tracked_sync (hx : x.Tracks C P n file checksum) {fileMeta : FileMeta}
    {d : FileDecryptionParams} {key : DecryptedEncKey}
    (hok : HandleCall.Sound C x (.sync fileMeta d key))
    (hstep : HandleCall.step C x (.sync fileMeta d key) y) : y.Tracked C := by
  obtain ⟨result, hsync⟩ := hstep
  have hd := hx.describes
  rcases hok with hhmac | ⟨henc, hlen, Q, hstored⟩
  · simp only [FileHandlerImpl.sync, FileHandler.sync_refused honestReads_versionedBridge hhmac,
      Prod.mk.injEq] at hsync
    obtain ⟨-, hf, hs⟩ := hsync
    exact hx.same_version (by rw [← hf]; exact hx.describes) (by rw [← hf]) hs.symm
  · simp only [FileHandlerImpl.sync, FileHandler.sync_eq honestReads_versionedBridge
      hstored.hmac_eq hstored.checksum_mod, Prod.mk.injEq] at hsync
    obtain ⟨-, hf, hs⟩ := hsync
    have hnew := hd.synced hx.version_le (fun hv => (hx.current hv).1) hstored henc hlen fileMeta
      key
    apply Session.tracked_current (P := Q) (n := chunksFor d.chunkSize Q.length)
    · rw [← hf, ← hs]
      exact hnew
    · rw [← hf, ← hs]
      exact hstored.version_eq

/-- **Step.**  Every sound call, failing or not, and every change made
elsewhere keep the session in line with some version of the file. -/
theorem Session.tracked_step {a : HandleCall} (hx : x.Tracked C) (hok : a.Sound C x)
    (hstep : a.step C x y) : y.Tracked C := by
  obtain ⟨P, n, file, checksum, hx⟩ := hx
  cases a with
  | seekg pos =>
      obtain rfl : y = _ := hstep
      have hsame : ((x.handle.seekg pos).toOption.getD x.handle).file = x.handle.file := by
        unfold FileHandlerImpl.seekg
        split <;> rfl
      exact hx.same_version (by rw [hsame]; exact hx.describes) (by rw [hsame]) rfl
  | seekp pos =>
      obtain rfl : y = _ := hstep
      have hsame : ((x.handle.seekp pos).toOption.getD x.handle).file = x.handle.file := by
        unfold FileHandlerImpl.seekp
        split <;> rfl
      exact hx.same_version (by rw [hsame]; exact hx.describes) (by rw [hsame]) rfl
  | read length =>
      obtain ⟨result, hread⟩ := hstep
      obtain ⟨r, -, hr, hcall⟩ := FileHandler.read_spec honestReads_versionedBridge hx.describes
        (fun hv => (hx.current hv).1) hok.1 hok.2
      have hy : y.handle.file = { x.handle.file with chunkReader := r } ∧
          y.server = x.server := by
        rcases hcall with hcall | ⟨-, hcall⟩ <;>
          simp only [FileHandlerImpl.read, hcall, Prod.mk.injEq] at hread <;>
          rw [← hread.2.1, ← hread.2.2] <;> exact ⟨rfl, rfl⟩
      exact hx.same_version (by rw [hy.1]; exact hr) (by rw [hy.1]) hy.2
  | write w => exact Session.tracked_write hx hok.1 hok.2 hstep
  | sync fileMeta d key => exact Session.tracked_sync hx hok hstep
  | foreign s' =>
      obtain ⟨hlt, rfl⟩ := hstep
      have hle := hx.version_le
      refine ⟨P, n, file, checksum, hx.describes, ?_, ?_⟩
      · show x.handle.file.version ≤ s'.version
        omega
      · intro hv
        have : s'.version = x.handle.file.version := hv
        omega

/-- A write succeeds, and the server holds the old file with exactly the
updated chunks and tags replaced, the new meta and the version of the handle;
or it throws, and the server is unchanged. -/
def Session.AllOrNothing (C : Primitives) (x : Session) (w : WriteArgs) : Prop :=
  match x.handle.write C versionedBridge w.ivs w.encryptMeta w.data w.truncate x.server with
  | (.ok (), f, s) =>
      s.version = f.file.version ∧ s.checksum = f.file.chunkReader.hashList.getAll ∧
        ∃ v h, x.handle.file.prepareWrite C versionedBridge w.ivs w.encryptMeta x.handle.writePos
            w.data w.truncate x.server = (.ok v, h, x.server) ∧
          s =
            { x.server.replaceChunks x.handle.file.encryptedChunkSize v.chunksToUpdate
                w.truncate with
              encryptedMeta := v.newMeta
              keyId := x.handle.file.fileEncKey.id }
  | (.error _, _, s) => s = x.server

/-- A write of three changes on the current file throws and leaves the server
with the next version. -/
theorem Session.write_three_changes (hx : x.Tracks C P n file checksum) {w : WriteArgs}
    (hcan : x.CanWrite w) (hv : x.server.version = x.handle.file.version)
    (hmany : ¬ (w.call x.handle.writePos).TwoChanges x.handle.file.plainChunkSize
      x.handle.file.plainfileSize) :
    ∃ f s, x.handle.write C versionedBridge w.ivs w.encryptMeta w.data w.truncate x.server =
      (.error .storeFileVersionMismatch, f, s) ∧ s.version = x.server.version + 1 := by
  have hd := hx.describes
  obtain ⟨rfl, rfl⟩ := hx.current hv
  rw [hd.plainChunkSize_eq, hd.plainfileSize_eq] at hmany
  obtain ⟨h', s', hcall, hver⟩ := FileHandler.write_three_changes hd (w.call x.handle.writePos)
    hcan.addressable hcan.encrypts hv hmany
  obtain ⟨f', hcall', -⟩ := FileHandlerImpl.write_eq hcall
  exact ⟨f', s', hcall', hver⟩

/-- **Exactness.**  In a session in line with the server, a write is all or
nothing exactly if it is refused or takes two changes that keep the tail. -/
theorem Session.allOrNothing_iff (hx : x.Tracked C) {w : WriteArgs} (hcan : x.CanWrite w) :
    x.AllOrNothing C w ↔ x.Atomic w := by
  obtain ⟨P, n, file, checksum, hx⟩ := hx
  have hd := hx.describes
  by_cases hv : x.server.version = x.handle.file.version
  · obtain ⟨rfl, rfl⟩ := hx.current hv
    have hatomic : x.Atomic w ↔
        (w.call x.handle.writePos).TwoChanges x.handle.file.chunkReader.chunkEncryptor.chunkSize
          P.length ∧ (w.call x.handle.writePos).KeepsTail x.handle.file := by
      rw [Session.Atomic, hd.plainChunkSize_eq, hd.plainfileSize_eq]
      exact or_iff_right (fun hne => hne hv)
    rw [hatomic]
    by_cases htwo : (w.call x.handle.writePos).TwoChanges
        x.handle.file.chunkReader.chunkEncryptor.chunkSize P.length
    · obtain ⟨m, h₁, h', s', hprep, hcall, hnext, hnew, hsend⟩ := FileHandler.write_two_changes hd
        (w.call x.handle.writePos) hcan.addressable hcan.encrypts hv htwo
      rw [WriteCall.applied_eq _ hd hcan.addressable] at hsend
      have hserver := (Prod.mk.inj hsend).2
      have hreplace := (w.call x.handle.writePos).replaceChunks_eq hd
      obtain ⟨f', hcall', rfl⟩ := FileHandlerImpl.write_eq hcall
      simp only [Session.AllOrNothing, hcall']
      constructor
      · rintro ⟨-, -, v, h, hprep', hs⟩
        refine ⟨htwo, ?_⟩
        have hv' : v = (w.call x.handle.writePos).prepared C x.handle.file P x.server.file
            x.server.checksum m := by
          have hboth := hprep'.symm.trans hprep
          simpa using congrArg Prod.fst hboth
        have hupdates : v.chunksToUpdate =
            (w.call x.handle.writePos).updates C x.handle.file P x.server.file := by rw [hv']; rfl
        have hfile := congrArg ServerFile.file hs
        rw [← hserver, hupdates] at hfile
        rw [← WriteCall.file_applied_iff _ hd]
        exact hfile.trans (congrArg ServerFile.file hreplace)
      · rintro ⟨-, hkeep⟩
        rw [(WriteCall.file_applied_iff _ hd).mpr hkeep,
          WriteCall.checksum_applied _ hd hkeep] at hserver
        refine ⟨?_, ?_, _, h₁, hprep, ?_⟩
        · rw [← hserver, hnext.version_eq]
        · rw [← hserver, HmacList.getAll, hnew.reader.hashes_eq]
        · have hupdates : x.server.replaceChunks x.handle.file.encryptedChunkSize
              ((w.call x.handle.writePos).prepared C x.handle.file P x.server.file
                x.server.checksum m).chunksToUpdate w.truncate = _ := hreplace
          rw [hupdates, ← hserver, hv]
          rfl
    · obtain ⟨f', s', hcall', hver⟩ := Session.write_three_changes hx hcan hv
        (by rw [hd.plainChunkSize_eq, hd.plainfileSize_eq]; exact htwo)
      simp only [Session.AllOrNothing, hcall']
      constructor
      · rintro rfl
        omega
      · exact fun hboth => absurd hboth.1 htwo
  · obtain ⟨e, h', hcall, -, -⟩ := FileHandler.write_stale hd
      (w.call x.handle.writePos) hcan.addressable hcan.encrypts hv
    obtain ⟨f', hcall', -⟩ := FileHandlerImpl.write_eq hcall
    simp only [Session.AllOrNothing, hcall', true_iff]
    exact Or.inl hv

end Steps

/-- A freshly opened handle is in line with the server. -/
theorem Session.tracked_opened {C : Primitives} {P : Bytes} {s : ServerFile}
    {x : FileEncryptionParams} {info : FileInfo} {win : Nat} {f : FileHandlerImpl}
    (hstored : StoredFile C x.fileDecryptionParams P s)
    (hwin : WindowSize x.fileDecryptionParams.chunkSize win) (hlen : s.file.length < 2 ^ 63)
    (hopen : FileReadWriteHandle.create C versionedBridge info x win s = (.ok f, s)) :
    Session.Tracked C ⟨f, s⟩ := by
  obtain ⟨hv, n, hd⟩ :=
    World.encodes_opened honestReads_versionedBridge hstored hwin hlen hopen
  exact Session.tracked_current (y := ⟨f, s⟩) hd hv.symm

/-- **Writes are all or nothing exactly up to two changes.**  In every state
that a session of sound calls reaches, whatever was changed elsewhere in the
meantime. -/
theorem FileHandlerImpl.write_all_or_nothing_iff {C : Primitives} {P : Bytes} {s : ServerFile}
    {x : FileEncryptionParams} {info : FileInfo} {win : Nat} {f : FileHandlerImpl}
    (hstored : StoredFile C x.fileDecryptionParams P s)
    (hwin : WindowSize x.fileDecryptionParams.chunkSize win) (hlen : s.file.length < 2 ^ 63)
    (hopen : FileReadWriteHandle.create C versionedBridge info x win s = (.ok f, s))
    {calls : List HandleCall} {y : Session}
    (hrun : Run (guarded (HandleCall.Sound C) (HandleCall.step C)) ⟨f, s⟩ calls y)
    {w : WriteArgs} (hcan : y.CanWrite w) :
    y.AllOrNothing C w ↔ y.Atomic w := by
  have hinit := Session.tracked_opened hstored hwin hlen hopen
  have hfinal := Run.preserves (Session.Tracked C)
    (fun _ _ _ hx hs => Session.tracked_step hx hs.1 hs.2) hrun hinit
  exact Session.allOrNothing_iff hfinal hcan

/-- Three chunks of 256 KiB are stored, and a handle for them is opened. -/
theorem wideFile_opened :
    StoredFile samplePrimitives wideParams.fileDecryptionParams (List.replicate 786432 0)
        wideFile ∧
      WindowSize wideParams.fileDecryptionParams.chunkSize 100 ∧
      wideFile.file.length < 2 ^ 63 ∧
      FileReadWriteHandle.create samplePrimitives versionedBridge sampleInfo wideParams 100
        wideFile = (.ok (openedHandle sampleInfo wideParams 100 samplePrimitives
          wideFile.checksum), wideFile) ∧
      FileHandler.Describes samplePrimitives (openedHandle sampleInfo wideParams 100
        samplePrimitives wideFile.checksum).file (List.replicate 786432 0) 3 wideFile.file
          wideFile.checksum := by
  have hstored : StoredFile samplePrimitives wideParams.fileDecryptionParams
      (List.replicate 786432 0) wideFile :=
    storedFile_encoded samplePrimitives (by decide) _ _ _
  have hchunks : chunksFor wideParams.fileDecryptionParams.chunkSize
      (List.replicate 786432 (0 : UInt8)).length = 3 := by
    rw [List.length_replicate]
    decide
  have hlen : wideFile.file.length < 2 ^ 63 := by
    refine lt_of_le_of_lt hstored.encoded.length_file_le ?_
    rw [hchunks]
    decide
  have hwin : WindowSize wideParams.fileDecryptionParams.chunkSize 100 := ⟨by decide, by decide⟩
  obtain ⟨hopen, hd⟩ := FileReadWriteHandle.create_ok honestReads_versionedBridge hstored
    hwin hlen sampleInfo
  rw [hchunks] at hd
  exact ⟨hstored, hwin, hlen, hopen, hd⟩

/-- Overwriting two chunks of the wide file. -/
def twoChunksArgs : WriteArgs where
  ivs _ := sampleIv
  encryptMeta := sampleEncryptMeta
  data := List.replicate 524288 1
  truncate := false

/-- After a seek to the second chunk, two chunks are overwritten.  They do not fit into one
change, and the write is all or nothing. -/
theorem FileHandlerImpl.write_all_or_nothing_sample :
    ∃ y, Run (guarded (HandleCall.Sound samplePrimitives) (HandleCall.step samplePrimitives))
        ⟨openedHandle sampleInfo wideParams 100 samplePrimitives wideFile.checksum, wideFile⟩
        [.seekp 262144] y ∧
      ¬ (twoChunksArgs.call y.handle.writePos).OneChange y.handle.file.plainChunkSize
        y.handle.file.plainfileSize ∧
      y.AllOrNothing samplePrimitives twoChunksArgs := by
  obtain ⟨hstored, hwin, hlen, hopen, hd⟩ := wideFile_opened
  have hsize : (openedHandle sampleInfo wideParams 100 samplePrimitives
      wideFile.checksum).file.plainfileSize = 786432 := by
    rw [hd.plainfileSize_eq, List.length_replicate]
  obtain ⟨f, hseek, hpos, hfile⟩ : ∃ f, (openedHandle sampleInfo wideParams 100 samplePrimitives
      wideFile.checksum).seekp 262144 = .ok f ∧ f.writePos = 262144 ∧
        f.file = (openedHandle sampleInfo wideParams 100 samplePrimitives
          wideFile.checksum).file := by
    rw [FileHandlerImpl.seekp, FileHandler.getFileSize, hsize]
    exact ⟨_, rfl, rfl, rfl⟩
  have hrun : Run (guarded (HandleCall.Sound samplePrimitives) (HandleCall.step samplePrimitives))
      ⟨openedHandle sampleInfo wideParams 100 samplePrimitives wideFile.checksum, wideFile⟩
      [.seekp 262144] ⟨f, wideFile⟩ := by
    refine .cons ⟨trivial, ?_⟩ (.nil _)
    rw [HandleCall.step, hseek]
    rfl
  have hdata : (twoChunksArgs.call 262144).data.length = 524288 := List.length_replicate
  have hlast : (twoChunksArgs.call 262144).lastChunk 262144 = 2 := by
    rw [WriteCall.lastChunk, hdata]
    decide
  have hcan : Session.CanWrite ⟨f, wideFile⟩ twoChunksArgs := by
    refine ⟨?_, fun _ _ _ => ⟨_, rfl⟩⟩
    rw [hfile, hpos]
    show ChunkDataProvider.Addressable _ ((twoChunksArgs.call 262144).lastChunk 262144)
    rw [hlast]
    exact ⟨by decide, by decide, by decide⟩
  have hatomic : Session.Atomic ⟨f, wideFile⟩ twoChunksArgs := by
    refine Or.inr ⟨?_, Or.inr (Or.inr ?_)⟩
    · rw [hfile, hpos, hsize]
      show (twoChunksArgs.call 262144).TwoChanges 262144 786432
      refine Or.inl ?_
      rw [WriteCall.count, hlast]
      decide
    · rw [hfile, hpos, hd.reader.size_eq]
      show 3 ≤ (twoChunksArgs.call 262144).lastChunk 262144 + 1
      rw [hlast]
  refine ⟨_, hrun, ?_,
    (FileHandlerImpl.write_all_or_nothing_iff hstored hwin hlen hopen hrun hcan).mpr hatomic⟩
  rw [hpos, hfile, hsize]
  show ¬ (twoChunksArgs.call 262144).OneChange 262144 786432
  rw [WriteCall.OneChange, WriteCall.sentLength, WriteCall.count, WriteCall.newSize, hlast, hdata]
  decide

/-- Overwriting all three chunks of the wide file. -/
def wideArgs : WriteArgs where
  ivs _ := sampleIv
  encryptMeta := sampleEncryptMeta
  data := List.replicate 786432 1
  truncate := false

/-- Overwriting three chunks of 256 KiB commits two of them and throws. -/
theorem FileHandlerImpl.write_commits_prefix :
    StoredFile samplePrimitives wideParams.fileDecryptionParams (List.replicate 786432 0)
        wideFile ∧
      FileReadWriteHandle.create samplePrimitives versionedBridge sampleInfo wideParams 100
        wideFile = (.ok (openedHandle sampleInfo wideParams 100 samplePrimitives
          wideFile.checksum), wideFile) ∧
      (∃ f s, (openedHandle sampleInfo wideParams 100 samplePrimitives wideFile.checksum).write
          samplePrimitives versionedBridge wideArgs.ivs wideArgs.encryptMeta wideArgs.data
          wideArgs.truncate wideFile = (.error .storeFileVersionMismatch, f, s) ∧
        s.version = 2) ∧
      ¬ Session.AllOrNothing samplePrimitives
        ⟨openedHandle sampleInfo wideParams 100 samplePrimitives wideFile.checksum, wideFile⟩
        wideArgs := by
  obtain ⟨hstored, hwin, hlen, hopen, hd⟩ := wideFile_opened
  obtain ⟨P, n, file, checksum, hx⟩ := Session.tracked_opened hstored hwin hlen hopen
  have hdata : (wideArgs.call 0).data.length = 786432 := List.length_replicate
  have hlast : (wideArgs.call 0).lastChunk 262144 = 2 := by
    rw [WriteCall.lastChunk, hdata]
    decide
  have hsize : (openedHandle sampleInfo wideParams 100 samplePrimitives
      wideFile.checksum).file.plainfileSize = 786432 := by
    rw [hd.plainfileSize_eq, List.length_replicate]
  have hcan : Session.CanWrite ⟨openedHandle sampleInfo wideParams 100 samplePrimitives
      wideFile.checksum, wideFile⟩ wideArgs := by
    refine ⟨?_, fun _ _ _ => ⟨_, rfl⟩⟩
    show ChunkDataProvider.Addressable _ ((wideArgs.call 0).lastChunk 262144)
    rw [hlast]
    exact ⟨by decide, by decide, by decide⟩
  have hmany : ¬ (wideArgs.call 0).TwoChanges 262144 (openedHandle sampleInfo wideParams 100
      samplePrimitives wideFile.checksum).file.plainfileSize := by
    rw [hsize, WriteCall.TwoChanges, WriteCall.sentLength, WriteCall.count, WriteCall.newSize,
      hlast, hdata]
    decide
  refine ⟨hstored, hopen, Session.write_three_changes hx hcan rfl hmany, ?_⟩
  rw [Session.allOrNothing_iff ⟨P, n, file, checksum, hx⟩ hcan]
  rintro (hne | ⟨htwo, -⟩)
  · exact hne rfl
  · exact hmany htwo

end PrivmxEndpoint
