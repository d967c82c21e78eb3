import PrivmxEndpoint.FaultyCalls

/-!
# A failed write leaves the handle as it was

Sessions of this module have faults below every call.  A failed write leaves a
session that differs from the one before it in the caches of the handle
(`Session.TwinAt`), and two such sessions answer every later read alike.  The
exceptions are the encryption of the meta, which throws after the tag list has
been changed, a request that throws something other than an exception of the
library, and a request that arrives before the write fails.
-/

namespace PrivmxEndpoint

open Word Splice Blocks Runs

/-- A call and what fails below it. -/
structure FaultyCall where
  call : HandleCall
  faults : Faults

/-- One step of a session with faults. -/
def FaultyCall.step (C : Primitives) (x : Session) (a : FaultyCall) (y : Session) : Prop :=
  match a.call with
  | .read length =>
      ∃ result, x.handle.read C (faultyBridge a.faults) length x.server =
        (result, y.handle, y.server)
  | .write w =>
      ∃ result, x.handle.writeUnder C a.faults w.ivs w.encryptMeta w.data w.truncate x.server =
        (result, y.handle, y.server)
  | .sync fileMeta newParms fileEncKey =>
      ∃ result, x.handle.sync C (faultyBridge a.faults) fileMeta newParms fileEncKey x.server =
        (result, y.handle, y.server)
  | call => call.step C x y

/-- A write whose failure can be taken back: its meta can be encrypted, its
requests fail only by getting lost with an exception of the library, and either
none of them arrives or they are refused or there is only one. -/
structure Session.Recoverable (x : Session) (w : WriteArgs) (F : Faults) : Prop where
  canWrite : x.CanWrite w
  lost : ∀ req fault, F.write req = some fault →
    ∃ e, fault = .lost e ∧ e.isPrivmxException = true
  request : (∀ req, F.write req ≠ none) ∨ x.server.version ≠ x.handle.file.version ∨
    (w.call x.handle.writePos).TwoChanges x.handle.file.plainChunkSize x.handle.file.plainfileSize

/-- Calls that keep a session with faults in line with the server. -/
def FaultyCall.Sound (C : Primitives) (x : Session) (a : FaultyCall) : Prop :=
  match a.call with
  | .write w => x.Recoverable w a.faults ∧ ((∀ req, a.faults.write req ≠ none) ∨ x.Atomic w)
  | call => call.Sound C x

/-- The fields of two handles that a failed write must not change. -/
structure FileHandlerImpl.SameFields (C : Primitives) (f g : FileHandlerImpl) : Prop where
  hashes_eq : g.file.chunkReader.hashList.getAll = f.file.chunkReader.hashList.getAll
  size_eq : g.file.chunkReader.hashList.size = f.file.chunkReader.hashList.size
  topHash_eq : (g.file.chunkReader.hashList.getTopHash C).1 =
    (f.file.chunkReader.hashList.getTopHash C).1
  plainfileSize_eq : g.file.plainfileSize = f.file.plainfileSize
  encryptedFileSize_eq : g.file.encryptedFileSize = f.file.encryptedFileSize
  version_eq : g.file.version = f.file.version
  fileMeta_eq : g.file.fileMeta = f.file.fileMeta
  readPos_eq : g.readPos = f.readPos
  writePos_eq : g.writePos = f.writePos

/-- A later call: a sound call of the handle, without a change of the file
made elsewhere. -/
def HandleCall.Later (C : Primitives) (x : Session) (a : HandleCall) : Prop :=
  a.Sound C x ∧ ∀ s, a ≠ .foreign s

/-- If the write throws, the fields are as before, and every read after any
later calls returns what it returns after the same calls without the write. -/
def Session.LeavesIntact (C : Primitives) (x : Session) (w : WriteArgs) (F : Faults) : Prop :=
  ∀ e f s, x.handle.writeUnder C F w.ivs w.encryptMeta w.data w.truncate x.server =
      (.error e, f, s) →
    x.handle.SameFields C f ∧
      ∀ calls z, Run (guarded (HandleCall.Later C) (HandleCall.step C)) x calls z →
        ∃ z', Run (HandleCall.step C) ⟨f, s⟩ calls z' ∧
          ∀ length, HandleCall.Sound C z (.read length) →
            (z'.handle.read C versionedBridge length z'.server).1 =
              (z.handle.read C versionedBridge length z.server).1

/-! ## Sessions that differ in the caches -/

/-- The session with other contents of the caches of its handle. -/
def Session.twin (x : Session) (q : ChunkDataProvider) (t : Option Bytes)
    (d : Option DecryptedChunk) : Session :=
  ⟨{ x.handle with file := x.handle.file.withCaches q t d }, x.server⟩

/-- Both sessions are in line with the same version of the file.  If that is
not the current one, they hold the same windows and the same decrypted
chunk. -/
structure Session.TwinAt (C : Primitives) (x : Session) (P : Bytes) (n : Nat)
    (file checksum : Bytes) (q : ChunkDataProvider) (t : Option Bytes)
    (d : Option DecryptedChunk) : Prop where
  tracks : x.Tracks C P n file checksum
  describes : (x.handle.file.withCaches q t d).Describes C P n file checksum
  keeps : x.handle.file.chunkReader.chunkDataProvider.Keeps x.handle.file.version file
    (x.server.version = x.handle.file.version) q
  lastChunk_eq : x.server.version ≠ x.handle.file.version →
    d = x.handle.file.chunkReader.lastChunk

/-- Two sessions that differ in the caches. -/
def Session.Twin (C : Primitives) (x y : Session) : Prop :=
  ∃ P n file checksum q t d, x.TwinAt C P n file checksum q t d ∧ y = x.twin q t d

section Handles

variable {C : Primitives} {h h' : FileHandler} {P file checksum : Bytes} {n : Nat}

/-- Handles that describe the same file differ in the caches, up to what the
file does not determine. -/
theorem FileHandler.Describes.eq_withCaches (hd : h.Describes C P n file checksum)
    (hd' : h'.Describes C P n file checksum) (hversion : h'.version = h.version)
    (hinfo : h'.fileInfo = h.fileInfo) (hmeta : h'.fileMeta = h.fileMeta)
    (hkey : h'.fileEncKey = h.fileEncKey)
    (henc : h'.chunkReader.chunkEncryptor = h.chunkReader.chunkEncryptor) :
    h' = h.withCaches h'.chunkReader.chunkDataProvider h'.chunkReader.hashList.topHash
      h'.chunkReader.lastChunk := by
  have hsize := hd'.reader.size_eq.trans hd.reader.size_eq.symm
  have hhashes := hd'.reader.hashes_eq.trans hd.reader.hashes_eq.symm
  have htopKey := hd'.reader.topHashKey_eq.trans
    ((congrArg ChunkEncryptor.key henc).trans hd.reader.topHashKey_eq.symm)
  have hreader := (hd'.version_eq.trans hversion).trans hd.version_eq.symm
  have hplain := hd'.plainfileSize_eq.trans hd.plainfileSize_eq.symm
  have hencrypted := hd'.encryptedFileSize_eq.trans hd.encryptedFileSize_eq.symm
  have hcs := hd'.plainChunkSize_eq.trans
    ((congrArg ChunkEncryptor.chunkSize henc).trans hd.plainChunkSize_eq.symm)
  have hecs : h'.encryptedChunkSize = h.encryptedChunkSize := by
    rw [hd'.encryptedChunkSize_eq, hd.encryptedChunkSize_eq, henc]
  rcases h with ⟨⟨p, e, ⟨tk, th, sz, hs⟩, v, lc⟩, ps, es, ver, info, fm, key, pcs, ecs⟩
  rcases h' with ⟨⟨p', e', ⟨tk', th', sz', hs'⟩, v', lc'⟩, ps', es', ver', info', fm', key',
    pcs', ecs'⟩
  dsimp only at *
  subst hversion hinfo hmeta hkey henc hsize hhashes htopKey hreader hplain hencrypted hcs hecs
  rfl

/-- Another window and another kept top hash. -/
theorem FileHandler.Describes.withCaches (hd : h.Describes C P n file checksum)
    {q : ChunkDataProvider} {t : Option Bytes}
    (hshape : h.chunkReader.chunkDataProvider.SameShape q) (hcache : q.CacheMatches h.version file)
    (ht : HmacList.Sound C { h.chunkReader.hashList with topHash := t }) :
    (h.withCaches q t h.chunkReader.lastChunk).Describes C P n file checksum :=
  (hd.withProvider hshape hcache).withHashList ht hd.reader.hashes_eq rfl

/-- Two handlers of one file have one top hash. -/
theorem FileHandler.Describes.topHash_eq (hd : h.Describes C P n file checksum)
    (hd' : h'.Describes C P n file checksum)
    (henc : h'.chunkReader.chunkEncryptor = h.chunkReader.chunkEncryptor) :
    (h'.chunkReader.hashList.getTopHash C).1 = (h.chunkReader.hashList.getTopHash C).1 := by
  rw [HmacList.getTopHash_fst hd'.reader.hashList, HmacList.getTopHash_fst hd.reader.hashList,
    hd'.reader.hashes_eq, hd.reader.hashes_eq, hd'.reader.topHashKey_eq, hd.reader.topHashKey_eq,
    henc]

end Handles

/-! ## Reading behind a newer version -/

/-- The reader with another window cache and another kept top hash. -/
def ChunkReader.twin (r : ChunkReader) (q : ChunkDataProvider) (t : Option Bytes) : ChunkReader :=
  { r with chunkDataProvider := q, hashList := { r.hashList with topHash := t } }

section StaleReads

variable {C : Primitives} {r : ChunkReader} {P file checksum : Bytes} {n : Nat} {s : ServerFile}
  {q : ChunkDataProvider} {t : Option Bytes}

/-- One chunk, read with two caches that hold the same windows. -/
theorem ChunkReader.getDecryptedChunk_twin (hd : r.Describes C P n file checksum)
    (hv : s.version ≠ r.version)
    (hq : r.chunkDataProvider.Keeps r.version file (s.version = r.version) q) {i : Nat}
    (hi : r.chunkDataProvider.Addressable i) (hin : i * r.chunkEncryptor.chunkSize < P.length) :
    ∃ result r' q', r.getDecryptedChunk C versionedBridge i s = (result, r', s) ∧
      (r.twin q t).getDecryptedChunk C versionedBridge i s = (result, r'.twin q' t, s) ∧
      r.SameFile r' ∧ r'.Describes C P n file checksum ∧
      r'.chunkDataProvider.Keeps r'.version file (s.version = r'.version) q' := by
  have hfetch : ∃ result r' q', r.fetchChunk C versionedBridge i s = (result, r', s) ∧
      (r.twin q t).fetchChunk C versionedBridge i s = (result, r'.twin q' t, s) ∧
      r.SameFile r' ∧ r'.Describes C P n file checksum ∧
      r'.chunkDataProvider.Keeps r'.version file (s.version = r'.version) q' := by
    have hget := ChunkDataProvider.getChunk_eq honestReads_versionedBridge hd.shaped hi hd.cache
      (fun h0 => absurd h0 hv)
    have hget' := ChunkDataProvider.getChunk_eq honestReads_versionedBridge
      (hq.shape.shaped hd.shaped) (hq.shape.addressable hi) hq.cache (fun h0 => absurd h0 hv)
    have hdec := hd.decrypt_chunk (hd.encoded.index_lt hin)
    have hdec' : (r.twin q t).decryptWithHash C i _ = _ := hdec
    rw [hd.encryptedChunkSize_eq] at hget
    rw [hq.shape.1, hd.encryptedChunkSize_eq] at hget'
    simp only [hq.holds hv] at hget'
    by_cases hok : r.chunkDataProvider.Holds r.version i ∨ s.version = r.version
    · rw [if_pos hok] at hget hget'
      have hkept := hd.withProvider (p := r.chunkDataProvider.loaded r.version i file) ⟨rfl, rfl⟩
        (ChunkDataProvider.cacheMatches_loaded _ _ _ _)
      refine ⟨.ok (block r.chunkEncryptor.chunkSize P i),
        { r with
          chunkDataProvider := r.chunkDataProvider.loaded r.version i file
          lastChunk := some
            { decryptedData := block r.chunkEncryptor.chunkSize P i, index := i } },
        q.loaded r.version i file, ?_, ?_, ⟨rfl, rfl, rfl, rfl, rfl⟩,
        { hkept with lastChunk := ?_ }, hq.loaded i⟩
      · simp only [ChunkReader.fetchChunk, hget, hdec]
      · have hversion : (r.twin q t).version = r.version := rfl
        have hprovider : (r.twin q t).chunkDataProvider = q := rfl
        simp only [ChunkReader.fetchChunk, hversion, hprovider, hget', hdec']
        rfl
      · intro c hc _
        cases hc
        rfl
    · rw [if_neg hok] at hget hget'
      have hshape := r.chunkDataProvider.sameShape_forVersion r.version
      refine ⟨.error .fileVersionMismatch,
        { r with chunkDataProvider := r.chunkDataProvider.forVersion r.version },
        q.forVersion r.version, ?_, ?_, ⟨rfl, rfl, rfl, hshape⟩,
        hd.withProvider hshape hd.cache.forVersion, hq.forVersion⟩
      · simp only [ChunkReader.fetchChunk, hget]
      · have hversion : (r.twin q t).version = r.version := rfl
        have hprovider : (r.twin q t).chunkDataProvider = q := rfl
        simp only [ChunkReader.fetchChunk, hversion, hprovider, hget']
        rfl
  have hlastChunk : (r.twin q t).lastChunk = r.lastChunk := rfl
  unfold ChunkReader.getDecryptedChunk
  rw [hlastChunk]
  cases r.lastChunk with
  | none => exact hfetch
  | some c =>
      simp only
      split
      · exact ⟨_, r, q, rfl, rfl, .refl r, hd, hq⟩
      · exact hfetch

/-- The loop over the chunks of a read. -/
theorem ChunkReader.getDecryptedChunks_twin (hd : r.Describes C P n file checksum)
    (hv : s.version ≠ r.version)
    (hq : r.chunkDataProvider.Keeps r.version file (s.version = r.version) q) {k i : Nat}
    (hi : ∀ j, i ≤ j → j < i + k → r.chunkDataProvider.Addressable j ∧
      j * r.chunkEncryptor.chunkSize < P.length) :
    ∃ result r' q', ChunkReader.getDecryptedChunks C versionedBridge k i r s = (result, r', s) ∧
      ChunkReader.getDecryptedChunks C versionedBridge k i (r.twin q t) s =
        (result, r'.twin q' t, s) ∧
      r.SameFile r' ∧ r'.Describes C P n file checksum ∧
      r'.chunkDataProvider.Keeps r'.version file (s.version = r'.version) q' := by
  induction k generalizing i r q with
  | zero => exact ⟨_, r, q, rfl, rfl, .refl r, hd, hq⟩
  | succ k ih =>
      obtain ⟨haddr, hin⟩ := hi i le_rfl (by omega)
      obtain ⟨result, r₁, q₁, hcall, hcall', hsame, hd₁, hq₁⟩ :=
        ChunkReader.getDecryptedChunk_twin (t := t) hd hv hq haddr hin
      cases result with
      | error e =>
          refine ⟨.error e, r₁, q₁, ?_, ?_, hsame, hd₁, hq₁⟩
          · simp only [ChunkReader.getDecryptedChunks, hcall]
          · simp only [ChunkReader.getDecryptedChunks, hcall']
      | ok chunk =>
          obtain ⟨rest, r₂, q₂, hrest, hrest', hsame₂, hd₂, hq₂⟩ := ih (i := i + 1) hd₁
            (by rw [hsame.version_eq]; exact hv) hq₁
            (fun j h1 h2 => by
              obtain ⟨ha, hb⟩ := hi j (by omega) (by omega)
              rw [hsame.chunkEncryptor_eq]
              exact ⟨hsame.shape.addressable ha, hb⟩)
          cases rest with
          | error e =>
              refine ⟨.error e, r₂, q₂, ?_, ?_, hsame.trans hsame₂, hd₂, hq₂⟩
              · simp only [ChunkReader.getDecryptedChunks, hcall, hrest]
              · simp only [ChunkReader.getDecryptedChunks, hcall', hrest']
          | ok data =>
              refine ⟨.ok (chunk ++ data), r₂, q₂, ?_, ?_, hsame.trans hsame₂, hd₂, hq₂⟩
              · simp only [ChunkReader.getDecryptedChunks, hcall, hrest]
              · simp only [ChunkReader.getDecryptedChunks, hcall', hrest']

/-- **A read behind a newer version** depends on the windows that are held, not
on how the cache came to hold them. -/
theorem ChunkReader.read_twin (hd : r.Describes C P n file checksum) (hv : s.version ≠ r.version)
    (hq : r.chunkDataProvider.Keeps r.version file (s.version = r.version) q) {pos length : Nat}
    (hsum : pos + length < 2 ^ 64)
    (haddr : pos < P.length → 0 < length →
      r.chunkDataProvider.Addressable
        (lastReadChunk r.chunkEncryptor.chunkSize P.length pos length)) :
    ∃ result r' q', r.read C versionedBridge P.length pos length s = (result, r', s) ∧
      (r.twin q t).read C versionedBridge P.length pos length s = (result, r'.twin q' t, s) ∧
      r.SameFile r' ∧ r'.Describes C P n file checksum ∧
      r'.chunkDataProvider.Keeps r'.version file (s.version = r'.version) q' := by
  by_cases hin : pos < P.length ∧ 0 < length
  · obtain ⟨hpos, hlen⟩ := hin
    obtain ⟨result, r', q', hcall, hcall', hsame, hd', hq'⟩ :=
      ChunkReader.getDecryptedChunks_twin (t := t) hd hv hq
        (fun j _ hj => hd.chunks_of_read hpos hlen (haddr hpos hlen) hj)
    have hread' := ChunkReader.read_eq (r := r.twin q t) hsum hpos hlen hcall'
    exact ⟨_, r', q', ChunkReader.read_eq hsum hpos hlen hcall, hread', hsame, hd', hq'⟩
  · exact ⟨_, r, q, ChunkReader.read_nil hsum hin, ChunkReader.read_nil hsum hin, .refl r, hd, hq⟩

/-- A read does not see which caches a handler has. -/
theorem FileHandler.read_twin {h : FileHandler} (hd : h.Describes C P n file checksum)
    (hd' : (h.withCaches q t h.chunkReader.lastChunk).Describes C P n file checksum)
    (hv : s.version ≠ h.version)
    (hq : h.chunkReader.chunkDataProvider.Keeps h.version file (s.version = h.version) q)
    {pos length : Nat} (hsum : pos + length < 2 ^ 64)
    (haddr : pos < h.plainfileSize → 0 < length →
      h.chunkReader.chunkDataProvider.Addressable
        (lastReadChunk h.chunkReader.chunkEncryptor.chunkSize h.plainfileSize pos length)) :
    ∃ result r' q', h.read C versionedBridge pos length s =
        (result, { h with chunkReader := r' }, s) ∧
      (h.withCaches q t h.chunkReader.lastChunk).read C versionedBridge pos length s =
        (result, ({ h with chunkReader := r' } : FileHandler).withCaches q' t r'.lastChunk, s) ∧
      ({ h with chunkReader := r' } : FileHandler).Describes C P n file checksum ∧
      (({ h with chunkReader := r' } : FileHandler).withCaches q' t r'.lastChunk).Describes
        C P n file checksum ∧
      r'.chunkDataProvider.Keeps h.version file (s.version = h.version) q' := by
  have hsize := hd.plainfileSize_eq
  have hversion := hd.version_eq
  rw [hsize] at haddr
  rw [← hversion] at hv hq
  obtain ⟨result, r', q', hcall, hcall', hsame, hr', hq'⟩ := ChunkReader.read_twin (t := t)
    hd.reader hv hq hsum haddr
  have htop : HmacList.Sound C { r'.hashList with topHash := t } := by
    rw [hsame.hashList_eq]
    exact hd'.reader.hashList
  have htwin : (h.withCaches q t h.chunkReader.lastChunk).chunkReader = h.chunkReader.twin q t :=
    rfl
  have hsize' : (h.withCaches q t h.chunkReader.lastChunk).plainfileSize = P.length := hsize
  rw [hsame.version_eq, hversion] at hq'
  have hd₁ := hd.withReader hsame hr'
  refine ⟨result, r', q', ?_, ?_, hd₁, hd₁.withCaches hq'.shape hq'.cache htop, hq'⟩
  · simp only [FileHandler.read, hsize, hcall]
  · simp only [FileHandler.read, htwin, hsize', hcall']
    rw [← hsize]
    rfl

end StaleReads

/-! ## Later calls -/

section Later

variable {C : Primitives} {x x' y : Session} {P file checksum : Bytes} {n : Nat}
  {q : ChunkDataProvider} {t : Option Bytes} {d : Option DecryptedChunk} {h : FileHandler}
  {s : ServerFile}

/-- What the server holds after it has accepted a write. -/
def WriteCall.committed (c : WriteCall) (C : Primitives) (h : FileHandler) (P : Bytes)
    (s : ServerFile) (m : EncryptedMeta) : ServerFile where
  file := c.file C h.chunkReader.chunkEncryptor P s.file
  checksum := c.checksum C h.chunkReader.chunkEncryptor P s.checksum
  version := h.version + 1
  encryptedMeta := m
  keyId := h.fileEncKey.id

/-- A write that the server accepts in one request, and what it leaves. -/
theorem FileHandler.write_committed (hd : h.Describes C P n s.file s.checksum) (c : WriteCall)
    (haddr : h.chunkReader.chunkDataProvider.Addressable
      (c.lastChunk h.chunkReader.chunkEncryptor.chunkSize)) {m : EncryptedMeta}
    (hm : c.encryptMeta h.fileInfo (c.newFileMeta C h P s.checksum) h.fileEncKey = .ok m)
    (hv : s.version = h.version)
    (htwo : c.TwoChanges h.chunkReader.chunkEncryptor.chunkSize P.length)
    (hkeep : c.KeepsTail h) :
    ∃ h', h.write C versionedBridge c.ivs c.encryptMeta c.offset c.data c.truncate s =
        (.ok (), h', c.committed C h P s m) ∧
      h.Rewritten h' (c.newFileMeta C h P s.checksum) ∧
      h'.Describes C (c.plain P) (c.chunks h.chunkReader.chunkEncryptor.chunkSize P.length n)
        (c.file C h.chunkReader.chunkEncryptor P s.file)
        (c.checksum C h.chunkReader.chunkEncryptor P s.checksum) ∧
      h.chunkReader.chunkDataProvider.SameShape h'.chunkReader.chunkDataProvider := by
  obtain ⟨p, hshape, hcache, hholds, hprep⟩ :=
    FileHandler.prepareWrite_ok honestReads_versionedBridge c hd hv haddr
  rw [hm] at hprep
  have hfinish := FileHandler.finishWrite_describes c hd hshape hcache hholds haddr
    (c.sound_hashList hd) rfl hd.reader.topHashKey_eq (w := c.prepared C h P s.file s.checksum m)
    rfl rfl rfl
  have hnext := FileHandler.rewritten_finishWrite
    ((h.withProvider p).withHashList (c.hashList C h P s.checksum n))
    (c.prepared C h P s.file s.checksum m) c.truncate
  have hsend := (FileHandler.sendAll_writeRequests (h := h) (s := s)
    (c.changes_ne_nil hd haddr) m h.fileEncKey.id c.truncate).2.1 hv
    ((c.length_changes_le_two hd haddr).mpr htwo)
  rw [c.applied_eq hd haddr, (c.file_applied_iff hd).mpr hkeep,
    c.checksum_applied hd hkeep] at hsend
  exact ⟨_, FileHandler.write_of_sent hprep hsend, ⟨hnext.version_eq, hnext.fileMeta_eq,
    hnext.fileInfo_eq, hnext.fileEncKey_eq, hnext.chunkEncryptor_eq⟩, hfinish.1, hfinish.2⟩

/-- The handle after a read of its file. -/
def FileHandlerImpl.afterRead (f : FileHandlerImpl) (h : FileHandler) :
    Except StoreError Bytes → FileHandlerImpl
  | .ok buf => { f with file := h, readPos := u64 (f.readPos + buf.length) }
  | .error _ => { f with file := h }

/-- A read through the handle is one of the file. -/
theorem FileHandlerImpl.read_of_call {B : Bridge ServerFile} {f : FileHandlerImpl} {length : Nat}
    {result : Except StoreError Bytes} {s' : ServerFile}
    (hcall : f.file.read C B f.readPos length s = (result, h, s')) :
    f.read C B length s = (result, f.afterRead h result, s') := by
  cases result with
  | error e => simp only [FileHandlerImpl.read, hcall, FileHandlerImpl.afterRead]
  | ok buf => simp only [FileHandlerImpl.read, hcall, FileHandlerImpl.afterRead]

/-- Only the read position is the handle's own. -/
theorem FileHandlerImpl.afterRead_file (f : FileHandlerImpl) (h : FileHandler)
    (result : Except StoreError Bytes) : (f.afterRead h result).file = h := by
  cases result <;> rfl

/-- Reading moves the position and not the caches. -/
theorem Session.afterRead_twin (x : Session) (q : ChunkDataProvider) (t : Option Bytes)
    (d : Option DecryptedChunk) (h h' : FileHandler) (result : Except StoreError Bytes) :
    (x.twin q t d).handle.afterRead h' result =
      { x.handle.afterRead h result with file := h' } := by
  cases result <;> rfl

/-- **A later read** returns the same on both sides. -/
theorem Session.TwinAt.read (hx : x.TwinAt C P n file checksum q t d) {length : Nat}
    (hok : HandleCall.Sound C x (.read length)) :
    ∃ result h q' t' d', x.handle.read C versionedBridge length x.server =
        (result, x.handle.afterRead h result, x.server) ∧
      (x.twin q t d).handle.read C versionedBridge length x.server =
        (result, (Session.twin ⟨x.handle.afterRead h result, x.server⟩ q' t' d').handle,
          x.server) ∧
      Session.TwinAt C ⟨x.handle.afterRead h result, x.server⟩ P n file checksum q' t' d' := by
  have hd := hx.tracks.describes
  have hshape := hx.keeps.shape
  by_cases hv : x.server.version = x.handle.file.version
  · -- Both sides read the plain text.
    obtain ⟨rfl, rfl⟩ := hx.tracks.current hv
    obtain ⟨r, hsame, hcall, hd₁⟩ :=
      FileHandler.read_ok honestReads_versionedBridge hd hv hok.1 hok.2
    obtain ⟨r', hsame', hcall', hd₂⟩ :=
      FileHandler.read_ok honestReads_versionedBridge hx.describes hv hok.1
        (fun h1 h2 => hshape.addressable (hok.2 h1 h2))
    have henc : r'.chunkEncryptor = r.chunkEncryptor :=
      hsame'.chunkEncryptor_eq.trans hsame.chunkEncryptor_eq.symm
    have hfile := hd₁.eq_withCaches hd₂ rfl rfl rfl rfl henc
    refine ⟨_, _, r'.chunkDataProvider, r'.hashList.topHash, r'.lastChunk,
      FileHandlerImpl.read_of_call hcall, ?_, ⟨hd₁, hx.tracks.version_le, hx.tracks.current⟩,
      hfile ▸ hd₂, ⟨(hsame.shape.symm.trans hshape).trans hsame'.shape, ?_,
        fun hne => absurd hv hne⟩, fun hne => absurd hv hne⟩
    · have hread := FileHandlerImpl.read_of_call (f := (x.twin q t d).handle) hcall'
      rw [Session.afterRead_twin, hfile] at hread
      exact hread
    · have hcache := hd₂.reader.cache
      rwa [hd₂.version_eq] at hcache
  · obtain rfl := hx.lastChunk_eq hv
    obtain ⟨result, r', q', hcall, hcall', hd₁, hd₂, hq'⟩ :=
      FileHandler.read_twin hd hx.describes hv hx.keeps hok.1 hok.2
    refine ⟨result, { x.handle.file with chunkReader := r' }, q', t, r'.lastChunk,
      FileHandlerImpl.read_of_call hcall, ?_, ?_⟩
    · rw [FileHandlerImpl.read_of_call (f := (x.twin q t _).handle) hcall',
        Session.afterRead_twin x q t _ { x.handle.file with chunkReader := r' }]
      simp only [Session.twin, FileHandlerImpl.afterRead_file]
    · have htracks := hx.tracks
      refine ⟨⟨?_, ?_, ?_⟩, ?_, ?_, ?_⟩ <;> simp only [FileHandlerImpl.afterRead_file]
      · exact hd₁
      · exact htracks.version_le
      · exact htracks.current
      · exact hd₂
      · exact hq'
      · exact fun _ => trivial

/-- A failed call leaves a twin. -/
theorem Session.Tracks.twinAt (hx : x.Tracks C P n file checksum) {h' : FileHandler}
    (hh : x.handle.file.Intact C P n file checksum
      (x.server.version = x.handle.file.version) h') :
    ∃ q t, x.TwinAt C P n file checksum q t x.handle.file.chunkReader.lastChunk ∧
      h' = x.handle.file.withCaches q t x.handle.file.chunkReader.lastChunk := by
  obtain ⟨⟨q, t, hq, rfl⟩, hd⟩ := hh
  exact ⟨q, t, ⟨hx, hd, hq, fun _ => rfl⟩, rfl⟩

/-- A write at a version that the server no longer has leaves a twin. -/
theorem Session.Tracks.write_stale (hx : x.Tracks C P n file checksum) {w : WriteArgs}
    (hcan : x.CanWrite w) (hv : x.server.version ≠ x.handle.file.version) :
    ∃ e h', x.handle.write C versionedBridge w.ivs w.encryptMeta w.data w.truncate x.server =
        (.error e, { x.handle with file := h' }, x.server) ∧
      x.handle.file.Intact C P n file checksum (x.server.version = x.handle.file.version) h' := by
  obtain ⟨e, h', hcall, hh⟩ | ⟨hv', -⟩ := FileHandler.write_under (F := .none)
    (w.call x.handle.writePos) hx.describes hcan.addressable (fun h0 => absurd h0 hv)
    hcan.encrypts (fun req fault h0 => absurd h0 (by simp [Faults.none]))
  · rw [faultyBridge_none] at hcall
    have hcall' : x.handle.file.write C versionedBridge w.ivs w.encryptMeta x.handle.writePos
      w.data w.truncate x.server = (.error e, h', x.server) := hcall
    exact ⟨e, h', by simp only [FileHandlerImpl.write, hcall'], hh⟩
  · exact absurd hv' hv

/-- The twin tracks the same file. -/
theorem Session.TwinAt.tracks_twin (hx : x.TwinAt C P n file checksum q t d) :
    (x.twin q t d).Tracks C P n file checksum :=
  ⟨hx.describes, hx.tracks.version_le, hx.tracks.current⟩

/-- A write through the handle is one of the file. -/
theorem FileHandlerImpl.write_of_ok {B : Bridge ServerFile} {f : FileHandlerImpl} {w : WriteArgs}
    {s' : ServerFile}
    (hcall : f.file.write C B (w.call f.writePos).ivs (w.call f.writePos).encryptMeta
      (w.call f.writePos).offset (w.call f.writePos).data (w.call f.writePos).truncate s =
        (.ok (), h, s')) :
    f.write C B w.ivs w.encryptMeta w.data w.truncate s =
      (.ok (), { f with file := h, writePos := u64 (f.writePos + w.data.length) }, s') := by
  have hcall' : f.file.write C B w.ivs w.encryptMeta f.writePos w.data w.truncate s =
    (.ok (), h, s') := hcall
  simp only [FileHandlerImpl.write, hcall']

/-- **A later write.** -/
theorem Session.TwinAt.write (hx : x.TwinAt C P n file checksum q t d) {w : WriteArgs}
    (hcan : x.CanWrite w) (hatomic : x.Atomic w)
    (hstep : HandleCall.step C x (.write w) x') :
    ∃ y', HandleCall.step C (x.twin q t d) (.write w) y' ∧ x'.Twin C y' := by
  obtain ⟨result, hwrite⟩ := hstep
  have hd := hx.tracks.describes
  have hshape := hx.keeps.shape
  by_cases hv : x.server.version = x.handle.file.version
  · -- Both sides send the same request.
    obtain ⟨rfl, rfl⟩ := hx.tracks.current hv
    obtain ⟨htwo, hkeep⟩ := hatomic.resolve_left (fun hne => hne hv)
    rw [hd.plainChunkSize_eq, hd.plainfileSize_eq] at htwo
    obtain ⟨m, hm⟩ := hcan.encrypts x.handle.file.fileInfo ((w.call x.handle.writePos).newFileMeta C
      x.handle.file P x.server.checksum) x.handle.file.fileEncKey
    obtain ⟨h₁, hcall, hnext, hnew, hshape₁⟩ := FileHandler.write_committed hd
      (w.call x.handle.writePos) hcan.addressable hm hv htwo hkeep
    obtain ⟨h₂, hcall', hnext', hnew', hshape₂⟩ := FileHandler.write_committed hx.describes
      (w.call x.handle.writePos) (hshape.addressable hcan.addressable) hm hv htwo hkeep
    have hfile := hnew.eq_withCaches hnew' (hnext'.version_eq.trans hnext.version_eq.symm)
      (hnext'.fileInfo_eq.trans hnext.fileInfo_eq.symm)
      (hnext'.fileMeta_eq.trans hnext.fileMeta_eq.symm)
      (hnext'.fileEncKey_eq.trans hnext.fileEncKey_eq.symm)
      (hnext'.chunkEncryptor_eq.trans hnext.chunkEncryptor_eq.symm)
    have hx' := (Prod.mk.inj ((FileHandlerImpl.write_of_ok hcall).symm.trans hwrite)).2
    obtain ⟨hhandle, hserver⟩ := Prod.mk.inj hx'
    obtain ⟨f, s'⟩ := x'
    obtain rfl := hhandle
    obtain rfl := hserver
    refine ⟨⟨{ x.handle with
        file := h₂
        writePos := u64 (x.handle.writePos + w.data.length) },
      (w.call x.handle.writePos).committed C x.handle.file P x.server m⟩,
      ⟨.ok (), FileHandlerImpl.write_of_ok (f := (x.twin q t d).handle) hcall'⟩,
      (w.call x.handle.writePos).plain P, _, _, _, h₂.chunkReader.chunkDataProvider,
      h₂.chunkReader.hashList.topHash, h₂.chunkReader.lastChunk, ⟨⟨hnew, ?_, fun _ => ⟨rfl, rfl⟩⟩,
        hfile ▸ hnew', ⟨(hshape₁.symm.trans hshape).trans hshape₂, ?_, ?_⟩, ?_⟩, ?_⟩
    · exact hnext.version_eq.le
    · have hcache := hnew'.reader.cache
      rw [hnew'.version_eq, hnext'.version_eq] at hcache
      show h₂.chunkReader.chunkDataProvider.CacheMatches h₁.version _
      rw [hnext.version_eq]
      exact hcache
    · exact fun hne => absurd hnext.version_eq.symm hne
    · exact fun hne => absurd hnext.version_eq.symm hne
    · simp only [Session.twin, ← hfile]
  · obtain rfl := hx.lastChunk_eq hv
    obtain ⟨e, h₁, hcall, hh₁⟩ := hx.tracks.write_stale hcan hv
    obtain ⟨e', h₂, hcall', hh₂⟩ := Session.Tracks.write_stale (w := w) hx.tracks_twin
      ⟨hshape.addressable hcan.addressable, hcan.encrypts⟩ hv
    obtain ⟨⟨q₁, t₁, hq₁, rfl⟩, hd₁⟩ := hh₁
    obtain ⟨⟨q₂, t₂, hq₂, rfl⟩, hd₂⟩ := hh₂
    have hx' := (Prod.mk.inj (hcall.symm.trans hwrite)).2
    obtain ⟨hhandle, hserver⟩ := Prod.mk.inj hx'
    obtain ⟨f, s'⟩ := x'
    obtain rfl := hhandle
    obtain rfl := hserver
    have hcache := hd.reader.cache
    rw [hd.version_eq] at hcache
    refine ⟨_, ⟨.error e', hcall'⟩, P, n, file, checksum, q₂, t₂,
      x.handle.file.chunkReader.lastChunk, ⟨⟨hd₁, hx.tracks.version_le, hx.tracks.current⟩, hd₂,
        ((hq₁.symm hcache).trans hx.keeps).trans hq₂, fun _ => rfl⟩, rfl⟩

/-- **A later `sync`.** -/
theorem Session.TwinAt.sync (hx : x.TwinAt C P n file checksum q t d) {fileMeta : FileMeta}
    {newParms : FileDecryptionParams} {key : DecryptedEncKey}
    (hok : HandleCall.Sound C x (.sync fileMeta newParms key))
    (hstep : HandleCall.step C x (.sync fileMeta newParms key) x') :
    ∃ y', HandleCall.step C (x.twin q t d) (.sync fileMeta newParms key) y' ∧ x'.Twin C y' := by
  obtain ⟨result, hsync⟩ := hstep
  have hd := hx.tracks.describes
  obtain ⟨f, s'⟩ := x'
  rcases hok with hhmac | ⟨henc, hlen, Q, hstored⟩
  · simp only [FileHandlerImpl.sync, FileHandler.sync_refused honestReads_versionedBridge hhmac,
      Prod.mk.injEq] at hsync
    obtain ⟨-, rfl, rfl⟩ := hsync
    refine ⟨x.twin q t d, ⟨.error .invalidFileTopHash, ?_⟩, P, n, file, checksum, q, t, d, hx, rfl⟩
    have hhmac' : newParms.hmac ≠ C.hmacSha256 newParms.key (x.twin q t d).server.checksum := hhmac
    simp only [FileHandlerImpl.sync, FileHandler.sync_refused honestReads_versionedBridge hhmac']
  · simp only [FileHandlerImpl.sync, FileHandler.sync_eq honestReads_versionedBridge
      hstored.hmac_eq hstored.checksum_mod, Prod.mk.injEq] at hsync
    obtain ⟨-, rfl, rfl⟩ := hsync
    have hnew := hd.synced hx.tracks.version_le (fun hv => (hx.tracks.current hv).1) hstored henc
      hlen fileMeta key
    have hnew' := hx.describes.synced hx.tracks.version_le (fun hv => (hx.tracks.current hv).1)
      hstored henc hlen fileMeta key
    have hversion : newParms.version = x.server.version := hstored.version_eq
    have hcache := hnew'.reader.cache
    refine ⟨⟨{ x.handle with
      file := (x.handle.file.withCaches q t d).synced C x.server.checksum fileMeta newParms key },
      x.server⟩, ⟨.ok (), ?_⟩, Q, _, _, _,
      q.sync x.handle.file.version x.handle.file.encryptedFileSize none none,
      (openedHashList C newParms.key x.server.checksum).topHash, none,
      ⟨⟨hnew, hversion.le, fun _ => ⟨rfl, rfl⟩⟩, hnew', ⟨hx.keeps.shape, hcache, ?_⟩, ?_⟩,
      ?_⟩
    · have hhmac' : newParms.hmac =
        C.hmacSha256 newParms.key (x.twin q t d).server.checksum := hstored.hmac_eq
      have hmod' : (x.twin q t d).server.checksum.length % HMAC_SIZE = 0 := hstored.checksum_mod
      simp only [FileHandlerImpl.sync, FileHandler.sync_eq honestReads_versionedBridge hhmac' hmod']
      rfl
    · exact fun hne => absurd hversion.symm hne
    · exact fun hne => absurd hversion.symm hne
    · rfl

/-- A seek for reading does not see the caches. -/
theorem Session.seekg_twin (x : Session) (pos : Nat) (q : ChunkDataProvider) (t : Option Bytes)
    (d : Option DecryptedChunk) :
    ((x.twin q t d).handle.seekg pos).toOption.getD (x.twin q t d).handle =
      (Session.twin { x with handle := (x.handle.seekg pos).toOption.getD x.handle } q t d).handle ∧
      ((x.handle.seekg pos).toOption.getD x.handle).file = x.handle.file := by
  have hsize : (x.twin q t d).handle.file.getFileSize = x.handle.file.getFileSize := rfl
  simp only [FileHandlerImpl.seekg, hsize]
  by_cases hpos : pos > x.handle.file.getFileSize
  · simp only [if_pos hpos]
    exact ⟨rfl, rfl⟩
  · simp only [if_neg hpos]
    exact ⟨rfl, rfl⟩

/-- Nor does one for writing. -/
theorem Session.seekp_twin (x : Session) (pos : Nat) (q : ChunkDataProvider) (t : Option Bytes)
    (d : Option DecryptedChunk) :
    ((x.twin q t d).handle.seekp pos).toOption.getD (x.twin q t d).handle =
      (Session.twin { x with handle := (x.handle.seekp pos).toOption.getD x.handle } q t d).handle ∧
      ((x.handle.seekp pos).toOption.getD x.handle).file = x.handle.file := by
  have hsize : (x.twin q t d).handle.file.getFileSize = x.handle.file.getFileSize := rfl
  simp only [FileHandlerImpl.seekp, hsize]
  by_cases hpos : pos > x.handle.file.getFileSize
  · simp only [if_pos hpos]
    exact ⟨rfl, rfl⟩
  · simp only [if_neg hpos]
    exact ⟨rfl, rfl⟩

/-- A seek moves a position and keeps the twin. -/
theorem Session.TwinAt.moved (hx : x.TwinAt C P n file checksum q t d) {f : FileHandlerImpl}
    (hf : f.file = x.handle.file) : Session.TwinAt C ⟨f, x.server⟩ P n file checksum q t d := by
  obtain ⟨htracks, hd, hkeeps, hlast⟩ := hx
  refine ⟨⟨?_, ?_, ?_⟩, ?_, ?_, ?_⟩ <;> simp only [hf]
  · exact htracks.describes
  · exact htracks.version_le
  · exact htracks.current
  · exact hd
  · exact hkeeps
  · exact hlast

/-- **Step.**  Every later call is answered alike and leaves twins. -/
theorem Session.Twin.step {a : HandleCall} (hxy : x.Twin C y) (hok : a.Later C x)
    (hstep : a.step C x x') : ∃ y', a.step C y y' ∧ x'.Twin C y' := by
  obtain ⟨P, n, file, checksum, q, t, d, hx, rfl⟩ := hxy
  obtain ⟨hsound, hforeign⟩ := hok
  cases a with
  | seekg pos =>
      obtain rfl : x' = _ := hstep
      obtain ⟨hseek, hfile⟩ := x.seekg_twin pos q t d
      refine ⟨_, rfl, P, n, file, checksum, q, t, d, hx.moved hfile, ?_⟩
      rw [hseek]
      rfl
  | seekp pos =>
      obtain rfl : x' = _ := hstep
      obtain ⟨hseek, hfile⟩ := x.seekp_twin pos q t d
      refine ⟨_, rfl, P, n, file, checksum, q, t, d, hx.moved hfile, ?_⟩
      rw [hseek]
      rfl
  | read length =>
      obtain ⟨result, hread⟩ := hstep
      obtain ⟨result', h, q', t', d', hcall, hcall', hnew⟩ := hx.read hsound
      have hx' := (Prod.mk.inj (hcall.symm.trans hread)).2
      obtain ⟨hhandle, hserver⟩ := Prod.mk.inj hx'
      obtain ⟨f, s'⟩ := x'
      obtain rfl := hhandle
      obtain rfl := hserver
      exact ⟨_, ⟨result', hcall'⟩, P, n, file, checksum, q', t', d', hnew, rfl⟩
  | write w => exact hx.write hsound.1 hsound.2 hstep
  | sync fileMeta newParms key => exact hx.sync hsound hstep
  | foreign s => exact absurd rfl (hforeign s)

/-- **Later reads.**  Twins answer every read after the same later calls
alike. -/
theorem Session.Twin.later (hxy : x.Twin C y) {calls : List HandleCall} {z : Session}
    (hrun : Run (guarded (HandleCall.Later C) (HandleCall.step C)) x calls z) :
    ∃ z', Run (HandleCall.step C) y calls z' ∧
      ∀ length, HandleCall.Sound C z (.read length) →
        (z'.handle.read C versionedBridge length z'.server).1 =
          (z.handle.read C versionedBridge length z.server).1 := by
  obtain ⟨z', hrun', P, n, file, checksum, q, t, d, hz, rfl⟩ := hrun.forwards (Session.Twin C)
    (fun _ _ _ _ hxy hs => hxy.step hs.1 hs.2) hxy
  refine ⟨_, hrun', fun length hok => ?_⟩
  obtain ⟨result, h, q', t', d', hcall, hcall', -⟩ := hz.read hok
  have hserver : (z.twin q t d).server = z.server := rfl
  rw [hserver, hcall, hcall']

end Later

/-! ## Failed writes -/

section Failed

variable {C : Primitives} {x y : Session} {P file checksum : Bytes} {n : Nat} {F : Faults}
  {w : WriteArgs}

/-- A recoverable write fails and leaves the handle intact, or it is a write on
the current file that goes as without faults. -/
theorem Session.Tracks.writeUnder (hx : x.Tracks C P n file checksum)
    (hrec : x.Recoverable w F) :
    (∃ e h', x.handle.writeUnder C F w.ivs w.encryptMeta w.data w.truncate x.server =
        (.error e, { x.handle with file := h' }, x.server) ∧
      x.handle.file.Intact C P n file checksum (x.server.version = x.handle.file.version) h') ∨
      x.server.version = x.handle.file.version ∧ (∃ req, F.write req = none) ∧
        (w.call x.handle.writePos).TwoChanges x.handle.file.plainChunkSize
          x.handle.file.plainfileSize ∧
        x.handle.writeUnder C F w.ivs w.encryptMeta w.data w.truncate x.server =
          x.handle.write C versionedBridge w.ivs w.encryptMeta w.data w.truncate x.server := by
  have hd := hx.describes
  obtain ⟨e, h', hcall, hh⟩ | ⟨hv, ⟨req, hreq⟩, hsame⟩ := FileHandler.writeUnder_spec (F := F)
    (w.call x.handle.writePos) hd hrec.canWrite.addressable (fun hv => (hx.current hv).1)
    hrec.canWrite.encrypts hrec.lost
  · have hcall' : x.handle.file.writeUnder C F w.ivs w.encryptMeta x.handle.writePos w.data
      w.truncate x.server = (.error e, h', x.server) := hcall
    exact Or.inl ⟨e, h', by simp only [FileHandlerImpl.writeUnder, hcall'], hh⟩
  · have htwo := (hrec.request.resolve_left (fun hall => hall req hreq)).resolve_left
      (fun hne => hne hv)
    refine Or.inr ⟨hv, ⟨req, hreq⟩, htwo, ?_⟩
    rw [hd.plainChunkSize_eq, hd.plainfileSize_eq] at htwo
    have hsame' : x.handle.file.writeUnder C F w.ivs w.encryptMeta x.handle.writePos w.data
        w.truncate x.server = x.handle.file.write C versionedBridge w.ivs w.encryptMeta
          x.handle.writePos w.data w.truncate x.server :=
      hsame (((w.call x.handle.writePos).length_changes_le_two hd
        hrec.canWrite.addressable).mpr htwo)
    simp only [FileHandlerImpl.writeUnder, FileHandlerImpl.write, hsame']
    obtain ⟨result, h', s'⟩ := x.handle.file.write C versionedBridge w.ivs w.encryptMeta
      x.handle.writePos w.data w.truncate x.server
    cases result <;> rfl

/-- **Step.**  Sound calls keep a session in line with the server, whatever
fails below them. -/
theorem Session.tracked_faulty {a : FaultyCall} (hx : x.Tracked C) (hok : a.Sound C x)
    (hstep : a.step C x y) : y.Tracked C := by
  obtain ⟨call, F⟩ := a
  cases call with
  | seekg pos => exact Session.tracked_step (a := .seekg pos) hx hok hstep
  | seekp pos => exact Session.tracked_step (a := .seekp pos) hx hok hstep
  | foreign s => exact Session.tracked_step (a := .foreign s) hx hok hstep
  | read length =>
      obtain ⟨P, n, file, checksum, hx⟩ := hx
      obtain ⟨result, hread⟩ := hstep
      have hd := hx.describes
      have hok' := hok
      simp only [FaultyCall.Sound, HandleCall.Sound, hd.plainfileSize_eq] at hok'
      obtain ⟨result', r, hsame, hr, hcall, -⟩ := ChunkReader.read_under (F := F) hd.reader hok'.1
        hok'.2 (fun hv => (hx.current (hv.trans hd.version_eq)).1)
      have hcall' : x.handle.file.read C (faultyBridge F) x.handle.readPos length x.server =
          (result', { x.handle.file with chunkReader := r }, x.server) := by
        simp only [FileHandler.read, hd.plainfileSize_eq, hcall]
      have hy := (Prod.mk.inj ((FileHandlerImpl.read_of_call hcall').symm.trans hread)).2
      obtain ⟨hhandle, hserver⟩ := Prod.mk.inj hy
      have hfile : y.handle.file = { x.handle.file with chunkReader := r } := by
        rw [← hhandle, FileHandlerImpl.afterRead_file]
      refine hx.same_version ?_ (by rw [hfile]) hserver.symm
      rw [hfile]
      exact hd.withReader hsame hr
  | write w =>
      obtain ⟨P, n, file, checksum, hx'⟩ := hx
      obtain ⟨result, hwrite⟩ := hstep
      obtain ⟨hrec, hatomic⟩ := hok
      obtain ⟨e, h', hcall, hh⟩ | ⟨hv, ⟨req, hreq⟩, -, hsame⟩ := hx'.writeUnder hrec
      · have hy := (Prod.mk.inj (hcall.symm.trans hwrite)).2
        obtain ⟨hhandle, hserver⟩ := Prod.mk.inj hy
        obtain ⟨⟨q, t, hq, rfl⟩, hd'⟩ := hh
        exact hx'.same_version (by rw [← hhandle]; exact hd') (by rw [← hhandle]; rfl) hserver.symm
      · exact Session.tracked_write hx' hrec.canWrite
          (hatomic.resolve_left (fun hall => hall req hreq)) ⟨result, hsame.symm.trans hwrite⟩
  | sync fileMeta newParms key =>
      obtain ⟨result, hsync⟩ := hstep
      rcases storeFileRead_faulty F
          { fileId := x.handle.file.chunkReader.chunkDataProvider.fileId
            range := .checksum
            version := none
            thumb := false } x.server with hsame | ⟨e, herr⟩
      · refine Session.tracked_step (a := .sync fileMeta newParms key) hx hok ⟨result, ?_⟩
        rw [← hsync]
        simp only [FileHandlerImpl.sync, FileHandler.sync,
          ChunkDataProvider.getCurrentChecksumsFromBridge, hsame]
      · obtain ⟨P, n, file, checksum, hx⟩ := hx
        simp only [FileHandlerImpl.sync, FileHandler.sync,
          ChunkDataProvider.getCurrentChecksumsFromBridge, herr, Prod.mk.injEq] at hsync
        obtain ⟨-, hhandle, hserver⟩ := hsync
        exact hx.same_version (by rw [← hhandle]; exact hx.describes) (by rw [← hhandle])
          hserver.symm

/-- **A failed write that can be taken back is taken back.** -/
theorem Session.Recoverable.leavesIntact (hrec : x.Recoverable w F) (hx : x.Tracked C) :
    x.LeavesIntact C w F := by
  obtain ⟨P, n, file, checksum, hx⟩ := hx
  have hd := hx.describes
  intro e f s hcall
  obtain ⟨e', h', hcall', hh⟩ | ⟨hv, -, htwo, hsame⟩ := hx.writeUnder hrec
  · have hf := (Prod.mk.inj (hcall'.symm.trans hcall)).2
    obtain ⟨rfl, rfl⟩ := Prod.mk.inj hf
    obtain ⟨q, t, htwin, rfl⟩ := hx.twinAt hh
    exact ⟨⟨rfl, rfl, hd.topHash_eq hh.describes rfl, rfl, rfl, rfl, rfl, rfl, rfl⟩,
      fun calls z hrun => Session.Twin.later ⟨P, n, file, checksum, q, t, _, htwin, rfl⟩ hrun⟩
  · -- Such a write succeeds.
    obtain ⟨rfl, rfl⟩ := hx.current hv
    rw [hd.plainChunkSize_eq, hd.plainfileSize_eq] at htwo
    obtain ⟨m, h₁, h', s', -, hok, -⟩ := FileHandler.write_two_changes hd
      (w.call x.handle.writePos) hrec.canWrite.addressable hrec.canWrite.encrypts hv htwo
    rw [hsame, FileHandlerImpl.write_of_ok hok] at hcall
    exact absurd (Prod.mk.inj hcall).1 (by simp)

end Failed

/-- **A failed write leaves the handle intact.**  In every state that a session
of sound calls reaches, whatever fails below them and whatever is changed
elsewhere, for every write whose failure can be taken back. -/
theorem FileHandlerImpl.failed_write_leaves_intact {C : Primitives} {P : Bytes} {s : ServerFile}
    {x : FileEncryptionParams} {info : FileInfo} {win : Nat} {f : FileHandlerImpl}
    (hstored : StoredFile C x.fileDecryptionParams P s)
    (hwin : WindowSize x.fileDecryptionParams.chunkSize win) (hlen : s.file.length < 2 ^ 63)
    (hopen : FileReadWriteHandle.create C versionedBridge info x win s = (.ok f, s))
    {calls : List FaultyCall} {y : Session}
    (hrun : Run (guarded (FaultyCall.Sound C) (FaultyCall.step C)) ⟨f, s⟩ calls y)
    {w : WriteArgs} {F : Faults} (hrec : y.Recoverable w F) : y.LeavesIntact C w F := by
  have hinit := Session.tracked_opened hstored hwin hlen hopen
  have hfinal := Run.preserves (Session.Tracked C)
    (fun _ _ _ hx hs => Session.tracked_faulty hx hs.1 hs.2) hrun hinit
  exact hrec.leavesIntact hfinal

/-- The freshly opened sample file. -/
def sampleSession : Session :=
  ⟨openedHandle sampleInfo sampleParams 100 samplePrimitives sampleFile.checksum, sampleFile⟩

/-- Every write request gets lost with the same exception. -/
def lostWrites (e : StoreError) : Faults :=
  { Faults.none with write := fun _ => some (.lost e) }

/-- The sample session is one that was opened. -/
theorem sampleSession_opened :
    StoredFile samplePrimitives sampleParams.fileDecryptionParams [1, 2, 3, 4, 5, 6, 7] sampleFile ∧
      WindowSize sampleParams.fileDecryptionParams.chunkSize 100 ∧
      sampleFile.file.length < 2 ^ 63 ∧
      FileReadWriteHandle.create samplePrimitives versionedBridge sampleInfo sampleParams 100
        sampleFile = (.ok sampleSession.handle, sampleFile) := by
  have hstored : StoredFile samplePrimitives sampleParams.fileDecryptionParams
      [1, 2, 3, 4, 5, 6, 7] sampleFile :=
    storedFile_encoded samplePrimitives (by decide) _ _ _
  have hwin : WindowSize sampleParams.fileDecryptionParams.chunkSize 100 :=
    ⟨by decide, by decide⟩
  have hlen : sampleFile.file.length < 2 ^ 63 :=
    lt_of_le_of_lt hstored.encoded.length_file_le (by decide)
  exact ⟨hstored, hwin, hlen,
    (FileReadWriteHandle.create_ok honestReads_versionedBridge hstored hwin hlen sampleInfo).1⟩

/-- A write of two bytes at the write position. -/
def sampleArgs : WriteArgs where
  ivs _ := sampleIv
  encryptMeta := sampleEncryptMeta
  data := [8, 9]
  truncate := false

/-- A write whose request gets lost throws and leaves the sample intact. -/
theorem FileHandlerImpl.failed_write_leaves_intact_sample :
    (sampleSession.handle.writeUnder samplePrimitives (lostWrites (.server 1)) sampleArgs.ivs
        sampleArgs.encryptMeta sampleArgs.data sampleArgs.truncate sampleFile).1 =
      .error (.server 1) ∧
      sampleSession.LeavesIntact samplePrimitives sampleArgs (lostWrites (.server 1)) := by
  obtain ⟨hstored, hwin, hlen, hopen⟩ := sampleSession_opened
  refine ⟨by decide +kernel, FileHandlerImpl.failed_write_leaves_intact hstored hwin hlen hopen
    (.nil sampleSession) ⟨⟨⟨by decide, by decide, by decide⟩, fun _ _ _ => ⟨_, rfl⟩⟩, ?_, ?_⟩⟩
  · intro req fault hfault
    exact ⟨.server 1, (Option.some.inj hfault).symm, rfl⟩
  · exact Or.inl fun req h0 => absurd h0 (by simp [lostWrites])

/-- The sample write with a meta that cannot be encrypted. -/
def unencryptableArgs : WriteArgs :=
  { sampleArgs with encryptMeta := fun _ _ _ => .error .crypto }

/-- If the encryption of the meta throws, the tags of the write stay in the
list and the untouched file can no longer be read; so they do if the request
throws something other than an exception of the library. -/
theorem FileHandlerImpl.failed_write_keeps_tags :
    (sampleSession.handle.writeUnder samplePrimitives .none unencryptableArgs.ivs
        unencryptableArgs.encryptMeta unencryptableArgs.data unencryptableArgs.truncate
        sampleFile).1 = .error .crypto ∧
      (sampleSession.handle.writeUnder samplePrimitives .none unencryptableArgs.ivs
        unencryptableArgs.encryptMeta unencryptableArgs.data unencryptableArgs.truncate
        sampleFile).2.2 = sampleFile ∧
      (sampleSession.handle.read samplePrimitives versionedBridge 7 sampleFile).1 =
        .ok [1, 2, 3, 4, 5, 6, 7] ∧
      ((sampleSession.handle.writeUnder samplePrimitives .none unencryptableArgs.ivs
        unencryptableArgs.encryptMeta unencryptableArgs.data unencryptableArgs.truncate
        sampleFile).2.1.read samplePrimitives versionedBridge 7 sampleFile).1 =
        .error .fileChunkInvalidChecksum ∧
      ¬ sampleSession.LeavesIntact samplePrimitives unencryptableArgs .none ∧
      ¬ sampleSession.LeavesIntact samplePrimitives sampleArgs (lostWrites .outOfRange) := by
  have hfirst : (sampleSession.handle.writeUnder samplePrimitives .none unencryptableArgs.ivs
      unencryptableArgs.encryptMeta unencryptableArgs.data unencryptableArgs.truncate
      sampleFile).1 = .error .crypto := by decide +kernel
  have hsecond : (sampleSession.handle.writeUnder samplePrimitives (lostWrites .outOfRange)
      sampleArgs.ivs sampleArgs.encryptMeta sampleArgs.data sampleArgs.truncate sampleFile).1 =
      .error .outOfRange := by decide +kernel
  refine ⟨hfirst, by decide +kernel, by decide +kernel, by decide +kernel, fun hintact => ?_,
    fun hintact => ?_⟩
  · have hfields := (hintact .crypto _ _ (Prod.ext hfirst rfl)).1
    exact absurd hfields.hashes_eq (by decide +kernel)
  · have hfields := (hintact .outOfRange _ _ (Prod.ext hsecond rfl)).1
    exact absurd hfields.hashes_eq (by decide +kernel)

end PrivmxEndpoint
