import PrivmxEndpoint.AtomicWrite

/-!
# Calls of the handle when the calls below them fail

A request may not reach the server, or its answer may be lost, and the
encryptor may throw at any chunk.  What such a call leaves behind differs from
the state before it in the caches only, up to the last stretch of a write.
There the tag list has been changed already: it is restored if the request
throws an exception of the library and kept if the encryption of the meta
throws.

The window cache is the one thing a failed call moves.  On the current file
another window is as good as the old one; behind a newer file no window is
fetched, so the same ones are at hand (`ChunkDataProvider.Keeps`).
-/

namespace PrivmxEndpoint

open Word Splice Blocks

/-- How a write request fails: it does not reach the server, or it is carried
out and the answer is lost. -/
inductive WriteFault
  | lost (e : StoreError)
  | unanswered (e : StoreError)

/-- What fails below one call.  No request is made twice in a call, so a
function of the requests names any place of failure. -/
structure Faults where
  read : StoreFileReadModel → Option StoreError
  write : StoreFileWriteModelByOperations → Option WriteFault
  /-- The chunks at which the encryptor of a write throws. -/
  chunk : Nat → Option StoreError

/-- Nothing fails. -/
def Faults.none : Faults where
  read _ := .none
  write _ := .none
  chunk _ := .none

/-- The versioned server behind faults. -/
def faultyBridge (F : Faults) : Bridge ServerFile where
  storeFileRead m s :=
    match F.read m with
    | some e => (.error e, s)
    | none => ServerFile.storeFileRead m s
  storeFileWrite req s :=
    match F.write req with
    | some (.lost e) => (.error e, s)
    | some (.unanswered e) => (.error e, (versionedBridge.storeFileWrite req s).2)
    | none => versionedBridge.storeFileWrite req s

/-- Without faults it is the bridge that counts versions. -/
theorem faultyBridge_none : faultyBridge .none = versionedBridge := rfl

/-- `FileHandler::createUpdateChunk` with an encryptor that may throw, which
happens behind the reading of the old chunk. -/
def FileHandler.createUpdateChunkUnder (C : Primitives) (F : Faults) (h : FileHandler)
    (index chunkOffset : Nat) (data : Bytes) (truncate : Bool) (iv : Iv) (s : ServerFile) :
    Except StoreError UpdateChunkData × FileHandler × ServerFile :=
  match h.createUpdateChunk C (faultyBridge F) index chunkOffset data truncate iv s with
  | (.error e, h, s) => (.error e, h, s)
  | (.ok u, h, s) =>
      match F.chunk index with
      | some e => (.error e, h, s)
      | none => (.ok u, h, s)

/-- The loop of `write` over its chunks, with an encryptor that may throw. -/
def FileHandler.createUpdateChunksUnder (C : Primitives) (F : Faults) (ivs : Nat → Iv)
    (offset : Nat) (toSend : Bytes) (startIndex stopIndex : Nat) (truncate : Bool) :
    (count : Nat) → (i dataSend : Nat) → FileHandler → ServerFile →
      Except StoreError (List UpdateChunkData) × FileHandler × ServerFile
  | 0, _, _, h, s => (.ok [], h, s)
  | count + 1, i, dataSend, h, s =>
      let chunkOffset :=
        if i = startIndex then offset % h.chunkReader.chunkEncryptor.getPlainChunkSize else 0
      let size :=
        if i = startIndex then h.plainChunkSize - offset % h.plainChunkSize
        else h.plainChunkSize
      match substr toSend dataSend size with
      | .error e => (.error e, h, s)
      | .ok chunkData =>
          match h.createUpdateChunkUnder C F i chunkOffset chunkData
              (if i = stopIndex then truncate else false) (ivs i) s with
          | (.error e, h, s) => (.error e, h, s)
          | (.ok u, h, s) =>
              match FileHandler.createUpdateChunksUnder C F ivs offset toSend startIndex stopIndex
                  truncate count (i + 1) (dataSend + chunkData.length) h s with
              | (.error e, h, s) => (.error e, h, s)
              | (.ok us, h, s) => (.ok (u :: us), h, s)

/-- The bounds of the loop of `write`: the offset and the data once a gap has
become data, and the first and the last chunk. -/
def FileHandler.onChunks {α : Type} (h : FileHandler) (offset : Nat) (data : Bytes)
    (loop : (offset : Nat) → (toSend : Bytes) → (startIndex stopIndex : Nat) → α) : α :=
  let toSend :=
    if h.plainfileSize < offset then List.replicate (offset - h.plainfileSize) 0 ++ data
    else data
  let offset := if h.plainfileSize < offset then h.plainfileSize else offset
  let startIndex := h.chunkReader.filePosToFileChunkIndex offset
  let stopIndex := h.chunkReader.filePosToFileChunkIndex
    (u64 (offset + toSend.length - if data.length = 0 then 0 else 1))
  loop offset toSend startIndex stopIndex

/-- `FileHandler::write` when the calls below it may fail.  If the encryptor
does not throw in the loop, the write goes on as `FileHandler.write`. -/
def FileHandler.writeUnder (C : Primitives) (F : Faults) (ivs : Nat → Iv)
    (encryptMeta : EncryptMeta) (h : FileHandler) (offset : Nat) (data : Bytes)
    (truncate : Bool) (s : ServerFile) : Except StoreError Unit × FileHandler × ServerFile :=
  match h.onChunks offset data fun offset toSend startIndex stopIndex =>
      FileHandler.createUpdateChunksUnder C F ivs offset toSend startIndex stopIndex truncate
        (stopIndex + 1 - startIndex) startIndex 0 h s with
  | (.error e, h, s) => (.error e, h, s)
  | (.ok _, _, _) => h.write C (faultyBridge F) ivs encryptMeta offset data truncate s

/-- `FileHandlerImpl::write` when the calls below it may fail. -/
def FileHandlerImpl.writeUnder (C : Primitives) (F : Faults) (ivs : Nat → Iv)
    (encryptMeta : EncryptMeta) (f : FileHandlerImpl) (chunk : Bytes) (truncate : Bool)
    (s : ServerFile) : Except StoreError Unit × FileHandlerImpl × ServerFile :=
  match f.file.writeUnder C F ivs encryptMeta f.writePos chunk truncate s with
  | (.error e, h, s) => (.error e, { f with file := h }, s)
  | (.ok (), h, s) => (.ok (), { f with file := h, writePos := u64 (f.writePos + chunk.length) }, s)

/-- The handler with other contents of its three caches: the window, the top
hash and the decrypted chunk. -/
def FileHandler.withCaches (h : FileHandler) (p : ChunkDataProvider) (t : Option Bytes)
    (d : Option DecryptedChunk) : FileHandler :=
  { h with
    chunkReader :=
      { h.chunkReader with
        chunkDataProvider := p
        hashList := { h.chunkReader.hashList with topHash := t }
        lastChunk := d } }

/-! ## The window cache -/

/-- What a call on a file at version `v` may make of the window cache.  It
still matches the file, and if the server has another version it holds the
windows it held before. -/
structure ChunkDataProvider.Keeps (p : ChunkDataProvider) (v : Int) (file : Bytes)
    (current : Prop) (q : ChunkDataProvider) : Prop where
  shape : p.SameShape q
  cache : q.CacheMatches v file
  holds : ¬ current → ∀ i, q.Holds v i ↔ p.Holds v i

section Window

variable {p q r : ChunkDataProvider} {v : Int} {file : Bytes} {current : Prop} {s : ServerFile}
  {i : Nat}

/-- A provider keeps itself. -/
theorem ChunkDataProvider.Keeps.refl (hc : p.CacheMatches v file) : p.Keeps v file current p :=
  ⟨.refl p, hc, fun _ _ => Iff.rfl⟩

theorem ChunkDataProvider.Keeps.trans (h : p.Keeps v file current q)
    (h' : q.Keeps v file current r) : p.Keeps v file current r :=
  ⟨h.shape.trans h'.shape, h'.cache, fun hc i => (h'.holds hc i).trans (h.holds hc i)⟩

/-- A change of version leaves the shape. -/
theorem ChunkDataProvider.sameShape_forVersion (p : ChunkDataProvider) (v : Int) :
    p.SameShape (p.forVersion v) := by
  unfold ChunkDataProvider.forVersion
  split <;> exact ⟨rfl, rfl⟩

/-- Discarding the window of another version discards nothing that is held. -/
theorem ChunkDataProvider.holds_forVersion : (p.forVersion v).Holds v i ↔ p.Holds v i := by
  unfold ChunkDataProvider.forVersion
  by_cases hv : v = p.fileVersion
  · simp [hv]
  · simp [hv, ChunkDataProvider.Holds, Ne.symm hv]

/-- A matching cache is not dropped for its own version. -/
theorem ChunkDataProvider.keeps_forVersion (hc : p.CacheMatches v file) :
    p.Keeps v file current (p.forVersion v) :=
  ⟨p.sameShape_forVersion v, hc.forVersion, fun _ _ => holds_forVersion⟩

/-- A window that is fetched on a newer file was held already. -/
theorem ChunkDataProvider.keeps_loaded (h : p.Holds v i ∨ current) :
    p.Keeps v file current (p.loaded v i file) := by
  refine ⟨⟨rfl, rfl⟩, cacheMatches_loaded _ _ _ _, ?_⟩
  intro hc j
  obtain ⟨hv, hnumber⟩ := h.resolve_right hc
  have hwindow : (p.loaded v i file).window j = p.window j := rfl
  simp only [ChunkDataProvider.Holds, hwindow, hv, hnumber]
  simp [ChunkDataProvider.loaded]

theorem ChunkDataProvider.SameShape.symm (h : p.SameShape q) : q.SameShape p :=
  ⟨h.1.symm, h.2.symm⟩

/-- Both providers read the same file. -/
theorem ChunkDataProvider.Keeps.symm (h : p.Keeps v file current q) (hc : p.CacheMatches v file) :
    q.Keeps v file current p :=
  ⟨h.shape.symm, hc, fun hcurrent i => (h.holds hcurrent i).symm⟩

/-- Two caches that hold the same windows do so after the same step. -/
theorem ChunkDataProvider.Keeps.forVersion (h : p.Keeps v file current q) :
    (p.forVersion v).Keeps v file current (q.forVersion v) where
  shape := ((p.sameShape_forVersion v).symm.trans h.shape).trans (q.sameShape_forVersion v)
  cache := h.cache.forVersion
  holds hc i := holds_forVersion.trans ((h.holds hc i).trans holds_forVersion.symm)

/-- Loading the same chunk keeps them together. -/
theorem ChunkDataProvider.Keeps.loaded (h : p.Keeps v file current q) (i : Nat) :
    (p.loaded v i file).Keeps v file current (q.loaded v i file) := by
  refine ⟨h.shape, cacheMatches_loaded _ _ _ _, fun _ j => ?_⟩
  have hp : (p.loaded v i file).window j = p.window j := rfl
  have hq : (q.loaded v i file).window j = q.window j := rfl
  simp only [ChunkDataProvider.Holds, hp, hq]
  simp only [ChunkDataProvider.loaded, h.shape.window_eq]

/-- A failed read leaves the server as it was. -/
theorem storeFileRead_faulty (F : Faults) (m : StoreFileReadModel) (s : ServerFile) :
    (faultyBridge F).storeFileRead m s = versionedBridge.storeFileRead m s ∨
      ∃ e, (faultyBridge F).storeFileRead m s = (.error e, s) := by
  cases hF : F.read m with
  | none => exact Or.inl (by simp only [faultyBridge, hF, versionedBridge])
  | some e => exact Or.inr ⟨e, by simp only [faultyBridge, hF]⟩

/-- A faulty request is answered as it should be, or throws and leaves the server alone. -/
theorem ChunkDataProvider.requestServerChunk_faulty (F : Faults) (p : ChunkDataProvider) (w : Nat)
    (s : ServerFile) :
    p.requestServerChunk (faultyBridge F) w s = p.requestServerChunk versionedBridge w s ∨
      ∃ e, p.requestServerChunk (faultyBridge F) w s = (.error e, s) := by
  unfold ChunkDataProvider.requestServerChunk
  rcases storeFileRead_faulty F
      { fileId := p.fileId
        range := .slice (toInt64 (p.serverChunkSize * w)) (toInt64 (p.serverChunkSize * u32 (w + 1)))
        version := some p.fileVersion
        thumb := false } s with hsame | ⟨e, herr⟩
  · exact Or.inl (by rw [hsame])
  · right
    rw [herr]
    by_cases he : e = .storeFileVersionMismatch
    · exact ⟨.fileVersionMismatch, by rw [he]⟩
    · exact ⟨e, by cases e <;> first | rfl | exact absurd rfl he⟩

/-- Reading a chunk behind faults. -/
theorem ChunkDataProvider.getChunk_faulty (F : Faults) (p : ChunkDataProvider) (i : Nat) (v : Int)
    (s : ServerFile) :
    p.getChunk (faultyBridge F) i v s = p.getChunk versionedBridge i v s ∨
      ∃ e, p.getChunk (faultyBridge F) i v s = (.error e, p.forVersion v, s) := by
  simp only [ChunkDataProvider.getChunk]
  split
  · exact Or.inl rfl
  · split
    · exact Or.inl rfl
    · rcases (p.forVersion v).requestServerChunk_faulty F
        (u32 (u64 ((p.forVersion v).encryptedChunkSize * i) / (p.forVersion v).serverChunkSize)) s
        with hsame | ⟨e, herr⟩
      · exact Or.inl (by rw [hsame])
      · exact Or.inr ⟨e, by rw [herr]⟩

/-- **One chunk behind faults.**  It is read as without them, or nothing is
read; the cache keeps what it must either way. -/
theorem ChunkDataProvider.getChunk_keeps (F : Faults) (hs : p.Shaped) (hi : p.Addressable i)
    (hc : p.CacheMatches v file) (hfile : s.version = v → s.file = file) :
    ∃ q, p.Keeps v file (s.version = v) q ∧
      (p.getChunk (faultyBridge F) (u32 i) v s =
          (.ok (slice file (i * p.encryptedChunkSize) p.encryptedChunkSize), q, s) ∨
        ∃ e, p.getChunk (faultyBridge F) (u32 i) v s = (.error e, q, s)) := by
  rcases p.getChunk_faulty F (u32 i) v s with hsame | ⟨e, herr⟩
  · rw [hsame, getChunk_eq honestReads_versionedBridge hs hi hc hfile]
    by_cases hok : p.Holds v i ∨ s.version = v
    · rw [if_pos hok]
      exact ⟨_, keeps_loaded hok, Or.inl rfl⟩
    · rw [if_neg hok]
      exact ⟨_, keeps_forVersion hc, Or.inr ⟨_, rfl⟩⟩
  · exact ⟨_, keeps_forVersion hc, Or.inr ⟨e, herr⟩⟩

end Window

/-! ## The loop over the chunks -/

section Loop

variable {C : Primitives} {F : Faults} {h h' : FileHandler} {P file checksum : Bytes} {n : Nat}
  {s s' : ServerFile} {p q : ChunkDataProvider}

/-- Preparing a chunk moves the window cache and nothing else. -/
theorem FileHandler.createUpdateChunkUnder_keeps (hd : h.Describes C P n file checksum)
    (hfile : s.version = h.version → s.file = file)
    (hp : h.chunkReader.chunkDataProvider.Keeps h.version file (s.version = h.version) p)
    {i : Nat} (hi : h.chunkReader.chunkDataProvider.Addressable i) (offset : Nat) (data : Bytes)
    (truncate : Bool) (iv : Iv) :
    ∃ q result,
      h.chunkReader.chunkDataProvider.Keeps h.version file (s.version = h.version) q ∧
        (h.withProvider p).createUpdateChunkUnder C F i offset data truncate iv s =
          (result, h.withProvider q, s) := by
  obtain ⟨q, hq, hget⟩ := ChunkDataProvider.getChunk_keeps F (hp.shape.shaped hd.reader.shaped)
    (hp.shape.addressable hi) hp.cache hfile
  have hcall : ∃ q result,
      h.chunkReader.chunkDataProvider.Keeps h.version file (s.version = h.version) q ∧
        (h.withProvider p).createUpdateChunk C (faultyBridge F) i offset data truncate iv s =
          (result, h.withProvider q, s) := by
    have hprovider : (h.withProvider p).chunkReader.chunkDataProvider = p := rfl
    have hversion : (h.withProvider p).version = h.version := rfl
    have htwice : (h.withProvider p).withProvider q = h.withProvider q := rfl
    unfold FileHandler.createUpdateChunk
    split
    · exact ⟨p, _, hp, rfl⟩
    · refine ⟨q, ?_⟩
      rcases hget with hok | ⟨e, herr⟩
      · rw [hprovider, hversion, hok]
        simp only [htwice]
        split
        · exact ⟨_, hp.trans hq, rfl⟩
        · exact ⟨_, hp.trans hq, rfl⟩
      · rw [hprovider, hversion, herr]
        exact ⟨_, hp.trans hq, rfl⟩
  obtain ⟨q, result, hq, hcall⟩ := hcall
  refine ⟨q, ?_⟩
  unfold FileHandler.createUpdateChunkUnder
  rw [hcall]
  cases result with
  | error e => exact ⟨_, hq, rfl⟩
  | ok u =>
      simp only
      split
      · exact ⟨_, hq, rfl⟩
      · exact ⟨_, hq, rfl⟩

/-- **The loop behind faults.**  However it ends, it has moved the window cache
and nothing else. -/
theorem FileHandler.createUpdateChunksUnder_keeps (hd : h.Describes C P n file checksum)
    (hfile : s.version = h.version → s.file = file)
    (hp : h.chunkReader.chunkDataProvider.Keeps h.version file (s.version = h.version) p)
    {k i : Nat} (hi : ∀ j, j < i + k → h.chunkReader.chunkDataProvider.Addressable j)
    (ivs : Nat → Iv) (offset : Nat) (toSend : Bytes) (startIndex stopIndex : Nat)
    (truncate : Bool) (dataSend : Nat) :
    ∃ q result,
      h.chunkReader.chunkDataProvider.Keeps h.version file (s.version = h.version) q ∧
        FileHandler.createUpdateChunksUnder C F ivs offset toSend startIndex stopIndex truncate k i
          dataSend (h.withProvider p) s = (result, h.withProvider q, s) := by
  induction k generalizing i dataSend p with
  | zero => exact ⟨p, _, hp, rfl⟩
  | succ k ih =>
      simp only [FileHandler.createUpdateChunksUnder]
      split
      · exact ⟨p, _, hp, rfl⟩
      · rename_i data hdata
        obtain ⟨q, result, hq, hchunk⟩ := FileHandler.createUpdateChunkUnder_keeps (F := F) hd hfile
          hp (hi i (by omega)) _ data (if i = stopIndex then truncate else false) (ivs i)
        rw [hchunk]
        cases result with
        | error e => exact ⟨q, _, hq, rfl⟩
        | ok u =>
            obtain ⟨r, rest, hr, hrest⟩ := ih hq (i := i + 1) (fun j hj => hi j (by omega))
              (dataSend + data.length)
            refine ⟨r, ?_⟩
            simp only [hrest]
            cases rest with
            | error e => exact ⟨_, hr, rfl⟩
            | ok us => exact ⟨_, hr, rfl⟩

/-- Without a fault of the encryptor the loop is that of `write`. -/
theorem FileHandler.createUpdateChunksUnder_eq (hF : ∀ i, F.chunk i = .none) (ivs : Nat → Iv)
    (offset : Nat) (toSend : Bytes) (startIndex stopIndex : Nat) (truncate : Bool)
    (k i dataSend : Nat) (h : FileHandler) (s : ServerFile) :
    FileHandler.createUpdateChunksUnder C F ivs offset toSend startIndex stopIndex truncate k i
        dataSend h s =
      FileHandler.createUpdateChunks C (faultyBridge F) ivs offset toSend startIndex stopIndex
        truncate k i dataSend h s := by
  have hchunk : ∀ (h : FileHandler) index off data tr iv s,
      h.createUpdateChunkUnder C F index off data tr iv s =
        h.createUpdateChunk C (faultyBridge F) index off data tr iv s := by
    intro h index off data tr iv s
    unfold FileHandler.createUpdateChunkUnder
    rw [hF]
    split
    · rename_i hcall
      exact hcall.symm
    · rename_i hcall
      exact hcall.symm
  induction k generalizing i dataSend h s with
  | zero => rfl
  | succ k ih =>
      simp only [FileHandler.createUpdateChunksUnder, FileHandler.createUpdateChunks, hchunk, ih]
      generalize substr toSend dataSend _ = piece
      cases piece with
      | error e => rfl
      | ok data =>
          simp only
          generalize FileHandler.createUpdateChunk C (faultyBridge F) h i _ data _ _ s = call
          obtain ⟨result, h₁, s₁⟩ := call
          cases result with
          | error e => rfl
          | ok u =>
              simp only
              generalize FileHandler.createUpdateChunks C _ _ _ _ _ _ _ _ _ _ h₁ s₁ = rest
              obtain ⟨result, h₂, s₂⟩ := rest
              cases result with
              | error e => rfl
              | ok us => rfl

/-- A chunk that is prepared behind faults is prepared as without them. -/
theorem FileHandler.createUpdateChunk_ok_versioned {i offset : Nat} {data : Bytes}
    {truncate : Bool} {iv : Iv} {u : UpdateChunkData}
    (hok : h.createUpdateChunk C (faultyBridge F) i offset data truncate iv s = (.ok u, h', s')) :
    h.createUpdateChunk C versionedBridge i offset data truncate iv s = (.ok u, h', s') := by
  rcases h.chunkReader.chunkDataProvider.getChunk_faulty F (u32 i) h.version s with
    hsame | ⟨e, herr⟩
  · rw [← hok]
    simp only [FileHandler.createUpdateChunk, hsame]
  · simp only [FileHandler.createUpdateChunk, herr] at hok
    split at hok
    · cases hok
    · cases hok

/-- Update chunks that were made behind a faulty bridge are the ones an honest bridge would
give. -/
theorem FileHandler.createUpdateChunks_ok_versioned {ivs : Nat → Iv} {offset : Nat}
    {toSend : Bytes} {startIndex stopIndex : Nat} {truncate : Bool} {k i dataSend : Nat}
    {us : List UpdateChunkData}
    (hok : FileHandler.createUpdateChunks C (faultyBridge F) ivs offset toSend startIndex stopIndex
      truncate k i dataSend h s = (.ok us, h', s')) :
    FileHandler.createUpdateChunks C versionedBridge ivs offset toSend startIndex stopIndex
      truncate k i dataSend h s = (.ok us, h', s') := by
  induction k generalizing i dataSend h s us with
  | zero => exact hok
  | succ k ih =>
      simp only [FileHandler.createUpdateChunks] at hok ⊢
      split at hok
      · cases hok
      · rename_i data hdata
        split at hok
        · cases hok
        · rename_i u h₁ s₁ hchunk
          rw [FileHandler.createUpdateChunk_ok_versioned hchunk]
          simp only
          split at hok
          · cases hok
          · rename_i us₁ h₂ s₂ hrest
            cases hok
            rw [ih hrest]

end Loop

/-! ## A write behind faults -/

section Write

variable {C : Primitives} {F : Faults} {h : FileHandler} {P file checksum : Bytes} {n : Nat}
  {s : ServerFile}

/-- The chunks a write starts with. -/
theorem FileHandler.onChunks_eq {α : Type} (hd : h.Describes C P n file checksum) (c : WriteCall)
    (haddr : h.chunkReader.chunkDataProvider.Addressable
      (c.lastChunk h.chunkReader.chunkEncryptor.chunkSize))
    (loop : Nat → Bytes → Nat → Nat → α) :
    h.onChunks c.offset c.data loop =
      loop (c.start P.length) (c.toSend P.length)
        (c.firstChunk h.chunkReader.chunkEncryptor.chunkSize P.length)
        (c.lastChunk h.chunkReader.chunkEncryptor.chunkSize) := by
  unfold FileHandler.onChunks
  simp only [hd.toSend_eq c, hd.start_eq c, hd.stopIndex_eq c haddr]
  rfl

/-- The loop of a write behind faults, from the state of the handle. -/
theorem WriteCall.loop_keeps (c : WriteCall) (hd : h.Describes C P n file checksum)
    (haddr : h.chunkReader.chunkDataProvider.Addressable
      (c.lastChunk h.chunkReader.chunkEncryptor.chunkSize))
    (hfile : s.version = h.version → s.file = file) :
    ∃ q result,
      h.chunkReader.chunkDataProvider.Keeps h.version file (s.version = h.version) q ∧
        (h.onChunks c.offset c.data fun offset toSend startIndex stopIndex =>
          FileHandler.createUpdateChunksUnder C F c.ivs offset toSend startIndex stopIndex
            c.truncate (stopIndex + 1 - startIndex) startIndex 0 h s) =
          (result, h.withProvider q, s) := by
  have hcache := hd.reader.cache
  rw [hd.version_eq] at hcache
  have hself : h.withProvider h.chunkReader.chunkDataProvider = h := rfl
  obtain ⟨q, result, hq, hloop⟩ := FileHandler.createUpdateChunksUnder_keeps (F := F) hd hfile
    (.refl hcache) (i := c.firstChunk h.chunkReader.chunkEncryptor.chunkSize P.length)
    (k := c.lastChunk h.chunkReader.chunkEncryptor.chunkSize + 1 -
      c.firstChunk h.chunkReader.chunkEncryptor.chunkSize P.length)
    (fun j hj => haddr.mono (by
      have := c.firstChunk_add_count h.chunkReader.chunkEncryptor.chunkSize P.length
      have hcount : c.count h.chunkReader.chunkEncryptor.chunkSize P.length =
        c.lastChunk h.chunkReader.chunkEncryptor.chunkSize + 1 -
          c.firstChunk h.chunkReader.chunkEncryptor.chunkSize P.length := rfl
      omega))
    c.ivs (c.start P.length) (c.toSend P.length)
    (c.firstChunk h.chunkReader.chunkEncryptor.chunkSize P.length)
    (c.lastChunk h.chunkReader.chunkEncryptor.chunkSize) c.truncate 0
  rw [hself] at hloop
  exact ⟨q, result, hq, by rw [FileHandler.onChunks_eq hd c haddr, hloop]⟩

/-- **Preparing a write behind faults.**  It fails and has moved the window
cache only, or everything up to the encryption of the meta is computed as
without faults. -/
theorem FileHandler.prepareWrite_under (c : WriteCall) (hd : h.Describes C P n file checksum)
    (haddr : h.chunkReader.chunkDataProvider.Addressable
      (c.lastChunk h.chunkReader.chunkEncryptor.chunkSize))
    (hfile : s.version = h.version → s.file = file) :
    ∃ q, h.chunkReader.chunkDataProvider.Keeps h.version file (s.version = h.version) q ∧
      ((∃ e, h.prepareWrite C (faultyBridge F) c.ivs c.encryptMeta c.offset c.data c.truncate s =
          (.error e, h.withProvider q, s)) ∨
        h.prepareWrite C (faultyBridge F) c.ivs c.encryptMeta c.offset c.data c.truncate s =
            h.prepareWrite C versionedBridge c.ivs c.encryptMeta c.offset c.data c.truncate s ∧
          h.prepareWrite C versionedBridge c.ivs c.encryptMeta c.offset c.data c.truncate s =
            (match c.encryptMeta h.fileInfo (c.newFileMeta C h P checksum) h.fileEncKey with
              | .error e => .error e
              | .ok m => .ok (c.prepared C h P file checksum m),
              (h.withProvider q).withHashList (c.hashList C h P checksum n), s)) := by
  obtain ⟨q, result, hq, hloop⟩ := c.loop_keeps (F := { F with chunk := fun _ => none }) hd haddr
    hfile
  have hbridge : faultyBridge { F with chunk := fun _ => none } = faultyBridge F := rfl
  have hchunk : ∀ i, ({ F with chunk := fun _ => none } : Faults).chunk i = none := fun _ => rfl
  simp only [FileHandler.onChunks, FileHandler.createUpdateChunksUnder_eq hchunk,
    hbridge] at hloop
  refine ⟨q, hq, ?_⟩
  cases result with
  | error e =>
      left
      simp only [FileHandler.prepareWrite, hloop]
      exact ⟨e, rfl⟩
  | ok us =>
      have hhonest := FileHandler.createUpdateChunks_ok_versioned hloop
      have hsame : h.prepareWrite C (faultyBridge F) c.ivs c.encryptMeta c.offset c.data c.truncate
          s = h.prepareWrite C versionedBridge c.ivs c.encryptMeta c.offset c.data c.truncate s := by
        simp only [FileHandler.prepareWrite, hloop, hhonest]
      have hprovider : (h.prepareWrite C versionedBridge c.ivs c.encryptMeta c.offset c.data
          c.truncate s).2.1.chunkReader.chunkDataProvider = q := by
        simp only [FileHandler.prepareWrite, hhonest]
        split
        · rfl
        · split <;> rfl
      obtain ⟨p, hshape, hcache, ⟨-, hok⟩ | ⟨-, herr⟩⟩ := FileHandler.prepareWrite_spec
        honestReads_versionedBridge c hd haddr hfile
      · obtain rfl : p = q := by rw [← hprovider, hok]; rfl
        exact Or.inr ⟨hsame, hok⟩
      · obtain rfl : p = q := by rw [← hprovider, herr]; rfl
        exact Or.inl ⟨_, hsame.trans herr⟩

/-- What a failed call may leave: other contents of the caches that describe
the same file, and no other window on a file that has been changed. -/
structure FileHandler.Intact (C : Primitives) (h : FileHandler) (P : Bytes) (n : Nat)
    (file checksum : Bytes) (current : Prop) (h' : FileHandler) : Prop where
  fields : ∃ q t, h.chunkReader.chunkDataProvider.Keeps h.version file current q ∧
    h' = h.withCaches q t h.chunkReader.lastChunk
  describes : h'.Describes C P n file checksum

/-- A handler stays intact with any provider of the same file. -/
theorem FileHandler.intact_withProvider (hd : h.Describes C P n file checksum) {current : Prop}
    {q : ChunkDataProvider}
    (hq : h.chunkReader.chunkDataProvider.Keeps h.version file current q) :
    h.Intact C P n file checksum current (h.withProvider q) :=
  ⟨⟨q, _, hq, rfl⟩, hd.withProvider hq.shape hq.cache⟩

/-- The tag list that a rollback restores. -/
theorem FileHandler.Describes.setAll_eq (hd : h.Describes C P n file checksum) (l : HmacList)
    (hkey : l.topHashKey = h.chunkReader.hashList.topHashKey) :
    l.setAll checksum = .ok { h.chunkReader.hashList with topHash := none } := by
  have hlen := hd.reader.encoded.length_checksum
  have hmod : checksum.length % HMAC_SIZE = 0 := by
    rw [hlen]
    exact Nat.mul_mod_left _ _
  have hdiv : checksum.length / HMAC_SIZE = h.chunkReader.hashList.size := by
    rw [hlen, hd.reader.size_eq]
    exact Nat.mul_div_cancel _ (by decide)
  rw [HmacList.setAll, if_neg (by simpa using hmod), hkey, hdiv, ← hd.reader.hashes_eq]

/-- A write with changes sends a request. -/
theorem FileHandler.writeRequests_ne_nil {changes : List UpdateChanges} (hne : changes ≠ [])
    (m : EncryptedMeta) (key : String) (truncate : Bool) :
    h.writeRequests changes m key truncate ≠ [] := by
  simp only [FileHandler.writeRequests, ne_eq, List.map_eq_nil_iff]
  exact batches_ne_nil (operationsByChange_ne_nil hne)

/-- Two changes go out in one request. -/
theorem FileHandler.writeRequests_single {changes : List UpdateChanges}
    (htwo : changes.length ≤ 2) {m : EncryptedMeta} {key : String} {truncate : Bool}
    {req : StoreFileWriteModelByOperations} {reqs : List StoreFileWriteModelByOperations}
    (hreqs : h.writeRequests changes m key truncate = req :: reqs) : reqs = [] := by
  rcases changes with - | ⟨c, - | ⟨d, - | ⟨e, rest⟩⟩⟩
  · exact absurd hreqs (by simp [FileHandler.writeRequests, operationsByChange, batches])
  · exact (List.cons.inj hreqs).2.symm
  · exact (List.cons.inj hreqs).2.symm
  · exact absurd htwo (by simp)

/-- Every request of a write names the handler's version and forces nothing. -/
theorem FileHandler.version_of_mem_writeRequests {changes : List UpdateChanges} {m : EncryptedMeta}
    {key : String} {truncate : Bool} {req : StoreFileWriteModelByOperations}
    (hreq : req ∈ h.writeRequests changes m key truncate) :
    req.version = h.version ∧ req.force = false := by
  obtain ⟨operations, -, rfl⟩ := List.mem_map.mp hreq
  exact ⟨rfl, rfl⟩

/-- **A write behind faults.**  Let the meta be encrypted, and let write
requests fail only by getting lost with an exception of the library.  Then the
write throws and leaves the server and the handle intact, or it is a write on
the current file, one of its requests arrives, and it goes as without faults if
one request is all it makes. -/
theorem FileHandler.write_under (c : WriteCall) (hd : h.Describes C P n file checksum)
    (haddr : h.chunkReader.chunkDataProvider.Addressable
      (c.lastChunk h.chunkReader.chunkEncryptor.chunkSize))
    (hfile : s.version = h.version → s.file = file)
    (hmeta : ∀ info fileMeta key, ∃ m, c.encryptMeta info fileMeta key = .ok m)
    (hlost : ∀ req fault, F.write req = some fault →
      ∃ e, fault = .lost e ∧ e.isPrivmxException = true) :
    (∃ e h', h.write C (faultyBridge F) c.ivs c.encryptMeta c.offset c.data c.truncate s =
        (.error e, h', s) ∧ h.Intact C P n file checksum (s.version = h.version) h') ∨
      s.version = h.version ∧ (∃ req, F.write req = none) ∧
        ((h.createListOfUpdateChangesFromUpdateChunkData (c.updates C h P file)).length ≤ 2 →
          h.write C (faultyBridge F) c.ivs c.encryptMeta c.offset c.data c.truncate s =
            h.write C versionedBridge c.ivs c.encryptMeta c.offset c.data c.truncate s) := by
  obtain ⟨q, hq, ⟨e, herr⟩ | ⟨hsame, hprep⟩⟩ := FileHandler.prepareWrite_under (F := F) c hd haddr
    hfile
  · left
    refine ⟨e, h.withProvider q, ?_, FileHandler.intact_withProvider hd hq⟩
    simp only [FileHandler.write, herr]
  · obtain ⟨m, hm⟩ := hmeta h.fileInfo (c.newFileMeta C h P checksum) h.fileEncKey
    rw [hm] at hprep
    simp only at hprep
    obtain ⟨req, reqs, hreqs⟩ := List.exists_cons_of_ne_nil
      (FileHandler.writeRequests_ne_nil (h := h) (c.changes_ne_nil hd haddr) m h.fileEncKey.id
        c.truncate)
    have hcons : ((h.withProvider q).withHashList (c.hashList C h P checksum n)).writeRequests
        (c.prepared C h P file checksum m).squashedChunksToUpdate
        (c.prepared C h P file checksum m).newMeta h.fileEncKey.id c.truncate = req :: reqs := hreqs
    have hrolled : ∀ e, e.isPrivmxException = true →
        sendAll (faultyBridge F) (req :: reqs) s = (.error e, s) →
        ∃ e h', h.write C (faultyBridge F) c.ivs c.encryptMeta c.offset c.data c.truncate s =
          (.error e, h', s) ∧ h.Intact C P n file checksum (s.version = h.version) h' := by
      intro e he hsend
      rw [← hcons] at hsend
      refine ⟨e, _, FileHandler.write_of_refused (hsame.trans hprep) hsend he
        (hd.setAll_eq (c.hashList C h P checksum n) rfl), ⟨q, none, hq, rfl⟩, ?_⟩
      exact (hd.withProvider hq.shape hq.cache).withHashList
        ⟨hd.reader.hashList.length_eq, fun t ht => absurd ht (by simp)⟩ hd.reader.hashes_eq rfl
    cases hF : F.write req with
    | some fault =>
        obtain ⟨e, rfl, he⟩ := hlost req fault hF
        exact Or.inl (hrolled e he (by simp only [sendAll, faultyBridge, hF]))
    | none =>
        have hreq : (faultyBridge F).storeFileWrite req s = versionedBridge.storeFileWrite req s := by
          simp only [faultyBridge, hF]
        by_cases hv : s.version = h.version
        · refine Or.inr ⟨hv, ⟨req, hF⟩, fun htwo => ?_⟩
          obtain rfl : reqs = [] := FileHandler.writeRequests_single htwo hreqs
          have hsend : sendAll (faultyBridge F) [req] s = sendAll versionedBridge [req] s := by
            simp only [sendAll, hreq]
          rw [← hcons] at hsend
          have hkey : ((h.withProvider q).withHashList
            (c.hashList C h P checksum n)).fileEncKey = h.fileEncKey := rfl
          simp only [FileHandler.write, hsame, hprep, hkey, hsend]
        · have hversion : req.version = h.version ∧ req.force = false :=
            FileHandler.version_of_mem_writeRequests (hreqs ▸ List.mem_cons_self ..)
          refine Or.inl (hrolled .storeFileVersionMismatch rfl ?_)
          have hrefused : versionedBridge.storeFileWrite req s =
              (.error .storeFileVersionMismatch, s) := by
            simp [versionedBridge, hversion.1, hversion.2, Ne.symm hv]
          simp only [sendAll, hreq, hrefused]

/-- The same with an encryptor that may throw in the loop. -/
theorem FileHandler.writeUnder_spec (c : WriteCall) (hd : h.Describes C P n file checksum)
    (haddr : h.chunkReader.chunkDataProvider.Addressable
      (c.lastChunk h.chunkReader.chunkEncryptor.chunkSize))
    (hfile : s.version = h.version → s.file = file)
    (hmeta : ∀ info fileMeta key, ∃ m, c.encryptMeta info fileMeta key = .ok m)
    (hlost : ∀ req fault, F.write req = some fault →
      ∃ e, fault = .lost e ∧ e.isPrivmxException = true) :
    (∃ e h', h.writeUnder C F c.ivs c.encryptMeta c.offset c.data c.truncate s =
        (.error e, h', s) ∧ h.Intact C P n file checksum (s.version = h.version) h') ∨
      s.version = h.version ∧ (∃ req, F.write req = none) ∧
        ((h.createListOfUpdateChangesFromUpdateChunkData (c.updates C h P file)).length ≤ 2 →
          h.writeUnder C F c.ivs c.encryptMeta c.offset c.data c.truncate s =
            h.write C versionedBridge c.ivs c.encryptMeta c.offset c.data c.truncate s) := by
  obtain ⟨q, result, hq, hloop⟩ := c.loop_keeps (F := F) hd haddr hfile
  cases result with
  | error e =>
      refine Or.inl ⟨e, h.withProvider q, ?_, FileHandler.intact_withProvider hd hq⟩
      simp only [FileHandler.writeUnder, hloop]
  | ok us =>
      have hwrite : h.writeUnder C F c.ivs c.encryptMeta c.offset c.data c.truncate s =
          h.write C (faultyBridge F) c.ivs c.encryptMeta c.offset c.data c.truncate s := by
        simp only [FileHandler.writeUnder, hloop]
      rw [hwrite]
      exact FileHandler.write_under c hd haddr hfile hmeta hlost

end Write

/-! ## A read behind faults -/

section Read

variable {C : Primitives} {F : Faults} {r : ChunkReader} {P file checksum : Bytes} {n : Nat}
  {s : ServerFile}

/-- A chunk is read as from an honest bridge, or the call throws. -/
theorem ChunkReader.getDecryptedChunk_faulty (F : Faults) (r : ChunkReader) (i : Nat)
    (s : ServerFile) :
    r.getDecryptedChunk C (faultyBridge F) i s = r.getDecryptedChunk C versionedBridge i s ∨
      ∃ e, r.getDecryptedChunk C (faultyBridge F) i s =
        (.error e, { r with chunkDataProvider := r.chunkDataProvider.forVersion r.version }, s) := by
  have hfetch : r.fetchChunk C (faultyBridge F) i s = r.fetchChunk C versionedBridge i s ∨
      ∃ e, r.fetchChunk C (faultyBridge F) i s =
        (.error e, { r with chunkDataProvider := r.chunkDataProvider.forVersion r.version }, s) := by
    rcases r.chunkDataProvider.getChunk_faulty F (u32 i) r.version s with hsame | ⟨e, herr⟩
    · exact Or.inl (by simp only [ChunkReader.fetchChunk, hsame])
    · exact Or.inr ⟨e, by simp only [ChunkReader.fetchChunk, herr]⟩
  unfold ChunkReader.getDecryptedChunk
  split
  · exact hfetch
  · split
    · exact Or.inl rfl
    · exact hfetch

/-- The loop behind faults: it throws, or returns what it returns without them. -/
theorem ChunkReader.getDecryptedChunks_under (h : r.Describes C P n file checksum) {k i : Nat}
    (hi : ∀ j, i ≤ j → j < i + k → r.chunkDataProvider.Addressable j ∧
      j * r.chunkEncryptor.chunkSize < P.length)
    (hfile : s.version = r.version → s.file = file) :
    ∃ result r', r.SameFile r' ∧ r'.Describes C P n file checksum ∧
      ChunkReader.getDecryptedChunks C (faultyBridge F) k i r s = (result, r', s) ∧
      ∀ data, result = .ok data → data = join (block r.chunkEncryptor.chunkSize P) i k := by
  induction k generalizing i r with
  | zero => exact ⟨_, r, .refl r, h, rfl, fun data hdata => (Except.ok.inj hdata).symm⟩
  | succ k ih =>
      obtain ⟨haddr, hin⟩ := hi i le_rfl (by omega)
      have hchunk : ∃ result r', r.SameFile r' ∧ r'.Describes C P n file checksum ∧
          r.getDecryptedChunk C (faultyBridge F) i s = (result, r', s) ∧
          ∀ chunk, result = .ok chunk → chunk = block r.chunkEncryptor.chunkSize P i := by
        rcases r.getDecryptedChunk_faulty (C := C) F i s with hsame | ⟨e, herr⟩
        · obtain ⟨r', hr, hd, hok | ⟨-, herr⟩⟩ := ChunkReader.getDecryptedChunk_spec
            honestReads_versionedBridge h haddr hin hfile
          · exact ⟨_, r', hr, hd, hsame.trans hok, fun chunk hc => (Except.ok.inj hc).symm⟩
          · exact ⟨_, r', hr, hd, hsame.trans herr, fun _ hc => nomatch hc⟩
        · have hshape := r.chunkDataProvider.sameShape_forVersion r.version
          exact ⟨_, { r with chunkDataProvider := r.chunkDataProvider.forVersion r.version },
            ⟨rfl, rfl, rfl, hshape⟩, h.withProvider hshape h.cache.forVersion, herr,
            fun _ hc => nomatch hc⟩
      obtain ⟨result, r₁, hsame, hd, hcall, hresult⟩ := hchunk
      cases result with
      | error e =>
          refine ⟨.error e, r₁, hsame, hd, ?_, fun _ hdata => nomatch hdata⟩
          simp only [ChunkReader.getDecryptedChunks, hcall]
      | ok chunk =>
          obtain ⟨rest, r₂, hsame₂, hd₂, hrest, hresult₂⟩ := ih (i := i + 1) hd
            (fun j h1 h2 => by
              obtain ⟨ha, hb⟩ := hi j (by omega) (by omega)
              rw [hsame.chunkEncryptor_eq]
              exact ⟨hsame.shape.addressable ha, hb⟩)
            (fun hv => hfile (hv.trans hsame.version_eq))
          rw [hsame.chunkEncryptor_eq] at hresult₂
          cases rest with
          | error e =>
              refine ⟨.error e, r₂, hsame.trans hsame₂, hd₂, ?_, fun _ hdata => nomatch hdata⟩
              simp only [ChunkReader.getDecryptedChunks, hcall, hrest]
          | ok data =>
              refine ⟨.ok (chunk ++ data), r₂, hsame.trans hsame₂, hd₂, ?_, ?_⟩
              · simp only [ChunkReader.getDecryptedChunks, hcall, hrest]
              · intro all hall
                obtain rfl := Except.ok.inj hall
                rw [join_succ, hresult chunk rfl, hresult₂ data rfl]

/-- **A read behind faults** moves the caches only, and throws or returns the
range of the plain text. -/
theorem ChunkReader.read_under (h : r.Describes C P n file checksum) {pos length : Nat}
    (hsum : pos + length < 2 ^ 64)
    (haddr : pos < P.length → 0 < length →
      r.chunkDataProvider.Addressable
        (lastReadChunk r.chunkEncryptor.chunkSize P.length pos length))
    (hfile : s.version = r.version → s.file = file) :
    ∃ result r', r.SameFile r' ∧ r'.Describes C P n file checksum ∧
      r.read C (faultyBridge F) P.length pos length s = (result, r', s) ∧
      ∀ data, result = .ok data → data = slice P pos length := by
  by_cases hin : pos < P.length ∧ 0 < length
  · obtain ⟨hpos, hlen⟩ := hin
    obtain ⟨result, r', hsame, hd, hcall, hresult⟩ := ChunkReader.getDecryptedChunks_under (F := F)
      h (fun j _ hj => h.chunks_of_read hpos hlen (haddr hpos hlen) hj) hfile
    refine ⟨_, r', hsame, hd, ChunkReader.read_eq hsum hpos hlen hcall, ?_⟩
    intro data hdata
    cases result with
    | error e => cases hdata
    | ok chunks =>
        simp only [Except.bind, ChunkReader.filePosToPosInFileChunk, hsame.chunkEncryptor_eq,
          ChunkEncryptor.getPlainChunkSize, hresult chunks rfl] at hdata
        rw [substr_lastReadChunk h.chunkSize_pos hpos hlen] at hdata
        exact (Except.ok.inj hdata).symm
  · refine ⟨_, r, .refl r, h, ChunkReader.read_nil hsum hin, ?_⟩
    intro data hdata
    rw [slice_eq_nil_of_not hin]
    exact (Except.ok.inj hdata).symm

end Read

end PrivmxEndpoint
