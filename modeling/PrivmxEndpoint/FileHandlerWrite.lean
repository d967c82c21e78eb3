import PrivmxEndpoint.FileRewrite

/-!
# What a write of the random-access handle does

`FileHandler.Describes` extends the description of a chunk reader to the size
counters and the copies of the chunk sizes in the handle.  The lemmas follow
the source through a write: one updated chunk, the loop over all of them, the
tags, the counters, and the patching of both caches.  Two facts summarize it:
`prepareWrite_spec` says what is computed before the server is asked, and
`finishWrite_describes` that the handle afterwards describes the rewritten
file.
-/

namespace PrivmxEndpoint

open Word Splice Blocks

/-- A handle describes an encoded file at its version. -/
structure FileHandler.Describes (C : Primitives) (h : FileHandler) (P : Bytes) (n : Nat)
    (file checksum : Bytes) : Prop where
  reader : h.chunkReader.Describes C P n file checksum
  version_eq : h.chunkReader.version = h.version
  plainfileSize_eq : h.plainfileSize = P.length
  encryptedFileSize_eq : h.encryptedFileSize = file.length
  plainChunkSize_eq : h.plainChunkSize = h.chunkReader.chunkEncryptor.chunkSize
  encryptedChunkSize_eq : h.encryptedChunkSize = encLen h.chunkReader.chunkEncryptor.chunkSize
  size_lt : file.length < 2 ^ 63

/-- The record of an updated chunk, for the old and the written text. -/
def WriteCall.update (c : WriteCall) (C : Primitives) (h : FileHandler) (P file : Bytes)
    (i : Nat) : UpdateChunkData :=
  let cs := h.chunkReader.chunkEncryptor.chunkSize
  h.updateChunkData C i (block (encLen cs) file i) (block cs P i) (block cs (c.plain P) i)
    (if i = c.lastChunk cs then c.truncate else false) (c.ivs i)

section Chunks

variable {C : Primitives} {h : FileHandler} {P file checksum : Bytes} {n : Nat}
  {B : Bridge ServerFile} {s : ServerFile} {p : ChunkDataProvider}

/-- A plain text is no longer than its encoding. -/
theorem EncodedFile.length_plain_le {e : ChunkEncryptor}
    (h : EncodedFile C e P n file checksum) : P.length ≤ file.length := by
  rcases Nat.eq_zero_or_pos n with rfl | hn
  · obtain ⟨rfl, rfl, -⟩ := h.eq_nil_of_zero
    exact le_rfl
  · rw [h.length_file hn]
    have h1 : (n - 1) * e.chunkSize ≤ (n - 1) * encLen e.chunkSize :=
      Nat.mul_le_mul_left _ (lt_encLen _).le
    have h2 := lt_encLen (P.length - (n - 1) * e.chunkSize)
    omega

/-- The new text of a chunk is a write into the old one. -/
theorem mergeChunk_eq {prev : Bytes} {off : Nat} (hoff : off ≤ prev.length) (data : Bytes)
    (truncate : Bool) : mergeChunk prev off data truncate = writeAt prev off data truncate := by
  have hfront : (if off > 0 then
      prev.take off ++ (if off > prev.length then List.replicate (off - prev.length) 0 else [])
      else []) = prev.take off := by
    rcases Nat.eq_zero_or_pos off with rfl | hpos
    · simp
    · rw [if_pos hpos, if_neg (by omega), List.append_nil]
  unfold mergeChunk writeAt
  rw [hfront]
  congr 1
  cases truncate with
  | true => simp
  | false =>
      by_cases hlen : prev.length > off + data.length
      · simp [hlen]
      · simp [hlen, List.drop_eq_nil_of_le (Nat.le_of_not_lt hlen)]

/-- The old text of a chunk, empty behind the last chunk. -/
theorem ChunkReader.Describes.decryptPrevious_eq {r : ChunkReader}
    (h : r.Describes C P n file checksum) (i : Nat) :
    r.decryptPrevious C i (slice file (i * encLen r.chunkEncryptor.chunkSize)
        (encLen r.chunkEncryptor.chunkSize)) =
      .ok (block r.chunkEncryptor.chunkSize P i) := by
  obtain ⟨ivs, hdata, -⟩ := h.encoded.slice_file i
  unfold ChunkReader.decryptPrevious
  by_cases hi : i < n
  · have hlen : (slice file (i * encLen r.chunkEncryptor.chunkSize)
        (encLen r.chunkEncryptor.chunkSize)).length ≠ 0 := by
      rw [if_pos hi] at hdata
      rw [hdata, length_encChunk_data]
      exact (encLen_pos _).ne'
    rw [if_pos hlen]
    exact h.decrypt_chunk hi
  · rw [if_neg hi] at hdata
    rw [hdata, h.encoded.block_eq_nil (Nat.le_of_not_lt hi)]
    simp

/-- **One updated chunk**, with any state of the window cache that matches the
file. -/
theorem FileHandler.createUpdateChunk_eq (hB : HonestReads B)
    (hd : h.Describes C P n file checksum)
    (hshape : h.chunkReader.chunkDataProvider.SameShape p) (hcache : p.CacheMatches h.version file)
    {i off : Nat} {data : Bytes} (hfit : off + data.length ≤ h.chunkReader.chunkEncryptor.chunkSize)
    (haddr : h.chunkReader.chunkDataProvider.Addressable i)
    (hfile : s.version = h.version → s.file = file) (truncate : Bool) (iv : Iv) :
    (h.withProvider p).createUpdateChunk C B i off data truncate iv s =
      if p.Holds h.version i ∨ s.version = h.version then
        (.ok (h.updateChunkData C i
            (block (encLen h.chunkReader.chunkEncryptor.chunkSize) file i)
            (block h.chunkReader.chunkEncryptor.chunkSize P i)
            (mergeChunk (block h.chunkReader.chunkEncryptor.chunkSize P i) off data truncate)
            truncate iv),
          h.withProvider (p.loaded h.version i file), s)
      else
        (.error .fileVersionMismatch, h.withProvider (p.forVersion h.version), s) := by
  have hget := ChunkDataProvider.getChunk_eq hB (hshape.shaped hd.reader.shaped)
    (hshape.addressable haddr) hcache hfile
  have hecs : p.encryptedChunkSize = encLen h.chunkReader.chunkEncryptor.chunkSize :=
    hshape.1.trans hd.reader.encryptedChunkSize_eq
  have hprev := (hd.reader.withProvider hshape (hd.version_eq ▸ hcache)).decryptPrevious_eq i
  have hsize : ¬ off + data.length > (h.withProvider p).plainChunkSize := by
    have : (h.withProvider p).plainChunkSize = h.chunkReader.chunkEncryptor.chunkSize :=
      hd.plainChunkSize_eq
    omega
  rw [hecs] at hget
  unfold FileHandler.createUpdateChunk
  rw [if_neg hsize]
  simp only [FileHandler.withProvider] at hprev ⊢
  rw [hget]
  by_cases hok : p.Holds h.version i ∨ s.version = h.version
  · rw [if_pos hok, if_pos hok]
    simp only [hprev]
    rfl
  · rw [if_neg hok, if_neg hok]

section Pieces

variable (c : WriteCall) {cs size i : Nat}

/-- The first piece starts within its chunk, and the others at the start of theirs. -/
theorem WriteCall.chunkOffset_eq (hcs : 0 < cs) (hi : c.firstChunk cs size ≤ i) :
    (if i = c.firstChunk cs size then c.start size % cs else 0) = c.start size - i * cs := by
  by_cases heq : i = c.firstChunk cs size
  · have hdiv := Nat.div_add_mod (c.start size) cs
    rw [Nat.mul_comm] at hdiv
    rw [if_pos heq, heq, WriteCall.firstChunk]
    omega
  · have hstart := c.start_lt hcs size
    have hnext := Nat.mul_le_mul_right cs (show c.firstChunk cs size + 1 ≤ i by omega)
    rw [if_neg heq]
    omega

/-- A piece reaches to the end of its chunk. -/
theorem WriteCall.pieceSize_eq (hcs : 0 < cs) (hi : c.firstChunk cs size ≤ i) :
    (if i = c.firstChunk cs size then cs - c.start size % cs else cs) =
      cs - (c.start size - i * cs) := by
  rw [← c.chunkOffset_eq hcs hi]
  split <;> omega

/-- The piece of a chunk is cut out of the data. -/
theorem WriteCall.substr_piece (hlast : i ≤ c.lastChunk cs) :
    substr (c.toSend size) (i * cs - c.start size) (cs - (c.start size - i * cs)) =
      .ok (c.piece cs size i) := by
  have hin := le_trans (Nat.mul_le_mul_right cs hlast) (c.lastChunk_mul_le cs)
  have hsend := c.start_add_toSend size
  exact substr_of_le _ (by omega)

/-- The length of a piece. -/
theorem WriteCall.length_piece :
    (c.piece cs size i).length =
      min (cs - (c.start size - i * cs)) ((c.toSend size).length - (i * cs - c.start size)) :=
  length_slice _ _ _

/-- The pieces follow one another. -/
theorem WriteCall.piece_end (hcs : 0 < cs) (hi : c.firstChunk cs size ≤ i)
    (hlast : i + 1 ≤ c.lastChunk cs) :
    i * cs - c.start size + (c.piece cs size i).length = (i + 1) * cs - c.start size := by
  have hstart : c.start size < (i + 1) * cs :=
    lt_of_lt_of_le (c.start_lt hcs _) (Nat.mul_le_mul_right cs (by omega))
  have hin := le_trans (Nat.mul_le_mul_right cs hlast) (c.lastChunk_mul_le cs)
  have hsend := c.start_add_toSend size
  have hsucc : (i + 1) * cs = i * cs + cs := Nat.succ_mul _ _
  rw [c.length_piece]
  omega

/-- A piece is written into its chunk, and fits there. -/
theorem WriteCall.mergeChunk_piece (hcs : 0 < cs) {P : Bytes}
    (hi : c.firstChunk cs P.length ≤ i) (hlast : i ≤ c.lastChunk cs) :
    mergeChunk (block cs P i) (c.start P.length - i * cs) (c.piece cs P.length i)
        (if i = c.lastChunk cs then c.truncate else false) = block cs (c.plain P) i ∧
      c.start P.length - i * cs + (c.piece cs P.length i).length ≤ cs := by
  have hstart : c.start P.length < (i + 1) * cs :=
    lt_of_lt_of_le (c.start_lt hcs _) (Nat.mul_le_mul_right cs (by omega))
  have hsucc : (i + 1) * cs = i * cs + cs := Nat.succ_mul _ _
  have hle := c.start_le P.length
  have hblock : c.start P.length - i * cs ≤ (block cs P i).length := by
    rw [length_block]
    omega
  refine ⟨?_, ?_⟩
  · rw [mergeChunk_eq hblock, ← c.block_plain hcs hi hlast]
  · rw [c.length_piece]
    omega

end Pieces

/-- One updated chunk of a write. -/
theorem FileHandler.createUpdateChunk_piece (hB : HonestReads B)
    (hd : h.Describes C P n file checksum) (c : WriteCall) {cs : Nat}
    (hcs : h.chunkReader.chunkEncryptor.chunkSize = cs)
    (haddr : h.chunkReader.chunkDataProvider.Addressable (c.lastChunk cs))
    (hfile : s.version = h.version → s.file = file) {i : Nat}
    (hi : c.firstChunk cs P.length ≤ i) (hlast : i ≤ c.lastChunk cs)
    (hshape : h.chunkReader.chunkDataProvider.SameShape p)
    (hcache : p.CacheMatches h.version file) :
    (h.withProvider p).createUpdateChunk C B i (c.start P.length - i * cs)
        (c.piece cs P.length i) (if i = c.lastChunk cs then c.truncate else false) (c.ivs i) s =
      if p.Holds h.version i ∨ s.version = h.version then
        (.ok (c.update C h P file i), h.withProvider (p.loaded h.version i file), s)
      else
        (.error .fileVersionMismatch, h.withProvider (p.forVersion h.version), s) := by
  subst hcs
  obtain ⟨hmerge, hfit⟩ := c.mergeChunk_piece hd.reader.chunkSize_pos hi hlast
  have hcall := FileHandler.createUpdateChunk_eq hB hd hshape hcache hfit (haddr.mono hlast) hfile
    (if i = c.lastChunk h.chunkReader.chunkEncryptor.chunkSize then c.truncate else false) (c.ivs i)
  rw [hmerge] at hcall
  exact hcall

/-- The loop over the chunks of a write ends at a chunk that cannot be updated. -/
theorem FileHandler.createUpdateChunks_error (hd : h.Describes C P n file checksum)
    (c : WriteCall) {cs : Nat} (hcs : h.chunkReader.chunkEncryptor.chunkSize = cs) {k i : Nat}
    (hi : c.firstChunk cs P.length ≤ i) (hlast : i ≤ c.lastChunk cs) {e : StoreError}
    {h' : FileHandler} {s' : ServerFile}
    (hcall : (h.withProvider p).createUpdateChunk C B i (c.start P.length - i * cs)
      (c.piece cs P.length i) (if i = c.lastChunk cs then c.truncate else false) (c.ivs i) s =
        (.error e, h', s')) :
    FileHandler.createUpdateChunks C B c.ivs (c.start P.length) (c.toSend P.length)
        (c.firstChunk cs P.length) (c.lastChunk cs) c.truncate (k + 1) i
        (i * cs - c.start P.length) (h.withProvider p) s = (.error e, h', s') := by
  have hpos : 0 < cs := hcs ▸ hd.reader.chunkSize_pos
  have hplain : (h.withProvider p).plainChunkSize = cs := hd.plainChunkSize_eq.trans hcs
  have henc : (h.withProvider p).chunkReader.chunkEncryptor.getPlainChunkSize = cs := hcs
  simp only [FileHandler.createUpdateChunks, hplain, henc, c.chunkOffset_eq hpos hi,
    c.pieceSize_eq hpos hi, c.substr_piece hlast, hcall]

/-- An updated chunk comes in front of those that the rest of the loop returns. -/
theorem FileHandler.createUpdateChunks_ok (hd : h.Describes C P n file checksum)
    (c : WriteCall) {cs : Nat} (hcs : h.chunkReader.chunkEncryptor.chunkSize = cs) {k i : Nat}
    (hi : c.firstChunk cs P.length ≤ i) (hlast : i ≤ c.lastChunk cs) {u : UpdateChunkData}
    {h' h'' : FileHandler} {s' s'' : ServerFile} {rest : Except StoreError (List UpdateChunkData)}
    (hcall : (h.withProvider p).createUpdateChunk C B i (c.start P.length - i * cs)
      (c.piece cs P.length i) (if i = c.lastChunk cs then c.truncate else false) (c.ivs i) s =
        (.ok u, h', s'))
    (hrest : FileHandler.createUpdateChunks C B c.ivs (c.start P.length) (c.toSend P.length)
      (c.firstChunk cs P.length) (c.lastChunk cs) c.truncate k (i + 1)
      (i * cs - c.start P.length + (c.piece cs P.length i).length) h' s' = (rest, h'', s'')) :
    FileHandler.createUpdateChunks C B c.ivs (c.start P.length) (c.toSend P.length)
        (c.firstChunk cs P.length) (c.lastChunk cs) c.truncate (k + 1) i
        (i * cs - c.start P.length) (h.withProvider p) s =
      (rest.map (u :: ·), h'', s'') := by
  have hpos : 0 < cs := hcs ▸ hd.reader.chunkSize_pos
  have hplain : (h.withProvider p).plainChunkSize = cs := hd.plainChunkSize_eq.trans hcs
  have henc : (h.withProvider p).chunkReader.chunkEncryptor.getPlainChunkSize = cs := hcs
  simp only [FileHandler.createUpdateChunks, hplain, henc, c.chunkOffset_eq hpos hi,
    c.pieceSize_eq hpos hi, c.substr_piece hlast, hcall, hrest]
  cases rest <;> rfl

/-- **The loop over the chunks of a write.**  It computes the record of every
chunk from `i` to the last one and leaves the window of the last chunk in the
cache, unless the server has moved on. -/
theorem FileHandler.createUpdateChunks_spec (hB : HonestReads B)
    (hd : h.Describes C P n file checksum) (c : WriteCall)
    (haddr : h.chunkReader.chunkDataProvider.Addressable
      (c.lastChunk h.chunkReader.chunkEncryptor.chunkSize))
    (hfile : s.version = h.version → s.file = file) {k i : Nat}
    (hi : c.firstChunk h.chunkReader.chunkEncryptor.chunkSize P.length ≤ i)
    (hk : i + k = c.lastChunk h.chunkReader.chunkEncryptor.chunkSize + 1)
    (hshape : h.chunkReader.chunkDataProvider.SameShape p)
    (hcache : p.CacheMatches h.version file)
    (hlast : k = 0 → p.Holds h.version (c.lastChunk h.chunkReader.chunkEncryptor.chunkSize)) :
    ∃ p', h.chunkReader.chunkDataProvider.SameShape p' ∧ p'.CacheMatches h.version file ∧
      (p'.Holds h.version (c.lastChunk h.chunkReader.chunkEncryptor.chunkSize) ∧
          FileHandler.createUpdateChunks C B c.ivs (c.start P.length) (c.toSend P.length)
            (c.firstChunk h.chunkReader.chunkEncryptor.chunkSize P.length)
            (c.lastChunk h.chunkReader.chunkEncryptor.chunkSize) c.truncate k i
            (i * h.chunkReader.chunkEncryptor.chunkSize - c.start P.length)
            (h.withProvider p) s =
          (.ok ((List.range' i k).map (c.update C h P file)), h.withProvider p', s) ∨
        s.version ≠ h.version ∧
          FileHandler.createUpdateChunks C B c.ivs (c.start P.length) (c.toSend P.length)
            (c.firstChunk h.chunkReader.chunkEncryptor.chunkSize P.length)
            (c.lastChunk h.chunkReader.chunkEncryptor.chunkSize) c.truncate k i
            (i * h.chunkReader.chunkEncryptor.chunkSize - c.start P.length)
            (h.withProvider p) s =
          (.error .fileVersionMismatch, h.withProvider p', s)) := by
  have hcs := hd.reader.chunkSize_pos
  generalize hcsdef : h.chunkReader.chunkEncryptor.chunkSize = cs at *
  induction k generalizing i p with
  | zero =>
      exact ⟨p, hshape, hcache, Or.inl ⟨hlast rfl, by simp [FileHandler.createUpdateChunks]⟩⟩
  | succ k ih =>
      have hin : i ≤ c.lastChunk cs := by omega
      have hcall := FileHandler.createUpdateChunk_piece hB hd c hcsdef haddr hfile hi hin hshape
        hcache
      by_cases hok : p.Holds h.version i ∨ s.version = h.version
      · rw [if_pos hok] at hcall
        obtain ⟨p', hshape', hcache', hrest⟩ := ih (i := i + 1)
          (p := p.loaded h.version i file) (hshape.trans ⟨rfl, rfl⟩)
          (ChunkDataProvider.cacheMatches_loaded _ _ _ _) (by omega) (by omega)
          (fun hk0 => by
            have hi' : i = c.lastChunk cs := by omega
            rw [← hi']
            exact ⟨rfl, rfl⟩)
        refine ⟨p', hshape', hcache', ?_⟩
        -- Behind the last chunk the position does not matter.
        have hsame : FileHandler.createUpdateChunks C B c.ivs (c.start P.length)
            (c.toSend P.length) (c.firstChunk cs P.length) (c.lastChunk cs) c.truncate k (i + 1)
            (i * cs - c.start P.length + (c.piece cs P.length i).length)
            (h.withProvider (p.loaded h.version i file)) s =
          FileHandler.createUpdateChunks C B c.ivs (c.start P.length)
            (c.toSend P.length) (c.firstChunk cs P.length) (c.lastChunk cs) c.truncate k (i + 1)
            ((i + 1) * cs - c.start P.length)
            (h.withProvider (p.loaded h.version i file)) s := by
          rcases Nat.eq_zero_or_pos k with rfl | hpos
          · rfl
          · rw [c.piece_end hcs hi (by omega)]
        rcases hrest with ⟨hholds, hdone⟩ | ⟨hv, herr⟩
        · left
          refine ⟨hholds, ?_⟩
          rw [FileHandler.createUpdateChunks_ok hd c hcsdef hi hin hcall (hsame.trans hdone),
            List.range'_succ, List.map_cons]
          rfl
        · right
          refine ⟨hv, ?_⟩
          rw [FileHandler.createUpdateChunks_ok hd c hcsdef hi hin hcall (hsame.trans herr)]
          rfl
      · rw [if_neg hok] at hcall
        refine ⟨p.forVersion h.version, hshape.trans ?_, hcache.forVersion,
          Or.inr ⟨fun hv => hok (Or.inr hv), ?_⟩⟩
        · unfold ChunkDataProvider.forVersion
          split <;> exact ⟨rfl, rfl⟩
        · exact FileHandler.createUpdateChunks_error hd c hcsdef hi hin hcall

end Chunks

/-! ## Tags and counters -/

/-- Replacing the tags of a run of chunks is one write into the tag string. -/
theorem setHashes_eq {u : Nat → UpdateChunkData} (hidx : ∀ j, (u j).chunkIndex = j)
    (htag : ∀ j, (u j).chunk.hmac.length = HMAC_SIZE) {l : HmacList}
    (hl : l.hashes.length = l.size * HMAC_SIZE) {i k : Nat} (hi : i ≤ l.size) (hk : 0 < k)
    (truncate : Bool) :
    setHashes truncate ((List.range' i k).map u) l =
      (.ok (),
        { l with
          hashes := writeAt l.hashes (i * HMAC_SIZE) (join (fun j => (u j).chunk.hmac) i k) truncate
          size := countAfter l.size i k truncate
          topHash := none }) := by
  induction k generalizing i l with
  | zero => omega
  | succ k ih =>
      have hset := HmacList.set_eq hl hi (htag i)
      have hpos : i * HMAC_SIZE ≤ l.hashes.length := by
        rw [hl]
        exact Nat.mul_le_mul_right _ hi
      rw [List.range'_succ, List.map_cons, join_succ]
      cases k with
      | zero =>
          simp only [List.range'_zero, List.map_nil, setHashes, hidx, hset, join_zero,
            List.append_nil, countAfter]
      | succ k =>
          have hlen : (writeAt l.hashes (i * HMAC_SIZE) (u i).chunk.hmac false).length =
              max l.size (i + 1) * HMAC_SIZE := by
            rw [length_writeAt hpos, hl, htag, HMAC_SIZE]
            simp only [Bool.false_eq_true, if_false]
            omega
          have hadd : (i + 1) * HMAC_SIZE = i * HMAC_SIZE + (u i).chunk.hmac.length := by
            rw [Nat.succ_mul, htag]
          have hrest := ih (l := { l with
            hashes := writeAt l.hashes (i * HMAC_SIZE) (u i).chunk.hmac false
            size := max l.size (i + 1)
            topHash := none }) (i := i + 1) hlen (le_max_right _ _) (Nat.succ_pos k)
          simp only [hadd, writeAt_writeAt hpos, Bool.false_or] at hrest
          rw [List.range'_succ, List.map_cons] at hrest ⊢
          simp only [setHashes, hidx, hset, Bool.false_eq_true, if_false, hrest]
          congr 2
          unfold countAfter
          split <;> omega

section Counters

variable {C : Primitives} {h : FileHandler} {P file checksum : Bytes} {n : Nat} (c : WriteCall)

/-- The end of the last chunk bounds the file after the write. -/
theorem FileHandler.Describes.file_lt (hd : h.Describes C P n file checksum)
    (hend : (c.lastChunk h.chunkReader.chunkEncryptor.chunkSize + 1) *
      encLen h.chunkReader.chunkEncryptor.chunkSize < 2 ^ 63) :
    (c.file C h.chunkReader.chunkEncryptor P file).length < 2 ^ 63 := by
  have h1 := c.length_file_le hd.reader.chunkSize_pos hd.reader.encoded
  have h2 := hd.size_lt
  omega

/-- The file after the write fits in 63 bits. -/
theorem FileHandler.Describes.plain_lt (hd : h.Describes C P n file checksum)
    (hend : (c.lastChunk h.chunkReader.chunkEncryptor.chunkSize + 1) *
      encLen h.chunkReader.chunkEncryptor.chunkSize < 2 ^ 63) : (c.plain P).length < 2 ^ 63 :=
  lt_of_le_of_lt
    (c.encodedFile hd.reader.chunkSize_pos hd.reader.encoded).length_plain_le (hd.file_lt c hend)

/-- The counter of the plain size ends at the length of the written text. -/
theorem FileHandler.Describes.newPlainfileSize (hd : h.Describes C P n file checksum)
    (hend : (c.lastChunk h.chunkReader.chunkEncryptor.chunkSize + 1) *
      encLen h.chunkReader.chunkEncryptor.chunkSize < 2 ^ 63) :
    (((List.range' (c.firstChunk h.chunkReader.chunkEncryptor.chunkSize P.length)
        (c.count h.chunkReader.chunkEncryptor.chunkSize P.length)).map (c.update C h P file)).map
          (·.plainfileSizeChange)).foldl addInt64 h.plainfileSize = (c.plain P).length := by
  have hcs := hd.reader.chunkSize_pos
  have hW := hd.plain_lt c hend
  have hP : P.length < 2 ^ 63 := lt_of_le_of_lt hd.reader.encoded.length_plain_le hd.size_lt
  set cs := h.chunkReader.chunkEncryptor.chunkSize with hcsdef
  have hrun := c.firstChunk_add_count cs P.length
  have hgrowth := (c.replaces_plain hcs hd.reader.encoded).length_add_growth hcs
    ⟨fun j hj => length_block_before hd.reader.encoded.tight hj, fun j _ => length_block_le _ _ _⟩
  rw [join_block_self hd.reader.encoded.covers, c.writeAt_blocks hcs hd.reader.encoded] at hgrowth
  have hchanges : ((List.range' (c.firstChunk cs P.length) (c.count cs P.length)).map
      (c.update C h P file)).map (·.plainfileSizeChange) =
      (List.range' (c.firstChunk cs P.length) (c.count cs P.length)).map fun j =>
        growth cs P (block cs (c.plain P))
          (if j = c.firstChunk cs P.length + c.count cs P.length - 1 then c.truncate else false)
          j := by
    rw [List.map_map]
    apply List.map_congr_left
    intro j hj
    rw [List.mem_range'_1] at hj
    have hlast : c.firstChunk cs P.length + c.count cs P.length - 1 = c.lastChunk cs := by omega
    have hjcs : j * cs ≤ (c.plain P).length := by
      have h1 := c.lastChunk_mul_le cs
      have h2 : j * cs ≤ c.lastChunk cs * cs := Nat.mul_le_mul_right cs (by omega)
      rw [c.length_plain]
      split <;> omega
    have hWj := length_block cs (c.plain P) j
    have hPj := length_block cs P j
    simp only [Function.comp_apply, WriteCall.update, FileHandler.updateChunkData, growth,
      hd.plainChunkSize_eq, hd.plainfileSize_eq, ← hcsdef, hlast]
    rw [toInt64_of_lt (show j * cs + (block cs (c.plain P) j).length < 2 ^ 63 by omega),
      toInt64_of_lt hP, toInt64_of_lt (show j * cs < 2 ^ 63 by omega),
      toInt64_of_lt (show (block cs (c.plain P) j).length < 2 ^ 63 by omega),
      toInt64_of_lt (show (block cs P j).length < 2 ^ 63 by omega)]
  rw [hchanges, hd.plainfileSize_eq, foldl_addInt64 (by omega)]
  exact addInt64_eq (by omega) hgrowth

/-- The counter of the encrypted size ends at the length of the new blob. -/
theorem FileHandler.Describes.newEncryptedFileSize (hd : h.Describes C P n file checksum)
    (hend : (c.lastChunk h.chunkReader.chunkEncryptor.chunkSize + 1) *
      encLen h.chunkReader.chunkEncryptor.chunkSize < 2 ^ 63) :
    (((List.range' (c.firstChunk h.chunkReader.chunkEncryptor.chunkSize P.length)
        (c.count h.chunkReader.chunkEncryptor.chunkSize P.length)).map (c.update C h P file)).map
          (·.encryptedFileSizeChange)).foldl addInt64 h.encryptedFileSize =
      (c.file C h.chunkReader.chunkEncryptor P file).length := by
  have hcs := hd.reader.chunkSize_pos
  have hF := hd.file_lt c hend
  have hf := hd.size_lt
  set e := h.chunkReader.chunkEncryptor with hedef
  have hrun := c.firstChunk_add_count e.chunkSize P.length
  obtain ⟨ivs, hfile, -⟩ := hd.reader.encoded.encoded
  have hgrowth := (c.replaces_data hcs hd.reader.encoded ivs).length_add_growth
    (encLen_pos _) (blocked_data hd.reader.encoded.tight ivs)
  rw [← hfile] at hgrowth
  have hchanges : ((List.range' (c.firstChunk e.chunkSize P.length)
      (c.count e.chunkSize P.length)).map (c.update C h P file)).map (·.encryptedFileSizeChange) =
      (List.range' (c.firstChunk e.chunkSize P.length) (c.count e.chunkSize P.length)).map fun j =>
        growth (encLen e.chunkSize) file (fun i => (c.chunk C e P i).data)
          (if j = c.firstChunk e.chunkSize P.length + c.count e.chunkSize P.length - 1
            then c.truncate else false) j := by
    rw [List.map_map]
    apply List.map_congr_left
    intro j hj
    rw [List.mem_range'_1] at hj
    have hlast : c.firstChunk e.chunkSize P.length + c.count e.chunkSize P.length - 1 =
        c.lastChunk e.chunkSize := by omega
    have hjcs : (j + 1) * encLen e.chunkSize ≤ (c.lastChunk e.chunkSize + 1) * encLen e.chunkSize :=
      Nat.mul_le_mul_right _ (by omega)
    rw [Nat.succ_mul] at hjcs
    have hWj : (c.chunk C e P j).data.length ≤ encLen e.chunkSize := by
      rw [WriteCall.chunk, length_encChunk_data]
      exact encLen_mono (length_block_le _ _ _)
    have hPj := length_block (encLen e.chunkSize) file j
    have hchunk : e.encrypt C j (block e.chunkSize (c.plain P) j) (c.ivs j) = c.chunk C e P j := rfl
    simp only [Function.comp_apply, WriteCall.update, FileHandler.updateChunkData, growth,
      hd.encryptedChunkSize_eq, hd.encryptedFileSize_eq, ← hedef, hlast, hchunk]
    rw [toInt64_of_lt (show j * encLen e.chunkSize + (c.chunk C e P j).data.length < 2 ^ 63 by omega),
      toInt64_of_lt hf, toInt64_of_lt (show j * encLen e.chunkSize < 2 ^ 63 by omega),
      toInt64_of_lt (show (c.chunk C e P j).data.length < 2 ^ 63 by omega),
      toInt64_of_lt (show (block (encLen e.chunkSize) file j).length < 2 ^ 63 by omega)]
  rw [hchanges, hd.encryptedFileSize_eq, foldl_addInt64 (by omega)]
  exact addInt64_eq (by omega) hgrowth

end Counters

/-! ## Moving the caches along -/

/-- The patched window cache, for updated chunks given by index. -/
theorem ChunkDataProvider.foldl_update {u : Nat → UpdateChunkData}
    (hidx : ∀ j, (u j).chunkIndex = j) {p : ChunkDataProvider} (hs : p.Shaped) {i k : Nat}
    (haddr : ∀ j, i ≤ j → j < i + k → p.Addressable j) (v : Int) (size : Nat) (truncate : Bool) :
    ((List.range' i k).map u).foldl
        (fun p u => p.update v (u32 u.chunkIndex) u.chunk.data size truncate) p =
      { p with
        lastServerChunk := (List.range' i k).foldl (fun ys j =>
          if p.lastServerChunkNumber = some (p.window j) then
            writeAt ys (j * p.encryptedChunkSize % p.serverChunkSize) (u j).chunk.data truncate
          else ys) p.lastServerChunk
        serverFileSize := if k = 0 then p.serverFileSize else size
        fileVersion := if k = 0 then p.fileVersion else v } := by
  induction k generalizing i p with
  | zero => simp
  | succ k ih =>
      have hstep := ChunkDataProvider.update_eq hs (haddr i le_rfl (by omega)) v
        (u i).chunk.data size truncate
      have hsame : p.SameShape (p.update v (u32 i) (u i).chunk.data size truncate) := by
        rw [hstep]
        exact ⟨rfl, rfl⟩
      rw [List.range'_succ, List.map_cons, List.foldl_cons, List.foldl_cons, hidx,
        ih (hsame.shaped hs)
          (fun j h1 h2 => hsame.addressable (haddr j (by omega) (by omega))), hstep]
      simp only [ite_self, Nat.succ_ne_zero, if_false]
      rfl

/-- Both caches after a write. -/
theorem ChunkReader.foldl_update (v : Int) (size : Nat) (truncate : Bool)
    (us : List UpdateChunkData) (r : ChunkReader) :
    us.foldl (fun r u =>
        ({ r with
          chunkDataProvider := r.chunkDataProvider.update v (u32 u.chunkIndex)
            u.chunk.data size truncate } : ChunkReader).update v u.chunkIndex) r =
      { r with
        chunkDataProvider := us.foldl
          (fun p u => p.update v (u32 u.chunkIndex) u.chunk.data size truncate) r.chunkDataProvider
        version := if us = [] then r.version else v
        lastChunk :=
          if us.any (fun u => r.lastChunk.any (·.index = u.chunkIndex)) then none
          else r.lastChunk } := by
  induction us generalizing r with
  | nil => simp
  | cons u us ih =>
      rw [List.foldl_cons, ih]
      simp only [ChunkReader.update, List.foldl_cons, ite_self, reduceCtorEq, if_false,
        List.any_cons]
      congr 1
      cases r.lastChunk with
      | none => simp
      | some d =>
          by_cases hidx : d.index = u.chunkIndex
          · simp [hidx]
          · simp [hidx]

section Finish

variable {C : Primitives} {h : FileHandler} {P file checksum : Bytes} {n : Nat}
  {p : ChunkDataProvider} {l : HmacList}

/-- The kept window after a write is a window of the rewritten blob. -/
theorem WriteCall.cacheMatches (c : WriteCall) (hd : h.Describes C P n file checksum)
    (hshape : h.chunkReader.chunkDataProvider.SameShape p) (hcache : p.CacheMatches h.version file)
    (hholds : p.Holds h.version (c.lastChunk h.chunkReader.chunkEncryptor.chunkSize))
    (haddr : h.chunkReader.chunkDataProvider.Addressable
      (c.lastChunk h.chunkReader.chunkEncryptor.chunkSize)) (v : Int) (size : Nat) :
    p.SameShape (((List.range' (c.firstChunk h.chunkReader.chunkEncryptor.chunkSize P.length)
        (c.count h.chunkReader.chunkEncryptor.chunkSize P.length)).map (c.update C h P file)).foldl
        (fun p u => p.update v (u32 u.chunkIndex) u.chunk.data size c.truncate) p) ∧
      (((List.range' (c.firstChunk h.chunkReader.chunkEncryptor.chunkSize P.length)
        (c.count h.chunkReader.chunkEncryptor.chunkSize P.length)).map (c.update C h P file)).foldl
        (fun p u => p.update v (u32 u.chunkIndex) u.chunk.data size c.truncate) p).CacheMatches v
          (c.file C h.chunkReader.chunkEncryptor P file) := by
  have hcs := hd.reader.chunkSize_pos
  have hs := hshape.shaped hd.reader.shaped
  have haddr' := hshape.addressable haddr
  have hecs : p.encryptedChunkSize = encLen h.chunkReader.chunkEncryptor.chunkSize :=
    hshape.1.trans hd.reader.encryptedChunkSize_eq
  set e := h.chunkReader.chunkEncryptor with hedef
  have hrun := c.firstChunk_add_count e.chunkSize P.length
  have hcount := c.count_pos e.chunkSize P.length
  have hlastIdx : c.firstChunk e.chunkSize P.length + c.count e.chunkSize P.length - 1 =
      c.lastChunk e.chunkSize := by omega
  obtain ⟨ivs, hfile, -⟩ := hd.reader.encoded.encoded
  have hrep := c.replaces_data hcs hd.reader.encoded ivs
  have hstart := hrep.start_length_le
  rw [← hfile] at hstart
  obtain ⟨m, hm⟩ := hs.dvd
  rw [hecs, Nat.mul_comm] at hm
  have hmpos : 0 < m := by
    rcases Nat.eq_zero_or_pos m with h0 | h0
    · have := hs.window_pos
      rw [hm, h0] at this
      omega
    · exact h0
  have hwindow : ∀ j, p.window j = j / m := by
    intro j
    rw [ChunkDataProvider.window, hecs, hm, Nat.mul_div_mul_right _ _ (encLen_pos _)]
  have hkept := hcache.window_eq hholds.1 _ hholds.2 haddr'.window_lt.ne
  have hfold := foldl_window c.truncate (encLen_pos e.chunkSize) hmpos hcount hstart
    hrep.full hrep.fits
  rw [hlastIdx, ← hm, ← hwindow, ← hkept] at hfold
  rw [ChunkDataProvider.foldl_update (fun _ => rfl) hs
    (fun j _ h2 => haddr'.mono (show j ≤ c.lastChunk e.chunkSize by omega))]
  refine ⟨⟨rfl, rfl⟩, ?_, ?_⟩
  · exact (if_neg hcount.ne').le
  intro _ w hw _
  obtain rfl : p.window (c.lastChunk e.chunkSize) = w := Option.some.inj (hholds.2.symm.trans hw)
  simp only [hholds.2, Option.some.injEq, hecs]
  refine Eq.trans ?_ hfold
  congr 1
  funext ys j
  rw [← hwindow j]
  by_cases hj : p.window j = p.window (c.lastChunk e.chunkSize)
  · rw [if_pos hj.symm, if_pos hj]
    rfl
  · rw [if_neg (Ne.symm hj), if_neg hj]

/-- What a finished write does to the fields outside of the caches. -/
structure FileHandler.Rewritten (h h' : FileHandler) (fileMeta : FileMeta) : Prop where
  version_eq : h'.version = h.version + 1
  fileMeta_eq : h'.fileMeta = fileMeta
  fileInfo_eq : h'.fileInfo = h.fileInfo
  fileEncKey_eq : h'.fileEncKey = h.fileEncKey
  chunkEncryptor_eq : h'.chunkReader.chunkEncryptor = h.chunkReader.chunkEncryptor

/-- What a finished write leaves of the handler. -/
theorem FileHandler.rewritten_finishWrite (h : FileHandler) (w : PreparedWrite) (truncate : Bool) :
    h.Rewritten (h.finishWrite w truncate) w.newFileMeta := by
  refine ⟨rfl, rfl, rfl, rfl, ?_⟩
  unfold FileHandler.finishWrite
  rw [ChunkReader.foldl_update]

/-- **A finished write.**  The handle describes the rewritten file. -/
theorem FileHandler.finishWrite_describes (c : WriteCall) (hd : h.Describes C P n file checksum)
    (hshape : h.chunkReader.chunkDataProvider.SameShape p) (hcache : p.CacheMatches h.version file)
    (hholds : p.Holds h.version (c.lastChunk h.chunkReader.chunkEncryptor.chunkSize))
    (haddr : h.chunkReader.chunkDataProvider.Addressable
      (c.lastChunk h.chunkReader.chunkEncryptor.chunkSize))
    (hl : l.Sound C) (hlh : l.hashes = c.checksum C h.chunkReader.chunkEncryptor P checksum)
    (hlk : l.topHashKey = h.chunkReader.chunkEncryptor.key) {w : PreparedWrite}
    (hchunks : w.chunksToUpdate =
      (List.range' (c.firstChunk h.chunkReader.chunkEncryptor.chunkSize P.length)
        (c.count h.chunkReader.chunkEncryptor.chunkSize P.length)).map (c.update C h P file))
    (hplain : w.newPlainfileSize = (c.plain P).length)
    (henc : w.newEncryptedFileSize = (c.file C h.chunkReader.chunkEncryptor P file).length) :
    (((h.withProvider p).withHashList l).finishWrite w c.truncate).Describes C (c.plain P)
        (c.chunks h.chunkReader.chunkEncryptor.chunkSize P.length n)
        (c.file C h.chunkReader.chunkEncryptor P file)
        (c.checksum C h.chunkReader.chunkEncryptor P checksum) ∧
      h.chunkReader.chunkDataProvider.SameShape
        (((h.withProvider p).withHashList l).finishWrite w c.truncate).chunkReader.chunkDataProvider
      := by
  have hcs := hd.reader.chunkSize_pos
  have hend := haddr.chunk_end_lt hd.reader.shaped
  rw [hd.reader.encryptedChunkSize_eq] at hend
  have hnew := c.encodedFile hcs hd.reader.encoded
  obtain ⟨hshape', hcache'⟩ := c.cacheMatches hd hshape hcache hholds haddr (h.version + 1)
    w.newEncryptedFileSize
  have hrun := c.firstChunk_add_count h.chunkReader.chunkEncryptor.chunkSize P.length
  have hne : w.chunksToUpdate ≠ [] := by
    have := c.count_pos h.chunkReader.chunkEncryptor.chunkSize P.length
    rw [hchunks]
    simp only [ne_eq, List.map_eq_nil_iff, List.range'_eq_nil_iff]
    omega
  have hall := hshape.trans hshape'
  rw [← hchunks] at hshape' hcache' hall
  unfold FileHandler.finishWrite
  rw [ChunkReader.foldl_update]
  simp only [hne, if_false]
  refine ⟨⟨⟨hnew, hcs, hall.shaped hd.reader.shaped,
    hall.1.trans hd.reader.encryptedChunkSize_eq, hcache', hl, hlh, hlk, ?_⟩, rfl, hplain, henc,
    hd.plainChunkSize_eq, hd.encryptedChunkSize_eq, hd.file_lt c hend⟩, hall⟩
  -- A kept chunk was not updated, so it lies before the write or behind it uncut.
  intro d hlast hin
  have hkept : (if w.chunksToUpdate.any
      (fun u => h.chunkReader.lastChunk.any (·.index = u.chunkIndex)) then none
      else h.chunkReader.lastChunk) = some d := hlast
  replace hin : d.index * h.chunkReader.chunkEncryptor.chunkSize < (c.plain P).length := hin
  change d.decryptedData = block h.chunkReader.chunkEncryptor.chunkSize (c.plain P) d.index
  have hnot : ¬ w.chunksToUpdate.any
      (fun u => h.chunkReader.lastChunk.any (·.index = u.chunkIndex)) = true := by
    intro hany
    rw [if_pos hany] at hkept
    exact absurd hkept (by simp)
  rw [if_neg hnot] at hkept
  have hout : ¬ (c.firstChunk h.chunkReader.chunkEncryptor.chunkSize P.length ≤ d.index ∧
      d.index < c.firstChunk h.chunkReader.chunkEncryptor.chunkSize P.length +
        c.count h.chunkReader.chunkEncryptor.chunkSize P.length) := by
    intro hmem
    apply hnot
    rw [hchunks, hkept]
    simp only [Option.any_some, List.any_map, List.any_eq_true, List.mem_range'_1]
    exact ⟨d.index, hmem, by simp [WriteCall.update, FileHandler.updateChunkData]⟩
  have hblock : block h.chunkReader.chunkEncryptor.chunkSize (c.plain P) d.index =
      block h.chunkReader.chunkEncryptor.chunkSize P d.index := by
    apply c.block_outside hcs
    by_cases hlt : d.index < c.firstChunk h.chunkReader.chunkEncryptor.chunkSize P.length
    · exact Or.inl hlt
    · exact Or.inr (c.not_cut_behind (hnew.index_lt hin) (by omega))
  rw [hblock]
  apply hd.reader.lastChunk d hkept
  -- The chunk has a byte of the new text, hence a byte of the old one.
  by_contra hge
  have hnil : block h.chunkReader.chunkEncryptor.chunkSize P d.index = [] :=
    slice_eq_nil_of_le _ (Nat.le_of_not_lt hge)
  have hlen := length_block h.chunkReader.chunkEncryptor.chunkSize (c.plain P) d.index
  rw [hblock, hnil] at hlen
  simp only [List.length_nil] at hlen
  omega

end Finish

/-! ## The whole preparation -/

section Prepare

variable {C : Primitives} {h : FileHandler} {P file checksum : Bytes} {n : Nat}
  {B : Bridge ServerFile} {s : ServerFile}

/-- The tag list of a handle in the middle of a write, with its top hash. -/
def WriteCall.hashList (c : WriteCall) (C : Primitives) (h : FileHandler) (P checksum : Bytes)
    (n : Nat) : HmacList where
  topHashKey := h.chunkReader.hashList.topHashKey
  topHash := some (C.hmacSha256 h.chunkReader.hashList.topHashKey
    (c.checksum C h.chunkReader.chunkEncryptor P checksum))
  size := c.chunks h.chunkReader.chunkEncryptor.chunkSize P.length n
  hashes := c.checksum C h.chunkReader.chunkEncryptor P checksum

/-- The meta a write stores. -/
def WriteCall.newFileMeta (c : WriteCall) (C : Primitives) (h : FileHandler)
    (P checksum : Bytes) : FileMeta :=
  { h.fileMeta with
    internalFileMeta :=
      { h.fileMeta.internalFileMeta with
        hmac := C.base64From (C.hmacSha256 h.chunkReader.hashList.topHashKey
          (c.checksum C h.chunkReader.chunkEncryptor P checksum))
        size := ((c.plain P).length : Int) } }

/-- The records of all updated chunks. -/
def WriteCall.updates (c : WriteCall) (C : Primitives) (h : FileHandler) (P file : Bytes) :
    List UpdateChunkData :=
  (List.range' (c.firstChunk h.chunkReader.chunkEncryptor.chunkSize P.length)
    (c.count h.chunkReader.chunkEncryptor.chunkSize P.length)).map (c.update C h P file)

/-- What a write has computed when it turns to the server. -/
def WriteCall.prepared (c : WriteCall) (C : Primitives) (h : FileHandler)
    (P file checksum : Bytes) (newMeta : EncryptedMeta) : PreparedWrite where
  chunksToUpdate := c.updates C h P file
  oldHashList := checksum
  squashedChunksToUpdate := h.createListOfUpdateChangesFromUpdateChunkData (c.updates C h P file)
  newFileMeta := c.newFileMeta C h P checksum
  newMeta := newMeta
  newPlainfileSize := (c.plain P).length
  newEncryptedFileSize := (c.file C h.chunkReader.chunkEncryptor P file).length

/-- Squashing does not look at the cache. -/
theorem FileHandler.squash_withProvider (p : ChunkDataProvider) (us : List UpdateChunkData)
    (o : UpdateChanges) : (h.withProvider p).squash o us = h.squash o us := by
  induction us generalizing o with
  | nil => rfl
  | cons u us ih =>
      simp only [FileHandler.squash, ih]
      rfl

/-- So neither do the changes. -/
theorem FileHandler.changes_withProvider (p : ChunkDataProvider) (us : List UpdateChunkData) :
    (h.withProvider p).createListOfUpdateChangesFromUpdateChunkData us =
      h.createListOfUpdateChangesFromUpdateChunkData us := by
  cases us with
  | nil => rfl
  | cons u us => exact FileHandler.squash_withProvider p us _

/-- The hash list after a write is sound. -/
theorem WriteCall.sound_hashList (c : WriteCall) (hd : h.Describes C P n file checksum) :
    (c.hashList C h P checksum n).Sound C where
  length_eq := (c.encodedFile hd.reader.chunkSize_pos hd.reader.encoded).length_checksum
  topHash_eq _ ht := (Option.some.inj ht).symm

/-- The tag list after the loop over the updated chunks. -/
theorem WriteCall.setHashes_updates (c : WriteCall) (hd : h.Describes C P n file checksum) :
    setHashes c.truncate (c.updates C h P file) h.chunkReader.hashList =
      (.ok (), { c.hashList C h P checksum n with topHash := none }) := by
  have hfirst : c.firstChunk h.chunkReader.chunkEncryptor.chunkSize P.length ≤
      h.chunkReader.hashList.size := by
    rw [hd.reader.size_eq]
    exact c.firstChunk_le hd.reader.chunkSize_pos hd.reader.encoded
  have hset := setHashes_eq (u := c.update C h P file) (fun _ => rfl)
    (fun j => ChunkEncryptor.length_encrypt_hmac _ _ _) hd.reader.hashList.length_eq hfirst
    (c.count_pos h.chunkReader.chunkEncryptor.chunkSize P.length) c.truncate
  rw [hd.reader.hashes_eq, hd.reader.size_eq] at hset
  exact hset

/-- The data of a write with the zeros of a gap in front. -/
theorem FileHandler.Describes.toSend_eq (hd : h.Describes C P n file checksum) (c : WriteCall) :
    (if h.plainfileSize < c.offset then
      List.replicate (c.offset - h.plainfileSize) 0 ++ c.data else c.data) =
      c.toSend P.length := by
  rw [hd.plainfileSize_eq, WriteCall.toSend]
  split
  · rfl
  · have hz : c.offset - P.length = 0 := by omega
    rw [hz]
    rfl

/-- Where the code starts to write. -/
theorem FileHandler.Describes.start_eq (hd : h.Describes C P n file checksum) (c : WriteCall) :
    (if h.plainfileSize < c.offset then h.plainfileSize else c.offset) = c.start P.length := by
  rw [hd.plainfileSize_eq, WriteCall.start]
  split <;> omega

/-- The chunk in which the code stops. -/
theorem FileHandler.Describes.stopIndex_eq (hd : h.Describes C P n file checksum) (c : WriteCall)
    (haddr : h.chunkReader.chunkDataProvider.Addressable
      (c.lastChunk h.chunkReader.chunkEncryptor.chunkSize)) :
    h.chunkReader.filePosToFileChunkIndex (u64 (c.start P.length +
      (c.toSend P.length).length - if c.data.length = 0 then 0 else 1)) =
      c.lastChunk h.chunkReader.chunkEncryptor.chunkSize := by
  have hend := haddr.chunk_end_lt hd.reader.shaped
  rw [hd.reader.encryptedChunkSize_eq] at hend
  have hplain_lt := hd.plain_lt c hend
  have hlastLt : c.offset + c.data.length < 2 ^ 64 := by
    have h1 := c.length_plain P
    split at h1 <;> omega
  rw [c.start_add_toSend, u64_of_lt (by omega)]
  rfl

/-- **Preparing a write.**  Either a window had to be fetched at a version the
server no longer has, or everything up to the encryption of the meta is
computed as described. -/
theorem FileHandler.prepareWrite_spec (hB : HonestReads B) (c : WriteCall)
    (hd : h.Describes C P n file checksum)
    (haddr : h.chunkReader.chunkDataProvider.Addressable
      (c.lastChunk h.chunkReader.chunkEncryptor.chunkSize))
    (hfile : s.version = h.version → s.file = file) :
    ∃ p, h.chunkReader.chunkDataProvider.SameShape p ∧ p.CacheMatches h.version file ∧
      (p.Holds h.version (c.lastChunk h.chunkReader.chunkEncryptor.chunkSize) ∧
          h.prepareWrite C B c.ivs c.encryptMeta c.offset c.data c.truncate s =
            (match c.encryptMeta h.fileInfo (c.newFileMeta C h P checksum) h.fileEncKey with
              | .error e => .error e
              | .ok m => .ok (c.prepared C h P file checksum m),
              (h.withProvider p).withHashList (c.hashList C h P checksum n), s) ∨
        s.version ≠ h.version ∧
          h.prepareWrite C B c.ivs c.encryptMeta c.offset c.data c.truncate s =
            (.error .fileVersionMismatch, h.withProvider p, s)) := by
  have hcs := hd.reader.chunkSize_pos
  have hend := haddr.chunk_end_lt hd.reader.shaped
  rw [hd.reader.encryptedChunkSize_eq] at hend
  have hcache := hd.reader.cache
  rw [hd.version_eq] at hcache
  have hnewPlain := hd.newPlainfileSize c hend
  have hnewEnc := hd.newEncryptedFileSize c hend
  have hplain_lt := hd.plain_lt c hend
  have htoSend := hd.toSend_eq c
  have hstart := hd.start_eq c
  have hstop := hd.stopIndex_eq c haddr
  have hfirst : h.chunkReader.filePosToFileChunkIndex (c.start P.length) =
      c.firstChunk h.chunkReader.chunkEncryptor.chunkSize P.length := rfl
  have hcount : c.lastChunk h.chunkReader.chunkEncryptor.chunkSize + 1 -
      c.firstChunk h.chunkReader.chunkEncryptor.chunkSize P.length =
      c.count h.chunkReader.chunkEncryptor.chunkSize P.length := rfl
  have hzero : c.firstChunk h.chunkReader.chunkEncryptor.chunkSize P.length *
      h.chunkReader.chunkEncryptor.chunkSize - c.start P.length = 0 := by
    have := c.firstChunk_mul_le h.chunkReader.chunkEncryptor.chunkSize P.length
    omega
  obtain ⟨p, hshape, hcache', hloop⟩ := FileHandler.createUpdateChunks_spec hB hd c haddr hfile
    le_rfl (c.firstChunk_add_count _ P.length) (.refl _) hcache
    (fun hk => absurd hk (c.count_pos _ _).ne')
  rw [hzero] at hloop
  have hself : h.withProvider h.chunkReader.chunkDataProvider = h := rfl
  rw [hself] at hloop
  refine ⟨p, hshape, hcache', ?_⟩
  unfold FileHandler.prepareWrite
  simp only [htoSend, hstart, hstop, hfirst, hcount]
  rcases hloop with ⟨hholds, hok⟩ | ⟨hv, herr⟩
  · left
    refine ⟨hholds, ?_⟩
    have hsound : HmacList.Sound C { c.hashList C h P checksum n with topHash := none } :=
      ⟨(c.sound_hashList hd).length_eq, fun t ht => absurd ht (by simp)⟩
    have hupd : (List.range' (c.firstChunk h.chunkReader.chunkEncryptor.chunkSize P.length)
        (c.count h.chunkReader.chunkEncryptor.chunkSize P.length)).map (c.update C h P file) =
        c.updates C h P file := rfl
    rw [hupd] at hok hnewPlain hnewEnc
    have hlist : (h.withProvider p).chunkReader.hashList = h.chunkReader.hashList := rfl
    have hsize : (h.withProvider p).plainfileSize = h.plainfileSize := rfl
    have hsize' : (h.withProvider p).encryptedFileSize = h.encryptedFileSize := rfl
    rw [hok]
    simp only [hlist, c.setHashes_updates hd, hsize, hsize', hnewPlain, hnewEnc,
      HmacList.getTopHash_fst hsound, HmacList.getTopHash_snd hsound,
      FileHandler.changes_withProvider, toInt64_of_lt hplain_lt, HmacList.getAll,
      hd.reader.hashes_eq]
    change (match c.encryptMeta h.fileInfo (c.newFileMeta C h P checksum) h.fileEncKey with
      | .error e => (Except.error e, (h.withProvider p).withHashList _, s)
      | .ok m => (Except.ok (c.prepared C h P file checksum m),
          (h.withProvider p).withHashList _, s)) = _
    cases c.encryptMeta h.fileInfo (c.newFileMeta C h P checksum) h.fileEncKey with
    | error e => rfl
    | ok m => rfl
  · right
    refine ⟨hv, ?_⟩
    rw [herr]

end Prepare

end PrivmxEndpoint
