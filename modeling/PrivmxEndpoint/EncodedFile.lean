import PrivmxEndpoint.FileHandler

/-!
# Encoded files and what a reader sees of them

`EncodedFile` says that a blob and a tag string are the chunk-wise encryption
of a plain text.  The number of chunks is a parameter, because an empty write
at a chunk boundary leaves an empty last chunk behind: every chunk before the
last is full, and the last may be short or empty.

`ChunkReader.Describes` ties a chunk reader with both of its caches to such a
file.  Reading any range then returns the range of the plain text, or a
version mismatch when a window has to be fetched and the server has moved on
(`ChunkReader.read_spec`).
-/

namespace PrivmxEndpoint

open Word Splice Blocks

/-- The encrypted chunk of index `i` of a plain text. -/
def encChunk (C : Primitives) (e : ChunkEncryptor) (P : Bytes) (ivs : Nat → Iv) (i : Nat) :
    Chunk :=
  e.encrypt C i (block e.chunkSize P i) (ivs i)

/-- A blob and a tag string encode a plain text in `n` chunks. -/
structure EncodedFile (C : Primitives) (e : ChunkEncryptor) (P : Bytes) (n : Nat)
    (file checksum : Bytes) : Prop where
  encoded : ∃ ivs, file = join (fun i => (encChunk C e P ivs i).data) 0 n ∧
    checksum = join (fun i => (encChunk C e P ivs i).hmac) 0 n
  covers : P.length ≤ n * e.chunkSize
  tight : (n - 1) * e.chunkSize ≤ P.length

section Encoding

variable {C : Primitives} {e : ChunkEncryptor} {P file checksum : Bytes} {n : Nat}

/-- The ciphertext is as long as the padding makes it. -/
theorem length_encChunk_data (ivs : Nat → Iv) (i : Nat) :
    (encChunk C e P ivs i).data.length = encLen (block e.chunkSize P i).length :=
  ChunkEncryptor.length_encrypt_data _ _ _

/-- Every tag has the size of the hash. -/
theorem length_encChunk_hmac (ivs : Nat → Iv) (i : Nat) :
    (encChunk C e P ivs i).hmac.length = HMAC_SIZE :=
  ChunkEncryptor.length_encrypt_hmac _ _ _

/-- A chunk before the last one is full. -/
theorem length_block_before {cs : Nat} (htight : (n - 1) * cs ≤ P.length) {j : Nat}
    (hj : j + 1 < n) : (block cs P j).length = cs := by
  apply length_block_full
  exact le_trans (Nat.mul_le_mul_right cs (by omega)) htight

/-- The ciphertexts lie on the grid of the encoded chunk size. -/
theorem blocked_data (htight : (n - 1) * e.chunkSize ≤ P.length) (ivs : Nat → Iv) :
    Blocked (encLen e.chunkSize) n (fun i => (encChunk C e P ivs i).data) where
  full j hj := by rw [length_encChunk_data, length_block_before htight hj]
  fits j _ := by
    rw [length_encChunk_data]
    exact encLen_mono (length_block_le _ _ _)

/-- The tags lie on the grid of the hash size. -/
theorem blocked_hmac (ivs : Nat → Iv) :
    Blocked HMAC_SIZE n (fun i => (encChunk C e P ivs i).hmac) where
  full j _ := length_encChunk_hmac ivs j
  fits j _ := (length_encChunk_hmac ivs j).le

/-- One tag for each chunk. -/
theorem EncodedFile.length_checksum (h : EncodedFile C e P n file checksum) :
    checksum.length = n * HMAC_SIZE := by
  obtain ⟨ivs, -, rfl⟩ := h.encoded
  exact length_join (fun j _ _ => length_encChunk_hmac ivs j)

/-- The file is no longer than its full chunks. -/
theorem EncodedFile.length_file_le (h : EncodedFile C e P n file checksum) :
    file.length ≤ n * encLen e.chunkSize := by
  obtain ⟨ivs, rfl, -⟩ := h.encoded
  exact (blocked_data h.tight ivs).length_le

/-- The blob is longer than its full chunks by the last chunk. -/
theorem EncodedFile.length_file (h : EncodedFile C e P n file checksum) (hn : 0 < n) :
    file.length = (n - 1) * encLen e.chunkSize + encLen (P.length - (n - 1) * e.chunkSize) := by
  obtain ⟨ivs, rfl, -⟩ := h.encoded
  have hb := blocked_data (C := C) h.tight ivs
  have hsucc : n = (n - 1) + 1 := by omega
  conv_lhs => rw [hsucc]
  rw [length_join_last (b := encLen e.chunkSize) (fun j _ hj => hb.full j (by omega)),
    Nat.zero_add, length_encChunk_data, length_block]
  have hcov := h.covers
  rw [hsucc, Nat.succ_mul] at hcov
  congr 2
  omega

/-- Without chunks there is nothing at all. -/
theorem EncodedFile.eq_nil_of_zero (h : EncodedFile C e P 0 file checksum) :
    P = [] ∧ file = [] ∧ checksum = [] := by
  obtain ⟨ivs, hf, hc⟩ := h.encoded
  have hcov := h.covers
  refine ⟨List.eq_nil_of_length_eq_zero (by omega), ?_, ?_⟩
  · simpa using hf
  · simpa using hc

/-- The stored range of a chunk, empty behind the last one. -/
theorem EncodedFile.slice_file (h : EncodedFile C e P n file checksum) (i : Nat) :
    ∃ ivs, slice file (i * encLen e.chunkSize) (encLen e.chunkSize) =
        (if i < n then (encChunk C e P ivs i).data else []) ∧
      slice checksum (i * HMAC_SIZE) HMAC_SIZE =
        if i < n then (encChunk C e P ivs i).hmac else [] := by
  obtain ⟨ivs, rfl, rfl⟩ := h.encoded
  exact ⟨ivs, slice_join (blocked_data h.tight ivs) i, slice_join (blocked_hmac ivs) i⟩

/-- Behind the last chunk there is no plaintext. -/
theorem EncodedFile.block_eq_nil (h : EncodedFile C e P n file checksum) {i : Nat}
    (hi : n ≤ i) : block e.chunkSize P i = [] := by
  apply slice_eq_nil_of_le
  exact le_trans h.covers (Nat.mul_le_mul_right _ hi)

/-- A position inside the plain text lies in one of the chunks. -/
theorem EncodedFile.index_lt (h : EncodedFile C e P n file checksum) {i : Nat}
    (hi : i * e.chunkSize < P.length) : i < n := by
  by_contra hge
  have := Nat.mul_le_mul_right e.chunkSize (Nat.le_of_not_lt hge)
  have := h.covers
  omega

end Encoding

/-! ## Addressing -/

/-- Windows are numbered along the file. -/
theorem ChunkDataProvider.window_mono (p : ChunkDataProvider) {i j : Nat} (h : i ≤ j) :
    p.window i ≤ p.window j :=
  Nat.div_le_div_right (Nat.mul_le_mul_right _ h)

/-- The chunks before an addressable one are addressable. -/
theorem ChunkDataProvider.Addressable.mono {p : ChunkDataProvider} {i j : Nat}
    (hj : p.Addressable j) (h : i ≤ j) : p.Addressable i where
  index_lt := lt_of_le_of_lt h hj.index_lt
  window_lt := lt_of_le_of_lt (p.window_mono h) hj.window_lt
  end_lt := lt_of_le_of_lt
    (Nat.mul_le_mul_left _ (Nat.succ_le_succ (p.window_mono h))) hj.end_lt

/-- An addressable chunk ends within the signed range. -/
theorem ChunkDataProvider.Addressable.chunk_end_lt {p : ChunkDataProvider} {i : Nat}
    (hs : p.Shaped) (h : p.Addressable i) : (i + 1) * p.encryptedChunkSize < 2 ^ 63 := by
  have h1 := hs.chunk_in_window i
  have h2 := p.window_mul_add i
  have h3 := h.end_lt
  rw [Nat.mul_succ, Nat.mul_comm] at h3
  rw [Nat.succ_mul]
  omega

/-- Two data providers that cut the file in the same way. -/
def ChunkDataProvider.SameShape (p q : ChunkDataProvider) : Prop :=
  q.encryptedChunkSize = p.encryptedChunkSize ∧ q.serverChunkSize = p.serverChunkSize

theorem ChunkDataProvider.SameShape.refl (p : ChunkDataProvider) : p.SameShape p :=
  ⟨rfl, rfl⟩

theorem ChunkDataProvider.SameShape.trans {p q r : ChunkDataProvider} (h : p.SameShape q)
    (h' : q.SameShape r) : p.SameShape r :=
  ⟨h'.1.trans h.1, h'.2.trans h.2⟩

/-- The shape alone decides the window of a chunk. -/
theorem ChunkDataProvider.SameShape.window_eq {p q : ChunkDataProvider} (h : p.SameShape q)
    (i : Nat) : q.window i = p.window i := by
  unfold ChunkDataProvider.window
  rw [h.1, h.2]

/-- The shape alone decides whether a provider is well shaped. -/
theorem ChunkDataProvider.SameShape.shaped {p q : ChunkDataProvider} (h : p.SameShape q)
    (hp : p.Shaped) : q.Shaped := by
  refine ⟨?_, ?_, ?_⟩
  · rw [h.1]; exact hp.chunk_pos
  · rw [h.2]; exact hp.window_pos
  · rw [h.1, h.2]; exact hp.dvd

/-- The shape alone decides which chunks can be addressed. -/
theorem ChunkDataProvider.SameShape.addressable {p q : ChunkDataProvider} (h : p.SameShape q)
    {i : Nat} (hp : p.Addressable i) : q.Addressable i := by
  refine ⟨hp.index_lt, ?_, ?_⟩
  · rw [h.window_eq]; exact hp.window_lt
  · rw [h.window_eq, h.2]; exact hp.end_lt

/-! ## Reading -/

/-- A chunk reader with its caches describes an encoded file at its version. -/
structure ChunkReader.Describes (C : Primitives) (r : ChunkReader) (P : Bytes) (n : Nat)
    (file checksum : Bytes) : Prop where
  encoded : EncodedFile C r.chunkEncryptor P n file checksum
  chunkSize_pos : 0 < r.chunkEncryptor.chunkSize
  shaped : r.chunkDataProvider.Shaped
  encryptedChunkSize_eq :
    r.chunkDataProvider.encryptedChunkSize = encLen r.chunkEncryptor.chunkSize
  cache : r.chunkDataProvider.CacheMatches r.version file
  hashList : r.hashList.Sound C
  hashes_eq : r.hashList.hashes = checksum
  topHashKey_eq : r.hashList.topHashKey = r.chunkEncryptor.key
  lastChunk : ∀ c, r.lastChunk = some c →
    c.index * r.chunkEncryptor.chunkSize < P.length →
      c.decryptedData = block r.chunkEncryptor.chunkSize P c.index

/-- Two states of a reader that differ in the caches only. -/
structure ChunkReader.SameFile (r r' : ChunkReader) : Prop where
  chunkEncryptor_eq : r'.chunkEncryptor = r.chunkEncryptor
  hashList_eq : r'.hashList = r.hashList
  version_eq : r'.version = r.version
  shape : r.chunkDataProvider.SameShape r'.chunkDataProvider

theorem ChunkReader.SameFile.refl (r : ChunkReader) : r.SameFile r :=
  ⟨rfl, rfl, rfl, .refl _⟩

theorem ChunkReader.SameFile.trans {r r' r'' : ChunkReader} (h : r.SameFile r')
    (h' : r'.SameFile r'') : r.SameFile r'' :=
  ⟨h'.1.trans h.1, h'.2.trans h.2, h'.3.trans h.3, h.4.trans h'.4⟩

section Reading

variable {C : Primitives} {r : ChunkReader} {P file checksum : Bytes} {n : Nat}
  {B : Bridge ServerFile} {s : ServerFile}

/-- There is one hash for each chunk. -/
theorem ChunkReader.Describes.size_eq (h : r.Describes C P n file checksum) :
    r.hashList.size = n := by
  have h1 := h.hashList.length_eq
  have h2 := h.encoded.length_checksum
  rw [h.hashes_eq, h2] at h1
  exact (Nat.eq_of_mul_eq_mul_right (by decide) h1).symm

/-- The stored bytes of a chunk decrypt to its plain text. -/
theorem ChunkReader.Describes.decrypt_chunk (h : r.Describes C P n file checksum) {i : Nat}
    (hi : i < n) :
    r.decryptWithHash C i
        (slice file (i * encLen r.chunkEncryptor.chunkSize) (encLen r.chunkEncryptor.chunkSize)) =
      .ok (block r.chunkEncryptor.chunkSize P i) := by
  obtain ⟨ivs, hdata, hhmac⟩ := h.encoded.slice_file i
  rw [if_pos hi] at hdata hhmac
  have hsize := h.size_eq
  rw [ChunkReader.decryptWithHash, HmacList.getHash_eq h.hashList.length_eq (by omega),
    h.hashes_eq, hhmac, hdata]
  exact ChunkEncryptor.decrypt_encrypt _ _ _

/-- A fetched window keeps the description. -/
theorem ChunkReader.Describes.withProvider (h : r.Describes C P n file checksum)
    {p : ChunkDataProvider} (hshape : r.chunkDataProvider.SameShape p)
    (hcache : p.CacheMatches r.version file) :
    ({ r with chunkDataProvider := p } : ChunkReader).Describes C P n file checksum :=
  { h with
    shaped := hshape.shaped h.shaped
    encryptedChunkSize_eq := hshape.1.trans h.encryptedChunkSize_eq
    cache := hcache }

/-- One chunk inside the plain text. -/
theorem ChunkReader.getDecryptedChunk_spec (hB : HonestReads B)
    (h : r.Describes C P n file checksum) {i : Nat} (hi : r.chunkDataProvider.Addressable i)
    (hin : i * r.chunkEncryptor.chunkSize < P.length)
    (hfile : s.version = r.version → s.file = file) :
    ∃ r', r.SameFile r' ∧ r'.Describes C P n file checksum ∧
      (r.getDecryptedChunk C B i s = (.ok (block r.chunkEncryptor.chunkSize P i), r', s) ∨
        s.version ≠ r.version ∧
          r.getDecryptedChunk C B i s = (.error .fileVersionMismatch, r', s)) := by
  have hfetch : ∃ r', r.SameFile r' ∧ r'.Describes C P n file checksum ∧
      (r.fetchChunk C B i s = (.ok (block r.chunkEncryptor.chunkSize P i), r', s) ∨
        s.version ≠ r.version ∧
          r.fetchChunk C B i s = (.error .fileVersionMismatch, r', s)) := by
    have hget := ChunkDataProvider.getChunk_eq hB h.shaped hi h.cache hfile
    have hdec := h.decrypt_chunk (h.encoded.index_lt hin)
    rw [h.encryptedChunkSize_eq] at hget
    by_cases hok : r.chunkDataProvider.Holds r.version i ∨ s.version = r.version
    · rw [if_pos hok] at hget
      have hd := h.withProvider (p := r.chunkDataProvider.loaded r.version i file) ⟨rfl, rfl⟩
        (ChunkDataProvider.cacheMatches_loaded _ _ _ _)
      refine ⟨{ r with
        chunkDataProvider := r.chunkDataProvider.loaded r.version i file
        lastChunk := some
          { decryptedData := block r.chunkEncryptor.chunkSize P i, index := i } },
        ⟨rfl, rfl, rfl, rfl, rfl⟩, { hd with lastChunk := ?_ }, Or.inl ?_⟩
      · intro c hc _
        cases hc
        rfl
      · simp only [ChunkReader.fetchChunk, hget, hdec]
    · rw [if_neg hok] at hget
      have hshape : r.chunkDataProvider.SameShape (r.chunkDataProvider.forVersion r.version) := by
        unfold ChunkDataProvider.forVersion
        split <;> exact ⟨rfl, rfl⟩
      refine ⟨{ r with chunkDataProvider := r.chunkDataProvider.forVersion r.version },
        ⟨rfl, rfl, rfl, hshape⟩, h.withProvider hshape h.cache.forVersion, Or.inr ⟨?_, ?_⟩⟩
      · exact fun hv => hok (Or.inr hv)
      · simp only [ChunkReader.fetchChunk, hget]
  unfold ChunkReader.getDecryptedChunk
  cases hlast : r.lastChunk with
  | none => exact hfetch
  | some c =>
      simp only
      by_cases hidx : c.index = i
      · have hdata := h.lastChunk c hlast (by rw [hidx]; exact hin)
        rw [if_pos hidx, hdata, hidx]
        exact ⟨r, .refl r, h, Or.inl rfl⟩
      · rw [if_neg hidx]
        exact hfetch

/-- The loop over consecutive chunks returns their concatenation. -/
theorem ChunkReader.getDecryptedChunks_spec (hB : HonestReads B)
    (h : r.Describes C P n file checksum) {k i : Nat}
    (hi : ∀ j, i ≤ j → j < i + k → r.chunkDataProvider.Addressable j ∧
      j * r.chunkEncryptor.chunkSize < P.length)
    (hfile : s.version = r.version → s.file = file) :
    ∃ r', r.SameFile r' ∧ r'.Describes C P n file checksum ∧
      (ChunkReader.getDecryptedChunks C B k i r s =
          (.ok (join (block r.chunkEncryptor.chunkSize P) i k), r', s) ∨
        s.version ≠ r.version ∧
          ChunkReader.getDecryptedChunks C B k i r s = (.error .fileVersionMismatch, r', s)) := by
  induction k generalizing i r with
  | zero => exact ⟨r, .refl r, h, Or.inl (by simp [ChunkReader.getDecryptedChunks])⟩
  | succ k ih =>
      obtain ⟨haddr, hin⟩ := hi i le_rfl (by omega)
      obtain ⟨r₁, hsame, hd, hcall⟩ := ChunkReader.getDecryptedChunk_spec hB h haddr hin hfile
      rcases hcall with hok | ⟨hv, herr⟩
      · obtain ⟨r₂, hsame₂, hd₂, hrest⟩ := ih (i := i + 1) hd
          (fun j h1 h2 => by
            obtain ⟨ha, hb⟩ := hi j (by omega) (by omega)
            rw [hsame.chunkEncryptor_eq]
            exact ⟨hsame.shape.addressable ha, hb⟩)
          (fun hv => hfile (hv.trans hsame.version_eq))
        rw [hsame.chunkEncryptor_eq, hsame.version_eq] at hrest
        refine ⟨r₂, hsame.trans hsame₂, hd₂, ?_⟩
        rcases hrest with hok₂ | ⟨hv, herr⟩
        · left
          simp only [ChunkReader.getDecryptedChunks, hok, hok₂, join_succ]
        · right
          exact ⟨hv, by simp only [ChunkReader.getDecryptedChunks, hok, herr]⟩
      · refine ⟨r₁, hsame, hd, Or.inr ⟨hv, ?_⟩⟩
        simp only [ChunkReader.getDecryptedChunks, herr]

/-- The chunk with the last byte of a read. -/
def lastReadChunk (cs size pos length : Nat) : Nat :=
  (min (pos + length) size - 1) / cs

/-- A range cut out of the chunks it touches. -/
theorem slice_join_block {cs pos len : Nat} (hcs : 0 < cs) (hlen : 0 < len)
    (hend : pos + len ≤ P.length) :
    substr (join (block cs P) (pos / cs) ((pos + len - 1) / cs + 1 - pos / cs)) (pos % cs) len =
      .ok (slice P pos len) := by
  have hdm := Nat.div_add_mod pos cs
  have hlt := Nat.mod_lt pos hcs
  have hmono : pos / cs ≤ (pos + len - 1) / cs := Nat.div_le_div_right (by omega)
  have hstop := Nat.lt_mul_div_succ (pos + len - 1) hcs
  have hmul : pos / cs * cs = cs * (pos / cs) := Nat.mul_comm _ _
  have hcount : pos / cs * cs + ((pos + len - 1) / cs + 1 - pos / cs) * cs =
      cs * ((pos + len - 1) / cs + 1) := by
    rw [← Nat.add_mul, Nat.mul_comm]
    congr 1
    omega
  rw [join_block, substr_of_le]
  · rw [slice_slice (by omega)]
    congr 2
    omega
  · rw [length_slice]
    omega

/-- A read that reads something runs over the chunks from the first to the last
one of its range. -/
theorem ChunkReader.read_eq {pos length size : Nat} (hsum : pos + length < 2 ^ 64)
    (hpos : pos < size) (hlen : 0 < length) {result : Except StoreError Bytes} {r' : ChunkReader}
    {s' : ServerFile}
    (hcall : ChunkReader.getDecryptedChunks C B
      (lastReadChunk r.chunkEncryptor.chunkSize size pos length + 1 -
        pos / r.chunkEncryptor.chunkSize) (pos / r.chunkEncryptor.chunkSize) r s =
          (result, r', s')) :
    r.read C B size pos length s =
      (result.bind fun data =>
        substr data (r'.filePosToPosInFileChunk pos) (min length (size - pos)), r', s') := by
  have hclip : (if pos + length > size then size - pos else length) = min length (size - pos) := by
    split <;> omega
  have hlast : u64 (pos + min length (size - pos) - 1) = min (pos + length) size - 1 := by
    rw [u64_of_lt (by omega)]
    omega
  have hzero : ¬ min length (size - pos) = 0 := by omega
  have hchunks : ChunkReader.getDecryptedChunks C B
      (r.filePosToFileChunkIndex (min (pos + length) size - 1) + 1 -
        r.filePosToFileChunkIndex pos) (r.filePosToFileChunkIndex pos) r s = (result, r', s') :=
    hcall
  unfold ChunkReader.read
  rw [if_neg (by omega), u64_of_lt hsum]
  simp only [hclip, hzero, if_false, hlast, hchunks]
  cases result <;> rfl

/-- Nothing is read behind the end, and nothing changes. -/
theorem ChunkReader.read_nil {pos length size : Nat} (hsum : pos + length < 2 ^ 64)
    (h : ¬ (pos < size ∧ 0 < length)) : r.read C B size pos length s = (.ok [], r, s) := by
  unfold ChunkReader.read
  by_cases hpos : pos ≥ size
  · rw [if_pos hpos]
  · obtain rfl : length = 0 := by omega
    have hclip : ¬ pos + 0 > size := by omega
    rw [if_neg hpos, u64_of_lt hsum]
    simp only [hclip, if_false, if_true]

/-- The chunks of a read are addressable and lie in the plain text. -/
theorem ChunkReader.Describes.chunks_of_read (h : r.Describes C P n file checksum)
    {pos length : Nat} (hpos : pos < P.length) (hlen : 0 < length)
    (haddr : r.chunkDataProvider.Addressable
      (lastReadChunk r.chunkEncryptor.chunkSize P.length pos length)) {j : Nat}
    (hj : j < pos / r.chunkEncryptor.chunkSize +
      (lastReadChunk r.chunkEncryptor.chunkSize P.length pos length + 1 -
        pos / r.chunkEncryptor.chunkSize)) :
    r.chunkDataProvider.Addressable j ∧ j * r.chunkEncryptor.chunkSize < P.length := by
  have hmono : pos / r.chunkEncryptor.chunkSize ≤
      lastReadChunk r.chunkEncryptor.chunkSize P.length pos length :=
    Nat.div_le_div_right (by omega)
  have hle : j ≤ lastReadChunk r.chunkEncryptor.chunkSize P.length pos length := by omega
  have hmul := (Nat.le_div_iff_mul_le h.chunkSize_pos).mp hle
  exact ⟨haddr.mono hle, by omega⟩

/-- The chunks of a read, cut to its range. -/
theorem substr_lastReadChunk {cs pos length : Nat} (hcs : 0 < cs) (hpos : pos < P.length)
    (hlen : 0 < length) :
    substr (join (block cs P) (pos / cs) (lastReadChunk cs P.length pos length + 1 - pos / cs))
      (pos % cs) (min length (P.length - pos)) = .ok (slice P pos length) := by
  obtain ⟨len, hmin⟩ : ∃ len, len = min length (P.length - pos) := ⟨_, rfl⟩
  have hlast : lastReadChunk cs P.length pos length = (pos + len - 1) / cs := by
    unfold lastReadChunk
    congr 1
    omega
  rw [hlast, ← hmin, slice_join_block hcs (by omega) (by omega), hmin, slice_min_length]

/-- There is nothing to read behind the end or with the length zero. -/
theorem slice_eq_nil_of_not {pos length : Nat} (h : ¬ (pos < P.length ∧ 0 < length)) :
    slice P pos length = [] := by
  rcases Nat.lt_or_ge pos P.length with hpos | hpos
  · have hlen : length = 0 := by omega
    simp [slice, hlen]
  · exact slice_eq_nil_of_le length hpos

/-- **Reading a range.**  A read returns the range of the plain text; it can
only fail because a window had to be fetched at a version the server no longer
has. -/
theorem ChunkReader.read_spec (hB : HonestReads B) (h : r.Describes C P n file checksum)
    {pos length : Nat} (hsum : pos + length < 2 ^ 64)
    (haddr : pos < P.length → 0 < length →
      r.chunkDataProvider.Addressable
        (lastReadChunk r.chunkEncryptor.chunkSize P.length pos length))
    (hfile : s.version = r.version → s.file = file) :
    ∃ r', r.SameFile r' ∧ r'.Describes C P n file checksum ∧
      (r.read C B P.length pos length s = (.ok (slice P pos length), r', s) ∨
        s.version ≠ r.version ∧
          r.read C B P.length pos length s = (.error .fileVersionMismatch, r', s)) := by
  by_cases hin : pos < P.length ∧ 0 < length
  · obtain ⟨hpos, hlen⟩ := hin
    obtain ⟨r', hsame, hd, hcall⟩ := ChunkReader.getDecryptedChunks_spec hB h
      (fun j _ hj => h.chunks_of_read hpos hlen (haddr hpos hlen) hj) hfile
    refine ⟨r', hsame, hd, ?_⟩
    rcases hcall with hok | ⟨hv, herr⟩
    · left
      rw [ChunkReader.read_eq hsum hpos hlen hok]
      simp only [Except.bind, ChunkReader.filePosToPosInFileChunk, hsame.chunkEncryptor_eq,
        ChunkEncryptor.getPlainChunkSize]
      rw [substr_lastReadChunk h.chunkSize_pos hpos hlen]
    · right
      exact ⟨hv, ChunkReader.read_eq hsum hpos hlen herr⟩
  · rw [ChunkReader.read_nil hsum hin, slice_eq_nil_of_not hin]
    exact ⟨r, .refl r, h, Or.inl rfl⟩

end Reading

end PrivmxEndpoint
