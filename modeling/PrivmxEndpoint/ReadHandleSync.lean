import PrivmxEndpoint.ReadSessions

/-!
# What a failed `sync` leaves of a read handle

Behind the comparison of sizes a `sync` that throws has replaced the encryptor, while
the tags, the windows, the version and the size are still the old ones.  With another
chunk size the reader then looks for a position in the wrong chunk; with another key it
serves the chunk it has kept and throws everywhere else.

The exact condition under which this does no harm is `ReadSession.Harmless`: the text lies
in one chunk under both sizes, or nothing that is kept can be reached any more.
-/

namespace PrivmxEndpoint

open Word Splice Blocks Runs

/-- An event behind a failed `sync`: a sound one that is no `sync` itself. -/
def ReadEvent.Later (C : Primitives) (x : ReadSession) (a : ReadEvent) : Prop :=
  a.Sound C x ∧ ∀ F newParms text, a ≠ .sync F newParms text

/-- Whatever happens later, a read returns in the second session what it returns in the
first. -/
def ReadSession.SameReads (C : Primitives) (x x' : ReadSession) : Prop :=
  ∀ events y, Run (guarded (ReadEvent.Later C) (ReadEvent.step C)) x events y →
    ∃ y', Run (ReadEvent.step C) x' events y' ∧
      ∀ F length, y.handle.pos + length < 2 ^ 64 → y'.read C F length = y.read C F length

/-- Whatever happens later, a read that has something to read throws. -/
def ReadSession.Silent (C : Primitives) (x : ReadSession) : Prop :=
  ∀ events y, Run (guarded (ReadEvent.Later C) (ReadEvent.step C)) x events y →
    ∀ F length, 0 < length → y.handle.pos < y.handle.size → y.handle.pos + length < 2 ^ 64 →
      ∃ e, y.read C F length = .error e

/-- The handle that a failed `sync` leaves reads as before, or every read throws. -/
def ReadSession.Usable (C : Primitives) (x : ReadSession) (h : FileReadHandle) : Prop :=
  x.SameReads C { x with handle := h } ∨ ReadSession.Silent C { x with handle := h }

/-- The text lies in the first chunk, under the old chunk size and under the new one. -/
def ReadSession.OneChunk (x : ReadSession) (d : FileDecryptionParams) : Prop :=
  x.handle.size ≤ min d.chunkSize x.handle.reader.chunkEncryptor.chunkSize

/-- The new encryptor does no harm: with the old key, if the chunk size is the old one or
there is one chunk; with another key, if there is one chunk and it is kept, or what is
kept lies behind the end. -/
def ReadSession.Harmless (x : ReadSession) (d : FileDecryptionParams) : Prop :=
  if d.key = x.handle.reader.chunkEncryptor.key then
    d.chunkSize = x.handle.reader.chunkEncryptor.chunkSize ∨ x.OneChunk d
  else
    ∀ c, x.handle.reader.lastChunk = some c →
      x.OneChunk d ∨ x.handle.size ≤ c.index * d.chunkSize

/-- No chunk of the text has the same tag under the new key. -/
def ReadSession.Separates (C : Primitives) (x : ReadSession) (d : FileDecryptionParams) : Prop :=
  d.key ≠ x.handle.reader.chunkEncryptor.key →
    ∀ i iv,
      C.hmacSha256 (chunkKey C d.key i)
          (ivWithCipher C x.handle.reader.chunkEncryptor.key i
            (block x.handle.reader.chunkEncryptor.chunkSize x.text i) iv) ≠
        C.hmacSha256 (chunkKey C x.handle.reader.chunkEncryptor.key i)
          (ivWithCipher C x.handle.reader.chunkEncryptor.key i
            (block x.handle.reader.chunkEncryptor.chunkSize x.text i) iv)

/-! ## The reader with another encryptor -/

section Reader

variable {C : Primitives} {r : ChunkReader} {P file checksum : Bytes} {n : Nat}
  {B : Bridge ServerFile} {s : ServerFile} {e : ChunkEncryptor} {i : Nat}

/-- Decryption depends on the key only. -/
theorem ChunkReader.decryptWithHash_withEncryptor (hkey : e.key = r.chunkEncryptor.key) (i : Nat)
    (data : Bytes) :
    (r.withEncryptor e).decryptWithHash C i data = r.decryptWithHash C i data := by
  obtain ⟨p, ⟨key, cs⟩, l, v, c⟩ := r
  obtain ⟨key', cs'⟩ := e
  obtain rfl : key' = key := hkey
  rfl

/-- One chunk under the same key, or one that is kept. -/
theorem ChunkReader.getDecryptedChunk_withEncryptor
    (h : e.key = r.chunkEncryptor.key ∨ ∃ c, r.lastChunk = some c ∧ c.index = i) :
    (r.withEncryptor e).getDecryptedChunk C B i s =
      ((r.getDecryptedChunk C B i s).1, (r.getDecryptedChunk C B i s).2.1.withEncryptor e,
        (r.getDecryptedChunk C B i s).2.2) := by
  have hfetch : e.key = r.chunkEncryptor.key → (r.withEncryptor e).fetchChunk C B i s =
      ((r.fetchChunk C B i s).1, (r.fetchChunk C B i s).2.1.withEncryptor e,
        (r.fetchChunk C B i s).2.2) := by
    intro hkey
    have hprovider : (r.withEncryptor e).chunkDataProvider = r.chunkDataProvider := rfl
    have hversion : (r.withEncryptor e).version = r.version := rfl
    unfold ChunkReader.fetchChunk
    rw [hprovider, hversion]
    cases r.chunkDataProvider.getChunk B (u32 i) r.version s with
    | mk result rest =>
        obtain ⟨p, s₁⟩ := rest
        cases result with
        | error err => rfl
        | ok data =>
            dsimp only
            rw [ChunkReader.decryptWithHash_withEncryptor hkey]
            cases r.decryptWithHash C i data with
            | error err => rfl
            | ok plain => rfl
  have hlastChunk : (r.withEncryptor e).lastChunk = r.lastChunk := rfl
  unfold ChunkReader.getDecryptedChunk
  rw [hlastChunk]
  cases hc : r.lastChunk with
  | none =>
      rcases h with hkey | ⟨c, hsome, -⟩
      · exact hfetch hkey
      · rw [hc] at hsome
        cases hsome
  | some c =>
      dsimp only
      by_cases hindex : c.index = i
      · rw [if_pos hindex, if_pos hindex]
      · rw [if_neg hindex, if_neg hindex]
        rcases h with hkey | ⟨c', hsome, hindex'⟩
        · exact hfetch hkey
        · rw [hc] at hsome
          obtain rfl := Option.some.inj hsome
          exact absurd hindex' hindex

/-- Reading a chunk leaves the encryptor. -/
theorem ChunkReader.getDecryptedChunk_chunkEncryptor (i : Nat) :
    (r.getDecryptedChunk C B i s).2.1.chunkEncryptor = r.chunkEncryptor := by
  have hfetch : (r.fetchChunk C B i s).2.1.chunkEncryptor = r.chunkEncryptor := by
    unfold ChunkReader.fetchChunk
    split
    · rfl
    · split <;> rfl
  unfold ChunkReader.getDecryptedChunk
  split
  · exact hfetch
  · split
    · rfl
    · exact hfetch

/-- A read of one chunk. -/
theorem ChunkReader.getDecryptedChunks_one (i : Nat) :
    ChunkReader.getDecryptedChunks C B 1 i r s = r.getDecryptedChunk C B i s := by
  simp only [ChunkReader.getDecryptedChunks]
  cases r.getDecryptedChunk C B i s with
  | mk result rest =>
      obtain ⟨r₁, s₁⟩ := rest
      cases result with
      | error err => rfl
      | ok chunk => simp

/-- **A text in one chunk** is read alike with both encryptors. -/
theorem ChunkReader.read_oneChunk {size pos length : Nat} (hsum : pos + length < 2 ^ 64)
    (hsize : size ≤ min e.chunkSize r.chunkEncryptor.chunkSize)
    (h : e.key = r.chunkEncryptor.key ∨ ∃ c, r.lastChunk = some c ∧ c.index = 0) :
    ∃ result r' s', r.read C B size pos length s = (result, r', s') ∧
      (r.withEncryptor e).read C B size pos length s = (result, r'.withEncryptor e, s') ∧
      r'.chunkEncryptor = r.chunkEncryptor ∧
      (e.key = r.chunkEncryptor.key ∨ ∃ c, r'.lastChunk = some c ∧ c.index = 0) := by
  by_cases hin : pos < size ∧ 0 < length
  · obtain ⟨hpos, hlen⟩ := hin
    have hone : ∀ cs, size ≤ cs →
        lastReadChunk cs size pos length + 1 - pos / cs = 1 ∧ pos / cs = 0 ∧ pos % cs = pos := by
      intro cs hcs
      have hlast : lastReadChunk cs size pos length = 0 := Nat.div_eq_of_lt (by omega)
      have hfirst : pos / cs = 0 := Nat.div_eq_of_lt (by omega)
      exact ⟨by omega, hfirst, Nat.mod_eq_of_lt (by omega)⟩
    obtain ⟨hcount, hfirst, hmod⟩ := hone r.chunkEncryptor.chunkSize (by omega)
    obtain ⟨hcount', hfirst', hmod'⟩ := hone e.chunkSize (by omega)
    have hcall := ChunkReader.getDecryptedChunk_withEncryptor (C := C) (B := B) (s := s) h
    have henc := ChunkReader.getDecryptedChunk_chunkEncryptor (C := C) (B := B) (r := r) (s := s) 0
    have hkept : ∀ c, r.lastChunk = some c → c.index = 0 →
        (r.getDecryptedChunk C B 0 s).2.1 = r := by
      intro c hc hindex
      simp only [ChunkReader.getDecryptedChunk, hc, hindex, if_true]
    obtain ⟨⟨result, r₁, s₁⟩, hchunk⟩ : ∃ out, r.getDecryptedChunk C B 0 s = out := ⟨_, rfl⟩
    rw [hchunk] at hcall henc hkept
    have hloop : ChunkReader.getDecryptedChunks C B
        (lastReadChunk r.chunkEncryptor.chunkSize size pos length + 1 -
          pos / r.chunkEncryptor.chunkSize) (pos / r.chunkEncryptor.chunkSize) r s =
        (result, r₁, s₁) := by
      rw [hcount, hfirst, ChunkReader.getDecryptedChunks_one]
      exact hchunk
    have hloop' : ChunkReader.getDecryptedChunks C B
        (lastReadChunk e.chunkSize size pos length + 1 - pos / e.chunkSize) (pos / e.chunkSize)
        (r.withEncryptor e) s = (result, r₁.withEncryptor e, s₁) := by
      rw [hcount', hfirst', ChunkReader.getDecryptedChunks_one]
      exact hcall
    have hpart : (r₁.withEncryptor e).filePosToPosInFileChunk pos =
        r₁.filePosToPosInFileChunk pos := by
      have hr₁ : r₁.filePosToPosInFileChunk pos = pos % r.chunkEncryptor.chunkSize :=
        congrArg (fun e => pos % e.chunkSize) henc
      have he : (r₁.withEncryptor e).filePosToPosInFileChunk pos = pos % e.chunkSize := rfl
      rw [hr₁, he, hmod, hmod']
    refine ⟨_, r₁, s₁, ChunkReader.read_eq hsum hpos hlen hloop, ?_, henc, ?_⟩
    · rw [ChunkReader.read_eq (r := r.withEncryptor e) hsum hpos hlen hloop', hpart]
    · rcases h with hkey | ⟨c, hc, hindex⟩
      · exact Or.inl hkey
      · obtain rfl := hkept c hc hindex
        exact Or.inr ⟨c, hc, hindex⟩
  · exact ⟨_, r, s, ChunkReader.read_nil hsum hin, ChunkReader.read_nil hsum hin, rfl, h⟩

/-- A chunk does not decrypt under a key that gives it another tag. -/
theorem ChunkEncryptor.decrypt_other {e' : ChunkEncryptor} {data : Bytes} {iv : Iv}
    (hne : C.hmacSha256 (chunkKey C e'.key i) (ivWithCipher C e.key i data iv) ≠
      C.hmacSha256 (chunkKey C e.key i) (ivWithCipher C e.key i data iv)) (plain : Bytes) :
    e'.decrypt C i (e.encrypt C i data iv) ≠ .ok plain := by
  have htag : (e.encrypt C i data iv).hmac.length = HMAC_SIZE :=
    ChunkEncryptor.length_encrypt_hmac _ _ _
  have hdata : (e.encrypt C i data iv).data =
      (e.encrypt C i data iv).hmac ++ ivWithCipher C e.key i data iv := rfl
  have htake : (e.encrypt C i data iv).data.take HMAC_SIZE = (e.encrypt C i data iv).hmac := by
    rw [hdata, ← htag, List.take_left]
  have hdrop : (e.encrypt C i data iv).data.drop HMAC_SIZE = ivWithCipher C e.key i data iv := by
    rw [hdata, ← htag, List.drop_left]
  have hlength : ¬ (e.encrypt C i data iv).data.length < HMAC_SIZE := by
    rw [hdata, List.length_append, htag]
    omega
  have hne' : (e.encrypt C i data iv).hmac ≠
      C.hmacSha256 (chunkKey C e'.key i) (ivWithCipher C e.key i data iv) := fun h => hne h.symm
  rw [ChunkEncryptor.decrypt]
  simp only [htake, hdrop, ne_eq, not_true_eq_false, if_false, hlength]
  rw [if_pos hne']
  exact fun h => by cases h

/-- Behind the last chunk nothing decrypts. -/
theorem ChunkReader.Describes.decryptWithHash_behind (hd : r.Describes C P n file checksum)
    (hi : n ≤ i) (data plain : Bytes) :
    (r.withEncryptor e).decryptWithHash C i data ≠ .ok plain := by
  have hsize := hd.size_eq
  intro h
  unfold ChunkReader.decryptWithHash at h
  split at h
  · cases h
  · rename_i hmac hhash
    have hlength := hd.hashList.length_eq
    have hle : i ≤ r.hashList.size := by
      by_contra hgt
      have hgt : i > (r.withEncryptor e).hashList.size := Nat.lt_of_not_le hgt
      have herr : (r.withEncryptor e).hashList.getHash i = .error .hashIndexOutOfBounds :=
        if_pos hgt
      rw [herr] at hhash
      cases hhash
    have hget : (r.withEncryptor e).hashList.getHash i = _ := HmacList.getHash_eq hlength hle
    rw [hget] at hhash
    obtain rfl := Except.ok.inj hhash
    obtain ⟨ivs, -, htag⟩ := hd.encoded.slice_file i
    rw [hd.hashes_eq, htag, if_neg (by omega)] at h
    exact ChunkEncryptor.decrypt_empty_tag _ _ _ _ h

/-- The stored chunks do not decrypt under a key that separates them. -/
theorem ChunkReader.Describes.decryptWithHash_ne_ok (hd : r.Describes C P n file checksum)
    (hsep : ∀ iv,
      C.hmacSha256 (chunkKey C e.key i)
          (ivWithCipher C r.chunkEncryptor.key i (block r.chunkEncryptor.chunkSize P i) iv) ≠
        C.hmacSha256 (chunkKey C r.chunkEncryptor.key i)
          (ivWithCipher C r.chunkEncryptor.key i (block r.chunkEncryptor.chunkSize P i) iv))
    (plain : Bytes) :
    (r.withEncryptor e).decryptWithHash C i
        (slice file (i * encLen r.chunkEncryptor.chunkSize) (encLen r.chunkEncryptor.chunkSize)) ≠
      .ok plain := by
  by_cases hi : i < n
  · obtain ⟨ivs, hdata, htag⟩ := hd.encoded.slice_file i
    rw [if_pos hi] at hdata htag
    have hsize := hd.size_eq
    have hget : (r.withEncryptor e).hashList.getHash i = _ :=
      HmacList.getHash_eq hd.hashList.length_eq (by omega)
    rw [ChunkReader.decryptWithHash, hget, hd.hashes_eq, htag, hdata]
    exact ChunkEncryptor.decrypt_other (hsep (ivs i)) plain
  · exact hd.decryptWithHash_behind (by omega) _ _

/-- One chunk under a key that separates it, if it is not the kept one. -/
theorem ChunkReader.getDecryptedChunk_muted (F : Faults) (hd : r.Describes C P n file checksum)
    (hfile : s.version = r.version → s.file = file) (haddr : r.chunkDataProvider.Addressable i)
    (hsep : ∀ iv,
      C.hmacSha256 (chunkKey C e.key i)
          (ivWithCipher C r.chunkEncryptor.key i (block r.chunkEncryptor.chunkSize P i) iv) ≠
        C.hmacSha256 (chunkKey C r.chunkEncryptor.key i)
          (ivWithCipher C r.chunkEncryptor.key i (block r.chunkEncryptor.chunkSize P i) iv))
    (hkept : ∀ c, r.lastChunk = some c → c.index ≠ i) :
    ∃ err q, r.chunkDataProvider.SameShape q ∧ q.CacheMatches r.version file ∧
      (r.withEncryptor e).getDecryptedChunk C (faultyBridge F) i s =
        (.error err, ChunkReader.withEncryptor { r with chunkDataProvider := q } e, s) := by
  have hfetch : ∃ err q, r.chunkDataProvider.SameShape q ∧ q.CacheMatches r.version file ∧
      (r.withEncryptor e).fetchChunk C (faultyBridge F) i s =
        (.error err, ChunkReader.withEncryptor { r with chunkDataProvider := q } e, s) := by
    obtain ⟨q, hq, hget⟩ := ChunkDataProvider.getChunk_keeps F hd.shaped haddr hd.cache hfile
    have hprovider : (r.withEncryptor e).chunkDataProvider = r.chunkDataProvider := rfl
    have hversion : (r.withEncryptor e).version = r.version := rfl
    unfold ChunkReader.fetchChunk
    rw [hprovider, hversion]
    rcases hget with hok | ⟨err, herr⟩
    · rw [hd.encryptedChunkSize_eq] at hok
      rw [hok]
      dsimp only
      cases hplain : (r.withEncryptor e).decryptWithHash C i (slice file
          (i * encLen r.chunkEncryptor.chunkSize) (encLen r.chunkEncryptor.chunkSize)) with
      | ok plain => exact absurd hplain (hd.decryptWithHash_ne_ok hsep plain)
      | error err => exact ⟨err, q, hq.shape, hq.cache, rfl⟩
    · rw [herr]
      exact ⟨err, q, hq.shape, hq.cache, rfl⟩
  obtain ⟨err, q, hshape, hcache, hfetch⟩ := hfetch
  refine ⟨err, q, hshape, hcache, ?_⟩
  unfold ChunkReader.getDecryptedChunk
  split
  · exact hfetch
  · rename_i c hc
    rw [if_neg (hkept c hc)]
    exact hfetch

/-- **Another key, and nothing kept that can be reached.**  A read that has something to
read throws, and moves the window cache only. -/
theorem ChunkReader.read_muted {F : Faults} (hd : r.Describes C P n file checksum)
    (hfile : s.version = r.version → s.file = file)
    (hsep : ∀ i iv,
      C.hmacSha256 (chunkKey C e.key i)
          (ivWithCipher C r.chunkEncryptor.key i (block r.chunkEncryptor.chunkSize P i) iv) ≠
        C.hmacSha256 (chunkKey C r.chunkEncryptor.key i)
          (ivWithCipher C r.chunkEncryptor.key i (block r.chunkEncryptor.chunkSize P i) iv))
    (hkept : ∀ c, r.lastChunk = some c → P.length ≤ c.index * e.chunkSize)
    (hreaches : r.chunkDataProvider.Reaches e.chunkSize P.length) {pos length : Nat}
    (hsum : pos + length < 2 ^ 64) (hpos : pos < P.length) (hlen : 0 < length) :
    ∃ err q, r.chunkDataProvider.SameShape q ∧ q.CacheMatches r.version file ∧
      (r.withEncryptor e).read C (faultyBridge F) P.length pos length s =
        (.error err, ChunkReader.withEncryptor { r with chunkDataProvider := q } e, s) := by
  obtain ⟨i, hi⟩ : ∃ i, i = pos / e.chunkSize := ⟨_, rfl⟩
  have hin : i * e.chunkSize < P.length := by
    rw [hi]
    exact lt_of_le_of_lt (Nat.div_mul_le_self _ _) hpos
  have hindex : ∀ c, r.lastChunk = some c → c.index ≠ i := by
    intro c hc hindex
    have hle := hkept c hc
    rw [hindex] at hle
    omega
  obtain ⟨err, q, hshape, hcache, hchunk⟩ := ChunkReader.getDecryptedChunk_muted F hd hfile
    (hreaches i hin) (hsep i) hindex
  have hmono : pos / e.chunkSize ≤ lastReadChunk e.chunkSize P.length pos length :=
    Nat.div_le_div_right (by omega)
  obtain ⟨k, hk⟩ : ∃ k, lastReadChunk e.chunkSize P.length pos length + 1 - pos / e.chunkSize =
      k + 1 := ⟨lastReadChunk e.chunkSize P.length pos length - pos / e.chunkSize, by omega⟩
  have hloop : ChunkReader.getDecryptedChunks C (faultyBridge F)
      (lastReadChunk e.chunkSize P.length pos length + 1 - pos / e.chunkSize) (pos / e.chunkSize)
      (r.withEncryptor e) s =
      (.error err, ChunkReader.withEncryptor { r with chunkDataProvider := q } e, s) := by
    rw [hk, ← hi]
    simp only [ChunkReader.getDecryptedChunks, hchunk]
  exact ⟨err, q, hshape, hcache,
    ChunkReader.read_eq (r := r.withEncryptor e) hsum hpos hlen hloop⟩

/-- A read of one byte looks into one chunk. -/
theorem ChunkReader.read_byte {size pos : Nat} (hsum : pos + 1 < 2 ^ 64) (hpos : pos < size) :
    (r.read C B size pos 1 s).1 =
      (r.getDecryptedChunk C B (pos / r.chunkEncryptor.chunkSize) s).1.bind fun data =>
        substr data (pos % r.chunkEncryptor.chunkSize) 1 := by
  obtain ⟨⟨result, r₁, s₁⟩, hchunk⟩ : ∃ out,
      r.getDecryptedChunk C B (pos / r.chunkEncryptor.chunkSize) s = out := ⟨_, rfl⟩
  have henc := ChunkReader.getDecryptedChunk_chunkEncryptor (C := C) (B := B) (r := r) (s := s)
    (pos / r.chunkEncryptor.chunkSize)
  rw [hchunk] at henc
  have hlast : lastReadChunk r.chunkEncryptor.chunkSize size pos 1 =
      pos / r.chunkEncryptor.chunkSize := by
    unfold lastReadChunk
    congr 1
    omega
  have hloop : ChunkReader.getDecryptedChunks C B
      (lastReadChunk r.chunkEncryptor.chunkSize size pos 1 + 1 -
        pos / r.chunkEncryptor.chunkSize) (pos / r.chunkEncryptor.chunkSize) r s =
      (result, r₁, s₁) := by
    rw [hlast, Nat.add_sub_cancel_left, ChunkReader.getDecryptedChunks_one]
    exact hchunk
  have hmin : min 1 (size - pos) = 1 := by omega
  have hpart : r₁.filePosToPosInFileChunk pos = pos % r.chunkEncryptor.chunkSize :=
    congrArg (fun e => pos % e.chunkSize) henc
  rw [ChunkReader.read_eq hsum hpos Nat.one_pos hloop, hchunk, hpart, hmin]

/-- What a reader returns for an index is the chunk of the text. -/
theorem ChunkReader.Describes.chunk_eq (hd : r.Describes C P n file checksum)
    (hfile : s.version = r.version → s.file = file) (haddr : r.chunkDataProvider.Addressable i)
    (hkept : ∀ c, r.lastChunk = some c → c.index * r.chunkEncryptor.chunkSize < P.length)
    {chunk : Bytes} (h : (r.getDecryptedChunk C versionedBridge i s).1 = .ok chunk) :
    chunk = block r.chunkEncryptor.chunkSize P i := by
  have hfetch : (r.fetchChunk C versionedBridge i s).1 = .ok chunk →
      chunk = block r.chunkEncryptor.chunkSize P i := by
    have hget := ChunkDataProvider.getChunk_eq honestReads_versionedBridge hd.shaped haddr hd.cache
      hfile
    rw [hd.encryptedChunkSize_eq] at hget
    intro h
    unfold ChunkReader.fetchChunk at h
    by_cases hok : r.chunkDataProvider.Holds r.version i ∨ s.version = r.version
    · rw [if_pos hok] at hget
      simp only [hget] at h
      by_cases hi : i < n
      · rw [hd.decrypt_chunk hi] at h
        exact (Except.ok.inj h).symm
      · have hnot := hd.decryptWithHash_behind (e := r.chunkEncryptor) (Nat.le_of_not_lt hi)
          (slice file (i * encLen r.chunkEncryptor.chunkSize)
            (encLen r.chunkEncryptor.chunkSize))
        have hself : r.withEncryptor r.chunkEncryptor = r := rfl
        rw [hself] at hnot
        cases hplain : r.decryptWithHash C i (slice file (i * encLen r.chunkEncryptor.chunkSize)
            (encLen r.chunkEncryptor.chunkSize)) with
        | ok plain => exact absurd hplain (hnot plain)
        | error err =>
            rw [hplain] at h
            cases h
    · rw [if_neg hok] at hget
      simp only [hget] at h
      cases h
  unfold ChunkReader.getDecryptedChunk at h
  split at h
  · exact hfetch h
  · rename_i c hc
    split at h
    · rename_i hindex
      have hdata := hd.lastChunk c hc (hkept c hc)
      rw [hindex] at hdata
      exact (Except.ok.inj h).symm.trans hdata
    · exact hfetch h

end Reader

/-! ## Sessions behind a failed `sync` -/

section Later

variable {C : Primitives} {x y z : ReadSession} {n : Nat} {file checksum : Bytes}
  {e : ChunkEncryptor} {d : FileDecryptionParams}

/-- Two sessions that differ in the encryptor, on a text in one chunk that both can
decrypt. -/
structure ReadSession.AlikeUnder (e : ChunkEncryptor) (x y : ReadSession) : Prop where
  eq : y = { x with handle := x.handle.withEncryptor e }
  oneChunk : x.handle.fileReader.plainfileSize ≤
    min e.chunkSize x.handle.reader.chunkEncryptor.chunkSize
  readable : e.key = x.handle.reader.chunkEncryptor.key ∨
    ∃ c, x.handle.reader.lastChunk = some c ∧ c.index = 0

theorem FileReadHandle.afterRead_withEncryptor (h : FileReadHandle) (r : ChunkReader)
    (length : Nat) (result : Except StoreError Bytes) :
    (h.withEncryptor e).afterRead (r.withEncryptor e) length result =
      (h.afterRead r length result).withEncryptor e := by
  cases result <;> rfl

/-- A read in both sessions. -/
theorem ReadSession.AlikeUnder.read (hxy : x.AlikeUnder e y) (F : Faults) {length : Nat}
    (hsum : x.handle.pos + length < 2 ^ 64) :
    y.read C F length = x.read C F length ∧
      (x.next C (.read F length)).AlikeUnder e (y.next C (.read F length)) := by
  obtain ⟨rfl, hsize, hreadable⟩ := hxy
  obtain ⟨result, r, s, hcall, hcall', henc, hkept⟩ := ChunkReader.read_oneChunk (C := C)
    (B := faultyBridge F) (s := x.server) hsum hsize hreadable
  have hread := FileReadHandle.read_of_call hcall
  have hread' := FileReadHandle.read_of_call (h := x.handle.withEncryptor e) hcall'
  rw [FileReadHandle.afterRead_withEncryptor] at hread'
  refine ⟨?_, ?_, ?_, ?_⟩
  · simp only [ReadSession.read, hread, hread']
  · simp only [ReadSession.next, hread, hread']
  · simp only [ReadSession.next, hread, FileReadHandle.afterRead_plainfileSize,
      FileReadHandle.afterRead_reader, henc]
    exact hsize
  · simp only [ReadSession.next, hread, FileReadHandle.afterRead_reader, henc]
    exact hkept

/-- One later event in both sessions. -/
theorem ReadSession.AlikeUnder.step {a : ReadEvent} (hxy : x.AlikeUnder e y)
    (hstep : guarded (ReadEvent.Later C) (ReadEvent.step C) x a z) :
    ∃ z', a.step C y z' ∧ z.AlikeUnder e z' := by
  obtain ⟨⟨hok, hsync⟩, hforeign, rfl⟩ := hstep
  have hserver : y.server = x.server := by rw [hxy.eq]
  refine ⟨y.next C a, ⟨fun server h => hserver ▸ hforeign server h, rfl⟩, ?_⟩
  cases a with
  | read F length => exact (hxy.read F hok).2
  | seek pos =>
      obtain ⟨rfl, hsize, hreadable⟩ := hxy
      have hseek : ((x.handle.withEncryptor e).seek pos).toOption.getD (x.handle.withEncryptor e) =
          ((x.handle.seek pos).toOption.getD x.handle).withEncryptor e := by
        have hhandle : (x.handle.withEncryptor e).size = x.handle.size := rfl
        unfold FileReadHandle.seek
        rw [hhandle]
        split <;> rfl
      have hreader : ((x.handle.seek pos).toOption.getD x.handle).fileReader =
          x.handle.fileReader := by
        unfold FileReadHandle.seek
        split <;> rfl
      refine ⟨?_, ?_, ?_⟩
      · simp only [ReadSession.next, hseek]
      · simp only [ReadSession.next, FileReadHandle.reader, hreader]
        exact hsize
      · simp only [ReadSession.next, FileReadHandle.reader, hreader]
        exact hreadable
  | sync F newParms text => exact absurd rfl (hsync F newParms text)
  | foreign server =>
      obtain ⟨rfl, hsize, hreadable⟩ := hxy
      exact ⟨rfl, hsize, hreadable⟩

/-- By induction on the run. -/
theorem ReadSession.AlikeUnder.sameReads (hxy : x.AlikeUnder e y) : x.SameReads C y := by
  have hstep : ∀ s a t s', s.AlikeUnder e s' →
      guarded (ReadEvent.Later C) (ReadEvent.step C) s a t →
      ∃ t', ReadEvent.step C s' a t' ∧ t.AlikeUnder e t' :=
    fun _ _ _ _ h hstep => h.step hstep
  intro events z hrun
  obtain ⟨z', hrun', hz⟩ := hrun.forwards (ReadSession.AlikeUnder e) hstep hxy
  exact ⟨z', hrun', fun F length hsum => (hz.read F hsum).1⟩

/-- The second session has an encryptor whose key separates the chunks of the text, and
which reaches nothing of a kept chunk. -/
structure ReadSession.MutedBy (C : Primitives) (e : ChunkEncryptor) (x y : ReadSession) :
    Prop where
  eq : y = { x with handle := x.handle.withEncryptor e }
  tracked : x.Tracked C
  separates : ∀ i iv,
    C.hmacSha256 (chunkKey C e.key i)
        (ivWithCipher C x.handle.reader.chunkEncryptor.key i
          (block x.handle.reader.chunkEncryptor.chunkSize x.text i) iv) ≠
      C.hmacSha256 (chunkKey C x.handle.reader.chunkEncryptor.key i)
        (ivWithCipher C x.handle.reader.chunkEncryptor.key i
          (block x.handle.reader.chunkEncryptor.chunkSize x.text i) iv)
  kept : ∀ c, x.handle.reader.lastChunk = some c → x.text.length ≤ c.index * e.chunkSize
  reaches : x.handle.reader.chunkDataProvider.Reaches e.chunkSize x.text.length

/-- Another position or another window changes nothing of this. -/
theorem ReadSession.MutedBy.withHandle (hxy : x.MutedBy C e y) {h : FileReadHandle}
    (htracked : ReadSession.Tracked C { x with handle := h })
    (hencryptor : h.reader.chunkEncryptor = x.handle.reader.chunkEncryptor)
    (hkept : h.reader.lastChunk = x.handle.reader.lastChunk)
    (hshape : x.handle.reader.chunkDataProvider.SameShape h.reader.chunkDataProvider) :
    ReadSession.MutedBy C e { x with handle := h }
      { y with handle := h.withEncryptor e } where
  eq := by rw [hxy.eq]
  tracked := htracked
  separates := by
    rw [hencryptor]
    exact hxy.separates
  kept c hc := hxy.kept c (hkept.symm.trans hc)
  reaches i hi := hshape.addressable (hxy.reaches i hi)

/-- A read of the second session. -/
theorem ReadSession.MutedBy.read (hxy : x.MutedBy C e y) (F : Faults) {length : Nat}
    (hsum : y.handle.pos + length < 2 ^ 64) :
    (0 < length → y.handle.pos < y.handle.size → ∃ err, y.read C F length = .error err) ∧
      ∃ x' : ReadSession, x'.MutedBy C e (y.next C (.read F length)) := by
  obtain ⟨n, file, checksum, hx⟩ := hxy.tracked
  have hsize := hx.size_eq
  have hplain := hx.plainfileSize_eq
  have hpos : y.handle.pos = x.handle.pos := by
    rw [hxy.eq]
    rfl
  have hsize' : y.handle.size = x.handle.size := by
    rw [hxy.eq]
    rfl
  rw [hpos] at hsum
  -- whatever the call of the reader returns, it leaves the second session muted
  have hafter : ∀ result r, x.handle.reader.SameFile r → r.lastChunk = x.handle.reader.lastChunk →
      r.Describes C x.text n file checksum →
      (x.handle.reader.withEncryptor e).read C (faultyBridge F) x.handle.fileReader.plainfileSize
        x.handle.pos length x.server = (result, r.withEncryptor e, x.server) →
      y.read C F length = result ∧
        ∃ x' : ReadSession, x'.MutedBy C e (y.next C (.read F length)) := by
    intro result r hsame hlast hd hcall
    have hread := FileReadHandle.read_of_call (h := x.handle.withEncryptor e) hcall
    rw [FileReadHandle.afterRead_withEncryptor] at hread
    have htracked : ReadSession.Tracked C
        { x with handle := x.handle.afterRead r length result } := by
      refine ⟨n, file, checksum, hx.withHandle ?_ ?_ ?_ ?_ ?_⟩
      · rw [FileReadHandle.afterRead_reader]
        exact hsame
      · rw [FileReadHandle.afterRead_reader]
        exact hd
      · rw [FileReadHandle.afterRead_reader, hsame.chunkEncryptor_eq, hlast]
        exact hx.kept
      · exact FileReadHandle.afterRead_plainfileSize ..
      · exact FileReadHandle.afterRead_size ..
    have hmuted := hxy.withHandle htracked
      (by rw [FileReadHandle.afterRead_reader, hsame.chunkEncryptor_eq])
      (by rw [FileReadHandle.afterRead_reader, hlast])
      (by rw [FileReadHandle.afterRead_reader]; exact hsame.shape)
    have hy := hxy.eq
    subst hy
    simp only [ReadSession.read, ReadSession.next, hread]
    exact ⟨trivial, _, hmuted⟩
  by_cases hin : x.handle.pos < x.text.length ∧ 0 < length
  · obtain ⟨err, q, hshape, hcache, hcall⟩ := ChunkReader.read_muted (F := F) hx.describes
      hx.current hxy.separates hxy.kept hxy.reaches hsum hin.1 hin.2
    rw [← hplain] at hcall
    obtain ⟨hresult, hnext⟩ := hafter _ { x.handle.reader with chunkDataProvider := q }
      ⟨rfl, rfl, rfl, hshape⟩ rfl (hx.describes.withProvider hshape hcache) hcall
    exact ⟨fun _ _ => ⟨err, hresult⟩, hnext⟩
  · rw [← hplain] at hin
    have hcall := ChunkReader.read_nil (C := C) (B := faultyBridge F) (s := x.server)
      (r := x.handle.reader.withEncryptor e) hsum hin
    obtain ⟨-, hnext⟩ := hafter _ _ (.refl _) rfl hx.describes hcall
    refine ⟨fun hlen hlt => absurd ⟨?_, hlen⟩ hin, hnext⟩
    omega

/-- One later event. -/
theorem ReadSession.MutedBy.step {a : ReadEvent} (hxy : x.MutedBy C e y)
    (hstep : guarded (ReadEvent.Later C) (ReadEvent.step C) y a z) :
    ∃ x' : ReadSession, x'.MutedBy C e z := by
  obtain ⟨⟨hok, hsync⟩, hforeign, rfl⟩ := hstep
  cases a with
  | read F length => exact (hxy.read F hok).2
  | seek pos =>
      have hmoved : ∀ pos, ∃ x' : ReadSession,
          x'.MutedBy C e { y with handle := { y.handle with pos := pos } } := by
        intro pos
        obtain ⟨n, file, checksum, hx⟩ := hxy.tracked
        have hmuted := hxy.withHandle (h := { x.handle with pos := pos })
          ⟨n, file, checksum, hx.moved pos⟩ rfl rfl (.refl _)
        have hy := hxy.eq
        subst hy
        exact ⟨_, hmuted⟩
      unfold ReadSession.next FileReadHandle.seek
      dsimp only
      split
      · exact ⟨x, hxy⟩
      · exact hmoved pos
  | sync F newParms text => exact absurd rfl (hsync F newParms text)
  | foreign server =>
      have hy := hxy.eq
      subst hy
      obtain ⟨n, file, checksum, hx⟩ := hxy.tracked
      exact ⟨{ x with server := server }, rfl, ⟨n, file, checksum, hx.foreign (hforeign server rfl)⟩,
        hxy.separates, hxy.kept, hxy.reaches⟩

/-- By induction on the run, with a tracked session behind it as invariant. -/
theorem ReadSession.MutedBy.silent (hxy : x.MutedBy C e y) : y.Silent C := by
  intro events z hrun F length hlen hpos hsum
  have hinv : ∃ x' : ReadSession, x'.MutedBy C e z :=
    hrun.preserves (fun y => ∃ x' : ReadSession, x'.MutedBy C e y)
      (fun _ _ _ hinv hstep => hinv.elim fun _ h => h.step hstep) ⟨x, hxy⟩
  obtain ⟨x', hz⟩ := hinv
  exact (hz.read F hsum).1 hlen hpos

/-! ### Single bytes -/

/-- A run that moves to a position. -/
theorem ReadSession.run_seek {pos : Nat} (hpos : pos < x.handle.size) :
    Run (guarded (ReadEvent.Later C) (ReadEvent.step C)) x [.seek pos]
      { x with handle := { x.handle with pos := pos } } := by
  have hnot : ¬ x.handle.size ≤ pos := Nat.not_le.mpr hpos
  have hstep : ReadEvent.step C x (.seek pos)
      { x with handle := { x.handle with pos := pos } } := by
    refine ⟨(fun _ h => by cases h), ?_⟩
    simp only [ReadSession.next, FileReadHandle.seek, if_neg hnot]
    rfl
  exact .cons ⟨⟨trivial, (fun _ _ _ h => by cases h)⟩, hstep⟩ (.nil _)

theorem ReadSession.eq_of_run_seek {pos : Nat} (hpos : pos < x.handle.size)
    (hrun : Run (ReadEvent.step C) x [.seek pos] y) :
    y = { x with handle := { x.handle with pos := pos } } := by
  cases hrun with
  | cons hstep hrest =>
      cases hrest
      obtain ⟨-, rfl⟩ := hstep
      have hnot : ¬ x.handle.size ≤ pos := Nat.not_le.mpr hpos
      simp only [ReadSession.next, FileReadHandle.seek, if_neg hnot]
      rfl

/-- A byte read with the other encryptor, from the chunk it looks into. -/
theorem ReadSession.Tracks.read_byte (hx : x.Tracks C n file checksum) (e : ChunkEncryptor)
    {pos : Nat} (hpos : pos < x.text.length) :
    ReadSession.read C
        { x with handle := { x.handle.withEncryptor e with pos := pos } } .none 1 =
      ((x.handle.reader.withEncryptor e).getDecryptedChunk C versionedBridge (pos / e.chunkSize)
        x.server).1.bind fun data => substr data (pos % e.chunkSize) 1 := by
  have hlt := hx.size_lt
  obtain ⟨⟨result, r, s⟩, hcall⟩ : ∃ out, (x.handle.reader.withEncryptor e).read C versionedBridge
      x.handle.fileReader.plainfileSize pos 1 x.server = out := ⟨_, rfl⟩
  have hbyte := ChunkReader.read_byte (C := C) (B := versionedBridge) (s := x.server)
    (r := x.handle.reader.withEncryptor e) (show pos + 1 < 2 ^ 64 by omega)
    (hx.plainfileSize_eq ▸ hpos)
  rw [hcall] at hbyte
  unfold ReadSession.read
  rw [faultyBridge_none, FileReadHandle.read_of_call
    (h := { x.handle.withEncryptor e with pos := pos }) hcall]
  exact hbyte

/-- If the reads are the same, the chunk that is looked into holds the byte. -/
theorem ReadSession.SameReads.byte {e : ChunkEncryptor} (hx : x.Tracks C n file checksum)
    (hv : x.server.version = x.handle.reader.version)
    (h : x.SameReads C { x with handle := x.handle.withEncryptor e }) (pos : Nat)
    (hpos : pos < x.text.length) :
    ∃ chunk, ((x.handle.reader.withEncryptor e).getDecryptedChunk C versionedBridge
        (pos / e.chunkSize) x.server).1 = .ok chunk ∧ pos % e.chunkSize < chunk.length := by
  have hlt := hx.size_lt
  have hsize : pos < x.handle.size := hx.size_eq ▸ hpos
  obtain ⟨y', hrun, hsame⟩ := h _ _ (ReadSession.run_seek hsize)
  obtain rfl := ReadSession.eq_of_run_seek (x := { x with handle := x.handle.withEncryptor e })
    hsize hrun
  have hread := hsame .none 1 (by show pos + 1 < 2 ^ 64; omega)
  rw [(hx.moved pos).read_current (by show pos + 1 < 2 ^ 64; omega) hv] at hread
  have hbyte := (hx.read_byte e hpos).symm.trans hread
  cases hchunk : ((x.handle.reader.withEncryptor e).getDecryptedChunk C versionedBridge
      (pos / e.chunkSize) x.server).1 with
  | error err =>
      rw [hchunk] at hbyte
      cases hbyte
  | ok chunk =>
      refine ⟨chunk, rfl, ?_⟩
      rw [hchunk] at hbyte
      simp only [Except.bind, substr] at hbyte
      split at hbyte
      · have hlength := congrArg List.length (Except.ok.inj hbyte)
        simp only [length_slice] at hlength
        omega
      · cases hbyte

/-- If every read throws, no chunk that is looked into is returned. -/
theorem ReadSession.Silent.byte {e : ChunkEncryptor} (hx : x.Tracks C n file checksum)
    (h : ReadSession.Silent C { x with handle := x.handle.withEncryptor e }) {i : Nat}
    (hi : i * e.chunkSize < x.text.length) (hcs : 0 < e.chunkSize) (chunk : Bytes) :
    ((x.handle.reader.withEncryptor e).getDecryptedChunk C versionedBridge i x.server).1 ≠
      .ok chunk := by
  have hlt := hx.size_lt
  have hsize : i * e.chunkSize < x.handle.size := hx.size_eq ▸ hi
  obtain ⟨err, herr⟩ := h _ _
    (ReadSession.run_seek (x := { x with handle := x.handle.withEncryptor e }) hsize) .none 1
    Nat.one_pos hsize (by show i * e.chunkSize + 1 < 2 ^ 64; omega)
  intro hchunk
  have hbyte := (hx.read_byte e hi).symm.trans herr
  rw [Nat.mul_div_cancel _ hcs, Nat.mul_mod_left, hchunk] at hbyte
  simp only [Except.bind, substr, Nat.zero_le, if_true] at hbyte
  cases hbyte

/-! ### Exactness -/

/-- With two chunk sizes and more than one chunk, some position is looked up in a chunk
that does not reach to it. -/
theorem exists_misplaced {cs cs' size : Nat} (hcs' : 0 < cs') (hne : cs' ≠ cs)
    (hsize : min cs' cs < size) :
    ∃ pos < size, min cs (size - pos / cs' * cs) ≤ pos % cs' := by
  rcases Nat.lt_or_gt_of_ne hne with hlt | hgt
  · -- too small chunks: the last position is looked up behind its own chunk
    refine ⟨size - 1, by omega, le_trans (min_le_right _ _) ?_⟩
    have hdm := Nat.div_add_mod (size - 1) cs'
    have hpos : 0 < (size - 1) / cs' := Nat.div_pos (by omega) hcs'
    have hmul : cs' * ((size - 1) / cs') + (size - 1) / cs' ≤ (size - 1) / cs' * cs := by
      have hle := Nat.mul_le_mul_left ((size - 1) / cs') (Nat.succ_le_of_lt hlt)
      rw [Nat.mul_succ, Nat.mul_comm _ cs'] at hle
      exact hle
    omega
  · -- too big chunks: the start of the second chunk is looked up in the first one
    have hdiv : cs / cs' = 0 := Nat.div_eq_of_lt hgt
    refine ⟨cs, by omega, le_trans (min_le_left _ _) ?_⟩
    rw [Nat.mod_eq_of_lt hgt]

theorem ReadSession.sameReads_refl (C : Primitives) (x : ReadSession) : x.SameReads C x := by
  intro events y hrun
  exact ⟨y, hrun.refines id (fun _ _ _ h => h.2), fun _ _ _ => rfl⟩

/-- **Enough.** -/
theorem ReadSession.Harmless.usable (h : x.Harmless d) (hx : x.Tracks C n file checksum)
    (hsep : x.Separates C d)
    (hreaches : x.handle.reader.chunkDataProvider.Reaches d.chunkSize x.handle.size) :
    x.Usable C (x.handle.withEncryptor d.encryptor) := by
  have hsize := hx.size_eq
  have hplain := hx.plainfileSize_eq
  have hmuted : d.key ≠ x.handle.reader.chunkEncryptor.key →
      (∀ c, x.handle.reader.lastChunk = some c → x.handle.size ≤ c.index * d.chunkSize) →
      x.Usable C (x.handle.withEncryptor d.encryptor) := by
    intro hkey hkept
    refine Or.inr (ReadSession.MutedBy.silent (x := x) (e := d.encryptor)
      ⟨rfl, ⟨n, file, checksum, hx⟩, hsep hkey, ?_, ?_⟩)
    · rw [← hsize]
      exact hkept
    · rw [← hsize]
      exact hreaches
  have halike : x.OneChunk d → (d.key = x.handle.reader.chunkEncryptor.key ∨
      ∃ c, x.handle.reader.lastChunk = some c ∧ c.index = 0) →
      x.Usable C (x.handle.withEncryptor d.encryptor) := by
    intro hone hreadable
    refine Or.inl (ReadSession.AlikeUnder.sameReads (e := d.encryptor) ⟨rfl, ?_, hreadable⟩)
    rw [hplain, ← hsize]
    exact hone
  unfold ReadSession.Harmless at h
  split at h
  · rename_i hkey
    rcases h with hcs | hone
    · have hencryptor : d.encryptor = x.handle.reader.chunkEncryptor := by
        rw [FileDecryptionParams.encryptor, hkey, hcs]
      rw [hencryptor]
      exact Or.inl (ReadSession.sameReads_refl C x)
    · exact halike hone (Or.inl hkey)
  · rename_i hkey
    cases hc : x.handle.reader.lastChunk with
    | none => exact hmuted hkey fun c hsome => by cases hc.symm.trans hsome
    | some c =>
        rcases h c hc with hone | hbehind
        · refine halike hone (Or.inr ⟨c, hc, ?_⟩)
          have hkept := hx.kept c hc
          unfold ReadSession.OneChunk at hone
          have hlt : c.index * x.handle.reader.chunkEncryptor.chunkSize <
              1 * x.handle.reader.chunkEncryptor.chunkSize := by omega
          have := Nat.lt_of_mul_lt_mul_right hlt
          omega
        · refine hmuted hkey fun c' hc' => ?_
          obtain rfl := Option.some.inj (hc.symm.trans hc')
          exact hbehind

/-- **Needed with the old key**, on the current file. -/
theorem ReadSession.Usable.harmless_of_same_key
    (h : x.Usable C (x.handle.withEncryptor d.encryptor)) (hx : x.Tracks C n file checksum)
    (hv : x.server.version = x.handle.reader.version)
    (hreaches : x.handle.reader.chunkDataProvider.Reaches d.chunkSize x.handle.size)
    (hcs : 0 < d.chunkSize) (hkey : d.key = x.handle.reader.chunkEncryptor.key) :
    d.chunkSize = x.handle.reader.chunkEncryptor.chunkSize ∨ x.OneChunk d := by
  have hsize := hx.size_eq
  have hd := hx.describes
  by_contra hnot
  rw [not_or, ReadSession.OneChunk, Nat.not_le] at hnot
  obtain ⟨hne, hmany⟩ := hnot
  have hsamekey : ∀ i, ((x.handle.reader.withEncryptor d.encryptor).getDecryptedChunk C
      versionedBridge i x.server).1 =
        (x.handle.reader.getDecryptedChunk C versionedBridge i x.server).1 := by
    intro i
    rw [ChunkReader.getDecryptedChunk_withEncryptor (Or.inl hkey)]
  rcases h with hsame | hsilent
  · obtain ⟨pos, hpos, hshort⟩ := exists_misplaced hcs hne hmany
    rw [hsize] at hpos
    obtain ⟨chunk, hchunk, hlength⟩ := hsame.byte hx hv _ hpos
    rw [hsamekey] at hchunk
    have haddr := hreaches (pos / d.chunkSize)
      (hsize ▸ lt_of_le_of_lt (Nat.div_mul_le_self _ _) hpos)
    have hblock := hd.chunk_eq hx.current haddr hx.kept hchunk
    rw [hblock, length_block, ← hsize] at hlength
    exact absurd hlength (Nat.not_lt.mpr hshort)
  · obtain ⟨r', -, -, hok | ⟨hstale, -⟩⟩ := ChunkReader.getDecryptedChunk_spec
      honestReads_versionedBridge hd (hx.reaches 0 (by omega)) (by omega) hx.current
    · apply hsilent.byte hx (i := 0) (by omega) hcs
      rw [hsamekey, hok]
    · exact hstale hv

/-- **Needed with another key**, on the current file. -/
theorem ReadSession.Usable.harmless_of_other_key
    (h : x.Usable C (x.handle.withEncryptor d.encryptor)) (hx : x.Tracks C n file checksum)
    (hv : x.server.version = x.handle.reader.version) (hsep : x.Separates C d)
    (hreaches : x.handle.reader.chunkDataProvider.Reaches d.chunkSize x.handle.size)
    (hcs : 0 < d.chunkSize) (hkey : d.key ≠ x.handle.reader.chunkEncryptor.key)
    {c : DecryptedChunk} (hc : x.handle.reader.lastChunk = some c) :
    x.OneChunk d ∨ x.handle.size ≤ c.index * d.chunkSize := by
  have hsize := hx.size_eq
  have hd := hx.describes
  by_contra hnot
  rw [not_or, ReadSession.OneChunk, Nat.not_le, Nat.not_le] at hnot
  obtain ⟨hmany, hreached⟩ := hnot
  have hkept : ((x.handle.reader.withEncryptor d.encryptor).getDecryptedChunk C versionedBridge
      c.index x.server).1 = .ok c.decryptedData := by
    have hlast : (x.handle.reader.withEncryptor d.encryptor).lastChunk = some c := hc
    simp only [ChunkReader.getDecryptedChunk, hlast, if_true]
  have hother : ∀ i, i * d.chunkSize < x.handle.size → c.index ≠ i → ∀ chunk,
      ((x.handle.reader.withEncryptor d.encryptor).getDecryptedChunk C versionedBridge i
        x.server).1 ≠ .ok chunk := by
    intro i hi hindex chunk hchunk
    have hindex' : ∀ c', x.handle.reader.lastChunk = some c' → c'.index ≠ i := by
      intro c' hc'
      obtain rfl := Option.some.inj (hc.symm.trans hc')
      exact hindex
    obtain ⟨err, q, -, -, hcall⟩ := ChunkReader.getDecryptedChunk_muted (e := d.encryptor) .none
      hd hx.current (hreaches i hi) (hsep hkey i) hindex'
    rw [faultyBridge_none] at hcall
    rw [hcall] at hchunk
    cases hchunk
  rcases h with hsame | hsilent
  · by_cases hfirst : c.index = 0
    · by_cases hle : d.chunkSize ≤ x.handle.reader.chunkEncryptor.chunkSize
      · -- the second chunk under the new size is not the kept one
        obtain ⟨chunk, hchunk, -⟩ := hsame.byte hx hv d.chunkSize (by omega)
        have hdiv : d.chunkSize / d.encryptor.chunkSize = 1 := Nat.div_self hcs
        rw [hdiv] at hchunk
        exact hother 1 (by omega) (by omega) chunk hchunk
      · -- the second chunk under the old size is looked up in the kept one
        obtain ⟨chunk, hchunk, hlength⟩ := hsame.byte hx hv
          x.handle.reader.chunkEncryptor.chunkSize (by omega)
        have hlt : x.handle.reader.chunkEncryptor.chunkSize < d.encryptor.chunkSize := by
          show _ < d.chunkSize
          omega
        have hdata := hd.lastChunk c hc (hx.kept c hc)
        rw [Nat.div_eq_of_lt hlt, ← hfirst, hkept] at hchunk
        rw [Nat.mod_eq_of_lt hlt, ← Except.ok.inj hchunk, hdata] at hlength
        exact absurd hlength (Nat.not_lt.mpr (length_block_le _ _ _))
    · obtain ⟨chunk, hchunk, -⟩ := hsame.byte hx hv 0 (by omega)
      rw [Nat.zero_div] at hchunk
      exact hother 0 (by omega) hfirst chunk hchunk
  · exact hsilent.byte hx (hsize ▸ hreached) hcs _ hkept

/-- **Needed**, on the current file. -/
theorem ReadSession.Usable.harmless (h : x.Usable C (x.handle.withEncryptor d.encryptor))
    (hx : x.Tracks C n file checksum) (hv : x.server.version = x.handle.reader.version)
    (hsep : x.Separates C d)
    (hreaches : x.handle.reader.chunkDataProvider.Reaches d.chunkSize x.handle.size)
    (hcs : 0 < d.chunkSize) : x.Harmless d := by
  unfold ReadSession.Harmless
  split
  · rename_i hkey
    exact h.harmless_of_same_key hx hv hreaches hcs hkey
  · rename_i hkey
    intro c hc
    exact h.harmless_of_other_key hx hv hsep hreaches hcs hkey hc

end Later

/-- A state that a handle reaches from the opening of a stored file by sound events. -/
def ReadSession.Reachable (C : Primitives) (x : ReadSession) : Prop :=
  ∃ (d : FileDecryptionParams) (P : Bytes) (s : ServerFile) (win : Nat) (h : FileReadHandle)
    (events : List ReadEvent),
    StoredFile C d P s ∧ WindowSize d.chunkSize win ∧ s.file.length < 2 ^ 63 ∧
      FileReadHandle.create C versionedBridge d win s = (.ok h, s) ∧
      h.reader.chunkDataProvider.Reaches d.chunkSize P.length ∧
      Run (guarded (ReadEvent.Sound C) (ReadEvent.step C)) ⟨h, s, P⟩ events x

theorem ReadSession.Reachable.tracked {C : Primitives} {x : ReadSession} (h : x.Reachable C) :
    x.Tracked C := by
  obtain ⟨d, P, s, win, h, events, hstored, hwin, hlen, hopen, hreaches, hrun⟩ := h
  exact ReadSession.tracked_run (ReadSession.tracked_opened hstored hwin hlen hopen hreaches) hrun

/-- **A failed `sync`.**  In any state it leaves the handle as it was if the comparison of
sizes throws or the parameters carry the key and the chunk size of the handle.  In every
state that a handle reaches, on the file that the server holds, the handle stays usable
exactly if the comparison of sizes throws or the new encryptor is harmless; that is enough
behind a newer file, too. -/
theorem FileReadHandle.failed_sync_usable_iff {C : Primitives} {x : ReadSession} {F : Faults}
    {d : FileDecryptionParams} {e : StoreError} {h : FileReadHandle} {s : ServerFile}
    (hsync : x.handle.sync C (faultyBridge F) d x.server = (.error e, h, s)) :
    (x.LeavesHandle d → h = x.handle ∧ x.Usable C h) ∧
      (x.Reachable C → 0 < d.chunkSize → x.Separates C d →
        x.handle.reader.chunkDataProvider.Reaches d.chunkSize x.handle.size →
          (¬ x.SizeFits d ∨ x.Harmless d → x.Usable C h) ∧
          (x.server.version = x.handle.reader.version → x.Usable C h →
            ¬ x.SizeFits d ∨ x.Harmless d)) := by
  obtain ⟨-, hthrows⟩ := ReadSession.sync_throws hsync
  have hsame : h = x.handle → x.Usable C h := by
    intro hh
    rw [hh]
    exact Or.inl (ReadSession.sameReads_refl C x)
  constructor
  · intro hleaves
    have hh : h = x.handle := by
      rcases hthrows with ⟨-, hh⟩ | ⟨hsize, hh⟩
      · exact hh
      · rw [hh, hleaves.resolve_left (not_not.mpr hsize), FileReadHandle.withEncryptor_self]
    exact ⟨hh, hsame hh⟩
  · intro hreachable hcs hsep hreaches
    obtain ⟨n, file, checksum, hx⟩ := hreachable.tracked
    rcases hthrows with ⟨hsize, hh⟩ | ⟨hsize, rfl⟩
    · exact ⟨fun _ => hsame hh, fun _ _ => Or.inl hsize⟩
    · constructor
      · intro hharmless
        exact (hharmless.resolve_left (not_not.mpr hsize)).usable hx hsep hreaches
      · intro hv husable
        exact Or.inr (husable.harmless hx hv hsep hreaches hcs)

/-! ### The sample file -/

/-- A freshly opened read handle of the seven bytes in chunks of four. -/
def sampleReadSession : ReadSession where
  handle :=
    { fileReader := FileReader.create
        (openedReader sampleParams.fileDecryptionParams 100 samplePrimitives sampleFile.checksum)
        sampleParams.fileDecryptionParams
      size := 7
      pos := 0 }
  server := sampleFile
  text := [1, 2, 3, 4, 5, 6, 7]

/-- Every request for the tags fails. -/
def lostTags : Faults :=
  { Faults.none with read := fun m => if m.range = .checksum then some (.server 1) else none }

theorem sampleReadSession_reaches {cs : Nat} (hcs : 0 < cs) :
    sampleReadSession.handle.reader.chunkDataProvider.Reaches cs 7 := by
  have hlast : sampleReadSession.handle.reader.chunkDataProvider.Addressable 7 :=
    ⟨by decide, by decide, by decide⟩
  intro i hi
  have hle := Nat.le_mul_of_pos_right i hcs
  exact hlast.mono (by omega)

theorem sampleReadSession_reachable : sampleReadSession.Reachable samplePrimitives := by
  have hstored : StoredFile samplePrimitives sampleParams.fileDecryptionParams
      [1, 2, 3, 4, 5, 6, 7] sampleFile :=
    storedFile_encoded samplePrimitives (by decide) _ _ _
  have hwin : WindowSize sampleParams.fileDecryptionParams.chunkSize 100 :=
    ⟨by decide, by decide⟩
  have hlen : sampleFile.file.length < 2 ^ 63 :=
    lt_of_le_of_lt hstored.encoded.length_file_le (by decide)
  have hopen : FileReadHandle.create samplePrimitives versionedBridge
      sampleParams.fileDecryptionParams 100 sampleFile =
        (.ok sampleReadSession.handle, sampleFile) := by
    rw [FileReadHandle.create, (openChunkReader_ok honestReads_versionedBridge hstored hwin hlen).1]
    rfl
  exact ⟨_, _, _, _, _, [], hstored, hwin, hlen, hopen, sampleReadSession_reaches (by decide),
    .nil _⟩

/-- The parameters of the sample with another key. -/
def otherKeyParams : FileDecryptionParams :=
  { sampleParams.fileDecryptionParams with key := List.replicate 32 8 }

/-- The fifth byte of a sample tag is the last byte of the key. -/
theorem sampleHmac_fifth (b : UInt8) (i : Nat) (m : Bytes) :
    (sampleHmac (chunkKey samplePrimitives (List.replicate 32 b) i) m)[4]? = some b := by
  have hkey : chunkKey samplePrimitives (List.replicate 32 b) i =
      ((chunkIndexToBE i).reverse ++ List.replicate 32 b ++ List.replicate 32 0).take 32 := by
    show sampleSha256 _ = _
    rw [sampleSha256, List.reverse_append, List.reverse_replicate]
  rw [hkey]
  simp [sampleHmac, chunkIndexToBE, List.replicate]

theorem otherKeyParams_separates : sampleReadSession.Separates samplePrimitives otherKeyParams := by
  intro _ i iv h
  have hfifth := congrArg (fun tag => tag[4]?) h
  have hseven : ∀ m, (samplePrimitives.hmacSha256 (chunkKey samplePrimitives
      sampleReadSession.handle.reader.chunkEncryptor.key i) m)[4]? = some 7 :=
    sampleHmac_fifth 7 i
  have height : ∀ m, (samplePrimitives.hmacSha256 (chunkKey samplePrimitives otherKeyParams.key i)
      m)[4]? = some 8 := sampleHmac_fifth 8 i
  rw [hseven, height] at hfifth
  cases hfifth

/-- Nothing is kept in a fresh handle, so that another key only mutes it. -/
theorem FileReadHandle.failed_sync_usable_iff_sample :
    sampleReadSession.Usable samplePrimitives
      (sampleReadSession.handle.withEncryptor otherKeyParams.encryptor) := by
  have hsize : sampleReadSession.SizeFits otherKeyParams := by
    unfold ReadSession.SizeFits
    decide +kernel
  have hrefuses : sampleReadSession.Refuses samplePrimitives lostTags otherKeyParams :=
    Or.inl (by decide)
  obtain ⟨e, hsync⟩ := ReadSession.sync_refused hsize hrefuses
  have hkey : otherKeyParams.key ≠ sampleReadSession.handle.reader.chunkEncryptor.key := by decide
  have hharmless : sampleReadSession.Harmless otherKeyParams := by
    unfold ReadSession.Harmless
    rw [if_neg hkey]
    intro c hc
    cases hc
  exact ((FileReadHandle.failed_sync_usable_iff hsync).2 sampleReadSession_reachable (by decide)
    otherKeyParams_separates (sampleReadSession_reaches (by decide))).1 (Or.inr hharmless)

/-- A byte that is read differently, and one that is read. -/
theorem ReadSession.not_usable {C : Primitives} {x : ReadSession} {h : FileReadHandle}
    {p q : Nat} {data : Bytes} (hsize : h.size = x.handle.size) (hlt : h.size < 2 ^ 63)
    (hp : p < h.size) (hq : q < h.size)
    (hne : ReadSession.read C { x with handle := { h with pos := p } } .none 1 ≠
      ReadSession.read C { x with handle := { x.handle with pos := p } } .none 1)
    (hok : ReadSession.read C { x with handle := { h with pos := q } } .none 1 = .ok data) :
    ¬ x.Usable C h := by
  intro husable
  rcases husable with hsame | hsilent
  · obtain ⟨y, hrun, hread⟩ := hsame _ _ (ReadSession.run_seek (hsize ▸ hp))
    obtain rfl := ReadSession.eq_of_run_seek (x := { x with handle := h }) hp hrun
    exact hne (hread .none 1 (by show p + 1 < 2 ^ 64; omega))
  · obtain ⟨err, herr⟩ := hsilent _ _ (ReadSession.run_seek (x := { x with handle := h }) hq) .none
      1 Nat.one_pos hq (by show q + 1 < 2 ^ 64; omega)
    cases hok.symm.trans herr

/-- The parameters of the sample with another chunk size. -/
def otherSizeParams : FileDecryptionParams :=
  { sampleParams.fileDecryptionParams with chunkSize := 2 }

/-- The sample behind a read of its first byte. -/
def keptSession : ReadSession :=
  sampleReadSession.next samplePrimitives (.read .none 1)

/-- If the tags cannot be fetched for parameters of another chunk size, the third byte is
later read as the fifth one.  With another key the bytes of the kept chunk are still
returned, and all other reads throw. -/
theorem FileReadHandle.failed_sync_misreads :
    (sampleReadSession.handle.sync samplePrimitives (faultyBridge lostTags) otherSizeParams
        sampleFile).1 = .error (.server 1) ∧
      (∀ e h s, sampleReadSession.handle.sync samplePrimitives (faultyBridge lostTags)
        otherSizeParams sampleFile = (.error e, h, s) →
          ReadSession.read samplePrimitives { sampleReadSession with handle := { h with pos := 2 } }
            .none 1 = .ok [5] ∧ ¬ sampleReadSession.Usable samplePrimitives h) ∧
      (keptSession.handle.sync samplePrimitives (faultyBridge lostTags) otherKeyParams
        sampleFile).1 = .error (.server 1) ∧
      (∀ e h s, keptSession.handle.sync samplePrimitives (faultyBridge lostTags) otherKeyParams
        sampleFile = (.error e, h, s) →
          ReadSession.read samplePrimitives { keptSession with handle := { h with pos := 0 } }
            .none 1 = .ok [1] ∧
          ReadSession.read samplePrimitives { keptSession with handle := { h with pos := 4 } }
            .none 1 = .error .fileChunkInvalidCipherChecksum ∧
          ¬ keptSession.Usable samplePrimitives h) := by
  refine ⟨by decide +kernel, ?_, by decide +kernel, ?_⟩
  · intro e h s hsync
    have hsize : sampleReadSession.SizeFits otherSizeParams := by
      unfold ReadSession.SizeFits
      decide +kernel
    obtain ⟨-, ⟨hnot, -⟩ | ⟨-, rfl⟩⟩ := ReadSession.sync_throws hsync
    · exact absurd hsize hnot
    · have hread : ReadSession.read samplePrimitives { sampleReadSession with
          handle := { sampleReadSession.handle.withEncryptor otherSizeParams.encryptor with
            pos := 2 } } .none 1 = .ok [5] := by decide +kernel
      refine ⟨hread, ReadSession.not_usable (p := 2) (q := 2) rfl (by decide) (by decide)
        (by decide) ?_ hread⟩
      rw [hread]
      decide +kernel
  · intro e h s hsync
    have hsize : keptSession.SizeFits otherKeyParams := by
      unfold ReadSession.SizeFits
      decide +kernel
    obtain ⟨-, ⟨hnot, -⟩ | ⟨-, rfl⟩⟩ := ReadSession.sync_throws hsync
    · exact absurd hsize hnot
    · have hfirst : ReadSession.read samplePrimitives { keptSession with
          handle := { keptSession.handle.withEncryptor otherKeyParams.encryptor with
            pos := 0 } } .none 1 = .ok [1] := by decide +kernel
      have hfifth : ReadSession.read samplePrimitives { keptSession with
          handle := { keptSession.handle.withEncryptor otherKeyParams.encryptor with
            pos := 4 } } .none 1 = .error .fileChunkInvalidCipherChecksum := by decide +kernel
      refine ⟨hfirst, hfifth, ReadSession.not_usable (p := 4) (q := 0) (by decide +kernel)
        (by decide +kernel) (by decide +kernel) (by decide +kernel) ?_ hfirst⟩
      rw [hfifth]
      decide +kernel

end PrivmxEndpoint
