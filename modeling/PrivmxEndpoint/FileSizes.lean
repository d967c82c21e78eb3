import PrivmxEndpoint.OpenedFile

/-!
# The sizes that are predicted for a file

`ChunkEncryptor::getEncryptedFileSize` and `ChunkStreamer::getFileSize` compute the
size of an encrypted file from its plain size by the same formula, written twice;
the second also gives the size of the checksum blob.  Both are compared with the
lengths that the encryption of the pieces really has.

The formula works in 64-bit integers.  `checkedFileSize` is the same formula with a
check at every operation; it has a result exactly if nothing wraps on the way
(`checkedFileSize_eq_some`).
-/

namespace PrivmxEndpoint

open Word Splice Blocks

/-- `FileSizeResult`. -/
structure FileSizeResult where
  size : Nat
  checksumSize : Nat
  deriving Repr, DecidableEq

/-- `ChunkStreamer::getFileSize`, of the fields `_chunkSize` and `_fileSize`. -/
def ChunkStreamer.getFileSize (chunkSize fileSize : Nat) : FileSizeResult :=
  if fileSize = 0 then { size := 0, checksumSize := 0 } else
    let parts := sub64 (u64 (fileSize + chunkSize)) 1 / chunkSize
    let lastChunkSize := if fileSize % chunkSize = 0 then chunkSize else fileSize % chunkSize
    let fullChunkPaddingSize := CHUNK_PADDING - chunkSize % CHUNK_PADDING
    let lastChunkPaddingSize := CHUNK_PADDING - lastChunkSize % CHUNK_PADDING
    let serverFileSize :=
      u64 (sub64 parts 1 * (chunkSize + HMAC_SIZE + IV_SIZE + fullChunkPaddingSize)
        + lastChunkSize + HMAC_SIZE + IV_SIZE + lastChunkPaddingSize)
    { size := serverFileSize, checksumSize := u64 (parts * HMAC_SIZE) }

/-- The formula of both functions with a check at every operation. -/
def checkedFileSize (chunkSize fileSize : Nat) : Option FileSizeResult :=
  if fileSize = 0 then some { size := 0, checksumSize := 0 } else do
    let parts := (← checkedSub (← checked (fileSize + chunkSize)) 1) / chunkSize
    let lastChunkSize := if fileSize % chunkSize = 0 then chunkSize else fileSize % chunkSize
    let fullChunkPaddingSize ← checkedSub CHUNK_PADDING (chunkSize % CHUNK_PADDING)
    let lastChunkPaddingSize ← checkedSub CHUNK_PADDING (lastChunkSize % CHUNK_PADDING)
    let fullChunk ← checked ((← checked ((← checked (chunkSize + HMAC_SIZE)) + IV_SIZE))
      + fullChunkPaddingSize)
    let fullChunks ← checked ((← checkedSub parts 1) * fullChunk)
    let lastChunk ← checked ((← checked ((← checked (fullChunks + lastChunkSize)) + HMAC_SIZE))
      + IV_SIZE)
    let serverFileSize ← checked (lastChunk + lastChunkPaddingSize)
    let checksumSize ← checked (parts * HMAC_SIZE)
    return { size := serverFileSize, checksumSize := checksumSize }

/-- The pieces of a plain text. -/
def pieceCount (chunkSize : Nat) (P : Bytes) : Nat :=
  chunksFor chunkSize P.length

/-- The summed lengths of the encrypted pieces of a plain text. -/
def encryptedLength (C : Primitives) (e : ChunkEncryptor) (P : Bytes) (ivs : Nat → Iv) : Nat :=
  ((List.range (pieceCount e.chunkSize P)).map fun i =>
    (e.encrypt C i (block e.chunkSize P i) (ivs i)).data.length).sum

section Lengths

variable {C : Primitives} {e : ChunkEncryptor} {P : Bytes} {ivs : Nat → Iv}

/-- The pieces of a plain text have the length of the encoded file. -/
theorem encryptedLength_eq (hcs : 0 < e.chunkSize) :
    encryptedLength C e P ivs = encFileLen e.chunkSize P.length := by
  have hstored := storedFile_encoded C hcs ivs P 0
  have hlength := hstored.encoded.length_eq_encFileLen hcs
  have hjoin : (encodedServer C e ivs P 0).file =
      (List.range (pieceCount e.chunkSize P)).flatMap fun i => (encChunk C e P ivs i).data := by
    show join _ 0 _ = _
    rw [join, ← List.range_eq_range']
    rfl
  rw [← hlength, hjoin, List.length_flatMap]
  rfl

/-- What is left for the last piece. -/
theorem lastPiece_eq {cs len : Nat} (hcs : 0 < cs) (hlen : 0 < len) :
    (if len % cs = 0 then cs else len % cs) = len - (chunksFor cs len - 1) * cs := by
  have hdm := Nat.div_add_mod len cs
  have hmul : cs * (len / cs) = len / cs * cs := Nat.mul_comm _ _
  rw [chunksFor_eq hcs]
  by_cases h : len % cs = 0
  · obtain ⟨q, hq⟩ : ∃ q, len / cs = q + 1 := by
      apply Nat.exists_eq_succ_of_ne_zero
      intro h0
      rw [h0, h] at hdm
      omega
    rw [if_pos h, if_pos h, Nat.add_zero, hq, Nat.add_sub_cancel]
    rw [hmul, hq, Nat.succ_mul, h] at hdm
    omega
  · rw [if_neg h, if_neg h, Nat.add_sub_cancel]
    omega

/-- The formula in exact arithmetic. -/
theorem exactFileSize_eq {cs len : Nat} (hcs : 0 < cs) (hlen : 0 < len) :
    ((len + cs - 1) / cs - 1) * (cs + HMAC_SIZE + IV_SIZE + (CHUNK_PADDING - cs % CHUNK_PADDING)) +
        (if len % cs = 0 then cs else len % cs) + HMAC_SIZE + IV_SIZE +
          (CHUNK_PADDING - (if len % cs = 0 then cs else len % cs) % CHUNK_PADDING) =
      encFileLen cs len := by
  have hpadded : ∀ n, n + HMAC_SIZE + IV_SIZE + (CHUNK_PADDING - n % CHUNK_PADDING) = encLen n := by
    intro n
    simp only [CHUNK_PADDING, HMAC_SIZE, IV_SIZE, encLen]
    omega
  rw [encFileLen_eq hcs hlen, ← lastPiece_eq hcs hlen, ← hpadded cs,
    ← hpadded (if len % cs = 0 then cs else len % cs), chunksFor]
  ring

/-- The tags are no longer than the file. -/
theorem checksum_le_encFileLen {cs : Nat} (hcs : 0 < cs) (len : Nat) :
    chunksFor cs len * HMAC_SIZE ≤ encFileLen cs len := by
  rcases Nat.eq_zero_or_pos len with hlen | hpos
  · rw [hlen, chunksFor_zero hcs, Nat.zero_mul]
    exact Nat.zero_le _
  · have hcount := chunksFor_pos hcs hpos
    have hpadded : ∀ n, 64 ≤ encLen n := by
      intro n
      unfold encLen
      omega
    have hfull := Nat.mul_le_mul_left (chunksFor cs len - 1) (hpadded cs)
    have hlast := hpadded (len - (chunksFor cs len - 1) * cs)
    rw [encFileLen_eq hcs hpos]
    simp only [HMAC_SIZE]
    omega

/-- **When nothing wraps.**  For a file whose encrypted size fits, the checked formula
has a result exactly if the plain size and the chunk size can be added and a full
chunk can be measured; the result is then the exact one. -/
theorem checkedFileSize_eq_some {cs len : Nat} {r : FileSizeResult} (hcs : 0 < cs)
    (hsize : encFileLen cs len < 2 ^ 64) :
    checkedFileSize cs len = some r ↔
      (len = 0 ∨ len + cs < 2 ^ 64 ∧ encLen cs < 2 ^ 64) ∧
        r = { size := encFileLen cs len, checksumSize := chunksFor cs len * HMAC_SIZE } := by
  unfold checkedFileSize
  by_cases hlen : len = 0
  · rw [if_pos hlen, hlen, chunksFor_zero hcs]
    have hzero : encFileLen cs 0 = 0 := by simp [encFileLen]
    rw [hzero, Nat.zero_mul, Option.some.injEq, eq_comm]
    simp
  · have hpos := Nat.pos_of_ne_zero hlen
    have hexact := exactFileSize_eq hcs hpos
    have hparts : 1 ≤ (len + cs - 1) / cs := chunksFor_pos hcs hpos
    have hfull : cs + HMAC_SIZE + IV_SIZE + (CHUNK_PADDING - cs % CHUNK_PADDING) = encLen cs := by
      simp only [CHUNK_PADDING, HMAC_SIZE, IV_SIZE, encLen]
      omega
    have hmod : ∀ n, n % CHUNK_PADDING ≤ CHUNK_PADDING := fun n =>
      (Nat.mod_lt n (by decide)).le
    rw [hfull] at hexact
    rw [if_neg hlen]
    simp only [bind, Option.bind_eq_some_iff, checked_eq_some, checkedSub_eq_some, pure,
      Option.some.injEq, and_assoc, exists_and_left, exists_eq_left', hfull, hexact]
    constructor
    · intro h
      obtain ⟨hadd, -, -, -, -, -, hchunk, -, -, -, -, -, -, -, hr⟩ := h
      exact ⟨Or.inr ⟨hadd, hchunk⟩, hr.symm⟩
    · intro h
      obtain ⟨hwide, rfl⟩ := h
      obtain ⟨hadd, hchunk⟩ := hwide.resolve_left hlen
      have hchecksum := checksum_le_encFileLen hcs len
      -- every intermediate value is at most the last one
      refine ⟨hadd, by omega, hmod _, hmod _, by omega, by omega, hchunk, hparts, by omega,
        by omega, by omega, by omega, hsize, ?_, rfl⟩
      exact lt_of_le_of_lt hchecksum hsize

/-- Where nothing wraps, both functions compute what the checked formula gives. -/
theorem getFileSize_of_checked {cs len : Nat} {r : FileSizeResult} (hcs : 0 < cs)
    (hsize : encFileLen cs len < 2 ^ 64) (h : checkedFileSize cs len = some r) :
    ChunkStreamer.getFileSize cs len = r ∧
      ∀ key, ({ key := key, chunkSize := cs } : ChunkEncryptor).getEncryptedFileSize len =
        r.size := by
  obtain ⟨hwide, rfl⟩ := (checkedFileSize_eq_some hcs hsize).mp h
  rcases Nat.eq_zero_or_pos len with hlen | hpos
  · have hzero : encFileLen cs 0 = 0 := by simp [encFileLen]
    rw [hlen, chunksFor_zero hcs, hzero]
    exact ⟨rfl, fun _ => rfl⟩
  · obtain ⟨hadd, hchunk⟩ := hwide.resolve_left (by omega)
    have hpredicted : ∀ key, ({ key := key, chunkSize := cs } : ChunkEncryptor).getEncryptedFileSize
        len = encFileLen cs len := fun key =>
      ChunkEncryptor.getEncryptedFileSize_eq hcs (show len + cs ≤ 2 ^ 64 by omega) hsize
    have hparts : sub64 (u64 (len + cs)) 1 / cs = chunksFor cs len := by
      rw [u64_of_lt hadd, sub64_of_le (by omega) hadd, chunksFor]
    have hchecksum := lt_of_le_of_lt (checksum_le_encFileLen hcs len) hsize
    have hne : ¬ len = 0 := by omega
    refine ⟨?_, hpredicted⟩
    have hsame : (ChunkStreamer.getFileSize cs len).size =
        ({ key := [], chunkSize := cs } : ChunkEncryptor).getEncryptedFileSize len := by
      simp only [ChunkStreamer.getFileSize, ChunkEncryptor.getEncryptedFileSize, hne, if_false]
    have htags : (ChunkStreamer.getFileSize cs len).checksumSize =
        chunksFor cs len * HMAC_SIZE := by
      simp only [ChunkStreamer.getFileSize, hne, if_false, hparts, u64_of_lt hchecksum]
    rw [← htags, ← hpredicted [], ← hsame]

end Lengths

/-! ## Agreement -/

/-- The predictions are what the encryption of the pieces gives, and nothing wraps on
the way. -/
structure SizesAgree (C : Primitives) (e : ChunkEncryptor) (P : Bytes) (ivs : Nat → Iv) :
    Prop where
  predicted : e.getEncryptedFileSize P.length = encryptedLength C e P ivs
  declared : (ChunkStreamer.getFileSize e.chunkSize P.length).size = encryptedLength C e P ivs
  checksum : (ChunkStreamer.getFileSize e.chunkSize P.length).checksumSize =
    32 * pieceCount e.chunkSize P
  unwrapped : checkedFileSize e.chunkSize P.length =
    some (ChunkStreamer.getFileSize e.chunkSize P.length)
  fullChunk : ∀ index data iv, data.length = e.chunkSize →
    e.getEncryptedChunkSize = (e.encrypt C index data iv).data.length

/-- **When the sizes agree.**  For a file whose encrypted size is below `2 ^ 64` the two
formulas and the real encryption agree without an overflow exactly if a full encrypted
chunk can be measured and the plain size and the chunk size can be added. -/
theorem sizes_agree_iff (C : Primitives) (e : ChunkEncryptor) (P : Bytes) (ivs : Nat → Iv)
    (hcs : 0 < e.chunkSize) (hsize : encryptedLength C e P ivs < 2 ^ 64) :
    SizesAgree C e P ivs ↔
      encLen e.chunkSize < 2 ^ 64 ∧ (P = [] ∨ P.length + e.chunkSize < 2 ^ 64) := by
  have hlength : encryptedLength C e P ivs = _ := encryptedLength_eq hcs
  rw [hlength] at hsize
  constructor
  · intro h
    have hchunk : encLen e.chunkSize < 2 ^ 64 := by
      have hfull := h.fullChunk 0 (List.replicate e.chunkSize 0) (ivs 0) List.length_replicate
      rw [ChunkEncryptor.length_encrypt_data, List.length_replicate] at hfull
      rw [← hfull]
      exact Nat.mod_lt _ (by decide)
    refine ⟨hchunk, ?_⟩
    obtain ⟨hwide, -⟩ := (checkedFileSize_eq_some hcs hsize).mp h.unwrapped
    exact hwide.imp List.eq_nil_of_length_eq_zero And.left
  · intro h
    obtain ⟨hchunk, hwide⟩ := h
    have hchecked := (checkedFileSize_eq_some hcs hsize).mpr
      ⟨hwide.imp (fun hnil => congrArg List.length hnil) (fun hadd => ⟨hadd, hchunk⟩), rfl⟩
    obtain ⟨hdeclared, hpredicted⟩ := getFileSize_of_checked hcs hsize hchecked
    refine ⟨?_, ?_, ?_, ?_, ?_⟩
    · rw [hlength]
      exact hpredicted e.key
    · rw [hlength, hdeclared]
    · rw [hdeclared]
      exact Nat.mul_comm _ _
    · rw [hdeclared]
      exact hchecked
    · intro index data iv hdata
      rw [ChunkEncryptor.length_encrypt_data, hdata]
      exact ChunkEncryptor.getEncryptedChunkSize_eq hchunk

/-- An encryptor with chunks of the given size. -/
def sampleEncryptor (chunkSize : Nat) : ChunkEncryptor where
  key := sampleKey
  chunkSize := chunkSize

/-- Three bytes in chunks of two. -/
theorem sizes_agree_sample :
    encryptedLength samplePrimitives (sampleEncryptor 2) [1, 2, 3] (fun _ => sampleIv) = 128 ∧
      SizesAgree samplePrimitives (sampleEncryptor 2) [1, 2, 3] (fun _ => sampleIv) := by
  have hcs : 0 < (sampleEncryptor 2).chunkSize := by decide
  have hlength : encryptedLength samplePrimitives (sampleEncryptor 2) [1, 2, 3]
      (fun _ => sampleIv) = 128 := by
    rw [encryptedLength_eq hcs]
    decide
  refine ⟨hlength, (sizes_agree_iff _ _ _ _ hcs ?_).mpr ⟨by decide, Or.inr (by decide)⟩⟩
  rw [hlength]
  decide

/-- With the largest chunk size a file of two bytes is predicted to have 16 encrypted
bytes; it has 64. -/
theorem sizes_not_agree :
    encryptedLength samplePrimitives (sampleEncryptor (2 ^ 64 - 1)) [1, 2]
        (fun _ => sampleIv) = 64 ∧
      (sampleEncryptor (2 ^ 64 - 1)).getEncryptedFileSize 2 = 16 ∧
      ¬ SizesAgree samplePrimitives (sampleEncryptor (2 ^ 64 - 1)) [1, 2]
        (fun _ => sampleIv) := by
  have hcs : 0 < (sampleEncryptor (2 ^ 64 - 1)).chunkSize := by decide
  have hlength : encryptedLength samplePrimitives (sampleEncryptor (2 ^ 64 - 1)) [1, 2]
      (fun _ => sampleIv) = 64 := by
    rw [encryptedLength_eq hcs]
    decide
  have hpredicted : (sampleEncryptor (2 ^ 64 - 1)).getEncryptedFileSize 2 = 16 := by
    decide
  refine ⟨hlength, hpredicted, ?_⟩
  intro h
  have hsame := h.predicted
  rw [hlength] at hsame
  exact absurd (hpredicted.symm.trans hsame) (by decide)

end PrivmxEndpoint
