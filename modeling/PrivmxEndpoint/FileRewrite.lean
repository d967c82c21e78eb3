import PrivmxEndpoint.EncodedFile

/-!
# Rewriting an encoded file

The plain file is an array of bytes: a write fills the gap up to its offset
with zeros, overwrites, and cuts the array behind the written bytes if asked
to (`PlainFile.write`).  On the encrypted side the same write re-encrypts a
run of chunks and replaces them and their tags by one splice each.  The two
sides agree: the spliced blob is an encoding of the written array
(`WriteCall.encodedFile`).
-/

namespace PrivmxEndpoint

open Word Splice Blocks

/-- The plain byte array with a gap before the offset filled with zeros, then
overwritten, and cut behind the data on demand. -/
def PlainFile.write (P : Bytes) (offset : Nat) (data : Bytes) (truncate : Bool) : Bytes :=
  writeAt (P ++ List.replicate (offset - P.length) 0) offset data truncate

/-- A range of the plain byte array. -/
def PlainFile.read (P : Bytes) (offset size : Nat) : Bytes :=
  slice P offset size

/-- The arguments of one write together with the randomness it draws. -/
structure WriteCall where
  ivs : Nat → Iv
  encryptMeta : EncryptMeta
  offset : Nat
  data : Bytes
  truncate : Bool

/-- The offset after a gap has been moved into the data. -/
def WriteCall.start (c : WriteCall) (size : Nat) : Nat :=
  min c.offset size

/-- The data with the zeros of a gap in front. -/
def WriteCall.toSend (c : WriteCall) (size : Nat) : Bytes :=
  List.replicate (c.offset - size) 0 ++ c.data

/-- The first chunk of a write. -/
def WriteCall.firstChunk (c : WriteCall) (cs size : Nat) : Nat :=
  c.start size / cs

/-- The last chunk of a write. -/
def WriteCall.lastChunk (c : WriteCall) (cs : Nat) : Nat :=
  (c.offset + c.data.length - if c.data.length = 0 then 0 else 1) / cs

/-- The number of chunks of a write. -/
def WriteCall.count (c : WriteCall) (cs size : Nat) : Nat :=
  c.lastChunk cs + 1 - c.firstChunk cs size

/-- The plain text after the write. -/
def WriteCall.plain (c : WriteCall) (P : Bytes) : Bytes :=
  PlainFile.write P c.offset c.data c.truncate

/-- The encrypted chunks of the written text. -/
def WriteCall.chunk (c : WriteCall) (C : Primitives) (e : ChunkEncryptor) (P : Bytes) :
    Nat → Chunk :=
  encChunk C e (c.plain P) c.ivs

/-- The blob with the chunks of the write replaced. -/
def WriteCall.file (c : WriteCall) (C : Primitives) (e : ChunkEncryptor) (P file : Bytes) : Bytes :=
  writeAt file (c.firstChunk e.chunkSize P.length * encLen e.chunkSize)
    (join (fun i => (c.chunk C e P i).data) (c.firstChunk e.chunkSize P.length)
      (c.count e.chunkSize P.length)) c.truncate

/-- The tag string with the tags of the write replaced. -/
def WriteCall.checksum (c : WriteCall) (C : Primitives) (e : ChunkEncryptor)
    (P checksum : Bytes) : Bytes :=
  writeAt checksum (c.firstChunk e.chunkSize P.length * HMAC_SIZE)
    (join (fun i => (c.chunk C e P i).hmac) (c.firstChunk e.chunkSize P.length)
      (c.count e.chunkSize P.length)) c.truncate

/-- The number of chunks after the write. -/
def WriteCall.chunks (c : WriteCall) (cs size n : Nat) : Nat :=
  countAfter n (c.firstChunk cs size) (c.count cs size) c.truncate

section PlainSide

variable (c : WriteCall) {cs : Nat} {P : Bytes}

/-- A write starts within the file. -/
theorem WriteCall.start_le (size : Nat) : c.start size ≤ size :=
  Nat.min_le_right _ _

/-- Moving the gap into the data does not move the end of the write. -/
theorem WriteCall.start_add_toSend (size : Nat) :
    c.start size + (c.toSend size).length = c.offset + c.data.length := by
  simp only [WriteCall.start, WriteCall.toSend, List.length_append, List.length_replicate]
  omega

/-- A write behind the end is a write of zeros and data at the end. -/
theorem WriteCall.plain_eq (P : Bytes) :
    c.plain P = writeAt P (c.start P.length) (c.toSend P.length) c.truncate := by
  unfold WriteCall.plain PlainFile.write WriteCall.start WriteCall.toSend
  by_cases h : c.offset ≤ P.length
  · have hz : c.offset - P.length = 0 := by omega
    rw [hz, Nat.min_eq_left h]
    simp
  · have hmin : min c.offset P.length = P.length := by omega
    have hlen : (P ++ List.replicate (c.offset - P.length) (0 : UInt8)).length = c.offset := by
      simp only [List.length_append, List.length_replicate]
      omega
    have hend := writeAt_length (P ++ List.replicate (c.offset - P.length) (0 : UInt8)) c.data
      c.truncate
    rw [hlen] at hend
    rw [hmin, writeAt_length, hend, List.append_assoc]

/-- The length of the file after a write. -/
theorem WriteCall.length_plain (P : Bytes) :
    (c.plain P).length =
      if c.truncate then c.offset + c.data.length
      else max P.length (c.offset + c.data.length) := by
  rw [c.plain_eq, length_writeAt (c.start_le _), c.start_add_toSend]

/-- The end of the write lies in its last chunk. -/
theorem WriteCall.end_le (hcs : 0 < cs) :
    c.offset + c.data.length ≤ (c.lastChunk cs + 1) * cs := by
  unfold WriteCall.lastChunk
  have h := Nat.lt_mul_div_succ
    (c.offset + c.data.length - if c.data.length = 0 then 0 else 1) hcs
  rw [Nat.mul_comm] at h
  by_cases hd : c.data.length = 0
  · rw [if_pos hd] at h ⊢
    omega
  · rw [if_neg hd] at h ⊢
    omega

/-- The last chunk starts no later than the end of the write. -/
theorem WriteCall.lastChunk_mul_le (cs : Nat) :
    c.lastChunk cs * cs ≤ c.offset + c.data.length := by
  unfold WriteCall.lastChunk
  exact le_trans (Nat.div_mul_le_self _ _) (Nat.sub_le _ _)

/-- The first chunk starts before the write. -/
theorem WriteCall.firstChunk_mul_le (cs size : Nat) :
    c.firstChunk cs size * cs ≤ c.start size :=
  Nat.div_mul_le_self _ _

/-- The write starts within its first chunk. -/
theorem WriteCall.start_lt (hcs : 0 < cs) (size : Nat) :
    c.start size < (c.firstChunk cs size + 1) * cs := by
  have h := Nat.lt_mul_div_succ (c.start size) hcs
  rwa [Nat.mul_comm] at h

/-- The chunks of a write are in order. -/
theorem WriteCall.firstChunk_le_lastChunk (cs size : Nat) :
    c.firstChunk cs size ≤ c.lastChunk cs := by
  unfold WriteCall.firstChunk WriteCall.lastChunk
  apply Nat.div_le_div_right
  have := Nat.min_le_left c.offset size
  unfold WriteCall.start
  split <;> omega

/-- A write has at least one chunk. -/
theorem WriteCall.count_pos (cs size : Nat) : 0 < c.count cs size := by
  have := c.firstChunk_le_lastChunk cs size
  unfold WriteCall.count
  omega

/-- The last chunk is one before the end of the run. -/
theorem WriteCall.firstChunk_add_count (cs size : Nat) :
    c.firstChunk cs size + c.count cs size = c.lastChunk cs + 1 := by
  have := c.firstChunk_le_lastChunk cs size
  unfold WriteCall.count
  omega

/-- The chunks before the last one of a write are full afterwards. -/
theorem WriteCall.length_block_inner {j : Nat} (h2 : j < c.lastChunk cs) :
    (block cs (c.plain P) j).length = cs := by
  apply length_block_full
  have h := c.lastChunk_mul_le cs
  have hle : (j + 1) * cs ≤ c.lastChunk cs * cs := Nat.mul_le_mul_right cs h2
  rw [c.length_plain]
  split <;> omega

/-- The chunks outside a write keep their text. -/
theorem WriteCall.block_outside (hcs : 0 < cs) {j : Nat}
    (h : j < c.firstChunk cs P.length ∨ c.lastChunk cs < j ∧ c.truncate = false) :
    block cs (c.plain P) j = block cs P j := by
  rw [c.plain_eq]
  rcases h with h | ⟨h, ht⟩
  · apply block_writeAt_before (c.start_le _)
    exact le_trans (Nat.mul_le_mul_right cs h) (c.firstChunk_mul_le _ _)
  · rw [ht]
    apply block_writeAt_behind (c.start_le _)
    rw [c.start_add_toSend]
    exact le_trans (c.end_le hcs) (Nat.mul_le_mul_right cs h)

/-- The part of the data that goes into one chunk. -/
def WriteCall.piece (c : WriteCall) (cs size i : Nat) : Bytes :=
  slice (c.toSend size) (i * cs - c.start size) (cs - (c.start size - i * cs))

/-- A chunk of the written text is the old chunk with its piece written into
it; only the last chunk of the write may be cut. -/
theorem WriteCall.block_plain (hcs : 0 < cs) {i : Nat}
    (h1 : c.firstChunk cs P.length ≤ i) (h2 : i ≤ c.lastChunk cs) :
    block cs (c.plain P) i =
      writeAt (block cs P i) (c.start P.length - i * cs) (c.piece cs P.length i)
        (if i = c.lastChunk cs then c.truncate else false) := by
  have hstart : c.start P.length < (i + 1) * cs :=
    lt_of_lt_of_le (c.start_lt hcs _) (Nat.mul_le_mul_right cs (by omega))
  have hsend := c.start_add_toSend P.length
  have hblock : (block cs P i).length ≤ cs := length_block_le _ _ _
  rw [c.plain_eq, block_writeAt (c.start_le _) hstart]
  simp only [writeAt, WriteCall.piece, slice]
  congr 1
  by_cases hlast : i = c.lastChunk cs
  · rw [if_pos hlast]
    by_cases ht : c.truncate = true
    · rw [if_pos ht, if_pos ht]
    · rw [if_neg ht, if_neg ht]
      by_cases hle : ((c.toSend P.length).drop (i * cs - c.start P.length)).length ≤
          cs - (c.start P.length - i * cs)
      · rw [List.take_of_length_le hle]
      · rw [List.drop_eq_nil_of_le (by omega), List.drop_eq_nil_of_le]
        rw [List.length_take]
        omega
  · have hinner : (i + 1) * cs ≤ c.offset + c.data.length :=
      le_trans (Nat.mul_le_mul_right cs (by omega)) (c.lastChunk_mul_le _)
    rw [Nat.succ_mul] at hinner hstart
    rw [if_neg hlast]
    simp only [Bool.false_eq_true, if_false, List.length_drop, List.length_take]
    split
    · exact (List.drop_eq_nil_of_le (by omega)).symm
    · exact (List.drop_eq_nil_of_le (by omega)).trans (List.drop_eq_nil_of_le (by omega)).symm

end PlainSide

section EncodedSide

variable (c : WriteCall) {C : Primitives} {e : ChunkEncryptor} {P file checksum : Bytes} {n : Nat}

/-- A write starts at an existing chunk or right behind the last one. -/
theorem WriteCall.firstChunk_le (hcs : 0 < e.chunkSize)
    (h : EncodedFile C e P n file checksum) : c.firstChunk e.chunkSize P.length ≤ n := by
  have h1 := c.firstChunk_mul_le e.chunkSize P.length
  have h2 := c.start_le P.length
  have h3 := h.covers
  exact Nat.le_of_mul_le_mul_right (by omega) hcs

/-- Before the write all chunks are full. -/
theorem WriteCall.before_full {j : Nat}
    (hj : j < c.firstChunk e.chunkSize P.length) : (block e.chunkSize P j).length = e.chunkSize := by
  apply length_block_full
  have h1 := c.firstChunk_mul_le e.chunkSize P.length
  have h2 := c.start_le P.length
  have h3 : (j + 1) * e.chunkSize ≤ c.firstChunk e.chunkSize P.length * e.chunkSize :=
    Nat.mul_le_mul_right _ hj
  omega

/-- Without a cut, the last chunk of a write does not get shorter. -/
theorem WriteCall.lastChunk_grows (ht : c.truncate = false) :
    (block e.chunkSize P (c.lastChunk e.chunkSize)).length ≤
      (block e.chunkSize (c.plain P) (c.lastChunk e.chunkSize)).length := by
  rw [length_block, length_block, c.length_plain, ht]
  simp only [Bool.false_eq_true, if_false]
  omega

/-- Without a cut, the last chunk of a write is full if another chunk follows. -/
theorem WriteCall.lastChunk_kept (h : EncodedFile C e P n file checksum)
    (ht : c.truncate = false) (hn : c.lastChunk e.chunkSize + 1 < n) :
    (block e.chunkSize (c.plain P) (c.lastChunk e.chunkSize)).length = e.chunkSize := by
  have h1 := c.lastChunk_grows (e := e) (P := P) ht
  rw [length_block_before h.tight hn] at h1
  exact le_antisymm (length_block_le _ _ _) h1

/-- The write replaces one run of plain blocks. -/
theorem WriteCall.replaces_plain (hcs : 0 < e.chunkSize)
    (h : EncodedFile C e P n file checksum) :
    Replaces e.chunkSize n (block e.chunkSize P) (block e.chunkSize (c.plain P))
      (c.firstChunk e.chunkSize P.length) (c.count e.chunkSize P.length) c.truncate := by
  have hend := c.firstChunk_add_count e.chunkSize P.length
  have hlast : c.firstChunk e.chunkSize P.length + c.count e.chunkSize P.length - 1 =
      c.lastChunk e.chunkSize := by omega
  constructor
  · exact c.count_pos _ _
  · exact c.firstChunk_le hcs h
  · exact fun j hj => c.before_full hj
  · exact fun j _ hj => c.length_block_inner (by omega)
  · exact length_block_le _ _ _
  · intro ht hn
    rw [hlast]
    exact c.lastChunk_kept h ht (by omega)
  · intro ht _
    rw [hlast]
    exact c.lastChunk_grows ht

/-- It replaces one run of ciphertexts. -/
theorem WriteCall.replaces_data (hcs : 0 < e.chunkSize)
    (h : EncodedFile C e P n file checksum) (ivs : Nat → Iv) :
    Replaces (encLen e.chunkSize) n (fun i => (encChunk C e P ivs i).data)
      (fun i => (c.chunk C e P i).data) (c.firstChunk e.chunkSize P.length)
      (c.count e.chunkSize P.length) c.truncate := by
  have hp := c.replaces_plain hcs h
  constructor
  · exact hp.pos
  · exact hp.start_le
  · intro j hj
    rw [length_encChunk_data, hp.before j hj]
  · intro j h1 h2
    rw [WriteCall.chunk, length_encChunk_data, hp.full j h1 h2]
  · rw [WriteCall.chunk, length_encChunk_data]
    exact encLen_mono hp.fits
  · intro ht hn
    rw [WriteCall.chunk, length_encChunk_data, hp.kept ht hn]
  · intro ht hn
    rw [WriteCall.chunk, length_encChunk_data, length_encChunk_data]
    exact encLen_mono (hp.grows ht hn)

/-- It replaces one run of tags. -/
theorem WriteCall.replaces_hmac (hcs : 0 < e.chunkSize)
    (h : EncodedFile C e P n file checksum) (ivs : Nat → Iv) :
    Replaces HMAC_SIZE n (fun i => (encChunk C e P ivs i).hmac)
      (fun i => (c.chunk C e P i).hmac) (c.firstChunk e.chunkSize P.length)
      (c.count e.chunkSize P.length) c.truncate where
  pos := c.count_pos _ _
  start_le := c.firstChunk_le hcs h
  before j _ := length_encChunk_hmac ivs j
  full j _ _ := length_encChunk_hmac c.ivs j
  fits := (length_encChunk_hmac c.ivs _).le
  kept _ _ := length_encChunk_hmac c.ivs _
  grows _ _ := by rw [length_encChunk_hmac, WriteCall.chunk, length_encChunk_hmac]

/-- The initialization vectors of the file after the write. -/
def WriteCall.ivsAfter (c : WriteCall) (ivs : Nat → Iv) (cs size : Nat) : Nat → Iv :=
  fun j => if c.firstChunk cs size ≤ j ∧ j < c.firstChunk cs size + c.count cs size then c.ivs j
    else ivs j

/-- A chunk that stays behind the run of a write was not cut off. -/
theorem WriteCall.not_cut_behind {cs : Nat} {j : Nat} (hj : j < c.chunks cs P.length n)
    (hbehind : c.firstChunk cs P.length + c.count cs P.length ≤ j) :
    c.lastChunk cs < j ∧ c.truncate = false := by
  have hend := c.firstChunk_add_count cs P.length
  refine ⟨by omega, ?_⟩
  by_contra ht
  rw [Bool.not_eq_false] at ht
  rw [WriteCall.chunks, countAfter, ht, if_pos rfl] at hj
  omega

/-- The replaced and the kept chunks together are the chunks of the new text. -/
theorem WriteCall.encChunk_after (hcs : 0 < e.chunkSize) (ivs : Nat → Iv) {j : Nat}
    (hj : j < c.chunks e.chunkSize P.length n) :
    encChunk C e (c.plain P) (c.ivsAfter ivs e.chunkSize P.length) j =
      if c.firstChunk e.chunkSize P.length ≤ j ∧
          j < c.firstChunk e.chunkSize P.length + c.count e.chunkSize P.length then
        c.chunk C e P j else encChunk C e P ivs j := by
  by_cases hin : c.firstChunk e.chunkSize P.length ≤ j ∧
      j < c.firstChunk e.chunkSize P.length + c.count e.chunkSize P.length
  · rw [if_pos hin, encChunk, WriteCall.chunk, encChunk, WriteCall.ivsAfter, if_pos hin]
  · rw [if_neg hin, encChunk, encChunk, WriteCall.ivsAfter, if_neg hin, c.block_outside hcs]
    by_cases hlt : j < c.firstChunk e.chunkSize P.length
    · exact Or.inl hlt
    · exact Or.inr (c.not_cut_behind hj (by omega))

/-- **A write re-encodes.**  The spliced blob and tag string encode the
written text. -/
theorem WriteCall.encodedFile (hcs : 0 < e.chunkSize)
    (h : EncodedFile C e P n file checksum) :
    EncodedFile C e (c.plain P) (c.chunks e.chunkSize P.length n) (c.file C e P file)
      (c.checksum C e P checksum) := by
  have hend := c.firstChunk_add_count e.chunkSize P.length
  have hfirst := c.firstChunk_le_lastChunk e.chunkSize P.length
  refine ⟨?_, ?_, ?_⟩
  · obtain ⟨ivs, rfl, rfl⟩ := h.encoded
    refine ⟨c.ivsAfter ivs e.chunkSize P.length, ?_, ?_⟩
    · rw [WriteCall.file, writeAt_join (blocked_data h.tight ivs) (c.replaces_data hcs h ivs)]
      apply join_congr
      intro j _ hj
      rw [c.encChunk_after hcs ivs (by simpa [WriteCall.chunks] using hj), patch]
      split <;> rfl
    · rw [WriteCall.checksum, writeAt_join (blocked_hmac ivs) (c.replaces_hmac hcs h ivs)]
      apply join_congr
      intro j _ hj
      rw [c.encChunk_after hcs ivs (by simpa [WriteCall.chunks] using hj), patch]
      split <;> rfl
  · have h1 := c.end_le hcs
    have h2 := h.covers
    rw [c.length_plain, WriteCall.chunks, countAfter, hend]
    by_cases ht : c.truncate = true
    · rw [if_pos ht, if_pos ht]
      exact h1
    · rw [if_neg ht, if_neg ht]
      apply max_le
      · exact le_trans h2 (Nat.mul_le_mul_right _ (le_max_left _ _))
      · exact le_trans h1 (Nat.mul_le_mul_right _ (le_max_right _ _))
  · have h1 := c.lastChunk_mul_le e.chunkSize
    have h2 := h.tight
    rw [c.length_plain, WriteCall.chunks, countAfter, hend]
    by_cases ht : c.truncate = true
    · rw [if_pos ht, if_pos ht, Nat.add_sub_cancel]
      exact h1
    · rw [if_neg ht, if_neg ht]
      by_cases hle : n ≤ c.lastChunk e.chunkSize + 1
      · rw [Nat.max_eq_right hle, Nat.add_sub_cancel]
        exact le_trans h1 (le_max_right _ _)
      · rw [Nat.max_eq_left (by omega)]
        exact le_trans h2 (le_max_left _ _)

/-- The written text is the old one with its chunks replaced. -/
theorem WriteCall.writeAt_blocks (hcs : 0 < e.chunkSize)
    (h : EncodedFile C e P n file checksum) :
    writeAt P (c.firstChunk e.chunkSize P.length * e.chunkSize)
        (join (block e.chunkSize (c.plain P)) (c.firstChunk e.chunkSize P.length)
          (c.count e.chunkSize P.length)) c.truncate = c.plain P := by
  have hend := c.firstChunk_add_count e.chunkSize P.length
  have hblocked : Blocked e.chunkSize n (block e.chunkSize P) :=
    ⟨fun j hj => length_block_before h.tight hj, fun j _ => length_block_le _ _ _⟩
  have hwrite := writeAt_join hblocked (c.replaces_plain hcs h)
  rw [join_block_self h.covers] at hwrite
  rw [hwrite]
  conv_rhs => rw [← join_block_self (c.encodedFile hcs h).covers]
  apply join_congr
  intro j _ hj
  by_cases hin : c.firstChunk e.chunkSize P.length ≤ j ∧
      j < c.firstChunk e.chunkSize P.length + c.count e.chunkSize P.length
  · exact patch_inside hin.1 hin.2
  · rw [patch_outside (by omega), c.block_outside hcs]
    by_cases hlt : j < c.firstChunk e.chunkSize P.length
    · exact Or.inl hlt
    · exact Or.inr (c.not_cut_behind (by simpa [WriteCall.chunks] using hj) (by omega))

/-- The blob grows up to the last chunk of the write at most. -/
theorem WriteCall.length_file_le (hcs : 0 < e.chunkSize)
    (h : EncodedFile C e P n file checksum) :
    (c.file C e P file).length ≤
      max file.length ((c.lastChunk e.chunkSize + 1) * encLen e.chunkSize) := by
  obtain ⟨ivs, rfl, -⟩ := h.encoded
  have hend := c.firstChunk_add_count e.chunkSize P.length
  have hrun : (join (fun i => (c.chunk C e P i).data) (c.firstChunk e.chunkSize P.length)
      (c.count e.chunkSize P.length)).length ≤ c.count e.chunkSize P.length * encLen e.chunkSize :=
    length_join_le (fun j _ _ => by
      rw [WriteCall.chunk, length_encChunk_data]
      exact encLen_mono (length_block_le _ _ _))
  have hmul : (c.lastChunk e.chunkSize + 1) * encLen e.chunkSize =
      c.firstChunk e.chunkSize P.length * encLen e.chunkSize +
        c.count e.chunkSize P.length * encLen e.chunkSize := by
    rw [← hend, Nat.add_mul]
  rw [WriteCall.file, length_writeAt (c.replaces_data hcs h ivs).start_length_le]
  split <;> omega

end EncodedSide

end PrivmxEndpoint
