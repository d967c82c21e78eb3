import PrivmxEndpoint.CryptoPrimitives

/-!
# Encryption of one chunk

`ChunkEncryptor` derives a key for each chunk index, encrypts the chunk under a
fresh initialization vector and puts an HMAC over both in front.  The sizes it
predicts for a chunk and for a whole file are compared here with the lengths
that encryption really produces.
-/

namespace PrivmxEndpoint

open Word

/-- `IChunkEncryptor::Chunk`. -/
structure Chunk where
  data : Bytes
  hmac : Bytes
  deriving Repr, DecidableEq

/-- The fields of `ChunkEncryptor`. -/
structure ChunkEncryptor where
  key : Bytes
  chunkSize : Nat
  deriving Repr, DecidableEq

/-- `ChunkEncryptor::chunkIndexToBE`: the index is narrowed to 32 bits. -/
def chunkIndexToBE (index : Nat) : Bytes :=
  let n := u32 index
  [UInt8.ofNat (n / 2 ^ 24), UInt8.ofNat (n / 2 ^ 16), UInt8.ofNat (n / 2 ^ 8), UInt8.ofNat n]

/-- The key of one chunk. -/
def chunkKey (C : Primitives) (key : Bytes) (index : Nat) : Bytes :=
  C.sha256 (key ++ chunkIndexToBE index)

/-- Initialization vector and cipher text of one chunk. -/
def ivWithCipher (C : Primitives) (key : Bytes) (index : Nat) (data : Bytes) (iv : Iv) : Bytes :=
  iv.1 ++ C.aes256CbcPkcs7Encrypt data (chunkKey C key index) iv.1

/-- `ChunkEncryptor::encrypt`. -/
def ChunkEncryptor.encrypt (C : Primitives) (e : ChunkEncryptor) (index : Nat)
    (data : Bytes) (iv : Iv) : Chunk :=
  let hmac := C.hmacSha256 (chunkKey C e.key index) (ivWithCipher C e.key index data iv)
  { data := hmac ++ ivWithCipher C e.key index data iv
    hmac := hmac }

/-- `ChunkEncryptor::decrypt`. -/
def ChunkEncryptor.decrypt (C : Primitives) (e : ChunkEncryptor) (index : Nat)
    (chunk : Chunk) : Except StoreError Bytes :=
  let hmac := chunk.data.take HMAC_SIZE
  if chunk.hmac ≠ hmac then
    .error .fileChunkInvalidChecksum
  else if chunk.data.length < HMAC_SIZE then
    .error .outOfRange
  else if hmac ≠ C.hmacSha256 (chunkKey C e.key index) (chunk.data.drop HMAC_SIZE) then
    .error .fileChunkInvalidCipherChecksum
  else if chunk.data.length < HMAC_SIZE + IV_SIZE then
    .error .outOfRange
  else
    C.aes256CbcPkcs7Decrypt (chunk.data.drop (HMAC_SIZE + IV_SIZE))
      (chunkKey C e.key index) (Splice.slice chunk.data HMAC_SIZE IV_SIZE)

/-- `ChunkEncryptor::getPlainChunkSize`. -/
def ChunkEncryptor.getPlainChunkSize (e : ChunkEncryptor) : Nat :=
  e.chunkSize

/-- `ChunkEncryptor::getEncryptedChunkSize`. -/
def ChunkEncryptor.getEncryptedChunkSize (e : ChunkEncryptor) : Nat :=
  u64 (e.chunkSize + (CHUNK_PADDING - e.chunkSize % CHUNK_PADDING) + HMAC_SIZE + IV_SIZE)

/-- `ChunkEncryptor::getEncryptedFileSize`. -/
def ChunkEncryptor.getEncryptedFileSize (e : ChunkEncryptor) (fileSize : Nat) : Nat :=
  if fileSize = 0 then 0 else
    let parts := sub64 (u64 (fileSize + e.chunkSize)) 1 / e.chunkSize
    let lastChunkSize :=
      if fileSize % e.chunkSize = 0 then e.chunkSize else fileSize % e.chunkSize
    let fullChunkPaddingSize := CHUNK_PADDING - e.chunkSize % CHUNK_PADDING
    let lastChunkPaddingSize := CHUNK_PADDING - lastChunkSize % CHUNK_PADDING
    u64 (sub64 parts 1 * (e.chunkSize + HMAC_SIZE + IV_SIZE + fullChunkPaddingSize)
      + lastChunkSize + HMAC_SIZE + IV_SIZE + lastChunkPaddingSize)

/-- `ChunkEncryptor::sync`. -/
def ChunkEncryptor.sync (_e : ChunkEncryptor) (key : Bytes) (chunkSize : Nat) : ChunkEncryptor :=
  { key := key, chunkSize := chunkSize }

/-! ## Lengths -/

/-- The length of an encrypted chunk of `n` bytes. -/
def encLen (n : Nat) : Nat :=
  n + (16 - n % 16) + 48

theorem encLen_pos (n : Nat) : 0 < encLen n := by
  unfold encLen
  omega

theorem lt_encLen (n : Nat) : n < encLen n := by
  unfold encLen
  omega

theorem encLen_mono {m n : Nat} (h : m ≤ n) : encLen m ≤ encLen n := by
  unfold encLen
  omega

/-- The length of a file of `len` bytes encrypted in chunks of `cs` bytes. -/
def encFileLen (cs len : Nat) : Nat :=
  len / cs * encLen cs + if len % cs = 0 then 0 else encLen (len % cs)

theorem ChunkEncryptor.getEncryptedChunkSize_eq {e : ChunkEncryptor}
    (h : encLen e.chunkSize < 2 ^ 64) : e.getEncryptedChunkSize = encLen e.chunkSize := by
  have heq : e.chunkSize + (CHUNK_PADDING - e.chunkSize % CHUNK_PADDING) + HMAC_SIZE + IV_SIZE =
      encLen e.chunkSize := by
    simp only [CHUNK_PADDING, HMAC_SIZE, IV_SIZE, encLen]
  rw [ChunkEncryptor.getEncryptedChunkSize, heq, u64_of_lt h]

/-- The number of chunks computed from the file size, split by whether the
last chunk is full. -/
theorem chunkCount_eq {cs len : Nat} (hcs : 0 < cs) (hlen : 0 < len)
    (hbound : len + cs ≤ 2 ^ 64) :
    sub64 (sub64 (u64 (len + cs)) 1 / cs) 1 =
      if len % cs = 0 then len / cs - 1 else len / cs := by
  have hsub : sub64 (u64 (len + cs)) 1 = len + cs - 1 := by
    by_cases heq : len + cs = 2 ^ 64
    · rw [heq]
      decide
    · rw [u64_of_lt (by omega), sub64_of_le (by omega) (by omega)]
  have hdm := Nat.div_add_mod len cs
  have hmod := Nat.mod_lt len hcs
  have hquot : len / cs ≤ len := Nat.div_le_self _ _
  rw [hsub]
  by_cases hm : len % cs = 0
  · have hnum : len + cs - 1 = cs - 1 + cs * (len / cs) := by
      rw [hm] at hdm
      omega
    have hq : 1 ≤ len / cs := by
      rw [hm] at hdm
      exact Nat.one_le_iff_ne_zero.mpr (fun h0 => by rw [h0] at hdm; omega)
    rw [if_pos hm, hnum, Nat.add_mul_div_left _ _ hcs, Nat.div_eq_of_lt (by omega),
      Nat.zero_add, sub64_of_le hq (lt_of_le_of_lt hquot (by omega))]
  · have hnum : len + cs - 1 = len % cs - 1 + cs * (len / cs + 1) := by
      rw [Nat.mul_add]
      omega
    have hcs1 : 1 < cs := by
      by_contra h
      have h1 : cs = 1 := by omega
      rw [h1, Nat.mod_one] at hm
      exact hm rfl
    have hlt : len / cs < len := Nat.div_lt_self hlen hcs1
    rw [if_neg hm, hnum, Nat.add_mul_div_left _ _ hcs, Nat.div_eq_of_lt (by omega),
      Nat.zero_add, sub64_of_le (Nat.le_add_left _ _) (lt_of_le_of_lt hlt (by omega)),
      Nat.add_sub_cancel]

/-- **Size prediction.**  Within 64 bits the closed formula of the source is
the length of all full chunks plus that of a last partial one. -/
theorem ChunkEncryptor.getEncryptedFileSize_eq {e : ChunkEncryptor} {len : Nat}
    (hcs : 0 < e.chunkSize) (hlen : len + e.chunkSize ≤ 2 ^ 64)
    (hsize : encFileLen e.chunkSize len < 2 ^ 64) :
    e.getEncryptedFileSize len = encFileLen e.chunkSize len := by
  by_cases hz : len = 0
  · simp [ChunkEncryptor.getEncryptedFileSize, encFileLen, hz]
  · have hcount := chunkCount_eq hcs (by omega) hlen
    have hfull : e.chunkSize + HMAC_SIZE + IV_SIZE +
        (CHUNK_PADDING - e.chunkSize % CHUNK_PADDING) = encLen e.chunkSize := by
      simp only [CHUNK_PADDING, HMAC_SIZE, IV_SIZE, encLen]
      omega
    rw [ChunkEncryptor.getEncryptedFileSize, if_neg hz]
    simp only [hcount, hfull]
    refine Eq.trans (congrArg u64 ?_) (u64_of_lt hsize)
    by_cases hm : len % e.chunkSize = 0
    · have hq : len / e.chunkSize = len / e.chunkSize - 1 + 1 := by
        have hdm := Nat.div_add_mod len e.chunkSize
        have h0 : len / e.chunkSize ≠ 0 := fun h0 => by
          rw [h0, hm] at hdm
          omega
        exact (Nat.succ_pred_eq_of_ne_zero h0).symm
      rw [encFileLen, if_pos hm, if_pos hm, if_pos hm]
      conv_rhs => rw [hq, Nat.succ_mul]
      rw [← hfull]
      ring
    · rw [encFileLen, if_neg hm, if_neg hm, if_neg hm]
      simp only [CHUNK_PADDING, HMAC_SIZE, IV_SIZE, encLen]
      omega

section Laws

variable {C : Primitives} {e : ChunkEncryptor}

theorem length_ivWithCipher (key : Bytes) (index : Nat) (data : Bytes) (iv : Iv) :
    (ivWithCipher C key index data iv).length = data.length + (16 - data.length % 16) + 16 := by
  have hcipher := C.aes_length data (chunkKey C key index) iv.1 (C.sha256_length _) iv.2
  rw [ivWithCipher, List.length_append, iv.2, hcipher]
  omega

@[simp] theorem ChunkEncryptor.length_encrypt_hmac (index : Nat) (data : Bytes) (iv : Iv) :
    (e.encrypt C index data iv).hmac.length = 32 :=
  C.hmacSha256_length _ _

@[simp] theorem ChunkEncryptor.length_encrypt_data (index : Nat) (data : Bytes) (iv : Iv) :
    (e.encrypt C index data iv).data.length = encLen data.length := by
  have h : (e.encrypt C index data iv).data.length =
      32 + (ivWithCipher C e.key index data iv).length := by
    simp only [ChunkEncryptor.encrypt, List.length_append, C.hmacSha256_length]
  rw [h, length_ivWithCipher, encLen]
  omega

/-- **Chunk round trip.**  Decryption under the stored tag returns the chunk. -/
theorem ChunkEncryptor.decrypt_encrypt (index : Nat) (data : Bytes) (iv : Iv) :
    e.decrypt C index (e.encrypt C index data iv) = .ok data := by
  have hlen := ChunkEncryptor.length_encrypt_data (C := C) (e := e) index data iv
  have htag : (e.encrypt C index data iv).hmac.length = HMAC_SIZE :=
    ChunkEncryptor.length_encrypt_hmac index data iv
  have hdata : (e.encrypt C index data iv).data =
      (e.encrypt C index data iv).hmac ++ ivWithCipher C e.key index data iv := rfl
  have htake : (e.encrypt C index data iv).data.take HMAC_SIZE =
      (e.encrypt C index data iv).hmac := by
    rw [hdata, ← htag, List.take_left]
  have hdrop : (e.encrypt C index data iv).data.drop HMAC_SIZE =
      ivWithCipher C e.key index data iv := by
    rw [hdata, ← htag, List.drop_left]
  have hiv : Splice.slice (e.encrypt C index data iv).data HMAC_SIZE IV_SIZE = iv.1 := by
    rw [Splice.slice, hdrop]
    exact List.take_left' iv.2
  have hcipher : (e.encrypt C index data iv).data.drop (HMAC_SIZE + IV_SIZE) =
      C.aes256CbcPkcs7Encrypt data (chunkKey C e.key index) iv.1 := by
    rw [← List.drop_drop, hdrop]
    exact List.drop_left' iv.2
  have hge : HMAC_SIZE + IV_SIZE ≤ (e.encrypt C index data iv).data.length := by
    rw [hlen]
    simp only [encLen, HMAC_SIZE, IV_SIZE]
    omega
  have h1 : ¬ (e.encrypt C index data iv).data.length < HMAC_SIZE := by omega
  have h2 : ¬ (e.encrypt C index data iv).data.length < HMAC_SIZE + IV_SIZE := by omega
  rw [ChunkEncryptor.decrypt]
  simp only [htake, hdrop, hiv, hcipher, h1, h2, ne_eq, not_true_eq_false, if_false]
  rw [if_neg (by simp [ChunkEncryptor.encrypt])]
  exact C.aes_decrypt_encrypt _ _ _ (C.sha256_length _) iv.2

end Laws

end PrivmxEndpoint
