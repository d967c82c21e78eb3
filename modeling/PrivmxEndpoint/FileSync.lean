import PrivmxEndpoint.OpenedFile

/-!
# Synchronizing the random-access handle

`FileHandler::sync` takes the tag list, the sizes, the version and the meta
from the new parameters.  The encryptor, the chunk sizes and the data provider
keep what they had; the provider is even told the old version and size once
more.  With the key and the chunk size of the handle this is harmless: a kept
window belongs to an older version, or the file has not changed.
-/

namespace PrivmxEndpoint

open Word Splice Blocks

/-- The tag list that a constructor or a `sync` builds from the tag string. -/
def openedHashList (C : Primitives) (key checksum : Bytes) : HmacList where
  topHashKey := key
  topHash := some (C.hmacSha256 key checksum)
  size := checksum.length / HMAC_SIZE
  hashes := checksum

/-- The handle after a `sync` that was not refused. -/
def FileHandler.synced (h : FileHandler) (C : Primitives) (checksum : Bytes) (fileMeta : FileMeta)
    (d : FileDecryptionParams) (fileEncKey : DecryptedEncKey) : FileHandler :=
  { h with
    chunkReader :=
      { h.chunkReader with
        hashList := openedHashList C d.key checksum
        chunkDataProvider :=
          h.chunkReader.chunkDataProvider.sync h.version h.encryptedFileSize none none
        version := d.version
        lastChunk := none }
    fileMeta := fileMeta
    version := d.version
    plainfileSize := d.originalSize
    encryptedFileSize := d.sizeOnServer
    fileEncKey := fileEncKey }

section Sync

variable {C : Primitives} {B : Bridge ServerFile} {h : FileHandler} {s : ServerFile}
  {d : FileDecryptionParams} {P Q file checksum : Bytes} {n : Nat}

theorem HmacList.create_eq (hhmac : d.hmac = C.hmacSha256 d.key checksum)
    (hlen : checksum.length % HMAC_SIZE = 0) :
    HmacList.create C d.key d.hmac checksum = .ok (openedHashList C d.key checksum) := by
  rw [HmacList.create, hhmac]
  simp only [ne_eq, not_true_eq_false, if_false, hlen]
  rfl

theorem StoredFile.checksum_mod (h : StoredFile C d P s) : s.checksum.length % HMAC_SIZE = 0 := by
  rw [h.encoded.length_checksum]
  exact Nat.mul_mod_left _ _

theorem FileHandler.sync_eq (hB : HonestReads B)
    (hhmac : d.hmac = C.hmacSha256 d.key s.checksum) (hlen : s.checksum.length % HMAC_SIZE = 0)
    (fileMeta : FileMeta) (fileEncKey : DecryptedEncKey) :
    h.sync C B fileMeta d fileEncKey s =
      (.ok (), h.synced C s.checksum fileMeta d fileEncKey, s) := by
  have hread : B.storeFileRead = ServerFile.storeFileRead := hB
  simp only [FileHandler.sync, ChunkDataProvider.getCurrentChecksumsFromBridge, hread,
    ServerFile.storeFileRead, HmacList.sync, HmacList.create_eq hhmac hlen]
  rfl

/-- A `sync` with another top hash than that of the stored tags is refused. -/
theorem FileHandler.sync_refused (hB : HonestReads B)
    (hhmac : d.hmac ≠ C.hmacSha256 d.key s.checksum) (fileMeta : FileMeta)
    (fileEncKey : DecryptedEncKey) :
    h.sync C B fileMeta d fileEncKey s = (.error .invalidFileTopHash, h, s) := by
  have hread : B.storeFileRead = ServerFile.storeFileRead := hB
  have hne : C.hmacSha256 d.key s.checksum ≠ d.hmac := fun h0 => hhmac h0.symm
  simp only [FileHandler.sync, ChunkDataProvider.getCurrentChecksumsFromBridge, hread,
    ServerFile.storeFileRead, HmacList.sync, HmacList.create, hne, ne_eq, not_false_eq_true,
    if_true]

theorem HmacList.sound_opened (key : Bytes) (hlen : checksum.length % HMAC_SIZE = 0) :
    (openedHashList C key checksum).Sound C where
  length_eq := (Nat.div_mul_cancel (Nat.dvd_of_mod_eq_zero hlen)).symm
  topHash_eq _ ht := (Option.some.inj ht).symm

/-- What a provider keeps over a `sync` to its own version matches the file of
the new version, if an unchanged version means an unchanged file. -/
theorem ChunkDataProvider.CacheMatches.sync {p : ChunkDataProvider} {v v' : Int} {file' : Bytes}
    (hc : p.CacheMatches v file) (hle : v ≤ v') (hsame : v' = v → file' = file) (size : Nat) :
    (p.sync v size none none).CacheMatches v' file' := by
  refine ⟨hle, ?_⟩
  intro hv w hw hne
  have hvv : v' = v := hv.symm
  by_cases hlt : p.fileVersion < v
  · simp only [ChunkDataProvider.sync, hlt, if_true] at hw
    exact absurd hw (by simp)
  · have hle' := hc.fileVersion_le
    simp only [ChunkDataProvider.sync, hlt, if_false] at hw ⊢
    rw [hsame hvv]
    exact hc.window_eq (by omega) w hw hne

/-- **Synchronizing** with the stored file under the key and the chunk size of
the handle. -/
theorem FileHandler.Describes.synced (hd : h.Describes C P n file checksum)
    (hle : h.version ≤ s.version) (hfile : s.version = h.version → s.file = file)
    (hstored : StoredFile C d Q s) (henc : d.encryptor = h.chunkReader.chunkEncryptor)
    (hlen : s.file.length < 2 ^ 63) (fileMeta : FileMeta) (fileEncKey : DecryptedEncKey) :
    (h.synced C s.checksum fileMeta d fileEncKey).Describes C Q
      (chunksFor d.chunkSize Q.length) s.file s.checksum := by
  have hencoded := hstored.encoded
  rw [henc] at hencoded
  have hshape : h.chunkReader.chunkDataProvider.SameShape
      (h.synced C s.checksum fileMeta d fileEncKey).chunkReader.chunkDataProvider := ⟨rfl, rfl⟩
  refine ⟨⟨hencoded, hd.reader.chunkSize_pos, hshape.shaped hd.reader.shaped,
    hd.reader.encryptedChunkSize_eq, ?_, HmacList.sound_opened d.key hstored.checksum_mod, rfl, ?_, ?_⟩,
    rfl, hstored.originalSize_eq, hstored.sizeOnServer_eq, hd.plainChunkSize_eq,
    hd.encryptedChunkSize_eq, hlen⟩
  · have hcache := hd.reader.cache
    rw [hd.version_eq] at hcache
    have hver : d.version = s.version := hstored.version_eq
    exact hcache.sync (by omega) (fun hv => hfile (hver.symm.trans hv)) _
  · exact congrArg ChunkEncryptor.key henc
  · intro c hc _
    exact absurd hc (by simp [FileHandler.synced])

end Sync

end PrivmxEndpoint
