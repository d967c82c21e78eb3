import PrivmxEndpoint.GuardedRuns
import PrivmxEndpoint.OpenedFile

/-!
# Reading from a server that may answer anything

The meta of a file is authenticated: it holds the key, the plain size and the
HMAC over the string of tags.  All else comes from the server, and the server
of this module is an arbitrary machine.  Opening a file checks the string of
tags against the meta, and every chunk is checked against its tag, under a key
of its own.  What a read returns is therefore the plain text
(`FileReadHandle.read_original`).

A hash with 32 bytes is not injective; what is used of it is that the messages
of the file itself have no second preimage (`NoSecondPreimage`).
-/

namespace PrivmxEndpoint

open Word Splice Blocks Runs

variable {C : Primitives} {d : FileDecryptionParams} {P : Bytes} {ivs : Nat → Iv}

/-- The string of tags of a plain text. -/
def tagString (C : Primitives) (d : FileDecryptionParams) (P : Bytes) (ivs : Nat → Iv) : Bytes :=
  join (fun i => (encChunk C d.encryptor P ivs i).hmac) 0 (chunksFor d.chunkSize P.length)

/-- The parameters of a file that was created with the plain text, but for what
the server adds to them. -/
structure CreatedFile (C : Primitives) (d : FileDecryptionParams) (P : Bytes) (ivs : Nat → Iv) :
    Prop where
  chunkSize_pos : 0 < d.chunkSize
  originalSize_eq : d.originalSize = P.length
  originalSize_lt : d.originalSize < 2 ^ 64
  hmac_eq : d.hmac = C.hmacSha256 d.key (tagString C d P ivs)

/-- No other message has the HMAC of the tags, or that of a chunk. -/
structure NoSecondPreimage (C : Primitives) (d : FileDecryptionParams) (P : Bytes)
    (ivs : Nat → Iv) : Prop where
  tags : ∀ x, C.hmacSha256 d.key x = C.hmacSha256 d.key (tagString C d P ivs) →
    x = tagString C d P ivs
  chunk : ∀ i < chunksFor d.chunkSize P.length, ∀ x,
    C.hmacSha256 (chunkKey C d.key i) x = C.hmacSha256 (chunkKey C d.key i)
      (ivWithCipher C d.key i (block d.chunkSize P i) (ivs i)) →
    x = ivWithCipher C d.key i (block d.chunkSize P i) (ivs i)

/-! ### One chunk -/

/-- Data that decrypt under the tag of a chunk are that chunk. -/
theorem NoSecondPreimage.decrypt_eq (hno : NoSecondPreimage C d P ivs) {i : Nat}
    (hi : i < chunksFor d.chunkSize P.length) {data plain : Bytes}
    (h : d.encryptor.decrypt C i { data := data, hmac := (encChunk C d.encryptor P ivs i).hmac } =
      .ok plain) :
    plain = block d.chunkSize P i := by
  have hsame : data = (encChunk C d.encryptor P ivs i).data := by
    unfold ChunkEncryptor.decrypt at h
    dsimp only at h
    split at h
    · cases h
    rename_i htag
    split at h
    · cases h
    split at h
    · cases h
    rename_i hcipher
    have htag := not_not.mp htag
    have hrest := hno.chunk i hi (data.drop HMAC_SIZE) ((not_not.mp hcipher).symm.trans htag.symm)
    calc data = data.take HMAC_SIZE ++ data.drop HMAC_SIZE := (List.take_append_drop ..).symm
      _ = (encChunk C d.encryptor P ivs i).hmac ++
            ivWithCipher C d.key i (block d.chunkSize P i) (ivs i) := by rw [← htag, hrest]
      _ = (encChunk C d.encryptor P ivs i).data := rfl
  rw [hsame] at h
  exact (Except.ok.inj ((ChunkEncryptor.decrypt_encrypt i _ (ivs i)).symm.trans h)).symm

/-- Nothing decrypts under an empty tag. -/
theorem ChunkEncryptor.decrypt_empty_tag (e : ChunkEncryptor) (i : Nat) (data plain : Bytes) :
    e.decrypt C i { data := data, hmac := [] } ≠ .ok plain := by
  intro h
  unfold ChunkEncryptor.decrypt at h
  dsimp only at h
  split at h
  · cases h
  rename_i htag
  split at h
  · cases h
  rename_i hlength
  have hnil := congrArg List.length (not_not.mp htag)
  rw [List.length_nil, List.length_take] at hnil
  simp only [HMAC_SIZE] at hnil hlength
  omega

/-- What a reader may trust: the tags are the original ones, and so is a kept
chunk.  Nothing is known of the data provider. -/
structure ChunkReader.Authentic (C : Primitives) (r : ChunkReader) (d : FileDecryptionParams)
    (P : Bytes) (ivs : Nat → Iv) : Prop where
  chunkEncryptor_eq : r.chunkEncryptor = d.encryptor
  size_eq : r.hashList.size = chunksFor d.chunkSize P.length
  hashes_eq : r.hashList.hashes = tagString C d P ivs
  lastChunk : ∀ c, r.lastChunk = some c → c.decryptedData = block d.chunkSize P c.index

/-- A chunk is accepted only if it is the original one at that index. -/
theorem ChunkReader.Authentic.decryptWithHash_eq {r : ChunkReader} (hr : r.Authentic C d P ivs)
    (hno : NoSecondPreimage C d P ivs) {index : Nat} {data plain : Bytes}
    (h : r.decryptWithHash C index data = .ok plain) : plain = block d.chunkSize P index := by
  have hlength : r.hashList.hashes.length = r.hashList.size * HMAC_SIZE := by
    rw [hr.hashes_eq, hr.size_eq]
    exact length_join fun j _ _ => length_encChunk_hmac ivs j
  have htag := slice_join (blocked_hmac (C := C) (e := d.encryptor) (P := P)
    (n := chunksFor d.chunkSize P.length) ivs) index
  unfold ChunkReader.decryptWithHash at h
  by_cases hin : index ≤ r.hashList.size
  · rw [HmacList.getHash_eq hlength hin, hr.hashes_eq, hr.chunkEncryptor_eq] at h
    change d.encryptor.decrypt C index { data := data, hmac := slice (join _ 0 _) _ _ } = _ at h
    rw [htag] at h
    split at h
    · rename_i hlt
      exact hno.decrypt_eq hlt h
    · exact absurd h (ChunkEncryptor.decrypt_empty_tag _ _ _ _)
  · rw [HmacList.getHash, if_pos (by omega)] at h
    cases h

/-! ### Reads -/

section Reads

variable {σ : Type} {B : Bridge σ} {r : ChunkReader} {s : σ}

/-- A call keeps a reader authentic, and what it returns satisfies `Q`. -/
def Authenticated (C : Primitives) (d : FileDecryptionParams) (P : Bytes) (ivs : Nat → Iv)
    (Q : Bytes → Prop) (result : Except StoreError Bytes × ChunkReader × σ) : Prop :=
  result.2.1.Authentic C d P ivs ∧ ∀ data, result.1 = .ok data → Q data

/-- A chunk that passes its check is the file's chunk at the index. -/
theorem ChunkReader.fetchChunk_authenticated (hno : NoSecondPreimage C d P ivs)
    (hr : r.Authentic C d P ivs) (index : Nat) :
    Authenticated C d P ivs (fun data => data = block d.chunkSize P index)
      (r.fetchChunk C B index s) := by
  unfold ChunkReader.fetchChunk
  split
  · exact ⟨⟨hr.chunkEncryptor_eq, hr.size_eq, hr.hashes_eq, hr.lastChunk⟩, fun _ h => by cases h⟩
  · split
    · exact ⟨⟨hr.chunkEncryptor_eq, hr.size_eq, hr.hashes_eq, hr.lastChunk⟩, fun _ h => by cases h⟩
    · rename_i plain hplain
      have hblock := hr.decryptWithHash_eq hno hplain
      refine ⟨⟨hr.chunkEncryptor_eq, hr.size_eq, hr.hashes_eq, ?_⟩, ?_⟩
      · rintro c hc
        obtain rfl := Option.some.inj hc
        exact hblock
      · rintro data hdata
        obtain rfl := Except.ok.inj hdata
        exact hblock

/-- So is one from the cache. -/
theorem ChunkReader.getDecryptedChunk_authenticated (hno : NoSecondPreimage C d P ivs)
    (hr : r.Authentic C d P ivs) (index : Nat) :
    Authenticated C d P ivs (fun data => data = block d.chunkSize P index)
      (r.getDecryptedChunk C B index s) := by
  unfold ChunkReader.getDecryptedChunk
  split
  · exact ChunkReader.fetchChunk_authenticated hno hr index
  · rename_i c hc
    split
    · rename_i hindex
      refine ⟨hr, ?_⟩
      rintro data hdata
      obtain rfl := Except.ok.inj hdata
      rw [hr.lastChunk c hc, hindex]
    · exact ChunkReader.fetchChunk_authenticated hno hr index

/-- By induction on the number of chunks, with the kept chunk as invariant. -/
theorem ChunkReader.getDecryptedChunks_authenticated (hno : NoSecondPreimage C d P ivs)
    (count index : Nat) (hr : r.Authentic C d P ivs) :
    Authenticated C d P ivs (fun data => data = join (block d.chunkSize P) index count)
      (ChunkReader.getDecryptedChunks C B count index r s) := by
  induction count generalizing index r s with
  | zero =>
      refine ⟨hr, ?_⟩
      rintro data hdata
      rw [join_zero]
      exact (Except.ok.inj hdata).symm
  | succ count ih =>
      have hchunk := ChunkReader.getDecryptedChunk_authenticated (B := B) (s := s) hno hr index
      unfold ChunkReader.getDecryptedChunks
      cases hcall : r.getDecryptedChunk C B index s with
      | mk result rest =>
          obtain ⟨r₁, s₁⟩ := rest
          rw [hcall] at hchunk
          cases result with
          | error e => exact ⟨hchunk.1, fun _ h => by cases h⟩
          | ok chunk =>
              have hrest := ih (s := s₁) (index + 1) hchunk.1
              dsimp only
              cases hcalls : ChunkReader.getDecryptedChunks C B count (index + 1) r₁ s₁ with
              | mk result rest =>
                  obtain ⟨r₂, s₂⟩ := rest
                  rw [hcalls] at hrest
                  cases result with
                  | error e => exact ⟨hrest.1, fun _ h => by cases h⟩
                  | ok data =>
                      refine ⟨hrest.1, ?_⟩
                      rintro all hall
                      obtain rfl := Except.ok.inj hall
                      rw [join_succ, hchunk.2 chunk rfl, hrest.2 data rfl]

/-- A read keeps the reader authentic and returns the range of the plain text. -/
theorem ChunkReader.read_authenticated (hno : NoSecondPreimage C d P ivs)
    (hcs : 0 < d.chunkSize) (hsize : P.length < 2 ^ 64) (hr : r.Authentic C d P ivs)
    (pos length : Nat) :
    Authenticated C d P ivs (fun data => pos + length < 2 ^ 64 → data = slice P pos length)
      (r.read C B P.length pos length s) := by
  unfold ChunkReader.read
  by_cases hpos : pos ≥ P.length
  · rw [if_pos hpos]
    refine ⟨hr, ?_⟩
    rintro data hdata -
    rw [slice_eq_nil_of_le length hpos]
    exact (Except.ok.inj hdata).symm
  · rw [if_neg hpos]
    dsimp only
    generalize hlen : (if u64 (pos + length) > P.length then P.length - pos else length) = len
    by_cases hz : len = 0
    · rw [if_pos hz]
      refine ⟨hr, ?_⟩
      rintro data hdata hsum
      have hzero : length = 0 := by
        rw [u64_of_lt hsum] at hlen
        split at hlen <;> omega
      rw [hzero]
      exact (Except.ok.inj hdata).symm
    · rw [if_neg hz]
      have hchunks := ChunkReader.getDecryptedChunks_authenticated (B := B) (s := s) hno
        (r.filePosToFileChunkIndex (u64 (pos + len - 1)) + 1 - r.filePosToFileChunkIndex pos)
        (r.filePosToFileChunkIndex pos) hr
      cases hcall : ChunkReader.getDecryptedChunks C B
          (r.filePosToFileChunkIndex (u64 (pos + len - 1)) + 1 - r.filePosToFileChunkIndex pos)
          (r.filePosToFileChunkIndex pos) r s with
      | mk result rest =>
          obtain ⟨r', s'⟩ := rest
          rw [hcall] at hchunks
          cases result with
          | error e => exact ⟨hchunks.1, fun _ h => by cases h⟩
          | ok data =>
              refine ⟨hchunks.1, ?_⟩
              rintro cut hcut hsum
              have hmin : len = min length (P.length - pos) := by
                rw [u64_of_lt hsum] at hlen
                split at hlen <;> omega
              have hjoin := hchunks.2 data rfl
              simp only [ChunkReader.filePosToFileChunkIndex, hr.chunkEncryptor_eq,
                ChunkEncryptor.getPlainChunkSize] at hjoin
              rw [u64_of_lt (by omega)] at hjoin
              change substr data (pos % r'.chunkEncryptor.chunkSize) len = .ok cut at hcut
              rw [hchunks.1.chunkEncryptor_eq, hjoin] at hcut
              have hslice : substr (join (block d.chunkSize P) (pos / d.chunkSize)
                  ((pos + len - 1) / d.chunkSize + 1 - pos / d.chunkSize))
                    (pos % d.chunkSize) len = .ok (slice P pos len) :=
                slice_join_block hcs (Nat.pos_of_ne_zero hz) (by omega)
              have hsame := Except.ok.inj (hslice.symm.trans hcut)
              rw [← hsame, hmin, slice_min_length]

end Reads

/-! ### Handles -/

/-- What a user of a read handle does. -/
inductive ReadCall
  | read (length : Nat)
  | seek (pos : Nat)
  deriving Repr, DecidableEq

section Handles

variable {σ : Type} {B : Bridge σ}

/-- The handle and the server after a call, whether or not it throws. -/
def FileReadHandle.step (C : Primitives) (B : Bridge σ) :
    FileReadHandle × σ → ReadCall → FileReadHandle × σ → Prop
  | (h, s), .read length, next => next = (h.read C B length s).2
  | (h, s), .seek pos, next =>
      next =
        match h.seek pos with
        | .ok h' => (h', s)
        | .error _ => (h, s)

/-- A read is a run of one call. -/
theorem FileReadHandle.run_read (h : FileReadHandle) (s : σ) (length : Nat) :
    Run (FileReadHandle.step C B) (h, s) [.read length] (h.read C B length s).2 :=
  .cons rfl (.nil _)

/-- An authentic reader with the size of the plain text. -/
structure FileReadHandle.Authentic (C : Primitives) (h : FileReadHandle)
    (d : FileDecryptionParams) (P : Bytes) (ivs : Nat → Iv) : Prop where
  chunkReader : h.fileReader.chunkReader.Authentic C d P ivs
  plainfileSize_eq : h.fileReader.plainfileSize = P.length

/-- A file is only opened with its own tags. -/
theorem openChunkReader_authentic (hfile : CreatedFile C d P ivs)
    (hno : NoSecondPreimage C d P ivs) {win : Nat} {s s' : σ} {r : ChunkReader}
    (hopen : openChunkReader C B d win s = (.ok r, s')) : r.Authentic C d P ivs := by
  unfold openChunkReader at hopen
  dsimp only at hopen
  split at hopen
  · cases hopen
  split at hopen
  · cases hopen
  rename_i checksums s₁ _ _ hashList hlist
  obtain ⟨hsound, -, hhashes, htop⟩ := HmacList.sound_create hlist
  have htags : checksums = tagString C d P ivs := hno.tags checksums (htop.trans hfile.hmac_eq)
  have hlength : (tagString C d P ivs).length = chunksFor d.chunkSize P.length * HMAC_SIZE :=
    length_join fun j _ _ => length_encChunk_hmac ivs j
  have hsize : hashList.size = chunksFor d.chunkSize P.length := by
    have hcount := hsound.length_eq
    rw [hhashes, htags, hlength] at hcount
    exact (Nat.eq_of_mul_eq_mul_right (by decide) hcount).symm
  rw [Prod.mk.injEq] at hopen
  obtain ⟨hreader, -⟩ := hopen
  unfold ChunkReader.create at hreader
  split at hreader
  · cases hreader
  · cases hreader
    exact ⟨rfl, hsize, hhashes.trans htags, fun _ h => by cases h⟩

/-- A handle that was just opened holds no chunk. -/
theorem FileReadHandle.authentic_create (hfile : CreatedFile C d P ivs)
    (hno : NoSecondPreimage C d P ivs) {win : Nat} {s s' : σ} {h : FileReadHandle}
    (hcreate : FileReadHandle.create C B d win s = (.ok h, s')) : h.Authentic C d P ivs := by
  unfold FileReadHandle.create at hcreate
  cases hopen : openChunkReader C B d win s with
  | mk result s₁ =>
      rw [hopen] at hcreate
      cases result with
      | error e => cases hcreate
      | ok r =>
          cases hcreate
          exact ⟨openChunkReader_authentic hfile hno hopen, hfile.originalSize_eq⟩

/-- A read returns the file's own bytes and leaves an authentic handle. -/
theorem FileReadHandle.Authentic.read (hfile : CreatedFile C d P ivs)
    (hno : NoSecondPreimage C d P ivs) {h : FileReadHandle} (hh : h.Authentic C d P ivs)
    (length : Nat) (s : σ) :
    (h.read C B length s).2.1.Authentic C d P ivs ∧
      ∀ data, (h.read C B length s).1 = .ok data → h.pos + length < 2 ^ 64 →
        data = slice P h.pos length := by
  have hread := ChunkReader.read_authenticated (B := B) (s := s) hno hfile.chunkSize_pos
    (hfile.originalSize_eq ▸ hfile.originalSize_lt) hh.chunkReader h.pos length
  rw [← hh.plainfileSize_eq] at hread
  unfold FileReadHandle.read FileReader.read
  cases hcall : h.fileReader.chunkReader.read C B h.fileReader.plainfileSize h.pos length s with
  | mk result rest =>
      obtain ⟨r', s'⟩ := rest
      rw [hcall] at hread
      cases result with
      | error e => exact ⟨⟨hread.1, hh.plainfileSize_eq⟩, fun _ h => by cases h⟩
      | ok data =>
          refine ⟨⟨hread.1, hh.plainfileSize_eq⟩, ?_⟩
          rintro all hall hsum
          obtain rfl := Except.ok.inj hall
          exact hread.2 data rfl hsum

/-- **Step.** Every call leaves an authentic handle. -/
theorem FileReadHandle.Authentic.step (hfile : CreatedFile C d P ivs)
    (hno : NoSecondPreimage C d P ivs) {x y : FileReadHandle × σ} {call : ReadCall}
    (hx : x.1.Authentic C d P ivs) (hstep : FileReadHandle.step C B x call y) :
    y.1.Authentic C d P ivs := by
  obtain ⟨h, s⟩ := x
  cases call with
  | read length =>
      obtain rfl := hstep
      exact (FileReadHandle.Authentic.read hfile hno hx length s).1
  | seek pos =>
      obtain rfl := hstep
      unfold FileReadHandle.seek
      split
      · rename_i h' hseek
        split at hseek
        · cases hseek
        · cases hseek
          exact ⟨hx.chunkReader, hx.plainfileSize_eq⟩
      · exact hx

end Handles

/-- **Integrity of a file.**  Whatever the server answers, a read of an opened
file throws or returns the original bytes, and so it does after any other
calls. -/
theorem FileReadHandle.read_original {σ : Type} (B : Bridge σ) (hfile : CreatedFile C d P ivs)
    (hno : NoSecondPreimage C d P ivs) (win : Nat) {s s₁ : σ} {h : FileReadHandle}
    (hcreate : FileReadHandle.create C B d win s = (.ok h, s₁)) {calls : List ReadCall}
    {h' : FileReadHandle} {s' : σ}
    (hrun : Run (FileReadHandle.step C B) (h, s₁) calls (h', s')) (length : Nat)
    (hsum : h'.pos + length < 2 ^ 64) {data : Bytes}
    (hread : (h'.read C B length s').1 = .ok data) :
    data = slice P h'.pos length ∧ data.length = min length (d.originalSize - h'.pos) := by
  have hauthentic : h'.Authentic C d P ivs :=
    hrun.preserves (fun x => x.1.Authentic C d P ivs)
      (fun _ _ _ hx hstep => hx.step hfile hno hstep)
      (FileReadHandle.authentic_create hfile hno hcreate)
  have hdata := (hauthentic.read hfile hno length s').2 data hread hsum
  refine ⟨hdata, ?_⟩
  rw [hdata, length_slice, hfile.originalSize_eq]

/-! ### A file of three chunks and a server that replays -/

/-- What is encrypted of a chunk with one byte: a vector of zeros and the padded
byte. -/
def markedMessage (byte : UInt8) : Bytes :=
  List.replicate 16 0 ++ samplePad [byte]

/-- The tags of the chunks of the file 1, 2, 3. -/
def markedTags : Bytes :=
  List.replicate 32 1 ++ List.replicate 32 2 ++ List.replicate 32 3

/-- A tag that tells the messages of that file from all others. -/
def markerHmac (_key message : Bytes) : Bytes :=
  if message = markedMessage 1 then
    List.replicate 32 1
  else if message = markedMessage 2 then
    List.replicate 32 2
  else if message = markedMessage 3 then
    List.replicate 32 3
  else if message = markedTags then
    List.replicate 32 4
  else
    List.replicate 32 0

/-- The sample primitives with that tag. -/
def markerPrimitives : Primitives :=
  { samplePrimitives with
    hmacSha256 := markerHmac
    hmacSha256_length := fun _ message => by
      unfold markerHmac
      split
      · rfl
      · split
        · rfl
        · split
          · rfl
          · split
            · rfl
            · rfl }

/-- The parameters of that file, with chunks of one byte. -/
def markedParams : FileDecryptionParams where
  fileId := "file"
  resourceId := "resource"
  sizeOnServer := 192
  originalSize := 3
  cipherType := 1
  chunkSize := 1
  key := sampleKey
  hmac := List.replicate 32 4
  version := 1

/-- The encrypted chunk of a byte. -/
def markedChunk (byte : UInt8) : Bytes :=
  List.replicate 32 byte ++ markedMessage byte

/-- A server that sends the chunks it has planned, whatever slice it is asked for. -/
def markedBridge : Bridge (List Bytes) where
  storeFileRead m plan :=
    match m.range with
    | .checksum => (.ok markedTags, plan)
    | .slice _ _ => (.ok plan.headI, plan.tail)
  storeFileWrite _ plan := (.error (.server 0), plan)

/-- The tags of the sample file. -/
theorem tagString_marked :
    tagString markerPrimitives markedParams [1, 2, 3] (fun _ => sampleIv) = markedTags := by
  decide

/-- The sample file was made as the code makes it. -/
theorem markedParams_created :
    CreatedFile markerPrimitives markedParams [1, 2, 3] (fun _ => sampleIv) where
  chunkSize_pos := by decide
  originalSize_eq := rfl
  originalSize_lt := by decide
  hmac_eq := by
    rw [tagString_marked]
    decide

/-- The marks of the chunks. -/
theorem markerHmac_markedMessage (key : Bytes) {byte : UInt8} (hbyte : byte ∈ [(1 : UInt8), 2, 3]) :
    markerHmac key (markedMessage byte) = List.replicate 32 byte := by
  simp only [List.mem_cons, List.not_mem_nil, or_false] at hbyte
  obtain rfl | rfl | rfl := hbyte
  · rfl
  · rfl
  · rfl

/-- Only the string of tags has its mark. -/
theorem eq_markedTags {key message : Bytes}
    (h : markerHmac key message = List.replicate 32 4) : message = markedTags := by
  unfold markerHmac at h
  split_ifs at h with h₁ h₂ h₃ h₄
  · exact absurd h (by decide)
  · exact absurd h (by decide)
  · exact absurd h (by decide)
  · exact h₄
  · exact absurd h (by decide)

/-- Only a chunk has the mark of the chunk. -/
theorem eq_markedMessage {key message : Bytes} {byte : UInt8}
    (hbyte : byte ∈ [(1 : UInt8), 2, 3])
    (h : markerHmac key message = List.replicate 32 byte) : message = markedMessage byte := by
  have hbyte_eq : ∀ mark : UInt8, List.replicate 32 mark = List.replicate 32 byte → mark = byte :=
    fun _ heq => (List.replicate_right_injective (by decide) heq)
  unfold markerHmac at h
  split_ifs at h with h₁ h₂ h₃ h₄
  · rw [h₁, hbyte_eq _ h]
  · rw [h₂, hbyte_eq _ h]
  · rw [h₃, hbyte_eq _ h]
  · rw [← hbyte_eq _ h] at hbyte
    exact absurd hbyte (by decide)
  · rw [← hbyte_eq _ h] at hbyte
    exact absurd hbyte (by decide)

/-- A message that is marked like a chunk is that chunk. -/
theorem markedMessage_unique (key : Bytes) (byte : UInt8) (hbyte : byte ∈ [(1 : UInt8), 2, 3])
    {message message' : Bytes} (hmessage : message' = markedMessage byte)
    (h : markerHmac key message = markerHmac key message') : message = message' := by
  rw [hmessage, markerHmac_markedMessage key hbyte] at h
  rw [hmessage]
  exact eq_markedMessage hbyte h

/-- No other chunk has a tag of the sample file. -/
theorem markedParams_noSecondPreimage :
    NoSecondPreimage markerPrimitives markedParams [1, 2, 3] (fun _ => sampleIv) where
  tags x h := by
    rw [tagString_marked] at h ⊢
    have hmark : markerHmac sampleKey markedTags = List.replicate 32 4 := by decide
    have hsame : markerHmac sampleKey x = markerHmac sampleKey markedTags := h
    exact eq_markedTags (hsame.trans hmark)
  chunk i hi x h := by
    have hthree : chunksFor markedParams.chunkSize [(1 : UInt8), 2, 3].length = 3 := by decide
    rw [hthree] at hi
    obtain rfl | rfl | rfl : i = 0 ∨ i = 1 ∨ i = 2 := by omega
    · exact markedMessage_unique [] 1 (by decide) (by decide) h
    · exact markedMessage_unique [] 2 (by decide) (by decide) h
    · exact markedMessage_unique [] 3 (by decide) (by decide) h

/-- The handle of the file, with what it keeps. -/
def markedHandle (lastServerChunk : Bytes) (lastServerChunkNumber : Nat)
    (lastChunk : Option DecryptedChunk) (pos : Nat) : FileReadHandle where
  fileReader :=
    { chunkReader :=
        { chunkDataProvider :=
            { encryptedChunkSize := 64
              serverChunkSize := 64
              fileId := "file"
              serverFileSize := 192
              fileVersion := 1
              lastServerChunk := lastServerChunk
              lastServerChunkNumber := some lastServerChunkNumber }
          chunkEncryptor := markedParams.encryptor
          hashList :=
            { topHashKey := sampleKey
              topHash := some (List.replicate 32 4)
              hashes := markedTags
              size := 3 }
          version := 1
          lastChunk := lastChunk }
      plainfileSize := 3 }
  size := 3
  pos := pos

/-- The sample handle opens without a request. -/
theorem markedHandle_create (plan : List Bytes) :
    FileReadHandle.create markerPrimitives markedBridge markedParams 1 plan =
      (.ok (markedHandle [] (2 ^ 32 - 1) none 0), plan) := by
  rfl

/-- The second chunk. -/
theorem markedHandle_read_second (plan : List Bytes) :
    (markedHandle [] (2 ^ 32 - 1) none 1).read markerPrimitives markedBridge 1
        (markedChunk 2 :: plan) =
      (.ok [2], markedHandle (markedChunk 2) 1 (some ⟨[2], 1⟩) 2, plan) := by
  have hchunks : ChunkReader.getDecryptedChunks markerPrimitives markedBridge 1 1
      (markedHandle [] (2 ^ 32 - 1) none 1).fileReader.chunkReader (markedChunk 2 :: plan) =
        (.ok [2], (markedHandle (markedChunk 2) 1 (some ⟨[2], 1⟩) 1).fileReader.chunkReader,
          plan) := rfl
  have hread : (markedHandle [] (2 ^ 32 - 1) none 1).fileReader.chunkReader.read
      markerPrimitives markedBridge (markedHandle [] (2 ^ 32 - 1) none 1).fileReader.plainfileSize
      (markedHandle [] (2 ^ 32 - 1) none 1).pos 1 (markedChunk 2 :: plan) =
        match ChunkReader.getDecryptedChunks markerPrimitives markedBridge 1 1
          (markedHandle [] (2 ^ 32 - 1) none 1).fileReader.chunkReader (markedChunk 2 :: plan) with
        | (.error e, r, s) => (.error e, r, s)
        | (.ok data, r, s) => (substr data (r.filePosToPosInFileChunk 1) 1, r, s) := rfl
  unfold FileReadHandle.read FileReader.read
  rw [hread, hchunks]
  rfl

/-- The second chunk is sent once more in place of the first. -/
theorem markedHandle_read_replayed (plan : List Bytes) :
    (markedHandle (markedChunk 2) 1 (some ⟨[2], 1⟩) 0).read markerPrimitives markedBridge 1
        (markedChunk 2 :: plan) =
      (.error .fileChunkInvalidChecksum, markedHandle (markedChunk 2) 0 (some ⟨[2], 1⟩) 0,
        plan) := by
  rfl

/-- Whatever else the server has in mind, the first two chunks it sends are read. -/
theorem markedHandle_run (plan : List Bytes) :
    Run (FileReadHandle.step markerPrimitives markedBridge)
      (markedHandle [] (2 ^ 32 - 1) none 0, markedChunk 2 :: markedChunk 2 :: plan)
      [.seek 1, .read 1, .seek 0, .read 1, .seek 1]
      (markedHandle (markedChunk 2) 0 (some ⟨[2], 1⟩) 1, plan) := by
  have hread := congrArg Prod.snd (markedHandle_read_second (markedChunk 2 :: plan)).symm
  have hreplayed := congrArg Prod.snd (markedHandle_read_replayed plan).symm
  exact .cons rfl (.cons hread (.cons rfl (.cons hreplayed (.cons rfl (.nil _)))))

/-- After the second chunk the server sends it once more in place of the first, which
throws.  Whatever it sends then, a read of two bytes at the second one throws or returns 2
and 3: it returns them when the third chunk comes, and throws when the first chunk or half
of the third is sent in its place. -/
theorem FileReadHandle.read_original_sample :
    ∃ h h' : FileReadHandle,
      (∀ plan, FileReadHandle.create markerPrimitives markedBridge markedParams 1
        (markedChunk 2 :: markedChunk 2 :: plan) =
          (.ok h, markedChunk 2 :: markedChunk 2 :: plan)) ∧
      (∀ plan, Run (FileReadHandle.step markerPrimitives markedBridge)
        (h, markedChunk 2 :: markedChunk 2 :: plan)
        [.seek 1, .read 1, .seek 0, .read 1, .seek 1] (h', plan)) ∧
      (∀ plan data, (h'.read markerPrimitives markedBridge 2 plan).1 = .ok data →
        data = [2, 3]) ∧
      (h'.read markerPrimitives markedBridge 2 [markedChunk 3]).1 = .ok [2, 3] ∧
      (h'.read markerPrimitives markedBridge 2 [markedChunk 1]).1 =
        .error .fileChunkInvalidChecksum ∧
      (h'.read markerPrimitives markedBridge 2 [(markedChunk 3).take 40]).1 =
        .error .fileChunkInvalidCipherChecksum := by
  refine ⟨_, _, fun plan => markedHandle_create _, markedHandle_run, ?_, rfl, rfl, rfl⟩
  intro plan data hread
  exact (FileReadHandle.read_original markedBridge markedParams_created
    markedParams_noSecondPreimage 1 (markedHandle_create _) (markedHandle_run plan) 2
    (by decide) hread).1

end PrivmxEndpoint
