import PrivmxEndpoint.ChunkEncryptor

/-!
# The list of chunk tags

`HmacList` keeps the HMACs of all chunks of a file in one flat string, their
number in a counter of its own and the HMAC over the whole string in a lazily
recomputed cache.  `HmacList.Sound` ties the three together; every operation
keeps it, and replacing a run of tags is one write into the flat string.
-/

namespace PrivmxEndpoint

open Word

/-- The fields of `HmacList`. -/
structure HmacList where
  topHashKey : Bytes
  topHash : Option Bytes
  size : Nat
  hashes : Bytes
  deriving Repr, DecidableEq

/-- The constructor of `HmacList`. -/
def HmacList.create (C : Primitives) (topHashKey topHash hashes : Bytes) :
    Except StoreError HmacList :=
  let computed := C.hmacSha256 topHashKey hashes
  if computed ≠ topHash then
    .error .invalidFileTopHash
  else if hashes.length % HMAC_SIZE ≠ 0 then
    .error .invalidHashSize
  else
    .ok
      { topHashKey := topHashKey
        topHash := some computed
        size := hashes.length / HMAC_SIZE
        hashes := hashes }

/-- `HmacList::sync`; an exception leaves the list as it was. -/
def HmacList.sync (C : Primitives) (_l : HmacList) (topHashKey topHash hashes : Bytes) :
    Except StoreError HmacList :=
  HmacList.create C topHashKey topHash hashes

/-- `HmacList::setAll`. -/
def HmacList.setAll (l : HmacList) (hashes : Bytes) : Except StoreError HmacList :=
  if hashes.length % HMAC_SIZE ≠ 0 then
    .error .invalidHashSize
  else
    .ok { l with hashes := hashes, topHash := none, size := hashes.length / HMAC_SIZE }

/-- `HmacList::set`. -/
def HmacList.set (l : HmacList) (chunkIndex : Nat) (hash : Bytes) (truncate : Bool) :
    Except StoreError HmacList :=
  if hash.length ≠ HMAC_SIZE then
    .error .invalidHashSize
  else if chunkIndex < l.size then
    .ok
      { l with
        hashes := Splice.writeAt l.hashes (chunkIndex * HMAC_SIZE) hash truncate
        size := if truncate then chunkIndex + 1 else l.size
        topHash := none }
  else if chunkIndex = l.size then
    .ok { l with size := l.size + 1, hashes := l.hashes ++ hash, topHash := none }
  else
    .error .hashIndexOutOfBounds

/-- `HmacList::getHash`. -/
def HmacList.getHash (l : HmacList) (chunkIndex : Nat) : Except StoreError Bytes :=
  if chunkIndex > l.size then
    .error .hashIndexOutOfBounds
  else
    substr l.hashes (chunkIndex * HMAC_SIZE) HMAC_SIZE

/-- `HmacList::getAll`. -/
def HmacList.getAll (l : HmacList) : Bytes :=
  l.hashes

/-- `HmacList::getTopHash`, which fills the cache. -/
def HmacList.getTopHash (C : Primitives) (l : HmacList) : Bytes × HmacList :=
  match l.topHash with
  | some t => (t, l)
  | none =>
      let t := C.hmacSha256 l.topHashKey l.hashes
      (t, { l with topHash := some t })

/-- `HmacList::getHashSize`. -/
def HmacList.getHashSize (_l : HmacList) : Nat :=
  HMAC_SIZE

/-- The counter counts the tags and a cached top hash is the HMAC of the
stored string. -/
structure HmacList.Sound (C : Primitives) (l : HmacList) : Prop where
  length_eq : l.hashes.length = l.size * HMAC_SIZE
  topHash_eq : ∀ t, l.topHash = some t → t = C.hmacSha256 l.topHashKey l.hashes

variable {C : Primitives} {l l' : HmacList}

theorem HmacList.sound_create {topHashKey topHash hashes : Bytes}
    (h : HmacList.create C topHashKey topHash hashes = .ok l) :
    l.Sound C ∧ l.topHashKey = topHashKey ∧ l.hashes = hashes ∧
      C.hmacSha256 topHashKey hashes = topHash := by
  simp only [HmacList.create] at h
  by_cases htop : C.hmacSha256 topHashKey hashes = topHash
  · by_cases hmod : hashes.length % HMAC_SIZE = 0
    · rw [if_neg (by simpa using htop), if_neg (by simpa using hmod)] at h
      cases h
      refine ⟨⟨?_, fun t ht => (Option.some.inj ht).symm⟩, rfl, rfl, htop⟩
      simp only [HMAC_SIZE] at hmod ⊢
      omega
    · simp [htop, hmod] at h
  · simp [htop] at h

/-- Opening succeeds on a string of whole tags whose HMAC is the given one. -/
theorem HmacList.create_ok {topHashKey hashes : Bytes} {n : Nat}
    (hlen : hashes.length = n * HMAC_SIZE) :
    HmacList.create C topHashKey (C.hmacSha256 topHashKey hashes) hashes =
      .ok
        { topHashKey := topHashKey
          topHash := some (C.hmacSha256 topHashKey hashes)
          size := n
          hashes := hashes } := by
  have hmod : ¬ hashes.length % HMAC_SIZE ≠ 0 := by
    rw [hlen]
    simp
  have hdiv : hashes.length / HMAC_SIZE = n := by
    rw [hlen, HMAC_SIZE]
    omega
  rw [HmacList.create]
  simp only [ne_eq, not_true_eq_false, if_false, hdiv]
  rw [if_neg (by simpa using hmod)]

/-- Setting a tag of the list or the one behind its end is a write into the
flat string. -/
theorem HmacList.set_eq (hl : l.hashes.length = l.size * HMAC_SIZE) {i : Nat} {hash : Bytes}
    (hi : i ≤ l.size) (hhash : hash.length = HMAC_SIZE) (truncate : Bool) :
    l.set i hash truncate =
      .ok
        { l with
          hashes := Splice.writeAt l.hashes (i * HMAC_SIZE) hash truncate
          size := if truncate then i + 1 else max l.size (i + 1)
          topHash := none } := by
  rw [HmacList.set, if_neg (by simpa using hhash)]
  by_cases hlt : i < l.size
  · rw [if_pos hlt]
    have hmax : max l.size (i + 1) = l.size := by omega
    rw [hmax]
  · have heq : i = l.size := by omega
    rw [if_neg hlt, if_pos heq, heq, ← hl, Splice.writeAt_length]
    simp

theorem HmacList.getTopHash_fst (h : l.Sound C) :
    (l.getTopHash C).1 = C.hmacSha256 l.topHashKey l.hashes := by
  unfold HmacList.getTopHash
  split
  · rename_i t ht
    exact h.topHash_eq t ht
  · rfl

theorem HmacList.getTopHash_snd (h : l.Sound C) :
    (l.getTopHash C).2 = { l with topHash := some (C.hmacSha256 l.topHashKey l.hashes) } := by
  unfold HmacList.getTopHash
  split
  · rename_i t ht
    have := h.topHash_eq t ht
    cases l
    simp_all
  · rfl

theorem HmacList.getHash_eq (hl : l.hashes.length = l.size * HMAC_SIZE) {i : Nat}
    (hi : i ≤ l.size) :
    l.getHash i = .ok (Splice.slice l.hashes (i * HMAC_SIZE) HMAC_SIZE) := by
  have hpos : i * HMAC_SIZE ≤ l.hashes.length := by
    rw [hl]
    exact Nat.mul_le_mul_right _ hi
  rw [HmacList.getHash, if_neg (by omega), substr_of_le _ hpos]

end PrivmxEndpoint
