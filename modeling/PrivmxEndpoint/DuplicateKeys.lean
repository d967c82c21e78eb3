import PrivmxEndpoint.KeyRequests

/-!
# Duplicates do not depend on the order of the keys

`KeyProvider::verifyForDuplication` walks over an unordered map and marks, for each
key whose random id and timestamp it has met before, this key and the first one it
met.  The marks change the statuses that decide which keys are compared, among them
that of a key which the walk has left behind.

`DuplicatesMarked` says what the map holds afterwards, key by key and without an
order; the closed form of the loop gives it for every order of iteration.
-/

namespace PrivmxEndpoint

open KeyRequest

/-- The keys after duplicates were looked for: every key stands where it stood; one
that took part keeps the status zero exactly if no other one that took part has its
random id and timestamp; those that share them carry the mark; nothing else has
changed. -/
structure DuplicatesMarked (keys result : List (Bytes × DecryptedEncKeyV2)) : Prop where
  distinct : DistinctKeys result
  absent : ∀ keyId, keys.lookup keyId = none → result.lookup keyId = none
  eligible : ∀ keyId key, (keyId, key) ∈ keys → key.compared →
    ∃ key', result.lookup keyId = some key' ∧
      (key'.statusCode = 0 ↔
        ¬ ∃ other ∈ keys, other.1 ≠ keyId ∧ other.2.compared ∧ other.2.nonce = key.nonce)
  group : ∀ keyId key, (keyId, key) ∈ keys → Duplicate keys (keyId, key) →
    result.lookup keyId = some { key with statusCode := dataIntegrityObjectDuplicated.1 }
  others : ∀ keyId key, (keyId, key) ∈ keys → ¬ Duplicate keys (keyId, key) →
    result.lookup keyId = some key

section Order

variable {keys order : List (Bytes × DecryptedEncKeyV2)}

/-- Being a duplicate is a matter of the members of the map. -/
theorem duplicate_iff_of_order (horder : order.Perm keys) (p : Bytes × DecryptedEncKeyV2) :
    Duplicate order p ↔ Duplicate keys p := by
  have hmem : ∀ q, q ∈ order ↔ q ∈ keys := fun q => horder.mem_iff
  simp only [Duplicate, hmem]

theorem markDuplicate_of_order (horder : order.Perm keys) :
    markDuplicate order = markDuplicate keys := by
  funext p
  simp only [markDuplicate, duplicate_iff_of_order horder]

theorem distinctKeys_map_markDuplicate (hdistinct : DistinctKeys keys) :
    DistinctKeys (keys.map (markDuplicate keys)) := by
  have hids : (keys.map (markDuplicate keys)).map Prod.fst = keys.map Prod.fst := by
    rw [List.map_map]
    rfl
  rw [DistinctKeys, hids]
  exact hdistinct

/-- A key of the map is found under its id, marked if it is a duplicate. -/
theorem lookup_map_markDuplicate (hdistinct : DistinctKeys keys) {keyId : Bytes}
    {key : DecryptedEncKeyV2} (hkey : (keyId, key) ∈ keys) :
    (keys.map (markDuplicate keys)).lookup keyId =
      some (if Duplicate keys (keyId, key) then key.duplicated else key) := by
  apply lookup_of_mem (distinctKeys_map_markDuplicate hdistinct)
  exact List.mem_map.mpr ⟨(keyId, key), hkey, rfl⟩

/-- The closed form meets the description. -/
theorem duplicatesMarked_map (hdistinct : DistinctKeys keys) :
    DuplicatesMarked keys (keys.map (markDuplicate keys)) where
  distinct := distinctKeys_map_markDuplicate hdistinct
  absent := by
    intro keyId hnone
    rw [List.lookup_eq_none_iff] at hnone ⊢
    intro p hp
    obtain ⟨q, hq, rfl⟩ := List.mem_map.mp hp
    exact hnone q hq
  eligible := by
    intro keyId key hkey hcompared
    refine ⟨_, lookup_map_markDuplicate hdistinct hkey, ?_⟩
    by_cases hdup : Duplicate keys (keyId, key)
    · have hmark : key.duplicated.statusCode ≠ 0 := dataIntegrityObjectDuplicated.2
      rw [if_pos hdup]
      exact ⟨fun hzero => absurd hzero hmark, fun hnone => absurd hdup.2 hnone⟩
    · rw [if_neg hdup]
      exact ⟨fun _ htwin => hdup ⟨hcompared, htwin⟩, fun _ => hcompared.1⟩
  group := by
    intro keyId key hkey hdup
    rw [lookup_map_markDuplicate hdistinct hkey, if_pos hdup]
    rfl
  others := by
    intro keyId key hkey hdup
    rw [lookup_map_markDuplicate hdistinct hkey, if_neg hdup]

/-- The description does not see the order of the result. -/
theorem DuplicatesMarked.of_perm {result result' : List (Bytes × DecryptedEncKeyV2)}
    (h : DuplicatesMarked keys result) (hperm : result.Perm result') :
    DuplicatesMarked keys result' where
  distinct := (hperm.map Prod.fst).nodup_iff.mp h.distinct
  absent := by
    intro keyId hnone
    rw [lookup_eq_of_perm h.distinct hperm]
    exact h.absent keyId hnone
  eligible := by
    intro keyId key hkey hcompared
    rw [lookup_eq_of_perm h.distinct hperm]
    exact h.eligible keyId key hkey hcompared
  group := by
    intro keyId key hkey hdup
    rw [lookup_eq_of_perm h.distinct hperm]
    exact h.group keyId key hkey hdup
  others := by
    intro keyId key hkey hdup
    rw [lookup_eq_of_perm h.distinct hperm]
    exact h.others keyId key hkey hdup

/-- **Duplicates are found in every order.**  Whatever the order in which the map is
walked over, the marks are those of `DuplicatesMarked`, two orders give the same map,
and the guard of `decryptAndVerifyKeys` against maps of one key leaves nothing out. -/
theorem KeyProvider.verifyForDuplication_marks (hdistinct : DistinctKeys keys)
    (horder : order.Perm keys) :
    DuplicatesMarked keys (KeyProvider.verifyForDuplication order) ∧
      (KeyProvider.verifyForDuplication order).Perm (KeyProvider.verifyForDuplication keys) ∧
      (if 1 < order.length then KeyProvider.verifyForDuplication order else order) =
        KeyProvider.verifyForDuplication order := by
  have hdistinct' : DistinctKeys order := (horder.map Prod.fst).nodup_iff.mpr hdistinct
  have hperm : (KeyProvider.verifyForDuplication order).Perm
      (KeyProvider.verifyForDuplication keys) := by
    rw [KeyProvider.verifyForDuplication_eq hdistinct',
      KeyProvider.verifyForDuplication_eq hdistinct, markDuplicate_of_order horder]
    exact horder.map _
  refine ⟨?_, hperm, ?_⟩
  · apply DuplicatesMarked.of_perm _ hperm.symm
    rw [KeyProvider.verifyForDuplication_eq hdistinct]
    exact duplicatesMarked_map hdistinct
  · split
    · rfl
    · rename_i hlen
      rw [KeyProvider.verifyForDuplication_eq hdistinct',
        map_markDuplicate_of_length_le_one (by omega)]

/-- Three keys with one random id and a fourth with another. -/
def sampleTriple : List (Bytes × DecryptedEncKeyV2) :=
  [([1], 7), ([2], 7), ([3], 8), ([4], 7)].map fun p =>
    (p.1, { DecryptedEncKeyV2.blank 2 0 with
      dio := { (DecryptedEncKeyV2.blank 2 0).dio with creatorPubKey := [9], randomId := [p.2] } })

/-- The triple is marked when the map is walked over backwards, too. -/
theorem KeyProvider.verifyForDuplication_marks_sample :
    DuplicatesMarked sampleTriple (KeyProvider.verifyForDuplication sampleTriple.reverse) ∧
      (KeyProvider.verifyForDuplication sampleTriple.reverse).map (·.2.statusCode) =
        [dataIntegrityObjectDuplicated.1, 0, dataIntegrityObjectDuplicated.1,
          dataIntegrityObjectDuplicated.1] :=
  have hdistinct : DistinctKeys sampleTriple := by
    unfold DistinctKeys
    decide
  ⟨(KeyProvider.verifyForDuplication_marks hdistinct sampleTriple.reverse_perm).1, by decide⟩

end Order

end PrivmxEndpoint
