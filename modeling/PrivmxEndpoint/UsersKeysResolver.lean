import PrivmxEndpoint.SortedDifference
import PrivmxEndpoint.StoreTypes

/-!
# Which members need which keys

When the members of a container change, `UsersKeysResolver::init` decides
whether a new key is needed and who has to be given the existing keys.  It
joins users and managers in a map keyed on the concatenation of user id and
public key, and compares the sorted id lists behind their common prefix.

Two things go wrong for arbitrary lists.  Two members whose concatenations
agree leave one entry in the map.  And a user id with several public keys makes
the second list repeat an id, which the scan reports as added if the repetition
ends the common prefix (`UsersKeysResolver.decides_keys_iff`).
-/

namespace PrivmxEndpoint

open SortedDifference

/-- The order of `std::string` on single bytes. -/
instance instLinearOrderUInt8 : LinearOrder UInt8 where
  le_refl := UInt8.le_refl
  le_trans _ _ _ := UInt8.le_trans
  lt_iff_le_not_ge a b := by
    simp only [UInt8.lt_iff_toNat_lt, UInt8.le_iff_toNat_le]
    omega
  le_antisymm _ _ := UInt8.le_antisymm
  le_total := UInt8.le_total
  toDecidableLE := inferInstance

/-- `UserWithPubKey`. -/
structure UserWithPubKey where
  userId : Bytes
  pubKey : Bytes
  deriving Repr, DecidableEq

/-- The key of a member in the map of `uniqueListUserWithPubKey`. -/
def UserWithPubKey.mapKey (u : UserWithPubKey) : Bytes :=
  u.userId ++ u.pubKey

/-- One loop of `uniqueListUserWithPubKey`. -/
def EndpointUtils.assignAll (map : Std.TreeMap Bytes UserWithPubKey) (list : List UserWithPubKey) :
    Std.TreeMap Bytes UserWithPubKey :=
  list.foldl (fun map a => map.insert a.mapKey a) map

/-- `EndpointUtils::uniqueListUserWithPubKey`. -/
def EndpointUtils.uniqueListUserWithPubKey (list1 list2 : List UserWithPubKey) :
    List UserWithPubKey :=
  (EndpointUtils.assignAll (EndpointUtils.assignAll ∅ list1) list2).toList.map Prod.snd

/-- `EndpointUtils::getDifference`. -/
def EndpointUtils.getDifference (baseList subList : List Bytes) : List Bytes :=
  let vec1 := baseList.insertionSort (· ≤ ·)
  let vec2 := subList.insertionSort (· ≤ ·)
  skipDiff vec1 vec2

/-- `EndpointUtils::uniqueList`. -/
def EndpointUtils.uniqueList (list1 list2 : List Bytes) : List Bytes :=
  ((∅ : Std.TreeSet Bytes).insertMany (list1 ++ list2)).toList

/-- `EndpointUtils::usersWithPubKeyToIds`. -/
def EndpointUtils.usersWithPubKeyToIds (users : List UserWithPubKey) : List Bytes :=
  users.map UserWithPubKey.userId

/-- The fields of `UsersKeysResolver`. -/
structure UsersKeysResolver where
  usersToAddMissingKey : List UserWithPubKey
  newUsers : List UserWithPubKey
  needNewKey : Bool
  deriving Repr, DecidableEq

/-- `UsersKeysResolver::init`; of the module's current key only its
`dataStructureVersion` is read. -/
def UsersKeysResolver.init (currentUserIds currentManagerIds : List Bytes)
    (users managers : List UserWithPubKey) (forceGenerateNewKey : Bool)
    (dataStructureVersion : Int) : UsersKeysResolver :=
  let oldUsersIds := EndpointUtils.uniqueList currentUserIds currentManagerIds
  let newUsers := EndpointUtils.uniqueListUserWithPubKey users managers
  let newUsersIds := EndpointUtils.usersWithPubKeyToIds newUsers
  let deletedUsersIds := EndpointUtils.getDifference oldUsersIds newUsersIds
  let addedUsersIds := EndpointUtils.getDifference newUsersIds oldUsersIds
  { usersToAddMissingKey :=
      if dataStructureVersion < 2 then newUsers
      else newUsers.filter (·.userId ∈ addedUsersIds)
    newUsers := newUsers
    needNewKey := decide (0 < deletedUsersIds.length) || forceGenerateNewKey }

/-! ## The helpers -/

/-- The union has the members of both lists. -/
theorem EndpointUtils.mem_uniqueList (list1 list2 : List Bytes) (x : Bytes) :
    x ∈ EndpointUtils.uniqueList list1 list2 ↔ x ∈ list1 ++ list2 := by
  simp [EndpointUtils.uniqueList, Std.TreeSet.mem_toList]

/-- It names none twice. -/
theorem EndpointUtils.nodup_uniqueList (list1 list2 : List Bytes) :
    (EndpointUtils.uniqueList list1 list2).Nodup := by
  refine Std.TreeSet.distinct_toList.imp ?_
  rintro a b hne rfl
  exact hne Std.ReflCmp.compare_self

/-- The map holds members of the list under their keys, one for each key. -/
structure EndpointUtils.Collects (map : Std.TreeMap Bytes UserWithPubKey)
    (list : List UserWithPubKey) : Prop where
  sound : ∀ k u, map[k]? = some u → u.mapKey = k ∧ u ∈ list
  complete : ∀ u ∈ list, ∃ v, map[u.mapKey]? = some v

/-- One more user is collected. -/
theorem EndpointUtils.Collects.insert {map : Std.TreeMap Bytes UserWithPubKey}
    {list : List UserWithPubKey} (h : EndpointUtils.Collects map list) (a : UserWithPubKey) :
    EndpointUtils.Collects (map.insert a.mapKey a) (list ++ [a]) where
  sound := by
    intro k u hu
    rw [Std.TreeMap.getElem?_insert] at hu
    split at hu
    · rename_i heq
      obtain rfl : a = u := Option.some.inj hu
      exact ⟨Std.LawfulEqCmp.eq_of_compare heq, by simp⟩
    · obtain ⟨hk, hmem⟩ := h.sound k u hu
      exact ⟨hk, List.mem_append_left _ hmem⟩
  complete := by
    intro u hu
    rw [Std.TreeMap.getElem?_insert]
    split
    · exact ⟨a, rfl⟩
    · rename_i hne
      rcases List.mem_append.mp hu with hu | hu
      · exact h.complete u hu
      · rw [List.mem_singleton.mp hu] at hne
        exact absurd Std.ReflCmp.compare_self hne

/-- So is a list of them. -/
theorem EndpointUtils.Collects.assignAll {map : Std.TreeMap Bytes UserWithPubKey}
    {list : List UserWithPubKey} (h : EndpointUtils.Collects map list)
    (list' : List UserWithPubKey) :
    EndpointUtils.Collects (EndpointUtils.assignAll map list') (list ++ list') := by
  induction list' generalizing map list with
  | nil => rwa [List.append_nil]
  | cons a list' ih =>
      have hrest := ih (h.insert a)
      rwa [List.append_assoc, List.singleton_append] at hrest

/-- `uniqueListUserWithPubKey` lists the values of a map that collects both
lists. -/
theorem EndpointUtils.exists_collects (list1 list2 : List UserWithPubKey) :
    ∃ map : Std.TreeMap Bytes UserWithPubKey,
      EndpointUtils.uniqueListUserWithPubKey list1 list2 = map.toList.map Prod.snd ∧
        EndpointUtils.Collects map (list1 ++ list2) := by
  have hempty : EndpointUtils.Collects ∅ [] :=
    ⟨fun k u h => absurd h (by simp), fun u h => absurd h List.not_mem_nil⟩
  exact ⟨_, rfl, (hempty.assignAll list1).assignAll list2⟩

/-- The map lists each user under his key. -/
theorem EndpointUtils.Collects.mem_values {map : Std.TreeMap Bytes UserWithPubKey}
    {list : List UserWithPubKey} (h : EndpointUtils.Collects map list) (u : UserWithPubKey) :
    u ∈ map.toList.map Prod.snd ↔ map[u.mapKey]? = some u := by
  constructor
  · intro hu
    obtain ⟨⟨k, v⟩, hkv, rfl⟩ := List.mem_map.mp hu
    have hget := Std.TreeMap.mem_toList_iff_getElem?_eq_some.mp hkv
    rwa [(h.sound k v hget).1]
  · intro hget
    exact List.mem_map.mpr ⟨(u.mapKey, u), Std.TreeMap.mem_toList_iff_getElem?_eq_some.mpr hget,
      rfl⟩

/-- The union names no user twice. -/
theorem EndpointUtils.nodup_uniqueListUserWithPubKey (list1 list2 : List UserWithPubKey) :
    (EndpointUtils.uniqueListUserWithPubKey list1 list2).Nodup := by
  obtain ⟨map, heq, hmap⟩ := EndpointUtils.exists_collects list1 list2
  rw [heq, List.Nodup, List.pairwise_map]
  refine Std.TreeMap.distinct_keys_toList.imp_of_mem ?_
  rintro ⟨k, u⟩ ⟨l, v⟩ hku hlv hne huv
  obtain rfl : u = v := huv
  have hk := (hmap.sound _ _ (Std.TreeMap.mem_toList_iff_getElem?_eq_some.mp hku)).1
  have hl := (hmap.sound _ _ (Std.TreeMap.mem_toList_iff_getElem?_eq_some.mp hlv)).1
  apply hne
  show compare k l = .eq
  rw [← hk, ← hl]
  exact Std.ReflCmp.compare_self

/-- It names only users of the two lists. -/
theorem EndpointUtils.mem_of_mem_uniqueListUserWithPubKey {list1 list2 : List UserWithPubKey}
    {u : UserWithPubKey} (hu : u ∈ EndpointUtils.uniqueListUserWithPubKey list1 list2) :
    u ∈ list1 ++ list2 := by
  obtain ⟨map, heq, hmap⟩ := EndpointUtils.exists_collects list1 list2
  rw [heq, hmap.mem_values] at hu
  exact (hmap.sound _ _ hu).2

/-- Different members have different keys in the map. -/
def MapKeysDistinct (list : List UserWithPubKey) : Prop :=
  ∀ u ∈ list, ∀ v ∈ list, u.mapKey = v.mapKey → u = v

/-- No member is lost exactly if different members have different keys. -/
theorem EndpointUtils.subset_uniqueListUserWithPubKey_iff (list1 list2 : List UserWithPubKey) :
    (∀ u ∈ list1 ++ list2, u ∈ EndpointUtils.uniqueListUserWithPubKey list1 list2) ↔
      MapKeysDistinct (list1 ++ list2) := by
  obtain ⟨map, heq, hmap⟩ := EndpointUtils.exists_collects list1 list2
  simp only [heq, hmap.mem_values]
  constructor
  · intro hall u hu v hv hkey
    have hget := hall u hu
    rw [hkey, hall v hv] at hget
    exact (Option.some.inj hget).symm
  · intro hdistinct u hu
    obtain ⟨v, hv⟩ := hmap.complete u hu
    obtain ⟨hkey, hmem⟩ := hmap.sound _ _ hv
    rwa [hdistinct v hmem u hu hkey] at hv

/-- Sorting keeps the elements. -/
theorem mem_insertionSort_le (l : List Bytes) (x : Bytes) :
    x ∈ l.insertionSort (· ≤ ·) ↔ x ∈ l :=
  (List.perm_insertionSort _ l).mem_iff

/-- Without repetitions in the first list, `getDifference` is the set
difference. -/
theorem EndpointUtils.mem_getDifference {baseList : List Bytes} (hbase : baseList.Nodup)
    (subList : List Bytes) (x : Bytes) :
    x ∈ EndpointUtils.getDifference baseList subList ↔ x ∈ baseList ∧ x ∉ subList := by
  have hnodup : (baseList.insertionSort (· ≤ ·)).Nodup :=
    (List.perm_insertionSort _ baseList).nodup_iff.mpr hbase
  rw [EndpointUtils.getDifference, mem_skipDiff hnodup, mem_insertionSort_le,
    mem_insertionSort_le]

/-- The difference is taken from the base list. -/
theorem EndpointUtils.mem_of_mem_getDifference {baseList subList : List Bytes} {x : Bytes}
    (hx : x ∈ EndpointUtils.getDifference baseList subList) : x ∈ baseList :=
  (mem_insertionSort_le _ _).mp (mem_of_mem_skipDiff hx)

/-- Without repetitions in the second list, `getDifference` is the set
difference exactly if no id up to which the two lists agree is repeated. -/
theorem EndpointUtils.mem_getDifference_iff (baseList : List Bytes) {subList : List Bytes}
    (hsub : subList.Nodup) :
    (∀ x, x ∈ EndpointUtils.getDifference baseList subList ↔ x ∈ baseList ∧ x ∉ subList) ↔
      ¬ ∃ d, List.Duplicate d baseList ∧ d ∈ subList ∧ ∀ y ≤ d, (y ∈ baseList ↔ y ∈ subList) := by
  have hsorted := List.pairwise_insertionSort (· ≤ ·) baseList
  have hstrict : (subList.insertionSort (· ≤ ·)).Pairwise (· < ·) := by
    have hle := List.pairwise_insertionSort (· ≤ ·) subList
    have hne : (subList.insertionSort (· ≤ ·)).Nodup :=
      (List.perm_insertionSort _ subList).nodup_iff.mpr hsub
    exact hle.imp₂ (fun _ _ hle hne => lt_of_le_of_ne hle hne) hne
  have hmeets := skipDiff_meets_iff hsorted hstrict
  simp only [mem_insertionSort_le, duplicate_iff_of_perm (List.perm_insertionSort _ baseList)] at hmeets
  rw [← hmeets, EndpointUtils.getDifference]
  constructor
  · rintro hall ⟨x, hx, hdiff⟩
    exact ((hall x).mp hdiff).2 hx
  · intro hnone x
    constructor
    · intro hdiff
      exact ⟨EndpointUtils.mem_of_mem_getDifference hdiff,
        fun hx => hnone ⟨x, hx, hdiff⟩⟩
    · rintro ⟨h1, h2⟩
      exact mem_skipDiff_of_notMem ((mem_insertionSort_le _ _).mpr h1)
        (fun h => h2 ((mem_insertionSort_le _ _).mp h))

/-! ## The decision -/

section Decision

variable {currentUserIds currentManagerIds : List Bytes} {users managers : List UserWithPubKey}
  {forceGenerateNewKey : Bool} {dataStructureVersion : Int}

/-- What the resolver is for: the new members are listed once each, a new key
is needed if it is forced or a member has left, and the members to be given the
old keys are those that have joined. -/
structure UsersKeysResolver.DecidesKeys (r : UsersKeysResolver)
    (currentUserIds currentManagerIds : List Bytes) (users managers : List UserWithPubKey)
    (forceGenerateNewKey : Bool) (dataStructureVersion : Int) : Prop where
  nodup : r.newUsers.Nodup
  mem_newUsers : ∀ u, u ∈ r.newUsers ↔ u ∈ users ++ managers
  needNewKey : r.needNewKey = true ↔
    forceGenerateNewKey = true ∨
      ∃ id ∈ currentUserIds ++ currentManagerIds, ∀ u ∈ users ++ managers, u.userId ≠ id
  usersToAddMissingKey : r.usersToAddMissingKey =
    if dataStructureVersion < 2 then r.newUsers
    else r.newUsers.filter (·.userId ∉ currentUserIds ++ currentManagerIds)

/-- A current member id with several public keys up to which the old and the new
ids are the same. -/
def RepeatedPrefix (currentIds : List Bytes) (list : List UserWithPubKey) (d : Bytes) : Prop :=
  (∃ u ∈ list, ∃ v ∈ list, u ≠ v ∧ u.userId = d ∧ v.userId = d) ∧ d ∈ currentIds ∧
    ∀ id ≤ d, (id ∈ list.map UserWithPubKey.userId ↔ id ∈ currentIds)

/-- The deleted ids are always right. -/
theorem UsersKeysResolver.needNewKey_iff
    (hdistinct : MapKeysDistinct (users ++ managers)) :
    (UsersKeysResolver.init currentUserIds currentManagerIds users managers forceGenerateNewKey
        dataStructureVersion).needNewKey = true ↔
      forceGenerateNewKey = true ∨
        ∃ id ∈ currentUserIds ++ currentManagerIds, ∀ u ∈ users ++ managers, u.userId ≠ id := by
  have hall := (EndpointUtils.subset_uniqueListUserWithPubKey_iff users managers).mpr hdistinct
  have hids : ∀ id, id ∈ EndpointUtils.usersWithPubKeyToIds
      (EndpointUtils.uniqueListUserWithPubKey users managers) ↔
        ∃ u ∈ users ++ managers, u.userId = id := by
    intro id
    simp only [EndpointUtils.usersWithPubKeyToIds, List.mem_map]
    constructor
    · rintro ⟨u, hu, hid⟩
      exact ⟨u, EndpointUtils.mem_of_mem_uniqueListUserWithPubKey hu, hid⟩
    · rintro ⟨u, hu, hid⟩
      exact ⟨u, hall u hu, hid⟩
  have hdeleted := fun id => EndpointUtils.mem_getDifference
    (EndpointUtils.nodup_uniqueList currentUserIds currentManagerIds)
    (EndpointUtils.usersWithPubKeyToIds (EndpointUtils.uniqueListUserWithPubKey users managers)) id
  simp only [UsersKeysResolver.init, Bool.or_eq_true, decide_eq_true_eq, List.length_pos_iff_exists_mem,
    hdeleted, EndpointUtils.mem_uniqueList, hids, not_exists, not_and]
  exact or_comm

/-- Only the elements of the two lists count. -/
theorem repeatedPrefix_congr {old old' : List Bytes} {list list' : List UserWithPubKey}
    (hold : ∀ id, id ∈ old ↔ id ∈ old') (hlist : ∀ u, u ∈ list ↔ u ∈ list') (d : Bytes) :
    RepeatedPrefix old list d ↔ RepeatedPrefix old' list' d := by
  simp only [RepeatedPrefix, List.mem_map, hold, hlist]

/-- The joined members are found exactly if no id with several public keys ends
the common prefix. -/
theorem EndpointUtils.filter_getDifference_iff {list : List UserWithPubKey} (hlist : list.Nodup)
    {old : List Bytes} (hold : old.Nodup) :
    (list.filter (·.userId ∈
        EndpointUtils.getDifference (EndpointUtils.usersWithPubKeyToIds list) old) =
      list.filter (·.userId ∉ old)) ↔ ¬ ∃ d, RepeatedPrefix old list d := by
  have hdiff := EndpointUtils.mem_getDifference_iff (EndpointUtils.usersWithPubKeyToIds list) hold
  simp only [EndpointUtils.usersWithPubKeyToIds, duplicate_map_iff hlist] at hdiff
  simp only [RepeatedPrefix, EndpointUtils.usersWithPubKeyToIds]
  rw [← hdiff]
  constructor
  · intro hfilter x
    constructor
    · intro hx
      have hbase := EndpointUtils.mem_of_mem_getDifference hx
      obtain ⟨u, hu, rfl⟩ := List.mem_map.mp hbase
      have hleft : u ∈ list.filter (·.userId ∉ old) := by
        rw [← hfilter, List.mem_filter]
        exact ⟨hu, decide_eq_true hx⟩
      exact ⟨hbase, of_decide_eq_true (List.mem_filter.mp hleft).2⟩
    · rintro ⟨hx, hnew⟩
      obtain ⟨u, hu, rfl⟩ := List.mem_map.mp hx
      have hright : u ∈ list.filter (·.userId ∉ old) :=
        List.mem_filter.mpr ⟨hu, decide_eq_true hnew⟩
      rw [← hfilter, List.mem_filter] at hright
      exact of_decide_eq_true hright.2
  · intro hall
    apply List.filter_congr
    intro u hu
    have hmem : u.userId ∈ list.map UserWithPubKey.userId := List.mem_map_of_mem hu
    simp only [hall u.userId, hmem, true_and]

/-- **When the resolver is right.**  For all lists it decides the keys correctly
exactly if different members have different concatenations of id and public
key, and, unless the current key predates version 2, no current member id with
several public keys ends the common prefix of the old and the new ids. -/
theorem UsersKeysResolver.decides_keys_iff (currentUserIds currentManagerIds : List Bytes)
    (users managers : List UserWithPubKey) (forceGenerateNewKey : Bool)
    (dataStructureVersion : Int) :
    (UsersKeysResolver.init currentUserIds currentManagerIds users managers forceGenerateNewKey
        dataStructureVersion).DecidesKeys currentUserIds currentManagerIds users managers
        forceGenerateNewKey dataStructureVersion ↔
      MapKeysDistinct (users ++ managers) ∧
        (dataStructureVersion < 2 ∨
          ¬ ∃ d, RepeatedPrefix (currentUserIds ++ currentManagerIds) (users ++ managers) d) := by
  have hnodup := EndpointUtils.nodup_uniqueListUserWithPubKey users managers
  have hold := EndpointUtils.mem_uniqueList currentUserIds currentManagerIds
  have hsub := EndpointUtils.subset_uniqueListUserWithPubKey_iff users managers
  have hmem : MapKeysDistinct (users ++ managers) → ∀ u,
      u ∈ EndpointUtils.uniqueListUserWithPubKey users managers ↔ u ∈ users ++ managers :=
    fun hdistinct u => ⟨EndpointUtils.mem_of_mem_uniqueListUserWithPubKey, hsub.mpr hdistinct u⟩
  have hfilter : MapKeysDistinct (users ++ managers) →
      ((EndpointUtils.uniqueListUserWithPubKey users managers).filter (·.userId ∈
          EndpointUtils.getDifference (EndpointUtils.usersWithPubKeyToIds
            (EndpointUtils.uniqueListUserWithPubKey users managers))
            (EndpointUtils.uniqueList currentUserIds currentManagerIds)) =
        (EndpointUtils.uniqueListUserWithPubKey users managers).filter
          (·.userId ∉ currentUserIds ++ currentManagerIds) ↔
        ¬ ∃ d, RepeatedPrefix (currentUserIds ++ currentManagerIds) (users ++ managers) d) := by
    intro hdistinct
    have hadded := EndpointUtils.filter_getDifference_iff hnodup
      (EndpointUtils.nodup_uniqueList currentUserIds currentManagerIds)
    simp only [repeatedPrefix_congr hold (hmem hdistinct), hold] at hadded
    exact hadded
  constructor
  · intro h
    have hdistinct := hsub.mp fun u hu => (h.mem_newUsers u).mpr hu
    refine ⟨hdistinct, ?_⟩
    rcases lt_or_ge dataStructureVersion 2 with hlegacy | hversion
    · exact Or.inl hlegacy
    · have hadd := h.usersToAddMissingKey
      simp only [UsersKeysResolver.init, if_neg (not_lt.mpr hversion)] at hadd
      exact Or.inr ((hfilter hdistinct).mp hadd)
  · rintro ⟨hdistinct, hadded⟩
    refine ⟨hnodup, hmem hdistinct, UsersKeysResolver.needNewKey_iff hdistinct, ?_⟩
    simp only [UsersKeysResolver.init]
    rcases hadded with hlegacy | hnone
    · rw [if_pos hlegacy, if_pos hlegacy]
    · rw [(hfilter hdistinct).mpr hnone]

/-- The id `u` with two public keys is given the old keys again, and of two
members with one concatenation the first is lost. -/
theorem UsersKeysResolver.decides_wrongly :
    ¬ (UsersKeysResolver.init [[117]] [] [⟨[117], [1]⟩, ⟨[117], [2]⟩] [] false 2).DecidesKeys
        [[117]] [] [⟨[117], [1]⟩, ⟨[117], [2]⟩] [] false 2 ∧
      ¬ (UsersKeysResolver.init [] [] [⟨[97], [98, 99]⟩, ⟨[97, 98], [99]⟩] [] false 2).DecidesKeys
        [] [] [⟨[97], [98, 99]⟩, ⟨[97, 98], [99]⟩] [] false 2 := by
  constructor
  · intro h
    have hadd := h.usersToAddMissingKey
    revert hadd
    decide
  · intro h
    have hmem := (h.mem_newUsers ⟨[97], [98, 99]⟩).mpr (by decide)
    revert hmem
    decide

end Decision

end PrivmxEndpoint
