import PrivmxEndpoint.KeyProvider

/-!
# What a request for keys contains, and what comes back

A request collects entries by location and key id.  Whatever was added before,
it holds for a location and a key id what the last addition that mentions them
put there (`KeyRequest.BuiltBy.contentAt_eq`).

`getKeysAndVerify` gives one result for each of them, whose status depends on
the entry, its location, the duplicates of the location and the verdict for
this key (`KeyProvider.Complete`).  It fails as a whole if one entry of version
2 does not parse or one entry of version 1 does not decrypt: these two calls
stand outside the `try`.  And nothing is promised if the bridge identity of an
object that has none or the first byte of an empty cipher is read
(`KeyProvider.complete_iff`).
-/

namespace PrivmxEndpoint

/-- An addition to a request. -/
inductive KeyAddition
  | one (keys : List KeyEntry) (keyId : Bytes) (location : EncKeyLocation)
  | many (keys : List KeyEntry) (keyIds : List Bytes) (location : EncKeyLocation)
  | all (keys : List KeyEntry) (location : EncKeyLocation)

namespace KeyAddition

/-- The location that is mentioned. -/
def location : KeyAddition → EncKeyLocation
  | one _ _ location => location
  | many _ _ location => location
  | all _ location => location

/-- The entries that are handed over. -/
def keys : KeyAddition → List KeyEntry
  | one keys _ _ => keys
  | many keys _ _ => keys
  | all keys _ => keys

/-- The addition is made. -/
def apply (request : KeyRequest) : KeyAddition → KeyRequest
  | one keys keyId location => request.addOne keys keyId location
  | many keys keyIds location => request.addMany keys keyIds location
  | all keys location => request.addAll keys location

/-- The first entry of a key id, or an entry without data. -/
def entryOf (keys : List KeyEntry) (keyId : Bytes) : KeyEntry :=
  (keys.find? (·.keyId = keyId)).getD ⟨keyId, .empty⟩

/-- What an addition says about a key id of its location. -/
def content (keyId : Bytes) : KeyAddition → Option KeyEntry
  | one keys id _ => if keyId = id then some (entryOf keys id) else none
  | many keys keyIds _ => if keyId ∈ keyIds then some (entryOf keys keyId) else none
  | all keys _ => keys.reverse.find? (·.keyId = keyId)

end KeyAddition

namespace KeyRequest

/-- The entry of a location and a key id. -/
def contentAt (request : KeyRequest) (location : EncKeyLocation) (keyId : Bytes) :
    Option KeyEntry :=
  (request.lookup location).bind (·.lookup keyId)

/-- What the last addition that mentions a location and a key id says. -/
def lastContent (location : EncKeyLocation) (keyId : Bytes) (additions : List KeyAddition) :
    Option KeyEntry :=
  additions.foldl
    (fun last a => if a.location = location then (a.content keyId).or last else last) none

/-- Requests that are built by some additions; the order of iteration may change
at any time. -/
inductive BuiltBy : List KeyAddition → KeyRequest → Prop
  | empty : BuiltBy [] []
  | add {additions : List KeyAddition} {request : KeyRequest} (a : KeyAddition)
      (h : BuiltBy additions request) : BuiltBy (additions ++ [a]) (a.apply request)
  | rehash {additions : List KeyAddition} {request request' : KeyRequest}
      (h : BuiltBy additions request) (hperm : request.Perm request') :
      BuiltBy additions request'
  | rehashKeys {additions : List KeyAddition} {request : KeyRequest} {location : EncKeyLocation}
      {keys keys' : List (Bytes × KeyEntry)} (h : BuiltBy additions ((location, keys) :: request))
      (hperm : keys.Perm keys') : BuiltBy additions ((location, keys') :: request)

/-- A request that was built from additions is a built one. -/
theorem BuiltBy.built {additions : List KeyAddition} {request : KeyRequest}
    (h : BuiltBy additions request) : request.Built := by
  induction h with
  | empty => exact .empty
  | add a _ ih =>
      cases a with
      | one keys keyId location => exact .addOne keys keyId location ih
      | many keys keyIds location => exact .addMany keys keyIds location ih
      | all keys location => exact .addAll keys location ih
  | rehash _ hperm ih => exact .rehash ih hperm
  | rehashKeys _ hperm ih => exact .rehashKeys ih hperm

/-! ### Maps as lists -/

section Maps

variable {α β : Type} [BEq α] [LawfulBEq α]

/-- What is found in a map is in it. -/
theorem mem_of_lookup {m : List (α × β)} {a : α} {b : β} (h : m.lookup a = some b) :
    (a, b) ∈ m := by
  obtain ⟨l₁, l₂, rfl, -⟩ := List.lookup_eq_some_iff.mp h
  exact List.mem_append_right _ List.mem_cons_self

/-- With distinct keys every entry is found. -/
theorem lookup_of_mem {m : List (α × β)} (hm : DistinctKeys m) {a : α} {b : β}
    (h : (a, b) ∈ m) : m.lookup a = some b := by
  induction m with
  | nil => cases h
  | cons p m ih =>
      obtain ⟨hp, hrest⟩ := List.nodup_cons.mp hm
      rw [List.lookup_cons]
      rcases List.mem_cons.mp h with rfl | hmem
      · rw [beq_self_eq_true]
      · have hne : a ≠ p.1 := by
          intro heq
          exact hp (heq ▸ List.mem_map_of_mem hmem)
        rw [beq_eq_false_iff_ne.mpr hne]
        exact ih hrest hmem

/-- The order of the pairs does not matter. -/
theorem lookup_eq_of_perm {m m' : List (α × β)} (hm : DistinctKeys m) (hperm : m.Perm m')
    (a : α) : m'.lookup a = m.lookup a := by
  have hm' : DistinctKeys m' := (hperm.map Prod.fst).nodup_iff.mp hm
  cases h : m.lookup a with
  | some b => exact lookup_of_mem hm' (hperm.mem_iff.mp (mem_of_lookup h))
  | none =>
      cases h' : m'.lookup a with
      | none => rfl
      | some b =>
          have hb := lookup_of_mem hm (hperm.mem_iff.mpr (mem_of_lookup h'))
          cases h.symm.trans hb

variable [DecidableEq α]

/-- Removing one key hides no other. -/
theorem lookup_filter_ne (m : List (α × β)) {a c : α} (hc : c ≠ a) :
    (m.filter (·.1 ≠ a)).lookup c = m.lookup c := by
  induction m with
  | nil => rfl
  | cons p m ih =>
      by_cases hp : p.1 = a
      · rw [List.filter_cons_of_neg (by simpa using hp), ih, List.lookup_cons,
          beq_eq_false_iff_ne.mpr fun heq => hc (heq.trans hp)]
      · rw [List.filter_cons_of_pos (by simpa using hp), List.lookup_cons, List.lookup_cons, ih]

/-- A write is seen under its key only. -/
theorem lookup_insertOrAssign (m : List (α × β)) (a : α) (b : β) (c : α) :
    (insertOrAssign a b m).lookup c = if c = a then some b else m.lookup c := by
  rw [insertOrAssign, List.lookup_cons]
  by_cases hc : c = a
  · rw [if_pos hc, hc, beq_self_eq_true]
  · rw [if_neg hc, beq_eq_false_iff_ne.mpr hc]
    exact lookup_filter_ne m hc

end Maps

/-- Entries that are added one after the other: the last one of an id stays. -/
theorem lookup_foldl (entries : List KeyEntry) (keys : List (Bytes × KeyEntry)) (keyId : Bytes) :
    (entries.foldl (fun keys entry => insertOrAssign entry.keyId entry keys) keys).lookup keyId =
      (entries.reverse.find? (·.keyId = keyId)).or (keys.lookup keyId) := by
  induction entries generalizing keys with
  | nil => rfl
  | cons entry entries ih =>
      rw [List.foldl_cons, ih, List.reverse_cons, List.find?_append, Option.or_assoc,
        lookup_insertOrAssign, List.find?_singleton]
      by_cases hid : keyId = entry.keyId
      · simp [hid]
      · simp [hid, Ne.symm hid]

/-- The last entry written under an id is the one that counts. -/
theorem contentAt_addEntries (request : KeyRequest) (location other : EncKeyLocation)
    (entries : List KeyEntry) (keyId : Bytes) :
    (request.addEntries location entries).contentAt other keyId =
      if location = other then
        (entries.reverse.find? (·.keyId = keyId)).or (request.contentAt other keyId)
      else
        request.contentAt other keyId := by
  unfold contentAt addEntries
  rw [lookup_insertOrAssign]
  by_cases hother : other = location
  · subst hother
    rw [if_pos rfl, if_pos rfl, Option.bind_some, lookup_foldl]
    cases request.lookup other with
    | none => rfl
    | some keys => rfl
  · rw [if_neg hother, if_neg fun heq => hother heq.symm]

/-- What `firstEntries` finds. -/
theorem mem_firstEntries {keys : List KeyEntry} {keyIds : List Bytes} {entry : KeyEntry}
    (h : entry ∈ (firstEntries keys keyIds).1) :
    entry.keyId ∈ keyIds ∧ keys.find? (·.keyId = entry.keyId) = some entry := by
  induction keys generalizing keyIds with
  | nil => cases h
  | cons key keys ih =>
      unfold firstEntries at h
      split at h
      · rename_i hmem
        rcases List.mem_cons.mp h with rfl | hrest
        · exact ⟨hmem, List.find?_cons_of_pos (by simp)⟩
        · obtain ⟨hid, hfind⟩ := ih hrest
          obtain ⟨hid, hne⟩ := List.mem_filter.mp hid
          have hother : ¬ key.keyId = entry.keyId := fun heq => (of_decide_eq_true hne) heq.symm
          exact ⟨hid, (List.find?_cons_of_neg (by simpa using hother)).trans hfind⟩
      · rename_i hnot
        obtain ⟨hid, hfind⟩ := ih h
        have hother : ¬ key.keyId = entry.keyId := fun heq => hnot (heq ▸ hid)
        exact ⟨hid, (List.find?_cons_of_neg (by simpa using hother)).trans hfind⟩

/-- What `firstEntries` does not find. -/
theorem mem_firstEntries_snd {keys : List KeyEntry} {keyIds : List Bytes} {keyId : Bytes} :
    keyId ∈ (firstEntries keys keyIds).2 ↔
      keyId ∈ keyIds ∧ keys.find? (·.keyId = keyId) = none := by
  induction keys generalizing keyIds with
  | nil => simp [firstEntries]
  | cons key keys ih =>
      unfold firstEntries
      split
      · rename_i hmem
        dsimp only
        rw [ih, List.mem_filter]
        by_cases hid : key.keyId = keyId
        · simp [hid]
        · simp [hid, Ne.symm hid]
      · rename_i hnot
        rw [ih]
        by_cases hid : key.keyId = keyId
        · have hout : keyId ∉ keyIds := fun hmem => hnot (hid ▸ hmem)
          simp [hout]
        · simp [hid]

/-- For every id asked for the first entry is taken. -/
theorem exists_mem_firstEntries {keys : List KeyEntry} {keyIds : List Bytes} {entry : KeyEntry}
    {keyId : Bytes} (hid : keyId ∈ keyIds) (hfind : keys.find? (·.keyId = keyId) = some entry) :
    entry ∈ (firstEntries keys keyIds).1 := by
  induction keys generalizing keyIds with
  | nil => cases hfind
  | cons key keys ih =>
      unfold firstEntries
      by_cases hkey : key.keyId = keyId
      · rw [List.find?_cons_of_pos (by simpa using hkey)] at hfind
        obtain rfl := Option.some.inj hfind
        rw [if_pos (hkey ▸ hid)]
        exact List.mem_cons_self
      · rw [List.find?_cons_of_neg (by simpa using hkey)] at hfind
        split
        · exact List.mem_cons_of_mem _ (ih (List.mem_filter.mpr
            ⟨hid, decide_eq_true fun heq => hkey heq.symm⟩) hfind)
        · exact ih hid hfind

/-- A search among items of which only one fits. -/
theorem find?_eq_some_of_unique {α : Type} {p : α → Bool} {l : List α} {a : α} (ha : a ∈ l)
    (hp : p a = true) (hunique : ∀ b ∈ l, p b = true → b = a) : l.find? p = some a := by
  cases h : l.find? p with
  | none => exact absurd hp (List.find?_eq_none.mp h a ha)
  | some b =>
      rw [hunique b (List.mem_of_find?_eq_some h) (List.find?_some h)]

/-- The entry that is found has the id. -/
theorem keyId_of_find? {keys : List KeyEntry} {keyId : Bytes} {entry : KeyEntry}
    (h : keys.find? (·.keyId = keyId) = some entry) : entry.keyId = keyId := by
  have hid := List.find?_some h
  exact of_decide_eq_true hid

/-- The entries that `addMany` adds. -/
theorem find?_addMany (keys : List KeyEntry) (keyIds : List Bytes) (keyId : Bytes) :
    ((firstEntries keys keyIds).1 ++
        (firstEntries keys keyIds).2.map fun id => KeyEntry.mk id .empty).reverse.find?
      (·.keyId = keyId) =
        if keyId ∈ keyIds then some (KeyAddition.entryOf keys keyId) else none := by
  by_cases hid : keyId ∈ keyIds
  · rw [if_pos hid]
    cases hfind : keys.find? (·.keyId = keyId) with
    | some entry =>
        have hentry := keyId_of_find? hfind
        have hof : KeyAddition.entryOf keys keyId = entry := by
          rw [KeyAddition.entryOf, hfind, Option.getD_some]
        rw [hof]
        refine find?_eq_some_of_unique ?_ (decide_eq_true hentry) ?_
        · exact List.mem_reverse.mpr (List.mem_append_left _ (exists_mem_firstEntries hid hfind))
        · intro b hb hbid
          have hbid := of_decide_eq_true hbid
          rcases List.mem_append.mp (List.mem_reverse.mp hb) with hfound | hmissing
          · have hbfind := (mem_firstEntries hfound).2
            rw [hbid, hfind] at hbfind
            exact (Option.some.inj hbfind).symm
          · obtain ⟨id, hidmem, rfl⟩ := List.mem_map.mp hmissing
            have hnone := (mem_firstEntries_snd.mp hidmem).2
            change id = keyId at hbid
            rw [hbid, hfind] at hnone
            cases hnone
    | none =>
        have hof : KeyAddition.entryOf keys keyId = ⟨keyId, .empty⟩ := by
          rw [KeyAddition.entryOf, hfind, Option.getD_none]
        rw [hof]
        refine find?_eq_some_of_unique ?_ (decide_eq_true rfl) ?_
        · exact List.mem_reverse.mpr (List.mem_append_right _
            (List.mem_map.mpr ⟨keyId, mem_firstEntries_snd.mpr ⟨hid, hfind⟩, rfl⟩))
        · intro b hb hbid
          have hbid := of_decide_eq_true hbid
          rcases List.mem_append.mp (List.mem_reverse.mp hb) with hfound | hmissing
          · have hbfind := (mem_firstEntries hfound).2
            rw [hbid, hfind] at hbfind
            cases hbfind
          · obtain ⟨id, -, rfl⟩ := List.mem_map.mp hmissing
            change id = keyId at hbid
            rw [hbid]
  · rw [if_neg hid]
    refine List.find?_eq_none.mpr fun b hb hbid => hid ?_
    have hbid := of_decide_eq_true hbid
    rcases List.mem_append.mp (List.mem_reverse.mp hb) with hfound | hmissing
    · exact hbid ▸ (mem_firstEntries hfound).1
    · obtain ⟨id, hidmem, rfl⟩ := List.mem_map.mp hmissing
      exact hbid ▸ (mem_firstEntries_snd.mp hidmem).1

/-- One addition. -/
theorem contentAt_apply (request : KeyRequest) (a : KeyAddition) (location : EncKeyLocation)
    (keyId : Bytes) :
    (a.apply request).contentAt location keyId =
      if a.location = location then
        (a.content keyId).or (request.contentAt location keyId)
      else
        request.contentAt location keyId := by
  cases a with
  | one keys id l =>
      refine (contentAt_addEntries request l location _ keyId).trans ?_
      have hid : (KeyAddition.entryOf keys id).keyId = id := by
        rw [KeyAddition.entryOf]
        cases hfind : keys.find? (·.keyId = id) with
        | some entry => exact keyId_of_find? hfind
        | none => rfl
      have hone : [(keys.find? (·.keyId = id)).getD ⟨id, .empty⟩].reverse.find?
          (·.keyId = keyId) = (KeyAddition.one keys id l).content keyId := by
        change [KeyAddition.entryOf keys id].find? (·.keyId = keyId) = _
        rw [List.find?_singleton, hid, KeyAddition.content]
        by_cases hkey : keyId = id
        · simp [hkey]
        · simp [hkey, Ne.symm hkey]
      rw [hone]
      rfl
  | many keys keyIds l =>
      refine (contentAt_addEntries request l location _ keyId).trans ?_
      rw [find?_addMany]
      rfl
  | all keys l => exact contentAt_addEntries request l location keys keyId

/-- A request names no location twice. -/
theorem distinctKeys_addEntries {request : KeyRequest} (h : DistinctKeys request)
    (location : EncKeyLocation) (entries : List KeyEntry) :
    DistinctKeys (request.addEntries location entries) :=
  distinctKeys_insertOrAssign h _ _

/-- Nor does one built from additions. -/
theorem BuiltBy.distinctKeys {additions : List KeyAddition} {request : KeyRequest}
    (h : BuiltBy additions request) : DistinctKeys request := by
  induction h with
  | empty => exact List.nodup_nil
  | add a _ ih =>
      cases a with
      | one keys keyId location => exact distinctKeys_addEntries ih location _
      | many keys keyIds location => exact distinctKeys_addEntries ih location _
      | all keys location => exact distinctKeys_addEntries ih location keys
  | rehash _ hperm ih => exact (hperm.map Prod.fst).nodup_iff.mp ih
  | rehashKeys _ _ ih => exact ih

/-- **Contents.**  A request holds what the last addition put there. -/
theorem BuiltBy.contentAt_eq {additions : List KeyAddition} {request : KeyRequest}
    (h : BuiltBy additions request) (location : EncKeyLocation) (keyId : Bytes) :
    request.contentAt location keyId = lastContent location keyId additions := by
  induction h with
  | empty => rfl
  | @add additions request a _ ih =>
      rw [contentAt_apply, lastContent, List.foldl_append, ih]
      rfl
  | rehash h hperm ih =>
      rw [contentAt, lookup_eq_of_perm h.distinctKeys hperm]
      exact ih
  | @rehashKeys additions request l keys keys' h hperm ih =>
      rw [← ih]
      have hkeys : DistinctKeys keys := (h.built.wellKeyed _ List.mem_cons_self).distinct
      unfold contentAt
      rw [List.lookup_cons, List.lookup_cons]
      split
      · exact lookup_eq_of_perm hkeys hperm keyId
      · rfl

end KeyRequest

/-! ### What comes back -/

/-- The entry can be read: an object of version 2 has the fields of such an entry
and comes to no undefined read, and a string decrypts and is not empty. -/
def KeyEntry.Readable (C : KeyCrypto) (privateKey : C.PrivateKey) (entry : KeyEntry) : Prop :=
  match entry.data with
  | .object (.ok version) encrypted =>
      version = 2 → ∃ e, encrypted = .ok e ∧ ¬ EncKeyEncryptorV2.ReadsUndefined C e
  | .string cipher =>
      C.base64ToString cipher ≠ [] ∧
        ∃ key, EncKeyEncryptorV1.decrypt C cipher privateKey = .ok key
  | _ => True

namespace KeyProvider

variable {C : KeyCrypto} {privateKey : C.PrivateKey}

/-- An entry that can be read gives a key. -/
theorem decryptEntry_of_readable {entry : KeyEntry} (h : entry.Readable C privateKey) :
    ∃ key, decryptEntry C privateKey entry = .ok key := by
  unfold KeyEntry.Readable at h
  unfold decryptEntry
  cases hdata : entry.data with
  | object version encrypted =>
      rw [hdata] at h
      cases version with
      | error e => exact ⟨_, rfl⟩
      | ok version =>
          dsimp only
          by_cases hversion : version = 2
          · obtain ⟨e, rfl, -⟩ := h hversion
            rw [if_pos hversion]
            exact ⟨_, rfl⟩
          · rw [if_neg hversion]
            exact ⟨_, rfl⟩
  | string cipher =>
      rw [hdata] at h
      obtain ⟨-, key, hkey⟩ := h
      dsimp only
      rw [hkey]
      exact ⟨_, rfl⟩
  | empty => exact ⟨_, rfl⟩

/-- Its key does not depend on what undefined reads give. -/
theorem decryptEntry_withUndefined {entry : KeyEntry} (h : entry.Readable C privateKey)
    (undefined : UndefinedReads) :
    decryptEntry (C.withUndefined undefined) privateKey entry =
      decryptEntry C privateKey entry := by
  unfold KeyEntry.Readable at h
  unfold decryptEntry
  cases hdata : entry.data with
  | object version encrypted =>
      rw [hdata] at h
      cases version with
      | error e => rfl
      | ok version =>
          dsimp only
          by_cases hversion : version = 2
          · obtain ⟨e, rfl, hdefined⟩ := h hversion
            rw [if_pos hversion, if_pos hversion]
            exact congrArg Except.ok
              (EncKeyEncryptorV2.decrypt_withUndefined hdefined privateKey undefined)
          · rw [if_neg hversion, if_neg hversion]
  | string cipher =>
      rw [hdata] at h
      have hcipher : EncKeyEncryptorV1.decrypt (C.withUndefined undefined) cipher privateKey =
          EncKeyEncryptorV1.decrypt C cipher privateKey := by
        unfold EncKeyEncryptorV1.decrypt EciesEncryptor.decryptFromBase64
        rw [if_neg h.1, if_neg h.1]
      dsimp only
      rw [hcipher]
  | empty => rfl

/-- Conversely, an entry whose status does not depend on what undefined reads
give can be read. -/
theorem readable_of_statusCode {entry : KeyEntry} {statusCode : Nat}
    (h : ∀ e, ∃ key,
      decryptEntry (C.withUndefined ⟨.error e, .error e⟩) privateKey entry = .ok key ∧
        (key.statusCode ≠ 0 → statusCode = key.statusCode)) :
    entry.Readable C privateKey := by
  unfold KeyEntry.Readable
  cases hdata : entry.data with
  | object version encrypted =>
      cases version with
      | error e => trivial
      | ok version =>
          rintro rfl
          have hkey : ∀ e, ∃ key, encrypted.map
              (EncKeyEncryptorV2.decrypt (C.withUndefined ⟨.error e, .error e⟩) · privateKey) =
                .ok key ∧ (key.statusCode ≠ 0 → statusCode = key.statusCode) := by
            intro e
            have he := h e
            simp only [decryptEntry, hdata, if_true] at he
            exact he
          cases encrypted with
          | error e =>
              obtain ⟨key, hmap, -⟩ := hkey .other
              cases hmap
          | ok encrypted =>
              refine ⟨encrypted, rfl, fun hread => ?_⟩
              have hstatus : ∀ e : EndpointException, statusCode = e.statusCode.1 := by
                intro e
                obtain ⟨key, hmap, hsame⟩ := hkey e
                obtain rfl := Except.ok.inj hmap
                have hcode := EncKeyEncryptorV2.statusCode_of_readsUndefined hread privateKey e
                exact (hsame fun hzero => e.statusCode.2 (hcode.symm.trans hzero)).trans hcode
              -- one status for two exceptions
              have htwo := (hstatus .other).symm.trans (hstatus (.core malformedEncryptionKey))
              revert htwo
              decide
  | string cipher =>
      obtain ⟨key, hkey, -⟩ := h .other
      simp only [decryptEntry, hdata, EncKeyEncryptorV1.decrypt,
        EciesEncryptor.decryptFromBase64] at hkey
      by_cases hempty : C.base64ToString cipher = []
      · rw [if_pos hempty] at hkey
        cases hkey
      · refine ⟨hempty, ?_⟩
        rw [if_neg hempty] at hkey
        unfold EncKeyEncryptorV1.decrypt EciesEncryptor.decryptFromBase64
        rw [if_neg hempty]
        cases hplain : C.decrypt privateKey (C.base64ToString cipher) none with
        | error e =>
            rw [hplain] at hkey
            cases hkey
        | ok plain => exact ⟨plain, rfl⟩
  | empty => trivial

/-- The same for the entries of a request. -/
theorem decryptLocations_withUndefined {request : KeyRequest}
    (h : ∀ l ∈ request, ∀ a ∈ l.2, a.2.Readable C privateKey) (undefined : UndefinedReads) :
    decryptLocations (C.withUndefined undefined) privateKey request =
      decryptLocations C privateKey request := by
  have hentries : ∀ keys : List (Bytes × KeyEntry), (∀ a ∈ keys, a.2.Readable C privateKey) →
      decryptEntries (C.withUndefined undefined) privateKey keys =
        decryptEntries C privateKey keys := by
    intro keys hkeys
    induction keys with
    | nil => rfl
    | cons a keys ih =>
        rw [decryptEntries, decryptEntries,
          decryptEntry_withUndefined (hkeys a List.mem_cons_self),
          ih fun b hb => hkeys b (List.mem_cons_of_mem _ hb)]
  induction request with
  | nil => rfl
  | cons l request ih =>
      rw [decryptLocations, decryptLocations, ih fun m hm => h m (List.mem_cons_of_mem _ hm)]
      unfold decryptAndVerifyKeys
      rw [hentries l.2 (h l List.mem_cons_self)]

/-- Another entry of the location has a key with the same random id and
timestamp. -/
def DuplicatedAmong (C : KeyCrypto) (privateKey : C.PrivateKey) (keys : List (Bytes × KeyEntry))
    (location : EncKeyLocation) (keyId : Bytes) (key : DecryptedEncKeyV2) : Prop :=
  (key.verifyData location).compared ∧ ∃ b ∈ keys, b.1 ≠ keyId ∧ ∃ other,
    decryptEntry C privateKey b.2 = .ok other ∧ (other.verifyData location).compared ∧
      (other.verifyData location).nonce = (key.verifyData location).nonce

/-- A key before the user verifier is asked: its entry decrypted, compared with
the location, and marked if it is a duplicate. -/
def Checked (C : KeyCrypto) (privateKey : C.PrivateKey) (keys : List (Bytes × KeyEntry))
    (location : EncKeyLocation) (a : Bytes × KeyEntry) (p : Bytes × DecryptedEncKeyV2) : Prop :=
  a.1 = p.1 ∧ ∃ key, decryptEntry C privateKey a.2 = .ok key ∧
    (DuplicatedAmong C privateKey keys location a.1 key →
      p.2 = (key.verifyData location).duplicated) ∧
    (¬ DuplicatedAmong C privateKey keys location a.1 key → p.2 = key.verifyData location)

/-- The keys after the verdicts: exactly the refused ones change their status. -/
def judged (verdicts : List ((EncKeyLocation × Bytes) × Bool)) (keys : KeyMaps) : KeyMaps :=
  keys.map fun m => (m.1, m.2.map fun p =>
    (p.1, if ((m.1, p.1), false) ∈ verdicts then
      { p.2 with statusCode := userVerificationFailure.1 }
    else p.2))

/-- What a request gives: one key for each location and id, whose status depends
on its entry, the location, its duplicates there and the verdict for it. -/
structure Complete (C : KeyCrypto) (privateKey : C.PrivateKey)
    (userVerifier : UserVerifierInterface) (request : KeyRequest) (result : KeyMaps) : Prop where
  locations : DistinctKeys result
  keyIds : ∀ m ∈ result, DistinctKeys m.2
  requested : ∀ location, (result.lookup location).map (·.map Prod.fst) =
    (request.lookup location).map (·.map Prod.fst)
  statuses : ∃ (checked : KeyMaps) (verdicts : List Bool),
    List.Forall₂ (fun l m => l.1 = m.1 ∧
      List.Forall₂ (Checked C privateKey l.2 l.1) l.2 m.2) request checked ∧
    userVerifier ((verificationRequests checked).map Prod.snd) = some verdicts ∧
    verdicts.length = (verificationRequests checked).length ∧
    ((verificationRequests checked).map Prod.fst).Nodup ∧
    result = judged (((verificationRequests checked).map Prod.fst).zip verdicts) checked

/-- A verifier that gives a verdict on every request. -/
def Answers (userVerifier : UserVerifierInterface) : Prop :=
  ∀ requests, ∃ verdicts, userVerifier requests = some verdicts ∧
    verdicts.length = requests.length

/-- The keys of a location before the verdicts. -/
theorem forall₂_checked {keys : List (Bytes × KeyEntry)} {location : EncKeyLocation}
    {result : List (Bytes × DecryptedEncKeyV2)} (hdistinct : DistinctKeys keys)
    (h : decryptAndVerifyKeys C privateKey keys location = .ok result) :
    List.Forall₂ (Checked C privateKey keys location) keys result := by
  obtain ⟨decrypted, hdecrypted⟩ : ∃ decrypted,
      decryptEntries C privateKey keys = .ok decrypted := by
    unfold decryptAndVerifyKeys at h
    split at h
    · cases h
    · rename_i decrypted hdecrypted
      exact ⟨decrypted, hdecrypted⟩
  have hall := forall₂_of_decryptEntries hdecrypted
  rw [decryptAndVerifyKeys_eq hdistinct hdecrypted] at h
  obtain rfl := Except.ok.inj h
  have hdup : ∀ keyId (key : DecryptedEncKeyV2),
      Duplicate (verifyData decrypted location) (keyId, key.verifyData location) ↔
        DuplicatedAmong C privateKey keys location keyId key := by
    intro keyId key
    constructor
    · intro h
      obtain ⟨hkey, q, hq, hne, hcompared, hnonce⟩ := h
      obtain ⟨r, hr, rfl⟩ := List.mem_map.mp hq
      obtain ⟨b, hb, hid, hother⟩ := mem_of_forall₂_right hall hr
      exact ⟨hkey, b, hb, fun heq => hne (hid.symm.trans heq), r.2, hother, hcompared, hnonce⟩
    · intro h
      obtain ⟨hkey, b, hb, hne, other, hother, hcompared, hnonce⟩ := h
      obtain ⟨r, hr, hid, hr'⟩ := mem_of_forall₂_left hall hb
      obtain rfl := Except.ok.inj (hother.symm.trans hr')
      exact ⟨hkey, (r.1, r.2.verifyData location), List.mem_map_of_mem hr,
        fun heq => hne (hid.trans heq), hcompared, hnonce⟩
  rw [verifyData, List.map_map, List.forall₂_map_right_iff]
  refine hall.imp fun a p hp => ?_
  obtain ⟨hid, hkey⟩ := hp
  refine ⟨hid, p.2, hkey, ?_, ?_⟩
  · intro hd
    rw [hid, ← hdup] at hd
    exact if_pos hd
  · intro hd
    rw [hid, ← hdup] at hd
    exact if_neg hd

/-- One refusal. -/
theorem judged_setStatus (keys : KeyMaps) (r : EncKeyLocation × Bytes)
    (verdicts : List ((EncKeyLocation × Bytes) × Bool)) :
    judged verdicts (setStatus keys r.1 r.2 userVerificationFailure.1) =
      judged ((r, false) :: verdicts) keys := by
  unfold judged setStatus
  rw [List.map_map]
  refine List.map_congr_left fun m _ => Prod.ext rfl ?_
  change List.map _ (if m.1 = r.1 then _ else _) = _
  have hhead : ∀ p : Bytes × DecryptedEncKeyV2,
      ((m.1, p.1), false) ∈ (r, false) :: verdicts ↔
        m.1 = r.1 ∧ p.1 = r.2 ∨ ((m.1, p.1), false) ∈ verdicts := by
    intro p
    rw [List.mem_cons, Prod.mk.injEq, Prod.ext_iff]
    simp only [and_true]
  by_cases hm : m.1 = r.1
  · rw [if_pos hm, List.map_map]
    refine List.map_congr_left fun p _ => Prod.ext rfl ?_
    simp only [Function.comp_apply, hhead]
    by_cases hp : p.1 = r.2
    · simp [hp, hm]
    · simp [hp]
  · rw [if_neg hm]
    refine List.map_congr_left fun p _ => Prod.ext rfl ?_
    simp only [hhead, hm, false_and, false_or]

/-- The loop over the verdicts. -/
theorem foldl_setStatus (requests : List ((EncKeyLocation × Bytes) × VerificationRequest))
    (verdicts : List Bool) (keys : KeyMaps) :
    (requests.zip verdicts).foldl (fun keys (request, verdict) =>
        if verdict = false then
          setStatus keys request.1.1 request.1.2 userVerificationFailure.1
        else
          keys) keys =
      judged ((requests.map Prod.fst).zip verdicts) keys := by
  induction requests generalizing verdicts keys with
  | nil => simp [judged]
  | cons request requests ih =>
      cases verdicts with
      | nil => simp [judged]
      | cons verdict verdicts =>
          rw [List.zip_cons_cons, List.foldl_cons, List.map_cons, List.zip_cons_cons]
          cases verdict with
          | false =>
              rw [← judged_setStatus]
              exact ih verdicts (setStatus keys request.1.1 request.1.2 _)
          | true =>
              have hnot : ∀ r, (r, false) ∈ (request.1, true) ::
                  (requests.map Prod.fst).zip verdicts ↔
                    (r, false) ∈ (requests.map Prod.fst).zip verdicts := by
                intro r
                rw [List.mem_cons, Prod.mk.injEq]
                simp
              refine (ih verdicts keys).trans ?_
              simp only [judged, hnot]

/-- Every key is asked for once. -/
theorem nodup_verificationRequests {keys : KeyMaps} (hkeys : DistinctKeys keys)
    (hids : ∀ m ∈ keys, DistinctKeys m.2) :
    ((verificationRequests keys).map Prod.fst).Nodup := by
  unfold verificationRequests
  rw [List.map_flatMap, List.nodup_flatMap]
  constructor
  · intro m hm
    rw [List.map_map]
    have hsub : ((m.2.filter (·.2.verified)).map Prod.fst).Nodup :=
      (List.filter_sublist.map Prod.fst).nodup (hids m hm)
    have hpair : ((m.2.filter (·.2.verified)).map fun p => (m.1, p.1)) =
        ((m.2.filter (·.2.verified)).map Prod.fst).map (Prod.mk m.1) := by
      rw [List.map_map]
      rfl
    exact hpair ▸ hsub.map (Prod.mk_right_injective m.1)
  · have hpairs := List.pairwise_map.mp hkeys
    refine hpairs.imp fun {m m'} hne => ?_
    intro r hr hr'
    obtain ⟨p, hp, rfl⟩ := List.mem_map.mp hr
    obtain ⟨q, hq, rfl⟩ := List.mem_map.mp hp
    obtain ⟨p', hp', heq⟩ := List.mem_map.mp hr'
    obtain ⟨q', hq', rfl⟩ := List.mem_map.mp hp'
    exact hne (Prod.mk.inj heq).1.symm

/-- Steps that leave the keys leave all of them. -/
theorem map_fst_of_forall₂ {α β γ : Type} {R : α × β → α × γ → Prop} {l : List (α × β)}
    {m : List (α × γ)} (h : List.Forall₂ R l m) (hR : ∀ a b, R a b → a.1 = b.1) :
    l.map Prod.fst = m.map Prod.fst := by
  induction h with
  | nil => rfl
  | cons hab _ ih => rw [List.map_cons, List.map_cons, hR _ _ hab, ih]

/-- Two maps with the same locations and the same key ids. -/
theorem lookup_map_fst {α β : Type} {request : List (EncKeyLocation × List (Bytes × α))}
    {result : List (EncKeyLocation × List (Bytes × β))}
    (h : List.Forall₂ (fun l r => l.1 = r.1 ∧ l.2.map Prod.fst = r.2.map Prod.fst)
      request result) (location : EncKeyLocation) :
    (result.lookup location).map (·.map Prod.fst) =
      (request.lookup location).map (·.map Prod.fst) := by
  induction h with
  | nil => rfl
  | @cons l r _ _ hab _ ih =>
      obtain ⟨hl, hids⟩ := hab
      rw [List.lookup_cons, List.lookup_cons, hl]
      split
      · exact congrArg some hids.symm
      · exact ih

/-- A verification that returns has one verdict for each request. -/
theorem verifyUserData_eq_ok {userVerifier : UserVerifierInterface} {keys result : KeyMaps}
    (h : verifyUserData userVerifier keys = .ok result) :
    ∃ verdicts, userVerifier ((verificationRequests keys).map Prod.snd) = some verdicts ∧
      verdicts.length = (verificationRequests keys).length ∧
      result = judged (((verificationRequests keys).map Prod.fst).zip verdicts) keys := by
  unfold verifyUserData UserVerifier.verify at h
  dsimp only at h
  cases hverdicts : userVerifier ((verificationRequests keys).map Prod.snd) with
  | none =>
      rw [hverdicts] at h
      cases h
  | some verdicts =>
      rw [hverdicts] at h
      by_cases hlength : verdicts.length = (verificationRequests keys).length
      · have hsame : ¬ verdicts.length ≠ ((verificationRequests keys).map Prod.snd).length := by
          rw [List.length_map]
          exact not_not.mpr hlength
        dsimp only at h
        rw [if_neg hsame] at h
        obtain rfl := Except.ok.inj h
        exact ⟨verdicts, rfl, hlength, foldl_setStatus _ verdicts keys⟩
      · have hother : verdicts.length ≠ ((verificationRequests keys).map Prod.snd).length := by
          rw [List.length_map]
          exact hlength
        dsimp only at h
        rw [if_pos hother] at h
        cases h

/-- **Results.**  What is returned is complete. -/
theorem complete_of_ok {request : KeyRequest} (hrequest : DistinctKeys request)
    (hkeyed : request.WellKeyed) {userVerifier : UserVerifierInterface} {result : KeyMaps}
    (h : getKeysAndVerify C privateKey userVerifier request = .ok result) :
    Complete C privateKey userVerifier request result := by
  unfold getKeysAndVerify at h
  cases hlocations : decryptLocations C privateKey request with
  | error e =>
      rw [hlocations] at h
      cases h
  | ok checked =>
      rw [hlocations] at h
      have hchecked : List.Forall₂ (fun l m => l.1 = m.1 ∧
          List.Forall₂ (Checked C privateKey l.2 l.1) l.2 m.2) request checked := by
        refine ((List.forall₂_and_left _ _).mpr
          ⟨hkeyed, forall₂_of_decryptLocations hlocations⟩).imp fun l m hlm => ?_
        obtain ⟨hl, hid, hkeys⟩ := hlm
        exact ⟨hid, forall₂_checked hl.distinct hkeys⟩
      have hids : List.Forall₂ (fun l m => l.1 = m.1 ∧ l.2.map Prod.fst = m.2.map Prod.fst)
          request checked :=
        hchecked.imp fun l m hlm => ⟨hlm.1, map_fst_of_forall₂ hlm.2 fun _ _ hp => hp.1⟩
      have hdistinct : DistinctKeys checked := by
        rw [DistinctKeys, ← map_fst_of_forall₂ hids fun _ _ hlm => hlm.1]
        exact hrequest
      have hinner : ∀ m ∈ checked, DistinctKeys m.2 := by
        intro m hm
        obtain ⟨l, hl, -, hfst⟩ := mem_of_forall₂_right hids hm
        rw [DistinctKeys, ← hfst]
        exact (hkeyed l hl).distinct
      obtain ⟨verdicts, hverdicts, hlength, rfl⟩ := verifyUserData_eq_ok h
      refine ⟨?_, ?_, ?_, checked, verdicts, hchecked, hverdicts, hlength,
        nodup_verificationRequests hdistinct hinner, rfl⟩
      · rw [DistinctKeys, judged, List.map_map]
        exact hdistinct
      · intro m hm
        obtain ⟨m', hm', rfl⟩ := List.mem_map.mp hm
        rw [DistinctKeys, List.map_map]
        exact hinner m' hm'
      · refine lookup_map_fst ?_
        rw [judged, List.forall₂_map_right_iff]
        refine hids.imp fun l m hlm => ⟨hlm.1, ?_⟩
        rw [List.map_map]
        exact hlm.2

/-- A key that has failed before the checks keeps its status. -/
theorem Checked.statusCode_eq {keys : List (Bytes × KeyEntry)} {location : EncKeyLocation}
    {a : Bytes × KeyEntry} {p : Bytes × DecryptedEncKeyV2}
    (h : Checked C privateKey keys location a p) :
    ∃ key, decryptEntry C privateKey a.2 = .ok key ∧
      (key.statusCode ≠ 0 → p.2.statusCode = key.statusCode) := by
  obtain ⟨-, key, hkey, -, hsingle⟩ := h
  refine ⟨key, hkey, fun hfailed => ?_⟩
  have hsame : key.verifyData location = key := if_neg fun hchecked => hfailed hchecked.1
  have hnot : ¬ DuplicatedAmong C privateKey keys location a.1 key := by
    rintro ⟨hcompared, -⟩
    rw [hsame] at hcompared
    exact hfailed hcompared.1
  rw [hsingle hnot, hsame]

/-- The user verifier is not asked about a key that has failed. -/
theorem notMem_verificationRequests {keys : KeyMaps} (hkeys : DistinctKeys keys)
    (hids : ∀ m ∈ keys, DistinctKeys m.2) {m : EncKeyLocation × List (Bytes × DecryptedEncKeyV2)}
    (hm : m ∈ keys) {p : Bytes × DecryptedEncKeyV2} (hp : p ∈ m.2) (hfailed : p.2.statusCode ≠ 0) :
    (m.1, p.1) ∉ (verificationRequests keys).map Prod.fst := by
  intro hmem
  obtain ⟨r, hr, hrequest⟩ := List.mem_map.mp hmem
  obtain ⟨m', hm', hr⟩ := List.mem_flatMap.mp hr
  obtain ⟨p', hp', rfl⟩ := List.mem_map.mp hr
  obtain ⟨hp', hverified⟩ := List.mem_filter.mp hp'
  obtain ⟨hlocation, hid⟩ := Prod.mk.inj hrequest
  obtain rfl := List.inj_on_of_nodup_map hkeys hm' hm hlocation
  obtain rfl := List.inj_on_of_nodup_map (hids m' hm) hp' hp hid
  exact hfailed (of_decide_eq_true hverified).1

/-- Each entry of a request has its key in the result, and a key that has failed before the
verdicts keeps its status. -/
theorem exists_result {request : KeyRequest} (hrequest : DistinctKeys request)
    (hkeyed : request.WellKeyed) {userVerifier : UserVerifierInterface} {result : KeyMaps}
    (h : getKeysAndVerify C privateKey userVerifier request = .ok result)
    {l : EncKeyLocation × List (Bytes × KeyEntry)} (hl : l ∈ request) {a : Bytes × KeyEntry}
    (ha : a ∈ l.2) :
    ∃ m ∈ result, l.1 = m.1 ∧ ∃ p ∈ m.2, a.1 = p.1 ∧
      ∃ key, decryptEntry C privateKey a.2 = .ok key ∧
        (key.statusCode ≠ 0 → p.2.statusCode = key.statusCode) := by
  have hcomplete := complete_of_ok hrequest hkeyed h
  obtain ⟨checked, verdicts, hchecked, -, hlength, -, rfl⟩ := hcomplete.statuses
  have hdistinct : DistinctKeys checked := by
    have hlocations := hcomplete.locations
    rw [DistinctKeys, judged, List.map_map] at hlocations
    exact hlocations
  have hinner : ∀ m ∈ checked, DistinctKeys m.2 := by
    intro m hm
    have hids := hcomplete.keyIds _ (List.mem_map_of_mem hm)
    rw [DistinctKeys, List.map_map] at hids
    exact hids
  obtain ⟨m, hm, hlocation, hkeys⟩ := mem_of_forall₂_left hchecked hl
  obtain ⟨p, hp, hp'⟩ := mem_of_forall₂_left hkeys ha
  obtain ⟨key, hkey, hstatus⟩ := hp'.statusCode_eq
  refine ⟨_, List.mem_map_of_mem hm, hlocation, _, List.mem_map_of_mem hp, hp'.1, key, hkey, ?_⟩
  intro hfailed
  have hnot : ((m.1, p.1), false) ∉
      ((verificationRequests checked).map Prod.fst).zip verdicts := by
    intro hmem
    refine notMem_verificationRequests hdistinct hinner hm hp ?_ (List.of_mem_zip hmem).1
    rw [hstatus hfailed]
    exact hfailed
  dsimp only
  rw [if_neg hnot]
  exact hstatus hfailed

/-- **Keys that do not depend on what undefined reads give** come from entries that can be
read. -/
theorem readable_of_getKeysAndVerify {request : KeyRequest} (hrequest : DistinctKeys request)
    (hkeyed : request.WellKeyed) {userVerifier : UserVerifierInterface} {result : KeyMaps}
    (h : ∀ undefined,
      getKeysAndVerify (C.withUndefined undefined) privateKey userVerifier request = .ok result)
    {l : EncKeyLocation × List (Bytes × KeyEntry)} (hl : l ∈ request) {a : Bytes × KeyEntry}
    (ha : a ∈ l.2) : a.2.Readable C privateKey := by
  have hcomplete := complete_of_ok hrequest hkeyed (h C.undefined)
  obtain ⟨m, hm, hlocation, p, hp, hid, -⟩ :=
    exists_result hrequest hkeyed (h C.undefined) hl ha
  refine @readable_of_statusCode C privateKey a.2 p.2.statusCode fun e => ?_
  obtain ⟨m', hm', hlocation', p', hp', hid', hkey⟩ :=
    exists_result hrequest hkeyed (h ⟨.error e, .error e⟩) hl ha
  obtain rfl := List.inj_on_of_nodup_map hcomplete.locations hm' hm
    (hlocation'.symm.trans hlocation)
  obtain rfl := List.inj_on_of_nodup_map (hcomplete.keyIds m' hm) hp' hp (hid'.symm.trans hid)
  exact hkey

/-- The entries of a request, as what it holds. -/
theorem forall_contentAt_iff {request : KeyRequest} (hrequest : DistinctKeys request)
    (hkeyed : request.WellKeyed) (p : KeyEntry → Prop) :
    (∀ location keyId entry, request.contentAt location keyId = some entry → p entry) ↔
      ∀ l ∈ request, ∀ a ∈ l.2, p a.2 := by
  constructor
  · intro h l hl a ha
    refine h l.1 a.1 a.2 ?_
    rw [KeyRequest.contentAt, KeyRequest.lookup_of_mem hrequest hl, Option.bind_some]
    exact KeyRequest.lookup_of_mem (hkeyed l hl).distinct ha
  · intro h location keyId entry hentry
    obtain ⟨keys, hkeys, hlookup⟩ := Option.bind_eq_some_iff.mp hentry
    exact h _ (KeyRequest.mem_of_lookup hkeys) _ (KeyRequest.mem_of_lookup hlookup)

/-- A request whose entries can be read gives its keys, whatever undefined reads give. -/
theorem getKeysAndVerify_of_readable {request : KeyRequest}
    (h : ∀ l ∈ request, ∀ a ∈ l.2, a.2.Readable C privateKey)
    {userVerifier : UserVerifierInterface} (hanswers : Answers userVerifier) :
    ∃ result, ∀ undefined, getKeysAndVerify (C.withUndefined undefined) privateKey userVerifier
      request = .ok result := by
  obtain ⟨checked, hchecked⟩ :=
    decryptLocations_ok fun l hl a ha => decryptEntry_of_readable (h l hl a ha)
  obtain ⟨verdicts, hverdicts, hlength⟩ :=
    hanswers ((verificationRequests checked).map Prod.snd)
  obtain ⟨result, hresult⟩ : ∃ result,
      getKeysAndVerify C privateKey userVerifier request = .ok result := by
    unfold getKeysAndVerify verifyUserData UserVerifier.verify
    rw [hchecked]
    dsimp only
    rw [hverdicts]
    dsimp only
    rw [if_neg (not_not.mpr hlength)]
    exact ⟨_, rfl⟩
  refine ⟨result, fun undefined => ?_⟩
  unfold getKeysAndVerify at hresult ⊢
  rw [decryptLocations_withUndefined h undefined]
  exact hresult

/-- **When the keys are returned.**  A request holds what was added last, and
the keys are returned completely for every verifier that gives its verdicts,
and do not depend on what undefined reads give, exactly if every entry of the
request can be read. -/
theorem complete_iff (C : KeyCrypto) (privateKey : C.PrivateKey)
    {additions : List KeyAddition} {request : KeyRequest}
    (hbuilt : KeyRequest.BuiltBy additions request) :
    (∀ location keyId, request.contentAt location keyId =
      KeyRequest.lastContent location keyId additions) ∧
    ((∀ userVerifier, Answers userVerifier → ∃ result,
        Complete C privateKey userVerifier request result ∧
          ∀ undefined, getKeysAndVerify (C.withUndefined undefined) privateKey userVerifier
            request = .ok result) ↔
      ∀ location keyId entry, request.contentAt location keyId = some entry →
        entry.Readable C privateKey) := by
  have hdistinct := hbuilt.distinctKeys
  have hkeyed := hbuilt.built.wellKeyed
  refine ⟨hbuilt.contentAt_eq, ?_⟩
  rw [forall_contentAt_iff hdistinct hkeyed (·.Readable C privateKey)]
  constructor
  · intro h l hl a ha
    obtain ⟨result, -, hresult⟩ := h (fun requests => some (requests.map fun _ => true))
      fun requests => ⟨_, rfl, List.length_map _⟩
    exact readable_of_getKeysAndVerify hdistinct hkeyed hresult hl ha
  · intro h userVerifier hanswers
    obtain ⟨result, hresult⟩ := getKeysAndVerify_of_readable h hanswers
    exact ⟨result, complete_of_ok hdistinct hkeyed (hresult C.undefined), hresult⟩

/-- Entries that can be read make a request whose entries can be read. -/
theorem readable_of_lastContent {additions : List KeyAddition}
    (h : ∀ a ∈ additions, ∀ entry ∈ a.keys, entry.Readable C privateKey)
    {location : EncKeyLocation} {keyId : Bytes} {entry : KeyEntry}
    (hentry : KeyRequest.lastContent location keyId additions = some entry) :
    entry.Readable C privateKey := by
  have hof : ∀ keys : List KeyEntry, (∀ entry ∈ keys, entry.Readable C privateKey) →
      ∀ id, (KeyAddition.entryOf keys id).Readable C privateKey := by
    intro keys hkeys id
    unfold KeyAddition.entryOf
    cases hfind : keys.find? (·.keyId = id) with
    | none => trivial
    | some found => exact hkeys found (List.mem_of_find?_eq_some hfind)
  have hcontent : ∀ a ∈ additions, ∀ entry, a.content keyId = some entry →
      entry.Readable C privateKey := by
    intro a ha entry hcontent
    cases a with
    | one keys id l =>
        simp only [KeyAddition.content, Option.ite_none_right_eq_some] at hcontent
        obtain rfl := Option.some.inj hcontent.2
        exact hof keys (h _ ha) id
    | many keys ids l =>
        simp only [KeyAddition.content, Option.ite_none_right_eq_some] at hcontent
        obtain rfl := Option.some.inj hcontent.2
        exact hof keys (h _ ha) keyId
    | all keys l => exact h _ ha entry (List.mem_reverse.mp (List.mem_of_find?_eq_some hcontent))
  induction additions using List.reverseRecOn with
  | nil => cases hentry
  | append_singleton additions a ih =>
      have hrest := ih (fun b hb => h b (List.mem_append_left _ hb))
      simp only [KeyRequest.lastContent, List.foldl_append, List.foldl_cons, List.foldl_nil]
        at hentry hrest
      split at hentry
      · rcases Option.or_eq_some_iff.mp hentry with hlast | ⟨-, hbefore⟩
        · exact hcontent a (List.mem_append_right _ (List.mem_singleton.mpr rfl)) entry hlast
        · exact hrest hbefore fun b hb => hcontent b (List.mem_append_left _ hb)
      · exact hrest hentry fun b hb => hcontent b (List.mem_append_left _ hb)

/-- An entry of version 1 for user 1. -/
def sampleStringEntry : KeyEntry := ⟨[97], .string [1, 5, 9]⟩

/-- Two entries of version 1; the first is replaced by one of version 2, which is
asked for at another location, too, next to a key that is missing there. -/
def sampleAdditions (encrypted : EncryptedKeyEntryDataV2) : List KeyAddition :=
  [.all [sampleStringEntry, ⟨[98], .string [1, 6, 8]⟩] sampleLocation,
    .one [⟨[97], .object (.ok 2) (.ok encrypted)⟩] [97] sampleLocation,
    .many [⟨[99], .object (.ok 2) (.ok encrypted)⟩] [[99], [100]] ⟨[3], [5]⟩]

/-- Two entries under one location are completed, the second version by its key. -/
theorem complete_sample :
    ∃ encrypted,
      EncKeyEncryptorV2.encrypt sampleKeyCrypto (sampleKeyToEncrypt [97]) (1 : UInt8) (2 : UInt8) =
          .ok encrypted ∧
        ((sampleAdditions encrypted).foldl KeyAddition.apply []).contentAt sampleLocation [97] =
          some ⟨[97], .object (.ok 2) (.ok encrypted)⟩ ∧
        ∃ result,
          Complete sampleKeyCrypto (1 : UInt8) (fun requests => some (requests.map fun _ => false))
              ((sampleAdditions encrypted).foldl KeyAddition.apply []) result ∧
            ∀ undefined, getKeysAndVerify (sampleKeyCrypto.withUndefined undefined) (1 : UInt8)
              (fun requests => some (requests.map fun _ => false))
              ((sampleAdditions encrypted).foldl KeyAddition.apply []) = .ok result := by
  have hdio : (sampleKeyToEncrypt [97]).dio.SignableBy sampleKeyCrypto (2 : UInt8) :=
    ⟨rfl, List.cons_ne_nil _ _, List.cons_ne_nil _ _, List.cons_ne_nil _ _, _, rfl⟩
  obtain ⟨encrypted, -, hencrypt, -, -⟩ :=
    EncKeyEncryptorV2.tryDecrypt_encrypt sampleKeyCrypto_lawful (1 : UInt8)
      (sampleKeyToEncrypt [97]) hdio
  have hbuilt : KeyRequest.BuiltBy (sampleAdditions encrypted)
      ((sampleAdditions encrypted).foldl KeyAddition.apply []) :=
    .add _ (.add _ (.add _ .empty))
  have hcomplete := complete_iff sampleKeyCrypto (1 : UInt8) hbuilt
  have hdefined := EncKeyEncryptorV2.not_readsUndefined_of_encrypt sampleKeyCrypto_lawful hdio
    hencrypt
  refine ⟨encrypted, hencrypt, hcomplete.1 _ _, hcomplete.2.mpr ?_ _
    fun _ => ⟨_, rfl, List.length_map _⟩⟩
  intro location keyId entry hentry
  rw [hcomplete.1] at hentry
  refine readable_of_lastContent ?_ hentry
  simp only [sampleAdditions, List.forall_mem_cons, List.not_mem_nil, false_implies,
    implies_true, and_true, KeyAddition.keys]
  exact ⟨⟨⟨List.cons_ne_nil _ _, [9], rfl⟩, List.cons_ne_nil _ _, [8], rfl⟩,
    fun _ => ⟨encrypted, rfl, hdefined⟩, fun _ => ⟨encrypted, rfl, hdefined⟩⟩

/-- An object of version 2 without the fields of an entry makes the request fail
for the readable entry next to it, too. -/
theorem complete_fails :
    KeyRequest.BuiltBy
        [.all [sampleStringEntry, ⟨[98], .object (.ok 2) (.error .other)⟩] sampleLocation]
        (KeyAddition.apply [] (.all
          [sampleStringEntry, ⟨[98], .object (.ok 2) (.error .other)⟩] sampleLocation)) ∧
      Answers (fun requests => some (requests.map fun _ => true)) ∧
      getKeysAndVerify sampleKeyCrypto (1 : UInt8)
          (fun requests => some (requests.map fun _ => true))
          (KeyAddition.apply [] (.all
            [sampleStringEntry, ⟨[98], .object (.ok 2) (.error .other)⟩] sampleLocation)) =
        .error .other :=
  ⟨.add _ .empty, fun _ => ⟨_, rfl, List.length_map _⟩, rfl⟩

end KeyProvider

end PrivmxEndpoint
