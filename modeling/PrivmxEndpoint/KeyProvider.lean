import PrivmxEndpoint.GuardedRuns
import PrivmxEndpoint.KeyEncryption

/-!
# Decrypting and verifying the keys of containers

The server hands out the keys of a container as entries, an id next to an
encrypted key.  `KeyProvider::getKeysAndVerify` decrypts the entries of a
request, compares their location with the container, marks keys that share
their random id and timestamp, and asks the user verifier about the signers.

A key of version 2 has its id inside the encryption, too, and nothing compares
the two ids.  The keys returned with status zero are bound to their ids exactly
if every entry of version 2 that passes the checks carries its own id
(`KeyProvider.bound_iff`).
-/

namespace PrivmxEndpoint

/-- The content of a key entry: a JSON object with what its parsers make of it,
a string, or neither. -/
inductive KeyEntryData
  | object (version : Except EndpointException Int)
      (encrypted : Except EndpointException EncryptedKeyEntryDataV2)
  | string (cipher : Bytes)
  | empty

/-- `server::KeyEntry`. -/
structure KeyEntry where
  keyId : Bytes
  data : KeyEntryData

/-- An unordered map as the list of its pairs, in the order of iteration. -/
def insertOrAssign {α β : Type} [DecidableEq α] (a : α) (b : β) (m : List (α × β)) :
    List (α × β) :=
  (a, b) :: m.filter (·.1 ≠ a)

/-- `.at(key)` of an unordered map. -/
def mapAt {α β : Type} [DecidableEq α] (a : α) (m : List (α × β)) : Except EndpointException β :=
  match m.lookup a with
  | some b => .ok b
  | none => .error .other

/-- The `requestData` of a `KeyDecryptionAndVerificationRequest`. -/
abbrev KeyRequest := List (EncKeyLocation × List (Bytes × KeyEntry))

/-- Entries are added to what is there for their location. -/
def KeyRequest.addEntries (request : KeyRequest) (location : EncKeyLocation)
    (entries : List KeyEntry) : KeyRequest :=
  let keys := (request.lookup location).getD []
  insertOrAssign location
    (entries.foldl (fun keys entry => insertOrAssign entry.keyId entry keys) keys) request

/-- `addOne`. -/
def KeyRequest.addOne (request : KeyRequest) (keys : List KeyEntry) (keyId : Bytes)
    (location : EncKeyLocation) : KeyRequest :=
  request.addEntries location [(keys.find? (·.keyId = keyId)).getD ⟨keyId, .empty⟩]

/-- The first entry for each id that is asked for, in order. -/
def firstEntries : List KeyEntry → List Bytes → List KeyEntry × List Bytes
  | [], keyIds => ([], keyIds)
  | key :: keys, keyIds =>
      if key.keyId ∈ keyIds then
        let (found, rest) := firstEntries keys (keyIds.filter (· ≠ key.keyId))
        (key :: found, rest)
      else
        firstEntries keys keyIds

/-- `addMany`. -/
def KeyRequest.addMany (request : KeyRequest) (keys : List KeyEntry) (keyIds : List Bytes)
    (location : EncKeyLocation) : KeyRequest :=
  let (found, missing) := firstEntries keys keyIds
  request.addEntries location (found ++ missing.map fun keyId => ⟨keyId, .empty⟩)

/-- `addAll`. -/
def KeyRequest.addAll (request : KeyRequest) (keys : List KeyEntry) (location : EncKeyLocation) :
    KeyRequest :=
  request.addEntries location keys

section Provider

variable (C : KeyCrypto)

/-- One round of the loop in `decryptAndVerifyKeys`. -/
def KeyProvider.decryptEntry (privateKey : C.PrivateKey) (entry : KeyEntry) :
    Except EndpointException DecryptedEncKeyV2 :=
  match entry.data with
  | .object (.error e) _ => .ok (.blank 0 e.statusCode.1)
  | .object (.ok version) encrypted =>
      if version = 2 then
        encrypted.map (EncKeyEncryptorV2.decrypt C · privateKey)
      else
        .ok (.blank 0 unknownEncryptionKeyVersion.1)
  | .string cipher =>
      (EncKeyEncryptorV1.decrypt C cipher privateKey).map fun key =>
        { DecryptedEncKeyV2.blank 1 0 with id := entry.keyId, key := key }
  | .empty => .ok (.blank 0 unknownEncryptionKeyVersion.1)

/-- The loop in `decryptAndVerifyKeys`. -/
def KeyProvider.decryptEntries (privateKey : C.PrivateKey) :
    List (Bytes × KeyEntry) → Except EndpointException (List (Bytes × DecryptedEncKeyV2))
  | [] => .ok []
  | (keyId, entry) :: entries =>
      match KeyProvider.decryptEntry C privateKey entry with
      | .error e => .error e
      | .ok key =>
          match KeyProvider.decryptEntries privateKey entries with
          | .error e => .error e
          | .ok keys => .ok ((keyId, key) :: keys)

end Provider

/-- `verifyData`, for one key. -/
def DecryptedEncKeyV2.verifyData (key : DecryptedEncKeyV2) (location : EncKeyLocation) :
    DecryptedEncKeyV2 :=
  if key.statusCode = 0 ∧ key.dataStructureVersion = 2 ∧
      (key.dio.contextId ≠ location.contextId ∨ key.dio.resourceId ≠ location.resourceId) then
    { key with statusCode := encryptionKeyContainerValidation.1 }
  else
    key

/-- `KeyProvider::verifyData`. -/
def KeyProvider.verifyData (keys : List (Bytes × DecryptedEncKeyV2)) (location : EncKeyLocation) :
    List (Bytes × DecryptedEncKeyV2) :=
  keys.map fun (keyId, key) => (keyId, key.verifyData location)

/-- The key is compared with others by `verifyForDuplication`. -/
def DecryptedEncKeyV2.compared (key : DecryptedEncKeyV2) : Prop :=
  key.statusCode = 0 ∧ key.dio.creatorPubKey ≠ []

instance : DecidablePred DecryptedEncKeyV2.compared := fun _ =>
  inferInstanceAs (Decidable (_ ∧ _))

/-- The random id and the timestamp of a key. -/
def DecryptedEncKeyV2.nonce (key : DecryptedEncKeyV2) : Bytes × Int :=
  (key.dio.randomId, key.dio.timestamp)

/-- The mark of a duplicate. -/
def DecryptedEncKeyV2.duplicated (key : DecryptedEncKeyV2) : DecryptedEncKeyV2 :=
  { key with statusCode := dataIntegrityObjectDuplicated.1 }

/-- The key with an id is marked. -/
def DecryptedEncKeyV2.markAt (first : Bytes) (p : Bytes × DecryptedEncKeyV2) :
    Bytes × DecryptedEncKeyV2 :=
  (p.1, if p.1 = first then p.2.duplicated else p.2)

/-- The loop of `verifyForDuplication`: the keys before the iterator, which may
still be marked, the keys from it on, and the `duplicateMap`. -/
def KeyProvider.verifyForDuplicationFrom (before : List (Bytes × DecryptedEncKeyV2))
    (duplicateMap : List ((Bytes × Int) × Bytes)) :
    List (Bytes × DecryptedEncKeyV2) → List (Bytes × DecryptedEncKeyV2)
  | [] => before
  | (keyId, key) :: keys =>
      if key.compared then
        match duplicateMap.lookup key.nonce with
        | none =>
            KeyProvider.verifyForDuplicationFrom (before ++ [(keyId, key)])
              ((key.nonce, keyId) :: duplicateMap) keys
        | some first =>
            KeyProvider.verifyForDuplicationFrom
              (before.map (DecryptedEncKeyV2.markAt first) ++ [(keyId, key.duplicated)])
              duplicateMap keys
      else
        KeyProvider.verifyForDuplicationFrom (before ++ [(keyId, key)]) duplicateMap keys

/-- `KeyProvider::verifyForDuplication`. -/
def KeyProvider.verifyForDuplication (keys : List (Bytes × DecryptedEncKeyV2)) :
    List (Bytes × DecryptedEncKeyV2) :=
  KeyProvider.verifyForDuplicationFrom [] [] keys

/-- `KeyProvider::decryptAndVerifyKeys`. -/
def KeyProvider.decryptAndVerifyKeys (C : KeyCrypto) (privateKey : C.PrivateKey)
    (keys : List (Bytes × KeyEntry)) (location : EncKeyLocation) :
    Except EndpointException (List (Bytes × DecryptedEncKeyV2)) :=
  match KeyProvider.decryptEntries C privateKey keys with
  | .error e => .error e
  | .ok result =>
      let result := KeyProvider.verifyData result location
      .ok (if 1 < result.length then KeyProvider.verifyForDuplication result else result)

/-- The result of `getKeysAndVerify`. -/
abbrev KeyMaps := List (EncKeyLocation × List (Bytes × DecryptedEncKeyV2))

/-- The first loop of `getKeysAndVerify`. -/
def KeyProvider.decryptLocations (C : KeyCrypto) (privateKey : C.PrivateKey) :
    KeyRequest → Except EndpointException KeyMaps
  | [] => .ok []
  | (location, keys) :: request =>
      match KeyProvider.decryptAndVerifyKeys C privateKey keys location with
      | .error e => .error e
      | .ok result =>
          match KeyProvider.decryptLocations C privateKey request with
          | .error e => .error e
          | .ok results => .ok ((location, result) :: results)

/-- The user verifier is asked about this key. -/
def DecryptedEncKeyV2.verified (key : DecryptedEncKeyV2) : Prop :=
  key.statusCode = 0 ∧ key.dataStructureVersion = 2

instance : DecidablePred DecryptedEncKeyV2.verified := fun _ =>
  inferInstanceAs (Decidable (_ ∧ _))

/-- The request for a key. -/
def DecryptedEncKeyV2.verificationRequest (key : DecryptedEncKeyV2) : VerificationRequest where
  contextId := key.dio.contextId
  senderId := key.dio.creatorUserId
  senderPubKey := key.dio.creatorPubKey
  date := key.dio.timestamp
  bridgeIdentity := key.dio.bridgeIdentity

/-- The requests of the first loops in `verifyUserData`, each with the location
and the id of its key. -/
def KeyProvider.verificationRequests (keys : KeyMaps) :
    List ((EncKeyLocation × Bytes) × VerificationRequest) :=
  keys.flatMap fun (location, keyMap) =>
    (keyMap.filter (·.2.verified)).map fun (keyId, key) =>
      ((location, keyId), key.verificationRequest)

/-- The status of one key is set. -/
def KeyProvider.setStatus (keys : KeyMaps) (location : EncKeyLocation) (keyId : Bytes)
    (statusCode : Nat) : KeyMaps :=
  keys.map fun (l, keyMap) =>
    (l, if l = location then
        keyMap.map fun (id, key) =>
          (id, if id = keyId then { key with statusCode := statusCode } else key)
      else keyMap)

/-- `KeyProvider::verifyUserData`. -/
def KeyProvider.verifyUserData (userVerifier : UserVerifierInterface) (keys : KeyMaps) :
    Except EndpointException KeyMaps :=
  let requests := KeyProvider.verificationRequests keys
  match UserVerifier.verify userVerifier (requests.map Prod.snd) with
  | .error e => .error e
  | .ok verificationResult =>
      .ok ((requests.zip verificationResult).foldl
        (fun keys (request, verdict) =>
          if verdict = false then
            KeyProvider.setStatus keys request.1.1 request.1.2 userVerificationFailure.1
          else
            keys)
        keys)

/-- `KeyProvider::getKeysAndVerify`. -/
def KeyProvider.getKeysAndVerify (C : KeyCrypto) (privateKey : C.PrivateKey)
    (userVerifier : UserVerifierInterface) (request : KeyRequest) :
    Except EndpointException KeyMaps :=
  match KeyProvider.decryptLocations C privateKey request with
  | .error e => .error e
  | .ok result => KeyProvider.verifyUserData userVerifier result

/-! ## Requests -/

/-- Keys of a map are distinct. -/
def DistinctKeys {α β : Type} (m : List (α × β)) : Prop :=
  (m.map Prod.fst).Nodup

/-- A map keeps its keys distinct. -/
theorem distinctKeys_insertOrAssign {α β : Type} [DecidableEq α] {m : List (α × β)}
    (hm : DistinctKeys m) (a : α) (b : β) : DistinctKeys (insertOrAssign a b m) := by
  refine List.nodup_cons.mpr ⟨?_, (List.filter_sublist.map Prod.fst).nodup hm⟩
  intro hmem
  obtain ⟨p, hp, hpa⟩ := List.mem_map.mp hmem
  exact absurd hpa (by simpa using (List.mem_filter.mp hp).2)

/-- What is in a map after a write was written now or before. -/
theorem mem_insertOrAssign {α β : Type} [DecidableEq α] {m : List (α × β)} {a : α} {b : β}
    {p : α × β} (hp : p ∈ insertOrAssign a b m) : p = (a, b) ∨ p ∈ m := by
  rcases List.mem_cons.mp hp with rfl | hp
  · exact Or.inl rfl
  · exact Or.inr (List.mem_of_mem_filter hp)

/-- The keys of one location: each entry stands under its own id. -/
structure WellKeyed (keys : List (Bytes × KeyEntry)) : Prop where
  distinct : DistinctKeys keys
  keyId_eq : ∀ p ∈ keys, p.2.keyId = p.1

/-- Requests that are built by adding keys; the order of iteration may change at
any time. -/
inductive KeyRequest.Built : KeyRequest → Prop
  | empty : KeyRequest.Built []
  | addOne {request : KeyRequest} (keys : List KeyEntry) (keyId : Bytes)
      (location : EncKeyLocation) : KeyRequest.Built request →
      KeyRequest.Built (request.addOne keys keyId location)
  | addMany {request : KeyRequest} (keys : List KeyEntry) (keyIds : List Bytes)
      (location : EncKeyLocation) : KeyRequest.Built request →
      KeyRequest.Built (request.addMany keys keyIds location)
  | addAll {request : KeyRequest} (keys : List KeyEntry) (location : EncKeyLocation) :
      KeyRequest.Built request → KeyRequest.Built (request.addAll keys location)
  | rehash {request request' : KeyRequest} : KeyRequest.Built request → request.Perm request' →
      KeyRequest.Built request'
  | rehashKeys {request : KeyRequest} {location : EncKeyLocation}
      {keys keys' : List (Bytes × KeyEntry)} : KeyRequest.Built ((location, keys) :: request) →
      keys.Perm keys' → KeyRequest.Built ((location, keys') :: request)

/-- Each entry stands under its own id. -/
theorem WellKeyed.insertOrAssign {keys : List (Bytes × KeyEntry)} (h : WellKeyed keys)
    (entry : KeyEntry) : WellKeyed (insertOrAssign entry.keyId entry keys) where
  distinct := distinctKeys_insertOrAssign h.distinct _ _
  keyId_eq := by
    intro p hp
    rcases mem_insertOrAssign hp with rfl | hp
    · rfl
    · exact h.keyId_eq p hp

/-- So it does after any number of writes. -/
theorem WellKeyed.foldl {keys : List (Bytes × KeyEntry)} (h : WellKeyed keys)
    (entries : List KeyEntry) :
    WellKeyed (entries.foldl (fun keys entry => PrivmxEndpoint.insertOrAssign entry.keyId entry keys)
      keys) := by
  induction entries generalizing keys with
  | nil => exact h
  | cons entry entries ih => exact ih (h.insertOrAssign entry)

/-- All maps of a request are well keyed. -/
def KeyRequest.WellKeyed (request : KeyRequest) : Prop :=
  ∀ p ∈ request, PrivmxEndpoint.WellKeyed p.2

/-- Adding entries to a request keeps it well keyed. -/
theorem KeyRequest.WellKeyed.addEntries {request : KeyRequest} (h : request.WellKeyed)
    (location : EncKeyLocation) (entries : List KeyEntry) :
    (request.addEntries location entries).WellKeyed := by
  have hkeys : PrivmxEndpoint.WellKeyed ((request.lookup location).getD []) := by
    cases hlook : request.lookup location with
    | none => exact ⟨List.nodup_nil, fun p hp => absurd hp List.not_mem_nil⟩
    | some keys =>
        obtain ⟨l₁, l₂, heq, -⟩ := List.lookup_eq_some_iff.mp hlook
        exact h (location, keys) (by rw [heq]; simp)
  intro p hp
  rcases mem_insertOrAssign hp with rfl | hp
  · exact hkeys.foldl entries
  · exact h p hp

/-- Whatever is added, every entry stands under its own id. -/
theorem KeyRequest.Built.wellKeyed {request : KeyRequest} (h : request.Built) :
    request.WellKeyed := by
  induction h with
  | empty => exact fun p hp => absurd hp List.not_mem_nil
  | addOne keys keyId location _ ih => exact ih.addEntries location _
  | addMany keys keyIds location _ ih => exact ih.addEntries location _
  | addAll keys location _ ih => exact ih.addEntries location keys
  | rehash _ hperm ih => exact fun p hp => ih p (hperm.mem_iff.mpr hp)
  | rehashKeys _ hperm ih =>
      intro p hp
      rcases List.mem_cons.mp hp with rfl | hp
      · have hkeys := ih _ List.mem_cons_self
        exact ⟨(hperm.map Prod.fst).nodup_iff.mp hkeys.distinct,
          fun q hq => hkeys.keyId_eq q (hperm.mem_iff.mpr hq)⟩
      · exact ih p (List.mem_cons_of_mem _ hp)

/-! ## Duplicates -/

/-- Another key of the map has the same random id and timestamp. -/
def Duplicate (keys : List (Bytes × DecryptedEncKeyV2)) (p : Bytes × DecryptedEncKeyV2) : Prop :=
  p.2.compared ∧ ∃ q ∈ keys, q.1 ≠ p.1 ∧ q.2.compared ∧ q.2.nonce = p.2.nonce

instance (keys : List (Bytes × DecryptedEncKeyV2)) (p : Bytes × DecryptedEncKeyV2) :
    Decidable (Duplicate keys p) :=
  inferInstanceAs (Decidable (_ ∧ _))

/-- Duplicates are marked. -/
def markDuplicate (keys : List (Bytes × DecryptedEncKeyV2)) (p : Bytes × DecryptedEncKeyV2) :
    Bytes × DecryptedEncKeyV2 :=
  (p.1, if Duplicate keys p then p.2.duplicated else p.2)

/-- The duplicate map of the loop after the keys `pre`. -/
structure DuplicateMapFor (pre : List (Bytes × DecryptedEncKeyV2))
    (duplicateMap : List ((Bytes × Int) × Bytes)) : Prop where
  sound : ∀ n first, duplicateMap.lookup n = some first →
    ∃ key, (first, key) ∈ pre ∧ key.compared ∧ key.nonce = n
  complete : ∀ p ∈ pre, p.2.compared → ∃ first, duplicateMap.lookup p.2.nonce = some first

section Duplicates

variable {pre keys : List (Bytes × DecryptedEncKeyV2)} {x : Bytes × DecryptedEncKeyV2}

/-- What makes a key a duplicate once one more key has been seen. -/
theorem duplicate_append_iff (p : Bytes × DecryptedEncKeyV2) :
    Duplicate (pre ++ [x]) p ↔ Duplicate pre p ∨
      (p.2.compared ∧ x.1 ≠ p.1 ∧ x.2.compared ∧ x.2.nonce = p.2.nonce) := by
  simp only [Duplicate, List.mem_append, List.mem_singleton, or_and_right, exists_or,
    exists_eq_left, and_or_left]

/-- A key that is not compared, or whose nonce is new, changes no mark. -/
theorem map_markDuplicate_append
    (h : ∀ p ∈ pre, p.2.compared → x.2.compared → x.2.nonce ≠ p.2.nonce) :
    (pre ++ [x]).map (markDuplicate (pre ++ [x])) = pre.map (markDuplicate pre) ++ [x] := by
  have hold : pre.map (markDuplicate (pre ++ [x])) = pre.map (markDuplicate pre) := by
    apply List.map_congr_left
    intro p hp
    have hiff : Duplicate (pre ++ [x]) p ↔ Duplicate pre p := by
      rw [duplicate_append_iff]
      exact ⟨fun hd => hd.elim (fun hd => hd) fun hd => absurd hd.2.2.2 (h p hp hd.1 hd.2.2.1),
        Or.inl⟩
    simp only [markDuplicate, hiff]
  have hnew : markDuplicate (pre ++ [x]) x = x := by
    have hnot : ¬ Duplicate (pre ++ [x]) x := by
      rintro ⟨hx, q, hq, hne, hqc, hnonce⟩
      rcases List.mem_append.mp hq with hq | hq
      · exact h q hq hqc hx hnonce.symm
      · exact hne (by rw [List.mem_singleton.mp hq])
    simp only [markDuplicate, if_neg hnot]
  rw [List.map_append, hold, List.map_singleton, hnew]

/-- A key with the nonce of an earlier one marks itself and the first such key;
the others are marked already. -/
theorem map_markDuplicate_append_of_duplicate {first : Bytes} {key : DecryptedEncKeyV2}
    (hdistinct : DistinctKeys (pre ++ [x])) (hfirst : (first, key) ∈ pre) (hkey : key.compared)
    (hx : x.2.compared) (hnonce : key.nonce = x.2.nonce) :
    (pre ++ [x]).map (markDuplicate (pre ++ [x])) =
      (pre.map (markDuplicate pre)).map (DecryptedEncKeyV2.markAt first) ++
        [(x.1, x.2.duplicated)] := by
  have hnotin : ∀ p ∈ pre, p.1 ≠ x.1 := by
    intro p hp heq
    rw [DistinctKeys, List.map_append, List.map_singleton, List.nodup_append'] at hdistinct
    exact hdistinct.2.2 (List.mem_map_of_mem hp) (by rw [heq]; simp)
  have hunique : ∀ p ∈ pre, p.1 = first → p.2 = key := by
    intro p hp heq
    have hnodup : (pre.map Prod.fst).Nodup := by
      rw [DistinctKeys, List.map_append] at hdistinct
      exact hdistinct.of_append_left
    have := List.inj_on_of_nodup_map hnodup hp hfirst heq
    rw [this]
  have hlast : Duplicate (pre ++ [x]) x :=
    ⟨hx, (first, key), List.mem_append_left _ hfirst, hnotin _ hfirst, hkey, hnonce⟩
  rw [List.map_append, List.map_singleton, List.map_map]
  congr 1
  · apply List.map_congr_left
    intro p hp
    by_cases hpf : p.1 = first
    · have hdup : Duplicate (pre ++ [x]) p := by
        rw [duplicate_append_iff]
        refine Or.inr ⟨?_, (hnotin p hp).symm, hx, ?_⟩
        · rw [hunique p hp hpf]; exact hkey
        · rw [hunique p hp hpf]; exact hnonce.symm
      have hmark : DecryptedEncKeyV2.markAt first (markDuplicate pre p) =
          (p.1, (markDuplicate pre p).2.duplicated) := by
        rw [DecryptedEncKeyV2.markAt, if_pos (show (markDuplicate pre p).1 = first from hpf)]
        rfl
      rw [Function.comp, hmark, markDuplicate, if_pos hdup]
      simp only [markDuplicate]
      split
      · rfl
      · rfl
    · have hiff : Duplicate (pre ++ [x]) p ↔ Duplicate pre p := by
        rw [duplicate_append_iff]
        refine ⟨fun hd => hd.elim (fun hd => hd) fun hd => ?_, Or.inl⟩
        exact ⟨hd.1, (first, key), hfirst, fun heq => hpf heq.symm, hkey,
          hnonce.trans hd.2.2.2⟩
      have hmark : DecryptedEncKeyV2.markAt first (markDuplicate pre p) = markDuplicate pre p := by
        rw [DecryptedEncKeyV2.markAt, if_neg (show ¬ (markDuplicate pre p).1 = first from hpf)]
      rw [Function.comp, hmark]
      simp only [markDuplicate, hiff]
  · simp only [markDuplicate, if_pos hlast]

/-- **Duplicates.**  The loop marks exactly the keys that share their random id
and timestamp with another one. -/
theorem KeyProvider.verifyForDuplicationFrom_eq {duplicateMap : List ((Bytes × Int) × Bytes)}
    (hmap : DuplicateMapFor pre duplicateMap) (hdistinct : DistinctKeys (pre ++ keys)) :
    KeyProvider.verifyForDuplicationFrom (pre.map (markDuplicate pre)) duplicateMap keys =
      (pre ++ keys).map (markDuplicate (pre ++ keys)) := by
  induction keys generalizing pre duplicateMap with
  | nil => simp [KeyProvider.verifyForDuplicationFrom]
  | cons x keys ih =>
      obtain ⟨keyId, key⟩ := x
      have hsplit : pre ++ (keyId, key) :: keys = (pre ++ [(keyId, key)]) ++ keys := by simp
      have hpre : DistinctKeys (pre ++ [(keyId, key)]) := by
        rw [hsplit, DistinctKeys, List.map_append] at hdistinct
        exact hdistinct.of_append_left
      rw [hsplit] at hdistinct ⊢
      rw [KeyProvider.verifyForDuplicationFrom]
      by_cases hcompared : key.compared
      · rw [if_pos hcompared]
        cases hlook : duplicateMap.lookup key.nonce with
        | none =>
            have hnew : ∀ p ∈ pre, p.2.compared → key.compared → key.nonce ≠ p.2.nonce := by
              intro p hp hpc _ heq
              obtain ⟨first, hfirst⟩ := hmap.complete p hp hpc
              rw [← heq, hlook] at hfirst
              cases hfirst
            rw [← map_markDuplicate_append (x := (keyId, key)) hnew]
            refine ih ⟨?_, ?_⟩ hdistinct
            · intro n first hfirst
              rw [List.lookup_cons] at hfirst
              split at hfirst
              · rename_i heq
                cases hfirst
                exact ⟨key, by simp, hcompared, (beq_iff_eq.mp heq).symm⟩
              · obtain ⟨k, hk, hkc, hkn⟩ := hmap.sound n first hfirst
                exact ⟨k, List.mem_append_left _ hk, hkc, hkn⟩
            · intro p hp hpc
              rw [List.lookup_cons]
              split
              · exact ⟨keyId, rfl⟩
              · rename_i hne
                rcases List.mem_append.mp hp with hp | hp
                · exact hmap.complete p hp hpc
                · rw [List.mem_singleton.mp hp] at hne
                  simp at hne
        | some first =>
            obtain ⟨k, hk, hkc, hkn⟩ := hmap.sound _ _ hlook
            have hstep := map_markDuplicate_append_of_duplicate hpre hk hkc hcompared hkn
            simp only
            rw [← hstep]
            refine ih ⟨?_, ?_⟩ hdistinct
            · intro n first' hfirst
              obtain ⟨k', hk', hkc', hkn'⟩ := hmap.sound n first' hfirst
              exact ⟨k', List.mem_append_left _ hk', hkc', hkn'⟩
            · intro p hp hpc
              rcases List.mem_append.mp hp with hp | hp
              · exact hmap.complete p hp hpc
              · rw [List.mem_singleton.mp hp]
                exact ⟨first, hlook⟩
      · rw [if_neg hcompared, ← map_markDuplicate_append (x := (keyId, key))
          (fun _ _ _ h => absurd h hcompared)]
        refine ih ⟨?_, ?_⟩ hdistinct
        · intro n first hfirst
          obtain ⟨k, hk, hkc, hkn⟩ := hmap.sound n first hfirst
          exact ⟨k, List.mem_append_left _ hk, hkc, hkn⟩
        · intro p hp hpc
          rcases List.mem_append.mp hp with hp | hp
          · exact hmap.complete p hp hpc
          · rw [List.mem_singleton.mp hp] at hpc
            exact absurd hpc hcompared

/-- A single key is no duplicate. -/
theorem map_markDuplicate_of_length_le_one (h : keys.length ≤ 1) :
    keys.map (markDuplicate keys) = keys := by
  match keys with
  | [] => rfl
  | [x] =>
      have hnot : ¬ Duplicate [x] x := by
        rintro ⟨-, q, hq, hne, -⟩
        exact hne (by rw [List.mem_singleton.mp hq])
      simp only [List.map_cons, List.map_nil, markDuplicate, if_neg hnot]

/-- The pass over the keys marks each by the whole list. -/
theorem KeyProvider.verifyForDuplication_eq (hdistinct : DistinctKeys keys) :
    KeyProvider.verifyForDuplication keys = keys.map (markDuplicate keys) := by
  have hempty : DuplicateMapFor [] [] :=
    { sound := fun _ _ h => absurd h (by simp)
      complete := fun p hp => absurd hp List.not_mem_nil }
  exact KeyProvider.verifyForDuplicationFrom_eq hempty (by rwa [List.nil_append])

end Duplicates

/-! ## The keys of a location -/

section Location

variable {C : KeyCrypto} {privateKey : C.PrivateKey}

/-- A decrypted key stands where its entry stood. -/
def KeyProvider.Decrypts (C : KeyCrypto) (privateKey : C.PrivateKey) (a : Bytes × KeyEntry)
    (p : Bytes × DecryptedEncKeyV2) : Prop :=
  a.1 = p.1 ∧ KeyProvider.decryptEntry C privateKey a.2 = .ok p.2

/-- The result stands entry by entry beside the keys. -/
theorem KeyProvider.forall₂_of_decryptEntries {keys : List (Bytes × KeyEntry)}
    {result : List (Bytes × DecryptedEncKeyV2)}
    (h : KeyProvider.decryptEntries C privateKey keys = .ok result) :
    List.Forall₂ (KeyProvider.Decrypts C privateKey) keys result := by
  induction keys generalizing result with
  | nil => cases h; exact .nil
  | cons a keys ih =>
      obtain ⟨keyId, entry⟩ := a
      rw [KeyProvider.decryptEntries] at h
      split at h
      · cases h
      · rename_i key hkey
        split at h
        · cases h
        · rename_i rest hrest
          cases h
          exact .cons ⟨rfl, hkey⟩ (ih hrest)

/-- Entries that decrypt one by one decrypt together. -/
theorem KeyProvider.decryptEntries_ok {keys : List (Bytes × KeyEntry)}
    (h : ∀ a ∈ keys, ∃ key, KeyProvider.decryptEntry C privateKey a.2 = .ok key) :
    ∃ result, KeyProvider.decryptEntries C privateKey keys = .ok result := by
  induction keys with
  | nil => exact ⟨[], rfl⟩
  | cons a keys ih =>
      obtain ⟨keyId, entry⟩ := a
      obtain ⟨key, hkey⟩ := h (keyId, entry) List.mem_cons_self
      obtain ⟨rest, hrest⟩ := ih fun b hb => h b (List.mem_cons_of_mem _ hb)
      refine ⟨(keyId, key) :: rest, ?_⟩
      simp only [KeyProvider.decryptEntries, hkey, hrest]

/-- The key passes the checks that do not involve the user verifier: its
location is the container's, and no other key shares its random id and
timestamp. -/
structure KeyProvider.Passes (C : KeyCrypto) (privateKey : C.PrivateKey)
    (keys : List (Bytes × KeyEntry)) (location : EncKeyLocation) (keyId : Bytes)
    (key : DecryptedEncKeyV2) : Prop where
  status : (key.verifyData location).statusCode = 0
  unique : ∀ a ∈ keys, a.1 ≠ keyId → ∀ other,
    KeyProvider.decryptEntry C privateKey a.2 = .ok other →
      (other.verifyData location).compared → (key.verifyData location).compared →
        (other.verifyData location).nonce ≠ (key.verifyData location).nonce

/-- A key that passes the check of its data is left as it was. -/
theorem DecryptedEncKeyV2.verifyData_of_zero {key : DecryptedEncKeyV2} {location : EncKeyLocation}
    (h : (key.verifyData location).statusCode = 0) : key.verifyData location = key := by
  unfold DecryptedEncKeyV2.verifyData at h ⊢
  split
  · rename_i hbad
    rw [if_pos hbad] at h
    exact absurd h encryptionKeyContainerValidation.2
  · rfl

/-- Every element on the left has a partner. -/
theorem mem_of_forall₂_left {α β : Type} {R : α → β → Prop} {l₁ : List α} {l₂ : List β}
    (h : List.Forall₂ R l₁ l₂) {a : α} (ha : a ∈ l₁) : ∃ b ∈ l₂, R a b := by
  induction h with
  | nil => exact absurd ha List.not_mem_nil
  | cons hab _ ih =>
      rcases List.mem_cons.mp ha with rfl | ha
      · exact ⟨_, List.mem_cons_self, hab⟩
      · obtain ⟨b, hb, hab⟩ := ih ha
        exact ⟨b, List.mem_cons_of_mem _ hb, hab⟩

/-- So has every element on the right. -/
theorem mem_of_forall₂_right {α β : Type} {R : α → β → Prop} {l₁ : List α} {l₂ : List β}
    (h : List.Forall₂ R l₁ l₂) {b : β} (hb : b ∈ l₂) : ∃ a ∈ l₁, R a b :=
  mem_of_forall₂_left h.flip hb

/-- The decrypted keys are as distinct as the entries. -/
theorem KeyProvider.distinctKeys_verifyData {keys : List (Bytes × KeyEntry)}
    {decrypted : List (Bytes × DecryptedEncKeyV2)} (hdistinct : DistinctKeys keys)
    (h : KeyProvider.decryptEntries C privateKey keys = .ok decrypted)
    (location : EncKeyLocation) : DistinctKeys (KeyProvider.verifyData decrypted location) := by
  have hfst : decrypted.map Prod.fst = keys.map Prod.fst := by
    have hall := KeyProvider.forall₂_of_decryptEntries h
    clear hdistinct h
    induction hall with
    | nil => rfl
    | cons hab _ ih => rw [List.map_cons, List.map_cons, ih, hab.1]
  have hmap : (KeyProvider.verifyData decrypted location).map Prod.fst =
      decrypted.map Prod.fst := by
    rw [KeyProvider.verifyData, List.map_map]
    rfl
  rw [DistinctKeys, hmap, hfst]
  exact hdistinct

/-- The keys of a location after the checks, for keys that all decrypt. -/
theorem KeyProvider.decryptAndVerifyKeys_eq {keys : List (Bytes × KeyEntry)}
    {location : EncKeyLocation} {decrypted : List (Bytes × DecryptedEncKeyV2)}
    (hdistinct : DistinctKeys keys)
    (h : KeyProvider.decryptEntries C privateKey keys = .ok decrypted) :
    KeyProvider.decryptAndVerifyKeys C privateKey keys location =
      .ok ((KeyProvider.verifyData decrypted location).map
        (markDuplicate (KeyProvider.verifyData decrypted location))) := by
  have hkeys := KeyProvider.distinctKeys_verifyData hdistinct h location
  simp only [KeyProvider.decryptAndVerifyKeys, h]
  split
  · rw [KeyProvider.verifyForDuplication_eq hkeys]
  · rename_i hshort
    rw [map_markDuplicate_of_length_le_one (by omega)]

/-- **One location.**  The keys of status zero are the decrypted keys that pass
the checks. -/
theorem KeyProvider.mem_decryptAndVerifyKeys_iff {keys : List (Bytes × KeyEntry)}
    {location : EncKeyLocation} {result : List (Bytes × DecryptedEncKeyV2)}
    (hdistinct : DistinctKeys keys)
    (h : KeyProvider.decryptAndVerifyKeys C privateKey keys location = .ok result)
    (p : Bytes × DecryptedEncKeyV2) :
    p ∈ result ∧ p.2.statusCode = 0 ↔
      ∃ a ∈ keys, KeyProvider.Decrypts C privateKey a p ∧
        KeyProvider.Passes C privateKey keys location p.1 p.2 := by
  obtain ⟨decrypted, hdecrypted⟩ : ∃ decrypted,
      KeyProvider.decryptEntries C privateKey keys = .ok decrypted := by
    unfold KeyProvider.decryptAndVerifyKeys at h
    split at h
    · cases h
    · rename_i decrypted hdecrypted
      exact ⟨decrypted, hdecrypted⟩
  have hall := KeyProvider.forall₂_of_decryptEntries hdecrypted
  rw [KeyProvider.decryptAndVerifyKeys_eq hdistinct hdecrypted] at h
  cases h
  constructor
  · rintro ⟨hp, hzero⟩
    obtain ⟨q, hq, rfl⟩ := List.mem_map.mp hp
    obtain ⟨r, hr, rfl⟩ := List.mem_map.mp hq
    obtain ⟨keyId, key⟩ := r
    by_cases hdup : Duplicate (KeyProvider.verifyData decrypted location)
        (keyId, key.verifyData location)
    · rw [markDuplicate, if_pos hdup] at hzero
      exact absurd hzero dataIntegrityObjectDuplicated.2
    · rw [markDuplicate, if_neg hdup] at hzero ⊢
      have hstatus : (key.verifyData location).statusCode = 0 := hzero
      have hsame := DecryptedEncKeyV2.verifyData_of_zero hstatus
      obtain ⟨a, ha, hda⟩ := mem_of_forall₂_right hall hr
      refine ⟨a, ha, ⟨hda.1, by rw [hda.2]; exact congrArg Except.ok hsame.symm⟩, ?_⟩
      simp only [hsame]
      refine ⟨hstatus, fun b hb hne other hother hoc hkc hnonce => ?_⟩
      obtain ⟨p, hp, hdp⟩ := mem_of_forall₂_left hall hb
      have hpo : p.2 = other := by
        have := hdp.2
        rw [hother] at this
        exact (Except.ok.inj this).symm
      refine hdup ⟨hkc, (p.1, p.2.verifyData location), List.mem_map.mpr ⟨p, hp, rfl⟩, ?_, ?_, ?_⟩
      · rw [← hdp.1]; exact hne
      · rw [hpo]; exact hoc
      · rw [hpo]; exact hnonce
  · rintro ⟨a, ha, hda, hpass⟩
    obtain ⟨q, hq, hdq⟩ := mem_of_forall₂_left hall ha
    obtain ⟨keyId, key⟩ := p
    have hqp : q = (keyId, key) := by
      have hkey := hdq.2
      rw [hda.2] at hkey
      exact Prod.ext (hdq.1.symm.trans hda.1) (Except.ok.inj hkey).symm
    subst hqp
    have hsame := DecryptedEncKeyV2.verifyData_of_zero hpass.status
    have hnot : ¬ Duplicate (KeyProvider.verifyData decrypted location) (keyId, key) := by
      rintro ⟨hkc, r, hr, hne, hrc, hnonce⟩
      obtain ⟨t, ht, rfl⟩ := List.mem_map.mp hr
      obtain ⟨b, hb, hdb⟩ := mem_of_forall₂_right hall ht
      refine hpass.unique b hb (by rw [hdb.1]; exact hne) t.2 hdb.2 hrc ?_ ?_
      · rw [hsame]; exact hkc
      · rw [hsame]; exact hnonce
    refine ⟨List.mem_map.mpr ⟨(keyId, key), List.mem_map.mpr ⟨(keyId, key), hq, ?_⟩, ?_⟩, ?_⟩
    · simp only [hsame]
    · rw [markDuplicate, if_neg hnot]
    · rw [← hsame]; exact hpass.status

end Location

/-! ## Keys are bound to their ids -/

/-- Every key of status zero stands under its own id. -/
def KeyMaps.Bound (keys : KeyMaps) : Prop :=
  ∀ l ∈ keys, ∀ p ∈ l.2, p.2.statusCode = 0 → p.2.id = p.1

/-- Every entry of version 2 that passes the checks carries the id it stands
under. -/
def KeyRequest.CarriesIds (C : KeyCrypto) (privateKey : C.PrivateKey) (request : KeyRequest) :
    Prop :=
  ∀ l ∈ request, ∀ a ∈ l.2, ∀ encrypted, a.2.data = .object (.ok 2) (.ok encrypted) →
    KeyProvider.Passes C privateKey l.2 l.1 a.1 (EncKeyEncryptorV2.decrypt C encrypted privateKey) →
      (EncKeyEncryptorV2.decrypt C encrypted privateKey).id = a.1

/-- No entry makes its decryption throw. -/
def KeyRequest.Decryptable (C : KeyCrypto) (privateKey : C.PrivateKey) (request : KeyRequest) :
    Prop :=
  ∀ l ∈ request, ∀ a ∈ l.2, ∃ key, KeyProvider.decryptEntry C privateKey a.2 = .ok key

section Binding

variable {C : KeyCrypto} {privateKey : C.PrivateKey}

/-- The results of a request, location by location. -/
theorem KeyProvider.forall₂_of_decryptLocations {request : KeyRequest} {result : KeyMaps}
    (h : KeyProvider.decryptLocations C privateKey request = .ok result) :
    List.Forall₂ (fun l r => l.1 = r.1 ∧
      KeyProvider.decryptAndVerifyKeys C privateKey l.2 l.1 = .ok r.2) request result := by
  induction request generalizing result with
  | nil => cases h; exact .nil
  | cons l request ih =>
      obtain ⟨location, keys⟩ := l
      rw [KeyProvider.decryptLocations] at h
      split at h
      · cases h
      · rename_i r hr
        split at h
        · cases h
        · rename_i rest hrest
          cases h
          exact .cons ⟨rfl, hr⟩ (ih hrest)

/-- A request that can be decrypted is. -/
theorem KeyProvider.decryptLocations_ok {request : KeyRequest}
    (hdec : request.Decryptable C privateKey) :
    ∃ result, KeyProvider.decryptLocations C privateKey request = .ok result := by
  induction request with
  | nil => exact ⟨[], rfl⟩
  | cons l request ih =>
      obtain ⟨location, keys⟩ := l
      obtain ⟨decrypted, hdecrypted⟩ :=
        KeyProvider.decryptEntries_ok (hdec (location, keys) List.mem_cons_self)
      obtain ⟨rest, hrest⟩ := ih fun m hm => hdec m (List.mem_cons_of_mem _ hm)
      exact ⟨_, by simp only [KeyProvider.decryptLocations, KeyProvider.decryptAndVerifyKeys,
        hdecrypted, hrest]; rfl⟩

/-- A request that was decrypted can be. -/
theorem KeyRequest.decryptable_of_ok {request : KeyRequest} {result : KeyMaps}
    (h : KeyProvider.decryptLocations C privateKey request = .ok result) :
    request.Decryptable C privateKey := by
  intro l hl a ha
  obtain ⟨r, -, -, hr⟩ := mem_of_forall₂_left (KeyProvider.forall₂_of_decryptLocations h) hl
  unfold KeyProvider.decryptAndVerifyKeys at hr
  split at hr
  · cases hr
  · rename_i decrypted hdecrypted
    obtain ⟨p, -, -, hp⟩ :=
      mem_of_forall₂_left (KeyProvider.forall₂_of_decryptEntries hdecrypted) ha
    exact ⟨p.2, hp⟩

/-- Setting a status to an error leaves no new key of status zero. -/
theorem KeyProvider.mem_of_setStatus {keys : KeyMaps} {location : EncKeyLocation} {keyId : Bytes}
    {code : ErrorCode} {l : EncKeyLocation × List (Bytes × DecryptedEncKeyV2)}
    (hl : l ∈ KeyProvider.setStatus keys location keyId code.1)
    {p : Bytes × DecryptedEncKeyV2} (hp : p ∈ l.2) (hzero : p.2.statusCode = 0) :
    ∃ m ∈ keys, m.1 = l.1 ∧ p ∈ m.2 := by
  obtain ⟨m, hm, rfl⟩ := List.mem_map.mp hl
  refine ⟨m, hm, rfl, ?_⟩
  simp only at hp
  split at hp
  · obtain ⟨q, hq, rfl⟩ := List.mem_map.mp hp
    simp only at hzero ⊢
    split at hzero
    · exact absurd hzero code.2
    · rename_i hne
      rw [if_neg hne]
      exact hq
  · exact hp

/-- A verifier only takes keys of status zero away. -/
theorem KeyProvider.mem_of_verifyUserData {userVerifier : UserVerifierInterface}
    {keys result : KeyMaps} (h : KeyProvider.verifyUserData userVerifier keys = .ok result)
    {l : EncKeyLocation × List (Bytes × DecryptedEncKeyV2)} (hl : l ∈ result)
    {p : Bytes × DecryptedEncKeyV2} (hp : p ∈ l.2) (hzero : p.2.statusCode = 0) :
    ∃ m ∈ keys, m.1 = l.1 ∧ p ∈ m.2 := by
  unfold KeyProvider.verifyUserData at h
  simp only at h
  split at h
  · cases h
  · rename_i verdicts hverdicts
    cases h
    generalize (KeyProvider.verificationRequests keys).zip verdicts = requests at hl
    clear hverdicts
    induction requests generalizing keys with
    | nil => exact ⟨l, hl, rfl, hp⟩
    | cons r requests ih =>
        obtain ⟨m, hm, hml, hpm⟩ := ih hl
        simp only at hm
        split at hm
        · obtain ⟨n, hn, hnm, hpn⟩ := KeyProvider.mem_of_setStatus hm hpm hzero
          exact ⟨n, hn, hnm.trans hml, hpn⟩
        · exact ⟨m, hm, hml, hpm⟩

/-- A verifier that accepts everything changes nothing. -/
theorem KeyProvider.verifyUserData_of_accepting (keys : KeyMaps) :
    KeyProvider.verifyUserData (fun requests => some (requests.map fun _ => true)) keys =
      .ok keys := by
  simp only [KeyProvider.verifyUserData, UserVerifier.verify, List.length_map, ne_eq,
    not_true_eq_false, if_false]
  congr 1
  generalize KeyProvider.verificationRequests keys = requests
  induction requests with
  | nil => rfl
  | cons r requests ih => exact ih

/-- The entries that decrypt to a key of status zero: strings, whose key gets
the id of the entry, and objects of version 2. -/
theorem KeyProvider.decryptEntry_cases {entry : KeyEntry} {key : DecryptedEncKeyV2}
    (h : KeyProvider.decryptEntry C privateKey entry = .ok key) (hzero : key.statusCode = 0) :
    (key.id = entry.keyId ∧ key.dataStructureVersion = 1) ∨
      ∃ encrypted, entry.data = .object (.ok 2) (.ok encrypted) ∧
        key = EncKeyEncryptorV2.decrypt C encrypted privateKey := by
  unfold KeyProvider.decryptEntry at h
  cases hdata : entry.data with
  | object version encrypted =>
      rw [hdata] at h
      cases version with
      | error e =>
          cases h
          exact absurd hzero e.statusCode.2
      | ok version =>
          simp only at h
          split at h
          · rename_i hversion
            subst hversion
            cases encrypted with
            | error e => cases h
            | ok encrypted =>
                cases h
                exact Or.inr ⟨encrypted, rfl, rfl⟩
          · cases h
            exact absurd hzero unknownEncryptionKeyVersion.2
  | string cipher =>
      rw [hdata] at h
      simp only at h
      cases hplain : EncKeyEncryptorV1.decrypt C cipher privateKey with
      | error e => rw [hplain] at h; cases h
      | ok plain =>
          rw [hplain] at h
          cases h
          exact Or.inl ⟨rfl, rfl⟩
  | empty =>
      rw [hdata] at h
      cases h
      exact absurd hzero unknownEncryptionKeyVersion.2

/-- A key of version 2 that passes the checks is returned to a caller whose
verifier accepts everything. -/
theorem KeyProvider.getKeysAndVerify_of_passes {request : KeyRequest}
    (hkeyed : request.WellKeyed) (hdec : request.Decryptable C privateKey)
    {l : EncKeyLocation × List (Bytes × KeyEntry)} (hl : l ∈ request) {a : Bytes × KeyEntry}
    (ha : a ∈ l.2) {encrypted : EncryptedKeyEntryDataV2}
    (hdata : a.2.data = .object (.ok 2) (.ok encrypted))
    (hpass : KeyProvider.Passes C privateKey l.2 l.1 a.1
      (EncKeyEncryptorV2.decrypt C encrypted privateKey)) :
    ∃ result,
      KeyProvider.getKeysAndVerify C privateKey (fun requests => some (requests.map fun _ => true))
          request = .ok result ∧
        ∃ r ∈ result, (a.1, EncKeyEncryptorV2.decrypt C encrypted privateKey) ∈ r.2 ∧
          (EncKeyEncryptorV2.decrypt C encrypted privateKey).statusCode = 0 := by
  obtain ⟨result, hresult⟩ := KeyProvider.decryptLocations_ok hdec
  obtain ⟨r, hr, -, hkeys⟩ :=
    mem_of_forall₂_left (KeyProvider.forall₂_of_decryptLocations hresult) hl
  have hentry : KeyProvider.decryptEntry C privateKey a.2 =
      .ok (EncKeyEncryptorV2.decrypt C encrypted privateKey) := by
    rw [KeyProvider.decryptEntry, hdata]
    rfl
  refine ⟨result, ?_, r, hr, ?_⟩
  · simp only [KeyProvider.getKeysAndVerify, hresult, KeyProvider.verifyUserData_of_accepting]
  · exact (KeyProvider.mem_decryptAndVerifyKeys_iff (hkeyed l hl).distinct hkeys
      (a.1, EncKeyEncryptorV2.decrypt C encrypted privateKey)).mpr ⟨a, ha, ⟨rfl, hentry⟩, hpass⟩

/-- A key that is returned with status zero is an entry's key that passes the
checks. -/
theorem KeyProvider.passes_of_getKeysAndVerify {request : KeyRequest} (hkeyed : request.WellKeyed)
    {userVerifier : UserVerifierInterface} {result : KeyMaps}
    (hget : KeyProvider.getKeysAndVerify C privateKey userVerifier request = .ok result)
    {r : EncKeyLocation × List (Bytes × DecryptedEncKeyV2)} (hr : r ∈ result)
    {p : Bytes × DecryptedEncKeyV2} (hp : p ∈ r.2) (hzero : p.2.statusCode = 0) :
    request.Decryptable C privateKey ∧
      ∃ l ∈ request, l.1 = r.1 ∧ ∃ a ∈ l.2, KeyProvider.Decrypts C privateKey a p ∧
        KeyProvider.Passes C privateKey l.2 l.1 p.1 p.2 := by
  unfold KeyProvider.getKeysAndVerify at hget
  split at hget
  · cases hget
  · rename_i decrypted hdecrypted
    obtain ⟨m, hm, hmr, hpm⟩ := KeyProvider.mem_of_verifyUserData hget hr hp hzero
    obtain ⟨l, hl, hlm, hkeys⟩ :=
      mem_of_forall₂_right (KeyProvider.forall₂_of_decryptLocations hdecrypted) hm
    exact ⟨KeyRequest.decryptable_of_ok hdecrypted, l, hl, hlm.trans hmr,
      (KeyProvider.mem_decryptAndVerifyKeys_iff (hkeyed l hl).distinct hkeys p).mp ⟨hpm, hzero⟩⟩

end Binding

/-- **When keys are bound to their ids.**  For every request that can be built
and every content of its entries, whatever the user verifier answers, the keys
returned with status zero stand under their own ids exactly if the entries of
version 2 that pass the checks carry the ids they stand under (or some entry
makes the decryption throw, and nothing is returned). -/
theorem KeyProvider.bound_iff (C : KeyCrypto) (privateKey : C.PrivateKey) (request : KeyRequest)
    (hbuilt : request.Built) :
    (∀ userVerifier result,
        KeyProvider.getKeysAndVerify C privateKey userVerifier request = .ok result →
          result.Bound) ↔
      (request.Decryptable C privateKey → request.CarriesIds C privateKey) := by
  have hkeyed := hbuilt.wellKeyed
  constructor
  · intro hall hdec l hl a ha encrypted hdata hpass
    obtain ⟨result, hget, r, hr, hmem, hzero⟩ :=
      KeyProvider.getKeysAndVerify_of_passes hkeyed hdec hl ha hdata hpass
    exact hall _ result hget r hr _ hmem hzero
  · intro hcond userVerifier result hget r hr p hp hzero
    obtain ⟨hdec, l, hl, -, a, ha, ⟨hid, hentry⟩, hpass⟩ :=
      KeyProvider.passes_of_getKeysAndVerify hkeyed hget hr hp hzero
    rcases KeyProvider.decryptEntry_cases hentry hzero with ⟨hown, -⟩ | ⟨encrypted, hdata, hkey⟩
    · rw [hown, (hkeyed l hl).keyId_eq a ha, hid]
    · rw [hkey, ← hid]
      rw [hkey, ← hid] at hpass
      exact hcond hdec l hl a ha encrypted hdata hpass

/-! ## Two keys of a container -/

/-- A key of a container, signed by user 2. -/
def sampleKeyToEncrypt (id : Bytes) : EncKeyV2ToEncrypt where
  id := id
  key := id
  dio :=
    { creatorUserId := [50]
      creatorPubKey := [2]
      contextId := [3]
      resourceId := [4]
      timestamp := 0
      randomId := id
      containerId := none
      containerResourceId := none
      bridgeIdentity := some ⟨[], none, none⟩ }
  keySecret := []
  secretHash := []

/-- The location of the container. -/
def sampleLocation : EncKeyLocation := ⟨[3], [4]⟩

/-- User 1 can decrypt the key, and it passes the checks of its location. -/
theorem sampleKey_passes {id : Bytes} (hid : id ≠ []) (keyId : Bytes) :
    ∃ encrypted,
      EncKeyEncryptorV2.encrypt sampleKeyCrypto (sampleKeyToEncrypt id) (1 : UInt8) (2 : UInt8) =
          .ok encrypted ∧
        (EncKeyEncryptorV2.decrypt sampleKeyCrypto encrypted (1 : UInt8)).id = id ∧
        KeyProvider.Passes sampleKeyCrypto (1 : UInt8)
          [(keyId, ⟨keyId, .object (.ok 2) (.ok encrypted)⟩)] sampleLocation keyId
          (EncKeyEncryptorV2.decrypt sampleKeyCrypto encrypted (1 : UInt8)) := by
  have hdio : (sampleKeyToEncrypt id).dio.SignableBy sampleKeyCrypto (2 : UInt8) :=
    ⟨rfl, List.cons_ne_nil _ _, List.cons_ne_nil _ _, hid, _, rfl⟩
  obtain ⟨encrypted, checksum, hencrypt, -, hdecrypt⟩ :=
    EncKeyEncryptorV2.decrypt_encrypt sampleKeyCrypto_lawful (1 : UInt8) _ hdio hid hid
  refine ⟨encrypted, hencrypt, by rw [hdecrypt]; rfl, ?_, ?_⟩
  · rw [hdecrypt]
    rfl
  · intro a ha hne
    exact absurd (by rw [List.mem_singleton.mp ha]) hne

/-- A request for one entry of version 2. -/
theorem sampleRequest_decryptable (keyId : Bytes) (encrypted : EncryptedKeyEntryDataV2) :
    KeyRequest.Decryptable sampleKeyCrypto (1 : UInt8)
      [(sampleLocation, [(keyId, ⟨keyId, .object (.ok 2) (.ok encrypted)⟩)])] := by
  intro l hl a ha
  rw [List.mem_singleton.mp hl] at ha
  rw [List.mem_singleton.mp ha]
  exact ⟨_, rfl⟩

/-- Two keys under their own ids. -/
theorem KeyProvider.bound_sample :
    ∃ encryptedA encryptedB,
      EncKeyEncryptorV2.encrypt sampleKeyCrypto (sampleKeyToEncrypt [97]) (1 : UInt8) (2 : UInt8) =
          .ok encryptedA ∧
        EncKeyEncryptorV2.encrypt sampleKeyCrypto (sampleKeyToEncrypt [98]) (1 : UInt8)
            (2 : UInt8) = .ok encryptedB ∧
        ∀ userVerifier result,
          KeyProvider.getKeysAndVerify sampleKeyCrypto (1 : UInt8) userVerifier
              (KeyRequest.addAll []
                [⟨[97], .object (.ok 2) (.ok encryptedA)⟩,
                  ⟨[98], .object (.ok 2) (.ok encryptedB)⟩] sampleLocation) = .ok result →
            result.Bound := by
  obtain ⟨encryptedA, hencryptA, hidA, -⟩ := sampleKey_passes (List.cons_ne_nil 97 []) [97]
  obtain ⟨encryptedB, hencryptB, hidB, -⟩ := sampleKey_passes (List.cons_ne_nil 98 []) [98]
  refine ⟨encryptedA, encryptedB, hencryptA, hencryptB, ?_⟩
  refine (KeyProvider.bound_iff sampleKeyCrypto (1 : UInt8) _ (.addAll _ _ .empty)).mpr ?_
  intro _ l hl a ha encrypted hdata _
  rw [List.mem_singleton.mp hl] at ha
  rcases List.mem_cons.mp ha with rfl | ha
  · cases hdata
    exact hidB
  · rw [List.mem_singleton.mp ha] at hdata ⊢
    cases hdata
    exact hidA

/-- The server exchanges the data of two keys, and the client gets one key under
the id of the other, with status zero. -/
theorem KeyProvider.not_bound_when_exchanged :
    ∃ encryptedA encryptedB,
      EncKeyEncryptorV2.encrypt sampleKeyCrypto (sampleKeyToEncrypt [97]) (1 : UInt8) (2 : UInt8) =
          .ok encryptedA ∧
        EncKeyEncryptorV2.encrypt sampleKeyCrypto (sampleKeyToEncrypt [98]) (1 : UInt8)
            (2 : UInt8) = .ok encryptedB ∧
        ∃ userVerifier result,
          KeyProvider.getKeysAndVerify sampleKeyCrypto (1 : UInt8) userVerifier
              (KeyRequest.addOne []
                [⟨[97], .object (.ok 2) (.ok encryptedB)⟩,
                  ⟨[98], .object (.ok 2) (.ok encryptedA)⟩] [98] sampleLocation) = .ok result ∧
            ¬ result.Bound := by
  obtain ⟨encryptedA, hencryptA, hid, hpass⟩ := sampleKey_passes (List.cons_ne_nil 97 []) [98]
  obtain ⟨encryptedB, hencryptB, -, -⟩ := sampleKey_passes (List.cons_ne_nil 98 []) [97]
  have hkeyed : KeyRequest.WellKeyed
      [(sampleLocation, [([98], ⟨[98], .object (.ok 2) (.ok encryptedA)⟩)])] :=
    (KeyRequest.Built.addOne [⟨[98], .object (.ok 2) (.ok encryptedA)⟩] [98] sampleLocation
      .empty).wellKeyed
  obtain ⟨result, hget, r, hr, hmem, hzero⟩ := KeyProvider.getKeysAndVerify_of_passes hkeyed
    (sampleRequest_decryptable [98] encryptedA) List.mem_cons_self List.mem_cons_self rfl hpass
  refine ⟨encryptedA, encryptedB, hencryptA, hencryptB, _, result, hget, fun hbound => ?_⟩
  have hown : (EncKeyEncryptorV2.decrypt sampleKeyCrypto encryptedA (1 : UInt8)).id = [98] :=
    hbound r hr _ hmem hzero
  rw [hid] at hown
  exact absurd hown (by decide)

end PrivmxEndpoint
