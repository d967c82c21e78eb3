import PrivmxEndpoint.KeyProvider
import PrivmxEndpoint.UsersKeysResolver

/-!
# Handing keys over to the members of a container

A member who adds users or replaces the key of a container encrypts a new key
for all members (`prepareKeysList`) and the existing keys for the users that
have none (`prepareMissingKeysForNewUsers`).  An existing key keeps the random
id of its first hand-over and gets the timestamp of the new one.

Every user who is addressed reads all of these keys back with status zero
(`KeyProvider.handOver_roundTrip`), provided that the keys are not empty and the
data integrity object is one that the member can sign.
-/

namespace PrivmxEndpoint

/-- `EncKey`. -/
structure EncKey where
  id : Bytes
  key : Bytes
  deriving Repr, DecidableEq

/-- `server::KeyEntrySet`. -/
structure KeyEntrySet where
  user : Bytes
  keyId : Bytes
  data : KeyEntryData

/-- The entry that the server hands out for a set. -/
def KeyEntrySet.entry (s : KeyEntrySet) : KeyEntry := ⟨s.keyId, s.data⟩

/-- The message that the hash of a key's secret covers. -/
def EncKeyLocation.secretMessage (location : EncKeyLocation) (keySecret : Bytes) : Bytes :=
  keySecret ++ location.contextId ++ location.resourceId

/-- The member who hands keys over, with the random strings of the hand-over: a
secret for each user and key, and random ids for keys of version 1. -/
structure HandOver where
  C : KeyCrypto
  privateKey : C.PrivateKey
  generateSecret : Bytes → Bytes → Bytes
  generateDIORandomId : Bytes → Bytes
  dio : DataIntegrityObject
  location : EncKeyLocation
  containerSecret : Bytes

/-- `KeyProvider::createKeyEntrySet`. -/
def HandOver.createKeyEntrySet (H : HandOver) (user : UserWithPubKey) (key : EncKey)
    (dio : DataIntegrityObject) : Except EndpointException KeyEntrySet :=
  match H.C.fromBase58DER user.pubKey with
  | .error e => .error e
  | .ok publicKey =>
      let keySecret := H.generateSecret user.userId key.id
      match EncKeyEncryptorV2.encrypt H.C
          { id := key.id
            key := key.key
            dio := dio
            keySecret := keySecret
            secretHash := H.C.hmacSha256 H.containerSecret (H.location.secretMessage keySecret) }
          publicKey H.privateKey with
      | .error e => .error e
      | .ok data => .ok ⟨user.userId, key.id, .object (.ok data.version) (.ok data)⟩

/-- A loop that appends a result for each element. -/
def collect {α β : Type} (f : α → Except EndpointException β) :
    List α → Except EndpointException (List β)
  | [] => .ok []
  | a :: l =>
      match f a with
      | .error e => .error e
      | .ok b =>
          match collect f l with
          | .error e => .error e
          | .ok bs => .ok (b :: bs)

/-- `KeyProvider::prepareKeysList`. -/
def HandOver.prepareKeysList (H : HandOver) (users : List UserWithPubKey) (key : EncKey)
    (dio : DataIntegrityObject) : Except EndpointException (List KeyEntrySet) :=
  collect (fun user => H.createKeyEntrySet user key dio) users

/-- The object that an existing key is handed over with. -/
def HandOver.missingKeyDIO (H : HandOver) (key : DecryptedEncKeyV2) : DataIntegrityObject :=
  { H.dio with
    randomId :=
      if key.dataStructureVersion = 1 then H.generateDIORandomId key.id else key.dio.randomId }

/-- `KeyProvider::prepareMissingKeysForNewUsers`. -/
def HandOver.prepareMissingKeysForNewUsers (H : HandOver)
    (missingKeys : List (Bytes × DecryptedEncKeyV2)) (users : List UserWithPubKey) :
    Except EndpointException (List KeyEntrySet) :=
  (collect
    (fun (t : Bytes × DecryptedEncKeyV2) =>
      if t.2.statusCode ≠ 0 then
        .ok []
      else
        H.prepareKeysList users ⟨t.2.id, t.2.key⟩ (H.missingKeyDIO t.2))
    missingKeys).map List.flatten

/-- `KeyProvider::verifyKeysSecret`. -/
def KeyProvider.verifyKeysSecret (C : KeyCrypto) (decryptedKeys : List (Bytes × DecryptedEncKeyV2))
    (location : EncKeyLocation) (containerSecret : Bytes) : Bool :=
  decryptedKeys.all fun (_, key) =>
    key.statusCode = 0 &&
      !(key.dataStructureVersion = 2 &&
        key.secretHash ≠ C.hmacSha256 containerSecret (location.secretMessage key.keySecret))

/-! ## One key -/

/-- A key and the random id that it is handed over with. -/
structure HandedKey where
  id : Bytes
  key : Bytes
  randomId : Bytes
  deriving Repr, DecidableEq

/-- A key that its receiver accepts. -/
structure HandedKey.Proper (k : HandedKey) : Prop where
  id : k.id ≠ []
  key : k.key ≠ []
  randomId : k.randomId ≠ []

/-- The entry holds the key for the owner of a private key. -/
def HandOver.Delivers (H : HandOver) (receiver : H.C.PrivateKey) (k : HandedKey)
    (entry : KeyEntry) : Prop :=
  entry.keyId = k.id ∧
    ∃ encrypted checksum keySecret,
      entry.data = .object (.ok 2) (.ok encrypted) ∧
        EncKeyEncryptorV2.decrypt H.C encrypted receiver =
          { id := k.id
            key := k.key
            dataStructureVersion := 2
            statusCode := 0
            dio :=
              { H.dio with
                randomId := k.randomId
                structureVersion := 2
                fieldChecksums :=
                  [("encryptedKey", checksum),
                    ("secretHash",
                      H.C.hmacSha256 H.containerSecret (H.location.secretMessage keySecret))] }
            keySecret := keySecret
            secretHash :=
              H.C.hmacSha256 H.containerSecret (H.location.secretMessage keySecret) }

/-- The member can sign the object of the hand-over, which is for the location. -/
structure HandOver.Honest (H : HandOver) : Prop where
  lawful : H.C.Lawful
  signable : H.dio.SignableBy H.C H.privateKey
  contextId : H.dio.contextId = H.location.contextId
  resourceId : H.dio.resourceId = H.location.resourceId

section OneKey

variable {H : HandOver} {k : HandedKey}

/-- The integrity object of a proper key can be signed. -/
theorem HandOver.Honest.signable_randomId (hH : H.Honest) (hk : k.Proper) :
    ({ H.dio with randomId := k.randomId } : DataIntegrityObject).SignableBy H.C H.privateKey :=
  { hH.signable with randomId := hk.randomId }

/-- **One entry.**  The set for a user delivers the key to the owner of the
user's public key. -/
theorem HandOver.Honest.createKeyEntrySet_ok (hH : H.Honest) (hk : k.Proper)
    {user : UserWithPubKey} {owner : H.C.PrivateKey}
    (howner : user.pubKey = H.C.toBase58DER (H.C.getPublicKey owner)) :
    ∃ s, H.createKeyEntrySet user ⟨k.id, k.key⟩ { H.dio with randomId := k.randomId } = .ok s ∧
      s.user = user.userId ∧ H.Delivers owner k s.entry := by
  have hpub : H.C.fromBase58DER user.pubKey = .ok (H.C.getPublicKey owner) := by
    rw [howner, hH.lawful.fromBase58DER_toBase58DER]
  let keySecret := H.generateSecret user.userId k.id
  obtain ⟨encrypted, checksum, hencrypt, hversion, hdecrypt⟩ :=
    EncKeyEncryptorV2.decrypt_encrypt hH.lawful owner
      { id := k.id
        key := k.key
        dio := { H.dio with randomId := k.randomId }
        keySecret := keySecret
        secretHash := H.C.hmacSha256 H.containerSecret (H.location.secretMessage keySecret) }
      (hH.signable_randomId hk) hk.id hk.key
  refine ⟨⟨user.userId, k.id, .object (.ok encrypted.version) (.ok encrypted)⟩, ?_, rfl, rfl,
    encrypted, checksum, keySecret, by rw [KeyEntrySet.entry, hversion], hdecrypt⟩
  simp only [HandOver.createKeyEntrySet, hpub]
  rw [hencrypt]

end OneKey

/-! ## Lists of keys -/

/-- A loop whose steps succeed succeeds. -/
theorem collect_ok {α β : Type} {f : α → Except EndpointException β} {R : α → β → Prop}
    {l : List α} (h : ∀ a ∈ l, ∃ b, f a = .ok b ∧ R a b) :
    ∃ bs, collect f l = .ok bs ∧ List.Forall₂ R l bs := by
  induction l with
  | nil => exact ⟨[], rfl, .nil⟩
  | cons a l ih =>
      obtain ⟨b, hb, hab⟩ := h a List.mem_cons_self
      obtain ⟨bs, hbs, hall⟩ := ih fun x hx => h x (List.mem_cons_of_mem _ hx)
      exact ⟨b :: bs, by simp only [collect, hb, hbs], .cons hab hall⟩

/-- The entries for one user. -/
def addressed (userId : Bytes) (sets : List KeyEntrySet) : List KeyEntry :=
  (sets.filter (·.user = userId)).map KeyEntrySet.entry

/-- What is addressed to a user, part by part. -/
theorem addressed_append (userId : Bytes) (s t : List KeyEntrySet) :
    addressed userId (s ++ t) = addressed userId s ++ addressed userId t := by
  rw [addressed, List.filter_append, List.map_append]
  rfl

/-- The users of a list own their public keys, and the user of an id owns the
one of the receiver. -/
structure HandOver.Owns (H : HandOver) (users : List UserWithPubKey) (userId : Bytes)
    (receiver : H.C.PrivateKey) : Prop where
  distinct : (users.map UserWithPubKey.userId).Nodup
  receiver_key : ∀ u ∈ users, u.userId = userId →
    u.pubKey = H.C.toBase58DER (H.C.getPublicKey receiver)

section Lists

variable {H : HandOver}

/-- The set of a user, as `prepareKeysList` makes it. -/
def HandOver.SetFor (H : HandOver) (k : HandedKey) (user : UserWithPubKey) (s : KeyEntrySet) :
    Prop :=
  s.user = user.userId ∧ ∀ receiver, user.pubKey = H.C.toBase58DER (H.C.getPublicKey receiver) →
    H.Delivers receiver k s.entry

/-- A proper key is encrypted for every user with a key of his own. -/
theorem HandOver.Honest.prepareKeysList_ok (hH : H.Honest) {k : HandedKey} (hk : k.Proper)
    {users : List UserWithPubKey}
    (howned : ∀ u ∈ users, ∃ owner, u.pubKey = H.C.toBase58DER (H.C.getPublicKey owner)) :
    ∃ sets, H.prepareKeysList users ⟨k.id, k.key⟩ { H.dio with randomId := k.randomId } =
        .ok sets ∧ List.Forall₂ (H.SetFor k) users sets := by
  apply collect_ok
  intro u hu
  obtain ⟨owner, howner⟩ := howned u hu
  obtain ⟨s, hs, huser, -⟩ := hH.createKeyEntrySet_ok hk howner
  refine ⟨s, hs, huser, fun receiver hreceiver => ?_⟩
  obtain ⟨s', hs', -, hdelivers⟩ := hH.createKeyEntrySet_ok hk hreceiver
  rw [hs] at hs'
  cases hs'
  exact hdelivers

/-- The sets of one key hold one entry for each user. -/
theorem HandOver.addressed_of_forall₂ {k : HandedKey} {users : List UserWithPubKey}
    {sets : List KeyEntrySet} {userId : Bytes} {receiver : H.C.PrivateKey}
    (hsets : List.Forall₂ (H.SetFor k) users sets) (howns : H.Owns users userId receiver) :
    List.Forall₂ (H.Delivers receiver)
      (if userId ∈ users.map UserWithPubKey.userId then [k] else []) (addressed userId sets) := by
  obtain ⟨hdistinct, hkey⟩ := howns
  induction hsets with
  | nil => exact .nil
  | @cons u s users sets hus hrest ih =>
      obtain ⟨hnotin, hdistinct⟩ := List.nodup_cons.mp hdistinct
      have hih := ih hdistinct fun v hv => hkey v (List.mem_cons_of_mem _ hv)
      by_cases hu : u.userId = userId
      · have hdelivers := hus.2 receiver (hkey u List.mem_cons_self hu)
        subst hu
        rw [if_neg hnotin] at hih
        have hnil : addressed u.userId sets = [] := List.forall₂_nil_left_iff.mp hih
        have hself : addressed u.userId (s :: sets) = [s.entry] := by
          rw [addressed, List.filter_cons, if_pos (by simpa using hus.1), List.map_cons]
          exact congrArg (s.entry :: ·) hnil
        rw [if_pos (by simp), hself]
        exact .cons hdelivers .nil
      · have hskip : addressed userId (s :: sets) = addressed userId sets := by
          rw [addressed, List.filter_cons, if_neg (by rw [hus.1]; simpa using hu)]
          rfl
        have hne : ¬ userId = u.userId := fun h => hu h.symm
        rw [hskip]
        simpa only [List.map_cons, List.mem_cons, hne, false_or] using hih

/-- The existing keys that are handed over. -/
def HandOver.handedMissing (H : HandOver) (missingKeys : List (Bytes × DecryptedEncKeyV2)) :
    List HandedKey :=
  (missingKeys.filter (·.2.statusCode = 0)).map fun t =>
    ⟨t.2.id, t.2.key, (H.missingKeyDIO t.2).randomId⟩

/-- The missing keys are handed over one by one. -/
theorem HandOver.prepareMissingKeysForNewUsers_cons {t : Bytes × DecryptedEncKeyV2}
    {missingKeys : List (Bytes × DecryptedEncKeyV2)} {users : List UserWithPubKey}
    {sets rest : List KeyEntrySet}
    (ht : (if t.2.statusCode ≠ 0 then .ok []
      else H.prepareKeysList users ⟨t.2.id, t.2.key⟩ (H.missingKeyDIO t.2)) = .ok sets)
    (hrest : H.prepareMissingKeysForNewUsers missingKeys users = .ok rest) :
    H.prepareMissingKeysForNewUsers (t :: missingKeys) users = .ok (sets ++ rest) := by
  unfold HandOver.prepareMissingKeysForNewUsers at hrest ⊢
  cases hparts : collect (fun (t : Bytes × DecryptedEncKeyV2) =>
      if t.2.statusCode ≠ 0 then .ok []
      else H.prepareKeysList users ⟨t.2.id, t.2.key⟩ (H.missingKeyDIO t.2)) missingKeys with
  | error e =>
      rw [hparts] at hrest
      cases hrest
  | ok parts =>
      rw [hparts] at hrest
      cases hrest
      simp only [collect, ht, hparts]
      rfl

/-- **The existing keys.**  Each one is delivered to the users of the list. -/
theorem HandOver.Honest.prepareMissingKeysForNewUsers_ok (hH : H.Honest)
    {missingKeys : List (Bytes × DecryptedEncKeyV2)} {users : List UserWithPubKey}
    (hproper : ∀ k ∈ H.handedMissing missingKeys, k.Proper)
    (howned : ∀ u ∈ users, ∃ owner, u.pubKey = H.C.toBase58DER (H.C.getPublicKey owner)) :
    ∃ sets, H.prepareMissingKeysForNewUsers missingKeys users = .ok sets ∧
      ∀ userId receiver, H.Owns users userId receiver →
        List.Forall₂ (H.Delivers receiver)
          (if userId ∈ users.map UserWithPubKey.userId then H.handedMissing missingKeys else [])
          (addressed userId sets) := by
  induction missingKeys with
  | nil =>
      refine ⟨[], rfl, fun userId receiver _ => ?_⟩
      split
      · exact .nil
      · exact .nil
  | cons t missingKeys ih =>
      by_cases ht : t.2.statusCode = 0
      · have hcons : H.handedMissing (t :: missingKeys) =
            ⟨t.2.id, t.2.key, (H.missingKeyDIO t.2).randomId⟩ :: H.handedMissing missingKeys := by
          rw [HandOver.handedMissing, List.filter_cons, if_pos (by simpa using ht)]
          rfl
        rw [hcons] at hproper ⊢
        obtain ⟨rest, hrest, haddressed⟩ := ih fun k hk => hproper k (List.mem_cons_of_mem _ hk)
        obtain ⟨sets, hsets, hfor⟩ :=
          hH.prepareKeysList_ok (hproper _ List.mem_cons_self) howned
        refine ⟨sets ++ rest, ?_, fun userId receiver howns => ?_⟩
        · refine HandOver.prepareMissingKeysForNewUsers_cons ?_ hrest
          rw [if_neg (not_not.mpr ht)]
          exact hsets
        · have hfirst := HandOver.addressed_of_forall₂ hfor howns
          have hothers := haddressed userId receiver howns
          rw [addressed_append]
          by_cases hmem : userId ∈ users.map UserWithPubKey.userId
          · rw [if_pos hmem] at hfirst hothers ⊢
            exact List.rel_append hfirst hothers
          · rw [if_neg hmem] at hfirst hothers ⊢
            exact List.rel_append hfirst hothers
      · have hskip : H.handedMissing (t :: missingKeys) = H.handedMissing missingKeys := by
          rw [HandOver.handedMissing, List.filter_cons, if_neg (by simpa using ht)]
          rfl
        rw [hskip] at hproper ⊢
        obtain ⟨rest, hrest, haddressed⟩ := ih hproper
        exact ⟨rest, HandOver.prepareMissingKeysForNewUsers_cons (if_pos ht) hrest, haddressed⟩

end Lists

/-! ## Reading the keys -/

section Reading

variable {H : HandOver} {receiver : H.C.PrivateKey} {ks : List HandedKey}
  {entries : List KeyEntry}

/-- Entries with distinct ids fill a map as they are. -/
theorem foldl_insertOrAssign {entries : List KeyEntry} (keys : List (Bytes × KeyEntry))
    (hdistinct : (entries.map KeyEntry.keyId).Nodup)
    (hnew : ∀ e ∈ entries, ∀ p ∈ keys, p.1 ≠ e.keyId) :
    entries.foldl (fun keys entry => insertOrAssign entry.keyId entry keys) keys =
      (entries.map fun e => (e.keyId, e)).reverse ++ keys := by
  induction entries generalizing keys with
  | nil => rfl
  | cons e entries ih =>
      obtain ⟨hnotin, hdistinct⟩ := List.nodup_cons.mp hdistinct
      have hinsert : insertOrAssign e.keyId e keys = (e.keyId, e) :: keys := by
        rw [insertOrAssign, List.filter_eq_self.mpr]
        intro p hp
        simpa using hnew e List.mem_cons_self p hp
      rw [List.foldl_cons, hinsert, ih _ hdistinct]
      · simp
      · intro e' he' p hp
        rcases List.mem_cons.mp hp with rfl | hp
        · intro heq
          rw [show e.keyId = e'.keyId from heq] at hnotin
          exact hnotin (List.mem_map_of_mem he')
        · exact hnew e' (List.mem_cons_of_mem _ he') p hp

/-- The request for the entries of a user. -/
theorem addAll_nil (hdistinct : (entries.map KeyEntry.keyId).Nodup) (location : EncKeyLocation) :
    KeyRequest.addAll [] entries location =
      [(location, (entries.map fun e => (e.keyId, e)).reverse)] := by
  have hfold := foldl_insertOrAssign [] hdistinct fun _ _ p hp => absurd hp List.not_mem_nil
  rw [List.append_nil] at hfold
  simp only [KeyRequest.addAll, KeyRequest.addEntries, List.lookup_nil, Option.getD_none, hfold]
  rfl

/-- A key as its receiver has read it. -/
structure HandOver.Reads (H : HandOver) (k : HandedKey) (key : DecryptedEncKeyV2) : Prop where
  id : key.id = k.id
  key_eq : key.key = k.key
  statusCode : key.statusCode = 0
  contextId : key.dio.contextId = H.dio.contextId
  resourceId : key.dio.resourceId = H.dio.resourceId
  randomId : key.dio.randomId = k.randomId
  secretHash :
    key.secretHash = H.C.hmacSha256 H.containerSecret (H.location.secretMessage key.keySecret)

/-- An entry that delivers a key decrypts to it. -/
theorem HandOver.Delivers.decryptEntry {k : HandedKey} {entry : KeyEntry}
    (h : H.Delivers receiver k entry) :
    ∃ key, KeyProvider.decryptEntry H.C receiver entry = .ok key ∧ H.Reads k key := by
  obtain ⟨-, encrypted, checksum, keySecret, hdata, hdecrypt⟩ := h
  refine ⟨EncKeyEncryptorV2.decrypt H.C encrypted receiver, ?_, ?_⟩
  · rw [KeyProvider.decryptEntry, hdata]
    rfl
  · rw [hdecrypt]
    exact ⟨rfl, rfl, rfl, rfl, rfl, rfl, rfl⟩

/-- Keys of the location with distinct random ids pass its checks as they are. -/
theorem HandOver.Honest.verify_eq (hH : H.Honest) {decrypted : List (Bytes × DecryptedEncKeyV2)}
    (hread : ∀ p ∈ decrypted, ∃ k ∈ ks, p.1 = k.id ∧ H.Reads k p.2)
    (hrandom : (ks.map HandedKey.randomId).Nodup) :
    (KeyProvider.verifyData decrypted H.location).map
      (markDuplicate (KeyProvider.verifyData decrypted H.location)) = decrypted := by
  have hlocation : KeyProvider.verifyData decrypted H.location = decrypted := by
    refine (List.map_congr_left fun p hp => ?_).trans (List.map_id decrypted)
    obtain ⟨k, -, -, hk⟩ := hread p hp
    have hplace : ¬ (p.2.dio.contextId ≠ H.location.contextId ∨
        p.2.dio.resourceId ≠ H.location.resourceId) := by
      rw [hk.contextId, hk.resourceId, hH.contextId, hH.resourceId]
      simp
    have hsame : p.2.verifyData H.location = p.2 := by
      rw [DecryptedEncKeyV2.verifyData, if_neg fun h => hplace h.2.2]
    simp only [hsame]
    rfl
  rw [hlocation]
  refine (List.map_congr_left fun p hp => ?_).trans (List.map_id decrypted)
  have hunique : ¬ Duplicate decrypted p := by
    rintro ⟨-, q, hq, hne, -, hnonce⟩
    obtain ⟨k, hk, hpk, hread_p⟩ := hread p hp
    obtain ⟨k', hk', hqk', hread_q⟩ := hread q hq
    have hid : k'.randomId = k.randomId := by
      rw [← hread_p.randomId, ← hread_q.randomId]
      exact congrArg Prod.fst hnonce
    have hkk : k' = k := List.inj_on_of_nodup_map hrandom hk' hk hid
    exact hne (by rw [hpk, hqk', hkk])
  rw [markDuplicate, if_neg hunique]
  rfl

/-- What a user has read: all the keys, with status zero, as they were handed
over, and their secrets belong to the container. -/
structure HandOver.Received (H : HandOver) (ks : List HandedKey)
    (keyMap : List (Bytes × DecryptedEncKeyV2)) : Prop where
  returned : ∀ k ∈ ks, ∃ key, (k.id, key) ∈ keyMap ∧ key.statusCode = 0 ∧ key.id = k.id ∧
    key.key = k.key
  length_eq : keyMap.length = ks.length
  status : ∀ p ∈ keyMap, p.2.statusCode = 0
  secret : KeyProvider.verifyKeysSecret H.C keyMap H.location H.containerSecret = true

/-- **Reading.**  A user to whom keys with distinct ids and distinct random ids
are delivered reads them all. -/
theorem HandOver.Honest.read_ok (hH : H.Honest) {entries' : List KeyEntry}
    (hdel : List.Forall₂ (H.Delivers receiver) ks entries) (hperm : entries'.Perm entries)
    (hids : (ks.map HandedKey.id).Nodup) (hrandom : (ks.map HandedKey.randomId).Nodup) :
    ∃ keyMap,
      KeyProvider.getKeysAndVerify H.C receiver (fun requests => some (requests.map fun _ => true))
          (KeyRequest.addAll [] entries' H.location) = .ok [(H.location, keyMap)] ∧
        H.Received ks keyMap := by
  have hkeyIds : entries.map KeyEntry.keyId = ks.map HandedKey.id := by
    clear hperm hids hrandom
    induction hdel with
    | nil => rfl
    | cons hke _ ih => rw [List.map_cons, List.map_cons, ih, hke.1]
  have hdistinct : (entries'.map KeyEntry.keyId).Nodup := by
    rw [(hperm.map KeyEntry.keyId).nodup_iff, hkeyIds]
    exact hids
  let keys := (entries'.map fun e => (e.keyId, e)).reverse
  have hmem : ∀ a, a ∈ keys ↔ a.1 = a.2.keyId ∧ a.2 ∈ entries := by
    intro a
    rw [List.mem_reverse, List.mem_map]
    constructor
    · rintro ⟨e, he, rfl⟩
      exact ⟨rfl, hperm.mem_iff.mp he⟩
    · rintro ⟨hid, he⟩
      exact ⟨a.2, hperm.mem_iff.mpr he, Prod.ext hid.symm rfl⟩
  have hkeys : DistinctKeys keys := by
    rw [DistinctKeys, List.map_reverse, List.nodup_reverse, List.map_map]
    exact hdistinct
  have hdecryptable : ∀ a ∈ keys, ∃ key, KeyProvider.decryptEntry H.C receiver a.2 = .ok key := by
    intro a ha
    obtain ⟨k, -, hk⟩ := mem_of_forall₂_right hdel ((hmem a).mp ha).2
    obtain ⟨key, hkey, -⟩ := hk.decryptEntry
    exact ⟨key, hkey⟩
  obtain ⟨decrypted, hdecrypted⟩ := KeyProvider.decryptEntries_ok hdecryptable
  have hall := KeyProvider.forall₂_of_decryptEntries hdecrypted
  have hread : ∀ p ∈ decrypted, ∃ k ∈ ks, p.1 = k.id ∧ H.Reads k p.2 := by
    intro p hp
    obtain ⟨a, ha, hap, hentry⟩ := mem_of_forall₂_right hall hp
    obtain ⟨haid, hae⟩ := (hmem a).mp ha
    obtain ⟨k, hk, hka⟩ := mem_of_forall₂_right hdel hae
    obtain ⟨key, hkey, hreads⟩ := hka.decryptEntry
    rw [hentry] at hkey
    cases hkey
    exact ⟨k, hk, by rw [← hap, haid, hka.1], hreads⟩
  have hresult : KeyProvider.decryptAndVerifyKeys H.C receiver keys H.location = .ok decrypted := by
    rw [KeyProvider.decryptAndVerifyKeys_eq hkeys hdecrypted, hH.verify_eq hread hrandom]
  have hlength : decrypted.length = ks.length := by
    rw [← hall.length_eq, List.length_reverse, List.length_map, hperm.length_eq, hdel.length_eq]
  refine ⟨decrypted, ?_, ?_, hlength, ?_, ?_⟩
  · rw [KeyProvider.getKeysAndVerify, addAll_nil hdistinct]
    simp only [KeyProvider.decryptLocations]
    rw [hresult]
    exact KeyProvider.verifyUserData_of_accepting _
  · intro k hk
    obtain ⟨e, he, hke⟩ := mem_of_forall₂_left hdel hk
    obtain ⟨p, hp, hap, hentry⟩ := mem_of_forall₂_left hall ((hmem (e.keyId, e)).mpr ⟨rfl, he⟩)
    obtain ⟨key, hkey, hreads⟩ := hke.decryptEntry
    rw [hentry] at hkey
    cases hkey
    refine ⟨p.2, ?_, hreads.statusCode, hreads.id, hreads.key_eq⟩
    rw [← hke.1, show e.keyId = p.1 from hap]
    exact hp
  · intro p hp
    obtain ⟨k, -, -, hk⟩ := hread p hp
    exact hk.statusCode
  · rw [KeyProvider.verifyKeysSecret, List.all_eq_true]
    intro p hp
    obtain ⟨k, -, -, hk⟩ := hread p hp
    simp [hk.statusCode, hk.secretHash]

end Reading

/-! ## The hand-over -/

/-- The new key and the existing keys of a hand-over. -/
def HandOver.handed (H : HandOver) (key : EncKey)
    (missingKeys : List (Bytes × DecryptedEncKeyV2)) : List HandedKey :=
  ⟨key.id, key.key, H.dio.randomId⟩ :: H.handedMissing missingKeys

/-- The keys of a hand-over that a user gets: the new key as one of `users`, and
the existing ones as one of `newUsers`. -/
def HandOver.handedTo (H : HandOver) (key : EncKey)
    (missingKeys : List (Bytes × DecryptedEncKeyV2)) (users newUsers : List UserWithPubKey)
    (userId : Bytes) : List HandedKey :=
  (if userId ∈ users.map UserWithPubKey.userId then [⟨key.id, key.key, H.dio.randomId⟩] else []) ++
    (if userId ∈ newUsers.map UserWithPubKey.userId then H.handedMissing missingKeys else [])

/-- A user is handed some of the keys. -/
theorem HandOver.handedTo_sublist (H : HandOver) (key : EncKey)
    (missingKeys : List (Bytes × DecryptedEncKeyV2)) (users newUsers : List UserWithPubKey)
    (userId : Bytes) :
    List.Sublist (H.handedTo key missingKeys users newUsers userId) (H.handed key missingKeys) := by
  show List.Sublist _ ([⟨key.id, key.key, H.dio.randomId⟩] ++ H.handedMissing missingKeys)
  refine List.Sublist.append ?_ ?_
  · split
    · exact List.Sublist.refl _
    · exact List.nil_sublist _
  · split
    · exact List.Sublist.refl _
    · exact List.nil_sublist _

/-- The keys that the member hands over: it has decrypted the existing ones
itself, their ids and bytes are there, and ids and random ids are distinct. -/
structure HandOver.Handable (H : HandOver) (key : EncKey)
    (missingKeys : List (Bytes × DecryptedEncKeyV2)) : Prop where
  decrypted : ∀ t ∈ missingKeys, t.2.statusCode = 0 →
    ∃ entry, KeyProvider.decryptEntry H.C H.privateKey entry = .ok t.2
  id_ne_nil : ∀ k ∈ H.handed key missingKeys, k.id ≠ []
  key_ne_nil : ∀ k ∈ H.handed key missingKeys, k.key ≠ []
  ids_nodup : ((H.handed key missingKeys).map HandedKey.id).Nodup
  generated : ∀ keyId, H.generateDIORandomId keyId ≠ []
  randomIds_nodup : ((H.handed key missingKeys).map HandedKey.randomId).Nodup

/-- A key that the member has decrypted itself gets a random id. -/
theorem HandOver.missingKeyDIO_randomId_ne_nil {H : HandOver} {key : DecryptedEncKeyV2}
    {entry : KeyEntry} (hentry : KeyProvider.decryptEntry H.C H.privateKey entry = .ok key)
    (hzero : key.statusCode = 0) (hgenerated : ∀ keyId, H.generateDIORandomId keyId ≠ []) :
    (H.missingKeyDIO key).randomId ≠ [] := by
  simp only [HandOver.missingKeyDIO]
  split
  · exact hgenerated key.id
  · rename_i hversion
    rcases KeyProvider.decryptEntry_cases hentry hzero with ⟨-, hone⟩ | ⟨encrypted, -, hkey⟩
    · exact absurd hone hversion
    · rw [hkey] at hzero ⊢
      exact (EncKeyEncryptorV2.ne_nil_of_decrypt hzero).2.1

/-- The keys that can be handed over are proper. -/
theorem HandOver.Handable.proper {H : HandOver} (hH : H.Honest) {key : EncKey}
    {missingKeys : List (Bytes × DecryptedEncKeyV2)} (h : H.Handable key missingKeys) :
    ∀ k ∈ H.handed key missingKeys, k.Proper := by
  intro k hk
  refine ⟨h.id_ne_nil k hk, h.key_ne_nil k hk, ?_⟩
  rcases List.mem_cons.mp hk with rfl | hk
  · exact hH.signable.randomId
  · obtain ⟨t, ht, rfl⟩ := List.mem_map.mp hk
    obtain ⟨htmem, hzero⟩ := List.mem_filter.mp ht
    have hzero : t.2.statusCode = 0 := by simpa using hzero
    obtain ⟨entry, hentry⟩ := h.decrypted t htmem hzero
    exact HandOver.missingKeyDIO_randomId_ne_nil hentry hzero h.generated

/-- **The round trip.**  An honest member hands over a new key to users and the
keys it has decrypted itself to new users.  Both calls succeed, and each user
who reads the entries addressed to it, in any order, gets all of its keys with
status zero and as they were, and their secrets belong to the container. -/
theorem KeyProvider.handOver_roundTrip (H : HandOver) (hH : H.Honest) (key : EncKey)
    (missingKeys : List (Bytes × DecryptedEncKeyV2)) (hkeys : H.Handable key missingKeys)
    (users newUsers : List UserWithPubKey) (husers : (users.map UserWithPubKey.userId).Nodup)
    (hnewUsers : (newUsers.map UserWithPubKey.userId).Nodup)
    (howned : ∀ u ∈ users ++ newUsers, ∃ owner,
      u.pubKey = H.C.toBase58DER (H.C.getPublicKey owner)) :
    ∃ sets missingSets, H.prepareKeysList users key H.dio = .ok sets ∧
      H.prepareMissingKeysForNewUsers missingKeys newUsers = .ok missingSets ∧
        ∀ userId receiver,
          (∀ u ∈ users ++ newUsers, u.userId = userId →
            u.pubKey = H.C.toBase58DER (H.C.getPublicKey receiver)) →
          ∀ entries : List KeyEntry,
            entries.Perm (addressed userId sets ++ addressed userId missingSets) →
            ∃ keyMap,
              KeyProvider.getKeysAndVerify H.C receiver
                  (fun requests => some (requests.map fun _ => true))
                  (KeyRequest.addAll [] entries H.location) = .ok [(H.location, keyMap)] ∧
                H.Received (H.handedTo key missingKeys users newUsers userId) keyMap := by
  have hproper := hkeys.proper hH
  obtain ⟨sets, hsets, hfor⟩ := hH.prepareKeysList_ok (hproper _ List.mem_cons_self)
    fun u hu => howned u (List.mem_append_left _ hu)
  obtain ⟨missingSets, hmissingSets, haddressed⟩ := hH.prepareMissingKeysForNewUsers_ok
    (fun k hk => hproper k (List.mem_cons_of_mem _ hk))
    fun u hu => howned u (List.mem_append_right _ hu)
  refine ⟨sets, missingSets, hsets, hmissingSets, ?_⟩
  intro userId receiver hreceiver entries hperm
  have hnew : H.Owns users userId receiver :=
    ⟨husers, fun u hu => hreceiver u (List.mem_append_left _ hu)⟩
  have hexisting : H.Owns newUsers userId receiver :=
    ⟨hnewUsers, fun u hu => hreceiver u (List.mem_append_right _ hu)⟩
  have hdelivered := List.rel_append (HandOver.addressed_of_forall₂ hfor hnew)
    (haddressed userId receiver hexisting)
  have hsub := H.handedTo_sublist key missingKeys users newUsers userId
  exact hH.read_ok hdelivered hperm ((hsub.map _).nodup hkeys.ids_nodup)
    ((hsub.map _).nodup hkeys.randomIds_nodup)

/-! ## A container of two users -/

/-- User 2 hands over keys of the container. -/
def sampleHandOver : HandOver where
  C := sampleKeyCrypto
  privateKey := (2 : UInt8)
  generateSecret userId keyId := userId ++ keyId
  generateDIORandomId keyId := 0 :: keyId
  dio := (sampleKeyToEncrypt [99]).dio
  location := sampleLocation
  containerSecret := [5]

/-- The sample side is an honest one. -/
theorem sampleHandOver_honest : sampleHandOver.Honest where
  lawful := sampleKeyCrypto_lawful
  signable := ⟨rfl, List.cons_ne_nil _ _, List.cons_ne_nil _ _, List.cons_ne_nil _ _, _, rfl⟩
  contextId := rfl
  resourceId := rfl

/-- A key of version 1 that user 2 has. -/
def sampleLegacyKey : DecryptedEncKeyV2 :=
  { DecryptedEncKeyV2.blank 1 0 with id := [97], key := [6] }

/-- A new key, one of version 1 and one of version 2. -/
theorem KeyProvider.handOver_roundTrip_sample :
    ∃ encrypted,
      EncKeyEncryptorV2.encrypt sampleKeyCrypto (sampleKeyToEncrypt [98]) (2 : UInt8) (2 : UInt8) =
          .ok encrypted ∧
        ∃ sets missingSets,
          sampleHandOver.prepareKeysList [⟨[49], [1]⟩, ⟨[50], [2]⟩] ⟨[99], [7]⟩ sampleHandOver.dio =
              .ok sets ∧
            sampleHandOver.prepareMissingKeysForNewUsers
                [([97], sampleLegacyKey),
                  ([98], EncKeyEncryptorV2.decrypt sampleKeyCrypto encrypted (2 : UInt8))]
                [⟨[49], [1]⟩] = .ok missingSets ∧
            ∃ keyMap,
              KeyProvider.getKeysAndVerify sampleKeyCrypto (1 : UInt8)
                  (fun requests => some (requests.map fun _ => true))
                  (KeyRequest.addAll [] (addressed [49] sets ++ addressed [49] missingSets)
                    sampleLocation) = .ok [(sampleLocation, keyMap)] ∧
                sampleHandOver.Received
                  [⟨[99], [7], [99]⟩, ⟨[97], [6], [0, 97]⟩, ⟨[98], [98], [98]⟩] keyMap := by
  have hdio : (sampleKeyToEncrypt [98]).dio.SignableBy sampleKeyCrypto (2 : UInt8) :=
    ⟨rfl, List.cons_ne_nil _ _, List.cons_ne_nil _ _, List.cons_ne_nil _ _, _, rfl⟩
  obtain ⟨encrypted, checksum, hencrypt, -, hdecrypt⟩ :=
    EncKeyEncryptorV2.decrypt_encrypt sampleKeyCrypto_lawful (2 : UInt8) _ hdio
      (List.cons_ne_nil _ _) (List.cons_ne_nil _ _)
  have hhanded : sampleHandOver.handed ⟨[99], [7]⟩
      [([97], sampleLegacyKey),
        ([98], EncKeyEncryptorV2.decrypt sampleKeyCrypto encrypted (2 : UInt8))] =
      [⟨[99], [7], [99]⟩, ⟨[97], [6], [0, 97]⟩, ⟨[98], [98], [98]⟩] := by
    rw [hdecrypt]
    rfl
  have hkeys : sampleHandOver.Handable ⟨[99], [7]⟩
      [([97], sampleLegacyKey),
        ([98], EncKeyEncryptorV2.decrypt sampleKeyCrypto encrypted (2 : UInt8))] :=
    { decrypted := by
        intro t ht _
        rcases List.mem_cons.mp ht with rfl | ht
        · exact ⟨⟨[97], .string [2, 2, 6]⟩, rfl⟩
        · rw [List.mem_singleton.mp ht]
          exact ⟨⟨[98], .object (.ok 2) (.ok encrypted)⟩, rfl⟩
      id_ne_nil := by rw [hhanded]; decide
      key_ne_nil := by rw [hhanded]; decide
      ids_nodup := by rw [hhanded]; decide
      generated := fun _ => List.cons_ne_nil _ _
      randomIds_nodup := by rw [hhanded]; decide }
  obtain ⟨sets, missingSets, hsets, hmissingSets, hread⟩ :=
    KeyProvider.handOver_roundTrip sampleHandOver sampleHandOver_honest _ _ hkeys
      [⟨[49], [1]⟩, ⟨[50], [2]⟩] [⟨[49], [1]⟩] (by decide) (by decide)
      (by
        intro u hu
        fin_cases hu
        · exact ⟨(1 : UInt8), rfl⟩
        · exact ⟨(2 : UInt8), rfl⟩
        · exact ⟨(1 : UInt8), rfl⟩)
  refine ⟨encrypted, hencrypt, sets, missingSets, hsets, hmissingSets, ?_⟩
  obtain ⟨keyMap, hget, hreceived⟩ := hread [49] (1 : UInt8)
    (by
      intro u hu huser
      fin_cases hu
      · rfl
      · exact absurd huser (by decide)
      · rfl)
    _ (List.Perm.refl _)
  refine ⟨keyMap, hget, ?_⟩
  rw [← hhanded]
  exact hreceived

/-- An object with another member's key is not signed, and a key without bytes
reaches the user as malformed. -/
theorem KeyProvider.handOver_refused :
    HandOver.prepareKeysList
        { sampleHandOver with dio := { sampleHandOver.dio with creatorPubKey := [1] } }
        [⟨[49], [1]⟩] ⟨[99], [7]⟩ { sampleHandOver.dio with creatorPubKey := [1] } =
          .error (.core dataIntegrityObjectMismatchEncKey) ∧
      sampleHandOver.Honest ∧
      ∃ sets,
        sampleHandOver.prepareKeysList [⟨[49], [1]⟩] ⟨[99], []⟩ sampleHandOver.dio = .ok sets ∧
          ¬ ∃ keyMap,
            KeyProvider.getKeysAndVerify sampleKeyCrypto (1 : UInt8)
                (fun requests => some (requests.map fun _ => true))
                (KeyRequest.addAll [] (addressed [49] sets) sampleLocation) =
              .ok [(sampleLocation, keyMap)] ∧
              sampleHandOver.Received [⟨[99], [], [99]⟩] keyMap := by
  refine ⟨rfl, sampleHandOver_honest, ?_⟩
  obtain ⟨encrypted, hencrypt, hversion, hstatus⟩ :=
    EncKeyEncryptorV2.decrypt_encrypt_of_empty sampleKeyCrypto_lawful (1 : UInt8)
      { id := [99]
        key := []
        dio := sampleHandOver.dio
        keySecret := [49, 99]
        secretHash := [5] ++ sampleLocation.secretMessage [49, 99] }
      sampleHandOver_honest.signable rfl
  refine ⟨[⟨[49], [99], .object (.ok encrypted.version) (.ok encrypted)⟩], ?_, ?_⟩
  · have hset : sampleHandOver.createKeyEntrySet ⟨[49], [1]⟩ ⟨[99], []⟩ sampleHandOver.dio =
        .ok ⟨[49], [99], .object (.ok encrypted.version) (.ok encrypted)⟩ := by
      simp only [HandOver.createKeyEntrySet,
        show sampleHandOver.C.fromBase58DER [1] = .ok (1 : UInt8) from rfl]
      erw [hencrypt]
    simp only [HandOver.prepareKeysList, collect, hset]
  · rintro ⟨keyMap, hget, hreceived⟩
    obtain ⟨key, hmem, hzero, -⟩ := hreceived.returned _ List.mem_cons_self
    have hkeyed := (KeyRequest.Built.addAll (addressed [49]
      [⟨[49], [99], .object (.ok encrypted.version) (.ok encrypted)⟩]) sampleLocation
      .empty).wellKeyed
    obtain ⟨-, l, hl, -, a, ha, ⟨-, hentry⟩, -⟩ :=
      KeyProvider.passes_of_getKeysAndVerify hkeyed hget List.mem_cons_self hmem hzero
    rw [List.mem_singleton.mp hl] at ha
    rw [List.mem_singleton.mp ha, hversion] at hentry
    have hkey : EncKeyEncryptorV2.decrypt sampleKeyCrypto encrypted (1 : UInt8) = key :=
      Except.ok.inj hentry
    rw [hkey, hzero] at hstatus
    exact malformedEncryptionKey.2 hstatus.symm

end PrivmxEndpoint
