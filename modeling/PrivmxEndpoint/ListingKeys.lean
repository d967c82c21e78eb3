import PrivmxEndpoint.ContainerKeyCache
import PrivmxEndpoint.KeyRequests
import PrivmxEndpoint.SignedItems

/-!
# The keys of a listing

A listing asks the key provider once, for the keys of all its items.  The status
that a key comes back with depends on its own entry, on the verdict for it, and
on the other keys that were asked for: those that share its random id and
timestamp make a duplicate of it (`ModuleBaseApi.ModuleKeys.keyMap_judging`).

The verifier here judges each request by itself, so that two listings get the
same verdicts where they make the same requests.
-/

namespace PrivmxEndpoint

open KeyRequest KeyProvider

/-- A verifier that judges each request by itself. -/
def UserVerifierInterface.judging (judge : VerificationRequest → Bool) : UserVerifierInterface :=
  fun requests => some (requests.map judge)

theorem UserVerifier.verify_judging (judge : VerificationRequest → Bool)
    (requests : List VerificationRequest) :
    UserVerifier.verify (UserVerifierInterface.judging judge) requests =
      .ok (requests.map judge) := by
  simp [UserVerifier.verify, UserVerifierInterface.judging]

namespace DecryptedEncKeyV2

/-- What the decryption of an item reads of a key. -/
def itemKey (key : DecryptedEncKeyV2) : ItemKey :=
  ⟨key.key, key.statusCode⟩

/-- A key after the verdict for it, if it is asked for. -/
def judged (judge : VerificationRequest → Bool) (key : DecryptedEncKeyV2) : DecryptedEncKeyV2 :=
  if key.verified ∧ judge key.verificationRequest = false then
    { key with statusCode := userVerificationFailure.1 }
  else
    key

theorem judged_of_not_verified {key : DecryptedEncKeyV2} (h : ¬ key.verified)
    (judge : VerificationRequest → Bool) : key.judged judge = key :=
  if_neg fun hrefused => h hrefused.1

theorem judged_of_accepted {key : DecryptedEncKeyV2} {judge : VerificationRequest → Bool}
    (h : key.verified → judge key.verificationRequest = true) : key.judged judge = key := by
  refine if_neg fun hrefused => ?_
  rw [h hrefused.1] at hrefused
  exact Bool.noConfusion hrefused.2

/-- A verdict does not change the key itself. -/
theorem key_judged (judge : VerificationRequest → Bool) (key : DecryptedEncKeyV2) :
    (key.judged judge).key = key.key := by
  unfold judged
  split
  · rfl
  · rfl

/-- A key of status zero was not refused. -/
theorem judged_eq_of_zero {key : DecryptedEncKeyV2} {judge : VerificationRequest → Bool}
    (h : (key.judged judge).statusCode = 0) : key.judged judge = key := by
  unfold judged at h ⊢
  split at h
  · exact absurd h userVerificationFailure.2
  · rename_i hkept
    rw [if_neg hkept]

/-- A duplicate is not shown to the verifier. -/
theorem judged_duplicated (judge : VerificationRequest → Bool) (key : DecryptedEncKeyV2) :
    key.duplicated.judged judge = key.duplicated :=
  judged_of_not_verified (fun h => dataIntegrityObjectDuplicated.2 h.1) judge

end DecryptedEncKeyV2

/-- The verdicts of a verifier that judges each key by itself. -/
theorem KeyProvider.verifyUserData_judging {keys : KeyMaps} (hkeys : DistinctKeys keys)
    (hids : ∀ m ∈ keys, DistinctKeys m.2) (judge : VerificationRequest → Bool) :
    verifyUserData (.judging judge) keys =
      .ok (keys.map fun m => (m.1, m.2.map fun p => (p.1, p.2.judged judge))) := by
  unfold verifyUserData
  simp only [UserVerifier.verify_judging]
  refine congrArg Except.ok ((foldl_setStatus _ _ keys).trans ?_)
  rw [List.map_map, List.zip_map']
  refine List.map_congr_left fun m hm => Prod.ext rfl ?_
  refine List.map_congr_left fun p hp => Prod.ext rfl ?_
  have hrefused : ((m.1, p.1), false) ∈ (verificationRequests keys).map
      (fun r => (r.1, (judge ∘ Prod.snd) r)) ↔
        p.2.verified ∧ judge p.2.verificationRequest = false := by
    rw [List.mem_map]
    constructor
    · intro h
      obtain ⟨r, hr, heq⟩ := h
      obtain ⟨m', hm', hr⟩ := List.mem_flatMap.mp hr
      obtain ⟨p', hp', rfl⟩ := List.mem_map.mp hr
      obtain ⟨hat, hverdict⟩ := Prod.mk.inj heq
      obtain ⟨hlocation, hid⟩ := Prod.mk.inj hat
      obtain ⟨hp', hverified⟩ := List.mem_filter.mp hp'
      obtain rfl := List.inj_on_of_nodup_map hkeys hm' hm hlocation
      obtain rfl := List.inj_on_of_nodup_map (hids m' hm') hp' hp hid
      exact ⟨of_decide_eq_true hverified, hverdict⟩
    · intro h
      refine ⟨((m.1, p.1), p.2.verificationRequest), ?_, Prod.ext rfl h.2⟩
      exact List.mem_flatMap.mpr ⟨m, hm, List.mem_map.mpr
        ⟨p, List.mem_filter.mpr ⟨hp, decide_eq_true h.1⟩, rfl⟩⟩
  simp only [hrefused]
  rfl

namespace ModuleBaseApi.ModuleKeys

/-- The `location` of a listing. -/
def location (storeKeys : ModuleKeys) : EncKeyLocation :=
  ⟨storeKeys.contextId, storeKeys.moduleResourceId⟩

/-- The key provider's request of a listing. -/
def keyProviderRequest (storeKeys : ModuleKeys) (keyIds : List Bytes) : KeyRequest :=
  KeyRequest.addMany [] storeKeys.keys keyIds storeKeys.location

variable (C : KeyCrypto) (privateKey : C.PrivateKey)

/-- `_keyProvider->getKeysAndVerify(keyProviderRequest).at(location)`. -/
def keyMap (storeKeys : ModuleKeys) (userVerifier : UserVerifierInterface)
    (keyIds : List Bytes) : Except EndpointException (List (Bytes × ItemKey)) := do
  let keys ← getKeysAndVerify C privateKey userVerifier (storeKeys.keyProviderRequest keyIds)
  let keyMap ← mapAt storeKeys.location keys
  return keyMap.map fun p => (p.1, p.2.itemKey)

/-- The key that the entry of a key id holds: decrypted, and compared with the
location. -/
def ownKey (storeKeys : ModuleKeys) (keyId : Bytes) :
    Except EndpointException DecryptedEncKeyV2 :=
  (decryptEntry C privateKey (KeyAddition.entryOf storeKeys.keys keyId)).map
    (·.verifyData storeKeys.location)

/-- Another one of these key ids has a key with the random id and the timestamp
of this one, and both are compared. -/
def SharesNonce (storeKeys : ModuleKeys) (keyIds : List Bytes) (keyId : Bytes)
    (key : DecryptedEncKeyV2) : Prop :=
  key.compared ∧ ∃ other ∈ keyIds, other ≠ keyId ∧ ∃ otherKey,
    storeKeys.ownKey C privateKey other = .ok otherKey ∧ otherKey.compared ∧
      otherKey.nonce = key.nonce

variable {C privateKey} {storeKeys : ModuleKeys} {keyIds : List Bytes}

theorem ownKey_eq_ok_iff {keyId : Bytes} {key : DecryptedEncKeyV2} :
    storeKeys.ownKey C privateKey keyId = .ok key ↔
      ∃ decrypted, decryptEntry C privateKey (KeyAddition.entryOf storeKeys.keys keyId) =
        .ok decrypted ∧ decrypted.verifyData storeKeys.location = key := by
  unfold ownKey
  cases decryptEntry C privateKey (KeyAddition.entryOf storeKeys.keys keyId) with
  | error e => simp [Except.map]
  | ok decrypted => simp [Except.map]

/-- A key that is compared with others is shown to the verifier: a key of version
1 has no creator. -/
theorem verified_of_compared {keyId : Bytes} {key : DecryptedEncKeyV2}
    (hkey : storeKeys.ownKey C privateKey keyId = .ok key) (h : key.compared) :
    key.verified := by
  obtain ⟨decrypted, hdecrypted, rfl⟩ := ownKey_eq_ok_iff.mp hkey
  have hsame : decrypted.verifyData storeKeys.location = decrypted := by
    unfold DecryptedEncKeyV2.verifyData at h ⊢
    split at h
    · exact absurd h.1 encryptionKeyContainerValidation.2
    · rename_i hchecked
      rw [if_neg hchecked]
  rw [hsame] at h ⊢
  refine ⟨h.1, ?_⟩
  cases hdata : (KeyAddition.entryOf storeKeys.keys keyId).data with
  | object version encrypted =>
      simp only [decryptEntry, hdata] at hdecrypted
      cases version with
      | error e =>
          obtain rfl := Except.ok.inj hdecrypted
          exact absurd rfl h.2
      | ok version =>
          dsimp only at hdecrypted
          split at hdecrypted
          · cases encrypted with
            | error e => cases hdecrypted
            | ok encrypted =>
                obtain rfl := Except.ok.inj hdecrypted
                exact (EncKeyEncryptorV2.ne_nil_of_decrypt h.1).2.2
          · obtain rfl := Except.ok.inj hdecrypted
            exact absurd rfl h.2
  | string cipher =>
      simp only [decryptEntry, hdata] at hdecrypted
      cases hplain : EncKeyEncryptorV1.decrypt C cipher privateKey with
      | error e =>
          rw [hplain] at hdecrypted
          cases hdecrypted
      | ok plain =>
          rw [hplain] at hdecrypted
          obtain rfl := Except.ok.inj hdecrypted
          exact absurd rfl h.2
  | empty =>
      simp only [decryptEntry, hdata] at hdecrypted
      obtain rfl := Except.ok.inj hdecrypted
      exact absurd rfl h.2

/-- The request has the entry of each key id that is asked for. -/
theorem keyProviderRequest_spec (storeKeys : ModuleKeys) (keyIds : List Bytes) :
    ∃ entries, storeKeys.keyProviderRequest keyIds = [(storeKeys.location, entries)] ∧
      WellKeyed entries ∧ ∀ p, p ∈ entries ↔
        p.1 ∈ keyIds ∧ p.2 = KeyAddition.entryOf storeKeys.keys p.1 := by
  have hbuilt : KeyRequest.BuiltBy [.many storeKeys.keys keyIds storeKeys.location]
      (storeKeys.keyProviderRequest keyIds) :=
    .add (.many storeKeys.keys keyIds storeKeys.location) .empty
  obtain ⟨entries, hentries⟩ : ∃ entries,
      storeKeys.keyProviderRequest keyIds = [(storeKeys.location, entries)] := ⟨_, rfl⟩
  have hkeyed : WellKeyed entries :=
    hbuilt.built.wellKeyed (storeKeys.location, entries) (by rw [hentries]; simp)
  refine ⟨entries, hentries, hkeyed, fun p => ?_⟩
  have hlookup : entries.lookup p.1 =
      if p.1 ∈ keyIds then some (KeyAddition.entryOf storeKeys.keys p.1) else none := by
    have hcontent := hbuilt.contentAt_eq storeKeys.location p.1
    simp only [hentries, KeyRequest.contentAt, List.lookup_cons, beq_self_eq_true,
      Option.bind_some, KeyRequest.lastContent, List.foldl_cons, List.foldl_nil,
      KeyAddition.location, if_true, KeyAddition.content, Option.or_none] at hcontent
    exact hcontent
  constructor
  · intro hp
    rw [lookup_of_mem hkeyed.distinct hp] at hlookup
    split at hlookup
    · rename_i hid
      exact ⟨hid, Option.some.inj hlookup⟩
    · cases hlookup
  · intro hp
    rw [if_pos hp.1, ← hp.2] at hlookup
    exact mem_of_lookup hlookup

/-- A key is a duplicate among the entries of the request. -/
theorem duplicatedAmong_iff {entries : List (Bytes × KeyEntry)}
    (hentries : ∀ p, p ∈ entries ↔ p.1 ∈ keyIds ∧ p.2 = KeyAddition.entryOf storeKeys.keys p.1)
    (keyId : Bytes) (decrypted : DecryptedEncKeyV2) :
    DuplicatedAmong C privateKey entries storeKeys.location keyId decrypted ↔
      storeKeys.SharesNonce C privateKey keyIds keyId
        (decrypted.verifyData storeKeys.location) := by
  refine and_congr_right fun _ => ?_
  constructor
  · intro h
    obtain ⟨b, hb, hne, other, hother, hcompared, hnonce⟩ := h
    obtain ⟨hid, hentry⟩ := (hentries b).mp hb
    rw [hentry] at hother
    exact ⟨b.1, hid, hne, _, ownKey_eq_ok_iff.mpr ⟨other, hother, rfl⟩, hcompared, hnonce⟩
  · intro h
    obtain ⟨other, hid, hne, otherKey, hother, hcompared, hnonce⟩ := h
    obtain ⟨decrypted', hdecrypted', rfl⟩ := ownKey_eq_ok_iff.mp hother
    exact ⟨(other, KeyAddition.entryOf storeKeys.keys other), (hentries _).mpr ⟨hid, rfl⟩, hne,
      decrypted', hdecrypted', hcompared, hnonce⟩

/-- **The keys of a listing.**  If every entry that is asked for decrypts, each
key comes back as its own entry holds it, after its verdict, or as a duplicate if
it shares its random id and timestamp with another one. -/
theorem keyMap_judging (hkeys : ∀ keyId ∈ keyIds, ∃ key,
      storeKeys.ownKey C privateKey keyId = .ok key) (judge : VerificationRequest → Bool) :
    ∃ keys, storeKeys.keyMap C privateKey (.judging judge) keyIds = .ok keys ∧
      ∀ keyId ∈ keyIds, ∀ key, storeKeys.ownKey C privateKey keyId = .ok key →
        ∃ found : DecryptedEncKeyV2, keyAt keys keyId = .ok found.itemKey ∧
          (storeKeys.SharesNonce C privateKey keyIds keyId key → found = key.duplicated) ∧
          (¬ storeKeys.SharesNonce C privateKey keyIds keyId key → found = key.judged judge) := by
  obtain ⟨entries, hrequest, hkeyed, hentries⟩ := keyProviderRequest_spec storeKeys keyIds
  have hdecryptable : KeyRequest.Decryptable C privateKey [(storeKeys.location, entries)] := by
    intro l hl a ha
    rw [List.mem_singleton.mp hl] at ha
    obtain ⟨hid, hentry⟩ := (hentries a).mp ha
    obtain ⟨key, hkey⟩ := hkeys a.1 hid
    obtain ⟨decrypted, hdecrypted, -⟩ := ownKey_eq_ok_iff.mp hkey
    exact ⟨decrypted, hentry ▸ hdecrypted⟩
  obtain ⟨result, hresult⟩ := decryptLocations_ok hdecryptable
  obtain ⟨checked, rfl, hdecrypt⟩ : ∃ checked, result = [(storeKeys.location, checked)] ∧
      decryptAndVerifyKeys C privateKey entries storeKeys.location = .ok checked := by
    cases forall₂_of_decryptLocations hresult with
    | @cons _ m _ _ hm hrest =>
        cases hrest
        exact ⟨m.2, congrArg (fun m => [m]) (Prod.ext hm.1.symm rfl), hm.2⟩
  have hchecked := forall₂_checked hkeyed.distinct hdecrypt
  have hdistinct : DistinctKeys checked := by
    rw [DistinctKeys, ← map_fst_of_forall₂ hchecked fun _ _ hp => hp.1]
    exact hkeyed.distinct
  have hlocations : DistinctKeys [(storeKeys.location, checked)] := List.nodup_singleton _
  have hverdicts : verifyUserData (.judging judge) [(storeKeys.location, checked)] =
      .ok [(storeKeys.location, checked.map fun p => (p.1, p.2.judged judge))] :=
    verifyUserData_judging hlocations (fun m hm => List.mem_singleton.mp hm ▸ hdistinct) judge
  refine ⟨checked.map fun p => (p.1, (p.2.judged judge).itemKey), ?_, ?_⟩
  · unfold keyMap getKeysAndVerify
    rw [hrequest, hresult]
    dsimp only
    rw [hverdicts]
    simp [mapAt, bind, Except.bind, pure, Except.pure]
  · intro keyId hid key hkey
    obtain ⟨p, hp, hpid, decrypted, hdecrypted, hduplicated, hsingle⟩ :=
      mem_of_forall₂_left hchecked
        ((hentries (keyId, KeyAddition.entryOf storeKeys.keys keyId)).mpr ⟨hid, rfl⟩)
    obtain ⟨decrypted', hdecrypted', rfl⟩ := ownKey_eq_ok_iff.mp hkey
    obtain rfl := Except.ok.inj (hdecrypted.symm.trans hdecrypted')
    rw [duplicatedAmong_iff hentries] at hduplicated hsingle
    refine ⟨p.2.judged judge, ?_, fun hshares => ?_, fun hown => ?_⟩
    · have hlookup : (checked.map fun p => (p.1, (p.2.judged judge).itemKey)).lookup keyId =
          some (p.2.judged judge).itemKey := by
        refine lookup_of_mem ?_ (List.mem_map.mpr ⟨p, hp, Prod.ext hpid.symm rfl⟩)
        rw [DistinctKeys, List.map_map]
        exact hdistinct
      rw [keyAt, hlookup]
    · rw [hduplicated hshares, DecryptedEncKeyV2.judged_duplicated]
    · rw [hsingle hown]

/-- Whatever the verifier answers, a map that is returned has a key for each id
that was asked for, and every entry decrypts. -/
theorem of_keyMap {userVerifier : UserVerifierInterface} {keys : List (Bytes × ItemKey)}
    (h : storeKeys.keyMap C privateKey userVerifier keyIds = .ok keys) {keyId : Bytes}
    (hid : keyId ∈ keyIds) :
    (∃ key, storeKeys.ownKey C privateKey keyId = .ok key) ∧
      ∃ key, keyAt keys keyId = .ok key := by
  obtain ⟨entries, hrequest, hkeyed, hentries⟩ := keyProviderRequest_spec storeKeys keyIds
  obtain ⟨result, hresult, h⟩ := Throwing.bind_eq_ok h
  obtain ⟨found, hfound, h⟩ := Throwing.bind_eq_ok h
  obtain rfl := Except.ok.inj h
  rw [hrequest] at hresult
  have hentry : (keyId, KeyAddition.entryOf storeKeys.keys keyId) ∈ entries :=
    (hentries _).mpr ⟨hid, rfl⟩
  constructor
  · unfold getKeysAndVerify at hresult
    split at hresult
    · cases hresult
    · rename_i checked hchecked
      obtain ⟨decrypted, hdecrypted⟩ :=
        KeyRequest.decryptable_of_ok hchecked _ (List.mem_singleton.mpr rfl) _ hentry
      exact ⟨_, ownKey_eq_ok_iff.mpr ⟨decrypted, hdecrypted, rfl⟩⟩
  · have hlocations : DistinctKeys [(storeKeys.location, entries)] := List.nodup_singleton _
    have hcomplete := complete_of_ok hlocations
      (fun l hl => List.mem_singleton.mp hl ▸ hkeyed) hresult
    have hids := hcomplete.requested storeKeys.location
    unfold mapAt at hfound
    split at hfound
    · rename_i found' hlookup
      obtain rfl := Except.ok.inj hfound
      rw [hlookup] at hids
      simp only [Option.map_some, List.lookup_cons, beq_self_eq_true, Option.some.injEq] at hids
      obtain ⟨p, hp, hpid⟩ : ∃ p ∈ found', p.1 = keyId := by
        refine List.mem_map.mp ?_
        rw [hids]
        exact List.mem_map_of_mem hentry
      have hdistinct : DistinctKeys (found'.map fun p => (p.1, p.2.itemKey)) := by
        rw [DistinctKeys, List.map_map]
        exact hcomplete.keyIds _ (mem_of_lookup hlookup)
      have hlookup' := lookup_of_mem hdistinct
        (List.mem_map.mpr ⟨p, hp, Prod.ext hpid rfl⟩ : (keyId, p.2.itemKey) ∈ _)
      exact ⟨p.2.itemKey, by rw [keyAt, hlookup']⟩
    · cases hfound

end ModuleBaseApi.ModuleKeys

end PrivmxEndpoint
