import PrivmxEndpoint.ListingKeys

/-!
# The items of a listing, with their keys

What a listing gives an item depends on the item, on the entry of its key and on
three things that come from the others: the texts of the objects before it, the
object at its index, and the keys that were asked for together with its own
(`ItemModule.list_at`).  Alone nothing of this is there
(`ItemModule.list_alone`).

The two agree, whatever the verdicts, exactly if no item is disturbed by the
others (`ItemModule.noFalseDuplicates_iff`).
-/

namespace PrivmxEndpoint

open KeyRequest KeyProvider

variable {ι κ : Type}

/-! ## What a listing returns -/

section Listed

variable {K : ItemKind ι κ} {items : List ι} {contextId : Bytes}

/-- The same with a verifier that judges each request by itself. -/
theorem ItemKind.listed_judged {judge : VerificationRequest → Bool} {result : List (LibItem κ)}
    (hitems : K.Handles items)
    (h : K.validateDecryptAndConvert contextId (.judging judge) items = .ok result) (i : ℕ)
    (x : LibItem κ) (hx : (K.results [] items)[i]? = some x) :
    ∃ y, result[i]? = some y ∧ (x.statusCode ≠ 0 → y = x) ∧
      (x.statusCode = 0 → ∃ found, (items.filterMap K.dio)[i]? = some found ∧
        y = x.withVerdict (judge (x.verificationRequest contextId found.bridgeIdentity))) := by
  obtain ⟨requests, verified, hverify, hall⟩ := ItemKind.listed_spec hitems h
  rw [UserVerifier.verify_judging] at hverify
  obtain rfl := Except.ok.inj hverify
  obtain ⟨y, hy, hkept, hjudged⟩ := hall i x hx
  refine ⟨y, hy, hkept, fun hzero => ?_⟩
  obtain ⟨found, verdict, hfound, hrequest, hverdict, rfl⟩ := hjudged hzero
  rw [List.getElem?_map, hrequest, Option.map_some] at hverdict
  exact ⟨found, hfound, by rw [Option.some.inj hverdict]⟩

/-- A listing returns if every result of status zero finds an object at its
index. -/
theorem ItemKind.exists_listed {judge : VerificationRequest → Bool} (hitems : K.Handles items)
    (h : ∀ (i : ℕ) (x : LibItem κ), (K.results [] items)[i]? = some x → x.statusCode = 0 →
      ∃ found, (items.filterMap K.dio)[i]? = some found) :
    ∃ result, K.validateDecryptAndConvert contextId (.judging judge) items = .ok result := by
  obtain ⟨requests, hrequests⟩ := verifierInput_ok contextId (items.filterMap K.dio)
    (K.results [] items) 0 (fun i x hx hzero => by
      rw [Nat.zero_add]
      exact h i x hx hzero)
  obtain ⟨written, hwritten, -⟩ := writeVerdicts_spec (requests.map judge) (K.results [] items) 0
    (by rw [List.length_map, (verifierInput_spec hrequests).1, Nat.zero_add])
  refine ⟨written, ?_⟩
  rw [K.validateDecryptAndConvert_eq hitems, hrequests]
  simp only [UserVerifier.verify_judging, hwritten]

end Listed

/-! ## Next to others and alone -/

/-- The status of an item before its verification. -/
def ItemKind.status (K : ItemKind ι κ) (item : ι) : ℕ :=
  match K.outcome item with
  | .error code => code.1
  | .ok (x, _) => x.statusCode

/-- A decrypted item before this one has the same text of random id and
timestamp. -/
def ItemKind.Repeats (K : ItemKind ι κ) (items : List ι) (i : ℕ) (item : ι) : Prop :=
  ∃ dio, K.dio item = some dio ∧ dio.fullRandomId ∈ K.fullRandomIds (items.take i)

section Statuses

variable {K : ItemKind ι κ} {items : List ι} {contextId : Bytes}

/-- The result for an item at an index before the verdicts. -/
theorem ItemKind.results_at {i : ℕ} {item : ι} (hitem : items[i]? = some item) :
    (K.results [] items)[i]? = some (K.resultAt (K.fullRandomIds (items.take i)) item) := by
  rw [ItemKind.getElem?_results, List.nil_append, hitem, Option.map_some]

theorem ItemKind.statusCode_of_repeats {i : ℕ} {item : ι} (h : K.Repeats items i item) :
    (K.resultAt (K.fullRandomIds (items.take i)) item).statusCode =
      dataIntegrityObjectDuplicated.1 := by
  obtain ⟨dio, hdio, hmem⟩ := h
  unfold ItemKind.dio at hdio
  unfold ItemKind.resultAt
  cases hout : K.outcome item with
  | error code =>
      rw [hout] at hdio
      cases hdio
  | ok decrypted =>
      rw [hout] at hdio
      obtain rfl := Option.some.inj hdio
      dsimp only
      rw [if_pos hmem]

/-- What is not repeated stays as it was decrypted. -/
theorem ItemKind.resultAt_of_fresh {i : ℕ} {item : ι} (h : ¬ K.Repeats items i item) :
    K.resultAt (K.fullRandomIds (items.take i)) item =
      match K.outcome item with
      | .error code => K.convertServerItem item code.1
      | .ok (x, _) => x := by
  unfold ItemKind.resultAt
  cases hout : K.outcome item with
  | error code => rfl
  | ok decrypted =>
      obtain ⟨x, dio⟩ := decrypted
      have hdio : K.dio item = some dio := by
        rw [ItemKind.dio, hout]
        rfl
      exact if_neg fun hmem => h ⟨dio, hdio, hmem⟩

theorem ItemKind.statusCode_of_fresh {i : ℕ} {item : ι} (h : ¬ K.Repeats items i item) :
    (K.resultAt (K.fullRandomIds (items.take i)) item).statusCode = K.status item := by
  rw [ItemKind.resultAt_of_fresh h, ItemKind.status]
  cases K.outcome item with
  | error code => exact K.statusCode_convertServerItem _ _
  | ok decrypted => rfl

/-- A result of status zero is that of a decrypted item which repeats nothing. -/
theorem ItemKind.fresh_of_zero {i : ℕ} {item : ι}
    (hzero : (K.resultAt (K.fullRandomIds (items.take i)) item).statusCode = 0) :
    ¬ K.Repeats items i item ∧ ∃ dio, K.outcome item =
      .ok (K.resultAt (K.fullRandomIds (items.take i)) item, dio) := by
  have hfresh : ¬ K.Repeats items i item := by
    intro hrepeats
    rw [ItemKind.statusCode_of_repeats hrepeats] at hzero
    exact dataIntegrityObjectDuplicated.2 hzero
  rw [ItemKind.resultAt_of_fresh hfresh] at hzero ⊢
  refine ⟨hfresh, ?_⟩
  cases hout : K.outcome item with
  | error code =>
      rw [hout] at hzero
      dsimp only at hzero
      rw [K.statusCode_convertServerItem] at hzero
      exact absurd hzero code.2
  | ok decrypted => exact ⟨decrypted.2, rfl⟩

/-- **An item of a listing.**  It is a duplicate if it repeats an earlier text,
else it has its status from before, or the verdict for the request with the
bridge identity of the object at its index. -/
theorem ItemKind.listed_at {judge : VerificationRequest → Bool} {result : List (LibItem κ)}
    (hitems : K.Handles items)
    (h : K.validateDecryptAndConvert contextId (.judging judge) items = .ok result) {i : ℕ}
    {item : ι} (hitem : items[i]? = some item) :
    ∃ y, result[i]? = some y ∧
      (K.Repeats items i item → y.statusCode = dataIntegrityObjectDuplicated.1) ∧
      (¬ K.Repeats items i item → K.status item ≠ 0 → y.statusCode = K.status item) ∧
      (¬ K.Repeats items i item → ∀ x dio, K.outcome item = .ok (x, dio) → x.statusCode = 0 →
        ∃ found, (items.filterMap K.dio)[i]? = some found ∧ y.statusCode =
          if judge (x.verificationRequest contextId found.bridgeIdentity) then 0
          else userVerificationFailure.1) := by
  obtain ⟨y, hy, hkept, hjudged⟩ := ItemKind.listed_judged hitems h i _ (ItemKind.results_at hitem)
  refine ⟨y, hy, fun hrepeats => ?_, fun hfresh hne => ?_, fun hfresh x dio hout hzero => ?_⟩
  · have hstatus := ItemKind.statusCode_of_repeats hrepeats
    rw [hkept (hstatus ▸ dataIntegrityObjectDuplicated.2), hstatus]
  · have hstatus := ItemKind.statusCode_of_fresh hfresh
    rw [hkept (hstatus ▸ hne), hstatus]
  · have hx : K.resultAt (K.fullRandomIds (items.take i)) item = x := by
      rw [ItemKind.resultAt_of_fresh hfresh, hout]
    rw [hx] at hjudged
    obtain ⟨found, hfound, rfl⟩ := hjudged hzero
    exact ⟨found, hfound, rfl⟩

/-- An item alone has its status from before, or the verdict for its own request. -/
theorem ItemKind.listed_alone (K : ItemKind ι κ) (contextId : Bytes)
    (judge : VerificationRequest → Bool) {item : ι} (hitem : K.Handles [item]) :
    ∃ alone, K.validateDecryptAndConvert contextId (.judging judge) [item] = .ok [alone] ∧
      (K.status item ≠ 0 → alone.statusCode = K.status item) ∧
      (∀ x dio, K.outcome item = .ok (x, dio) → x.statusCode = 0 → alone.statusCode =
        if judge (x.verificationRequest contextId dio.bridgeIdentity) then 0
        else userVerificationFailure.1) := by
  obtain ⟨o, ho⟩ := hitem item List.mem_cons_self
  have hout : K.outcome item = o := by simp only [ItemKind.outcome, ho]
  unfold ItemKind.status
  rw [hout]
  cases o with
  | error code =>
      refine ⟨K.convertServerItem item code.1, ?_, fun _ => K.statusCode_convertServerItem _ _, ?_⟩
      · rw [K.validateDecryptAndConvert_failed contextId _ ho, UserVerifier.verify_judging]
      · intro x dio h
        cases h
  | ok decrypted =>
      obtain ⟨x, dio⟩ := decrypted
      have hlist := K.validateDecryptAndConvert_decrypted contextId (.judging judge) ho
      rw [UserVerifier.verify_judging, UserVerifier.verify_judging] at hlist
      by_cases hzero : x.statusCode = 0
      · refine ⟨x.withVerdict (judge (x.verificationRequest contextId dio.bridgeIdentity)), ?_,
          fun hne => absurd hzero hne, ?_⟩
        · rw [hlist, if_pos hzero]
          simp [writeVerdicts, hzero, LibItem.withVerdict]
        · intro x' dio' h _
          obtain ⟨rfl, rfl⟩ := Prod.mk.inj (Except.ok.inj h)
          rfl
      · refine ⟨x, ?_, fun _ => rfl, ?_⟩
        · rw [hlist, if_neg hzero]
        · intro x' dio' h hzero'
          obtain ⟨rfl, rfl⟩ := Prod.mk.inj (Except.ok.inj h)
          exact absurd hzero' hzero

end Statuses

/-! ## The modules -/

/-- What a listing reads of an item's object: all but the key of its creator. -/
def DataIntegrityObject.unkeyed (dio : DataIntegrityObject) : DataIntegrityObject :=
  { dio with creatorPubKey := [] }

/-- The data is that of an item of version 5. -/
def ItemData.isVersion5 : ItemData → Bool
  | .version5 _ => true
  | _ => false

/-- A module that lists items: the id of an item's key, the listing with given
keys, the decryption of one item, and the object of an item that passes its
check, which does not depend on a key.  An item of version 5 also has the status
of its key, and its object has the pair of random id and timestamp. -/
structure ItemModule (ι κ : Type) where
  keyId : ι → Bytes
  kind : List (Bytes × ItemKey) → ItemKind ι κ
  decrypt : ι → ItemKey → LibItem κ
  object : ι → Option DataIntegrityObject
  isVersion5 : ι → Bool
  pair : ι → Option (Bytes × ℤ)
  failed : ∀ item, object item = none → ∃ code : ErrorCode, ∀ keyMap,
    (kind keyMap).attempt item = .ok (.error code)
  passed : ∀ item o, object item = some o → ∀ keyMap key, keyAt keyMap (keyId item) = .ok key →
    ∃ dio, (kind keyMap).attempt item = .ok (.ok (decrypt item key, dio)) ∧ dio.unkeyed = o
  decrypt_legacy : ∀ item key key', isVersion5 item = false → key.key = key'.key →
    decrypt item key = decrypt item key'
  statusCode_decrypt : ∀ item o key, object item = some o → isVersion5 item = true →
    key.statusCode ≠ 0 → (decrypt item key).statusCode = key.statusCode
  pair_eq : ∀ item p o, pair item = some p → object item = some o → (o.randomId, o.timestamp) = p

namespace ItemModule

variable (M : ItemModule ι κ) (C : KeyCrypto) (privateKey : C.PrivateKey)
  (storeKeys : ModuleBaseApi.ModuleKeys)

/-- The listing of a module, with the keys of the key provider.  Both ask the
same verifier. -/
def list (userVerifier : UserVerifierInterface) (items : List ι) :
    Except ListingError (List (LibItem κ)) :=
  match storeKeys.keyMap C privateKey userVerifier (items.map M.keyId).dedup with
  | .error e => .error (.thrown e)
  | .ok keyMap =>
      (M.kind keyMap).validateDecryptAndConvert storeKeys.contextId userVerifier items

/-- The key of an item, as its entry holds it. -/
def ownKey (item : ι) : Except EndpointException DecryptedEncKeyV2 :=
  storeKeys.ownKey C privateKey (M.keyId item)

/-- No two items of version 5 carry the same pair. -/
def DistinctPairs (items : List ι) : Prop :=
  (items.filterMap M.pair).Nodup

/-- **No false duplicates.**  If no pair occurs twice, the listing returns and
gives every item the status that it has alone, whatever the verdicts; and of two
items with one pair at most one has status zero. -/
structure NoFalseDuplicates (items : List ι) : Prop where
  alone : M.DistinctPairs items → ∀ judge, ∃ result,
    M.list C privateKey storeKeys (.judging judge) items = .ok result ∧
      ∀ (i : ℕ) (item : ι), items[i]? = some item → ∃ x alone, result[i]? = some x ∧
        M.list C privateKey storeKeys (.judging judge) [item] = .ok [alone] ∧
        x.statusCode = alone.statusCode
  atMostOne : ∀ userVerifier result, M.list C privateKey storeKeys userVerifier items = .ok result →
    ∀ (i j : ℕ) (a b : ι) (p : Bytes × ℤ), i < j → items[i]? = some a → items[j]? = some b →
      M.pair a = some p → M.pair b = some p → ∀ x y, result[i]? = some x → result[j]? = some y →
        ¬ (x.statusCode = 0 ∧ y.statusCode = 0)

/-- An item that passes its check comes before this one and has an object with
the same text of random id and timestamp. -/
def Repeats (items : List ι) (i : ℕ) (o : DataIntegrityObject) : Prop :=
  ∃ earlier ∈ items.take i, ∃ o', M.object earlier = some o' ∧ o'.fullRandomId = o.fullRandomId

/-- No item is disturbed by the others.  Every key that is asked for decrypts.
No item that passes its check repeats the text of an earlier one, unless its own
decryption ends with the status of a duplicate.  The key of an item of version 5
shares its random id and timestamp with no other key that is asked for.  An item
that its key decrypts finds its own bridge identity at its index among the
objects. -/
structure Undisturbed (items : List ι) : Prop where
  keys : ∀ item ∈ items, ∃ key, M.ownKey C privateKey storeKeys item = .ok key
  repeated : ∀ (i : ℕ) (item : ι) o key, items[i]? = some item → M.object item = some o →
    M.ownKey C privateKey storeKeys item = .ok key → M.Repeats items i o →
      (M.decrypt item key.itemKey).statusCode = dataIntegrityObjectDuplicated.1 ∧
        (M.isVersion5 item = true → ¬ key.verified)
  nonces : ∀ (i : ℕ) (item : ι) o key, items[i]? = some item → M.object item = some o →
    M.ownKey C privateKey storeKeys item = .ok key → ¬ M.Repeats items i o →
      M.isVersion5 item = true → ¬ storeKeys.SharesNonce C privateKey (items.map M.keyId).dedup
        (M.keyId item) key
  identities : ∀ (i : ℕ) (item : ι) o key, items[i]? = some item → M.object item = some o →
    M.ownKey C privateKey storeKeys item = .ok key → ¬ M.Repeats items i o →
      (M.decrypt item key.itemKey).statusCode = 0 →
        ∃ found, (items.filterMap M.object)[i]? = some found ∧
          found.bridgeIdentity = o.bridgeIdentity

variable {M C privateKey storeKeys} {items : List ι}

/-! ### One listing -/

/-- Every key of these items can be looked up. -/
def Found (M : ItemModule ι κ) (keyMap : List (Bytes × ItemKey)) (items : List ι) : Prop :=
  ∀ item ∈ items, ∃ key, keyAt keyMap (M.keyId item) = .ok key

theorem outcome_of_object {keyMap : List (Bytes × ItemKey)} {item : ι} {o : DataIntegrityObject}
    {key : ItemKey} (ho : M.object item = some o) (hkey : keyAt keyMap (M.keyId item) = .ok key) :
    ∃ dio, (M.kind keyMap).outcome item = .ok (M.decrypt item key, dio) ∧ dio.unkeyed = o := by
  obtain ⟨dio, hattempt, hdio⟩ := M.passed item o ho keyMap key hkey
  exact ⟨dio, by simp only [ItemKind.outcome, hattempt], hdio⟩

theorem handles_of_found {keyMap : List (Bytes × ItemKey)} (hfound : Found M keyMap items) :
    (M.kind keyMap).Handles items := by
  intro item hitem
  cases ho : M.object item with
  | none =>
      obtain ⟨code, hcode⟩ := M.failed item ho
      exact ⟨_, hcode keyMap⟩
  | some o =>
      obtain ⟨key, hkey⟩ := hfound item hitem
      obtain ⟨dio, hattempt, -⟩ := M.passed item o ho keyMap key hkey
      exact ⟨_, hattempt⟩

/-- The object of a decrypted item does not depend on the keys. -/
theorem unkeyed_dio {keyMap : List (Bytes × ItemKey)} (hfound : Found M keyMap items) {item : ι}
    (hitem : item ∈ items) : ((M.kind keyMap).dio item).map DataIntegrityObject.unkeyed =
      M.object item := by
  cases ho : M.object item with
  | none =>
      obtain ⟨code, hcode⟩ := M.failed item ho
      simp only [ItemKind.dio, ItemKind.outcome, hcode keyMap, Except.toOption, Option.map_none]
  | some o =>
      obtain ⟨key, hkey⟩ := hfound item hitem
      obtain ⟨dio, hout, hdio⟩ := outcome_of_object ho hkey
      simp only [ItemKind.dio, hout, Except.toOption, Option.map_some, hdio]

theorem unkeyed_dios {keyMap : List (Bytes × ItemKey)} (hfound : Found M keyMap items) :
    (items.filterMap (M.kind keyMap).dio).map DataIntegrityObject.unkeyed =
      items.filterMap M.object := by
  rw [List.map_filterMap]
  exact List.filterMap_congr fun item hitem => unkeyed_dio hfound hitem

/-- The texts that a listing compares are those of the objects. -/
theorem repeats_iff {keyMap : List (Bytes × ItemKey)} (hfound : Found M keyMap items) {i : ℕ}
    {item : ι} (hitem : items[i]? = some item) :
    (M.kind keyMap).Repeats items i item ↔ ∃ o, M.object item = some o ∧ M.Repeats items i o := by
  have hmem := List.mem_of_getElem? hitem
  constructor
  · intro h
    obtain ⟨dio, hdio, htext⟩ := h
    have ho := unkeyed_dio hfound hmem
    rw [hdio, Option.map_some] at ho
    obtain ⟨dio', hdio', heq⟩ := List.mem_map.mp htext
    obtain ⟨earlier, hearlier, hdio'⟩ := List.mem_filterMap.mp hdio'
    have ho' := unkeyed_dio hfound (List.mem_of_mem_take hearlier)
    rw [hdio', Option.map_some] at ho'
    exact ⟨_, ho.symm, earlier, hearlier, _, ho'.symm, heq⟩
  · intro h
    obtain ⟨o, ho, earlier, hearlier, o', ho', heq⟩ := h
    obtain ⟨dio, hdio, rfl⟩ := Option.map_eq_some_iff.mp ((unkeyed_dio hfound hmem).trans ho)
    obtain ⟨dio', hdio', rfl⟩ := Option.map_eq_some_iff.mp
      ((unkeyed_dio hfound (List.mem_of_mem_take hearlier)).trans ho')
    exact ⟨dio, hdio, List.mem_map.mpr ⟨dio', List.mem_filterMap.mpr ⟨earlier, hearlier, hdio'⟩,
      heq⟩⟩

/-- A listing that returns has found every key, and every entry decrypts. -/
theorem of_list {userVerifier : UserVerifierInterface} {result : List (LibItem κ)}
    (h : M.list C privateKey storeKeys userVerifier items = .ok result) :
    ∃ keyMap, Found M keyMap items ∧
      (M.kind keyMap).validateDecryptAndConvert storeKeys.contextId userVerifier items =
        .ok result ∧ ∀ item ∈ items, ∃ key, M.ownKey C privateKey storeKeys item = .ok key := by
  unfold list at h
  split at h
  · cases h
  · rename_i keyMap hkeyMap
    refine ⟨keyMap, fun item hitem => ?_, h, fun item hitem => ?_⟩
    · exact (ModuleBaseApi.ModuleKeys.of_keyMap hkeyMap
        (List.mem_dedup.mpr (List.mem_map_of_mem hitem))).2
    · exact (ModuleBaseApi.ModuleKeys.of_keyMap hkeyMap
        (List.mem_dedup.mpr (List.mem_map_of_mem hitem))).1

/-- The keys of a listing whose entries decrypt: what an item is decrypted with. -/
theorem exists_keyMap (hkeys : ∀ item ∈ items, ∃ key, M.ownKey C privateKey storeKeys item = .ok key)
    (judge : VerificationRequest → Bool) :
    ∃ keyMap, M.list C privateKey storeKeys (.judging judge) items =
        (M.kind keyMap).validateDecryptAndConvert storeKeys.contextId (.judging judge) items ∧
      Found M keyMap items ∧
      ∀ item ∈ items, ∀ key, M.ownKey C privateKey storeKeys item = .ok key →
        ∃ used : DecryptedEncKeyV2, keyAt keyMap (M.keyId item) = .ok used.itemKey ∧
          (storeKeys.SharesNonce C privateKey (items.map M.keyId).dedup (M.keyId item) key →
            used = key.duplicated) ∧
          (¬ storeKeys.SharesNonce C privateKey (items.map M.keyId).dedup (M.keyId item) key →
            used = key.judged judge) := by
  have hids : ∀ keyId ∈ (items.map M.keyId).dedup,
      ∃ key, storeKeys.ownKey C privateKey keyId = .ok key := by
    intro keyId hid
    obtain ⟨item, hitem, rfl⟩ := List.mem_map.mp (List.mem_dedup.mp hid)
    exact hkeys item hitem
  obtain ⟨keyMap, hkeyMap, hused⟩ := ModuleBaseApi.ModuleKeys.keyMap_judging hids judge
  have hmem : ∀ item ∈ items, M.keyId item ∈ (items.map M.keyId).dedup :=
    fun item hitem => List.mem_dedup.mpr (List.mem_map_of_mem hitem)
  refine ⟨keyMap, ?_, fun item hitem => ?_, fun item hitem key hkey => ?_⟩
  · unfold list
    rw [hkeyMap]
  · obtain ⟨key, hkey⟩ := hkeys item hitem
    obtain ⟨used, hlookup, -⟩ := hused _ (hmem item hitem) key hkey
    exact ⟨_, hlookup⟩
  · exact hused _ (hmem item hitem) key hkey

/-- A key that has nothing but its status changed decrypts a legacy item to the
same. -/
theorem decrypt_of_legacy {item : ι} (hlegacy : M.isVersion5 item = false)
    {judge : VerificationRequest → Bool} {key used : DecryptedEncKeyV2}
    (hused : used = key.duplicated ∨ used = key.judged judge) :
    M.decrypt item used.itemKey = M.decrypt item key.itemKey := by
  refine M.decrypt_legacy item _ _ hlegacy ?_
  rcases hused with rfl | rfl
  · rfl
  · exact DecryptedEncKeyV2.key_judged judge key

/-- An item that comes out of its decryption with status zero was decrypted with
its own key, up to a status that does not matter. -/
theorem decrypt_of_zero {item : ι} {o : DataIntegrityObject} (ho : M.object item = some o)
    {judge : VerificationRequest → Bool} {key used : DecryptedEncKeyV2}
    (hused : used = key.duplicated ∨ used = key.judged judge)
    (hzero : (M.decrypt item used.itemKey).statusCode = 0) :
    M.decrypt item used.itemKey = M.decrypt item key.itemKey := by
  cases hversion : M.isVersion5 item with
  | false => exact decrypt_of_legacy hversion hused
  | true =>
      have hkey : used.statusCode = 0 := by
        by_contra hne
        rw [M.statusCode_decrypt item o used.itemKey ho hversion hne] at hzero
        exact hne hzero
      rcases hused with rfl | rfl
      · exact absurd hkey dataIntegrityObjectDuplicated.2
      · rw [DecryptedEncKeyV2.judged_eq_of_zero hkey]

/-- What becomes of an item that passes its check in a listing, where `used` is
the key that it is decrypted with. -/
structure Listed (M : ItemModule ι κ) (C : KeyCrypto) (privateKey : C.PrivateKey)
    (storeKeys : ModuleBaseApi.ModuleKeys) (items : List ι) (judge : VerificationRequest → Bool)
    (i : ℕ) (item : ι) (o : DataIntegrityObject) (key used : DecryptedEncKeyV2)
    (statusCode : ℕ) : Prop where
  shares : storeKeys.SharesNonce C privateKey (items.map M.keyId).dedup (M.keyId item) key →
    used = key.duplicated
  own : ¬ storeKeys.SharesNonce C privateKey (items.map M.keyId).dedup (M.keyId item) key →
    used = key.judged judge
  repeated : M.Repeats items i o → statusCode = dataIntegrityObjectDuplicated.1
  failed : ¬ M.Repeats items i o → (M.decrypt item used.itemKey).statusCode ≠ 0 →
    statusCode = (M.decrypt item used.itemKey).statusCode
  verdict : ¬ M.Repeats items i o → (M.decrypt item used.itemKey).statusCode = 0 →
    ∃ found, (items.filterMap M.object)[i]? = some found ∧ statusCode =
      if judge ((M.decrypt item used.itemKey).verificationRequest storeKeys.contextId
        found.bridgeIdentity) then 0 else userVerificationFailure.1

/-- What becomes of it alone. -/
structure Alone (M : ItemModule ι κ) (storeKeys : ModuleBaseApi.ModuleKeys)
    (judge : VerificationRequest → Bool) (item : ι) (o : DataIntegrityObject)
    (key : DecryptedEncKeyV2) (statusCode : ℕ) : Prop where
  failed : (M.decrypt item (key.judged judge).itemKey).statusCode ≠ 0 →
    statusCode = (M.decrypt item (key.judged judge).itemKey).statusCode
  verdict : (M.decrypt item (key.judged judge).itemKey).statusCode = 0 → statusCode =
    if judge ((M.decrypt item (key.judged judge).itemKey).verificationRequest
      storeKeys.contextId o.bridgeIdentity) then 0 else userVerificationFailure.1

/-- The key that is used is the own one, marked or judged. -/
theorem Listed.used_eq {judge : VerificationRequest → Bool} {i : ℕ} {item : ι}
    {o : DataIntegrityObject} {key used : DecryptedEncKeyV2} {statusCode : ℕ}
    (h : Listed M C privateKey storeKeys items judge i item o key used statusCode) :
    used = key.duplicated ∨ used = key.judged judge :=
  (em _).imp h.shares h.own

/-- **An item that passes its check, in a listing.** -/
theorem list_at {judge : VerificationRequest → Bool} {result : List (LibItem κ)}
    (h : M.list C privateKey storeKeys (.judging judge) items = .ok result) {i : ℕ} {item : ι}
    (hitem : items[i]? = some item) {o : DataIntegrityObject} (ho : M.object item = some o)
    {key : DecryptedEncKeyV2} (hkey : M.ownKey C privateKey storeKeys item = .ok key) :
    ∃ y used, result[i]? = some y ∧
      Listed M C privateKey storeKeys items judge i item o key used y.statusCode := by
  obtain ⟨-, -, -, hkeys⟩ := of_list h
  obtain ⟨keyMap, hlist, hfound, hall⟩ := exists_keyMap hkeys judge
  rw [hlist] at h
  obtain ⟨used, hlookup, hshares, hown⟩ := hall item (List.mem_of_getElem? hitem) key hkey
  obtain ⟨dio, hout, hdio⟩ := outcome_of_object ho hlookup
  obtain ⟨y, hy, hrepeated, hfailed, hjudged⟩ :=
    ItemKind.listed_at (handles_of_found hfound) h hitem
  have hiff : (M.kind keyMap).Repeats items i item ↔ M.Repeats items i o := by
    rw [repeats_iff hfound hitem, ho]
    simp
  rw [hiff] at hrepeated hfailed hjudged
  have hstatus : (M.kind keyMap).status item = (M.decrypt item used.itemKey).statusCode := by
    simp only [ItemKind.status, hout]
  rw [hstatus] at hfailed
  refine ⟨y, used, hy, ⟨hshares, hown, hrepeated, hfailed, fun hfresh hzero => ?_⟩⟩
  obtain ⟨found, hfound', hverdict⟩ := hjudged hfresh _ _ hout hzero
  refine ⟨found.unkeyed, ?_, hverdict⟩
  rw [← unkeyed_dios hfound, List.getElem?_map, hfound', Option.map_some]

/-- **An item that passes its check, alone.** -/
theorem list_alone (judge : VerificationRequest → Bool) {item : ι} {o : DataIntegrityObject}
    (ho : M.object item = some o) {key : DecryptedEncKeyV2}
    (hkey : M.ownKey C privateKey storeKeys item = .ok key) :
    ∃ alone, M.list C privateKey storeKeys (.judging judge) [item] = .ok [alone] ∧
      Alone M storeKeys judge item o key alone.statusCode := by
  obtain ⟨keyMap, hlist, hfound, hall⟩ := exists_keyMap
    (fun item' hitem' => ⟨key, by rw [List.mem_singleton.mp hitem']; exact hkey⟩) judge
  obtain ⟨used, hlookup, -, hown⟩ := hall item List.mem_cons_self key hkey
  obtain rfl : used = key.judged judge := by
    refine hown fun hshares => ?_
    obtain ⟨-, other, hother, hne, -⟩ := hshares
    exact hne (List.mem_singleton.mp (List.mem_dedup.mp hother))
  obtain ⟨dio, hout, rfl⟩ := outcome_of_object ho hlookup
  obtain ⟨alone, halone, hfailed, hjudged⟩ :=
    (M.kind keyMap).listed_alone storeKeys.contextId judge (handles_of_found hfound)
  have hstatus : (M.kind keyMap).status item =
      (M.decrypt item (key.judged judge).itemKey).statusCode := by
    simp only [ItemKind.status, hout]
  rw [hstatus] at hfailed
  exact ⟨alone, hlist.trans halone, ⟨hfailed, fun hzero => hjudged _ dio hout hzero⟩⟩

/-- An item that fails its check has the same status everywhere. -/
theorem list_failed {judge : VerificationRequest → Bool} {result : List (LibItem κ)}
    (h : M.list C privateKey storeKeys (.judging judge) items = .ok result) {i : ℕ} {item : ι}
    (hitem : items[i]? = some item) (ho : M.object item = none) :
    ∃ y alone, result[i]? = some y ∧
      M.list C privateKey storeKeys (.judging judge) [item] = .ok [alone] ∧
      y.statusCode = alone.statusCode := by
  obtain ⟨-, -, -, hkeys⟩ := of_list h
  obtain ⟨code, hcode⟩ := M.failed item ho
  have hout : ∀ keyMap, (M.kind keyMap).outcome item = .error code := by
    intro keyMap
    simp only [ItemKind.outcome, hcode keyMap]
  have hstatus : ∀ keyMap, (M.kind keyMap).status item = code.1 := by
    intro keyMap
    simp only [ItemKind.status, hout keyMap]
  obtain ⟨keyMap, hlist, hfound, -⟩ := exists_keyMap hkeys judge
  obtain ⟨keyMap', hlist', hfound', -⟩ := exists_keyMap
    (fun item' hitem' => by
      rw [List.mem_singleton.mp hitem']
      exact hkeys item (List.mem_of_getElem? hitem)) judge
  rw [hlist] at h
  obtain ⟨y, hy, -, hfailed, -⟩ := ItemKind.listed_at (handles_of_found hfound) h hitem
  obtain ⟨alone, halone, hfailed', -⟩ :=
    (M.kind keyMap').listed_alone storeKeys.contextId judge (handles_of_found hfound')
  have hfresh : ¬ (M.kind keyMap).Repeats items i item := by
    rw [repeats_iff hfound hitem, ho]
    simp
  rw [hstatus] at hfailed hfailed'
  exact ⟨y, alone, hy, hlist'.trans halone,
    (hfailed hfresh code.2).trans (hfailed' code.2).symm⟩

/-! ### When no item is disturbed -/

/-- The condition is enough: the listing returns. -/
theorem Undisturbed.exists_list (h : M.Undisturbed C privateKey storeKeys items)
    (judge : VerificationRequest → Bool) :
    ∃ result, M.list C privateKey storeKeys (.judging judge) items = .ok result := by
  obtain ⟨keyMap, hlist, hfound, hall⟩ := exists_keyMap h.keys judge
  rw [hlist]
  refine ItemKind.exists_listed (handles_of_found hfound) fun i x hx hzero => ?_
  rw [ItemKind.getElem?_results, List.nil_append, Option.map_eq_some_iff] at hx
  obtain ⟨item, hitem, rfl⟩ := hx
  obtain ⟨hfresh, dio, hout⟩ := ItemKind.fresh_of_zero hzero
  have hmem := List.mem_of_getElem? hitem
  obtain ⟨key, hkey⟩ := h.keys item hmem
  obtain ⟨used, hlookup, hshares, hown⟩ := hall item hmem key hkey
  have hused : used = key.duplicated ∨ used = key.judged judge := (em _).imp hshares hown
  cases ho : M.object item with
  | none =>
      obtain ⟨code, hcode⟩ := M.failed item ho
      simp only [ItemKind.outcome, hcode keyMap, reduceCtorEq] at hout
  | some o =>
      obtain ⟨dio', hout', -⟩ := outcome_of_object ho hlookup
      have hx : M.decrypt item used.itemKey =
          (M.kind keyMap).resultAt ((M.kind keyMap).fullRandomIds (items.take i)) item :=
        (Prod.mk.inj (Except.ok.inj (hout'.symm.trans hout))).1
      rw [← hx] at hzero
      rw [repeats_iff hfound hitem, ho] at hfresh
      have hzero' := hzero
      rw [decrypt_of_zero ho hused hzero] at hzero'
      obtain ⟨found, hfound', -⟩ := h.identities i item o key hitem ho hkey
        (fun hrepeats => hfresh ⟨o, rfl, hrepeats⟩) hzero'
      rw [← unkeyed_dios hfound, List.getElem?_map, Option.map_eq_some_iff] at hfound'
      obtain ⟨object, hobject, -⟩ := hfound'
      exact ⟨object, hobject⟩

/-- The condition is enough: an item gets the status that it has alone. -/
theorem Undisturbed.statusCode_eq (h : M.Undisturbed C privateKey storeKeys items)
    {judge : VerificationRequest → Bool} {result : List (LibItem κ)}
    (hresult : M.list C privateKey storeKeys (.judging judge) items = .ok result) {i : ℕ}
    {item : ι} (hitem : items[i]? = some item) :
    ∃ x alone, result[i]? = some x ∧
      M.list C privateKey storeKeys (.judging judge) [item] = .ok [alone] ∧
      x.statusCode = alone.statusCode := by
  cases ho : M.object item with
  | none => exact list_failed hresult hitem ho
  | some o =>
      obtain ⟨key, hkey⟩ := h.keys item (List.mem_of_getElem? hitem)
      obtain ⟨y, used, hy, hlisted⟩ := list_at hresult hitem ho hkey
      obtain ⟨alone, hlist, halone⟩ := list_alone judge ho hkey
      refine ⟨y, alone, hy, hlist, ?_⟩
      by_cases hrepeats : M.Repeats items i o
      · -- a duplicate next to the others and alone
        obtain ⟨hstatus, hverified⟩ := h.repeated i item o key hitem ho hkey hrepeats
        have hsame : M.decrypt item (key.judged judge).itemKey = M.decrypt item key.itemKey := by
          cases hversion : M.isVersion5 item with
          | false => exact decrypt_of_legacy hversion (Or.inr rfl)
          | true => rw [DecryptedEncKeyV2.judged_of_not_verified (hverified hversion)]
        have hfailed := halone.failed
        rw [hsame, hstatus] at hfailed
        rw [hlisted.repeated hrepeats, hfailed dataIntegrityObjectDuplicated.2]
      · have hsame : M.decrypt item used.itemKey = M.decrypt item (key.judged judge).itemKey := by
          cases hversion : M.isVersion5 item with
          | false =>
              rw [decrypt_of_legacy hversion hlisted.used_eq,
                decrypt_of_legacy hversion (Or.inr rfl)]
          | true => rw [hlisted.own (h.nonces i item o key hitem ho hkey hrepeats hversion)]
        have hfailed := hlisted.failed hrepeats
        have hverdict := hlisted.verdict hrepeats
        rw [hsame] at hfailed hverdict
        by_cases hzero : (M.decrypt item (key.judged judge).itemKey).statusCode = 0
        · obtain ⟨found, hfound, hstatus⟩ := hverdict hzero
          have hzero' := hzero
          rw [decrypt_of_zero ho (Or.inr rfl) hzero] at hzero'
          obtain ⟨found', hfound', hidentity⟩ :=
            h.identities i item o key hitem ho hkey hrepeats hzero'
          obtain rfl := Option.some.inj (hfound.symm.trans hfound')
          rw [hstatus, halone.verdict hzero, hidentity]
        · rw [hfailed hzero, halone.failed hzero]

/-- A key of version 5 that the verifier refuses fails its item. -/
theorem statusCode_of_refused {item : ι} {o : DataIntegrityObject} (ho : M.object item = some o)
    (hversion : M.isVersion5 item = true) {key : DecryptedEncKeyV2} (hverified : key.verified) :
    (M.decrypt item (key.judged fun _ => false).itemKey).statusCode =
      userVerificationFailure.1 := by
  have hrefused : key.judged (fun _ => false) =
      { key with statusCode := userVerificationFailure.1 } := if_pos ⟨hverified, rfl⟩
  rw [hrefused]
  exact M.statusCode_decrypt item o _ ho hversion userVerificationFailure.2

/-- The mark of a duplicate is no verdict. -/
theorem duplicated_ne_verdict (verdict : Bool) :
    dataIntegrityObjectDuplicated.1 ≠ if verdict then 0 else userVerificationFailure.1 := by
  cases verdict with
  | false => decide
  | true => decide

section Necessary

variable {i : ℕ} {item : ι} {o : DataIntegrityObject} {key : DecryptedEncKeyV2}

/-- One status next to the others and alone, for every verifier. -/
theorem NoFalseDuplicates.agree (h : M.NoFalseDuplicates C privateKey storeKeys items)
    (hpairs : M.DistinctPairs items) (hitem : items[i]? = some item) (ho : M.object item = some o)
    (hkey : M.ownKey C privateKey storeKeys item = .ok key) (judge : VerificationRequest → Bool) :
    ∃ used statusCode, Listed M C privateKey storeKeys items judge i item o key used statusCode ∧
      Alone M storeKeys judge item o key statusCode := by
  obtain ⟨result, hresult, hall⟩ := h.alone hpairs judge
  obtain ⟨x, alone, hx, hlist, hsame⟩ := hall i item hitem
  obtain ⟨y, used, hy, hlisted⟩ := list_at hresult hitem ho hkey
  obtain ⟨alone', hlist', halone⟩ := list_alone judge ho hkey
  obtain rfl := Option.some.inj (hx.symm.trans hy)
  obtain rfl := List.head_eq_of_cons_eq (Except.ok.inj (hlist.symm.trans hlist'))
  rw [hsame] at hlisted
  exact ⟨used, alone.statusCode, hlisted, halone⟩

/-- An item that repeats an earlier text is a duplicate by itself, else it would
have a verdict alone, or fail with its key when that is refused. -/
theorem NoFalseDuplicates.repeated (h : M.NoFalseDuplicates C privateKey storeKeys items)
    (hpairs : M.DistinctPairs items) (hitem : items[i]? = some item) (ho : M.object item = some o)
    (hkey : M.ownKey C privateKey storeKeys item = .ok key) (hrepeats : M.Repeats items i o) :
    (M.decrypt item key.itemKey).statusCode = dataIntegrityObjectDuplicated.1 ∧
      (M.isVersion5 item = true → ¬ key.verified) := by
  constructor
  · obtain ⟨used, statusCode, hlisted, halone⟩ := h.agree hpairs hitem ho hkey fun _ => true
    have hown : key.judged (fun _ => true) = key :=
      DecryptedEncKeyV2.judged_of_accepted fun _ => rfl
    obtain ⟨hfailed, hverdict⟩ := halone
    rw [hown, hlisted.repeated hrepeats] at hfailed hverdict
    by_cases hzero : (M.decrypt item key.itemKey).statusCode = 0
    · exact absurd (hverdict hzero) (duplicated_ne_verdict _)
    · exact (hfailed hzero).symm
  · intro hversion hverified
    obtain ⟨used, statusCode, hlisted, halone⟩ := h.agree hpairs hitem ho hkey fun _ => false
    have hrefused := statusCode_of_refused ho hversion hverified
    have hstatus := halone.failed (hrefused ▸ userVerificationFailure.2)
    rw [hlisted.repeated hrepeats, hrefused] at hstatus
    exact absurd hstatus (duplicated_ne_verdict false)

/-- The key of an item of version 5 is no duplicate next to the others: alone it
would be refused by some verifier. -/
theorem NoFalseDuplicates.nonces (h : M.NoFalseDuplicates C privateKey storeKeys items)
    (hpairs : M.DistinctPairs items) (hitem : items[i]? = some item) (ho : M.object item = some o)
    (hkey : M.ownKey C privateKey storeKeys item = .ok key) (hrepeats : ¬ M.Repeats items i o)
    (hversion : M.isVersion5 item = true) :
    ¬ storeKeys.SharesNonce C privateKey (items.map M.keyId).dedup (M.keyId item) key := by
  intro hshares
  obtain ⟨used, statusCode, hlisted, halone⟩ := h.agree hpairs hitem ho hkey fun _ => false
  have hverified := ModuleBaseApi.ModuleKeys.verified_of_compared hkey hshares.1
  have hrefused := statusCode_of_refused ho hversion hverified
  have hmarked : (M.decrypt item used.itemKey).statusCode = dataIntegrityObjectDuplicated.1 := by
    rw [hlisted.shares hshares]
    exact M.statusCode_decrypt item o _ ho hversion dataIntegrityObjectDuplicated.2
  have hstatus := halone.failed (hrefused ▸ userVerificationFailure.2)
  rw [hlisted.failed hrepeats (hmarked ▸ dataIntegrityObjectDuplicated.2), hmarked, hrefused]
    at hstatus
  exact absurd hstatus (duplicated_ne_verdict false)

/-- A decrypted item finds its own bridge identity at its index: a verifier that
tells the two requests apart would tell the item from itself alone. -/
theorem NoFalseDuplicates.identities (h : M.NoFalseDuplicates C privateKey storeKeys items)
    (hpairs : M.DistinctPairs items) (hitem : items[i]? = some item) (ho : M.object item = some o)
    (hkey : M.ownKey C privateKey storeKeys item = .ok key) (hrepeats : ¬ M.Repeats items i o)
    (hzero : (M.decrypt item key.itemKey).statusCode = 0) :
    ∃ found, (items.filterMap M.object)[i]? = some found ∧
      found.bridgeIdentity = o.bridgeIdentity := by
  -- with a verifier that accepts the key, the item is decrypted as with its own key
  have hagree : ∀ judge : VerificationRequest → Bool,
      (key.verified → judge key.verificationRequest = true) →
      ∃ found, (items.filterMap M.object)[i]? = some found ∧
        judge ((M.decrypt item key.itemKey).verificationRequest storeKeys.contextId
          found.bridgeIdentity) =
        judge ((M.decrypt item key.itemKey).verificationRequest storeKeys.contextId
          o.bridgeIdentity) := by
    intro judge haccepts
    obtain ⟨used, statusCode, hlisted, halone⟩ := h.agree hpairs hitem ho hkey judge
    have hown := DecryptedEncKeyV2.judged_of_accepted haccepts
    have hused : M.decrypt item used.itemKey = M.decrypt item key.itemKey := by
      cases hversion : M.isVersion5 item with
      | false => exact decrypt_of_legacy hversion hlisted.used_eq
      | true => rw [hlisted.own (h.nonces hpairs hitem ho hkey hrepeats hversion), hown]
    have hverdict := hlisted.verdict hrepeats
    have hverdict' := halone.verdict
    rw [hused] at hverdict
    rw [hown] at hverdict'
    obtain ⟨found, hfound, hstatus⟩ := hverdict hzero
    refine ⟨found, hfound, ?_⟩
    have heq := hstatus.symm.trans (hverdict' hzero)
    split at heq
    · rename_i haccepted
      split at heq
      · rename_i haccepted'
        rw [haccepted, haccepted']
      · exact absurd heq.symm userVerificationFailure.2
    · rename_i hrefused
      split at heq
      · exact absurd heq userVerificationFailure.2
      · rename_i hrefused'
        rw [Bool.eq_false_iff.mpr hrefused, Bool.eq_false_iff.mpr hrefused']
  obtain ⟨found, hfound, -⟩ := hagree (fun _ => true) fun _ => rfl
  refine ⟨found, hfound, ?_⟩
  by_contra hne
  have hrequests : (M.decrypt item key.itemKey).verificationRequest storeKeys.contextId
      found.bridgeIdentity ≠ (M.decrypt item key.itemKey).verificationRequest storeKeys.contextId
        o.bridgeIdentity := fun heq => hne (congrArg VerificationRequest.bridgeIdentity heq)
  -- the verifier refuses one of the two requests, and not the one for the key
  by_cases hwrong : key.verificationRequest =
      (M.decrypt item key.itemKey).verificationRequest storeKeys.contextId found.bridgeIdentity
  · obtain ⟨found', hfound', heq⟩ := hagree (fun r => decide (r ≠
      (M.decrypt item key.itemKey).verificationRequest storeKeys.contextId o.bridgeIdentity))
      fun _ => decide_eq_true (hwrong ▸ hrequests)
    obtain rfl := Option.some.inj (hfound.symm.trans hfound')
    simp [hrequests] at heq
  · obtain ⟨found', hfound', heq⟩ := hagree (fun r => decide (r ≠
      (M.decrypt item key.itemKey).verificationRequest storeKeys.contextId found.bridgeIdentity))
      fun _ => decide_eq_true hwrong
    obtain rfl := Option.some.inj (hfound.symm.trans hfound')
    simp [hrequests.symm] at heq

end Necessary

/-- Two items with the same pair: the later one repeats the earlier one. -/
theorem at_most_one {userVerifier : UserVerifierInterface} {result : List (LibItem κ)}
    (hresult : M.list C privateKey storeKeys userVerifier items = .ok result) {i j : ℕ} {a b : ι}
    {p : Bytes × ℤ} (hij : i < j) (ha : items[i]? = some a) (hb : items[j]? = some b)
    (hpa : M.pair a = some p) (hpb : M.pair b = some p) {x y : LibItem κ}
    (hx : result[i]? = some x) (hy : result[j]? = some y) :
    ¬ (x.statusCode = 0 ∧ y.statusCode = 0) := by
  intro hzero
  obtain ⟨hxzero, hyzero⟩ := hzero
  obtain ⟨keyMap, hfound, hlist, -⟩ := of_list hresult
  obtain ⟨requests, verified, -, hall⟩ := ItemKind.listed_spec (handles_of_found hfound) hlist
  -- a result of status zero had it before the verdicts
  have hbefore : ∀ {n : ℕ} {item : ι} {z : LibItem κ}, items[n]? = some item →
      result[n]? = some z → z.statusCode = 0 →
        ¬ (M.kind keyMap).Repeats items n item ∧ ∃ o, M.object item = some o := by
    intro n item z hitem hz hzero
    have hstatus : ((M.kind keyMap).resultAt ((M.kind keyMap).fullRandomIds (items.take n))
        item).statusCode = 0 := by
      by_contra hne
      obtain ⟨z', hz', hkept, -⟩ := hall n _ (ItemKind.results_at hitem)
      rw [hz] at hz'
      obtain rfl := Option.some.inj hz'
      rw [hkept hne] at hzero
      exact hne hzero
    obtain ⟨hfresh, dio, hout⟩ := ItemKind.fresh_of_zero hstatus
    have hdio := unkeyed_dio hfound (List.mem_of_getElem? hitem)
    rw [ItemKind.dio, hout] at hdio
    exact ⟨hfresh, dio.unkeyed, hdio.symm⟩
  obtain ⟨-, oA, hoA⟩ := hbefore ha hx hxzero
  obtain ⟨hfresh, oB, hoB⟩ := hbefore hb hy hyzero
  rw [repeats_iff hfound hb] at hfresh
  refine hfresh ⟨oB, hoB, a, ?_, oA, hoA, ?_⟩
  · have hbefore : (items.take j)[i]? = some a := by
      rw [List.getElem?_take, if_pos hij, ha]
    exact List.mem_of_getElem? hbefore
  · obtain ⟨hrandomId, htimestamp⟩ :=
      Prod.mk.inj ((M.pair_eq a p oA hpa hoA).trans (M.pair_eq b p oB hpb hoB).symm)
    rw [DataIntegrityObject.fullRandomId, DataIntegrityObject.fullRandomId, hrandomId, htimestamp]

/-- **No false duplicates**, for one module. -/
theorem noFalseDuplicates_iff :
    M.NoFalseDuplicates C privateKey storeKeys items ↔
      (M.DistinctPairs items → M.Undisturbed C privateKey storeKeys items) := by
  constructor
  · intro h hpairs
    obtain ⟨result, hresult, -⟩ := h.alone hpairs fun _ => true
    obtain ⟨-, -, -, hkeys⟩ := of_list hresult
    refine ⟨hkeys, ?_, ?_, ?_⟩
    · intro i item o key hitem ho hkey hrepeats
      exact h.repeated hpairs hitem ho hkey hrepeats
    · intro i item o key hitem ho hkey hrepeats hversion
      exact h.nonces hpairs hitem ho hkey hrepeats hversion
    · intro i item o key hitem ho hkey hrepeats hzero
      exact h.identities hpairs hitem ho hkey hrepeats hzero
  · intro h
    refine ⟨fun hpairs judge => ?_, ?_⟩
    · obtain ⟨result, hresult⟩ := (h hpairs).exists_list judge
      exact ⟨result, hresult, fun i item hitem => (h hpairs).statusCode_eq hresult hitem⟩
    · intro userVerifier result hresult i j a b p hij ha hb hpa hpb x y hx hy
      exact at_most_one hresult hij ha hb hpa hpb hx hy

end ItemModule

end PrivmxEndpoint
