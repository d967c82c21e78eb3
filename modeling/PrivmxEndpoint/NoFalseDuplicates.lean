import PrivmxEndpoint.ListedItems

/-!
# An item next to others and alone

A listing compares the text `randomId-timestamp` of each item that passes its
check with those before it.  An item of version 5 takes the two from its signed
object.  For a legacy item an object is made up, with an empty random id and the
date of the last modification: two legacy items of one millisecond look like
copies of each other.  The text does not determine the pair either, and an item
that failed before moves the bridge identities of the others.  The keys of the
other items are asked for together with the item's own: one that shares its
random id and timestamp makes the item fail, one that does not decrypt the whole
listing.

A listing gives every item the status that it has alone exactly if none of this
happens (`ItemModule.no_false_duplicates_iff`).  Of two items of version 5 with
one pair at most one has status zero.
-/

namespace PrivmxEndpoint

open KeyProvider

variable {ι κ : Type}

/-! ## Files and messages -/

/-- The pair in the signed object of an item of version 5. -/
def ItemCrypto.signedPair (C : ItemCrypto) : ItemData → Option (Bytes × ℤ)
  | .version5 (.ok encrypted) =>
      match C.decodeAndVerify encrypted.dio with
      | .error _ => none
      | .ok dio => some (dio.randomId, dio.timestamp)
  | _ => none

/-- The object of an item that passes its check: the signed one, or the one that
stands for a legacy item. -/
def ItemCrypto.checkedObject (C : ItemCrypto) (F : ItemFormat) (data : ItemData)
    (x : SignedContext) : Option DataIntegrityObject :=
  match data with
  | .unknown => none
  | .legacy => some (x.legacyDio [])
  | .version5 (.error _) => none
  | .version5 (.ok encrypted) =>
      match C.getDIOAndAssertIntegrity F encrypted with
      | .error _ => none
      | .ok dio => if x.matches dio then some dio.unkeyed else none

section Checked

variable {C : ItemCrypto} {F : ItemFormat} {unknownFormat dataIntegrity : ErrorCode}
  {data : ItemData} {x : SignedContext}

/-- Without an object the check has failed. -/
theorem ItemCrypto.validateDataIntegrity_ne_zero (h : C.checkedObject F data x = none) :
    C.validateDataIntegrity F unknownFormat dataIntegrity data x ≠ 0 := by
  cases data with
  | unknown => exact unknownFormat.2
  | legacy => cases h
  | version5 encrypted =>
      cases encrypted with
      | error e => exact e.statusCode.2
      | ok encrypted =>
          simp only [ItemCrypto.checkedObject] at h
          simp only [ItemCrypto.validateDataIntegrity]
          cases hdio : C.getDIOAndAssertIntegrity F encrypted with
          | error e => exact e.statusCode.2
          | ok dio =>
              rw [hdio] at h
              dsimp only at h ⊢
              split at h
              · cases h
              · rename_i hmatch
                rw [if_neg hmatch]
                exact dataIntegrity.2

/-- What an object comes from. -/
theorem ItemCrypto.of_checkedObject {o : DataIntegrityObject}
    (h : C.checkedObject F data x = some o) :
    data = .legacy ∧ o = x.legacyDio [] ∨
      ∃ encrypted dio, data = .version5 (.ok encrypted) ∧
        C.getDIOAndAssertIntegrity F encrypted = .ok dio ∧ x.matches dio = true ∧
          o = dio.unkeyed := by
  cases data with
  | unknown => cases h
  | legacy => exact Or.inl ⟨rfl, (Option.some.inj h).symm⟩
  | version5 encrypted =>
      cases encrypted with
      | error e => cases h
      | ok encrypted =>
          simp only [ItemCrypto.checkedObject] at h
          cases hdio : C.getDIOAndAssertIntegrity F encrypted with
          | error e =>
              rw [hdio] at h
              cases h
          | ok dio =>
              rw [hdio] at h
              dsimp only at h
              split at h
              · rename_i hmatch
                exact Or.inr ⟨encrypted, dio, rfl, hdio, hmatch, (Option.some.inj h).symm⟩
              · cases h

/-- What has an object has passed the check. -/
theorem ItemCrypto.validateDataIntegrity_eq_zero {o : DataIntegrityObject}
    (h : C.checkedObject F data x = some o) :
    C.validateDataIntegrity F unknownFormat dataIntegrity data x = 0 := by
  rcases C.of_checkedObject h with ⟨rfl, -⟩ | ⟨encrypted, dio, rfl, hdio, hmatch, -⟩
  · rfl
  · simp only [ItemCrypto.validateDataIntegrity, hdio, if_pos hmatch]

/-- A decryption that can be checked has the checked object, whatever the key. -/
theorem ItemCrypto.decryptItemV5_dio {encrypted : EncryptedItemV5} {dio : DataIntegrityObject}
    (h : C.getDIOAndAssertIntegrity F encrypted = .ok dio) (key : ItemKey) :
    (C.decryptItemV5 F (.ok encrypted) key).dio = dio := by
  unfold ItemCrypto.decryptItemV5
  dsimp only
  split
  · simp only [ItemCrypto.readItem, h]
  · simp only [ItemCrypto.readItem, h]

/-- A key that has failed gives its status to an item of version 5. -/
theorem ItemCrypto.statusCode_decryptItemV5 (encrypted : EncryptedItemV5) {key : ItemKey}
    (h : key.statusCode ≠ 0) :
    (C.decryptItemV5 F (.ok encrypted) key).statusCode = key.statusCode := by
  unfold ItemCrypto.decryptItemV5
  dsimp only
  rw [if_pos h]

/-- The pair of an item that passes its check is that of its object. -/
theorem ItemCrypto.pair_of_checkedObject {p : Bytes × ℤ} {o : DataIntegrityObject}
    (hpair : C.signedPair data = some p) (ho : C.checkedObject F data x = some o) :
    (o.randomId, o.timestamp) = p := by
  rcases C.of_checkedObject ho with ⟨rfl, -⟩ | ⟨encrypted, dio, rfl, hdio, -, rfl⟩
  · cases hpair
  · obtain ⟨expanded, hdecode, rfl⟩ := C.decode_of_getDIO hdio
    rw [ItemCrypto.signedPair, hdecode] at hpair
    exact Option.some.inj hpair

end Checked

/-- A decrypted item of a kind, whose check has passed. -/
theorem ItemKind.attempt_eq {K : ItemKind ι κ} {item : ι}
    {decrypted : LibItem κ × DataIntegrityObject} (hvalid : K.validateDataIntegrity item = 0)
    (h : K.decryptAndConvert item = .ok decrypted) : K.attempt item = .ok (.ok decrypted) := by
  unfold ItemKind.attempt
  rw [dif_pos hvalid, h]

/-- `listFiles`. -/
def StoreApiImpl.fileModule (C : FileCrypto) (storeResourceId : Bytes) :
    ItemModule Server.File FileContent where
  keyId := Server.File.keyId
  kind := StoreApiImpl.fileKind C storeResourceId
  decrypt file key := (StoreApiImpl.decryptAndConvertFileDataToFileInfo C file key).1
  object file := C.checkedObject fileFormat file.info (file.signedContext storeResourceId)
  isVersion5 file := file.info.isVersion5
  pair file := C.signedPair file.info
  failed file ho := ⟨⟨_, C.validateDataIntegrity_ne_zero ho⟩, fun keyMap =>
    dif_neg (C.validateDataIntegrity_ne_zero ho)⟩
  passed file o ho keyMap key hkey := by
    have hdecrypt : (StoreApiImpl.fileKind C storeResourceId keyMap).decryptAndConvert file =
        .ok (StoreApiImpl.decryptAndConvertFileDataToFileInfo C file key) := by
      simp only [StoreApiImpl.fileKind, hkey]
      rfl
    refine ⟨_, ItemKind.attempt_eq (C.validateDataIntegrity_eq_zero ho) hdecrypt, ?_⟩
    rcases C.of_checkedObject ho with ⟨hinfo, rfl⟩ | ⟨encrypted, dio, hinfo, hdio, -, rfl⟩
    · simp only [hinfo]
      rfl
    · simp only [hinfo, ItemCrypto.decryptItemV5_dio hdio]
  decrypt_legacy file key key' hversion hsame := by
    unfold StoreApiImpl.decryptAndConvertFileDataToFileInfo
    cases hinfo : file.info with
    | unknown => rfl
    | legacy => dsimp only; rw [hsame]
    | version5 encrypted =>
        rw [hinfo] at hversion
        cases hversion
  statusCode_decrypt file o key ho hversion hkey := by
    rcases C.of_checkedObject ho with ⟨hinfo, -⟩ | ⟨encrypted, dio, hinfo, -, -, -⟩
    · rw [hinfo] at hversion
      cases hversion
    · have hstatus := C.statusCode_decryptItemV5 (F := fileFormat) encrypted hkey
      unfold StoreApiImpl.decryptAndConvertFileDataToFileInfo
      rw [hinfo]
      simp only [StoreApiImpl.convertDecryptedFileMetaV5ToFile, hstatus, if_neg hkey]
      rfl
  pair_eq file p o hpair ho := C.pair_of_checkedObject hpair ho

/-- `listMessages`. -/
def ThreadApiImpl.messageModule (C : MessageCrypto) (threadResourceId : Bytes) :
    ItemModule Server.Message MessageContent where
  keyId := Server.Message.keyId
  kind := ThreadApiImpl.messageKind C threadResourceId
  decrypt message key := (ThreadApiImpl.decryptAndConvertMessageDataToMessage C message key).1
  object message := C.checkedObject (messageFormat invalidEncryptedMessageDataVersion) message.data
    (message.signedContext threadResourceId)
  isVersion5 message := message.data.isVersion5
  pair message := C.signedPair message.data
  failed message ho := ⟨⟨_, C.validateDataIntegrity_ne_zero ho⟩, fun keyMap =>
    dif_neg (C.validateDataIntegrity_ne_zero ho)⟩
  passed message o ho keyMap key hkey := by
    have hdecrypt : (ThreadApiImpl.messageKind C threadResourceId keyMap).decryptAndConvert
        message = .ok (ThreadApiImpl.decryptAndConvertMessageDataToMessage C message key) := by
      simp only [ThreadApiImpl.messageKind, hkey]
      rfl
    refine ⟨_, ItemKind.attempt_eq (C.validateDataIntegrity_eq_zero ho) hdecrypt, ?_⟩
    rcases C.of_checkedObject ho with ⟨hdata, rfl⟩ | ⟨encrypted, dio, hdata, hdio, -, rfl⟩
    · simp only [hdata]
      rfl
    · simp only [hdata, ItemCrypto.decryptItemV5_dio hdio]
  decrypt_legacy message key key' hversion hsame := by
    unfold ThreadApiImpl.decryptAndConvertMessageDataToMessage
    cases hdata : message.data with
    | unknown => rfl
    | legacy => dsimp only; rw [hsame]
    | version5 encrypted =>
        rw [hdata] at hversion
        cases hversion
  statusCode_decrypt message o key ho hversion hkey := by
    rcases C.of_checkedObject ho with ⟨hdata, -⟩ | ⟨encrypted, dio, hdata, -, -, -⟩
    · rw [hdata] at hversion
      cases hversion
    · unfold ThreadApiImpl.decryptAndConvertMessageDataToMessage
      rw [hdata]
      exact C.statusCode_decryptItemV5 encrypted hkey
  pair_eq message p o hpair ho := C.pair_of_checkedObject hpair ho

/-- **No false duplicates.**  For every list of files, every list of messages,
and every set of keys of their container: the listing has no false duplicates
exactly if, where no pair occurs twice, no item is disturbed by the others. -/
theorem ItemModule.no_false_duplicates_iff (K : KeyCrypto) (privateKey : K.PrivateKey)
    (storeKeys : ModuleBaseApi.ModuleKeys) :
    (∀ (C : FileCrypto) (files : List Server.File),
        (StoreApiImpl.fileModule C storeKeys.moduleResourceId).NoFalseDuplicates K privateKey
            storeKeys files ↔
          ((StoreApiImpl.fileModule C storeKeys.moduleResourceId).DistinctPairs files →
            (StoreApiImpl.fileModule C storeKeys.moduleResourceId).Undisturbed K privateKey
              storeKeys files)) ∧
      ∀ (C : MessageCrypto) (messages : List Server.Message),
        (ThreadApiImpl.messageModule C storeKeys.moduleResourceId).NoFalseDuplicates K privateKey
            storeKeys messages ↔
          ((ThreadApiImpl.messageModule C storeKeys.moduleResourceId).DistinctPairs messages →
            (ThreadApiImpl.messageModule C storeKeys.moduleResourceId).Undisturbed K privateKey
              storeKeys messages) :=
  ⟨fun _ _ => noFalseDuplicates_iff, fun _ _ => noFalseDuplicates_iff⟩

/-! ### Legacy files -/

/-- Legacy files are decrypted. -/
def legacyFileCrypto : FileCrypto :=
  { sampleFileCrypto with
    decryptLegacy := fun file _ => ⟨⟨file.storeId, file.id, file.created, file.creator⟩,
      ⟨[], [], 0, 1, false⟩, [2], 0⟩ }

/-- A legacy file and the date of its last modification. -/
def sampleLegacyFile (id : Bytes) (lastModificationDate : ℤ) : Server.File :=
  { sampleServerFile [2] 1000000 with
    id := id
    lastModificationDate := lastModificationDate
    info := .legacy }

/-- A file of version 5 with another key. -/
def sampleSignedFile : Server.File :=
  { sampleServerFile [2] 1000000 with keyId := [12] }

/-- A key of version 1, and other entries. -/
def sampleListingKeys (entries : List KeyEntry) : ModuleBaseApi.ModuleKeys where
  keys := ⟨[11], .string [1, 5, 9]⟩ :: entries
  currentKeyId := [11]
  moduleSchemaVersion := 5
  moduleResourceId := [7]
  contextId := [3]

/-- Two legacy files of different milliseconds and a file of version 5. -/
def sampleListedFiles : List Server.File :=
  [sampleLegacyFile [1] 1000, sampleSignedFile, sampleLegacyFile [2] 1001]

/-- The texts of the three files differ. -/
theorem sampleListedFiles_fresh {i : ℕ} {file : Server.File} {o : DataIntegrityObject}
    (hfile : sampleListedFiles[i]? = some file)
    (ho : (StoreApiImpl.fileModule legacyFileCrypto [7]).object file = some o) :
    ¬ (StoreApiImpl.fileModule legacyFileCrypto [7]).Repeats sampleListedFiles i o := by
  intro hrepeats
  obtain ⟨earlier, hearlier, o', ho', htext⟩ := hrepeats
  match i, hfile with
  | 0, _ => cases hearlier
  | 1, hfile =>
      cases hfile
      cases ho
      obtain rfl := List.mem_singleton.mp hearlier
      cases ho'
      exact absurd htext (by decide)
  | 2, hfile =>
      cases hfile
      cases ho
      rcases List.mem_cons.mp hearlier with rfl | hearlier
      · cases ho'
        exact absurd htext (by decide)
      · obtain rfl := List.mem_singleton.mp hearlier
        cases ho'
        exact absurd htext (by decide)

/-- Two legacy files of different milliseconds and a file of version 5 with a key
of its own do not disturb each other. -/
theorem ItemModule.no_false_duplicates_sample :
    ∃ encrypted,
      EncKeyEncryptorV2.encrypt sampleKeyCrypto (sampleKeyToEncrypt [12]) (1 : UInt8) (2 : UInt8) =
          .ok encrypted ∧
        (StoreApiImpl.fileModule legacyFileCrypto [7]).NoFalseDuplicates sampleKeyCrypto (1 : UInt8)
          (sampleListingKeys [⟨[12], .object (.ok 2) (.ok encrypted)⟩])
          sampleListedFiles := by
  obtain ⟨encrypted, hencrypt, -⟩ := sampleKey_passes (List.cons_ne_nil 12 []) [12]
  refine ⟨encrypted, hencrypt, ?_⟩
  refine ((ItemModule.no_false_duplicates_iff sampleKeyCrypto (1 : UInt8)
    (sampleListingKeys [⟨[12], .object (.ok 2) (.ok encrypted)⟩])).1 legacyFileCrypto
    sampleListedFiles).mpr fun _ => ⟨?_, ?_, ?_, ?_⟩
  · intro file hfile
    simp only [sampleListedFiles, List.mem_cons, List.not_mem_nil, or_false] at hfile
    rcases hfile with rfl | rfl | rfl
    · exact ⟨_, rfl⟩
    · exact ⟨_, rfl⟩
    · exact ⟨_, rfl⟩
  · intro i file o key hfile ho _ hrepeats
    exact absurd hrepeats (sampleListedFiles_fresh hfile ho)
  · -- the other key has no creator, and is not compared
    intro i file o key hfile _ _ _ hversion hshares
    obtain ⟨-, other, hother, hne, otherKey, hkey, hcompared, -⟩ := hshares
    match i, hfile with
    | 0, hfile =>
        cases hfile
        cases hversion
    | 1, hfile =>
        cases hfile
        obtain rfl : other = [11] := by
          have hids : other = [11] ∨ other = [12] := by
            have hmem := List.mem_dedup.mp hother
            simp only [sampleListedFiles, List.map_cons, List.map_nil, List.mem_cons,
              List.not_mem_nil, or_false] at hmem
            rcases hmem with h | h | h
            · exact Or.inl h
            · exact Or.inr h
            · exact Or.inl h
          exact hids.resolve_right hne
        cases hkey
        exact hcompared.2 rfl
    | 2, hfile =>
        cases hfile
        cases hversion
  · intro i file o key hfile ho _ _ _
    refine ⟨o, ?_, rfl⟩
    obtain ⟨first, hfirst⟩ : ∃ o, (StoreApiImpl.fileModule legacyFileCrypto [7]).object
        (sampleLegacyFile [1] 1000) = some o := ⟨_, rfl⟩
    obtain ⟨second, hsecond⟩ : ∃ o, (StoreApiImpl.fileModule legacyFileCrypto [7]).object
        sampleSignedFile = some o := ⟨_, rfl⟩
    obtain ⟨third, hthird⟩ : ∃ o, (StoreApiImpl.fileModule legacyFileCrypto [7]).object
        (sampleLegacyFile [2] 1001) = some o := ⟨_, rfl⟩
    have hobjects : sampleListedFiles.filterMap
        (StoreApiImpl.fileModule legacyFileCrypto [7]).object = [first, second, third] := by
      rw [sampleListedFiles, List.filterMap_cons_some hfirst, List.filterMap_cons_some hsecond,
        List.filterMap_cons_some hthird, List.filterMap_nil]
    rw [show (sampleListingKeys [⟨[12], .object (.ok 2) (.ok encrypted)⟩]).moduleResourceId = [7]
      from rfl] at ho ⊢
    rw [hobjects]
    match i, hfile with
    | 0, hfile =>
        cases hfile
        exact hfirst.symm.trans ho
    | 1, hfile =>
        cases hfile
        exact hsecond.symm.trans ho
    | 2, hfile =>
        cases hfile
        exact hthird.symm.trans ho

/-- Two legacy files of one millisecond: the second one has status zero alone
and is a duplicate next to the first one. -/
theorem ItemModule.false_duplicate :
    (∃ alone, (StoreApiImpl.fileModule legacyFileCrypto [7]).list sampleKeyCrypto (1 : UInt8)
        (sampleListingKeys []) (.judging fun _ => true) [sampleLegacyFile [2] 1000] =
          .ok [alone] ∧ alone.statusCode = 0) ∧
      (∃ first second, (StoreApiImpl.fileModule legacyFileCrypto [7]).list sampleKeyCrypto
        (1 : UInt8) (sampleListingKeys []) (.judging fun _ => true)
        [sampleLegacyFile [1] 1000, sampleLegacyFile [2] 1000] = .ok [first, second] ∧
          second.statusCode = dataIntegrityObjectDuplicated.1) ∧
      ¬ (StoreApiImpl.fileModule legacyFileCrypto [7]).NoFalseDuplicates sampleKeyCrypto
        (1 : UInt8) (sampleListingKeys [])
        [sampleLegacyFile [1] 1000, sampleLegacyFile [2] 1000] := by
  refine ⟨⟨_, rfl, rfl⟩, ⟨_, _, rfl, rfl⟩, fun h => ?_⟩
  obtain ⟨result, hresult, hall⟩ := h.alone List.nodup_nil fun _ => true
  obtain ⟨x, alone, hx, halone, hstatus⟩ := hall 1 _ rfl
  cases hresult
  cases hx
  cases halone
  exact absurd hstatus (by decide)

end PrivmxEndpoint
