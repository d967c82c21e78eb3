import PrivmxEndpoint.ContainerKeyCache
import PrivmxEndpoint.KeyRequests
import PrivmxEndpoint.SignedItems
import PrivmxEndpoint.SubscriptionQuery

/-!
# A file on its own and in a listing

A file reaches the application through a listing, through `getFile` and in a
notification.  The listing checks the integrity of the record but not the format
of its key id.  The function behind the other two checks the format but not the
integrity; only `getFile` makes that check before it.

With the same keys and the same verifier the three agree on a record that some
key decrypts exactly if both checks pass or both fail
(`FileRecord.paths_agree_iff`).
-/

namespace PrivmxEndpoint

/-- `KeyIdFormatValidator::hasDefaultKeyIdFormat`. -/
def KeyIdFormatValidator.hasDefaultKeyIdFormat (keyId : Bytes) : Bool :=
  keyId.length = 32 && keyId.all fun c => c ∈ ascii "0123456789abcdefABCDEF"

/-- `FileKeyIdFormatValidator::assertKeyIdFormat`. -/
def FileKeyIdFormatValidator.assertKeyIdFormat (keyId : Bytes) : Except EndpointException Unit :=
  if KeyIdFormatValidator.hasDefaultKeyIdFormat keyId then .ok ()
  else .error (.core ⟨0x00040012, by decide⟩)

/-- A file as the server sends it, and the exception that reading the version of
its metadata ends with, if there is one. -/
structure FileRecord where
  file : Server.File
  unreadable : Option EndpointException

/-- A key provider: the keys for a request. -/
abbrev GetKeysAndVerify :=
  KeyRequest → Except EndpointException (List (EncKeyLocation × List (Bytes × ItemKey)))

/-- Two additions to an empty request that ask for one key id. -/
theorem KeyRequest.addMany_singleton (keys : List KeyEntry) (keyId : Bytes)
    (location : EncKeyLocation) :
    KeyRequest.addMany [] keys [keyId] location = KeyRequest.addOne [] keys keyId location := by
  have hentries : ∀ keys : List KeyEntry, (firstEntries keys [keyId]).1 ++
      (firstEntries keys [keyId]).2.map (fun id => KeyEntry.mk id .empty) =
        [(keys.find? (·.keyId = keyId)).getD ⟨keyId, .empty⟩] := by
    intro keys
    induction keys with
    | nil => rfl
    | cons key keys ih =>
        have hnone : ∀ keys : List KeyEntry, firstEntries keys [] = ([], []) := by
          intro keys
          induction keys with
          | nil => rfl
          | cons key keys ih => rw [firstEntries, if_neg List.not_mem_nil, ih]
        rw [firstEntries]
        by_cases hkey : key.keyId = keyId
        · simp [hkey, hnone]
        · simp only [List.mem_singleton, hkey, if_false, ih, List.find?_cons, decide_false]
  rw [KeyRequest.addOne, ← hentries]
  rfl

namespace FileRecord

variable (C : FileCrypto)

/-- `StoreApiImpl::validateFileDataIntegrity`, which handles every exception. -/
def validateFileDataIntegrity (r : FileRecord) (storeResourceId : Bytes) : Nat :=
  match r.unreadable with
  | some e => e.statusCode.1
  | none => StoreApiImpl.validateFileDataIntegrity C r.file storeResourceId

/-- `StoreApiImpl::decryptAndConvertFileDataToFileInfo`. -/
def decryptAndConvertFileDataToFileInfo (r : FileRecord) (encKey : ItemKey) :
    Except EndpointException (LibItem FileContent × DataIntegrityObject) :=
  match r.unreadable with
  | some e => .error e
  | none => .ok (StoreApiImpl.decryptAndConvertFileDataToFileInfo C r.file encKey)

/-- `convertServerFileToLibFile(file, {}, {}, {}, {}, statusCode)`. -/
def convertServerFileToLibFile (r : FileRecord) (statusCode : Nat) : LibItem FileContent :=
  StoreApiImpl.convertServerFileToLibFile r.file ⟨[], [], 0, 0, false⟩ [] statusCode

/-- The listing of file records. -/
def kind (storeResourceId : Bytes) (keyMap : List (Bytes × ItemKey)) :
    ItemKind FileRecord FileContent where
  validateDataIntegrity r := r.validateFileDataIntegrity C storeResourceId
  decryptAndConvert r :=
    match keyAt keyMap r.file.keyId with
    | .error e => .error e
    | .ok encKey => r.decryptAndConvertFileDataToFileInfo C encKey
  convertServerItem := convertServerFileToLibFile
  handle
    | .core code => .ok code
    | e => .error e
  statusCode_convertServerItem _ _ := rfl

variable (getKeysAndVerify : GetKeysAndVerify) (userVerifier : UserVerifierInterface)

/-- `StoreApiImpl::validateDecryptAndConvertFilesDataToFilesInfo`.  The order of
the key ids is not seen in the request. -/
def validateDecryptAndConvertFilesDataToFilesInfo (files : List FileRecord)
    (storeKeys : ModuleBaseApi.ModuleKeys) : Except ListingError (List (LibItem FileContent)) :=
  let keyIds := (files.map (·.file.keyId)).dedup
  let location : EncKeyLocation := ⟨storeKeys.contextId, storeKeys.moduleResourceId⟩
  match getKeysAndVerify (KeyRequest.addMany [] storeKeys.keys keyIds location) with
  | .error e => .error (.thrown e)
  | .ok keys =>
      match mapAt location keys with
      | .error e => .error (.thrown e)
      | .ok keyMap =>
          (kind C storeKeys.moduleResourceId keyMap).validateDecryptAndConvert storeKeys.contextId
            userVerifier files

/-- `_keyProvider->getKeysAndVerify(…).at(location).at(keyId)`. -/
def encKey (r : FileRecord) (storeKeys : ModuleBaseApi.ModuleKeys) :
    Except EndpointException ItemKey := do
  let location : EncKeyLocation := ⟨r.file.contextId, storeKeys.moduleResourceId⟩
  let keys ← getKeysAndVerify (KeyRequest.addOne [] storeKeys.keys r.file.keyId location)
  let keyMap ← mapAt location keys
  keyAt keyMap r.file.keyId

/-- The body of `StoreApiImpl::validateDecryptAndConvertFileDataToFileInfo`.
There is one verdict, as there is one request. -/
def tryConvert (r : FileRecord) (storeKeys : ModuleBaseApi.ModuleKeys) :
    Except EndpointException (LibItem FileContent) := do
  FileKeyIdFormatValidator.assertKeyIdFormat r.file.keyId
  let encKey ← r.encKey getKeysAndVerify storeKeys
  let (result, fileDIO) ← r.decryptAndConvertFileDataToFileInfo C encKey
  if result.statusCode ≠ 0 then
    .ok result
  else
    let verified ← UserVerifier.verify userVerifier
      [result.verificationRequest r.file.contextId fileDIO.bridgeIdentity]
    .ok (result.withVerdict (verified.headD false))

/-- `StoreApiImpl::validateDecryptAndConvertFileDataToFileInfo`, the path of the
notifications. -/
def validateDecryptAndConvertFileDataToFileInfo (r : FileRecord)
    (storeKeys : ModuleBaseApi.ModuleKeys) : LibItem FileContent :=
  match r.tryConvert C getKeysAndVerify userVerifier storeKeys with
  | .ok result => result
  | .error e => r.convertServerFileToLibFile e.statusCode.1

/-- The `File` that the default constructor makes, with a status. -/
def emptyFile (statusCode : Nat) : LibItem FileContent where
  info := ⟨[], [], 0, []⟩
  content := ⟨[], [], 0, 0, false⟩
  authorPubKey := []
  statusCode := statusCode

/-- `StoreApiImpl::getFile` after the check of the store. -/
def getFile (r : FileRecord) (storeKeys : ModuleBaseApi.ModuleKeys) : LibItem FileContent :=
  let statusCode := r.validateFileDataIntegrity C storeKeys.moduleResourceId
  if statusCode ≠ 0 then
    emptyFile statusCode
  else
    r.validateDecryptAndConvertFileDataToFileInfo C getKeysAndVerify userVerifier storeKeys

/-! ### What the paths accept -/

/-- The provided key decrypts the record to this file, of status zero, and the
verifier accepts its author. -/
def Accepted (r : FileRecord) (storeKeys : ModuleBaseApi.ModuleKeys) (x : LibItem FileContent) :
    Prop :=
  ∃ key dio, r.encKey getKeysAndVerify storeKeys = .ok key ∧
    r.decryptAndConvertFileDataToFileInfo C key = .ok (x, dio) ∧ x.statusCode = 0 ∧
    UserVerifier.verify userVerifier [x.verificationRequest r.file.contextId dio.bridgeIdentity] =
      .ok [true]

section Accepted

variable {C : FileCrypto} {getKeysAndVerify : GetKeysAndVerify}
  {userVerifier : UserVerifierInterface} {r : FileRecord} {storeKeys : ModuleBaseApi.ModuleKeys}
  {x : LibItem FileContent}

/-- The body ends with a file of status zero if the format fits and the record
is accepted. -/
theorem tryConvert_eq_ok_iff :
    r.tryConvert C getKeysAndVerify userVerifier storeKeys = .ok x ∧ x.statusCode = 0 ↔
      KeyIdFormatValidator.hasDefaultKeyIdFormat r.file.keyId = true ∧
        r.Accepted C getKeysAndVerify userVerifier storeKeys x := by
  constructor
  · intro h
    obtain ⟨hrun, hzero⟩ := h
    obtain ⟨_, hformat, hrun⟩ := Throwing.bind_eq_ok hrun
    obtain ⟨key, hkey, hrun⟩ := Throwing.bind_eq_ok hrun
    obtain ⟨⟨y, dio⟩, hdecrypt, hrun⟩ := Throwing.bind_eq_ok hrun
    have hvalid : KeyIdFormatValidator.hasDefaultKeyIdFormat r.file.keyId = true := by
      by_contra hnot
      rw [FileKeyIdFormatValidator.assertKeyIdFormat, if_neg hnot] at hformat
      cases hformat
    dsimp only at hrun
    split at hrun
    · rename_i hy
      cases hrun
      exact absurd hzero hy
    · rename_i hy
      obtain ⟨verified, hverify, hrun⟩ := Throwing.bind_eq_ok hrun
      obtain ⟨verdict, rfl⟩ : ∃ verdict, verified = [verdict] :=
        List.length_eq_one_iff.mp (UserVerifier.length_verify hverify)
      obtain rfl := Except.ok.inj hrun
      cases verdict with
      | false => exact absurd hzero userVerificationFailure.2
      | true =>
          obtain ⟨info, content, authorPubKey, statusCode⟩ := y
          obtain rfl : statusCode = 0 := not_not.mp hy
          exact ⟨hvalid, key, dio, hkey, hdecrypt, rfl, hverify⟩
  · intro h
    obtain ⟨hvalid, key, dio, hkey, hdecrypt, hzero, hverify⟩ := h
    refine ⟨?_, hzero⟩
    simp only [tryConvert, FileKeyIdFormatValidator.assertKeyIdFormat, if_pos hvalid, hkey,
      hdecrypt, hverify, hzero, bind, Except.bind, ne_eq, not_true_eq_false, if_false,
      List.headD_cons]
    obtain ⟨info, content, authorPubKey, statusCode⟩ := x
    obtain rfl : statusCode = 0 := hzero
    rfl

/-- **The path of the notifications.** -/
theorem notified_iff :
    r.validateDecryptAndConvertFileDataToFileInfo C getKeysAndVerify userVerifier storeKeys = x ∧
        x.statusCode = 0 ↔
      KeyIdFormatValidator.hasDefaultKeyIdFormat r.file.keyId = true ∧
        r.Accepted C getKeysAndVerify userVerifier storeKeys x := by
  rw [← tryConvert_eq_ok_iff, validateDecryptAndConvertFileDataToFileInfo]
  cases r.tryConvert C getKeysAndVerify userVerifier storeKeys with
  | ok y => simp only [Except.ok.injEq]
  | error e =>
      simp only [reduceCtorEq, false_and, iff_false, not_and]
      intro hx hzero
      rw [← hx] at hzero
      exact e.statusCode.2 hzero

/-- **The path of `getFile`.** -/
theorem getFile_iff :
    r.getFile C getKeysAndVerify userVerifier storeKeys = x ∧ x.statusCode = 0 ↔
      r.validateFileDataIntegrity C storeKeys.moduleResourceId = 0 ∧
        KeyIdFormatValidator.hasDefaultKeyIdFormat r.file.keyId = true ∧
        r.Accepted C getKeysAndVerify userVerifier storeKeys x := by
  rw [getFile]
  by_cases hvalid : r.validateFileDataIntegrity C storeKeys.moduleResourceId = 0
  · simp only [hvalid, ne_eq, not_true_eq_false, if_false, true_and]
    exact notified_iff
  · simp only [ne_eq, hvalid, not_false_eq_true, if_true, false_and, iff_false, not_and]
    intro hx hzero
    rw [← hx] at hzero
    exact hvalid hzero

/-- **The path of the listing.** -/
theorem listed_iff (hcontext : storeKeys.contextId = r.file.contextId) :
    validateDecryptAndConvertFilesDataToFilesInfo C getKeysAndVerify userVerifier [r] storeKeys =
          .ok [x] ∧ x.statusCode = 0 ↔
      r.validateFileDataIntegrity C storeKeys.moduleResourceId = 0 ∧
        r.Accepted C getKeysAndVerify userVerifier storeKeys x := by
  have hrequest : KeyRequest.addMany [] storeKeys.keys ([r].map (·.file.keyId)).dedup
      ⟨storeKeys.contextId, storeKeys.moduleResourceId⟩ =
        KeyRequest.addOne [] storeKeys.keys r.file.keyId
          ⟨r.file.contextId, storeKeys.moduleResourceId⟩ := by
    rw [hcontext]
    exact KeyRequest.addMany_singleton _ _ _
  unfold validateDecryptAndConvertFilesDataToFilesInfo Accepted encKey
  dsimp only
  rw [hrequest, hcontext]
  cases getKeysAndVerify (KeyRequest.addOne [] storeKeys.keys r.file.keyId
      ⟨r.file.contextId, storeKeys.moduleResourceId⟩) with
  | error e => simp [bind, Except.bind]
  | ok keys =>
      dsimp only [bind, Except.bind]
      cases mapAt (⟨r.file.contextId, storeKeys.moduleResourceId⟩ : EncKeyLocation) keys with
      | error e => simp
      | ok keyMap =>
          dsimp only
          rw [ItemKind.listed_alone_iff]
          constructor
          · intro h
            obtain ⟨dio, hout, hzero, hverify⟩ := h
            obtain ⟨hvalid, hdecrypt⟩ := (ItemKind.outcome_eq_ok_iff _).mp hout
            dsimp only [kind] at hvalid hdecrypt
            cases hkey : keyAt keyMap r.file.keyId with
            | error e =>
                rw [hkey] at hdecrypt
                cases hdecrypt
            | ok key =>
                rw [hkey] at hdecrypt
                exact ⟨hvalid, key, dio, rfl, hdecrypt, hzero, hverify⟩
          · intro h
            obtain ⟨hvalid, key, dio, hkey, hdecrypt, hzero, hverify⟩ := h
            refine ⟨dio, (ItemKind.outcome_eq_ok_iff _).mpr ⟨hvalid, ?_⟩, hzero, hverify⟩
            simp only [kind, hkey, hdecrypt]

end Accepted

/-! ### Agreement -/

/-- No path gives the record the status zero: both single paths give it another
one, and so does the listing, if it returns. -/
structure Refused (C : FileCrypto) (getKeysAndVerify : GetKeysAndVerify)
    (userVerifier : UserVerifierInterface) (r : FileRecord)
    (storeKeys : ModuleBaseApi.ModuleKeys) : Prop where
  fetched : (r.getFile C getKeysAndVerify userVerifier storeKeys).statusCode ≠ 0
  notified : (r.validateDecryptAndConvertFileDataToFileInfo C getKeysAndVerify userVerifier
    storeKeys).statusCode ≠ 0
  listed : ∀ files,
    validateDecryptAndConvertFilesDataToFilesInfo C getKeysAndVerify userVerifier [r] storeKeys =
      .ok files → ∃ x, files = [x] ∧ x.statusCode ≠ 0

/-- The three paths agree on a record: they give it the status zero together and
then return the same file, and none does if its integrity, its decryption or the
format of its key id fails. -/
structure PathsAgree (C : FileCrypto) (getKeysAndVerify : GetKeysAndVerify)
    (userVerifier : UserVerifierInterface) (r : FileRecord)
    (storeKeys : ModuleBaseApi.ModuleKeys) : Prop where
  fetched : ∀ x, r.getFile C getKeysAndVerify userVerifier storeKeys = x ∧ x.statusCode = 0 ↔
    validateDecryptAndConvertFilesDataToFilesInfo C getKeysAndVerify userVerifier [r] storeKeys =
      .ok [x] ∧ x.statusCode = 0
  notified : ∀ x,
    r.validateDecryptAndConvertFileDataToFileInfo C getKeysAndVerify userVerifier storeKeys = x ∧
        x.statusCode = 0 ↔
      validateDecryptAndConvertFilesDataToFilesInfo C getKeysAndVerify userVerifier [r] storeKeys =
        .ok [x] ∧ x.statusCode = 0
  integrity : r.validateFileDataIntegrity C storeKeys.moduleResourceId ≠ 0 →
    Refused C getKeysAndVerify userVerifier r storeKeys
  decryption : (∀ key, r.encKey getKeysAndVerify storeKeys = .ok key →
      ∃ e, r.decryptAndConvertFileDataToFileInfo C key = .error e) →
    Refused C getKeysAndVerify userVerifier r storeKeys
  keyIdFormat : KeyIdFormatValidator.hasDefaultKeyIdFormat r.file.keyId = false →
    Refused C getKeysAndVerify userVerifier r storeKeys

section Agreement

variable {C : FileCrypto} {getKeysAndVerify : GetKeysAndVerify}
  {userVerifier : UserVerifierInterface} {r : FileRecord} {storeKeys : ModuleBaseApi.ModuleKeys}

/-- A record that is not accepted is refused, and so is one that fails both
checks. -/
theorem refused_of (hcontext : storeKeys.contextId = r.file.contextId)
    (h : ∀ x, r.Accepted C getKeysAndVerify userVerifier storeKeys x →
      r.validateFileDataIntegrity C storeKeys.moduleResourceId ≠ 0 ∧
        KeyIdFormatValidator.hasDefaultKeyIdFormat r.file.keyId = false) :
    Refused C getKeysAndVerify userVerifier r storeKeys := by
  refine ⟨fun hzero => ?_, fun hzero => ?_, fun files hfiles => ?_⟩
  · obtain ⟨hvalid, -, hacc⟩ := getFile_iff.mp ⟨rfl, hzero⟩
    exact (h _ hacc).1 hvalid
  · obtain ⟨hformat, hacc⟩ := notified_iff.mp ⟨rfl, hzero⟩
    exact absurd hformat (Bool.eq_false_iff.mp (h _ hacc).2)
  · obtain ⟨x, rfl⟩ : ∃ x, files = [x] := by
      unfold validateDecryptAndConvertFilesDataToFilesInfo at hfiles
      dsimp only at hfiles
      split at hfiles
      · cases hfiles
      · split at hfiles
        · cases hfiles
        · exact ItemKind.eq_singleton_of_listed _ hfiles
    refine ⟨x, rfl, fun hzero => ?_⟩
    obtain ⟨hvalid, hacc⟩ := (listed_iff hcontext).mp ⟨hfiles, hzero⟩
    exact (h x hacc).1 hvalid

/-- The paths agree if the two checks agree on a record that is accepted. -/
theorem pathsAgree_iff (hcontext : storeKeys.contextId = r.file.contextId) :
    PathsAgree C getKeysAndVerify userVerifier r storeKeys ↔
      ((∃ x, r.Accepted C getKeysAndVerify userVerifier storeKeys x) →
        (r.validateFileDataIntegrity C storeKeys.moduleResourceId = 0 ↔
          KeyIdFormatValidator.hasDefaultKeyIdFormat r.file.keyId = true)) := by
  constructor
  · intro h haccepted
    obtain ⟨x, hacc⟩ := haccepted
    constructor
    · intro hvalid
      have hlisted := (listed_iff hcontext).mpr ⟨hvalid, hacc⟩
      exact (notified_iff.mp ((h.notified x).mpr hlisted)).1
    · intro hformat
      have hnotified := notified_iff.mpr ⟨hformat, hacc⟩
      exact ((listed_iff hcontext).mp ((h.notified x).mp hnotified)).1
  · intro h
    refine ⟨fun x => ?_, fun x => ?_, fun hvalid => ?_, fun hdecrypt => ?_, fun hformat => ?_⟩
    · rw [getFile_iff, listed_iff hcontext]
      constructor
      · intro hx
        exact ⟨hx.1, hx.2.2⟩
      · intro hx
        exact ⟨hx.1, (h ⟨x, hx.2⟩).mp hx.1, hx.2⟩
    · rw [notified_iff, listed_iff hcontext]
      constructor
      · intro hx
        exact ⟨(h ⟨x, hx.2⟩).mpr hx.1, hx.2⟩
      · intro hx
        exact ⟨(h ⟨x, hx.2⟩).mp hx.1, hx.2⟩
    · refine refused_of hcontext fun x hacc => ⟨hvalid, ?_⟩
      exact Bool.eq_false_iff.mpr fun hformat => hvalid ((h ⟨x, hacc⟩).mpr hformat)
    · refine refused_of hcontext fun x hacc => ?_
      obtain ⟨key, dio, hkey, hok, -⟩ := hacc
      obtain ⟨e, he⟩ := hdecrypt key hkey
      rw [he] at hok
      cases hok
    · refine refused_of hcontext fun x hacc => ⟨fun hvalid => ?_, hformat⟩
      exact absurd ((h ⟨x, hacc⟩).mp hvalid) (Bool.eq_false_iff.mp hformat)

end Agreement

/-- Some key decrypts the record to a file of status zero. -/
def Decryptable (C : FileCrypto) (r : FileRecord) : Prop :=
  ∃ key x dio, r.decryptAndConvertFileDataToFileInfo C key = .ok (x, dio) ∧ x.statusCode = 0

/-- **Single files and listed files.**  For every record and every set of keys
of its context, the three paths agree whatever the key provider and the user
verifier do exactly if no key decrypts the record, or it passes the check of its
integrity just when the format of its key id is the expected one. -/
theorem paths_agree_iff (C : FileCrypto) (r : FileRecord) (storeKeys : ModuleBaseApi.ModuleKeys)
    (hcontext : storeKeys.contextId = r.file.contextId) :
    (∀ getKeysAndVerify userVerifier, PathsAgree C getKeysAndVerify userVerifier r storeKeys) ↔
      (r.Decryptable C →
        (r.validateFileDataIntegrity C storeKeys.moduleResourceId = 0 ↔
          KeyIdFormatValidator.hasDefaultKeyIdFormat r.file.keyId = true)) := by
  constructor
  · intro h hdecryptable
    obtain ⟨key, x, dio, hok, hzero⟩ := hdecryptable
    -- a provider that has just this key, and a verifier that accepts everything
    let location : EncKeyLocation := ⟨r.file.contextId, storeKeys.moduleResourceId⟩
    have hagree := h (fun _ => .ok [(location, [(r.file.keyId, key)])])
      (fun requests => some (requests.map fun _ => true))
    refine (pathsAgree_iff hcontext).mp hagree ⟨x, key, dio, ?_, hok, hzero, rfl⟩
    simp [encKey, bind, Except.bind, mapAt, keyAt, location]
  · intro h getKeysAndVerify userVerifier
    refine (pathsAgree_iff hcontext).mpr fun haccepted => h ?_
    obtain ⟨x, key, dio, -, hok, hzero, -⟩ := haccepted
    exact ⟨key, x, dio, hok, hzero⟩

/-- A file of user 2 under a key id, in a store. -/
def sample (keyId storeId : Bytes) : FileRecord where
  file := { sampleServerFile [2] 1000000 with
    keyId := keyId
    storeId := storeId }
  unreadable := none

/-- A key id of the expected format. -/
def sampleKeyId : Bytes := ascii "0123456789abcdef0123456789abcdef"

/-- The keys of the store of the samples. -/
def sampleStoreKeys : ModuleBaseApi.ModuleKeys where
  keys := []
  currentKeyId := []
  moduleSchemaVersion := 5
  moduleResourceId := [7]
  contextId := [3]

/-- A provider of one key. -/
def sampleKeys (keyId : Bytes) : GetKeysAndVerify := fun _ =>
  .ok [(⟨[3], [7]⟩, [(keyId, ⟨[], 0⟩)])]

/-- A verifier that accepts everything. -/
def acceptAll : UserVerifierInterface := fun requests => some (requests.map fun _ => true)

theorem paths_agree_sample :
    PathsAgree sampleFileCrypto (sampleKeys sampleKeyId) acceptAll (sample sampleKeyId [6])
      sampleStoreKeys :=
  (paths_agree_iff sampleFileCrypto (sample sampleKeyId [6]) sampleStoreKeys rfl).mpr
    (fun _ => ⟨fun _ => by decide, fun _ => by decide⟩) _ _

/-- A record that names another store than its signed object has status zero in
a notification only, and one with a short key id in the listing only. -/
theorem paths_disagree :
    ((sample sampleKeyId [66]).validateDecryptAndConvertFileDataToFileInfo sampleFileCrypto
        (sampleKeys sampleKeyId) acceptAll sampleStoreKeys).statusCode = 0 ∧
      ((sample sampleKeyId [66]).getFile sampleFileCrypto (sampleKeys sampleKeyId) acceptAll
        sampleStoreKeys).statusCode = 0x00040028 ∧
      ¬ PathsAgree sampleFileCrypto (sampleKeys sampleKeyId) acceptAll (sample sampleKeyId [66])
        sampleStoreKeys ∧
      (∃ x, validateDecryptAndConvertFilesDataToFilesInfo sampleFileCrypto (sampleKeys [11])
        acceptAll [sample [11] [6]] sampleStoreKeys = .ok [x] ∧ x.statusCode = 0) ∧
      ((sample [11] [6]).getFile sampleFileCrypto (sampleKeys [11]) acceptAll
        sampleStoreKeys).statusCode = 0x00040012 ∧
      ¬ PathsAgree sampleFileCrypto (sampleKeys [11]) acceptAll (sample [11] [6])
        sampleStoreKeys := by
  have hnotified : ((sample sampleKeyId [66]).validateDecryptAndConvertFileDataToFileInfo
      sampleFileCrypto (sampleKeys sampleKeyId) acceptAll sampleStoreKeys).statusCode = 0 := rfl
  have hlisted : ∃ x, validateDecryptAndConvertFilesDataToFilesInfo sampleFileCrypto
      (sampleKeys [11]) acceptAll [sample [11] [6]] sampleStoreKeys = .ok [x] ∧
        x.statusCode = 0 := ⟨_, rfl, rfl⟩
  refine ⟨hnotified, rfl, fun h => ?_, hlisted, rfl, fun h => ?_⟩
  · exact (h.integrity (by decide)).notified hnotified
  · obtain ⟨x, hx, hzero⟩ := hlisted
    obtain ⟨y, hy, hne⟩ := (h.keyIdFormat (by decide)).listed _ hx
    obtain rfl := List.head_eq_of_cons_eq hy
    exact hne hzero

end FileRecord

end PrivmxEndpoint
