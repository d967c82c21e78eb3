import PrivmxEndpoint.InboxCodec
import PrivmxEndpoint.KeyProvider

/-!
# Reading the entries of an inbox

`InboxApiImpl::decryptInboxEntry` looks up the inbox key that a message names,
unpacks the message with it and reports the status of the key.  The status of
the unpacking itself is not looked at.  Nor is the sender that a message names
compared with the sender of its encrypted part.
-/

namespace PrivmxEndpoint

namespace Inbox

/-- `inbox::server::InboxMessageServer`, without the version that nothing here
reads. -/
structure InboxMessageServer where
  message : Bytes
  store : Bytes
  files : List Bytes
  deriving Repr, DecidableEq

/-- `core::ModuleKeys`, as far as an entry needs them. -/
structure ModuleKeys where
  keys : List KeyEntry
  moduleResourceId : Bytes
  contextId : Bytes

/-- `InboxEntryResult`. -/
structure InboxEntryResult extends InboxEntryDataResult where
  storeId : Bytes
  filesIds : List Bytes
  deriving Repr, DecidableEq

/-- `FailedToExtractMessagePublicMetaException`. -/
def failedToExtractMessagePublicMeta : ErrorCode := ⟨0x00070009, by decide⟩

/-- What an `InboxApiImpl` uses to read entries. -/
structure InboxReader where
  crypto : InboxCrypto
  reader : BinaryReader
  keyCrypto : KeyCrypto
  userPrivKey : keyCrypto.PrivateKey
  userVerifier : UserVerifierInterface
  /-- Base64, the JSON parser and `InboxMessageServer::fromJSON`; `none` is an
  exception. -/
  parseInboxMessage : Bytes → Option InboxMessageServer
  /-- A truth value that is not initialized. -/
  uninitialized : Bool

namespace InboxReader

variable (I : InboxReader)

/-- `unpackInboxOrigMessage`. -/
def unpackInboxOrigMessage (serialized : Bytes) : Except EndpointException InboxMessageServer :=
  match I.parseInboxMessage serialized with
  | some inboxMessageServer => .ok inboxMessageServer
  | none => .error (.core failedToExtractMessagePublicMeta)

/-- `_keyProvider->getKeysAndVerify(…).at(location).at(usedInboxKeyId)`. -/
def getInboxKey (inboxKeys : ModuleKeys) (usedInboxKeyId : Bytes) :
    Except EndpointException DecryptedEncKeyV2 := do
  let location : EncKeyLocation :=
    { contextId := inboxKeys.contextId, resourceId := inboxKeys.moduleResourceId }
  let keyProviderRequest := KeyRequest.addOne [] inboxKeys.keys usedInboxKeyId location
  let keys ← KeyProvider.getKeysAndVerify I.keyCrypto I.userPrivKey I.userVerifier
    keyProviderRequest
  let keysAtLocation ← mapAt location keys
  mapAt usedInboxKeyId keysAtLocation

/-- What `decryptInboxEntry` does before it unpacks the message: the server's
record, the key and the key's private half. -/
def findInboxKey (messageData : Bytes) (inboxKeys : ModuleKeys) :
    Except EndpointException
      (InboxMessageServer × DecryptedEncKeyV2 × I.crypto.PrivateKey) := do
  let inboxMessageServer ← I.unpackInboxOrigMessage messageData
  let msgPublicData := unpackMessagePublicOnly I.crypto I.reader I.uninitialized
    inboxMessageServer.message
  let encKey ← I.getInboxKey inboxKeys msgPublicData.usedInboxKeyId
  let privKeyECC ← I.crypto.fromPrivateKey encKey.key
  return (inboxMessageServer, encKey, privKeyECC)

/-- `unpackMessage` of a record. -/
def unpack (inboxMessageServer : InboxMessageServer) (privKeyECC : I.crypto.PrivateKey) :
    InboxEntryDataResult :=
  unpackMessage I.crypto I.reader I.uninitialized inboxMessageServer.message privKeyECC

/-- `getEmptyResultWithStatusCode`. -/
def getEmptyResultWithStatusCode (statusCode : Nat) : InboxEntryResult where
  publicData := .initial I.uninitialized
  privateData := { filesMetaKey := [], text := [] }
  statusCode := statusCode
  storeId := []
  filesIds := []

/-- `InboxApiImpl::decryptInboxEntry`. -/
def decryptInboxEntry (messageData : Bytes) (inboxKeys : ModuleKeys) : InboxEntryResult :=
  match I.findInboxKey messageData inboxKeys with
  | .ok (inboxMessageServer, encKey, privKeyECC) =>
      { publicData := (I.unpack inboxMessageServer privKeyECC).publicData
        privateData := (I.unpack inboxMessageServer privKeyECC).privateData
        -- the status of the unpacking is dropped
        statusCode := encKey.statusCode
        storeId := inboxMessageServer.store
        filesIds := inboxMessageServer.files }
  | .error e => I.getEmptyResultWithStatusCode e.statusCode

end InboxReader

/-- `inbox::InboxEntry`, without the fields that are copied from the server's
message. -/
structure InboxEntry (File : Type) where
  data : Bytes
  files : List File
  authorPubKey : Bytes
  statusCode : Nat

/-- `InboxApiImpl::convertInboxEntry`.  `getFiles` asks the server for the files
of an entry and decrypts their records with the file key. -/
def convertInboxEntry {File : Type}
    (getFiles : Bytes → List Bytes → Bytes → Except EndpointException (List File))
    (inboxEntry : InboxEntryResult) : InboxEntry File :=
  let result : InboxEntry File :=
    { data := inboxEntry.privateData.text
      files := []
      authorPubKey := inboxEntry.publicData.userPubKey
      statusCode := inboxEntry.statusCode }
  if inboxEntry.statusCode = 0 then
    match getFiles inboxEntry.storeId inboxEntry.filesIds
        inboxEntry.privateData.filesMetaKey with
    | .ok files => { result with files := files }
    | .error e => { result with statusCode := e.statusCode }
  else
    result

/-! ### The status of an entry -/

/-- A message that can be read with a key: it is Base64; behind its first block
stands a frame for this key that decrypts; and the file key in the plain text is
Base64. -/
structure Readable (C : InboxCrypto) (serialized : Bytes) (inboxPriv : C.PrivateKey) : Prop where
  reads : ∃ whole plain filesMetaKey, C.base64ToString serialized = .ok whole ∧
    EciesEncryptor.decrypt C inboxPriv (whole.tail.drop (whole.headD 0).toNat) none =
      .ok plain ∧
    C.base64ToString (plain.tail.take (plain.headD 0).toNat) = .ok filesMetaKey

namespace InboxReader

variable {I : InboxReader}

/-- The buffer is as long as its first byte says, or shorter. -/
theorem readOneOctetLengthBuffer_eq (R : BinaryReader) (s : Bytes) :
    (R.readOneOctetLengthBuffer (R.ofString s)).1 = s.tail.take (s.headD 0).toNat ∧
      R.ahead (R.readOneOctetLengthBuffer (R.ofString s)).2 =
        s.tail.drop (s.headD 0).toNat := by
  cases s with
  | nil =>
      obtain ⟨hread, hahead⟩ :=
        BinaryReader.readOneOctetLengthBuffer_of_nil (R.ahead_ofString [])
      exact ⟨hread.trans List.take_nil.symm, hahead.trans List.drop_nil.symm⟩
  | cons b rest => exact BinaryReader.readOneOctetLengthBuffer_of_cons (R.ahead_ofString _)

/-- What `unpackMessage` reads, in terms of the bytes of the message. -/
theorem openMessage_eq (C : InboxCrypto) (R : BinaryReader) (serialized : Bytes)
    (inboxPriv : C.PrivateKey) :
    openMessage C R serialized inboxPriv =
      (do
        let whole ← C.base64ToString serialized
        let plain ← EciesEncryptor.decrypt C inboxPriv
          (whole.tail.drop (whole.headD 0).toNat) none
        let filesMetaKey ← C.base64ToString (plain.tail.take (plain.headD 0).toNat)
        return (readPublicData R (whole.tail.take (whole.headD 0).toNat),
          { filesMetaKey := filesMetaKey, text := plain.tail.drop (plain.headD 0).toNat })) := by
  unfold openMessage readPrivateData
  cases C.base64ToString serialized with
  | error e => rfl
  | ok whole =>
      obtain ⟨hblock, hbehind⟩ := readOneOctetLengthBuffer_eq R whole
      simp only [bind, Except.bind, hblock, BinaryReader.readRawUntilEnd_eq, hbehind]
      cases EciesEncryptor.decrypt C inboxPriv (whole.tail.drop (whole.headD 0).toNat) none with
      | error e => rfl
      | ok plain =>
          obtain ⟨hkey, hbehindKey⟩ := readOneOctetLengthBuffer_eq R plain
          simp only [hkey, hbehindKey]
          cases C.base64ToString (plain.tail.take (plain.headD 0).toNat) with
          | error e => rfl
          | ok filesMetaKey => rfl

/-- A message that cannot be opened comes out empty, under the status of the exception. -/
theorem unpackMessage_of_error {C : InboxCrypto} {R : BinaryReader} (uninitialized : Bool)
    {serialized : Bytes} {inboxPriv : C.PrivateKey} {e : EndpointException}
    (h : openMessage C R serialized inboxPriv = .error e) :
    unpackMessage C R uninitialized serialized inboxPriv =
      { publicData := .initial uninitialized
        privateData := { filesMetaKey := [], text := [] }
        statusCode := e.statusCode } := by
  rw [unpackMessage, h]

/-- The status of `unpackMessage` is zero exactly for readable messages. -/
theorem unpackMessage_statusCode_iff (C : InboxCrypto) (R : BinaryReader) (uninitialized : Bool)
    (serialized : Bytes) (inboxPriv : C.PrivateKey) :
    (unpackMessage C R uninitialized serialized inboxPriv).statusCode = 0 ↔
      Readable C serialized inboxPriv := by
  unfold unpackMessage
  constructor
  · intro h
    cases hopen : openMessage C R serialized inboxPriv with
    | error e =>
        rw [hopen] at h
        exact absurd h e.statusCode.2
    | ok data =>
        rw [openMessage_eq] at hopen
        obtain ⟨whole, hwhole, hopen⟩ := Throwing.bind_eq_ok hopen
        obtain ⟨plain, hplain, hopen⟩ := Throwing.bind_eq_ok hopen
        obtain ⟨filesMetaKey, hkey, -⟩ := Throwing.bind_eq_ok hopen
        exact ⟨whole, plain, filesMetaKey, hwhole, hplain, hkey⟩
  · rintro ⟨whole, plain, filesMetaKey, hwhole, hplain, hkey⟩
    rw [openMessage_eq, hwhole]
    simp only [bind, Except.bind, hplain, hkey]
    rfl

/-- What a result has to be for a status of zero: the message unpacked with the
verified key that it names, and its data are what it unpacked to. -/
structure Unpacked (I : InboxReader) (messageData : Bytes) (inboxKeys : ModuleKeys)
    (publicData : InboxEntryPublicData) (privateData : InboxEntryPrivateData) : Prop where
  key : ∃ record encKey privKeyECC,
    I.findInboxKey messageData inboxKeys = .ok (record, encKey, privKeyECC) ∧
      encKey.statusCode = 0 ∧ (I.unpack record privKeyECC).statusCode = 0 ∧
      publicData = (I.unpack record privKeyECC).publicData ∧
      privateData = (I.unpack record privKeyECC).privateData

/-- A result of status zero is the unpacked message. -/
def SoundResult (I : InboxReader) (messageData : Bytes) (inboxKeys : ModuleKeys) : Prop :=
  (I.decryptInboxEntry messageData inboxKeys).statusCode = 0 →
    Unpacked I messageData inboxKeys (I.decryptInboxEntry messageData inboxKeys).publicData
      (I.decryptInboxEntry messageData inboxKeys).privateData

/-- An entry of status zero shows the unpacked message. -/
def SoundEntry {File : Type}
    (getFiles : Bytes → List Bytes → Bytes → Except EndpointException (List File))
    (I : InboxReader) (messageData : Bytes) (inboxKeys : ModuleKeys) : Prop :=
  (convertInboxEntry getFiles (I.decryptInboxEntry messageData inboxKeys)).statusCode = 0 →
    ∃ publicData privateData, Unpacked I messageData inboxKeys publicData privateData ∧
      (convertInboxEntry getFiles (I.decryptInboxEntry messageData inboxKeys)).authorPubKey =
        publicData.userPubKey ∧
      (convertInboxEntry getFiles (I.decryptInboxEntry messageData inboxKeys)).data =
        privateData.text

/-- If the key that a message names is found and in order, the message can be
read with it. -/
def ReadableWithKey (I : InboxReader) (messageData : Bytes) (inboxKeys : ModuleKeys) : Prop :=
  ∀ record encKey privKeyECC,
    I.findInboxKey messageData inboxKeys = .ok (record, encKey, privKeyECC) →
      encKey.statusCode = 0 → Readable I.crypto record.message privKeyECC

/-- A result is sound exactly when the message can be read with the key. -/
theorem soundResult_iff (I : InboxReader) (messageData : Bytes) (inboxKeys : ModuleKeys) :
    SoundResult I messageData inboxKeys ↔ ReadableWithKey I messageData inboxKeys := by
  unfold SoundResult ReadableWithKey decryptInboxEntry
  cases hfind : I.findInboxKey messageData inboxKeys with
  | error e =>
      constructor
      · intro _ record encKey privKeyECC hkey
        cases hkey
      · intro _ hzero
        exact absurd hzero e.statusCode.2
  | ok found =>
      obtain ⟨record, encKey, privKeyECC⟩ := found
      dsimp only
      constructor
      · intro hsound record' encKey' privKeyECC' hkey hzero
        cases hkey
        obtain ⟨record'', encKey'', privKeyECC'', hkey, -, hunpack, -⟩ := (hsound hzero).key
        rw [hfind] at hkey
        cases hkey
        exact (unpackMessage_statusCode_iff ..).mp hunpack
      · intro hreadable hzero
        refine ⟨record, encKey, privKeyECC, hfind, hzero, ?_, rfl, rfl⟩
        exact (unpackMessage_statusCode_iff ..).mpr (hreadable _ _ _ rfl hzero)

/-- The conversion keeps the data, and the status if the files can be had. -/
theorem convertInboxEntry_eq {File : Type}
    (getFiles : Bytes → List Bytes → Bytes → Except EndpointException (List File))
    (inboxEntry : InboxEntryResult) :
    (convertInboxEntry getFiles inboxEntry).authorPubKey = inboxEntry.publicData.userPubKey ∧
      (convertInboxEntry getFiles inboxEntry).data = inboxEntry.privateData.text ∧
      ((convertInboxEntry getFiles inboxEntry).statusCode = 0 → inboxEntry.statusCode = 0) := by
  unfold convertInboxEntry
  by_cases hzero : inboxEntry.statusCode = 0
  · rw [if_pos hzero]
    cases getFiles inboxEntry.storeId inboxEntry.filesIds
        inboxEntry.privateData.filesMetaKey with
    | ok files => exact ⟨rfl, rfl, fun _ => hzero⟩
    | error e => exact ⟨rfl, rfl, fun h => absurd h e.statusCode.2⟩
  · rw [if_neg hzero]
    exact ⟨rfl, rfl, fun h => h⟩

/-- An entry with its files keeps the status zero. -/
theorem convertInboxEntry_statusCode {File : Type}
    {getFiles : Bytes → List Bytes → Bytes → Except EndpointException (List File)}
    {inboxEntry : InboxEntryResult} {files : List File}
    (hfiles : getFiles inboxEntry.storeId inboxEntry.filesIds
      inboxEntry.privateData.filesMetaKey = .ok files)
    (hzero : inboxEntry.statusCode = 0) :
    (convertInboxEntry getFiles inboxEntry).statusCode = 0 := by
  unfold convertInboxEntry
  rw [if_pos hzero, hfiles]
  exact hzero

/-- **When the status of an entry is sound.**  A result of status zero is the
unpacked message exactly if a message whose key is in order can be read with it;
and so is an entry, wherever its files can be had. -/
theorem decryptInboxEntry_sound_iff (I : InboxReader) (messageData : Bytes)
    (inboxKeys : ModuleKeys) :
    (SoundResult I messageData inboxKeys ↔ ReadableWithKey I messageData inboxKeys) ∧
      ∀ (File : Type)
        (getFiles : Bytes → List Bytes → Bytes → Except EndpointException (List File)),
        (∀ storeId filesIds filesMetaKey, ∃ files,
          getFiles storeId filesIds filesMetaKey = .ok files) →
        (SoundEntry getFiles I messageData inboxKeys ↔
          ReadableWithKey I messageData inboxKeys) := by
  refine ⟨soundResult_iff I messageData inboxKeys, ?_⟩
  intro File getFiles hfiles
  obtain ⟨hauthor, hdata, hstatus⟩ :=
    convertInboxEntry_eq getFiles (I.decryptInboxEntry messageData inboxKeys)
  rw [← soundResult_iff I messageData inboxKeys]
  constructor
  · intro hentry hzero
    obtain ⟨files, hgot⟩ := hfiles (I.decryptInboxEntry messageData inboxKeys).storeId
      (I.decryptInboxEntry messageData inboxKeys).filesIds
      (I.decryptInboxEntry messageData inboxKeys).privateData.filesMetaKey
    obtain ⟨publicData, privateData, ⟨record, encKey, privKeyECC, hfind, hkey, hunpack, -⟩, -⟩ :=
      hentry (convertInboxEntry_statusCode hgot hzero)
    refine ⟨record, encKey, privKeyECC, hfind, hkey, hunpack, ?_, ?_⟩
    · rw [decryptInboxEntry, hfind]
    · rw [decryptInboxEntry, hfind]
  · intro hsound hzero
    exact ⟨_, _, hsound (hstatus hzero), hauthor, hdata⟩

end InboxReader

/-! ### The author of an entry -/

/-- What stands behind the public block of a message. -/
def securedFrame (whole : Bytes) : Bytes :=
  whole.tail.drop (whole.headD 0).toNat

/-- A message with another public block in front of the same encrypted part. -/
def withPublicBlock (C : InboxCrypto) (whole : Bytes) (claimed : InboxEntryPublicData) : Bytes :=
  C.base64From (writeOneOctetLengthBuffer (sendData claimed) ++ securedFrame whole)

/-- The key that an encrypted part names as its sender's; the payload decrypts
with the secret of this key and the inbox key. -/
def senderKey (C : InboxCrypto) (whole : Bytes) : Except EndpointException C.PublicKey :=
  C.fromDER (((securedFrame whole).drop 1).take 33)

/-- The author of a message is bound to its encrypted part: the claimed key is
the sender's, and no other public block goes with it. -/
structure AuthorBound (C : InboxCrypto) (R : BinaryReader) (uninitialized : Bool)
    (serialized : Bytes) (inboxPriv : C.PrivateKey) : Prop where
  author : ∀ whole sender, C.base64ToString serialized = .ok whole →
    senderKey C whole = .ok sender →
      (unpackMessage C R uninitialized serialized inboxPriv).publicData.userPubKey =
        C.toBase58DER sender
  binding : ∀ whole claimed, C.base64ToString serialized = .ok whole →
    (sendData claimed).length ≤ 255 →
      claimed ≠ (unpackMessage C R uninitialized serialized inboxPriv).publicData →
        (unpackMessage C R uninitialized (withPublicBlock C whole claimed)
          inboxPriv).statusCode ≠ 0

section Author

variable {C : InboxCrypto} {R : BinaryReader}

/-- A message whose public block was replaced. -/
theorem base64ToString_withPublicBlock
    (hbase : ∀ d, C.base64ToString (C.base64From d) = .ok d) (whole : Bytes)
    (claimed : InboxEntryPublicData) :
    C.base64ToString (withPublicBlock C whole claimed) =
      .ok (writeOneOctetLengthBuffer (sendData claimed) ++ securedFrame whole) :=
  hbase _

/-- The encrypted part is read the same behind every public block. -/
theorem openMessage_withPublicBlock (hbase : ∀ d, C.base64ToString (C.base64From d) = .ok d)
    {serialized whole : Bytes} (hwhole : C.base64ToString serialized = .ok whole)
    {claimed : InboxEntryPublicData} (hfits : (sendData claimed).length ≤ 255)
    (inboxPriv : C.PrivateKey) :
    openMessage C R (withPublicBlock C whole claimed) inboxPriv =
      (openMessage C R serialized inboxPriv).map fun read => (claimed, read.2) := by
  rw [openMessage_of_blocks hfits (base64ToString_withPublicBlock hbase whole claimed),
    InboxReader.openMessage_eq, hwhole]
  unfold securedFrame readPrivateData
  simp only [bind, Except.bind]
  cases EciesEncryptor.decrypt C inboxPriv (whole.tail.drop (whole.headD 0).toNat) none with
  | error e => rfl
  | ok plain =>
      obtain ⟨hkey, hbehindKey⟩ := InboxReader.readOneOctetLengthBuffer_eq R plain
      simp only [hkey, BinaryReader.readRawUntilEnd_eq, hbehindKey]
      cases C.base64ToString (plain.tail.take (plain.headD 0).toNat) with
      | error e => rfl
      | ok filesMetaKey => rfl

/-- An accepted message is accepted behind every public block. -/
theorem unpackMessage_withPublicBlock
    (hbase : ∀ d, C.base64ToString (C.base64From d) = .ok d) (uninitialized : Bool)
    {serialized whole : Bytes} {inboxPriv : C.PrivateKey}
    (haccepted : (unpackMessage C R uninitialized serialized inboxPriv).statusCode = 0)
    (hwhole : C.base64ToString serialized = .ok whole)
    {claimed : InboxEntryPublicData} (hfits : (sendData claimed).length ≤ 255) :
    unpackMessage C R uninitialized (withPublicBlock C whole claimed) inboxPriv =
      { publicData := claimed
        privateData := (unpackMessage C R uninitialized serialized inboxPriv).privateData
        statusCode := 0 } := by
  unfold unpackMessage at haccepted ⊢
  rw [openMessage_withPublicBlock hbase hwhole hfits]
  cases hopen : openMessage C R serialized inboxPriv with
  | error e =>
      rw [hopen] at haccepted
      exact absurd haccepted e.statusCode.2
  | ok read => rfl

/-- **The author of a message is never bound to it.**  Behind every accepted
message stands one with any other public block, with the same encrypted part,
that is accepted as well. -/
theorem unpackMessage_author_not_bound
    (hbase : ∀ d, C.base64ToString (C.base64From d) = .ok d) (uninitialized : Bool)
    {serialized : Bytes} {inboxPriv : C.PrivateKey}
    (haccepted : (unpackMessage C R uninitialized serialized inboxPriv).statusCode = 0) :
    (∃ whole, C.base64ToString serialized = .ok whole ∧
        ∀ claimed, (sendData claimed).length ≤ 255 →
          unpackMessage C R uninitialized (withPublicBlock C whole claimed) inboxPriv =
            { publicData := claimed
              privateData :=
                (unpackMessage C R uninitialized serialized inboxPriv).privateData
              statusCode := 0 }) ∧
      ¬ AuthorBound C R uninitialized serialized inboxPriv := by
  obtain ⟨whole, plain, filesMetaKey, hwhole, -⟩ :=
    ((InboxReader.unpackMessage_statusCode_iff ..).mp haccepted).reads
  have hswap : ∀ claimed, (sendData claimed).length ≤ 255 →
      unpackMessage C R uninitialized (withPublicBlock C whole claimed) inboxPriv =
        { publicData := claimed
          privateData := (unpackMessage C R uninitialized serialized inboxPriv).privateData
          statusCode := 0 } :=
    fun claimed hfits => unpackMessage_withPublicBlock hbase uninitialized haccepted hwhole hfits
  refine ⟨⟨whole, hwhole, hswap⟩, fun hbound => ?_⟩
  -- the other truth value alone makes another block
  obtain ⟨claimed, hclaimed⟩ : ∃ claimed : InboxEntryPublicData, claimed =
      { userPubKey := []
        keyPreset :=
          !(unpackMessage C R uninitialized serialized inboxPriv).publicData.keyPreset
        usedInboxKeyId := [] } := ⟨_, rfl⟩
  have hfits : (sendData claimed).length ≤ 255 := by
    rw [hclaimed, length_sendData]
    exact (by decide : 3 + 0 + 0 ≤ 255)
  have hother : claimed ≠ (unpackMessage C R uninitialized serialized inboxPriv).publicData := by
    intro hsame
    have hpreset := congrArg InboxEntryPublicData.keyPreset hsame
    rw [hclaimed] at hpreset
    exact Bool.not_ne_self _ hpreset
  refine hbound.binding whole claimed hwhole hfits hother ?_
  rw [hswap claimed hfits]

/-- What reaches the application: an entry of the same status under the claimed
author, if the inbox key is still the one that was used. -/
theorem decryptInboxEntry_withPublicBlock {I : InboxReader}
    (hbase : ∀ d, I.crypto.base64ToString (I.crypto.base64From d) = .ok d)
    {messageData changedData whole : Bytes} {inboxKeys : ModuleKeys}
    {record : InboxMessageServer} {claimed : InboxEntryPublicData}
    (hrecord : I.parseInboxMessage messageData = some record)
    (hwhole : I.crypto.base64ToString record.message = .ok whole)
    (hchanged : I.parseInboxMessage changedData =
      some { record with message := withPublicBlock I.crypto whole claimed })
    (hfits : (sendData claimed).length ≤ 255)
    (hkeyId : claimed.usedInboxKeyId =
      (unpackMessagePublicOnly I.crypto I.reader I.uninitialized record.message).usedInboxKeyId)
    (hsound : I.SoundResult messageData inboxKeys)
    (hzero : (I.decryptInboxEntry messageData inboxKeys).statusCode = 0) :
    I.decryptInboxEntry changedData inboxKeys =
      { I.decryptInboxEntry messageData inboxKeys with publicData := claimed } := by
  obtain ⟨record', encKey, privKeyECC, hfind, hkey, hunpack, -⟩ := (hsound hzero).key
  have hlookup : I.findInboxKey messageData inboxKeys =
      (do
        let encKey ← I.getInboxKey inboxKeys claimed.usedInboxKeyId
        let privKeyECC ← I.crypto.fromPrivateKey encKey.key
        return (record, encKey, privKeyECC)) := by
    unfold InboxReader.findInboxKey InboxReader.unpackInboxOrigMessage
    rw [hrecord, hkeyId]
    rfl
  have hlookup' : I.findInboxKey changedData inboxKeys =
      (do
        let encKey ← I.getInboxKey inboxKeys claimed.usedInboxKeyId
        let privKeyECC ← I.crypto.fromPrivateKey encKey.key
        return ({ record with message := withPublicBlock I.crypto whole claimed }, encKey,
          privKeyECC)) := by
    unfold InboxReader.findInboxKey InboxReader.unpackInboxOrigMessage
    rw [hchanged]
    show (I.getInboxKey inboxKeys (unpackMessagePublicOnly I.crypto I.reader I.uninitialized
      (withPublicBlock I.crypto whole claimed)).usedInboxKeyId >>= _) = _
    rw [unpackMessagePublicOnly_of_block I.uninitialized hfits
      (base64ToString_withPublicBlock hbase whole claimed)]
  have hfound := hlookup.symm.trans hfind
  obtain ⟨encKey', hencKey, hfound⟩ := Throwing.bind_eq_ok hfound
  obtain ⟨privKeyECC', hprivKey, hfound⟩ := Throwing.bind_eq_ok hfound
  cases hfound
  have hfind' : I.findInboxKey changedData inboxKeys =
      .ok ({ record with message := withPublicBlock I.crypto whole claimed }, encKey,
        privKeyECC) := by
    rw [hlookup', hencKey]
    show (I.crypto.fromPrivateKey encKey.key >>= fun _ => _) = _
    rw [hprivKey]
    rfl
  have hswap : I.unpack { record with message := withPublicBlock I.crypto whole claimed }
      privKeyECC =
        { publicData := claimed
          privateData := (I.unpack record privKeyECC).privateData
          statusCode := 0 } :=
    unpackMessage_withPublicBlock hbase I.uninitialized hunpack hwhole hfits
  rw [InboxReader.decryptInboxEntry, hfind', InboxReader.decryptInboxEntry, hfind]
  dsimp only
  rw [hswap]

end Author

/-! ### Messages to a sample inbox -/

/-- A reader whose server hands the message over as it is. -/
def sampleInboxReader : InboxReader where
  crypto := sampleInboxCrypto
  reader := sampleReader
  keyCrypto := sampleKeyCrypto
  userPrivKey := (1 : UInt8)
  userVerifier := fun requests => some (requests.map fun _ => true)
  parseInboxMessage data := some { message := data, store := [115], files := [] }
  uninitialized := false

/-- The inbox key `9`, encrypted for the reader. -/
def sampleInboxKeys : ModuleKeys where
  keys := [{ keyId := [105, 100], data := .string [1, 2, 9] }]
  moduleResourceId := [4]
  contextId := [3]

/-- The inbox key as the provider hands it over. -/
def sampleInboxKey : DecryptedEncKeyV2 :=
  { DecryptedEncKeyV2.blank 1 0 with id := [105, 100], key := [9] }

/-- A message that was sent to the inbox, before it is written with Base64. -/
def sampleInboxWhole : Bytes :=
  writeOneOctetLengthBuffer (sendData (sampleSendModel [5]).publicData) ++
    EciesEncryptor.encrypt sampleInboxCrypto (9 : UInt8)
      (dataSecured sampleInboxCrypto (sampleSendModel [5]).privateData) (5 : UInt8)

@[inherit_doc sampleInboxWhole]
def sampleInboxMessage : Bytes :=
  packMessage sampleInboxCrypto (sampleSendModel [5]) (5 : UInt8) (9 : UInt8)

/-- The bytes of the sample message. -/
theorem sampleInboxMessage_whole :
    sampleInboxCrypto.base64ToString sampleInboxMessage = .ok sampleInboxWhole := by
  unfold sampleInboxMessage sampleInboxWhole
  exact base64ToString_packMessage sampleInboxCrypto_lawful (sampleSendModel [5]) (5 : UInt8)
    (9 : UInt8)

/-- The sample message is unpacked. -/
theorem sampleInboxMessage_unpacks :
    unpackMessage sampleInboxCrypto sampleReader false sampleInboxMessage (9 : UInt8) =
      { publicData := (sampleSendModel [5]).publicData
        privateData := (sampleSendModel [5]).privateData
        statusCode := 0 } :=
  unpackMessage_packMessage sampleInboxCrypto_lawful false (5 : UInt8) (9 : UInt8) (by decide)
    (by decide)

/-- The same public block with one byte behind it. -/
def sampleCutMessage : Bytes :=
  sampleInboxCrypto.base64From
    (writeOneOctetLengthBuffer (sendData (sampleSendModel [5]).publicData) ++ [101])

/-- The inbox key is found by the public block alone. -/
theorem findInboxKey_sample {message rest : Bytes}
    (hwhole : sampleInboxCrypto.base64ToString message =
      .ok (writeOneOctetLengthBuffer (sendData (sampleSendModel [5]).publicData) ++ rest)) :
    sampleInboxReader.findInboxKey message sampleInboxKeys =
      .ok ({ message := message, store := [115], files := [] }, sampleInboxKey, (9 : UInt8)) := by
  have hpublic : unpackMessagePublicOnly sampleInboxCrypto sampleReader false message =
      { (sampleSendModel [5]).publicData with statusCode := 0 } :=
    unpackMessagePublicOnly_of_block false (by decide) hwhole
  show (sampleInboxReader.getInboxKey sampleInboxKeys
    (unpackMessagePublicOnly sampleInboxCrypto sampleReader false message).usedInboxKeyId >>=
      fun _ => _) = _
  rw [hpublic]
  rfl

/-- The sample message is decrypted with status zero, and soundly. -/
theorem decryptInboxEntry_sound_iff_sample :
    (sampleInboxReader.decryptInboxEntry sampleInboxMessage sampleInboxKeys).statusCode = 0 ∧
      sampleInboxReader.SoundResult sampleInboxMessage sampleInboxKeys := by
  have hfind := findInboxKey_sample sampleInboxMessage_whole
  refine ⟨by rw [InboxReader.decryptInboxEntry, hfind]; rfl, ?_⟩
  refine (InboxReader.decryptInboxEntry_sound_iff sampleInboxReader sampleInboxMessage
    sampleInboxKeys).1.mpr ?_
  intro record encKey privKeyECC hkey _
  rw [hfind] at hkey
  cases hkey
  exact (InboxReader.unpackMessage_statusCode_iff _ sampleReader false _ _).mp
    (congrArg InboxEntryDataResult.statusCode sampleInboxMessage_unpacks)

/-- A message that is cut behind its public block comes out as an empty entry of
status zero. -/
theorem decryptInboxEntry_not_sound :
    sampleInboxReader.decryptInboxEntry sampleCutMessage sampleInboxKeys =
        { publicData := { userPubKey := [], keyPreset := false, usedInboxKeyId := [] }
          privateData := { filesMetaKey := [], text := [] }
          statusCode := 0
          storeId := [115]
          filesIds := [] } ∧
      (unpackMessage sampleInboxCrypto sampleReader false sampleCutMessage
        (9 : UInt8)).statusCode = 0xE0A10017 ∧
      ¬ sampleInboxReader.SoundResult sampleCutMessage sampleInboxKeys := by
  have hwhole : sampleInboxCrypto.base64ToString sampleCutMessage =
      .ok (writeOneOctetLengthBuffer (sendData (sampleSendModel [5]).publicData) ++ [101]) :=
    sampleInboxCrypto_lawful.base64ToString_base64From _
  have hfind := findInboxKey_sample hwhole
  have hunpack : unpackMessage sampleInboxCrypto sampleReader false sampleCutMessage (9 : UInt8) =
      { publicData := { userPubKey := [], keyPreset := false, usedInboxKeyId := [] }
        privateData := { filesMetaKey := [], text := [] }
        statusCode := 0xE0A10017 } := by
    have hopen : openMessage sampleInboxCrypto sampleReader sampleCutMessage (9 : UInt8) =
        .error invalidFirstByteOfCipher := by
      refine (openMessage_of_blocks (C := sampleInboxCrypto) (by decide) hwhole).trans ?_
      have hdecrypt : EciesEncryptor.decrypt sampleInboxCrypto (9 : UInt8) [101] none =
          .error invalidFirstByteOfCipher := by rfl
      rw [hdecrypt]
      rfl
    exact InboxReader.unpackMessage_of_error false hopen
  have hentry : sampleInboxReader.decryptInboxEntry sampleCutMessage sampleInboxKeys =
      { publicData := (unpackMessage sampleInboxCrypto sampleReader false sampleCutMessage
          (9 : UInt8)).publicData
        privateData := (unpackMessage sampleInboxCrypto sampleReader false sampleCutMessage
          (9 : UInt8)).privateData
        statusCode := 0
        storeId := [115]
        filesIds := [] } := by
    rw [InboxReader.decryptInboxEntry, hfind]
    rfl
  rw [hunpack] at hentry
  refine ⟨hentry, congrArg InboxEntryDataResult.statusCode hunpack, fun hsound => ?_⟩
  obtain ⟨record, encKey, privKeyECC, hkey, -, hstatus, -⟩ :=
    (hsound (congrArg (fun result => result.statusCode) hentry)).key
  rw [hfind] at hkey
  cases hkey
  exact absurd ((congrArg InboxEntryDataResult.statusCode hunpack).symm.trans hstatus) (by decide)

/-- The author of the sample message is not bound to it. -/
theorem unpackMessage_author_not_bound_sample :
    ¬ AuthorBound sampleInboxCrypto sampleReader false sampleInboxMessage (9 : UInt8) :=
  (unpackMessage_author_not_bound (C := sampleInboxCrypto) (R := sampleReader)
    sampleInboxCrypto_lawful.base64ToString_base64From false
    (congrArg InboxEntryDataResult.statusCode sampleInboxMessage_unpacks)).2

/-- The message of sender `5` is accepted under the name of sender `6`. -/
theorem unpackMessage_author_forged :
    sampleInboxCrypto.base64ToString sampleInboxMessage = .ok sampleInboxWhole ∧
      senderKey sampleInboxCrypto sampleInboxWhole = .ok (5 : UInt8) ∧
      unpackMessage sampleInboxCrypto sampleReader false sampleInboxMessage (9 : UInt8) =
        { publicData := (sampleSendModel [5]).publicData
          privateData := (sampleSendModel [5]).privateData
          statusCode := 0 } ∧
      unpackMessage sampleInboxCrypto sampleReader false
          (withPublicBlock sampleInboxCrypto sampleInboxWhole (sampleSendModel [6]).publicData)
          (9 : UInt8) =
        { publicData := (sampleSendModel [6]).publicData
          privateData := (sampleSendModel [5]).privateData
          statusCode := 0 } ∧
      ¬ AuthorBound sampleInboxCrypto sampleReader false sampleInboxMessage (9 : UInt8) := by
  have hforged := unpackMessage_withPublicBlock (C := sampleInboxCrypto) (R := sampleReader)
    sampleInboxCrypto_lawful.base64ToString_base64From false
    (congrArg InboxEntryDataResult.statusCode sampleInboxMessage_unpacks)
    sampleInboxMessage_whole
    (show (sendData (sampleSendModel [6]).publicData).length ≤ 255 by decide)
  rw [sampleInboxMessage_unpacks] at hforged
  refine ⟨sampleInboxMessage_whole, by rfl, sampleInboxMessage_unpacks, hforged, fun hbound => ?_⟩
  refine hbound.binding sampleInboxWhole (sampleSendModel [6]).publicData sampleInboxMessage_whole
    (by decide) ?_ ?_
  · rw [sampleInboxMessage_unpacks]
    decide
  · rw [hforged]

end Inbox

end PrivmxEndpoint
