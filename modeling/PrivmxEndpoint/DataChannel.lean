import PrivmxEndpoint.BigEndian
import PrivmxEndpoint.DataIntegrity
import PrivmxEndpoint.GuardedRuns

/-!
# Messages on a data channel

`DataChannelMessageEncryptorV1`: what it sends, what it accepts, and the
watermark of sequence numbers it keeps for each remote stream.  The check
against the watermark comes before a message is authenticated and the new
watermark is stored behind it, so a message that fails in between leaves the
watermark where it was.
-/

namespace PrivmxEndpoint

namespace Stream

/-- The code of an exception of the stream module. -/
def streamCode (code : Nat) : ErrorCode := ⟨0x00080000 + code, by omega⟩

def noStreamEncryptionKey : ErrorCode := streamCode 0x0028
def noStreamDecryptionKey : ErrorCode := streamCode 0x0029
def invalidEncryptionKeyIdLength : ErrorCode := streamCode 0x002A
def invalidMessageHeaderLength : ErrorCode := streamCode 0x002B
def unsupportedMessageFormatVersion : ErrorCode := streamCode 0x002C
def invalidDataChannelSeq : ErrorCode := streamCode 0x002E

/-- `KeyType`. -/
inductive KeyType
  | LOCAL
  | REMOTE
  deriving Repr, DecidableEq

/-- `stream::Key`. -/
structure Key where
  keyId : Bytes
  key : Bytes
  type : KeyType
  deriving Repr, DecidableEq

/-- `DataChannelMessage`. -/
structure DataChannelMessage where
  data : Bytes
  seq : Int
  deriving Repr, DecidableEq

/-- `DecryptedDataChannelMessage`. -/
structure DecryptedDataChannelMessage extends DataChannelMessage where
  statusCode : Nat
  deriving Repr, DecidableEq

/-- `DataChannelMessageEncryptorV1::Header`. -/
structure Header where
  version : UInt8
  seq : UInt32
  iv : Bytes
  keyId : Bytes
  deriving Repr, DecidableEq

/-- `DataChannelMessageEncryptorV1::ParsedEncryptedMessage`. -/
structure ParsedEncryptedMessage where
  header : Header
  serializedHeader : Bytes
  ciphertext : Bytes
  deriving Repr, DecidableEq

/-- The constants of `DataChannelMessageEncryptorV1.hpp`. -/
def AES_GCM_KEY_LENGTH_BYTES : Nat := 32

@[inherit_doc AES_GCM_KEY_LENGTH_BYTES]
def GCM_NONCE_LENGTH_BYTES : Nat := 12

@[inherit_doc AES_GCM_KEY_LENGTH_BYTES]
def VERSION_LENGTH_BYTES : Nat := 1

@[inherit_doc AES_GCM_KEY_LENGTH_BYTES]
def KEY_ID_LENGTH_BYTES : Nat := 1

@[inherit_doc AES_GCM_KEY_LENGTH_BYTES]
def SEQUENCE_NUMBER_LENGTH_BYTES : Nat := 4

@[inherit_doc AES_GCM_KEY_LENGTH_BYTES]
def WIRE_FORMAT_VERSION : UInt8 := 1

@[inherit_doc AES_GCM_KEY_LENGTH_BYTES]
def FIXED_HEADER_LENGTH : Nat :=
  VERSION_LENGTH_BYTES + KEY_ID_LENGTH_BYTES + SEQUENCE_NUMBER_LENGTH_BYTES +
    GCM_NONCE_LENGTH_BYTES

/-- AES-256-GCM as `privmx::crypto::Crypto` offers it.  The arguments behind the
data are the key, the initialization vector and the additional data. -/
structure GcmCrypto where
  aes256GcmEncrypt : Bytes → Bytes → Bytes → Bytes → Bytes
  aes256GcmDecrypt : Bytes → Bytes → Bytes → Bytes → Except EndpointException Bytes

/-- Decryption inverts encryption. -/
structure GcmCrypto.Lawful (C : GcmCrypto) : Prop where
  decrypt_encrypt : ∀ data key iv aad, iv.length = GCM_NONCE_LENGTH_BYTES →
    C.aes256GcmDecrypt (C.aes256GcmEncrypt data key iv aad) key iv aad = .ok data

/-- Random bytes of a nonce, `Crypto::randomBytes(GCM_NONCE_LENGTH_BYTES)`. -/
abbrev Nonce := { iv : Bytes // iv.length = GCM_NONCE_LENGTH_BYTES }

/-- `DataChannelMessageEncryptorV1`. -/
structure DataChannelMessageEncryptorV1 where
  keys : List Key
  remoteStreamSeqMap : Bytes → Option Int

namespace DataChannelMessageEncryptorV1

/-- The encryptor that the constructor makes. -/
def new (keys : List Key) : DataChannelMessageEncryptorV1 where
  keys := keys
  remoteStreamSeqMap := fun _ => none

/-- `_remoteStreamSeqMap.set`. -/
def setSeq (s : DataChannelMessageEncryptorV1) (remoteStreamId : Bytes) (seq : Int) :
    DataChannelMessageEncryptorV1 :=
  { s with
    remoteStreamSeqMap := fun id =>
      if id = remoteStreamId then some seq else s.remoteStreamSeqMap id }

def serializeHeader (header : Header) : Bytes :=
  header.version :: BigEndian.bytes 4 header.seq.toNat ++ header.iv ++
    UInt8.ofNat header.keyId.length :: header.keyId

def deserializeHeader (header : Bytes) : Header where
  version := header.getD 0 0
  seq := UInt32.ofNat (BigEndian.value ((header.drop 1).take 4))
  iv := (header.drop 5).take GCM_NONCE_LENGTH_BYTES
  keyId := (header.drop 18).take (header.getD 17 0).toNat

def parseEncryptedMessage (encryptedData : Bytes) :
    Except EndpointException ParsedEncryptedMessage := do
  let serializedHeader ←
    stringSubstr encryptedData 0 (FIXED_HEADER_LENGTH + AES_GCM_KEY_LENGTH_BYTES)
  let ciphertext ←
    stringSubstr encryptedData (FIXED_HEADER_LENGTH + AES_GCM_KEY_LENGTH_BYTES)
      encryptedData.length
  return {
    header := deserializeHeader serializedHeader
    serializedHeader := serializedHeader
    ciphertext := ciphertext }

def assertData (encryptedData : Bytes) : Except EndpointException Unit :=
  if encryptedData.length < FIXED_HEADER_LENGTH then
    .error (.core invalidMessageHeaderLength)
  else if encryptedData.getD 0 0 ≠ WIRE_FORMAT_VERSION then
    .error (.core unsupportedMessageFormatVersion)
  else
    .ok ()

/-- `assertSeq`.  A stream that is asked about for the first time is entered
into the map. -/
def assertSeq (remoteStreamId : Bytes) (seq : UInt32) (s : DataChannelMessageEncryptorV1) :
    Except EndpointException Unit × DataChannelMessageEncryptorV1 :=
  match s.remoteStreamSeqMap remoteStreamId with
  | some currentSeq =>
      if (seq.toNat : Int) ≤ currentSeq then (.error (.core invalidDataChannelSeq), s)
      else (.ok (), s)
  | none =>
      if (seq.toNat : Int) ≤ -1 then
        (.error (.core invalidDataChannelSeq), s.setSeq remoteStreamId (-1))
      else
        (.ok (), s.setSeq remoteStreamId (-1))

def updateSeq (remoteStreamId : Bytes) (seq : UInt32) (s : DataChannelMessageEncryptorV1) :
    DataChannelMessageEncryptorV1 :=
  s.setSeq remoteStreamId seq.toNat

def getEncryptionKey (s : DataChannelMessageEncryptorV1) : Except EndpointException Key :=
  match s.keys.find? (fun key => key.type = .LOCAL) with
  | some encKey => .ok encKey
  | none => .error (.core noStreamEncryptionKey)

def getDencryptionKey (keyId : Bytes) (s : DataChannelMessageEncryptorV1) :
    Except EndpointException Key :=
  match s.keys.find? (fun key => key.keyId = keyId) with
  | some decKey => .ok decKey
  | none => .error (.core noStreamDecryptionKey)

/-- The header in front of a message. -/
def messageHeader (plainMessage : DataChannelMessage) (iv : Nonce) (encKey : Key) : Header where
  version := WIRE_FORMAT_VERSION
  seq := UInt32.ofNat (plainMessage.seq % 2 ^ 32).toNat
  iv := iv
  keyId := encKey.keyId

def encryptMessage (C : GcmCrypto) (plainMessage : DataChannelMessage) (iv : Nonce)
    (s : DataChannelMessageEncryptorV1) : Except EndpointException Bytes := do
  let encKey ← s.getEncryptionKey
  if encKey.keyId.length ≥ 0xff then
    throw (.core invalidEncryptionKeyIdLength)
  let serializedHeader := serializeHeader (messageHeader plainMessage iv encKey)
  return serializedHeader ++
    C.aes256GcmEncrypt plainMessage.data encKey.key iv serializedHeader

/-- The part of `decryptMessage` between the check of the sequence number and
the new watermark. -/
def openMessage (C : GcmCrypto) (message : ParsedEncryptedMessage)
    (s : DataChannelMessageEncryptorV1) : Except EndpointException Bytes := do
  let decKey ← s.getDencryptionKey message.header.keyId
  C.aes256GcmDecrypt message.ciphertext decKey.key message.header.iv message.serializedHeader

/-- What `decryptMessage` does with a message whose header is read. -/
def decryptParsed (C : GcmCrypto) (remoteStreamId : Bytes) (message : ParsedEncryptedMessage)
    (s : DataChannelMessageEncryptorV1) :
    Except EndpointException DecryptedDataChannelMessage × DataChannelMessageEncryptorV1 :=
  match assertSeq remoteStreamId message.header.seq s with
  | (.error e, s) => (.error e, s)
  | (.ok (), s) =>
      match s.openMessage C message with
      | .error e =>
          (.ok { data := [], seq := message.header.seq.toNat, statusCode := e.statusCode }, s)
      | .ok data =>
          (.ok { data := data, seq := message.header.seq.toNat, statusCode := 0 },
            s.updateSeq remoteStreamId message.header.seq)

/-- `decryptMessage`.  Only the checks of `assertData` and the decryption itself
are inside a `try`; a message too short for its header and a number that is not
new leave the function as exceptions. -/
def decryptMessage (C : GcmCrypto) (remoteStreamId encryptedData : Bytes)
    (s : DataChannelMessageEncryptorV1) :
    Except EndpointException DecryptedDataChannelMessage × DataChannelMessageEncryptorV1 :=
  match assertData encryptedData with
  | .error e => (.ok { data := [], seq := 0, statusCode := e.statusCode }, s)
  | .ok () =>
      match parseEncryptedMessage encryptedData with
      | .error e => (.error e, s)
      | .ok message => s.decryptParsed C remoteStreamId message

def registerRemoteStreamId (remoteStreamId : Bytes) (initialSeq : Int)
    (s : DataChannelMessageEncryptorV1) : DataChannelMessageEncryptorV1 :=
  s.setSeq remoteStreamId initialSeq

def updateKey (keys : List Key) (s : DataChannelMessageEncryptorV1) :
    DataChannelMessageEncryptorV1 :=
  { s with keys := keys }

/-! ### The watermark -/

/-- The number that the next message of a stream has to exceed.  A stream that
was never seen has the watermark it would be entered with. -/
def watermark (s : DataChannelMessageEncryptorV1) (remoteStreamId : Bytes) : Int :=
  (s.remoteStreamSeqMap remoteStreamId).getD (-1)

/-- Two encryptors with the same keys and watermarks. -/
structure SameWatermarks (s t : DataChannelMessageEncryptorV1) : Prop where
  keys : s.keys = t.keys
  watermark : ∀ id, s.watermark id = t.watermark id

/-- Every decryptor has its own watermarks. -/
theorem SameWatermarks.refl (s : DataChannelMessageEncryptorV1) : SameWatermarks s s :=
  ⟨rfl, fun _ => rfl⟩

/-- The relation passes on. -/
theorem SameWatermarks.trans {s t u : DataChannelMessageEncryptorV1}
    (hst : SameWatermarks s t) (htu : SameWatermarks t u) : SameWatermarks s u :=
  ⟨hst.keys.trans htu.keys, fun id => (hst.watermark id).trans (htu.watermark id)⟩

@[simp] theorem setSeq_keys (s : DataChannelMessageEncryptorV1) (id : Bytes) (seq : Int) :
    (s.setSeq id seq).keys = s.keys := rfl

/-- Setting one sender's number moves no other. -/
theorem watermark_setSeq (s : DataChannelMessageEncryptorV1) (id other : Bytes) (seq : Int) :
    (s.setSeq id seq).watermark other = if other = id then seq else s.watermark other := by
  unfold watermark setSeq
  by_cases h : other = id
  · rw [if_pos h]
    simp [h]
  · rw [if_neg h]
    simp [h]

/-- Entering a stream with its own watermark changes nothing. -/
theorem sameWatermarks_setSeq {s : DataChannelMessageEncryptorV1} {id : Bytes} {seq : Int}
    (h : s.watermark id = seq) : SameWatermarks (s.setSeq id seq) s := by
  refine ⟨rfl, fun other => ?_⟩
  rw [watermark_setSeq]
  by_cases hother : other = id
  · rw [if_pos hother, hother, h]
  · rw [if_neg hother]

/-- Setting one watermark in two encryptors that agree. -/
theorem SameWatermarks.setSeq {s t : DataChannelMessageEncryptorV1} (h : SameWatermarks s t)
    (id : Bytes) (seq : Int) : SameWatermarks (s.setSeq id seq) (t.setSeq id seq) := by
  refine ⟨h.keys, fun other => ?_⟩
  rw [watermark_setSeq, watermark_setSeq, h.watermark]

/-- A message is opened by the keys alone. -/
theorem SameWatermarks.openMessage {s t : DataChannelMessageEncryptorV1}
    (h : SameWatermarks s t) (C : GcmCrypto) (message : ParsedEncryptedMessage) :
    s.openMessage C message = t.openMessage C message := by
  unfold DataChannelMessageEncryptorV1.openMessage getDencryptionKey
  rw [h.keys]

/-- `assertSeq` compares with the watermark and leaves all watermarks alone. -/
theorem assertSeq_spec (id : Bytes) (seq : UInt32) (s : DataChannelMessageEncryptorV1) :
    (assertSeq id seq s).1 =
        (if (seq.toNat : Int) ≤ s.watermark id then .error (.core invalidDataChannelSeq)
          else .ok ()) ∧
      SameWatermarks (assertSeq id seq s).2 s := by
  unfold assertSeq
  cases hget : s.remoteStreamSeqMap id with
  | some currentSeq =>
      have hmark : s.watermark id = currentSeq := by rw [watermark, hget, Option.getD_some]
      rw [hmark]
      dsimp only
      split
      · exact ⟨rfl, .refl s⟩
      · exact ⟨rfl, .refl s⟩
  | none =>
      have hmark : s.watermark id = -1 := by rw [watermark, hget, Option.getD_none]
      rw [hmark]
      dsimp only
      split
      · exact ⟨rfl, sameWatermarks_setSeq hmark⟩
      · exact ⟨rfl, sameWatermarks_setSeq hmark⟩

/-- The outcome of a call that accepts a message. -/
def Accepted (outcome : Except EndpointException DecryptedDataChannelMessage) : Prop :=
  ∃ message, outcome = .ok message ∧ message.statusCode = 0

/-- **What a call to `decryptMessage` does**, up to entries that only repeat a
watermark: it accepts a message whose number exceeds the watermark and takes
that number as the new one, or it accepts nothing and leaves every watermark
as it was. -/
theorem decryptParsed_cases (C : GcmCrypto) (id : Bytes) (message : ParsedEncryptedMessage)
    (s : DataChannelMessageEncryptorV1) :
    (∃ data,
        (s.decryptParsed C id message).1 =
          .ok { data := data, seq := message.header.seq.toNat, statusCode := 0 } ∧
        s.watermark id < message.header.seq.toNat ∧
        SameWatermarks (s.decryptParsed C id message).2
          (s.setSeq id message.header.seq.toNat)) ∨
      (¬ Accepted (s.decryptParsed C id message).1 ∧
        SameWatermarks (s.decryptParsed C id message).2 s) := by
  obtain ⟨hresult, hsame⟩ := assertSeq_spec id message.header.seq s
  unfold decryptParsed
  generalize assertSeq id message.header.seq s = asserted at hresult hsame
  obtain ⟨result, t⟩ := asserted
  dsimp only at hresult hsame ⊢
  by_cases hold : (message.header.seq.toNat : Int) ≤ s.watermark id
  · rw [if_pos hold] at hresult
    subst hresult
    refine Or.inr ⟨?_, hsame⟩
    rintro ⟨accepted, h, -⟩
    cases h
  · rw [if_neg hold] at hresult
    subst hresult
    dsimp only
    cases t.openMessage C message with
    | error e =>
        refine Or.inr ⟨?_, hsame⟩
        rintro ⟨accepted, h, hzero⟩
        cases h
        exact e.statusCode.2 hzero
    | ok data =>
        exact Or.inl ⟨data, rfl, by omega, hsame.setSeq id _⟩

/-- Encryptors that agree on keys and watermarks answer alike and agree behind
the answer. -/
theorem SameWatermarks.decryptParsed {s t : DataChannelMessageEncryptorV1}
    (h : SameWatermarks s t) (C : GcmCrypto) (id : Bytes) (message : ParsedEncryptedMessage) :
    (s.decryptParsed C id message).1 = (t.decryptParsed C id message).1 ∧
      SameWatermarks (s.decryptParsed C id message).2 (t.decryptParsed C id message).2 := by
  obtain ⟨hs, hs'⟩ := assertSeq_spec id message.header.seq s
  obtain ⟨ht, ht'⟩ := assertSeq_spec id message.header.seq t
  unfold DataChannelMessageEncryptorV1.decryptParsed
  generalize assertSeq id message.header.seq s = left at hs hs'
  generalize assertSeq id message.header.seq t = right at ht ht'
  obtain ⟨leftResult, s'⟩ := left
  obtain ⟨rightResult, t'⟩ := right
  dsimp only at hs hs' ht ht' ⊢
  have hagree : SameWatermarks s' t' := by
    refine ⟨hs'.keys.trans (h.keys.trans ht'.keys.symm), fun other => ?_⟩
    rw [hs'.watermark, h.watermark, ht'.watermark]
  rw [h.watermark, ← ht] at hs
  subst hs
  cases leftResult with
  | error e => exact ⟨rfl, hagree⟩
  | ok u =>
      dsimp only
      rw [hagree.openMessage C message]
      cases t'.openMessage C message with
      | error e => exact ⟨rfl, hagree⟩
      | ok data => exact ⟨rfl, hagree.setSeq id _⟩

/-- A message is accepted with its number, or nothing changes. -/
theorem decryptMessage_cases (C : GcmCrypto) (id encryptedData : Bytes)
    (s : DataChannelMessageEncryptorV1) :
    (∃ (data : Bytes) (seq : UInt32),
        (s.decryptMessage C id encryptedData).1 =
          .ok { data := data, seq := seq.toNat, statusCode := 0 } ∧
        s.watermark id < seq.toNat ∧
        SameWatermarks (s.decryptMessage C id encryptedData).2 (s.setSeq id seq.toNat)) ∨
      (¬ Accepted (s.decryptMessage C id encryptedData).1 ∧
        SameWatermarks (s.decryptMessage C id encryptedData).2 s) := by
  unfold decryptMessage
  cases assertData encryptedData with
  | error e =>
      refine Or.inr ⟨?_, .refl s⟩
      rintro ⟨accepted, h, hzero⟩
      cases h
      exact e.statusCode.2 hzero
  | ok u =>
      dsimp only
      cases parseEncryptedMessage encryptedData with
      | error e =>
          refine Or.inr ⟨?_, .refl s⟩
          rintro ⟨accepted, h, -⟩
          cases h
      | ok message =>
          rcases decryptParsed_cases C id message s with ⟨data, h⟩ | h
          · exact Or.inl ⟨data, message.header.seq, h⟩
          · exact Or.inr h

/-- Equal watermarks decide alike and stay equal. -/
theorem SameWatermarks.decryptMessage {s t : DataChannelMessageEncryptorV1}
    (h : SameWatermarks s t) (C : GcmCrypto) (id encryptedData : Bytes) :
    (s.decryptMessage C id encryptedData).1 = (t.decryptMessage C id encryptedData).1 ∧
      SameWatermarks (s.decryptMessage C id encryptedData).2
        (t.decryptMessage C id encryptedData).2 := by
  unfold DataChannelMessageEncryptorV1.decryptMessage
  cases assertData encryptedData with
  | error e => exact ⟨rfl, h⟩
  | ok u =>
      dsimp only
      cases parseEncryptedMessage encryptedData with
      | error e => exact ⟨rfl, h⟩
      | ok message => exact h.decryptParsed C id message

/-! ### Sequences of calls -/

/-- A call that changes the encryptor. -/
inductive Call
  | decryptMessage (remoteStreamId encryptedData : Bytes)
  | updateKey (keys : List Key)
  | registerRemoteStreamId (remoteStreamId : Bytes) (initialSeq : Int)

/-- The encryptor behind a call. -/
def Call.next (C : GcmCrypto) (s : DataChannelMessageEncryptorV1) :
    Call → DataChannelMessageEncryptorV1
  | .decryptMessage id encryptedData => (s.decryptMessage C id encryptedData).2
  | .updateKey keys => s.updateKey keys
  | .registerRemoteStreamId id initialSeq => s.registerRemoteStreamId id initialSeq

/-- What a call to `decryptMessage` returns or throws. -/
def Call.outcome (C : GcmCrypto) (s : DataChannelMessageEncryptorV1) :
    Call → Option (Except EndpointException DecryptedDataChannelMessage)
  | .decryptMessage id encryptedData => some (s.decryptMessage C id encryptedData).1
  | .updateKey _ => none
  | .registerRemoteStreamId _ _ => none

/-- The encryptor behind a list of calls. -/
def after (C : GcmCrypto) (s : DataChannelMessageEncryptorV1) (calls : List Call) :
    DataChannelMessageEncryptorV1 :=
  calls.foldl (Call.next C) s

/-- What the calls of a list return or throw. -/
def outcomes (C : GcmCrypto) :
    DataChannelMessageEncryptorV1 → List Call →
      List (Except EndpointException DecryptedDataChannelMessage)
  | _, [] => []
  | s, call :: calls => (call.outcome C s).toList ++ outcomes C (call.next C s) calls

/-- A stream is registered only before its first use. -/
def FirstRegistration (s : DataChannelMessageEncryptorV1) : Call → Prop
  | .registerRemoteStreamId id _ => s.remoteStreamSeqMap id = none
  | _ => True

/-- The sequence number of an accepted message. -/
def acceptedNumber : Except EndpointException DecryptedDataChannelMessage → Option Int
  | .ok message => if message.statusCode = 0 then some message.seq else none
  | .error _ => none

/-- A rejected message has no accepted number. -/
theorem acceptedNumber_of_rejected
    {outcome : Except EndpointException DecryptedDataChannelMessage}
    (h : ¬ Accepted outcome) : acceptedNumber outcome = none := by
  cases outcome with
  | error e => rfl
  | ok message => exact if_neg fun hzero => h ⟨message, rfl, hzero⟩

/-- The sequence number that a call accepts for a stream. -/
def acceptedSeq (C : GcmCrypto) (id : Bytes) (s : DataChannelMessageEncryptorV1) :
    Call → Option Int
  | .decryptMessage remoteStreamId encryptedData =>
      if remoteStreamId = id then
        acceptedNumber (s.decryptMessage C remoteStreamId encryptedData).1
      else none
  | .updateKey _ => none
  | .registerRemoteStreamId _ _ => none

/-- The sequence numbers that a list of calls accepts for a stream, in order. -/
def acceptedSeqs (C : GcmCrypto) (id : Bytes) :
    DataChannelMessageEncryptorV1 → List Call → List Int
  | _, [] => []
  | s, call :: calls =>
      (acceptedSeq C id s call).toList ++ acceptedSeqs C id (call.next C s) calls

/-- A lower bound of the numbers a stream can still accept that a first
registration does not lower. -/
def lowerBound (s : DataChannelMessageEncryptorV1) (id : Bytes) : Int :=
  max (-1) (s.watermark id)

/-- Equal watermarks have one lower bound. -/
theorem SameWatermarks.lowerBound {s t : DataChannelMessageEncryptorV1}
    (h : SameWatermarks s t) (id : Bytes) : s.lowerBound id = t.lowerBound id := by
  unfold DataChannelMessageEncryptorV1.lowerBound
  rw [h.watermark]

/-- An accepted number exceeds the bound and becomes it; a call that accepts
nothing for the stream does not lower the bound. -/
theorem lowerBound_next (C : GcmCrypto) (id : Bytes) {s : DataChannelMessageEncryptorV1}
    {call : Call} (hfirst : FirstRegistration s call) :
    (∀ seq, acceptedSeq C id s call = some seq →
        s.lowerBound id < seq ∧ (call.next C s).lowerBound id = seq) ∧
      (acceptedSeq C id s call = none → s.lowerBound id ≤ (call.next C s).lowerBound id) := by
  cases call with
  | decryptMessage remoteStreamId encryptedData =>
      simp only [acceptedSeq, Call.next]
      rcases decryptMessage_cases C remoteStreamId encryptedData s with
        ⟨data, number, hresult, hmark, hsame⟩ | ⟨hrejected, hsame⟩
      · have hnumber : acceptedNumber (s.decryptMessage C remoteStreamId encryptedData).1 =
            some (number.toNat : Int) := by
          rw [hresult]
          rfl
        rw [hnumber, hsame.lowerBound]
        unfold lowerBound
        rw [watermark_setSeq]
        by_cases hid : remoteStreamId = id
        · subst hid
          rw [if_pos rfl, if_pos rfl]
          refine ⟨fun seq hseq => ?_, fun hnone => absurd hnone (Option.some_ne_none _)⟩
          obtain rfl := Option.some.inj hseq
          omega
        · rw [if_neg hid, if_neg (Ne.symm hid)]
          exact ⟨fun seq hseq => absurd hseq.symm (Option.some_ne_none _), fun _ => le_refl _⟩
      · rw [acceptedNumber_of_rejected hrejected, ite_self, hsame.lowerBound]
        exact ⟨fun seq hseq => absurd hseq.symm (Option.some_ne_none _), fun _ => le_refl _⟩
  | updateKey keys =>
      exact ⟨fun seq hseq => absurd hseq.symm (Option.some_ne_none _), fun _ => le_refl _⟩
  | registerRemoteStreamId remoteStreamId initialSeq =>
      refine ⟨fun seq hseq => absurd hseq.symm (Option.some_ne_none _), fun _ => ?_⟩
      show s.lowerBound id ≤ (s.setSeq remoteStreamId initialSeq).lowerBound id
      unfold lowerBound
      rw [watermark_setSeq]
      by_cases hid : id = remoteStreamId
      · have hmark : s.watermark id = -1 := by
          rw [watermark, hid, hfirst, Option.getD_none]
        rw [if_pos hid, hmark]
        omega
      · rw [if_neg hid]

/-- The accepted numbers increase and stay above the bound they start from. -/
theorem acceptedSeqs_increasing (C : GcmCrypto) (id : Bytes)
    {s t : DataChannelMessageEncryptorV1} {calls : List Call}
    (hrun : Runs.Run (Runs.guarded FirstRegistration fun s call t => t = call.next C s)
      s calls t) :
    (acceptedSeqs C id s calls).Pairwise (· < ·) ∧
      ∀ seq ∈ acceptedSeqs C id s calls, s.lowerBound id < seq := by
  induction hrun with
  | nil s => exact ⟨List.Pairwise.nil, fun _ h => absurd h List.not_mem_nil⟩
  | @cons s t u call calls hstep _ ih =>
      obtain ⟨hfirst, rfl⟩ := hstep
      obtain ⟨hpairwise, habove⟩ := ih
      obtain ⟨haccepts, hrejects⟩ := lowerBound_next C id hfirst
      unfold acceptedSeqs
      cases hseq : acceptedSeq C id s call with
      | none =>
          refine ⟨hpairwise, fun seq hmem => ?_⟩
          exact lt_of_le_of_lt (hrejects hseq) (habove seq hmem)
      | some seq =>
          obtain ⟨hlt, hmark⟩ := haccepts seq hseq
          rw [hmark] at habove
          refine ⟨List.pairwise_cons.mpr ⟨habove, hpairwise⟩, fun later hmem => ?_⟩
          rcases List.mem_cons.mp hmem with rfl | hmem
          · exact hlt
          · exact hlt.trans (habove later hmem)

/-- **Step.** A call keeps equal watermarks equal. -/
theorem SameWatermarks.next {s t : DataChannelMessageEncryptorV1} (h : SameWatermarks s t)
    (C : GcmCrypto) (call : Call) :
    call.outcome C s = call.outcome C t ∧ SameWatermarks (call.next C s) (call.next C t) := by
  cases call with
  | decryptMessage id encryptedData =>
      obtain ⟨houtcome, hnext⟩ := h.decryptMessage C id encryptedData
      exact ⟨congrArg some houtcome, hnext⟩
  | updateKey keys => exact ⟨rfl, rfl, h.watermark⟩
  | registerRemoteStreamId id initialSeq => exact ⟨rfl, h.setSeq id initialSeq⟩

/-- Encryptors that agree on keys and watermarks answer all later calls alike. -/
theorem SameWatermarks.outcomes {s t : DataChannelMessageEncryptorV1}
    (h : SameWatermarks s t) (C : GcmCrypto) (calls : List Call) :
    outcomes C s calls = outcomes C t calls := by
  induction calls generalizing s t with
  | nil => rfl
  | cons call calls ih =>
      obtain ⟨houtcome, hnext⟩ := h.next C call
      unfold DataChannelMessageEncryptorV1.outcomes
      rw [houtcome, ih hnext]

/-- A message that is not accepted leaves the watermarks alone. -/
theorem sameWatermarks_of_rejected {C : GcmCrypto} {s : DataChannelMessageEncryptorV1}
    {id encryptedData : Bytes} (h : ¬ Accepted (s.decryptMessage C id encryptedData).1) :
    SameWatermarks (s.decryptMessage C id encryptedData).2 s := by
  rcases decryptMessage_cases C id encryptedData s with ⟨data, seq, hresult, -⟩ | ⟨-, hsame⟩
  · exact absurd ⟨_, hresult, rfl⟩ h
  · exact hsame

/-- Any number of messages that are not accepted leave the watermarks alone. -/
theorem sameWatermarks_after {C : GcmCrypto} {s : DataChannelMessageEncryptorV1}
    {messages : List (Bytes × Bytes)}
    (h : ∀ outcome ∈ outcomes C s (messages.map fun m => .decryptMessage m.1 m.2),
      ¬ Accepted outcome) :
    SameWatermarks (after C s (messages.map fun m => .decryptMessage m.1 m.2)) s := by
  induction messages generalizing s with
  | nil => exact .refl s
  | cons message messages ih =>
      obtain ⟨id, encryptedData⟩ := message
      have hfirst : ¬ Accepted (s.decryptMessage C id encryptedData).1 :=
        h _ (List.mem_append_left _ (List.mem_singleton_self _))
      have hrest := ih (s := (s.decryptMessage C id encryptedData).2)
        fun outcome hmem => h outcome (List.mem_append_right _ hmem)
      exact hrest.trans (sameWatermarks_of_rejected hfirst)

/-- **No replay on a data channel.**  In every sequence of calls that registers
no stream again, the numbers accepted for each stream increase strictly.  A
call that accepts nothing changes no outcome of any later calls, so no number
of rejected messages keeps a message from being accepted. -/
theorem decryptMessage_replay_protection (C : GcmCrypto) (s : DataChannelMessageEncryptorV1) :
    (∀ calls t,
      Runs.Run (Runs.guarded FirstRegistration fun s call t => t = call.next C s) s calls t →
        ∀ id, (acceptedSeqs C id s calls).Pairwise (· < ·)) ∧
      (∀ id encryptedData, ¬ Accepted (s.decryptMessage C id encryptedData).1 →
        ∀ later, outcomes C (s.decryptMessage C id encryptedData).2 later =
          outcomes C s later) ∧
      (∀ rejected : List (Bytes × Bytes),
        (∀ outcome ∈ outcomes C s (rejected.map fun m => .decryptMessage m.1 m.2),
          ¬ Accepted outcome) →
        ∀ id encryptedData,
          Accepted ((after C s (rejected.map fun m => .decryptMessage m.1 m.2)).decryptMessage
              C id encryptedData).1 ↔
            Accepted (s.decryptMessage C id encryptedData).1) := by
  refine ⟨?increasing, ?rejected, ?block⟩
  case increasing =>
    intro calls t hrun id
    exact (acceptedSeqs_increasing C id hrun).1
  case rejected =>
    intro id encryptedData hrejected later
    exact (sameWatermarks_of_rejected hrejected).outcomes C later
  case block =>
    intro rejected hrejected id encryptedData
    obtain ⟨houtcome, -⟩ := (sameWatermarks_after hrejected).decryptMessage C id encryptedData
    rw [houtcome]

/-- A tag made of the key, the nonce and the end of the additional data. -/
def sampleTag (key iv aad : Bytes) : Bytes :=
  (key.take 4 ++ iv.take 4 ++ aad.reverse.take 8 ++ List.replicate 16 0).take 16

/-- Authentication without a cipher. -/
def sampleGcm : GcmCrypto where
  aes256GcmEncrypt data key iv aad := data ++ sampleTag key iv aad
  aes256GcmDecrypt data key iv aad :=
    if data.drop (data.length - 16) = sampleTag key iv aad then
      .ok (data.take (data.length - 16))
    else
      .error (.privmx ⟨0x00A10027, by decide⟩)

/-- The sample tags have 16 bytes. -/
theorem length_sampleTag (key iv aad : Bytes) : (sampleTag key iv aad).length = 16 := by
  simp [sampleTag]
  omega

/-- The sample cipher satisfies the laws. -/
theorem sampleGcm_lawful : sampleGcm.Lawful where
  decrypt_encrypt data key iv aad _ := by
    have hlength : (data ++ sampleTag key iv aad).length - 16 = data.length := by
      rw [List.length_append, length_sampleTag]
      omega
    have htag : (data ++ sampleTag key iv aad).drop
        ((data ++ sampleTag key iv aad).length - 16) = sampleTag key iv aad := by
      rw [hlength, List.drop_left]
    have hdata : (data ++ sampleTag key iv aad).take
        ((data ++ sampleTag key iv aad).length - 16) = data := by
      rw [hlength, List.take_left]
    exact (if_pos htag).trans (congrArg Except.ok hdata)

/-- A nonce of zeros. -/
def sampleNonce : Nonce := ⟨List.replicate 12 0, rfl⟩

/-- A key with an identifier of 32 characters. -/
def sampleKey : Key where
  keyId := List.replicate 32 97
  key := List.replicate 32 7
  type := .LOCAL

/-- A message as the holder of a key sends it. -/
def sampleMessage (key : Key) (seq : Int) : Bytes :=
  match encryptMessage sampleGcm { data := [1, 2, 3], seq := seq } sampleNonce (new [key]) with
  | .ok encryptedData => encryptedData
  | .error _ => []

/-- Messages 1 and 3 of a sender, each delivered twice, with a message of
another sender under the largest number between them. -/
def sampleCalls : List Call :=
  [.decryptMessage [1] (sampleMessage sampleKey 1),
    .decryptMessage [1] (sampleMessage sampleKey 1),
    .decryptMessage [1] (sampleMessage { sampleKey with key := List.replicate 32 8 } 4294967295),
    .decryptMessage [1] (sampleMessage sampleKey 3),
    .decryptMessage [1] (sampleMessage sampleKey 1)]

/-- Of five messages the first of each number is accepted, and one under another key is not.
-/
theorem decryptMessage_replay_protection_sample :
    acceptedSeqs sampleGcm [1] (new [sampleKey]) sampleCalls = [1, 3] ∧
      (acceptedSeqs sampleGcm [1] (new [sampleKey]) sampleCalls).Pairwise (· < ·) :=
  ⟨by decide,
    (decryptMessage_replay_protection sampleGcm (new [sampleKey])).1 sampleCalls _
      (.cons ⟨trivial, rfl⟩ (.cons ⟨trivial, rfl⟩ (.cons ⟨trivial, rfl⟩
        (.cons ⟨trivial, rfl⟩ (.cons ⟨trivial, rfl⟩ (.nil _)))))) [1]⟩

end DataChannelMessageEncryptorV1

end Stream

end PrivmxEndpoint
