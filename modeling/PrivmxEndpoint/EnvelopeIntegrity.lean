import PrivmxEndpoint.EnvelopeRoundTrip

/-!
# The four encryptors of version 5

What holds for each of them: an envelope comes back exactly if its object has a
bridge identity; an envelope with exchanged fields is refused unless all that
happened is that a message or an entry lost its internal metadata; and the
public part can be extracted from whatever decrypts, except from a file without
a public object (`PlainItemV5.envelope_protected_iff`).
-/

namespace PrivmxEndpoint

variable {C : KeyCrypto}

/-- The encryptors of version 5. -/
inductive EncryptorV5
  | module
  | file
  | message
  | entry
  deriving DecidableEq

/-- What they encrypt. -/
inductive PlainItemV5
  | module (x : ModuleDataToEncryptV5)
  | file (x : FileMetaToEncryptV5)
  | message (x : MessageDataToEncryptV5)
  | entry (x : MessageDataToEncryptV5)

namespace EncryptorV5

variable (E : EnvelopeLibrary C) (undefined : Except EndpointException BridgeIdentity)

/-- The status, the public metadata and the object of a decryption. -/
def decrypted (encrypted : EncryptedItemV5) (encryptionKey : Bytes) :
    EncryptorV5 → Nat × Bytes × DataIntegrityObject
  | .module =>
      let result := ModuleDataEncryptorV5.decrypt E undefined encrypted encryptionKey
      (result.statusCode, result.publicMeta, result.dio)
  | .file => (FileMetaEncryptorV5.decrypt E undefined encrypted encryptionKey).publicPart
  | .message => (MessageDataEncryptorV5.decrypt E undefined encrypted encryptionKey).publicPart
  | .entry => (EntryDataEncryptorV5.decrypt E undefined encrypted encryptionKey).publicPart

/-- The status, the public metadata and the object of `extractPublic`. -/
def extracted (encrypted : EncryptedItemV5) : EncryptorV5 → Nat × Bytes × DataIntegrityObject
  | .module =>
      let result := ModuleDataEncryptorV5.extractPublic E undefined encrypted
      (result.statusCode, result.publicMeta, result.dio)
  | .file => (FileMetaEncryptorV5.extractPublic E undefined encrypted).publicPart
  | .message => (MessageDataEncryptorV5.extractPublic E undefined encrypted).publicPart
  | .entry => (EntryDataEncryptorV5.extractPublic E undefined encrypted).publicPart

/-- Messages and entries have data, and their internal metadata is optional. -/
def hasData : EncryptorV5 → Bool
  | .module | .file => false
  | .message | .entry => true

/-- The envelope with other signed fields and the same object. -/
structure Exchanged (encryptor : EncryptorV5) (encrypted tampered : EncryptedItemV5) : Prop where
  version : tampered.version = encrypted.version
  publicMetaObject : tampered.publicMetaObject = encrypted.publicMetaObject
  dio : tampered.dio = encrypted.dio
  data : encryptor.hasData = false → tampered.data = encrypted.data
  ne : tampered ≠ encrypted

/-- The envelope without the internal metadata that it had. -/
def RemovesInternalMeta (encryptor : EncryptorV5) (encrypted tampered : EncryptedItemV5) : Prop :=
  encryptor.hasData = true ∧ encrypted.internalMeta.isSome ∧
    tampered = { encrypted with internalMeta := none }

end EncryptorV5

namespace PlainItemV5

variable (E : EnvelopeLibrary C) (undefined : Except EndpointException BridgeIdentity)

/-- The encryptor of an item. -/
def encryptor : PlainItemV5 → EncryptorV5
  | .module _ => .module
  | .file _ => .file
  | .message _ => .message
  | .entry _ => .entry

/-- The data integrity object of an item. -/
def dio : PlainItemV5 → DataIntegrityObject
  | .module x => x.dio
  | .file x => x.dio
  | .message x => x.dio
  | .entry x => x.dio

/-- The fields that are encrypted. -/
def item : PlainItemV5 → ItemToEncryptV5
  | .module x => x.item E
  | .file x => x.item
  | .message x => x.item
  | .entry x => x.item

/-- The `encrypt` of the item's encryptor. -/
def encrypt (authorPrivateKey : C.PrivateKey) (encryptionKey : Bytes) (ivs : ItemIvs) :
    PlainItemV5 → Except EndpointException EncryptedItemV5
  | .module x => ModuleDataEncryptorV5.encrypt E x authorPrivateKey encryptionKey ivs
  | .file x => FileMetaEncryptorV5.encrypt E x authorPrivateKey encryptionKey ivs
  | .message x => MessageDataEncryptorV5.encrypt E x authorPrivateKey encryptionKey ivs
  | .entry x => EntryDataEncryptorV5.encrypt E x authorPrivateKey encryptionKey ivs

/-- A message or an entry, as it was decrypted without a failure. -/
def messageReadBack (x : MessageDataToEncryptV5) (authorPubKey : Bytes) : DecryptedItemV5 where
  statusCode := 0
  publicMeta := x.publicMeta
  privateMeta := x.privateMeta
  data := x.data
  internalMeta := x.internalMeta
  authorPubKey := authorPubKey
  dio := x.dio

/-- `decrypt` gives the item back, with status zero and its author. -/
def ReadBack (author : C.PrivateKey) (encrypted : EncryptedItemV5) (encryptionKey : Bytes) :
    PlainItemV5 → Prop
  | .module x =>
      ModuleDataEncryptorV5.decrypt E undefined encrypted encryptionKey =
        { statusCode := 0
          publicMeta := x.publicMeta
          privateMeta := x.privateMeta
          internalMeta := x.internalMeta
          authorPubKey := C.toBase58DER (C.getPublicKey author)
          dio := x.dio }
  | .file x =>
      FileMetaEncryptorV5.decrypt E undefined encrypted encryptionKey =
        { statusCode := 0
          publicMeta := x.publicMeta
          privateMeta := x.privateMeta
          data := []
          internalMeta := some x.internalMeta
          authorPubKey := C.toBase58DER (C.getPublicKey author)
          dio := x.dio }
  | .message x =>
      MessageDataEncryptorV5.decrypt E undefined encrypted encryptionKey =
        messageReadBack x (C.toBase58DER (C.getPublicKey author))
  | .entry x =>
      EntryDataEncryptorV5.decrypt E undefined encrypted encryptionKey =
        messageReadBack x (C.toBase58DER (C.getPublicKey author))

end PlainItemV5

/-! ### One encryptor at a time -/

section Proofs

variable {E : EnvelopeLibrary C} {undefined : Except EndpointException BridgeIdentity}
  {x : PlainItemV5} {author : C.PrivateKey} {encryptionKey : Bytes} {data : Option Bytes}
  {encrypted tampered received : EncryptedItemV5}

/-- Every kind of item is put into an envelope of its own. -/
theorem PlainItemV5.encrypt_spec (hE : E.Lawful) (x : PlainItemV5) (author : C.PrivateKey)
    {encryptionKey : Bytes} (hkey : encryptionKey.length = 32) (ivs : ItemIvs)
    (hsign : DioLibrary.Signable C (x.dio.expanded []) author) :
    ∃ data encrypted, x.encrypt E author encryptionKey ivs = .ok encrypted ∧
      EnvelopeOf E (x.item E) author encryptionKey data encrypted := by
  cases x with
  | module x => exact encryptItemV5_spec hE (x.item E) author hkey ivs hsign
  | file x => exact encryptItemV5_spec hE x.item author hkey ivs hsign
  | message x => exact encryptItemV5_spec hE x.item author hkey ivs hsign
  | entry x => exact encryptItemV5_spec hE x.item author hkey ivs hsign

/-- What decrypts is extracted, but from a file only with its public object. -/
theorem EncryptorV5.extracted_iff (hE : E.Lawful) (encryptor : EncryptorV5)
    (h : (encryptor.decrypted E undefined received encryptionKey).1 = 0) :
    encryptor.extracted E undefined received =
        encryptor.decrypted E undefined received encryptionKey ↔
      (encryptor = .file → received.publicMetaObject.isSome) := by
  cases encryptor with
  | module =>
      refine (extractPublic_iff hE ModuleDataEncryptorV5.keepsPublic h).trans ?_
      exact ⟨fun _ hfile => (nomatch hfile), fun _ hobject => hobject⟩
  | file =>
      refine (extractPublic_iff hE FileMetaEncryptorV5.keepsPublic h).trans ?_
      cases received.publicMetaObject with
      | none => exact ⟨fun hobject _ => hobject rfl, fun hobject _ => hobject rfl⟩
      | some object => exact ⟨fun _ _ => rfl, fun _ _ => rfl⟩
  | message =>
      refine (extractPublic_iff hE MessageDataEncryptorV5.keepsPublic h).trans ?_
      exact ⟨fun _ hfile => (nomatch hfile), fun _ hobject => hobject⟩
  | entry =>
      refine (extractPublic_iff hE MessageDataEncryptorV5.keepsPublic h).trans ?_
      exact ⟨fun _ hfile => (nomatch hfile), fun _ hobject => hobject⟩

/-- An envelope is its fields. -/
theorem EncryptedItemV5.eq_of_fields {e e' : EncryptedItemV5} (hversion : e.version = e'.version)
    (hpublic : e.publicMeta = e'.publicMeta) (hobject : e.publicMetaObject = e'.publicMetaObject)
    (hprivate : e.privateMeta = e'.privateMeta) (hdata : e.data = e'.data)
    (hinternal : e.internalMeta = e'.internalMeta) (hauthor : e.authorPubKey = e'.authorPubKey)
    (hdio : e.dio = e'.dio) : e = e' := by
  cases e
  cases e'
  exact EncryptedItemV5.mk.injEq .. ▸ ⟨hversion, hpublic, hobject, hprivate, hdata, hinternal,
    hauthor, hdio⟩

/-- Internal metadata that has to be there is the original. -/
theorem internalMeta_eq {m text : Option Bytes} (hm : m.isSome) (htext : text.isSome)
    (h : m.getD [] = text.getD []) : m = text := by
  cases m with
  | none => cases hm
  | some m =>
      cases text with
      | none => cases htext
      | some text => exact congrArg some h

/-- An item with internal meta has it in its envelope. -/
theorem EnvelopeOf.internalMeta_isSome {x : ItemToEncryptV5}
    (hx : EnvelopeOf E x author encryptionKey data encrypted) {internalMeta : Bytes}
    (hinternal : x.internalMeta = some internalMeta) : encrypted.internalMeta.isSome := by
  have hrel := hx.internalMeta
  rw [hinternal] at hrel
  cases hm : encrypted.internalMeta with
  | none =>
      rw [hm] at hrel
      cases hrel
  | some text => rfl

/-- Without data an envelope with the original checksums is the original. -/
theorem EncryptorV5.Exchanged.false_of_checked (hsha : Function.Injective C.sha256)
    {encryptor : EncryptorV5} (hexchanged : encryptor.Exchanged encrypted tampered)
    (hno : encryptor.hasData = false) {x : ItemToEncryptV5}
    (hx : EnvelopeOf E x author encryptionKey data encrypted) (hdata : x.data = none)
    {internalMeta : Bytes} (hinternal : x.internalMeta = some internalMeta)
    (hthere : tampered.internalMeta.isSome)
    (hauthor : tampered.authorPubKey = encrypted.authorPubKey)
    (hchecked : ∀ field ∈ fileFormat.checkedFields tampered,
      checksumAt (itemChecksums C data encrypted) field.1 = .ok (C.sha256 field.2)) : False := by
  obtain ⟨hpublic, hprivate, hinner⟩ := hx.fields_eq hsha hdata hinternal hchecked
  exact hexchanged.ne (EncryptedItemV5.eq_of_fields hexchanged.version hpublic
    hexchanged.publicMetaObject hprivate (hexchanged.data hno)
    (internalMeta_eq hthere (hx.internalMeta_isSome hinternal) hinner) hauthor hexchanged.dio)

/-- With data it is the original without its internal metadata. -/
theorem EncryptorV5.Exchanged.removes_of_checked (hsha : Function.Injective C.sha256)
    {encryptor : EncryptorV5} (hexchanged : encryptor.Exchanged encrypted tampered)
    (hhas : encryptor.hasData = true) {x : ItemToEncryptV5}
    (hx : EnvelopeOf E x author encryptionKey data encrypted) {d : Bytes} (hdata : x.data = some d)
    (formatError : ErrorCode) (hauthor : tampered.authorPubKey = encrypted.authorPubKey)
    (hchecked : ∀ field ∈ (messageFormat formatError).checkedFields tampered,
      checksumAt (itemChecksums C data encrypted) field.1 = .ok (C.sha256 field.2)) :
    encryptor.RemovesInternalMeta encrypted tampered := by
  obtain ⟨hpublic, hprivate, hbody, hinner⟩ := hx.fields_eq_or_missing hsha hdata hchecked
  have hnot : tampered.internalMeta ≠ encrypted.internalMeta := fun hsame =>
    hexchanged.ne (EncryptedItemV5.eq_of_fields hexchanged.version hpublic
      hexchanged.publicMetaObject hprivate hbody hsame hauthor hexchanged.dio)
  have hmissing : tampered.internalMeta = none := hinner.resolve_left hnot
  refine ⟨hhas, ?_, EncryptedItemV5.eq_of_fields hexchanged.version hpublic
    hexchanged.publicMetaObject hprivate hbody hmissing hauthor hexchanged.dio⟩
  rw [hmissing] at hnot
  exact Option.isSome_iff_ne_none.mpr hnot.symm

/-- **Tamper evidence.**  An exchanged envelope of status zero has only lost the
internal metadata of a message or an entry. -/
theorem PlainItemV5.removes_of_exchanged (hsha : Function.Injective C.sha256)
    (hx : EnvelopeOf E (x.item E) author encryptionKey data encrypted)
    (hexchanged : x.encryptor.Exchanged encrypted tampered) {key : Bytes}
    (h : (x.encryptor.decrypted E undefined tampered key).1 = 0) :
    x.encryptor.RemovesInternalMeta encrypted tampered := by
  cases x with
  | module x =>
      obtain ⟨dio, _, _, hchecked, -, -⟩ :=
        publicMetaRead_of_decrypt ModuleDataEncryptorV5.keepsPublic h
      obtain ⟨hformat, hauthor, hfields, -⟩ := (hx.getDIO_iff hexchanged.dio).mp hchecked
      have hthere : tampered.internalMeta.isSome := by
        cases hm : tampered.internalMeta with
        | none =>
            simp only [moduleFormat, hm, Option.getD_none, List.isEmpty_nil, Bool.not_true,
              Bool.and_false, Bool.false_and, Bool.false_eq_true] at hformat
        | some m => rfl
      exact (hexchanged.false_of_checked hsha rfl hx rfl rfl hthere hauthor hfields).elim
  | file x =>
      obtain ⟨dio, _, _, hchecked, -, -⟩ :=
        publicMetaRead_of_decrypt FileMetaEncryptorV5.keepsPublic h
      obtain ⟨hformat, hauthor, hfields, -⟩ := (hx.getDIO_iff hexchanged.dio).mp hchecked
      have hthere : tampered.internalMeta.isSome := by
        simp only [fileFormat, Bool.and_eq_true] at hformat
        exact hformat.2
      exact (hexchanged.false_of_checked hsha rfl hx rfl rfl hthere hauthor hfields).elim
  | message x =>
      obtain ⟨dio, _, _, hchecked, -, -⟩ :=
        publicMetaRead_of_decrypt MessageDataEncryptorV5.keepsPublic h
      obtain ⟨-, hauthor, hfields, -⟩ := (hx.getDIO_iff hexchanged.dio).mp hchecked
      exact hexchanged.removes_of_checked hsha rfl hx rfl _ hauthor hfields
  | entry x =>
      obtain ⟨dio, _, _, hchecked, -, -⟩ :=
        publicMetaRead_of_decrypt MessageDataEncryptorV5.keepsPublic h
      obtain ⟨-, hauthor, hfields, -⟩ := (hx.getDIO_iff hexchanged.dio).mp hchecked
      exact hexchanged.removes_of_checked hsha rfl hx rfl _ hauthor hfields

/-- An item whose object has a bridge identity comes back. -/
theorem PlainItemV5.readBack_of_envelope (hE : E.Lawful)
    (hx : EnvelopeOf E (x.item E) author encryptionKey data encrypted) {b : BridgeIdentity}
    (hbridge : x.dio.bridgeIdentity = some b) :
    x.ReadBack E undefined author encrypted encryptionKey := by
  cases x with
  | module x => exact ModuleDataEncryptorV5.decrypt_of_envelope hE hx hbridge
  | file x => exact FileMetaEncryptorV5.decrypt_of_envelope hE hx hbridge
  | message x =>
      exact MessageDataEncryptorV5.decrypt_of_envelope hE hx hbridge hx.internalMeta (.inl rfl)
        _ _ _
  | entry x =>
      exact MessageDataEncryptorV5.decrypt_of_envelope hE hx hbridge hx.internalMeta (.inl rfl)
        _ _ _

/-- Removed internal metadata is not noticed. -/
theorem PlainItemV5.status_of_removed (hE : E.Lawful)
    (hx : EnvelopeOf E (x.item E) author encryptionKey data encrypted) {b : BridgeIdentity}
    (hbridge : x.dio.bridgeIdentity = some b)
    (hremoves : x.encryptor.RemovesInternalMeta encrypted tampered) :
    (x.encryptor.decrypted E undefined tampered encryptionKey).1 = 0 := by
  obtain ⟨hhas, -, rfl⟩ := hremoves
  cases x with
  | module x => cases hhas
  | file x => cases hhas
  | message x =>
      exact congrArg DecryptedItemV5.statusCode
        (MessageDataEncryptorV5.decrypt_of_envelope hE hx hbridge .none (.inr rfl) _ _ _)
  | entry x =>
      exact congrArg DecryptedItemV5.statusCode
        (MessageDataEncryptorV5.decrypt_of_envelope hE hx hbridge .none (.inr rfl) _ _ _)

/-- What comes back is decrypted with the object of the item. -/
theorem PlainItemV5.decrypted_of_readBack
    (h : x.ReadBack E undefined author encrypted encryptionKey) :
    (x.encryptor.decrypted E undefined encrypted encryptionKey).1 = 0 ∧
      (x.encryptor.decrypted E undefined encrypted encryptionKey).2.2 = x.dio := by
  cases x with
  | module x => exact ⟨congrArg (·.statusCode) h, congrArg (·.dio) h⟩
  | file x => exact ⟨congrArg (·.statusCode) h, congrArg (·.dio) h⟩
  | message x => exact ⟨congrArg (·.statusCode) h, congrArg (·.dio) h⟩
  | entry x => exact ⟨congrArg (·.statusCode) h, congrArg (·.dio) h⟩

/-- A decrypted object has a bridge identity, whatever was signed. -/
theorem EnvelopeOf.bridgeIdentity_of_decrypt {x : ItemToEncryptV5}
    (hx : EnvelopeOf E x author encryptionKey data encrypted) {mismatch : ErrorCode}
    {comparedPublic : EncryptedItemV5 → Bool}
    {decryptFields : EncryptedItemV5 → C.PublicKey → Bytes →
      Throwing.Prog EndpointException ItemContents Unit}
    (hkeeps : KeepsPublic decryptFields) {F : ItemFormat} {key : Bytes}
    (h : ((itemCryptoV5 E undefined mismatch comparedPublic decryptFields).decrypt F encrypted
      key).statusCode = 0)
    (hdio : ((itemCryptoV5 E undefined mismatch comparedPublic decryptFields).decrypt F encrypted
      key).dio = x.dio) :
    x.dio.bridgeIdentity.isSome := by
  obtain ⟨dio, _, publicMeta, hchecked, -, hpart⟩ := publicMetaRead_of_decrypt hkeeps h
  obtain ⟨-, -, -, b, -, hb⟩ := (hx.getDIO_iff rfl).mp hchecked
  have hown : dio = x.dio := (congrArg (fun part => part.2.2) hpart).symm.trans hdio
  rw [← hown, hb]
  rfl

/-- An item that was read back named its bridge. -/
theorem PlainItemV5.bridgeIdentity_of_decrypted
    (hx : EnvelopeOf E (x.item E) author encryptionKey data encrypted)
    (h : (x.encryptor.decrypted E undefined encrypted encryptionKey).1 = 0)
    (hdio : (x.encryptor.decrypted E undefined encrypted encryptionKey).2.2 = x.dio) :
    x.dio.bridgeIdentity.isSome := by
  cases x with
  | module x => exact hx.bridgeIdentity_of_decrypt ModuleDataEncryptorV5.keepsPublic h hdio
  | file x => exact hx.bridgeIdentity_of_decrypt FileMetaEncryptorV5.keepsPublic h hdio
  | message x => exact hx.bridgeIdentity_of_decrypt MessageDataEncryptorV5.keepsPublic h hdio
  | entry x => exact hx.bridgeIdentity_of_decrypt MessageDataEncryptorV5.keepsPublic h hdio

end Proofs

/-! ### What is protected -/

/-- **The envelopes of version 5.**  For each encryptor: the item comes back,
the exchanged envelope is refused and the public part of what decrypts is
extracted, exactly if the object has a bridge identity, the exchange is not the
removal of internal metadata from a message or an entry, and a file has a public
object. -/
theorem PlainItemV5.envelope_protected_iff {E : EnvelopeLibrary C} (hE : E.Lawful)
    (hsha : Function.Injective C.sha256) (undefined : Except EndpointException BridgeIdentity)
    (x : PlainItemV5) (author : C.PrivateKey) (encryptionKey : Bytes)
    (hkey : encryptionKey.length = 32) (ivs : ItemIvs)
    (hsign : DioLibrary.Signable C (x.dio.expanded []) author) :
    ∃ encrypted, x.encrypt E author encryptionKey ivs = .ok encrypted ∧
      ∀ tampered received receivedKey, x.encryptor.Exchanged encrypted tampered →
        (x.encryptor.decrypted E undefined received receivedKey).1 = 0 →
        ((x.ReadBack E undefined author encrypted encryptionKey ∧
            (x.encryptor.decrypted E undefined tampered encryptionKey).1 ≠ 0 ∧
            x.encryptor.extracted E undefined received =
              x.encryptor.decrypted E undefined received receivedKey) ↔
          x.dio.bridgeIdentity.isSome ∧
            ¬ x.encryptor.RemovesInternalMeta encrypted tampered ∧
            (x.encryptor = .file → received.publicMetaObject.isSome)) := by
  obtain ⟨data, encrypted, hencrypt, hx⟩ := x.encrypt_spec hE author hkey ivs hsign
  refine ⟨encrypted, hencrypt, fun tampered received receivedKey hexchanged hreceived => ?_⟩
  rw [EncryptorV5.extracted_iff hE x.encryptor hreceived]
  constructor
  · rintro ⟨hback, hrefused, hobject⟩
    obtain ⟨hstatus, hdio⟩ := x.decrypted_of_readBack hback
    have hbridge := x.bridgeIdentity_of_decrypted hx hstatus hdio
    obtain ⟨b, hb⟩ := Option.isSome_iff_exists.mp hbridge
    exact ⟨hbridge, fun hremoves => hrefused (x.status_of_removed hE hx hb hremoves), hobject⟩
  · rintro ⟨hbridge, hkept, hobject⟩
    obtain ⟨b, hb⟩ := Option.isSome_iff_exists.mp hbridge
    exact ⟨x.readBack_of_envelope hE hx hb,
      fun hzero => hkept (x.removes_of_exchanged hsha hx hexchanged hzero), hobject⟩

/-! ### A lawful instance -/

/-- Padded texts under sample tags; the only public object is `{}`. -/
def sampleEnvelopeLibrary : EnvelopeLibrary sampleKeyCrypto :=
  { sampleDioLibrary with
    hmacSha256 := sampleHmac
    aes256CbcPkcs7Encrypt := fun data _ _ => samplePad data
    aes256CbcPkcs7Decrypt := fun cipher _ _ =>
      match sampleUnpad cipher with
      | .ok data => .ok data
      | .error _ => .error .other
    stringifyParsed := fun json => if json = [123, 125] then .ok json else .error jsonParse
    stringifyEmpty := .ok [] }

/-- The sample padding leaves a full block in front. -/
theorem samplePad_append {head : Bytes} (hhead : head.length = 16) (data : Bytes) :
    samplePad (head ++ data) = head ++ samplePad data := by
  unfold samplePad
  rw [List.length_append, hhead, Nat.add_mod_left, List.append_assoc]

/-- The sample library satisfies the laws. -/
theorem sampleEnvelopeLibrary_lawful : sampleEnvelopeLibrary.Lawful where
  toLawful := sampleDioLibrary_lawful
  base64From_eq_nil _ h := h
  length_hmacSha256 := samplePrimitives.hmacSha256_length
  length_aes := samplePrimitives.aes_length
  decrypt_chained head data key iv hhead hkey hiv := by
    show (match sampleUnpad ((samplePad (head ++ data)).drop 16) with
      | .ok data => Except.ok data
      | .error _ => .error EndpointException.other) = .ok data
    rw [samplePad_append hhead, ← hhead, List.drop_left, sampleUnpad_samplePad]
  stringifyParsed_ne_empty json text h := by
    intro hempty
    have hnil : text = [] := (Except.ok.inj hempty).symm
    change (if json = [123, 125] then Except.ok json else .error jsonParse) = .ok text at h
    split at h
    · rename_i hjson
      rw [hnil, hjson] at h
      cases h
    · cases h

/-- A message of the author `1` with internal metadata. -/
def sampleMessageToEncrypt (bridgeIdentity : Option BridgeIdentity) : MessageDataToEncryptV5 where
  publicMeta := [112]
  privateMeta := [115]
  data := [100]
  internalMeta := some [105]
  dio := (sampleDio bridgeIdentity).toDataIntegrityObject

/-- A file whose public metadata is no JSON object. -/
def sampleFileToEncrypt (bridgeIdentity : Option BridgeIdentity) : FileMetaToEncryptV5 where
  publicMeta := [112]
  privateMeta := [115]
  internalMeta := [105]
  dio := (sampleDio bridgeIdentity).toDataIntegrityObject

/-- A bridge without a key. -/
def sampleBridgeIdentity : BridgeIdentity where
  url := [104]
  pubKey := none
  instanceId := none

/-- The sample key has 32 bytes. -/
theorem sampleKey_length : (List.replicate 32 (0 : UInt8)).length = 32 := rfl

/-- Vectors of zeros. -/
theorem length_zeroIv : (List.replicate 16 (0 : UInt8)).length = 16 := rfl

def sampleIvs : ItemIvs where
  privateMeta := ⟨List.replicate 16 0, length_zeroIv⟩
  data := ⟨List.replicate 16 0, length_zeroIv⟩
  internalMeta := ⟨List.replicate 16 0, length_zeroIv⟩

/-- A message is read back from its envelope and rejected from a changed one. -/
theorem PlainItemV5.envelope_protected_sample :
    ∃ encrypted tampered,
      (PlainItemV5.message (sampleMessageToEncrypt (some sampleBridgeIdentity))).encrypt
          sampleEnvelopeLibrary (1 : UInt8) (List.replicate 32 0) sampleIvs = .ok encrypted ∧
        (PlainItemV5.message (sampleMessageToEncrypt (some sampleBridgeIdentity))).ReadBack
          sampleEnvelopeLibrary (.error .other) (1 : UInt8) encrypted (List.replicate 32 0) ∧
        (EncryptorV5.message.decrypted sampleEnvelopeLibrary (.error .other) tampered
          (List.replicate 32 0)).1 ≠ 0 := by
  have hsign : DioLibrary.Signable sampleKeyCrypto
      ((sampleDio (some sampleBridgeIdentity)).toDataIntegrityObject.expanded []) (1 : UInt8) :=
    ⟨rfl, List.cons_ne_nil _ _, List.cons_ne_nil _ _, List.cons_ne_nil _ _⟩
  obtain ⟨encrypted, hencrypt, hprotected⟩ :=
    PlainItemV5.envelope_protected_iff sampleEnvelopeLibrary_lawful Function.injective_id
      (.error .other) (.message (sampleMessageToEncrypt (some sampleBridgeIdentity))) (1 : UInt8)
      (List.replicate 32 0) rfl sampleIvs hsign
  obtain ⟨data, own, hown, hx⟩ :=
    (PlainItemV5.message (sampleMessageToEncrypt (some sampleBridgeIdentity))).encrypt_spec
      sampleEnvelopeLibrary_lawful (1 : UInt8) sampleKey_length sampleIvs hsign
  rw [hencrypt] at hown
  obtain rfl := Except.ok.inj hown
  have hback : (PlainItemV5.message (sampleMessageToEncrypt (some sampleBridgeIdentity))).ReadBack
      sampleEnvelopeLibrary (.error .other) (1 : UInt8) encrypted (List.replicate 32 0) :=
    PlainItemV5.readBack_of_envelope sampleEnvelopeLibrary_lawful hx rfl
  have hother : encrypted.authorPubKey ≠ [9] := by
    rw [hx.authorPubKey]
    decide
  have hresult := (hprotected { encrypted with authorPubKey := [9] } encrypted
    (List.replicate 32 0)
    ⟨rfl, rfl, rfl, fun _ => rfl, fun h => hother (congrArg (·.authorPubKey) h).symm⟩
    (PlainItemV5.decrypted_of_readBack hback).1).mpr
    ⟨rfl, fun h => hother (congrArg (·.authorPubKey) h.2.2).symm, fun h => nomatch h⟩
  exact ⟨encrypted, _, hencrypt, hresult.1, hresult.2.1⟩

/-- A message that lost its internal metadata decrypts with status zero, and so
does a file whose public part is not extracted. -/
theorem PlainItemV5.envelope_not_protected :
    sampleEnvelopeLibrary.Lawful ∧ Function.Injective sampleKeyCrypto.sha256 ∧
      (∃ encrypted,
        (PlainItemV5.message (sampleMessageToEncrypt (some sampleBridgeIdentity))).encrypt
            sampleEnvelopeLibrary (1 : UInt8) (List.replicate 32 0) sampleIvs = .ok encrypted ∧
          encrypted.internalMeta.isSome ∧
          (EncryptorV5.message.decrypted sampleEnvelopeLibrary (.error .other)
            { encrypted with internalMeta := none } (List.replicate 32 0)).1 = 0) ∧
      ∃ encrypted,
        (PlainItemV5.file (sampleFileToEncrypt (some sampleBridgeIdentity))).encrypt
            sampleEnvelopeLibrary (1 : UInt8) (List.replicate 32 0) sampleIvs = .ok encrypted ∧
          (EncryptorV5.file.decrypted sampleEnvelopeLibrary (.error .other) encrypted
            (List.replicate 32 0)).1 = 0 ∧
          EncryptorV5.file.extracted sampleEnvelopeLibrary (.error .other) encrypted ≠
            EncryptorV5.file.decrypted sampleEnvelopeLibrary (.error .other) encrypted
              (List.replicate 32 0) := by
  have hsign : DioLibrary.Signable sampleKeyCrypto
      ((sampleDio (some sampleBridgeIdentity)).toDataIntegrityObject.expanded []) (1 : UInt8) :=
    ⟨rfl, List.cons_ne_nil _ _, List.cons_ne_nil _ _, List.cons_ne_nil _ _⟩
  refine ⟨sampleEnvelopeLibrary_lawful, Function.injective_id, ?message, ?file⟩
  case message =>
    obtain ⟨data, encrypted, hencrypt, hx⟩ :=
      (PlainItemV5.message (sampleMessageToEncrypt (some sampleBridgeIdentity))).encrypt_spec
        sampleEnvelopeLibrary_lawful (1 : UInt8) sampleKey_length sampleIvs hsign
    have hthere : encrypted.internalMeta.isSome := hx.internalMeta_isSome rfl
    exact ⟨encrypted, hencrypt, hthere, PlainItemV5.status_of_removed
      sampleEnvelopeLibrary_lawful hx rfl ⟨rfl, hthere, rfl⟩⟩
  case file =>
    obtain ⟨data, encrypted, hencrypt, hx⟩ :=
      (PlainItemV5.file (sampleFileToEncrypt (some sampleBridgeIdentity))).encrypt_spec
        sampleEnvelopeLibrary_lawful (1 : UInt8) sampleKey_length sampleIvs hsign
    have hback : (PlainItemV5.file (sampleFileToEncrypt (some sampleBridgeIdentity))).ReadBack
        sampleEnvelopeLibrary (.error .other) (1 : UInt8) encrypted (List.replicate 32 0) :=
      PlainItemV5.readBack_of_envelope sampleEnvelopeLibrary_lawful hx rfl
    have hzero := (PlainItemV5.decrypted_of_readBack hback).1
    refine ⟨encrypted, hencrypt, hzero, fun hsame => ?_⟩
    have hobject := (EncryptorV5.extracted_iff sampleEnvelopeLibrary_lawful .file hzero).mp hsame rfl
    rw [hx.publicMetaObject] at hobject
    exact absurd hobject Bool.false_ne_true

end PrivmxEndpoint
