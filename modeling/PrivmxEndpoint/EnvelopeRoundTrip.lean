import PrivmxEndpoint.EnvelopeV5

/-!
# What an envelope of version 5 protects

The signed data integrity object holds a checksum of every field that was
encrypted, and the integrity check compares the checksums of the fields that
are *there*.  An envelope comes back exactly if its object has a bridge
identity, and an exchanged field is noticed; but internal metadata that a
message or an entry has lost is not, since nothing asks for its checksum.
-/

namespace PrivmxEndpoint

open Throwing

variable {C : KeyCrypto} {E : EnvelopeLibrary C} {undefined : Except EndpointException BridgeIdentity}

/-! ### The integrity check -/

/-- The checksums agree if each field has its own. -/
theorem ItemCrypto.assertChecksums_eq_ok {crypto : ItemCrypto} {checksums : List (String × Bytes)}
    {fields : List (String × Bytes)} :
    crypto.assertChecksums checksums fields = .ok () ↔
      ∀ field ∈ fields, checksumAt checksums field.1 = .ok (crypto.sha256 field.2) := by
  induction fields with
  | nil => exact ⟨fun _ _ h => absurd h List.not_mem_nil, fun _ => rfl⟩
  | cons field fields ih =>
      obtain ⟨name, value⟩ := field
      rw [List.forall_mem_cons, ← ih]
      cases hat : checksumAt checksums name with
      | error e => simp only [ItemCrypto.assertChecksums, hat, reduceCtorEq, false_and]
      | ok checksum =>
          by_cases hsame : checksum = crypto.sha256 value
          · simp only [ItemCrypto.assertChecksums, hat, hsame, ne_eq, not_true_eq_false, if_false,
              true_and]
          · simp only [ItemCrypto.assertChecksums, hat, ne_eq, hsame, not_false_eq_true, if_true,
              Except.ok.injEq, false_and, reduceCtorEq]

/-- What an envelope has to satisfy to pass the integrity check. -/
theorem ItemCrypto.getDIO_eq_ok {crypto : ItemCrypto} {F : ItemFormat}
    {encrypted : EncryptedItemV5} {dio : DataIntegrityObject} :
    crypto.getDIOAndAssertIntegrity F encrypted = .ok dio ↔
      F.wellFormed encrypted = true ∧
      ∃ signed, crypto.decodeAndVerify encrypted.dio = .ok signed ∧
        signed.structureVersion = 5 ∧ signed.creatorPubKey = encrypted.authorPubKey ∧
        (∀ field ∈ F.checkedFields encrypted,
          checksumAt signed.fieldChecksums field.1 = .ok (crypto.sha256 field.2)) ∧
        signed.toDataIntegrityObject = dio := by
  constructor
  · intro h
    unfold ItemCrypto.getDIOAndAssertIntegrity at h
    split at h
    · rename_i hformat
      split at h
      · cases h
      · rename_i signed hdecode
        split at h
        · cases h
        · rename_i hsame
          obtain ⟨hversion, hcreator⟩ := not_or.mp hsame
          split at h
          · cases h
          · rename_i hchecksums
            cases h
            exact ⟨hformat, signed, hdecode, not_not.mp hversion, not_not.mp hcreator,
              ItemCrypto.assertChecksums_eq_ok.mp hchecksums, rfl⟩
    · cases h
  · rintro ⟨hformat, signed, hdecode, hversion, hcreator, hchecksums, rfl⟩
    unfold ItemCrypto.getDIOAndAssertIntegrity
    simp only [hformat, if_true, hdecode, hversion, hcreator, ne_eq, not_true_eq_false, or_self,
      if_false, ItemCrypto.assertChecksums_eq_ok.mpr hchecksums]

/-- A status of zero: the integrity check passed, all contents were read and the
public ones agree. -/
theorem ItemCrypto.readItem_statusCode {crypto : ItemCrypto} {F : ItemFormat}
    {contents : EncryptedItemV5 → ItemContents × Option EndpointException}
    {encrypted : EncryptedItemV5} :
    (crypto.readItem F contents encrypted).statusCode = 0 ↔
      ∃ dio c, crypto.getDIOAndAssertIntegrity F encrypted = .ok dio ∧
        contents encrypted = (c, none) ∧ c.mismatchStatus = 0 := by
  unfold ItemCrypto.readItem
  cases hdio : crypto.getDIOAndAssertIntegrity F encrypted with
  | error e =>
      constructor
      · intro h
        exact absurd h e.statusCode.2
      · rintro ⟨_, _, h, -⟩
        cases h
  | ok dio =>
      obtain ⟨c, exception⟩ := contents encrypted
      cases exception with
      | none =>
          constructor
          · intro h
            exact ⟨dio, c, rfl, rfl, h⟩
          · rintro ⟨_, _, _, hc, h⟩
            cases hc
            exact h
      | some e =>
          constructor
          · intro h
            exact absurd h e.statusCode.2
          · rintro ⟨_, _, _, hc, -⟩
            cases hc

/-- The result of such a reading. -/
theorem ItemCrypto.readItem_of_contents {crypto : ItemCrypto} {F : ItemFormat}
    {contents : EncryptedItemV5 → ItemContents × Option EndpointException}
    {encrypted : EncryptedItemV5} {dio : DataIntegrityObject} {c : ItemContents}
    (hdio : crypto.getDIOAndAssertIntegrity F encrypted = .ok dio)
    (hcontents : contents encrypted = (c, none)) :
    crypto.readItem F contents encrypted =
      { statusCode := c.mismatchStatus
        publicMeta := c.publicMeta
        privateMeta := c.privateMeta
        data := c.data
        internalMeta := c.internalMeta
        authorPubKey := encrypted.authorPubKey
        dio := dio } := by
  unfold ItemCrypto.readItem
  simp only [hdio, hcontents]

/-- A program threw nothing exactly when it ran to its end. -/
theorem contentsOf_eq_none {m : Prog EndpointException ItemContents Unit} {c : ItemContents} :
    contentsOf m = (c, none) ↔ exec m .unread = (.ok (), c) := by
  unfold contentsOf
  cases h : exec m .unread with
  | mk result c' =>
      cases result with
      | ok a =>
          simp only [Prod.mk.injEq, and_true]
          exact ⟨fun h => ⟨trivial, h⟩, fun h => h.2⟩
      | error e =>
          simp only [Prod.mk.injEq, reduceCtorEq, and_false, false_and]

/-! ### The public metadata -/

/-- The public metadata that agree with the public object, if the two are
compared. -/
structure PublicMetaRead (E : EnvelopeLibrary C) (compared : Bool) (encrypted : EncryptedItemV5)
    (authorPublicKey : C.PublicKey) (publicMeta : Bytes) : Prop where
  author : C.fromBase58DER encrypted.authorPubKey = .ok authorPublicKey
  decoded : DataEncryptorV4.decodeAndVerify E encrypted.publicMeta authorPublicKey = .ok publicMeta
  agree : compared = true → ∃ text, E.stringifyParsed publicMeta = .ok text ∧
    E.stringifyVar encrypted.publicMetaObject = .ok text

/-- A public part that reads well is stored. -/
theorem exec_readPublicMeta {mismatch : ErrorCode} {compared : Bool}
    {encrypted : EncryptedItemV5} {authorPublicKey : C.PublicKey} {publicMeta : Bytes}
    (h : PublicMetaRead E compared encrypted authorPublicKey publicMeta) :
    exec (readPublicMeta E mismatch compared encrypted) .unread =
      (.ok authorPublicKey, { ItemContents.unread with publicMeta := publicMeta }) := by
  unfold readPublicMeta
  rw [h.author, exec_lift_ok_bind, h.decoded, exec_lift_ok_bind, exec_modify_bind]
  cases compared with
  | false => rfl
  | true =>
      obtain ⟨text, hparsed, hobject⟩ := h.agree rfl
      simp only [if_true]
      rw [hparsed, exec_lift_ok_bind, hobject, exec_lift_ok_bind, if_neg (not_not.mpr rfl)]
      rfl

/-- What was stored without a mismatch reads well. -/
theorem publicMetaRead_of_exec {mismatch : ErrorCode} {compared : Bool}
    {encrypted : EncryptedItemV5} {authorPublicKey : C.PublicKey} {c : ItemContents}
    (h : exec (readPublicMeta E mismatch compared encrypted) .unread = (.ok authorPublicKey, c))
    (hstatus : c.mismatchStatus = 0) :
    ∃ publicMeta, PublicMetaRead E compared encrypted authorPublicKey publicMeta ∧
      c = { ItemContents.unread with publicMeta := publicMeta } := by
  unfold readPublicMeta at h
  obtain ⟨author, hauthor, h⟩ := exec_lift_bind_eq_ok.mp h
  obtain ⟨publicMeta, hmeta, h⟩ := exec_lift_bind_eq_ok.mp h
  rw [exec_modify_bind] at h
  cases compared with
  | false =>
      cases h
      exact ⟨publicMeta, ⟨hauthor, hmeta, fun h => absurd h Bool.false_ne_true⟩, rfl⟩
  | true =>
      simp only [if_true] at h
      obtain ⟨tmp_1, hparsed, h⟩ := exec_lift_bind_eq_ok.mp h
      obtain ⟨tmp_2, hobject, h⟩ := exec_lift_bind_eq_ok.mp h
      by_cases hsame : tmp_1 = tmp_2
      · subst hsame
        rw [if_neg (not_not.mpr rfl)] at h
        cases h
        exact ⟨publicMeta, ⟨hauthor, hmeta, fun _ => ⟨tmp_1, hparsed, hobject⟩⟩, rfl⟩
      · rw [if_pos hsame] at h
        cases h
        exact absurd hstatus mismatch.2

/-- What `decrypt` and `extractPublic` have in common. -/
def DecryptedItemV5.publicPart (result : DecryptedItemV5) : Nat × Bytes × DataIntegrityObject :=
  (result.statusCode, result.publicMeta, result.dio)

/-- The encrypted fields leave the public ones alone. -/
def KeepsPublic (decryptFields : EncryptedItemV5 → C.PublicKey → Bytes →
    Prog EndpointException ItemContents Unit) : Prop :=
  ∀ encrypted authorPublicKey encryptionKey publicMeta mismatchStatus,
    Triple (fun c => c.publicMeta = publicMeta ∧ c.mismatchStatus = mismatchStatus)
      (decryptFields encrypted authorPublicKey encryptionKey)
      (fun _ c => c.publicMeta = publicMeta ∧ c.mismatchStatus = mismatchStatus)
      (fun c => c.publicMeta = publicMeta ∧ c.mismatchStatus = mismatchStatus)

section Fields

variable {mismatch : ErrorCode} {comparedPublic : EncryptedItemV5 → Bool}
  {decryptFields : EncryptedItemV5 → C.PublicKey → Bytes →
    Prog EndpointException ItemContents Unit}
  {F : ItemFormat} {encrypted : EncryptedItemV5} {encryptionKey : Bytes}

/-- A decryption of status zero has read the public metadata. -/
theorem publicMetaRead_of_decrypt (hkeeps : KeepsPublic decryptFields)
    (h : ((itemCryptoV5 E undefined mismatch comparedPublic decryptFields).decrypt F encrypted
      encryptionKey).statusCode = 0) :
    ∃ dio authorPublicKey publicMeta,
      (itemCryptoV5 E undefined mismatch comparedPublic decryptFields).getDIOAndAssertIntegrity F
        encrypted = .ok dio ∧
      PublicMetaRead E encrypted.publicMetaObject.isSome encrypted authorPublicKey publicMeta ∧
      ((itemCryptoV5 E undefined mismatch comparedPublic decryptFields).decrypt F encrypted
        encryptionKey).publicPart = (0, publicMeta, dio) := by
  obtain ⟨dio, c, hdio, hcontents, hstatus⟩ := ItemCrypto.readItem_statusCode.mp h
  obtain ⟨authorPublicKey, u, hpublic, hfields⟩ :=
    exec_bind_eq_ok.mp (contentsOf_eq_none.mp hcontents)
  have hkept := hkeeps encrypted authorPublicKey encryptionKey u.publicMeta u.mismatchStatus u
    ⟨rfl, rfl⟩
  rw [hfields] at hkept
  obtain ⟨publicMeta, hread, rfl⟩ := publicMetaRead_of_exec hpublic (hkept.2.symm.trans hstatus)
  refine ⟨dio, authorPublicKey, publicMeta, hdio, hread, ?_⟩
  show DecryptedItemV5.publicPart (ItemCrypto.readItem _ F _ encrypted) = _
  rw [ItemCrypto.readItem_of_contents hdio hcontents]
  show (c.mismatchStatus, c.publicMeta, dio) = _
  rw [hstatus, hkept.1]

/-- **The public part.**  After a decryption of status zero the public part is
extracted unless it is compared with an object that is not there. -/
theorem extractPublic_iff (hE : E.Lawful) (hkeeps : KeepsPublic decryptFields)
    (h : ((itemCryptoV5 E undefined mismatch comparedPublic decryptFields).decrypt F encrypted
      encryptionKey).statusCode = 0) :
    ((itemCryptoV5 E undefined mismatch comparedPublic decryptFields).extractPublic F
        encrypted).publicPart =
        ((itemCryptoV5 E undefined mismatch comparedPublic decryptFields).decrypt F encrypted
          encryptionKey).publicPart ↔
      (comparedPublic encrypted = true → encrypted.publicMetaObject.isSome) := by
  obtain ⟨dio, authorPublicKey, publicMeta, hdio, hread, hpart⟩ :=
    publicMetaRead_of_decrypt hkeeps h
  rw [hpart]
  constructor
  · intro hextracted hcompared
    have hzero : ((itemCryptoV5 E undefined mismatch comparedPublic decryptFields).extractPublic F
        encrypted).statusCode = 0 := congrArg Prod.fst hextracted
    obtain ⟨_, c, -, hcontents, hstatus⟩ := ItemCrypto.readItem_statusCode.mp hzero
    obtain ⟨author, u, hpublic, hrest⟩ := exec_bind_eq_ok.mp (contentsOf_eq_none.mp hcontents)
    cases hrest
    obtain ⟨m, hagree, -⟩ := publicMetaRead_of_exec hpublic hstatus
    obtain ⟨text, hparsed, hobject⟩ := hagree.agree hcompared
    cases hsome : encrypted.publicMetaObject with
    | some object => rfl
    | none =>
        rw [hsome] at hobject
        exact absurd hobject (hE.stringifyParsed_ne_empty _ _ hparsed)
  · intro hobject
    have hagree : PublicMetaRead E (comparedPublic encrypted) encrypted authorPublicKey
        publicMeta :=
      ⟨hread.author, hread.decoded, fun hcompared => hread.agree (hobject hcompared)⟩
    have hcontents : (itemCryptoV5 E undefined mismatch comparedPublic
        decryptFields).extractPublicContents encrypted =
        ({ ItemContents.unread with publicMeta := publicMeta }, none) := by
      refine contentsOf_eq_none.mpr ?_
      show exec (readPublicMeta E mismatch (comparedPublic encrypted) encrypted >>= fun _ => _) _ = _
      rw [exec_bind, exec_readPublicMeta hagree]
      rfl
    show DecryptedItemV5.publicPart (ItemCrypto.readItem _ F _ encrypted) = _
    rw [ItemCrypto.readItem_of_contents hdio hcontents]
    rfl

end Fields

/-! ### The encrypted fields -/

/-- A field keeps what its store keeps. -/
theorem triple_decryptField {text : Bytes} {authorPublicKey : C.PublicKey} {encryptionKey : Bytes}
    {store : Bytes → ItemContents → ItemContents} {P : ItemContents → Prop}
    (hstore : ∀ value c, P c → P (store value c)) :
    Triple P (decryptField E text authorPublicKey encryptionKey store) (fun _ => P) P :=
  Triple.lift_bind (fun _ h => h) fun value _ => Triple.modify (hstore value)

/-- The fields of a module leave the public part. -/
theorem ModuleDataEncryptorV5.keepsPublic : KeepsPublic (ModuleDataEncryptorV5.decryptFields E) := by
  intro encrypted authorPublicKey encryptionKey publicMeta mismatchStatus
  refine Triple.bind (triple_decryptField fun _ _ h => h) fun _ => ?_
  refine Triple.lift_bind (fun _ h => h) fun internalMeta _ => ?_
  refine Triple.lift_bind (fun _ h => h) fun _ _ => ?_
  exact Triple.modify fun _ h => h

/-- The fields of a file leave the public part. -/
theorem FileMetaEncryptorV5.keepsPublic : KeepsPublic (FileMetaEncryptorV5.decryptFields E) := by
  intro encrypted authorPublicKey encryptionKey publicMeta mismatchStatus
  refine Triple.bind (triple_decryptField fun _ _ h => h) fun _ => ?_
  exact triple_decryptField fun _ _ h => h

/-- The fields of a message leave the public part. -/
theorem MessageDataEncryptorV5.keepsPublic :
    KeepsPublic (MessageDataEncryptorV5.decryptFields E) := by
  intro encrypted authorPublicKey encryptionKey publicMeta mismatchStatus
  refine Triple.bind (triple_decryptField fun _ _ h => h) fun _ => ?_
  refine Triple.bind (triple_decryptField fun _ _ h => h) fun _ => ?_
  cases encrypted.internalMeta with
  | none => exact Triple.pure fun _ h => h
  | some internalMeta => exact triple_decryptField fun _ _ h => h

/-! ### What is encrypted -/

/-- The text is not empty and decrypts to the value. -/
def TextOf (E : EnvelopeLibrary C) (author : C.PrivateKey) (encryptionKey : Bytes)
    (value text : Bytes) : Prop :=
  text ≠ [] ∧ DataEncryptorV4.decodeAndDecryptAndVerify E text (C.getPublicKey author)
    encryptionKey = .ok value

/-- The checksums that are signed. -/
def itemChecksums (C : KeyCrypto) (data : Option Bytes) (encrypted : EncryptedItemV5) :
    List (String × Bytes) :=
  [("publicMeta", C.sha256 encrypted.publicMeta), ("privateMeta", C.sha256 encrypted.privateMeta)] ++
    (data.map fun d => ("data", C.sha256 d)).toList ++
    (encrypted.internalMeta.map fun m => ("internalMeta", C.sha256 m)).toList

/-- The envelope of an item.  `data` is the encrypted data, if the item has
any. -/
structure EnvelopeOf (E : EnvelopeLibrary C) (x : ItemToEncryptV5) (author : C.PrivateKey)
    (encryptionKey : Bytes) (data : Option Bytes) (encrypted : EncryptedItemV5) : Prop where
  version : encrypted.version = 5
  publicMeta_ne_nil : encrypted.publicMeta ≠ []
  publicMeta : DataEncryptorV4.decodeAndVerify E encrypted.publicMeta (C.getPublicKey author) =
    .ok x.publicMeta
  publicMetaObject : encrypted.publicMetaObject = (E.stringifyParsed x.publicMeta).toOption
  privateMeta : TextOf E author encryptionKey x.privateMeta encrypted.privateMeta
  data_rel : Option.Rel (TextOf E author encryptionKey) x.data data
  data_eq : encrypted.data = data.getD []
  internalMeta : Option.Rel (TextOf E author encryptionKey) x.internalMeta encrypted.internalMeta
  authorPubKey : encrypted.authorPubKey = C.toBase58DER (C.getPublicKey author)
  creatorPubKey : x.dio.creatorPubKey = encrypted.authorPubKey
  dio_ne_nil : encrypted.dio ≠ []
  dio : ∀ undefined, E.decodeAndVerify undefined encrypted.dio =
    (DIOEncryptorV1.readBridgeIdentity undefined x.dio.bridgeIdentity).map fun b =>
      { x.dio.expanded (itemChecksums C data encrypted) with bridgeIdentity := some b }

/-- An optional field is written when it is there. -/
theorem mapM_signAndEncryptAndEncode (hE : E.Lawful) (value : Option Bytes) (author : C.PrivateKey)
    {encryptionKey : Bytes} (hkey : encryptionKey.length = 32) (iv : Iv) :
    ∃ text, value.mapM (fun d =>
        DataEncryptorV4.signAndEncryptAndEncode E d author encryptionKey iv) = .ok text ∧
      Option.Rel (TextOf E author encryptionKey) value text := by
  cases value with
  | none => exact ⟨none, rfl, .none⟩
  | some d =>
      obtain ⟨text, hencrypt, htext⟩ :=
        DataEncryptorV4.decrypt_signAndEncryptAndEncode hE d author hkey iv
      refine ⟨some text, ?_, .some htext⟩
      show (some <$> DataEncryptorV4.signAndEncryptAndEncode E d author encryptionKey iv) = _
      rw [hencrypt]
      rfl

/-- A signed object as it is decoded, whatever an absent bridge identity reads
as. -/
theorem signAndEncode_decodes (hE : E.Lawful) {author : C.PrivateKey}
    {dio : ExpandedDataIntegrityObject} (h : DioLibrary.Signable C dio author) :
    ∃ signed, E.signAndEncode dio author = .ok signed ∧ signed ≠ [] ∧
      ∀ undefined, E.decodeAndVerify undefined signed =
        (DIOEncryptorV1.readBridgeIdentity undefined dio.bridgeIdentity).map fun b =>
          { dio with bridgeIdentity := some b } := by
  have hsigned : E.signAndEncode dio author = .ok (E.base64From
      (E.signAndPackDataWithSignature (E.stringify (E.dioJson dio).toJSON) author)) :=
    if_neg (not_not.mpr h.creatorPubKey)
  refine ⟨_, hsigned, fun hnil => ?_, fun undefined => ?_⟩
  · exact absurd (hE.base64From_eq_nil _ hnil) (List.cons_ne_nil _ _)
  · obtain ⟨signed, hsigned', hdecode⟩ :=
      DioLibrary.decodeAndVerify_signAndEncode hE.toLawful undefined h
    rw [hsigned] at hsigned'
    obtain rfl := Except.ok.inj hsigned'
    exact hdecode

/-- What `encrypt` makes of an item whose object its author may sign. -/
theorem encryptItemV5_spec (hE : E.Lawful) (x : ItemToEncryptV5) (author : C.PrivateKey)
    {encryptionKey : Bytes} (hkey : encryptionKey.length = 32) (ivs : ItemIvs)
    (hsign : DioLibrary.Signable C (x.dio.expanded []) author) :
    ∃ data encrypted, encryptItemV5 E x author encryptionKey ivs = .ok encrypted ∧
      EnvelopeOf E x author encryptionKey data encrypted := by
  obtain ⟨privateMeta, hprivate, hprivateText⟩ :=
    DataEncryptorV4.decrypt_signAndEncryptAndEncode hE x.privateMeta author hkey ivs.privateMeta
  obtain ⟨data, hdata, hdataText⟩ :=
    mapM_signAndEncryptAndEncode hE x.data author hkey ivs.data
  obtain ⟨internalMeta, hinternal, hinternalText⟩ :=
    mapM_signAndEncryptAndEncode hE x.internalMeta author hkey ivs.internalMeta
  let encrypted (dio : Bytes) : EncryptedItemV5 :=
    { version := 5
      publicMeta := DataEncryptorV4.signAndEncode E x.publicMeta author
      publicMetaObject := (E.stringifyParsed x.publicMeta).toOption
      privateMeta := privateMeta
      data := data.getD []
      internalMeta := internalMeta
      authorPubKey := C.toBase58DER (C.getPublicKey author)
      dio := dio }
  have hsignable : DioLibrary.Signable C (x.dio.expanded (itemChecksums C data (encrypted [])))
      author :=
    ⟨hsign.creatorPubKey, hsign.creatorUserId, hsign.contextId, hsign.randomId⟩
  obtain ⟨dio, hdio, hne, hdecode⟩ := signAndEncode_decodes hE hsignable
  refine ⟨data, encrypted dio, ?encrypts, ?envelope⟩
  case encrypts =>
    unfold encryptItemV5
    rw [hprivate]
    show (Option.mapM (m := Except EndpointException) _ x.data >>= fun _ => _) = _
    rw [hdata]
    show (Option.mapM (m := Except EndpointException) _ x.internalMeta >>= fun _ => _) = _
    rw [hinternal]
    show (E.signAndEncode (x.dio.expanded (itemChecksums C data (encrypted []))) author >>=
      fun _ => _) = _
    rw [hdio]
    rfl
  case envelope =>
    exact {
      version := rfl
      publicMeta_ne_nil := DataEncryptorV4.signAndEncode_ne_nil hE _ _
      publicMeta := DataEncryptorV4.decodeAndVerify_signAndEncode hE _ _
      publicMetaObject := rfl
      privateMeta := hprivateText
      data_rel := hdataText
      data_eq := rfl
      internalMeta := hinternalText
      authorPubKey := rfl
      creatorPubKey := hsign.creatorPubKey
      dio_ne_nil := hne
      dio := hdecode }

/-! ### Exchanged fields -/

section Exchange

variable {x : ItemToEncryptV5} {author : C.PrivateKey} {encryptionKey : Bytes}
  {data : Option Bytes} {encrypted received : EncryptedItemV5} {mismatch : ErrorCode}
  {comparedPublic : EncryptedItemV5 → Bool}
  {decryptFields : EncryptedItemV5 → C.PublicKey → Bytes →
    Prog EndpointException ItemContents Unit}
  {F : ItemFormat}

/-- What passes the integrity check with the object of an envelope has its
author and its checksums. -/
theorem EnvelopeOf.getDIO_iff (hx : EnvelopeOf E x author encryptionKey data encrypted)
    (hdio : received.dio = encrypted.dio) {dio : DataIntegrityObject} :
    (itemCryptoV5 E undefined mismatch comparedPublic decryptFields).getDIOAndAssertIntegrity F
        received = .ok dio ↔
      F.wellFormed received = true ∧ received.authorPubKey = encrypted.authorPubKey ∧
        (∀ field ∈ F.checkedFields received,
          checksumAt (itemChecksums C data encrypted) field.1 = .ok (C.sha256 field.2)) ∧
        ∃ b, DIOEncryptorV1.readBridgeIdentity undefined x.dio.bridgeIdentity = .ok b ∧
          dio = { x.dio with bridgeIdentity := some b } := by
  have hdecode := hx.dio undefined
  rw [← hdio] at hdecode
  rw [ItemCrypto.getDIO_eq_ok]
  constructor
  · rintro ⟨hformat, signed, hsigned, -, hcreator, hchecksums, rfl⟩
    have hread : (DIOEncryptorV1.readBridgeIdentity undefined x.dio.bridgeIdentity).map (fun b =>
        { x.dio.expanded (itemChecksums C data encrypted) with bridgeIdentity := some b }) =
        .ok signed := hdecode.symm.trans hsigned
    cases hb : DIOEncryptorV1.readBridgeIdentity undefined x.dio.bridgeIdentity with
    | error e =>
        rw [hb] at hread
        cases hread
    | ok b =>
        rw [hb] at hread
        cases hread
        exact ⟨hformat, hcreator.symm.trans hx.creatorPubKey, hchecksums, b, rfl, rfl⟩
  · rintro ⟨hformat, hauthor, hchecksums, b, hb, rfl⟩
    rw [hb] at hdecode
    exact ⟨hformat, _, hdecode, rfl, hx.creatorPubKey.trans hauthor.symm, hchecksums, rfl⟩

/-- With a bridge identity the object is read as it was. -/
theorem EnvelopeOf.getDIO_of_checked (hx : EnvelopeOf E x author encryptionKey data encrypted)
    {b : BridgeIdentity} (hbridge : x.dio.bridgeIdentity = some b)
    (hdio : received.dio = encrypted.dio) (hauthor : received.authorPubKey = encrypted.authorPubKey)
    (hformat : F.wellFormed received = true)
    (hchecked : ∀ field ∈ F.checkedFields received,
      checksumAt (itemChecksums C data encrypted) field.1 = .ok (C.sha256 field.2)) :
    (itemCryptoV5 E undefined mismatch comparedPublic decryptFields).getDIOAndAssertIntegrity F
        received = .ok x.dio := by
  refine (hx.getDIO_iff hdio).mpr ⟨hformat, hauthor, hchecked, b, ?_, ?_⟩
  · rw [hbridge]
    rfl
  · rw [← hbridge]

/-- Fields with the same checksum are the same. -/
theorem eq_of_checksumAt (hsha : Function.Injective C.sha256) {checksums : List (String × Bytes)}
    {name : String} {value other : Bytes}
    (hvalue : checksumAt checksums name = .ok (C.sha256 value))
    (hother : checksumAt checksums name = .ok (C.sha256 other)) : value = other :=
  hsha (Except.ok.inj (hvalue.symm.trans hother))

/-- Without data, a checked envelope has the fields of the original. -/
theorem EnvelopeOf.fields_eq (hx : EnvelopeOf E x author encryptionKey data encrypted)
    (hsha : Function.Injective C.sha256) (hdata : x.data = none) {internalMeta : Bytes}
    (hinternal : x.internalMeta = some internalMeta)
    (hchecked : ∀ field ∈ [("publicMeta", received.publicMeta),
      ("privateMeta", received.privateMeta), ("internalMeta", received.internalMeta.getD [])],
      checksumAt (itemChecksums C data encrypted) field.1 = .ok (C.sha256 field.2)) :
    received.publicMeta = encrypted.publicMeta ∧ received.privateMeta = encrypted.privateMeta ∧
      received.internalMeta.getD [] = encrypted.internalMeta.getD [] := by
  have hnone : data = none := by
    have hrel := hx.data_rel
    rw [hdata] at hrel
    cases hrel
    rfl
  obtain ⟨text, htext⟩ : ∃ text, encrypted.internalMeta = some text := by
    have hrel := hx.internalMeta
    rw [hinternal] at hrel
    cases hm : encrypted.internalMeta with
    | none =>
        rw [hm] at hrel
        cases hrel
    | some text => exact ⟨text, rfl⟩
  obtain ⟨hpublic, hprivate, hinner, -⟩ := by
    simpa only [List.forall_mem_cons] using hchecked
  have hchecksums : itemChecksums C data encrypted =
      [("publicMeta", C.sha256 encrypted.publicMeta),
        ("privateMeta", C.sha256 encrypted.privateMeta), ("internalMeta", C.sha256 text)] := by
    rw [itemChecksums, hnone, htext]
    rfl
  rw [hchecksums] at hpublic hprivate hinner
  rw [htext]
  exact ⟨eq_of_checksumAt hsha hpublic rfl, eq_of_checksumAt hsha hprivate rfl,
    eq_of_checksumAt hsha hinner rfl⟩

/-- With data, the internal metadata may be missing. -/
theorem EnvelopeOf.fields_eq_or_missing
    (hx : EnvelopeOf E x author encryptionKey data encrypted)
    (hsha : Function.Injective C.sha256) {d : Bytes} (hdata : x.data = some d)
    (hchecked : ∀ field ∈ [("publicMeta", received.publicMeta),
        ("privateMeta", received.privateMeta), ("data", received.data)] ++
        (received.internalMeta.map fun m => ("internalMeta", m)).toList,
      checksumAt (itemChecksums C data encrypted) field.1 = .ok (C.sha256 field.2)) :
    received.publicMeta = encrypted.publicMeta ∧ received.privateMeta = encrypted.privateMeta ∧
      received.data = encrypted.data ∧
      (received.internalMeta = encrypted.internalMeta ∨ received.internalMeta = none) := by
  obtain ⟨text, htext⟩ : ∃ text, data = some text := by
    have hrel := hx.data_rel
    rw [hdata] at hrel
    cases hd : data with
    | none =>
        rw [hd] at hrel
        cases hrel
    | some text => exact ⟨text, rfl⟩
  subst htext
  obtain ⟨hpublic, hprivate, hbody, -⟩ := by
    simpa only [List.cons_append, List.nil_append, List.forall_mem_cons] using hchecked
  refine ⟨eq_of_checksumAt hsha hpublic rfl, eq_of_checksumAt hsha hprivate rfl, ?_, ?_⟩
  · rw [hx.data_eq]
    exact eq_of_checksumAt hsha hbody rfl
  · cases hm : received.internalMeta with
    | none => exact .inr rfl
    | some m =>
        left
        have hinner : checksumAt (itemChecksums C (some text) encrypted) "internalMeta" =
            .ok (C.sha256 m) := by
          refine hchecked ("internalMeta", m) ?_
          rw [hm]
          exact List.mem_append_right _ (List.mem_singleton.mpr rfl)
        unfold itemChecksums at hinner
        cases hown : encrypted.internalMeta with
        | none =>
            rw [hown] at hinner
            cases hinner
        | some own =>
            rw [hown] at hinner
            rw [eq_of_checksumAt hsha hinner rfl]

end Exchange

/-! ### Reading an envelope back -/

/-- A field that decrypts is stored. -/
theorem exec_decryptField {text value : Bytes} {authorPublicKey : C.PublicKey}
    {encryptionKey : Bytes} {store : Bytes → ItemContents → ItemContents}
    (h : DataEncryptorV4.decodeAndDecryptAndVerify E text authorPublicKey encryptionKey =
      .ok value) (c : ItemContents) :
    exec (decryptField E text authorPublicKey encryptionKey store) c = (.ok (), store value c) := by
  unfold decryptField
  rw [h, exec_lift_ok_bind]
  rfl

/-- The internal meta is read back. -/
theorem ModuleInternalMetaV5.fromJSON_toJSON (m : ModuleInternalMetaV5) :
    ModuleInternalMetaV5.fromJSON m.toJSON = .ok m := rfl

section ReadBack

variable {x : ItemToEncryptV5} {author : C.PrivateKey} {encryptionKey : Bytes}
  {data : Option Bytes} {encrypted received : EncryptedItemV5} {mismatch : ErrorCode}
  {comparedPublic : EncryptedItemV5 → Bool}
  {decryptFields : EncryptedItemV5 → C.PublicKey → Bytes →
    Prog EndpointException ItemContents Unit}
  {F : ItemFormat}

/-- The public metadata of an envelope. -/
theorem EnvelopeOf.publicMetaRead (hE : E.Lawful)
    (hx : EnvelopeOf E x author encryptionKey data encrypted) :
    PublicMetaRead E encrypted.publicMetaObject.isSome encrypted (C.getPublicKey author)
      x.publicMeta where
  author := by rw [hx.authorPubKey, hE.fromBase58DER_toBase58DER]
  decoded := hx.publicMeta
  agree hobject := by
    rw [hx.publicMetaObject] at hobject ⊢
    cases hparsed : E.stringifyParsed x.publicMeta with
    | error e =>
        rw [hparsed] at hobject
        cases hobject
    | ok text => exact ⟨text, rfl, rfl⟩

/-- What a decryption comes to. -/
theorem decrypt_eq {authorPublicKey : C.PublicKey} {publicMeta : Bytes}
    {dio : DataIntegrityObject} {c : ItemContents}
    (hdio : (itemCryptoV5 E undefined mismatch comparedPublic
      decryptFields).getDIOAndAssertIntegrity F received = .ok dio)
    (hread : PublicMetaRead E received.publicMetaObject.isSome received authorPublicKey publicMeta)
    (hfields : exec (decryptFields received authorPublicKey encryptionKey)
      { ItemContents.unread with publicMeta := publicMeta } = (.ok (), c)) :
    (itemCryptoV5 E undefined mismatch comparedPublic decryptFields).decrypt F received
        encryptionKey =
      { statusCode := c.mismatchStatus
        publicMeta := c.publicMeta
        privateMeta := c.privateMeta
        data := c.data
        internalMeta := c.internalMeta
        authorPubKey := received.authorPubKey
        dio := dio } := by
  have hcontents : (itemCryptoV5 E undefined mismatch comparedPublic decryptFields).decryptContents
      received encryptionKey = (c, none) := by
    refine contentsOf_eq_none.mpr ?_
    rw [exec_bind, exec_readPublicMeta hread]
    exact hfields
  show ItemCrypto.readItem _ F _ received = _
  rw [ItemCrypto.readItem_of_contents hdio hcontents]

/-- An item without data and with internal metadata, as a file. -/
theorem EnvelopeOf.fileFormat_checked (hx : EnvelopeOf E x author encryptionKey data encrypted)
    (hdata : x.data = none) {internalMeta : Bytes} (hinternal : x.internalMeta = some internalMeta) :
    ∃ text, encrypted.internalMeta = some text ∧
      TextOf E author encryptionKey internalMeta text ∧ encrypted.data = [] ∧
      ∀ field ∈ fileFormat.checkedFields encrypted,
        checksumAt (itemChecksums C data encrypted) field.1 = .ok (C.sha256 field.2) := by
  have hnone : data = none := by
    have hrel := hx.data_rel
    rw [hdata] at hrel
    cases hrel
    rfl
  have hrel := hx.internalMeta
  rw [hinternal] at hrel
  cases hm : encrypted.internalMeta with
  | none =>
      rw [hm] at hrel
      cases hrel
  | some text =>
      rw [hm] at hrel
      cases hrel with
      | some htext =>
          refine ⟨text, rfl, htext, ?_, ?_⟩
          · rw [hx.data_eq, hnone]
            rfl
          · simp only [fileFormat, itemChecksums, hnone, hm, List.forall_mem_cons]
            exact ⟨rfl, rfl, rfl, fun _ h => absurd h List.not_mem_nil⟩

/-- An item with data, as a message, and the envelope without its internal
metadata. -/
theorem EnvelopeOf.messageFormat_checked (hx : EnvelopeOf E x author encryptionKey data encrypted)
    {d : Bytes} (hdata : x.data = some d) (formatError : ErrorCode)
    {internalMeta : Option Bytes}
    (hinternal : internalMeta = encrypted.internalMeta ∨ internalMeta = none) :
    TextOf E author encryptionKey d encrypted.data ∧
      ∀ field ∈ (messageFormat formatError).checkedFields
          { encrypted with internalMeta := internalMeta },
        checksumAt (itemChecksums C data encrypted) field.1 = .ok (C.sha256 field.2) := by
  have hrel := hx.data_rel
  rw [hdata] at hrel
  cases hd : data with
  | none =>
      rw [hd] at hrel
      cases hrel
  | some text =>
      rw [hd] at hrel
      cases hrel with
      | some htext =>
          refine ⟨by rw [hx.data_eq, hd]; exact htext, ?_⟩
          simp only [messageFormat, List.cons_append, List.nil_append, List.forall_mem_cons]
          refine ⟨rfl, rfl, ?_, ?_⟩
          · rw [hx.data_eq, hd]
            rfl
          · intro field hfield
            cases hm : internalMeta with
            | none =>
                rw [hm] at hfield
                cases hfield
            | some m =>
                rw [hm] at hfield hinternal
                obtain rfl := List.mem_singleton.mp hfield
                cases hinternal with
                | inl hown =>
                    unfold itemChecksums
                    rw [← hown]
                    rfl
                | inr hmissing => cases hmissing

end ReadBack

section Encryptors

variable {author : C.PrivateKey} {encryptionKey : Bytes} {data : Option Bytes}
  {encrypted : EncryptedItemV5} {b : BridgeIdentity}

/-- A text with a byte is not empty. -/
theorem isEmpty_eq_false_of_ne_nil {s : Bytes} (h : s ≠ []) : s.isEmpty = false := by
  cases s with
  | nil => exact absurd rfl h
  | cons _ _ => rfl

/-- A file with a bridge identity comes back. -/
theorem FileMetaEncryptorV5.decrypt_of_envelope (hE : E.Lawful) {x : FileMetaToEncryptV5}
    (hx : EnvelopeOf E x.item author encryptionKey data encrypted)
    (hbridge : x.dio.bridgeIdentity = some b) :
    FileMetaEncryptorV5.decrypt E undefined encrypted encryptionKey =
      { statusCode := 0
        publicMeta := x.publicMeta
        privateMeta := x.privateMeta
        data := []
        internalMeta := some x.internalMeta
        authorPubKey := C.toBase58DER (C.getPublicKey author)
        dio := x.dio } := by
  obtain ⟨text, hm, htext, -, hchecked⟩ := hx.fileFormat_checked rfl rfl
  have hformat : fileFormat.wellFormed encrypted = true := by
    have hauthor : encrypted.authorPubKey ≠ [] := by
      rw [hx.authorPubKey]
      exact hE.toBase58DER_ne_nil _
    simp only [fileFormat, hx.version, isEmpty_eq_false_of_ne_nil hx.publicMeta_ne_nil,
      isEmpty_eq_false_of_ne_nil hx.privateMeta.1, isEmpty_eq_false_of_ne_nil hauthor, hm]
    rfl
  have hfields : exec (FileMetaEncryptorV5.decryptFields E encrypted (C.getPublicKey author)
      encryptionKey) { ItemContents.unread with publicMeta := x.publicMeta } =
      (.ok (), { ItemContents.unread with
        publicMeta := x.publicMeta
        privateMeta := x.privateMeta
        internalMeta := some x.internalMeta }) := by
    unfold FileMetaEncryptorV5.decryptFields decryptPrivateMeta
    rw [exec_bind, exec_decryptField hx.privateMeta.2]
    dsimp only
    rw [hm, Option.getD_some, exec_decryptField htext.2]
    rfl
  refine (decrypt_eq (hx.getDIO_of_checked hbridge rfl rfl hformat hchecked)
    (hx.publicMetaRead hE) hfields).trans ?_
  rw [hx.authorPubKey]
  rfl

/-- A module with a bridge identity comes back. -/
theorem ModuleDataEncryptorV5.decrypt_of_envelope (hE : E.Lawful) {x : ModuleDataToEncryptV5}
    (hx : EnvelopeOf E (x.item E) author encryptionKey data encrypted)
    (hbridge : x.dio.bridgeIdentity = some b) :
    ModuleDataEncryptorV5.decrypt E undefined encrypted encryptionKey =
      { statusCode := 0
        publicMeta := x.publicMeta
        privateMeta := x.privateMeta
        internalMeta := x.internalMeta
        authorPubKey := C.toBase58DER (C.getPublicKey author)
        dio := x.dio } := by
  obtain ⟨text, hm, htext, -, hchecked⟩ := hx.fileFormat_checked rfl rfl
  have hformat : moduleFormat.wellFormed encrypted = true := by
    have hauthor : encrypted.authorPubKey ≠ [] := by
      rw [hx.authorPubKey]
      exact hE.toBase58DER_ne_nil _
    simp only [moduleFormat, hx.version, isEmpty_eq_false_of_ne_nil hx.publicMeta_ne_nil,
      isEmpty_eq_false_of_ne_nil hx.privateMeta.1, isEmpty_eq_false_of_ne_nil hauthor, hm,
      Option.getD_some, isEmpty_eq_false_of_ne_nil htext.1,
      isEmpty_eq_false_of_ne_nil hx.dio_ne_nil]
    rfl
  have hparse : (E.parseJsonObject (E.stringify x.internalMeta.toJSON) >>=
      ModuleInternalMetaV5.fromJSON) = .ok x.internalMeta := by
    rw [hE.parseJsonObject_stringify]
    exact x.internalMeta.fromJSON_toJSON
  have hfields : exec (ModuleDataEncryptorV5.decryptFields E encrypted (C.getPublicKey author)
      encryptionKey) { ItemContents.unread with publicMeta := x.publicMeta } =
      (.ok (), { ItemContents.unread with
        publicMeta := x.publicMeta
        privateMeta := x.privateMeta
        internalMeta := some (E.stringify x.internalMeta.toJSON) }) := by
    unfold ModuleDataEncryptorV5.decryptFields decryptPrivateMeta
    rw [exec_bind, exec_decryptField hx.privateMeta.2]
    dsimp only
    rw [hm, Option.getD_some, htext.2, exec_lift_ok_bind, hparse, exec_lift_ok_bind]
    rfl
  unfold ModuleDataEncryptorV5.decrypt ModuleDataEncryptorV5.crypto
  rw [decrypt_eq (hx.getDIO_of_checked hbridge rfl rfl hformat hchecked) (hx.publicMetaRead hE)
    hfields, DecryptedItemV5.moduleData, hx.authorPubKey]
  dsimp only
  rw [Option.map_some, hparse]
  rfl

/-- A message or an entry with a bridge identity comes back, and so does one
whose internal metadata was removed. -/
theorem MessageDataEncryptorV5.decrypt_of_envelope (hE : E.Lawful) {x : MessageDataToEncryptV5}
    (hx : EnvelopeOf E x.item author encryptionKey data encrypted)
    (hbridge : x.dio.bridgeIdentity = some b) {internalMeta value : Option Bytes}
    (hvalue : Option.Rel (TextOf E author encryptionKey) value internalMeta)
    (hinternal : internalMeta = encrypted.internalMeta ∨ internalMeta = none)
    (mismatch formatError : ErrorCode) (comparedPublic : EncryptedItemV5 → Bool) :
    (itemCryptoV5 E undefined mismatch comparedPublic
        (MessageDataEncryptorV5.decryptFields E)).decrypt (messageFormat formatError)
        { encrypted with internalMeta := internalMeta } encryptionKey =
      { statusCode := 0
        publicMeta := x.publicMeta
        privateMeta := x.privateMeta
        data := x.data
        internalMeta := value
        authorPubKey := C.toBase58DER (C.getPublicKey author)
        dio := x.dio } := by
  obtain ⟨htext, hchecked⟩ := hx.messageFormat_checked rfl formatError hinternal
  have hformat : (messageFormat formatError).wellFormed
      { encrypted with internalMeta := internalMeta } = true := by
    have hauthor : encrypted.authorPubKey ≠ [] := by
      rw [hx.authorPubKey]
      exact hE.toBase58DER_ne_nil _
    simp only [messageFormat, hx.version, isEmpty_eq_false_of_ne_nil hx.publicMeta_ne_nil,
      isEmpty_eq_false_of_ne_nil hx.privateMeta.1, isEmpty_eq_false_of_ne_nil hauthor,
      isEmpty_eq_false_of_ne_nil htext.1, isEmpty_eq_false_of_ne_nil hx.dio_ne_nil]
    rfl
  have hread : PublicMetaRead E encrypted.publicMetaObject.isSome
      { encrypted with internalMeta := internalMeta } (C.getPublicKey author) x.publicMeta := by
    obtain ⟨hauthor, hdecoded, hagree⟩ := hx.publicMetaRead hE
    exact ⟨hauthor, hdecoded, hagree⟩
  have hfields : exec (MessageDataEncryptorV5.decryptFields E
      { encrypted with internalMeta := internalMeta } (C.getPublicKey author) encryptionKey)
      { ItemContents.unread with publicMeta := x.publicMeta } =
      (.ok (), { ItemContents.unread with
        publicMeta := x.publicMeta
        privateMeta := x.privateMeta
        data := x.data
        internalMeta := value }) := by
    unfold MessageDataEncryptorV5.decryptFields decryptPrivateMeta
    rw [exec_bind, exec_decryptField hx.privateMeta.2]
    dsimp only
    rw [exec_bind, exec_decryptField htext.2]
    dsimp only
    cases hvalue with
    | none => rfl
    | some hinner =>
        dsimp only
        rw [exec_decryptField hinner.2]
        rfl
  have hdio : (itemCryptoV5 E undefined mismatch comparedPublic
      (MessageDataEncryptorV5.decryptFields E)).getDIOAndAssertIntegrity (messageFormat formatError)
      { encrypted with internalMeta := internalMeta } = .ok x.dio :=
    hx.getDIO_of_checked hbridge rfl rfl hformat hchecked
  refine (decrypt_eq hdio hread hfields).trans ?_
  dsimp only
  rw [hx.authorPubKey]
  rfl

end Encryptors

end PrivmxEndpoint
