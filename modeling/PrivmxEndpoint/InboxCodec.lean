import PrivmxEndpoint.Base64Text
import PrivmxEndpoint.CryptoPrimitives
import PrivmxEndpoint.KeyEncryption

/-!
# Messages to an inbox

A message is a block in the clear, which names the sender's public key and the
inbox key that was used, and behind it a block that is encrypted between these
two keys with ECIES.  `InboxEntriesDataEncryptorSerializer` writes both, with
one octet for each length.

Poco's `BinaryReader` is a parameter with its documented behaviour.  The
primitives that ECIES is made of are one, too.
-/

namespace PrivmxEndpoint

namespace Inbox

/-- `Poco::BinaryReader` over a string stream.  `ahead` is what has not been
read yet.  A number read at the end of the stream is left as it was. -/
structure BinaryReader where
  Stream : Type
  ofString : Bytes → Stream
  readUInt8 : Stream → UInt8 × Stream
  readRaw : Nat → Stream → Bytes × Stream
  available : Stream → Nat
  ahead : Stream → Bytes
  ahead_ofString : ∀ s, ahead (ofString s) = s
  readUInt8_of_cons : ∀ {stream b rest}, ahead stream = b :: rest → (readUInt8 stream).1 = b
  ahead_readUInt8 : ∀ stream, ahead (readUInt8 stream).2 = (ahead stream).tail
  readRaw_eq : ∀ n stream, (readRaw n stream).1 = (ahead stream).take n
  ahead_readRaw : ∀ n stream, ahead (readRaw n stream).2 = (ahead stream).drop n
  available_eq : ∀ stream, available stream = (ahead stream).length

/-- Keys, ciphers and Base64. -/
structure InboxCrypto where
  PrivateKey : Type
  PublicKey : Type
  getPublicKey : PrivateKey → PublicKey
  toDER : PublicKey → Bytes
  fromDER : Bytes → Except EndpointException PublicKey
  toBase58DER : PublicKey → Bytes
  getPrivateEncKey : PrivateKey → Bytes
  /-- `PrivateKey(ECC::fromPrivateKey(…))`. -/
  fromPrivateKey : Bytes → Except EndpointException PrivateKey
  derive : PrivateKey → PublicKey → Bytes
  sha512 : Bytes → Bytes
  /-- Arguments are the key and the data. -/
  hmacSha256 : Bytes → Bytes → Bytes
  /-- Arguments are the data, the key and the initialization vector. -/
  aes256CbcPkcs7Encrypt : Bytes → Bytes → Bytes → Bytes
  aes256CbcPkcs7Decrypt : Bytes → Bytes → Bytes → Except EndpointException Bytes
  base64From : Bytes → Bytes
  base64ToString : Bytes → Except EndpointException Bytes
  /-- What comes of `front` on an empty string, which is undefined. -/
  frontOfEmpty : Except EndpointException UInt8

/-- Reading inverts writing, and both ends derive one secret. -/
structure InboxCrypto.Lawful (C : InboxCrypto) : Prop where
  length_toDER : ∀ p, (C.toDER p).length = 33
  fromDER_toDER : ∀ p, C.fromDER (C.toDER p) = .ok p
  derive_comm : ∀ k l, C.derive k (C.getPublicKey l) = C.derive l (C.getPublicKey k)
  length_sha512 : ∀ d, (C.sha512 d).length = 64
  length_hmacSha256 : ∀ k d, (C.hmacSha256 k d).length = 32
  aes_decrypt_encrypt : ∀ d k iv, k.length = 32 → iv.length = 16 →
    C.aes256CbcPkcs7Decrypt (C.aes256CbcPkcs7Encrypt d k iv) k iv = .ok d
  base64ToString_base64From : ∀ d, C.base64ToString (C.base64From d) = .ok d

/-! ### ECIES -/

/-- `crypto::InvalidChecksumException` and others, as `ExceptionConverter` gives
them back. -/
def invalidChecksum : EndpointException := .privmx ⟨0xE0A10010, by decide⟩

@[inherit_doc invalidChecksum]
def invalidFirstByteOfCipher : EndpointException := .privmx ⟨0xE0A10017, by decide⟩

@[inherit_doc invalidChecksum]
def givenPrivKeyDoesNotMatch : EndpointException := .privmx ⟨0xE0A10018, by decide⟩

@[inherit_doc invalidChecksum]
def givenPublicKeyDoesNotMatchWithSignature : EndpointException :=
  .privmx ⟨0xE0A10029, by decide⟩

section Ecies

variable (C : InboxCrypto)

/-- `_shared_key` of `ECIES`. -/
def sharedKey (privateKey : C.PrivateKey) (publicKey : C.PublicKey) : Bytes :=
  C.sha512 (C.derive privateKey publicKey)

/-- `ECIES::getM`. -/
def getM (shared : Bytes) : Bytes := (shared.drop 32).take 32

/-- `ECIES::getE`. -/
def getE (shared : Bytes) : Bytes := shared.take 32

/-- `ECIES::encrypt`. -/
def ECIES.encrypt (privateKey : C.PrivateKey) (publicKey : C.PublicKey) (data : Bytes) : Bytes :=
  let shared := sharedKey C privateKey publicKey
  let iv := (C.hmacSha256 (C.getPrivateEncKey privateKey) data).take 16
  let c := iv ++ C.aes256CbcPkcs7Encrypt data (getE shared) iv
  c ++ (C.hmacSha256 (getM shared) c).take 4

/-- `ECIES::decrypt`.  The length of a shorter buffer wraps around, and the
second `substr` throws. -/
def ECIES.decrypt (privateKey : C.PrivateKey) (publicKey : C.PublicKey) (encBuf : Bytes) :
    Except EndpointException Bytes := do
  if encBuf.length < 4 then
    throw .other
  let shared := sharedKey C privateKey publicKey
  let c := encBuf.take (encBuf.length - 4)
  let d := encBuf.drop (encBuf.length - 4)
  if d ≠ (C.hmacSha256 (getM shared) c).take 4 then
    throw invalidChecksum
  let cipher ← stringSubstr c 16 c.length
  C.aes256CbcPkcs7Decrypt cipher (getE shared) (c.take 16)

/-- `EciesEncryptor::encrypt`. -/
def EciesEncryptor.encrypt (pub : C.PublicKey) (data : Bytes) (privForSignature : C.PrivateKey) :
    Bytes :=
  101 :: (C.toDER (C.getPublicKey privForSignature) ++ (C.toDER pub ++
    ECIES.encrypt C privForSignature pub data))

/-- A body behind the letter and the two keys. -/
def EciesEncryptor.frame (external my : C.PublicKey) (body : Bytes) : Bytes :=
  101 :: (C.toDER external ++ (C.toDER my ++ body))

/-- `cipher.front()`, which is read before the length is looked at. -/
def front : Bytes → Except EndpointException UInt8
  | [] => C.frontOfEmpty
  | letter :: _ => .ok letter

/-- `EciesEncryptor::decrypt`.  The sender's key is compared with the expected
one only if there is one. -/
def EciesEncryptor.decrypt (priv : C.PrivateKey) (cipher : Bytes)
    (pubOfSignature : Option C.PublicKey) : Except EndpointException Bytes := do
  let letter ← front C cipher
  if letter ≠ 101 ∨ cipher.length < 67 then
    throw invalidFirstByteOfCipher
  let externalPub ← C.fromDER ((cipher.drop 1).take 33)
  if (pubOfSignature.any fun p => C.toDER externalPub ≠ C.toDER p) then
    throw givenPublicKeyDoesNotMatchWithSignature
  let myPub ← C.fromDER ((cipher.drop 34).take 33)
  if C.toDER myPub ≠ C.toDER (C.getPublicKey priv) then
    throw givenPrivKeyDoesNotMatch
  ECIES.decrypt C priv externalPub (cipher.drop 67)

end Ecies

/-! ### Buffers with one-octet lengths -/

/-- `BinaryBufferBE::writeOneOctetLengthBuffer`.  The length is cut to a byte. -/
def writeOneOctetLengthBuffer (value : Bytes) : Bytes :=
  UInt8.ofNat value.length :: value

/-- `BinaryBufferBE::writeBool`. -/
def writeBool (value : Bool) : Bytes :=
  [if value then 1 else 0]

namespace BinaryReader

variable (R : BinaryReader)

/-- `BinaryBufferBE::readOneOctetLengthBuffer`. -/
def readOneOctetLengthBuffer (stream : R.Stream) : Bytes × R.Stream :=
  R.readRaw (R.readUInt8 stream).1.toNat (R.readUInt8 stream).2

/-- `BinaryBufferBE::readBool`. -/
def readBool (stream : R.Stream) : Bool × R.Stream :=
  ((R.readUInt8 stream).1 = 1, (R.readUInt8 stream).2)

/-- `BinaryBufferBE::readRawUntilEnd`. -/
def readRawUntilEnd (stream : R.Stream) : Bytes × R.Stream :=
  R.readRaw (R.available stream) stream

variable {R}

/-- A value is read up to the length in front of it. -/
theorem readOneOctetLengthBuffer_of_cons {stream : R.Stream} {b : UInt8} {rest : Bytes}
    (h : R.ahead stream = b :: rest) :
    (R.readOneOctetLengthBuffer stream).1 = rest.take b.toNat ∧
      R.ahead (R.readOneOctetLengthBuffer stream).2 = rest.drop b.toNat := by
  have hrest : R.ahead (R.readUInt8 stream).2 = rest := by
    rw [R.ahead_readUInt8, h, List.tail_cons]
  unfold readOneOctetLengthBuffer
  rw [R.readRaw_eq, R.ahead_readRaw, hrest, R.readUInt8_of_cons h]
  exact ⟨rfl, rfl⟩

/-- A value whose length fits the octet is read back, with anything behind it. -/
theorem readOneOctetLengthBuffer_write {stream : R.Stream} {value rest : Bytes}
    (h : R.ahead stream = writeOneOctetLengthBuffer value ++ rest)
    (hvalue : value.length < 256) :
    (R.readOneOctetLengthBuffer stream).1 = value ∧
      R.ahead (R.readOneOctetLengthBuffer stream).2 = rest := by
  have hlength : (UInt8.ofNat value.length).toNat = value.length :=
    UInt8.toNat_ofNat_of_lt' hvalue
  obtain ⟨hread, hahead⟩ := readOneOctetLengthBuffer_of_cons h
  rw [hread, hahead, hlength]
  exact ⟨List.take_left, List.drop_left⟩

/-- What was written with its length is read back, and the rest stays ahead. -/
theorem readOneOctetLengthBuffer_ofString {value : Bytes} (h : value.length < 256)
    (rest : Bytes) :
    (R.readOneOctetLengthBuffer (R.ofString (writeOneOctetLengthBuffer value ++ rest))).1 =
        value ∧
      R.ahead (R.readOneOctetLengthBuffer
        (R.ofString (writeOneOctetLengthBuffer value ++ rest))).2 = rest :=
  readOneOctetLengthBuffer_write (R.ahead_ofString _) h

/-- A value of any length is cut where its octet says. -/
theorem readOneOctetLengthBuffer_cut (value rest : Bytes) :
    (R.readOneOctetLengthBuffer (R.ofString (writeOneOctetLengthBuffer value ++ rest))).1 =
        (value ++ rest).take (value.length % 256) ∧
      R.ahead (R.readOneOctetLengthBuffer
        (R.ofString (writeOneOctetLengthBuffer value ++ rest))).2 =
          (value ++ rest).drop (value.length % 256) := by
  have hahead : R.ahead (R.ofString (writeOneOctetLengthBuffer value ++ rest)) =
      UInt8.ofNat value.length :: (value ++ rest) := R.ahead_ofString _
  have hoctet : (UInt8.ofNat value.length).toNat = value.length % 256 := UInt8.toNat_ofNat'
  rw [← hoctet]
  exact readOneOctetLengthBuffer_of_cons hahead

/-- At the end of a stream nothing is read. -/
theorem readOneOctetLengthBuffer_of_nil {stream : R.Stream} (h : R.ahead stream = []) :
    (R.readOneOctetLengthBuffer stream).1 = [] ∧
      R.ahead (R.readOneOctetLengthBuffer stream).2 = [] := by
  have hrest : R.ahead (R.readUInt8 stream).2 = [] := by
    rw [R.ahead_readUInt8, h, List.tail_nil]
  unfold readOneOctetLengthBuffer
  rw [R.readRaw_eq, R.ahead_readRaw, hrest]
  exact ⟨List.take_nil, List.drop_nil⟩

/-- A truth value is read back. -/
theorem readBool_write {stream : R.Stream} {value : Bool} {rest : Bytes}
    (h : R.ahead stream = writeBool value ++ rest) :
    (R.readBool stream).1 = value ∧ R.ahead (R.readBool stream).2 = rest := by
  unfold readBool
  rw [R.readUInt8_of_cons h, R.ahead_readUInt8, h]
  cases value with
  | false => exact ⟨rfl, rfl⟩
  | true => exact ⟨rfl, rfl⟩

/-- Reading a truth value takes one byte. -/
theorem ahead_readBool (stream : R.Stream) :
    R.ahead (R.readBool stream).2 = (R.ahead stream).tail :=
  R.ahead_readUInt8 stream

/-- The raw rest is what is ahead. -/
theorem readRawUntilEnd_eq (stream : R.Stream) :
    (R.readRawUntilEnd stream).1 = R.ahead stream := by
  unfold readRawUntilEnd
  rw [R.readRaw_eq, R.available_eq, List.take_length]

end BinaryReader

/-! ### The serializer -/

/-- `InboxEntryPublicData`. -/
structure InboxEntryPublicData where
  userPubKey : Bytes
  keyPreset : Bool
  usedInboxKeyId : Bytes
  deriving Repr, DecidableEq

/-- `InboxEntryPrivateData`. -/
structure InboxEntryPrivateData where
  filesMetaKey : Bytes
  text : Bytes
  deriving Repr, DecidableEq

/-- `InboxEntrySendModel`. -/
structure InboxEntrySendModel where
  publicData : InboxEntryPublicData
  privateData : InboxEntryPrivateData
  deriving Repr, DecidableEq

/-- `InboxEntryPublicDataResult`. -/
structure InboxEntryPublicDataResult extends InboxEntryPublicData where
  statusCode : Nat
  deriving Repr, DecidableEq

/-- `InboxEntryDataResult`. -/
structure InboxEntryDataResult where
  publicData : InboxEntryPublicData
  privateData : InboxEntryPrivateData
  statusCode : Nat
  deriving Repr, DecidableEq

/-- Public data as it is constructed; the truth value is not initialized. -/
def InboxEntryPublicData.initial (uninitialized : Bool) : InboxEntryPublicData where
  userPubKey := []
  keyPreset := uninitialized
  usedInboxKeyId := []

/-- The `sendDataBuffer` of `packMessage`. -/
def sendData (publicData : InboxEntryPublicData) : Bytes :=
  writeOneOctetLengthBuffer publicData.userPubKey ++ (writeBool publicData.keyPreset ++
    writeOneOctetLengthBuffer publicData.usedInboxKeyId)

section Serializer

variable (C : InboxCrypto) (R : BinaryReader)

/-- The `dataSecuredBuffer` of `packMessage`. -/
def dataSecured (privateData : InboxEntryPrivateData) : Bytes :=
  writeOneOctetLengthBuffer (C.base64From privateData.filesMetaKey) ++ privateData.text

/-- `InboxEntriesDataEncryptorSerializer::packMessage`.  It puts the cipher
together as `EciesEncryptor::encrypt` does. -/
def packMessage (data : InboxEntrySendModel) (userPriv : C.PrivateKey) (inboxPub : C.PublicKey) :
    Bytes :=
  C.base64From (writeOneOctetLengthBuffer (sendData data.publicData) ++
    EciesEncryptor.encrypt C inboxPub (dataSecured C data.privateData) userPriv)

/-- The three reads of the public block. -/
def readPublicData (publicDataStr : Bytes) : InboxEntryPublicData :=
  let userPubKey := R.readOneOctetLengthBuffer (R.ofString publicDataStr)
  let keyPreset := R.readBool userPubKey.2
  let usedInboxKeyId := R.readOneOctetLengthBuffer keyPreset.2
  { userPubKey := userPubKey.1, keyPreset := keyPreset.1, usedInboxKeyId := usedInboxKeyId.1 }

/-- The reads of the secured block. -/
def readPrivateData (decrypted : Bytes) : Except EndpointException InboxEntryPrivateData := do
  let filesMetaKeyBase64 := R.readOneOctetLengthBuffer (R.ofString decrypted)
  let filesMetaKey ← C.base64ToString filesMetaKeyBase64.1
  return { filesMetaKey := filesMetaKey, text := (R.readRawUntilEnd filesMetaKeyBase64.2).1 }

/-- `unpackMessage`, inside its `try`. -/
def openMessage (serializedBase64 : Bytes) (inboxPriv : C.PrivateKey) :
    Except EndpointException (InboxEntryPublicData × InboxEntryPrivateData) := do
  let whole ← C.base64ToString serializedBase64
  let publicDataStr := R.readOneOctetLengthBuffer (R.ofString whole)
  let publicData := readPublicData R publicDataStr.1
  let privateDataStr := (R.readRawUntilEnd publicDataStr.2).1
  let decrypted ← EciesEncryptor.decrypt C inboxPriv privateDataStr none
  let privateData ← readPrivateData C R decrypted
  return (publicData, privateData)

/-- `InboxEntriesDataEncryptorSerializer::unpackMessage`. -/
def unpackMessage (uninitialized : Bool) (serializedBase64 : Bytes) (inboxPriv : C.PrivateKey) :
    InboxEntryDataResult :=
  match openMessage C R serializedBase64 inboxPriv with
  | .ok (publicData, privateData) =>
      { publicData := publicData, privateData := privateData, statusCode := 0 }
  | .error e =>
      { publicData := .initial uninitialized
        privateData := { filesMetaKey := [], text := [] }
        statusCode := e.statusCode }

/-- `InboxEntriesDataEncryptorSerializer::unpackMessagePublicOnly`. -/
def unpackMessagePublicOnly (uninitialized : Bool) (serializedBase64 : Bytes) :
    InboxEntryPublicDataResult :=
  match C.base64ToString serializedBase64 with
  | .ok whole =>
      { readPublicData R (R.readOneOctetLengthBuffer (R.ofString whole)).1 with statusCode := 0 }
  | .error e =>
      { InboxEntryPublicData.initial uninitialized with statusCode := e.statusCode }

end Serializer

/-! ### Reading back -/

section RoundTrip

variable {C : InboxCrypto} {R : BinaryReader}

/-- A cut within the string does not throw. -/
theorem stringSubstr_of_le {s : Bytes} {pos n : Nat} (h : pos ≤ s.length) :
    stringSubstr s pos n = .ok ((s.drop pos).take n) := if_pos h

/-- Whoever has the same secret decrypts. -/
theorem ECIES.decrypt_encrypt_of_shared (hC : C.Lawful) {k l : C.PrivateKey}
    {p q : C.PublicKey} (h : sharedKey C l q = sharedKey C k p) (data : Bytes) :
    ECIES.decrypt C l q (ECIES.encrypt C k p data) = .ok data := by
  obtain ⟨shared, hshared⟩ : ∃ shared, shared = sharedKey C k p := ⟨_, rfl⟩
  have hsame : sharedKey C l q = shared := h.trans hshared.symm
  have hE : (getE shared).length = 32 := by
    rw [getE, hshared, sharedKey, List.length_take, hC.length_sha512]
    rfl
  obtain ⟨iv, hiv⟩ : ∃ iv, iv = (C.hmacSha256 (C.getPrivateEncKey k) data).take 16 := ⟨_, rfl⟩
  have hivLength : iv.length = 16 := by
    rw [hiv, List.length_take, hC.length_hmacSha256]
    rfl
  obtain ⟨cipher, hcipher⟩ :
      ∃ cipher, cipher = C.aes256CbcPkcs7Encrypt data (getE shared) iv := ⟨_, rfl⟩
  obtain ⟨tag, htag⟩ :
      ∃ tag, tag = (C.hmacSha256 (getM shared) (iv ++ cipher)).take 4 := ⟨_, rfl⟩
  have htagLength : tag.length = 4 := by
    rw [htag, List.length_take, hC.length_hmacSha256]
    rfl
  have hencrypt : ECIES.encrypt C k p data = iv ++ cipher ++ tag := by
    unfold ECIES.encrypt
    dsimp only
    rw [← hshared, ← hiv, ← hcipher, ← htag]
  have hcut : (iv ++ cipher ++ tag).length - 4 = (iv ++ cipher).length := by
    rw [List.length_append, htagLength]
    omega
  have hlong : ¬ (iv ++ cipher ++ tag).length < 4 := by
    rw [List.length_append, htagLength]
    omega
  have h16 : 16 ≤ (iv ++ cipher).length := by
    rw [List.length_append, hivLength]
    omega
  have hplain : (((iv ++ cipher).drop 16).take (iv ++ cipher).length) = cipher := by
    rw [List.drop_left' hivLength]
    exact List.take_of_length_le (by rw [List.length_append]; omega)
  have hnonce : (iv ++ cipher).take 16 = iv := List.take_left' hivLength
  have hdecrypt : C.aes256CbcPkcs7Decrypt cipher (getE shared) iv = .ok data := by
    rw [hcipher]
    exact hC.aes_decrypt_encrypt _ _ _ hE hivLength
  rw [hencrypt]
  simp only [ECIES.decrypt, hsame, hcut, List.take_left, List.drop_left, ← htag,
    stringSubstr_of_le h16, hplain, hnonce, hdecrypt, if_neg hlong, ne_eq, not_true_eq_false,
    if_false, bind, Except.bind]

/-- Both sides derive one shared key. -/
theorem sharedKey_comm (hC : C.Lawful) (k l : C.PrivateKey) :
    sharedKey C l (C.getPublicKey k) = sharedKey C k (C.getPublicKey l) := by
  rw [sharedKey, sharedKey, hC.derive_comm]

/-- A frame is cut where its parts were put together. -/
theorem EciesEncryptor.decrypt_frame (hC : C.Lawful) (external my : C.PublicKey) (body : Bytes)
    (l : C.PrivateKey) (pubOfSignature : Option C.PublicKey) :
    EciesEncryptor.decrypt C l (EciesEncryptor.frame C external my body) pubOfSignature =
      if pubOfSignature.any fun p => C.toDER external ≠ C.toDER p then
        .error givenPublicKeyDoesNotMatchWithSignature
      else if C.toDER my ≠ C.toDER (C.getPublicKey l) then
        .error givenPrivKeyDoesNotMatch
      else
        ECIES.decrypt C l external body := by
  obtain ⟨frame, hframe⟩ : ∃ frame, frame = EciesEncryptor.frame C external my body := ⟨_, rfl⟩
  have hmine := hC.length_toDER my
  have htheirs := hC.length_toDER external
  have hfront : front C frame = .ok 101 := by
    rw [hframe]
    rfl
  have hlength : ¬ frame.length < 67 := by
    rw [hframe, EciesEncryptor.frame, List.length_cons, List.length_append,
      List.length_append, hmine, htheirs]
    omega
  have hexternal : (frame.drop 1).take 33 = C.toDER external := by
    rw [hframe]
    exact List.take_left' htheirs
  have hbehind : frame.drop 34 = C.toDER my ++ body := by
    rw [hframe]
    exact List.drop_left' htheirs
  have hmy : (frame.drop 34).take 33 = C.toDER my := by
    rw [hbehind]
    exact List.take_left' hmine
  have hcipher : frame.drop 67 = body := by
    rw [← List.drop_drop (i := 33) (j := 34), hbehind]
    exact List.drop_left' hmine
  have hchecked : ¬ ((101 : UInt8) ≠ 101 ∨ frame.length < 67) :=
    not_or.mpr ⟨not_not.mpr rfl, hlength⟩
  rw [← hframe, EciesEncryptor.decrypt, hfront]
  show (if (101 : UInt8) ≠ 101 ∨ frame.length < 67 then _ else _) = _
  rw [if_neg hchecked, hexternal, hmy, hcipher, hC.fromDER_toDER, hC.fromDER_toDER]
  rfl

/-- The sender's key is in the frame; the receiver does not have to know it. -/
theorem EciesEncryptor.decrypt_encrypt (hC : C.Lawful) (k l : C.PrivateKey) (data : Bytes)
    {pubOfSignature : Option C.PublicKey}
    (hexpected : ∀ p, pubOfSignature = some p → p = C.getPublicKey k) :
    EciesEncryptor.decrypt C l (EciesEncryptor.encrypt C (C.getPublicKey l) data k)
      pubOfSignature = .ok data := by
  have hany : ¬ (pubOfSignature.any fun p => C.toDER (C.getPublicKey k) ≠ C.toDER p) := by
    cases pubOfSignature with
    | none => simp
    | some p => simp [hexpected p rfl]
  refine (EciesEncryptor.decrypt_frame hC _ _ _ l pubOfSignature).trans ?_
  rw [if_neg hany, if_neg (not_not.mpr rfl)]
  exact ECIES.decrypt_encrypt_of_shared hC (sharedKey_comm hC k l) data

/-- The length of the public block. -/
theorem length_sendData (publicData : InboxEntryPublicData) :
    (sendData publicData).length =
      3 + publicData.userPubKey.length + publicData.usedInboxKeyId.length := by
  simp [sendData, writeOneOctetLengthBuffer, writeBool]
  omega

/-- A public block that fits its octet is read back. -/
theorem readPublicData_sendData {publicData : InboxEntryPublicData}
    (h : (sendData publicData).length ≤ 255) :
    readPublicData R (sendData publicData) = publicData := by
  rw [length_sendData] at h
  have hfits : publicData.userPubKey.length < 256 ∧ publicData.usedInboxKeyId.length < 256 := by
    omega
  obtain ⟨huser, hbehindUser⟩ := BinaryReader.readOneOctetLengthBuffer_ofString (R := R) hfits.1
    (writeBool publicData.keyPreset ++ writeOneOctetLengthBuffer publicData.usedInboxKeyId)
  obtain ⟨hpreset, hbehindPreset⟩ := BinaryReader.readBool_write hbehindUser
  obtain ⟨hkeyId, -⟩ := BinaryReader.readOneOctetLengthBuffer_write
    (hbehindPreset.trans (List.append_nil _).symm) hfits.2
  unfold readPublicData sendData
  dsimp only
  rw [huser, hpreset, hkeyId]

/-- The private block is read back when its key fits in one octet. -/
theorem readPrivateData_dataSecured (hC : C.Lawful) {privateData : InboxEntryPrivateData}
    (h : (C.base64From privateData.filesMetaKey).length ≤ 255) :
    readPrivateData C R (dataSecured C privateData) = .ok privateData := by
  obtain ⟨hkey, hbehindKey⟩ := BinaryReader.readOneOctetLengthBuffer_ofString (R := R)
    (Nat.lt_succ_of_le h) privateData.text
  unfold readPrivateData dataSecured
  dsimp only
  rw [hkey, hC.base64ToString_base64From, BinaryReader.readRawUntilEnd_eq, hbehindKey]
  rfl

/-- What is read of a message whose public block fits its octet. -/
theorem openMessage_of_blocks {publicData : InboxEntryPublicData} {frame serialized : Bytes}
    {inboxPriv : C.PrivateKey} (h : (sendData publicData).length ≤ 255)
    (hserialized : C.base64ToString serialized =
      .ok (writeOneOctetLengthBuffer (sendData publicData) ++ frame)) :
    openMessage C R serialized inboxPriv =
      (EciesEncryptor.decrypt C inboxPriv frame none >>= fun decrypted =>
        (readPrivateData C R decrypted).map fun privateData => (publicData, privateData)) := by
  obtain ⟨hblock, hbehindBlock⟩ := BinaryReader.readOneOctetLengthBuffer_ofString (R := R)
    (Nat.lt_succ_of_le h) frame
  simp only [openMessage, hserialized, hblock, hbehindBlock, BinaryReader.readRawUntilEnd_eq,
    readPublicData_sendData h, bind, Except.bind]
  cases EciesEncryptor.decrypt C inboxPriv frame none with
  | error e => rfl
  | ok decrypted =>
      dsimp only
      cases readPrivateData C R decrypted with
      | error e => rfl
      | ok privateData => rfl

/-- A message that starts with a public block yields it. -/
theorem unpackMessagePublicOnly_of_block {publicData : InboxEntryPublicData}
    {frame serialized : Bytes} (uninitialized : Bool)
    (h : (sendData publicData).length ≤ 255)
    (hserialized : C.base64ToString serialized =
      .ok (writeOneOctetLengthBuffer (sendData publicData) ++ frame)) :
    unpackMessagePublicOnly C R uninitialized serialized =
      { publicData with statusCode := 0 } := by
  obtain ⟨hblock, -⟩ := BinaryReader.readOneOctetLengthBuffer_ofString (R := R)
    (Nat.lt_succ_of_le h) frame
  unfold unpackMessagePublicOnly
  rw [hserialized]
  dsimp only
  rw [hblock, readPublicData_sendData h]

/-! ### Lengths that do not fit -/

/-- The two keys that are read take, with their octets and the truth value, no
more than the block, unless the second is empty. -/
theorem readPublicData_lengths (publicDataStr : Bytes) :
    (readPublicData R publicDataStr).userPubKey.length ≤ 255 ∧
      (readPublicData R publicDataStr).userPubKey.length ≤ publicDataStr.length - 1 ∧
      (readPublicData R publicDataStr).usedInboxKeyId.length ≤
        publicDataStr.length - 3 - (readPublicData R publicDataStr).userPubKey.length := by
  unfold readPublicData
  dsimp only
  cases hstr : publicDataStr with
  | nil =>
      obtain ⟨huser, hbehindUser⟩ :=
        BinaryReader.readOneOctetLengthBuffer_of_nil (R.ahead_ofString [])
      have hpreset : R.ahead
          (R.readBool (R.readOneOctetLengthBuffer (R.ofString [])).2).2 = [] := by
        rw [BinaryReader.ahead_readBool, hbehindUser, List.tail_nil]
      obtain ⟨hkeyId, -⟩ := BinaryReader.readOneOctetLengthBuffer_of_nil hpreset
      rw [huser, hkeyId]
      simp
  | cons b rest =>
      have hb : b.toNat < 256 := b.toNat_lt
      obtain ⟨huser, hbehindUser⟩ :=
        BinaryReader.readOneOctetLengthBuffer_of_cons (R.ahead_ofString (b :: rest))
      have hpreset : R.ahead
          (R.readBool (R.readOneOctetLengthBuffer (R.ofString (b :: rest))).2).2 =
            (rest.drop b.toNat).tail := by
        rw [BinaryReader.ahead_readBool, hbehindUser]
      have huserLength : (rest.take b.toNat).length = min b.toNat rest.length :=
        List.length_take
      rw [huser, huserLength, List.length_cons]
      refine ⟨by omega, by omega, ?_⟩
      cases hlast : (rest.drop b.toNat).tail with
      | nil =>
          rw [hlast] at hpreset
          rw [(BinaryReader.readOneOctetLengthBuffer_of_nil hpreset).1]
          exact Nat.zero_le _
      | cons b' last =>
          rw [hlast] at hpreset
          have hcount := congrArg List.length hlast
          rw [List.length_tail, List.length_drop, List.length_cons] at hcount
          rw [(BinaryReader.readOneOctetLengthBuffer_of_cons hpreset).1, List.length_take]
          omega

/-- A public block that does not fit its octet is cut, and what is read of it is
not what was written. -/
theorem readPublicData_ne_of_long {publicData : InboxEntryPublicData} {rest : Bytes}
    (h : 255 < (sendData publicData).length) :
    readPublicData R (R.readOneOctetLengthBuffer
        (R.ofString (writeOneOctetLengthBuffer (sendData publicData) ++ rest))).1 ≠
      publicData := by
  intro hsame
  obtain ⟨hblock, -⟩ := BinaryReader.readOneOctetLengthBuffer_cut (R := R)
    (sendData publicData) rest
  rw [hblock] at hsame
  have hcut : ((sendData publicData ++ rest).take
      ((sendData publicData).length % 256)).length = (sendData publicData).length % 256 := by
    rw [List.length_take, List.length_append]
    omega
  obtain ⟨h255, huser, hkeyId⟩ := readPublicData_lengths (R := R)
    ((sendData publicData ++ rest).take ((sendData publicData).length % 256))
  rw [hsame, hcut] at huser hkeyId
  rw [hsame] at h255
  rw [length_sendData] at h huser hkeyId
  omega

/-- A file key that does not fit its octet spills into the text. -/
theorem readPrivateData_ne_of_long {privateData read : InboxEntryPrivateData}
    (h : 255 < (C.base64From privateData.filesMetaKey).length)
    (hread : readPrivateData C R (dataSecured C privateData) = .ok read) :
    read ≠ privateData := by
  rintro rfl
  obtain ⟨-, hbehindKey⟩ := BinaryReader.readOneOctetLengthBuffer_cut (R := R)
    (C.base64From read.filesMetaKey) read.text
  unfold readPrivateData dataSecured at hread
  dsimp only at hread
  obtain ⟨filesMetaKey, -, hread⟩ := Throwing.bind_eq_ok hread
  rw [BinaryReader.readRawUntilEnd_eq, hbehindKey] at hread
  have htext : (C.base64From read.filesMetaKey ++ read.text).drop
      ((C.base64From read.filesMetaKey).length % 256) = read.text :=
    congrArg InboxEntryPrivateData.text (Except.ok.inj hread)
  have hcount := congrArg List.length htext
  rw [List.length_drop, List.length_append] at hcount
  omega

/-- A message is read back as it was sent, as a whole and in its public part. -/
structure RoundTrips (C : InboxCrypto) (R : BinaryReader) (uninitialized : Bool)
    (data : InboxEntrySendModel) (userPriv inboxPriv : C.PrivateKey) : Prop where
  whole : unpackMessage C R uninitialized
      (packMessage C data userPriv (C.getPublicKey inboxPriv)) inboxPriv =
    { publicData := data.publicData, privateData := data.privateData, statusCode := 0 }
  publicOnly : unpackMessagePublicOnly C R uninitialized
      (packMessage C data userPriv (C.getPublicKey inboxPriv)) =
    { data.publicData with statusCode := 0 }

/-- What a packed message decodes to. -/
theorem base64ToString_packMessage (hC : C.Lawful) (data : InboxEntrySendModel)
    (userPriv : C.PrivateKey) (inboxPub : C.PublicKey) :
    C.base64ToString (packMessage C data userPriv inboxPub) =
      .ok (writeOneOctetLengthBuffer (sendData data.publicData) ++
        EciesEncryptor.encrypt C inboxPub (dataSecured C data.privateData) userPriv) :=
  hC.base64ToString_base64From _

/-- Only a public block that fits its octet is read back. -/
theorem length_sendData_le_of_publicOnly (hC : C.Lawful) {uninitialized : Bool}
    {data : InboxEntrySendModel} {userPriv : C.PrivateKey} {inboxPub : C.PublicKey}
    (h : unpackMessagePublicOnly C R uninitialized (packMessage C data userPriv inboxPub) =
      { data.publicData with statusCode := 0 }) :
    (sendData data.publicData).length ≤ 255 := by
  by_contra hshort
  have hlong : 255 < (sendData data.publicData).length := by omega
  unfold unpackMessagePublicOnly at h
  rw [base64ToString_packMessage hC] at h
  exact readPublicData_ne_of_long hlong
    (congrArg InboxEntryPublicDataResult.toInboxEntryPublicData h)

/-- What is read of a message that was packed with a public block that fits. -/
theorem openMessage_packMessage (hC : C.Lawful) {data : InboxEntrySendModel}
    (userPriv inboxPriv : C.PrivateKey) (h : (sendData data.publicData).length ≤ 255) :
    openMessage C R (packMessage C data userPriv (C.getPublicKey inboxPriv)) inboxPriv =
      (readPrivateData C R (dataSecured C data.privateData)).map fun privateData =>
        (data.publicData, privateData) := by
  rw [openMessage_of_blocks h (base64ToString_packMessage hC data userPriv _),
    EciesEncryptor.decrypt_encrypt hC _ _ _ fun p hnone => by cases hnone]
  rfl

/-- A message whose lengths fit their octets is read as it was sent. -/
theorem unpackMessage_packMessage (hC : C.Lawful) (uninitialized : Bool)
    {data : InboxEntrySendModel} (userPriv inboxPriv : C.PrivateKey)
    (hblock : (sendData data.publicData).length ≤ 255)
    (hkey : (C.base64From data.privateData.filesMetaKey).length ≤ 255) :
    unpackMessage C R uninitialized (packMessage C data userPriv (C.getPublicKey inboxPriv))
        inboxPriv =
      { publicData := data.publicData, privateData := data.privateData, statusCode := 0 } := by
  unfold unpackMessage
  rw [openMessage_packMessage hC userPriv inboxPriv hblock, readPrivateData_dataSecured hC hkey]
  rfl

/-- **When a message is read back**: exactly if the public block and the encoded
file key fit the octets of their lengths.  No length makes `packMessage`
throw. -/
theorem packMessage_roundTrips_iff (hC : C.Lawful) (uninitialized : Bool)
    (data : InboxEntrySendModel) (userPriv inboxPriv : C.PrivateKey) :
    RoundTrips C R uninitialized data userPriv inboxPriv ↔
      3 + data.publicData.userPubKey.length + data.publicData.usedInboxKeyId.length ≤ 255 ∧
        (C.base64From data.privateData.filesMetaKey).length ≤ 255 := by
  have hserialized := base64ToString_packMessage hC data userPriv (C.getPublicKey inboxPriv)
  rw [← length_sendData]
  constructor
  · rintro ⟨hwhole, hpublic⟩
    have hblock := length_sendData_le_of_publicOnly hC hpublic
    refine ⟨hblock, ?_⟩
    by_contra hlong
    unfold unpackMessage at hwhole
    rw [openMessage_packMessage hC userPriv inboxPriv hblock] at hwhole
    cases hread : readPrivateData C R (dataSecured C data.privateData) with
    | error e =>
        rw [hread] at hwhole
        exact e.statusCode.2 (congrArg InboxEntryDataResult.statusCode hwhole)
    | ok read =>
        rw [hread] at hwhole
        exact readPrivateData_ne_of_long (by omega) hread
          (congrArg InboxEntryDataResult.privateData hwhole)
  · rintro ⟨hblock, hkey⟩
    exact ⟨unpackMessage_packMessage hC uninitialized userPriv inboxPriv hblock hkey,
      unpackMessagePublicOnly_of_block uninitialized hblock hserialized⟩

end RoundTrip

/-! ### A lawful instance -/

/-- A reader that holds what is ahead; at the end it hands over zeros. -/
def sampleReader : BinaryReader where
  Stream := Bytes
  ofString s := s
  readUInt8 stream := (stream.headD 0, stream.tail)
  readRaw n stream := (stream.take n, stream.drop n)
  available stream := stream.length
  ahead stream := stream
  ahead_ofString _ := rfl
  readUInt8_of_cons h := by
    rw [h]
    rfl
  ahead_readUInt8 _ := rfl
  readRaw_eq _ _ := rfl
  ahead_readRaw _ _ := rfl
  available_eq _ := rfl

/-- The first of 33 bytes. -/
def sampleFromDER (der : Bytes) : Except EndpointException UInt8 :=
  if der.length = 33 then .ok (der.headD 0) else .error (.privmx ⟨0xE0A10001, by decide⟩)

/-- The sample keys are one byte and padding. -/
theorem sampleFromDER_cons (p : UInt8) : sampleFromDER (p :: List.replicate 32 0) = .ok p :=
  if_pos rfl

/-- Keys that are bytes; two of them derive their sum. -/
def sampleInboxCrypto : InboxCrypto where
  PrivateKey := UInt8
  PublicKey := UInt8
  getPublicKey k := k
  toDER p := p :: List.replicate 32 0
  fromDER := sampleFromDER
  toBase58DER p := [p]
  getPrivateEncKey k := [k]
  fromPrivateKey
    | [k] => .ok k
    | _ => .error (.privmx ⟨0xE0A10028, by decide⟩)
  derive k p := [UInt8.ofNat (k.toNat + p.toNat)]
  sha512 d := (d ++ List.replicate 64 0).take 64
  hmacSha256 := sampleHmac
  aes256CbcPkcs7Encrypt d _ _ := samplePad d
  aes256CbcPkcs7Decrypt c _ _ :=
    match sampleUnpad c with
    | .ok d => .ok d
    | .error _ => .error .other
  base64From := Base64.encode
  base64ToString text :=
    match Base64.decode text with
    | some d => .ok d
    | none => .error .other
  frontOfEmpty := .ok 0

/-- The sample primitives satisfy the laws. -/
theorem sampleInboxCrypto_lawful : sampleInboxCrypto.Lawful where
  length_toDER _ := rfl
  fromDER_toDER := sampleFromDER_cons
  derive_comm k l :=
    congrArg (fun n => [UInt8.ofNat n]) (Nat.add_comm (UInt8.toNat k) (UInt8.toNat l))
  length_sha512 d := by
    show ((d ++ List.replicate 64 0).take 64).length = 64
    rw [List.length_take, List.length_append, List.length_replicate]
    omega
  length_hmacSha256 k d := by
    show ((k.take 8 ++ d.drop 16 ++ List.replicate 32 0).take 32).length = 32
    rw [List.length_take, List.length_append, List.length_replicate]
    omega
  aes_decrypt_encrypt d k iv _ _ := by
    show (match sampleUnpad (samplePad d) with
      | .ok d => Except.ok d
      | .error _ => .error EndpointException.other) = _
    rw [sampleUnpad_samplePad]
  base64ToString_base64From d := by
    show (match Base64.decode (Base64.encode d) with
      | some d => Except.ok d
      | none => .error EndpointException.other) = _
    rw [Base64.decode_encode]

/-- A message with a file key of three bytes. -/
def sampleSendModel (userPubKey : Bytes) : InboxEntrySendModel where
  publicData := { userPubKey := userPubKey, keyPreset := true, usedInboxKeyId := [105, 100] }
  privateData := { filesMetaKey := [1, 2, 3], text := [104, 105] }

/-- A message with short values is read back. -/
theorem packMessage_roundTrips_iff_sample :
    RoundTrips sampleInboxCrypto sampleReader false (sampleSendModel [5]) (5 : UInt8)
      (9 : UInt8) :=
  (packMessage_roundTrips_iff sampleInboxCrypto_lawful false (sampleSendModel [5]) (5 : UInt8)
    (9 : UInt8)).mpr ⟨by decide, by decide⟩

/-- A public key of 256 bytes is packed under the length zero and read back as an
empty one. -/
theorem packMessage_not_roundTrips :
    sampleInboxCrypto.Lawful ∧
      ¬ RoundTrips sampleInboxCrypto sampleReader false
        (sampleSendModel (List.replicate 256 7)) (5 : UInt8) (9 : UInt8) := by
  refine ⟨sampleInboxCrypto_lawful, ?_⟩
  rintro ⟨-, hpublic⟩
  have hblock := length_sendData_le_of_publicOnly sampleInboxCrypto_lawful hpublic
  rw [length_sendData, sampleSendModel] at hblock
  dsimp only at hblock
  rw [List.length_replicate] at hblock
  omega

end Inbox

end PrivmxEndpoint
