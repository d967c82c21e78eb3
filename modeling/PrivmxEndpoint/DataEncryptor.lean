import PrivmxEndpoint.BigEndian
import PrivmxEndpoint.CryptoPrimitives
import PrivmxEndpoint.DioCodec

/-!
# Signed and encrypted fields

`DataEncryptorV4` signs a field, encrypts it unless it is public, and encodes
it with Base64.  The cipher is the one of `CryptoPrivmx` with an attached
initialization vector and a tag: a block of zeros is encrypted in front of the
data, and its cipher text is the vector that the rest is decrypted with.

The block cipher and the tag are a parameter (`EnvelopeLibrary`).  Random
vectors are arguments of the functions that draw them.
-/

namespace PrivmxEndpoint

/-- The libraries below the encryptors of version 5, for the keys of `C`. -/
structure EnvelopeLibrary (C : KeyCrypto) extends DioLibrary C where
  hmacSha256 : Bytes → Bytes → Bytes
  /-- Arguments are the data, the key and the initialization vector. -/
  aes256CbcPkcs7Encrypt : Bytes → Bytes → Bytes → Bytes
  aes256CbcPkcs7Decrypt : Bytes → Bytes → Bytes → Except EndpointException Bytes
  /-- `stringifyVar(parseJsonObject(json))`. -/
  stringifyParsed : Bytes → Except EndpointException Bytes
  /-- `stringifyVar` of a variant that holds nothing. -/
  stringifyEmpty : Except EndpointException Bytes

/-- The behaviour of these libraries.  A cipher text without its first block is
decrypted with that block in the place of the vector. -/
structure EnvelopeLibrary.Lawful {C : KeyCrypto} (E : EnvelopeLibrary C) : Prop
    extends E.toDioLibrary.Lawful where
  base64From_eq_nil : ∀ data, E.base64From data = [] → data = []
  length_hmacSha256 : ∀ key data, (E.hmacSha256 key data).length = 32
  length_aes : ∀ data key iv, key.length = 32 → iv.length = 16 →
    (E.aes256CbcPkcs7Encrypt data key iv).length = data.length + (16 - data.length % 16)
  decrypt_chained : ∀ head data key iv, head.length = 16 → key.length = 32 → iv.length = 16 →
    E.aes256CbcPkcs7Decrypt ((E.aes256CbcPkcs7Encrypt (head ++ data) key iv).drop 16) key
      ((E.aes256CbcPkcs7Encrypt (head ++ data) key iv).take 16) = .ok data
  stringifyParsed_ne_empty : ∀ json text,
    E.stringifyParsed json = .ok text → E.stringifyEmpty ≠ .ok text

/-- The part of these laws that the cipher is read back by. -/
structure EnvelopeLibrary.Seals {C : KeyCrypto} (E : EnvelopeLibrary C) : Prop where
  length_hmacSha256 : ∀ key data, (E.hmacSha256 key data).length = 32
  length_aes : ∀ data key iv, key.length = 32 → iv.length = 16 →
    (E.aes256CbcPkcs7Encrypt data key iv).length = data.length + (16 - data.length % 16)
  decrypt_chained : ∀ head data key iv, head.length = 16 → key.length = 32 → iv.length = 16 →
    E.aes256CbcPkcs7Decrypt ((E.aes256CbcPkcs7Encrypt (head ++ data) key iv).drop 16) key
      ((E.aes256CbcPkcs7Encrypt (head ++ data) key iv).take 16) = .ok data

theorem EnvelopeLibrary.Lawful.seals {C : KeyCrypto} {E : EnvelopeLibrary C} (hE : E.Lawful) :
    E.Seals :=
  ⟨hE.length_hmacSha256, hE.length_aes, hE.decrypt_chained⟩

/-- `WrongMessageSecurityTagException` and others of `CryptoException.hpp`. -/
def wrongMessageSecurityTag : EndpointException := .privmx ⟨0xE0A10007, by decide⟩

@[inherit_doc wrongMessageSecurityTag]
def decryptInvalidKeyLength : EndpointException := .privmx ⟨0xE0A10008, by decide⟩

@[inherit_doc wrongMessageSecurityTag]
def encryptInvalidKeyLength : EndpointException := .privmx ⟨0xE0A10011, by decide⟩

@[inherit_doc wrongMessageSecurityTag]
def missingRequiredSignature : EndpointException := .privmx ⟨0xE0A10016, by decide⟩

/-- `InvalidDataSignatureException`. -/
def invalidDataSignature : ErrorCode := coreCode 0x0007

/-- `CipherType::AES_256_CBC_PKCS7_WITH_IV_AND_HMAC_SHA256`. -/
def AES_256_CBC_PKCS7_WITH_IV_AND_HMAC_SHA256 : UInt8 := 4

variable {C : KeyCrypto} (E : EnvelopeLibrary C)

/-! ### The cipher -/

namespace Crypto

/-- The loop of `kdf`.  Every round adds a byte at least, so that as many rounds
as there are bytes missing are enough. -/
def kdfLoop (length : Nat) (key seed : Bytes) : Nat → Nat → Bytes → Bytes → Bytes
  | 0, _, _, result => result
  | rounds + 1, i, k, result =>
      if result.length < length then
        let k := E.hmacSha256 key (k ++ BigEndian.bytes 4 i ++ seed)
        kdfLoop length key seed rounds (i + 1) k (result ++ k)
      else
        result

/-- `kdf`. -/
def kdf (length : Nat) (key label : Bytes) : Bytes :=
  let seed := label ++ [0] ++ BigEndian.bytes 4 length
  (kdfLoop E length key seed length 1 [] []).take length

/-- `getKEM`, with its default lengths. -/
def getKEM (key : Bytes) : Bytes × Bytes :=
  let kEM := kdf E (32 + 32) key "key expansion".toUTF8.toList
  (kEM.take 32, kEM.drop 32)

/-- `aes256CbcHmac256Encrypt`, for a vector that is not empty. -/
def aes256CbcHmac256Encrypt (data key32 : Bytes) (iv : Iv) (taglen : Nat) : Bytes :=
  let (kE, kM) := getKEM E key32
  let cipher := E.aes256CbcPkcs7Encrypt (List.replicate 16 0 ++ data) kE iv.1
  cipher ++ (E.hmacSha256 kM cipher).take taglen

/-- `aes256CbcHmac256Decrypt`.  A text that is shorter than its tag has no
`substr` at the difference of the lengths. -/
def aes256CbcHmac256Decrypt (data key32 : Bytes) (taglen : Nat) :
    Except EndpointException Bytes :=
  let (kE, kM) := getKEM E key32
  if data.length < taglen then
    .error .other
  else
    let tag := data.drop (data.length - taglen)
    let data := data.take (data.length - taglen)
    if tag ≠ (E.hmacSha256 kM data).take taglen then
      .error wrongMessageSecurityTag
    else if data.length < 16 then
      .error .other
    else
      E.aes256CbcPkcs7Decrypt (data.drop 16) kE (data.take 16)

end Crypto

namespace CryptoPrivmx

/-- `privmxEncrypt` with the options of `privmxOptAesWithSignature`. -/
def privmxEncrypt (data key : Bytes) (iv : Iv) : Except EndpointException Bytes :=
  if key.length ≠ 32 then
    .error encryptInvalidKeyLength
  else
    .ok (AES_256_CBC_PKCS7_WITH_IV_AND_HMAC_SHA256 ::
      Crypto.aes256CbcHmac256Encrypt E data key iv 16)

/-- `privmxDecrypt` of data that must be signed. -/
def privmxDecrypt (data key32 : Bytes) : Except EndpointException Bytes :=
  if data.getD 0 0 ≠ AES_256_CBC_PKCS7_WITH_IV_AND_HMAC_SHA256 then
    .error missingRequiredSignature
  else if key32.length ≠ 32 then
    .error decryptInvalidKeyLength
  else
    Crypto.aes256CbcHmac256Decrypt E (data.drop 1) key32 16

end CryptoPrivmx

/-! ### The encryptor of a field -/

/-- `DataInnerEncryptorV4::verifyAndExtractData`. -/
def DataInnerEncryptorV4.verifyAndExtractData (signedData : Bytes) (authorPublicKey : C.PublicKey) :
    Except EndpointException Bytes := do
  let dataWithSignature ← extractDataWithSignature signedData
  let verified ← E.verifyCompactSignatureWithHash authorPublicKey dataWithSignature.data
    dataWithSignature.signature
  if !verified then
    throw (.core invalidDataSignature)
  return dataWithSignature.data

namespace DataEncryptorV4

open DataInnerEncryptorV4

/-- `signAndEncode`. -/
def signAndEncode (data : Bytes) (authorPrivateKey : C.PrivateKey) : Bytes :=
  E.base64From (E.signAndPackDataWithSignature data authorPrivateKey)

/-- `signAndEncryptAndEncode`. -/
def signAndEncryptAndEncode (data : Bytes) (authorPrivateKey : C.PrivateKey)
    (encryptionKey : Bytes) (iv : Iv) : Except EndpointException Bytes := do
  let encrypted ← CryptoPrivmx.privmxEncrypt E
    (E.signAndPackDataWithSignature data authorPrivateKey) encryptionKey iv
  return E.base64From encrypted

/-- `decodeAndVerify`. -/
def decodeAndVerify (publicDataAsBase64 : Bytes) (authorPublicKey : C.PublicKey) :
    Except EndpointException Bytes := do
  let decoded ← E.base64ToString publicDataAsBase64
  verifyAndExtractData E decoded authorPublicKey

/-- `decodeAndDecryptAndVerify`. -/
def decodeAndDecryptAndVerify (privateDataAsBase64 : Bytes) (authorPublicKey : C.PublicKey)
    (encryptionKey : Bytes) : Except EndpointException Bytes := do
  let decoded ← E.base64ToString privateDataAsBase64
  let decrypted ← CryptoPrivmx.privmxDecrypt E decoded encryptionKey
  verifyAndExtractData E decrypted authorPublicKey

end DataEncryptorV4

/-! ### Reading a field back -/

variable {E}

namespace Crypto

/-- Rounds of a byte at least make up the missing length. -/
theorem length_kdfLoop (hE : E.Seals) (length : Nat) (key seed : Bytes) (rounds i : Nat)
    (k result : Bytes) (h : length ≤ result.length + rounds) :
    length ≤ (kdfLoop E length key seed rounds i k result).length := by
  induction rounds generalizing i k result with
  | zero => exact h
  | succ rounds ih =>
      unfold kdfLoop
      by_cases hshort : result.length < length
      · rw [if_pos hshort]
        refine ih _ _ _ ?_
        rw [List.length_append, hE.length_hmacSha256]
        omega
      · rw [if_neg hshort]
        omega

theorem length_kdf (hE : E.Seals) (length : Nat) (key label : Bytes) :
    (kdf E length key label).length = length := by
  have hloop := length_kdfLoop hE length key (label ++ [0] ++ BigEndian.bytes 4 length) length 1
    [] [] (Nat.le_add_left _ _)
  unfold kdf
  rw [List.length_take]
  omega

theorem length_getKEM (hE : E.Seals) (key : Bytes) : (getKEM E key).1.length = 32 := by
  have hlength := length_kdf hE (32 + 32) key "key expansion".toUTF8.toList
  show ((kdf E (32 + 32) key "key expansion".toUTF8.toList).take 32).length = 32
  rw [List.length_take, hlength]
  rfl

/-- The tag is the one that was written, and the block of zeros is the vector. -/
theorem decrypt_encrypt (hE : E.Seals) (data key : Bytes) (iv : Iv) {taglen : Nat}
    (htaglen : taglen ≤ 32) :
    aes256CbcHmac256Decrypt E (aes256CbcHmac256Encrypt E data key iv taglen) key taglen =
      .ok data := by
  generalize hkeys : getKEM E key = keys
  obtain ⟨kE, kM⟩ := keys
  have hkE : kE.length = 32 := by
    rw [← length_getKEM hE key, hkeys]
  have hlength := hE.length_aes (List.replicate 16 0 ++ data) kE iv.1 hkE iv.2
  rw [List.length_append, List.length_replicate] at hlength
  have hchained := hE.decrypt_chained (List.replicate 16 0) data kE iv.1
    (List.length_replicate ..) hkE iv.2
  unfold aes256CbcHmac256Decrypt aes256CbcHmac256Encrypt
  simp only [hkeys]
  generalize E.aes256CbcPkcs7Encrypt (List.replicate 16 0 ++ data) kE iv.1 = cipher
    at hlength hchained ⊢
  have htag : ((E.hmacSha256 kM cipher).take taglen).length = taglen := by
    rw [List.length_take, hE.length_hmacSha256, Nat.min_eq_left htaglen]
  have hsplit : (cipher ++ (E.hmacSha256 kM cipher).take taglen).length - taglen =
      cipher.length := by
    rw [List.length_append, htag]
    omega
  rw [hsplit, List.take_left, List.drop_left, if_neg (by rw [List.length_append, htag]; omega),
    if_neg (not_not.mpr rfl), if_neg (by omega)]
  exact hchained

end Crypto

namespace DataEncryptorV4

open DataInnerEncryptorV4

theorem verifyAndExtractData_pack (hE : E.Lawful) (data : Bytes) (author : C.PrivateKey) :
    verifyAndExtractData E (E.signAndPackDataWithSignature data author) (C.getPublicKey author) =
      .ok data := by
  have hextract := extract_pack
    ⟨E.signToCompactSignatureWithHash author data, data⟩
    (show (E.signToCompactSignatureWithHash author data).length < 256 by
      rw [hE.length_sign]
      decide)
  unfold verifyAndExtractData DioLibrary.signAndPackDataWithSignature
  rw [hextract]
  show (E.verifyCompactSignatureWithHash (C.getPublicKey author) data _ >>= fun _ => _) = _
  rw [hE.verify_sign]
  rfl

theorem signAndEncode_ne_nil (hE : E.Lawful) (data : Bytes) (author : C.PrivateKey) :
    signAndEncode E data author ≠ [] :=
  fun h => absurd (hE.base64From_eq_nil _ h) (List.cons_ne_nil _ _)

/-- A public field is read back with the key of its author. -/
theorem decodeAndVerify_signAndEncode (hE : E.Lawful) (data : Bytes) (author : C.PrivateKey) :
    decodeAndVerify E (signAndEncode E data author) (C.getPublicKey author) = .ok data := by
  unfold decodeAndVerify signAndEncode
  rw [hE.base64ToString_base64From]
  exact verifyAndExtractData_pack hE data author

/-- A private field is read back with the same encryption key. -/
theorem decrypt_signAndEncryptAndEncode (hE : E.Lawful) (data : Bytes) (author : C.PrivateKey)
    {key : Bytes} (hkey : key.length = 32) (iv : Iv) :
    ∃ text, signAndEncryptAndEncode E data author key iv = .ok text ∧ text ≠ [] ∧
      decodeAndDecryptAndVerify E text (C.getPublicKey author) key = .ok data := by
  have hencrypt : CryptoPrivmx.privmxEncrypt E (E.signAndPackDataWithSignature data author) key iv =
      .ok (AES_256_CBC_PKCS7_WITH_IV_AND_HMAC_SHA256 ::
        Crypto.aes256CbcHmac256Encrypt E (E.signAndPackDataWithSignature data author) key iv 16) :=
    if_neg (not_not.mpr hkey)
  refine ⟨_, by rw [signAndEncryptAndEncode, hencrypt]; rfl, ?_, ?_⟩
  · exact fun h => absurd (hE.base64From_eq_nil _ h) (List.cons_ne_nil _ _)
  · unfold decodeAndDecryptAndVerify
    rw [hE.base64ToString_base64From]
    have hdecrypt : CryptoPrivmx.privmxDecrypt E (AES_256_CBC_PKCS7_WITH_IV_AND_HMAC_SHA256 ::
        Crypto.aes256CbcHmac256Encrypt E (E.signAndPackDataWithSignature data author) key iv 16)
        key = .ok (E.signAndPackDataWithSignature data author) := by
      refine (if_neg (not_not.mpr rfl)).trans ?_
      rw [if_neg (not_not.mpr hkey)]
      exact Crypto.decrypt_encrypt hE.seals _ key iv (by decide)
    show (CryptoPrivmx.privmxDecrypt E _ key >>= fun _ => _) = _
    rw [hdecrypt]
    exact verifyAndExtractData_pack hE data author

end DataEncryptorV4

end PrivmxEndpoint
