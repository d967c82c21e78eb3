import PrivmxEndpoint.CbcMode
import PrivmxEndpoint.DataEncryptor

/-!
# The container of enciphered data

`CryptoPrivmx` puts a byte for the kind of the container in front of a cipher text:
with a vector that the reader must know, with an attached vector, or with a hidden
vector and a tag.  In the last form a block of zeros is enciphered in front of the data;
its cipher text serves the reader as vector, and the writer's own vector is not needed.

The cipher is the chaining of a block cipher (`EnvelopeLibrary.Chains`).  An ideal
tag is an assumption on the string that is presented (`Unforged`).
-/

namespace PrivmxEndpoint

/-- `MissingIvException` and others of `CryptoException.hpp`. -/
def missingIv : EndpointException := .privmx ⟨0xE0A10009, by decide⟩

@[inherit_doc missingIv]
def unknownDecryptionType : EndpointException := .privmx ⟨0xE0A1000A, by decide⟩

@[inherit_doc missingIv]
def notImplemented : EndpointException := .privmx ⟨0xE0A1000C, by decide⟩

@[inherit_doc missingIv]
def onlyHmacSHA256WithIvIsSupportedForAES256CBC : EndpointException :=
  .privmx ⟨0xE0A10012, by decide⟩

@[inherit_doc missingIv]
def cannotPassIvToDeterministicAES256CBCHmacSHA256 : EndpointException :=
  .privmx ⟨0xE0A10013, by decide⟩

@[inherit_doc missingIv]
def xteaECBEncryptionDoesntSupportHmacAndIv : EndpointException :=
  .privmx ⟨0xE0A10014, by decide⟩

@[inherit_doc missingIv]
def unsupportedEncryptionAlgorithm : EndpointException := .privmx ⟨0xE0A10015, by decide⟩

@[inherit_doc missingIv]
def privmxDriverCrypto : EndpointException := .privmx ⟨0xE0A10027, by decide⟩

/-- `CipherType`. -/
def AES_256_CBC_PKCS7_NO_IV : UInt8 := 1

@[inherit_doc AES_256_CBC_PKCS7_NO_IV]
def AES_256_CBC_PKCS7_WITH_IV : UInt8 := 2

@[inherit_doc AES_256_CBC_PKCS7_NO_IV]
def XTEA_ECB_PKCS7 : UInt8 := 3

inductive PrivmxEncryptOptions.Algorithm
  | AES_256_CBC
  | XTEA_ECB
  deriving Repr, DecidableEq

inductive PrivmxEncryptOptions.Hmac
  | NO_HMAC
  | SHA_256
  deriving Repr, DecidableEq

/-- `PrivmxEncryptOptions`, with its defaults. -/
structure PrivmxEncryptOptions where
  algorithm : PrivmxEncryptOptions.Algorithm
  attachIv : Bool := false
  hmac : PrivmxEncryptOptions.Hmac := .NO_HMAC
  deterministic : Bool := false
  taglen : Nat := 16
  deriving Repr, DecidableEq

/-- `privmxOptAesWithSignature`. -/
def privmxOptAesWithSignature : PrivmxEncryptOptions where
  algorithm := .AES_256_CBC
  attachIv := true
  hmac := .SHA_256

/-- The cipher of a library is the chaining of a block cipher. -/
structure EnvelopeLibrary.Chains {C : KeyCrypto} (E : EnvelopeLibrary C)
    (B : Cbc.BlockCipher 32 16) : Prop where
  length_hmacSha256 : ∀ key data, (E.hmacSha256 key data).length = 32
  encrypt_eq : ∀ data key iv, key.length = 32 → iv.length = 16 →
    E.aes256CbcPkcs7Encrypt data key iv = Cbc.encrypt B key iv data
  decrypt_eq : ∀ data key iv, key.length = 32 → iv.length = 16 →
    E.aes256CbcPkcs7Decrypt data key iv =
      match Cbc.decrypt B key iv data with
      | some plain => .ok plain
      | none => .error privmxDriverCrypto

variable {C : KeyCrypto} (E : EnvelopeLibrary C)

/-! ### The cipher with a type byte -/

namespace CryptoService

/-- `aes256CbcHmac256Encrypt`. -/
def aes256CbcHmac256Encrypt (data key32 iv : Bytes) (taglen : Nat) : Bytes :=
  let (kE, kM) := Crypto.getKEM E key32
  let iv := if iv = [] then E.hmacSha256 key32 data else iv
  let iv := iv.take 16
  let data := List.replicate 16 0 ++ data
  let cipher := E.aes256CbcPkcs7Encrypt data kE iv
  let tag := (E.hmacSha256 kM cipher).take taglen
  cipher ++ tag

/-- `ctAes256CbcPkcs7NoIv`. -/
def ctAes256CbcPkcs7NoIv (data key iv : Bytes) : Bytes :=
  AES_256_CBC_PKCS7_NO_IV :: E.aes256CbcPkcs7Encrypt data key iv

/-- `ctAes256CbcPkcs7WithIv`. -/
def ctAes256CbcPkcs7WithIv (data key iv : Bytes) : Bytes :=
  AES_256_CBC_PKCS7_WITH_IV :: (iv ++ E.aes256CbcPkcs7Encrypt data key iv)

/-- `ctAes256CbcPkcs7WithIvAndHmacSha256`. -/
def ctAes256CbcPkcs7WithIvAndHmacSha256 (data key iv : Bytes) (taglen : Nat) : Bytes :=
  AES_256_CBC_PKCS7_WITH_IV_AND_HMAC_SHA256 :: aes256CbcHmac256Encrypt E data key iv taglen

/-- `ctDecrypt`.  The first character of an empty string is a zero, which is no type. -/
def ctDecrypt (data key32 iv16 : Bytes) (taglen : Nat) : Except EndpointException Bytes := do
  if key32.length ≠ 32 then
    throw decryptInvalidKeyLength
  let type := data.getD 0 0
  if type = AES_256_CBC_PKCS7_NO_IV then
    if iv16 = [] then
      throw missingIv
    E.aes256CbcPkcs7Decrypt (data.drop 1) key32 iv16
  else if type = AES_256_CBC_PKCS7_WITH_IV then
    let cipher ← stringSubstr data 17 data.length
    let iv ← stringSubstr data 1 16
    E.aes256CbcPkcs7Decrypt cipher key32 iv
  else if type = XTEA_ECB_PKCS7 then
    throw notImplemented
  else if type = AES_256_CBC_PKCS7_WITH_IV_AND_HMAC_SHA256 then
    Crypto.aes256CbcHmac256Decrypt E (data.drop 1) key32 taglen
  else
    throw unknownDecryptionType

end CryptoService

namespace AesContainer

/-- `CryptoPrivmx::privmxEncrypt`; `random` is what `randomBytes(16)` draws. -/
def privmxEncrypt (options : PrivmxEncryptOptions) (data key iv : Bytes) (random : Iv) :
    Except EndpointException Bytes := do
  if key.length ≠ 32 then
    throw encryptInvalidKeyLength
  let ivOrRandom := if iv = [] then random.1 else iv
  if options.algorithm = .AES_256_CBC then
    if options.hmac ≠ .NO_HMAC then
      if options.hmac ≠ .SHA_256 ∨ options.attachIv = false then
        throw onlyHmacSHA256WithIvIsSupportedForAES256CBC
      if options.deterministic then
        if options.attachIv then
          throw cannotPassIvToDeterministicAES256CBCHmacSHA256
      else
        return CryptoService.ctAes256CbcPkcs7WithIvAndHmacSha256 E data key ivOrRandom
          options.taglen
    if options.attachIv then
      return CryptoService.ctAes256CbcPkcs7WithIv E data key ivOrRandom
    return CryptoService.ctAes256CbcPkcs7NoIv E data key ivOrRandom
  else if options.algorithm = .XTEA_ECB then
    if options.hmac ≠ .NO_HMAC ∨ iv ≠ [] ∨ options.attachIv then
      throw xteaECBEncryptionDoesntSupportHmacAndIv
    throw notImplemented
  throw unsupportedEncryptionAlgorithm

/-- `CryptoPrivmx::privmxDecrypt`. -/
def privmxDecrypt (is_signed : Bool) (data key32 iv16 : Bytes) (taglen : Nat) :
    Except EndpointException Bytes := do
  if is_signed ∧ data.getD 0 0 ≠ AES_256_CBC_PKCS7_WITH_IV_AND_HMAC_SHA256 then
    throw missingRequiredSignature
  CryptoService.ctDecrypt E data key32 iv16 taglen

/-- Vectors that a container can be written with: a block, more where only a block of it
is used, and none where the reader does not need it. -/
def IvFits (options : PrivmxEncryptOptions) (iv : Bytes) : Prop :=
  iv.length = 16 ∨ (options.hmac = .SHA_256 ∧ 16 ≤ iv.length) ∨
    (options.attachIv = true ∧ iv = [])

/-- Options for a tag of the given length. -/
def withTag (taglen : Nat) : PrivmxEncryptOptions := { privmxOptAesWithSignature with taglen }

/-- The tag in the string is none that somebody else made up: if it is the right one, then
the cipher text before it is of data that was enciphered under the key. -/
def Unforged (key : Bytes) (taglen : Nat) (sent : Bytes → Iv → Prop) (presented : Bytes) :
    Prop :=
  ∀ cipher tag,
    presented = AES_256_CBC_PKCS7_WITH_IV_AND_HMAC_SHA256 :: (cipher ++ tag) →
      tag.length = taglen →
        (E.hmacSha256 (Crypto.getKEM E key).2 cipher).take taglen = tag →
          ∃ data iv, sent data iv ∧
            cipher = E.aes256CbcPkcs7Encrypt (List.replicate 16 0 ++ data)
              (Crypto.getKEM E key).1 iv.1

end AesContainer

variable {E} {B : Cbc.BlockCipher 32 16}

/-! ### The chained cipher -/

namespace EnvelopeLibrary.Chains

/-- Encryption under one key and vector is undone. -/
theorem decrypt_encrypt (hE : E.Chains B) (data : Bytes) {key iv : Bytes}
    (hkey : key.length = 32) (hiv : iv.length = 16) :
    E.aes256CbcPkcs7Decrypt (E.aes256CbcPkcs7Encrypt data key iv) key iv = .ok data := by
  rw [hE.encrypt_eq data key iv hkey hiv, hE.decrypt_eq _ key iv hkey hiv,
    Cbc.decrypt_encrypt (by decide) (by decide) hkey hiv]

/-- The library seals what it encrypts. -/
theorem seals (hE : E.Chains B) : E.Seals where
  length_hmacSha256 := hE.length_hmacSha256
  length_aes data key iv hkey hiv := by
    rw [hE.encrypt_eq data key iv hkey hiv, Cbc.length_encrypt (by decide) hkey hiv]
  decrypt_chained head data key iv hhead hkey hiv := by
    -- the cipher text of the head takes the place of the vector
    have hblock : (B.encrypt key (Cbc.xorBytes head iv)).length = 16 :=
      B.length_encrypt key _ hkey ((Cbc.length_xorBytes (hhead.trans hiv.symm)).trans hhead)
    rw [hE.encrypt_eq _ key iv hkey hiv, Cbc.encrypt_append (by decide) hhead,
      List.drop_left' hblock, List.take_left' hblock, hE.decrypt_eq _ key _ hkey hblock,
      Cbc.decrypt_encrypt (by decide) (by decide) hkey hblock]

end EnvelopeLibrary.Chains

/-! ### Reading a container -/

namespace CryptoService

variable {data key iv : Bytes} {taglen : Nat}

/-- Only the first block of a vector is used. -/
theorem aes256CbcHmac256Encrypt_eq (hiv : 16 ≤ iv.length) :
    aes256CbcHmac256Encrypt E data key iv taglen =
      Crypto.aes256CbcHmac256Encrypt E data key
        ⟨iv.take 16, List.length_take_of_le hiv⟩ taglen := by
  have hne : iv ≠ [] := by
    intro hnil
    rw [hnil] at hiv
    cases hiv
  unfold aes256CbcHmac256Encrypt Crypto.aes256CbcHmac256Encrypt
  rw [if_neg hne]

/-- A container without a vector is opened with the caller's. -/
theorem ctDecrypt_noIv (hkey : key.length = 32) (hiv : iv ≠ []) (cipher : Bytes) :
    ctDecrypt E (AES_256_CBC_PKCS7_NO_IV :: cipher) key iv taglen =
      E.aes256CbcPkcs7Decrypt cipher key iv := by
  simp [ctDecrypt, hkey, hiv]

/-- A container with a vector is opened with its own. -/
theorem ctDecrypt_withIv (hkey : key.length = 32) (hiv : iv.length = 16) (cipher iv16 : Bytes) :
    ctDecrypt E (AES_256_CBC_PKCS7_WITH_IV :: (iv ++ cipher)) key iv16 taglen =
      E.aes256CbcPkcs7Decrypt cipher key iv := by
  have hcipher : stringSubstr (AES_256_CBC_PKCS7_WITH_IV :: (iv ++ cipher)) 17
      (AES_256_CBC_PKCS7_WITH_IV :: (iv ++ cipher)).length = .ok cipher := by
    simp [stringSubstr, hiv]
    omega
  have hvector : stringSubstr (AES_256_CBC_PKCS7_WITH_IV :: (iv ++ cipher)) 1 16 = .ok iv := by
    simp [stringSubstr, hiv]
  have htype : AES_256_CBC_PKCS7_WITH_IV ≠ AES_256_CBC_PKCS7_NO_IV := by decide
  unfold ctDecrypt
  rw [hcipher, hvector]
  simp [hkey, htype, bind, Except.bind]

/-- A sealed container is opened by its tag. -/
theorem ctDecrypt_withIvAndHmac (hkey : key.length = 32) (sealed iv16 : Bytes) :
    ctDecrypt E (AES_256_CBC_PKCS7_WITH_IV_AND_HMAC_SHA256 :: sealed) key iv16 taglen =
      Crypto.aes256CbcHmac256Decrypt E sealed key taglen := by
  simp [ctDecrypt, hkey, AES_256_CBC_PKCS7_WITH_IV_AND_HMAC_SHA256, AES_256_CBC_PKCS7_NO_IV,
    AES_256_CBC_PKCS7_WITH_IV, XTEA_ECB_PKCS7]

end CryptoService

namespace AesContainer

variable {options : PrivmxEncryptOptions} {data key iv x : Bytes} {random : Iv}

/-- What is encrypted, and into which container. -/
theorem privmxEncrypt_eq_ok :
    privmxEncrypt E options data key iv random = .ok x ↔
      key.length = 32 ∧ options.algorithm = .AES_256_CBC ∧
        (options.hmac = .NO_HMAC ∧ options.attachIv = false ∧
            x = CryptoService.ctAes256CbcPkcs7NoIv E data key (if iv = [] then random.1 else iv) ∨
          options.hmac = .NO_HMAC ∧ options.attachIv = true ∧
            x = CryptoService.ctAes256CbcPkcs7WithIv E data key (if iv = [] then random.1 else iv) ∨
          options.hmac = .SHA_256 ∧ options.attachIv = true ∧ options.deterministic = false ∧
            x = CryptoService.ctAes256CbcPkcs7WithIvAndHmacSha256 E data key
              (if iv = [] then random.1 else iv) options.taglen) := by
  obtain ⟨algorithm, attachIv, hmac, deterministic, taglen⟩ := options
  by_cases hkey : key.length = 32
  · by_cases hiv : iv = [] <;> cases algorithm <;> cases hmac <;> cases attachIv <;>
      cases deterministic <;>
      simp [privmxEncrypt, hkey, hiv, eq_comm, pure, Except.pure, throw, throwThe,
        MonadExceptOf.throw, bind, Except.bind]
  · simp [privmxEncrypt, hkey, throw, throwThe, MonadExceptOf.throw, bind, Except.bind]

/-- The encryptors of the endpoint use the defaults of a signed container. -/
theorem privmxEncrypt_withSignature (iv : Iv) :
    privmxEncrypt E privmxOptAesWithSignature data key iv.1 random =
      CryptoPrivmx.privmxEncrypt E data key iv := by
  have hne : iv.1 ≠ [] := List.ne_nil_of_length_eq_add_one iv.2
  by_cases hkey : key.length = 32
  · refine (privmxEncrypt_eq_ok.mpr ⟨hkey, rfl, Or.inr (Or.inr ⟨rfl, rfl, rfl, ?_⟩)⟩).trans
      (if_neg (not_not.mpr hkey)).symm
    have hblock : (⟨iv.1.take 16, List.length_take_of_le (Nat.le_of_eq iv.2.symm)⟩ : Iv) = iv :=
      Subtype.ext (List.take_of_length_le (Nat.le_of_eq iv.2))
    rw [if_neg hne, CryptoService.ctAes256CbcPkcs7WithIvAndHmacSha256,
      CryptoService.aes256CbcHmac256Encrypt_eq (Nat.le_of_eq iv.2.symm), hblock]
    rfl
  · unfold CryptoPrivmx.privmxEncrypt
    rw [if_pos hkey]
    simp [privmxEncrypt, hkey, throw, throwThe, MonadExceptOf.throw, bind, Except.bind]

/-- Without a promised tag the container alone decides. -/
theorem privmxDecrypt_unsigned (presented iv16 : Bytes) (taglen : Nat) :
    privmxDecrypt E false presented key iv16 taglen =
      CryptoService.ctDecrypt E presented key iv16 taglen := by
  simp [privmxDecrypt]

/-- A sealed container is opened either way. -/
theorem privmxDecrypt_hmac (is_signed : Bool) (sealed iv16 : Bytes) (taglen : Nat) :
    privmxDecrypt E is_signed (AES_256_CBC_PKCS7_WITH_IV_AND_HMAC_SHA256 :: sealed) key iv16
        taglen =
      CryptoService.ctDecrypt E (AES_256_CBC_PKCS7_WITH_IV_AND_HMAC_SHA256 :: sealed) key iv16
        taglen := by
  simp [privmxDecrypt]

/-- **What was encrypted is decrypted.** -/
theorem privmxDecrypt_privmxEncrypt (hE : E.Chains B) (hiv : IvFits options iv)
    (htaglen : options.taglen ≤ 32) (h : privmxEncrypt E options data key iv random = .ok x)
    {is_signed : Bool} (hsigned : is_signed = true → options.hmac = .SHA_256) {iv16 : Bytes}
    (hmatch : options.attachIv = false → iv16 = iv) :
    privmxDecrypt E is_signed x key iv16 options.taglen = .ok data := by
  obtain ⟨hkey, -, hform⟩ := privmxEncrypt_eq_ok.mp h
  have hunsigned (hhmac : options.hmac = .NO_HMAC) : is_signed = false := by
    cases is_signed with
    | false => rfl
    | true => cases hhmac.symm.trans (hsigned rfl)
  obtain ⟨hhmac, hattach, hx⟩ | ⟨hhmac, hattach, hx⟩ | ⟨hhmac, hattach, -, hx⟩ := hform
  · -- the vector of the reader is the one of the writer
    have hblock : iv.length = 16 := by
      rcases hiv with hblock | ⟨hother, -⟩ | ⟨hother, -⟩
      · exact hblock
      · cases hhmac.symm.trans hother
      · cases hattach.symm.trans hother
    have hne : iv ≠ [] := List.ne_nil_of_length_eq_add_one hblock
    rw [hunsigned hhmac, privmxDecrypt_unsigned, hx, if_neg hne, hmatch hattach]
    exact (CryptoService.ctDecrypt_noIv hkey hne _).trans (hE.decrypt_encrypt data hkey hblock)
  · have hblock : (if iv = [] then random.1 else iv).length = 16 := by
      by_cases hnil : iv = []
      · rw [if_pos hnil]
        exact random.2
      · rw [if_neg hnil]
        rcases hiv with hblock | ⟨hother, -⟩ | ⟨-, hother⟩
        · exact hblock
        · cases hhmac.symm.trans hother
        · exact absurd hother hnil
    rw [hunsigned hhmac, privmxDecrypt_unsigned, hx]
    exact (CryptoService.ctDecrypt_withIv hkey hblock _ iv16).trans
      (hE.decrypt_encrypt data hkey hblock)
  · have hblock : 16 ≤ (if iv = [] then random.1 else iv).length := by
      by_cases hnil : iv = []
      · rw [if_pos hnil]
        exact Nat.le_of_eq random.2.symm
      · rw [if_neg hnil]
        rcases hiv with hblock | ⟨-, hblock⟩ | ⟨-, hother⟩
        · exact Nat.le_of_eq hblock.symm
        · exact hblock
        · exact absurd hother hnil
    rw [hx, CryptoService.ctAes256CbcPkcs7WithIvAndHmacSha256, privmxDecrypt_hmac,
      CryptoService.ctDecrypt_withIvAndHmac hkey, CryptoService.aes256CbcHmac256Encrypt_eq hblock]
    exact Crypto.decrypt_encrypt hE.seals data key _ htaglen

/-! ### What is read as signed -/

/-- A string that is read as signed has the type byte and the right tag. -/
theorem parts_of_privmxDecrypt {presented iv16 : Bytes} {taglen : Nat}
    (h : privmxDecrypt E true presented key iv16 taglen = .ok data) :
    ∃ cipher tag,
      presented = AES_256_CBC_PKCS7_WITH_IV_AND_HMAC_SHA256 :: (cipher ++ tag) ∧
        tag.length = taglen ∧
          (E.hmacSha256 (Crypto.getKEM E key).2 cipher).take taglen = tag := by
  have htype : presented.getD 0 0 = AES_256_CBC_PKCS7_WITH_IV_AND_HMAC_SHA256 := by
    by_contra hother
    rw [privmxDecrypt, if_pos ⟨rfl, hother⟩] at h
    cases h
  cases presented with
  | nil => cases htype
  | cons type sealed =>
      rw [List.getD_cons_zero] at htype
      subst htype
      rw [privmxDecrypt_hmac] at h
      have hkey : key.length = 32 := by
        by_contra hother
        rw [CryptoService.ctDecrypt, if_pos hother] at h
        cases h
      rw [CryptoService.ctDecrypt_withIvAndHmac hkey] at h
      unfold Crypto.aes256CbcHmac256Decrypt at h
      dsimp only at h
      by_cases hshort : sealed.length < taglen
      · rw [if_pos hshort] at h
        cases h
      rw [if_neg hshort] at h
      by_cases htag : sealed.drop (sealed.length - taglen) =
          (E.hmacSha256 (Crypto.getKEM E key).2 (sealed.take (sealed.length - taglen))).take taglen
      · refine ⟨sealed.take (sealed.length - taglen), sealed.drop (sealed.length - taglen), ?_, ?_,
          htag.symm⟩
        · rw [List.take_append_drop]
        · rw [List.length_drop]
          omega
      · rw [if_pos htag] at h
        cases h

/-- Without forged tags only what was enciphered under the key is read as signed, and it is
read as it was. -/
theorem sent_of_privmxDecrypt (hE : E.Chains B) (hkey : key.length = 32) {presented iv16 : Bytes}
    {taglen : Nat} {sent : Bytes → Iv → Prop} (hunforged : Unforged E key taglen sent presented)
    (h : privmxDecrypt E true presented key iv16 taglen = .ok data) :
    ∃ iv, sent data iv ∧
      ∀ random, privmxEncrypt E (withTag taglen) data key iv.1 random = .ok presented := by
  obtain ⟨cipher, tag, hpresented, hlength, htag⟩ := parts_of_privmxDecrypt h
  obtain ⟨data', iv, hsent, hcipher⟩ := hunforged cipher tag hpresented hlength htag
  have hwritten (random : Iv) :
      privmxEncrypt E (withTag taglen) data' key iv.1 random = .ok presented := by
    refine privmxEncrypt_eq_ok.mpr ⟨hkey, rfl, Or.inr (Or.inr ⟨rfl, rfl, rfl, ?_⟩)⟩
    have hblock : iv.1.take 16 = iv.1 := List.take_of_length_le (Nat.le_of_eq iv.2)
    rw [if_neg (List.ne_nil_of_length_eq_add_one iv.2), hpresented,
      CryptoService.ctAes256CbcPkcs7WithIvAndHmacSha256,
      CryptoService.aes256CbcHmac256Encrypt_eq (Nat.le_of_eq iv.2.symm)]
    unfold Crypto.aes256CbcHmac256Encrypt
    dsimp only
    rw [hblock, ← hcipher]
    exact congrArg (fun t => AES_256_CBC_PKCS7_WITH_IV_AND_HMAC_SHA256 :: (cipher ++ t)) htag.symm
  have htaglen : taglen ≤ 32 := by
    rw [← hlength, ← htag, List.length_take, hE.length_hmacSha256]
    exact Nat.min_le_right _ _
  have hback : privmxDecrypt E true presented key iv16 (withTag taglen).taglen = .ok data' :=
    privmxDecrypt_privmxEncrypt hE (Or.inl iv.2) htaglen (hwritten iv) (fun _ => rfl)
      (fun hdetached => by cases hdetached)
  obtain rfl : data = data' := Except.ok.inj (h.symm.trans hback)
  exact ⟨iv, hsent, hwritten⟩

/-- What the container is for: every form is read back, and where a tag is required nothing
passes but what was enciphered under the key. -/
theorem container (hE : E.Chains B) (hkey : key.length = 32) :
    (∀ options data iv random, options.deterministic = false →
      ((∃ x, privmxEncrypt E options data key iv random = .ok x) ↔
        options.algorithm = .AES_256_CBC ∧
          (options.hmac = .NO_HMAC ∨ options.attachIv = true))) ∧
    (∀ options data iv random x, IvFits options iv → options.taglen ≤ 32 →
      privmxEncrypt E options data key iv random = .ok x →
        ∀ is_signed iv16, (is_signed = true → options.hmac = .SHA_256) →
          (options.attachIv = false → iv16 = iv) →
            privmxDecrypt E is_signed x key iv16 options.taglen = .ok data) ∧
    (∀ presented iv16 taglen data, privmxDecrypt E true presented key iv16 taglen = .ok data →
      presented.head? = some AES_256_CBC_PKCS7_WITH_IV_AND_HMAC_SHA256) ∧
    (∀ taglen sent presented, 0 < taglen → Unforged E key taglen sent presented →
      (∀ data iv random, sent data iv →
        privmxEncrypt E (withTag taglen) data key iv.1 random ≠ .ok presented) →
          ∀ iv16, ∃ e, privmxDecrypt E true presented key iv16 taglen = .error e) := by
  refine ⟨?_, ?_, ?_, ?_⟩
  · intro options data iv random hdeterministic
    constructor
    · intro haccepted
      obtain ⟨x, h⟩ := haccepted
      obtain ⟨-, halgorithm, hform⟩ := privmxEncrypt_eq_ok.mp h
      tauto
    · intro hoptions
      obtain ⟨halgorithm, hform⟩ := hoptions
      cases hhmac : options.hmac with
      | SHA_256 =>
          have hattach : options.attachIv = true := hform.resolve_left (by rw [hhmac]; decide)
          exact ⟨_, privmxEncrypt_eq_ok.mpr
            ⟨hkey, halgorithm, Or.inr (Or.inr ⟨hhmac, hattach, hdeterministic, rfl⟩)⟩⟩
      | NO_HMAC =>
          cases hattach : options.attachIv with
          | false =>
              exact ⟨_, privmxEncrypt_eq_ok.mpr
                ⟨hkey, halgorithm, Or.inl ⟨hhmac, hattach, rfl⟩⟩⟩
          | true =>
              exact ⟨_, privmxEncrypt_eq_ok.mpr
                ⟨hkey, halgorithm, Or.inr (Or.inl ⟨hhmac, hattach, rfl⟩)⟩⟩
  · intro options data iv random x hiv htaglen h is_signed iv16 hsigned hmatch
    exact privmxDecrypt_privmxEncrypt hE hiv htaglen h hsigned hmatch
  · intro presented iv16 taglen data h
    obtain ⟨cipher, tag, hpresented, -, -⟩ := parts_of_privmxDecrypt h
    rw [hpresented]
    rfl
  · intro taglen sent presented _ hunforged hother iv16
    cases h : privmxDecrypt E true presented key iv16 taglen with
    | error e => exact ⟨e, rfl⟩
    | ok data =>
        obtain ⟨iv, hsent, hwritten⟩ := sent_of_privmxDecrypt hE hkey hunforged h
        exact absurd (hwritten iv) (hother data iv iv hsent)

/-! ### A cipher that adds the key -/

/-- Blocks are combined with the first half of the key. -/
def sampleBlockCipher : Cbc.BlockCipher 32 16 where
  encrypt key block := Cbc.xorBytes block (key.take 16)
  decrypt key block := Cbc.xorBytes block (key.take 16)
  length_encrypt key block hkey hblock := by
    rw [Cbc.length_xorBytes (by rw [List.length_take, hkey, hblock]; rfl), hblock]
  decrypt_encrypt key block hkey hblock :=
    Cbc.xorBytes_xorBytes (by rw [List.length_take, hkey, hblock]; rfl)

def sampleContainerLibrary : EnvelopeLibrary sampleKeyCrypto :=
  { sampleDioLibrary with
    hmacSha256 := sampleHmac
    aes256CbcPkcs7Encrypt := fun data key iv => Cbc.encrypt sampleBlockCipher key iv data
    aes256CbcPkcs7Decrypt := fun cipher key iv =>
      match Cbc.decrypt sampleBlockCipher key iv cipher with
      | some plain => .ok plain
      | none => .error privmxDriverCrypto
    stringifyParsed := fun json => .ok json
    stringifyEmpty := .ok [] }

/-- The sample library chains its blocks. -/
theorem sampleContainerLibrary_chains : sampleContainerLibrary.Chains sampleBlockCipher where
  length_hmacSha256 := samplePrimitives.hmacSha256_length
  encrypt_eq _ _ _ _ _ := rfl
  decrypt_eq _ _ _ _ _ := rfl

/-- No tag of a cipher text of zeros is made of zeros under this key. -/
theorem sample_unforged :
    Unforged sampleContainerLibrary (List.replicate 32 7) 4 (fun _ _ => False)
      (AES_256_CBC_PKCS7_WITH_IV_AND_HMAC_SHA256 :: List.replicate 40 0) := by
  intro cipher tag hpresented hlength htag
  obtain ⟨hsum, hcipher, hzeros⟩ := List.append_eq_replicate_iff.mp (List.cons.inj hpresented).2.symm
  have hrest : cipher.length = 36 := by omega
  rw [hcipher, hrest, hzeros, hlength] at htag
  exact absurd htag (by decide +kernel)

/-- Data under a short tag is read back; a tag of zeros is refused, and so is a string that
has no room for a tag. -/
theorem container_sample :
    (∃ x, privmxEncrypt sampleContainerLibrary (withTag 4) [1, 2, 3] (List.replicate 32 7)
        (List.replicate 20 9) ⟨List.replicate 16 5, rfl⟩ = .ok x ∧
      privmxDecrypt sampleContainerLibrary true x (List.replicate 32 7) [] 4 = .ok [1, 2, 3]) ∧
    (∃ e, privmxDecrypt sampleContainerLibrary true
      (AES_256_CBC_PKCS7_WITH_IV_AND_HMAC_SHA256 :: List.replicate 40 0) (List.replicate 32 7) []
        4 = .error e) ∧
    ∃ e, privmxDecrypt sampleContainerLibrary true [AES_256_CBC_PKCS7_WITH_IV_AND_HMAC_SHA256]
      (List.replicate 32 7) [] 4 = .error e := by
  have hkey : (List.replicate 32 (7 : UInt8)).length = 32 := rfl
  obtain ⟨haccepted, hback, -, hrefused⟩ := container sampleContainerLibrary_chains hkey
  have hshort : Unforged sampleContainerLibrary (List.replicate 32 7) 4 (fun _ _ => False)
      [AES_256_CBC_PKCS7_WITH_IV_AND_HMAC_SHA256] := by
    intro cipher tag hpresented hlength _
    have hnil := List.append_eq_nil_iff.mp (List.cons.inj hpresented).2.symm
    rw [hnil.2] at hlength
    cases hlength
  obtain ⟨x, hx⟩ := (haccepted (withTag 4) [1, 2, 3] (List.replicate 20 9)
    ⟨List.replicate 16 5, rfl⟩ rfl).mpr ⟨rfl, Or.inr rfl⟩
  refine ⟨⟨x, hx, ?_⟩, ?_, ?_⟩
  · exact hback (withTag 4) _ _ _ x (Or.inr (Or.inl ⟨rfl, by decide⟩)) (by decide) hx true []
      (fun _ => rfl) (fun hdetached => by cases hdetached)
  · exact hrefused 4 _ _ (by decide) sample_unforged (fun _ _ _ hsent => hsent.elim) []
  · exact hrefused 4 _ _ (by decide) hshort (fun _ _ _ hsent => hsent.elim) []

end AesContainer

end PrivmxEndpoint
