import PrivmxEndpoint.StoreTypes

/-!
# The cryptographic library used by the store module

`Primitives` collects the operations of `privmx::crypto::Crypto` and
`utils::Base64` that file encryption calls, together with their documented
behaviour: digest lengths, the PKCS7-padded length of an AES-CBC cipher text,
and that decoding inverts encoding.  Nothing else is assumed of them.  Random
bytes are arguments of the functions that draw them.

`samplePrimitives` satisfies all of these laws, so they do not contradict each
other; it is used wherever a run on concrete data is shown.
-/

namespace PrivmxEndpoint

/-- An initialization vector, `Crypto::randomBytes(IV_SIZE)`. -/
abbrev Iv := { iv : Bytes // iv.length = 16 }

/-- The primitives with their documented behaviour. -/
structure Primitives where
  sha256 : Bytes → Bytes
  hmacSha256 : Bytes → Bytes → Bytes
  /-- Arguments are the data, the key and the initialization vector. -/
  aes256CbcPkcs7Encrypt : Bytes → Bytes → Bytes → Bytes
  aes256CbcPkcs7Decrypt : Bytes → Bytes → Bytes → Except StoreError Bytes
  base64From : Bytes → String
  base64ToString : String → Bytes
  sha256_length : ∀ d, (sha256 d).length = 32
  hmacSha256_length : ∀ k d, (hmacSha256 k d).length = 32
  aes_length : ∀ d k iv, k.length = 32 → iv.length = 16 →
    (aes256CbcPkcs7Encrypt d k iv).length = d.length + (16 - d.length % 16)
  aes_decrypt_encrypt : ∀ d k iv, k.length = 32 → iv.length = 16 →
    aes256CbcPkcs7Decrypt (aes256CbcPkcs7Encrypt d k iv) k iv = .ok d
  base64_toString_from : ∀ d, base64ToString (base64From d) = d

/-- A digest of the last 32 bytes. -/
def sampleSha256 (d : Bytes) : Bytes :=
  (d.reverse ++ List.replicate 32 0).take 32

/-- A tag made of the head of the key and of the message behind its first
sixteen bytes. -/
def sampleHmac (k d : Bytes) : Bytes :=
  (k.take 8 ++ d.drop 16 ++ List.replicate 32 0).take 32

/-- PKCS7 padding without a cipher. -/
def samplePad (d : Bytes) : Bytes :=
  d ++ List.replicate (16 - d.length % 16) (UInt8.ofNat (16 - d.length % 16))

/-- Removal of PKCS7 padding. -/
def sampleUnpad (c : Bytes) : Except StoreError Bytes :=
  match c.getLast? with
  | none => .error .crypto
  | some p => .ok (c.take (c.length - p.toNat))

theorem sampleUnpad_samplePad (d : Bytes) : sampleUnpad (samplePad d) = .ok d := by
  obtain ⟨p, hp⟩ : ∃ p, 16 - d.length % 16 = p + 1 := ⟨15 - d.length % 16, by omega⟩
  have hlast : (samplePad d).getLast? = some (UInt8.ofNat (p + 1)) := by
    simp [samplePad, hp, List.getLast?_append, List.getLast?_replicate]
  have hlen : (samplePad d).length = d.length + (p + 1) := by
    simp [samplePad, hp]
  have hnat : (UInt8.ofNat (p + 1)).toNat = p + 1 := by
    have : p + 1 < 256 := by omega
    simp [UInt8.toNat_ofNat, Nat.mod_eq_of_lt this]
  rw [sampleUnpad, hlast]
  simp only [hlen, hnat]
  simp [samplePad]

/-- Bytes written as the characters with the same codes. -/
def sampleBase64From (d : Bytes) : String :=
  String.ofList (d.map fun b => Char.ofNat b.toNat)

def sampleBase64ToString (s : String) : Bytes :=
  s.toList.map fun c => UInt8.ofNat c.toNat

theorem sampleBase64_toString_from (d : Bytes) :
    sampleBase64ToString (sampleBase64From d) = d := by
  simp only [sampleBase64ToString, sampleBase64From, String.toList_ofList, List.map_map]
  conv_rhs => rw [← List.map_id d]
  apply List.map_congr_left
  intro b _
  have hb : b.toNat < 256 := b.toNat_lt
  have hvalid : (b.toNat).isValidChar := Or.inl (by omega)
  have hc : (Char.ofNat b.toNat).toNat = b.toNat := by
    simp [Char.ofNat, hvalid, Char.toNat, Char.ofNatAux]
  simp [hc]

/-- An instance of the laws. -/
def samplePrimitives : Primitives where
  sha256 := sampleSha256
  hmacSha256 := sampleHmac
  aes256CbcPkcs7Encrypt d _ _ := samplePad d
  aes256CbcPkcs7Decrypt c _ _ := sampleUnpad c
  base64From := sampleBase64From
  base64ToString := sampleBase64ToString
  sha256_length d := by simp [sampleSha256]
  hmacSha256_length k d := by
    simp [sampleHmac]
    omega
  aes_length d _ _ _ _ := by simp [samplePad]
  aes_decrypt_encrypt d _ _ _ _ := sampleUnpad_samplePad d
  base64_toString_from := sampleBase64_toString_from

end PrivmxEndpoint
