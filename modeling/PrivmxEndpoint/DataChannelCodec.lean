import PrivmxEndpoint.DataChannel

/-!
# The wire format of a data channel

The encoder writes a header as long as the key identifier makes it, with a
length octet in front of the identifier.  The splitter cuts every message
behind the first fifty bytes, which is where the header of a 32-byte identifier
ends.  Encoder and decoder agree exactly for such identifiers, and for numbers
that fit the four bytes of the header.
-/

namespace PrivmxEndpoint

namespace Stream

namespace DataChannelMessageEncryptorV1

@[simp] theorem length_serializeHeader (header : Header) :
    (serializeHeader header).length = 6 + header.iv.length + header.keyId.length := by
  simp [serializeHeader]
  omega

/-- Reading a header back. -/
theorem deserializeHeader_serializeHeader {header : Header}
    (hiv : header.iv.length = GCM_NONCE_LENGTH_BYTES) (hkeyId : header.keyId.length < 256) :
    deserializeHeader (serializeHeader header) = header := by
  obtain ⟨version, seq, iv, keyId⟩ := header
  dsimp only at hiv hkeyId
  have hseqLength : (BigEndian.bytes 4 seq.toNat).length = 4 := BigEndian.length_bytes _ _
  have hfront : (BigEndian.bytes 4 seq.toNat ++ iv).length = 16 := by
    rw [List.length_append, hseqLength, hiv]
    rfl
  have hseq : ((serializeHeader ⟨version, seq, iv, keyId⟩).drop 1).take 4 =
      BigEndian.bytes 4 seq.toNat := by
    show (BigEndian.bytes 4 seq.toNat ++ iv ++ UInt8.ofNat keyId.length :: keyId).take 4 = _
    rw [List.append_assoc, List.take_left' hseqLength]
  have hnonce : ((serializeHeader ⟨version, seq, iv, keyId⟩).drop 5).take
      GCM_NONCE_LENGTH_BYTES = iv := by
    show ((BigEndian.bytes 4 seq.toNat ++ iv ++ UInt8.ofNat keyId.length :: keyId).drop 4).take
      GCM_NONCE_LENGTH_BYTES = _
    rw [List.append_assoc, List.drop_left' hseqLength, List.take_left' hiv]
  have hbehind : (serializeHeader ⟨version, seq, iv, keyId⟩).drop 17 =
      UInt8.ofNat keyId.length :: keyId := by
    show (BigEndian.bytes 4 seq.toNat ++ iv ++ UInt8.ofNat keyId.length :: keyId).drop 16 = _
    rw [List.drop_left' hfront]
  have hoctet : ((serializeHeader ⟨version, seq, iv, keyId⟩).getD 17 0).toNat =
      keyId.length := by
    have hget : (serializeHeader ⟨version, seq, iv, keyId⟩)[17]? =
        some (UInt8.ofNat keyId.length) := by
      rw [← List.head?_drop, hbehind, List.head?_cons]
    rw [List.getD_eq_getElem?_getD, hget, Option.getD_some]
    exact UInt8.toNat_ofNat_of_lt' hkeyId
  have hidentifier : (serializeHeader ⟨version, seq, iv, keyId⟩).drop 18 = keyId := by
    rw [← List.drop_drop (i := 1) (j := 17), hbehind]
    rfl
  unfold deserializeHeader
  rw [hseq, hnonce, hoctet, hidentifier, List.take_length,
    BigEndian.value_bytes_of_lt (by have := seq.toNat_lt; omega), UInt32.ofNat_toNat]
  rfl

/-- A header and a cipher text, taken apart. -/
def apart (header : Header) (ciphertext : Bytes) : ParsedEncryptedMessage where
  header := header
  serializedHeader := serializeHeader header
  ciphertext := ciphertext

/-- A header and a cipher text are split where they were joined, and the header
is read back, exactly if the key identifier has 32 bytes. -/
theorem parseEncryptedMessage_serializeHeader_iff (header : Header)
    (hiv : header.iv.length = GCM_NONCE_LENGTH_BYTES) (hkeyId : header.keyId.length < 256)
    (ciphertext : Bytes) :
    parseEncryptedMessage (serializeHeader header ++ ciphertext) =
        .ok (apart header ciphertext) ↔
      header.keyId.length = AES_GCM_KEY_LENGTH_BYTES := by
  have hlength : (serializeHeader header).length = 18 + header.keyId.length := by
    rw [length_serializeHeader, hiv]
    rfl
  have hcut : FIXED_HEADER_LENGTH + AES_GCM_KEY_LENGTH_BYTES = 50 := rfl
  unfold parseEncryptedMessage stringSubstr
  rw [hcut]
  constructor
  · intro h
    by_cases hshort : 50 ≤ (serializeHeader header ++ ciphertext).length
    · rw [if_pos (Nat.zero_le _), if_pos hshort] at h
      have hparsed := Except.ok.inj h
      have hheader : ((serializeHeader header ++ ciphertext).drop 0).take 50 =
          serializeHeader header := congrArg ParsedEncryptedMessage.serializedHeader hparsed
      have hcount := congrArg List.length hheader
      rw [List.drop_zero, List.length_take_of_le hshort, hlength] at hcount
      show header.keyId.length = 32
      omega
    · rw [if_pos (Nat.zero_le _), if_neg hshort] at h
      cases h
  · intro h32
    have h50 : (serializeHeader header).length = 50 := by
      rw [hlength, h32]
      rfl
    have hshort : 50 ≤ (serializeHeader header ++ ciphertext).length := by
      rw [List.length_append]
      omega
    have hheader : ((serializeHeader header ++ ciphertext).drop 0).take 50 =
        serializeHeader header := by
      rw [List.drop_zero, List.take_left' h50]
    have hcipher : ((serializeHeader header ++ ciphertext).drop 50).take
        (serializeHeader header ++ ciphertext).length = ciphertext := by
      rw [List.drop_left' h50]
      exact List.take_of_length_le (by rw [List.length_append]; omega)
    rw [if_pos (Nat.zero_le _), if_pos hshort, hheader, hcipher]
    show Except.ok _ = _
    rw [deserializeHeader_serializeHeader hiv hkeyId]
    rfl

/-- The message that `encryptMessage` makes with the key it finds. -/
def sentBytes (C : GcmCrypto) (message : DataChannelMessage) (iv : Nonce) (encKey : Key) :
    Bytes :=
  serializeHeader (messageHeader message iv encKey) ++
    C.aes256GcmEncrypt message.data encKey.key iv
      (serializeHeader (messageHeader message iv encKey))

theorem encryptMessage_eq (C : GcmCrypto) (message : DataChannelMessage) (iv : Nonce)
    {s : DataChannelMessageEncryptorV1} {encKey : Key}
    (hlocal : s.getEncryptionKey = .ok encKey) (hkeyId : encKey.keyId.length < 0xff) :
    encryptMessage C message iv s = .ok (sentBytes C message iv encKey) := by
  unfold encryptMessage
  rw [hlocal]
  show (if encKey.keyId.length ≥ 0xff then _ else _) = _
  rw [if_neg (by omega)]
  rfl

/-- The watermark of a fresh encryptor is below every number. -/
theorem assertSeq_new (id : Bytes) (seq : UInt32) (keys : List Key) :
    (assertSeq id seq (new keys)).1 = .ok () ∧ (assertSeq id seq (new keys)).2.keys = keys := by
  obtain ⟨hresult, hsame⟩ := assertSeq_spec id seq (new keys)
  have hmark : (new keys).watermark id = -1 := rfl
  rw [hmark, if_neg (by omega)] at hresult
  exact ⟨hresult, hsame.keys⟩

/-- What a fresh receiver makes of a message that was split in the right
place. -/
theorem decryptParsed_sent {C : GcmCrypto} (hC : C.Lawful) (id : Bytes)
    (message : DataChannelMessage) (iv : Nonce) {keys : List Key} {encKey decKey : Key}
    (hdecrypt : (new keys).getDencryptionKey encKey.keyId = .ok decKey)
    (hsame : decKey.key = encKey.key) :
    ((new keys).decryptParsed C id
        (apart (messageHeader message iv encKey) (C.aes256GcmEncrypt message.data encKey.key iv
          (serializeHeader (messageHeader message iv encKey))))).1 =
      .ok { data := message.data
            seq := (UInt32.ofNat (message.seq % 2 ^ 32).toNat).toNat
            statusCode := 0 } := by
  unfold decryptParsed
  obtain ⟨hresult, hkeys⟩ := assertSeq_new id (messageHeader message iv encKey).seq keys
  rw [show (apart (messageHeader message iv encKey) (C.aes256GcmEncrypt message.data encKey.key iv
    (serializeHeader (messageHeader message iv encKey)))).header =
      messageHeader message iv encKey from rfl]
  generalize assertSeq id (messageHeader message iv encKey).seq (new keys) = asserted
    at hresult hkeys
  obtain ⟨result, t⟩ := asserted
  dsimp only at hresult hkeys ⊢
  subst hresult
  have hfound : t.getDencryptionKey encKey.keyId = .ok decKey := by
    rw [← hdecrypt, getDencryptionKey, hkeys]
    rfl
  have hopen : t.openMessage C
      (apart (messageHeader message iv encKey) (C.aes256GcmEncrypt message.data encKey.key iv
        (serializeHeader (messageHeader message iv encKey)))) = .ok message.data := by
    unfold openMessage
    show (t.getDencryptionKey encKey.keyId >>= fun decKey => _) = _
    rw [hfound]
    show C.aes256GcmDecrypt _ decKey.key _ _ = _
    rw [hsame]
    exact hC.decrypt_encrypt _ _ _ _ iv.2
  dsimp only
  rw [hopen]
  rfl

/-- The codec is exact for a key and a message: a fresh receiver with the same
keys gets the message back, and header and cipher text are taken apart where
they were put together. -/
structure Exact (C : GcmCrypto) (keys : List Key) (encKey : Key) (message : DataChannelMessage)
    (iv : Nonce) : Prop where
  decrypts : ∃ encryptedData, encryptMessage C message iv (new keys) = .ok encryptedData ∧
    ∀ id, ((new keys).decryptMessage C id encryptedData).1 =
      .ok { data := message.data, seq := message.seq, statusCode := 0 }
  splits : ∀ ciphertext,
    parseEncryptedMessage
        (serializeHeader (messageHeader message iv encKey) ++ ciphertext) =
      .ok (apart (messageHeader message iv encKey) ciphertext)

/-- A number survives the four bytes of the header exactly if it fits them. -/
theorem wireSeq_eq_iff (seq : Int) :
    ((UInt32.ofNat (seq % 2 ^ 32).toNat).toNat : Int) = seq ↔ 0 ≤ seq ∧ seq < 2 ^ 32 := by
  have hrange : (seq % 2 ^ 32).toNat < 2 ^ 32 := by omega
  rw [UInt32.toNat_ofNat_of_lt' hrange]
  omega

theorem decryptMessage_sent {C : GcmCrypto} (hC : C.Lawful) (id : Bytes)
    (message : DataChannelMessage) (iv : Nonce) {keys : List Key} {encKey decKey : Key}
    (hkeyId : encKey.keyId.length = AES_GCM_KEY_LENGTH_BYTES)
    (hdecrypt : (new keys).getDencryptionKey encKey.keyId = .ok decKey)
    (hsame : decKey.key = encKey.key) :
    ((new keys).decryptMessage C id (sentBytes C message iv encKey)).1 =
      .ok { data := message.data
            seq := (UInt32.ofNat (message.seq % 2 ^ 32).toNat).toNat
            statusCode := 0 } := by
  have hlength : FIXED_HEADER_LENGTH ≤ (sentBytes C message iv encKey).length := by
    have h := length_serializeHeader (messageHeader message iv encKey)
    have hiv : (messageHeader message iv encKey).iv.length = 12 := iv.2
    unfold sentBytes
    rw [List.length_append, h, hiv]
    show 18 ≤ _
    omega
  have hassert : assertData (sentBytes C message iv encKey) = .ok () := by
    unfold assertData
    rw [if_neg (by omega)]
    rfl
  have hparse := (parseEncryptedMessage_serializeHeader_iff
    (messageHeader message iv encKey) iv.2 (by rw [show
      (messageHeader message iv encKey).keyId = encKey.keyId from rfl, hkeyId]; decide)
    (C.aes256GcmEncrypt message.data encKey.key iv
      (serializeHeader (messageHeader message iv encKey)))).mpr hkeyId
  unfold decryptMessage
  rw [hassert]
  dsimp only
  unfold sentBytes
  rw [hparse]
  exact decryptParsed_sent hC id message iv hdecrypt hsame

/-- **When the codec is exact.**  For every key that `encryptMessage` accepts,
that is so exactly for identifiers of 32 bytes and numbers of 32 bits. -/
theorem encryptMessage_exact_iff {C : GcmCrypto} (hC : C.Lawful) {keys : List Key}
    {encKey decKey : Key} (message : DataChannelMessage) (iv : Nonce)
    (hlocal : (new keys).getEncryptionKey = .ok encKey) (hkeyId : encKey.keyId.length < 0xff)
    (hdecrypt : (new keys).getDencryptionKey encKey.keyId = .ok decKey)
    (hsame : decKey.key = encKey.key) :
    Exact C keys encKey message iv ↔
      encKey.keyId.length = AES_GCM_KEY_LENGTH_BYTES ∧ 0 ≤ message.seq ∧
        message.seq < 2 ^ 32 := by
  have hparse := parseEncryptedMessage_serializeHeader_iff
    (messageHeader message iv encKey) iv.2
    (show encKey.keyId.length < 256 by omega)
  constructor
  · intro hexact
    have h32 : encKey.keyId.length = AES_GCM_KEY_LENGTH_BYTES :=
      (hparse []).mp (hexact.splits [])
    refine ⟨h32, ?_⟩
    obtain ⟨encryptedData, hencrypt, hback⟩ := hexact.decrypts
    rw [encryptMessage_eq C message iv hlocal hkeyId] at hencrypt
    obtain rfl := Except.ok.inj hencrypt
    have hreceived := hback []
    rw [decryptMessage_sent hC [] message iv h32 hdecrypt hsame] at hreceived
    have hseq := congrArg (fun m => m.seq) (Except.ok.inj hreceived)
    exact (wireSeq_eq_iff message.seq).mp hseq
  · rintro ⟨h32, hseq⟩
    refine ⟨⟨_, encryptMessage_eq C message iv hlocal hkeyId, fun id => ?_⟩, fun ciphertext => ?_⟩
    · rw [decryptMessage_sent hC id message iv h32 hdecrypt hsame,
        (wireSeq_eq_iff message.seq).mpr hseq]
    · exact (hparse ciphertext).mpr h32

theorem encryptMessage_exact_iff_sample :
    Exact sampleGcm [sampleKey] sampleKey { data := [1, 2, 3], seq := 7 } sampleNonce :=
  (encryptMessage_exact_iff sampleGcm_lawful { data := [1, 2, 3], seq := 7 } sampleNonce
    (show (new [sampleKey]).getEncryptionKey = .ok sampleKey from rfl) (by decide)
    (show (new [sampleKey]).getDencryptionKey sampleKey.keyId = .ok sampleKey from rfl) rfl).mpr
    ⟨rfl, by decide, by decide⟩

/-- A key with an identifier of one character. -/
def shortKey : Key where
  keyId := [97]
  key := List.replicate 32 7
  type := .LOCAL

/-- Under a short identifier a short message is cut inside its own header: the
receiver throws `std::out_of_range`. -/
theorem encryptMessage_not_exact :
    sampleGcm.Lawful ∧
      (new [shortKey]).getEncryptionKey = .ok shortKey ∧ shortKey.keyId.length < 0xff ∧
      (new [shortKey]).getDencryptionKey shortKey.keyId = .ok shortKey ∧
      ((new [shortKey]).decryptMessage sampleGcm [1] (sampleMessage shortKey 7)).1 =
        .error .other ∧
      ¬ Exact sampleGcm [shortKey] shortKey { data := [1, 2, 3], seq := 7 } sampleNonce := by
  have hthrows : ((new [shortKey]).decryptMessage sampleGcm [1]
      (sentBytes sampleGcm { data := [1, 2, 3], seq := 7 } sampleNonce shortKey)).1 =
      .error .other := by
    decide
  refine ⟨sampleGcm_lawful, rfl, by decide, rfl, hthrows, ?_⟩
  rintro ⟨⟨encryptedData, hencrypt, hback⟩, -⟩
  rw [encryptMessage_eq sampleGcm _ sampleNonce rfl (by decide)] at hencrypt
  obtain rfl := Except.ok.inj hencrypt
  have hreceived := hback [1]
  rw [hthrows] at hreceived
  cases hreceived

end DataChannelMessageEncryptorV1

end Stream

end PrivmxEndpoint
