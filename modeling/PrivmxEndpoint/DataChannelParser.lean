import PrivmxEndpoint.DataChannel

/-!
# What arrives on a data channel

`DataChannelMessageEncryptorV1::decryptMessage` on any bytes that a remote stream sends.
Three lengths meet there: `assertData` asks for the fixed part of the header,
`parseEncryptedMessage` cuts behind the fixed part and 32 bytes of key id, whatever length
the header announces, and `deserializeHeader` takes as much of the key id as the cut has
left.  A message between the first two lengths leaves the function with the exception of
`substr`, and one that is cut before the end of its header is treated as complete.
-/

namespace PrivmxEndpoint

namespace Stream

namespace DataChannelMessageEncryptorV1

variable {C : GcmCrypto} {remoteStreamId encryptedData : Bytes}
  {s : DataChannelMessageEncryptorV1}

/-- Where `parseEncryptedMessage` cuts. -/
def splitPoint : Nat := FIXED_HEADER_LENGTH + AES_GCM_KEY_LENGTH_BYTES

/-- The length of the header with the key id that it announces. -/
def announcedLength (encryptedData : Bytes) : Nat :=
  FIXED_HEADER_LENGTH + (encryptedData.getD 17 0).toNat

/-- The message ends before its header does. -/
def HeaderCut (encryptedData : Bytes) : Prop :=
  encryptedData.length < FIXED_HEADER_LENGTH ∨
    encryptedData.length < announcedLength encryptedData

/-- `n` bytes of a buffer from `i` on, if it has them. -/
def bytesAt (buffer : Bytes) (i n : Nat) : Option Bytes :=
  if i + n ≤ buffer.length then some ((buffer.drop i).take n) else none

/-- `deserializeHeader` with every access to the buffer checked. -/
def readHeader (header : Bytes) : Option Header := do
  let version ← header[0]?
  let seq ← bytesAt header 1 SEQUENCE_NUMBER_LENGTH_BYTES
  let iv ← bytesAt header 5 GCM_NONCE_LENGTH_BYTES
  let keyIdLength ← header[17]?
  let behind ← bytesAt header 18 (header.length - 18)
  return {
    version := version
    seq := UInt32.ofNat (BigEndian.value seq)
    iv := iv
    keyId := behind.take keyIdLength.toNat }

theorem bytesAt_of_le {buffer : Bytes} (i n : Nat) (h : i + n ≤ buffer.length) :
    bytesAt buffer i n = some ((buffer.drop i).take n) :=
  if_pos h

/-- The fixed part of a header is all that `deserializeHeader` needs. -/
theorem readHeader_of_le {header : Bytes} (h : FIXED_HEADER_LENGTH ≤ header.length) :
    readHeader header = some (deserializeHeader header) := by
  have hlength : 18 ≤ header.length := h
  have hversion : header[0]? = some (header.getD 0 0) := by
    rw [List.getD_eq_getElem _ _ (by omega), List.getElem?_eq_getElem]
  have hkeyId : header[17]? = some (header.getD 17 0) := by
    rw [List.getD_eq_getElem _ _ (by omega), List.getElem?_eq_getElem]
  have hseq := bytesAt_of_le 1 SEQUENCE_NUMBER_LENGTH_BYTES (le_trans (by decide) h)
  have hiv := bytesAt_of_le 5 GCM_NONCE_LENGTH_BYTES (le_trans (by decide) h)
  have hbehind := bytesAt_of_le 18 (header.length - 18) (by omega : 18 + _ ≤ header.length)
  unfold readHeader
  rw [hversion, hseq, hiv, hkeyId, hbehind]
  have hall : (header.drop 18).take (header.length - 18) = header.drop 18 :=
    List.take_of_length_le (by rw [List.length_drop])
  simp only [Option.bind_eq_bind, Option.bind_some, hall]
  rfl

/-- The header and the ciphertext at the cut. -/
def cutMessage (encryptedData : Bytes) : ParsedEncryptedMessage where
  header := deserializeHeader (encryptedData.take splitPoint)
  serializedHeader := encryptedData.take splitPoint
  ciphertext := encryptedData.drop splitPoint

/-- **Parsing** throws exactly for the messages that are shorter than the cut. -/
theorem parseEncryptedMessage_eq (encryptedData : Bytes) :
    parseEncryptedMessage encryptedData =
      if splitPoint ≤ encryptedData.length then .ok (cutMessage encryptedData)
      else .error .other := by
  have hcut : FIXED_HEADER_LENGTH + AES_GCM_KEY_LENGTH_BYTES = splitPoint := rfl
  unfold parseEncryptedMessage stringSubstr
  rw [hcut, if_pos (Nat.zero_le _)]
  by_cases h : splitPoint ≤ encryptedData.length
  · have hrest : (encryptedData.drop splitPoint).take encryptedData.length =
        encryptedData.drop splitPoint :=
      List.take_of_length_le (by rw [List.length_drop]; omega)
    rw [if_pos h, if_pos h, hrest]
    rfl
  · rw [if_neg h, if_neg h]
    rfl

/-- The exception that leaves the part behind the header is one of the library's own. -/
theorem decryptParsed_error {message : ParsedEncryptedMessage} {e : EndpointException}
    (h : (s.decryptParsed C remoteStreamId message).1 = .error e) :
    e = .core invalidDataChannelSeq := by
  obtain ⟨hresult, _⟩ := assertSeq_spec remoteStreamId message.header.seq s
  unfold decryptParsed at h
  generalize assertSeq remoteStreamId message.header.seq s = asserted at hresult h
  obtain ⟨result, t⟩ := asserted
  dsimp only at hresult
  by_cases hold : (message.header.seq.toNat : Int) ≤ s.watermark remoteStreamId
  · rw [if_pos hold] at hresult
    subst hresult
    cases h
    rfl
  · rw [if_neg hold] at hresult
    subst hresult
    dsimp only at h
    cases hopen : t.openMessage C message with
    | error e' =>
        rw [hopen] at h
        cases h
    | ok data =>
        rw [hopen] at h
        cases h

/-- What the crypto library throws has a status of its own. -/
def StatusApart (C : GcmCrypto) : Prop :=
  ∀ data key iv aad e, C.aes256GcmDecrypt data key iv aad = .error e →
    e.statusCode ≠ invalidMessageHeaderLength

/-- A message whose header was taken for complete is not answered with the status of a
short header. -/
theorem decryptParsed_statusCode (hC : StatusApart C) {message : ParsedEncryptedMessage}
    {result : DecryptedDataChannelMessage}
    (h : (s.decryptParsed C remoteStreamId message).1 = .ok result) :
    result.statusCode ≠ invalidMessageHeaderLength := by
  unfold decryptParsed at h
  generalize assertSeq remoteStreamId message.header.seq s = asserted at h
  obtain ⟨result', t⟩ := asserted
  cases result' with
  | error e => cases h
  | ok u =>
      dsimp only at h
      cases hopen : t.openMessage C message with
      | ok data =>
          rw [hopen] at h
          cases h
          exact invalidMessageHeaderLength.2.symm
      | error e =>
          rw [hopen] at h
          cases h
          intro hstatus
          have hcode : e.statusCode = invalidMessageHeaderLength := Subtype.ext hstatus
          unfold openMessage getDencryptionKey at hopen
          cases hkey : t.keys.find? (fun key => key.keyId = message.header.keyId) with
          | none =>
              rw [hkey] at hopen
              cases hopen
              exact absurd hcode (by decide)
          | some decKey =>
              rw [hkey] at hopen
              exact hC _ _ _ _ _ hopen hcode

/-- **The answer** to any bytes: a status for a short fixed part or a wrong version, the
exception of `substr` before the cut, and behind it what the header says. -/
theorem decryptMessage_eq (C : GcmCrypto) (remoteStreamId encryptedData : Bytes)
    (s : DataChannelMessageEncryptorV1) :
    s.decryptMessage C remoteStreamId encryptedData =
      if encryptedData.length < FIXED_HEADER_LENGTH then
        (.ok { data := [], seq := 0, statusCode := invalidMessageHeaderLength }, s)
      else if encryptedData.getD 0 0 ≠ WIRE_FORMAT_VERSION then
        (.ok { data := [], seq := 0, statusCode := unsupportedMessageFormatVersion }, s)
      else if splitPoint ≤ encryptedData.length then
        s.decryptParsed C remoteStreamId (cutMessage encryptedData)
      else
        (.error .other, s) := by
  unfold decryptMessage assertData
  by_cases hfixed : encryptedData.length < FIXED_HEADER_LENGTH
  · rw [if_pos hfixed, if_pos hfixed]
    rfl
  · rw [if_neg hfixed, if_neg hfixed]
    by_cases hversion : encryptedData.getD 0 0 ≠ WIRE_FORMAT_VERSION
    · rw [if_pos hversion, if_pos hversion]
      rfl
    · rw [if_neg hversion, if_neg hversion, parseEncryptedMessage_eq]
      by_cases hcut : splitPoint ≤ encryptedData.length
      · rw [if_pos hcut, if_pos hcut]
      · rw [if_neg hcut, if_neg hcut]

/-- **A total parser**: what a call promises for the bytes that it is given. -/
structure TotalParser (C : GcmCrypto) (remoteStreamId encryptedData : Bytes)
    (s : DataChannelMessageEncryptorV1) : Prop where
  own_exceptions : ∀ e, (s.decryptMessage C remoteStreamId encryptedData).1 = .error e →
    ∃ code, e = .core code
  reads_version : FIXED_HEADER_LENGTH ≤ encryptedData.length →
    encryptedData[0]? = some (encryptedData.getD 0 0)
  reads_header : ∀ message, parseEncryptedMessage encryptedData = .ok message →
    readHeader message.serializedHeader = some message.header
  invalid_header : HeaderCut encryptedData →
    (∃ result, (s.decryptMessage C remoteStreamId encryptedData).1 = .ok result ∧
      result.statusCode = invalidMessageHeaderLength) ∧
    (s.decryptMessage C remoteStreamId encryptedData).2 = s

/-- The header is cut within its fixed part, or it is complete and the message either has
another version or reaches the cut. -/
def HeaderDecided (encryptedData : Bytes) : Prop :=
  encryptedData.length < FIXED_HEADER_LENGTH ∨
    announcedLength encryptedData ≤ encryptedData.length ∧
      (encryptedData.getD 0 0 ≠ WIRE_FORMAT_VERSION ∨ splitPoint ≤ encryptedData.length)

theorem reads_version (h : FIXED_HEADER_LENGTH ≤ encryptedData.length) :
    encryptedData[0]? = some (encryptedData.getD 0 0) := by
  have hpos : 0 < encryptedData.length := lt_of_lt_of_le (by decide) h
  rw [List.getD_eq_getElem _ _ hpos, List.getElem?_eq_getElem]

/-- Every header that is read was cut from enough bytes. -/
theorem reads_header {message : ParsedEncryptedMessage}
    (h : parseEncryptedMessage encryptedData = .ok message) :
    readHeader message.serializedHeader = some message.header := by
  rw [parseEncryptedMessage_eq] at h
  split at h
  · rename_i hcut
    cases h
    apply readHeader_of_le
    show FIXED_HEADER_LENGTH ≤ (encryptedData.take splitPoint).length
    rw [List.length_take, Nat.min_eq_left hcut]
    decide
  · cases h

/-- A message that is neither short nor of another version, and that ends before the cut,
leaves the function with an exception that is not the library's. -/
theorem not_own_exceptions (hfixed : ¬ encryptedData.length < FIXED_HEADER_LENGTH)
    (hversion : ¬ encryptedData.getD 0 0 ≠ WIRE_FORMAT_VERSION)
    (hcut : ¬ splitPoint ≤ encryptedData.length) :
    ¬ TotalParser C remoteStreamId encryptedData s := by
  intro h
  have hescape : (s.decryptMessage C remoteStreamId encryptedData).1 = .error .other := by
    rw [decryptMessage_eq, if_neg hfixed, if_neg hversion, if_neg hcut]
  obtain ⟨code, hcode⟩ := h.own_exceptions _ hescape
  cases hcode

/-- A message that is cut behind the fixed part is never answered as a short header. -/
theorem announced_of_total (hC : StatusApart C)
    (hfixed : ¬ encryptedData.length < FIXED_HEADER_LENGTH)
    (h : TotalParser C remoteStreamId encryptedData s) :
    announcedLength encryptedData ≤ encryptedData.length := by
  by_contra hshort
  obtain ⟨⟨result, hresult, hstatus⟩, _⟩ := h.invalid_header (Or.inr (not_le.mp hshort))
  rw [decryptMessage_eq, if_neg hfixed] at hresult
  by_cases hversion : encryptedData.getD 0 0 ≠ WIRE_FORMAT_VERSION
  · rw [if_pos hversion] at hresult
    cases hresult
    exact absurd hstatus (by decide)
  · rw [if_neg hversion] at hresult
    by_cases hcut : splitPoint ≤ encryptedData.length
    · rw [if_pos hcut] at hresult
      exact decryptParsed_statusCode hC hresult hstatus
    · rw [if_neg hcut] at hresult
      cases hresult

/-- **What arrives** is parsed as it should be, exactly if its header is cut early or not
at all and a message of this version reaches the cut. -/
theorem decryptMessage_total_iff (hC : StatusApart C) (remoteStreamId encryptedData : Bytes)
    (s : DataChannelMessageEncryptorV1) :
    TotalParser C remoteStreamId encryptedData s ↔ HeaderDecided encryptedData := by
  constructor
  · intro h
    by_cases hfixed : encryptedData.length < FIXED_HEADER_LENGTH
    · exact Or.inl hfixed
    · refine Or.inr ⟨announced_of_total hC hfixed h, ?_⟩
      by_contra hneither
      obtain ⟨hversion, hcut⟩ := not_or.mp hneither
      exact not_own_exceptions hfixed hversion hcut h
  · intro h
    refine
      { own_exceptions := ?_
        reads_version := reads_version
        reads_header := fun message => reads_header
        invalid_header := ?_ }
    · intro e he
      rw [decryptMessage_eq] at he
      by_cases hfixed : encryptedData.length < FIXED_HEADER_LENGTH
      · rw [if_pos hfixed] at he
        cases he
      · obtain ⟨_, hreaches⟩ := h.resolve_left hfixed
        rw [if_neg hfixed] at he
        by_cases hversion : encryptedData.getD 0 0 ≠ WIRE_FORMAT_VERSION
        · rw [if_pos hversion] at he
          cases he
        · rw [if_neg hversion, if_pos (hreaches.resolve_left hversion)] at he
          exact ⟨_, decryptParsed_error he⟩
    · intro hcut
      have hfixed : encryptedData.length < FIXED_HEADER_LENGTH := by
        rcases h with h | ⟨hannounced, _⟩
        · exact h
        · rcases hcut with hcut | hcut
          · exact hcut
          · exact absurd hannounced (not_le.mpr hcut)
      rw [decryptMessage_eq, if_pos hfixed]
      exact ⟨⟨_, rfl, rfl⟩, rfl⟩

/-- A message of 18 bytes in the format of this version, whose header announces no key id. -/
def fixedPartOnly : Bytes := 1 :: List.replicate 17 0

theorem statusApart_sampleGcm : StatusApart sampleGcm := by
  intro data key iv aad e h
  unfold sampleGcm at h
  dsimp only at h
  split at h
  · cases h
  · cases h
    decide

theorem decryptMessage_total_iff_sample :
    TotalParser sampleGcm [1] (sampleMessage sampleKey 1) (new [sampleKey]) :=
  (decryptMessage_total_iff statusApart_sampleGcm [1] _ _).mpr
    (Or.inr ⟨by decide, Or.inr (by decide)⟩)

/-- The exception of `substr` leaves `decryptMessage` for a message with a complete header. -/
theorem decryptMessage_out_of_range :
    (new [sampleKey]).decryptMessage sampleGcm [1] fixedPartOnly =
        (.error .other, new [sampleKey]) ∧
      ¬ TotalParser sampleGcm [1] fixedPartOnly (new [sampleKey]) :=
  ⟨rfl, not_own_exceptions (by decide) (by decide) (by decide)⟩

end DataChannelMessageEncryptorV1

end Stream

end PrivmxEndpoint
