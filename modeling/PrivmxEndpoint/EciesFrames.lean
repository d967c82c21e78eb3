import PrivmxEndpoint.InboxCodec

/-!
# What ECIES accepts

A frame is a letter, the keys of the sender and of the receiver, and a body: a vector, a
cipher text and a tag of four bytes over both.  The frame is read by the receiver alone,
from the sender that it names (`frame_of_decrypt`), and never from a string that is too
short for its parts.  The letter is read before the length is looked at, so that nothing is
said of the empty string.

The tag is made with the secret that both ends derive, and it does not cover the keys in
front of the body.  With a tag that cannot be forged (`Unforged`) a body was therefore
written by one of the two ends, but not always by the one that the frame names.
-/

namespace PrivmxEndpoint

namespace Inbox

/-- A point has one encoding of 33 bytes, and a public key one private key. -/
structure InboxCrypto.Canonical (C : InboxCrypto) : Prop where
  toDER_of_fromDER : ∀ der p, der.length = 33 → C.fromDER der = .ok p → C.toDER p = der
  getPublicKey_injective : Function.Injective C.getPublicKey

section Ecies

variable (C : InboxCrypto)

/-- What the tag of a body is made for. -/
def ECIES.tagged (privateKey : C.PrivateKey) (publicKey : C.PublicKey) (data : Bytes) : Bytes :=
  let iv := (C.hmacSha256 (C.getPrivateEncKey privateKey) data).take 16
  iv ++ C.aes256CbcPkcs7Encrypt data (getE (sharedKey C privateKey publicKey)) iv

/-- The tag of the body is none that somebody else made up: if it is the right one, then
one of the two ends has written it for the other. -/
def ECIES.Unforged (k l : C.PrivateKey) (sent received : Bytes → Prop) (body : Bytes) : Prop :=
  ∀ c tag, body = c ++ tag → tag.length = 4 →
    (C.hmacSha256 (getM (sharedKey C l (C.getPublicKey k))) c).take 4 = tag →
      (∃ data, sent data ∧ c = ECIES.tagged C k (C.getPublicKey l) data) ∨
        ∃ data, received data ∧ c = ECIES.tagged C l (C.getPublicKey k) data

variable {C}

theorem ECIES.encrypt_eq (k : C.PrivateKey) (p : C.PublicKey) (data : Bytes) :
    ECIES.encrypt C k p data =
      ECIES.tagged C k p data ++
        (C.hmacSha256 (getM (sharedKey C k p)) (ECIES.tagged C k p data)).take 4 := rfl

/-- A body that is decrypted has a vector and the right tag. -/
theorem ECIES.parts_of_decrypt {k : C.PrivateKey} {p : C.PublicKey} {body data : Bytes}
    (h : ECIES.decrypt C k p body = .ok data) :
    ∃ c tag, body = c ++ tag ∧ tag.length = 4 ∧ 16 ≤ c.length ∧
      (C.hmacSha256 (getM (sharedKey C k p)) c).take 4 = tag := by
  unfold ECIES.decrypt at h
  by_cases hshort : body.length < 4
  · rw [if_pos hshort] at h
    cases h
  rw [if_neg hshort] at h
  dsimp only [pure_bind] at h
  by_cases htag : body.drop (body.length - 4) =
      (C.hmacSha256 (getM (sharedKey C k p)) (body.take (body.length - 4))).take 4
  · rw [if_neg (not_not.mpr htag)] at h
    obtain ⟨cipher, hcipher, -⟩ := Throwing.bind_eq_ok h
    refine ⟨body.take (body.length - 4), body.drop (body.length - 4), ?_, ?_, ?_, htag.symm⟩
    · rw [List.take_append_drop]
    · rw [List.length_drop]
      omega
    · by_contra hvector
      rw [stringSubstr, if_neg hvector] at hcipher
      cases hcipher
  · rw [if_pos htag] at h
    cases h

/-! ### Frames -/

theorem toDER_injective (hC : C.Lawful) : Function.Injective C.toDER := by
  intro p q h
  have hp := hC.fromDER_toDER p
  rw [h, hC.fromDER_toDER] at hp
  exact (Except.ok.inj hp).symm

/-- A string of a letter and two keys at least is put together from its cuts. -/
theorem cut_frame {s : Bytes} (hfront : front C s = .ok 101) (hlength : 67 ≤ s.length) :
    s = 101 :: ((s.drop 1).take 33 ++ ((s.drop 34).take 33 ++ s.drop 67)) := by
  cases s with
  | nil => cases hlength
  | cons letter rest =>
      obtain rfl := Except.ok.inj hfront
      have hmy : (rest.drop 33).take 33 ++ rest.drop 66 = rest.drop 33 := by
        rw [show 66 = 33 + 33 from rfl, ← List.drop_drop, List.take_append_drop]
      show 101 :: rest =
        101 :: (rest.take 33 ++ ((rest.drop 33).take 33 ++ rest.drop 66))
      rw [hmy, List.take_append_drop]

/-- What is decrypted is a frame for the receiver, from the sender that is expected. -/
theorem EciesEncryptor.frame_of_decrypt (hcanonical : C.Canonical) {l : C.PrivateKey}
    {presented data : Bytes} {pubOfSignature : Option C.PublicKey}
    (h : EciesEncryptor.decrypt C l presented pubOfSignature = .ok data) :
    ∃ external body,
      presented = EciesEncryptor.frame C external (C.getPublicKey l) body ∧
        (∀ p, pubOfSignature = some p → C.toDER external = C.toDER p) ∧
          ECIES.decrypt C l external body = .ok data := by
  unfold EciesEncryptor.decrypt at h
  obtain ⟨letter, hfront, h⟩ := Throwing.bind_eq_ok h
  by_cases hchecked : letter ≠ 101 ∨ presented.length < 67
  · rw [if_pos hchecked] at h
    cases h
  rw [if_neg hchecked] at h
  obtain ⟨hletter, hlength⟩ := not_or.mp hchecked
  rw [not_not.mp hletter] at hfront
  obtain ⟨external, hexternal, h⟩ := Throwing.bind_eq_ok h
  by_cases hany : pubOfSignature.any fun p => C.toDER external ≠ C.toDER p
  · rw [if_pos hany] at h
    cases h
  rw [if_neg hany] at h
  obtain ⟨my, hmy, h⟩ := Throwing.bind_eq_ok h
  by_cases hmine : C.toDER my ≠ C.toDER (C.getPublicKey l)
  · rw [if_pos hmine] at h
    cases h
  rw [if_neg hmine] at h
  refine ⟨external, presented.drop 67, ?_, ?_, h⟩
  · have hder := hcanonical.toDER_of_fromDER _ _
      (by rw [List.length_take, List.length_drop]; omega) hexternal
    have hderMy := hcanonical.toDER_of_fromDER _ _
      (by rw [List.length_take, List.length_drop]; omega) hmy
    rw [EciesEncryptor.frame, ← not_not.mp hmine, hder, hderMy]
    exact cut_frame hfront (by omega)
  · intro p hp
    rw [hp] at hany
    simpa using hany

/-- A frame without room for a vector and a tag is refused. -/
theorem EciesEncryptor.decrypt_short (hC : C.Lawful) (hcanonical : C.Canonical)
    (l : C.PrivateKey) {presented : Bytes} (pubOfSignature : Option C.PublicKey)
    (hshort : presented.length < 67 + 16 + 4) :
    ∃ e, EciesEncryptor.decrypt C l presented pubOfSignature = .error e := by
  cases h : EciesEncryptor.decrypt C l presented pubOfSignature with
  | error e => exact ⟨e, rfl⟩
  | ok data =>
      obtain ⟨external, body, hpresented, -, hbody⟩ := frame_of_decrypt hcanonical h
      obtain ⟨c, tag, hparts, htag, hvector, -⟩ := ECIES.parts_of_decrypt hbody
      rw [hpresented, frame, List.length_cons, List.length_append, List.length_append,
        hC.length_toDER, hC.length_toDER, hparts, List.length_append] at hshort
      omega

theorem EciesEncryptor.drop_frame (hC : C.Lawful) (external my : C.PublicKey) (body : Bytes) :
    (EciesEncryptor.frame C external my body).drop 67 = body ∧
      ((EciesEncryptor.frame C external my body).drop 1).take 33 = C.toDER external := by
  constructor
  · rw [← List.drop_drop (i := 33) (j := 34)]
    show ((C.toDER external ++ (C.toDER my ++ body)).drop 33).drop 33 = body
    rw [List.drop_left' (hC.length_toDER external), List.drop_left' (hC.length_toDER my)]
  · exact List.take_left' (hC.length_toDER external)

/-- Without forged tags what is decrypted was written by one of the two ends for the other,
and it is what was written. -/
theorem EciesEncryptor.written_of_decrypt (hC : C.Lawful) (hcanonical : C.Canonical)
    {k l : C.PrivateKey} {presented data : Bytes} {pubOfSignature : Option C.PublicKey}
    {sent received : Bytes → Prop}
    (hsender : pubOfSignature = some (C.getPublicKey k) ∨
      (presented.drop 1).take 33 = C.toDER (C.getPublicKey k))
    (hunforged : ECIES.Unforged C k l sent received (presented.drop 67))
    (h : EciesEncryptor.decrypt C l presented pubOfSignature = .ok data) :
    (sent data ∧ presented = EciesEncryptor.encrypt C (C.getPublicKey l) data k) ∨
      received data ∧ presented = EciesEncryptor.frame C (C.getPublicKey k) (C.getPublicKey l)
        (ECIES.encrypt C l (C.getPublicKey k) data) := by
  obtain ⟨external, body, hpresented, hexpected, hbody⟩ := frame_of_decrypt hcanonical h
  obtain ⟨hcut, hname⟩ := drop_frame hC external (C.getPublicKey l) body
  have hexternal : external = C.getPublicKey k := by
    apply toDER_injective hC
    rcases hsender with hsome | hnamed
    · exact hexpected _ hsome
    · rw [← hname, ← hpresented, hnamed]
  rw [hpresented, hcut] at hunforged
  rw [hexternal] at hbody hpresented
  obtain ⟨c, tag, hparts, hlength, -, htag⟩ := ECIES.parts_of_decrypt hbody
  rcases hunforged c tag hparts hlength htag with ⟨data', hsent, hc⟩ | ⟨data', hreceived, hc⟩
  · have hwritten : body = ECIES.encrypt C k (C.getPublicKey l) data' := by
      rw [ECIES.encrypt_eq, ← hc, hparts, ← htag, sharedKey_comm hC k l]
    have hback := ECIES.decrypt_encrypt_of_shared hC (sharedKey_comm hC k l) data'
    rw [← hwritten, hbody] at hback
    obtain rfl := Except.ok.inj hback
    refine Or.inl ⟨hsent, ?_⟩
    rw [hpresented, hwritten]
    rfl
  · have hwritten : body = ECIES.encrypt C l (C.getPublicKey k) data' := by
      rw [ECIES.encrypt_eq, ← hc, hparts, ← htag]
    have hback := ECIES.decrypt_encrypt_of_shared hC (rfl : sharedKey C l (C.getPublicKey k) = _)
      data'
    rw [← hwritten, hbody] at hback
    obtain rfl := Except.ok.inj hback
    refine Or.inr ⟨hreceived, ?_⟩
    rw [hpresented, hwritten]

/-- **What the frames are for**: they are read back, by nobody else and from nobody else, and
no other string with a letter in it is read than one that an end has written for the
other. -/
theorem EciesEncryptor.framed (hC : C.Lawful) (hcanonical : C.Canonical) (k l : C.PrivateKey) :
    (∀ data pubOfSignature, (∀ p, pubOfSignature = some p → p = C.getPublicKey k) →
      EciesEncryptor.decrypt C l (EciesEncryptor.encrypt C (C.getPublicKey l) data k)
        pubOfSignature = .ok data) ∧
    (∀ data p, p ≠ C.getPublicKey k →
      EciesEncryptor.decrypt C l (EciesEncryptor.encrypt C (C.getPublicKey l) data k) (some p) =
        .error givenPublicKeyDoesNotMatchWithSignature) ∧
    (∀ data m pubOfSignature, m ≠ l → ∃ e,
      EciesEncryptor.decrypt C m (EciesEncryptor.encrypt C (C.getPublicKey l) data k)
        pubOfSignature = .error e) ∧
    (∀ presented pubOfSignature, presented ≠ [] → presented.length < 67 + 16 + 4 → ∃ e,
      EciesEncryptor.decrypt C l presented pubOfSignature = .error e) ∧
    ∀ presented pubOfSignature sent received, presented ≠ [] →
      (pubOfSignature = some (C.getPublicKey k) ∨
        (presented.drop 1).take 33 = C.toDER (C.getPublicKey k)) →
      ECIES.Unforged C k l sent received (presented.drop 67) →
        (∃ e, EciesEncryptor.decrypt C l presented pubOfSignature = .error e) ∨
          ∃ data, EciesEncryptor.decrypt C l presented pubOfSignature = .ok data ∧
            ((sent data ∧ presented = EciesEncryptor.encrypt C (C.getPublicKey l) data k) ∨
              received data ∧ presented = EciesEncryptor.frame C (C.getPublicKey k)
                (C.getPublicKey l) (ECIES.encrypt C l (C.getPublicKey k) data)) := by
  refine ⟨?_, ?_, ?_, ?_, ?_⟩
  · intro data pubOfSignature hexpected
    exact decrypt_encrypt hC k l data hexpected
  · intro data p hother
    have hany : (some p).any fun p => C.toDER (C.getPublicKey k) ≠ C.toDER p := by
      have hder : C.toDER (C.getPublicKey k) ≠ C.toDER p :=
        fun hsame => hother (toDER_injective hC hsame).symm
      simpa using hder
    refine (decrypt_frame hC _ _ _ l (some p)).trans ?_
    rw [if_pos hany]
  · intro data m pubOfSignature hother
    have hmine : C.toDER (C.getPublicKey l) ≠ C.toDER (C.getPublicKey m) :=
      fun hsame => hother (hcanonical.getPublicKey_injective (toDER_injective hC hsame)).symm
    have hframe := decrypt_frame hC (C.getPublicKey k) (C.getPublicKey l)
      (ECIES.encrypt C k (C.getPublicKey l) data) m pubOfSignature
    by_cases hany : pubOfSignature.any fun p => C.toDER (C.getPublicKey k) ≠ C.toDER p
    · rw [if_pos hany] at hframe
      exact ⟨_, hframe⟩
    · rw [if_neg hany, if_pos hmine] at hframe
      exact ⟨_, hframe⟩
  · intro presented pubOfSignature _ hshort
    exact decrypt_short hC hcanonical l pubOfSignature hshort
  · intro presented pubOfSignature sent received _ hsender hunforged
    cases h : EciesEncryptor.decrypt C l presented pubOfSignature with
    | error e => exact Or.inl ⟨e, rfl⟩
    | ok data =>
        exact Or.inr ⟨data, rfl, written_of_decrypt hC hcanonical hsender hunforged h⟩

/-- A tag that an end has written is none that is forged. -/
theorem ECIES.unforged_frame (hC : C.Lawful) (k l : C.PrivateKey) (external my : C.PublicKey)
    {data : Bytes} {sent received : Bytes → Prop} (hreceived : received data) :
    ECIES.Unforged C k l sent received ((EciesEncryptor.frame C external my
      (ECIES.encrypt C l (C.getPublicKey k) data)).drop 67) := by
  rw [(EciesEncryptor.drop_frame hC external my _).1]
  intro c tag hparts hlength _
  have htag : ((C.hmacSha256 (getM (sharedKey C l (C.getPublicKey k)))
      (ECIES.tagged C l (C.getPublicKey k) data)).take 4).length = 4 := by
    rw [List.length_take, hC.length_hmacSha256]
    rfl
  rw [ECIES.encrypt_eq] at hparts
  exact Or.inr ⟨data, hreceived, (List.append_inj_left' hparts (htag.trans hlength.symm)).symm⟩

end Ecies

/-! ### Keys that are bytes -/

theorem sampleCode_ne_zero : 0xE0A10001 ≠ 0 := by decide

/-- A byte in front of 32 zeros. -/
def sampleStrictFromDER (der : Bytes) : Except EndpointException UInt8 :=
  if der.tail = List.replicate 32 0 then .ok (der.headD 0)
  else .error (.privmx ⟨0xE0A10001, sampleCode_ne_zero⟩)

def sampleFrameCrypto : InboxCrypto := { sampleInboxCrypto with fromDER := sampleStrictFromDER }

theorem sampleFrameCrypto_lawful : sampleFrameCrypto.Lawful where
  length_toDER := sampleInboxCrypto_lawful.length_toDER
  fromDER_toDER p := show sampleStrictFromDER (p :: List.replicate 32 0) = .ok p from if_pos rfl
  derive_comm := sampleInboxCrypto_lawful.derive_comm
  length_sha512 := sampleInboxCrypto_lawful.length_sha512
  length_hmacSha256 := sampleInboxCrypto_lawful.length_hmacSha256
  aes_decrypt_encrypt := sampleInboxCrypto_lawful.aes_decrypt_encrypt
  base64ToString_base64From := sampleInboxCrypto_lawful.base64ToString_base64From

theorem sampleFrameCrypto_canonical : sampleFrameCrypto.Canonical where
  toDER_of_fromDER der p hlength h := by
    change sampleStrictFromDER der = .ok p at h
    unfold sampleStrictFromDER at h
    by_cases hzeros : der.tail = List.replicate 32 0
    · rw [if_pos hzeros] at h
      cases der with
      | nil => cases hlength
      | cons b rest =>
          obtain rfl : b = p := Except.ok.inj h
          show b :: List.replicate 32 0 = b :: rest
          rw [← hzeros]
          rfl
    · rw [if_neg hzeros] at h
      cases h
  getPublicKey_injective _ _ h := h

/-- Keys `5` and `9`: a frame is read back, refused for the key `8` and for the sender `6`;
a letter alone and a frame with a tag of ones are refused. -/
theorem EciesEncryptor.framed_sample :
    EciesEncryptor.decrypt sampleFrameCrypto (9 : UInt8)
        (EciesEncryptor.encrypt sampleFrameCrypto (9 : UInt8) [1, 2, 3] (5 : UInt8))
        (some (5 : UInt8)) = .ok [1, 2, 3] ∧
      EciesEncryptor.decrypt sampleFrameCrypto (9 : UInt8)
        (EciesEncryptor.encrypt sampleFrameCrypto (9 : UInt8) [1, 2, 3] (5 : UInt8))
        (some (6 : UInt8)) = .error givenPublicKeyDoesNotMatchWithSignature ∧
      (∃ e, EciesEncryptor.decrypt sampleFrameCrypto (8 : UInt8)
        (EciesEncryptor.encrypt sampleFrameCrypto (9 : UInt8) [1, 2, 3] (5 : UInt8)) none =
          .error e) ∧
      (∃ e, EciesEncryptor.decrypt sampleFrameCrypto (9 : UInt8) [101] none = .error e) ∧
      ∃ e, EciesEncryptor.decrypt sampleFrameCrypto (9 : UInt8)
        (EciesEncryptor.frame sampleFrameCrypto (5 : UInt8) (9 : UInt8) (List.replicate 24 1))
        none = .error e := by
  obtain ⟨hback, hsender, hreceiver, hshort, hwritten⟩ := EciesEncryptor.framed
    sampleFrameCrypto_lawful sampleFrameCrypto_canonical (5 : UInt8) (9 : UInt8)
  refine ⟨?_, ?_, ?_, ?_, ?_⟩
  · exact hback [1, 2, 3] (some (5 : UInt8)) fun p hp => (Option.some.inj hp).symm
  · exact hsender [1, 2, 3] (6 : UInt8) (show (6 : UInt8) ≠ 5 by decide)
  · exact hreceiver [1, 2, 3] (8 : UInt8) none (show (8 : UInt8) ≠ 9 by decide)
  · exact hshort [101] none (by decide) (by decide)
  · have hforged : ECIES.Unforged sampleFrameCrypto (5 : UInt8) (9 : UInt8) (fun _ => False)
        (fun _ => False) (List.replicate 24 1) := by
      intro c tag hparts hlength htag
      obtain ⟨hsum, hc, hones⟩ := List.append_eq_replicate_iff.mp hparts.symm
      have hrest : c.length = 20 := by omega
      rw [hc, hrest, hones, hlength] at htag
      exact absurd htag (by decide)
    have hframe := EciesEncryptor.drop_frame sampleFrameCrypto_lawful (5 : UInt8) (9 : UInt8)
      (List.replicate 24 1)
    have hne : EciesEncryptor.frame sampleFrameCrypto (5 : UInt8) (9 : UInt8)
        (List.replicate 24 1) ≠ [] := List.cons_ne_nil _ _
    rcases hwritten _ none (fun _ => False) (fun _ => False) hne (Or.inr hframe.2)
      (by rw [hframe.1]; exact hforged) with hrefused | ⟨data, -, ⟨hsent, -⟩ | ⟨hsent, -⟩⟩
    · exact hrefused
    · exact hsent.elim
    · exact hsent.elim

/-- What the receiver wrote to the sender is read behind exchanged keys, as if the sender had
written it; neither of the two has written that string. -/
theorem EciesEncryptor.exchanged_accepted :
    sampleFrameCrypto.Lawful ∧ sampleFrameCrypto.Canonical ∧
      ∃ presented,
        ECIES.Unforged sampleFrameCrypto (5 : UInt8) (9 : UInt8) (fun _ => True) (fun _ => True)
          (presented.drop 67) ∧
        EciesEncryptor.decrypt sampleFrameCrypto (9 : UInt8) presented (some (5 : UInt8)) =
          .ok [1, 2, 3] ∧
        ∀ data,
          presented ≠ EciesEncryptor.encrypt sampleFrameCrypto (9 : UInt8) data (5 : UInt8) ∧
            presented ≠ EciesEncryptor.encrypt sampleFrameCrypto (5 : UInt8) data (9 : UInt8) := by
  refine ⟨sampleFrameCrypto_lawful, sampleFrameCrypto_canonical,
    EciesEncryptor.frame sampleFrameCrypto (5 : UInt8) (9 : UInt8)
      (ECIES.encrypt sampleFrameCrypto (9 : UInt8) (5 : UInt8) [1, 2, 3]), ?_, ?_, ?_⟩
  · exact ECIES.unforged_frame sampleFrameCrypto_lawful (5 : UInt8) (9 : UInt8) (5 : UInt8)
      (9 : UInt8) trivial
  · refine (EciesEncryptor.decrypt_frame sampleFrameCrypto_lawful _ _ _ (9 : UInt8) _).trans ?_
    rw [if_neg (by decide), if_neg (by decide)]
    exact ECIES.decrypt_encrypt_of_shared sampleFrameCrypto_lawful rfl [1, 2, 3]
  · intro data
    constructor
    · -- the vectors are made with the keys of different ends
      intro h
      cases congrArg (fun s => (s.drop 67).head?) h
    · intro h
      cases congrArg (fun s => (s.drop 1).head?) h

end Inbox

end PrivmxEndpoint
