import PrivmxEndpoint.Base58
import PrivmxEndpoint.KeyDerivation

/-!
# Serialized extended keys

An extended key is written as 78 bytes in Base58 with a checksum: four bytes for the
version, nine for the place in the tree (depth, fingerprint of the parent and index),
the chain code, and 33 bytes for the key.

`toBase58` writes all of them; `fromBase58` builds the key with the constructor that
knows no place, so that only a root comes back.
-/

namespace PrivmxEndpoint

open Splice

variable {E : Curve} (C : Primitives)

namespace ExtKey

/-- `Networks::BITCOIN.BIP39.PUBLIC`. -/
def PUBLIC : UInt32 := 0x0488B21E

/-- `Networks::BITCOIN.BIP39.PRIVATE`. -/
def PRIVATE : UInt32 := 0x0488ADE4

/-- `read_u32_be`. -/
def readU32Be (rawKey : Bytes) (offset : Nat) : UInt32 :=
  UInt32.ofNat (BigEndian.value (slice rawKey offset 4))

/-- `fromSeed`. -/
def fromSeed (H : KeyHashes) (seed : Bytes) : Except CryptoError (ExtKey E) :=
  let rawKey := H.hmacSha512 "Bitcoin seed".toUTF8.toList seed
  new₃ (slice rawKey 0 32) (slice rawKey 32 32) true

/-- `generateRandom`, of 64 random bytes. -/
def generateRandom (rawBuf : Bytes) : Except CryptoError (ExtKey E) :=
  new₃ (slice rawBuf 0 32) (slice rawBuf 32 32) true

/-- `fromBase58`. -/
def fromBase58 (base58 : Bytes) : Except CryptoError (ExtKey E) := do
  let rawKey ← Base58.decodeWithChecksum C base58
  if rawKey.length ≠ 78 then
    throw .invalidExtendedKeySize
  let version := readU32Be rawKey 0
  if version ≠ PRIVATE ∧ version ≠ PUBLIC then
    throw .invalidVersion
  let depth := rawKey.getD 4 0
  let parentFingerprint := readU32Be rawKey 5
  if depth = 0 ∧ parentFingerprint ≠ 0 then
    throw .invalidParentFingerprint
  let chainCode ← Crypto.substr rawKey 13 32
  if version = PRIVATE then
    new₃ (← Crypto.substr rawKey 46 32) chainCode true
  else
    new₃ (← Crypto.substr rawKey 45 33) chainCode false

/-- `toBase58`. -/
def toBase58 (k : ExtKey E) (isPrivate : Bool) : Except CryptoError Bytes := do
  if isPrivate && !k.isPrivate then
    throw .extKeyDoesNotHoldPrivateKey
  let version := if isPrivate then PRIVATE else PUBLIC
  let header := BigEndian.bytes 4 version.toNat ++ ([k.depth] ++
    BigEndian.bytes 4 k.parentFingerprint.toNat ++ BigEndian.bytes 4 k.index.toNat)
  let key ←
    if isPrivate then do
      let key ← k.ec.getPrivateKey
      pure ([0] ++ if key.length < 32 then List.replicate (32 - key.length) 0 ++ key else key)
    else
      pure k.ec.getPublicKey
  let result := header ++ k.chainCode ++ key
  if result.length ≠ 78 then
    throw .invalidResultSize
  Base58.encodeWithChecksum C result

/-- The public part of a key. -/
def publicPart (k : ExtKey E) : ExtKey E where
  ec := ECC.ofPoint k.ec.point
  chainCode := k.chainCode
  isPrivate := false
  depth := k.depth
  parentFingerprint := k.parentFingerprint
  index := k.index
  holdsKey := rfl

/-- The keys that the class hands out. -/
inductive Reachable (H : KeyHashes) : ExtKey E → Prop
  | fromSeed {seed k} (h : fromSeed H seed = .ok k) : Reachable H k
  | generateRandom {rawBuf k} (hlength : rawBuf.length = 64) (h : generateRandom rawBuf = .ok k) :
      Reachable H k
  | fromBase58 {base58 k} (h : fromBase58 C base58 = .ok k) : Reachable H k
  | derive {k k' i old} (parent : Reachable H k) (h : k.derive H i old = .ok k') : Reachable H k'

/-! ### What the constructors set -/

/-- What a key is made of is what was handed in. -/
theorem fields_of_new {key chainCode : Bytes} {privateKey : Bool} {depth : UInt8}
    {parentFingerprint index : UInt32} {k : ExtKey E}
    (h : new key chainCode privateKey depth parentFingerprint index = .ok k) :
    k.chainCode = chainCode ∧ k.isPrivate = privateKey ∧ k.depth = depth ∧
      k.parentFingerprint = parentFingerprint ∧ k.index = index := by
  unfold new at h
  cases privateKey with
  | true =>
      rw [if_pos rfl] at h
      split at h
      · obtain rfl := Except.ok.inj h
        exact ⟨rfl, rfl, rfl, rfl, rfl⟩
      · cases h
  | false =>
      rw [if_neg (by decide)] at h
      split at h
      · obtain rfl := Except.ok.inj h
        exact ⟨rfl, rfl, rfl, rfl, rfl⟩
      · cases h

/-- Derivation is for private keys, and a right half is a chain code. -/
theorem length_chainCode_of_derive (hE : E.Lawful) {H : KeyHashes} {k k' : ExtKey E} (rounds : Nat)
    {i : UInt32} {old : Bool} (h : k.deriveRounds H rounds i old = .ok k') :
    k'.chainCode.length = 32 := by
  have hprivate : k.isPrivate = true := by
    cases rounds with
    | zero => cases h
    | succ rounds =>
        unfold deriveRounds at h
        by_cases hk : k.isPrivate = true
        · exact hk
        · rw [Bool.not_eq_true] at hk
          rw [hk] at h
          cases h
  induction rounds generalizing i old with
  | zero => cases h
  | succ rounds ih =>
      rw [deriveRounds_eq hE hprivate] at h
      cases haccepted : accepted H k old i with
      | none =>
          rw [haccepted] at h
          exact ih h
      | some child =>
          rw [haccepted] at h
          have hchild : child.2 = Bip32.right H k old i := by
            unfold accepted at haccepted
            split at haccepted
            · cases haccepted
            · split at haccepted
              · cases haccepted
              · exact (congrArg Prod.snd (Option.some.inj haccepted)).symm
          rw [(fields_of_new h).1, hchild, Bip32.right, List.length_drop, H.length_hmacSha512]

/-! ### Reading -/

variable {C}

/-- The tests of `fromBase58`, and the constructor behind them. -/
theorem fromBase58_eq_ok {base58 : Bytes} {k : ExtKey E} :
    fromBase58 C base58 = .ok k ↔
      ∃ rawKey, Base58.decodeWithChecksum C base58 = .ok rawKey ∧ rawKey.length = 78 ∧
        (readU32Be rawKey 0 = PRIVATE ∨ readU32Be rawKey 0 = PUBLIC) ∧
        (rawKey.getD 4 0 = 0 → readU32Be rawKey 5 = 0) ∧
        new₃ (if readU32Be rawKey 0 = PRIVATE then slice rawKey 46 32 else slice rawKey 45 33)
          (slice rawKey 13 32) (decide (readU32Be rawKey 0 = PRIVATE)) = .ok k := by
  have hsubstr : ∀ {rawKey : Bytes} {pos : Nat} (n : Nat), rawKey.length = 78 → pos ≤ 78 →
      Crypto.substr rawKey pos n = .ok (slice rawKey pos n) := fun n hlength hpos =>
    if_pos (hlength ▸ hpos)
  unfold fromBase58
  constructor
  · intro h
    obtain ⟨rawKey, hdecode, h⟩ := Throwing.bind_eq_ok h
    refine ⟨rawKey, hdecode, ?_⟩
    by_cases hlength : rawKey.length = 78
    · rw [if_neg (not_not.mpr hlength)] at h
      by_cases hversion : readU32Be rawKey 0 ≠ PRIVATE ∧ readU32Be rawKey 0 ≠ PUBLIC
      · dsimp only at h
        rw [if_pos hversion] at h
        cases h
      · dsimp only at h
        rw [if_neg hversion] at h
        by_cases hplace : rawKey.getD 4 0 = 0 ∧ readU32Be rawKey 5 ≠ 0
        · rw [if_pos hplace] at h
          cases h
        · rw [if_neg hplace, hsubstr _ hlength (by decide), hsubstr _ hlength (by decide),
            hsubstr _ hlength (by decide)] at h
          change (if readU32Be rawKey 0 = PRIVATE then
            new₃ (slice rawKey 46 32) (slice rawKey 13 32) true
            else new₃ (slice rawKey 45 33) (slice rawKey 13 32) false) = .ok k at h
          refine ⟨hlength, by tauto, by tauto, ?_⟩
          by_cases hprivate : readU32Be rawKey 0 = PRIVATE
          · simp only [hprivate, if_true, decide_true]
            rwa [if_pos hprivate] at h
          · simp only [hprivate, if_false, decide_false]
            rwa [if_neg hprivate] at h
    · rw [if_pos hlength] at h
      cases h
  · intro h
    obtain ⟨rawKey, hdecode, hlength, hversion, hplace, hnew⟩ := h
    have hknown : ¬ (readU32Be rawKey 0 ≠ PRIVATE ∧ readU32Be rawKey 0 ≠ PUBLIC) := by tauto
    have hroot : ¬ (rawKey.getD 4 0 = 0 ∧ readU32Be rawKey 5 ≠ 0) := by tauto
    rw [hdecode]
    simp only [bind, Except.bind]
    rw [if_neg (not_not.mpr hlength), if_neg hknown, if_neg hroot, hsubstr _ hlength (by decide),
      hsubstr _ hlength (by decide), hsubstr _ hlength (by decide)]
    show (if readU32Be rawKey 0 = PRIVATE then
      new₃ (slice rawKey 46 32) (slice rawKey 13 32) true
      else new₃ (slice rawKey 45 33) (slice rawKey 13 32) false) = .ok k
    by_cases hprivate : readU32Be rawKey 0 = PRIVATE
    · simp only [hprivate, if_true, decide_true] at hnew
      rw [if_pos hprivate]
      exact hnew
    · simp only [hprivate, if_false, decide_false] at hnew
      rw [if_neg hprivate]
      exact hnew

/-! ### Writing -/

/-- The place of a key in the tree. -/
def place (k : ExtKey E) : Bytes :=
  [k.depth] ++ BigEndian.bytes 4 k.parentFingerprint.toNat ++ BigEndian.bytes 4 k.index.toNat

/-- The last 33 bytes. -/
def keyData (k : ExtKey E) (isPrivate : Bool) : Bytes :=
  if isPrivate then 0 :: BigEndian.bytes 32 (Bip32.secret k) else k.ec.getPublicKey

/-- The bytes that are encoded. -/
def payload (k : ExtKey E) (isPrivate : Bool) : Bytes :=
  BigEndian.bytes 4 (if isPrivate then PRIVATE else PUBLIC).toNat ++
    (place k ++ (k.chainCode ++ keyData k isPrivate))

/-- The place of a key in the tree takes nine bytes. -/
theorem length_place (k : ExtKey E) : (place k).length = 9 := by
  simp [place]

/-- The key itself takes 33 bytes, private or public. -/
theorem length_keyData (hE : E.Lawful) (k : ExtKey E) (isPrivate : Bool) :
    (keyData k isPrivate).length = 33 := by
  unfold keyData
  cases isPrivate with
  | true => simp
  | false => exact hE.length_encode _

/-- A key is written in 78 bytes. -/
theorem length_payload (hE : E.Lawful) {k : ExtKey E} (hchain : k.chainCode.length = 32)
    (isPrivate : Bool) : (payload k isPrivate).length = 78 := by
  simp only [payload, List.length_append, BigEndian.length_bytes, length_place, hchain,
    length_keyData hE]

/-- The private number is filled up to 32 bytes. -/
theorem filled_eq (hE : E.Lawful) {k : ExtKey E} {x : Nat} (hx : k.ec.key = some x) :
    (if (mpzExport x).length < 32 then
      List.replicate (32 - (mpzExport x).length) 0 ++ mpzExport x else mpzExport x) =
      BigEndian.bytes 32 (Bip32.secret k) := by
  have hlt : x < 256 ^ 32 := lt_trans (k.ec.valid x hx).1.2 hE.order_lt
  rw [secret_eq hx, ← fillTo32_mpzExport hlt, fillTo32]
  by_cases hshort : (mpzExport x).length < 32
  · rw [if_pos hshort, if_neg (by omega)]
  · rw [if_neg hshort, if_pos (by omega)]

/-- What is written has the length that is tested. -/
theorem toBase58_eq (hE : E.Lawful) {k : ExtKey E} (hchain : k.chainCode.length = 32)
    {isPrivate : Bool} (hk : isPrivate = true → k.isPrivate = true) :
    toBase58 C k isPrivate = Base58.encodeWithChecksum C (payload k isPrivate) := by
  have hlength := length_payload hE hchain isPrivate
  have hresult : ∀ version : UInt32, BigEndian.bytes 4 version.toNat ++ ([k.depth] ++
      BigEndian.bytes 4 k.parentFingerprint.toNat ++ BigEndian.bytes 4 k.index.toNat) ++
      k.chainCode ++ keyData k isPrivate =
      BigEndian.bytes 4 version.toNat ++ (place k ++ (k.chainCode ++ keyData k isPrivate)) := by
    intro version
    simp only [place, List.append_assoc]
  cases isPrivate with
  | true =>
      obtain ⟨x, hx⟩ := exists_key (hk rfl)
      have hget : k.ec.getPrivateKey = .ok (mpzExport x) := by
        unfold ECC.getPrivateKey
        rw [hx]
      have hdata : [0] ++ BigEndian.bytes 32 (Bip32.secret k) = keyData k true := by
        rw [keyData, if_pos rfl, List.singleton_append]
      unfold toBase58
      simp only [hk rfl, hget, bind, Except.bind, pure, Except.pure, filled_eq hE hx, hdata,
        hresult, if_true, Bool.not_true, Bool.and_false]
      rw [if_neg (by decide)]
      exact if_neg (not_not.mpr hlength)
  | false =>
      have hdata : k.ec.getPublicKey = keyData k false := by
        rw [keyData, if_neg Bool.false_ne_true]
      unfold toBase58
      simp only [bind, Except.bind, pure, Except.pure, hdata, hresult, Bool.false_and]
      rw [if_neg (by decide)]
      exact if_neg (not_not.mpr hlength)

/-- A serialized key is no string of zeros, so that Base58 does not change it. -/
theorem exists_toBase58 (hE : E.Lawful) {k : ExtKey E} (hchain : k.chainCode.length = 32)
    (isPrivate : Bool) (hk : isPrivate = true → k.isPrivate = true) :
    ∃ s, toBase58 C k isPrivate = .ok s ∧
      Base58.decodeWithChecksum C s = .ok (payload k isPrivate) := by
  obtain ⟨rest, hrest⟩ : ∃ rest, payload k isPrivate = 4 :: rest := by
    unfold payload
    cases isPrivate with
    | true => exact ⟨_, rfl⟩
    | false => exact ⟨_, rfl⟩
  rw [toBase58_eq hE hchain hk]
  refine (Base58.checksumBack_iff _).mpr ((Base58.decode_encode _).mpr ?_)
  rw [hrest]
  refine ⟨⟨4, by simp, by decide⟩, ?_⟩
  show 0 < 2 ^ 31
  decide

/-! ### Round trips -/

/-- The middle of three parts is cut out again. -/
theorem slice_middle {a b c : Bytes} {n m : Nat} (ha : a.length = n) (hb : b.length = m) :
    slice (a ++ (b ++ c)) n m = b := by
  rw [slice, List.drop_left' ha, List.take_left' hb]

/-- A serialized key without a place. -/
def rootKey (version chainCode keyData : Bytes) : Bytes :=
  version ++ (List.replicate 9 0 ++ (chainCode ++ keyData))

/-- The parts of a serialized root. -/
theorem slices_rootKey {version chainCode keyData : Bytes} (hversion : version.length = 4)
    (hchain : chainCode.length = 32) (hdata : keyData.length = 33) :
    (rootKey version chainCode keyData).length = 78 ∧
      slice (rootKey version chainCode keyData) 0 4 = version ∧
      slice (rootKey version chainCode keyData) 5 4 = List.replicate 4 0 ∧
      slice (rootKey version chainCode keyData) 13 32 = chainCode ∧
      slice (rootKey version chainCode keyData) 45 33 = keyData ∧
      slice (rootKey version chainCode keyData) 46 32 = keyData.drop 1 := by
  unfold rootKey
  refine ⟨?_, ?_, ?_, ?_, ?_, ?_⟩
  · simp only [List.length_append, List.length_replicate, hversion, hchain, hdata]
  · exact slice_middle (a := []) rfl hversion
  · have hzeros : List.replicate 9 (0 : UInt8) = [0] ++ (List.replicate 4 0 ++
        List.replicate 4 0) := rfl
    have hsplit : version ++ (List.replicate 9 0 ++ (chainCode ++ keyData)) =
        (version ++ [0]) ++ (List.replicate 4 0 ++ (List.replicate 4 0 ++
          (chainCode ++ keyData))) := by
      rw [hzeros]
      simp only [List.append_assoc]
    rw [hsplit]
    exact slice_middle (by rw [List.length_append, hversion]; rfl) rfl
  · rw [← List.append_assoc]
    exact slice_middle (by rw [List.length_append, hversion]; rfl) hchain
  · have hend : keyData = keyData ++ [] := (List.append_nil _).symm
    rw [hend, ← List.append_assoc, ← List.append_assoc]
    rw [slice_middle (by simp [hversion, hchain]) hdata, List.append_nil]
  · have hsplit : keyData = keyData.take 1 ++ (keyData.drop 1 ++ []) := by
      rw [List.append_nil, List.take_append_drop]
    conv_lhs => rw [hsplit]
    rw [← List.append_assoc, ← List.append_assoc, ← List.append_assoc]
    refine slice_middle ?_ ?_
    · simp [hversion, hchain, hdata]
    · rw [List.length_drop, hdata]

/-- What a serialized root is read as. -/
theorem fromBase58_root {base58 version chainCode keyData : Bytes} {k : ExtKey E}
    (hdecode : Base58.decodeWithChecksum C base58 = .ok (rootKey version chainCode keyData))
    (hversion : version.length = 4) (hchain : chainCode.length = 32)
    (hdata : keyData.length = 33) (isPrivate : Bool)
    (hvalue : UInt32.ofNat (BigEndian.value version) = if isPrivate then PRIVATE else PUBLIC)
    (hnew : new₃ (if isPrivate then keyData.drop 1 else keyData) chainCode isPrivate = .ok k) :
    fromBase58 C base58 = .ok k := by
  obtain ⟨hlength, hfour, hplace, hchainCode, hpublic, hprivate⟩ :=
    slices_rootKey hversion hchain hdata
  refine fromBase58_eq_ok.mpr ⟨_, hdecode, hlength, ?_⟩
  have hread : readU32Be (rootKey version chainCode keyData) 0 =
      if isPrivate then PRIVATE else PUBLIC := by
    rw [readU32Be, hfour, hvalue]
  have hparent : readU32Be (rootKey version chainCode keyData) 5 = 0 := by
    rw [readU32Be, hplace]
    decide
  rw [hread, hchainCode, hpublic, hprivate]
  refine ⟨?_, fun _ => hparent, ?_⟩
  · cases isPrivate with
    | true => exact Or.inl rfl
    | false => exact Or.inr rfl
  · cases isPrivate with
    | true => exact hnew
    | false => exact hnew

/-- `fromBase58(k.toBase58(isPrivate))` is a key. -/
def ReadsBack (C : Primitives) (k : ExtKey E) (isPrivate : Bool) (k' : ExtKey E) : Prop :=
  ∃ s, toBase58 C k isPrivate = .ok s ∧ fromBase58 C s = .ok k'

/-- What is read has no place. -/
theorem place_of_fromBase58 {base58 : Bytes} {k : ExtKey E} (h : fromBase58 C base58 = .ok k) :
    k.depth = 0 ∧ k.parentFingerprint = 0 ∧ k.index = 0 := by
  obtain ⟨rawKey, -, -, -, -, hnew⟩ := fromBase58_eq_ok.mp h
  obtain ⟨-, -, hdepth, hparent, hindex⟩ := fields_of_new hnew
  exact ⟨hdepth, hparent, hindex⟩

/-- A key without a place is written as a root. -/
theorem payload_of_root {k : ExtKey E} (hdepth : k.depth = 0) (hparent : k.parentFingerprint = 0)
    (hindex : k.index = 0) (isPrivate : Bool) :
    payload k isPrivate = rootKey (BigEndian.bytes 4 (if isPrivate then PRIVATE else PUBLIC).toNat)
      k.chainCode (keyData k isPrivate) := by
  have hplace : place k = List.replicate 9 0 := by
    rw [place, hdepth, hparent, hindex]
    decide
  rw [payload, hplace, rootKey]

/-- **A private key is read back exactly when it is a root.** -/
theorem readsBack_private (hE : E.Lawful) {k : ExtKey E} (hchain : k.chainCode.length = 32) :
    ReadsBack C k true k ↔
      k.isPrivate = true ∧ k.depth = 0 ∧ k.parentFingerprint = 0 ∧ k.index = 0 := by
  constructor
  · intro h
    obtain ⟨s, hwrite, hread⟩ := h
    refine ⟨?_, place_of_fromBase58 hread⟩
    by_contra hpublic
    rw [Bool.not_eq_true] at hpublic
    unfold toBase58 at hwrite
    rw [hpublic] at hwrite
    cases hwrite
  · intro h
    obtain ⟨hprivate, hdepth, hparent, hindex⟩ := h
    obtain ⟨s, hwrite, hdecode⟩ := exists_toBase58 (C := C) hE hchain true fun _ => hprivate
    rw [payload_of_root hdepth hparent hindex] at hdecode
    refine ⟨s, hwrite, fromBase58_root hdecode (BigEndian.length_bytes _ _) hchain
      (length_keyData hE k true) true (by decide) ?_⟩
    obtain ⟨x, hx⟩ := exists_key hprivate
    have hvalid := (k.ec.valid x hx).1
    have hlt : x < 256 ^ 32 := lt_trans hvalid.2 hE.order_lt
    have himport : mpzImport (BigEndian.bytes 32 (Bip32.secret k)) = x := by
      rw [secret_eq hx]
      exact BigEndian.value_bytes_of_lt hlt
    have hdata : (if true = true then (keyData k true).drop 1 else keyData k true) =
        BigEndian.bytes 32 (Bip32.secret k) := by
      rw [if_pos rfl, keyData, if_pos rfl, List.drop_one, List.tail_cons]
    rw [hdata, new₃, new_private (by rwa [himport])]
    refine congrArg Except.ok ?_
    have hec := ECC.eq_ofScalar hx
    apply ExtKey.ext
    · rw [hec]
      simp only [ofScalar, himport]
    · rfl
    · exact hprivate.symm
    · exact hdepth.symm
    · exact hparent.symm
    · exact hindex.symm

/-- So is the public part. -/
theorem readsBack_public (hE : E.Lawful) {k : ExtKey E} (hchain : k.chainCode.length = 32) :
    ReadsBack C k false k.publicPart ↔
      k.depth = 0 ∧ k.parentFingerprint = 0 ∧ k.index = 0 := by
  constructor
  · intro h
    obtain ⟨s, -, hread⟩ := h
    obtain ⟨hdepth, hparent, hindex⟩ := place_of_fromBase58 hread
    exact ⟨hdepth, hparent, hindex⟩
  · intro h
    obtain ⟨hdepth, hparent, hindex⟩ := h
    obtain ⟨s, hwrite, hdecode⟩ := exists_toBase58 (C := C) (k := k) hE hchain false
      fun h => nomatch h
    rw [payload_of_root hdepth hparent hindex] at hdecode
    refine ⟨s, hwrite, fromBase58_root hdecode (BigEndian.length_bytes _ _) hchain
      (length_keyData hE k false) false (by decide) ?_⟩
    have hdata : (if false = true then (keyData k false).drop 1 else keyData k false) =
        E.encode k.ec.point := by
      rw [if_neg Bool.false_ne_true, keyData, if_neg Bool.false_ne_true, ECC.getPublicKey]
    rw [hdata, new₃, new_public (hE.decode_encode _), publicPart]
    simp only [hdepth, hparent, hindex]

/-! ### Strings that are accepted -/

/-- A number is read from its four bytes. -/
theorem bytes_readU32Be {rawKey : Bytes} {offset : Nat} (h : offset + 4 ≤ rawKey.length) :
    BigEndian.bytes 4 (readU32Be rawKey offset).toNat = slice rawKey offset 4 := by
  have hlength : (slice rawKey offset 4).length = 4 := by
    rw [length_slice]
    omega
  have hlt : BigEndian.value (slice rawKey offset 4) < 256 ^ 4 := by
    have hbound := mpzImport_lt (slice rawKey offset 4)
    rwa [hlength] at hbound
  have hvalue : (readU32Be rawKey offset).toNat = BigEndian.value (slice rawKey offset 4) :=
    UInt32.toNat_ofNat_of_lt' hlt
  rw [hvalue]
  apply eq_of_mpzImport_eq
  · rw [BigEndian.length_bytes, hlength]
  · exact BigEndian.value_bytes_of_lt hlt

/-- Seventy-eight bytes in their four parts. -/
theorem parts_eq {rawKey : Bytes} (h : rawKey.length = 78) :
    slice rawKey 0 4 ++ (slice rawKey 4 9 ++ (slice rawKey 13 32 ++ slice rawKey 45 33)) =
      rawKey := by
  have hend : slice rawKey 45 33 = rawKey.drop 45 := by
    apply List.take_of_length_le
    rw [List.length_drop, h]
  have hjoin : ∀ n m, slice rawKey n m ++ rawKey.drop (n + m) = rawKey.drop n := by
    intro n m
    rw [slice, ← List.drop_drop, List.take_append_drop]
  rw [hend, hjoin 13 32, hjoin 4 9, hjoin 0 4, List.drop_zero]

/-- The 33 bytes of the key are one byte and 32. -/
theorem slice_keyData {rawKey : Bytes} (h : rawKey.length = 78) :
    slice rawKey 45 33 = rawKey.getD 45 0 :: slice rawKey 46 32 := by
  have hlt : 45 < rawKey.length := by omega
  rw [slice, List.drop_eq_getElem_cons hlt, List.take_succ_cons, List.getD_eq_getElem _ _ hlt]
  rfl

/-- The last 33 bytes of a key that was read. -/
theorem keyData_of_new (hE : E.Lawful) {rawKey : Bytes} {k : ExtKey E}
    (hlength : rawKey.length = 78)
    (hnew : new₃ (if readU32Be rawKey 0 = PRIVATE then slice rawKey 46 32 else slice rawKey 45 33)
      (slice rawKey 13 32) (decide (readU32Be rawKey 0 = PRIVATE)) = .ok k) :
    keyData k k.isPrivate =
      if readU32Be rawKey 0 = PRIVATE then 0 :: slice rawKey 46 32 else slice rawKey 45 33 := by
  by_cases hversion : readU32Be rawKey 0 = PRIVATE
  · have hpart : (slice rawKey 46 32).length = 32 := by
      rw [length_slice]
      omega
    simp only [hversion, if_true, decide_true] at hnew ⊢
    rw [new₃] at hnew
    by_cases hvalid : 0 < mpzImport (slice rawKey 46 32) ∧
        mpzImport (slice rawKey 46 32) < E.order
    · obtain rfl := Except.ok.inj ((new_private hvalid).symm.trans hnew)
      have hlt := mpzImport_lt (slice rawKey 46 32)
      rw [hpart] at hlt
      show 0 :: BigEndian.bytes 32 (mpzImport (slice rawKey 46 32)) = _
      refine congrArg (0 :: ·) (eq_of_mpzImport_eq ?_ ?_)
      · rw [BigEndian.length_bytes, hpart]
      · exact BigEndian.value_bytes_of_lt hlt
    · exfalso
      unfold new at hnew
      rw [if_pos rfl] at hnew
      split at hnew
      · next ec hec =>
          unfold ECC.fromPrivateKey at hec
          rw [dif_neg hvalid] at hec
          cases hec
      · cases hnew
  · have hpart : (slice rawKey 45 33).length = 33 := by
      rw [length_slice]
      omega
    simp only [hversion, if_false, decide_false] at hnew ⊢
    rw [new₃] at hnew
    cases hp : E.decode (slice rawKey 45 33) with
    | some p =>
        obtain rfl := Except.ok.inj ((new_public hp).symm.trans hnew)
        exact hE.encode_of_decode _ p hpart hp
    | none =>
        exfalso
        unfold new at hnew
        rw [if_neg Bool.false_ne_true] at hnew
        split at hnew
        · next ec hec =>
            unfold ECC.fromPublicKey at hec
            rw [hp] at hec
            cases hec
        · cases hnew

/-- A string that was accepted is written again if it stands for a root and has a zero in
front of a private number. -/
theorem writesBack_iff (hE : E.Lawful) {base58 rawKey : Bytes} {k : ExtKey E}
    (hdecode : Base58.decodeWithChecksum C base58 = .ok rawKey)
    (h : fromBase58 C base58 = .ok k) :
    toBase58 C k k.isPrivate = .ok base58 ↔
      slice rawKey 4 9 = List.replicate 9 0 ∧
        (readU32Be rawKey 0 = PRIVATE → rawKey.getD 45 0 = 0) := by
  obtain ⟨hdepth, hparent, hindex⟩ := place_of_fromBase58 h
  obtain ⟨rawKey', hdecode', hlength, hversion, -, hnew⟩ := fromBase58_eq_ok.mp h
  obtain rfl := Except.ok.inj (hdecode'.symm.trans hdecode)
  obtain ⟨hchain, hprivate, -⟩ := fields_of_new hnew
  have hchainLength : k.chainCode.length = 32 := by
    rw [hchain, length_slice]
    omega
  have hdata := keyData_of_new hE hlength hnew
  have hfour : BigEndian.bytes 4 (if k.isPrivate then PRIVATE else PUBLIC).toNat =
      slice rawKey' 0 4 := by
    rw [← bytes_readU32Be (by omega), hprivate]
    congr 2
    by_cases hv : readU32Be rawKey' 0 = PRIVATE
    · simp [hv]
    · rw [hversion.resolve_left hv]
      decide
  have hpayload := payload_of_root hdepth hparent hindex k.isPrivate
  rw [hfour, hchain] at hpayload
  -- the string is the encoding of its bytes
  have hback : toBase58 C k k.isPrivate = .ok base58 ↔ payload k k.isPrivate = rawKey' := by
    obtain ⟨s, hwrite, hread⟩ := exists_toBase58 (C := C) hE hchainLength k.isPrivate id
    constructor
    · intro hsame
      obtain rfl := Except.ok.inj (hwrite.symm.trans hsame)
      exact Except.ok.inj (hread.symm.trans hdecode)
    · intro hsame
      rw [toBase58_eq hE hchainLength id, hsame]
      refine Base58.encode_of_decode (Base58.decodeWithChecksum_eq_ok.mp hdecode) ?_
      refine ⟨4, List.mem_append_left _ ?_, by decide⟩
      rw [← hsame, payload]
      refine List.mem_append_left _ ?_
      cases k.isPrivate with
      | true => decide
      | false => decide
  have hsplit : payload k k.isPrivate = rawKey' ↔
      List.replicate 9 0 = slice rawKey' 4 9 ∧ keyData k k.isPrivate = slice rawKey' 45 33 := by
    have hnine : (slice rawKey' 4 9).length = 9 := by
      rw [length_slice]
      omega
    have hparts : payload k k.isPrivate = rawKey' ↔
        rootKey (slice rawKey' 0 4) (slice rawKey' 13 32) (keyData k k.isPrivate) =
          slice rawKey' 0 4 ++ (slice rawKey' 4 9 ++
            (slice rawKey' 13 32 ++ slice rawKey' 45 33)) := by
      rw [parts_eq hlength, hpayload]
    rw [hparts, rootKey, List.append_right_inj]
    constructor
    · intro hsame
      obtain ⟨hzeros, hrest⟩ := List.append_inj hsame (by rw [hnine, List.length_replicate])
      exact ⟨hzeros, List.append_cancel_left hrest⟩
    · intro hsame
      rw [hsame.1, hsame.2]
  rw [hback, hsplit, hdata, slice_keyData hlength, eq_comm]
  refine and_congr_right fun _ => ?_
  by_cases hv : readU32Be rawKey' 0 = PRIVATE
  · rw [if_pos hv]
    constructor
    · intro heq _
      exact (List.cons.inj heq).1.symm
    · intro hzero
      rw [hzero hv]
  · rw [if_neg hv]
    exact ⟨fun _ hp => absurd hp hv, fun _ => rfl⟩

/-! ### When a key comes back -/

/-- Every key that can be had has a chain code of 32 bytes. -/
theorem Reachable.length_chainCode (hE : E.Lawful) {H : KeyHashes} {k : ExtKey E}
    (h : Reachable C H k) : k.chainCode.length = 32 := by
  cases h with
  | fromSeed h =>
      unfold ExtKey.fromSeed new₃ at h
      rw [(fields_of_new h).1, length_slice, H.length_hmacSha512]
      rfl
  | generateRandom hlength h =>
      unfold ExtKey.generateRandom new₃ at h
      rw [(fields_of_new h).1, length_slice, hlength]
      rfl
  | fromBase58 h =>
      obtain ⟨rawKey, -, hlength, -, -, hnew⟩ := fromBase58_eq_ok.mp h
      rw [(fields_of_new hnew).1, length_slice, hlength]
      rfl
  | derive _ h => exact length_chainCode_of_derive hE _ h

/-- **When a key comes back.**  Of the keys that the class hands out exactly the roots are
read back, the private ones also from their private form; and a string that is accepted
is written again exactly if it stands for a root, with a zero in front of a private
number. -/
theorem roundTrip_iff (hE : E.Lawful) (C : Primitives) (H : KeyHashes) :
    (∀ k : ExtKey E, Reachable C H k →
      (ReadsBack C k true k ↔
        k.isPrivate = true ∧ k.depth = 0 ∧ k.parentFingerprint = 0 ∧ k.index = 0) ∧
      (ReadsBack C k false k.publicPart ↔
        k.depth = 0 ∧ k.parentFingerprint = 0 ∧ k.index = 0)) ∧
    (∀ (base58 rawKey : Bytes) (k : ExtKey E),
      Base58.decodeWithChecksum C base58 = .ok rawKey → fromBase58 C base58 = .ok k →
      (toBase58 C k k.isPrivate = .ok base58 ↔
        slice rawKey 4 9 = List.replicate 9 0 ∧
          (readU32Be rawKey 0 = PRIVATE → rawKey.getD 45 0 = 0))) := by
  refine ⟨?_, fun base58 rawKey k => writesBack_iff hE⟩
  intro k hk
  have hchain := hk.length_chainCode hE
  exact ⟨readsBack_private hE hchain, readsBack_public hE hchain⟩

/-- The number five and a chain code of zeros. -/
def sampleRandom : Bytes := BigEndian.bytes 32 5 ++ List.replicate 32 0

/-- The sample key can be had. -/
theorem reachable_sample (H : KeyHashes) : Reachable samplePrimitives H sample := by
  have hkey : mpzImport (slice sampleRandom 0 32) = 5 := by decide
  have hchain : slice sampleRandom 32 32 = List.replicate 32 0 := by decide
  have hscalar : ∀ x (hx : 0 < x ∧ x < sampleCurve.order), x = 5 →
      ofScalar x hx (List.replicate 32 0) 0 0 0 = sample := by
    intro x hx h5
    subst h5
    rfl
  have hrandom : generateRandom sampleRandom = .ok sample := by
    rw [generateRandom, hchain, new₃, new_private (by rw [hkey]; decide)]
    exact congrArg Except.ok (hscalar _ _ hkey)
  exact .generateRandom (by decide) hrandom

/-- A root comes back. -/
theorem roundTrip_sample : ReadsBack samplePrimitives sample true sample := by
  obtain ⟨hkeys, -⟩ := roundTrip_iff sampleCurve_lawful samplePrimitives (hashesOf fun _ => 1)
  exact (hkeys sample (reachable_sample _)).1.mpr ⟨rfl, rfl, rfl, rfl⟩

/-- A child does not: it has another depth. -/
theorem not_readsBack :
    ∃ k' : ExtKey sampleCurve, Reachable samplePrimitives (hashesOf fun _ => 1) k' ∧
      k'.isPrivate = true ∧ k'.depth = 1 ∧ ¬ ReadsBack samplePrimitives k' true k' := by
  have hleft : Bip32.left (hashesOf fun _ => 1) sample false 0 = 1 :=
    Bip32.left_hashesOf (by decide +kernel)
  have haccepted : accepted (hashesOf fun _ => 1) sample false 0 =
      some (6, List.replicate 32 0) := by
    unfold accepted
    rw [hleft, Bip32.right_hashesOf]
    decide +kernel
  obtain ⟨k', hderive, hchild⟩ :=
    deriveRounds_of_some sampleCurve_lawful rfl (by decide) (2 ^ 32) haccepted
  have hdepth : k'.depth = 1 := UInt8.toNat_inj.mp hchild.depth
  refine ⟨k', .derive (reachable_sample _) hderive, hchild.isPrivate, hdepth, ?_⟩
  intro h
  obtain ⟨s, -, hread⟩ := h
  obtain ⟨hzero, -⟩ := place_of_fromBase58 hread
  rw [hdepth] at hzero
  exact absurd hzero (by decide)

end ExtKey

end PrivmxEndpoint
