import PrivmxEndpoint.CryptoTypes

/-!
# Extended keys

The curve is a parameter: its order, the multiples of its generator, and the compressed
form of a point.  An `ECC` holds a point and, if it was made of a private key, the number
of which the point is the multiple; the structure carries the proof of that.  The same
holds for the flag of an `ExtKey`.
-/

namespace PrivmxEndpoint

/-- The group that OpenSSL computes in. -/
structure Curve where
  Point : Type
  order : Nat
  /-- The multiples of the generator. -/
  mul : Nat → Point
  /-- `EC_POINT_point2oct`, in the compressed form. -/
  encode : Point → Bytes
  /-- `EC_POINT_oct2point`, and `EC_KEY_check_key` of the point. -/
  decode : Bytes → Option Point

/-- A point has one compressed form, of 33 bytes. -/
structure Curve.Lawful (E : Curve) : Prop where
  one_lt_order : 1 < E.order
  order_lt : E.order < 256 ^ 32
  length_encode : ∀ p, (E.encode p).length = 33
  decode_encode : ∀ p, E.decode (E.encode p) = some p
  encode_of_decode : ∀ der p, der.length = 33 → E.decode der = some p → E.encode p = der

/-- Strings instead of points, with the order of secp256k1. -/
def sampleCurve : Curve where
  Point := { der : Bytes // der.length = 33 }
  order := 0xfffffffffffffffffffffffffffffffebaaedce6af48a03bbfd25e8cd0364141
  mul := fun x => ⟨2 :: BigEndian.bytes 32 x, by rw [List.length_cons, BigEndian.length_bytes]⟩
  encode := fun p => p.1
  decode := fun der => if h : der.length = 33 then some ⟨der, h⟩ else none

theorem sampleCurve_lawful : sampleCurve.Lawful where
  one_lt_order := by decide +kernel
  order_lt := by decide +kernel
  length_encode := fun p => p.2
  decode_encode := fun p => dif_pos p.2
  encode_of_decode := by
    intro der p hlength hp
    have hdecode : (if h : der.length = 33 then some ⟨der, h⟩ else none) = some p := hp
    rw [dif_pos hlength] at hdecode
    obtain rfl := Option.some.inj hdecode
    rfl

/-- The hash functions of `Crypto` that are called here. -/
structure KeyHashes where
  /-- Arguments are the key and the data. -/
  hmacSha512 : Bytes → Bytes → Bytes
  hash160 : Bytes → Bytes
  length_hmacSha512 : ∀ key data, (hmacSha512 key data).length = 64
  length_hash160 : ∀ data, (hash160 data).length = 20

/-- Hashes whose left half is a given number. -/
def hashesOf (left : Bytes → Nat) : KeyHashes where
  hmacSha512 := fun _ data => BigEndian.bytes 32 (left data) ++ List.replicate 32 0
  hash160 := fun _ => List.replicate 20 0
  length_hmacSha512 := by
    intro key data
    rw [List.length_append, BigEndian.length_bytes, List.length_replicate]
  length_hash160 := fun _ => List.length_replicate

/-! ### Keys of the curve -/

/-- `ECC`. -/
structure ECC (E : Curve) where
  key : Option Nat
  point : E.Point
  valid : ∀ x ∈ key, (0 < x ∧ x < E.order) ∧ point = E.mul x

namespace ECC

variable {E : Curve}

/-- The key pair of a number. -/
def ofScalar (x : Nat) (h : 0 < x ∧ x < E.order) : ECC E where
  key := some x
  point := E.mul x
  valid := fun _ hx => Option.some.inj hx ▸ ⟨h, rfl⟩

/-- The key that has only a point. -/
def ofPoint (p : E.Point) : ECC E where
  key := none
  point := p
  valid := fun _ hx => nomatch hx

/-- `fromPrivateKey`, with the check of `EC_KEY_check_key`. -/
def fromPrivateKey (privateKey : Bytes) : Except CryptoError (ECC E) :=
  if h : 0 < mpzImport privateKey ∧ mpzImport privateKey < E.order then
    .ok (ofScalar (mpzImport privateKey) h)
  else
    .error .ecc

/-- `fromPublicKey`. -/
def fromPublicKey (publicKey : Bytes) : Except CryptoError (ECC E) :=
  match E.decode publicKey with
  | some p => .ok (ofPoint p)
  | none => .error .ecc

/-- `getPrivateKey`, without leading zeros. -/
def getPrivateKey (e : ECC E) : Except CryptoError Bytes :=
  match e.key with
  | some x => .ok (mpzExport x)
  | none => .error .ecc

/-- `getPublicKey`, in the compressed form. -/
def getPublicKey (e : ECC E) : Bytes := E.encode e.point

/-- `getOrder`. -/
def getOrder (_ : ECC E) : Bytes := mpzExport E.order

theorem fromPrivateKey_eq {s : Bytes} (h : 0 < mpzImport s ∧ mpzImport s < E.order) :
    fromPrivateKey s = .ok (ofScalar (mpzImport s) h) :=
  dif_pos h

theorem isSome_of_fromPrivateKey {s : Bytes} {e : ECC E} (h : fromPrivateKey s = .ok e) :
    e.key.isSome = true := by
  unfold fromPrivateKey at h
  by_cases hs : 0 < mpzImport s ∧ mpzImport s < E.order
  · rw [dif_pos hs] at h
    obtain rfl := Except.ok.inj h
    rfl
  · rw [dif_neg hs] at h
    cases h

theorem isSome_of_fromPublicKey {s : Bytes} {e : ECC E} (h : fromPublicKey s = .ok e) :
    e.key.isSome = false := by
  unfold fromPublicKey at h
  cases hp : E.decode s with
  | none =>
      rw [hp] at h
      cases h
  | some p =>
      rw [hp] at h
      obtain rfl := Except.ok.inj h
      rfl

/-- A private key is determined by its number. -/
theorem eq_ofScalar {e : ECC E} {x : Nat} (h : e.key = some x) :
    e = ofScalar x (e.valid x h).1 := by
  obtain ⟨key, point, valid⟩ := e
  obtain rfl : key = some x := h
  obtain rfl : point = E.mul x := (valid x rfl).2
  rfl

end ECC

/-! ### Extended keys -/

/-- `ExtKey`. -/
@[ext]
structure ExtKey (E : Curve) where
  ec : ECC E
  chainCode : Bytes
  isPrivate : Bool
  depth : UInt8
  parentFingerprint : UInt32
  index : UInt32
  holdsKey : ec.key.isSome = isPrivate

namespace ExtKey

variable {E : Curve}

/-- The constructor with six arguments. -/
def new (key chainCode : Bytes) (privateKey : Bool) (depth : UInt8)
    (parentFingerprint index : UInt32) : Except CryptoError (ExtKey E) :=
  if privateKey then
    match h : ECC.fromPrivateKey key with
    | .ok ec => .ok ⟨ec, chainCode, true, depth, parentFingerprint, index,
        ECC.isSome_of_fromPrivateKey h⟩
    | .error e => .error e
  else
    match h : ECC.fromPublicKey key with
    | .ok ec => .ok ⟨ec, chainCode, false, depth, parentFingerprint, index,
        ECC.isSome_of_fromPublicKey h⟩
    | .error e => .error e

/-- The constructor with three arguments leaves the other fields at their defaults. -/
def new₃ (key chainCode : Bytes) (privateKey : Bool) : Except CryptoError (ExtKey E) :=
  new key chainCode privateKey 0 0 0

/-- The private extended key of a number. -/
def ofScalar (x : Nat) (h : 0 < x ∧ x < E.order) (chainCode : Bytes) (depth : UInt8)
    (parentFingerprint index : UInt32) : ExtKey E where
  ec := ECC.ofScalar x h
  chainCode := chainCode
  isPrivate := true
  depth := depth
  parentFingerprint := parentFingerprint
  index := index
  holdsKey := rfl

/-- A key of the number five. -/
def sample : ExtKey sampleCurve :=
  ofScalar 5 (by decide +kernel) (List.replicate 32 0) 0 0 0

theorem new_private {key chainCode : Bytes} {depth : UInt8} {parentFingerprint index : UInt32}
    (h : 0 < mpzImport key ∧ mpzImport key < E.order) :
    new key chainCode true depth parentFingerprint index =
      .ok (ofScalar (mpzImport key) h chainCode depth parentFingerprint index) := by
  unfold new
  rw [if_pos rfl]
  split
  · next ec hec =>
      obtain rfl := Except.ok.inj ((ECC.fromPrivateKey_eq h).symm.trans hec)
      rfl
  · next e he => cases (ECC.fromPrivateKey_eq h).symm.trans he

theorem new_public {key chainCode : Bytes} {depth : UInt8} {parentFingerprint index : UInt32}
    {p : E.Point} (h : E.decode key = some p) :
    new key chainCode false depth parentFingerprint index =
      .ok ⟨ECC.ofPoint p, chainCode, false, depth, parentFingerprint, index, rfl⟩ := by
  have hkey : ECC.fromPublicKey key = .ok (ECC.ofPoint p) := by
    unfold ECC.fromPublicKey
    rw [h]
  unfold new
  rw [if_neg (by decide)]
  split
  · next ec hec =>
      obtain rfl := Except.ok.inj (hkey.symm.trans hec)
      rfl
  · next e he => cases hkey.symm.trans he

/-- A private extended key holds a number. -/
theorem exists_key {k : ExtKey E} (h : k.isPrivate = true) : ∃ x, k.ec.key = some x :=
  Option.isSome_iff_exists.mp (k.holdsKey.trans h)

end ExtKey

end PrivmxEndpoint
