import Mathlib.Data.ZMod.Basic
import PrivmxEndpoint.CryptoTypes
import PrivmxEndpoint.ListSplice

/-!
# The arithmetic of SRP

The client raises a difference, reduced as C++ reduces it and so possibly negative, to a
sum of exponents; the server raises a product.  In any commutative ring both are the same
power of the generator (`SrpLogic.client_eq_server`), for any exponents.

What is hashed are numbers in the length of the modulus.  `PAD` writes the bytes of a
number so far behind the beginning of its buffer that they end where it does, and computes
that place as a difference of sizes: a number that is longer than the modulus is written in
front of the buffer.  The generator comes from the server, and `M1` is as long as the hash
(`SrpLogic.agrees_iff`).
-/

namespace PrivmxEndpoint

namespace SrpLogic

/-! ### Big numbers -/

/-- `mpz_sizeinbase(x, 2)`, which ignores the sign and is one for zero. -/
def mpzSizeInBase2 (x : ℤ) : ℕ := Nat.log2 x.natAbs + 1

/-- `(mpz_sizeinbase(x, 2) + 7) / 8`. -/
def byteSize (x : ℤ) : ℕ := (mpzSizeInBase2 x + 7) / 8

/-- `mpz_powm` for an exponent that is not negative: the result is not negative either. -/
def mpzPowm (base exp mod : ℤ) : ℤ := base ^ exp.toNat % mod

/-- `SrpLogic::PAD`; `none` is a write in front of the buffer.  For zero no byte is
written. -/
def PAD (x N : ℤ) : Option Bytes :=
  let result := List.replicate (byteSize N) 0
  if byteSize x ≤ byteSize N then
    some (Splice.writeAt result (byteSize N - byteSize x) (mpzExport x.natAbs) false)
  else
    none

/-! ### The client -/

variable (S : Sha256)

def H (data : Bytes) : Bytes := S.sha256 data

def HBN (data : Bytes) : ℤ := mpzImport (H S data)

def get_A (g N a : ℤ) : ℤ := mpzPowm g a N

/-- `get_x`; 58 is the colon. -/
def get_x (s I P : Bytes) : ℤ := HBN S (s ++ H S (I ++ 58 :: P))

def get_v (g N x : ℤ) : ℤ := mpzPowm g x N

def get_k (g N : ℤ) : Option ℤ := do
  return HBN S ((← PAD N N) ++ (← PAD g N))

def get_u (A B N : ℤ) : Option ℤ := do
  return HBN S ((← PAD A N) ++ (← PAD B N))

/-- `getClient_S`; `%` of two `mpz_class` rounds towards zero. -/
def getClient_S (B k v a u x N : ℤ) : ℤ :=
  let bkv := (B - (v * k).tmod N).tmod N
  let aux := a + u * x
  mpzPowm bkv aux N

def get_M1 (A B clientS N : ℤ) : Option ℤ := do
  return HBN S ((← PAD A N) ++ (← PAD B N) ++ (← PAD clientS N))

def get_M2 (A M1 clientS N : ℤ) : Option ℤ := do
  return HBN S ((← PAD A N) ++ (← PAD M1 N) ++ (← PAD clientS N))

def get_K (clientS N : ℤ) : Option Bytes := do
  return H S (← PAD clientS N)

/-! ### The server, as the protocol has it -/

/-- `B = (k v + g ^ b) mod N`. -/
def serverB (k v g b N : ℤ) : ℤ := (k * v + g ^ b.toNat) % N

/-- `S = (A v ^ u) ^ b mod N`. -/
def serverS (A v u b N : ℤ) : ℤ := (A * v ^ u.toNat) ^ b.toNat % N

/-! ### One power of the generator -/

/-- **The identity of SRP** in a commutative ring. -/
theorem client_eq_server {R : Type} [CommRing R] (g k : R) (a b u x : ℕ) :
    (k * g ^ x + g ^ b - g ^ x * k) ^ (a + u * x) = (g ^ a * (g ^ x) ^ u) ^ b := by
  have hbase : k * g ^ x + g ^ b - g ^ x * k = g ^ b := by ring
  calc (k * g ^ x + g ^ b - g ^ x * k) ^ (a + u * x) = (g ^ b) ^ (a + u * x) := by rw [hbase]
    _ = (g ^ a * (g ^ x) ^ u) ^ b := by ring

/-- Both ways of reducing a number leave its residue. -/
theorem cast_emod (N : ℕ) (z : ℤ) : ((z % N : ℤ) : ZMod N) = z :=
  ZMod.intCast_mod z N

/-- The remainder is the number itself modulo the modulus. -/
theorem cast_tmod (N : ℕ) (z : ℤ) : ((z.tmod N : ℤ) : ZMod N) = z := by
  rw [Int.tmod_def]
  push_cast
  rw [ZMod.natCast_self, zero_mul, sub_zero]

/-- So is the power. -/
theorem cast_mpzPowm (N : ℕ) (base exp : ℤ) :
    ((mpzPowm base exp N : ℤ) : ZMod N) = (base : ZMod N) ^ exp.toNat := by
  rw [mpzPowm, cast_emod, Int.cast_pow]

/-- **Agreement**: for all exponents, and whatever the hashes `k`, `u` and `x` are, the
client computes the number of the server. -/
theorem getClient_S_eq {N g k a b u x : ℤ} (hN : 0 < N) (ha : 0 ≤ a) (hu : 0 ≤ u) (hx : 0 ≤ x) :
    getClient_S (serverB k (get_v g N x) g b N) k (get_v g N x) a u x N =
      serverS (get_A g N a) (get_v g N x) u b N := by
  obtain ⟨n, rfl⟩ := Int.eq_ofNat_of_zero_le hN.le
  have haux : (a + u * x).toNat = a.toNat + u.toNat * x.toNat := by
    rw [Int.toNat_add ha (mul_nonneg hu hx), Int.toNat_mul hu hx]
  unfold getClient_S serverS mpzPowm
  apply (ZMod.intCast_eq_intCast_iff _ _ n).mp
  have hbkv : (((serverB k (get_v g n x) g b n - (get_v g n x * k).tmod n).tmod n : ℤ) : ZMod n) =
      k * (g : ZMod n) ^ x.toNat + (g : ZMod n) ^ b.toNat - (g : ZMod n) ^ x.toNat * k := by
    rw [cast_tmod, Int.cast_sub, cast_tmod, serverB, cast_emod, Int.cast_add, Int.cast_mul,
      Int.cast_mul, Int.cast_pow, get_v, cast_mpzPowm]
  rw [Int.cast_pow, Int.cast_pow, Int.cast_mul, Int.cast_pow, hbkv, haux, get_A, get_v,
    cast_mpzPowm, cast_mpzPowm]
  exact client_eq_server _ _ _ _ _ _

/-! ### What `PAD` writes -/

/-- A size is the least number of bytes that hold the number. -/
theorem byteSize_le_iff {x : ℤ} {k : ℕ} (hk : 0 < k) : byteSize x ≤ k ↔ x.natAbs < 256 ^ k := by
  have hpow : 256 ^ k = 2 ^ (8 * k) := by
    rw [pow_mul]
    norm_num
  have hsize : byteSize x ≤ k ↔ Nat.log2 x.natAbs < 8 * k := by
    unfold byteSize mpzSizeInBase2
    omega
  rw [hsize, hpow]
  by_cases hzero : x.natAbs = 0
  · rw [hzero]
    exact iff_of_true (by rw [Nat.log2_zero]; omega) (Nat.two_pow_pos _)
  · exact Nat.log2_lt hzero

/-- A number has at least one byte. -/
theorem byteSize_pos (x : ℤ) : 0 < byteSize x := by
  unfold byteSize mpzSizeInBase2
  omega

/-- The written bytes are as many as the size says, except for zero. -/
theorem length_mpzExport {x : ℤ} (hx : x ≠ 0) : (mpzExport x.natAbs).length = byteSize x := by
  have hpos : 0 < (mpzExport x.natAbs).length := by
    by_contra hnil
    have hlt := length_mpzExport_le_iff.mp (Nat.le_of_not_lt hnil)
    rw [pow_zero, Nat.lt_one_iff, Int.natAbs_eq_zero] at hlt
    exact hx hlt
  apply le_antisymm
  · exact length_mpzExport_le_iff.mpr ((byteSize_le_iff (byteSize_pos x)).mp le_rfl)
  · exact (byteSize_le_iff hpos).mpr (length_mpzExport_le_iff.mp le_rfl)

/-- **`PAD`** writes the number in the length of the modulus, or outside of its buffer. -/
theorem PAD_eq (x N : ℤ) :
    PAD x N =
      if byteSize x ≤ byteSize N then some (BigEndian.bytes (byteSize N) x.natAbs) else none := by
  unfold PAD
  by_cases hfits : byteSize x ≤ byteSize N
  · have hlt := (byteSize_le_iff (byteSize_pos N)).mp hfits
    rw [if_pos hfits, if_pos hfits, ← zeros_append_mpzExport hlt]
    congr 1
    by_cases hzero : x = 0
    · subst hzero
      have hnone : mpzExport (0 : ℤ).natAbs = [] := rfl
      rw [hnone]
      simp [Splice.writeAt]
    · have hlength := length_mpzExport hzero
      simp [Splice.writeAt, hlength, Nat.sub_add_cancel hfits]
  · rw [if_neg hfits, if_neg hfits]

/-- `PAD` returns the number in the length of the modulus. -/
def Padded (x N : ℤ) : Prop :=
  ∃ result, PAD x N = some result ∧ result.length = byteSize N ∧ (mpzImport result : ℤ) = x

/-- A number is padded when it is not negative and no longer than the modulus. -/
theorem padded_iff {x N : ℤ} : Padded x N ↔ 0 ≤ x ∧ byteSize x ≤ byteSize N := by
  unfold Padded
  rw [PAD_eq]
  constructor
  · intro h
    obtain ⟨result, hresult, _, hvalue⟩ := h
    refine ⟨hvalue ▸ Int.natCast_nonneg _, ?_⟩
    by_contra hlong
    rw [if_neg hlong] at hresult
    cases hresult
  · intro h
    obtain ⟨hnonneg, hfits⟩ := h
    have hlt := (byteSize_le_iff (byteSize_pos N)).mp hfits
    refine ⟨_, if_pos hfits, BigEndian.length_bytes _ _, ?_⟩
    rw [mpzImport, BigEndian.value_bytes_of_lt hlt]
    exact Int.natAbs_of_nonneg hnonneg

/-- Padding fills a number up to the bytes of the modulus. -/
theorem PAD_of_padded {x N : ℤ} (h : Padded x N) :
    PAD x N = some (BigEndian.bytes (byteSize N) x.natAbs) := by
  rw [PAD_eq, if_pos (padded_iff.mp h).2]

/-- Residues fit. -/
theorem padded_of_lt {x N : ℤ} (hnonneg : 0 ≤ x) (hlt : x < N) : Padded x N := by
  refine padded_iff.mpr ⟨hnonneg, (byteSize_le_iff (byteSize_pos N)).mpr ?_⟩
  have hN := (byteSize_le_iff (byteSize_pos N)).mp (le_refl (byteSize N))
  omega

/-- A remainder is never longer than the modulus. -/
theorem padded_emod {N : ℤ} (hN : 0 < N) (z : ℤ) : Padded (z % N) N :=
  padded_of_lt (Int.emod_nonneg z hN.ne') (Int.emod_lt_of_pos z hN)

/-- A hash is no negative number. -/
theorem HBN_nonneg (data : Bytes) : 0 ≤ HBN S data :=
  Int.natCast_nonneg _

/-- Hashes fit if the modulus is as long as they are. -/
theorem padded_HBN {N : ℤ} (hN : 32 ≤ byteSize N) (data : Bytes) : Padded (HBN S data) N := by
  refine padded_iff.mpr ⟨HBN_nonneg S data, (byteSize_le_iff (byteSize_pos N)).mpr ?_⟩
  have hlt := mpzImport_lt (H S data)
  rw [H, S.length_sha256] at hlt
  exact lt_of_lt_of_le hlt (Nat.pow_le_pow_right (by decide) hN)

/-! ### A run of the protocol -/

/-- **Agreement** in one run: all numbers that are padded come out right, and both sides
have the same `S`, `K`, `M1` and `M2`. -/
def Agrees (N g : ℤ) (s I P : Bytes) (a b : ℤ) : Prop :=
  let x := get_x S s I P
  let v := get_v g N x
  let A := get_A g N a
  Padded N N ∧ Padded g N ∧ ∃ k, get_k S g N = some k ∧
    let B := serverB k v g b N
    Padded A N ∧ Padded B N ∧ ∃ u, get_u S A B N = some u ∧
      let clientS := getClient_S B k v a u x N
      clientS = serverS A v u b N ∧ Padded clientS N ∧
        (∃ K, get_K S clientS N = some K ∧ get_K S (serverS A v u b N) N = some K) ∧
        ∃ M1, get_M1 S A B clientS N = some M1 ∧ get_M1 S A B (serverS A v u b N) N = some M1 ∧
          Padded M1 N ∧
          ∃ M2, get_M2 S A M1 clientS N = some M2 ∧
            get_M2 S A M1 (serverS A v u b N) N = some M2

/-- `M1` of a run, hashed over the bytes of its numbers in the length of the modulus. -/
def evidence (N g : ℤ) (s I P : Bytes) (a b : ℤ) : ℤ :=
  let bytes (x : ℤ) := BigEndian.bytes (byteSize N) x.natAbs
  let v := get_v g N (get_x S s I P)
  let A := get_A g N a
  let B := serverB (HBN S (bytes N ++ bytes g)) v g b N
  let u := HBN S (bytes A ++ bytes B)
  HBN S (bytes A ++ bytes B ++ bytes (serverS A v u b N))

/-- The generator and `M1` are not longer than the modulus. -/
structure FitsModulus (N g : ℤ) (s I P : Bytes) (a b : ℤ) : Prop where
  generator_nonneg : 0 ≤ g
  generator_size : byteSize g ≤ byteSize N
  evidence_size : byteSize (evidence S N g s I P a b) ≤ byteSize N

variable {S}

/-- The multiplier is the hash of modulus and generator. -/
theorem get_k_eq {N g : ℤ} (hN : Padded N N) (hg : Padded g N) :
    get_k S g N = some (HBN S (BigEndian.bytes (byteSize N) N.natAbs ++
      BigEndian.bytes (byteSize N) g.natAbs)) := by
  rw [get_k, PAD_of_padded hN, PAD_of_padded hg]
  rfl

/-- The scrambler is the hash of both public keys. -/
theorem get_u_eq {A B N : ℤ} (hA : Padded A N) (hB : Padded B N) :
    get_u S A B N = some (HBN S (BigEndian.bytes (byteSize N) A.natAbs ++
      BigEndian.bytes (byteSize N) B.natAbs)) := by
  rw [get_u, PAD_of_padded hA, PAD_of_padded hB]
  rfl

/-- The proof is the hash of both public keys and the secret. -/
theorem get_M1_eq {A B clientS N : ℤ} (hA : Padded A N) (hB : Padded B N)
    (hS : Padded clientS N) :
    get_M1 S A B clientS N = some (HBN S (BigEndian.bytes (byteSize N) A.natAbs ++
      BigEndian.bytes (byteSize N) B.natAbs ++ BigEndian.bytes (byteSize N) clientS.natAbs)) := by
  rw [get_M1, PAD_of_padded hA, PAD_of_padded hB, PAD_of_padded hS]
  rfl

/-- In a run that agrees `M1` is padded. -/
theorem evidence_of_agrees {N g : ℤ} {s I P : Bytes} {a b : ℤ}
    (h : Agrees S N g s I P a b) : Padded (evidence S N g s I P a b) N := by
  obtain ⟨hpadN, hpadg, k, hk, hpadA, hpadB, u, hu, hsame, hpadS, -, M1, hM1, -, hpadM1, -⟩ := h
  rw [get_k_eq hpadN hpadg] at hk
  obtain rfl := Option.some.inj hk
  rw [get_u_eq hpadA hpadB] at hu
  obtain rfl := Option.some.inj hu
  rw [get_M1_eq hpadA hpadB hpadS, hsame] at hM1
  obtain rfl := Option.some.inj hM1
  exact hpadM1

/-- A run whose numbers fit. -/
theorem agrees_of_fits {N g : ℤ} (hN : 0 < N) {s I P : Bytes} {a b : ℤ} (ha : 0 ≤ a)
    (hfits : FitsModulus S N g s I P a b) : Agrees S N g s I P a b := by
  have hpadN : Padded N N := padded_iff.mpr ⟨hN.le, le_rfl⟩
  have hpadg : Padded g N := padded_iff.mpr ⟨hfits.generator_nonneg, hfits.generator_size⟩
  have hpadA : Padded (get_A g N a) N := padded_emod hN _
  refine ⟨hpadN, hpadg, _, get_k_eq hpadN hpadg, ?_⟩
  intro B
  have hpadB : Padded B N := padded_emod hN _
  refine ⟨hpadA, hpadB, _, get_u_eq hpadA hpadB, ?_⟩
  intro clientS
  have hsame : clientS = serverS (get_A g N a) (get_v g N (get_x S s I P)) _ b N :=
    getClient_S_eq hN ha (HBN_nonneg S _) (HBN_nonneg S _)
  have hpadS : Padded clientS N := padded_emod hN _
  have hM1 := get_M1_eq (S := S) hpadA hpadB hpadS
  have hevidence : HBN S (BigEndian.bytes (byteSize N) (get_A g N a).natAbs ++
      BigEndian.bytes (byteSize N) B.natAbs ++ BigEndian.bytes (byteSize N) clientS.natAbs) =
        evidence S N g s I P a b := by
    rw [hsame]
    rfl
  rw [hevidence] at hM1
  have hpadM1 : Padded (evidence S N g s I P a b) N :=
    padded_iff.mpr ⟨HBN_nonneg S _, hfits.evidence_size⟩
  rw [← hsame]
  refine ⟨rfl, hpadS, ?_, _, hM1, hM1, hpadM1, ?_⟩
  · rw [get_K, PAD_of_padded hpadS]
    exact ⟨_, rfl, rfl⟩
  · rw [get_M2, PAD_of_padded hpadA, PAD_of_padded hpadM1, PAD_of_padded hpadS]
    exact ⟨_, rfl, rfl⟩

/-- **SRP agreement.**  In every run the client computes the number of the server, whatever
`k` and `u` are.  The run goes through, with the same `K`, `M1` and `M2` on both sides and
without a number that is written outside of its buffer, exactly if the generator and `M1`
are not longer than the modulus. -/
theorem agrees_iff (S : Sha256) {N g a : ℤ} (hN : 1 < N) (ha : 0 ≤ a) (s I P : Bytes) (b : ℤ) :
    (∀ k u, 0 ≤ u →
      getClient_S (serverB k (get_v g N (get_x S s I P)) g b N) k (get_v g N (get_x S s I P)) a u
          (get_x S s I P) N =
        serverS (get_A g N a) (get_v g N (get_x S s I P)) u b N) ∧
    (Agrees S N g s I P a b ↔ FitsModulus S N g s I P a b) := by
  have hpos : 0 < N := by omega
  refine ⟨fun k u hu => getClient_S_eq hpos ha hu (HBN_nonneg S _), ?_, agrees_of_fits hpos ha⟩
  intro h
  have hg := padded_iff.mp h.2.1
  exact ⟨hg.1, hg.2, (padded_iff.mp (evidence_of_agrees h)).2⟩

/-- A modulus of 32 bytes is long enough for every hash. -/
theorem evidence_size_of_le {N : ℤ} (hN : 32 ≤ byteSize N) (g : ℤ) (s I P : Bytes) (a b : ℤ) :
    byteSize (evidence S N g s I P a b) ≤ byteSize N :=
  (padded_iff.mp (padded_HBN S hN _)).2

/-- A hash that is all one byte behind zeros. -/
def constantSha256 (zeros : Fin 33) (byte : UInt8) : Sha256 where
  sha256 _ := List.replicate zeros 0 ++ List.replicate (32 - zeros) byte
  length_sha256 _ := by
    rw [List.length_append, List.length_replicate, List.length_replicate]
    omega

/-- A modulus of 32 bytes and a full hash; and a modulus of one byte with a hash whose value
is seven. -/
theorem agrees_iff_sample :
    Agrees (constantSha256 0 255) (2 ^ 256 - 189) 2 [1] [2] [3] 5 7 ∧
      Agrees (constantSha256 31 7) 23 5 [1] [2] [3] 5 7 := by
  refine ⟨(agrees_iff _ (by decide) (by decide) _ _ _ _).2.mpr ⟨by decide, by decide +kernel, ?_⟩,
    (agrees_iff _ (by decide) (by decide) _ _ _ _).2.mpr ⟨by decide, by decide, ?_⟩⟩
  · exact evidence_size_of_le (by decide +kernel) _ _ _ _ _ _
  · have hvalue : evidence (constantSha256 31 7) 23 5 [1] [2] [3] 5 7 = 7 := rfl
    rw [hvalue]
    decide

/-- A generator of two bytes and a modulus of one, and a hash that is longer than the
modulus: both are written in front of the buffer. -/
theorem not_agrees :
    (PAD 256 23 = none ∧ ∀ S s I P a b, ¬ Agrees S 23 256 s I P a b) ∧
      ∀ s I P a b, ¬ Agrees (constantSha256 0 255) 23 5 s I P a b := by
  refine ⟨⟨rfl, ?_⟩, ?_⟩
  · intro S s I P a b h
    have hg := (padded_iff.mp h.2.1).2
    exact absurd hg (by decide)
  · intro s I P a b h
    have hfits := (padded_iff.mp (evidence_of_agrees h)).2
    have hvalue : evidence (constantSha256 0 255) 23 5 s I P a b =
        HBN (constantSha256 0 255) [] := rfl
    rw [hvalue] at hfits
    exact absurd hfits (by decide +kernel)

end SrpLogic

end PrivmxEndpoint
