import PrivmxEndpoint.ExtKey

/-!
# Derivation of child keys

`ExtKey::derive` hashes a private key and an index, and goes on with the next index if
the hash gives no child.  It is compared with `CKDpriv` of BIP32 (`Bip32`), for every
hash function.

Three things are done differently: a left half that equals the order is accepted, the
next index is tried without the mode that was asked for, and it wraps around.  The last
one cannot happen before the first child of the kind of the index
(`ExtKey.derive_bip32_iff`).
-/

namespace PrivmxEndpoint

variable {E : Curve} (H : KeyHashes)

namespace ExtKey

/-- From here on an index is hardened. -/
def HIGHEST_BIT : UInt32 := 0x80000000

/-- `derive`, with a number of calls that it may take. -/
def deriveRounds (k : ExtKey E) : Nat → UInt32 → Bool → Except CryptoError (ExtKey E)
  | 0, _, _ => .error .endless
  | rounds + 1, index, oldPrivmxVersion => do
      if !k.isPrivate then
        throw .extKeyDoesNotHoldPrivateKey
      let privateKey ← k.ec.getPrivateKey
      let indexBe := BigEndian.bytes 4 index.toNat
      let data :=
        if HIGHEST_BIT ≤ index then
          let serializedKey := if oldPrivmxVersion then privateKey else fillTo32 privateKey
          [0] ++ serializedKey ++ indexBe
        else
          k.ec.getPublicKey ++ indexBe
      let I := H.hmacSha512 k.chainCode data
      let IL := I.take 32
      let LR := (I.drop 32).take 32
      let pIL := mpzImport IL
      let kn := mpzImport privateKey
      let n := mpzImport k.ec.getOrder
      if n < pIL then
        deriveRounds k rounds (index + 1) false
      else
        let ki := (pIL + kn) % n
        if ki = 0 then
          deriveRounds k rounds (index + 1) false
        else
          let kiStr := mpzExport ki
          let identifier := (H.hash160 k.ec.getPublicKey).take 4
          let parentFingerprint := UInt32.ofNat (BigEndian.value identifier)
          ExtKey.new kiStr LR true (k.depth + 1) parentFingerprint index

/-- `derive`.  A call that comes back to an index in the same mode never ends, so that one
call for the index and one for each index after it are all that matter. -/
def derive (k : ExtKey E) (index : UInt32) (oldPrivmxVersion : Bool) :
    Except CryptoError (ExtKey E) :=
  k.deriveRounds H (2 ^ 32 + 1) index oldPrivmxVersion

/-- `deriveHardened`. -/
def deriveHardened (k : ExtKey E) (index : UInt32) : Except CryptoError (ExtKey E) :=
  k.derive H (index + HIGHEST_BIT) false

/-- `deriveOldPrivmxVersion`. -/
def deriveOldPrivmxVersion (k : ExtKey E) (index : UInt32) : Except CryptoError (ExtKey E) :=
  k.derive H index true

/-- `deriveHardenedOldPrivmxVersion`. -/
def deriveHardenedOldPrivmxVersion (k : ExtKey E) (index : UInt32) :
    Except CryptoError (ExtKey E) :=
  k.deriveOldPrivmxVersion H (index + HIGHEST_BIT)

/-- Derivation along a path of indices and modes. -/
def derivePath (k : ExtKey E) (path : List (UInt32 × Bool)) : Except CryptoError (ExtKey E) :=
  path.foldlM (fun parent step => parent.derive H step.1 step.2) k

end ExtKey

/-! ### BIP32 -/

namespace Bip32

/-- The private number of a key. -/
def secret (k : ExtKey E) : Nat := k.ec.key.getD 0

def Hardened (i : UInt32) : Prop := 2 ^ 31 ≤ i.toNat

instance (i : UInt32) : Decidable (Hardened i) := by
  unfold Hardened
  infer_instance

/-- `ser256(k)`; in the old mode without leading zeros. -/
def serializedSecret (k : ExtKey E) (old : Bool) : Bytes :=
  if old then mpzExport (secret k) else BigEndian.bytes 32 (secret k)

/-- What is hashed for the child with an index. -/
def hashed (k : ExtKey E) (old : Bool) (i : UInt32) : Bytes :=
  if Hardened i then [0] ++ serializedSecret k old ++ BigEndian.bytes 4 i.toNat
  else E.encode k.ec.point ++ BigEndian.bytes 4 i.toNat

/-- `parse256(IL)`. -/
def left (k : ExtKey E) (old : Bool) (i : UInt32) : Nat :=
  BigEndian.value ((H.hmacSha512 k.chainCode (hashed k old i)).take 32)

/-- `IR`. -/
def right (k : ExtKey E) (old : Bool) (i : UInt32) : Bytes :=
  (H.hmacSha512 k.chainCode (hashed k old i)).drop 32

/-- `CKDpriv`: the number and the chain code of a child, unless the index has none. -/
def ckdPriv (k : ExtKey E) (old : Bool) (i : UInt32) : Option (Nat × Bytes) :=
  if E.order ≤ left H k old i then none
  else if (left H k old i + secret k) % E.order = 0 then none
  else some ((left H k old i + secret k) % E.order, right H k old i)

/-- The extended key of a child. -/
structure IsChild (k : ExtKey E) (i : UInt32) (child : Nat × Bytes) (k' : ExtKey E) : Prop where
  key : k'.ec.key = some child.1
  chainCode : k'.chainCode = child.2
  isPrivate : k'.isPrivate = true
  depth : k'.depth.toNat = k.depth.toNat + 1
  parentFingerprint : k'.parentFingerprint.toNat =
    BigEndian.value ((H.hash160 (E.encode k.ec.point)).take 4)
  index : k'.index = i

/-- An index of the same kind, with no child for any index from the given one up to it. -/
structure Reached (k : ExtKey E) (old : Bool) (i j : UInt32) : Prop where
  le : i.toNat ≤ j.toNat
  sameKind : Hardened j ↔ Hardened i
  before : ∀ l : UInt32, i.toNat ≤ l.toNat → l.toNat < j.toNat → ckdPriv H k old l = none

/-- The child that BIP32 gives for an index: the one of the first index that has one. -/
def Step (k : ExtKey E) (i : UInt32) (old : Bool) (k' : ExtKey E) : Prop :=
  ∃ j child, Reached H k old i j ∧ ckdPriv H k old j = some child ∧ IsChild H k j child k'

/-- The steps along a path. -/
inductive Path : ExtKey E → List (UInt32 × Bool) → ExtKey E → Prop
  | nil (k) : Path k [] k
  | cons {k k' k'' i old path} (step : Step H k i old k') (rest : Path k' path k'') :
      Path k ((i, old) :: path) k''

/-- Some index from the given one on, of the same kind, has a child. -/
def HasChild (k : ExtKey E) (i : UInt32) (old : Bool) : Prop :=
  ∃ j : UInt32, i.toNat ≤ j.toNat ∧ (Hardened j ↔ Hardened i) ∧
    (ckdPriv H k old j).isSome = true

end Bip32

/-! ### One call -/

namespace ExtKey

open Bip32

/-- What a call makes of the hash for an index: a left half above the order and a sum of
zero are refused. -/
def accepted (k : ExtKey E) (old : Bool) (i : UInt32) : Option (Nat × Bytes) :=
  if E.order < left H k old i then none
  else if (left H k old i + secret k) % E.order = 0 then none
  else some ((left H k old i + secret k) % E.order, right H k old i)

variable {H} {k : ExtKey E}

/-- The secret of a private key. -/
theorem secret_eq {x : Nat} (hx : k.ec.key = some x) : secret k = x := by
  rw [secret, hx, Option.getD_some]

/-- An index is hardened from 2^31 on. -/
theorem HIGHEST_BIT_le_iff (i : UInt32) : HIGHEST_BIT ≤ i ↔ Hardened i :=
  UInt32.le_iff_toNat_le

/-- The string that is hashed is the one of BIP32. -/
theorem hashed_eq (hE : E.Lawful) {x : Nat} (hx : k.ec.key = some x) (old : Bool) (i : UInt32) :
    (if HIGHEST_BIT ≤ i then
      [0] ++ (if old then mpzExport x else fillTo32 (mpzExport x)) ++ BigEndian.bytes 4 i.toNat
    else k.ec.getPublicKey ++ BigEndian.bytes 4 i.toNat) = hashed k old i := by
  have hlt : x < 256 ^ 32 := lt_trans (k.ec.valid x hx).1.2 hE.order_lt
  simp only [HIGHEST_BIT_le_iff, hashed, serializedSecret, secret_eq hx, fillTo32_mpzExport hlt,
    ECC.getPublicKey]

/-- One round: the first index that is accepted gives the child. -/
theorem deriveRounds_eq (hE : E.Lawful) (hk : k.isPrivate = true) (rounds : Nat) (i : UInt32)
    (old : Bool) :
    k.deriveRounds H (rounds + 1) i old =
      match accepted H k old i with
      | none => k.deriveRounds H rounds (i + 1) false
      | some child =>
          ExtKey.new (mpzExport child.1) child.2 true (k.depth + 1)
            (UInt32.ofNat (BigEndian.value ((H.hash160 (E.encode k.ec.point)).take 4))) i := by
  obtain ⟨x, hx⟩ := exists_key hk
  have hget : k.ec.getPrivateKey = .ok (mpzExport x) := by
    unfold ECC.getPrivateKey
    rw [hx]
  have horder : mpzImport k.ec.getOrder = E.order := mpzImport_mpzExport E.order
  have hright : ∀ data, ((H.hmacSha512 k.chainCode data).drop 32).take 32 =
      (H.hmacSha512 k.chainCode data).drop 32 := by
    intro data
    apply List.take_of_length_le
    rw [List.length_drop, H.length_hmacSha512]
  conv_lhs => unfold deriveRounds
  simp only [hk, hget, bind, Except.bind, hashed_eq hE hx, hright, horder, mpzImport_mpzExport]
  have hleft : mpzImport ((H.hmacSha512 k.chainCode (hashed k old i)).take 32) = left H k old i :=
    rfl
  rw [if_neg (by decide), hleft]
  unfold accepted
  rw [secret_eq hx]
  by_cases habove : E.order < left H k old i
  · rw [if_pos habove, if_pos habove]
  · rw [if_neg habove, if_neg habove]
    by_cases hzero : (left H k old i + x) % E.order = 0
    · rw [if_pos hzero, if_pos hzero]
    · rw [if_neg hzero, if_neg hzero]
      rfl

/-- A refused index passes the round on to the next. -/
theorem deriveRounds_of_none (hE : E.Lawful) (hk : k.isPrivate = true) (rounds : Nat) {i : UInt32}
    {old : Bool} (h : accepted H k old i = none) :
    k.deriveRounds H (rounds + 1) i old = k.deriveRounds H rounds (i + 1) false := by
  rw [deriveRounds_eq hE hk, h]

/-- An accepted index ends the search. -/
theorem deriveRounds_of_some (hE : E.Lawful) (hk : k.isPrivate = true)
    (hdepth : k.depth.toNat < 255) (rounds : Nat) {i : UInt32} {old : Bool} {child : Nat × Bytes}
    (h : accepted H k old i = some child) :
    ∃ k', k.deriveRounds H (rounds + 1) i old = .ok k' ∧ IsChild H k i child k' := by
  obtain ⟨hne, hlt⟩ : child.1 ≠ 0 ∧ child.1 < E.order := by
    unfold accepted at h
    split at h
    · cases h
    · split at h
      · cases h
      · next hzero =>
          obtain rfl := Option.some.inj h
          exact ⟨hzero, Nat.mod_lt _ (lt_trans Nat.zero_lt_one hE.one_lt_order)⟩
  have hvalid : 0 < mpzImport (mpzExport child.1) ∧ mpzImport (mpzExport child.1) < E.order := by
    rw [mpzImport_mpzExport]
    exact ⟨Nat.pos_of_ne_zero hne, hlt⟩
  rw [deriveRounds_eq hE hk, h]
  refine ⟨_, new_private hvalid, ?_⟩
  have hfour : ((H.hash160 (E.encode k.ec.point)).take 4).length = 4 := by
    rw [List.length_take, H.length_hash160]
    rfl
  have hfingerprint : mpzImport ((H.hash160 (E.encode k.ec.point)).take 4) < 2 ^ 32 := by
    have hbound := mpzImport_lt ((H.hash160 (E.encode k.ec.point)).take 4)
    rwa [hfour] at hbound
  exact {
    key := congrArg some (mpzImport_mpzExport child.1)
    chainCode := rfl
    isPrivate := rfl
    depth := by
      show (k.depth + 1).toNat = _
      have hone : (1 : UInt8).toNat = 1 := rfl
      rw [UInt8.toNat_add, hone]
      exact Nat.mod_eq_of_lt (by omega)
    parentFingerprint := UInt32.toNat_ofNat_of_lt' hfingerprint
    index := rfl }

/-- A left half that equals the order is not refused. -/
theorem accepted_ne_none (hk : k.isPrivate = true) {old : Bool} {i : UInt32}
    (h : left H k old i = E.order) : accepted H k old i ≠ none := by
  obtain ⟨x, hx⟩ := exists_key hk
  obtain ⟨hpos, hlt⟩ := (k.ec.valid x hx).1
  unfold accepted
  rw [h, secret_eq hx, if_neg (lt_irrefl _), Nat.add_mod_left, Nat.mod_eq_of_lt hlt,
    if_neg hpos.ne']
  exact Option.some_ne_none _

/-- The check is the one of BIP32 unless the left half equals the order. -/
theorem accepted_eq_ckdPriv {old : Bool} {i : UInt32} (h : left H k old i ≠ E.order) :
    accepted H k old i = ckdPriv H k old i := by
  unfold accepted ckdPriv
  by_cases hlt : E.order < left H k old i
  · rw [if_pos hlt, if_pos hlt.le]
  · have hnot : ¬ E.order ≤ left H k old i := by omega
    rw [if_neg hlt, if_neg hnot]

/-- A child exists only for a left half other than the order. -/
theorem left_ne_order_of_ckdPriv {old : Bool} {i : UInt32} {child : Nat × Bytes}
    (h : ckdPriv H k old i = some child) : left H k old i ≠ E.order := by
  intro heq
  unfold ckdPriv at h
  rw [heq, if_pos (le_refl _)] at h
  cases h

/-! ### A run of calls -/

/-- The next index does not wrap below a larger one. -/
theorem toNat_add_one {i j : UInt32} (h : i.toNat < j.toNat) : (i + 1).toNat = i.toNat + 1 := by
  have hj := j.toNat_lt
  have hone : (1 : UInt32).toNat = 1 := rfl
  rw [UInt32.toNat_add, hone]
  exact Nat.mod_eq_of_lt (by omega)

/-- The calls come to the first index that is accepted. -/
theorem deriveRounds_ok (hE : E.Lawful) (hk : k.isPrivate = true) (hdepth : k.depth.toNat < 255)
    {j : UInt32} {child : Nat × Bytes} (hchild : accepted H k false j = some child)
    (distance rounds : Nat) {i : UInt32} (hj : i.toNat + distance = j.toNat)
    (hrounds : distance < rounds)
    (hnone : ∀ l : UInt32, i.toNat ≤ l.toNat → l.toNat < j.toNat → accepted H k false l = none) :
    ∃ k', k.deriveRounds H rounds i false = .ok k' ∧ IsChild H k j child k' := by
  induction distance generalizing rounds i with
  | zero =>
      obtain rfl : i = j := UInt32.toNat_inj.mp hj
      obtain ⟨rounds, rfl⟩ := Nat.exists_eq_succ_of_ne_zero (Nat.ne_of_gt hrounds)
      exact deriveRounds_of_some hE hk hdepth _ hchild
  | succ distance ih =>
      obtain ⟨rounds, rfl⟩ := Nat.exists_eq_succ_of_ne_zero (Nat.ne_of_gt (by omega : 0 < rounds))
      have hnext : (i + 1).toNat = i.toNat + 1 := toNat_add_one (j := j) (by omega)
      have hrest := ih rounds (i := i + 1) (by omega) (by omega)
        (fun l hl hlt => hnone l (by omega) hlt)
      rw [Nat.succ_eq_add_one, deriveRounds_of_none hE hk _ (hnone i (le_refl _) (by omega))]
      exact hrest

/-- What a run of calls returns was accepted, and nothing on the way up to it was. -/
theorem deriveRounds_eq_ok (hE : E.Lawful) (hk : k.isPrivate = true)
    (hdepth : k.depth.toNat < 255) {rounds : Nat} {i : UInt32} {k' : ExtKey E}
    (h : k.deriveRounds H rounds i false = .ok k') :
    ∃ child, accepted H k false k'.index = some child ∧ IsChild H k k'.index child k' ∧
      ∀ l : UInt32, i.toNat ≤ l.toNat → l.toNat < k'.index.toNat →
        accepted H k false l = none := by
  induction rounds generalizing i with
  | zero => cases h
  | succ rounds ih =>
      cases haccepted : accepted H k false i with
      | none =>
          rw [deriveRounds_of_none hE hk _ haccepted] at h
          obtain ⟨child, hchild, hbuilt, hbefore⟩ := ih h
          refine ⟨child, hchild, hbuilt, ?_⟩
          intro l hl hlt
          by_cases hi : l = i
          · rw [hi]
            exact haccepted
          · have hne : i.toNat ≠ l.toNat := fun heq => hi (UInt32.toNat_inj.mp heq.symm)
            have hnext := toNat_add_one (i := i) (j := l) (by omega)
            exact hbefore l (by omega) hlt
      | some child =>
          obtain ⟨k₁, hok, hbuilt⟩ := deriveRounds_of_some hE hk hdepth rounds haccepted
          obtain rfl := Except.ok.inj (hok.symm.trans h)
          obtain rfl : k₁.index = i := hbuilt.index
          refine ⟨child, haccepted, hbuilt, ?_⟩
          intro l hl hlt
          omega

end ExtKey

/-! ### When derivation is BIP32 -/

namespace Bip32

open ExtKey

/-- The condition on the hashes: the left half for the index itself is not the order, and
for a later index that is reached the check, which knows only keys filled up to 32 bytes,
has the outcome of BIP32. -/
structure Regular (k : ExtKey E) (i : UInt32) (old : Bool) : Prop where
  boundary : left H k old i ≠ E.order
  later : ∀ j, Reached H k old i j → i ≠ j → accepted H k false j = ckdPriv H k old j

/-- Every step of a path is regular and has a child. -/
def RegularPath : ExtKey E → List (UInt32 × Bool) → Prop
  | _, [] => True
  | k, (i, old) :: path =>
      (k.depth.toNat < 255 ∧ HasChild H k i old ∧ Regular H k i old) ∧
        ∀ k', Step H k i old k' → RegularPath k' path

/-- `derive` gives the child of BIP32. -/
def Derives (k : ExtKey E) (i : UInt32) (old : Bool) : Prop :=
  ∃ k', k.derive H i old = .ok k' ∧ Step H k i old k'

variable {H} {k : ExtKey E}

/-- With an index that has a child there is a first one. -/
theorem exists_first {i : UInt32} {old : Bool} (h : HasChild H k i old) :
    ∃ j child, Reached H k old i j ∧ ckdPriv H k old j = some child := by
  classical
  obtain ⟨j₀, hle₀, hkind₀, hsome₀⟩ := h
  have hexists : ∃ n, ∃ j : UInt32, j.toNat = n ∧ i.toNat ≤ n ∧
      (ckdPriv H k old j).isSome = true := ⟨j₀.toNat, j₀, rfl, hle₀, hsome₀⟩
  obtain ⟨j, hj, hle, hsome⟩ := Nat.find_spec hexists
  have hfirst : Nat.find hexists ≤ j₀.toNat := Nat.find_min' hexists ⟨j₀, rfl, hle₀, hsome₀⟩
  obtain ⟨child, hchild⟩ := Option.isSome_iff_exists.mp hsome
  refine ⟨j, child, ⟨by omega, ?_, ?_⟩, hchild⟩
  · unfold Hardened at hkind₀ ⊢
    omega
  · intro l hl hlt
    by_contra hne
    have hmin := Nat.find_min hexists (m := l.toNat) (by omega)
    exact hmin ⟨l, rfl, hl, Option.isSome_iff_ne_none.mpr hne⟩

/-- The search starts at its own index. -/
theorem Reached.refl (i : UInt32) (old : Bool) : Reached H k old i i :=
  ⟨le_refl _, Iff.rfl, fun l hl hlt => by omega⟩

/-- What lies before a reached index is reached. -/
theorem Reached.earlier {i j l : UInt32} {old : Bool} (h : Reached H k old i j)
    (hl : i.toNat ≤ l.toNat) (hlt : l.toNat ≤ j.toNat) : Reached H k old i l := by
  have hkind := h.sameKind
  refine ⟨hl, ?_, fun m hm hml => h.before m hm (by omega)⟩
  unfold Hardened at hkind ⊢
  omega

/-- Regular hashes lead to the child of BIP32. -/
theorem derives_of_regular (hE : E.Lawful) (hk : k.isPrivate = true)
    (hdepth : k.depth.toNat < 255) {i : UInt32} {old : Bool} (hchild : HasChild H k i old)
    (h : Regular H k i old) : Derives H k i old := by
  obtain ⟨j, child, hj, hfirst⟩ := exists_first hchild
  have hhere := accepted_eq_ckdPriv h.boundary
  by_cases hij : i = j
  · subst hij
    rw [hfirst] at hhere
    obtain ⟨k', hok, hbuilt⟩ := deriveRounds_of_some hE hk hdepth (2 ^ 32) hhere
    exact ⟨k', hok, i, child, hj, hfirst, hbuilt⟩
  · have hne : i.toNat ≠ j.toNat := fun heq => hij (UInt32.toNat_inj.mp heq)
    have hle := hj.le
    have hlt : i.toNat < j.toNat := by omega
    have hnext := toNat_add_one hlt
    have hbound := j.toNat_lt
    rw [hj.before i (le_refl _) hlt] at hhere
    have haccepted := h.later j hj hij
    rw [hfirst] at haccepted
    have hnone : ∀ l : UInt32, (i + 1).toNat ≤ l.toNat → l.toNat < j.toNat →
        accepted H k false l = none := by
      intro l hl hlj
      have hil : i ≠ l := by
        intro heq
        rw [← heq] at hl
        omega
      rw [h.later l (hj.earlier (by omega) hlj.le) hil]
      exact hj.before l (by omega) hlj
    obtain ⟨k', hok, hbuilt⟩ := deriveRounds_ok (i := i + 1) hE hk hdepth haccepted
      (j.toNat - (i + 1).toNat) (2 ^ 32) (by omega) (by omega) hnone
    refine ⟨k', ?_, j, child, hj, hfirst, hbuilt⟩
    rw [ExtKey.derive, deriveRounds_of_none hE hk _ hhere]
    exact hok

/-- Only regular hashes lead to the child of BIP32. -/
theorem regular_of_derives (hE : E.Lawful) (hk : k.isPrivate = true)
    (hdepth : k.depth.toNat < 255) {i : UInt32} {old : Bool} (h : Derives H k i old) :
    Regular H k i old := by
  obtain ⟨k', hok, j, child, hj, hfirst, hbuilt⟩ := h
  have hindex := hbuilt.index
  rw [ExtKey.derive] at hok
  cases haccepted : accepted H k old i with
  | some child' =>
      -- the index itself is accepted, so that it is the first one
      obtain ⟨k₁, hok₁, hbuilt₁⟩ := deriveRounds_of_some hE hk hdepth (2 ^ 32) haccepted
      obtain rfl := Except.ok.inj (hok₁.symm.trans hok)
      obtain rfl : i = j := hbuilt₁.index.symm.trans hindex
      refine ⟨left_ne_order_of_ckdPriv hfirst, ?_⟩
      intro l hl hil
      have hne : i.toNat ≠ l.toNat := fun heq => hil (UInt32.toNat_inj.mp heq)
      have hle := hl.le
      have hnone := hl.before i (le_refl _) (by omega)
      rw [hfirst] at hnone
      cases hnone
  | none =>
      have hboundary : left H k old i ≠ E.order := fun heq => accepted_ne_none hk heq haccepted
      rw [deriveRounds_of_none hE hk _ haccepted] at hok
      obtain ⟨child', hchild', hbuilt', hnone⟩ := deriveRounds_eq_ok hE hk hdepth hok
      rw [hindex] at hchild' hnone
      refine ⟨hboundary, ?_⟩
      intro l hl hil
      have hne : i.toNat ≠ l.toNat := fun heq => hil (UInt32.toNat_inj.mp heq)
      have hle := hl.le
      rcases Nat.lt_trichotomy l.toNat j.toNat with hlj | heq | hlj
      · have hnext := toNat_add_one (i := i) (j := l) (by omega)
        rw [hnone l (by omega) hlj, hj.before l hle hlj]
      · -- the key that came back is that of the first child
        obtain rfl := UInt32.toNat_inj.mp heq
        rw [hchild', hfirst]
        have hkey := Option.some.inj (hbuilt'.key.symm.trans hbuilt.key)
        have hchain := hbuilt'.chainCode.symm.trans hbuilt.chainCode
        exact congrArg some (Prod.ext hkey hchain)
      · have hgone := hl.before j hj.le hlj
        rw [hfirst] at hgone
        cases hgone

/-- Regular steps lead along the path of BIP32. -/
theorem derivePath_of_regular (hE : E.Lawful) (path : List (UInt32 × Bool)) (k : ExtKey E)
    (hk : k.isPrivate = true) (h : RegularPath H k path) :
    ∃ k', k.derivePath H path = .ok k' ∧ Path H k path k' := by
  induction path generalizing k with
  | nil => exact ⟨k, rfl, .nil k⟩
  | cons step path ih =>
      obtain ⟨i, old⟩ := step
      obtain ⟨⟨hdepth, hchild, hregular⟩, hrest⟩ := h
      obtain ⟨k₁, hok, hstep⟩ := derives_of_regular hE hk hdepth hchild hregular
      have hbuilt := hstep
      obtain ⟨j, child, -, -, hbuilt⟩ := hbuilt
      obtain ⟨k', hpath, hsteps⟩ := ih k₁ hbuilt.isPrivate (hrest k₁ hstep)
      refine ⟨k', ?_, .cons hstep hsteps⟩
      rw [ExtKey.derivePath, List.foldlM_cons, hok]
      exact hpath

/-- Where the serialized key is the one that is filled up, only a left half that equals
the order is in the way: for a normal index, and in the mode of BIP32. -/
theorem regular_iff {i : UInt32} {old : Bool}
    (h : ∀ j, (Hardened j ↔ Hardened i) → hashed k old j = hashed k false j)
    (hk : k.isPrivate = true) :
    Regular H k i old ↔ ∀ j, Reached H k old i j → left H k old j ≠ E.order := by
  have hleft : ∀ j, (Hardened j ↔ Hardened i) → left H k old j = left H k false j := fun j hj => by
    rw [left, left, h j hj]
  have hckd : ∀ j, (Hardened j ↔ Hardened i) → ckdPriv H k old j = ckdPriv H k false j := by
    intro j hj
    unfold ckdPriv left right
    rw [h j hj]
  constructor
  · intro hregular j hj heq
    by_cases hij : i = j
    · subst hij
      exact hregular.boundary heq
    · have hlater := hregular.later j hj hij
      rw [ckdPriv, if_pos heq.ge] at hlater
      rw [hleft j hj.sameKind] at heq
      exact accepted_ne_none hk heq hlater
  · intro hne
    refine ⟨hne i (Reached.refl i old), ?_⟩
    intro j hj _
    have hj' := hne j hj
    rw [hleft j hj.sameKind] at hj'
    rw [hckd j hj.sameKind]
    exact accepted_eq_ckdPriv hj'

/-- **When derivation is BIP32.**  For a private key and an index with some child of its
kind, `derive` gives the child of BIP32 exactly if the hashes are regular; and along a
path of regular steps it gives the composition of the steps. -/
theorem derive_iff (hE : E.Lawful) :
    (∀ (k : ExtKey E) (i : UInt32) (old : Bool), k.isPrivate = true → k.depth.toNat < 255 →
      HasChild H k i old → (Derives H k i old ↔ Regular H k i old)) ∧
    (∀ (k : ExtKey E) (path : List (UInt32 × Bool)), k.isPrivate = true →
      RegularPath H k path → ∃ k', k.derivePath H path = .ok k' ∧ Path H k path k') := by
  refine ⟨?_, fun k path hk h => derivePath_of_regular hE path k hk h⟩
  intro k i old hk hdepth hchild
  exact ⟨regular_of_derives hE hk hdepth, derives_of_regular hE hk hdepth hchild⟩

/-- The left half of the sample hash. -/
theorem left_hashesOf {f : Bytes → Nat} {k : ExtKey E} {old : Bool} {i : UInt32}
    (h : f (hashed k old i) < 256 ^ 32) : left (hashesOf f) k old i = f (hashed k old i) := by
  unfold left hashesOf
  dsimp only
  rw [List.take_left' (BigEndian.length_bytes _ _), BigEndian.value_bytes_of_lt h]

/-- The right half of the sample hash. -/
theorem right_hashesOf (f : Bytes → Nat) (k : ExtKey E) (old : Bool) (i : UInt32) :
    right (hashesOf f) k old i = List.replicate 32 0 := by
  unfold right hashesOf
  dsimp only
  rw [List.drop_left' (BigEndian.length_bytes _ _)]

/-- A left half above the order at an index that ends with 0, and one behind it. -/
def refusalHash (data : Bytes) : Nat :=
  if data.getLast? = some 0 then sampleCurve.order + 1 else 1

/-- The sample hash refuses one index. -/
theorem left_refusalHash (k : ExtKey sampleCurve) (old : Bool) (i : UInt32) :
    left (hashesOf refusalHash) k old i = refusalHash (hashed k old i) := by
  refine left_hashesOf ?_
  unfold refusalHash
  split <;> norm_num [sampleCurve]

/-- A child has the left half one. -/
theorem ckdPriv_refusalHash {k : ExtKey sampleCurve} {i : UInt32} {child : Nat × Bytes}
    (h : ckdPriv (hashesOf refusalHash) k false i = some child) :
    child.1 = (1 + secret k) % sampleCurve.order := by
  unfold ckdPriv at h
  rw [left_refusalHash, refusalHash] at h
  split_ifs at h with hzero hrefused hsum <;> cases h
  · omega
  · rfl

/-- The index 0 is refused, and the next one has a child if the number is not the last. -/
theorem regular_refusalHash {k : ExtKey sampleCurve} (hk : k.isPrivate = true)
    (hsecret : secret k + 1 < sampleCurve.order) :
    ckdPriv (hashesOf refusalHash) k false 0 = none ∧
      HasChild (hashesOf refusalHash) k 0 false ∧ Regular (hashesOf refusalHash) k 0 false := by
  have hlast : ∀ i : UInt32, ¬ Hardened i →
      (hashed k false i).getLast? = (BigEndian.bytes 4 i.toNat).getLast? := by
    intro i hi
    rw [hashed, if_neg hi]
    exact List.getLast?_append_of_ne_nil _ (by simp [← List.length_pos_iff, BigEndian.length_bytes])
  refine ⟨?_, ⟨1, by decide, by decide, ?_⟩, (regular_iff (fun _ _ => rfl) hk).mpr ?_⟩
  · have hleft : left (hashesOf refusalHash) k false 0 = sampleCurve.order + 1 := by
      rw [left_refusalHash, refusalHash, hlast 0 (by decide)]
      rfl
    rw [ckdPriv, if_pos (hleft ▸ Nat.le_succ _)]
  · have hleft : left (hashesOf refusalHash) k false 1 = 1 := by
      rw [left_refusalHash, refusalHash, hlast 1 (by decide)]
      rfl
    have hone : ¬ sampleCurve.order ≤ 1 := not_le.mpr sampleCurve_lawful.one_lt_order
    rw [ckdPriv, hleft, if_neg hone, if_neg ?_]
    · rfl
    · rw [Nat.mod_eq_of_lt (by omega)]
      omega
  · intro j _
    rw [left_refusalHash, refusalHash]
    have hone := sampleCurve_lawful.one_lt_order
    split <;> omega

/-- The index 0 is refused at both steps of a path: the number five has the child six under
the index 1, and that the child seven. -/
theorem derive_sample :
    ckdPriv (hashesOf refusalHash) ExtKey.sample false 0 = none ∧
      Derives (hashesOf refusalHash) ExtKey.sample 0 false ∧
      ∃ k', ExtKey.sample.derivePath (hashesOf refusalHash) [(0, false), (0, false)] = .ok k' ∧
        Path (hashesOf refusalHash) ExtKey.sample [(0, false), (0, false)] k' := by
  have hfive : secret ExtKey.sample = 5 := rfl
  have hsmall : 7 < sampleCurve.order := by norm_num [sampleCurve]
  obtain ⟨hnone, hchild, hregular⟩ :=
    regular_refusalHash (k := ExtKey.sample) rfl (by omega)
  obtain ⟨hderive, hpath⟩ := derive_iff (H := hashesOf refusalHash) sampleCurve_lawful
  refine ⟨hnone, (hderive _ _ _ rfl (by decide) hchild).mpr hregular, hpath _ _ rfl ?_⟩
  refine ⟨⟨by decide, hchild, hregular⟩, fun k₁ hstep => ⟨⟨?_, ?_⟩, fun _ _ => trivial⟩⟩
  · obtain ⟨j, child, -, -, hbuilt⟩ := hstep
    rw [hbuilt.depth]
    decide
  · obtain ⟨j, child, -, hfirst, hbuilt⟩ := hstep
    have hsix : secret k₁ = 6 := by
      rw [secret_eq hbuilt.key, ckdPriv_refusalHash hfirst, hfive, Nat.mod_eq_of_lt (by omega)]
    exact (regular_refusalHash hbuilt.isPrivate (by omega)).2

/-- A left half that equals the order at index 0. -/
def boundaryHash (data : Bytes) : Nat :=
  if data.getLast? = some 0 then sampleCurve.order else 1

/-- A left half above the order at an index that ends with 0; behind it the unpadded key
of one byte is hashed to one and the padded key to two. -/
def modeHash (data : Bytes) : Nat :=
  if data.getLast? = some 0 then sampleCurve.order + 1 else if data.length = 6 then 1 else 2

/-- The child of index 0 is taken with a left half that BIP32 refuses; and after a refused
index the old mode is lost. -/
theorem not_derives :
    (HasChild (hashesOf boundaryHash) ExtKey.sample 0 false ∧
      ¬ Derives (hashesOf boundaryHash) ExtKey.sample 0 false) ∧
    HasChild (hashesOf modeHash) ExtKey.sample HIGHEST_BIT true ∧
      ¬ Derives (hashesOf modeHash) ExtKey.sample HIGHEST_BIT true := by
  refine ⟨⟨⟨1, by decide, by decide, ?_⟩, ?_⟩, ⟨HIGHEST_BIT + 1, by decide, by decide, ?_⟩, ?_⟩
  · have hleft : left (hashesOf boundaryHash) ExtKey.sample false 1 = 1 :=
      (left_hashesOf (by decide +kernel)).trans (by decide +kernel)
    unfold ckdPriv
    rw [hleft]
    decide +kernel
  · intro h
    have hregular := regular_of_derives sampleCurve_lawful rfl (by decide) h
    apply hregular.boundary
    exact (left_hashesOf (by decide +kernel)).trans (by decide +kernel)
  · have hleft : left (hashesOf modeHash) ExtKey.sample true (HIGHEST_BIT + 1) = 1 :=
      (left_hashesOf (by decide +kernel)).trans (by decide +kernel)
    unfold ckdPriv
    rw [hleft]
    decide +kernel
  · intro h
    have hregular := regular_of_derives sampleCurve_lawful rfl (by decide) h
    have hfirst : left (hashesOf modeHash) ExtKey.sample true HIGHEST_BIT =
        sampleCurve.order + 1 := (left_hashesOf (by decide +kernel)).trans (by decide +kernel)
    have hleft : left (hashesOf modeHash) ExtKey.sample true (HIGHEST_BIT + 1) = 1 :=
      (left_hashesOf (by decide +kernel)).trans (by decide +kernel)
    have hpadded : left (hashesOf modeHash) ExtKey.sample false (HIGHEST_BIT + 1) = 2 :=
      (left_hashesOf (by decide +kernel)).trans (by decide +kernel)
    have hreached : Reached (hashesOf modeHash) ExtKey.sample true HIGHEST_BIT
        (HIGHEST_BIT + 1) := by
      refine ⟨by decide, by decide, ?_⟩
      intro l hl hlt
      have hnext : (HIGHEST_BIT + 1).toNat = HIGHEST_BIT.toNat + 1 := by decide
      obtain rfl : l = HIGHEST_BIT := UInt32.toNat_inj.mp (by omega)
      unfold ckdPriv
      rw [hfirst, if_pos (Nat.le_succ _)]
    have hlater := hregular.later _ hreached (by decide)
    unfold accepted ckdPriv at hlater
    rw [hleft, hpadded, right_hashesOf, right_hashesOf] at hlater
    exact absurd hlater (by decide +kernel)

end Bip32

end PrivmxEndpoint
