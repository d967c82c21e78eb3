import Mathlib.Data.Nat.Bits
import Mathlib.Tactic.Ring

/-!
# Numbers of one width as a sequence of bits

Numbers below a power of two are written one behind the other, each with its most
significant bit first, and the sequence is cut into groups of another width.  Cutting a
sequence into groups of the width that it was written in gives the numbers back, and
writing the groups gives the sequence back.
-/

namespace BitPacking

/-- The last `w` bits of a number, the most significant one first. -/
def bits : Nat → Nat → List Bool
  | 0, _ => []
  | w + 1, n => n.testBit w :: bits w n

/-- The number that bits stand for. -/
def value (l : List Bool) : Nat :=
  l.foldl (fun n b => 2 * n + b.toNat) 0

/-- The first `k` groups of `w` bits, as numbers. -/
def groups (w : Nat) : Nat → List Bool → List Nat
  | 0, _ => []
  | k + 1, l => value (l.take w) :: groups w k (l.drop w)

@[simp] theorem length_bits (w n : Nat) : (bits w n).length = w := by
  induction w with
  | zero => rfl
  | succ w ih => rw [bits, List.length_cons, ih]

@[simp] theorem length_groups (w k : Nat) (l : List Bool) : (groups w k l).length = k := by
  induction k generalizing l with
  | zero => rfl
  | succ k ih => rw [groups, List.length_cons, ih]

/-- Words of one width make their number times the width. -/
theorem length_flatMap_bits (w : Nat) (ns : List Nat) :
    (ns.flatMap (bits w)).length = w * ns.length := by
  induction ns with
  | nil => rfl
  | cons n ns ih =>
      rw [List.flatMap_cons, List.length_append, length_bits, ih, List.length_cons]
      ring

/-! ### One number -/

/-- The value with a start in front. -/
theorem foldl_value (l : List Bool) (n : Nat) :
    l.foldl (fun n b => 2 * n + b.toNat) n = n * 2 ^ l.length + value l := by
  induction l generalizing n with
  | nil => simp [value]
  | cons b l ih =>
      have hb := ih (2 * 0 + b.toNat)
      rw [value, List.foldl_cons, List.foldl_cons, ih, hb, List.length_cons]
      ring

/-- The first bit weighs most. -/
theorem value_cons (b : Bool) (l : List Bool) :
    value (b :: l) = b.toNat * 2 ^ l.length + value l := by
  rw [value, List.foldl_cons, foldl_value, Nat.mul_zero, Nat.zero_add]

/-- The last bit weighs one. -/
theorem value_append_singleton (l : List Bool) (b : Bool) :
    value (l ++ [b]) = 2 * value l + b.toNat := by
  rw [value, List.foldl_append]
  rfl

/-- So many bits hold no larger number. -/
theorem value_lt (l : List Bool) : value l < 2 ^ l.length := by
  induction l with
  | nil => exact Nat.one_pos
  | cons b l ih =>
      rw [value_cons, List.length_cons, pow_succ]
      cases b with
      | false => rw [Bool.toNat_false]; omega
      | true => rw [Bool.toNat_true]; omega

/-- Zeros have the value zero. -/
theorem value_replicate_false (k : Nat) : value (List.replicate k false) = 0 := by
  induction k with
  | zero => rfl
  | succ k ih => rw [List.replicate_succ, value_cons, ih, Bool.toNat_false, Nat.zero_mul]

/-- Bits see a number up to a power of two. -/
theorem bits_congr {w n m : Nat} (h : ∀ i < w, n.testBit i = m.testBit i) :
    bits w n = bits w m := by
  induction w with
  | zero => rfl
  | succ w ih =>
      rw [bits, bits, h w (Nat.lt_succ_self w), ih fun i hi => h i (Nat.lt_succ_of_lt hi)]

/-- The bits of a number hold it modulo their range. -/
theorem value_bits (w n : Nat) : value (bits w n) = n % 2 ^ w := by
  induction w with
  | zero => rw [pow_zero, Nat.mod_one]; rfl
  | succ w ih =>
      rw [bits, value_cons, ih, length_bits, Nat.mod_pow_succ, Nat.toNat_testBit]
      ring

/-- A number within the range is held exactly. -/
theorem value_bits_of_lt {w n : Nat} (h : n < 2 ^ w) : value (bits w n) = n := by
  rw [value_bits, Nat.mod_eq_of_lt h]

/-- And bits are the bits of their value. -/
theorem bits_value (l : List Bool) : bits l.length (value l) = l := by
  induction l with
  | nil => rfl
  | cons b l ih =>
      have hlow : ∀ i < l.length, (value (b :: l)).testBit i = (value l).testBit i := by
        intro i hi
        rw [value_cons, Nat.mul_comm, Nat.testBit_two_pow_mul_add _ (value_lt l), if_pos hi]
      have hhigh : (value (b :: l)).testBit l.length = b := by
        rw [value_cons, Nat.mul_comm, Nat.testBit_two_pow_mul_add _ (value_lt l),
          if_neg (lt_irrefl _), Nat.sub_self]
        cases b with
        | false => rfl
        | true => rfl
      rw [List.length_cons, bits, hhigh, bits_congr hlow, ih]

/-! ### Many numbers -/

/-- **Cutting** what was written in groups of one width. -/
theorem groups_flatMap_bits {w : Nat} {ns : List Nat} (h : ∀ n ∈ ns, n < 2 ^ w)
    (rest : List Bool) : groups w ns.length (ns.flatMap (bits w) ++ rest) = ns := by
  induction ns with
  | nil => rfl
  | cons n ns ih =>
      have hlength : (bits w n).length = w := length_bits w n
      rw [List.length_cons, groups, List.flatMap_cons, List.append_assoc,
        List.take_left' hlength, List.drop_left' hlength,
        value_bits_of_lt (h n List.mem_cons_self), ih fun m hm => h m (List.mem_cons_of_mem n hm)]

/-- **Writing** what was cut into groups. -/
theorem flatMap_groups {w k : Nat} {l : List Bool} (h : w * k ≤ l.length) :
    (groups w k l).flatMap (bits w) = l.take (w * k) := by
  induction k generalizing l with
  | zero => simp [groups]
  | succ k ih =>
      rw [Nat.mul_succ] at h
      have hlength : (l.take w).length = w := by
        rw [List.length_take, Nat.min_eq_left (by omega)]
      have hfirst : bits w (value (l.take w)) = l.take w := by
        have hbits := bits_value (l.take w)
        rw [hlength] at hbits
        exact hbits
      rw [groups, List.flatMap_cons, hfirst, ih (by rw [List.length_drop]; omega), Nat.mul_succ,
        Nat.add_comm, List.take_add]

/-- The groups are numbers of their width. -/
theorem groups_lt {w k : Nat} {l : List Bool} (h : w * k ≤ l.length) :
    ∀ n ∈ groups w k l, n < 2 ^ w := by
  induction k generalizing l with
  | zero => intro n hn; exact absurd hn List.not_mem_nil
  | succ k ih =>
      rw [Nat.mul_succ] at h
      intro n hn
      rcases List.mem_cons.mp hn with hn | hn
      · have hlt := value_lt (l.take w)
        rw [List.length_take, Nat.min_eq_left (by omega)] at hlt
        rw [hn]
        exact hlt
      · exact ih (by rw [List.length_drop]; omega) n hn

end BitPacking
