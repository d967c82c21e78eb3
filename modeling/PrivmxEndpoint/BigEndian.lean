import Mathlib

/-!
# Numbers as big-endian bytes

The lowest `k` bytes of a number, most significant byte first, and the number
that a string of bytes stands for.  Reading what was written gives the number
back modulo `256 ^ k`.
-/

namespace BigEndian

/-- The lowest `k` bytes of a number, most significant byte first. -/
def bytes : Nat → Nat → List UInt8
  | 0, _ => []
  | k + 1, n => bytes k (n / 256) ++ [UInt8.ofNat n]

/-- The number that a string of bytes stands for. -/
def value (bs : List UInt8) : Nat :=
  bs.foldl (fun n b => n * 256 + b.toNat) 0

@[simp] theorem length_bytes (k n : Nat) : (bytes k n).length = k := by
  induction k generalizing n with
  | zero => rfl
  | succ k ih => rw [bytes, List.length_append, ih, List.length_singleton]

theorem value_append_singleton (bs : List UInt8) (b : UInt8) :
    value (bs ++ [b]) = value bs * 256 + b.toNat := by
  rw [value, List.foldl_append]
  rfl

theorem value_bytes (k n : Nat) : value (bytes k n) = n % 256 ^ k := by
  induction k generalizing n with
  | zero => rw [pow_zero, Nat.mod_one]; rfl
  | succ k ih =>
      have hlow : (UInt8.ofNat n).toNat = n % 256 := UInt8.toNat_ofNat'
      have hsplit := Nat.mod_mul (x := n) (a := 256) (b := 256 ^ k)
      rw [bytes, value_append_singleton, ih, hlow, pow_succ', hsplit, Nat.mul_comm 256]
      exact Nat.add_comm _ _

theorem value_bytes_of_lt {k n : Nat} (h : n < 256 ^ k) : value (bytes k n) = n := by
  rw [value_bytes, Nat.mod_eq_of_lt h]

end BigEndian
