import Mathlib

/-!
# Fixed-width integers over the natural numbers

Sizes and positions are natural numbers; where a value is narrowed to 32 bits,
wraps at 64 bits or is reinterpreted as a signed 64-bit integer, one of the
conversions below is applied.  Each comes with the range in which it is the
identity, so that a proof leaves the conversions as soon as it has a bound.
-/

namespace Word

/-- The value kept by a conversion to a 32-bit unsigned integer. -/
def u32 (n : Nat) : Nat := n % 2 ^ 32

/-- The value kept by a conversion to a 64-bit unsigned integer. -/
def u64 (n : Nat) : Nat := n % 2 ^ 64

/-- Subtraction of 64-bit unsigned integers. -/
def sub64 (a b : Nat) : Nat := u64 (a + 2 ^ 64 - b)

/-- The signed 64-bit integer with the same bits. -/
def toInt64 (n : Nat) : Int :=
  if u64 n < 2 ^ 63 then (u64 n : Int) else (u64 n : Int) - 2 ^ 64

/-- A signed 64-bit integer read as an unsigned one. -/
def ofInt64 (z : Int) : Nat := (z % 2 ^ 64).toNat

/-- The signed 32-bit integer with the same bits. -/
def toInt32 (n : Nat) : Int :=
  if u32 n < 2 ^ 31 then (u32 n : Int) else (u32 n : Int) - 2 ^ 32

/-- A signed integer read as an unsigned one of 32 bits. -/
def ofInt32 (z : Int) : Nat := (z % 2 ^ 32).toNat

/-- A signed change added to a 64-bit unsigned counter. -/
def addInt64 (n : Nat) (d : Int) : Nat := ofInt64 ((n : Int) + d)

/-- A sum or a product, if it fits in a 64-bit unsigned integer. -/
def checked (n : Nat) : Option Nat := if n < 2 ^ 64 then some n else none

/-- A difference, if a 64-bit unsigned integer holds it. -/
def checkedSub (a b : Nat) : Option Nat := if b ≤ a then some (a - b) else none

@[simp] theorem checked_eq_some {n m : Nat} : checked n = some m ↔ n < 2 ^ 64 ∧ n = m := by
  unfold checked
  split <;> simp_all

@[simp] theorem checkedSub_eq_some {a b m : Nat} :
    checkedSub a b = some m ↔ b ≤ a ∧ a - b = m := by
  unfold checkedSub
  split <;> simp_all

/-- A small number is kept in 32 bits. -/
theorem u32_of_lt {n : Nat} (h : n < 2 ^ 32) : u32 n = n := Nat.mod_eq_of_lt h

/-- So it is in 64 bits. -/
theorem u64_of_lt {n : Nat} (h : n < 2 ^ 64) : u64 n = n := Nat.mod_eq_of_lt h

/-- A difference that is not negative does not wrap. -/
theorem sub64_of_le {a b : Nat} (hb : b ≤ a) (ha : a < 2 ^ 64) : sub64 a b = a - b := by
  unfold sub64 u64
  have h : a + 2 ^ 64 - b = (a - b) + 2 ^ 64 := by omega
  rw [h, Nat.add_mod_right, Nat.mod_eq_of_lt (by omega)]

/-- A small number keeps its value as a signed one. -/
theorem toInt64_of_lt {n : Nat} (h : n < 2 ^ 63) : toInt64 n = n := by
  have hu : u64 n = n := u64_of_lt (by omega)
  rw [toInt64, hu, if_pos h]

/-- And it comes back. -/
theorem ofInt64_natCast {n : Nat} (h : n < 2 ^ 64) : ofInt64 n = n := by
  unfold ofInt64
  omega

/-- The two casts to 32 bits and back leave the lower bits. -/
theorem ofInt32_toInt32 (n : Nat) : ofInt32 (toInt32 n) = u32 n := by
  have hlt : u32 n < 2 ^ 32 := Nat.mod_lt _ (by decide)
  unfold ofInt32 toInt32
  by_cases h : u32 n < 2 ^ 31
  · rw [if_pos h]
    omega
  · rw [if_neg h]
    omega

/-- A small number keeps its value in 32 signed bits. -/
theorem toInt32_of_lt {n : Nat} (h : n < 2 ^ 31) : toInt32 n = n := by
  have hu : u32 n = n := u32_of_lt (by omega)
  rw [toInt32, hu, if_pos h]

/-- Two steps are one. -/
theorem addInt64_addInt64 (n : Nat) (d e : Int) :
    addInt64 (addInt64 n d) e = addInt64 n (d + e) := by
  unfold addInt64 ofInt64
  omega

/-- Accumulating signed changes in an unsigned counter gives the sum of all of
them, whatever the counter did in between. -/
theorem foldl_addInt64 {n : Nat} (hn : n < 2 ^ 64) (ds : List Int) :
    ds.foldl addInt64 n = addInt64 n ds.sum := by
  induction ds generalizing n with
  | nil =>
      unfold addInt64 ofInt64
      simp only [List.foldl_nil, List.sum_nil]
      omega
  | cons d ds ih =>
      have hlt : addInt64 n d < 2 ^ 64 := by
        unfold addInt64 ofInt64
        omega
      rw [List.foldl_cons, ih hlt, addInt64_addInt64, List.sum_cons]

/-- A counter that received all its changes holds the true value. -/
theorem addInt64_eq {n m : Nat} {d : Int} (hm : m < 2 ^ 64) (h : (n : Int) + d = m) :
    addInt64 n d = m := by
  rw [addInt64, h, ofInt64_natCast hm]

end Word
