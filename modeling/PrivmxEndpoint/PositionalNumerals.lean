import Mathlib

/-!
# Numerals in any base

A numeral is a list of digits, the most significant one first.  `numeral b n` has
no leading zeros, so that a list of digits is determined by its value and by the
number of its leading zeros.  `rebase` changes the base of a numeral and keeps its
leading zeros; going to another base and back is the identity (`rebase_rebase`).
-/

namespace Numeral

variable {b c : Nat} {ds : List Nat}

/-- The number that a list of digits stands for. -/
def value (b : Nat) (ds : List Nat) : Nat :=
  ds.foldl (fun n d => n * b + d) 0

/-- The digits of a number, none for zero. -/
def numeral (b n : Nat) : List Nat :=
  (Nat.digits b n).reverse

def leadingZeros (ds : List Nat) : Nat :=
  (ds.takeWhile (· = 0)).length

/-- The digits from the first one on that is not zero. -/
def significant (ds : List Nat) : List Nat :=
  ds.dropWhile (· = 0)

/-- The same number in another base, behind the same number of zeros. -/
def rebase (b c : Nat) (ds : List Nat) : List Nat :=
  List.replicate (leadingZeros ds) 0 ++ numeral c (value b ds)

theorem value_eq_ofDigits (b : Nat) (ds : List Nat) :
    value b ds = Nat.ofDigits b ds.reverse := by
  rw [Nat.ofDigits_eq_foldr, List.foldr_reverse, value]
  congr 1
  funext n d
  simp only [Nat.cast_id]
  ring

theorem zeros_append_significant (ds : List Nat) :
    List.replicate (leadingZeros ds) 0 ++ significant ds = ds := by
  have hzeros : ds.takeWhile (· = 0) = List.replicate (leadingZeros ds) 0 := by
    apply List.eq_replicate_of_mem
    intro d hd
    simpa using List.mem_takeWhile_imp hd
  rw [← hzeros]
  exact List.takeWhile_append_dropWhile

theorem head_significant_ne_zero (h : significant ds ≠ []) : (significant ds).head h ≠ 0 := by
  have hhead := List.head_dropWhile_not (fun d : Nat => decide (d = 0)) h
  exact of_decide_eq_false hhead

@[simp] theorem value_zeros_append (b k : Nat) (ds : List Nat) :
    value b (List.replicate k 0 ++ ds) = value b ds := by
  rw [value_eq_ofDigits, value_eq_ofDigits, List.reverse_append, List.reverse_replicate,
    Nat.ofDigits_append_replicate_zero]

@[simp] theorem value_numeral (b n : Nat) : value b (numeral b n) = n := by
  rw [value_eq_ofDigits, numeral, List.reverse_reverse, Nat.ofDigits_digits]

theorem lt_of_mem_numeral {n d : Nat} (hb : 1 < b) (h : d ∈ numeral b n) : d < b :=
  Nat.digits_lt_base hb (List.mem_reverse.mp h)

/-- A numeral is found from its value, up to the leading zeros. -/
theorem numeral_value (hb : 1 < b) (hds : ∀ d ∈ ds, d < b) :
    numeral b (value b ds) = significant ds := by
  have hvalue : value b ds = value b (significant ds) := by
    have h := value_zeros_append b (leadingZeros ds) (significant ds)
    rwa [zeros_append_significant] at h
  rw [hvalue, value_eq_ofDigits, numeral, Nat.digits_ofDigits b hb]
  · exact List.reverse_reverse _
  · intro d hd
    exact hds d (List.dropWhile_sublist _ |>.subset (List.mem_reverse.mp hd))
  · intro h
    rw [List.getLast_reverse]
    exact head_significant_ne_zero _

theorem significant_numeral (b n : Nat) : significant (numeral b n) = numeral b n := by
  by_cases hn : n = 0
  · subst hn
    simp [numeral, significant]
  · have hne : numeral b n ≠ [] := by
      simpa [numeral, Nat.digits_eq_nil_iff_eq_zero] using hn
    obtain ⟨d, ds, hcons⟩ := List.exists_cons_of_ne_nil hne
    have hd : d ≠ 0 := by
      have hlast := Nat.getLast_digit_ne_zero b hn
      have hhead : (numeral b n).head hne = d := by simp [hcons]
      have hswap : (numeral b n).head hne =
          (Nat.digits b n).getLast (Nat.digits_ne_nil_iff_ne_zero.mpr hn) :=
        List.head_reverse _
      rw [← hhead, hswap]
      exact hlast
    simp [hcons, significant, hd]

/-- The zeros put before a numeral are all that it begins with. -/
theorem leadingZeros_zeros_append (b k n : Nat) :
    leadingZeros (List.replicate k 0 ++ numeral b n) = k := by
  have hnone : (numeral b n).takeWhile (· = 0) = [] := by
    have h := List.takeWhile_append_dropWhile (p := (fun d : Nat => decide (d = 0)))
      (l := numeral b n)
    have hsig := significant_numeral b n
    unfold significant at hsig
    rw [hsig] at h
    exact List.append_left_eq_self.mp h
  rw [leadingZeros, List.takeWhile_append_of_pos, List.length_append, hnone]
  · simp
  · intro d hd
    simpa using List.eq_of_mem_replicate hd

theorem value_eq_zero_iff (hb : 0 < b) : value b ds = 0 ↔ ∀ d ∈ ds, d = 0 := by
  constructor
  · intro h d hd
    rw [value_eq_ofDigits] at h
    exact Nat.digits_zero_of_eq_zero hb.ne' h d (List.mem_reverse.mpr hd)
  · intro h
    have hzeros := List.eq_replicate_of_mem h
    have hvalue := value_zeros_append b ds.length []
    rw [List.append_nil, ← hzeros] at hvalue
    exact hvalue

/-- Nothing is lost in another base. -/
theorem rebase_rebase (hb : 1 < b) (hds : ∀ d ∈ ds, d < b) :
    rebase c b (rebase b c ds) = ds := by
  rw [rebase, rebase, leadingZeros_zeros_append, value_zeros_append, value_numeral,
    numeral_value hb hds, zeros_append_significant]

end Numeral
