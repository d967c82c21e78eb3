import Mathlib.Data.Nat.Digits.Defs
import Mathlib.Data.Nat.Digits.Lemmas
import PrivmxEndpoint.JsonText

/-!
# Decimal numbers

The text of an integer is a number of the grammar of JSON, and it is read back.
-/

namespace JsonText

def digitByte (d : ℕ) : UInt8 := UInt8.ofNat (0x30 + d)

def digitValue (b : UInt8) : ℕ := b.toNat - 0x30

/-- A digit is written as one. -/
theorem isDigit_digitByte : ∀ d < 10, isDigit (digitByte d) = true := by decide

/-- It is read back. -/
theorem digitValue_digitByte : ∀ d < 10, digitValue (digitByte d) = d := by decide

/-- Only zero is written as zero. -/
theorem digitByte_eq_zero_iff : ∀ d < 10, digitByte d = 0x30 ↔ d = 0 := by decide

/-- No digit is a minus. -/
theorem digitByte_ne_minus : ∀ d < 10, digitByte d ≠ 0x2d := by decide

/-- The digits, the first one in front. -/
def natText (n : ℕ) : List UInt8 :=
  if n = 0 then [0x30] else ((Nat.digits 10 n).map digitByte).reverse

def intText (n : ℤ) : List UInt8 :=
  if n < 0 then 0x2d :: natText n.natAbs else natText n.natAbs

def natValue (t : List UInt8) : ℕ := Nat.ofDigits 10 (t.reverse.map digitValue)

def intValue : List UInt8 → ℤ
  | [] => 0
  | b :: t => if b = 0x2d then -(natValue t : ℤ) else natValue (b :: t)

/-- Digits in front of which no digit is zero stay a whole number. -/
theorem foldlM_whole {t : List UInt8} (h : ∀ b ∈ t, isDigit b = true) :
    t.foldlM NumberState.next .whole = some .whole := by
  induction t with
  | nil => rfl
  | cons b t ih =>
      rw [List.foldlM_cons, NumberState.next, if_pos (h b List.mem_cons_self)]
      exact ih fun c hc => h c (List.mem_cons_of_mem _ hc)

/-- The text of a positive number starts with a digit other than zero. -/
theorem natText_of_ne_zero {n : ℕ} (hn : n ≠ 0) :
    ∃ d t, natText n = digitByte d :: t ∧ d ≠ 0 ∧ d < 10 ∧ ∀ b ∈ t, isDigit b = true := by
  have hne : Nat.digits 10 n ≠ [] := Nat.digits_ne_nil_iff_ne_zero.mpr hn
  have hlt : ∀ d ∈ Nat.digits 10 n, d < 10 := fun d hd => Nat.digits_lt_base (by decide) hd
  have hsplit : Nat.digits 10 n =
      (Nat.digits 10 n).dropLast ++ [(Nat.digits 10 n).getLast hne] :=
    (List.dropLast_append_getLast hne).symm
  refine ⟨(Nat.digits 10 n).getLast hne, ((Nat.digits 10 n).dropLast.map digitByte).reverse,
    ?_, Nat.getLast_digit_ne_zero 10 hn, hlt _ (List.getLast_mem hne), ?_⟩
  · rw [natText, if_neg hn]
    conv_lhs => rw [hsplit]
    simp
  · intro b hb
    obtain ⟨d, hd, rfl⟩ := List.mem_map.mp (List.mem_reverse.mp hb)
    exact isDigit_digitByte d (hlt d (List.dropLast_subset _ hd))

/-- A number starts with another digit than zero. -/
theorem firstDigit_of_ne_zero {d : ℕ} (hd : d < 10) (hzero : d ≠ 0) :
    NumberState.firstDigit (digitByte d) = some .whole := by
  rw [NumberState.firstDigit, if_neg fun h => hzero ((digitByte_eq_zero_iff d hd).mp h),
    if_pos (isDigit_digitByte d hd)]

/-- An integer is written as a number. -/
theorem isNumber_intText (n : ℤ) : isNumber (intText n) = true := by
  by_cases hn : n = 0
  · subst hn
    decide
  · obtain ⟨d, t, htext, hzero, hd, ht⟩ := natText_of_ne_zero (Int.natAbs_ne_zero.mpr hn)
    have hwhole := foldlM_whole ht
    rw [isNumber, intText, htext]
    split
    · show (NumberState.firstDigit (digitByte d) >>= fun s =>
        t.foldlM NumberState.next s).any _ = true
      rw [firstDigit_of_ne_zero hd hzero]
      exact congrArg (Option.any _) hwhole
    · rw [List.foldlM_cons, NumberState.next, if_neg (digitByte_ne_minus d hd),
        firstDigit_of_ne_zero hd hzero]
      exact congrArg (Option.any _) hwhole

/-- The number that is printed for an integer. -/
def wholeNumber (n : ℤ) : Number where
  text := intText n
  isNumber_text := isNumber_intText n

/-- A natural number is read back. -/
theorem natValue_natText (n : ℕ) : natValue (natText n) = n := by
  unfold natText natValue
  split
  · rename_i hn
    subst hn
    rfl
  · have hvalues : (Nat.digits 10 n).map (digitValue ∘ digitByte) = Nat.digits 10 n := by
      conv_rhs => rw [← List.map_id (Nat.digits 10 n)]
      refine List.map_congr_left fun d hd => ?_
      exact digitValue_digitByte d (Nat.digits_lt_base (by decide) hd)
    rw [List.reverse_reverse, List.map_map, hvalues, Nat.ofDigits_digits]

/-- An integer is read back with its sign. -/
theorem intValue_wholeNumber (n : ℤ) : intValue (wholeNumber n).text = n := by
  show intValue (intText n) = n
  unfold intText
  split
  · rename_i hneg
    rw [intValue, if_pos rfl, natValue_natText]
    omega
  · rename_i hpos
    by_cases hn : n = 0
    · subst hn
      rfl
    · obtain ⟨d, t, htext, -, hd, -⟩ := natText_of_ne_zero (Int.natAbs_ne_zero.mpr hn)
      rw [htext, intValue, if_neg (digitByte_ne_minus d hd), ← htext, natValue_natText]
      omega

end JsonText
