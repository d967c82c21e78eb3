import Mathlib.Tactic.Common

/-!
# Base64

Three bytes are written as four letters of an alphabet of 64.  A last group of one or two
bytes is filled up with the padding `=`.
-/

namespace Base64

/-- The letter of a digit. -/
def letter (digit : Nat) : UInt8 :=
  if digit < 26 then UInt8.ofNat (65 + digit)
  else if digit < 52 then UInt8.ofNat (71 + digit)
  else if digit < 62 then UInt8.ofNat (digit - 4)
  else if digit = 62 then 43
  else 47

/-- The digit that a letter stands for. -/
def digit (letter : UInt8) : Option Nat :=
  let n := letter.toNat
  if 65 ≤ n ∧ n ≤ 90 then some (n - 65)
  else if 97 ≤ n ∧ n ≤ 122 then some (n - 71)
  else if 48 ≤ n ∧ n ≤ 57 then some (n + 4)
  else if n = 43 then some 62
  else if n = 47 then some 63
  else none

/-- `=`. -/
def padding : UInt8 := 61

/-- The text of bytes. -/
def encode : List UInt8 → List UInt8
  | [] => []
  | [a] => [letter (a.toNat / 4), letter (a.toNat % 4 * 16), padding, padding]
  | [a, b] =>
      [letter (a.toNat / 4), letter (a.toNat % 4 * 16 + b.toNat / 16),
        letter (b.toNat % 16 * 4), padding]
  | a :: b :: c :: rest =>
      letter (a.toNat / 4) :: letter (a.toNat % 4 * 16 + b.toNat / 16) ::
        letter (b.toNat % 16 * 4 + c.toNat / 64) :: letter (c.toNat % 64) :: encode rest

/-- The bytes of a text, if it consists of groups of four letters. -/
def decode : List UInt8 → Option (List UInt8)
  | [] => some []
  | w :: x :: y :: z :: rest => do
      let m ← digit w
      let n ← digit x
      if rest = [] ∧ y = padding ∧ z = padding then
        some [UInt8.ofNat (m * 4 + n / 16)]
      else
        let p ← digit y
        if rest = [] ∧ z = padding then
          some [UInt8.ofNat (m * 4 + n / 16), UInt8.ofNat (n % 16 * 16 + p / 4)]
        else
          let q ← digit z
          let tail ← decode rest
          some (UInt8.ofNat (m * 4 + n / 16) :: UInt8.ofNat (n % 16 * 16 + p / 4) ::
            UInt8.ofNat (p % 4 * 64 + q) :: tail)
  | _ => none

/-- Letters tell their digits. -/
theorem digit_letter {n : Nat} (h : n < 64) : digit (letter n) = some n := by
  have hall : ∀ n < 64, digit (letter n) = some n := by decide
  exact hall n h

/-- No letter is the padding. -/
theorem letter_ne_padding {n : Nat} (h : n < 64) : letter n ≠ padding := by
  have hall : ∀ n < 64, letter n ≠ padding := by decide
  exact hall n h

/-- A byte is put together from the digits that hold its bits. -/
theorem ofNat_eq {a : UInt8} {n : Nat} (h : n = a.toNat) : UInt8.ofNat n = a := by
  rw [h, UInt8.ofNat_toNat]

/-- **Round trip.** -/
theorem decode_encode (bytes : List UInt8) : decode (encode bytes) = some bytes := by
  induction bytes using encode.induct with
  | case1 => rfl
  | case2 a =>
      have ha := a.toNat_lt
      rw [encode, decode, digit_letter (by omega), digit_letter (by omega)]
      simp only [Option.bind_eq_bind, Option.bind_some, and_self, if_true]
      rw [ofNat_eq (a := a) (by omega)]
  | case3 a b =>
      have ha := a.toNat_lt
      have hb := b.toNat_lt
      rw [encode, decode, digit_letter (by omega), digit_letter (by omega),
        digit_letter (by omega)]
      simp only [Option.bind_eq_bind, Option.bind_some]
      rw [if_neg fun h => letter_ne_padding (by omega) h.2.1, if_pos ⟨trivial, trivial⟩,
        ofNat_eq (a := a) (by omega), ofNat_eq (a := b) (by omega)]
  | case4 a b c rest ih =>
      have ha := a.toNat_lt
      have hb := b.toNat_lt
      have hc := c.toNat_lt
      rw [encode, decode, digit_letter (by omega), digit_letter (by omega),
        digit_letter (by omega), digit_letter (by omega), ih]
      simp only [Option.bind_eq_bind, Option.bind_some]
      rw [if_neg fun h => letter_ne_padding (by omega) h.2.1,
        if_neg fun h => letter_ne_padding (by omega) h.2, ofNat_eq (a := a) (by omega),
        ofNat_eq (a := b) (by omega), ofNat_eq (a := c) (by omega)]

/-- A text of three letters and a padding. -/
example : encode [104, 105] = [97, 71, 107, 61] := by decide

end Base64
