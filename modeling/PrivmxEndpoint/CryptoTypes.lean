import PrivmxEndpoint.BigEndian
import PrivmxEndpoint.PositionalNumerals
import PrivmxEndpoint.StoreTypes

/-!
# Strings and big numbers of the crypto module

`Base58` and `ExtKey` compute with the integers of GMP, which are natural numbers
here: the bytes and the digits that they are read from and written to are numerals.
A string is a string of bytes, as in the store module.
-/

namespace PrivmxEndpoint

open Numeral

/-- What a function of the crypto module ends with instead of a result.  The last two
are no exceptions: a read outside of a table, and a loop that does not end. -/
inductive CryptoError
  /-- `std::invalid_argument`, of a string that is no number. -/
  | invalidArgument
  /-- `std::out_of_range`, of `substr`. -/
  | outOfRange
  /-- `std::length_error`, of a string that is too long. -/
  | lengthError
  | invalidChecksum
  | invalidExtendedKeySize
  | invalidVersion
  | invalidParentFingerprint
  | invalidResultSize
  | extKeyDoesNotHoldPrivateKey
  /-- A key that the curve does not have. -/
  | ecc
  | outsideTable
  | endless
  deriving Repr, DecidableEq

/-- An exception is thrown. -/
def CryptoError.Thrown (e : CryptoError) : Prop :=
  e ≠ .outsideTable ∧ e ≠ .endless

/-- `Crypto::sha256`: any function to 32 bytes. -/
structure Sha256 where
  sha256 : Bytes → Bytes
  length_sha256 : ∀ data, (sha256 data).length = 32

/-- `std::string(n, c)`, which throws above `max_size()`. -/
def stdString (n : Nat) (c : UInt8) : Except CryptoError Bytes :=
  if n < 2 ^ 62 then .ok (List.replicate n c) else .error .lengthError

/-- `std::string::substr`, which throws for a position behind the end. -/
def Crypto.substr (s : Bytes) (pos n : Nat) : Except CryptoError Bytes :=
  if pos ≤ s.length then .ok (Splice.slice s pos n) else .error .outOfRange

/-- A difference of lengths, which wraps around below zero. -/
def sizeSub (a b : Nat) : Nat := if b ≤ a then a - b else a + 2 ^ 64 - b

/-- `mpz_import(x, s.size(), 1, 1, 0, 0, s.data())`. -/
def mpzImport (s : Bytes) : Nat := BigEndian.value s

/-- `mpz_export(data, &count, 1, 1, 0, 0, x)`, the first `count` bytes of the data.
There are none for zero. -/
def mpzExport (x : Nat) : Bytes := (numeral 256 x).map UInt8.ofNat

/-- The digits of GMP in bases above 36. -/
def gmpDigit (d : Nat) : UInt8 :=
  UInt8.ofNat (if d < 10 then 48 + d else if d < 36 then 65 + (d - 10) else 97 + (d - 36))

def gmpDigitValue (c : UInt8) : Option Nat :=
  if 48 ≤ c ∧ c ≤ 57 then some (c.toNat - 48)
  else if 65 ≤ c ∧ c ≤ 90 then some (c.toNat - 65 + 10)
  else if 97 ≤ c ∧ c ≤ 122 then some (c.toNat - 97 + 36)
  else none

/-- `x.get_str(base)`, for a base above 36. -/
def mpzGetStr (base x : Nat) : Bytes :=
  if x = 0 then [gmpDigit 0] else (numeral base x).map gmpDigit

/-- The value of a digit of the base. -/
def gmpDigitBelow (base : Nat) (c : UInt8) : Except CryptoError Nat :=
  match gmpDigitValue c with
  | some d => if d < base then .ok d else .error .invalidArgument
  | none => .error .invalidArgument

/-- `mpz_class(s, base)`, for a base above 36 and a string without blanks and without a
sign; it throws unless the string is a numeral. -/
def mpzSetStr (base : Nat) (s : Bytes) : Except CryptoError Nat := do
  if s = [] then
    throw .invalidArgument
  return value base (← s.mapM (gmpDigitBelow base))

theorem mpzImport_eq (s : Bytes) : mpzImport s = value 256 (s.map UInt8.toNat) := by
  rw [mpzImport, BigEndian.value, value, List.foldl_map]

theorem toNat_lt_of_mem_map {s : Bytes} {d : Nat} (h : d ∈ s.map UInt8.toNat) : d < 256 := by
  obtain ⟨b, -, rfl⟩ := List.mem_map.mp h
  exact b.toNat_lt

/-- The bytes that were written are those of the numeral. -/
theorem map_toNat_mpzExport (x : Nat) : (mpzExport x).map UInt8.toNat = numeral 256 x := by
  rw [mpzExport, List.map_map]
  refine (List.map_congr_left ?_).trans (List.map_id _)
  intro d hd
  exact UInt8.toNat_ofNat_of_lt' (lt_of_mem_numeral (by decide) hd)

@[simp] theorem mpzImport_mpzExport (x : Nat) : mpzImport (mpzExport x) = x := by
  rw [mpzImport_eq, map_toNat_mpzExport, value_numeral]

@[simp] theorem mpzImport_zeros_append (k : Nat) (s : Bytes) :
    mpzImport (List.replicate k 0 ++ s) = mpzImport s := by
  rw [mpzImport_eq, mpzImport_eq, List.map_append, List.map_replicate]
  exact value_zeros_append 256 k _

/-! ### A fixed number of bytes -/

/-- `Utils::fillTo32`. -/
def fillTo32 (data : Bytes) : Bytes :=
  if 32 ≤ data.length then data else List.replicate (32 - data.length) 0 ++ data

theorem mpzImport_lt (s : Bytes) : mpzImport s < 256 ^ s.length := by
  have hlt := Nat.ofDigits_lt_base_pow_length (b := 256) (by decide)
    (fun d (hd : d ∈ (s.map UInt8.toNat).reverse) => toNat_lt_of_mem_map (List.mem_reverse.mp hd))
  rw [mpzImport_eq, value_eq_ofDigits]
  simpa using hlt

theorem map_toNat_injective {s t : Bytes} (h : s.map UInt8.toNat = t.map UInt8.toNat) : s = t :=
  List.map_injective_iff.mpr (fun _ _ hb => UInt8.toNat_inj.mp hb) h

/-- Strings of one length are told apart by their numbers. -/
theorem eq_of_mpzImport_eq {s t : Bytes} (hlength : s.length = t.length)
    (h : mpzImport s = mpzImport t) : s = t := by
  rw [mpzImport_eq, mpzImport_eq, value_eq_ofDigits, value_eq_ofDigits] at h
  have hlt : ∀ u : Bytes, ∀ d ∈ (u.map UInt8.toNat).reverse, d < 256 := fun u d hd =>
    toNat_lt_of_mem_map (List.mem_reverse.mp hd)
  have hdigits := Nat.ofDigits_inj_of_len_eq (by decide) (by simpa using hlength) (hlt s) (hlt t) h
  exact map_toNat_injective (List.reverse_injective hdigits)

theorem length_mpzExport_le_iff {x k : Nat} : (mpzExport x).length ≤ k ↔ x < 256 ^ k := by
  rw [mpzExport, List.length_map, numeral, List.length_reverse]
  exact Nat.digits_length_le_iff (by decide) x

theorem length_mpzExport_le {x k : Nat} (h : x < 256 ^ k) : (mpzExport x).length ≤ k :=
  length_mpzExport_le_iff.mpr h

/-- The bytes of a number, filled up with zeros. -/
theorem zeros_append_mpzExport {x k : Nat} (h : x < 256 ^ k) :
    List.replicate (k - (mpzExport x).length) 0 ++ mpzExport x = BigEndian.bytes k x := by
  have hlength := length_mpzExport_le h
  apply eq_of_mpzImport_eq
  · rw [List.length_append, List.length_replicate, BigEndian.length_bytes]
    omega
  · rw [mpzImport_zeros_append, mpzImport_mpzExport, mpzImport, BigEndian.value_bytes_of_lt h]

theorem fillTo32_mpzExport {x : Nat} (h : x < 256 ^ 32) :
    fillTo32 (mpzExport x) = BigEndian.bytes 32 x := by
  have hlength := length_mpzExport_le h
  rw [← zeros_append_mpzExport h, fillTo32]
  by_cases hfull : 32 ≤ (mpzExport x).length
  · rw [if_pos hfull, Nat.sub_eq_zero_of_le hfull]
    rfl
  · rw [if_neg hfull]

end PrivmxEndpoint
