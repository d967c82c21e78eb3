import PrivmxEndpoint.CryptoPrimitives
import PrivmxEndpoint.CryptoTypes
import PrivmxEndpoint.ThrowingPrograms

/-!
# Base58

A string of bytes is written as a numeral in base 58 behind a `1` for each of its
leading zeros.  Both tables together are the identity on the digits, so that encoding
and decoding are a change of base (`encode_eq_ok`, `decode_eq_ok`), with one exception:
for the number zero GMP writes a digit, which is one character more than the zeros of
the string.

The leading characters are counted by an `unsigned int` that is returned as an `int`.
-/

namespace PrivmxEndpoint

namespace Base58

open Word Numeral

/-! ### The tables -/

/-- Characters as bytes. -/
def ascii (cs : List Char) : Bytes := cs.map Char.toUInt8

/-- `-1` in the tables. -/
def unmapped (n : Nat) : Bytes := List.replicate n 255

/-- The table of `gmp2bitcoin`. -/
def gmp2bitcoinMap : Bytes :=
  unmapped 48 ++ ascii ['1', '2', '3', '4', '5', '6', '7', '8', '9', 'A'] ++ unmapped 7 ++
  ascii ['B', 'C', 'D', 'E', 'F', 'G', 'H', 'J', 'K', 'L', 'M', 'N', 'P', 'Q', 'R', 'S', 'T', 'U',
    'V', 'W', 'X', 'Y', 'Z', 'a', 'b', 'c'] ++ unmapped 6 ++
  ascii ['d', 'e', 'f', 'g', 'h', 'i', 'j', 'k', 'm', 'n', 'o', 'p', 'q', 'r', 's', 't', 'u', 'v',
    'w', 'x', 'y', 'z'] ++ unmapped 9

/-- The table of `bitcoin2gmp`. -/
def bitcoin2gmpMap : Bytes :=
  unmapped 49 ++ ascii ['0', '1', '2', '3', '4', '5', '6', '7', '8'] ++ unmapped 7 ++
  ascii ['9', 'A', 'B', 'C', 'D', 'E', 'F', 'G'] ++ unmapped 1 ++
  ascii ['H', 'I', 'J', 'K', 'L'] ++ unmapped 1 ++
  ascii ['M', 'N', 'O', 'P', 'Q', 'R', 'S', 'T', 'U', 'V', 'W'] ++ unmapped 6 ++
  ascii ['X', 'Y', 'Z', 'a', 'b', 'c', 'd', 'e', 'f', 'g', 'h'] ++ unmapped 1 ++
  ascii ['i', 'j', 'k', 'l', 'm', 'n', 'o', 'p', 'q', 'r', 's', 't', 'u', 'v'] ++ unmapped 5

/-- An entry of a table of 128 characters. -/
def lookup (map : Bytes) (c : UInt8) : Except CryptoError UInt8 :=
  match map[c.toNat]? with
  | some b => .ok b
  | none => .error .outsideTable

/-- `gmp2bitcoin`. -/
def gmp2bitcoin (s : Bytes) : Except CryptoError Bytes := s.mapM (lookup gmp2bitcoinMap)

/-- `bitcoin2gmp`. -/
def bitcoin2gmp (s : Bytes) : Except CryptoError Bytes := s.mapM (lookup bitcoin2gmpMap)

/-! ### Encoding and decoding -/

/-- The character `1`, for a zero. -/
def ONE : UInt8 := 49

/-- The loop of `count_first`, whose counter is an `unsigned int`. -/
def countFirstLoop (c : UInt8) (s : Bytes) : Nat → Nat → Except CryptoError Nat
  | 0, _ => .error .endless
  | rounds + 1, i =>
      if i < s.length ∧ s[i]? = some c then countFirstLoop c s rounds (u32 (i + 1)) else .ok i

/-- `count_first`.  After `2 ^ 32` rounds the counter has had every value, and the loop
goes on for ever. -/
def countFirst (c : UInt8) (s : Bytes) : Except CryptoError Int := do
  let i ← countFirstLoop c s (2 ^ 32) 0
  return toInt32 i

/-- `encode`.  The number of zeros is an `unsigned int`. -/
def encode (s : Bytes) : Except CryptoError Bytes := do
  let x := mpzImport s
  let result ← gmp2bitcoin (mpzGetStr 58 x)
  let padSize := ofInt32 (← countFirst 0 s)
  if padSize ≠ 0 then
    let pad ← stdString padSize ONE
    return pad ++ result
  else
    return result

/-- `decode`.  The number of ones is an `int`. -/
def decode (s : Bytes) : Except CryptoError Bytes := do
  let x ← mpzSetStr 58 (← bitcoin2gmp s)
  let result := mpzExport x
  let padSize ← countFirst ONE s
  if padSize ≠ 0 then
    let pad ← stdString (ofInt64 padSize) 0
    return pad ++ result
  else
    return result

/-- The characters `[A-HJ-NP-Za-km-z1-9]`. -/
def inClass (c : UInt8) : Bool :=
  (65 ≤ c && c ≤ 72) || (74 ≤ c && c ≤ 78) || (80 ≤ c && c ≤ 90) || (97 ≤ c && c ≤ 107) ||
    (109 ≤ c && c ≤ 122) || (49 ≤ c && c ≤ 57)

/-- The character `=`. -/
def EQUALS : UInt8 := 61

/-- `is`, the expression `^[A-HJ-NP-Za-km-z1-9]*={0,2}$`. -/
def is (s : Bytes) : Bool :=
  s.dropWhile inClass ∈ [[], [EQUALS], [EQUALS, EQUALS]]

section Checksum

variable (C : Primitives)

/-- `Crypto::sha256(Crypto::sha256(s)).substr(0, 4)`. -/
def checksum (s : Bytes) : Bytes := (C.sha256 (C.sha256 s)).take 4

/-- `encodeWithChecksum`. -/
def encodeWithChecksum (s : Bytes) : Except CryptoError Bytes :=
  encode (s ++ checksum C s)

/-- `decodeWithChecksum`.  The length of shorter data wraps around, and the second
`substr` throws. -/
def decodeWithChecksum (s : Bytes) : Except CryptoError Bytes := do
  let data ← decode s
  let payload ← Crypto.substr data 0 (sizeSub data.length 4)
  let check ← Crypto.substr data (sizeSub data.length 4) data.length
  if check ≠ checksum C payload then
    throw .invalidChecksum
  return payload

end Checksum

/-! ### The digits -/

/-- The characters of the digits. -/
def alphabet : Bytes :=
  ascii ['1', '2', '3', '4', '5', '6', '7', '8', '9', 'A', 'B', 'C', 'D', 'E', 'F', 'G', 'H', 'J',
    'K', 'L', 'M', 'N', 'P', 'Q', 'R', 'S', 'T', 'U', 'V', 'W', 'X', 'Y', 'Z', 'a', 'b', 'c', 'd',
    'e', 'f', 'g', 'h', 'i', 'j', 'k', 'm', 'n', 'o', 'p', 'q', 'r', 's', 't', 'u', 'v', 'w', 'x',
    'y', 'z']

/-- The character of a digit. -/
def symbol (d : Nat) : UInt8 := alphabet.getD d 0

set_option maxRecDepth 4000 in
/-- Each digit of the number library has a symbol. -/
theorem lookup_gmpDigit : ∀ d < 58, lookup gmp2bitcoinMap (gmpDigit d) = .ok (symbol d) := by
  decide

set_option maxRecDepth 4000 in
/-- Each symbol stands for a digit of the number library. -/
theorem lookup_symbol : ∀ d < 58, lookup bitcoin2gmpMap (symbol d) = .ok (gmpDigit d) := by
  decide

set_option maxRecDepth 4000 in
/-- The number library reads its own digits. -/
theorem gmpDigitBelow_gmpDigit : ∀ d < 58, gmpDigitBelow 58 (gmpDigit d) = .ok d := by
  decide

/-- There are 58 symbols. -/
theorem length_alphabet : alphabet.length = 58 := by decide

/-- The alphabet is the symbols of the digits. -/
theorem mem_alphabet_iff {c : UInt8} : c ∈ alphabet ↔ ∃ d < 58, symbol d = c := by
  constructor
  · intro hc
    obtain ⟨d, hd, hget⟩ := List.mem_iff_getElem.mp hc
    refine ⟨d, length_alphabet ▸ hd, ?_⟩
    rw [symbol, List.getD_eq_getElem _ _ hd, hget]
  · intro hc
    obtain ⟨d, hd, rfl⟩ := hc
    have hd' : d < alphabet.length := length_alphabet ▸ hd
    rw [symbol, List.getD_eq_getElem _ _ hd']
    exact List.getElem_mem hd'

set_option maxRecDepth 4000 in
/-- The pattern accepts exactly the symbols. -/
theorem inClass_iff {n : Nat} (hn : n < 256) :
    inClass (UInt8.ofNat n) = true ↔ ∃ d < 58, symbol d = UInt8.ofNat n := by
  have hmem : ∀ n < 256, inClass (UInt8.ofNat n) = true → UInt8.ofNat n ∈ alphabet := by
    decide
  have hall : alphabet.all inClass = true := by decide
  rw [← mem_alphabet_iff]
  exact ⟨hmem n hn, List.all_eq_true.mp hall _⟩

set_option maxRecDepth 4000 in
/-- Only the characters of digits are mapped to digits. -/
theorem lookup_cases {n : Nat} (hn : n < 256) :
    (∃ d < 58, symbol d = UInt8.ofNat n) ∨
      lookup bitcoin2gmpMap (UInt8.ofNat n) = .error .outsideTable ∨
      lookup bitcoin2gmpMap (UInt8.ofNat n) = .ok 255 := by
  have hmapped : ∀ n < 128, lookup bitcoin2gmpMap (UInt8.ofNat n) = .ok 255 ∨
      inClass (UInt8.ofNat n) = true := by
    decide
  by_cases hinside : n < 128
  · rw [← inClass_iff hn]
    rcases hmapped n hinside with hlookup | hclass
    · exact Or.inr (Or.inr hlookup)
    · exact Or.inl hclass
  · have hlength : bitcoin2gmpMap.length = 128 := by decide
    have hnone : bitcoin2gmpMap[(UInt8.ofNat n).toNat]? = none := by
      rw [List.getElem?_eq_none_iff, UInt8.toNat_ofNat_of_lt' hn, hlength]
      omega
    exact Or.inr (Or.inl (by rw [lookup, hnone]))

set_option maxRecDepth 4000 in
/-- The first symbol is the one of zero. -/
theorem symbol_eq_ONE_iff : ∀ d < 58, symbol d = ONE ↔ d = 0 := by
  decide

/-- Different digits have different symbols. -/
theorem symbol_injective {d e : Nat} (hd : d < 58) (he : e < 58) (h : symbol d = symbol e) :
    d = e := by
  have hdigit := (lookup_symbol d hd).symm.trans ((congrArg _ h).trans (lookup_symbol e he))
  have hvalue := congrArg (gmpDigitBelow 58) (Except.ok.inj hdigit)
  rw [gmpDigitBelow_gmpDigit d hd, gmpDigitBelow_gmpDigit e he] at hvalue
  exact Except.ok.inj hvalue

/-- So have different numerals. -/
theorem map_symbol_injective {ds es : List Nat} (hds : ∀ d ∈ ds, d < 58) (hes : ∀ e ∈ es, e < 58)
    (h : ds.map symbol = es.map symbol) : ds = es := by
  induction ds generalizing es with
  | nil => exact (List.map_eq_nil_iff.mp h.symm).symm
  | cons d ds ih =>
      cases es with
      | nil => cases h
      | cons e es =>
          obtain ⟨hhead, htail⟩ := List.cons.inj h
          rw [symbol_injective (hds d (by simp)) (hes e (by simp)) hhead,
            ih (fun x hx => hds x (by simp [hx])) (fun x hx => hes x (by simp [hx])) htail]

/-! ### Counting the leading characters -/

/-- How often a character stands at the beginning. -/
def leading (c : UInt8) (s : Bytes) : Nat := (s.takeWhile (· = c)).length

/-- The first symbols, as many as were counted, are alike. -/
theorem getElem?_of_lt_leading {c : UInt8} {s : Bytes} {i : Nat} (h : i < leading c s) :
    s[i]? = some c := by
  have hsplit : s[i]? = (s.takeWhile (· = c) ++ s.dropWhile (· = c))[i]? := by
    rw [List.takeWhile_append_dropWhile]
  have hmem := List.mem_takeWhile_imp (List.getElem_mem (l := s.takeWhile (· = c)) h)
  rw [hsplit, List.getElem?_append_left h, List.getElem?_eq_getElem h]
  exact congrArg some (of_decide_eq_true hmem)

/-- The one behind them is another one, or there is none. -/
theorem getElem?_leading (c : UInt8) (s : Bytes) : s[leading c s]? ≠ some c := by
  intro h
  have hsplit : s[leading c s]? = (s.takeWhile (· = c) ++ s.dropWhile (· = c))[leading c s]? := by
    rw [List.takeWhile_append_dropWhile]
  rw [hsplit, leading, List.getElem?_append_right (Nat.le_refl _), Nat.sub_self,
    ← List.head?_eq_getElem?] at h
  have hne : s.dropWhile (· = c) ≠ [] := by
    intro hnil
    rw [hnil] at h
    cases h
  have hhead := List.head_dropWhile_not (fun b => decide (b = c)) hne
  rw [List.head?_eq_some_head hne] at h
  exact of_decide_eq_false hhead (Option.some.inj h)

/-- No more are counted than there are. -/
theorem leading_le_length (c : UInt8) (s : Bytes) : leading c s ≤ s.length :=
  (List.takeWhile_sublist _).length_le

/-- With enough rounds the loop comes to the first other character. -/
theorem countFirstLoop_of_lt {c : UInt8} {s : Bytes} (hlt : leading c s < 2 ^ 32)
    (rounds i : Nat) (hi : i ≤ leading c s) (hrounds : leading c s < i + rounds) :
    countFirstLoop c s rounds i = .ok (leading c s) := by
  induction rounds generalizing i with
  | zero => omega
  | succ rounds ih =>
      have hlength := leading_le_length c s
      unfold countFirstLoop
      by_cases hend : i = leading c s
      · rw [hend, if_neg (fun h => getElem?_leading c s h.2)]
      · have hmore : i < leading c s := by omega
        rw [if_pos ⟨by omega, getElem?_of_lt_leading hmore⟩, u32_of_lt (by omega)]
        exact ih (i + 1) hmore (by omega)

/-- A counter that wraps around never comes to another character. -/
theorem countFirstLoop_of_le {c : UInt8} {s : Bytes} (hle : 2 ^ 32 ≤ leading c s)
    (rounds i : Nat) (hi : i < 2 ^ 32) : countFirstLoop c s rounds i = .error .endless := by
  induction rounds generalizing i with
  | zero => rfl
  | succ rounds ih =>
      have hlength := leading_le_length c s
      unfold countFirstLoop
      rw [if_pos ⟨by omega, getElem?_of_lt_leading (by omega)⟩]
      exact ih _ (Nat.mod_lt _ (by decide))

/-- The loop counts the leading symbols, unless its 32-bit counter wraps. -/
theorem countFirst_eq (c : UInt8) (s : Bytes) :
    countFirst c s =
      if leading c s < 2 ^ 32 then .ok (toInt32 (leading c s)) else .error .endless := by
  unfold countFirst
  by_cases h : leading c s < 2 ^ 32
  · rw [if_pos h, countFirstLoop_of_lt h _ 0 (Nat.zero_le _) (by omega)]
    rfl
  · rw [if_neg h, countFirstLoop_of_le (by omega) _ 0 (by decide)]
    rfl

/-- Leading zeros of the bytes are leading zeros of the digits. -/
theorem leading_map_toNat (s : Bytes) : leadingZeros (s.map UInt8.toNat) = leading 0 s := by
  induction s with
  | nil => rfl
  | cons b s ih =>
      unfold leadingZeros leading at ih ⊢
      by_cases hb : b = 0
      · simpa [hb] using ih
      · have hn : b.toNat ≠ 0 := fun h => hb (UInt8.toNat_inj.mp h)
        simp [hb, hn]

/-- Leading zero digits are leading symbols of zero. -/
theorem leading_map_symbol {ds : List Nat} (hds : ∀ d ∈ ds, d < 58) :
    leading ONE (ds.map symbol) = leadingZeros ds := by
  induction ds with
  | nil => rfl
  | cons d ds ih =>
      have hone := symbol_eq_ONE_iff d (hds d (by simp))
      have hrest := ih fun e he => hds e (by simp [he])
      unfold leadingZeros leading at hrest ⊢
      by_cases hd : d = 0
      · have hsymbol : symbol 0 = ONE := by decide
        simpa [hd, hsymbol] using hrest
      · simp [hd, hone]

/-! ### A change of base -/

/-- The digits that GMP writes for a number. -/
def getStrDigits (x : Nat) : List Nat := if x = 0 then [0] else numeral 58 x

/-- The digits of a number are below 58. -/
theorem lt_of_mem_getStrDigits {x d : Nat} (h : d ∈ getStrDigits x) : d < 58 := by
  unfold getStrDigits at h
  by_cases hx : x = 0
  · rw [if_pos hx, List.mem_singleton] at h
    omega
  · rw [if_neg hx] at h
    exact lt_of_mem_numeral (by decide) h

/-- A number is written with the symbols of its digits. -/
theorem gmp2bitcoin_mpzGetStr (x : Nat) :
    gmp2bitcoin (mpzGetStr 58 x) = .ok ((getStrDigits x).map symbol) := by
  have hdigits : mpzGetStr 58 x = (getStrDigits x).map gmpDigit := by
    unfold mpzGetStr getStrDigits
    by_cases hx : x = 0
    · rw [if_pos hx, if_pos hx]
      rfl
    · rw [if_neg hx, if_neg hx]
  rw [gmp2bitcoin, hdigits, List.mapM_map]
  apply Throwing.mapM_eq_ok_map
  intro d hd
  exact lookup_gmpDigit d (lt_of_mem_getStrDigits hd)

/-- Every leading zero becomes a `1`. -/
theorem encode_eq (s : Bytes) :
    encode s =
      if leading 0 s < 2 ^ 32 then
        .ok ((List.replicate (leading 0 s) 0 ++ getStrDigits (mpzImport s)).map symbol)
      else .error .endless := by
  unfold encode
  show (gmp2bitcoin (mpzGetStr 58 (mpzImport s)) >>= fun _ => countFirst 0 s >>= fun _ => _) = _
  rw [gmp2bitcoin_mpzGetStr, countFirst_eq]
  by_cases hlt : leading 0 s < 2 ^ 32
  · have hsymbol : symbol 0 = ONE := by decide
    have hpad : stdString (leading 0 s) ONE = .ok (List.replicate (leading 0 s) ONE) :=
      if_pos (by omega)
    rw [if_pos hlt, if_pos hlt, List.map_append, List.map_replicate, hsymbol]
    show (if ofInt32 (toInt32 (leading 0 s)) ≠ 0 then _ else _) = _
    rw [ofInt32_toInt32, u32_of_lt hlt, hpad]
    by_cases hzero : leading 0 s = 0
    · rw [if_neg (not_not.mpr hzero), hzero]
      rfl
    · rw [if_pos hzero]
      rfl
  · rw [if_neg hlt, if_neg hlt]
    rfl

/-- The digits are read back; every leading one becomes a zero, if their number is an
`int`. -/
theorem decode_map_symbol {ds : List Nat} (hne : ds ≠ []) (hds : ∀ d ∈ ds, d < 58) :
    decode (ds.map symbol) =
      if leadingZeros ds < 2 ^ 31 then
        .ok (List.replicate (leadingZeros ds) 0 ++ mpzExport (value 58 ds))
      else if leadingZeros ds < 2 ^ 32 then .error .lengthError
      else .error .endless := by
  have hgmp : bitcoin2gmp (ds.map symbol) = .ok (ds.map gmpDigit) := by
    rw [bitcoin2gmp, List.mapM_map]
    exact Throwing.mapM_eq_ok_map fun d hd => lookup_symbol d (hds d hd)
  have hset : mpzSetStr 58 (ds.map gmpDigit) = .ok (value 58 ds) := by
    have hread : (ds.map gmpDigit).mapM (gmpDigitBelow 58) = .ok (ds.map id) := by
      rw [List.mapM_map]
      exact Throwing.mapM_eq_ok_map fun d hd => gmpDigitBelow_gmpDigit d (hds d hd)
    unfold mpzSetStr
    rw [if_neg (by simpa using hne), hread, List.map_id]
    rfl
  unfold decode
  rw [hgmp]
  show (mpzSetStr 58 _ >>= fun _ => _) = _
  rw [hset, countFirst_eq, leading_map_symbol hds]
  by_cases hend : leadingZeros ds < 2 ^ 32
  · rw [if_pos hend]
    show (if toInt32 (leadingZeros ds) ≠ 0 then _ else _) = _
    by_cases hlt : leadingZeros ds < 2 ^ 31
    · rw [if_pos hlt, toInt32_of_lt hlt]
      by_cases hzero : leadingZeros ds = 0
      · rw [hzero]
        rfl
      · have hpad : stdString (ofInt64 (leadingZeros ds : Int)) 0 =
            .ok (List.replicate (leadingZeros ds) 0) := by
          rw [ofInt64_natCast (by omega)]
          exact if_pos (by omega)
        rw [if_pos (by omega), hpad]
        rfl
    · -- the number is negative as an `int`, and too large as a length
      have hint : toInt32 (leadingZeros ds) = (leadingZeros ds : Int) - 2 ^ 32 := by
        rw [toInt32, u32_of_lt hend, if_neg hlt]
      have hpad : stdString (ofInt64 ((leadingZeros ds : Int) - 2 ^ 32)) 0 =
          .error .lengthError := by
        refine if_neg ?_
        unfold ofInt64
        omega
      rw [if_neg hlt, if_pos hend, hint, hpad, if_pos (by omega)]
      rfl
  · rw [if_neg hend, if_neg (by omega), if_neg hend]
    rfl

/-- The digits of an encoded string. -/
def codeDigits (s : Bytes) : List Nat :=
  List.replicate (leading 0 s) 0 ++ getStrDigits (mpzImport s)

/-- What `encode` returns, and when it returns. -/
theorem encode_eq_ok {s t : Bytes} :
    encode s = .ok t ↔ leading 0 s < 2 ^ 32 ∧ (codeDigits s).map symbol = t := by
  rw [encode_eq]
  by_cases h : leading 0 s < 2 ^ 32
  · rw [if_pos h]
    exact ⟨fun hok => ⟨h, Except.ok.inj hok⟩, fun hok => congrArg _ hok.2⟩
  · rw [if_neg h]
    exact ⟨fun hok => (nomatch hok), fun hok => absurd hok.1 h⟩

/-- What the table and the digits of GMP make of a character. -/
theorem symbol_of_read {c b : UInt8} {d : Nat} (hb : lookup bitcoin2gmpMap c = .ok b)
    (hd : gmpDigitBelow 58 b = .ok d) : d < 58 ∧ symbol d = c := by
  have hcases := lookup_cases c.toNat_lt
  rw [UInt8.ofNat_toNat] at hcases
  rcases hcases with ⟨e, he, rfl⟩ | houtside | hunmapped
  · obtain rfl := Except.ok.inj ((lookup_symbol e he).symm.trans hb)
    obtain rfl := Except.ok.inj ((gmpDigitBelow_gmpDigit e he).symm.trans hd)
    exact ⟨he, rfl⟩
  · cases houtside.symm.trans hb
  · obtain rfl := Except.ok.inj (hunmapped.symm.trans hb)
    have hno : gmpDigitBelow 58 255 = .error .invalidArgument := by decide
    cases hno.symm.trans hd

/-- Text that is read as digits is the text of these digits. -/
theorem map_symbol_of_reads {t g : Bytes} {ds : List Nat}
    (hg : List.Forall₂ (fun c b => lookup bitcoin2gmpMap c = .ok b) t g)
    (hds : List.Forall₂ (fun b d => gmpDigitBelow 58 b = .ok d) g ds) :
    (∀ d ∈ ds, d < 58) ∧ ds.map symbol = t := by
  induction hg generalizing ds with
  | nil =>
      cases hds
      exact ⟨fun _ h => (nomatch h), rfl⟩
  | cons hb _ ih =>
      cases hds with
      | cons hd hrest =>
          obtain ⟨hlt, hsymbol⟩ := symbol_of_read hb hd
          obtain ⟨hall, hmap⟩ := ih hrest
          refine ⟨?_, ?_⟩
          · intro e he
            rcases List.mem_cons.mp he with rfl | he
            · exact hlt
            · exact hall e he
          · rw [List.map_cons, hsymbol, hmap]

/-- Exactly the numerals are decoded, up to the number of ones that an `int` holds. -/
theorem decode_eq_ok {t v : Bytes} :
    decode t = .ok v ↔
      ∃ ds, ds ≠ [] ∧ (∀ d ∈ ds, d < 58) ∧ ds.map symbol = t ∧ leadingZeros ds < 2 ^ 31 ∧
        List.replicate (leadingZeros ds) 0 ++ mpzExport (value 58 ds) = v := by
  constructor
  · intro h
    obtain ⟨ds, hne, hds, rfl⟩ : ∃ ds, ds ≠ [] ∧ (∀ d ∈ ds, d < 58) ∧ ds.map symbol = t := by
      obtain ⟨g, hg, hrest⟩ := Throwing.bind_eq_ok h
      obtain ⟨x, hx, -⟩ := Throwing.bind_eq_ok hrest
      unfold mpzSetStr at hx
      by_cases hnil : g = []
      · rw [if_pos hnil] at hx
        cases hx
      · rw [if_neg hnil] at hx
        obtain ⟨ds, hds, -⟩ := Throwing.bind_eq_ok hx
        have hdigits := Throwing.mapM_eq_ok_iff.mp hds
        refine ⟨ds, ?_, map_symbol_of_reads (Throwing.mapM_eq_ok_iff.mp hg) hdigits⟩
        intro h0
        rw [h0] at hdigits
        cases hdigits
        exact hnil rfl
    refine ⟨ds, hne, hds, rfl, ?_⟩
    rw [decode_map_symbol hne hds] at h
    by_cases hlt : leadingZeros ds < 2 ^ 31
    · rw [if_pos hlt] at h
      exact ⟨hlt, Except.ok.inj h⟩
    · rw [if_neg hlt] at h
      split at h <;> cases h
  · intro h
    obtain ⟨ds, hne, hds, rfl, hlt, rfl⟩ := h
    rw [decode_map_symbol hne hds, if_pos hlt]

/-! ### Round trips -/

/-- Only bytes of zero import as zero. -/
theorem mpzImport_eq_zero_iff (s : Bytes) : mpzImport s = 0 ↔ ∀ b ∈ s, b = 0 := by
  rw [mpzImport_eq, value_eq_zero_iff (by decide)]
  constructor
  · intro h b hb
    exact UInt8.toNat_inj.mp (h b.toNat (List.mem_map_of_mem hb))
  · intro h d hd
    obtain ⟨b, hb, rfl⟩ := List.mem_map.mp hd
    rw [h b hb]
    rfl

/-- Bytes other than zero are written in the base 58. -/
theorem codeDigits_of_ne_zero {s : Bytes} (h : mpzImport s ≠ 0) :
    codeDigits s = rebase 256 58 (s.map UInt8.toNat) := by
  rw [codeDigits, getStrDigits, if_neg h, rebase, leading_map_toNat, mpzImport_eq]

/-- Bytes of zero are written with one digit more than there are bytes. -/
theorem codeDigits_of_zero {s : Bytes} (h : mpzImport s = 0) :
    codeDigits s = List.replicate (leading 0 s) 0 ++ [0] := by
  rw [codeDigits, getStrDigits, if_pos h]

/-- All these digits are below 58. -/
theorem lt_of_mem_codeDigits {s : Bytes} {d : Nat} (h : d ∈ codeDigits s) : d < 58 := by
  rcases List.mem_append.mp h with hzero | hdigit
  · rw [List.eq_of_mem_replicate hzero]
    decide
  · exact lt_of_mem_getStrDigits hdigit

/-- Some digit is always written. -/
theorem codeDigits_ne_nil (s : Bytes) : codeDigits s ≠ [] := by
  by_cases h : mpzImport s = 0
  · rw [codeDigits_of_zero h]
    simp
  · intro hnil
    have hvalue := congrArg (value 58) (codeDigits_of_ne_zero h)
    rw [hnil, rebase, value_zeros_append, value_numeral, ← mpzImport_eq] at hvalue
    exact h hvalue.symm

/-- The bytes of decoded digits are the same number in base 256. -/
theorem map_toNat_decoded (ds : List Nat) :
    (List.replicate (leadingZeros ds) 0 ++ mpzExport (value 58 ds)).map UInt8.toNat =
      rebase 58 256 ds := by
  rw [List.map_append, List.map_replicate, map_toNat_mpzExport]
  rfl

/-- `decode(encode(s)) == s`. -/
def DecodesBack (s : Bytes) : Prop := ∃ t, encode s = .ok t ∧ decode t = .ok s

/-- `encode(decode(t)) == t`. -/
def EncodesBack (t : Bytes) : Prop := ∃ s, decode t = .ok s ∧ encode s = .ok t

/-- Every string is decoded back that has another byte than zero, and whose zeros an
`int` can count. -/
theorem decode_encode (s : Bytes) :
    DecodesBack s ↔ (∃ b ∈ s, b ≠ 0) ∧ leading 0 s < 2 ^ 31 := by
  have hsome : mpzImport s ≠ 0 ↔ ∃ b ∈ s, b ≠ 0 := by
    rw [Ne, mpzImport_eq_zero_iff]
    push Not
    rfl
  rw [← hsome]
  constructor
  · intro h
    obtain ⟨t, hencode, hdecode⟩ := h
    obtain ⟨-, rfl⟩ := encode_eq_ok.mp hencode
    obtain ⟨ds, -, hds, hsymbols, hlt, hback⟩ := decode_eq_ok.mp hdecode
    obtain rfl := map_symbol_injective hds (fun d => lt_of_mem_codeDigits) hsymbols
    by_cases hzero : mpzImport s = 0
    · -- one zero more than there are bytes
      have hall := (mpzImport_eq_zero_iff s).mp hzero
      have hleading : leading 0 s = s.length := by
        rw [leading, List.takeWhile_eq_self_iff.mpr]
        intro b hb
        exact decide_eq_true (hall b hb)
      have hcount : leadingZeros (codeDigits s) = s.length + 1 := by
        rw [codeDigits_of_zero hzero, hleading]
        simp [leadingZeros]
      have hlength := congrArg List.length hback
      rw [List.length_append, List.length_replicate, hcount] at hlength
      omega
    · refine ⟨hzero, ?_⟩
      rw [codeDigits_of_ne_zero hzero, rebase, leadingZeros_zeros_append,
        leading_map_toNat] at hlt
      exact hlt
  · intro h
    obtain ⟨hzero, hlt⟩ := h
    have hdigits := codeDigits_of_ne_zero hzero
    have hcount : leadingZeros (codeDigits s) = leading 0 s := by
      rw [hdigits, rebase, leadingZeros_zeros_append, leading_map_toNat]
    refine ⟨_, encode_eq_ok.mpr ⟨by omega, rfl⟩, decode_eq_ok.mpr ⟨codeDigits s,
      codeDigits_ne_nil s, fun d => lt_of_mem_codeDigits, rfl, by omega, ?_⟩⟩
    apply map_toNat_injective
    rw [map_toNat_decoded, hdigits]
    exact rebase_rebase (by decide) fun d => toNat_lt_of_mem_map

/-- Every numeral is encoded back that has another digit than `1`, and whose ones an
`int` can count. -/
theorem encode_decode {ds : List Nat} (hne : ds ≠ []) (hds : ∀ d ∈ ds, d < 58) :
    EncodesBack (ds.map symbol) ↔ (∃ d ∈ ds, d ≠ 0) ∧ leadingZeros ds < 2 ^ 31 := by
  have hsome : value 58 ds ≠ 0 ↔ ∃ d ∈ ds, d ≠ 0 := by
    rw [Ne, value_eq_zero_iff (by decide)]
    push Not
    rfl
  have himport : mpzImport (List.replicate (leadingZeros ds) 0 ++ mpzExport (value 58 ds)) =
      value 58 ds := by
    rw [mpzImport_zeros_append, mpzImport_mpzExport]
  have hleading : leading 0 (List.replicate (leadingZeros ds) 0 ++ mpzExport (value 58 ds)) =
      leadingZeros ds := by
    rw [← leading_map_toNat, map_toNat_decoded, rebase, leadingZeros_zeros_append]
  rw [← hsome]
  constructor
  · intro h
    obtain ⟨s, hdecode, hencode⟩ := h
    obtain ⟨es, -, hes, hsymbols, hlt, rfl⟩ := decode_eq_ok.mp hdecode
    obtain rfl := map_symbol_injective hes hds hsymbols
    obtain ⟨-, hback⟩ := encode_eq_ok.mp hencode
    refine ⟨?_, hlt⟩
    intro hzero
    -- one digit more than the numeral has
    have hall := (value_eq_zero_iff (by decide)).mp hzero
    have hcount : leadingZeros es = es.length := by
      rw [leadingZeros, List.takeWhile_eq_self_iff.mpr]
      intro d hd
      exact decide_eq_true (hall d hd)
    have hlength := congrArg List.length hback
    rw [codeDigits_of_zero (himport.trans hzero), hleading, List.length_map, List.length_append,
      List.length_replicate, List.length_singleton, List.length_map, hcount] at hlength
    omega
  · intro h
    obtain ⟨hzero, hlt⟩ := h
    refine ⟨_, decode_eq_ok.mpr ⟨ds, hne, hds, rfl, hlt, rfl⟩, encode_eq_ok.mpr
      ⟨by omega, ?_⟩⟩
    rw [codeDigits_of_ne_zero (by rwa [himport]), map_toNat_decoded]
    exact congrArg _ (rebase_rebase (by decide) hds)

/-- What was decoded to another byte than zero is encoded back. -/
theorem encode_of_decode {t v : Bytes} (h : decode t = .ok v) (hv : ∃ b ∈ v, b ≠ 0) :
    encode v = .ok t := by
  obtain ⟨ds, hne, hds, rfl, hlt, rfl⟩ := decode_eq_ok.mp h
  have hvalue : value 58 ds ≠ 0 := by
    intro hzero
    obtain ⟨b, hb, hne0⟩ := hv
    apply hne0
    refine (mpzImport_eq_zero_iff _).mp ?_ b hb
    rw [mpzImport_zeros_append, mpzImport_mpzExport, hzero]
  have hsome : ∃ d ∈ ds, d ≠ 0 := by
    by_contra hall
    push Not at hall
    exact hvalue ((value_eq_zero_iff (by decide)).mpr hall)
  obtain ⟨s, hs, hencode⟩ := (encode_decode hne hds).mpr ⟨hsome, hlt⟩
  obtain rfl := Except.ok.inj (hs.symm.trans h)
  exact hencode

/-! ### The alphabet -/

/-- Text that the pattern accepts is the text of some digits. -/
theorem exists_digits {t : Bytes} (h : ∀ c ∈ t, inClass c = true) :
    ∃ ds : List Nat, (∀ d ∈ ds, d < 58) ∧ ds.map symbol = t := by
  induction t with
  | nil => exact ⟨[], fun _ hd => (nomatch hd), rfl⟩
  | cons c t ih =>
      obtain ⟨ds, hds, rfl⟩ := ih fun e he => h e (List.mem_cons_of_mem _ he)
      have hc := h c (List.mem_cons_self ..)
      rw [← UInt8.ofNat_toNat (x := c), inClass_iff c.toNat_lt] at hc
      obtain ⟨d, hd, hsymbol⟩ := hc
      rw [UInt8.ofNat_toNat] at hsymbol
      refine ⟨d :: ds, ?_, by rw [List.map_cons, hsymbol]⟩
      intro e he
      rcases List.mem_cons.mp he with rfl | he
      · exact hd
      · exact hds e he

set_option maxRecDepth 4000 in
/-- No symbol is the sign of padding. -/
theorem symbol_ne_EQUALS : ∀ d < 58, symbol d ≠ EQUALS := by
  decide

/-- Text has a symbol other than that of zero if its digits have one other than zero. -/
theorem exists_ne_ONE_iff {ds : List Nat} (hds : ∀ d ∈ ds, d < 58) :
    (∃ c ∈ ds.map symbol, c ≠ ONE) ↔ ∃ d ∈ ds, d ≠ 0 := by
  simp only [List.mem_map, exists_exists_and_eq_and]
  constructor
  · intro h
    obtain ⟨d, hd, hne⟩ := h
    exact ⟨d, hd, fun h0 => hne ((symbol_eq_ONE_iff d (hds d hd)).mpr h0)⟩
  · intro h
    obtain ⟨d, hd, hne⟩ := h
    exact ⟨d, hd, fun h1 => hne ((symbol_eq_ONE_iff d (hds d hd)).mp h1)⟩

/-- What the expression accepts is decoded unless it is empty, ends with `=` or has too
many ones. -/
theorem decodes_iff {t : Bytes} (his : is t = true) :
    (∃ v, decode t = .ok v) ↔ t ≠ [] ∧ EQUALS ∉ t ∧ leading ONE t < 2 ^ 31 := by
  constructor
  · intro h
    obtain ⟨v, hv⟩ := h
    obtain ⟨ds, hne, hds, rfl, hlt, -⟩ := decode_eq_ok.mp hv
    refine ⟨by simpa using hne, ?_, by rwa [leading_map_symbol hds]⟩
    intro hmem
    obtain ⟨d, hd, hsymbol⟩ := List.mem_map.mp hmem
    exact symbol_ne_EQUALS d (hds d hd) hsymbol
  · intro h
    obtain ⟨hne, hequals, hlt⟩ := h
    have hrest : t.dropWhile inClass = [] := by
      have hmem := of_decide_eq_true his
      rcases List.mem_cons.mp hmem with hnil | hmem
      · exact hnil
      · exfalso
        apply hequals
        apply (List.dropWhile_sublist inClass).subset
        rcases List.mem_cons.mp hmem with hone | hmem
        · rw [hone]
          exact List.mem_singleton_self _
        · rw [List.mem_singleton.mp hmem]
          exact List.mem_cons_self ..
    obtain ⟨ds, hds, rfl⟩ := exists_digits (List.dropWhile_eq_nil_iff.mp hrest)
    rw [leading_map_symbol hds] at hlt
    exact ⟨_, decode_eq_ok.mpr ⟨ds, by simpa using hne, hds, rfl, hlt, rfl⟩⟩

/-! ### The checksum -/

section Checksum

variable {C : Primitives}

/-- A checksum is four bytes. -/
theorem length_checksum (s : Bytes) : (checksum C s).length = 4 := by
  rw [checksum, List.length_take, C.sha256_length]
  rfl

/-- Decoded data are cut in front of the last four bytes. -/
theorem decodeWithChecksum_eq_ok {t payload : Bytes} :
    decodeWithChecksum C t = .ok payload ↔ decode t = .ok (payload ++ checksum C payload) := by
  unfold decodeWithChecksum
  constructor
  · intro h
    obtain ⟨data, hdata, h⟩ := Throwing.bind_eq_ok h
    obtain ⟨cut, hcut, h⟩ := Throwing.bind_eq_ok h
    obtain ⟨check, hcheck, h⟩ := Throwing.bind_eq_ok h
    by_cases hsame : check = checksum C cut
    · rw [if_neg (not_not.mpr hsame)] at h
      obtain rfl := Except.ok.inj h
      unfold Crypto.substr at hcut hcheck
      rw [if_pos (Nat.zero_le _)] at hcut
      by_cases hpos : sizeSub data.length 4 ≤ data.length
      · rw [if_pos hpos] at hcheck
        obtain rfl := Except.ok.inj hcut
        obtain rfl := Except.ok.inj hcheck
        rw [hdata, ← hsame]
        unfold Splice.slice
        rw [List.drop_zero, List.take_of_length_le (l := data.drop _) (by simp),
          List.take_append_drop]
      · rw [if_neg hpos] at hcheck
        cases hcheck
    · rw [if_pos hsame] at h
      cases h
  · intro h
    have hlength : sizeSub (payload ++ checksum C payload).length 4 = payload.length := by
      rw [List.length_append, length_checksum, sizeSub, if_pos (by omega)]
      omega
    have hcut : Crypto.substr (payload ++ checksum C payload) 0 payload.length = .ok payload := by
      rw [Crypto.substr, if_pos (Nat.zero_le _), Splice.slice, List.drop_zero, List.take_left]
    have hcheck : Crypto.substr (payload ++ checksum C payload) payload.length
        (payload ++ checksum C payload).length = .ok (checksum C payload) := by
      rw [Crypto.substr, if_pos (by simp), Splice.slice, List.drop_left,
        List.take_of_length_le (by simp)]
    simp only [h, bind, Except.bind, hlength, hcut, hcheck]
    exact if_neg (not_not.mpr rfl)

/-- `decodeWithChecksum(encodeWithChecksum(s)) == s`. -/
def ChecksumBack (C : Primitives) (s : Bytes) : Prop :=
  ∃ t, encodeWithChecksum C s = .ok t ∧ decodeWithChecksum C t = .ok s

/-- With a checksum, bytes come back exactly if they do with the checksum written behind them.
-/
theorem checksumBack_iff (s : Bytes) : ChecksumBack C s ↔ DecodesBack (s ++ checksum C s) := by
  unfold ChecksumBack DecodesBack encodeWithChecksum
  simp only [decodeWithChecksum_eq_ok]

/-- The length of decoded data below four bytes wraps around. -/
theorem decodeWithChecksum_short {t v : Bytes} (h : decode t = .ok v) (hshort : v.length < 4) :
    decodeWithChecksum C t = .error .outOfRange := by
  have hwrap : ¬ sizeSub v.length 4 ≤ v.length := by
    unfold sizeSub
    rw [if_neg (by omega)]
    omega
  have hcut : Crypto.substr v 0 (sizeSub v.length 4) =
      .ok (Splice.slice v 0 (sizeSub v.length 4)) := if_pos (Nat.zero_le _)
  have hcheck : Crypto.substr v (sizeSub v.length 4) v.length = .error .outOfRange :=
    if_neg hwrap
  unfold decodeWithChecksum
  simp only [h, bind, Except.bind, hcut, hcheck]

end Checksum

/-! ### When Base58 is lossless -/

/-- **When Base58 is lossless.**  A string comes back exactly if it is not only zeros, a
numeral exactly if it is not only ones, and an accepted string is decoded exactly if it
is a numeral that is not empty, each time with a number of leading characters that an
`int` holds.  Data with a checksum come back when the data and the checksum are not only
zeros, and decoded data without room for a checksum are refused. -/
theorem lossless_iff (C : Primitives) :
    (∀ s, DecodesBack s ↔ (∃ b ∈ s, b ≠ 0) ∧ leading 0 s < 2 ^ 31) ∧
    (∀ t, t ≠ [] → (∀ c ∈ t, inClass c = true) →
      (EncodesBack t ↔ (∃ c ∈ t, c ≠ ONE) ∧ leading ONE t < 2 ^ 31)) ∧
    (∀ t, is t = true →
      ((∃ v, decode t = .ok v) ↔ t ≠ [] ∧ EQUALS ∉ t ∧ leading ONE t < 2 ^ 31)) ∧
    (∀ s, ChecksumBack C s ↔
      (∃ b ∈ s ++ checksum C s, b ≠ 0) ∧ leading 0 (s ++ checksum C s) < 2 ^ 31) ∧
    (∀ t v, decode t = .ok v → v.length < 4 →
      ∃ e, decodeWithChecksum C t = .error e ∧ e.Thrown) := by
  refine ⟨decode_encode, ?_, fun t => decodes_iff, ?_, ?_⟩
  · intro t hne hclass
    obtain ⟨ds, hds, rfl⟩ := exists_digits hclass
    rw [encode_decode (by simpa using hne) hds, exists_ne_ONE_iff hds, leading_map_symbol hds]
  · intro s
    rw [checksumBack_iff, decode_encode]
  · intro t v hdecode hshort
    refine ⟨_, decodeWithChecksum_short hdecode hshort, ?_⟩
    unfold CryptoError.Thrown
    decide

/-- Two zeros and a seven, as a string and as a numeral. -/
theorem lossless_sample :
    DecodesBack [0, 0, 7] ∧ EncodesBack (ascii ['1', '1', '7']) ∧
      ∃ v, decode (ascii ['1', '1', '7']) = .ok v := by
  obtain ⟨hdecode, hencode, his, -, -⟩ := lossless_iff samplePrimitives
  refine ⟨(hdecode _).mpr ⟨⟨7, by simp, by decide⟩, ?_⟩, ?_, ?_⟩
  · show 2 < 2 ^ 31
    omega
  · exact (hencode _ (by decide) (by decide +kernel)).mpr
      ⟨⟨55, by decide, by decide⟩, by decide +kernel⟩
  · exact (his _ (by decide +kernel)).mpr ⟨by decide, by decide +kernel, by decide +kernel⟩

/-- The empty string is encoded as `1`, which is decoded as a zero; and the expression
accepts the empty string and a single `=`, which are no numerals. -/
theorem not_lossless :
    (encode [] = .ok [ONE] ∧ decode [ONE] = .ok [0] ∧ ¬ DecodesBack []) ∧
      (is [] = true ∧ decode [] = .error .invalidArgument) ∧
      is [EQUALS] = true ∧ decode [EQUALS] = .error .invalidArgument := by
  have hencode : encode [] = .ok [ONE] := by
    rw [encode_eq]
    rfl
  have hdecode : decode [ONE] = .ok [0] := by
    have h : decode ([0].map symbol) = _ := decode_map_symbol (by decide) (by decide)
    rw [if_pos (by decide)] at h
    exact h
  refine ⟨⟨hencode, hdecode, ?_⟩, ⟨by decide, by decide⟩, by decide, by decide⟩
  intro h
  obtain ⟨t, ht, hback⟩ := h
  obtain rfl := Except.ok.inj (hencode.symm.trans ht)
  cases Except.ok.inj (hdecode.symm.trans hback)

end Base58

end PrivmxEndpoint
