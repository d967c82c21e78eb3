import Mathlib

/-!
# Cipher block chaining

A block cipher is used on strings of any length: the string is padded to whole blocks as
in PKCS7, and each block is combined with the cipher text of the one before it.

Deciphering inverts enciphering (`decrypt_encrypt`).  The first block of a cipher text is
the vector of the rest, so that a string may carry its own vector: behind a first block of
any content the rest is deciphered with that block's cipher text (`encrypt_append`).
-/

namespace Cbc

/-- Strings of the same length, combined byte by byte. -/
def xorBytes (a b : List UInt8) : List UInt8 := List.zipWith (· ^^^ ·) a b

/-- The sum of two blocks is a block. -/
theorem length_xorBytes {a b : List UInt8} (h : a.length = b.length) :
    (xorBytes a b).length = a.length := by
  rw [xorBytes, List.length_zipWith, ← h, Nat.min_self]

/-- A string combined twice is the string itself. -/
theorem xorBytes_xorBytes {a b : List UInt8} (h : a.length = b.length) :
    xorBytes (xorBytes a b) b = a := by
  induction a generalizing b with
  | nil => rfl
  | cons x a ih =>
      cases b with
      | nil => cases h
      | cons y b =>
          have hrest := ih (b := b) (by simpa using h)
          have hcancel : x ^^^ y ^^^ y = x := by
            rw [UInt8.xor_assoc, UInt8.xor_self, UInt8.xor_zero]
          show (x ^^^ y ^^^ y) :: xorBytes (xorBytes a b) b = x :: a
          rw [hcancel, hrest]

/-- A cipher on blocks of `n` bytes with keys of `m` bytes. -/
structure BlockCipher (m n : Nat) where
  /-- Arguments are the key and the block. -/
  encrypt : List UInt8 → List UInt8 → List UInt8
  decrypt : List UInt8 → List UInt8 → List UInt8
  length_encrypt : ∀ key block, key.length = m → block.length = n →
    (encrypt key block).length = n
  decrypt_encrypt : ∀ key block, key.length = m → block.length = n →
    decrypt key (encrypt key block) = block

variable {m n : Nat} (B : BlockCipher m n)

/-- The given number of blocks, chained to the block before them. -/
def encryptBlocks (key : List UInt8) : Nat → List UInt8 → List UInt8 → List UInt8
  | 0, _, _ => []
  | k + 1, before, data =>
      let block := B.encrypt key (xorBytes (data.take n) before)
      block ++ encryptBlocks key k block (data.drop n)

@[inherit_doc encryptBlocks]
def decryptBlocks (key : List UInt8) : Nat → List UInt8 → List UInt8 → List UInt8
  | 0, _, _ => []
  | k + 1, before, data =>
      xorBytes (B.decrypt key (data.take n)) before ++
        decryptBlocks key k (data.take n) (data.drop n)

/-- PKCS7: as many bytes as are missing to a whole block, each of them that number. -/
def pad (n : Nat) (data : List UInt8) : List UInt8 :=
  data ++ List.replicate (n - data.length % n) (UInt8.ofNat (n - data.length % n))

def unpad (n : Nat) (padded : List UInt8) : Option (List UInt8) :=
  match padded.getLast? with
  | none => none
  | some last =>
      if 0 < last.toNat ∧ last.toNat ≤ n ∧ last.toNat ≤ padded.length ∧
          padded.drop (padded.length - last.toNat) = List.replicate last.toNat last then
        some (padded.take (padded.length - last.toNat))
      else
        none

def encrypt (key iv data : List UInt8) : List UInt8 :=
  encryptBlocks B key ((pad n data).length / n) iv (pad n data)

/-- Only whole blocks, and at least one, can be deciphered. -/
def decrypt (key iv data : List UInt8) : Option (List UInt8) :=
  if data = [] ∨ data.length % n ≠ 0 then none
  else unpad n (decryptBlocks B key (data.length / n) iv data)

variable {B} {key iv : List UInt8}

/-! ### Blocks -/

/-- Encryption keeps the length of full blocks. -/
theorem length_encryptBlocks (hkey : key.length = m) (k : Nat) {before data : List UInt8}
    (hbefore : before.length = n) (hdata : data.length = k * n) :
    (encryptBlocks B key k before data).length = k * n := by
  induction k generalizing before data with
  | zero => simp [encryptBlocks]
  | succ k ih =>
      have hhead : (data.take n).length = n := by
        rw [List.length_take, hdata, Nat.succ_mul]
        omega
      have hblock := B.length_encrypt key (xorBytes (data.take n) before) hkey
        ((length_xorBytes (hhead.trans hbefore.symm)).trans hhead)
      have hrest : (data.drop n).length = k * n := by
        rw [List.length_drop, hdata, Nat.succ_mul]
        omega
      rw [encryptBlocks, List.length_append, hblock, ih hblock hrest, Nat.succ_mul]
      omega

/-- Blocks that were encrypted in a chain are decrypted in it. -/
theorem decrypt_encryptBlocks (hkey : key.length = m) (k : Nat) {before data : List UInt8}
    (hbefore : before.length = n) (hdata : data.length = k * n) :
    decryptBlocks B key k before (encryptBlocks B key k before data) = data := by
  induction k generalizing before data with
  | zero =>
      have hnil : data = [] := List.eq_nil_of_length_eq_zero (by rw [hdata, Nat.zero_mul])
      rw [hnil]
      rfl
  | succ k ih =>
      have hhead : (data.take n).length = n := by
        rw [List.length_take, hdata, Nat.succ_mul]
        omega
      have hmixed := (length_xorBytes (hhead.trans hbefore.symm)).trans hhead
      have hblock := B.length_encrypt key (xorBytes (data.take n) before) hkey hmixed
      have hrest : (data.drop n).length = k * n := by
        rw [List.length_drop, hdata, Nat.succ_mul]
        omega
      rw [encryptBlocks, decryptBlocks, List.take_left' hblock, List.drop_left' hblock,
        B.decrypt_encrypt key _ hkey hmixed, xorBytes_xorBytes (hhead.trans hbefore.symm),
        ih hblock hrest, List.take_append_drop]

/-! ### Padding -/

/-- The padding fills the last block, or adds one. -/
theorem length_pad (n : Nat) (data : List UInt8) :
    (pad n data).length = data.length + (n - data.length % n) := by
  rw [pad, List.length_append, List.length_replicate]

/-- A padded text consists of full blocks. -/
theorem mod_length_pad (hn : 0 < n) (data : List UInt8) : (pad n data).length % n = 0 := by
  have hlt := Nat.mod_lt data.length hn
  have hsplit := Nat.div_add_mod data.length n
  have hlength : (pad n data).length = n * (data.length / n + 1) := by
    rw [length_pad, Nat.mul_succ]
    omega
  rw [hlength, Nat.mul_mod_right]

/-- The padding is taken off again. -/
theorem unpad_pad (hn : 0 < n) (hbyte : n < 256) (data : List UInt8) :
    unpad n (pad n data) = some data := by
  have hlt := Nat.mod_lt data.length hn
  obtain ⟨p, hp⟩ : ∃ p, n - data.length % n = p + 1 := ⟨n - data.length % n - 1, by omega⟩
  have hlast : (pad n data).getLast? = some (UInt8.ofNat (p + 1)) := by
    simp [pad, hp, List.getLast?_append, List.getLast?_replicate]
  have hnat : (UInt8.ofNat (p + 1)).toNat = p + 1 := UInt8.toNat_ofNat_of_lt' (by
    show p + 1 < 256
    omega)
  have hlength := length_pad n data
  have hcut : (pad n data).length - (p + 1) = data.length := by omega
  unfold unpad
  rw [hlast]
  simp only [hnat]
  rw [hcut, if_pos]
  · rw [pad, List.take_left]
  · refine ⟨by omega, by omega, by omega, ?_⟩
    rw [pad, List.drop_left, hp]

/-! ### Strings -/

/-- The number of blocks of a padded text. -/
theorem length_pad_eq (hn : 0 < n) (data : List UInt8) :
    (pad n data).length = (pad n data).length / n * n :=
  (Nat.div_mul_cancel (Nat.dvd_of_mod_eq_zero (mod_length_pad hn data))).symm

/-- The length of a ciphertext. -/
theorem length_encrypt (hn : 0 < n) (hkey : key.length = m) (hiv : iv.length = n)
    (data : List UInt8) : (encrypt B key iv data).length = data.length + (n - data.length % n) := by
  rw [encrypt, length_encryptBlocks hkey _ hiv (length_pad_eq hn data), ← length_pad_eq hn,
    length_pad]

/-- **A text that was encrypted is decrypted.** -/
theorem decrypt_encrypt (hn : 0 < n) (hbyte : n < 256) (hkey : key.length = m)
    (hiv : iv.length = n) (data : List UInt8) :
    decrypt B key iv (encrypt B key iv data) = some data := by
  have hlength : (encrypt B key iv data).length = (pad n data).length := by
    rw [length_encrypt hn hkey hiv, length_pad]
  have hlt := Nat.mod_lt data.length hn
  have hne : encrypt B key iv data ≠ [] := by
    intro hnil
    rw [hnil, length_pad, List.length_nil] at hlength
    omega
  have hwhole := mod_length_pad hn data
  unfold decrypt
  rw [hlength, if_neg (by tauto), encrypt,
    decrypt_encryptBlocks hkey _ hiv (length_pad_eq hn data), unpad_pad hn hbyte]

/-- The cipher text of the first block is the vector of the rest. -/
theorem encrypt_append (hn : 0 < n) {head : List UInt8} (hhead : head.length = n)
    (data : List UInt8) :
    encrypt B key iv (head ++ data) =
      B.encrypt key (xorBytes head iv) ++
        encrypt B key (B.encrypt key (xorBytes head iv)) data := by
  have hpad : pad n (head ++ data) = head ++ pad n data := by
    have hmod : (head ++ data).length % n = data.length % n := by
      rw [List.length_append, hhead, Nat.add_mod_left]
    rw [pad, pad, hmod, List.append_assoc]
  have hcount : (head ++ pad n data).length / n = (pad n data).length / n + 1 := by
    rw [List.length_append, hhead, Nat.add_comm, Nat.add_div_right _ hn]
  rw [encrypt, hpad, hcount, encryptBlocks, List.take_left' hhead, List.drop_left' hhead]
  rfl

end Cbc
