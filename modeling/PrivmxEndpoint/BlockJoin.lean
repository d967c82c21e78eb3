import PrivmxEndpoint.ListSplice

/-!
# Sequences stored as consecutive blocks

A long sequence is kept as blocks of a fixed size `b`, of which only the last
may be shorter.  `join` concatenates a run of blocks, `block` cuts a block out
of a sequence, and `Blocked` says that a family of blocks has this shape.

Three facts carry the development: a block of the joined sequence is found at
its index times the block size (`slice_join`), replacing a run of blocks by a
single write at the start of the run replaces exactly these blocks
(`writeAt_join`), and the sum of the length changes of the replaced blocks is
the change of the total length (`Replaces.length_add_growth`).
-/

namespace Blocks

open Splice

variable {α : Type*}

/-- The blocks `f i, …, f (i + k - 1)` one after another. -/
def join (f : Nat → List α) (i k : Nat) : List α :=
  (List.range' i k).flatMap f

/-- The `i`-th block of size `b` of a sequence. -/
def block (b : Nat) (xs : List α) (i : Nat) : List α :=
  slice xs (i * b) b

/-- Replace the `k` blocks from index `i` on. -/
def patch (f g : Nat → List α) (i k : Nat) : Nat → List α :=
  fun j => if i ≤ j ∧ j < i + k then g j else f j

/-- The first `n` blocks of `f` have size `b`, except that the last of them
may be shorter. -/
structure Blocked (b n : Nat) (f : Nat → List α) : Prop where
  full : ∀ j, j + 1 < n → (f j).length = b
  fits : ∀ j, j < n → (f j).length ≤ b

@[simp] theorem join_zero (f : Nat → List α) (i : Nat) : join f i 0 = [] := by
  simp [join]

/-- The first block comes first. -/
theorem join_succ (f : Nat → List α) (i k : Nat) :
    join f i (k + 1) = f i ++ join f (i + 1) k := by
  simp [join, List.range'_succ]

/-- A run of blocks is cut anywhere between two of them. -/
theorem join_add (f : Nat → List α) (i m n : Nat) :
    join f i (m + n) = join f i m ++ join f (i + m) n := by
  induction m generalizing i with
  | zero => simp
  | succ m ih =>
      have h : m + 1 + n = (m + n) + 1 := by omega
      rw [h, join_succ, ih, join_succ, List.append_assoc]
      congr 3
      omega

/-- The last block comes last. -/
theorem join_last (f : Nat → List α) (i k : Nat) :
    join f i (k + 1) = join f i k ++ f (i + k) := by
  rw [join_add, join_succ]
  simp

/-- Only the blocks of the run count. -/
theorem join_congr {f g : Nat → List α} {i k : Nat}
    (h : ∀ j, i ≤ j → j < i + k → f j = g j) : join f i k = join g i k := by
  induction k generalizing i with
  | zero => simp
  | succ k ih =>
      rw [join_succ, join_succ, h i (by omega) (by omega)]
      congr 1
      exact ih (fun j h1 h2 => h j (by omega) (by omega))

/-- Full blocks make a full run. -/
theorem length_join {f : Nat → List α} {b i k : Nat}
    (h : ∀ j, i ≤ j → j < i + k → (f j).length = b) :
    (join f i k).length = k * b := by
  induction k generalizing i with
  | zero => simp
  | succ k ih =>
      rw [join_succ, List.length_append, h i (by omega) (by omega),
        ih (fun j h1 h2 => h j (by omega) (by omega))]
      ring

/-- Blocks within the bound make a run within it. -/
theorem length_join_le {f : Nat → List α} {b i k : Nat}
    (h : ∀ j, i ≤ j → j < i + k → (f j).length ≤ b) :
    (join f i k).length ≤ k * b := by
  induction k generalizing i with
  | zero => simp
  | succ k ih =>
      have h1 := h i (by omega) (by omega)
      have h2 := ih (i := i + 1) (fun j h1 h2 => h j (by omega) (by omega))
      rw [join_succ, List.length_append, Nat.succ_mul]
      omega

/-- The length of a run in which only the last block may be short. -/
theorem length_join_last {f : Nat → List α} {b i k : Nat}
    (h : ∀ j, i ≤ j → j < i + k → (f j).length = b) :
    (join f i (k + 1)).length = k * b + (f (i + k)).length := by
  rw [join_last, List.length_append, length_join h]

/-- The block-wise length differences of two runs add up. -/
theorem sum_length_sub (f g : Nat → List α) (i k : Nat) :
    ((List.range' i k).map fun j => ((g j).length : Int) - (f j).length).sum =
      (join g i k).length - (join f i k).length := by
  induction k generalizing i with
  | zero => simp
  | succ k ih =>
      rw [List.range'_succ, List.map_cons, List.sum_cons, ih, join_succ, join_succ,
        List.length_append, List.length_append]
      push_cast
      ring

/-- Before any block of the grid all blocks are full. -/
theorem Blocked.length_before {b n i : Nat} {f : Nat → List α}
    (hf : Blocked b n f) (hi : i < n) : (join f 0 i).length = i * b :=
  length_join (fun j _ hj => hf.full j (by omega))

/-- A blocked list is no longer than its grid. -/
theorem Blocked.length_le {b n : Nat} {f : Nat → List α} (hf : Blocked b n f) :
    (join f 0 n).length ≤ n * b :=
  length_join_le (fun j _ hj => hf.fits j (by omega))

/-- **Addressing.**  Block `i` of the joined sequence stands at `i * b`, and
nothing stands behind the last block. -/
theorem slice_join {b n : Nat} {f : Nat → List α} (hf : Blocked b n f) (i : Nat) :
    slice (join f 0 n) (i * b) b = if i < n then f i else [] := by
  by_cases hi : i < n
  · have hsplit : join f 0 n = join f 0 i ++ (f i ++ join f (i + 1) (n - i - 1)) := by
      have hn : n = i + ((n - i - 1) + 1) := by omega
      conv_lhs => rw [hn, join_add, join_succ]
      simp
    have hlen := hf.length_before hi
    rw [if_pos hi, slice, hsplit, ← hlen, List.drop_left]
    by_cases hlast : i + 1 < n
    · rw [← hf.full i hlast, List.take_left]
    · have hz : n - i - 1 = 0 := by omega
      rw [hz, join_zero, List.append_nil, List.take_of_length_le (hf.fits i hi)]
  · rw [if_neg hi]
    apply slice_eq_nil_of_le
    have h1 := hf.length_le
    have h2 : n * b ≤ i * b := Nat.mul_le_mul_right b (by omega)
    omega

/-- How much of the list a block covers. -/
theorem length_block (b : Nat) (xs : List α) (i : Nat) :
    (block b xs i).length = min b (xs.length - i * b) := by
  simp [block]

/-- A block is no longer than the block size. -/
theorem length_block_le (b : Nat) (xs : List α) (i : Nat) :
    (block b xs i).length ≤ b := by
  rw [length_block]
  omega

/-- A block that ends within the list is full. -/
theorem length_block_full {b : Nat} {xs : List α} {i : Nat}
    (h : (i + 1) * b ≤ xs.length) : (block b xs i).length = b := by
  rw [length_block]
  rw [Nat.succ_mul] at h
  omega

/-- Consecutive blocks of a sequence join to a window of it. -/
theorem join_block (b : Nat) (xs : List α) (i k : Nat) :
    join (block b xs) i k = slice xs (i * b) (k * b) := by
  induction k generalizing i with
  | zero => simp [slice]
  | succ k ih =>
      rw [join_succ, ih, block, Nat.succ_mul, slice_append_slice, Nat.succ_mul,
        Nat.add_comm b]

/-- A sequence is the join of its blocks. -/
theorem join_block_self {b n : Nat} {xs : List α} (h : xs.length ≤ n * b) :
    join (block b xs) 0 n = xs := by
  rw [join_block]
  simp [slice, h]

/-- Inside the run the new blocks stand. -/
theorem patch_inside {f g : Nat → List α} {i k j : Nat} (h1 : i ≤ j) (h2 : j < i + k) :
    patch f g i k j = g j := by
  simp [patch, h1, h2]

/-- Outside the run the old blocks stay. -/
theorem patch_outside {f g : Nat → List α} {i k j : Nat} (h : j < i ∨ i + k ≤ j) :
    patch f g i k j = f j := by
  unfold patch
  rw [if_neg (by omega)]

/-- The patched list: what was before the run, the new blocks, what was behind it. -/
theorem join_patch {f g : Nat → List α} {i k m : Nat} :
    join (patch f g i k) 0 (i + k + m) = join f 0 i ++ join g i k ++ join f (i + k) m := by
  rw [join_add, join_add, Nat.zero_add, Nat.zero_add]
  congr 1
  · congr 1
    · exact join_congr (fun j _ hj => patch_outside (Or.inl (by omega)))
    · exact join_congr (fun j h1 h2 => patch_inside h1 h2)
  · exact join_congr (fun j h1 _ => patch_outside (Or.inr h1))

/-- What a run of replacement blocks must satisfy so that writing it over the
old blocks replaces them and nothing else. -/
structure Replaces (b n : Nat) (f g : Nat → List α) (i k : Nat) (cut : Bool) : Prop where
  pos : 0 < k
  start_le : i ≤ n
  before : ∀ j, j < i → (f j).length = b
  full : ∀ j, i ≤ j → j + 1 < i + k → (g j).length = b
  fits : (g (i + k - 1)).length ≤ b
  kept : cut = false → i + k < n → (g (i + k - 1)).length = b
  grows : cut = false → i + k = n → (f (i + k - 1)).length ≤ (g (i + k - 1)).length

/-- The number of blocks after a run of blocks has been written. -/
def countAfter (n i k : Nat) (cut : Bool) : Nat :=
  if cut then i + k else max n (i + k)

/-- The length of the new run. -/
theorem Replaces.length_run {b n i k : Nat} {f g : Nat → List α} {cut : Bool}
    (h : Replaces b n f g i k cut) :
    (join g i k).length = (k - 1) * b + (g (i + k - 1)).length := by
  obtain ⟨m, rfl⟩ : ∃ m, k = m + 1 := ⟨k - 1, by have := h.pos; omega⟩
  have hfull : ∀ j, i ≤ j → j < i + m → (g j).length = b :=
    fun j h1 h2 => h.full j h1 (by omega)
  simpa using length_join_last hfull

/-- The run starts within the old list. -/
theorem Replaces.start_length_le {b n i k : Nat} {f g : Nat → List α} {cut : Bool}
    (h : Replaces b n f g i k cut) : i * b ≤ (join f 0 n).length := by
  have hn : n = i + (n - i) := by have := h.start_le; omega
  have hlen : (join f 0 i).length = i * b := length_join (fun j _ hj => h.before j (by omega))
  rw [hn, join_add, List.length_append, hlen]
  exact Nat.le_add_right _ _

/-- All blocks but the last are full. -/
theorem Blocked.length_join {b n : Nat} {f : Nat → List α} (hf : Blocked b n f) (hn : 0 < n) :
    (join f 0 n).length = (n - 1) * b + (f (n - 1)).length := by
  have hsucc : n = (n - 1) + 1 := by omega
  conv_lhs => rw [hsucc]
  rw [length_join_last (fun j _ hj => hf.full j (by omega)), Nat.zero_add]

/-- A run that keeps its tail and reaches the end covers the old sequence. -/
theorem Replaces.length_le_run {b n i k : Nat} {f g : Nat → List α}
    (hf : Blocked b n f) (h : Replaces b n f g i k false)
    (hend : (join f 0 n).length ≤ (i + k) * b) :
    (join f 0 n).length ≤ i * b + (join g i k).length := by
  have hk := h.pos
  have hmul : (i + k) * b = i * b + (k - 1) * b + b := by
    rw [← Nat.add_mul, ← Nat.succ_mul]
    congr 1
    omega
  rw [h.length_run]
  rcases lt_trichotomy (i + k) n with hlt | heq | hgt
  · rw [h.kept rfl hlt]
    omega
  · have hgrow := h.grows rfl heq
    have hpred : (n - 1) * b = i * b + (k - 1) * b := by
      rw [← Nat.add_mul]
      congr 1
      omega
    rw [heq] at hgrow
    rw [hf.length_join (by omega), heq, hpred]
    omega
  · have h1 := hf.length_le
    have h2 : n * b ≤ (i + (k - 1)) * b := Nat.mul_le_mul_right b (by omega)
    rw [Nat.add_mul] at h2
    omega

/-- A run that keeps its tail and ends inside the old sequence is full. -/
theorem Replaces.length_run_full {b n i k : Nat} {f g : Nat → List α} (hb : 0 < b)
    (hf : Blocked b n f) (h : Replaces b n f g i k false)
    (hend : (i + k) * b ≤ (join f 0 n).length) : (join g i k).length = k * b := by
  have hk := h.pos
  have hle : i + k ≤ n := Nat.le_of_mul_le_mul_right (le_trans hend hf.length_le) hb
  have hlast : (g (i + k - 1)).length = b := by
    rcases Nat.lt_or_eq_of_le hle with hlt | heq
    · exact h.kept rfl hlt
    · have hgrow := h.grows rfl heq
      have hfits := h.fits
      have hn : n * b = (n - 1) * b + b := by
        rw [← Nat.succ_mul]
        congr 1
        omega
      rw [hf.length_join (by omega), heq, hn] at hend
      rw [heq] at hgrow hfits ⊢
      omega
  rw [h.length_run, hlast, ← Nat.succ_mul]
  congr 1
  omega

/-- A splice that reaches the last block does not depend on the cut, and one
that ends before it does. -/
theorem Replaces.cut_eq_iff {b n i k : Nat} {f g : Nat → List α}
    (hb : ∀ j, 0 < (f j).length) (hf : Blocked b n f) (hrep : Replaces b n f g i k false) :
    writeAt (join f 0 n) (i * b) (join g i k) true =
        writeAt (join f 0 n) (i * b) (join g i k) false ↔ n ≤ i + k := by
  constructor
  · intro heq
    by_contra hlt
    rw [Nat.not_le] at hlt
    have hpos := hrep.pos
    have hlen := congrArg List.length heq
    have hrun : (join g i k).length = k * b := by
      rw [hrep.length_run, hrep.kept rfl hlt, ← Nat.succ_mul]
      congr 1
      omega
    have hlast := hb (n - 1)
    have hle : (i + k) * b ≤ (n - 1) * b := Nat.mul_le_mul_right b (by omega)
    rw [length_writeAt hrep.start_length_le, length_writeAt hrep.start_length_le, hrun,
      hf.length_join (by omega)] at hlen
    rw [Nat.add_mul] at hle
    simp only [if_true, Bool.false_eq_true, if_false] at hlen
    omega
  · intro hle
    have hend := hrep.length_le_run hf (le_trans hf.length_le (Nat.mul_le_mul_right b hle))
    rw [writeAt_of_length_le true hend, writeAt_of_length_le false hend]

/-- **Replacing blocks.**  One write at the first replaced block replaces the
whole run; the other blocks keep their contents and their places. -/
theorem writeAt_join {b n i k : Nat} {f g : Nat → List α} {cut : Bool}
    (hf : Blocked b n f) (h : Replaces b n f g i k cut) :
    writeAt (join f 0 n) (i * b) (join g i k) cut =
      join (patch f g i k) 0 (countAfter n i k cut) := by
  have hbefore : (join f 0 i).length = i * b :=
    length_join (fun j _ hj => h.before j (by omega))
  have hsplit : join f 0 n = join f 0 i ++ join f i (n - i) := by
    have hn : n = i + (n - i) := by have := h.start_le; omega
    conv_lhs => rw [hn, join_add]
    simp
  have htake : (join f 0 n).take (i * b) = join f 0 i := by
    rw [hsplit, ← hbefore, List.take_left]
  cases cut with
  | true => simpa [writeAt, htake, countAfter] using (join_patch (m := 0)).symm
  | false =>
      by_cases hlt : i + k < n
      · have hlen : (join g i k).length = k * b := by
          rw [h.length_run, h.kept rfl hlt]
          have hk := h.pos
          obtain ⟨m, rfl⟩ : ∃ m, k = m + 1 := ⟨k - 1, by omega⟩
          simp [Nat.succ_mul]
        have hdrop : (join f 0 n).drop (i * b + (join g i k).length) =
            join f (i + k) (n - (i + k)) := by
          have htail : join f 0 n = join f 0 (i + k) ++ join f (i + k) (n - (i + k)) := by
            have hn : n = (i + k) + (n - (i + k)) := by omega
            conv_lhs => rw [hn, join_add _ _ (i + k), Nat.zero_add]
          rw [hlen, ← Nat.add_mul, ← hf.length_before hlt, htail, List.drop_left]
        have hcount : countAfter n i k false = i + k + (n - (i + k)) := by
          simp only [countAfter, Bool.false_eq_true, if_false]
          omega
        rw [hcount, join_patch, ← hdrop, writeAt, htake]
        simp
      · have hcount : countAfter n i k false = i + k + 0 := by
          simp only [countAfter, Bool.false_eq_true, if_false]
          omega
        have hle : (join f 0 n).length ≤ i * b + (join g i k).length :=
          h.length_le_run hf
            (le_trans hf.length_le (Nat.mul_le_mul_right b (Nat.le_of_not_lt hlt)))
        rw [hcount, join_patch, writeAt_of_length_le false hle, htake]
        simp

/-- The block of a written sequence: the old block up to the write, the part
of the written data that falls into it, and the old rest unless it is cut. -/
theorem block_writeAt {b off i : Nat} {xs d : List α} (hoff : off ≤ xs.length)
    (hi : off < (i + 1) * b) (cut : Bool) :
    block b (writeAt xs off d cut) i =
      (block b xs i).take (off - i * b) ++ (d.drop (i * b - off)).take (b - (off - i * b)) ++
        if cut then [] else
          (block b xs i).drop (off - i * b + (d.drop (i * b - off)).length) := by
  rw [Nat.succ_mul] at hi
  have hlen : ((block b xs i).take (off - i * b)).length = off - i * b := by
    rw [List.length_take, length_block]
    omega
  apply List.ext_getElem?
  intro k
  rw [block, getElem?_slice, getElem?_writeAt hoff, List.append_assoc,
    List.getElem?_append, hlen, List.getElem?_append]
  by_cases h1 : k < off - i * b
  · have h2 : k < b := by omega
    have h3 : i * b + k < off := by omega
    simp [h1, h2, h3, block, slice]
  · by_cases h2 : k < b
    · have h3 : ¬ i * b + k < off := by omega
      have hidx : i * b - off + (k - (off - i * b)) = i * b + k - off := by omega
      by_cases h4 : i * b + k < off + d.length
      · have h5 : k - (off - i * b) < b - (off - i * b) := by omega
        have h6 : k - (off - i * b) < d.length - (i * b - off) := by omega
        simp [h1, h2, h3, h4, h5, h6, hidx]
      · have h5 : ¬ (k - (off - i * b) < b - (off - i * b) ∧
            k - (off - i * b) < d.length - (i * b - off)) := by omega
        cases cut with
        | true => simp [h1, h2, h3, h4, h5]
        | false =>
            have h6 : i * b + (off - i * b + (d.length - (i * b - off)) +
                (k - (off - i * b) - min (b - (off - i * b)) (d.length - (i * b - off)))) =
                i * b + k := by omega
            have h7 : off - i * b + (d.length - (i * b - off)) +
                (k - (off - i * b) - min (b - (off - i * b)) (d.length - (i * b - off))) < b := by
              omega
            simp [h1, h2, h3, h4, h5, h6, h7, block, slice]
    · have h5 : ¬ (k - (off - i * b) < b - (off - i * b) ∧
            k - (off - i * b) < d.length - (i * b - off)) := by omega
      cases cut with
      | true => simp [h1, h2, h5]
      | false =>
          have h7 : ¬ off - i * b + (d.length - (i * b - off)) +
              (k - (off - i * b) - min (b - (off - i * b)) (d.length - (i * b - off))) < b := by
            omega
          simp [h1, h2, h5, h7, block, slice]

/-- A block that ends before the write keeps its contents. -/
theorem block_writeAt_before {b off i : Nat} {xs d : List α} (hoff : off ≤ xs.length)
    (hi : (i + 1) * b ≤ off) (cut : Bool) :
    block b (writeAt xs off d cut) i = block b xs i := by
  rw [Nat.succ_mul] at hi
  apply List.ext_getElem?
  intro k
  rw [block, block, getElem?_slice, getElem?_slice, getElem?_writeAt hoff]
  by_cases h1 : k < b
  · have h2 : i * b + k < off := by omega
    simp [h1, h2]
  · simp [h1]

/-- A block behind a write that keeps its tail keeps its contents. -/
theorem block_writeAt_behind {b off i : Nat} {xs d : List α} (hoff : off ≤ xs.length)
    (hi : off + d.length ≤ i * b) :
    block b (writeAt xs off d false) i = block b xs i :=
  slice_writeAt_behind b hoff hi

/-- The length change that replacing block `j` of `xs` accounts for.  If the
sequence is cut behind the block, it also accounts for all that is removed. -/
def growth (b : Nat) (xs : List α) (g : Nat → List α) (cut : Bool) (j : Nat) : Int :=
  if cut then ((j * b + (g j).length : Nat) : Int) - max (xs.length : Int) ((j * b : Nat) : Int)
  else ((g j).length : Int) - (block b xs j).length

/-- **Growth.**  The changes of the replaced blocks add up to the change of
the whole sequence, where a cut is made behind the last block only. -/
theorem Replaces.length_add_growth {b n i k : Nat} {f g : Nat → List α} {cut : Bool}
    (hb : 0 < b) (hf : Blocked b n f) (h : Replaces b n f g i k cut) :
    ((join f 0 n).length : Int) +
        ((List.range' i k).map fun j =>
          growth b (join f 0 n) g (if j = i + k - 1 then cut else false) j).sum =
      (writeAt (join f 0 n) (i * b) (join g i k) cut).length := by
  have hstart := h.start_length_le
  rw [length_writeAt hstart]
  cases cut with
  | false =>
      have hsum := sum_length_sub (block b (join f 0 n)) g i k
      rw [join_block, length_slice] at hsum
      simp only [growth, ite_self, Bool.false_eq_true, if_false]
      rw [hsum]
      by_cases hend : (i + k) * b ≤ (join f 0 n).length
      · have := h.length_run_full hb hf hend
        rw [Nat.add_mul] at hend
        omega
      · have := h.length_le_run hf (by omega)
        rw [Nat.add_mul] at hend
        omega
  | true =>
      obtain ⟨m, rfl⟩ : ∃ m, k = m + 1 := ⟨k - 1, by have := h.pos; omega⟩
      have hfull : ∀ j, i ≤ j → j < i + m → (g j).length = b :=
        fun j h1 h2 => h.full j h1 (by omega)
      have hinit : (List.range' i m).map (fun j =>
          growth b (join f 0 n) g (if j = i + (m + 1) - 1 then true else false) j) =
          (List.range' i m).map fun j =>
            ((g j).length : Int) - (block b (join f 0 n) j).length := by
        apply List.map_congr_left
        intro j hj
        rw [List.mem_range'_1] at hj
        rw [if_neg (by omega)]
        simp [growth]
      have hlast : growth b (join f 0 n) g (if i + m = i + (m + 1) - 1 then true else false)
          (i + m) = (((i + m) * b + (g (i + m)).length : Nat) : Int) -
            max ((join f 0 n).length : Int) (((i + m) * b : Nat) : Int) := by
        rw [if_pos (by omega)]
        simp [growth]
      rw [List.range'_concat, List.map_append, List.sum_append, Nat.one_mul, hinit,
        List.map_singleton, List.sum_singleton, hlast, sum_length_sub, join_block, length_slice,
        length_join_last hfull, length_join hfull, Nat.add_mul]
      simp only [if_true]
      omega

/-- Writing a run of blocks one by one is one write of the run. -/
theorem writeAll_blocks {b i k : Nat} {xs : List α} {g : Nat → List α} (cut : Bool)
    (hfull : ∀ j, i ≤ j → j + 1 < i + k → (g j).length = b) (hk : 0 < k)
    (hstart : i * b ≤ xs.length) :
    writeAll xs cut ((List.range' i k).map fun j => (j * b, g j)) =
      writeAt xs (i * b) (join g i k) cut := by
  induction k generalizing i xs with
  | zero => omega
  | succ k ih =>
      cases k with
      | zero => simp [writeAll, join_succ]
      | succ k =>
          have hlen := hfull i le_rfl (by omega)
          have hmul : (i + 1) * b = i * b + (g i).length := by rw [Nat.succ_mul, hlen]
          have hstart' : (i + 1) * b ≤ (writeAt xs (i * b) (g i) false).length := by
            rw [length_writeAt hstart, hmul]
            simp
          have hrest := ih (fun j h1 h2 => hfull j (by omega) (by omega)) (Nat.succ_pos k) hstart'
          rw [List.range'_succ, List.map_cons] at hrest
          rw [List.range'_succ, List.map_cons, List.range'_succ, List.map_cons, writeAll, hrest,
            hmul, writeAt_writeAt hstart, Bool.false_or, ← join_succ]
          exact List.cons_ne_nil _ _

/-! ## A cached window of several blocks -/

/-- Consecutive writes of adjacent blocks are one write. -/
theorem foldl_writeAt {b i k base : Nat} {g : Nat → List α} {cut : Bool}
    (hfull : ∀ j, i ≤ j → j + 1 < i + k → (g j).length = b) (hk : 0 < k)
    (hbase : base ≤ i * b) {ys : List α} (hpos : i * b - base ≤ ys.length) :
    (List.range' i k).foldl (fun ys j => writeAt ys (j * b - base) (g j) cut) ys =
      writeAt ys (i * b - base) (join g i k) cut := by
  induction k generalizing i ys with
  | zero => omega
  | succ k ih =>
      rw [List.range'_succ, List.foldl_cons]
      rcases Nat.eq_zero_or_pos k with rfl | hk'
      · simp [join_succ]
      · have hlen := hfull i le_rfl (by omega)
        have hmul : (i + 1) * b - base = i * b - base + (g i).length := by
          rw [Nat.succ_mul, hlen]
          omega
        have hpos' : (i + 1) * b - base ≤ (writeAt ys (i * b - base) (g i) cut).length := by
          rw [length_writeAt hpos, hmul]
          split <;> omega
        rw [ih (fun j h1 h2 => hfull j (by omega) (by omega)) hk'
          (le_trans hbase (Nat.mul_le_mul_right b (Nat.le_succ i))) hpos', hmul,
          writeAt_writeAt hpos, Bool.or_self, ← join_succ]

/-- A run of numbers is cut at any of them. -/
theorem range'_cut {i j k : Nat} (hfirst : i ≤ j) (hlast : j ≤ i + k) :
    List.range' i k = List.range' i (j - i) ++ List.range' j (i + k - j) := by
  have h1 : k = (j - i) + (i + k - j) := by omega
  have h2 : j = i + (j - i) := by omega
  conv_lhs => rw [h1, List.range'_append_1 |>.symm]
  rw [← h2]

/-- Blocks before a window leave it as it is. -/
theorem foldl_before_window {b m i k w : Nat} {g : Nat → List α} {cut : Bool}
    (h : i + k ≤ w * m) (window : List α) :
    (List.range' i k).foldl (fun ys j =>
        if j / m = w then writeAt ys (j * b % (m * b)) (g j) cut else ys) window = window := by
  rw [List.foldl_ext _ (fun ys _ => ys) _ (fun ys j hj => if_neg ?_), List.foldl_fixed]
  rw [List.mem_range'_1] at hj
  exact (Nat.div_lt_of_lt_mul (by rw [Nat.mul_comm]; omega)).ne

/-- Blocks of a window are patched at their places in it. -/
theorem foldl_inside_window {b m i k w : Nat} {g : Nat → List α} {cut : Bool}
    (hlow : w * m ≤ i) (hhigh : i + k ≤ (w + 1) * m) (hk : 0 < k)
    (hfull : ∀ j, i ≤ j → j + 1 < i + k → (g j).length = b) {window : List α}
    (hpos : i * b - w * (m * b) ≤ window.length) :
    (List.range' i k).foldl (fun ys j =>
        if j / m = w then writeAt ys (j * b % (m * b)) (g j) cut else ys) window =
      writeAt window (i * b - w * (m * b)) (join g i k) cut := by
  have hbase : w * (m * b) ≤ i * b := by
    rw [← Nat.mul_assoc]
    exact Nat.mul_le_mul_right b hlow
  rw [List.foldl_ext _ (fun ys j => writeAt ys (j * b - w * (m * b)) (g j) cut) _ ?_,
    foldl_writeAt hfull hk hbase hpos]
  intro ys j hj
  rw [List.mem_range'_1] at hj
  have hdiv : j / m = w := Nat.div_eq_of_lt_le (by omega) (by omega)
  have hmod : j * b % (m * b) = j * b - w * (m * b) := by
    rw [Nat.mul_mod_mul_right, ← Nat.mul_assoc, ← Nat.sub_mul, ← hdiv]
    congr 1
    have := Nat.div_add_mod j m
    rw [Nat.mul_comm] at this
    omega
  rw [if_pos hdiv, hmod]

/-- **Patching a window.**  The window of `m` blocks that contains the last
replaced block, patched block by block, is the window of the patched sequence;
blocks of earlier windows do not touch it. -/
theorem foldl_window {b m i k : Nat} {xs : List α} {g : Nat → List α} (cut : Bool)
    (hb : 0 < b) (hm : 0 < m) (hk : 0 < k) (hstart : i * b ≤ xs.length)
    (hfull : ∀ j, i ≤ j → j + 1 < i + k → (g j).length = b)
    (hfits : (g (i + k - 1)).length ≤ b) :
    (List.range' i k).foldl (fun ys j =>
        if j / m = (i + k - 1) / m then writeAt ys (j * b % (m * b)) (g j) cut else ys)
      (slice xs ((i + k - 1) / m * (m * b)) (m * b)) =
      slice (writeAt xs (i * b) (join g i k) cut) ((i + k - 1) / m * (m * b)) (m * b) := by
  obtain ⟨w, hw⟩ : ∃ w, w = (i + k - 1) / m := ⟨_, rfl⟩
  rw [← hw]
  have hlow : w * m ≤ i + k - 1 := by
    rw [hw]
    exact Nat.div_mul_le_self _ _
  have hhigh : i + k - 1 < (w + 1) * m := by
    rw [hw, Nat.mul_comm]
    exact Nat.lt_mul_div_succ _ hm
  have hwidth : (w + 1) * m * b = w * (m * b) + m * b := by ring
  -- `j₀` is the first replaced block inside the window.
  obtain ⟨j₀, hj₀⟩ : ∃ j₀, j₀ = max i (w * m) := ⟨_, rfl⟩
  have hsplit := range'_cut (i := i) (j := j₀) (k := k) (by omega) (by omega)
  have hjoin : join g i k = join g i (j₀ - i) ++ join g j₀ (i + k - j₀) := by
    unfold join
    rw [hsplit, List.flatMap_append]
  have hpos : i * b + (join g i (j₀ - i)).length = j₀ * b := by
    rw [length_join (fun j h1 h2 => hfull j h1 (by omega)), ← Nat.add_mul]
    congr 1
    omega
  have hbefore : slice (writeAt xs (i * b) (join g i (j₀ - i)) false) (w * (m * b)) (m * b) =
      slice xs (w * (m * b)) (m * b) := by
    rcases Nat.eq_zero_or_pos (j₀ - i) with hz | hz
    · rw [hz, join_zero]
      congr 1
      simp [writeAt]
    · have hj : j₀ = w * m := by omega
      apply slice_writeAt_behind _ hstart
      rw [hpos, hj, Nat.mul_assoc]
  have hreach : j₀ * b ≤ (writeAt xs (i * b) (join g i (j₀ - i)) false).length := by
    rw [length_writeAt hstart, hpos]
    simp
  have hend : j₀ * b + (join g j₀ (i + k - j₀)).length ≤ w * (m * b) + m * b := by
    have hlen : (join g j₀ (i + k - j₀)).length ≤ (i + k - j₀) * b :=
      length_join_le (fun j h1 h2 => by
        by_cases hlast : j + 1 < i + k
        · exact (hfull j (by omega) hlast).le
        · have : j = i + k - 1 := by omega
          rw [this]
          exact hfits)
    have hlast : (j₀ + (i + k - j₀)) * b ≤ (w + 1) * m * b := Nat.mul_le_mul_right b (by omega)
    rw [Nat.add_mul] at hlast
    omega
  have hwin : j₀ * b - w * (m * b) ≤ (slice xs (w * (m * b)) (m * b)).length := by
    have hlen := congrArg List.length hbefore
    rw [length_slice] at hlen
    have hlast : j₀ * b < (w + 1) * m * b := Nat.mul_lt_mul_of_pos_right (by omega) hb
    rw [← hlen]
    omega
  have hbase : w * (m * b) ≤ j₀ * b := by
    rw [← Nat.mul_assoc]
    exact Nat.mul_le_mul_right b (by omega)
  have hfirst : (List.range' i (j₀ - i)).foldl (fun ys j =>
      if j / m = w then writeAt ys (j * b % (m * b)) (g j) cut else ys)
      (slice xs (w * (m * b)) (m * b)) = slice xs (w * (m * b)) (m * b) := by
    rcases Nat.eq_zero_or_pos (j₀ - i) with hz | hz
    · rw [hz]
      rfl
    · exact foldl_before_window (by omega) _
  rw [hsplit, List.foldl_append, hfirst,
    foldl_inside_window (by omega) (by omega) (by omega)
      (fun j h1 h2 => hfull j (by omega) (by omega)) hwin,
    hjoin, ← Bool.false_or cut, ← writeAt_writeAt hstart false cut, hpos,
    slice_writeAt_inside hreach hbase hend, hbefore, Bool.false_or]

end Blocks
