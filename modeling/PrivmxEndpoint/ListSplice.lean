import Mathlib

/-!
# Splicing finite sequences in place

A write at a position replaces as many elements as it brings, keeps what lies
before it, and either keeps or cuts what lies behind it.  The same operation
describes a write to a plain array, a write to a stored blob, the patch of a
cached window and the replacement of one fixed-size record, so everything
about it is proved once, for arbitrary elements.

Equalities between spliced sequences are proved pointwise: `getElem?_writeAt`
and `getElem?_slice` say what stands at each position, and the remaining
lemmas follow by extensionality and linear arithmetic.
-/

namespace Splice

variable {α : Type*}

/-- The `len` elements from position `pos` on, fewer at the end of the list. -/
def slice (xs : List α) (pos len : Nat) : List α :=
  (xs.drop pos).take len

/-- Write `ys` over `xs` from position `pos` on; with `cut` the list ends
after the written elements, otherwise the old tail stays. -/
def writeAt (xs : List α) (pos : Nat) (ys : List α) (cut : Bool) : List α :=
  xs.take pos ++ ys ++ if cut then [] else xs.drop (pos + ys.length)

/-- Several writes in order; only the last one cuts, if asked to. -/
def writeAll (xs : List α) (cut : Bool) : List (Nat × List α) → List α
  | [] => xs
  | [w] => writeAt xs w.1 w.2 cut
  | w :: ws => writeAll (writeAt xs w.1 w.2 false) cut ws

@[simp] theorem length_slice (xs : List α) (pos len : Nat) :
    (slice xs pos len).length = min len (xs.length - pos) := by
  simp [slice]

theorem getElem?_slice (xs : List α) (pos len k : Nat) :
    (slice xs pos len)[k]? = if k < len then xs[pos + k]? else none := by
  simp [slice, List.getElem?_take, List.getElem?_drop]

/-- What stands at position `k` after a write that starts inside the list. -/
theorem getElem?_writeAt {xs ys : List α} {pos : Nat} (hpos : pos ≤ xs.length)
    (cut : Bool) (k : Nat) :
    (writeAt xs pos ys cut)[k]? =
      if k < pos then xs[k]?
      else if k < pos + ys.length then ys[k - pos]?
      else if cut then none else xs[k]? := by
  have hmin : min pos xs.length = pos := Nat.min_eq_left hpos
  by_cases h1 : k < pos
  · simp [writeAt, List.getElem?_append, hmin, h1]
  · by_cases h2 : k < pos + ys.length
    · have h3 : k - pos < ys.length := by omega
      simp [writeAt, List.getElem?_append, hmin, h1, h2, h3]
    · have h3 : ¬ k - pos < ys.length := by omega
      cases cut with
      | true => simp [writeAt, hmin, h1, h2]
      | false =>
          have hk : pos + ys.length + (k - pos - ys.length) = k := by omega
          simp [writeAt, List.getElem?_append, hmin, h1, h2, h3, List.getElem?_drop, hk]

theorem length_writeAt {xs ys : List α} {pos : Nat} (hpos : pos ≤ xs.length)
    (cut : Bool) :
    (writeAt xs pos ys cut).length =
      if cut then pos + ys.length else max xs.length (pos + ys.length) := by
  cases cut with
  | true => simp [writeAt, hpos]
  | false =>
      simp [writeAt, hpos]
      omega

/-- Writing at the very end appends. -/
theorem writeAt_length (xs ys : List α) (cut : Bool) :
    writeAt xs xs.length ys cut = xs ++ ys := by
  cases cut <;> simp [writeAt]

/-- Cutting makes no difference when the write reaches the end. -/
theorem writeAt_of_length_le {xs ys : List α} {pos : Nat} (cut : Bool)
    (h : xs.length ≤ pos + ys.length) :
    writeAt xs pos ys cut = xs.take pos ++ ys := by
  cases cut <;> simp [writeAt, h]

/-- A cut that keeps the length changes nothing. -/
theorem writeAt_cut_eq_of_length {xs ys : List α} {pos : Nat} (hpos : pos ≤ xs.length)
    {cut cut' : Bool}
    (h : (writeAt xs pos ys cut).length = (writeAt xs pos ys cut').length) :
    writeAt xs pos ys cut = writeAt xs pos ys cut' := by
  by_cases hle : xs.length ≤ pos + ys.length
  · rw [writeAt_of_length_le cut hle, writeAt_of_length_le cut' hle]
  · rw [length_writeAt hpos, length_writeAt hpos] at h
    congr 1
    cases cut <;> cases cut' <;> simp at h ⊢ <;> omega

/-- Two adjacent writes are one write of both pieces; a cut made by the first
one is not undone by the second. -/
theorem writeAt_writeAt {xs ys zs : List α} {pos : Nat} (hpos : pos ≤ xs.length)
    (cut cut' : Bool) :
    writeAt (writeAt xs pos ys cut) (pos + ys.length) zs cut' =
      writeAt xs pos (ys ++ zs) (cut || cut') := by
  have hlen : (writeAt xs pos ys cut).length = _ := length_writeAt hpos cut
  have hpos' : pos + ys.length ≤ (writeAt xs pos ys cut).length := by
    rw [hlen]
    split <;> omega
  apply List.ext_getElem?
  intro k
  rw [getElem?_writeAt hpos', getElem?_writeAt hpos, getElem?_writeAt hpos]
  by_cases h1 : k < pos
  · have h2 : k < pos + ys.length := by omega
    simp [h1, h2]
  · by_cases h2 : k < pos + ys.length
    · have h3 : k < pos + (ys.length + zs.length) := by omega
      have h4 : k - pos < ys.length := by omega
      simp [h1, h2, h3, List.getElem?_append, h4]
    · have h4 : ¬ k - pos < ys.length := by omega
      by_cases h3 : k < pos + (ys.length + zs.length)
      · have h5 : k < pos + ys.length + zs.length := by omega
        have h6 : k - (pos + ys.length) = k - pos - ys.length := by omega
        simp [h1, h2, h3, h5, h6, List.getElem?_append, h4]
      · have h5 : ¬ k < pos + ys.length + zs.length := by omega
        cases cut <;> cases cut' <;> simp [h1, h2, h3, h5]

/-- A window that contains the whole write sees it as a write of its own. -/
theorem slice_writeAt_inside {xs ys : List α} {pos w len : Nat}
    (hpos : pos ≤ xs.length) (hw : w ≤ pos) (hend : pos + ys.length ≤ w + len)
    (cut : Bool) :
    slice (writeAt xs pos ys cut) w len =
      writeAt (slice xs w len) (pos - w) ys cut := by
  have hpos' : pos - w ≤ (slice xs w len).length := by
    simp only [length_slice]
    omega
  apply List.ext_getElem?
  intro k
  rw [getElem?_slice, getElem?_writeAt hpos, getElem?_writeAt hpos', getElem?_slice]
  have h1 : (w + k < pos) ↔ (k < pos - w) := by omega
  have h2 : (w + k < pos + ys.length) ↔ (k < pos - w + ys.length) := by omega
  have h3 : w + k - pos = k - (pos - w) := by omega
  simp only [h1, h2, h3]
  by_cases hk : k < len
  · simp [hk]
  · have h4 : ¬ k < pos - w := by omega
    have h5 : ¬ k < pos - w + ys.length := by omega
    simp [hk, h4, h5]

/-- A window behind a write that keeps its tail does not see the write. -/
theorem slice_writeAt_behind {xs ys : List α} {pos w : Nat} (len : Nat)
    (hpos : pos ≤ xs.length) (hw : pos + ys.length ≤ w) :
    slice (writeAt xs pos ys false) w len = slice xs w len := by
  apply List.ext_getElem?
  intro k
  rw [getElem?_slice, getElem?_slice, getElem?_writeAt hpos]
  have h1 : ¬ w + k < pos := by omega
  have h2 : ¬ w + k < pos + ys.length := by omega
  simp [h1, h2]

/-- A window inside a window is a window of the whole list. -/
theorem slice_slice {xs : List α} {w len pos n : Nat} (h : pos + n ≤ len) :
    slice (slice xs w len) pos n = slice xs (w + pos) n := by
  apply List.ext_getElem?
  intro k
  simp only [getElem?_slice]
  by_cases hk : k < n
  · have h1 : pos + k < len := by omega
    simp [hk, h1, Nat.add_assoc]
  · simp [hk]

theorem slice_eq_nil_of_le {xs : List α} {pos : Nat} (len : Nat) (h : xs.length ≤ pos) :
    slice xs pos len = [] := by
  simp [slice, h]

/-- A slice of a list is one of every longer list. -/
theorem slice_of_prefix {xs ys : List α} {pos len : Nat} (h : xs <+: ys)
    (hle : pos + len ≤ xs.length) : slice ys pos len = slice xs pos len := by
  obtain ⟨zs, rfl⟩ := h
  unfold slice
  rw [List.drop_append_of_le_length (by omega), List.take_append_of_le_length]
  rw [List.length_drop]
  omega

/-- A slice ends with the list. -/
theorem slice_min_length (xs : List α) (pos len : Nat) :
    slice xs pos (min len (xs.length - pos)) = slice xs pos len := by
  apply List.ext_getElem?
  intro k
  rw [getElem?_slice, getElem?_slice]
  by_cases h1 : k < len
  · by_cases h2 : k < xs.length - pos
    · rw [if_pos (by omega), if_pos h1]
    · rw [if_neg (by omega), if_pos h1, List.getElem?_eq_none (by omega)]
  · rw [if_neg (by omega), if_neg h1]

/-- Two adjacent windows join. -/
theorem slice_append_slice (xs : List α) (pos m n : Nat) :
    slice xs pos m ++ slice xs (pos + m) n = slice xs pos (m + n) := by
  simp [slice, List.take_add, List.drop_drop]

end Splice
