import Mathlib

/-!
# Removing the items of one list from another

`std::remove` moves the items that stay to the front and leaves the rest of the
range behind; erasing only the item at the returned position then shortens the
list by one.  That is the erasure of one occurrence if the item occurs once, or
if its other occurrences stand at the end already (`eraseShifted_eq_erase`).

A loop that takes the items of a list out of another in this way computes the
difference of the two lists as long as it meets only such occurrences
(`removeItems_eq_diff`).
-/

namespace ListRemoval

variable {α : Type*} [DecidableEq α]

/-- `l.erase(std::remove(l.begin(), l.end(), a))`, where `moved x` is what a
move leaves behind in place of `x`. -/
def eraseShifted (moved : α → α) (l : List α) (a : α) : List α :=
  let kept := l.filter (· ≠ a)
  kept ++ ((l.drop kept.length).map fun x => if x = a then x else moved x).tail

/-- The loop over the items: those that are to be removed are dropped. -/
def removeItems (moved : α → α) : List α → List α → List α
  | [], _ => []
  | a :: items, toRemove =>
      if toRemove.length > 0 then
        if a ∈ toRemove then
          removeItems moved items (eraseShifted moved toRemove a)
        else
          a :: removeItems moved items toRemove
      else
        a :: removeItems moved items toRemove

/-- Whenever the loop removes an item, the further occurrences of it in what is
still to be removed stand at the end. -/
def Erasable : List α → List α → Prop
  | [], _ => True
  | a :: items, toRemove =>
      if a ∈ toRemove then
        List.replicate (toRemove.count a - 1) a <:+ toRemove ∧ Erasable items (toRemove.erase a)
      else
        Erasable items toRemove

instance : (items toRemove : List α) → Decidable (Erasable items toRemove)
  | [], _ => isTrue trivial
  | a :: items, toRemove =>
      have : ∀ l, Decidable (Erasable items l) := fun l => instDecidableErasable items l
      inferInstanceAs (Decidable (if a ∈ toRemove then _ else _))

theorem filter_eq_append {l r : List α} {a : α} (hl : a ∉ l) (hr : a ∉ r) (n : ℕ) :
    (l ++ a :: (r ++ List.replicate n a)).filter (· ≠ a) = l ++ r := by
  have hkeep : ∀ {s : List α}, a ∉ s → s.filter (· ≠ a) = s := by
    intro s hs
    refine List.filter_eq_self.mpr fun x hx => ?_
    exact decide_eq_true fun heq => hs (heq ▸ hx)
  have hdrop : (List.replicate n a).filter (· ≠ a) = [] :=
    List.filter_eq_nil_iff.mpr fun x hx => by simp [List.eq_of_mem_replicate hx]
  rw [List.filter_append, List.filter_cons_of_neg (by simp), List.filter_append, hkeep hl,
    hkeep hr, hdrop, List.append_nil]

/-- A list whose further occurrences of an item stand at the end. -/
theorem exists_append_of_suffix {l : List α} {a : α} (ha : a ∈ l)
    (h : List.replicate (l.count a - 1) a <:+ l) :
    ∃ front back, a ∉ front ∧ a ∉ back ∧
      l = front ++ a :: (back ++ List.replicate (l.count a - 1) a) := by
  obtain ⟨rest, hrest⟩ := h
  have hcount : rest.count a = 1 := by
    have htotal := congrArg (List.count a) hrest
    rw [List.count_append, List.count_replicate_self] at htotal
    have hpos := List.count_pos_iff.mpr ha
    omega
  obtain ⟨front, back, rfl, hfront⟩ :=
    List.eq_append_cons_of_mem (List.count_pos_iff.mp (by omega : 0 < rest.count a))
  refine ⟨front, back, hfront, ?_, ?_⟩
  · intro hback
    have hpos := List.count_pos_iff.mpr hback
    rw [List.count_append, List.count_cons_self] at hcount
    omega
  · rw [← List.cons_append, ← List.append_assoc]
    exact hrest.symm

/-- Behind a list whose further occurrences stand at the end nothing is moved. -/
theorem eraseShifted_eq_erase (moved : α → α) {l : List α} {a : α} (ha : a ∈ l)
    (h : List.replicate (l.count a - 1) a <:+ l) : eraseShifted moved l a = l.erase a := by
  obtain ⟨front, back, hfront, hback, hsplit⟩ := exists_append_of_suffix ha h
  generalize l.count a - 1 = n at hsplit
  subst hsplit
  have hdrop : ∀ s : List α, (front ++ a :: (back ++ s)).drop (front ++ back).length =
      ((a :: back).drop back.length) ++ s := by
    intro s
    rw [List.length_append, ← List.drop_drop, List.drop_left, ← List.cons_append,
      List.drop_append_of_le_length (by simp)]
  have herase : (front ++ a :: (back ++ List.replicate n a)).erase a =
      front ++ back ++ List.replicate n a := by
    rw [List.erase_append_right _ hfront, List.erase_cons_head, List.append_assoc]
  have htail : (((a :: back).drop back.length ++ List.replicate n a).map
      fun x => if x = a then x else moved x).tail = List.replicate n a := by
    obtain ⟨last, hlast⟩ : ∃ last, (a :: back).drop back.length = [last] := by
      rw [← List.length_eq_one_iff, List.length_drop, List.length_cons]
      omega
    rw [hlast]
    simp
  rw [eraseShifted, filter_eq_append hfront hback, hdrop, htail, herase]

/-- **Difference of lists.** -/
theorem removeItems_eq_diff (moved : α → α) {items toRemove : List α}
    (h : Erasable items toRemove) : removeItems moved items toRemove = items.diff toRemove := by
  induction items generalizing toRemove with
  | nil => rw [removeItems, List.nil_diff]
  | cons a items ih =>
      rw [List.cons_diff]
      unfold Erasable at h
      by_cases hmem : a ∈ toRemove
      · rw [if_pos hmem] at h ⊢
        have hpos : toRemove.length > 0 := List.length_pos_of_mem hmem
        rw [removeItems, if_pos hpos, if_pos hmem, eraseShifted_eq_erase moved hmem h.1]
        exact ih h.2
      · rw [if_neg hmem] at h ⊢
        have hstays : removeItems moved (a :: items) toRemove =
            a :: removeItems moved items toRemove := by
          rw [removeItems, if_neg hmem, ite_self]
        rw [hstays, ih h]

/-- Without repetitions the loop always computes the difference. -/
theorem Erasable.of_nodup {items toRemove : List α} (h : toRemove.Nodup) :
    Erasable items toRemove := by
  induction items generalizing toRemove with
  | nil => exact trivial
  | cons a items ih =>
      unfold Erasable
      split
      · have hcount := List.nodup_iff_count_le_one.mp h a
        rw [Nat.sub_eq_zero_of_le hcount]
        exact ⟨List.nil_suffix, ih (h.erase a)⟩
      · exact ih h

/-- A loop that removes at most two items computes the difference, even if the two
are equal. -/
theorem Erasable.of_length_le_two {items toRemove : List α} (h : toRemove.length ≤ 2) :
    Erasable items toRemove := by
  induction items generalizing toRemove with
  | nil => exact trivial
  | cons a items ih =>
      unfold Erasable
      split
      · refine ⟨?_, ih ((List.length_erase_le).trans h)⟩
        by_cases hcount : toRemove.count a ≤ 1
        · rw [Nat.sub_eq_zero_of_le hcount]
          exact List.nil_suffix
        · -- two occurrences are the whole list
          have hall : toRemove.count a = toRemove.length := by
            have hle := List.count_le_length (a := a) (l := toRemove)
            omega
          obtain hreplicate := List.eq_replicate_of_mem fun b hb =>
            ((List.count_eq_length.mp hall) b hb).symm
          rw [hall]
          refine ⟨List.replicate 1 a, ?_⟩
          conv_rhs => rw [hreplicate]
          rw [List.replicate_append_replicate]
          congr 1
          omega
      · exact ih h

end ListRemoval
