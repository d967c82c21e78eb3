import Mathlib

/-!
# Counting the members of a crowd

A crowd is a list with the phase of each of its members.  A member changes its phase, or
a new one joins; how many are in a phase then changes by one at most.  Systems of many
callers are counted this way: how many wait, how many hold something.
-/

namespace Headcount

variable {α : Type*} {crowd : List α} {i j : ℕ} {a b : α} {p : α → Bool}

/-- A member goes from `a` to `b`. -/
theorem countP_set_add (h : crowd[i]? = some a) :
    (crowd.set i b).countP p + (if p a then 1 else 0) =
      crowd.countP p + if p b then 1 else 0 := by
  obtain ⟨hi, rfl⟩ := List.getElem?_eq_some_iff.mp h
  have hle := List.boole_getElem_le_countP (p := p) hi
  rw [List.countP_set hi]
  omega

theorem count_set_add [DecidableEq α] (h : crowd[i]? = some a) (c : α) :
    (crowd.set i b).count c + (if a = c then 1 else 0) =
      crowd.count c + if b = c then 1 else 0 := by
  have hcount := countP_set_add (b := b) (p := (· == c)) h
  simpa [List.count_eq_countP] using hcount

theorem count_join [DecidableEq α] (c : α) :
    (crowd ++ [a]).count c = crowd.count c + if a = c then 1 else 0 := by
  rw [List.count_append, List.count_singleton]
  simp

theorem count_pos [DecidableEq α] (h : crowd[i]? = some a) : 0 < crowd.count a :=
  List.count_pos_iff.mpr (List.mem_of_getElem? h)

/-- What the members have left, when one of them goes from `a` to `b`. -/
theorem sum_set_add (f : α → ℕ) (h : crowd[i]? = some a) :
    ((crowd.set i b).map f).sum + f a = (crowd.map f).sum + f b := by
  induction crowd generalizing i with
  | nil => cases h
  | cons c crowd ih =>
      cases i with
      | zero =>
          obtain rfl := Option.some.inj h
          simp only [List.set_cons_zero, List.map_cons, List.sum_cons]
          omega
      | succ i =>
          have hrest := ih h
          simp only [List.set_cons_succ, List.map_cons, List.sum_cons]
          omega

/-- The others keep their phases. -/
theorem getElem?_set_other (hij : i ≠ j) : (crowd.set i b)[j]? = crowd[j]? :=
  List.getElem?_set_ne hij

/-- Two members in a phase that is counted once are the same. -/
theorem eq_of_count_le_one [DecidableEq α] (h : crowd.count a ≤ 1) (hi : crowd[i]? = some a)
    (hj : crowd[j]? = some a) : i = j := by
  by_contra hne
  obtain ⟨hlt, hgeti⟩ := List.getElem?_eq_some_iff.mp hi
  obtain ⟨hlt', hgetj⟩ := List.getElem?_eq_some_iff.mp hj
  have htwice : 2 ≤ crowd.count a := by
    rw [← List.duplicate_iff_two_le_count, List.duplicate_iff_exists_distinct_get]
    rcases Nat.lt_or_gt_of_ne hne with hlt_ij | hlt_ji
    · exact ⟨⟨i, hlt⟩, ⟨j, hlt'⟩, hlt_ij, hgeti.symm, hgetj.symm⟩
    · exact ⟨⟨j, hlt'⟩, ⟨i, hlt⟩, hlt_ji, hgetj.symm, hgeti.symm⟩
  omega

end Headcount
