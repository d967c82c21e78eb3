import Mathlib.Data.List.Basic

/-!
# Removing the marks in front of an element

Every `mark` that stands right before an `item` is removed from a list.  Nothing but the
next element decides whether a mark stays, so the list can be cut into parts anywhere but
in front of an item, and the parts be treated one by one (`dropMarks_append`).
-/

namespace MarkRemoval

variable {α : Type} [DecidableEq α] {mark item : α}

/-- The list without the marks that stand right before an item. -/
def dropMarks (mark item : α) : List α → List α
  | [] => []
  | a :: l => if a = mark ∧ l.head? = some item then dropMarks mark item l
      else a :: dropMarks mark item l

theorem dropMarks_cons_of_ne {a : α} (h : a ≠ mark) (l : List α) :
    dropMarks mark item (a :: l) = a :: dropMarks mark item l :=
  if_neg fun hmark => h hmark.1

theorem dropMarks_cons_of_head {a : α} {l : List α} (h : l.head? ≠ some item) :
    dropMarks mark item (a :: l) = a :: dropMarks mark item l :=
  if_neg fun hitem => h hitem.2

theorem dropMarks_mark_item (l : List α) :
    dropMarks mark item (mark :: item :: l) = dropMarks mark item (item :: l) :=
  if_pos ⟨rfl, rfl⟩

/-- A part without marks stays as it is. -/
theorem dropMarks_append_of_notMem {l : List α} (h : mark ∉ l) (r : List α) :
    dropMarks mark item (l ++ r) = l ++ dropMarks mark item r := by
  induction l with
  | nil => rfl
  | cons a l ih =>
      have hl : mark ∉ l := fun hmem => h (List.mem_cons_of_mem a hmem)
      have ha : a ≠ mark := fun heq => h (heq ▸ List.mem_cons_self)
      rw [List.cons_append, dropMarks_cons_of_ne ha, ih hl, List.cons_append]

theorem dropMarks_of_notMem {l : List α} (h : mark ∉ l) : dropMarks mark item l = l := by
  have happend : dropMarks mark item (l ++ []) = l ++ dropMarks mark item [] :=
    dropMarks_append_of_notMem h []
  rwa [List.append_nil, dropMarks, List.append_nil] at happend

/-- A part without items stays as it is. -/
theorem dropMarks_of_item_notMem {l : List α} (h : item ∉ l) : dropMarks mark item l = l := by
  induction l with
  | nil => rfl
  | cons a l ih =>
      have hl : item ∉ l := fun hmem => h (List.mem_cons_of_mem a hmem)
      rw [dropMarks_cons_of_head (fun hhead => hl (List.mem_of_head? hhead)), ih hl]

/-- Parts are treated one by one if the second does not start with an item. -/
theorem dropMarks_append (l : List α) {r : List α} (hr : r.head? ≠ some item) :
    dropMarks mark item (l ++ r) = dropMarks mark item l ++ dropMarks mark item r := by
  induction l with
  | nil => rfl
  | cons a l ih =>
      have hhead : (l ++ r).head? = some item ↔ l.head? = some item := by
        cases l with
        | nil => simpa using hr
        | cons b l => rfl
      simp only [List.cons_append, dropMarks, hhead, ih]
      by_cases ha : a = mark ∧ l.head? = some item
      · rw [if_pos ha, if_pos ha]
      · rw [if_neg ha, if_neg ha, List.cons_append]

end MarkRemoval
