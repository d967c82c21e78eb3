import Mathlib

/-!
# The difference of two sorted lists behind their common prefix

To compare two sorted lists one may skip the prefix they share and look for
each remaining element of the first list in the remainder of the second one.
If the first list has no repetitions this is the set difference
(`mem_skipDiff`).  If only the second one has none, an element can be reported
that both lists have: it is one that the first list repeats right at the end of
the common prefix (`skipDiff_meets_iff`).
-/

namespace SortedDifference

variable {α : Type*} [LinearOrder α]

/-- The length of the common prefix. -/
def commonPrefix : List α → List α → Nat
  | a :: l₁, b :: l₂ => if a = b then commonPrefix l₁ l₂ + 1 else 0
  | _, _ => 0

/-- The elements behind the common prefix that the second list does not have
behind it. -/
def skipDiff (l₁ l₂ : List α) : List α :=
  (l₁.drop (commonPrefix l₁ l₂)).filter (· ∉ l₂.drop (commonPrefix l₁ l₂))

@[simp] theorem skipDiff_nil_left (l : List α) : skipDiff [] l = [] := by
  simp [skipDiff]

@[simp] theorem skipDiff_nil_right (l : List α) : skipDiff l [] = l := by
  cases l with
  | nil => rfl
  | cons a l => simp [skipDiff, commonPrefix]

@[simp] theorem skipDiff_cons_self (a : α) (l₁ l₂ : List α) :
    skipDiff (a :: l₁) (a :: l₂) = skipDiff l₁ l₂ := by
  simp only [skipDiff, commonPrefix, if_true, List.drop_succ_cons]

theorem skipDiff_cons_of_ne {a b : α} (h : a ≠ b) (l₁ l₂ : List α) :
    skipDiff (a :: l₁) (b :: l₂) = (a :: l₁).filter (· ∉ b :: l₂) := by
  simp only [skipDiff, commonPrefix, if_neg h, List.drop_zero]

theorem mem_of_mem_skipDiff {l₁ l₂ : List α} {x : α} (h : x ∈ skipDiff l₁ l₂) : x ∈ l₁ :=
  List.mem_of_mem_drop (List.mem_of_mem_filter h)

/-- What the second list does not have is reported. -/
theorem mem_skipDiff_of_notMem {l₁ l₂ : List α} {x : α} (h1 : x ∈ l₁) (h2 : x ∉ l₂) :
    x ∈ skipDiff l₁ l₂ := by
  induction l₁ generalizing l₂ with
  | nil => exact absurd h1 List.not_mem_nil
  | cons a l₁ ih =>
      cases l₂ with
      | nil => simpa using h1
      | cons b l₂ =>
          by_cases hab : a = b
          · subst hab
            rw [skipDiff_cons_self]
            have hne : x ≠ a := fun heq => h2 (heq ▸ List.mem_cons_self)
            exact ih (List.mem_of_ne_of_mem hne h1) (fun hmem => h2 (List.mem_cons_of_mem _ hmem))
          · rw [skipDiff_cons_of_ne hab, List.mem_filter]
            exact ⟨h1, by simpa using h2⟩

/-- **No repetitions in the first list**: the set difference. -/
theorem mem_skipDiff {l₁ l₂ : List α} (hl₁ : l₁.Nodup) (x : α) :
    x ∈ skipDiff l₁ l₂ ↔ x ∈ l₁ ∧ x ∉ l₂ := by
  refine ⟨fun h => ⟨mem_of_mem_skipDiff h, ?_⟩, fun h => mem_skipDiff_of_notMem h.1 h.2⟩
  induction l₁ generalizing l₂ with
  | nil => exact absurd h (by simp)
  | cons a l₁ ih =>
      obtain ⟨ha, hl₁⟩ := List.nodup_cons.mp hl₁
      cases l₂ with
      | nil => exact List.not_mem_nil
      | cons b l₂ =>
          by_cases hab : a = b
          · subst hab
            rw [skipDiff_cons_self] at h
            have hx := mem_of_mem_skipDiff h
            have hne : x ≠ a := fun heq => ha (heq ▸ hx)
            exact List.not_mem_cons_of_ne_of_not_mem hne (ih hl₁ h)
          · rw [skipDiff_cons_of_ne hab, List.mem_filter] at h
            simpa using h.2

/-- What a list repeats does not depend on its order. -/
theorem duplicate_iff_of_perm {l l' : List α} (h : l.Perm l') (d : α) :
    List.Duplicate d l ↔ List.Duplicate d l' := by
  rw [List.duplicate_iff_two_le_count, List.duplicate_iff_two_le_count, h.count_eq]

omit [LinearOrder α] in
/-- What the images of distinct elements repeat. -/
theorem duplicate_map_iff {β : Type*} {l : List β} (hl : l.Nodup) (f : β → α) (d : α) :
    List.Duplicate d (l.map f) ↔ ∃ u ∈ l, ∃ v ∈ l, u ≠ v ∧ f u = d ∧ f v = d := by
  induction l with
  | nil => simp
  | cons b l ih =>
      obtain ⟨hb, hl⟩ := List.nodup_cons.mp hl
      rw [List.map_cons, List.duplicate_cons_iff, ih hl]
      constructor
      · rintro (⟨hbd, hmem⟩ | ⟨u, hu, v, hv, hrest⟩)
        · obtain ⟨v, hv, hvd⟩ := List.mem_map.mp hmem
          refine ⟨b, List.mem_cons_self, v, List.mem_cons_of_mem _ hv, ?_, hbd, hvd⟩
          exact fun heq => hb (heq ▸ hv)
        · exact ⟨u, List.mem_cons_of_mem _ hu, v, List.mem_cons_of_mem _ hv, hrest⟩
      · rintro ⟨u, hu, v, hv, hne, hud, hvd⟩
        rcases List.mem_cons.mp hu with hub | hu <;> rcases List.mem_cons.mp hv with hvb | hv
        · exact absurd (hub.trans hvb.symm) hne
        · exact Or.inl ⟨hub ▸ hud, List.mem_map.mpr ⟨v, hv, hvd⟩⟩
        · exact Or.inl ⟨hvb ▸ hvd, List.mem_map.mpr ⟨u, hu, hud⟩⟩
        · exact Or.inr ⟨u, hu, v, hv, hne, hud, hvd⟩

/-- Sorted lists with different heads differ below every common element. -/
theorem not_agree_of_ne {a b d : α} {l₁ l₂ : List α} (hab : a ≠ b)
    (hl₁ : (a :: l₁).Pairwise (· ≤ ·)) (hl₂ : (b :: l₂).Pairwise (· ≤ ·)) (hd : d ∈ b :: l₂) :
    ¬ ∀ y ≤ d, (y ∈ a :: l₁ ↔ y ∈ b :: l₂) := by
  intro hagree
  have hmin : ∀ y ∈ a :: l₁, a ≤ y := by
    intro y hy
    rcases List.mem_cons.mp hy with rfl | hy
    · exact le_rfl
    · exact List.rel_of_pairwise_cons hl₁ hy
  have hmin' : ∀ y ∈ b :: l₂, b ≤ y := by
    intro y hy
    rcases List.mem_cons.mp hy with rfl | hy
    · exact le_rfl
    · exact List.rel_of_pairwise_cons hl₂ hy
  have hba : a ≤ b := hmin b ((hagree b (hmin' d hd)).mpr List.mem_cons_self)
  have had : a ≤ d := le_trans hba (hmin' d hd)
  have hab' : b ≤ a := hmin' a ((hagree a had).mp List.mem_cons_self)
  exact hab (le_antisymm hba hab')

/-- **No repetitions in the second list**: something both lists have is
reported exactly if the first list repeats an element up to which the two lists
have the same elements. -/
theorem skipDiff_meets_iff {l₁ l₂ : List α} (hl₁ : l₁.Pairwise (· ≤ ·))
    (hl₂ : l₂.Pairwise (· < ·)) :
    (∃ x ∈ l₂, x ∈ skipDiff l₁ l₂) ↔
      ∃ d, List.Duplicate d l₁ ∧ d ∈ l₂ ∧ ∀ y ≤ d, (y ∈ l₁ ↔ y ∈ l₂) := by
  induction l₁ generalizing l₂ with
  | nil => simp
  | cons a l₁ ih =>
      cases l₂ with
      | nil => simp
      | cons b l₂ =>
          obtain ⟨ha, hl₁'⟩ := List.pairwise_cons.mp hl₁
          obtain ⟨hb, hl₂'⟩ := List.pairwise_cons.mp hl₂
          by_cases hab : a = b
          · subst hab
            have hal₂ : a ∉ l₂ := fun h => lt_irrefl a (hb a h)
            rw [skipDiff_cons_self]
            by_cases hmem : a ∈ l₁
            -- The repetition of the head is what the scan reports.
            · refine ⟨fun _ => ⟨a, ?_, List.mem_cons_self, ?_⟩,
                fun _ => ⟨a, List.mem_cons_self, ?_⟩⟩
              · exact List.duplicate_cons_self_iff.mpr hmem
              · intro y hy
                refine ⟨fun hy₁ => ?_, fun hy₂ => ?_⟩
                · rcases List.mem_cons.mp hy₁ with rfl | hy₁
                  · exact List.mem_cons_self
                  · rw [le_antisymm hy (ha y hy₁)]
                    exact List.mem_cons_self
                · rcases List.mem_cons.mp hy₂ with rfl | hy₂
                  · exact List.mem_cons_self
                  · exact absurd hy (not_le_of_gt (hb y hy₂))
              · exact mem_skipDiff_of_notMem hmem hal₂
            -- Otherwise the head plays no role in either condition.
            · have hhead : (∃ x ∈ a :: l₂, x ∈ skipDiff l₁ l₂) ↔
                  ∃ x ∈ l₂, x ∈ skipDiff l₁ l₂ := by
                refine ⟨?_, fun ⟨x, hx, hd⟩ => ⟨x, List.mem_cons_of_mem _ hx, hd⟩⟩
                rintro ⟨x, hx, hd⟩
                rcases List.mem_cons.mp hx with rfl | hx
                · exact absurd (mem_of_mem_skipDiff hd) hmem
                · exact ⟨x, hx, hd⟩
              rw [hhead, ih hl₁' hl₂']
              refine exists_congr fun d => ?_
              by_cases hd : d = a
              · subst hd
                rw [List.duplicate_cons_self_iff]
                exact iff_of_false (fun h => hmem h.1.mem) (fun h => hmem h.1)
              · rw [List.duplicate_cons_iff_of_ne hd, List.mem_cons, or_iff_right hd]
                refine and_congr_right fun _ => and_congr_right fun _ => forall₂_congr fun y _ => ?_
                by_cases hy : y = a
                · subst hy
                  simp [hmem, hal₂]
                · simp [hy]
          · refine iff_of_false ?_ ?_
            · rintro ⟨x, hx, hd⟩
              rw [skipDiff_cons_of_ne hab, List.mem_filter] at hd
              simp only [decide_eq_true_eq] at hd
              exact hd.2 hx
            · rintro ⟨d, -, hd, hagree⟩
              exact not_agree_of_ne hab hl₁ (hl₂.imp le_of_lt) hd hagree

end SortedDifference
