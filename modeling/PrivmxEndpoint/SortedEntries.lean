import Mathlib

/-!
# Entries in the order of their keys

A map of a linear order is kept as the list of its entries in the order of their keys.
`set` puts an entry where it belongs, and replaces the one that has its key.  Maps that are
filled in different orders are then equal as lists (`SortedMap`).
-/

namespace SortedEntries

variable {κ α β : Type*} [LinearOrder κ]

/-- An entry is put in its place. -/
def set (k : κ) (a : α) : List (κ × α) → List (κ × α)
  | [] => [(k, a)]
  | (k', a') :: rest =>
      if k < k' then (k, a) :: (k', a') :: rest
      else if k = k' then (k, a) :: rest
      else (k', a') :: set k a rest

/-- The keys ascend. -/
def Sorted (entries : List (κ × α)) : Prop :=
  entries.Pairwise fun e e' => e.1 < e'.1

variable {k k' : κ} {a : α} {entries : List (κ × α)}

/-- The head is below the rest. -/
theorem sorted_cons {e : κ × α} :
    Sorted (e :: entries) ↔ (∀ e' ∈ entries, e.1 < e'.1) ∧ Sorted entries :=
  List.pairwise_cons

/-- What is in the map after a write was written now or before. -/
theorem mem_set {e : κ × α} (h : e ∈ set k a entries) : e = (k, a) ∨ e ∈ entries := by
  induction entries with
  | nil => exact Or.inl (List.mem_singleton.mp h)
  | cons e' rest ih =>
      obtain ⟨k', a'⟩ := e'
      rw [set] at h
      split at h
      · exact (List.mem_cons.mp h)
      · split at h
        · exact (List.mem_cons.mp h).imp_right (List.mem_cons_of_mem _)
        · rcases List.mem_cons.mp h with hhead | hrest
          · exact Or.inr (List.mem_cons.mpr (Or.inl hhead))
          · exact (ih hrest).imp_right (List.mem_cons_of_mem _)

/-- A write keeps the order. -/
theorem Sorted.set (h : Sorted entries) : Sorted (set k a entries) := by
  induction entries with
  | nil => exact List.pairwise_singleton _ _
  | cons e rest ih =>
      obtain ⟨k', a'⟩ := e
      obtain ⟨hfirst, hrest⟩ := sorted_cons.mp h
      rw [SortedEntries.set]
      split
      · rename_i hlt
        refine sorted_cons.mpr ⟨fun e he => ?_, h⟩
        rcases List.mem_cons.mp he with rfl | hmem
        · exact hlt
        · exact lt_trans hlt (hfirst e hmem)
      · rename_i hge
        split
        · rename_i heq
          subst heq
          exact sorted_cons.mpr ⟨hfirst, hrest⟩
        · rename_i hne
          refine sorted_cons.mpr ⟨fun e he => ?_, ih hrest⟩
          rcases mem_set he with rfl | hmem
          · exact lt_of_le_of_ne (not_lt.mp hge) (Ne.symm hne)
          · exact hfirst e hmem

section Lookup

variable [BEq κ] [LawfulBEq κ]

/-- What was written is found. -/
theorem lookup_set_self : (set k a entries).lookup k = some a := by
  induction entries with
  | nil => simp [set]
  | cons e rest ih =>
      obtain ⟨k', a'⟩ := e
      rw [set]
      split
      · simp
      · split
        · simp
        · rename_i hne
          rw [List.lookup_cons, beq_eq_false_iff_ne.mpr hne]
          exact ih

/-- The other entries stay. -/
theorem lookup_set_of_ne (h : k' ≠ k) : (set k a entries).lookup k' = entries.lookup k' := by
  have hk : (k' == k) = false := beq_eq_false_iff_ne.mpr h
  induction entries with
  | nil => rw [set, List.lookup_cons, hk]
  | cons e rest ih =>
      obtain ⟨k'', a''⟩ := e
      rw [set]
      split
      · rw [List.lookup_cons, hk]
      · split
        · rename_i heq
          subst heq
          rw [List.lookup_cons, hk, List.lookup_cons, hk]
        · rw [List.lookup_cons, List.lookup_cons, ih]

end Lookup

/-- An entry behind all others is put at the end. -/
theorem set_of_forall_lt (h : ∀ e ∈ entries, e.1 < k) : set k a entries = entries ++ [(k, a)] := by
  induction entries with
  | nil => rfl
  | cons e rest ih =>
      obtain ⟨k', a'⟩ := e
      have hlt : k' < k := h (k', a') List.mem_cons_self
      rw [set, if_neg (not_lt_of_gt hlt), if_neg (ne_of_gt hlt),
        ih fun e he => h e (List.mem_cons_of_mem _ he)]
      rfl

/-- The entries of a list are put in their places, one after the other. -/
def setAll (f : α → β) (entries : List (κ × α)) (result : List (κ × β)) : List (κ × β) :=
  entries.foldl (fun result e => set e.1 (f e.2) result) result

/-- Any number of writes keeps the order. -/
theorem sorted_setAll {f : α → β} {result : List (κ × β)} (h : Sorted result) :
    Sorted (setAll f entries result) := by
  induction entries generalizing result with
  | nil => exact h
  | cons e rest ih => exact ih h.set

/-- What is in the map after the writes was there or was written. -/
theorem mem_setAll {f : α → β} {result : List (κ × β)} {e : κ × β}
    (h : e ∈ setAll f entries result) :
    e ∈ result ∨ ∃ e' ∈ entries, e = (e'.1, f e'.2) := by
  induction entries generalizing result with
  | nil => exact Or.inl h
  | cons e' rest ih =>
      rcases ih h with hset | ⟨e'', he'', heq⟩
      · rcases mem_set hset with heq | hold
        · exact Or.inr ⟨e', List.mem_cons_self, heq⟩
        · exact Or.inl hold
      · exact Or.inr ⟨e'', List.mem_cons_of_mem _ he'', heq⟩

/-- Entries in order stay in order. -/
theorem setAll_of_sorted (f : α → β) (h : Sorted entries) :
    setAll f entries [] = entries.map fun e => (e.1, f e.2) := by
  have happend : ∀ (front : List (κ × β)), (∀ e ∈ front, ∀ e' ∈ entries, e.1 < e'.1) →
      setAll f entries front = front ++ entries.map fun e => (e.1, f e.2) := by
    induction entries with
    | nil => intro front _; exact (List.append_nil front).symm
    | cons e rest ih =>
        intro front hfront
        obtain ⟨hfirst, hrest⟩ := sorted_cons.mp h
        have hset : set e.1 (f e.2) front = front ++ [(e.1, f e.2)] :=
          set_of_forall_lt fun e' he' => hfront e' he' e List.mem_cons_self
        have hall : setAll f rest (front ++ [(e.1, f e.2)]) =
            (front ++ [(e.1, f e.2)]) ++ rest.map fun e => (e.1, f e.2) := by
          refine ih hrest _ fun e' he' e'' he'' => ?_
          rcases List.mem_append.mp he' with hold | hnew
          · exact hfront e' hold e'' (List.mem_cons_of_mem _ he'')
          · rw [List.mem_singleton.mp hnew]
            exact hfirst e'' he''
        show setAll f rest (set e.1 (f e.2) front) = _
        rw [hset, hall, List.append_assoc]
        rfl
  exact happend [] (by simp)

/-- Writing a sorted map into the empty one copies it. -/
@[simp]
theorem setAll_id (h : Sorted entries) : setAll id entries [] = entries := by
  rw [setAll_of_sorted id h]
  exact List.map_id entries

/-- The order is that of the keys alone. -/
theorem Sorted.of_keys {entries' : List (κ × β)} (h : Sorted entries)
    (hkeys : entries.map Prod.fst = entries'.map Prod.fst) : Sorted entries' := by
  have hasc : (entries.map Prod.fst).Pairwise (· < ·) := List.pairwise_map.mpr h
  rw [hkeys] at hasc
  exact List.pairwise_map.mp hasc

end SortedEntries

/-- A map, as the entries in the order of their keys. -/
@[ext]
structure SortedMap (κ α : Type*) [LinearOrder κ] where
  entries : List (κ × α)
  sorted : SortedEntries.Sorted entries
