import Mathlib

/-!
# Pieces of a list that end at a separator

`pieces sep` reads a list as `std::getline` reads a stream of lines: a
separator ends a piece, and nothing follows a separator at the very end.  It is
the inverse of joining (`pieces_intercalate`) only for joined lists that do not
end in an empty piece, and it reads one trailing separator more than it should
(`eq_of_pieces`).
-/

namespace Separated

variable {α : Type*} {sep : α}

/-! ### Writing -/

/-- An element of a joined list is the separator or in a piece. -/
theorem mem_intercalate {a : α} {ps : List (List α)} (h : a ∈ [sep].intercalate ps) :
    a = sep ∨ ∃ p ∈ ps, a ∈ p := by
  induction ps with
  | nil => cases h
  | cons p ps ih =>
      cases ps with
      | nil =>
          rw [List.intercalate_singleton] at h
          exact Or.inr ⟨p, List.mem_cons_self, h⟩
      | cons q ps =>
          rw [List.intercalate_cons_cons, List.mem_append, List.mem_append,
            List.mem_singleton] at h
          rcases h with (hp | hsep) | hrest
          · exact Or.inr ⟨p, List.mem_cons_self, hp⟩
          · exact Or.inl hsep
          · rcases ih hrest with hsep | ⟨r, hr, har⟩
            · exact Or.inl hsep
            · exact Or.inr ⟨r, List.mem_cons_of_mem p hr, har⟩

/-- Pieces written one after another, each with a separator behind it. -/
theorem foldl_terminated (result : List α) {ps : List (List α)} (hne : ps ≠ []) :
    ps.foldl (fun result p => result ++ (p ++ [sep])) result =
      result ++ [sep].intercalate ps ++ [sep] := by
  induction ps generalizing result with
  | nil => exact absurd rfl hne
  | cons p ps ih =>
      cases ps with
      | nil => simp [List.intercalate_singleton]
      | cons q ps =>
          rw [List.foldl_cons, ih _ (List.cons_ne_nil q ps), List.intercalate_cons_cons]
          simp only [List.append_assoc]

/-! ### Reading -/

variable [DecidableEq α]

/-- The pieces before the separators, and what is left behind the last one. -/
def pieces (sep : α) : List α → List (List α)
  | [] => []
  | a :: l =>
      if a = sep then
        [] :: pieces sep l
      else
        match pieces sep l with
        | [] => [[a]]
        | p :: ps => (a :: p) :: ps

@[simp] theorem pieces_nil (sep : α) : pieces sep [] = [] := rfl

/-- The first piece is the part before the first separator. -/
theorem pieces_append_cons {p : List α} (hp : sep ∉ p) (l : List α) :
    pieces sep (p ++ sep :: l) = p :: pieces sep l := by
  induction p with
  | nil => simp [pieces]
  | cons a p ih =>
      rw [List.mem_cons, not_or] at hp
      rw [List.cons_append, pieces, if_neg (Ne.symm hp.1), ih hp.2]

theorem pieces_of_notMem {p : List α} (hp : sep ∉ p) (hne : p ≠ []) : pieces sep p = [p] := by
  induction p with
  | nil => exact absurd rfl hne
  | cons a p ih =>
      rw [List.mem_cons, not_or] at hp
      rw [pieces, if_neg (Ne.symm hp.1)]
      cases p with
      | nil => rfl
      | cons b p => rw [ih hp.2 (List.cons_ne_nil b p)]

/-- A list has no separator, or a part without one comes before the first. -/
theorem notMem_or_first (sep : α) (l : List α) :
    sep ∉ l ∨ ∃ p rest, l = p ++ sep :: rest ∧ sep ∉ p := by
  by_cases h : sep ∈ l
  · exact Or.inr (List.eq_append_cons_of_mem h)
  · exact Or.inl h

theorem pieces_eq_nil_iff {l : List α} : pieces sep l = [] ↔ l = [] := by
  constructor
  · intro h
    rcases notMem_or_first sep l with hl | ⟨p, rest, rfl, hp⟩
    · by_contra hne
      rw [pieces_of_notMem hl hne] at h
      cases h
    · rw [pieces_append_cons hp] at h
      cases h
  · rintro rfl
    rfl

/-- What a first piece says about the list. -/
theorem pieces_eq_cons_iff {l p : List α} {ps : List (List α)} :
    pieces sep l = p :: ps ↔
      sep ∉ p ∧ (p ≠ [] ∧ l = p ∧ ps = [] ∨
        ∃ rest, l = p ++ sep :: rest ∧ pieces sep rest = ps) := by
  constructor
  · intro h
    rcases notMem_or_first sep l with hl | ⟨q, rest, rfl, hq⟩
    · have hne : l ≠ [] := by
        rintro rfl
        cases h
      rw [pieces_of_notMem hl hne] at h
      cases h
      exact ⟨hl, Or.inl ⟨hne, rfl, rfl⟩⟩
    · rw [pieces_append_cons hq] at h
      cases h
      exact ⟨hq, Or.inr ⟨rest, rfl, rfl⟩⟩
  · rintro ⟨hp, ⟨hne, rfl, rfl⟩ | ⟨rest, rfl, rfl⟩⟩
    · exact pieces_of_notMem hp hne
    · exact pieces_append_cons hp rest

theorem pieces_eq_singleton_iff {l p : List α} :
    pieces sep l = [p] ↔ sep ∉ p ∧ (p ≠ [] ∧ l = p ∨ l = p ++ [sep]) := by
  rw [pieces_eq_cons_iff]
  constructor
  · rintro ⟨hp, ⟨hne, rfl, -⟩ | ⟨rest, rfl, hrest⟩⟩
    · exact ⟨hp, Or.inl ⟨hne, rfl⟩⟩
    · rw [pieces_eq_nil_iff] at hrest
      exact ⟨hp, Or.inr (by rw [hrest])⟩
  · rintro ⟨hp, ⟨hne, rfl⟩ | rfl⟩
    · exact ⟨hp, Or.inl ⟨hne, rfl, rfl⟩⟩
    · exact ⟨hp, Or.inr ⟨[], rfl, rfl⟩⟩

theorem pieces_eq_pair_iff {l p q : List α} :
    pieces sep l = [p, q] ↔
      sep ∉ p ∧ sep ∉ q ∧ (q ≠ [] ∧ l = p ++ sep :: q ∨ l = p ++ sep :: (q ++ [sep])) := by
  rw [pieces_eq_cons_iff]
  constructor
  · rintro ⟨hp, ⟨-, -, h⟩ | ⟨rest, rfl, hrest⟩⟩
    · cases h
    · obtain ⟨hq, ⟨hne, rfl⟩ | rfl⟩ := pieces_eq_singleton_iff.mp hrest
      · exact ⟨hp, hq, Or.inl ⟨hne, rfl⟩⟩
      · exact ⟨hp, hq, Or.inr rfl⟩
  · rintro ⟨hp, hq, ⟨hne, rfl⟩ | rfl⟩
    · exact ⟨hp, Or.inr ⟨q, rfl, pieces_of_notMem hq hne⟩⟩
    · exact ⟨hp, Or.inr ⟨_, rfl, pieces_append_cons hq []⟩⟩

/-- No piece contains the separator, and all else in it comes from the list. -/
theorem notMem_of_mem_pieces {l p : List α} (h : p ∈ pieces sep l) : sep ∉ p := by
  obtain ⟨ps, hps⟩ : ∃ ps, pieces sep l = ps := ⟨_, rfl⟩
  rw [hps] at h
  induction ps generalizing l with
  | nil => cases h
  | cons q ps ih =>
      obtain ⟨hq, hrest⟩ := pieces_eq_cons_iff.mp hps
      rcases List.mem_cons.mp h with rfl | hmem
      · exact hq
      · rcases hrest with ⟨-, -, rfl⟩ | ⟨rest, -, hrest⟩
        · cases hmem
        · exact ih hmem hrest

@[inherit_doc notMem_of_mem_pieces]
theorem mem_of_mem_pieces {a : α} {l p : List α} (h : p ∈ pieces sep l) (ha : a ∈ p) :
    a ∈ l := by
  obtain ⟨ps, hps⟩ : ∃ ps, pieces sep l = ps := ⟨_, rfl⟩
  rw [hps] at h
  induction ps generalizing l with
  | nil => cases h
  | cons q ps ih =>
      obtain ⟨-, ⟨-, rfl, rfl⟩ | ⟨rest, rfl, hrest⟩⟩ := pieces_eq_cons_iff.mp hps
      · rw [List.mem_singleton] at h
        rwa [h] at ha
      · rw [List.mem_append, List.mem_cons]
        rcases List.mem_cons.mp h with rfl | hmem
        · exact Or.inl ha
        · exact Or.inr (Or.inr (ih hmem hrest))

/-- A separator in the middle divides the pieces. -/
theorem length_pieces_append_cons (l rest : List α) :
    (pieces sep (l ++ sep :: rest)).length = l.count sep + 1 + (pieces sep rest).length := by
  induction l with
  | nil => simp [pieces, Nat.add_comm]
  | cons a l ih =>
      rw [List.cons_append, pieces]
      by_cases ha : a = sep
      · rw [if_pos ha, List.length_cons, ih, ha, List.count_cons_self]
        omega
      · rw [if_neg ha, List.count_cons_of_ne ha, ← ih]
        cases h : pieces sep (l ++ sep :: rest) with
        | nil => rw [pieces_eq_nil_iff] at h; simp at h
        | cons p ps => rfl

/-! ### Joined lists -/

/-- Joined pieces come back, unless the last one is empty. -/
theorem pieces_intercalate {ps : List (List α)} (hps : ∀ p ∈ ps, sep ∉ p)
    (hlast : ps.getLast? ≠ some []) : pieces sep ([sep].intercalate ps) = ps := by
  induction ps with
  | nil => rfl
  | cons p ps ih =>
      have hp := hps p List.mem_cons_self
      cases ps with
      | nil =>
          rw [List.intercalate_singleton]
          refine pieces_of_notMem hp ?_
          rintro rfl
          exact hlast rfl
      | cons q ps =>
          rw [List.intercalate_cons_cons, List.append_assoc, List.singleton_append,
            pieces_append_cons hp, ih (fun r hr => hps r (List.mem_cons_of_mem p hr))]
          rwa [List.getLast?_cons_cons] at hlast

/-- Joined pieces with a separator behind them come back. -/
theorem pieces_intercalate_append {ps : List (List α)} (hps : ∀ p ∈ ps, sep ∉ p)
    (hne : ps ≠ []) : pieces sep ([sep].intercalate ps ++ [sep]) = ps := by
  induction ps with
  | nil => exact absurd rfl hne
  | cons p ps ih =>
      have hp := hps p List.mem_cons_self
      cases ps with
      | nil => rw [List.intercalate_singleton, pieces_append_cons hp, pieces_nil]
      | cons q ps =>
          rw [List.intercalate_cons_cons, List.append_assoc, List.append_assoc,
            List.singleton_append, pieces_append_cons hp,
            ih (fun r hr => hps r (List.mem_cons_of_mem p hr)) (List.cons_ne_nil q ps)]

/-- A list is its joined pieces, or these with a separator behind them. -/
theorem eq_of_pieces {l : List α} {ps : List (List α)} (h : pieces sep l = ps) :
    (l = [sep].intercalate ps ∧ ps.getLast? ≠ some []) ∨
      (l = [sep].intercalate ps ++ [sep] ∧ ps ≠ []) := by
  induction ps generalizing l with
  | nil =>
      rw [pieces_eq_nil_iff] at h
      exact Or.inl ⟨h, fun h => nomatch h⟩
  | cons p ps ih =>
      obtain ⟨-, ⟨hne, rfl, rfl⟩ | ⟨rest, rfl, hrest⟩⟩ := pieces_eq_cons_iff.mp h
      · left
        rw [List.intercalate_singleton]
        refine ⟨rfl, ?_⟩
        rintro hlast
        exact hne (Option.some.inj hlast)
      · cases ps with
        | nil =>
            rw [pieces_eq_nil_iff] at hrest
            right
            rw [hrest, List.intercalate_singleton]
            exact ⟨rfl, List.cons_ne_nil p []⟩
        | cons q ps =>
            rw [List.intercalate_cons_cons, List.getLast?_cons_cons]
            rcases ih hrest with ⟨hjoin, hlast⟩ | ⟨hjoin, -⟩
            · left
              rw [hjoin, List.append_assoc, List.singleton_append]
              exact ⟨rfl, hlast⟩
            · right
              rw [hjoin, List.append_assoc, List.append_assoc, List.singleton_append]
              exact ⟨rfl, List.cons_ne_nil p _⟩

/-- Lists joined from pieces without the separator have the same pieces. -/
theorem intercalate_inj {ps qs : List (List α)} (hps : ∀ p ∈ ps, sep ∉ p) (hps0 : ps ≠ [])
    (hqs : ∀ q ∈ qs, sep ∉ q) (hqs0 : qs ≠ [])
    (h : [sep].intercalate ps = [sep].intercalate qs) : ps = qs := by
  rw [← List.splitOn_intercalate sep hps hps0, h, List.splitOn_intercalate sep hqs hqs0]

end Separated
