import Mathlib

/-!
# Loops over the passing elements of a list

A loop that erases the elements that fail a test while it walks over the list, with an
index of 64 bits that it steps back behind each erased element, and a loop that walks over
a list with a second cursor into another one, which moves on only at the elements that
pass.  Both are described by one number: how many elements before an index pass.
-/

namespace GatedLoops

variable {α β γ ε : Type}

/-- How many elements before an index pass. -/
def passedBefore (p : α → Bool) (l : List α) (i : Nat) : Nat :=
  (l.take i).countP p

theorem passedBefore_cons_succ (p : α → Bool) (x : α) (l : List α) (i : Nat) :
    passedBefore p (x :: l) (i + 1) = (if p x then 1 else 0) + passedBefore p l i := by
  unfold passedBefore
  rw [List.take_succ_cons, List.countP_cons, Nat.add_comm]

/-- A passing element of a list is found among the passing ones behind those before it. -/
theorem getElem?_filter {p : α → Bool} {l : List α} {i : Nat} {x : α} (hx : l[i]? = some x)
    (hpass : p x = true) : (l.filter p)[passedBefore p l i]? = some x := by
  induction l generalizing i with
  | nil => simp at hx
  | cons y l ih =>
      cases i with
      | zero =>
          obtain rfl : y = x := by simpa using hx
          rw [List.filter_cons_of_pos hpass]
          rfl
      | succ i =>
          have hrest := ih (i := i) (by simpa using hx)
          rw [passedBefore_cons_succ]
          by_cases hy : p y = true
          · rw [List.filter_cons_of_pos hy, if_pos hy, Nat.add_comm, List.getElem?_cons_succ]
            exact hrest
          · rw [List.filter_cons_of_neg hy, if_neg hy, Nat.zero_add]
            exact hrest

/-! ### Erasing while walking -/

/-- The loop `for (i = 0; i < list.size(); i++)` that checks each element, writes what the
check makes of it to `out` and erases the element at `i`, with `i--` behind it, if it fails.
A check that throws ends the loop. -/
def eraseFailing (check : α → Except ε (γ × Bool)) :
    Nat → Nat → List α → List γ → Option (Except ε (List α × List γ))
  | 0, _, _, _ => none
  | fuel + 1, i, list, out =>
      if h : i < list.length then
        match check list[i] with
        | .error e => some (.error e)
        | .ok (c, true) =>
            eraseFailing check fuel ((i + 1) % 2 ^ 64) list (out ++ [c])
        | .ok (c, false) =>
            eraseFailing check fuel (((i + (2 ^ 64 - 1)) % 2 ^ 64 + 1) % 2 ^ 64)
              (list.eraseIdx i) (out ++ [c])
      else
        some (.ok (list, out))

/-- Stepping back and on again leads to where the index was, also at zero. -/
theorem step_back_and_on {i : Nat} (h : i < 2 ^ 64) :
    ((i + (2 ^ 64 - 1)) % 2 ^ 64 + 1) % 2 ^ 64 = i := by
  omega

theorem eraseIdx_at {kept rest : List α} {x : α} :
    (kept ++ x :: rest).eraseIdx kept.length = kept ++ rest := by
  rw [List.eraseIdx_append_of_length_le (Nat.le_refl _), Nat.sub_self, List.eraseIdx_cons_zero]

section Erasing

variable {check : α → Except ε (γ × Bool)} {kept rest : List α} {x : α} {out : List γ} {fuel : Nat}

/-- One round that keeps its element. -/
theorem eraseFailing_keep {c : γ} (hx : check x = .ok (c, true))
    (hlength : (kept ++ x :: rest).length < 2 ^ 64) :
    eraseFailing check (fuel + 1) kept.length (kept ++ x :: rest) out =
      eraseFailing check fuel (kept ++ [x]).length ((kept ++ [x]) ++ rest) (out ++ [c]) := by
  have hget : ∀ h : kept.length < (kept ++ x :: rest).length,
      (kept ++ x :: rest)[kept.length] = x := fun h => by simp
  rw [List.length_append, List.length_cons] at hlength
  have hnext : (kept.length + 1) % 2 ^ 64 = (kept ++ [x]).length := by
    rw [List.length_append, List.length_singleton]
    exact Nat.mod_eq_of_lt (by omega)
  have happend : kept ++ x :: rest = (kept ++ [x]) ++ rest := by simp
  rw [eraseFailing, dif_pos (by simp), hget, hx]
  dsimp only
  rw [hnext, happend]

/-- One round that erases its element. -/
theorem eraseFailing_drop {c : γ} (hx : check x = .ok (c, false))
    (hlength : (kept ++ x :: rest).length < 2 ^ 64) :
    eraseFailing check (fuel + 1) kept.length (kept ++ x :: rest) out =
      eraseFailing check fuel kept.length (kept ++ rest) (out ++ [c]) := by
  have hget : ∀ h : kept.length < (kept ++ x :: rest).length,
      (kept ++ x :: rest)[kept.length] = x := fun h => by simp
  rw [List.length_append, List.length_cons] at hlength
  rw [eraseFailing, dif_pos (by simp), hget, hx]
  dsimp only
  rw [step_back_and_on (by omega), eraseIdx_at]

/-- One round whose check throws. -/
theorem eraseFailing_throw {e : ε} (hx : check x = .error e) :
    eraseFailing check (fuel + 1) kept.length (kept ++ x :: rest) out = some (.error e) := by
  have hget : ∀ h : kept.length < (kept ++ x :: rest).length,
      (kept ++ x :: rest)[kept.length] = x := fun h => by simp
  rw [eraseFailing, dif_pos (by simp), hget, hx]

/-- The loop from any index on: what lies before it stays. -/
theorem eraseFailing_append {p : α → Bool} {f : α → γ} (kept : List α)
    (hcheck : ∀ x ∈ rest, check x = .ok (f x, p x)) (hfuel : rest.length < fuel)
    (hlength : (kept ++ rest).length < 2 ^ 64) :
    eraseFailing check fuel kept.length (kept ++ rest) out =
      some (.ok (kept ++ rest.filter p, out ++ rest.map f)) := by
  induction rest generalizing kept out fuel with
  | nil =>
      obtain ⟨fuel, rfl⟩ : ∃ n, fuel = n + 1 := ⟨fuel - 1, by omega⟩
      rw [eraseFailing, dif_neg (by simp)]
      simp
  | cons x rest ih =>
      obtain ⟨fuel, rfl⟩ : ∃ n, fuel = n + 1 := ⟨fuel - 1, by omega⟩
      have hrest : rest.length < fuel := by simpa using hfuel
      have hbehind := fun y hy => hcheck y (List.mem_cons_of_mem _ hy)
      have hx := hcheck x List.mem_cons_self
      by_cases hpass : p x = true
      · rw [hpass] at hx
        rw [eraseFailing_keep hx hlength, ih (kept ++ [x]) hbehind hrest (by simpa using hlength),
          List.filter_cons_of_pos hpass]
        simp
      · rw [Bool.not_eq_true] at hpass
        rw [hpass] at hx
        rw [eraseFailing_drop hx hlength,
          ih kept hbehind hrest (by simp at hlength ⊢; omega),
          List.filter_cons_of_neg (by simp [hpass])]
        simp

/-- A check that throws, behind any number of checks that do not. -/
theorem eraseFailing_append_error (kept : List α) (out : List γ)
    (hthrows : ∃ x ∈ rest, ∃ e, check x = .error e)
    (hfuel : rest.length < fuel) (hlength : (kept ++ rest).length < 2 ^ 64) :
    ∃ x ∈ rest, ∃ e, check x = .error e ∧
      eraseFailing check fuel kept.length (kept ++ rest) out = some (.error e) := by
  induction rest generalizing kept out fuel with
  | nil =>
      obtain ⟨x, hx, _⟩ := hthrows
      cases hx
  | cons x rest ih =>
      obtain ⟨fuel, rfl⟩ : ∃ n, fuel = n + 1 := ⟨fuel - 1, by omega⟩
      have hrest : rest.length < fuel := by simpa using hfuel
      have hlater : ∀ c, check x = .ok c → ∃ y ∈ rest, ∃ e, check y = .error e := by
        intro c hc
        obtain ⟨y, hy, e, he⟩ := hthrows
        rcases List.mem_cons.mp hy with rfl | hy
        · cases hc.symm.trans he
        · exact ⟨y, hy, e, he⟩
      cases hx : check x with
      | error e => exact ⟨x, List.mem_cons_self, e, hx, eraseFailing_throw hx⟩
      | ok c =>
          obtain ⟨c, pass⟩ := c
          cases pass with
          | true =>
              rw [eraseFailing_keep hx hlength]
              obtain ⟨y, hy, he⟩ := ih (kept ++ [x]) (out ++ [c]) (hlater _ hx) hrest
                (by simpa using hlength)
              exact ⟨y, List.mem_cons_of_mem _ hy, he⟩
          | false =>
              rw [eraseFailing_drop hx hlength]
              obtain ⟨y, hy, he⟩ := ih kept (out ++ [c]) (hlater _ hx) hrest
                (by simp at hlength ⊢; omega)
              exact ⟨y, List.mem_cons_of_mem _ hy, he⟩

/-- **Erasing while walking** keeps the passing elements and visits all, if no check
throws. -/
theorem eraseFailing_eq {p : α → Bool} {f : α → γ} {list : List α}
    (hcheck : ∀ x ∈ list, check x = .ok (f x, p x)) (hfuel : list.length < fuel)
    (hlength : list.length < 2 ^ 64) :
    eraseFailing check fuel 0 list [] = some (.ok (list.filter p, list.map f)) :=
  eraseFailing_append [] hcheck hfuel hlength

/-- The loop throws what one of the checks throws, if any does. -/
theorem eraseFailing_error {list : List α} (hthrows : ∃ x ∈ list, ∃ e, check x = .error e)
    (hfuel : list.length < fuel) (hlength : list.length < 2 ^ 64) :
    ∃ x ∈ list, ∃ e, check x = .error e ∧
      eraseFailing check fuel 0 list [] = some (.error e) :=
  eraseFailing_append_error [] [] hthrows hfuel hlength

end Erasing

/-! ### Taking from a second list -/

/-- Each element that passes takes the next one of `source`, from `j` on; `none` if it has
no more. -/
def fill (p : α → Bool) (put : α → β → α) (source : List β) : Nat → List α → Option (List α)
  | _, [] => some []
  | j, x :: l =>
      if p x then
        match source[j]? with
        | none => none
        | some y => (fill p put source (j + 1) l).map (put x y :: ·)
      else
        (fill p put source j l).map (x :: ·)

/-- **Filling** finds an own element for each that passes, and leaves the others alone. -/
theorem fill_spec {p : α → Bool} (put : α → β → α) (source : List β) (j : Nat) (l : List α)
    (h : j + l.countP p ≤ source.length) :
    ∃ filled, fill p put source j l = some filled ∧ filled.length = l.length ∧
      ∀ i x, l[i]? = some x →
        (p x = false → filled[i]? = some x) ∧
          (p x = true → ∃ y, source[j + passedBefore p l i]? = some y ∧
            filled[i]? = some (put x y)) := by
  induction l generalizing j with
  | nil => exact ⟨[], rfl, rfl, fun i x hx => by simp at hx⟩
  | cons x l ih =>
      rw [List.countP_cons] at h
      by_cases hpass : p x = true
      · rw [if_pos hpass] at h
        obtain ⟨filled, hfilled, hlength, hall⟩ := ih (j + 1) (by omega)
        have hy : source[j]? = some source[j] := List.getElem?_eq_getElem (by omega)
        refine ⟨put x source[j] :: filled, ?_, by simp [hlength], fun i z hz => ?_⟩
        · rw [fill, if_pos hpass, hy]
          simp only [hfilled, Option.map_some]
        · cases i with
          | zero =>
              obtain rfl : x = z := by simpa using hz
              exact ⟨fun hfail => absurd (hpass.symm.trans hfail) (by simp),
                fun _ => ⟨source[j], hy, rfl⟩⟩
          | succ i =>
              rw [passedBefore_cons_succ, if_pos hpass, ← Nat.add_assoc]
              exact hall i z (by simpa using hz)
      · rw [if_neg hpass, Nat.add_zero] at h
        obtain ⟨filled, hfilled, hlength, hall⟩ := ih j h
        refine ⟨x :: filled, ?_, by simp [hlength], fun i z hz => ?_⟩
        · rw [fill, if_neg hpass, hfilled]
          rfl
        · cases i with
          | zero =>
              obtain rfl : x = z := by simpa using hz
              exact ⟨fun _ => rfl, fun hyes => absurd hyes hpass⟩
          | succ i =>
              rw [passedBefore_cons_succ, if_neg hpass, Nat.zero_add]
              exact hall i z (by simpa using hz)

end GatedLoops
