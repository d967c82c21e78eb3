import Mathlib

/-!
# Programs that change a state and may throw

An exception leaves the state as it was when it was thrown.  `Triple P m Q E`
says what holds after a program that starts in a state with `P`: `Q` of its
result and the state, or `E` of the state that an exception leaves behind.  The
rules follow the constructs of `do` blocks.
-/

namespace Throwing

/-- A program over the state `σ` with exceptions `ε`. -/
abbrev Prog (ε σ α : Type) := ExceptT ε (StateM σ) α

variable {ε σ α β : Type}

/-- The result and the last state of a program. -/
def exec (m : Prog ε σ α) (s : σ) : Except ε α × σ :=
  StateT.run (ExceptT.run m) s

/-- An expression that may throw and does not look at the state. -/
def lift (x : Except ε α) : Prog ε σ α :=
  ExceptT.mk (pure x)

@[simp] theorem exec_pure (a : α) (s : σ) : exec (pure a : Prog ε σ α) s = (.ok a, s) := rfl

@[simp] theorem exec_throw (e : ε) (s : σ) : exec (throw e : Prog ε σ α) s = (.error e, s) := rfl

@[simp] theorem exec_get (s : σ) : exec (get : Prog ε σ σ) s = (.ok s, s) := rfl

@[simp] theorem exec_modify (f : σ → σ) (s : σ) :
    exec (modify f : Prog ε σ PUnit) s = (.ok ⟨⟩, f s) := rfl

@[simp] theorem exec_lift (x : Except ε α) (s : σ) : exec (lift x : Prog ε σ α) s = (x, s) := rfl

theorem exec_bind (m : Prog ε σ α) (f : α → Prog ε σ β) (s : σ) :
    exec (m >>= f) s =
      match exec m s with
      | (.ok a, s') => exec (f a) s'
      | (.error e, s') => (.error e, s') := by
  show exec (ExceptT.bind m f) s = _
  unfold exec ExceptT.bind
  simp only [ExceptT.run, ExceptT.mk]
  rw [StateT.run_bind]
  cases h : StateT.run m s with
  | mk result s' =>
      cases result with
      | ok a => rfl
      | error e => rfl

@[simp] theorem exec_get_bind (f : σ → Prog ε σ β) (s : σ) :
    exec (get >>= f) s = exec (f s) s := rfl

@[simp] theorem exec_modify_bind (g : σ → σ) (f : PUnit → Prog ε σ β) (s : σ) :
    exec (modify g >>= f) s = exec (f ⟨⟩) (g s) := rfl

@[simp] theorem exec_throw_bind (e : ε) (f : α → Prog ε σ β) (s : σ) :
    exec (throw e >>= f) s = (.error e, s) := rfl

@[simp] theorem exec_lift_ok_bind (a : α) (f : α → Prog ε σ β) (s : σ) :
    exec (lift (.ok a) >>= f) s = exec (f a) s := rfl

@[simp] theorem exec_lift_error_bind (e : ε) (f : α → Prog ε σ β) (s : σ) :
    exec (lift (.error e) >>= f) s = (.error e, s) := rfl

/-- A handler starts in the state that the exception leaves. -/
theorem exec_tryCatch (m : Prog ε σ α) (handler : ε → Prog ε σ α) (s : σ) :
    exec (tryCatch m handler) s =
      match exec m s with
      | (.ok a, s') => (.ok a, s')
      | (.error e, s') => exec (handler e) s' := by
  show exec (ExceptT.tryCatch m handler) s = _
  unfold exec ExceptT.tryCatch
  simp only [ExceptT.run, ExceptT.mk]
  rw [StateT.run_bind]
  cases h : StateT.run m s with
  | mk result s' =>
      cases result with
      | ok a => rfl
      | error e => rfl

/-- A sequence comes to an end exactly if both parts do. -/
theorem exec_bind_eq_ok {m : Prog ε σ α} {f : α → Prog ε σ β} {s t : σ} {b : β} :
    exec (m >>= f) s = (.ok b, t) ↔
      ∃ a u, exec m s = (.ok a, u) ∧ exec (f a) u = (.ok b, t) := by
  rw [exec_bind]
  constructor
  · intro h
    cases hm : exec m s with
    | mk result u =>
        rw [hm] at h
        cases result with
        | ok a => exact ⟨a, u, rfl, h⟩
        | error e => cases h
  · rintro ⟨a, u, hm, hf⟩
    rw [hm]
    exact hf

@[inherit_doc exec_bind_eq_ok]
theorem exec_seq_eq_ok {m : Prog ε σ Unit} {f : Unit → Prog ε σ β} {s t : σ} {b : β} :
    exec (m >>= f) s = (.ok b, t) ↔
      ∃ u, exec m s = (.ok (), u) ∧ exec (f ()) u = (.ok b, t) := by
  rw [exec_bind_eq_ok]
  exact ⟨fun ⟨(), u, h⟩ => ⟨u, h⟩, fun ⟨u, h⟩ => ⟨(), u, h⟩⟩

/-- An expression comes first, and it does not throw. -/
theorem exec_lift_bind_eq_ok {x : Except ε α} {f : α → Prog ε σ β} {s t : σ} {b : β} :
    exec (lift x >>= f) s = (.ok b, t) ↔ ∃ a, x = .ok a ∧ exec (f a) s = (.ok b, t) := by
  cases x with
  | ok a =>
      rw [exec_lift_ok_bind]
      constructor
      · intro h
        exact ⟨a, rfl, h⟩
      · rintro ⟨a', ha, h⟩
        cases ha
        exact h
  | error e =>
      rw [exec_lift_error_bind]
      constructor
      · intro h
        cases h
      · rintro ⟨a, ha, -⟩
        cases ha

/-- The parts of a sequence without a state. -/
theorem bind_eq_ok {x : Except ε α} {f : α → Except ε β} {b : β} (h : (x >>= f) = .ok b) :
    ∃ a, x = .ok a ∧ f a = .ok b := by
  cases x with
  | error e => cases h
  | ok a => exact ⟨a, rfl, h⟩

/-- A loop without a state. -/
theorem mapM_eq_ok_iff {f : α → Except ε β} {l : List α} {r : List β} :
    l.mapM f = .ok r ↔ List.Forall₂ (fun a b => f a = .ok b) l r := by
  induction l generalizing r with
  | nil =>
      constructor
      · intro h
        obtain rfl := Except.ok.inj h
        exact .nil
      · intro h
        cases h
        rfl
  | cons a l ih =>
      rw [List.mapM_cons]
      cases hb : f a with
      | error e =>
          constructor
          · intro h
            cases h
          · intro h
            cases h with
            | cons hok _ => cases hb.symm.trans hok
      | ok b =>
          cases hrest : l.mapM f with
          | error e =>
              constructor
              · intro h
                cases h
              · intro h
                cases h with
                | cons _ hl => cases hrest.symm.trans (ih.mpr hl)
          | ok rest =>
              constructor
              · intro h
                obtain rfl := Except.ok.inj h
                exact .cons hb (ih.mp hrest)
              · intro h
                cases h with
                | cons hok hl =>
                    obtain rfl := Except.ok.inj (hb.symm.trans hok)
                    obtain rfl := Except.ok.inj (hrest.symm.trans (ih.mpr hl))
                    rfl

/-- A loop that does not throw. -/
theorem mapM_eq_ok_map {f : α → Except ε β} {g : α → β} {l : List α}
    (h : ∀ a ∈ l, f a = .ok (g a)) : l.mapM f = .ok (l.map g) := by
  rw [mapM_eq_ok_iff, List.forall₂_map_right_iff, List.forall₂_same]
  exact h

/-- What holds after a program. -/
def Triple (P : σ → Prop) (m : Prog ε σ α) (Q : α → σ → Prop) (E : σ → Prop) : Prop :=
  ∀ s, P s →
    match exec m s with
    | (.ok a, s') => Q a s'
    | (.error _, s') => E s'

variable {P P' : σ → Prop} {Q Q' : α → σ → Prop} {R : β → σ → Prop} {E : σ → Prop}

theorem Triple.pure {a : α} (h : ∀ s, P s → Q a s) :
    Triple P (Pure.pure a : Prog ε σ α) Q E := h

theorem Triple.throw {e : ε} (h : ∀ s, P s → E s) :
    Triple P (MonadExcept.throw e : Prog ε σ α) Q E := h

theorem Triple.modify {f : σ → σ} {Q : PUnit → σ → Prop} (h : ∀ s, P s → Q ⟨⟩ (f s)) :
    Triple P (MonadState.modifyGet (fun s => (PUnit.unit, f s)) : Prog ε σ PUnit) Q E := h

theorem Triple.lift {x : Except ε α} (hok : ∀ a, x = .ok a → ∀ s, P s → Q a s)
    (herror : ∀ s, P s → E s) : Triple P (Throwing.lift x : Prog ε σ α) Q E := by
  intro s hs
  cases hx : x with
  | ok a => exact hok a hx s hs
  | error e => exact herror s hs

theorem Triple.bind {m : Prog ε σ α} {f : α → Prog ε σ β} (hm : Triple P m Q E)
    (hf : ∀ a, Triple (Q a) (f a) R E) : Triple P (m >>= f) R E := by
  intro s hs
  have hfirst := hm s hs
  rw [exec_bind]
  cases h : exec m s with
  | mk result s' =>
      rw [h] at hfirst
      cases result with
      | ok a => exact hf a s' hfirst
      | error e => exact hfirst

/-- The state is looked at. -/
theorem Triple.get_bind {f : σ → Prog ε σ β} (h : ∀ s, P s → Triple (fun t => t = s) (f s) R E) :
    Triple P (get >>= f) R E := by
  intro s hs
  rw [exec_bind]
  exact h s hs s rfl

theorem Triple.weaken {m : Prog ε σ α} (h : Triple P m Q E) (hP : ∀ s, P' s → P s)
    (hQ : ∀ a s, Q a s → Q' a s) : Triple P' m Q' E := by
  intro s hs
  have hold := h s (hP s hs)
  cases hexec : exec m s with
  | mk result s' =>
      rw [hexec] at hold
      cases result with
      | ok a => exact hQ a s' hold
      | error e => exact hold

/-- Less may be said about exceptions. -/
theorem Triple.weakenError {m : Prog ε σ α} {E' : σ → Prop} (h : Triple P m Q E)
    (hE : ∀ s, E s → E' s) : Triple P m Q E' := by
  intro s hs
  have hold := h s hs
  cases hexec : exec m s with
  | mk result s' =>
      rw [hexec] at hold
      cases result with
      | ok a => exact hold
      | error e => exact hE s' hold

/-- What holds after a program whether or not it throws. -/
theorem Triple.exec_snd {m : Prog ε σ α} (h : Triple P m (fun _ => E) E) {s : σ} (hs : P s) :
    E (exec m s).2 := by
  have hexec := h s hs
  cases hm : exec m s with
  | mk result s' =>
      rw [hm] at hexec
      cases result with
      | ok a => exact hexec
      | error e => exact hexec

/-- What does not depend on the state is a hypothesis. -/
theorem Triple.of_and {m : Prog ε σ α} {p : Prop} (h : p → Triple P m Q E) :
    Triple (fun s => p ∧ P s) m Q E :=
  fun s hs => h hs.1 s hs.2

/-- Nothing follows an exception. -/
theorem Triple.throw_bind {e : ε} {f : α → Prog ε σ β} (h : ∀ s, P s → E s) :
    Triple P (MonadExcept.throw e >>= f) R E :=
  Triple.bind (Triple.throw (Q := fun _ _ => False) h) fun _ _ hs => absurd hs id

/-- An expression goes first, and its value is known afterwards. -/
theorem Triple.lift_bind {x : Except ε α} {f : α → Prog ε σ β} (herror : ∀ s, P s → E s)
    (h : ∀ a, x = .ok a → Triple P (f a) R E) : Triple P (Throwing.lift x >>= f) R E := by
  refine Triple.bind (Q := fun a s => x = .ok a ∧ P s)
    (Triple.lift (fun a ha s hs => ⟨ha, hs⟩) herror) fun a => Triple.of_and (h a)

end Throwing
