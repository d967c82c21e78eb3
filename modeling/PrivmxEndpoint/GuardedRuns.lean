import Mathlib

/-!
# Runs of a labelled step relation

A run takes one step for each label of a list.  Properties of runs come from
properties of single steps by one of two rules: an invariant that every step
keeps holds at the end (`Run.preserves`), and a relation to an abstract
machine that every step keeps relates the end of the run to the end of the
abstract run (`Run.simulates`); a relation that answers every step by a step
answers every run by a run (`Run.forwards`); an abstract step for every step gives an
abstract run with the same labels (`Run.refines`).  `guarded` restricts a step relation to the
steps whose start meets a condition.
-/

namespace Runs

variable {σ ι α : Type*}

/-- Runs of a labelled step relation. -/
inductive Run (step : σ → ι → σ → Prop) : σ → List ι → σ → Prop
  | nil (s : σ) : Run step s [] s
  | cons {s t u : σ} {i : ι} {is : List ι} (hstep : step s i t) (hrest : Run step t is u) :
      Run step s (i :: is) u

/-- The steps whose start and label meet a condition. -/
def guarded (ok : σ → ι → Prop) (step : σ → ι → σ → Prop) : σ → ι → σ → Prop :=
  fun s i t => ok s i ∧ step s i t

/-- A condition on the labels joins the guard. -/
theorem Run.guarded_and {ok : σ → ι → Prop} {step : σ → ι → σ → Prop} {p : ι → Prop}
    {s t : σ} {is : List ι} (hrun : Run (guarded ok step) s is t) (hp : ∀ i ∈ is, p i) :
    Run (guarded (fun s i => ok s i ∧ p i) step) s is t := by
  induction hrun with
  | nil s => exact .nil s
  | cons h _ ih =>
      refine .cons ⟨⟨h.1, hp _ (List.mem_cons_self ..)⟩, h.2⟩ (ih fun i hi => ?_)
      exact hp i (List.mem_cons_of_mem _ hi)

/-- A condition on the labels is a guard. -/
theorem Run.guard {step : σ → ι → σ → Prop} {p : ι → Prop} {s t : σ} {is : List ι}
    (hrun : Run step s is t) (hp : ∀ i ∈ is, p i) :
    Run (guarded (fun _ i => p i) step) s is t := by
  induction hrun with
  | nil s => exact .nil s
  | cons h _ ih =>
      refine .cons ⟨hp _ (List.mem_cons_self ..), h⟩ (ih fun i hi => ?_)
      exact hp i (List.mem_cons_of_mem _ hi)

/-- **Invariants.** -/
theorem Run.preserves {step : σ → ι → σ → Prop} (Inv : σ → Prop)
    (hstep : ∀ s i t, Inv s → step s i t → Inv t)
    {s t : σ} {is : List ι} (hrun : Run step s is t) (hs : Inv s) : Inv t := by
  induction hrun with
  | nil s => exact hs
  | cons h _ ih => exact ih (hstep _ _ _ hs h)

/-- **Simulation** by a deterministic abstract machine. -/
theorem Run.simulates {step : σ → ι → σ → Prop} (rel : σ → α → Prop) (next : α → ι → α)
    (hstep : ∀ s i t a, rel s a → step s i t → rel t (next a i))
    {s t : σ} {is : List ι} {a : α} (hrun : Run step s is t) (hs : rel s a) :
    rel t (is.foldl next a) := by
  induction hrun generalizing a with
  | nil s => exact hs
  | cons h _ ih => exact ih (hstep _ _ _ _ hs h)

/-- **Forward simulation.**  A relation that every step can be answered within
carries runs over. -/
theorem Run.forwards {τ : Type*} {step : σ → ι → σ → Prop} {step' : τ → ι → τ → Prop}
    (rel : σ → τ → Prop)
    (hstep : ∀ s i t s', rel s s' → step s i t → ∃ t', step' s' i t' ∧ rel t t')
    {s t : σ} {is : List ι} {s' : τ} (hrun : Run step s is t) (hs : rel s s') :
    ∃ t', Run step' s' is t' ∧ rel t t' := by
  induction hrun generalizing s' with
  | nil s => exact ⟨s', .nil s', hs⟩
  | cons h _ ih =>
      obtain ⟨t', hstep', ht⟩ := hstep _ _ _ _ hs h
      obtain ⟨u', hrun', hu⟩ := ih ht
      exact ⟨u', .cons hstep' hrun', hu⟩

/-- **Refinement** under a projection of the states. -/
theorem Run.refines {τ : Type*} {step : σ → ι → σ → Prop} {step' : τ → ι → τ → Prop} (f : σ → τ)
    (hstep : ∀ s i t, step s i t → step' (f s) i (f t))
    {s t : σ} {is : List ι} (hrun : Run step s is t) : Run step' (f s) is (f t) := by
  induction hrun with
  | nil s => exact .nil (f s)
  | cons h _ ih => exact .cons (hstep _ _ _ h) ih

end Runs
