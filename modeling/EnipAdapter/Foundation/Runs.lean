import Mathlib.Data.List.Basic

/-!
# Runs under a step condition

A deterministic system moves by a step function; a schedule is the list of inputs it is given.
`Guarded` says that every step of a schedule meets a condition on the state it is taken in,
and an invariant that such steps keep holds wherever the schedule leads.
-/

set_option autoImplicit false

namespace EnipAdapter.Foundation

universe u v

variable {σ : Type u} {ι : Type v}

/-- The state a schedule leads to. -/
def runSteps (step : σ → ι → σ) (s : σ) (inputs : List ι) : σ := inputs.foldl step s

/-- Every step of the schedule meets the condition. -/
def Guarded (step : σ → ι → σ) (guard : σ → ι → Prop) : σ → List ι → Prop
  | _, [] => True
  | s, i :: is => guard s i ∧ Guarded step guard (step s i) is

instance guardedDecidable {step : σ → ι → σ} {guard : σ → ι → Prop}
    [∀ s i, Decidable (guard s i)] :
    (s : σ) → (inputs : List ι) → Decidable (Guarded step guard s inputs)
  | _, [] => .isTrue trivial
  | s, i :: is =>
    haveI : Decidable (Guarded step guard (step s i) is) := guardedDecidable (step s i) is
    inferInstanceAs (Decidable (guard s i ∧ Guarded step guard (step s i) is))

/-- An invariant that guarded steps keep holds after every guarded schedule. -/
theorem runSteps_invariant {step : σ → ι → σ} {guard : σ → ι → Prop} {inv : σ → Prop}
    (hstep : ∀ s i, inv s → guard s i → inv (step s i)) {s : σ} {inputs : List ι}
    (hs : inv s) (hguard : Guarded step guard s inputs) : inv (runSteps step s inputs) := by
  induction inputs generalizing s with
  | nil => exact hs
  | cons i is ih => exact ih (hstep s i hs hguard.1) hguard.2

/-- An invariant that every step keeps holds after every schedule. -/
theorem runSteps_kept {step : σ → ι → σ} {inv : σ → Prop}
    (hstep : ∀ s i, inv s → inv (step s i)) {s : σ} (hs : inv s) (inputs : List ι) :
    inv (runSteps step s inputs) := by
  induction inputs generalizing s with
  | nil => exact hs
  | cons i is ih => exact ih (hstep s i hs)

/-- Two conditions that agree wherever a guarded schedule leads are met by the same ones. -/
theorem guarded_congr {step : σ → ι → σ} {guard p q : σ → ι → Prop} (inv : σ → Prop)
    (hstep : ∀ s i, inv s → guard s i → inv (step s i))
    (hagree : ∀ s i, inv s → (p s i ↔ q s i)) {s : σ} {inputs : List ι} (hs : inv s)
    (hguard : Guarded step guard s inputs) :
    Guarded step p s inputs ↔ Guarded step q s inputs := by
  induction inputs generalizing s with
  | nil => exact Iff.rfl
  | cons i is ih => exact and_congr (hagree s i hs) (ih (hstep s i hs hguard.1) hguard.2)

/-- What guarded steps from an invariant state meet is met along every guarded schedule. -/
theorem guarded_of_invariant {step : σ → ι → σ} {guard goal : σ → ι → Prop} (inv : σ → Prop)
    (hstep : ∀ s i, inv s → guard s i → inv (step s i))
    (hgoal : ∀ s i, inv s → guard s i → goal s i) {s : σ} {inputs : List ι} (hs : inv s)
    (hguard : Guarded step guard s inputs) : Guarded step goal s inputs := by
  induction inputs generalizing s with
  | nil => trivial
  | cons i is ih => exact ⟨hgoal s i hs hguard.1, ih (hstep s i hs hguard.1) hguard.2⟩

/-- Two conditions that are both met along a schedule are met together. -/
theorem guarded_and {step : σ → ι → σ} {p q : σ → ι → Prop} {s : σ} {inputs : List ι}
    (hp : Guarded step p s inputs) (hq : Guarded step q s inputs) :
    Guarded step (fun s i => p s i ∧ q s i) s inputs := by
  induction inputs generalizing s with
  | nil => trivial
  | cons i is ih => exact ⟨⟨hp.1, hq.1⟩, ih hp.2 hq.2⟩

end EnipAdapter.Foundation
