import Mathlib.Data.List.Basic

/-!
# Fail-fast checks

A validation routine is a sequence of checks, each of which returns the first thing wrong.
`refuse bad error` is one such check; the lemmas invert a sequence that succeeded, check by
check, and read off that each condition was met.
-/

set_option autoImplicit false

namespace EnipAdapter.Foundation

universe u v w

variable {ε : Type u} {α : Type v} {β : Type v}

/-- Fail with `error` when `bad` holds. -/
def refuse (bad : Prop) [Decidable bad] (error : ε) : Except ε PUnit.{v + 1} :=
  if bad then .error error else .ok ⟨⟩

/-- A check that passed found nothing wrong. -/
theorem refuse_ok {bad : Prop} [Decidable bad] {error : ε} {r : PUnit.{v + 1}} :
    refuse bad error = .ok r ↔ ¬bad := by
  unfold refuse
  split
  · rename_i hbad
    simp [hbad]
  · rename_i hbad
    simp [hbad]

/-- A check fails with its own error, where what it refuses is the case. -/
theorem refuse_error {bad : Prop} [Decidable bad] {error e : ε} :
    (refuse bad error : Except ε PUnit.{v + 1}) = .error e ↔ bad ∧ error = e := by
  unfold refuse
  split
  · rename_i hbad
    simp [hbad]
  · rename_i hbad
    simp [hbad]

/-- A sequence succeeds exactly when its first part does and the rest does from there. -/
theorem bind_ok {x : Except ε α} {f : α → Except ε β} {b : β} :
    (x >>= f) = .ok b ↔ ∃ a, x = .ok a ∧ f a = .ok b := by
  cases x with
  | error e => simp [bind, Except.bind]
  | ok a => simp [bind, Except.bind]

/-- A sequence fails where its first part does, or where the rest does from there. -/
theorem bind_error {x : Except ε α} {f : α → Except ε β} {e : ε} :
    (x >>= f) = .error e ↔ x = .error e ∨ ∃ a, x = .ok a ∧ f a = .error e := by
  cases x with
  | error e' => simp [bind, Except.bind]
  | ok a => simp [bind, Except.bind]

/-- Rewording an error does not turn a failure into a success. -/
theorem mapError_ok {ε' : Type w} {x : Except ε α} {f : ε → ε'} {a : α} :
    x.mapError f = .ok a ↔ x = .ok a := by
  cases x with
  | error e => simp [Except.mapError]
  | ok b => simp [Except.mapError]

/-- An error that was rewritten is the rewriting of an error. -/
theorem mapError_error {ε' : Type w} {x : Except ε α} {f : ε → ε'} {e : ε'} :
    x.mapError f = .error e ↔ ∃ e', x = .error e' ∧ f e' = e := by
  cases x with
  | error e' => simp [Except.mapError]
  | ok b => simp [Except.mapError]

end EnipAdapter.Foundation
