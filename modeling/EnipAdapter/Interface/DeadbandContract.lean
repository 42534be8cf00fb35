import EnipAdapter.Model.Publish

/-!
# What the gate owes an integer without a deadband

A LINT or a ULINT is published as a JSON integer, its array as an array of them. Without a
deadband the gate lets a value through exactly where it is another one than the baseline. The
gate compares the nearest doubles of the two, and large integers share them.
-/

set_option autoImplicit false

namespace EnipAdapter.Interface

open EnipAdapter.Foundation EnipAdapter.Model

/-- An integer literal of JSON. -/
def IsInteger (v : Json) : Prop := ∃ n, v.asInt = some n

/-- Two integers, or two arrays of them. -/
inductive IntegerPair : Json → Json → Prop
  | scalars {a b : Json} (ha : IsInteger a) (hb : IsInteger b) : IntegerPair a b
  | arrays {as bs : List Json} (has : ∀ a ∈ as, IsInteger a) (hbs : ∀ b ∈ bs, IsInteger b) :
      IntegerPair (.arr as) (.arr bs)

/-- No deadband, whatever its threshold is left at. -/
def noDeadband (value : F64) : DeadbandSpec := ⟨.none, value⟩

/-- The gate takes the new value for a change, and a signal whose baseline is the old one
publishes it, exactly where the two differ. -/
structure EveryChangeCounts (prev new : Json) (value : F64) : Prop where
  changed : valueChanged prev new (noDeadband value) = true ↔ prev ≠ new
  published : ∀ st : SignalState, st.committed = some prev → st.pending = none →
    (gatePasses st new .good .onChange (noDeadband value) = true ↔ prev ≠ new)

/-- Two integers with the same nearest double. -/
def RoundAlike (a b : Json) : Prop :=
  ∃ m n : ℤ, a.asInt = some m ∧ b.asInt = some n ∧ (F64.ofInt m).toRat = (F64.ofInt n).toRat

/-- At every place the two values have integers with the same nearest double. -/
def RoundAlikeThroughout : Json → Json → Prop
  | .arr as, .arr bs => List.Forall₂ RoundAlike as bs
  | a, b => RoundAlike a b

end EnipAdapter.Interface
