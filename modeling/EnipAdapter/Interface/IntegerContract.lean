import EnipAdapter.Interface.RoundTripContract
import EnipAdapter.Model.EncodeWrite

/-!
# What a write of integers owes its value

A JSON number stands for a rational: an integer literal for itself, a float for the dyadic
number of its bits. A write of an integer type is exact where every element it makes carries the
number that stood in its place, and that number is an integer the type has.
-/

set_option autoImplicit false

namespace EnipAdapter.Interface

open EnipAdapter.Foundation EnipAdapter.Model

/-- The number a JSON value denotes. -/
def numberOf : Json → Option ℚ
  | .num (.posInt n) => some n.toNat
  | .num (.negInt n _) => some n.toInt
  | .num (.float x _) => some x.toRat
  | _ => none

/-- Whether a type has negative integers. -/
def isSigned : EipType → Bool
  | .sint | .int | .dint | .lint => true
  | _ => false

/-- The width of a type on the wire, in bits. -/
def typeBits (ty : EipType) : ℕ := 8 * ty.cipType.elementSize.getD 0

/-- The integers of a type, by its width and its sign. -/
def InRange (ty : EipType) (k : ℤ) : Prop :=
  if isSigned ty then -2 ^ (typeBits ty - 1) ≤ k ∧ k < 2 ^ (typeBits ty - 1)
  else 0 ≤ k ∧ k < 2 ^ typeBits ty

/-- The JSON value denotes this integer, and the type has it. -/
structure Denotes (ty : EipType) (e : Json) (k : ℤ) : Prop where
  number : numberOf e = some (k : ℚ)
  inRange : InRange ty k

/-- The integer of a value of an integer type. -/
def integerOf : CipValue → Option ℤ
  | .sint x => some x.toInt
  | .int x => some x.toInt
  | .dint x => some x.toInt
  | .lint x => some x.toInt
  | .usint x => some x.toNat
  | .uint x => some x.toNat
  | .udint x => some x.toNat
  | .ulint x => some x.toNat
  | _ => none

/-- A value of the type that carries the very integer the JSON value denotes. -/
structure Exactly (ty : EipType) (e : Json) (v : CipValue) : Prop where
  scalar : ScalarOf ty.cipType v
  same : ∃ k, Denotes ty e k ∧ integerOf v = some k

/-- The elements that are to be written: the value itself, or the items of an array of exactly
the configured count. -/
def writtenElements (arrayCount : Option UInt32) (value : Json) : Option (List Json) :=
  match arrayCount with
  | none => some [value]
  | some n => value.asArray.filter (·.length = n.toNat)

/-- The value a write makes of its elements. -/
def MadeOf (ty : EipType) (arrayCount : Option UInt32) (vs : List CipValue) (result : CipValue) :
    Prop :=
  match arrayCount with
  | none => vs = [result]
  | some _ => result = .array ty.cipType vs

/-!
## The identity transform by its spellings

A signal without a value transform may leave `scale` and `offset` out or write either of them as
the identity. A write should not see the difference. Where it does, a fractional number for an
integer type is involved.
-/

/-- The ways of writing the identity transform: both left out, a scale of `1.0`, an offset of
`0.0`, or both. -/
def identityTransforms : List (Option F64 × Option F64) :=
  [(none, none), (some (F64.ofInt 1), none), (none, some (F64.zero false)),
    (some (F64.ofInt 1), some (F64.zero false))]

/-- A write has one result under every identity transform. -/
def SpellingIrrelevant (value : Json) (ty : EipType) (arrayCount : Option UInt32) : Prop :=
  ∀ t ∈ identityTransforms,
    encodeWrite value ty t.1 t.2 arrayCount = encodeWrite value ty none none arrayCount

/-- A JSON number that is no integer. -/
def Fractional (e : Json) : Prop := ∃ q, numberOf e = some q ∧ ∀ k : ℤ, q ≠ k

/-- No element of an integer type is fractional behind elements that all are integers of the
type: the elements are taken in order, and the first that is refused ends the write. -/
def NoFractionReached (value : Json) (ty : EipType) (arrayCount : Option UInt32) : Prop :=
  isIntegerType ty = true →
    ∀ before e after, writtenElements arrayCount value = some (before ++ e :: after) →
      (∀ p ∈ before, ∃ k, Denotes ty p k) → ¬ Fractional e

end EnipAdapter.Interface
