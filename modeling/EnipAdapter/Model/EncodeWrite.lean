import EnipAdapter.Model.Config

/-!
# From JSON to a CIP value

`encode_write` (`eip/types.rs`): coerce the JSON value of a write to the configured type,
undoing the value transform and checking the range. An integer literal for an integer target
under the identity transform never passes through floating point.

Where the source renders an offending number into an error's text, the error here carries the
number.
-/

set_option autoImplicit false

namespace EnipAdapter.Model

open EnipAdapter.Foundation

inductive WriteNumber where
  | int (n : ℤ)
  | float (x : F64)
deriving DecidableEq, Repr

/-- Why a value could not be coerced. -/
inductive WriteError where
  | expectedBool
  | expectedNumber
  | expectedArray
  | wrongArrayLen (expected got : ℕ)
  | nonInteger (ty : EipType)
  | outOfRange (ty : EipType) (value : WriteNumber)
  | inexactUnderTransform (ty : EipType) (value : WriteNumber)
  | nonFinite
deriving DecidableEq, Repr

/-- The largest magnitude up to which every integer is a float. -/
def exactF64IntLimit : ℤ := 2 ^ 53

/-- Whether the type is one of the eight integer widths. -/
def isIntegerType : EipType → Bool
  | .sint | .usint | .int | .uint | .dint | .udint | .lint | .ulint => true
  | .bool | .real | .lreal => false

/-- Whether the value transform is the identity. -/
def isIdentityTransform (scale offset : Option F64) : Bool :=
  (scale.getD (F64.ofInt 1)).eqv (F64.ofInt 1) && (offset.getD (F64.zero false)).eqv (F64.zero false)

/-- The exact integer of an integer literal. -/
def jsonExactInt (v : Json) : Option ℤ :=
  match v.asU64 with
  | some n => some n.toNat
  | none => v.asI64.map Int64.toInt

/-- The inclusive range of an integer type. -/
def intBounds : EipType → ℤ × ℤ
  | .sint => (-2 ^ 7, 2 ^ 7 - 1)
  | .usint => (0, 2 ^ 8 - 1)
  | .int => (-2 ^ 15, 2 ^ 15 - 1)
  | .uint => (0, 2 ^ 16 - 1)
  | .dint => (-2 ^ 31, 2 ^ 31 - 1)
  | .udint => (0, 2 ^ 32 - 1)
  | .lint => (-2 ^ 63, 2 ^ 63 - 1)
  | .ulint => (0, 2 ^ 64 - 1)
  | .bool | .real | .lreal => (0, 0)

/-- The integer value of a type, for an integer in its range. -/
def makeInt (ty : EipType) (v : ℤ) : Option CipValue :=
  if v < (intBounds ty).1 ∨ (intBounds ty).2 < v then none
  else
    match ty with
    | .sint => some (.sint (Int8.ofInt v))
    | .usint => some (.usint (UInt8.ofNat v.toNat))
    | .int => some (.int (Int16.ofInt v))
    | .uint => some (.uint (UInt16.ofNat v.toNat))
    | .dint => some (.dint (Int32.ofInt v))
    | .udint => some (.udint (UInt32.ofNat v.toNat))
    | .lint => some (.lint (Int64.ofInt v))
    | .ulint => some (.ulint (UInt64.ofNat v.toNat))
    | .bool | .real | .lreal => none

/-- An integer of a type, refused outside its range and never clamped. -/
def encodeInt (ty : EipType) (v : ℤ) (named : WriteNumber) : Except WriteError CipValue :=
  if v < (intBounds ty).1 ∨ (intBounds ty).2 < v then .error (.outOfRange ty named)
  else
    match makeInt ty v with
    | some value => .ok value
    | none => .error (.nonInteger ty)

/-- The path of an integer literal without a transform. -/
def encodeExactInt (ty : EipType) (v : ℤ) : Except WriteError CipValue :=
  encodeInt ty v (.int v)

/-- The path through floating point: undo the transform, then fit the type. -/
def encodeFloat (value : Json) (ty : EipType) (scale offset : Option F64) :
    Except WriteError CipValue :=
  match value.asF64 with
  | none => .error .expectedNumber
  | some n =>
    let scaled := scale.isSome || offset.isSome
    let device :=
      if scaled then (n.sub (offset.getD (F64.zero false))).div (scale.getD (F64.ofInt 1)) else n
    if device.isFinite = false then .error .nonFinite
    else
      match ty with
      | .real =>
        if device.toRat < -F64.maxF32 ∨ F64.maxF32 < device.toRat then
          .error (.outOfRange ty (.float device))
        else .ok (.real device.toF32)
      | .lreal => .ok (.lreal device)
      | _ =>
        if scaled = false ∧ device.hasFraction = true then .error (.nonInteger ty)
        else encodeInt ty device.roundToInt (.float device)

def encodeScalar (value : Json) (ty : EipType) (scale offset : Option F64) :
    Except WriteError CipValue :=
  if ty = .bool then
    match value.asBool with
    | some b => .ok (.bool b)
    | none => .error .expectedBool
  else if isIntegerType ty then
    match jsonExactInt value with
    | some exact =>
      if isIdentityTransform scale offset then encodeExactInt ty exact
      else if exact < -exactF64IntLimit ∨ exactF64IntLimit < exact then
        .error (.inexactUnderTransform ty (.int exact))
      else encodeFloat value ty scale offset
    | none => encodeFloat value ty scale offset
  else encodeFloat value ty scale offset

/-- The elements of an array, in order; the first that fails is the error. -/
def encodeElements (ty : EipType) (scale offset : Option F64) :
    List Json → Except WriteError (List CipValue)
  | [] => .ok []
  | e :: es => do
    let first ← encodeScalar e ty scale offset
    let rest ← encodeElements ty scale offset es
    pure (first :: rest)

/-- Coerce a write value to its type; an array count asks for exactly that many elements. -/
def encodeWrite (value : Json) (ty : EipType) (scale offset : Option F64)
    (arrayCount : Option UInt32) : Except WriteError CipValue :=
  match arrayCount with
  | none => encodeScalar value ty scale offset
  | some n =>
    match value.asArray with
    | none => .error .expectedArray
    | some elems =>
      if elems.length ≠ n.toNat then .error (.wrongArrayLen n.toNat elems.length)
      else do
        let values ← encodeElements ty scale offset elems
        pure (.array ty.cipType values)

end EnipAdapter.Model
