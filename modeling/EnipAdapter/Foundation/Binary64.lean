import Mathlib.Data.Rat.Floor

/-!
# IEEE 754 binary formats, exactly

`F64` and `F32` are bit patterns. A finite pattern denotes a rational number, and the
arithmetic a program performs on it is exact rational arithmetic followed by one rounding
to the nearest representable value, ties to even. Nothing here depends on the host's
floating point unit, so every operation evaluates in the kernel.
-/

set_option autoImplicit false

namespace EnipAdapter.Foundation

/-! ## Formats and rounding -/

/-- A binary interchange format: the width of the stored fraction and of the exponent. -/
structure BinaryFormat where
  fractionBits : ℕ
  exponentBits : ℕ

namespace BinaryFormat

def binary64 : BinaryFormat := ⟨52, 11⟩

def binary32 : BinaryFormat := ⟨23, 8⟩

/-- The exponent of the smallest normal number. -/
def minExponent (f : BinaryFormat) : ℤ := 2 - 2 ^ (f.exponentBits - 1)

/-- The magnitude bits of an infinity; every larger magnitude is a NaN. -/
def infinityBits (f : BinaryFormat) : ℕ := (2 ^ f.exponentBits - 1) * 2 ^ f.fractionBits

/-- The position of the sign bit. -/
def signBit (f : BinaryFormat) : ℕ := 2 ^ (f.fractionBits + f.exponentBits)

/-- The rational number that magnitude bits below `infinityBits` denote. -/
def magnitude (f : BinaryFormat) (bits : ℕ) : ℚ :=
  let exponent := bits / 2 ^ f.fractionBits
  let fraction := bits % 2 ^ f.fractionBits
  if exponent = 0 then fraction * 2 ^ (f.minExponent - f.fractionBits)
  else (2 ^ f.fractionBits + fraction : ℕ) * 2 ^ (f.minExponent - f.fractionBits + (exponent - 1))

/-- No bit pattern stands for a negative magnitude. -/
theorem magnitude_nonneg (f : BinaryFormat) (bits : ℕ) : 0 ≤ f.magnitude bits := by
  have hpower (e : ℤ) : (0 : ℚ) ≤ 2 ^ e := zpow_nonneg (by norm_num) e
  unfold magnitude
  simp only
  split
  · exact mul_nonneg (Nat.cast_nonneg _) (hpower _)
  · exact mul_nonneg (Nat.cast_nonneg _) (hpower _)

/-- The integer nearest to `q`, ties to even. -/
def roundTiesEven (q : ℚ) : ℤ :=
  let below := ⌊q⌋
  let rest := q - below
  if rest < 1 / 2 then below
  else if 1 / 2 < rest then below + 1
  else if below % 2 = 0 then below else below + 1

/-- The exponent `e` with `2 ^ e ≤ q < 2 ^ (e + 1)`, for a positive `q`. -/
def binaryExponent (q : ℚ) : ℤ :=
  let guess : ℤ := (Nat.log2 q.num.natAbs : ℤ) - (Nat.log2 q.den : ℤ)
  if q < 2 ^ guess then guess - 1 else guess

/-- The magnitude bits nearest to a non-negative rational, ties to even, overflowing to
infinity. The significand keeps its leading one, so a carry out of the fraction lands in
the exponent by itself. -/
def roundMagnitude (f : BinaryFormat) (q : ℚ) : ℕ :=
  if q ≤ 0 then 0
  else
    let exponent := max (binaryExponent q) f.minExponent
    let significand := roundTiesEven (q / 2 ^ (exponent - f.fractionBits))
    let bits := (exponent - f.minExponent).toNat * 2 ^ f.fractionBits + significand.toNat
    min bits f.infinityBits

end BinaryFormat

/-! ## The two formats in use -/

/-- A `f64`, by its bit pattern. -/
structure F64 where
  bits : UInt64
deriving DecidableEq, Repr

/-- A `f32`, by its bit pattern. -/
structure F32 where
  bits : UInt32
deriving DecidableEq, Repr

namespace F64

open BinaryFormat

/-- Whether the sign bit is set. -/
def isNegative (x : F64) : Bool := decide (binary64.signBit ≤ x.bits.toNat)

def magnitudeBits (x : F64) : ℕ := x.bits.toNat % binary64.signBit

def isFinite (x : F64) : Bool := decide (x.magnitudeBits < binary64.infinityBits)

def isNaN (x : F64) : Bool := decide (binary64.infinityBits < x.magnitudeBits)

/-- A pattern from a sign and a magnitude. -/
def mk' (negative : Bool) (magnitude : ℕ) : F64 :=
  ⟨UInt64.ofNat (magnitude + if negative then binary64.signBit else 0)⟩

def nan : F64 := mk' false (binary64.infinityBits + 2 ^ 51)

def infinity (negative : Bool) : F64 := mk' negative binary64.infinityBits

def zero (negative : Bool) : F64 := mk' negative 0

/-- The number a finite pattern denotes. -/
def toRat (x : F64) : ℚ :=
  if x.isNegative then -binary64.magnitude x.magnitudeBits
  else binary64.magnitude x.magnitudeBits

/-- The nearest `f64` to a rational; an exact zero takes the sign `zeroSign`. -/
def ofRat (zeroSign : Bool) (q : ℚ) : F64 :=
  if q = 0 then zero zeroSign
  else mk' (decide (q < 0)) (binary64.roundMagnitude |q|)

/-- An integer converted with `as f64`. -/
def ofInt (n : ℤ) : F64 := ofRat false n

def sub (x y : F64) : F64 :=
  if x.isNaN || y.isNaN then nan
  else if x.isFinite then
    if y.isFinite then ofRat (x.isNegative && !y.isNegative) (x.toRat - y.toRat)
    else infinity (!y.isNegative)
  else if y.isFinite then x
  else if x.isNegative = y.isNegative then nan else x

def add (x y : F64) : F64 :=
  if x.isNaN || y.isNaN then nan
  else if x.isFinite then
    if y.isFinite then ofRat (x.isNegative && y.isNegative) (x.toRat + y.toRat) else y
  else if y.isFinite then x
  else if x.isNegative = y.isNegative then x else nan

def div (x y : F64) : F64 :=
  let negative := x.isNegative != y.isNegative
  if x.isNaN || y.isNaN then nan
  else if x.isFinite then
    if y.isFinite then
      if y.magnitudeBits = 0 then
        if x.magnitudeBits = 0 then nan else infinity negative
      else if x.magnitudeBits = 0 then zero negative
      else mk' negative (binary64.roundMagnitude |x.toRat / y.toRat|)
    else zero negative
  else if y.isFinite then infinity negative
  else nan

def mul (x y : F64) : F64 :=
  let negative := x.isNegative != y.isNegative
  if x.isNaN || y.isNaN then nan
  else if x.isFinite && y.isFinite then
    if x.magnitudeBits = 0 ∨ y.magnitudeBits = 0 then zero negative
    else mk' negative (binary64.roundMagnitude |x.toRat * y.toRat|)
  else if x.magnitudeBits = 0 ∨ y.magnitudeBits = 0 then nan
  else infinity negative

/-- `f64::abs`: the pattern with its sign bit cleared. -/
def abs (x : F64) : F64 := mk' false x.magnitudeBits

/-- `x >= y`; a NaN is above nothing. -/
def ge (x y : F64) : Bool :=
  if x.isNaN || y.isNaN then false
  else if x.isFinite then
    if y.isFinite then decide (y.toRat ≤ x.toRat) else y.isNegative
  else if x.isNegative then !y.isFinite && y.isNegative
  else true

/-- `x == y` on patterns that are not NaN. -/
def eqv (x y : F64) : Bool :=
  !x.isNaN && !y.isNaN &&
    (decide (x = y) || decide (x.magnitudeBits = 0 ∧ y.magnitudeBits = 0))

/-- `x.clamp(0.0, 1.0)`; a NaN stays one. -/
def clampUnit (x : F64) : F64 :=
  if x.isNaN then x
  else if !x.ge (zero false) then zero false
  else if !(ofInt 1).ge x then ofInt 1
  else x

/-- `x as u64`: toward zero, saturating, a NaN is zero. -/
def toU64 (x : F64) : ℕ :=
  if x.isNaN || x.isNegative then 0
  else if x.isFinite then min ⌊x.toRat⌋.toNat (2 ^ 64 - 1)
  else 2 ^ 64 - 1

/-- `f64::fract` is non-zero, for a finite value. -/
def hasFraction (x : F64) : Bool := decide (x.toRat ≠ ⌊x.toRat⌋)

/-- `f64::round` of a finite value as an integer: nearest, ties away from zero. -/
def roundToInt (x : F64) : ℤ :=
  if x.isNegative then -⌊|x.toRat| + 1 / 2⌋ else ⌊|x.toRat| + 1 / 2⌋

def toF32 (x : F64) : F32 :=
  let sign := if x.isNegative then binary32.signBit else 0
  let magnitude :=
    if x.isNaN then binary32.infinityBits + 2 ^ 22
    else if x.isFinite then binary32.roundMagnitude |x.toRat|
    else binary32.infinityBits
  ⟨UInt32.ofNat (sign + magnitude)⟩

/-- The largest finite `f32`, as a rational. -/
def maxF32 : ℚ := binary32.magnitude (binary32.infinityBits - 1)

/-! ### Integers among the floats -/

/-- A value has no fraction exactly when it is an integer. -/
theorem hasFraction_eq_false_iff (x : F64) : x.hasFraction = false ↔ ∃ k : ℤ, x.toRat = k := by
  unfold hasFraction
  rw [decide_eq_false_iff_not, not_not]
  constructor
  · intro h
    exact ⟨_, h⟩
  · rintro ⟨k, hk⟩
    rw [hk, Int.floor_intCast]

/-- A float that is an integer rounds to it, on either side of zero. -/
theorem roundToInt_of_toRat {x : F64} {k : ℤ} (h : x.toRat = k) : x.roundToInt = k := by
  have hmag := magnitude_nonneg binary64 x.magnitudeBits
  have hhalf (n : ℤ) : ⌊(n : ℚ) + 1 / 2⌋ = n := by
    rw [Int.floor_intCast_add]
    norm_num
  unfold roundToInt
  unfold toRat at h
  cases hsign : x.isNegative with
  | true =>
    simp only [hsign, if_true] at h ⊢
    have habs : |x.toRat| = ((-k : ℤ) : ℚ) := by
      unfold toRat
      simp only [hsign, if_true]
      rw [abs_neg, abs_of_nonneg hmag, Int.cast_neg, ← h, neg_neg]
    rw [habs, hhalf, neg_neg]
  | false =>
    simp only [hsign, Bool.false_eq_true, if_false] at h ⊢
    have habs : |x.toRat| = (k : ℚ) := by
      unfold toRat
      simp only [hsign, Bool.false_eq_true, if_false]
      rw [abs_of_nonneg hmag, h]
    rw [habs, hhalf]

end F64

namespace F32

open BinaryFormat

def isNegative (x : F32) : Bool := decide (binary32.signBit ≤ x.bits.toNat)

def magnitudeBits (x : F32) : ℕ := x.bits.toNat % binary32.signBit

def isFinite (x : F32) : Bool := decide (x.magnitudeBits < binary32.infinityBits)

/-- `f64::from`: exact, since every `f32` is an `f64`. -/
def toF64 (x : F32) : F64 :=
  if x.isFinite then
    F64.mk' x.isNegative (binary64.roundMagnitude (binary32.magnitude x.magnitudeBits))
  else if x.magnitudeBits = binary32.infinityBits then F64.infinity x.isNegative
  else F64.nan

end F32

end EnipAdapter.Foundation
