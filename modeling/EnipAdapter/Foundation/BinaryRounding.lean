import EnipAdapter.Foundation.Binary64

/-!
# What rounding keeps

A magnitude that a format represents is rounded to its own bits, so no two of them denote the
same number, subtracting zero and dividing by one change nothing, and two floats compare equal
exactly where they denote the same number. Every integer up to `2 ^ 53` is a float.
-/

set_option autoImplicit false

namespace EnipAdapter.Foundation

namespace BinaryFormat

/-! ## The exponent -/

/-- The exponent of a positive number brackets it between two powers of two. -/
theorem binaryExponent_spec {q : ℚ} (hq : 0 < q) :
    (2 : ℚ) ^ binaryExponent q ≤ q ∧ q < 2 ^ (binaryExponent q + 1) := by
  have htwo : (2 : ℚ) ≠ 0 := two_ne_zero
  have hnum : q.num.natAbs ≠ 0 := Int.natAbs_ne_zero.mpr (Rat.num_pos.mpr hq).ne'
  have hdiv : q = (q.num.natAbs : ℚ) / (q.den : ℚ) := by
    rw [← Int.cast_natCast, Int.natAbs_of_nonneg (Rat.num_pos.mpr hq).le, Rat.num_div_den]
  have hden : (0 : ℚ) < q.den := Nat.cast_pos.mpr q.den_pos
  have hnumLow : (2 : ℚ) ^ Nat.log2 q.num.natAbs ≤ q.num.natAbs := by
    exact_mod_cast Nat.log2_self_le hnum
  have hnumHigh : (q.num.natAbs : ℚ) < 2 ^ (Nat.log2 q.num.natAbs + 1) := by
    exact_mod_cast Nat.lt_log2_self
  have hdenLow : (2 : ℚ) ^ Nat.log2 q.den ≤ q.den := by
    exact_mod_cast Nat.log2_self_le q.den_ne_zero
  have hdenHigh : (q.den : ℚ) < 2 ^ (Nat.log2 q.den + 1) := by
    exact_mod_cast Nat.lt_log2_self
  have hbelow : (2 : ℚ) ^ ((Nat.log2 q.num.natAbs : ℤ) - Nat.log2 q.den - 1) ≤ q := by
    rw [sub_sub, zpow_sub₀ htwo]
    conv_rhs => rw [hdiv]
    exact div_le_div₀ (Nat.cast_nonneg _) (by exact_mod_cast hnumLow) hden
      (by exact_mod_cast hdenHigh.le)
  have habove : q < (2 : ℚ) ^ ((Nat.log2 q.num.natAbs : ℤ) - Nat.log2 q.den + 1) := by
    rw [sub_add_eq_add_sub, zpow_sub₀ htwo]
    conv_lhs => rw [hdiv]
    exact div_lt_div₀ (by exact_mod_cast hnumHigh) (by exact_mod_cast hdenLow)
      (zpow_nonneg two_pos.le _) (zpow_pos two_pos _)
  unfold binaryExponent
  simp only
  by_cases hguess : q < 2 ^ ((Nat.log2 q.num.natAbs : ℤ) - Nat.log2 q.den)
  · rw [if_pos hguess]
    refine ⟨hbelow, ?_⟩
    rwa [sub_add_cancel]
  · rw [if_neg hguess]
    exact ⟨not_lt.mp hguess, habove⟩

/-- There is one such exponent. -/
theorem binaryExponent_eq {q : ℚ} {e : ℤ} (hlow : (2 : ℚ) ^ e ≤ q) (hhigh : q < 2 ^ (e + 1)) :
    binaryExponent q = e := by
  obtain ⟨hbelow, habove⟩ := binaryExponent_spec ((zpow_pos two_pos e).trans_le hlow)
  have hle := (zpow_lt_zpow_iff_right₀ one_lt_two).mp (hlow.trans_lt habove)
  have hge := (zpow_lt_zpow_iff_right₀ one_lt_two).mp (hbelow.trans_lt hhigh)
  omega

/-- The exponent of a number below a power of two is below it. -/
theorem binaryExponent_lt {q : ℚ} (hq : 0 < q) {e : ℤ} (h : q < 2 ^ e) : binaryExponent q < e :=
  (zpow_lt_zpow_iff_right₀ one_lt_two).mp ((binaryExponent_spec hq).1.trans_lt h)

/-- Rounding leaves an integer alone. -/
theorem roundTiesEven_intCast (n : ℤ) : roundTiesEven n = n := by
  unfold roundTiesEven
  simp only [Int.floor_intCast, sub_self]
  rw [if_pos (by norm_num)]

/-! ## Significands -/

/-- A significand and how far it is shifted: only the lowest binade has significands without a
leading one. -/
structure Canonical (f : BinaryFormat) (shift significand : ℕ) : Prop where
  fits : significand < 2 ^ (f.fractionBits + 1)
  leading : shift = 0 ∨ 2 ^ f.fractionBits ≤ significand

/-- Magnitude bits are a shift and a significand. -/
theorem exists_canonical (f : BinaryFormat) (bits : ℕ) :
    ∃ shift significand, f.Canonical shift significand ∧
      bits = shift * 2 ^ f.fractionBits + significand := by
  have hpow : 0 < 2 ^ f.fractionBits := Nat.two_pow_pos _
  have hsplit := Nat.div_add_mod' bits (2 ^ f.fractionBits)
  have hmod := Nat.mod_lt bits hpow
  have hdouble : 2 ^ (f.fractionBits + 1) = 2 * 2 ^ f.fractionBits := Nat.pow_succ'
  cases hexponent : bits / 2 ^ f.fractionBits with
  | zero =>
    rw [hexponent, Nat.zero_mul, Nat.zero_add] at hsplit
    exact ⟨0, bits, ⟨by omega, .inl rfl⟩, by omega⟩
  | succ shift =>
    rw [hexponent, Nat.succ_mul] at hsplit
    exact ⟨shift, 2 ^ f.fractionBits + bits % 2 ^ f.fractionBits,
      ⟨by omega, .inr (Nat.le_add_right _ _)⟩, by omega⟩

/-- What a shift and a significand denote. -/
theorem magnitude_canonical {f : BinaryFormat} {shift significand : ℕ}
    (h : f.Canonical shift significand) :
    f.magnitude (shift * 2 ^ f.fractionBits + significand) =
      significand * 2 ^ (f.minExponent - f.fractionBits + shift) := by
  have hpow : 0 < 2 ^ f.fractionBits := Nat.two_pow_pos _
  have hdouble : 2 ^ (f.fractionBits + 1) = 2 * 2 ^ f.fractionBits := Nat.pow_succ'
  have hfits := h.fits
  unfold magnitude
  by_cases hlead : 2 ^ f.fractionBits ≤ significand
  · have hbits : shift * 2 ^ f.fractionBits + significand =
        (significand - 2 ^ f.fractionBits) + (shift + 1) * 2 ^ f.fractionBits := by
      rw [Nat.succ_mul]
      omega
    have hrest : significand - 2 ^ f.fractionBits < 2 ^ f.fractionBits := by omega
    rw [hbits, Nat.add_mul_div_right _ _ hpow, Nat.add_mul_mod_self_right, Nat.mod_eq_of_lt hrest,
      Nat.div_eq_of_lt hrest, Nat.zero_add]
    simp only
    rw [if_neg (Nat.succ_ne_zero shift), Nat.add_sub_cancel' hlead]
    push_cast
    rw [add_sub_cancel_right]
  · have hshift := h.leading.resolve_right hlead
    subst hshift
    rw [Nat.zero_mul, Nat.zero_add, Nat.div_eq_of_lt (Nat.not_le.mp hlead),
      Nat.mod_eq_of_lt (Nat.not_le.mp hlead)]
    simp only [if_true]
    rw [Nat.cast_zero, add_zero]

/-- What a shift and a significand denote is rounded to them, unless it overflows. -/
theorem roundMagnitude_canonical {f : BinaryFormat} {shift significand : ℕ}
    (h : f.Canonical shift significand) (hpos : 0 < significand) :
    f.roundMagnitude (significand * 2 ^ (f.minExponent - f.fractionBits + shift)) =
      min (shift * 2 ^ f.fractionBits + significand) f.infinityBits := by
  have htwo : (2 : ℚ) ≠ 0 := two_ne_zero
  have hunit : (0 : ℚ) < 2 ^ (f.minExponent - f.fractionBits + shift) := zpow_pos two_pos _
  have hq : (0 : ℚ) < significand * 2 ^ (f.minExponent - f.fractionBits + shift) :=
    mul_pos (Nat.cast_pos.mpr hpos) hunit
  have hbelow : (significand : ℚ) * 2 ^ (f.minExponent - f.fractionBits + shift) <
      2 ^ (f.minExponent + shift + 1) := by
    have hsplit : (2 : ℚ) ^ (f.minExponent + shift + 1) =
        2 ^ (f.fractionBits + 1) * 2 ^ (f.minExponent - f.fractionBits + shift) := by
      rw [← zpow_natCast, ← zpow_add₀ htwo]
      push_cast
      ring_nf
    rw [hsplit]
    exact mul_lt_mul_of_pos_right (by exact_mod_cast h.fits) hunit
  have hexponent : max (binaryExponent
      (significand * 2 ^ (f.minExponent - f.fractionBits + shift))) f.minExponent =
        f.minExponent + shift := by
    cases h.leading with
    | inl hzero =>
      have hlt := binaryExponent_lt hq hbelow
      rw [hzero] at hlt ⊢
      push_cast at hlt ⊢
      omega
    | inr hlead =>
      have habove : (2 : ℚ) ^ (f.minExponent + shift) ≤
          significand * 2 ^ (f.minExponent - f.fractionBits + shift) := by
        have hsplit : (2 : ℚ) ^ (f.minExponent + shift) =
            2 ^ f.fractionBits * 2 ^ (f.minExponent - f.fractionBits + shift) := by
          rw [← zpow_natCast, ← zpow_add₀ htwo]
          ring_nf
        rw [hsplit]
        exact mul_le_mul_of_nonneg_right (by exact_mod_cast hlead) hunit.le
      rw [binaryExponent_eq habove hbelow]
      omega
  unfold roundMagnitude
  rw [if_neg (not_le.mpr hq)]
  simp only
  rw [hexponent, show f.minExponent + (shift : ℤ) - f.fractionBits =
    f.minExponent - f.fractionBits + shift by ring, mul_div_cancel_right₀ _ hunit.ne',
    add_sub_cancel_left, Int.toNat_natCast]
  have hround := roundTiesEven_intCast significand
  rw [Int.cast_natCast] at hround
  rw [hround, Int.toNat_natCast]

/-- A magnitude that is represented is rounded to its own bits. -/
theorem roundMagnitude_magnitude (f : BinaryFormat) {bits : ℕ} (h : bits ≤ f.infinityBits) :
    f.roundMagnitude (f.magnitude bits) = bits := by
  obtain ⟨shift, significand, hcanonical, rfl⟩ := f.exists_canonical bits
  rw [magnitude_canonical hcanonical]
  rcases Nat.eq_zero_or_pos significand with rfl | hpos
  · have hshift : shift = 0 := by
      have hpow : 0 < 2 ^ f.fractionBits := Nat.two_pow_pos _
      cases hcanonical.leading with
      | inl hzero => exact hzero
      | inr hlead => omega
    rw [hshift, Nat.cast_zero, zero_mul, Nat.zero_mul]
    exact if_pos le_rfl
  · rw [roundMagnitude_canonical hcanonical hpos, Nat.min_eq_left h]

/-- Two magnitudes are the same number only when they are the same bits. -/
theorem magnitude_inj (f : BinaryFormat) {a b : ℕ} (ha : a ≤ f.infinityBits)
    (hb : b ≤ f.infinityBits) (h : f.magnitude a = f.magnitude b) : a = b := by
  rw [← f.roundMagnitude_magnitude ha, h, f.roundMagnitude_magnitude hb]

/-- The pattern of zeros is the number zero. -/
theorem magnitude_zero (f : BinaryFormat) : f.magnitude 0 = 0 := by
  have hcanonical : f.Canonical 0 0 := ⟨Nat.two_pow_pos _, .inl rfl⟩
  have h := magnitude_canonical hcanonical
  rwa [Nat.zero_mul, Nat.zero_add, Nat.cast_zero, zero_mul] at h

/-- No other pattern up to the infinity is zero. -/
theorem magnitude_eq_zero_iff (f : BinaryFormat) {bits : ℕ} (h : bits ≤ f.infinityBits) :
    f.magnitude bits = 0 ↔ bits = 0 := by
  constructor
  · intro hzero
    exact f.magnitude_inj h (Nat.zero_le _) (hzero.trans f.magnitude_zero.symm)
  · rintro rfl
    exact f.magnitude_zero

/-- Rounding goes up to the infinity and no further. -/
theorem roundMagnitude_le (f : BinaryFormat) (q : ℚ) : f.roundMagnitude q ≤ f.infinityBits := by
  unfold roundMagnitude
  split
  · exact Nat.zero_le _
  · exact Nat.min_le_right _ _

/-! ## Rounding keeps the order -/

/-- Rounding to an integer does not go below the floor. -/
theorem floor_le_roundTiesEven (q : ℚ) : ⌊q⌋ ≤ roundTiesEven q := by
  unfold roundTiesEven
  simp only
  split_ifs <;> omega

/-- Rounding to an integer goes at most one above the floor. -/
theorem roundTiesEven_le_floor_succ (q : ℚ) : roundTiesEven q ≤ ⌊q⌋ + 1 := by
  unfold roundTiesEven
  simp only
  split_ifs <;> omega

/-- Rounding to an integer keeps the order. -/
theorem roundTiesEven_mono {p q : ℚ} (h : p ≤ q) : roundTiesEven p ≤ roundTiesEven q := by
  rcases (Int.floor_le_floor h).lt_or_eq with hlt | hsame
  · calc roundTiesEven p ≤ ⌊p⌋ + 1 := roundTiesEven_le_floor_succ p
      _ ≤ ⌊q⌋ := hlt
      _ ≤ roundTiesEven q := floor_le_roundTiesEven q
  · have hrest : p - ⌊p⌋ ≤ q - ⌊q⌋ := by
      rw [hsame]
      exact sub_le_sub_right h _
    unfold roundTiesEven
    simp only
    rw [hsame] at hrest ⊢
    split_ifs <;> first | omega | linarith

/-- The binary exponent grows with the value. -/
theorem binaryExponent_mono {p q : ℚ} (hp : 0 < p) (h : p ≤ q) :
    binaryExponent p ≤ binaryExponent q := by
  have hlt := (binaryExponent_spec hp).1.trans_lt
    (h.trans_lt (binaryExponent_spec (hp.trans_le h)).2)
  have hbelow := (zpow_lt_zpow_iff_right₀ one_lt_two).mp hlt
  omega

/-- The significand of a number below the top of its binade. -/
theorem roundTiesEven_le_of_lt (f : BinaryFormat) {q : ℚ} {e : ℤ} (h : q < 2 ^ (e + 1)) :
    roundTiesEven (q / 2 ^ (e - f.fractionBits)) ≤ 2 ^ (f.fractionBits + 1) := by
  have hle : q / 2 ^ (e - f.fractionBits) ≤ ((2 ^ (f.fractionBits + 1) : ℤ) : ℚ) := by
    rw [div_le_iff₀ (zpow_pos two_pos _)]
    push_cast
    rw [← zpow_natCast, ← zpow_add₀ two_ne_zero]
    have hsum : ((f.fractionBits + 1 : ℕ) : ℤ) + (e - f.fractionBits) = e + 1 := by
      push_cast
      ring
    rw [hsum]
    exact h.le
  have hmono := roundTiesEven_mono hle
  rwa [roundTiesEven_intCast] at hmono

/-- The significand of a number above the foot of its binade. -/
theorem le_roundTiesEven_of_le (f : BinaryFormat) {q : ℚ} {e : ℤ} (h : 2 ^ e ≤ q) :
    2 ^ f.fractionBits ≤ roundTiesEven (q / 2 ^ (e - f.fractionBits)) := by
  have hle : ((2 ^ f.fractionBits : ℤ) : ℚ) ≤ q / 2 ^ (e - f.fractionBits) := by
    rw [le_div_iff₀ (zpow_pos two_pos _)]
    push_cast
    rw [← zpow_natCast, ← zpow_add₀ two_ne_zero, add_sub_cancel]
    exact h
  have hmono := roundTiesEven_mono hle
  rwa [roundTiesEven_intCast] at hmono

/-- Rounding to the format keeps the order. -/
theorem roundMagnitude_mono (f : BinaryFormat) {p q : ℚ} (h : p ≤ q) :
    f.roundMagnitude p ≤ f.roundMagnitude q := by
  by_cases hp : p ≤ 0
  · have hzero : f.roundMagnitude p = 0 := if_pos hp
    rw [hzero]
    exact Nat.zero_le _
  · have hpos : 0 < p := not_le.mp hp
    have hexponents := binaryExponent_mono hpos h
    unfold roundMagnitude
    rw [if_neg hp, if_neg (not_le.mpr (hpos.trans_le h))]
    apply min_le_min_right
    rcases (max_le_max_right f.minExponent hexponents).lt_or_eq with hlt | hsame
    · have habove : q ≥ 2 ^ max (binaryExponent q) f.minExponent := by
        rw [max_eq_left (by omega)]
        exact (binaryExponent_spec (hpos.trans_le h)).1
      have hbelow : p < 2 ^ (max (binaryExponent p) f.minExponent + 1) :=
        (binaryExponent_spec hpos).2.trans_le
          (zpow_le_zpow_right₀ one_le_two (Int.add_le_add_right (le_max_left _ _) 1))
      have hlow := roundTiesEven_le_of_lt f hbelow
      have hhigh := le_roundTiesEven_of_le f habove
      have hshift : (max (binaryExponent p) f.minExponent - f.minExponent).toNat + 1 ≤
          (max (binaryExponent q) f.minExponent - f.minExponent).toNat := by omega
      have hscaled := Nat.mul_le_mul_right (2 ^ f.fractionBits) hshift
      have hdouble : (2 : ℤ) ^ (f.fractionBits + 1) = 2 * 2 ^ f.fractionBits := pow_succ' _ _
      have hcast : ((2 ^ f.fractionBits : ℕ) : ℤ) = 2 ^ f.fractionBits := by
        push_cast
        rfl
      have hpow : (0 : ℤ) < 2 ^ f.fractionBits := pow_pos two_pos _
      rw [Nat.add_mul, Nat.one_mul] at hscaled
      omega
    · rw [hsame]
      apply Nat.add_le_add_left
      apply Int.toNat_le_toNat
      apply roundTiesEven_mono
      exact div_le_div_of_nonneg_right h (zpow_nonneg two_pos.le _)

/-- A larger pattern is a larger magnitude. -/
theorem magnitude_mono (f : BinaryFormat) : Monotone f.magnitude := by
  apply monotone_nat_of_le_succ
  intro bits
  obtain ⟨shift, significand, hcanonical, rfl⟩ := f.exists_canonical bits
  have hfits := hcanonical.fits
  have hdouble : 2 ^ (f.fractionBits + 1) = 2 * 2 ^ f.fractionBits := Nat.pow_succ'
  rw [magnitude_canonical hcanonical, Nat.add_assoc]
  by_cases hcarry : significand + 1 < 2 ^ (f.fractionBits + 1)
  · have hnext : f.Canonical shift (significand + 1) :=
      ⟨hcarry, hcanonical.leading.imp id fun hlead => hlead.trans (Nat.le_succ _)⟩
    rw [magnitude_canonical hnext]
    exact mul_le_mul_of_nonneg_right (by exact_mod_cast Nat.le_succ _) (zpow_nonneg two_pos.le _)
  · -- a carry out of the fraction: the foot of the next binade
    have hnext : f.Canonical (shift + 1) (2 ^ f.fractionBits) :=
      ⟨by have := Nat.two_pow_pos f.fractionBits; omega, .inr le_rfl⟩
    have hbits : shift * 2 ^ f.fractionBits + (significand + 1) =
        (shift + 1) * 2 ^ f.fractionBits + 2 ^ f.fractionBits := by
      rw [Nat.succ_mul]
      omega
    rw [hbits, magnitude_canonical hnext]
    have hsame : ((2 ^ f.fractionBits : ℕ) : ℚ) *
        2 ^ (f.minExponent - f.fractionBits + (shift + 1 : ℕ)) =
          ((2 ^ (f.fractionBits + 1) : ℕ) : ℚ) * 2 ^ (f.minExponent - f.fractionBits + shift) := by
      push_cast
      rw [← add_assoc, zpow_add_one₀ two_ne_zero, pow_succ]
      ring
    rw [hsame]
    exact mul_le_mul_of_nonneg_right (by exact_mod_cast hfits.le) (zpow_nonneg two_pos.le _)

end BinaryFormat

namespace F64

open BinaryFormat

/-! ## Patterns -/

/-- The bits of a value are a sign bit and what is below it. -/
theorem bits_lt (x : F64) : x.bits.toNat < 2 * binary64.signBit := x.bits.toNat_lt

/-- The infinity leaves the sign bit free. -/
theorem infinityBits_lt : binary64.infinityBits < binary64.signBit := by decide

/-- A pattern is its sign and its magnitude. -/
theorem mk'_eta (x : F64) : mk' x.isNegative x.magnitudeBits = x := by
  have hlt := x.bits_lt
  have hbits : x.magnitudeBits + (if x.isNegative then binary64.signBit else 0) =
      x.bits.toNat := by
    unfold magnitudeBits isNegative
    by_cases hsign : binary64.signBit ≤ x.bits.toNat
    · rw [decide_eq_true hsign, if_pos rfl, Nat.mod_eq_sub_mod hsign,
        Nat.mod_eq_of_lt (by omega), Nat.sub_add_cancel hsign]
    · rw [decide_eq_false hsign, Nat.mod_eq_of_lt (Nat.not_le.mp hsign)]
      rfl
  unfold mk'
  rw [hbits, UInt64.ofNat_toNat]

/-- A value is its magnitude, with the sign bit on top when it is negative. -/
theorem mk'_toNat {negative : Bool} {magnitude : ℕ} (h : magnitude < binary64.signBit) :
    (mk' negative magnitude).bits.toNat =
      magnitude + if negative then binary64.signBit else 0 := by
  apply UInt64.toNat_ofNat_of_lt'
  have hsign : binary64.signBit + binary64.signBit = 2 ^ 64 := by decide
  have hsize : UInt64.size = 2 ^ 64 := rfl
  split <;> omega

/-- The sign can be read back. -/
theorem isNegative_mk' {negative : Bool} {magnitude : ℕ} (h : magnitude < binary64.signBit) :
    (mk' negative magnitude).isNegative = negative := by
  unfold isNegative
  rw [mk'_toNat h]
  cases negative with
  | false => exact decide_eq_false (Nat.not_le.mpr h)
  | true => exact decide_eq_true (Nat.le_add_left _ _)

/-- The magnitude can be read back. -/
theorem magnitudeBits_mk' {negative : Bool} {magnitude : ℕ} (h : magnitude < binary64.signBit) :
    (mk' negative magnitude).magnitudeBits = magnitude := by
  unfold magnitudeBits
  rw [mk'_toNat h]
  cases negative with
  | false => exact Nat.mod_eq_of_lt h
  | true =>
    simp only [if_true]
    rw [Nat.add_mod_right, Nat.mod_eq_of_lt h]

/-- A value is a number when its magnitude is at most the infinity. -/
theorem isNaN_eq_false_iff (x : F64) :
    x.isNaN = false ↔ x.magnitudeBits ≤ binary64.infinityBits := by
  unfold isNaN
  rw [decide_eq_false_iff_not, Nat.not_lt]

/-- A finite value is a number. -/
theorem isNaN_of_isFinite {x : F64} (h : x.isFinite = true) : x.isNaN = false :=
  x.isNaN_eq_false_iff.mpr (of_decide_eq_true h).le

/-- What is neither finite nor a NaN is an infinity. -/
theorem infinity_of_not_isFinite {x : F64} (h : x.isNaN = false) (hinfinite : x.isFinite = false) :
    infinity x.isNegative = x := by
  have hle := x.isNaN_eq_false_iff.mp h
  have hge := of_decide_eq_false hinfinite
  have hbits : x.magnitudeBits = binary64.infinityBits := by omega
  unfold infinity
  rw [← hbits, mk'_eta]

/-! ## The number of a pattern -/

/-- The magnitude is the absolute value of the number. -/
theorem abs_toRat (x : F64) : |x.toRat| = binary64.magnitude x.magnitudeBits := by
  have hmag := magnitude_nonneg binary64 x.magnitudeBits
  unfold toRat
  split
  · rw [abs_neg, abs_of_nonneg hmag]
  · exact abs_of_nonneg hmag

/-- Among numbers, the zeros are the patterns without a magnitude. -/
theorem toRat_eq_zero_iff {x : F64} (h : x.isNaN = false) :
    x.toRat = 0 ↔ x.magnitudeBits = 0 := by
  rw [← abs_eq_zero, abs_toRat,
    magnitude_eq_zero_iff binary64 (x.isNaN_eq_false_iff.mp h)]

/-- The sign bit of a number other than zero is its sign. -/
theorem isNegative_iff_toRat {x : F64} (hzero : x.toRat ≠ 0) :
    x.isNegative = true ↔ x.toRat < 0 := by
  have hmag : 0 < binary64.magnitude x.magnitudeBits := by
    rw [← abs_toRat]
    exact abs_pos.mpr hzero
  unfold toRat
  cases x.isNegative with
  | true => simp [hmag]
  | false => simp [hmag.le]

/-- Two floats compare equal exactly where they denote the same number. -/
theorem eqv_iff_toRat {x y : F64} (hx : x.isNaN = false) (hy : y.isNaN = false) :
    x.eqv y = true ↔ x.toRat = y.toRat := by
  unfold eqv
  rw [hx, hy]
  simp only [Bool.not_false, Bool.and_true, Bool.true_and, Bool.or_eq_true, decide_eq_true_eq]
  constructor
  · rintro (rfl | ⟨hxzero, hyzero⟩)
    · rfl
    · rw [(toRat_eq_zero_iff hx).mpr hxzero, (toRat_eq_zero_iff hy).mpr hyzero]
  · intro hsame
    have hbits : x.magnitudeBits = y.magnitudeBits := by
      apply binary64.magnitude_inj (x.isNaN_eq_false_iff.mp hx) (y.isNaN_eq_false_iff.mp hy)
      rw [← abs_toRat, ← abs_toRat, hsame]
    by_cases hzero : x.toRat = 0
    · refine .inr ⟨(toRat_eq_zero_iff hx).mp hzero, (toRat_eq_zero_iff hy).mp ?_⟩
      rw [← hsame, hzero]
    · have hyzero : y.toRat ≠ 0 := hsame ▸ hzero
      have hsign : x.isNegative = y.isNegative := by
        rw [Bool.eq_iff_iff, isNegative_iff_toRat hzero, isNegative_iff_toRat hyzero, hsame]
      left
      rw [← x.mk'_eta, ← y.mk'_eta, hsign, hbits]

/-! ## Arithmetic that changes nothing -/

/-- The number of a float is rounded to that float; a zero keeps the sign it is given. -/
theorem ofRat_toRat {x : F64} (h : x.isNaN = false) : ofRat x.isNegative x.toRat = x := by
  unfold ofRat
  by_cases hzero : x.toRat = 0
  · rw [if_pos hzero]
    unfold zero
    rw [← (toRat_eq_zero_iff h).mp hzero, mk'_eta]
  · have hsign : decide (x.toRat < 0) = x.isNegative := by
      rw [Bool.eq_iff_iff, decide_eq_true_eq, isNegative_iff_toRat hzero]
    rw [if_neg hzero, hsign, abs_toRat,
      binary64.roundMagnitude_magnitude (x.isNaN_eq_false_iff.mp h), mk'_eta]

/-- Subtracting zero leaves a number as it is, a negative zero too. -/
theorem sub_positiveZero {x : F64} (h : x.isNaN = false) : x.sub (zero false) = x := by
  have hzeroNaN : (zero false).isNaN = false := by decide +kernel
  have hzeroFinite : (zero false).isFinite = true := by decide +kernel
  have hzeroSign : (zero false).isNegative = false := by decide +kernel
  have hzeroRat : (zero false).toRat = 0 :=
    (toRat_eq_zero_iff hzeroNaN).mpr (by decide +kernel)
  unfold sub
  rw [h, hzeroNaN, hzeroFinite, hzeroSign, hzeroRat]
  simp only [Bool.or_self, Bool.false_eq_true, if_false, if_true, Bool.not_false, Bool.and_true,
    sub_zero]
  split
  · exact ofRat_toRat h
  · rfl

/-- The number of a pattern that was made from a sign and a magnitude. -/
theorem toRat_mk' {negative : Bool} {magnitude : ℕ} (h : magnitude < binary64.signBit) :
    (mk' negative magnitude).toRat =
      if negative then -binary64.magnitude magnitude else binary64.magnitude magnitude := by
  unfold toRat
  rw [isNegative_mk' h, magnitudeBits_mk' h]

/-- Both zeros are the number zero. -/
theorem toRat_zero (negative : Bool) : (zero negative).toRat = 0 := by
  unfold zero
  rw [toRat_mk' (Nat.two_pow_pos _), binary64.magnitude_zero, neg_zero, ite_self]

/-- A natural number up to `2 ^ 53` is a float. -/
theorem magnitude_roundMagnitude_natCast {m : ℕ} (h : m ≤ 2 ^ 53) :
    binary64.magnitude (binary64.roundMagnitude m) = m := by
  have hcanonical (shift significand : ℕ) (hform : binary64.Canonical shift significand)
      (hpos : 0 < significand) (hshift : shift ≤ 2000)
      (hsame : (m : ℚ) = significand * 2 ^ (binary64.minExponent - binary64.fractionBits + shift)) :
      binary64.magnitude (binary64.roundMagnitude m) = m := by
    have hfits : significand < 2 ^ 53 := hform.fits
    have hinfinity : binary64.infinityBits = 2047 * 2 ^ 52 := by decide
    have hbound : shift * 2 ^ binary64.fractionBits + significand ≤ binary64.infinityBits := by
      rw [hinfinity]
      show shift * 2 ^ 52 + significand ≤ _
      omega
    rw [hsame, roundMagnitude_canonical hform hpos, Nat.min_eq_left hbound,
      magnitude_canonical hform]
  have hunit (shift : ℕ) : binary64.minExponent - binary64.fractionBits + shift =
      (shift : ℤ) - 1074 := by
    have hmin : binary64.minExponent = -1022 := by decide
    have hfraction : binary64.fractionBits = 52 := rfl
    rw [hmin, hfraction]
    push_cast
    ring
  rcases Nat.eq_zero_or_pos m with rfl | hpos
  · rw [Nat.cast_zero]
    have hround : binary64.roundMagnitude 0 = 0 := if_pos le_rfl
    rw [hround, binary64.magnitude_zero]
  · by_cases hlast : m = 2 ^ 53
    · subst hlast
      apply hcanonical 1075 (2 ^ 52) ⟨by decide, .inr (by decide)⟩ (by decide) (by decide)
      rw [hunit]
      norm_num
    · have hlow := Nat.log2_self_le hpos.ne'
      have hhigh := Nat.lt_log2_self (n := m)
      have hlog : m.log2 ≤ 52 := by
        have hlt := (Nat.log2_lt hpos.ne').mpr (lt_of_le_of_ne h hlast)
        omega
      have hone : 2 ^ m.log2 * 2 ^ (52 - m.log2) = 2 ^ 52 := by
        rw [← Nat.pow_add, Nat.add_sub_cancel' hlog]
      have hscale : 0 < 2 ^ (52 - m.log2) := Nat.two_pow_pos _
      apply hcanonical (m.log2 + 1022) (m * 2 ^ (52 - m.log2))
      · refine ⟨?_, .inr ?_⟩
        · show m * 2 ^ (52 - m.log2) < 2 ^ 53
          calc m * 2 ^ (52 - m.log2)
              < 2 ^ (m.log2 + 1) * 2 ^ (52 - m.log2) := Nat.mul_lt_mul_of_pos_right hhigh hscale
            _ = 2 ^ 53 := by
              rw [Nat.pow_succ', Nat.mul_assoc, hone]
              rfl
        · show 2 ^ 52 ≤ m * 2 ^ (52 - m.log2)
          rw [← hone]
          exact Nat.mul_le_mul_right _ hlow
      · exact Nat.mul_pos hpos hscale
      · omega
      · rw [hunit]
        push_cast
        rw [mul_assoc, ← zpow_natCast, ← zpow_add₀ two_ne_zero]
        have hcancel : ((52 - m.log2 : ℕ) : ℤ) + ((m.log2 : ℤ) + 1022 - 1074) = 0 := by omega
        rw [hcancel, zpow_zero, mul_one]

/-- An integer up to `2 ^ 53` in magnitude is a float. -/
theorem toRat_ofInt {n : ℤ} (h : n.natAbs ≤ 2 ^ 53) : (ofInt n).toRat = n := by
  unfold ofInt ofRat
  by_cases hzero : (n : ℚ) = 0
  · rw [if_pos hzero, toRat_zero, hzero]
  · have hmag := magnitude_roundMagnitude_natCast h
    have habs : |(n : ℚ)| = (n.natAbs : ℚ) := by
      rw [Nat.cast_natAbs, Int.cast_abs]
    have hlt := (binary64.roundMagnitude_le n.natAbs).trans_lt infinityBits_lt
    rw [if_neg hzero, habs, toRat_mk' hlt, hmag, ← habs]
    by_cases hneg : (n : ℚ) < 0
    · rw [decide_eq_true hneg, if_pos rfl, abs_of_neg hneg, neg_neg]
    · rw [decide_eq_false hneg, abs_of_nonneg (not_lt.mp hneg)]
      rfl

/-- An integer is never rounded to a NaN. -/
theorem isNaN_ofInt (n : ℤ) : (ofInt n).isNaN = false := by
  rw [isNaN_eq_false_iff]
  unfold ofInt ofRat
  split
  · unfold zero
    rw [magnitudeBits_mk' (Nat.two_pow_pos _)]
    exact Nat.zero_le _
  · rw [magnitudeBits_mk' ((binary64.roundMagnitude_le _).trans_lt infinityBits_lt)]
    exact binary64.roundMagnitude_le _

/-- Dividing by one leaves a number as it is. -/
theorem div_ofInt_one {x : F64} (h : x.isNaN = false) : x.div (ofInt 1) = x := by
  have hone : (ofInt 1).toRat = 1 := by
    rw [toRat_ofInt (by decide)]
    rfl
  have honeFinite : (ofInt 1).isFinite = true := by decide +kernel
  have honeSign : (ofInt 1).isNegative = false := by decide +kernel
  have honeBits : (ofInt 1).magnitudeBits ≠ 0 := by
    rw [ne_eq, ← toRat_eq_zero_iff (isNaN_ofInt 1), hone]
    exact one_ne_zero
  unfold div
  rw [h, isNaN_ofInt, honeFinite, honeSign, hone, Bool.bne_false]
  simp only [Bool.or_self, Bool.false_eq_true, if_false, if_true, honeBits, div_one]
  cases hfinite : x.isFinite with
  | false => exact infinity_of_not_isFinite h hfinite
  | true =>
    simp only [if_true]
    split
    · rename_i hzero
      unfold zero
      rw [← hzero, mk'_eta]
    · rw [abs_toRat, binary64.roundMagnitude_magnitude (x.isNaN_eq_false_iff.mp h), mk'_eta]

/-! ## A fraction of a float -/

/-- A float on the line and not below zero. -/
structure Weight (x : F64) : Prop where
  finite : x.isFinite = true
  sign : x.isNegative = false

/-- A weight is its magnitude. -/
theorem Weight.toRat {x : F64} (h : Weight x) : x.toRat = binary64.magnitude x.magnitudeBits := by
  unfold F64.toRat
  rw [h.sign]
  rfl

/-- A weight is cast to the integer below it, and to the maximum when that is too large. -/
theorem Weight.toU64 {x : F64} (h : Weight x) : x.toU64 = min ⌊x.toRat⌋.toNat (2 ^ 64 - 1) := by
  unfold F64.toU64
  rw [isNaN_of_isFinite h.finite, h.sign, h.finite]
  rfl

/-- Weights are in the order of their bits. -/
theorem Weight.toU64_mono {x y : F64} (hx : Weight x) (hy : Weight y)
    (h : x.magnitudeBits ≤ y.magnitudeBits) : x.toU64 ≤ y.toU64 := by
  rw [hx.toU64, hy.toU64, hx.toRat, hy.toRat]
  exact min_le_min_right _ (Int.toNat_le_toNat (Int.floor_le_floor (binary64.magnitude_mono h)))

/-- Every finite magnitude is a weight. -/
theorem weight_mk' {magnitude : ℕ} (h : magnitude < binary64.infinityBits) :
    Weight (mk' false magnitude) := by
  have hsign := h.trans infinityBits_lt
  refine ⟨?_, isNegative_mk' hsign⟩
  unfold isFinite
  rw [magnitudeBits_mk' hsign]
  exact decide_eq_true h

/-- A fraction of a weight, rounded, is a weight no larger. -/
theorem mul_le_of_fraction {x y : F64} (hx : Weight x) (hy : Weight y) (hone : x.toRat ≤ 1) :
    Weight (x.mul y) ∧ (x.mul y).magnitudeBits ≤ y.magnitudeBits := by
  have hfinite : y.magnitudeBits < binary64.infinityBits := of_decide_eq_true hy.finite
  have hnonneg : 0 ≤ x.toRat := hx.toRat ▸ magnitude_nonneg _ _
  have hround : binary64.roundMagnitude |x.toRat * y.toRat| ≤ y.magnitudeBits := by
    calc binary64.roundMagnitude |x.toRat * y.toRat|
        ≤ binary64.roundMagnitude |y.toRat| := by
          apply binary64.roundMagnitude_mono
          rw [abs_mul, abs_of_nonneg hnonneg]
          exact mul_le_of_le_one_left (abs_nonneg _) hone
      _ = y.magnitudeBits := by
          rw [abs_toRat, binary64.roundMagnitude_magnitude hfinite.le]
  unfold mul
  rw [isNaN_of_isFinite hx.finite, isNaN_of_isFinite hy.finite, hx.sign, hy.sign, hx.finite,
    hy.finite]
  simp only [Bool.or_self, Bool.false_eq_true, if_false, Bool.and_self, if_true, bne_self_eq_false]
  split
  · refine ⟨weight_mk' (by decide), ?_⟩
    unfold zero
    rw [magnitudeBits_mk' (Nat.two_pow_pos _)]
    exact Nat.zero_le _
  · refine ⟨weight_mk' (hround.trans_lt hfinite), ?_⟩
    rw [magnitudeBits_mk' ((hround.trans_lt hfinite).trans infinityBits_lt)]
    exact hround

/-- Every natural number of 64 bits is a weight. -/
theorem weight_ofInt {n : ℕ} (h : n ≤ 2 ^ 64) : Weight (ofInt n) := by
  have hcast : |((n : ℤ) : ℚ)| = n := by
    rw [Int.cast_natCast]
    exact abs_of_nonneg (Nat.cast_nonneg n)
  have hround : binary64.roundMagnitude |((n : ℤ) : ℚ)| < binary64.infinityBits := by
    calc binary64.roundMagnitude |((n : ℤ) : ℚ)|
        ≤ binary64.roundMagnitude (2 ^ 64) := by
          apply binary64.roundMagnitude_mono
          rw [hcast]
          exact_mod_cast h
      _ < binary64.infinityBits := by decide +kernel
  unfold ofInt ofRat
  split
  · exact weight_mk' (by decide)
  · have hsign : decide (((n : ℤ) : ℚ) < 0) = false :=
      decide_eq_false (not_lt.mpr (Int.cast_nonneg (Int.natCast_nonneg n)))
    rw [hsign]
    exact weight_mk' hround

/-- A weight divided by one that is no smaller is a fraction. -/
theorem div_le_one {x y : F64} (hx : Weight x) (hy : Weight y) (hpos : 0 < y.toRat)
    (h : x.toRat ≤ y.toRat) : Weight (x.div y) ∧ (x.div y).toRat ≤ 1 := by
  have hybits : y.magnitudeBits ≠ 0 := by
    rw [ne_eq, ← toRat_eq_zero_iff (isNaN_of_isFinite hy.finite)]
    exact hpos.ne'
  have honeBits : binary64.roundMagnitude 1 < binary64.infinityBits := by decide +kernel
  have honeRat : binary64.magnitude (binary64.roundMagnitude 1) = 1 := by
    have hone := magnitude_roundMagnitude_natCast (m := 1) (by norm_num)
    rwa [Nat.cast_one] at hone
  have hround : binary64.roundMagnitude |x.toRat / y.toRat| ≤ binary64.roundMagnitude 1 := by
    apply binary64.roundMagnitude_mono
    have hxpos : 0 ≤ x.toRat := hx.toRat ▸ magnitude_nonneg _ _
    rw [abs_of_nonneg (div_nonneg hxpos hpos.le)]
    exact (div_le_one₀ hpos).mpr h
  have hweight := weight_mk' (hround.trans_lt honeBits)
  unfold div
  rw [isNaN_of_isFinite hx.finite, isNaN_of_isFinite hy.finite, hx.sign, hy.sign, hx.finite,
    hy.finite]
  simp only [Bool.or_self, Bool.false_eq_true, if_false, if_true, bne_self_eq_false, hybits]
  split
  · refine ⟨weight_mk' (by decide), ?_⟩
    rw [toRat_zero]
    exact zero_le_one
  · refine ⟨hweight, ?_⟩
    rw [hweight.toRat, magnitudeBits_mk' ((hround.trans_lt honeBits).trans infinityBits_lt),
      ← honeRat]
    exact binary64.magnitude_mono hround

/-- A fraction is left as it is by a clamp to the unit interval. -/
theorem clampUnit_fraction {x : F64} (hx : Weight x) (hone : x.toRat ≤ 1) : x.clampUnit = x := by
  have hnaN := isNaN_of_isFinite hx.finite
  have hzeroNaN : (zero false).isNaN = false := by decide +kernel
  have hzeroFinite : (zero false).isFinite = true := by decide +kernel
  have honeFinite : (ofInt 1).isFinite = true := by decide +kernel
  have honeRat : (ofInt 1).toRat = 1 := by
    rw [toRat_ofInt (by decide)]
    rfl
  have hlow : x.ge (zero false) = true := by
    unfold ge
    rw [hnaN, hzeroNaN, hx.finite, hzeroFinite, toRat_zero, hx.toRat]
    exact decide_eq_true (magnitude_nonneg _ _)
  have hhigh : (ofInt 1).ge x = true := by
    unfold ge
    rw [isNaN_ofInt, hnaN, honeFinite, hx.finite, honeRat]
    exact decide_eq_true hone
  unfold clampUnit
  rw [hnaN, hlow, hhigh]
  rfl

end F64

end EnipAdapter.Foundation
