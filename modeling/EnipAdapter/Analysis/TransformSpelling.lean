import EnipAdapter.Analysis.IntegerWrite
import EnipAdapter.Foundation.BinaryRounding
import EnipAdapter.Interface.IntegerContract

/-!
# Which writes see how the identity is spelled

The identity transform leaves every number as it is, so the two paths of a write part only at
the check for a fraction, which is made where no transform is configured and left out where one
is spelled. A write sees the spelling exactly where that check is what refuses it.
-/

set_option autoImplicit false

namespace EnipAdapter.Analysis

open EnipAdapter.Foundation EnipAdapter.Model EnipAdapter.Interface

/-! ## One element -/

/-- A number of JSON is a number. -/
theorem isNaN_of_asF64 {e : Json} {x : F64} (h : e.asF64 = some x) : x.isNaN = false := by
  cases e with
  | num number =>
    cases number with
    | posInt n =>
      cases h
      exact F64.isNaN_ofInt _
    | negInt n _ =>
      cases h
      exact F64.isNaN_ofInt _
    | float y hy =>
      cases h
      exact F64.isNaN_of_isFinite hy
  | _ => cases h

/-- An identity transform undone leaves a number as it is. -/
theorem undo_identity {t : Option F64 × Option F64} (ht : t ∈ identityTransforms) {x : F64}
    (hx : x.isNaN = false) :
    (x.sub (t.2.getD (F64.zero false))).div (t.1.getD (F64.ofInt 1)) = x := by
  have hoffset : t.2.getD (F64.zero false) = F64.zero false := by
    simp only [identityTransforms, List.mem_cons, List.not_mem_nil, or_false] at ht
    rcases ht with rfl | rfl | rfl | rfl <;> rfl
  have hscale : t.1.getD (F64.ofInt 1) = F64.ofInt 1 := by
    simp only [identityTransforms, List.mem_cons, List.not_mem_nil, or_false] at ht
    rcases ht with rfl | rfl | rfl | rfl <;> rfl
  rw [hoffset, hscale, F64.sub_positiveZero hx, F64.div_ofInt_one hx]

/-- Each of the spellings is an identity. -/
theorem isIdentityTransform_of_mem {t : Option F64 × Option F64} (ht : t ∈ identityTransforms) :
    isIdentityTransform t.1 t.2 = true := by
  simp only [identityTransforms, List.mem_cons, List.not_mem_nil, or_false] at ht
  rcases ht with rfl | rfl | rfl | rfl <;> exact isIdentityTransform_none

/-- The check for a fraction apart, the path through floating point is the same. -/
theorem encodeFloat_same {t : Option F64 × Option F64} (ht : t ∈ identityTransforms) {e : Json}
    {ty : EipType} (h : encodeFloat e ty none none ≠ .error (.nonInteger ty)) :
    encodeFloat e ty t.1 t.2 = encodeFloat e ty none none := by
  unfold encodeFloat at h ⊢
  cases hx : e.asF64 with
  | none => rfl
  | some x =>
    have hdevice : (if (t.1.isSome || t.2.isSome) = true then
        (x.sub (t.2.getD (F64.zero false))).div (t.1.getD (F64.ofInt 1)) else x) = x := by
      split
      · exact undo_identity ht (isNaN_of_asF64 hx)
      · rfl
    simp only [hx, hdevice, Option.isSome_none, Bool.or_self, Bool.false_eq_true, if_false] at h ⊢
    by_cases hfinite : x.isFinite = false
    · rw [if_pos hfinite, if_pos hfinite]
    · rw [if_neg hfinite] at h
      rw [if_neg hfinite, if_neg hfinite]
      cases ty with
      | real | lreal => rfl
      | _ =>
        have hwhole : x.hasFraction = false :=
          Bool.eq_false_iff.mpr fun hfraction => h (if_pos ⟨trivial, hfraction⟩)
        simp only [hwhole, Bool.false_eq_true, and_false, if_false]

/-- A scalar that is not refused for a fraction is encoded alike under every spelling. -/
theorem encodeScalar_same {t : Option F64 × Option F64} (ht : t ∈ identityTransforms) {e : Json}
    {ty : EipType} (h : encodeScalar e ty none none ≠ .error (.nonInteger ty)) :
    encodeScalar e ty t.1 t.2 = encodeScalar e ty none none := by
  unfold encodeScalar at h ⊢
  by_cases hbool : ty = .bool
  · rw [if_pos hbool, if_pos hbool]
  · rw [if_neg hbool] at h
    rw [if_neg hbool, if_neg hbool]
    by_cases hty : isIntegerType ty = true
    · rw [if_pos hty] at h
      rw [if_pos hty, if_pos hty]
      cases hexact : jsonExactInt e with
      | some n =>
        simp only [isIdentityTransform_of_mem ht, isIdentityTransform_none, if_true]
      | none =>
        simp only [hexact] at h ⊢
        exact encodeFloat_same ht h
    · rw [if_neg hty] at h
      rw [if_neg hty, if_neg hty]
      exact encodeFloat_same ht h

/-- The check of the range never finds a fraction. -/
theorem encodeInt_ne_nonInteger {ty : EipType} (hty : isIntegerType ty = true) (k : ℤ)
    (named : WriteNumber) : encodeInt ty k named ≠ .error (.nonInteger ty) := by
  unfold encodeInt
  by_cases hrange : InRange ty k
  · obtain ⟨v, hmake, -⟩ := makeInt_spec hty hrange
    rw [if_neg ((intBounds_iff hty k).mpr hrange), hmake]
    intro h
    cases h
  · rw [if_pos (not_not.mp fun h => hrange ((intBounds_iff hty k).mp h))]
    intro h
    cases h

/-- Where a transform is spelled, no element is refused for its fraction. -/
theorem encodeScalar_ne_nonInteger {scale offset : Option F64}
    (hspelled : (scale.isSome || offset.isSome) = true) {ty : EipType}
    (hty : isIntegerType ty = true) (e : Json) :
    encodeScalar e ty scale offset ≠ .error (.nonInteger ty) := by
  have hfloat : encodeFloat e ty scale offset ≠ .error (.nonInteger ty) := by
    unfold encodeFloat
    cases hx : e.asF64 with
    | none =>
      intro h
      cases h
    | some x =>
      simp only [hspelled, if_true]
      split
      · intro h
        cases h
      · cases ty with
        | bool | real | lreal => cases hty
        | _ =>
          simp only [Bool.true_eq_false, false_and, if_false]
          exact encodeInt_ne_nonInteger hty _ _
  have hbool : ty ≠ .bool := by
    intro h
    rw [h] at hty
    cases hty
  unfold encodeScalar
  rw [if_neg hbool, if_pos hty]
  cases hexact : jsonExactInt e with
  | none => exact hfloat
  | some n =>
    simp only
    split
    · exact encodeInt_ne_nonInteger hty _ _
    · split
      · intro h
        cases h
      · exact hfloat

/-- An integer literal is no fraction. -/
theorem not_fractional_of_exact {e : Json} {n : ℤ} (h : jsonExactInt e = some n) :
    ¬ Fractional e := by
  rintro ⟨q, hq, hnone⟩
  rw [numberOf_of_exact h] at hq
  exact hnone n (Option.some.inj hq).symm

/-- A float is fractional exactly if it has a fraction. -/
theorem fractional_float_iff {x : F64} {hx : x.isFinite = true} :
    Fractional (.num (.float x hx)) ↔ x.hasFraction = true := by
  constructor
  · rintro ⟨q, hq, hnone⟩
    cases hq
    by_contra hwhole
    obtain ⟨k, hk⟩ := (F64.hasFraction_eq_false_iff x).mp (Bool.eq_false_iff.mpr hwhole)
    exact hnone k hk
  · intro hfraction
    refine ⟨x.toRat, rfl, ?_⟩
    intro k hk
    have hwhole := (F64.hasFraction_eq_false_iff x).mpr ⟨k, hk⟩
    rw [hfraction] at hwhole
    cases hwhole

/-- Without a transform exactly a fractional number for an integer type is refused for its
fraction. -/
theorem encodeScalar_nonInteger_iff {ty : EipType} (hty : isIntegerType ty = true) {e : Json} :
    encodeScalar e ty none none = .error (.nonInteger ty) ↔ Fractional e := by
  have hbool : ty ≠ .bool := by
    intro h
    rw [h] at hty
    cases hty
  unfold encodeScalar
  rw [if_neg hbool, if_pos hty]
  cases hexact : jsonExactInt e with
  | some n =>
    simp only [isIdentityTransform_none, if_true]
    exact iff_of_false (encodeInt_ne_nonInteger hty _ _) (not_fractional_of_exact hexact)
  | none =>
    obtain ⟨x, hx, rfl⟩ | ⟨hnumber, hfloat⟩ := float_of_not_exact hexact
    · simp only [encodeFloat_integer hty]
      rw [fractional_float_iff]
      by_cases hfraction : x.hasFraction = true
      · rw [if_pos hfraction]
        exact iff_of_true rfl hfraction
      · rw [if_neg hfraction]
        exact iff_of_false (encodeInt_ne_nonInteger hty _ _) hfraction
    · simp only [encodeFloat, hfloat]
      apply iff_of_false
      · intro h
        cases h
      · rintro ⟨q, hq, -⟩
        cases hnumber.symm.trans hq

/-- A type that is no integer type refuses nothing for a fraction. -/
theorem encodeScalar_ne_nonInteger_of_other {ty : EipType} (hty : isIntegerType ty ≠ true)
    (e : Json) : encodeScalar e ty none none ≠ .error (.nonInteger ty) := by
  intro h
  cases ty with
  | bool =>
    cases e <;> cases h
  | real | lreal =>
    simp only [encodeScalar, isIntegerType, reduceCtorEq, Bool.false_eq_true, if_false,
      encodeFloat] at h
    split at h
    · cases h
    · simp only [Option.isSome_none, Bool.or_self, Bool.false_eq_true, if_false] at h
      split_ifs at h <;> cases h
  | _ => exact hty rfl

/-! ## The elements of a write -/

/-- What a list is refused for is what one of its elements is refused for. -/
theorem encodeElements_error {ty : EipType} {scale offset : Option F64} {es : List Json}
    {err : WriteError} (h : encodeElements ty scale offset es = .error err) :
    ∃ e ∈ es, encodeScalar e ty scale offset = .error err := by
  induction es with
  | nil => cases h
  | cons e es ih =>
    simp only [encodeElements] at h
    cases hfirst : encodeScalar e ty scale offset with
    | error err' =>
      rw [hfirst] at h
      cases h
      exact ⟨e, List.mem_cons_self, hfirst⟩
    | ok v =>
      rw [hfirst] at h
      cases hrest : encodeElements ty scale offset es with
      | error err' =>
        rw [hrest] at h
        cases h
        obtain ⟨e', he', herror⟩ := ih hrest
        exact ⟨e', List.mem_cons_of_mem e he', herror⟩
      | ok vs =>
        rw [hrest] at h
        cases h

/-- So are the elements of an array. -/
theorem encodeElements_same {t : Option F64 × Option F64} (ht : t ∈ identityTransforms)
    {ty : EipType} {es : List Json}
    (h : encodeElements ty none none es ≠ .error (.nonInteger ty)) :
    encodeElements ty t.1 t.2 es = encodeElements ty none none es := by
  induction es with
  | nil => rfl
  | cons e es ih =>
    simp only [encodeElements] at h ⊢
    have hfirst : encodeScalar e ty none none ≠ .error (.nonInteger ty) := by
      intro hrefused
      rw [hrefused] at h
      exact h rfl
    rw [encodeScalar_same ht hfirst]
    cases hscalar : encodeScalar e ty none none with
    | error err => simp only [bind, Except.bind]
    | ok v =>
      rw [hscalar] at h
      have hrest : encodeElements ty none none es ≠ .error (.nonInteger ty) := by
        intro hrefused
        rw [hrefused] at h
        exact h rfl
      rw [ih hrest]

/-- An integer in the type's range is encoded. -/
theorem encodeScalar_of_denotes {ty : EipType} (hty : isIntegerType ty = true) {e : Json} {k : ℤ}
    (h : Denotes ty e k) : ∃ v, encodeScalar e ty none none = .ok v := by
  obtain ⟨v, -, hscalar, hsame⟩ := makeInt_spec hty h.inRange
  exact ⟨v, (encodeScalar_integer_iff hty e v).mpr ⟨hscalar, k, h, hsame⟩⟩

/-- A list is refused for a fraction exactly where the first element that is no integer of the
type is fractional. -/
theorem encodeElements_nonInteger_iff {ty : EipType} (hty : isIntegerType ty = true)
    {es : List Json} :
    encodeElements ty none none es = .error (.nonInteger ty) ↔
      ∃ before e after, es = before ++ e :: after ∧ (∀ p ∈ before, ∃ k, Denotes ty p k) ∧
        Fractional e := by
  constructor
  · intro h
    induction es with
    | nil => cases h
    | cons e es ih =>
      simp only [encodeElements] at h
      cases hfirst : encodeScalar e ty none none with
      | error err =>
        rw [hfirst] at h
        cases h
        exact ⟨[], e, es, rfl, fun p hp => absurd hp List.not_mem_nil,
          (encodeScalar_nonInteger_iff hty).mp hfirst⟩
      | ok v =>
        rw [hfirst] at h
        cases hrest : encodeElements ty none none es with
        | error err =>
          rw [hrest] at h
          cases h
          obtain ⟨before, e', after, rfl, hbefore, hfraction⟩ := ih hrest
          obtain ⟨k, hk, -⟩ := ((encodeScalar_integer_iff hty e v).mp hfirst).same
          exact ⟨e :: before, e', after, rfl, List.forall_mem_cons.mpr ⟨⟨k, hk⟩, hbefore⟩,
            hfraction⟩
        | ok vs =>
          rw [hrest] at h
          cases h
  · rintro ⟨before, e, after, rfl, hbefore, hfraction⟩
    induction before with
    | nil =>
      rw [List.nil_append, encodeElements, (encodeScalar_nonInteger_iff hty).mpr hfraction]
      rfl
    | cons p before ih =>
      obtain ⟨⟨k, hk⟩, hrest⟩ := List.forall_mem_cons.mp hbefore
      obtain ⟨v, hv⟩ := encodeScalar_of_denotes hty hk
      rw [List.cons_append, encodeElements, hv, ih hrest]
      rfl

/-! ## A whole write -/

/-- A write is refused for a fraction exactly where its elements are. -/
theorem encodeWrite_nonInteger_iff {value : Json} {ty : EipType} {scale offset : Option F64}
    {arrayCount : Option UInt32} :
    encodeWrite value ty scale offset arrayCount = .error (.nonInteger ty) ↔
      ∃ es, writtenElements arrayCount value = some es ∧
        encodeElements ty scale offset es = .error (.nonInteger ty) := by
  cases arrayCount with
  | none =>
    constructor
    · intro h
      refine ⟨[value], rfl, ?_⟩
      simp only [encodeWrite] at h
      rw [encodeElements, h]
      rfl
    · rintro ⟨es, hes, h⟩
      cases hes
      obtain ⟨e, he, herror⟩ := encodeElements_error h
      cases List.mem_singleton.mp he
      exact herror
  | some n =>
    unfold encodeWrite writtenElements
    cases hitems : value.asArray with
    | none =>
      constructor
      · intro h
        cases h
      · rintro ⟨es, hes, -⟩
        cases hes
    | some items =>
      simp only [Option.filter_some]
      by_cases hlength : items.length = n.toNat
      · rw [if_neg (not_not.mpr hlength), if_pos (decide_eq_true hlength)]
        cases helements : encodeElements ty scale offset items with
        | error err =>
          constructor
          · intro h
            cases h
            exact ⟨items, rfl, helements⟩
          · rintro ⟨es, hes, h⟩
            cases hes
            cases helements.symm.trans h
            rfl
        | ok vs =>
          constructor
          · intro h
            cases h
          · rintro ⟨es, hes, h⟩
            cases hes
            cases helements.symm.trans h
      · rw [if_pos hlength, if_neg (by simpa using hlength)]
        constructor
        · intro h
          cases h
        · rintro ⟨es, hes, -⟩
          cases hes

/-- A write that is not refused for a fraction is the same however the identity is spelled. -/
theorem encodeWrite_same {t : Option F64 × Option F64} (ht : t ∈ identityTransforms)
    {value : Json} {ty : EipType} {arrayCount : Option UInt32}
    (h : encodeWrite value ty none none arrayCount ≠ .error (.nonInteger ty)) :
    encodeWrite value ty t.1 t.2 arrayCount = encodeWrite value ty none none arrayCount := by
  cases arrayCount with
  | none => exact encodeScalar_same ht h
  | some n =>
    unfold encodeWrite at h ⊢
    cases hitems : value.asArray with
    | none => rfl
    | some items =>
      simp only [hitems] at h ⊢
      by_cases hlength : items.length ≠ n.toNat
      · rw [if_pos hlength, if_pos hlength]
      · rw [if_neg hlength] at h
        rw [if_neg hlength, if_neg hlength]
        have helements : encodeElements ty none none items ≠ .error (.nonInteger ty) := by
          intro hrefused
          rw [hrefused] at h
          exact h rfl
        rw [encodeElements_same ht helements]

/-- Only a fraction that is reached is refused for one. -/
theorem noFractionReached_iff {value : Json} {ty : EipType} {arrayCount : Option UInt32} :
    NoFractionReached value ty arrayCount ↔
      encodeWrite value ty none none arrayCount ≠ .error (.nonInteger ty) := by
  by_cases hty : isIntegerType ty = true
  · rw [ne_eq, encodeWrite_nonInteger_iff]
    simp only [encodeElements_nonInteger_iff hty]
    constructor
    · rintro h ⟨es, hes, before, e, after, rfl, hbefore, hfraction⟩
      exact h hty before e after hes hbefore hfraction
    · intro h _ before e after hes hbefore hfraction
      exact h ⟨_, hes, before, e, after, rfl, hbefore, hfraction⟩
  · refine iff_of_true (fun h => absurd h hty) ?_
    rw [ne_eq, encodeWrite_nonInteger_iff]
    rintro ⟨es, -, h⟩
    obtain ⟨e, -, herror⟩ := encodeElements_error h
    exact encodeScalar_ne_nonInteger_of_other hty e herror

/-- A write does not see how the identity is spelled, exactly where no element of an integer type
is fractional behind elements that all are integers of the type. -/
theorem spelling_irrelevant_iff (value : Json) (ty : EipType) (arrayCount : Option UInt32) :
    SpellingIrrelevant value ty arrayCount ↔ NoFractionReached value ty arrayCount := by
  constructor
  · intro h
    rw [noFractionReached_iff]
    intro hrefused
    have hspelled := h (some (F64.ofInt 1), none) (by simp [identityTransforms])
    rw [hrefused] at hspelled
    obtain ⟨es, -, herror⟩ := encodeWrite_nonInteger_iff.mp hspelled
    obtain ⟨e, -, hscalar⟩ := encodeElements_error herror
    by_cases hty : isIntegerType ty = true
    · exact encodeScalar_ne_nonInteger rfl hty e hscalar
    · obtain ⟨es, -, hplain⟩ := encodeWrite_nonInteger_iff.mp hrefused
      obtain ⟨e, -, hplain⟩ := encodeElements_error hplain
      exact encodeScalar_ne_nonInteger_of_other hty e hplain
  · intro h t ht
    exact encodeWrite_same ht (noFractionReached_iff.mp h)

/-- One and a half, the float of a JSON number. -/
def oneAndAHalf : Json := .num (.float ⟨0x3FF8000000000000⟩ (by decide +kernel))

/-- One and a half is refused for a DINT without a transform, and written as two under a scale of
one. -/
theorem scale_one_rounds :
    encodeWrite oneAndAHalf .dint none none none = .error (.nonInteger .dint) ∧
      encodeWrite oneAndAHalf .dint (some (F64.ofInt 1)) none none = .ok (.dint 2) ∧
      ¬ SpellingIrrelevant oneAndAHalf .dint none := by
  have hplain : encodeWrite oneAndAHalf .dint none none none = .error (.nonInteger .dint) :=
    (encodeScalar_nonInteger_iff rfl).mpr (fractional_float_iff.mpr (by decide +kernel))
  have hdevice : (F64.sub ⟨0x3FF8000000000000⟩ (F64.zero false)).div (F64.ofInt 1) =
      ⟨0x3FF8000000000000⟩ := by decide +kernel
  have hfinite : F64.isFinite ⟨0x3FF8000000000000⟩ = true := by decide +kernel
  have hround : F64.roundToInt ⟨0x3FF8000000000000⟩ = 2 := by decide +kernel
  have hscaled : encodeWrite oneAndAHalf .dint (some (F64.ofInt 1)) none none = .ok (.dint 2) := by
    show encodeFloat oneAndAHalf .dint (some (F64.ofInt 1)) none = _
    simp only [encodeFloat, oneAndAHalf, Json.asF64, Option.isSome_some, Bool.true_or, if_true,
      Option.getD_none, Option.getD_some, hdevice, hfinite, hround, Bool.true_eq_false, if_false,
      false_and]
    rfl
  refine ⟨hplain, hscaled, ?_⟩
  intro h
  have hsame := h (some (F64.ofInt 1), none) (by simp [identityTransforms])
  rw [hplain, hscaled] at hsame
  cases hsame

end EnipAdapter.Analysis
