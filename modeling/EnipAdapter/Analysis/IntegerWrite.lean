import EnipAdapter.Foundation.Refuse
import EnipAdapter.Interface.IntegerContract

/-!
# Integer writes are exact

An integer literal and an integral float meet in one check of the range, and what passes it is
built at its own width. So an element is written exactly where it denotes an integer of the
type, and what is written is that integer.
-/

set_option autoImplicit false

namespace EnipAdapter.Analysis

open EnipAdapter.Foundation EnipAdapter.Model EnipAdapter.Interface

/-! ## The range and the value -/

/-- An integer between the bounds of a type is in the type's range. -/
theorem intBounds_iff {ty : EipType} (hty : isIntegerType ty = true) (k : ℤ) :
    ¬ (k < (intBounds ty).1 ∨ (intBounds ty).2 < k) ↔ InRange ty k := by
  cases ty with
  | bool | real | lreal => cases hty
  | sint | int | dint | lint =>
    show _ ↔ -2 ^ _ ≤ k ∧ k < 2 ^ _
    simp only [intBounds, typeBits, EipType.cipType, CipType.elementSize, Option.getD_some]
    omega
  | usint | uint | udint | ulint =>
    show _ ↔ 0 ≤ k ∧ k < 2 ^ _
    simp only [intBounds, typeBits, EipType.cipType, CipType.elementSize, Option.getD_some]
    omega

/-- An integer of the type is built as a value of the type that carries it. -/
theorem makeInt_spec {ty : EipType} (hty : isIntegerType ty = true) {k : ℤ}
    (h : InRange ty k) :
    ∃ v, makeInt ty k = some v ∧ ScalarOf ty.cipType v ∧ integerOf v = some k := by
  have hbounds := (intBounds_iff hty k).mpr h
  have hnat (w : ℕ) (hlow : 0 ≤ k) (hlt : k < 2 ^ w) : (k.toNat : ℤ) = k ∧ k.toNat < 2 ^ w := by
    have hcast : ((2 ^ w : ℕ) : ℤ) = 2 ^ w := by push_cast; rfl
    omega
  unfold makeInt
  rw [if_neg hbounds]
  cases ty with
  | bool | real | lreal => cases hty
  | sint => exact ⟨_, rfl, ⟨trivial, rfl⟩, congrArg some (Int8.toInt_ofInt_of_le h.1 h.2)⟩
  | int => exact ⟨_, rfl, ⟨trivial, rfl⟩, congrArg some (Int16.toInt_ofInt_of_le h.1 h.2)⟩
  | dint => exact ⟨_, rfl, ⟨trivial, rfl⟩, congrArg some (Int32.toInt_ofInt_of_le h.1 h.2)⟩
  | lint => exact ⟨_, rfl, ⟨trivial, rfl⟩, congrArg some (Int64.toInt_ofInt_of_le h.1 h.2)⟩
  | usint =>
    obtain ⟨hk, hlt⟩ := hnat 8 h.1 h.2
    refine ⟨_, rfl, ⟨trivial, rfl⟩, congrArg some ?_⟩
    rw [UInt8.toNat_ofNat_of_lt' hlt, hk]
  | uint =>
    obtain ⟨hk, hlt⟩ := hnat 16 h.1 h.2
    refine ⟨_, rfl, ⟨trivial, rfl⟩, congrArg some ?_⟩
    rw [UInt16.toNat_ofNat_of_lt' hlt, hk]
  | udint =>
    obtain ⟨hk, hlt⟩ := hnat 32 h.1 h.2
    refine ⟨_, rfl, ⟨trivial, rfl⟩, congrArg some ?_⟩
    rw [UInt32.toNat_ofNat_of_lt' hlt, hk]
  | ulint =>
    obtain ⟨hk, hlt⟩ := hnat 64 h.1 h.2
    refine ⟨_, rfl, ⟨trivial, rfl⟩, congrArg some ?_⟩
    rw [UInt64.toNat_ofNat_of_lt' hlt, hk]

/-- No two types of the adapter have one wire type. -/
theorem cipType_injective : Function.Injective EipType.cipType := by
  intro a b h
  cases a <;> cases b <;> first | rfl | cases h

/-- The integer a value carries is one its type has. -/
theorem inRange_integerOf {ty : EipType} {v : CipValue} (hv : ScalarOf ty.cipType v) {k : ℤ}
    (hk : integerOf v = some k) : InRange ty k := by
  have htype (other : EipType) (h : v.wireType = other.cipType) : ty = other :=
    cipType_injective (hv.2.symm.trans h)
  cases v with
  | sint x =>
    cases htype .sint rfl
    cases hk
    exact ⟨Int8.le_toInt x, Int8.toInt_lt x⟩
  | int x =>
    cases htype .int rfl
    cases hk
    exact ⟨Int16.le_toInt x, Int16.toInt_lt x⟩
  | dint x =>
    cases htype .dint rfl
    cases hk
    exact ⟨Int32.le_toInt x, Int32.toInt_lt x⟩
  | lint x =>
    cases htype .lint rfl
    cases hk
    exact ⟨Int64.le_toInt x, Int64.toInt_lt x⟩
  | usint x =>
    cases htype .usint rfl
    cases hk
    exact ⟨Int.natCast_nonneg _, Int.ofNat_lt.mpr x.toNat_lt⟩
  | uint x =>
    cases htype .uint rfl
    cases hk
    exact ⟨Int.natCast_nonneg _, Int.ofNat_lt.mpr x.toNat_lt⟩
  | udint x =>
    cases htype .udint rfl
    cases hk
    exact ⟨Int.natCast_nonneg _, Int.ofNat_lt.mpr x.toNat_lt⟩
  | ulint x =>
    cases htype .ulint rfl
    cases hk
    exact ⟨Int.natCast_nonneg _, Int.ofNat_lt.mpr x.toNat_lt⟩
  | _ => cases hk

/-- A value of an integer type is the one that is built from its integer. -/
theorem makeInt_integerOf {ty : EipType} (hty : isIntegerType ty = true) {v : CipValue}
    (hv : ScalarOf ty.cipType v) {k : ℤ} (hk : integerOf v = some k) : makeInt ty k = some v := by
  have hbounds := (intBounds_iff hty k).mpr (inRange_integerOf hv hk)
  unfold makeInt
  rw [if_neg hbounds]
  cases v with
  | sint x | int x | dint x | lint x | usint x | uint x | udint x | ulint x =>
    cases hk
    cases ty <;> first
      | cases hv.2; done
      | simp only [Int8.ofInt_toInt, Int16.ofInt_toInt, Int32.ofInt_toInt, Int64.ofInt_toInt,
          Int.toNat_natCast, UInt8.ofNat_toNat, UInt16.ofNat_toNat, UInt32.ofNat_toNat,
          UInt64.ofNat_toNat]
  | _ => cases hk

/-- One check of the range decides, and nothing is clamped. -/
theorem encodeInt_ok_iff {ty : EipType} (hty : isIntegerType ty = true) (k : ℤ)
    (named : WriteNumber) (v : CipValue) :
    encodeInt ty k named = .ok v ↔
      InRange ty k ∧ ScalarOf ty.cipType v ∧ integerOf v = some k := by
  unfold encodeInt
  by_cases hrange : InRange ty k
  · obtain ⟨built, hmake, hscalar, hsame⟩ := makeInt_spec hty hrange
    rw [if_neg ((intBounds_iff hty k).mpr hrange)]
    simp only [hmake]
    constructor
    · intro h
      cases h
      exact ⟨hrange, hscalar, hsame⟩
    · rintro ⟨-, hv, hk⟩
      have hunique := hmake.symm.trans (makeInt_integerOf hty hv hk)
      exact congrArg Except.ok (Option.some.inj hunique)
  · have hrefused := fun h => hrange ((intBounds_iff hty k).mp h)
    rw [if_pos (not_not.mp hrefused)]
    constructor
    · intro h
      cases h
    · intro h
      exact absurd h.1 hrange

/-! ## One element -/

/-- No transform is the identity. -/
theorem isIdentityTransform_none : isIdentityTransform none none = true := by
  have hself (x : F64) (hx : x.isNaN = false) : x.eqv x = true := by
    unfold F64.eqv
    rw [hx, decide_eq_true rfl]
    rfl
  unfold isIdentityTransform
  rw [Option.getD_none, Option.getD_none, hself (F64.ofInt 1) (by decide +kernel),
    hself (F64.zero false) (by decide +kernel)]
  rfl

/-- The number an integer literal denotes is the integer that was read off it. -/
theorem numberOf_of_exact {e : Json} {n : ℤ} (h : jsonExactInt e = some n) :
    numberOf e = some (n : ℚ) := by
  cases e with
  | num number =>
    cases number with
    | posInt m =>
      cases h
      exact congrArg some (Int.cast_natCast m.toNat).symm
    | negInt m hm =>
      cases h
      rfl
    | float x hx => cases h
  | _ => cases h

/-- What is not an integer literal is a float, or no number at all. -/
theorem float_of_not_exact {e : Json} (h : jsonExactInt e = none) :
    (∃ x hx, e = .num (.float x hx)) ∨ numberOf e = none ∧ e.asF64 = none := by
  cases e with
  | num number =>
    cases number with
    | posInt m => cases h
    | negInt m hm => cases h
    | float x hx => exact .inl ⟨x, hx, rfl⟩
  | _ => exact .inr ⟨rfl, rfl⟩

/-- A float for an integer type is refused if it has a fraction and encoded as the integer it is
otherwise. -/
theorem encodeFloat_integer {ty : EipType} (hty : isIntegerType ty = true) (x : F64)
    (hx : x.isFinite = true) :
    encodeFloat (.num (.float x hx)) ty none none =
      if x.hasFraction = true then .error (.nonInteger ty)
      else encodeInt ty x.roundToInt (.float x) := by
  unfold encodeFloat
  cases ty with
  | bool | real | lreal => cases hty
  | _ =>
    simp only [Json.asF64, Option.isSome_none, Bool.or_self, Bool.false_eq_true, if_false, hx,
      true_and, reduceCtorEq]

/-- Without a transform an element of an integer type is written exactly where it denotes an
integer of the type, and as that integer. -/
theorem encodeScalar_integer_iff {ty : EipType} (hty : isIntegerType ty = true) (e : Json)
    (v : CipValue) : encodeScalar e ty none none = .ok v ↔ Exactly ty e v := by
  have hbool : ty ≠ .bool := by
    intro h
    rw [h] at hty
    cases hty
  have hexactly (k : ℤ) (hnumber : numberOf e = some (k : ℚ)) :
      (InRange ty k ∧ ScalarOf ty.cipType v ∧ integerOf v = some k) ↔ Exactly ty e v := by
    constructor
    · rintro ⟨hrange, hscalar, hsame⟩
      exact ⟨hscalar, k, ⟨hnumber, hrange⟩, hsame⟩
    · rintro ⟨hscalar, k', ⟨hnumber', hrange⟩, hsame⟩
      have hk : k' = k := by
        rw [hnumber] at hnumber'
        exact_mod_cast (Option.some.inj hnumber').symm
      rw [hk] at hrange hsame
      exact ⟨hrange, hscalar, hsame⟩
  unfold encodeScalar
  rw [if_neg hbool, if_pos hty]
  cases hexact : jsonExactInt e with
  | some n =>
    simp only [isIdentityTransform_none, if_true]
    exact (encodeInt_ok_iff hty n (.int n) v).trans (hexactly n (numberOf_of_exact hexact))
  | none =>
    obtain ⟨x, hx, rfl⟩ | ⟨hnumber, hfloat⟩ := float_of_not_exact hexact
    · simp only [encodeFloat_integer hty]
      by_cases hfraction : x.hasFraction = true
      · rw [if_pos hfraction]
        constructor
        · intro h
          cases h
        · rintro ⟨-, k, hdenotes, -⟩
          have hwhole := (F64.hasFraction_eq_false_iff x).mpr ⟨k, Option.some.inj hdenotes.number⟩
          rw [hfraction] at hwhole
          cases hwhole
      · rw [if_neg hfraction]
        obtain ⟨k, hk⟩ := (F64.hasFraction_eq_false_iff x).mp (Bool.eq_false_iff.mpr hfraction)
        rw [F64.roundToInt_of_toRat hk]
        exact (encodeInt_ok_iff hty k (.float x) v).trans (hexactly k (congrArg some hk))
    · simp only [encodeFloat, hfloat]
      constructor
      · intro h
        cases h
      · rintro ⟨-, k, hdenotes, -⟩
        cases hnumber.symm.trans hdenotes.number

/-! ## A whole write -/

/-- An array is encoded exactly if each of its elements is, on its own. -/
theorem encodeElements_ok_iff {ty : EipType} {scale offset : Option F64} {es : List Json}
    {vs : List CipValue} :
    encodeElements ty scale offset es = .ok vs ↔
      List.Forall₂ (fun e v => encodeScalar e ty scale offset = .ok v) es vs := by
  induction es generalizing vs with
  | nil =>
    rw [List.forall₂_nil_left_iff]
    exact ⟨fun h => (Except.ok.inj h).symm, fun h => congrArg Except.ok h.symm⟩
  | cons e es ih =>
    constructor
    · intro h
      obtain ⟨v, hv, h⟩ := bind_ok.mp h
      obtain ⟨rest, hrest, h⟩ := bind_ok.mp h
      cases h
      exact .cons hv (ih.mp hrest)
    · intro h
      cases h with
      | cons hv hrest => exact bind_ok.mpr ⟨_, hv, bind_ok.mpr ⟨_, ih.mpr hrest, rfl⟩⟩

/-- A write is its elements, each coerced in its place. -/
theorem encodeWrite_ok_iff {value : Json} {ty : EipType} {scale offset : Option F64}
    {arrayCount : Option UInt32} {r : CipValue} :
    encodeWrite value ty scale offset arrayCount = .ok r ↔
      ∃ es vs, writtenElements arrayCount value = some es ∧ MadeOf ty arrayCount vs r ∧
        List.Forall₂ (fun e v => encodeScalar e ty scale offset = .ok v) es vs := by
  cases arrayCount with
  | none =>
    constructor
    · intro h
      exact ⟨[value], [r], rfl, rfl, .cons h .nil⟩
    · rintro ⟨es, vs, hes, hvs, hall⟩
      cases hes
      cases hvs
      cases hall with
      | cons hv _ => exact hv
  | some n =>
    unfold encodeWrite writtenElements
    cases hitems : value.asArray with
    | none =>
      simp only [Option.filter_none]
      constructor
      · intro h
        cases h
      · rintro ⟨es, vs, hes, -⟩
        cases hes
    | some items =>
      simp only [Option.filter_some]
      by_cases hlength : items.length = n.toNat
      · rw [if_neg (not_not.mpr hlength), if_pos (decide_eq_true hlength)]
        constructor
        · intro h
          obtain ⟨vs, hvs, h⟩ := bind_ok.mp h
          cases h
          exact ⟨items, vs, rfl, rfl, encodeElements_ok_iff.mp hvs⟩
        · rintro ⟨es, vs, hes, hr, hall⟩
          cases hes
          cases hr
          exact bind_ok.mpr ⟨vs, encodeElements_ok_iff.mpr hall, rfl⟩
      · rw [if_pos hlength, if_neg (by simpa using hlength)]
        constructor
        · intro h
          cases h
        · rintro ⟨es, vs, hes, -⟩
          cases hes

/-- Elements that are encoded exactly denote integers. -/
theorem denotes_of_exactly {ty : EipType} {es : List Json} {vs : List CipValue}
    (h : List.Forall₂ (Exactly ty) es vs) : ∀ e ∈ es, ∃ k, Denotes ty e k := by
  induction h with
  | nil =>
    intro e he
    cases he
  | cons hv _ ih =>
    obtain ⟨k, hk, -⟩ := hv.same
    exact List.forall_mem_cons.mpr ⟨⟨k, hk⟩, ih⟩

/-- Every element that denotes an integer of the type has a value that carries it. -/
theorem exists_exactly {ty : EipType} (hty : isIntegerType ty = true) {es : List Json}
    (h : ∀ e ∈ es, ∃ k, Denotes ty e k) : ∃ vs, List.Forall₂ (Exactly ty) es vs := by
  induction es with
  | nil => exact ⟨[], .nil⟩
  | cons e es ih =>
    obtain ⟨k, hk⟩ := h e List.mem_cons_self
    obtain ⟨v, -, hscalar, hsame⟩ := makeInt_spec hty hk.inRange
    obtain ⟨vs, hvs⟩ := ih fun e' he' => h e' (List.mem_cons_of_mem _ he')
    exact ⟨v :: vs, .cons ⟨hscalar, k, hk, hsame⟩ hvs⟩

/-- Without a transform a write of an integer type makes the value whose elements carry exactly
the integers its JSON elements denote. -/
theorem encodeWrite_integer_iff {ty : EipType} (hty : isIntegerType ty = true)
    (arrayCount : Option UInt32) (value : Json) (r : CipValue) :
    encodeWrite value ty none none arrayCount = .ok r ↔
      ∃ es vs, writtenElements arrayCount value = some es ∧ MadeOf ty arrayCount vs r ∧
        List.Forall₂ (Exactly ty) es vs := by
  simp only [encodeWrite_ok_iff, encodeScalar_integer_iff hty]

/-- Integer writes are exact or refused: a write without a transform succeeds exactly where its
value is a number, or an array of the configured count of numbers, each of them an integer of
the type; and then every element of the result is that integer. -/
theorem integer_write_exact_or_refused (ty : EipType) (hty : isIntegerType ty = true)
    (arrayCount : Option UInt32) (value : Json) :
    ((∃ r, encodeWrite value ty none none arrayCount = .ok r) ↔
      ∃ es, writtenElements arrayCount value = some es ∧ ∀ e ∈ es, ∃ k, Denotes ty e k) ∧
    ∀ r, encodeWrite value ty none none arrayCount = .ok r →
      ∃ es vs, writtenElements arrayCount value = some es ∧ MadeOf ty arrayCount vs r ∧
        List.Forall₂ (Exactly ty) es vs := by
  refine ⟨?_, fun r h => (encodeWrite_integer_iff hty arrayCount value r).mp h⟩
  constructor
  · rintro ⟨r, h⟩
    obtain ⟨es, vs, hes, -, hall⟩ := (encodeWrite_integer_iff hty arrayCount value r).mp h
    exact ⟨es, hes, denotes_of_exactly hall⟩
  · rintro ⟨es, hes, hints⟩
    obtain ⟨vs, hall⟩ := exists_exactly hty hints
    obtain ⟨r, hr⟩ : ∃ r, MadeOf ty arrayCount vs r := by
      cases arrayCount with
      | none =>
        cases hes
        cases hall with
        | cons _ hrest =>
          cases hrest
          exact ⟨_, rfl⟩
      | some n => exact ⟨_, rfl⟩
    exact ⟨r, (encodeWrite_integer_iff hty arrayCount value r).mpr ⟨es, vs, hes, hr, hall⟩⟩

/-- A machine word is the number it says. -/
theorem numberOf_ofNat {n : ℕ} (h : n < 2 ^ 64) : numberOf (Json.ofNat n) = some (n : ℚ) := by
  show some (((UInt64.ofNat n).toNat : ℕ) : ℚ) = some (n : ℚ)
  rw [UInt64.toNat_ofNat_of_lt' h]

/-- The largest LINT is written, and the integer after it is refused. -/
theorem integer_write_exact_or_refused_lint :
    (∃ r, encodeWrite (Json.ofNat (2 ^ 63 - 1)) .lint none none none = .ok r) ∧
      ¬ ∃ r, encodeWrite (Json.ofNat (2 ^ 63)) .lint none none none = .ok r := by
  have hwrite (value : Json) := (integer_write_exact_or_refused .lint rfl none value).1
  rw [hwrite, hwrite]
  constructor
  · refine ⟨_, rfl, List.forall_mem_singleton.mpr ⟨2 ^ 63 - 1, ?_, ?_⟩⟩
    · rw [numberOf_ofNat (by omega)]
      norm_num
    · show (-2 ^ 63 : ℤ) ≤ 2 ^ 63 - 1 ∧ (2 ^ 63 - 1 : ℤ) < 2 ^ 63
      omega
  · rintro ⟨es, hes, hints⟩
    cases hes
    obtain ⟨k, hk⟩ := hints _ List.mem_cons_self
    have hnumber := hk.number
    have hbelow : k < 2 ^ 63 := hk.inRange.2
    rw [numberOf_ofNat (by omega)] at hnumber
    have hsame : ((2 ^ 63 : ℕ) : ℤ) = k := by exact_mod_cast Option.some.inj hnumber
    push_cast at hsame
    omega

end EnipAdapter.Analysis
