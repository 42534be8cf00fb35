import EnipAdapter.Foundation.BinaryRounding
import EnipAdapter.Interface.DeadbandContract

/-!
# Which changes of an integer the gate sees

Two integers compare equal at the gate exactly where their nearest doubles are the same number.
So a change is missed exactly where every place of the value rounds to what it rounded to
before, which no change up to `2 ^ 53` does.
-/

set_option autoImplicit false

namespace EnipAdapter.Analysis

open EnipAdapter.Foundation EnipAdapter.Model EnipAdapter.Interface

/-! ## Integers -/

/-- An integer is read as its nearest double. -/
theorem asF64_of_asInt {v : Json} {n : ℤ} (h : v.asInt = some n) :
    v.asF64 = some (F64.ofInt n) := by
  cases v with
  | num number =>
    cases number with
    | float x hx => cases h
    | _ =>
      cases h
      rfl
  | _ => cases h

/-- A literal is the only one of its integer. -/
theorem asInt_injective {a b : Json} {n : ℤ} (ha : a.asInt = some n) (hb : b.asInt = some n) :
    a = b := by
  have hnegative {x : UInt64} {y : Int64} (hy : y < 0) : (x.toNat : ℤ) ≠ y.toInt := by
    have hlt : y.toInt < 0 := by simpa [Int64.lt_iff_toInt_lt] using hy
    omega
  cases a with
  | num na =>
    cases b with
    | num nb =>
      cases na with
      | float x hx => cases ha
      | posInt x =>
        cases nb with
        | float y hy => cases hb
        | posInt y =>
          have hsame : (x.toNat : ℤ) = y.toNat :=
            (Option.some.inj ha).trans (Option.some.inj hb).symm
          rw [UInt64.toNat_inj.mp (Int.ofNat_inj.mp hsame)]
        | negInt y hy =>
          exact absurd ((Option.some.inj ha).trans (Option.some.inj hb).symm) (hnegative hy)
      | negInt x hx =>
        cases nb with
        | float y hy => cases hb
        | posInt y =>
          exact absurd ((Option.some.inj hb).trans (Option.some.inj ha).symm) (hnegative hx)
        | negInt y hy =>
          have hsame : x.toInt = y.toInt :=
            (Option.some.inj ha).trans (Option.some.inj hb).symm
          cases Int64.toInt_inj.mp hsame
          rfl
    | _ => cases hb
  | _ => cases ha

/-- An integer is a number. -/
theorem exists_num {v : Json} (h : IsInteger v) : ∃ number, v = .num number := by
  obtain ⟨n, hn⟩ := h
  cases v with
  | num number => exact ⟨number, rfl⟩
  | _ => cases hn

/-- An integer rounds as itself. -/
theorem roundAlike_self {v : Json} (h : IsInteger v) : RoundAlike v v := by
  obtain ⟨n, hn⟩ := h
  exact ⟨n, n, hn, hn, rfl⟩

/-- Up to `2 ^ 53` no two integers round alike. -/
theorem eq_of_roundAlike {a b : Json}
    (ha : ∀ n, a.asInt = some n → n.natAbs ≤ 2 ^ 53)
    (hb : ∀ n, b.asInt = some n → n.natAbs ≤ 2 ^ 53) (h : RoundAlike a b) : a = b := by
  obtain ⟨m, n, hm, hn, hsame⟩ := h
  rw [F64.toRat_ofInt (ha m hm), F64.toRat_ofInt (hb n hn)] at hsame
  rw [← Int.cast_inj.mp hsame] at hn
  exact asInt_injective hm hn

/-! ## The gate -/

/-- Without a deadband an integer changes exactly where its nearest double does. -/
theorem elementChanged_iff {a b : Json} (ha : IsInteger a) (hb : IsInteger b) (value : F64) :
    elementChanged a b (noDeadband value) = true ↔ ¬ RoundAlike a b := by
  obtain ⟨m, hm⟩ := ha
  obtain ⟨n, hn⟩ := hb
  have halike : RoundAlike a b ↔ (F64.ofInt m).toRat = (F64.ofInt n).toRat := by
    constructor
    · rintro ⟨m', n', hm', hn', hsame⟩
      cases hm.symm.trans hm'
      cases hn.symm.trans hn'
      exact hsame
    · intro hsame
      exact ⟨m, n, hm, hn, hsame⟩
  rw [halike]
  simp only [elementChanged, asF64_of_asInt hm, asF64_of_asInt hn, scalarExceeds, noDeadband]
  rw [Bool.not_eq_true', ← Bool.not_eq_true,
    F64.eqv_iff_toRat (F64.isNaN_ofInt n) (F64.isNaN_ofInt m)]
  exact not_congr eq_comm

/-- A walk over two arrays of one length finds no change exactly where no place has one. -/
theorem any_elementChanged_iff {as bs : List Json} (has : ∀ a ∈ as, IsInteger a)
    (hbs : ∀ b ∈ bs, IsInteger b) (hlength : as.length = bs.length) (value : F64) :
    (as.zip bs).any (fun e => elementChanged e.1 e.2 (noDeadband value)) = true ↔
      ¬ List.Forall₂ RoundAlike as bs := by
  induction as generalizing bs with
  | nil =>
    cases bs with
    | nil => simp
    | cons b bs => cases hlength
  | cons a as ih =>
    cases bs with
    | nil => cases hlength
    | cons b bs =>
      obtain ⟨ha, has⟩ := List.forall_mem_cons.mp has
      obtain ⟨hb, hbs⟩ := List.forall_mem_cons.mp hbs
      rw [List.zip_cons_cons, List.any_cons, Bool.or_eq_true, elementChanged_iff ha hb,
        ih has hbs (Nat.succ.inj hlength), List.forall₂_cons, ← not_and_or]

/-- Without a deadband the gate sees a change exactly where some place has another nearest
double than before. -/
theorem valueChanged_iff {prev new : Json} (h : IntegerPair prev new) (value : F64) :
    valueChanged prev new (noDeadband value) = true ↔ ¬ RoundAlikeThroughout prev new := by
  cases h with
  | scalars hprev hnew =>
    obtain ⟨p, rfl⟩ := exists_num hprev
    obtain ⟨n, rfl⟩ := exists_num hnew
    exact elementChanged_iff hprev hnew value
  | @arrays as bs has hbs =>
    by_cases hlength : as.length = bs.length
    · simp only [valueChanged, ne_eq, hlength, not_true_eq_false, if_false]
      exact any_elementChanged_iff has hbs hlength value
    · simp only [valueChanged, ne_eq, hlength, not_false_eq_true, if_true, true_iff]
      intro hall
      exact hlength hall.length_eq

/-- So do the integers of an array. -/
theorem roundAlikeThroughout_self {v : Json} (h : IntegerPair v v) :
    RoundAlikeThroughout v v := by
  cases h with
  | scalars hv _ =>
    obtain ⟨number, rfl⟩ := exists_num hv
    exact roundAlike_self hv
  | arrays has _ => exact List.forall₂_same.mpr fun a ha => roundAlike_self (has a ha)

/-- The gate of a signal with a settled baseline is its test for a change. -/
theorem gatePasses_settled {st : SignalState} {prev : Json} (hcommitted : st.committed = some prev)
    (hpending : st.pending = none) (new : Json) (deadband : DeadbandSpec) :
    gatePasses st new .good .onChange deadband = valueChanged prev new deadband := by
  unfold gatePasses
  rw [hcommitted, hpending]
  exact Bool.and_true _

/-- Without a deadband every change of an integer counts, or of an array of them, exactly where
the two values do not round alike throughout without being the same. -/
theorem every_change_counts_iff {prev new : Json} (h : IntegerPair prev new) (value : F64) :
    EveryChangeCounts prev new value ↔ (RoundAlikeThroughout prev new → prev = new) := by
  have hseen := valueChanged_iff h value
  have hsame : prev = new → RoundAlikeThroughout prev new := by
    rintro rfl
    exact roundAlikeThroughout_self h
  constructor
  · intro hcounts halike
    by_contra hdiffer
    exact hseen.mp (hcounts.changed.mpr hdiffer) halike
  · intro hwhen
    have hchanged : valueChanged prev new (noDeadband value) = true ↔ prev ≠ new :=
      hseen.trans (not_congr ⟨hwhen, hsame⟩)
    refine ⟨hchanged, ?_⟩
    intro st hcommitted hpending
    rw [gatePasses_settled hcommitted hpending]
    exact hchanged

/-- The literal of `2 ^ 53`, and the one after it. -/
def exactLimit : Json := Json.ofNat (2 ^ 53)

def pastExactLimit : Json := Json.ofNat (2 ^ 53 + 1)

/-- Of two integers up to `2 ^ 53` a change counts. -/
theorem every_change_counts_below :
    EveryChangeCounts (Json.ofNat (2 ^ 53 - 1)) exactLimit (F64.zero false) := by
  have hpair : IntegerPair (Json.ofNat (2 ^ 53 - 1)) exactLimit := .scalars ⟨_, rfl⟩ ⟨_, rfl⟩
  apply (every_change_counts_iff hpair _).mpr
  intro halike
  apply eq_of_roundAlike _ _ halike
  · intro n hn
    cases hn
    decide
  · intro n hn
    cases hn
    decide

/-- A counter that goes from `2 ^ 53` to the integer after it is taken not to have changed. -/
theorem change_past_exact_limit_missed :
    valueChanged exactLimit pastExactLimit (noDeadband (F64.zero false)) = false ∧
      exactLimit ≠ pastExactLimit ∧
      ¬ EveryChangeCounts exactLimit pastExactLimit (F64.zero false) := by
  have hmissed : valueChanged exactLimit pastExactLimit (noDeadband (F64.zero false)) = false := by
    decide +kernel
  have hdiffer : exactLimit ≠ pastExactLimit := by
    intro h
    have hsame : exactLimit.asInt = pastExactLimit.asInt := congrArg Json.asInt h
    revert hsame
    decide
  refine ⟨hmissed, hdiffer, ?_⟩
  intro hcounts
  rw [hcounts.changed.mpr hdiffer] at hmissed
  cases hmissed

end EnipAdapter.Analysis
