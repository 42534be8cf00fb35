import Mathlib.Data.Set.Card
import Mathlib.Order.Bounds.Basic
import Mathlib.Order.Interval.Set.Nat
import Mathlib.Tactic.Ring

/-!
# Periodic schedules

A schedule has a start and a period; its ticks are the whole periods after the start. The number
of ticks up to an instant and the first tick after it are closed forms in one division.
-/

set_option autoImplicit false

namespace EnipAdapter.Foundation

/-- The ticks of a schedule: its start is not one of them. -/
def ticks (start period : ℕ) : Set ℕ := {t | ∃ k, 1 ≤ k ∧ t = start + k * period}

/-- How many ticks there are up to an instant, that instant included. -/
def ticksUpTo (start period now : ℕ) : ℕ := (now - start) / period

/-- The first tick after an instant. -/
def tickAfter (start period now : ℕ) : ℕ := start + (ticksUpTo start period now + 1) * period

variable {start period now : ℕ}

/-- The ticks up to an instant are those with the first so many numbers. -/
theorem tick_le_iff (hp : 0 < period) {k : ℕ} (hk : 1 ≤ k) :
    start + k * period ≤ now ↔ k ≤ ticksUpTo start period now := by
  have hpos : 0 < k * period := Nat.mul_pos hk hp
  rw [ticksUpTo, Nat.le_div_iff_mul_le hp]
  omega

/-- As time goes on there are no fewer ticks. -/
theorem ticksUpTo_mono {later : ℕ} (h : now ≤ later) :
    ticksUpTo start period now ≤ ticksUpTo start period later :=
  Nat.div_le_div_right (Nat.sub_le_sub_right h start)

/-- The next tick is ahead. -/
theorem lt_tickAfter (hp : 0 < period) : now < tickAfter start period now := by
  by_contra hle
  have htick := (tick_le_iff hp (Nat.le_add_left 1 _)).mp (Nat.le_of_not_lt hle)
  exact Nat.lt_irrefl _ htick

/-- The next tick is the first of the grid that is ahead. -/
theorem tickAfter_isLeast (hp : 0 < period) :
    IsLeast {t | t ∈ ticks start period ∧ now < t} (tickAfter start period now) := by
  refine ⟨⟨⟨_, Nat.le_add_left 1 _, rfl⟩, lt_tickAfter hp⟩, ?_⟩
  rintro t ⟨⟨k, hk, rfl⟩, hlt⟩
  have hgt : ¬ k ≤ ticksUpTo start period now := fun hle =>
    absurd ((tick_le_iff hp hk).mpr hle) (Nat.not_le.mpr hlt)
  exact Nat.add_le_add_left (Nat.mul_le_mul_right period (Nat.lt_of_not_le hgt)) start

/-- There is a tick after one instant and up to another exactly where the count grows. -/
theorem exists_tick_iff (hp : 0 < period) {last : ℕ} :
    (∃ t ∈ ticks start period, last < t ∧ t ≤ now) ↔
      ticksUpTo start period last < ticksUpTo start period now := by
  constructor
  · rintro ⟨t, ⟨k, hk, rfl⟩, hlast, hnow⟩
    have hle := (tick_le_iff hp hk).mp hnow
    have hgt : ¬ k ≤ ticksUpTo start period last := fun h =>
      absurd ((tick_le_iff hp hk).mpr h) (Nat.not_le.mpr hlast)
    omega
  · intro hlt
    have hk : 1 ≤ ticksUpTo start period now := by omega
    refine ⟨start + ticksUpTo start period now * period, ⟨_, hk, rfl⟩, ?_, ?_⟩
    · by_contra hle
      have hcount := (tick_le_iff hp hk).mp (Nat.le_of_not_lt hle)
      omega
    · exact (tick_le_iff hp hk).mpr le_rfl

/-- The count does not grow before the next tick. -/
theorem ticksUpTo_of_lt_tickAfter (hp : 0 < period) {last : ℕ} (hle : last ≤ now)
    (h : now < tickAfter start period last) :
    ticksUpTo start period now = ticksUpTo start period last := by
  apply le_antisymm _ (ticksUpTo_mono hle)
  by_contra hgrown
  obtain ⟨t, ht, hlast, hnow⟩ := (exists_tick_iff hp).mpr (Nat.lt_of_not_le hgrown)
  have hleast := (tickAfter_isLeast hp).2 ⟨ht, hlast⟩
  omega

/-- The count is the number of ticks. -/
theorem ncard_ticks (hp : 0 < period) :
    (ticks start period ∩ Set.Iic now).ncard = ticksUpTo start period now := by
  have himage : ticks start period ∩ Set.Iic now =
      (fun k => start + k * period) '' Set.Icc 1 (ticksUpTo start period now) := by
    ext t
    constructor
    · rintro ⟨⟨k, hk, rfl⟩, hle⟩
      exact ⟨k, ⟨hk, (tick_le_iff hp hk).mp hle⟩, rfl⟩
    · rintro ⟨k, ⟨hk, hle⟩, rfl⟩
      exact ⟨⟨k, hk, rfl⟩, (tick_le_iff hp hk).mpr hle⟩
  have hinj : Function.Injective fun k => start + k * period := by
    intro a b hab
    exact Nat.eq_of_mul_eq_mul_right hp (Nat.add_left_cancel hab)
  rw [himage, Set.ncard_image_of_injective _ hinj, Set.ncard_eq_toFinset_card', Set.toFinset_Icc,
    Nat.card_Icc]
  omega

/-- The ticks from the first one after an instant up to a later instant, that first one left
out, in one division. -/
theorem div_from_tickAfter (hp : 0 < period) {last : ℕ}
    (h : tickAfter start period last ≤ now) :
    (now - tickAfter start period last) / period + ticksUpTo start period last + 1 =
      ticksUpTo start period now := by
  have hmul : (ticksUpTo start period last + 1) * period ≤ now - start := by
    rw [tickAfter] at h
    omega
  have hle := (Nat.le_div_iff_mul_le hp).mpr hmul
  rw [tickAfter, Nat.sub_add_eq, Nat.mul_comm _ period, Nat.sub_mul_div]
  show (now - start) / period - _ + _ + 1 = (now - start) / period
  omega

/-- One step past the ticks that an instant has passed over leads to the first tick after it. -/
theorem tickAfter_advance (hp : 0 < period) {last : ℕ} (h : tickAfter start period last ≤ now) :
    tickAfter start period last + period * ((now - tickAfter start period last) / period + 1) =
      tickAfter start period now := by
  have hcount := div_from_tickAfter hp h
  generalize (now - tickAfter start period last) / period = skipped at hcount ⊢
  rw [tickAfter, tickAfter, ← hcount]
  ring

/-! ## Whole periods of a signed span -/

/-- Cut towards zero, the number of whole periods is negative only from a full period on. -/
theorem tdiv_neg_iff {span period : ℤ} (hp : 0 < period) :
    span.tdiv period < 0 ↔ span ≤ -period := by
  have hneg : span.tdiv period = -((-span).tdiv period) := by rw [Int.neg_tdiv, Int.neg_neg]
  constructor
  · intro h
    by_contra hlt
    obtain h0 | h0 := Int.le_total 0 span
    · have hnonneg := Int.tdiv_nonneg h0 hp.le
      omega
    · have hzero : (-span).tdiv period = 0 := Int.tdiv_eq_zero_of_lt (by omega) (by omega)
      omega
  · intro h
    have hone : 1 ≤ (-span).tdiv period := by
      rw [Int.tdiv_eq_ediv_of_nonneg (by omega)]
      apply (Int.le_ediv_iff_mul_le hp).mpr
      omega
    omega

end EnipAdapter.Foundation
