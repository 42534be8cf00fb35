import Mathlib.Algebra.BigOperators.Fin
import Mathlib.Algebra.Order.BigOperators.Group.Finset

/-!
# Earliest deadline first

One server takes the jobs one at a time, always one whose deadline has passed longest ago, and
moves its deadline on by an interval, but never to before the instant it was taken. A job that is
due with deadline `due` is passed over by another job at most twice: the first time moves the
deadline of the other job to `due` or later, the second time past it. `bypass` adds up how often
the others may still go first, and every turn of another job lowers it.
-/

set_option autoImplicit false

namespace EnipAdapter.Foundation

universe u

variable {ι : Type u}

/-- The next deadline of a job that was taken at `now`. -/
def rearmed (deadline interval now : ℕ) : ℕ := max (deadline + interval) now

/-- How often a job with this deadline may be taken before one that is due at `due`. -/
def turnsBefore (due deadline : ℕ) : ℕ :=
  if deadline < due then 2 else if deadline = due then 1 else 0

/-- How often some jobs may together be taken before one that is due at `due`. -/
def bypass (jobs : Finset ι) (due : ℕ) (deadline : ι → ℕ) : ℕ :=
  ∑ j ∈ jobs, turnsBefore due (deadline j)

/-- A job is taken at most twice before one that is due. -/
theorem turnsBefore_le_two (due deadline : ℕ) : turnsBefore due deadline ≤ 2 := by
  unfold turnsBefore
  split
  · exact le_rfl
  · split <;> omega

/-- A job with a later deadline is served no more often. -/
theorem turnsBefore_antitone {due a b : ℕ} (h : a ≤ b) : turnsBefore due b ≤ turnsBefore due a := by
  unfold turnsBefore
  split_ifs <;> omega

/-- A turn at or after `due` of a job that could go first takes one of its turns away. -/
theorem turnsBefore_rearmed {due deadline interval now : ℕ} (hpos : 0 < interval)
    (hnow : due ≤ now) (hfirst : deadline ≤ due) :
    turnsBefore due (rearmed deadline interval now) < turnsBefore due deadline := by
  unfold turnsBefore rearmed
  rcases Nat.lt_or_eq_of_le hfirst with hlt | heq
  · rw [if_pos hlt, if_neg (by omega)]
    split <;> omega
  · rw [if_neg (by omega), if_pos heq, if_neg (by omega), if_neg (by omega)]
    exact Nat.one_pos

/-- A job that is due waits for at most two turns of each of the others. -/
theorem bypass_le (jobs : Finset ι) (due : ℕ) (deadline : ι → ℕ) :
    bypass jobs due deadline ≤ 2 * jobs.card := by
  have hsum := Finset.sum_le_card_nsmul jobs (fun j => turnsBefore due (deadline j)) 2
    fun j _ => turnsBefore_le_two due (deadline j)
  rw [smul_eq_mul, Nat.mul_comm] at hsum
  exact hsum

/-- Later deadlines leave fewer turns. -/
theorem bypass_antitone {jobs : Finset ι} {due : ℕ} {a b : ι → ℕ} (h : ∀ j ∈ jobs, a j ≤ b j) :
    bypass jobs due b ≤ bypass jobs due a :=
  Finset.sum_le_sum fun j hj => turnsBefore_antitone (h j hj)

/-- A turn of another job at or after `due` takes away one of the turns that were left. -/
theorem bypass_rearmed {jobs : Finset ι} {due interval now : ℕ} {a b : ι → ℕ} {i : ι}
    (hi : i ∈ jobs) (hpos : 0 < interval) (hnow : due ≤ now) (hfirst : a i ≤ due)
    (hthis : b i = rearmed (a i) interval now) (hothers : ∀ j, j ≠ i → b j = a j) :
    bypass jobs due b < bypass jobs due a := by
  apply Finset.sum_lt_sum
  · intro j _
    by_cases hj : j = i
    · rw [hj, hthis]
      exact (turnsBefore_rearmed hpos hnow hfirst).le
    · rw [hothers j hj]
  · refine ⟨i, hi, ?_⟩
    rw [hthis]
    exact turnsBefore_rearmed hpos hnow hfirst

end EnipAdapter.Foundation
