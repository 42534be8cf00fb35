import Mathlib.Algebra.BigOperators.Group.List.Basic
import Mathlib.Algebra.GroupWithZero.Nat

/-!
# A counter and its reports

A counter keeps a total and the part of it that no report has shown yet. A report shows both and
starts that part again. Whatever the order of counting and reporting, everything counted is in
exactly one report or not reported yet: `Posted` says so of the reports of one counter, with a
rule for each of the two moves.
-/

set_option autoImplicit false

namespace EnipAdapter.Foundation

/-- Reports of a counter, each a total and the part of it that is new, next to the total and the
unreported part the counter has after them. -/
structure Posted (reports : List (ℕ × ℕ)) (total unreported : ℕ) : Prop where
  /-- A report's total is what was new in it and in the reports before it. -/
  entries : ∀ before report after, reports = before ++ report :: after →
    report.1 = (before.map Prod.snd).sum + report.2
  balance : total = (reports.map Prod.snd).sum + unreported

namespace Posted

/-- A counter that was never reported has all of its total unreported. -/
theorem start (n : ℕ) : Posted [] n n := by
  refine ⟨?_, by simp⟩
  intro before report after h
  simp at h

variable {reports : List (ℕ × ℕ)} {total unreported : ℕ}

/-- Counting adds to the total and to what is unreported. -/
theorem count (h : Posted reports total unreported) (n : ℕ) :
    Posted reports (total + n) (unreported + n) := by
  refine ⟨h.entries, ?_⟩
  rw [h.balance, Nat.add_assoc]

/-- A report shows what was unreported, and nothing is unreported after it. -/
theorem report (h : Posted reports total unreported) :
    Posted (reports ++ [(total, unreported)]) total 0 := by
  refine ⟨?_, ?_⟩
  · intro before entry after heq
    obtain rfl | ⟨last, rest, rfl⟩ := List.eq_nil_or_concat after
    · obtain ⟨rfl, hentry⟩ := List.append_inj' heq rfl
      obtain rfl : (total, unreported) = entry := by simpa using hentry
      exact h.balance
    · rw [List.concat_eq_append, ← List.cons_append, ← List.append_assoc] at heq
      exact h.entries before entry last (List.append_inj' heq rfl).1
  · rw [List.map_append, List.sum_append, h.balance]
    simp

/-- A counter that counted nothing is reported as nothing. -/
theorem zeros (h : Posted reports 0 0) {more : List (ℕ × ℕ)} (hmore : ∀ r ∈ more, r = (0, 0)) :
    Posted (reports ++ more) 0 0 := by
  induction more generalizing reports with
  | nil => rwa [List.append_nil]
  | cons r more ih =>
      obtain ⟨hzero, hrest⟩ := List.forall_mem_cons.mp hmore
      rw [hzero, ← List.singleton_append, ← List.append_assoc]
      exact ih h.report hrest

end Posted

end EnipAdapter.Foundation
