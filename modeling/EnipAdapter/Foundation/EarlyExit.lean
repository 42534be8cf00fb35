import Mathlib.Data.List.Basic

/-!
# Loops with an early return

A `for` loop whose body may leave the function threads its accumulators through the elements
and stops at the first one that returns. `runUntil` is that loop. When the body's decision to
stop does not depend on the accumulators, the loop is a plain fold over the elements it
visits (`upTo`), and an element is visited exactly when nothing before it stopped the loop.
-/

set_option autoImplicit false

namespace EnipAdapter.Foundation

universe u v w

variable {σ : Type u} {α : Type v} {ε : Type w}

/-- Run `body` over a list, keeping the accumulators reached when it returns early. -/
def runUntil (body : σ → α → σ × Option ε) : σ → List α → σ × Option ε
  | s, [] => (s, none)
  | s, x :: xs =>
    let (s', stop) := body s x
    match stop with
    | none => runUntil body s' xs
    | some e => (s', some e)

/-- The elements a loop visits: up to and including the first that stops it. -/
def upTo (stop : α → Option ε) : List α → List α
  | [] => []
  | x :: xs => if (stop x).isSome then [x] else x :: upTo stop xs

/-- A loop whose early return does not depend on the accumulators is a fold over the elements
it visits. -/
theorem runUntil_eq_foldl {body : σ → α → σ × Option ε} {f : σ → α → σ} {stop : α → Option ε}
    (h : ∀ s x, body s x = (f s x, stop x)) (s : σ) (xs : List α) :
    runUntil body s xs = ((upTo stop xs).foldl f s, xs.findSome? stop) := by
  induction xs generalizing s with
  | nil => rfl
  | cons x xs ih =>
    simp only [runUntil, upTo, h, List.findSome?_cons]
    cases hstop : stop x with
    | none => simpa using ih (f s x)
    | some e => simp

/-- The visited elements are a prefix of the list. -/
theorem upTo_initial_segment (stop : α → Option ε) (xs : List α) : upTo stop xs <+: xs := by
  induction xs with
  | nil => exact List.prefix_refl []
  | cons x xs ih =>
    unfold upTo
    split
    · exact ⟨xs, rfl⟩
    · exact List.prefix_cons_inj x |>.mpr ih

/-- A loop that nothing stops visits every element. -/
theorem upTo_eq_self {stop : α → Option ε} {xs : List α} (h : xs.findSome? stop = none) :
    upTo stop xs = xs := by
  induction xs with
  | nil => rfl
  | cons x xs ih =>
    rw [List.findSome?_eq_none_iff] at h
    have hx : stop x = none := h x List.mem_cons_self
    have hxs : xs.findSome? stop = none :=
      List.findSome?_eq_none_iff.mpr fun y hy => h y (List.mem_cons_of_mem x hy)
    simp [upTo, hx, ih hxs]

/-- An element is visited exactly when nothing before it stopped the loop. -/
theorem getElem?_upTo {stop : α → Option ε} {xs : List α} {i : ℕ} {x : α} :
    (upTo stop xs)[i]? = some x ↔
      xs[i]? = some x ∧ ∀ j y, j < i → xs[j]? = some y → stop y = none := by
  induction xs generalizing i with
  | nil => simp [upTo]
  | cons a xs ih =>
    cases hstop : stop a with
    | some e =>
      cases i with
      | zero => simp [upTo, hstop]
      | succ i =>
        constructor
        · intro h
          simp [upTo, hstop] at h
        · rintro ⟨_, h⟩
          have hnone := h 0 a (Nat.succ_pos i) rfl
          rw [hstop] at hnone
          cases hnone
    | none =>
      cases i with
      | zero => simp [upTo, hstop]
      | succ i =>
        simp only [upTo, hstop, Option.isSome_none, Bool.false_eq_true, if_false,
          List.getElem?_cons_succ, ih]
        refine and_congr_right fun _ => ⟨?_, ?_⟩
        · intro h j y hj hy
          cases j with
          | zero =>
            cases hy
            exact hstop
          | succ j => exact h j y (Nat.lt_of_succ_lt_succ hj) hy
        · intro h j y hj hy
          exact h (j + 1) y (Nat.succ_lt_succ hj) hy

/-- A loop is stopped by the first element that stops it. -/
theorem findSome?_eq_some_index {stop : α → Option ε} {xs : List α} {e : ε} :
    xs.findSome? stop = some e ↔
      ∃ (j : ℕ) (x : α), xs[j]? = some x ∧ stop x = some e ∧
        ∀ (k : ℕ) (y : α), k < j → xs[k]? = some y → stop y = none := by
  induction xs with
  | nil => simp
  | cons a xs ih =>
    cases hstop : stop a with
    | some e' =>
      simp only [List.findSome?_cons, hstop]
      constructor
      · intro h
        exact ⟨0, a, rfl, hstop.trans h, fun k y hk => absurd hk (Nat.not_lt_zero k)⟩
      · rintro ⟨j, x, hx, hxe, hbefore⟩
        cases j with
        | zero =>
          cases hx
          exact hstop.symm.trans hxe
        | succ j =>
          have hnone := hbefore 0 a (Nat.succ_pos j) rfl
          rw [hstop] at hnone
          cases hnone
    | none =>
      simp only [List.findSome?_cons, hstop, ih]
      constructor
      · rintro ⟨j, x, hx, hxe, hbefore⟩
        refine ⟨j + 1, x, hx, hxe, fun k y hk hy => ?_⟩
        cases k with
        | zero =>
          cases hy
          exact hstop
        | succ k => exact hbefore k y (Nat.lt_of_succ_lt_succ hk) hy
      · rintro ⟨j, x, hx, hxe, hbefore⟩
        cases j with
        | zero =>
          cases hx
          rw [hstop] at hxe
          cases hxe
        | succ j =>
          exact ⟨j, x, hx, hxe, fun k y hk hy => hbefore (k + 1) y (Nat.succ_lt_succ hk) hy⟩

/-! ## Numbered loops -/

/-- A concatenation to which only position `i` contributes is that contribution. -/
theorem flatMap_eq_at {β : Type w} {xs : List α} {g : α → List β} {i : ℕ}
    (h : ∀ k x, xs[k]? = some x → k ≠ i → g x = []) :
    xs.flatMap g = (xs[i]?.map g).getD [] := by
  induction xs generalizing i with
  | nil => simp
  | cons a xs ih =>
    cases i with
    | zero =>
      have hrest : xs.flatMap g = [] := by
        rw [List.flatMap_eq_nil_iff]
        intro x hx
        obtain ⟨k, hk⟩ := List.mem_iff_getElem?.mp hx
        exact h (k + 1) x hk (Nat.succ_ne_zero k)
      simp [hrest]
    | succ i =>
      have ha : g a = [] := h 0 a rfl (Nat.succ_ne_zero i).symm
      have hrest := ih (i := i) fun k x hk hne => h (k + 1) x hk fun hki => hne (Nat.succ.inj hki)
      simpa [ha] using hrest

end EnipAdapter.Foundation
