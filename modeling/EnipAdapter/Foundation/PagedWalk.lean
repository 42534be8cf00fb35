import Mathlib.Data.List.Basic
import Mathlib.Data.List.Flatten
import Mathlib.Order.Basic

/-!
# Walks over a paged enumeration

A server hands an enumeration out in pages, and every page but the last names the cursor that
asks for the next one. A walk asks with a first cursor and follows the cursors it is given. Two
rules say what a walk brings home: it is exhaustive when every page is the front of what its
cursor stands for, and it is finite and repeats nothing when the cursors advance.
-/

set_option autoImplicit false

namespace EnipAdapter.Foundation

variable {ε κ α β : Type}

structure Page (κ α : Type) where
  items : List α
  next : Option κ

/-- A request of a walk that was answered: its place, the cursor it asked with, and the page. -/
structure WalkStep (κ α : Type) where
  place : ℕ
  cursor : Option κ
  page : Page κ α

/-- Where a walk stands: at its end, at a refused request, or before a cursor to follow. -/
inductive WalkEnd (ε κ : Type) where
  | complete
  | failed (error : ε)
  | following (cursor : Option κ)

structure Walk (ε κ α : Type) where
  steps : List (WalkStep κ α)
  outcome : WalkEnd ε κ

/-- The walk that asks at most `fuel` times, from the n-th request on. -/
def walk (ask : ℕ → Option κ → Except ε (Page κ α)) : ℕ → ℕ → Option κ → Walk ε κ α
  | 0, _, cursor => ⟨[], .following cursor⟩
  | fuel + 1, n, cursor =>
    match ask n cursor with
    | .error e => ⟨[], .failed e⟩
    | .ok page =>
      match page.next with
      | none => ⟨[⟨n, cursor, page⟩], .complete⟩
      | some next =>
        let later := walk ask fuel (n + 1) (some next)
        ⟨⟨n, cursor, page⟩ :: later.steps, later.outcome⟩

/-- The items of the pages, in order. -/
def Walk.items (w : Walk ε κ α) : List α := w.steps.flatMap (·.page.items)

/-- How many requests the walk made: one for each page, and the refused one. -/
def Walk.requests (w : Walk ε κ α) : ℕ :=
  match w.outcome with
  | .failed _ => w.steps.length + 1
  | _ => w.steps.length

variable {ask : ℕ → Option κ → Except ε (Page κ α)}

/-- A request that fails ends the walk. -/
theorem walk_error {n : ℕ} {cursor : Option κ} {e : ε} (fuel : ℕ) (h : ask n cursor = .error e) :
    walk ask (fuel + 1) n cursor = ⟨[], .failed e⟩ := by
  rw [walk, h]

/-- A page without a cursor ends the walk. -/
theorem walk_last {n : ℕ} {cursor : Option κ} {page : Page κ α} (fuel : ℕ)
    (h : ask n cursor = .ok page) (hnext : page.next = none) :
    walk ask (fuel + 1) n cursor = ⟨[⟨n, cursor, page⟩], .complete⟩ := by
  rw [walk, h]
  simp only [hnext]

/-- A page with a cursor is followed. -/
theorem walk_follow {n : ℕ} {cursor : Option κ} {page : Page κ α} {next : κ} (fuel : ℕ)
    (h : ask n cursor = .ok page) (hnext : page.next = some next) :
    walk ask (fuel + 1) n cursor =
      ⟨⟨n, cursor, page⟩ :: (walk ask fuel (n + 1) (some next)).steps,
        (walk ask fuel (n + 1) (some next)).outcome⟩ := by
  rw [walk, h]
  simp only [hnext]

/-- Every step of a walk is a request that was answered with its page. -/
theorem ask_of_mem_steps {fuel n : ℕ} {cursor : Option κ} {step : WalkStep κ α}
    (h : step ∈ (walk ask fuel n cursor).steps) :
    ask step.place step.cursor = .ok step.page := by
  induction fuel generalizing n cursor with
  | zero => cases h
  | succ fuel ih =>
      cases hask : ask n cursor with
      | error e =>
          rw [walk_error fuel hask] at h
          cases h
      | ok page =>
          cases hnext : page.next with
          | none =>
              rw [walk_last fuel hask hnext] at h
              obtain rfl := List.mem_singleton.mp h
              exact hask
          | some next =>
              rw [walk_follow fuel hask hnext] at h
              rcases List.mem_cons.mp h with rfl | hlater
              · exact hask
              · exact ih hlater

/-! ## Exhaustive walks -/

/-- The page of a cursor that stands for `rest` is the front of `rest`: all of it, or a part
whose own cursor stands for what is left. -/
def ServesFront (standsFor : Option κ → List α → Prop) (page : Page κ α) (rest : List α) : Prop :=
  (page.next = none ∧ page.items = rest) ∨
    ∃ next left, page.next = some next ∧ page.items ≠ [] ∧ rest = page.items ++ left ∧
      standsFor (some next) left

/-- A walk whose pages are all fronts and that has ended has brought the list its first cursor
stands for. -/
theorem walk_items_of_complete {standsFor : Option κ → List α → Prop}
    (hpage : ∀ n cursor rest, standsFor cursor rest →
      ∃ page, ask n cursor = .ok page ∧ ServesFront standsFor page rest)
    {fuel n : ℕ} {cursor : Option κ} {rest : List α} (hcursor : standsFor cursor rest)
    (hend : (walk ask fuel n cursor).outcome = .complete) :
    (walk ask fuel n cursor).items = rest := by
  induction fuel generalizing n cursor rest with
  | zero => cases hend
  | succ fuel ih =>
      obtain ⟨page, hask, hfront⟩ := hpage n cursor rest hcursor
      rcases hfront with ⟨hnext, hitems⟩ | ⟨next, left, hnext, hne, hrest, hleft⟩
      · rw [walk_last fuel hask hnext]
        simp [Walk.items, hitems]
      · rw [walk_follow fuel hask hnext] at hend ⊢
        rw [hrest, ← ih hleft hend]
        rfl

/-- It ends, after one request for each item and one more at the most. -/
theorem walk_complete {standsFor : Option κ → List α → Prop}
    (hpage : ∀ n cursor rest, standsFor cursor rest →
      ∃ page, ask n cursor = .ok page ∧ ServesFront standsFor page rest)
    {fuel n : ℕ} {cursor : Option κ} {rest : List α} (hcursor : standsFor cursor rest)
    (hfuel : rest.length < fuel) :
    (walk ask fuel n cursor).outcome = .complete ∧
      (walk ask fuel n cursor).steps.length ≤ rest.length + 1 := by
  induction fuel generalizing n cursor rest with
  | zero => omega
  | succ fuel ih =>
      obtain ⟨page, hask, hfront⟩ := hpage n cursor rest hcursor
      rcases hfront with ⟨hnext, hitems⟩ | ⟨next, left, hnext, hne, hrest, hleft⟩
      · rw [walk_last fuel hask hnext]
        exact ⟨rfl, by simp⟩
      · have hpos := List.length_pos_of_ne_nil hne
        have hlength : rest.length = page.items.length + left.length := by
          rw [hrest, List.length_append]
        obtain ⟨hend, hsteps⟩ := ih (n := n + 1) hleft (by omega)
        rw [walk_follow fuel hask hnext]
        refine ⟨hend, ?_⟩
        simp only [List.length_cons]
        omega

/-! ## Walks that advance -/

/-- A walk whose cursors advance below a bound asks no more often than there are places left. -/
theorem walk_requests_le {position : Option κ → ℕ} {bound fuel n : ℕ} {cursor : Option κ}
    (hadvance : ∀ step ∈ (walk ask fuel n cursor).steps, ∀ next, step.page.next = some next →
      position step.cursor < position (some next) ∧ position (some next) < bound)
    (hcursor : position cursor < bound) :
    (walk ask fuel n cursor).requests ≤ bound - position cursor := by
  induction fuel generalizing n cursor with
  | zero =>
      simp only [walk, Walk.requests, List.length_nil]
      omega
  | succ fuel ih =>
      cases hask : ask n cursor with
      | error e =>
          rw [walk_error fuel hask]
          simp only [Walk.requests, List.length_nil]
          omega
      | ok page =>
          cases hnext : page.next with
          | none =>
              rw [walk_last fuel hask hnext]
              simp only [Walk.requests, List.length_cons, List.length_nil]
              omega
          | some next =>
              rw [walk_follow fuel hask hnext] at hadvance ⊢
              obtain ⟨hlt, hbound⟩ : position cursor < position (some next) ∧
                  position (some next) < bound := hadvance _ List.mem_cons_self next hnext
              have hlater : (walk ask fuel (n + 1) (some next)).requests ≤
                  bound - position (some next) :=
                ih (fun step hstep => hadvance step (List.mem_cons_of_mem _ hstep)) hbound
              unfold Walk.requests at hlater ⊢
              cases hend : (walk ask fuel (n + 1) (some next)).outcome <;>
                simp only [hend, List.length_cons] at hlater ⊢ <;> omega

/-- When the items of every page lie between its cursor and the next one, everything a walk
brings lies at or above its first cursor. -/
theorem walk_items_ge {position : Option κ → ℕ} {key : α → ℕ} {fuel n : ℕ} {cursor : Option κ}
    (hbetween : ∀ step ∈ (walk ask fuel n cursor).steps,
      (∀ a ∈ step.page.items, position step.cursor ≤ key a) ∧
        ∀ next, step.page.next = some next → position step.cursor ≤ position (some next)) :
    ∀ step ∈ (walk ask fuel n cursor).steps, ∀ a ∈ step.page.items, position cursor ≤ key a := by
  induction fuel generalizing n cursor with
  | zero =>
      intro step hstep
      cases hstep
  | succ fuel ih =>
      cases hask : ask n cursor with
      | error e =>
          rw [walk_error fuel hask]
          intro step hstep
          cases hstep
      | ok page =>
          cases hnext : page.next with
          | none =>
              rw [walk_last fuel hask hnext] at hbetween ⊢
              intro step hstep
              obtain rfl := List.mem_singleton.mp hstep
              exact (hbetween _ List.mem_cons_self).1
          | some next =>
              rw [walk_follow fuel hask hnext] at hbetween ⊢
              intro step hstep a ha
              rcases List.mem_cons.mp hstep with rfl | hlater
              · exact (hbetween _ List.mem_cons_self).1 a ha
              · have hle : position cursor ≤ position (some next) :=
                  (hbetween _ List.mem_cons_self).2 next hnext
                have hkey := ih (fun s hs => hbetween s (List.mem_cons_of_mem _ hs)) step hlater a ha
                omega

/-- Such a walk brings no key twice, on whatever pages. -/
theorem walk_disjoint {position : Option κ → ℕ} {key : α → ℕ} {fuel n : ℕ} {cursor : Option κ}
    (hbetween : ∀ step ∈ (walk ask fuel n cursor).steps,
      (∀ a ∈ step.page.items, position step.cursor ≤ key a) ∧
        ∀ next, step.page.next = some next → position step.cursor ≤ position (some next) ∧
          ∀ a ∈ step.page.items, key a < position (some next)) :
    (walk ask fuel n cursor).steps.Pairwise fun first second =>
      ∀ a ∈ first.page.items, ∀ b ∈ second.page.items, key a ≠ key b := by
  induction fuel generalizing n cursor with
  | zero => exact List.Pairwise.nil
  | succ fuel ih =>
      cases hask : ask n cursor with
      | error e =>
          rw [walk_error fuel hask]
          exact List.Pairwise.nil
      | ok page =>
          cases hnext : page.next with
          | none =>
              rw [walk_last fuel hask hnext]
              exact List.pairwise_singleton _ _
          | some next =>
              rw [walk_follow fuel hask hnext] at hbetween ⊢
              have hlater : ∀ step ∈ (walk ask fuel (n + 1) (some next)).steps,
                  (∀ a ∈ step.page.items, position step.cursor ≤ key a) ∧
                    ∀ next, step.page.next = some next →
                      position step.cursor ≤ position (some next) := by
                intro step hstep
                have hs := hbetween step (List.mem_cons_of_mem _ hstep)
                exact ⟨hs.1, fun next' hn => (hs.2 next' hn).1⟩
              refine List.Pairwise.cons ?_
                (ih fun s hs => hbetween s (List.mem_cons_of_mem _ hs))
              intro step hstep a ha b hb
              have hbelow := ((hbetween _ List.mem_cons_self).2 next hnext).2 a ha
              have habove := walk_items_ge hlater step hstep b hb
              omega

end EnipAdapter.Foundation
