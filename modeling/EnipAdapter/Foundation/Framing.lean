import Mathlib.Data.List.Basic

/-!
# Self-delimiting streams

A framing cuts items off the head of a stream. What it needs to be usable on a stream that
arrives in pieces is one law: a decision taken on a buffer stands when more of the stream
arrives behind it. The law is a field of `Framing`, so that the items of a stream are the
same list however the stream was cut into reads.
-/

set_option autoImplicit false

namespace EnipAdapter.Foundation

/-- A rule that cuts the head of a stream off. `scan` answers `none` where there is nothing
to cut yet, and otherwise how many symbols it takes and the item they carry; filler carries
no item. -/
structure Framing (α F : Type) where
  scan : List α → Option (Option F × ℕ)
  used_pos : ∀ {src : List α} {x : Option F} {n : ℕ}, scan src = some (x, n) → 0 < n
  used_le : ∀ {src : List α} {x : Option F} {n : ℕ}, scan src = some (x, n) → n ≤ src.length
  stable : ∀ {src : List α} {x : Option F} {n : ℕ} (more : List α),
    scan src = some (x, n) → scan (src ++ more) = some (x, n)

namespace Framing

variable {α F : Type} (M : Framing α F)

/-- The items a stream carries, in order, up to the first point where nothing can be cut. -/
def frames (src : List α) : List F :=
  match _h : M.scan src with
  | none => []
  | some (x, n) => x.toList ++ frames (src.drop n)
termination_by src.length
decreasing_by
  have hpos := M.used_pos _h
  have hle := M.used_le _h
  simp only [List.length_drop]
  omega

/-- One cut, then the items of what is left. -/
theorem frames_of_some {src : List α} {x : Option F} {n : ℕ} (h : M.scan src = some (x, n)) :
    M.frames src = x.toList ++ M.frames (src.drop n) := by
  rw [frames]
  split
  · rename_i hs
    rw [h] at hs
    cases hs
  · rename_i hs
    rw [h] at hs
    cases hs
    rfl

/-- A cut taken on a buffer is the first cut of every stream that starts with it. -/
theorem frames_append {src : List α} {x : Option F} {n : ℕ} (more : List α)
    (h : M.scan src = some (x, n)) :
    M.frames (src ++ more) = x.toList ++ M.frames (src.drop n ++ more) := by
  rw [M.frames_of_some (M.stable more h), List.drop_append_of_le_length (M.used_le h)]

/-- Nothing to cut means no items. -/
theorem frames_of_none {src : List α} (h : M.scan src = none) : M.frames src = [] := by
  rw [frames]
  split
  · rfl
  · rename_i hs
    rw [h] at hs
    cases hs

/-! ## What is left behind the last cut -/

/-- The stream behind its last cut. -/
def rest (src : List α) : List α :=
  match _h : M.scan src with
  | none => src
  | some (_, n) => rest (src.drop n)
termination_by src.length
decreasing_by
  have hpos := M.used_pos _h
  have hle := M.used_le _h
  simp only [List.length_drop]
  omega

/-- A source without a complete frame is left as it is. -/
theorem rest_of_none {src : List α} (h : M.scan src = none) : M.rest src = src := by
  rw [rest]
  split
  · rfl
  · rename_i hs
    rw [h] at hs
    cases hs

/-- What is left after a frame is what is left of the source behind it. -/
theorem rest_of_some {src : List α} {x : Option F} {n : ℕ} (h : M.scan src = some (x, n)) :
    M.rest src = M.rest (src.drop n) := by
  rw [rest]
  split
  · rename_i hs
    rw [h] at hs
    cases hs
  · rename_i hs
    rw [h] at hs
    cases hs
    rfl

/-- Induction along the cuts of a stream. -/
theorem cut_induction {P : List α → Prop} (stuck : ∀ src, M.scan src = none → P src)
    (cut : ∀ src x n, M.scan src = some (x, n) → P (src.drop n) → P src) (src : List α) :
    P src := by
  induction hlen : src.length using Nat.strongRecOn generalizing src with
  | ind len ih =>
      cases hs : M.scan src with
      | none => exact stuck src hs
      | some found =>
          have hpos := M.used_pos hs
          have hle := M.used_le hs
          apply cut src found.1 found.2 hs
          apply ih (src.drop found.2).length _ _ rfl
          rw [List.length_drop]
          omega

/-- Behind the last cut there is nothing to cut. -/
theorem scan_rest (src : List α) : M.scan (M.rest src) = none := by
  induction src using M.cut_induction with
  | stuck src h => rwa [M.rest_of_none h]
  | cut src x n h ih => rwa [M.rest_of_some h]

/-- Where a stream was cut into reads does not matter: the items of the whole are those of the
first read and then those of its rest with the second read behind it. -/
theorem frames_append_rest (src more : List α) :
    M.frames (src ++ more) = M.frames src ++ M.frames (M.rest src ++ more) := by
  induction src using M.cut_induction with
  | stuck src h => rw [M.frames_of_none h, M.rest_of_none h, List.nil_append]
  | cut src x n h ih =>
      rw [M.frames_append more h, ih, M.frames_of_some h, M.rest_of_some h, List.append_assoc]

/-- What is left does not depend on it either. -/
theorem rest_append_rest (src more : List α) :
    M.rest (src ++ more) = M.rest (M.rest src ++ more) := by
  induction src using M.cut_induction with
  | stuck src h => rw [M.rest_of_none h]
  | cut src x n h ih =>
      rw [M.rest_of_some (M.stable more h), List.drop_append_of_le_length (M.used_le h), ih,
        M.rest_of_some h]

end Framing

end EnipAdapter.Foundation
