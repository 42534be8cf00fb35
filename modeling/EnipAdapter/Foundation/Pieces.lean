import Mathlib.Data.List.Basic

/-!
# Values moved in pieces

A long value is moved as pieces that each say where they belong. A store that puts every piece
at its offset holds the value once the pieces have covered it without a gap, whatever it held
before.
-/

set_option autoImplicit false

namespace EnipAdapter.Foundation

/-- A piece of a value and the place it belongs to. -/
structure Piece (α : Type) where
  offset : ℕ
  data : List α

section Store

variable {α : Type}

/-- Put a piece at its offset; a gap before it is filled with blanks. -/
def storeAt (blank : α) (content : List α) (p : Piece α) : List α :=
  (content ++ List.replicate (p.offset - content.length) blank).take p.offset ++ p.data ++
    content.drop (p.offset + p.data.length)

/-- The pieces follow one another without a gap from an offset on. -/
def Contiguous : ℕ → List (Piece α) → Prop
  | _, [] => True
  | offset, p :: ps => p.offset = offset ∧ Contiguous (offset + p.data.length) ps

/-- What the pieces carry, one after the other. -/
def joinedData (ps : List (Piece α)) : List α := ps.flatMap Piece.data

/-- A piece that starts where the head of the content ends takes the place of what was there. -/
theorem storeAt_append (blank : α) (head tail : List α) {p : Piece α}
    (h : p.offset = head.length) :
    storeAt blank (head ++ tail) p = head ++ p.data ++ tail.drop p.data.length := by
  have hgap : p.offset - (head ++ tail).length = 0 := by
    rw [List.length_append]
    omega
  rw [storeAt, hgap, List.replicate_zero, List.append_nil, h, List.take_left, List.drop_append,
    List.drop_of_length_le (Nat.le_add_right _ _), List.nil_append, Nat.add_sub_cancel_left]

/-- Pieces stored one after the other from an offset on replace what was there by what they
carry. -/
theorem foldl_storeAt (blank : α) (head tail : List α) {ps : List (Piece α)}
    (h : Contiguous head.length ps) :
    ps.foldl (storeAt blank) (head ++ tail) =
      head ++ joinedData ps ++ tail.drop (joinedData ps).length := by
  induction ps generalizing head tail with
  | nil => simp [joinedData]
  | cons p ps ih =>
      obtain ⟨hoffset, hlater⟩ := h
      have hnext : Contiguous (head ++ p.data).length ps := by
        rwa [List.length_append]
      have hjoined : joinedData (p :: ps) = p.data ++ joinedData ps := List.flatMap_cons
      rw [List.foldl_cons, storeAt_append blank head tail hoffset, ih _ _ hnext, hjoined,
        List.drop_drop, List.length_append, List.append_assoc head]

end Store

end EnipAdapter.Foundation
