import EnipAdapter.Model.TagAddress

/-!
# The grammar of tag paths

A tag path is a list of components with dots between them. A component is a number, or a name
with any number of indices between brackets behind it. Here is the grammar as a type of parsed
components, with the text each of them is written as and the segments it stands for.
-/

set_option autoImplicit false

namespace EnipAdapter.Interface

open EnipAdapter.Model

/-- One component of a tag path: a number by its digits, or a name with its indices, none where
there are no brackets. -/
inductive TagComponent where
  | number (digits : List Char)
  | named (name : List Char) (indices : List (List Char))

/-- A digit string whose value a `u32` holds. -/
def IsIndex (text : List Char) : Prop :=
  text ≠ [] ∧ (∀ c ∈ text, c.isDigit = true) ∧ digitsValue text < 2 ^ 32

/-- A symbol name: an ASCII letter or an underscore first, then also digits and colons. -/
def IsName (name : List Char) : Prop :=
  1 ≤ name.length ∧ name.length ≤ 255 ∧
    (∀ c ∈ name.head?, c.isAlpha = true ∨ c = '_') ∧
    ∀ c ∈ name.tail, c.isAlphanum = true ∨ c = '_' ∨ c = ':'

namespace TagComponent

def WellFormed : TagComponent → Prop
  | number digits => IsIndex digits
  | named name indices => IsName name ∧ ∀ index ∈ indices, IsIndex index

/-- A component as it is written. -/
def text : TagComponent → List Char
  | number digits => digits
  | named name [] => name
  | named name indices => name ++ '[' :: ([','].intercalate indices ++ [']'])

/-- The segment of one index or number. -/
def elementSegment (digits : List Char) : Segment := .element (UInt32.ofNat (digitsValue digits))

/-- The segments a component stands for. -/
def segments : TagComponent → List Segment
  | number digits => [elementSegment digits]
  | named name indices => .symbol (String.ofList name) :: indices.map elementSegment

end TagComponent

/-- The text is a list of well-formed components with dots between them, at least one of them. -/
def IsTagPath (text : List Char) (components : List TagComponent) : Prop :=
  components ≠ [] ∧ (∀ c ∈ components, c.WellFormed) ∧
    text = ['.'].intercalate (components.map TagComponent.text)

end EnipAdapter.Interface
