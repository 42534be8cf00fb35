import EnipAdapter.Model.Message

/-!
# Tag addresses

The parser of Logix symbolic tag paths (`cip/epath.rs`, `TagAddress::parse`): dotted
components, each a number or a name with an optional bracket group of indices. The text is a
list of characters; every character the grammar admits is one byte long, so a limit in bytes
is a limit in characters.
-/

set_option autoImplicit false

namespace EnipAdapter.Model

inductive PathError where
  | empty
  | emptyComponent
  | invalidName
  | invalidIndex
  | numberOverflow
deriving DecidableEq, Repr

def PathError.display : PathError → String
  | .empty => "empty tag path"
  | .emptyComponent => "empty path component"
  | .invalidName => "invalid symbol name"
  | .invalidIndex => "invalid array index"
  | .numberOverflow => "index out of range"

structure TagAddress where
  path : EPath
  display : String
deriving DecidableEq, Repr

/-- The number a digit string denotes. -/
def digitsValue (text : List Char) : ℕ :=
  text.foldl (fun n c => n * 10 + (c.toNat - '0'.toNat)) 0

def parseIndex (text : List Char) : Except PathError UInt32 :=
  if text = [] ∨ text.all Char.isDigit = false then .error .invalidIndex
  else if digitsValue text < 2 ^ 32 then .ok (UInt32.ofNat (digitsValue text))
  else .error .numberOverflow

/-- The first and the later characters of a symbol name. -/
def validateName (name : List Char) : Except PathError Unit :=
  match name with
  | [] => .error .invalidName
  | first :: _ =>
    if name.length > 255 then .error .invalidName
    else if (first.isAlpha || first == '_') = false then .error .invalidName
    else if name.all (fun c => c.isAlphanum || c == '_' || c == ':') then .ok ()
    else .error .invalidName

/-- Comma-separated indices, each its own element segment. -/
def parseIndices : List (List Char) → Except PathError (List Segment)
  | [] => .ok []
  | text :: rest => do
    let index ← parseIndex text
    let segments ← parseIndices rest
    pure (.element index :: segments)

/-- A bracket group: the brackets off, at least one index between them. -/
def parseIndexGroup (group : List Char) : Except PathError (List Segment) :=
  match group with
  | '[' :: rest =>
    if rest.getLast? ≠ some ']' ∨ rest.dropLast = [] then .error .invalidIndex
    else parseIndices (rest.dropLast.splitOn ',')
  | _ => .error .invalidIndex

def parseComponent (component : List Char) : Except PathError (List Segment) :=
  match component with
  | [] => .error .emptyComponent
  | first :: _ =>
    if first.isDigit then do
      let index ← parseIndex component
      pure [.element index]
    else do
      let name := component.takeWhile (· != '[')
      let group := component.dropWhile (· != '[')
      validateName name
      if group = [] then pure [.symbol (String.ofList name)]
      else
        let indices ← parseIndexGroup group
        pure (.symbol (String.ofList name) :: indices)

def parseComponents : List (List Char) → Except PathError (List Segment)
  | [] => .ok []
  | component :: rest => do
    let head ← parseComponent component
    let segments ← parseComponents rest
    pure (head ++ segments)

def TagAddress.parse (input : String) : Except PathError TagAddress :=
  if input = "" then .error .empty
  else do
    let segments ← parseComponents (input.toList.splitOn '.')
    pure ⟨⟨segments⟩, input⟩

end EnipAdapter.Model
