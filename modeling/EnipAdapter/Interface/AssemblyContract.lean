import EnipAdapter.Foundation.BitCells
import EnipAdapter.Interface.RoundTripContract
import EnipAdapter.Model.AssemblyDecode

/-!
# What an assembly layout promises

A field stands for some cells of the assembly: one bit, or every bit of its span. Reading a
field gives the little-endian value of its cells, and writing some fields is to leave every
cell of the others as it was. Fields may overlap, so both are said cell by cell.
-/

set_option autoImplicit false

namespace EnipAdapter.Interface

open EnipAdapter.Foundation EnipAdapter.Model

/-! ## Reading -/

/-- The element of a type whose bytes, least significant first, denote `n`: signed types in
two's complement, floating point by its bit pattern. -/
def elementOf (ty : CipType) (n : ℕ) : CipValue :=
  match ty with
  | .bool => .bool (n != 0)
  | .sint => .sint (Int8.ofNat n)
  | .int => .int (Int16.ofNat n)
  | .dint => .dint (Int32.ofNat n)
  | .lint => .lint (Int64.ofNat n)
  | .usint => .usint (UInt8.ofNat n)
  | .uint => .uint (UInt16.ofNat n)
  | .udint => .udint (UInt32.ofNat n)
  | .ulint => .ulint (UInt64.ofNat n)
  | .real => .real ⟨UInt32.ofNat n⟩
  | .lreal => .lreal ⟨UInt64.ofNat n⟩
  | .byte => .byte (UInt8.ofNat n)
  | .word => .word (UInt16.ofNat n)
  | .dword => .dword (UInt32.ofNat n)
  | .lword => .lword (UInt64.ofNat n)
  -- The other types have no element of a fixed size, and no field has them.
  | .string | .struct | .unknown _ => .unsupported ty.code 0

/-- The elements of `size` bytes each that `bytes` hold, one after the other. -/
def elementsIn (ty : CipType) (size count : ℕ) (bytes : Bytes) : List CipValue :=
  (List.range count).map fun k => elementOf ty (ofLeBytes ((bytes.drop (k * size)).take size))

/-- The width of one element of a field. -/
def elementWidth (f : FieldSpec) : ℕ := f.ty.elementSize.getD 0

/-- The number of bytes of a field. -/
def fieldSpan (f : FieldSpec) : ℕ := elementWidth f * f.count

/-- What a field reads as: its bit, or the elements of its span. -/
def reading (f : FieldSpec) (data : Bytes) : CipValue :=
  match f.bit with
  | some bit => .bool (cellBit data ⟨f.offset, bit.toNat⟩)
  | none => ofElements f.ty
      (elementsIn f.ty (elementWidth f) f.count ((data.drop f.offset).take (fieldSpan f)))

/-! ## Writing -/

/-- The cells a field stands for. -/
def fieldCells (f : FieldSpec) : Set Cell :=
  match f.bit with
  | some bit => {⟨f.offset, bit.toNat⟩}
  | none => byteCells f.offset (fieldSpan f)

/-- The field a key names. -/
def namedField (layout : AssemblyLayout) (key : ℕ) : Option FieldSpec :=
  layout.fields.find? (·.key == key)

/-- The cells of the fields that some values name. -/
def namedCells (layout : AssemblyLayout) (values : List (ℕ × CipValue)) : Set Cell :=
  fun c => ∃ kv ∈ values, ∃ f, namedField layout kv.1 = some f ∧ c ∈ fieldCells f

/-- Whatever the buffer, writing the values leaves every other cell as it was. -/
def StaysInside (layout : AssemblyLayout) (values : List (ℕ × CipValue)) : Prop :=
  ∀ buf : Bytes, buf.length = layout.dataSize →
    ∀ out, layout.encodeInto values buf = .ok out → AgreeOn (namedCells layout values)ᶜ out buf

/-- A bit takes a BOOL; another field takes a value of its type and element count, whose bytes
end inside the assembly. -/
def Takes (dataSize : ℕ) (f : FieldSpec) (v : CipValue) : Prop :=
  match f.bit with
  | some _ => ∃ set, v = .bool set
  | none => v.wireType = f.ty ∧ v.elementCount = f.count ∧
      ∃ bytes, v.encodeValue = .ok bytes ∧ f.offset + bytes.length ≤ dataSize

/-- Every value names a field that takes it. -/
def Accepts (layout : AssemblyLayout) (values : List (ℕ × CipValue)) : Prop :=
  ∀ kv ∈ values, ∃ f, namedField layout kv.1 = some f ∧ Takes layout.dataSize f kv.2

/-- The bytes of every value for a field of bytes lie in the fields that the list names. -/
def EncodesWithin (layout : AssemblyLayout) (values : List (ℕ × CipValue)) : Prop :=
  ∀ kv ∈ values, ∀ f, namedField layout kv.1 = some f → f.bit = none →
    ∀ bytes, kv.2.encodeValue = .ok bytes →
      byteCells f.offset bytes.length ⊆ namedCells layout values

/-! ## Reading back -/

/-- Where a value is an array, all of its elements are scalars of its declared type. -/
def Homogeneous (v : CipValue) : Prop :=
  ∀ ty elems, v = .array ty elems → ∀ e ∈ elems, ScalarOf ty e

/-- A value as it reads back: an array of one element is that element. -/
def asRead : CipValue → CipValue
  | .array _ [v] => v
  | v => v

end EnipAdapter.Interface
