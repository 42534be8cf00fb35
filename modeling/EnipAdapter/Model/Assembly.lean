import EnipAdapter.Foundation.Binary64
import EnipAdapter.Model.Wire

/-!
# CIP values and assembly layouts

The elementary value codec (`cip/types.rs`, the write side) and the bounds-checked mapping
between typed fields and assembly bytes (`assembly.rs`, construction and `encode_into`).

A layout carries the proof that each of its fields passed the construction check, so a field
that does not fit the assembly cannot be part of one.
-/

set_option autoImplicit false

namespace EnipAdapter.Model

open EnipAdapter.Foundation

/-! ## Elementary types and values -/

inductive CipType where
  | bool | sint | int | dint | lint | usint | uint | udint | ulint | real | lreal
  | byte | word | dword | lword
  | string
  | struct
  | unknown (code : UInt16)
deriving DecidableEq, Repr

/-- The type a wire code names. -/
def CipType.fromCode (code : UInt16) : CipType :=
  match code.toNat with
  | 0xC1 => .bool
  | 0xC2 => .sint
  | 0xC3 => .int
  | 0xC4 => .dint
  | 0xC5 => .lint
  | 0xC6 => .usint
  | 0xC7 => .uint
  | 0xC8 => .udint
  | 0xC9 => .ulint
  | 0xCA => .real
  | 0xCB => .lreal
  | 0xD1 => .byte
  | 0xD2 => .word
  | 0xD3 => .dword
  | 0xD4 => .lword
  | 0xD0 => .string
  | 0x02A0 => .struct
  | _ => .unknown code

/-- The size of one element, for the types that have a fixed one. -/
def CipType.elementSize : CipType → Option ℕ
  | .bool | .sint | .usint | .byte => some 1
  | .int | .uint | .word => some 2
  | .dint | .udint | .real | .dword => some 4
  | .lint | .ulint | .lreal | .lword => some 8
  | .string | .struct | .unknown _ => none

inductive CipValue where
  | bool (v : Bool)
  | sint (v : Int8)
  | int (v : Int16)
  | dint (v : Int32)
  | lint (v : Int64)
  | usint (v : UInt8)
  | uint (v : UInt16)
  | udint (v : UInt32)
  | ulint (v : UInt64)
  | real (v : F32)
  | lreal (v : F64)
  | byte (v : UInt8)
  | word (v : UInt16)
  | dword (v : UInt32)
  | lword (v : UInt64)
  | array (ty : CipType) (elems : List CipValue)
  | struct (handle : UInt16) (bytesLen : ℕ)
  | unsupported (typeCode : UInt16) (bytesLen : ℕ)
deriving Repr

namespace CipValue

/-- The wire type of a value, an array's element type. -/
def wireType : CipValue → CipType
  | .bool _ => .bool
  | .sint _ => .sint
  | .int _ => .int
  | .dint _ => .dint
  | .lint _ => .lint
  | .usint _ => .usint
  | .uint _ => .uint
  | .udint _ => .udint
  | .ulint _ => .ulint
  | .real _ => .real
  | .lreal _ => .lreal
  | .byte _ => .byte
  | .word _ => .word
  | .dword _ => .dword
  | .lword _ => .lword
  | .array ty _ => ty
  | .struct _ _ => .struct
  | .unsupported code _ => CipType.fromCode code

mutual

/-- The value bytes, without a type prefix. -/
def encodeValue : CipValue → Except WireError Bytes
  | .bool v => .ok [if v then 0xFF else 0x00]
  | .sint v => .ok (putU8 v.toUInt8)
  | .int v => .ok (putU16 v.toUInt16)
  | .dint v => .ok (putU32 v.toUInt32)
  | .lint v => .ok (putU64 v.toUInt64)
  | .usint v => .ok (putU8 v)
  | .uint v => .ok (putU16 v)
  | .udint v => .ok (putU32 v)
  | .ulint v => .ok (putU64 v)
  | .real v => .ok (putU32 v.bits)
  | .lreal v => .ok (putU64 v.bits)
  | .byte v => .ok (putU8 v)
  | .word v => .ok (putU16 v)
  | .dword v => .ok (putU32 v)
  | .lword v => .ok (putU64 v)
  | .array _ elems => encodeElems elems
  | .struct _ _ | .unsupported _ _ =>
    .error (.malformed "cip value" "cannot encode struct/unsupported value")

/-- The bytes of an array's elements, in order. -/
def encodeElems : List CipValue → Except WireError Bytes
  | [] => .ok []
  | v :: vs => do
    let head ← encodeValue v
    let tail ← encodeElems vs
    pure (head ++ tail)

end

/-- How many elements a value stands for. -/
def elementCount : CipValue → ℕ
  | .array _ elems => elems.length
  | _ => 1

end CipValue

/-! ## Layouts -/

/-- One field of an assembly. `key` is the caller's index for it. -/
structure FieldSpec where
  key : ℕ
  offset : ℕ
  ty : CipType
  bit : Option UInt8
  count : ℕ
deriving DecidableEq, Repr

/-- A layout construction or runtime error. -/
inductive AssemblyError where
  | fieldOutOfBounds (key : ℕ)
  | zeroCount (key : ℕ)
  | invalidBitField (key : ℕ)
  | nonElementaryType (key : ℕ)
  | dataSizeMismatch (expected actual : ℕ)
  | unknownField (key : ℕ)
  | valueTypeMismatch (key : ℕ)
deriving DecidableEq, Repr

def AssemblyError.display : AssemblyError → String
  | .fieldOutOfBounds key => s!"assembly field {key} out of bounds"
  | .zeroCount key => s!"assembly field {key} has zero count"
  | .invalidBitField key => s!"assembly field {key} has an invalid bit selector"
  | .nonElementaryType key => s!"assembly field {key} is not an elementary type"
  | .dataSizeMismatch expected actual =>
    s!"assembly data size mismatch: expected {expected}, got {actual}"
  | .unknownField key => s!"unknown assembly field {key}"
  | .valueTypeMismatch key => s!"value type mismatch for assembly field {key}"

/-- The construction check of one field: a non-zero count, an elementary type, a valid bit
selector, and a span inside the assembly. A product or sum that overflows a machine word is
past every assembly size, so unbounded arithmetic gives the same verdict. -/
def FieldSpec.check (f : FieldSpec) (dataSize : ℕ) : Option AssemblyError :=
  if f.count = 0 then some (.zeroCount f.key)
  else
    match f.ty.elementSize with
    | none => some (.nonElementaryType f.key)
    | some size =>
      match f.bit with
      | some bit =>
        if f.ty ≠ .bool ∨ bit > 7 ∨ f.count ≠ 1 then some (.invalidBitField f.key)
        else if f.offset + size * f.count > dataSize then some (.fieldOutOfBounds f.key)
        else none
      | none =>
        if f.offset + size * f.count > dataSize then some (.fieldOutOfBounds f.key) else none

/-- A validated mapping between assembly bytes and typed fields. -/
structure AssemblyLayout where
  fields : List FieldSpec
  dataSize : ℕ
  /-- Every field passed the construction check. -/
  fits : ∀ f ∈ fields, f.check dataSize = none

namespace AssemblyLayout

/-- Validate the fields in order; the first failing one is the error. -/
def new (fields : List FieldSpec) (dataSize : ℕ) : Except AssemblyError AssemblyLayout :=
  match h : fields.findSome? (·.check dataSize) with
  | some e => .error e
  | none => .ok ⟨fields, dataSize, List.findSome?_eq_none_iff.mp h⟩

/-- A layout that was built keeps the fields and the size it was asked for. -/
theorem new_ok {fields : List FieldSpec} {dataSize : ℕ} {layout : AssemblyLayout}
    (h : new fields dataSize = .ok layout) :
    layout.fields = fields ∧ layout.dataSize = dataSize := by
  unfold new at h
  split at h
  · cases h
  · cases h
    exact ⟨rfl, rfl⟩

/-- Overwrite the bytes from `offset` on; `none` past the end of the buffer. -/
def overwrite (buf : Bytes) (offset : ℕ) (bytes : Bytes) : Option Bytes :=
  if offset + bytes.length ≤ buf.length then
    some (buf.take offset ++ bytes ++ buf.drop (offset + bytes.length))
  else none

/-- Insert one field's value, keeping the bytes around it. -/
def insertField (field : FieldSpec) (value : CipValue) (buf : Bytes) :
    Except AssemblyError Bytes :=
  match field.bit with
  | some bit =>
    match value with
    | .bool set =>
      match buf[field.offset]? with
      | none => .error (.fieldOutOfBounds field.key)
      | some slot =>
        let mask : UInt8 := if bit < 8 then 1 <<< bit else 0
        .ok (buf.set field.offset (if set then slot ||| mask else slot &&& ~~~mask))
    | _ => .error (.valueTypeMismatch field.key)
  | none =>
    if value.wireType ≠ field.ty then .error (.valueTypeMismatch field.key)
    else if value.elementCount ≠ field.count then .error (.valueTypeMismatch field.key)
    else
      match value.encodeValue with
      | .error _ => .error (.valueTypeMismatch field.key)
      | .ok bytes =>
        match overwrite buf field.offset bytes with
        | none => .error (.fieldOutOfBounds field.key)
        | some out => .ok out

/-- Insert values one after the other into a buffer. -/
def insertAll (layout : AssemblyLayout) :
    List (ℕ × CipValue) → Bytes → Except AssemblyError Bytes
  | [], buf => .ok buf
  | (key, value) :: rest, buf =>
    match layout.fields.find? (·.key == key) with
    | none => .error (.unknownField key)
    | some field => do
      let buf ← insertField field value buf
      insertAll layout rest buf

/-- Insert values into a buffer of exactly the assembly's size. -/
def encodeInto (layout : AssemblyLayout) (values : List (ℕ × CipValue)) (buf : Bytes) :
    Except AssemblyError Bytes :=
  if buf.length ≠ layout.dataSize then
    .error (.dataSizeMismatch layout.dataSize buf.length)
  else insertAll layout values buf

/-- Overwriting keeps the length of the buffer. -/
theorem overwrite_length {buf out bytes : Bytes} {offset : ℕ}
    (h : overwrite buf offset bytes = some out) : out.length = buf.length := by
  unfold overwrite at h
  split at h
  · cases h
    simp only [List.length_append, List.length_take, List.length_drop]
    omega
  · cases h

/-- Inserting a field keeps the length of the buffer. -/
theorem insertField_length {field : FieldSpec} {value : CipValue} {buf out : Bytes}
    (h : insertField field value buf = .ok out) : out.length = buf.length := by
  unfold insertField at h
  split at h
  · split at h
    · split at h
      · cases h
      · cases h
        exact List.length_set
    · cases h
  · split at h
    · cases h
    · split at h
      · cases h
      · split at h
        · cases h
        · split at h
          · cases h
          · rename_i hout
            cases h
            exact overwrite_length hout

/-- Inserting values keeps the length of the buffer. -/
theorem insertAll_length {layout : AssemblyLayout} {values : List (ℕ × CipValue)}
    {buf out : Bytes} (h : insertAll layout values buf = .ok out) :
    out.length = buf.length := by
  induction values generalizing buf with
  | nil =>
    cases h
    rfl
  | cons v rest ih =>
    obtain ⟨key, value⟩ := v
    simp only [insertAll] at h
    split at h
    · cases h
    · rename_i field _
      cases hf : insertField field value buf with
      | error e =>
        rw [hf] at h
        cases h
      | ok mid =>
        rw [hf] at h
        exact (ih h).trans (insertField_length hf)

/-- `encode_into` succeeds only on a buffer of the assembly's size and keeps that size. -/
theorem encodeInto_length {layout : AssemblyLayout} {values : List (ℕ × CipValue)}
    {buf out : Bytes} (h : encodeInto layout values buf = .ok out) :
    out.length = layout.dataSize ∧ buf.length = layout.dataSize := by
  unfold encodeInto at h
  split at h
  · cases h
  · rename_i hlen
    have hsize : buf.length = layout.dataSize := not_not.mp hlen
    exact ⟨(insertAll_length h).trans hsize, hsize⟩

end AssemblyLayout

end EnipAdapter.Model
