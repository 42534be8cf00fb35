import EnipAdapter.Model.Assembly
import EnipAdapter.Model.Json

/-!
# Reading CIP values

The read side of the value codec (`cip/types.rs`): a value of a declared type, whose element
count is what its bytes make it, and the tagged value of a Read Tag reply. A type the crate
does not interpret is data, not an error.
-/

set_option autoImplicit false

namespace EnipAdapter.Model

open EnipAdapter.Foundation

def CipType.code : CipType → UInt16
  | .bool => 0xC1
  | .sint => 0xC2
  | .int => 0xC3
  | .dint => 0xC4
  | .lint => 0xC5
  | .usint => 0xC6
  | .uint => 0xC7
  | .udint => 0xC8
  | .ulint => 0xC9
  | .real => 0xCA
  | .lreal => 0xCB
  | .byte => 0xD1
  | .word => 0xD2
  | .dword => 0xD3
  | .lword => 0xD4
  | .string => 0xD0
  | .struct => 0x02A0
  | .unknown code => code

namespace CipValue

/-- One element of an elementary type. -/
def decodeScalar (ty : CipType) (r : WireReader) : Except WireError (CipValue × WireReader) :=
  match ty with
  | .bool => do
    let (v, r) ← r.u8
    pure (.bool (v != 0), r)
  | .sint => do
    let (v, r) ← r.u8
    pure (.sint v.toInt8, r)
  | .int => do
    let (v, r) ← r.u16
    pure (.int v.toInt16, r)
  | .dint => do
    let (v, r) ← r.u32
    pure (.dint v.toInt32, r)
  | .lint => do
    let (v, r) ← r.u64
    pure (.lint v.toInt64, r)
  | .usint => do
    let (v, r) ← r.u8
    pure (.usint v, r)
  | .uint => do
    let (v, r) ← r.u16
    pure (.uint v, r)
  | .udint => do
    let (v, r) ← r.u32
    pure (.udint v, r)
  | .ulint => do
    let (v, r) ← r.u64
    pure (.ulint v, r)
  | .real => do
    let (v, r) ← r.u32
    pure (.real ⟨v⟩, r)
  | .lreal => do
    let (v, r) ← r.u64
    pure (.lreal ⟨v⟩, r)
  | .byte => do
    let (v, r) ← r.u8
    pure (.byte v, r)
  | .word => do
    let (v, r) ← r.u16
    pure (.word v, r)
  | .dword => do
    let (v, r) ← r.u32
    pure (.dword v, r)
  | .lword => do
    let (v, r) ← r.u64
    pure (.lword v, r)
  | .string | .struct | .unknown _ =>
    .error (.malformed "cip value" "non-elementary type in scalar decode")

/-- A number of elements, one after the other. -/
def decodeScalars (ty : CipType) :
    ℕ → WireReader → Except WireError (List CipValue × WireReader)
  | 0, r => .ok ([], r)
  | n + 1, r => do
    let (v, r) ← decodeScalar ty r
    let (vs, r) ← decodeScalars ty n r
    pure (v :: vs, r)

/-- A value of a declared type: one element is a scalar, more are an array. -/
def decode (ty : CipType) (data : Bytes) : Except WireError CipValue :=
  match ty.elementSize with
  | none => .error (.malformed "cip value" "type has no fixed element size")
  | some size =>
    if data.length % size ≠ 0 then
      .error (.malformed "cip value" "value length not a multiple of element size")
    else if data.length / size = 0 then .error (.truncated size 0 "cip value")
    else
      let r := WireReader.withContext data "cip value"
      if data.length / size = 1 then do
        let (v, r) ← decodeScalar ty r
        r.expectEnd
        pure v
      else do
        let (elems, r) ← decodeScalars ty (data.length / size) r
        r.expectEnd
        pure (.array ty elems)

/-- The value of a Read Tag reply: a type code, a structure's handle, then the value. -/
def decodeTagged (data : Bytes) : Except WireError (CipType × CipValue) := do
  let r := WireReader.withContext data "cip value"
  let (code, r) ← r.u16
  match CipType.fromCode code with
  | .struct =>
    let (handle, r) ← r.u16
    pure (.struct, .struct handle r.remaining)
  | .string => pure (.string, .unsupported code r.remaining)
  | .unknown c => pure (.unknown c, .unsupported code r.remaining)
  | elementary =>
    let value ← decode elementary r.takeRest.1
    pure (elementary, value)

end CipValue

end EnipAdapter.Model
