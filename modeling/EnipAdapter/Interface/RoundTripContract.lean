import EnipAdapter.Foundation.ItemRuns
import EnipAdapter.Foundation.Refuse
import EnipAdapter.Interface.FrameStream
import EnipAdapter.Model.CipDecode
import EnipAdapter.Model.Cpf
import EnipAdapter.Model.EncodeWrite
import EnipAdapter.Model.ReadSession

/-!
# What the codecs can carry

Three layers of the protocol crate are written as an encoder and a separate decoder: the
encapsulation frames, the item lists and the elementary values. Here is, for each of them, the
set of values its wire format can represent, which is where the two directions must agree.
-/

set_option autoImplicit false

namespace EnipAdapter.Interface

open EnipAdapter.Foundation EnipAdapter.Model

/-- The byte cursor, as a state that bytes can be put back in front of. -/
def wireTape : Tape UInt8 WireReader where
  unread := WireReader.unread
  unread_nil := fun _ => rfl
  unread_append := by
    intro as bs r
    simp [WireReader.unread, List.append_assoc]

/-! ## Item lists -/

/-- An item list of types that a wire code names, with a count and payload lengths that their
16-bit fields hold. -/
structure Representable (c : Cpf) : Prop where
  count_le : c.items.length ≤ 65535
  named : ∀ i ∈ c.items, ∃ code, i.typeId = ItemType.fromCode code
  payload_le : ∀ i ∈ c.items, i.data.length ≤ 65535

/-- An item list with a length that its 16-bit field cannot hold. -/
def Oversize (c : Cpf) : Prop :=
  65535 < c.items.length ∨ ∃ i ∈ c.items, 65535 < i.data.length

/-! ## Encapsulation frames -/

/-- A frame as the source types it: the sender context is an array of eight bytes. -/
structure TypedFrame where
  frame : EncapFrame
  context_length : frame.header.senderContext.length = 8

namespace TypedFrame

/-- A frame whose command and status a wire code names and whose data the protocol allows. -/
structure Transmittable (f : TypedFrame) : Prop where
  command_named : ∃ code, f.frame.header.command = Command.fromCode code
  status_named : ∃ code, f.frame.header.status = EncapStatus.fromCode code
  data_le : f.frame.data.length ≤ maxDataLen

/-- The frame with the length field that its data has. -/
def measured (f : TypedFrame) : EncapFrame where
  header := { f.frame.header with length := UInt16.ofNat f.frame.data.length }
  data := f.frame.data

/-- What a reader of the stream is to see of a run of frames: NOP frames are filler. -/
def surfaced (fs : List TypedFrame) : List EncapFrame :=
  (fs.map measured).filter (fun f => f.header.command ≠ .nop)

end TypedFrame

/-! ## Elementary values -/

/-- A value of one element: neither an array nor one of the opaque markers. -/
def IsScalar : CipValue → Prop
  | .array _ _ | .struct _ _ | .unsupported _ _ => False
  | _ => True

/-- A scalar of an elementary type. -/
def ScalarOf (ty : CipType) (v : CipValue) : Prop := IsScalar v ∧ v.wireType = ty

/-- An array of at least two elements, all of its own type. -/
def HomogeneousArray (v : CipValue) : Prop :=
  ∃ ty elems, v = .array ty elems ∧ 2 ≤ elems.length ∧ ∀ e ∈ elems, ScalarOf ty e

/-- The value that a number of elements of a type make: one is itself, more are an array. -/
def ofElements (ty : CipType) : List CipValue → CipValue
  | [v] => v
  | vs => .array ty vs

/-- A value of a number of elements of a type: a scalar where there is one, an array otherwise. -/
def HasElements (ty : CipType) (n : ℕ) (v : CipValue) : Prop :=
  v.elementCount = n ∧
    if n = 1 then ScalarOf ty v else ∃ elems, v = .array ty elems ∧ ∀ e ∈ elems, ScalarOf ty e

/-- The byte that is written for a byte that was read: a BOOL has one non-zero spelling. -/
def normalByte (ty : CipType) (b : UInt8) : UInt8 :=
  if ty = .bool ∧ b ≠ 0 then 0xFF else b

/-!
## A reading that is written back

A signal without a value transform is read and its published value is written: the bytes that
go out should be the ones that came in. Here is what came in for a reading, and what it means to
write a value back.
-/

/-- A BOOL or integer signal without a value transform. -/
structure PlainSignal (spec : SignalSpec) : Prop where
  type : spec.eipType = .bool ∨ isIntegerType spec.eipType = true
  scale : spec.scale = none
  offset : spec.offset = none

/-- What the tag read of a signal gave. -/
def TagAnswered (session : EipSession) (spec : SignalSpec) (peer : Peer) (result : TagReadResult) :
    Prop :=
  ∃ addr, TagAddress.parse spec.tagPath = .ok addr ∧
    readTag session.client addr (session.wireElements spec) peer = .ok result

/-- The reply is not the packed representation of a BOOL array. -/
def BytePerElement (spec : SignalSpec) (result : TagReadResult) : Prop :=
  isBoolArray spec = true → result.wireType ≠ .dword

/-- The bytes of the value, as the reply carried them after its type. -/
def ValueBytes (result : TagReadResult) (data : Bytes) : Prop :=
  CipValue.decode result.wireType data = .ok result.value

/-- A write of the value to the signal succeeds, and sends these bytes, each true BOOL in its
one spelling. -/
def WritesBack (spec : SignalSpec) (value : Json) (data : Bytes) : Prop :=
  ∃ v, encodeWrite value spec.eipType spec.scale spec.offset spec.arrayCount = .ok v ∧
    CipValue.encodeValue v = .ok (data.map (normalByte spec.eipType.cipType))

end EnipAdapter.Interface
