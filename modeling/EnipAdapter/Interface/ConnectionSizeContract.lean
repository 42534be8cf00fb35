import EnipAdapter.Interface.SequenceContract
import EnipAdapter.Model.ForwardOpen

/-!
# The size of a class-1 connection

The size of a direction is computed from the spec, packed into a word of the ForwardOpen, and
met again by the frames of the connection. Here is the size that the format and the data of a
direction make, and what a reader takes from the words of an encoded request.
-/

set_option autoImplicit false

namespace EnipAdapter.Interface

open EnipAdapter.Foundation EnipAdapter.Model

/-- The size of a direction: its overhead, and its data where the format carries it. -/
def negotiatedSize (d : DirectionSpec) : ℕ :=
  d.format.overhead + if d.format.carriesData then d.dataSize else 0

/-- The overhead and the data of a direction, or the overhead of a heartbeat. -/
def sizeUnlessHeartbeat (d : DirectionSpec) : ℕ :=
  if d.format = .heartbeat then d.format.overhead else d.format.overhead + d.dataSize

/-! ## The words of a request -/

/-- How many bytes the parameters of a direction take. -/
def wordWidth (large : Bool) : ℕ := if large then 4 else 2

/-- The parameters in the word at an offset of a request. -/
def paramsAt (large : Bool) (bytes : Bytes) (offset : ℕ) : NetworkConnectionParams :=
  let word := ofLeBytes ((bytes.drop offset).take (wordWidth large))
  if large then .decodeU32 (UInt32.ofNat word) else .decodeU16 (UInt16.ofNat word)

/-- The O→T word stands behind the ids, the timeout and the O→T interval. -/
def o2tWordOffset : ℕ := 26

/-- The T→O word stands behind the O→T word and the T→O interval. -/
def t2oWordOffset (large : Bool) : ℕ := o2tWordOffset + wordWidth large + 4

/-- The parameters are those of a direction, with this size. -/
structure Describes (p : NetworkConnectionParams) (d : DirectionSpec) (size : ℕ) : Prop where
  size : p.size.toNat = size
  variable_ : p.variable_ = d.variable_
  priority : p.priority = d.priority
  connType : p.connType = d.connType

/-! ## The frames of a connection -/

/-- A producer whose O→T direction was opened by the spec, with an output of the negotiated
size. -/
structure ProducesFor (spec : IoConnectionSpec) (c : IoConnection) : Prop where
  format : c.params.o2tFormat = spec.o2t.format
  size : c.params.o2tDataSize = spec.o2t.dataSize
  output : c.output.length = c.params.o2tDataSize

/-- A consumer of the same format and data size. -/
structure ConsumesFor (spec : IoConnectionSpec) (c : IoConnection) : Prop where
  format : c.params.t2oFormat = spec.o2t.format
  size : c.params.t2oDataSize = spec.o2t.dataSize

end EnipAdapter.Interface
