import EnipAdapter.Foundation.Pieces
import EnipAdapter.Interface.RoundTripContract
import EnipAdapter.Model.TagTransfer

/-!
# What a tag transfer is for

The target's side of the fragmented services. A target that serves a tag value answers every
offset inside it with as many of the bytes from there on as it likes; a target that is written
puts every chunk at the offset that comes with it. What the client makes of the one, and what it
does to the other, is measured against the whole value.
-/

set_option autoImplicit false

namespace EnipAdapter.Interface

open EnipAdapter.Foundation
open EnipAdapter.Model

/-! ## A target that is read -/

/-- A tag value as a target holds it; the handle is on the wire for a structure only. -/
structure TagImage where
  code : UInt16
  handle : UInt16
  value : Bytes

namespace TagImage

/-- The handle, where the type has one. -/
def wireHandle (img : TagImage) : Option UInt16 :=
  if CipType.fromCode img.code = .struct then some img.handle else none

/-- The type in front of every reply: the code, and a structure's handle. -/
def typePrefix (img : TagImage) : Bytes :=
  putU16 img.code ++ (if CipType.fromCode img.code = .struct then putU16 img.handle else [])

/-- What a reader of the whole value, in one reply, is told. -/
def whole (img : TagImage) : Except EnipError TagReadResult := do
  let tagged ← liftWire (CipValue.decodeTagged (img.typePrefix ++ img.value))
  pure ⟨tagged.2, tagged.1, true⟩

/-- A reply that carries `k` bytes from an offset on, and says whether more follow. -/
structure Fragment (img : TagImage) (offset k : ℕ) (reply : MessageReply) : Prop where
  service : reply.replyService = serviceReadTagFragmented ||| 0x80
  status : reply.status.general =
    if offset + k < img.value.length then .partialTransfer else .success
  data : reply.data = img.typePrefix ++ (img.value.drop offset).take k

/-- A target that serves the value to a client: a request for an offset inside it is answered
with at least one byte, how many being the target's choice each time. An empty value has no
offset inside it, and is answered with no bytes. -/
structure ServedTo (img : TagImage) (client : EipClient) (tag : TagAddress) (elements : UInt16)
    (peer : Peer) : Prop where
  inside : ∀ n (offset : UInt32), offset.toNat < img.value.length →
    ∃ k reply, 1 ≤ k ∧ offset.toNat + k ≤ img.value.length ∧
      client.sendCip peer n (readTagFragmentedRequest tag elements offset) = .ok reply ∧
      img.Fragment offset.toNat k reply
  empty : img.value = [] → ∀ n, ∃ reply,
    client.sendCip peer n (readTagFragmentedRequest tag elements 0) = .ok reply ∧
      img.Fragment 0 0 reply

/-- A target that serves the value one byte at a time. -/
def bytewise (img : TagImage) : Peer := fun _ mr =>
  let offset := ofLeBytes (mr.data.drop 2)
  .ok ⟨serviceReadTagFragmented ||| 0x80,
    ⟨if offset + 1 < img.value.length then .partialTransfer else .success, []⟩,
    img.typePrefix ++ (img.value.drop offset).take 1⟩

end TagImage

/-! ## A client that reads -/

/-- What holds of every turn that was taken: what it asked for is what was not there yet. -/
structure TurnTaken (client : EipClient) (tag : TagAddress) (elements : UInt16)
    (t : FragmentTurn) : Prop where
  before_le : t.before.acc.length ≤ client.maxValueBytes
  after_le : t.after.acc.length ≤ client.maxValueBytes
  offset_eq : t.before.offset.toNat = t.before.acc.length
  request_eq : t.request = readTagFragmentedRequest tag elements t.before.offset

/-! ## A target that is written -/

/-- What a write request says: the type and the number of elements of the whole value, and a
piece of its bytes. -/
structure WrittenPiece where
  typeCode : UInt16
  elementCount : UInt16
  piece : Piece UInt8

/-- How a target reads a write request; a Write Tag starts at the beginning. -/
def writtenPiece (mr : MessageRequest) : Option WrittenPiece :=
  let read : Except WireError WrittenPiece := do
    let code ← (WireReader.withContext mr.data "write").u16
    let count ← code.2.u16
    if mr.service = serviceWriteTagFragmented then
      let offset ← count.2.u32
      pure ⟨code.1, count.1, offset.1.toNat, offset.2.rest⟩
    else pure ⟨code.1, count.1, 0, count.2.rest⟩
  read.toOption

/-- The pieces that the requests of a write carry, in order. -/
def piecesOf (turns : List WriteTurn) : List WrittenPiece :=
  turns.filterMap fun t => writtenPiece t.request

/-- A request of a write of so many elements of a type: it says so, and its piece starts and
ends where an element does. -/
def WholeElements (ty : CipType) (size count : ℕ) (t : WriteTurn) : Prop :=
  ∃ p, writtenPiece t.request = some p ∧ p.typeCode = ty.code ∧ p.elementCount.toNat = count ∧
    size ∣ p.piece.offset ∧ size ∣ p.piece.offset + p.piece.data.length

/-- The content of a target after the requests of a write, applied in order. -/
def applyWrites (content : Bytes) (pieces : List WrittenPiece) : Bytes :=
  (pieces.map WrittenPiece.piece).foldl (storeAt 0) content

/-- The request was answered, by a reply to it with status 0. -/
def TurnAccepted (t : WriteTurn) : Prop :=
  ∃ reply, t.outcome = .ok reply ∧ reply.replyService = t.request.service ||| 0x80 ∧
    reply.status.general = .success

/-- A value of an elementary type: a scalar of it, or an array of such scalars. -/
def ValueOf (ty : CipType) (v : CipValue) : Prop :=
  ScalarOf ty v ∨ ∃ elems, v = .array ty elems ∧ ∀ e ∈ elems, ScalarOf ty e

/-! ## The connection a write goes over -/

/-- The connected-data item of a request: its sequence count in front of its bytes. -/
def connectedItem (seq : UInt16) (mr : MessageRequest) : Except EnipError CpfItem := do
  let mrBytes ← mr.encode
  pure (CpfItem.connectedData (putU16 seq ++ mrBytes))

/-- A connected request is its address item and that item. -/
theorem connectedRequestPayload_eq (conn : ConnectedState) (mr : MessageRequest) :
    connectedRequestPayload conn mr = (connectedItem conn.nextSequence mr).bind fun item =>
      encapDataWithCpf ⟨[CpfItem.connectedAddress conn.oTConnectionId, item]⟩ := by
  unfold connectedRequestPayload connectedItem
  cases mr.encode with
  | error e => rfl
  | ok mrBytes => rfl

/-- A class-3 connection: one that was opened with the class-3 request. -/
structure Class3Connection where
  state : ConnectedState
  opened : ∃ opts env, state.openRequest = class3Open opts env

/-- A client that has the connection. -/
def Class3Connection.client (conn : Class3Connection) (route : Option RoutePath) (cap : ℕ) :
    EipClient :=
  ⟨route, some conn.state, cap⟩

/-- The size negotiated for what the client sends over the connection. -/
def Class3Connection.size (conn : Class3Connection) : ℕ :=
  conn.state.openRequest.oTParams.size.toNat

/-- Every item the request can become fits the connection, whatever its sequence count. -/
def FitsConnection (conn : Class3Connection) (t : WriteTurn) : Prop :=
  ∀ seq item, connectedItem seq t.request = .ok item → item.data.length ≤ conn.size

/-- Everything a write sends fits the connection. -/
def WriteFits (conn : Class3Connection) (client : EipClient) (peer : Peer) (tag : TagAddress)
    (ty : CipType) (value : CipValue) : Prop :=
  ∀ fuel turns result, writeTag client tag ty value peer fuel = some (turns, result) →
    ∀ t ∈ turns, FitsConnection conn t

/-- The path, the value and the element size leave room for the overhead: four bytes for a value
that goes out in one request, eight for a full chunk of a longer one, and four in front. -/
def WithinBudget (pathLen valueLen elementSize : ℕ) : Prop :=
  if valueLen ≤ 472 then pathLen + valueLen ≤ 492
  else pathLen ≤ 20 ∨ elementSize = 8 ∧ pathLen ≤ 24

end EnipAdapter.Interface
