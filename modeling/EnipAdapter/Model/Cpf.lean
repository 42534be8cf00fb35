import EnipAdapter.Model.Wire

/-!
# The Common Packet Format

An item count, then that many items of a type id, a length and a payload (`cpf.rs`). Every
length is checked against the bytes that remain. `SockAddrInfo` is the one big-endian
payload of the protocol.
-/

set_option autoImplicit false

namespace EnipAdapter.Model

/-- A CPF item type id; an unrecognised id is `unknown`. -/
inductive ItemType where
  | nullAddress
  | identity
  | connectedAddress
  | connectedData
  | unconnectedData
  | sockAddrOtoT
  | sockAddrTtoO
  | sequencedAddress
  | unknown (code : UInt16)
deriving DecidableEq, Repr

namespace ItemType

def fromCode (code : UInt16) : ItemType :=
  if code = 0x0000 then .nullAddress
  else if code = 0x000C then .identity
  else if code = 0x00A1 then .connectedAddress
  else if code = 0x00B1 then .connectedData
  else if code = 0x00B2 then .unconnectedData
  else if code = 0x8000 then .sockAddrOtoT
  else if code = 0x8001 then .sockAddrTtoO
  else if code = 0x8002 then .sequencedAddress
  else .unknown code

def code : ItemType → UInt16
  | .nullAddress => 0x0000
  | .identity => 0x000C
  | .connectedAddress => 0x00A1
  | .connectedData => 0x00B1
  | .unconnectedData => 0x00B2
  | .sockAddrOtoT => 0x8000
  | .sockAddrTtoO => 0x8001
  | .sequencedAddress => 0x8002
  | .unknown v => v

end ItemType

/-- One CPF item: its type and its payload. -/
structure CpfItem where
  typeId : ItemType
  data : Bytes
deriving DecidableEq, Repr

namespace CpfItem

def nullAddress : CpfItem := ⟨.nullAddress, []⟩

/-- An unconnected-data item carrying a Message Router request or reply. -/
def unconnectedData (data : Bytes) : CpfItem := ⟨.unconnectedData, data⟩

/-- A connected-data item carrying the payload. -/
def connectedData (data : Bytes) : CpfItem := ⟨.connectedData, data⟩

/-- The bytes of one item; `overflow` when the length field cannot represent the payload. -/
def write (i : CpfItem) : Except WireError Bytes :=
  if i.data.length < 2 ^ 16 then
    .ok (putU16 i.typeId.code ++ putU16 (UInt16.ofNat i.data.length) ++ i.data)
  else .error (.overflow "cpf")

end CpfItem

/-- An item list, in wire order. -/
structure Cpf where
  items : List CpfItem
deriving DecidableEq, Repr

namespace Cpf

/-- The first item with the given type. -/
def find (c : Cpf) (typeId : ItemType) : Option CpfItem :=
  c.items.find? (fun i => i.typeId = typeId)

/-- The `for _ in 0..item_count` loop of the decoder. -/
def decodeItems : ℕ → WireReader → Except WireError (List CpfItem × WireReader)
  | 0, r => .ok ([], r)
  | n + 1, r => do
      let (typeId, r) ← r.u16
      let (len, r) ← r.u16
      let (data, r) ← r.take len.toNat
      let (items, r) ← decodeItems n r
      pure (⟨ItemType.fromCode typeId, data⟩ :: items, r)

/-- Decode an item list from a cursor, leaving it behind the last item. -/
def decodeFrom (r : WireReader) : Except WireError (Cpf × WireReader) := do
  let r := r.at_ "cpf"
  let (itemCount, r) ← r.u16
  let (items, r) ← decodeItems itemCount.toNat r
  pure (⟨items⟩, r)

/-- Decode a whole buffer as an item list. -/
def decode (buf : Bytes) : Except WireError Cpf := do
  let (cpf, r) ← decodeFrom (WireReader.withContext buf "cpf")
  r.expectEnd
  pure cpf

/-- The items one after the other; the first that does not fit fails the whole. -/
def writeItems : List CpfItem → Except WireError Bytes
  | [] => .ok []
  | i :: is => do
      let head ← i.write
      let rest ← writeItems is
      pure (head ++ rest)

def encode (c : Cpf) : Except WireError Bytes := do
  if c.items.length < 2 ^ 16 then
    let body ← writeItems c.items
    pure (putU16 (UInt16.ofNat c.items.length) ++ body)
  else .error (.overflow "cpf")

/-- The payload of an explicit reply: exactly an address and a data item of one class. -/
def expectExplicitData (c : Cpf) : Except WireError Bytes :=
  match c.items with
  | [addr, data] =>
      match addr.typeId, data.typeId with
      | .nullAddress, .unconnectedData => .ok data.data
      | .connectedAddress, .connectedData => .ok data.data
      | .nullAddress, .connectedData | .connectedAddress, .unconnectedData =>
          .error (.malformed "cpf"
            "explicit reply pairs an address and data item of different classes")
      | _, _ => .error (.malformed "cpf" "unexpected item ids in explicit reply")
  | _ => .error (.malformed "cpf" "explicit reply must contain exactly 2 items")

end Cpf

structure SockAddrInfo where
  sinFamily : Int16
  sinPort : UInt16
  sinAddr : UInt32
  sinZero : Bytes
deriving DecidableEq

namespace SockAddrInfo

/-- The sockaddr of an IPv4 address and port (`AF_INET` is 2). -/
def ipv4 (addr : UInt32) (port : UInt16) : SockAddrInfo :=
  ⟨2, port, addr, List.replicate 8 0⟩

/-- Decode the 16-byte payload: big-endian family, port and address. -/
def decode (data : Bytes) : Except WireError SockAddrInfo := do
  let r := WireReader.withContext data "sockaddr info"
  let (family, r) ← r.u16Be
  let (port, r) ← r.u16Be
  let (addr, r) ← r.u32Be
  let (zero, r) ← r.take 8
  r.expectEnd
  pure ⟨family.toInt16, port, addr, zero⟩

def encode (s : SockAddrInfo) : Bytes :=
  putU16Be s.sinFamily.toUInt16 ++ putU16Be s.sinPort ++ putU32Be s.sinAddr ++ s.sinZero

end SockAddrInfo

/-- A sequenced-address payload: it prefaces every class-1 datagram. -/
structure SequencedAddress where
  connectionId : UInt32
  encapSequence : UInt32
deriving DecidableEq, Repr

namespace SequencedAddress

def decode (data : Bytes) : Except WireError SequencedAddress := do
  let r := WireReader.withContext data "sequenced address"
  let (connectionId, r) ← r.u32
  let (encapSequence, r) ← r.u32
  r.expectEnd
  pure ⟨connectionId, encapSequence⟩

def encode (a : SequencedAddress) : Bytes :=
  putU32 a.connectionId ++ putU32 a.encapSequence

end SequencedAddress

end EnipAdapter.Model
