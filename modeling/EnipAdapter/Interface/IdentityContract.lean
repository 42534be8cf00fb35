import EnipAdapter.Interface.FrameStream
import EnipAdapter.Model.Discovery

/-!
# What an identity rests on

The byte layouts of a device's two self-descriptions, and the contract of the code that reads
them: which bytes are an identity and which one, that the probe believes only the reply to its own
request, and that the adapter shows the same device whichever of the two it read.
-/

set_option autoImplicit false

namespace EnipAdapter.Interface

open EnipAdapter.Model

/-! ## The layouts -/

def shortStringBytes (text : String) : Bytes :=
  putU8 (UInt8.ofNat text.toUTF8.toList.length) ++ text.toUTF8.toList

/-- Attributes 1 to 7, one after the other. -/
def attributeBlock (object : IdentityObject) : Bytes :=
  putU16 object.vendor.code ++ putU16 object.deviceType.code ++ putU16 object.productCode ++
    putU8 object.revisionMajor ++ putU8 object.revisionMinor ++ putU16 object.status ++
    putU32 object.serialNumber ++ shortStringBytes object.productName

def identityItem (id : DeviceIdentity) : Bytes :=
  putU16 id.protocolVersion ++ id.socketAddr.encode ++ attributeBlock id.toIdentityObject ++
    putU8 id.state

/-- A name that a length byte can count. -/
def NameFits (object : IdentityObject) : Prop :=
  object.productName.toUTF8.toList.length < 256

/-- A frame that answers the probe with `id`, in the first Identity item it carries. What stands
behind the fields of the item is not read. -/
structure ListIdentityReply (f : EncapFrame) (id : DeviceIdentity) : Prop where
  context : f.header.senderContext = listIdentityContext
  command : f.header.command = .listIdentity
  status : f.header.status.isOk = true
  name : NameFits id.toIdentityObject
  address : id.socketAddr.sinZero.length = 8
  carried : ∃ cpf item tail, Cpf.decode f.data = .ok cpf ∧ cpf.find .identity = some item ∧
    item.data = identityItem id ++ tail

/-! ## The contract -/

structure IdentityContract (stream : List ReadEvent) (write : WriteEvent) : Prop where
  /-- An identity the probe reports is the one in the first frame the stream carries, which
  answers the probe's own request, and that request went out. -/
  answered : ∀ id, listIdentityOver stream write = some (.ok id) →
    write = .written ∧ ∃ f later, framesOf (received stream) = f :: later ∧ ListIdentityReply f id
  /-- Once the request is out and the bytes hold a whole frame, that frame decides, however it was
  cut into reads and whatever the stream does afterwards: there is no second try. -/
  decided : write = .written → ∀ (chunks : List Bytes) (later : List ReadEvent) (f : EncapFrame)
    (fs : List EncapFrame), stream = chunks.map ReadEvent.bytes ++ later →
    (∀ chunk ∈ chunks, chunk ≠ []) → framesOf chunks.flatten = f :: fs →
    (∀ id, listIdentityOver stream write = some (.ok id) ↔ ListIdentityReply f id) ∧
    ((¬ ∃ id, ListIdentityReply f id) →
      ∃ e, listIdentityOver stream write = some (.error e))
  /-- A session's read shows an identity exactly for a reply that begins with the attributes, and
  then that one; everything else is no identity, never a failed connect. -/
  read : ∀ reply shown, readIdentity reply = some shown ↔
    ∃ object tail, NameFits object ∧
      reply = .ok (attributeBlock object ++ tail) ∧ shown = toSeam object
  /-- The same device is shown the same, whichever way it was asked. -/
  agree : ∀ id, listIdentityOver stream write = some (.ok id) → ∀ tail,
    readIdentity (.ok (attributeBlock id.toIdentityObject ++ tail)) = some (listIdentityToSeam id)

end EnipAdapter.Interface
