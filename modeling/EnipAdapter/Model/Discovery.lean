import EnipAdapter.Foundation.Text
import EnipAdapter.Model.Cpf
import EnipAdapter.Model.Handshake

/-!
# What a device says it is

The two self-descriptions a device gives (`discovery.rs`): the Identity item of an encapsulation
`ListIdentity` reply, which a target answers before a session exists (`list_identity_over`,
`client/mod.rs`), and the attribute block of the CIP Identity Object, read over a session. The
adapter maps both to the one identity it shows (`eip/identity.rs`).
-/

set_option autoImplicit false

namespace EnipAdapter.Model

open EnipAdapter.Foundation

/-- A `SHORT_STRING`: a length byte and that many bytes of UTF-8. -/
def WireReader.shortString (r : WireReader) : Except WireError (String × WireReader) := do
  let (len, r) ← r.u8
  let (bytes, r) ← r.take len.toNat
  match ofUtf8 bytes with
  | none => .error (.invalidUtf8 r.context)
  | some text => .ok (text, r)

/-! ## Known codes -/

structure VendorId where
  code : UInt16
deriving DecidableEq, Repr

def VendorId.name (v : VendorId) : Option String :=
  match v.code.toNat with
  | 1 => some "Rockwell Automation/Allen-Bradley"
  | 5 => some "Schneider Electric"
  | 26 => some "Festo"
  | 47 => some "SICK AG"
  | 283 => some "HMS Industrial Networks"
  | _ => none

structure DeviceType where
  code : UInt16
deriving DecidableEq, Repr

def DeviceType.name (d : DeviceType) : Option String :=
  match d.code.toNat with
  | 0x00 => some "Generic Device"
  | 0x02 => some "AC Drive"
  | 0x0C => some "Communications Adapter"
  | 0x0E => some "Programmable Logic Controller"
  | 0x64 => some "Rockwell Programmable Automation Controller"
  | _ => none

/-! ## The Identity Object -/

/-- Attributes 1 to 7 of the Identity Object. -/
structure IdentityObject where
  vendor : VendorId
  deviceType : DeviceType
  productCode : UInt16
  revisionMajor : UInt8
  revisionMinor : UInt8
  status : UInt16
  serialNumber : UInt32
  productName : String
deriving DecidableEq, Repr

/-- The attributes in order, from a cursor that is left behind them. -/
def IdentityObject.read (r : WireReader) : Except WireError (IdentityObject × WireReader) := do
  let (vendor, r) ← r.u16
  let (deviceType, r) ← r.u16
  let (productCode, r) ← r.u16
  let (revisionMajor, r) ← r.u8
  let (revisionMinor, r) ← r.u8
  let (status, r) ← r.u16
  let (serialNumber, r) ← r.u32
  let (productName, r) ← r.shortString
  pure (⟨⟨vendor⟩, ⟨deviceType⟩, productCode, revisionMajor, revisionMinor, status, serialNumber,
    productName⟩, r)

/-- A `Get_Attributes_All` reply: what follows the name are optional attributes. -/
def IdentityObject.parseGetAttributesAll (data : Bytes) : Except WireError IdentityObject := do
  let (object, _) ← IdentityObject.read (WireReader.withContext data "identity")
  pure object

/-! ## ListIdentity -/

/-- A decoded `ListIdentity` identity: the same attributes between a socket address and a state
byte. -/
structure DeviceIdentity extends IdentityObject where
  protocolVersion : UInt16
  socketAddr : SockAddrInfo
  state : UInt8
deriving DecidableEq

def DeviceIdentity.parseItem (data : Bytes) : Except WireError DeviceIdentity := do
  let r := WireReader.withContext data "identity"
  let (protocolVersion, r) ← r.u16
  let (address, r) ← r.take 16
  let socketAddr ← SockAddrInfo.decode address
  let (object, r) ← IdentityObject.read r
  let (state, _) ← r.u8
  pure ⟨object, protocolVersion, socketAddr, state⟩

/-- A reply's data: the first Identity item of its item list. -/
def DeviceIdentity.parseReply (data : Bytes) : Except WireError DeviceIdentity := do
  let cpf ← Cpf.decode data
  match cpf.find .identity with
  | none => .error (.malformed "identity" "ListIdentity reply has no Identity item")
  | some item => DeviceIdentity.parseItem item.data

/-- The correlation context of the request (`ECLISTID`). -/
def listIdentityContext : Bytes := [0x45, 0x43, 0x4C, 0x49, 0x53, 0x54, 0x49, 0x44]

def listIdentityRequest : EncapFrame :=
  EncapFrame.new (EncapHeader.request .listIdentity 0 0 listIdentityContext) []

/-- The reply's checks, in order, and the identity it carries. -/
def checkListIdentityReply (reply : EncapFrame) : Except EnipError DeviceIdentity := do
  refuse (reply.header.senderContext ≠ listIdentityContext)
    (EnipError.protocolViolation "list identity reply context mismatch")
  refuse (reply.header.command ≠ .listIdentity)
    (EnipError.protocolViolation "list identity reply command mismatch")
  refuse (¬ reply.header.status.isOk) (EnipError.encap reply.header.status)
  liftWire (DeviceIdentity.parseReply reply.data)

/-- `list_identity_over`: one request, one reply, no retry, on a stream without a session. `none`
while the reply is still awaited. -/
def listIdentityOver (stream : List ReadEvent) (write : WriteEvent) :
    Option (Except EnipError DeviceIdentity) :=
  match sendFrameBy listIdentityRequest write with
  | .error e => some (.error e)
  | .ok () =>
      (handshakeFrame "list_identity" (readOutcome stream []).1).map fun reply => do
        let reply ← reply
        checkListIdentityReply reply

/-! ## The identity the adapter shows -/

/-- What a device said it is, on every surface of the adapter (`device.rs`). -/
structure Device.DeviceIdentity where
  vendorId : UInt16
  vendorName : Option String
  deviceType : UInt16
  deviceTypeName : Option String
  productCode : UInt16
  revisionMajor : UInt8
  revisionMinor : UInt8
  serialNumber : UInt32
  productName : String
deriving DecidableEq, Repr

def toSeam (id : IdentityObject) : Device.DeviceIdentity where
  vendorId := id.vendor.code
  vendorName := id.vendor.name
  deviceType := id.deviceType.code
  deviceTypeName := id.deviceType.name
  productCode := id.productCode
  revisionMajor := id.revisionMajor
  revisionMinor := id.revisionMinor
  serialNumber := id.serialNumber
  productName := id.productName

def listIdentityToSeam (id : DeviceIdentity) : Device.DeviceIdentity where
  vendorId := id.vendor.code
  vendorName := id.vendor.name
  deviceType := id.deviceType.code
  deviceTypeName := id.deviceType.name
  productCode := id.productCode
  revisionMajor := id.revisionMajor
  revisionMinor := id.revisionMinor
  serialNumber := id.serialNumber
  productName := id.productName

/-- The best-effort read over a session, from the reply to its `Get_Attributes_All`; no failure is
fatal. -/
def readIdentity (reply : Except EnipError Bytes) : Option Device.DeviceIdentity :=
  match reply with
  | .error _ => none
  | .ok data => (IdentityObject.parseGetAttributesAll data).toOption.map toSeam

end EnipAdapter.Model
