import EnipAdapter.Model.Message
import EnipAdapter.Model.Time

/-!
# Connection Manager records

ForwardOpen, its success and failure replies, and ForwardClose (`cm.rs`).
-/

set_option autoImplicit false

namespace EnipAdapter.Model

def forwardOpenService : UInt8 := 0x54

def largeForwardOpenService : UInt8 := 0x5B

def forwardCloseService : UInt8 := 0x4E

def unconnectedSendService : UInt8 := 0x52

/-- Transport class 3, server, application-triggered: `(1 << 7) | (2 << 4) | 3`. -/
def transportClass3Trigger : UInt8 := 0xA3

/-- The production trigger of a class-1 connection. -/
inductive ProductionTrigger where
  | cyclic
  | changeOfState
  | application
deriving DecidableEq, Repr

/-- The transport class/trigger byte of a class-1 connection. -/
def transportClass1Trigger : ProductionTrigger → UInt8
  | .cyclic => 0x01
  | .changeOfState => 0x11
  | .application => 0x21

def messageRouterPath : EPath := ⟨[.class_ 0x02, .instance_ 0x01]⟩

def connectionManagerPath : EPath := ⟨[.class_ 0x06, .instance_ 0x01]⟩

/-- The assembly connection path: class 4, an optional configuration instance, then the
output and input connection points. -/
def ioConnectionPath (config : Option UInt16) (output input : UInt16) : EPath :=
  ⟨[.class_ 0x04] ++ (config.map (fun c => Segment.instance_ c.toUInt32)).toList ++
    [.connectionPoint output, .connectionPoint input]⟩

inductive ConnType where
  | null
  | multicast
  | p2p
deriving DecidableEq, Repr

def ConnType.bits : ConnType → UInt32
  | .null => 0
  | .multicast => 1
  | .p2p => 2

/-- The connection type of two bits. -/
def ConnType.fromBits (bits : UInt32) : ConnType :=
  if bits &&& 3 = 1 then .multicast else if bits &&& 3 = 2 then .p2p else .null

inductive Priority where
  | low
  | high
  | scheduled
  | urgent
deriving DecidableEq, Repr

def Priority.bits : Priority → UInt32
  | .low => 0
  | .high => 1
  | .scheduled => 2
  | .urgent => 3

/-- The priority of two bits. -/
def Priority.fromBits (bits : UInt32) : Priority :=
  if bits &&& 3 = 1 then .high
  else if bits &&& 3 = 2 then .scheduled
  else if bits &&& 3 = 3 then .urgent
  else .low

inductive VariableLength where
  | fixed
  | variable_
deriving DecidableEq, Repr

def VariableLength.isVariable : VariableLength → Bool
  | .fixed => false
  | .variable_ => true

def VariableLength.fromBit (bit : Bool) : VariableLength := if bit then .variable_ else .fixed

structure NetworkConnectionParams where
  size : UInt16
  variable_ : VariableLength
  priority : Priority
  connType : ConnType
  redundantOwner : Bool
deriving DecidableEq, Repr

namespace NetworkConnectionParams

def p2p (size : UInt16) : NetworkConnectionParams := ⟨size, .variable_, .low, .p2p, false⟩

def io (size : UInt16) (framing : VariableLength) (priority : Priority)
    (connType : ConnType) : NetworkConnectionParams :=
  ⟨size, framing, priority, connType, false⟩

/-- The 16-bit word; a size above 9 bits does not fit. -/
def encodeU16 (p : NetworkConnectionParams) : Except EnipError UInt16 :=
  if p.size > 0x01FF then .error (.tooLarge 0x01FF)
  else
    let variableBit : UInt16 := if p.variable_.isVariable then 1 else 0
    let ownerBit : UInt16 := if p.redundantOwner then 1 else 0
    let size : UInt16 := p.size &&& (0x01FF : UInt16)
    .ok (size ||| (variableBit <<< 9) ||| (p.priority.bits.toUInt16 <<< 10) |||
      (p.connType.bits.toUInt16 <<< 13) ||| (ownerBit <<< 15))

/-- The 32-bit word of the large form. -/
def encodeU32 (p : NetworkConnectionParams) : UInt32 :=
  let variableBit : UInt32 := if p.variable_.isVariable then 1 else 0
  let ownerBit : UInt32 := if p.redundantOwner then 1 else 0
  p.size.toUInt32 ||| (variableBit <<< 25) ||| (p.priority.bits <<< 26) |||
    (p.connType.bits <<< 29) ||| (ownerBit <<< 31)

def decodeU16 (v : UInt16) : NetworkConnectionParams where
  size := v &&& (0x01FF : UInt16)
  variable_ := .fromBit (v &&& (0x0200 : UInt16) != 0)
  priority := .fromBits (v >>> 10).toUInt32
  connType := .fromBits (v >>> 13).toUInt32
  redundantOwner := v &&& (0x8000 : UInt16) != 0

def decodeU32 (v : UInt32) : NetworkConnectionParams where
  size := (v &&& (0xFFFF : UInt32)).toUInt16
  variable_ := .fromBit (v &&& (0x02000000 : UInt32) != 0)
  priority := .fromBits (v >>> 26)
  connType := .fromBits (v >>> 29)
  redundantOwner := v &&& (0x80000000 : UInt32) != 0

end NetworkConnectionParams

inductive TimeoutMultiplier where
  | x4
  | x8
  | x16
  | x32
  | x64
  | x128
  | x256
  | x512
deriving DecidableEq, Repr

def TimeoutMultiplier.code : TimeoutMultiplier → UInt8
  | .x4 => 0
  | .x8 => 1
  | .x16 => 2
  | .x32 => 3
  | .x64 => 4
  | .x128 => 5
  | .x256 => 6
  | .x512 => 7

def TimeoutMultiplier.multiplier (t : TimeoutMultiplier) : ℕ := 4 <<< t.code.toNat

structure ForwardOpenRequest where
  priorityTimeTick : UInt8
  timeoutTicks : UInt8
  oTConnectionId : UInt32
  tOConnectionId : UInt32
  connectionSerial : UInt16
  vendorId : UInt16
  originatorSerial : UInt32
  timeoutMultiplier : TimeoutMultiplier
  oTRpi : UInt32
  oTParams : NetworkConnectionParams
  tORpi : UInt32
  tOParams : NetworkConnectionParams
  transportClassTrigger : UInt8
  connectionPath : EPath
  large : Bool
deriving DecidableEq, Repr

namespace ForwardOpenRequest

def class3 (oTConnectionId tOConnectionId : UInt32) (connectionSerial vendorId : UInt16)
    (originatorSerial : UInt32) (connectionPath : EPath) (rpiMicros : UInt32)
    (timeoutMultiplier : TimeoutMultiplier) : ForwardOpenRequest where
  priorityTimeTick := 0x0A
  timeoutTicks := 0x0E
  oTConnectionId := oTConnectionId
  tOConnectionId := tOConnectionId
  connectionSerial := connectionSerial
  vendorId := vendorId
  originatorSerial := originatorSerial
  timeoutMultiplier := timeoutMultiplier
  oTRpi := rpiMicros
  oTParams := .p2p 500
  tORpi := rpiMicros
  tOParams := .p2p 500
  transportClassTrigger := transportClass3Trigger
  connectionPath := connectionPath
  large := false

def class1 (tOConnectionId : UInt32) (connectionSerial vendorId : UInt16)
    (originatorSerial : UInt32) (timeoutMultiplier : TimeoutMultiplier) (oTRpi : UInt32)
    (oTParams : NetworkConnectionParams) (tORpi : UInt32) (tOParams : NetworkConnectionParams)
    (transportClassTrigger : UInt8) (connectionPath : EPath) (large : Bool) :
    ForwardOpenRequest where
  priorityTimeTick := 0x0A
  timeoutTicks := 0x0E
  oTConnectionId := 0
  tOConnectionId := tOConnectionId
  connectionSerial := connectionSerial
  vendorId := vendorId
  originatorSerial := originatorSerial
  timeoutMultiplier := timeoutMultiplier
  oTRpi := oTRpi
  oTParams := oTParams
  tORpi := tORpi
  tOParams := tOParams
  transportClassTrigger := transportClassTrigger
  connectionPath := connectionPath
  large := large

/-- The service the request goes out under. -/
def service (r : ForwardOpenRequest) : UInt8 :=
  if r.large then largeForwardOpenService else forwardOpenService

/-- One direction's parameters, in the form the service calls for. -/
def writeParams (r : ForwardOpenRequest) (p : NetworkConnectionParams) :
    Except EnipError Bytes :=
  if r.large then .ok (putU32 p.encodeU32)
  else do
    let v ← p.encodeU16
    pure (putU16 v)

def encode (r : ForwardOpenRequest) : Except EnipError Bytes := do
  let pathBytes ← r.connectionPath.encode
  let words ← pathWords pathBytes
  let oT ← r.writeParams r.oTParams
  let tO ← r.writeParams r.tOParams
  pure (putU8 r.priorityTimeTick ++ putU8 r.timeoutTicks ++ putU32 r.oTConnectionId ++
    putU32 r.tOConnectionId ++ putU16 r.connectionSerial ++ putU16 r.vendorId ++
    putU32 r.originatorSerial ++ putU8 r.timeoutMultiplier.code ++ [0, 0, 0] ++
    putU32 r.oTRpi ++ oT ++ putU32 r.tORpi ++ tO ++ putU8 r.transportClassTrigger ++
    putU8 words ++ pathBytes)

/-- A request that encodes has a path that encodes, and at least 32 more bytes than it. -/
theorem path_of_encode {r : ForwardOpenRequest} {bytes : Bytes} (h : r.encode = .ok bytes) :
    ∃ pathBytes, r.connectionPath.encode = .ok pathBytes ∧
      pathBytes.length + 32 ≤ bytes.length := by
  cases hp : r.connectionPath.encode with
  | error e => simp [encode, hp, bind, Except.bind] at h
  | ok pathBytes =>
      refine ⟨pathBytes, rfl, ?_⟩
      simp only [encode, hp, pathWords_of_encode hp, bind, Except.bind, pure, Except.pure] at h
      cases hoT : r.writeParams r.oTParams with
      | error e => simp [hoT] at h
      | ok oT =>
          cases htO : r.writeParams r.tOParams with
          | error e => simp [hoT, htO] at h
          | ok tO =>
              simp only [hoT, htO, Except.ok.injEq] at h
              subst h
              simp only [List.length_append, putU8_length, putU16_length, putU32_length,
                List.length_cons, List.length_nil]
              omega

end ForwardOpenRequest

/-- The body of a successful ForwardOpen reply. -/
structure ForwardOpenSuccess where
  oTConnectionId : UInt32
  tOConnectionId : UInt32
  connectionSerial : UInt16
  vendorId : UInt16
  originatorSerial : UInt32
  oTApi : UInt32
  tOApi : UInt32
  appData : Bytes
deriving DecidableEq, Repr

def ForwardOpenSuccess.decode (data : Bytes) : Except WireError ForwardOpenSuccess := do
  let r := WireReader.withContext data "connection manager"
  let (oTConnectionId, r) ← r.u32
  let (tOConnectionId, r) ← r.u32
  let (connectionSerial, r) ← r.u16
  let (vendorId, r) ← r.u16
  let (originatorSerial, r) ← r.u32
  let (oTApi, r) ← r.u32
  let (tOApi, r) ← r.u32
  let (appWords, r) ← r.u8
  let (_, r) ← r.u8
  let (appData, _) ← r.take (appWords.toNat * 2)
  pure ⟨oTConnectionId, tOConnectionId, connectionSerial, vendorId, originatorSerial, oTApi,
    tOApi, appData⟩

/-- The originator's identity must come back unchanged. -/
def verifyForwardOpenEcho (open_ : ForwardOpenRequest) (success : ForwardOpenSuccess) :
    Except EnipError Unit :=
  if success.tOConnectionId ≠ open_.tOConnectionId then
    .error (.protocolViolation "forward-open reply t→o connection id mismatch")
  else if success.connectionSerial ≠ open_.connectionSerial then
    .error (.protocolViolation "forward-open reply connection serial mismatch")
  else if success.vendorId ≠ open_.vendorId then
    .error (.protocolViolation "forward-open reply vendor id mismatch")
  else if success.originatorSerial ≠ open_.originatorSerial then
    .error (.protocolViolation "forward-open reply originator serial mismatch")
  else .ok ()

/-- The body of a rejected ForwardOpen or ForwardClose. -/
structure ForwardRequestFail where
  connectionSerial : UInt16
  vendorId : UInt16
  originatorSerial : UInt32
  remainingPathSize : Option UInt8
deriving DecidableEq, Repr

/-- Decode the body; the remaining path size is optional. -/
def ForwardRequestFail.decode (data : Bytes) : Except WireError ForwardRequestFail := do
  let r := WireReader.withContext data "connection manager"
  let (connectionSerial, r) ← r.u16
  let (vendorId, r) ← r.u16
  let (originatorSerial, r) ← r.u32
  if r.remaining ≥ 1 then
    let (rps, _) ← r.u8
    pure ⟨connectionSerial, vendorId, originatorSerial, some rps⟩
  else pure ⟨connectionSerial, vendorId, originatorSerial, none⟩

structure ForwardCloseRequest where
  priorityTimeTick : UInt8
  timeoutTicks : UInt8
  connectionSerial : UInt16
  vendorId : UInt16
  originatorSerial : UInt32
  connectionPath : EPath
deriving DecidableEq, Repr

namespace ForwardCloseRequest

/-- The close that matches an open. -/
def forOpen (open_ : ForwardOpenRequest) : ForwardCloseRequest where
  priorityTimeTick := open_.priorityTimeTick
  timeoutTicks := open_.timeoutTicks
  connectionSerial := open_.connectionSerial
  vendorId := open_.vendorId
  originatorSerial := open_.originatorSerial
  connectionPath := open_.connectionPath

def encode (r : ForwardCloseRequest) : Except EnipError Bytes := do
  let pathBytes ← r.connectionPath.encode
  let words ← pathWords pathBytes
  pure (putU8 r.priorityTimeTick ++ putU8 r.timeoutTicks ++ putU16 r.connectionSerial ++
    putU16 r.vendorId ++ putU32 r.originatorSerial ++ putU8 words ++ putU8 0 ++ pathBytes)

/-- A close encodes when its path does, to twelve bytes more. -/
theorem encode_of_path {r : ForwardCloseRequest} {pathBytes : Bytes}
    (h : r.connectionPath.encode = .ok pathBytes) :
    ∃ bytes, r.encode = .ok bytes ∧ bytes.length = pathBytes.length + 12 := by
  have hwords := pathWords_of_encode h
  refine ⟨_, by simp only [encode, h, hwords, bind, Except.bind, pure, Except.pure]; rfl, ?_⟩
  simp only [List.length_append, putU8_length, putU16_length, putU32_length]
  omega

end ForwardCloseRequest

end EnipAdapter.Model
