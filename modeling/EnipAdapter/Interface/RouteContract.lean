import EnipAdapter.Foundation.Text
import EnipAdapter.Model.Logix

/-!
# Where a request travels

What the nodes on the way of a request read off the bytes that were sent. A router reads the
packet and its Message Router request; an Unconnected_Send it unwraps and forwards along the
route in it; a ForwardOpen or a ForwardClose it passes on along the port segments in front of its
connection path. The reader is stated on its own terms: nothing of it is taken from the encoder.

The contract is that a request's route is travelled exactly once, by one of the two means.
-/

set_option autoImplicit false

namespace EnipAdapter.Interface

open EnipAdapter.Foundation
open EnipAdapter.Model

/-! ## Paths -/

/-- A one-byte logical value. -/
def readByte (mk : UInt8 → Segment) : Bytes → Option (Segment × Bytes)
  | v :: rest => some (mk v, rest)
  | [] => none

/-- A two-byte logical value behind its pad. -/
def readWord (mk : UInt16 → Segment) : Bytes → Option (Segment × Bytes)
  | _ :: a :: b :: rest => some (mk (UInt16.ofNat (ofLeBytes [a, b])), rest)
  | _ => none

/-- A four-byte logical value behind its pad. -/
def readDword (mk : UInt32 → Segment) : Bytes → Option (Segment × Bytes)
  | _ :: a :: b :: c :: d :: rest => some (mk (UInt32.ofNat (ofLeBytes [a, b, c, d])), rest)
  | _ => none

/-- A counted run of bytes, padded to an even count. -/
def readCounted : Bytes → Option (Bytes × Bytes)
  | n :: rest =>
    let padded := n.toNat + n.toNat % 2
    if rest.length < padded then none else some (rest.take n.toNat, rest.drop padded)
  | [] => none

/-- A port segment by its first byte: the port, and the bit of a counted link address. -/
def readPort (first : UInt8) (rest : Bytes) : Option (PortSegment × Bytes) :=
  if first &&& 0x10 = 0 then
    match rest with
    | link :: rest => some (⟨first &&& 0x0F, [link]⟩, rest)
    | [] => none
  else (readCounted rest).map fun (link, rest) => (⟨first &&& 0x0F, link⟩, rest)

/-- One segment of a padded path: the type is in its first byte. -/
def readSegment : Bytes → Option (Segment × Bytes)
  | [] => none
  | first :: rest =>
    if first < 0x20 then (readPort first rest).map fun (s, rest) => (.port s, rest)
    else if first = 0x20 then readByte (fun v => .class_ v.toUInt16) rest
    else if first = 0x21 then readWord .class_ rest
    else if first = 0x24 then readByte (fun v => .instance_ v.toUInt32) rest
    else if first = 0x25 then readWord (fun v => .instance_ v.toUInt32) rest
    else if first = 0x26 then readDword .instance_ rest
    else if first = 0x28 then readByte (fun v => .element v.toUInt32) rest
    else if first = 0x29 then readWord (fun v => .element v.toUInt32) rest
    else if first = 0x2A then readDword .element rest
    else if first = 0x2C then readByte (fun v => .connectionPoint v.toUInt16) rest
    else if first = 0x2D then readWord .connectionPoint rest
    else if first = 0x30 then readByte (fun v => .attribute v.toUInt16) rest
    else if first = 0x31 then readWord .attribute rest
    else if first = 0x91 then
      (readCounted rest).bind fun (name, rest) =>
        (ofUtf8 name).map fun text => (.symbol text, rest)
    else none

/-- Segments to the end of the bytes; every segment is at least one byte long. -/
def readSegments : ℕ → Bytes → Option (List Segment)
  | _, [] => some []
  | 0, _ :: _ => none
  | n + 1, first :: rest => do
    let (s, rest) ← readSegment (first :: rest)
    let ss ← readSegments n rest
    pure (s :: ss)

def readPath (bytes : Bytes) : Option (List Segment) := readSegments bytes.length bytes

/-- A path under its length in words, and what follows it. -/
def readSizedPath (words : UInt8) (rest : Bytes) : Option (List Segment × Bytes) :=
  if rest.length < 2 * words.toNat then none
  else (readPath (rest.take (2 * words.toNat))).map (·, rest.drop (2 * words.toNat))

/-! ## Requests -/

/-- A Message Router request as it is read. -/
structure ReadRequest where
  service : UInt8
  path : List Segment
  data : Bytes
deriving DecidableEq, Repr

def readRequest : Bytes → Option ReadRequest
  | service :: words :: rest =>
    (readSizedPath words rest).map fun (path, data) => ⟨service, path, data⟩
  | _ => none

/-- The request of a SendRRData payload: behind the interface handle and the timeout, the
unconnected data item of the packet. -/
def readPayload (payload : Bytes) : Option ReadRequest :=
  match Cpf.decode (payload.drop 6) with
  | .ok cpf => (cpf.find .unconnectedData).bind fun item => readRequest item.data
  | .error _ => none

/-- The port segments of a path that has no other segment. -/
def portsOf : List Segment → Option (List PortSegment)
  | [] => some []
  | .port s :: rest => (portsOf rest).map (s :: ·)
  | _ :: _ => none

/-- The port segments in front of a path, and the path behind them. -/
def splitRoute : List Segment → List PortSegment × List Segment
  | .port s :: rest => (s :: (splitRoute rest).1, (splitRoute rest).2)
  | path => ([], path)

/-- The body of an Unconnected_Send: the embedded request, padded to an even length, and the
route to forward it along. -/
def readUnconnectedSend : Bytes → Option (List PortSegment × ReadRequest)
  | _ :: _ :: a :: b :: rest =>
    let size := ofLeBytes [a, b]
    match rest.drop (size + size % 2) with
    | words :: _ :: tail => do
      let request ← readRequest (rest.take size)
      let (path, _) ← readSizedPath words tail
      let route ← portsOf path
      pure (route, request)
    | _ => none
  | _ => none

/-- What stands in front of the connection path in the body of a Connection Manager service:
its fields, and whether a reserved byte follows the path's length. -/
def connectionFields (service : UInt8) : Option (ℕ × ℕ) :=
  if service = forwardOpenService then some (35, 0)
  else if service = largeForwardOpenService then some (39, 0)
  else if service = forwardCloseService then some (10, 1)
  else none

/-! ## Journeys -/

/-- What becomes of a request on its way: the route of the wrapper it came in, the service, the
object and the data, and of a connection's open or close the route and the path of the
connection. -/
structure Journey where
  wrapper : List PortSegment
  service : UInt8
  object : List Segment
  data : Bytes
  connectionRoute : List PortSegment
  connectionPath : List Segment
deriving DecidableEq, Repr

/-- The end of the way: a Connection Manager service splits off its connection path. -/
def arrive (wrapper : List PortSegment) (request : ReadRequest) : Option Journey :=
  match connectionFields request.service with
  | some (fields, reserved) =>
    if request.path = connectionManagerPath.segments then
      match request.data.drop fields with
      | words :: tail => do
        let (path, _) ← readSizedPath words (tail.drop reserved)
        let (route, target) := splitRoute path
        pure ⟨wrapper, request.service, request.path, request.data.take fields, route, target⟩
      | [] => none
    else some ⟨wrapper, request.service, request.path, request.data, [], []⟩
  | none => some ⟨wrapper, request.service, request.path, request.data, [], []⟩

/-- The way of a payload: an Unconnected_Send is unwrapped once. -/
def journey (payload : Bytes) : Option Journey := do
  let request ← readPayload payload
  if request.service = unconnectedSendService ∧
      request.path = connectionManagerPath.segments then do
    let (route, inner) ← readUnconnectedSend request.data
    arrive route inner
  else arrive [] request

/-! ## What a client sends -/

/-- The fields of a ForwardOpen in front of its connection path. -/
def openFields (r : ForwardOpenRequest) : Except EnipError Bytes := do
  let oT ← r.writeParams r.oTParams
  let tO ← r.writeParams r.tOParams
  pure (putU8 r.priorityTimeTick ++ putU8 r.timeoutTicks ++ putU32 r.oTConnectionId ++
    putU32 r.tOConnectionId ++ putU16 r.connectionSerial ++ putU16 r.vendorId ++
    putU32 r.originatorSerial ++ putU8 r.timeoutMultiplier.code ++ [0, 0, 0] ++
    putU32 r.oTRpi ++ oT ++ putU32 r.tORpi ++ tO ++ putU8 r.transportClassTrigger)

/-- The fields of a ForwardClose in front of its connection path. -/
def closeFields (r : ForwardCloseRequest) : Bytes :=
  putU8 r.priorityTimeTick ++ putU8 r.timeoutTicks ++ putU16 r.connectionSerial ++
    putU16 r.vendorId ++ putU32 r.originatorSerial

/-- A request that is put on the wire: a tag service of a client, the open and the close of its
class-3 connection, and the open and the close of an I/O connection. A tag service is addressed
to some object other than the Connection Manager. -/
inductive RoutedRequest where
  | tag (route : Option RoutePath) (mr : MessageRequest)
      (other : mr.path ≠ connectionManagerPath)
  | class3Open (opts : ClientOptions) (env : Class3Env)
  | class3Close (opts : ClientOptions) (env : Class3Env)
  | class1Open (localPort : UInt16) (spec : IoConnectionSpec) (env : OpenEnv)
  | class1Close (spec : IoConnectionSpec) (env : OpenEnv)

/-- The ForwardOpen of an I/O connection, with the ids the environment drew. -/
def class1Request (spec : IoConnectionSpec) (env : OpenEnv) :
    Except EnipError ForwardOpenRequest :=
  buildClass1Open spec (env.randomConnectionId ||| 1) (env.randomSerial ||| 1)
    env.randomOriginator

namespace RoutedRequest

/-- The bytes the request is on the wire: the payload of one SendRRData. -/
def payload : RoutedRequest → Except EnipError Bytes
  | .tag route mr _ => unconnectedPayload route mr
  | .class3Open opts env => do
    let open_ := Model.class3Open opts env
    let data ← open_.encode
    unconnectedPayload opts.route ⟨open_.service, connectionManagerPath, data⟩
  | .class3Close opts env => do
    let data ← (ForwardCloseRequest.forOpen (Model.class3Open opts env)).encode
    unconnectedPayload opts.route ⟨forwardCloseService, connectionManagerPath, data⟩
  | .class1Open localPort spec env => do
    let open_ ← class1Request spec env
    let data ← open_.encode
    let sock := (SockAddrInfo.ipv4 0 localPort).encode
    cmUcmmPayload ⟨open_.service, connectionManagerPath, data⟩
      [⟨.sockAddrOtoT, sock⟩, ⟨.sockAddrTtoO, sock⟩]
  | .class1Close spec env => do
    let open_ ← class1Request spec env
    let data ← (ForwardCloseRequest.forOpen open_).encode
    cmUcmmPayload ⟨forwardCloseService, connectionManagerPath, data⟩ []

/-- The route the request is meant to travel. -/
def route : RoutedRequest → List PortSegment
  | .tag route _ _ => (route.map (·.segments)).getD []
  | .class3Open opts _ | .class3Close opts _ => (opts.route.map (·.segments)).getD []
  | .class1Open _ spec _ | .class1Close spec _ => spec.assembly.route

end RoutedRequest

/-- What a request is meant to do where it arrives. -/
structure Intent where
  service : UInt8
  object : List Segment
  data : Bytes
  connectionPath : List Segment
deriving DecidableEq, Repr

def RoutedRequest.intent : RoutedRequest → Except EnipError Intent
  | .tag _ mr _ => .ok ⟨mr.service, mr.path.segments, mr.data, []⟩
  | .class3Open opts env => do
    let fields ← openFields (Model.class3Open opts env)
    pure ⟨forwardOpenService, connectionManagerPath.segments, fields, messageRouterPath.segments⟩
  | .class3Close opts env =>
    .ok ⟨forwardCloseService, connectionManagerPath.segments,
      closeFields (ForwardCloseRequest.forOpen (Model.class3Open opts env)),
      messageRouterPath.segments⟩
  | .class1Open _ spec env => do
    let open_ ← class1Request spec env
    let fields ← openFields open_
    pure ⟨open_.service, connectionManagerPath.segments, fields,
      (ioConnectionPath spec.assembly.config spec.assembly.output
        spec.assembly.input).segments⟩
  | .class1Close spec env => do
    let open_ ← class1Request spec env
    pure ⟨forwardCloseService, connectionManagerPath.segments,
      closeFields (ForwardCloseRequest.forOpen open_),
      (ioConnectionPath spec.assembly.config spec.assembly.output
        spec.assembly.input).segments⟩

/-- The request arrives as it was meant, and its route is travelled exactly once: along the
wrapper, or along the front of the connection path. -/
def TravelsOnce (q : RoutedRequest) (payload : Bytes) : Prop :=
  ∃ intent j, q.intent = .ok intent ∧ journey payload = some j ∧
    (⟨j.service, j.object, j.data, j.connectionPath⟩ : Intent) = intent ∧
    ((j.wrapper = q.route ∧ j.connectionRoute = []) ∨
      (j.wrapper = [] ∧ j.connectionRoute = q.route))

/-- What the encoding of a route and of a path can carry: a port segment without a link address
is on the wire what a port segment with the link address 0 is. -/
def LinksNamed (segments : List Segment) : Prop := ∀ s, Segment.port s ∈ segments → s.link ≠ []

/-- No class-3 connection is opened or closed along a route, and every port segment names a
link. -/
def RoutedCleanly (q : RoutedRequest) : Prop :=
  LinksNamed (q.route.map .port) ∧
    match q with
    | .tag _ mr _ => LinksNamed mr.path.segments
    | .class3Open _ _ | .class3Close _ _ => q.route = []
    | .class1Open _ _ _ | .class1Close _ _ => True

end EnipAdapter.Interface
