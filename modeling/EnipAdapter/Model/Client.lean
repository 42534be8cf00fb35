import EnipAdapter.Model.ForwardOpen
import EnipAdapter.Model.Session

/-!
# The explicit-messaging client

Unconnected sends, with the route wrapper, and the class-3 open (`client/mod.rs`,
`client/connected.rs`). The session actor behind `transaction` is the environment here: it
may answer every request with any frame or any error.
-/

set_option autoImplicit false

namespace EnipAdapter.Model

/-- A route to a chassis module. -/
structure RoutePath where
  segments : List PortSegment
deriving DecidableEq, Repr

namespace RoutePath

/-- The route to a slot of the local chassis. -/
def backplaneSlot (slot : UInt8) : RoutePath := ⟨[⟨1, [slot]⟩]⟩

/-- The route as a path of its own. -/
def toEpath (r : RoutePath) : EPath := ⟨r.segments.map Segment.port⟩

/-- The route in front of a path. -/
def prefixed (r : RoutePath) (base : EPath) : EPath :=
  if r.segments = [] then base else ⟨r.segments.map Segment.port ++ base.segments⟩

end RoutePath

/-- The options the class-3 open reads. -/
structure ClientOptions where
  route : Option RoutePath
  vendorId : UInt16
  class3Rpi : Duration
  class3TimeoutMultiplier : TimeoutMultiplier
deriving DecidableEq, Repr

/-- Wrap a request in an Unconnected_Send along a route. -/
def wrapUnconnectedSend (inner : MessageRequest) (route : RoutePath) :
    Except EnipError MessageRequest := do
  let emb ← inner.encode
  if emb.length ≥ 2 ^ 16 then .error (.tooLarge 65535)
  else
    let routeBytes ← route.toEpath.encode
    let words ← pathWords routeBytes
    pure ⟨unconnectedSendService, connectionManagerPath,
      [0x03, 0xFA] ++ putU16 (UInt16.ofNat emb.length) ++ emb ++
        (if emb.length % 2 = 1 then [0] else []) ++ [words, 0] ++ routeBytes⟩

/-- The encapsulation data of an item list: interface handle and timeout are 0. -/
def encapDataWithCpf (cpf : Cpf) : Except EnipError Bytes := do
  let bytes ← liftWire cpf.encode
  pure (putU32 0 ++ putU16 0 ++ bytes)

/-- The Message Router reply of a SendRRData frame. -/
def parseExplicitReply (frame : EncapFrame) : Except EnipError MessageReply := do
  if ¬ frame.header.status.isOk then .error (.encap frame.header.status)
  else
    let r := WireReader.withContext frame.data "sendrrdata reply"
    let (interfaceHandle, r) ← liftWire r.u32
    if interfaceHandle ≠ 0 then
      .error (.protocolViolation "non-zero interface handle in SendRRData reply")
    else
      let (_, r) ← liftWire r.u16
      let cpf ← liftWire (Cpf.decode r.takeRest.1)
      let mrBytes ← liftWire cpf.expectExplicitData
      liftWire (MessageReply.decode mrBytes)

/-- The SendRRData payload of an unconnected request: wrapped when there is a route. -/
def unconnectedPayload (route : Option RoutePath) (mr : MessageRequest) :
    Except EnipError Bytes := do
  let outer ←
    match route with
    | some r => if r.segments = [] then pure mr else wrapUnconnectedSend mr r
    | none => pure mr
  let mrBytes ← outer.encode
  encapDataWithCpf ⟨[CpfItem.nullAddress, CpfItem.unconnectedData mrBytes]⟩

/-- `cm_ucmm`: the payload of a Connection Manager request of an I/O connection, whose route is
in the connection path, so that it is never wrapped. -/
def cmUcmmPayload (request : MessageRequest) (extraItems : List CpfItem) :
    Except EnipError Bytes := do
  let mrBytes ← request.encode
  encapDataWithCpf ⟨[CpfItem.nullAddress, CpfItem.unconnectedData mrBytes] ++ extraItems⟩

/-- An unconnected send: the transactions it starts, and the reply. -/
def sendUnconnected (route : Option RoutePath) (mr : MessageRequest)
    (answer : Except EnipError EncapFrame) :
    List (Command × Bytes) × Except EnipError MessageReply :=
  match unconnectedPayload route mr with
  | .error e => ([], .error e)
  | .ok data => ([(.sendRRData, data)], answer.bind parseExplicitReply)

/-- Live class-3 connection state, as the open builds it. -/
structure ConnectedState where
  oTConnectionId : UInt32
  tOConnectionId : UInt32
  sequence : UInt16
  openRequest : ForwardOpenRequest
  inactivityWindow : Duration
  negotiatedInterval : Duration
  timeoutMultiplier : TimeoutMultiplier
deriving DecidableEq, Repr

/-- The reply's interval when it is plausible, else the requested one. -/
def class3NegotiatedInterval (requestedRpi : Duration) (success : ForwardOpenSuccess) :
    Duration :=
  let api := Duration.fromMicros success.oTApi.toNat
  if minReplyApi ≤ api ∧ api ≤ maxReplyApi then api else requestedRpi

def class3InactivityWindow (requestedRpi : Duration) (multiplier : TimeoutMultiplier)
    (success : ForwardOpenSuccess) : Duration :=
  (Duration.checkedMul (class3NegotiatedInterval requestedRpi success)
    multiplier.multiplier).getD Duration.max

/-- Everything outside `open_class3` that it depends on. -/
structure Class3Env where
  randomConnectionId : UInt32
  randomSerial : UInt16
  randomOriginator : UInt32
  /-- What `transaction` answers to the n-th request. -/
  answers : ℕ → Except EnipError EncapFrame

/-- What a call of `open_class3` did. -/
structure Class3Run where
  issued : List (Command × Bytes)
  result : Except EnipError ConnectedState

/-- The class-3 open of a client. -/
def class3Open (opts : ClientOptions) (env : Class3Env) : ForwardOpenRequest :=
  let path :=
    match opts.route with
    | some route => route.prefixed messageRouterPath
    | none => messageRouterPath
  -- one clamp, so that neither the wire value nor the derived window is pathological
  let rpi := max minReplyApi (min opts.class3Rpi maxReplyApi)
  ForwardOpenRequest.class3 0 (env.randomConnectionId ||| 1) (env.randomSerial ||| 1)
    opts.vendorId env.randomOriginator path (UInt32.ofNat (rpi / 1000))
    opts.class3TimeoutMultiplier

/-- The class-3 teardown: nothing when the close does not encode. -/
def class3ForwardClose (route : Option RoutePath) (open_ : ForwardOpenRequest)
    (answer : Except EnipError EncapFrame) : List (Command × Bytes) :=
  match (ForwardCloseRequest.forOpen open_).encode with
  | .ok data =>
      (sendUnconnected route ⟨forwardCloseService, connectionManagerPath, data⟩ answer).1
  | .error _ => []

/-- `EipClient::open_class3`, on a client whose route is `route`. -/
def openClass3 (route : Option RoutePath) (opts : ClientOptions) (env : Class3Env) :
    Class3Run :=
  let open_ := class3Open opts env
  let rpi := max minReplyApi (min opts.class3Rpi maxReplyApi)
  match open_.encode with
  | .error e => ⟨[], .error e⟩
  | .ok data =>
      let (issued, answer) :=
        sendUnconnected route ⟨open_.service, connectionManagerPath, data⟩ (env.answers 0)
      let reply := do
        let reply ← answer
        reply.expectService open_.service
        pure reply
      match reply with
      | .error e => ⟨issued, .error e⟩
      | .ok reply =>
          if ¬ reply.status.isOk then ⟨issued, .error (forwardOpenRejected reply)⟩
          else
            match liftWire (ForwardOpenSuccess.decode reply.data) with
            | .error e => ⟨issued, .error e⟩
            | .ok success =>
                match verifyForwardOpenEcho open_ success with
                | .error e =>
                    ⟨issued ++ class3ForwardClose route open_ (env.answers 1), .error e⟩
                | .ok () =>
                    ⟨issued, .ok {
                      oTConnectionId := success.oTConnectionId
                      tOConnectionId := open_.tOConnectionId
                      sequence := 0
                      openRequest := open_
                      inactivityWindow := class3InactivityWindow rpi
                        opts.class3TimeoutMultiplier success
                      negotiatedInterval := class3NegotiatedInterval rpi success
                      timeoutMultiplier := opts.class3TimeoutMultiplier }⟩

end EnipAdapter.Model
