import EnipAdapter.Foundation.Refuse
import EnipAdapter.Model.ConnectionManager
import EnipAdapter.Model.IoManager

/-!
# Opening a class-1 connection

`IoManager::forward_open` (`io.rs`): build and issue the ForwardOpen, check the reply, and
register the connection with the manager task. What the session answers to each
Connection-Manager request and what the manager task does with the `Add` are the
environment's; the requests issued are logged in order.
-/

set_option autoImplicit false

namespace EnipAdapter.Model

open EnipAdapter.Foundation

/-- One direction of a class-1 connection request. -/
structure DirectionSpec where
  rpi : Duration
  dataSize : ℕ
  format : RealTimeFormat
  connType : ConnType
  priority : Priority
  variable_ : VariableLength
deriving DecidableEq, Repr

/-- The assembly instances of a class-1 open. -/
structure AssemblyPath where
  config : Option UInt16
  output : UInt16
  input : UInt16
  route : List PortSegment
deriving DecidableEq, Repr

/-- The class-1 open the adapter asks for. -/
structure IoConnectionSpec where
  assembly : AssemblyPath
  t2o : DirectionSpec
  o2t : DirectionSpec
  timeoutMultiplier : TimeoutMultiplier
  trigger : ProductionTrigger
  vendorId : UInt16
deriving DecidableEq, Repr

def ioUdpPort : UInt16 := 2222

/-- The largest connection size of the small ForwardOpen. -/
def largeForwardOpenThreshold : ℕ := 505

/-- The shortest packet interval a reply may name. -/
def minReplyApi : Duration := Duration.fromMicros 100

def maxReplyApi : Duration := Duration.fromSecs 600

/-- The on-wire size of a direction: its overhead and, if the format carries it, its data. -/
def onWireSize (d : DirectionSpec) : Except EnipError UInt16 :=
  let total := d.format.overhead + (if d.format.carriesData then d.dataSize else 0)
  if total < 2 ^ 16 then .ok (UInt16.ofNat total) else .error (.tooLarge 65535)

/-- A duration as microseconds in a `u32` RPI field. -/
def durationToMicros (d : Duration) : Except EnipError UInt32 :=
  if d / 1000 < 2 ^ 32 then .ok (UInt32.ofNat (d / 1000)) else .error (.tooLarge (2 ^ 32 - 1))

/-- Build the ForwardOpen of a spec: size both directions, prefix the route. -/
def buildClass1Open (spec : IoConnectionSpec) (t2oConnectionId : UInt32)
    (connectionSerial : UInt16) (originatorSerial : UInt32) :
    Except EnipError ForwardOpenRequest := do
  let o2tSize ← onWireSize spec.o2t
  let t2oSize ← onWireSize spec.t2o
  let large : Bool :=
    o2tSize.toNat > largeForwardOpenThreshold ∨ t2oSize.toNat > largeForwardOpenThreshold
  let o2tParams :=
    NetworkConnectionParams.io o2tSize spec.o2t.variable_ spec.o2t.priority spec.o2t.connType
  let t2oParams :=
    NetworkConnectionParams.io t2oSize spec.t2o.variable_ spec.t2o.priority spec.t2o.connType
  let o2tRpi ← durationToMicros spec.o2t.rpi
  let t2oRpi ← durationToMicros spec.t2o.rpi
  let base := ioConnectionPath spec.assembly.config spec.assembly.output spec.assembly.input
  let path : EPath := ⟨spec.assembly.route.map Segment.port ++ base.segments⟩
  pure (ForwardOpenRequest.class1 t2oConnectionId connectionSerial spec.vendorId
    originatorSerial spec.timeoutMultiplier o2tRpi o2tParams t2oRpi t2oParams
    (transportClass1Trigger spec.trigger) path large)

/-- Both packet intervals of a reply must be usable timer values. -/
def validateReplyApis (success : ForwardOpenSuccess) : Except EnipError (Duration × Duration) :=
  let o2t := Duration.fromMicros success.oTApi.toNat
  let t2o := Duration.fromMicros success.tOApi.toNat
  let bad (api : Duration) : Bool := api < minReplyApi ∨ api > maxReplyApi
  if bad o2t ∨ bad t2o then .error (.protocolViolation "forward-open reply API out of range")
  else .ok (o2t, t2o)

/-- How the O→T sockaddr of a reply was treated. -/
inductive TxEndpointDisposition where
  | direct
  | portOnly
  | honored
  | refusedForeign (ip : IpAddr)
deriving DecidableEq, Repr

/-- The O→T transmit endpoint: a reply may retarget the port, never the address. -/
def resolveTxEndpoint (o2tSock : Option SockAddrInfo) (targetIp : Option IpAddr) :
    Except EnipError (SocketAddr × TxEndpointDisposition) :=
  match targetIp with
  | none => .error (.protocolViolation "no O→T transmit address available")
  | some target =>
      match o2tSock with
      | none => .ok (⟨target, ioUdpPort⟩, .direct)
      | some s =>
          let sockIp : IpAddr := .v4 s.sinAddr
          let port := if s.sinPort ≠ 0 then s.sinPort else ioUdpPort
          let disposition :=
            if s.sinAddr = 0 then .portOnly
            else if sockIp = target then .honored
            else .refusedForeign sockIp
          .ok (⟨target, port⟩, disposition)

/-- Whether an IPv4 address is in `224.0.0.0/4`. -/
def isMulticast (addr : UInt32) : Bool := addr >>> 28 = 0xE

/-- The T→O multicast group of a reply: only on a connection that asked for multicast. -/
def resolveMulticastGroup (t2oSock : Option SockAddrInfo) (requestedT2o : ConnType) :
    Except EnipError (Option UInt32) :=
  match t2oSock with
  | none => .ok none
  | some s =>
      if ¬ isMulticast s.sinAddr then .ok none
      else
        match requestedT2o with
        | .multicast => .ok (some s.sinAddr)
        | .p2p => .error
            (.protocolViolation "multicast T→O sockaddr on a point-to-point request")
        | .null => .error
            (.protocolViolation "multicast T→O sockaddr on a null (reconfigure) request")

/-- The handle of an open connection. -/
structure IoConnectionHandle where
  connectionId : UInt32
  o2tDataSize : ℕ
  o2tFixed : Bool
  o2tCarriesData : Bool
  o2tApi : Duration
  t2oApi : Duration
  openRequest : ForwardOpenRequest
deriving DecidableEq, Repr

/-- What the manager task does with the `Add`: it is gone and the send fails, it drops the
acknowledgement, or it handles the command, with the multicast join answering `join`. -/
inductive ManagerLink where
  | gone
  | ackDropped
  | served (m : Manager) (join : Except ErrorKind Unit)

/-- Everything outside `forward_open` that it depends on. -/
structure OpenEnv where
  randomConnectionId : UInt32
  randomSerial : UInt16
  randomOriginator : UInt32
  /-- What `cm_ucmm` answers to the n-th request. -/
  answers : ℕ → Except EnipError Cpf
  targetIp : Option IpAddr
  link : ManagerLink
  /-- The event queue made for the connection. -/
  eventsTx : IoEventSender
  now : Instant

/-- A Connection-Manager request with its extra items, as handed to the session. -/
abbrev CmRequest := MessageRequest × List CpfItem

/-- What a call of `forward_open` did: the requests it issued, the manager after the `Add`
if the task handled it, and the result. -/
structure OpenRun where
  issued : List CmRequest
  manager : Option Manager
  result : Except EnipError IoConnectionHandle

/-- The Message Router reply to a ForwardOpen, once its service was checked. -/
def forwardOpenReply (service : UInt8) (cpf : Cpf) : Except EnipError MessageReply := do
  match cpf.find .unconnectedData with
  | none => .error (.protocolViolation "forward-open reply missing data item")
  | some item =>
      let reply ← liftWire (MessageReply.decode item.data)
      reply.expectService service
      pure reply

/-- The error of a rejected open. -/
def forwardOpenRejected (reply : MessageReply) : EnipError :=
  .forwardOpenRejected reply.status
    ((ForwardRequestFail.decode reply.data).toOption.bind (·.remainingPathSize))

/-- The requests of a best-effort ForwardClose: none when the close does not encode. -/
def bestEffortForwardClose (open_ : ForwardOpenRequest) : List CmRequest :=
  match (ForwardCloseRequest.forOpen open_).encode with
  | .ok data => [(⟨forwardCloseService, connectionManagerPath, data⟩, [])]
  | .error _ => []

/-- The checks between the decoded reply and the `Add`: the echo, the intervals, the
transmit endpoint and the multicast group. -/
def negotiate (spec : IoConnectionSpec) (open_ : ForwardOpenRequest) (cpf : Cpf)
    (success : ForwardOpenSuccess) (targetIp : Option IpAddr) :
    Except EnipError IoConnectionParams := do
  verifyForwardOpenEcho open_ success
  let (o2tApi, t2oApi) ← validateReplyApis success
  let sock (typeId : ItemType) : Option SockAddrInfo :=
    (cpf.find typeId).bind (fun i => (SockAddrInfo.decode i.data).toOption)
  let (txEndpoint, _) ← resolveTxEndpoint (sock .sockAddrOtoT) targetIp
  let multicastGroup ← resolveMulticastGroup (sock .sockAddrTtoO) spec.t2o.connType
  pure {
    o2tConnectionId := success.oTConnectionId
    t2oConnectionId := open_.tOConnectionId
    o2tApi := o2tApi
    t2oApi := t2oApi
    timeoutMultiplier := spec.timeoutMultiplier.multiplier
    o2tFormat := spec.o2t.format
    t2oFormat := spec.t2o.format
    o2tDataSize := spec.o2t.dataSize
    t2oDataSize := spec.t2o.dataSize
    o2tFixed := spec.o2t.variable_ = .fixed
    t2oFixed := spec.t2o.variable_ = .fixed
    txEndpoint := txEndpoint
    expectedSourceIp := txEndpoint.ip
    multicastGroup := multicastGroup }

/-- What a reply settles keeps the spec's O→T format and the open's T→O id. -/
theorem negotiate_ok {spec : IoConnectionSpec} {open_ : ForwardOpenRequest} {cpf : Cpf}
    {success : ForwardOpenSuccess} {targetIp : Option IpAddr} {params : IoConnectionParams}
    (h : negotiate spec open_ cpf success targetIp = .ok params) :
    params.o2tFormat = spec.o2t.format ∧ params.t2oConnectionId = open_.tOConnectionId := by
  simp only [negotiate, bind_ok] at h
  obtain ⟨_, _, apis, _, endpoint, _, group, _, h⟩ := h
  cases h
  exact ⟨rfl, rfl⟩

/-- The verdict the manager sent on an acknowledgement, if it sent one. -/
def verdictOn (ack : ℕ) (effects : List ManagerEffect) : Option (Except EnipError Unit) :=
  effects.findSome? fun
    | .verdict a result => if a = ack then some result else none
    | _ => none

/-- Hand the connection to the manager task and wait for its verdict. The opener is waiting,
so the task finds the acknowledgement open. -/
def armConnection (params : IoConnectionParams) (env : OpenEnv) :
    Option Manager × Except EnipError Unit :=
  match env.link with
  | .gone => (none, .error .closed)
  | .ackDropped => (none, .error .closed)
  | .served m join =>
      let (m, effects) :=
        m.step (.command (.add params env.now env.eventsTx 0) ⟨env.now, join, true⟩)
      (some m, (verdictOn 0 effects).getD (.error .closed))

/-- `IoManager::forward_open`, from a manager bound to `localPort`. -/
def forwardOpen (localPort : UInt16) (spec : IoConnectionSpec) (env : OpenEnv) : OpenRun :=
  let request := do
    let open_ ← buildClass1Open spec (env.randomConnectionId ||| 1) (env.randomSerial ||| 1)
      env.randomOriginator
    let data ← open_.encode
    pure (open_, data)
  match request with
  | .error e => ⟨[], none, .error e⟩
  | .ok (open_, data) =>
      let sock := (SockAddrInfo.ipv4 0 localPort).encode
      let issued : List CmRequest :=
        [(⟨open_.service, connectionManagerPath, data⟩,
          [⟨.sockAddrOtoT, sock⟩, ⟨.sockAddrTtoO, sock⟩])]
      match env.answers 0 with
      | .error e => ⟨issued, none, .error e⟩
      | .ok cpf =>
          match forwardOpenReply open_.service cpf with
          | .error e => ⟨issued, none, .error e⟩
          | .ok reply =>
              if ¬ reply.status.isOk then ⟨issued, none, .error (forwardOpenRejected reply)⟩
              else
                match liftWire (ForwardOpenSuccess.decode reply.data) with
                | .error e => ⟨issued, none, .error e⟩
                | .ok success =>
                    -- past this point every failure closes what the target has opened
                    let close := bestEffortForwardClose open_
                    match negotiate spec open_ cpf success env.targetIp with
                    | .error e => ⟨issued ++ close, none, .error e⟩
                    | .ok params =>
                        match armConnection params env with
                        | (m, .error e) => ⟨issued ++ close, m, .error e⟩
                        | (m, .ok ()) =>
                            ⟨issued, m, .ok {
                              connectionId := open_.tOConnectionId
                              o2tDataSize := spec.o2t.dataSize
                              o2tFixed := spec.o2t.variable_ = .fixed
                              o2tCarriesData := spec.o2t.format.carriesData
                              o2tApi := params.o2tApi
                              t2oApi := params.t2oApi
                              openRequest := open_ }⟩

end EnipAdapter.Model
