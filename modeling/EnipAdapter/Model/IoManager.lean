import EnipAdapter.Model.IoConnection
import Mathlib.Data.List.AList
import Mathlib.Data.List.Perm.Basic

/-!
# The class-1 I/O manager

One task owns the UDP socket, the connections and the producer halves of their event
queues (`io.rs`, `manager_task`). Its `select!` loop is a step function: an input is what
one arm of the `select!` received, with everything the environment decides about it (the
clock, the socket's answers, the order a hash map is iterated in), and a step returns the
manager after it with what it did to the outside.
-/

set_option autoImplicit false

namespace EnipAdapter.Model

structure ManagerCounters where
  malformedFrames : ℕ := 0
  unknownConnection : ℕ := 0
  recvErrors : ℕ := 0
  sourceMismatchDatagrams : ℕ := 0
deriving DecidableEq, Repr

/-- The connections by their T→O connection id. -/
abbrev Connections := AList (fun _ : UInt32 => IoConnection)

structure Registry where
  conns : Connections
  stats : ManagerCounters

/-- The result of routing one datagram. -/
inductive Routed where
  | accepted (connectionId : UInt32) (first : Bool) (update : IoUpdate)
  | dropped (connectionId : Option UInt32) (reason : DropReason)
deriving DecidableEq, Repr

namespace Registry

/-- Drop a datagram that has no class-1 shape. -/
def dropMalformed (reg : Registry) : Registry × Routed :=
  ({ reg with stats := { reg.stats with malformedFrames := reg.stats.malformedFrames + 1 } },
    .dropped none .malformed)

/-- Decode `buf`, received from `srcIp`, as a class-1 datagram and route it. -/
def consumeDatagram (reg : Registry) (buf : Bytes) (srcIp : IpAddr) (now : Instant) :
    Registry × Routed :=
  match Cpf.decode buf with
  | .error _ => reg.dropMalformed
  | .ok cpf =>
      match cpf.find .sequencedAddress, cpf.find .connectedData with
      | some addrItem, some dataItem =>
          match SequencedAddress.decode addrItem.data with
          | .error _ => reg.dropMalformed
          | .ok addr =>
              match reg.conns.lookup addr.connectionId with
              | none =>
                  ({ reg with stats := { reg.stats with
                      unknownConnection := reg.stats.unknownConnection + 1 } },
                    .dropped (some addr.connectionId) .unknownConnection)
              | some conn =>
                  if srcIp ≠ conn.params.expectedSourceIp then
                    ({ reg with stats := { reg.stats with
                        sourceMismatchDatagrams := reg.stats.sourceMismatchDatagrams + 1 } },
                      .dropped (some addr.connectionId) .sourceMismatch)
                  else
                    let (conn, outcome) := conn.consume dataItem.data addr.encapSequence now
                    let reg := { reg with conns := reg.conns.insert addr.connectionId conn }
                    match outcome with
                    | .accepted first update =>
                        (reg, .accepted addr.connectionId first update)
                    | .dropped reason => (reg, .dropped (some addr.connectionId) reason)
      | _, _ => reg.dropMalformed

end Registry

/-- The producer half of one connection's event queue, named by the queue it feeds. -/
structure IoEventSender where
  channel : ℕ
deriving DecidableEq, Repr

/-- A command to the manager task. `add` carries the connection `forward_open` has just
built with `IoConnection::new(params, opened_at)`; nothing else sends one. An `ack` names
the caller's `oneshot`. -/
inductive ManagerCommand where
  | add (params : IoConnectionParams) (openedAt : Instant) (eventsTx : IoEventSender) (ack : ℕ)
  | setOutput (connectionId : UInt32) (bytes : Bytes) (deadline : Option Instant)
      (ack : Option ℕ)
  | setRun (connectionId : UInt32) (run : Bool)
  | remove (connectionId : UInt32)
  | shutdown
deriving DecidableEq, Repr

/-- What the environment decides about the handling of one command. -/
structure CommandEnv where
  /-- The clock. -/
  now : Instant
  /-- What `join_multicast_v4` answers, if it is asked. -/
  join : Except ErrorKind Unit
  /-- Whether the receiver of the command's `ack` is still there. -/
  ackOpen : Bool

/-- What one arm of the manager's `select!` receives. `order` is the order in which the
hash map yields its keys; `sends` is what `send_to` answers for each connection. -/
inductive ManagerInput where
  | command (cmd : ManagerCommand) (env : CommandEnv)
  | commandsClosed
  | datagram (buf : Bytes) (src : SocketAddr) (now : Instant)
  | recvError (kind : ErrorKind) (order : List UInt32)
  | tick (now : Instant) (order : List UInt32) (sends : UInt32 → Except ErrorKind Unit)

/-- What a step does to the outside. -/
inductive ManagerEffect where
  /-- `tx.send(ev)` on the queue of a connection. -/
  | event (connectionId : UInt32) (tx : IoEventSender) (ev : IoEvent)
  /-- A verdict on an `ack`. -/
  | verdict (ack : ℕ) (result : Except EnipError Unit)
  /-- A datagram handed to the socket. -/
  | send (connectionId : UInt32) (endpoint : SocketAddr) (datagram : Bytes)
  | joined (group : UInt32)
  | left (group : UInt32)

structure Manager where
  registry : Registry
  events : AList (fun _ : UInt32 => IoEventSender)
  /-- `RecvErrorPolicy::consecutive_fatal`. -/
  consecutiveFatal : ℕ
  /-- Whether the task is still in its loop. -/
  running : Bool

inductive RecvErrorAction where
  | continue_
  | fatalSocket
deriving DecidableEq, Repr

def onRecvError (consecutiveFatal : ℕ) (kind : ErrorKind) : ℕ × RecvErrorAction :=
  if isPerDatagramError kind then (0, .continue_)
  else
    let n := min (consecutiveFatal + 1) (2 ^ 32 - 1)
    if n ≥ maxConsecutiveFatalRecvErrors then (n, .fatalSocket) else (n, .continue_)

/-- Has a carried staging deadline already passed? -/
def expired (deadline : Option Instant) (now : Instant) : Bool :=
  deadline.any (fun d => d ≤ now)

/-- The label of a staging timeout. -/
def outputStaging : String := "output staging"

/-- What the send of a produced frame yields: a frame that could not be built is accounted
like a failed send. -/
def sendResult (produced : Except EnipError Bytes) (send : Except ErrorKind Unit) :
    Except ErrorKind Unit :=
  match produced with
  | .ok _ => send
  | .error _ => .error .invalidData

/-- One connection's share of a scheduler tick: the connection after it, the datagram
handed to the socket, and why the connection ends, if it does. -/
def tickConnection (c : IoConnection) (now : Instant) (send : Except ErrorKind Unit) :
    IoConnection × Option Bytes × Option LostReason :=
  let watchdog (c : IoConnection) : Option LostReason :=
    if c.pollWatchdog now then some .timeout else none
  let (c, produced) := c.pollProduce now
  match produced with
  | none => (c, none, watchdog c)
  | some produced =>
      let (c, outcome) := c.recordSend (sendResult produced send)
      (c, produced.toOption, if outcome = .connectionDead then some .io else watchdog c)

/-- The keys of the map, in the order the environment chose. -/
def iterationOrder (conns : Connections) (order : List UInt32) : List UInt32 :=
  if order.Perm conns.keys then order else conns.keys

/-- The produce and watchdog pass over the connections; the connections that end are
collected, not removed. -/
def tickLoop (now : Instant) (sends : UInt32 → Except ErrorKind Unit) :
    List UInt32 → Connections → Connections × List ManagerEffect × List (UInt32 × LostReason)
  | [], conns => (conns, [], [])
  | id :: ids, conns =>
      match conns.lookup id with
      | none => tickLoop now sends ids conns
      | some conn =>
          let (conn', datagram, lost) := tickConnection conn now (sends id)
          let (conns, effects, expired) := tickLoop now sends ids (conns.insert id conn')
          (conns,
            (datagram.map (ManagerEffect.send id conn.params.txEndpoint)).toList ++ effects,
            (lost.map (Prod.mk id)).toList ++ expired)

namespace Manager

def start : Manager where
  registry := ⟨∅, {}⟩
  events := ∅
  consecutiveFatal := 0
  running := true

/-- Leave the connection's multicast group and drop its state and its event sender. -/
def removeConnection (m : Manager) (id : UInt32) : Manager × List ManagerEffect :=
  let left := ((m.registry.conns.lookup id).bind (·.params.multicastGroup)).map
    ManagerEffect.left
  ({ m with
      registry := { m.registry with conns := m.registry.conns.erase id }
      events := m.events.erase id }, left.toList)

/-- The task leaves its loop: its connections and senders are dropped. -/
def exit (m : Manager) : Manager :=
  { m with registry := { m.registry with conns := ∅ }, events := ∅, running := false }

/-- Send `Lost` to one connection and remove it. -/
def loseConnection (m : Manager) (id : UInt32) (reason : LostReason) :
    Manager × List ManagerEffect :=
  let sent := (m.events.lookup id).map (fun tx => ManagerEffect.event id tx (.lost reason))
  let (m, left) := m.removeConnection id
  (m, sent.toList ++ left)

/-- Lose a list of connections, one after the other. -/
def loseConnections (m : Manager) : List (UInt32 × LostReason) → Manager × List ManagerEffect
  | [] => (m, [])
  | (id, reason) :: rest =>
      let (m, first) := m.loseConnection id reason
      let (m, effects) := m.loseConnections rest
      (m, first ++ effects)

/-- Deliver an accepted sample: `Up` on the first frame, then the data. -/
def deliver (m : Manager) (id : UInt32) (first : Bool) (update : IoUpdate) :
    List ManagerEffect :=
  match m.events.lookup id with
  | none => []
  | some tx =>
      let up :=
        if first then
          (m.registry.conns.lookup id).map
            (fun c => ManagerEffect.event id tx (.up c.params.o2tApi c.params.t2oApi))
        else none
      up.toList ++ [.event id tx (.data update)]

/-- The verdict on staging an output: the only place a producer buffer is mutated. -/
def stageOutput (m : Manager) (id : UInt32) (bytes : Bytes) (deadline : Option Instant)
    (now : Instant) : Manager × Except EnipError Unit :=
  match m.registry.conns.lookup id with
  | none => (m, .error .closed)
  | some conn =>
      if expired deadline now then (m, .error (.timeout outputStaging))
      else
        ({ m with registry := { m.registry with
            conns := m.registry.conns.insert id (conn.setOutput bytes) } }, .ok ())

/-- Register a connection, joining its multicast group first. -/
def addConnection (m : Manager) (params : IoConnectionParams) (openedAt : Instant)
    (tx : IoEventSender) (ack : ℕ) (env : CommandEnv) : Manager × List ManagerEffect :=
  let id := params.t2oConnectionId
  let refused : Option ErrorKind :=
    match params.multicastGroup, env.join with
    | some _, .error kind => some kind
    | _, _ => none
  match refused with
  | some kind => (m, [.verdict ack (.error (.io kind))])
  | none =>
      let joined := (params.multicastGroup.map ManagerEffect.joined).toList
      let m := { m with
        registry := { m.registry with
          conns := m.registry.conns.insert id (IoConnection.new params openedAt) }
        events := m.events.insert id tx }
      if env.ackOpen then (m, joined ++ [.verdict ack (.ok ())])
      else
        -- nobody owns the connection: take it out again rather than produce into it
        let (m, left) := m.removeConnection id
        (m, joined ++ left)

def command (m : Manager) (cmd : ManagerCommand) (env : CommandEnv) :
    Manager × List ManagerEffect :=
  match cmd with
  | .shutdown => (m.exit, [])
  | .add params openedAt tx ack => m.addConnection params openedAt tx ack env
  | .setOutput id bytes deadline ack =>
      let (m, verdict) := m.stageOutput id bytes deadline env.now
      (m, (ack.map (fun a => ManagerEffect.verdict a verdict)).toList)
  | .setRun id run =>
      match m.registry.conns.lookup id with
      | none => (m, [])
      | some conn =>
          ({ m with registry := { m.registry with
              conns := m.registry.conns.insert id (conn.setRun run) } }, [])
  | .remove id => m.removeConnection id

def receive (m : Manager) (buf : Bytes) (src : SocketAddr) (now : Instant) :
    Manager × List ManagerEffect :=
  let m := { m with consecutiveFatal := 0 }
  let (registry, routed) := m.registry.consumeDatagram buf src.ip now
  let m := { m with registry := registry }
  match routed with
  | .accepted id first update => (m, m.deliver id first update)
  | .dropped _ _ => (m, [])

/-- Handle one receive error: the third in a row that is not about a datagram loses every
connection and ends the task. -/
def receiveError (m : Manager) (kind : ErrorKind) (order : List UInt32) :
    Manager × List ManagerEffect :=
  let (n, action) := onRecvError m.consecutiveFatal kind
  let m := { m with
    consecutiveFatal := n
    registry := { m.registry with
      stats := { m.registry.stats with recvErrors := m.registry.stats.recvErrors + 1 } } }
  match action with
  | .continue_ => (m, [])
  | .fatalSocket =>
      let ids := iterationOrder m.registry.conns order
      let (m, effects) := m.loseConnections (ids.map (fun id => (id, LostReason.io)))
      (m.exit, effects)

/-- One scheduler tick: produce and watch every connection, then lose those that ended. -/
def tick (m : Manager) (now : Instant) (order : List UInt32)
    (sends : UInt32 → Except ErrorKind Unit) : Manager × List ManagerEffect :=
  let ids := iterationOrder m.registry.conns order
  let (conns, produced, ended) := tickLoop now sends ids m.registry.conns
  let m := { m with registry := { m.registry with conns := conns } }
  let (m, lost) := m.loseConnections ended
  (m, produced ++ lost)

/-- One turn of the `select!` loop. A task that left its loop does nothing more. -/
def step (m : Manager) (input : ManagerInput) : Manager × List ManagerEffect :=
  if m.running then
    match input with
    | .command cmd env => m.command cmd env
    | .commandsClosed => (m.exit, [])
    | .datagram buf src now => m.receive buf src now
    | .recvError kind order => m.receiveError kind order
    | .tick now order sends => m.tick now order sends
  else (m, [])

/-- A run: the manager after it and everything it did, in order. -/
def runFrom (m : Manager) : List ManagerInput → Manager × List ManagerEffect
  | [] => (m, [])
  | input :: inputs =>
      let (m, first) := m.step input
      let (m, effects) := runFrom m inputs
      (m, first ++ effects)

end Manager

end EnipAdapter.Model
