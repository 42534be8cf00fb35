import EnipAdapter.Model.Cpf
import EnipAdapter.Model.Error
import EnipAdapter.Model.Time

/-!
# The class-1 connection state machine

The socket-free half of the implicit-I/O runtime (`io.rs`): the real-time frame codec, the
consume gauntlet with its signed sequence window, the produce schedule and the watchdog.
Every operation takes the instant it runs at.
-/

set_option autoImplicit false

namespace EnipAdapter.Model

inductive IpAddr where
  | v4 (addr : UInt32)
  | v6 (addr : BitVec 128)
deriving DecidableEq, Repr

structure SocketAddr where
  ip : IpAddr
  port : UInt16
deriving DecidableEq, Repr

/-! ## Real-time format and frame codec -/

/-- The real-time transfer format of one direction. -/
inductive RealTimeFormat where
  | modeless
  | header32Bit
  | heartbeat
  | zeroLength
deriving DecidableEq, Repr

namespace RealTimeFormat

/-- Whether a frame starts with the class-1 sequence. -/
def hasSequence : RealTimeFormat → Bool
  | .zeroLength => false
  | _ => true

/-- Whether a frame has the run/idle header. -/
def hasHeader : RealTimeFormat → Bool
  | .header32Bit => true
  | _ => false

/-- Whether a frame carries application data. -/
def carriesData : RealTimeFormat → Bool
  | .modeless | .header32Bit => true
  | _ => false

/-- The bytes a frame adds to its data. -/
def overhead (f : RealTimeFormat) : ℕ :=
  (if f.hasSequence then 2 else 0) + (if f.hasHeader then 4 else 0)

end RealTimeFormat

structure IoFrame where
  sequence : Option UInt16
  runMode : Option Bool
  data : Bytes
deriving DecidableEq, Repr

namespace IoFrame

/-- Encode: the sequence, then the header (bit 0 is run), then the data. -/
def encode (f : IoFrame) (format : RealTimeFormat) : Bytes :=
  (if format.hasSequence then putU16 (f.sequence.getD 0) else []) ++
    (if format.hasHeader then putU32 (if f.runMode.getD true then 1 else 0) else []) ++ f.data

def decode (format : RealTimeFormat) (buf : Bytes) : Except WireError IoFrame := do
  let r := WireReader.withContext buf "io frame"
  let (sequence, r) ←
    if format.hasSequence then do
      let (v, r) ← r.u16
      pure (some v, r)
    else pure (none, r)
  let (runMode, r) ←
    if format.hasHeader then do
      let (header, r) ← r.u32
      pure (some (header &&& 1 != 0), r)
    else pure (none, r)
  let (data, _) := r.takeRest
  pure ⟨sequence, runMode, data⟩

end IoFrame

/-! ## Events and counters -/

inductive LostReason where
  | timeout
  | closedByPeer
  | io
deriving DecidableEq, Repr

structure IoUpdate where
  data : Bytes
  sequence : UInt16
  encapSequence : UInt32
  runMode : Bool
  receivedAt : Instant
deriving DecidableEq, Repr

/-- An event on a connection's stream. -/
inductive IoEvent where
  | up (o2tApi t2oApi : Duration)
  | data (update : IoUpdate)
  | lost (reason : LostReason)
deriving DecidableEq, Repr

def IoEvent.isData : IoEvent → Bool
  | .data _ => true
  | _ => false

def IoEvent.isUp : IoEvent → Bool
  | .up _ _ => true
  | _ => false

inductive DropReason where
  | malformed
  | unknownConnection
  | sourceMismatch
  | sizeMismatch
  | stale
deriving DecidableEq, Repr

/-- The per-connection counters the state machine itself moves. -/
structure ConnCounters where
  framesAccepted : ℕ := 0
  framesProduced : ℕ := 0
  sizeMismatch : ℕ := 0
  staleFrames : ℕ := 0
  sequenceGaps : ℕ := 0
  produceOverruns : ℕ := 0
  sendErrors : ℕ := 0
deriving DecidableEq, Repr

/-! ## Socket errors -/

/-- Consecutive socket errors after which the receive path is dead. -/
def maxConsecutiveFatalRecvErrors : ℕ := 3

/-- Consecutive send errors after which a connection is dead. -/
def maxConsecutiveSendErrors : ℕ := 3

/-- Whether an error kind is about one datagram and says nothing about the socket. -/
def isPerDatagramError : ErrorKind → Bool
  | .connectionReset | .connectionRefused | .connectionAborted | .interrupted
  | .wouldBlock => true
  | _ => false

/-- What one send meant for its connection. -/
inductive SendOutcome where
  | sent
  | dropped
  | connectionDead
deriving DecidableEq, Repr

/-! ## The connection -/

/-- The negotiated parameters of a connection. -/
structure IoConnectionParams where
  o2tConnectionId : UInt32
  t2oConnectionId : UInt32
  o2tApi : Duration
  t2oApi : Duration
  timeoutMultiplier : ℕ
  o2tFormat : RealTimeFormat
  t2oFormat : RealTimeFormat
  o2tDataSize : ℕ
  t2oDataSize : ℕ
  o2tFixed : Bool
  t2oFixed : Bool
  txEndpoint : SocketAddr
  expectedSourceIp : IpAddr
  multicastGroup : Option UInt32
deriving DecidableEq, Repr

structure IoConnection where
  params : IoConnectionParams
  o2tClass1Seq : UInt16
  encapSeq : UInt32
  output : Bytes
  run : Bool
  nextProduceAt : Instant
  consecutiveSendErrors : ℕ
  lastAcceptedSeq : Option UInt16
  up : Bool
  watchdogDeadline : Instant
  counters : ConnCounters
deriving DecidableEq, Repr

def watchdogTimeout (t2oApi : Duration) (multiplier : ℕ) : Duration :=
  (Duration.checkedMul t2oApi multiplier).getD Duration.max

inductive ConsumeOutcome where
  | accepted (first : Bool) (update : IoUpdate)
  | dropped (reason : DropReason)
deriving DecidableEq, Repr

namespace IoConnection

/-- Build a connection: the first produce tick is one O→T API out, the watchdog one
timeout. -/
def new (params : IoConnectionParams) (now : Instant) : IoConnection where
  params := params
  o2tClass1Seq := 0
  encapSeq := 0
  output := []
  run := true
  nextProduceAt := (Instant.checkedAdd now params.o2tApi).getD now
  consecutiveSendErrors := 0
  lastAcceptedSeq := none
  up := false
  watchdogDeadline :=
    (Instant.checkedAdd now (watchdogTimeout params.t2oApi params.timeoutMultiplier)).getD now
  counters := {}

/-- The T→O connection id: the key inbound datagrams are routed by. -/
def connectionId (c : IoConnection) : UInt32 := c.params.t2oConnectionId

def setOutput (c : IoConnection) (bytes : Bytes) : IoConnection := { c with output := bytes }

def setRun (c : IoConnection) (run : Bool) : IoConnection := { c with run := run }

/-- Count a frame dropped for its size. -/
def countSizeMismatch (c : IoConnection) : IoConnection :=
  { c with counters := { c.counters with sizeMismatch := c.counters.sizeMismatch + 1 } }

/-- The signed forward distance from the last accepted sequence. -/
def sequenceDelta (seq last : UInt16) : ℤ := (seq - last).toInt16.toInt

/-- Accept a frame: refresh the watchdog, mark the connection up, count. -/
def accept (c : IoConnection) (frame : IoFrame) (encapSequence : UInt32) (now : Instant) :
    IoConnection × ConsumeOutcome :=
  let first := !c.up
  let c := { c with
    up := true
    watchdogDeadline :=
      (Instant.checkedAdd now
        (watchdogTimeout c.params.t2oApi c.params.timeoutMultiplier)).getD now
    counters := { c.counters with framesAccepted := c.counters.framesAccepted + 1 } }
  (c, .accepted first
    ⟨frame.data, frame.sequence.getD 0, encapSequence, frame.runMode.getD true, now⟩)

/-- Consume one connected-data payload: strip, check the size, apply the signed forward
window, accept. -/
def consume (c : IoConnection) (connectedData : Bytes) (encapSequence : UInt32)
    (now : Instant) : IoConnection × ConsumeOutcome :=
  match IoFrame.decode c.params.t2oFormat connectedData with
  | .error _ => (c.countSizeMismatch, .dropped .sizeMismatch)
  | .ok frame =>
      let bad : Bool :=
        if c.params.t2oFixed then frame.data.length ≠ c.params.t2oDataSize
        else frame.data.length > c.params.t2oDataSize
      if bad then (c.countSizeMismatch, .dropped .sizeMismatch)
      else
        match frame.sequence with
        | none => c.accept frame encapSequence now
        | some seq =>
            match c.lastAcceptedSeq with
            | none => { c with lastAcceptedSeq := some seq }.accept frame encapSequence now
            | some last =>
                let delta := sequenceDelta seq last
                if delta ≤ 0 then
                  ({ c with
                      counters := { c.counters with
                        staleFrames := c.counters.staleFrames + 1 } },
                    .dropped .stale)
                else
                  -- a forward jump over more than one frame counts the gap and still accepts
                  let gap := if delta > 1 then delta.toNat - 1 else 0
                  { c with
                    lastAcceptedSeq := some seq
                    counters := { c.counters with
                      sequenceGaps := c.counters.sequenceGaps + gap } }.accept
                    frame encapSequence now

/-- Both sequences advance; the class-1 one skips 0 on wrap. -/
def advanceSequences (c : IoConnection) : IoConnection :=
  let seq := c.o2tClass1Seq + 1
  { c with
    encapSeq := c.encapSeq + 1
    o2tClass1Seq := if seq = 0 then 1 else seq }

/-- The frame at the current sequence: the output rides it if the format carries data. -/
def currentFrame (c : IoConnection) : IoFrame where
  sequence := if c.params.o2tFormat.hasSequence then some c.o2tClass1Seq else none
  runMode := if c.params.o2tFormat.hasHeader then some c.run else none
  data := if c.params.o2tFormat.carriesData then c.output else []

def produceFrame (c : IoConnection) : IoConnection × Except EnipError Bytes :=
  let c := c.advanceSequences
  let payload := c.currentFrame.encode c.params.o2tFormat
  let address : SequencedAddress := ⟨c.params.o2tConnectionId, c.encapSeq⟩
  let cpf : Cpf :=
    ⟨[⟨.sequencedAddress, address.encode⟩, CpfItem.connectedData payload]⟩
  (c, liftWire cpf.encode)

/-- Produce the next datagram if a tick is due at `now`; missed ticks are skipped and
counted, and the schedule is re-armed at the first tick after `now`. -/
def pollProduce (c : IoConnection) (now : Instant) :
    IoConnection × Option (Except EnipError Bytes) :=
  if now < c.nextProduceAt then (c, none)
  else
    let period := max c.params.o2tApi 1
    let skipped := (now - c.nextProduceAt) / period
    let counted := if c.params.o2tApi = 0 then min skipped 1 else skipped
    let rearmed : Option Instant :=
      if skipped + 1 < 2 ^ 32 then
        (Duration.checkedMul period (skipped + 1)).bind (Instant.checkedAdd c.nextProduceAt)
      else none
    let c := { c with
      counters := { c.counters with produceOverruns := c.counters.produceOverruns + counted }
      nextProduceAt := rearmed.getD ((Instant.checkedAdd now period).getD now) }
    let (c, datagram) := c.produceFrame
    (c, some datagram)

def recordSend (c : IoConnection) (result : Except ErrorKind Unit) :
    IoConnection × SendOutcome :=
  match result with
  | .ok () =>
      ({ c with
          counters := { c.counters with framesProduced := c.counters.framesProduced + 1 }
          consecutiveSendErrors := 0 }, .sent)
  | .error kind =>
      let c := { c with
        counters := { c.counters with sendErrors := c.counters.sendErrors + 1 } }
      if isPerDatagramError kind then (c, .dropped)
      else
        let c := { c with consecutiveSendErrors := min (c.consecutiveSendErrors + 1) (2 ^ 32 - 1) }
        if c.consecutiveSendErrors ≥ maxConsecutiveSendErrors then (c, .connectionDead)
        else (c, .dropped)

def pollWatchdog (c : IoConnection) (now : Instant) : Bool := c.watchdogDeadline ≤ now

end IoConnection

end EnipAdapter.Model
