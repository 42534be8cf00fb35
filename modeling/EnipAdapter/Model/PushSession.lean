import EnipAdapter.Model.DeviceError
import EnipAdapter.Model.ForwardOpen

/-!
# The push session

`EipPushSession` (`eip/live.rs`) over the confirmed staging path of an I/O connection handle
(`io.rs`): a write crosses from the session to its translator task and from there to the I/O
manager, and its verdict comes back the same way, all under one absolute deadline.

The three tasks, their two queues and their two acknowledgements are one state. A step is one
task being polled, or the clock moving; a task that has nothing to do waits. As with
`timeout_at`, a waiter looks for its answer before it looks at the clock.
-/

set_option autoImplicit false

namespace EnipAdapter.Model

open EnipAdapter.Foundation

/-! ## Errors of the device seam -/

def lostReasonDetail : LostReason → String
  | .timeout => "class-1 inactivity watchdog timeout"
  | .closedByPeer => "peer closed the class-1 connection"
  | .io => "class-1 socket error"

/-- The verdict for a staging the manager refused as closed. -/
def closedVerdict : Option LostReason → DeviceError
  | some reason =>
    .transient (.text ("class-1 connection lost (" ++ lostReasonDetail reason ++
      "); output not staged"))
  | none => .transient (.text "the class-1 connection was closed; output not staged")

/-- The verdict for a staging that outlived its budget. -/
def expiredVerdict : DeviceError :=
  .transient (.text "the request timeout elapsed before the output was staged")

/-! ## The session -/

/-- The session's own state: the output layout, its fields, the output image, and the bound on
a write. -/
structure EipPushSession where
  outLayout : Option AssemblyLayout
  outFields : List IoFieldSpec
  outBuf : Bytes
  ackCap : Duration

/-- The class-1 open of an `io` block. O→T is point-to-point; without an output it is a
heartbeat. -/
def ioSpec (conn : ConnectionConfig) (io : IoConfig) (vendorId : UInt16) :
    Except DeviceError IoConnectionSpec :=
  let route := (conn.slot.map fun s => (⟨1, [s]⟩ : PortSegment)).toList
  let (o2tSize, o2tFormat) : ℕ × RealTimeFormat :=
    match io.output with
    | some out => (out.sizeBytes, out.realTimeFormat.toEnip)
    | none => (0, .heartbeat)
  match io.timeoutMultiplierEnip with
  | .error e => .error (.permanent (.text e))
  | .ok multiplier =>
    .ok {
      assembly := ⟨io.assemblies.config, io.assemblies.output, io.assemblies.input, route⟩
      t2o := {
        rpi := Duration.fromMillis (max io.rpiMs 1)
        dataSize := io.input.sizeBytes
        format := io.input.realTimeFormat.toEnip
        connType := io.connectionType.toEnip
        priority := io.priority.toEnip
        variable_ := .fixed }
      o2t := {
        rpi := Duration.fromMillis (max io.effectiveO2tRpiMs 1)
        dataSize := o2tSize
        format := o2tFormat
        connType := .p2p
        priority := io.priority.toEnip
        variable_ := .fixed }
      timeoutMultiplier := multiplier
      trigger := .cyclic
      vendorId := vendorId }

/-- The image a write offers: the session's own with one field changed. The layout key of a
field is its position among the declared ones. -/
def EipPushSession.candidate (s : EipPushSession) (field : IoFieldSpec) (value : Json) :
    Except DeviceError Bytes :=
  match s.outLayout with
  | none => .error (.unsupported "device has no output assembly")
  | some layout =>
    let sameField (f : IoFieldSpec) : Bool :=
      f.offset == field.offset && f.eipType == field.eipType && f.bit == field.bit
    match s.outFields.findIdx? sameField with
    | none => .error (.permanent (.text "unknown output field"))
    | some key =>
      match encodeWrite value field.eipType field.scale field.valueOffset field.arrayCount with
      | .error e => .error (.permanent (.write e))
      | .ok cip =>
        match layout.encodeInto [(key, cip)] s.outBuf with
        | .error e => .error (.permanent (.assembly e))
        | .ok image => .ok image

/-- The size check of a handle on a candidate buffer. -/
def IoConnectionHandle.validateOutput (h : IoConnectionHandle) (bytes : Bytes) :
    Except EnipError Unit :=
  if h.o2tCarriesData then
    if h.o2tFixed = true ∧ bytes.length ≠ h.o2tDataSize then
      .error (.protocolViolation "output size does not match the negotiated fixed O→T size")
    else if bytes.length > h.o2tDataSize then .error (.tooLarge h.o2tDataSize)
    else .ok ()
  else .ok ()

/-! ## The three tasks -/

/-- The depth of the session's control queue. -/
def controlChannelDepth : ℕ := 8

/-- The depth of the manager's command queue. -/
def managerCommandDepth : ℕ := 64

/-- One write on its way: the number of the call, the image it offers, and its deadline. The
number names the call's acknowledgements. -/
structure PendingWrite where
  call : ℕ
  bytes : Bytes
  deadline : Instant
deriving DecidableEq, Repr

inductive SessionState where
  | idle
  | handoff (w : PendingWrite)
  | awaiting (w : PendingWrite)
deriving DecidableEq, Repr

/-- Where the translator stands: in its `select!`, handing a staging to the manager, waiting
for the manager's verdict, tearing down, or gone. -/
inductive TranslatorState where
  | listening
  | handing (w : PendingWrite)
  | confirming (w : PendingWrite)
  | closing
  | ended
deriving DecidableEq, Repr

/-- What the environment decides about a poll of the translator: the arm its `select!` takes,
with the events taken off the stream, or the events a closed staging drains. -/
inductive TranslatorPoll where
  | events (taken : List IoEvent) (streamClosed : Bool)
  | control
  | staging (drained : List IoEvent)

/-- What the manager's `select!` receives besides commands. -/
inductive ManagerPoll where
  | command
  | datagram (buf : Bytes) (src : SocketAddr)
  | recvError (kind : ErrorKind) (order : List UInt32)
  | tick (order : List UInt32) (sends : UInt32 → Except ErrorKind Unit)

inductive PushInput where
  | advance (elapsed : Duration)
  | call (field : IoFieldSpec) (value : Json)
  | session
  | translator (poll : TranslatorPoll)
  | manager (poll : ManagerPoll)

/-- The tasks, the queues between them, and the clock. `acks` and `verdicts` are the answers
that have arrived on the two acknowledgements; `returned` and `installed` record how each call
ended and whose image was put in front of the producer. -/
structure PushSystem where
  now : Instant
  session : EipPushSession
  state : SessionState
  calls : ℕ
  control : List PendingWrite
  translator : TranslatorState
  acks : List (ℕ × Except DeviceError Unit)
  handle : IoConnectionHandle
  commands : List ManagerCommand
  manager : Manager
  verdicts : List (ℕ × Except EnipError Unit)
  returned : List (ℕ × Except DeviceError Unit)
  installed : List (ℕ × Bytes)

namespace PushSystem

/-- A session that was just opened. -/
def start (session : EipPushSession) (handle : IoConnectionHandle) (manager : Manager)
    (now : Instant) : PushSystem where
  now := now
  session := session
  state := .idle
  calls := 0
  control := []
  translator := .listening
  acks := []
  handle := handle
  commands := []
  manager := manager
  verdicts := []
  returned := []
  installed := []

def finish (s : PushSystem) (call : ℕ) (result : Except DeviceError Unit) : PushSystem :=
  { s with state := .idle, returned := s.returned ++ [(call, result)] }

/-- `set_output` is called: it encodes the candidate image and sets its deadline. -/
def beginCall (s : PushSystem) (field : IoFieldSpec) (value : Json) : PushSystem :=
  match s.state with
  | .idle =>
    let opened := { s with calls := s.calls + 1 }
    match s.session.candidate field value with
    | .error e => opened.finish s.calls (.error e)
    | .ok image => { opened with state := .handoff ⟨s.calls, image, s.now + s.session.ackCap⟩ }
  | _ => s

def pollSession (s : PushSystem) : PushSystem :=
  match s.state with
  | .idle => s
  | .handoff w =>
    if s.translator = .ended then
      s.finish w.call (.error (.transient (.text "push session is closing; output not staged")))
    else if s.control.length < controlChannelDepth then
      { s with control := s.control ++ [w], state := .awaiting w }
    else if w.deadline ≤ s.now then
      s.finish w.call (.error (.transient (.text
        "the push translator did not accept the write within the request timeout; output not staged")))
    else s
  | .awaiting w =>
    match s.acks.lookup w.call with
    | some (.ok ()) =>
      { s.finish w.call (.ok ()) with session := { s.session with outBuf := w.bytes } }
    | some (.error e) => s.finish w.call (.error e)
    | none =>
      if s.translator = .ended then
        s.finish w.call (.error (.transient (.text
          "push translator ended before the output was staged")))
      else if w.deadline ≤ s.now then
        s.finish w.call (.error (.transient (.text
          "output staging was not confirmed within the request timeout")))
      else s

/-- The translator answers a write and goes back to its `select!`. -/
def answer (s : PushSystem) (call : ℕ) (verdict : Except DeviceError Unit) : PushSystem :=
  { s with acks := s.acks ++ [(call, verdict)], translator := .listening }

/-- The reason of the first loss among some events. -/
def lostAmong (events : List IoEvent) : Option LostReason :=
  events.findSome? fun
    | .lost reason => some reason
    | _ => none

/-- The translator answers a write the manager refused as closed: a loss read off the stream
names the disposition and ends the task. -/
def answerClosed (s : PushSystem) (call : ℕ) (drained : List IoEvent) : PushSystem :=
  let lost := lostAmong drained
  { s.answer call (.error (closedVerdict lost)) with
    translator := if lost.isSome then .closing else .listening }

def pollTranslator (s : PushSystem) (poll : TranslatorPoll) : PushSystem :=
  match s.translator, poll with
  | .listening, .events taken streamClosed =>
    if (lostAmong taken).isSome || streamClosed then { s with translator := .closing } else s
  | .listening, .control =>
    match s.control with
    | [] => s
    | w :: rest =>
      let s := { s with control := rest }
      match s.handle.validateOutput w.bytes with
      | .error e => s.answer w.call (.error (mapEnipError e))
      | .ok () => { s with translator := .handing w }
  | .handing w, .staging drained =>
    if s.manager.running = false then s.answerClosed w.call drained
    else if s.commands.length < managerCommandDepth then
      { s with
        commands := s.commands ++
          [.setOutput s.handle.connectionId w.bytes (some w.deadline) (some w.call)]
        translator := .confirming w }
    else if w.deadline ≤ s.now then s.answer w.call (.error expiredVerdict)
    else s
  | .confirming w, .staging drained =>
    match s.verdicts.lookup w.call with
    | some (.ok ()) => s.answer w.call (.ok ())
    | some (.error (.timeout _)) => s.answer w.call (.error expiredVerdict)
    | some (.error .closed) => s.answerClosed w.call drained
    | some (.error e) => s.answer w.call (.error (mapEnipError e))
    | none =>
      if s.manager.running = false then s.answerClosed w.call drained
      else if w.deadline ≤ s.now then s.answer w.call (.error expiredVerdict)
      else s
  | .closing, _ =>
    -- ForwardClose, then the manager's removal of the connection and its shutdown
    if s.manager.running = false then { s with translator := .ended, control := [] }
    else if s.commands.length + 2 ≤ managerCommandDepth then
      { s with
        commands := s.commands ++ [.remove s.handle.connectionId, .shutdown]
        translator := .ended
        control := [] }
    else s
  | _, _ => s

/-- The verdicts among the effects of a manager step. -/
def verdictsOf (effects : List ManagerEffect) : List (ℕ × Except EnipError Unit) :=
  effects.filterMap fun
    | .verdict ack result => some (ack, result)
    | _ => none

/-- The image a handled command put in front of the producer, by the manager's own verdict. -/
def installedBy (cmd : ManagerCommand) (effects : List ManagerEffect) : List (ℕ × Bytes) :=
  match cmd with
  | .setOutput _ bytes _ (some call) =>
    if (call, .ok ()) ∈ verdictsOf effects then [(call, bytes)] else []
  | _ => []

/-- The manager after a step; a task that left its loop drops its queue. -/
def settle (s : PushSystem) (rest : List ManagerCommand)
    (r : Manager × List ManagerEffect) : PushSystem :=
  { s with
    manager := r.1
    verdicts := s.verdicts ++ verdictsOf r.2
    commands := if r.1.running then rest else [] }

/-- What the manager's turn is given, besides the next command. -/
def managerInput (now : Instant) : ManagerPoll → Option ManagerInput
  | .command => none
  | .datagram buf src => some (.datagram buf src now)
  | .recvError kind order => some (.recvError kind order)
  | .tick order sends => some (.tick now order sends)

/-- What a turn without a command is given is no command. -/
theorem managerInput_ne_command {now : Instant} {poll : ManagerPoll} {input : ManagerInput}
    (h : managerInput now poll = some input) :
    ∀ cmd env, input ≠ .command cmd env := by
  intro cmd env heq
  subst heq
  cases poll <;> simp [managerInput] at h

def pollManager (s : PushSystem) (poll : ManagerPoll) : PushSystem :=
  match managerInput s.now poll with
  | some input => s.settle s.commands (s.manager.step input)
  | none =>
    match s.commands with
    | [] => s
    | cmd :: rest =>
      let r := s.manager.step (.command cmd ⟨s.now, .ok (), true⟩)
      let s := s.settle rest r
      { s with installed := s.installed ++ installedBy cmd r.2 }

def step (s : PushSystem) : PushInput → PushSystem
  | .advance elapsed => { s with now := s.now + elapsed }
  | .call field value => s.beginCall field value
  | .session => s.pollSession
  | .translator poll => s.pollTranslator poll
  | .manager poll => s.pollManager poll

/-- The O→T datagrams a step hands to the socket. -/
def produced (s : PushSystem) : PushInput → List Bytes
  | .manager poll =>
    match managerInput s.now poll with
    | some input =>
      (s.manager.step input).2.filterMap fun
        | .send _ _ datagram => some datagram
        | _ => none
    | none => []
  | _ => []

end PushSystem

/-- `EipPushSession::open` on a freshly bound manager: build the layouts and the spec, open the
connection, start from a zeroed image. The environment answers the ForwardOpen. -/
def openPushSession (conn : ConnectionConfig) (io : IoConfig) (requestTimeout : Duration)
    (vendorId : UInt16) (localPort : UInt16) (join : Except ErrorKind Unit) (env : OpenEnv) :
    Except DeviceError PushSystem := do
  let _ ← io.inputLayout.mapError fun e => DeviceError.permanent (.text e)
  let outLayout ← io.outputLayout.mapError fun e => DeviceError.permanent (.text e)
  let spec ← ioSpec conn io vendorId
  let opened := forwardOpen localPort spec { env with link := .served Manager.start join }
  match opened.manager, opened.result with
  | some manager, .ok handle =>
    let session : EipPushSession :=
      { outLayout := outLayout
        outFields := io.outputSignals
        outBuf := List.replicate ((io.output.map (·.sizeBytes)).getD 0) 0
        ackCap := requestTimeout }
    pure (PushSystem.start session handle manager env.now)
  | _, .error e => .error (mapEnipError e)
  | none, .ok _ => .error (mapEnipError .closed)

end EnipAdapter.Model
