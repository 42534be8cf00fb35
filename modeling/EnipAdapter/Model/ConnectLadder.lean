import EnipAdapter.Model.DeviceTask
import EnipAdapter.Model.IoMeters
import EnipAdapter.Model.Lifecycle

/-!
# What the connect ladder keeps of its link

Beside the moves of a device task (`DeviceTask`), the ladders of `reconnect.rs` keep the link state
and the counters of a connection, the rung of the backoff and, on a TLS instance, whether the
handshake is failing (`app.rs`: `Backoff`, `LinkState`, `Health::set_link`, `connectivity_of`;
`metrics.rs`: the connection counters). A `LadderEvent` is a move of the task that touches any of
these. What the session answers about itself, whether a failure is permanent, the clock and the
hasher behind the jitter are the environment of the step. The security and identity views of a
session, and the emissions of the metrics, are left out: nothing below reads them.
-/

set_option autoImplicit false

namespace EnipAdapter.Model

open EnipAdapter.Foundation

/-! ## Backoff -/

/-- Exponential, with full jitter and a cap. -/
structure Backoff where
  baseMs : ℕ
  maxMs : ℕ
deriving DecidableEq, Repr

namespace Backoff

/-- The cap of a rung; the product saturates. -/
def cap (b : Backoff) (attempt : ℕ) : ℕ :=
  min (min (b.baseMs * 2 ^ min attempt 20) (2 ^ 64 - 1)) b.maxMs

def delay (b : Backoff) (attempt : ℕ) (rand01 : F64) : Duration :=
  Duration.fromMillis (rand01.clampUnit.mul (F64.ofInt (b.cap attempt))).toU64

end Backoff

/-- The jitter fraction, from what a hasher seeded at random answers. -/
def rand01 (hash : ℕ) : F64 := (F64.ofInt (hash % 1000000 : ℕ)).div (F64.ofInt 1000000)

/-! ## The link and its counters -/

inductive LinkState where
  | connecting
  | online
  | backoff
deriving DecidableEq, Repr

def LinkState.asStr : LinkState → String
  | .connecting => "CONNECTING"
  | .online => "ONLINE"
  | .backoff => "BACKOFF"

/-- The connection counters of `metrics.rs`. The time connected is kept in nanoseconds. -/
structure ConnectionCounters where
  sessionConnected : Bool := false
  everConnected : Bool := false
  connectAttempts : Pair := {}
  connectFailures : Pair := {}
  connectionDrops : Pair := {}
  reconnects : Pair := {}
  tlsHandshakeFailures : Pair := {}
  connectLatencyMs : ℕ := 0
  connectedAccrued : Duration := 0
  connectedSince : Option Instant := none
deriving DecidableEq, Repr

namespace ConnectionCounters

def onConnectAttempt (c : ConnectionCounters) : ConnectionCounters :=
  { c with connectAttempts := c.connectAttempts.add 1 }

/-- The attempt succeeded; from the second time on it is a reconnect. -/
def onConnected (c : ConnectionCounters) (latencyMs : ℕ) (now : Instant) : ConnectionCounters :=
  { c with
    sessionConnected := true
    connectLatencyMs := latencyMs
    connectedSince := some now
    reconnects := if c.everConnected then c.reconnects.add 1 else c.reconnects
    everConnected := true }

def onConnectFailure (c : ConnectionCounters) : ConnectionCounters :=
  { c with connectFailures := c.connectFailures.add 1 }

def onTlsHandshakeFailure (c : ConnectionCounters) : ConnectionCounters :=
  { c with tlsHandshakeFailures := c.tlsHandshakeFailures.add 1 }

def accrue (c : ConnectionCounters) (now : Instant) : ConnectionCounters :=
  match c.connectedSince with
  | none => c
  | some since =>
    { c with
      connectedAccrued := c.connectedAccrued + (now - since)
      connectedSince := some now }

def onConnectionDropped (c : ConnectionCounters) (now : Instant) : ConnectionCounters :=
  let c := c.accrue now
  { c with
    connectedSince := none
    sessionConnected := false
    connectionDrops := c.connectionDrops.add 1 }

end ConnectionCounters

/-! ## The ladder -/

/-- What a ladder is built with. -/
structure LadderConfig where
  mode : DeviceMode
  backoff : Backoff
  /-- A poll instance that runs over TLS. -/
  tlsInstance : Bool
deriving DecidableEq, Repr

/-- What a step tells the ladder beside the move of its task. -/
structure LadderEnv where
  now : Instant := 0
  latencyMs : ℕ := 0
  /-- The failure of a connect is not transient. -/
  permanent : Bool := false
  /-- What the session says of its transport: over TLS, and whether the peer was verified. -/
  security : Option (Bool × Bool) := none
  hash : ℕ := 0

/-- A move of the task that the ladder books. -/
inductive LadderEvent where
  | connected
  | failed
  /-- The first frame of a push session came in. -/
  | up
  | lost
  | replaced
  | stopped
  /-- A wait is over, and the next attempt begins. -/
  | retried
deriving DecidableEq, Repr

/-- The move between two states of a task. -/
def ladderEvent (before after : TaskPhase) (input : TaskInput) : Option LadderEvent :=
  match before, after with
  | .connecting, .polling _ | .connecting, .pushing _ _ => some .connected
  | .connecting, .backoff => some .failed
  | .backoff, .connecting => some .retried
  | .polling _, .backoff | .pushing _ _, .backoff => some .lost
  | .polling _, .connecting | .pushing _ _, .connecting => some .replaced
  | .polling _, .stopped | .pushing _ _, .stopped => some .stopped
  | .pushing _ _, .pushing _ _ =>
    match input with
    | .update (some .up) => some .up
    | _ => none
  | _, _ => none

inductive LadderEffect where
  /-- The wait of a rung. -/
  | waits (wait : Duration)
  | tlsHandshakeFailed
  | tlsPeerUnverified

/-- What a ladder keeps. -/
structure Ladder where
  link : LinkState := .connecting
  /-- The gauge of the link: 1 while it is online. -/
  connectionState : ℕ := 0
  /-- `Health::reconnects`: the lost links. An emission reads it and starts it again at zero. -/
  reconnects : ℕ := 0
  tlsHandshakeFailing : Bool := false
  attempt : ℕ := 0
  conn : ConnectionCounters := {}
  forwardOpens : Pair := {}
  forwardOpenFailures : Pair := {}

namespace Ladder

/-- `Health::set_link`: the state and its gauge move together. -/
def setLink (l : Ladder) (state : LinkState) : Ladder :=
  { l with link := state, connectionState := if state = .online then 1 else 0 }

/-- The head of the loop: a push ladder shows that it is connecting. -/
def attemptConnect (cfg : LadderConfig) (l : Ladder) : Ladder :=
  let l := if cfg.mode = DeviceMode.push then l.setLink .connecting else l
  { l with conn := l.conn.onConnectAttempt }

/-- The next wait climbs a rung. -/
def climb (l : Ladder) : Ladder := { l with attempt := min (l.attempt + 1) (2 ^ 32 - 1) }

/-- A connect that succeeded: a poll link is online, a push link when its first frame is in. -/
def connected (cfg : LadderConfig) (env : LadderEnv) (l : Ladder) :
    Ladder × List LadderEffect :=
  let l := { l with attempt := 0, conn := l.conn.onConnected env.latencyMs env.now }
  match cfg.mode with
  | .push => ({ l with forwardOpens := l.forwardOpens.add 1 }, [])
  | .poll =>
    ({ l with tlsHandshakeFailing := false }.setLink .online,
      if env.security = some (true, false) then [.tlsPeerUnverified] else [])

/-- A connect that failed: a permanent failure backs off to the ceiling, and on a TLS instance
it is a failure of the handshake, told when it begins. -/
def failed (cfg : LadderConfig) (env : LadderEnv) (l : Ladder) : Ladder × List LadderEffect :=
  let l := { l with
    forwardOpenFailures :=
      if cfg.mode = DeviceMode.push then l.forwardOpenFailures.add 1 else l.forwardOpenFailures
    conn := l.conn.onConnectFailure }
  let l := l.setLink .backoff
  let handshake : Bool := cfg.mode = DeviceMode.poll ∧ cfg.tlsInstance ∧ env.permanent
  let told := if handshake ∧ !l.tlsHandshakeFailing then [LadderEffect.tlsHandshakeFailed] else []
  let l :=
    if handshake then
      { l with conn := l.conn.onTlsHandshakeFailure, tlsHandshakeFailing := true }
    else l
  let wait :=
    if env.permanent then Duration.fromMillis cfg.backoff.maxMs
    else cfg.backoff.delay l.attempt (rand01 env.hash)
  (l.climb, told ++ [.waits wait])

/-- A lost link waits its rung too. -/
def lost (cfg : LadderConfig) (env : LadderEnv) (l : Ladder) : Ladder × List LadderEffect :=
  let l := { l.setLink .backoff with
    conn := l.conn.onConnectionDropped env.now
    reconnects := l.reconnects + 1 }
  (l.climb, [.waits (cfg.backoff.delay l.attempt (rand01 env.hash))])

def book (cfg : LadderConfig) (env : LadderEnv) (l : Ladder) :
    LadderEvent → Ladder × List LadderEffect
  | .connected => l.connected cfg env
  | .failed => l.failed cfg env
  | .up => (l.setLink .online, [])
  | .lost => l.lost cfg env
  | .replaced =>
    let l := { l with conn := l.conn.onConnectionDropped env.now }
    ((l.setLink .connecting).attemptConnect cfg, [])
  | .stopped => ({ l with conn := l.conn.onConnectionDropped env.now }, [])
  | .retried => (l.attemptConnect cfg, [])

end Ladder

/-! ## A task on its ladder -/

structure LinkedTask where
  task : DeviceTask
  ladder : Ladder

namespace LinkedTask

def start (cfg : TaskConfig) (ladder : LadderConfig) (health : TaskHealth) : LinkedTask :=
  let task := DeviceTask.start cfg health
  { task := task
    ladder :=
      match task.phase with
      | .connecting => ({} : Ladder).attemptConnect ladder
      | _ => {} }

/-- One step of the task, and what the ladder books of it. -/
def step (cfg : TaskConfig) (ladder : LadderConfig) (s : LinkedTask)
    (input : TaskInput × StepEnv × LadderEnv) :
    LinkedTask × List TaskEffect × List LadderEffect :=
  let (task, effects) := taskStep cfg s.task (input.1, input.2.1)
  match ladderEvent s.task.phase task.phase input.1 with
  | none => (⟨task, s.ladder⟩, effects, [])
  | some event =>
    let (l, told) := s.ladder.book ladder input.2.2 event
    (⟨task, l⟩, effects, told)

end LinkedTask

/-- The state token of `connectivity_of`, and its normalized flag: paused only while the session
is up. -/
def connectivityOf (l : Ladder) (paused : Bool) : Bool × String :=
  let connected : Bool := l.link = .online
  (connected, if paused && connected then "PAUSED" else l.link.asStr)

end EnipAdapter.Model
