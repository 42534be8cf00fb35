import EnipAdapter.Interface.LadderContract
import EnipAdapter.Model.ConnectLadder

/-!
# What an operator is owed of a link

A ladder shows its link in several places: the state token, its gauge, the counters of the
connection and the unreachable alarm. They are owed to agree with one another and with where the
task is, at every point of a run. So are the waits between two connects, and the event that a TLS
handshake fails. A `LinkWatch` is what an observer of the moves of the task notes to know this.
-/

set_option autoImplicit false

namespace EnipAdapter.Interface

open EnipAdapter.Foundation EnipAdapter.Model

/-! ## What is seen of a run -/

/-- Whether the unreachable alarm stands after these effects. -/
def alarmAfter (standing : Bool) (effects : List TaskEffect) : Bool :=
  effects.foldl (fun
    | _, .event .unreachableRaised => true
    | _, .event .unreachableCleared => false
    | standing, _ => standing) standing

def waitOf : LadderEffect → Option Duration
  | .waits wait => some wait
  | .tlsHandshakeFailed | .tlsPeerUnverified => none

def isHandshakeFailed : LadderEffect → Bool
  | .tlsHandshakeFailed => true
  | .waits _ | .tlsPeerUnverified => false

/-- Where a task is, without the state of its loop. -/
inductive LinkStage where
  | connecting
  | backoff
  | polling
  | pushing
  | stopped
deriving DecidableEq, Repr

def stageOf : TaskPhase → LinkStage
  | .connecting => .connecting
  | .backoff => .backoff
  | .polling _ => .polling
  | .pushing _ _ => .pushing
  | .stopped => .stopped

/-- Whether the task is in a driver loop. -/
def inLoop : LinkStage → Bool
  | .polling | .pushing => true
  | .connecting | .backoff | .stopped => false

/-- What is noted of the moves of a task. -/
structure LinkWatch where
  /-- A frame has come in since the session was opened. -/
  framed : Bool := false
  standing : Bool := false
  /-- Sessions that ended otherwise than by a lost link. -/
  ended : ℕ := 0
  /-- Failed connects and lost links since the last connect that succeeded. -/
  failures : ℕ := 0
  /-- A failed handshake was told since the last connect that succeeded. -/
  told : Bool := false
  /-- Permanent failures of a TLS instance. -/
  refused : ℕ := 0
deriving DecidableEq

/-- The failure of this connect is one of the handshake. -/
def refuses (cfg : LadderConfig) (env : LadderEnv) : Bool :=
  cfg.mode = DeviceMode.poll ∧ cfg.tlsInstance ∧ env.permanent

namespace LinkWatch

def move (w : LinkWatch) (cfg : LadderConfig) (env : LadderEnv) : LadderEvent → LinkWatch
  | .connected => { w with framed := false, failures := 0, told := false }
  | .failed =>
    { w with
      failures := w.failures + 1
      told := w.told || refuses cfg env
      refused := if refuses cfg env then w.refused + 1 else w.refused }
  | .up => { w with framed := true }
  | .lost => { w with failures := w.failures + 1 }
  | .replaced | .stopped => { w with ended := w.ended + 1 }
  | .retried => w

end LinkWatch

/-- A task on its ladder, under observation. -/
structure WatchedLink where
  linked : LinkedTask
  watch : LinkWatch

namespace WatchedLink

def stage (s : WatchedLink) : LinkStage := stageOf s.linked.task.phase

def start (cfg : TaskConfig) (ladder : LadderConfig) (health : TaskHealth) : WatchedLink :=
  ⟨.start cfg ladder health, {}⟩

def step (cfg : TaskConfig) (ladder : LadderConfig) (s : WatchedLink)
    (input : TaskInput × StepEnv × LadderEnv) : WatchedLink :=
  let (next, effects, _) := s.linked.step cfg ladder input
  let w :=
    match ladderEvent s.linked.task.phase next.task.phase input.1 with
    | none => s.watch
    | some event => s.watch.move ladder input.2.2 event
  ⟨next, { w with standing := alarmAfter s.watch.standing effects }⟩

/-- The ladder a run leads to, with the notes on it. -/
def run (cfg : TaskConfig) (ladder : LadderConfig) (health : TaskHealth)
    (inputs : List (TaskInput × StepEnv × LadderEnv)) : WatchedLink :=
  runSteps (step cfg ladder) (start cfg ladder health) inputs

end WatchedLink

/-- The ladder is built for the device it serves. -/
structure LadderFor (cfg : TaskConfig) where
  ladder : LadderConfig
  mode : ladder.mode = cfg.mode

/-! ## The link -/

/-- The sessions a connection has had. -/
def sessions (c : ConnectionCounters) : ℕ :=
  if c.everConnected then c.reconnects.total + 1 else 0

/-- What a ladder shows is where its task is. -/
structure ShowsLink (s : WatchedLink) : Prop where
  /-- The gauge is 1 exactly while the link is online. -/
  gauge : s.linked.ladder.connectionState = if s.linked.ladder.link = .online then 1 else 0
  /-- A session that is polled is online. -/
  polling : s.stage = .polling → s.linked.ladder.link = .online
  /-- A class-1 session is online from its first frame on, and connecting until then. -/
  pushing : s.stage = .pushing →
    s.linked.ladder.link = if s.watch.framed then .online else .connecting
  backoff : s.stage = .backoff → s.linked.ladder.link = .backoff
  connecting : s.stage = .connecting → s.linked.ladder.link ≠ .online
  /-- The unreachable alarm never stands over a link that is online. -/
  alarm : s.linked.ladder.link = .online → s.watch.standing = false

/-- The counters of a connection account for every attempt and every session. -/
structure CountersAgree (s : WatchedLink) : Prop where
  /-- An attempt failed or opened a session, or it is the one that is under way. -/
  attempts : s.stage ≠ .stopped →
    s.linked.ladder.conn.connectAttempts.total =
      s.linked.ladder.conn.connectFailures.total + sessions s.linked.ladder.conn +
        if s.stage = .connecting then 1 else 0
  /-- A session was dropped, or it is the one that is served. -/
  drops : sessions s.linked.ladder.conn =
    s.linked.ladder.conn.connectionDrops.total + if inLoop s.stage then 1 else 0
  /-- A session that was dropped was lost, replaced or stopped. -/
  ends : s.linked.ladder.conn.connectionDrops.total =
    s.linked.ladder.reconnects + s.watch.ended
  served : s.linked.ladder.conn.sessionConnected = inLoop s.stage
  since : s.linked.ladder.conn.connectedSince.isSome = inLoop s.stage

/-- The contract of the link, over a run. -/
structure LinkContract (cfg : TaskConfig) (ladder : LadderConfig) (health : TaskHealth)
    (inputs : List (TaskInput × StepEnv × LadderEnv)) : Prop where
  shows : ∀ before after, inputs = before ++ after →
    ShowsLink (.run cfg ladder health before)
  accounts : ∀ before after, inputs = before ++ after →
    CountersAgree (.run cfg ladder health before)
  /-- The token is `PAUSED` for a paused session that is up, and for nothing else. -/
  paused : ∀ before after, inputs = before ++ after →
    let s := WatchedLink.run cfg ladder health before
    (connectivityOf s.linked.ladder s.linked.task.health.paused).2 = "PAUSED" ↔
      s.linked.task.health.paused = true ∧ s.linked.ladder.connectionState = 1

/-! ## The waits -/

/-- The longest wait of a rung, as the float it is computed from. -/
def rungCeiling (b : Backoff) (failures : ℕ) : Duration :=
  Duration.fromMillis (F64.ofInt (b.cap failures)).toU64

/-- The contract of the waits and of the handshake, over a run. -/
structure RetryContract (cfg : TaskConfig) (ladder : LadderConfig) (health : TaskHealth)
    (inputs : List (TaskInput × StepEnv × LadderEnv)) : Prop where
  /-- A task that backs off waits once, and no other does. -/
  waits : ∀ before input after, inputs = before ++ input :: after →
    let s := WatchedLink.run cfg ladder health before
    let t := s.linked.step cfg ladder input
    (t.2.2.filterMap waitOf).length =
      if s.stage ≠ .backoff ∧ stageOf t.1.task.phase = .backoff then 1 else 0
  /-- The full wait after a failure that is permanent; after any other no longer than the rung
  allows that the failures since the last connect have climbed to. -/
  bounded : ∀ before input after, inputs = before ++ input :: after →
    let s := WatchedLink.run cfg ladder health before
    let t := s.linked.step cfg ladder input
    ∀ wait ∈ t.2.2.filterMap waitOf,
      if ladderEvent s.linked.task.phase t.1.task.phase input.1 = some .failed ∧
          input.2.2.permanent = true then
        wait = Duration.fromMillis ladder.backoff.maxMs
      else wait ≤ rungCeiling ladder.backoff s.watch.failures
  /-- A rung doubles until it meets the maximum. -/
  ceiling : ladder.backoff.maxMs ≤ 2 ^ 53 → ∀ failures,
    rungCeiling ladder.backoff failures =
      Duration.fromMillis
        (min (ladder.backoff.baseMs * 2 ^ min failures 20) ladder.backoff.maxMs)
  /-- A failed handshake is told when it begins: once until a connect succeeds. -/
  told : ∀ before input after, inputs = before ++ input :: after →
    let s := WatchedLink.run cfg ladder health before
    let t := s.linked.step cfg ladder input
    t.2.2.any isHandshakeFailed = true ↔
      ladderEvent s.linked.task.phase t.1.task.phase input.1 = some .failed ∧
        refuses ladder input.2.2 = true ∧ s.watch.told = false
  /-- And counted every time. -/
  counted : ∀ before after, inputs = before ++ after →
    let s := WatchedLink.run cfg ladder health before
    s.linked.ladder.conn.tlsHandshakeFailures.total = s.watch.refused

end EnipAdapter.Interface
