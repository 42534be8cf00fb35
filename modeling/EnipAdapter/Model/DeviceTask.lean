import EnipAdapter.Model.Commands
import EnipAdapter.Model.Gate
import Mathlib.Data.List.MinMax

/-!
# The device task

One device's task from launch to teardown: the connect ladders (`reconnect.rs`, `run_device`
and `run_push`), the wait between two connects (`app.rs`, `serve_control_disconnected`) and
the two driver loops (`poll_driver.rs`, `poll_until_disconnected`; `push_driver.rs`,
`consume_push`).

The task moves from one place where it waits to the next. What it waits for is its input: the
cancellation, a control message, the end of a connect attempt or of a backoff, a timer of the
loop, an update of the class-1 stream. What the session, the bus and the clocks answer on the
way is the environment of the step; a timer may fire at any time. The metrics families, the
link state and the length of a backoff are left out: nothing below reads them.
-/

set_option autoImplicit false

namespace EnipAdapter.Model

/-! ## Configuration -/

/-- The cadence defaults, of a device or of the component. -/
structure Defaults where
  pollIntervalMs : Option ℕ := none
  publishMode : Option PublishMode := none
  batchMs : Option ℕ := none

def builtinPollMs : ℕ := 5000

def builtinBatchMs : ℕ := 0

/-- A poll group with its own cadence. -/
structure ScheduledGroup extends PollGroup where
  pollIntervalMs : Option ℕ := none
  publishMode : Option PublishMode := none

/-- The input side of a push device, as the consume loop reads it. -/
structure PushLayout where
  assembly : UInt16
  signals : List IoFieldSpec
  sampleMs : ℕ := 0

/-- What a device task runs with. -/
structure TaskConfig where
  mode : DeviceMode
  groups : List ScheduledGroup := []
  io : Option PushLayout := none
  defaults : Defaults := {}
  globalDefaults : Defaults := {}
  keepaliveMs : ℕ

namespace TaskConfig

def effectivePollMs (cfg : TaskConfig) (g : ScheduledGroup) : ℕ :=
  ((g.pollIntervalMs.or cfg.defaults.pollIntervalMs).or
    cfg.globalDefaults.pollIntervalMs).getD builtinPollMs

def effectivePublishMode (cfg : TaskConfig) (g : ScheduledGroup) : PublishMode :=
  ((g.publishMode.or cfg.defaults.publishMode).or cfg.globalDefaults.publishMode).getD .onChange

def effectiveBatchMs (cfg : TaskConfig) : ℕ :=
  (cfg.defaults.batchMs.or cfg.globalDefaults.batchMs).getD builtinBatchMs

/-- The interval of a group, never zero. -/
def interval (cfg : TaskConfig) (g : ScheduledGroup) : Duration :=
  Duration.fromMillis (max (cfg.effectivePollMs g) 1)

def keepalive (cfg : TaskConfig) : Duration := Duration.fromMillis (max cfg.keepaliveMs 1)

/-- The publish mode of a push device, which has no groups. -/
def pushMode (cfg : TaskConfig) : PublishMode :=
  (cfg.defaults.publishMode.or cfg.globalDefaults.publishMode).getD .onChange

/-- Whether a polled signal has this id (`find_signal`). -/
def hasSignal (cfg : TaskConfig) (id : String) : Bool :=
  (cfg.groups.flatMap (·.signals)).any (fun s => s.tagPath == id)

end TaskConfig

/-- Whether an input field has this id. -/
def PushLayout.hasField (io : PushLayout) (id : String) : Bool :=
  io.signals.any (fun f => f.signalId io.assembly == id)

/-- The deadband of each field by its id; of two with one id the later one stands. -/
def PushLayout.deadbands (io : PushLayout) : List (String × DeadbandSpec) :=
  (io.signals.map fun f => (f.signalId io.assembly, f.deadband.getD {})).reverse

/-! ## Messages and answers -/

/-- What a control message asks for. -/
inductive ControlVerb where
  | write (request : DeviceControl)
  | readNow (specs : List SignalSpec)
  | snapshot
  | pause (requestedBy : Option String)
  | resume
  | reconnect
  | repoll
  | browse (cursor : Option String) (max : ℕ)

/-- The name of a reply channel. -/
abbrev ReplyId := ℕ

/-- A message on the control channel. -/
structure ControlMessage where
  verb : ControlVerb
  reply : ReplyId

/-- The last consumed frame of a push session. -/
structure InputSnapshot where
  readings : List Reading
  receivedAt : String
  runMode : Bool

structure BrowsedTag where
  name : String
  typeName : String
  arrayDim : Option UInt32
  instanceId : UInt32
deriving DecidableEq, Repr

structure BrowsePage where
  tags : List BrowsedTag
  nextCursor : Option String
deriving DecidableEq, Repr

inductive BrowseError where
  | unsupported
  | failed (error : String)
deriving DecidableEq, Repr

/-- What a reply channel is sent. -/
inductive ControlAnswer where
  | written (result : Except String Unit)
  | read (result : Except String (List Reading))
  | snapshot (frame : Option InputSnapshot)
  | changed (changed : Bool)
  | reconnected (result : Except String Unit)
  | repolled (result : Except String ℕ)
  | browsed (result : Except BrowseError BrowsePage)

/-- The events and alarms of the task. -/
inductive TaskEvent where
  | deviceConnected
  | unreachableRaised
  | unreachableCleared
  | adapterPaused (requestedBy : Option String)
  | adapterResumed

/-- What a step does to the outside, in order. -/
inductive TaskEffect where
  | published (update : Publish) (confirmed : Bool)
  | replied (reply : ReplyId) (answer : ControlAnswer)
  | event (event : TaskEvent)

/-- What the session, the bus and the clocks answer in one step. The several reads, publishes
and clock readings of a step are numbered in the order the step makes them. -/
structure StepEnv where
  clock : ℕ → Instant := fun _ => 0
  stamp : ℕ → String := fun _ => ""
  reads : ℕ → Except String (List Reading) := fun _ => .ok []
  /-- The verdict of the bus on a publish: by the pass it belongs to and its place there. -/
  bus : ℕ → ℕ → Bool := fun _ _ => true
  probe : Except String Unit := .ok ()
  writes : Except String Unit := .ok ()
  pages : Except BrowseError BrowsePage := .error .unsupported
  lastInput : Option InputSnapshot := none

/-! ## State -/

/-- What the task shares with the rest of the component. -/
structure TaskHealth where
  paused : Bool := false
  counters : SampleCounters := {}

def TaskHealth.readFailed (h : TaskHealth) : TaskHealth :=
  { h with counters := { h.counters with readErrors := h.counters.readErrors + 1 } }

/-- The locals of the poll loop. -/
structure PollState where
  engine : Engine
  deadlines : List Instant
  sinceKeepalive : Instant
  paused : Bool

/-- The locals of the consume loop. -/
structure PushState where
  engine : Engine
  paused : Bool

/-- Where the task waits. -/
inductive TaskPhase where
  | connecting
  | backoff
  | polling (loop : PollState)
  | pushing (io : PushLayout) (loop : PushState)
  | stopped

/-- How a driver loop ends. -/
inductive LoopExit where
  | linkLost
  | reconnect (reply : ReplyId)
  | stopped

structure DeviceTask where
  health : TaskHealth
  pendingReconnect : Option ReplyId := none
  phase : TaskPhase

/-- A task about to connect for the first time; a push task without its block ends at once. -/
def DeviceTask.start (cfg : TaskConfig) (health : TaskHealth) : DeviceTask where
  health := health
  phase :=
    match cfg.mode, cfg.io with
    | .push, none => .stopped
    | _, _ => .connecting

/-- One turn of a driver loop: what it leaves behind, and where it goes on. -/
structure LoopTurn (σ : Type) where
  health : TaskHealth
  effects : List TaskEffect
  next : Except LoopExit σ

/-! ## Parts of a turn -/

/-- `apply_pause`: move the shared flag, and tell of it if it moved. -/
def applyPause (h : TaskHealth) (paused : Bool) (requestedBy : Option String) :
    TaskHealth × List TaskEffect × Bool :=
  if h.paused = paused then (h, [], false)
  else
    ({ h with paused := paused },
      [.event (if paused then .adapterPaused requestedBy else .adapterResumed)], true)

/-- Publish and settle one by one; an id that is not configured reaches no bus. -/
def publishAll (configured : String → Bool) (bus : ℕ → Bool) :
    ℕ → Engine → List Publish → Engine × List TaskEffect
  | _, engine, [] => (engine, [])
  | i, engine, p :: rest =>
    if configured p.signalId then
      let (engine, effects) :=
        publishAll configured bus (i + 1) (engine.settle p.signalId (bus i)) rest
      (engine, .published p (bus i) :: effects)
    else publishAll configured bus i (engine.settle p.signalId false) rest

/-- Drain the windows that have closed and publish them. -/
def flushDue (configured : String → Bool) (bus : ℕ → Bool) (batchMs : ℕ) (engine : Engine)
    (now : Instant) : Engine × List TaskEffect :=
  let (engine, due) := engine.takeDue batchMs now
  publishAll configured bus 0 engine due

/-- Gate the readings of a group and publish what passes. -/
def pollGroup (cfg : TaskConfig) (g : ScheduledGroup) (readings : List Reading) (now : Instant)
    (serverTs : String) (bus : ℕ → Bool) (engine : Engine) (h : TaskHealth) :
    Engine × TaskHealth × List TaskEffect :=
  let gate : PollGate := ⟨cfg.effectivePublishMode g, cfg.effectiveBatchMs, now, serverTs⟩
  let (engine, counters, out) := processGroup engine g.toPollGroup gate readings h.counters
  let (engine, effects) := publishAll cfg.hasSignal bus 0 engine out
  (engine, { h with counters := counters }, effects)

/-- The group whose deadline has passed longest ago; of two the first. -/
def earliestDue (deadlines : List Instant) (now : Instant) : Option ℕ :=
  ((List.range deadlines.length).filter fun i => deadlines.getD i 0 ≤ now).argmin
    fun i => deadlines.getD i 0

/-- The group to be polled at a wake, with its place. -/
def dueGroup (cfg : TaskConfig) (deadlines : List Instant) (now : Instant) :
    Option (ℕ × ScheduledGroup) :=
  (earliestDue deadlines now).bind fun i => (cfg.groups[i]?).map (i, ·)

/-- `repoll_all_groups`: every group in order, up to the first read that fails. -/
def repollAllGroups (cfg : TaskConfig) (env : StepEnv) :
    ℕ → List ScheduledGroup → Engine → TaskHealth →
      Engine × TaskHealth × List TaskEffect × Except String ℕ
  | _, [], engine, h => (engine, h, [], .ok 0)
  | i, g :: rest, engine, h =>
    match env.reads i with
    | .error e => (engine, h, [], .error e)
    | .ok readings =>
      let (engine, h, effects) :=
        pollGroup cfg g readings (env.clock i) (env.stamp i) (env.bus i) engine h
      let (engine, h, later, polled) := repollAllGroups cfg env (i + 1) rest engine h
      (engine, h, effects ++ later, polled.map (g.signals.length + ·))

/-! ## The poll loop -/

/-- The loop at its first head: a pause from before the connect carries in. -/
def PollState.enter (cfg : TaskConfig) (start : Instant) (h : TaskHealth) : PollState where
  engine := Engine.new start
  deadlines := cfg.groups.map fun g => start + cfg.interval g
  sinceKeepalive := start
  paused := h.paused

/-- A control message in the poll loop. -/
def pollControl (cfg : TaskConfig) (env : StepEnv) (h : TaskHealth) (loop : PollState)
    (m : ControlMessage) : LoopTurn PollState :=
  match m.verb with
  | .write (.write _ _) => ⟨h, [.replied m.reply (.written env.writes)], .ok loop⟩
  | .write (.writeOutput _ _) =>
    ⟨h, [.replied m.reply (.written (.error "not a push instance"))], .ok loop⟩
  | .readNow _ =>
    match env.reads 0 with
    | .ok readings => ⟨h, [.replied m.reply (.read (.ok readings))], .ok loop⟩
    | .error e => ⟨h.readFailed, [.replied m.reply (.read (.error e))], .error .linkLost⟩
  | .pause requestedBy =>
    let (h, told, changed) := applyPause h true requestedBy
    let (engine, _) := loop.engine.discardOpenBatches
    ⟨h, told ++ [.replied m.reply (.changed changed)],
      .ok { loop with engine := engine, paused := true }⟩
  | .resume =>
    let (h, told, changed) := applyPause h false none
    let loop :=
      if changed then
        { loop with
          engine := loop.engine.rebaseStale (env.clock 0)
          deadlines := (cfg.groups.map cfg.interval).map (env.clock 1 + ·) }
      else loop
    ⟨h, told ++ [.replied m.reply (.changed changed)], .ok { loop with paused := false }⟩
  | .reconnect => ⟨h, [], .error (.reconnect m.reply)⟩
  | .repoll =>
    if loop.paused then
      ⟨h, [.replied m.reply (.repolled (.error "instance is paused - resume first"))], .ok loop⟩
    else
      let (engine, h, effects, polled) := repollAllGroups cfg env 0 cfg.groups loop.engine h
      let answer := effects ++ [.replied m.reply (.repolled polled)]
      match polled with
      | .ok _ => ⟨h, answer, .ok { loop with engine := engine }⟩
      | .error _ => ⟨h, answer, .error .linkLost⟩
  | .browse _ _ => ⟨h, [.replied m.reply (.browsed env.pages)], .ok loop⟩
  | .snapshot => ⟨h, [.replied m.reply (.snapshot none)], .ok loop⟩

/-- A timer of the poll loop: a probe while paused, else a flush and the earliest due group. -/
def pollWake (cfg : TaskConfig) (env : StepEnv) (h : TaskHealth) (loop : PollState) :
    LoopTurn PollState :=
  let now := env.clock 0
  if loop.paused then
    if now - loop.sinceKeepalive ≥ cfg.keepalive then
      match env.probe with
      | .error _ => ⟨h.readFailed, [], .error .linkLost⟩
      | .ok () => ⟨h, [], .ok { loop with sinceKeepalive := now }⟩
    else ⟨h, [], .ok loop⟩
  else
    let (engine, flushed) :=
      flushDue cfg.hasSignal (env.bus 0) cfg.effectiveBatchMs loop.engine now
    match dueGroup cfg loop.deadlines now with
    | none => ⟨h, flushed, .ok { loop with engine := engine }⟩
    | some (i, g) =>
      let deadlines := loop.deadlines.modify i fun d => max (d + cfg.interval g) now
      match env.reads 0 with
      | .error _ => ⟨h.readFailed, flushed, .error .linkLost⟩
      | .ok readings =>
        let (engine, h, effects) :=
          pollGroup cfg g readings (env.clock 1) (env.stamp 0) (env.bus 1) engine h
        ⟨h, flushed ++ effects, .ok { loop with engine := engine, deadlines := deadlines }⟩

/-! ## The consume loop -/

/-- One item of the update stream of a push session. -/
inductive Device.IoUpdate where
  | up
  | data (readings : List Reading) (receivedAt : String)
  | lost

def PushState.enter (start : Instant) (h : TaskHealth) : PushState where
  engine := Engine.new start
  paused := h.paused

/-- A control message in the consume loop. -/
def pushControl (env : StepEnv) (h : TaskHealth) (loop : PushState) (m : ControlMessage) :
    LoopTurn PushState :=
  match m.verb with
  | .snapshot => ⟨h, [.replied m.reply (.snapshot env.lastInput)], .ok loop⟩
  | .write (.writeOutput _ _) => ⟨h, [.replied m.reply (.written env.writes)], .ok loop⟩
  | .write (.write _ _) =>
    ⟨h, [.replied m.reply
      (.written (.error "push instance - writes target the output assembly"))], .ok loop⟩
  | .pause requestedBy =>
    let (h, told, changed) := applyPause h true requestedBy
    let (engine, _) := loop.engine.discardOpenBatches
    ⟨h, told ++ [.replied m.reply (.changed changed)], .ok ⟨engine, true⟩⟩
  | .resume =>
    let (h, told, changed) := applyPause h false none
    let engine :=
      match changed, env.lastInput with
      | true, some snap =>
        loop.engine.rebaseFrom (snap.readings.map fun r => (r.signalId, r.value)) (env.clock 0)
      | _, _ => loop.engine
    ⟨h, told ++ [.replied m.reply (.changed changed)], .ok ⟨engine, false⟩⟩
  | .reconnect => ⟨h, [], .error (.reconnect m.reply)⟩
  | .readNow _ =>
    ⟨h, [.replied m.reply
      (.read (.error "push instance - reads answer from the input snapshot"))], .ok loop⟩
  | .repoll =>
    ⟨h, [.replied m.reply (.repolled (.error "push instance - data arrives cyclically"))],
      .ok loop⟩
  | .browse _ _ => ⟨h, [.replied m.reply (.browsed (.error .unsupported))], .ok loop⟩

/-- The end of every turn that is not a control message: the closed windows, unless paused. -/
def pushFlush (cfg : TaskConfig) (io : PushLayout) (env : StepEnv) (loop : PushState) :
    PushState × List TaskEffect :=
  if loop.paused then (loop, [])
  else
    let (engine, effects) :=
      flushDue io.hasField (env.bus 1) cfg.effectiveBatchMs loop.engine (env.clock 1)
    ({ loop with engine := engine }, effects)

/-- Gate a frame and publish what passes. -/
def pushFrame (cfg : TaskConfig) (io : PushLayout) (readings : List Reading) (serverTs : String)
    (env : StepEnv) (engine : Engine) (h : TaskHealth) : Engine × TaskHealth × List TaskEffect :=
  let gate : PushGate :=
    ⟨⟨cfg.pushMode, cfg.effectiveBatchMs, env.clock 0, serverTs⟩, io.sampleMs⟩
  let (engine, counters, out) := processFrame engine readings io.deadbands gate h.counters
  let (engine, effects) := publishAll io.hasField (env.bus 0) 0 engine out
  (engine, { h with counters := counters }, effects)

/-- An update of the stream; `none` is its end without a `Lost`. -/
def pushUpdate (cfg : TaskConfig) (io : PushLayout) (env : StepEnv) (h : TaskHealth)
    (loop : PushState) : Option Device.IoUpdate → LoopTurn PushState
  | some .up =>
    let (loop, flushed) := pushFlush cfg io env loop
    ⟨h, [.event .deviceConnected, .event .unreachableCleared] ++ flushed, .ok loop⟩
  | some (.data readings receivedAt) =>
    if loop.paused then ⟨h, [], .ok loop⟩
    else
      let (engine, h, effects) := pushFrame cfg io readings receivedAt env loop.engine h
      let (loop, flushed) := pushFlush cfg io env { loop with engine := engine }
      ⟨h, effects ++ flushed, .ok loop⟩
  | some .lost | none => ⟨h.readFailed, [], .error .linkLost⟩

/-- A timer of the consume loop. -/
def pushTick (cfg : TaskConfig) (io : PushLayout) (env : StepEnv) (h : TaskHealth)
    (loop : PushState) : LoopTurn PushState :=
  let (loop, flushed) := pushFlush cfg io env loop
  ⟨h, flushed, .ok loop⟩

/-! ## Between two connections -/

/-- A control message while the session is down; a reconnect ends the wait. -/
def backoffControl (h : TaskHealth) (m : ControlMessage) :
    TaskHealth × List TaskEffect × Option ReplyId :=
  match m.verb with
  | .reconnect => (h, [], some m.reply)
  | .pause requestedBy =>
    let (h, told, changed) := applyPause h true requestedBy
    (h, told ++ [.replied m.reply (.changed changed)], none)
  | .resume =>
    let (h, told, changed) := applyPause h false none
    (h, told ++ [.replied m.reply (.changed changed)], none)
  | .snapshot => (h, [.replied m.reply (.snapshot none)], none)
  | .readNow _ => (h, [.replied m.reply (.read (.error "device is disconnected"))], none)
  | .write _ => (h, [.replied m.reply (.written (.error "device is disconnected"))], none)
  | .repoll => (h, [.replied m.reply (.repolled (.error "device is disconnected"))], none)
  | .browse _ _ =>
    (h, [.replied m.reply (.browsed (.error (.failed "device is disconnected")))], none)

/-! ## The task -/

/-- What the task may be waiting for. A message stands here only if it is at the front of the
channel; a task that is connecting leaves it there. -/
inductive TaskInput where
  | cancelled
  | closed
  | control (message : ControlMessage)
  | connected
  | connectFailed (reason : String)
  | elapsed
  | timer
  | update (update : Option Device.IoUpdate)

/-- What becomes of the task at the end of a turn of its loop. -/
def DeviceTask.afterTurn {σ : Type} (task : DeviceTask) (enter : σ → TaskPhase)
    (turn : LoopTurn σ) :
    DeviceTask × List TaskEffect :=
  match turn.next with
  | .ok loop => ({ task with health := turn.health, phase := enter loop }, turn.effects)
  | .error .linkLost =>
    ({ task with health := turn.health, phase := .backoff },
      turn.effects ++ [.event .unreachableRaised])
  | .error (.reconnect reply) =>
    ({ health := turn.health, pendingReconnect := some reply, phase := .connecting }, turn.effects)
  | .error .stopped => ({ task with health := turn.health, phase := .stopped }, turn.effects)

/-- The answer a pending reconnect gets from the connect attempt that has just ended. -/
def DeviceTask.answerReconnect (task : DeviceTask) (result : Except String Unit) :
    List TaskEffect :=
  task.pendingReconnect.toList.map fun reply => .replied reply (.reconnected result)

/-- A connect that succeeded: the loop of the device's mode starts with a new engine. -/
def DeviceTask.connected (cfg : TaskConfig) (env : StepEnv) (task : DeviceTask) :
    DeviceTask × List TaskEffect :=
  let task' := { task with pendingReconnect := none }
  match cfg.mode, cfg.io with
  | .poll, _ =>
    ({ task' with phase := .polling (PollState.enter cfg (env.clock 0) task.health) },
      [.event .deviceConnected, .event .unreachableCleared] ++ task.answerReconnect (.ok ()))
  | .push, some io =>
    ({ task' with phase := .pushing io (PushState.enter (env.clock 0) task.health) },
      task.answerReconnect (.ok ()))
  | .push, none => ({ task' with phase := .stopped }, [])

/-- One step of the task. An input it does not wait for leaves it as it is. -/
def taskStep (cfg : TaskConfig) (task : DeviceTask) (input : TaskInput × StepEnv) :
    DeviceTask × List TaskEffect :=
  let env := input.2
  match task.phase, input.1 with
  | .stopped, _ => (task, [])
  | _, .cancelled => ({ task with phase := .stopped }, [])
  | .connecting, .connected => task.connected cfg env
  | .connecting, .connectFailed reason =>
    ({ task with pendingReconnect := none, phase := .backoff },
      task.answerReconnect (.error reason))
  | .backoff, .closed => ({ task with phase := .stopped }, [])
  | .backoff, .elapsed => ({ task with phase := .connecting }, [])
  | .backoff, .control m =>
    match backoffControl task.health m with
    | (h, effects, none) => ({ task with health := h }, effects)
    | (h, effects, some reply) =>
      ({ health := h, pendingReconnect := some reply, phase := .connecting }, effects)
  | .polling _, .closed => ({ task with phase := .stopped }, [])
  | .polling loop, .control m =>
    task.afterTurn .polling (pollControl cfg env task.health loop m)
  | .polling loop, .timer => task.afterTurn .polling (pollWake cfg env task.health loop)
  | .pushing _ _, .closed => ({ task with phase := .stopped }, [])
  | .pushing io loop, .control m =>
    task.afterTurn (.pushing io) (pushControl env task.health loop m)
  | .pushing io loop, .update u =>
    task.afterTurn (.pushing io) (pushUpdate cfg io env task.health loop u)
  | .pushing io loop, .timer =>
    task.afterTurn (.pushing io) (pushTick cfg io env task.health loop)
  | _, _ => (task, [])

end EnipAdapter.Model
