import EnipAdapter.Interface.EngineRun
import EnipAdapter.Model.DeviceTask

/-!
# What a pause promises

The words of the pause contract over runs of a device task: the flag a driver loop keeps for
itself, the data a step publishes, the samples it gates in, the samples it still holds.
-/

set_option autoImplicit false

namespace EnipAdapter.Interface

open EnipAdapter.Foundation EnipAdapter.Model

/-! ## Runs -/

/-- The state after a step. -/
def nextTask (cfg : TaskConfig) (task : DeviceTask) (input : TaskInput × StepEnv) : DeviceTask :=
  (taskStep cfg task input).1

/-- What the steps of a run do to the outside. -/
def taskEffects (cfg : TaskConfig) : DeviceTask → List (TaskInput × StepEnv) → List TaskEffect
  | _, [] => []
  | task, input :: inputs =>
      (taskStep cfg task input).2 ++ taskEffects cfg (nextTask cfg task input) inputs

/-- The task a run leads to, from its launch. -/
def taskAfter (cfg : TaskConfig) (health : TaskHealth) (inputs : List (TaskInput × StepEnv)) :
    DeviceTask :=
  runSteps (nextTask cfg) (DeviceTask.start cfg health) inputs

/-- The flag of a driver loop is the shared one, at the head of the loop. -/
def FlagAgrees (task : DeviceTask) : Prop :=
  match task.phase with
  | .polling loop => loop.paused = task.health.paused
  | .pushing _ loop => loop.paused = task.health.paused
  | _ => True

/-- The task takes messages from its channel. -/
def Listens (task : DeviceTask) : Prop :=
  match task.phase with
  | .backoff | .polling _ | .pushing _ _ => True
  | _ => False

/-- The step takes a `Resume` from the channel. -/
def TakesResume (task : DeviceTask) (input : TaskInput × StepEnv) : Prop :=
  Listens task ∧ ∃ reply, input.1 = .control ⟨.resume, reply⟩

/-! ## Samples -/

def isPublish : TaskEffect → Bool
  | .published _ _ => true
  | _ => false

/-- The samples of a signal among what was handed to the bus. -/
def publishedSamples (id : String) (effects : List TaskEffect) : List Sample :=
  effects.flatMap fun
    | .published p _ => if p.signalId = id then p.samples else []
    | _ => []

/-- The samples of a signal that wait in an open window of the task. -/
def heldSamples (task : DeviceTask) (id : String) : List Sample :=
  match task.phase with
  | .polling loop => (loop.engine.signal id).batcher.buffer
  | .pushing _ loop => (loop.engine.signal id).batcher.buffer
  | _ => []

/-- The engine call of a polled group. -/
def groupCall (cfg : TaskConfig) (g : ScheduledGroup) (readings : List Reading) (now : Instant)
    (serverTs : String) : EngineCall :=
  ⟨.group g.toPollGroup readings, cfg.effectivePublishMode g, now, serverTs⟩

/-- The engine call of a consumed frame. -/
def frameCall (cfg : TaskConfig) (io : PushLayout) (readings : List Reading) (now : Instant)
    (serverTs : String) : EngineCall :=
  ⟨.frame readings io.deadbands io.sampleMs, cfg.pushMode, now, serverTs⟩

/-- The calls of a repoll, each with the engine it is made on. -/
def repollCalls (cfg : TaskConfig) (env : StepEnv) :
    ℕ → List ScheduledGroup → Engine → List (Engine × EngineCall)
  | _, [], _ => []
  | i, g :: rest, engine =>
      match env.reads i with
      | .error _ => []
      | .ok readings =>
          let call := groupCall cfg g readings (env.clock i) (env.stamp i)
          let out := call.run cfg.effectiveBatchMs engine
          (engine, call) ::
            repollCalls cfg env (i + 1) rest (publishAll cfg.hasSignal (env.bus i) 0 out.1 out.2).1

/-- The engine calls a control message makes in the poll loop. -/
def controlCalls (cfg : TaskConfig) (env : StepEnv) (loop : PollState) (m : ControlMessage) :
    List (Engine × EngineCall) :=
  match m.verb with
  | .repoll => if loop.paused then [] else repollCalls cfg env 0 cfg.groups loop.engine
  | _ => []

/-- The engine call a wake makes. -/
def wakeCalls (cfg : TaskConfig) (env : StepEnv) (loop : PollState) :
    List (Engine × EngineCall) :=
  if loop.paused then []
  else
    match dueGroup cfg loop.deadlines (env.clock 0), env.reads 0 with
    | some (_, g), .ok readings =>
        [((flushDue cfg.hasSignal (env.bus 0) cfg.effectiveBatchMs loop.engine
            (env.clock 0)).1, groupCall cfg g readings (env.clock 1) (env.stamp 0))]
    | _, _ => []

/-- The engine call an update makes. -/
def updateCalls (cfg : TaskConfig) (io : PushLayout) (env : StepEnv) (loop : PushState)
    (update : Option Device.IoUpdate) : List (Engine × EngineCall) :=
  match update with
  | some (.data readings receivedAt) =>
      if loop.paused then []
      else [(loop.engine, frameCall cfg io readings (env.clock 0) receivedAt)]
  | _ => []

/-- The engine calls of a step, each with the engine it is made on. -/
def engineCalls (cfg : TaskConfig) (task : DeviceTask) (input : TaskInput × StepEnv) :
    List (Engine × EngineCall) :=
  match task.phase, input.1 with
  | .polling loop, .control m => controlCalls cfg input.2 loop m
  | .polling loop, .timer => wakeCalls cfg input.2 loop
  | .pushing io loop, .update update => updateCalls cfg io input.2 loop update
  | _, _ => []

/-- The samples of a signal that a step gates in, in order. -/
def gatedSamples (cfg : TaskConfig) (id : String) (task : DeviceTask)
    (input : TaskInput × StepEnv) : List Sample :=
  (engineCalls cfg task input).flatMap fun p => gatedIn cfg.effectiveBatchMs p.2 id p.1

/-- The samples of a signal that a run gates in, in order. -/
def gatedOver (cfg : TaskConfig) (id : String) :
    DeviceTask → List (TaskInput × StepEnv) → List Sample
  | _, [] => []
  | task, input :: inputs =>
      gatedSamples cfg id task input ++ gatedOver cfg id (nextTask cfg task input) inputs

end EnipAdapter.Interface
