import EnipAdapter.Model.Config
import EnipAdapter.Model.DeviceTask
import EnipAdapter.Model.Time

/-!
# The running instances

The registry of live instances and the engine that stops some of them under one deadline
(`lifecycle.rs`), with the part of `component.global` (`config.rs`) that sets the deadline.

A runtime is an object of its own: `object` says which launch made it. How long a task takes to end
once it is cancelled is the environment; one that is still running at the deadline is aborted.
-/

set_option autoImplicit false

namespace EnipAdapter.Model

/-! ## The component's global section -/

/-- Connection lifecycle timings, in milliseconds. -/
structure Timeouts where
  connectMs : ℕ := 5000
  requestTimeoutMs : ℕ := 2000
  reconnectBackoffMinMs : ℕ := 1000
  reconnectBackoffMaxMs : ℕ := 60000

structure HealthThresholds where
  staleSignalSecs : ℕ := 60
  keepaliveProbeIntervalMs : ℕ := 60000

/-- `component.global`. -/
structure GlobalConfig where
  defaults : Defaults := {}
  timeouts : Timeouts := {}
  healthThresholds : HealthThresholds := {}
  metricsIntervalSecs : ℕ := 60

/-! ## The registry -/

/-- The live runtime of one instance. -/
structure DeviceRuntime where
  object : ℕ
  cfg : DeviceConfig
  /-- The subtree of `component.instances[]` it was launched from. -/
  raw : Json
  /-- The device task, and the certificate task of an instance that has one. -/
  tasks : ℕ

def DeviceRuntime.id (rt : DeviceRuntime) : String := rt.cfg.id

/-- The live instances, in the order they were inserted, and the global of their generation. -/
structure DeviceRegistry where
  devices : List DeviceRuntime := []
  global : GlobalConfig

namespace DeviceRegistry

def insert (r : DeviceRegistry) (rt : DeviceRuntime) : DeviceRegistry :=
  { r with devices := r.devices ++ [rt] }

/-- Take one instance out, the first with that id. -/
def remove (r : DeviceRegistry) (id : String) : Option (DeviceRuntime × DeviceRegistry) :=
  (r.devices.find? (·.id == id)).map fun rt =>
    (rt, { r with devices := r.devices.eraseP (·.id == id) })

def setGlobal (r : DeviceRegistry) (global : GlobalConfig) : DeviceRegistry :=
  { r with global := global }

def ids (r : DeviceRegistry) : List String := r.devices.map DeviceRuntime.id

/-- What is running, as a plan sees it. -/
def snapshotRunning (r : DeviceRegistry) : List (String × Json) :=
  r.devices.map fun rt => (rt.id, rt.raw)

def isEmpty (r : DeviceRegistry) : Bool := r.devices.isEmpty

def allPush (r : DeviceRegistry) : Bool :=
  !r.devices.isEmpty && r.devices.all (·.cfg.mode == .push)

end DeviceRegistry

/-! ## Stopping -/

def pushCloseHandoffCap : Duration := Duration.fromSecs 5

def enipSessionCloseBound : Duration := Duration.fromSecs 2

def stopGrace : Duration := Duration.fromMillis 500

def stopBudgetFloor : Duration := Duration.fromSecs 1

def stopBudgetCeiling : Duration := Duration.fromSecs 10

/-- The time a teardown may take: a request in flight, the longest close, and a grace. -/
def stopBudget (timeouts : Timeouts) : Duration :=
  let inFlight := Duration.fromMillis (max timeouts.requestTimeoutMs 1)
  let closeWorst := max pushCloseHandoffCap (inFlight + enipSessionCloseBound)
  min (max (inFlight + closeWorst + stopGrace) stopBudgetFloor) stopBudgetCeiling

/-- How a task came to its end. -/
inductive TaskEnd where
  | joined
  | aborted
deriving DecidableEq, Repr

/-- What the stop engine does: it cancels a runtime's token, and reaps a task. -/
inductive StopAct where
  | cancelled (object : ℕ)
  | ended (object task : ℕ) (how : TaskEnd)
deriving DecidableEq, Repr

/-- `stop_tasks`: every task is joined if it ends by the deadline, else aborted. `takes` is how
long a task of an object takes to end; `none` never ends. -/
def stopTasks (takes : ℕ → ℕ → Option Duration) (budget : Duration)
    (runtimes : List DeviceRuntime) : List StopAct :=
  runtimes.flatMap fun rt =>
    (List.range rt.tasks).map fun task =>
      .ended rt.object task (if (takes rt.object task).any (· ≤ budget) then .joined else .aborted)

/-- `stop_runtimes`: cancel every token, then join or abort every task. -/
def stopRuntimes (takes : ℕ → ℕ → Option Duration) (budget : Duration)
    (runtimes : List DeviceRuntime) : List StopAct :=
  (runtimes.map fun rt => .cancelled rt.object) ++ stopTasks takes budget runtimes

end EnipAdapter.Model
