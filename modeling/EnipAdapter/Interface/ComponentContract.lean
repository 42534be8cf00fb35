import EnipAdapter.Foundation.Runs
import EnipAdapter.Interface.ReloadContract
import EnipAdapter.Model.Component

/-!
# What the component promises over its life

From its start to its end, through any configuration changes, the component runs an instance id
once, stops what it started, and tells its clients whether a repoll can be served.
-/

set_option autoImplicit false

namespace EnipAdapter.Interface

open EnipAdapter.Foundation EnipAdapter.Model

/-!
## What a teardown owes an instance

An instance that was launched is in one pair of hands until it is stopped, and it is stopped once:
its token is cancelled, and then each of its tasks is joined or aborted. The contract holds however
the coordinator and the shutdown get in each other's way.
-/

def StopAct.object : StopAct → ℕ
  | .cancelled object => object
  | .ended object _ _ => object

/-- What was done to one runtime, in order. -/
def actsOn (object : ℕ) (acts : List StopAct) : List StopAct :=
  acts.filter fun act => decide (StopAct.object act = object)

/-- A runtime was stopped by the stop engine, and by nothing else and no second time. -/
def StoppedOnce (rt : DeviceRuntime) (acts : List StopAct) : Prop :=
  ∃ takes budget, actsOn rt.object acts = stopRuntimes takes budget [rt]

/-- Who can be reached: the runtimes in the registry and in the hands of either side. -/
def Teardown.held (t : Teardown) : List DeviceRuntime :=
  t.registry.devices ++ t.detached ++ t.drain.taken

def runTeardown (global : GlobalConfig) (steps : List TeardownStep) : Teardown :=
  runSteps teardownStep { registry := { global := global } } steps

/-- The contract, after any steps of either side in any order. -/
structure TeardownContract (global : GlobalConfig) (steps : List TeardownStep) : Prop where
  /-- Every launch makes an object of its own. -/
  objects : ((runTeardown global steps).launched.map DeviceRuntime.object).Nodup
  /-- No two hands are on one runtime. -/
  single : ((Teardown.held (runTeardown global steps)).map DeviceRuntime.object).Nodup
  /-- What was launched is held and untouched, or was stopped. -/
  owned : ∀ rt ∈ (runTeardown global steps).launched,
    (rt ∈ Teardown.held (runTeardown global steps) ∧
      actsOn rt.object (runTeardown global steps).acts = []) ∨
    (rt ∉ Teardown.held (runTeardown global steps) ∧
      StoppedOnce rt (runTeardown global steps).acts)
  /-- Nothing is stopped that was not launched. -/
  strangers : ∀ act ∈ (runTeardown global steps).acts,
    ∃ rt ∈ (runTeardown global steps).launched, StopAct.object act = rt.object
  /-- When the shutdown returns, what was launched by then is stopped, but for what the
  coordinator holds and stops itself. -/
  returned : ∀ before later, steps = before ++ .takeAll :: later →
    (runTeardown global before).drain = .looping →
    (runTeardown global (before ++ [.takeAll])).drain = .returned →
    ∀ rt ∈ (runTeardown global before).launched, rt ∉ (runTeardown global before).detached →
      StoppedOnce rt (runTeardown global steps).acts

/-! ## A life and its stages -/

/-- A life: the environment of the start and the end, and the configuration changes between. -/
structure Life where
  env : ReloadEnv
  inbox : Option CommandInbox
  changes : List ConfigChange

/-- The stages of a change that is staged: the commit, and what is left of it. -/
def changeStages (serde : Deserializers) (s : ReloadState) (change : ConfigChange) :
    List ReloadState :=
  match prepareConfigurationApply serde change.started change.cancelledAtPrepare s
      change.candidate with
  | .error _ => []
  | .ok tx => [(commit change.env change.cancelledAtCommit tx s).state, settle change s tx]

def servingStages (serde : Deserializers) : ReloadState → List ConfigChange → List ReloadState
  | s, [] => [s]
  | s, change :: changes =>
    s :: changeStages serde s change ++ servingStages serde (applyChange serde s change) changes

/-- The component after its start, and how the start went. -/
def Life.started (app : App) (life : Life) : ReloadState × Except String Unit :=
  startInstances life.env life.inbox app app.initial

/-- Every stage before the end. A start that fails is the only one. -/
def Life.stages (serde : Deserializers) (app : App) (life : Life) : List ReloadState :=
  match (Life.started app life).2 with
  | .error _ => [(Life.started app life).1]
  | .ok () => servingStages serde (Life.started app life).1 life.changes

/-- What is left when the component has returned. -/
def Life.over (serde : Deserializers) (app : App) (life : Life) : ReloadState :=
  (app.run life.env life.inbox (runSteps (applyChange serde) · life.changes)).1

/-- The stop engine's part of what was done. -/
def stopsOf (acts : List ReloadAct) : List StopAct :=
  acts.filterMap fun
    | .stop act => some act
    | _ => none

/-! ## The contract -/

/-- No instance is leaked, and none is stopped while it runs or a second time. -/
structure ComponentLife (serde : Deserializers) (app : App) (life : Life) : Prop where
  /-- Between two changes an id runs once. -/
  distinct : ∀ n, (Life.started app life).2 = .ok () →
    (runSteps (applyChange serde) (Life.started app life).1 (life.changes.take n)).registry.ids.Nodup
  untouched : ∀ s ∈ Life.stages serde app life, ∀ rt ∈ s.registry.devices,
    actsOn rt.object (stopsOf s.acts) = []
  stopped : ∀ s ∈ Life.stages serde app life, ∀ rt ∈ s.registry.devices,
    StoppedOnce rt (stopsOf (Life.over serde app life).acts)
  strangers : ∀ act ∈ stopsOf (Life.over serde app life).acts,
    ∃ s ∈ Life.stages serde app life, ∃ rt ∈ s.registry.devices, StopAct.object act = rt.object
  drained : (Life.over serde app life).registry.devices = []

/-! ## Repoll -/

/-- What an act tells clients: whether all instances are push, if the inbox takes it. -/
def tells : ReloadAct → Option Bool
  | .repollAvailability allPush true => some allPush
  | _ => none

/-- What clients were told last. -/
def announced (acts : List ReloadAct) : Option Bool := (acts.filterMap tells).getLast?

/-- Clients were last told what is so. -/
def ToldTruly (s : ReloadState) : Prop := announced s.acts = some s.registry.allPush

/-- A change that is refused, commits, or is rolled back whole. -/
def Settles (serde : Deserializers) (s : ReloadState) (change : ConfigChange) : Prop :=
  ∀ tx, prepareConfigurationApply serde change.started change.cancelledAtPrepare s
      change.candidate = .ok tx →
    (commit change.env change.cancelledAtCommit tx s).verdict = .ok () ∨
      (rollback change.env (commit change.env change.cancelledAtCommit tx s).undo
        (commit change.env change.cancelledAtCommit tx s).state).verdict = .ok ()

/-- What a change owes for clients to know of it: it settles, and the inbox takes the availability of
the verb. -/
structure TellsClients (serde : Deserializers) (s : ReloadState) (change : ConfigChange) : Prop where
  settles : Settles serde s change
  taken : change.env.takesAvailability = true

end EnipAdapter.Interface
