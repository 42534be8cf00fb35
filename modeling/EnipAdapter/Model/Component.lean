import EnipAdapter.Model.Reload

/-!
# The component's life

What the supervisor makes of a configuration (`supervisor.rs`): the instances it launches at
startup, the surfaces it registers, and the teardown that a failed start and a shutdown signal come
to (`lifecycle.rs`, and `launch_startup_set` of `reload.rs`).

The configuration service, the command inbox and the signal are the environment.
-/

set_option autoImplicit false

namespace EnipAdapter.Model

/-!
## The registry between two owners

The coordinator of configuration changes and the shutdown work on one registry of instances
(`lifecycle.rs`, `reload.rs`). Each access takes the lock once; between two of them the other side
may move. What an access took out of the registry is in the hands of the side that took it, until
that side stops it.

The coordinator launches, detaches, and stops what it detached, in any order a startup, a commit or
a rollback asks for. `shutdown_all` cancels the root token and then takes all there is and stops
it, until it finds the registry empty.
-/

/-- Drain every runtime out of the registry. -/
def DeviceRegistry.takeAll (r : DeviceRegistry) : List DeviceRuntime × DeviceRegistry :=
  (r.devices, { r with devices := [] })

/-- Where `shutdown_all` stands. The root token is cancelled from the first of its steps on. -/
inductive Drain where
  | idle
  | looping
  | holding (taken : List DeviceRuntime)
  | returned

def Drain.taken : Drain → List DeviceRuntime
  | .holding taken => taken
  | _ => []

/-- The registry and what either side holds. `launched` is the history: all that was ever put into
the registry. -/
structure Teardown where
  registry : DeviceRegistry
  launches : ℕ := 0
  detached : List DeviceRuntime := []
  drain : Drain := .idle
  acts : List StopAct := []
  launched : List DeviceRuntime := []

/-- An access of either side. How long the tasks of a stop take is the environment, and so is the
budget that is left of an absolute deadline. -/
inductive TeardownStep where
  | launch (cfg : DeviceConfig) (raw : Json) (outcome : LaunchOutcome)
  | setGlobal (global : GlobalConfig)
  | detach (id : String)
  | stopDetached (takes : ℕ → ℕ → Option Duration) (budget : Duration)
  | cancelRoot
  | takeAll
  | stopTaken (takes : ℕ → ℕ → Option Duration) (budget : Duration)

def teardownStep (t : Teardown) : TeardownStep → Teardown
  | .launch cfg raw outcome =>
    match outcome with
    | .launched tasks =>
      let rt : DeviceRuntime := ⟨t.launches, cfg, raw, tasks⟩
      { t with
        registry := t.registry.insert rt
        launches := t.launches + 1
        launched := t.launched ++ [rt] }
    | _ => { t with launches := t.launches + 1 }
  | .setGlobal global => { t with registry := t.registry.setGlobal global }
  | .detach id =>
    match t.registry.remove id with
    | none => t
    | some (rt, registry) => { t with registry := registry, detached := t.detached ++ [rt] }
  | .stopDetached takes budget =>
    { t with detached := [], acts := t.acts ++ stopRuntimes takes budget t.detached }
  | .cancelRoot =>
    match t.drain with
    | .idle => { t with drain := .looping }
    | _ => t
  | .takeAll =>
    match t.drain with
    | .looping =>
      let (runtimes, registry) := t.registry.takeAll
      if runtimes.isEmpty then { t with drain := .returned }
      else { t with registry := registry, drain := .holding runtimes }
    | _ => t
  | .stopTaken takes budget =>
    match t.drain with
    | .holding taken =>
      { t with drain := .looping, acts := t.acts ++ stopRuntimes takes budget taken }
    | _ => t

/-! ## The launch pass -/

/-- What startup's launch pass comes to. What started is in it even when the pass was fatal. -/
structure StartupLaunch where
  launched : List DeviceRuntime
  skipped : List SkippedInstance
  fatal : Option String
  launches : ℕ

/-- The loop of `launch_startup_set`: a bad instance is skipped, any other failure ends it. -/
def launchEach (launcher : ℕ → LaunchRequest → LaunchOutcome) (global : GlobalConfig)
    (snapshot : ConfigSnapshot) : ℕ → List ParsedInstance → StartupLaunch
  | n, [] => ⟨[], [], none, n⟩
  | n, (cfg, raw) :: rest =>
    match launcher n ⟨cfg, raw, global, snapshot⟩ with
    | .launched tasks =>
      let later := launchEach launcher global snapshot (n + 1) rest
      { later with launched := ⟨n, cfg, raw, tasks⟩ :: later.launched }
    | .unknownAdapter e =>
      let later := launchEach launcher global snapshot (n + 1) rest
      { later with skipped := (cfg.id, e) :: later.skipped }
    | .failed e => ⟨[], [], some e, n + 1⟩

/-- `launch_startup_set`: a component that serves nothing does not start. -/
def launchStartupSet (launcher : ℕ → LaunchRequest → LaunchOutcome) (global : GlobalConfig)
    (snapshot : ConfigSnapshot) (n : ℕ) (devices : List ParsedInstance) : StartupLaunch :=
  let pass := launchEach launcher global snapshot n devices
  if pass.fatal.isNone && pass.launched.isEmpty then
    let why := "; ".intercalate (pass.skipped.map fun s => s!"`{s.1}`: {s.2}")
    { pass with
      fatal := some ("no launchable devices in component.instances[] — every instance was " ++
        s!"skipped ({why})") }
  else pass

/-! ## The supervisor -/

structure App where
  config : ConfigSnapshot
  global : GlobalConfig
  devices : List ParsedInstance

/-- `App::new`, from the `component.global` of the document. -/
def App.new (serde : Deserializers) (config : ConfigSnapshot) : Except String App :=
  let globalRaw := ((config.raw.get "component").bind (·.get "global")).getD .null
  match GlobalConfig.fromValue serde globalRaw with
  | .error e => .error ("invalid component.global: " ++ e)
  | .ok global =>
    let (devices, _) := parseInstances serde config.raw
    if devices.isEmpty then .error "no valid devices in component.instances[]"
    else .ok ⟨config, global, devices⟩

/-- Nothing runs yet, and the generation that will run is the one a change is measured against. -/
def App.initial (app : App) : ReloadState where
  registry := { global := app.global }
  prior := .of app.config app.global

/-- What the command inbox answers to the verbs, to the availability of one, and to the panels. -/
structure CommandInbox where
  verbs : Except String Unit := .ok ()
  availability : Except String Unit := .ok ()
  panels : Except String Unit := .ok ()

/-- `register_all`. -/
def registerAll (inbox : CommandInbox) (s : ReloadState) : ReloadState × Except String Unit :=
  match inbox.verbs, inbox.availability with
  | .error e, _ => (s, .error e)
  | .ok (), .error e => (s, .error e)
  | .ok (), .ok () =>
    ({ s with acts := s.acts ++ [.repollAvailability s.registry.allPush true] }, inbox.panels)

/-- `start_instances`: what started is registered before anything else can fail. -/
def startInstances (env : ReloadEnv) (inbox : Option CommandInbox) (app : App)
    (s : ReloadState) : ReloadState × Except String Unit :=
  let outcome := launchStartupSet env.launcher app.global app.config s.launches app.devices
  let s := { s with
    registry := outcome.launched.foldl DeviceRegistry.insert s.registry
    launches := outcome.launches }
  match outcome.fatal, inbox with
  | some e, _ => (s, .error e)
  | none, none => (s, .ok ())
  | none, some inbox => registerAll inbox s

/-- `shutdown_all` with nobody else at the registry: the first pass takes all there is, and the
next finds it empty. -/
def shutdownAll (takes : ℕ → ℕ → Option Duration) (budget : Duration) (s : ReloadState) :
    ReloadState :=
  let (runtimes, registry) := s.registry.takeAll
  if runtimes.isEmpty then s
  else
    { s with
      registry := registry
      acts := s.acts ++ (stopRuntimes takes budget runtimes).map .stop }

/-- `App::run`. `serve` is what becomes of the component between its start and the signal. -/
def App.run (env : ReloadEnv) (inbox : Option CommandInbox) (serve : ReloadState → ReloadState)
    (app : App) : ReloadState × Except String Unit :=
  let budget := stopBudget app.global.timeouts
  let (s, outcome) := startInstances env inbox app app.initial
  match outcome with
  | .error e => (shutdownAll env.taskTakes budget s, .error e)
  | .ok () => (shutdownAll env.taskTakes budget (serve s), .ok ())

end EnipAdapter.Model
