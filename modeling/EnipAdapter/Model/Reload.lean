import EnipAdapter.Model.Lifecycle

/-!
# Configuration reload

A configuration change as one transaction over the live instances (`reload.rs`): the plan, a pure
diff of a candidate document against what is running, and the commit and rollback that carry it
out.

The launcher is a parameter: what the `n`th launch of the component's life comes to. The parser
behind `serde` is one too; of it the code relies on the `id` of an instance being the one its
document declares. How long tasks take to end, and how long the event sinks take to publish, is the
environment. Notifications are best effort: one that does not complete in its budget is given up,
and an inbox that does not take the availability of a verb is only warned of.
-/

set_option autoImplicit false

namespace EnipAdapter.Model

/-! ## Parsing -/

/-- `serde`'s reading of an instance and of the global section. -/
structure Deserializers where
  device : Json → Except String DeviceConfig
  global : Json → Except String GlobalConfig
  device_id : ∀ v cfg, device v = .ok cfg → v.get "id" = some (.str cfg.id)

/-- `DeviceConfig::from_value`: deserialize, then validate. -/
def DeviceConfig.fromValue (serde : Deserializers) (value : Json) : Except String DeviceConfig :=
  match serde.device value with
  | .error e => .error ("invalid device config: " ++ e)
  | .ok cfg => cfg.validate

/-- `GlobalConfig::from_value`: nothing at all is the default. -/
def GlobalConfig.fromValue (serde : Deserializers) : Json → Except String GlobalConfig
  | .null => .ok {}
  | .obj [] => .ok {}
  | value => (serde.global value).mapError ("component.global: " ++ ·)

/-! ## The diff -/

def withoutInstances : Json → Json
  | .obj fields => .obj (fields.filter (·.1 != "instances"))
  | value => value

/-- The document without `component.instances`. -/
def nonInstanceView : Json → Json
  | .obj fields =>
    .obj (fields.map fun p => if p.1 = "component" then (p.1, withoutInstances p.2) else p)
  | value => value

/-- The loop of `candidate_instances`, with what was found so far. -/
def collectInstances : List (String × Json) → List Json → List (String × Json)
  | out, [] => out
  | out, entry :: rest =>
    match (entry.get "id").bind Json.asStr with
    | none => collectInstances out rest
    | some id =>
      if out.any (·.1 == id) then collectInstances out rest
      else collectInstances (out ++ [(id, entry)]) rest

/-- The candidate's instances in the order of the document: an entry without an `id` is left out,
and of two with one id the first stands. -/
def candidateInstances (raw : Json) : List (String × Json) :=
  match ((raw.get "component").bind (·.get "instances")).bind Json.asArray with
  | none => []
  | some entries => collectInstances [] entries

abbrev ParsedInstance := DeviceConfig × Json

/-- An instance and why it was skipped. -/
abbrev SkippedInstance := String × String

/-- The loop of `parse_instances`. -/
def parseEntries (serde : Deserializers) :
    List (String × Json) → List ParsedInstance × List SkippedInstance
  | [] => ([], [])
  | (id, subtree) :: rest =>
    let (valid, skipped) := parseEntries serde rest
    match DeviceConfig.fromValue serde subtree with
    | .ok cfg => ((cfg, subtree) :: valid, skipped)
    | .error e => (valid, (id, e) :: skipped)

/-- `parse_instances`: the instances the adapter can run, and those it cannot. -/
def parseInstances (serde : Deserializers) (raw : Json) :
    List ParsedInstance × List SkippedInstance :=
  parseEntries serde (candidateInstances raw)

inductive ReloadPlanError where
  | invalidGlobal (error : String)
  | noValidInstances
deriving DecidableEq, Repr

/-- What a transaction will do to the live instances. -/
structure ReloadPlan where
  restartAll : Bool
  global : GlobalConfig
  keep : List String
  stop : List String
  start : List ParsedInstance
  removed : List String
  skipped : List SkippedInstance

/-- What is kept, stopped and started of the candidate's instances. -/
structure Dispositions where
  keep : List String := []
  stop : List String := []
  start : List ParsedInstance := []

/-- The loop of `plan` over the candidate's instances. -/
def dispose (running : List (String × Json)) (restartAll : Bool) :
    List ParsedInstance → Dispositions
  | [] => {}
  | (cfg, raw) :: rest =>
    let d := dispose running restartAll rest
    match running.find? (·.1 == cfg.id) with
    | some (_, runningRaw) =>
      if !restartAll && Json.same runningRaw raw then { d with keep := cfg.id :: d.keep }
      else { d with stop := cfg.id :: d.stop, start := (cfg, raw) :: d.start }
    | none => { d with start := (cfg, raw) :: d.start }

/-- `plan`: what is running, against a candidate document. -/
def plan (serde : Deserializers) (running : List (String × Json)) (runningNonInstance : Json)
    (candidateRaw : Json) : Except ReloadPlanError ReloadPlan :=
  let globalRaw := ((candidateRaw.get "component").bind (·.get "global")).getD .null
  match GlobalConfig.fromValue serde globalRaw with
  | .error e => .error (.invalidGlobal e)
  | .ok global =>
    let restartAll := !Json.same (nonInstanceView candidateRaw) runningNonInstance
    let (candidate, skipped) := parseInstances serde candidateRaw
    let d := dispose running restartAll candidate
    let valid := candidate.map (·.1.id)
    if d.keep.isEmpty && d.start.isEmpty then .error .noValidInstances
    else
      let removed := (running.map (·.1)).filter fun id => !valid.any (· == id)
      .ok
        { restartAll := restartAll
          global := global
          keep := d.keep
          stop := d.stop ++ removed
          start := d.start
          removed := removed
          skipped := skipped }

/-! ## Launching -/

/-- A document of the configuration service: no object in it has a key twice. -/
structure ConfigSnapshot where
  raw : Json
  distinctKeys : raw.DistinctKeys

structure LaunchRequest where
  cfg : DeviceConfig
  raw : Json
  global : GlobalConfig
  snapshot : ConfigSnapshot

/-- What a launch comes to: a runtime with its tasks, a refusal of the adapter token, or a failure
of the runtime itself. -/
inductive LaunchOutcome where
  | launched (tasks : ℕ)
  | unknownAdapter (error : String)
  | failed (error : String)
deriving DecidableEq, Repr

/-- The context of a `config-applied` event. -/
structure AppliedContext where
  started : List String
  stopped : List String
  kept : List String
  skipped : List SkippedInstance
  restartAll : Bool

/-- What operators are told. -/
inductive Notice where
  | clearUnreachable (object : ℕ)
  | configApplied (context : AppliedContext)

/-- What a transaction does to the outside, in order. -/
inductive ReloadAct where
  | stop (act : StopAct)
  | notice (notice : Notice) (completed : Bool)
  | repollAvailability (allPush taken : Bool)

/-- The environment of the component. -/
structure ReloadEnv where
  launcher : ℕ → LaunchRequest → LaunchOutcome
  taskTakes : ℕ → ℕ → Option Duration := fun _ _ => some 0
  /-- How long the event sink of a runtime takes to publish. -/
  sinkTakes : ℕ → Option Duration := fun _ => some 0
  componentSinkTakes : Option Duration := some 0
  /-- Whether the command inbox takes the availability of a verb: it may be gone, or refuse it, and
  the component only warns. -/
  takesAvailability : Bool := true

def notifyBudget : Duration := Duration.fromSecs 2

/-- `notify`: a publish under its budget. -/
def notify (takes : Option Duration) (notice : Notice) : ReloadAct :=
  .notice notice (takes.any (· ≤ notifyBudget))

/-- `set_repoll_availability`: what becomes of it is not told to the commit. -/
def setRepollAvailability (env : ReloadEnv) (allPush : Bool) : ReloadAct :=
  .repollAvailability allPush env.takesAvailability

/-! ## The coordinator -/

/-- The generation that is running. -/
structure PriorGeneration where
  snapshot : ConfigSnapshot
  nonInstance : Json
  global : GlobalConfig

def PriorGeneration.of (snapshot : ConfigSnapshot) (global : GlobalConfig) : PriorGeneration where
  snapshot := snapshot
  nonInstance := nonInstanceView snapshot.raw
  global := global

/-- What a reload works on. `launches` counts the launches so far, `acts` is what was done. -/
structure ReloadState where
  registry : DeviceRegistry
  prior : PriorGeneration
  launches : ℕ := 0
  acts : List ReloadAct := []

structure ApplicationError where
  code : String
  message : String
deriving DecidableEq, Repr

/-- What a rollback needs. -/
structure UndoState where
  stopped : List ParsedInstance := []
  launched : List String := []
  prior : PriorGeneration

structure ReloadTransaction where
  plan : ReloadPlan
  snapshot : ConfigSnapshot
  undo : UndoState

/-- The transaction of a plan, with nothing done yet. -/
def ReloadTransaction.staged (s : ReloadState) (plan : ReloadPlan) (candidate : ConfigSnapshot) :
    ReloadTransaction where
  plan := plan
  snapshot := candidate
  undo := { prior := s.prior }

def ReloadPlanError.toApplication : ReloadPlanError → ApplicationError
  | .invalidGlobal e => ⟨"INVALID_GLOBAL", e⟩
  | .noValidInstances => ⟨"NO_VALID_INSTANCES",
      "no valid instance in component.instances[]; keeping the running configuration"⟩

def shuttingDown : ApplicationError :=
  ⟨"SHUTTING_DOWN", "component is shutting down; candidate not applied"⟩

/-- `prepare_configuration_apply`: stage the transaction. -/
def prepareConfigurationApply (serde : Deserializers) (started rootCancelled : Bool)
    (s : ReloadState) (candidate : ConfigSnapshot) : Except ApplicationError ReloadTransaction :=
  if started = false then
    .error ⟨"STARTING", "component is still starting; re-send the change or use reload-config"⟩
  else if rootCancelled then .error shuttingDown
  else
    match plan serde s.registry.snapshotRunning s.prior.nonInstance candidate.raw with
    | .error e => .error e.toApplication
    | .ok p => .ok (.staged s p candidate)

/-! ## Commit -/

/-- Take the instances with these ids out of the registry: what is left, and what was taken. -/
def detachAll (registry : DeviceRegistry) : List String → DeviceRegistry × List DeviceRuntime
  | [] => (registry, [])
  | id :: ids =>
    match registry.remove id with
    | none => detachAll registry ids
    | some (rt, registry) =>
      let (registry, others) := detachAll registry ids
      (registry, rt :: others)

/-- The runtimes that are going away for good, of those that stop. -/
def clearing (removed : List String) (stopping : List DeviceRuntime) : List DeviceRuntime :=
  removed.filterMap fun id => stopping.find? (·.id == id)

/-- Where a launch pass stands. -/
structure LaunchPass where
  registry : DeviceRegistry
  launched : List String := []
  skipped : List SkippedInstance
  launches : ℕ

/-- The launches of a commit, up to the first failure that is not a bad instance. -/
def launchAll (launcher : ℕ → LaunchRequest → LaunchOutcome) (global : GlobalConfig)
    (snapshot : ConfigSnapshot) :
    LaunchPass → List ParsedInstance → LaunchPass × Except ApplicationError Unit
  | pass, [] => (pass, .ok ())
  | pass, (cfg, raw) :: rest =>
    match launcher pass.launches ⟨cfg, raw, global, snapshot⟩ with
    | .launched tasks =>
      launchAll launcher global snapshot
        { pass with
          registry := pass.registry.insert ⟨pass.launches, cfg, raw, tasks⟩
          launched := pass.launched ++ [cfg.id]
          launches := pass.launches + 1 } rest
    | .unknownAdapter e =>
      launchAll launcher global snapshot
        { pass with
          skipped := pass.skipped ++ [(cfg.id, e)]
          launches := pass.launches + 1 } rest
    | .failed e =>
      ({ pass with launches := pass.launches + 1 },
        .error ⟨"LAUNCH_FAILED", s!"instance `{cfg.id}` could not be launched: {e}; " ++
          "the previous configuration is being restored"⟩)

/-- The verdict of a commit or a rollback, with what it leaves behind. -/
structure Applied where
  state : ReloadState
  undo : UndoState
  verdict : Except ApplicationError Unit

/-- `commit`: stop, swap the global, launch, publish. -/
def commit (env : ReloadEnv) (rootCancelled : Bool) (tx : ReloadTransaction) (s : ReloadState) :
    Applied :=
  if rootCancelled then ⟨s, tx.undo, .error shuttingDown⟩
  else
    let budget := stopBudget s.registry.global.timeouts
    let (registry, stopping) := detachAll s.registry tx.plan.stop
    let stopped := stopRuntimes env.taskTakes budget stopping
    let cleared := (clearing tx.plan.removed stopping).map fun rt =>
      notify (env.sinkTakes rt.object) (.clearUnreachable rt.object)
    let acts := s.acts ++ stopped.map .stop ++ cleared
    let (pass, launched) := launchAll env.launcher tx.plan.global tx.snapshot
      { registry := registry.setGlobal tx.plan.global
        skipped := tx.plan.skipped
        launches := s.launches } tx.plan.start
    let undo := { tx.undo with
      stopped := stopping.map fun rt => (rt.cfg, rt.raw)
      launched := pass.launched }
    let state := { s with registry := pass.registry, launches := pass.launches, acts := acts }
    match launched with
    | .error e => ⟨state, undo, .error e⟩
    | .ok () =>
      if pass.registry.isEmpty then
        ⟨state, undo, .error ⟨"NO_RUNNING_INSTANCES",
          "no instance is running after applying the candidate"⟩⟩
      else
        let context : AppliedContext :=
          { started := pass.launched
            stopped := tx.plan.stop
            kept := tx.plan.keep
            skipped := pass.skipped
            restartAll := tx.plan.restartAll }
        ⟨{ state with
            prior := .of tx.snapshot tx.plan.global
            acts := acts ++ [setRepollAvailability env pass.registry.allPush,
              notify env.componentSinkTakes (.configApplied context)] },
          undo, .ok ()⟩

/-! ## Rollback -/

/-- The launches of a rollback: every one is tried, and those that fail are named. -/
def relaunchAll (launcher : ℕ → LaunchRequest → LaunchOutcome) (prior : PriorGeneration) :
    DeviceRegistry → ℕ → List ParsedInstance → DeviceRegistry × ℕ × List String
  | registry, launches, [] => (registry, launches, [])
  | registry, launches, (cfg, raw) :: rest =>
    match launcher launches ⟨cfg, raw, prior.global, prior.snapshot⟩ with
    | .launched tasks =>
      relaunchAll launcher prior (registry.insert ⟨launches, cfg, raw, tasks⟩) (launches + 1) rest
    | .unknownAdapter _ | .failed _ =>
      let (registry, launches, failed) := relaunchAll launcher prior registry (launches + 1) rest
      (registry, launches, cfg.id :: failed)

/-- `rollback`: stop what the commit launched, and relaunch what it stopped. -/
def rollback (env : ReloadEnv) (undo : UndoState) (s : ReloadState) : Applied :=
  let budget := stopBudget undo.prior.global.timeouts
  let (registry, stopping) := detachAll s.registry undo.launched
  let stopped := stopRuntimes env.taskTakes budget stopping
  let (registry, launches, failed) := relaunchAll env.launcher undo.prior
    (registry.setGlobal undo.prior.global) s.launches undo.stopped
  let state := { s with
    registry := registry
    launches := launches
    acts := s.acts ++ stopped.map .stop }
  ⟨state, { undo with stopped := [], launched := [] },
    if failed = [] then .ok ()
    else .error ⟨"ROLLBACK_RELAUNCH_FAILED",
      "the previous configuration was restored except for: " ++ ", ".intercalate failed⟩⟩

end EnipAdapter.Model
