import EnipAdapter.Model.Reload

/-!
# What a configuration change promises

A change commits whole or rolls back whole, and a device that no longer runs leaves no alarm
behind. The words of both contracts, over the state before and after a transaction.
-/

set_option autoImplicit false

namespace EnipAdapter.Interface

open EnipAdapter.Model

/-! ## The component a change meets -/

/-- A component between two changes: an id runs once, the global is that of the generation that is
running, and every runtime is an object of its own, made by an earlier launch. -/
structure LiveComponent extends ReloadState where
  distinct : registry.ids.Nodup
  inForce : registry.global = prior.global
  objects : (registry.devices.map DeviceRuntime.object).Nodup
  made : ∀ rt ∈ registry.devices, rt.object < launches

/-- The configuration an id runs with. -/
def configOf (registry : DeviceRegistry) (id : String) : Option ParsedInstance :=
  (registry.devices.find? (·.id == id)).map fun rt => (rt.cfg, rt.raw)

/-- The `component.global` section of a document. -/
def globalSection (raw : Json) : Json := ((raw.get "component").bind (·.get "global")).getD .null

/-- What a transaction did, of all that was ever done. -/
def actsSince (before after : ReloadState) : List ReloadAct := after.acts.drop before.acts.length

/-- The act cancels a runtime or ends one of its tasks. -/
def Stops (object : ℕ) : ReloadAct → Prop
  | .stop (.cancelled o) => o = object
  | .stop (.ended o _ _) => o = object
  | _ => False

/-! ## Launches -/

/-- What the launches of some instances come to, the first of them being the `n`th. -/
def outcomesOf (env : ReloadEnv) (global : GlobalConfig) (snapshot : ConfigSnapshot) :
    ℕ → List ParsedInstance → List (String × LaunchOutcome)
  | _, [] => []
  | n, (cfg, raw) :: rest =>
    (cfg.id, env.launcher n ⟨cfg, raw, global, snapshot⟩) ::
      outcomesOf env global snapshot (n + 1) rest

/-- What becomes of the instances a plan starts. -/
def startOutcomes (env : ReloadEnv) (s : ReloadState) (p : ReloadPlan)
    (candidate : ConfigSnapshot) : List (String × LaunchOutcome) :=
  outcomesOf env p.global candidate s.launches p.start

/-- The instances that are launched. -/
def launchedIds (outcomes : List (String × LaunchOutcome)) : List String :=
  outcomes.filterMap fun
    | (id, .launched _) => some id
    | _ => none

/-- The instances that are refused for their adapter. -/
def refusedIds (outcomes : List (String × LaunchOutcome)) : List String :=
  outcomes.filterMap fun
    | (id, .unknownAdapter _) => some id
    | _ => none

/-! ## Commit whole or roll back whole -/

/-- The candidate is in force. -/
structure Committed (serde : Deserializers) (env : ReloadEnv) (candidate : ConfigSnapshot)
    (p : ReloadPlan) (before after : ReloadState) : Prop where
  distinct : after.registry.ids.Nodup
  running : ∀ id, id ∈ after.registry.ids ↔
    id ∈ p.keep ∨ id ∈ launchedIds (startOutcomes env before p candidate)
  carries : ∀ rt ∈ after.registry.devices, ∃ subtree,
    (rt.id, subtree) ∈ candidateInstances candidate.raw ∧ Json.same rt.raw subtree = true
  kept : ∀ rt : DeviceRuntime, rt.id ∈ p.keep →
    (rt ∈ after.registry.devices ↔ rt ∈ before.registry.devices)
  global : GlobalConfig.fromValue serde (globalSection candidate.raw) = .ok after.registry.global
  prior : after.prior = .of candidate after.registry.global
  /-- Who is declared and does not run is named in the event. -/
  reported : ∃ context completed,
    .notice (.configApplied context) completed ∈ actsSince before after ∧
      ∀ entry ∈ candidateInstances candidate.raw, entry.1 ∉ after.registry.ids →
        ∃ why, (entry.1, why) ∈ context.skipped
  /-- The same document again would move nothing. -/
  settled : refusedIds (startOutcomes env before p candidate) = [] →
    ∃ again, plan serde after.registry.snapshotRunning after.prior.nonInstance candidate.raw =
      .ok again ∧ again.stop = [] ∧ again.start = []

/-- The generation from before is in force. -/
structure Restored (p : ReloadPlan) (before after : ReloadState) : Prop where
  configs : ∀ id, configOf after.registry id = configOf before.registry id
  global : after.registry.global = before.registry.global
  prior : after.prior = before.prior
  /-- A runtime that was to be kept is there, and was never stopped. -/
  kept : ∀ rt ∈ before.registry.devices, rt.id ∈ p.keep →
    rt ∈ after.registry.devices ∧ ∀ act ∈ actsSince before after, ¬ Stops rt.object act

/-! ## One change after another -/

/-- One change: the candidate, the environment it meets, and how far the component is in its life
when the change is prepared and when it is committed. -/
structure ConfigChange where
  env : ReloadEnv
  candidate : ConfigSnapshot
  started : Bool := true
  cancelledAtPrepare : Bool := false
  cancelledAtCommit : Bool := false

/-- What the configuration service makes of a staged transaction: one that does not commit is
rolled back. -/
def settle (change : ConfigChange) (s : ReloadState) (tx : ReloadTransaction) : ReloadState :=
  let r := commit change.env change.cancelledAtCommit tx s
  if r.verdict.isOk then r.state else (rollback change.env r.undo r.state).state

/-- And of a change: a candidate that is not staged leaves everything as it is. -/
def applyChange (serde : Deserializers) (s : ReloadState) (change : ConfigChange) : ReloadState :=
  ((prepareConfigurationApply serde change.started change.cancelledAtPrepare s
    change.candidate).toOption.map (settle change s)).getD s

/-! ## Alarms -/

/-- The alarm of a runtime is cleared once, after all of its tasks have ended. -/
def ClearedOnce (rt : DeviceRuntime) (acts : List ReloadAct) : Prop :=
  ∃ first last, acts = first ++ .notice (.clearUnreachable rt.object) true :: last ∧
    (∀ completed, .notice (.clearUnreachable rt.object) completed ∉ first ++ last) ∧
    (∀ task < rt.tasks, ∃ how, .stop (.ended rt.object task how) ∈ first) ∧
    ∀ act ∈ last, ¬ Stops rt.object act

/-- Who ran and no longer does has its alarm cleared, and who is kept does not. -/
structure NoOrphanAlarm (p : ReloadPlan) (before after : ReloadState) : Prop where
  cleared : ∀ rt ∈ before.registry.devices, rt.id ∉ after.registry.ids →
    ClearedOnce rt (actsSince before after)
  untouched : ∀ rt ∈ before.registry.devices, rt.id ∈ p.keep →
    ∀ completed, .notice (.clearUnreachable rt.object) completed ∉ actsSince before after

/-- The event sinks of the running instances publish within their budget. -/
def SinksInTime (env : ReloadEnv) (s : ReloadState) : Prop :=
  ∀ rt ∈ s.registry.devices, (env.sinkTakes rt.object).any (· ≤ notifyBudget) = true

end EnipAdapter.Interface
