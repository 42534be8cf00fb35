import EnipAdapter.Model.Metrics
import EnipAdapter.Model.ReadCommand

/-!
# The signals command

`sb/signals` (`commands.rs`): the resolved configuration of an instance, without device I/O. A
poll device lists the signals of its groups with the cadence they are polled on, a push device
the fields of its input and output assembly. A polled signal also shows the wire type its last
reply declared, once there was one; how these types are recorded is left out.
-/

set_option autoImplicit false

namespace EnipAdapter.Model

open EnipAdapter.Foundation

/-! ## Observed types -/

/-- The wire types the signals of an instance were last observed to declare. -/
abbrev ObservedTypes := List (String × String)

def observedType (observed : ObservedTypes) (signalId : String) : Option String :=
  observed.lookup signalId

/-! ## Entries -/

def PublishMode.asStr : PublishMode → String
  | .onChange => "onChange"
  | .always => "always"

def DeadbandKind.asStr : DeadbandKind → String
  | .none => "none"
  | .absolute => "absolute"
  | .percent => "percent"

/-- The deadband as a `{type, value}` object. -/
def deadbandJson (db : DeadbandSpec) : Json :=
  .obj [("type", .str db.kind.asStr), ("value", Json.ofF64 db.value)]

/-- What the command reads of an instance: its configuration, with the cadence the running
generation gives its groups, and the types observed. -/
structure SignalsView where
  cfg : DeviceConfig
  task : TaskConfig
  groups : task.groups.map (·.toPollGroup) = cfg.pollGroups
  observed : ObservedTypes

namespace SignalsView

/-- The entry of a polled signal. -/
def pollSignal (view : SignalsView) (g : ScheduledGroup) (s : SignalSpec) : Json :=
  .obj ([("name", .str s.name), ("id", .str s.tagPath),
      ("address", s.addressJson view.cfg.connection), ("pollGroup", .str (g.id.getD "")),
      ("pollIntervalMs", Json.ofNat (view.task.effectivePollMs g)),
      ("publishMode", .str (view.task.effectivePublishMode g).asStr),
      ("writable", .bool (view.cfg.writes.permits s.tagPath)),
      ("deadband", deadbandJson s.deadband)] ++
    ((observedType view.observed s.tagPath).map fun ty => ("observedType", .str ty)).toList)

def pollSignals (view : SignalsView) : List Json :=
  view.task.groups.flatMap fun g => g.signals.map (view.pollSignal g)

/-- The entry of a push field. -/
def fieldSignal (view : SignalsView) (assembly : UInt16) (direction : String) (f : IoFieldSpec) :
    Json :=
  .obj ([("name", .str f.name), ("id", .str (f.signalId assembly)),
      ("address", f.addressJson assembly view.cfg.connection), ("direction", .str direction),
      ("publishMode", .str view.task.pushMode.asStr),
      ("writable", .bool (view.cfg.writes.permits (f.signalId assembly)))] ++
    (f.deadband.map fun db => ("deadband", deadbandJson db)).toList)

def inputSignals (view : SignalsView) (io : IoConfig) : List Json :=
  io.input.signals.map (view.fieldSignal io.assemblies.input "input")

def outputSignals (view : SignalsView) (io : IoConfig) : List Json :=
  io.outputSignals.map (view.fieldSignal io.assemblies.output "output")

def pushSignals (view : SignalsView) : List Json :=
  match view.cfg.io with
  | some io => view.inputSignals io ++ view.outputSignals io
  | none => []

/-- The answer of the command. -/
def signals (view : SignalsView) : Json :=
  match view.cfg.mode with
  | .poll =>
    .obj [("id", .str view.cfg.id), ("mode", .str "poll"), ("signals", .arr view.pollSignals)]
  | .push =>
    .obj [("id", .str view.cfg.id), ("mode", .str "push"), ("signals", .arr view.pushSignals)]

end SignalsView

end EnipAdapter.Model
