import EnipAdapter.Foundation.Ledger
import EnipAdapter.Foundation.Runs
import EnipAdapter.Model.MetricEmitter

/-!
# What the metrics add up to

Several tasks record and emit on one emitter. However they interleave, what was counted is reported
once: it is in one row that was drained, or in the counters still, and a drained row is handed over
or in the hands of one task. The contract also says that a row has the measures and the dimensions
its family defines, and that no row comes that was not announced at startup.
-/

set_option autoImplicit false

namespace EnipAdapter.Interface

open EnipAdapter.Foundation
open EnipAdapter.Model

/-! ## Counters -/

/-- The counter of a name; one that is not there has counted nothing. -/
def pairOf (stem : String) (counters : List (String × Pair)) : Pair :=
  (counters.lookup stem).getD {}

/-- The counters of a row, as they stand in the emitter. -/
def rowCounters (s : MetricState) : MetricCombo → List (String × Pair)
  | .health | .inventory _ => []
  | .connection => s.conn.counters
  | .poll group result => (entry s.poll (group, result)).counters
  | .publish mode => (entry s.publish mode).counters
  | .command verb result => (entry s.command (verb, result)).counters
  | .io => s.io.counters

/-- The emission carries the name and the dimensions of the row. -/
def IsRow (setup : MetricSetup) (combo : MetricCombo) (e : Emission) : Prop :=
  e.name = combo.family ∧ e.dimensions = setup.dimensions combo

instance (setup : MetricSetup) (combo : MetricCombo) (e : Emission) :
    Decidable (IsRow setup combo e) := inferInstanceAs (Decidable (_ ∧ _))

/-- What the emissions say of one counter of a row: its total and its interval. -/
def reportsOf (setup : MetricSetup) (combo : MetricCombo) (stem : String)
    (emissions : List Emission) : List (ℕ × ℕ) :=
  (emissions.filter fun e => decide (IsRow setup combo e)).map fun e =>
    ((pairOf stem e.values.counters).total, (pairOf stem e.values.counters).interval)

/-! ## The counters of the health metric -/

def healthMeasure : HealthCounter → String
  | .readErrors => "readErrors"
  | .writeErrors => "writeErrors"
  | .reconnects => "reconnects"

/-- What the emissions report of a counter of the health metric. -/
def healthReported (setup : MetricSetup) (c : HealthCounter) (emissions : List Emission) : ℚ :=
  ((emissions.filter fun e => decide (IsRow setup .health e)).map fun e =>
    (e.values.gauges.lookup (healthMeasure c)).getD 0).sum

def countsHealth (c : HealthCounter) : MetricInput → Bool
  | .record (.counted c') => c == c'
  | _ => false

/-! ## The definitions -/

/-- The measures of a family but for the one that may still be unknown. -/
def optionalMeasure : String := "certExpiryDays"

/-- An emission is of a defined family: it has the family's dimensions, and each measure of the
family once and no other. -/
structure Conforms (e : Emission) : Prop where
  defined : ∃ family ∈ familyDefs, family.name = e.name ∧
    e.dimensions.map Prod.fst = family.dimensions ∧
    (∀ name ∈ e.values.measures.map Prod.fst, name ∈ family.measures.map (·.name)) ∧
    ∀ name ∈ family.measures.map (·.name), name ≠ optionalMeasure →
      name ∈ e.values.measures.map Prod.fst
  once : (e.values.measures.map Prod.fst).Nodup

/-- What the engines of a device record: the cycles of its poll groups, and messages in the mode of
the group they come from, or in the one mode of a push device. -/
def EngineRecords (device : DeviceConfig) (task : TaskConfig) : MetricInput → Prop
  | .record (.pollCycle group _ _) => ∃ g ∈ task.groups, group = g.id.getD "group"
  | .record (.publish mode _ _ _ _) =>
    match device.mode with
    | .poll => ∃ g ∈ task.groups, mode = task.effectivePublishMode g
    | .push => mode = task.pushMode
  | _ => True

/-! ## The contract -/

/-- The contract of the inputs `inputs`, which lead to the system `s`, for an instance with this
configuration. -/
structure MetricsContract (device : DeviceConfig) (task : TaskConfig) (inputs : List MetricInput)
    (s : MetricSystem) : Prop where
  /-- Every drained row was handed over or is in one task's hands. -/
  once : s.drained.Perm (s.emitted ++ s.tasks.flatMap (·.hand))
  /-- The totals of a counter are the sums of its intervals. -/
  totals : ∀ (combo : MetricCombo) (stem : String),
    Posted (reportsOf (.new device task) combo stem s.drained)
      (pairOf stem (rowCounters s.state combo)).total
      (pairOf stem (rowCounters s.state combo)).interval
  /-- What was counted for the health metric is reported or pending. -/
  health : ∀ c, healthReported (.new device task) c s.drained + s.state.health.counted c =
    inputs.countP (countsHealth c)
  conforms : ∀ e ∈ s.drained, Conforms e
  /-- While the engines keep to the configuration, every row was announced. -/
  announced : (∀ input ∈ inputs, EngineRecords device task input) →
    ∀ e ∈ s.drained, ∃ combo ∈ (MetricSetup.new device task).defineAll,
      IsRow (.new device task) combo e

end EnipAdapter.Interface
