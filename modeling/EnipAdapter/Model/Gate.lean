import EnipAdapter.Model.Publish

/-!
# The two engines

What becomes of a group's readings (`poll.rs`, `process_group`) and of a consumed frame's
(`push.rs`, `process_frame`): each reading is counted, held to the gate of its signal and, if
it passes, handed to the signal's batcher. The push engine holds a GOOD reading to the
`sampleMs` floor first.
-/

set_option autoImplicit false

namespace EnipAdapter.Model

open EnipAdapter.Foundation

/-- The counters of `Health` the engines move. -/
structure SampleCounters where
  samplesGood : ℕ := 0
  samplesBad : ℕ := 0
  samplesUncertain : ℕ := 0
  samplesChanged : ℕ := 0
  samplesSuppressed : ℕ := 0
  readErrors : ℕ := 0
deriving DecidableEq, Repr

/-- What the gate did with one reading. -/
inductive GateOutcome where
  | suppressed
  | buffered
  | publish (samples : List Sample)

def GateOutcome.ofBatcher : Option (List Sample) → GateOutcome
  | none => .buffered
  | some samples => .publish samples

def GateOutcome.samples : GateOutcome → Option (List Sample)
  | .publish samples => some samples
  | _ => none

/-- A reading with the signal it is for and the deadband it is held to. -/
structure GateItem where
  signalId : String
  reading : Reading
  deadband : DeadbandSpec

/-- The counters after one reading: a changed value counts only where a change is asked for. -/
def countOutcome (mode : PublishMode) (quality : Quality) (outcome : GateOutcome)
    (c : SampleCounters) : SampleCounters :=
  match outcome with
  | .suppressed => { c with samplesSuppressed := c.samplesSuppressed + 1 }
  | _ =>
      if quality = .good ∧ mode = .onChange then { c with samplesChanged := c.samplesChanged + 1 }
      else c

/-- The publishes among what the readings of one call gave. -/
def gatePublishes (outs : List (String × GateOutcome)) : List Publish :=
  Engine.publishes (outs.map (fun p => (p.1, p.2.samples)))

/-! ## Poll -/

/-- What decides about one reading of a poll group. -/
structure PollGate where
  mode : PublishMode
  batchMs : ℕ
  now : Instant
  serverTs : String

/-- The body of the loop of `process_group`. -/
def pollGate (g : PollGate) (item : GateItem) (st : SignalState) : SignalState × GateOutcome :=
  let st := st.seen item.reading.quality g.now
  if gatePasses st item.reading.value item.reading.quality g.mode item.deadband then
    let (st, now) := st.gateIn item.reading g.now g.batchMs g.serverTs
    (st, .ofBatcher now)
  else (st, .suppressed)

/-- A BAD reading counts as a failed read too. -/
def pollCount (mode : PublishMode) (quality : Quality) (outcome : GateOutcome)
    (c : SampleCounters) : SampleCounters :=
  let c :=
    match quality with
    | .good => { c with samplesGood := c.samplesGood + 1 }
    | .bad => { c with samplesBad := c.samplesBad + 1, readErrors := c.readErrors + 1 }
    | .uncertain => { c with samplesUncertain := c.samplesUncertain + 1 }
  countOutcome mode quality outcome c

/-- The readings by their id; of two with one id the later is kept. -/
def readingOf (readings : List Reading) (id : String) : Option Reading :=
  readings.reverse.find? (fun r => r.signalId = id)

/-- The readings of a group's signals, in the order of the signals. -/
def groupItems (group : PollGroup) (readings : List Reading) : List GateItem :=
  group.signals.filterMap fun spec =>
    (readingOf readings spec.tagPath).map (fun r => ⟨spec.tagPath, r, spec.deadband⟩)

def processGroup (engine : Engine) (group : PollGroup) (g : PollGate) (readings : List Reading)
    (health : SampleCounters) : Engine × SampleCounters × List Publish :=
  let items := groupItems group readings
  let (state, outs) := foldKeyed GateItem.signalId (pollGate g) items engine.state
  let counted := (items.zip outs).foldl
    (fun c p => pollCount g.mode p.1.reading.quality p.2.2 c) health
  ({ engine with state := state }, counted, gatePublishes outs)

/-! ## Push -/

/-- What decides about one field of a consumed frame. -/
structure PushGate extends PollGate where
  sampleMs : ℕ

/-- The `sampleMs` floor: whether a GOOD reading comes too soon after the last eligible one. -/
def belowFloor (g : PushGate) (quality : Quality) (st : SignalState) : Bool :=
  decide (quality = .good ∧ g.sampleMs > 0) &&
    st.lastEligible.any (fun last => g.now - last < Duration.fromMillis g.sampleMs)

/-- The body of the loop of `process_frame`. -/
def pushGate (g : PushGate) (item : GateItem) (st : SignalState) : SignalState × GateOutcome :=
  let st := st.seen item.reading.quality g.now
  if belowFloor g item.reading.quality st then (st, .suppressed)
  else if gatePasses st item.reading.value item.reading.quality g.mode item.deadband then
    let st := { st with lastEligible := some g.now }
    let (st, now) := st.gateIn item.reading g.now g.batchMs g.serverTs
    (st, .ofBatcher now)
  else (st, .suppressed)

/-- An IDLE field is neither a good nor a bad sample. -/
def pushCount (mode : PublishMode) (quality : Quality) (outcome : GateOutcome)
    (c : SampleCounters) : SampleCounters :=
  let c :=
    match quality with
    | .good => { c with samplesGood := c.samplesGood + 1 }
    | .bad => { c with samplesBad := c.samplesBad + 1 }
    | .uncertain => c
  countOutcome mode quality outcome c

/-- The readings of a frame, each with the deadband configured for its field. -/
def frameItems (readings : List Reading) (deadbands : List (String × DeadbandSpec)) :
    List GateItem :=
  readings.map fun r => ⟨r.signalId, r, (deadbands.lookup r.signalId).getD {}⟩

def processFrame (engine : Engine) (readings : List Reading)
    (deadbands : List (String × DeadbandSpec)) (g : PushGate) (health : SampleCounters) :
    Engine × SampleCounters × List Publish :=
  let items := frameItems readings deadbands
  let (state, outs) := foldKeyed GateItem.signalId (pushGate g) items engine.state
  let counted := (items.zip outs).foldl
    (fun c p => pushCount g.mode p.1.reading.quality p.2.2 c) health
  ({ engine with state := state }, counted, gatePublishes outs)

end EnipAdapter.Model
