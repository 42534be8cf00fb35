import EnipAdapter.Foundation.KeyedStates
import EnipAdapter.Model.Config
import EnipAdapter.Model.Time

/-!
# The publish gate

The part of the publish path both engines share (`publish.rs`): when a reading passes the
`publishMode` and deadband gate, the `batchMs` coalescing window, the two onChange baselines
of a signal, and the engine that keeps one such state for each signal id.

The order in which a hash map yields its entries reaches no signal's state, so a pass over the
map is a pass over its keys as they stand.
-/

set_option autoImplicit false

namespace EnipAdapter.Model

open EnipAdapter.Foundation

/-! ## Readings and samples -/

inductive Quality where
  | good
  | bad
  | uncertain
deriving DecidableEq, Repr

/-- One reading of the device. -/
structure Reading where
  signalId : String
  name : Option String
  value : Json
  quality : Quality
  qualityRaw : Option String
  observedType : Option String

/-- One sample of a `SouthboundSignalUpdate`. -/
structure Sample where
  value : Json
  quality : Quality
  qualityRaw : Option String
  serverTs : Option String

def sampleOf (value : Json) (quality : Quality) (qualityRaw serverTs : Option String) : Sample :=
  ⟨value, quality, qualityRaw, serverTs⟩

inductive PublishMode where
  | onChange
  | always
deriving DecidableEq, Repr

/-! ## The gate -/

/-- The numeric deadband comparison; a zero percent threshold degrades to any change. -/
def scalarExceeds (old new : F64) (deadband : DeadbandSpec) : Bool :=
  let delta := (new.sub old).abs
  match deadband.kind with
  | .none => !new.eqv old
  | .absolute => delta.ge deadband.value
  | .percent =>
      let threshold := (old.abs.mul deadband.value).div (F64.ofInt 100)
      if threshold.eqv (F64.zero false) then !new.eqv old else delta.ge threshold

/-- One element or scalar: numbers by the deadband, anything else by inequality. -/
def elementChanged (prev new : Json) (deadband : DeadbandSpec) : Bool :=
  match prev.asF64, new.asF64 with
  | some old, some new => scalarExceeds old new deadband
  | _, _ => !prev.same new

/-- Whether `new` differs from `prev` past the deadband; an array when any element does. -/
def valueChanged (prev new : Json) (deadband : DeadbandSpec) : Bool :=
  match prev, new with
  | .arr p, .arr n =>
      if p.length ≠ n.length then true
      else (p.zip n).any (fun e => elementChanged e.1 e.2 deadband)
  | prev, new => elementChanged prev new deadband

def shouldPublish (prev : Option Json) (value : Json) (quality : Quality) (mode : PublishMode)
    (deadband : DeadbandSpec) : Bool :=
  if quality ≠ .good then true
  else if mode = .always then true
  else
    match prev with
    | none => true
    | some p => valueChanged p value deadband

/-! ## Batching -/

structure Batcher where
  buffer : List Sample := []
  windowOpen : Option Instant := none

namespace Batcher

/-- Add a passing sample; without a window it is to be published now. -/
def add (b : Batcher) (sample : Sample) (now : Instant) (batchMs : ℕ) :
    Batcher × Option (List Sample) :=
  if batchMs = 0 then (b, some [sample])
  else
    ({ buffer := b.buffer ++ [sample]
       windowOpen := if b.windowOpen.isNone then some now else b.windowOpen }, none)

/-- Drain the buffer if a window is open and has lasted `batchMs`. -/
def takeDue (b : Batcher) (now : Instant) (batchMs : ℕ) : Batcher × Option (List Sample) :=
  match b.windowOpen with
  | some opened =>
      if b.buffer ≠ [] ∧ now - opened ≥ Duration.fromMillis batchMs then
        ({}, some b.buffer)
      else (b, none)
  | none => (b, none)

/-- Throw the open window away; the count is of the samples dropped. -/
def discard (b : Batcher) : Batcher × ℕ := ({}, b.buffer.length)

end Batcher

/-! ## The state of a signal -/

structure SignalState where
  /-- The last value whose publish was confirmed. -/
  committed : Option Json := none
  /-- The latest value gated in and not yet confirmed. -/
  pending : Option Json := none
  lastGood : Option Instant := none
  lastEligible : Option Instant := none
  batcher : Batcher := {}

instance : Inhabited SignalState := ⟨{}⟩

/-- The gate of a live signal: against both halves of its baseline. -/
def gatePasses (st : SignalState) (value : Json) (quality : Quality) (mode : PublishMode)
    (deadband : DeadbandSpec) : Bool :=
  shouldPublish st.committed value quality mode deadband &&
    shouldPublish st.pending value quality mode deadband

namespace SignalState

/-- A GOOD reading moves the staleness clock. -/
def seen (st : SignalState) (quality : Quality) (now : Instant) : SignalState :=
  if quality = .good then { st with lastGood := some now } else st

/-- A reading that passed the gate: its value is pending, its sample goes to the batcher. -/
def gateIn (st : SignalState) (reading : Reading) (now : Instant) (batchMs : ℕ)
    (serverTs : String) : SignalState × Option (List Sample) :=
  let st := if reading.quality = .good then { st with pending := some reading.value } else st
  let sample := sampleOf reading.value reading.quality reading.qualityRaw (some serverTs)
  let (batcher, now) := st.batcher.add sample now batchMs
  ({ st with batcher := batcher }, now)

/-- The outcome of a publish: a confirmed one makes the pending value the committed one. -/
def settle (st : SignalState) (published : Bool) : SignalState :=
  match st.pending with
  | none => st
  | some value =>
      { st with
        pending := none
        committed := if published then some value else st.committed }

/-- Drop the open window and the baseline its samples carry. -/
def discard (st : SignalState) : SignalState × ℕ :=
  let (batcher, n) := st.batcher.discard
  ({ st with
      batcher := batcher
      pending := if n > 0 then none else st.pending }, n)

end SignalState

/-! ## The engine -/

/-- An assembled publish. -/
structure Publish where
  signalId : String
  samples : List Sample

structure Engine where
  state : AList (fun _ : String => SignalState)
  start : Instant

namespace Engine

def new (start : Instant) : Engine := ⟨∅, start⟩

/-- The publishes among what a pass gave. -/
def publishes (outs : List (String × Option (List Sample))) : List Publish :=
  outs.filterMap (fun p => p.2.map (Publish.mk p.1))

/-- Every window that has closed by `now`, drained into one publish each. -/
def takeDue (e : Engine) (batchMs : ℕ) (now : Instant) : Engine × List Publish :=
  let pass (st : SignalState) : SignalState × Option (List Sample) :=
    let (batcher, due) := st.batcher.takeDue now batchMs
    ({ st with batcher := batcher }, due)
  let (state, outs) := overKeys pass e.state
  ({ e with state := state }, publishes outs)

def settle (e : Engine) (signalId : String) (published : Bool) : Engine :=
  match e.state.lookup signalId with
  | none => e
  | some st => { e with state := e.state.insert signalId (st.settle published) }

/-- Discard every open window; the count is of the samples dropped, in a `u64`. -/
def discardOpenBatches (e : Engine) : Engine × ℕ :=
  let (state, counts) := overKeys SignalState.discard e.state
  ({ e with state := state },
    counts.foldl (fun dropped p => min (dropped + p.2) (2 ^ 64 - 1)) 0)

/-- Count no signal stale for the time before `now`. -/
def rebaseStale (e : Engine) (now : Instant) : Engine :=
  let pass (st : SignalState) : SignalState × Unit := ({ st with lastGood := some now }, ())
  { e with state := (overKeys pass e.state).1 }

/-- Take current readings as the baselines. -/
def rebaseFrom (e : Engine) (readings : List (String × Json)) (now : Instant) : Engine :=
  let pass (r : String × Json) (st : SignalState) : SignalState × Unit :=
    ({ st with committed := some r.2, pending := none, lastGood := some now }, ())
  { e with state := (foldKeyed Prod.fst pass readings e.state).1 }

/-- The state of a signal, as `entry(id).or_default()` gives it. -/
def signal (e : Engine) (id : String) : SignalState := entry e.state id

end Engine

end EnipAdapter.Model
