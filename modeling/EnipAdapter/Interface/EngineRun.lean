import EnipAdapter.Foundation.Runs
import EnipAdapter.Model.Gate
import Mathlib.Algebra.GroupWithZero.Nat

/-!
# Runs of the publish engine

A call of either engine, the publishes it returns and their settlement, and the flush of the
windows that have closed. The state of one signal after a call is decided by the readings of
that signal; the run of a whole engine is a run of each of its signals.
-/

set_option autoImplicit false

namespace EnipAdapter.Interface

open EnipAdapter.Foundation EnipAdapter.Model

/-! ## Calls -/

/-- Which engine is called, and with what. -/
inductive CallKind where
  | group (group : PollGroup) (readings : List Reading)
  | frame (readings : List Reading) (deadbands : List (String × DeadbandSpec)) (sampleMs : ℕ)

/-- A call of `process_group` or `process_frame`. -/
structure EngineCall where
  kind : CallKind
  mode : PublishMode
  now : Instant
  serverTs : String

namespace EngineCall

/-- The readings the call gates, in order. -/
def items (c : EngineCall) : List GateItem :=
  match c.kind with
  | .group group readings => groupItems group readings
  | .frame readings deadbands _ => frameItems readings deadbands

/-- What the call does with one of them. -/
def gate (c : EngineCall) (batchMs : ℕ) : GateItem → SignalState → SignalState × GateOutcome :=
  match c.kind with
  | .group _ _ => pollGate ⟨c.mode, batchMs, c.now, c.serverTs⟩
  | .frame _ _ sampleMs => pushGate ⟨⟨c.mode, batchMs, c.now, c.serverTs⟩, sampleMs⟩

/-- The call itself; the counters it moves are nobody's here. -/
def run (c : EngineCall) (batchMs : ℕ) (e : Engine) : Engine × List Publish :=
  let (e, _, out) :=
    match c.kind with
    | .group group readings => processGroup e group ⟨c.mode, batchMs, c.now, c.serverTs⟩ readings {}
    | .frame readings deadbands sampleMs =>
        processFrame e readings deadbands ⟨⟨c.mode, batchMs, c.now, c.serverTs⟩, sampleMs⟩ {}
  (e, out)

/-- Whether a reading passes the gate of its signal (and, in push, the floor). -/
def admits (c : EngineCall) (item : GateItem) (st : SignalState) : Bool :=
  let passes := gatePasses st item.reading.value item.reading.quality c.mode item.deadband
  match c.kind with
  | .group _ _ => passes
  | .frame _ _ sampleMs =>
      !belowFloor ⟨⟨c.mode, 0, c.now, c.serverTs⟩, sampleMs⟩ item.reading.quality st && passes

/-- The sample a reading becomes. -/
def sample (c : EngineCall) (item : GateItem) : Sample :=
  sampleOf item.reading.value item.reading.quality item.reading.qualityRaw (some c.serverTs)

/-- A call whose signals have distinct ids: the tag paths of the group, or the readings of the
frame. -/
def Distinct (c : EngineCall) : Prop :=
  match c.kind with
  | .group group _ => (group.signals.map (·.tagPath)).Nodup
  | .frame readings _ _ => (readings.map (·.signalId)).Nodup

/-- A call with no `sampleMs` floor. -/
def Unfloored (c : EngineCall) : Prop :=
  match c.kind with
  | .group _ _ => True
  | .frame _ _ sampleMs => sampleMs = 0

end EngineCall

/-- An onChange call on a configuration with distinct signal ids and no floor. -/
structure OnChange (c : EngineCall) : Prop where
  mode : c.mode = .onChange
  distinct : c.Distinct
  unfloored : c.Unfloored

/-- The samples in the open windows of an engine. -/
def bufferedSamples (e : Engine) : ℕ :=
  (e.state.keys.map (fun id => (e.signal id).batcher.buffer.length)).sum

/-- The sample lists published for a signal. -/
def publishedFor (id : String) (out : List Publish) : List (List Sample) :=
  (out.filter (fun p => p.signalId = id)).map (·.samples)

/-! ## Settled calls -/

/-- Settle the publishes of a call or a flush, each with its outcome. -/
def settleAll (e : Engine) (outcomes : String → Bool) (out : List Publish) : Engine :=
  out.foldl (fun e p => e.settle p.signalId (outcomes p.signalId)) e

/-- A call whose publishes are settled before anything else happens. -/
structure SettledCall where
  call : EngineCall
  outcomes : String → Bool

def settledStep (e : Engine) (s : SettledCall) : Engine :=
  settleAll (s.call.run 0 e).1 s.outcomes (s.call.run 0 e).2

/-- One reading of a run, whether it was published and whether that was confirmed. -/
structure GateEvent where
  signalId : String
  reading : Reading
  published : Bool
  confirmed : Bool

/-- Whether a call published a signal. -/
def publishedIn (out : List Publish) (id : String) : Bool := out.any (fun p => p.signalId = id)

/-- What one settled call shows. -/
def settledEvents (e : Engine) (s : SettledCall) : List GateEvent :=
  s.call.items.map fun item =>
    let published := publishedIn (s.call.run 0 e).2 item.signalId
    ⟨item.signalId, item.reading, published, published && s.outcomes item.signalId⟩

/-- What a run of settled calls shows. -/
def gateEvents : Engine → List SettledCall → List GateEvent
  | _, [] => []
  | e, s :: steps => settledEvents e s ++ gateEvents (settledStep e s) steps

/-- The value of the last GOOD reading of a signal whose publish was confirmed. -/
def lastConfirmed (id : String) (events : List GateEvent) : Option Json :=
  ((events.filter fun ev =>
    decide (ev.signalId = id ∧ ev.reading.quality = .good) && ev.confirmed).getLast?).map
      (·.reading.value)

/-- What a reading and the outcome of its publish make of the state of its signal. -/
def ownStep (c : EngineCall) (item : GateItem) (confirmed : Bool) (st : SignalState) :
    SignalState :=
  match c.gate 0 item st with
  | (st', .publish _) => st'.settle confirmed
  | (st', _) => st'

/-- A GOOD value is news to the bus: nothing was confirmed yet, or the value has changed. -/
def isNews (committed : Option Json) (item : GateItem) : Bool :=
  committed.all (fun c => valueChanged c item.reading.value item.deadband)

/-- The samples a run of settled calls published for a signal. -/
def publishedLog (id : String) : Engine → List SettledCall → List Sample
  | _, [] => []
  | e, s :: steps =>
      (publishedFor id (s.call.run 0 e).2).flatten ++ publishedLog id (settledStep e s) steps

/-- The last GOOD one of a list of samples. -/
def lastGoodSample (samples : List Sample) : Option Sample :=
  (samples.filter (fun s => s.quality = .good)).getLast?

/-! ## Batched runs -/

/-- What a batching engine is put through. -/
inductive BatchInput where
  | call (c : EngineCall)
  | flush (now : Instant) (outcomes : String → Bool)
  | discard

/-- `take_due`, and the settlement of what it returned. -/
def flushStep (batchMs : ℕ) (e : Engine) (now : Instant) (outcomes : String → Bool) : Engine :=
  settleAll (e.takeDue batchMs now).1 outcomes (e.takeDue batchMs now).2

def batchStep (batchMs : ℕ) (e : Engine) : BatchInput → Engine
  | .call c => (c.run batchMs e).1
  | .flush now outcomes => flushStep batchMs e now outcomes
  | .discard => e.discardOpenBatches.1

/-! ## Where the samples of a signal go -/

/-- Whether the gate let a reading in. -/
def passed : GateOutcome → Bool
  | .suppressed => false
  | _ => true

/-- The samples of a signal that a call gates in, in order. -/
def gatedIn (batchMs : ℕ) (c : EngineCall) (id : String) (e : Engine) : List Sample :=
  let items := c.items.filter (fun item => item.signalId = id)
  ((items.zip (foldState (c.gate batchMs) items (e.signal id)).2).filter (fun p => passed p.2)).map
    (fun p => c.sample p.1)

/-- The end of a window: flushed to the bus, or thrown away and counted. -/
inductive Closure where
  | flushed (samples : List Sample)
  | discarded (samples : List Sample)

def Closure.samples : Closure → List Sample
  | .flushed samples => samples
  | .discarded samples => samples

/-- What was gated in for a signal and when, and the windows that have ended. -/
structure Ledger where
  gated : List (Sample × Instant) := []
  closed : List Closure := []

/-- The samples whose windows have ended. -/
def Ledger.gone (l : Ledger) : List Sample := l.closed.flatMap Closure.samples

def ledgerStep (batchMs : ℕ) (id : String) (e : Engine) (l : Ledger) : BatchInput → Ledger
  | .call c =>
      { l with gated := l.gated ++ (gatedIn batchMs c id e).map (fun s => (s, c.now)) }
  | .flush now _ =>
      { l with closed := l.closed ++
          (publishedFor id (e.takeDue batchMs now).2).map Closure.flushed }
  | .discard =>
      let dropped := (e.signal id).batcher.buffer
      if dropped = [] then l else { l with closed := l.closed ++ [.discarded dropped] }

/-- One step of an engine, with the ledger of a signal kept beside it. -/
def bookedStep (batchMs : ℕ) (id : String) (r : Engine × Ledger) (input : BatchInput) :
    Engine × Ledger :=
  (batchStep batchMs r.1 input, ledgerStep batchMs id r.1 r.2 input)

/-! ## Batching against not batching -/

/-- A call, or a flush whose publishes are all confirmed. -/
inductive ConfirmedInput where
  | call (c : EngineCall)
  | flush (now : Instant)

def ConfirmedInput.batch : ConfirmedInput → BatchInput
  | .call c => .call c
  | .flush now => .flush now (fun _ => true)

/-- The calls of a run, each settled with success. -/
def settledCalls (inputs : List ConfirmedInput) : List SettledCall :=
  inputs.filterMap fun
    | .call c => some ⟨c, fun _ => true⟩
    | .flush _ => none

/-- The engine after a batched run. -/
def confirmedStep (batchMs : ℕ) (e : Engine) (input : ConfirmedInput) : Engine :=
  batchStep batchMs e input.batch

/-- The samples the flushes of a run published for a signal. -/
def flushedLog (batchMs : ℕ) (id : String) : Engine → List ConfirmedInput → List Sample
  | _, [] => []
  | e, .call c :: inputs => flushedLog batchMs id (confirmedStep batchMs e (.call c)) inputs
  | e, .flush now :: inputs =>
      (publishedFor id (e.takeDue batchMs now).2).flatten ++
        flushedLog batchMs id (confirmedStep batchMs e (.flush now)) inputs

/-- A reading that returns to the committed value while another one is in the open window. -/
def Returns (st : SignalState) (item : GateItem) : Prop :=
  item.reading.quality = .good ∧
    ∃ c p, st.committed = some c ∧ st.pending = some p ∧
      valueChanged c item.reading.value item.deadband = false ∧
      valueChanged p item.reading.value item.deadband = true

/-- A step in which the signal does not return. -/
def NoReturn (id : String) (e : Engine) : ConfirmedInput → Prop
  | .call c => ∀ item ∈ c.items, item.signalId = id → ¬ Returns (e.signal id) item
  | .flush _ => True

/-- What the batched engine has flushed and still holds is what the other has published. -/
def Transparent (batchMs : ℕ) (id : String) (e e' : Engine) (inputs : List ConfirmedInput) :
    Prop :=
  flushedLog batchMs id e inputs ++
      ((runSteps (confirmedStep batchMs) e inputs).signal id).batcher.buffer =
    (e.signal id).batcher.buffer ++ publishedLog id e' (settledCalls inputs)

/-- The last GOOD reading of a signal in a run. -/
def lastGoodReading (id : String) (calls : List SettledCall) : Option GateItem :=
  ((calls.flatMap (fun s => s.call.items)).filter fun item =>
    decide (item.signalId = id ∧ item.reading.quality = .good)).getLast?

end EnipAdapter.Interface
