import EnipAdapter.Foundation.Runs
import EnipAdapter.Model.PushPipeline
import EnipAdapter.Model.Translator

/-!
# What the translator promises

A connection's stream is an `Up` with samples behind it, or nothing, and then at most one `Lost`.
The translator may leave samples out, never the `Up`, the `Lost` or the freshest sample, and it
keeps their order.
-/

set_option autoImplicit false

namespace EnipAdapter.Interface

open EnipAdapter.Model

/-- The events of a stream, from its parts. -/
def streamEvents (up : Option (Duration × Duration)) (samples : List IoUpdate)
    (lost : Option LostReason) : List IoEvent :=
  (up.map fun apis => IoEvent.up apis.1 apis.2).toList ++ samples.map IoEvent.data ++
    (lost.map IoEvent.lost).toList

/-- The parts of a stream; no sample comes without the `Up`. -/
structure StreamShape where
  up : Option (Duration × Duration)
  samples : List IoUpdate
  lost : Option LostReason
  started : up = none → samples = []

def StreamShape.events (s : StreamShape) : List IoEvent := streamEvents s.up s.samples s.lost

/-- A run of the translator: where it stands, the events it has taken off the stream, and the
updates it has sent. -/
structure TranslatorRun where
  phase : TranslatorPhase := .listening
  received : List IoEvent := []
  sent : List SeamUpdate := []

/-- The events a turn takes off the stream. -/
def takenBy : TranslatorPhase → TranslatorTurn → List IoEvent
  | .listening, .recv event => event.toList
  | .collapsing _, .tryRecv event => event.toList
  | .draining _, .tryRecv event => event.toList
  | _, _ => []

def TranslatorRun.next (readingsOf : Bytes → Bool → List Reading) (r : TranslatorRun)
    (turn : TranslatorTurn) : TranslatorRun where
  phase := (translatorTurn readingsOf r.phase turn).1
  received := r.received ++ takenBy r.phase turn
  sent := r.sent ++ (translatorTurn readingsOf r.phase turn).2.sent

/-- The run of some turns, from the start of the task. -/
def runTranslator (readingsOf : Bytes → Bool → List Reading) (turns : List TranslatorTurn) :
    TranslatorRun :=
  turns.foldl (TranslatorRun.next readingsOf) {}

/-- The translator is not in the middle of a burst or of a disposition. -/
def Quiet (phase : TranslatorPhase) : Prop := phase = .listening ∨ phase = .ended

/-- The updates are those of the stream with some of its samples left out, never the last. -/
def Delivered (readingsOf : Bytes → Bool → List Reading) (s : StreamShape)
    (sent : List SeamUpdate) : Prop :=
  ∃ kept : List IoUpdate, kept.Sublist s.samples ∧ kept.getLast? = s.samples.getLast? ∧
    sent = (streamEvents s.up kept s.lost).map (seamUpdate readingsOf)

/-!
## What the frame counters promise

Of a connection that accepts frames without a gap, every frame is counted and no gap is. The two
latest-wins stages between the stack and the counter may drop a sample; the steps that do are
named here.
-/

/-- The frames came in sequence, wrapping at the end of a `u16`. -/
def Consecutive (sequences : List UInt16) : Prop := sequences.IsChain fun a b => b = a + 1

/-- Nothing of the stream is still on its way. -/
structure Drained (s : PushPipeline) : Prop where
  queue : s.queue.deque = []
  quiet : Quiet s.phase
  outbox : s.outbox = []
  channel : s.channel = []

/-- The frame counters have grown by the frames that were accepted, and no gap was counted. -/
def CountsTheNetwork (before : IoLinkCounters) (s : PushPipeline) : Prop :=
  s.io.framesConsumed.total = before.framesConsumed.total + s.accepted.length ∧
    s.io.sequenceGaps.total = before.sequenceGaps.total

/-- The translator holds a sample it has not sent. -/
def holdsSample : TranslatorPhase → Bool
  | .collapsing _ => true
  | .draining drained => drained.any IoEvent.isData
  | _ => false

/-- The steps that drop a sample: a frame that meets a full queue, and a read that finds a sample
while the translator holds one. -/
def DropsSample (s : PushPipeline) : PipelineStep → Prop
  | .accept _ => s.queue.txClosed = false ∧ s.queue.dataLen ≥ s.queue.capacity ∧
      s.queue.deque.any IoEvent.isData = true
  | .tryReceive => s.outbox = [] ∧ holdsSample s.phase = true ∧
      s.queue.deque.head?.any IoEvent.isData = true
  | _ => False

instance (s : PushPipeline) : (step : PipelineStep) → Decidable (DropsSample s step)
  | .accept _ => inferInstanceAs (Decidable (_ ∧ _ ∧ _))
  | .tryReceive => inferInstanceAs (Decidable (_ ∧ _ ∧ _))
  | .lose _ | .receive | .setOutput _ | .send | .consume => .isFalse id

/-- The connection after some steps. -/
def runPipeline (readingsOf : Bytes → Bool → List Reading) (s : PushPipeline)
    (steps : List PipelineStep) : PushPipeline :=
  Foundation.runSteps (PushPipeline.step readingsOf) s steps

/-- No step of the schedule drops a sample. -/
def DropsNothing (readingsOf : Bytes → Bool → List Reading) (s : PushPipeline)
    (steps : List PipelineStep) : Prop :=
  Foundation.Guarded (PushPipeline.step readingsOf) (fun s step => ¬ DropsSample s step) s steps

instance (readingsOf : Bytes → Bool → List Reading) (s : PushPipeline)
    (steps : List PipelineStep) : Decidable (DropsNothing readingsOf s steps) :=
  inferInstanceAs (Decidable (Foundation.Guarded _ _ s steps))

end EnipAdapter.Interface
