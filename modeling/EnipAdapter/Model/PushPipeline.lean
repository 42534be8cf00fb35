import EnipAdapter.Model.IoMeters
import EnipAdapter.Model.Translator

/-!
# From an accepted frame to its counter

The way of a sample of a class-1 connection: the I/O manager puts it on the event queue
(`io.rs`), the translator takes it off and sends an update (`eip/live.rs`), the consume loop
takes the update and counts the frame (`push_driver.rs`). The tasks run in any order; each step
is one of them getting on by one event.
-/

set_option autoImplicit false

namespace EnipAdapter.Model

structure PushPipeline where
  queue : EventQueueState
  /-- The negotiated intervals the `Up` reports. -/
  apis : Duration × Duration
  phase : TranslatorPhase := .listening
  /-- The updates the translator is about to send. -/
  outbox : List SeamUpdate := []
  channel : List SeamUpdate := []
  io : IoLinkCounters
  /-- The sequence numbers of the frames the stack has accepted. -/
  accepted : List UInt16 := []

/-- A connection that was just opened, with the counters of its instance. -/
def PushPipeline.start (capacity : ℕ) (apis : Duration × Duration) (io : IoLinkCounters) :
    PushPipeline where
  queue := EventQueueState.new capacity
  apis := apis
  io := io

/-- Who gets on: the manager with a frame or with a loss, the translator with a read or a staging
answer or an update it sends, the consume loop with an update. -/
inductive PipelineStep where
  | accept (update : IoUpdate)
  | lose (reason : LostReason)
  | receive
  | setOutput (staged : Except EnipError Unit)
  | tryReceive
  | send
  | consume

/-- What the consume loop counts for an update. -/
def consumeUpdate (io : IoLinkCounters) : SeamUpdate → IoLinkCounters
  | .up o2tApiMs t2oApiMs => io.onIoUp o2tApiMs t2oApiMs
  | .data _ sequence runMode receivedAt => io.recordFrameConsumed sequence receivedAt runMode
  | .lost _ => io.onIoLost

namespace PushPipeline

variable (readingsOf : Bytes → Bool → List Reading)

/-- The manager delivers an accepted frame; the first one brings the `Up`. -/
def accept (s : PushPipeline) (u : IoUpdate) : PushPipeline :=
  let opened :=
    if s.accepted = [] then (s.queue.pushLatestWins (.up s.apis.1 s.apis.2)).1 else s.queue
  { s with
    queue := (opened.pushLatestWins (.data u)).1
    accepted := s.accepted ++ [u.sequence] }

/-- A turn of the translator that leaves the queue as `queue`. -/
def turn (s : PushPipeline) (queue : EventQueueState) (t : TranslatorTurn) : PushPipeline :=
  let r := translatorTurn readingsOf s.phase t
  { s with queue := queue, phase := r.1, outbox := r.2.sent }

/-- Whether the translator is in one of the loops that read without waiting. -/
def reads : TranslatorPhase → Bool
  | .collapsing _ => true
  | .draining _ => true
  | _ => false

def step (s : PushPipeline) : PipelineStep → PushPipeline
  | .accept u => if s.queue.txClosed then s else s.accept u
  | .lose reason =>
    if s.queue.txClosed then s
    else { s with queue := (s.queue.pushLatestWins (.lost reason)).1.closeSender }
  | .receive =>
    if s.outbox = [] ∧ s.phase = .listening then
      match s.queue.pop with
      | some (ev, queue) => s.turn readingsOf queue (.recv (some ev))
      | none => if s.queue.txClosed then s.turn readingsOf s.queue (.recv none) else s
    else s
  | .setOutput staged => if s.outbox = [] then s.turn readingsOf s.queue (.setOutput staged) else s
  | .tryReceive =>
    if s.outbox = [] ∧ reads s.phase then
      match s.queue.pop with
      | some (ev, queue) => s.turn readingsOf queue (.tryRecv (some ev))
      | none => s.turn readingsOf s.queue (.tryRecv none)
    else s
  | .send =>
    match s.outbox with
    | [] => s
    | update :: rest =>
      if s.channel.length < updateChannelDepth then
        { s with outbox := rest, channel := s.channel ++ [update] }
      else s
  | .consume =>
    match s.channel with
    | [] => s
    | update :: rest => { s with channel := rest, io := consumeUpdate s.io update }

end PushPipeline

end EnipAdapter.Model
