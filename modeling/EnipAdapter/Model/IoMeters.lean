import EnipAdapter.Model.Metrics
import EnipAdapter.Model.Time

/-!
# The class-1 counters of a push device

The part of `DeviceMetrics` (`metrics.rs`) that moves with a class-1 connection: what a consumed
frame counts, how a snapshot of the protocol stack's counters is folded into the totals, and what
the end of a connection resets. The stack counts from zero in every connection; the totals are
built from the growth since the last snapshot that was folded.

A metrics tick of the consume loop (`push_driver.rs`) folds the snapshot the translator last took,
and reports a refused redirect. The emission that follows a tick resets the intervals and leaves
the totals alone; it is left out.
-/

set_option autoImplicit false

namespace EnipAdapter.Model

def Pair.add (p : Pair) (n : ℕ) : Pair := ⟨p.total + n, p.interval + n⟩

/-- The stack's counters since the ForwardOpen of a connection. -/
structure IoLinkStats where
  framesProduced : ℕ := 0
  staleFrames : ℕ := 0
  sizeMismatch : ℕ := 0
  malformedFrames : ℕ := 0
  produceOverruns : ℕ := 0
  sendErrors : ℕ := 0
  recvErrors : ℕ := 0
  sourceMismatchDatagrams : ℕ := 0
  refusedRedirects : ℕ := 0
deriving DecidableEq, Repr

/-- The counters of `IoCounters` that belong to the connections, besides those of the status
view. `lastStats` is the snapshot that was folded last. -/
structure IoLinkCounters extends IoCounters where
  ioConnectionState : Bool := false
  framesProduced : Pair := {}
  sizeMismatchDropped : Pair := {}
  malformedFrames : Pair := {}
  ioTimeouts : Pair := {}
  produceOverruns : Pair := {}
  interFrame : Duration := 0
  lastSeq : Option UInt16 := none
  lastFrameAt : Option Instant := none
  lastStats : IoLinkStats := {}
deriving DecidableEq, Repr

/-- The growth of a counter since the last snapshot; a counter that fell has started again. -/
def growth (last cur : ℕ) : ℕ := if cur ≥ last then cur - last else cur

namespace IoLinkCounters

/-- The connection came up. -/
def onIoUp (io : IoLinkCounters) (o2tApiMs t2oApiMs : UInt32) : IoLinkCounters :=
  { io with ioConnectionState := true, o2tApiMs := o2tApiMs, t2oApiMs := t2oApiMs }

/-- `record_frame_consumed`: one more frame, and the frames missing before it. -/
def recordFrameConsumed (io : IoLinkCounters) (sequence : UInt16) (receivedAt : Instant)
    (runMode : Bool) : IoLinkCounters :=
  let missed :=
    match io.lastSeq with
    | some last => if (sequence - last).toNat > 1 then (sequence - last).toNat - 1 else 0
    | none => 0
  { io with
    framesConsumed := io.framesConsumed.add 1
    runMode := runMode
    sequenceGaps := io.sequenceGaps.add missed
    lastSeq := some sequence
    interFrame := (io.lastFrameAt.map (receivedAt - ·)).getD io.interFrame
    lastFrameAt := some receivedAt }

/-- `record_io_stats`: fold a snapshot, and say whether it shows a newly refused redirect. -/
def recordIoStats (io : IoLinkCounters) (s : IoLinkStats) : IoLinkCounters × Bool :=
  let last := io.lastStats
  ({ io with
      framesProduced := io.framesProduced.add (growth last.framesProduced s.framesProduced)
      staleFramesDropped := io.staleFramesDropped.add (growth last.staleFrames s.staleFrames)
      sizeMismatchDropped := io.sizeMismatchDropped.add (growth last.sizeMismatch s.sizeMismatch)
      malformedFrames := io.malformedFrames.add (growth last.malformedFrames s.malformedFrames)
      produceOverruns := io.produceOverruns.add (growth last.produceOverruns s.produceOverruns)
      sendErrors := io.sendErrors.add (growth last.sendErrors s.sendErrors)
      recvErrors := io.recvErrors.add (growth last.recvErrors s.recvErrors)
      sourceMismatchDatagrams := io.sourceMismatchDatagrams.add
        (growth last.sourceMismatchDatagrams s.sourceMismatchDatagrams)
      refusedRedirects := io.refusedRedirects.add
        (growth last.refusedRedirects s.refusedRedirects)
      lastStats := s },
    decide (0 < growth last.refusedRedirects s.refusedRedirects))

/-- What belongs to a connection is dropped when it is over. -/
def endConnection (io : IoLinkCounters) : IoLinkCounters :=
  { io with ioConnectionState := false, lastSeq := none, lastFrameAt := none, lastStats := {} }

/-- The connection was lost. -/
def onIoLost (io : IoLinkCounters) : IoLinkCounters :=
  { io.endConnection with ioTimeouts := io.ioTimeouts.add 1 }

/-- The connection is replaced on request. -/
def onIoLinkReplaced (io : IoLinkCounters) : IoLinkCounters := io.endConnection

end IoLinkCounters

/-! ## Connections, ticks and ends -/

/-- What happens to the counters while a connection is open: the stack counts, the translator
takes a snapshot, the consume loop folds the last snapshot. -/
inductive MeterStep where
  | counted (stats : IoLinkStats)
  | refreshed
  | tick

/-- How a connection ends: a `Lost`, a stream that closes without one, a requested reconnect. -/
inductive LinkEnd where
  | lost
  | closed
  | reconnect

/-- One connection of an instance, from its open to its end. -/
structure MeteredConnection where
  steps : List MeterStep
  ending : LinkEnd

/-- The counters of the instance, those of the stack, the translator's snapshot, and the
`io-redirect-refused` events of the connection, each with the count it reports. -/
structure MeterState where
  io : IoLinkCounters
  stack : IoLinkStats := {}
  shared : IoLinkStats := {}
  redirectsRefused : List ℕ := []

def meterStep (s : MeterState) : MeterStep → MeterState
  | .counted stats => { s with stack := stats }
  | .refreshed => { s with shared := s.stack }
  | .tick =>
    let (io, refused) := s.io.recordIoStats s.shared
    { s with
      io := io
      redirectsRefused :=
        if refused then s.redirectsRefused ++ [s.shared.refusedRedirects]
        else s.redirectsRefused }

/-- The counters after the end of a connection. -/
def endLink (io : IoLinkCounters) : LinkEnd → IoLinkCounters
  | .lost | .closed => io.onIoLost
  | .reconnect => io.onIoLinkReplaced

/-- One connection: the counters after it, and its `io-redirect-refused` events. A new session
starts from counters and a snapshot of zero. -/
def meterConnection (io : IoLinkCounters) (c : MeteredConnection) : IoLinkCounters × List ℕ :=
  let s := c.steps.foldl meterStep { io := io }
  (endLink s.io c.ending, s.redirectsRefused)

/-- The connections of an instance one after the other. -/
def meterRun (io : IoLinkCounters) : List MeteredConnection → IoLinkCounters × List (List ℕ)
  | [] => (io, [])
  | c :: cs =>
    let (io, events) := meterConnection io c
    let (io, later) := meterRun io cs
    (io, events :: later)

end EnipAdapter.Model
