import EnipAdapter.Model.Config

/-!
# The status view of a push device

The run state and the class-1 counters that `DeviceMetrics` (`metrics.rs`) answers `sb/status`
with. The counters count events one by one, so they are natural numbers here and become the
floats of the source where they are reported. Of `DeviceMetrics` only what `io_view` reads is
kept.
-/

set_option autoImplicit false

namespace EnipAdapter.Model

open EnipAdapter.Foundation

/-- A monotonic total and its value since the last emission. -/
structure Pair where
  total : ℕ := 0
  interval : ℕ := 0
deriving DecidableEq, Repr

/-- A float as JSON: `null` unless it is finite. -/
def Json.ofF64 (x : F64) : Json :=
  if h : x.isFinite = true then .num (.float x h) else .null

def Pair.view (p : Pair) : Json :=
  .obj [("interval", Json.ofF64 (F64.ofInt p.interval)), ("total", Json.ofF64 (F64.ofInt p.total))]

/-- The class-1 counters the status view reports. -/
structure IoCounters where
  framesConsumed : Pair := {}
  staleFramesDropped : Pair := {}
  sequenceGaps : Pair := {}
  sendErrors : Pair := {}
  recvErrors : Pair := {}
  sourceMismatchDatagrams : Pair := {}
  refusedRedirects : Pair := {}
  runMode : Bool := false
  o2tApiMs : UInt32 := 0
  t2oApiMs : UInt32 := 0
deriving DecidableEq, Repr

structure DeviceMetrics where
  device : DeviceConfig
  /-- The O→T run state reported as produced. -/
  producedRun : Bool
  io : IoCounters

namespace DeviceMetrics

/-- `DeviceMetrics::new`: the produced run state is the configured one, `true` without an
output. -/
def new (device : DeviceConfig) : DeviceMetrics where
  device := device
  producedRun := ((device.io.bind (·.output)).map (·.run)).getD true
  io := {}

def ioView (m : DeviceMetrics) : Json :=
  .obj [
    ("o2tApiMs", Json.ofNat m.io.o2tApiMs.toNat),
    ("t2oApiMs", Json.ofNat m.io.t2oApiMs.toNat),
    ("run", .bool m.producedRun),
    ("peerRun", .bool m.io.runMode),
    ("framesConsumed", m.io.framesConsumed.view),
    ("staleDropped", m.io.staleFramesDropped.view),
    ("sequenceGaps", m.io.sequenceGaps.view),
    ("sendErrors", m.io.sendErrors.view),
    ("recvErrors", m.io.recvErrors.view),
    ("sourceMismatchDatagrams", m.io.sourceMismatchDatagrams.view),
    ("refusedRedirects", m.io.refusedRedirects.view)]

end DeviceMetrics

end EnipAdapter.Model
