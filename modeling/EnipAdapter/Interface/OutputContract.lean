import EnipAdapter.Foundation.Runs
import EnipAdapter.Interface.OpenedPush
import EnipAdapter.Model.Metrics

/-!
# What the device is promised about its output

Two promises about the O→T frames of a push session: they carry the session's output image, of
the configured size, and they show the configured run state. Both are about the frame as the
device decodes it in the configured format.
-/

set_option autoImplicit false

namespace EnipAdapter.Interface

open EnipAdapter.Foundation EnipAdapter.Model

/-! ## The image -/

/-- The frame carries the session's image, of the configured size. -/
def CarriesImage (io : IoConfig) (s : PushSystem) (datagram : Bytes) : Prop :=
  ∃ frame : IoFrame, receivedFrame (o2tFormat io) datagram = some frame ∧
    frame.data = s.session.outBuf ∧ frame.data.length = o2tSize io

/-- Every frame of the step carries it. -/
def FramesCarryImage (io : IoConfig) (s : PushSystem) (input : PushInput) : Prop :=
  ∀ datagram ∈ s.produced input, CarriesImage io s datagram

/-- The manager has accepted some write, and an accepted write whose answer is still on its way
to the session did not change the image. -/
def imageSettled (s : PushSystem) : Bool :=
  s.verdicts.any (fun v => decide (v.2 = .ok ())) &&
    match s.state with
    | .awaiting w =>
      decide (s.verdicts.lookup w.call ≠ some (.ok ())) || decide (w.bytes = s.session.outBuf)
    | _ => true

/-- A step that produces frames does so in a format that carries data, from a settled image. -/
def FramesSettled (io : IoConfig) (s : PushSystem) (input : PushInput) : Prop :=
  s.produced input ≠ [] → (o2tFormat io).carriesData = true ∧ imageSettled s = true

instance (io : IoConfig) (s : PushSystem) (input : PushInput) :
    Decidable (FramesSettled io s input) :=
  inferInstanceAs (Decidable (_ → _))

/-! ## The run state -/

def framesAlong : PushSystem → List PushInput → List Bytes
  | _, [] => []
  | s, input :: inputs => s.produced input ++ framesAlong (s.step input) inputs

/-- One connection of the adapter: what its open was given, and the schedule it ran under. -/
structure PushLink where
  requestTimeout : Duration
  vendorId : UInt16
  localPort : UInt16
  join : Except ErrorKind Unit
  env : OpenEnv
  inputs : List PushInput

/-- The datagrams of one connection; none if it did not open. -/
def PushLink.frames (link : PushLink) (conn : ConnectionConfig) (io : IoConfig) : List Bytes :=
  match openPushSession conn io link.requestTimeout link.vendorId link.localPort link.join
    link.env with
  | .ok s => framesAlong s link.inputs
  | .error _ => []

/-- The frame shows the configured run state, which is the one the status view reports. -/
def ShowsRun (cfg : DeviceConfig) (out : IoOutput) (counters : IoCounters) (datagram : Bytes) :
    Prop :=
  ∃ frame : IoFrame, receivedFrame out.realTimeFormat.toEnip datagram = some frame ∧
    frame.runMode = some out.run ∧
    ({ DeviceMetrics.new cfg with io := counters }.ioView).get "run" = frame.runMode.map Json.bool

end EnipAdapter.Interface
