import EnipAdapter.Model.EventQueue
import EnipAdapter.Model.Gate
import EnipAdapter.Model.PushSession

/-!
# The translator of a push session

The task between the event stream of a class-1 connection and the consume loop (`run_translator`
in `eip/live.rs`), one read of the stream at a time. It reads at three places: in its `select!`,
in the loop that collapses a burst of samples, and in the loop that empties the stream to name why
a staging was refused. Events may arrive, and control messages may be sent, between any two reads.

What a read finds, and what the manager answers to a staging, is the environment. `readingsOf` is
what `assembly_to_readings` makes of a frame, which nothing here looks into.
-/

set_option autoImplicit false

namespace EnipAdapter.Model

/-- An item of the stream to the consume loop. -/
inductive SeamUpdate where
  | up (o2tApiMs t2oApiMs : UInt32)
  | data (readings : List Reading) (sequence : UInt16) (runMode : Bool) (receivedAt : Instant)
  | lost (error : DeviceError)

/-- Whole milliseconds, saturating. -/
def wholeMs (d : Duration) : UInt32 :=
  if d / 1000000 < 2 ^ 32 then UInt32.ofNat (d / 1000000) else UInt32.ofNat (2 ^ 32 - 1)

def mapLostReason (reason : LostReason) : DeviceError :=
  .transient (.text (lostReasonDetail reason))

/-- The depth of the channel to the consume loop. -/
def updateChannelDepth : ℕ := 16

/-- Where the translator reads the stream next: in its `select!`, in a burst with the latest
sample so far, in the disposition of a refused staging with the events taken so far, or not. -/
inductive TranslatorPhase where
  | listening
  | collapsing (latest : IoUpdate)
  | draining (drained : List IoEvent)
  | ended
deriving DecidableEq, Repr

/-- What the translator meets: the event arm of its `select!`, with `none` for the end of the
stream; a `SetOutput` with the manager's answer to the staging; a read that does not wait, with
`none` when nothing is there; a `Close`; and the end of the control channel. -/
inductive TranslatorTurn where
  | recv (event : Option IoEvent)
  | setOutput (staged : Except EnipError Unit)
  | tryRecv (event : Option IoEvent)
  | close
  | controlClosed

/-- What a turn does: the updates it sends, in order, and the verdict it acknowledges. -/
structure TranslatorEffect where
  sent : List SeamUpdate := []
  acked : Option (Except DeviceError Unit) := none

section

variable (readingsOf : Bytes → Bool → List Reading)

/-- The update of an event. -/
def seamUpdate : IoEvent → SeamUpdate
  | .up o2tApi t2oApi => .up (wholeMs o2tApi) (wholeMs t2oApi)
  | .data u => .data (readingsOf u.data u.runMode) u.sequence u.runMode u.receivedAt
  | .lost reason => .lost (mapLostReason reason)

/-- The last `Up` of some events. -/
def carriedUp (drained : List IoEvent) : Option IoEvent := (drained.filter IoEvent.isUp).getLast?

/-- The last sample of some events. -/
def carriedData (drained : List IoEvent) : Option IoEvent :=
  (drained.filter IoEvent.isData).getLast?

/-- `deliver_consulted_tail`: what a disposition took off the stream is still owed, an `Up`, the
freshest sample, and the loss. -/
def deliverConsultedTail (lost : Option LostReason) (drained : List IoEvent) : List SeamUpdate :=
  ((carriedUp drained).toList ++ (carriedData drained).toList ++
    (lost.map IoEvent.lost).toList).map (seamUpdate readingsOf)

/-- One turn of the translator. A turn that does not fit where it stands leaves it there. -/
def translatorTurn (phase : TranslatorPhase) (turn : TranslatorTurn) :
    TranslatorPhase × TranslatorEffect :=
  let send := List.map (seamUpdate readingsOf)
  match phase, turn with
  | .listening, .recv (some (.up o2t t2o)) => (.listening, { sent := send [.up o2t t2o] })
  | .listening, .recv (some (.data first)) => (.collapsing first, {})
  | .listening, .recv (some (.lost reason)) => (.ended, { sent := send [.lost reason] })
  | .listening, .recv none => (.ended, {})
  | .listening, .setOutput (.ok ()) => (.listening, { acked := some (.ok ()) })
  | .listening, .setOutput (.error (.timeout _)) =>
    (.listening, { acked := some (.error expiredVerdict) })
  | .listening, .setOutput (.error .closed) => (.draining [], {})
  | .listening, .setOutput (.error e) => (.listening, { acked := some (.error (mapEnipError e)) })
  | .listening, .close => (.ended, {})
  | .listening, .controlClosed => (.ended, {})
  | .collapsing _, .tryRecv (some (.data next)) => (.collapsing next, {})
  | .collapsing latest, .tryRecv (some (.lost reason)) =>
    (.ended, { sent := send [.data latest, .lost reason] })
  | .collapsing latest, .tryRecv (some other) => (.listening, { sent := send [.data latest, other] })
  | .collapsing latest, .tryRecv none => (.listening, { sent := send [.data latest] })
  | .draining drained, .tryRecv (some (.lost reason)) =>
    (.ended,
      { acked := some (.error (closedVerdict (some reason)))
        sent := deliverConsultedTail readingsOf (some reason) drained })
  | .draining drained, .tryRecv (some other) => (.draining (drained ++ [other]), {})
  | .draining drained, .tryRecv none =>
    (.listening,
      { acked := some (.error (closedVerdict none))
        sent := deliverConsultedTail readingsOf none drained })
  | phase, _ => (phase, {})

end

end EnipAdapter.Model
