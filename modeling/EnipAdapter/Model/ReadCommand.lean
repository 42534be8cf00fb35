import EnipAdapter.Model.Commands
import EnipAdapter.Model.DeviceTask

/-!
# The read command

`sb/read` (`commands.rs`): a live read through the device task on a poll device, the last
consumed frame on a push device. References resolve as they do for a write; the readings that
come back are put in a map by signal id, and every reference takes its entry from the map.

The device task is a function from the message to what becomes of it, and the capture times
are texts the clock supplies.
-/

set_option autoImplicit false

namespace EnipAdapter.Model

/-- Why a read command fails as a whole. -/
inductive ReadFailure where
  | refused (error : CommandError)
  | readFailed (message : String)
deriving DecidableEq, Repr

def ReadFailure.token : ReadFailure → String
  | .refused error => error.code.token
  | .readFailed _ => "READ_FAILED"

/-- What becomes of a message that asks for an answer: the channel is closed and it is not
handed over, the device task answers, or the task drops the reply channel. -/
inductive ChannelAnswer (α : Type) where
  | closed
  | answered (answer : α)
  | dropped

def qualityStr : Quality → String
  | .good => "GOOD"
  | .bad => "BAD"
  | .uncertain => "UNCERTAIN"

/-- The `signal.address` object of a tag. -/
def SignalSpec.addressJson (spec : SignalSpec) (conn : ConnectionConfig) : Json :=
  .obj ([("tagPath", .str spec.tagPath), ("type", .str spec.eipType.wire)] ++
    (spec.arrayCount.map fun n => ("arrayCount", Json.ofNat n.toNat)).toList ++
    (conn.slot.map fun s => ("slot", Json.ofNat s.toNat)).toList)

/-- A BAD entry with a native code and no reading behind it. -/
def badRead (id raw : String) : Json :=
  .obj [("signal", .obj [("id", .str id)]), ("value", .null), ("quality", .str "BAD"),
    ("qualityRaw", .str raw)]

/-- The entry of a signal whose reading is there. -/
def readItem (id : String) (address : Json) (r : Reading) (ts : String) : Json :=
  .obj [("signal", .obj [("id", .str id), ("address", address)]), ("value", r.value),
    ("quality", .str (qualityStr r.quality)),
    ("qualityRaw", (r.qualityRaw.map Json.str).getD .null), ("serverTs", .str ts)]

/-- The answer of a read command. -/
def readsReply (cfg : DeviceConfig) (reads : List Json) : Json :=
  .obj [("id", .str cfg.id), ("reads", .arr reads)]

/-! ## Poll devices -/

/-- The references of a poll read, resolved in order: a label stands for one that names
nothing, and a malformed argument refuses the command. -/
def readPlan (render : Json → String) (cfg : DeviceConfig) :
    List Json → Except CommandError (List (Except String SignalSpec))
  | [] => .ok []
  | r :: refs =>
    match resolvePollRef render cfg r with
    | .ok spec => (readPlan render cfg refs).map (.ok spec :: ·)
    | .error (.unresolved label) => (readPlan render cfg refs).map (.error label :: ·)
    | .error (.badArgs message) => .error ⟨.badArgs, message⟩

/-- The signals of a plan, in order: what the device is asked to read. -/
def planSpecs (plan : List (Except String SignalSpec)) : List SignalSpec :=
  plan.filterMap Except.toOption

/-- A live read of the signals; nothing is sent when there are none. -/
def readNow (task : List SignalSpec → ChannelAnswer (Except String (List Reading)))
    (specs : List SignalSpec) : Except ReadFailure (List Reading) :=
  if specs = [] then .ok []
  else
    match task specs with
    | .closed => .error (.refused deviceUnavailable)
    | .answered (.ok readings) => .ok readings
    | .answered (.error e) => .error (.readFailed e)
    | .dropped => .error (.refused deviceUnavailable)

/-- The entry of a reference, and whether a reading was served for it. -/
def pollEntry (cfg : DeviceConfig) (readings : List Reading) (ts : String) :
    Except String SignalSpec → Json × Bool
  | .ok spec =>
    match readingOf readings spec.tagPath with
    | some r => (readItem spec.tagPath (spec.addressJson cfg.connection) r ts, true)
    | none => (badRead spec.tagPath "NO_DATA", false)
  | .error label => (badRead label "UNRESOLVED_REF", false)

/-- `read_poll`: the answer and how many readings it serves. -/
def readPoll (render : Json → String) (cfg : DeviceConfig)
    (task : List SignalSpec → ChannelAnswer (Except String (List Reading))) (ts : String)
    (refs : List Json) : Except ReadFailure (Json × ℕ) :=
  match readPlan render cfg refs with
  | .error e => .error (.refused e)
  | .ok plan =>
    match readNow task (planSpecs plan) with
    | .error e => .error e
    | .ok readings =>
      let entries := plan.map (pollEntry cfg readings ts)
      .ok (readsReply cfg (entries.map Prod.fst), entries.countP Prod.snd)

/-! ## Push devices -/

/-- The entry of a field whose reading no frame has brought. -/
def noFrameItem (id : String) (address : Json) : Json :=
  .obj [("signal", .obj [("id", .str id), ("address", address)]), ("value", .null),
    ("quality", .str "BAD"), ("qualityRaw", .str "NO_FRAME")]

/-- The entry of a reference to an input field. -/
def pushEntry (io : IoConfig) (cfg : DeviceConfig) (readings : List Reading) (ts : String)
    (r : Json) : Json × Bool :=
  match resolvePushReadRef io cfg.connection r with
  | some (id, address) =>
    match readingOf readings id with
    | some reading => (readItem id address reading ts, true)
    | none => (noFrameItem id address, false)
  | none => (badRead (refLabel r) "UNRESOLVED_REF", false)

/-- `read_push`: the last consumed frame, or the present time and no reading. -/
def readPush (cfg : DeviceConfig) (task : ChannelAnswer (Option InputSnapshot)) (now : String)
    (refs : List Json) : Except ReadFailure (Json × ℕ) :=
  match cfg.io with
  | none => .error (.refused ⟨.badArgs, "push device missing io block"⟩)
  | some io =>
    match task with
    | .closed => .error (.refused deviceUnavailable)
    | .dropped => .error (.refused deviceUnavailable)
    | .answered snapshot =>
      let readings := (snapshot.map (·.readings)).getD []
      let ts := (snapshot.map (·.receivedAt)).getD now
      let entries := refs.map (pushEntry io cfg readings ts)
      .ok (readsReply cfg (entries.map Prod.fst), entries.countP Prod.snd)

/-! ## The command -/

/-- What the device task and the clock answer to a read command. -/
structure ReadCommandEnv where
  readNow : List SignalSpec → ChannelAnswer (Except String (List Reading))
  snapshot : ChannelAnswer (Option InputSnapshot)
  now : String

/-- The metric of a finished read command: whether it succeeded and what it served. -/
def readTally : Except ReadFailure (Json × ℕ) → Bool × ℕ
  | .ok (_, served) => (true, served)
  | .error _ => (false, 0)

/-- `sb/read`: the answer, and the metric once the request is well formed. -/
def read (render : Json → String) (registry : List DeviceHandle) (addressed : Option String)
    (body : Json) (env : ReadCommandEnv) : Except ReadFailure Json × Option (Bool × ℕ) :=
  match resolve registry addressed with
  | .error e => (.error (.refused e), none)
  | .ok h =>
    match (body.get "signals").bind Json.asArray with
    | none => (.error (.refused ⟨.badArgs, "expected a `signals` array"⟩), none)
    | some refs =>
      let result :=
        match h.cfg.mode with
        | .push => readPush h.cfg env.snapshot env.now refs
        | .poll => readPoll render h.cfg env.readNow env.now refs
      (result.map Prod.fst, some (readTally result))

end EnipAdapter.Model
