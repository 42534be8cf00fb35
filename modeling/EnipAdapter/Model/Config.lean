import EnipAdapter.Foundation.Refuse
import EnipAdapter.Model.Assembly
import EnipAdapter.Model.ConnectionManager
import EnipAdapter.Model.IoConnection
import EnipAdapter.Model.Json

/-!
# The device configuration

One entry of `component.instances[]` (`config.rs`): its mode, its poll groups or its class-1
`io` block, its write allow-list, and the startup validation that every configuration a
device runs with has passed. Sizes and offsets are natural numbers; instance numbers and
bit selectors keep their machine widths.

The cadence defaults and the publish mode are left out: no function below reads them. The
`connection.security` block appears as far as validation of a push device depends on it.
-/

set_option autoImplicit false

namespace EnipAdapter.Model

open EnipAdapter.Foundation

/-! ## Signals -/

/-- The elementary types a signal can have. -/
inductive EipType where
  | bool | sint | usint | int | uint | dint | udint | lint | ulint | real | lreal
deriving DecidableEq, Repr

namespace EipType

/-- The token of a type, in the configuration and in addresses. -/
def wire : EipType → String
  | .bool => "bool"
  | .sint => "sint"
  | .usint => "usint"
  | .int => "int"
  | .uint => "uint"
  | .dint => "dint"
  | .udint => "udint"
  | .lint => "lint"
  | .ulint => "ulint"
  | .real => "real"
  | .lreal => "lreal"

def cipType : EipType → CipType
  | .bool => .bool
  | .sint => .sint
  | .usint => .usint
  | .int => .int
  | .uint => .uint
  | .dint => .dint
  | .udint => .udint
  | .lint => .lint
  | .ulint => .ulint
  | .real => .real
  | .lreal => .lreal

def all : List EipType :=
  [.bool, .sint, .usint, .int, .uint, .dint, .udint, .lint, .ulint, .real, .lreal]

/-- `parse_eip_type`: the type a token names, by the configuration's own spelling. -/
def parse (token : String) : Option EipType := all.find? (·.wire == token)

end EipType

inductive DeadbandKind where
  | none
  | absolute
  | percent
deriving DecidableEq, Repr

/-- The change gate of a signal. -/
structure DeadbandSpec where
  kind : DeadbandKind := .none
  value : F64 := F64.zero false
deriving DecidableEq, Repr

structure SignalSpec where
  name : String
  tagPath : String
  eipType : EipType
  arrayCount : Option UInt32
  scale : Option F64
  offset : Option F64
  deadband : DeadbandSpec
deriving DecidableEq, Repr

/-- A set of signals read on one cadence. -/
structure PollGroup where
  id : Option String
  signals : List SignalSpec
deriving DecidableEq, Repr

/-- The largest element count of a tag read. -/
def maxArrayCount : UInt32 := 65535

structure Writes where
  allow : List String
deriving DecidableEq, Repr

/-- Whether a stable signal id may be written. -/
def Writes.permits (w : Writes) (signalId : String) : Bool := w.allow.any (· == signalId)

/-- An id is permitted exactly when it is listed. -/
theorem Writes.permits_iff {w : Writes} {id : String} : w.permits id = true ↔ id ∈ w.allow := by
  simp [permits]

/-! ## The class-1 block -/

structure IoFieldSpec where
  name : String
  offset : ℕ
  eipType : EipType
  bit : Option UInt8
  arrayCount : Option UInt32
  scale : Option F64
  valueOffset : Option F64
  deadband : Option DeadbandSpec
deriving DecidableEq, Repr

namespace IoFieldSpec

def signalId (f : IoFieldSpec) (assembly : UInt16) : String :=
  match f.bit with
  | some bit =>
    "a" ++ toString assembly.toNat ++ "/" ++ toString f.offset ++ "/" ++ f.eipType.wire ++ "." ++
      toString bit.toNat
  | none => "a" ++ toString assembly.toNat ++ "/" ++ toString f.offset ++ "/" ++ f.eipType.wire

def isNumeric (f : IoFieldSpec) : Bool := f.eipType != .bool

/-- The field as the protocol crate lays it out, keyed by its position. -/
def toEnipField (f : IoFieldSpec) (key : ℕ) : FieldSpec where
  key := key
  offset := f.offset
  ty := f.eipType.cipType
  bit := f.bit
  count := (f.arrayCount.map UInt32.toNat).getD 1

end IoFieldSpec

/-- The framing names of the configuration. -/
inductive Config.RealTimeFormat where
  | modeless
  | header32
  | heartbeat
deriving DecidableEq, Repr

/-- The framing of the protocol crate. -/
def Config.RealTimeFormat.toEnip : Config.RealTimeFormat → Model.RealTimeFormat
  | .modeless => .modeless
  | .header32 => .header32Bit
  | .heartbeat => .heartbeat

inductive IoConnType where
  | p2p
  | multicast
deriving DecidableEq, Repr

/-- The connection type of the protocol crate. -/
def IoConnType.toEnip : IoConnType → ConnType
  | .p2p => .p2p
  | .multicast => .multicast

inductive IoPriority where
  | low
  | high
  | scheduled
  | urgent
deriving DecidableEq, Repr

/-- The priority of the protocol crate. -/
def IoPriority.toEnip : IoPriority → Priority
  | .low => .low
  | .high => .high
  | .scheduled => .scheduled
  | .urgent => .urgent

/-- The assembly instances of the connection path. -/
structure IoAssemblies where
  config : Option UInt16
  output : UInt16
  input : UInt16
deriving DecidableEq, Repr

/-- What the device produces toward the adapter. -/
structure IoInput where
  sizeBytes : ℕ
  realTimeFormat : Config.RealTimeFormat := .modeless
  signals : List IoFieldSpec
deriving DecidableEq, Repr

/-- What the adapter produces toward the device. -/
structure IoOutput where
  sizeBytes : ℕ := 0
  realTimeFormat : Config.RealTimeFormat := .header32
  run : Bool := true
  signals : List IoFieldSpec := []
deriving DecidableEq, Repr

/-- The class-1 connection and its two assemblies. -/
structure IoConfig where
  rpiMs : ℕ
  o2tRpiMs : Option ℕ
  connectionType : IoConnType := .p2p
  priority : IoPriority := .scheduled
  timeoutMultiplier : ℕ := 16
  assemblies : IoAssemblies
  input : IoInput
  output : Option IoOutput
deriving DecidableEq, Repr

/-! ## Validation of the class-1 block -/

/-- The first field of a list that answers to a layout error's key, if the error has one. -/
def offendingField (fields : List IoFieldSpec) : AssemblyError → Option String
  | .fieldOutOfBounds key | .zeroCount key | .invalidBitField key | .nonElementaryType key =>
    fields[key]?.map (·.name)
  | _ => none

/-- A field list as a validated layout, naming the offending field in an error. -/
def buildLayout (fields : List IoFieldSpec) (sizeBytes : ℕ) (context : String) :
    Except String AssemblyLayout :=
  let specs := fields.zipIdx.map fun p => p.1.toEnipField p.2
  (AssemblyLayout.new specs sizeBytes).mapError fun e =>
    match offendingField fields e with
    | some name => context ++ " field `" ++ name ++ "`: " ++ e.display
    | none => context ++ ": " ++ e.display

/-- The direction a field belongs to. -/
inductive IoSide where
  | input
  | output
deriving DecidableEq, Repr

/-- The checks of one field that look at the field alone. -/
def checkField (deviceId : String) (side : IoSide) (field : IoFieldSpec) : Except String Unit := do
  refuse (field.isNumeric = false ∧ (field.scale.isSome ∨ field.valueOffset.isSome))
    s!"device `{deviceId}`: field `{field.name}` is bool - scale/valueOffset do not apply"
  match side with
  | .input =>
    refuse (field.isNumeric = false ∧ ∃ db ∈ field.deadband, db.kind ≠ .none)
      s!"device `{deviceId}`: field `{field.name}` is bool - deadband does not apply"
  | .output =>
    refuse (field.deadband.isSome = true)
      s!"device `{deviceId}`: output field `{field.name}` may not carry a deadband (input side only)"

/-- The names and ids already taken. -/
structure Taken where
  names : List String := []
  ids : List String := []
deriving DecidableEq, Repr

/-- The field loop of one direction: unique names, unique ids, then the field's own checks. -/
def checkFields (deviceId : String) (inst : UInt16) (side : IoSide) :
    List IoFieldSpec → Taken → Except String Taken
  | [], taken => .ok taken
  | field :: rest, taken => do
    refuse (field.name ∈ taken.names)
      s!"device `{deviceId}`: duplicate signal name `{field.name}`"
    let id := field.signalId inst
    refuse (id ∈ taken.ids) s!"device `{deviceId}`: duplicate signal id `{id}`"
    checkField deviceId side field
    checkFields deviceId inst side rest ⟨field.name :: taken.names, id :: taken.ids⟩

namespace IoConfig

/-- The watchdog multiplier, one of the eight the protocol has. -/
def timeoutMultiplierEnip (io : IoConfig) : Except String TimeoutMultiplier :=
  match io.timeoutMultiplier with
  | 4 => .ok .x4
  | 8 => .ok .x8
  | 16 => .ok .x16
  | 32 => .ok .x32
  | 64 => .ok .x64
  | 128 => .ok .x128
  | 256 => .ok .x256
  | 512 => .ok .x512
  | other =>
    .error s!"io.timeoutMultiplier `{other}` is not one of 4, 8, 16, 32, 64, 128, 256, 512"

/-- The O→T interval: its own, or the T→O one. -/
def effectiveO2tRpiMs (io : IoConfig) : ℕ := io.o2tRpiMs.getD io.rpiMs

def outputSignals (io : IoConfig) : List IoFieldSpec := (io.output.map (·.signals)).getD []

def inputLayout (io : IoConfig) : Except String AssemblyLayout :=
  buildLayout io.input.signals io.input.sizeBytes "io.input"

/-- The output layout; none without output fields. -/
def outputLayout (io : IoConfig) : Except String (Option AssemblyLayout) :=
  match io.output with
  | some out =>
    if out.signals.isEmpty then .ok none
    else (buildLayout out.signals out.sizeBytes "io.output").map some
  | none => .ok none

/-- The startup validation of a push device's block. -/
def validate (io : IoConfig) (deviceId : String) : Except String Unit := do
  let _ ← io.timeoutMultiplierEnip
  refuse (io.rpiMs = 0) s!"device `{deviceId}`: io.rpiMs must be ≥ 1"
  refuse (io.effectiveO2tRpiMs = 0) s!"device `{deviceId}`: io.o2tRpiMs must be ≥ 1"
  refuse (io.input.realTimeFormat = .heartbeat)
    s!"device `{deviceId}`: io.input.realTimeFormat `heartbeat` is O→T only (use modeless or header32)"
  refuse (io.input.sizeBytes = 0) s!"device `{deviceId}`: io.input.sizeBytes must be ≥ 1"
  refuse (io.input.signals = []) s!"device `{deviceId}`: io.input.signals is empty (min 1)"
  refuse (∃ out ∈ io.output, out.sizeBytes = 0 ∧ out.signals ≠ [])
    s!"device `{deviceId}`: io.output.sizeBytes is 0 (heartbeat) but output.signals is non-empty"
  let taken ← checkFields deviceId io.assemblies.input .input io.input.signals {}
  let _ ← checkFields deviceId io.assemblies.output .output io.outputSignals taken
  let _ ← io.inputLayout.mapError fun e => s!"device `{deviceId}`: {e}"
  let _ ← io.outputLayout.mapError fun e => s!"device `{deviceId}`: {e}"
  pure ()

end IoConfig

/-! ## The device -/

/-- The update model of an instance. -/
inductive DeviceMode where
  | poll
  | push
deriving DecidableEq, Repr

/-- The `connection.security` block as validation sees it: absent, not deserializable,
plaintext, or TLS together with the verdict of the identity, trust and enrolment checks. -/
inductive SecurityBlock where
  | absent
  | malformed (error : String)
  | plaintext
  | tls (verdict : Except String Unit)
deriving DecidableEq, Repr

def SecurityBlock.validate (deviceId : String) (isPush : Bool) :
    SecurityBlock → Except String Unit
  | .absent | .plaintext => .ok ()
  | .malformed error => .error ("connection.security: " ++ error)
  | .tls verdict => do
    refuse (isPush = true)
      s!"device `{deviceId}`: security.mode `tls` is not supported on a push (class-1 I/O) instance — implicit I/O requires DTLS, which is not available; see limitations"
    verdict

structure ConnectionConfig where
  endpoint : String
  slot : Option UInt8
  connected : Bool
  security : SecurityBlock := .absent
deriving DecidableEq, Repr

structure DeviceConfig where
  id : String
  mode : DeviceMode
  connection : ConnectionConfig
  pollGroups : List PollGroup
  io : Option IoConfig
  writes : Writes
deriving DecidableEq, Repr

/-- The signal loop of one poll group. -/
def checkSignals (deviceId : String) : List SignalSpec → Taken → Except String Taken
  | [], taken => .ok taken
  | sig :: rest, taken => do
    refuse (sig.name ∈ taken.names) s!"device `{deviceId}`: duplicate signal name `{sig.name}`"
    refuse (sig.tagPath ∈ taken.ids) s!"device `{deviceId}`: duplicate tagPath `{sig.tagPath}`"
    refuse (∃ n ∈ sig.arrayCount, ¬(1 ≤ n ∧ n ≤ maxArrayCount))
      s!"device `{deviceId}`: signal `{sig.name}` has arrayCount {(sig.arrayCount.getD 0).toNat} - it must be in 1..=65535 (the CIP Read Tag element count is a u16)"
    refuse (sig.eipType = .bool ∧ (sig.scale.isSome ∨ sig.offset.isSome))
      s!"device `{deviceId}`: signal `{sig.name}` is bool - scale/offset do not apply"
    refuse (sig.eipType = .bool ∧ sig.deadband.kind ≠ .none)
      s!"device `{deviceId}`: signal `{sig.name}` is bool - deadband does not apply"
    checkSignals deviceId rest ⟨sig.name :: taken.names, sig.tagPath :: taken.ids⟩

def checkGroups (deviceId : String) : List (PollGroup × ℕ) → Taken → Except String Taken
  | [], taken => .ok taken
  | (group, idx) :: rest, taken => do
    refuse (group.signals = [])
      s!"device `{deviceId}` poll group #{idx + 1} has no signals (min 1)"
    let taken ← checkSignals deviceId group.signals taken
    checkGroups deviceId rest taken

namespace DeviceConfig

/-- Every polled signal, in group order. -/
def signals (cfg : DeviceConfig) : List SignalSpec := cfg.pollGroups.flatMap (·.signals)

/-- The poll-mode validations, and the default ids of the groups that have none. -/
def validatePoll (cfg : DeviceConfig) : Except String DeviceConfig := do
  refuse (cfg.pollGroups = []) s!"device `{cfg.id}` has no pollGroups (min 1)"
  let _ ← checkGroups cfg.id cfg.pollGroups.zipIdx {}
  let groups := cfg.pollGroups.zipIdx.map fun p =>
    match p.1.id with
    | some _ => p.1
    | none => { p.1 with id := some s!"group-{p.2 + 1}" }
  pure { cfg with pollGroups := groups }

/-- The startup validation of a device. -/
def validate (cfg : DeviceConfig) : Except String DeviceConfig := do
  cfg.connection.security.validate cfg.id (cfg.mode == .push)
  match cfg.mode with
  | .poll => do
    refuse (cfg.io.isSome = true)
      s!"device `{cfg.id}` is mode `poll` but declares an `io` block (io is push-only)"
    cfg.validatePoll
  | .push => do
    refuse (cfg.pollGroups ≠ [])
      s!"device `{cfg.id}` is mode `push` but declares `pollGroups` (pollGroups is poll-only)"
    match cfg.io with
    | none => .error s!"device `{cfg.id}` is mode `push` but has no `io` block (required)"
    | some io => do
      io.validate cfg.id
      pure cfg

end DeviceConfig

end EnipAdapter.Model
