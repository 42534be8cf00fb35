import EnipAdapter.Foundation.EarlyExit
import EnipAdapter.Model.Config

/-!
# The write command

`sb/write` (`commands.rs`): which instance answers, how a body becomes a list of entries, how
an entry's signal reference resolves on a poll and on a push device, and the loop that
checks, sends and audits the entries one by one.

What the command does to the outside is recorded in order: a message handed to the device
task, a `write-audit` event, the command's metric. The device task is a function from the
entry to what becomes of its message. Entries are numbered by their place in the body; the
number is not part of any message.
-/

set_option autoImplicit false

namespace EnipAdapter.Model

open EnipAdapter.Foundation

/-! ## Errors and routing -/

/-- The error codes of the command surface this command uses. -/
inductive CommandCode where
  | noSuchInstance
  | deviceUnavailable
  | badArgs
  | writeNotAllowed
deriving DecidableEq, Repr

def CommandCode.token : CommandCode → String
  | .noSuchInstance => "NO_SUCH_INSTANCE"
  | .deviceUnavailable => "DEVICE_UNAVAILABLE"
  | .badArgs => "BAD_ARGS"
  | .writeNotAllowed => "WRITE_NOT_ALLOWED"

structure CommandError where
  code : CommandCode
  message : String
deriving DecidableEq, Repr

/-- The device task did not answer. -/
def deviceUnavailable : CommandError := ⟨.deviceUnavailable, "device task is unavailable"⟩

/-- The routing view of one running instance. -/
structure DeviceHandle where
  cfg : DeviceConfig
deriving DecidableEq, Repr

/-- Route a request: the addressed instance, or the only one there is. -/
def resolve (registry : List DeviceHandle) (addressed : Option String) :
    Except CommandError DeviceHandle :=
  match addressed with
  | some id =>
    match registry.find? (·.cfg.id == id) with
    | some h => .ok h
    | none => .error ⟨.noSuchInstance, s!"no configured device `{id}`"⟩
  | none =>
    match registry with
    | [h] => .ok h
    | [] =>
      .error ⟨.deviceUnavailable, "no device is running; a configuration change is being applied"⟩
    | _ =>
      .error ⟨.badArgs,
        "the request must address an instance when multiple devices are configured"⟩

/-- The entries of a body: its `writes` array, or the body itself when it carries a value. -/
def writeEntries (body : Json) : Except CommandError (List Json) :=
  match (body.get "writes").bind Json.asArray with
  | some entries => .ok entries
  | none =>
    if (body.get "value").isSome then .ok [body]
    else .error ⟨.badArgs, "expected a `writes` array or a single write object with `value`"⟩

/-! ## Signal references -/

/-- A label for a reference that resolves to nothing. -/
def refLabel (r : Json) : String :=
  match (r.get "name").bind Json.asStr with
  | some name => name
  | none =>
    match (r.get "tagPath").bind Json.asStr with
    | some tag => tag
    | none =>
      match (r.get "assembly").bind Json.asU64, (r.get "offset").bind Json.asU64,
        (r.get "type").bind Json.asStr with
      | some a, some o, some t =>
        "a" ++ toString a.toNat ++ "/" ++ toString o.toNat ++ "/" ++ t
      | _, _, _ => "<invalid ref>"

/-- Why a poll reference did not resolve. -/
inductive PollRefError where
  | unresolved (label : String)
  | badArgs (message : String)
deriving DecidableEq, Repr

/-- The element count an `arrayCount` member asks for, if it is in range. -/
def arrayCountOf (v : Json) : Option UInt32 :=
  match v.asU64 with
  | some n =>
    if 1 ≤ n.toNat ∧ n.toNat ≤ maxArrayCount.toNat then some (UInt32.ofNat n.toNat) else none
  | none => none

/-- Resolve a poll reference: a configured name, or an explicit tag path and type. `render`
is the JSON printer, whose text appears in one message. -/
def resolvePollRef (render : Json → String) (cfg : DeviceConfig) (r : Json) :
    Except PollRefError SignalSpec :=
  match (r.get "name").bind Json.asStr with
  | some name =>
    match cfg.signals.find? (·.name == name) with
    | some spec => .ok spec
    | none => .error (.unresolved name)
  | none =>
    match (r.get "tagPath").bind Json.asStr with
    | some tag =>
      let ty := ((r.get "type").bind Json.asStr).bind EipType.parse
      let synthesize (arrayCount : Option UInt32) : Except PollRefError SignalSpec :=
        match ty with
        | some eipType =>
          .ok { name := tag, tagPath := tag, eipType := eipType, arrayCount := arrayCount,
                scale := none, offset := none, deadband := {} }
        | none => .error (.unresolved tag)
      match (r.get "arrayCount").filter (fun v => !v.isNull) with
      | none => synthesize none
      | some v =>
        match arrayCountOf v with
        | some n => synthesize (some n)
        | none =>
          .error (.badArgs
            ("`arrayCount` must be an integer in 1..=65535 (got " ++ render v ++ ")"))
    | none => .error (.unresolved (refLabel r))

/-- The `signal.address` object of a push field. -/
def IoFieldSpec.addressJson (f : IoFieldSpec) (assembly : UInt16) (conn : ConnectionConfig) :
    Json :=
  .obj ([("assembly", Json.ofNat assembly.toNat), ("offset", Json.ofNat f.offset),
      ("type", Json.str f.eipType.wire)] ++
    (f.bit.map fun b => ("bit", Json.ofNat b.toNat)).toList ++
    (f.arrayCount.map fun n => ("arrayCount", Json.ofNat n.toNat)).toList ++
    (conn.slot.map fun s => ("slot", Json.ofNat s.toNat)).toList)

/-- Resolve a push read reference against the input fields. The assembly and the bit are
narrowed to their machine widths before they are compared. -/
def resolvePushReadRef (io : IoConfig) (conn : ConnectionConfig) (r : Json) :
    Option (String × Json) :=
  let assembly := io.assemblies.input
  match (r.get "name").bind Json.asStr with
  | some name => do
    let f ← io.input.signals.find? (·.name == name)
    pure (f.signalId assembly, f.addressJson assembly conn)
  | none => do
    let refAsm := (← (r.get "assembly").bind Json.asU64).toUInt16
    if refAsm ≠ assembly then none
    else do
      let off := (← (r.get "offset").bind Json.asU64).toNat
      let ty ← ((r.get "type").bind Json.asStr).bind EipType.parse
      let bit := ((r.get "bit").bind Json.asU64).map UInt64.toUInt8
      let f ← io.input.signals.find? fun f => f.offset == off && f.eipType == ty && f.bit == bit
      pure (f.signalId assembly, f.addressJson assembly conn)

/-- Resolve a push write reference to an output field, or a label and the reason it is not
one. -/
def resolvePushWriteRef (io : IoConfig) (r : Json) :
    Except (String × String) (String × IoFieldSpec) :=
  let outAsm := io.assemblies.output
  let inAsm := io.assemblies.input
  match (r.get "name").bind Json.asStr with
  | some name =>
    match io.outputSignals.find? (·.name == name) with
    | some f => .ok (f.signalId outAsm, f)
    | none =>
      if io.input.signals.any (·.name == name) then .error (name, "input field")
      else .error (name, "unresolved ref")
  | none =>
    let asm := ((r.get "assembly").bind Json.asU64).map UInt64.toUInt16
    let off := ((r.get "offset").bind Json.asU64).map UInt64.toNat
    let ty := ((r.get "type").bind Json.asStr).bind EipType.parse
    let bit := ((r.get "bit").bind Json.asU64).map UInt64.toUInt8
    match asm, off, ty with
    | some asm, some off, some ty =>
      if asm = inAsm then
        .error ("a" ++ toString inAsm.toNat ++ "/" ++ toString off ++ "/" ++ ty.wire,
          "input field")
      else
        match io.outputSignals.find? fun f =>
            f.offset == off && f.eipType == ty && f.bit == bit with
        | some f => .ok (f.signalId outAsm, f)
        | none =>
          .error ("a" ++ toString asm.toNat ++ "/" ++ toString off ++ "/" ++ ty.wire,
            "unresolved ref")
    | _, _, _ => .error (refLabel r, "unresolved ref")

/-! ## Effects -/

/-- A message to the device task. -/
inductive DeviceControl where
  | write (signal : SignalSpec) (value : Json)
  | writeOutput (field : IoFieldSpec) (value : Json)
deriving Repr

/-- What becomes of a message: the channel is closed and it is not handed over, the device
task answers, or the task takes it and drops the acknowledgement. -/
inductive DeviceAnswer where
  | closed
  | acked (result : Except String Unit)
  | dropped
deriving DecidableEq, Repr

inductive Severity where
  | info
  | warning
deriving DecidableEq, Repr

/-- The content of a `write-audit` event. -/
structure AuditRecord where
  severity : Severity
  instance_ : String
  signalId : String
  ok : Bool
  value : Option Json
  error : Option String
deriving Repr

/-- `audit`: the event for one entry, a warning unless the write succeeded. -/
def audit (cfg : DeviceConfig) (signalId : String) (ok : Bool) (value : Option Json)
    (error : Option String) : AuditRecord where
  severity := if ok then .info else .warning
  instance_ := cfg.id
  signalId := signalId
  ok := ok
  value := value
  error := error

/-- The write counters of a command metric. -/
structure CommandTally where
  writeSignals : ℕ
  writeFailures : ℕ
deriving DecidableEq, Repr

/-- What a command does to the outside, in order. -/
inductive WriteEffect where
  | sent (entry : ℕ) (message : DeviceControl)
  | audited (entry : ℕ) (record : AuditRecord)
  | recorded (ok : Bool) (tally : CommandTally)
deriving Repr

/-! ## The loop -/

/-- How an entry's reference resolves: to a target with the message its value makes, to
nothing, or not at all because an argument is malformed. -/
inductive WriteRef where
  | target (id : String) (request : Json → DeviceControl)
  | unresolved (label error : String)
  | malformed (message : String)

/-- What differs between the two write loops: the resolver, and what a success item adds. -/
structure WriteLoop where
  resolve : Json → WriteRef
  applied : List (String × Json)

/-- The accumulators of a write loop. -/
structure WriteBatch where
  results : List Json := []
  written : ℕ := 0
  refused : ℕ := 0
  failures : ℕ := 0
  effects : List WriteEffect := []

/-- The result item of an entry that was not written. -/
def failedItem (id : String) (value : Option Json) (error : String) : Json :=
  .obj ([("signal", .str id)] ++ (value.map fun v => ("value", v)).toList ++
    [("ok", .bool false), ("error", .str error)])

/-- The result item of an entry that was written. -/
def writtenItem (id : String) (value : Json) (applied : List (String × Json)) : Json :=
  .obj ([("signal", .str id), ("value", value), ("ok", .bool true)] ++ applied)

/-- An entry that failed: counted, audited and answered. -/
def WriteBatch.fail (acc : WriteBatch) (cfg : DeviceConfig) (i : ℕ) (id : String)
    (auditValue itemValue : Option Json) (error : String) : WriteBatch :=
  { acc with
    failures := acc.failures + 1
    effects := acc.effects ++ [.audited i (audit cfg id false auditValue (some error))]
    results := acc.results ++ [failedItem id itemValue error] }

/-- A message handed to the device task. -/
def WriteBatch.send (acc : WriteBatch) (i : ℕ) (message : DeviceControl) : WriteBatch :=
  { acc with effects := acc.effects ++ [.sent i message] }

/-- An entry that was written: counted, audited and answered. -/
def WriteBatch.succeed (acc : WriteBatch) (cfg : DeviceConfig) (i : ℕ) (id : String)
    (value : Json) (applied : List (String × Json)) : WriteBatch :=
  { acc with
    written := acc.written + 1
    effects := acc.effects ++ [.audited i (audit cfg id true (some value) none)]
    results := acc.results ++ [writtenItem id value applied] }

/-- One iteration of a write loop. -/
def writeEntry (cfg : DeviceConfig) (loop : WriteLoop) (answer : ℕ → DeviceAnswer)
    (acc : WriteBatch) (p : Json × ℕ) : WriteBatch × Option CommandError :=
  let (entry, i) := p
  let value := entry.get "value"
  match loop.resolve entry with
  | .target id request =>
    if cfg.writes.permits id = false then
      -- the allow-list stands before any device I/O
      ({ acc.fail cfg i id value none "not in writes.allow" with refused := acc.refused + 1 },
        none)
    else
      match value with
      | none => (acc.fail cfg i id none none "missing value", none)
      | some value =>
        match answer i with
        | .closed => (acc, some deviceUnavailable)
        | .acked (.ok ()) =>
          ((acc.send i (request value)).succeed cfg i id value loop.applied, none)
        | .acked (.error e) =>
          ((acc.send i (request value)).fail cfg i id (some value) (some value) e, none)
        | .dropped => (acc.send i (request value), some deviceUnavailable)
  | .unresolved label error => (acc.fail cfg i label value none error, none)
  | .malformed message => (acc, some ⟨.badArgs, message⟩)

/-- A write loop over all entries, and the answer made of its accumulators. -/
def writeAll (cfg : DeviceConfig) (loop : WriteLoop) (answer : ℕ → DeviceAnswer)
    (entries : List Json) : Except CommandError (Json × CommandTally) × List WriteEffect :=
  let (acc, stop) := runUntil (writeEntry cfg loop answer) {} entries.zipIdx
  match stop with
  | some error => (.error error, acc.effects)
  | none =>
    if 0 < entries.length ∧ acc.refused = entries.length then
      (.error ⟨.writeNotAllowed, "no entry is in this instance's writes.allow list"⟩, acc.effects)
    else
      (.ok (.obj [("id", .str cfg.id), ("written", Json.ofNat acc.written),
          ("results", .arr acc.results)],
        ⟨entries.length, acc.failures⟩), acc.effects)

/-- The poll loop: tag writes, keyed by tag path. -/
def pollLoop (render : Json → String) (cfg : DeviceConfig) : WriteLoop where
  resolve entry :=
    match resolvePollRef render cfg entry with
    | .ok spec => .target spec.tagPath (.write spec)
    | .error (.unresolved label) => .unresolved label "unresolved ref"
    | .error (.badArgs message) => .malformed message
  applied := []

/-- The push loop: output-field writes, keyed by field id. -/
def pushLoop (io : IoConfig) : WriteLoop where
  resolve entry :=
    match resolvePushWriteRef io entry with
    | .ok (id, field) => .target id (.writeOutput field)
    | .error (label, error) => .unresolved label error
  applied := [("applied", .str "next-frame")]

def writePoll (render : Json → String) (cfg : DeviceConfig) (answer : ℕ → DeviceAnswer)
    (entries : List Json) : Except CommandError (Json × CommandTally) × List WriteEffect :=
  writeAll cfg (pollLoop render cfg) answer entries

def writePush (cfg : DeviceConfig) (answer : ℕ → DeviceAnswer) (entries : List Json) :
    Except CommandError (Json × CommandTally) × List WriteEffect :=
  match cfg.io with
  | none => (.error ⟨.badArgs, "push device missing io block"⟩, [])
  | some io => writeAll cfg (pushLoop io) answer entries

/-- The metric of a finished write command. -/
def writeTally (entries : List Json) : Except CommandError (Json × CommandTally) → WriteEffect
  | .ok (_, tally) => .recorded true tally
  | .error _ => .recorded false ⟨entries.length, entries.length⟩

def write (render : Json → String) (registry : List DeviceHandle) (addressed : Option String)
    (body : Json) (answer : ℕ → DeviceAnswer) : Except CommandError Json × List WriteEffect :=
  match resolve registry addressed with
  | .error e => (.error e, [])
  | .ok h =>
    match writeEntries body with
    | .error e => (.error e, [])
    | .ok entries =>
      let (result, effects) :=
        match h.cfg.mode with
        | .push => writePush h.cfg answer entries
        | .poll => writePoll render h.cfg answer entries
      (result.map Prod.fst, effects ++ [writeTally entries result])

end EnipAdapter.Model
