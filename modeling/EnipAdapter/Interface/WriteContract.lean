import EnipAdapter.Interface.AcceptedConfig
import EnipAdapter.Model.Commands

/-!
# What a write command promises

The three rules an operator reads in the documentation of `sb/write`: a refused batch writes
nothing, only allow-listed signals are written, and every attempt is audited. Each is stated
of the reply and the recorded effects of one command.
-/

set_option autoImplicit false

namespace EnipAdapter.Interface

open EnipAdapter.Foundation EnipAdapter.Model

/-! ## Reading the effects -/

/-- The messages handed to the device task, with the entry each belongs to. -/
def sentMessages (effects : List WriteEffect) : List (ℕ × DeviceControl) :=
  effects.filterMap fun
    | .sent i message => some (i, message)
    | _ => none

/-- The audit events of one entry. -/
def auditsOf (i : ℕ) (effects : List WriteEffect) : List AuditRecord :=
  effects.filterMap fun
    | .audited j record => if j = i then some record else none
    | _ => none

/-- Whether a result item reports success. -/
def okItem (item : Json) : Bool := (item.get "ok").bind Json.asBool == some true

/-! ## Reading the entries -/

/-- The loop a device's mode selects; a push device without its block has none. -/
def loopOf (render : Json → String) (cfg : DeviceConfig) : Option WriteLoop :=
  match cfg.mode with
  | .poll => some (pollLoop render cfg)
  | .push => cfg.io.map pushLoop

/-- The command gets to its loop: an instance answers, the body has entries, and the mode
has a loop for them. -/
structure Dispatched (render : Json → String) (registry : List DeviceHandle)
    (addressed : Option String) (body : Json) (cfg : DeviceConfig) (entries : List Json)
    (loop : WriteLoop) : Prop where
  routed : resolve registry addressed = .ok ⟨cfg⟩
  parsed : writeEntries body = .ok entries
  selected : loopOf render cfg = some loop

/-- An entry that will be sent: it resolves to a permitted target and carries a value. -/
def sendable (cfg : DeviceConfig) (loop : WriteLoop) (entry : Json) : Bool :=
  match loop.resolve entry with
  | .target id _ => cfg.writes.permits id && (entry.get "value").isSome
  | _ => false

/-- An entry that is malformed as a whole. -/
def malformed (loop : WriteLoop) (entry : Json) : Bool :=
  match loop.resolve entry with
  | .malformed _ => true
  | _ => false

/-- An entry that ends the command: it is malformed, or it is sent and not acknowledged. -/
def stops (cfg : DeviceConfig) (loop : WriteLoop) (answer : ℕ → DeviceAnswer)
    (entry : Json) (i : ℕ) : Prop :=
  malformed loop entry = true ∨
    sendable cfg loop entry = true ∧ ∀ result, answer i ≠ .acked result

/-- The command gets as far as entry `i`. -/
def Reached (cfg : DeviceConfig) (loop : WriteLoop) (answer : ℕ → DeviceAnswer)
    (entries : List Json) (i : ℕ) : Prop :=
  ∀ j entry, j < i → entries[j]? = some entry → ¬stops cfg loop answer entry j

/-- The id or label an entry is reported under. -/
def entryLabel (loop : WriteLoop) (entry : Json) : String :=
  match loop.resolve entry with
  | .target id _ => id
  | .unresolved label _ => label
  | .malformed message => message

/-! ## The rules -/

/-- An error with which a batch is refused as a whole. -/
def refusal (reply : Except CommandError Json) : Bool :=
  match reply with
  | .error e => e.code == .badArgs || e.code == .writeNotAllowed
  | .ok _ => false

def RefusedWritesNothing (r : Except CommandError Json × List WriteEffect) : Prop :=
  refusal r.1 = true → sentMessages r.2 = []

/-- A message is what its entry asks for, and the signal it writes is allow-listed. -/
def Authorised (render : Json → String) (cfg : DeviceConfig) (entry : Json) :
    DeviceControl → Prop
  | .write signal value =>
    cfg.mode = .poll ∧ resolvePollRef render cfg entry = .ok signal ∧
      signal.tagPath ∈ cfg.writes.allow ∧ entry.get "value" = some value
  | .writeOutput field value =>
    cfg.mode = .push ∧ ∃ io : IoConfig, cfg.io = some io ∧
      resolvePushWriteRef io entry = .ok (field.signalId io.assemblies.output, field) ∧
      field ∈ io.outputSignals ∧
      (∀ cfg' : DeviceConfig, cfg.validate = .ok cfg' → field ∉ io.input.signals) ∧
      field.signalId io.assemblies.output ∈ cfg.writes.allow ∧ entry.get "value" = some value

/-- Only allow-listed signals are written, once an entry and in order, and a success reports
every entry. -/
structure WriteDiscipline (render : Json → String) (registry : List DeviceHandle)
    (addressed : Option String) (body : Json)
    (r : Except CommandError Json × List WriteEffect) : Prop where
  /-- Every message belongs to an entry of the body and is authorised. -/
  authorised : ∀ (i : ℕ) (message : DeviceControl), (i, message) ∈ sentMessages r.2 →
    ∃ (cfg : DeviceConfig) (entries : List Json) (loop : WriteLoop) (entry : Json),
      Dispatched render registry addressed body cfg entries loop ∧
      entries[i]? = some entry ∧ Authorised render cfg entry message
  /-- At most one message an entry, in entry order. -/
  ordered : ((sentMessages r.2).map Prod.fst).Pairwise (· < ·)
  /-- A success has one item an entry, in order, and counts the successful ones. -/
  results : ∀ reply : Json, r.1 = .ok reply →
    ∃ (cfg : DeviceConfig) (entries : List Json) (loop : WriteLoop) (items : List Json),
      Dispatched render registry addressed body cfg entries loop ∧
      reply.get "results" = some (.arr items) ∧
      List.Forall₂ (fun entry item => item.get "signal" = some (.str (entryLabel loop entry)))
        entries items ∧
      reply.get "written" = some (Json.ofNat (items.countP okItem))

/-- A reply that accounts for every entry: a results list, or the all-refused error. -/
def accountsForAll (reply : Except CommandError Json) : Bool :=
  match reply with
  | .ok _ => true
  | .error e => e.code == .writeNotAllowed

/-- Every attempt is audited: an entry whose message was handed over has exactly one audit
event, naming its signal id; every other entry of a reply that accounts for all of them has
exactly one, with `ok` false. -/
structure EveryAttemptAudited (render : Json → String) (registry : List DeviceHandle)
    (addressed : Option String) (body : Json)
    (r : Except CommandError Json × List WriteEffect) : Prop where
  handed : ∀ (i : ℕ) (message : DeviceControl), (i, message) ∈ sentMessages r.2 →
    ∃ (cfg : DeviceConfig) (entries : List Json) (loop : WriteLoop) (entry : Json)
      (record : AuditRecord), Dispatched render registry addressed body cfg entries loop ∧
      entries[i]? = some entry ∧ auditsOf i r.2 = [record] ∧
      record.signalId = entryLabel loop entry
  others : accountsForAll r.1 = true →
    ∃ (cfg : DeviceConfig) (entries : List Json) (loop : WriteLoop),
      Dispatched render registry addressed body cfg entries loop ∧
      ∀ i < entries.length, (∀ message : DeviceControl, (i, message) ∉ sentMessages r.2) →
        ∃ record : AuditRecord, auditsOf i r.2 = [record] ∧ record.ok = false

end EnipAdapter.Interface
