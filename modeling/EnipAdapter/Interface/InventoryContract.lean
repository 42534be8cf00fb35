import EnipAdapter.Interface.WriteContract
import EnipAdapter.Model.SignalsCommand

/-!
# What `sb/signals` promises a client

A client that lists the signals of an instance copies what it finds into its next request: the
name of an entry, or its address. The copy is to reach the signal that was listed, in a read and
in a write, and the `writable` flag is to say what becomes of a write.
-/

set_option autoImplicit false

namespace EnipAdapter.Interface

open EnipAdapter.Foundation EnipAdapter.Model

/-- The entries of an answer to `sb/signals`. -/
def listedSignals (reply : Json) : List Json :=
  ((reply.get "signals").bind Json.asArray).getD []

/-- A reference made from the name of an entry: it may carry other members. -/
def CopiesName (e r : Json) : Prop :=
  (r.get "name").isSome = true ∧ r.get "name" = e.get "name"

/-- A reference made from the address of an entry: the members of the address, and no name. -/
structure CopiesAddress (e r : Json) : Prop where
  unnamed : r.get "name" = none
  members : ∃ address : Json, e.get "address" = some address ∧
    ∀ key ∈ ["tagPath", "assembly", "offset", "type", "bit", "arrayCount"],
      r.get key = address.get key

/-- The reference writes the value. -/
def CarriesValue (r v : Json) : Prop := r.get "value" = some v

/-- What a write of one entry hands to the device. -/
def handed (render : Json → String) (cfg : DeviceConfig) (answer : ℕ → DeviceAnswer) (r : Json) :
    List DeviceControl :=
  match loopOf render cfg with
  | none => []
  | some loop => (sentMessages (writeAll cfg loop answer [r]).2).map Prod.snd

/-- The task takes the messages it is sent. -/
def StaysOpen (answer : ℕ → DeviceAnswer) : Prop := ∀ i, answer i ≠ .closed

/-! ## Poll devices -/

/-- A reference that reaches a listed signal on a poll device: what it resolves to has the id and
the address of the entry, and a write of it is handed over exactly when the entry is writable. -/
structure ReachesTag (render : Json → String) (cfg : DeviceConfig) (e r : Json) : Prop where
  resolves : ∃ spec : SignalSpec, resolvePollRef render cfg r = .ok spec ∧
    e.get "id" = some (.str spec.tagPath) ∧
    e.get "address" = some (spec.addressJson cfg.connection)
  writes : ∀ (answer : ℕ → DeviceAnswer) (v : Json), StaysOpen answer → CarriesValue r v →
    ∃ (spec : SignalSpec) (writable : Bool), resolvePollRef render cfg r = .ok spec ∧
      e.get "writable" = some (.bool writable) ∧
      handed render cfg answer r = if writable then [.write spec v] else []

/-- The contract of the listing of a poll device. -/
structure TagInventory (render : Json → String) (view : SignalsView) : Prop where
  /-- Every configured signal is listed once, in order. -/
  complete : (listedSignals view.signals).map (·.get "id") =
    view.cfg.signals.map fun spec => some (.str spec.tagPath)
  distinct : ((listedSignals view.signals).map (·.get "id")).Nodup
  /-- A name leads to the signal as it is configured. -/
  named : ∀ e ∈ listedSignals view.signals, ∀ r, CopiesName e r →
    ReachesTag render view.cfg e r ∧
      ∃ spec ∈ view.cfg.signals, resolvePollRef render view.cfg r = .ok spec
  /-- An address leads to the same tag, read and written without its transform. -/
  addressed : ∀ e ∈ listedSignals view.signals, ∀ r, CopiesAddress e r →
    ReachesTag render view.cfg e r ∧
      ∃ spec, resolvePollRef render view.cfg r = .ok spec ∧ spec.scale = none ∧ spec.offset = none

/-! ## Push devices -/

/-- A reference that reaches a listed output field: a write of it is handed over, for the field
with the id and the address of the entry, exactly when the entry is writable. -/
structure ReachesOutput (render : Json → String) (cfg : DeviceConfig) (io : IoConfig)
    (e r : Json) : Prop where
  resolves : ∃ f ∈ io.outputSignals,
    resolvePushWriteRef io r = .ok (f.signalId io.assemblies.output, f) ∧
      e.get "id" = some (.str (f.signalId io.assemblies.output)) ∧
      e.get "address" = some (f.addressJson io.assemblies.output cfg.connection)
  writes : ∀ (answer : ℕ → DeviceAnswer) (v : Json), StaysOpen answer → CarriesValue r v →
    ∃ (f : IoFieldSpec) (writable : Bool),
      resolvePushWriteRef io r = .ok (f.signalId io.assemblies.output, f) ∧
      e.get "writable" = some (.bool writable) ∧
      handed render cfg answer r = if writable then [.writeOutput f v] else []

/-- A reference that reaches a listed input field: a read of it answers for the id and the
address of the entry, and a write of it is never handed over. -/
structure ReachesInput (render : Json → String) (cfg : DeviceConfig) (io : IoConfig)
    (e r : Json) : Prop where
  resolves : ∃ (id : String) (address : Json),
    resolvePushReadRef io cfg.connection r = some (id, address) ∧
      e.get "id" = some (.str id) ∧ e.get "address" = some address
  writes : ∀ answer : ℕ → DeviceAnswer, handed render cfg answer r = []

/-- The contract of the listing of a push device. -/
structure FieldInventory (render : Json → String) (view : SignalsView) (io : IoConfig) :
    Prop where
  /-- Every field is listed once, the input side first. -/
  complete : listedSignals view.signals = view.inputSignals io ++ view.outputSignals io
  names : ((listedSignals view.signals).map (·.get "name")).Nodup
  inputs : ∀ e ∈ view.inputSignals io, ∀ r,
    CopiesName e r ∨ CopiesAddress e r → ReachesInput render view.cfg io e r
  outputs : ∀ e ∈ view.outputSignals io, ∀ r,
    CopiesName e r ∨ CopiesAddress e r ∧ io.assemblies.output ≠ io.assemblies.input →
      ReachesOutput render view.cfg io e r

/-- Offsets are machine words, so that a JSON number carries them. -/
def MachineOffsets (cfg : DeviceConfig) : Prop :=
  ∀ io ∈ cfg.io, ∀ f ∈ io.input.signals ++ io.outputSignals, f.offset < 2 ^ 64

/-- The contract of `sb/signals` for a configuration that was accepted. -/
structure InventoryContract (render : Json → String) (view : SignalsView) : Prop where
  tags : view.cfg.mode = .poll → TagInventory render view
  fields : view.cfg.mode = .push → ∃ io, view.cfg.io = some io ∧ FieldInventory render view io

end EnipAdapter.Interface
