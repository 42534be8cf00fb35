import EnipAdapter.Model.ReadCommand

/-!
# What a poll read command owes its references

Every reference gets an entry of its own: an unresolved one says so, and a resolved one
carries the reading that was taken for it. Readings are taken for the resolved references in
order, so they are paired with them by place.
-/

set_option autoImplicit false

namespace EnipAdapter.Interface

open EnipAdapter.Model

/-- What becomes of a live read on the device task. -/
abbrev ReadTask := List SignalSpec → ChannelAnswer (Except String (List Reading))

/-- The task answers a live read of the signals with one reading for each, in order. -/
structure ReadsInOrder (task : ReadTask) (specs : List SignalSpec) (readings : List Reading) :
    Prop where
  answered : task specs = .answered (.ok readings)
  inOrder : List.Forall₂ (fun spec r => r.signalId = spec.tagPath) specs readings

/-- What a well-formed reference stands for: the signal it resolves to, or the label of a
reference that names nothing. -/
def RefersTo (render : Json → String) (cfg : DeviceConfig) (ref : Json) :
    Except String SignalSpec → Prop
  | .ok spec => resolvePollRef render cfg ref = .ok spec
  | .error label => resolvePollRef render cfg ref = .error (.unresolved label)

/-- An entry carries a reading of a signal: the signal's id and address, the reading's value
and quality. -/
structure Carries (conn : ConnectionConfig) (spec : SignalSpec) (r : Reading) (entry : Json) :
    Prop where
  id : (entry.get "signal").bind (Json.get · "id") = some (.str spec.tagPath)
  address : (entry.get "signal").bind (Json.get · "address") = some (spec.addressJson conn)
  value : entry.get "value" = some r.value
  quality : entry.get "quality" = some (.str (qualityStr r.quality))

/-- The entry of a reference that resolves to nothing. -/
structure Unresolved (label : String) (entry : Json) : Prop where
  id : (entry.get "signal").bind (Json.get · "id") = some (.str label)
  quality : entry.get "quality" = some (.str "BAD")
  raw : entry.get "qualityRaw" = some (.str "UNRESOLVED_REF")

/-- One entry for each reference in order, and each resolved reference with the next of the
readings. -/
inductive OwnEntries (conn : ConnectionConfig) :
    List (Except String SignalSpec) → List Reading → List Json → Prop
  | nil : OwnEntries conn [] [] []
  | unresolved {label : String} {plan : List (Except String SignalSpec)} {readings : List Reading}
      {entry : Json} {entries : List Json} (hentry : Unresolved label entry)
      (hrest : OwnEntries conn plan readings entries) :
      OwnEntries conn (.error label :: plan) readings (entry :: entries)
  | resolved {spec : SignalSpec} {plan : List (Except String SignalSpec)} {r : Reading}
      {readings : List Reading} {entry : Json} {entries : List Json}
      (hentry : Carries conn spec r entry) (hrest : OwnEntries conn plan readings entries) :
      OwnEntries conn (.ok spec :: plan) (r :: readings) (entry :: entries)

/-- The answer to the references of a plan gives each its own entry. -/
def AnswersEach (render : Json → String) (cfg : DeviceConfig) (task : ReadTask) (ts : String)
    (refs : List Json) (plan : List (Except String SignalSpec)) (readings : List Reading) : Prop :=
  ∃ (entries : List Json) (served : ℕ),
    readPoll render cfg task ts refs =
        .ok (.obj [("id", .str cfg.id), ("reads", .arr entries)], served) ∧
      OwnEntries cfg.connection plan readings entries

/-- The readings taken for references to one tag path agree in value and quality. -/
def TagReadingsAgree (plan : List (Except String SignalSpec)) (readings : List Reading) : Prop :=
  ∀ a ∈ (planSpecs plan).zip readings, ∀ b ∈ (planSpecs plan).zip readings,
    a.1.tagPath = b.1.tagPath → a.2.value = b.2.value ∧ a.2.quality = b.2.quality

end EnipAdapter.Interface
