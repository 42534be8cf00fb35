import EnipAdapter.Interface.AcceptedConfig
import EnipAdapter.Model.Commands

/-!
# Explicit push references

What an explicit reference `{assembly, offset, type, bit?}` names, read as JSON writes it, and
what it hits once its numbers have been narrowed to the widths of the configuration. The two
readings part on four kinds of references, which `Misread` lists.
-/

set_option autoImplicit false

namespace EnipAdapter.Interface

open EnipAdapter.Foundation EnipAdapter.Model

/-! ## As written -/

/-- The bit a reference asks for: none when the member is absent or null, the integer it is,
and nothing at all when it is neither. -/
def refBit (r : Json) : Option (Option ℤ) :=
  match r.get "bit" with
  | none => some none
  | some v => if v.isNull then some none else v.asInt.map some

/-- The reference names a field of an assembly: its assembly, offset, type and bit, as
unbounded integers, are those of the field. -/
structure Names (inst : UInt16) (f : IoFieldSpec) (r : Json) : Prop where
  assembly : (r.get "assembly").bind Json.asInt = some (inst.toNat : ℤ)
  offset : (r.get "offset").bind Json.asInt = some (f.offset : ℤ)
  type : ((r.get "type").bind Json.asStr).bind EipType.parse = some f.eipType
  bit : refBit r = some (f.bit.map fun b => (b.toNat : ℤ))

/-- Explicit references are exact: a write reference resolves to a field exactly when it names
that output field, a read reference exactly when it names an input field. -/
structure ReferencesExact (io : IoConfig) (conn : ConnectionConfig) (r : Json) : Prop where
  write : ∀ (id : String) (f : IoFieldSpec), resolvePushWriteRef io r = .ok (id, f) ↔
    f ∈ io.outputSignals ∧ id = f.signalId io.assemblies.output ∧
      Names io.assemblies.output f r
  read : ∀ (id : String) (address : Json), resolvePushReadRef io conn r = some (id, address) ↔
    ∃ f ∈ io.input.signals, Names io.assemblies.input f r ∧
      id = f.signalId io.assemblies.input ∧ address = f.addressJson io.assemblies.input conn

/-! ## As narrowed -/

/-- The assembly number of a reference, before narrowing. -/
def refAssembly (r : Json) : Option UInt64 := (r.get "assembly").bind Json.asU64

/-- The reference hits a field: same offset and type, and the bit narrowed to a byte, where a
bit that is not an unsigned integer counts as absent. -/
structure Hits (fields : List IoFieldSpec) (r : Json) (f : IoFieldSpec) : Prop where
  mem : f ∈ fields
  offset : ((r.get "offset").bind Json.asU64).map UInt64.toNat = some f.offset
  type : ((r.get "type").bind Json.asStr).bind EipType.parse = some f.eipType
  bit : f.bit = ((r.get "bit").bind Json.asU64).map UInt64.toUInt8

/-- Narrowing loses nothing of the bit: it is absent, null, or an integer below 256. -/
def bitFits (r : Json) : Bool :=
  match r.get "bit" with
  | none => true
  | some v =>
    v.isNull ||
      match v.asU64 with
      | some n => decide (n.toNat < 256)
      | none => false

/-- The four kinds of references that are not read as they are written. -/
inductive Misread (io : IoConfig) (r : Json) : Prop
  /-- An output field is hit under an assembly number that is not the output instance and does
  not narrow to the input instance. -/
  | foreignAssembly {a : UInt64} {f : IoFieldSpec} (assembly : refAssembly r = some a)
      (hit : Hits io.outputSignals r f) (notInput : a.toUInt16 ≠ io.assemblies.input)
      (notOutput : a.toNat ≠ io.assemblies.output.toNat)
  /-- An input field is hit under an assembly number above 65535 that narrows to the input
  instance. -/
  | wrappedAssembly {a : UInt64} {f : IoFieldSpec} (assembly : refAssembly r = some a)
      (hit : Hits io.input.signals r f) (narrows : a.toUInt16 = io.assemblies.input)
      (wide : 65536 ≤ a.toNat)
  /-- A field is hit through a bit that narrowing changes. -/
  | lossyBit {a : UInt64} {f : IoFieldSpec} (assembly : refAssembly r = some a)
      (hit : Hits io.outputSignals r f ∧ a.toUInt16 ≠ io.assemblies.input ∨
        Hits io.input.signals r f ∧ a.toUInt16 = io.assemblies.input)
      (lossy : bitFits r = false)
  /-- Both directions share one instance, and an output field is named under it. -/
  | sharedInstance {a : UInt64} {f : IoFieldSpec} (assembly : refAssembly r = some a)
      (shared : io.assemblies.output = io.assemblies.input)
      (named : a.toNat = io.assemblies.output.toNat) (hit : Hits io.outputSignals r f)
      (exact : bitFits r = true)

end EnipAdapter.Interface
