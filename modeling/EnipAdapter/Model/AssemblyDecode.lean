import EnipAdapter.Foundation.Refuse
import EnipAdapter.Model.CipDecode

/-!
# Reading assemblies

The read side of an assembly layout (`assembly.rs`, `decode` and `extract_field`), and its
construction once more with the checked arithmetic of the machine word that the source sizes
offsets, counts and spans with.
-/

set_option autoImplicit false

namespace EnipAdapter.Model

open EnipAdapter.Foundation

/-! ## The machine word -/

/-- The first number that a `usize` of the 64-bit targets cannot hold. -/
def Usize.limit : ℕ := 2 ^ 64

def Usize.checkedMul (a b : ℕ) : Option ℕ := if a * b < Usize.limit then some (a * b) else none

def Usize.checkedAdd (a b : ℕ) : Option ℕ := if a + b < Usize.limit then some (a + b) else none

/-- The value there is, or the error that says it is missing. -/
def okOr {α : Type} (value : Option α) (error : AssemblyError) : Except AssemblyError α :=
  match value with
  | some a => .ok a
  | none => .error error

/-! ## Construction -/

/-- The construction check of one field, step by step: a product or a sum that leaves the
machine word is out of bounds as well. -/
def FieldSpec.validate (f : FieldSpec) (dataSize : UInt64) : Except AssemblyError Unit := do
  refuse (f.count = 0) (.zeroCount f.key)
  let size ← okOr f.ty.elementSize (.nonElementaryType f.key)
  match f.bit with
  | some bit =>
    refuse (f.ty ≠ .bool ∨ bit > 7 ∨ f.count ≠ 1) (.invalidBitField f.key)
  | none => pure ()
  let span ← okOr (Usize.checkedMul size f.count) (.fieldOutOfBounds f.key)
  let stop ← okOr (Usize.checkedAdd f.offset span) (.fieldOutOfBounds f.key)
  refuse (stop > dataSize.toNat) (.fieldOutOfBounds f.key)

/-- A verdict as a result: no objection is success. -/
def verdict : Option AssemblyError → Except AssemblyError Unit
  | none => .ok ()
  | some e => .error e

/-- The two checks agree for every data size a machine word holds: what overflows is larger than
the assembly. -/
theorem FieldSpec.validate_eq_check (f : FieldSpec) (dataSize : UInt64) :
    f.validate dataSize = verdict (f.check dataSize.toNat) := by
  have hsize : dataSize.toNat < Usize.limit := dataSize.toNat_lt
  have hspan : ∀ size : ℕ,
      (do
        let span ← okOr (Usize.checkedMul size f.count) (.fieldOutOfBounds f.key)
        let stop ← okOr (Usize.checkedAdd f.offset span) (.fieldOutOfBounds f.key)
        refuse (stop > dataSize.toNat) (.fieldOutOfBounds f.key) : Except AssemblyError Unit) =
      if f.offset + size * f.count > dataSize.toNat then .error (.fieldOutOfBounds f.key)
      else .ok () := by
    intro size
    by_cases hmul : size * f.count < Usize.limit
    · by_cases hadd : f.offset + size * f.count < Usize.limit
      · simp only [Usize.checkedMul, if_pos hmul, okOr, Usize.checkedAdd, if_pos hadd, bind,
          Except.bind, refuse]
      · rw [if_pos (by omega)]
        simp only [Usize.checkedMul, if_pos hmul, okOr, Usize.checkedAdd, if_neg hadd, bind,
          Except.bind]
    · rw [if_pos (by omega)]
      simp only [Usize.checkedMul, if_neg hmul, okOr, bind, Except.bind]
  unfold FieldSpec.validate FieldSpec.check
  by_cases hcount : f.count = 0
  · simp only [refuse, if_pos hcount, bind, Except.bind, verdict]
  · cases htype : f.ty.elementSize with
    | none => simp only [refuse, if_neg hcount, okOr, bind, Except.bind, verdict]
    | some size =>
        have hrest := hspan size
        simp only [bind, Except.bind] at hrest
        cases hbit : f.bit with
        | none =>
            simp only [refuse, if_neg hcount, okOr, bind, Except.bind] at hrest ⊢
            rw [hrest]
            split <;> rfl
        | some bit =>
            by_cases hbad : f.ty ≠ .bool ∨ bit > 7 ∨ f.count ≠ 1
            · simp only [refuse, if_neg hcount, okOr, bind, Except.bind, if_pos hbad, verdict]
            · simp only [refuse, if_neg hcount, okOr, bind, Except.bind, if_neg hbad] at hrest ⊢
              rw [hrest]
              split <;> rfl

namespace AssemblyLayout

/-- Validate the fields in order, up to the first that fails. -/
def validateAll (dataSize : UInt64) : List FieldSpec → Except AssemblyError Unit
  | [] => .ok ()
  | f :: fields => do
    f.validate dataSize
    validateAll dataSize fields

/-- The whole layout is refused with the first finding on a field, if there is one. -/
theorem validateAll_eq (dataSize : UInt64) (fields : List FieldSpec) :
    validateAll dataSize fields = verdict (fields.findSome? (·.check dataSize.toNat)) := by
  induction fields with
  | nil => rfl
  | cons f fields ih =>
      rw [validateAll, FieldSpec.validate_eq_check, List.findSome?_cons]
      cases f.check dataSize.toNat with
      | none => exact ih
      | some e => rfl

/-- The layout of some fields over a data size, in the arithmetic of the source. -/
def newChecked (fields : List FieldSpec) (dataSize : UInt64) :
    Except AssemblyError AssemblyLayout :=
  match h : validateAll dataSize fields with
  | .error e => .error e
  | .ok () => .ok ⟨fields, dataSize.toNat, by
      rw [validateAll_eq] at h
      cases hfound : fields.findSome? (·.check dataSize.toNat) with
      | none => exact List.findSome?_eq_none_iff.mp hfound
      | some e =>
          rw [hfound] at h
          cases h⟩

/-- Construction in unbounded arithmetic is construction in the arithmetic of the source. -/
theorem newChecked_eq_new (fields : List FieldSpec) (dataSize : UInt64) :
    newChecked fields dataSize = new fields dataSize.toNat := by
  have hall := validateAll_eq dataSize fields
  unfold newChecked new
  split
  · rename_i e he
    rw [he] at hall
    split
    · rename_i e' he'
      rw [he'] at hall
      cases hall
      rfl
    · rename_i hnone
      rw [hnone] at hall
      cases hall
  · rename_i he
    rw [he] at hall
    split
    · rename_i e' he'
      rw [he'] at hall
      cases hall
    · rfl

/-! ## Reading -/

/-- Extract one field through a fresh cursor at its offset. -/
def extractField (field : FieldSpec) (data : Bytes) : Except AssemblyError CipValue := do
  let r := WireReader.withContext data "assembly"
  let outOfBounds := fun _ : WireError => AssemblyError.fieldOutOfBounds field.key
  let (_, r) ← (r.take field.offset).mapError outOfBounds
  match field.bit with
  | some bit =>
    let (byte, _) ← r.u8.mapError outOfBounds
    let mask : UInt8 := if bit < 8 then 1 <<< bit else 0
    pure (.bool (byte &&& mask != 0))
  | none =>
    let size ← okOr field.ty.elementSize (.nonElementaryType field.key)
    let span ← okOr (Usize.checkedMul size field.count) (.fieldOutOfBounds field.key)
    let (bytes, _) ← (r.take span).mapError outOfBounds
    (CipValue.decode field.ty bytes).mapError outOfBounds

/-- The values of some fields, in order, each under its key. -/
def extractAll (data : Bytes) : List FieldSpec → Except AssemblyError (List (ℕ × CipValue))
  | [] => .ok []
  | field :: fields => do
    let value ← extractField field data
    let rest ← extractAll data fields
    pure ((field.key, value) :: rest)

/-- Extract every field of a buffer of exactly the assembly's size. -/
def decode (layout : AssemblyLayout) (data : Bytes) :
    Except AssemblyError (List (ℕ × CipValue)) :=
  if data.length ≠ layout.dataSize then
    .error (.dataSizeMismatch layout.dataSize data.length)
  else extractAll data layout.fields

end AssemblyLayout

end EnipAdapter.Model
