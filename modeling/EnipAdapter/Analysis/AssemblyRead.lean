import EnipAdapter.Analysis.ValueRoundTrip
import EnipAdapter.Interface.AssemblyContract

/-!
# Assemblies read in full

The layout is checked when it is built and every read is checked again. Each check of the
construction makes one of the checks of a read pass, so a buffer of the right size is read in
full: one value for each field, in order, which is the little-endian value of its own cells.
-/

set_option autoImplicit false

namespace EnipAdapter.Analysis

open EnipAdapter.Foundation EnipAdapter.Model EnipAdapter.Interface
open EnipAdapter.Model.CipValue

/-! ## What the construction checks -/

/-- What is known of a field that passed the construction check. -/
structure FieldFits (f : FieldSpec) (dataSize : ℕ) : Prop where
  count_pos : 0 < f.count
  elementary : f.ty.elementSize = some (elementWidth f)
  bit_ok : ∀ bit, f.bit = some bit → f.ty = .bool ∧ bit < 8 ∧ f.count = 1
  inside : f.offset + fieldSpan f ≤ dataSize

/-- A field that passes its check lies inside the data and has a type of fixed width. -/
theorem fieldFits_of_check {f : FieldSpec} {dataSize : ℕ} (h : f.check dataSize = none) :
    FieldFits f dataSize := by
  unfold FieldSpec.check at h
  by_cases hcount : f.count = 0
  · rw [if_pos hcount] at h
    cases h
  · rw [if_neg hcount] at h
    cases hsize : f.ty.elementSize with
    | none =>
        rw [hsize] at h
        cases h
    | some size =>
        have hwidth : elementWidth f = size := by rw [elementWidth, hsize]; rfl
        simp only [hsize] at h
        refine ⟨Nat.pos_of_ne_zero hcount, by rw [hwidth]; exact hsize, ?_, ?_⟩
        · intro bit hbit
          simp only [hbit] at h
          by_cases hbad : f.ty ≠ .bool ∨ bit > 7 ∨ f.count ≠ 1
          · rw [if_pos hbad] at h
            cases h
          · simp only [not_or, not_not] at hbad
            refine ⟨hbad.1, ?_, hbad.2.2⟩
            rw [UInt8.lt_iff_toNat_lt]
            have hle := UInt8.not_lt.mp hbad.2.1
            rw [UInt8.le_iff_toNat_le] at hle
            exact Nat.lt_succ_of_le hle
        · rw [fieldSpan, hwidth]
          by_contra hpast
          have hgt : f.offset + size * f.count > dataSize := Nat.lt_of_not_le hpast
          rw [if_pos hgt] at h
          cases hbit : f.bit with
          | none =>
              simp only [hbit] at h
              cases h
          | some bit =>
              simp only [hbit] at h
              split at h <;> cases h

/-- Every field of a validated layout fits its data. -/
theorem fieldFits_of_mem (layout : AssemblyLayout) {f : FieldSpec}
    (h : f ∈ layout.fields) : FieldFits f layout.dataSize :=
  fieldFits_of_check (layout.fits f h)

/-! ## Elements -/

/-- One element is the little-endian value of as many bytes as its type is wide. -/
theorem decodeScalar_eq {ty : CipType} {size : ℕ} (hsize : ty.elementSize = some size)
    {b : Bytes} (hroom : size ≤ b.length) (context : String) :
    decodeScalar ty ⟨b, context⟩ =
      .ok (elementOf ty (ofLeBytes (b.take size)), ⟨b.drop size, context⟩) := by
  have htake : (⟨b, context⟩ : WireReader).take size = .ok (b.take size, ⟨b.drop size, context⟩) :=
    if_pos hroom
  cases ty with
  | bool =>
      cases hsize
      obtain ⟨x, rest, rfl⟩ := List.exists_cons_of_length_pos hroom
      have hvalue : (UInt8.ofNat (ofLeBytes [x]) != 0) = (ofLeBytes [x] != 0) := by
        have hx : ofLeBytes [x] = x.toNat := by simp [ofLeBytes]
        rw [hx, UInt8.ofNat_toNat]
        by_cases hzero : x = 0
        · rw [hzero]
          rfl
        · have hnat : x.toNat ≠ 0 := fun h => hzero (UInt8.toNat_inj.mp h)
          rw [bne_iff_ne.mpr hzero, bne_iff_ne.mpr hnat]
      simp only [decodeScalar, WireReader.u8, htake, bind, Except.bind, pure, Except.pure,
        elementOf, List.take_succ_cons, List.take_zero, hvalue]
  | string => cases hsize
  | struct => cases hsize
  | unknown code => cases hsize
  | sint | int | dint | lint =>
      cases hsize
      simp only [decodeScalar, WireReader.u8, WireReader.u16, WireReader.u32, WireReader.u64,
        htake, bind, Except.bind, pure, Except.pure, elementOf]
      rfl
  | _ =>
      cases hsize
      simp only [decodeScalar, WireReader.u8, WireReader.u16, WireReader.u32, WireReader.u64,
        htake, bind, Except.bind, pure, Except.pure, elementOf]

/-- The first element is read from the first bytes, the others from what follows. -/
theorem elementsIn_succ (ty : CipType) (size count : ℕ) (b : Bytes) :
    elementsIn ty size (count + 1) b =
      elementOf ty (ofLeBytes (b.take size)) :: elementsIn ty size count (b.drop size) := by
  simp only [elementsIn, List.range_succ_eq_map, List.map_cons, List.map_map, Nat.zero_mul,
    List.drop_zero, List.drop_drop]
  congr 1
  apply List.map_congr_left
  intro k _
  simp only [Function.comp, Nat.succ_mul, Nat.add_comm size]

/-- As many elements are read as are asked for. -/
@[simp] theorem elementsIn_length (ty : CipType) (size count : ℕ) (b : Bytes) :
    (elementsIn ty size count b).length = count := by
  simp [elementsIn]

/-- The elements are read one after the other. -/
theorem readMany_elements {ty : CipType} {size : ℕ} (hsize : ty.elementSize = some size)
    (count : ℕ) {b : Bytes} (hroom : count * size ≤ b.length) (context : String) :
    readMany (decodeScalar ty) count ⟨b, context⟩ =
      .ok (elementsIn ty size count b, ⟨b.drop (count * size), context⟩) := by
  induction count generalizing b with
  | zero => simp [readMany, elementsIn]
  | succ count ih =>
      rw [Nat.succ_mul] at hroom
      have hhead := decodeScalar_eq hsize (b := b) (by omega) context
      have htail := ih (b := b.drop size) (by rw [List.length_drop]; omega)
      have hread := readMany_succ_ok hhead htail
      rwa [← elementsIn_succ, List.drop_drop, Nat.add_comm size, ← Nat.succ_mul] at hread

/-- Bytes of some whole elements are decoded to the value they make. -/
theorem decode_elements {ty : CipType} {size count : ℕ} (hsize : ty.elementSize = some size)
    (hcount : 0 < count) {b : Bytes} (hlen : b.length = size * count) :
    CipValue.decode ty b = .ok (ofElements ty (elementsIn ty size count b)) := by
  have hpos := elementSize_pos hsize
  have hb : b ≠ [] := by
    apply List.ne_nil_of_length_pos
    rw [hlen]
    exact Nat.mul_pos hpos hcount
  have hdiv : b.length / size = count := by
    rw [hlen]
    exact Nat.mul_div_cancel_left count hpos
  have hall : count * size = b.length := by rw [hlen, Nat.mul_comm]
  apply (decode_eq_ok_iff hsize hb _).mpr
  refine ⟨⟨count, hlen⟩, _, ⟨b.drop (count * size), "cip value"⟩, ?_, ?_, rfl⟩
  · rw [hdiv]
    exact readMany_elements hsize count hall.le "cip value"
  · show b.drop (count * size) = []
    rw [hall, List.drop_length]

/-- Every element that was read is a scalar of the type. -/
theorem scalarOf_elementsIn {ty : CipType} {size count : ℕ} (hsize : ty.elementSize = some size)
    {b : Bytes} (hroom : count * size ≤ b.length) :
    ∀ v ∈ elementsIn ty size count b, ScalarOf ty v :=
  forall_of_readMany (fun _ _ _ hv => (scalar_decode hv).1) (readMany_elements hsize count hroom "")

/-! ## Fields -/

/-- A bit of a byte, tested with its mask. -/
theorem mask_test {x k : UInt8} (hk : k < 8) :
    (x &&& (1 <<< k) != 0) = x.toNat.testBit k.toNat := by
  have hbit : (x &&& (1 <<< k)).toNat.testBit k.toNat = x.toNat.testBit k.toNat := by
    rw [UInt8.toNat_and, Nat.testBit_and, testBit_one_shiftLeft hk, decide_eq_true rfl,
      Bool.and_true]
  cases hx : x.toNat.testBit k.toNat with
  | true =>
      rw [hx] at hbit
      apply bne_iff_ne.mpr
      intro hzero
      rw [hzero, UInt8.toNat_zero, Nat.zero_testBit] at hbit
      cases hbit
  | false =>
      have hzero : x &&& (1 <<< k) = 0 := by
        apply byte_eq_of_bits
        intro j
        rw [UInt8.toNat_and, Nat.testBit_and, testBit_one_shiftLeft hk, UInt8.toNat_zero,
          Nat.zero_testBit]
        by_cases hj : k.toNat = j
        · rw [← hj, hx, Bool.false_and]
        · rw [decide_eq_false hj, Bool.and_false]
      rw [hzero]
      rfl

/-- A slice inside the data has its full length. -/
theorem length_slice {data : Bytes} {first count : ℕ} (h : first + count ≤ data.length) :
    ((data.drop first).take count).length = count := by
  rw [List.length_take, List.length_drop]
  omega

/-- A field of the layout is extracted from any buffer of the assembly's size. -/
theorem extractField_eq {f : FieldSpec} {data : Bytes} (hfits : FieldFits f data.length)
    (hword : data.length < Usize.limit) :
    AssemblyLayout.extractField f data = .ok (reading f data) := by
  have hinside := hfits.inside
  have hskip : (WireReader.withContext data "assembly").take f.offset =
      .ok (data.take f.offset, ⟨data.drop f.offset, "assembly"⟩) :=
    if_pos (by show f.offset ≤ data.length; omega)
  unfold AssemblyLayout.extractField reading
  simp only [hskip, Except.mapError, bind, Except.bind]
  cases hbit : f.bit with
  | some bit =>
      obtain ⟨hbool, hlow, hone⟩ := hfits.bit_ok bit hbit
      have hspan : fieldSpan f = 1 := by
        simp only [fieldSpan, elementWidth, hbool, hone]
        rfl
      have hlt : f.offset < data.length := by omega
      have hread : (⟨data.drop f.offset, "assembly"⟩ : WireReader).u8 =
          .ok (data.get ⟨f.offset, hlt⟩, ⟨data.drop (f.offset + 1), "assembly"⟩) := by
        rw [List.drop_eq_getElem_cons hlt]
        exact WireReader.u8_append _ _ _
      simp only [hread, if_pos hlow, pure, Except.pure, mask_test hlow, cellBit,
        List.getD_eq_getElem?_getD, List.getElem?_eq_getElem hlt, Option.getD_some,
        List.get_eq_getElem]
  | none =>
      have hmul : Usize.checkedMul (elementWidth f) f.count = some (fieldSpan f) :=
        if_pos (by show fieldSpan f < Usize.limit; omega)
      have htake : (⟨data.drop f.offset, "assembly"⟩ : WireReader).take (fieldSpan f) =
          .ok ((data.drop f.offset).take (fieldSpan f), _) :=
        if_pos (by show fieldSpan f ≤ (data.drop f.offset).length; rw [List.length_drop]; omega)
      have hvalue : CipValue.decode f.ty ((data.drop f.offset).take (fieldSpan f)) = _ :=
        decode_elements hfits.elementary hfits.count_pos (length_slice hinside)
      simp only [hfits.elementary, okOr, hmul, htake, hvalue]

/-- What a field reads as is of its type, with its count of elements. -/
theorem reading_hasElements {f : FieldSpec} {data : Bytes} (hfits : FieldFits f data.length) :
    HasElements f.ty f.count (reading f data) := by
  unfold reading
  cases hbit : f.bit with
  | some bit =>
      obtain ⟨hbool, -, hone⟩ := hfits.bit_ok bit hbit
      rw [hbool, hone]
      refine ⟨rfl, ?_⟩
      rw [if_pos rfl]
      exact ⟨trivial, rfl⟩
  | none =>
      have hlen := length_slice hfits.inside
      have hroom : f.count * elementWidth f ≤ ((data.drop f.offset).take (fieldSpan f)).length := by
        rw [hlen, fieldSpan, Nat.mul_comm]
      have hscalars := scalarOf_elementsIn hfits.elementary hroom
      have hvalue := hasElements_ofElements hscalars
      rwa [elementsIn_length] at hvalue

/-! ## The assembly -/

/-- Fields that fit are all read, each as its own bytes say. -/
theorem extractAll_eq {data : Bytes} (hword : data.length < Usize.limit) {fields : List FieldSpec}
    (h : ∀ f ∈ fields, FieldFits f data.length) :
    AssemblyLayout.extractAll data fields = .ok (fields.map fun f => (f.key, reading f data)) := by
  induction fields with
  | nil => rfl
  | cons f fields ih =>
      have hhead := extractField_eq (h f List.mem_cons_self) hword
      have htail := ih fun g hg => h g (List.mem_cons_of_mem f hg)
      simp only [AssemblyLayout.extractAll, hhead, htail, bind, Except.bind, pure, Except.pure,
        List.map_cons]

/-- A buffer of the assembly's size is read in full, provided its length is a machine word. -/
theorem decode_eq_readings {layout : AssemblyLayout} {data : Bytes}
    (hlen : data.length = layout.dataSize) (hword : data.length < Usize.limit) :
    layout.decode data = .ok (layout.fields.map fun f => (f.key, reading f data)) := by
  unfold AssemblyLayout.decode
  rw [if_neg (by rw [hlen]; exact fun h => h rfl)]
  apply extractAll_eq hword
  intro f hf
  rw [hlen]
  exact fieldFits_of_mem layout hf

/-- For every list of fields and every data size for which the layout is built, every buffer of
that many bytes is decoded: one pair for each field, in declaration order, whose value has the
type and the element count of the field and is the little-endian reading of its own cells. -/
theorem assembly_decode_total {fields : List FieldSpec} {dataSize : UInt64}
    {layout : AssemblyLayout} (hnew : AssemblyLayout.newChecked fields dataSize = .ok layout)
    {data : Bytes} (hlen : data.length = dataSize.toNat) :
    layout.decode data = .ok (fields.map fun f => (f.key, reading f data)) ∧
      ∀ f ∈ fields, HasElements f.ty f.count (reading f data) := by
  rw [AssemblyLayout.newChecked_eq_new] at hnew
  obtain ⟨hfields, hsize⟩ := AssemblyLayout.new_ok hnew
  have hdata : data.length = layout.dataSize := by rw [hlen, hsize]
  have hword : data.length < Usize.limit := by
    rw [hlen]
    exact dataSize.toNat_lt
  subst hfields
  refine ⟨decode_eq_readings hdata hword, ?_⟩
  intro f hf
  apply reading_hasElements
  rw [hdata]
  exact fieldFits_of_mem layout hf

/-- A DINT, a status byte and one of its bits, and two INTs. -/
def statusFields : List FieldSpec :=
  [⟨0, 0, .dint, none, 1⟩, ⟨1, 4, .usint, none, 1⟩, ⟨2, 4, .bool, some 3, 1⟩, ⟨3, 5, .int, none, 2⟩]

/-- The overlapping status fields of a nine-byte assembly. -/
theorem assembly_decode_total_status :
    ∃ layout, AssemblyLayout.newChecked statusFields 9 = .ok layout ∧
      layout.decode [1, 2, 0, 0, 8, 0xFF, 0xFF, 1, 0] =
        .ok [(0, .dint 513), (1, .usint 8), (2, .bool true),
          (3, .array .int [.int (-1), .int 1])] := by
  have hnew : ∃ layout, AssemblyLayout.newChecked statusFields 9 = .ok layout := ⟨_, rfl⟩
  obtain ⟨layout, hnew⟩ := hnew
  have hlen : ([1, 2, 0, 0, 8, 0xFF, 0xFF, 1, 0] : Bytes).length = (9 : UInt64).toNat := rfl
  exact ⟨layout, hnew, (assembly_decode_total hnew hlen).1⟩

end EnipAdapter.Analysis
