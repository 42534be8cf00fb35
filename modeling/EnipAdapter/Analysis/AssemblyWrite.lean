import EnipAdapter.Analysis.AssemblyRead
import Mathlib.Order.CompletePartialOrder

/-!
# Assemblies written in place

What one insertion puts into a cell depends on the field and the value alone, never on the
buffer: a bit field stamps its bit, another field stamps the bytes the value encodes to. A run
of insertions stamps each cell with what the last of them puts there and leaves the others.
From this follow the frame of a write, where it fails, and what is read back.
-/

set_option autoImplicit false

namespace EnipAdapter.Analysis

open EnipAdapter.Foundation EnipAdapter.Model EnipAdapter.Interface
open EnipAdapter.Model.CipValue

/-! ## One insertion -/

/-- What a value puts into a cell when it is inserted into a field. -/
def stamp (f : FieldSpec) (v : CipValue) (c : Cell) : Option Bool :=
  match f.bit with
  | some bit =>
    match v with
    | .bool set => if c = ⟨f.offset, bit.toNat⟩ then some set else none
    | _ => none
  | none =>
    match v.encodeValue with
    | .ok bytes =>
      if c ∈ byteCells f.offset bytes.length then
        some (cellBit bytes ⟨c.byte - f.offset, c.bit⟩)
      else none
    | .error _ => none

/-- A bit field stamps the one cell it names. -/
theorem stamp_bit {f : FieldSpec} {bit : UInt8} (hbit : f.bit = some bit) (set : Bool) (c : Cell) :
    stamp f (.bool set) c = if c = ⟨f.offset, bit.toNat⟩ then some set else none := by
  simp only [stamp, hbit]

/-- A field of bytes stamps the bits of its value from its offset on. -/
theorem stamp_bytes {f : FieldSpec} (hbit : f.bit = none) {v : CipValue} {bytes : Bytes}
    (hv : v.encodeValue = .ok bytes) (c : Cell) :
    stamp f v c = if c ∈ byteCells f.offset bytes.length then
      some (cellBit bytes ⟨c.byte - f.offset, c.bit⟩) else none := by
  simp only [stamp, hbit, hv]

/-- An insertion succeeds exactly where the field takes the value, and then stamps it into the
buffer. -/
theorem insertField_spec {f : FieldSpec} {v : CipValue} {buf : Bytes}
    (hfits : FieldFits f buf.length) :
    (Takes buf.length f v ↔ ∃ out, AssemblyLayout.insertField f v buf = .ok out) ∧
      ∀ out, AssemblyLayout.insertField f v buf = .ok out →
        ∀ c, cellBit out c = (stamp f v c).getD (cellBit buf c) := by
  have hinside := hfits.inside
  unfold Takes AssemblyLayout.insertField
  cases hbit : f.bit with
  | some bit =>
      obtain ⟨hbool, hlow, hone⟩ := hfits.bit_ok bit hbit
      have hspan : fieldSpan f = 1 := by
        simp only [fieldSpan, elementWidth, hbool, hone]
        rfl
      have hlt : f.offset < buf.length := by omega
      simp only [List.getElem?_eq_getElem hlt, if_pos hlow]
      cases v with
      | bool set =>
          refine ⟨⟨fun _ => ⟨_, rfl⟩, fun _ => ⟨set, rfl⟩⟩, ?_⟩
          intro out h c
          cases h
          rw [stamp_bit hbit, cellBit_put hlt hlow]
          split <;> rfl
      | _ => simp
  | none =>
      by_cases hty : v.wireType = f.ty
      · by_cases hcount : v.elementCount = f.count
        · simp only [hty, hcount, ne_eq, not_true_eq_false, if_false, true_and]
          cases hv : v.encodeValue with
          | error e => simp
          | ok bytes =>
              by_cases hroom : f.offset + bytes.length ≤ buf.length
              · simp only [AssemblyLayout.overwrite, if_pos hroom]
                refine ⟨⟨fun _ => ⟨_, rfl⟩, fun _ => ⟨bytes, rfl, hroom⟩⟩, ?_⟩
                intro out h c
                cases h
                rw [stamp_bytes hbit hv, cellBit_splice hroom]
                split <;> rfl
              · simp [AssemblyLayout.overwrite, hroom]
        · simp [hty, hcount]
      · simp [hty]

/-! ## A list of insertions -/

/-- What a list of values puts into a cell: the last of them that reaches it decides. -/
def stamps (layout : AssemblyLayout) : List (ℕ × CipValue) → Cell → Option Bool
  | [], _ => none
  | kv :: rest, c =>
    (stamps layout rest c).or ((namedField layout kv.1).bind fun f => stamp f kv.2 c)

/-- A key names a field of the layout only. -/
theorem namedField_mem {layout : AssemblyLayout} {key : ℕ} {f : FieldSpec}
    (h : namedField layout key = some f) : f ∈ layout.fields :=
  List.mem_of_find?_eq_some h

/-- A list that starts with a value for a field inserts that value, then the rest. -/
theorem insertAll_cons {layout : AssemblyLayout} {kv : ℕ × CipValue} {f : FieldSpec}
    (hf : namedField layout kv.1 = some f) (rest : List (ℕ × CipValue)) (buf : Bytes) :
    layout.insertAll (kv :: rest) buf =
      (AssemblyLayout.insertField f kv.2 buf >>= layout.insertAll rest) := by
  obtain ⟨key, value⟩ := kv
  rw [namedField] at hf
  simp only [AssemblyLayout.insertAll, hf]

/-- A list that starts with a value for no field is refused. -/
theorem insertAll_unnamed {layout : AssemblyLayout} {kv : ℕ × CipValue}
    (hnone : namedField layout kv.1 = none) {rest : List (ℕ × CipValue)} {buf out : Bytes} :
    layout.insertAll (kv :: rest) buf ≠ .ok out := by
  intro h
  obtain ⟨key, value⟩ := kv
  rw [namedField] at hnone
  simp only [AssemblyLayout.insertAll, hnone, reduceCtorEq] at h

/-- A list of values is inserted exactly where each of them names a field that takes it, and
stamps the buffer. -/
theorem insertAll_spec (layout : AssemblyLayout) (values : List (ℕ × CipValue)) {buf : Bytes}
    (hlen : buf.length = layout.dataSize) :
    (Accepts layout values ↔ ∃ out, layout.insertAll values buf = .ok out) ∧
      ∀ out, layout.insertAll values buf = .ok out →
        ∀ c, cellBit out c = (stamps layout values c).getD (cellBit buf c) := by
  induction values generalizing buf with
  | nil =>
      refine ⟨⟨fun _ => ⟨buf, rfl⟩, fun _ kv hkv => absurd hkv List.not_mem_nil⟩, ?_⟩
      intro out h c
      cases h
      rfl
  | cons kv rest ih =>
      cases hnamed : namedField layout kv.1 with
      | none =>
          refine ⟨⟨?_, ?_⟩, fun out h => absurd h (insertAll_unnamed hnamed)⟩
          · intro haccept
            obtain ⟨f, hf, -⟩ := haccept kv List.mem_cons_self
            rw [hnamed] at hf
            cases hf
          · rintro ⟨out, h⟩
            exact absurd h (insertAll_unnamed hnamed)
      | some f =>
          have hfits : FieldFits f buf.length := by
            rw [hlen]
            exact fieldFits_of_mem layout (namedField_mem hnamed)
          obtain ⟨htakes, hstamp⟩ := insertField_spec (v := kv.2) hfits
          rw [insertAll_cons hnamed]
          refine ⟨⟨?_, ?_⟩, ?_⟩
          · intro haccept
            obtain ⟨g, hg, hkv⟩ := haccept kv List.mem_cons_self
            rw [hnamed] at hg
            cases hg
            rw [← hlen] at hkv
            obtain ⟨mid, hmid⟩ := htakes.mp hkv
            have hmidLen := (AssemblyLayout.insertField_length hmid).trans hlen
            obtain ⟨out, hout⟩ := (ih hmidLen).1.mp fun kv' hkv' =>
              haccept kv' (List.mem_cons_of_mem kv hkv')
            exact ⟨out, bind_ok.mpr ⟨mid, hmid, hout⟩⟩
          · rintro ⟨out, h⟩ kv' hkv'
            obtain ⟨mid, hmid, hout⟩ := bind_ok.mp h
            have hmidLen := (AssemblyLayout.insertField_length hmid).trans hlen
            cases List.mem_cons.mp hkv' with
            | inl hhead =>
                rw [hhead, ← hlen]
                exact ⟨f, hnamed, htakes.mpr ⟨mid, hmid⟩⟩
            | inr hrest => exact (ih hmidLen).1.mpr ⟨out, hout⟩ kv' hrest
          · intro out h c
            obtain ⟨mid, hmid, hout⟩ := bind_ok.mp h
            have hmidLen := (AssemblyLayout.insertField_length hmid).trans hlen
            rw [(ih hmidLen).2 out hout c, hstamp mid hmid c, stamps, hnamed]
            cases stamps layout rest c with
            | none => rfl
            | some b => rfl

/-- A cell that one of the values stamps is stamped by the list. -/
theorem stamps_ne_none {layout : AssemblyLayout} {values : List (ℕ × CipValue)}
    {kv : ℕ × CipValue} (hkv : kv ∈ values) {f : FieldSpec}
    (hf : namedField layout kv.1 = some f) {c : Cell} (hc : stamp f kv.2 c ≠ none) :
    stamps layout values c ≠ none := by
  induction values with
  | nil => cases hkv
  | cons kv' rest ih =>
      rw [stamps]
      intro hnone
      obtain ⟨hrest, hhead⟩ := Option.or_eq_none_iff.mp hnone
      cases List.mem_cons.mp hkv with
      | inl heq =>
          rw [← heq, hf] at hhead
          exact hc hhead
      | inr hmem => exact ih hmem hrest

/-- A cell that the list stamps is stamped by one of its values. -/
theorem exists_stamp_of_stamps {layout : AssemblyLayout} {values : List (ℕ × CipValue)} {c : Cell}
    (h : stamps layout values c ≠ none) :
    ∃ kv ∈ values, ∃ f, namedField layout kv.1 = some f ∧ stamp f kv.2 c ≠ none := by
  induction values with
  | nil => exact absurd rfl h
  | cons kv rest ih =>
      by_cases hrest : stamps layout rest c = none
      · rw [stamps, hrest, Option.none_or] at h
        cases hnamed : namedField layout kv.1 with
        | none =>
            rw [hnamed] at h
            exact absurd rfl h
        | some f =>
            rw [hnamed] at h
            exact ⟨kv, List.mem_cons_self, f, hnamed, h⟩
      · obtain ⟨kv', hmem, hkv'⟩ := ih hrest
        exact ⟨kv', List.mem_cons_of_mem kv hmem, hkv'⟩

/-! ## The frame of a write -/

/-- The cell of a bit field is its own. -/
theorem mem_fieldCells_of_stamp_bit {f : FieldSpec} {bit : UInt8} (hbit : f.bit = some bit)
    {v : CipValue} {c : Cell} (h : stamp f v c ≠ none) : c ∈ fieldCells f := by
  simp only [stamp, hbit] at h
  simp only [fieldCells, hbit]
  cases v with
  | bool set =>
      by_contra hc
      exact h (if_neg hc)
  | _ => exact absurd rfl h

/-- The cells that a value stamps into a field of bytes are those of its encoding. -/
theorem stamp_ne_none_iff {f : FieldSpec} (hbit : f.bit = none) {v : CipValue} {bytes : Bytes}
    (hv : v.encodeValue = .ok bytes) {c : Cell} :
    stamp f v c ≠ none ↔ c ∈ byteCells f.offset bytes.length := by
  rw [stamp_bytes hbit hv]
  by_cases hc : c ∈ byteCells f.offset bytes.length
  · simp [hc]
  · simp [hc]

/-- A value that the field takes stamps nothing past the end of the assembly. -/
theorem byte_lt_of_stamp {f : FieldSpec} {v : CipValue} {dataSize : ℕ}
    (hfits : FieldFits f dataSize) (htakes : Takes dataSize f v) {c : Cell}
    (h : stamp f v c ≠ none) : c.byte < dataSize := by
  have hinside := hfits.inside
  cases hbit : f.bit with
  | some bit =>
      obtain ⟨hbool, -, hone⟩ := hfits.bit_ok bit hbit
      have hspan : fieldSpan f = 1 := by
        simp only [fieldSpan, elementWidth, hbool, hone]
        rfl
      have hcell := mem_fieldCells_of_stamp_bit hbit h
      simp only [fieldCells, hbit, Set.mem_singleton_iff] at hcell
      rw [hcell]
      show f.offset < dataSize
      omega
  | none =>
      simp only [Takes, hbit] at htakes
      obtain ⟨-, -, bytes, hv, hroom⟩ := htakes
      have hcell := (stamp_ne_none_iff hbit hv).mp h
      exact hcell.2.1.trans_le hroom

/-- Bytes that all hold the opposite of a bit. -/
theorem cellBit_opposite {size : ℕ} (b : Bool) {c : Cell} (hbyte : c.byte < size)
    (hbit : c.bit < 8) :
    cellBit (List.replicate size (if b then (0 : UInt8) else 0xFF)) c = !b := by
  rw [cellBit, List.getD_eq_getElem?_getD, List.getElem?_replicate, if_pos hbyte, Option.getD_some]
  cases b with
  | true => exact Nat.zero_testBit c.bit
  | false =>
      have hones := Nat.testBit_two_pow_sub_one 8 c.bit
      rw [decide_eq_true hbit] at hones
      exact hones

/-- Writing stays inside the named fields exactly where no cell outside them is stamped. -/
theorem staysInside_iff_stamps {layout : AssemblyLayout} {values : List (ℕ × CipValue)} :
    StaysInside layout values ↔
      (Accepts layout values → ∀ c ∉ namedCells layout values, c.bit < 8 →
        stamps layout values c = none) := by
  constructor
  · intro hstays haccept c hc hlow
    by_contra hstamp
    obtain ⟨b, hb⟩ := Option.ne_none_iff_exists'.mp hstamp
    obtain ⟨kv, hkv, f, hf, hfc⟩ := exists_stamp_of_stamps hstamp
    have hbyte : c.byte < layout.dataSize := by
      obtain ⟨g, hg, htakes⟩ := haccept kv hkv
      cases hf.symm.trans hg
      exact byte_lt_of_stamp (fieldFits_of_mem layout (namedField_mem hf)) htakes hfc
    -- A buffer that holds the opposite of the stamp everywhere shows the change.
    have hlen : (List.replicate layout.dataSize (if b then (0 : UInt8) else 0xFF)).length =
        layout.dataSize := List.length_replicate
    obtain ⟨out, hout⟩ := (insertAll_spec layout values hlen).1.mp haccept
    have hchange := (insertAll_spec layout values hlen).2 out hout c
    have hsame := hstays _ hlen out ((if_neg fun h => h hlen).trans hout) c hc
    rw [hsame, hb, Option.getD_some, cellBit_opposite b hbyte hlow] at hchange
    cases b <;> cases hchange
  · intro hstamps buf hlen out hout c hc
    rw [AssemblyLayout.encodeInto, if_neg fun h => h hlen] at hout
    by_cases hlow : c.bit < 8
    · have haccept := (insertAll_spec layout values hlen).1.mpr ⟨out, hout⟩
      rw [(insertAll_spec layout values hlen).2 out hout c, hstamps haccept c hc hlow]
      rfl
    · have hhigh : 8 ≤ c.bit := Nat.le_of_not_lt hlow
      rw [cellBit_of_le out hhigh, cellBit_of_le buf hhigh]

/-- Whatever the buffer, a write that succeeds leaves every cell outside the named fields as it
was, exactly where the values are refused or their encoded bytes lie inside the named fields. -/
theorem write_stays_inside_iff (layout : AssemblyLayout) (values : List (ℕ × CipValue)) :
    StaysInside layout values ↔ (Accepts layout values → EncodesWithin layout values) := by
  rw [staysInside_iff_stamps]
  constructor
  · intro hstamps haccept kv hkv f hf hbit bytes hv c hc
    by_contra houtside
    have hstamp : stamp f kv.2 c ≠ none := (stamp_ne_none_iff hbit hv).mpr hc
    exact stamps_ne_none hkv hf hstamp (hstamps haccept c houtside hc.2.2)
  · intro hwithin haccept c hc _
    by_contra hstamp
    obtain ⟨kv, hkv, f, hf, hfc⟩ := exists_stamp_of_stamps hstamp
    apply hc
    cases hbit : f.bit with
    | some bit => exact ⟨kv, hkv, f, hf, mem_fieldCells_of_stamp_bit hbit hfc⟩
    | none =>
        obtain ⟨g, hg, htakes⟩ := haccept kv hkv
        cases hf.symm.trans hg
        simp only [Takes, hbit] at htakes
        obtain ⟨-, -, bytes, hv, -⟩ := htakes
        exact hwithin haccept kv hkv f hf hbit bytes hv ((stamp_ne_none_iff hbit hv).mp hfc)

/-- An assembly of two DINTs, one after the other. -/
def dintPair : AssemblyLayout :=
  ⟨[⟨0, 0, .dint, none, 1⟩, ⟨1, 4, .dint, none, 1⟩], 8, by decide⟩

/-- An array declared as one DINT whose element is a LINT. -/
def wideElement : List (ℕ × CipValue) := [(0, .array .dint [.lint 0x0102030405060708])]

/-- The array passes the type and the count check and overwrites the second DINT. -/
theorem wide_element_overwrites_next_field :
    AssemblyLayout.new dintPair.fields 8 = .ok dintPair ∧
      dintPair.encodeInto wideElement [0, 0, 0, 0, 0, 0, 0, 0] = .ok [8, 7, 6, 5, 4, 3, 2, 1] ∧
      ¬ StaysInside dintPair wideElement := by
  have hout : dintPair.encodeInto wideElement [0, 0, 0, 0, 0, 0, 0, 0] =
      .ok [8, 7, 6, 5, 4, 3, 2, 1] := rfl
  refine ⟨rfl, hout, ?_⟩
  intro hstays
  have houtside : (⟨4, 2⟩ : Cell) ∈ (namedCells dintPair wideElement)ᶜ := by
    rintro ⟨kv, hkv, f, hf, hc⟩
    rw [List.mem_singleton.mp hkv] at hf
    cases hf
    exact absurd hc.2.1 (by decide)
  have hsame := hstays _ rfl _ hout _ houtside
  cases hsame

/-! ## Reading back -/

/-- A value that a field of bytes takes and that is homogeneous is made of as many scalars of
the field's type as the field counts, and reads back as the value they make. -/
theorem elements_of_taken {f : FieldSpec} (hbit : f.bit = none) {dataSize : ℕ} {v : CipValue}
    (htakes : Takes dataSize f v) (hv : Homogeneous v) :
    ∃ vs : List CipValue, vs.length = f.count ∧ (∀ e ∈ vs, ScalarOf f.ty e) ∧
      v.encodeValue = (ofElements f.ty vs).encodeValue ∧ asRead v = ofElements f.ty vs := by
  simp only [Takes, hbit] at htakes
  obtain ⟨hty, hcount, bytes, hbytes, -⟩ := htakes
  cases v with
  | array ty elems =>
      cases hty
      refine ⟨elems, hcount, hv _ elems rfl, ?_, ?_⟩
      · rw [encode_ofElements, encodeValue, encodeElems_eq]
      · cases elems with
        | nil => rfl
        | cons e rest =>
            cases rest with
            | nil => rfl
            | cons e' rest => rfl
  | struct handle len =>
      rw [encodeValue] at hbytes
      cases hbytes
  | unsupported code len =>
      rw [encodeValue] at hbytes
      cases hbytes
  | _ =>
      refine ⟨[_], hcount, ?_, rfl, rfl⟩
      intro e he
      rw [List.mem_singleton.mp he]
      exact ⟨trivial, hty⟩

/-- Such a value encodes to the span of the field, and is decoded from it. -/
theorem encode_of_taken {f : FieldSpec} (hbit : f.bit = none) {dataSize : ℕ} {v : CipValue}
    (hfits : FieldFits f dataSize) (htakes : Takes dataSize f v) (hv : Homogeneous v) :
    ∃ bytes, v.encodeValue = .ok bytes ∧ bytes.length = fieldSpan f ∧
      CipValue.decode f.ty bytes = .ok (asRead v) := by
  obtain ⟨vs, hcount, hscalars, hencode, hread⟩ := elements_of_taken hbit htakes hv
  have hne : vs ≠ [] := by
    apply List.ne_nil_of_length_pos
    rw [hcount]
    exact hfits.count_pos
  obtain ⟨bytes, hbytes, hdecode⟩ := decode_encode_ofElements hne hscalars
  obtain ⟨bytes', hwrite, hlen⟩ := writeMany_scalars hfits.elementary hscalars
  have hsame : bytes = bytes' := by
    rw [encode_ofElements, hwrite] at hbytes
    exact (Except.ok.inj hbytes).symm
  refine ⟨bytes, hencode.trans hbytes, ?_, by rw [hread]; exact hdecode⟩
  rw [hsame, hlen, hcount, fieldSpan, Nat.mul_comm]

/-- A homogeneous value stamps cells of its own field only. -/
theorem mem_fieldCells_of_stamp {f : FieldSpec} {dataSize : ℕ} {v : CipValue}
    (hfits : FieldFits f dataSize) (htakes : Takes dataSize f v) (hv : Homogeneous v) {c : Cell}
    (h : stamp f v c ≠ none) : c ∈ fieldCells f := by
  cases hbit : f.bit with
  | some bit => exact mem_fieldCells_of_stamp_bit hbit h
  | none =>
      obtain ⟨bytes, hbytes, hlen, -⟩ := encode_of_taken hbit hfits htakes hv
      have hcell := (stamp_ne_none_iff hbit hbytes).mp h
      simp only [fieldCells, hbit]
      rwa [hlen] at hcell

/-- A reading depends on the cells of the field only. -/
theorem reading_congr {f : FieldSpec} {a b : Bytes} (hlen : a.length = b.length)
    (h : AgreeOn (fieldCells f) a b) : reading f a = reading f b := by
  unfold reading
  cases hbit : f.bit with
  | some bit =>
      simp only [fieldCells, hbit] at h
      show CipValue.bool _ = CipValue.bool _
      rw [h _ rfl]
  | none =>
      simp only [fieldCells, hbit] at h
      show ofElements f.ty (elementsIn _ _ _ _) = ofElements f.ty (elementsIn _ _ _ _)
      rw [slice_eq_of_agreeOn hlen h]

/-- A field into which a homogeneous value was inserted reads as that value. -/
theorem reading_of_insertField {f : FieldSpec} {v : CipValue} {buf out : Bytes}
    (hfits : FieldFits f buf.length) (hv : Homogeneous v)
    (h : AssemblyLayout.insertField f v buf = .ok out) : reading f out = asRead v := by
  have htakes : Takes buf.length f v := (insertField_spec hfits).1.mpr ⟨out, h⟩
  cases hbit : f.bit with
  | some bit =>
      have hstamp := (insertField_spec hfits).2 out h ⟨f.offset, bit.toNat⟩
      simp only [Takes, hbit] at htakes
      obtain ⟨set, rfl⟩ := htakes
      rw [stamp_bit hbit, if_pos rfl, Option.getD_some] at hstamp
      simp only [reading, hbit, hstamp, asRead]
  | none =>
      obtain ⟨bytes, hbytes, hlen, hdecode⟩ := encode_of_taken hbit hfits htakes hv
      have hroom : f.offset + bytes.length ≤ buf.length := by
        rw [hlen]
        exact hfits.inside
      have hout : out = buf.take f.offset ++ bytes ++ buf.drop (f.offset + bytes.length) := by
        simp only [Takes, hbit] at htakes
        obtain ⟨hty, hcount, -⟩ := htakes
        simp only [AssemblyLayout.insertField, hbit, hty, hcount, ne_eq, not_true_eq_false,
          if_false, hbytes, AssemblyLayout.overwrite, if_pos hroom] at h
        exact (Except.ok.inj h).symm
      have hslice : (out.drop f.offset).take (fieldSpan f) = bytes := by
        rw [hout, ← hlen]
        exact slice_splice hroom
      have helements := decode_elements hfits.elementary hfits.count_pos hlen
      rw [hdecode] at helements
      simp only [reading, hbit, hslice]
      exact (Except.ok.inj helements).symm

/-- Homogeneous values leave alone a field that is disjoint from those they name. -/
theorem agreeOn_of_insertAll {layout : AssemblyLayout} {values : List (ℕ × CipValue)}
    (hvalues : ∀ kv ∈ values, Homogeneous kv.2) {buf out : Bytes}
    (hlen : buf.length = layout.dataSize) (h : layout.insertAll values buf = .ok out)
    {region : Set Cell} (hdisjoint : Disjoint region (namedCells layout values)) :
    AgreeOn region out buf := by
  intro c hc
  have haccept := (insertAll_spec layout values hlen).1.mpr ⟨out, h⟩
  have hnone : stamps layout values c = none := by
    by_contra hstamp
    obtain ⟨kv, hkv, f, hf, hfc⟩ := exists_stamp_of_stamps hstamp
    obtain ⟨g, hg, htakes⟩ := haccept kv hkv
    cases hf.symm.trans hg
    have hfits := fieldFits_of_mem layout (namedField_mem hf)
    have hcell := mem_fieldCells_of_stamp hfits htakes (hvalues kv hkv) hfc
    exact Set.disjoint_left.mp hdisjoint hc ⟨kv, hkv, f, hf, hcell⟩
  rw [(insertAll_spec layout values hlen).2 out h c, hnone]
  rfl

/-- A list of insertions, taken apart at one of them. -/
theorem insertAll_split {layout : AssemblyLayout} {pre post : List (ℕ × CipValue)}
    {kv : ℕ × CipValue} {f : FieldSpec} (hf : namedField layout kv.1 = some f) {buf out : Bytes}
    (h : layout.insertAll (pre ++ kv :: post) buf = .ok out) :
    ∃ mid mid', mid.length = buf.length ∧ AssemblyLayout.insertField f kv.2 mid = .ok mid' ∧
      layout.insertAll post mid' = .ok out := by
  induction pre generalizing buf with
  | nil =>
      rw [List.nil_append, insertAll_cons hf] at h
      obtain ⟨mid', hmid, hout⟩ := bind_ok.mp h
      exact ⟨buf, mid', rfl, hmid, hout⟩
  | cons kv' pre ih =>
      obtain ⟨key, value⟩ := kv'
      simp only [List.cons_append, AssemblyLayout.insertAll] at h
      split at h
      · cases h
      · obtain ⟨next, hnext, hout⟩ := bind_ok.mp h
        obtain ⟨mid, mid', hmid, hrest⟩ := ih hout
        exact ⟨mid, mid', hmid.trans (AssemblyLayout.insertField_length hnext), hrest⟩

/-- A decoded assembly, looked up by key, gives the reading of the field the key names. -/
theorem lookup_readings (fields : List FieldSpec) (data : Bytes) (key : ℕ) :
    (fields.map fun f => (f.key, reading f data)).lookup key =
      (fields.find? (·.key == key)).map fun f => reading f data := by
  induction fields with
  | nil => rfl
  | cons f fields ih =>
      rw [List.map_cons, List.lookup_cons, List.find?_cons, Bool.beq_comm]
      by_cases hkey : f.key == key
      · simp only [hkey, Option.map_some]
      · simp only [Bool.not_eq_true _ |>.mp hkey, ih]

/-- With distinct keys, a field is the one its key names. -/
theorem find?_of_mem {fields : List FieldSpec} (hkeys : (fields.map FieldSpec.key).Nodup)
    {f : FieldSpec} (hf : f ∈ fields) : fields.find? (·.key == f.key) = some f := by
  induction fields with
  | nil => cases hf
  | cons g fields ih =>
      obtain ⟨hfresh, hrest⟩ := List.nodup_cons.mp hkeys
      rw [List.find?_cons]
      cases List.mem_cons.mp hf with
      | inl heq => simp only [← heq, beq_self_eq_true]
      | inr hmem =>
          have hne : (g.key == f.key) = false := by
            apply beq_eq_false_iff_ne.mpr
            intro heq
            exact hfresh (heq ▸ List.mem_map_of_mem hmem)
          simp only [hne, ih hrest hmem]

/-- After a write of homogeneous values the assembly decodes, and a field reads as the value
that was written to it where no later value touches its cells (an array of one element as that
element), and as before where no value touches them. -/
theorem assembly_read_back {fields : List FieldSpec} {dataSize : UInt64} {layout : AssemblyLayout}
    (hnew : AssemblyLayout.newChecked fields dataSize = .ok layout)
    (hkeys : (fields.map FieldSpec.key).Nodup) {values : List (ℕ × CipValue)}
    (hvalues : ∀ kv ∈ values, Homogeneous kv.2) {buf out : Bytes}
    (h : layout.encodeInto values buf = .ok out) :
    ∃ before after, layout.decode buf = .ok before ∧ layout.decode out = .ok after ∧
      (∀ f ∈ fields, ∀ pre v post, values = pre ++ (f.key, v) :: post →
        Disjoint (fieldCells f) (namedCells layout post) →
          after.lookup f.key = some (asRead v)) ∧
      ∀ f ∈ fields, Disjoint (fieldCells f) (namedCells layout values) →
        ∃ v, before.lookup f.key = some v ∧ after.lookup f.key = some v := by
  rw [AssemblyLayout.newChecked_eq_new] at hnew
  obtain ⟨hfields, hsize⟩ := AssemblyLayout.new_ok hnew
  subst hfields
  obtain ⟨houtLen, hbufLen⟩ := AssemblyLayout.encodeInto_length h
  have hword : layout.dataSize < Usize.limit := by
    rw [hsize]
    exact dataSize.toNat_lt
  rw [AssemblyLayout.encodeInto, if_neg fun hne => hne hbufLen] at h
  have hlookup : ∀ f ∈ layout.fields, ∀ data : Bytes,
      (layout.fields.map fun g => (g.key, reading g data)).lookup f.key =
        some (reading f data) := by
    intro f hf data
    rw [lookup_readings, find?_of_mem hkeys hf]
    rfl
  refine ⟨_, _, decode_eq_readings hbufLen (by rwa [hbufLen]),
    decode_eq_readings houtLen (by rwa [houtLen]), ?_, ?_⟩
  · intro f hf pre v post hsplit hdisjoint
    have hnamed : namedField layout f.key = some f := find?_of_mem hkeys hf
    subst hsplit
    obtain ⟨mid, mid', hmidLen, hmid, hpost⟩ :
        ∃ mid mid' : Bytes, _ ∧ AssemblyLayout.insertField f v mid = .ok mid' ∧ _ :=
      insertAll_split hnamed h
    have hlen' : mid'.length = layout.dataSize :=
      (AssemblyLayout.insertField_length hmid).trans (hmidLen.trans hbufLen)
    have hfits : FieldFits f mid.length := by
      rw [hmidLen, hbufLen]
      exact fieldFits_of_mem layout hf
    have hv : Homogeneous v := hvalues (f.key, v) (by simp)
    have hagree := agreeOn_of_insertAll (fun kv hkv => hvalues kv (by simp [hkv])) hlen' hpost
      hdisjoint
    rw [hlookup f hf, reading_congr (houtLen.trans hlen'.symm) hagree,
      reading_of_insertField hfits hv hmid]
  · intro f hf hdisjoint
    have hagree := agreeOn_of_insertAll hvalues hbufLen h hdisjoint
    refine ⟨reading f buf, hlookup f hf buf, ?_⟩
    rw [hlookup f hf, reading_congr (houtLen.trans hbufLen.symm) hagree]

/-- The layout of the status fields. -/
def statusLayout : AssemblyLayout := ⟨statusFields, 9, by decide⟩

/-- A DINT as an array of one element, then a bit of the status byte. -/
def statusWrite : List (ℕ × CipValue) := [(0, .array .dint [.dint 7]), (2, .bool true)]

/-- The DINT reads back as a scalar, and the two INTs behind the status byte as before. -/
theorem assembly_read_back_status :
    ∃ out before after, statusLayout.encodeInto statusWrite (List.replicate 9 0) = .ok out ∧
      statusLayout.decode (List.replicate 9 0) = .ok before ∧
      statusLayout.decode out = .ok after ∧ after.lookup 0 = some (.dint 7) ∧
      ∃ v, before.lookup 3 = some v ∧ after.lookup 3 = some v := by
  have hkeys : (statusFields.map FieldSpec.key).Nodup := by decide
  have hvalues : ∀ kv ∈ statusWrite, Homogeneous kv.2 := by
    intro kv hkv ty elems harray e he
    simp only [statusWrite, List.mem_cons, List.not_mem_nil, or_false] at hkv
    obtain rfl | rfl := hkv
    · cases harray
      rw [List.mem_singleton.mp he]
      exact ⟨trivial, rfl⟩
    · cases harray
  have hnamed : ∀ c ∈ namedCells statusLayout statusWrite, c.byte < 5 := by
    rintro c ⟨kv, hkv, f, hf, hc⟩
    simp only [statusWrite, List.mem_cons, List.not_mem_nil, or_false] at hkv
    obtain rfl | rfl := hkv
    · cases hf
      exact hc.2.1.trans (by decide)
    · cases hf
      rw [Set.mem_singleton_iff.mp hc]
      decide
  have hbit : ∀ c ∈ namedCells statusLayout [(2, .bool true)], 4 ≤ c.byte := by
    rintro c ⟨kv, hkv, f, hf, hc⟩
    rw [List.mem_singleton.mp hkv] at hf
    cases hf
    rw [Set.mem_singleton_iff.mp hc]
  have hnew : AssemblyLayout.newChecked statusFields 9 = .ok statusLayout := rfl
  have hout : statusLayout.encodeInto statusWrite (List.replicate 9 0) =
      .ok [7, 0, 0, 0, 8, 0, 0, 0, 0] := rfl
  obtain ⟨before, after, hbefore, hafter, hwritten, hkept⟩ :=
    assembly_read_back hnew hkeys hvalues hout
  refine ⟨_, before, after, hout, hbefore, hafter, ?_, ?_⟩
  · apply hwritten ⟨0, 0, .dint, none, 1⟩ (by decide) [] (.array .dint [.dint 7])
      [(2, .bool true)] rfl
    apply Set.disjoint_left.mpr
    intro c hc hlater
    have hlow : c.byte < 4 := hc.2.1
    exact absurd (hbit c hlater) (Nat.not_le.mpr hlow)
  · apply hkept ⟨3, 5, .int, none, 2⟩ (by decide)
    apply Set.disjoint_left.mpr
    intro c hc hwrite
    have hhigh : 5 ≤ c.byte := hc.1
    exact absurd (hnamed c hwrite) (Nat.not_lt.mpr hhigh)

end EnipAdapter.Analysis
