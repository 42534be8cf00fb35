import EnipAdapter.Interface.RoundTripContract

/-!
# Elementary values, written and read back

The decoder counts elements and the encoder recurses over them; they meet at one element. A
scalar is read off exactly as many bytes as its type is wide and written back as those bytes,
with every non-zero BOOL normalised, and the arrays follow.
-/

set_option autoImplicit false

namespace EnipAdapter.Analysis

open EnipAdapter.Foundation EnipAdapter.Model EnipAdapter.Interface
open EnipAdapter.Model.CipValue

/-! ## One element -/

/-- An element takes a byte at least. -/
theorem elementSize_pos {ty : CipType} {size : ℕ} (h : ty.elementSize = some size) : 0 < size := by
  cases ty <;> simp only [CipType.elementSize, Option.some.injEq, reduceCtorEq] at h <;> omega

/-- Only a BOOL is normalised. -/
theorem map_normalByte {ty : CipType} (h : ty ≠ .bool) (bytes : Bytes) :
    bytes.map (normalByte ty) = bytes := by
  have hid : normalByte ty = id := by
    funext b
    exact if_neg fun hb => h hb.1
  rw [hid, List.map_id]

/-- A scalar is written with as many bytes as its type is wide, and read back from them. -/
theorem scalar_encode {ty : CipType} {v : CipValue} (h : ScalarOf ty v) :
    ∃ bytes, encodeValue v = .ok bytes ∧ ty.elementSize = some bytes.length ∧
      ∀ r : WireReader, decodeScalar ty (r.unread bytes) = .ok (v, r) := by
  obtain ⟨hscalar, rfl⟩ := h
  cases v with
  | bool v =>
      refine ⟨_, by rw [encodeValue], rfl, ?_⟩
      intro r
      have hread := WireReader.u8_append (if v then 0xFF else 0x00) r.rest r.context
      have hvalue : ((if v then (0xFF : UInt8) else 0x00) != 0) = v := by cases v <;> decide
      simp only [wireType, decodeScalar, WireReader.unread]
      rw [show [if v then (0xFF : UInt8) else 0x00] = putU8 (if v then 0xFF else 0x00) from rfl,
        hread]
      simp only [bind, Except.bind, pure, Except.pure, hvalue]
  | array ty elems => exact hscalar.elim
  | struct handle len => exact hscalar.elim
  | unsupported code len => exact hscalar.elim
  | _ =>
      refine ⟨_, by rw [encodeValue], by simp [wireType, CipType.elementSize], ?_⟩
      intro r
      simp only [wireType, decodeScalar, WireReader.unread, WireReader.u8_append,
        WireReader.u16_append, WireReader.u32_append, WireReader.u64_append, bind, Except.bind,
        pure, Except.pure, Int8.toInt8_toUInt8, Int16.toInt16_toUInt16,
        Int32.toInt32_toUInt32, Int64.toInt64_toUInt64]

/-- A scalar that was read is of the type asked for, and is written as the bytes it was read
from, each of them normalised. -/
theorem scalar_decode {ty : CipType} {r r' : WireReader} {v : CipValue}
    (h : decodeScalar ty r = .ok (v, r')) :
    ScalarOf ty v ∧ ∃ bytes, r = r'.unread bytes ∧
      encodeValue v = .ok (bytes.map (normalByte ty)) ∧ ty.elementSize = some bytes.length := by
  cases ty with
  | bool =>
      obtain ⟨⟨b, r₁⟩, hread, h⟩ := bind_ok.mp h
      cases h
      refine ⟨⟨trivial, rfl⟩, putU8 b, WireReader.eq_unread_of_u8 hread, ?_, rfl⟩
      by_cases hb : b = 0
      · subst hb
        rfl
      · have hnormal : normalByte .bool b = 0xFF := if_pos ⟨rfl, hb⟩
        have hvalue : (b != 0) = true := bne_iff_ne.mpr hb
        rw [encodeValue, hvalue, putU8, List.map_singleton, hnormal]
        rfl
  | string => cases h
  | struct => cases h
  | unknown code => cases h
  | sint | usint | byte =>
      obtain ⟨⟨b, r₁⟩, hread, h⟩ := bind_ok.mp h
      cases h
      refine ⟨⟨trivial, rfl⟩, putU8 b, WireReader.eq_unread_of_u8 hread, ?_, rfl⟩
      rw [map_normalByte (by decide)]
      simp only [encodeValue, UInt8.toUInt8_toInt8]
  | int | uint | word =>
      obtain ⟨⟨w, r₁⟩, hread, h⟩ := bind_ok.mp h
      cases h
      refine ⟨⟨trivial, rfl⟩, putU16 w, WireReader.eq_unread_of_u16 hread, ?_,
        by rw [putU16_length]; rfl⟩
      rw [map_normalByte (by decide)]
      simp only [encodeValue, UInt16.toUInt16_toInt16]
  | dint | udint | dword | real =>
      obtain ⟨⟨w, r₁⟩, hread, h⟩ := bind_ok.mp h
      cases h
      refine ⟨⟨trivial, rfl⟩, putU32 w, WireReader.eq_unread_of_u32 hread, ?_,
        by rw [putU32_length]; rfl⟩
      rw [map_normalByte (by decide)]
      simp only [encodeValue, UInt32.toUInt32_toInt32]
  | lint | ulint | lword | lreal =>
      obtain ⟨⟨w, r₁⟩, hread, h⟩ := bind_ok.mp h
      cases h
      refine ⟨⟨trivial, rfl⟩, putU64 w, WireReader.eq_unread_of_u64 hread, ?_,
        by rw [putU64_length]; rfl⟩
      rw [map_normalByte (by decide)]
      simp only [encodeValue, UInt64.toUInt64_toInt64]

/-- Where there are bytes enough for one element, one is read. -/
theorem scalar_isOk {ty : CipType} {size : ℕ} (hsize : ty.elementSize = some size) (r : WireReader)
    (h : size ≤ r.rest.length) :
    ∃ v r', decodeScalar ty r = .ok (v, r') ∧ r.rest.length = size + r'.rest.length := by
  have htake : r.take size = .ok (r.rest.take size, { r with rest := r.rest.drop size }) :=
    if_pos h
  have hread : ∃ v r', decodeScalar ty r = .ok (v, r') := by
    cases ty <;> cases hsize <;>
      simp only [decodeScalar, WireReader.u8, WireReader.u16, WireReader.u32, WireReader.u64,
        htake, bind, Except.bind, pure, Except.pure] <;>
      exact ⟨_, _, rfl⟩
  obtain ⟨v, r', hv⟩ := hread
  obtain ⟨-, bytes, hr, -, hlen⟩ := scalar_decode hv
  refine ⟨v, r', hv, ?_⟩
  rw [hsize] at hlen
  rw [Option.some.inj hlen, hr, WireReader.unread, List.length_append]

/-! ## Many elements -/

/-- Scalars are read one after the other. -/
theorem decodeScalars_eq (ty : CipType) (n : ℕ) (r : WireReader) :
    decodeScalars ty n r = readMany (decodeScalar ty) n r := by
  induction n generalizing r with
  | zero => rfl
  | succ n ih =>
      rw [decodeScalars, readMany]
      simp only [ih]

/-- Elements are written one after the other. -/
theorem encodeElems_eq (vs : List CipValue) : encodeElems vs = writeMany encodeValue vs := by
  induction vs with
  | nil => rw [encodeElems, writeMany]
  | cons v vs ih => rw [encodeElems, writeMany, ih]

/-- Scalars of one type are written with a multiple of its width. -/
theorem writeMany_scalars {ty : CipType} {size : ℕ} (hsize : ty.elementSize = some size)
    {vs : List CipValue} (h : ∀ v ∈ vs, ScalarOf ty v) :
    ∃ bytes, writeMany encodeValue vs = .ok bytes ∧ bytes.length = vs.length * size := by
  induction vs with
  | nil => exact ⟨[], rfl, by simp⟩
  | cons v vs ih =>
      obtain ⟨head, hhead, hwidth, -⟩ := scalar_encode (h v List.mem_cons_self)
      obtain ⟨tail, htail, hlen⟩ := ih fun w hw => h w (List.mem_cons_of_mem v hw)
      rw [hsize] at hwidth
      refine ⟨head ++ tail, writeMany_cons_ok hhead htail, ?_⟩
      rw [List.length_append, hlen, ← Option.some.inj hwidth, List.length_cons, Nat.succ_mul]
      omega

/-! ## Values -/

/-- All but one element make an array. -/
theorem ofElements_of_ne_one (ty : CipType) {vs : List CipValue} (h : vs.length ≠ 1) :
    ofElements ty vs = .array ty vs := by
  cases vs with
  | nil => rfl
  | cons v vs =>
      cases vs with
      | nil => exact absurd rfl h
      | cons w vs => rfl

/-- Elements of a type make a value of that many elements. -/
theorem hasElements_ofElements {ty : CipType} {vs : List CipValue} (h : ∀ v ∈ vs, ScalarOf ty v) :
    HasElements ty vs.length (ofElements ty vs) := by
  by_cases hone : vs.length = 1
  · obtain ⟨v, rfl⟩ := List.length_eq_one_iff.mp hone
    have hv := h v (List.mem_singleton_self v)
    refine ⟨?_, by rw [if_pos hone]; exact hv⟩
    show v.elementCount = 1
    cases v <;> first | rfl | exact hv.1.elim
  · rw [ofElements_of_ne_one ty hone]
    refine ⟨rfl, ?_⟩
    rw [if_neg hone]
    exact ⟨vs, rfl, h⟩

/-- The value of some elements is written element by element. -/
theorem encode_ofElements (ty : CipType) (vs : List CipValue) :
    encodeValue (ofElements ty vs) = writeMany encodeValue vs := by
  by_cases hone : vs.length = 1
  · obtain ⟨v, rfl⟩ := List.length_eq_one_iff.mp hone
    show encodeValue v = _
    simp only [writeMany, bind, Except.bind, pure, Except.pure]
    cases encodeValue v with
    | error e => rfl
    | ok bytes => simp only [List.append_nil]
  · rw [ofElements_of_ne_one ty hone, encodeValue, encodeElems_eq]

/-- The decoder reads as many elements as the bytes have room for, and makes a value of them. -/
theorem decode_eq_ok_iff {ty : CipType} {size : ℕ} (hsize : ty.elementSize = some size)
    {b : Bytes} (hb : b ≠ []) (v : CipValue) :
    CipValue.decode ty b = .ok v ↔
      size ∣ b.length ∧ ∃ vs r, readMany (decodeScalar ty) (b.length / size) ⟨b, "cip value"⟩ =
        .ok (vs, r) ∧ r.rest = [] ∧ v = ofElements ty vs := by
  have hpos := elementSize_pos hsize
  have hlen : 0 < b.length := List.length_pos_iff.mpr hb
  by_cases hdvd : size ∣ b.length
  · have hmod : ¬ b.length % size ≠ 0 := fun h => h (Nat.mod_eq_zero_of_dvd hdvd)
    have hcount : ¬ b.length / size = 0 := by
      have hle := Nat.div_pos (Nat.le_of_dvd hlen hdvd) hpos
      omega
    simp only [CipValue.decode, hsize, if_neg hmod, if_neg hcount, hdvd, true_and,
      WireReader.withContext]
    generalize b.length / size = n
    by_cases hone : n = 1
    · subst hone
      rw [if_pos rfl]
      constructor
      · intro h
        obtain ⟨⟨w, r⟩, hw, h⟩ := bind_ok.mp h
        obtain ⟨_, hend, h⟩ := bind_ok.mp h
        cases h
        exact ⟨[w], r, readMany_succ_ok hw rfl, WireReader.rest_of_expectEnd hend, rfl⟩
      · rintro ⟨vs, r, hread, hend, rfl⟩
        obtain ⟨w, s₁, vs', hw, hnil, rfl⟩ := readMany_succ_eq_ok hread
        cases hnil
        have hall : r.expectEnd = .ok () := if_pos (by rw [WireReader.remaining, hend]; rfl)
        simp only [hw, hall, bind, Except.bind, pure, Except.pure]
        rfl
    · rw [if_neg hone, decodeScalars_eq]
      constructor
      · intro h
        obtain ⟨⟨vs, r⟩, hvs, h⟩ := bind_ok.mp h
        obtain ⟨_, hend, h⟩ := bind_ok.mp h
        cases h
        have hmany : vs.length ≠ 1 := by
          rwa [length_of_readMany hvs]
        exact ⟨vs, r, hvs, WireReader.rest_of_expectEnd hend, (ofElements_of_ne_one ty hmany).symm⟩
      · rintro ⟨vs, r, hread, hend, rfl⟩
        have hmany : vs.length ≠ 1 := by
          rwa [length_of_readMany hread]
        have hall : r.expectEnd = .ok () := if_pos (by rw [WireReader.remaining, hend]; rfl)
        rw [ofElements_of_ne_one ty hmany]
        simp only [hread, hall, bind, Except.bind, pure, Except.pure]
  · have hmod : b.length % size ≠ 0 := fun h => hdvd (Nat.dvd_of_mod_eq_zero h)
    simp only [CipValue.decode, hsize, if_pos hmod, hdvd, false_and, reduceCtorEq]

/-- Bytes of a whole number of elements are decoded. -/
theorem decode_isOk {ty : CipType} {size : ℕ} (hsize : ty.elementSize = some size) {b : Bytes}
    (hb : b ≠ []) (hdvd : size ∣ b.length) : ∃ v, CipValue.decode ty b = .ok v := by
  have hall : b.length / size * size = b.length := Nat.div_mul_cancel hdvd
  obtain ⟨vs, r, hread, hroom⟩ : ∃ vs r, readMany (decodeScalar ty) (b.length / size)
      ⟨b, "cip value"⟩ = .ok (vs, r) ∧ _ :=
    readMany_isOk (fun r => r.rest.length) (scalar_isOk hsize) (by rw [hall])
  have hend : r.rest = [] := by
    apply List.eq_nil_of_length_eq_zero
    have hsum : b.length = b.length / size * size + r.rest.length := hroom
    omega
  exact ⟨_, (decode_eq_ok_iff hsize hb _).mpr ⟨hdvd, vs, r, hread, hend, rfl⟩⟩

/-- What was decoded has as many elements as the bytes have room for, and is encoded as the
bytes it was decoded from, each of them normalised. -/
theorem decode_spec_of_ok {ty : CipType} {size : ℕ} (hsize : ty.elementSize = some size)
    {b : Bytes} (hb : b ≠ []) {v : CipValue} (h : CipValue.decode ty b = .ok v) :
    HasElements ty (b.length / size) v ∧ encodeValue v = .ok (b.map (normalByte ty)) := by
  obtain ⟨-, vs, r, hread, hend, rfl⟩ := (decode_eq_ok_iff hsize hb v).mp h
  have hscalars : ∀ v ∈ vs, ScalarOf ty v :=
    forall_of_readMany (fun _ _ _ hv => (scalar_decode hv).1) hread
  obtain ⟨bytes, hr, hwrite⟩ : ∃ bytes : Bytes, _ ∧
      writeMany encodeValue vs = .ok (bytes.map (normalByte ty)) :=
    writeMany_of_readMany wireTape (normalByte ty) (by
      intro s w s' hw
      obtain ⟨-, bytes, hs, hencode, -⟩ := scalar_decode hw
      exact ⟨bytes, hs, hencode⟩) hread
  have hbytes : b = bytes := by
    have hrest := congrArg WireReader.rest hr
    simp only [wireTape, WireReader.unread, hend, List.append_nil] at hrest
    exact hrest
  refine ⟨?_, by rw [encode_ofElements, hwrite, hbytes]⟩
  rw [← length_of_readMany hread]
  exact hasElements_ofElements hscalars

/-- The value of some scalars of a type is encoded, and decoded back. -/
theorem decode_encode_ofElements {ty : CipType} {vs : List CipValue} (hne : vs ≠ [])
    (h : ∀ v ∈ vs, ScalarOf ty v) :
    ∃ bytes, encodeValue (ofElements ty vs) = .ok bytes ∧
      CipValue.decode ty bytes = .ok (ofElements ty vs) := by
  obtain ⟨v, hv⟩ := List.exists_mem_of_ne_nil vs hne
  obtain ⟨head, -, hsize, -⟩ := scalar_encode (h v hv)
  have hpos := elementSize_pos hsize
  obtain ⟨bytes, hbytes, hlen⟩ := writeMany_scalars hsize h
  have hdiv : bytes.length / head.length = vs.length := by
    rw [hlen, Nat.mul_div_cancel _ hpos]
  have hnil : bytes ≠ [] := by
    intro hempty
    have hzero : vs.length * head.length = 0 := by rw [← hlen, hempty]; rfl
    have hsome : 0 < vs.length := List.length_pos_iff.mpr hne
    exact absurd hzero (Nat.mul_pos hsome hpos).ne'
  have hread : readMany (decodeScalar ty) vs.length _ = _ := readMany_of_writeMany wireTape (by
    intro w hw bs r hwrite
    obtain ⟨bs', hencode, -, hback⟩ := scalar_encode (h w hw)
    cases hencode.symm.trans hwrite
    exact hback r) hbytes ⟨[], "cip value"⟩
  simp only [wireTape, WireReader.unread, List.append_nil] at hread
  refine ⟨bytes, by rw [encode_ofElements, hbytes], ?_⟩
  apply (decode_eq_ok_iff hsize hnil _).mpr
  refine ⟨⟨vs.length, by rw [hlen, Nat.mul_comm]⟩, vs, ⟨[], "cip value"⟩, ?_, rfl, rfl⟩
  rw [hdiv, hread]

/-- Bytes of an elementary type decode exactly where they are a whole number of elements; the
value has that many elements and is encoded as the bytes it came from, up to the spelling of a
true BOOL; and every scalar and every homogeneous array of two elements or more is decoded back
from its encoding. -/
theorem cip_value_round_trip :
    (∀ ty size, ty.elementSize = some size → ∀ b, b ≠ [] →
      ((∃ v, CipValue.decode ty b = .ok v) ↔ size ∣ b.length) ∧
      ∀ v, CipValue.decode ty b = .ok v →
        HasElements ty (b.length / size) v ∧ encodeValue v = .ok (b.map (normalByte ty))) ∧
      ∀ v, IsScalar v ∨ HomogeneousArray v →
        ∃ bytes, encodeValue v = .ok bytes ∧ CipValue.decode v.wireType bytes = .ok v := by
  refine ⟨?_, ?_⟩
  · intro ty size hsize b hb
    refine ⟨⟨?_, decode_isOk hsize hb⟩, fun v h => decode_spec_of_ok hsize hb h⟩
    rintro ⟨v, h⟩
    exact ((decode_eq_ok_iff hsize hb v).mp h).1
  · intro v hv
    cases hv with
    | inl hscalar =>
        have hone : ∀ w ∈ [v], ScalarOf v.wireType w := by
          intro w hw
          rw [List.mem_singleton.mp hw]
          exact ⟨hscalar, rfl⟩
        exact decode_encode_ofElements (List.cons_ne_nil v []) hone
    | inr harray =>
        obtain ⟨ty, elems, rfl, hmany, hall⟩ := harray
        have hne : elems ≠ [] := by
          intro hnil
          rw [hnil] at hmany
          exact absurd hmany (by decide)
        have hback := decode_encode_ofElements hne hall
        rwa [ofElements_of_ne_one ty (by omega)] at hback

end EnipAdapter.Analysis
