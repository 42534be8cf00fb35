import EnipAdapter.Analysis.IntegerWrite
import EnipAdapter.Analysis.TagRead
import EnipAdapter.Analysis.ValueRoundTrip
import EnipAdapter.Interface.RoundTripContract

/-!
# What is read can be written back

An element is published as the JSON that a write makes the very element of again. A scalar
signal and an array of two elements or more come back whole; an array of one element is
published as its bare element, and a write of the array takes the element inside an array only.
-/

set_option autoImplicit false

namespace EnipAdapter.Analysis

open EnipAdapter.Foundation EnipAdapter.Model EnipAdapter.Interface

/-! ## One element -/

/-- An integer's JSON is the number it says. -/
theorem numberOf_intJson (n : Int64) : numberOf (intJson n) = some (n.toInt : ℚ) := by
  unfold intJson
  by_cases hneg : n < 0
  · rw [dif_pos hneg]
    rfl
  · rw [dif_neg hneg]
    have hpos : 0 ≤ n := Int64.not_lt.mp hneg
    have hint : 0 ≤ n.toInt := by simpa [Int64.le_iff_toInt_le] using hpos
    have hnat : (n.toUInt64.toNat : ℤ) = n.toInt := by
      rw [Int64.toNat_toUInt64_of_le hpos]
      exact Int.toNat_of_nonneg hint
    show some ((n.toUInt64.toNat : ℕ) : ℚ) = some (n.toInt : ℚ)
    rw [← hnat, Int.cast_natCast]

/-- An integer is published as the JSON number that denotes it. -/
theorem numberOf_nativeIntJson {v : CipValue} {k : ℤ} (h : integerOf v = some k) :
    numberOf (nativeIntJson v) = some (k : ℚ) := by
  cases v with
  | sint x | int x | dint x =>
    cases h
    unfold nativeIntJson
    rw [numberOf_intJson]
    simp only [Int8.toInt_toInt64, Int16.toInt_toInt64, Int32.toInt_toInt64]
  | lint x =>
    cases h
    exact numberOf_intJson x
  | usint x | uint x | udint x | ulint x =>
    cases h
    exact congrArg some (Int.cast_natCast _).symm
  | _ => cases h

/-- A scalar of an integer type holds an integer. -/
theorem integerOf_scalar {ty : EipType} (hty : isIntegerType ty = true) {v : CipValue}
    (hv : ScalarOf ty.cipType v) : ∃ k, integerOf v = some k := by
  cases v with
  | sint x | int x | dint x | lint x | usint x | uint x | udint x | ulint x => exact ⟨_, rfl⟩
  | array _ _ | struct _ _ | unsupported _ _ => exact hv.1.elim
  | _ =>
    have htype := hv.2
    cases ty <;> first
      | exact absurd hty Bool.false_ne_true
      | cases htype

/-- Without a transform an integer keeps its precision in the JSON. -/
theorem decodeScalarJson_integer {ty : EipType} (hty : isIntegerType ty = true) {v : CipValue}
    {k : ℤ} (hk : integerOf v = some k) :
    decodeScalarJson v ty none none = .ok ⟨nativeIntJson v, false⟩ := by
  have hbool : ty ≠ .bool := by
    intro h
    rw [h] at hty
    cases hty
  unfold decodeScalarJson
  rw [if_neg hbool]
  cases v with
  | sint x | int x | dint x | lint x | usint x | uint x | udint x | ulint x => rfl
  | _ => cases hk

/-- An element of a BOOL or integer type is published, as JSON that is no array and is written
as the same element. -/
theorem element_writes_back {ty : EipType} (hty : ty = .bool ∨ isIntegerType ty = true)
    {v : CipValue} (hv : ScalarOf ty.cipType v) :
    ∃ j, decodeScalarJson v ty none none = .ok ⟨j, false⟩ ∧ j.asArray = none ∧
      encodeScalar j ty none none = .ok v := by
  obtain rfl | hint := hty
  · cases v with
    | bool b => exact ⟨.bool b, rfl, rfl, rfl⟩
    | array _ _ | struct _ _ | unsupported _ _ => exact hv.1.elim
    | _ => cases hv.2
  · obtain ⟨k, hk⟩ := integerOf_scalar hint hv
    have hnumber := numberOf_nativeIntJson hk
    have hwrite : encodeScalar (nativeIntJson v) ty none none = .ok v :=
      (encodeScalar_integer_iff hint _ v).mpr
        ⟨hv, k, ⟨hnumber, inRange_integerOf hv hk⟩, hk⟩
    refine ⟨nativeIntJson v, decodeScalarJson_integer hint hk, ?_, hwrite⟩
    cases hjson : nativeIntJson v with
    | arr items =>
      rw [hjson] at hnumber
      cases hnumber
    | _ => rfl

/-! ## A whole value -/

/-- Elements that were read are encoded back as what they were. -/
theorem elements_write_back {ty : EipType} (hty : ty = .bool ∨ isIntegerType ty = true)
    {vs : List CipValue} (hvs : ∀ v ∈ vs, ScalarOf ty.cipType v) :
    ∃ js : List Json, decodeElementsJson ty none none vs = .ok (js.map fun j => ⟨j, false⟩) ∧
      List.Forall₂ (fun j v => encodeScalar j ty none none = .ok v) js vs := by
  induction vs with
  | nil => exact ⟨[], rfl, .nil⟩
  | cons v vs ih =>
    obtain ⟨j, hj, -, hv⟩ := element_writes_back hty (hvs v List.mem_cons_self)
    obtain ⟨js, hjs, hall⟩ := ih fun w hw => hvs w (List.mem_cons_of_mem _ hw)
    exact ⟨j :: js, bind_ok.mpr ⟨_, hj, bind_ok.mpr ⟨_, hjs, rfl⟩⟩, .cons hv hall⟩

/-- The type of what was decoded is the one that was declared. -/
theorem wireType_of_hasElements {ty : CipType} {n : ℕ} {v : CipValue} (h : HasElements ty n v) :
    v.wireType = ty := by
  obtain ⟨-, h⟩ := h
  split at h
  · exact h.2
  · obtain ⟨elems, rfl, -⟩ := h
    rfl

/-- A value of another type than the configured one is not published. -/
theorem decodeValue_wireType {v : CipValue} {ty : EipType} {scale offset : Option F64}
    {decoded : Decoded} (h : decodeValue v ty scale offset = .ok decoded) :
    v.wireType = ty.cipType := by
  by_contra hother
  unfold decodeValue at h
  cases v with
  | array elTy elems =>
    simp only [if_pos (show elTy ≠ ty.cipType from hother)] at h
    cases h
  | _ =>
    simp only [if_pos hother] at h
    cases h

/-- A scalar is decoded as one. -/
theorem decodeValue_scalar {v : CipValue} {ty : EipType} (hv : ScalarOf ty.cipType v)
    (scale offset : Option F64) :
    decodeValue v ty scale offset = decodeScalarJson v ty scale offset := by
  have htype : ¬ v.wireType ≠ ty.cipType := not_not.mpr hv.2
  unfold decodeValue
  cases v with
  | array elTy elems => exact hv.1.elim
  | _ => exact if_neg htype

/-- An array is decoded element by element. -/
theorem decodeValue_array {ty : EipType} {vs : List CipValue} {js : List Json}
    {scale offset : Option F64}
    (h : decodeElementsJson ty scale offset vs = .ok (js.map fun j => ⟨j, false⟩)) :
    decodeValue (.array ty.cipType vs) ty scale offset = .ok ⟨.arr js, false⟩ := by
  have hfinite : ((js.map fun j => (⟨j, false⟩ : Decoded)).any (·.nonFinite)) = false := by
    rw [List.any_map]
    exact List.any_eq_false.mpr fun _ _ => Bool.false_ne_true
  unfold decodeValue
  simp only [ne_eq, not_true_eq_false, if_false]
  refine bind_ok.mpr ⟨_, h, ?_⟩
  rw [hfinite, List.map_map]
  show Except.ok (⟨.arr (js.map id), false⟩ : Decoded) = _
  rw [List.map_id]

/-- How the elements of a value are published, and what each is written as: one by itself, more
or none in an array. -/
structure Published (ty : EipType) (n : ℕ) (v : CipValue) (j : Json) : Prop where
  one : n = 1 → j.asArray = none ∧ encodeScalar j ty none none = .ok v
  many : n ≠ 1 → ∃ js vs, j = .arr js ∧ v = .array ty.cipType vs ∧ js.length = n ∧
    List.Forall₂ (fun j v => encodeScalar j ty none none = .ok v) js vs

/-- A value of the type's elements is published for what it is. -/
theorem decodeValue_published {ty : EipType} (hty : ty = .bool ∨ isIntegerType ty = true) {n : ℕ}
    {v : CipValue} (hv : HasElements ty.cipType n v) :
    ∃ j, decodeValue v ty none none = .ok ⟨j, false⟩ ∧ Published ty n v j := by
  obtain ⟨hcount, hshape⟩ := hv
  by_cases hone : n = 1
  · rw [if_pos hone] at hshape
    obtain ⟨j, hj, hbare, hwrite⟩ := element_writes_back hty hshape
    exact ⟨j, (decodeValue_scalar hshape none none).trans hj,
      ⟨fun _ => ⟨hbare, hwrite⟩, fun hmany => absurd hone hmany⟩⟩
  · rw [if_neg hone] at hshape
    obtain ⟨vs, rfl, hvs⟩ := hshape
    obtain ⟨js, hjs, hall⟩ := elements_write_back hty hvs
    have hlength : js.length = n := hall.length_eq.trans hcount
    exact ⟨.arr js, decodeValue_array hjs,
      ⟨fun h => absurd h hone, fun _ => ⟨js, vs, rfl, rfl, hlength, hall⟩⟩⟩

/-! ## The reading -/

/-- A value that is no DWORD holds no packed booleans. -/
theorem packedDwords_eq_none {v : CipValue} (h : v.wireType ≠ .dword) : packedDwords v = none := by
  cases v with
  | dword w => exact absurd rfl h
  | array ty elems =>
    cases ty with
    | dword => exact absurd rfl h
    | _ => rfl
  | _ => rfl

section Plain

variable {spec : SignalSpec} {v : CipValue} {wireType : CipType} {logical : ℕ}

/-- A reply that is not packed and does not decode reads BAD. -/
theorem decodeReading_error (hpacked : isBoolArray spec = true → packedDwords v = none)
    {e : DecodeError} (h : decodeValue v spec.eipType spec.scale spec.offset = .error e) :
    decodeReading spec v wireType logical =
      bad spec e.qualityRaw (some (wireTypeLabel wireType)) := by
  unfold decodeReading
  by_cases harray : isBoolArray spec = true
  · simp only [if_pos harray, hpacked harray, h]
  · simp only [if_neg harray, h]

/-- A reply that decodes is judged by its number of elements, then by the value. -/
theorem decodeReading_ok (hpacked : isBoolArray spec = true → packedDwords v = none)
    {decoded : Decoded} (h : decodeValue v spec.eipType spec.scale spec.offset = .ok decoded) :
    decodeReading spec v wireType logical =
      (cardinalityMismatch v logical).elim
        (if decoded.nonFinite then uncertain spec (some (wireTypeLabel wireType))
          else good spec decoded.value (some (wireTypeLabel wireType)))
        fun detail => bad spec detail (some (wireTypeLabel wireType)) := by
  unfold decodeReading
  by_cases harray : isBoolArray spec = true
  · simp only [if_pos harray, hpacked harray, h]
    cases cardinalityMismatch v logical <;> rfl
  · simp only [if_neg harray, h]
    cases cardinalityMismatch v logical <;> rfl

/-- A GOOD reading of a reply that is not packed is the decoded value, of the configured number
of elements. -/
theorem decodeReading_good (hpacked : isBoolArray spec = true → packedDwords v = none)
    (hgood : (decodeReading spec v wireType logical).quality = .good) :
    ∃ decoded, decodeValue v spec.eipType spec.scale spec.offset = .ok decoded ∧
      v.elementCount = logical ∧ (decodeReading spec v wireType logical).value = decoded.value := by
  cases hdecoded : decodeValue v spec.eipType spec.scale spec.offset with
  | error e =>
    rw [decodeReading_error hpacked hdecoded] at hgood
    cases hgood
  | ok decoded =>
    rw [decodeReading_ok hpacked hdecoded, cardinalityMismatch] at hgood ⊢
    by_cases hcount : v.elementCount = logical
    · rw [if_neg (not_not.mpr hcount), Option.elim_none] at hgood ⊢
      cases hfinite : decoded.nonFinite with
      | true =>
        rw [hfinite] at hgood
        cases hgood
      | false => exact ⟨decoded, rfl, hcount, rfl⟩
    · rw [if_pos hcount, Option.elim_some] at hgood
      cases hgood

end Plain

/-- A GOOD reading was decoded from the answer to its tag read. -/
theorem readOne_good {session session' : EipSession} {spec : SignalSpec} {peer : Peer}
    {elapsed : Bool} {reading : Reading}
    (h : readOne session spec peer elapsed = (session', .ok reading))
    (hgood : reading.quality = .good) :
    ∃ result, TagAnswered session spec peer result ∧
      reading = decodeReading spec result.value result.wireType (logicalCount spec) := by
  obtain ⟨-, raw, hread⟩ | ⟨addr, -, -, e, hread⟩ | ⟨addr, hasked, -, e, hread⟩ :=
    readOne_cases session spec peer elapsed
  · cases hread.symm.trans h
    cases hgood
  · cases hread.symm.trans h
  · cases hanswer : readTag session.client addr (session.wireElements spec) peer with
    | ok result =>
      rw [hanswer] at hread
      cases hread.symm.trans h
      exact ⟨result, ⟨addr, hasked.parse, hanswer⟩, rfl⟩
    | error error =>
      rw [hanswer] at hread
      have hsame := congrArg Prod.snd (hread.symm.trans h)
      simp only at hsame
      cases error <;> cases hsame <;> cases hgood

/-! ## The bytes of the reply -/

/-- A value that stands for bytes nobody interprets. -/
def IsMarker : CipValue → Prop
  | .struct _ _ | .unsupported _ _ => True
  | _ => False

/-- Bytes of the reply were decoded, or it was not interpreted. -/
def Interpreted (ty : CipType) (v : CipValue) : Prop :=
  (∃ data, CipValue.decode ty data = .ok v) ∨ IsMarker v

/-- A tagged value is of the type in front of it. -/
theorem decodeTagged_interpreted {buf : Bytes} {ty : CipType} {v : CipValue}
    (h : CipValue.decodeTagged buf = .ok (ty, v)) : Interpreted ty v := by
  obtain ⟨⟨code, r⟩, -, h⟩ := bind_ok.mp h
  dsimp only at h
  split at h
  · obtain ⟨⟨handle, r'⟩, -, h⟩ := bind_ok.mp h
    cases h
    exact .inr trivial
  · cases h
    exact .inr trivial
  · cases h
    exact .inr trivial
  · obtain ⟨value, hvalue, h⟩ := bind_ok.mp h
    cases h
    exact .inl ⟨_, hvalue⟩

/-- So is a value that was put together from fragments. -/
theorem buildFragmentValue_interpreted {ty : CipType} {handle : Option UInt16} {acc : Bytes}
    {v : CipValue} (h : buildFragmentValue ty handle acc = .ok v) : Interpreted ty v := by
  unfold buildFragmentValue at h
  split at h
  · cases h
    exact .inr trivial
  · cases h
    exact .inr trivial
  · cases h
    exact .inr trivial
  · cases hdecode : CipValue.decode ty acc with
    | ok value =>
      rw [hdecode] at h
      cases h
      exact .inl ⟨acc, hdecode⟩
    | error e =>
      rw [hdecode] at h
      cases h

/-- The last turn of a fragmented read makes a value of what was reassembled. -/
theorem fragmentStep_interpreted {cap : ℕ} {st : Reassembly} {reply : MessageReply}
    {result : TagReadResult} (h : fragmentStep cap st reply = .ok (.done result)) :
    Interpreted result.wireType result.value := by
  unfold fragmentStep at h
  obtain ⟨-, -, h⟩ := bind_ok.mp h
  dsimp only at h
  split at h
  · cases h
  · obtain ⟨⟨code, handle, bytes⟩, -, h⟩ := bind_ok.mp h
    dsimp only at h
    split at h
    · cases h
    · split at h
      · split at h
        · cases h
        · cases h
      · obtain ⟨value, hvalue, h⟩ := bind_ok.mp h
        cases h
        exact buildFragmentValue_interpreted hvalue

/-- So is the result of a fragmented read. -/
theorem readFragments_interpreted {client : EipClient} {tag : TagAddress} {elements : UInt16}
    {peer : Peer} {n : ℕ} {st : Reassembly} {result : TagReadResult}
    (h : readFragments client tag elements peer n st = .ok result) :
    Interpreted result.wireType result.value := by
  -- on the bytes that still fit under the cap, of which a turn that goes on takes some
  induction hroom : client.maxValueBytes - st.acc.length using Nat.strong_induction_on
    generalizing n st with
  | _ room ih =>
    cases hsend : client.sendCip peer n
        (readTagFragmentedRequest tag elements (UInt32.ofNat st.acc.length)) with
    | error e =>
      rw [readFragments, hsend] at h
      cases h
    | ok reply =>
      rw [readFragments_eq hsend] at h
      cases hstep : fragmentStep client.maxValueBytes st reply with
      | error e =>
        rw [hstep] at h
        cases h
      | ok step =>
        rw [hstep] at h
        cases step with
        | done last =>
          cases h
          exact fragmentStep_interpreted hstep
        | more next =>
          have hprogress := fragmentStep_more hstep
          exact ih _ (by omega) h rfl

/-- So is the result of any read. -/
theorem readTag_interpreted {client : EipClient} {tag : TagAddress} {elements : UInt16}
    {peer : Peer} {result : TagReadResult} (h : readTag client tag elements peer = .ok result) :
    Interpreted result.wireType result.value := by
  unfold readTag at h
  obtain ⟨reply, -, h⟩ := bind_ok.mp h
  obtain ⟨-, -, h⟩ := bind_ok.mp h
  split at h
  · cases hdecode : CipValue.decodeTagged reply.data with
    | ok tagged =>
      rw [hdecode] at h
      cases h
      exact decodeTagged_interpreted hdecode
    | error e =>
      rw [hdecode] at h
      cases h
  · split at h
    · exact readFragments_interpreted h
    · cases h

/-- What is not interpreted is not published. -/
theorem decodeValue_marker {v : CipValue} (hv : IsMarker v) (ty : EipType)
    (scale offset : Option F64) (decoded : Decoded) :
    decodeValue v ty scale offset ≠ .ok decoded := by
  intro h
  have htype := decodeValue_wireType h
  unfold decodeValue at h
  cases v with
  | struct handle len | unsupported code len =>
    simp only [if_neg (not_not.mpr htype)] at h
    unfold decodeScalarJson at h
    split at h
    · cases h
    · cases h
  | _ => exact hv.elim

/-! ## Writing a reading back -/

/-- Data that decodes is not empty, and its type has a size. -/
theorem size_of_decode {ty : CipType} {data : Bytes} {v : CipValue}
    (h : CipValue.decode ty data = .ok v) : data ≠ [] ∧ ∃ size, ty.elementSize = some size := by
  unfold CipValue.decode at h
  cases hsize : ty.elementSize with
  | none =>
    simp only [hsize] at h
    cases h
  | some size =>
    refine ⟨?_, size, rfl⟩
    rintro rfl
    simp only [hsize, List.length_nil, Nat.zero_mod, ne_eq, not_true_eq_false, if_false,
      Nat.zero_div, if_true] at h
    cases h

/-- The value of an array signal, as its elements were published. -/
theorem array_writes_back {ty : EipType} {n : UInt32} {js : List Json} {vs : List CipValue}
    (hlength : js.length = n.toNat)
    (hall : List.Forall₂ (fun j v => encodeScalar j ty none none = .ok v) js vs) :
    encodeWrite (.arr js) ty none none (some n) = .ok (.array ty.cipType vs) := by
  refine encodeWrite_ok_iff.mpr ⟨js, vs, ?_, rfl, hall⟩
  show (some js).filter (·.length = n.toNat) = some js
  rw [Option.filter_some, if_pos (decide_eq_true hlength)]

/-- A value written by itself and inside an array of one goes out as the same bytes. -/
theorem encodeValue_singleton {ty : CipType} {v : CipValue} {bytes : Bytes}
    (h : CipValue.encodeValue v = .ok bytes) :
    CipValue.encodeValue (.array ty [v]) = .ok bytes := by
  rw [CipValue.encodeValue, encodeElems_eq]
  simp only [writeMany, h, bind, Except.bind, pure, Except.pure, List.append_nil]

/-- What a GOOD reading owes the bytes it was decoded from. -/
theorem reading_writes_back {spec : SignalSpec} (hspec : PlainSignal spec)
    {result : TagReadResult} {data : Bytes} (hbytes : ValueBytes result data)
    (hpacked : BytePerElement spec result)
    (hgood : (decodeReading spec result.value result.wireType (logicalCount spec)).quality =
      .good) :
    let value := (decodeReading spec result.value result.wireType (logicalCount spec)).value
    (spec.arrayCount ≠ some 1 → WritesBack spec value data) ∧
      (spec.arrayCount = some 1 →
        encodeWrite value spec.eipType spec.scale spec.offset spec.arrayCount =
          .error .expectedArray ∧
        WritesBack spec (.arr [value]) data) := by
  obtain ⟨hdata, size, hsize⟩ := size_of_decode hbytes
  obtain ⟨helements, hencode⟩ := decode_spec_of_ok hsize hdata hbytes
  have hwire := wireType_of_hasElements helements
  obtain ⟨decoded, hdecoded, hcount, hvalue⟩ := decodeReading_good
    (fun harray => packedDwords_eq_none (hwire ▸ hpacked harray)) hgood
  have htype : result.wireType = spec.eipType.cipType :=
    hwire.symm.trans (decodeValue_wireType hdecoded)
  have hlogical : data.length / size = logicalCount spec := helements.1.symm.trans hcount
  rw [htype, hlogical] at helements
  rw [htype] at hencode
  obtain ⟨j, hj, hpublished⟩ := decodeValue_published hspec.type helements
  rw [hspec.scale, hspec.offset, hj] at hdecoded
  cases hdecoded
  rw [hvalue]
  unfold WritesBack
  rw [hspec.scale, hspec.offset]
  cases harray : spec.arrayCount with
  | none =>
    have hone : logicalCount spec = 1 := by rw [logicalCount, harray]; rfl
    exact ⟨fun _ => ⟨_, (hpublished.one hone).2, hencode⟩, fun h => by cases h⟩
  | some n =>
    have hcounted : logicalCount spec = n.toNat := by rw [logicalCount, harray]; rfl
    constructor
    · intro hmany
      have hlogical : logicalCount spec ≠ 1 := by
        intro hone
        rw [hcounted] at hone
        exact hmany (congrArg some (UInt32.toNat_inj.mp hone))
      obtain ⟨js, vs, rfl, hvs, hlength, hall⟩ := hpublished.many hlogical
      refine ⟨_, array_writes_back (hlength.trans hcounted) hall, ?_⟩
      rw [← hvs]
      exact hencode
    · intro hone
      cases hone
      obtain ⟨hbare, hwrite⟩ := hpublished.one hcounted
      refine ⟨?_, _, array_writes_back rfl (.cons hwrite .nil), encodeValue_singleton hencode⟩
      unfold encodeWrite
      simp only [hbare]

/-- The answer behind a GOOD reading was decoded from bytes: a marker is never published. -/
theorem valueBytes_of_good {session : EipSession} {spec : SignalSpec} {peer : Peer}
    {result : TagReadResult} (hanswer : TagAnswered session spec peer result)
    (hgood : (decodeReading spec result.value result.wireType (logicalCount spec)).quality =
      .good) : ∃ data, ValueBytes result data := by
  obtain ⟨addr, -, htag⟩ := hanswer
  obtain hbytes | hmarker := readTag_interpreted htag
  · exact hbytes
  · have hnone : packedDwords result.value = none := by
      cases hvalue : result.value with
      | struct _ _ | unsupported _ _ => rfl
      | _ =>
        rw [hvalue] at hmarker
        exact hmarker.elim
    obtain ⟨decoded, hdecoded, -⟩ := decodeReading_good (fun _ => hnone) hgood
    exact absurd hdecoded (decodeValue_marker hmarker _ _ _ decoded)

/-- What was read can be written back: the published value of a GOOD reading of a plain signal,
unless it is an array of one element, is written as the bytes of the reply. An array of one
element is published as its bare element, which a write of the array refuses; inside an array it
goes out as the bytes of the reply. -/
theorem good_reading_writes_back {session session' : EipSession} {spec : SignalSpec} {peer : Peer}
    {elapsed : Bool} {reading : Reading} (hspec : PlainSignal spec)
    (hread : readOne session spec peer elapsed = (session', .ok reading))
    (hgood : reading.quality = .good) :
    ∃ result, TagAnswered session spec peer result ∧
      (BytePerElement spec result →
        (∃ data, ValueBytes result data) ∧
        ∀ data, ValueBytes result data →
          (spec.arrayCount ≠ some 1 → WritesBack spec reading.value data) ∧
          (spec.arrayCount = some 1 →
            encodeWrite reading.value spec.eipType spec.scale spec.offset spec.arrayCount =
              .error .expectedArray ∧
            WritesBack spec (.arr [reading.value]) data)) := by
  obtain ⟨result, hanswer, rfl⟩ := readOne_good hread hgood
  refine ⟨result, hanswer, fun hpacked => ⟨valueBytes_of_good hanswer hgood, ?_⟩⟩
  intro data hbytes
  exact reading_writes_back hspec hbytes hpacked hgood

/-! ## A count of DINTs -/

/-- A configured array of DINTs. -/
def countSignal (n : UInt32) : SignalSpec := ⟨"count", "Count", .dint, some n, none, none, {}⟩

/-- A target that answers every read with these DINTs. -/
def countTarget (counts : List UInt32) : Peer :=
  answering fun _ => (⟨.success, []⟩, putU16 0xC4 ++ counts.flatMap putU32)

/-- The counter has no transform. -/
theorem countSignal_plain (n : UInt32) : PlainSignal (countSignal n) := ⟨.inr rfl, rfl, rfl⟩

/-- It is no BOOL array, so that bytes and elements are no question. -/
theorem countSignal_bytes (n : UInt32) (result : TagReadResult) :
    BytePerElement (countSignal n) result := by
  intro harray
  cases harray

/-- The good reading of a read that gives one. -/
theorem good_of_quality {outcome : EipSession × Except DeviceError Reading}
    (h : outcome.2.toOption.map (·.quality) = some .good) :
    ∃ session' reading, outcome = (session', .ok reading) ∧ reading.quality = .good := by
  obtain ⟨session', reading⟩ := outcome
  cases reading with
  | error e => cases h
  | ok reading => exact ⟨session', reading, rfl, Option.some.inj h⟩

/-- Two DINTs that were read are written back. -/
theorem good_reading_writes_back_pair :
    ∃ session' reading data,
      readOne (EipSession.new {}) (countSignal 2) (countTarget [7, 8]) false =
        (session', .ok reading) ∧ WritesBack (countSignal 2) reading.value data := by
  have hquality : (readOne (EipSession.new {}) (countSignal 2) (countTarget [7, 8])
      false).2.toOption.map (·.quality) = some .good := by
    decide +kernel
  obtain ⟨session', reading, hread, hgood⟩ := good_of_quality hquality
  obtain ⟨result, -, hback⟩ := good_reading_writes_back (countSignal_plain 2) hread hgood
  obtain ⟨⟨data, hdata⟩, hall⟩ := hback (countSignal_bytes 2 result)
  have hmany : (countSignal 2).arrayCount ≠ some 1 := by decide
  exact ⟨session', reading, data, hread, (hall data hdata).1 hmany⟩

/-- One DINT in an array is published as the bare number, which a write of the array refuses. -/
theorem one_element_is_not_written_back :
    ¬ ∀ (session session' : EipSession) (spec : SignalSpec) (peer : Peer) (elapsed : Bool)
      (reading : Reading) (result : TagReadResult) (data : Bytes),
      PlainSignal spec → readOne session spec peer elapsed = (session', .ok reading) →
        reading.quality = .good → TagAnswered session spec peer result →
          BytePerElement spec result → ValueBytes result data →
            WritesBack spec reading.value data := by
  intro hclaim
  have hquality : (readOne (EipSession.new {}) (countSignal 1) (countTarget [7])
      false).2.toOption.map (·.quality) = some .good := by
    decide +kernel
  obtain ⟨session', reading, hread, hgood⟩ := good_of_quality hquality
  obtain ⟨result, hanswer, rfl⟩ := readOne_good hread hgood
  obtain ⟨data, hdata⟩ := valueBytes_of_good hanswer hgood
  have hbytes := countSignal_bytes 1 result
  obtain ⟨v, hv, -⟩ := hclaim _ _ _ _ _ _ result data (countSignal_plain 1) hread hgood hanswer
    hbytes hdata
  have hrefused := ((reading_writes_back (countSignal_plain 1) hdata hbytes hgood).2 rfl).1
  cases hrefused.symm.trans hv

end EnipAdapter.Analysis
