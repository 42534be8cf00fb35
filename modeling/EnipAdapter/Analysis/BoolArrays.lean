import EnipAdapter.Analysis.PackedBools
import EnipAdapter.Analysis.ReadThenWrite
import EnipAdapter.Interface.PackedArrayContract

/-!
# A BOOL array reads alike in bytes and in words

The two replies take different ways through the codec: bytes are decoded one by one and counted,
words are counted first and then taken apart bit by bit. Both ways end in the same booleans, of
which one alone is published bare.
-/

set_option autoImplicit false

namespace EnipAdapter.Analysis

open EnipAdapter.Foundation EnipAdapter.Interface EnipAdapter.Model

/-! ## The bit loop -/

/-- One bit of a word, as the loop takes it. -/
theorem shiftRight_and_one (w : UInt32) {bit : ℕ} (h : bit < 32) :
    (w >>> UInt32.ofNat bit &&& 1 == 1) = w.toNat.testBit bit := by
  have hbit : (UInt32.ofNat bit).toNat = bit := by
    apply UInt32.toNat_ofNat_of_lt'
    simp only [UInt32.size]
    omega
  have hvalue : (w >>> UInt32.ofNat bit &&& 1).toNat = w.toNat >>> bit % 2 := by
    rw [UInt32.toNat_and, UInt32.toNat_shiftRight, hbit, Nat.mod_eq_of_lt h]
    exact Nat.and_one_is_mod _
  rw [Nat.testBit_eq_decide_div_mod_eq, ← Nat.shiftRight_eq_div_pow, ← hvalue, Bool.eq_iff_iff,
    beq_iff_eq, decide_eq_true_iff, ← UInt32.toNat_inj]
  rfl

/-- The bits of a word are put out until there are enough; the loop goes on when all of them
were. -/
theorem unpackWord_eq (want : ℕ) (w : UInt32) {bits : List ℕ} (hbits : ∀ bit ∈ bits, bit < 32)
    {out : List Bool} (h : out.length ≤ want) :
    (unpackWord want w bits out).2 =
        (out ++ bits.map fun bit => w.toNat.testBit bit).take want ∧
      ((unpackWord want w bits out).1 = true ↔ out.length + bits.length ≤ want) := by
  induction bits generalizing out with
  | nil =>
    rw [unpackWord, List.map_nil, List.append_nil, List.take_of_length_le h]
    exact ⟨rfl, fun _ => h, fun _ => rfl⟩
  | cons bit bits ih =>
    rw [unpackWord]
    by_cases hfull : out.length ≥ want
    · rw [if_pos hfull, List.take_append_of_le_length hfull]
      refine ⟨(List.take_of_length_le h).symm, fun hgo => absurd hgo Bool.false_ne_true, ?_⟩
      intro hroom
      rw [List.length_cons] at hroom
      omega
    · rw [if_neg hfull, shiftRight_and_one w (hbits bit List.mem_cons_self)]
      have hnext : (out ++ [w.toNat.testBit bit]).length = out.length + 1 := List.length_append
      obtain ⟨hout, hgo⟩ := ih (fun b hb => hbits b (List.mem_cons_of_mem _ hb))
        (hnext.trans_le (by omega))
      rw [hout, hgo, hnext, List.append_assoc, List.map_cons, List.length_cons]
      exact ⟨rfl, by omega⟩

/-- The loops put out the first bits of the words. -/
theorem unpackWords_eq (want : ℕ) (words : List UInt32) {out : List Bool}
    (h : out.length ≤ want) :
    unpackWords want words out = (out ++ words.flatMap wordBits).take want := by
  induction words generalizing out with
  | nil => rw [unpackWords, List.flatMap_nil, List.append_nil, List.take_of_length_le h]
  | cons w words ih =>
    have hrange : ∀ bit ∈ List.range boolsPerDword, bit < 32 := fun _ => List.mem_range.mp
    obtain ⟨hout, hgo⟩ := unpackWord_eq want w hrange h
    have hlen : (out ++ wordBits w).length = out.length + 32 := by
      rw [List.length_append, wordBits_length]
    rw [List.length_range] at hgo
    rw [List.flatMap_cons, ← List.append_assoc, unpackWords]
    by_cases hroom : out.length + boolsPerDword ≤ want
    · have hall : (unpackWord want w (List.range boolsPerDword) out).2 = out ++ wordBits w := by
        rw [hout]
        exact List.take_of_length_le (by rw [← wordBits, hlen]; exact hroom)
      rw [show unpackWord want w (List.range boolsPerDword) out = (true, out ++ wordBits w) from
        Prod.ext (hgo.mpr hroom) hall]
      exact ih (by rw [hlen]; exact hroom)
    · have hstop : (unpackWord want w (List.range boolsPerDword) out).1 = false :=
        Bool.eq_false_iff.mpr fun hon => hroom (hgo.mp hon)
      rw [show unpackWord want w (List.range boolsPerDword) out =
        (false, (out ++ wordBits w).take want) from Prod.ext hstop hout]
      exact (List.take_append_of_le_length (by rw [hlen]; unfold boolsPerDword at hroom; omega)).symm

/-- `unpack_bools`, with its loops. -/
theorem unpackBools_eq (words : List UInt32) (bools : ℕ) :
    unpackBools words bools =
      if words.length ≠ packedDwordCount bools then
        .error ⟨bools, packedDwordCount bools, words.length⟩
      else .ok (.arr ((unpackWords bools words []).map Json.bool)) := by
  have hloop : unpackWords bools words [] = ([] ++ words.flatMap wordBits).take bools :=
    unpackWords_eq bools words (Nat.zero_le bools)
  rw [hloop]
  rfl

/-! ## Bytes -/

/-- A run of BOOLs is read one byte each, and any byte but zero is true. -/
theorem readMany_bool (bytes : Bytes) (context : String) :
    readMany (CipValue.decodeScalar .bool) bytes.length ⟨bytes, context⟩ =
      .ok (bytes.map fun x => .bool (x != 0), ⟨[], context⟩) := by
  induction bytes with
  | nil => rfl
  | cons x bytes ih =>
    have hhead : (⟨x :: bytes, context⟩ : WireReader).u8 = .ok (x, ⟨bytes, context⟩) := by
      have hread := WireReader.u8_append x bytes context
      have hbyte : putU8 x = [x] := by simp [putU8]
      rwa [hbyte] at hread
    apply readMany_succ_ok _ ih
    simp only [CipValue.decodeScalar, hhead, bind, Except.bind, pure, Except.pure]

/-- Bytes that say booleans are decoded to them. -/
theorem decode_bool {b : List Bool} {bytes : Bytes} (hb : b ≠ []) (h : InBytes b bytes) :
    CipValue.decode .bool bytes = .ok (ofElements .bool (b.map .bool)) := by
  have hne : bytes ≠ [] := by
    rintro rfl
    exact hb h.symm
  have hsize : CipType.bool.elementSize = some 1 := rfl
  apply (decode_eq_ok_iff hsize hne _).mpr
  refine ⟨one_dvd _, bytes.map fun x => .bool (x != 0), ⟨[], "cip value"⟩, ?_, rfl, ?_⟩
  · rw [Nat.div_one]
    exact readMany_bool bytes "cip value"
  · rw [← h, List.map_map]
    rfl

/-- A reply of BOOLs is decoded as one. -/
theorem decodeTagged_boolData {b : List Bool} {bytes : Bytes} (hb : b ≠ [])
    (h : InBytes b bytes) :
    CipValue.decodeTagged (boolData bytes) = .ok (.bool, ofElements .bool (b.map .bool)) := by
  have hcode := WireReader.u16_append CipType.bool.code bytes "cip value"
  have htype : CipType.fromCode CipType.bool.code = .bool := by decide
  simp only [CipValue.decodeTagged, boolData, WireReader.withContext, hcode, bind, Except.bind,
    htype, WireReader.takeRest, decode_bool hb h]
  rfl

/-- A BOOL is published as it is, whatever transform the signal has. -/
theorem decodeElementsJson_bool (scale offset : Option F64) (b : List Bool) :
    decodeElementsJson .bool scale offset (b.map .bool) =
      .ok ((b.map Json.bool).map fun j => ⟨j, false⟩) := by
  induction b with
  | nil => rfl
  | cons x b ih => exact bind_ok.mpr ⟨_, rfl, bind_ok.mpr ⟨_, ih, rfl⟩⟩

/-- BOOLs become their JSON whatever the transform of the signal. -/
theorem decodeValue_bools (scale offset : Option F64) (b : List Bool) :
    decodeValue (ofElements .bool (b.map .bool)) .bool scale offset = .ok ⟨boolsJson b, false⟩ := by
  have harray : ∀ b : List Bool, decodeValue (.array .bool (b.map .bool)) .bool scale offset =
      .ok ⟨.arr (b.map .bool), false⟩ :=
    fun b => decodeValue_array (decodeElementsJson_bool scale offset b)
  match b with
  | [x] => rfl
  | [] => exact harray []
  | x :: y :: b => exact harray (x :: y :: b)

/-- A value of BOOLs counts its elements. -/
theorem elementCount_bools (b : List Bool) :
    (ofElements .bool (b.map .bool)).elementCount = b.length := by
  match b with
  | [x] => rfl
  | [] => rfl
  | x :: y :: b =>
    show ((x :: y :: b).map CipValue.bool).length = (x :: y :: b).length
    rw [List.length_map]

/-- A value of BOOLs says that it is one. -/
theorem wireType_bools (b : List Bool) : (ofElements .bool (b.map .bool)).wireType = .bool := by
  match b with
  | [x] => rfl
  | [] => rfl
  | x :: y :: b => rfl

/-- As many booleans as the signal has are read. -/
theorem decodeReading_bools {signal : SignalSpec} (hbool : signal.eipType = .bool)
    (b : List Bool) :
    decodeReading signal (ofElements .bool (b.map .bool)) .bool b.length =
      good signal (boolsJson b) (some "BOOL") := by
  have hplain : packedDwords (ofElements .bool (b.map .bool)) = none :=
    packedDwords_eq_none (by rw [wireType_bools]; decide)
  have hdecode := decodeValue_bools signal.scale signal.offset b
  rw [← hbool] at hdecode
  have hcount : cardinalityMismatch (ofElements .bool (b.map .bool)) b.length = none :=
    if_neg (not_not.mpr (elementCount_bools b))
  rw [decodeReading_ok (fun _ => hplain) hdecode, hcount, Option.elim_none]
  rfl

/-! ## Words -/

/-- The first booleans of words that hold some are these. -/
theorem publishedBools_inWords {b : List Bool} {words : List UInt32} (h : InWords b words) :
    publishedBools words b.length = boolsJson b := by
  have hlist : (List.range b.length).map (bitAt words) = b := by
    apply List.ext_getElem
    · rw [List.length_map, List.length_range]
    · intro n hn hb
      rw [List.getElem_map, List.getElem_range, h.bit n hb]
  unfold publishedBools
  match b with
  | [x] =>
    rw [if_pos List.length_singleton, h.bit 0 Nat.one_pos]
    rfl
  | [] => rfl
  | x :: y :: b =>
    have hmany : (x :: y :: b).length ≠ 1 := by simp
    rw [if_neg hmany]
    have hmap := congrArg (List.map Json.bool) hlist
    rw [List.map_map] at hmap
    exact congrArg Json.arr hmap

/-- Words that hold the booleans of a BOOL array are read as these booleans. -/
theorem decodeReading_words {signal : SignalSpec} (harray : isBoolArray signal = true)
    {b : List Bool} {words : List UInt32} (h : InWords b words) :
    decodeReading signal (dwordValue words) .dword b.length =
      good signal (boolsJson b) (some "DWORD") := by
  have hread := decodeReading_packed harray h.count.ge
  rw [← h.count, List.take_length, publishedBools_inWords h] at hread
  exact hread

/-! ## Other counts -/

/-- A map that succeeds throughout keeps the length. -/
theorem length_of_mapM {α β : Type} {f : α → Option β} {l : List α} {r : List β}
    (h : l.mapM f = some r) : r.length = l.length := by
  induction l generalizing r with
  | nil =>
    cases h
    rfl
  | cons a l ih =>
    rw [List.mapM_cons] at h
    obtain ⟨b, -, h⟩ := Option.bind_eq_some_iff.mp h
    obtain ⟨bs, hbs, h⟩ := Option.bind_eq_some_iff.mp h
    cases h
    rw [List.length_cons, List.length_cons, ih hbs]

/-- Words that were read from a value are as many as its elements. -/
theorem length_of_packedDwords {v : CipValue} {words : List UInt32}
    (h : packedDwords v = some words) : words.length = v.elementCount := by
  cases v with
  | dword w =>
    cases h
    rfl
  | array ty elems =>
    cases ty with
    | dword => exact length_of_mapM h
    | _ => cases h
  | _ => cases h

/-- A reply of DWORDs in another number than the booleans need is BAD. -/
theorem decodeReading_dword_count {signal : SignalSpec} (hbool : signal.eipType = .bool)
    (harray : isBoolArray signal = true) {v : CipValue} (hv : v.wireType = .dword)
    (wireType : CipType) {bools : ℕ} (h : v.elementCount ≠ packedDwordCount bools) :
    (decodeReading signal v wireType bools).quality = .bad := by
  cases hwords : packedDwords v with
  | some words =>
    have hrefuse : unpackBools words bools =
        .error ⟨bools, packedDwordCount bools, words.length⟩ :=
      if_pos (by rw [length_of_packedDwords hwords]; exact h)
    simp only [decodeReading, harray, if_true, hwords, hrefuse]
    rfl
  | none =>
    -- elements that are no words: the declared type is not the configured one
    cases hdecode : decodeValue v signal.eipType signal.scale signal.offset with
    | error e =>
      rw [decodeReading_error (fun _ => hwords) hdecode]
      rfl
    | ok decoded =>
      have htype := decodeValue_wireType hdecode
      rw [hv, hbool] at htype
      cases htype

/-- A reply of BOOLs in another number than the signal has is BAD. -/
theorem decodeReading_bool_count {signal : SignalSpec} {v : CipValue} (hv : v.wireType = .bool)
    (wireType : CipType) {bools : ℕ} (h : v.elementCount ≠ bools) :
    (decodeReading signal v wireType bools).quality = .bad := by
  have hplain : packedDwords v = none := packedDwords_eq_none (by rw [hv]; decide)
  cases hdecode : decodeValue v signal.eipType signal.scale signal.offset with
  | error e =>
    rw [decodeReading_error (fun _ => hplain) hdecode]
    rfl
  | ok decoded =>
    rw [decodeReading_ok (fun _ => hplain) hdecode, cardinalityMismatch, if_pos h]
    rfl

/-! ## Both representations -/

/-- A list of booleans is published alike from bytes and from words, whatever stands in the
padding, and a reply with another number of elements than the representation needs is BAD. -/
theorem bool_array_reads_alike (signal : SignalSpec) (bools : UInt32)
    (hbool : signal.eipType = .bool) (hcount : signal.arrayCount = some bools)
    (hlow : 1 ≤ bools.toNat) :
    (∀ (b : List Bool) (bytes : Bytes) (words : List UInt32), b.length = bools.toNat →
      InBytes b bytes → InWords b words →
        ReadsGood (boolsJson b) (replyReading signal (boolData bytes)) ∧
          ReadsGood (boolsJson b) (replyReading signal (dwordData words))) ∧
      (∀ (v : CipValue) (wireType : CipType), v.wireType = .dword →
        v.elementCount ≠ packedDwordCount bools.toNat →
          (decodeReading signal v wireType bools.toNat).quality = .bad) ∧
      ∀ (v : CipValue) (wireType : CipType), v.wireType = .bool → v.elementCount ≠ bools.toNat →
        (decodeReading signal v wireType bools.toNat).quality = .bad := by
  have hlogical : logicalCount signal = bools.toNat := by
    simp only [logicalCount, hcount, Option.map_some, Option.getD_some]
  have harray : isBoolArray signal = true := by simp [isBoolArray, hbool, hcount]
  refine ⟨fun b bytes words hb hbytes hwords => ?_, fun v wireType hv h => ?_,
    fun v wireType hv h => decodeReading_bool_count hv wireType h⟩
  · have hne : b ≠ [] := List.ne_nil_of_length_pos (by omega)
    have hsome : words ≠ [] := by
      apply List.ne_nil_of_length_pos
      have hwords := hwords.count
      simp only [packedDwordCount, boolsPerDword] at hwords
      omega
    have hbyteReading := decodeReading_bools hbool b
    have hwordReading := decodeReading_words harray hwords
    rw [hb, ← hlogical] at hbyteReading hwordReading
    constructor
    · refine ⟨good signal (boolsJson b) (some "BOOL"), ?_, rfl, rfl⟩
      rw [replyReading, decodeTagged_boolData hne hbytes]
      exact congrArg Except.ok hbyteReading
    · refine ⟨good signal (boolsJson b) (some "DWORD"), ?_, rfl, rfl⟩
      rw [replyReading, decodeTagged_dwordData hsome]
      exact congrArg Except.ok hwordReading
  · exact decodeReading_dword_count hbool harray hv wireType h

/-- Every fourth of 33 booleans. -/
def fourths : List Bool := (List.range 33).map fun n => n % 4 == 0

/-- Thirty-three booleans are read alike from as many bytes and from two words, the second of them
with padding; ten bytes and one word are too few. -/
theorem many_bools_read_alike :
    ReadsGood (boolsJson fourths)
        (replyReading (bitsSignal 33) (boolData (fourths.map fun b => if b then 7 else 0))) ∧
      ReadsGood (boolsJson fourths)
        (replyReading (bitsSignal 33) (dwordData [0x11111111, 0xFFFFFF01])) ∧
      (decodeReading (bitsSignal 33) (.array .dword [.dword 0x11111111]) .dword 33).quality = .bad ∧
      (decodeReading (bitsSignal 33) (.array .bool ((fourths.take 10).map .bool)) .bool
        33).quality = .bad := by
  have hbytes : InBytes fourths (fourths.map fun b => if b then 7 else 0) := by
    unfold InBytes
    decide +kernel
  have hwords : InWords fourths [0x11111111, 0xFFFFFF01] := ⟨by decide, by decide +kernel⟩
  obtain ⟨halike, hdwords, hbools⟩ := bool_array_reads_alike (bitsSignal 33) 33 rfl rfl (by decide)
  obtain ⟨hfromBytes, hfromWords⟩ := halike fourths _ [0x11111111, 0xFFFFFF01] rfl hbytes hwords
  refine ⟨hfromBytes, hfromWords, ?_, ?_⟩
  · exact hdwords _ _ rfl (by decide)
  · exact hbools _ _ rfl (by decide)

end EnipAdapter.Analysis
