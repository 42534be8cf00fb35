import EnipAdapter.Interface.PushReference

/-!
# When explicit push references are exact

Each resolver is first brought to the form "some assembly number, a hit, and a comparison";
naming a field is the same hit with an exact assembly and a bit that narrowing keeps. The two
agree exactly on the references that are not misread.
-/

set_option autoImplicit false

namespace EnipAdapter.Analysis

open EnipAdapter.Foundation EnipAdapter.Model EnipAdapter.Interface

/-! ## Numbers and bits -/

/-- A member denotes a natural number exactly when it is that unsigned literal. -/
theorem bind_asInt_eq {v : Option Json} {n : ℕ} :
    v.bind Json.asInt = some (n : ℤ) ↔ (v.bind Json.asU64).map UInt64.toNat = some n := by
  cases v with
  | none => simp
  | some v =>
    simp only [Option.bind_some, Option.map_eq_some_iff]
    constructor
    · intro h
      exact Json.asU64_of_asInt h
    · rintro ⟨m, hm, rfl⟩
      exact Json.asInt_of_asU64 hm

/-- A null is no number. -/
theorem asU64_of_isNull {v : Json} (h : v.isNull = true) : v.asU64 = none := by
  cases v <;> first | rfl | cases h

/-- A byte is its own value below 256. -/
theorem toUInt8_eq_iff {n : UInt64} {b : UInt8} (h : n.toNat < 256) :
    b = n.toUInt8 ↔ n.toNat = b.toNat := by
  rw [← UInt8.toNat_inj, UInt64.toNat_toUInt8, Nat.mod_eq_of_lt h]
  exact eq_comm

/-- The bit a reference asks for is a field's bit exactly when narrowing keeps it and gives
that bit. -/
theorem refBit_eq_iff (r : Json) (bit : Option UInt8) :
    refBit r = some (bit.map fun b => (b.toNat : ℤ)) ↔
      bitFits r = true ∧ bit = ((r.get "bit").bind Json.asU64).map UInt64.toUInt8 := by
  unfold refBit bitFits
  cases hb : r.get "bit" with
  | none =>
    cases bit with
    | none => simp
    | some b => simp
  | some v =>
    cases hnull : v.isNull with
    | true =>
      have hnone := asU64_of_isNull hnull
      cases bit with
      | none => simp [hnull, hnone]
      | some b => simp [hnull, hnone]
    | false =>
      simp only [hnull, Bool.false_eq_true, if_false, Bool.false_or, Option.bind_some]
      cases hu : v.asU64 with
      | none =>
        -- a negative literal, a float or no number at all never equals a bit
        simp only [Option.map_none, Bool.false_eq_true, false_and, iff_false]
        intro h
        obtain ⟨z, hz, hzb⟩ := Option.map_eq_some_iff.mp h
        cases bit with
        | none => cases hzb
        | some b =>
          simp only [Option.map_some, Option.some.injEq] at hzb
          subst hzb
          obtain ⟨m, hm, -⟩ := Json.asU64_of_asInt hz
          rw [hu] at hm
          cases hm
      | some n =>
        have hint := Json.asInt_of_asU64 hu
        simp only [hint, Option.map_some, Option.some.injEq, decide_eq_true_eq]
        cases bit with
        | none => simp
        | some b =>
          simp only [Option.map_some, Option.some.injEq, Nat.cast_inj]
          constructor
          · intro h
            have hlt : n.toNat < 256 := h ▸ b.toNat_lt
            exact ⟨hlt, (toUInt8_eq_iff hlt).mpr h⟩
          · rintro ⟨hlt, hbn⟩
            exact (toUInt8_eq_iff hlt).mp hbn

/-- Naming a declared field is hitting it with an exact assembly and a bit that narrowing
keeps. -/
theorem names_iff {inst : UInt16} {fields : List IoFieldSpec} {f : IoFieldSpec} {r : Json} :
    f ∈ fields ∧ Names inst f r ↔
      ∃ a, refAssembly r = some a ∧ a.toNat = inst.toNat ∧ Hits fields r f ∧
        bitFits r = true := by
  constructor
  · rintro ⟨hmem, hassembly, hoffset, htype, hbit⟩
    obtain ⟨a, ha, hinst⟩ := Option.map_eq_some_iff.mp (bind_asInt_eq.mp hassembly)
    obtain ⟨hfits, hbit⟩ := (refBit_eq_iff r f.bit).mp hbit
    exact ⟨a, ha, hinst, ⟨hmem, bind_asInt_eq.mp hoffset, htype, hbit⟩, hfits⟩
  · rintro ⟨a, ha, hinst, ⟨hmem, hoffset, htype, hbit⟩, hfits⟩
    refine ⟨hmem, bind_asInt_eq.mpr ?_, bind_asInt_eq.mpr hoffset, htype,
      (refBit_eq_iff r f.bit).mpr ⟨hfits, hbit⟩⟩
    exact Option.map_eq_some_iff.mpr ⟨a, ha, hinst⟩

/-! ## The resolvers -/

def searched (off : ℕ) (ty : EipType) (bit : Option UInt8) (f : IoFieldSpec) : Bool :=
  f.offset == off && f.eipType == ty && f.bit == bit

/-- Fields with distinct ids are found by what they are searched for. -/
theorem find_searched_iff {fields : List IoFieldSpec} {inst : UInt16}
    (hids : (fields.map (·.signalId inst)).Nodup) (off : ℕ) (ty : EipType) (bit : Option UInt8)
    (f : IoFieldSpec) :
    fields.find? (searched off ty bit) = some f ↔
      f ∈ fields ∧ f.offset = off ∧ f.eipType = ty ∧ f.bit = bit := by
  constructor
  · intro h
    have hmem := List.mem_of_find?_eq_some h
    have hsearched := List.find?_some h
    simp only [searched, Bool.and_eq_true, beq_iff_eq] at hsearched
    exact ⟨hmem, hsearched.1.1, hsearched.1.2, hsearched.2⟩
  · rintro ⟨hmem, hoff, hty, hbit⟩
    have hsome : (fields.find? (searched off ty bit)).isSome = true := by
      rw [List.find?_isSome]
      exact ⟨f, hmem, by simp [searched, hoff, hty, hbit]⟩
    obtain ⟨g, hg⟩ := Option.isSome_iff_exists.mp hsome
    have hgmem := List.mem_of_find?_eq_some hg
    have hgs := List.find?_some hg
    simp only [searched, Bool.and_eq_true, beq_iff_eq] at hgs
    -- the id is made of exactly the offset, the type and the bit
    have hid : g.signalId inst = f.signalId inst := by
      unfold IoFieldSpec.signalId
      rw [hgs.1.1, hgs.1.2, hgs.2, hoff, hty, hbit]
    rw [hg, List.inj_on_of_nodup_map hids hgmem hmem hid]

section Resolvers

variable {io : IoConfig} {r : Json}

/-- A reference without an offset hits nothing. -/
theorem not_hits_of_offset {fields : List IoFieldSpec} {f : IoFieldSpec}
    (ho : (r.get "offset").bind Json.asU64 = none) : ¬Hits fields r f := by
  intro hit
  have hoffset := hit.offset
  rw [ho] at hoffset
  cases hoffset

/-- Nor does one without a type. -/
theorem not_hits_of_type {fields : List IoFieldSpec} {f : IoFieldSpec}
    (ht : ((r.get "type").bind Json.asStr).bind EipType.parse = none) : ¬Hits fields r f := by
  intro hit
  have htype := hit.type
  rw [ht] at htype
  cases htype

/-- The search for what a reference says finds the field it hits. -/
theorem find_iff_hits {fields : List IoFieldSpec} {inst : UInt16}
    (hids : (fields.map (·.signalId inst)).Nodup) {o : UInt64} {ty : EipType}
    (ho : (r.get "offset").bind Json.asU64 = some o)
    (ht : ((r.get "type").bind Json.asStr).bind EipType.parse = some ty) (f : IoFieldSpec) :
    fields.find? (searched o.toNat ty (((r.get "bit").bind Json.asU64).map UInt64.toUInt8)) =
        some f ↔ Hits fields r f := by
  rw [find_searched_iff hids]
  constructor
  · rintro ⟨hmem, hoff, hty, hbit⟩
    refine ⟨hmem, ?_, ?_, hbit⟩
    · rw [ho, hoff, Option.map_some]
    · rw [ht, hty]
  · intro hit
    refine ⟨hit.mem, ?_, ?_, hit.bit⟩
    · simpa [ho] using hit.offset.symm
    · simpa [ht] using hit.type.symm

/-- A write reference resolves to the output field it hits, unless its narrowed assembly is
the input instance. -/
theorem resolvePushWriteRef_iff (hids : (io.outputSignals.map
      (·.signalId io.assemblies.output)).Nodup)
    (hname : (r.get "name").bind Json.asStr = none) (id : String) (f : IoFieldSpec) :
    resolvePushWriteRef io r = .ok (id, f) ↔
      id = f.signalId io.assemblies.output ∧ ∃ a, refAssembly r = some a ∧
        a.toUInt16 ≠ io.assemblies.input ∧ Hits io.outputSignals r f := by
  unfold resolvePushWriteRef refAssembly
  simp only [hname]
  cases ha : (r.get "assembly").bind Json.asU64 with
  | none => simp
  | some a =>
    cases ho : (r.get "offset").bind Json.asU64 with
    | none =>
      simp only [Option.map_none, Option.map_some]
      constructor
      · intro h
        cases h
      · rintro ⟨-, -, -, -, hit⟩
        exact absurd hit (not_hits_of_offset ho)
    | some o =>
      cases ht : ((r.get "type").bind Json.asStr).bind EipType.parse with
      | none =>
        simp only [Option.map_some]
        constructor
        · intro h
          cases h
        · rintro ⟨-, -, -, -, hit⟩
          exact absurd hit (not_hits_of_type ht)
      | some ty =>
        simp only [Option.map_some]
        by_cases hin : a.toUInt16 = io.assemblies.input
        · simp [hin]
        · rw [if_neg hin]
          have hsearch := find_iff_hits hids ho ht
          unfold searched at hsearch
          constructor
          · intro h
            split at h
            · rename_i g hg
              cases h
              exact ⟨rfl, a, rfl, hin, (hsearch _).mp hg⟩
            · cases h
          · rintro ⟨rfl, -, -, -, hit⟩
            rw [(hsearch f).mpr hit]

/-- A read reference resolves to the input field it hits, when its narrowed assembly is the
input instance. -/
theorem resolvePushReadRef_iff (hids : (io.input.signals.map
      (·.signalId io.assemblies.input)).Nodup)
    (hname : (r.get "name").bind Json.asStr = none) (conn : ConnectionConfig) (id : String)
    (address : Json) :
    resolvePushReadRef io conn r = some (id, address) ↔
      ∃ f, (id = f.signalId io.assemblies.input ∧
          address = f.addressJson io.assemblies.input conn) ∧
        ∃ a, refAssembly r = some a ∧ a.toUInt16 = io.assemblies.input ∧
          Hits io.input.signals r f := by
  unfold resolvePushReadRef refAssembly
  simp only [hname]
  cases ha : (r.get "assembly").bind Json.asU64 with
  | none => simp
  | some a =>
    by_cases hin : a.toUInt16 = io.assemblies.input
    · cases ho : (r.get "offset").bind Json.asU64 with
      | none =>
        constructor
        · intro h
          simp at h
        · rintro ⟨f, -, -, -, -, hit⟩
          exact absurd hit (not_hits_of_offset ho)
      | some o =>
        cases ht : ((r.get "type").bind Json.asStr).bind EipType.parse with
        | none =>
          constructor
          · intro h
            simp at h
          · rintro ⟨f, -, -, -, -, hit⟩
            exact absurd hit (not_hits_of_type ht)
        | some ty =>
          have hsearch := find_iff_hits hids ho ht
          unfold searched at hsearch
          simp only [Option.bind_eq_bind, Option.bind_some, hin, ne_eq, not_true_eq_false,
            if_false, Option.pure_def]
          rw [Option.bind_eq_some_iff]
          constructor
          · rintro ⟨f, hf, heq⟩
            cases heq
            exact ⟨f, ⟨rfl, rfl⟩, a, rfl, hin, (hsearch f).mp hf⟩
          · rintro ⟨f, ⟨rfl, rfl⟩, -, -, -, hit⟩
            exact ⟨f, (hsearch f).mpr hit, rfl⟩
    · constructor
      · intro h
        simp [hin] at h
      · rintro ⟨f, -, a', ha', hin', -⟩
        cases ha'
        exact absurd hin' hin

end Resolvers

/-! ## The two readings -/

/-- Narrowing an instance number that fits keeps it. -/
theorem toUInt16_of_toNat {a : UInt64} {inst : UInt16} (h : a.toNat = inst.toNat) :
    a.toUInt16 = inst := by
  rw [← UInt16.toNat_inj, UInt64.toNat_toUInt16, h]
  exact Nat.mod_eq_of_lt inst.toNat_lt

/-- A number that narrows to an instance is that instance, or does not fit. -/
theorem toNat_of_toUInt16 {a : UInt64} {inst : UInt16} (h : a.toUInt16 = inst)
    (hsmall : ¬65536 ≤ a.toNat) : a.toNat = inst.toNat := by
  rw [← h, UInt64.toNat_toUInt16]
  exact (Nat.mod_eq_of_lt (Nat.lt_of_not_le hsmall)).symm

/-- Explicit references of an accepted configuration are exact exactly when they are not
misread. -/
theorem push_references_exact_iff {io : IoConfig} {deviceId : String}
    (haccepted : io.validate deviceId = .ok ()) (conn : ConnectionConfig) {r : Json}
    (hname : (r.get "name").bind Json.asStr = none) :
    ReferencesExact io conn r ↔ ¬Misread io r := by
  have hio := acceptedIo_of_validate haccepted
  have hwrite := resolvePushWriteRef_iff hio.outputIds hname
  have hread := resolvePushReadRef_iff hio.inputIds hname conn
  constructor
  · rintro ⟨hw, hr⟩ hmis
    cases hmis with
    | @foreignAssembly a f ha hit hin hout =>
      obtain ⟨hmem, -, hnames⟩ := (hw _ f).mp ((hwrite _ f).mpr ⟨rfl, a, ha, hin, hit⟩)
      obtain ⟨a', ha', hexact, -⟩ := names_iff.mp ⟨hmem, hnames⟩
      rw [ha] at ha'
      cases ha'
      exact hout hexact
    | @wrappedAssembly a f ha hit hin hwide =>
      obtain ⟨g, hmem, hnames, -⟩ :=
        (hr _ _).mp ((hread _ _).mpr ⟨f, ⟨rfl, rfl⟩, a, ha, hin, hit⟩)
      obtain ⟨a', ha', hexact, -⟩ := names_iff.mp ⟨hmem, hnames⟩
      rw [ha] at ha'
      cases ha'
      have hlt := io.assemblies.input.toNat_lt
      omega
    | @lossyBit a f ha hit hlossy =>
      rcases hit with ⟨hit, hin⟩ | ⟨hit, hin⟩
      · obtain ⟨hmem, -, hnames⟩ := (hw _ f).mp ((hwrite _ f).mpr ⟨rfl, a, ha, hin, hit⟩)
        obtain ⟨-, -, -, -, hfits⟩ := names_iff.mp ⟨hmem, hnames⟩
        rw [hlossy] at hfits
        cases hfits
      · obtain ⟨g, hmem, hnames, -⟩ :=
          (hr _ _).mp ((hread _ _).mpr ⟨f, ⟨rfl, rfl⟩, a, ha, hin, hit⟩)
        obtain ⟨-, -, -, -, hfits⟩ := names_iff.mp ⟨hmem, hnames⟩
        rw [hlossy] at hfits
        cases hfits
    | @sharedInstance a f ha hshared hnamed hit hfits =>
      obtain ⟨hmem, hnames⟩ := names_iff.mpr ⟨a, ha, hnamed, hit, hfits⟩
      obtain ⟨-, a', ha', hin, -⟩ := (hwrite _ f).mp ((hw _ f).mpr ⟨hmem, rfl, hnames⟩)
      rw [ha] at ha'
      cases ha'
      exact hin ((toUInt16_of_toNat hnamed).trans hshared)
  · intro hok
    refine ⟨fun id f => ?_, fun id address => ?_⟩
    · rw [hwrite]
      constructor
      · rintro ⟨rfl, a, ha, hin, hit⟩
        have hout : a.toNat = io.assemblies.output.toNat := by
          by_contra hne
          exact hok (.foreignAssembly ha hit hin hne)
        have hfits : bitFits r = true := by
          by_contra hlossy
          exact hok (.lossyBit ha (.inl ⟨hit, hin⟩) (by simpa using hlossy))
        obtain ⟨hmem, hnames⟩ := names_iff.mpr ⟨a, ha, hout, hit, hfits⟩
        exact ⟨hmem, rfl, hnames⟩
      · rintro ⟨hmem, rfl, hnames⟩
        obtain ⟨a, ha, hnamed, hit, hfits⟩ := names_iff.mp ⟨hmem, hnames⟩
        refine ⟨rfl, a, ha, fun hin => ?_, hit⟩
        have hshared := (toUInt16_of_toNat hnamed).symm.trans hin
        exact hok (.sharedInstance ha hshared hnamed hit hfits)
    · rw [hread]
      constructor
      · rintro ⟨f, hvalue, a, ha, hin, hit⟩
        have hexact : a.toNat = io.assemblies.input.toNat :=
          toNat_of_toUInt16 hin fun hwide => hok (.wrappedAssembly ha hit hin hwide)
        have hfits : bitFits r = true := by
          by_contra hlossy
          exact hok (.lossyBit ha (.inr ⟨hit, hin⟩) (by simpa using hlossy))
        obtain ⟨hmem, hnames⟩ := names_iff.mpr ⟨a, ha, hexact, hit, hfits⟩
        exact ⟨f, hmem, hnames, hvalue⟩
      · rintro ⟨f, hmem, hnames, hvalue⟩
        obtain ⟨a, ha, hnamed, hit, -⟩ := names_iff.mp ⟨hmem, hnames⟩
        exact ⟨f, hvalue, a, ha, toUInt16_of_toNat hnamed, hit⟩

/-! ## Samples -/

/-- The output word of the sample block. -/
def setpointField : IoFieldSpec where
  name := "setpoint"
  offset := 0
  eipType := .dint
  bit := none
  arrayCount := none
  scale := none
  valueOffset := none
  deadband := none

/-- A class-1 block with one input and one output word. -/
def sampleIo : IoConfig where
  rpiMs := 10
  o2tRpiMs := none
  assemblies := { config := none, output := 102, input := 101 }
  input :=
    { sizeBytes := 4
      signals := [
        { name := "status", offset := 0, eipType := .dint, bit := none, arrayCount := none,
          scale := none, valueOffset := none, deadband := none }] }
  output := some { sizeBytes := 4, signals := [setpointField] }

/-- How the sample device is reached. -/
def sampleConnection : ConnectionConfig :=
  { endpoint := "10.0.0.7", slot := none, connected := false }

/-- An explicit reference to the word at offset 0 of an assembly. -/
def wordRef (assembly : ℕ) : Json :=
  .obj [("assembly", Json.ofNat assembly), ("offset", Json.ofNat 0), ("type", .str "dint")]

/-- A reference under the output instance is not misread, hence exact. -/
theorem push_references_exact_output :
    sampleIo.validate "press-2" = .ok () ∧
      ReferencesExact sampleIo sampleConnection (wordRef 102) := by
  have haccepted : sampleIo.validate "press-2" = .ok () := by decide +kernel
  refine ⟨haccepted, (push_references_exact_iff haccepted sampleConnection rfl).mpr ?_⟩
  have hassembly : refAssembly (wordRef 102) = some 102 := by decide +kernel
  intro hmis
  cases hmis with
  | foreignAssembly ha _ _ hout =>
    rw [hassembly] at ha
    cases ha
    exact hout rfl
  | wrappedAssembly ha _ _ hwide =>
    rw [hassembly] at ha
    cases ha
    revert hwide
    decide
  | lossyBit _ _ hlossy =>
    revert hlossy
    decide
  | sharedInstance _ hshared _ _ _ =>
    revert hshared
    decide

/-- A write reference under an assembly that is neither instance resolves to the output field
all the same. -/
theorem foreign_assembly_resolves :
    sampleIo.validate "press-2" = .ok () ∧
      ¬ReferencesExact sampleIo sampleConnection (wordRef 999) := by
  refine ⟨by decide +kernel, fun h => ?_⟩
  have hok : ∃ id f, resolvePushWriteRef sampleIo (wordRef 999) = .ok (id, f) := ⟨_, _, rfl⟩
  obtain ⟨id, f, hok⟩ := hok
  obtain ⟨-, -, hnames⟩ := (h.write id f).mp hok
  have hassembly := hnames.assembly
  revert hassembly
  decide +kernel

end EnipAdapter.Analysis
