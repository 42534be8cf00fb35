import EnipAdapter.Analysis.PushReference
import EnipAdapter.Analysis.WriteBatch
import EnipAdapter.Foundation.AssocList
import EnipAdapter.Interface.InventoryContract

/-!
# What is listed can be addressed

An entry of `sb/signals` holds what the resolvers of `sb/read` and `sb/write` look for: a name
that is unique in the configuration, and an address whose members they narrow without loss. Of a
single write the loop hands over one message or none, as the allow-list says.
-/

set_option autoImplicit false

namespace EnipAdapter.Analysis

open EnipAdapter.Foundation EnipAdapter.Model EnipAdapter.Interface

/-! ## A write of one entry -/

section Handed

variable {render : Json → String} {cfg : DeviceConfig} {loop : WriteLoop}
  {answer : ℕ → DeviceAnswer} {r : Json}

/-- An entry with a target and a value is handed over when the target is permitted. -/
theorem handed_target {id : String} {request : Json → DeviceControl} {v : Json}
    (hloop : loopOf render cfg = some loop) (hresolve : loop.resolve r = .target id request)
    (hvalue : CarriesValue r v) (htakes : StaysOpen answer) :
    handed render cfg answer r = if cfg.writes.permits id then [request v] else [] := by
  unfold CarriesValue at hvalue
  have hopen := htakes 0
  unfold handed writeAll
  simp only [hloop, List.zipIdx_cons, List.zipIdx_nil, runUntil, writeEntry, hresolve, hvalue]
  cases hpermits : cfg.writes.permits id with
  | false => rfl
  | true =>
    cases hanswer : answer 0 with
    | closed => exact absurd hanswer hopen
    | acked result => cases result <;> rfl
    | dropped => rfl

/-- One that resolves to nothing is not. -/
theorem handed_unresolved {label error : String} (hloop : loopOf render cfg = some loop)
    (hresolve : loop.resolve r = .unresolved label error) : handed render cfg answer r = [] := by
  unfold handed writeAll
  simp only [hloop, List.zipIdx_cons, List.zipIdx_nil, runUntil, writeEntry, hresolve]
  rfl

end Handed

/-! ## Finding by name -/

/-- A reference that copies a name carries it. -/
theorem name_of_copy {e r : Json} {name : String} (hname : e.get "name" = some (.str name))
    (h : CopiesName e r) : (r.get "name").bind Json.asStr = some name := by
  rw [h.2, hname]
  rfl

/-! ## Numbers and types as JSON carries them -/

/-- A type is read back from its name. -/
theorem parse_wire (ty : EipType) : EipType.parse ty.wire = some ty := by
  cases ty <;> decide

/-- A number is read back as the word it was made of. -/
theorem asU64_ofNat (n : ℕ) : (Json.ofNat n).asU64 = some (UInt64.ofNat n) := rfl

/-- A word keeps a number below 2^64. -/
theorem toNat_ofNat {n : ℕ} (h : n < 2 ^ 64) : (UInt64.ofNat n).toNat = n :=
  UInt64.toNat_ofNat_of_lt' h

/-- A count that is allowed is read back. -/
theorem arrayCountOf_ofNat {n : UInt32} (h : 1 ≤ n ∧ n ≤ maxArrayCount) :
    arrayCountOf (Json.ofNat n.toNat) = some n := by
  have hlow : 1 ≤ n.toNat := UInt32.le_iff_toNat_le.mp h.1
  have hhigh : n.toNat ≤ maxArrayCount.toNat := UInt32.le_iff_toNat_le.mp h.2
  have hnat := toNat_ofNat (n := n.toNat) (n.toNat_lt.trans (by norm_num))
  unfold arrayCountOf
  simp only [asU64_ofNat, hnat]
  rw [if_pos ⟨hlow, hhigh⟩, UInt32.ofNat_toNat]

/-! ## Poll devices -/

section Poll

variable {render : Json → String} {view : SignalsView} {g : ScheduledGroup} {s : SignalSpec}
  {r : Json}

/-- A poll entry has the signal's name. -/
theorem pollSignal_name : (view.pollSignal g s).get "name" = some (.str s.name) := rfl

/-- Its id is the tag path. -/
theorem pollSignal_id : (view.pollSignal g s).get "id" = some (.str s.tagPath) := rfl

/-- Its address is the signal's. -/
theorem pollSignal_address :
    (view.pollSignal g s).get "address" = some (s.addressJson view.cfg.connection) := rfl

/-- It is writable as the write list says. -/
theorem pollSignal_writable :
    (view.pollSignal g s).get "writable" = some (.bool (view.cfg.writes.permits s.tagPath)) := rfl

/-- A listed signal is configured. -/
theorem mem_pollSignals {e : Json} (h : e ∈ view.pollSignals) :
    ∃ g s, s ∈ view.cfg.signals ∧ e = view.pollSignal g s := by
  obtain ⟨g, hg, he⟩ := List.mem_flatMap.mp h
  obtain ⟨s, hs, rfl⟩ := List.mem_map.mp he
  refine ⟨g, s, ?_, rfl⟩
  unfold DeviceConfig.signals
  rw [← view.groups, List.flatMap_map]
  exact List.mem_flatMap.mpr ⟨g, hg, hs⟩

/-- The ids that are listed are the configured tag paths, in order. -/
theorem pollSignals_ids : view.pollSignals.map (·.get "id") =
    view.cfg.signals.map fun spec => some (.str spec.tagPath) := by
  unfold SignalsView.pollSignals DeviceConfig.signals
  rw [← view.groups, List.flatMap_map]
  induction view.task.groups with
  | nil => rfl
  | cons g rest ih =>
    simp only [List.flatMap_cons, List.map_append, List.map_map, ih]
    rfl

/-- What resolves to the tag of an entry reaches it. -/
theorem reachesTag_of_resolves {spec : SignalSpec} (hmode : view.cfg.mode = .poll)
    (hresolve : resolvePollRef render view.cfg r = .ok spec) (htag : spec.tagPath = s.tagPath)
    (haddress : spec.addressJson view.cfg.connection = s.addressJson view.cfg.connection) :
    ReachesTag render view.cfg (view.pollSignal g s) r := by
  have hloop : loopOf render view.cfg = some (pollLoop render view.cfg) := by
    unfold loopOf
    rw [hmode]
  have htarget : (pollLoop render view.cfg).resolve r =
      .target spec.tagPath (DeviceControl.write spec) := by
    unfold pollLoop
    simp only [hresolve]
  constructor
  · refine ⟨spec, hresolve, ?_, ?_⟩
    · rw [pollSignal_id, htag]
    · rw [pollSignal_address, haddress]
  · intro answer v htakes hvalue
    refine ⟨spec, view.cfg.writes.permits s.tagPath, hresolve, pollSignal_writable, ?_⟩
    rw [← htag]
    exact handed_target hloop htarget hvalue htakes

/-- A copied name resolves to the signal. -/
theorem resolvePollRef_named (render : Json → String) (haccepted : AcceptedPoll view.cfg)
    (hmem : s ∈ view.cfg.signals)
    (hcopy : CopiesName (view.pollSignal g s) r) :
    resolvePollRef render view.cfg r = .ok s := by
  unfold resolvePollRef
  simp only [name_of_copy pollSignal_name hcopy, find_of_nodup haccepted.names hmem]

/-- A copied address resolves to the tag, its type and its element count. -/
theorem resolvePollRef_addressed (render : Json → String) (haccepted : AcceptedPoll view.cfg)
    (hmem : s ∈ view.cfg.signals) (hcopy : CopiesAddress (view.pollSignal g s) r) :
    resolvePollRef render view.cfg r =
      .ok ⟨s.tagPath, s.tagPath, s.eipType, s.arrayCount, none, none, {}⟩ := by
  obtain ⟨hunnamed, address, haddress, hmembers⟩ := hcopy
  rw [pollSignal_address] at haddress
  obtain rfl := Option.some.inj haddress
  have htag : r.get "tagPath" = some (.str s.tagPath) := hmembers "tagPath" (by decide)
  have htype : r.get "type" = some (.str s.eipType.wire) := hmembers "type" (by decide)
  have hcount : r.get "arrayCount" = s.arrayCount.map fun n => Json.ofNat n.toNat := by
    rw [hmembers "arrayCount" (by decide)]
    unfold SignalSpec.addressJson
    cases s.arrayCount <;> cases view.cfg.connection.slot <;> rfl
  unfold resolvePollRef
  simp only [hunnamed, htag, htype, hcount, Option.bind_none, Option.bind_some, Json.asStr,
    parse_wire]
  cases hs : s.arrayCount with
  | none => rfl
  | some n =>
    have hbounds := haccepted.counts s hmem n hs
    simp only [Option.map_some, Option.filter_some, Json.ofNat, Json.isNull, Bool.not_false,
      if_true]
    have hparsed := arrayCountOf_ofNat hbounds
    unfold Json.ofNat at hparsed
    rw [hparsed]

end Poll

/-- The listing of an accepted poll device keeps its contract. -/
theorem tags_inventory (render : Json → String) {view : SignalsView} (hmode : view.cfg.mode = .poll)
    (haccepted : AcceptedPoll view.cfg) : TagInventory render view := by
  have hlisted : listedSignals view.signals = view.pollSignals := by
    unfold SignalsView.signals
    rw [hmode]
    rfl
  constructor
  · rw [hlisted]
    exact pollSignals_ids
  · rw [hlisted, pollSignals_ids]
    have hids := haccepted.tagPaths.map (f := fun tag => some (Json.str tag)) (by
      intro a b h
      exact Json.str.inj (Option.some.inj h))
    rwa [List.map_map] at hids
  · rw [hlisted]
    intro e he r hcopy
    obtain ⟨g, s, hmem, rfl⟩ := mem_pollSignals he
    have hresolve := resolvePollRef_named render haccepted hmem hcopy
    exact ⟨reachesTag_of_resolves hmode hresolve rfl rfl, s, hmem, hresolve⟩
  · rw [hlisted]
    intro e he r hcopy
    obtain ⟨g, s, hmem, rfl⟩ := mem_pollSignals he
    have hresolve := resolvePollRef_addressed render haccepted hmem hcopy
    exact ⟨reachesTag_of_resolves hmode hresolve rfl rfl, _, hresolve, rfl, rfl⟩

/-! ## Push devices -/

section Push

variable {render : Json → String} {view : SignalsView} {io : IoConfig} {inst : UInt16}
  {direction : String} {f : IoFieldSpec} {r : Json}

/-- A push entry has the field's name. -/
theorem fieldSignal_name : (view.fieldSignal inst direction f).get "name" = some (.str f.name) :=
  rfl

/-- Its id is made of the assembly and the field. -/
theorem fieldSignal_id :
    (view.fieldSignal inst direction f).get "id" = some (.str (f.signalId inst)) := rfl

/-- Its address is the field's. -/
theorem fieldSignal_address : (view.fieldSignal inst direction f).get "address" =
    some (f.addressJson inst view.cfg.connection) := rfl

/-- It is writable as the write list says. -/
theorem fieldSignal_writable : (view.fieldSignal inst direction f).get "writable" =
    some (.bool (view.cfg.writes.permits (f.signalId inst))) := rfl

/-- A copied address hits its field, under the number of its assembly. -/
theorem hits_of_copy {fields : List IoFieldSpec} (hmem : f ∈ fields) (hoffset : f.offset < 2 ^ 64)
    (hcopy : CopiesAddress (view.fieldSignal inst direction f) r) :
    refAssembly r = some (UInt64.ofNat inst.toNat) ∧ Hits fields r f := by
  obtain ⟨-, address, haddress, hmembers⟩ := hcopy
  rw [fieldSignal_address] at haddress
  obtain rfl := Option.some.inj haddress
  have hassembly : r.get "assembly" = some (Json.ofNat inst.toNat) :=
    hmembers "assembly" (by decide)
  have hoff : r.get "offset" = some (Json.ofNat f.offset) := hmembers "offset" (by decide)
  have htype : r.get "type" = some (.str f.eipType.wire) := hmembers "type" (by decide)
  have hbit : r.get "bit" = f.bit.map fun b => Json.ofNat b.toNat := by
    rw [hmembers "bit" (by decide)]
    unfold IoFieldSpec.addressJson
    cases f.bit <;> cases f.arrayCount <;> cases view.cfg.connection.slot <;> rfl
  refine ⟨?_, hmem, ?_, ?_, ?_⟩
  · unfold refAssembly
    rw [hassembly]
    rfl
  · rw [hoff, Option.bind_some, asU64_ofNat, Option.map_some, toNat_ofNat hoffset]
  · rw [htype, Option.bind_some]
    exact parse_wire f.eipType
  · rw [hbit]
    cases f.bit with
    | none => rfl
    | some b =>
      have hnat := toNat_ofNat (n := b.toNat) (b.toNat_lt.trans (by norm_num))
      have hsmall : (UInt64.ofNat b.toNat).toNat < 256 := by
        rw [hnat]
        exact b.toNat_lt
      rw [Option.map_some, Option.bind_some, asU64_ofNat, Option.map_some]
      exact congrArg some ((toUInt8_eq_iff hsmall).mpr hnat)

/-- An assembly instance survives being a JSON number. -/
theorem toUInt16_ofNat (inst : UInt16) : (UInt64.ofNat inst.toNat).toUInt16 = inst :=
  toUInt16_of_toNat (toNat_ofNat (inst.toNat_lt.trans (by norm_num)))

/-- A reference that copies an address carries no name. -/
theorem unnamed_of_copy {e : Json} (h : CopiesAddress e r) :
    (r.get "name").bind Json.asStr = none := by
  rw [h.unnamed]
  rfl

/-! ### The input side -/

/-- A reference copied from an input entry resolves to that field for a read. -/
theorem resolvePushReadRef_copied (haccepted : AcceptedIo io) (hmem : f ∈ io.input.signals)
    (hoffset : f.offset < 2 ^ 64)
    (hcopy : CopiesName (view.fieldSignal io.assemblies.input direction f) r ∨
      CopiesAddress (view.fieldSignal io.assemblies.input direction f) r) :
    resolvePushReadRef io view.cfg.connection r =
      some (f.signalId io.assemblies.input,
        f.addressJson io.assemblies.input view.cfg.connection) := by
  rcases hcopy with hcopy | hcopy
  · have hnames := haccepted.names
    rw [List.map_append] at hnames
    unfold resolvePushReadRef
    simp only [name_of_copy fieldSignal_name hcopy]
    rw [find_of_nodup (List.nodup_append.mp hnames).1 hmem]
    rfl
  · rw [resolvePushReadRef_iff haccepted.inputIds (unnamed_of_copy hcopy)]
    obtain ⟨hassembly, hhits⟩ := hits_of_copy hmem hoffset hcopy
    exact ⟨f, ⟨rfl, rfl⟩, _, hassembly, toUInt16_ofNat _, hhits⟩

/-- A write that names an input field is refused before it gets to the allow-list. -/
theorem resolvePushWriteRef_input (haccepted : AcceptedIo io) (hmem : f ∈ io.input.signals)
    (hoffset : f.offset < 2 ^ 64)
    (hcopy : CopiesName (view.fieldSignal io.assemblies.input direction f) r ∨
      CopiesAddress (view.fieldSignal io.assemblies.input direction f) r) :
    ∃ label, resolvePushWriteRef io r = .error (label, "input field") := by
  rcases hcopy with hcopy | hcopy
  · have hnames := haccepted.names
    rw [List.map_append] at hnames
    have hother : io.outputSignals.find? (·.name == f.name) = none := by
      rw [List.find?_eq_none]
      intro g hg heq
      have hdisjoint := (List.nodup_append.mp hnames).2.2
      exact hdisjoint f.name (List.mem_map_of_mem hmem) g.name (List.mem_map_of_mem hg)
        (beq_iff_eq.mp heq).symm
    have hany : io.input.signals.any (·.name == f.name) = true :=
      List.any_eq_true.mpr ⟨f, hmem, beq_self_eq_true _⟩
    refine ⟨f.name, ?_⟩
    unfold resolvePushWriteRef
    simp only [name_of_copy fieldSignal_name hcopy, hother, hany]
    rfl
  · obtain ⟨hassembly, hhits⟩ := hits_of_copy hmem hoffset hcopy
    unfold refAssembly at hassembly
    obtain ⟨off, hoff, hsame⟩ := Option.map_eq_some_iff.mp hhits.offset
    unfold resolvePushWriteRef
    simp only [unnamed_of_copy hcopy, hassembly, hoff, hhits.type, Option.map_some,
      toUInt16_ofNat, if_true]
    exact ⟨_, rfl⟩

/-- It reaches the entry. -/
theorem reachesInput_of_copy (hmode : view.cfg.mode = .push) (hio : view.cfg.io = some io)
    (haccepted : AcceptedIo io) (hmem : f ∈ io.input.signals) (hoffset : f.offset < 2 ^ 64)
    (hcopy : CopiesName (view.fieldSignal io.assemblies.input direction f) r ∨
      CopiesAddress (view.fieldSignal io.assemblies.input direction f) r) :
    ReachesInput render view.cfg io (view.fieldSignal io.assemblies.input direction f) r := by
  have hloop : loopOf render view.cfg = some (pushLoop io) := by
    unfold loopOf
    rw [hmode, hio]
    rfl
  constructor
  · exact ⟨_, _, resolvePushReadRef_copied haccepted hmem hoffset hcopy, fieldSignal_id,
      fieldSignal_address⟩
  · intro answer
    obtain ⟨label, hrefused⟩ := resolvePushWriteRef_input haccepted hmem hoffset hcopy
    have hunresolved : (pushLoop io).resolve r = .unresolved label "input field" := by
      unfold pushLoop
      simp only [hrefused]
    exact handed_unresolved hloop hunresolved

/-! ### The output side -/

/-- A reference copied from an output entry resolves to that field for a write. -/
theorem resolvePushWriteRef_copied (haccepted : AcceptedIo io) (hmem : f ∈ io.outputSignals)
    (hoffset : f.offset < 2 ^ 64)
    (hcopy : CopiesName (view.fieldSignal io.assemblies.output direction f) r ∨
      CopiesAddress (view.fieldSignal io.assemblies.output direction f) r ∧
        io.assemblies.output ≠ io.assemblies.input) :
    resolvePushWriteRef io r = .ok (f.signalId io.assemblies.output, f) := by
  rcases hcopy with hcopy | ⟨hcopy, hdistinct⟩
  · have hnames := haccepted.names
    rw [List.map_append] at hnames
    unfold resolvePushWriteRef
    simp only [name_of_copy fieldSignal_name hcopy,
      find_of_nodup (List.nodup_append.mp hnames).2.1 hmem]
  · rw [resolvePushWriteRef_iff haccepted.outputIds (unnamed_of_copy hcopy)]
    obtain ⟨hassembly, hhits⟩ := hits_of_copy hmem hoffset hcopy
    refine ⟨rfl, _, hassembly, ?_, hhits⟩
    rw [toUInt16_ofNat]
    exact hdistinct

/-- It reaches the entry. -/
theorem reachesOutput_of_copy (hmode : view.cfg.mode = .push) (hio : view.cfg.io = some io)
    (haccepted : AcceptedIo io) (hmem : f ∈ io.outputSignals) (hoffset : f.offset < 2 ^ 64)
    (hcopy : CopiesName (view.fieldSignal io.assemblies.output direction f) r ∨
      CopiesAddress (view.fieldSignal io.assemblies.output direction f) r ∧
        io.assemblies.output ≠ io.assemblies.input) :
    ReachesOutput render view.cfg io (view.fieldSignal io.assemblies.output direction f) r := by
  have hloop : loopOf render view.cfg = some (pushLoop io) := by
    unfold loopOf
    rw [hmode, hio]
    rfl
  have hresolve := resolvePushWriteRef_copied haccepted hmem hoffset hcopy
  constructor
  · exact ⟨f, hmem, hresolve, fieldSignal_id, fieldSignal_address⟩
  · intro answer v htakes hvalue
    have htarget : (pushLoop io).resolve r =
        .target (f.signalId io.assemblies.output) (DeviceControl.writeOutput f) := by
      unfold pushLoop
      simp only [hresolve]
    exact ⟨f, _, hresolve, fieldSignal_writable, handed_target hloop htarget hvalue htakes⟩

end Push

/-- The listing of an accepted push device keeps its contract. -/
theorem fields_inventory (render : Json → String) {view : SignalsView} {io : IoConfig}
    (hmode : view.cfg.mode = .push) (hio : view.cfg.io = some io) (haccepted : AcceptedIo io)
    (hoffsets : MachineOffsets view.cfg) : FieldInventory render view io := by
  have hlisted : listedSignals view.signals = view.inputSignals io ++ view.outputSignals io := by
    unfold SignalsView.signals SignalsView.pushSignals
    rw [hmode, hio]
    rfl
  have hoffset {f : IoFieldSpec} (hf : f ∈ io.input.signals ++ io.outputSignals) :
      f.offset < 2 ^ 64 := hoffsets io (Option.mem_def.mpr hio) f hf
  refine ⟨hlisted, ?_, ?_, ?_⟩
  · have hkeys : (listedSignals view.signals).map (·.get "name") =
        ((io.input.signals ++ io.outputSignals).map (·.name)).map
          (fun name => some (Json.str name)) := by
      rw [hlisted]
      unfold SignalsView.inputSignals SignalsView.outputSignals
      simp only [List.map_append, List.map_map]
      rfl
    rw [hkeys]
    apply haccepted.names.map
    intro a b h
    exact Json.str.inj (Option.some.inj h)
  · intro e he r hcopy
    obtain ⟨f, hf, rfl⟩ := List.mem_map.mp he
    exact reachesInput_of_copy hmode hio haccepted hf (hoffset (List.mem_append_left _ hf)) hcopy
  · intro e he r hcopy
    obtain ⟨f, hf, rfl⟩ := List.mem_map.mp he
    exact reachesOutput_of_copy hmode hio haccepted hf (hoffset (List.mem_append_right _ hf)) hcopy

/-! ## Both modes -/

/-- Validation leaves the mode of a device as it is. -/
theorem mode_of_validate {cfg cfg' : DeviceConfig} (h : cfg.validate = .ok cfg') :
    cfg'.mode = cfg.mode := by
  cases hmode : cfg.mode with
  | poll => exact (acceptedPoll_of_validate h hmode).1
  | push =>
    obtain ⟨rfl, -⟩ := acceptedPush_of_validate h hmode
    exact hmode

/-- Whatever a client copies from `sb/signals` of an accepted configuration reaches the signal
that was listed, and a write of it goes to the device exactly when the entry is writable; an
input field is never written. -/
theorem listed_signals_are_addressable (render : Json → String) (view : SignalsView)
    {cfg : DeviceConfig} (h : cfg.validate = .ok view.cfg) (hoffsets : MachineOffsets view.cfg) :
    InventoryContract render view where
  tags := by
    intro hmode
    have hsource : cfg.mode = .poll := (mode_of_validate h).symm.trans hmode
    exact tags_inventory render hmode (acceptedPoll_of_validate h hsource).2
  fields := by
    intro hmode
    have hsource : cfg.mode = .push := (mode_of_validate h).symm.trans hmode
    obtain ⟨hsame, io, hio, haccepted⟩ := acceptedPush_of_validate h hsource
    rw [← hsame] at hio
    exact ⟨io, hio, fields_inventory render hmode hio haccepted hoffsets⟩

/-- A tag that may be written and one that may not, in two groups. -/
def listedTags : SignalsView where
  cfg := ⟨"line", .poll, ⟨"10.0.0.4", none, false, .absent⟩,
    [⟨some "fast", [⟨"speed", "LINE_SPEED", .dint, none, none, none, {}⟩]⟩,
      ⟨some "slow", [⟨"level", "Tank[2].Level", .real, none, some (F64.ofInt 10), none, {}⟩]⟩],
    none, ⟨["LINE_SPEED"]⟩⟩
  task :=
    { mode := .poll
      groups :=
        [{ id := some "fast"
           signals := [⟨"speed", "LINE_SPEED", .dint, none, none, none, {}⟩]
           pollIntervalMs := some 100 },
          { id := some "slow"
            signals := [⟨"level", "Tank[2].Level", .real, none, some (F64.ofInt 10), none, {}⟩] }]
      keepaliveMs := 1000 }
  groups := rfl
  observed := [("LINE_SPEED", "DINT")]

/-- One input field that may not be written, and an output bit that may. -/
def listedIo : IoConfig where
  rpiMs := 10
  o2tRpiMs := none
  assemblies := ⟨none, 150, 100⟩
  input := ⟨8, .modeless, [⟨"level", 0, .int, none, none, none, none, none⟩]⟩
  output := some ⟨2, .header32, true, [⟨"valve", 0, .bool, some 3, none, none, none, none⟩]⟩

def listedView : SignalsView where
  cfg := ⟨"tank", .push, ⟨"10.0.0.5", none, false, .absent⟩, [], some listedIo, ⟨["a150/0/bool.3"]⟩⟩
  task := { mode := .push, keepaliveMs := 1000 }
  groups := rfl
  observed := []

/-- The listings of a poll device and of a push device. -/
theorem listed_signals_are_addressable_examples :
    TagInventory (fun _ => "") listedTags ∧ FieldInventory (fun _ => "") listedView listedIo := by
  refine ⟨?_, ?_⟩
  · have haccepted : listedTags.cfg.validate = .ok listedTags.cfg := by decide +kernel
    have hoffsets : MachineOffsets listedTags.cfg := by
      intro io hio
      cases hio
    exact (listed_signals_are_addressable (fun _ => "") listedTags haccepted hoffsets).tags rfl
  · have haccepted : listedView.cfg.validate = .ok listedView.cfg := by decide +kernel
    have hoffsets : MachineOffsets listedView.cfg := by
      intro io hio f hf
      obtain rfl := Option.some.inj (Option.mem_def.mp hio)
      have hall : ∀ g ∈ listedIo.input.signals ++ listedIo.outputSignals, g.offset < 2 ^ 64 := by
        decide
      exact hall f hf
    obtain ⟨io, hio, hfields⟩ :=
      (listed_signals_are_addressable (fun _ => "") listedView haccepted hoffsets).fields rfl
    cases hio
    exact hfields

end EnipAdapter.Analysis
