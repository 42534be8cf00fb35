import EnipAdapter.Model.Config
import Mathlib.Data.List.Nodup

/-!
# What an accepted configuration guarantees

Validation is a list of refusals; its callers rely on what is true once none of them fired.
`AcceptedIo` states that about the class-1 block, `AcceptedPush` about a push device and
`AcceptedPoll` about a poll device, and `validate` establishes all three.
-/

set_option autoImplicit false

namespace EnipAdapter.Interface

open EnipAdapter.Foundation EnipAdapter.Model

/-- What validation establishes of a class-1 block. -/
structure AcceptedIo (io : IoConfig) : Prop where
  /-- The watchdog multiplier is one the protocol has. -/
  multiplier : ∃ m : TimeoutMultiplier, io.timeoutMultiplierEnip = .ok m
  rpi : io.rpiMs ≠ 0
  o2tRpi : io.effectiveO2tRpiMs ≠ 0
  inputFormat : io.input.realTimeFormat ≠ .heartbeat
  inputSize : io.input.sizeBytes ≠ 0
  inputSignals : io.input.signals ≠ []
  /-- An output with fields has room for data. -/
  outputSize : ∀ out ∈ io.output, out.signals ≠ [] → out.sizeBytes ≠ 0
  /-- Names are unique over both directions. -/
  names : ((io.input.signals ++ io.outputSignals).map (·.name)).Nodup
  inputIds : (io.input.signals.map (·.signalId io.assemblies.input)).Nodup
  outputIds : (io.outputSignals.map (·.signalId io.assemblies.output)).Nodup
  inputLayout : ∃ layout : AssemblyLayout, io.inputLayout = .ok layout
  outputLayout : ∃ layout : Option AssemblyLayout, io.outputLayout = .ok layout

/-- The field loop returns the names and ids it was given with those of the fields in front,
and finds no repetition among them. -/
theorem checkFields_ok {deviceId : String} {inst : UInt16} {side : IoSide}
    {fields : List IoFieldSpec} {taken taken' : Taken}
    (h : checkFields deviceId inst side fields taken = .ok taken')
    (hnames : taken.names.Nodup) (hids : taken.ids.Nodup) :
    taken'.names = (fields.map (·.name)).reverse ++ taken.names ∧
      taken'.ids = (fields.map (·.signalId inst)).reverse ++ taken.ids ∧
      taken'.names.Nodup ∧ taken'.ids.Nodup := by
  induction fields generalizing taken with
  | nil =>
    cases h
    exact ⟨rfl, rfl, hnames, hids⟩
  | cons field rest ih =>
    simp only [checkFields, bind_ok, refuse_ok] at h
    obtain ⟨_, hname, _, hid, _, _, hrest⟩ := h
    have hnames' : (field.name :: taken.names).Nodup := List.nodup_cons.mpr ⟨hname, hnames⟩
    have hids' : (field.signalId inst :: taken.ids).Nodup := List.nodup_cons.mpr ⟨hid, hids⟩
    obtain ⟨h1, h2, h3, h4⟩ := ih hrest hnames' hids'
    refine ⟨?_, ?_, h3, h4⟩
    · simpa using h1
    · simpa using h2

/-- Every check of the block's validation is met once it has passed. -/
theorem acceptedIo_of_validate {io : IoConfig} {deviceId : String}
    (h : io.validate deviceId = .ok ()) : AcceptedIo io := by
  simp only [IoConfig.validate, bind_ok, refuse_ok, mapError_ok] at h
  obtain ⟨m, hm, _, hrpi, _, ho2t, _, hformat, _, hsize, _, hsignals, _, hout, taken, hin,
    taken', hoc, inLayout, hil, outLayout, hol, _⟩ := h
  obtain ⟨hn, hi, hnn, hin'⟩ := checkFields_ok hin List.nodup_nil List.nodup_nil
  obtain ⟨hn', hi', hnn', hii'⟩ := checkFields_ok hoc hnn hin'
  simp only [List.append_nil] at hn hi
  refine ⟨⟨m, hm⟩, hrpi, ho2t, hformat, hsize, hsignals, ?_, ?_, ?_, ?_, ⟨inLayout, hil⟩,
    ⟨outLayout, hol⟩⟩
  · intro out hmem hne hzero
    exact hout ⟨out, hmem, hzero, hne⟩
  · rw [hn', hn, ← List.reverse_append] at hnn'
    simpa using List.nodup_reverse.mp hnn'
  · rw [hi] at hin'
    exact List.nodup_reverse.mp hin'
  · rw [hi'] at hii'
    exact List.nodup_reverse.mp (List.nodup_append.mp hii').1

/-- A push device that was accepted: an accepted class-1 block and no poll groups. -/
structure AcceptedPush (cfg : DeviceConfig) (io : IoConfig) : Prop where
  block : cfg.io = some io
  accepted : AcceptedIo io

/-- Validation of a push device accepts its block and changes nothing. -/
theorem acceptedPush_of_validate {cfg cfg' : DeviceConfig} (h : cfg.validate = .ok cfg')
    (hmode : cfg.mode = .push) : cfg' = cfg ∧ ∃ io, AcceptedPush cfg io := by
  simp only [DeviceConfig.validate, bind_ok, hmode, refuse_ok] at h
  obtain ⟨_, _, _, _, h⟩ := h
  split at h
  · cases h
  · rename_i io hio
    simp only [bind_ok] at h
    obtain ⟨_, hv, h⟩ := h
    cases h
    exact ⟨rfl, io, hio, acceptedIo_of_validate hv⟩

/-! ## Poll devices -/

/-- A poll device that was accepted. -/
structure AcceptedPoll (cfg : DeviceConfig) : Prop where
  /-- Names and tag paths are unique over all groups. -/
  names : (cfg.signals.map (·.name)).Nodup
  tagPaths : (cfg.signals.map (·.tagPath)).Nodup
  /-- An array has an element count that a read can ask for. -/
  counts : ∀ sig ∈ cfg.signals, ∀ n ∈ sig.arrayCount, 1 ≤ n ∧ n ≤ maxArrayCount

/-- The signal loop returns the names and tag paths it was given with those of the signals in
front, and finds no repetition among them. -/
theorem checkSignals_ok {deviceId : String} {sigs : List SignalSpec} {taken taken' : Taken}
    (h : checkSignals deviceId sigs taken = .ok taken')
    (hnames : taken.names.Nodup) (hids : taken.ids.Nodup) :
    taken'.names = (sigs.map (·.name)).reverse ++ taken.names ∧
      taken'.ids = (sigs.map (·.tagPath)).reverse ++ taken.ids ∧
      taken'.names.Nodup ∧ taken'.ids.Nodup ∧
      ∀ sig ∈ sigs, ∀ n ∈ sig.arrayCount, 1 ≤ n ∧ n ≤ maxArrayCount := by
  induction sigs generalizing taken with
  | nil =>
    cases h
    exact ⟨rfl, rfl, hnames, hids, nofun⟩
  | cons sig rest ih =>
    simp only [checkSignals, bind_ok, refuse_ok] at h
    obtain ⟨_, hname, _, hid, _, hcount, _, _, _, _, hrest⟩ := h
    have hnames' : (sig.name :: taken.names).Nodup := List.nodup_cons.mpr ⟨hname, hnames⟩
    have hids' : (sig.tagPath :: taken.ids).Nodup := List.nodup_cons.mpr ⟨hid, hids⟩
    obtain ⟨h1, h2, h3, h4, h5⟩ := ih hrest hnames' hids'
    refine ⟨?_, ?_, h3, h4, ?_⟩
    · simpa using h1
    · simpa using h2
    · intro s hs n hn
      obtain rfl | hs := List.mem_cons.mp hs
      · by_contra hout
        exact hcount ⟨n, hn, hout⟩
      · exact h5 s hs n hn

/-- And so does the group loop. -/
theorem checkGroups_ok {deviceId : String} {groups : List (PollGroup × ℕ)} {taken taken' : Taken}
    (h : checkGroups deviceId groups taken = .ok taken')
    (hnames : taken.names.Nodup) (hids : taken.ids.Nodup) :
    taken'.names = ((groups.flatMap (·.1.signals)).map (·.name)).reverse ++ taken.names ∧
      taken'.ids = ((groups.flatMap (·.1.signals)).map (·.tagPath)).reverse ++ taken.ids ∧
      taken'.names.Nodup ∧ taken'.ids.Nodup ∧
      ∀ sig ∈ groups.flatMap (·.1.signals), ∀ n ∈ sig.arrayCount,
        1 ≤ n ∧ n ≤ maxArrayCount := by
  induction groups generalizing taken with
  | nil =>
    cases h
    exact ⟨rfl, rfl, hnames, hids, nofun⟩
  | cons g rest ih =>
    obtain ⟨group, idx⟩ := g
    simp only [checkGroups, bind_ok, refuse_ok] at h
    obtain ⟨_, _, middle, hgroup, hrest⟩ := h
    obtain ⟨h1, h2, h3, h4, h5⟩ := checkSignals_ok hgroup hnames hids
    obtain ⟨k1, k2, k3, k4, k5⟩ := ih hrest h3 h4
    refine ⟨?_, ?_, k3, k4, ?_⟩
    · rw [k1, h1]
      simp
    · rw [k2, h2]
      simp
    · intro s hs
      obtain hs | hs := List.mem_append.mp hs
      · exact h5 s hs
      · exact k5 s hs

/-- Giving the groups their ids leaves their signals. -/
theorem flatMap_signals_map {name : PollGroup × ℕ → PollGroup}
    (h : ∀ p, (name p).signals = p.1.signals) (groups : List (PollGroup × ℕ)) :
    (groups.map name).flatMap (·.signals) = groups.flatMap (·.1.signals) := by
  rw [List.flatMap_map]
  exact congrArg (groups.flatMap ·) (funext h)

/-- Validation of a poll device accepts its signals and changes none of them. -/
theorem acceptedPoll_of_validate {cfg cfg' : DeviceConfig} (h : cfg.validate = .ok cfg')
    (hmode : cfg.mode = .poll) : cfg'.mode = .poll ∧ AcceptedPoll cfg' := by
  simp only [DeviceConfig.validate, bind_ok, hmode, refuse_ok, DeviceConfig.validatePoll] at h
  obtain ⟨_, _, _, _, _, _, taken, hgroups, h⟩ := h
  cases h
  obtain ⟨hn, hi, hnn, hin, hcounts⟩ :=
    checkGroups_ok hgroups List.nodup_nil List.nodup_nil
  simp only [List.append_nil] at hn hi
  rw [hn] at hnn
  rw [hi] at hin
  refine ⟨rfl, ?_, ?_, ?_⟩ <;> unfold DeviceConfig.signals <;> simp only <;>
    rw [flatMap_signals_map (fun p => by split <;> rfl)]
  · exact List.nodup_reverse.mp hnn
  · exact List.nodup_reverse.mp hin
  · exact hcounts

end EnipAdapter.Interface
