import EnipAdapter.Analysis.MetricRows
import Mathlib.Tactic.Ring

/-!
# The metrics add up

Over any interleaving of the tasks that record and emit, the ledger of every counter stays balanced,
no drained row is lost or handed over twice, every row is of a defined family, and none comes that
was not announced.
-/

set_option autoImplicit false

namespace EnipAdapter.Analysis

open EnipAdapter.Foundation
open EnipAdapter.Interface
open EnipAdapter.Model

variable {setup : MetricSetup}

/-! ## A step of the system -/

/-- What a turn can do: nothing, hand over a row, or take the rows of the next part. -/
inductive EmissionTurn (setup : MetricSetup) (now : Instant) (s s' : MetricSystem) : Prop where
  | idle (h : s' = s)
  | handed (before after : List EmitTask) (task : EmitTask) (row : Emission)
      (hand : List Emission) (htasks : s.tasks = before ++ task :: after)
      (hhand : task.hand = row :: hand)
      (h : s' = { s with
        emitted := s.emitted ++ [row]
        tasks := before ++ { task with hand := hand } :: after })
  | took (before after : List EmitTask) (task : EmitTask) (part : EmitPart)
      (parts : List EmitPart) (htasks : s.tasks = before ++ task :: after)
      (hhand : task.hand = []) (hparts : task.parts = part :: parts)
      (hand : List Emission)
      (htaken : hand = (s.state.collect setup now part).2.map (emitCombo setup task.now))
      (h : s' = { s with
        state := (s.state.collect setup now part).1
        drained := s.drained ++ hand
        tasks := before ++ { task with parts := parts, hand := hand } :: after })

/-- A turn of a task drains a part, hands over a row, or finds nothing to do. -/
theorem emissionTurn_step (s : MetricSystem) (i : ℕ) (now : Instant) :
    EmissionTurn setup now s (metricStep setup s (.turn i now)) := by
  cases htask : s.tasks[i]? with
  | none =>
      apply EmissionTurn.idle
      simp only [metricStep, htask]
  | some task =>
      obtain ⟨hlength, hget⟩ := List.getElem?_eq_some_iff.mp htask
      have htasks : s.tasks = s.tasks.take i ++ task :: s.tasks.drop (i + 1) := by
        rw [← hget, ← List.drop_eq_getElem_cons hlength, List.take_append_drop]
      have hset : ∀ task', s.tasks.set i task' =
          s.tasks.take i ++ task' :: s.tasks.drop (i + 1) :=
        fun task' => by rw [List.set_eq_take_append_cons_drop, if_pos hlength]
      have hstep : metricStep setup s (.turn i now) = s.turn setup i task now := by
        simp only [metricStep, htask]
      rw [hstep]
      unfold MetricSystem.turn
      cases hhand : task.hand with
      | cons row hand =>
          refine .handed _ _ task row hand htasks hhand ?_
          simp only [hset]
      | nil =>
          cases hparts : task.parts with
          | nil => exact .idle rfl
          | cons part parts =>
              refine .took _ _ task part parts htasks hhand hparts _ rfl ?_
              simp only [hset]

/-- The ledger of every counter is balanced. -/
def LedgersBalanced (setup : MetricSetup) (s : MetricSystem) : Prop :=
  ∀ (combo : MetricCombo) (stem : String), Posted (reportsOf setup combo stem s.drained)
    (pairOf stem (rowCounters s.state combo)).total
    (pairOf stem (rowCounters s.state combo)).interval

/-- Every input keeps the ledgers balanced. -/
theorem ledgersBalanced_step (s : MetricSystem) (input : MetricInput)
    (h : LedgersBalanced setup s) :
    LedgersBalanced setup (metricStep setup s input) := by
  cases input with
  | record call =>
      intro combo stem
      obtain ⟨n, hn⟩ := pairOf_grown (record_grown s.state call combo) stem
      have hstate : (metricStep setup s (.record call)).state = s.state.record call := rfl
      rw [hstate, hn]
      exact (h combo stem).count n
  | start now => exact h
  | turn i now =>
      cases emissionTurn_step s i now with
      | idle hsame => rwa [hsame]
      | handed before after task row hand htasks hhand hstep =>
          rw [hstep]
          exact h
      | took before after task part parts htasks hhand hparts hand htaken hstep =>
          rw [hstep]
          intro combo stem
          rw [reportsOf_append, htaken, reportsOf_rows]
          exact posted_rowStep (collect_rowStep s.state now part combo) (h combo stem)

/-- Every drained row was handed over or is in one task's hands. -/
def RowsKept (s : MetricSystem) : Prop :=
  s.drained.Perm (s.emitted ++ s.tasks.flatMap (·.hand))

/-- No input loses or doubles a row. -/
theorem rowsKept_step (s : MetricSystem) (input : MetricInput) (h : RowsKept s) :
    RowsKept (metricStep setup s input) := by
  unfold RowsKept at h ⊢
  cases input with
  | record call => exact h
  | start now =>
      simp only [metricStep, List.flatMap_append, List.flatMap_singleton, List.append_nil]
      exact h
  | turn i now =>
      cases emissionTurn_step s i now with
      | idle hsame => rwa [hsame]
      | handed before after task row hand htasks hhand hstep =>
          rw [hstep]
          rw [htasks] at h
          simp only [List.flatMap_append, List.flatMap_cons, hhand] at h ⊢
          refine h.trans ?_
          rw [List.append_assoc]
          apply List.Perm.append_left
          rw [List.singleton_append]
          exact List.perm_middle
      | took before after task part parts htasks hhand hparts hand htaken hstep =>
          rw [hstep]
          rw [htasks] at h
          simp only [List.flatMap_append, List.flatMap_cons, hhand, List.nil_append] at h ⊢
          refine (h.append_right hand).trans ?_
          rw [List.append_assoc]
          apply List.Perm.append_left
          rw [List.append_assoc]
          apply List.Perm.append_left
          exact List.perm_append_comm

/-! ## The health metric -/

/-- What is reported of a health counter adds up. -/
theorem healthReported_append (c : HealthCounter) (es es' : List Emission) :
    healthReported setup c (es ++ es') =
      healthReported setup c es + healthReported setup c es' := by
  unfold healthReported
  rw [List.filter_append, List.map_append, List.sum_append]

/-- A part shows what it takes of a counter of the health metric. -/
theorem healthReported_collect (c : HealthCounter) (s : MetricState) (clock : Instant) (now : Bool)
    (part : EmitPart) :
    healthReported setup c ((s.collect setup clock part).2.map (emitCombo setup now)) +
      (s.collect setup clock part).1.health.counted c = s.health.counted c := by
  by_cases hpart : part = .health
  · subst hpart
    have hrow :
        IsRow setup .health (emitCombo setup now (.health, (drainHealth setup s.health).2)) :=
      ⟨rfl, rfl⟩
    have hshown : healthReported setup c
        [emitCombo setup now (.health, (drainHealth setup s.health).2)] = s.health.counted c := by
      unfold healthReported
      rw [List.filter_singleton, decide_eq_true hrow]
      cases c <;> simp [emitCombo, drainHealth, healthMeasure, List.lookup_cons]
    refine (congrArg (· + ((0 : ℕ) : ℚ)) hshown).trans ?_
    simp
  · have hnone : healthReported setup c
        ((s.collect setup clock part).2.map (emitCombo setup now)) = 0 := by
      unfold healthReported
      rw [List.filter_eq_nil_iff.mpr]
      · rfl
      · intro e he
        obtain ⟨row, hrow, rfl⟩ := List.mem_map.mp he
        rw [decide_eq_true_eq, isRow_emitCombo]
        intro heq
        have hof := partOf_collect hrow
        rw [heq] at hof
        exact hpart hof.symm
    have hsame : (s.collect setup clock part).1.health = s.health := by
      cases part <;> first | rfl | exact absurd rfl hpart
    rw [hnone, hsame, zero_add]

/-- An input counts once, and a drain reports what was counted. -/
theorem health_step (c : HealthCounter) (s : MetricSystem) (input : MetricInput) :
    healthReported setup c (metricStep setup s input).drained +
        (metricStep setup s input).state.health.counted c =
      healthReported setup c s.drained + s.state.health.counted c +
        if countsHealth c input then 1 else 0 := by
  cases input with
  | record call =>
      cases call with
      | counted c' =>
          by_cases hc : c = c'
          · simp [metricStep, MetricState.record, countsHealth, hc, add_assoc]
          · simp [metricStep, MetricState.record, countsHealth, hc]
      | _ => simp [metricStep, MetricState.record, countsHealth, MetricState.onConn,
          MetricState.onIo]
  | start now => simp [metricStep, countsHealth]
  | turn i now =>
      simp only [countsHealth, Bool.false_eq_true, if_false, add_zero]
      cases emissionTurn_step s i now with
      | idle hsame => rw [hsame]
      | handed before after task row hand htasks hhand hstep => rw [hstep]
      | took before after task part parts htasks hhand hparts hand htaken hstep =>
          rw [hstep]
          simp only
          rw [healthReported_append, add_assoc, htaken, healthReported_collect]

/-- Over a run everything counted is reported or pending. -/
theorem health_run (setup : MetricSetup) (c : HealthCounter) (s : MetricSystem)
    (inputs : List MetricInput) :
    healthReported setup c (runSteps (metricStep setup) s inputs).drained +
        (runSteps (metricStep setup) s inputs).state.health.counted c =
      healthReported setup c s.drained + s.state.health.counted c +
        inputs.countP (countsHealth c) := by
  induction inputs generalizing s with
  | nil => simp [runSteps]
  | cons input inputs ih =>
      have hrest := ih (metricStep setup s input)
      rw [health_step] at hrest
      rw [List.countP_cons]
      refine hrest.trans ?_
      cases countsHealth c input with
      | true =>
          simp only [if_true]
          push_cast
          ring
      | false => simp

/-! ## The definitions -/

/-- A row has a measure for each gauge and two for each counter. -/
theorem measure_names (v : MetricValues) :
    v.measures.map Prod.fst =
      v.gauges.map Prod.fst ++
        (v.counters.map Prod.fst).flatMap fun stem => [stem ++ "Total", stem ++ "Interval"] := by
  unfold MetricValues.measures
  rw [List.map_append, List.map_flatMap, List.flatMap_map]
  rfl

/-- The names of a row's gauges and counters are those of the family. -/
def NamesFit (family : String) (dimensions gauges stems : List String) : Prop :=
  (∃ f ∈ familyDefs, f.name = family ∧ dimensions = f.dimensions ∧
    (∀ name ∈ gauges ++ stems.flatMap fun stem => [stem ++ "Total", stem ++ "Interval"],
      name ∈ f.measures.map (·.name)) ∧
    ∀ name ∈ f.measures.map (·.name), name ≠ optionalMeasure →
      name ∈ gauges ++ stems.flatMap fun stem => [stem ++ "Total", stem ++ "Interval"]) ∧
    (gauges ++ stems.flatMap fun stem => [stem ++ "Total", stem ++ "Interval"]).Nodup

instance (family : String) (dimensions gauges stems : List String) :
    Decidable (NamesFit family dimensions gauges stems) := by
  unfold NamesFit
  infer_instance

/-- A row whose names fit its family conforms. -/
theorem conforms_of_names {combo : MetricCombo} {v : MetricValues} {family : String}
    {dimensions gauges stems : List String} (now : Bool) (hfamily : combo.family = family)
    (hdims : (setup.dimensions combo).map Prod.fst = dimensions)
    (hgauges : v.gauges.map Prod.fst = gauges)
    (hstems : v.counters.map Prod.fst = stems)
    (h : NamesFit family dimensions gauges stems) :
    Conforms (emitCombo setup now (combo, v)) := by
  obtain ⟨⟨f, hf, hname, hdimensions, hin, hall⟩, hnodup⟩ := h
  have hnames : v.measures.map Prod.fst =
      gauges ++ stems.flatMap fun stem => [stem ++ "Total", stem ++ "Interval"] := by
    rw [measure_names, hgauges, hstems]
  refine ⟨⟨f, hf, hname.trans hfamily.symm, hdims.trans hdimensions, ?_, ?_⟩, ?_⟩
  · intro name hmem
    exact hin name (hnames ▸ hmem)
  · intro name hmem hopt
    show name ∈ v.measures.map Prod.fst
    rw [hnames]
    exact hall name hmem hopt
  · show (v.measures.map Prod.fst).Nodup
    rwa [hnames]

/-! ### By families -/

/-- The names of the health row fit. -/
theorem namesFit_health : NamesFit "southbound_health" ["instance"]
    ["connectionState", "signalsSubscribed", "pollLatencyMs", "publishLatencyMs", "readErrors",
      "writeErrors", "staleSignals", "reconnects"] [] := by
  decide +kernel

/-- The names of the connection row fit, with and without the expiry. -/
theorem namesFit_conn (days : List String) (hdays : days = [] ∨ days = ["certExpiryDays"]) :
    NamesFit "EtherNetIpConnection" ["instance", "connectionMode"]
      ("sessionConnected" :: days ++ ["connectLatencyMs", "connectedDurationMs"])
      ["connectAttempts", "connectFailures", "connectionDrops", "reconnects",
        "tlsHandshakeFailures", "certReloads", "estEnrollments", "estFailures"] := by
  obtain rfl | rfl := hdays
  · decide +kernel
  · decide +kernel

/-- The names of an inventory row fit. -/
theorem namesFit_inventory : NamesFit "EtherNetIpInventory" ["instance", "pollGroup"]
    ["configuredSignals", "arraySignals", "writableSignals", "configuredPollIntervalMs",
      "requestsPerCycle"] [] := by
  decide +kernel

/-- The names of a poll row fit. -/
theorem namesFit_poll : NamesFit "EtherNetIpPoll" ["instance", "pollGroup", "result"]
    ["pollDurationMs"]
    ["pollCycles", "tagReads", "tagReadErrors", "samplesGood", "samplesBad", "samplesUncertain",
      "samplesChanged", "samplesSuppressed", "pollOverruns"] := by
  decide +kernel

/-- The names of a publish row fit. -/
theorem namesFit_publish : NamesFit "EtherNetIpPublish" ["instance", "publishMode"]
    ["batchSize", "publishLatencyMs"]
    ["dataMessagesPublished", "samplesPublished", "publishFailures", "batchFlushes"] := by
  decide +kernel

/-- The names of a command row fit. -/
theorem namesFit_command : NamesFit "EtherNetIpCommand" ["instance", "verb", "result"]
    ["commandLatencyMs"]
    ["commandRequests", "commandErrors", "readSignals", "writeSignals", "writeFailures",
      "browsedTags", "pauseRequests", "resumeRequests", "reconnectRequests",
      "repollRequests"] := by
  decide +kernel

/-- The names of the class-1 row fit. -/
theorem namesFit_io : NamesFit "EtherNetIpIo" ["instance"]
    ["ioConnectionState", "interFrameMs", "runMode"]
    ["forwardOpens", "forwardOpenFailures", "framesConsumed", "framesProduced",
      "staleFramesDropped", "sequenceGaps", "sizeMismatchDropped", "malformedFrames",
      "ioTimeouts", "produceOverruns", "sendErrors", "recvErrors", "sourceMismatchDatagrams",
      "refusedRedirects"] := by
  decide +kernel

/-- A drained connection row conforms. -/
theorem conforms_conn (now : Bool) (clock : Instant) (c : ConnFamilyCounters) :
    Conforms (emitCombo setup now (.connection, (c.drain clock).2)) := by
  have hfit := namesFit_conn ((c.certExpiryDays.map fun _ => "certExpiryDays").toList) (by
    cases c.certExpiryDays with
    | none => exact .inl rfl
    | some days => exact .inr rfl)
  refine conforms_of_names now rfl rfl ?_ rfl hfit
  cases hdays : c.certExpiryDays <;> simp [ConnFamilyCounters.drain, hdays]

/-- The rows of a pass are drained rows of the map. -/
theorem mem_drainRows {κ σ : Type} [DecidableEq κ] [Inhabited σ] {name : κ → String × String}
    {drain : σ → σ × MetricValues} {m : AList (fun _ : κ => σ)} {row : κ × MetricValues}
    (h : row ∈ (drainRows name drain m).2) :
    row.1 ∈ m ∧ row.2 = (drain (entry m row.1)).2 := by
  have hmem : row.2 ∈ outputsOf row.1 (drainRows name drain m).2 :=
    List.mem_filterMap.mpr ⟨row, h, if_pos rfl⟩
  have hat := drainRows_at name drain m row.1
  by_cases hkey : row.1 ∈ m
  · rw [if_pos hkey] at hat
    rw [(Prod.mk.inj hat).2] at hmem
    exact ⟨hkey, List.mem_singleton.mp hmem⟩
  · rw [if_neg hkey] at hat
    rw [(Prod.mk.inj hat).2] at hmem
    cases hmem

/-- So does every row that is drained. -/
theorem conforms_collect {s : MetricState} {clock : Instant} {part : EmitPart}
    {row : MetricCombo × MetricValues} (now : Bool) (h : row ∈ (s.collect setup clock part).2) :
    Conforms (emitCombo setup now row) := by
  cases part with
  | health =>
      rw [List.mem_singleton.mp h]
      exact conforms_of_names now rfl rfl rfl rfl namesFit_health
  | connection =>
      rw [List.mem_singleton.mp h]
      exact conforms_conn now clock s.conn
  | io =>
      rw [List.mem_singleton.mp h]
      exact conforms_of_names now rfl rfl rfl rfl namesFit_io
  | inventory =>
      obtain ⟨source, -, rfl⟩ := List.mem_map.mp h
      exact conforms_of_names now rfl rfl rfl rfl namesFit_inventory
  | publish =>
      obtain ⟨source, hsource, rfl⟩ := List.mem_map.mp h
      rw [(mem_drainRows hsource).2]
      exact conforms_of_names now rfl rfl rfl rfl namesFit_publish
  | command =>
      obtain ⟨source, hsource, rfl⟩ := List.mem_map.mp h
      rw [(mem_drainRows hsource).2]
      exact conforms_of_names now rfl rfl rfl rfl namesFit_command
  | poll =>
      obtain ⟨source, hsource, rfl⟩ := List.mem_map.mp h
      rw [(mem_drainRows hsource).2]
      exact conforms_of_names now rfl rfl rfl rfl namesFit_poll

/-- Every drained row is of a defined family. -/
def AllConform (s : MetricSystem) : Prop := ∀ e ∈ s.drained, Conforms e

/-- No input brings a row that does not conform. -/
theorem conforms_step (s : MetricSystem) (input : MetricInput) (h : AllConform s) :
    AllConform (metricStep setup s input) := by
  cases input with
  | record call => exact h
  | start now => exact h
  | turn i now =>
      cases emissionTurn_step s i now with
      | idle hsame => rwa [hsame]
      | handed before after task row hand htasks hhand hstep =>
          rw [hstep]
          exact h
      | took before after task part parts htasks hhand hparts hand htaken hstep =>
          rw [hstep]
          intro e he
          obtain he | he := List.mem_append.mp he
          · exact h e he
          · rw [htaken] at he
            obtain ⟨row, hrow, rfl⟩ := List.mem_map.mp he
            exact conforms_collect task.now hrow

/-! ## The rows that were announced -/

/-- The rows of the maps, the parts still to come and the drained rows are among those that were
announced. -/
structure Foreseen (setup : MetricSetup) (s : MetricSystem) : Prop where
  poll : ∀ k ∈ s.state.poll, k.1 ∈ setup.inventory.map (·.group)
  publish : ∀ mode ∈ s.state.publish, mode ∈ setup.publishModes
  parts : ∀ task ∈ s.tasks, ∀ part ∈ task.parts, part ∈ emitPeriodic setup
  drained : ∀ e ∈ s.drained, ∃ combo ∈ setup.defineAll, IsRow setup combo e

/-- An update touches one row more at most. -/
theorem mem_updateRow {κ σ : Type} [DecidableEq κ] [Inhabited σ] {m : AList (fun _ : κ => σ)}
    {k k' : κ} {f : σ → σ} : k' ∈ updateRow m k f ↔ k' = k ∨ k' ∈ m :=
  AList.mem_insert _

/-- A fold over keys touches those keys at most. -/
theorem mem_foldKeyed {κ σ : Type} [DecidableEq κ] [Inhabited σ] {ο : Type} {f : κ → σ → σ × ο}
    {items : List κ} {m : AList (fun _ : κ => σ)} {k : κ}
    (h : k ∈ (foldKeyed id f items m).1) : k ∈ m ∨ k ∈ items := by
  induction items generalizing m with
  | nil => exact .inl h
  | cons item items ih =>
      obtain hmem | hmem := ih h
      · obtain rfl | hold := (AList.mem_insert _).mp hmem
        · exact .inr List.mem_cons_self
        · exact .inl hold
      · exact .inr (List.mem_cons_of_mem _ hmem)

/-- A pass adds no row. -/
theorem mem_of_mem_drainRows {κ σ : Type} [DecidableEq κ] [Inhabited σ]
    {name : κ → String × String} {drain : σ → σ × MetricValues} {m : AList (fun _ : κ => σ)}
    {k : κ} (h : k ∈ (drainRows name drain m).1) : k ∈ m := by
  obtain hmem | hmem := mem_foldKeyed h
  · exact hmem
  · exact List.mem_mergeSort.mp hmem

/-! ### The groups and modes of the configuration -/

/-- A recorded group or mode is one that was announced. -/
def Configured (setup : MetricSetup) : MetricInput → Prop
  | .record (.pollCycle group _ _) => group ∈ setup.inventory.map (·.group)
  | .record (.publish mode _ _ _ _) => mode ∈ setup.publishModes
  | _ => True

/-- The mode of every group is defined. -/
theorem mem_groupModes {task : TaskConfig} {g : ScheduledGroup} (hg : g ∈ task.groups) :
    task.effectivePublishMode g ∈ MetricSetup.groupModes task := by
  have hfold : ∀ (groups : List ScheduledGroup) (set : List PublishMode),
      (∀ mode ∈ set, mode ∈ groups.foldl (fun set g =>
        let mode := task.effectivePublishMode g
        if mode ∈ set then set else set ++ [mode]) set) ∧
      (g ∈ groups → task.effectivePublishMode g ∈ groups.foldl (fun set g =>
        let mode := task.effectivePublishMode g
        if mode ∈ set then set else set ++ [mode]) set) := by
    intro groups
    induction groups with
    | nil => exact fun set => ⟨fun mode hmode => hmode, nofun⟩
    | cons first groups ih =>
        intro set
        obtain ⟨hkept, hadded⟩ := ih
          (if task.effectivePublishMode first ∈ set then set
            else set ++ [task.effectivePublishMode first])
        refine ⟨?_, ?_⟩
        · intro mode hmode
          apply hkept
          split
          · exact hmode
          · exact List.mem_append_left _ hmode
        · intro hmem
          obtain rfl | hmem := List.mem_cons.mp hmem
          · apply hkept
            split
            · assumption
            · exact List.mem_append_right _ List.mem_cons_self
          · exact hadded hmem
  exact (hfold task.groups []).2 hg

/-- A cycle of a configured group. -/
theorem configured_pollCycle (device : DeviceConfig) {task : TaskConfig} {g : ScheduledGroup}
    (hg : g ∈ task.groups) (result : MetricResult) (cycle : PollCycle) :
    Configured (.new device task)
      (.record (.pollCycle (g.id.getD "group") result cycle)) := by
  have hrow := List.mem_map_of_mem (f := MetricSetup.inventoryRow device task) hg
  exact List.mem_map_of_mem (f := InventoryRow.group) hrow

/-- A message of a configured group of a poll device. -/
theorem configured_publish {device : DeviceConfig} {task : TaskConfig} {g : ScheduledGroup}
    (hmode : device.mode = .poll) (hg : g ∈ task.groups) (samples latencyMs : ℕ)
    (fromBatch ok : Bool) :
    Configured (.new device task)
      (.record (.publish (task.effectivePublishMode g) samples fromBatch latencyMs ok)) := by
  have hmem := mem_groupModes hg
  show _ ∈ (MetricSetup.new device task).publishModes
  simp only [MetricSetup.new, hmode]
  rw [if_neg (List.ne_nil_of_mem hmem)]
  exact hmem

/-- A message of a push device. -/
theorem configured_push {device : DeviceConfig} (task : TaskConfig) (hmode : device.mode = .push)
    (samples latencyMs : ℕ) (fromBatch ok : Bool) :
    Configured (.new device task)
      (.record (.publish task.pushMode samples fromBatch latencyMs ok)) := by
  show _ ∈ (MetricSetup.new device task).publishModes
  simp only [MetricSetup.new, hmode]
  exact List.mem_cons_self

/-- What the engines record is configured. -/
theorem configured_of_engine {device : DeviceConfig} {task : TaskConfig} {input : MetricInput}
    (h : EngineRecords device task input) : Configured (.new device task) input := by
  cases input with
  | start now => trivial
  | turn i now => trivial
  | record call =>
      cases call with
      | pollCycle group result cycle =>
          obtain ⟨g, hg, rfl⟩ := h
          exact configured_pollCycle device hg result cycle
      | publish mode samples fromBatch latencyMs ok =>
          simp only [EngineRecords] at h
          cases hmode : device.mode with
          | poll =>
              rw [hmode] at h
              obtain ⟨g, hg, rfl⟩ := h
              exact configured_publish hmode hg samples latencyMs fromBatch ok
          | push =>
              rw [hmode] at h
              subst h
              exact configured_push task hmode samples latencyMs fromBatch ok
      | _ => trivial

/-- Every verb is defined. -/
theorem mem_commandVerbs (verb : CommandVerb) : verb ∈ commandVerbs := by
  cases verb <;> decide

/-- Every result is defined. -/
theorem mem_metricResults (result : MetricResult) : result ∈ metricResults := by
  cases result <;> decide

/-- An immediate emission has no part that the periodic one has not. -/
theorem emitNow_subset {part : EmitPart} (h : part ∈ emitNow setup) :
    part ∈ emitPeriodic setup := by
  unfold emitNow at h
  unfold emitPeriodic
  cases hpush : setup.isPush <;> simp_all <;> tauto

/-- What a part that is emitted drains was announced. -/
theorem announced_collect {s : MetricSystem} (h : Foreseen setup s) {clock : Instant}
    {part : EmitPart} (hpart : part ∈ emitPeriodic setup) {row : MetricCombo × MetricValues}
    (hrow : row ∈ (s.state.collect setup clock part).2) : row.1 ∈ setup.defineAll := by
  unfold MetricSetup.defineAll
  simp only [List.mem_append]
  cases part with
  | health =>
      rw [List.mem_singleton.mp hrow]
      simp
  | connection =>
      rw [List.mem_singleton.mp hrow]
      simp
  | publish =>
      obtain ⟨source, hsource, rfl⟩ := List.mem_map.mp hrow
      have hmode := h.publish _ (mem_drainRows hsource).1
      exact .inl (.inl (.inr (List.mem_map_of_mem hmode)))
  | command =>
      obtain ⟨source, -, rfl⟩ := List.mem_map.mp hrow
      refine .inl (.inr (List.mem_flatMap.mpr ⟨source.1.1, mem_commandVerbs _, ?_⟩))
      exact List.mem_map_of_mem (mem_metricResults source.1.2)
  | io =>
      rw [List.mem_singleton.mp hrow]
      have hpush : setup.isPush = true := by
        by_contra hpush
        simp [emitPeriodic, hpush] at hpart
      simp [hpush]
  | inventory =>
      obtain ⟨source, hsource, rfl⟩ := List.mem_map.mp hrow
      have hpush : setup.isPush = false := by
        by_contra hpush
        simp [emitPeriodic, Bool.eq_true_of_not_eq_false hpush] at hpart
      simp only [hpush, Bool.false_eq_true, if_false]
      exact .inr (List.mem_flatMap.mpr ⟨source, hsource, List.mem_cons_self⟩)
  | poll =>
      obtain ⟨source, hsource, rfl⟩ := List.mem_map.mp hrow
      have hpush : setup.isPush = false := by
        by_contra hpush
        simp [emitPeriodic, Bool.eq_true_of_not_eq_false hpush] at hpart
      obtain ⟨inventoryRow, hinventory, hgroup⟩ :=
        List.mem_map.mp (h.poll _ (mem_drainRows hsource).1)
      simp only [hpush, Bool.false_eq_true, if_false]
      refine .inr (List.mem_flatMap.mpr ⟨inventoryRow, hinventory, List.mem_cons_of_mem _ ?_⟩)
      rw [hgroup]
      exact List.mem_map_of_mem (mem_metricResults source.1.2)

/-- A call within the configuration touches rows that were announced. -/
theorem foreseen_record {s : MetricSystem} {call : MetricCall} (h : Foreseen setup s)
    (hconfigured : Configured setup (.record call)) :
    Foreseen setup (metricStep setup s (.record call)) := by
  cases call with
  | pollCycle group result cycle =>
      refine ⟨?_, h.publish, h.parts, h.drained⟩
      intro k hk
      obtain rfl | hold := mem_updateRow.mp hk
      · exact hconfigured
      · exact h.poll k hold
  | publish mode samples fromBatch latencyMs ok =>
      refine ⟨h.poll, ?_, h.parts, h.drained⟩
      intro k hk
      obtain rfl | hold := mem_updateRow.mp hk
      · exact hconfigured
      · exact h.publish k hold
  | _ => exact ⟨h.poll, h.publish, h.parts, h.drained⟩

/-- So does every input. -/
theorem foreseen_step (s : MetricSystem) (input : MetricInput) (h : Foreseen setup s)
    (hconfigured : Configured setup input) : Foreseen setup (metricStep setup s input) := by
  cases input with
  | record call => exact foreseen_record h hconfigured
  | start now =>
      refine ⟨h.poll, h.publish, ?_, h.drained⟩
      intro task htask part hpart
      obtain htask | htask := List.mem_append.mp htask
      · exact h.parts task htask part hpart
      · rw [List.mem_singleton.mp htask] at hpart
        cases now with
        | true => exact emitNow_subset hpart
        | false => exact hpart
  | turn i now =>
      cases emissionTurn_step s i now with
      | idle hsame => rwa [hsame]
      | handed before after task row hand htasks hhand hstep =>
          rw [hstep]
          refine ⟨h.poll, h.publish, ?_, h.drained⟩
          have hparts := h.parts
          rw [htasks] at hparts
          intro other hother part hpart
          obtain hother | hother := List.mem_append.mp hother
          · exact hparts other (List.mem_append_left _ hother) part hpart
          · obtain rfl | hother := List.mem_cons.mp hother
            · exact hparts task (by simp) part hpart
            · exact hparts other (by simp [hother]) part hpart
      | took before after task part parts htasks hhand hparts hand htaken hstep =>
          rw [hstep]
          have hold := h.parts
          rw [htasks] at hold
          have htask : ∀ p ∈ part :: parts, p ∈ emitPeriodic setup := by
            rw [← hparts]
            exact hold task (by simp)
          refine ⟨?_, ?_, ?_, ?_⟩
          · intro k hk
            apply h.poll
            cases part <;> first | exact hk | exact mem_of_mem_drainRows hk
          · intro k hk
            apply h.publish
            cases part <;> first | exact hk | exact mem_of_mem_drainRows hk
          · intro other hother p hp
            obtain hother | hother := List.mem_append.mp hother
            · exact hold other (List.mem_append_left _ hother) p hp
            · obtain rfl | hother := List.mem_cons.mp hother
              · exact htask p (List.mem_cons_of_mem _ hp)
              · exact hold other (by simp [hother]) p hp
          · intro e he
            obtain he | he := List.mem_append.mp he
            · exact h.drained e he
            · rw [htaken] at he
              obtain ⟨row, hrow, rfl⟩ := List.mem_map.mp he
              refine ⟨row.1, announced_collect h (htask part List.mem_cons_self) hrow, rfl, rfl⟩

/-! ## The start -/

/-- Touching rows changes none of them. -/
theorem entry_touched {κ σ : Type} [DecidableEq κ] [Inhabited σ] (keys : List κ)
    (m : AList (fun _ : κ => σ)) (k : κ) :
    entry (keys.foldl (fun m k => updateRow m k id) m) k = entry m k := by
  induction keys generalizing m with
  | nil => rfl
  | cons key keys ih =>
      rw [List.foldl_cons, ih, entry_updateRow]
      split
      · rename_i heq
        rw [heq]
        rfl
      · rfl

/-- The rows that were touched are the old ones and those. -/
theorem mem_touched {κ σ : Type} [DecidableEq κ] [Inhabited σ] {keys : List κ}
    {m : AList (fun _ : κ => σ)} {k : κ}
    (h : k ∈ keys.foldl (fun m k => updateRow m k id) m) : k ∈ m ∨ k ∈ keys := by
  induction keys generalizing m with
  | nil => exact .inl h
  | cons key keys ih =>
      obtain hmem | hmem := ih h
      · obtain rfl | hold := mem_updateRow.mp hmem
        · exact .inr List.mem_cons_self
        · exact .inl hold
      · exact .inr (List.mem_cons_of_mem _ hmem)

/-- The rows of the start have counted nothing. -/
theorem pairOf_start (setup : MetricSetup) (combo : MetricCombo) (stem : String) :
    pairOf stem (rowCounters setup.start combo) = {} := by
  have hzero : ∀ a : List (String × Pair), (∀ x ∈ a, x.2 = {}) → pairOf stem a = {} := by
    intro a ha
    induction a with
    | nil => rfl
    | cons x a ih =>
        obtain ⟨hx, hrest⟩ := List.forall_mem_cons.mp ha
        rw [pairOf_cons, ih hrest, hx]
        split <;> rfl
  apply hzero
  cases combo with
  | health | inventory => simp [rowCounters]
  | connection => simp [rowCounters, MetricSetup.start, ConnFamilyCounters.counters]
  | io => simp [rowCounters, MetricSetup.start, IoFamilyCounters.counters]
  | poll group result =>
      simp only [rowCounters, MetricSetup.start, entry_touched, entry_empty]
      simp [default, PollCounters.counters]
  | publish mode =>
      simp only [rowCounters, MetricSetup.start, entry_touched, entry_empty]
      simp [default, PubCounters.counters]
  | command verb result =>
      simp only [rowCounters, MetricSetup.start, entry_touched, entry_empty]
      simp [default, CmdCounters.counters]

/-- The rows that are touched at startup were announced. -/
theorem foreseen_start (setup : MetricSetup) : Foreseen setup { state := setup.start } := by
  refine ⟨?_, ?_, nofun, nofun⟩
  · intro k hk
    obtain hmem | hmem := mem_touched hk
    · cases hmem
    · obtain ⟨row, hrow, hresult⟩ := List.mem_flatMap.mp hmem
      obtain ⟨result, -, rfl⟩ := List.mem_map.mp hresult
      exact List.mem_map_of_mem hrow
  · intro mode hmode
    obtain hmem | hmem := mem_touched hmode
    · cases hmem
    · exact hmem

/-! ## Every run -/

/-- A condition on the inputs alone guards every run. -/
theorem guarded_of_forall {σ ι : Type} {step : σ → ι → σ} {guard : ι → Prop} {inputs : List ι}
    (h : ∀ input ∈ inputs, guard input) (s : σ) :
    Guarded step (fun _ input => guard input) s inputs := by
  induction inputs generalizing s with
  | nil => trivial
  | cons input inputs ih =>
      obtain ⟨hfirst, hrest⟩ := List.forall_mem_cons.mp h
      exact ⟨hfirst, ih hrest _⟩

/-- Over any interleaving of recording and emitting tasks, the metrics of an instance add up. -/
theorem metrics_add_up (device : DeviceConfig) (task : TaskConfig) (inputs : List MetricInput) :
    MetricsContract device task inputs
      (runSteps (metricStep (.new device task)) { state := (MetricSetup.new device task).start }
        inputs) := by
  have hconfigured : (∀ input ∈ inputs, EngineRecords device task input) →
      ∀ input ∈ inputs, Configured (.new device task) input :=
    fun h input hinput => configured_of_engine (h input hinput)
  obtain ⟨setup, hsetup⟩ : ∃ setup, MetricSetup.new device task = setup := ⟨_, rfl⟩
  rw [hsetup] at hconfigured ⊢
  refine ⟨?_, ?_, ?_, ?_, ?_⟩
  · have hstart : RowsKept { state := setup.start } := List.Perm.refl []
    exact runSteps_kept rowsKept_step hstart inputs
  · rw [hsetup]
    have hstart : LedgersBalanced setup { state := setup.start } := by
      intro combo stem
      rw [pairOf_start]
      exact Posted.start 0
    exact runSteps_kept ledgersBalanced_step hstart inputs
  · intro c
    have hrun := health_run setup c { state := setup.start } inputs
    rw [hsetup]
    simpa [healthReported, MetricSetup.start] using hrun
  · have hstart : AllConform { state := setup.start } := nofun
    exact runSteps_kept conforms_step hstart inputs
  · intro hengines
    rw [hsetup]
    have hguarded : Guarded (metricStep setup) (fun _ => Configured setup)
        { state := setup.start } inputs := guarded_of_forall (hconfigured hengines) _
    have hrun : Foreseen setup (runSteps (metricStep setup) { state := setup.start } inputs) :=
      runSteps_invariant foreseen_step (foreseen_start setup) hguarded
    exact hrun.drained

/-- A poll device with one group. -/
def meteredDevice : DeviceConfig :=
  ⟨"line", .poll, ⟨"10.0.0.4", none, false, .absent⟩,
    [⟨some "fast", [⟨"speed", "LINE_SPEED", .dint, none, none, none, {}⟩]⟩], none, ⟨[]⟩⟩

def meteredTask : TaskConfig where
  mode := .poll
  groups := [{ id := some "fast"
               signals := [⟨"speed", "LINE_SPEED", .dint, none, none, none, {}⟩] }]
  keepaliveMs := 1000

/-- A cycle, a message of its group, a failed read, and an emission up to the second row. -/
def meteredRun : List MetricInput :=
  [.record (.pollCycle "fast" .success ⟨3, 1, false, 1, 0, 0, 1, 0⟩),
    .record (.publish .onChange 1 false 2 true), .record (.counted .readErrors), .start false,
    .turn 0 5, .turn 0 6, .turn 0 7, .turn 0 8]

/-- A cycle and a failed read of a poll device, and two rows of the emission that follows. -/
theorem metrics_add_up_polling :
    let s := runSteps (metricStep (.new meteredDevice meteredTask))
      { state := (MetricSetup.new meteredDevice meteredTask).start } meteredRun
    s.drained.length = 2 ∧
      healthReported (.new meteredDevice meteredTask) .readErrors s.drained +
        s.state.health.counted .readErrors = 1 ∧
      ∀ e ∈ s.drained, ∃ combo ∈ (MetricSetup.new meteredDevice meteredTask).defineAll,
        IsRow (.new meteredDevice meteredTask) combo e := by
  intro s
  have hcontract := metrics_add_up meteredDevice meteredTask meteredRun
  have hengines : ∀ input ∈ meteredRun, EngineRecords meteredDevice meteredTask input := by
    intro input hinput
    simp only [meteredRun, List.mem_cons, List.not_mem_nil, or_false] at hinput
    rcases hinput with rfl | rfl | rfl | rfl | rfl | rfl | rfl | rfl
    · exact ⟨_, List.mem_cons_self, rfl⟩
    · exact ⟨_, List.mem_cons_self, rfl⟩
    all_goals trivial
  exact ⟨by decide +kernel, hcontract.health .readErrors, hcontract.announced hengines⟩

end EnipAdapter.Analysis
