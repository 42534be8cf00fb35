import EnipAdapter.Analysis.ReloadAtomicity

/-!
# Alarms a configuration change leaves behind

A commit clears the alarms of the instances its plan calls removed, after the stop stage and once
each. Who ran and no longer does is removed, or was restarted and refused by the launcher: the plan
was made before the refusal, and the alarm of such an instance stays.
-/

set_option autoImplicit false

namespace EnipAdapter.Analysis

open EnipAdapter.Model EnipAdapter.Interface

/-! ## Who is cleared -/

/-- A runtime that is found by an id has it. -/
theorem id_of_find {runtimes : List DeviceRuntime} {id : String} {rt : DeviceRuntime}
    (h : runtimes.find? (·.id == id) = some rt) : rt.id = id := by
  have hid := List.find?_some h
  exact beq_iff_eq.mp hid

/-- Only removed ids are cleared, in their order. -/
theorem clearing_ids (removed : List String) (stopping : List DeviceRuntime) :
    ((clearing removed stopping).map DeviceRuntime.id).Sublist removed := by
  induction removed with
  | nil => exact List.Sublist.refl []
  | cons id rest ih =>
      unfold clearing at ih ⊢
      rw [List.filterMap_cons]
      cases hfind : stopping.find? (·.id == id) with
      | none => exact ih.cons _
      | some rt =>
          have hid := id_of_find hfind
          show ((rt.id :: _) : List String).Sublist _
          rw [hid]
          exact ih.cons_cons id

section Clearing

variable {env : ReloadEnv} {c : LiveComponent} {candidate : ConfigSnapshot} {p : ReloadPlan}

/-- The runtimes that are cleared are those of the removed instances. -/
theorem mem_clearing (hfacts : PlanFacts c.registry.snapshotRunning candidate.raw p)
    {rt : DeviceRuntime} :
    rt ∈ clearing p.removed (stoppedRuntimes c.toReloadState p) ↔
      rt ∈ c.registry.devices ∧ rt.id ∈ p.removed := by
  unfold clearing
  rw [List.mem_filterMap]
  constructor
  · rintro ⟨id, hremoved, hfind⟩
    have hid := id_of_find hfind
    have hstopped := mem_stoppedRuntimes.mp (List.mem_of_find?_eq_some hfind)
    rw [hid]
    exact ⟨hstopped.1, hremoved⟩
  · rintro ⟨hrt, hremoved⟩
    refine ⟨rt.id, hremoved, ?_⟩
    have hkeep := ((hfacts.removed rt.id).mp hremoved).2.1
    have hstop := (hfacts.stops rt.id (running_of_device hrt)).mpr hkeep
    have hstopped : rt ∈ stoppedRuntimes c.toReloadState p := mem_stoppedRuntimes.mpr ⟨hrt, hstop⟩
    cases hfind : (stoppedRuntimes c.toReloadState p).find? (·.id == rt.id) with
    | none => exact absurd (beq_self_eq_true rt.id) (List.find?_eq_none.mp hfind rt hstopped)
    | some other =>
        have hother := (mem_stoppedRuntimes.mp (List.mem_of_find?_eq_some hfind)).1
        have hid := id_of_find hfind
        rw [List.inj_on_of_nodup_map c.distinct hother hrt hid]

/-- And none of them twice. -/
theorem clearing_nodup (hfacts : PlanFacts c.registry.snapshotRunning candidate.raw p) :
    (clearing p.removed (stoppedRuntimes c.toReloadState p)).Nodup := by
  have hremoved : p.removed.Nodup := by
    apply hfacts.removedIds
    rw [runningIds_eq]
    exact c.distinct
  exact List.Nodup.of_map _ (hremoved.sublist (clearing_ids _ _))

/-- The act that clears the alarm of a runtime. -/
def clearOf (env : ReloadEnv) (rt : DeviceRuntime) : ReloadAct :=
  notify (env.sinkTakes rt.object) (.clearUnreachable rt.object)

/-- A clear in some part of the stage is that of a runtime there. -/
theorem clear_mem_map {runtimes : List DeviceRuntime}
    (hruns : ∀ rt ∈ runtimes, rt ∈ c.registry.devices) {rt : DeviceRuntime}
    (hrt : rt ∈ c.registry.devices) {completed : Bool}
    (h : .notice (.clearUnreachable rt.object) completed ∈ runtimes.map (clearOf env)) :
    rt ∈ runtimes := by
  obtain ⟨other, hother, heq⟩ := List.mem_map.mp h
  unfold clearOf notify at heq
  injection heq with hnotice
  injection hnotice with hobject
  have hsame := List.inj_on_of_nodup_map c.objects (hruns other hother) hrt hobject
  rw [← hsame]
  exact hother

/-- The stop stage clears no alarm. -/
theorem clear_not_mem_stopActs {object : ℕ} {completed : Bool} :
    .notice (.clearUnreachable object) completed ∉ stopActs env c.toReloadState p := by
  intro h
  obtain ⟨act, -, heq⟩ := List.mem_map.mp h
  cases heq

variable (env) in
/-- Every task of a stopped runtime is joined or aborted in the stop stage. -/
theorem ended_mem_stopActs {rt : DeviceRuntime} (hrt : rt ∈ stoppedRuntimes c.toReloadState p)
    {task : ℕ} (htask : task < rt.tasks) :
    ∃ how, .stop (.ended rt.object task how) ∈ stopActs env c.toReloadState p := by
  have hended : ∃ how, StopAct.ended rt.object task how ∈ stopTasks env.taskTakes
      (stopBudget c.registry.global.timeouts) (stoppedRuntimes c.toReloadState p) :=
    ⟨_, List.mem_flatMap.mpr ⟨rt, hrt, List.mem_map_of_mem (List.mem_range.mpr htask)⟩⟩
  obtain ⟨how, hmem⟩ := hended
  exact ⟨how, List.mem_map_of_mem (List.mem_append_right _ hmem)⟩

end Clearing

/-! ## What a commit did -/

section Done

variable {serde : Deserializers} {env : ReloadEnv} {c : LiveComponent} {candidate : ConfigSnapshot}
  {p : ReloadPlan}

/-- What a commit that succeeded did: it stopped, it cleared, and it told of the change. -/
def DoneActs (env : ReloadEnv) (c : LiveComponent) (p : ReloadPlan) (acts : List ReloadAct) :
    Prop :=
  ∃ available taken context completed,
    acts = stopActs env c.toReloadState p ++
      ((clearing p.removed (stoppedRuntimes c.toReloadState p)).map (clearOf env) ++
        [.repollAvailability available taken, .notice (.configApplied context) completed])

/-- A commit that succeeded did its stages in order. -/
theorem doneActs_of_done {r : Applied} (hdone : CommitDone env c.toReloadState p candidate r) :
    DoneActs env c p (actsSince c.toReloadState r.state) := by
  obtain ⟨available, taken, context, completed, hacts, -⟩ := hdone.acts
  rw [List.append_assoc, List.append_assoc] at hacts
  exact ⟨available, taken, context, completed, actsSince_append hacts⟩

/-- A clear is that of a removed instance. -/
theorem removed_of_clear (hfacts : PlanFacts c.registry.snapshotRunning candidate.raw p)
    {acts : List ReloadAct} (hacts : DoneActs env c p acts) {rt : DeviceRuntime}
    (hrt : rt ∈ c.registry.devices) {completed : Bool}
    (h : .notice (.clearUnreachable rt.object) completed ∈ acts) : rt.id ∈ p.removed := by
  obtain ⟨available, taken, context, told, rfl⟩ := hacts
  obtain hstop | h := List.mem_append.mp h
  · exact absurd hstop clear_not_mem_stopActs
  · obtain hclear | htail := List.mem_append.mp h
    · have hmem := clear_mem_map
        (fun other hother => ((mem_clearing hfacts).mp hother).1) hrt hclear
      exact ((mem_clearing hfacts).mp hmem).2
    · simp at htail

/-- A removed instance has its alarm cleared once, after its tasks. -/
theorem clearedOnce_of_removed (hfacts : PlanFacts c.registry.snapshotRunning candidate.raw p)
    {acts : List ReloadAct} (hacts : DoneActs env c p acts)
    (hsink : SinksInTime env c.toReloadState) {rt : DeviceRuntime}
    (hrt : rt ∈ c.registry.devices) (hremoved : rt.id ∈ p.removed) : ClearedOnce rt acts := by
  have hmem := (mem_clearing hfacts).mpr ⟨hrt, hremoved⟩
  have hnodup := clearing_nodup hfacts
  have hdevices : ∀ other ∈ clearing p.removed (stoppedRuntimes c.toReloadState p),
      other ∈ c.registry.devices := fun other hother => ((mem_clearing hfacts).mp hother).1
  obtain ⟨available, taken, context, told, rfl⟩ := hacts
  obtain ⟨front, back, hsplit⟩ := List.append_of_mem hmem
  rw [hsplit] at hnodup hdevices ⊢
  have hfront : rt ∉ front := fun h =>
    (List.nodup_append.mp hnodup).2.2 rt h rt List.mem_cons_self rfl
  have hback : rt ∉ back := (List.nodup_cons.mp (List.nodup_append.mp hnodup).2.1).1
  have hclear : clearOf env rt = .notice (.clearUnreachable rt.object) true := by
    unfold clearOf notify
    rw [hsink rt hrt]
  refine ⟨stopActs env c.toReloadState p ++ front.map (clearOf env),
    back.map (clearOf env) ++
      [.repollAvailability available taken, .notice (.configApplied context) told], ?_, ?_, ?_, ?_⟩
  · rw [List.map_append, List.map_cons, hclear]
    simp only [List.append_assoc, List.cons_append]
  · intro completed h
    obtain hfirst | hlast := List.mem_append.mp h
    · obtain hstop | hclears := List.mem_append.mp hfirst
      · exact clear_not_mem_stopActs hstop
      · exact hfront (clear_mem_map
          (fun other hother => hdevices other (List.mem_append_left _ hother)) hrt hclears)
    · obtain hclears | htail := List.mem_append.mp hlast
      · exact hback (clear_mem_map (fun other hother =>
          hdevices other (List.mem_append_right _ (List.mem_cons_of_mem _ hother))) hrt hclears)
      · simp at htail
  · intro task htask
    have hkeep := ((hfacts.removed rt.id).mp hremoved).2.1
    have hstop := (hfacts.stops rt.id (running_of_device hrt)).mpr hkeep
    have hstopped : rt ∈ stoppedRuntimes c.toReloadState p := mem_stoppedRuntimes.mpr ⟨hrt, hstop⟩
    obtain ⟨how, hended⟩ := ended_mem_stopActs env hstopped htask
    exact ⟨how, List.mem_append_left _ hended⟩
  · intro act hact
    obtain hclears | htail := List.mem_append.mp hact
    · obtain ⟨other, -, rfl⟩ := List.mem_map.mp hclears
      exact id
    · simp only [List.mem_cons, List.not_mem_nil, or_false] at htail
      obtain rfl | rfl := htail
      · exact id
      · exact id

/-- Who was refused is declared to start, and does not run. -/
theorem refused_start (hfacts : PlanFacts c.registry.snapshotRunning candidate.raw p) {id : String}
    (h : id ∈ refusedIds (startOutcomes env c.toReloadState p candidate)) :
    id ∈ p.start.map (·.1.id) ∧
      id ∉ launchedIds (startOutcomes env c.toReloadState p candidate) := by
  unfold startOutcomes at h ⊢
  rw [refusedIds_eq] at h
  rw [launchedIds_eq]
  have hsub := refusedInstances_sublist env.launcher p.global candidate c.launches p.start
  exact ⟨hsub.subset h, refused_not_launched env.launcher p.global candidate hfacts.startIds h⟩

/-- Who ran and no longer does is removed, or was refused. -/
theorem gone_removed_or_refused (hfacts : PlanFacts c.registry.snapshotRunning candidate.raw p)
    (hnone : NoneFails env.launcher p.global candidate c.launches p.start) {rt : DeviceRuntime}
    (hrt : rt ∈ c.registry.devices) (hkeep : rt.id ∉ p.keep)
    (hnot : rt.id ∉ launchedIds (startOutcomes env c.toReloadState p candidate)) :
    rt.id ∈ p.removed ∨ rt.id ∈ refusedIds (startOutcomes env c.toReloadState p candidate) := by
  by_cases hstart : rt.id ∈ p.start.map (·.1.id)
  · obtain ⟨why, hwhy⟩ := (start_launched_or_refused hnone rt.id hstart).resolve_left hnot
    refine .inr ?_
    unfold startOutcomes
    rw [refusedIds_eq]
    exact List.mem_map.mpr ⟨(rt.id, why), hwhy, rfl⟩
  · exact .inl ((hfacts.removed rt.id).mpr ⟨running_of_device hrt, hkeep, hstart⟩)

end Done

/-- A commit leaves no orphan alarm exactly when no instance that was running is refused by the
launcher. -/
theorem no_orphan_alarm_iff_none_refused (serde : Deserializers) (env : ReloadEnv)
    (c : LiveComponent) (candidate : ConfigSnapshot) (p : ReloadPlan)
    (hplan : plan serde c.registry.snapshotRunning c.prior.nonInstance candidate.raw = .ok p)
    (hverdict : (commit env false (.staged c.toReloadState p candidate)
      c.toReloadState).verdict = .ok ())
    (hsink : SinksInTime env c.toReloadState) :
    NoOrphanAlarm p c.toReloadState
        (commit env false (.staged c.toReloadState p candidate) c.toReloadState).state ↔
      ∀ id ∈ refusedIds (startOutcomes env c.toReloadState p candidate), id ∉ c.registry.ids := by
  have hfacts := facts_of_plan hplan
  have hruns := (committed_of_ok hplan hverdict).running
  obtain ⟨_, -, -, hsucceeds⟩ := commit_parts env c.toReloadState p candidate c.distinct
  obtain ⟨-, hdone⟩ := hsucceeds hverdict
  have hacts := doneActs_of_done hdone
  generalize commit env false (.staged c.toReloadState p candidate) c.toReloadState = r at *
  constructor
  · intro h id hrefused hid
    obtain ⟨rt, hrt, rfl⟩ := List.mem_map.mp hid
    obtain ⟨hstart, hlaunched⟩ := refused_start hfacts hrefused
    have hgone : rt.id ∉ r.state.registry.ids := by
      rw [hruns, not_or]
      exact ⟨hfacts.apart rt.id hstart, hlaunched⟩
    obtain ⟨first, last, hsplit, -⟩ := h.cleared rt hrt hgone
    have hclear : .notice (.clearUnreachable rt.object) true ∈
        actsSince c.toReloadState r.state := by
      rw [hsplit]
      exact List.mem_append_right _ List.mem_cons_self
    -- what is cleared was removed by the plan, and the plan does not start what it removes
    have hremoved := removed_of_clear hfacts hacts hrt hclear
    exact ((hfacts.removed rt.id).mp hremoved).2.2 hstart
  · intro hrefused
    constructor
    · intro rt hrt hgone
      rw [hruns, not_or] at hgone
      obtain hremoved | hid := gone_removed_or_refused hfacts hdone.none hrt hgone.1 hgone.2
      · exact clearedOnce_of_removed hfacts hacts hsink hrt hremoved
      · exact absurd (List.mem_map_of_mem hrt) (hrefused rt.id hid)
    · intro rt hrt hkeep completed hclear
      have hremoved := removed_of_clear hfacts hacts hrt hclear
      exact ((hfacts.removed rt.id).mp hremoved).2.1 hkeep

/-- A device gives way to another: its alarm is cleared. -/
theorem no_orphan_replacedDevice :
    NoOrphanAlarm (planOne [("plc-2", "sim")]) oneDevice.toReloadState
      (commit { launcher := adapterLauncher } false
        (.staged oneDevice.toReloadState (planOne [("plc-2", "sim")])
          (polledDocument [("plc-2", "sim")])) oneDevice.toReloadState).state := by
  have hsink : SinksInTime { launcher := adapterLauncher } oneDevice.toReloadState := by
    intro rt _
    rfl
  apply (no_orphan_alarm_iff_none_refused polledSerde { launcher := adapterLauncher } oneDevice
    (polledDocument [("plc-2", "sim")]) (planOne [("plc-2", "sim")]) rfl rfl hsink).mpr
  intro id hid
  cases hid

/-- A running device is given an adapter token with a slip in it: the change commits, the device
is stopped and refused, and nothing clears its alarm. -/
theorem mistyped_adapter_keeps_alarm :
    plan polledSerde oneDevice.registry.snapshotRunning oneDevice.prior.nonInstance
        (polledDocument [("plc-1", "etherne-tip"), ("plc-2", "sim")]).raw =
      .ok (planOne [("plc-1", "etherne-tip"), ("plc-2", "sim")]) ∧
    (commit { launcher := adapterLauncher } false
      (.staged oneDevice.toReloadState (planOne [("plc-1", "etherne-tip"), ("plc-2", "sim")])
        (polledDocument [("plc-1", "etherne-tip"), ("plc-2", "sim")]))
      oneDevice.toReloadState).verdict = .ok () ∧
    SinksInTime { launcher := adapterLauncher } oneDevice.toReloadState ∧
    ¬ NoOrphanAlarm (planOne [("plc-1", "etherne-tip"), ("plc-2", "sim")]) oneDevice.toReloadState
      (commit { launcher := adapterLauncher } false
        (.staged oneDevice.toReloadState (planOne [("plc-1", "etherne-tip"), ("plc-2", "sim")])
          (polledDocument [("plc-1", "etherne-tip"), ("plc-2", "sim")]))
        oneDevice.toReloadState).state := by
  have hplan : plan polledSerde oneDevice.registry.snapshotRunning oneDevice.prior.nonInstance
      (polledDocument [("plc-1", "etherne-tip"), ("plc-2", "sim")]).raw =
        .ok (planOne [("plc-1", "etherne-tip"), ("plc-2", "sim")]) := rfl
  refine ⟨hplan, rfl, fun rt _ => rfl, ?_⟩
  intro h
  have hgone : "plc-1" ∉ ["plc-2"] := by decide
  obtain ⟨first, last, hsplit, -⟩ := h.cleared
    ⟨0, polledConfig "plc-1", polledEntry "plc-1" "sim", 1⟩ List.mem_cons_self hgone
  obtain ⟨_, -, -, hsucceeds⟩ := commit_parts { launcher := adapterLauncher }
    oneDevice.toReloadState (planOne [("plc-1", "etherne-tip"), ("plc-2", "sim")])
    (polledDocument [("plc-1", "etherne-tip"), ("plc-2", "sim")]) oneDevice.distinct
  have hacts := doneActs_of_done (hsucceeds rfl).2
  rw [hsplit] at hacts
  have hremoved : "plc-1" ∈ (planOne [("plc-1", "etherne-tip"), ("plc-2", "sim")]).removed :=
    removed_of_clear (facts_of_plan hplan) hacts List.mem_cons_self
      (List.mem_append_right _ List.mem_cons_self)
  have hnone : (planOne [("plc-1", "etherne-tip"), ("plc-2", "sim")]).removed = [] := rfl
  rw [hnone] at hremoved
  cases hremoved

end EnipAdapter.Analysis
