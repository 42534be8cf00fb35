import EnipAdapter.Interface.ReloadContract

/-!
# The stages of a transaction

What detaching leaves and takes, what a launch pass adds up to where it stopped, and what a
rollback brings back.
-/

set_option autoImplicit false

namespace EnipAdapter.Analysis

open EnipAdapter.Model EnipAdapter.Interface

/-! ## Detaching -/

/-- Erasing an id that runs once leaves the other ids. -/
theorem eraseP_id {devices : List DeviceRuntime} (hids : (devices.map DeviceRuntime.id).Nodup)
    (id : String) :
    devices.eraseP (·.id == id) = devices.filter (fun rt => decide (rt.id ≠ id)) := by
  induction devices with
  | nil => rfl
  | cons rt rest ih =>
      obtain ⟨hfresh, hrest⟩ := List.nodup_cons.mp hids
      by_cases hid : rt.id = id
      · rw [List.eraseP_cons_of_pos (by exact beq_iff_eq.mpr hid),
          List.filter_cons_of_neg (by rw [decide_eq_true_iff]; exact not_not.mpr hid)]
        apply Eq.symm
        rw [List.filter_eq_self]
        intro other hother
        apply decide_eq_true
        intro heq
        exact hfresh (List.mem_map.mpr ⟨other, hother, heq.trans hid.symm⟩)
      · rw [List.eraseP_cons_of_neg (by rw [beq_iff_eq]; exact hid),
          List.filter_cons_of_pos (by exact decide_eq_true hid), ih hrest]

/-- An id that does not run is not removed. -/
theorem remove_none {r : DeviceRegistry} {id : String} (h : id ∉ r.ids) : r.remove id = none := by
  have hfind : r.devices.find? (·.id == id) = none := by
    rw [List.find?_eq_none]
    intro rt hrt heq
    exact h (List.mem_map.mpr ⟨rt, hrt, beq_iff_eq.mp heq⟩)
  unfold DeviceRegistry.remove
  rw [hfind]
  rfl

/-- The registry without one id. -/
def without (r : DeviceRegistry) (id : String) : DeviceRegistry :=
  { r with devices := r.devices.filter fun rt => decide (rt.id ≠ id) }

/-- One that runs is, and the others stay. -/
theorem remove_some {r : DeviceRegistry} (hids : r.ids.Nodup) {id : String} (h : id ∈ r.ids) :
    ∃ rt, r.remove id = some (rt, without r id) ∧ rt.id = id ∧
      r.devices.Perm (rt :: (without r id).devices) := by
  obtain ⟨first, hfirst, hid⟩ := List.mem_map.mp h
  obtain ⟨rt, front, back, hfront, hrt, hsplit, herase⟩ :=
    List.exists_of_eraseP (p := fun rt : DeviceRuntime => rt.id == id) hfirst (beq_iff_eq.mpr hid)
  have hfind : r.devices.find? (·.id == id) = some rt := by
    rw [hsplit, List.find?_append, List.find?_eq_none.mpr hfront, Option.none_or,
      List.find?_cons_of_pos (by exact hrt)]
  have hfilter : r.devices.eraseP (·.id == id) = (without r id).devices := eraseP_id hids id
  refine ⟨rt, ?_, beq_iff_eq.mp hrt, ?_⟩
  · unfold DeviceRegistry.remove
    rw [hfind, hfilter]
    rfl
  · rw [← hfilter, herase]
    nth_rewrite 1 [hsplit]
    exact List.perm_middle

/-- The rest of a detachment, of a registry without its first id. -/
theorem filter_without (r : DeviceRegistry) (id : String) (ids : List String) :
    (without r id).devices.filter (fun rt => decide (rt.id ∉ ids)) =
        r.devices.filter (fun rt => decide (rt.id ∉ id :: ids)) ∧
      (without r id).devices.filter (fun rt => decide (rt.id ∈ ids)) =
        (without r id).devices.filter (fun rt => decide (rt.id ∈ id :: ids)) := by
  constructor
  · unfold without
    rw [List.filter_filter]
    apply List.filter_congr
    intro rt _
    simp only [List.mem_cons, not_or, Bool.decide_and]
    exact Bool.and_comm _ _
  · apply List.filter_congr
    intro rt hrt
    have hne : rt.id ≠ id := of_decide_eq_true (List.mem_filter.mp hrt).2
    apply decide_eq_decide.mpr
    rw [List.mem_cons, or_iff_right hne]

/-- An id that does not run is no matter. -/
theorem detachAll_absent {r : DeviceRegistry} {id : String} (hmem : id ∉ r.ids)
    (ids : List String) :
    detachAll r (id :: ids) = detachAll r ids ∧
      ∀ rt ∈ r.devices, (rt.id ∈ id :: ids ↔ rt.id ∈ ids) := by
  constructor
  · rw [detachAll, remove_none hmem]
  · intro rt hrt
    rw [List.mem_cons, or_iff_right]
    intro heq
    exact hmem (List.mem_map.mpr ⟨rt, hrt, heq⟩)

/-- What is left is what was not named, and what is taken is what was. -/
theorem detachAll_spec {r : DeviceRegistry} (hids : r.ids.Nodup) (ids : List String) :
    (detachAll r ids).1 =
        { r with devices := r.devices.filter fun rt => decide (rt.id ∉ ids) } ∧
      (detachAll r ids).2.Perm (r.devices.filter fun rt => decide (rt.id ∈ ids)) := by
  induction ids generalizing r with
  | nil =>
      have hall : r.devices.filter (fun rt => decide (rt.id ∉ ([] : List String))) = r.devices := by
        rw [List.filter_eq_self]
        intro rt _
        exact decide_eq_true List.not_mem_nil
      have hnone : r.devices.filter (fun rt => decide (rt.id ∈ ([] : List String))) = [] := by
        rw [List.filter_eq_nil_iff]
        intro rt _ hmem
        exact List.not_mem_nil (of_decide_eq_true hmem)
      rw [hall, hnone]
      exact ⟨rfl, List.Perm.refl _⟩
  | cons id ids ih =>
      by_cases hmem : id ∈ r.ids
      · obtain ⟨rt, hremove, hid, hperm⟩ := remove_some hids hmem
        have hids' : (without r id).ids.Nodup := hids.sublist (List.filter_sublist.map _)
        obtain ⟨hleft, htaken⟩ := ih hids'
        obtain ⟨hkept, hrest⟩ := filter_without r id ids
        have hdetach : detachAll r (id :: ids) =
            ((detachAll (without r id) ids).1, rt :: (detachAll (without r id) ids).2) := by
          rw [detachAll, hremove]
        rw [hdetach]
        constructor
        · rw [hleft, hkept]
          rfl
        · have hwhole := hperm.filter (fun rt => decide (rt.id ∈ id :: ids))
          rw [List.filter_cons_of_pos (by rw [hid]; exact decide_eq_true List.mem_cons_self),
            ← hrest] at hwhole
          exact (htaken.cons rt).trans hwhole.symm
      · obtain ⟨hdetach, hno⟩ := detachAll_absent hmem ids
        obtain ⟨hleft, htaken⟩ := ih hids
        rw [hdetach, hleft]
        constructor
        · congr 1
          apply List.filter_congr
          intro rt hrt
          exact decide_eq_decide.mpr (not_congr (hno rt hrt).symm)
        · have hsame : r.devices.filter (fun rt => decide (rt.id ∈ id :: ids)) =
              r.devices.filter (fun rt => decide (rt.id ∈ ids)) := by
            apply List.filter_congr
            intro rt hrt
            exact decide_eq_decide.mpr (hno rt hrt)
          rw [hsame]
          exact htaken

/-! ## Launching -/

section Launching

variable (launcher : ℕ → LaunchRequest → LaunchOutcome) (global : GlobalConfig)
  (snapshot : ConfigSnapshot)

/-- The runtimes that the launches of some instances make, the first being the `n`th. -/
def launchedRuntimes : ℕ → List ParsedInstance → List DeviceRuntime
  | _, [] => []
  | n, (cfg, raw) :: rest =>
    match launcher n ⟨cfg, raw, global, snapshot⟩ with
    | .launched tasks => ⟨n, cfg, raw, tasks⟩ :: launchedRuntimes (n + 1) rest
    | _ => launchedRuntimes (n + 1) rest

/-- The instances refused among them, and why. -/
def refusedInstances : ℕ → List ParsedInstance → List SkippedInstance
  | _, [] => []
  | n, (cfg, raw) :: rest =>
    match launcher n ⟨cfg, raw, global, snapshot⟩ with
    | .unknownAdapter e => (cfg.id, e) :: refusedInstances (n + 1) rest
    | _ => refusedInstances (n + 1) rest

/-- None of the launches fails for a reason of the runtime. -/
def NoneFails : ℕ → List ParsedInstance → Prop
  | _, [] => True
  | n, (cfg, raw) :: rest =>
    (∀ e, launcher n ⟨cfg, raw, global, snapshot⟩ ≠ .failed e) ∧ NoneFails (n + 1) rest

/-- The runtimes that were launched run instances of the list, in its order. -/
theorem launchedRuntimes_sublist (n : ℕ) (items : List ParsedInstance) :
    ((launchedRuntimes launcher global snapshot n items).map fun rt => (rt.cfg, rt.raw)).Sublist
      items := by
  induction items generalizing n with
  | nil => exact List.Sublist.refl []
  | cons item rest ih =>
      obtain ⟨cfg, raw⟩ := item
      unfold launchedRuntimes
      cases launcher n ⟨cfg, raw, global, snapshot⟩ with
      | launched tasks => exact (ih (n + 1)).cons_cons _
      | unknownAdapter e => exact (ih (n + 1)).cons _
      | failed e => exact (ih (n + 1)).cons _

/-- They are objects of their own, made by these launches. -/
theorem launchedRuntimes_objects (n : ℕ) (items : List ParsedInstance) :
    ((launchedRuntimes launcher global snapshot n items).map DeviceRuntime.object).Nodup ∧
      ∀ rt ∈ launchedRuntimes launcher global snapshot n items,
        n ≤ rt.object ∧ rt.object < n + items.length := by
  induction items generalizing n with
  | nil => exact ⟨List.nodup_nil, fun rt hrt => by cases hrt⟩
  | cons item rest ih =>
      obtain ⟨cfg, raw⟩ := item
      obtain ⟨hnodup, hfrom⟩ := ih (n + 1)
      have hlater : ∀ rt ∈ launchedRuntimes launcher global snapshot (n + 1) rest,
          n ≤ rt.object ∧ rt.object < n + ((cfg, raw) :: rest).length := by
        intro rt hrt
        have hbounds := hfrom rt hrt
        rw [List.length_cons]
        omega
      unfold launchedRuntimes
      cases launcher n ⟨cfg, raw, global, snapshot⟩ with
      | launched tasks =>
          refine ⟨List.nodup_cons.mpr ⟨?_, hnodup⟩, ?_⟩
          · intro hmem
            obtain ⟨rt, hrt, hobject⟩ := List.mem_map.mp hmem
            have hsame : rt.object = n := hobject
            have hle := (hfrom rt hrt).1
            omega
          · intro rt hrt
            obtain rfl | hrt := List.mem_cons.mp hrt
            · rw [List.length_cons]
              show n ≤ n ∧ n < n + (rest.length + 1)
              omega
            · exact hlater rt hrt
      | unknownAdapter e => exact ⟨hnodup, hlater⟩
      | failed e => exact ⟨hnodup, hlater⟩

/-- A launch pass adds the runtimes of the instances up to where it stopped; it stops early only
at a failure. -/
theorem launchAll_spec (pass : LaunchPass) (items : List ParsedInstance) :
    ∃ tried, tried <+: items ∧
      (launchAll launcher global snapshot pass items).1.registry =
        { pass.registry with
          devices := pass.registry.devices ++
            launchedRuntimes launcher global snapshot pass.launches tried } ∧
      (launchAll launcher global snapshot pass items).1.launched =
        pass.launched ++
          (launchedRuntimes launcher global snapshot pass.launches tried).map DeviceRuntime.id ∧
      (launchAll launcher global snapshot pass items).1.skipped =
        pass.skipped ++ refusedInstances launcher global snapshot pass.launches tried ∧
      pass.launches + tried.length ≤ (launchAll launcher global snapshot pass items).1.launches ∧
      ((launchAll launcher global snapshot pass items).2 = .ok () →
        tried = items ∧ NoneFails launcher global snapshot pass.launches items) := by
  induction items generalizing pass with
  | nil =>
      refine ⟨[], List.prefix_refl [], ?_, ?_, ?_, Nat.le_refl _, fun _ => ⟨rfl, trivial⟩⟩
      · show pass.registry = { pass.registry with devices := pass.registry.devices ++ [] }
        rw [List.append_nil]
      · exact (List.append_nil _).symm
      · exact (List.append_nil _).symm
  | cons item rest ih =>
      obtain ⟨cfg, raw⟩ := item
      cases houtcome : launcher pass.launches ⟨cfg, raw, global, snapshot⟩ with
      | launched tasks =>
          obtain ⟨tried, hprefix, hregistry, hlaunched, hskipped, hlaunches, hok⟩ := ih
            { pass with
              registry := pass.registry.insert ⟨pass.launches, cfg, raw, tasks⟩
              launched := pass.launched ++ [cfg.id]
              launches := pass.launches + 1 }
          refine ⟨(cfg, raw) :: tried, (List.cons_prefix_cons).mpr ⟨rfl, hprefix⟩, ?_⟩
          simp only [launchAll, launchedRuntimes, refusedInstances, NoneFails, houtcome]
          refine ⟨?_, ?_, hskipped, ?_, ?_⟩
          · rw [hregistry]
            exact congrArg (DeviceRegistry.mk · pass.registry.global) (List.append_assoc _ _ _)
          · rw [hlaunched]
            show (pass.launched ++ [cfg.id]) ++ _ = _
            rw [List.append_assoc]
            rfl
          · rw [List.length_cons]
            have hmore : pass.launches + 1 + tried.length ≤ _ := hlaunches
            omega
          · intro hverdict
            obtain ⟨htried, hnone⟩ := hok hverdict
            exact ⟨by rw [htried], nofun, hnone⟩
      | unknownAdapter e =>
          obtain ⟨tried, hprefix, hregistry, hlaunched, hskipped, hlaunches, hok⟩ := ih
            { pass with
              skipped := pass.skipped ++ [(cfg.id, e)]
              launches := pass.launches + 1 }
          refine ⟨(cfg, raw) :: tried, (List.cons_prefix_cons).mpr ⟨rfl, hprefix⟩, ?_⟩
          simp only [launchAll, launchedRuntimes, refusedInstances, NoneFails, houtcome]
          refine ⟨hregistry, hlaunched, ?_, ?_, ?_⟩
          · rw [hskipped]
            show (pass.skipped ++ [(cfg.id, e)]) ++ _ = _
            rw [List.append_assoc]
            rfl
          · rw [List.length_cons]
            have hmore : pass.launches + 1 + tried.length ≤ _ := hlaunches
            omega
          · intro hverdict
            obtain ⟨htried, hnone⟩ := hok hverdict
            exact ⟨by rw [htried], nofun, hnone⟩
      | failed e =>
          refine ⟨[], List.nil_prefix, ?_⟩
          simp only [launchAll, launchedRuntimes, refusedInstances, houtcome, List.append_nil,
            List.map_nil]
          exact ⟨trivial, trivial, trivial, Nat.le_succ _, nofun⟩

/-- The instances whose launch did not fail were launched or refused. -/
theorem launched_or_refused {n : ℕ} {items : List ParsedInstance}
    (h : NoneFails launcher global snapshot n items) :
    ∀ item ∈ items,
      item.1.id ∈ (launchedRuntimes launcher global snapshot n items).map DeviceRuntime.id ∨
        ∃ why, (item.1.id, why) ∈ refusedInstances launcher global snapshot n items := by
  induction items generalizing n with
  | nil =>
      intro item hitem
      cases hitem
  | cons first rest ih =>
      obtain ⟨cfg, raw⟩ := first
      obtain ⟨hfirst, hrest⟩ := h
      intro item hitem
      unfold launchedRuntimes refusedInstances
      cases houtcome : launcher n ⟨cfg, raw, global, snapshot⟩ with
      | launched tasks =>
          obtain rfl | hitem := List.mem_cons.mp hitem
          · exact .inl List.mem_cons_self
          · obtain hmem | hwhy := ih hrest item hitem
            · exact .inl (List.mem_cons_of_mem _ hmem)
            · exact .inr hwhy
      | unknownAdapter e =>
          obtain rfl | hitem := List.mem_cons.mp hitem
          · exact .inr ⟨e, List.mem_cons_self⟩
          · obtain hmem | ⟨why, hwhy⟩ := ih hrest item hitem
            · exact .inl hmem
            · exact .inr ⟨why, List.mem_cons_of_mem _ hwhy⟩
      | failed e => exact absurd houtcome (hfirst e)

/-- The refused are among the instances. -/
theorem refusedInstances_sublist (n : ℕ) (items : List ParsedInstance) :
    ((refusedInstances launcher global snapshot n items).map Prod.fst).Sublist
      (items.map (·.1.id)) := by
  induction items generalizing n with
  | nil => exact List.Sublist.refl []
  | cons item rest ih =>
      obtain ⟨cfg, raw⟩ := item
      unfold refusedInstances
      cases launcher n ⟨cfg, raw, global, snapshot⟩ with
      | launched tasks => exact (ih (n + 1)).cons _
      | unknownAdapter e => exact (ih (n + 1)).cons_cons _
      | failed e => exact (ih (n + 1)).cons _

/-- Of instances with distinct ids, none is both refused and launched. -/
theorem refused_not_launched {n : ℕ} {items : List ParsedInstance}
    (hids : (items.map (·.1.id)).Nodup) {id : String}
    (hrefused : id ∈ (refusedInstances launcher global snapshot n items).map Prod.fst) :
    id ∉ (launchedRuntimes launcher global snapshot n items).map DeviceRuntime.id := by
  induction items generalizing n with
  | nil => cases hrefused
  | cons item rest ih =>
      obtain ⟨cfg, raw⟩ := item
      obtain ⟨hfresh, hrest⟩ := List.nodup_cons.mp hids
      unfold refusedInstances at hrefused
      unfold launchedRuntimes
      cases houtcome : launcher n ⟨cfg, raw, global, snapshot⟩ with
      | launched tasks =>
          rw [houtcome] at hrefused
          intro hmem
          obtain heq | hmem := List.mem_cons.mp hmem
          · have hsub := refusedInstances_sublist launcher global snapshot (n + 1) rest
            have hdeclared := hsub.subset hrefused
            rw [heq] at hdeclared
            exact hfresh hdeclared
          · exact ih hrest hrefused hmem
      | unknownAdapter e =>
          rw [houtcome] at hrefused
          intro hmem
          obtain heq | hrefused := List.mem_cons.mp hrefused
          · have hsub := (launchedRuntimes_sublist launcher global snapshot (n + 1) rest).map
              (fun item => item.1.id)
            rw [List.map_map] at hsub
            have hdeclared := hsub.subset hmem
            rw [heq] at hdeclared
            exact hfresh hdeclared
          · exact ih hrest hrefused hmem
      | failed e =>
          rw [houtcome] at hrefused
          exact ih hrest hrefused

/-- The launches of a rollback bring back some of the instances, as new objects. -/
structure Relaunched (r : DeviceRegistry) (n : ℕ) (items : List ParsedInstance)
    (after : DeviceRegistry × ℕ × List String) (back : List DeviceRuntime) : Prop where
  registry : after.1 = { r with devices := r.devices ++ back }
  declared : (back.map fun rt => (rt.cfg, rt.raw)).Sublist items
  objects : (back.map DeviceRuntime.object).Nodup
  made : ∀ rt ∈ back, n ≤ rt.object ∧ rt.object < after.2.1
  launches : n ≤ after.2.1
  all : after.2.2 = [] → back.map (fun rt => (rt.cfg, rt.raw)) = items

/-- A rollback tries every instance, and brings back those that launch. -/
theorem relaunchAll_spec (prior : PriorGeneration) (r : DeviceRegistry) (n : ℕ)
    (items : List ParsedInstance) :
    ∃ back, Relaunched r n items (relaunchAll launcher prior r n items) back := by
  induction items generalizing r n with
  | nil =>
      refine ⟨[], ?_, List.Sublist.refl [], List.nodup_nil, ?_, Nat.le_refl n, fun _ => rfl⟩
      · show r = { r with devices := r.devices ++ [] }
        rw [List.append_nil]
      · intro rt hrt
        cases hrt
  | cons item rest ih =>
      obtain ⟨cfg, raw⟩ := item
      -- a refusal and a failure are one case: the instance is named, and the next one tried
      have hlost : ∀ {lost : DeviceRegistry × ℕ × List String},
          lost = ((relaunchAll launcher prior r (n + 1) rest).1,
            (relaunchAll launcher prior r (n + 1) rest).2.1,
            cfg.id :: (relaunchAll launcher prior r (n + 1) rest).2.2) →
          ∃ back, Relaunched r n ((cfg, raw) :: rest) lost back := by
        rintro lost rfl
        obtain ⟨back, h⟩ := ih r (n + 1)
        refine ⟨back, h.registry, h.declared.cons _, h.objects, ?_, Nat.le_of_succ_le h.launches,
          ?_⟩
        · intro rt hrt
          have hmade := h.made rt hrt
          exact ⟨Nat.le_of_succ_le hmade.1, hmade.2⟩
        · intro hnone
          cases hnone
      cases houtcome : launcher n ⟨cfg, raw, prior.global, prior.snapshot⟩ with
      | launched tasks =>
          obtain ⟨back, h⟩ := ih (r.insert ⟨n, cfg, raw, tasks⟩) (n + 1)
          have hnext : relaunchAll launcher prior r n ((cfg, raw) :: rest) =
              relaunchAll launcher prior (r.insert ⟨n, cfg, raw, tasks⟩) (n + 1) rest := by
            simp only [relaunchAll, houtcome]
          rw [hnext]
          have hfresh : n ∉ back.map DeviceRuntime.object := by
            intro hmem
            obtain ⟨rt, hrt, hobject⟩ := List.mem_map.mp hmem
            have hmade := (h.made rt hrt).1
            omega
          refine ⟨⟨n, cfg, raw, tasks⟩ :: back, ?_, h.declared.cons_cons _,
            List.nodup_cons.mpr ⟨hfresh, h.objects⟩, ?_, Nat.le_of_succ_le h.launches, ?_⟩
          · rw [h.registry]
            exact congrArg (DeviceRegistry.mk · r.global) (List.append_assoc _ _ _)
          · intro rt hrt
            obtain rfl | hrt := List.mem_cons.mp hrt
            · exact ⟨Nat.le_refl n, h.launches⟩
            · have hmade := h.made rt hrt
              exact ⟨Nat.le_of_succ_le hmade.1, hmade.2⟩
          · intro hnone
            rw [List.map_cons, h.all hnone]
      | unknownAdapter e =>
          apply hlost
          simp only [relaunchAll, houtcome]
      | failed e =>
          apply hlost
          simp only [relaunchAll, houtcome]

end Launching

end EnipAdapter.Analysis
