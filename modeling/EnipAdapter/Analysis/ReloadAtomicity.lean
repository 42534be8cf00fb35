import EnipAdapter.Analysis.CandidatePlan
import EnipAdapter.Analysis.ReloadStages

/-!
# A configuration change, whole or not at all

After the stop stage the registry holds the kept runtimes; the launch pass adds to them, and a
rollback takes away what it added and brings back what was stopped. Every id is in one of these
parts.
-/

set_option autoImplicit false

namespace EnipAdapter.Analysis

open EnipAdapter.Model EnipAdapter.Interface

/-! ## Outcomes -/

/-- The launched ids are those of the runtimes that came of the launches. -/
theorem launchedIds_eq (env : ReloadEnv) (global : GlobalConfig) (snapshot : ConfigSnapshot)
    (n : ℕ) (items : List ParsedInstance) :
    launchedIds (outcomesOf env global snapshot n items) =
      (launchedRuntimes env.launcher global snapshot n items).map DeviceRuntime.id := by
  induction items generalizing n with
  | nil => rfl
  | cons item rest ih =>
      obtain ⟨cfg, raw⟩ := item
      have hrest := ih (n + 1)
      unfold launchedIds at hrest ⊢
      unfold outcomesOf launchedRuntimes
      rw [List.filterMap_cons]
      cases env.launcher n ⟨cfg, raw, global, snapshot⟩ with
      | launched tasks => exact congrArg (cfg.id :: ·) hrest
      | unknownAdapter e => exact hrest
      | failed e => exact hrest

/-- The refused ids are those of the instances that the launcher did not know. -/
theorem refusedIds_eq (env : ReloadEnv) (global : GlobalConfig) (snapshot : ConfigSnapshot)
    (n : ℕ) (items : List ParsedInstance) :
    refusedIds (outcomesOf env global snapshot n items) =
      (refusedInstances env.launcher global snapshot n items).map Prod.fst := by
  induction items generalizing n with
  | nil => rfl
  | cons item rest ih =>
      obtain ⟨cfg, raw⟩ := item
      have hrest := ih (n + 1)
      unfold refusedIds at hrest ⊢
      unfold outcomesOf refusedInstances
      rw [List.filterMap_cons]
      cases env.launcher n ⟨cfg, raw, global, snapshot⟩ with
      | launched tasks => exact hrest
      | unknownAdapter e => exact congrArg (cfg.id :: ·) hrest
      | failed e => exact hrest

/-! ## The parts of a commit -/

section Commit

variable (env : ReloadEnv) (s : ReloadState) (p : ReloadPlan) (candidate : ConfigSnapshot)

/-- The runtimes the stop stage leaves alone. -/
def keptRuntimes : List DeviceRuntime :=
  s.registry.devices.filter fun rt => decide (rt.id ∉ p.stop)

/-- The runtimes it takes out of the registry. -/
def stoppedRuntimes : List DeviceRuntime := (detachAll s.registry p.stop).2

def stopActs : List ReloadAct :=
  (stopRuntimes env.taskTakes (stopBudget s.registry.global.timeouts)
    (stoppedRuntimes s p)).map .stop

def clearActs : List ReloadAct :=
  (clearing p.removed (stoppedRuntimes s p)).map fun rt =>
    notify (env.sinkTakes rt.object) (.clearUnreachable rt.object)

/-- The runtimes the launches of some instances make. -/
def newRuntimes (tried : List ParsedInstance) : List DeviceRuntime :=
  launchedRuntimes env.launcher p.global candidate s.launches tried

/-- What a commit did, whichever way it went. -/
structure CommitParts (r : Applied) (tried : List ParsedInstance) : Prop where
  ahead : tried <+: p.start
  devices : r.state.registry.devices = keptRuntimes s p ++ newRuntimes env s p candidate tried
  global : r.state.registry.global = p.global
  stopped : r.undo.stopped = (stoppedRuntimes s p).map fun rt => (rt.cfg, rt.raw)
  launched : r.undo.launched =
    (newRuntimes env s p candidate tried).map DeviceRuntime.id
  undoPrior : r.undo.prior = s.prior
  launches : s.launches + tried.length ≤ r.state.launches

/-- And what it did when it failed. -/
structure CommitFailed (r : Applied) : Prop where
  prior : r.state.prior = s.prior
  acts : r.state.acts = s.acts ++ stopActs env s p ++ clearActs env s p

/-- And when it succeeded. -/
structure CommitDone (r : Applied) : Prop where
  none : NoneFails env.launcher p.global candidate s.launches p.start
  prior : r.state.prior = .of candidate p.global
  nonempty : r.state.registry.devices ≠ []
  acts : ∃ available taken context completed,
    r.state.acts = s.acts ++ stopActs env s p ++ clearActs env s p ++
      [.repollAvailability available taken, .notice (.configApplied context) completed] ∧
    context.skipped = p.skipped ++
      refusedInstances env.launcher p.global candidate s.launches p.start

/-- The launch pass of a commit. -/
def commitPass : LaunchPass × Except ApplicationError Unit :=
  launchAll env.launcher p.global candidate
    { registry := (detachAll s.registry p.stop).1.setGlobal p.global
      skipped := p.skipped
      launches := s.launches } p.start

/-- A launch pass goes over a front of the plan's list, and over all of it if nothing fails. -/
theorem commitPass_spec (hids : s.registry.ids.Nodup) :
    ∃ tried, tried <+: p.start ∧
      (commitPass env s p candidate).1.registry =
        ⟨keptRuntimes s p ++ newRuntimes env s p candidate tried, p.global⟩ ∧
      (commitPass env s p candidate).1.launched =
        (newRuntimes env s p candidate tried).map DeviceRuntime.id ∧
      (commitPass env s p candidate).1.skipped = p.skipped ++
        refusedInstances env.launcher p.global candidate s.launches tried ∧
      s.launches + tried.length ≤ (commitPass env s p candidate).1.launches ∧
      ((commitPass env s p candidate).2 = .ok () → tried = p.start ∧
        NoneFails env.launcher p.global candidate s.launches p.start) := by
  obtain ⟨tried, hahead, hregistry, hlaunched, hskipped, hlaunches, hok⟩ :=
    launchAll_spec env.launcher p.global candidate
      { registry := (detachAll s.registry p.stop).1.setGlobal p.global
        skipped := p.skipped
        launches := s.launches } p.start
  refine ⟨tried, hahead, ?_, hlaunched, hskipped, hlaunches, hok⟩
  unfold commitPass
  rw [hregistry, (detachAll_spec hids p.stop).1]
  rfl

/-- What a commit leaves behind besides its verdict and the generation. -/
def commitState : ReloadState :=
  { s with
    registry := (commitPass env s p candidate).1.registry
    launches := (commitPass env s p candidate).1.launches
    acts := s.acts ++ stopActs env s p ++ clearActs env s p }

def commitUndo : UndoState where
  stopped := (stoppedRuntimes s p).map fun rt => (rt.cfg, rt.raw)
  launched := (commitPass env s p candidate).1.launched
  prior := s.prior

def commitContext : AppliedContext where
  started := (commitPass env s p candidate).1.launched
  stopped := p.stop
  kept := p.keep
  skipped := (commitPass env s p candidate).1.skipped
  restartAll := p.restartAll

variable {env s p candidate}

/-- The launch pass of a commit, with its verdict read off. -/
theorem commitPass_eq {verdict : Except ApplicationError Unit}
    (h : (commitPass env s p candidate).2 = verdict) :
    launchAll env.launcher p.global candidate
        { registry := (detachAll s.registry p.stop).1.setGlobal p.global
          skipped := p.skipped
          launches := s.launches } p.start =
      ((commitPass env s p candidate).1, verdict) := Prod.ext rfl h

/-- A commit with a failing launch ends with that error. -/
theorem commit_launchFailed {e : ApplicationError}
    (h : (commitPass env s p candidate).2 = .error e) :
    commit env false (.staged s p candidate) s =
      ⟨commitState env s p candidate, commitUndo env s p candidate, .error e⟩ := by
  simp only [commit, if_neg Bool.false_ne_true, ReloadTransaction.staged, commitPass_eq h]
  rfl

/-- A commit that leaves nothing running fails. -/
theorem commit_empty (h : (commitPass env s p candidate).2 = .ok ())
    (hempty : (commitPass env s p candidate).1.registry.isEmpty = true) :
    commit env false (.staged s p candidate) s =
      ⟨commitState env s p candidate, commitUndo env s p candidate,
        .error ⟨"NO_RUNNING_INSTANCES",
          "no instance is running after applying the candidate"⟩⟩ := by
  simp only [commit, if_neg Bool.false_ne_true, ReloadTransaction.staged, commitPass_eq h,
    if_pos hempty]
  rfl

/-- Any other commit swaps the generation and tells of it. -/
theorem commit_done (h : (commitPass env s p candidate).2 = .ok ())
    (hsome : (commitPass env s p candidate).1.registry.isEmpty = false) :
    commit env false (.staged s p candidate) s =
      ⟨{ commitState env s p candidate with
          prior := .of candidate p.global
          acts := s.acts ++ stopActs env s p ++ clearActs env s p ++
            [setRepollAvailability env (commitPass env s p candidate).1.registry.allPush,
              notify env.componentSinkTakes (.configApplied (commitContext env s p candidate))] },
        commitUndo env s p candidate, .ok ()⟩ := by
  have hruns : ¬ (commitPass env s p candidate).1.registry.isEmpty = true := by
    rw [hsome]
    exact Bool.false_ne_true
  simp only [commit, if_neg Bool.false_ne_true, ReloadTransaction.staged, commitPass_eq h,
    if_neg hruns]
  rfl

variable (env s p candidate) in
/-- What a commit leaves, and what it did when it failed or succeeded. -/
theorem commit_parts (hids : s.registry.ids.Nodup) :
    ∃ tried, CommitParts env s p candidate (commit env false (.staged s p candidate) s) tried ∧
      (∀ e, (commit env false (.staged s p candidate) s).verdict = .error e →
        CommitFailed env s p (commit env false (.staged s p candidate) s)) ∧
      ((commit env false (.staged s p candidate) s).verdict = .ok () →
        tried = p.start ∧
          CommitDone env s p candidate (commit env false (.staged s p candidate) s)) := by
  obtain ⟨tried, hahead, hregistry, hlaunched, hskipped, hlaunches, hok⟩ :=
    commitPass_spec env s p candidate hids
  have hdevices := congrArg DeviceRegistry.devices hregistry
  have hglobal := congrArg DeviceRegistry.global hregistry
  refine ⟨tried, ?_⟩
  cases hverdict : (commitPass env s p candidate).2 with
  | error e =>
      rw [commit_launchFailed hverdict]
      exact ⟨⟨hahead, hdevices, hglobal, rfl, hlaunched, rfl, hlaunches⟩,
        fun _ _ => ⟨rfl, rfl⟩, nofun⟩
  | ok u =>
      cases hempty : (commitPass env s p candidate).1.registry.isEmpty with
      | true =>
          rw [commit_empty hverdict hempty]
          exact ⟨⟨hahead, hdevices, hglobal, rfl, hlaunched, rfl, hlaunches⟩,
            fun _ _ => ⟨rfl, rfl⟩, nofun⟩
      | false =>
          obtain ⟨htried, hnone⟩ := hok hverdict
          rw [commit_done hverdict hempty]
          refine ⟨⟨hahead, hdevices, hglobal, rfl, hlaunched, rfl, hlaunches⟩, nofun,
            fun _ => ⟨htried, ?_⟩⟩
          refine ⟨hnone, rfl, ?_, _, _, _, _, rfl, ?_⟩
          · intro hnil
            unfold DeviceRegistry.isEmpty at hempty
            have hnil' : (commitPass env s p candidate).1.registry.devices = [] := hnil
            rw [hnil'] at hempty
            cases hempty
          · show (commitPass env s p candidate).1.skipped = _
            rw [hskipped, htried]

end Commit

/-! ## Who is where -/

section Parts

variable {serde : Deserializers} {env : ReloadEnv} {c : LiveComponent} {candidate : ConfigSnapshot}
  {p : ReloadPlan}

/-- The ids of a snapshot are those of the registry. -/
theorem runningIds_eq (r : DeviceRegistry) : r.snapshotRunning.map (·.1) = r.ids := by
  unfold DeviceRegistry.snapshotRunning DeviceRegistry.ids
  rw [List.map_map]
  rfl

/-- A runtime in the registry is in its snapshot. -/
theorem running_of_device {rt : DeviceRuntime} (hrt : rt ∈ c.registry.devices) :
    rt.id ∈ c.registry.snapshotRunning.map (·.1) := by
  rw [runningIds_eq]
  exact List.mem_map_of_mem hrt

/-- A plan made for a component has its facts. -/
theorem facts_of_plan
    (hplan : plan serde c.registry.snapshotRunning c.prior.nonInstance candidate.raw = .ok p) :
    PlanFacts c.registry.snapshotRunning candidate.raw p := by
  apply planFacts hplan
  rw [runningIds_eq]
  exact c.distinct

/-- Kept are the runtimes that the plan keeps. -/
theorem mem_keptRuntimes (hfacts : PlanFacts c.registry.snapshotRunning candidate.raw p)
    {rt : DeviceRuntime} :
    rt ∈ keptRuntimes c.toReloadState p ↔ rt ∈ c.registry.devices ∧ rt.id ∈ p.keep := by
  unfold keptRuntimes
  rw [List.mem_filter, decide_eq_true_iff]
  apply and_congr_right
  intro hrt
  have hruns := running_of_device hrt
  rw [hfacts.stops rt.id hruns, not_not]

/-- Stopped are the runtimes that the plan stops. -/
theorem mem_stoppedRuntimes {rt : DeviceRuntime} :
    rt ∈ stoppedRuntimes c.toReloadState p ↔ rt ∈ c.registry.devices ∧ rt.id ∈ p.stop := by
  have hperm := (detachAll_spec c.distinct p.stop).2
  unfold stoppedRuntimes
  rw [hperm.mem_iff, List.mem_filter, decide_eq_true_iff]

/-- A new runtime was started by the plan, with the subtree the document declares. -/
theorem new_declared (hfacts : PlanFacts c.registry.snapshotRunning candidate.raw p)
    {tried : List ParsedInstance} (htried : tried <+: p.start) {rt : DeviceRuntime}
    (hrt : rt ∈ newRuntimes env c.toReloadState p candidate tried) :
    rt.id ∈ p.start.map (·.1.id) ∧ (rt.id, rt.raw) ∈ candidateInstances candidate.raw := by
  have hmem : (rt.cfg, rt.raw) ∈ p.start := by
    apply htried.subset
    apply (launchedRuntimes_sublist env.launcher p.global candidate c.launches tried).subset
    exact List.mem_map.mpr ⟨rt, hrt, rfl⟩
  exact ⟨List.mem_map.mpr ⟨(rt.cfg, rt.raw), hmem, rfl⟩, hfacts.startDeclared _ hmem⟩

/-- The ids of the kept and of the new runtimes are distinct. -/
theorem partIds_nodup (hfacts : PlanFacts c.registry.snapshotRunning candidate.raw p)
    {tried : List ParsedInstance} (htried : tried <+: p.start) :
    ((keptRuntimes c.toReloadState p ++
      newRuntimes env c.toReloadState p candidate tried).map DeviceRuntime.id).Nodup := by
  have hkept : ((keptRuntimes c.toReloadState p).map DeviceRuntime.id).Nodup :=
    c.distinct.sublist (List.filter_sublist.map _)
  have hnew : ((newRuntimes env c.toReloadState p candidate tried).map DeviceRuntime.id).Nodup := by
    have hsub := ((launchedRuntimes_sublist env.launcher p.global candidate c.launches tried).trans
      htried.sublist).map (fun item => item.1.id)
    rw [List.map_map] at hsub
    exact hfacts.startIds.sublist hsub
  rw [List.map_append]
  refine List.nodup_append.mpr ⟨hkept, hnew, ?_⟩
  intro a ha b hb hab
  obtain ⟨rt, hrt, rfl⟩ := List.mem_map.mp ha
  obtain ⟨other, hother, rfl⟩ := List.mem_map.mp hb
  have hstart := (new_declared hfacts htried hother).1
  rw [← hab] at hstart
  exact hfacts.apart rt.id hstart ((mem_keptRuntimes hfacts).mp hrt).2

/-- After a commit, failed or not, an id runs once. -/
theorem ids_nodup_of_parts (hfacts : PlanFacts c.registry.snapshotRunning candidate.raw p)
    {r : Applied} {tried : List ParsedInstance}
    (hparts : CommitParts env c.toReloadState p candidate r tried) :
    r.state.registry.ids.Nodup := by
  unfold DeviceRegistry.ids
  rw [hparts.devices]
  exact partIds_nodup hfacts hparts.ahead

/-! ## A commit that succeeds -/

/-- What was appended to the acts is what was done since. -/
theorem actsSince_append {s s' : ReloadState} {acts : List ReloadAct}
    (h : s'.acts = s.acts ++ acts) : actsSince s s' = acts := by
  unfold actsSince
  rw [h, List.drop_left]

/-- Every running instance carries the subtree it is declared with. -/
theorem part_carries (hfacts : PlanFacts c.registry.snapshotRunning candidate.raw p)
    {tried : List ParsedInstance} (htried : tried <+: p.start) {rt : DeviceRuntime}
    (hrt : rt ∈ keptRuntimes c.toReloadState p ++
      newRuntimes env c.toReloadState p candidate tried) :
    ∃ subtree, (rt.id, subtree) ∈ candidateInstances candidate.raw ∧
      Json.same rt.raw subtree = true := by
  obtain hkept | hnew := List.mem_append.mp hrt
  · obtain ⟨hmem, hkeep⟩ := (mem_keptRuntimes hfacts).mp hkept
    exact hfacts.keepSame (rt.id, rt.raw) (List.mem_map.mpr ⟨rt, hmem, rfl⟩) hkeep
  · have hdeclared := (new_declared hfacts htried hnew).2
    have hkeys := candidateInstances_distinctKeys candidate.distinctKeys _ hdeclared
    exact ⟨rt.raw, hdeclared, same_self rt.raw hkeys⟩

/-- Who runs after a commit was kept or was launched. -/
theorem mem_partIds (hfacts : PlanFacts c.registry.snapshotRunning candidate.raw p)
    {tried : List ParsedInstance} {id : String} :
    id ∈ (keptRuntimes c.toReloadState p ++
        newRuntimes env c.toReloadState p candidate tried).map DeviceRuntime.id ↔
      id ∈ p.keep ∨
        id ∈ launchedIds (outcomesOf env p.global candidate c.launches tried) := by
  rw [List.map_append, List.mem_append, launchedIds_eq]
  apply or_congr _ Iff.rfl
  constructor
  · intro hid
    obtain ⟨rt, hrt, rfl⟩ := List.mem_map.mp hid
    exact ((mem_keptRuntimes hfacts).mp hrt).2
  · intro hkeep
    have hruns := hfacts.keepRuns id hkeep
    rw [runningIds_eq] at hruns
    obtain ⟨rt, hrt, rfl⟩ := List.mem_map.mp hruns
    exact List.mem_map_of_mem ((mem_keptRuntimes hfacts).mpr ⟨hrt, hkeep⟩)

/-- A kept runtime is the object it was. -/
theorem part_kept (hfacts : PlanFacts c.registry.snapshotRunning candidate.raw p)
    {tried : List ParsedInstance} (htried : tried <+: p.start) {rt : DeviceRuntime}
    (hkeep : rt.id ∈ p.keep) :
    rt ∈ keptRuntimes c.toReloadState p ++ newRuntimes env c.toReloadState p candidate tried ↔
      rt ∈ c.registry.devices := by
  rw [List.mem_append, mem_keptRuntimes hfacts]
  constructor
  · rintro (⟨hmem, -⟩ | hnew)
    · exact hmem
    · exact absurd hkeep (hfacts.apart rt.id (new_declared hfacts htried hnew).1)
  · intro hmem
    exact .inl ⟨hmem, hkeep⟩

/-- An instance whose launch did not fail runs, or is among those refused. -/
theorem start_launched_or_refused
    (hnone : NoneFails env.launcher p.global candidate c.launches p.start) :
    ∀ id ∈ p.start.map (·.1.id),
      id ∈ launchedIds (startOutcomes env c.toReloadState p candidate) ∨
        ∃ why, (id, why) ∈ refusedInstances env.launcher p.global candidate c.launches p.start := by
  intro id hid
  obtain ⟨item, hitem, rfl⟩ := List.mem_map.mp hid
  unfold startOutcomes
  rw [launchedIds_eq]
  exact launched_or_refused env.launcher p.global candidate hnone item hitem

/-- Who is declared runs, or is in the list of the skipped. -/
theorem declared_runs_or_skipped (hfacts : PlanFacts c.registry.snapshotRunning candidate.raw p)
    (hnone : NoneFails env.launcher p.global candidate c.launches p.start)
    {entry : String × Json} (hentry : entry ∈ candidateInstances candidate.raw) :
    (entry.1 ∈ p.keep ∨ entry.1 ∈ launchedIds (startOutcomes env c.toReloadState p candidate)) ∨
      ∃ why, (entry.1, why) ∈ p.skipped ++
        refusedInstances env.launcher p.global candidate c.launches p.start := by
  obtain hkeep | hstart | ⟨why, hwhy⟩ := hfacts.declared entry hentry
  · exact .inl (.inl hkeep)
  · obtain hrun | ⟨why, hwhy⟩ := start_launched_or_refused hnone entry.1 hstart
    · exact .inl (.inr hrun)
    · exact .inr ⟨why, List.mem_append_right _ hwhy⟩
  · exact .inr ⟨why, List.mem_append_left _ hwhy⟩

/-- With no launch refused, the document planned again over what runs moves nothing. -/
theorem settled_of_none_refused
    (hplan : plan serde c.registry.snapshotRunning c.prior.nonInstance candidate.raw = .ok p)
    (hnone : NoneFails env.launcher p.global candidate c.launches p.start)
    (hrefused : refusedIds (startOutcomes env c.toReloadState p candidate) = [])
    {r : DeviceRegistry} (hsome : r.devices ≠ [])
    (hdevices : r.devices =
      keptRuntimes c.toReloadState p ++ newRuntimes env c.toReloadState p candidate p.start) :
    ∃ again, plan serde r.snapshotRunning (nonInstanceView candidate.raw) candidate.raw =
      .ok again ∧ again.stop = [] ∧ again.start = [] := by
  have hfacts := facts_of_plan hplan
  have htried : p.start <+: p.start := List.prefix_refl _
  have hids : ∀ id, id ∈ r.ids ↔ id ∈ p.keep ∨
      id ∈ launchedIds (startOutcomes env c.toReloadState p candidate) := by
    intro id
    unfold DeviceRegistry.ids
    rw [hdevices]
    exact mem_partIds hfacts
  refine plan_again hplan candidate.distinctKeys ⟨?_, ?_, ?_, ?_, ?_⟩
  · rw [runningIds_eq]
    unfold DeviceRegistry.ids
    rw [hdevices]
    exact partIds_nodup hfacts htried
  · intro hnil
    exact hsome (List.map_eq_nil_iff.mp hnil)
  · intro id hvalid
    rw [runningIds_eq, hids]
    obtain hkeep | hstart := (mem_valid hplan).mp hvalid
    · exact .inl hkeep
    · obtain hrun | ⟨why, hwhy⟩ := start_launched_or_refused hnone id hstart
      · exact .inr hrun
      · have hmem : id ∈ refusedIds (startOutcomes env c.toReloadState p candidate) := by
          unfold startOutcomes
          rw [refusedIds_eq]
          exact List.mem_map.mpr ⟨(id, why), hwhy, rfl⟩
        rw [hrefused] at hmem
        cases hmem
  · intro entry hentry
    obtain ⟨rt, hrt, rfl⟩ := List.mem_map.mp hentry
    rw [hdevices] at hrt
    exact part_carries hfacts htried hrt
  · intro entry hentry
    obtain ⟨rt, hrt, rfl⟩ := List.mem_map.mp hentry
    rw [hdevices] at hrt
    rw [mem_valid hplan]
    obtain hkept | hnew := List.mem_append.mp hrt
    · exact .inl ((mem_keptRuntimes hfacts).mp hkept).2
    · exact .inr (new_declared hfacts htried hnew).1

/-- A commit that succeeds puts the candidate in force, whole. -/
theorem committed_of_ok
    (hplan : plan serde c.registry.snapshotRunning c.prior.nonInstance candidate.raw = .ok p)
    (hverdict : (commit env false (.staged c.toReloadState p candidate)
      c.toReloadState).verdict = .ok ()) :
    Committed serde env candidate p c.toReloadState
      (commit env false (.staged c.toReloadState p candidate) c.toReloadState).state := by
  have hfacts := facts_of_plan hplan
  obtain ⟨tried, hparts, -, hsucceeds⟩ := commit_parts env c.toReloadState p candidate c.distinct
  obtain ⟨rfl, hdone⟩ := hsucceeds hverdict
  generalize commit env false (.staged c.toReloadState p candidate) c.toReloadState = r at *
  have htried := hparts.ahead
  have hids : ∀ id, id ∈ r.state.registry.ids ↔ id ∈ p.keep ∨
      id ∈ launchedIds (startOutcomes env c.toReloadState p candidate) := by
    intro id
    unfold DeviceRegistry.ids
    rw [hparts.devices]
    exact mem_partIds hfacts
  refine ⟨ids_nodup_of_parts hfacts hparts, hids, ?_, ?_, ?_, ?_, ?_, ?_⟩
  · intro rt hrt
    rw [hparts.devices] at hrt
    exact part_carries hfacts htried hrt
  · intro rt hkeep
    rw [hparts.devices]
    exact part_kept hfacts htried hkeep
  · rw [hparts.global]
    exact (plan_ok hplan).1
  · rw [hparts.global]
    exact hdone.prior
  · obtain ⟨available, taken, context, completed, hacts, hskipped⟩ := hdone.acts
    rw [List.append_assoc, List.append_assoc] at hacts
    refine ⟨context, completed, ?_, ?_⟩
    · rw [actsSince_append hacts]
      apply List.mem_append_right
      apply List.mem_append_right
      exact List.mem_cons_of_mem _ List.mem_cons_self
    · intro entry hentry hnot
      rw [hids] at hnot
      rw [hskipped]
      exact (declared_runs_or_skipped hfacts hdone.none hentry).resolve_left hnot
  · intro hrefused
    rw [hdone.prior]
    exact settled_of_none_refused hplan hdone.none hrefused hdone.nonempty hparts.devices

/-! ## A rollback that succeeds -/

/-- Of instances with distinct ids, a search finds the same one in any order. -/
theorem find_perm {items others : List ParsedInstance} (hperm : items.Perm others)
    (hids : (items.map (·.1.id)).Nodup) (id : String) :
    items.find? (·.1.id == id) = others.find? (·.1.id == id) := by
  have hids' : (others.map (·.1.id)).Nodup := (hperm.map _).nodup_iff.mp hids
  cases hfind : others.find? (·.1.id == id) with
  | none =>
      rw [List.find?_eq_none] at hfind ⊢
      intro item hitem
      exact hfind item (hperm.mem_iff.mp hitem)
  | some found =>
      have hfound := List.mem_of_find?_eq_some hfind
      have hid := List.find?_some hfind
      cases hother : items.find? (·.1.id == id) with
      | none => exact absurd hid (List.find?_eq_none.mp hother found (hperm.mem_iff.mpr hfound))
      | some other =>
          have hmem := hperm.mem_iff.mp (List.mem_of_find?_eq_some hother)
          have hid' := List.find?_some hother
          rw [List.inj_on_of_nodup_map hids' hmem hfound
            ((beq_iff_eq.mp hid').trans (beq_iff_eq.mp hid).symm)]

/-- The configuration of an id is found in the list of configurations. -/
theorem configOf_eq (r : DeviceRegistry) (id : String) :
    configOf r id = (r.devices.map fun rt => (rt.cfg, rt.raw)).find? (·.1.id == id) := by
  rw [List.find?_map]
  rfl

/-- The stop engine stops what it is given and nothing else. -/
theorem stops_stopRuntimes {takes : ℕ → ℕ → Option Duration} {budget : Duration}
    {runtimes : List DeviceRuntime} {act : ReloadAct} {object : ℕ}
    (hact : act ∈ (stopRuntimes takes budget runtimes).map ReloadAct.stop)
    (hstops : Stops object act) : ∃ rt ∈ runtimes, rt.object = object := by
  obtain ⟨inner, hinner, rfl⟩ := List.mem_map.mp hact
  obtain hcancelled | hended := List.mem_append.mp hinner
  · obtain ⟨rt, hrt, rfl⟩ := List.mem_map.mp hcancelled
    exact ⟨rt, hrt, hstops⟩
  · obtain ⟨rt, hrt, htask⟩ := List.mem_flatMap.mp hended
    obtain ⟨task, -, rfl⟩ := List.mem_map.mp htask
    exact ⟨rt, hrt, hstops⟩

/-- Clearing alarms stops nothing. -/
theorem not_stops_clearActs {act : ReloadAct} {object : ℕ}
    (hact : act ∈ clearActs env c.toReloadState p) : ¬ Stops object act := by
  obtain ⟨rt, -, rfl⟩ := List.mem_map.mp hact
  exact id

/-- The stop stage of a commit leaves the kept runtimes alone. -/
theorem not_stops_kept (hfacts : PlanFacts c.registry.snapshotRunning candidate.raw p)
    {rt : DeviceRuntime} (hrt : rt ∈ c.registry.devices) (hkeep : rt.id ∈ p.keep)
    {act : ReloadAct} (hact : act ∈ stopActs env c.toReloadState p) : ¬ Stops rt.object act := by
  intro hstops
  obtain ⟨other, hother, hobject⟩ := stops_stopRuntimes hact hstops
  obtain ⟨hmem, hstop⟩ := mem_stoppedRuntimes.mp hother
  have hsame := List.inj_on_of_nodup_map c.objects hmem hrt hobject
  rw [hsame] at hstop
  have hruns := running_of_device hrt
  exact (hfacts.stops rt.id hruns).mp hstop hkeep

/-- The registry a rollback launches into: without what the commit launched. -/
def rollbackBase (undo : UndoState) (s : ReloadState) : DeviceRegistry :=
  ⟨s.registry.devices.filter fun rt => decide (rt.id ∉ undo.launched), undo.prior.global⟩

/-- What a rollback makes of the registry; it loses nobody when it succeeds. -/
theorem rollback_spec (env : ReloadEnv) (undo : UndoState) {s : ReloadState}
    (hids : s.registry.ids.Nodup) :
    ∃ back failed, Relaunched (rollbackBase undo s) s.launches undo.stopped
        ((rollback env undo s).state.registry, (rollback env undo s).state.launches, failed) back ∧
      ((rollback env undo s).verdict = .ok () → failed = []) := by
  have hbase : (detachAll s.registry undo.launched).1.setGlobal undo.prior.global =
      rollbackBase undo s := by
    rw [(detachAll_spec hids undo.launched).1]
    rfl
  obtain ⟨back, h⟩ := relaunchAll_spec env.launcher undo.prior (rollbackBase undo s) s.launches
    undo.stopped
  refine ⟨back, (relaunchAll env.launcher undo.prior (rollbackBase undo s) s.launches
    undo.stopped).2.2, ?_, ?_⟩
  · rw [← hbase] at h ⊢
    exact h
  · intro hverdict
    rw [← hbase]
    by_contra hsome
    have hfails : (rollback env undo s).verdict = .error ⟨"ROLLBACK_RELAUNCH_FAILED", _⟩ :=
      if_neg hsome
    rw [hfails] at hverdict
    cases hverdict

/-- Taking the new runtimes away leaves the kept ones. -/
theorem filter_launched (hfacts : PlanFacts c.registry.snapshotRunning candidate.raw p)
    {tried : List ParsedInstance} (htried : tried <+: p.start) :
    (keptRuntimes c.toReloadState p ++ newRuntimes env c.toReloadState p candidate tried).filter
        (fun rt => decide (rt.id ∉
          (newRuntimes env c.toReloadState p candidate tried).map DeviceRuntime.id)) =
      keptRuntimes c.toReloadState p := by
  have hnodup : ((keptRuntimes c.toReloadState p ++
      newRuntimes env c.toReloadState p candidate tried).map DeviceRuntime.id).Nodup :=
    partIds_nodup hfacts htried
  rw [List.map_append] at hnodup
  obtain ⟨-, -, hapart⟩ := List.nodup_append.mp hnodup
  rw [List.filter_append, List.filter_eq_self.mpr, List.filter_eq_nil_iff.mpr, List.append_nil]
  · intro rt hrt hnot
    exact of_decide_eq_true hnot (List.mem_map_of_mem hrt)
  · intro rt hrt
    apply decide_eq_true
    intro hmem
    exact hapart rt.id (List.mem_map_of_mem hrt) rt.id hmem rfl

/-- The kept and the stopped runtimes are those there were. -/
theorem parts_perm :
    (keptRuntimes c.toReloadState p ++ stoppedRuntimes c.toReloadState p).Perm
      c.registry.devices := by
  have hstopped := (detachAll_spec c.distinct p.stop).2
  have hsplit := List.filter_append_perm (fun rt => decide (rt.id ∉ p.stop)) c.registry.devices
  have hsame : (c.registry.devices.filter fun rt => !decide (rt.id ∉ p.stop)) =
      c.registry.devices.filter (fun rt => decide (rt.id ∈ p.stop)) := by
    apply List.filter_congr
    intro rt _
    rw [decide_not, Bool.not_not]
  rw [hsame] at hsplit
  exact (hstopped.append_left _).trans hsplit

/-- After a commit and its rollback, the registry holds what was kept and what was brought back. -/
theorem rollback_registry (hfacts : PlanFacts c.registry.snapshotRunning candidate.raw p)
    {r : Applied} {tried : List ParsedInstance}
    (hparts : CommitParts env c.toReloadState p candidate r tried) {back : List DeviceRuntime}
    {failed : List String}
    (h : Relaunched (rollbackBase r.undo r.state) r.state.launches r.undo.stopped
      ((rollback env r.undo r.state).state.registry,
        (rollback env r.undo r.state).state.launches, failed) back) :
    (rollback env r.undo r.state).state.registry =
      ⟨keptRuntimes c.toReloadState p ++ back, c.prior.global⟩ := by
  have hregistry := h.registry
  unfold rollbackBase at hregistry
  rw [hparts.launched, hparts.devices, filter_launched hfacts hparts.ahead,
    hparts.undoPrior] at hregistry
  exact hregistry

/-- A rollback stops what its commit launched, and those are newer objects than what ran. -/
theorem not_stops_undone (hfacts : PlanFacts c.registry.snapshotRunning candidate.raw p)
    {r : Applied} {tried : List ParsedInstance}
    (hparts : CommitParts env c.toReloadState p candidate r tried) {rt : DeviceRuntime}
    (hrt : rt ∈ c.registry.devices) {budget : Duration} {act : ReloadAct}
    (hact : act ∈ (stopRuntimes env.taskTakes budget
      (detachAll r.state.registry r.undo.launched).2).map ReloadAct.stop) :
    ¬ Stops rt.object act := by
  intro hstops
  have hids := ids_nodup_of_parts hfacts hparts
  obtain ⟨other, hother, hobject⟩ := stops_stopRuntimes hact hstops
  have hmem := (detachAll_spec hids r.undo.launched).2.mem_iff.mp hother
  obtain ⟨hdevice, hlaunched⟩ := List.mem_filter.mp hmem
  have hlaunched' := of_decide_eq_true hlaunched
  rw [hparts.launched] at hlaunched'
  obtain ⟨new, hnew, hid⟩ := List.mem_map.mp hlaunched'
  rw [hparts.devices] at hdevice
  have hsame : new = other := by
    apply List.inj_on_of_nodup_map (partIds_nodup hfacts hparts.ahead)
      (List.mem_append_right _ hnew) hdevice hid
  have hnewer := (launchedRuntimes_objects env.launcher p.global candidate c.launches
    tried).2 new hnew
  have holder := c.made rt hrt
  rw [hsame] at hnewer
  omega

/-- A rollback that succeeds puts the generation from before in force, whole. -/
theorem restored_of_rollback
    (hplan : plan serde c.registry.snapshotRunning c.prior.nonInstance candidate.raw = .ok p)
    {e : ApplicationError}
    (herror : (commit env false (.staged c.toReloadState p candidate)
      c.toReloadState).verdict = .error e)
    (hverdict : (rollback env
      (commit env false (.staged c.toReloadState p candidate) c.toReloadState).undo
      (commit env false (.staged c.toReloadState p candidate) c.toReloadState).state).verdict =
        .ok ()) :
    Restored p c.toReloadState (rollback env
      (commit env false (.staged c.toReloadState p candidate) c.toReloadState).undo
      (commit env false (.staged c.toReloadState p candidate) c.toReloadState).state).state := by
  have hfacts := facts_of_plan hplan
  obtain ⟨tried, hparts, hfails, -⟩ := commit_parts env c.toReloadState p candidate c.distinct
  have hfailed := hfails e herror
  generalize commit env false (.staged c.toReloadState p candidate) c.toReloadState = r at *
  have hids := ids_nodup_of_parts hfacts hparts
  obtain ⟨back, failed, hrelaunched, hnone⟩ := rollback_spec env r.undo hids
  have hregistry := rollback_registry hfacts hparts hrelaunched
  have hback := hrelaunched.all (hnone hverdict)
  rw [hparts.stopped] at hback
  refine ⟨?_, ?_, hfailed.prior, ?_⟩
  · intro id
    have hperm := (parts_perm (c := c) (p := p)).map fun rt => (rt.cfg, rt.raw)
    have hnodup : ((c.registry.devices.map fun rt => (rt.cfg, rt.raw)).map (·.1.id)).Nodup := by
      rw [List.map_map]
      exact c.distinct
    rw [configOf_eq, configOf_eq, hregistry, find_perm hperm.symm hnodup]
    show ((keptRuntimes c.toReloadState p ++ back).map _).find? _ = _
    rw [List.map_append, hback, ← List.map_append]
  · rw [hregistry]
    exact c.inForce.symm
  · intro rt hrt hkeep
    constructor
    · rw [hregistry]
      exact List.mem_append_left _ ((mem_keptRuntimes hfacts).mpr ⟨hrt, hkeep⟩)
    · have hacts : (rollback env r.undo r.state).state.acts = c.acts ++
          (stopActs env c.toReloadState p ++ (clearActs env c.toReloadState p ++
            (stopRuntimes env.taskTakes (stopBudget r.undo.prior.global.timeouts)
              (detachAll r.state.registry r.undo.launched).2).map .stop)) := by
        show r.state.acts ++ _ = _
        rw [hfailed.acts, List.append_assoc, List.append_assoc]
      intro act hact
      rw [actsSince_append hacts] at hact
      obtain hstop | hact := List.mem_append.mp hact
      · exact not_stops_kept hfacts hrt hkeep hstop
      · obtain hclear | hundo := List.mem_append.mp hact
        · exact not_stops_clearActs hclear
        · exact not_stops_undone hfacts hparts hrt hundo

end Parts

/-- A configuration change commits whole or, when its rollback succeeds, leaves the generation it
found. -/
theorem reload_whole_or_restored (serde : Deserializers) (env : ReloadEnv) (c : LiveComponent)
    (candidate : ConfigSnapshot) (p : ReloadPlan)
    (hplan : plan serde c.registry.snapshotRunning c.prior.nonInstance candidate.raw = .ok p) :
    ((commit env false (.staged c.toReloadState p candidate) c.toReloadState).verdict = .ok () →
      Committed serde env candidate p c.toReloadState
        (commit env false (.staged c.toReloadState p candidate) c.toReloadState).state) ∧
    ∀ e, (commit env false (.staged c.toReloadState p candidate) c.toReloadState).verdict =
        .error e →
      (rollback env
        (commit env false (.staged c.toReloadState p candidate) c.toReloadState).undo
        (commit env false (.staged c.toReloadState p candidate) c.toReloadState).state).verdict =
          .ok () →
      Restored p c.toReloadState (rollback env
        (commit env false (.staged c.toReloadState p candidate) c.toReloadState).undo
        (commit env false (.staged c.toReloadState p candidate) c.toReloadState).state).state :=
  ⟨committed_of_ok hplan, fun _ => restored_of_rollback hplan⟩

/-! ## A document of polled devices -/

/-- The entry of a polled device with one tag. -/
def polledEntry (id adapter : String) : Json :=
  .obj [("id", .str id), ("adapter", .str adapter),
    ("connection", .obj [("endpoint", .str "10.0.0.5")]),
    ("pollGroups", .arr [.obj [("signals", .arr [.obj [("name", .str "speed"),
      ("tagPath", .str "Speed"), ("type", .str "dint")]])]])]

/-- What such an entry reads as. -/
def polledConfig (id : String) : DeviceConfig where
  id := id
  mode := .poll
  connection := { endpoint := "10.0.0.5", slot := none, connected := false }
  pollGroups := [
    { id := none
      signals := [
        { name := "speed", tagPath := "Speed", eipType := .dint, arrayCount := none,
          scale := none, offset := none, deadband := {} }] }]
  io := none
  writes := ⟨[]⟩

def readPolled (v : Json) : Except String DeviceConfig :=
  match v.get "id" with
  | some (.str id) => .ok (polledConfig id)
  | _ => .error "missing field `id`"

/-- The reader of documents whose instances are polled devices, with no global section. -/
def polledSerde : Deserializers where
  device := readPolled
  global := fun _ => .error "unknown field"
  device_id := by
    intro v cfg h
    unfold readPolled at h
    split at h
    · rename_i id hid
      cases h
      exact hid
    · cases h

/-- The entry of a polled device has no key twice. -/
theorem polledEntry_distinctKeys (id adapter : String) : (polledEntry id adapter).DistinctKeys := by
  simp [polledEntry, Json.DistinctKeys, Json.DistinctMembers, Json.DistinctItems]

/-- The document that declares polled devices, each with its adapter token. -/
def polledDocument (devices : List (String × String)) : ConfigSnapshot where
  raw := .obj [("component", .obj
    [("instances", .arr (devices.map fun d => polledEntry d.1 d.2))])]
  distinctKeys := by
    refine ⟨List.nodup_singleton _, ⟨⟨List.nodup_singleton _, ?_, trivial⟩, trivial⟩⟩
    apply distinctItems_iff.mpr
    intro v hv
    obtain ⟨d, -, rfl⟩ := List.mem_map.mp hv
    exact polledEntry_distinctKeys d.1 d.2

/-- The launcher knows two adapter tokens. -/
def adapterLauncher (_ : ℕ) (request : LaunchRequest) : LaunchOutcome :=
  match (request.raw.get "adapter").bind Json.asStr with
  | none | some "sim" | some "ethernet-ip" => .launched 1
  | some token => .unknownAdapter ("device `" ++ request.cfg.id ++ "`: unknown adapter `" ++
      token ++ "` (expected `ethernet-ip` or `sim`)")

/-- A component that runs one device. -/
def oneDevice : LiveComponent where
  registry := ⟨[⟨0, polledConfig "plc-1", polledEntry "plc-1" "sim", 1⟩], {}⟩
  prior := .of (polledDocument [("plc-1", "sim")]) {}
  launches := 1
  distinct := by decide
  inForce := rfl
  objects := by decide
  made := by
    intro rt hrt
    rw [List.mem_singleton.mp hrt]
    exact Nat.zero_lt_one

/-- The plan of a document for the component that runs one device. -/
def planOne (devices : List (String × String)) : ReloadPlan :=
  planFor polledSerde oneDevice.registry.snapshotRunning oneDevice.prior.nonInstance
    (polledDocument devices).raw {}

/-- A second device is added beside the first. -/
theorem reload_adds_device :
    Committed polledSerde { launcher := adapterLauncher }
      (polledDocument [("plc-1", "sim"), ("plc-2", "sim")])
      (planOne [("plc-1", "sim"), ("plc-2", "sim")]) oneDevice.toReloadState
      (commit { launcher := adapterLauncher } false
        (.staged oneDevice.toReloadState (planOne [("plc-1", "sim"), ("plc-2", "sim")])
          (polledDocument [("plc-1", "sim"), ("plc-2", "sim")])) oneDevice.toReloadState).state :=
  (reload_whole_or_restored polledSerde { launcher := adapterLauncher } oneDevice
    (polledDocument [("plc-1", "sim"), ("plc-2", "sim")])
    (planOne [("plc-1", "sim"), ("plc-2", "sim")]) rfl).1 rfl

end EnipAdapter.Analysis
