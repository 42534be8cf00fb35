import EnipAdapter.Analysis.ReloadAtomicity
import EnipAdapter.Foundation.Runs

/-!
# Configuration changes over the life of a component

Whatever becomes of a change, what it leaves is again a component whose ids are distinct, whose
global is that of its generation and whose runtimes are objects of their own. So every change of a
run meets such a component, and is made whole or not at all.
-/

set_option autoImplicit false

namespace EnipAdapter.Analysis

open EnipAdapter.Foundation EnipAdapter.Model EnipAdapter.Interface

/-- The state is that of a component between two changes. -/
def Live (s : ReloadState) : Prop := ∃ c : LiveComponent, c.toReloadState = s

section Parts

variable {serde : Deserializers} {env : ReloadEnv} {c : LiveComponent} {candidate : ConfigSnapshot}
  {p : ReloadPlan}

/-- Kept runtimes and newer ones make a component. -/
theorem live_of_parts {s : ReloadState} {more : List DeviceRuntime}
    (hdevices : s.registry.devices = keptRuntimes c.toReloadState p ++ more)
    (hids : ((keptRuntimes c.toReloadState p ++ more).map DeviceRuntime.id).Nodup)
    (hglobal : s.registry.global = s.prior.global)
    (hobjects : (more.map DeviceRuntime.object).Nodup) (hlaunches : c.launches ≤ s.launches)
    (hmade : ∀ rt ∈ more, c.launches ≤ rt.object ∧ rt.object < s.launches) : Live s := by
  have hkept : ∀ rt ∈ keptRuntimes c.toReloadState p, rt.object < c.launches :=
    fun rt hrt => c.made rt (List.mem_filter.mp hrt).1
  refine ⟨⟨s, ?_, hglobal, ?_, ?_⟩, rfl⟩
  · unfold DeviceRegistry.ids
    rw [hdevices]
    exact hids
  · rw [hdevices, List.map_append]
    refine List.nodup_append.mpr ⟨c.objects.sublist (List.filter_sublist.map _), hobjects, ?_⟩
    intro a ha b hb hab
    obtain ⟨rt, hrt, rfl⟩ := List.mem_map.mp ha
    obtain ⟨other, hother, rfl⟩ := List.mem_map.mp hb
    have hold := hkept rt hrt
    have hnew := (hmade other hother).1
    omega
  · intro rt hrt
    rw [hdevices] at hrt
    obtain hold | hnew := List.mem_append.mp hrt
    · exact Nat.lt_of_lt_of_le (hkept rt hold) hlaunches
    · exact (hmade rt hnew).2

/-- A commit that succeeds leaves a component. -/
theorem commit_live
    (hplan : plan serde c.registry.snapshotRunning c.prior.nonInstance candidate.raw = .ok p)
    (hverdict : (commit env false (.staged c.toReloadState p candidate)
      c.toReloadState).verdict = .ok ()) :
    Live (commit env false (.staged c.toReloadState p candidate) c.toReloadState).state := by
  have hfacts := facts_of_plan hplan
  obtain ⟨tried, hparts, -, hsucceeds⟩ := commit_parts env c.toReloadState p candidate c.distinct
  obtain ⟨-, hdone⟩ := hsucceeds hverdict
  generalize commit env false (.staged c.toReloadState p candidate) c.toReloadState = r at *
  obtain ⟨hobjects, hmade⟩ :=
    launchedRuntimes_objects env.launcher p.global candidate c.launches tried
  have hlaunches := hparts.launches
  refine live_of_parts hparts.devices (partIds_nodup hfacts hparts.ahead) ?_ hobjects ?_ ?_
  · rw [hparts.global, hdone.prior]
    rfl
  · exact Nat.le_trans (Nat.le_add_right _ _) hlaunches
  · intro rt hrt
    exact ⟨(hmade rt hrt).1, Nat.lt_of_lt_of_le (hmade rt hrt).2 hlaunches⟩

/-- The ids of what was kept and of what a rollback brought back are distinct. -/
theorem backIds_nodup {back : List DeviceRuntime}
    (hback : (back.map fun rt => (rt.cfg, rt.raw)).Sublist
      ((stoppedRuntimes c.toReloadState p).map fun rt => (rt.cfg, rt.raw))) :
    ((keptRuntimes c.toReloadState p ++ back).map DeviceRuntime.id).Nodup := by
  have hall : ((keptRuntimes c.toReloadState p ++
      stoppedRuntimes c.toReloadState p).map DeviceRuntime.id).Nodup :=
    (parts_perm.map _).nodup_iff.mpr c.distinct
  have hids := hback.map fun item => item.1.id
  rw [List.map_map, List.map_map] at hids
  rw [List.map_append] at hall ⊢
  exact hall.sublist (hids.append_left _)

/-- So does a rollback of one that failed, even where it cannot bring everything back. -/
theorem rollback_live
    (hplan : plan serde c.registry.snapshotRunning c.prior.nonInstance candidate.raw = .ok p)
    {e : ApplicationError}
    (herror : (commit env false (.staged c.toReloadState p candidate)
      c.toReloadState).verdict = .error e) :
    Live (rollback env
      (commit env false (.staged c.toReloadState p candidate) c.toReloadState).undo
      (commit env false (.staged c.toReloadState p candidate) c.toReloadState).state).state := by
  have hfacts := facts_of_plan hplan
  obtain ⟨tried, hparts, hfails, -⟩ := commit_parts env c.toReloadState p candidate c.distinct
  have hfailed := hfails e herror
  generalize commit env false (.staged c.toReloadState p candidate) c.toReloadState = r at *
  have hids := ids_nodup_of_parts hfacts hparts
  obtain ⟨back, failed, hrelaunched, -⟩ := rollback_spec env r.undo hids
  have hregistry := rollback_registry hfacts hparts hrelaunched
  have hmore := hparts.launches
  have hlaunches : r.state.launches ≤ (rollback env r.undo r.state).state.launches :=
    hrelaunched.launches
  have hdeclared := hrelaunched.declared
  rw [hparts.stopped] at hdeclared
  refine live_of_parts (congrArg DeviceRegistry.devices hregistry) (backIds_nodup hdeclared) ?_
    hrelaunched.objects ?_ ?_
  · have hprior : (rollback env r.undo r.state).state.prior = c.prior := hfailed.prior
    rw [hregistry, hprior]
  · omega
  · intro rt hrt
    obtain ⟨hfrom, hto⟩ := hrelaunched.made rt hrt
    exact ⟨by omega, hto⟩

end Parts

/-! ## Runs -/

/-- Before anything was done a rollback changes nothing. -/
theorem rollback_untouched (env : ReloadEnv) (c : LiveComponent) (p : ReloadPlan)
    (candidate : ConfigSnapshot) :
    (rollback env (ReloadTransaction.staged c.toReloadState p candidate).undo
      c.toReloadState).state = c.toReloadState := by
  have hregistry : c.registry.setGlobal c.prior.global = c.registry := by
    rw [← c.inForce]
    rfl
  show { c.toReloadState with
    registry := c.registry.setGlobal c.prior.global
    acts := c.acts ++ [] } = c.toReloadState
  rw [hregistry, List.append_nil]

/-- A transaction is staged with the plan of its candidate. -/
theorem prepare_ok {serde : Deserializers} {started rootCancelled : Bool} {s : ReloadState}
    {candidate : ConfigSnapshot} {tx : ReloadTransaction}
    (h : prepareConfigurationApply serde started rootCancelled s candidate = .ok tx) :
    ∃ p, plan serde s.registry.snapshotRunning s.prior.nonInstance candidate.raw = .ok p ∧
      tx = .staged s p candidate := by
  unfold prepareConfigurationApply at h
  by_cases hstarted : started = false
  · rw [if_pos hstarted] at h
    cases h
  rw [if_neg hstarted] at h
  by_cases hcancelled : rootCancelled = true
  · rw [if_pos hcancelled] at h
    cases h
  rw [if_neg hcancelled] at h
  cases hplan : plan serde s.registry.snapshotRunning s.prior.nonInstance candidate.raw with
  | error e =>
      rw [hplan] at h
      cases h
  | ok p =>
      rw [hplan] at h
      exact ⟨p, rfl, (Except.ok.inj h).symm⟩

/-- Whatever becomes of a staged transaction, it leaves a component. -/
theorem settle_live {serde : Deserializers} {c : LiveComponent} {change : ConfigChange}
    {p : ReloadPlan}
    (hplan : plan serde c.registry.snapshotRunning c.prior.nonInstance change.candidate.raw =
      .ok p) :
    Live (settle change c.toReloadState (.staged c.toReloadState p change.candidate)) := by
  unfold settle
  cases hcancelled : change.cancelledAtCommit with
  | true =>
      have hrefused : commit change.env true (.staged c.toReloadState p change.candidate)
          c.toReloadState = ⟨c.toReloadState,
            (ReloadTransaction.staged c.toReloadState p change.candidate).undo,
            .error shuttingDown⟩ := rfl
      rw [hrefused]
      show Live (rollback change.env _ c.toReloadState).state
      rw [rollback_untouched]
      exact ⟨c, rfl⟩
  | false =>
      cases hverdict : (commit change.env false (.staged c.toReloadState p change.candidate)
          c.toReloadState).verdict with
      | ok u =>
          show Live (if Except.isOk _ = true then _ else _)
          rw [hverdict]
          exact commit_live hplan hverdict
      | error e =>
          show Live (if Except.isOk _ = true then _ else _)
          rw [hverdict]
          exact rollback_live hplan hverdict

/-- A change leaves a component, also when it is refused. -/
theorem applyChange_live (serde : Deserializers) {s : ReloadState} (h : Live s)
    (change : ConfigChange) : Live (applyChange serde s change) := by
  obtain ⟨c, rfl⟩ := h
  unfold applyChange
  cases hprepare : prepareConfigurationApply serde change.started change.cancelledAtPrepare
      c.toReloadState change.candidate with
  | error e => exact ⟨c, rfl⟩
  | ok tx =>
      obtain ⟨p, hplan, rfl⟩ := prepare_ok hprepare
      exact settle_live hplan

/-- Any run of changes leaves a component. -/
theorem run_live (serde : Deserializers) {s : ReloadState} (h : Live s)
    (changes : List ConfigChange) : Live (runSteps (applyChange serde) s changes) := by
  induction changes generalizing s with
  | nil => exact h
  | cons change changes ih => exact ih (applyChange_live serde h change)

/-- After any run of changes, the next one commits whole or, when its rollback succeeds, leaves the
generation it found. -/
theorem next_change_whole (serde : Deserializers) (c : LiveComponent)
    (changes : List ConfigChange) {s : ReloadState}
    (hrun : runSteps (applyChange serde) c.toReloadState changes = s) (env : ReloadEnv)
    (candidate : ConfigSnapshot) (p : ReloadPlan)
    (hplan : plan serde s.registry.snapshotRunning s.prior.nonInstance candidate.raw = .ok p) :
    ((commit env false (.staged s p candidate) s).verdict = .ok () →
      Committed serde env candidate p s (commit env false (.staged s p candidate) s).state) ∧
    ∀ e, (commit env false (.staged s p candidate) s).verdict = .error e →
      (rollback env (commit env false (.staged s p candidate) s).undo
        (commit env false (.staged s p candidate) s).state).verdict = .ok () →
      Restored p s (rollback env (commit env false (.staged s p candidate) s).undo
        (commit env false (.staged s p candidate) s).state).state := by
  obtain ⟨after, hafter⟩ := run_live serde ⟨c, rfl⟩ changes
  rw [hrun] at hafter
  subst hafter
  exact ⟨committed_of_ok hplan, fun _ => restored_of_rollback hplan⟩

end EnipAdapter.Analysis
