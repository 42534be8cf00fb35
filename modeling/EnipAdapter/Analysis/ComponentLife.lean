import EnipAdapter.Analysis.ReloadRuns
import EnipAdapter.Analysis.SharedRegistry
import EnipAdapter.Interface.ComponentContract

/-!
# No instance outlives the component

Startup, commit, rollback and shutdown are each a sequence of accesses to the registry. A life is
one after the other, so what holds of any sequence of accesses holds of a life: what ran at some
stage was launched, and what was launched is stopped when nobody holds it any more.
-/

set_option autoImplicit false

namespace EnipAdapter.Analysis

open EnipAdapter.Foundation
open EnipAdapter.Model
open EnipAdapter.Interface

/-! ## Accesses -/

/-- Some accesses lead from one state of the registry to another. -/
def Reaches (t t' : Teardown) : Prop := ∃ steps, t' = runSteps teardownStep t steps

/-- No steps lead nowhere else. -/
theorem Reaches.refl (t : Teardown) : Reaches t t := ⟨[], rfl⟩

/-- One step is a way. -/
theorem Reaches.step (t : Teardown) (step : TeardownStep) : Reaches t (teardownStep t step) :=
  ⟨[step], rfl⟩

/-- Ways compose. -/
theorem Reaches.trans {t t' t'' : Teardown} (h : Reaches t t') (h' : Reaches t' t'') :
    Reaches t t'' := by
  obtain ⟨steps, rfl⟩ := h
  obtain ⟨more, rfl⟩ := h'
  exact ⟨steps ++ more, (List.foldl_append ..).symm⟩

/-- Whatever the way, the account of the hands is kept. -/
theorem Reaches.handsKept {t t' : Teardown} (h : Reaches t t') (ht : HandsKept t) :
    HandsKept t' := by
  obtain ⟨steps, rfl⟩ := h
  exact handsKept_run ht steps

/-- What was launched stays in the record of launches. -/
theorem Reaches.launched {t t' : Teardown} (h : Reaches t t') : t.launched ⊆ t'.launched := by
  obtain ⟨steps, rfl⟩ := h
  exact launched_run t steps

/-- Detaching some ids is detaching them one by one. -/
theorem reaches_detachAll (t : Teardown) (ids : List String) :
    Reaches t
      { t with
        registry := (detachAll t.registry ids).1
        detached := t.detached ++ (detachAll t.registry ids).2 } := by
  induction ids generalizing t with
  | nil =>
      simp only [detachAll, List.append_nil]
      exact Reaches.refl t
  | cons id ids ih =>
      apply (Reaches.step t (.detach id)).trans
      cases hremove : t.registry.remove id with
      | none =>
          simp only [teardownStep, hremove, detachAll]
          exact ih t
      | some p =>
          obtain ⟨rt, registry⟩ := p
          simp only [teardownStep, hremove, detachAll]
          have hrest := ih { t with registry := registry, detached := t.detached ++ [rt] }
          simpa only [List.append_assoc, List.singleton_append] using hrest

/-- Launches put runtimes behind those in the registry. -/
structure Launches (t t' : Teardown) : Prop where
  reaches : Reaches t t'
  detached : t'.detached = t.detached
  drain : t'.drain = t.drain
  acts : t'.acts = t.acts
  made : ∃ more, t'.launched = t.launched ++ more ∧
    t'.registry.devices = t.registry.devices ++ more

/-- Nothing is launched by no launches. -/
theorem Launches.refl (t : Teardown) : Launches t t :=
  ⟨Reaches.refl t, rfl, rfl, rfl, [], (List.append_nil _).symm, (List.append_nil _).symm⟩

/-- One launch and then others. -/
theorem Launches.cons {t t' : Teardown} {cfg : DeviceConfig} {raw : Json}
    {outcome : LaunchOutcome} (h : Launches (teardownStep t (.launch cfg raw outcome)) t') :
    Launches t t' := by
  obtain ⟨hreaches, hdetached, hdrain, hacts, more, hlaunched, hdevices⟩ := h
  have hall := (Reaches.step t (.launch cfg raw outcome)).trans hreaches
  cases outcome with
  | launched tasks =>
      refine ⟨hall, hdetached, hdrain, hacts, ⟨t.launches, cfg, raw, tasks⟩ :: more, ?_, ?_⟩
      · rw [hlaunched]
        exact List.append_assoc ..
      · rw [hdevices]
        exact List.append_assoc ..
  | unknownAdapter e => exact ⟨hall, hdetached, hdrain, hacts, more, hlaunched, hdevices⟩
  | failed e => exact ⟨hall, hdetached, hdrain, hacts, more, hlaunched, hdevices⟩

/-- The launch pass of a commit. -/
theorem launches_launchAll (launcher : ℕ → LaunchRequest → LaunchOutcome)
    (global : GlobalConfig) (snapshot : ConfigSnapshot) (items : List ParsedInstance)
    (pass : LaunchPass) (t : Teardown) (hregistry : t.registry = pass.registry)
    (hlaunches : t.launches = pass.launches) :
    ∃ t', Launches t t' ∧
      t'.registry = (launchAll launcher global snapshot pass items).1.registry ∧
      t'.launches = (launchAll launcher global snapshot pass items).1.launches := by
  induction items generalizing pass t with
  | nil => exact ⟨t, Launches.refl t, hregistry, hlaunches⟩
  | cons item rest ih =>
      obtain ⟨cfg, raw⟩ := item
      cases houtcome : launcher pass.launches ⟨cfg, raw, global, snapshot⟩ with
      | launched tasks =>
          simp only [launchAll, houtcome]
          obtain ⟨t', hrest, hend⟩ := ih
            { pass with
              registry := pass.registry.insert ⟨pass.launches, cfg, raw, tasks⟩
              launched := pass.launched ++ [cfg.id]
              launches := pass.launches + 1 }
            (teardownStep t (.launch cfg raw (.launched tasks)))
            (by rw [← hregistry, ← hlaunches]; rfl) (by rw [← hlaunches]; rfl)
          exact ⟨t', hrest.cons, hend⟩
      | unknownAdapter e =>
          simp only [launchAll, houtcome]
          obtain ⟨t', hrest, hend⟩ := ih
            { pass with
              skipped := pass.skipped ++ [(cfg.id, e)]
              launches := pass.launches + 1 }
            (teardownStep t (.launch cfg raw (.unknownAdapter e)))
            hregistry (by rw [← hlaunches]; rfl)
          exact ⟨t', hrest.cons, hend⟩
      | failed e =>
          simp only [launchAll, houtcome]
          refine ⟨teardownStep t (.launch cfg raw (.failed e)), (Launches.refl _).cons, hregistry,
            ?_⟩
          rw [← hlaunches]
          rfl

/-- The launches of a rollback. -/
theorem launches_relaunchAll (launcher : ℕ → LaunchRequest → LaunchOutcome)
    (prior : PriorGeneration) (items : List ParsedInstance) (t : Teardown) :
    ∃ t', Launches t t' ∧
      t'.registry = (relaunchAll launcher prior t.registry t.launches items).1 ∧
      t'.launches = (relaunchAll launcher prior t.registry t.launches items).2.1 := by
  induction items generalizing t with
  | nil => exact ⟨t, Launches.refl t, rfl, rfl⟩
  | cons item rest ih =>
      obtain ⟨cfg, raw⟩ := item
      cases houtcome : launcher t.launches ⟨cfg, raw, prior.global, prior.snapshot⟩ with
      | launched tasks =>
          simp only [relaunchAll, houtcome]
          obtain ⟨t', hrest, hend⟩ := ih (teardownStep t (.launch cfg raw (.launched tasks)))
          exact ⟨t', hrest.cons, hend⟩
      | unknownAdapter e =>
          simp only [relaunchAll, houtcome]
          obtain ⟨t', hrest, hend⟩ := ih (teardownStep t (.launch cfg raw (.unknownAdapter e)))
          exact ⟨t', hrest.cons, hend⟩
      | failed e =>
          simp only [relaunchAll, houtcome]
          obtain ⟨t', hrest, hend⟩ := ih (teardownStep t (.launch cfg raw (.failed e)))
          exact ⟨t', hrest.cons, hend⟩

/-- The launch pass of a start. -/
theorem launches_launchEach (launcher : ℕ → LaunchRequest → LaunchOutcome)
    (global : GlobalConfig) (snapshot : ConfigSnapshot) (items : List ParsedInstance)
    (t : Teardown) :
    ∃ t', Launches t t' ∧
      t'.registry = (launchEach launcher global snapshot t.launches items).launched.foldl
        DeviceRegistry.insert t.registry ∧
      t'.launches = (launchEach launcher global snapshot t.launches items).launches := by
  induction items generalizing t with
  | nil => exact ⟨t, Launches.refl t, rfl, rfl⟩
  | cons item rest ih =>
      obtain ⟨cfg, raw⟩ := item
      cases houtcome : launcher t.launches ⟨cfg, raw, global, snapshot⟩ with
      | launched tasks =>
          simp only [launchEach, houtcome]
          obtain ⟨t', hrest, hend⟩ := ih (teardownStep t (.launch cfg raw (.launched tasks)))
          exact ⟨t', hrest.cons, hend⟩
      | unknownAdapter e =>
          simp only [launchEach, houtcome]
          obtain ⟨t', hrest, hend⟩ := ih (teardownStep t (.launch cfg raw (.unknownAdapter e)))
          exact ⟨t', hrest.cons, hend⟩
      | failed e =>
          simp only [launchEach, houtcome]
          exact ⟨teardownStep t (.launch cfg raw (.failed e)), (Launches.refl _).cons, rfl, rfl⟩

/-- What a start launches is among the instances it was given. -/
theorem launchEach_sublist (launcher : ℕ → LaunchRequest → LaunchOutcome)
    (global : GlobalConfig) (snapshot : ConfigSnapshot) (n : ℕ) (items : List ParsedInstance) :
    ((launchEach launcher global snapshot n items).launched.map
      fun rt => (rt.cfg, rt.raw)).Sublist items := by
  induction items generalizing n with
  | nil => exact List.Sublist.refl []
  | cons item rest ih =>
      obtain ⟨cfg, raw⟩ := item
      unfold launchEach
      cases launcher n ⟨cfg, raw, global, snapshot⟩ with
      | launched tasks => exact (ih (n + 1)).cons_cons _
      | unknownAdapter e => exact (ih (n + 1)).cons _
      | failed e => exact List.nil_sublist _

/-! ## Stages -/

/-- The stop engine's part of two runs is that of the one and then that of the other. -/
theorem stopsOf_append (a b : List ReloadAct) : stopsOf (a ++ b) = stopsOf a ++ stopsOf b :=
  List.filterMap_append ..

/-- The stop engine's own acts are all its part. -/
theorem stopsOf_stop (acts : List StopAct) : stopsOf (acts.map .stop) = acts := by
  unfold stopsOf
  rw [List.filterMap_map]
  exact List.filterMap_some ..

/-- Notices are no part of it. -/
theorem stopsOf_notify {α : Type} (items : List α) (takes : α → Option Duration)
    (notice : α → Notice) :
    stopsOf (items.map fun item => notify (takes item) (notice item)) = [] := by
  unfold stopsOf
  rw [List.filterMap_map]
  exact List.filterMap_none ..

/-- The state of the component, with nothing in either side's hands. -/
structure Mirrors (s : ReloadState) (t : Teardown) : Prop where
  registry : t.registry = s.registry
  launches : t.launches = s.launches
  detached : t.detached = []
  drain : t.drain = .idle
  acts : t.acts = stopsOf s.acts

/-- Some accesses lead to a stage, and what they launched is in it. -/
structure LeadsTo (t t' : Teardown) (s : ReloadState) : Prop where
  reaches : Reaches t t'
  mirrors : Mirrors s t'
  fresh : ∀ rt ∈ t'.launched, rt ∈ t.launched ∨ rt ∈ s.registry.devices

/-- A state that is mirrored is its own outcome. -/
theorem LeadsTo.refl {t : Teardown} {s : ReloadState} (h : Mirrors s t) : LeadsTo t t s :=
  ⟨Reaches.refl t, h, fun _ hrt => .inl hrt⟩

/-- A stop stage: some instances are detached and stopped, and a global is put in force. -/
def stopStage (t : Teardown) (ids : List String) (takes : ℕ → ℕ → Option Duration)
    (budget : Duration) (global : GlobalConfig) : Teardown :=
  { t with
    registry := (detachAll t.registry ids).1.setGlobal global
    detached := []
    acts := t.acts ++ stopRuntimes takes budget (detachAll t.registry ids).2 }

/-- The stop stage of a commit is a way of the coordinator. -/
theorem reaches_stopStage {t : Teardown} (h : t.detached = []) (ids : List String)
    (takes : ℕ → ℕ → Option Duration) (budget : Duration) (global : GlobalConfig) :
    Reaches t (stopStage t ids takes budget global) := by
  have hdetach := reaches_detachAll t ids
  rw [h, List.nil_append] at hdetach
  exact (hdetach.trans (Reaches.step _ (.stopDetached takes budget))).trans
    (Reaches.step _ (.setGlobal global))

/-- Launches from a state whose hands are empty lead to a stage. -/
theorem leadsTo_of_launches {t mid t' : Teardown} {s : ReloadState} (hmid : Reaches t mid)
    (hlaunched : mid.launched = t.launched) (h : Launches mid t') (hdetached : mid.detached = [])
    (hdrain : mid.drain = .idle) (hregistry : t'.registry = s.registry)
    (hlaunches : t'.launches = s.launches) (hacts : mid.acts = stopsOf s.acts) :
    LeadsTo t t' s := by
  refine ⟨hmid.trans h.reaches, ⟨hregistry, hlaunches, h.detached.trans hdetached,
    h.drain.trans hdrain, h.acts.trans hacts⟩, ?_⟩
  intro rt hrt
  obtain ⟨more, hmore, hdevices⟩ := h.made
  rw [hmore, hlaunched] at hrt
  obtain hold | hnew := List.mem_append.mp hrt
  · exact .inl hold
  · rw [← hregistry, hdevices]
    exact .inr (List.mem_append_right _ hnew)

/-- A commit is a way of the coordinator, whatever its verdict. -/
theorem commit_leadsTo {s : ReloadState} {t : Teardown} (h : Mirrors s t) (env : ReloadEnv)
    (cancelled : Bool) (tx : ReloadTransaction) :
    ∃ t', LeadsTo t t' (commit env cancelled tx s).state := by
  cases cancelled with
  | true => exact ⟨t, LeadsTo.refl h⟩
  | false =>
      obtain ⟨⟨registry, stopping⟩, hdetach⟩ :
        ∃ p, detachAll s.registry tx.plan.stop = p := ⟨_, rfl⟩
      obtain ⟨⟨pass, verdict⟩, hpass⟩ :
        ∃ p, launchAll env.launcher tx.plan.global tx.snapshot
          { registry := registry.setGlobal tx.plan.global
            skipped := tx.plan.skipped
            launches := s.launches } tx.plan.start = p := ⟨_, rfl⟩
      let budget := stopBudget s.registry.global.timeouts
      let mid := stopStage t tx.plan.stop env.taskTakes budget tx.plan.global
      have hmid : mid.registry = registry.setGlobal tx.plan.global ∧
          mid.acts = stopsOf s.acts ++ stopRuntimes env.taskTakes budget stopping := by
        simp only [mid, stopStage, h.registry, h.acts, hdetach]
        exact ⟨trivial, trivial⟩
      obtain ⟨t', hlaunch, hregistry, hlaunches⟩ := launches_launchAll env.launcher tx.plan.global
        tx.snapshot tx.plan.start
        { registry := registry.setGlobal tx.plan.global
          skipped := tx.plan.skipped
          launches := s.launches } mid hmid.1 h.launches
      rw [hpass] at hregistry hlaunches
      -- what is published and told does not touch the registry
      have hstate : (commit env false tx s).state.registry = pass.registry ∧
          (commit env false tx s).state.launches = pass.launches ∧
          stopsOf (commit env false tx s).state.acts =
            stopsOf s.acts ++ stopRuntimes env.taskTakes budget stopping := by
        simp only [commit, hdetach, hpass, Bool.false_eq_true, if_false]
        cases verdict with
        | error e =>
            refine ⟨rfl, rfl, ?_⟩
            simp only [stopsOf_append, stopsOf_stop, stopsOf_notify, List.append_nil]
            rfl
        | ok u =>
            cases hempty : pass.registry.isEmpty with
            | true =>
                refine ⟨rfl, rfl, ?_⟩
                simp only [if_true, stopsOf_append, stopsOf_stop, stopsOf_notify, List.append_nil]
                rfl
            | false =>
                refine ⟨rfl, rfl, ?_⟩
                simp only [Bool.false_eq_true, if_false, stopsOf_append, stopsOf_stop,
                  stopsOf_notify, List.append_nil]
                exact List.append_nil _
      refine ⟨t', leadsTo_of_launches (reaches_stopStage h.detached _ _ _ _) rfl hlaunch rfl
        h.drain ?_ ?_ ?_⟩
      · rw [hregistry, hstate.1]
      · rw [hlaunches, hstate.2.1]
      · rw [hmid.2, hstate.2.2]

/-- So is a rollback. -/
theorem rollback_leadsTo {s : ReloadState} {t : Teardown} (h : Mirrors s t) (env : ReloadEnv)
    (undo : UndoState) : ∃ t', LeadsTo t t' (rollback env undo s).state := by
  let budget := stopBudget undo.prior.global.timeouts
  let mid := stopStage t undo.launched env.taskTakes budget undo.prior.global
  obtain ⟨t', hlaunch, hregistry, hlaunches⟩ :=
    launches_relaunchAll env.launcher undo.prior undo.stopped mid
  have hstart : mid.registry =
      (detachAll s.registry undo.launched).1.setGlobal undo.prior.global ∧
      mid.launches = s.launches ∧
      mid.acts = stopsOf s.acts ++
        stopRuntimes env.taskTakes budget (detachAll s.registry undo.launched).2 := by
    simp only [mid, stopStage, h.registry, h.launches, h.acts]
    exact ⟨trivial, trivial, trivial⟩
  rw [hstart.1, hstart.2.1] at hregistry hlaunches
  refine ⟨t', leadsTo_of_launches (reaches_stopStage h.detached _ _ _ _) rfl hlaunch rfl h.drain
    hregistry hlaunches ?_⟩
  rw [hstart.2.2]
  simp only [rollback, stopsOf_append, stopsOf_stop]
  rfl

/-- A transaction is settled by its commit, or by the rollback behind it. -/
theorem settle_leadsTo {s : ReloadState} {t : Teardown} (h : Mirrors s t) (change : ConfigChange)
    (tx : ReloadTransaction) :
    ∃ mid t', LeadsTo t mid (commit change.env change.cancelledAtCommit tx s).state ∧
      LeadsTo mid t' (settle change s tx) := by
  obtain ⟨mid, hmid⟩ := commit_leadsTo h change.env change.cancelledAtCommit tx
  unfold settle
  by_cases hok : (commit change.env change.cancelledAtCommit tx s).verdict.isOk = true
  · simp only [hok, if_true]
    exact ⟨mid, mid, hmid, LeadsTo.refl hmid.mirrors⟩
  · simp only [hok]
    obtain ⟨t', ht'⟩ := rollback_leadsTo hmid.mirrors change.env
      (commit change.env change.cancelledAtCommit tx s).undo
    exact ⟨mid, t', hmid, ht'⟩

/-- The stages from one state on: each is met on the way, and what was launched is in one. -/
structure Passes (t t' : Teardown) (stages : List ReloadState) (last : ReloadState) : Prop where
  reaches : Reaches t t'
  mirrors : Mirrors last t'
  met : ∀ s ∈ stages, ∃ mid, Mirrors s mid ∧ Reaches t mid ∧ Reaches mid t'
  fresh : ∀ rt ∈ t'.launched, rt ∈ t.launched ∨ ∃ s ∈ stages, rt ∈ s.registry.devices

/-- The stages of a change, from the state it finds. -/
theorem change_passes (serde : Deserializers) {s : ReloadState} {t : Teardown} (h : Mirrors s t)
    (change : ConfigChange) :
    ∃ t', Passes t t' (changeStages serde s change) (applyChange serde s change) := by
  unfold changeStages applyChange
  cases prepareConfigurationApply serde change.started change.cancelledAtPrepare s
      change.candidate with
  | error e =>
      refine ⟨t, Reaches.refl t, h, ?_, fun _ hrt => .inl hrt⟩
      intro stage hstage
      cases hstage
  | ok tx =>
      obtain ⟨mid, t', hcommit, hsettle⟩ := settle_leadsTo h change tx
      refine ⟨t', hcommit.reaches.trans hsettle.reaches, hsettle.mirrors, ?_, ?_⟩
      · intro stage hstage
        obtain rfl | hlast := List.mem_cons.mp hstage
        · exact ⟨mid, hcommit.mirrors, hcommit.reaches, hsettle.reaches⟩
        · rw [List.mem_singleton.mp hlast]
          exact ⟨t', hsettle.mirrors, hcommit.reaches.trans hsettle.reaches, Reaches.refl t'⟩
      · intro rt hrt
        obtain hmid | hlast := hsettle.fresh rt hrt
        · obtain hold | hnew := hcommit.fresh rt hmid
          · exact .inl hold
          · exact .inr ⟨_, List.mem_cons_self, hnew⟩
        · exact .inr ⟨_, List.mem_cons_of_mem _ List.mem_cons_self, hlast⟩

/-- The stages of a component that serves. -/
theorem serving_passes (serde : Deserializers) {s : ReloadState} {t : Teardown} (h : Mirrors s t)
    (changes : List ConfigChange) :
    ∃ t', Passes t t' (servingStages serde s changes)
      (runSteps (applyChange serde) s changes) := by
  induction changes generalizing s t with
  | nil =>
      refine ⟨t, Reaches.refl t, h, ?_, fun _ hrt => .inl hrt⟩
      intro stage hstage
      rw [List.mem_singleton.mp hstage]
      exact ⟨t, h, Reaches.refl t, Reaches.refl t⟩
  | cons change changes ih =>
      obtain ⟨mid, hchange⟩ := change_passes serde h change
      obtain ⟨t', hrest⟩ := ih hchange.mirrors
      refine ⟨t', hchange.reaches.trans hrest.reaches, hrest.mirrors, ?_, ?_⟩
      · intro stage hstage
        obtain rfl | hlater := List.mem_cons.mp hstage
        · exact ⟨t, h, Reaches.refl t, hchange.reaches.trans hrest.reaches⟩
        · obtain hfirst | hlater := List.mem_append.mp hlater
          · obtain ⟨at_, hmirrors, hbefore, hbehind⟩ := hchange.met stage hfirst
            exact ⟨at_, hmirrors, hbefore, hbehind.trans hrest.reaches⟩
          · obtain ⟨at_, hmirrors, hbefore, hbehind⟩ := hrest.met stage hlater
            exact ⟨at_, hmirrors, hchange.reaches.trans hbefore, hbehind⟩
      · intro rt hrt
        obtain hmid | ⟨stage, hstage, hin⟩ := hrest.fresh rt hrt
        · obtain hold | ⟨stage, hstage, hin⟩ := hchange.fresh rt hmid
          · exact .inl hold
          · exact .inr ⟨stage, List.mem_cons_of_mem _ (List.mem_append_left _ hstage), hin⟩
        · exact .inr ⟨stage, List.mem_cons_of_mem _ (List.mem_append_right _ hstage), hin⟩

/-! ## Start and end -/

/-- The registry as the first access finds it. -/
def emptyTeardown (app : App) : Teardown := { registry := { global := app.global } }

/-- What a start did besides launching is telling clients about repoll. -/
theorem startInstances_state (env : ReloadEnv) (inbox : Option CommandInbox) (app : App)
    (s : ReloadState) :
    (startInstances env inbox app s).1.registry =
        (launchEach env.launcher app.global app.config s.launches app.devices).launched.foldl
          DeviceRegistry.insert s.registry ∧
      (startInstances env inbox app s).1.launches =
        (launchEach env.launcher app.global app.config s.launches app.devices).launches ∧
      stopsOf (startInstances env inbox app s).1.acts = stopsOf s.acts ∧
      (startInstances env inbox app s).1.prior = s.prior := by
  have hpass : (launchStartupSet env.launcher app.global app.config s.launches
        app.devices).launched =
        (launchEach env.launcher app.global app.config s.launches app.devices).launched ∧
      (launchStartupSet env.launcher app.global app.config s.launches app.devices).launches =
        (launchEach env.launcher app.global app.config s.launches app.devices).launches := by
    simp only [launchStartupSet]
    split_ifs <;> exact ⟨rfl, rfl⟩
  rw [← hpass.1, ← hpass.2]
  obtain ⟨⟨launched, skipped, fatal, launches⟩, hout⟩ :
    ∃ out, launchStartupSet env.launcher app.global app.config s.launches app.devices = out :=
      ⟨_, rfl⟩
  simp only [startInstances, hout]
  cases fatal with
  | some e => exact ⟨rfl, rfl, rfl, rfl⟩
  | none =>
      cases inbox with
      | none => exact ⟨rfl, rfl, rfl, rfl⟩
      | some inbox =>
          obtain ⟨verbs, availability, panels⟩ := inbox
          cases verbs with
          | error e => exact ⟨rfl, rfl, rfl, rfl⟩
          | ok u =>
              cases availability with
              | error e => exact ⟨rfl, rfl, rfl, rfl⟩
              | ok v =>
                  refine ⟨rfl, rfl, ?_, rfl⟩
                  exact (stopsOf_append ..).trans (List.append_nil _)

/-- So is a start, from the empty registry. -/
theorem start_leadsTo (app : App) (life : Life) :
    ∃ t, LeadsTo (emptyTeardown app) t (Life.started app life).1 := by
  obtain ⟨t, hlaunch, hregistry, hlaunches⟩ := launches_launchEach life.env.launcher app.global
    app.config app.devices (emptyTeardown app)
  obtain ⟨hstart, hcount, hacts, -⟩ := startInstances_state life.env life.inbox app app.initial
  refine ⟨t, leadsTo_of_launches (Reaches.refl _) rfl hlaunch rfl rfl ?_ ?_ hacts.symm⟩
  · rw [hregistry]
    exact hstart.symm
  · rw [hlaunches]
    exact hcount.symm

/-- The shutdown cancels the root, takes all there is, stops it, and finds nothing more. -/
theorem shutdown_reaches {s : ReloadState} {t : Teardown} (h : Mirrors s t)
    (takes : ℕ → ℕ → Option Duration) (budget : Duration) :
    ∃ t', Reaches t t' ∧ Teardown.held t' = [] ∧ t'.launched = t.launched ∧
      t'.acts = stopsOf (shutdownAll takes budget s).acts ∧
      (shutdownAll takes budget s).registry.devices = [] := by
  obtain ⟨registry, launches, detached, drain, acts, launched⟩ := t
  obtain ⟨hregistry, -, hdetached, hdrain, hacts⟩ := h
  cases hdetached
  cases hdrain
  cases hregistry
  cases hacts
  cases hdevices : s.registry.devices with
  | nil =>
      have hsame : shutdownAll takes budget s = s := by
        simp only [shutdownAll, DeviceRegistry.takeAll, hdevices, List.isEmpty_nil, if_true]
      rw [hsame]
      refine ⟨_, Reaches.step _ .cancelRoot, ?_, rfl, rfl, hdevices⟩
      simp [Teardown.held, teardownStep, hdevices, Drain.taken]
  | cons rt rest =>
      have hstop : shutdownAll takes budget s =
          { s with
            registry := { s.registry with devices := [] }
            acts := s.acts ++ (stopRuntimes takes budget s.registry.devices).map .stop } := by
        simp only [shutdownAll, DeviceRegistry.takeAll, hdevices, List.isEmpty_cons,
          Bool.false_eq_true, if_false]
      rw [hstop]
      refine ⟨_, ⟨[.cancelRoot, .takeAll, .stopTaken takes budget], rfl⟩, ?_, ?_, ?_, rfl⟩
      · simp [runSteps, Teardown.held, teardownStep, DeviceRegistry.takeAll, hdevices, Drain.taken]
      · simp [runSteps, teardownStep, DeviceRegistry.takeAll, hdevices]
      · simp only [runSteps, List.foldl_cons, List.foldl_nil, teardownStep,
          DeviceRegistry.takeAll, hdevices, List.isEmpty_cons, Bool.false_eq_true, if_false,
          stopsOf_append, stopsOf_stop]
        rfl

/-- The devices of a component are the valid instances of its document. -/
theorem devices_of_new {serde : Deserializers} {config : ConfigSnapshot} {app : App}
    (h : App.new serde config = .ok app) :
    app.devices = (parseInstances serde config.raw).1 := by
  simp only [App.new] at h
  cases hglobal : GlobalConfig.fromValue serde
      (((config.raw.get "component").bind (·.get "global")).getD .null) with
  | error e =>
      rw [hglobal] at h
      cases h
  | ok global =>
      rw [hglobal] at h
      simp only at h
      split_ifs at h
      cases h
      rfl

/-- Insertions put runtimes behind those in the registry. -/
theorem foldl_insert (rts : List DeviceRuntime) (r : DeviceRegistry) :
    rts.foldl DeviceRegistry.insert r = { r with devices := r.devices ++ rts } := by
  induction rts generalizing r with
  | nil =>
      rw [List.append_nil]
      rfl
  | cons rt rts ih =>
      rw [List.foldl_cons, ih]
      exact congrArg (DeviceRegistry.mk · r.global) (List.append_assoc ..)

/-- What a start leaves is a component between two changes. -/
theorem live_of_start {serde : Deserializers} {config : ConfigSnapshot} {app : App}
    (happ : App.new serde config = .ok app) (life : Life) : Live (Life.started app life).1 := by
  obtain ⟨t, hlead⟩ := start_leadsTo app life
  have haccount : HandsKept t := hlead.reaches.handsKept (handsKept_start app.global)
  obtain ⟨hobjects, hmade, -, stopped, hperm, -, -⟩ := haccount
  have hheld : Teardown.held t = (Life.started app life).1.registry.devices := by
    simp only [Teardown.held, hlead.mirrors.registry, hlead.mirrors.detached, hlead.mirrors.drain,
      Drain.taken, List.append_nil]
  rw [hheld] at hperm
  have hdevices := devices_of_new happ
  obtain ⟨hregistry, -, -, hprior⟩ :=
    startInstances_state life.env life.inbox app app.initial
  rw [foldl_insert] at hregistry
  have hlaunched := launchEach_sublist life.env.launcher app.global app.config 0 app.devices
  refine ⟨⟨(Life.started app life).1, ?_, ?_, ?_, ?_⟩, rfl⟩
  · unfold DeviceRegistry.ids Life.started
    rw [hregistry]
    have hsub := hlaunched.map fun item : ParsedInstance => item.1.id
    rw [List.map_map] at hsub
    have hids := validIds_nodup serde config.raw
    rw [← hdevices] at hids
    exact hids.sublist hsub
  · unfold Life.started
    rw [hregistry, hprior]
    rfl
  · have hdistinct := (hperm.map DeviceRuntime.object).nodup_iff.mp hobjects
    rw [List.map_append] at hdistinct
    exact hdistinct.of_append_left
  · intro rt hrt
    have hbound := hmade rt (hperm.mem_iff.mpr (List.mem_append_left _ hrt))
    rw [hlead.mirrors.launches] at hbound
    exact hbound

/-! ## The contract -/

/-- What a component passes on its way to the end, and what its last stage is. -/
theorem life_passes (serde : Deserializers) (app : App) (life : Life) :
    ∃ t last, Passes (emptyTeardown app) t (Life.stages serde app life) last ∧
      Life.over serde app life =
        shutdownAll life.env.taskTakes (stopBudget app.global.timeouts) last := by
  obtain ⟨t, hlead⟩ := start_leadsTo app life
  unfold Life.stages Life.over App.run
  unfold Life.started at hlead ⊢
  obtain ⟨⟨s, outcome⟩, hstart⟩ :
    ∃ p, startInstances life.env life.inbox app app.initial = p := ⟨_, rfl⟩
  simp only [hstart] at hlead ⊢
  cases outcome with
  | error e =>
      refine ⟨t, s, ⟨hlead.reaches, hlead.mirrors, ?_, ?_⟩, rfl⟩
      · intro stage hstage
        rw [List.mem_singleton.mp hstage]
        exact ⟨t, hlead.mirrors, hlead.reaches, Reaches.refl t⟩
      · intro rt hrt
        obtain hold | hnew := hlead.fresh rt hrt
        · exact .inl hold
        · exact .inr ⟨s, List.mem_singleton_self s, hnew⟩
  | ok u =>
      obtain ⟨t', hserve⟩ := serving_passes serde hlead.mirrors life.changes
      refine ⟨t', _, ⟨hlead.reaches.trans hserve.reaches, hserve.mirrors, ?_, ?_⟩, rfl⟩
      · intro stage hstage
        obtain ⟨mid, hmirrors, hbefore, hbehind⟩ := hserve.met stage hstage
        exact ⟨mid, hmirrors, hlead.reaches.trans hbefore, hbehind⟩
      · intro rt hrt
        obtain hmid | hlater := hserve.fresh rt hrt
        · obtain hold | hnew := hlead.fresh rt hmid
          · exact .inl hold
          · refine .inr ⟨s, ?_, hnew⟩
            cases life.changes with
            | nil => exact List.mem_singleton_self s
            | cons change changes => exact List.mem_cons_self
        · exact .inr hlater

/-- The life of a component that a document makes leaks no instance. -/
theorem no_instance_leaked (serde : Deserializers) (config : ConfigSnapshot) (app : App)
    (life : Life) (happ : App.new serde config = .ok app) : ComponentLife serde app life := by
  obtain ⟨t, last, hpasses, hover⟩ := life_passes serde app life
  obtain ⟨tend, hreaches, hheld, hlaunched, hacts, hdevices⟩ := shutdown_reaches hpasses.mirrors
    life.env.taskTakes (stopBudget app.global.timeouts)
  rw [← hover] at hacts hdevices
  have hstart : HandsKept (emptyTeardown app) := handsKept_start app.global
  have haccount : HandsKept tend := (hpasses.reaches.trans hreaches).handsKept hstart
  -- a runtime of a stage is held there, so it was launched by then and nobody touched it
  have hmet : ∀ s ∈ Life.stages serde app life, ∀ rt ∈ s.registry.devices,
      actsOn rt.object (stopsOf s.acts) = [] ∧ rt ∈ tend.launched := by
    intro s hs rt hrt
    obtain ⟨mid, hmirrors, hbefore, hbehind⟩ := hpasses.met s hs
    obtain ⟨-, -, -, stopped, hperm, huntouched, -⟩ := hbefore.handsKept hstart
    have hin : rt ∈ Teardown.held mid := by
      unfold Teardown.held
      rw [hmirrors.registry]
      exact List.mem_append_left _ (List.mem_append_left _ hrt)
    rw [← hmirrors.acts]
    exact ⟨huntouched rt hin, (hbehind.trans hreaches).launched
      (hperm.mem_iff.mpr (List.mem_append_left _ hin))⟩
  refine ⟨?_, fun s hs rt hrt => (hmet s hs rt hrt).1, ?_, ?_, hdevices⟩
  · intro n _
    obtain ⟨c, hc⟩ := run_live serde (live_of_start happ life) (life.changes.take n)
    rw [← hc]
    exact c.distinct
  · intro s hs rt hrt
    rw [← hacts]
    obtain ⟨hin, -⟩ | ⟨-, honce⟩ := owned_of_handsKept haccount rt (hmet s hs rt hrt).2
    · rw [hheld] at hin
      cases hin
    · exact honce
  · intro act hact
    rw [← hacts] at hact
    obtain ⟨rt, hrt, hobject⟩ := haccount.strangers act hact
    rw [hlaunched] at hrt
    obtain hnone | ⟨s, hs, hin⟩ := hpasses.fresh rt hrt
    · cases hnone
    · exact ⟨s, hs, rt, hin, hobject⟩

/-- The component that a document of one polled device makes. -/
def polledApp : App where
  config := polledDocument [("plc-1", "sim")]
  global := {}
  devices := (parseInstances polledSerde (polledDocument [("plc-1", "sim")]).raw).1

/-- A second device is added, and then the first one goes. -/
def growingLife : Life where
  env := { launcher := adapterLauncher }
  inbox := none
  changes := [
    { env := { launcher := adapterLauncher }
      candidate := polledDocument [("plc-1", "sim"), ("plc-2", "sim")] },
    { env := { launcher := adapterLauncher }
      candidate := polledDocument [("plc-2", "sim")] }]

/-- The first device ran at the start and the second one at the end, and neither was leaked. -/
theorem no_instance_leaked_growing :
    ((Life.started polledApp growingLife).1.registry.ids = ["plc-1"] ∧
      (runSteps (applyChange polledSerde) (Life.started polledApp growingLife).1
        growingLife.changes).registry.ids = ["plc-2"]) ∧
      ComponentLife polledSerde polledApp growingLife :=
  ⟨⟨rfl, rfl⟩, no_instance_leaked polledSerde (polledDocument [("plc-1", "sim")]) polledApp
    growingLife rfl⟩

end EnipAdapter.Analysis
