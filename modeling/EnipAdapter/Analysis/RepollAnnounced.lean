import EnipAdapter.Analysis.ComponentLife
import EnipAdapter.Foundation.AssocList

/-!
# Clients know whether a repoll can be served

The registration of the verbs and every commit tell what is running; a refused candidate tells
nothing and changes nothing, and neither does one that is rolled back whole, since the instances
run again with the configurations from before.
-/

set_option autoImplicit false

namespace EnipAdapter.Analysis

open EnipAdapter.Foundation
open EnipAdapter.Model
open EnipAdapter.Interface

/-! ## What was told last -/

/-- Acts that tell nothing leave what was told last. -/
theorem announced_append {a b : List ReloadAct} (h : ∀ act ∈ b, tells act = none) :
    announced (a ++ b) = announced a := by
  unfold announced
  rw [List.filterMap_append, List.filterMap_eq_nil_iff.mpr h, List.append_nil]

/-- What is told and taken was told last, until something else is. -/
theorem announced_told (a : List ReloadAct) (allPush : Bool) {b : List ReloadAct}
    (h : ∀ act ∈ b, tells act = none) :
    announced (a ++ .repollAvailability allPush true :: b) = some allPush := by
  rw [← List.singleton_append, ← List.append_assoc, announced_append h]
  unfold announced
  rw [List.filterMap_append]
  exact List.getLast?_concat ..

/-- The stop engine tells clients nothing. -/
theorem silent_stop (acts : List StopAct) : ∀ act ∈ acts.map ReloadAct.stop, tells act = none := by
  intro act hact
  obtain ⟨stop, -, rfl⟩ := List.mem_map.mp hact
  rfl

/-- A commit that succeeds tells what is running where the inbox takes it, and one that fails tells
nothing. -/
theorem commit_announced (env : ReloadEnv) (htaken : env.takesAvailability = true)
    (cancelled : Bool) (tx : ReloadTransaction) (s : ReloadState) :
    ((commit env cancelled tx s).verdict = .ok () →
      announced (commit env cancelled tx s).state.acts =
        some (commit env cancelled tx s).state.registry.allPush) ∧
    ∀ e, (commit env cancelled tx s).verdict = .error e →
      announced (commit env cancelled tx s).state.acts = announced s.acts := by
  cases cancelled with
  | true =>
      refine ⟨?_, fun _ _ => rfl⟩
      intro hok
      cases hok
  | false =>
      obtain ⟨⟨registry, stopping⟩, hdetach⟩ :
        ∃ p, detachAll s.registry tx.plan.stop = p := ⟨_, rfl⟩
      obtain ⟨⟨pass, verdict⟩, hpass⟩ :
        ∃ p, launchAll env.launcher tx.plan.global tx.snapshot
          { registry := registry.setGlobal tx.plan.global
            skipped := tx.plan.skipped
            launches := s.launches } tx.plan.start = p := ⟨_, rfl⟩
      have hcleared : ∀ act ∈ (clearing tx.plan.removed stopping).map fun rt =>
          notify (env.sinkTakes rt.object) (.clearUnreachable rt.object), tells act = none := by
        intro act hact
        obtain ⟨rt, -, rfl⟩ := List.mem_map.mp hact
        rfl
      simp only [commit, hdetach, hpass, Bool.false_eq_true, if_false]
      cases verdict with
      | error e =>
          refine ⟨?_, fun _ _ => ?_⟩
          · intro hok
            cases hok
          · rw [announced_append hcleared, announced_append (silent_stop _)]
      | ok u =>
          cases hempty : pass.registry.isEmpty with
          | true =>
              simp only [if_true]
              refine ⟨?_, fun _ _ => ?_⟩
              · intro hok
                cases hok
              · rw [announced_append hcleared, announced_append (silent_stop _)]
          | false =>
              simp only [Bool.false_eq_true, if_false]
              refine ⟨fun _ => ?_, ?_⟩
              · unfold setRepollAvailability
                rw [htaken]
                apply announced_told
                intro act hact
                rw [List.mem_singleton.mp hact]
                rfl
              · intro e herror
                cases herror

/-- Neither does a rollback. -/
theorem rollback_announced (env : ReloadEnv) (undo : UndoState) (s : ReloadState) :
    announced (rollback env undo s).state.acts = announced s.acts :=
  announced_append (silent_stop _)

/-! ## The same configurations -/

/-- All instances are push exactly when some run, and every one that runs is. -/
theorem allPush_iff {r : DeviceRegistry} (hids : r.ids.Nodup) :
    r.allPush = true ↔ (∃ id, configOf r id ≠ none) ∧
      ∀ id item, configOf r id = some item → item.1.mode = .push := by
  have hfind : ∀ rt ∈ r.devices, configOf r rt.id = some (rt.cfg, rt.raw) := by
    intro rt hrt
    have hkey : (r.devices.map fun rt => rt.id).Nodup := hids
    unfold configOf
    rw [find_of_nodup hkey hrt]
    rfl
  have hmem : ∀ id item, configOf r id = some item →
      ∃ rt ∈ r.devices, item = (rt.cfg, rt.raw) := by
    intro id item hitem
    obtain ⟨rt, hrt, rfl⟩ := Option.map_eq_some_iff.mp hitem
    exact ⟨rt, List.mem_of_find?_eq_some hrt, rfl⟩
  simp only [DeviceRegistry.allPush, Bool.and_eq_true, Bool.not_eq_true', List.all_eq_true,
    beq_iff_eq]
  constructor
  · rintro ⟨hsome, hall⟩
    obtain ⟨rt, hrt⟩ := List.exists_mem_of_ne_nil r.devices (by
      rintro hnil
      rw [hnil] at hsome
      cases hsome)
    refine ⟨⟨rt.id, by rw [hfind rt hrt]; exact Option.some_ne_none _⟩, ?_⟩
    intro id item hitem
    obtain ⟨other, hother, rfl⟩ := hmem id item hitem
    exact hall other hother
  · rintro ⟨⟨id, hid⟩, hall⟩
    constructor
    · obtain ⟨item, hitem⟩ := Option.ne_none_iff_exists'.mp hid
      obtain ⟨rt, hrt, -⟩ := hmem id item hitem
      cases hdevices : r.devices with
      | nil =>
          rw [hdevices] at hrt
          cases hrt
      | cons first rest => rfl
    · intro rt hrt
      exact hall rt.id _ (hfind rt hrt)

/-- Registries with the same configurations are all push together. -/
theorem allPush_congr {r r' : DeviceRegistry} (hids : r.ids.Nodup) (hids' : r'.ids.Nodup)
    (h : ∀ id, configOf r' id = configOf r id) : r'.allPush = r.allPush := by
  apply Bool.eq_iff_iff.mpr
  rw [allPush_iff hids, allPush_iff hids']
  simp only [h]

/-! ## Changes -/

/-- A change that commits leaves what its commit does. -/
theorem settle_ok {change : ConfigChange} {s : ReloadState} {tx : ReloadTransaction}
    (h : (commit change.env change.cancelledAtCommit tx s).verdict = .ok ()) :
    settle change s tx = (commit change.env change.cancelledAtCommit tx s).state := by
  simp only [settle, h]
  rfl

/-- Any other leaves what its rollback does. -/
theorem settle_error {change : ConfigChange} {s : ReloadState} {tx : ReloadTransaction}
    {e : ApplicationError}
    (h : (commit change.env change.cancelledAtCommit tx s).verdict = .error e) :
    settle change s tx =
      (rollback change.env (commit change.env change.cancelledAtCommit tx s).undo
        (commit change.env change.cancelledAtCommit tx s).state).state := by
  simp only [settle, h]
  rfl

/-- A change that settles, and whose availability is taken, keeps what clients were told true. -/
theorem applyChange_told (serde : Deserializers) (s : ReloadState) (change : ConfigChange)
    (h : Live s ∧ ToldTruly s) (htells : TellsClients serde s change) :
    Live (applyChange serde s change) ∧ ToldTruly (applyChange serde s change) := by
  obtain ⟨hlive, htold⟩ := h
  have hnext := applyChange_live serde hlive change
  refine ⟨hnext, ?_⟩
  obtain ⟨c, rfl⟩ := hlive
  unfold applyChange at hnext ⊢
  cases hprepare : prepareConfigurationApply serde change.started change.cancelledAtPrepare
      c.toReloadState change.candidate with
  | error e => exact htold
  | ok tx =>
      have hsettled := htells.settles tx hprepare
      obtain ⟨p, hplan, rfl⟩ := prepare_ok hprepare
      rw [hprepare] at hnext
      simp only [Except.toOption, Option.map_some, Option.getD_some] at hnext ⊢
      obtain ⟨hdone, hsilent⟩ := commit_announced change.env htells.taken
        change.cancelledAtCommit (.staged c.toReloadState p change.candidate) c.toReloadState
      cases hverdict : (commit change.env change.cancelledAtCommit
          (.staged c.toReloadState p change.candidate) c.toReloadState).verdict with
      | ok u =>
          rw [settle_ok hverdict]
          exact hdone hverdict
      | error e =>
          rw [hverdict] at hsettled
          have hback := hsettled.resolve_left nofun
          rw [settle_error hverdict] at hnext ⊢
          unfold ToldTruly
          rw [rollback_announced, hsilent e hverdict]
          cases hcancelled : change.cancelledAtCommit with
          | true =>
              have hsame : commit change.env true (.staged c.toReloadState p change.candidate)
                  c.toReloadState = ⟨c.toReloadState,
                    (ReloadTransaction.staged c.toReloadState p change.candidate).undo,
                    .error shuttingDown⟩ := rfl
              rw [hsame, rollback_untouched]
              exact htold
          | false =>
              rw [hcancelled] at hverdict hback hnext
              have hrestored := restored_of_rollback hplan hverdict hback
              obtain ⟨after, hafter⟩ := hnext
              have hids : (rollback change.env _ _).state.registry.ids.Nodup :=
                hafter ▸ after.distinct
              rw [allPush_congr c.distinct hids hrestored.configs]
              exact htold

/-- A change whose commit succeeds settles. -/
theorem settles_of_commit {serde : Deserializers} {s : ReloadState} {change : ConfigChange}
    {p : ReloadPlan}
    (hplan : plan serde s.registry.snapshotRunning s.prior.nonInstance change.candidate.raw = .ok p)
    (hcommit : (commit change.env change.cancelledAtCommit (.staged s p change.candidate)
      s).verdict = .ok ()) : Settles serde s change := by
  intro tx hprepare
  obtain ⟨p', hplan', rfl⟩ := prepare_ok hprepare
  obtain rfl := Except.ok.inj (hplan.symm.trans hplan')
  exact .inl hcommit

/-- A start that succeeds has told clients whether a repoll can be served. -/
theorem started_told {app : App} {life : Life} (hinbox : life.inbox.isSome = true)
    (hstarted : (Life.started app life).2 = .ok ()) : ToldTruly (Life.started app life).1 := by
  unfold Life.started at hstarted ⊢
  obtain ⟨inbox, hinbox⟩ := Option.isSome_iff_exists.mp hinbox
  rw [hinbox] at hstarted ⊢
  simp only [startInstances] at hstarted ⊢
  cases hfatal : (launchStartupSet life.env.launcher app.global app.config app.initial.launches
      app.devices).fatal with
  | some e =>
      rw [hfatal] at hstarted
      cases hstarted
  | none =>
      obtain ⟨verbs, availability, panels⟩ := inbox
      rw [hfatal] at hstarted
      cases verbs with
      | error e => cases hstarted
      | ok u =>
          cases availability with
          | error e => cases hstarted
          | ok v =>
              apply announced_told
              intro act hact
              cases hact

/-- What clients are told about repoll is so, from the registration of the verbs on and after every
change, as long as no rollback loses an instance and the inbox takes what it is told. -/
theorem repoll_told_truly (serde : Deserializers) (config : ConfigSnapshot) (app : App)
    (life : Life) (happ : App.new serde config = .ok app) (hinbox : life.inbox.isSome = true)
    (hstarted : (Life.started app life).2 = .ok ())
    (hguard : Guarded (applyChange serde) (TellsClients serde) (Life.started app life).1
      life.changes) :
    ToldTruly (runSteps (applyChange serde) (Life.started app life).1 life.changes) :=
  (runSteps_invariant (applyChange_told serde)
    ⟨live_of_start happ life, started_told hinbox hstarted⟩ hguard).2

/-! ## A polled device that a push device replaces -/

/-- The entry of a push device with one input field. -/
def pushedEntry : Json :=
  .obj [("id", .str "press-2"), ("mode", .str "push"), ("adapter", .str "sim"),
    ("connection", .obj [("endpoint", .str "10.0.0.6")]),
    ("io", .obj [("rpiMs", .num (.posInt 10)),
      ("assemblies", .obj [("output", .num (.posInt 150)), ("input", .num (.posInt 100))]),
      ("input", .obj [("sizeBytes", .num (.posInt 4)), ("signals", .arr [.obj [
        ("name", .str "level"), ("offset", .num (.posInt 0)), ("type", .str "int")]])])])]

/-- What it reads as. -/
def pushedConfig (id : String) : DeviceConfig where
  id := id
  mode := .push
  connection := { endpoint := "10.0.0.6", slot := none, connected := false }
  pollGroups := []
  io := some {
    rpiMs := 10
    o2tRpiMs := none
    assemblies := ⟨none, 150, 100⟩
    input := ⟨4, .modeless, [⟨"level", 0, .int, none, none, none, none, none⟩]⟩
    output := none }
  writes := ⟨[]⟩

/-- The reader of documents whose instances are devices of both kinds. -/
def mixedSerde : Deserializers where
  device := fun v =>
    match v.get "id" with
    | some (.str id) =>
      .ok (if (v.get "mode").bind Json.asStr = some "push" then pushedConfig id else polledConfig id)
    | _ => .error "missing field `id`"
  global := fun _ => .error "unknown field"
  device_id := by
    intro v cfg h
    split at h
    · rename_i id hid
      cases h
      rw [hid]
      split_ifs <;> rfl
    · cases h

/-- The document of a polled device, before or beside a push device. -/
def mixedDocument (polled pushed : Bool) : ConfigSnapshot where
  raw := .obj [("component", .obj [("instances",
    .arr ((if polled then [polledEntry "plc-1" "sim"] else []) ++
      if pushed then [pushedEntry] else []))])]
  distinctKeys := by
    cases polled <;> cases pushed <;>
      simp [polledEntry, pushedEntry, Json.DistinctKeys, Json.DistinctMembers, Json.DistinctItems]

def mixedApp : App where
  config := mixedDocument true false
  global := {}
  devices := (parseInstances mixedSerde (mixedDocument true false).raw).1

/-- A push device joins the polled one, which then goes. -/
def replacedLife : Life where
  env := { launcher := adapterLauncher }
  inbox := some {}
  changes := [
    { env := { launcher := adapterLauncher }, candidate := mixedDocument true true },
    { env := { launcher := adapterLauncher }, candidate := mixedDocument false true }]

/-- Clients were told that a repoll can be served, and then that it cannot. -/
theorem repoll_told_truly_replaced :
    announced (Life.started mixedApp replacedLife).1.acts = some false ∧
      announced (runSteps (applyChange mixedSerde) (Life.started mixedApp replacedLife).1
        replacedLife.changes).acts = some true ∧
      ToldTruly (runSteps (applyChange mixedSerde) (Life.started mixedApp replacedLife).1
        replacedLife.changes) := by
  refine ⟨rfl, rfl, repoll_told_truly mixedSerde (mixedDocument true false) mixedApp
    replacedLife rfl rfl rfl ⟨⟨?_, rfl⟩, ⟨?_, rfl⟩, trivial⟩⟩
  · exact settles_of_commit rfl rfl
  · exact settles_of_commit rfl rfl

end EnipAdapter.Analysis
