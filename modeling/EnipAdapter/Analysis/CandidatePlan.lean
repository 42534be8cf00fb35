import EnipAdapter.Analysis.JsonEquality
import EnipAdapter.Interface.ReloadContract

/-!
# What a plan says

An id of a candidate document is declared once. It is kept, started or skipped, and what is running
is kept or stopped. The same document planned over the instances it left running moves nothing.
-/

set_option autoImplicit false

namespace EnipAdapter.Analysis

open EnipAdapter.Foundation EnipAdapter.Model EnipAdapter.Interface

/-! ## The candidate's instances -/

/-- Validation leaves the id of a device as it is. -/
theorem validate_id {cfg cfg' : DeviceConfig} (h : cfg.validate = .ok cfg') : cfg'.id = cfg.id := by
  unfold DeviceConfig.validate at h
  obtain ⟨_, -, hmode⟩ := bind_ok.mp h
  cases hcase : cfg.mode with
  | poll =>
      rw [hcase] at hmode
      obtain ⟨_, -, hpoll⟩ := bind_ok.mp hmode
      unfold DeviceConfig.validatePoll at hpoll
      obtain ⟨_, -, hgroups⟩ := bind_ok.mp hpoll
      obtain ⟨_, -, hcfg⟩ := bind_ok.mp hgroups
      cases hcfg
      rfl
  | push =>
      rw [hcase] at hmode
      obtain ⟨_, -, hpush⟩ := bind_ok.mp hmode
      cases hio : cfg.io with
      | none =>
          rw [hio] at hpush
          cases hpush
      | some io =>
          rw [hio] at hpush
          obtain ⟨_, -, hcfg⟩ := bind_ok.mp hpush
          cases hcfg
          rfl

/-- The id of a parsed instance is the one its subtree declares. -/
theorem fromValue_id {serde : Deserializers} {v : Json} {cfg : DeviceConfig}
    (h : DeviceConfig.fromValue serde v = .ok cfg) : v.get "id" = some (.str cfg.id) := by
  unfold DeviceConfig.fromValue at h
  cases hparsed : serde.device v with
  | error e =>
      rw [hparsed] at h
      cases h
  | ok parsed =>
      rw [hparsed] at h
      rw [validate_id h]
      exact serde.device_id v parsed hparsed

/-- The loop never lists an id twice, and lists entries under the id they declare. -/
theorem collectInstances_spec {out : List (String × Json)} (hout : (out.map Prod.fst).Nodup)
    (entries : List Json) :
    ((collectInstances out entries).map Prod.fst).Nodup ∧
      ∀ p ∈ collectInstances out entries, p ∈ out ∨
        (p.2 ∈ entries ∧ (p.2.get "id").bind Json.asStr = some p.1) := by
  induction entries generalizing out with
  | nil => exact ⟨hout, fun p hp => .inl hp⟩
  | cons entry rest ih =>
      unfold collectInstances
      cases hid : (entry.get "id").bind Json.asStr with
      | none =>
          obtain ⟨hnodup, hmem⟩ := ih hout
          refine ⟨hnodup, fun p hp => ?_⟩
          obtain hp | ⟨hp, hpid⟩ := hmem p hp
          · exact .inl hp
          · exact .inr ⟨List.mem_cons_of_mem _ hp, hpid⟩
      | some id =>
          by_cases hseen : out.any (·.1 == id) = true
          · obtain ⟨hnodup, hmem⟩ := ih hout
            simp only [if_pos hseen]
            refine ⟨hnodup, fun p hp => ?_⟩
            obtain hp | ⟨hp, hpid⟩ := hmem p hp
            · exact .inl hp
            · exact .inr ⟨List.mem_cons_of_mem _ hp, hpid⟩
          · have hfresh : ((out ++ [(id, entry)]).map Prod.fst).Nodup := by
              rw [List.map_append]
              refine List.nodup_append.mpr ⟨hout, List.nodup_singleton _, ?_⟩
              intro a ha b hb hab
              obtain ⟨p, hp, rfl⟩ := List.mem_map.mp ha
              rw [List.mem_singleton.mp hb] at hab
              exact hseen (List.any_eq_true.mpr ⟨p, hp, beq_iff_eq.mpr hab⟩)
            obtain ⟨hnodup, hmem⟩ := ih hfresh
            simp only [if_neg hseen]
            refine ⟨hnodup, fun p hp => ?_⟩
            obtain hp | ⟨hp, hpid⟩ := hmem p hp
            · obtain hp | hp := List.mem_append.mp hp
              · exact .inl hp
              · rw [List.mem_singleton.mp hp]
                exact .inr ⟨List.mem_cons_self, hid⟩
            · exact .inr ⟨List.mem_cons_of_mem _ hp, hpid⟩

/-- From the start, that is all it lists. -/
theorem collectInstances_nil (entries : List Json) :
    ((collectInstances [] entries).map Prod.fst).Nodup ∧
      ∀ p ∈ collectInstances [] entries,
        p.2 ∈ entries ∧ (p.2.get "id").bind Json.asStr = some p.1 := by
  have hnone : (([] : List (String × Json)).map Prod.fst).Nodup := List.nodup_nil
  obtain ⟨hnodup, hmem⟩ := collectInstances_spec hnone entries
  refine ⟨hnodup, fun p hp => ?_⟩
  obtain hp | hp := hmem p hp
  · cases hp
  · exact hp

/-- The ids of the candidate's instances are distinct, and each is declared in its subtree. -/
theorem candidateInstances_spec (raw : Json) :
    ((candidateInstances raw).map Prod.fst).Nodup ∧
      ∀ p ∈ candidateInstances raw, (p.2.get "id").bind Json.asStr = some p.1 := by
  unfold candidateInstances
  cases ((raw.get "component").bind (·.get "instances")).bind Json.asArray with
  | none => exact ⟨List.nodup_nil, fun p hp => by cases hp⟩
  | some entries =>
      obtain ⟨hnodup, hmem⟩ := collectInstances_nil entries
      exact ⟨hnodup, fun p hp => (hmem p hp).2⟩

/-- The instances of a document have no key twice either. -/
theorem candidateInstances_distinctKeys {raw : Json} (h : raw.DistinctKeys) :
    ∀ p ∈ candidateInstances raw, p.2.DistinctKeys := by
  intro p hp
  unfold candidateInstances at hp
  cases hentries : ((raw.get "component").bind (·.get "instances")).bind Json.asArray with
  | none =>
      rw [hentries] at hp
      cases hp
  | some entries =>
      rw [hentries] at hp
      obtain ⟨instances, hinstances, harray⟩ := Option.bind_eq_some_iff.mp hentries
      obtain ⟨component, hcomponent, hget⟩ := Option.bind_eq_some_iff.mp hinstances
      have hparts := asArray_distinctKeys
        (get_distinctKeys (get_distinctKeys h hcomponent) hget) harray
      exact hparts p.2 ((collectInstances_nil entries).2 p hp).1

/-! ## Parsed and skipped -/

/-- The valid instances are entries of the document, in its order. -/
theorem parseEntries_valid (serde : Deserializers) {entries : List (String × Json)}
    (hids : ∀ p ∈ entries, (p.2.get "id").bind Json.asStr = some p.1) :
    ((parseEntries serde entries).1.map fun item => (item.1.id, item.2)).Sublist entries := by
  induction entries with
  | nil => exact List.Sublist.refl []
  | cons entry rest ih =>
      obtain ⟨id, subtree⟩ := entry
      have hrest := ih (fun p hp => hids p (List.mem_cons_of_mem _ hp))
      unfold parseEntries
      cases hparsed : DeviceConfig.fromValue serde subtree with
      | error e => exact hrest.cons _
      | ok cfg =>
          have hid : cfg.id = id := by
            have hdeclared := hids (id, subtree) List.mem_cons_self
            rw [fromValue_id hparsed] at hdeclared
            exact Option.some.inj hdeclared
          show ((cfg.id, subtree) :: _).Sublist _
          rw [hid]
          exact hrest.cons_cons _

/-- Every entry is valid or skipped for a reason. -/
theorem parseEntries_declared (serde : Deserializers) {entries : List (String × Json)}
    {entry : String × Json} (h : entry ∈ entries) :
    (∃ cfg, (cfg, entry.2) ∈ (parseEntries serde entries).1 ∧
        DeviceConfig.fromValue serde entry.2 = .ok cfg) ∨
      ∃ why, (entry.1, why) ∈ (parseEntries serde entries).2 := by
  induction entries with
  | nil => cases h
  | cons first rest ih =>
      obtain ⟨id, subtree⟩ := first
      unfold parseEntries
      obtain rfl | hrest := List.mem_cons.mp h
      · cases hparsed : DeviceConfig.fromValue serde subtree with
        | ok cfg => exact .inl ⟨cfg, List.mem_cons_self, rfl⟩
        | error e => exact .inr ⟨e, List.mem_cons_self⟩
      · cases hparsed : DeviceConfig.fromValue serde subtree with
        | ok cfg =>
            obtain ⟨other, hother, hok⟩ | ⟨why, hwhy⟩ := ih hrest
            · exact .inl ⟨other, List.mem_cons_of_mem _ hother, hok⟩
            · exact .inr ⟨why, hwhy⟩
        | error e =>
            obtain ⟨other, hother, hok⟩ | ⟨why, hwhy⟩ := ih hrest
            · exact .inl ⟨other, hother, hok⟩
            · exact .inr ⟨why, List.mem_cons_of_mem _ hwhy⟩

/-! ## The dispositions -/

section Dispositions

variable (running : List (String × Json)) (restartAll : Bool)

/-- The instance runs with the subtree it is declared with. -/
def keepsInstance (item : ParsedInstance) : Bool :=
  (running.find? (·.1 == item.1.id)).any fun entry => !restartAll && Json.same entry.2 item.2

/-- The instance runs. -/
def runsInstance (item : ParsedInstance) : Bool := (running.find? (·.1 == item.1.id)).isSome

/-- The loop keeps, starts and stops by two questions to each instance: does it run unchanged, does
it run at all. -/
theorem dispose_eq (items : List ParsedInstance) :
    (dispose running restartAll items).keep =
        (items.filter (keepsInstance running restartAll)).map (·.1.id) ∧
      (dispose running restartAll items).start =
        items.filter (fun item => !keepsInstance running restartAll item) ∧
      (dispose running restartAll items).stop =
        (items.filter fun item =>
          !keepsInstance running restartAll item && runsInstance running item).map (·.1.id) := by
  induction items with
  | nil => exact ⟨rfl, rfl, rfl⟩
  | cons item rest ih =>
      obtain ⟨hkeep, hstart, hstop⟩ := ih
      obtain ⟨cfg, raw⟩ := item
      unfold dispose
      cases hfind : running.find? (·.1 == cfg.id) with
      | none =>
          have hkeeps : keepsInstance running restartAll (cfg, raw) = false := by
            unfold keepsInstance
            rw [hfind]
            rfl
          have hruns : runsInstance running (cfg, raw) = false := by
            unfold runsInstance
            rw [hfind]
            rfl
          refine ⟨?_, ?_, ?_⟩
          · rw [List.filter_cons_of_neg (by rw [hkeeps]; exact Bool.false_ne_true)]
            exact hkeep
          · rw [List.filter_cons_of_pos (by rw [hkeeps]; rfl)]
            show (cfg, raw) :: (dispose running restartAll rest).start = _
            rw [hstart]
          · rw [List.filter_cons_of_neg (by rw [hkeeps, hruns]; exact Bool.false_ne_true)]
            exact hstop
      | some entry =>
          obtain ⟨runningId, runningRaw⟩ := entry
          have hruns : runsInstance running (cfg, raw) = true := by
            unfold runsInstance
            rw [hfind]
            rfl
          have hkeeps : keepsInstance running restartAll (cfg, raw) =
              (!restartAll && Json.same runningRaw raw) := by
            unfold keepsInstance
            rw [hfind]
            rfl
          by_cases hsame : (!restartAll && Json.same runningRaw raw) = true
          · simp only [if_pos hsame]
            rw [hsame] at hkeeps
            refine ⟨?_, ?_, ?_⟩
            · rw [List.filter_cons_of_pos hkeeps, hkeep]
              rfl
            · rw [List.filter_cons_of_neg (by rw [hkeeps]; exact Bool.false_ne_true)]
              exact hstart
            · rw [List.filter_cons_of_neg (by rw [hkeeps]; exact Bool.false_ne_true)]
              exact hstop
          · simp only [if_neg hsame]
            rw [Bool.eq_false_iff.mpr hsame] at hkeeps
            refine ⟨?_, ?_, ?_⟩
            · rw [List.filter_cons_of_neg (by rw [hkeeps]; exact Bool.false_ne_true)]
              exact hkeep
            · rw [List.filter_cons_of_pos (by rw [hkeeps]; rfl), hstart]
            · rw [List.filter_cons_of_pos (by rw [hkeeps, hruns]; rfl), hstop]
              rfl

end Dispositions

/-! ## The plan -/

/-- The plan for a document whose global section reads `global`. -/
def planFor (serde : Deserializers) (running : List (String × Json)) (view raw : Json)
    (global : GlobalConfig) : ReloadPlan :=
  let restartAll := !Json.same (nonInstanceView raw) view
  let d := dispose running restartAll (parseInstances serde raw).1
  let removed := (running.map (·.1)).filter fun id =>
    !((parseInstances serde raw).1.map (·.1.id)).any (· == id)
  { restartAll := restartAll
    global := global
    keep := d.keep
    stop := d.stop ++ removed
    start := d.start
    removed := removed
    skipped := (parseInstances serde raw).2 }

/-- A plan is that of the candidate's global, unless it would run nothing. -/
theorem plan_eq (serde : Deserializers) (running : List (String × Json)) (view raw : Json) :
    plan serde running view raw =
      match GlobalConfig.fromValue serde (globalSection raw) with
      | .error e => .error (.invalidGlobal e)
      | .ok global =>
        if (planFor serde running view raw global).keep.isEmpty &&
            (planFor serde running view raw global).start.isEmpty then .error .noValidInstances
        else .ok (planFor serde running view raw global) := rfl

/-- What a plan that was made says. -/
theorem plan_ok {serde : Deserializers} {running : List (String × Json)} {view raw : Json}
    {p : ReloadPlan} (h : plan serde running view raw = .ok p) :
    GlobalConfig.fromValue serde (globalSection raw) = .ok p.global ∧
      p = planFor serde running view raw p.global := by
  rw [plan_eq] at h
  cases hglobal : GlobalConfig.fromValue serde (globalSection raw) with
  | error e =>
      rw [hglobal] at h
      cases h
  | ok global =>
      rw [hglobal] at h
      simp only at h
      split at h
      · cases h
      · cases h
        exact ⟨rfl, rfl⟩

/-- What a plan says of the ids that run and of those the candidate declares. -/
structure PlanFacts (running : List (String × Json)) (raw : Json) (p : ReloadPlan) : Prop where
  keepRuns : ∀ id ∈ p.keep, id ∈ running.map (·.1)
  keepSame : ∀ entry ∈ running, entry.1 ∈ p.keep →
    ∃ subtree, (entry.1, subtree) ∈ candidateInstances raw ∧ Json.same entry.2 subtree = true
  startIds : (p.start.map (·.1.id)).Nodup
  startDeclared : ∀ item ∈ p.start, (item.1.id, item.2) ∈ candidateInstances raw
  apart : ∀ id ∈ p.start.map (·.1.id), id ∉ p.keep
  stops : ∀ id ∈ running.map (·.1), id ∈ p.stop ↔ id ∉ p.keep
  removed : ∀ id, id ∈ p.removed ↔
    id ∈ running.map (·.1) ∧ id ∉ p.keep ∧ id ∉ p.start.map (·.1.id)
  removedIds : (running.map (·.1)).Nodup → p.removed.Nodup
  declared : ∀ entry ∈ candidateInstances raw, entry.1 ∈ p.keep ∨
    entry.1 ∈ p.start.map (·.1.id) ∨ ∃ why, (entry.1, why) ∈ p.skipped

/-- What is found by its id is there under that id. -/
theorem mem_running_of_find {running : List (String × Json)} {id : String} {entry : String × Json}
    (h : running.find? (·.1 == id) = some entry) : entry ∈ running ∧ entry.1 = id := by
  have hfound := List.find?_some h
  exact ⟨List.mem_of_find?_eq_some h, beq_iff_eq.mp hfound⟩

/-- Of distinct ids the search finds the one entry. -/
theorem find_of_mem {running : List (String × Json)} (hids : (running.map (·.1)).Nodup)
    {entry : String × Json} (h : entry ∈ running) :
    running.find? (·.1 == entry.1) = some entry := by
  cases hfind : running.find? (·.1 == entry.1) with
  | none =>
      have hnone := List.find?_eq_none.mp hfind entry h
      exact absurd (beq_self_eq_true entry.1) hnone
  | some other =>
      obtain ⟨hother, hid⟩ := mem_running_of_find hfind
      rw [List.inj_on_of_nodup_map hids hother h hid]

/-- An instance that runs is kept if its subtree is the same and nothing forces a restart. -/
theorem keepsInstance_iff {running : List (String × Json)}
    (hrunning : (running.map (·.1)).Nodup) {entry : String × Json} (hentry : entry ∈ running)
    {restartAll : Bool} {item : ParsedInstance} (hid : item.1.id = entry.1) :
    keepsInstance running restartAll item = (!restartAll && Json.same entry.2 item.2) := by
  unfold keepsInstance
  rw [hid, find_of_mem hrunning hentry]
  rfl

/-- An instance runs if its id does. -/
theorem runsInstance_iff {running : List (String × Json)} {item : ParsedInstance} :
    runsInstance running item = true ↔ item.1.id ∈ running.map (·.1) := by
  unfold runsInstance
  constructor
  · intro h
    obtain ⟨entry, hfind⟩ := Option.isSome_iff_exists.mp h
    obtain ⟨hentry, hid⟩ := mem_running_of_find hfind
    exact List.mem_map.mpr ⟨entry, hentry, hid⟩
  · intro h
    obtain ⟨entry, hentry, hid⟩ := List.mem_map.mp h
    rw [List.find?_isSome]
    exact ⟨entry, hentry, beq_iff_eq.mpr hid⟩

/-- What is kept runs. -/
theorem runsInstance_of_keeps {running : List (String × Json)} {restartAll : Bool}
    {item : ParsedInstance} (h : keepsInstance running restartAll item = true) :
    runsInstance running item = true := by
  unfold keepsInstance at h
  unfold runsInstance
  cases hfind : running.find? (·.1 == item.1.id) with
  | none =>
      rw [hfind] at h
      cases h
  | some entry => rfl

section Plan

variable {serde : Deserializers} {running : List (String × Json)} {view raw : Json}
  {p : ReloadPlan}

/-- The instances the adapter can run are candidates, in order. -/
theorem valid_sublist (serde : Deserializers) (raw : Json) :
    ((parseInstances serde raw).1.map fun item => (item.1.id, item.2)).Sublist
      (candidateInstances raw) :=
  parseEntries_valid serde (candidateInstances_spec raw).2

/-- No two of them have one id. -/
theorem validIds_nodup (serde : Deserializers) (raw : Json) :
    ((parseInstances serde raw).1.map (·.1.id)).Nodup := by
  have hsub := (valid_sublist serde raw).map Prod.fst
  rw [List.map_map] at hsub
  exact (candidateInstances_spec raw).1.sublist hsub

/-- Kept is who runs unchanged. -/
theorem mem_keep (h : plan serde running view raw = .ok p) {id : String} :
    id ∈ p.keep ↔ ∃ item ∈ (parseInstances serde raw).1,
      keepsInstance running p.restartAll item = true ∧ item.1.id = id := by
  obtain ⟨-, hp⟩ := plan_ok h
  have hkeep := (dispose_eq running p.restartAll (parseInstances serde raw).1).1
  have hsame : p.keep = (dispose running p.restartAll (parseInstances serde raw).1).keep := by
    rw [hp]
    rfl
  rw [hsame, hkeep, List.mem_map]
  constructor
  · rintro ⟨item, hitem, hid⟩
    obtain ⟨hmem, hkeeps⟩ := List.mem_filter.mp hitem
    exact ⟨item, hmem, hkeeps, hid⟩
  · rintro ⟨item, hmem, hkeeps, hid⟩
    exact ⟨item, List.mem_filter.mpr ⟨hmem, hkeeps⟩, hid⟩

/-- Started is every valid instance that is not kept. -/
theorem start_eq (h : plan serde running view raw = .ok p) :
    p.start = (parseInstances serde raw).1.filter
      (fun item => !keepsInstance running p.restartAll item) := by
  obtain ⟨-, hp⟩ := plan_ok h
  have hsame : p.start = (dispose running p.restartAll (parseInstances serde raw).1).start := by
    rw [hp]
    rfl
  rw [hsame]
  exact (dispose_eq running p.restartAll (parseInstances serde raw).1).2.1

/-- The same by membership. -/
theorem mem_start (h : plan serde running view raw = .ok p) {item : ParsedInstance} :
    item ∈ p.start ↔ item ∈ (parseInstances serde raw).1 ∧
      keepsInstance running p.restartAll item = false := by
  rw [start_eq h, List.mem_filter, Bool.not_eq_true']

/-- Removed is who runs and is no valid instance of the candidate. -/
theorem mem_removed (h : plan serde running view raw = .ok p) {id : String} :
    id ∈ p.removed ↔ id ∈ running.map (·.1) ∧
      id ∉ (parseInstances serde raw).1.map (·.1.id) := by
  obtain ⟨-, hp⟩ := plan_ok h
  have hsame : p.removed = (running.map (·.1)).filter fun id =>
      !((parseInstances serde raw).1.map (·.1.id)).any (· == id) := by
    rw [hp]
    rfl
  rw [hsame, List.mem_filter, Bool.not_eq_true', List.any_eq_false]
  constructor
  · rintro ⟨hruns, hnone⟩
    exact ⟨hruns, fun hmem => hnone id hmem (beq_self_eq_true id)⟩
  · rintro ⟨hruns, hnone⟩
    refine ⟨hruns, fun other hother heq => ?_⟩
    rw [beq_iff_eq.mp heq] at hother
    exact hnone hother

/-- Stopped is who is started again, and who is removed. -/
theorem mem_stop (h : plan serde running view raw = .ok p) {id : String} :
    id ∈ p.stop ↔ (∃ item ∈ p.start, runsInstance running item = true ∧ item.1.id = id) ∨
      id ∈ p.removed := by
  obtain ⟨-, hp⟩ := plan_ok h
  have hstop := (dispose_eq running p.restartAll (parseInstances serde raw).1).2.2
  have hsame : p.stop =
      (dispose running p.restartAll (parseInstances serde raw).1).stop ++ p.removed := by
    rw [hp]
    rfl
  rw [hsame, hstop, List.mem_append, List.mem_map]
  apply or_congr _ Iff.rfl
  constructor
  · rintro ⟨item, hitem, hid⟩
    obtain ⟨hmem, hboth⟩ := List.mem_filter.mp hitem
    obtain ⟨hnot, hruns⟩ := Bool.and_eq_true_iff.mp hboth
    rw [Bool.not_eq_true'] at hnot
    exact ⟨item, (mem_start h).mpr ⟨hmem, hnot⟩, hruns, hid⟩
  · rintro ⟨item, hitem, hruns, hid⟩
    obtain ⟨hmem, hnot⟩ := (mem_start h).mp hitem
    refine ⟨item, List.mem_filter.mpr ⟨hmem, ?_⟩, hid⟩
    rw [hnot, hruns]
    rfl

/-- A declared instance that parses is kept or started. -/
theorem mem_valid (h : plan serde running view raw = .ok p) {id : String} :
    id ∈ (parseInstances serde raw).1.map (·.1.id) ↔
      id ∈ p.keep ∨ id ∈ p.start.map (·.1.id) := by
  constructor
  · intro hmem
    obtain ⟨item, hitem, hid⟩ := List.mem_map.mp hmem
    cases hkeeps : keepsInstance running p.restartAll item with
    | true => exact .inl ((mem_keep h).mpr ⟨item, hitem, hkeeps, hid⟩)
    | false => exact .inr (List.mem_map.mpr ⟨item, (mem_start h).mpr ⟨hitem, hkeeps⟩, hid⟩)
  · rintro (hmem | hmem)
    · obtain ⟨item, hitem, -, hid⟩ := (mem_keep h).mp hmem
      exact List.mem_map.mpr ⟨item, hitem, hid⟩
    · obtain ⟨item, hitem, hid⟩ := List.mem_map.mp hmem
      exact List.mem_map.mpr ⟨item, ((mem_start h).mp hitem).1, hid⟩

/-- No instance is both kept and started. -/
theorem start_not_kept (h : plan serde running view raw = .ok p) {id : String}
    (hstart : id ∈ p.start.map (·.1.id)) : id ∉ p.keep := by
  intro hkeep
  obtain ⟨item, hitem, hkeeps, hid⟩ := (mem_keep h).mp hkeep
  obtain ⟨other, hother, hid'⟩ := List.mem_map.mp hstart
  obtain ⟨hmem, hnot⟩ := (mem_start h).mp hother
  have hsame := List.inj_on_of_nodup_map (validIds_nodup serde raw) hitem hmem (hid.trans hid'.symm)
  rw [hsame, hnot] at hkeeps
  cases hkeeps

/-- A plan has the facts that a commit relies on. -/
theorem planFacts (h : plan serde running view raw = .ok p)
    (hrunning : (running.map (·.1)).Nodup) : PlanFacts running raw p where
  keepRuns := by
    intro id hid
    obtain ⟨item, -, hkeeps, rfl⟩ := (mem_keep h).mp hid
    exact runsInstance_iff.mp (runsInstance_of_keeps hkeeps)
  keepSame := by
    intro entry hentry hkeep
    obtain ⟨item, hitem, hkeeps, hid⟩ := (mem_keep h).mp hkeep
    rw [keepsInstance_iff hrunning hentry hid, Bool.and_eq_true_iff] at hkeeps
    refine ⟨item.2, ?_, hkeeps.2⟩
    rw [← hid]
    exact (valid_sublist serde raw).subset (List.mem_map.mpr ⟨item, hitem, rfl⟩)
  startIds := by
    rw [start_eq h]
    exact (validIds_nodup serde raw).sublist (List.filter_sublist.map _)
  startDeclared := by
    intro item hitem
    have hmem := ((mem_start h).mp hitem).1
    exact (valid_sublist serde raw).subset (List.mem_map.mpr ⟨item, hmem, rfl⟩)
  apart := fun id hid => start_not_kept h hid
  stops := by
    intro id hruns
    rw [mem_stop h]
    constructor
    · rintro (⟨item, hitem, -, rfl⟩ | hremoved) hkeep
      · exact start_not_kept h (List.mem_map.mpr ⟨item, hitem, rfl⟩) hkeep
      · exact ((mem_removed h).mp hremoved).2 ((mem_valid h).mpr (.inl hkeep))
    · intro hkeep
      by_cases hvalid : id ∈ (parseInstances serde raw).1.map (·.1.id)
      · obtain hkeep' | hstart := (mem_valid h).mp hvalid
        · exact absurd hkeep' hkeep
        · obtain ⟨item, hitem, rfl⟩ := List.mem_map.mp hstart
          exact .inl ⟨item, hitem, runsInstance_iff.mpr hruns, rfl⟩
      · exact .inr ((mem_removed h).mpr ⟨hruns, hvalid⟩)
  removed := by
    intro id
    rw [mem_removed h, mem_valid h, not_or]
  removedIds := by
    intro hnodup
    obtain ⟨-, hp⟩ := plan_ok h
    rw [hp]
    exact hnodup.filter _
  declared := by
    intro entry hentry
    obtain ⟨cfg, hcfg, hparsed⟩ | ⟨why, hwhy⟩ := parseEntries_declared serde hentry
    · have hid : cfg.id = entry.1 := by
        have hdeclared := (candidateInstances_spec raw).2 entry hentry
        rw [fromValue_id hparsed] at hdeclared
        exact Option.some.inj hdeclared
      have hvalid : entry.1 ∈ (parseInstances serde raw).1.map (·.1.id) :=
        List.mem_map.mpr ⟨(cfg, entry.2), hcfg, hid⟩
      obtain hkeep | hstart := (mem_valid h).mp hvalid
      · exact .inl hkeep
      · exact .inr (.inl hstart)
    · obtain ⟨-, hp⟩ := plan_ok h
      refine .inr (.inr ⟨why, ?_⟩)
      rw [hp]
      exact hwhy

/-- What runs is what the document declares, each instance with the subtree it is declared with. -/
structure InPlace (serde : Deserializers) (running : List (String × Json)) (raw : Json) :
    Prop where
  distinct : (running.map (·.1)).Nodup
  some : running ≠ []
  all : ∀ id ∈ (parseInstances serde raw).1.map (·.1.id), id ∈ running.map (·.1)
  same : ∀ entry ∈ running, ∃ subtree,
    (entry.1, subtree) ∈ candidateInstances raw ∧ Json.same entry.2 subtree = true
  valid : ∀ entry ∈ running, entry.1 ∈ (parseInstances serde raw).1.map (·.1.id)

/-- When the document is in place every instance of it is kept. -/
theorem InPlace.keeps (h : InPlace serde running raw) :
    ∀ item ∈ (parseInstances serde raw).1, keepsInstance running false item = true := by
  intro item hitem
  obtain ⟨entry, hentry, hid⟩ :=
    List.mem_map.mp (h.all item.1.id (List.mem_map.mpr ⟨item, hitem, rfl⟩))
  obtain ⟨subtree, hdeclared, heq⟩ := h.same entry hentry
  have hitem' : (item.1.id, item.2) ∈ candidateInstances raw :=
    (valid_sublist serde raw).subset (List.mem_map.mpr ⟨item, hitem, rfl⟩)
  have hsubtree : (entry.1, subtree) = (item.1.id, item.2) :=
    List.inj_on_of_nodup_map (candidateInstances_spec raw).1 hdeclared hitem' hid
  rw [keepsInstance_iff h.distinct hentry hid.symm, ← (Prod.mk.inj hsubtree).2, heq]
  rfl

/-- When the document is in place nobody is removed. -/
theorem InPlace.removed (h : InPlace serde running raw) :
    ((running.map (·.1)).filter fun id =>
      !((parseInstances serde raw).1.map (·.1.id)).any (· == id)) = [] := by
  rw [List.filter_eq_nil_iff]
  intro id hid
  obtain ⟨entry, hentry, rfl⟩ := List.mem_map.mp hid
  have hany : ((parseInstances serde raw).1.map (·.1.id)).any (· == entry.1) = true :=
    List.any_eq_true.mpr ⟨entry.1, h.valid entry hentry, beq_self_eq_true _⟩
  rw [hany]
  exact Bool.false_ne_true

/-- Somebody is kept, nobody is started and nobody stops. -/
theorem InPlace.dispose (h : InPlace serde running raw) :
    (Model.dispose running false (parseInstances serde raw).1).keep ≠ [] ∧
      (Model.dispose running false (parseInstances serde raw).1).start = [] ∧
      (Model.dispose running false (parseInstances serde raw).1).stop = [] := by
  obtain ⟨hkeep, hstart, hstop⟩ := dispose_eq running false (parseInstances serde raw).1
  refine ⟨?_, ?_, ?_⟩
  · obtain ⟨entry, hentry⟩ := List.exists_mem_of_ne_nil running h.some
    obtain ⟨item, hitem, -⟩ := List.mem_map.mp (h.valid entry hentry)
    rw [hkeep]
    exact List.ne_nil_of_mem (List.mem_map.mpr
      ⟨item, List.mem_filter.mpr ⟨hitem, h.keeps item hitem⟩, rfl⟩)
  · rw [hstart, List.filter_eq_nil_iff]
    intro item hitem
    rw [h.keeps item hitem]
    exact Bool.false_ne_true
  · rw [hstop]
    apply List.map_eq_nil_iff.mpr
    rw [List.filter_eq_nil_iff]
    intro item hitem
    rw [h.keeps item hitem]
    exact Bool.false_ne_true

/-- The same document planned over instances that run with it moves nothing. -/
theorem plan_again {running' : List (String × Json)} (h : plan serde running view raw = .ok p)
    (hraw : raw.DistinctKeys) (hplace : InPlace serde running' raw) :
    ∃ again, plan serde running' (nonInstanceView raw) raw = .ok again ∧ again.stop = [] ∧
      again.start = [] := by
  obtain ⟨hglobal, -⟩ := plan_ok h
  have hview : (!Json.same (nonInstanceView raw) (nonInstanceView raw)) = false := by
    rw [same_self _ (nonInstanceView_distinctKeys hraw)]
    rfl
  obtain ⟨hkeep, hstart, hstop⟩ := hplace.dispose
  refine ⟨planFor serde running' (nonInstanceView raw) raw p.global, ?_, ?_, ?_⟩
  · rw [plan_eq, hglobal]
    have hplanned : (planFor serde running' (nonInstanceView raw) raw p.global).keep ≠ [] := by
      unfold planFor
      rw [hview]
      exact hkeep
    show (if _ then _ else _) = _
    rw [if_neg]
    rw [Bool.and_eq_true_iff, List.isEmpty_iff]
    exact fun hempty => hplanned hempty.1
  · unfold planFor
    rw [hview]
    show _ ++ _ = []
    rw [hplace.removed, hstop, List.append_nil]
  · unfold planFor
    rw [hview]
    exact hstart

end Plan

end EnipAdapter.Analysis
