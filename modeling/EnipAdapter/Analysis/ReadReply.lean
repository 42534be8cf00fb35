import EnipAdapter.Analysis.TagRead
import EnipAdapter.Interface.ReadReplyContract

/-!
# Whose reading an entry of `sb/read` reports

The readings of a live read are looked up again by tag path, so of several references to one
tag the last one's reading answers for all. An answer gives every reference its own reading
exactly when those readings agree.
-/

set_option autoImplicit false

namespace EnipAdapter.Analysis

open EnipAdapter.Foundation EnipAdapter.Model EnipAdapter.Interface

/-! ## The map of readings -/

/-- A reading that is found for a tag is one that was taken for it. -/
theorem readingOf_some {readings : List Reading} {id : String} {r : Reading}
    (h : readingOf readings id = some r) : r ∈ readings ∧ r.signalId = id := by
  have hmem := List.mem_of_find?_eq_some h
  have hid := List.find?_some h
  exact ⟨List.mem_reverse.mp hmem, by simpa using hid⟩

/-- For a tag that was read a reading is found. -/
theorem readingOf_of_mem {readings : List Reading} {r : Reading} (h : r ∈ readings) :
    ∃ found, readingOf readings r.signalId = some found := by
  apply Option.isSome_iff_exists.mp
  apply List.find?_isSome.mpr
  exact ⟨r, List.mem_reverse.mpr h, by simp⟩

/-! ## Entries -/

/-- No two qualities have one name. -/
theorem qualityStr_injective : Function.Injective qualityStr := by
  intro a b h
  cases a <;> cases b <;> first | rfl | exact absurd h (by decide)

/-- The entry of a reading carries a reading like it. -/
theorem carries_readItem_iff {conn : ConnectionConfig} {spec : SignalSpec} {found r : Reading}
    (ts : String) :
    Carries conn spec r (readItem spec.tagPath (spec.addressJson conn) found ts) ↔
      found.value = r.value ∧ found.quality = r.quality := by
  constructor
  · intro h
    exact ⟨Option.some.inj h.value,
      qualityStr_injective (Json.str.inj (Option.some.inj h.quality))⟩
  · rintro ⟨hvalue, hquality⟩
    refine ⟨rfl, rfl, ?_, ?_⟩
    · show some found.value = some r.value
      rw [hvalue]
    · show some (Json.str (qualityStr found.quality)) = some (.str (qualityStr r.quality))
      rw [hquality]

/-- An entry without a reading carries none: it has no address. -/
theorem not_carries_badRead {conn : ConnectionConfig} {spec : SignalSpec} {r : Reading}
    (id raw : String) : ¬ Carries conn spec r (badRead id raw) := by
  intro h
  have haddress : none = some (spec.addressJson conn) := h.address
  cases haddress

/-- The entry of a resolved reference carries a reading when the map has one like it. -/
theorem carries_pollEntry_iff {cfg : DeviceConfig} {readings : List Reading} {spec : SignalSpec}
    {r : Reading} (ts : String) :
    Carries cfg.connection spec r (pollEntry cfg readings ts (.ok spec)).1 ↔
      ∃ found, readingOf readings spec.tagPath = some found ∧ found.value = r.value ∧
        found.quality = r.quality := by
  cases hfound : readingOf readings spec.tagPath with
  | none =>
    simp only [pollEntry, hfound]
    refine ⟨fun h => absurd h (not_carries_badRead _ _), ?_⟩
    rintro ⟨found, hnone, -⟩
    cases hnone
  | some found =>
    simp only [pollEntry, hfound, carries_readItem_iff]
    constructor
    · intro h
      exact ⟨found, rfl, h⟩
    · rintro ⟨found', hsame, h⟩
      cases hsame
      exact h

/-- The entry of a reference that names nothing says so. -/
theorem unresolved_pollEntry (cfg : DeviceConfig) (readings : List Reading) (ts label : String) :
    Unresolved label (pollEntry cfg readings ts (.error label)).1 :=
  ⟨rfl, rfl, rfl⟩

/-! ## The plan -/

/-- The plan of a command is what its references stand for, in order. -/
theorem readPlan_of_refersTo {render : Json → String} {cfg : DeviceConfig} {refs : List Json}
    {plan : List (Except String SignalSpec)}
    (h : List.Forall₂ (RefersTo render cfg) refs plan) : readPlan render cfg refs = .ok plan := by
  induction h with
  | nil => rfl
  | @cons ref entry refs plan href hrest ih =>
    cases entry with
    | ok spec =>
      have hresolved : resolvePollRef render cfg ref = .ok spec := href
      simp only [readPlan, hresolved, ih]
      rfl
    | error label =>
      have hunresolved : resolvePollRef render cfg ref = .error (.unresolved label) := href
      simp only [readPlan, hunresolved, ih]
      rfl

/-- A malformed argument anywhere refuses the command. -/
theorem readPlan_of_malformed {render : Json → String} {cfg : DeviceConfig} {refs : List Json}
    {ref : Json} {message : String} (hmem : ref ∈ refs)
    (href : resolvePollRef render cfg ref = .error (.badArgs message)) :
    ∃ m, readPlan render cfg refs = .error ⟨.badArgs, m⟩ := by
  induction refs with
  | nil => cases hmem
  | cons head refs ih =>
    cases hmem with
    | head =>
      refine ⟨message, ?_⟩
      simp only [readPlan, href]
    | tail _ hmem =>
      obtain ⟨m, hrest⟩ := ih hmem
      cases hhead : resolvePollRef render cfg head with
      | ok spec =>
        refine ⟨m, ?_⟩
        simp only [readPlan, hhead, hrest]
        rfl
      | error e =>
        cases e with
        | unresolved label =>
          refine ⟨m, ?_⟩
          simp only [readPlan, hhead, hrest]
          rfl
        | badArgs first =>
          refine ⟨first, ?_⟩
          simp only [readPlan, hhead]

/-! ## The answer -/

/-- The entries of a plan are its own when the map has, for every resolved reference, a
reading like the one taken for it. The readings not yet given out are a tail of the map's. -/
theorem ownEntries_iff {cfg : DeviceConfig} {readings : List Reading} (ts : String)
    (plan : List (Except String SignalSpec)) (rest : List Reading)
    (hlen : (planSpecs plan).length = rest.length) :
    OwnEntries cfg.connection plan rest ((plan.map (pollEntry cfg readings ts)).map Prod.fst) ↔
      ∀ p ∈ (planSpecs plan).zip rest, ∃ found,
        readingOf readings p.1.tagPath = some found ∧ found.value = p.2.value ∧
          found.quality = p.2.quality := by
  induction plan generalizing rest with
  | nil =>
    have hrest : rest = [] := List.length_eq_zero_iff.mp hlen.symm
    subst hrest
    refine ⟨fun _ p hp => ?_, fun _ => .nil⟩
    simp [planSpecs] at hp
  | cons head plan ih =>
    cases head with
    | error label =>
      have hspecs : planSpecs (.error label :: plan) = planSpecs plan := rfl
      rw [hspecs] at hlen ⊢
      rw [← ih rest hlen]
      constructor
      · intro h
        cases h with
        | unresolved hentry hrest => exact hrest
      · intro h
        exact .unresolved (unresolved_pollEntry cfg readings ts label) h
    | ok spec =>
      have hspecs : planSpecs (.ok spec :: plan) = spec :: planSpecs plan := rfl
      rw [hspecs] at hlen ⊢
      cases rest with
      | nil => simp at hlen
      | cons r rest =>
        rw [List.zip_cons_cons, List.forall_mem_cons, ← ih rest (by simpa using hlen),
          ← carries_pollEntry_iff ts]
        constructor
        · intro h
          cases h with
          | resolved hentry hrest => exact ⟨hentry, hrest⟩
        · rintro ⟨hentry, hrest⟩
          exact .resolved hentry hrest

/-- The map has a reading like the one taken for each reference exactly when the readings of
one tag path agree. -/
theorem readingOf_agrees_iff {specs : List SignalSpec} {readings : List Reading}
    (hdevice : List.Forall₂ (fun spec r => r.signalId = spec.tagPath) specs readings) :
    (∀ p ∈ specs.zip readings, ∃ found, readingOf readings p.1.tagPath = some found ∧
        found.value = p.2.value ∧ found.quality = p.2.quality) ↔
      ∀ a ∈ specs.zip readings, ∀ b ∈ specs.zip readings,
        a.1.tagPath = b.1.tagPath → a.2.value = b.2.value ∧ a.2.quality = b.2.quality := by
  obtain ⟨hlen, hids⟩ := List.forall₂_iff_zip.mp hdevice
  constructor
  · intro h a ha b hb hsame
    obtain ⟨found, hfound, hvalue, hquality⟩ := h a ha
    obtain ⟨found', hfound', hvalue', hquality'⟩ := h b hb
    rw [← hsame, hfound] at hfound'
    cases hfound'
    exact ⟨hvalue.symm.trans hvalue', hquality.symm.trans hquality'⟩
  · intro h p hp
    have hid : p.2.signalId = p.1.tagPath := hids hp
    obtain ⟨found, hfound⟩ := readingOf_of_mem (List.of_mem_zip hp).2
    rw [hid] at hfound
    obtain ⟨hmem, hsame⟩ := readingOf_some hfound
    -- the reading found was taken for some reference, and that one is to the same tag path
    have htaken : found ∈ (specs.zip readings).map Prod.snd := by
      rw [List.map_snd_zip hlen.ge]
      exact hmem
    obtain ⟨q, hq, rfl⟩ := List.mem_map.mp htaken
    have hqid : q.2.signalId = q.1.tagPath := hids hq
    exact ⟨q.2, hfound, h q hq p hp (hqid.symm.trans hsame)⟩

/-- A live read that is answered gives the answer of its entries. -/
theorem readPoll_answered {render : Json → String} {cfg : DeviceConfig} {refs : List Json}
    {plan : List (Except String SignalSpec)} {task : ReadTask} {readings : List Reading}
    (ts : String) (htask : ReadsInOrder task (planSpecs plan) readings)
    (hplan : readPlan render cfg refs = .ok plan) :
    ∃ served, readPoll render cfg task ts refs =
      .ok (.obj [("id", .str cfg.id), ("reads", .arr
        ((plan.map (pollEntry cfg readings ts)).map Prod.fst))], served) := by
  have hread : readNow task (planSpecs plan) = .ok readings := by
    unfold readNow
    by_cases hnone : planSpecs plan = []
    · -- nothing is sent, and there is no reading to give
      have hempty := htask.inOrder
      rw [hnone, List.forall₂_nil_left_iff] at hempty
      rw [if_pos hnone, hempty]
    · rw [if_neg hnone, htask.answered]
  simp only [readPoll, hplan, hread, readsReply]
  exact ⟨_, rfl⟩

/-- Well-formed references answered in order: each has its own reading exactly when the
readings of one tag path agree. -/
theorem answersEach_iff {render : Json → String} {cfg : DeviceConfig} {task : ReadTask}
    {refs : List Json} {plan : List (Except String SignalSpec)} {readings : List Reading}
    (ts : String) (hrefs : List.Forall₂ (RefersTo render cfg) refs plan)
    (htask : ReadsInOrder task (planSpecs plan) readings) :
    AnswersEach render cfg task ts refs plan readings ↔ TagReadingsAgree plan readings := by
  have hlen := (List.forall₂_iff_zip.mp htask.inOrder).1
  obtain ⟨served, hanswer⟩ := readPoll_answered ts htask (readPlan_of_refersTo hrefs)
  rw [TagReadingsAgree, ← readingOf_agrees_iff htask.inOrder,
    ← ownEntries_iff ts plan _ hlen]
  constructor
  · rintro ⟨entries, served', hok, hown⟩
    rw [hanswer] at hok
    cases hok
    exact hown
  · intro hown
    exact ⟨_, served, hanswer, hown⟩

/-- A poll read whose arguments are well formed gives every reference its own reading, at the
address it asked for, exactly when the readings taken for one tag path agree; a malformed
argument refuses the command. -/
theorem references_get_own_readings_iff (render : Json → String) (cfg : DeviceConfig)
    (task : ReadTask) (ts : String) (refs : List Json) :
    (∀ (plan : List (Except String SignalSpec)) (readings : List Reading),
      List.Forall₂ (RefersTo render cfg) refs plan →
        ReadsInOrder task (planSpecs plan) readings →
          (AnswersEach render cfg task ts refs plan readings ↔ TagReadingsAgree plan readings)) ∧
    ((∃ ref ∈ refs, ∃ m, resolvePollRef render cfg ref = .error (.badArgs m)) →
      ∃ m, readPoll render cfg task ts refs = .error (.refused ⟨.badArgs, m⟩)) := by
  constructor
  · intro plan readings hrefs htask
    exact answersEach_iff ts hrefs htask
  · rintro ⟨ref, hmem, message, href⟩
    obtain ⟨m, hplan⟩ := readPlan_of_malformed hmem href
    refine ⟨m, ?_⟩
    simp only [readPoll, hplan]

/-! ## A session behind the task -/

/-- A task that reads through a session; `describe` is the text of a link failure. -/
def sessionTask (describe : DeviceError → String) (session : EipSession) (envs : ℕ → ReadEnv) :
    ReadTask := fun specs =>
  .answered ((readSignals session envs specs).2.mapError describe)

/-- A session that gives readings gives them in order. -/
theorem sessionTask_readsInOrder {describe : DeviceError → String} {session : EipSession}
    {envs : ℕ → ReadEnv} {specs : List SignalSpec} {readings : List Reading}
    (h : (readSignals session envs specs).2 = .ok readings) :
    ReadsInOrder (sessionTask describe session envs) specs readings := by
  refine ⟨?_, readSignals_inOrder h⟩
  rw [sessionTask, h]
  rfl

/-! ## Two references to one tag -/

/-- A poll device with one configured tag. -/
def fillerPlc : DeviceConfig where
  id := "filler-plc"
  mode := .poll
  connection := { endpoint := "10.0.0.7", slot := none, connected := false }
  pollGroups := [⟨some "group-1", [⟨"speed", "Speed", .dint, none, none, none, {}⟩]⟩]
  io := none
  writes := ⟨[]⟩

/-- A device that stores the DINTs 7 and 8 under every tag: a scalar is the first of them. -/
def twoDints : ReadTask := fun specs =>
  .answered (.ok (specs.map fun spec =>
    good spec (if spec.arrayCount = none then Json.ofNat 7 else .arr [Json.ofNat 7, Json.ofNat 8])
      (some "DINT")))

/-- The device answers every list of specs in order. -/
theorem twoDints_readsInOrder (specs : List SignalSpec) :
    ReadsInOrder twoDints specs (specs.map fun spec =>
      good spec (if spec.arrayCount = none then Json.ofNat 7 else .arr [Json.ofNat 7, Json.ofNat 8])
        (some "DINT")) := by
  refine ⟨rfl, ?_⟩
  rw [List.forall₂_map_right_iff, List.forall₂_same]
  intro spec _
  rfl

/-- The configured tag by its name, and two elements of it by its path. -/
def speedTwice : List Json :=
  [.obj [("name", .str "speed")],
    .obj [("tagPath", .str "Speed"), ("type", .str "dint"), ("arrayCount", Json.ofNat 2)]]

/-- What the two references stand for. -/
def speedPlan : List (Except String SignalSpec) :=
  [.ok ⟨"speed", "Speed", .dint, none, none, none, {}⟩,
    .ok ⟨"Speed", "Speed", .dint, some 2, none, none, {}⟩]

/-- The two references resolve to the plan. -/
theorem speedTwice_refersTo :
    List.Forall₂ (RefersTo (fun _ => "") fillerPlc) speedTwice speedPlan := by
  refine .cons ?_ (.cons ?_ .nil)
  · show resolvePollRef _ _ _ = _
    decide +kernel
  · show resolvePollRef _ _ _ = _
    decide +kernel

/-- The entry of the named tag carries the array that was read for the other reference. -/
theorem scalar_answered_with_array :
    fillerPlc.validate = .ok fillerPlc ∧
      List.Forall₂ (RefersTo (fun _ => "") fillerPlc) speedTwice speedPlan ∧
      ∃ readings, ReadsInOrder twoDints (planSpecs speedPlan) readings ∧
        ¬ AnswersEach (fun _ => "") fillerPlc twoDints "" speedTwice speedPlan readings := by
  refine ⟨by decide +kernel, speedTwice_refersTo, _, twoDints_readsInOrder _, ?_⟩
  rw [answersEach_iff "" speedTwice_refersTo (twoDints_readsInOrder _)]
  intro hagree
  have hvalue := (hagree _ (.head _) _ (.tail _ (.head _)) rfl).1
  cases hvalue

/-- A reference that asks for zero elements. -/
def speedNone : Json :=
  .obj [("tagPath", .str "Speed"), ("type", .str "dint"), ("arrayCount", Json.ofNat 0)]

/-- The configured tag by its name and by its path, a scalar both times. -/
def speedBoth : List Json :=
  [.obj [("name", .str "speed")], .obj [("tagPath", .str "Speed"), ("type", .str "dint")]]

def bothPlan : List (Except String SignalSpec) :=
  [.ok ⟨"speed", "Speed", .dint, none, none, none, {}⟩,
    .ok ⟨"Speed", "Speed", .dint, none, none, none, {}⟩]

/-- Two references to one tag whose readings agree, answered by the same device, have their own
readings; a count of zero beside them refuses the command. -/
theorem named_tag_gets_own_reading :
    (∃ readings : List Reading,
      List.Forall₂ (RefersTo (fun _ => "") fillerPlc) speedBoth bothPlan ∧
        ReadsInOrder twoDints (planSpecs bothPlan) readings ∧
        AnswersEach (fun _ => "") fillerPlc twoDints "" speedBoth bothPlan readings) ∧
    ∃ m, readPoll (fun _ => "") fillerPlc twoDints "" (speedBoth ++ [speedNone]) =
      .error (.refused ⟨.badArgs, m⟩) := by
  constructor
  · have hrefs : List.Forall₂ (RefersTo (fun _ => "") fillerPlc) speedBoth bothPlan := by
      refine .cons ?_ (.cons ?_ .nil)
      · show resolvePollRef _ _ _ = _
        decide +kernel
      · show resolvePollRef _ _ _ = _
        decide +kernel
    have htask := twoDints_readsInOrder (planSpecs bothPlan)
    refine ⟨_, hrefs, htask, ?_⟩
    apply ((references_get_own_readings_iff _ _ _ _ _).1 _ _ hrefs htask).mpr
    -- the device gives the first of its words to either reference
    have hread : ∀ a ∈ (planSpecs bothPlan).zip ((planSpecs bothPlan).map fun spec =>
        good spec (if spec.arrayCount = none then Json.ofNat 7
          else .arr [Json.ofNat 7, Json.ofNat 8]) (some "DINT")),
        a.2.value = Json.ofNat 7 ∧ a.2.quality = .good := by
      intro a ha
      obtain rfl | hsecond := List.mem_cons.mp ha
      · exact ⟨rfl, rfl⟩
      · obtain rfl := List.mem_singleton.mp hsecond
        exact ⟨rfl, rfl⟩
    intro a ha b hb _
    obtain ⟨hvalue, hquality⟩ := hread a ha
    obtain ⟨hvalue', hquality'⟩ := hread b hb
    exact ⟨hvalue.trans hvalue'.symm, hquality.trans hquality'.symm⟩
  · apply (references_get_own_readings_iff _ _ _ _ _).2
    refine ⟨speedNone, List.mem_append_right _ (.head _),
      "`arrayCount` must be an integer in 1..=65535 (got )", ?_⟩
    decide +kernel

end EnipAdapter.Analysis
