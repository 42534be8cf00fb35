import EnipAdapter.Analysis.SignalGate
import EnipAdapter.Foundation.Runs
import Mathlib.Data.List.Induction

/-!
# The onChange gate without batching

When every publish is settled before the next call, nothing is pending between calls and the
gate compares with the last GOOD value that was confirmed. A failed publish leaves that
baseline alone, and no signal sees another's readings.
-/

set_option autoImplicit false

namespace EnipAdapter.Analysis

open EnipAdapter.Foundation EnipAdapter.Model EnipAdapter.Interface

/-! ## One reading -/

/-- The gate of an onChange call without a floor: a GOOD reading is held to the value on the
bus and to the one in the open window. -/
theorem admits_batched {c : EngineCall} (hc : OnChange c) (item : GateItem) (st : SignalState) :
    c.admits item st = (decide (item.reading.quality ≠ .good) ||
      (isNews st.committed item && isNews st.pending item)) := by
  have hpasses : gatePasses st item.reading.value item.reading.quality c.mode item.deadband =
      (decide (item.reading.quality ≠ .good) ||
        (isNews st.committed item && isNews st.pending item)) := by
    unfold gatePasses shouldPublish isNews
    rw [hc.mode]
    by_cases hgood : item.reading.quality = .good
    · cases st.committed <;> cases st.pending <;> simp [hgood]
    · simp [hgood]
  unfold EngineCall.admits
  cases hkind : c.kind with
  | group group readings => exact hpasses
  | frame readings deadbands sampleMs =>
    have hzero : sampleMs = 0 := by
      have h := hc.unfloored
      unfold EngineCall.Unfloored at h
      rw [hkind] at h
      exact h
    subst hzero
    have hfloor : belowFloor ⟨⟨c.mode, 0, c.now, c.serverTs⟩, 0⟩ item.reading.quality st =
        false := by
      simp [belowFloor]
    simp only [hfloor]
    exact hpasses

/-- With nothing pending the gate is about the committed value alone. -/
theorem admits_of_idle {c : EngineCall} (hc : OnChange c) (item : GateItem) {st : SignalState}
    (hidle : st.pending = none) :
    c.admits item st = (decide (item.reading.quality ≠ .good) || isNews st.committed item) := by
  rw [admits_batched hc, hidle]
  simp [isNews]

/-- What a settled call does for a signal it has a reading of. -/
structure Settled (s : SettledCall) (item : GateItem) (out : List Publish)
    (st st' : SignalState) : Prop where
  own : st' = ownStep s.call item (s.outcomes item.signalId) st
  published : publishedFor item.signalId out =
    if s.call.admits item st then [[s.call.sample item]] else []
  pending : st'.pending = none
  committed : st'.committed =
    if s.call.admits item st ∧ item.reading.quality = .good ∧ s.outcomes item.signalId = true then
      some item.reading.value
    else st.committed

/-- A settled call moves each of its signals as its reading and the outcome of its publish say. -/
theorem settledStep_item {s : SettledCall} (hs : s.call.Distinct) (e : Engine)
    {item : GateItem} (hitem : item ∈ s.call.items)
    (hidle : (e.signal item.signalId).pending = none) :
    Settled s item (s.call.run 0 e).2 (e.signal item.signalId)
      ((settledStep e s).signal item.signalId) := by
  have hstate := signal_run s.call 0 e item.signalId
  have hpublished := publishedFor_run s.call 0 e item.signalId
  have hiff := publishedIn_iff item.signalId (s.call.run 0 e).2
  rw [itemsOf_eq hs hitem] at hstate hpublished
  simp only [foldState] at hstate hpublished
  unfold settledStep
  rw [signal_settleAll, hstate]
  generalize e.signal item.signalId = st at *
  cases hadmits : s.call.admits item st with
  | false =>
    have hgate : s.call.gate 0 item st = _ := gate_refused hadmits
    have hnil : publishedFor item.signalId (s.call.run 0 e).2 = [] := by
      rw [hpublished, hgate]
      rfl
    have hout : publishedIn (s.call.run 0 e).2 item.signalId = false := by
      rw [Bool.eq_false_iff]
      exact fun h => hiff.mp h hnil
    rw [hout, hgate]
    refine ⟨?_, ?_, ?_, ?_⟩
    · simp only [ownStep, hgate, Bool.false_eq_true, if_false]
    · rw [hnil, hadmits]
      rfl
    · simp only [Bool.false_eq_true, if_false, SignalState.seen]
      split <;> exact hidle
    · simp only [hadmits, Bool.false_eq_true, if_false, SignalState.seen, false_and]
      split <;> rfl
  | true =>
    obtain ⟨st', hgate, hin, -⟩ := gate_unbatched hadmits
    have hone : publishedFor item.signalId (s.call.run 0 e).2 = [[s.call.sample item]] := by
      rw [hpublished, hgate]
      rfl
    have hout : publishedIn (s.call.run 0 e).2 item.signalId = true := by
      apply hiff.mpr
      rw [hone]
      simp
    rw [hout, hgate]
    have hpending := hin.pending
    rw [pendingAfter, hidle] at hpending
    refine ⟨?_, ?_, ?_, ?_⟩
    · simp only [ownStep, hgate, if_true]
    · rw [hone, hadmits]
      rfl
    · simp only [if_true, SignalState.settle]
      cases hp : st'.pending with
      | none => exact hp
      | some v => rfl
    · by_cases hgood : item.reading.quality = .good
      · rw [if_pos hgood] at hpending
        simp [SignalState.settle, hpending, hgood, hadmits, hin.committed]
      · rw [if_neg hgood] at hpending
        simp [SignalState.settle, hpending, hgood, hadmits, hin.committed]

/-- A settled call leaves a signal it has no reading of alone. -/
theorem settledStep_other (s : SettledCall) (e : Engine) {id : String}
    (h : ∀ item ∈ s.call.items, item.signalId ≠ id) :
    (settledStep e s).signal id = e.signal id ∧ publishedFor id (s.call.run 0 e).2 = [] := by
  have hstate := signal_run s.call 0 e id
  have hpublished := publishedFor_run s.call 0 e id
  have hiff := publishedIn_iff id (s.call.run 0 e).2
  rw [itemsOf_eq_nil h] at hstate hpublished
  simp only [foldState, List.filterMap_nil] at hstate hpublished
  have hout : publishedIn (s.call.run 0 e).2 id = false := by
    rw [Bool.eq_false_iff]
    exact fun hc => hiff.mp hc hpublished
  unfold settledStep
  rw [signal_settleAll, hstate, hout]
  exact ⟨rfl, hpublished⟩

/-! ## What a call shows of a signal -/

/-- The last confirmed value of a run is that of its later part, if there is one. -/
theorem lastConfirmed_append (id : String) (xs ys : List GateEvent) :
    lastConfirmed id (xs ++ ys) = (lastConfirmed id ys).or (lastConfirmed id xs) := by
  simp [lastConfirmed, List.getLast?_append, Option.map_or]

/-- The event of one reading of a call. -/
def eventOf (e : Engine) (s : SettledCall) (item : GateItem) : GateEvent :=
  let published := publishedIn (s.call.run 0 e).2 item.signalId
  ⟨item.signalId, item.reading, published, published && s.outcomes item.signalId⟩

/-- The last value that a call confirms is that of its last GOOD reading with a confirmed publish.
-/
theorem lastConfirmed_settledEvents (e : Engine) (s : SettledCall) (id : String) :
    lastConfirmed id (settledEvents e s) =
      (((itemsOf s.call id).filter fun item =>
        decide (item.reading.quality = .good) && (eventOf e s item).confirmed).getLast?).map
          (·.reading.value) := by
  have hfilter : (settledEvents e s).filter (fun ev =>
      decide (ev.signalId = id ∧ ev.reading.quality = .good) && ev.confirmed) =
        ((itemsOf s.call id).filter fun item =>
          decide (item.reading.quality = .good) && (eventOf e s item).confirmed).map
            (eventOf e s) := by
    unfold settledEvents itemsOf
    rw [List.filter_map, List.filter_filter]
    congr 1
    apply List.filter_congr
    intro item _
    simp only [Function.comp, eventOf, Bool.decide_and]
    cases decide (item.signalId = id) <;> simp
  unfold lastConfirmed
  rw [hfilter, List.getLast?_map, Option.map_map]
  rfl

/-- The value a call confirms for a signal becomes its committed one. -/
theorem committed_settledStep {s : SettledCall} (hs : s.call.Distinct) (e : Engine)
    (id : String) (hidle : (e.signal id).pending = none) :
    ((settledStep e s).signal id).committed =
      (lastConfirmed id (settledEvents e s)).or (e.signal id).committed ∧
        ((settledStep e s).signal id).pending = none := by
  rw [lastConfirmed_settledEvents]
  by_cases hmem : ∃ item ∈ s.call.items, item.signalId = id
  · obtain ⟨item, hitem, rfl⟩ := hmem
    have hsettled := settledStep_item hs e hitem hidle
    have hin : publishedIn (s.call.run 0 e).2 item.signalId =
        s.call.admits item (e.signal item.signalId) := by
      have hiff := publishedIn_iff item.signalId (s.call.run 0 e).2
      rw [hsettled.published] at hiff
      cases hadmits : s.call.admits item (e.signal item.signalId) with
      | true =>
        rw [hadmits] at hiff
        exact hiff.mpr (by simp)
      | false =>
        rw [hadmits] at hiff
        rw [Bool.eq_false_iff]
        exact fun h => hiff.mp h rfl
    refine ⟨?_, hsettled.pending⟩
    have hconfirmed : (eventOf e s item).confirmed =
        (s.call.admits item (e.signal item.signalId) && s.outcomes item.signalId) := by
      simp only [eventOf, hin]
    rw [hsettled.committed, itemsOf_eq hs hitem, List.filter_cons, hconfirmed, List.filter_nil]
    cases s.call.admits item (e.signal item.signalId) <;>
      cases s.outcomes item.signalId <;>
      by_cases hgood : item.reading.quality = .good <;> simp [hgood]
  · have hnone : ∀ item ∈ s.call.items, item.signalId ≠ id := by
      intro item hitem hid
      exact hmem ⟨item, hitem, hid⟩
    rw [(settledStep_other s e hnone).1, itemsOf_eq_nil hnone]
    exact ⟨rfl, hidle⟩

/-! ## Runs -/

/-- The events of a run are those of its parts, the later from where the earlier leads. -/
theorem gateEvents_append (e : Engine) (xs ys : List SettledCall) :
    gateEvents e (xs ++ ys) = gateEvents e xs ++ gateEvents (runSteps settledStep e xs) ys := by
  induction xs generalizing e with
  | nil => rfl
  | cons s steps ih =>
    simp only [List.cons_append, gateEvents, ih, List.append_assoc]
    rfl

/-- Between settled calls nothing is pending and the baseline is the last confirmed value. -/
theorem idle_run {steps : List SettledCall} (hsteps : ∀ s ∈ steps, s.call.Distinct)
    (start : Instant) (id : String) :
    ((runSteps settledStep (Engine.new start) steps).signal id).pending = none ∧
      ((runSteps settledStep (Engine.new start) steps).signal id).committed =
        lastConfirmed id (gateEvents (Engine.new start) steps) := by
  induction steps using List.reverseRecOn with
  | nil => exact ⟨rfl, rfl⟩
  | append_singleton steps s ih =>
    obtain ⟨hidle, hcommitted⟩ := ih (fun s' hs' => hsteps s' (List.mem_append_left _ hs'))
    have hs : s.call.Distinct := hsteps s (by simp)
    obtain ⟨hc, hp⟩ := committed_settledStep hs _ id hidle
    have hrun : runSteps settledStep (Engine.new start) (steps ++ [s]) =
        settledStep (runSteps settledStep (Engine.new start) steps) s := by
      simp [runSteps]
    rw [hrun, gateEvents_append]
    refine ⟨hp, ?_⟩
    rw [hc, hcommitted, lastConfirmed_append]
    simp [gateEvents]

/-- What a failed publish leaves of an admitted reading. -/
theorem ownStep_failed (c : EngineCall) (item : GateItem) {st : SignalState}
    (hidle : st.pending = none) :
    { ownStep c item false st with lastEligible := st.lastEligible } =
      st.seen item.reading.quality c.now := by
  have hseen : (st.seen item.reading.quality c.now).lastEligible = st.lastEligible := by
    unfold SignalState.seen
    split <;> rfl
  unfold ownStep
  cases hadmits : c.admits item st with
  | false =>
    have hgate : c.gate 0 item st = _ := gate_refused hadmits
    rw [hgate]
    simp only [← hseen]
  | true =>
    obtain ⟨st', hgate, hin, hbatcher⟩ := gate_unbatched hadmits
    rw [hgate]
    have hpending := hin.pending
    rw [pendingAfter, hidle] at hpending
    have hcommitted := hin.committed
    have hgoodAt := hin.lastGood
    obtain ⟨committed, pending, lastGood, lastEligible, batcher⟩ := st'
    simp only at hpending hcommitted hgoodAt hbatcher
    subst hcommitted hgoodAt hbatcher hpending
    by_cases hgood : item.reading.quality = .good
    · simp [SignalState.settle, SignalState.seen, hgood, hidle]
    · simp only [SignalState.settle, SignalState.seen, hgood, if_false]
      rw [← hidle]

/-- A poll reading leaves the eligible time alone, whatever becomes of it. -/
theorem ownStep_lastEligible {c : EngineCall} {group : PollGroup} {readings : List Reading}
    (hkind : c.kind = .group group readings) (item : GateItem) (confirmed : Bool)
    (st : SignalState) : (ownStep c item confirmed st).lastEligible = st.lastEligible := by
  have hseen : (st.seen item.reading.quality c.now).lastEligible = st.lastEligible := by
    unfold SignalState.seen
    split <;> rfl
  have hsettle : ∀ (s : SignalState) (b : Bool), (s.settle b).lastEligible = s.lastEligible := by
    intro s b
    unfold SignalState.settle
    split <;> rfl
  have hgate : (c.gate 0 item st).1.lastEligible = st.lastEligible := by
    cases hadmits : c.admits item st with
    | false =>
      rw [gate_refused hadmits]
      exact hseen
    | true =>
      rw [gate_admitted hadmits]
      simp only [SignalState.gateIn, touched, hkind]
      split <;> exact hseen
  unfold ownStep
  split
  · rename_i st' samples h
    rw [hsettle, ← hgate, h]
  · rename_i st' outcome h
    rw [← hgate, h]

/-- The gate compares with what reached the bus. Between calls nothing is pending and the
baseline is the last confirmed GOOD value; a reading is published when it is not GOOD or is
news to that baseline; a failed publish leaves the state of a reading that was not gated in,
but for the eligible time a push engine notes; and every signal goes its own way. -/
theorem gate_compares_with_bus (start : Instant) (steps : List SettledCall)
    (hsteps : ∀ s ∈ steps, s.call.Distinct) (s : SettledCall) (hs : OnChange s.call) :
    let e := runSteps settledStep (Engine.new start) steps
    (∀ id, (e.signal id).pending = none ∧
        (e.signal id).committed = lastConfirmed id (gateEvents (Engine.new start) steps)) ∧
      (∀ item ∈ s.call.items,
        let before := e.signal item.signalId
        let after := (settledStep e s).signal item.signalId
        publishedFor item.signalId (s.call.run 0 e).2 =
            (if item.reading.quality ≠ .good ∨ isNews before.committed item = true then
              [[s.call.sample item]] else []) ∧
          after = ownStep s.call item (s.outcomes item.signalId) before ∧
          (s.outcomes item.signalId = false →
            { after with lastEligible := before.lastEligible } =
                before.seen item.reading.quality s.call.now ∧
              ((∃ group readings, s.call.kind = .group group readings) →
                after = before.seen item.reading.quality s.call.now))) ∧
      ∀ id, (∀ item ∈ s.call.items, item.signalId ≠ id) →
        (settledStep e s).signal id = e.signal id := by
  intro e
  have hidle := idle_run hsteps start
  refine ⟨hidle, fun item hitem => ?_, fun id hid => (settledStep_other s e hid).1⟩
  have hpending := (hidle item.signalId).1
  have hsettled := settledStep_item hs.distinct e hitem hpending
  refine ⟨?_, hsettled.own, fun hfailed => ?_⟩
  · rw [hsettled.published, admits_of_idle hs item hpending]
    simp only [Bool.or_eq_true, decide_eq_true_eq]
    rfl
  · have hown := hsettled.own
    rw [hfailed] at hown
    have hleaves := ownStep_failed s.call item hpending
    rw [hown]
    refine ⟨hleaves, ?_⟩
    rintro ⟨group, readings, hkind⟩
    have heligible := ownStep_lastEligible hkind item false (e.signal item.signalId)
    rw [← hleaves, ← heligible]

/-- A GOOD or BAD reading of the one signal of a small group. -/
def speedReading (value : Json) (quality : Quality) : Reading :=
  ⟨"LINE_SPEED", none, value, quality, none, none⟩

def speedGroup : PollGroup :=
  ⟨none, [⟨"line-speed", "LINE_SPEED", .dint, none, none, none, {}⟩]⟩

/-- A settled poll of the group. -/
def speedPoll (value : Json) (quality : Quality) (confirmed : Bool) : SettledCall :=
  ⟨⟨.group speedGroup [speedReading value quality], .onChange, 1000, "t"⟩, fun _ => confirmed⟩

/-- Such a poll has one signal and no floor. -/
theorem speedPoll_onChange (value : Json) (quality : Quality) (confirmed : Bool) :
    OnChange (speedPoll value quality confirmed).call :=
  ⟨rfl, List.nodup_singleton _, trivial⟩

/-- A value whose publish failed is published again on its next reading. -/
theorem gate_compares_with_bus_retry :
    let e := settledStep (Engine.new 0) (speedPoll (.ofNat 5) .good false)
    publishedFor "LINE_SPEED" ((speedPoll (.ofNat 5) .good true).call.run 0 e).2 =
      [[sampleOf (.ofNat 5) .good none (some "t")]] := by
  intro e
  have hsteps : ∀ s ∈ [speedPoll (.ofNat 5) .good false], s.call.Distinct := by
    intro s hs
    rw [List.mem_singleton.mp hs]
    exact (speedPoll_onChange _ _ _).distinct
  have hgate := gate_compares_with_bus 0 [speedPoll (.ofNat 5) .good false] hsteps
    (speedPoll (.ofNat 5) .good true) (speedPoll_onChange _ _ _)
  exact (hgate.2.1 ⟨"LINE_SPEED", speedReading (.ofNat 5) .good, {}⟩ List.mem_cons_self).1

/-- A push reading whose publish failed has moved the eligible time of its signal all the
same. -/
theorem failed_push_publish_is_eligible :
    let s : SettledCall :=
      ⟨⟨.frame [speedReading (.ofNat 5) .good] [] 0, .onChange, 1000, "t"⟩, fun _ => false⟩
    OnChange s.call ∧
      (settledStep (Engine.new 0) s).signal "LINE_SPEED" ≠
        ((Engine.new 0).signal "LINE_SPEED").seen .good 1000 := by
  intro s
  refine ⟨⟨rfl, List.nodup_singleton _, rfl⟩, fun h => ?_⟩
  have heligible : some 1000 = none := congrArg SignalState.lastEligible h
  cases heligible

/-! ## Recovery -/

/-- The last GOOD sample is that of the later list, if there is one. -/
theorem lastGoodSample_append (xs ys : List Sample) :
    lastGoodSample (xs ++ ys) = (lastGoodSample ys).or (lastGoodSample xs) := by
  simp [lastGoodSample, List.getLast?_append]

/-- What a run publishes is what its parts do, the later from where the earlier leads. -/
theorem publishedLog_append (id : String) (e : Engine) (xs ys : List SettledCall) :
    publishedLog id e (xs ++ ys) =
      publishedLog id e xs ++ publishedLog id (runSteps settledStep e xs) ys := by
  induction xs generalizing e with
  | nil => rfl
  | cons s steps ih =>
    simp only [List.cons_append, publishedLog, ih, List.append_assoc]
    rfl

/-- What a settled call publishes for a signal it has a reading of. -/
theorem flatten_publishedFor {s : SettledCall} (hs : s.call.Distinct) (e : Engine)
    {item : GateItem} (hitem : item ∈ s.call.items)
    (hidle : (e.signal item.signalId).pending = none) :
    (publishedFor item.signalId (s.call.run 0 e).2).flatten =
      if s.call.admits item (e.signal item.signalId) then [s.call.sample item] else [] := by
  rw [(settledStep_item hs e hitem hidle).published]
  split <;> rfl

/-- When every publish is confirmed the baseline is the last GOOD value published. -/
theorem committed_eq_lastGood {steps : List SettledCall}
    (hsteps : ∀ s ∈ steps, s.call.Distinct ∧ ∀ id, s.outcomes id = true) (start : Instant)
    (id : String) :
    ((runSteps settledStep (Engine.new start) steps).signal id).committed =
      (lastGoodSample (publishedLog id (Engine.new start) steps)).map (·.value) := by
  induction steps using List.reverseRecOn with
  | nil => rfl
  | append_singleton steps s ih =>
    have hprev : ∀ s' ∈ steps, s'.call.Distinct ∧ ∀ id, s'.outcomes id = true :=
      fun s' hs' => hsteps s' (List.mem_append_left _ hs')
    obtain ⟨hdistinct, hconfirmed⟩ := hsteps s (by simp)
    have hidle := (idle_run (fun s' hs' => (hprev s' hs').1) start id).1
    have ih' := ih hprev
    have hrun : runSteps settledStep (Engine.new start) (steps ++ [s]) =
        settledStep (runSteps settledStep (Engine.new start) steps) s := by
      simp [runSteps]
    rw [hrun, publishedLog_append, lastGoodSample_append]
    generalize runSteps settledStep (Engine.new start) steps = e at *
    simp only [publishedLog, List.append_nil]
    by_cases hmem : ∃ item ∈ s.call.items, item.signalId = id
    · obtain ⟨item, hitem, rfl⟩ := hmem
      rw [(settledStep_item hdistinct e hitem hidle).committed, hconfirmed,
        flatten_publishedFor hdistinct e hitem hidle]
      cases s.call.admits item (e.signal item.signalId) with
      | false => simpa [lastGoodSample] using ih'
      | true =>
        by_cases hgood : item.reading.quality = .good
        · simp [lastGoodSample, EngineCall.sample, sampleOf, hgood]
        · simpa [lastGoodSample, EngineCall.sample, sampleOf, hgood] using ih'
    · have hnone : ∀ item ∈ s.call.items, item.signalId ≠ id := by
        intro item hitem hid
        exact hmem ⟨item, hitem, hid⟩
      obtain ⟨hsame, hpub⟩ := settledStep_other s e hnone
      rw [hsame, hpub]
      simpa [lastGoodSample] using ih'

/-- What a reading adds to the samples on the bus: a sample of its own when it is not GOOD, or its
value is news to the last GOOD value published. -/
theorem publishedLog_snoc {steps : List SettledCall}
    (hsteps : ∀ s ∈ steps, s.call.Distinct ∧ ∀ id, s.outcomes id = true) (start : Instant)
    {s : SettledCall} (hs : OnChange s.call) {item : GateItem} (hitem : item ∈ s.call.items) :
    publishedLog item.signalId (Engine.new start) (steps ++ [s]) =
      publishedLog item.signalId (Engine.new start) steps ++
        if decide (item.reading.quality ≠ .good) || isNews ((lastGoodSample
          (publishedLog item.signalId (Engine.new start) steps)).map (·.value)) item
        then [s.call.sample item] else [] := by
  have hdistinct : ∀ s' ∈ steps, s'.call.Distinct := fun s' hs' => (hsteps s' hs').1
  have hidle := (idle_run hdistinct start item.signalId).1
  have hadmits := admits_of_idle hs item hidle
  rw [committed_eq_lastGood hsteps start item.signalId] at hadmits
  rw [publishedLog_append]
  simp only [publishedLog, List.append_nil]
  rw [flatten_publishedFor hs.distinct _ hitem hidle, hadmits]

/-- A reading that is not GOOD is published, repeated or not, and leaves the baseline; a GOOD one is
published exactly when its value is news to the last GOOD value published. So after a reading the
last sample on the bus has its quality exactly when the reading is not GOOD, when the sample before
it was GOOD already, or when its value is news. -/
theorem last_quality_shown_iff (start : Instant) (steps : List SettledCall)
    (hsteps : ∀ s ∈ steps, s.call.Distinct ∧ ∀ id, s.outcomes id = true) (s : SettledCall)
    (hs : OnChange s.call) (item : GateItem) (hitem : item ∈ s.call.items) :
    let engine := runSteps settledStep (Engine.new start) steps
    let before := publishedLog item.signalId (Engine.new start) steps
    let after := publishedLog item.signalId (Engine.new start) (steps ++ [s])
    let news := isNews ((lastGoodSample before).map (·.value)) item
    (item.reading.quality ≠ .good →
      after = before ++ [s.call.sample item] ∧
        ((settledStep engine s).signal item.signalId).committed =
          (engine.signal item.signalId).committed) ∧
    (item.reading.quality = .good →
      after = if news then before ++ [s.call.sample item] else before) ∧
    (after.getLast?.map (·.quality) = some item.reading.quality ↔
      item.reading.quality ≠ .good ∨ before.getLast?.map (·.quality) = some .good ∨
        news = true) := by
  intro engine before after news
  have hdistinct : ∀ s' ∈ steps, s'.call.Distinct := fun s' hs' => (hsteps s' hs').1
  have hidle := (idle_run hdistinct start item.signalId).1
  have hafter : after = before ++ if decide (item.reading.quality ≠ .good) || news
      then [s.call.sample item] else [] := publishedLog_snoc hsteps start hs hitem
  refine ⟨fun hbad => ⟨?_, ?_⟩, fun hgood => ?_, ?_⟩
  · rw [hafter, decide_eq_true hbad, Bool.true_or, if_pos rfl]
  · have hcommitted := (settledStep_item hs.distinct engine hitem hidle).committed
    rw [if_neg fun h => hbad h.2.1] at hcommitted
    exact hcommitted
  · rw [hafter, decide_eq_false (not_not_intro hgood), Bool.false_or]
    cases news with
    | true => rfl
    | false => exact List.append_nil before
  · rw [hafter]
    by_cases hgood : item.reading.quality = .good
    · cases hnews : news with
      | true => simp [hgood, EngineCall.sample, sampleOf]
      | false => simp [hgood]
    · simp [hgood, EngineCall.sample, sampleOf]

/-- An outage is published reading by reading, and a signal that comes back with another value is
shown as recovered. -/
theorem last_quality_shown_iff_recovery :
    publishedLog "LINE_SPEED" (Engine.new 0)
        ([speedPoll (.ofNat 5) .good true, speedPoll .null .bad true] ++
          [speedPoll .null .bad true]) =
      publishedLog "LINE_SPEED" (Engine.new 0)
          [speedPoll (.ofNat 5) .good true, speedPoll .null .bad true] ++
        [⟨.null, .bad, none, "t"⟩] ∧
    (publishedLog "LINE_SPEED" (Engine.new 0)
      ([speedPoll (.ofNat 5) .good true, speedPoll .null .bad true] ++
        [speedPoll (.ofNat 6) .good true])).getLast?.map (·.quality) = some .good := by
  have hsteps : ∀ s ∈ [speedPoll (.ofNat 5) .good true, speedPoll .null .bad true],
      s.call.Distinct ∧ ∀ id, s.outcomes id = true := by
    intro s hs
    rcases List.mem_cons.mp hs with rfl | hs
    · exact ⟨(speedPoll_onChange _ _ _).distinct, fun _ => rfl⟩
    · rw [List.mem_singleton.mp hs]
      exact ⟨(speedPoll_onChange _ _ _).distinct, fun _ => rfl⟩
  refine ⟨?_, ?_⟩
  · have hbad := (last_quality_shown_iff 0 _ hsteps (speedPoll .null .bad true)
      (speedPoll_onChange _ _ _) ⟨"LINE_SPEED", speedReading .null .bad, {}⟩
      List.mem_cons_self).1
    exact (hbad (by decide)).1
  · apply (last_quality_shown_iff 0 _ hsteps (speedPoll (.ofNat 6) .good true)
      (speedPoll_onChange _ _ _) ⟨"LINE_SPEED", speedReading (.ofNat 6) .good, {}⟩
      List.mem_cons_self).2.2.mpr
    refine .inr (.inr ?_)
    decide +kernel

/-- A signal that comes back with its old value is not: the last sample stays BAD. -/
theorem unchanged_recovery_is_silent :
    (∀ s ∈ [speedPoll (.ofNat 5) .good true, speedPoll .null .bad true,
        speedPoll (.ofNat 5) .good true], OnChange s.call ∧ ∀ id, s.outcomes id = true) ∧
      ((publishedLog "LINE_SPEED" (Engine.new 0)
        [speedPoll (.ofNat 5) .good true, speedPoll .null .bad true,
          speedPoll (.ofNat 5) .good true]).getLast?.map (·.quality)) = some .bad := by
  refine ⟨fun s hs => ?_, by decide +kernel⟩
  simp only [List.mem_cons, List.not_mem_nil, or_false] at hs
  rcases hs with rfl | rfl | rfl <;> exact ⟨speedPoll_onChange _ _ _, fun _ => rfl⟩

end EnipAdapter.Analysis
