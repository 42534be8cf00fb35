import EnipAdapter.Analysis.Batching

/-!
# Batching against not batching

Two engines take the same calls, one coalescing windows and one publishing at once. The
unbatched baseline is the batched pending value if there is one, else the batched committed
value; the two gates differ only for a reading that returns to the committed value while
another one is in the open window.
-/

set_option autoImplicit false

namespace EnipAdapter.Analysis

open EnipAdapter.Foundation EnipAdapter.Model EnipAdapter.Interface

/-! ## Two states of a signal -/

/-- A batched state and the state the same readings leave without batching. -/
structure Follows (st st' : SignalState) : Prop where
  holds : ∃ held, Holds st held
  idle : st'.pending = none
  baseline : st'.committed = st.pending.or st.committed

/-- Two signals that have seen nothing follow one another. -/
theorem follows_default : Follows default default := ⟨⟨[], holds_default⟩, rfl, rfl⟩

/-- The two gates agree on a reading that does not return. -/
theorem admits_follows {c : EngineCall} (hc : OnChange c) (item : GateItem)
    {st st' : SignalState} (h : Follows st st') (hreturn : ¬ Returns st item) :
    c.admits item st' = c.admits item st := by
  rw [admits_batched hc, admits_batched hc, h.idle, h.baseline]
  by_cases hgood : item.reading.quality = .good
  · cases hp : st.pending with
    | none => simp [isNews]
    | some p =>
      cases hcommitted : st.committed with
      | none => simp [isNews]
      | some b =>
        simp only [isNews, Option.some_or, Option.all_some, Option.all_none, Bool.and_true]
        cases hchanged : valueChanged p item.reading.value item.deadband with
        | false => simp
        | true =>
          cases hback : valueChanged b item.reading.value item.deadband with
          | true => simp
          | false => exact absurd ⟨hgood, b, p, hcommitted, hp, hback, hchanged⟩ hreturn
  · simp [hgood]

/-- A reading that returns is refused by the batched gate and admitted by the other. -/
theorem admits_returns {c : EngineCall} (hc : OnChange c) {item : GateItem}
    {st st' : SignalState} (h : Follows st st') (hreturn : Returns st item) :
    c.admits item st = false ∧ c.admits item st' = true := by
  obtain ⟨hgood, b, p, hcommitted, hpending, hback, hchanged⟩ := hreturn
  rw [admits_batched hc, admits_batched hc, h.idle, h.baseline, hpending, hcommitted]
  simp [isNews, hgood, hback, hchanged]

/-! ## One call -/

/-- What a call does to a signal in a batching engine. -/
theorem batched_call {batchMs : ℕ} (hpos : 0 < batchMs) {c : EngineCall} (hc : c.Distinct)
    (e : Engine) {item : GateItem} (hitem : item ∈ c.items)
    (hholds : ∃ held, Holds (e.signal item.signalId) held) :
    (∃ held, Holds ((c.run batchMs e).1.signal item.signalId) held) ∧
      ((c.run batchMs e).1.signal item.signalId).committed = (e.signal item.signalId).committed ∧
      ((c.run batchMs e).1.signal item.signalId).pending =
        (if c.admits item (e.signal item.signalId) then pendingAfter item (e.signal item.signalId)
          else (e.signal item.signalId).pending) ∧
      ((c.run batchMs e).1.signal item.signalId).batcher.buffer =
        (e.signal item.signalId).batcher.buffer ++
          if c.admits item (e.signal item.signalId) then [c.sample item] else [] := by
  obtain ⟨held, hheld⟩ := hholds
  obtain ⟨hgate, hcommitted⟩ := holds_gate c hpos item hheld
  rw [signal_run, itemsOf_eq hc hitem]
  simp only [foldState]
  refine ⟨⟨_, hgate⟩, hcommitted, ?_, ?_⟩
  · cases hadmits : c.admits item (e.signal item.signalId) with
    | false =>
      rw [gate_refused hadmits]
      simp only [Bool.false_eq_true, if_false, SignalState.seen]
      split <;> rfl
    | true =>
      obtain ⟨st', heq, hin, -⟩ := gate_batched hpos hadmits
      rw [heq]
      exact hin.pending
  · cases hadmits : c.admits item (e.signal item.signalId) with
    | false =>
      rw [gate_refused hadmits]
      simp only [Bool.false_eq_true, if_false, List.append_nil, SignalState.seen]
      split <;> rfl
    | true =>
      obtain ⟨st', heq, -, hbuffer, -⟩ := gate_batched hpos hadmits
      rw [heq]
      exact hbuffer

/-- The call without batching, its publish confirmed. -/
def confirmedCall (c : EngineCall) : SettledCall := ⟨c, fun _ => true⟩

/-- A call in which the signal does not return takes both engines one step on: what one
publishes the other buffers. -/
theorem follows_call {batchMs : ℕ} (hpos : 0 < batchMs) {c : EngineCall} (hc : OnChange c)
    {e e' : Engine} {id : String} (h : Follows (e.signal id) (e'.signal id))
    (hreturn : NoReturn id e (.call c)) :
    Follows ((c.run batchMs e).1.signal id) ((settledStep e' (confirmedCall c)).signal id) ∧
      ((c.run batchMs e).1.signal id).batcher.buffer =
        (e.signal id).batcher.buffer ++ (publishedFor id (c.run 0 e').2).flatten := by
  by_cases hmem : ∃ item ∈ c.items, item.signalId = id
  · obtain ⟨item, hitem, rfl⟩ := hmem
    have hadmits := admits_follows hc item h (hreturn item hitem rfl)
    obtain ⟨hheld, hcommitted, hpending, hbuffer⟩ := batched_call hpos hc.distinct e hitem h.holds
    have hsettled := settledStep_item (s := confirmedCall c) hc.distinct e' hitem h.idle
    have hpublished := flatten_publishedFor (s := confirmedCall c) hc.distinct e' hitem h.idle
    refine ⟨⟨hheld, hsettled.pending, ?_⟩, ?_⟩
    · rw [hsettled.committed, hpending, hcommitted, h.baseline]
      simp only [confirmedCall, hadmits, pendingAfter]
      cases c.admits item (e.signal item.signalId) with
      | false => simp
      | true =>
        by_cases hgood : item.reading.quality = .good <;> simp [hgood]
    · rw [hbuffer]
      show _ = _ ++ (publishedFor item.signalId ((confirmedCall c).call.run 0 e').2).flatten
      rw [hpublished]
      simp only [confirmedCall, hadmits]
  · have hnone : ∀ item ∈ c.items, item.signalId ≠ id := by
      intro item hitem hid
      exact hmem ⟨item, hitem, hid⟩
    obtain ⟨hsame, hpublished⟩ := settledStep_other (confirmedCall c) e' hnone
    have hbatched : (c.run batchMs e).1.signal id = e.signal id := by
      rw [signal_run, itemsOf_eq_nil hnone]
      rfl
    have hnil : publishedFor id (c.run 0 e').2 = [] := hpublished
    rw [hsame, hbatched, hnil]
    exact ⟨h, by simp⟩

/-- A call in which it returns: the unbatched engine publishes what the other drops. -/
theorem returns_call {batchMs : ℕ} (hpos : 0 < batchMs) {c : EngineCall} (hc : OnChange c)
    {e e' : Engine} {id : String} (h : Follows (e.signal id) (e'.signal id))
    (hreturn : ¬ NoReturn id e (.call c)) :
    ((c.run batchMs e).1.signal id).batcher.buffer = (e.signal id).batcher.buffer ∧
      (publishedFor id (c.run 0 e').2).flatten ≠ [] := by
  simp only [NoReturn, not_forall, not_not] at hreturn
  obtain ⟨item, hitem, rfl, hret⟩ := hreturn
  obtain ⟨hrefused, hadmitted⟩ := admits_returns hc h hret
  obtain ⟨-, -, -, hbuffer⟩ := batched_call hpos hc.distinct e hitem h.holds
  have hpublished := flatten_publishedFor (s := confirmedCall c) hc.distinct e' hitem h.idle
  refine ⟨?_, ?_⟩
  · rw [hbuffer, hrefused]
    simp
  · show (publishedFor item.signalId ((confirmedCall c).call.run 0 e').2).flatten ≠ []
    rw [hpublished]
    simp [confirmedCall, hadmitted]

/-- A flush moves the buffer to the bus and leaves the unbatched baseline where it is. -/
theorem follows_flush {batchMs : ℕ} (hpos : 0 < batchMs) {e : Engine} {st' : SignalState}
    {id : String} (h : Follows (e.signal id) st') (now : Instant) :
    Follows ((flushStep batchMs e now (fun _ => true)).signal id) st' ∧
      (publishedFor id (e.takeDue batchMs now).2).flatten ++
          ((flushStep batchMs e now (fun _ => true)).signal id).batcher.buffer =
        (e.signal id).batcher.buffer := by
  obtain ⟨held, hheld⟩ := h.holds
  rcases holds_flush hpos hheld now (fun _ => true) with
    ⟨-, hpublished, hholds, hcommitted⟩ | ⟨hpublished, hsame⟩
  · refine ⟨⟨⟨_, hholds⟩, h.idle, ?_⟩, ?_⟩
    · rw [hholds.pending, hcommitted, h.baseline, hheld.pending]
      simp [lastGoodSample]
    · rw [hpublished, hholds.buffer, hheld.buffer]
      simp
  · rw [hpublished, hsame]
    exact ⟨⟨⟨_, hheld⟩, h.idle, h.baseline⟩, rfl⟩

/-! ## Runs -/

/-- Before anything happened both engines have published nothing. -/
theorem transparent_nil (batchMs : ℕ) (id : String) (e e' : Engine) :
    Transparent batchMs id e e' [] := by
  simp [Transparent, flushedLog, settledCalls, publishedLog, runSteps]

/-- A flush in front of a run is transparent by itself. -/
theorem transparent_flush {batchMs : ℕ} (hpos : 0 < batchMs) {e e' : Engine} {id : String}
    (h : Follows (e.signal id) (e'.signal id)) (now : Instant) (inputs : List ConfirmedInput) :
    Transparent batchMs id e e' (.flush now :: inputs) ↔
      Transparent batchMs id (confirmedStep batchMs e (.flush now)) e' inputs := by
  have hflush := (follows_flush hpos h now).2
  unfold Transparent
  rw [← hflush]
  show (_ ++ flushedLog batchMs id (confirmedStep batchMs e (.flush now)) inputs) ++ _ = _ ↔ _
  rw [List.append_assoc, List.append_assoc, List.append_cancel_left_eq]
  exact Iff.rfl

/-- So is a call in which the signal does not return. -/
theorem transparent_call {batchMs : ℕ} (hpos : 0 < batchMs) {c : EngineCall} (hc : OnChange c)
    {e e' : Engine} {id : String} (h : Follows (e.signal id) (e'.signal id))
    (hreturn : NoReturn id e (.call c)) (inputs : List ConfirmedInput) :
    Transparent batchMs id e e' (.call c :: inputs) ↔
      Transparent batchMs id (confirmedStep batchMs e (.call c))
        (settledStep e' (confirmedCall c)) inputs := by
  have hbuffer := (follows_call hpos hc h hreturn).2
  unfold Transparent
  show _ ↔ _ = ((c.run batchMs e).1.signal id).batcher.buffer ++ _
  rw [hbuffer, List.append_assoc]
  exact Iff.rfl

/-- A run is transparent throughout exactly when the signal never returns to its committed
value inside a window. -/
theorem transparent_iff_guarded {batchMs : ℕ} (hpos : 0 < batchMs) {id : String}
    {inputs : List ConfirmedInput} (hinputs : ∀ c, ConfirmedInput.call c ∈ inputs → OnChange c)
    {e e' : Engine} (h : Follows (e.signal id) (e'.signal id)) :
    (∀ k, Transparent batchMs id e e' (inputs.take k)) ↔
      Guarded (confirmedStep batchMs) (NoReturn id) e inputs := by
  induction inputs generalizing e e' with
  | nil =>
    refine ⟨fun _ => trivial, fun _ k => ?_⟩
    rw [List.take_nil]
    exact transparent_nil batchMs id e e'
  | cons input inputs ih =>
    have htail : ∀ c, ConfirmedInput.call c ∈ inputs → OnChange c :=
      fun c hc => hinputs c (List.mem_cons_of_mem _ hc)
    -- the run so far is transparent; the rest is when each longer run is
    have hshift : ∀ {e₁ e₁' : Engine}, (∀ xs, Transparent batchMs id e e' (input :: xs) ↔
        Transparent batchMs id e₁ e₁' xs) →
        ((∀ k, Transparent batchMs id e e' ((input :: inputs).take k)) ↔
          ∀ k, Transparent batchMs id e₁ e₁' (inputs.take k)) := by
      intro e₁ e₁' hstep
      constructor
      · intro hall k
        exact (hstep _).mp (hall (k + 1))
      · intro hall k
        cases k with
        | zero => exact transparent_nil batchMs id e e'
        | succ k => exact (hstep _).mpr (hall k)
    cases input with
    | flush now =>
      have hnext : Follows ((confirmedStep batchMs e (.flush now)).signal id) (e'.signal id) :=
        (follows_flush hpos h now).1
      rw [hshift (transparent_flush hpos h now), ih htail hnext]
      exact ⟨fun hg => ⟨trivial, hg⟩, fun hg => hg.2⟩
    | call c =>
      have hc := hinputs c List.mem_cons_self
      by_cases hreturn : NoReturn id e (.call c)
      · have hnext : Follows ((confirmedStep batchMs e (.call c)).signal id)
            ((settledStep e' (confirmedCall c)).signal id) := (follows_call hpos hc h hreturn).1
        rw [hshift (transparent_call hpos hc h hreturn), ih htail hnext]
        exact ⟨fun hg => ⟨hreturn, hg⟩, fun hg => hg.2⟩
      · constructor
        · intro hall
          obtain ⟨hbuffer, hpublished⟩ := returns_call hpos hc h hreturn
          have hone : Transparent batchMs id e e' [.call c] := hall 1
          unfold Transparent at hone
          have hleft : ((runSteps (confirmedStep batchMs) e [.call c]).signal id).batcher.buffer =
              (e.signal id).batcher.buffer := hbuffer
          simp only [flushedLog, List.nil_append, hleft, settledCalls, List.filterMap_cons,
            List.filterMap_nil, publishedLog, List.append_nil, List.self_eq_append_right] at hone
          exact absurd hone hpublished
        · exact fun hg => absurd hg.1 hreturn

/-! ## The last value -/

/-- The last GOOD reading of a run is that of its later part, if there is one. -/
theorem lastGoodReading_append (id : String) (xs ys : List SettledCall) :
    lastGoodReading id (xs ++ ys) = (lastGoodReading id ys).or (lastGoodReading id xs) := by
  simp [lastGoodReading, List.getLast?_append]

/-- The GOOD reading of a signal in one call. -/
theorem lastGoodReading_singleton {s : SettledCall} {id : String} {item : GateItem}
    (h : lastGoodReading id [s] = some item) :
    item ∈ s.call.items ∧ item.signalId = id ∧ item.reading.quality = .good := by
  have hmem := List.mem_of_getLast? h
  simpa using hmem

/-- A call without a last GOOD reading of a signal has no GOOD reading of it at all. -/
theorem lastGoodReading_none {s : SettledCall} {id : String} (h : lastGoodReading id [s] = none)
    {item : GateItem} (hitem : item ∈ s.call.items) (hid : item.signalId = id) :
    item.reading.quality ≠ .good := by
  intro hgood
  have hnil := List.getLast?_eq_none_iff.mp h
  have hmem : item ∈ ([s].flatMap (fun s => s.call.items)).filter fun item =>
      decide (item.signalId = id ∧ item.reading.quality = .good) := by
    simp [hitem, hid, hgood]
  rw [hnil] at hmem
  cases hmem

/-- After a settled call with a GOOD reading of a signal, its baseline is that value, as far as
the gate can tell. -/
theorem committed_of_good {s : SettledCall} (hs : OnChange s.call) {e : Engine} {item : GateItem}
    (hconfirmed : s.outcomes item.signalId = true) (hmem : item ∈ s.call.items)
    (hgood : item.reading.quality = .good) (hidle : (e.signal item.signalId).pending = none) :
    ∃ v, ((settledStep e s).signal item.signalId).committed = some v ∧
      (v = item.reading.value ∨ valueChanged v item.reading.value item.deadband = false) := by
  rw [(settledStep_item hs.distinct e hmem hidle).committed, hconfirmed]
  have hadmits := admits_of_idle hs item hidle
  cases hnews : isNews (e.signal item.signalId).committed item with
  | true =>
    rw [hnews, Bool.or_true] at hadmits
    rw [if_pos ⟨hadmits, hgood, rfl⟩]
    exact ⟨_, rfl, .inl rfl⟩
  | false =>
    -- what is refused is no change from the baseline, so there is one
    rw [hnews, hgood] at hadmits
    have hrefused : s.call.admits item (e.signal item.signalId) = false := hadmits
    rw [hrefused]
    simp only [Bool.false_eq_true, false_and, if_false]
    unfold isNews at hnews
    cases hcommitted : (e.signal item.signalId).committed with
    | none =>
      rw [hcommitted] at hnews
      cases hnews
    | some v =>
      rw [hcommitted] at hnews
      exact ⟨v, rfl, .inr hnews⟩

/-- A settled call without a GOOD reading of a signal leaves its baseline. -/
theorem committed_without_good {s : SettledCall} (hs : s.call.Distinct) {e : Engine} {id : String}
    (hlast : lastGoodReading id [s] = none) (hidle : (e.signal id).pending = none) :
    ((settledStep e s).signal id).committed = (e.signal id).committed := by
  by_cases hmem : ∃ i ∈ s.call.items, i.signalId = id
  · obtain ⟨i, hi, rfl⟩ := hmem
    have hbad := lastGoodReading_none hlast hi rfl
    rw [(settledStep_item hs e hi hidle).committed, if_neg (fun h => hbad h.2.1)]
  · have hnone : ∀ i ∈ s.call.items, i.signalId ≠ id := by
      intro i hi hid
      exact hmem ⟨i, hi, hid⟩
    rw [(settledStep_other s e hnone).1]

/-- Without batching the last GOOD value published is the last GOOD value read, as far as the
gate can tell them apart. -/
theorem last_good_published {steps : List SettledCall}
    (hsteps : ∀ s ∈ steps, OnChange s.call ∧ ∀ id, s.outcomes id = true) (start : Instant)
    (id : String) {item : GateItem} (hitem : lastGoodReading id steps = some item) :
    ∃ g, lastGoodSample (publishedLog id (Engine.new start) steps) = some g ∧
      (g.value = item.reading.value ∨
        valueChanged g.value item.reading.value item.deadband = false) := by
  have hall : ∀ s ∈ steps, s.call.Distinct ∧ ∀ id, s.outcomes id = true :=
    fun s hs => ⟨(hsteps s hs).1.distinct, (hsteps s hs).2⟩
  -- it is enough that the baseline is that value
  suffices hbase : ∃ v, ((runSteps settledStep (Engine.new start) steps).signal id).committed =
      some v ∧ (v = item.reading.value ∨
        valueChanged v item.reading.value item.deadband = false) by
    obtain ⟨v, hv, hsame⟩ := hbase
    rw [committed_eq_lastGood hall start id] at hv
    obtain ⟨g, hg, rfl⟩ := Option.map_eq_some_iff.mp hv
    exact ⟨g, hg, hsame⟩
  induction steps using List.reverseRecOn with
  | nil => cases hitem
  | append_singleton steps s ih =>
    have hprev : ∀ s' ∈ steps, OnChange s'.call ∧ ∀ id, s'.outcomes id = true :=
      fun s' hs' => hsteps s' (List.mem_append_left _ hs')
    obtain ⟨hs, hconfirmed⟩ := hsteps s (by simp)
    have hidle := (idle_run (fun s' hs' => (hprev s' hs').1.distinct) start id).1
    have hrun : runSteps settledStep (Engine.new start) (steps ++ [s]) =
        settledStep (runSteps settledStep (Engine.new start) steps) s := by
      simp [runSteps]
    rw [hrun]
    rw [lastGoodReading_append] at hitem
    cases hlast : lastGoodReading id [s] with
    | some found =>
      rw [hlast] at hitem
      cases hitem
      obtain ⟨hmem, rfl, hgood⟩ := lastGoodReading_singleton hlast
      exact committed_of_good hs (hconfirmed _) hmem hgood hidle
    | none =>
      rw [hlast, Option.none_or] at hitem
      obtain ⟨v, hv, hsame⟩ := ih hprev hitem (fun s' hs' => hall s' (List.mem_append_left _ hs'))
      refine ⟨v, ?_, hsame⟩
      rw [committed_without_good hs.distinct hlast hidle]
      exact hv

/-- Batching is transparent throughout a run exactly when the signal never returns to its
committed value while another is in the open window. Then, once the last window is flushed,
the last GOOD value on the bus is the last GOOD value read, as far as the gate can tell. -/
theorem batching_transparent_iff (batchMs : ℕ) (hpos : 0 < batchMs) (start : Instant)
    (inputs : List ConfirmedInput) (hinputs : ∀ c, ConfirmedInput.call c ∈ inputs → OnChange c)
    (id : String) :
    ((∀ k, Transparent batchMs id (Engine.new start) (Engine.new start) (inputs.take k)) ↔
        Guarded (confirmedStep batchMs) (NoReturn id) (Engine.new start) inputs) ∧
      (Guarded (confirmedStep batchMs) (NoReturn id) (Engine.new start) inputs →
        ((runSteps (confirmedStep batchMs) (Engine.new start) inputs).signal id).batcher.buffer =
            [] →
          ∀ item, lastGoodReading id (settledCalls inputs) = some item →
            ∃ g, lastGoodSample (flushedLog batchMs id (Engine.new start) inputs) = some g ∧
              (g.value = item.reading.value ∨
                valueChanged g.value item.reading.value item.deadband = false)) := by
  have hfollows : Follows ((Engine.new start).signal id) ((Engine.new start).signal id) :=
    follows_default
  have hiff := transparent_iff_guarded hpos hinputs hfollows
  refine ⟨hiff, fun hguarded hempty item hitem => ?_⟩
  have hall := hiff.mpr hguarded inputs.length
  rw [List.take_length] at hall
  unfold Transparent at hall
  rw [hempty, List.append_nil] at hall
  have hlog : flushedLog batchMs id (Engine.new start) inputs =
      publishedLog id (Engine.new start) (settledCalls inputs) := hall
  rw [hlog]
  apply last_good_published ?_ start id hitem
  intro s hs
  obtain ⟨input, hmem, hsome⟩ := List.mem_filterMap.mp hs
  cases input with
  | flush now => cases hsome
  | call c =>
    cases hsome
    exact ⟨hinputs c hmem, fun _ => rfl⟩

/-- A poll of the small group at an instant. -/
def speedCall (value : ℕ) (now : Instant) : EngineCall :=
  ⟨.group speedGroup [speedReading (.ofNat value) .good], .onChange, now, "t"⟩

/-- Such a poll has one signal and no floor. -/
theorem speedCall_onChange (value : ℕ) (now : Instant) : OnChange (speedCall value now) :=
  ⟨rfl, List.nodup_singleton _, trivial⟩

/-- Two values in one window, flushed together. -/
theorem batching_transparent_iff_window :
    Transparent 100 "LINE_SPEED" (Engine.new 0) (Engine.new 0)
      [.call (speedCall 5 0), .call (speedCall 6 1), .flush 100000000] := by
  have hinputs : ∀ c, ConfirmedInput.call c ∈
      [.call (speedCall 5 0), .call (speedCall 6 1), .flush 100000000] → OnChange c := by
    intro c hc
    simp only [List.mem_cons, ConfirmedInput.call.injEq, List.not_mem_nil, or_false,
      reduceCtorEq] at hc
    rcases hc with rfl | rfl <;> exact speedCall_onChange _ _
  have hiff := (batching_transparent_iff 100 (by decide) 0 _ hinputs "LINE_SPEED").1
  have hfirst : ∀ e : Engine, (e.signal "LINE_SPEED").committed = none → ∀ c : EngineCall,
      NoReturn "LINE_SPEED" e (.call c) := by
    rintro e hnone c item - - ⟨-, b, p, hb, -⟩
    rw [hnone] at hb
    cases hb
  exact hiff.mpr ⟨hfirst _ rfl _, hfirst _ rfl _, trivial, trivial⟩ 3

/-- The value 5 is on the bus, 6 is in the open window, and 5 is read again: it is dropped,
and the last value on the bus is 6. -/
theorem returning_value_is_dropped :
    let inputs : List ConfirmedInput :=
      [.call (speedCall 5 0), .flush 100000000, .call (speedCall 6 100000001),
        .call (speedCall 5 100000002), .flush 300000000]
    (∀ c, ConfirmedInput.call c ∈ inputs → OnChange c) ∧
      ¬ Transparent 100 "LINE_SPEED" (Engine.new 0) (Engine.new 0) inputs := by
  intro inputs
  refine ⟨fun c hc => ?_, fun h => ?_⟩
  · simp only [inputs, List.mem_cons, ConfirmedInput.call.injEq, List.not_mem_nil, or_false,
      reduceCtorEq, false_or] at hc
    rcases hc with rfl | rfl | rfl <;> exact speedCall_onChange _ _
  · have hlength := congrArg List.length h
    revert hlength
    decide +kernel

end EnipAdapter.Analysis
