import EnipAdapter.Analysis.OnChangeGate

/-!
# Batching conserves samples

Four fields of a signal move together: the buffer, the instant its window opened, the pending
value and the committed one. What ties them is the list of samples the open window holds with
the instants they came in at; every operation either adds to that list or ends it.
-/

set_option autoImplicit false

namespace EnipAdapter.Analysis

open EnipAdapter.Foundation EnipAdapter.Model EnipAdapter.Interface

/-! ## The open window of a signal -/

/-- The open window holds these samples, with the instants they were gated in at. -/
structure Holds (st : SignalState) (held : List (Sample × Instant)) : Prop where
  buffer : st.batcher.buffer = held.map Prod.fst
  window : st.batcher.windowOpen = held.head?.map Prod.snd
  pending : st.pending = (lastGoodSample (held.map Prod.fst)).map (·.value)

/-- A new signal holds no samples. -/
theorem holds_default : Holds default [] := ⟨rfl, rfl, rfl⟩

/-- Noting when a reading was seen leaves the held samples alone. -/
theorem holds_seen {st : SignalState} {held : List (Sample × Instant)} (h : Holds st held)
    (q : Quality) (now : Instant) : Holds (st.seen q now) held := by
  unfold SignalState.seen
  split
  · exact ⟨h.buffer, h.window, h.pending⟩
  · exact h

/-- Noting when a reading was seen leaves the committed value alone. -/
theorem seen_committed (st : SignalState) (q : Quality) (now : Instant) :
    (st.seen q now).committed = st.committed := by
  unfold SignalState.seen
  split <;> rfl

/-- A reading that is let in joins the held samples. -/
theorem holds_gate (c : EngineCall) {batchMs : ℕ} (hpos : 0 < batchMs) (item : GateItem)
    {st : SignalState} {held : List (Sample × Instant)} (h : Holds st held) :
    Holds (c.gate batchMs item st).1
        (held ++ if passed (c.gate batchMs item st).2 then [(c.sample item, c.now)] else []) ∧
      (c.gate batchMs item st).1.committed = st.committed := by
  cases hadmits : c.admits item st with
  | false =>
    rw [gate_refused hadmits]
    simp only [passed, Bool.false_eq_true, if_false, List.append_nil]
    exact ⟨holds_seen h _ _, seen_committed _ _ _⟩
  | true =>
    obtain ⟨st', hgate, hin, hbuffer, hwindow⟩ := gate_batched hpos hadmits
    rw [hgate]
    refine ⟨⟨?_, ?_, ?_⟩, hin.committed⟩
    · simp [passed, hbuffer, h.buffer]
    · rw [hwindow, h.window]
      cases held <;> simp [passed]
    · rw [hin.pending, pendingAfter, h.pending]
      have hvalue : (c.sample item).value = item.reading.value := rfl
      have hquality : (c.sample item).quality = item.reading.quality := rfl
      simp only [passed, if_true, List.map_append, List.map_cons, List.map_nil,
        lastGoodSample_append]
      by_cases hgood : item.reading.quality = .good
      · simp [lastGoodSample, hgood, hquality, hvalue]
      · simp [lastGoodSample, hgood, hquality]

/-- A call adds what it lets in to the held samples. -/
theorem holds_call (c : EngineCall) {batchMs : ℕ} (hpos : 0 < batchMs) (items : List GateItem)
    {st : SignalState} {held : List (Sample × Instant)} (h : Holds st held) :
    Holds (foldState (c.gate batchMs) items st).1
        (held ++ (gatedBy c batchMs items st).map (fun s => (s, c.now))) ∧
      (foldState (c.gate batchMs) items st).1.committed = st.committed := by
  induction items generalizing st held with
  | nil => simpa [foldState, gatedBy] using h
  | cons item items ih =>
    obtain ⟨hgate, hcommitted⟩ := holds_gate c hpos item h
    obtain ⟨hrest, hcommitted'⟩ := ih hgate
    refine ⟨?_, hcommitted'.trans hcommitted⟩
    rw [gatedBy_cons]
    simp only [foldState]
    convert hrest using 1
    split <;> simp

/-- A difference of instants that reaches a positive span is no saturated one. -/
theorem elapsed_of_sub {opened now span : ℕ} (hpos : 0 < span) (h : span ≤ now - opened) :
    opened + span ≤ now := by
  omega

/-- A window of at least a millisecond takes time. -/
theorem fromMillis_pos {batchMs : ℕ} (hpos : 0 < batchMs) : 0 < Duration.fromMillis batchMs := by
  exact Nat.mul_pos hpos (by decide)

/-- A window is taken when it holds a sample and has lasted from its first one. -/
structure Due (held : List (Sample × Instant)) (now : Instant) (batchMs : ℕ) : Prop where
  first : ∃ first, held.head? = some first ∧ first.2 + Duration.fromMillis batchMs ≤ now

/-- A window that is due is handed over whole, and any other is left as it is. -/
theorem takeDue_cases {st : SignalState} {held : List (Sample × Instant)} (h : Holds st held)
    (now : Instant) {batchMs : ℕ} (hpos : 0 < batchMs) :
    (Due held now batchMs ∧
        st.batcher.takeDue now batchMs = ({}, some (held.map Prod.fst))) ∨
      st.batcher.takeDue now batchMs = (st.batcher, none) := by
  unfold Batcher.takeDue
  rw [h.window, h.buffer]
  cases held with
  | nil => exact .inr rfl
  | cons first rest =>
    simp only [List.head?_cons, Option.map_some]
    split
    · rename_i hdue
      refine .inl ⟨⟨first, rfl, ?_⟩, rfl⟩
      exact elapsed_of_sub (fromMillis_pos hpos) hdue.2
    · exact .inr rfl

/-- A flush either passes a signal by or ends its window and settles its pending value. -/
theorem holds_flush {batchMs : ℕ} (hpos : 0 < batchMs) {e : Engine} {id : String}
    {held : List (Sample × Instant)} (h : Holds (e.signal id) held) (now : Instant)
    (outcomes : String → Bool) :
    (Due held now batchMs ∧ publishedFor id (e.takeDue batchMs now).2 = [held.map Prod.fst] ∧
        Holds ((flushStep batchMs e now outcomes).signal id) [] ∧
        ((flushStep batchMs e now outcomes).signal id).committed =
          if outcomes id then
            ((lastGoodSample (held.map Prod.fst)).map (·.value)).or (e.signal id).committed
          else (e.signal id).committed) ∨
      publishedFor id (e.takeDue batchMs now).2 = [] ∧
        (flushStep batchMs e now outcomes).signal id = e.signal id := by
  have hpublished := publishedFor_takeDue e batchMs now id
  have hflush := signal_flush batchMs e now outcomes id
  rcases takeDue_cases h now hpos with ⟨hdue, htake⟩ | htake
  · rw [htake] at hpublished hflush
    refine .inl ⟨hdue, hpublished, ?_, ?_⟩
    · rw [hflush]
      simp only [Option.isSome_some, if_true, SignalState.settle]
      cases (e.signal id).pending <;> exact ⟨rfl, rfl, rfl⟩
    · rw [hflush, ← h.pending]
      simp only [Option.isSome_some, if_true, SignalState.settle]
      cases (e.signal id).pending with
      | none => simp
      | some v => rfl
  · rw [htake] at hpublished hflush
    exact .inr ⟨hpublished, hflush⟩

/-- Discarding ends the window with its pending value. -/
theorem holds_discard {st : SignalState} {held : List (Sample × Instant)} (h : Holds st held) :
    Holds st.discard.1 [] ∧ st.discard.1.committed = st.committed := by
  unfold SignalState.discard Batcher.discard
  refine ⟨⟨rfl, rfl, ?_⟩, rfl⟩
  simp only
  split
  · rfl
  · rename_i hzero
    have hnil : st.batcher.buffer = [] := by
      apply List.eq_nil_of_length_eq_zero
      omega
    rw [h.pending, ← h.buffer, hnil]
    rfl

/-! ## Runs -/

/-- The books of a signal balance: what was gated in has left with a window that ended or is
held by the open one. -/
structure Balanced (id : String) (r : Engine × Ledger) : Prop where
  gone : r.2.gone = (r.2.gated.take r.2.gone.length).map Prod.fst
  holds : Holds (r.1.signal id) (r.2.gated.drop r.2.gone.length)

/-- No more samples have left than were gated in. -/
theorem Balanced.le {id : String} {r : Engine × Ledger} (h : Balanced id r) :
    r.2.gone.length ≤ r.2.gated.length := by
  have hlength := congrArg List.length h.gone
  rw [List.length_map, List.length_take] at hlength
  omega

/-- What was gated in has left or is still in the buffer, in order. -/
theorem Balanced.conserved {id : String} {r : Engine × Ledger} (h : Balanced id r) :
    r.2.gated.map Prod.fst = r.2.gone ++ (r.1.signal id).batcher.buffer := by
  calc r.2.gated.map Prod.fst
      = (r.2.gated.take r.2.gone.length).map Prod.fst ++
          (r.2.gated.drop r.2.gone.length).map Prod.fst := by
        rw [← List.map_append, List.take_append_drop]
    _ = r.2.gone ++ (r.1.signal id).batcher.buffer := by rw [← h.gone, ← h.holds.buffer]

/-- Ending the open window keeps the books. -/
theorem balanced_close {id : String} {e e' : Engine} {l : Ledger} (h : Balanced id (e, l))
    {closure : Closure} (hclosure : closure.samples = (e.signal id).batcher.buffer)
    (hholds : Holds (e'.signal id) []) :
    Balanced id (e', { l with closed := l.closed ++ [closure] }) := by
  have hall : ({ l with closed := l.closed ++ [closure] } : Ledger).gone =
      l.gated.map Prod.fst := by
    rw [h.conserved, ← hclosure]
    simp [Ledger.gone]
  refine ⟨?_, ?_⟩
  · simp only
    rw [hall, List.length_map, List.take_length]
  · simp only
    rw [hall, List.length_map, List.drop_length]
    exact hholds

/-- Every call, settlement, flush and discard keeps the balance. -/
theorem balanced_step {batchMs : ℕ} (hpos : 0 < batchMs) {id : String} {r : Engine × Ledger}
    (h : Balanced id r) (input : BatchInput) : Balanced id (bookedStep batchMs id r input) := by
  obtain ⟨e, l⟩ := r
  have hle : l.gone.length ≤ l.gated.length := h.le
  cases input with
  | call c =>
    have hgone : l.gone = (l.gated.take l.gone.length).map Prod.fst := h.gone
    have hcall := (holds_call c hpos (itemsOf c id) h.holds).1
    refine ⟨?_, ?_⟩
    · show l.gone = ((l.gated ++ _).take l.gone.length).map Prod.fst
      rw [List.take_append_of_le_length hle]
      exact hgone
    · simp only [bookedStep, ledgerStep, batchStep]
      rw [signal_run]
      show Holds _ (List.drop l.gone.length _)
      rw [List.drop_append_of_le_length hle]
      exact hcall
  | flush now outcomes =>
    rcases holds_flush hpos h.holds now outcomes with
      ⟨-, hpublished, hholds, -⟩ | ⟨hpublished, hsame⟩
    · simp only [bookedStep, ledgerStep, batchStep, hpublished, List.map_cons, List.map_nil]
      exact balanced_close h h.holds.buffer.symm hholds
    · simp only [bookedStep, ledgerStep, batchStep, hpublished, List.map_nil, List.append_nil]
      refine ⟨h.gone, ?_⟩
      simp only [hsame]
      exact h.holds
  | discard =>
    have hdiscard := (holds_discard h.holds).1
    have hsignal := signal_discard e id
    simp only [bookedStep, ledgerStep, batchStep]
    split
    · rename_i hempty
      have hnil : l.gated.drop l.gone.length = [] := by
        have hbuffer := h.holds.buffer
        simp only at hempty hbuffer
        rw [hempty] at hbuffer
        exact List.map_eq_nil_iff.mp hbuffer.symm
      refine ⟨h.gone, ?_⟩
      simp only
      rw [hnil, hsignal]
      exact hdiscard
    · apply balanced_close h rfl
      rw [hsignal]
      exact hdiscard

/-- And so does every run of them. -/
theorem balanced_run {batchMs : ℕ} (hpos : 0 < batchMs) (id : String) {r : Engine × Ledger}
    (h : Balanced id r) (inputs : List BatchInput) :
    Balanced id (runSteps (bookedStep batchMs id) r inputs) := by
  induction inputs generalizing r with
  | nil => exact h
  | cons input inputs ih => exact ih (balanced_step hpos h input)

/-- Before anything happened the books are balanced. -/
theorem balanced_start (id : String) (start : Instant) : Balanced id (Engine.new start, {}) :=
  ⟨rfl, holds_default⟩

/-! ## The count of a discard -/

/-- A sum that saturates at every step is the sum that saturates once. -/
theorem foldl_saturating (limit : ℕ) (ns : List (String × ℕ)) (acc : ℕ) (hacc : acc ≤ limit) :
    ns.foldl (fun dropped p => min (dropped + p.2) limit) acc =
      min (acc + (ns.map Prod.snd).sum) limit := by
  induction ns generalizing acc with
  | nil => simpa using hacc
  | cons n ns ih =>
    rw [List.foldl_cons, ih _ (Nat.min_le_right _ _), List.map_cons, List.sum_cons]
    omega

/-- A pass over the keys visits each once and in order. -/
theorem overKeys_outputs (m : AList (fun _ : String => SignalState)) :
    (overKeys SignalState.discard m).2 =
      m.keys.map (fun id => (id, (entry m id).batcher.buffer.length)) := by
  have hloop : ∀ (ids : List String) (m : AList (fun _ : String => SignalState)), ids.Nodup →
      (foldKeyed id (fun _ => SignalState.discard) ids m).2 =
        ids.map (fun id => (id, (entry m id).batcher.buffer.length)) := by
    intro ids
    induction ids with
    | nil => exact fun _ _ => rfl
    | cons i ids ih =>
      intro m hnodup
      obtain ⟨hi, hnodup⟩ := List.nodup_cons.mp hnodup
      simp only [foldKeyed, List.map_cons, id]
      refine congrArg₂ _ rfl ?_
      rw [ih _ hnodup]
      apply List.map_congr_left
      intro j hj
      have hne : j ≠ i := fun h => hi (h ▸ hj)
      rw [entry_insert_ne _ _ hne]
  exact hloop m.keys m m.nodupKeys

/-- A discard counts every sample of every open window, as far as a `u64` counts. -/
theorem discard_count (e : Engine) :
    e.discardOpenBatches.2 = min (bufferedSamples e) (2 ^ 64 - 1) := by
  unfold Engine.discardOpenBatches
  simp only
  rw [foldl_saturating _ _ _ (Nat.zero_le _), overKeys_outputs, List.map_map, Nat.zero_add]
  rfl

/-! ## Conservation -/

/-- Batching conserves the samples of every signal: a window is open exactly when it holds a
sample, the pending value is its last GOOD one, what was gated in has left with exactly one
window or is still held, no window is flushed before its time, a confirmed flush commits its
last GOOD value, and a discard counts what it drops. -/
theorem batching_conserves (batchMs : ℕ) (hpos : 0 < batchMs) (start : Instant)
    (inputs : List BatchInput) (id : String) :
    let r := runSteps (bookedStep batchMs id) (Engine.new start, {}) inputs
    let st := r.1.signal id
    (st.batcher.windowOpen.isSome ↔ st.batcher.buffer ≠ []) ∧
      st.pending = (lastGoodSample st.batcher.buffer).map (·.value) ∧
      r.2.gated.map Prod.fst = r.2.gone ++ st.batcher.buffer ∧
      (∀ now outcomes,
        (publishedFor id (r.1.takeDue batchMs now).2 = [st.batcher.buffer] ∧
            (∃ first, (r.2.gated.drop r.2.gone.length).head? = some first ∧
              first.2 + Duration.fromMillis batchMs ≤ now) ∧
            ((flushStep batchMs r.1 now outcomes).signal id).committed =
              if outcomes id then
                ((lastGoodSample st.batcher.buffer).map (·.value)).or st.committed
              else st.committed) ∨
          publishedFor id (r.1.takeDue batchMs now).2 = [] ∧
            (flushStep batchMs r.1 now outcomes).signal id = st) ∧
      r.1.discardOpenBatches.2 = min (bufferedSamples r.1) (2 ^ 64 - 1) := by
  intro r st
  have h : Balanced id r := balanced_run hpos id (balanced_start id start) inputs
  have hbuffer := h.holds.buffer
  refine ⟨?_, ?_, h.conserved, fun now outcomes => ?_, discard_count r.1⟩
  · show ((r.1.signal id).batcher.windowOpen).isSome = true ↔ (r.1.signal id).batcher.buffer ≠ []
    rw [h.holds.window, hbuffer]
    cases r.2.gated.drop r.2.gone.length <;> simp
  · show (r.1.signal id).pending = (lastGoodSample (r.1.signal id).batcher.buffer).map _
    rw [h.holds.pending, hbuffer]
  · rcases holds_flush hpos h.holds now outcomes with ⟨hdue, hpublished, -, hcommitted⟩ | hpassed
    · rw [← hbuffer] at hpublished hcommitted
      exact .inl ⟨hpublished, hdue.first, hcommitted⟩
    · exact .inr hpassed

/-- Two changed readings of one signal in one window. -/
theorem batching_conserves_window :
    let inputs : List BatchInput :=
      [.call ⟨.group speedGroup [speedReading (.ofNat 5) .good], .onChange, 0, "t"⟩,
        .call ⟨.group speedGroup [speedReading (.ofNat 6) .good], .onChange, 1, "t"⟩]
    0 < 100 ∧
      (((runSteps (bookedStep 100 "LINE_SPEED") (Engine.new 0, {}) inputs).2.gated.map
        Prod.fst).length = 2) ∧
      ((runSteps (bookedStep 100 "LINE_SPEED") (Engine.new 0, {}) inputs).1.signal
        "LINE_SPEED").batcher.windowOpen.isSome = true := by
  intro inputs
  refine ⟨by decide, by decide +kernel, ?_⟩
  apply (batching_conserves 100 (by decide) 0 inputs "LINE_SPEED").1.mpr
  intro hempty
  have hlength := congrArg List.length hempty
  revert hlength
  decide +kernel

end EnipAdapter.Analysis
