import EnipAdapter.Interface.EngineRun

/-!
# The engine, signal by signal

Every operation of the engine acts on one signal's state at a time. The lemmas here say what
each does to the state of a given signal and what it publishes for it; nothing after them
looks into the engine's map.
-/

set_option autoImplicit false

namespace EnipAdapter.Analysis

open EnipAdapter.Foundation EnipAdapter.Model EnipAdapter.Interface

/-! ## The gate of one reading -/

/-- The state a reading finds the gate in: its quality is noted, and a push engine notes the
eligible time of a reading that passes. -/
def touched (c : EngineCall) (item : GateItem) (st : SignalState) : SignalState :=
  let st := st.seen item.reading.quality c.now
  match c.kind with
  | .group _ _ => st
  | .frame _ _ _ => { st with lastEligible := some c.now }

/-- Noting when a reading was seen does not move the gate. -/
theorem seen_gate (st : SignalState) (q q' : Quality) (now : Instant) (v : Json)
    (mode : PublishMode) (d : DeadbandSpec) :
    gatePasses (st.seen q now) v q' mode d = gatePasses st v q' mode d := by
  unfold SignalState.seen
  split <;> rfl

/-- Nor the floor. -/
theorem seen_belowFloor (st : SignalState) (q q' : Quality) (now : Instant) (g : PushGate) :
    belowFloor g q' (st.seen q now) = belowFloor g q' st := by
  unfold SignalState.seen
  split <;> rfl

/-- A reading that the gate refuses leaves no trace but its time. -/
theorem gate_refused {c : EngineCall} {batchMs : ℕ} {item : GateItem} {st : SignalState}
    (h : c.admits item st = false) :
    c.gate batchMs item st = (st.seen item.reading.quality c.now, .suppressed) := by
  unfold EngineCall.admits at h
  unfold EngineCall.gate
  cases hkind : c.kind with
  | group group readings =>
    rw [hkind] at h
    simp only [pollGate, seen_gate, h, Bool.false_eq_true, if_false]
  | frame readings deadbands sampleMs =>
    rw [hkind] at h
    have hfloor : ∀ b, belowFloor ⟨⟨c.mode, b, c.now, c.serverTs⟩, sampleMs⟩ item.reading.quality st =
        belowFloor ⟨⟨c.mode, 0, c.now, c.serverTs⟩, sampleMs⟩ item.reading.quality st := fun _ => rfl
    simp only [pushGate, seen_gate, seen_belowFloor, hfloor batchMs]
    cases hbelow : belowFloor ⟨⟨c.mode, 0, c.now, c.serverTs⟩, sampleMs⟩ item.reading.quality st with
    | true => rfl
    | false =>
      simp only [hbelow, Bool.not_false, Bool.true_and] at h
      simp only [h, Bool.false_eq_true, if_false]

/-- A reading that the gate admits is handed to the batcher of its signal. -/
theorem gate_admitted {c : EngineCall} {batchMs : ℕ} {item : GateItem} {st : SignalState}
    (h : c.admits item st = true) :
    c.gate batchMs item st =
      (((touched c item st).gateIn item.reading c.now batchMs c.serverTs).1,
        .ofBatcher ((touched c item st).gateIn item.reading c.now batchMs c.serverTs).2) := by
  unfold EngineCall.admits at h
  unfold EngineCall.gate touched
  cases hkind : c.kind with
  | group group readings =>
    rw [hkind] at h
    simp only [pollGate, seen_gate, h, if_true]
  | frame readings deadbands sampleMs =>
    rw [hkind] at h
    have hfloor : ∀ b, belowFloor ⟨⟨c.mode, b, c.now, c.serverTs⟩, sampleMs⟩ item.reading.quality st =
        belowFloor ⟨⟨c.mode, 0, c.now, c.serverTs⟩, sampleMs⟩ item.reading.quality st := fun _ => rfl
    simp only [Bool.and_eq_true, Bool.not_eq_true'] at h
    simp only [pushGate, seen_gate, seen_belowFloor, hfloor batchMs, h.1, h.2, Bool.false_eq_true,
      if_false, if_true]

/-- The pending value after a reading is gated in. -/
def pendingAfter (item : GateItem) (st : SignalState) : Option Json :=
  if item.reading.quality = .good then some item.reading.value else st.pending

/-- What an admitted reading does to the baselines and the batcher of its signal. -/
structure GatedIn (c : EngineCall) (item : GateItem) (st st' : SignalState) : Prop where
  committed : st'.committed = st.committed
  pending : st'.pending = pendingAfter item st
  lastGood : st'.lastGood = (st.seen item.reading.quality c.now).lastGood

/-- A reading that is only looked at leaves the values and the window of its signal. -/
theorem touched_fields (c : EngineCall) (item : GateItem) (st : SignalState) :
    (touched c item st).committed = st.committed ∧ (touched c item st).pending = st.pending ∧
      (touched c item st).batcher = st.batcher ∧
      (touched c item st).lastGood = (st.seen item.reading.quality c.now).lastGood := by
  unfold touched SignalState.seen
  cases c.kind <;> split <;> exact ⟨rfl, rfl, rfl, rfl⟩

/-- A value that is gated in goes into the window, or is published at once. -/
theorem gatedIn_gateIn (c : EngineCall) (batchMs : ℕ) (item : GateItem) (st : SignalState) :
    GatedIn c item st
      ((touched c item st).gateIn item.reading c.now batchMs c.serverTs).1 := by
  obtain ⟨hcommitted, hpending, -, hgood⟩ := touched_fields c item st
  unfold SignalState.gateIn
  refine ⟨?_, ?_, ?_⟩
  · simp only
    split <;> exact hcommitted
  · simp only [pendingAfter]
    split
    · rfl
    · exact hpending
  · simp only
    split <;> exact hgood

/-- Without a window an admitted reading is published at once and the batcher is idle. -/
theorem gate_unbatched {c : EngineCall} {item : GateItem} {st : SignalState}
    (h : c.admits item st = true) :
    ∃ st', c.gate 0 item st = (st', .publish [c.sample item]) ∧ GatedIn c item st st' ∧
      st'.batcher = st.batcher := by
  obtain ⟨-, -, hbatcher, -⟩ := touched_fields c item st
  refine ⟨_, gate_admitted h, gatedIn_gateIn c 0 item st, ?_⟩
  simp only [SignalState.gateIn, Batcher.add, if_true]
  split <;> exact hbatcher

/-- With a window it joins the buffer, and the first one opens the window. -/
theorem gate_batched {c : EngineCall} {batchMs : ℕ} {item : GateItem} {st : SignalState}
    (hpos : 0 < batchMs) (h : c.admits item st = true) :
    ∃ st', c.gate batchMs item st = (st', .buffered) ∧ GatedIn c item st st' ∧
      st'.batcher.buffer = st.batcher.buffer ++ [c.sample item] ∧
      st'.batcher.windowOpen = some (st.batcher.windowOpen.getD c.now) := by
  obtain ⟨-, -, hbatcher, -⟩ := touched_fields c item st
  have hne : batchMs ≠ 0 := by omega
  have hadd : ∀ b : Batcher, b.add (c.sample item) c.now batchMs =
      (⟨b.buffer ++ [c.sample item], some (b.windowOpen.getD c.now)⟩, none) := by
    intro b
    unfold Batcher.add
    rw [if_neg hne]
    cases b.windowOpen <;> rfl
  have hsample : sampleOf item.reading.value item.reading.quality item.reading.qualityRaw
      (some c.serverTs) = c.sample item := rfl
  refine ⟨_, ?_, gatedIn_gateIn c batchMs item st, ?_, ?_⟩
  · rw [gate_admitted h]
    simp only [SignalState.gateIn, hsample, hadd]
    rfl
  · simp only [SignalState.gateIn, hsample, hadd]
    split <;> rw [← hbatcher]
  · simp only [SignalState.gateIn, hsample, hadd]
    split <;> rw [← hbatcher]

/-! ## Calls -/

/-- A call gates its readings one after the other, each against its own signal. -/
theorem run_eq (c : EngineCall) (batchMs : ℕ) (e : Engine) :
    c.run batchMs e =
      (⟨(foldKeyed GateItem.signalId (c.gate batchMs) c.items e.state).1, e.start⟩,
        gatePublishes (foldKeyed GateItem.signalId (c.gate batchMs) c.items e.state).2) := by
  unfold EngineCall.run EngineCall.gate EngineCall.items
  cases c.kind <;> rfl

/-- The readings of one signal in a call. -/
def itemsOf (c : EngineCall) (id : String) : List GateItem :=
  c.items.filter (fun item => item.signalId = id)

/-- A call takes a signal through its own readings, one after the other. -/
theorem signal_run (c : EngineCall) (batchMs : ℕ) (e : Engine) (id : String) :
    (c.run batchMs e).1.signal id = (foldState (c.gate batchMs) (itemsOf c id) (e.signal id)).1 := by
  rw [run_eq]
  exact entry_foldKeyed _ _ _ _ _

/-- What is published for a signal is what its readings put out. -/
theorem publishedFor_publishes (id : String) (outs : List (String × Option (List Sample))) :
    publishedFor id (Engine.publishes outs) = (outputsOf id outs).filterMap (fun o => o) := by
  induction outs with
  | nil => rfl
  | cons p outs ih =>
    obtain ⟨k, o⟩ := p
    unfold publishedFor Engine.publishes outputsOf at *
    cases o with
    | none =>
      by_cases hk : k = id
      · simpa [hk] using ih
      · simpa [hk] using ih
    | some samples =>
      by_cases hk : k = id
      · simpa [hk] using ih
      · simpa [hk] using ih

/-- What a call publishes for a signal is what its own readings give. -/
theorem publishedFor_run (c : EngineCall) (batchMs : ℕ) (e : Engine) (id : String) :
    publishedFor id (c.run batchMs e).2 =
      (foldState (c.gate batchMs) (itemsOf c id) (e.signal id)).2.filterMap GateOutcome.samples := by
  have houts := outputs_foldKeyed GateItem.signalId (c.gate batchMs) c.items e.state id
  rw [run_eq]
  simp only [gatePublishes]
  rw [publishedFor_publishes]
  have hmap : outputsOf id ((foldKeyed GateItem.signalId (c.gate batchMs) c.items e.state).2.map
      (fun p => (p.1, p.2.samples))) =
        (outputsOf id (foldKeyed GateItem.signalId (c.gate batchMs) c.items e.state).2).map
          GateOutcome.samples := by
    generalize (foldKeyed GateItem.signalId (c.gate batchMs) c.items e.state).2 = outs
    induction outs with
    | nil => rfl
    | cons p outs ih =>
      unfold outputsOf at *
      by_cases hk : p.1 = id
      · simpa [hk] using ih
      · simpa [hk] using ih
  rw [hmap, houts, List.filterMap_map]
  rfl

/-- A call published a signal exactly if something was published for it. -/
theorem publishedIn_iff (id : String) (out : List Publish) :
    publishedIn out id = true ↔ publishedFor id out ≠ [] := by
  unfold publishedIn publishedFor
  rw [List.any_eq_true, ne_eq, List.map_eq_nil_iff, List.filter_eq_nil_iff]
  simp

/-- The ids of a call with distinct signals are distinct. -/
theorem nodup_items {c : EngineCall} (h : c.Distinct) :
    (c.items.map GateItem.signalId).Nodup := by
  unfold EngineCall.Distinct at h
  unfold EngineCall.items
  cases hkind : c.kind with
  | group group readings =>
    rw [hkind] at h
    refine List.Nodup.sublist ?_ h
    simp only [groupItems]
    induction group.signals with
    | nil => exact List.Sublist.refl _
    | cons spec specs ih =>
      cases hread : readingOf readings spec.tagPath with
      | none =>
        simp only [List.filterMap_cons, hread, Option.map_none, List.map_cons]
        exact ih.cons _
      | some r =>
        simp only [List.filterMap_cons, hread, Option.map_some, List.map_cons]
        exact ih.cons_cons _
  | frame readings deadbands sampleMs =>
    rw [hkind] at h
    simpa [frameItems, Function.comp_def] using h

/-- So a signal has one reading in it, or none. -/
theorem itemsOf_eq {c : EngineCall} (h : c.Distinct) {item : GateItem} (hitem : item ∈ c.items) :
    itemsOf c item.signalId = [item] := by
  have hnodup := nodup_items h
  unfold itemsOf
  generalize c.items = items at *
  induction items with
  | nil => cases hitem
  | cons i is ih =>
    rw [List.map_cons, List.nodup_cons] at hnodup
    obtain ⟨hi, hrest⟩ := hnodup
    rcases List.mem_cons.mp hitem with rfl | hmem
    · have hnone : is.filter (fun j => j.signalId = item.signalId) = [] := by
        apply List.filter_eq_nil_iff.mpr
        intro j hj hid
        apply hi
        rw [← of_decide_eq_true hid]
        exact List.mem_map_of_mem hj
      simp [hnone]
    · have hne : i.signalId ≠ item.signalId := by
        intro hid
        exact hi (hid ▸ List.mem_map_of_mem hmem)
      simp only [hne, decide_false, Bool.false_eq_true, not_false_eq_true,
        List.filter_cons_of_neg]
      exact ih hmem hrest

/-- A call without a reading of a signal has no items of it. -/
theorem itemsOf_eq_nil {c : EngineCall} {id : String} (h : ∀ item ∈ c.items, item.signalId ≠ id) :
    itemsOf c id = [] := by
  apply List.filter_eq_nil_iff.mpr
  intro item hitem
  simpa using h item hitem

/-! ## What a call lets in -/

/-- The samples a list of readings of one signal adds. -/
def gatedBy (c : EngineCall) (batchMs : ℕ) (items : List GateItem) (st : SignalState) :
    List Sample :=
  ((items.zip (foldState (c.gate batchMs) items st).2).filter (fun p => passed p.2)).map
    (fun p => c.sample p.1)

/-- What a list of readings gates in is gated in by each of them in turn. -/
theorem gatedBy_cons (c : EngineCall) (batchMs : ℕ) (item : GateItem) (items : List GateItem)
    (st : SignalState) :
    gatedBy c batchMs (item :: items) st =
      (if passed (c.gate batchMs item st).2 then [c.sample item] else []) ++
        gatedBy c batchMs items (c.gate batchMs item st).1 := by
  unfold gatedBy
  simp only [foldState, List.zip_cons_cons, List.filter_cons]
  split <;> simp

/-- Noting when a reading was seen leaves the window. -/
theorem seen_batcher (st : SignalState) (q : Quality) (now : Instant) :
    (st.seen q now).batcher = st.batcher := by
  unfold SignalState.seen
  split <;> rfl

/-- Without a window a call gives out what it lets in and holds what it held. -/
theorem call_unbatched (c : EngineCall) (items : List GateItem) (st : SignalState) :
    (foldState (c.gate 0) items st).1.batcher = st.batcher ∧
      ((foldState (c.gate 0) items st).2.filterMap GateOutcome.samples).flatten =
        gatedBy c 0 items st := by
  induction items generalizing st with
  | nil => exact ⟨rfl, rfl⟩
  | cons item items ih =>
    obtain ⟨hbatcher, hout⟩ := ih (c.gate 0 item st).1
    rw [gatedBy_cons]
    simp only [foldState]
    cases hadmits : c.admits item st with
    | false =>
      rw [gate_refused hadmits] at hbatcher hout ⊢
      refine ⟨hbatcher.trans (seen_batcher _ _ _), ?_⟩
      simpa [List.filterMap_cons, passed, GateOutcome.samples] using hout
    | true =>
      obtain ⟨st', hgate, -, hsame⟩ := gate_unbatched hadmits
      rw [hgate] at hbatcher hout ⊢
      refine ⟨hbatcher.trans hsame, ?_⟩
      simpa [List.filterMap_cons, passed, GateOutcome.samples] using hout

/-- With a window a call keeps what it lets in and gives out nothing. -/
theorem call_batched (c : EngineCall) {batchMs : ℕ} (hpos : 0 < batchMs) (items : List GateItem)
    (st : SignalState) :
    (foldState (c.gate batchMs) items st).1.batcher.buffer =
        st.batcher.buffer ++ gatedBy c batchMs items st ∧
      (foldState (c.gate batchMs) items st).2.filterMap GateOutcome.samples = [] := by
  induction items generalizing st with
  | nil => exact ⟨by simp [foldState, gatedBy], rfl⟩
  | cons item items ih =>
    obtain ⟨hbuffer, hout⟩ := ih (c.gate batchMs item st).1
    rw [gatedBy_cons]
    simp only [foldState]
    cases hadmits : c.admits item st with
    | false =>
      rw [gate_refused hadmits] at hbuffer hout ⊢
      refine ⟨?_, by simpa [List.filterMap_cons, GateOutcome.samples] using hout⟩
      rw [hbuffer, seen_batcher]
      simp [passed]
    | true =>
      obtain ⟨st', hgate, -, hsame, -⟩ := gate_batched hpos hadmits
      rw [hgate] at hbuffer hout ⊢
      refine ⟨?_, by simpa [List.filterMap_cons, GateOutcome.samples] using hout⟩
      rw [hbuffer, hsame]
      simp [passed]

/-! ## Settlement -/

/-- A signal that is settled has nothing left to settle. -/
theorem settle_settle (st : SignalState) (a b : Bool) : (st.settle a).settle b = st.settle a := by
  unfold SignalState.settle
  cases hpending : st.pending with
  | none => simp only [hpending]
  | some v => rfl

/-- A settlement is for one signal. -/
theorem signal_settle (e : Engine) (id id' : String) (published : Bool) :
    (e.settle id published).signal id' =
      if id' = id then (e.signal id').settle published else e.signal id' := by
  unfold Engine.settle
  cases hlookup : e.state.lookup id with
  | none =>
    simp only
    split
    · rename_i hid
      subst hid
      have hdefault : e.signal id' = default := by
        unfold Engine.signal entry
        rw [hlookup]
        rfl
      rw [hdefault]
      rfl
    · rfl
  | some st =>
    simp only [Engine.signal]
    split
    · rename_i hid
      subst hid
      rw [entry_insert_self]
      unfold entry
      rw [hlookup]
      rfl
    · rename_i hid
      rw [entry_insert_ne _ _ hid]

/-- A settlement leaves the window. -/
theorem settle_batcher (st : SignalState) (published : Bool) :
    (st.settle published).batcher = st.batcher := by
  unfold SignalState.settle
  cases st.pending <;> rfl

/-- It leaves the window of every signal. -/
theorem signal_settle_batcher (e : Engine) (id id' : String) (published : Bool) :
    ((e.settle id published).signal id').batcher = (e.signal id').batcher := by
  rw [signal_settle]
  split
  · exact settle_batcher _ _
  · rfl

/-- Settling a list of publishes settles the signals they are for. -/
theorem signal_settleAll (e : Engine) (outcomes : String → Bool) (out : List Publish)
    (id : String) :
    (settleAll e outcomes out).signal id =
      if publishedIn out id then (e.signal id).settle (outcomes id) else e.signal id := by
  unfold settleAll
  induction out generalizing e with
  | nil => rfl
  | cons p out ih =>
    rw [List.foldl_cons, ih, signal_settle]
    have hcons : publishedIn (p :: out) id = (decide (p.signalId = id) || publishedIn out id) := by
      simp [publishedIn]
    rw [hcons]
    by_cases hid : id = p.signalId
    · subst hid
      simp only [if_true, decide_true, Bool.true_or]
      split
      · exact settle_settle _ _ _
      · rfl
    · simp [hid, Ne.symm hid]

/-! ## Flushing and discarding -/

/-- A flush takes the window of a signal when it is due. -/
theorem signal_takeDue (e : Engine) (batchMs : ℕ) (now : Instant) (id : String) :
    (e.takeDue batchMs now).1.signal id =
      { e.signal id with batcher := ((e.signal id).batcher.takeDue now batchMs).1 } := by
  unfold Engine.takeDue Engine.signal
  exact entry_overKeys rfl e.state id

/-- And publishes what was in it. -/
theorem publishedFor_takeDue (e : Engine) (batchMs : ℕ) (now : Instant) (id : String) :
    publishedFor id (e.takeDue batchMs now).2 =
      (((e.signal id).batcher.takeDue now batchMs).2).toList := by
  unfold Engine.takeDue
  simp only
  rw [publishedFor_publishes]
  have hat := congrArg Prod.snd (overKeys_at (fun st : SignalState =>
    ({ st with batcher := (st.batcher.takeDue now batchMs).1 },
      (st.batcher.takeDue now batchMs).2)) e.state id)
  simp only at hat
  rw [hat]
  unfold Engine.signal
  split
  · cases ((entry e.state id).batcher.takeDue now batchMs).2 <;> rfl
  · rename_i hmem
    have hnone : entry e.state id = default := by
      rw [entry, AList.lookup_eq_none.mpr hmem]
      rfl
    rw [hnone]
    rfl

/-- A flush and its settlement move each signal as its own window and outcome say. -/
theorem signal_flush (batchMs : ℕ) (e : Engine) (now : Instant) (outcomes : String → Bool)
    (id : String) :
    (flushStep batchMs e now outcomes).signal id =
      let st := { e.signal id with batcher := ((e.signal id).batcher.takeDue now batchMs).1 }
      if (((e.signal id).batcher.takeDue now batchMs).2).isSome then st.settle (outcomes id)
      else st := by
  unfold flushStep
  rw [signal_settleAll, signal_takeDue]
  have hiff := publishedIn_iff id (e.takeDue batchMs now).2
  rw [publishedFor_takeDue] at hiff
  cases hdue : ((e.signal id).batcher.takeDue now batchMs).2 with
  | none =>
    have hfalse : publishedIn (e.takeDue batchMs now).2 id = false := by
      rw [Bool.eq_false_iff]
      intro h
      exact hiff.mp h (by rw [hdue]; rfl)
    simp [hfalse]
  | some samples =>
    have htrue : publishedIn (e.takeDue batchMs now).2 id = true := by
      apply hiff.mpr
      rw [hdue]
      simp
    simp [htrue]

/-- A discard drops the window of every signal. -/
theorem signal_discard (e : Engine) (id : String) :
    e.discardOpenBatches.1.signal id = (e.signal id).discard.1 := by
  unfold Engine.discardOpenBatches Engine.signal
  exact entry_overKeys rfl e.state id

end EnipAdapter.Analysis
