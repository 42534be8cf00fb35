import EnipAdapter.Analysis.SampleFlow

/-!
# The turns of the driver loops

One turn of the poll loop and one of the consume loop, by three facts each: the flag the loop
goes on with is the shared one, a turn of a paused loop hands nothing to the bus, and the
samples of a turn flow as the engine lets them.
-/

set_option autoImplicit false

namespace EnipAdapter.Analysis

open EnipAdapter.Foundation EnipAdapter.Model EnipAdapter.Interface

/-! ## One turn of a driver loop -/

section Turn

variable {σ : Type}

/-- The loop goes on with the shared flag. -/
def Agrees (flag : σ → Bool) (turn : LoopTurn σ) : Prop :=
  ∀ loop, turn.next = .ok loop → flag loop = turn.health.paused

/-- A loop that has ended has no flag to agree. -/
theorem agrees_ended (flag : σ → Bool) (h : TaskHealth) (effects : List TaskEffect)
    (exit : LoopExit) : Agrees flag ⟨h, effects, .error exit⟩ := by
  intro loop hnext
  cases hnext

/-- A loop that goes on keeps its flag. -/
theorem agrees_goes {flag : σ → Bool} {h : TaskHealth} {loop : σ} (hflag : flag loop = h.paused)
    (effects : List TaskEffect) : Agrees flag ⟨h, effects, .ok loop⟩ := by
  intro next hnext
  cases hnext
  exact hflag

/-- The task stays paused and hands nothing to the bus. -/
structure Silent (health : TaskHealth) (effects : List TaskEffect) : Prop where
  paused : health.paused = true
  quiet : ∀ effect ∈ effects, isPublish effect = false

/-- The flow of a turn; a loop that ends leaves nothing. -/
def TurnFlow (batchMs : ℕ) (engine : σ → Engine) (held gated : List Sample) (id : String)
    (turn : LoopTurn σ) : Prop :=
  match turn.next with
  | .ok loop =>
      Flow batchMs held gated (publishedSamples id turn.effects)
        ((engine loop).signal id).batcher.buffer
  | .error _ => Flow batchMs held gated (publishedSamples id turn.effects) []

end Turn

/-- The shared flag is what was asked for, and no data is published on the way. -/
theorem applyPause_spec (h : TaskHealth) (paused : Bool) (requestedBy : Option String) :
    (applyPause h paused requestedBy).1.paused = paused ∧
      (∀ effect ∈ (applyPause h paused requestedBy).2.1, isPublish effect = false) ∧
      ∀ id, publishedSamples id (applyPause h paused requestedBy).2.1 = [] := by
  unfold applyPause
  split
  · rename_i hsame
    exact ⟨hsame, by simp, fun _ => rfl⟩
  · exact ⟨rfl, by simp [isPublish], fun _ => rfl⟩

/-- A reply publishes nothing. -/
theorem publishedSamples_replied (id : String) (effects : List TaskEffect) (reply : ReplyId)
    (answer : ControlAnswer) :
    publishedSamples id (effects ++ [.replied reply answer]) = publishedSamples id effects := by
  rw [publishedSamples_append]
  simp [publishedSamples]

/-- Quiet effects stay quiet with a reply behind them. -/
theorem quiet_replied {effects : List TaskEffect}
    (h : ∀ effect ∈ effects, isPublish effect = false) (reply : ReplyId) (answer : ControlAnswer) :
    ∀ effect ∈ effects ++ [TaskEffect.replied reply answer], isPublish effect = false := by
  intro effect hmem
  rcases List.mem_append.mp hmem with hmem | hmem
  · exact h effect hmem
  · rw [List.mem_singleton.mp hmem]
    rfl

/-- A reply alone is quiet. -/
theorem quiet_single (reply : ReplyId) (answer : ControlAnswer) :
    ∀ effect ∈ [TaskEffect.replied reply answer], isPublish effect = false := by
  simp [isPublish]

/-- A pause empties every window. -/
theorem discard_buffer (e : Engine) (id : String) :
    (e.discardOpenBatches.1.signal id).batcher.buffer = [] := by
  rw [signal_discard]
  rfl

/-- A new base of the staleness leaves the windows. -/
theorem rebaseStale_batcher (e : Engine) (now : Instant) (id : String) :
    ((e.rebaseStale now).signal id).batcher = (e.signal id).batcher := by
  have hat := congrArg Prod.fst (overKeys_at
    (fun st : SignalState => ({ st with lastGood := some now }, ())) e.state id)
  unfold Engine.rebaseStale Engine.signal
  simp only at hat ⊢
  rw [hat]
  split <;> rfl

/-- So does one of the values. -/
theorem rebaseFrom_batcher (e : Engine) (readings : List (String × Json)) (now : Instant)
    (id : String) : ((e.rebaseFrom readings now).signal id).batcher = (e.signal id).batcher := by
  unfold Engine.rebaseFrom Engine.signal
  simp only
  rw [entry_foldKeyed]
  generalize readings.filter _ = items
  generalize entry e.state id = st
  induction items generalizing st with
  | nil => rfl
  | cons r rest ih => exact ih _

/-! ## The poll loop -/

/-- The cycle of a group leaves the pause flag. -/
theorem pollGroup_paused (cfg : TaskConfig) (g : ScheduledGroup) (readings : List Reading)
    (now : Instant) (serverTs : String) (bus : ℕ → Bool) (e : Engine) (h : TaskHealth) :
    (pollGroup cfg g readings now serverTs bus e h).2.1.paused = h.paused :=
  rfl

/-- It moves the samples of its signals. -/
theorem flow_pollGroup (cfg : TaskConfig) (g : ScheduledGroup) (readings : List Reading)
    (now : Instant) (serverTs : String) (bus : ℕ → Bool) (e : Engine) (h : TaskHealth)
    (id : String) :
    Flow cfg.effectiveBatchMs (e.signal id).batcher.buffer
      (gatedIn cfg.effectiveBatchMs (groupCall cfg g readings now serverTs) id e)
      (publishedSamples id (pollGroup cfg g readings now serverTs bus e h).2.2)
      ((pollGroup cfg g readings now serverTs bus e h).1.signal id).batcher.buffer :=
  (flow_run (groupCall cfg g readings now serverTs) cfg.effectiveBatchMs e id).published
    cfg.hasSignal bus

/-- A repoll moves the samples of its groups one group after the other. -/
theorem flow_repoll (cfg : TaskConfig) (env : StepEnv) (i : ℕ) (groups : List ScheduledGroup)
    (e : Engine) (h : TaskHealth) (id : String) :
    Flow cfg.effectiveBatchMs (e.signal id).batcher.buffer
      ((repollCalls cfg env i groups e).flatMap fun p => gatedIn cfg.effectiveBatchMs p.2 id p.1)
      (publishedSamples id (repollAllGroups cfg env i groups e h).2.2.1)
      ((repollAllGroups cfg env i groups e h).1.signal id).batcher.buffer := by
  induction groups generalizing i e h with
  | nil => exact Flow.refl _ _
  | cons g rest ih =>
    unfold repollAllGroups repollCalls
    cases hread : env.reads i with
    | error message => exact Flow.refl _ _
    | ok readings =>
      have hfirst := flow_pollGroup cfg g readings (env.clock i) (env.stamp i) (env.bus i) e h id
      have hrest := ih (i + 1)
        (pollGroup cfg g readings (env.clock i) (env.stamp i) (env.bus i) e h).1
        (pollGroup cfg g readings (env.clock i) (env.stamp i) (env.bus i) e h).2.1
      simp only [List.flatMap_cons, publishedSamples_append]
      exact hfirst.trans hrest

/-- A repoll leaves the pause flag. -/
theorem repoll_paused (cfg : TaskConfig) (env : StepEnv) (i : ℕ) (groups : List ScheduledGroup)
    (e : Engine) (h : TaskHealth) :
    (repollAllGroups cfg env i groups e h).2.1.paused = h.paused := by
  induction groups generalizing i e h with
  | nil => rfl
  | cons g rest ih =>
    unfold repollAllGroups
    cases hread : env.reads i with
    | error message => rfl
    | ok readings => exact (ih _ _ _).trans (pollGroup_paused _ _ _ _ _ _ _ _)

/-- A message to the poll loop keeps the flags agreeing. -/
theorem pollControl_agrees (cfg : TaskConfig) (env : StepEnv) {h : TaskHealth} {loop : PollState}
    (hflag : loop.paused = h.paused) (m : ControlMessage) :
    Agrees PollState.paused (pollControl cfg env h loop m) := by
  obtain ⟨verb, reply⟩ := m
  cases verb with
  | write request => cases request <;> exact agrees_goes hflag _
  | readNow specs =>
    unfold pollControl
    cases hread : env.reads 0 with
    | error e => exact agrees_ended _ _ _ _
    | ok readings => exact agrees_goes hflag _
  | snapshot => exact agrees_goes hflag _
  | pause requestedBy => exact agrees_goes (applyPause_spec h true requestedBy).1.symm _
  | resume => exact agrees_goes (applyPause_spec h false none).1.symm _
  | reconnect => exact agrees_ended _ _ _ _
  | repoll =>
    have hsame := repoll_paused cfg env 0 cfg.groups loop.engine h
    unfold pollControl
    by_cases hpaused : loop.paused = true
    · simp only [if_pos hpaused]
      exact agrees_goes hflag _
    · simp only [if_neg hpaused]
      cases (repollAllGroups cfg env 0 cfg.groups loop.engine h).2.2.2 with
      | ok n =>
        apply agrees_goes
        exact hflag.trans hsame.symm
      | error e => exact agrees_ended _ _ _ _
  | browse cursor max => exact agrees_goes hflag _

/-- A paused poll loop answers every verb but a resume without publishing. -/
theorem pollControl_silent (cfg : TaskConfig) (env : StepEnv) {h : TaskHealth} {loop : PollState}
    (hpaused : h.paused = true) (hloop : loop.paused = true) {m : ControlMessage}
    (hverb : m.verb ≠ .resume) :
    Silent (pollControl cfg env h loop m).health (pollControl cfg env h loop m).effects := by
  obtain ⟨verb, reply⟩ := m
  cases verb with
  | write request => cases request <;> exact ⟨hpaused, quiet_single _ _⟩
  | readNow specs =>
    unfold pollControl
    cases hread : env.reads 0 with
    | error e => exact ⟨hpaused, quiet_single _ _⟩
    | ok readings => exact ⟨hpaused, quiet_single _ _⟩
  | snapshot => exact ⟨hpaused, quiet_single _ _⟩
  | pause requestedBy =>
    obtain ⟨hflag, hquiet, -⟩ := applyPause_spec h true requestedBy
    exact ⟨hflag, quiet_replied hquiet _ _⟩
  | resume => exact absurd rfl hverb
  | reconnect => exact ⟨hpaused, by simp [pollControl]⟩
  | repoll =>
    unfold pollControl
    simp only [hloop, if_true]
    exact ⟨hpaused, quiet_single _ _⟩
  | browse cursor max => exact ⟨hpaused, quiet_single _ _⟩

/-- It moves samples by the calls it makes. -/
theorem pollControl_flow (cfg : TaskConfig) (env : StepEnv) (h : TaskHealth) (loop : PollState)
    (m : ControlMessage) (id : String) :
    TurnFlow cfg.effectiveBatchMs PollState.engine (loop.engine.signal id).batcher.buffer
      ((controlCalls cfg env loop m).flatMap fun p => gatedIn cfg.effectiveBatchMs p.2 id p.1) id
      (pollControl cfg env h loop m) := by
  obtain ⟨verb, reply⟩ := m
  have hrefl : Flow cfg.effectiveBatchMs (loop.engine.signal id).batcher.buffer [] []
      (loop.engine.signal id).batcher.buffer := Flow.refl _ _
  cases verb with
  | write request => cases request <;> exact hrefl
  | readNow specs =>
    unfold pollControl
    cases hread : env.reads 0 with
    | error e => exact hrefl.dropped
    | ok readings => exact hrefl
  | snapshot => exact hrefl
  | pause requestedBy =>
    obtain ⟨-, -, hnone⟩ := applyPause_spec h true requestedBy
    unfold TurnFlow pollControl
    simp only [publishedSamples_replied, hnone, discard_buffer]
    exact hrefl.dropped
  | resume =>
    obtain ⟨-, -, hnone⟩ := applyPause_spec h false none
    unfold TurnFlow pollControl
    simp only [publishedSamples_replied, hnone]
    split
    · simp only [rebaseStale_batcher]
      exact hrefl
    · exact hrefl
  | reconnect => exact hrefl.dropped
  | repoll =>
    unfold pollControl controlCalls
    cases hpaused : loop.paused with
    | true => exact hrefl
    | false =>
      have hflow := flow_repoll cfg env 0 cfg.groups loop.engine h id
      unfold TurnFlow
      simp only [Bool.false_eq_true, if_false]
      cases hpolled : (repollAllGroups cfg env 0 cfg.groups loop.engine h).2.2.2 with
      | ok n =>
        simp only [publishedSamples_replied]
        exact hflow
      | error e =>
        simp only [publishedSamples_replied]
        exact hflow.dropped
  | browse cursor max => exact hrefl

/-- A wake-up of the poll loop keeps the flags agreeing. -/
theorem pollWake_agrees (cfg : TaskConfig) (env : StepEnv) {h : TaskHealth} {loop : PollState}
    (hflag : loop.paused = h.paused) :
    Agrees PollState.paused (pollWake cfg env h loop) := by
  unfold pollWake
  by_cases hpaused : loop.paused = true
  · simp only [if_pos hpaused]
    split
    · cases env.probe with
      | error e => exact agrees_ended _ _ _ _
      | ok u =>
        apply agrees_goes
        exact hflag
    · exact agrees_goes hflag _
  · simp only [if_neg hpaused]
    cases dueGroup cfg loop.deadlines (env.clock 0) with
    | none =>
      apply agrees_goes
      exact hflag
    | some due =>
      cases env.reads 0 with
      | error e => exact agrees_ended _ _ _ _
      | ok readings =>
        apply agrees_goes
        exact hflag

/-- A paused poll loop wakes for its probe only. -/
theorem pollWake_silent (cfg : TaskConfig) (env : StepEnv) {h : TaskHealth} {loop : PollState}
    (hpaused : h.paused = true) (hloop : loop.paused = true) :
    Silent (pollWake cfg env h loop).health (pollWake cfg env h loop).effects := by
  unfold pollWake
  simp only [hloop, if_true]
  split
  · cases env.probe with
    | error e => exact ⟨hpaused, by simp⟩
    | ok u => exact ⟨hpaused, by simp⟩
  · exact ⟨hpaused, by simp⟩

/-- It moves samples by the calls it makes. -/
theorem pollWake_flow (cfg : TaskConfig) (env : StepEnv) (h : TaskHealth) (loop : PollState)
    (id : String) :
    TurnFlow cfg.effectiveBatchMs PollState.engine (loop.engine.signal id).batcher.buffer
      ((wakeCalls cfg env loop).flatMap fun p => gatedIn cfg.effectiveBatchMs p.2 id p.1) id
      (pollWake cfg env h loop) := by
  have hrefl : Flow cfg.effectiveBatchMs (loop.engine.signal id).batcher.buffer [] []
      (loop.engine.signal id).batcher.buffer := Flow.refl _ _
  unfold pollWake wakeCalls
  cases hpaused : loop.paused with
  | true =>
    simp only [if_true]
    split
    · cases env.probe with
      | error e => exact hrefl.dropped
      | ok u => exact hrefl
    · exact hrefl
  | false =>
    have hflush := flow_flushDue cfg.hasSignal (env.bus 0) cfg.effectiveBatchMs loop.engine
      (env.clock 0) id
    simp only [Bool.false_eq_true, if_false]
    cases hgroup : dueGroup cfg loop.deadlines (env.clock 0) with
    | none => exact hflush
    | some due =>
      cases hread : env.reads 0 with
      | error e => exact hflush.dropped
      | ok readings =>
        have hpoll := flow_pollGroup cfg due.2 readings (env.clock 1) (env.stamp 0) (env.bus 1)
          (flushDue cfg.hasSignal (env.bus 0) cfg.effectiveBatchMs loop.engine (env.clock 0)).1
          h id
        unfold TurnFlow
        simp only [publishedSamples_append, List.flatMap_cons, List.flatMap_nil, List.append_nil]
        exact hflush.trans hpoll

/-! ## The consume loop -/

/-- A message to the push loop keeps the flags agreeing. -/
theorem pushControl_agrees (env : StepEnv) {h : TaskHealth} {loop : PushState}
    (hflag : loop.paused = h.paused) (m : ControlMessage) :
    Agrees PushState.paused (pushControl env h loop m) := by
  obtain ⟨verb, reply⟩ := m
  cases verb with
  | write request => cases request <;> exact agrees_goes hflag _
  | readNow specs => exact agrees_goes hflag _
  | snapshot => exact agrees_goes hflag _
  | pause requestedBy => exact agrees_goes (applyPause_spec h true requestedBy).1.symm _
  | resume => exact agrees_goes (applyPause_spec h false none).1.symm _
  | reconnect => exact agrees_ended _ _ _ _
  | repoll => exact agrees_goes hflag _
  | browse cursor max => exact agrees_goes hflag _

/-- It publishes nothing of a paused device, unless it is the resume. -/
theorem pushControl_silent (env : StepEnv) {h : TaskHealth} (loop : PushState)
    (hpaused : h.paused = true) {m : ControlMessage} (hverb : m.verb ≠ .resume) :
    Silent (pushControl env h loop m).health (pushControl env h loop m).effects := by
  obtain ⟨verb, reply⟩ := m
  cases verb with
  | write request => cases request <;> exact ⟨hpaused, quiet_single _ _⟩
  | readNow specs => exact ⟨hpaused, quiet_single _ _⟩
  | snapshot => exact ⟨hpaused, quiet_single _ _⟩
  | pause requestedBy =>
    obtain ⟨hflag, hquiet, -⟩ := applyPause_spec h true requestedBy
    exact ⟨hflag, quiet_replied hquiet _ _⟩
  | resume => exact absurd rfl hverb
  | reconnect => exact ⟨hpaused, by simp [pushControl]⟩
  | repoll => exact ⟨hpaused, quiet_single _ _⟩
  | browse cursor max => exact ⟨hpaused, quiet_single _ _⟩

/-- It makes no calls of the engine. -/
theorem pushControl_flow (batchMs : ℕ) (env : StepEnv) (h : TaskHealth) (loop : PushState)
    (m : ControlMessage) (id : String) :
    TurnFlow batchMs PushState.engine (loop.engine.signal id).batcher.buffer [] id
      (pushControl env h loop m) := by
  obtain ⟨verb, reply⟩ := m
  have hrefl : Flow batchMs (loop.engine.signal id).batcher.buffer [] []
      (loop.engine.signal id).batcher.buffer := Flow.refl _ _
  cases verb with
  | write request => cases request <;> exact hrefl
  | readNow specs => exact hrefl
  | snapshot => exact hrefl
  | pause requestedBy =>
    obtain ⟨-, -, hnone⟩ := applyPause_spec h true requestedBy
    unfold TurnFlow pushControl
    simp only [publishedSamples_replied, hnone, discard_buffer]
    exact hrefl.dropped
  | resume =>
    obtain ⟨-, -, hnone⟩ := applyPause_spec h false none
    unfold TurnFlow pushControl
    simp only [publishedSamples_replied, hnone]
    split
    · simp only [rebaseFrom_batcher]
      exact hrefl
    · exact hrefl
  | reconnect => exact hrefl.dropped
  | repoll => exact hrefl
  | browse cursor max => exact hrefl

/-- A flush of the push loop leaves the pause flag. -/
theorem pushFlush_paused (cfg : TaskConfig) (io : PushLayout) (env : StepEnv) (loop : PushState) :
    (pushFlush cfg io env loop).1.paused = loop.paused := by
  unfold pushFlush
  split <;> rfl

/-- A paused loop flushes nothing. -/
theorem pushFlush_silent (cfg : TaskConfig) (io : PushLayout) (env : StepEnv) {loop : PushState}
    (hloop : loop.paused = true) : pushFlush cfg io env loop = (loop, []) := by
  rw [pushFlush, if_pos hloop]

/-- A flush publishes what is held, or leaves it. -/
theorem flow_pushFlush (cfg : TaskConfig) (io : PushLayout) (env : StepEnv) (loop : PushState)
    (id : String) :
    Flow cfg.effectiveBatchMs (loop.engine.signal id).batcher.buffer []
      (publishedSamples id (pushFlush cfg io env loop).2)
      ((pushFlush cfg io env loop).1.engine.signal id).batcher.buffer := by
  unfold pushFlush
  split
  · exact Flow.refl _ _
  · exact flow_flushDue _ _ _ _ _ _

/-- A frame moves the samples of its fields. -/
theorem flow_pushFrame (cfg : TaskConfig) (io : PushLayout) (readings : List Reading)
    (serverTs : String) (env : StepEnv) (e : Engine) (h : TaskHealth) (id : String) :
    Flow cfg.effectiveBatchMs (e.signal id).batcher.buffer
      (gatedIn cfg.effectiveBatchMs (frameCall cfg io readings (env.clock 0) serverTs) id e)
      (publishedSamples id (pushFrame cfg io readings serverTs env e h).2.2)
      ((pushFrame cfg io readings serverTs env e h).1.signal id).batcher.buffer :=
  (flow_run (frameCall cfg io readings (env.clock 0) serverTs) cfg.effectiveBatchMs e id).published
    io.hasField (env.bus 0)

/-- An update of the push loop keeps the flags agreeing. -/
theorem pushUpdate_agrees (cfg : TaskConfig) (io : PushLayout) (env : StepEnv) {h : TaskHealth}
    {loop : PushState} (hflag : loop.paused = h.paused) (update : Option Device.IoUpdate) :
    Agrees PushState.paused (pushUpdate cfg io env h loop update) := by
  cases update with
  | none => exact agrees_ended _ _ _ _
  | some update =>
    cases update with
    | lost => exact agrees_ended _ _ _ _
    | up => exact agrees_goes ((pushFlush_paused cfg io env loop).trans hflag) _
    | data readings receivedAt =>
      unfold pushUpdate
      by_cases hpaused : loop.paused = true
      · simp only [if_pos hpaused]
        exact agrees_goes hflag _
      · simp only [if_neg hpaused]
        apply agrees_goes
        exact (pushFlush_paused cfg io env _).trans hflag

/-- A paused consume loop goes on consuming and publishes nothing. -/
theorem pushUpdate_silent (cfg : TaskConfig) (io : PushLayout) (env : StepEnv) {h : TaskHealth}
    {loop : PushState} (hpaused : h.paused = true) (hloop : loop.paused = true)
    (update : Option Device.IoUpdate) :
    Silent (pushUpdate cfg io env h loop update).health
      (pushUpdate cfg io env h loop update).effects := by
  cases update with
  | none => exact ⟨hpaused, by simp [pushUpdate]⟩
  | some update =>
    cases update with
    | lost => exact ⟨hpaused, by simp [pushUpdate]⟩
    | up => exact ⟨hpaused, by simp [pushUpdate, pushFlush_silent cfg io env hloop, isPublish]⟩
    | data readings receivedAt =>
      unfold pushUpdate
      simp only [if_pos hloop]
      exact ⟨hpaused, by simp⟩

/-- It moves samples by the calls it makes. -/
theorem pushUpdate_flow (cfg : TaskConfig) (io : PushLayout) (env : StepEnv) (h : TaskHealth)
    (loop : PushState) (update : Option Device.IoUpdate) (id : String) :
    TurnFlow cfg.effectiveBatchMs PushState.engine (loop.engine.signal id).batcher.buffer
      ((updateCalls cfg io env loop update).flatMap
        fun p => gatedIn cfg.effectiveBatchMs p.2 id p.1) id
      (pushUpdate cfg io env h loop update) := by
  have hrefl : Flow cfg.effectiveBatchMs (loop.engine.signal id).batcher.buffer [] []
      (loop.engine.signal id).batcher.buffer := Flow.refl _ _
  cases update with
  | none => exact hrefl.dropped
  | some update =>
    cases update with
    | lost => exact hrefl.dropped
    | up =>
      have hflush := flow_pushFlush cfg io env loop id
      unfold TurnFlow pushUpdate
      simp only [publishedSamples_append]
      exact hflush
    | data readings receivedAt =>
      unfold pushUpdate updateCalls
      by_cases hpaused : loop.paused = true
      · simp only [if_pos hpaused]
        exact hrefl
      · have hframe := flow_pushFrame cfg io readings receivedAt env loop.engine h id
        have hflush := flow_pushFlush cfg io env
          { loop with engine := (pushFrame cfg io readings receivedAt env loop.engine h).1 } id
        unfold TurnFlow
        simp only [if_neg hpaused, publishedSamples_append, List.flatMap_cons, List.flatMap_nil]
        exact hframe.trans hflush

end EnipAdapter.Analysis
