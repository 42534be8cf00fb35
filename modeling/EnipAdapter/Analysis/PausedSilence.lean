import EnipAdapter.Analysis.TaskTurns

/-!
# A paused instance is silent

The connect ladder joins the turns of the driver loops: it leaves no loop with an old flag, a
pause that comes between two connections is in the flag the next loop starts with, and an
engine does not outlive its connection.
-/

set_option autoImplicit false

namespace EnipAdapter.Analysis

open EnipAdapter.Foundation EnipAdapter.Model EnipAdapter.Interface

/-! ## The steps of a task -/

/-- What a step of the task can be: by where the task waits and what comes. -/
inductive TaskMove (cfg : TaskConfig) (task : DeviceTask) (env : StepEnv) :
    TaskInput → DeviceTask × List TaskEffect → Prop
  | idle (input : TaskInput) : TaskMove cfg task env input (task, [])
  | stops (input : TaskInput) : TaskMove cfg task env input ({ task with phase := .stopped }, [])
  | connects : TaskMove cfg task env .connected (task.connected cfg env)
  | fails (reason : String) :
      TaskMove cfg task env (.connectFailed reason)
        ({ task with pendingReconnect := none, phase := .backoff },
          task.answerReconnect (.error reason))
  | elapses : TaskMove cfg task env .elapsed ({ task with phase := .connecting }, [])
  | waits (m : ControlMessage) {h : TaskHealth} {effects : List TaskEffect}
      (hphase : task.phase = .backoff)
      (hserved : backoffControl task.health m = (h, effects, none)) :
      TaskMove cfg task env (.control m) ({ task with health := h }, effects)
  | reconnects (m : ControlMessage) {h : TaskHealth} {effects : List TaskEffect} {reply : ReplyId}
      (hphase : task.phase = .backoff)
      (hserved : backoffControl task.health m = (h, effects, some reply)) :
      TaskMove cfg task env (.control m) (⟨h, some reply, .connecting⟩, effects)
  | pollControl (loop : PollState) (m : ControlMessage) (hphase : task.phase = .polling loop) :
      TaskMove cfg task env (.control m)
        (task.afterTurn .polling (pollControl cfg env task.health loop m))
  | pollTimer (loop : PollState) (hphase : task.phase = .polling loop) :
      TaskMove cfg task env .timer (task.afterTurn .polling (pollWake cfg env task.health loop))
  | pushControl (io : PushLayout) (loop : PushState) (m : ControlMessage)
      (hphase : task.phase = .pushing io loop) :
      TaskMove cfg task env (.control m)
        (task.afterTurn (.pushing io) (pushControl env task.health loop m))
  | pushUpdate (io : PushLayout) (loop : PushState) (update : Option Device.IoUpdate)
      (hphase : task.phase = .pushing io loop) :
      TaskMove cfg task env (.update update)
        (task.afterTurn (.pushing io) (pushUpdate cfg io env task.health loop update))
  | pushTimer (io : PushLayout) (loop : PushState) (hphase : task.phase = .pushing io loop) :
      TaskMove cfg task env .timer
        (task.afterTurn (.pushing io) (pushTick cfg io env task.health loop))

/-- Every step of a task is one of its moves. -/
theorem taskStep_move (cfg : TaskConfig) (task : DeviceTask) (input : TaskInput × StepEnv) :
    TaskMove cfg task input.2 input.1 (taskStep cfg task input) := by
  obtain ⟨input, env⟩ := input
  cases hphase : task.phase with
  | stopped =>
    have hstep : taskStep cfg task (input, env) = (task, []) := by simp [taskStep, hphase]
    rw [hstep]
    exact .idle _
  | connecting =>
    cases input with
    | connected =>
      have hstep : taskStep cfg task (.connected, env) = task.connected cfg env := by
        simp [taskStep, hphase]
      rw [hstep]
      exact .connects
    | connectFailed reason =>
      simp only [taskStep, hphase]
      exact .fails reason
    | cancelled =>
      simp only [taskStep, hphase]
      exact .stops _
    | _ =>
      simp only [taskStep, hphase]
      exact .idle _
  | backoff =>
    cases input with
    | elapsed =>
      simp only [taskStep, hphase]
      exact .elapses
    | control m =>
      simp only [taskStep, hphase]
      split
      · rename_i hserved
        exact hphase ▸ .waits m hphase hserved
      · rename_i hserved
        exact .reconnects m hphase hserved
    | cancelled | closed =>
      simp only [taskStep, hphase]
      exact .stops _
    | _ =>
      simp only [taskStep, hphase]
      exact .idle _
  | polling loop =>
    cases input with
    | control m =>
      simp only [taskStep, hphase]
      exact .pollControl loop m hphase
    | timer =>
      simp only [taskStep, hphase]
      exact .pollTimer loop hphase
    | cancelled | closed =>
      simp only [taskStep, hphase]
      exact .stops _
    | _ =>
      simp only [taskStep, hphase]
      exact .idle _
  | pushing io loop =>
    cases input with
    | control m =>
      simp only [taskStep, hphase]
      exact .pushControl io loop m hphase
    | update u =>
      simp only [taskStep, hphase]
      exact .pushUpdate io loop u hphase
    | timer =>
      simp only [taskStep, hphase]
      exact .pushTimer io loop hphase
    | cancelled | closed =>
      simp only [taskStep, hphase]
      exact .stops _
    | _ =>
      simp only [taskStep, hphase]
      exact .idle _

section AfterTurn

variable {σ : Type} (enter : σ → TaskPhase) {flag : σ → Bool} {engine : σ → Engine}
  (task : DeviceTask) {turn : LoopTurn σ}

/-- A turn that keeps the flag of its loop keeps it in the task. -/
theorem afterTurn_agrees
    (henter : ∀ h pending loop, flag loop = h.paused → FlagAgrees ⟨h, pending, enter loop⟩)
    (h : Agrees flag turn) : FlagAgrees (task.afterTurn enter turn).1 := by
  unfold DeviceTask.afterTurn
  cases hnext : turn.next with
  | ok loop => exact henter _ _ _ (h loop hnext)
  | error exit => cases exit <;> trivial

/-- A turn that is silent in its loop is silent in the task. -/
theorem afterTurn_silent (h : Silent turn.health turn.effects) :
    Silent (task.afterTurn enter turn).1.health (task.afterTurn enter turn).2 := by
  unfold DeviceTask.afterTurn
  cases hnext : turn.next with
  | ok loop => exact h
  | error exit =>
    cases exit with
    | linkLost =>
      refine ⟨h.paused, ?_⟩
      intro effect hmem
      rcases List.mem_append.mp hmem with hmem | hmem
      · exact h.quiet effect hmem
      · rw [List.mem_singleton.mp hmem]
        rfl
    | reconnect reply => exact h
    | stopped => exact h

/-- A turn moves the samples of a task as it moves those of its loop. -/
theorem afterTurn_flow {batchMs : ℕ} {held gated : List Sample} {id : String}
    (henter : ∀ h pending loop,
      heldSamples ⟨h, pending, enter loop⟩ id = ((engine loop).signal id).batcher.buffer)
    (h : TurnFlow batchMs engine held gated id turn) :
    Flow batchMs held gated (publishedSamples id (task.afterTurn enter turn).2)
      (heldSamples (task.afterTurn enter turn).1 id) := by
  unfold TurnFlow at h
  unfold DeviceTask.afterTurn
  cases hnext : turn.next with
  | ok loop =>
    rw [hnext] at h
    simp only [henter]
    exact h
  | error exit =>
    rw [hnext] at h
    cases exit with
    | linkLost =>
      simp only [publishedSamples_append]
      simpa [publishedSamples, heldSamples] using h
    | reconnect reply => exact h
    | stopped => exact h

end AfterTurn

/-- Every step leaves its loop with the shared flag. -/
theorem taskStep_agrees (cfg : TaskConfig) {task : DeviceTask} (h : FlagAgrees task)
    (input : TaskInput × StepEnv) : FlagAgrees (nextTask cfg task input) := by
  obtain ⟨input, env⟩ := input
  have hmove := taskStep_move cfg task (input, env)
  unfold nextTask
  generalize taskStep cfg task (input, env) = out at hmove ⊢
  cases hmove with
  | idle => exact h
  | stops => trivial
  | connects =>
    unfold DeviceTask.connected
    cases cfg.mode with
    | poll => rfl
    | push =>
      cases cfg.io with
      | none => trivial
      | some io => rfl
  | fails reason => trivial
  | elapses => trivial
  | waits m hphase hserved =>
    unfold FlagAgrees
    rw [hphase]
    trivial
  | reconnects m hphase hserved => trivial
  | pollControl loop m hphase =>
    rw [FlagAgrees, hphase] at h
    exact afterTurn_agrees .polling task (fun _ _ _ h => h) (pollControl_agrees cfg env h m)
  | pollTimer loop hphase =>
    rw [FlagAgrees, hphase] at h
    exact afterTurn_agrees .polling task (fun _ _ _ h => h) (pollWake_agrees cfg env h)
  | pushControl io loop m hphase =>
    rw [FlagAgrees, hphase] at h
    exact afterTurn_agrees (.pushing io) task (fun _ _ _ h => h) (pushControl_agrees env h m)
  | pushUpdate io loop update hphase =>
    rw [FlagAgrees, hphase] at h
    exact afterTurn_agrees (.pushing io) task (fun _ _ _ h => h)
      (pushUpdate_agrees cfg io env h update)
  | pushTimer io loop hphase =>
    rw [FlagAgrees, hphase] at h
    have hagree : Agrees PushState.paused (pushTick cfg io env task.health loop) :=
      agrees_goes ((pushFlush_paused cfg io env loop).trans h) _
    exact afterTurn_agrees (.pushing io) task (fun _ _ _ h => h) hagree

/-- In the backoff a paused task stays silent until it is resumed. -/
theorem backoff_silent {h : TaskHealth} (hpaused : h.paused = true) {m : ControlMessage}
    (hverb : m.verb ≠ .resume) :
    Silent (backoffControl h m).1 (backoffControl h m).2.1 := by
  obtain ⟨verb, reply⟩ := m
  cases verb with
  | pause requestedBy =>
    obtain ⟨hflag, hquiet, -⟩ := applyPause_spec h true requestedBy
    exact ⟨hflag, quiet_replied hquiet _ _⟩
  | resume => exact absurd rfl hverb
  | reconnect => exact ⟨hpaused, by simp [backoffControl]⟩
  | _ => exact ⟨hpaused, quiet_single _ _⟩

/-- The answer to a reconnect publishes nothing. -/
theorem answerReconnect_quiet (task : DeviceTask) (result : Except String Unit) :
    ∀ effect ∈ task.answerReconnect result, isPublish effect = false := by
  unfold DeviceTask.answerReconnect
  intro effect hmem
  obtain ⟨reply, -, rfl⟩ := List.mem_map.mp hmem
  rfl

/-- A paused task that takes no resume stays paused and publishes nothing. -/
theorem taskStep_silent (cfg : TaskConfig) {task : DeviceTask} (hpaused : task.health.paused = true)
    (hflag : FlagAgrees task) {input : TaskInput × StepEnv} (hresume : ¬ TakesResume task input) :
    Silent (nextTask cfg task input).health (taskStep cfg task input).2 := by
  obtain ⟨input, env⟩ := input
  have hmove := taskStep_move cfg task (input, env)
  unfold nextTask
  generalize taskStep cfg task (input, env) = out at hmove ⊢
  -- a message that is taken is no resume
  have hverb : ∀ m, input = .control m → Listens task → m.verb ≠ .resume := by
    rintro ⟨verb, reply⟩ rfl hlistens hverb
    simp only at hverb
    subst hverb
    exact hresume ⟨hlistens, reply, rfl⟩
  cases hmove with
  | idle => exact ⟨hpaused, by simp⟩
  | stops => exact ⟨hpaused, by simp⟩
  | connects =>
    have hquiet := answerReconnect_quiet task (.ok ())
    unfold DeviceTask.connected
    cases cfg.mode with
    | poll => exact ⟨hpaused, by simpa [isPublish] using hquiet⟩
    | push =>
      cases cfg.io with
      | none => exact ⟨hpaused, by simp⟩
      | some io => exact ⟨hpaused, hquiet⟩
  | fails reason => exact ⟨hpaused, answerReconnect_quiet task _⟩
  | elapses => exact ⟨hpaused, by simp⟩
  | waits m hphase hserved =>
    have hsilent := backoff_silent hpaused (hverb m rfl (by simp [Listens, hphase]))
    rw [hserved] at hsilent
    exact hsilent
  | reconnects m hphase hserved =>
    have hsilent := backoff_silent hpaused (hverb m rfl (by simp [Listens, hphase]))
    rw [hserved] at hsilent
    exact hsilent
  | pollControl loop m hphase =>
    rw [FlagAgrees, hphase] at hflag
    have hother := hverb m rfl (by simp [Listens, hphase])
    exact afterTurn_silent .polling task
      (pollControl_silent cfg env hpaused (hflag.trans hpaused) hother)
  | pollTimer loop hphase =>
    rw [FlagAgrees, hphase] at hflag
    exact afterTurn_silent .polling task (pollWake_silent cfg env hpaused (hflag.trans hpaused))
  | pushControl io loop m hphase =>
    have hother := hverb m rfl (by simp [Listens, hphase])
    exact afterTurn_silent (.pushing io) task (pushControl_silent env loop hpaused hother)
  | pushUpdate io loop update hphase =>
    rw [FlagAgrees, hphase] at hflag
    exact afterTurn_silent (.pushing io) task
      (pushUpdate_silent cfg io env hpaused (hflag.trans hpaused) update)
  | pushTimer io loop hphase =>
    rw [FlagAgrees, hphase] at hflag
    apply afterTurn_silent (.pushing io) task
    refine ⟨hpaused, ?_⟩
    simp [pushTick, pushFlush_silent cfg io env (hflag.trans hpaused)]

/-! ## The samples of a step -/

/-- A step that publishes nothing and leaves the loop, or the loop as it is. -/
theorem flow_unpublished (batchMs : ℕ) (held gated : List Sample) {id : String}
    {effects : List TaskEffect} (hquiet : ∀ effect ∈ effects, isPublish effect = false) :
    Flow batchMs held gated (publishedSamples id effects) [] := by
  have hnone : publishedSamples id effects = [] := by
    apply List.flatMap_eq_nil_iff.mpr
    intro effect hmem
    cases effect with
    | published p confirmed => cases hquiet _ hmem
    | replied reply answer => rfl
    | event event => rfl
  rw [hnone]
  exact (Flow.refl batchMs held).dropped.widen gated

/-- A message in the backoff publishes nothing. -/
theorem backoff_quiet (h : TaskHealth) (m : ControlMessage) :
    ∀ effect ∈ (backoffControl h m).2.1, isPublish effect = false := by
  obtain ⟨verb, reply⟩ := m
  cases verb with
  | pause requestedBy => exact quiet_replied (applyPause_spec h true requestedBy).2.1 _ _
  | resume => exact quiet_replied (applyPause_spec h false none).2.1 _ _
  | reconnect => simp [backoffControl]
  | _ => exact quiet_single _ _

/-- What a step publishes of a signal and keeps, it held or gated in. -/
theorem taskStep_flow (cfg : TaskConfig) (task : DeviceTask) (input : TaskInput × StepEnv)
    (id : String) :
    Flow cfg.effectiveBatchMs (heldSamples task id) (gatedSamples cfg id task input)
      (publishedSamples id (taskStep cfg task input).2)
      (heldSamples (nextTask cfg task input) id) := by
  obtain ⟨input, env⟩ := input
  have hmove := taskStep_move cfg task (input, env)
  unfold nextTask
  generalize taskStep cfg task (input, env) = out at hmove ⊢
  cases hmove with
  | idle => exact (Flow.refl _ _).widen _
  | stops => exact flow_unpublished _ _ _ (by simp)
  | connects =>
    have hquiet := answerReconnect_quiet task (.ok ())
    unfold DeviceTask.connected
    cases cfg.mode with
    | poll => exact flow_unpublished _ _ _ (by simpa [isPublish] using hquiet)
    | push =>
      cases cfg.io with
      | none => exact flow_unpublished _ _ _ (by simp)
      | some io => exact flow_unpublished _ _ _ hquiet
  | fails reason => exact flow_unpublished _ _ _ (answerReconnect_quiet task _)
  | elapses => exact flow_unpublished _ _ _ (by simp)
  | waits m hphase hserved =>
    have hquiet := backoff_quiet task.health m
    rw [hserved] at hquiet
    simp only [heldSamples, hphase]
    exact flow_unpublished _ _ _ hquiet
  | reconnects m hphase hserved =>
    have hquiet := backoff_quiet task.health m
    rw [hserved] at hquiet
    exact flow_unpublished _ _ _ hquiet
  | pollControl loop m hphase =>
    have hturn := pollControl_flow cfg env task.health loop m id
    have hflow := afterTurn_flow .polling task (fun _ _ _ => rfl) hturn
    simpa only [gatedSamples, engineCalls, heldSamples, hphase] using hflow
  | pollTimer loop hphase =>
    have hturn := pollWake_flow cfg env task.health loop id
    have hflow := afterTurn_flow .polling task (fun _ _ _ => rfl) hturn
    simpa only [gatedSamples, engineCalls, heldSamples, hphase] using hflow
  | pushControl io loop m hphase =>
    have hturn := pushControl_flow cfg.effectiveBatchMs env task.health loop m id
    have hflow := afterTurn_flow (.pushing io) task (fun _ _ _ => rfl) hturn
    simp only [heldSamples, hphase]
    exact hflow.widen _
  | pushUpdate io loop update hphase =>
    have hturn := pushUpdate_flow cfg io env task.health loop update id
    have hflow := afterTurn_flow (.pushing io) task (fun _ _ _ => rfl) hturn
    simpa only [gatedSamples, engineCalls, heldSamples, hphase] using hflow
  | pushTimer io loop hphase =>
    have hflush := flow_pushFlush cfg io env loop id
    have hturn : TurnFlow cfg.effectiveBatchMs PushState.engine
        (loop.engine.signal id).batcher.buffer [] id (pushTick cfg io env task.health loop) := hflush
    have hflow := afterTurn_flow (.pushing io) task (fun _ _ _ => rfl) hturn
    simp only [heldSamples, hphase]
    exact hflow.widen _

/-! ## Runs -/

/-- A run keeps the flag of its loop. -/
theorem run_agrees (cfg : TaskConfig) {task : DeviceTask} (h : FlagAgrees task)
    (inputs : List (TaskInput × StepEnv)) : FlagAgrees (runSteps (nextTask cfg) task inputs) := by
  induction inputs generalizing task with
  | nil => exact h
  | cons input inputs ih => exact ih (taskStep_agrees cfg h input)

/-- A paused run without a resume publishes nothing. -/
theorem run_silent (cfg : TaskConfig) {task : DeviceTask} (hpaused : task.health.paused = true)
    (hflag : FlagAgrees task) {inputs : List (TaskInput × StepEnv)}
    (hresume : Guarded (nextTask cfg) (fun t i => ¬ TakesResume t i) task inputs) :
    ∀ effect ∈ taskEffects cfg task inputs, isPublish effect = false := by
  induction inputs generalizing task with
  | nil => simp [taskEffects]
  | cons input inputs ih =>
    have hstep := taskStep_silent cfg hpaused hflag hresume.1
    have hrest := ih hstep.paused (taskStep_agrees cfg hflag input) hresume.2
    intro effect hmem
    rcases List.mem_append.mp hmem with hmem | hmem
    · exact hstep.quiet effect hmem
    · exact hrest effect hmem

/-- What a run publishes of a signal, it held at its start or gated in on the way. -/
theorem run_flow (cfg : TaskConfig) (task : DeviceTask) (inputs : List (TaskInput × StepEnv))
    (id : String) :
    Flow cfg.effectiveBatchMs (heldSamples task id) (gatedOver cfg id task inputs)
      (publishedSamples id (taskEffects cfg task inputs))
      (heldSamples (runSteps (nextTask cfg) task inputs) id) := by
  induction inputs generalizing task with
  | nil => exact Flow.refl _ _
  | cons input inputs ih =>
    have hstep := taskStep_flow cfg task input id
    have hrest := ih (nextTask cfg task input)
    simp only [taskEffects, publishedSamples_append]
    exact hstep.trans hrest

/-- A pause that is answered leaves the task paused and without a sample. -/
theorem pause_taken (cfg : TaskConfig) (task : DeviceTask) {requestedBy : Option String}
    {reply : ReplyId} {env : StepEnv} {effect : TaskEffect}
    (hreply : effect ∈ (taskStep cfg task (.control ⟨.pause requestedBy, reply⟩, env)).2) :
    (nextTask cfg task (.control ⟨.pause requestedBy, reply⟩, env)).health.paused = true ∧
      ∀ id, heldSamples (nextTask cfg task (.control ⟨.pause requestedBy, reply⟩, env)) id = [] := by
  have hset := (applyPause_spec task.health true requestedBy).1
  unfold nextTask
  cases hphase : task.phase with
  | connecting =>
    simp only [taskStep, hphase] at hreply
    cases hreply
  | stopped =>
    simp only [taskStep, hphase] at hreply
    cases hreply
  | backoff =>
    simp only [taskStep, hphase, backoffControl]
    exact ⟨hset, fun _ => rfl⟩
  | polling loop =>
    simp only [taskStep, hphase, DeviceTask.afterTurn, pollControl]
    exact ⟨hset, fun id => discard_buffer loop.engine id⟩
  | pushing io loop =>
    simp only [taskStep, hphase, DeviceTask.afterTurn, pushControl]
    exact ⟨hset, fun id => discard_buffer loop.engine id⟩

/-- A task starts with its flags agreeing. -/
theorem start_agrees (cfg : TaskConfig) (health : TaskHealth) :
    FlagAgrees (DeviceTask.start cfg health) := by
  unfold DeviceTask.start FlagAgrees
  cases cfg.mode <;> cases cfg.io <;> trivial

/-- A paused instance is silent: in every run of a poll or push task the flag of a driver loop
is the shared one at each of its heads; from the answer to a pause until a resume is taken
nothing is published; and what is published of a signal after a pause, in order, are samples
gated in after it. -/
theorem paused_instance_is_silent (cfg : TaskConfig) (health : TaskHealth)
    (before : List (TaskInput × StepEnv)) :
    FlagAgrees (taskAfter cfg health before) ∧
      ∀ (requestedBy : Option String) (reply : ReplyId) (env : StepEnv) (changed : Bool),
        TaskEffect.replied reply (.changed changed) ∈
            (taskStep cfg (taskAfter cfg health before)
              (.control ⟨.pause requestedBy, reply⟩, env)).2 →
          ∀ after : List (TaskInput × StepEnv),
            let task := nextTask cfg (taskAfter cfg health before)
              (.control ⟨.pause requestedBy, reply⟩, env)
            (Guarded (nextTask cfg) (fun t i => ¬ TakesResume t i) task after →
                ∀ effect ∈ taskEffects cfg task after, isPublish effect = false) ∧
              ∀ id, (publishedSamples id (taskEffects cfg task after)).Sublist
                (gatedOver cfg id task after) := by
  have hagrees : FlagAgrees (taskAfter cfg health before) :=
    run_agrees cfg (start_agrees cfg health) before
  refine ⟨hagrees, ?_⟩
  intro requestedBy reply env changed hreply after task
  obtain ⟨hpaused, hempty⟩ := pause_taken cfg (taskAfter cfg health before) hreply
  have hflag := taskStep_agrees cfg hagrees (.control ⟨.pause requestedBy, reply⟩, env)
  refine ⟨fun hresume => run_silent cfg hpaused hflag hresume, ?_⟩
  intro id
  have hflow := run_flow cfg task after id
  rw [hempty id] at hflow
  obtain ⟨-, hsub⟩ := hflow (fun _ => rfl)
  rw [List.nil_append] at hsub
  exact (List.sublist_append_left _ _).trans hsub

/-- A group of one signal, polled every hundred milliseconds. -/
def speedSchedule : ScheduledGroup where
  id := none
  signals := [⟨"line-speed", "LINE_SPEED", .dint, none, none, none, {}⟩]
  pollIntervalMs := some 100

/-- A poll task of the group that batches for a second. -/
def speedTask : TaskConfig where
  mode := .poll
  groups := [speedSchedule]
  defaults := { batchMs := some 1000 }
  keepaliveMs := 5000

/-- A step at an instant in milliseconds, in which the signal would read as a value. -/
def speedAt (ms value : ℕ) : StepEnv where
  clock _ := Duration.fromMillis ms
  stamp _ := toString ms
  reads _ := .ok [⟨"LINE_SPEED", none, .ofNat value, .good, none, none⟩]

/-- The first connection, and a reading that waits in an open window. -/
def windowOpened : List (TaskInput × StepEnv) :=
  [(.connected, speedAt 0 5), (.timer, speedAt 150 5)]

/-- The end of the window and the next deadlines, while the task is paused. -/
def pausedTimers : List (TaskInput × StepEnv) :=
  [(.timer, speedAt 1200 5), (.timer, speedAt 1400 5)]

/-- A resume, a reading of another value, and the end of its window. -/
def resumedTimers : List (TaskInput × StepEnv) :=
  [(.control ⟨.resume, 8⟩, speedAt 2000 6), (.timer, speedAt 2150 6), (.timer, speedAt 3300 6)]

/-- A task that is paused with a sample in its window: the timers publish nothing, and after the
resume only the reading gated in after the pause reaches the bus. -/
theorem paused_instance_is_silent_polling :
    let pause : TaskInput × StepEnv := (.control ⟨.pause (some "hmi"), 7⟩, speedAt 200 5)
    let paused := nextTask speedTask (taskAfter speedTask {} windowOpened) pause
    (heldSamples (taskAfter speedTask {} windowOpened) "LINE_SPEED").map (·.serverTs) = [some "150"] ∧
      TaskEffect.replied 7 (.changed true) ∈
        (taskStep speedTask (taskAfter speedTask {} windowOpened) pause).2 ∧
      (∀ effect ∈ taskEffects speedTask paused pausedTimers, isPublish effect = false) ∧
      (publishedSamples "LINE_SPEED" (taskEffects speedTask paused
        (pausedTimers ++ resumedTimers))).map (·.serverTs) = [some "2150"] ∧
      (publishedSamples "LINE_SPEED" (taskEffects speedTask paused
        (pausedTimers ++ resumedTimers))).Sublist
        (gatedOver speedTask "LINE_SPEED" paused (pausedTimers ++ resumedTimers)) := by
  intro pause paused
  have hreply : TaskEffect.replied 7 (.changed true) ∈
      (taskStep speedTask (taskAfter speedTask {} windowOpened) pause).2 :=
    List.Mem.tail _ (List.Mem.head _)
  have hsilent := (paused_instance_is_silent speedTask {} windowOpened).2 (some "hmi") 7
    (speedAt 200 5) true hreply
  have hresume : Guarded (nextTask speedTask) (fun t i => ¬ TakesResume t i) paused
      pausedTimers := by
    refine ⟨?_, ?_, trivial⟩ <;> rintro ⟨-, reply, htimer⟩ <;> cases htimer
  refine ⟨by decide +kernel, hreply, (hsilent pausedTimers).1 hresume, by decide +kernel,
    (hsilent (pausedTimers ++ resumedTimers)).2 "LINE_SPEED"⟩

end EnipAdapter.Analysis
