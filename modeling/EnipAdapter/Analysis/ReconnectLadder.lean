import EnipAdapter.Analysis.LadderTurns

/-!
# A reconnect through the ladder

The reply of a reconnect that was taken is pending until the next connect attempt completes, and
nowhere else: the invariant is that a task which listens to its channel has none. Reply channels
are told apart by the run, so that whoever is answered is the one whose reply was pending.
-/

set_option autoImplicit false

namespace EnipAdapter.Analysis

open EnipAdapter.Foundation EnipAdapter.Model EnipAdapter.Interface

/-! ## One step -/

/-- Where no reconnect may be pending: in a driver loop and in a backoff. A push task without its
block never gets anywhere. -/
structure LadderSettled (cfg : TaskConfig) (task : DeviceTask) : Prop where
  listening : Listens task → task.pendingReconnect = none
  block : cfg.mode = .push → cfg.io = none → task.phase = .stopped

/-- What a step can do to the replies: take a reconnect, answer another message, complete a connect
attempt, or answer nobody. -/
inductive ReplyMove (task : DeviceTask) (input : TaskInput) (task' : DeviceTask)
    (effects : List TaskEffect) : Prop where
  | takes (reply : ReplyId) (htaken : takenMessage task input = some ⟨.reconnect, reply⟩)
      (hbusy : ¬ Listens task') (hpending : task'.pendingReconnect = some reply)
      (hnone : effects = [])
  | answers (m : ControlMessage) (htaken : takenMessage task input = some m)
      (hverb : m.verb ≠ .reconnect) (hpending : task'.pendingReconnect = none)
      (hothers : ∀ reply, reply ≠ m.reply → answersTo reply effects = [])
  | completes (outcome : Except String Unit) (hdone : attemptOutcome task input = some outcome)
      (htaken : takenMessage task input = none) (hpending : task'.pendingReconnect = none)
      (hanswer : ∀ reply, answersTo reply effects =
        if task.pendingReconnect = some reply then [.reconnected outcome] else [])
  | keeps (hdone : attemptOutcome task input = none) (htaken : takenMessage task input = none)
      (hpending : task'.pendingReconnect = task.pendingReconnect)
      (hbusy : ¬ Listens task → ¬ Listens task') (hnone : ∀ reply, answersTo reply effects = [])

/-- A polling task takes messages. -/
theorem listens_polling {task : DeviceTask} {loop : PollState}
    (h : task.phase = .polling loop) : Listens task := by
  unfold Listens
  rw [h]
  trivial

/-- A pushing task takes messages. -/
theorem listens_pushing {task : DeviceTask} {io : PushLayout} {loop : PushState}
    (h : task.phase = .pushing io loop) : Listens task := by
  unfold Listens
  rw [h]
  trivial

/-- A task in backoff takes messages. -/
theorem listens_backoff {task : DeviceTask} (h : task.phase = .backoff) : Listens task := by
  unfold Listens
  rw [h]
  trivial

/-- A connecting task takes none. -/
theorem not_listens_connecting {task : DeviceTask} (h : task.phase = .connecting) :
    ¬ Listens task := by
  unfold Listens
  rw [h]
  exact not_false

/-- A stopped task takes none. -/
theorem not_listens_stopped {task : DeviceTask} (h : task.phase = .stopped) :
    ¬ Listens task := by
  unfold Listens
  rw [h]
  exact not_false

/-- A connect attempt completes where no message is taken. -/
theorem attemptOutcome_listens {task : DeviceTask} (h : Listens task) (input : TaskInput) :
    attemptOutcome task input = none := by
  unfold attemptOutcome
  cases hphase : task.phase with
  | connecting => exact absurd h (not_listens_connecting hphase)
  | backoff | polling _ | pushing _ _ | stopped => rfl

/-- A listening task takes the message it is sent. -/
theorem takenMessage_listens {task : DeviceTask} (h : Listens task) (m : ControlMessage) :
    takenMessage task (.control m) = some m := by
  unfold Listens at h
  unfold takenMessage
  cases hphase : task.phase with
  | backoff => rfl
  | polling loop => rfl
  | pushing io loop => rfl
  | connecting =>
      rw [hphase] at h
      exact h.elim
  | stopped =>
      rw [hphase] at h
      exact h.elim

/-- A reply answers its own request. -/
theorem answersTo_replied (reply other : ReplyId) (answer : ControlAnswer) :
    answersTo reply [.replied other answer] = if other = reply then [answer] else [] := by
  by_cases h : other = reply
  · rw [if_pos h]
    simp [answersTo, h]
  · rw [if_neg h]
    simp [answersTo, h]

/-- The outcome of an attempt answers the reconnect that is pending. -/
theorem answersTo_answerReconnect (task : DeviceTask) (outcome : Except String Unit)
    (reply : ReplyId) :
    answersTo reply (task.answerReconnect outcome) =
      if task.pendingReconnect = some reply then [.reconnected outcome] else [] := by
  unfold DeviceTask.answerReconnect
  cases task.pendingReconnect with
  | none => rfl
  | some pending =>
      show answersTo reply [.replied pending (.reconnected outcome)] = _
      rw [answersTo_replied]
      simp only [Option.some.injEq]

section AfterTurn

variable {σ : Type} {enter : σ → TaskPhase} {task : DeviceTask} {input : TaskInput}
  {turn : LoopTurn σ} {m : ControlMessage}

/-- A turn that serves its message moves the replies rightly. -/
theorem afterTurn_served (htaken : takenMessage task input = some m)
    (hpending : task.pendingReconnect = none) (h : ServesMessage m turn) :
    ReplyMove task input (task.afterTurn enter turn).1 (task.afterTurn enter turn).2 := by
  obtain ⟨verb, reply⟩ := m
  by_cases hverb : verb = .reconnect
  · obtain ⟨heffects, hnext⟩ := h.reconnects hverb
    subst hverb
    have hturn : task.afterTurn enter turn =
        (⟨turn.health, some reply, .connecting⟩, turn.effects) := by
      unfold DeviceTask.afterTurn
      rw [hnext]
    rw [hturn]
    exact .takes reply htaken (not_listens_connecting rfl) rfl heffects
  · obtain ⟨⟨before, answer, heffects, hplain⟩, hnext⟩ := h.answers hverb
    have hothers : ∀ other, other ≠ reply → answersTo other turn.effects = [] := by
      intro other hne
      rw [heffects, answersTo_append, answersTo_plain hplain, answersTo_replied,
        if_neg (Ne.symm hne)]
      rfl
    unfold DeviceTask.afterTurn
    cases hexit : turn.next with
    | ok loop => exact .answers _ htaken hverb hpending hothers
    | error exit =>
        cases exit with
        | reconnect other => exact absurd hexit (hnext other)
        | stopped => exact .answers _ htaken hverb hpending hothers
        | linkLost =>
            refine .answers _ htaken hverb hpending ?_
            intro other hne
            rw [answersTo_append, hothers other hne]
            rfl

/-- So does a turn that was asked nothing. -/
theorem afterTurn_unasked (hlistens : Listens task) (htaken : takenMessage task input = none)
    (h : Unasked turn) :
    ReplyMove task input (task.afterTurn enter turn).1 (task.afterTurn enter turn).2 := by
  have hdone := attemptOutcome_listens hlistens input
  have hnone := answersTo_plain h.plain
  unfold DeviceTask.afterTurn
  cases hexit : turn.next with
  | ok loop => exact .keeps hdone htaken rfl (absurd hlistens) hnone
  | error exit =>
      cases exit with
      | reconnect other => exact absurd hexit (h.next other)
      | stopped => exact .keeps hdone htaken rfl (absurd hlistens) hnone
      | linkLost =>
          refine .keeps hdone htaken rfl (absurd hlistens) ?_
          intro reply
          rw [answersTo_append, hnone reply]
          rfl

end AfterTurn

/-- And a step that answers nobody and takes nothing. -/
theorem keeps_still {task task' : DeviceTask} {input : TaskInput}
    (hdone : attemptOutcome task input = none) (htaken : takenMessage task input = none)
    (hpending : task'.pendingReconnect = task.pendingReconnect)
    (hbusy : ¬ Listens task → ¬ Listens task') : ReplyMove task input task' [] :=
  .keeps hdone htaken hpending hbusy (fun _ => rfl)

/-- While connecting only the outcome of the attempt answers. -/
theorem connecting_move {cfg : TaskConfig} {task : DeviceTask} (hset : LadderSettled cfg task)
    (hphase : task.phase = .connecting) (input : TaskInput × StepEnv) :
    ReplyMove task input.1 (taskStep cfg task input).1 (taskStep cfg task input).2 := by
  obtain ⟨input, env⟩ := input
  have htaken : takenMessage task input = none := by
    unfold takenMessage
    rw [hphase]
  cases input with
  | connected =>
      have hstep : taskStep cfg task (.connected, env) = task.connected cfg env := by
        simp only [taskStep, hphase]
      have hdone : attemptOutcome task .connected = some (.ok ()) := by
        unfold attemptOutcome
        rw [hphase]
      rw [hstep]
      unfold DeviceTask.connected
      cases hmode : cfg.mode with
      | poll =>
          refine .completes (.ok ()) hdone htaken rfl ?_
          intro reply
          rw [answersTo_append, answersTo_answerReconnect]
          rfl
      | push =>
          cases hio : cfg.io with
          | none =>
              have hstopped := hset.block hmode hio
              rw [hphase] at hstopped
              cases hstopped
          | some io =>
              exact .completes (.ok ()) hdone htaken rfl (answersTo_answerReconnect task (.ok ()))
  | connectFailed reason =>
      have hdone : attemptOutcome task (.connectFailed reason) = some (.error reason) := by
        unfold attemptOutcome
        rw [hphase]
      simp only [taskStep, hphase]
      exact .completes (.error reason) hdone htaken rfl
        (answersTo_answerReconnect task (.error reason))
  | cancelled =>
      simp only [taskStep, hphase]
      exact keeps_still (by simp only [attemptOutcome, hphase]) htaken rfl
        (fun _ => not_listens_stopped rfl)
  | closed | control _ | elapsed | timer | update _ =>
      simp only [taskStep, hphase]
      exact keeps_still (by simp only [attemptOutcome, hphase]) htaken rfl id

/-- In the backoff every message is answered, or its reconnect is pending. -/
theorem backoff_move {cfg : TaskConfig} {task : DeviceTask} (hset : LadderSettled cfg task)
    (hphase : task.phase = .backoff) (input : TaskInput × StepEnv) :
    ReplyMove task input.1 (taskStep cfg task input).1 (taskStep cfg task input).2 := by
  obtain ⟨input, env⟩ := input
  have hlistens := listens_backoff hphase
  cases input with
  | control m =>
      have htaken := takenMessage_listens hlistens m
      obtain ⟨verb, reply⟩ := m
      by_cases hverb : verb = .reconnect
      · subst hverb
        have hstep : taskStep cfg task (.control ⟨.reconnect, reply⟩, env) =
            (⟨task.health, some reply, .connecting⟩, []) := by
          simp only [taskStep, hphase, backoffControl]
        rw [hstep]
        exact .takes reply htaken (not_listens_connecting rfl) rfl rfl
      · obtain ⟨h', before, answer, hserved, hplain⟩ :=
          backoffControl_answers task.health (m := ⟨verb, reply⟩) hverb
        have hstep : taskStep cfg task (.control ⟨verb, reply⟩, env) =
            ({ task with health := h' }, before ++ [.replied reply answer]) := by
          simp only [taskStep, hphase, hserved]
        rw [hstep]
        refine .answers _ htaken hverb (hset.listening hlistens) ?_
        intro other hne
        rw [answersTo_append, answersTo_plain hplain, answersTo_replied, if_neg (Ne.symm hne)]
        rfl
  | cancelled | closed | elapsed | connected | connectFailed _ | timer | update _ =>
      simp only [taskStep, hphase]
      have hstill := attemptOutcome_listens hlistens
      exact keeps_still (hstill _) (by simp only [takenMessage, hphase]) rfl
        (absurd hlistens)

/-- So it is in the poll loop. -/
theorem polling_move {cfg : TaskConfig} {task : DeviceTask} (hset : LadderSettled cfg task)
    {loop : PollState} (hphase : task.phase = .polling loop) (input : TaskInput × StepEnv) :
    ReplyMove task input.1 (taskStep cfg task input).1 (taskStep cfg task input).2 := by
  obtain ⟨input, env⟩ := input
  have hlistens := listens_polling hphase
  cases input with
  | control m =>
      simp only [taskStep, hphase]
      exact afterTurn_served (takenMessage_listens hlistens m) (hset.listening hlistens)
        (pollControl_serves cfg env task.health loop m)
  | timer =>
      simp only [taskStep, hphase]
      exact afterTurn_unasked hlistens (by simp only [takenMessage, hphase])
        (pollWake_unasked cfg env task.health loop)
  | cancelled | closed | elapsed | connected | connectFailed _ | update _ =>
      simp only [taskStep, hphase]
      have hstill := attemptOutcome_listens hlistens
      exact keeps_still (hstill _) (by simp only [takenMessage, hphase]) rfl
        (absurd hlistens)

/-- And in the push loop. -/
theorem pushing_move {cfg : TaskConfig} {task : DeviceTask} (hset : LadderSettled cfg task)
    {io : PushLayout} {loop : PushState} (hphase : task.phase = .pushing io loop)
    (input : TaskInput × StepEnv) :
    ReplyMove task input.1 (taskStep cfg task input).1 (taskStep cfg task input).2 := by
  obtain ⟨input, env⟩ := input
  have hlistens := listens_pushing hphase
  cases input with
  | control m =>
      simp only [taskStep, hphase]
      exact afterTurn_served (takenMessage_listens hlistens m) (hset.listening hlistens)
        (pushControl_serves env task.health loop m)
  | update u =>
      simp only [taskStep, hphase]
      exact afterTurn_unasked hlistens (by simp only [takenMessage, hphase])
        (pushUpdate_unasked cfg io env task.health loop u)
  | timer =>
      simp only [taskStep, hphase]
      exact afterTurn_unasked hlistens (by simp only [takenMessage, hphase])
        (pushTick_unasked cfg io env task.health loop)
  | cancelled | closed | elapsed | connected | connectFailed _ =>
      simp only [taskStep, hphase]
      have hstill := attemptOutcome_listens hlistens
      exact keeps_still (hstill _) (by simp only [takenMessage, hphase]) rfl
        (absurd hlistens)

/-- One step, by where the task waits. -/
theorem step_replyMove {cfg : TaskConfig} {task : DeviceTask} (hset : LadderSettled cfg task)
    (input : TaskInput × StepEnv) :
    ReplyMove task input.1 (taskStep cfg task input).1 (taskStep cfg task input).2 := by
  cases hphase : task.phase with
  | connecting => exact connecting_move hset hphase input
  | backoff => exact backoff_move hset hphase input
  | polling loop => exact polling_move hset hphase input
  | pushing io loop => exact pushing_move hset hphase input
  | stopped =>
      have hstep : taskStep cfg task input = (task, []) := by
        simp only [taskStep, hphase]
      rw [hstep]
      refine keeps_still ?_ ?_ rfl id
      · simp only [attemptOutcome, hphase]
      · simp only [takenMessage, hphase]

/-! ## Whole runs -/

/-- A ladder starts with nothing pending. -/
theorem ladderSettled_start (cfg : TaskConfig) (health : TaskHealth) :
    LadderSettled cfg (DeviceTask.start cfg health) where
  listening := fun _ => rfl
  block := by
    intro hmode hio
    unfold DeviceTask.start
    rw [hmode, hio]

/-- Every step keeps it settled. -/
theorem ladderSettled_step {cfg : TaskConfig} {task : DeviceTask} (hset : LadderSettled cfg task)
    (input : TaskInput × StepEnv) : LadderSettled cfg (nextTask cfg task input) where
  listening := by
    intro hlistens
    cases step_replyMove hset input with
    | takes reply htaken hbusy hpending hnone => exact absurd hlistens hbusy
    | answers m htaken hverb hpending hothers => exact hpending
    | completes outcome hdone htaken hpending hanswer => exact hpending
    | keeps hdone htaken hpending hbusy hnone =>
        by_cases hbefore : Listens task
        · exact hpending.trans (hset.listening hbefore)
        · exact absurd hlistens (hbusy hbefore)
  block := by
    intro hmode hio
    have hphase := hset.block hmode hio
    have hstep : nextTask cfg task input = task := by
      simp only [nextTask, taskStep, hphase]
    rw [hstep]
    exact hphase

/-- So does every run. -/
theorem ladderSettled_run {cfg : TaskConfig} {task : DeviceTask} (hset : LadderSettled cfg task)
    (inputs : List (TaskInput × StepEnv)) :
    LadderSettled cfg (runSteps (nextTask cfg) task inputs) := by
  induction inputs generalizing task with
  | nil => exact hset
  | cons input rest ih => exact ih (ladderSettled_step hset input)

/-- The effects of a run are those of its parts, the later from where the earlier leads. -/
theorem taskEffects_append (cfg : TaskConfig) (task : DeviceTask)
    (before after : List (TaskInput × StepEnv)) :
    taskEffects cfg task (before ++ after) =
      taskEffects cfg task before ++
        taskEffects cfg (runSteps (nextTask cfg) task before) after := by
  induction before generalizing task with
  | nil => rfl
  | cons input rest ih =>
      show _ ++ taskEffects cfg (nextTask cfg task input) (rest ++ after) = _
      rw [ih, ← List.append_assoc]
      rfl

/-- So are the requests it takes. -/
theorem takenReplies_append (cfg : TaskConfig) (task : DeviceTask)
    (before after : List (TaskInput × StepEnv)) :
    takenReplies cfg task (before ++ after) =
      takenReplies cfg task before ++
        takenReplies cfg (runSteps (nextTask cfg) task before) after := by
  induction before generalizing task with
  | nil => rfl
  | cons input rest ih =>
      show _ ++ takenReplies cfg (nextTask cfg task input) (rest ++ after) = _
      rw [ih, ← List.append_assoc]
      rfl

/-- A channel that is not pending, and whose message is not taken, is sent nothing. -/
theorem answersTo_untaken {cfg : TaskConfig} {task : DeviceTask} {reply : ReplyId}
    (hset : LadderSettled cfg task) (hpending : task.pendingReconnect ≠ some reply)
    {inputs : List (TaskInput × StepEnv)} (h : reply ∉ takenReplies cfg task inputs) :
    answersTo reply (taskEffects cfg task inputs) = [] := by
  induction inputs generalizing task with
  | nil => rfl
  | cons input rest ih =>
      obtain ⟨hhere, hlater⟩ :
          reply ∉ ((takenMessage task input.1).map ControlMessage.reply).toList ∧
          reply ∉ takenReplies cfg (nextTask cfg task input) rest := by
        rw [← not_or, ← List.mem_append]
        exact h
      have hset' := ladderSettled_step hset input
      have hrun : taskEffects cfg task (input :: rest) =
          (taskStep cfg task input).2 ++ taskEffects cfg (nextTask cfg task input) rest := rfl
      rw [hrun, answersTo_append]
      cases step_replyMove hset input with
      | takes other htaken hbusy hnext hnone =>
          have hne : other ≠ reply := by
            intro heq
            rw [htaken] at hhere
            exact hhere (List.mem_singleton.mpr heq.symm)
          rw [hnone, ih hset' _ hlater]
          · rfl
          · intro hsome
            exact hne (Option.some.inj (hnext.symm.trans hsome))
      | answers m htaken hverb hnext hothers =>
          have hne : reply ≠ m.reply := by
            intro heq
            rw [htaken] at hhere
            exact hhere (List.mem_singleton.mpr heq)
          rw [hothers reply hne, ih hset' _ hlater]
          · rfl
          · intro hsome
            cases hnext.symm.trans hsome
      | completes outcome hdone htaken hnext hanswer =>
          rw [hanswer reply, if_neg hpending, ih hset' _ hlater]
          · rfl
          · intro hsome
            cases hnext.symm.trans hsome
      | keeps hdone htaken hnext hbusy hnone =>
          rw [hnone reply, ih hset' _ hlater]
          · rfl
          · intro hsome
            exact hpending (hnext.symm.trans hsome)

/-- A pending reply is sent the outcome of the first attempt that completes, and no more. -/
theorem answersTo_pending {cfg : TaskConfig} {task : DeviceTask} {reply : ReplyId}
    (hset : LadderSettled cfg task) (hbusy : ¬ Listens task)
    (hpending : task.pendingReconnect = some reply) {inputs : List (TaskInput × StepEnv)}
    (h : reply ∉ takenReplies cfg task inputs) :
    answersTo reply (taskEffects cfg task inputs) =
      ((firstOutcome cfg task inputs).map ControlAnswer.reconnected).toList := by
  induction inputs generalizing task with
  | nil => rfl
  | cons input rest ih =>
      have hlater : reply ∉ takenReplies cfg (nextTask cfg task input) rest := by
        intro hmem
        exact h (List.mem_append_right _ hmem)
      have hset' := ladderSettled_step hset input
      have hrun : taskEffects cfg task (input :: rest) =
          (taskStep cfg task input).2 ++ taskEffects cfg (nextTask cfg task input) rest := rfl
      have hfirst : firstOutcome cfg task (input :: rest) =
          (attemptOutcome task input.1).or (firstOutcome cfg (nextTask cfg task input) rest) := rfl
      have hdeaf : takenMessage task input.1 = none := by
        unfold Listens at hbusy
        unfold takenMessage
        cases hphase : task.phase with
        | connecting | stopped => rfl
        | backoff | polling _ | pushing _ _ =>
            rw [hphase] at hbusy
            exact absurd trivial hbusy
      rw [hrun, hfirst, answersTo_append]
      cases step_replyMove hset input with
      | takes other htaken hbusy' hnext hnone => cases hdeaf.symm.trans htaken
      | answers m htaken hverb hnext hothers => cases hdeaf.symm.trans htaken
      | completes outcome hdone htaken hnext hanswer =>
          have hrest : answersTo reply (taskEffects cfg (nextTask cfg task input) rest) = [] := by
            apply answersTo_untaken hset' _ hlater
            intro hsome
            cases hnext.symm.trans hsome
          rw [hanswer reply, if_pos hpending, hdone, hrest]
          rfl
      | keeps hdone htaken hnext hbusy' hnone =>
          rw [hnone reply, hdone, ih hset' (hbusy' hbusy) (hnext.trans hpending) hlater]
          rfl

/-- A reconnect that is taken is pending from then on. -/
theorem answersTo_taken {cfg : TaskConfig} {task : DeviceTask} {reply : ReplyId} {env : StepEnv}
    {after : List (TaskInput × StepEnv)} (hset : LadderSettled cfg task) (hlistens : Listens task)
    (h : reply ∉ takenReplies cfg (nextTask cfg task (.control ⟨.reconnect, reply⟩, env)) after) :
    answersTo reply (taskEffects cfg task ((.control ⟨.reconnect, reply⟩, env) :: after)) =
      ((firstOutcome cfg (nextTask cfg task (.control ⟨.reconnect, reply⟩, env)) after).map
        ControlAnswer.reconnected).toList := by
  have hmessage := takenMessage_listens hlistens ⟨.reconnect, reply⟩
  have hset' := ladderSettled_step hset (.control ⟨.reconnect, reply⟩, env)
  have hrun : taskEffects cfg task ((.control ⟨.reconnect, reply⟩, env) :: after) =
      (taskStep cfg task (.control ⟨.reconnect, reply⟩, env)).2 ++
        taskEffects cfg (nextTask cfg task (.control ⟨.reconnect, reply⟩, env)) after := rfl
  cases step_replyMove hset (.control ⟨.reconnect, reply⟩, env) with
  | takes other htaken hbusy hpending hnone =>
      cases hmessage.symm.trans htaken
      rw [hrun, hnone, List.nil_append]
      exact answersTo_pending hset' hbusy hpending h
  | answers m htaken hverb hpending hothers =>
      cases hmessage.symm.trans htaken
      exact absurd rfl hverb
  | completes outcome hdone htaken hpending hanswer => cases hmessage.symm.trans htaken
  | keeps hdone htaken hpending hbusy hnone => cases hmessage.symm.trans htaken

/-! ## The alarm -/

/-- The alarm is raised once by a lost link, and by no other end of a loop. -/
structure AlarmOf (exit : Option LoopExit) (effects : List TaskEffect) : Prop where
  raised : exit = some .linkLost → raises effects = 1
  silent : exit ≠ some .linkLost → raises effects = 0

/-- Where no loop is left, no alarm is raised. -/
theorem alarmOf_none {effects : List TaskEffect} (h : raises effects = 0) :
    AlarmOf none effects :=
  ⟨nofun, fun _ => h⟩

/-- A stop raises none. -/
theorem alarmOf_stopped : AlarmOf (some .stopped) [] :=
  ⟨nofun, fun _ => rfl⟩

/-- A reply raises none. -/
theorem raises_replied (reply : ReplyId) (answer : ControlAnswer) :
    raises [.replied reply answer] = 0 := rfl

/-- Neither does the answer to a reconnect. -/
theorem raises_answerReconnect (task : DeviceTask) (outcome : Except String Unit) :
    raises (task.answerReconnect outcome) = 0 := by
  unfold DeviceTask.answerReconnect
  cases task.pendingReconnect <;> rfl

section AfterTurn

variable {σ : Type} {enter : σ → TaskPhase} {turn : LoopTurn σ}

/-- Neither does a message that is served. -/
theorem raises_served {m : ControlMessage} (h : ServesMessage m turn) :
    raises turn.effects = 0 := by
  by_cases hverb : m.verb = .reconnect
  · rw [(h.reconnects hverb).1]
    rfl
  · obtain ⟨before, answer, heffects, hplain⟩ := (h.answers hverb).effects
    rw [heffects, raises_append, raises_plain hplain, raises_replied]

/-- A turn raises the alarm exactly when it loses the link. -/
theorem afterTurn_alarm (task : DeviceTask) (h : raises turn.effects = 0) :
    AlarmOf (turnExit turn) (task.afterTurn enter turn).2 := by
  unfold turnExit DeviceTask.afterTurn
  cases turn.next with
  | ok loop => exact alarmOf_none h
  | error exit =>
      cases exit with
      | linkLost =>
          refine ⟨fun _ => ?_, fun hnot => absurd rfl hnot⟩
          rw [raises_append, h]
          rfl
      | reconnect reply => exact ⟨nofun, fun _ => h⟩
      | stopped => exact ⟨nofun, fun _ => h⟩

end AfterTurn

/-- While connecting no loop is left, and no alarm raised that way. -/
theorem connecting_alarm (cfg : TaskConfig) (env : StepEnv) {task : DeviceTask}
    (hphase : task.phase = .connecting) (input : TaskInput) :
    AlarmOf (loopExit cfg task (input, env)) (taskStep cfg task (input, env)).2 := by
  cases input with
  | connected =>
      simp only [taskStep, loopExit, hphase]
      unfold DeviceTask.connected
      cases cfg.mode with
      | poll =>
          apply alarmOf_none
          rw [raises_append, raises_answerReconnect]
          rfl
      | push =>
          cases cfg.io with
          | none => exact alarmOf_none rfl
          | some io => exact alarmOf_none (raises_answerReconnect task (.ok ()))
  | connectFailed reason =>
      simp only [taskStep, loopExit, hphase]
      exact alarmOf_none (raises_answerReconnect task (.error reason))
  | cancelled | closed | control _ | elapsed | timer | update _ =>
      simp only [taskStep, loopExit, hphase]
      exact alarmOf_none rfl

/-- The same in the backoff. -/
theorem backoff_alarm (cfg : TaskConfig) (env : StepEnv) {task : DeviceTask}
    (hphase : task.phase = .backoff) (input : TaskInput) :
    AlarmOf (loopExit cfg task (input, env)) (taskStep cfg task (input, env)).2 := by
  cases input with
  | control m =>
      by_cases hverb : m.verb = .reconnect
      · simp only [taskStep, loopExit, hphase, backoffControl, hverb]
        exact alarmOf_none rfl
      · obtain ⟨h', before, answer, hserved, hplain⟩ :=
          backoffControl_answers task.health hverb
        simp only [taskStep, loopExit, hphase, hserved]
        apply alarmOf_none
        rw [raises_append, raises_plain hplain, raises_replied]
  | cancelled | closed | elapsed | connected | connectFailed _ | timer | update _ =>
      simp only [taskStep, loopExit, hphase]
      exact alarmOf_none rfl

/-- The poll loop raises the alarm when it loses the link. -/
theorem polling_alarm (cfg : TaskConfig) (env : StepEnv) {task : DeviceTask} {loop : PollState}
    (hphase : task.phase = .polling loop) (input : TaskInput) :
    AlarmOf (loopExit cfg task (input, env)) (taskStep cfg task (input, env)).2 := by
  cases input with
  | control m =>
      simp only [taskStep, loopExit, hphase]
      exact afterTurn_alarm task (raises_served (pollControl_serves cfg env task.health loop m))
  | timer =>
      simp only [taskStep, loopExit, hphase]
      exact afterTurn_alarm task
        (raises_plain (pollWake_unasked cfg env task.health loop).plain)
  | cancelled | closed =>
      simp only [taskStep, loopExit, hphase]
      exact alarmOf_stopped
  | elapsed | connected | connectFailed _ | update _ =>
      simp only [taskStep, loopExit, hphase]
      exact alarmOf_none rfl

/-- So does the push loop. -/
theorem pushing_alarm (cfg : TaskConfig) (env : StepEnv) {task : DeviceTask} {io : PushLayout}
    {loop : PushState} (hphase : task.phase = .pushing io loop) (input : TaskInput) :
    AlarmOf (loopExit cfg task (input, env)) (taskStep cfg task (input, env)).2 := by
  cases input with
  | control m =>
      simp only [taskStep, loopExit, hphase]
      exact afterTurn_alarm task (raises_served (pushControl_serves env task.health loop m))
  | update u =>
      simp only [taskStep, loopExit, hphase]
      exact afterTurn_alarm task
        (raises_plain (pushUpdate_unasked cfg io env task.health loop u).plain)
  | timer =>
      simp only [taskStep, loopExit, hphase]
      exact afterTurn_alarm task
        (raises_plain (pushTick_unasked cfg io env task.health loop).plain)
  | cancelled | closed =>
      simp only [taskStep, loopExit, hphase]
      exact alarmOf_stopped
  | elapsed | connected | connectFailed _ =>
      simp only [taskStep, loopExit, hphase]
      exact alarmOf_none rfl

/-- Every step raises the alarm exactly when its loop loses the link. -/
theorem step_alarm (cfg : TaskConfig) (task : DeviceTask) (input : TaskInput × StepEnv) :
    AlarmOf (loopExit cfg task input) (taskStep cfg task input).2 := by
  obtain ⟨input, env⟩ := input
  cases hphase : task.phase with
  | stopped =>
      simp only [taskStep, loopExit, hphase]
      exact alarmOf_none rfl
  | connecting => exact connecting_alarm cfg env hphase input
  | backoff => exact backoff_alarm cfg env hphase input
  | polling loop => exact polling_alarm cfg env hphase input
  | pushing io loop => exact pushing_alarm cfg env hphase input

/-! ## The ladder -/

/-- In every run of a device task the ladder keeps its requests. -/
theorem ladder_keeps_requests (cfg : TaskConfig) (health : TaskHealth)
    (run : ControlRun cfg health) : KeepsRequests cfg health run.inputs where
  answered := by
    intro before env reply after hinputs hlistens
    have hset := ladderSettled_run (ladderSettled_start cfg health) before
    have hafter : taskAfter cfg health (before ++ [(.control ⟨.reconnect, reply⟩, env)]) =
        nextTask cfg (taskAfter cfg health before) (.control ⟨.reconnect, reply⟩, env) := by
      unfold taskAfter runSteps
      rw [List.foldl_append]
      rfl
    -- the reply is this message's alone: no message before or after it was taken with it
    have hmine : reply ∈ ((takenMessage (taskAfter cfg health before)
        (.control ⟨.reconnect, reply⟩)).map ControlMessage.reply).toList := by
      rw [takenMessage_listens hlistens]
      exact List.mem_singleton.mpr rfl
    have hdistinct := run.distinct
    rw [hinputs, takenReplies_append] at hdistinct
    obtain ⟨-, hhere, hapart⟩ := List.nodup_append.mp hdistinct
    obtain ⟨-, -, hapart'⟩ := List.nodup_append.mp hhere
    have hbefore : reply ∉ takenReplies cfg (DeviceTask.start cfg health) before := by
      intro hmem
      exact hapart reply hmem reply (List.mem_append_left _ hmine) rfl
    have hlater : reply ∉ takenReplies cfg
        (nextTask cfg (taskAfter cfg health before) (.control ⟨.reconnect, reply⟩, env)) after := by
      intro hmem
      exact hapart' reply hmine reply hmem rfl
    have hnever : (DeviceTask.start cfg health).pendingReconnect ≠ some reply := by
      intro hsome
      cases hsome
    rw [hinputs, taskEffects_append, answersTo_append, hafter,
      answersTo_untaken (ladderSettled_start cfg health) hnever hbefore]
    exact answersTo_taken hset hlistens hlater
  settled := by
    intro before after _ hlistens
    exact (ladderSettled_run (ladderSettled_start cfg health) before).listening hlistens
  raised := by
    intro before input after _ hlost
    exact (step_alarm cfg (taskAfter cfg health before) input).raised hlost
  silent := by
    intro before input after _ hnot
    exact (step_alarm cfg (taskAfter cfg health before) input).silent hnot

/-- A polled device on which a first reconnect is refused, and a second one, taken in the backoff,
succeeds. -/
def refusedThenConnected : ControlRun { mode := .poll, keepaliveMs := 1000 } {} where
  inputs := [(.connected, {}), (.control ⟨.reconnect, 7⟩, {}), (.connectFailed "refused", {}),
    (.control ⟨.reconnect, 8⟩, {}), (.connected, {})]
  distinct := by decide

/-- A reconnect whose attempt is refused is told so, once. -/
theorem ladder_keeps_refusedThenConnected :
    answersTo 7 (taskEffects { mode := .poll, keepaliveMs := 1000 }
        (DeviceTask.start { mode := .poll, keepaliveMs := 1000 } {}) refusedThenConnected.inputs) =
      [.reconnected (.error "refused")] :=
  (ladder_keeps_requests { mode := .poll, keepaliveMs := 1000 } {} refusedThenConnected).answered
    [(.connected, {})] {} 7
    [(.connectFailed "refused", {}), (.control ⟨.reconnect, 8⟩, {}), (.connected, {})] rfl trivial

end EnipAdapter.Analysis
