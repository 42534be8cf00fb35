import EnipAdapter.Interface.LinkContract

/-!
# The moves of a link

What one step of a device task is to its ladder: it stays where it is, it leaves for good, or it
makes one of the moves that the ladder books. The unreachable alarm moves with the link and at no
other time: a turn of a driver loop neither raises nor clears it, but for the first frame of a
class-1 session.
-/

set_option autoImplicit false

namespace EnipAdapter.Analysis

open EnipAdapter.Foundation EnipAdapter.Model EnipAdapter.Interface

/-! ## The alarm -/

/-- Whether an effect raises or clears the unreachable alarm. -/
def alarmMove : TaskEffect → Option Bool
  | .event .unreachableRaised => some true
  | .event .unreachableCleared => some false
  | _ => none

def alarmMoves (effects : List TaskEffect) : List Bool := effects.filterMap alarmMove

/-- The moves of the alarm add up. -/
theorem alarmMoves_append (first second : List TaskEffect) :
    alarmMoves (first ++ second) = alarmMoves first ++ alarmMoves second :=
  List.filterMap_append

/-- The last move of the alarm decides. -/
theorem alarmAfter_eq (standing : Bool) (effects : List TaskEffect) :
    alarmAfter standing effects = (alarmMoves effects).getLast?.getD standing := by
  induction effects generalizing standing with
  | nil => rfl
  | cons effect rest ih =>
    have hstep : alarmAfter standing (effect :: rest) =
        alarmAfter ((alarmMove effect).getD standing) rest := by
      cases effect with
      | published update confirmed => rfl
      | replied reply answer => rfl
      | event event => cases event <;> rfl
    rw [hstep, ih]
    unfold alarmMoves
    cases hmove : alarmMove effect with
    | none => rw [List.filterMap_cons_none hmove, Option.getD_none]
    | some move =>
      rw [List.filterMap_cons_some hmove, List.getLast?_cons]
      rfl

/-- The answer to a reconnect does not move the alarm. -/
theorem alarmMoves_answerReconnect (task : DeviceTask) (result : Except String Unit) :
    alarmMoves (task.answerReconnect result) = [] := by
  unfold DeviceTask.answerReconnect
  cases task.pendingReconnect <;> rfl

/-! ### The parts of a turn -/

/-- A pause does not move the alarm. -/
theorem alarmMoves_applyPause (h : TaskHealth) (paused : Bool) (requestedBy : Option String) :
    alarmMoves (applyPause h paused requestedBy).2.1 = [] := by
  unfold applyPause
  by_cases hsame : h.paused = paused
  · rw [if_pos hsame]
    rfl
  · rw [if_neg hsame]
    cases paused <;> rfl

/-- Neither does a publish. -/
theorem alarmMoves_publishAll (configured : String → Bool) (bus : ℕ → Bool) (i : ℕ)
    (engine : Engine) (out : List Publish) :
    alarmMoves (publishAll configured bus i engine out).2 = [] := by
  induction out generalizing i engine with
  | nil => rfl
  | cons p rest ih =>
    unfold publishAll
    by_cases hconfigured : configured p.signalId = true
    · rw [if_pos hconfigured]
      exact ih (i + 1) (engine.settle p.signalId (bus i))
    · rw [if_neg hconfigured]
      exact ih i (engine.settle p.signalId false)

/-- Neither does a flush. -/
theorem alarmMoves_flushDue (configured : String → Bool) (bus : ℕ → Bool) (batchMs : ℕ)
    (engine : Engine) (now : Instant) :
    alarmMoves (flushDue configured bus batchMs engine now).2 = [] :=
  alarmMoves_publishAll configured bus 0 _ _

/-- Neither does the cycle of a group. -/
theorem alarmMoves_pollGroup (cfg : TaskConfig) (g : ScheduledGroup) (readings : List Reading)
    (now : Instant) (serverTs : String) (bus : ℕ → Bool) (engine : Engine) (h : TaskHealth) :
    alarmMoves (pollGroup cfg g readings now serverTs bus engine h).2.2 = [] :=
  alarmMoves_publishAll cfg.hasSignal bus 0 _ _

/-- Neither does a repoll. -/
theorem alarmMoves_repoll (cfg : TaskConfig) (env : StepEnv) (i : ℕ)
    (groups : List ScheduledGroup) (engine : Engine) (h : TaskHealth) :
    alarmMoves (repollAllGroups cfg env i groups engine h).2.2.1 = [] := by
  induction groups generalizing i engine h with
  | nil => rfl
  | cons g rest ih =>
    unfold repollAllGroups
    cases hread : env.reads i with
    | error message => rfl
    | ok readings =>
      simp only
      rw [alarmMoves_append, alarmMoves_pollGroup, ih]
      rfl

/-- Neither does the flush of a push task. -/
theorem alarmMoves_pushFlush (cfg : TaskConfig) (io : PushLayout) (env : StepEnv)
    (loop : PushState) : alarmMoves (pushFlush cfg io env loop).2 = [] := by
  unfold pushFlush
  by_cases hpaused : loop.paused = true
  · rw [if_pos hpaused]
    rfl
  · rw [if_neg hpaused]
    exact alarmMoves_flushDue io.hasField (env.bus 1) cfg.effectiveBatchMs loop.engine
      (env.clock 1)

/-- Neither does a frame. -/
theorem alarmMoves_pushFrame (cfg : TaskConfig) (io : PushLayout) (readings : List Reading)
    (serverTs : String) (env : StepEnv) (engine : Engine) (h : TaskHealth) :
    alarmMoves (pushFrame cfg io readings serverTs env engine h).2.2 = [] :=
  alarmMoves_publishAll io.hasField (env.bus 0) 0 _ _

/-- An answer moves no alarm, and neither does what goes before it. -/
theorem alarmMoves_replied {effects : List TaskEffect} (h : alarmMoves effects = [])
    (reply : ReplyId) (answer : ControlAnswer) :
    alarmMoves (effects ++ [.replied reply answer]) = [] := by
  rw [alarmMoves_append, h]
  rfl

/-- Neither does a message to the poll loop. -/
theorem alarmMoves_pollControl (cfg : TaskConfig) (env : StepEnv) (h : TaskHealth)
    (loop : PollState) (m : ControlMessage) :
    alarmMoves (pollControl cfg env h loop m).effects = [] := by
  obtain ⟨verb, reply⟩ := m
  cases verb with
  | write request => cases request <;> rfl
  | readNow specs =>
    unfold pollControl
    cases hread : env.reads 0 <;> rfl
  | pause requestedBy => exact alarmMoves_replied (alarmMoves_applyPause h true requestedBy) _ _
  | resume => exact alarmMoves_replied (alarmMoves_applyPause h false none) _ _
  | repoll =>
    have hmoves := alarmMoves_repoll cfg env 0 cfg.groups loop.engine h
    unfold pollControl
    by_cases hpaused : loop.paused = true
    · simp only [if_pos hpaused]
      rfl
    · simp only [if_neg hpaused]
      cases (repollAllGroups cfg env 0 cfg.groups loop.engine h).2.2.2 with
      | ok count => exact alarmMoves_replied hmoves _ _
      | error e => exact alarmMoves_replied hmoves _ _
  | snapshot | reconnect | browse _ _ => rfl

/-- Neither does a wake-up of it. -/
theorem alarmMoves_pollWake (cfg : TaskConfig) (env : StepEnv) (h : TaskHealth)
    (loop : PollState) : alarmMoves (pollWake cfg env h loop).effects = [] := by
  unfold pollWake
  by_cases hpaused : loop.paused = true
  · simp only [if_pos hpaused]
    by_cases hdue : env.clock 0 - loop.sinceKeepalive ≥ cfg.keepalive
    · rw [if_pos hdue]
      cases env.probe <;> rfl
    · rw [if_neg hdue]
      rfl
  · have hflush := alarmMoves_flushDue cfg.hasSignal (env.bus 0) cfg.effectiveBatchMs loop.engine
      (env.clock 0)
    simp only [if_neg hpaused]
    cases dueGroup cfg loop.deadlines (env.clock 0) with
    | none => exact hflush
    | some due =>
      cases env.reads 0 with
      | error e => exact hflush
      | ok readings =>
        simp only
        rw [alarmMoves_append, hflush, alarmMoves_pollGroup]
        rfl

/-- Neither does a message to the push loop. -/
theorem alarmMoves_pushControl (env : StepEnv) (h : TaskHealth) (loop : PushState)
    (m : ControlMessage) : alarmMoves (pushControl env h loop m).effects = [] := by
  obtain ⟨verb, reply⟩ := m
  cases verb with
  | write request => cases request <;> rfl
  | pause requestedBy => exact alarmMoves_replied (alarmMoves_applyPause h true requestedBy) _ _
  | resume => exact alarmMoves_replied (alarmMoves_applyPause h false none) _ _
  | readNow _ | snapshot | reconnect | repoll | browse _ _ => rfl

/-- Neither does a message in the backoff. -/
theorem alarmMoves_backoffControl (h : TaskHealth) (m : ControlMessage) :
    alarmMoves (backoffControl h m).2.1 = [] := by
  obtain ⟨verb, reply⟩ := m
  cases verb with
  | pause requestedBy => exact alarmMoves_replied (alarmMoves_applyPause h true requestedBy) _ _
  | resume => exact alarmMoves_replied (alarmMoves_applyPause h false none) _ _
  | write _ | readNow _ | snapshot | reconnect | repoll | browse _ _ => rfl

/-- What an update does to the alarm: a first frame clears it. -/
theorem alarmMoves_pushUpdate (cfg : TaskConfig) (io : PushLayout) (env : StepEnv)
    (h : TaskHealth) (loop : PushState) {update : Option Device.IoUpdate}
    (hup : update ≠ some .up) :
    alarmMoves (pushUpdate cfg io env h loop update).effects = [] := by
  cases update with
  | none => rfl
  | some update =>
    cases update with
    | up => exact absurd rfl hup
    | lost => rfl
    | data readings receivedAt =>
      unfold pushUpdate
      by_cases hpaused : loop.paused = true
      · simp only [if_pos hpaused]
        rfl
      · simp only [if_neg hpaused]
        rw [alarmMoves_append, alarmMoves_pushFrame, alarmMoves_pushFlush]
        rfl

/-! ## One step -/

/-- Where a booked move leads. -/
inductive Leads (mode : DeviceMode) : LadderEvent → LinkStage → LinkStage → Prop
  | polled (h : mode = .poll) : Leads mode .connected .connecting .polling
  | pushed (h : mode = .push) : Leads mode .connected .connecting .pushing
  | failed : Leads mode .failed .connecting .backoff
  | retried : Leads mode .retried .backoff .connecting
  | up : Leads mode .up .pushing .pushing
  | lost {stage : LinkStage} (h : inLoop stage = true) : Leads mode .lost stage .backoff
  | replaced {stage : LinkStage} (h : inLoop stage = true) : Leads mode .replaced stage .connecting
  | stopped {stage : LinkStage} (h : inLoop stage = true) : Leads mode .stopped stage .stopped

/-- How a booked move moves the alarm. -/
def eventAlarm (mode : DeviceMode) : LadderEvent → List Bool
  | .connected => if mode = .poll then [false] else []
  | .up => [false]
  | .lost => [true]
  | .failed | .replaced | .stopped | .retried => []

/-- What a step is to the ladder. -/
inductive LinkMove (mode : DeviceMode) (before after : TaskPhase) (input : TaskInput)
    (moves : List Bool) : Prop where
  | stays (hstage : stageOf after = stageOf before) (hevent : ladderEvent before after input = none)
      (hmoves : moves = [])
  | leaves (hbefore : inLoop (stageOf before) = false) (hafter : stageOf after = .stopped)
      (hevent : ladderEvent before after input = none) (hmoves : moves = [])
  | books (event : LadderEvent) (hevent : ladderEvent before after input = some event)
      (hleads : Leads mode event (stageOf before) (stageOf after))
      (hmoves : moves = eventAlarm mode event)

/-- A turn of the poll loop. -/
theorem linkMove_polling (mode : DeviceMode) (task : DeviceTask) {loop : PollState}
    (input : TaskInput) {turn : LoopTurn PollState} (hquiet : alarmMoves turn.effects = []) :
    LinkMove mode (.polling loop) (task.afterTurn .polling turn).1.phase input
      (alarmMoves (task.afterTurn .polling turn).2) := by
  unfold DeviceTask.afterTurn
  cases turn.next with
  | ok loop' => exact .stays rfl rfl hquiet
  | error exit =>
    cases exit with
    | linkLost =>
      apply LinkMove.books .lost rfl (.lost rfl)
      rw [alarmMoves_append, hquiet]
      rfl
    | reconnect reply => exact .books .replaced rfl (.replaced rfl) hquiet
    | stopped => exact .books .stopped rfl (.stopped rfl) hquiet

/-- In a driver loop only a first frame is booked. -/
theorem ladderEvent_pushing {io io' : PushLayout} {loop loop' : PushState} {input : TaskInput}
    (hinput : input ≠ .update (some .up)) :
    ladderEvent (.pushing io loop) (.pushing io' loop') input = none := by
  unfold ladderEvent
  cases input with
  | update update =>
    cases update with
    | none => rfl
    | some update =>
      cases update with
      | up => exact absurd rfl hinput
      | data _ _ | lost => rfl
  | cancelled | closed | control _ | connected | connectFailed _ | elapsed | timer => rfl

/-- A turn of the consume loop, but for the first frame. -/
theorem linkMove_pushing (mode : DeviceMode) (task : DeviceTask) {io : PushLayout}
    {loop : PushState} {input : TaskInput} {turn : LoopTurn PushState}
    (hquiet : alarmMoves turn.effects = []) (hinput : input ≠ .update (some .up)) :
    LinkMove mode (.pushing io loop) (task.afterTurn (.pushing io) turn).1.phase input
      (alarmMoves (task.afterTurn (.pushing io) turn).2) := by
  unfold DeviceTask.afterTurn
  cases turn.next with
  | ok loop' => exact .stays rfl (ladderEvent_pushing hinput) hquiet
  | error exit =>
    cases exit with
    | linkLost =>
      apply LinkMove.books .lost rfl (.lost rfl)
      rw [alarmMoves_append, hquiet]
      rfl
    | reconnect reply => exact .books .replaced rfl (.replaced rfl) hquiet
    | stopped => exact .books .stopped rfl (.stopped rfl) hquiet

/-- A step of the push loop moves the link as one of its moves says. -/
theorem linkMove_pushingStep (cfg : TaskConfig) (task : DeviceTask) {io : PushLayout}
    {loop : PushState} (hphase : task.phase = .pushing io loop) (input : TaskInput × StepEnv) :
    LinkMove cfg.mode (.pushing io loop) (taskStep cfg task input).1.phase input.1
      (alarmMoves (taskStep cfg task input).2) := by
  obtain ⟨input, env⟩ := input
  cases input with
  | cancelled | closed =>
    simp only [taskStep, hphase]
    exact .books .stopped rfl (.stopped rfl) rfl
  | control m =>
    simp only [taskStep, hphase]
    exact linkMove_pushing cfg.mode task (alarmMoves_pushControl env task.health loop m) nofun
  | timer =>
    simp only [taskStep, hphase]
    exact linkMove_pushing cfg.mode task (alarmMoves_pushFlush cfg io env loop) nofun
  | update update =>
    simp only [taskStep, hphase]
    by_cases hup : update = some .up
    · subst hup
      apply LinkMove.books .up rfl .up
      show alarmMoves (_ ++ (pushFlush cfg io env loop).2) = _
      rw [alarmMoves_append, alarmMoves_pushFlush]
      rfl
    · apply linkMove_pushing cfg.mode task (alarmMoves_pushUpdate cfg io env task.health loop hup)
      intro heq
      exact hup (TaskInput.update.inj heq)
  | connected | connectFailed _ | elapsed =>
    simp only [taskStep, hphase]
    exact .stays rfl (ladderEvent_pushing nofun) rfl

/-- One step, by where the task waits. -/
theorem linkMove_step {cfg : TaskConfig} {task : DeviceTask}
    (hblock : cfg.mode = .push → cfg.io = none → task.phase = .stopped)
    (input : TaskInput × StepEnv) :
    LinkMove cfg.mode task.phase (taskStep cfg task input).1.phase input.1
      (alarmMoves (taskStep cfg task input).2) := by
  cases hphase : task.phase with
  | pushing io loop => exact linkMove_pushingStep cfg task hphase input
  | polling loop =>
    obtain ⟨input, env⟩ := input
    cases input with
    | cancelled | closed =>
      simp only [taskStep, hphase]
      exact .books .stopped rfl (.stopped rfl) rfl
    | control m =>
      simp only [taskStep, hphase]
      exact linkMove_polling cfg.mode task _ (alarmMoves_pollControl cfg env task.health loop m)
    | timer =>
      simp only [taskStep, hphase]
      exact linkMove_polling cfg.mode task _ (alarmMoves_pollWake cfg env task.health loop)
    | connected | connectFailed _ | elapsed | update _ =>
      simp only [taskStep, hphase]
      exact .stays rfl rfl rfl
  | connecting =>
    obtain ⟨input, env⟩ := input
    cases input with
    | connected =>
      simp only [taskStep, hphase]
      unfold DeviceTask.connected
      cases hmode : cfg.mode with
      | poll =>
        apply LinkMove.books .connected rfl (.polled rfl)
        rw [alarmMoves_append, alarmMoves_answerReconnect]
        rfl
      | push =>
        cases hio : cfg.io with
        | none =>
          have hstopped := hblock hmode hio
          rw [hphase] at hstopped
          cases hstopped
        | some io =>
          apply LinkMove.books .connected rfl (.pushed rfl)
          exact alarmMoves_answerReconnect task (.ok ())
    | connectFailed reason =>
      simp only [taskStep, hphase]
      exact .books .failed rfl .failed (alarmMoves_answerReconnect task (.error reason))
    | cancelled =>
      simp only [taskStep, hphase]
      exact .leaves rfl rfl rfl rfl
    | closed | control _ | elapsed | timer | update _ =>
      simp only [taskStep, hphase]
      exact .stays rfl rfl rfl
  | backoff =>
    obtain ⟨input, env⟩ := input
    cases input with
    | control m =>
      have hquiet := alarmMoves_backoffControl task.health m
      simp only [taskStep, hphase]
      obtain ⟨⟨h, effects, next⟩, hserved⟩ : ∃ r, backoffControl task.health m = r := ⟨_, rfl⟩
      rw [hserved] at hquiet ⊢
      cases next with
      | none => exact .stays rfl rfl hquiet
      | some reply => exact .books .retried rfl .retried hquiet
    | cancelled | closed =>
      simp only [taskStep, hphase]
      exact .leaves rfl rfl rfl rfl
    | elapsed =>
      simp only [taskStep, hphase]
      exact .books .retried rfl .retried rfl
    | connected | connectFailed _ | timer | update _ =>
      simp only [taskStep, hphase]
      exact .stays rfl rfl rfl
  | stopped =>
    have hstep : taskStep cfg task input = (task, []) := by
      simp only [taskStep, hphase]
    rw [hstep]
    simp only [hphase]
    exact .stays rfl rfl rfl

end EnipAdapter.Analysis
