import EnipAdapter.Interface.LadderContract

/-!
# The turns of a loop, as the ladder sees them

A turn answers the message it took and no other, asks for a reconnect only when the message does,
and leaves the unreachable alarm to the ladder.
-/

set_option autoImplicit false

namespace EnipAdapter.Analysis

open EnipAdapter.Foundation EnipAdapter.Model EnipAdapter.Interface

/-! ## Effects that are no answer and no alarm -/

/-- An effect that answers nobody and raises nothing. -/
def Plain : TaskEffect → Prop
  | .replied _ _ => False
  | .event .unreachableRaised => False
  | _ => True

/-- The answers to a request add up. -/
theorem answersTo_append (reply : ReplyId) (first second : List TaskEffect) :
    answersTo reply (first ++ second) = answersTo reply first ++ answersTo reply second :=
  List.filterMap_append

/-- The alarms add up. -/
theorem raises_append (first second : List TaskEffect) :
    raises (first ++ second) = raises first + raises second :=
  List.countP_append

/-- Plain effects answer nobody. -/
theorem answersTo_plain {effects : List TaskEffect} (h : ∀ effect ∈ effects, Plain effect)
    (reply : ReplyId) : answersTo reply effects = [] := by
  apply List.filterMap_eq_nil_iff.mpr
  intro effect hmem
  have hplain := h effect hmem
  cases effect with
  | replied r answer => exact hplain.elim
  | published p confirmed => rfl
  | event e => rfl

/-- Plain effects raise no alarm. -/
theorem raises_plain {effects : List TaskEffect} (h : ∀ effect ∈ effects, Plain effect) :
    raises effects = 0 := by
  apply List.countP_eq_zero.mpr
  intro effect hmem hraise
  have hplain := h effect hmem
  cases effect with
  | replied r answer => exact hplain.elim
  | published p confirmed => cases hraise
  | event e =>
      cases e with
      | unreachableRaised => exact hplain
      | deviceConnected | unreachableCleared | adapterPaused _ | adapterResumed => cases hraise

/-- Plain effects together are plain. -/
theorem plain_append {first second : List TaskEffect} (hfirst : ∀ effect ∈ first, Plain effect)
    (hsecond : ∀ effect ∈ second, Plain effect) : ∀ effect ∈ first ++ second, Plain effect := by
  intro effect hmem
  obtain hmem | hmem := List.mem_append.mp hmem
  · exact hfirst effect hmem
  · exact hsecond effect hmem

/-- No effects are plain. -/
theorem plain_nil : ∀ effect ∈ ([] : List TaskEffect), Plain effect := by
  intro effect hmem
  cases hmem

/-- A pause answers and raises nothing of its own. -/
theorem applyPause_plain (h : TaskHealth) (paused : Bool) (requestedBy : Option String) :
    ∀ effect ∈ (applyPause h paused requestedBy).2.1, Plain effect := by
  unfold applyPause
  by_cases hsame : h.paused = paused
  · rw [if_pos hsame]
    exact plain_nil
  · rw [if_neg hsame]
    intro effect hmem
    rw [List.mem_singleton.mp hmem]
    cases paused <;> trivial

/-- Neither does a publish. -/
theorem publishAll_plain (configured : String → Bool) (bus : ℕ → Bool) (i : ℕ) (engine : Engine)
    (out : List Publish) : ∀ effect ∈ (publishAll configured bus i engine out).2, Plain effect := by
  induction out generalizing i engine with
  | nil => exact plain_nil
  | cons p rest ih =>
      unfold publishAll
      by_cases hconfigured : configured p.signalId = true
      · rw [if_pos hconfigured]
        intro effect hmem
        obtain rfl | hmem := List.mem_cons.mp hmem
        · trivial
        · exact ih (i + 1) (engine.settle p.signalId (bus i)) effect hmem
      · rw [if_neg hconfigured]
        exact ih i (engine.settle p.signalId false)

/-- Neither does a flush. -/
theorem flushDue_plain (configured : String → Bool) (bus : ℕ → Bool) (batchMs : ℕ)
    (engine : Engine) (now : Instant) :
    ∀ effect ∈ (flushDue configured bus batchMs engine now).2, Plain effect :=
  publishAll_plain configured bus 0 _ _

/-- Neither does the cycle of a group. -/
theorem pollGroup_plain (cfg : TaskConfig) (g : ScheduledGroup) (readings : List Reading)
    (now : Instant) (serverTs : String) (bus : ℕ → Bool) (engine : Engine) (h : TaskHealth) :
    ∀ effect ∈ (pollGroup cfg g readings now serverTs bus engine h).2.2, Plain effect :=
  publishAll_plain cfg.hasSignal bus 0 _ _

/-- Neither does a repoll of all groups. -/
theorem repoll_plain (cfg : TaskConfig) (env : StepEnv) (i : ℕ) (groups : List ScheduledGroup)
    (engine : Engine) (h : TaskHealth) :
    ∀ effect ∈ (repollAllGroups cfg env i groups engine h).2.2.1, Plain effect := by
  induction groups generalizing i engine h with
  | nil => exact plain_nil
  | cons g rest ih =>
      unfold repollAllGroups
      cases hread : env.reads i with
      | error message => exact plain_nil
      | ok readings =>
          exact plain_append
            (pollGroup_plain cfg g readings (env.clock i) (env.stamp i) (env.bus i) engine h)
            (ih _ _ _)

/-- Neither does the flush of a push task. -/
theorem pushFlush_plain (cfg : TaskConfig) (io : PushLayout) (env : StepEnv) (loop : PushState) :
    ∀ effect ∈ (pushFlush cfg io env loop).2, Plain effect := by
  unfold pushFlush
  by_cases hpaused : loop.paused = true
  · rw [if_pos hpaused]
    exact plain_nil
  · rw [if_neg hpaused]
    exact flushDue_plain io.hasField (env.bus 1) cfg.effectiveBatchMs loop.engine (env.clock 1)

/-- Neither does a frame. -/
theorem pushFrame_plain (cfg : TaskConfig) (io : PushLayout) (readings : List Reading)
    (serverTs : String) (env : StepEnv) (engine : Engine) (h : TaskHealth) :
    ∀ effect ∈ (pushFrame cfg io readings serverTs env engine h).2.2, Plain effect :=
  publishAll_plain io.hasField (env.bus 0) 0 _ _

/-! ## What a turn may do -/

section Turns

variable {σ : Type}

/-- A turn without a message: it answers nobody and asks for no reconnect. -/
structure Unasked (turn : LoopTurn σ) : Prop where
  plain : ∀ effect ∈ turn.effects, Plain effect
  next : ∀ reply, turn.next ≠ .error (.reconnect reply)

/-- A turn that answers a message other than a reconnect. -/
structure Answered (m : ControlMessage) (turn : LoopTurn σ) : Prop where
  effects : ∃ before answer, turn.effects = before ++ [.replied m.reply answer] ∧
    ∀ effect ∈ before, Plain effect
  next : ∀ reply, turn.next ≠ .error (.reconnect reply)

/-- A turn for a message: an answer, or for a reconnect the exit that carries its reply. -/
structure ServesMessage (m : ControlMessage) (turn : LoopTurn σ) : Prop where
  reconnects : m.verb = .reconnect → turn.effects = [] ∧ turn.next = .error (.reconnect m.reply)
  answers : m.verb ≠ .reconnect → Answered m turn

variable {m : ControlMessage} {turn : LoopTurn σ}

/-- A message other than a reconnect is served by an answer. -/
theorem Answered.serves (h : Answered m turn) (hverb : m.verb ≠ .reconnect) :
    ServesMessage m turn :=
  ⟨fun hreconnect => absurd hreconnect hverb, fun _ => h⟩

/-- Plain effects with one reply behind them are an answer. -/
theorem answered_of {effects : List TaskEffect} {answer : ControlAnswer} (h : TaskHealth)
    {next : Except LoopExit σ} (hplain : ∀ effect ∈ effects, Plain effect)
    (hnext : ∀ reply, next ≠ .error (.reconnect reply)) :
    Answered m (⟨h, effects ++ [.replied m.reply answer], next⟩ : LoopTurn σ) :=
  ⟨⟨effects, answer, rfl, hplain⟩, hnext⟩

/-- A loop that goes on carries no reply out. -/
theorem ok_ne_reconnect (loop : σ) (reply : ReplyId) :
    (.ok loop : Except LoopExit σ) ≠ .error (.reconnect reply) := by
  intro h
  cases h

/-- A lost link carries no reply out. -/
theorem linkLost_ne_reconnect (reply : ReplyId) :
    (.error .linkLost : Except LoopExit σ) ≠ .error (.reconnect reply) := by
  intro h
  cases h

/-- One answer, and the loop goes on. -/
theorem answered_once (h : TaskHealth) (answer : ControlAnswer) (loop : σ) :
    Answered m (⟨h, [.replied m.reply answer], .ok loop⟩ : LoopTurn σ) :=
  answered_of h plain_nil (ok_ne_reconnect loop)

end Turns

/-- The poll loop serves every message. -/
theorem pollControl_serves (cfg : TaskConfig) (env : StepEnv) (h : TaskHealth) (loop : PollState)
    (m : ControlMessage) : ServesMessage m (pollControl cfg env h loop m) := by
  obtain ⟨verb, reply⟩ := m
  cases verb with
  | reconnect => exact ⟨fun _ => ⟨rfl, rfl⟩, fun hverb => absurd rfl hverb⟩
  | write request =>
      apply Answered.serves _ ControlVerb.noConfusion
      cases request with
      | write signal value => exact answered_once h _ loop
      | writeOutput field value => exact answered_once h _ loop
  | readNow specs =>
      apply Answered.serves _ ControlVerb.noConfusion
      unfold pollControl
      cases hread : env.reads 0 with
      | ok readings => exact answered_once h _ loop
      | error e => exact answered_of _ plain_nil linkLost_ne_reconnect
  | snapshot => exact (answered_once h _ loop).serves ControlVerb.noConfusion
  | pause requestedBy =>
      apply Answered.serves _ ControlVerb.noConfusion
      exact answered_of _ (applyPause_plain h true requestedBy) (ok_ne_reconnect _)
  | resume =>
      apply Answered.serves _ ControlVerb.noConfusion
      exact answered_of _ (applyPause_plain h false none) (ok_ne_reconnect _)
  | repoll =>
      apply Answered.serves _ ControlVerb.noConfusion
      have hplain := repoll_plain cfg env 0 cfg.groups loop.engine h
      unfold pollControl
      by_cases hpaused : loop.paused = true
      · simp only [if_pos hpaused]
        exact answered_once h _ loop
      · simp only [if_neg hpaused]
        cases (repollAllGroups cfg env 0 cfg.groups loop.engine h).2.2.2 with
        | ok count => exact answered_of _ hplain (ok_ne_reconnect _)
        | error e => exact answered_of _ hplain linkLost_ne_reconnect
  | browse cursor max => exact (answered_once h _ loop).serves ControlVerb.noConfusion

/-- A wake-up of the poll loop answers nobody. -/
theorem pollWake_unasked (cfg : TaskConfig) (env : StepEnv) (h : TaskHealth) (loop : PollState) :
    Unasked (pollWake cfg env h loop) := by
  unfold pollWake
  by_cases hpaused : loop.paused = true
  · simp only [if_pos hpaused]
    by_cases hdue : env.clock 0 - loop.sinceKeepalive ≥ cfg.keepalive
    · rw [if_pos hdue]
      cases env.probe with
      | error e => exact ⟨plain_nil, linkLost_ne_reconnect⟩
      | ok _ => exact ⟨plain_nil, ok_ne_reconnect _⟩
    · rw [if_neg hdue]
      exact ⟨plain_nil, ok_ne_reconnect _⟩
  · have hflush := flushDue_plain cfg.hasSignal (env.bus 0) cfg.effectiveBatchMs loop.engine
      (env.clock 0)
    simp only [if_neg hpaused]
    cases dueGroup cfg loop.deadlines (env.clock 0) with
    | none => exact ⟨hflush, ok_ne_reconnect _⟩
    | some due =>
        cases env.reads 0 with
        | error e => exact ⟨hflush, linkLost_ne_reconnect⟩
        | ok readings =>
            exact ⟨plain_append hflush (pollGroup_plain cfg due.2 readings (env.clock 1)
              (env.stamp 0) (env.bus 1) _ h), ok_ne_reconnect _⟩

/-- The push loop serves every message. -/
theorem pushControl_serves (env : StepEnv) (h : TaskHealth) (loop : PushState)
    (m : ControlMessage) : ServesMessage m (pushControl env h loop m) := by
  obtain ⟨verb, reply⟩ := m
  cases verb with
  | reconnect => exact ⟨fun _ => ⟨rfl, rfl⟩, fun hverb => absurd rfl hverb⟩
  | write request =>
      apply Answered.serves _ ControlVerb.noConfusion
      cases request with
      | write signal value => exact answered_once h _ loop
      | writeOutput field value => exact answered_once h _ loop
  | pause requestedBy =>
      apply Answered.serves _ ControlVerb.noConfusion
      exact answered_of _ (applyPause_plain h true requestedBy) (ok_ne_reconnect _)
  | resume =>
      apply Answered.serves _ ControlVerb.noConfusion
      exact answered_of _ (applyPause_plain h false none) (ok_ne_reconnect _)
  | snapshot => exact (answered_once h _ loop).serves ControlVerb.noConfusion
  | readNow specs => exact (answered_once h _ loop).serves ControlVerb.noConfusion
  | repoll => exact (answered_once h _ loop).serves ControlVerb.noConfusion
  | browse cursor max => exact (answered_once h _ loop).serves ControlVerb.noConfusion

/-- An update of the push loop answers nobody. -/
theorem pushUpdate_unasked (cfg : TaskConfig) (io : PushLayout) (env : StepEnv) (h : TaskHealth)
    (loop : PushState) (update : Option Device.IoUpdate) :
    Unasked (pushUpdate cfg io env h loop update) := by
  cases update with
  | none => exact ⟨plain_nil, linkLost_ne_reconnect⟩
  | some update =>
      cases update with
      | up =>
          refine ⟨plain_append ?_ (pushFlush_plain cfg io env loop), ok_ne_reconnect _⟩
          intro effect hmem
          obtain rfl | hmem := List.mem_cons.mp hmem
          · trivial
          · rw [List.mem_singleton.mp hmem]
            trivial
      | data readings receivedAt =>
          unfold pushUpdate
          by_cases hpaused : loop.paused = true
          · simp only [if_pos hpaused]
            exact ⟨plain_nil, ok_ne_reconnect _⟩
          · simp only [if_neg hpaused]
            exact ⟨plain_append (pushFrame_plain cfg io readings receivedAt env loop.engine h)
              (pushFlush_plain cfg io env _), ok_ne_reconnect _⟩
      | lost => exact ⟨plain_nil, linkLost_ne_reconnect⟩

/-- Neither does its tick. -/
theorem pushTick_unasked (cfg : TaskConfig) (io : PushLayout) (env : StepEnv) (h : TaskHealth)
    (loop : PushState) : Unasked (pushTick cfg io env h loop) :=
  ⟨pushFlush_plain cfg io env loop, ok_ne_reconnect _⟩

/-- A message between two connections: an answer, or for a reconnect its reply. -/
theorem backoffControl_answers (h : TaskHealth) {m : ControlMessage} (hverb : m.verb ≠ .reconnect) :
    ∃ h' before answer,
      backoffControl h m = (h', before ++ [.replied m.reply answer], none) ∧
        ∀ effect ∈ before, Plain effect := by
  obtain ⟨verb, reply⟩ := m
  cases verb with
  | reconnect => exact absurd rfl hverb
  | pause requestedBy => exact ⟨_, _, _, rfl, applyPause_plain h true requestedBy⟩
  | resume => exact ⟨_, _, _, rfl, applyPause_plain h false none⟩
  | write _ | readNow _ | snapshot | repoll | browse _ _ => exact ⟨h, [], _, rfl, plain_nil⟩

end EnipAdapter.Analysis
