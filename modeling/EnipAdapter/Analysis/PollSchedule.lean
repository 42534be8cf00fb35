import EnipAdapter.Analysis.TaskTurns
import EnipAdapter.Interface.PollContract

/-!
# The poll schedule is fair

A step of a session keeps the deadlines, starts them over or moves one of them on. A deadline
stays at most one interval ahead of the clock and, counted from the start of the session, at
least one interval behind the polls of its group; the turns of the other groups that a due group
still has to wait for only go down.
-/

set_option autoImplicit false

namespace EnipAdapter.Analysis

open EnipAdapter.Foundation EnipAdapter.Model EnipAdapter.Interface

/-! ## The choice of a group -/

/-- Every group has a positive interval. -/
theorem interval_pos (cfg : TaskConfig) (g : ScheduledGroup) : 0 < cfg.interval g := by
  have hms : 1 ≤ max (cfg.effectivePollMs g) 1 := Nat.le_max_right _ _
  exact Nat.mul_pos hms (by decide)

/-- The interval at an index is that of the group there. -/
theorem intervalAt_of_getElem? {cfg : TaskConfig} {i : ℕ} {g : ScheduledGroup}
    (hg : cfg.groups[i]? = some g) : intervalAt cfg i = cfg.interval g := by
  unfold intervalAt
  rw [List.getD_eq_getElem?_getD, List.getElem?_map, hg]
  rfl

/-- The group that is polled is due, and no deadline that has passed is before its own. -/
theorem dueGroup_spec {cfg : TaskConfig} {loop : PollState} {now : Instant} {i : ℕ}
    {g : ScheduledGroup} (h : dueGroup cfg loop.deadlines now = some (i, g)) :
    i < loop.deadlines.length ∧ cfg.groups[i]? = some g ∧ deadlineAt loop i ≤ now ∧
      ∀ j < loop.deadlines.length, deadlineAt loop j ≤ now →
        deadlineAt loop i ≤ deadlineAt loop j := by
  obtain ⟨k, hk, hgroup⟩ := Option.bind_eq_some_iff.mp h
  obtain ⟨g', hg', hpair⟩ := Option.map_eq_some_iff.mp hgroup
  obtain ⟨rfl, rfl⟩ := Prod.mk.inj hpair
  have hmem := List.mem_filter.mp (List.argmin_mem hk)
  refine ⟨List.mem_range.mp hmem.1, hg', of_decide_eq_true hmem.2, ?_⟩
  intro j hj hdue
  have hother : j ∈ (List.range loop.deadlines.length).filter
      fun i => loop.deadlines.getD i 0 ≤ now :=
    List.mem_filter.mpr ⟨List.mem_range.mpr hj, decide_eq_true hdue⟩
  exact List.le_of_mem_argmin hother hk

/-- Where a deadline has passed, some group is polled. -/
theorem dueGroup_isSome {cfg : TaskConfig} {loop : PollState} {now : Instant} {j : ℕ}
    (hlength : loop.deadlines.length = cfg.groups.length) (hj : j < cfg.groups.length)
    (hdue : deadlineAt loop j ≤ now) : (dueGroup cfg loop.deadlines now).isSome := by
  have hmem : j ∈ (List.range loop.deadlines.length).filter
      fun i => loop.deadlines.getD i 0 ≤ now :=
    List.mem_filter.mpr ⟨List.mem_range.mpr (hlength ▸ hj), decide_eq_true hdue⟩
  cases hpick : earliestDue loop.deadlines now with
  | none =>
    have hnil := List.argmin_eq_none.mp hpick
    rw [hnil] at hmem
    exact absurd hmem List.not_mem_nil
  | some i =>
    have hi := List.mem_filter.mp (List.argmin_mem hpick)
    have hbound : i < cfg.groups.length := hlength ▸ List.mem_range.mp hi.1
    unfold dueGroup
    rw [hpick, Option.bind_some, List.getElem?_eq_getElem hbound]
    rfl

/-! ## The deadlines in one step -/

/-- What a step does to the deadlines of a loop that goes on, and the poll it takes. -/
inductive DeadlineMove (cfg : TaskConfig) (loop loop' : PollState) :
    PollSession.Step → Option (ℕ × Instant) → Prop
  | kept (input : PollSession.Step) (h : loop'.deadlines = loop.deadlines) :
      DeadlineMove cfg loop loop' input none
  | resumed (reply : ReplyId) (env : StepEnv)
      (h : loop'.deadlines = (cfg.groups.map cfg.interval).map (env.clock 1 + ·)) :
      DeadlineMove cfg loop loop' (.control ⟨.resume, reply⟩, env) none
  | polled (env : StepEnv) (i : ℕ) (g : ScheduledGroup)
      (hdue : dueGroup cfg loop.deadlines (env.clock 0) = some (i, g))
      (h : loop'.deadlines =
        loop.deadlines.modify i fun d => rearmed d (cfg.interval g) (env.clock 0)) :
      DeadlineMove cfg loop loop' (.timer, env) (some (i, env.clock 0))

/-- A loop that goes on after a control message keeps its deadlines unless it was resumed. -/
theorem pollControl_deadlines {cfg : TaskConfig} {env : StepEnv} {h : TaskHealth}
    {loop loop' : PollState} {m : ControlMessage}
    (hnext : (pollControl cfg env h loop m).next = .ok loop') :
    DeadlineMove cfg loop loop' (.control m, env) none := by
  obtain ⟨verb, reply⟩ := m
  cases verb with
  | write request =>
    cases request <;>
    · cases hnext
      exact .kept _ rfl
  | readNow specs =>
    unfold pollControl at hnext
    cases hread : env.reads 0 with
    | error e =>
      simp only [hread] at hnext
      cases hnext
    | ok readings =>
      simp only [hread] at hnext
      cases hnext
      exact .kept _ rfl
  | snapshot =>
    cases hnext
    exact .kept _ rfl
  | pause requestedBy =>
    cases hnext
    exact .kept _ rfl
  | resume =>
    unfold pollControl at hnext
    cases hchanged : (applyPause h false none).2.2 with
    | true =>
      simp only [hchanged, if_true] at hnext
      cases hnext
      exact .resumed reply env rfl
    | false =>
      simp only [hchanged, Bool.false_eq_true, if_false] at hnext
      cases hnext
      exact .kept _ rfl
  | reconnect => cases hnext
  | repoll =>
    unfold pollControl at hnext
    by_cases hpaused : loop.paused = true
    · simp only [if_pos hpaused] at hnext
      cases hnext
      exact .kept _ rfl
    · simp only [if_neg hpaused] at hnext
      cases hpolled : (repollAllGroups cfg env 0 cfg.groups loop.engine h).2.2.2 with
      | ok n =>
        simp only [hpolled] at hnext
        cases hnext
        exact .kept _ rfl
      | error e =>
        simp only [hpolled] at hnext
        cases hnext
  | browse cursor max =>
    cases hnext
    exact .kept _ rfl

/-- A loop that goes on after a timer keeps its deadlines unless it polled a group. -/
theorem pollWake_deadlines {cfg : TaskConfig} {s : PollSession} {env : StepEnv} {h : TaskHealth}
    {loop loop' : PollState} (hloop : s.loop = some loop)
    (hnext : (pollWake cfg env h loop).next = .ok loop') :
    DeadlineMove cfg loop loop' (.timer, env) (s.poll cfg (.timer, env)) := by
  unfold PollSession.poll
  unfold pollWake at hnext
  simp only [hloop]
  by_cases hpaused : loop.paused = true
  · rw [if_pos hpaused]
    simp only [if_pos hpaused] at hnext
    split at hnext
    · cases hprobe : env.probe with
      | error e =>
        simp only [hprobe] at hnext
        cases hnext
      | ok _ =>
        simp only [hprobe] at hnext
        cases hnext
        exact .kept _ rfl
    · cases hnext
      exact .kept _ rfl
  · rw [if_neg hpaused]
    simp only [if_neg hpaused] at hnext
    cases hdue : dueGroup cfg loop.deadlines (env.clock 0) with
    | none =>
      simp only [hdue] at hnext
      cases hnext
      exact .kept _ rfl
    | some p =>
      obtain ⟨i, g⟩ := p
      simp only [hdue] at hnext
      cases hread : env.reads 0 with
      | error e =>
        simp only [hread] at hnext
        cases hnext
      | ok readings =>
        simp only [hread] at hnext
        cases hnext
        exact .polled env i g hdue rfl

/-- Only the timer polls. -/
theorem poll_eq_none {cfg : TaskConfig} {s : PollSession} {input : PollSession.Step}
    (h : input.1 ≠ .timer) : s.poll cfg input = none := by
  unfold PollSession.poll
  split
  · rename_i htimer
    exact absurd htimer h
  · rfl

/-- A task that is in its loop after a turn stayed in it. -/
theorem afterTurn_loop {task : DeviceTask} {turn : LoopTurn PollState} {loop' : PollState}
    {now : Instant}
    (h : PollSession.loop ⟨(task.afterTurn .polling turn).1, now⟩ = some loop') :
    turn.next = .ok loop' := by
  unfold DeviceTask.afterTurn at h
  cases hnext : turn.next with
  | ok loop =>
    simp only [hnext] at h
    exact congrArg Except.ok (Option.some.inj h)
  | error exit =>
    cases exit <;>
    · simp only [hnext] at h
      cases h

/-- The loop before and after a step of a session that goes on. -/
theorem step_loop {cfg : TaskConfig} {s : PollSession} {input : PollSession.Step}
    {loop' : PollState} (h : (s.step cfg input).loop = some loop') :
    ∃ loop, s.loop = some loop ∧ DeadlineMove cfg loop loop' input (s.poll cfg input) ∧
      (s.step cfg input).now = s.reads input := by
  cases hloop : s.loop with
  | none =>
    unfold PollSession.step at h
    simp only [hloop] at h
    cases h
  | some loop =>
    have hphase : s.task.phase = .polling loop := by
      unfold PollSession.loop at hloop
      split at hloop
      · rename_i same
        cases hloop
        exact same
      · cases hloop
    have hstep : s.step cfg input = ⟨(taskStep cfg s.task input).1, s.reads input⟩ := by
      unfold PollSession.step
      simp only [hloop]
    rw [hstep] at h ⊢
    refine ⟨loop, rfl, ?_, rfl⟩
    obtain ⟨input, env⟩ := input
    cases input with
    | control m =>
      simp only [taskStep, hphase] at h
      rw [poll_eq_none (by intro htimer; cases htimer)]
      exact pollControl_deadlines (afterTurn_loop h)
    | timer =>
      simp only [taskStep, hphase] at h
      exact pollWake_deadlines hloop (afterTurn_loop h)
    | cancelled | closed =>
      simp only [taskStep, hphase] at h
      cases h
    | connected | connectFailed _ | elapsed | update _ =>
      have hsame : loop = loop' := by
        simp only [taskStep, hphase, PollSession.loop] at h
        exact Option.some.inj h
      rw [poll_eq_none (by intro htimer; cases htimer), hsame]
      exact .kept _ rfl

/-! ## The deadline of a group in one step -/

/-- A loop has one deadline for each group. -/
def DeadlinePerGroup (cfg : TaskConfig) (s : PollSession) : Prop :=
  ∀ loop, s.loop = some loop → loop.deadlines.length = cfg.groups.length

/-- Every input keeps one deadline for each group. -/
theorem deadlinePerGroup_step {cfg : TaskConfig} {s : PollSession} (h : DeadlinePerGroup cfg s)
    (input : PollSession.Step) : DeadlinePerGroup cfg (s.step cfg input) := by
  intro loop' hloop'
  obtain ⟨loop, hloop, hmove, -⟩ := step_loop hloop'
  have hlength := h loop hloop
  generalize s.poll cfg input = taken at hmove
  cases hmove with
  | kept _ hsame => rw [hsame, hlength]
  | resumed _ _ hsame => rw [hsame, List.length_map, List.length_map]
  | polled _ _ _ _ hsame => rw [hsame, List.length_modify, hlength]

/-- A resume puts every deadline one interval from now. -/
theorem deadlineAt_resumed {cfg : TaskConfig} {loop' : PollState} {base : Instant}
    (h : loop'.deadlines = (cfg.groups.map cfg.interval).map (base + ·)) {i : ℕ}
    (hi : i < cfg.groups.length) : deadlineAt loop' i = base + intervalAt cfg i := by
  unfold deadlineAt intervalAt
  rw [h, List.getD_eq_getElem?_getD, List.getD_eq_getElem?_getD, List.getElem?_map,
    List.getElem?_map, List.getElem?_eq_getElem hi, Option.map_some, Option.map_some,
    Option.getD_some, Option.getD_some]

/-- A poll moves the deadline of its group, and no other. -/
theorem deadlineAt_polled {loop loop' : PollState} {i : ℕ} {interval : Duration} {now : Instant}
    (h : loop'.deadlines = loop.deadlines.modify i fun d => rearmed d interval now)
    (hi : i < loop.deadlines.length) :
    deadlineAt loop' i = rearmed (deadlineAt loop i) interval now ∧
      ∀ j, j ≠ i → deadlineAt loop' j = deadlineAt loop j := by
  unfold deadlineAt
  rw [h]
  refine ⟨?_, ?_⟩
  · rw [List.getD_eq_getElem?_getD, List.getD_eq_getElem?_getD, List.getElem?_modify_eq,
      List.getElem?_eq_getElem hi]
    rfl
  · intro j hj
    rw [List.getD_eq_getElem?_getD, List.getD_eq_getElem?_getD,
      List.getElem?_modify_ne _ _ (Ne.symm hj)]

/-- What a scheduled poll is: of the group that is due longest, at an instant that its deadline
has passed, and at a timer. -/
theorem poll_spec {cfg : TaskConfig} {s : PollSession} {input : PollSession.Step} {i : ℕ}
    {t : Instant} (h : s.poll cfg input = some (i, t)) :
    ∃ loop g, s.loop = some loop ∧ input.1 = .timer ∧ t = input.2.clock 0 ∧
      dueGroup cfg loop.deadlines t = some (i, g) := by
  unfold PollSession.poll at h
  split at h
  · rename_i loop hloop htimer
    by_cases hpaused : loop.paused = true
    · rw [if_pos hpaused] at h
      cases h
    · rw [if_neg hpaused] at h
      obtain ⟨p, hdue, hpair⟩ := Option.map_eq_some_iff.mp h
      obtain ⟨rfl, rfl⟩ := Prod.mk.inj hpair
      exact ⟨loop, p.2, hloop, htimer, rfl, hdue⟩
  · cases h

/-! ## No poll comes early -/

/-- The deadline of a group that has been polled `k` times: no earlier than the schedule from the
start of the session has it, and at most one interval ahead of the clock. -/
def OnTime (cfg : TaskConfig) (at_ : Instant) (i k : ℕ) (s : PollSession) : Prop :=
  ∀ loop, s.loop = some loop →
    at_ + (k + 1) * intervalAt cfg i ≤ deadlineAt loop i ∧
      deadlineAt loop i ≤ s.now + intervalAt cfg i

/-- The polls of a group add up. -/
theorem pollsOf_append (i : ℕ) (a b : List (ℕ × Instant)) :
    pollsOf i (a ++ b) = pollsOf i a ++ pollsOf i b := by
  unfold pollsOf
  rw [List.filter_append, List.map_append]

/-- A poll of the group is one of its polls. -/
theorem pollsOf_same (i : ℕ) (t : Instant) : pollsOf i [(i, t)] = [t] := by
  simp [pollsOf]

/-- A poll of another group is not. -/
theorem pollsOf_other {i j : ℕ} (h : j ≠ i) (t : Instant) : pollsOf i [(j, t)] = [] := by
  simp [pollsOf, h]

/-- A deadline that is moved on stays on time, and its group has one poll more. -/
theorem rearmed_onTime {at_ k interval deadline now : ℕ}
    (hfrom : at_ + (k + 1) * interval ≤ deadline) (hdue : deadline ≤ now) :
    at_ + (k + 1 + 1) * interval ≤ rearmed deadline interval now ∧
      rearmed deadline interval now ≤ now + interval := by
  have hmore : (k + 1 + 1) * interval = (k + 1) * interval + interval := Nat.succ_mul _ _
  unfold rearmed
  omega

/-- Every input that comes in time keeps the group on its schedule. -/
theorem onTime_step {cfg : TaskConfig} {at_ : Instant} {i k : ℕ} {s : PollSession}
    {input : PollSession.Step} (hi : i < cfg.groups.length) (h : OnTime cfg at_ i k s)
    (htimely : s.Timely input) :
    OnTime cfg at_ i (k + (pollsOf i (s.poll cfg input).toList).length) (s.step cfg input) := by
  intro loop' hloop'
  obtain ⟨loop, hloop, hmove, hnow⟩ := step_loop hloop'
  obtain ⟨hfrom, hahead⟩ := h loop hloop
  have hlater : s.now ≤ s.reads input := htimely
  rw [hnow]
  generalize s.poll cfg input = taken at hmove
  cases hmove with
  | kept _ hsame =>
    have hdeadline : deadlineAt loop' i = deadlineAt loop i := by
      unfold deadlineAt
      rw [hsame]
    rw [hdeadline]
    exact ⟨hfrom, hahead.trans (Nat.add_le_add_right hlater _)⟩
  | resumed reply env hsame =>
    rw [deadlineAt_resumed hsame hi]
    exact ⟨hfrom.trans (hahead.trans (Nat.add_le_add_right hlater _)), le_rfl⟩
  | polled env j g hdue hsame =>
    obtain ⟨hj, hg, hpassed, -⟩ := dueGroup_spec hdue
    obtain ⟨hthis, hothers⟩ := deadlineAt_polled hsame hj
    by_cases hsame' : j = i
    · subst hsame'
      rw [Option.toList_some, pollsOf_same, hthis, intervalAt_of_getElem? hg]
      rw [intervalAt_of_getElem? hg] at hfrom
      exact rearmed_onTime hfrom hpassed
    · rw [Option.toList_some, pollsOf_other hsame', hothers i (Ne.symm hsame')]
      exact ⟨hfrom, hahead.trans (Nat.add_le_add_right hlater _)⟩

/-- From a session in which the group has been polled `k` times, its next polls come no earlier
than the schedule has them. -/
theorem polls_onTime {cfg : TaskConfig} {at_ : Instant} {i k : ℕ} {s : PollSession}
    {inputs : List PollSession.Step} (hi : i < cfg.groups.length) (h : OnTime cfg at_ i k s)
    (hguard : Guarded (PollSession.step cfg) PollSession.Timely s inputs) {m : ℕ} {t : Instant}
    (ht : (pollsOf i (s.polls cfg inputs))[m]? = some t) :
    at_ + (k + m + 1) * intervalAt cfg i ≤ t := by
  induction inputs generalizing s k m with
  | nil => cases ht
  | cons input inputs ih =>
    have hstep := onTime_step hi h hguard.1
    have hrest (m' k' : ℕ) (hk : k + (pollsOf i (s.poll cfg input).toList).length = k') :=
      ih (hk ▸ hstep) hguard.2 (m := m')
    unfold PollSession.polls at ht
    rw [pollsOf_append] at ht
    cases hpoll : s.poll cfg input with
    | none =>
      rw [hpoll] at ht hrest
      exact hrest m k rfl ht
    | some p =>
      obtain ⟨j, u⟩ := p
      rw [hpoll, Option.toList_some] at ht hrest
      by_cases hsame : j = i
      · subst hsame
        rw [pollsOf_same] at ht hrest
        cases m with
        | zero =>
          obtain ⟨loop, g, hloop, -, -, hdue⟩ := poll_spec hpoll
          have hpassed := (dueGroup_spec hdue).2.2.1
          cases ht
          exact (h loop hloop).1.trans hpassed
        | succ m =>
          have hlater := hrest m (k + 1) rfl ht
          rwa [Nat.add_right_comm k 1 m] at hlater
      · rw [pollsOf_other hsame] at ht hrest
        exact hrest m k rfl ht

/-! ## The groups a due group waits for -/

/-- The groups other than `g`. -/
def otherGroups (cfg : TaskConfig) (g : ℕ) : Finset ℕ := (Finset.range cfg.groups.length).erase g

/-- The other groups are all but one. -/
theorem otherGroups_card {cfg : TaskConfig} {g : ℕ} (hg : g < cfg.groups.length) :
    (otherGroups cfg g).card = cfg.groups.length - 1 := by
  unfold otherGroups
  rw [Finset.card_erase_of_mem (Finset.mem_range.mpr hg), Finset.card_range]

/-- A poll of another group at an instant at which `g` is due takes a turn away from those that
the others may take before `g`. -/
theorem bypass_polled {cfg : TaskConfig} {loop : PollState} {g i : ℕ} {due t : Instant}
    {group : ScheduledGroup} {b : ℕ → ℕ}
    (hlength : loop.deadlines.length = cfg.groups.length) (hg : g < cfg.groups.length)
    (hdue : deadlineAt loop g = due) (hother : i ≠ g) (hnow : due ≤ t)
    (hpick : dueGroup cfg loop.deadlines t = some (i, group))
    (hthis : b i = rearmed (deadlineAt loop i) (cfg.interval group) t)
    (hothers : ∀ j, j ≠ i → b j = deadlineAt loop j) :
    bypass (otherGroups cfg g) due b < bypass (otherGroups cfg g) due (deadlineAt loop) := by
  obtain ⟨hi, -, -, hfirst⟩ := dueGroup_spec hpick
  have hmem : i ∈ otherGroups cfg g :=
    Finset.mem_erase.mpr ⟨hother, Finset.mem_range.mpr (hlength ▸ hi)⟩
  have hbefore : deadlineAt loop i ≤ due := by
    have hle := hfirst g (hlength ▸ hg) (hdue.le.trans hnow)
    rwa [hdue] at hle
  exact bypass_rearmed hmem (interval_pos cfg group) hnow hbefore hthis hothers

/-- The polls at an instant or later. -/
def pollsSince (due : Instant) (polls : List (ℕ × Instant)) : ℕ :=
  (polls.filter (fun p => due ≤ p.2)).length

/-- The polls since an instant add up. -/
theorem pollsSince_append (due : Instant) (a b : List (ℕ × Instant)) :
    pollsSince due (a ++ b) = pollsSince due a + pollsSince due b := by
  unfold pollsSince
  rw [List.filter_append, List.length_append]

/-- A poll at or after the instant counts. -/
theorem pollsSince_late {due t : Instant} (h : due ≤ t) (i : ℕ) :
    pollsSince due [(i, t)] = 1 := by
  simp [pollsSince, h]

/-- A poll before it does not. -/
theorem pollsSince_early {due t : Instant} (h : ¬ due ≤ t) (i : ℕ) :
    pollsSince due [(i, t)] = 0 := by
  simp [pollsSince, h]

/-- The deadline of `g`, as long as the session lasts. -/
def Awaits (g : ℕ) (due : Instant) (s : PollSession) : Prop :=
  ∀ loop, s.loop = some loop → deadlineAt loop g = due

/-- The turns the other groups may still take; none in a session that is over. -/
def turnsLeft (cfg : TaskConfig) (g : ℕ) (due : Instant) (s : PollSession) : ℕ :=
  (s.loop.map fun loop => bypass (otherGroups cfg g) due (deadlineAt loop)).getD 0

/-- In the loop the turns left are what the deadlines allow the other groups. -/
theorem turnsLeft_of_loop {cfg : TaskConfig} {g : ℕ} {due : Instant} {s : PollSession}
    {loop : PollState} (h : s.loop = some loop) :
    turnsLeft cfg g due s = bypass (otherGroups cfg g) due (deadlineAt loop) := by
  unfold turnsLeft
  rw [h]
  rfl

section Turns

variable {cfg : TaskConfig} {s : PollSession} {input : PollSession.Step} {g : ℕ} {due : Instant}

/-- The last step of a session takes at most one of the turns that are left. -/
theorem turnsLeft_ends (hgroups : DeadlinePerGroup cfg s) (hg : g < cfg.groups.length)
    (hwait : Awaits g due s) (hnot : ∀ p ∈ s.poll cfg input, p.1 ≠ g) :
    pollsSince due (s.poll cfg input).toList ≤ turnsLeft cfg g due s := by
  cases hpoll : s.poll cfg input with
  | none => exact Nat.zero_le _
  | some p =>
    obtain ⟨i, t⟩ := p
    obtain ⟨loop, group, hloop, -, -, hpick⟩ := poll_spec hpoll
    have hother : i ≠ g := hnot (i, t) hpoll
    rw [Option.toList_some]
    by_cases hnow : due ≤ t
    · have hless := bypass_polled
        (b := Function.update (deadlineAt loop) i
          (rearmed (deadlineAt loop i) (cfg.interval group) t))
        (hgroups loop hloop) hg (hwait loop hloop) hother hnow hpick (Function.update_self ..)
        fun j hj => Function.update_of_ne hj ..
      rw [pollsSince_late hnow, turnsLeft_of_loop hloop]
      exact Nat.succ_le_of_lt (Nat.lt_of_le_of_lt (Nat.zero_le _) hless)
    · rw [pollsSince_early hnow]
      exact Nat.zero_le _

/-- A poll of another group since `g` is due takes one of the turns that are left, and no step
gives one back. -/
theorem turnsLeft_step (hgroups : DeadlinePerGroup cfg s) (hg : g < cfg.groups.length)
    (hwait : Awaits g due s) (htouch : ¬ TouchesPause input)
    (hnot : ∀ p ∈ s.poll cfg input, p.1 ≠ g) :
    Awaits g due (s.step cfg input) ∧
      pollsSince due (s.poll cfg input).toList + turnsLeft cfg g due (s.step cfg input) ≤
        turnsLeft cfg g due s := by
  cases hloop' : (s.step cfg input).loop with
  | none =>
    refine ⟨fun loop hloop => absurd (hloop'.symm.trans hloop) (by simp), ?_⟩
    have hover : turnsLeft cfg g due (s.step cfg input) = 0 := by
      unfold turnsLeft
      rw [hloop']
      rfl
    rw [hover]
    exact turnsLeft_ends hgroups hg hwait hnot
  | some loop' =>
    obtain ⟨loop, hloop, hmove, -⟩ := step_loop hloop'
    have hdue := hwait loop hloop
    rw [turnsLeft_of_loop hloop, turnsLeft_of_loop hloop']
    have hawaits (hstays : deadlineAt loop' g = deadlineAt loop g) :
        Awaits g due (s.step cfg input) := by
      intro other hsome
      cases hloop'.symm.trans hsome
      exact hstays.trans hdue
    generalize s.poll cfg input = taken at hmove hnot ⊢
    cases hmove with
    | kept _ hsame =>
      have hdeadlines : deadlineAt loop' = deadlineAt loop := by
        unfold deadlineAt
        rw [hsame]
      refine ⟨hawaits (congrFun hdeadlines g), ?_⟩
      rw [hdeadlines]
      exact (Nat.zero_add _).le
    | resumed reply env hsame => exact absurd ⟨_, rfl, .inr rfl⟩ htouch
    | polled env i group hpick hsame =>
      obtain ⟨hthis, hothers⟩ := deadlineAt_polled hsame (dueGroup_spec hpick).1
      have hother : i ≠ g := hnot (i, env.clock 0) rfl
      refine ⟨hawaits (hothers g (Ne.symm hother)), ?_⟩
      rw [Option.toList_some]
      by_cases hnow : due ≤ env.clock 0
      · have hless := bypass_polled (hgroups loop hloop) hg hdue hother hnow hpick hthis hothers
        rw [pollsSince_late hnow, Nat.add_comm]
        exact hless
      · -- a poll before `g` is due only moves a deadline on
        have hlater : ∀ j ∈ otherGroups cfg g, deadlineAt loop j ≤ deadlineAt loop' j := by
          intro j _
          by_cases hj : j = i
          · rw [hj, hthis]
            exact (Nat.le_add_right _ _).trans (Nat.le_max_left _ _)
          · rw [hothers j hj]
        rw [pollsSince_early hnow, Nat.zero_add]
        exact bypass_antitone hlater

/-- What is left of the turns of the others bounds their polls, for as long as `g` is not polled
and nothing pauses or resumes. -/
theorem pollsSince_le_turnsLeft {inputs : List PollSession.Step}
    (hgroups : DeadlinePerGroup cfg s) (hg : g < cfg.groups.length) (hwait : Awaits g due s)
    (htouch : ∀ input ∈ inputs, ¬ TouchesPause input)
    (hnot : ∀ p ∈ s.polls cfg inputs, p.1 ≠ g) :
    pollsSince due (s.polls cfg inputs) ≤ turnsLeft cfg g due s := by
  induction inputs generalizing s with
  | nil => exact Nat.zero_le _
  | cons input inputs ih =>
    unfold PollSession.polls at hnot ⊢
    have hhead : ∀ p ∈ s.poll cfg input, p.1 ≠ g := fun p hp =>
      hnot p (List.mem_append_left _ (Option.mem_toList.mpr hp))
    obtain ⟨hwait', hstep⟩ :=
      turnsLeft_step hgroups hg hwait (htouch input List.mem_cons_self) hhead
    have hrest := ih (deadlinePerGroup_step hgroups input) hwait'
      (fun i hi => htouch i (List.mem_cons_of_mem _ hi))
      fun p hp => hnot p (List.mem_append_right _ hp)
    rw [pollsSince_append]
    exact (Nat.add_le_add_left hrest _).trans hstep

end Turns

/-! ## A whole session -/

/-- A session starts with one deadline for each group. -/
theorem deadlinePerGroup_start (cfg : TaskConfig) (at_ : Instant) (h : TaskHealth) :
    DeadlinePerGroup cfg (PollSession.start cfg at_ h) := by
  intro loop hloop
  cases hloop
  exact List.length_map _

/-- And with every group on its schedule. -/
theorem onTime_start {cfg : TaskConfig} {i : ℕ} (hi : i < cfg.groups.length) (at_ : Instant)
    (h : TaskHealth) : OnTime cfg at_ i 0 (PollSession.start cfg at_ h) := by
  intro loop hloop
  cases hloop
  have hsame : (PollState.enter cfg at_ h).deadlines =
      (cfg.groups.map cfg.interval).map (at_ + ·) := by
    rw [List.map_map]
    rfl
  rw [deadlineAt_resumed hsame hi, Nat.zero_add, Nat.one_mul]
  exact ⟨le_rfl, le_rfl⟩

/-- The poll of a group that has a place among the groups. -/
theorem poll_in_range {cfg : TaskConfig} {s : PollSession} {inputs : List PollSession.Step}
    (hgroups : DeadlinePerGroup cfg s) :
    ∀ p ∈ s.polls cfg inputs, p.1 < cfg.groups.length := by
  induction inputs generalizing s with
  | nil =>
    intro p hp
    cases hp
  | cons input inputs ih =>
    intro p hp
    unfold PollSession.polls at hp
    rcases List.mem_append.mp hp with hhead | hrest
    · obtain ⟨loop, g, hloop, -, -, hdue⟩ := poll_spec (Option.mem_toList.mp hhead)
      exact hgroups loop hloop ▸ (dueGroup_spec hdue).1
    · exact ih (deadlinePerGroup_step hgroups input) p hrest

/-- No run in time polls a group before its interval has passed. -/
theorem neverEarly_polls {cfg : TaskConfig} {at_ : Instant} {h : TaskHealth}
    {inputs : List PollSession.Step}
    (hguard : Guarded (PollSession.step cfg) PollSession.Timely (PollSession.start cfg at_ h)
      inputs) :
    NeverEarly cfg at_ ((PollSession.start cfg at_ h).polls cfg inputs) := by
  intro i k t ht
  have hmem := List.mem_map.mp (List.mem_of_getElem? ht)
  obtain ⟨p, hp, -⟩ := hmem
  have hp := List.mem_filter.mp hp
  have hi : i < cfg.groups.length :=
    eq_of_beq hp.2 ▸ poll_in_range (deadlinePerGroup_start cfg at_ h) p hp.1
  have hlate := polls_onTime hi (onTime_start hi at_ h) hguard ht
  rwa [Nat.zero_add] at hlate

/-- A deadline that is rearmed lies ahead. -/
theorem rearmsForward (cfg : TaskConfig) (s : PollSession) : RearmsForward cfg s := by
  intro input i t hpoll loop' hloop'
  obtain ⟨loop, -, hmove, -⟩ := step_loop hloop'
  rw [hpoll] at hmove
  cases hmove with
  | polled env j g hdue hsame =>
    rw [(deadlineAt_polled hsame (dueGroup_spec hdue).1).1]
    exact Nat.le_max_right _ _

/-- A resume moves no deadline of a group that is on its schedule to an earlier time. -/
theorem resumesLater_of_onTime {cfg : TaskConfig} {at_ : Instant} {s : PollSession}
    (h : ∀ i < cfg.groups.length, ∃ k, OnTime cfg at_ i k s) : ResumesLater cfg s := by
  intro reply env loop loop' htimely hloop hloop' i hi
  obtain ⟨k, htime⟩ := h i hi
  have hahead := (htime loop hloop).2
  obtain ⟨loop₀, hloop₀, hmove, -⟩ := step_loop hloop'
  cases hloop.symm.trans hloop₀
  have hclock : s.now ≤ env.clock 1 := htimely
  rw [poll_eq_none (by intro htimer; cases htimer)] at hmove
  cases hmove with
  | kept _ hsame =>
    unfold deadlineAt
    rw [hsame]
  | resumed _ _ hsame =>
    rw [deadlineAt_resumed hsame hi]
    exact hahead.trans (Nat.add_le_add_right hclock _)

/-- With a deadline for each group no group waits for more than two turns of every other. -/
theorem boundedBypass_of_groups {cfg : TaskConfig} {s : PollSession}
    (hgroups : DeadlinePerGroup cfg s) : BoundedBypass cfg s := by
  intro loop hloop g hg
  refine ⟨?_, ?_⟩
  · intro more htouch hnot
    have hwait : Awaits g (deadlineAt loop g) s := by
      intro other hsome
      cases hloop.symm.trans hsome
      rfl
    calc pollsSince (deadlineAt loop g) (s.polls cfg more)
        ≤ turnsLeft cfg g (deadlineAt loop g) s :=
          pollsSince_le_turnsLeft hgroups hg hwait htouch hnot
      _ = bypass (otherGroups cfg g) (deadlineAt loop g) (deadlineAt loop) :=
        turnsLeft_of_loop hloop
      _ ≤ 2 * (otherGroups cfg g).card := bypass_le _ _ _
      _ = 2 * (cfg.groups.length - 1) := by rw [otherGroups_card hg]
  · intro env hpaused hdue
    have hsome := dueGroup_isSome (hgroups loop hloop) hg hdue
    unfold PollSession.poll
    simp only [hloop, hpaused, Bool.false_eq_true, if_false]
    rw [Option.isSome_map]
    exact hsome

/-- What every session keeps. -/
structure OnSession (cfg : TaskConfig) (at_ : Instant) (s : PollSession) : Prop where
  perGroup : DeadlinePerGroup cfg s
  onTime : ∀ i < cfg.groups.length, ∃ k, OnTime cfg at_ i k s

/-- Every input that comes in time keeps the session in order. -/
theorem onSession_step {cfg : TaskConfig} {at_ : Instant} {s : PollSession}
    {input : PollSession.Step} (h : OnSession cfg at_ s) (htimely : s.Timely input) :
    OnSession cfg at_ (s.step cfg input) := by
  refine ⟨deadlinePerGroup_step h.perGroup input, ?_⟩
  intro i hi
  obtain ⟨k, hk⟩ := h.onTime i hi
  exact ⟨_, onTime_step hi hk htimely⟩

/-- The poll scheduler is fair and never storms: however long the reads take and whatever control
messages come between, no group is polled before its schedule from the start of the session,
every poll leaves its group a deadline that is not past, a resume moves no deadline back, and a
group that is due waits for at most two polls of each other group. -/
theorem poll_schedule_fair (cfg : TaskConfig) (at_ : Instant) (h : TaskHealth)
    (inputs : List PollSession.Step)
    (hguard : Guarded (PollSession.step cfg) PollSession.Timely (PollSession.start cfg at_ h)
      inputs) :
    let s := runSteps (PollSession.step cfg) (PollSession.start cfg at_ h) inputs
    NeverEarly cfg at_ ((PollSession.start cfg at_ h).polls cfg inputs) ∧
      RearmsForward cfg s ∧ ResumesLater cfg s ∧ BoundedBypass cfg s := by
  intro s
  have hinv : OnSession cfg at_ s := runSteps_invariant (fun _ _ => onSession_step)
    ⟨deadlinePerGroup_start cfg at_ h, fun _ hi => ⟨0, onTime_start hi at_ h⟩⟩ hguard
  exact ⟨neverEarly_polls hguard, rearmsForward cfg s, resumesLater_of_onTime hinv.onTime,
    boundedBypass_of_groups hinv.perGroup⟩

/-- Two groups at one and two milliseconds. -/
def twoRates : TaskConfig :=
  { mode := .poll
    groups := [{ id := none, signals := [], pollIntervalMs := some 1 },
      { id := none, signals := [], pollIntervalMs := some 2 }]
    keepaliveMs := 5 }

/-- A timer that fires at an instant. -/
def timerAt (t : Instant) : PollSession.Step := (.timer, { clock := fun _ => t })

/-- At a tie the first group goes first, then the second. -/
theorem poll_schedule_fair_tie :
    (PollSession.start twoRates 0 {}).polls twoRates
        [timerAt 1000000, timerAt 2000000, timerAt 2000000] =
      [(0, 1000000), (0, 2000000), (1, 2000000)] ∧
    NeverEarly twoRates 0 ((PollSession.start twoRates 0 {}).polls twoRates
      [timerAt 1000000, timerAt 2000000, timerAt 2000000]) := by
  have htimely : Guarded (PollSession.step twoRates) PollSession.Timely
      (PollSession.start twoRates 0 {})
      [timerAt 1000000, timerAt 2000000, timerAt 2000000] := by decide
  exact ⟨by decide, (poll_schedule_fair twoRates 0 {} _ htimely).1⟩

end EnipAdapter.Analysis
