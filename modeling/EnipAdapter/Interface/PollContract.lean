import EnipAdapter.Foundation.EarliestDeadline
import EnipAdapter.Foundation.Runs
import EnipAdapter.Model.DeviceTask

/-!
# The schedule of a poll session

One task serves all poll groups of a device, between control messages, with reads of any length.
Here is one session as a run of the task: it begins when the task enters its poll loop and is
over when the task leaves it. The clock is what the scheduler reads of it, and it never goes
back.
-/

set_option autoImplicit false

namespace EnipAdapter.Interface

open EnipAdapter.Foundation EnipAdapter.Model

/-- The interval of a group by its place. -/
def intervalAt (cfg : TaskConfig) (i : ℕ) : Duration := (cfg.groups.map cfg.interval).getD i 0

/-- The deadline of a group by its place. -/
def deadlineAt (loop : PollState) (i : ℕ) : Instant := loop.deadlines.getD i 0

/-- A task in a session, and the last instant its scheduler read off the clock. -/
structure PollSession where
  task : DeviceTask
  now : Instant

namespace PollSession

abbrev Step := TaskInput × StepEnv

/-- The poll loop at its first head. -/
def start (cfg : TaskConfig) (at_ : Instant) (h : TaskHealth) : PollSession :=
  ⟨{ health := h, phase := .polling (PollState.enter cfg at_ h) }, at_⟩

/-- The loop of a session that is not over. -/
def loop (s : PollSession) : Option PollState :=
  match s.task.phase with
  | .polling loop => some loop
  | _ => none

/-- The instant the scheduler reads in a step: a timer reads one to see what is due, a resume one
to start the deadlines over. -/
def reads (s : PollSession) (input : Step) : Instant :=
  match input.1 with
  | .timer => input.2.clock 0
  | .control ⟨.resume, _⟩ => input.2.clock 1
  | _ => s.now

def Timely (s : PollSession) (input : Step) : Prop := s.now ≤ s.reads input

instance (s : PollSession) (input : Step) : Decidable (s.Timely input) :=
  inferInstanceAs (Decidable (s.now ≤ s.reads input))

/-- A session that is over stays so: the next one is another. -/
def step (cfg : TaskConfig) (s : PollSession) (input : Step) : PollSession :=
  match s.loop with
  | none => s
  | some _ => ⟨(taskStep cfg s.task input).1, s.reads input⟩

/-- The scheduled poll a step takes, with its instant. -/
def poll (cfg : TaskConfig) (s : PollSession) (input : Step) : Option (ℕ × Instant) :=
  match s.loop, input.1 with
  | some loop, .timer =>
    if loop.paused then none
    else (dueGroup cfg loop.deadlines (input.2.clock 0)).map fun p => (p.1, input.2.clock 0)
  | _, _ => none

/-- The scheduled polls along a run, in order. -/
def polls (cfg : TaskConfig) : PollSession → List Step → List (ℕ × Instant)
  | _, [] => []
  | s, input :: inputs => (s.poll cfg input).toList ++ polls cfg (s.step cfg input) inputs

end PollSession

/-- The instants at which a group was polled. -/
def pollsOf (i : ℕ) (polls : List (ℕ × Instant)) : List Instant :=
  (polls.filter (·.1 == i)).map (·.2)

/-- A pause or a resume. -/
def TouchesPause (input : PollSession.Step) : Prop :=
  ∃ m, input.1 = .control m ∧ ((∃ by_, m.verb = .pause by_) ∨ m.verb = .resume)

/-- The `k`-th scheduled poll of a group does not start before `k` of its intervals have passed. -/
def NeverEarly (cfg : TaskConfig) (at_ : Instant) (polls : List (ℕ × Instant)) : Prop :=
  ∀ i k t, (pollsOf i polls)[k]? = some t → at_ + (k + 1) * intervalAt cfg i ≤ t

/-- After a poll its group is due again at the instant of the poll or later. -/
def RearmsForward (cfg : TaskConfig) (s : PollSession) : Prop :=
  ∀ input i t, s.poll cfg input = some (i, t) →
    ∀ loop, (s.step cfg input).loop = some loop → t ≤ deadlineAt loop i

/-- A resume moves no deadline back. -/
def ResumesLater (cfg : TaskConfig) (s : PollSession) : Prop :=
  ∀ reply env loop loop', s.Timely (.control ⟨.resume, reply⟩, env) → s.loop = some loop →
    (s.step cfg (.control ⟨.resume, reply⟩, env)).loop = some loop' →
      ∀ i < cfg.groups.length, deadlineAt loop i ≤ deadlineAt loop' i

/-- Without a pause or a resume, the other groups are polled at most twice each from the moment a
group is due until it is polled itself, and every timer that finds it due takes a poll. -/
def BoundedBypass (cfg : TaskConfig) (s : PollSession) : Prop :=
  ∀ loop, s.loop = some loop → ∀ g < cfg.groups.length,
    (∀ more, (∀ input ∈ more, ¬ TouchesPause input) → (∀ p ∈ s.polls cfg more, p.1 ≠ g) →
        ((s.polls cfg more).filter (fun p => deadlineAt loop g ≤ p.2)).length ≤
          2 * (cfg.groups.length - 1)) ∧
    ∀ env, loop.paused = false → deadlineAt loop g ≤ env.clock 0 →
      (s.poll cfg (.timer, env)).isSome

end EnipAdapter.Interface
