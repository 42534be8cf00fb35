import EnipAdapter.Interface.PauseContract

/-!
# What the connect ladder owes a request

A `Reconnect` that was taken off the channel is owed one answer: the outcome of the next connect
attempt that completes. The words of that contract, over runs of a device task: the messages a run
takes, the attempts that complete in it, the exits of its driver loops and the alarms it raises.
-/

set_option autoImplicit false

namespace EnipAdapter.Interface

open EnipAdapter.Foundation EnipAdapter.Model

/-! ## Messages and attempts -/

/-- The message a step takes off the channel. -/
def takenMessage (task : DeviceTask) (input : TaskInput) : Option ControlMessage :=
  match task.phase, input with
  | .backoff, .control m | .polling _, .control m | .pushing _ _, .control m => some m
  | _, _ => none

/-- The reply channels of the messages a run takes. -/
def takenReplies (cfg : TaskConfig) : DeviceTask → List (TaskInput × StepEnv) → List ReplyId
  | _, [] => []
  | task, input :: inputs =>
      ((takenMessage task input.1).map ControlMessage.reply).toList ++
        takenReplies cfg (nextTask cfg task input) inputs

/-- The outcome of the connect attempt that a step completes. -/
def attemptOutcome (task : DeviceTask) (input : TaskInput) : Option (Except String Unit) :=
  match task.phase, input with
  | .connecting, .connected => some (.ok ())
  | .connecting, .connectFailed reason => some (.error reason)
  | _, _ => none

/-- The outcome of the first connect attempt that completes in a run; a task that was stopped
completes none. -/
def firstOutcome (cfg : TaskConfig) :
    DeviceTask → List (TaskInput × StepEnv) → Option (Except String Unit)
  | _, [] => none
  | task, input :: inputs =>
      (attemptOutcome task input.1).or (firstOutcome cfg (nextTask cfg task input) inputs)

/-- What a reply channel was sent, in order. -/
def answersTo (reply : ReplyId) (effects : List TaskEffect) : List ControlAnswer :=
  effects.filterMap fun
    | .replied r answer => if r = reply then some answer else none
    | _ => none

/-! ## Exits and alarms -/

/-- How a turn leaves its loop. -/
def turnExit {σ : Type} (turn : LoopTurn σ) : Option LoopExit :=
  match turn.next with
  | .ok _ => none
  | .error exit => some exit

/-- How a step leaves the driver loop the task is in. -/
def loopExit (cfg : TaskConfig) (task : DeviceTask) (input : TaskInput × StepEnv) :
    Option LoopExit :=
  match task.phase, input.1 with
  | .polling _, .cancelled | .polling _, .closed => some .stopped
  | .polling loop, .control m => turnExit (pollControl cfg input.2 task.health loop m)
  | .polling loop, .timer => turnExit (pollWake cfg input.2 task.health loop)
  | .pushing _ _, .cancelled | .pushing _ _, .closed => some .stopped
  | .pushing _ loop, .control m => turnExit (pushControl input.2 task.health loop m)
  | .pushing io loop, .update u => turnExit (pushUpdate cfg io input.2 task.health loop u)
  | .pushing io loop, .timer => turnExit (pushTick cfg io input.2 task.health loop)
  | _, _ => none

def isRaise : TaskEffect → Bool
  | .event .unreachableRaised => true
  | _ => false

/-- How often the unreachable alarm is raised. -/
def raises (effects : List TaskEffect) : ℕ := effects.countP isRaise

/-! ## The contract -/

/-- A run of a device task. The reply of a message is a one-shot channel that moves with it, so
no two messages that are taken have the same one. -/
structure ControlRun (cfg : TaskConfig) (health : TaskHealth) where
  inputs : List (TaskInput × StepEnv)
  distinct : (takenReplies cfg (DeviceTask.start cfg health) inputs).Nodup

/-- What the ladder keeps, at every point of a run. -/
structure KeepsRequests (cfg : TaskConfig) (health : TaskHealth)
    (inputs : List (TaskInput × StepEnv)) : Prop where
  /-- A reconnect that was taken is answered once, by the first attempt that completes. -/
  answered : ∀ before env reply after,
    inputs = before ++ (.control ⟨.reconnect, reply⟩, env) :: after →
    Listens (taskAfter cfg health before) →
    answersTo reply (taskEffects cfg (DeviceTask.start cfg health) inputs) =
      ((firstOutcome cfg
        (taskAfter cfg health (before ++ [(.control ⟨.reconnect, reply⟩, env)])) after).map
          ControlAnswer.reconnected).toList
  /-- No reconnect is pending in a driver loop or in a backoff. -/
  settled : ∀ before after, inputs = before ++ after → Listens (taskAfter cfg health before) →
    (taskAfter cfg health before).pendingReconnect = none
  /-- The alarm is raised by a lost link. -/
  raised : ∀ before input after, inputs = before ++ input :: after →
    loopExit cfg (taskAfter cfg health before) input = some .linkLost →
    raises (taskStep cfg (taskAfter cfg health before) input).2 = 1
  /-- And by nothing else: no reconnect, no failed connect, no stop. -/
  silent : ∀ before input after, inputs = before ++ input :: after →
    loopExit cfg (taskAfter cfg health before) input ≠ some .linkLost →
    raises (taskStep cfg (taskAfter cfg health before) input).2 = 0

end EnipAdapter.Interface
