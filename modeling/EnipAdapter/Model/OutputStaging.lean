import EnipAdapter.Model.PushSession

/-!
# Staging outputs from several callers

Any number of callers stage an output through the handles of one manager (`io.rs`,
`IoConnectionHandle::stage`), each under a deadline of its own or none. A call validates its
buffer, hands a command to the manager's queue, and waits for the manager's verdict; both waits
are bounded by the deadline, and as with `timeout_at` a waiter looks for its answer before it
looks at the clock.

The callers, the queue, the manager and the clock are one state. A step is one caller being
polled, the manager taking one arm of its `select!`, somebody else sending it a command, or the
clock moving.
-/

set_option autoImplicit false

namespace EnipAdapter.Model

open EnipAdapter.Foundation

/-- Where a call of `stage` stands: its command waits for a place in the queue, it waits for
its verdict, or it has returned. -/
inductive CallState where
  | sending
  | waiting
  | returned (result : Except EnipError Unit)
deriving DecidableEq

/-- One call of `stage_output` (no deadline) or `stage_output_by`. -/
structure StageCall where
  handle : IoConnectionHandle
  bytes : Bytes
  deadline : Option Instant
  state : CallState

/-- The commands that are not confirmed stagings: `set_output`, `set_run`, the registration of
an opened connection, the removal of a closed one, and the shutdown. -/
inductive OtherCommand where
  | setOutput (handle : IoConnectionHandle) (bytes : Bytes)
  | setRun (handle : IoConnectionHandle) (run : Bool)
  | add (params : IoConnectionParams) (openedAt : Instant) (eventsTx : IoEventSender) (ack : ℕ)
  | remove (handle : IoConnectionHandle)
  | shutdown

/-- What such a command puts in the queue; `set_output` refuses a buffer of the wrong size
before it sends anything. -/
def OtherCommand.toCommand : OtherCommand → Option ManagerCommand
  | .setOutput handle bytes =>
    match handle.validateOutput bytes with
    | .error _ => none
    | .ok () => some (.setOutput handle.connectionId bytes none none)
  | .setRun handle run => some (.setRun handle.connectionId run)
  | .add params openedAt eventsTx ack => some (.add params openedAt eventsTx ack)
  | .remove handle => some (.remove handle.connectionId)
  | .shutdown => some .shutdown

/-- What the record of a manager's commands holds: a connection registered under an id, or a
buffer accepted for one, with the acknowledgement of the command that carried it. -/
inductive StagingRecord where
  | opened (connectionId : UInt32)
  | accepted (connectionId : UInt32) (bytes : Bytes) (ack : Option ℕ)
deriving DecidableEq

/-- One step. `granted` is whether the queue's semaphore has a place for this caller: places go
to the senders in the order they began to wait. -/
inductive StagingInput where
  | advance (elapsed : Duration)
  | call (handle : IoConnectionHandle) (bytes : Bytes) (deadline : Option Instant)
  | poll (call : ℕ) (granted : Bool)
  | other (cmd : OtherCommand)
  | manager (poll : ManagerPoll) (join : Except ErrorKind Unit) (ackOpen : Bool)
  | sendersDropped

/-- The callers, the manager's queue, the manager and the clock. A call is named by its place
in `calls`, and so is its acknowledgement; `verdicts` are the answers sent on those; `record`
keeps what the manager's commands did to the connections' outputs. -/
structure StagingSystem where
  now : Instant
  calls : List StageCall
  commands : List ManagerCommand
  manager : Manager
  verdicts : List (ℕ × Except EnipError Unit)
  record : List StagingRecord

namespace StagingSystem

/-- A manager with an empty queue and nobody staging. -/
def start (manager : Manager) (now : Instant) : StagingSystem where
  now := now
  calls := []
  commands := []
  manager := manager
  verdicts := []
  record := []

/-- `stage` is called: the buffer is validated before anything is sent. -/
def beginCall (s : StagingSystem) (handle : IoConnectionHandle) (bytes : Bytes)
    (deadline : Option Instant) : StagingSystem :=
  let state : CallState :=
    match handle.validateOutput bytes with
    | .error e => .returned (.error e)
    | .ok () => .sending
  { s with calls := s.calls ++ [⟨handle, bytes, deadline, state⟩] }

/-- A call moves on. -/
def setState (s : StagingSystem) (call : ℕ) (state : CallState) : StagingSystem :=
  { s with calls := s.calls.modify call fun c => { c with state := state } }

/-- A caller is polled. A full queue and a missing verdict leave it to its deadline; a manager
that is gone has closed the queue and dropped every acknowledgement in it. -/
def pollCall (s : StagingSystem) (call : ℕ) (granted : Bool) : StagingSystem :=
  match s.calls[call]? with
  | none => s
  | some c =>
    match c.state with
    | .sending =>
      if s.manager.running = false then s.setState call (.returned (.error .closed))
      else if granted = true ∧ s.commands.length < managerCommandDepth then
        { s.setState call .waiting with
          commands := s.commands ++
            [.setOutput c.handle.connectionId c.bytes c.deadline (some call)] }
      else if expired c.deadline s.now then
        s.setState call (.returned (.error (.timeout outputStaging)))
      else s
    | .waiting =>
      match s.verdicts.lookup call with
      | some verdict => s.setState call (.returned verdict)
      | none =>
        if s.manager.running = false then s.setState call (.returned (.error .closed))
        else if expired c.deadline s.now then
          s.setState call (.returned (.error (.timeout outputStaging)))
        else s
    | .returned _ => s

/-- Somebody else sends a command; a queue that is full or closed takes none. -/
def send (s : StagingSystem) (cmd : OtherCommand) : StagingSystem :=
  match cmd.toCommand with
  | none => s
  | some cmd =>
    if s.manager.running = true ∧ s.commands.length < managerCommandDepth then
      { s with commands := s.commands ++ [cmd] }
    else s

/-- The verdict on a confirmed staging, on its acknowledgement. -/
def verdictsOn (cmd : ManagerCommand) (effects : List ManagerEffect) :
    List (ℕ × Except EnipError Unit) :=
  match cmd with
  | .setOutput _ _ _ (some _) => PushSystem.verdictsOf effects
  | _ => []

/-- An effect that tells a caller `Ok`. -/
def tellsOk : ManagerEffect → Bool
  | .verdict _ (.ok ()) => true
  | _ => false

/-- What a handled command is recorded as, by the manager's own decision about it. -/
def recorded (m : Manager) (cmd : ManagerCommand) (env : CommandEnv) : List StagingRecord :=
  match cmd with
  | .setOutput id bytes deadline ack =>
    match (m.stageOutput id bytes deadline env.now).2 with
    | .ok () => [.accepted id bytes ack]
    | .error _ => []
  | .add params _ _ _ =>
    if (m.command cmd env).2.any tellsOk then [.opened params.t2oConnectionId] else []
  | _ => []

/-- The manager after a step; a task that left its loop drops its queue. -/
def settle (s : StagingSystem) (rest : List ManagerCommand) (m : Manager) : StagingSystem :=
  { s with manager := m, commands := if m.running then rest else [] }

/-- The manager handles the next command, or what else its `select!` received. -/
def pollManager (s : StagingSystem) (poll : ManagerPoll) (join : Except ErrorKind Unit)
    (ackOpen : Bool) : StagingSystem :=
  match PushSystem.managerInput s.now poll with
  | some input => s.settle s.commands (s.manager.step input).1
  | none =>
    match s.commands with
    | [] => s
    | cmd :: rest =>
      let env : CommandEnv := ⟨s.now, join, ackOpen⟩
      let r := s.manager.step (.command cmd env)
      { s.settle rest r.1 with
        verdicts := s.verdicts ++ verdictsOn cmd r.2
        record := s.record ++ recorded s.manager cmd env }

def step (s : StagingSystem) : StagingInput → StagingSystem
  | .advance elapsed => { s with now := s.now + elapsed }
  | .call handle bytes deadline => s.beginCall handle bytes deadline
  | .poll call granted => s.pollCall call granted
  | .other cmd => s.send cmd
  | .manager poll join ackOpen => s.pollManager poll join ackOpen
  | .sendersDropped =>
    -- `recv` yields `None` only once the queue has been emptied
    if s.commands = [] then s.settle [] (s.manager.step .commandsClosed).1 else s

end StagingSystem

end EnipAdapter.Model
