import EnipAdapter.Foundation.Runs
import EnipAdapter.Interface.EventStream
import EnipAdapter.Model.ForwardOpen
import EnipAdapter.Model.IoManager
import Mathlib.Data.Option.Basic

/-!
# Why a class-1 connection is lost

A connection is lost for one of three reasons: its consumer heard nothing for a whole watchdog
window, its sends keep failing, or the socket it shares is dead. A `Lifeline` is what an observer
notes of one connection to know this: when it was opened or last heard of, and how many sends in
a row failed of the path. The observer sees the inputs of the manager, the samples it hands on,
and whether a tick found a frame to produce.
-/

set_option autoImplicit false

namespace EnipAdapter.Interface

open EnipAdapter.Foundation EnipAdapter.Model

/-- What is noted of a registered connection. -/
structure Lifeline where
  params : IoConnectionParams
  /-- When it was opened, or the arrival of the last sample handed on. -/
  fed : Instant
  /-- Failed sends since the last one that went out; one datagram's own failure is none. -/
  failures : ℕ
deriving DecidableEq

namespace Lifeline

/-- When the watchdog runs out. -/
def deadline (l : Lifeline) : Instant :=
  (Instant.checkedAdd l.fed (watchdogTimeout l.params.t2oApi l.params.timeoutMultiplier)).getD
    l.fed

/-- A tick tries to send, or has nothing to send. -/
def after (l : Lifeline) : Option (Except ErrorKind Unit) → Lifeline
  | none => l
  | some (.ok ()) => { l with failures := 0 }
  | some (.error kind) =>
    if isPerDatagramError kind then l else { l with failures := l.failures + 1 }

/-- Why the connection ends at a tick, if it does: a dead path comes before a silent one. -/
def verdict (l : Lifeline) (now : Instant) (attempt : Option (Except ErrorKind Unit)) :
    Option LostReason :=
  if maxConsecutiveSendErrors ≤ (l.after attempt).failures then some .io
  else if l.deadline ≤ now then some .timeout
  else none

end Lifeline

/-- What comes of the frame that a tick finds due for a connection, if one is due. -/
def attempt (m : Manager) (now : Instant) (sends : UInt32 → Except ErrorKind Unit)
    (id : UInt32) : Option (Except ErrorKind Unit) :=
  (m.registry.conns.lookup id).bind fun c =>
    (c.pollProduce now).2.map (sendResult · (sends id))

/-- The arrival of the sample that a step hands to the consumer of a connection. -/
def heard (id : UInt32) (effects : List ManagerEffect) : Option Instant :=
  effects.findSome? fun
    | .event i _ (.data update) => if i = id then some update.receivedAt else none
    | _ => none

/-- The losses that a step tells the consumer of a connection. -/
def lossesTo (id : UInt32) (effects : List ManagerEffect) : List LostReason :=
  effects.filterMap fun
    | .event i _ (.lost reason) => if i = id then some reason else none
    | _ => none

/-- The observer's notes. -/
structure LossWatch where
  lifelines : UInt32 → Option Lifeline
  /-- Receive errors in a row that were not about one datagram. -/
  row : ℕ

namespace LossWatch

def start : LossWatch := ⟨fun _ => none, 0⟩

/-- The third such receive error in a row. -/
def condemns (w : LossWatch) (kind : ErrorKind) : Bool :=
  !isPerDatagramError kind && decide (maxConsecutiveFatalRecvErrors ≤ w.row + 1)

/-- The note on a command. -/
def command (w : LossWatch) (env : CommandEnv) : ManagerCommand → LossWatch
  | .add params openedAt _ _ =>
    if params.multicastGroup = none ∨ env.join = .ok () then
      let line := if env.ackOpen then some ⟨params, openedAt, 0⟩ else none
      { w with lifelines := Function.update w.lifelines params.t2oConnectionId line }
    else w
  | .remove id => { w with lifelines := Function.update w.lifelines id none }
  | .shutdown => { w with lifelines := fun _ => none }
  | .setOutput _ _ _ _ | .setRun _ _ => w

/-- The note on one step of the manager. -/
def note (w : LossWatch) (m : Manager) (effects : List ManagerEffect) :
    ManagerInput → LossWatch
  | .command cmd env => w.command env cmd
  | .commandsClosed => { w with lifelines := fun _ => none }
  | .datagram _ _ _ =>
    { lifelines := fun id => (w.lifelines id).map fun l =>
        { l with fed := (heard id effects).getD l.fed }
      row := 0 }
  | .recvError kind _ =>
    { lifelines := if w.condemns kind then fun _ => none else w.lifelines
      row := if isPerDatagramError kind then 0 else w.row + 1 }
  | .tick now _ sends =>
    { w with lifelines := fun id => (w.lifelines id).bind fun l =>
        if (l.verdict now (attempt m now sends id)).isSome then none
        else some (l.after (attempt m now sends id)) }

/-- The loss that a step owes a connection. -/
def owed (w : LossWatch) (m : Manager) (id : UInt32) : ManagerInput → Option LostReason
  | .tick now _ sends =>
    (w.lifelines id).bind fun l => l.verdict now (attempt m now sends id)
  | .recvError kind _ => if w.condemns kind then (w.lifelines id).map fun _ => .io else none
  | _ => none

end LossWatch

/-- The manager under observation. -/
structure ObservedManager where
  manager : Manager
  watch : LossWatch

namespace ObservedManager

def start : ObservedManager := ⟨.start, .start⟩

/-- A step; a task that left its loop is no longer observed. -/
def step (s : ObservedManager) (input : ManagerInput) : ObservedManager :=
  let (m, effects) := s.manager.step input
  ⟨m, if s.manager.running then s.watch.note s.manager effects input else s.watch⟩

def run (inputs : List ManagerInput) : ObservedManager := runSteps step start inputs

end ObservedManager

/-- The contract of a run of the manager. -/
structure LossContract (inputs : List ManagerInput) : Prop where
  /-- The notes are on the registered connections. -/
  noted : ∀ (before after : List ManagerInput) (id : UInt32), inputs = before ++ after →
    ((ObservedManager.run before).manager.registry.conns.lookup id).isSome =
      ((ObservedManager.run before).watch.lifelines id).isSome
  /-- A step loses exactly the connections it owes a loss, for the reason it owes, and each of
  them once. -/
  lost : ∀ (before after : List ManagerInput) (input : ManagerInput) (id : UInt32),
    inputs = before ++ input :: after →
      lossesTo id ((ObservedManager.run before).manager.step input).2 =
        ((ObservedManager.run before).watch.owed (ObservedManager.run before).manager id
          input).toList
  /-- No connection that a tick leaves is overdue, or has a dead path. -/
  fresh : ∀ (before after : List ManagerInput) (now : Instant) (order : List UInt32)
    (sends : UInt32 → Except ErrorKind Unit) (id : UInt32) (l : Lifeline),
    inputs = before ++ .tick now order sends :: after →
    (ObservedManager.run (before ++ [.tick now order sends])).watch.lifelines id = some l →
      now < l.deadline ∧ l.failures < maxConsecutiveSendErrors
  /-- For a connection as an accepted reply opens it, the window is the multiple of the packet
  interval that was asked for. -/
  window : ∀ (before after : List ManagerInput) (id : UInt32) (l : Lifeline),
    inputs = before ++ after → (ObservedManager.run before).watch.lifelines id = some l →
    l.params.t2oApi ≤ maxReplyApi → l.params.timeoutMultiplier ≤ 512 →
    l.fed + maxReplyApi * 512 < Instant.limit →
      l.deadline = l.fed + l.params.t2oApi * l.params.timeoutMultiplier

end EnipAdapter.Interface
