import EnipAdapter.Model.EventQueue

/-!
# A queue that prefers the latest sample

The history of an event queue under any sequence of pushes and pops, with the receiver dropped
at any point: what was pushed, what of it while the receiver was there, what was popped, and how
many pushes evicted a sample.
-/

set_option autoImplicit false

namespace EnipAdapter.Interface

open EnipAdapter.Model

inductive QueueOp where
  | push (ev : IoEvent)
  | pop
  | closeReceiver

structure QueueHistory where
  queue : EventQueueState
  pushed : List IoEvent := []
  /-- What was pushed before the receiver was dropped. -/
  offered : List IoEvent := []
  popped : List IoEvent := []
  evictions : ℕ := 0

namespace QueueHistory

def start (capacity : ℕ) : QueueHistory := { queue := .new capacity }

def step (h : QueueHistory) : QueueOp → QueueHistory
  | .push ev =>
    let pushed := h.queue.pushLatestWins ev
    { h with
      queue := pushed.1
      pushed := h.pushed ++ [ev]
      offered := if h.queue.rxClosed then h.offered else h.offered ++ [ev]
      evictions := if pushed.2 = .evictedOldest then h.evictions + 1 else h.evictions }
  | .pop =>
    match h.queue.pop with
    | none => h
    | some (ev, rest) => { h with queue := rest, popped := h.popped ++ [ev] }
  | .closeReceiver => { h with queue := h.queue.closeReceiver }

def run (capacity : ℕ) (ops : List QueueOp) : QueueHistory := ops.foldl step (start capacity)

/-- The events that came through or may still do so, in order. -/
def surviving (h : QueueHistory) : List IoEvent := h.popped ++ h.queue.deque

end QueueHistory

/-- The push removes the oldest sample that is queued, and nothing else, and queues the new one. -/
def EvictsOldest (q : EventQueueState) (ev : IoEvent) : Prop :=
  ∃ before oldest behind, q.deque = before ++ oldest :: behind ∧ oldest.isData = true ∧
    (∀ e ∈ before, e.isData = false) ∧ (q.pushLatestWins ev).1.deque = before ++ behind ++ [ev]

/-- What a queue of the given capacity owes its users, whatever has been done to it. -/
structure LatestWins (capacity : ℕ) (h : QueueHistory) : Prop where
  census : h.queue.dataLen = h.queue.deque.countP IoEvent.isData
  bounded : h.queue.dataLen ≤ max capacity 1
  /-- No `Up` or `Lost` that was offered is missing. -/
  controls_kept : h.surviving.filter (fun ev => !ev.isData) =
    h.offered.filter (fun ev => !ev.isData)
  in_order : h.surviving.Sublist h.pushed
  accounted : h.offered.countP IoEvent.isData =
    h.popped.countP IoEvent.isData + h.queue.deque.countP IoEvent.isData + h.evictions
  evicts_oldest : ∀ ev, (h.queue.pushLatestWins ev).2 = .evictedOldest → EvictsOldest h.queue ev

end EnipAdapter.Interface
