import EnipAdapter.Model.IoConnection

/-!
# The event queue of a connection

The queue between the I/O manager and the consumer of a class-1 connection (`io.rs`). Its bound
counts samples only: at the bound the oldest sample makes room for the new one, and an `Up` or a
`Lost` always finds its place.
-/

set_option autoImplicit false

namespace EnipAdapter.Model

structure EventQueueState where
  deque : List IoEvent := []
  capacity : ℕ
  /-- How many samples are queued. -/
  dataLen : ℕ := 0
  txClosed : Bool := false
  rxClosed : Bool := false
deriving DecidableEq, Repr

namespace EventQueueState

/-- A new queue; a capacity of zero is one. -/
def new (capacity : ℕ) : EventQueueState := { capacity := max capacity 1 }

/-- The oldest event, and the queue without it. -/
def pop (q : EventQueueState) : Option (IoEvent × EventQueueState) :=
  match q.deque with
  | [] => none
  | ev :: rest =>
    some (ev, { q with deque := rest, dataLen := if ev.isData then q.dataLen - 1 else q.dataLen })

inductive PushOutcome where
  | queued
  | evictedOldest
  | receiverGone
deriving DecidableEq, Repr

/-- Push one event, the latest sample winning. -/
def pushLatestWins (q : EventQueueState) (ev : IoEvent) : EventQueueState × PushOutcome :=
  if q.rxClosed then (q, .receiverGone)
  else if ev.isData = false then ({ q with deque := q.deque ++ [ev] }, .queued)
  else if q.dataLen ≥ q.capacity ∧ q.deque.any IoEvent.isData then
    ({ q with
        deque := q.deque.eraseP IoEvent.isData ++ [ev]
        dataLen := q.dataLen - 1 + 1 },
      .evictedOldest)
  else ({ q with deque := q.deque ++ [ev], dataLen := q.dataLen + 1 }, .queued)

/-- The sender is dropped: what is queued is the rest of the stream. -/
def closeSender (q : EventQueueState) : EventQueueState := { q with txClosed := true }

/-- The receiver is dropped: nothing is queued any more. -/
def closeReceiver (q : EventQueueState) : EventQueueState := { q with rxClosed := true }

end EventQueueState

end EnipAdapter.Model
