import EnipAdapter.Model.IoMeters

/-!
# What the stack totals promise

Every connection leaves the final value of each of its stack counters in the totals, and tells
once of a redirect that was refused. The totals hold what the last metrics tick of a connection
folded; a connection is settled when that is all there was.
-/

set_option autoImplicit false

namespace EnipAdapter.Interface

open EnipAdapter.Model

/-- The stack counters that are folded into totals. -/
inductive StackCounter where
  | framesProduced
  | staleFramesDropped
  | sizeMismatchDropped
  | malformedFrames
  | produceOverruns
  | sendErrors
  | recvErrors
  | sourceMismatchDatagrams
  | refusedRedirects
deriving DecidableEq, Repr

/-- The counter in a snapshot of the stack. -/
def inStack (s : IoLinkStats) : StackCounter → ℕ
  | .framesProduced => s.framesProduced
  | .staleFramesDropped => s.staleFrames
  | .sizeMismatchDropped => s.sizeMismatch
  | .malformedFrames => s.malformedFrames
  | .produceOverruns => s.produceOverruns
  | .sendErrors => s.sendErrors
  | .recvErrors => s.recvErrors
  | .sourceMismatchDatagrams => s.sourceMismatchDatagrams
  | .refusedRedirects => s.refusedRedirects

/-- The total of the counter. -/
def totalOf (io : IoLinkCounters) : StackCounter → ℕ
  | .framesProduced => io.framesProduced.total
  | .staleFramesDropped => io.staleFramesDropped.total
  | .sizeMismatchDropped => io.sizeMismatchDropped.total
  | .malformedFrames => io.malformedFrames.total
  | .produceOverruns => io.produceOverruns.total
  | .sendErrors => io.sendErrors.total
  | .recvErrors => io.recvErrors.total
  | .sourceMismatchDatagrams => io.sourceMismatchDatagrams.total
  | .refusedRedirects => io.refusedRedirects.total

/-- The stack only counts up from where it stands, and refuses a redirect at most once. -/
def CountsUp : IoLinkStats → List MeterStep → Prop
  | _, [] => True
  | stack, .counted stats :: steps =>
    (∀ c, inStack stack c ≤ inStack stats c) ∧ stats.refusedRedirects ≤ 1 ∧ CountsUp stats steps
  | stack, _ :: steps => CountsUp stack steps

/-- A connection as the stack counts it, from zero. -/
def CountsFromZero (c : MeteredConnection) : Prop := CountsUp {} c.steps

/-- The stack's counters at the end of some steps. -/
def stackAfter : IoLinkStats → List MeterStep → IoLinkStats
  | stack, [] => stack
  | _, .counted stats :: steps => stackAfter stats steps
  | stack, _ :: steps => stackAfter stack steps

/-- The final values of a connection's stack counters. -/
def finalStats (c : MeteredConnection) : IoLinkStats := stackAfter {} c.steps

/-- The snapshot the last tick among some steps folds; `folded` when there is none. -/
def lastFolded (stack shared folded : IoLinkStats) : List MeterStep → IoLinkStats
  | [] => folded
  | .counted stats :: steps => lastFolded stats shared folded steps
  | .refreshed :: steps => lastFolded stack stack folded steps
  | .tick :: steps => lastFolded stack shared shared steps

/-- The last tick of the connection folds the final value of every counter: no counter grows
after the last snapshot that a tick sees. -/
def FoldedFinal (c : MeteredConnection) : Prop :=
  ∀ counter, inStack (lastFolded {} {} {} c.steps) counter = inStack (finalStats c) counter

/-- The totals have grown by the final values of the connections, and each connection has told
once of its refused redirect. -/
def NothingLost (before : IoLinkCounters) (cs : List MeteredConnection)
    (after : IoLinkCounters × List (List ℕ)) : Prop :=
  (∀ counter, totalOf after.1 counter =
    totalOf before counter + (cs.map fun c => inStack (finalStats c) counter).sum) ∧
  after.2.map List.length =
    cs.map fun c => if 0 < (finalStats c).refusedRedirects then 1 else 0

end EnipAdapter.Interface
