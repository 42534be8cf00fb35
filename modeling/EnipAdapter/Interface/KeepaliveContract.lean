import EnipAdapter.Foundation.Runs
import EnipAdapter.Model.Connected
import EnipAdapter.Model.Keepalive

/-!
# What the keepalive is for

The client sees its requests complete, the target sees them arrive, and the watchdog runs on the
target's side. A `WatchedConnection` is the keepalive task next to what the target sees, on one
clock; an event of it is an input of the task together with the arrival of the request it
concerns. What the surroundings owe the task (a request is settled within a bound, a timer fires
within a slack) is a condition on the events.
-/

set_option autoImplicit false

namespace EnipAdapter.Interface

open EnipAdapter.Model

/-!
## What connected messaging promises

A class-3 connection carries one request after the other, and a reply may come late: when its own
request was given up, it meets a later one. The contract says that such a reply is never taken
for the answer, and what makes that so: the counts two requests carry differ as long as fewer
than 65535 requests lie between them.
-/

/-- A frame that is a reply to the request that carried the count `seq` on our connection. -/
def RepliesTo (frame : EncapFrame) (seq : UInt16) (addr : UInt32) : Prop :=
  ∃ mrBytes, connectedReplyItems frame = .ok (addr, seq, mrBytes)

/-- The contract of a list of calls on the connection `conn`. -/
structure ConnectedContract (conn : ConnectedState) (sends : List ConnectedSend)
    (final : Class3Client) (outcomes : List ConnectedOutcome) : Prop where
  /-- Every call has its outcome. -/
  length : outcomes.length = sends.length
  /-- No request carries the count 0, and two requests that carry the same one lie at least
  65535 requests apart. -/
  counts : ∀ (i : ℕ) (o : ConnectedOutcome), outcomes[i]? = some o → o.sequence ≠ 0 ∧
    ∀ (j : ℕ) (o' : ConnectedOutcome), outcomes[j]? = some o' → i < j → j < i + 65535 →
      o'.sequence ≠ o.sequence
  /-- A target that reads a request off the wire finds the connection it assigned, the count
  of the request, and the request itself. -/
  carried : ∀ (i : ℕ) (s : ConnectedSend) (o : ConnectedOutcome) (payload : Bytes)
    (header : EncapHeader), sends[i]? = some s → outcomes[i]? = some o →
    o.issued = some payload → header.status.isOk = true →
    ∃ mrBytes, s.request.encode = .ok mrBytes ∧
      connectedReplyItems ⟨header, payload⟩ = .ok (conn.oTConnectionId, o.sequence, mrBytes)
  /-- What a caller is handed is the reply to its own request. -/
  own : ∀ (i : ℕ) (s : ConnectedSend) (o : ConnectedOutcome) (reply : MessageReply),
    sends[i]? = some s → outcomes[i]? = some o → o.result = .ok reply →
    ∃ frame mrBytes, s.answer = .ok frame ∧ MessageReply.decode mrBytes = .ok reply ∧
      connectedReplyItems frame = .ok (conn.tOConnectionId, o.sequence, mrBytes)
  /-- A reply to one of the last 65534 requests is discarded and counted when it meets another. -/
  late : ∀ (k i : ℕ) (s : ConnectedSend) (o o' : ConnectedOutcome) (frame : EncapFrame),
    k < i → i < k + 65535 → outcomes[k]? = some o' → sends[i]? = some s →
    outcomes[i]? = some o → o.issued.isSome = true → s.answer = .ok frame →
    RepliesTo frame o'.sequence conn.tOConnectionId →
      o.discarded = true ∧ o.result = .error sequenceMismatch
  /-- Exactly the discarded replies are counted. -/
  tallied : final.connectedSeqMismatches = (outcomes.filter ConnectedOutcome.discarded).length

/-! ## The keepalive and the watchdog -/

/-- The quiet time after which a probe is due. -/
def quietTime (window : Duration) : Duration := window * keepaliveNum / keepaliveDen

/-- The keepalive task and the target's watchdog. -/
structure WatchedConnection where
  task : KeepaliveTask
  now : Instant
  /-- When the task last went to sleep or started a probe. -/
  since : Instant
  /-- The last request the target saw. -/
  lastArrival : Instant
  /-- Probes in a row without an answer. -/
  misses : ℕ
  /-- The target's watchdog has run out. -/
  expired : Bool

/-- An input of the task, and when the request it concerns arrived at the target, if it did. -/
structure LinkEvent where
  input : KeepaliveInput
  arrived : Option Instant

namespace LinkEvent

/-- When the event happens; letting go of a handle takes no time. -/
def time (now : Instant) (e : LinkEvent) : Instant :=
  match e.input with
  | .exchanged send => send.completedAt
  | .released => now
  | .woke at_ => at_
  | .probed _ at_ => at_

/-- How the transaction ended that the event settles. -/
def answer (e : LinkEvent) : Option (Except EnipError EncapFrame) :=
  match e.input with
  | .exchanged send => some send.answer
  | .probed answer _ => some answer
  | .released | .woke _ => none

/-- A reply frame came. -/
def answered (e : LinkEvent) : Bool := e.answer.any Except.isOk

def isProbe (e : LinkEvent) : Bool :=
  match e.input with
  | .probed _ _ => true
  | .exchanged _ | .released | .woke _ => false

/-- The task starts anew to sleep or to probe. -/
def turns (e : LinkEvent) : Bool :=
  match e.input with
  | .woke _ | .probed _ _ => true
  | .exchanged _ | .released => false

end LinkEvent

namespace WatchedConnection

def window (w : WatchedConnection) : Duration := w.task.window

/-- The last exchange the client saw completed. -/
def lastActivity (w : WatchedConnection) : Instant := w.task.client.activity.last

/-- A connection that has just opened; its ForwardOpen arrived at `arrival`. -/
def opened (conn : ConnectedState) (now arrival : Instant) : WatchedConnection where
  task := KeepaliveTask.spawn (Class3Client.opened conn now) now
  now := now
  since := now
  lastArrival := arrival
  misses := 0
  expired := false

def step (w : WatchedConnection) (e : LinkEvent) : WatchedConnection where
  task := w.task.step e.input
  now := e.time w.now
  since := if e.turns then e.time w.now else w.since
  lastArrival := e.arrived.elim w.lastArrival (max w.lastArrival)
  misses := if e.answered then 0 else if e.isProbe then w.misses + 1 else w.misses
  expired := w.expired || e.arrived.any (w.lastArrival + w.window ≤ ·)

/-- The clock of a connection that opened at `base`: it does not run back, and it stays within
what the activity clock can hold. -/
def Clocked (base : Instant) (w : WatchedConnection) (e : LinkEvent) : Prop :=
  w.now ≤ e.time w.now ∧ e.time w.now < base + 2 ^ 64

/-- Only a request that was sent is answered, a transaction fails of the transport (the session
actor's replies are no CIP errors, `transact_transport`), and only a probe that was started
ends. -/
def Sound (w : WatchedConnection) (e : LinkEvent) : Prop :=
  (∀ send, e.input = .exchanged send → send.answer.isOk = true →
    ∃ payload, connectedRequestPayload w.task.client.conn send.request = .ok payload) ∧
  (∀ status, e.answer ≠ some (.error (.cip status))) ∧
  (e.isProbe = true → w.task.phase = .probing)

/-- The task is served in time: a sleep ends within `slack` of its wake-up, a probe within `latency`
of its start (no event comes later while it is under way), a transaction is settled within
`latency` of the request's arrival, and of probes without an answer there are fewer than `limit` in
a row. -/
def Timely (latency slack : Duration) (limit : ℕ) (w : WatchedConnection) (e : LinkEvent) :
    Prop :=
  (∀ wake, w.task.phase = .sleeping wake → e.time w.now ≤ max wake w.since + slack) ∧
  (w.task.phase = .probing →
    (∀ at_, e.input ≠ .woke at_) ∧ e.time w.now ≤ w.since + latency) ∧
  (∀ arrival, e.arrived = some arrival →
    arrival ≤ e.time w.now ∧ e.time w.now ≤ arrival + latency) ∧
  (e.answered = true → e.arrived.isSome = true) ∧
  (e.isProbe = true → e.answered = false → w.misses + 1 < limit)

/-- The window leaves room for the quiet time, for the lag between the target's clock and the
client's, and for every probe that may go unanswered. -/
def RoomFor (window latency slack : Duration) (limit : ℕ) : Prop :=
  latency + quietTime window + limit * (latency + slack) < window

end WatchedConnection

end EnipAdapter.Interface
