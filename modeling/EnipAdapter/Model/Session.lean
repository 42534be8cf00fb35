import EnipAdapter.Model.Error
import EnipAdapter.Model.Time

/-!
# The session actor

One task per client owns the byte stream and runs one request/reply transaction at a time
(`client/session.rs`). The peer, the clock and the callers are the environment: the stream
is the list of what its reads will yield, what the dequeue finds and what the write does
are given per transaction, and every theorem quantifies over all of them.

`SessionActor.transact` follows the source line by line and additionally returns what it
did with every frame the codec surfaced (`ReplyFate`), so that a whole run can be accounted
for frame by frame.
-/

set_option autoImplicit false

namespace EnipAdapter.Model

/-- The peer-driven counters of a session that `transact` touches. -/
structure SessionStats where
  staleReplies : ℕ := 0
  timeouts : ℕ := 0
  discardedOptions : ℕ := 0
deriving DecidableEq, Repr

/-- A request/reply transaction for the actor to run. -/
structure Transaction where
  command : Command
  data : Bytes
  /-- The absolute per-request deadline. -/
  deadline : Instant
deriving DecidableEq, Repr

/-- What one bounded `read_buf` yields: a chunk (`Ok(0)`, the empty chunk, is end of
stream), a socket error, or the deadline. -/
inductive ReadEvent where
  | bytes (chunk : Bytes)
  | error (kind : ErrorKind)
  | elapsed
deriving DecidableEq, Repr

/-- What the bounded `write_all` + `flush` of the request yields. -/
inductive WriteEvent where
  | written
  | error (kind : ErrorKind)
  | elapsed
deriving DecidableEq, Repr

/-- Everything the environment decides about one transaction. -/
structure TransactScript where
  /-- The clock at dequeue. -/
  now : Instant
  /-- Whether the caller had dropped its receiver at dequeue. -/
  replyClosed : Bool
  write : WriteEvent
deriving DecidableEq, Repr

/-- The bytes a list of reads delivers. -/
def received : List ReadEvent → Bytes
  | [] => []
  | .bytes chunk :: evs => chunk ++ received evs
  | .error _ :: evs => received evs
  | .elapsed :: evs => received evs

/-- The outcome of one bounded read attempt. `pending` is the model's own: the reads given
ran out while the actor was still waiting. -/
inductive ReadOutcome where
  | frame (f : EncapFrame)
  | eof
  | timedOut
  | broken (e : EnipError)
  | pending
deriving DecidableEq, Repr

/-- What the outstanding request requires of a reply header. -/
structure ReplyExpectation where
  command : Command
  sessionHandle : UInt32
  context : Bytes
deriving DecidableEq, Repr

/-- The verdict on one received reply header. -/
inductive ReplyMatch where
  | match_
  | staleContext
  | headerMismatch (field : String)
deriving DecidableEq, Repr

/-- Whether `command` may be answered without our session handle. -/
def sessionHandleExempt : Command → Bool
  | .listIdentity | .listServices | .listInterfaces => true
  | _ => false

/-- Match a received reply header against the outstanding request: the context first, then
the command echo, then the session handle unless the command is exempt. -/
def matchReply (expected : ReplyExpectation) (header : EncapHeader) : ReplyMatch :=
  if header.senderContext ≠ expected.context then .staleContext
  else if header.command ≠ expected.command then .headerMismatch "command"
  else if ¬ sessionHandleExempt expected.command ∧
      header.sessionHandle ≠ expected.sessionHandle then
    .headerMismatch "session handle"
  else .match_

inductive Preflight where
  | run
  | expired
  | abandoned
deriving DecidableEq, Repr

/-- Triage a transaction at dequeue time; `abandoned` wins over `expired`. -/
def preflight (deadline : Instant) (replyClosed : Bool) (now : Instant) : Preflight :=
  if replyClosed then .abandoned
  else if deadline ≤ now then .expired
  else .run

/-- `EncapCodec::decode_eof`, in the terms of `read_outcome`. -/
def decodeEof (buf : Bytes) : ReadOutcome × Bytes :=
  match EncapCodec.decode buf with
  | (.ok (some frame), rest) => (.frame frame, rest)
  | (.ok none, rest) =>
      if rest = [] then (.eof, rest)
      else (.broken (.connectionLost "encap frame truncated at eof"), rest)
  | (.error e, rest) => (.broken (.malformed e), rest)

/-- Read one frame, decoding from the persistent buffer first. Returns the outcome, the
buffer and the reads not yet performed. -/
def readOutcome : List ReadEvent → Bytes → ReadOutcome × Bytes × List ReadEvent
  | [], buf =>
      match EncapCodec.decode buf with
      | (.ok (some frame), rest) => (.frame frame, rest, [])
      | (.ok none, rest) => (.pending, rest, [])
      | (.error e, rest) => (.broken (.malformed e), rest, [])
  | ev :: evs, buf =>
      match EncapCodec.decode buf with
      | (.ok (some frame), rest) => (.frame frame, rest, ev :: evs)
      | (.error e, rest) => (.broken (.malformed e), rest, ev :: evs)
      | (.ok none, rest) =>
          match ev with
          | .bytes [] =>
              let (outcome, rest) := decodeEof rest
              (outcome, rest, evs)
          | .bytes chunk => readOutcome evs (rest ++ chunk)
          | .error kind => (.broken (.io kind), rest, evs)
          | .elapsed => (.timedOut, rest, evs)

/-- The session actor's state. The stream is what its reads will yield, in order. -/
structure SessionActor where
  stream : List ReadEvent
  buf : Bytes
  sessionHandle : UInt32
  nextContext : UInt64
  consecutiveTimeouts : UInt32
  maxConsecutiveTimeouts : UInt32
  stats : SessionStats
deriving DecidableEq, Repr

/-- What became of one frame the codec surfaced. -/
inductive ReplyFate where
  /-- Handed to the caller as `Ok`. -/
  | delivered
  /-- Counted in `stale_replies`. -/
  | stale
  /-- Counted in `discarded_options`. -/
  | badOptions
  /-- A matching `InvalidSessionHandle` reply: its caller gets `Err(Encap)`, the actor dies. -/
  | poison
deriving DecidableEq, Repr

/-- Whether the actor survives a transaction. `waiting` is a transaction whose reads ended
before a verdict. -/
inductive Liveness where
  | alive
  | dead
  | waiting
deriving DecidableEq, Repr

structure TransactOutcome where
  /-- The correlation context issued for it, if one was. -/
  context : Option Bytes
  /-- The frames the codec surfaced during it, each with its fate. -/
  reads : List (EncapFrame × ReplyFate)
  /-- What was sent on the caller's reply channel; `none` when nothing was. -/
  reply : Option (Except EnipError EncapFrame)
  liveness : Liveness

namespace SessionActor

/-- `spawn_session`: the actor over an already registered stream. -/
def spawn (stream : List ReadEvent) (leftover : Bytes) (sessionHandle : UInt32)
    (maxConsecutiveTimeouts : UInt32) : SessionActor where
  stream := stream
  buf := leftover
  sessionHandle := sessionHandle
  nextContext := 0
  consecutiveTimeouts := 0
  maxConsecutiveTimeouts := max maxConsecutiveTimeouts 1
  stats := {}

/-- The actor after issuing a correlation context: the counter advances with wrap-around. -/
def advanceContext (a : SessionActor) : SessionActor :=
  { a with nextContext := a.nextContext + 1 }

/-- The eight bytes of the context last issued. -/
def currentContext (a : SessionActor) : Bytes := putU64 a.nextContext

/-- The end of a transaction whose reply read failed for good. -/
def sever (a : SessionActor) (reads : List (EncapFrame × ReplyFate)) (e : EnipError) :
    SessionActor × TransactOutcome :=
  (a, ⟨some a.currentContext, reads, some (.error e), .dead⟩)

/-- A read that hit the deadline: one more consecutive timeout, fatal at the limit. -/
def readTimedOut (a : SessionActor) (reads : List (EncapFrame × ReplyFate)) :
    SessionActor × TransactOutcome :=
  let a := { a with
    stats := { a.stats with timeouts := a.stats.timeouts + 1 }
    consecutiveTimeouts :=
      if a.consecutiveTimeouts.toNat + 1 < 2 ^ 32 then a.consecutiveTimeouts + 1
      else a.consecutiveTimeouts }
  if a.consecutiveTimeouts ≥ a.maxConsecutiveTimeouts then
    a.sever reads (.connectionLost "consecutive request timeouts")
  else
    (a, ⟨some a.currentContext, reads, some (.error (.timeout "request")), .alive⟩)

/-- Count a discarded reply as stale. -/
def countStale (a : SessionActor) : SessionActor :=
  { a with stats := { a.stats with staleReplies := a.stats.staleReplies + 1 } }

/-- Count a reply discarded for its options field. -/
def countOptions (a : SessionActor) : SessionActor :=
  { a with stats := { a.stats with discardedOptions := a.stats.discardedOptions + 1 } }

/-- What the reply loop does with one surfaced frame: its fate, and the actor after the
counters moved. A `delivered` or `poison` frame ends the loop. -/
def triageReply (a : SessionActor) (expected : ReplyExpectation) (reply : EncapFrame) :
    ReplyFate × SessionActor :=
  if reply.header.options ≠ 0 then (.badOptions, a.countOptions)
  else
    match matchReply expected reply.header with
    | .match_ =>
        let a := { a with consecutiveTimeouts := 0 }
        if reply.header.status.poisonsSession then (.poison, a) else (.delivered, a)
    | .staleContext => (.stale, a.countStale)
    | .headerMismatch _ => (.stale, a.countStale)

/-- The reply loop. `reads` are the frames already read by this transaction. The first
argument bounds the number of passes; every pass that goes round again has taken a frame
out of the bytes the actor can come to hold. -/
def replyLoop : ℕ → ReplyExpectation → List (EncapFrame × ReplyFate) → SessionActor →
    SessionActor × TransactOutcome
  | 0, _, reads, a => (a, ⟨some a.currentContext, reads, none, .waiting⟩)
  | fuel + 1, expected, reads, a =>
      let (outcome, buf, stream) := readOutcome a.stream a.buf
      let a := { a with buf := buf, stream := stream }
      match outcome with
      | .frame reply =>
          let (fate, a) := a.triageReply expected reply
          let reads := reads ++ [(reply, fate)]
          match fate with
          | .delivered => (a, ⟨some a.currentContext, reads, some (.ok reply), .alive⟩)
          | .poison => a.sever reads (.encap reply.header.status)
          | .stale | .badOptions => replyLoop fuel expected reads a
      | .eof => a.sever reads (.connectionLost "session eof")
      | .broken e => a.sever reads e
      | .timedOut => a.readTimedOut reads
      | .pending => (a, ⟨some a.currentContext, reads, none, .waiting⟩)

/-- The bytes the actor can come to hold: what is buffered and what the stream delivers. -/
def input (a : SessionActor) : Bytes := a.buf ++ received a.stream

def transact (a : SessionActor) (t : Transaction) (env : TransactScript) :
    SessionActor × TransactOutcome :=
  match preflight t.deadline env.replyClosed env.now with
  | .abandoned => (a, ⟨none, [], none, .alive⟩)
  | .expired =>
      ({ a with stats := { a.stats with timeouts := a.stats.timeouts + 1 } },
        ⟨none, [], some (.error (.timeout "request")), .alive⟩)
  | .run =>
      let a := a.advanceContext
      let header := EncapHeader.request t.command 0 a.sessionHandle a.currentContext
      match (EncapFrame.new header t.data).encode, env.write with
      | .error e, _ => a.sever [] (.malformed e)
      | .ok _, .error kind => a.sever [] (.io kind)
      | .ok _, .elapsed =>
          { a with stats := { a.stats with timeouts := a.stats.timeouts + 1 } }.sever []
            (.connectionLost "send deadline elapsed mid-frame")
      | .ok _, .written =>
          let expected : ReplyExpectation := ⟨t.command, a.sessionHandle, a.currentContext⟩
          replyLoop (a.input.length + 1) expected [] a

/-- The actor loop over a list of queued transactions: it stops at the first one that kills
it, or that is still waiting for a reply. -/
def run (a : SessionActor) :
    List (Transaction × TransactScript) → SessionActor × List TransactOutcome
  | [] => (a, [])
  | (t, env) :: rest =>
      let (a', outcome) := a.transact t env
      match outcome.liveness with
      | .alive =>
          let (final, outcomes) := run a' rest
          (final, outcome :: outcomes)
      | .dead | .waiting => (a', [outcome])

end SessionActor

end EnipAdapter.Model
