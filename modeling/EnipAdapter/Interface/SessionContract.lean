import EnipAdapter.Interface.FrameStream
import EnipAdapter.Model.Handshake
import EnipAdapter.Model.Session

/-!
# What a session promises its callers

The contract of a whole run of the session actor, in the terms a caller sees: which frame
may answer which transaction, that no frame of the stream answers twice, and where every
other frame went.
-/

set_option autoImplicit false

namespace EnipAdapter.Interface

open EnipAdapter.Model

/-!
## What opening a session promises

The handshake shares its stream with the session that follows. Its contract says which frame may
open a session, that the frame's place among the bytes and the way the bytes arrive do not
matter, and that nothing behind the frame is lost to the session or read by it twice.
-/

/-- A frame that answers our RegisterSession and assigns `handle`. -/
structure RegisterReply (f : EncapFrame) (handle : UInt32) : Prop where
  context : f.header.senderContext = registerContext
  command : f.header.command = .registerSession
  options : f.header.options = 0
  status : f.header.status.isOk = true
  assigned : f.header.sessionHandle = handle
  nonzero : handle ≠ 0
  /-- The whole body: the version this crate speaks, and no session option. -/
  body : f.data = putU16 protocolVersion ++ putU16 0

/-- The contract of the handshake on a stream of reads. -/
structure HandshakeContract (stream : List ReadEvent) (write : WriteEvent)
    (maxConsecutiveTimeouts : UInt32) : Prop where
  /-- A session is opened by the first frame the stream carries, which is a reply to our own
  request. The session starts with a clean record, and whatever it runs, the frames it reads are
  the ones that follow on the stream. -/
  opened : ∀ actor, connectOver stream write maxConsecutiveTimeouts = some (.ok actor) →
    ∃ f, RegisterReply f actor.sessionHandle ∧
      framesOf (received stream) = f :: framesOf actor.input ∧
      actor.stats = {} ∧ actor.consecutiveTimeouts = 0 ∧
      ∀ txns, f :: (actor.run txns).2.flatMap (fun o => o.reads.map Prod.fst) <+:
        framesOf (received stream)
  /-- Once the request is out and the bytes hold a whole frame, that frame decides, however it
  was cut into reads and whatever the stream does afterwards. -/
  decided : write = .written → ∀ (chunks : List Bytes) (later : List ReadEvent) (f : EncapFrame)
    (fs : List EncapFrame), stream = chunks.map ReadEvent.bytes ++ later →
    (∀ chunk ∈ chunks, chunk ≠ []) → framesOf chunks.flatten = f :: fs →
    ((∃ actor, connectOver stream write maxConsecutiveTimeouts = some (.ok actor)) ↔
      ∃ handle, RegisterReply f handle) ∧
    ((¬ ∃ handle, RegisterReply f handle) →
      ∃ e, connectOver stream write maxConsecutiveTimeouts = some (.error e))

/-! ## What a session promises over a run -/

/-- A reply header answers the transaction that issued `context`: options are 0, and the
context, the command and (unless the command is exempt) the session handle are echoed. -/
def Correlated (command : Command) (handle : UInt32) (context : Option Bytes)
    (h : EncapHeader) : Prop :=
  h.options = 0 ∧ context = some h.senderContext ∧ h.command = command ∧
    (sessionHandleExempt command = false → h.sessionHandle = handle)

/-- The frame a caller was handed as `Ok`, if any. -/
def deliveredFrame : Option (Except EnipError EncapFrame) → List EncapFrame
  | some (.ok f) => [f]
  | some (.error _) | none => []

/-- The frames of a list of reads that met a given fate. -/
def framesWithFate (fate : ReplyFate) (reads : List (EncapFrame × ReplyFate)) :
    List EncapFrame :=
  (reads.filter (fun p => p.2 = fate)).map Prod.fst

/-- One transaction's account of the frames it read. -/
structure TransactionSettled (command : Command) (handle : UInt32) (o : TransactOutcome) :
    Prop where
  /-- The frame delivered as `Ok` answers this transaction. -/
  correlated : ∀ f, o.reply = some (.ok f) → Correlated command handle o.context f.header
  /-- Exactly the frame handed to the caller has the fate `delivered`. -/
  delivered : framesWithFate .delivered o.reads = deliveredFrame o.reply
  /-- A frame that is neither delivered nor counted is a matching `InvalidSessionHandle`
  reply; its caller gets the status as an error and the actor is gone. -/
  poisoned : ∀ f, (f, ReplyFate.poison) ∈ o.reads →
    Correlated command handle o.context f.header ∧
      f.header.status = .invalidSessionHandle ∧
      o.reply = some (.error (.encap .invalidSessionHandle)) ∧ o.liveness = .dead

/-- The contract of a run over `txns` on a stream that carries `bytes`. -/
structure SessionContract (handle : UInt32) (bytes : Bytes)
    (txns : List (Transaction × TransactScript)) (final : SessionActor)
    (outcomes : List TransactOutcome) : Prop where
  /-- Every transaction run is settled by its own reply. -/
  settled : ∀ (i : ℕ) (t : Transaction) (env : TransactScript) (o : TransactOutcome),
    txns[i]? = some (t, env) → outcomes[i]? = some o → TransactionSettled t.command handle o
  /-- A context is issued for one transaction only. -/
  contexts : txns.length < 2 ^ 64 →
    ∀ (i j : ℕ) (o o' : TransactOutcome) (ctx : Bytes), i ≠ j → outcomes[i]? = some o →
      outcomes[j]? = some o' → o.context = some ctx → o'.context ≠ some ctx
  /-- The frames read, over all transactions, are a prefix of the frames the stream
  carries: no frame of the stream is read, hence delivered, twice. -/
  once : outcomes.flatMap (fun o => o.reads.map Prod.fst) <+: framesOf bytes
  /-- The stale counter counts the frames discarded as stale. -/
  stale : final.stats.staleReplies =
    (outcomes.flatMap (fun o => framesWithFate .stale o.reads)).length
  /-- The options counter counts the frames discarded for their options. -/
  options : final.stats.discardedOptions =
    (outcomes.flatMap (fun o => framesWithFate .badOptions o.reads)).length

/-!
## When a session is given up

A session actor outlives single timeouts and dies of too many in a row. What counts as "in a row"
is said here over the outcomes of a run, without the actor's own counter: requests that never
went out do not break the row and do not lengthen it, and an answer breaks it.
-/

/-- The request went out. -/
def wentOut (o : TransactOutcome) : Bool := o.context.isSome

/-- The request went out and its reply did not come by its deadline. -/
def struck (o : TransactOutcome) : Bool :=
  wentOut o &&
    match o.reply with
    | some (.error (.timeout _)) => true
    | some (.error (.connectionLost context)) => context == "consecutive request timeouts"
    | _ => false

/-- The caller was failed because its deadline had passed, in the queue, in the write or in the
wait for the reply. -/
def overdue (o : TransactOutcome) : Bool :=
  match o.reply with
  | some (.error (.timeout _)) => true
  | some (.error (.connectionLost context)) =>
      context == "consecutive request timeouts" || context == "send deadline elapsed mid-frame"
  | _ => false

/-- The unanswered requests at the end of a run, those that never went out not considered. -/
def strikes (outcomes : List TransactOutcome) : ℕ :=
  ((outcomes.filter wentOut).reverse.takeWhile struck).length

/-- The contract of a run of an actor that gives up after `limit` timeouts in a row. -/
structure LivenessContract (limit : ℕ) (final : SessionActor)
    (outcomes : List TransactOutcome) : Prop where
  /-- A timeout is the end of the session exactly when it is the `limit`-th in a row. -/
  fatal : ∀ (before after : List TransactOutcome) (o : TransactOutcome),
    outcomes = before ++ o :: after → struck o = true →
      (o.liveness = .dead ↔ limit ≤ strikes (before ++ [o]))
  /-- A request that never went out leaves the session alive. -/
  harmless : ∀ o ∈ outcomes, wentOut o = false → o.liveness = .alive
  /-- A dead session runs nothing more. -/
  last : ∀ (before after : List TransactOutcome) (o : TransactOutcome),
    outcomes = before ++ o :: after → o.liveness = .dead → after = []
  /-- The timeout counter counts the requests whose deadline had passed. -/
  counted : final.stats.timeouts = (outcomes.filter overdue).length

end EnipAdapter.Interface
