import EnipAdapter.Model.Logix

/-!
# Connected class-3 messaging

A class-3 connection as its client uses it (`client/connected.rs`): every request takes the next
sequence count, a reply is the answer only if it echoes that count and carries our connection
identifier, and the clock of the last completed exchange (`client/keepalive.rs`) moves with every
reply frame, accepted or not.
-/

set_option autoImplicit false

namespace EnipAdapter.Model

/-! ## The activity clock -/

/-- The last completed exchange, in nanoseconds since the connection opened. -/
structure ActivityTracker where
  base : Instant
  lastNanos : ℕ
deriving DecidableEq, Repr

namespace ActivityTracker

def new (now : Instant) : ActivityTracker := ⟨now, 0⟩

/-- `fetch_max`: an older completion never drags the clock back. -/
def touch (t : ActivityTracker) (now : Instant) : ActivityTracker :=
  { t with lastNanos := max t.lastNanos (min (now - t.base) (2 ^ 64 - 1)) }

/-- The instant of the last completed exchange. -/
def last (t : ActivityTracker) : Instant := (Instant.checkedAdd t.base t.lastNanos).getD t.base

end ActivityTracker

/-! ## The connection -/

/-- The connection after one more request took its sequence count. A count of 0 is taken and
passed over, so the counter ends on the count that was handed out. -/
def ConnectedState.advance (conn : ConnectedState) : ConnectedState :=
  { conn with sequence := conn.nextSequence }

/-- The connected items of a reply frame: the address, the sequence count, and the Message
Router reply behind it. -/
def connectedReplyItems (frame : EncapFrame) : Except EnipError (UInt32 × UInt16 × Bytes) := do
  if ¬ frame.header.status.isOk then .error (.encap frame.header.status)
  else
    let r := WireReader.withContext frame.data "sendunitdata reply"
    let (interfaceHandle, r) ← liftWire r.u32
    if interfaceHandle ≠ 0 then
      .error (.protocolViolation "non-zero interface handle in SendUnitData reply")
    else
      let (_, r) ← liftWire r.u16
      let cpf ← liftWire (Cpf.decode r.takeRest.1)
      match cpf.find .connectedAddress with
      | none => .error (.protocolViolation "connected reply missing connected-address item")
      | some addrItem =>
          match cpf.find .connectedData with
          | none => .error (.protocolViolation "connected reply missing connected-data item")
          | some dataItem =>
              let (addr, _) ←
                liftWire (WireReader.withContext addrItem.data "connected address").u32
              let (seq, dr) ←
                liftWire (WireReader.withContext dataItem.data "connected data").u16
              pure (addr, seq, dr.takeRest.1)

/-- A reply that is not the answer to the outstanding request. -/
def sequenceMismatch : EnipError :=
  .protocolViolation "connected-data sequence/connection-id mismatch"

/-- `parse_connected_reply`: the reply, and whether the frame was discarded and counted. -/
def parseConnectedReply (frame : EncapFrame) (expectedSeq : UInt16) (expectedAddr : UInt32) :
    Except EnipError MessageReply × Bool :=
  match connectedReplyItems frame with
  | .error e => (.error e, false)
  | .ok (addr, seq, mrBytes) =>
      if seq ≠ expectedSeq ∨ addr ≠ expectedAddr then (.error sequenceMismatch, true)
      else (liftWire (MessageReply.decode mrBytes), false)

/-! ## Sending -/

/-- A class-3 client: its connection, the clock of its exchanges, and its counters. -/
structure Class3Client where
  conn : ConnectedState
  activity : ActivityTracker
  connectedSeqMismatches : ℕ := 0
deriving DecidableEq, Repr

/-- One call of `send_connected`: the request, how its transaction ends, and when. -/
structure ConnectedSend where
  request : MessageRequest
  answer : Except EnipError EncapFrame
  completedAt : Instant

/-- What a call did: the count it took, the payload it put on the wire, and its result. -/
structure ConnectedOutcome where
  sequence : UInt16
  issued : Option Bytes
  result : Except EnipError MessageReply
  discarded : Bool

namespace Class3Client

/-- A client whose connection opened at `now`. -/
def opened (conn : ConnectedState) (now : Instant) : Class3Client :=
  { conn := conn, activity := ActivityTracker.new now }

/-- `send_connected`. A request that does not encode has taken its count; a transaction that
failed leaves the activity clock alone. -/
def sendConnected (c : Class3Client) (s : ConnectedSend) : Class3Client × ConnectedOutcome :=
  let seq := c.conn.nextSequence
  let issued := connectedRequestPayload c.conn s.request
  let c := { c with conn := c.conn.advance }
  match issued with
  | .error e => (c, ⟨seq, none, .error e, false⟩)
  | .ok payload =>
      match s.answer with
      | .error e => (c, ⟨seq, some payload, .error e, false⟩)
      | .ok frame =>
          let (result, discarded) := parseConnectedReply frame seq c.conn.tOConnectionId
          ({ c with
              activity := c.activity.touch s.completedAt
              connectedSeqMismatches :=
                c.connectedSeqMismatches + if discarded then 1 else 0 },
            ⟨seq, some payload, result, discarded⟩)

/-- A list of calls, in the order in which they took their counts. Calls of several handles meet
only in the counter, the clock and the tally, and the last two do not depend on the order. -/
def sendAll (c : Class3Client) : List ConnectedSend → Class3Client × List ConnectedOutcome
  | [] => (c, [])
  | s :: rest =>
      let (c, outcome) := c.sendConnected s
      let (c, outcomes) := sendAll c rest
      (c, outcome :: outcomes)

end Class3Client

end EnipAdapter.Model
