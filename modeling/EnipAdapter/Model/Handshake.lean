import EnipAdapter.Foundation.Refuse
import EnipAdapter.Model.Session

/-!
# Opening a session

The RegisterSession handshake of `EipClient::connect_over` (`client/mod.rs`), on the byte stream
the session actor will own: one frame written, one frame read, the reply checked field by field,
and the actor started over what the read left in the buffer.
-/

set_option autoImplicit false

namespace EnipAdapter.Model

open EnipAdapter.Foundation

/-- The encapsulation protocol version this crate speaks. -/
def protocolVersion : UInt16 := 1

/-- The correlation context of the RegisterSession request (`ECREGIST`). -/
def registerContext : Bytes := [0x45, 0x43, 0x52, 0x45, 0x47, 0x49, 0x53, 0x54]

/-- `send_frame_by`: write one frame by an absolute deadline. A write the deadline cut may have
left half a frame on the stream, so it is no mere timeout. -/
def sendFrameBy (frame : EncapFrame) : WriteEvent → Except EnipError Unit
  | .written => (liftWire frame.encode).map fun _ => ()
  | .error kind => do
      let _ ← liftWire frame.encode
      .error (.io kind)
  | .elapsed => do
      let _ ← liftWire frame.encode
      .error (.connectionLost "send deadline elapsed mid-frame")

/-- `recv_frame`: what one bounded read is to a handshake; `none` while it still waits. -/
def handshakeFrame (op : String) : ReadOutcome → Option (Except EnipError EncapFrame)
  | .frame f => some (.ok f)
  | .eof => some (.error (.connectionLost "eof during handshake"))
  | .timedOut => some (.error (.timeout op))
  | .broken e => some (.error e)
  | .pending => none

/-- The RegisterSession request: version and session options. -/
def registerRequest : EncapFrame :=
  EncapFrame.new (EncapHeader.request .registerSession 0 0 registerContext)
    (putU16 protocolVersion ++ putU16 0)

/-- The command-specific body of the reply, checked whole. -/
def checkRegisterBody (data : Bytes) : Except EnipError Unit :=
  match (WireReader.withContext data "register reply").u16 with
  | .error _ =>
      .error (.protocolViolation "register reply body ends before the protocol version")
  | .ok (version, r) =>
      if version ≠ protocolVersion then .error (.unsupported "encapsulation protocol version")
      else
        match r.u16 with
        | .error _ =>
            .error (.protocolViolation
              "register reply body ends before the session options word")
        | .ok (sessionOptions, r) =>
            if sessionOptions ≠ 0 then
              .error (.protocolViolation "register reply body carries non-zero session options")
            else
              match r.expectEnd with
              | .error _ =>
                  .error (.protocolViolation
                    "register reply body has trailing bytes after the 4-byte payload")
              | .ok () => .ok ()

/-- The reply's checks, in order, and the session handle it assigns. -/
def checkRegisterReply (reply : EncapFrame) : Except EnipError UInt32 := do
  refuse (reply.header.senderContext ≠ registerContext)
    (EnipError.protocolViolation "register reply context mismatch")
  refuse (reply.header.command ≠ .registerSession)
    (EnipError.protocolViolation "register reply command mismatch")
  refuse (reply.header.options ≠ 0)
    (EnipError.protocolViolation "register reply carries non-zero options")
  refuse (¬ reply.header.status.isOk) (EnipError.encap reply.header.status)
  refuse (reply.header.sessionHandle = 0)
    (EnipError.protocolViolation "register assigned session handle 0")
  checkRegisterBody reply.data
  pure reply.header.sessionHandle

/-- `EipClient::connect_over` up to the session it opens: the actor over the registered stream,
or why there is none. `none` while the reply is still awaited. -/
def connectOver (stream : List ReadEvent) (write : WriteEvent)
    (maxConsecutiveTimeouts : UInt32) : Option (Except EnipError SessionActor) :=
  match sendFrameBy registerRequest write with
  | .error e => some (.error e)
  | .ok () =>
      let (outcome, buf, rest) := readOutcome stream []
      (handshakeFrame "register" outcome).map fun reply => do
        let reply ← reply
        let handle ← checkRegisterReply reply
        pure (SessionActor.spawn rest buf handle maxConsecutiveTimeouts)

end EnipAdapter.Model
