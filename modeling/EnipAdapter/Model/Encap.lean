import EnipAdapter.Model.Wire

/-!
# The encapsulation layer

The 24-byte header, the command and status sets, whole frames, and the framing codec that
turns a byte stream into frames (`encap/mod.rs`, `encap/codec.rs`).

The codec is the stateful part: it works on the session's persistent read buffer, so what
it leaves behind matters as much as what it returns. `EncapCodec.decode` therefore returns
the buffer after the call next to the outcome.
-/

set_option autoImplicit false

namespace EnipAdapter.Model

def headerLen : ℕ := 24

/-- The maximum data length after the header: `u16::MAX - 24`. -/
def maxDataLen : ℕ := 65535 - headerLen

/-- An encapsulation command; an unrecognised code is `unknown`. -/
inductive Command where
  | nop
  | listServices
  | listIdentity
  | listInterfaces
  | registerSession
  | unRegisterSession
  | sendRRData
  | sendUnitData
  | unknown (code : UInt16)
deriving DecidableEq, Repr

namespace Command

def fromCode (code : UInt16) : Command :=
  if code = 0x0000 then .nop
  else if code = 0x0004 then .listServices
  else if code = 0x0063 then .listIdentity
  else if code = 0x0064 then .listInterfaces
  else if code = 0x0065 then .registerSession
  else if code = 0x0066 then .unRegisterSession
  else if code = 0x006F then .sendRRData
  else if code = 0x0070 then .sendUnitData
  else .unknown code

def code : Command → UInt16
  | .nop => 0x0000
  | .listServices => 0x0004
  | .listIdentity => 0x0063
  | .listInterfaces => 0x0064
  | .registerSession => 0x0065
  | .unRegisterSession => 0x0066
  | .sendRRData => 0x006F
  | .sendUnitData => 0x0070
  | .unknown v => v

end Command

/-- An encapsulation status; an unrecognised code is `unknown`. -/
inductive EncapStatus where
  | success
  | unsupportedCommand
  | insufficientMemory
  | incorrectData
  | invalidSessionHandle
  | invalidLength
  | unsupportedProtocolVersion
  | unknown (code : UInt32)
deriving DecidableEq, Repr

namespace EncapStatus

def fromCode (code : UInt32) : EncapStatus :=
  if code = 0x0000 then .success
  else if code = 0x0001 then .unsupportedCommand
  else if code = 0x0002 then .insufficientMemory
  else if code = 0x0003 then .incorrectData
  else if code = 0x0064 then .invalidSessionHandle
  else if code = 0x0065 then .invalidLength
  else if code = 0x0069 then .unsupportedProtocolVersion
  else .unknown code

def code : EncapStatus → UInt32
  | .success => 0x0000
  | .unsupportedCommand => 0x0001
  | .insufficientMemory => 0x0002
  | .incorrectData => 0x0003
  | .invalidSessionHandle => 0x0064
  | .invalidLength => 0x0065
  | .unsupportedProtocolVersion => 0x0069
  | .unknown v => v

def isOk : EncapStatus → Bool
  | .success => true
  | _ => false

/-- Whether the session handle is gone and the session must be re-established. -/
def poisonsSession : EncapStatus → Bool
  | .invalidSessionHandle => true
  | _ => false

end EncapStatus

structure EncapHeader where
  command : Command
  length : UInt16
  sessionHandle : UInt32
  status : EncapStatus
  /-- The eight-byte correlation key, echoed verbatim in the reply. -/
  senderContext : Bytes
  /-- Always 0; a received non-zero value is discarded. -/
  options : UInt32
deriving DecidableEq, Repr

namespace EncapHeader

/-- A request header: status and options are 0. -/
def request (command : Command) (dataLen : UInt16) (sessionHandle : UInt32)
    (senderContext : Bytes) : EncapHeader where
  command := command
  length := dataLen
  sessionHandle := sessionHandle
  status := .success
  senderContext := senderContext
  options := 0

/-- Decode the header from a cursor, leaving it at the data portion. -/
def decodeFrom (r : WireReader) : Except WireError (EncapHeader × WireReader) := do
  let r := r.at_ "encap header"
  let (command, r) ← r.u16
  let (length, r) ← r.u16
  let (sessionHandle, r) ← r.u32
  let (status, r) ← r.u32
  let (senderContext, r) ← r.take 8
  let (options, r) ← r.u32
  pure ({ command := Command.fromCode command, length := length,
          sessionHandle := sessionHandle, status := EncapStatus.fromCode status,
          senderContext := senderContext, options := options }, r)

def write (h : EncapHeader) : Bytes :=
  putU16 h.command.code ++ putU16 h.length ++ putU32 h.sessionHandle ++
    putU32 h.status.code ++ h.senderContext ++ putU32 h.options

end EncapHeader

/-- A whole encapsulation frame: the header and its data portion. -/
structure EncapFrame where
  header : EncapHeader
  data : Bytes
deriving DecidableEq, Repr

namespace EncapFrame

/-- A frame carrying `data`; the header's length is overwritten from the data
(`u16::try_from(..).unwrap_or(u16::MAX)`). -/
def new (header : EncapHeader) (data : Bytes) : EncapFrame where
  header := { header with length := UInt16.ofNat (min data.length 65535) }
  data := data

/-- Encode the whole frame; `overflow` when the length field cannot represent the data. -/
def encode (f : EncapFrame) : Except WireError Bytes :=
  if f.data.length > maxDataLen then .error (.overflow "encap frame")
  else .ok ({ f.header with length := UInt16.ofNat f.data.length }.write ++ f.data)

/-- Decode a whole frame: the header, then exactly `length` data bytes. -/
def decode (buf : Bytes) : Except WireError EncapFrame := do
  let r := WireReader.withContext buf "encap frame"
  let (header, r) ← EncapHeader.decodeFrom r
  let (data, r) ← r.take header.length.toNat
  r.expectEnd
  pure ⟨header, data⟩

end EncapFrame

/-! ## The framing codec -/

namespace EncapCodec

/-- What one pass over the head of the read buffer finds. -/
inductive Peek where
  /-- Not a whole frame yet. -/
  | incomplete
  /-- The head of the buffer is no frame; `consumed` bytes were already split off. -/
  | broken (e : WireError) (consumed : ℕ)
  /-- A whole frame, with the command its header was peeked to carry; `total` bytes of
  the buffer belong to it. -/
  | frame (command : Command) (frame : EncapFrame) (total : ℕ)
deriving DecidableEq, Repr

/-- The body of the codec's loop: read the command and the declared length off the header,
cap the length before anything is buffered, and parse the frame once it is complete. -/
def peek (src : Bytes) : Peek :=
  if src.length < headerLen then .incomplete
  else
    let header := do
      let r := WireReader.withContext (src.take headerLen) "encap header"
      let (command, r) ← r.u16
      let (length, _) ← r.u16
      pure (Command.fromCode command, length.toNat)
    match header with
    | .error e => .broken e 0
    | .ok (command, length) =>
        if length > maxDataLen then
          .broken (.malformed "encap codec" "declared length exceeds protocol maximum") 0
        else
          let total := headerLen + length
          if src.length < total then .incomplete
          else
            match EncapFrame.decode (src.take total) with
            | .error e => .broken e total
            | .ok frame => .frame command frame total

/-- The codec's loop: NOP frames are consumed and never surfaced. The first argument bounds
the number of passes; every pass that goes round again consumes at least a header. -/
def decodeLoop : ℕ → Bytes → Except WireError (Option EncapFrame) × Bytes
  | 0, src => (.ok none, src)
  | fuel + 1, src =>
      match peek src with
      | .incomplete => (.ok none, src)
      | .broken e consumed => (.error e, src.drop consumed)
      | .frame command frame total =>
          if command = .nop then decodeLoop fuel (src.drop total)
          else (.ok (some frame), src.drop total)

/-- `EncapCodec::decode`: the outcome, and the buffer it leaves behind. -/
def decode (src : Bytes) : Except WireError (Option EncapFrame) × Bytes :=
  decodeLoop src.length src

end EncapCodec

end EnipAdapter.Model
