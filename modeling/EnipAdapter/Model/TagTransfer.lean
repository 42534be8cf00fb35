import EnipAdapter.Model.Logix

/-!
# Tag transfers, request by request

The fragmented read and the write of a tag (`logix.rs`), with every request they make on the way
to their result. Both loops count their own offset next to the bytes they have moved, in the
width the wire has for it; that the two agree is a property, not part of the model.

A loop takes the number of turns it may make and answers `none` where it is not done by then.
-/

set_option autoImplicit false

namespace EnipAdapter.Model

/-- The `u32` offset after some more bytes, if it can still be represented. -/
def advanceOffset (offset : UInt32) (len : ℕ) : Option UInt32 :=
  if len < 2 ^ 32 ∧ offset.toNat + len < 2 ^ 32 then some (offset + UInt32.ofNat len) else none

/-! ## The fragmented read -/

/-- The local variables of the read loop. -/
structure FragmentLocals where
  offset : UInt32 := 0
  acc : Bytes := []
  wireCode : Option UInt16 := none
  structHandle : Option UInt16 := none

/-- The accumulators that the header of a fragment is compared with. -/
def FragmentLocals.reassembly (st : FragmentLocals) : Reassembly :=
  ⟨st.acc, st.wireCode, st.structHandle⟩

/-- The part of a turn that takes the value bytes of a fragment in: the locals it leaves, and
whether to go round again. -/
def takeFragment (cap : ℕ) (st : FragmentLocals) (more : Bool) (code : UInt16)
    (handle : Option UInt16) (bytes : Bytes) : FragmentLocals × Except EnipError Bool :=
  if cap < st.acc.length + bytes.length then (st, .error (.tooLarge cap))
  else
    match advanceOffset st.offset bytes.length with
    | none => (⟨st.offset, st.acc ++ bytes, some code, handle⟩, .error (.tooLarge cap))
    | some offset =>
        let next : FragmentLocals := ⟨offset, st.acc ++ bytes, some code, handle⟩
        if more = false then (next, .ok false)
        else if bytes = [] then
          (next, .error (.protocolViolation "fragmented read made no progress"))
        else (next, .ok true)

/-- One turn of the read loop, after its reply. -/
def fragmentTurn (cap : ℕ) (st : FragmentLocals) (reply : MessageReply) :
    FragmentLocals × Except EnipError Bool :=
  match reply.expectService serviceReadTagFragmented with
  | .error e => (st, .error e)
  | .ok () =>
      let more := reply.status.hasMore
      if reply.status.isOk = false ∧ more = false then (st, .error (.cip reply.status))
      else
        match fragmentHeader st.reassembly reply.data with
        | .error e => (st, .error e)
        | .ok (code, handle, bytes) => takeFragment cap st more code handle bytes

/-- The result once the loop is left. -/
def FragmentLocals.finish (st : FragmentLocals) : Except EnipError TagReadResult := do
  let ty := (st.wireCode.map CipType.fromCode).getD (.unknown 0)
  let value ← buildFragmentValue ty st.structHandle st.acc
  pure ⟨value, ty, true⟩

/-- A turn of the read loop as it was taken: its request, and the locals before and after. -/
structure FragmentTurn where
  request : MessageRequest
  before : FragmentLocals
  after : FragmentLocals

/-- The read loop: `n` numbers its requests. -/
def fragmentLoop (client : EipClient) (tag : TagAddress) (elements : UInt16) (peer : Peer) :
    ℕ → ℕ → FragmentLocals → Option (List FragmentTurn × Except EnipError TagReadResult)
  | 0, _, _ => none
  | turns + 1, n, st =>
      let request := readTagFragmentedRequest tag elements st.offset
      match client.sendCip peer n request with
      | .error e => some ([⟨request, st, st⟩], .error e)
      | .ok reply =>
          match fragmentTurn client.maxValueBytes st reply with
          | (next, .error e) => some ([⟨request, st, next⟩], .error e)
          | (next, .ok false) => some ([⟨request, st, next⟩], next.finish)
          | (next, .ok true) =>
              (fragmentLoop client tag elements peer turns (n + 1) next).map fun later =>
                (⟨request, st, next⟩ :: later.1, later.2)

/-- `read_tag_fragmented`, its requests numbered from `first`. -/
def readTagFragmented (client : EipClient) (tag : TagAddress) (elements : UInt16) (peer : Peer)
    (first turns : ℕ) : Option (List FragmentTurn × Except EnipError TagReadResult) :=
  fragmentLoop client tag elements peer turns first {}

/-! ## The write -/

def serviceWriteTag : UInt8 := 0x4D

def serviceWriteTagFragmented : UInt8 := 0x53

/-- The usable request-payload size for write chunking. -/
def maxRequestBytes : ℕ := 480

def writeTagRequest (tag : TagAddress) (ty : CipType) (elementCount : UInt16) (bytes : Bytes) :
    MessageRequest :=
  ⟨serviceWriteTag, tag.path, putU16 ty.code ++ putU16 elementCount ++ bytes⟩

def writeTagFragmentedRequest (tag : TagAddress) (ty : CipType) (elementCount : UInt16)
    (offset : UInt32) (chunk : Bytes) : MessageRequest :=
  ⟨serviceWriteTagFragmented, tag.path,
    putU16 ty.code ++ putU16 elementCount ++ putU32 offset ++ chunk⟩

/-- A request of a write, and what came back for it. -/
structure WriteTurn where
  request : MessageRequest
  outcome : Except EnipError MessageReply

/-- A write request went through: its reply is a reply to it and carries status 0. -/
def WriteTurn.verdict (t : WriteTurn) : Except EnipError Unit := do
  let reply ← t.outcome
  reply.expectService t.request.service
  if reply.status.isOk then pure () else .error (.cip reply.status)

/-- The bytes of a full chunk: whole elements, at least one. -/
def chunkBytes (elementSize : ℕ) : ℕ := max ((maxRequestBytes - 12) / elementSize) 1 * elementSize

/-- The chunk loop of a write: `n` numbers its requests. -/
def writeLoop (client : EipClient) (tag : TagAddress) (ty : CipType) (elementCount : UInt16)
    (valueBytes : Bytes) (chunkLen : ℕ) (peer : Peer) :
    ℕ → ℕ → UInt32 → ℕ → Option (List WriteTurn × Except EnipError Unit)
  | 0, _, _, _ => none
  | turns + 1, n, offset, sent =>
      if sent < valueBytes.length then
        let stop := min (sent + chunkLen) valueBytes.length
        let chunk := (valueBytes.take stop).drop sent
        let request := writeTagFragmentedRequest tag ty elementCount offset chunk
        let turn : WriteTurn := ⟨request, client.sendCip peer n request⟩
        match turn.verdict with
        | .error e => some ([turn], .error e)
        | .ok () =>
            match advanceOffset offset chunk.length with
            | none => some ([turn], .error (.tooLarge (2 ^ 32 - 1)))
            | some offset =>
                (writeLoop client tag ty elementCount valueBytes chunkLen peer turns (n + 1) offset
                  stop).map fun later => (turn :: later.1, later.2)
      else some ([], .ok ())

/-- `write_tag`: in one request where the value fits it comfortably, in chunks otherwise. -/
def writeTag (client : EipClient) (tag : TagAddress) (ty : CipType) (value : CipValue)
    (peer : Peer) (turns : ℕ) : Option (List WriteTurn × Except EnipError Unit) :=
  match ty.elementSize with
  | none => some ([], .error (.unsupported "write of non-elementary type"))
  | some elementSize =>
      match liftWire value.encodeValue with
      | .error e => some ([], .error e)
      | .ok valueBytes =>
          if value.elementCount < 2 ^ 16 then
            let elementCount := UInt16.ofNat value.elementCount
            if valueBytes.length + 8 ≤ maxRequestBytes then
              let request := writeTagRequest tag ty elementCount valueBytes
              let turn : WriteTurn := ⟨request, client.sendCip peer 0 request⟩
              some ([turn], turn.verdict)
            else
              writeLoop client tag ty elementCount valueBytes (chunkBytes elementSize) peer turns 0 0 0
          else some ([], .error (.tooLarge 65535))

end EnipAdapter.Model
