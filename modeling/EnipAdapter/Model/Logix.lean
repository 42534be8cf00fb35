import EnipAdapter.Model.CipDecode
import EnipAdapter.Model.Client
import EnipAdapter.Model.TagAddress

/-!
# Tag reads

Read Tag and its fragmented continuation (`logix.rs`) over a connected or an unconnected
client (`client/mod.rs`, `client/connected.rs`). What comes back for a request that was put
on the wire is the environment: the Message Router reply its frame carries, or the error the
transaction ended with.
-/

set_option autoImplicit false

namespace EnipAdapter.Model

def serviceReadTag : UInt8 := 0x4C

def serviceReadTagFragmented : UInt8 := 0x52

/-! ## The client -/

/-- The address item of a connected request. -/
def CpfItem.connectedAddress (connectionId : UInt32) : CpfItem :=
  ⟨.connectedAddress, putU32 connectionId⟩

/-- The client of one session: its route, its class-3 connection if it has one, and the cap on
a reassembled value. -/
structure EipClient where
  route : Option RoutePath := none
  connected : Option ConnectedState := none
  maxValueBytes : ℕ := 2 ^ 20

/-- The next connected-data sequence count, never zero. -/
def ConnectedState.nextSequence (conn : ConnectedState) : UInt16 :=
  if conn.sequence + 1 = 0 then 1 else conn.sequence + 1

/-- The SendUnitData payload of a connected request. -/
def connectedRequestPayload (conn : ConnectedState) (mr : MessageRequest) :
    Except EnipError Bytes := do
  let mrBytes ← mr.encode
  encapDataWithCpf ⟨[CpfItem.connectedAddress conn.oTConnectionId,
    CpfItem.connectedData (putU16 conn.nextSequence ++ mrBytes)]⟩

/-- What a request is on the wire, over the path the client has. The sequence count moves with
every connected request; whether a request encodes does not depend on it. -/
def EipClient.payload (client : EipClient) (mr : MessageRequest) : Except EnipError Bytes :=
  match client.connected with
  | some conn => connectedRequestPayload conn mr
  | none => unconnectedPayload client.route mr

/-- What a peer answers: by the place of a request in the call and the request. -/
abbrev Peer := ℕ → MessageRequest → Except EnipError MessageReply

/-- `send_cip`: a request that does not encode is never sent. -/
def EipClient.sendCip (client : EipClient) (peer : Peer) (n : ℕ) (mr : MessageRequest) :
    Except EnipError MessageReply :=
  match client.payload mr with
  | .error e => .error e
  | .ok _ => peer n mr

/-! ## Read Tag -/

structure TagReadResult where
  value : CipValue
  wireType : CipType
  fragmented : Bool

def readTagRequest (tag : TagAddress) (elements : UInt16) : MessageRequest :=
  ⟨serviceReadTag, tag.path, putU16 elements⟩

def readTagFragmentedRequest (tag : TagAddress) (elements : UInt16) (offset : UInt32) :
    MessageRequest :=
  ⟨serviceReadTagFragmented, tag.path, putU16 elements ++ putU32 offset⟩

/-- The value of a reassembled transfer. -/
def buildFragmentValue (ty : CipType) (structHandle : Option UInt16) (acc : Bytes) :
    Except EnipError CipValue :=
  match ty with
  | .struct => .ok (.struct (structHandle.getD 0) acc.length)
  | .string | .unknown _ => .ok (.unsupported ty.code acc.length)
  | elementary => liftWire (CipValue.decode elementary acc)

/-- The accumulators of a fragmented read; the offset asked for next is the length so far. -/
structure Reassembly where
  acc : Bytes := []
  wireCode : Option UInt16 := none
  structHandle : Option UInt16 := none

/-- The header of a fragment: its type code, and a structure's handle, must be those of the
first fragment. -/
def fragmentHeader (st : Reassembly) (data : Bytes) :
    Except EnipError (UInt16 × Option UInt16 × Bytes) := do
  let r := WireReader.withContext data "logix"
  let (code, r) ← liftWire r.u16
  if st.wireCode.any (· != code) then
    .error (.protocolViolation "fragmented read type code changed between fragments")
  else if CipType.fromCode code = .struct then do
    let (handle, r) ← liftWire r.u16
    if st.structHandle.any (· != handle) then
      .error (.protocolViolation "fragmented read struct handle changed between fragments")
    else pure (code, some (st.structHandle.getD handle), r.takeRest.1)
  else pure (code, st.structHandle, r.takeRest.1)

/-- What one fragment reply makes of the transfer: a value, or the state to go on with. -/
inductive FragmentStep where
  | done (result : TagReadResult)
  | more (st : Reassembly)

/-- One turn of the fragment loop, after its reply. -/
def fragmentStep (cap : ℕ) (st : Reassembly) (reply : MessageReply) :
    Except EnipError FragmentStep := do
  reply.expectService serviceReadTagFragmented
  let more := reply.status.hasMore
  if reply.status.isOk = false ∧ more = false then .error (.cip reply.status)
  else
    let (code, handle, bytes) ← fragmentHeader st reply.data
    let len := st.acc.length + bytes.length
    -- the offset of the next request is a `u32`
    if cap < len ∨ 2 ^ 32 ≤ len then .error (.tooLarge cap)
    else
      let next : Reassembly := ⟨st.acc ++ bytes, some code, handle⟩
      if more then
        if bytes = [] then .error (.protocolViolation "fragmented read made no progress")
        else pure (.more next)
      else
        let value ← buildFragmentValue (CipType.fromCode code) handle next.acc
        pure (.done ⟨value, CipType.fromCode code, true⟩)

/-- A turn that goes on has made progress under the cap. -/
theorem fragmentStep_more {cap : ℕ} {st next : Reassembly} {reply : MessageReply}
    (h : fragmentStep cap st reply = .ok (.more next)) :
    st.acc.length < next.acc.length ∧ next.acc.length ≤ cap := by
  unfold fragmentStep at h
  cases hservice : reply.expectService serviceReadTagFragmented with
  | error e => simp [hservice, bind, Except.bind] at h
  | ok u =>
    simp only [hservice, bind, Except.bind] at h
    split at h
    · cases h
    · cases hheader : fragmentHeader st reply.data with
      | error e => simp [hheader] at h
      | ok header =>
        simp only [hheader] at h
        split at h
        · cases h
        · rename_i hlen
          split at h
          · split at h
            · cases h
            · rename_i hbytes
              cases h
              have hpos := List.length_pos_of_ne_nil hbytes
              simp only [List.length_append]
              omega
          · cases hvalue : buildFragmentValue (CipType.fromCode header.1) header.2.1
                (st.acc ++ header.2.2) with
            | error e => simp [hvalue] at h
            | ok value => simp [hvalue, pure, Except.pure] at h

/-- The fragment loop: `n` numbers its requests. -/
def readFragments (client : EipClient) (tag : TagAddress) (elements : UInt16) (peer : Peer)
    (n : ℕ) (st : Reassembly) : Except EnipError TagReadResult :=
  let request := readTagFragmentedRequest tag elements (UInt32.ofNat st.acc.length)
  match client.sendCip peer n request with
  | .error e => .error e
  | .ok reply =>
    match h : fragmentStep client.maxValueBytes st reply with
    | .error e => .error e
    | .ok (.done result) => .ok result
    | .ok (.more next) => readFragments client tag elements peer (n + 1) next
  termination_by client.maxValueBytes - st.acc.length
  decreasing_by
    have hstep := fragmentStep_more h
    omega

/-- `read_tag`: whole in one reply, or reassembled when the target says it does not fit. -/
def readTag (client : EipClient) (tag : TagAddress) (elements : UInt16) (peer : Peer) :
    Except EnipError TagReadResult := do
  let reply ← client.sendCip peer 0 (readTagRequest tag elements)
  reply.expectService serviceReadTag
  if reply.status.isOk then
    let (wireType, value) ← liftWire (CipValue.decodeTagged reply.data)
    pure ⟨value, wireType, false⟩
  else if reply.status.hasMore ∨ reply.status.general = .replyDataTooLarge then
    readFragments client tag elements peer 1 {}
  else .error (.cip reply.status)

end EnipAdapter.Model
