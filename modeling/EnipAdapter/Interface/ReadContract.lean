import EnipAdapter.Model.ReadSession

/-!
# What a poll read promises

One bad tag never blinds the others: the words of that promise over a run of `read_signals`,
and the replies a tag can be read from. A target here answers every request with a Message
Router reply of its own choosing, so a run of it is a stream of statuses and data for each
signal.
-/

set_option autoImplicit false

namespace EnipAdapter.Interface

open EnipAdapter.Model

/-- What a target answers to a request: a status and data bytes. -/
abbrev TargetReply := CipStatus × Bytes

/-- A target that answers the requests of one read with these replies, in order. -/
def answering (replies : ℕ → TargetReply) : Peer := fun n mr =>
  .ok ⟨mr.service ||| 0x80, (replies n).1, (replies n).2⟩

/-- The same for the reads of a list of signals. -/
def answeringAll (replies : ℕ → ℕ → TargetReply) (i : ℕ) : ReadEnv := ⟨answering (replies i), false⟩

/-! ## Replies a tag can be read from -/

/-- The client can put a request for the path on the wire: the path encodes and so does the
route in front of it. -/
def Sendable (client : EipClient) (path : EPath) : Prop :=
  path.encode.isOk = true ∧
    (client.connected = none →
      ∀ route ∈ client.route, route.segments ≠ [] → route.toEpath.encode.isOk = true)

/-- A fragmented transfer from the n-th reply on: it ends with a refusal or with a fragment
that completes a value, and until then every fragment repeats the header of the first, brings
bytes and stays under the cap. -/
inductive Transfer (cap : ℕ) (replies : ℕ → TargetReply) : ℕ → Reassembly → Prop
  | refused {n : ℕ} {st : Reassembly} (hok : (replies n).1.isOk = false)
      (hmore : (replies n).1.hasMore = false) : Transfer cap replies n st
  | last {n : ℕ} {st : Reassembly} {code : UInt16} {handle : Option UInt16} {bytes : Bytes}
      (hok : (replies n).1.isOk = true)
      (hheader : fragmentHeader st (replies n).2 = .ok (code, handle, bytes))
      (hcap : st.acc.length + bytes.length ≤ cap) (hword : st.acc.length + bytes.length < 2 ^ 32)
      (hvalue : (buildFragmentValue (CipType.fromCode code) handle
        (st.acc ++ bytes)).isOk = true) : Transfer cap replies n st
  | more {n : ℕ} {st : Reassembly} {code : UInt16} {handle : Option UInt16} {bytes : Bytes}
      (hmore : (replies n).1.hasMore = true)
      (hheader : fragmentHeader st (replies n).2 = .ok (code, handle, bytes))
      (hcap : st.acc.length + bytes.length ≤ cap) (hword : st.acc.length + bytes.length < 2 ^ 32)
      (hbytes : bytes ≠ [])
      (hrest : Transfer cap replies (n + 1) ⟨st.acc ++ bytes, some code, handle⟩) :
      Transfer cap replies n st

/-- The replies to the requests of one read are well formed: a success carries a value that
decodes, a partial transfer is followed by a well-formed one. Every other status is a
refusal, whatever its data. -/
structure WellFormed (cap : ℕ) (replies : ℕ → TargetReply) : Prop where
  whole : (replies 0).1.isOk = true → (CipValue.decodeTagged (replies 0).2).isOk = true
  fragmented : (replies 0).1.hasMore = true ∨ (replies 0).1.general = .replyDataTooLarge →
    Transfer cap replies 1 {}

/-- A signal that can be read: if its path parses and its count is in range, its request can
be sent and the replies to it are well formed. -/
def Readable (client : EipClient) (spec : SignalSpec) (replies : ℕ → TargetReply) : Prop :=
  ∀ addr, TagAddress.parse spec.tagPath = .ok addr →
    1 ≤ logicalCount spec → logicalCount spec < 2 ^ 16 →
      Sendable client addr.path ∧ WellFormed client.maxValueBytes replies

/-! ## The promise -/

/-- The session before the i-th signal of a list is read. -/
def sessionBefore (session : EipSession) (envs : ℕ → ReadEnv) (specs : List SignalSpec) (i : ℕ) :
    EipSession :=
  (readSignals session envs (specs.take i)).1

/-- One reading for each signal in order, under its id, and decided by the replies to its own
requests and the type last seen for its own tag path alone. -/
def Isolated (session : EipSession) (specs : List SignalSpec) (replies : ℕ → ℕ → TargetReply) :
    Prop :=
  ∃ readings : List Reading,
    (readSignals session (answeringAll replies) specs).2 = .ok readings ∧
      readings.length = specs.length ∧
      ∀ (i : ℕ) (spec : SignalSpec), specs[i]? = some spec →
        ∃ reading, readings[i]? = some reading ∧ reading.signalId = spec.tagPath ∧
          ∀ other : EipSession, other.client = session.client →
            other.observed.lookup spec.tagPath =
              (sessionBefore session (answeringAll replies) specs i).observed.lookup spec.tagPath →
            (readOne other spec (answering (replies i)) false).2 = .ok reading

end EnipAdapter.Interface
