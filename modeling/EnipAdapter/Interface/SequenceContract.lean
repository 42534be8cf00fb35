import EnipAdapter.Model.IoConnection

/-!
# A producer feeding a consumer

One connection's produced datagrams, delivered in order and without loss to another: what the
two sides have to share for the frames to fit, and what it means that the consumer sees the
producer's sequence as unbroken.
-/

set_option autoImplicit false

namespace EnipAdapter.Interface

open EnipAdapter.Model

/-- `n` calls of `produceFrame`: the connection after them and what each returned. -/
def produceFrames : ℕ → IoConnection → IoConnection × List (Except EnipError Bytes)
  | 0, c => (c, [])
  | n + 1, c =>
      let (c, datagram) := c.produceFrame
      let (c, datagrams) := produceFrames n c
      (c, datagram :: datagrams)

/-- The connected-data payload of a datagram, with the encapsulation sequence of its address
item. -/
def connectedPayload (datagram : Bytes) : Option (Bytes × UInt32) := do
  let cpf ← (Cpf.decode datagram).toOption
  let addrItem ← cpf.find .sequencedAddress
  let dataItem ← cpf.find .connectedData
  let addr ← (SequencedAddress.decode addrItem.data).toOption
  pure (dataItem.data, addr.encapSequence)

/-- The payload of what a call of `produceFrame` returned. -/
def producedPayload : Except EnipError Bytes → Option (Bytes × UInt32)
  | .error _ => none
  | .ok datagram => connectedPayload datagram

/-- Feed payloads to a connection, the `i`-th at the instant `now i`. -/
def feed (now : ℕ → Instant) : IoConnection → List (Bytes × UInt32) →
    IoConnection × List ConsumeOutcome
  | c, [] => (c, [])
  | c, (payload, encapSequence) :: rest =>
      let (c, outcome) := c.consume payload encapSequence (now 0)
      let (c, outcomes) := feed (fun i => now (i + 1)) c rest
      (c, outcome :: outcomes)

/-- The consumer's T→O side is the producer's O→T side: the format and the negotiated size. -/
structure Matches (producer : IoConnection) (params : IoConnectionParams) : Prop where
  format : params.t2oFormat = producer.params.o2tFormat
  size : params.t2oDataSize = producer.params.o2tDataSize

/-- What rides a producer's frames: its output buffer, if the format carries data. -/
def sentData (producer : IoConnection) : Bytes :=
  if producer.params.o2tFormat.carriesData then producer.output else []

/-- The producer's data has the negotiated size as the consumer checks it, and the length field of
an item can hold the frame. -/
structure BufferFits (producer : IoConnection) (params : IoConnectionParams) : Prop where
  size : if params.t2oFixed then (sentData producer).length = producer.params.o2tDataSize
    else (sentData producer).length ≤ producer.params.o2tDataSize
  item : producer.params.o2tFormat.overhead + (sentData producer).length < 2 ^ 16

/-- Every one of `n` produced frames is accepted, none as stale and none after a gap. -/
def AgreesOn (n : ℕ) (producer consumer : IoConnection) (now : ℕ → Instant) : Prop :=
  ∃ payloads : List (Bytes × UInt32),
    (produceFrames n producer).2.map producedPayload = payloads.map some ∧
      (∀ outcome ∈ (feed now consumer payloads).2,
        ∃ first update, outcome = .accepted first update) ∧
      (feed now consumer payloads).1.counters.staleFrames = 0 ∧
      (feed now consumer payloads).1.counters.sequenceGaps = 0

/-- The sequence of the first frame a connection will produce. -/
def firstSequence (producer : IoConnection) : ℕ :=
  if producer.o2tClass1Seq = 65535 then 1 else producer.o2tClass1Seq.toNat + 1

end EnipAdapter.Interface
