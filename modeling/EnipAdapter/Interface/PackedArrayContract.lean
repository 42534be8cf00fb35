import EnipAdapter.Interface.ReadContract

/-!
# Packed BOOL arrays

A controller stores a BOOL array as DWORDs. What such a target answers to a tag read, what a
reading of the array has to hold, and the runs of a session in which the array is read again
and again between the reads of other signals.
-/

set_option autoImplicit false

namespace EnipAdapter.Interface

open EnipAdapter.Foundation EnipAdapter.Model

/-! ## The target -/

/-- The data of a reply that declares DWORD. -/
def dwordData (words : List UInt32) : Bytes :=
  putU16 CipType.dword.code ++ words.flatMap putU32

/-- A status that refuses a request. -/
def Refuses (status : CipStatus) : Prop := status.isOk = false ∧ status.hasMore = false

/-- A target that stores the tag as these words: it answers as many as are asked for, from
the first, and refuses to answer more than it has. -/
structure ServesPacked (tagPath : String) (words : List UInt32) (peer : Peer) : Prop where
  whole : ∀ addr, TagAddress.parse tagPath = .ok addr → ∀ (n : ℕ) (k : UInt16),
    k.toNat ≤ words.length → ∃ status : CipStatus, status.isOk = true ∧
      peer n (readTagRequest addr k) =
        .ok ⟨serviceReadTag ||| 0x80, status, dwordData (words.take k.toNat)⟩
  beyond : ∀ addr, TagAddress.parse tagPath = .ok addr → ∀ (n : ℕ) (k : UInt16),
    words.length < k.toNat → ∃ (status : CipStatus) (data : Bytes), Refuses status ∧
      peer n (readTagRequest addr k) = .ok ⟨serviceReadTag ||| 0x80, status, data⟩
  beyondFragmented : ∀ addr, TagAddress.parse tagPath = .ok addr →
    ∀ (n : ℕ) (k : UInt16) (offset : UInt32), words.length < k.toNat →
      ∃ (status : CipStatus) (data : Bytes), Refuses status ∧
        peer n (readTagFragmentedRequest addr k offset) =
          .ok ⟨serviceReadTagFragmented ||| 0x80, status, data⟩

/-- The client can ask for the tag at all. -/
def Addressed (client : EipClient) (tagPath : String) : Prop :=
  ∃ addr, TagAddress.parse tagPath = .ok addr ∧ Sendable client addr.path

/-! ## The reading -/

/-- The n-th boolean of the words: 32 to a word, the least significant first. -/
def bitAt (words : List UInt32) (n : ℕ) : Bool :=
  (words.getD (n / 32) 0).toNat.testBit (n % 32)

/-- The first booleans of the words as they are published: one alone is bare. -/
def publishedBools (words : List UInt32) (bools : ℕ) : Json :=
  if bools = 1 then .bool (bitAt words 0)
  else .arr ((List.range bools).map fun n => .bool (bitAt words n))

/-- A read that gives a GOOD reading of the first booleans of the words. -/
def ReadsBools (words : List UInt32) (bools : ℕ) (outcome : Except DeviceError Reading) : Prop :=
  ∃ reading, outcome = .ok reading ∧ reading.quality = .good ∧
    reading.value = publishedBools words bools

/-! ## Runs -/

/-- A session after a run of reads. -/
def readRun (session : EipSession) (reads : List (SignalSpec × ReadEnv)) : EipSession :=
  reads.foldl (fun s r => (readOne s r.1 r.2.peer r.2.elapsed).1) session

/-- In every read of the tag the target stores it as that many words, whatever they are then. -/
def ServedThroughout (tagPath : String) (size : ℕ) (reads : List (SignalSpec × ReadEnv)) : Prop :=
  ∀ r ∈ reads, r.1.tagPath = tagPath → r.2.elapsed = false ∧
    ∃ words : List UInt32, words.length = size ∧ ServesPacked tagPath words r.2.peer

/-- Some read of the tag asked for no more elements than the target has words. -/
def Taught (tagPath : String) (size : ℕ) (reads : List (SignalSpec × ReadEnv)) : Prop :=
  ∃ r ∈ reads, r.1.tagPath = tagPath ∧ 1 ≤ logicalCount r.1 ∧ logicalCount r.1 < 2 ^ 16 ∧
    logicalCount r.1 ≤ size

/-!
## One BOOL array in two representations

A device sends a BOOL array as one byte an element or packed into DWORDs. What it means that a
list of booleans is in the bytes or in the words of a reply, and what is published of it.
-/

/-- The data of a reply that declares BOOL. -/
def boolData (bytes : Bytes) : Bytes := putU16 CipType.bool.code ++ bytes

/-- The bytes say the booleans, one each: any byte but zero is true. -/
def InBytes (b : List Bool) (bytes : Bytes) : Prop := bytes.map (· != 0) = b

/-- The words hold the booleans, 32 each, with anything in the bits past the last. -/
structure InWords (b : List Bool) (words : List UInt32) : Prop where
  count : words.length = packedDwordCount b.length
  bit : ∀ n (_ : n < b.length), bitAt words n = b[n]

/-- What a list of booleans is published as: one alone is bare. -/
def boolsJson : List Bool → Json
  | [x] => .bool x
  | b => .arr (b.map .bool)

/-- The reading of a Read Tag reply. -/
def replyReading (signal : SignalSpec) (data : Bytes) : Except WireError Reading := do
  let (wireType, value) ← CipValue.decodeTagged data
  pure (decodeReading signal value wireType (logicalCount signal))

/-- A GOOD reading of a value. -/
def ReadsGood (value : Json) (outcome : Except WireError Reading) : Prop :=
  ∃ reading, outcome = .ok reading ∧ reading.quality = .good ∧ reading.value = value

end EnipAdapter.Interface
