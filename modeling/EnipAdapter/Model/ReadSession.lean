import EnipAdapter.Model.DeviceError
import EnipAdapter.Model.Logix
import EnipAdapter.Model.Publish

/-!
# The poll session's reads

`EipSession::read_signals` (`eip/session.rs`) with the value codec it reads through
(`eip/types.rs`): a Read Tag for each signal, shaped by the type its tag was last seen to
declare, decoded to the configured logical type, and classified as a reading or as the end of
the session.
-/

set_option autoImplicit false

namespace EnipAdapter.Model

open EnipAdapter.Foundation

/-! ## From CIP to JSON -/

def cipTypeName : CipType → String
  | .bool => "BOOL"
  | .sint => "SINT"
  | .int => "INT"
  | .dint => "DINT"
  | .lint => "LINT"
  | .usint => "USINT"
  | .uint => "UINT"
  | .udint => "UDINT"
  | .ulint => "ULINT"
  | .real => "REAL"
  | .lreal => "LREAL"
  | .byte => "BYTE"
  | .word => "WORD"
  | .dword => "DWORD"
  | .lword => "LWORD"
  | .string => "STRING"
  | .struct => "STRUCT"
  | .unknown _ => "UNKNOWN"

/-- The label of a declared type; an unknown code names itself. -/
def wireTypeLabel : CipType → String
  | .unknown code => "UNKNOWN(0x" ++ hexUpper 4 code.toNat ++ ")"
  | ty => cipTypeName ty

/-- A value decoded for reading, and whether a scaled result went non-finite. -/
structure Decoded where
  value : Json
  nonFinite : Bool

/-- The reply's declared type is not the configured one. -/
structure DecodeError where
  expected : EipType
  got : CipType
deriving DecidableEq, Repr

def DecodeError.qualityRaw (e : DecodeError) : String :=
  "DECODE type mismatch (expected " ++ e.expected.wire ++ ", device declares " ++
    wireTypeLabel e.got ++ ")"

/-- `json!` of a signed integer. -/
def intJson (n : Int64) : Json :=
  if h : n < 0 then .num (.negInt n h) else .num (.posInt n.toUInt64)

/-- The f64 of any numeric value. -/
def numericToF64 : CipValue → Option F64
  | .sint x => some (F64.ofInt x.toInt)
  | .int x => some (F64.ofInt x.toInt)
  | .dint x => some (F64.ofInt x.toInt)
  | .lint x => some (F64.ofInt x.toInt)
  | .usint x => some (F64.ofInt x.toNat)
  | .uint x => some (F64.ofInt x.toNat)
  | .udint x => some (F64.ofInt x.toNat)
  | .ulint x => some (F64.ofInt x.toNat)
  | .real x => some x.toF64
  | .lreal x => some x
  | _ => none

/-- The JSON integer of an integer value, with its precision. -/
def nativeIntJson : CipValue → Json
  | .sint x => intJson x.toInt64
  | .int x => intJson x.toInt64
  | .dint x => intJson x.toInt64
  | .lint x => intJson x
  | .usint x => .num (.posInt x.toUInt64)
  | .uint x => .num (.posInt x.toUInt64)
  | .udint x => .num (.posInt x.toUInt64)
  | .ulint x => .num (.posInt x)
  | _ => .null

/-- A finite float as a JSON number. -/
def floatJson (f : F64) : Json :=
  if h : f.isFinite = true then .num (.float f h) else .null

/-- A float that may be published, or a reading that cannot be. -/
def publishFloat (f : F64) : Decoded :=
  if f.isFinite then ⟨floatJson f, false⟩ else ⟨.null, true⟩

/-- One scalar: a BOOL as it is, a number through the transform. -/
def decodeScalarJson (v : CipValue) (ty : EipType) (scale offset : Option F64) :
    Except DecodeError Decoded :=
  if ty = .bool then
    match v with
    | .bool b => .ok ⟨.bool b, false⟩
    | v => .error ⟨ty, v.wireType⟩
  else
    match numericToF64 v with
    | none => .error ⟨ty, v.wireType⟩
    | some raw =>
      if scale.isSome || offset.isSome then
        .ok (publishFloat ((raw.mul (scale.getD (F64.ofInt 1))).add (offset.getD (F64.zero false))))
      else
        match v with
        | .real f => .ok (if f.isFinite then ⟨floatJson f.toF64, false⟩ else ⟨.null, true⟩)
        | .lreal f => .ok (publishFloat f)
        | other => .ok ⟨nativeIntJson other, false⟩

/-- The elements of an array, in order; the first mismatch is the error. -/
def decodeElementsJson (ty : EipType) (scale offset : Option F64) :
    List CipValue → Except DecodeError (List Decoded)
  | [] => .ok []
  | e :: es => do
    let head ← decodeScalarJson e ty scale offset
    let rest ← decodeElementsJson ty scale offset es
    pure (head :: rest)

/-- `decode_value`: the JSON value of a reply for the configured type. -/
def decodeValue (v : CipValue) (ty : EipType) (scale offset : Option F64) :
    Except DecodeError Decoded :=
  match v with
  | .array elTy elems =>
    if elTy ≠ ty.cipType then .error ⟨ty, elTy⟩
    else do
      let decoded ← decodeElementsJson ty scale offset elems
      if decoded.any (·.nonFinite) then pure ⟨.null, true⟩
      else pure ⟨.arr (decoded.map (·.value)), false⟩
  | scalar =>
    if scalar.wireType ≠ ty.cipType then .error ⟨ty, scalar.wireType⟩
    else decodeScalarJson scalar ty scale offset

/-! ## Packed BOOL arrays -/

def boolsPerDword : ℕ := 32

/-- How many DWORDs hold a number of BOOLs. -/
def packedDwordCount (bools : ℕ) : ℕ := (bools + boolsPerDword - 1) / boolsPerDword

/-- The word of a DWORD. -/
def dwordOf : CipValue → Option UInt32
  | .dword w => some w
  | _ => none

/-- The DWORDs of a reply, if it is of DWORDs. -/
def packedDwords : CipValue → Option (List UInt32)
  | .dword w => some [w]
  | .array .dword elems => elems.mapM dwordOf
  | _ => none

/-- A packed reply of another number of words than the BOOLs need. -/
structure PackedBoolError where
  bools : ℕ
  expected : ℕ
  got : ℕ
deriving DecidableEq, Repr

def PackedBoolError.qualityRaw (e : PackedBoolError) : String :=
  "DECODE element count mismatch (expected " ++ toString e.expected ++ " packed dword(s) for " ++
    toString e.bools ++ " bools, got " ++ toString e.got ++ ")"

/-- The bits of a word, least significant first. -/
def wordBits (w : UInt32) : List Bool :=
  (List.range boolsPerDword).map fun bit => w.toNat.testBit bit

/-- The first `bools` bits of the words, each least significant first. -/
def unpackBools (words : List UInt32) (bools : ℕ) : Except PackedBoolError Json :=
  if words.length ≠ packedDwordCount bools then
    .error ⟨bools, packedDwordCount bools, words.length⟩
  else .ok (.arr (((words.flatMap wordBits).take bools).map Json.bool))

/-- The inner loop of `unpack_bools`: bits are put out until there are enough, which ends the
loop over the words too. -/
def unpackWord (want : ℕ) (word : UInt32) : List ℕ → List Bool → Bool × List Bool
  | [], out => (true, out)
  | bit :: bits, out =>
    if out.length ≥ want then (false, out)
    else unpackWord want word bits (out ++ [word >>> UInt32.ofNat bit &&& 1 == 1])

/-- The loop over the words. -/
def unpackWords (want : ℕ) : List UInt32 → List Bool → List Bool
  | [], out => out
  | word :: words, out =>
    match unpackWord want word (List.range boolsPerDword) out with
    | (true, out) => unpackWords want words out
    | (false, out) => out

/-! ## Readings -/

/-- The reading of a signal, under its stable id. -/
def makeReading (spec : SignalSpec) (value : Json) (quality : Quality) (raw : String)
    (observed : Option String) : Reading :=
  ⟨spec.tagPath, some spec.name, value, quality, some raw, observed⟩

def good (spec : SignalSpec) (value : Json) (observed : Option String) : Reading :=
  makeReading spec value .good "0x00" observed

def uncertain (spec : SignalSpec) (observed : Option String) : Reading :=
  makeReading spec .null .uncertain "NON_FINITE_AFTER_SCALE" observed

def bad (spec : SignalSpec) (raw : String) (observed : Option String) : Reading :=
  makeReading spec .null .bad raw observed

def isBoolArray (spec : SignalSpec) : Bool := spec.eipType = .bool && spec.arrayCount.isSome

/-- A one-element read publishes the bare value. -/
def collapseOneElement (value : Json) (logical : ℕ) : Json :=
  if logical ≠ 1 then value
  else
    match value with
    | .arr [v] => v
    | other => other

/-- The detail when a reply has another number of elements than the configured one. -/
def cardinalityMismatch (v : CipValue) (configured : ℕ) : Option String :=
  if v.elementCount ≠ configured then
    some ("DECODE element count mismatch (expected " ++ toString configured ++ ", got " ++
      toString v.elementCount ++ ")")
  else none

/-- `decode_reading`: the packed translation first, then the type and the count. -/
def decodeReading (spec : SignalSpec) (value : CipValue) (wireType : CipType) (logical : ℕ) :
    Reading :=
  let observed := some (wireTypeLabel wireType)
  let plain :=
    match decodeValue value spec.eipType spec.scale spec.offset with
    | .error e => bad spec e.qualityRaw observed
    | .ok decoded =>
      match cardinalityMismatch value logical with
      | some detail => bad spec detail observed
      | none =>
        if decoded.nonFinite then uncertain spec observed else good spec decoded.value observed
  if isBoolArray spec then
    match packedDwords value with
    | some words =>
      match unpackBools words logical with
      | .ok v => good spec (collapseOneElement v logical) observed
      | .error e => bad spec e.qualityRaw observed
    | none => plain
  else plain

/-! ## The session -/

/-- A live session: its client and the type each tag was last seen to declare. -/
structure EipSession where
  client : EipClient
  observed : AList (fun _ : String => CipType) := ∅

/-- A new session has seen no tag. -/
def EipSession.new (client : EipClient) : EipSession := ⟨client, ∅⟩

/-- Whether the tag of a BOOL array was last seen to answer DWORDs. -/
def EipSession.readsPacked (session : EipSession) (spec : SignalSpec) : Bool :=
  isBoolArray spec && session.observed.lookup spec.tagPath == some .dword

/-- How many elements the configuration declares. -/
def logicalCount (spec : SignalSpec) : ℕ := (spec.arrayCount.map UInt32.toNat).getD 1

/-- How many elements are asked for. -/
def EipSession.wireElements (session : EipSession) (spec : SignalSpec) : UInt16 :=
  UInt16.ofNat (if session.readsPacked spec then packedDwordCount (logicalCount spec)
    else logicalCount spec)

/-- Read one signal. An error means the connection is broken; `elapsed` is the defensive
deadline around the whole read. -/
def readOne (session : EipSession) (spec : SignalSpec) (peer : Peer) (elapsed : Bool) :
    EipSession × Except DeviceError Reading :=
  match TagAddress.parse spec.tagPath with
  | .error e => (session, .ok (bad spec ("DECODE bad tag path (" ++ e.display ++ ")") none))
  | .ok addr =>
    let logical := logicalCount spec
    if ¬ (1 ≤ logical ∧ logical < 2 ^ 16) then
      (session, .ok (bad spec ("DECODE arrayCount " ++ toString logical ++
        " out of range (expected 1..=65535)") none))
    else if elapsed then
      (session, .error (.transient (.text "read exceeded the defensive request backstop")))
    else
      match readTag session.client addr (session.wireElements spec) peer with
      | .ok result =>
        ({ session with observed := session.observed.insert spec.tagPath result.wireType },
          .ok (decodeReading spec result.value result.wireType logical))
      | .error (.cip status) => (session, .ok (bad spec status.display none))
      | .error (.timeout _) => (session, .ok (bad spec "TIMEOUT" none))
      | .error e => (session, .error (mapEnipError e))

/-- What a read meets on its way. -/
structure ReadEnv where
  peer : Peer
  elapsed : Bool := false

/-- `read_signals`: one reading for each signal in order, up to the first error. -/
def readSignals (session : EipSession) (envs : ℕ → ReadEnv) :
    List SignalSpec → EipSession × Except DeviceError (List Reading)
  | [] => (session, .ok [])
  | spec :: specs =>
    match readOne session spec (envs 0).peer (envs 0).elapsed with
    | (session, .error e) => (session, .error e)
    | (session, .ok reading) =>
      match readSignals session (fun i => envs (i + 1)) specs with
      | (session, .error e) => (session, .error e)
      | (session, .ok readings) => (session, .ok (reading :: readings))

end EnipAdapter.Model
