import EnipAdapter.Model.Encap

/-!
# CIP statuses and the protocol crate's error type

The general status of a Message Router reply (`cip/status.rs`) is data the caller inspects;
`EnipError` (`error.rs`) is what the crate's fallible operations return. The TLS variant of
the source is behind a build feature no modelled function uses and is left out.
-/

set_option autoImplicit false

namespace EnipAdapter.Model

/-- A CIP general status; an unrecognised code is `unknown`. -/
inductive GeneralStatus where
  | success
  | connectionFailure
  | resourceUnavailable
  | invalidParameterValue
  | pathSegmentError
  | pathDestinationUnknown
  | partialTransfer
  | connectionLost
  | serviceNotSupported
  | invalidAttributeValue
  | attributeListError
  | alreadyInState
  | objectStateConflict
  | objectAlreadyExists
  | attributeNotSettable
  | privilegeViolation
  | deviceStateConflict
  | replyDataTooLarge
  | notEnoughData
  | attributeNotSupported
  | tooMuchData
  | embeddedServiceError
  | invalidPathSize
  | extendedError
  | unknown (code : UInt8)
deriving DecidableEq, Repr

namespace GeneralStatus

def fromCode (code : UInt8) : GeneralStatus :=
  match code.toNat with
  | 0x00 => .success
  | 0x01 => .connectionFailure
  | 0x02 => .resourceUnavailable
  | 0x03 => .invalidParameterValue
  | 0x04 => .pathSegmentError
  | 0x05 => .pathDestinationUnknown
  | 0x06 => .partialTransfer
  | 0x07 => .connectionLost
  | 0x08 => .serviceNotSupported
  | 0x09 => .invalidAttributeValue
  | 0x0A => .attributeListError
  | 0x0B => .alreadyInState
  | 0x0C => .objectStateConflict
  | 0x0D => .objectAlreadyExists
  | 0x0E => .attributeNotSettable
  | 0x0F => .privilegeViolation
  | 0x10 => .deviceStateConflict
  | 0x11 => .replyDataTooLarge
  | 0x13 => .notEnoughData
  | 0x14 => .attributeNotSupported
  | 0x15 => .tooMuchData
  | 0x1E => .embeddedServiceError
  | 0x26 => .invalidPathSize
  | 0xFF => .extendedError
  | _ => .unknown code

def isOk : GeneralStatus → Bool
  | .success => true
  | _ => false

def code : GeneralStatus → UInt8
  | .success => 0x00
  | .connectionFailure => 0x01
  | .resourceUnavailable => 0x02
  | .invalidParameterValue => 0x03
  | .pathSegmentError => 0x04
  | .pathDestinationUnknown => 0x05
  | .partialTransfer => 0x06
  | .connectionLost => 0x07
  | .serviceNotSupported => 0x08
  | .invalidAttributeValue => 0x09
  | .attributeListError => 0x0A
  | .alreadyInState => 0x0B
  | .objectStateConflict => 0x0C
  | .objectAlreadyExists => 0x0D
  | .attributeNotSettable => 0x0E
  | .privilegeViolation => 0x0F
  | .deviceStateConflict => 0x10
  | .replyDataTooLarge => 0x11
  | .notEnoughData => 0x13
  | .attributeNotSupported => 0x14
  | .tooMuchData => 0x15
  | .embeddedServiceError => 0x1E
  | .invalidPathSize => 0x26
  | .extendedError => 0xFF
  | .unknown code => code

def description : GeneralStatus → String
  | .success => "success"
  | .connectionFailure => "connection failure"
  | .resourceUnavailable => "resource unavailable"
  | .invalidParameterValue => "invalid parameter value"
  | .pathSegmentError => "path segment error"
  | .pathDestinationUnknown => "path destination unknown"
  | .partialTransfer => "partial transfer"
  | .connectionLost => "connection lost"
  | .serviceNotSupported => "service not supported"
  | .invalidAttributeValue => "invalid attribute value"
  | .attributeListError => "attribute list error"
  | .alreadyInState => "already in requested state"
  | .objectStateConflict => "object state conflict"
  | .objectAlreadyExists => "object already exists"
  | .attributeNotSettable => "attribute not settable"
  | .privilegeViolation => "privilege violation"
  | .deviceStateConflict => "device state conflict"
  | .replyDataTooLarge => "reply data too large"
  | .notEnoughData => "not enough data"
  | .attributeNotSupported => "attribute not supported"
  | .tooMuchData => "too much data"
  | .embeddedServiceError => "embedded service error"
  | .invalidPathSize => "invalid path size"
  | .extendedError => "extended error"
  | .unknown _ => "unknown status"

end GeneralStatus

/-- A number in upper-case hex, padded with zeros to a width. -/
def hexUpper (width n : ℕ) : String :=
  let digits := (Nat.toDigits 16 n).map Char.toUpper
  String.ofList (List.replicate (width - digits.length) '0' ++ digits)

/-- A general status with its extended-status words. -/
structure CipStatus where
  general : GeneralStatus
  extended : List UInt16
deriving DecidableEq, Repr

def CipStatus.isOk (s : CipStatus) : Bool := s.general.isOk

namespace CipStatus

/-- More data follows: the status that drives a fragmented read. -/
def hasMore (s : CipStatus) : Bool := s.general == .partialTransfer

def primaryExtended (s : CipStatus) : Option UInt16 := s.extended.head?

def logixExtendedDetail (s : CipStatus) : Option String :=
  if s.general ≠ .extendedError then none
  else
    match s.primaryExtended.map UInt16.toNat with
    | some 0x2104 => some "offset beyond end of tag"
    | some 0x2105 => some "element count beyond end of tag"
    | some 0x2107 => some "tag type mismatch"
    | _ => none

/-- The text of a status, as a reading carries it. -/
def display (s : CipStatus) : String :=
  let detail :=
    match s.logixExtendedDetail with
    | some detail => ": " ++ detail
    | none => ""
  let words :=
    if s.extended = [] then ""
    else " [ext" ++ String.join (s.extended.map fun w => " 0x" ++ hexUpper 4 w.toNat) ++ "]"
  "0x" ++ hexUpper 2 s.general.code.toNat ++ " (" ++ s.general.description ++ ")" ++ detail ++ words

end CipStatus

/-- The socket error kinds the crate tells apart; every other kind is `other`. -/
inductive ErrorKind where
  | connectionReset
  | connectionRefused
  | connectionAborted
  | interrupted
  | wouldBlock
  | invalidData
  | other (code : ℕ)
deriving DecidableEq, Repr

/-- The error type of the protocol crate. -/
inductive EnipError where
  | io (kind : ErrorKind)
  | connectionLost (context : String)
  | timeout (op : String)
  | encap (status : EncapStatus)
  | cip (status : CipStatus)
  | forwardOpenRejected (status : CipStatus) (remainingPathSize : Option UInt8)
  | malformed (e : WireError)
  | protocolViolation (detail : String)
  | unsupported (what : String)
  | closed
  | tooLarge (limit : ℕ)
deriving DecidableEq, Repr

/-- Lift a decode result into the crate's error type (`map_err(EnipError::Malformed)`). -/
def liftWire {α : Type} : Except WireError α → Except EnipError α
  | .ok a => .ok a
  | .error e => .error (.malformed e)

@[simp] theorem liftWire_ok {α : Type} (a : α) : liftWire (.ok a) = .ok a := rfl

/-- A lifted decode succeeds where the decode does. -/
theorem liftWire_eq_ok {α : Type} {x : Except WireError α} {a : α} :
    liftWire x = .ok a ↔ x = .ok a := by
  cases x with
  | error e => simp [liftWire]
  | ok b => simp [liftWire]

end EnipAdapter.Model
