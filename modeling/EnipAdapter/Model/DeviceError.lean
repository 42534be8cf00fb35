import EnipAdapter.Model.EncodeWrite

/-!
# Errors of the device seam

What a failure of the protocol crate is to the adapter (`eip/mod.rs`, `map_enip_error`): worth a
reconnect, permanent, or a service the device does not have. Only the supervisor tells them
apart; a session is over after each of them.
-/

set_option autoImplicit false

namespace EnipAdapter.Model

/-- A routing error of the Connection Manager. -/
def CipStatus.isRoutingError (s : CipStatus) : Bool :=
  match s.general with
  | .connectionFailure =>
    match s.extended.head? with
    | some code => [0x0204, 0x0311, 0x0312, 0x0315].contains code.toNat
    | none => false
  | .resourceUnavailable | .pathSegmentError => true
  | _ => false

def CipStatus.isResourceError (s : CipStatus) : Bool := s.general = .resourceUnavailable

def EnipError.isTransient : EnipError → Bool
  | .io _ | .connectionLost _ | .timeout _ => true
  | .encap status => status = .insufficientMemory
  | .cip status | .forwardOpenRejected status _ =>
    status.isRoutingError || status.isResourceError
  | .malformed _ | .protocolViolation _ | .unsupported _ | .tooLarge _ | .closed => false

inductive DeviceCause where
  | text (message : String)
  | enip (error : EnipError)
  | write (error : WriteError)
  | assembly (error : AssemblyError)
deriving DecidableEq, Repr

/-- An error of the device seam. -/
inductive DeviceError where
  | transient (cause : DeviceCause)
  | permanent (cause : DeviceCause)
  | unsupported (what : String)
deriving DecidableEq, Repr

/-- The seam's classification of a protocol error. -/
def mapEnipError (e : EnipError) : DeviceError :=
  match e with
  | .unsupported what => .unsupported what
  | .malformed _ | .protocolViolation _ | .tooLarge _ => .permanent (.enip e)
  | .encap status =>
    if status.poisonsSession || e.isTransient then .transient (.enip e) else .permanent (.enip e)
  | _ => if e.isTransient then .transient (.enip e) else .permanent (.enip e)

end EnipAdapter.Model
