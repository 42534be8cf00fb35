import EnipAdapter.Model.Connected

/-!
# The class-3 keepalive

A class-3 connection arms an inactivity watchdog on the target, and a task of the client
(`client/keepalive.rs`) keeps it from running out: when three quarters of the window have passed
since the last completed exchange, it reads an attribute of the Identity object over the
connection. The probe is an ordinary request. The task holds no handle of its own, so it ends
when the client's last one is dropped, and when a probe finds the session gone.
-/

set_option autoImplicit false

namespace EnipAdapter.Model

/-! ## When a probe is due -/

def keepaliveNum : ℕ := 3

def keepaliveDen : ℕ := 4

def keepaliveMaxSleep : Duration := Duration.fromSecs 60

/-- The fallback for a due time the clock cannot represent. -/
def farFuture : Duration := Duration.fromSecs 31536000

/-- The next probe: three quarters of the window after the last activity. -/
def nextKeepaliveAt (lastActivity : Instant) (window : Duration) : Instant :=
  match ((Duration.checkedMul window keepaliveNum).map (· / keepaliveDen)).bind
      (Instant.checkedAdd lastActivity) with
  | some due => due
  | none => (Instant.checkedAdd lastActivity farFuture).getD lastActivity

def keepaliveDue (now lastActivity : Instant) (window : Duration) : Bool :=
  nextKeepaliveAt lastActivity window ≤ now

/-- The earlier of a due time and a cap; an unrepresentable cap is no cap. -/
def capWake (due : Instant) : Option Instant → Instant
  | some cap => min due cap
  | none => due

/-- When a task that goes to sleep at `now` wakes: at the due time, or earlier to look whether its
client is still there. -/
def keepaliveWake (now lastActivity : Instant) (window : Duration) : Instant :=
  capWake (nextKeepaliveAt lastActivity window) (Instant.checkedAdd now keepaliveMaxSleep)

/-! ## The probe -/

def serviceGetAttributeSingle : UInt8 := 0x0E

/-- The probe: the Revision attribute of the Identity object. -/
def keepaliveRequest : MessageRequest :=
  ⟨serviceGetAttributeSingle, ⟨[.class_ 1, .instance_ 1, .attribute 4]⟩, []⟩

/-- What `get_attribute_single` makes of the reply. -/
def attributeResult (result : Except EnipError MessageReply) : Except EnipError Bytes := do
  let reply ← result
  reply.expectService serviceGetAttributeSingle
  if reply.status.isOk then pure reply.data else .error (.cip reply.status)

/-- What a probe tells the task. -/
inductive ProbeVerdict where
  /-- A reply came, a CIP error included: traffic flowed both ways. -/
  | alive
  /-- The session is closed or lost. -/
  | gone
  /-- Anything else; the next pass is the retry. -/
  | retry
deriving DecidableEq, Repr

def probeVerdict : Except EnipError Bytes → ProbeVerdict
  | .ok _ => .alive
  | .error (.cip _) => .alive
  | .error .closed => .gone
  | .error (.connectionLost _) => .gone
  | .error _ => .retry

/-! ## The task -/

inductive KeepalivePhase where
  | sleeping (wake : Instant)
  | probing
  | ended
deriving DecidableEq, Repr

/-- The task, and the client it shares its connection and its clock with. -/
structure KeepaliveTask where
  client : Class3Client
  phase : KeepalivePhase
  /-- A handle of the client is still held by a caller. -/
  held : Bool := true
  keepalivesSent : ℕ := 0
deriving DecidableEq, Repr

/-- What happens to the task next. -/
inductive KeepaliveInput where
  /-- A request of a caller ends. -/
  | exchanged (send : ConnectedSend)
  /-- The last handle is dropped. -/
  | released
  /-- The sleep ends. -/
  | woke (now : Instant)
  /-- The transaction of the probe ends. -/
  | probed (answer : Except EnipError EncapFrame) (now : Instant)

namespace KeepaliveTask

def window (s : KeepaliveTask) : Duration := s.client.conn.inactivityWindow

/-- The top of the loop: sleep until the next wake-up, or end with the client. -/
def rest (s : KeepaliveTask) (now : Instant) : KeepaliveTask :=
  if s.held then
    { s with phase := .sleeping (keepaliveWake now s.client.activity.last s.window) }
  else { s with phase := .ended }

/-- `keepalive::spawn`, on a client whose connection has just opened. -/
def spawn (client : Class3Client) (now : Instant) : KeepaliveTask :=
  rest { client := client, phase := .ended } now

/-- A sleep that ended: probe if a probe is due, else sleep on. -/
def wake (s : KeepaliveTask) (now : Instant) : KeepaliveTask :=
  if ¬ s.held then { s with phase := .ended }
  else if keepaliveDue now s.client.activity.last s.window then { s with phase := .probing }
  else s.rest now

/-- A probe that ended. -/
def finishProbe (s : KeepaliveTask) (answer : Except EnipError EncapFrame) (now : Instant) :
    KeepaliveTask :=
  let (client, outcome) := s.client.sendConnected ⟨keepaliveRequest, answer, now⟩
  let s := { s with client := client }
  match probeVerdict (attributeResult outcome.result) with
  | .alive => { s with keepalivesSent := s.keepalivesSent + 1 }.rest now
  | .gone => { s with phase := .ended }
  | .retry => s.rest now

def step (s : KeepaliveTask) : KeepaliveInput → KeepaliveTask
  | .exchanged send => { s with client := (s.client.sendConnected send).1 }
  | .released => { s with held := false }
  | .woke now =>
      match s.phase with
      | .sleeping _ => s.wake now
      | .probing | .ended => s
  | .probed answer now =>
      match s.phase with
      | .probing => s.finishProbe answer now
      | .sleeping _ | .ended => s

end KeepaliveTask

end EnipAdapter.Model
