import EnipAdapter.Analysis.ProducedFrame
import EnipAdapter.Foundation.AssocList
import EnipAdapter.Interface.OpenedPush
import Mathlib.Data.List.Nodup

/-!
# The invariant of the push write path

A write is one ticket. On its way down it is in the control queue, with the translator, in the
manager's queue, and then a verdict; on its way up the translator owes it an answer until it
has given one. At any time at most one write is current, and every other write still on its
way has outlived its deadline, so the manager will refuse it.
-/

set_option autoImplicit false

namespace EnipAdapter.Analysis

open EnipAdapter.Foundation EnipAdapter.Model EnipAdapter.Interface

/-! ## Where a write can be -/

/-- The write a manager command carries. -/
def writeOf : ManagerCommand → Option PendingWrite
  | .setOutput _ bytes (some deadline) (some call) => some ⟨call, bytes, deadline⟩
  | _ => none

/-- The writes in the manager's queue. -/
def queued (s : PushSystem) : List PendingWrite := s.commands.filterMap writeOf

/-- The write the translator owes an answer. -/
def held (s : PushSystem) : List PendingWrite :=
  match s.translator with
  | .handing w | .confirming w => [w]
  | _ => []

/-- The write the translator has not handed on. -/
def handing (s : PushSystem) : List PendingWrite :=
  match s.translator with
  | .handing w => [w]
  | _ => []

/-- The calls that are owed an answer or have one. -/
def upward (s : PushSystem) : List ℕ :=
  s.control.map (·.call) ++ (held s).map (·.call) ++ s.acks.map Prod.fst

/-- The calls on their way to a verdict or with one. -/
def downward (s : PushSystem) : List ℕ :=
  s.control.map (·.call) ++ (handing s).map (·.call) ++ (queued s).map (·.call) ++
    s.verdicts.map Prod.fst

def onTheWay (s : PushSystem) : List PendingWrite := s.control ++ held s ++ queued s

/-- The manager accepted a call's image. -/
def Accepted (s : PushSystem) (call : ℕ) : Prop := (call, .ok ()) ∈ s.verdicts

/-! ## The invariant -/

structure Tickets (s : PushSystem) : Prop where
  upBound : ∀ k ∈ upward s, k < s.calls
  downBound : ∀ k ∈ downward s, k < s.calls
  upNodup : (upward s).Nodup
  downNodup : (downward s).Nodup
  returnedBound : ∀ k ∈ s.returned.map Prod.fst, k < s.calls
  /-- A call under way has been issued and has not returned. -/
  current : ∀ w : PendingWrite, s.state = .handoff w ∨ s.state = .awaiting w →
    w.call < s.calls ∧ w.call ∉ s.returned.map Prod.fst
  /-- A call that is not handed over yet is nowhere else. -/
  fresh : ∀ w : PendingWrite, s.state = .handoff w → w.call ∉ upward s ∧ w.call ∉ downward s

/-- The commands a push session's translator issues for its connection. -/
inductive Issued (id : UInt32) : ManagerCommand → Prop where
  | staging (w : PendingWrite) : Issued id (.setOutput id w.bytes (some w.deadline) (some w.call))
  | removal : Issued id (.remove id)
  | stop : Issued id .shutdown

/-- The queues hold what the tasks put there. -/
structure Queues (s : PushSystem) : Prop where
  commands : ∀ c ∈ s.commands, Issued s.handle.connectionId c
  stopped : s.manager.running = false → s.commands = []
  ended : s.translator = .ended → s.control = []
  /-- The translator waits for every write in the manager's queue it has not answered. -/
  confirming : ∀ w ∈ queued s, w.call ∈ s.acks.map Prod.fst ∨ s.translator = .confirming w

/-- Only the current call, while it is owed an answer, is not past its deadline. -/
def Deadlines (s : PushSystem) : Prop :=
  ∀ w ∈ onTheWay s, w.deadline ≤ s.now ∨
    s.state = .awaiting w ∧ w.call ∉ s.acks.map Prod.fst

/-- Answers agree with the manager's verdicts. -/
structure Answers (s : PushSystem) : Prop where
  ackOk : ∀ k : ℕ, (k, .ok ()) ∈ s.acks → Accepted s k
  ackError : ∀ (k : ℕ) (e : DeviceError), (k, .error e) ∈ s.acks → ¬Accepted s k
  returnedOk : ∀ k : ℕ, (k, .ok ()) ∈ s.returned → Accepted s k
  returnedError : ∀ (k : ℕ) (e : DeviceError), (k, .error e) ∈ s.returned → ¬Accepted s k
  /-- An acceptance has been relayed, or waits at the translator. -/
  relay : ∀ k : ℕ, Accepted s k → k ∈ s.acks.map Prod.fst ∨
    ∃ w : PendingWrite, s.translator = .confirming w ∧ w.call = k
  /-- An accepted call returned `Ok` or is still waiting. -/
  disposition : ∀ k : ℕ, Accepted s k → (k, .ok ()) ∈ s.returned ∨
    ∃ w : PendingWrite, s.state = .awaiting w ∧ w.call = k
  installed : ∀ (k : ℕ) (bytes : Bytes), (k, bytes) ∈ s.installed → Accepted s k

/-- The producer holds the image of the current call once it is accepted, and the session's
own otherwise. -/
def Image (s : PushSystem) : Prop :=
  ∀ conn : IoConnection, s.manager.registry.conns.lookup s.handle.connectionId = some conn →
    (∃ k : ℕ, Accepted s k) →
    (∀ w : PendingWrite, s.state = .awaiting w → Accepted s w.call → conn.output = w.bytes) ∧
    ((∀ w : PendingWrite, s.state = .awaiting w → ¬Accepted s w.call) →
      conn.output = s.session.outBuf)

structure PushInv (s : PushSystem) : Prop where
  tickets : Tickets s
  queues : Queues s
  deadlines : Deadlines s
  answers : Answers s
  image : Image s

/-! ## It holds of a session that was just opened -/

/-- A session that was just opened has nothing on its way. -/
theorem pushInv_start (session : EipPushSession) (handle : IoConnectionHandle)
    (manager : Manager) (now : Instant) :
    PushInv (PushSystem.start session handle manager now) where
  tickets :=
    { upBound := by simp [upward, held, PushSystem.start]
      downBound := by simp [downward, handing, queued, PushSystem.start]
      upNodup := by simp [upward, held, PushSystem.start]
      downNodup := by simp [downward, handing, queued, PushSystem.start]
      returnedBound := by simp [PushSystem.start]
      current := by simp [PushSystem.start]
      fresh := by simp [PushSystem.start] }
  queues :=
    { commands := by simp [PushSystem.start]
      stopped := fun _ => rfl
      ended := fun _ => rfl
      confirming := by simp [queued, PushSystem.start] }
  deadlines := by simp [Deadlines, onTheWay, held, queued, PushSystem.start]
  answers :=
    { ackOk := by simp [PushSystem.start]
      ackError := by simp [PushSystem.start]
      returnedOk := by simp [PushSystem.start]
      returnedError := by simp [PushSystem.start]
      relay := by simp [Accepted, PushSystem.start]
      disposition := by simp [Accepted, PushSystem.start]
      installed := by simp [PushSystem.start] }
  image := by simp [Image, Accepted, PushSystem.start]

/-- In a system that keeps the invariant a refusal is final. -/
theorem PushInv.refusalFinal {s : PushSystem} (h : PushInv s) : RefusalFinal s where
  refused := fun call e hreturned bytes hinstalled =>
    h.answers.returnedError call e hreturned (h.answers.installed call bytes hinstalled)
  agrees := by
    intro hidle hok conn hconn
    obtain ⟨k, hk⟩ := hok
    refine (h.image conn hconn ⟨k, h.answers.returnedOk k hk⟩).2 fun w hw => ?_
    rw [hidle] at hw
    cases hw

/-! ## Consequences used by every step -/

section Facts

variable {s : PushSystem}

/-- No call has two verdicts. -/
theorem Tickets.verdicts_nodup (h : Tickets s) : (s.verdicts.map Prod.fst).Nodup :=
  (List.nodup_append.mp h.downNodup).2.1

/-- A call that is accepted has a verdict. -/
theorem Accepted.mem {k : ℕ} (h : Accepted s k) : k ∈ s.verdicts.map Prod.fst :=
  List.mem_map_of_mem h

/-- A call that is accepted is found so. -/
theorem Tickets.lookup_accepted (h : Tickets s) {k : ℕ} (hk : Accepted s k) :
    s.verdicts.lookup k = some (.ok ()) :=
  lookup_of_mem h.verdicts_nodup hk

end Facts

end EnipAdapter.Analysis
