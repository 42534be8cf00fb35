import EnipAdapter.Foundation.Holders
import EnipAdapter.Foundation.Runs
import EnipAdapter.Model.IoManager

/-!
# Multicast groups of one socket

A connection may name the multicast group its T→O stream arrives on. The groups are joined on the
one socket of the manager: a join makes it a member, a leave ends the membership, and a task that
ends drops the socket with every membership it had.
-/

set_option autoImplicit false

namespace EnipAdapter.Interface

open EnipAdapter.Foundation EnipAdapter.Model

/-! ## The socket -/

/-- What an effect makes of the groups that the socket is a member of. -/
def onSocket (groups : Finset UInt32) : ManagerEffect → Finset UInt32
  | .joined group => insert group groups
  | .left group => groups.erase group
  | _ => groups

/-- A manager with the groups its socket is a member of. -/
structure IoSocket where
  manager : Manager
  groups : Finset UInt32

namespace IoSocket

def start : IoSocket := ⟨.start, ∅⟩

def step (s : IoSocket) (input : ManagerInput) : IoSocket :=
  let (m, effects) := s.manager.step input
  ⟨m, if m.running then effects.foldl onSocket s.groups else ∅⟩

/-- The group that a registered connection names. -/
def groupOf (conns : Connections) (id : UInt32) : Option UInt32 :=
  (conns.lookup id).bind (·.params.multicastGroup)

/-- The registered connections as holders of the groups they name. -/
def holding (s : IoSocket) : Holding UInt32 UInt32 :=
  ⟨groupOf s.manager.registry.conns, s.groups⟩

/-- A registered connection names the group. -/
def Named (s : IoSocket) (group : UInt32) : Prop :=
  ∃ id conn, s.manager.registry.conns.lookup id = some conn ∧
    conn.params.multicastGroup = some group

/-! ## Steps -/

/-- The connections that a scheduler tick loses. -/
def lostInTick (s : IoSocket) (now : Instant) (order : List UInt32)
    (sends : UInt32 → Except ErrorKind Unit) : List UInt32 :=
  let conns := s.manager.registry.conns
  (tickLoop now sends (iterationOrder conns order) conns).2.2.map Prod.fst

/-- A connection that is added has an id of its own. -/
def FreshAdd (s : IoSocket) : ManagerInput → Prop
  | .command (.add params _ _ _) _ =>
    s.manager.registry.conns.lookup params.t2oConnectionId = none
  | _ => True

/-- A join of a group that is joined already fails. -/
def JoinedFails (s : IoSocket) : ManagerInput → Prop
  | .command (.add params _ _ _) env =>
    ∀ group ∈ params.multicastGroup, group ∈ s.groups → ∃ kind, env.join = .error kind
  | _ => True

/-- No connection that the step takes out shares its group with one that stays. -/
def LeavesNoneBehind (s : IoSocket) : ManagerInput → Prop
  | .command (.remove id) _ => s.holding.SharesNothing [id]
  | .command (.add params _ _ _) env => env.ackOpen = false →
    ∀ group ∈ params.multicastGroup, ∀ id, groupOf s.manager.registry.conns id ≠ some group
  | .tick now order sends => s.holding.SharesNothing (s.lostInTick now order sends)
  | _ => True

end IoSocket

end EnipAdapter.Interface
