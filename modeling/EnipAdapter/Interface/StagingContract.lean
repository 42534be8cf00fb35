import EnipAdapter.Model.OutputStaging

/-!
# What a staging verdict promises

`stage_output` and `stage_output_by` confirm: a caller that is told `Ok` knows that its buffer
was put in front of its connection's producer, and one that is told an error knows that it was
not and never will be. The record of a run says which buffers the manager accepted, for which
connection and on whose behalf. A connection is what its T→O connection id names, the key the
manager routes by; it starts with an empty output when it is registered.
-/

set_option autoImplicit false

namespace EnipAdapter.Interface

open EnipAdapter.Model

/-- The buffers a record says were accepted on behalf of a call, with their connections. -/
def acceptedFor (record : List StagingRecord) (call : ℕ) : List (UInt32 × Bytes) :=
  record.filterMap fun
    | .accepted id bytes (some n) => if n = call then some (id, bytes) else none
    | _ => none

/-- What one entry of a record makes of a connection's output. -/
def recordedOutput (connectionId : UInt32) (output : Bytes) : StagingRecord → Bytes
  | .opened id => if id = connectionId then [] else output
  | .accepted id bytes _ => if id = connectionId then bytes else output

/-- The buffer of the last command accepted for a connection, and where there is none the
output it had before the record began. -/
def lastAccepted (before : Manager) (record : List StagingRecord) (connectionId : UInt32) : Bytes :=
  record.foldl (recordedOutput connectionId)
    (((before.registry.conns.lookup connectionId).map (·.output)).getD [])

/-- The verdicts of a run that began with the manager `before` tell the truth. -/
structure VerdictsTrue (before : Manager) (s : StagingSystem) : Prop where
  /-- A call that returned `Ok` had its buffer accepted once, for its own connection. -/
  confirmed : ∀ (n : ℕ) (c : StageCall), s.calls[n]? = some c → c.state = .returned (.ok ()) →
    acceptedFor s.record n = [(c.handle.connectionId, c.bytes)]
  /-- A call that returned an error never had its buffer accepted. -/
  refused : ∀ (n : ℕ) (c : StageCall) (e : EnipError), s.calls[n]? = some c →
    c.state = .returned (.error e) → acceptedFor s.record n = []
  /-- A connection's output is the last buffer accepted for it. -/
  output : ∀ (id : UInt32) (conn : IoConnection),
    s.manager.registry.conns.lookup id = some conn →
      conn.output = lastAccepted before s.record id

/-- What a run cannot take back: a call that has returned stays as it is, and nothing is taken
out of the record. -/
structure KeepsReturned (s t : StagingSystem) : Prop where
  calls : ∀ (n : ℕ) (c : StageCall) (result : Except EnipError Unit), s.calls[n]? = some c →
    c.state = .returned result → t.calls[n]? = some c
  record : s.record <+: t.record

namespace KeepsReturned

/-- A step that touches no call. -/
theorem of_calls {s t : StagingSystem} (hcalls : t.calls = s.calls)
    (hrecord : s.record <+: t.record) : KeepsReturned s t where
  calls := by
    intro n c result hc _
    rw [hcalls]
    exact hc
  record := hrecord

/-- A system keeps what it has returned itself. -/
theorem refl (s : StagingSystem) : KeepsReturned s s := of_calls rfl (List.prefix_refl s.record)

/-- What is kept by two runs is kept by one after the other. -/
theorem trans {s t u : StagingSystem} (hst : KeepsReturned s t) (htu : KeepsReturned t u) :
    KeepsReturned s u where
  calls := by
    intro n c result hc hstate
    exact htu.calls n c result (hst.calls n c result hc hstate) hstate
  record := hst.record.trans htu.record

end KeepsReturned

end EnipAdapter.Interface
