import EnipAdapter.Model.IoManager

/-!
# What a dropped datagram may touch

The drop counters of a registry, and a registry apart from them. The manager task does a
handful of things to its registry; a run of these, with the datagrams among them, is what an
observer of the connections sees: the events of accepted frames and the ticks at which a
watchdog is found expired.
-/

set_option autoImplicit false

namespace EnipAdapter.Interface

open EnipAdapter.Model

/-! ## Drop counters -/

/-- The counters a drop can move: three of the manager, two of each connection. -/
inductive DropCounter where
  | malformedFrames
  | unknownConnection
  | sourceMismatchDatagrams
  | sizeMismatch (id : UInt32)
  | staleFrames (id : UInt32)
deriving DecidableEq, Repr

/-- The drops a counter is for. -/
def DropCounter.reason : DropCounter → DropReason
  | .malformedFrames => .malformed
  | .unknownConnection => .unknownConnection
  | .sourceMismatchDatagrams => .sourceMismatch
  | .sizeMismatch _ => .sizeMismatch
  | .staleFrames _ => .stale

def dropCount (reg : Registry) : DropCounter → ℕ
  | .malformedFrames => reg.stats.malformedFrames
  | .unknownConnection => reg.stats.unknownConnection
  | .sourceMismatchDatagrams => reg.stats.sourceMismatchDatagrams
  | .sizeMismatch id => ((reg.conns.lookup id).map (·.counters.sizeMismatch)).getD 0
  | .staleFrames id => ((reg.conns.lookup id).map (·.counters.staleFrames)).getD 0

/-- A connection with its two drop counters blanked: everything else a connection has. -/
def withoutDrops (c : IoConnection) : IoConnection :=
  { c with counters := { c.counters with sizeMismatch := 0, staleFrames := 0 } }

/-- Two registries whose connections differ at most in their drop counters. -/
def SameButDrops (reg reg' : Registry) : Prop :=
  ∀ id, (reg'.conns.lookup id).map withoutDrops = (reg.conns.lookup id).map withoutDrops

/-- A drop leaves every connection as it was and counts once; an accepted frame touches its
own connection only. -/
def Inert (reg : Registry) : Registry × Routed → Prop
  | (reg', .dropped _ reason) =>
      SameButDrops reg reg' ∧
        ∃ k : DropCounter, k.reason = reason ∧ dropCount reg' k = dropCount reg k + 1 ∧
          ∀ k' ≠ k, dropCount reg' k' = dropCount reg k'
  | (reg', .accepted id _ _) =>
      reg'.stats = reg.stats ∧ ∀ id' ≠ id, reg'.conns.lookup id' = reg.conns.lookup id'

/-! ## Runs of the registry -/

/-- What the manager task does to its registry. `clear` is the end of the task, by shutdown or
on a dead socket. -/
inductive RegistryInput where
  | datagram (buf : Bytes) (srcIp : IpAddr) (now : Instant)
  | add (params : IoConnectionParams) (openedAt : Instant)
  | setOutput (connectionId : UInt32) (bytes : Bytes)
  | setRun (connectionId : UInt32) (run : Bool)
  | remove (connectionId : UInt32)
  | countRecvError
  | tick (now : Instant) (order : List UInt32) (sends : UInt32 → Except ErrorKind Unit)
  | clear

/-- Change one connection, if it is registered. -/
def updateConnection (reg : Registry) (id : UInt32) (f : IoConnection → IoConnection) :
    Registry :=
  match reg.conns.lookup id with
  | none => reg
  | some conn => { reg with conns := reg.conns.insert id (f conn) }

/-- The registry's part of a scheduler tick: produce and watch every connection, then remove
those that ended. -/
def tickRegistry (reg : Registry) (now : Instant) (order : List UInt32)
    (sends : UInt32 → Except ErrorKind Unit) : Registry :=
  let (conns, _, ended) := tickLoop now sends (iterationOrder reg.conns order) reg.conns
  { reg with conns := ended.foldl (fun conns p => conns.erase p.1) conns }

def registryStep (reg : Registry) : RegistryInput → Registry
  | .datagram buf srcIp now => (reg.consumeDatagram buf srcIp now).1
  | .add params openedAt =>
      let conn := IoConnection.new params openedAt
      { reg with conns := reg.conns.insert params.t2oConnectionId conn }
  | .setOutput id bytes => updateConnection reg id (·.setOutput bytes)
  | .setRun id run => updateConnection reg id (·.setRun run)
  | .remove id => { reg with conns := reg.conns.erase id }
  | .countRecvError =>
      { reg with stats := { reg.stats with recvErrors := reg.stats.recvErrors + 1 } }
  | .tick now order sends => tickRegistry reg now order sends
  | .clear => { reg with conns := ∅ }

/-! ## What a run shows -/

/-- The events of a routed datagram: `Up` on the first accepted frame, then its data. -/
def routedEvents (conns : Connections) : Routed → List (UInt32 × IoEvent)
  | .dropped _ _ => []
  | .accepted id first update =>
      let up :=
        if first then
          (conns.lookup id).map (fun c => IoEvent.up c.params.o2tApi c.params.t2oApi)
        else none
      (up.toList ++ [IoEvent.data update]).map (Prod.mk id)

/-- The events of one step. -/
def stepEvents (reg : Registry) : RegistryInput → List (UInt32 × IoEvent)
  | .datagram buf srcIp now =>
      let (reg, routed) := reg.consumeDatagram buf srcIp now
      routedEvents reg.conns routed
  | _ => []

/-- The events of a run, in order; its updates are the ones the `data` events carry. -/
def runEvents : Registry → List RegistryInput → List (UInt32 × IoEvent)
  | _, [] => []
  | reg, input :: inputs => stepEvents reg input ++ runEvents (registryStep reg input) inputs

/-- The tick at which the watchdog of a connection is first found expired. -/
def firstExpiry (id : UInt32) : Registry → List RegistryInput → Option Instant
  | _, [] => none
  | reg, .tick now order sends :: inputs =>
      if (reg.conns.lookup id).any (·.pollWatchdog now) then some now
      else firstExpiry id (tickRegistry reg now order sends) inputs
  | reg, input :: inputs => firstExpiry id (registryStep reg input) inputs

/-- Two runs that take the same steps but for datagrams that are dropped on arrival. -/
inductive DifferByDrops :
    Registry → List RegistryInput → Registry → List RegistryInput → Prop where
  | nil (a b : Registry) : DifferByDrops a [] b []
  | both {a b : Registry} {xs ys : List RegistryInput} (input : RegistryInput)
      (h : DifferByDrops (registryStep a input) xs (registryStep b input) ys) :
      DifferByDrops a (input :: xs) b (input :: ys)
  | left {a b : Registry} {xs ys : List RegistryInput} {buf : Bytes} {srcIp : IpAddr}
      {now : Instant} {id : Option UInt32} {reason : DropReason}
      (hdrop : (a.consumeDatagram buf srcIp now).2 = .dropped id reason)
      (h : DifferByDrops (a.consumeDatagram buf srcIp now).1 xs b ys) :
      DifferByDrops a (.datagram buf srcIp now :: xs) b ys
  | right {a b : Registry} {xs ys : List RegistryInput} {buf : Bytes} {srcIp : IpAddr}
      {now : Instant} {id : Option UInt32} {reason : DropReason}
      (hdrop : (b.consumeDatagram buf srcIp now).2 = .dropped id reason)
      (h : DifferByDrops a xs (b.consumeDatagram buf srcIp now).1 ys) :
      DifferByDrops a xs b (.datagram buf srcIp now :: ys)

end EnipAdapter.Interface
