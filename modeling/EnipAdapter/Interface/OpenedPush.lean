import EnipAdapter.Foundation.Runs
import EnipAdapter.Interface.AcceptedConfig
import EnipAdapter.Interface.ProducedFrame
import EnipAdapter.Model.PushSession

/-!
# What opening a push session establishes

`OpenedPush` collects what is true of a session the moment it is open: nothing is under way,
the session's image is the zeroed one, and the manager has at most the one connection of the
configured format, which holds no output yet and is in run.
-/

set_option autoImplicit false

namespace EnipAdapter.Interface

open EnipAdapter.Foundation EnipAdapter.Model

/-- The O→T format a block asks for. -/
def o2tFormat (io : IoConfig) : RealTimeFormat :=
  (io.output.map (·.realTimeFormat.toEnip)).getD .heartbeat

/-- The O→T size a block asks for. -/
def o2tSize (io : IoConfig) : ℕ := (io.output.map (·.sizeBytes)).getD 0

/-- A push session that was just opened for a block. -/
structure OpenedPush (io : IoConfig) (s : PushSystem) : Prop where
  /-- Nothing is under way. -/
  fresh : s = PushSystem.start s.session s.handle s.manager s.now
  layout : io.outputLayout = .ok s.session.outLayout
  image : s.session.outBuf = List.replicate (o2tSize io) 0
  /-- The manager knows no other connection, and this one as it was built. -/
  connection : ∀ (id : UInt32) (conn : IoConnection),
    s.manager.registry.conns.lookup id = some conn → id = s.handle.connectionId ∧
      conn.params.o2tFormat = o2tFormat io ∧ conn.output = [] ∧ conn.run = true

/-- A layout of the output block has the block's size. -/
theorem outputLayout_dataSize {io : IoConfig} {layout : AssemblyLayout}
    (h : io.outputLayout = .ok (some layout)) : layout.dataSize = o2tSize io := by
  unfold IoConfig.outputLayout at h
  split at h
  · rename_i out hout
    split at h
    · cases h
    · simp only [buildLayout] at h
      cases hnew : AssemblyLayout.new
          (out.signals.zipIdx.map fun p => p.1.toEnipField p.2) out.sizeBytes with
      | error e =>
        rw [hnew] at h
        cases h
      | ok built =>
        rw [hnew] at h
        cases h
        rw [(AssemblyLayout.new_ok hnew).2, o2tSize, hout]
        rfl
  · cases h

/-- The spec asks for the block's O→T format. -/
theorem ioSpec_format {conn : ConnectionConfig} {io : IoConfig} {vendorId : UInt16}
    {spec : IoConnectionSpec} (h : ioSpec conn io vendorId = .ok spec) :
    spec.o2t.format = o2tFormat io := by
  unfold ioSpec at h
  cases hm : io.timeoutMultiplierEnip with
  | error e =>
    simp only [hm] at h
    cases h
  | ok multiplier =>
    simp only [hm] at h
    cases h
    cases hout : io.output <;> simp [o2tFormat, hout]

/-- Adding a connection to a manager without any leaves at most that one. -/
theorem armConnection_fresh {params : IoConnectionParams} {env : OpenEnv} {m : Manager}
    {join : Except ErrorKind Unit} {result : Except EnipError Unit}
    (hlink : env.link = .served Manager.start join)
    (h : armConnection params env = (some m, result)) (id : UInt32) (conn : IoConnection)
    (hconn : m.registry.conns.lookup id = some conn) :
    id = params.t2oConnectionId ∧ conn = IoConnection.new params env.now := by
  simp only [armConnection, hlink, Manager.step, Manager.start, Manager.command,
    Manager.addConnection, if_true] at h
  split at h
  · cases h
    cases hconn
  · cases h
    by_cases hid : id = params.t2oConnectionId
    · subst hid
      simp only [AList.lookup_insert, Option.some.injEq] at hconn
      exact ⟨rfl, hconn.symm⟩
    · simp only [AList.lookup_insert_ne hid] at hconn
      cases hconn

/-- An open that succeeded armed the connection of its handle. -/
theorem forwardOpen_ok {localPort : UInt16} {spec : IoConnectionSpec} {env : OpenEnv}
    {m : Manager} {handle : IoConnectionHandle}
    (hm : (forwardOpen localPort spec env).manager = some m)
    (hhandle : (forwardOpen localPort spec env).result = .ok handle) :
    ∃ params : IoConnectionParams, armConnection params env = (some m, .ok ()) ∧
      params.o2tFormat = spec.o2t.format ∧ params.t2oConnectionId = handle.connectionId := by
  obtain ⟨run, hrun⟩ : ∃ run, forwardOpen localPort spec env = run := ⟨_, rfl⟩
  rw [hrun] at hm hhandle
  -- every branch but the last leaves an error
  simp only [forwardOpen] at hrun
  split at hrun
  · subst hrun
    cases hhandle
  · split at hrun
    · subst hrun
      cases hhandle
    · split at hrun
      · subst hrun
        cases hhandle
      · split at hrun
        · subst hrun
          cases hhandle
        · split at hrun
          · subst hrun
            cases hhandle
          · split at hrun
            · subst hrun
              cases hhandle
            · rename_i params hparams
              obtain ⟨hformat, hid⟩ := negotiate_ok hparams
              split at hrun
              · subst hrun
                cases hhandle
              · rename_i harm
                subst hrun
                cases hm
                cases hhandle
                exact ⟨params, harm, hformat, hid⟩

/-- Opening a push session establishes it. -/
theorem openedPush_of_open {conn : ConnectionConfig} {io : IoConfig} {requestTimeout : Duration}
    {vendorId localPort : UInt16} {join : Except ErrorKind Unit} {env : OpenEnv} {s : PushSystem}
    (h : openPushSession conn io requestTimeout vendorId localPort join env = .ok s) :
    OpenedPush io s := by
  simp only [openPushSession, bind_ok, mapError_ok] at h
  obtain ⟨_, _, layout, hlayout, spec, hspec, h⟩ := h
  split at h
  · rename_i m handle hm hhandle
    cases h
    obtain ⟨params, harm, hformat, hid⟩ := forwardOpen_ok hm hhandle
    refine ⟨rfl, hlayout, rfl, fun id c hc => ?_⟩
    obtain ⟨hkey, rfl⟩ := armConnection_fresh rfl harm id c hc
    exact ⟨hkey.trans hid, hformat.trans (ioSpec_format hspec), rfl, rfl⟩
  · cases h
  · cases h

/-!
## What a push write promises

A call of `set_output` that returns an error leaves no trace at the device, and between calls
the producer holds the session's own image. Both are stated of a state of the whole system;
the schedule that led there is any list of inputs.
-/

/-- A refused write never reaches the producer, and between calls the producer holds what the
session holds. -/
structure RefusalFinal (s : PushSystem) : Prop where
  /-- The image of a call that returned an error was not installed. -/
  refused : ∀ (call : ℕ) (e : DeviceError), (call, .error e) ∈ s.returned →
    ∀ bytes : Bytes, (call, bytes) ∉ s.installed
  /-- Between calls, once a write was accepted, the output of a live connection is the
  session's image. -/
  agrees : s.state = .idle → (∃ call : ℕ, (call, .ok ()) ∈ s.returned) →
    ∀ conn : IoConnection, s.manager.registry.conns.lookup s.handle.connectionId = some conn →
      conn.output = s.session.outBuf

/-- The session's next turn gives up, at the deadline, on a write for which the manager's
acceptance waits at the translator. -/
def givesUpLate (s : PushSystem) : Bool :=
  match s.state with
  | .awaiting w =>
    decide (s.acks.lookup w.call = none) && decide (w.deadline ≤ s.now) &&
      decide (s.verdicts.lookup w.call = some (.ok ()))
  | _ => false

/-- The step is not such a giving up. -/
def NoLateAcceptance (s : PushSystem) : PushInput → Prop
  | .session => givesUpLate s = false
  | _ => True

instance (s : PushSystem) : (input : PushInput) → Decidable (NoLateAcceptance s input)
  | .session => inferInstanceAs (Decidable (givesUpLate s = false))
  | .advance _ | .call _ _ | .translator _ | .manager _ => .isTrue trivial

end EnipAdapter.Interface
