import EnipAdapter.Foundation.Ticks
import EnipAdapter.Model.ForwardOpen
import EnipAdapter.Model.IoConnection
import EnipAdapter.Model.IoManager

/-!
# What the device receives

An O→T datagram as its receiver reads it, and what of a connection decides it: the negotiated
parameters, the output image and the run state. Everything else a connection carries may
change without the next frame telling.
-/

set_option autoImplicit false

namespace EnipAdapter.Interface

open EnipAdapter.Foundation EnipAdapter.Model

/-- The class-1 frame of a datagram, in the negotiated O→T format. -/
def receivedFrame (format : RealTimeFormat) (datagram : Bytes) : Option IoFrame := do
  let cpf ← (Cpf.decode datagram).toOption
  let item ← cpf.find .connectedData
  (IoFrame.decode format item.data).toOption

/-- Two states of a connection that produce alike. -/
structure SameProducer (c c' : IoConnection) : Prop where
  params : c'.params = c.params
  output : c'.output = c.output
  run : c'.run = c.run

namespace SameProducer

/-- A connection is its own producer. -/
theorem refl (c : IoConnection) : SameProducer c c := ⟨rfl, rfl, rfl⟩

/-- What stays the same twice stays the same. -/
theorem trans {a b c : IoConnection} (hab : SameProducer a b) (hbc : SameProducer b c) :
    SameProducer a c :=
  ⟨hbc.params.trans hab.params, hbc.output.trans hab.output, hbc.run.trans hab.run⟩

end SameProducer

/-- Every connection left produces like the one that was there under its id. -/
def KeepsProducers (conns conns' : Connections) : Prop :=
  ∀ (id : UInt32) (c' : IoConnection), conns'.lookup id = some c' →
    ∃ c, conns.lookup id = some c ∧ SameProducer c c'

namespace KeepsProducers

/-- A map keeps its own producers. -/
theorem refl (conns : Connections) : KeepsProducers conns conns :=
  fun _ c h => ⟨c, h, SameProducer.refl c⟩

/-- What is kept twice is kept. -/
theorem trans {a b c : Connections} (hab : KeepsProducers a b) (hbc : KeepsProducers b c) :
    KeepsProducers a c := by
  intro id conn h
  obtain ⟨mid, hmid, hsame⟩ := hbc id conn h
  obtain ⟨first, hfirst, hsame'⟩ := hab id mid hmid
  exact ⟨first, hfirst, hsame'.trans hsame⟩

/-- A connection replaced by one that produces alike. -/
theorem insert {conns : Connections} {id : UInt32} {c c' : IoConnection}
    (hlookup : conns.lookup id = some c) (hsame : SameProducer c c') :
    KeepsProducers conns (conns.insert id c') := by
  intro id' conn h
  by_cases hid : id' = id
  · subst hid
    rw [AList.lookup_insert] at h
    cases h
    exact ⟨c, hlookup, hsame⟩
  · rw [AList.lookup_insert_ne hid] at h
    exact ⟨conn, h, SameProducer.refl conn⟩

/-- Taking an entry away leaves the producers of the others. -/
theorem erase (conns : Connections) (id : UInt32) : KeepsProducers conns (conns.erase id) := by
  intro id' conn h
  by_cases hid : id' = id
  · subst hid
    rw [AList.lookup_erase] at h
    cases h
  · rw [AList.lookup_erase_ne hid] at h
    exact ⟨conn, h, SameProducer.refl conn⟩

/-- Nothing is asked of a map without entries. -/
theorem empty (conns : Connections) : KeepsProducers conns ∅ := by
  intro id conn h
  rw [AList.lookup_empty] at h
  cases h

end KeepsProducers

/-- A datagram that a connection produces: it decodes to the connection's frame at some
sequence. -/
def ProducedBy (c : IoConnection) (datagram : Bytes) : Prop :=
  ∃ c', SameProducer c c' ∧
    receivedFrame c.params.o2tFormat datagram = some c'.currentFrame

/-!
## The produce schedule

An O→T connection produces on a fixed cadence: a tick every API after the connection was built.
A poll that finds a tick due builds one frame, however many ticks have passed, and the passed
ones are counted as overruns. Here is a connection under a sequence of polls, with the frames it
built, and what it owes its schedule.
-/

/-- A connection under polls: the frames it has built, and the last poll that built one. -/
structure ProduceRun where
  conn : IoConnection
  frames : ℕ := 0
  lastFrameAt : Option Instant := none

namespace ProduceRun

def poll (r : ProduceRun) (now : Instant) : ProduceRun :=
  let polled := r.conn.pollProduce now
  if polled.2.isSome then ⟨polled.1, r.frames + 1, some now⟩ else { r with conn := polled.1 }

/-- A new connection, polled at the given instants. -/
def after (params : IoConnectionParams) (start : Instant) (polls : List Instant) : ProduceRun :=
  polls.foldl poll { conn := .new params start }

/-- Every tick up to here is served or counted: the last poll that built a frame, or the start. -/
def servedUpTo (r : ProduceRun) (start : Instant) : Instant := r.lastFrameAt.getD start

end ProduceRun

/-- What a poll after the given ones owes the schedule: a frame exactly where a tick is due that
no frame has served, the next tick armed after a frame, and every tick up to the last frame
either built or counted. -/
structure FollowsSchedule (params : IoConnectionParams) (start : Instant) (polls : List Instant)
    (now : Instant) : Prop where
  frame_iff : ((ProduceRun.after params start polls).conn.pollProduce now).2.isSome ↔
    ∃ t ∈ ticks start params.o2tApi,
      (ProduceRun.after params start polls).servedUpTo start < t ∧ t ≤ now
  rearmed : ((ProduceRun.after params start polls).conn.pollProduce now).2.isSome →
    IsLeast {t | t ∈ ticks start params.o2tApi ∧ now < t}
      ((ProduceRun.after params start polls).conn.pollProduce now).1.nextProduceAt
  accounted : (ProduceRun.after params start (polls ++ [now])).frames +
      (ProduceRun.after params start (polls ++ [now])).conn.counters.produceOverruns =
    (ticks start params.o2tApi ∩
      Set.Iic ((ProduceRun.after params start (polls ++ [now])).servedUpTo start)).ncard

/-- Polls in the order of time, each of which finds fewer than `2 ^ 32` ticks since the one
before, all of them but the one it serves missed. -/
def Paced (start : Instant) (api : Duration) : Instant → List Instant → Prop
  | _, [] => True
  | last, now :: rest =>
    last ≤ now ∧ ticksUpTo start api now < ticksUpTo start api last + 2 ^ 32 ∧
      Paced start api now rest

/-- The first tick after every poll is an instant that the clock can represent. -/
def TicksRepresentable (start : Instant) (api : Duration) (polls : List Instant) : Prop :=
  ∀ now ∈ polls, tickAfter start api now < Instant.limit

end EnipAdapter.Interface
