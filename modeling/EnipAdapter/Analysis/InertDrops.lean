import EnipAdapter.Analysis.EventStreamProof
import EnipAdapter.Analysis.SequenceAgreement
import EnipAdapter.Foundation.Runs
import EnipAdapter.Interface.DropContract

/-!
# Dropped datagrams are inert

A connection never reads its drop counters, so two registries that agree but for them answer
every input alike; a dropped datagram only moves one such counter. Both facts together let
dropped datagrams be put into a run, or taken out, with nothing to be seen of it.
-/

set_option autoImplicit false

namespace EnipAdapter.Analysis

open EnipAdapter.Foundation EnipAdapter.Model EnipAdapter.Interface

/-! ## Connections apart from their drop counters -/

/-- A connection with other drop counters. -/
def withDrops (c : IoConnection) (sizeMismatch staleFrames : ℕ) : IoConnection :=
  { c with counters := { c.counters with
      sizeMismatch := sizeMismatch
      staleFrames := staleFrames } }

/-- Connections that differ in their drop counters only are one with its counters set. -/
theorem eq_withDrops {c c' : IoConnection} (h : withoutDrops c' = withoutDrops c) :
    c' = withDrops c c'.counters.sizeMismatch c'.counters.staleFrames := by
  obtain ⟨params, seq, encap, output, run, next, errors, last, up, deadline, counters⟩ := c
  obtain ⟨params', seq', encap', output', run', next', errors', last', up', deadline',
    counters'⟩ := c'
  simp only [withoutDrops, IoConnection.mk.injEq, ConnCounters.mk.injEq] at h
  obtain ⟨rfl, rfl, rfl, rfl, rfl, rfl, rfl, rfl, rfl, rfl, ha, hp, -, -, hg, ho, hs⟩ := h
  simp only [withDrops, IoConnection.mk.injEq]
  simp [← ha, ← hp, ← hg, ← ho, ← hs]

/-- A connection consumes a frame without looking at its drop counters. -/
theorem consume_withDrops (c : IoConnection) (m n : ℕ) (data : Bytes) (seq : UInt32)
    (now : Instant) :
    ∃ m' n', (withDrops c m n).consume data seq now =
      (withDrops (c.consume data seq now).1 m' n', (c.consume data seq now).2) := by
  have hparams : (withDrops c m n).params = c.params := rfl
  have hlast : (withDrops c m n).lastAcceptedSeq = c.lastAcceptedSeq := rfl
  unfold IoConnection.consume
  rw [hparams, hlast]
  cases IoFrame.decode c.params.t2oFormat data with
  | error e => exact ⟨m + 1, n, rfl⟩
  | ok frame =>
    simp only
    by_cases hbad : (if c.params.t2oFixed then decide (frame.data.length ≠ c.params.t2oDataSize)
        else decide (frame.data.length > c.params.t2oDataSize)) = true
    · rw [if_pos hbad, if_pos hbad]
      exact ⟨m + 1, n, rfl⟩
    · rw [if_neg hbad, if_neg hbad]
      cases frame.sequence with
      | none => exact ⟨m, n, rfl⟩
      | some s =>
        cases c.lastAcceptedSeq with
        | none => exact ⟨m, n, rfl⟩
        | some last =>
          simp only
          by_cases hdelta : IoConnection.sequenceDelta s last ≤ 0
          · rw [if_pos hdelta, if_pos hdelta]
            exact ⟨m, n + 1, rfl⟩
          · rw [if_neg hdelta, if_neg hdelta]
            exact ⟨m, n, rfl⟩

/-- Nor does it look at them when it produces. -/
theorem pollProduce_withDrops (c : IoConnection) (m n : ℕ) (now : Instant) :
    (withDrops c m n).pollProduce now =
      (withDrops (c.pollProduce now).1 m n, (c.pollProduce now).2) := by
  unfold IoConnection.pollProduce
  have hnext : (withDrops c m n).nextProduceAt = c.nextProduceAt := rfl
  rw [hnext]
  by_cases hdue : now < c.nextProduceAt
  · rw [if_pos hdue, if_pos hdue]
  · rw [if_neg hdue, if_neg hdue]
    rfl

/-- A send is recorded alike whatever the drop counters. -/
theorem recordSend_withDrops (c : IoConnection) (m n : ℕ) (result : Except ErrorKind Unit) :
    (withDrops c m n).recordSend result =
      (withDrops (c.recordSend result).1 m n, (c.recordSend result).2) := by
  cases result with
  | ok u => rfl
  | error kind =>
    simp only [IoConnection.recordSend]
    cases isPerDatagramError kind with
    | true => rfl
    | false =>
      simp only [Bool.false_eq_true, if_false]
      by_cases hdead : min (c.consecutiveSendErrors + 1) (2 ^ 32 - 1) ≥ maxConsecutiveSendErrors
      · rw [if_pos hdead]
        exact if_pos hdead
      · rw [if_neg hdead]
        exact if_neg hdead

/-- A tick is the same whatever the drop counters. -/
theorem tickConnection_withDrops (c : IoConnection) (m n : ℕ) (now : Instant)
    (send : Except ErrorKind Unit) :
    tickConnection (withDrops c m n) now send =
      (withDrops (tickConnection c now send).1 m n, (tickConnection c now send).2) := by
  unfold tickConnection
  rw [pollProduce_withDrops]
  obtain ⟨⟨c', produced⟩, hp⟩ : ∃ r, c.pollProduce now = r := ⟨_, rfl⟩
  rw [hp]
  cases produced with
  | none => rfl
  | some out =>
    simp only
    rw [recordSend_withDrops]
    rfl

/-! ## Routing -/

/-- The address and the payload of a datagram of class-1 shape. -/
def addressed (buf : Bytes) : Option (SequencedAddress × Bytes) := do
  let cpf ← (Cpf.decode buf).toOption
  let addrItem ← cpf.find .sequencedAddress
  let dataItem ← cpf.find .connectedData
  let addr ← (SequencedAddress.decode addrItem.data).toOption
  pure (addr, dataItem.data)

/-- A connection's verdict on a frame as the registry reports it. -/
def routedOf (id : UInt32) : ConsumeOutcome → Routed
  | .accepted first update => .accepted id first update
  | .dropped reason => .dropped (some id) reason

/-- What routing does with a datagram, by whom it addresses. -/
theorem consumeDatagram_eq (reg : Registry) (buf : Bytes) (ip : IpAddr) (now : Instant) :
    reg.consumeDatagram buf ip now =
      match addressed buf with
      | none => reg.dropMalformed
      | some (addr, data) =>
          match reg.conns.lookup addr.connectionId with
          | none =>
              ({ reg with stats := { reg.stats with
                  unknownConnection := reg.stats.unknownConnection + 1 } },
                .dropped (some addr.connectionId) .unknownConnection)
          | some conn =>
              if ip ≠ conn.params.expectedSourceIp then
                ({ reg with stats := { reg.stats with
                    sourceMismatchDatagrams := reg.stats.sourceMismatchDatagrams + 1 } },
                  .dropped (some addr.connectionId) .sourceMismatch)
              else
                let r := conn.consume data addr.encapSequence now
                ({ reg with conns := reg.conns.insert addr.connectionId r.1 },
                  routedOf addr.connectionId r.2) := by
  unfold Registry.consumeDatagram addressed
  cases Cpf.decode buf with
  | error e => rfl
  | ok cpf =>
    simp only [Except.toOption, Option.bind_eq_bind, Option.bind_some]
    cases cpf.find .sequencedAddress with
    | none => rfl
    | some addrItem =>
      cases cpf.find .connectedData with
      | none => rfl
      | some dataItem =>
        simp only [Option.bind_some]
        cases SequencedAddress.decode addrItem.data with
        | error e => rfl
        | ok addr =>
          simp only [Option.bind_some, pure]
          cases reg.conns.lookup addr.connectionId with
          | none => rfl
          | some conn =>
            simp only
            split
            · rfl
            · cases (conn.consume dataItem.data addr.encapSequence now).2 <;> rfl

/-! ## A drop counts once -/

/-- A connection that drops a frame moves the counter of the reason, and nothing else. -/
def DropCounted (c : IoConnection) : IoConnection × ConsumeOutcome → Prop
  | (c', .dropped reason) =>
      (reason = .sizeMismatch ∧
          c' = withDrops c (c.counters.sizeMismatch + 1) c.counters.staleFrames) ∨
        reason = .stale ∧
          c' = withDrops c c.counters.sizeMismatch (c.counters.staleFrames + 1)
  | (_, .accepted _ _) => True

/-- A dropped frame moves one drop counter and nothing else. -/
theorem consume_dropCounted (c : IoConnection) (data : Bytes) (seq : UInt32) (now : Instant) :
    DropCounted c (c.consume data seq now) := by
  unfold IoConnection.consume
  cases IoFrame.decode c.params.t2oFormat data with
  | error e => exact .inl ⟨rfl, rfl⟩
  | ok frame =>
    simp only
    by_cases hbad : (if c.params.t2oFixed then decide (frame.data.length ≠ c.params.t2oDataSize)
        else decide (frame.data.length > c.params.t2oDataSize)) = true
    · rw [if_pos hbad]
      exact .inl ⟨rfl, rfl⟩
    · rw [if_neg hbad]
      cases frame.sequence with
      | none => exact trivial
      | some s =>
        cases hlast : c.lastAcceptedSeq with
        | none => exact trivial
        | some last =>
          simp only
          by_cases hdelta : IoConnection.sequenceDelta s last ≤ 0
          · rw [if_pos hdelta]
            refine .inr ⟨rfl, ?_⟩
            simp only [withDrops, hlast]
          · rw [if_neg hdelta]
            exact trivial

/-- Every registry is itself but for the drops. -/
theorem sameButDrops_refl (reg : Registry) : SameButDrops reg reg := fun _ => rfl

/-- The relation is symmetric. -/
theorem sameButDrops_symm {reg reg' : Registry} (h : SameButDrops reg reg') :
    SameButDrops reg' reg := fun id => (h id).symm

/-- The relation is transitive. -/
theorem sameButDrops_trans {a b c : Registry} (hab : SameButDrops a b) (hbc : SameButDrops b c) :
    SameButDrops a c := fun id => (hbc id).trans (hab id)

/-- Putting connections that agree under one id keeps the agreement. -/
theorem sameButDrops_insert {reg reg' : Registry} (h : SameButDrops reg reg') (id : UInt32)
    {c c' : IoConnection} (hc : withoutDrops c' = withoutDrops c) :
    SameButDrops { reg with conns := reg.conns.insert id c }
      { reg' with conns := reg'.conns.insert id c' } := by
  intro id'
  show ((reg'.conns.insert id c').lookup id').map withoutDrops =
    ((reg.conns.insert id c).lookup id').map withoutDrops
  by_cases hid : id' = id
  · subst hid
    rw [AList.lookup_insert, AList.lookup_insert, Option.map_some, Option.map_some, hc]
  · rw [AList.lookup_insert_ne hid, AList.lookup_insert_ne hid]
    exact h id'

/-- A connection put back with other drop counters leaves the registry as it was. -/
theorem sameButDrops_put {reg : Registry} {id : UInt32} {c : IoConnection} (m n : ℕ)
    (hlookup : reg.conns.lookup id = some c) :
    SameButDrops reg { reg with conns := reg.conns.insert id (withDrops c m n) } := by
  intro id'
  show ((reg.conns.insert id (withDrops c m n)).lookup id').map withoutDrops = _
  by_cases hid : id' = id
  · subst hid
    rw [AList.lookup_insert, hlookup]
    rfl
  · rw [AList.lookup_insert_ne hid]

/-- The drop counters after a connection is put back with other ones. -/
theorem dropCount_put {reg : Registry} {id : UInt32} (c : IoConnection) (m n : ℕ)
    (k : DropCounter) :
    dropCount { reg with conns := reg.conns.insert id (withDrops c m n) } k =
      if k = .sizeMismatch id then m else if k = .staleFrames id then n else dropCount reg k := by
  cases k with
  | sizeMismatch id' =>
    by_cases hid : id' = id
    · subst hid
      simp [dropCount, withDrops]
    · simp [dropCount, hid]
  | staleFrames id' =>
    by_cases hid : id' = id
    · subst hid
      simp [dropCount, withDrops]
    · simp [dropCount, hid]
  | _ => rfl

/-- A counter of a connection, read back. -/
theorem dropCount_lookup {reg : Registry} {id : UInt32} {c : IoConnection}
    (hlookup : reg.conns.lookup id = some c) :
    dropCount reg (.sizeMismatch id) = c.counters.sizeMismatch ∧
      dropCount reg (.staleFrames id) = c.counters.staleFrames := by
  simp [dropCount, hlookup]

/-- Every datagram that is dropped is inert, and an accepted one touches its own connection. -/
theorem consumeDatagram_inert (reg : Registry) (buf : Bytes) (ip : IpAddr) (now : Instant) :
    Inert reg (reg.consumeDatagram buf ip now) := by
  rw [consumeDatagram_eq]
  cases addressed buf with
  | none =>
    refine ⟨sameButDrops_refl reg, .malformedFrames, rfl, rfl, fun k' hk => ?_⟩
    cases k' with
    | malformedFrames => exact absurd rfl hk
    | _ => rfl
  | some a =>
    obtain ⟨addr, data⟩ := a
    simp only
    cases hlookup : reg.conns.lookup addr.connectionId with
    | none =>
      refine ⟨sameButDrops_refl reg, .unknownConnection, rfl, rfl, fun k' hk => ?_⟩
      cases k' with
      | unknownConnection => exact absurd rfl hk
      | _ => rfl
    | some conn =>
      simp only
      by_cases hip : ip ≠ conn.params.expectedSourceIp
      · rw [if_pos hip]
        refine ⟨sameButDrops_refl reg, .sourceMismatchDatagrams, rfl, rfl, fun k' hk => ?_⟩
        cases k' with
        | sourceMismatchDatagrams => exact absurd rfl hk
        | _ => rfl
      · rw [if_neg hip]
        have hcounted := consume_dropCounted conn data addr.encapSequence now
        obtain ⟨⟨conn', outcome⟩, hr⟩ : ∃ r, conn.consume data addr.encapSequence now = r :=
          ⟨_, rfl⟩
        rw [hr] at hcounted ⊢
        cases outcome with
        | accepted first update =>
          exact ⟨rfl, fun id' hid => AList.lookup_insert_ne hid⟩
        | dropped reason =>
          obtain ⟨hsize, hstale⟩ := dropCount_lookup hlookup
          rcases hcounted with ⟨rfl, rfl⟩ | ⟨rfl, rfl⟩
          · refine ⟨sameButDrops_put _ _ hlookup, .sizeMismatch addr.connectionId, rfl, ?_,
              fun k' hk => ?_⟩
            · rw [dropCount_put, if_pos rfl, hsize]
            · rw [dropCount_put, if_neg hk, ← hstale]
              split <;> simp_all
          · refine ⟨sameButDrops_put _ _ hlookup, .staleFrames addr.connectionId, rfl, ?_,
              fun k' hk => ?_⟩
            · rw [dropCount_put, if_neg (by simp), if_pos rfl, hstale]
            · rw [dropCount_put, if_neg hk, ← hsize]
              split <;> simp_all

/-! ## A tick, connection by connection -/

/-- A pass over distinct ids ticks each of their connections once. -/
theorem tickLoop_lookup_of_nodup (now : Instant) (sends : UInt32 → Except ErrorKind Unit)
    {ids : List UInt32} (hnodup : ids.Nodup) (conns : Connections) (id : UInt32) :
    (tickLoop now sends ids conns).1.lookup id =
      if id ∈ ids then (conns.lookup id).map (fun c => (tickConnection c now (sends id)).1)
      else conns.lookup id := by
  induction ids generalizing conns with
  | nil => rfl
  | cons i ids ih =>
    obtain ⟨hi, hnodup⟩ := List.nodup_cons.mp hnodup
    rw [tickLoop]
    cases hc : conns.lookup i with
    | none =>
      simp only
      rw [ih hnodup]
      by_cases hid : id = i
      · subst hid
        simp [hi, hc]
      · simp [hid]
    | some c =>
      simp only
      rw [ih hnodup]
      by_cases hid : id = i
      · subst hid
        simp [hi, hc]
      · simp [hid]

/-- It collects the connections of these ids that end. -/
theorem mem_tickLoop_ended (now : Instant) (sends : UInt32 → Except ErrorKind Unit)
    {ids : List UInt32} (hnodup : ids.Nodup) (conns : Connections) (id : UInt32) :
    id ∈ (tickLoop now sends ids conns).2.2.map Prod.fst ↔
      id ∈ ids ∧ (conns.lookup id).any (fun c => (tickConnection c now (sends id)).2.2.isSome) := by
  induction ids generalizing conns with
  | nil => simp [tickLoop]
  | cons i ids ih =>
    obtain ⟨hi, hnodup⟩ := List.nodup_cons.mp hnodup
    rw [tickLoop]
    cases hc : conns.lookup i with
    | none =>
      simp only
      rw [ih hnodup]
      by_cases hid : id = i
      · subst hid
        simp [hi, hc]
      · simp [hid]
    | some c =>
      simp only [List.map_append, List.mem_append]
      rw [ih hnodup]
      by_cases hid : id = i
      · subst hid
        cases hlost : (tickConnection c now (sends id)).2.2 <;> simp [hi, hc, hlost]
      · cases (tickConnection c now (sends i)).2.2 <;> simp [hid]

/-- Removing what ended, one after the other. -/
theorem lookup_foldl_erase (ended : List (UInt32 × LostReason)) (conns : Connections)
    (id : UInt32) :
    (ended.foldl (fun conns p => conns.erase p.1) conns).lookup id =
      if id ∈ ended.map Prod.fst then none else conns.lookup id := by
  induction ended generalizing conns with
  | nil => rfl
  | cons p rest ih =>
    rw [List.foldl_cons, ih, List.map_cons]
    by_cases hid : id = p.1
    · subst hid
      simp
    · rw [AList.lookup_erase_ne hid]
      simp only [List.mem_cons, hid, false_or]

/-- The order of a tick visits every connection once. -/
theorem iterationOrder_perm (conns : Connections) (order : List UInt32) :
    (iterationOrder conns order).Perm conns.keys := by
  unfold iterationOrder
  split
  · assumption
  · exact List.Perm.refl _

/-- What a tick leaves of a connection: nothing if it ended, else the connection ticked. -/
def tickedConnection (now : Instant) (send : Except ErrorKind Unit) (c : IoConnection) :
    Option IoConnection :=
  let (c, _, lost) := tickConnection c now send
  if lost.isSome then none else some c

/-- The order in which a tick visits the connections does not matter. -/
theorem tickRegistry_lookup (reg : Registry) (now : Instant) (order : List UInt32)
    (sends : UInt32 → Except ErrorKind Unit) (id : UInt32) :
    (tickRegistry reg now order sends).conns.lookup id =
      (reg.conns.lookup id).bind (tickedConnection now (sends id)) := by
  have hperm := iterationOrder_perm reg.conns order
  have hnodup : (iterationOrder reg.conns order).Nodup :=
    hperm.nodup_iff.mpr reg.conns.nodupKeys
  have hmem : id ∈ iterationOrder reg.conns order ↔ (reg.conns.lookup id).isSome := by
    rw [hperm.mem_iff, AList.lookup_isSome]
    rfl
  show ((tickLoop now sends _ reg.conns).2.2.foldl _ (tickLoop now sends _ reg.conns).1).lookup
    id = _
  simp only [lookup_foldl_erase, mem_tickLoop_ended now sends hnodup,
    tickLoop_lookup_of_nodup now sends hnodup, hmem]
  cases reg.conns.lookup id with
  | none => rfl
  | some c => simp [tickedConnection]

/-! ## Runs -/

/-- Registries that agree but for drop counters have agreeing connections, or none. -/
theorem sameButDrops_lookup {a b : Registry} (h : SameButDrops a b) (id : UInt32) :
    (a.conns.lookup id = none ∧ b.conns.lookup id = none) ∨
      ∃ c m n, a.conns.lookup id = some c ∧ b.conns.lookup id = some (withDrops c m n) := by
  have hid := h id
  cases ha : a.conns.lookup id with
  | none =>
    rw [ha] at hid
    cases hb : b.conns.lookup id with
    | none => exact .inl ⟨rfl, rfl⟩
    | some c' =>
      rw [hb] at hid
      cases hid
  | some c =>
    rw [ha] at hid
    cases hb : b.conns.lookup id with
    | none =>
      rw [hb] at hid
      cases hid
    | some c' =>
      rw [hb] at hid
      have hc : withoutDrops c' = withoutDrops c := Option.some.inj hid
      refine .inr ⟨c, c'.counters.sizeMismatch, c'.counters.staleFrames, rfl, ?_⟩
      rw [← eq_withDrops hc]

/-- They route a datagram alike. -/
theorem consumeDatagram_sameButDrops {a b : Registry} (h : SameButDrops a b) (buf : Bytes)
    (ip : IpAddr) (now : Instant) :
    SameButDrops (a.consumeDatagram buf ip now).1 (b.consumeDatagram buf ip now).1 ∧
      (b.consumeDatagram buf ip now).2 = (a.consumeDatagram buf ip now).2 := by
  rw [consumeDatagram_eq, consumeDatagram_eq]
  cases addressed buf with
  | none => exact ⟨h, rfl⟩
  | some p =>
    obtain ⟨addr, data⟩ := p
    simp only
    rcases sameButDrops_lookup h addr.connectionId with ⟨ha, hb⟩ | ⟨c, m, n, ha, hb⟩
    · rw [ha, hb]
      exact ⟨h, rfl⟩
    · rw [ha, hb]
      have hip : (withDrops c m n).params.expectedSourceIp = c.params.expectedSourceIp := rfl
      simp only [hip]
      by_cases hsource : ip ≠ c.params.expectedSourceIp
      · rw [if_pos hsource, if_pos hsource]
        exact ⟨h, rfl⟩
      · obtain ⟨m', n', hconsume⟩ := consume_withDrops c m n data addr.encapSequence now
        rw [if_neg hsource, if_neg hsource, hconsume]
        exact ⟨sameButDrops_insert h addr.connectionId rfl, rfl⟩

/-- An update that is blind to the drops keeps two registries alike. -/
theorem updateConnection_sameButDrops {a b : Registry} (h : SameButDrops a b) (id : UInt32)
    {f : IoConnection → IoConnection}
    (hf : ∀ c m n, withoutDrops (f (withDrops c m n)) = withoutDrops (f c)) :
    SameButDrops (updateConnection a id f) (updateConnection b id f) := by
  unfold updateConnection
  rcases sameButDrops_lookup h id with ⟨ha, hb⟩ | ⟨c, m, n, ha, hb⟩
  · rw [ha, hb]
    exact h
  · rw [ha, hb]
    exact sameButDrops_insert h id (hf c m n)

/-- So does a tick. -/
theorem tickRegistry_sameButDrops {a b : Registry} (h : SameButDrops a b) (now : Instant)
    (order : List UInt32) (sends : UInt32 → Except ErrorKind Unit) :
    SameButDrops (tickRegistry a now order sends) (tickRegistry b now order sends) := by
  intro id
  rw [tickRegistry_lookup, tickRegistry_lookup]
  rcases sameButDrops_lookup h id with ⟨ha, hb⟩ | ⟨c, m, n, ha, hb⟩
  · rw [ha, hb]
  · rw [ha, hb]
    simp only [Option.bind_some, tickedConnection, tickConnection_withDrops]
    split <;> rfl

/-- Every step keeps the agreement. -/
theorem registryStep_sameButDrops {a b : Registry} (h : SameButDrops a b)
    (input : RegistryInput) : SameButDrops (registryStep a input) (registryStep b input) := by
  cases input with
  | datagram buf srcIp now => exact (consumeDatagram_sameButDrops h buf srcIp now).1
  | add params openedAt => exact sameButDrops_insert h params.t2oConnectionId rfl
  | setOutput id bytes => exact updateConnection_sameButDrops h id (fun _ _ _ => rfl)
  | setRun id run => exact updateConnection_sameButDrops h id (fun _ _ _ => rfl)
  | remove id =>
    intro id'
    show ((b.conns.erase id).lookup id').map _ = ((a.conns.erase id).lookup id').map _
    by_cases hid : id' = id
    · subst hid
      rw [AList.lookup_erase, AList.lookup_erase]
    · rw [AList.lookup_erase_ne hid, AList.lookup_erase_ne hid]
      exact h id'
  | countRecvError => exact h
  | tick now order sends => exact tickRegistry_sameButDrops h now order sends
  | clear => exact fun _ => rfl

/-- Every step shows the same events. -/
theorem stepEvents_sameButDrops {a b : Registry} (h : SameButDrops a b)
    (input : RegistryInput) : stepEvents b input = stepEvents a input := by
  cases input with
  | datagram buf srcIp now =>
    obtain ⟨hsame, hrouted⟩ := consumeDatagram_sameButDrops h buf srcIp now
    simp only [stepEvents]
    rw [hrouted]
    generalize (a.consumeDatagram buf srcIp now).1 = a' at *
    generalize (b.consumeDatagram buf srcIp now).1 = b' at *
    cases (a.consumeDatagram buf srcIp now).2 with
    | dropped id reason => rfl
    | accepted id first update =>
      simp only [routedEvents]
      rcases sameButDrops_lookup hsame id with ⟨ha, hb⟩ | ⟨c, m, n, ha, hb⟩
      · rw [ha, hb]
      · rw [ha, hb]
        rfl
  | _ => rfl

/-- The same watchdogs are expired. -/
theorem pollWatchdog_sameButDrops {a b : Registry} (h : SameButDrops a b) (id : UInt32)
    (now : Instant) :
    (b.conns.lookup id).map (·.pollWatchdog now) = (a.conns.lookup id).map (·.pollWatchdog now) := by
  rcases sameButDrops_lookup h id with ⟨ha, hb⟩ | ⟨c, m, n, ha, hb⟩
  · rw [ha, hb]
  · rw [ha, hb]
    rfl

/-- Two watchdogs that answer alike have run out together. -/
theorem any_pollWatchdog {o o' : Option IoConnection} {now : Instant}
    (h : o'.map (·.pollWatchdog now) = o.map (·.pollWatchdog now)) :
    o'.any (·.pollWatchdog now) = o.any (·.pollWatchdog now) := by
  cases o <;> cases o' <;> simp_all

/-- A dropped datagram can be taken out of the front of a run. -/
theorem run_of_dropped {reg : Registry} {buf : Bytes} {srcIp : IpAddr} {now : Instant}
    {id : Option UInt32} {reason : DropReason}
    (hdrop : (reg.consumeDatagram buf srcIp now).2 = .dropped id reason) :
    SameButDrops reg (reg.consumeDatagram buf srcIp now).1 ∧
      stepEvents reg (.datagram buf srcIp now) = [] := by
  have hinert := consumeDatagram_inert reg buf srcIp now
  simp only [stepEvents]
  obtain ⟨⟨reg', routed⟩, hr⟩ : ∃ r, reg.consumeDatagram buf srcIp now = r := ⟨_, rfl⟩
  rw [hr] at hdrop hinert ⊢
  cases hdrop
  exact ⟨hinert.1, rfl⟩

/-- What the observers of two runs see that differ by dropped datagrams only. -/
theorem differByDrops_same {a b : Registry} {xs ys : List RegistryInput}
    (h : DifferByDrops a xs b ys) (hab : SameButDrops a b) :
    runEvents b ys = runEvents a xs ∧
      (∀ id, firstExpiry id b ys = firstExpiry id a xs) ∧
      SameButDrops (runSteps registryStep a xs) (runSteps registryStep b ys) := by
  induction h with
  | nil a b => exact ⟨rfl, fun _ => rfl, hab⟩
  | both input h ih =>
    obtain ⟨hevents, hexpiry, hend⟩ := ih (registryStep_sameButDrops hab input)
    refine ⟨?_, fun id => ?_, hend⟩
    · rw [runEvents, runEvents, stepEvents_sameButDrops hab, hevents]
    · cases input with
      | tick now order sends =>
        have hwatch := any_pollWatchdog (pollWatchdog_sameButDrops hab id now)
        rw [firstExpiry, firstExpiry, hwatch]
        exact if_congr Iff.rfl rfl (hexpiry id)
      | _ => exact hexpiry id
  | left hdrop h ih =>
    obtain ⟨hsame, hquiet⟩ := run_of_dropped hdrop
    obtain ⟨hevents, hexpiry, hend⟩ := ih (sameButDrops_trans (sameButDrops_symm hsame) hab)
    refine ⟨?_, hexpiry, hend⟩
    rw [runEvents, hquiet, List.nil_append]
    exact hevents
  | right hdrop h ih =>
    obtain ⟨hsame, hquiet⟩ := run_of_dropped hdrop
    obtain ⟨hevents, hexpiry, hend⟩ := ih (sameButDrops_trans hab hsame)
    refine ⟨?_, hexpiry, hend⟩
    rw [runEvents, hquiet, List.nil_append]
    exact hevents

/-- Dropped datagrams are inert: each leaves every connection as it was and counts once, and
runs that differ by them alone show the same events, the same expiries and the same watchdogs
at every instant. -/
theorem dropped_datagrams_inert (reg : Registry) :
    (∀ buf srcIp now, Inert reg (reg.consumeDatagram buf srcIp now)) ∧
      ∀ xs ys, DifferByDrops reg xs reg ys →
        runEvents reg ys = runEvents reg xs ∧
          (∀ id, firstExpiry id reg ys = firstExpiry id reg xs) ∧
          ∀ id now,
            ((runSteps registryStep reg ys).conns.lookup id).map (·.pollWatchdog now) =
              ((runSteps registryStep reg xs).conns.lookup id).map (·.pollWatchdog now) := by
  refine ⟨consumeDatagram_inert reg, fun xs ys h => ?_⟩
  obtain ⟨hevents, hexpiry, hend⟩ := differByDrops_same h (sameButDrops_refl reg)
  exact ⟨hevents, hexpiry, pollWatchdog_sameButDrops hend⟩

/-- A registered heartbeat connection that a stranger sends an empty datagram. -/
theorem dropped_datagrams_inert_stranger :
    let add : RegistryInput := .add heartbeatParams 0
    let tick : RegistryInput := .tick 40000000 [] (fun _ => .ok ())
    firstExpiry 0x20 ⟨∅, {}⟩ [add, .datagram [] (.v4 7) 39999999, tick] = some 40000000 := by
  intro add tick
  have hdiffer : DifferByDrops ⟨∅, {}⟩ [add, tick] ⟨∅, {}⟩
      [add, .datagram [] (.v4 7) 39999999, tick] := by
    apply DifferByDrops.both
    apply DifferByDrops.right rfl
    apply DifferByDrops.both
    exact DifferByDrops.nil _ _
  rw [((dropped_datagrams_inert ⟨∅, {}⟩).2 _ _ hdiffer).2.1]
  decide +kernel

/-! ## The registry of a manager -/

/-- What one input makes the manager do to its registry. -/
def registryInputs (m : Manager) : ManagerInput → List RegistryInput
  | .command (.add params openedAt _ _) env =>
      match params.multicastGroup, env.join with
      | some _, .error _ => []
      | _, _ =>
          if env.ackOpen then [.add params openedAt]
          else [.add params openedAt, .remove params.t2oConnectionId]
  | .command (.setOutput id bytes deadline _) env =>
      if expired deadline env.now then [] else [.setOutput id bytes]
  | .command (.setRun id run) _ => [.setRun id run]
  | .command (.remove id) _ => [.remove id]
  | .command .shutdown _ => [.clear]
  | .commandsClosed => [.clear]
  | .datagram buf src now => [.datagram buf src.ip now]
  | .recvError kind _ =>
      match (onRecvError m.consecutiveFatal kind).2 with
      | .continue_ => [.countRecvError]
      | .fatalSocket => [.countRecvError, .clear]
  | .tick now order sends => [.tick now order sends]

/-- Losing connections takes them out of the registry, and nothing else. -/
theorem loseConnections_registry (ended : List (UInt32 × LostReason)) (m : Manager) :
    (m.loseConnections ended).1.registry =
      { m.registry with
        conns := ended.foldl (fun conns p => conns.erase p.1) m.registry.conns } := by
  induction ended generalizing m with
  | nil => rfl
  | cons p rest ih =>
    obtain ⟨id, reason⟩ := p
    rw [Manager.loseConnections]
    simp only
    rw [ih]
    rfl

/-- A running manager's steps are runs of its registry. -/
theorem step_registry (m : Manager) (input : ManagerInput) (hrunning : m.running = true) :
    (m.step input).1.registry = runSteps registryStep m.registry (registryInputs m input) := by
  unfold Manager.step
  rw [if_pos hrunning]
  cases input with
  | command cmd env =>
    cases cmd with
    | add params openedAt tx ack =>
      simp only [Manager.command, Manager.addConnection, registryInputs]
      cases hgroup : params.multicastGroup with
      | none =>
        simp only
        split <;> rfl
      | some group =>
        cases env.join with
        | error kind => rfl
        | ok u =>
          simp only
          split <;> rfl
    | setOutput id bytes deadline ack =>
      simp only [Manager.command, Manager.stageOutput, registryInputs]
      cases hlookup : m.registry.conns.lookup id with
      | none =>
        simp only
        split
        · rfl
        · simp [runSteps, registryStep, updateConnection, hlookup]
      | some conn =>
        simp only
        split
        · rfl
        · simp [runSteps, registryStep, updateConnection, hlookup]
    | setRun id run =>
      simp only [Manager.command, registryInputs]
      cases hlookup : m.registry.conns.lookup id with
      | none => simp [runSteps, registryStep, updateConnection, hlookup]
      | some conn => simp [runSteps, registryStep, updateConnection, hlookup]
    | remove id => rfl
    | shutdown => rfl
  | commandsClosed => rfl
  | datagram buf src now =>
    simp only [Manager.receive]
    split <;> rfl
  | recvError kind order =>
    simp only [Manager.receiveError, registryInputs]
    cases (onRecvError m.consecutiveFatal kind).2 with
    | continue_ => rfl
    | fatalSocket =>
      simp only [Manager.exit, loseConnections_registry]
      rfl
  | tick now order sends =>
    simp only [Manager.tick, loseConnections_registry]
    rfl

/-- The events of a run are the ones the manager sends to the connections' queues. -/
theorem receive_events {m : Manager} (hkeys : KeysAgree m) (buf : Bytes) (src : SocketAddr)
    (now : Instant) (id : UInt32) :
    sentTo id (m.receive buf src now).2 =
      (stepEvents m.registry (.datagram buf src.ip now)).filterMap
        (fun p => if p.1 = id then some p.2 else none) := by
  have hspec := consumeDatagram_spec m.registry buf src.ip now
  simp only [Manager.receive, stepEvents]
  obtain ⟨⟨reg', routed⟩, hr⟩ : ∃ r, m.registry.consumeDatagram buf src.ip now = r := ⟨_, rfl⟩
  rw [hr] at hspec ⊢
  cases routed with
  | dropped cid reason => rfl
  | accepted cid first update =>
    obtain ⟨c, c', hc, -, -, hconns⟩ := hspec
    have hmem : cid ∈ m.events := (hkeys cid).mp (AList.lookup_isSome.mp (by rw [hc]; rfl))
    obtain ⟨tx, htx⟩ := Option.isSome_iff_exists.mp (AList.lookup_isSome.mpr hmem)
    have hlookup : reg'.conns.lookup cid = some c' := by rw [hconns, AList.lookup_insert]
    have hsent : sentTo id (Manager.deliver ⟨reg', m.events, 0, m.running⟩ cid first update) = _ :=
      sentTo_deliver hlookup htx
    refine hsent.trans ?_
    by_cases hid : id = cid
    · subst hid
      cases first <;> simp [routedEvents, hlookup]
    · cases first <;> simp [routedEvents, hlookup, hid, Ne.symm hid]

end EnipAdapter.Analysis
