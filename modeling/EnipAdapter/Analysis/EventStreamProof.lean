import EnipAdapter.Interface.EventStream

/-!
# The manager task simulates the connection life cycle

For every connection id, one step of the manager is one `Move` of the abstract connection,
except that an `Add` may register an absent one. The two maps of the task have the same
keys throughout, which is what makes the `Up` of a first frame reach its consumer.
-/

set_option autoImplicit false

namespace EnipAdapter.Analysis

open EnipAdapter.Model
open EnipAdapter.Interface

/-! ## Producing and consuming leave or set `up` -/

/-- Producing says nothing about the inbound side. -/
@[simp] theorem pollProduce_up (c : IoConnection) (now : Instant) :
    (c.pollProduce now).1.up = c.up := by
  unfold IoConnection.pollProduce
  split_ifs <;> rfl

/-- The outcome of a send says nothing about the inbound side. -/
@[simp] theorem recordSend_up (c : IoConnection) (result : Except ErrorKind Unit) :
    (c.recordSend result).1.up = c.up := by
  unfold IoConnection.recordSend
  cases result with
  | ok v => rfl
  | error kind =>
      simp only
      split_ifs <;> rfl

/-- Neither does a tick. -/
theorem tickConnection_up (c : IoConnection) (now : Instant)
    (send : Except ErrorKind Unit) : (tickConnection c now send).1.up = c.up := by
  have hproduce := pollProduce_up c now
  unfold tickConnection
  obtain ⟨⟨c', produced⟩, hp⟩ : ∃ r, c.pollProduce now = r := ⟨_, rfl⟩
  rw [hp] at hproduce
  simp only [hp]
  cases produced with
  | none => exact hproduce
  | some out => exact (recordSend_up c' _).trans hproduce

/-- An accepted frame is the first exactly when the connection was not up, and it is up
after it; a dropped one leaves it as it was. -/
theorem consume_up (c : IoConnection) (data : Bytes) (seq : UInt32) (now : Instant) :
    match (c.consume data seq now).2 with
    | .accepted first _ => first = !c.up ∧ (c.consume data seq now).1.up = true
    | .dropped _ => (c.consume data seq now).1.up = c.up := by
  unfold IoConnection.consume
  cases IoFrame.decode c.params.t2oFormat data with
  | error e => rfl
  | ok frame =>
      simp only
      by_cases hbad : (if c.params.t2oFixed then decide (frame.data.length ≠ c.params.t2oDataSize)
          else decide (frame.data.length > c.params.t2oDataSize)) = true
      · rw [if_pos hbad]
        rfl
      · rw [if_neg hbad]
        cases frame.sequence with
        | none => exact ⟨rfl, rfl⟩
        | some s =>
            cases c.lastAcceptedSeq with
            | none => exact ⟨rfl, rfl⟩
            | some last =>
                simp only
                by_cases hdelta : IoConnection.sequenceDelta s last ≤ 0
                · rw [if_pos hdelta]
                · rw [if_neg hdelta]
                  exact ⟨rfl, rfl⟩

/-! ## The phase of a connection -/

/-- Where the manager has a connection. -/
def phase (m : Manager) (id : UInt32) : Phase :=
  (m.registry.conns.lookup id).map (·.up)

/-- What a consumer is sent by two runs is what each of them sends it. -/
theorem sentTo_append (id : UInt32) (xs ys : List ManagerEffect) :
    sentTo id (xs ++ ys) = sentTo id xs ++ sentTo id ys := by
  simp [sentTo]

/-- Effects that are no events reach no consumer. -/
theorem sentTo_eq_nil {id : UInt32} {effects : List ManagerEffect}
    (h : ∀ e ∈ effects, ∀ tx ev, e ≠ .event id tx ev) : sentTo id effects = [] := by
  rw [sentTo, List.filterMap_eq_nil_iff]
  intro e he
  cases e with
  | event i tx ev =>
      by_cases hi : i = id
      · subst hi
        exact absurd rfl (h _ he tx ev)
      · simp [hi]
  | verdict ack result => rfl
  | send i endpoint datagram => rfl
  | joined group => rfl
  | left group => rfl

/-- What a part of a step does to every connection: the maps stay in agreement, and each id
makes one move. -/
structure Simulates (m : Manager) (r : Manager × List ManagerEffect) : Prop where
  keys : KeysAgree r.1
  moves : ∀ id, Move (phase m id) (sentTo id r.2) (phase r.1 id)

/-- A quiet part in front changes nothing. -/
theorem Simulates.after_quiet {m m₁ m₂ : Manager} {e₁ e₂ : List ManagerEffect}
    (hphase : ∀ id, phase m₁ id = phase m id) (hquiet : ∀ id, sentTo id e₁ = [])
    (h : Simulates m₁ (m₂, e₂)) : Simulates m (m₂, e₁ ++ e₂) := by
  refine ⟨h.keys, ?_⟩
  intro id
  have hmove := h.moves id
  rw [hphase] at hmove
  rwa [sentTo_append, hquiet, List.nil_append]

/-- A part that keeps every phase and sends no event. -/
theorem Simulates.quiet {m m' : Manager} {e : List ManagerEffect} (hkeys : KeysAgree m')
    (hphase : ∀ id, phase m' id = phase m id) (hquiet : ∀ id, sentTo id e = []) :
    Simulates m (m', e) := by
  refine ⟨hkeys, ?_⟩
  intro id
  rw [hquiet, hphase]
  exact Move.stay _

/-- The phase after a connection was written back. -/
theorem phase_insert (m : Manager) (id id' : UInt32) (c : IoConnection) :
    phase { m with registry := { m.registry with conns := m.registry.conns.insert id c } } id' =
      if id' = id then some c.up else phase m id' := by
  unfold phase
  split_ifs with hid
  · subst hid
    simp
  · simp [AList.lookup_insert_ne hid]

/-- Writing a registered connection back keeps the maps in agreement. -/
theorem keysAgree_insert {m : Manager} {id : UInt32} {c : IoConnection} (h : KeysAgree m)
    (hc : m.registry.conns.lookup id = some c) (c' : IoConnection) :
    KeysAgree { m with registry := { m.registry with
      conns := m.registry.conns.insert id c' } } := by
  intro id'
  simp only [AList.mem_insert]
  have hmem : id ∈ m.registry.conns := by
    rw [← AList.lookup_isSome, hc]
    rfl
  constructor
  · rintro (rfl | hid)
    · exact (h _).mp hmem
    · exact (h _).mp hid
  · intro hid
    exact Or.inr ((h _).mpr hid)

/-- Writing a registered connection back with the same `up` is quiet. -/
theorem Simulates.update {m : Manager} {id : UInt32} {c c' : IoConnection}
    {e : List ManagerEffect} (h : KeysAgree m) (hc : m.registry.conns.lookup id = some c)
    (hup : c'.up = c.up) (hquiet : ∀ id, sentTo id e = []) :
    Simulates m ({ m with registry := { m.registry with
      conns := m.registry.conns.insert id c' } }, e) := by
  refine Simulates.quiet (keysAgree_insert h hc c') ?_ hquiet
  intro id'
  rw [phase_insert]
  split_ifs with hid
  · subst hid
    rw [phase, hc, hup]
    rfl
  · rfl

/-! ## Removal and loss -/

/-- A removed connection has no phase, and the others keep theirs. -/
theorem phase_removeConnection (m : Manager) (id id' : UInt32) :
    phase (m.removeConnection id).1 id' = if id' = id then none else phase m id' := by
  unfold phase Manager.removeConnection
  split_ifs with hid
  · subst hid
    simp
  · simp [AList.lookup_erase_ne hid]

/-- A removal takes the id out of both maps. -/
theorem keysAgree_removeConnection {m : Manager} (h : KeysAgree m) (id : UInt32) :
    KeysAgree (m.removeConnection id).1 := by
  intro id'
  simp only [Manager.removeConnection, AList.mem_erase]
  rw [h id']

/-- A removal sends nobody anything. -/
theorem sentTo_removeConnection (m : Manager) (id id' : UInt32) :
    sentTo id' (m.removeConnection id).2 = [] := by
  apply sentTo_eq_nil
  intro e he tx ev heq
  subst heq
  simp only [Manager.removeConnection, Option.mem_toList, Option.map_eq_some_iff] at he
  obtain ⟨group, -, heq⟩ := he
  cases heq

/-- A removal is a step of the automaton. -/
theorem simulates_removeConnection {m : Manager} (h : KeysAgree m) (id : UInt32) :
    Simulates m (m.removeConnection id) := by
  refine ⟨keysAgree_removeConnection h id, ?_⟩
  intro id'
  rw [sentTo_removeConnection, phase_removeConnection]
  split_ifs
  · exact Move.drop _
  · exact Move.stay _

/-- A lost connection has no phase, and the others keep theirs. -/
theorem phase_loseConnection (m : Manager) (id id' : UInt32) (reason : LostReason) :
    phase (m.loseConnection id reason).1 id' = if id' = id then none else phase m id' :=
  phase_removeConnection m id id'

/-- A loss is told to the lost connection's consumer only. -/
theorem sentTo_loseConnection (m : Manager) (id id' : UInt32) (reason : LostReason) :
    sentTo id' (m.loseConnection id reason).2 =
      if id' = id ∧ id ∈ m.events then [.lost reason] else [] := by
  unfold Manager.loseConnection
  simp only
  rw [sentTo_append, sentTo_removeConnection, List.append_nil]
  cases htx : m.events.lookup id with
  | none =>
      rw [AList.lookup_eq_none] at htx
      rw [if_neg (fun h => htx h.2)]
      rfl
  | some tx =>
      have hmem : id ∈ m.events := by
        rw [← AList.lookup_isSome, htx]
        rfl
      by_cases hid : id' = id
      · rw [if_pos ⟨hid, hmem⟩, hid]
        simp [sentTo]
      · rw [if_neg (fun h => hid h.1)]
        simp [sentTo, Ne.symm hid]

/-- Losing a connection: its consumer, if it has one, hears of it once. -/
theorem simulates_loseConnection {m : Manager} (h : KeysAgree m) (id : UInt32)
    (reason : LostReason) : Simulates m (m.loseConnection id reason) := by
  refine ⟨keysAgree_removeConnection h id, ?_⟩
  intro id'
  rw [sentTo_loseConnection, phase_loseConnection]
  by_cases hid : id' = id
  · subst hid
    rw [if_pos rfl]
    split_ifs with hmem
    · -- the sender is there, so the connection is registered
      have hreg := (h id').mpr hmem.2
      rw [← AList.lookup_isSome] at hreg
      obtain ⟨c, hc⟩ := Option.isSome_iff_exists.mp hreg
      rw [phase, hc]
      exact Move.lose c.up reason
    · exact Move.drop _
  · rw [if_neg hid, if_neg (fun h => hid h.1)]
    exact Move.stay _

/-- Losing several connections, by induction on the list: an id that was lost stays
absent, so a repeated id is not lost twice. -/
theorem simulates_loseConnections (ended : List (UInt32 × LostReason)) {m : Manager}
    (h : KeysAgree m) : Simulates m (m.loseConnections ended) := by
  induction ended generalizing m with
  | nil => exact Simulates.quiet h (fun _ => rfl) (fun _ => rfl)
  | cons p rest ih =>
      obtain ⟨id, reason⟩ := p
      have hfirst := simulates_loseConnection h id reason
      have hrest := ih hfirst.keys
      refine ⟨hrest.keys, ?_⟩
      intro id'
      simp only [Manager.loseConnections]
      rw [sentTo_append]
      have hmove := hrest.moves id'
      have hphase := phase_loseConnection m id id' reason
      by_cases hid : id' = id
      · rw [if_pos hid] at hphase
        rw [hphase] at hmove
        obtain ⟨hsent, hlast⟩ := hmove.of_absent
        rw [hsent, List.append_nil, hlast, ← hphase]
        exact hfirst.moves id'
      · rw [if_neg hid] at hphase
        rw [sentTo_loseConnection, if_neg (fun h => hid h.1), List.nil_append, ← hphase]
        exact hmove

/-- Every connection on the list is absent after it. -/
theorem phase_loseConnections {ended : List (UInt32 × LostReason)} {m : Manager}
    (h : KeysAgree m) {id : UInt32}
    (hid : id ∈ ended.map Prod.fst ∨ phase m id = none) :
    phase (m.loseConnections ended).1 id = none := by
  induction ended generalizing m with
  | nil =>
      rcases hid with hid | hid
      · cases hid
      · exact hid
  | cons p rest ih =>
      obtain ⟨id', reason⟩ := p
      have hphase := phase_loseConnection m id' id reason
      refine ih (simulates_loseConnection h id' reason).keys ?_
      by_cases heq : id = id'
      · rw [if_pos heq] at hphase
        exact Or.inr hphase
      · rw [if_neg heq] at hphase
        rcases hid with hid | hid
        · rw [List.map_cons, List.mem_cons] at hid
          exact Or.inl (hid.resolve_left heq)
        · exact Or.inr (hphase.trans hid)

/-- Leaving the loop drops every connection without an event. -/
theorem simulates_exit (m : Manager) : Simulates m (m.exit, []) := by
  refine ⟨fun id => Iff.rfl, ?_⟩
  intro id
  exact Move.drop _

/-! ## Deliveries -/

/-- What routing one datagram does to the connections: it writes at most one of them back,
and its `up` follows the outcome. -/
def RoutedSpec (reg : Registry) : Registry × Routed → Prop
  | (reg', .accepted id first _) =>
      ∃ c c', reg.conns.lookup id = some c ∧ first = !c.up ∧ c'.up = true ∧
        reg'.conns = reg.conns.insert id c'
  | (reg', .dropped _ _) =>
      reg'.conns = reg.conns ∨
        ∃ id c c', reg.conns.lookup id = some c ∧ IoConnection.up c' = IoConnection.up c ∧
          reg'.conns = reg.conns.insert id c'

/-- A datagram is for one connection at most, which it brings up with its first sample. -/
theorem consumeDatagram_spec (reg : Registry) (buf : Bytes) (ip : IpAddr) (now : Instant) :
    RoutedSpec reg (reg.consumeDatagram buf ip now) := by
  unfold Registry.consumeDatagram
  cases Cpf.decode buf with
  | error e => exact Or.inl rfl
  | ok cpf =>
      simp only
      split
      · rename_i addrItem dataItem _ _
        cases SequencedAddress.decode addrItem.data with
        | error e => exact Or.inl rfl
        | ok addr =>
            simp only
            cases hc : reg.conns.lookup addr.connectionId with
            | none => exact Or.inl rfl
            | some conn =>
                simp only
                by_cases hip : ip ≠ conn.params.expectedSourceIp
                · rw [if_pos hip]
                  exact Or.inl rfl
                · rw [if_neg hip]
                  have hup := consume_up conn dataItem.data addr.encapSequence now
                  obtain ⟨⟨conn', outcome⟩, hr⟩ :
                    ∃ r, conn.consume dataItem.data addr.encapSequence now = r := ⟨_, rfl⟩
                  rw [hr] at hup ⊢
                  cases outcome with
                  | accepted first update => exact ⟨conn, conn', hc, hup.1, hup.2, rfl⟩
                  | dropped reason => exact Or.inr ⟨_, conn, conn', hc, hup, rfl⟩
      · exact Or.inl rfl

/-- A sample goes to the consumer of its connection, behind `Up` if it is the first. -/
theorem sentTo_deliver {m : Manager} {id id' : UInt32} {first : Bool} {update : IoUpdate}
    {c : IoConnection} {tx : IoEventSender} (hc : m.registry.conns.lookup id = some c)
    (htx : m.events.lookup id = some tx) :
    sentTo id' (m.deliver id first update) =
      if id' = id then
        (if first then [.up c.params.o2tApi c.params.t2oApi] else []) ++ [.data update]
      else [] := by
  unfold Manager.deliver
  rw [htx]
  simp only [hc]
  by_cases hid : id' = id
  · subst hid
    cases first <;> simp [sentTo]
  · cases first <;> simp [sentTo, hid, Ne.symm hid]

/-- A received datagram delivers to the connection it was accepted by, `Up` first. -/
theorem simulates_receive {m : Manager} (h : KeysAgree m) (buf : Bytes) (src : SocketAddr)
    (now : Instant) : Simulates m (m.receive buf src now) := by
  have hspec := consumeDatagram_spec m.registry buf src.ip now
  unfold Manager.receive
  obtain ⟨⟨reg', routed⟩, hr⟩ :
    ∃ r, m.registry.consumeDatagram buf src.ip now = r := ⟨_, rfl⟩
  rw [hr] at hspec
  simp only [hr]
  cases routed with
  | dropped id reason =>
      rcases hspec with hsame | ⟨id, c, c', hc, hup, hins⟩
      · refine Simulates.quiet ?_ ?_ (fun _ => rfl)
        · intro id
          simp only [hsame]
          exact h id
        · intro id
          simp only [phase, hsame]
      · have hupdate := Simulates.update (e := []) h hc hup (fun _ => rfl)
        refine ⟨?_, ?_⟩
        · intro id'
          simp only [hins]
          exact hupdate.keys id'
        · intro id'
          have hmove := hupdate.moves id'
          simp only [phase, hins] at hmove ⊢
          exact hmove
  | accepted id first update =>
      obtain ⟨c, c', hc, hfirst, hup, hins⟩ := hspec
      set m₁ : Manager := ⟨reg', m.events, 0, m.running⟩ with hm₁
      show Simulates m (m₁, m₁.deliver id first update)
      have hc' : m₁.registry.conns.lookup id = some c' := by
        simp only [hm₁, hins, AList.lookup_insert]
      have hmem : id ∈ m.events := by
        rw [← h id, ← AList.lookup_isSome, hc]
        rfl
      rw [← AList.lookup_isSome] at hmem
      obtain ⟨tx, htx⟩ := Option.isSome_iff_exists.mp hmem
      have hphase : ∀ id', phase m₁ id' = if id' = id then some true else phase m id' := by
        intro id'
        have hinsert := phase_insert m id id' c'
        rw [hup] at hinsert
        simp only [phase, hm₁, hins] at hinsert ⊢
        exact hinsert
      refine ⟨?_, ?_⟩
      · intro id'
        have hkeys := keysAgree_insert h hc c' id'
        simp only [hm₁, hins]
        exact hkeys
      · intro id'
        rw [sentTo_deliver hc' htx, hphase]
        by_cases hid : id' = id
        · subst hid
          rw [if_pos rfl, if_pos rfl, hfirst, phase, hc, Option.map_some]
          cases c.up with
          | false => exact Move.start _ _ update
          | true => exact Move.sample update
        · rw [if_neg hid, if_neg hid]
          exact Move.stay _

/-! ## Ticks -/

/-- A pass over the connections keeps the keys and every phase. -/
theorem tickLoop_lookup (now : Instant) (sends : UInt32 → Except ErrorKind Unit)
    (ids : List UInt32) (conns : Connections) (id : UInt32) :
    ((tickLoop now sends ids conns).1.lookup id).map (·.up) = (conns.lookup id).map (·.up) := by
  induction ids generalizing conns with
  | nil => rfl
  | cons i ids ih =>
      rw [tickLoop]
      cases hc : conns.lookup i with
      | none => exact ih conns
      | some c =>
          simp only
          rw [ih]
          by_cases hid : id = i
          · subst hid
            rw [AList.lookup_insert, hc, Option.map_some, Option.map_some, tickConnection_up]
          · rw [AList.lookup_insert_ne hid]

/-- The produce loop of a tick sends no events. -/
theorem sentTo_tickLoop (now : Instant) (sends : UInt32 → Except ErrorKind Unit)
    (ids : List UInt32) (conns : Connections) (id : UInt32) :
    sentTo id (tickLoop now sends ids conns).2.1 = [] := by
  induction ids generalizing conns with
  | nil => rfl
  | cons i ids ih =>
      rw [tickLoop]
      cases hc : conns.lookup i with
      | none => exact ih conns
      | some c =>
          simp only
          rw [sentTo_append, ih, List.append_nil]
          apply sentTo_eq_nil
          intro e he tx ev heq
          subst heq
          simp only [Option.mem_toList, Option.map_eq_some_iff] at he
          obtain ⟨datagram, -, heq⟩ := he
          cases heq

/-- A connection is registered exactly while it has a phase. -/
theorem mem_conns_iff_phase (m : Manager) (id : UInt32) :
    id ∈ m.registry.conns ↔ phase m id ≠ none := by
  rw [← AList.lookup_isSome, phase]
  cases m.registry.conns.lookup id <;> simp

/-- A tick is a step of the automaton. -/
theorem simulates_tick {m : Manager} (h : KeysAgree m) (now : Instant) (order : List UInt32)
    (sends : UInt32 → Except ErrorKind Unit) : Simulates m (m.tick now order sends) := by
  unfold Manager.tick
  simp only
  set ids := iterationOrder m.registry.conns order
  set m₁ : Manager := { m with registry := { m.registry with
    conns := (tickLoop now sends ids m.registry.conns).1 } } with hm₁
  have hphase : ∀ id, phase m₁ id = phase m id :=
    fun id => tickLoop_lookup now sends ids m.registry.conns id
  have hkeys : KeysAgree m₁ := by
    intro id
    rw [mem_conns_iff_phase, hphase, ← mem_conns_iff_phase]
    exact h id
  exact Simulates.after_quiet hphase (sentTo_tickLoop now sends ids m.registry.conns)
    (simulates_loseConnections _ hkeys)

/-- A receive error either passes or loses every connection and ends the task. -/
theorem simulates_receiveError {m : Manager} (h : KeysAgree m) (kind : ErrorKind)
    (order : List UInt32) : Simulates m (m.receiveError kind order) := by
  unfold Manager.receiveError
  simp only
  cases (onRecvError m.consecutiveFatal kind).2 with
  | continue_ => exact Simulates.quiet h (fun _ => rfl) (fun _ => rfl)
  | fatalSocket =>
      simp only
      set m₁ : Manager := { m with
        consecutiveFatal := (onRecvError m.consecutiveFatal kind).1
        registry := { m.registry with
          stats := { m.registry.stats with recvErrors := m.registry.stats.recvErrors + 1 } } }
      set ended := (iterationOrder m.registry.conns order).map (fun id => (id, LostReason.io))
      have hkeys : KeysAgree m₁ := h
      have hlose := simulates_loseConnections ended hkeys
      refine ⟨fun id => Iff.rfl, ?_⟩
      intro id
      have hmove := hlose.moves id
      have hgone : phase (m₁.loseConnections ended).1 id = none := by
        refine phase_loseConnections hkeys ?_
        by_cases hmem : id ∈ m.registry.conns
        · left
          have hin : id ∈ iterationOrder m.registry.conns order := by
            unfold iterationOrder
            split_ifs with hperm
            · exact hperm.mem_iff.mpr hmem
            · exact hmem
          simpa [ended] using hin
        · right
          by_contra hne
          exact hmem ((mem_conns_iff_phase m id).mpr hne)
      rw [hgone] at hmove
      exact hmove

/-! ## Commands -/

/-- What one command does to a connection it does not register. -/
theorem command_simulates {m : Manager} (h : KeysAgree m) (cmd : ManagerCommand)
    (env : CommandEnv) (hadd : ∀ params openedAt tx ack, cmd ≠ .add params openedAt tx ack) :
    Simulates m (m.command cmd env) := by
  cases cmd with
  | add params openedAt tx ack => exact absurd rfl (hadd params openedAt tx ack)
  | shutdown => exact simulates_exit m
  | remove id => exact simulates_removeConnection h id
  | setRun id run =>
      simp only [Manager.command]
      cases hc : m.registry.conns.lookup id with
      | none => exact Simulates.quiet h (fun _ => rfl) (fun _ => rfl)
      | some c => exact Simulates.update h hc rfl (fun _ => rfl)
  | setOutput id bytes deadline ack =>
      have hquiet : ∀ verdict id, sentTo id
          (ack.map (fun a => ManagerEffect.verdict a verdict)).toList = [] := by
        intro verdict id'
        cases ack <;> rfl
      simp only [Manager.command, Manager.stageOutput]
      cases hc : m.registry.conns.lookup id with
      | none => exact Simulates.quiet h (fun _ => rfl) (hquiet _)
      | some c =>
          simp only
          split_ifs
          · exact Simulates.quiet h (fun _ => rfl) (hquiet _)
          · exact Simulates.update h hc rfl (hquiet _)

/-- Registering a connection: no event is sent, the maps stay in agreement, and only the
registered id can change, to silent or absent. -/
theorem addConnection_spec {m : Manager} (h : KeysAgree m) (params : IoConnectionParams)
    (openedAt : Instant) (tx : IoEventSender) (ack : ℕ) (env : CommandEnv) :
    KeysAgree (m.addConnection params openedAt tx ack env).1 ∧
    (∀ id, sentTo id (m.addConnection params openedAt tx ack env).2 = []) ∧
    ∀ id, phase (m.addConnection params openedAt tx ack env).1 id = phase m id ∨
      (id = params.t2oConnectionId ∧
        (phase (m.addConnection params openedAt tx ack env).1 id = some false ∨
          phase (m.addConnection params openedAt tx ack env).1 id = none)) := by
  unfold Manager.addConnection
  simp only
  split
  · exact ⟨h, fun _ => rfl, fun _ => Or.inl rfl⟩
  · set m₁ : Manager := { m with
      registry := { m.registry with
        conns := m.registry.conns.insert params.t2oConnectionId
          (IoConnection.new params openedAt) }
      events := m.events.insert params.t2oConnectionId tx } with hm₁
    have hkeys : KeysAgree m₁ := by
      intro id
      simp only [hm₁, AList.mem_insert]
      rw [h id]
    have hphase : ∀ id, phase m₁ id =
        if id = params.t2oConnectionId then some false else phase m id :=
      fun id => phase_insert m params.t2oConnectionId id (IoConnection.new params openedAt)
    have hjoined : ∀ id,
        sentTo id (params.multicastGroup.map ManagerEffect.joined).toList = [] := by
      intro id
      cases params.multicastGroup <;> rfl
    split_ifs
    · refine ⟨hkeys, ?_, ?_⟩
      · intro id
        rw [sentTo_append, hjoined]
        rfl
      · intro id
        by_cases hid : id = params.t2oConnectionId
        · exact Or.inr ⟨hid, Or.inl (by rw [hphase, if_pos hid])⟩
        · exact Or.inl (by rw [hphase, if_neg hid])
    · refine ⟨keysAgree_removeConnection hkeys _, ?_, ?_⟩
      · intro id
        rw [sentTo_append, hjoined, sentTo_removeConnection]
        rfl
      · intro id
        by_cases hid : id = params.t2oConnectionId
        · exact Or.inr ⟨hid, Or.inr (by rw [phase_removeConnection, if_pos hid])⟩
        · exact Or.inl (by rw [phase_removeConnection, if_neg hid, hphase, if_neg hid])

/-! ## Steps and runs -/

/-- A step that registers nothing is one move of every connection. -/
theorem step_simulates {m : Manager} (h : KeysAgree m) {input : ManagerInput}
    (hadd : addedId input = none) : Simulates m (m.step input) := by
  unfold Manager.step
  by_cases hrun : m.running = true
  · rw [if_pos hrun]
    cases input with
    | command cmd env =>
        refine command_simulates h cmd env ?_
        rintro params openedAt tx ack rfl
        cases hadd
    | commandsClosed => exact simulates_exit m
    | datagram buf src now => exact simulates_receive h buf src now
    | recvError kind order => exact simulates_receiveError h kind order
    | tick now order sends => exact simulates_tick h now order sends
  · rw [if_neg hrun]
    exact Simulates.quiet h (fun _ => rfl) (fun _ => rfl)

/-- What one step does, `Add` included: an id that is absent and has no history keeps an
empty one until it is registered. -/
theorem step_history {m : Manager} {input : ManagerInput} {hist : UInt32 → List IoEvent}
    (hkeys : KeysAgree m) (hhist : ∀ id, PhaseHistory (phase m id) (hist id))
    (hfresh : ∀ id, addedId input = some id → phase m id = none ∧ hist id = []) :
    KeysAgree (m.step input).1 ∧
    (∀ id, PhaseHistory (phase (m.step input).1 id) (hist id ++ sentTo id (m.step input).2)) ∧
    ∀ id, addedId input ≠ some id → phase m id = none → hist id = [] →
      phase (m.step input).1 id = none ∧ hist id ++ sentTo id (m.step input).2 = [] := by
  cases hadd : addedId input with
  | none =>
      have hsim := step_simulates hkeys hadd
      refine ⟨hsim.keys, fun id => (hhist id).move (hsim.moves id), ?_⟩
      intro id _ hnone hnil
      have hmove := hsim.moves id
      rw [hnone] at hmove
      obtain ⟨hsent, hphase⟩ := hmove.of_absent
      exact ⟨hphase, by rw [hnil, hsent]; rfl⟩
  | some id₀ =>
      obtain ⟨hnone₀, hnil₀⟩ := hfresh id₀ hadd
      by_cases hrun : m.running = true
      · obtain ⟨params, openedAt, tx, ack, env, rfl⟩ :
          ∃ params openedAt tx ack env, input = .command (.add params openedAt tx ack) env := by
          cases input with
          | command cmd env =>
              cases cmd with
              | add params openedAt tx ack => exact ⟨params, openedAt, tx, ack, env, rfl⟩
              | setOutput id bytes deadline ack => cases hadd
              | setRun id run => cases hadd
              | remove id => cases hadd
              | shutdown => cases hadd
          | commandsClosed => cases hadd
          | datagram buf src now => cases hadd
          | recvError kind order => cases hadd
          | tick now order sends => cases hadd
        have hid₀ : params.t2oConnectionId = id₀ := by
          simpa [addedId] using hadd
        have hstep : m.step (.command (.add params openedAt tx ack) env) =
            m.addConnection params openedAt tx ack env := by
          rw [Manager.step, if_pos hrun]
          rfl
        obtain ⟨hkeys', hsent, hphase⟩ := addConnection_spec hkeys params openedAt tx ack env
        rw [hstep]
        refine ⟨hkeys', ?_, ?_⟩
        · intro id
          rw [hsent, List.append_nil]
          rcases hphase id with hsame | ⟨hid, hsome | hgone⟩
          · rw [hsame]
            exact hhist id
          · rw [hsome, hid, hid₀]
            exact hnil₀
          · rw [hgone, hid, hid₀, hnil₀]
            exact (show PhaseHistory (some false) [] from rfl).grammar
        · intro id hne hnone hnil
          rcases hphase id with hsame | ⟨hid, -⟩
          · exact ⟨hsame.trans hnone, by rw [hnil, hsent]; rfl⟩
          · exact absurd (by rw [hid, hid₀]) hne
      · have hstep : m.step input = (m, []) := by
          unfold Manager.step
          rw [if_neg hrun]
        rw [hstep]
        refine ⟨hkeys, ?_, ?_⟩
        · intro id
          simpa [sentTo] using hhist id
        · intro id _ hnone hnil
          exact ⟨hnone, by rw [hnil]; rfl⟩

/-- A run keeps the maps in agreement and every history in its phase. The induction carries
that the ids still to be registered are absent and have no history. -/
theorem run_history (inputs : List ManagerInput) {m : Manager}
    (hist : UInt32 → List IoEvent) (hkeys : KeysAgree m)
    (hhist : ∀ id, PhaseHistory (phase m id) (hist id))
    (hfresh : ∀ id ∈ inputs.filterMap addedId, phase m id = none ∧ hist id = [])
    (hnodup : (inputs.filterMap addedId).Nodup) :
    KeysAgree (m.runFrom inputs).1 ∧
    ∀ id, EventGrammar (hist id ++ sentTo id (m.runFrom inputs).2) := by
  induction inputs generalizing m hist with
  | nil =>
      refine ⟨hkeys, ?_⟩
      intro id
      simpa [Manager.runFrom, sentTo] using (hhist id).grammar
  | cons input rest ih =>
      have hhead : ∀ id, addedId input = some id → phase m id = none ∧ hist id = [] := by
        intro id hid
        exact hfresh id (by simp [hid])
      obtain ⟨hkeys', hhist', hkeep⟩ := step_history hkeys hhist hhead
      have hrest : ∀ id ∈ rest.filterMap addedId,
          phase (m.step input).1 id = none ∧ hist id ++ sentTo id (m.step input).2 = [] := by
        intro id hid
        have hmem : id ∈ (input :: rest).filterMap addedId := by
          rw [List.filterMap_cons]
          split
          · exact hid
          · exact List.mem_cons_of_mem _ hid
        obtain ⟨hnone, hnil⟩ := hfresh id hmem
        refine hkeep id ?_ hnone hnil
        intro hadd
        rw [List.filterMap_cons, hadd] at hnodup
        exact (List.nodup_cons.mp hnodup).1 hid
      have hnodup' : (rest.filterMap addedId).Nodup :=
        hnodup.sublist ((List.sublist_cons_self input rest).filterMap addedId)
      obtain ⟨hfinal, hgrammar⟩ := ih _ hkeys' hhist' hrest hnodup'
      refine ⟨hfinal, ?_⟩
      intro id
      simp only [Manager.runFrom]
      rw [sentTo_append, ← List.append_assoc]
      exact hgrammar id

/-- The task starts with no connection. -/
theorem keysAgree_start : KeysAgree Manager.start := fun _ => Iff.rfl

/-- The event stream of every connection is in the grammar, and the two maps of the task
have the same keys after every step of every run whose `Add`s name distinct connections. -/
theorem event_stream_grammar (inputs : List ManagerInput)
    (hids : (inputs.filterMap addedId).Nodup) :
    (∀ k id, id ∈ (Manager.start.runFrom (inputs.take k)).1.registry.conns ↔
      id ∈ (Manager.start.runFrom (inputs.take k)).1.events) ∧
    ∀ id, EventGrammar (sentTo id (Manager.start.runFrom inputs).2) ∧
      (sentTo id (Manager.start.runFrom inputs).2).countP IoEvent.isUp ≤ 1 ∧
      (sentTo id (Manager.start.runFrom inputs).2).countP isLost ≤ 1 ∧
      ∀ pre u post, sentTo id (Manager.start.runFrom inputs).2 = pre ++ .data u :: post →
        ∃ ev ∈ pre, IoEvent.isUp ev = true := by
  have hrun : ∀ inputs : List ManagerInput, (inputs.filterMap addedId).Nodup →
      KeysAgree (Manager.start.runFrom inputs).1 ∧
      ∀ id, EventGrammar (sentTo id (Manager.start.runFrom inputs).2) := by
    intro inputs hnodup
    refine run_history inputs (fun _ => []) keysAgree_start ?_ ?_ hnodup
    · intro id
      exact (show PhaseHistory (some false) [] from rfl).grammar
    · intro id _
      exact ⟨rfl, rfl⟩
  refine ⟨?_, ?_⟩
  · intro k
    exact (hrun (inputs.take k)
      (hids.sublist ((List.take_sublist k inputs).filterMap addedId))).1
  · intro id
    have hgrammar := (hrun inputs hids).2 id
    refine ⟨hgrammar, hgrammar.counts.1, hgrammar.counts.2, ?_⟩
    intro pre u post heq
    rw [heq] at hgrammar
    exact hgrammar.up_of_data

/-- A connection that comes up with one sample and then loses its watchdog. -/
def watchdogRun : List ManagerInput :=
  [.command (.add
      { o2tConnectionId := 7, t2oConnectionId := 1, o2tApi := 10000000, t2oApi := 10000000,
        timeoutMultiplier := 4, o2tFormat := .header32Bit, t2oFormat := .modeless,
        o2tDataSize := 1, t2oDataSize := 1, o2tFixed := true, t2oFixed := true,
        txEndpoint := ⟨.v4 0x0A000001, 2222⟩, expectedSourceIp := .v4 0x0A000001,
        multicastGroup := none } 0 ⟨0⟩ 0) ⟨0, .ok (), true⟩,
    .datagram [2, 0, 0x02, 0x80, 8, 0, 1, 0, 0, 0, 1, 0, 0, 0, 0xB1, 0, 3, 0, 1, 0, 0xAB]
      ⟨.v4 0x0A000001, 2222⟩ 1000000,
    .tick 50000000 [1] (fun _ => .ok ())]

/-- A connection that comes up and is lost to its watchdog sends three events. -/
theorem event_stream_grammar_watchdog :
    (watchdogRun.filterMap addedId).Nodup ∧
    (sentTo 1 (Manager.start.runFrom watchdogRun).2).length = 3 ∧
    EventGrammar (sentTo 1 (Manager.start.runFrom watchdogRun).2) :=
  ⟨by decide, by decide +kernel, ((event_stream_grammar watchdogRun (by decide)).2 1).1⟩

end EnipAdapter.Analysis
