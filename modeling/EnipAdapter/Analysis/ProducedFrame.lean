import EnipAdapter.Analysis.CpfRoundTrip
import EnipAdapter.Interface.ProducedFrame

/-!
# Frames and the connections that produce them

The codec first: a produced datagram decodes to the frame it was made from. Then the manager:
no step but a command changes what a connection produces, and every datagram it sends is one
its connection produces.
-/

set_option autoImplicit false

namespace EnipAdapter.Analysis

open EnipAdapter.Foundation EnipAdapter.Model EnipAdapter.Interface

/-! ## The codec -/

/-- A frame with the members its format has is read back from its encoding. -/
theorem ioFrame_decode_encode {format : RealTimeFormat} {frame : IoFrame}
    (hseq : frame.sequence.isSome = format.hasSequence)
    (hrun : frame.runMode.isSome = format.hasHeader) :
    IoFrame.decode format (frame.encode format) = .ok frame := by
  obtain ⟨sequence, runMode, data⟩ := frame
  cases sequence with
  | none =>
    cases runMode with
    | none =>
      simp only [Option.isSome_none] at hseq hrun
      simp [IoFrame.decode, IoFrame.encode, ← hseq, ← hrun, WireReader.withContext,
        WireReader.takeRest, bind, Except.bind, pure, Except.pure]
    | some run =>
      simp only [Option.isSome_none, Option.isSome_some] at hseq hrun
      cases format <;> cases hrun
      cases hseq
  | some seq =>
    cases runMode with
    | none =>
      simp only [Option.isSome_none, Option.isSome_some] at hseq hrun
      simp [IoFrame.decode, IoFrame.encode, ← hseq, ← hrun, WireReader.withContext,
        WireReader.u16_append, WireReader.takeRest, bind, Except.bind, pure, Except.pure]
    | some run =>
      simp only [Option.isSome_some] at hseq hrun
      have hbit : ((if run then (1 : UInt32) else 0) &&& 1 != 0) = run := by
        cases run <;> decide
      simp [IoFrame.decode, IoFrame.encode, ← hseq, ← hrun, WireReader.withContext,
        WireReader.u16_append, WireReader.u32_append, WireReader.takeRest, bind, Except.bind,
        pure, Except.pure, hbit]

/-- A produced datagram decodes to the frame it was made from. -/
theorem receivedFrame_produceFrame {c : IoConnection} {datagram : Bytes}
    (h : c.produceFrame.2 = .ok datagram) :
    receivedFrame c.params.o2tFormat datagram = some c.advanceSequences.currentFrame := by
  simp only [IoConnection.produceFrame] at h
  have hparams : c.advanceSequences.params = c.params := rfl
  rw [hparams] at h
  generalize hpayload : c.advanceSequences.currentFrame.encode c.params.o2tFormat = payload at h
  have hframe : IoFrame.decode c.params.o2tFormat payload = .ok c.advanceSequences.currentFrame := by
    rw [← hpayload]
    apply ioFrame_decode_encode
    · simp only [IoConnection.currentFrame, hparams]
      cases c.params.o2tFormat.hasSequence <;> rfl
    · simp only [IoConnection.currentFrame, hparams]
      cases c.params.o2tFormat.hasHeader <;> rfl
  generalize hcpf : (⟨[⟨.sequencedAddress, _⟩, CpfItem.connectedData payload]⟩ : Cpf) = cpf at h
  cases hencode : cpf.encode with
  | error e =>
    rw [hencode] at h
    cases h
  | ok bytes =>
    rw [hencode, liftWire_ok] at h
    cases h
    have hknown : ∀ i ∈ cpf.items, ItemType.fromCode i.typeId.code = i.typeId := by
      subst hcpf
      simp [CpfItem.connectedData, ItemType.code, ItemType.fromCode]
    have hfind : cpf.find .connectedData = some (CpfItem.connectedData payload) := by
      subst hcpf
      simp [Cpf.find, CpfItem.connectedData]
    simp [receivedFrame, cpf_decode_encode hknown hencode, Except.toOption, hfind,
      CpfItem.connectedData, hframe]

/-! ## One connection -/

/-- Consuming a frame does not change what a connection produces. -/
theorem sameProducer_consume (c : IoConnection) (data : Bytes) (seq : UInt32) (now : Instant) :
    SameProducer c (c.consume data seq now).1 := by
  unfold IoConnection.consume
  cases IoFrame.decode c.params.t2oFormat data with
  | error e => exact ⟨rfl, rfl, rfl⟩
  | ok frame =>
    simp only
    by_cases hbad : (if c.params.t2oFixed then decide (frame.data.length ≠ c.params.t2oDataSize)
        else decide (frame.data.length > c.params.t2oDataSize)) = true
    · rw [if_pos hbad]
      exact ⟨rfl, rfl, rfl⟩
    · rw [if_neg hbad]
      cases frame.sequence with
      | none => exact ⟨rfl, rfl, rfl⟩
      | some s =>
        cases c.lastAcceptedSeq with
        | none => exact ⟨rfl, rfl, rfl⟩
        | some last =>
          simp only
          by_cases hdelta : IoConnection.sequenceDelta s last ≤ 0
          · rw [if_pos hdelta]
            exact ⟨rfl, rfl, rfl⟩
          · rw [if_neg hdelta]
            exact ⟨rfl, rfl, rfl⟩

/-- Neither does accounting for a send. -/
theorem sameProducer_recordSend (c : IoConnection) (result : Except ErrorKind Unit) :
    SameProducer c (c.recordSend result).1 := by
  unfold IoConnection.recordSend
  split
  · exact ⟨rfl, rfl, rfl⟩
  · simp only
    split
    · exact ⟨rfl, rfl, rfl⟩
    · split <;> exact ⟨rfl, rfl, rfl⟩

/-- Nor producing one frame, which is the connection's own. -/
theorem pollProduce_spec (c : IoConnection) (now : Instant) :
    SameProducer c (c.pollProduce now).1 ∧
      ∀ datagram, (c.pollProduce now).2 = some (.ok datagram) → ProducedBy c datagram := by
  unfold IoConnection.pollProduce
  split
  · exact ⟨SameProducer.refl c, fun datagram h => by cases h⟩
  · refine ⟨⟨rfl, rfl, rfl⟩, fun datagram h => ?_⟩
    simp only [Option.some.injEq] at h
    refine ⟨_, ?_, receivedFrame_produceFrame h⟩
    exact ⟨rfl, rfl, rfl⟩

/-- One connection's share of a tick keeps what it produces, and what it sends is its own. -/
theorem tickConnection_spec (c : IoConnection) (now : Instant) (send : Except ErrorKind Unit) :
    SameProducer c (tickConnection c now send).1 ∧
      ∀ datagram, (tickConnection c now send).2.1 = some datagram → ProducedBy c datagram := by
  obtain ⟨hsame, hframe⟩ := pollProduce_spec c now
  unfold tickConnection
  obtain ⟨⟨c', produced⟩, hpoll⟩ : ∃ r, c.pollProduce now = r := ⟨_, rfl⟩
  rw [hpoll] at hsame hframe
  simp only [hpoll]
  cases produced with
  | none => exact ⟨hsame, fun datagram h => by cases h⟩
  | some produced =>
    refine ⟨hsame.trans (sameProducer_recordSend c' _), fun datagram h => ?_⟩
    cases produced with
    | error e => cases h
    | ok bytes =>
      cases h
      exact hframe datagram rfl

/-! ## The manager -/

/-- Losing connections leaves the producers of the others alone. -/
theorem keepsProducers_loseConnections (ended : List (UInt32 × LostReason)) (m : Manager) :
    KeepsProducers m.registry.conns (m.loseConnections ended).1.registry.conns := by
  induction ended generalizing m with
  | nil => exact KeepsProducers.refl _
  | cons p rest ih =>
    obtain ⟨id, reason⟩ := p
    exact (KeepsProducers.erase m.registry.conns id).trans (ih (m.loseConnection id reason).1)

/-- Routing a datagram changes at most the counters and the receive side. -/
theorem keepsProducers_consumeDatagram (reg : Registry) (buf : Bytes) (srcIp : IpAddr)
    (now : Instant) :
    KeepsProducers reg.conns (reg.consumeDatagram buf srcIp now).1.conns := by
  unfold Registry.consumeDatagram
  split
  · exact KeepsProducers.refl _
  · split
    · split
      · exact KeepsProducers.refl _
      · split
        · exact KeepsProducers.refl _
        · rename_i addr _ _ conn hlookup
          split
          · exact KeepsProducers.refl _
          · simp only
            split <;>
              exact KeepsProducers.insert hlookup (sameProducer_consume conn _ _ now)
    · exact KeepsProducers.refl _

/-- A pass over the connections keeps what they produce, and sends only what they produce. -/
theorem tickLoop_spec (now : Instant) (sends : UInt32 → Except ErrorKind Unit)
    (ids : List UInt32) (conns : Connections) :
    KeepsProducers conns (tickLoop now sends ids conns).1 ∧
      ∀ id endpoint datagram,
        ManagerEffect.send id endpoint datagram ∈ (tickLoop now sends ids conns).2.1 →
          ∃ c, conns.lookup id = some c ∧ ProducedBy c datagram := by
  induction ids generalizing conns with
  | nil => exact ⟨KeepsProducers.refl conns, fun _ _ _ h => by cases h⟩
  | cons id ids ih =>
    unfold tickLoop
    split
    · exact ih conns
    · rename_i conn hlookup
      obtain ⟨hsame, hframe⟩ := tickConnection_spec conn now (sends id)
      simp only
      have hinsert := KeepsProducers.insert hlookup hsame
      obtain ⟨hkeeps, hsent⟩ := ih (conns.insert id (tickConnection conn now (sends id)).1)
      refine ⟨hinsert.trans hkeeps, fun id' endpoint datagram h => ?_⟩
      rcases List.mem_append.mp h with hhead | htail
      · simp only [Option.mem_toList, Option.map_eq_some_iff] at hhead
        obtain ⟨bytes, hbytes, heq⟩ := hhead
        cases heq
        exact ⟨conn, hlookup, hframe _ hbytes⟩
      · obtain ⟨c', hc', c'', hsame'', hrec⟩ := hsent id' endpoint datagram htail
        obtain ⟨c, hc, hsame'⟩ := hinsert id' c' hc'
        refine ⟨c, hc, c'', hsame'.trans hsame'', ?_⟩
        rw [← hsame'.params]
        exact hrec

/-- A step that handles no command keeps what the connections produce. -/
theorem keepsProducers_step (m : Manager) {input : ManagerInput}
    (hinput : ∀ cmd env, input ≠ .command cmd env) :
    KeepsProducers m.registry.conns (m.step input).1.registry.conns := by
  unfold Manager.step
  split
  · cases input with
    | command cmd env => exact absurd rfl (hinput cmd env)
    | commandsClosed => exact KeepsProducers.empty _
    | datagram buf src now =>
      have hkeeps := keepsProducers_consumeDatagram m.registry buf src.ip now
      simp only [Manager.receive]
      split <;> exact hkeeps
    | recvError kind order =>
      simp only [Manager.receiveError]
      split
      · exact KeepsProducers.refl _
      · exact KeepsProducers.empty _
    | tick now order sends =>
      exact (tickLoop_spec now sends _ m.registry.conns).1.trans
        (keepsProducers_loseConnections _ _)
  · exact KeepsProducers.refl _

/-- Losing connections tells their listeners and leaves their groups; nothing else goes out. -/
theorem loseConnections_effects (ended : List (UInt32 × LostReason)) (m : Manager) :
    ∀ effect ∈ (m.loseConnections ended).2,
      (∃ id tx ev, effect = .event id tx ev) ∨ ∃ group, effect = .left group := by
  induction ended generalizing m with
  | nil =>
    intro effect h
    cases h
  | cons p rest ih =>
    obtain ⟨id, reason⟩ := p
    intro effect h
    rcases List.mem_append.mp h with hfirst | hrest
    · simp only [List.mem_append, Option.mem_toList, Option.map_eq_some_iff] at hfirst
      rcases hfirst with ⟨tx, -, rfl⟩ | ⟨group, -, rfl⟩
      · exact .inl ⟨id, tx, .lost reason, rfl⟩
      · exact .inr ⟨group, rfl⟩
    · exact ih _ effect hrest

/-- Losing connections sends no datagram. -/
theorem loseConnections_no_send (ended : List (UInt32 × LostReason)) (m : Manager) (id : UInt32)
    (endpoint : SocketAddr) (datagram : Bytes) :
    ManagerEffect.send id endpoint datagram ∉ (m.loseConnections ended).2 := by
  intro h
  rcases loseConnections_effects ended m _ h with ⟨_, _, _, heq⟩ | ⟨_, heq⟩ <;> cases heq

/-- A pass over the connections gives no verdict. -/
theorem tickLoop_no_verdict (now : Instant) (sends : UInt32 → Except ErrorKind Unit)
    (ids : List UInt32) (conns : Connections) (ack : ℕ) (result : Except EnipError Unit) :
    ManagerEffect.verdict ack result ∉ (tickLoop now sends ids conns).2.1 := by
  induction ids generalizing conns with
  | nil => exact List.not_mem_nil
  | cons id ids ih =>
    unfold tickLoop
    split
    · exact ih conns
    · simp only [List.mem_append, Option.mem_toList, Option.map_eq_some_iff]
      rintro (⟨bytes, -, heq⟩ | htail)
      · cases heq
      · exact ih _ htail

/-- Only a command is answered with a verdict. -/
theorem no_verdict_step (m : Manager) {input : ManagerInput}
    (hinput : ∀ cmd env, input ≠ .command cmd env) (ack : ℕ) (result : Except EnipError Unit) :
    ManagerEffect.verdict ack result ∉ (m.step input).2 := by
  have hlost : ∀ (ended : List (UInt32 × LostReason)) (m : Manager),
      ManagerEffect.verdict ack result ∉ (m.loseConnections ended).2 := by
    intro ended m h
    rcases loseConnections_effects ended m _ h with ⟨_, _, _, heq⟩ | ⟨_, heq⟩ <;> cases heq
  unfold Manager.step
  split
  · cases input with
    | command cmd env => exact absurd rfl (hinput cmd env)
    | commandsClosed => exact List.not_mem_nil
    | datagram buf src now =>
      simp only [Manager.receive]
      split
      · simp only [Manager.deliver]
        split
        · exact List.not_mem_nil
        · split <;> simp
      · exact List.not_mem_nil
    | recvError kind order =>
      simp only [Manager.receiveError]
      split
      · exact List.not_mem_nil
      · exact hlost _ _
    | tick now order sends =>
      simp only [Manager.tick]
      intro h
      rcases List.mem_append.mp h with hsent | hrest
      · exact tickLoop_no_verdict _ _ _ _ _ _ hsent
      · exact hlost _ _ hrest
  · exact List.not_mem_nil

/-- Every datagram a manager step sends is one that its connection produces. -/
theorem producedBy_of_send (m : Manager) {input : ManagerInput} {id : UInt32}
    {endpoint : SocketAddr} {datagram : Bytes} (hinput : ∀ cmd env, input ≠ .command cmd env)
    (h : ManagerEffect.send id endpoint datagram ∈ (m.step input).2) :
    ∃ c, m.registry.conns.lookup id = some c ∧ ProducedBy c datagram := by
  unfold Manager.step at h
  split at h
  · cases input with
    | command cmd env => exact absurd rfl (hinput cmd env)
    | commandsClosed => cases h
    | datagram buf src now =>
      simp only [Manager.receive] at h
      split at h
      · simp only [Manager.deliver] at h
        split at h
        · cases h
        · split at h <;> simp at h
      · cases h
    | recvError kind order =>
      simp only [Manager.receiveError] at h
      split at h
      · cases h
      · exact absurd h (loseConnections_no_send _ _ _ _ _)
    | tick now order sends =>
      rcases List.mem_append.mp h with hsent | hlost
      · exact (tickLoop_spec now sends _ m.registry.conns).2 id endpoint datagram hsent
      · exact absurd hlost (loseConnections_no_send _ _ _ _ _)
  · cases h

end EnipAdapter.Analysis
