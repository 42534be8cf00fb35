import EnipAdapter.Analysis.ProducedFrame
import EnipAdapter.Interface.SequenceContract

/-!
# The producer's sequence under the consumer's window

A consumer that follows a producer frame by frame accepts everything. Its gap counter moves
once at every wrap: the producer goes from 65535 to 1, and the consumer's 16-bit difference
takes the skipped 0 for a missed frame.
-/

set_option autoImplicit false

namespace EnipAdapter.Analysis

open EnipAdapter.Foundation EnipAdapter.Model EnipAdapter.Interface

/-! ## The datagrams -/

/-- A frame is its overhead longer than its data. -/
theorem encode_length (frame : IoFrame) (format : RealTimeFormat) :
    (frame.encode format).length = format.overhead + frame.data.length := by
  cases format <;> simp [IoFrame.encode, RealTimeFormat.overhead, RealTimeFormat.hasSequence,
    RealTimeFormat.hasHeader]
  omega

/-- A sequenced address is read back. -/
theorem sequencedAddress_decode_encode (addr : SequencedAddress) :
    SequencedAddress.decode addr.encode = .ok addr := by
  have hsecond := WireReader.u32_append addr.encapSequence [] "sequenced address"
  rw [List.append_nil] at hsecond
  simp [SequencedAddress.decode, SequencedAddress.encode, WireReader.withContext,
    WireReader.u32_append, hsecond, bind, Except.bind, WireReader.expectEnd,
    WireReader.remaining, pure, Except.pure]

/-- A frame that fits is produced, and its payload is the encoded frame. -/
theorem producedPayload_produceFrame (c : IoConnection)
    (hfits : c.params.o2tFormat.overhead + (sentData c).length < 2 ^ 16) :
    producedPayload c.produceFrame.2 =
      some (c.advanceSequences.currentFrame.encode c.params.o2tFormat, c.encapSeq + 1) := by
  simp only [IoConnection.produceFrame]
  have hparams : c.advanceSequences.params = c.params := rfl
  have hdata : c.advanceSequences.currentFrame.data = sentData c := rfl
  have hlength := encode_length c.advanceSequences.currentFrame c.params.o2tFormat
  rw [hdata] at hlength
  rw [hparams]
  generalize c.advanceSequences.currentFrame.encode c.params.o2tFormat = payload at *
  have hshort : payload.length < 65536 := by omega
  have haddr := sequencedAddress_decode_encode
    ⟨c.params.o2tConnectionId, c.advanceSequences.encapSeq⟩
  have haddrLength : (SequencedAddress.encode
      ⟨c.params.o2tConnectionId, c.advanceSequences.encapSeq⟩).length = 8 := by
    simp [SequencedAddress.encode]
  generalize SequencedAddress.encode
    ⟨c.params.o2tConnectionId, c.advanceSequences.encapSeq⟩ = address at *
  generalize hcpf : (⟨[⟨.sequencedAddress, address⟩, CpfItem.connectedData payload]⟩ : Cpf) = cpf
  have hencode : ∃ bytes, cpf.encode = .ok bytes := by
    subst hcpf
    simp [Cpf.encode, Cpf.writeItems, CpfItem.write, CpfItem.connectedData, haddrLength,
      hshort, bind, Except.bind, pure, Except.pure]
  obtain ⟨bytes, hbytes⟩ := hencode
  have hknown : ∀ i ∈ cpf.items, ItemType.fromCode i.typeId.code = i.typeId := by
    subst hcpf
    simp [CpfItem.connectedData, ItemType.code, ItemType.fromCode]
  have hdecode := cpf_decode_encode hknown hbytes
  rw [hbytes, liftWire_ok]
  simp only [producedPayload, connectedPayload, hdecode, Except.toOption, Option.bind_eq_bind,
    Option.bind_some]
  subst hcpf
  simp [Cpf.find, CpfItem.connectedData, haddr, IoConnection.advanceSequences]

/-- A frame that does not fit is not produced. -/
theorem producedPayload_eq_none (c : IoConnection)
    (hlong : 2 ^ 16 ≤ c.params.o2tFormat.overhead + (sentData c).length) :
    producedPayload c.produceFrame.2 = none := by
  simp only [IoConnection.produceFrame]
  have hparams : c.advanceSequences.params = c.params := rfl
  have hdata : c.advanceSequences.currentFrame.data = sentData c := rfl
  have hlength := encode_length c.advanceSequences.currentFrame c.params.o2tFormat
  rw [hdata] at hlength
  rw [hparams]
  generalize c.advanceSequences.currentFrame.encode c.params.o2tFormat = payload at *
  have hnot : ¬ payload.length < 65536 := by omega
  have haddrLength : (SequencedAddress.encode
      ⟨c.params.o2tConnectionId, c.advanceSequences.encapSeq⟩).length = 8 := by
    simp [SequencedAddress.encode]
  have hencode : Cpf.encode ⟨[⟨.sequencedAddress, SequencedAddress.encode
      ⟨c.params.o2tConnectionId, c.advanceSequences.encapSeq⟩⟩, CpfItem.connectedData payload]⟩ =
        .error (.overflow "cpf") := by
    simp [Cpf.encode, Cpf.writeItems, CpfItem.write, CpfItem.connectedData, haddrLength, hnot,
      bind, Except.bind]
  rw [hencode]
  rfl

/-! ## One frame -/

/-- What consuming the frame of a producer in step does: the frame is accepted, nothing is
stale, and the gap counter moves by `gaps`. -/
structure Followed (c : IoConnection) (result : IoConnection × ConsumeOutcome)
    (lastSeq : Option UInt16) (gaps : ℕ) : Prop where
  accepted : ∃ first update, result.2 = .accepted first update
  params : result.1.params = c.params
  lastSeq : result.1.lastAcceptedSeq = lastSeq
  stale : result.1.counters.staleFrames = c.counters.staleFrames
  gaps : result.1.counters.sequenceGaps = c.counters.sequenceGaps + gaps

/-- The consumer measures the producer's next sequence as one ahead, or as two over a wrap. -/
theorem sequenceDelta_advance (seq : UInt16) :
    IoConnection.sequenceDelta (if seq + 1 = 0 then 1 else seq + 1) seq =
      if seq = 65535 then 2 else 1 := by
  by_cases hwrap : seq = 65535
  · subst hwrap
    decide
  · have hnext : seq + 1 ≠ 0 := by
      intro h
      apply hwrap
      have : seq = 0 - 1 := by rw [← h, UInt16.add_sub_cancel]
      rw [this]
      decide
    rw [if_neg hnext, if_neg hwrap, IoConnection.sequenceDelta, UInt16.add_comm,
      UInt16.add_sub_cancel]
    decide

/-- The frame a producer sends next is read back as it was built. -/
theorem decode_currentFrame (p : IoConnection) :
    IoFrame.decode p.params.o2tFormat
        (p.advanceSequences.currentFrame.encode p.params.o2tFormat) =
      .ok p.advanceSequences.currentFrame := by
  have hparams : p.advanceSequences.params = p.params := rfl
  apply ioFrame_decode_encode
  · simp only [IoConnection.currentFrame, hparams]
    cases p.params.o2tFormat.hasSequence <;> rfl
  · simp only [IoConnection.currentFrame, hparams]
    cases p.params.o2tFormat.hasHeader <;> rfl

/-- A consumer of the same format reads the frame that was produced. -/
theorem decode_matching {p : IoConnection} {params : IoConnectionParams} (hm : Matches p params) :
    IoFrame.decode params.t2oFormat (p.advanceSequences.currentFrame.encode p.params.o2tFormat) =
      .ok p.advanceSequences.currentFrame := by
  rw [hm.format]
  exact decode_currentFrame p

/-- Its size is the one negotiated, if the producer's buffer fits. -/
theorem size_matching {p : IoConnection} {params : IoConnectionParams} (hm : Matches p params)
    (hb : BufferFits p params) :
    (if params.t2oFixed
      then decide (p.advanceSequences.currentFrame.data.length ≠ params.t2oDataSize)
      else decide (p.advanceSequences.currentFrame.data.length > params.t2oDataSize)) = false := by
  have hdata : p.advanceSequences.currentFrame.data = sentData p := rfl
  have hsize := hb.size
  rw [hdata, hm.size]
  cases hfixed : params.t2oFixed with
  | false =>
    rw [hfixed] at hsize
    simpa using hsize
  | true =>
    rw [hfixed] at hsize
    simpa using hsize

/-- A frame without a sequence is followed whatever came before it. -/
theorem followed_of_no_sequence {p c : IoConnection} (hm : Matches p c.params)
    (hb : BufferFits p c.params) (hformat : p.params.o2tFormat.hasSequence = false)
    (encapSequence : UInt32) (now : Instant) :
    Followed c (c.consume (p.advanceSequences.currentFrame.encode p.params.o2tFormat)
      encapSequence now) c.lastAcceptedSeq 0 := by
  have hseq : p.advanceSequences.currentFrame.sequence = none := by
    show (if p.params.o2tFormat.hasSequence then _ else none) = none
    rw [hformat]
    rfl
  simp only [IoConnection.consume, decode_matching hm, size_matching hm hb, hseq]
  exact ⟨⟨_, _, rfl⟩, rfl, rfl, rfl, rfl⟩

/-- A format with a sequence carries the count of the connection. -/
theorem currentFrame_sequence {p : IoConnection}
    (hformat : p.params.o2tFormat.hasSequence = true) :
    p.advanceSequences.currentFrame.sequence = some p.advanceSequences.o2tClass1Seq := by
  show (if p.params.o2tFormat.hasSequence then _ else none) = _
  rw [hformat]
  rfl

/-- The first frame with a sequence is followed whatever the sequence is. -/
theorem followed_of_first {p c : IoConnection} (hm : Matches p c.params)
    (hb : BufferFits p c.params) (hformat : p.params.o2tFormat.hasSequence = true)
    (hlast : c.lastAcceptedSeq = none)
    (encapSequence : UInt32) (now : Instant) :
    Followed c (c.consume (p.advanceSequences.currentFrame.encode p.params.o2tFormat)
      encapSequence now) (some p.advanceSequences.o2tClass1Seq) 0 := by
  simp only [IoConnection.consume, decode_matching hm, size_matching hm hb,
    currentFrame_sequence hformat, hlast]
  exact ⟨⟨_, _, rfl⟩, rfl, rfl, rfl, rfl⟩

/-- The next frame of a producer the consumer is in step with is followed; a wrap is counted
as a gap of one. -/
theorem followed_of_in_step {p c : IoConnection} (hm : Matches p c.params)
    (hb : BufferFits p c.params) (hformat : p.params.o2tFormat.hasSequence = true)
    (hlast : c.lastAcceptedSeq = some p.o2tClass1Seq) (encapSequence : UInt32) (now : Instant) :
    Followed c (c.consume (p.advanceSequences.currentFrame.encode p.params.o2tFormat)
      encapSequence now) (some p.advanceSequences.o2tClass1Seq)
      (if p.o2tClass1Seq = 65535 then 1 else 0) := by
  have hdelta : IoConnection.sequenceDelta p.advanceSequences.o2tClass1Seq p.o2tClass1Seq =
      if p.o2tClass1Seq = 65535 then 2 else 1 := sequenceDelta_advance p.o2tClass1Seq
  simp only [IoConnection.consume, decode_matching hm, size_matching hm hb,
    currentFrame_sequence hformat, hlast, hdelta]
  by_cases hwrap : p.o2tClass1Seq = 65535
  · rw [if_pos hwrap, if_pos hwrap]
    exact ⟨⟨_, _, rfl⟩, rfl, rfl, rfl, rfl⟩
  · rw [if_neg hwrap, if_neg hwrap]
    exact ⟨⟨_, _, rfl⟩, rfl, rfl, rfl, rfl⟩

/-! ## Many frames -/

/-- The payloads of the next `n` frames. -/
def nextPayloads : ℕ → IoConnection → List (Bytes × UInt32)
  | 0, _ => []
  | n + 1, p =>
      (p.advanceSequences.currentFrame.encode p.params.o2tFormat, p.encapSeq + 1) ::
        nextPayloads n p.advanceSequences

/-- Producing changes neither format nor size. -/
theorem matches_advanceSequences {p : IoConnection} {params : IoConnectionParams}
    (hm : Matches p params) : Matches p.advanceSequences params :=
  ⟨hm.format, hm.size⟩

/-- Nor the output buffer. -/
theorem bufferFits_advanceSequences {p : IoConnection} {params : IoConnectionParams}
    (hb : BufferFits p params) : BufferFits p.advanceSequences params :=
  ⟨hb.size, hb.item⟩

/-- Frames that fit are all produced, each encoded. -/
theorem producedPayload_produceFrames (n : ℕ) {p : IoConnection} {params : IoConnectionParams}
    (hb : BufferFits p params) :
    (produceFrames n p).2.map producedPayload = (nextPayloads n p).map some := by
  induction n generalizing p with
  | zero => rfl
  | succ n ih =>
    have hfirst := producedPayload_produceFrame p hb.item
    have hrest := ih (bufferFits_advanceSequences hb)
    simp only [produceFrames, List.map_cons, nextPayloads, hfirst]
    exact congrArg _ hrest

/-- What a whole feed does: every frame is accepted, nothing is stale, and the gap counter
moves by `gaps`. -/
structure FollowedAll (c : IoConnection) (result : IoConnection × List ConsumeOutcome)
    (gaps : ℕ) : Prop where
  accepted : ∀ outcome ∈ result.2, ∃ first update, outcome = .accepted first update
  stale : result.1.counters.staleFrames = c.counters.staleFrames
  gaps : result.1.counters.sequenceGaps = c.counters.sequenceGaps + gaps

/-- No frames, nothing to follow. -/
theorem FollowedAll.nil (c : IoConnection) : FollowedAll c (c, []) 0 := by
  refine ⟨fun outcome h => ?_, rfl, rfl⟩
  cases h

/-- A frame that is followed and a feed that is, are a feed that is. -/
theorem Followed.cons {c : IoConnection} {result : IoConnection × ConsumeOutcome}
    {rest : IoConnection × List ConsumeOutcome} {lastSeq : Option UInt16} {gaps gaps' : ℕ}
    (hfirst : Followed c result lastSeq gaps) (hrest : FollowedAll result.1 rest gaps') :
    FollowedAll c (rest.1, result.2 :: rest.2) (gaps + gaps') := by
  refine ⟨fun outcome h => ?_, hrest.stale.trans hfirst.stale, ?_⟩
  · rcases List.mem_cons.mp h with heq | hmem
    · rw [heq]
      exact hfirst.accepted
    · exact hrest.accepted outcome hmem
  · have h := hrest.gaps
    have h' := hfirst.gaps
    show rest.1.counters.sequenceGaps = _
    omega

/-- Frames without a sequence leave no gap. -/
theorem feed_no_sequence (n : ℕ) (now : ℕ → Instant) {p c : IoConnection}
    (hm : Matches p c.params) (hb : BufferFits p c.params)
    (hformat : p.params.o2tFormat.hasSequence = false) :
    FollowedAll c (feed now c (nextPayloads n p)) 0 := by
  induction n generalizing p c now with
  | zero => exact FollowedAll.nil c
  | succ n ih =>
    have hfirst := followed_of_no_sequence hm hb hformat (p.encapSeq + 1) (now 0)
    have hm' := matches_advanceSequences hm
    have hb' := bufferFits_advanceSequences hb
    rw [← hfirst.params] at hm' hb'
    exact hfirst.cons (ih (fun i => now (i + 1)) hm' hb' hformat)

/-- In numbers, the producer's sequence counts up and starts over at 1. -/
theorem advanceSequences_toNat (p : IoConnection) :
    p.advanceSequences.o2tClass1Seq.toNat = firstSequence p := by
  show (if p.o2tClass1Seq + 1 = 0 then (1 : UInt16) else p.o2tClass1Seq + 1).toNat =
    if p.o2tClass1Seq = 65535 then 1 else p.o2tClass1Seq.toNat + 1
  generalize p.o2tClass1Seq = seq
  have hlt := seq.toNat_lt
  have hwrap : seq = 65535 ↔ seq.toNat = 65535 := by
    rw [← UInt16.toNat_inj]
    rfl
  have hzero : seq + 1 = 0 ↔ (seq.toNat + 1) % 65536 = 0 := by
    rw [← UInt16.toNat_inj, UInt16.toNat_add]
    rfl
  by_cases h : seq.toNat = 65535
  · rw [if_pos (hzero.mpr (by omega)), if_pos (hwrap.mpr h)]
    rfl
  · have hne : (seq.toNat + 1) % 65536 ≠ 0 := by omega
    rw [if_neg (fun hc => hne (hzero.mp hc)), if_neg (fun hc => h (hwrap.mp hc)),
      UInt16.toNat_add]
    show (seq.toNat + 1) % 65536 = seq.toNat + 1
    omega

/-- A consumer in step counts one gap a wrap. -/
theorem feed_in_step (n : ℕ) (now : ℕ → Instant) {p c : IoConnection} (hm : Matches p c.params)
    (hb : BufferFits p c.params) (hformat : p.params.o2tFormat.hasSequence = true)
    (hlast : c.lastAcceptedSeq = some p.o2tClass1Seq) (hpos : 0 < p.o2tClass1Seq.toNat) :
    FollowedAll c (feed now c (nextPayloads n p)) ((p.o2tClass1Seq.toNat - 1 + n) / 65535) := by
  induction n generalizing p c now with
  | zero =>
    have hlt := p.o2tClass1Seq.toNat_lt
    have hquot : (p.o2tClass1Seq.toNat - 1 + 0) / 65535 = 0 := by omega
    rw [hquot]
    exact FollowedAll.nil c
  | succ n ih =>
    have hfirst := followed_of_in_step hm hb hformat hlast (p.encapSeq + 1) (now 0)
    have hm' := matches_advanceSequences hm
    have hb' := bufferFits_advanceSequences hb
    rw [← hfirst.params] at hm' hb'
    have hnext := advanceSequences_toNat p
    have hpos' : 0 < p.advanceSequences.o2tClass1Seq.toNat := by
      rw [hnext, firstSequence]
      split <;> omega
    have hall := hfirst.cons (ih (fun i => now (i + 1)) hm' hb' hformat hfirst.lastSeq hpos')
    have hcount : (if p.o2tClass1Seq = 65535 then 1 else 0) +
        (p.advanceSequences.o2tClass1Seq.toNat - 1 + n) / 65535 =
          (p.o2tClass1Seq.toNat - 1 + (n + 1)) / 65535 := by
      rw [hnext, firstSequence]
      by_cases hwrap : p.o2tClass1Seq = 65535
      · have htop : p.o2tClass1Seq.toNat = 65535 := by rw [hwrap]; rfl
        rw [if_pos hwrap, if_pos hwrap, htop]
        omega
      · rw [if_neg hwrap, if_neg hwrap]
        have hshift : p.o2tClass1Seq.toNat + 1 - 1 + n = p.o2tClass1Seq.toNat - 1 + (n + 1) := by
          omega
        rw [hshift, Nat.zero_add]
    rw [← hcount]
    exact hall

/-- From the first frame on, a fresh consumer counts one gap a wrap. -/
theorem feed_fresh (n : ℕ) (now : ℕ → Instant) {p c : IoConnection} (hm : Matches p c.params)
    (hb : BufferFits p c.params) (hformat : p.params.o2tFormat.hasSequence = true)
    (hlast : c.lastAcceptedSeq = none) :
    FollowedAll c (feed now c (nextPayloads n p)) ((firstSequence p - 1 + (n - 1)) / 65535) := by
  have hlt := p.advanceSequences.o2tClass1Seq.toNat_lt
  have hnext := advanceSequences_toNat p
  have hpos : 0 < firstSequence p := by
    unfold firstSequence
    split <;> omega
  cases n with
  | zero =>
    have hquot : (firstSequence p - 1 + (0 - 1)) / 65535 = 0 := by omega
    rw [hquot]
    exact FollowedAll.nil c
  | succ n =>
    have hfirst := followed_of_first hm hb hformat hlast (p.encapSeq + 1) (now 0)
    have hm' := matches_advanceSequences hm
    have hb' := bufferFits_advanceSequences hb
    rw [← hfirst.params] at hm' hb'
    rw [← hnext] at hpos
    have hall := hfirst.cons
      (feed_in_step n (fun i => now (i + 1)) hm' hb' hformat hfirst.lastSeq hpos)
    rw [hnext, Nat.zero_add] at hall
    exact hall

/-! ## Agreement -/

/-- For a buffer that fits, agreement is about the counters of the consumer alone. -/
theorem agreesOn_iff (n : ℕ) (now : ℕ → Instant) {p c : IoConnection} {gaps : ℕ}
    (hb : BufferFits p c.params) (hstale : c.counters.staleFrames = 0)
    (hgaps : c.counters.sequenceGaps = 0) (h : FollowedAll c (feed now c (nextPayloads n p)) gaps) :
    AgreesOn n p c now ↔ gaps = 0 := by
  have hpayloads := producedPayload_produceFrames n hb
  constructor
  · rintro ⟨payloads, hmap, -, -, hzero⟩
    have heq : payloads = nextPayloads n p := by
      rw [hpayloads] at hmap
      exact (List.map_injective_iff.mpr (Option.some_injective _) hmap).symm
    rw [heq, h.gaps, hgaps] at hzero
    omega
  · intro hzero
    refine ⟨nextPayloads n p, hpayloads, h.accepted, h.stale.trans hstale, ?_⟩
    rw [h.gaps, hgaps, hzero]

/-- Without a frame there is nothing to disagree on. -/
theorem agreesOn_zero (p : IoConnection) (params : IoConnectionParams) (openedAt : Instant)
    (now : ℕ → Instant) : AgreesOn 0 p (IoConnection.new params openedAt) now := by
  refine ⟨[], rfl, ?_, rfl, rfl⟩
  intro outcome h
  cases h

/-- A frame whose data has another size than the negotiated one is dropped. -/
theorem consume_other_size {p c : IoConnection} (hm : Matches p c.params)
    (hsize : ¬ if c.params.t2oFixed then (sentData p).length = p.params.o2tDataSize
      else (sentData p).length ≤ p.params.o2tDataSize) (encapSequence : UInt32) (now : Instant) :
    (c.consume (p.advanceSequences.currentFrame.encode p.params.o2tFormat)
      encapSequence now).2 = .dropped .sizeMismatch := by
  have hdata : p.advanceSequences.currentFrame.data = sentData p := rfl
  have hbad : (if c.params.t2oFixed
      then decide (p.advanceSequences.currentFrame.data.length ≠ c.params.t2oDataSize)
      else decide (p.advanceSequences.currentFrame.data.length > c.params.t2oDataSize)) = true := by
    rw [hdata, hm.size]
    cases hfixed : c.params.t2oFixed with
    | false =>
      rw [hfixed] at hsize
      simpa using hsize
    | true =>
      rw [hfixed] at hsize
      simpa using hsize
  simp only [IoConnection.consume, decode_matching hm, hbad, if_true]

/-- A frame is accepted only if the producer's buffer fits. -/
theorem bufferFits_of_agreesOn {n : ℕ} {p c : IoConnection} {now : ℕ → Instant}
    (hm : Matches p c.params) (h : AgreesOn (n + 1) p c now) : BufferFits p c.params := by
  obtain ⟨payloads, hmap, haccepted, -, -⟩ := h
  obtain ⟨first, rest, rfl⟩ : ∃ first rest, payloads = first :: rest := by
    cases payloads with
    | nil => cases hmap
    | cons first rest => exact ⟨first, rest, rfl⟩
  have hproduced : producedPayload p.produceFrame.2 = some first := (List.cons.inj hmap).1
  have hitem : p.params.o2tFormat.overhead + (sentData p).length < 2 ^ 16 := by
    by_contra hlong
    rw [producedPayload_eq_none p (by omega)] at hproduced
    cases hproduced
  refine ⟨?_, hitem⟩
  by_contra hsize
  rw [producedPayload_produceFrame p hitem] at hproduced
  obtain rfl := Option.some.inj hproduced
  obtain ⟨isFirst, update, houtcome⟩ := haccepted _ List.mem_cons_self
  have hdropped := consume_other_size hm hsize (p.encapSeq + 1) (now 0)
  have hboth := hdropped.symm.trans houtcome
  cases hboth

/-- A consumer whose format and negotiated size match follows `n` frames of a producer without
counting a gap exactly when there are none, or the producer's buffer has the negotiated size and
the frames have no sequence or their sequences stay below the wrap. -/
theorem producer_consumer_agree_iff (n : ℕ) (p : IoConnection) (params : IoConnectionParams)
    (openedAt : Instant) (now : ℕ → Instant) (hm : Matches p params) :
    AgreesOn n p (IoConnection.new params openedAt) now ↔
      n = 0 ∨ (BufferFits p params ∧
        (p.params.o2tFormat.hasSequence = false ∨ firstSequence p + n ≤ 65536)) := by
  have hpos : 0 < firstSequence p := by
    unfold firstSequence
    split <;> omega
  have hle : firstSequence p ≤ 65535 := by
    have hlt := p.advanceSequences.o2tClass1Seq.toNat_lt
    rw [advanceSequences_toNat] at hlt
    omega
  have hm' : Matches p (IoConnection.new params openedAt).params := hm
  cases n with
  | zero => simp [agreesOn_zero]
  | succ n =>
    have hfit : ∀ hb : BufferFits p params,
        AgreesOn (n + 1) p (IoConnection.new params openedAt) now ↔
          (p.params.o2tFormat.hasSequence = false ∨ firstSequence p + (n + 1) ≤ 65536) := by
      intro hb
      have hb' : BufferFits p (IoConnection.new params openedAt).params := hb
      cases hformat : p.params.o2tFormat.hasSequence with
      | false =>
        rw [agreesOn_iff (n + 1) now hb' rfl rfl (feed_no_sequence (n + 1) now hm' hb' hformat)]
        simp
      | true =>
        rw [agreesOn_iff (n + 1) now hb' rfl rfl (feed_fresh (n + 1) now hm' hb' hformat rfl)]
        simp only [Bool.true_eq_false, false_or]
        omega
    constructor
    · intro h
      have hb : BufferFits p params := bufferFits_of_agreesOn hm' h
      exact .inr ⟨hb, (hfit hb).mp h⟩
    · rintro (h | ⟨hb, hcondition⟩)
      · cases h
      · exact (hfit hb).mpr hcondition

/-- A heartbeat direction: a sequence and no data. -/
def heartbeatParams : IoConnectionParams where
  o2tConnectionId := 0x10
  t2oConnectionId := 0x20
  o2tApi := 10000000
  t2oApi := 10000000
  timeoutMultiplier := 4
  o2tFormat := .heartbeat
  t2oFormat := .heartbeat
  o2tDataSize := 0
  t2oDataSize := 0
  o2tFixed := true
  t2oFixed := true
  txEndpoint := ⟨.v4 0xC0A8010A, 2222⟩
  expectedSourceIp := .v4 0xC0A8010A
  multicastGroup := none

/-- Four bytes of data each way, behind a sequence. -/
def modelessParams : IoConnectionParams :=
  { heartbeatParams with
    o2tFormat := .modeless
    t2oFormat := .modeless
    o2tDataSize := 4
    t2oDataSize := 4 }

/-- A producer with its output written. -/
def modelessProducer : IoConnection := (IoConnection.new modelessParams 0).setOutput [1, 2, 3, 4]

/-- The sample consumer has the format and the size of its producer. -/
theorem modeless_matches : Matches modelessProducer modelessParams := ⟨rfl, rfl⟩

/-- And the sample output has that size. -/
theorem modeless_fits : BufferFits modelessProducer modelessParams := by
  refine ⟨?_, ?_⟩ <;> decide

/-- The 65535 frames before the wrap are followed; a producer that has no output yet is dropped at
its first frame. -/
theorem producer_consumer_agree_iff_modeless :
    AgreesOn 65535 modelessProducer (IoConnection.new modelessParams 0) (fun i => 10000000 * i) ∧
      ¬ AgreesOn 1 (IoConnection.new modelessParams 0) (IoConnection.new modelessParams 0)
        (fun i => 10000000 * i) := by
  refine ⟨?_, fun h => ?_⟩
  · apply (producer_consumer_agree_iff 65535 _ _ 0 _ modeless_matches).mpr
    exact .inr ⟨modeless_fits, by decide⟩
  · obtain hzero | ⟨hb, -⟩ := (producer_consumer_agree_iff 1 (IoConnection.new modelessParams 0)
      modelessParams 0 _ ⟨rfl, rfl⟩).mp h
    · cases hzero
    · exact absurd hb.size (by decide)

/-- The 65536th frame of a producer that began at 1 has sequence 1 again, and the consumer counts a
missed frame. -/
theorem wrap_counts_a_gap :
    Matches modelessProducer modelessParams ∧ BufferFits modelessProducer modelessParams ∧
      ¬ AgreesOn 65536 modelessProducer (IoConnection.new modelessParams 0)
        (fun i => 10000000 * i) := by
  refine ⟨modeless_matches, modeless_fits, ?_⟩
  have hfed := feed_fresh 65536 (fun i => 10000000 * i)
    (c := IoConnection.new modelessParams 0) modeless_matches modeless_fits rfl rfl
  rw [agreesOn_iff _ _ modeless_fits rfl rfl hfed]
  decide

end EnipAdapter.Analysis
