import EnipAdapter.Analysis.SequenceAgreement
import EnipAdapter.Interface.ConnectionSizeContract
import Mathlib.Data.Nat.Bitwise

/-!
# Class-1 connection sizes agree end to end

The flags of a parameter word stand above its size, so a word is taken apart by the masks and
shifts of the decoder whatever the size is, as long as the size keeps to its field. The size of
the word is the length of every frame that carries the negotiated data.
-/

set_option autoImplicit false

namespace EnipAdapter.Analysis

open EnipAdapter.Foundation EnipAdapter.Interface EnipAdapter.Model

/-! ## A field below the flags -/

/-- A short number has no bit above its length. -/
theorem and_two_pow_eq_zero {n k i : ℕ} (hn : n < 2 ^ k) (hi : k ≤ i) : n &&& 2 ^ i = 0 := by
  have hbit : n.testBit i = false :=
    Nat.testBit_lt_two_pow (Nat.lt_of_lt_of_le hn (Nat.pow_le_pow_right (by omega) hi))
  rw [Nat.and_two_pow, hbit]
  exact Nat.zero_mul _

/-- Shifted by its length or more, a number is gone. -/
theorem shiftRight_eq_zero_of_lt {n k i : ℕ} (hn : n < 2 ^ k) (hi : k ≤ i) : n >>> i = 0 := by
  rw [Nat.shiftRight_eq_div_pow]
  exact Nat.div_eq_of_lt (Nat.lt_of_lt_of_le hn (Nat.pow_le_pow_right (by omega) hi))

/-- A mask distributes over the parts of a word. -/
theorem u16_or_and (a b m : UInt16) : (a ||| b) &&& m = (a &&& m) ||| (b &&& m) := by
  apply UInt16.toNat_inj.mp
  simp only [UInt16.toNat_and, UInt16.toNat_or, Nat.and_or_distrib_right]

/-- A mask distributes over the parts of a double word. -/
theorem u32_or_and (a b m : UInt32) : (a ||| b) &&& m = (a &&& m) ||| (b &&& m) := by
  apply UInt32.toNat_inj.mp
  simp only [UInt32.toNat_and, UInt32.toNat_or, Nat.and_or_distrib_right]

/-! ## Parameter words -/

namespace ParamsWord

/-- The flags of the 16-bit word. -/
def flags16 (framing : VariableLength) (priority : Priority) (connType : ConnType)
    (owner : Bool) : UInt16 :=
  let variableBit : UInt16 := if framing.isVariable then 1 else 0
  let ownerBit : UInt16 := if owner then 1 else 0
  (variableBit <<< 9) ||| (priority.bits.toUInt16 <<< 10) ||| (connType.bits.toUInt16 <<< 13) |||
    (ownerBit <<< 15)

/-- The flags of the 32-bit word. -/
def flags32 (framing : VariableLength) (priority : Priority) (connType : ConnType)
    (owner : Bool) : UInt32 :=
  let variableBit : UInt32 := if framing.isVariable then 1 else 0
  let ownerBit : UInt32 := if owner then 1 else 0
  (variableBit <<< 25) ||| (priority.bits <<< 26) ||| (connType.bits <<< 29) ||| (ownerBit <<< 31)

/-- The decoder takes the flags of a word apart. -/
theorem decodeU16_flags (framing : VariableLength) (priority : Priority) (connType : ConnType)
    (owner : Bool) :
    NetworkConnectionParams.decodeU16 (flags16 framing priority connType owner) =
      ⟨0, framing, priority, connType, owner⟩ := by
  cases framing <;> cases priority <;> cases connType <;> cases owner <;> decide +kernel

/-- The flags of a large word are read back. -/
theorem decodeU32_flags (framing : VariableLength) (priority : Priority) (connType : ConnType)
    (owner : Bool) :
    NetworkConnectionParams.decodeU32 (flags32 framing priority connType owner) =
      ⟨0, framing, priority, connType, owner⟩ := by
  cases framing <;> cases priority <;> cases connType <;> cases owner <;> decide +kernel

/-- The mask of a size leaves a size of nine bits as it is. -/
theorem and_nineBits {size : UInt16} (h : size.toNat < 2 ^ 9) :
    size &&& (0x01FF : UInt16) = size := by
  apply UInt16.toNat_inj.mp
  rw [UInt16.toNat_and]
  show size.toNat &&& (2 ^ 9 - 1) = _
  rw [Nat.and_two_pow_sub_one_eq_mod]
  exact Nat.mod_eq_of_lt h

/-- A size of nine bits is read from below the flags, and leaves them alone. -/
theorem decodeU16_or {size flags : UInt16} (h : size.toNat < 2 ^ 9) :
    NetworkConnectionParams.decodeU16 (size ||| flags) =
      { NetworkConnectionParams.decodeU16 flags with
        size := size ||| (NetworkConnectionParams.decodeU16 flags).size } := by
  have hvariable : size &&& (0x0200 : UInt16) = 0 :=
    UInt16.toNat_inj.mp ((UInt16.toNat_and ..).trans (and_two_pow_eq_zero h (Nat.le_refl 9)))
  have howner : size &&& (0x8000 : UInt16) = 0 :=
    UInt16.toNat_inj.mp ((UInt16.toNat_and ..).trans
      (and_two_pow_eq_zero h (show 9 ≤ 15 by omega)))
  have hpriority : size >>> 10 = 0 :=
    UInt16.toNat_inj.mp ((UInt16.toNat_shiftRight ..).trans
      (shiftRight_eq_zero_of_lt h (by decide)))
  have hconn : size >>> 13 = 0 :=
    UInt16.toNat_inj.mp ((UInt16.toNat_shiftRight ..).trans
      (shiftRight_eq_zero_of_lt h (by decide)))
  simp only [NetworkConnectionParams.decodeU16, u16_or_and, UInt16.shiftRight_or, and_nineBits h,
    hvariable, howner, hpriority, hconn, UInt16.zero_or]

/-- A size of sixteen bits is read from below the flags of the large form. -/
theorem decodeU32_or (size : UInt16) (flags : UInt32) :
    NetworkConnectionParams.decodeU32 (size.toUInt32 ||| flags) =
      { NetworkConnectionParams.decodeU32 flags with
        size := size ||| (NetworkConnectionParams.decodeU32 flags).size } := by
  have h : size.toUInt32.toNat < 2 ^ 16 := by
    rw [UInt16.toNat_toUInt32]
    exact size.toNat_lt
  have hsize : size.toUInt32 &&& (0xFFFF : UInt32) = size.toUInt32 := by
    apply UInt32.toNat_inj.mp
    rw [UInt32.toNat_and]
    show size.toUInt32.toNat &&& (2 ^ 16 - 1) = _
    rw [Nat.and_two_pow_sub_one_eq_mod]
    exact Nat.mod_eq_of_lt h
  have hvariable : size.toUInt32 &&& (0x02000000 : UInt32) = 0 :=
    UInt32.toNat_inj.mp ((UInt32.toNat_and ..).trans
      (and_two_pow_eq_zero h (show 16 ≤ 25 by omega)))
  have howner : size.toUInt32 &&& (0x80000000 : UInt32) = 0 :=
    UInt32.toNat_inj.mp ((UInt32.toNat_and ..).trans
      (and_two_pow_eq_zero h (show 16 ≤ 31 by omega)))
  have hpriority : size.toUInt32 >>> 26 = 0 :=
    UInt32.toNat_inj.mp ((UInt32.toNat_shiftRight ..).trans
      (shiftRight_eq_zero_of_lt h (by decide)))
  have hconn : size.toUInt32 >>> 29 = 0 :=
    UInt32.toNat_inj.mp ((UInt32.toNat_shiftRight ..).trans
      (shiftRight_eq_zero_of_lt h (by decide)))
  simp only [NetworkConnectionParams.decodeU32, u32_or_and, UInt32.shiftRight_or, hsize, hvariable,
    howner, hpriority, hconn, UInt32.zero_or, UInt32.toUInt16_or, UInt16.toUInt16_toUInt32]

/-- A size that fits its field is packed, and the word is read back. -/
theorem encodeU16_spec {p : NetworkConnectionParams} (h : p.size.toNat < 2 ^ 9) :
    ∃ word, p.encodeU16 = .ok word ∧ NetworkConnectionParams.decodeU16 word = p := by
  have hfits : ¬ p.size > 0x01FF := by
    rw [gt_iff_lt, UInt16.lt_iff_toNat_lt]
    show ¬ 511 < p.size.toNat
    omega
  refine ⟨p.size ||| flags16 p.variable_ p.priority p.connType p.redundantOwner, ?_, ?_⟩
  · rw [NetworkConnectionParams.encodeU16, if_neg hfits, and_nineBits h, flags16]
    simp only [UInt16.or_assoc]
  · rw [decodeU16_or h, decodeU16_flags]
    simp only [UInt16.or_zero]

/-- The large word is read back as the parameters it was made of. -/
theorem decodeU32_encodeU32 (p : NetworkConnectionParams) :
    NetworkConnectionParams.decodeU32 p.encodeU32 = p := by
  have hword : p.encodeU32 = p.size.toUInt32 |||
      flags32 p.variable_ p.priority p.connType p.redundantOwner := by
    rw [NetworkConnectionParams.encodeU32, flags32]
    simp only [UInt32.or_assoc]
  rw [hword, decodeU32_or, decodeU32_flags]
  simp only [UInt16.or_zero]

end ParamsWord

/-! ## The words of a request -/

/-- The size that goes on the wire is the negotiated one. -/
theorem onWireSize_eq_ok {d : DirectionSpec} {size : UInt16} (h : onWireSize d = .ok size) :
    size.toNat = negotiatedSize d := by
  by_cases hfits : negotiatedSize d < 2 ^ 16
  · have hok : onWireSize d = .ok (UInt16.ofNat (negotiatedSize d)) := if_pos hfits
    cases hok.symm.trans h
    exact UInt16.toNat_ofNat_of_lt' hfits
  · have herror : onWireSize d = .error (.tooLarge 65535) := if_neg hfits
    cases herror.symm.trans h

/-- A request that is built has the parameters of its directions, and is large exactly when a
size is above the threshold. -/
theorem buildClass1Open_params {spec : IoConnectionSpec} {t2oId originator : UInt32}
    {serial : UInt16} {open_ : ForwardOpenRequest}
    (h : buildClass1Open spec t2oId serial originator = .ok open_) :
    Describes open_.oTParams spec.o2t (negotiatedSize spec.o2t) ∧
      Describes open_.tOParams spec.t2o (negotiatedSize spec.t2o) ∧
      (open_.large = true ↔
        largeForwardOpenThreshold < negotiatedSize spec.o2t ∨
          largeForwardOpenThreshold < negotiatedSize spec.t2o) := by
  simp only [buildClass1Open, bind_ok] at h
  obtain ⟨o2tSize, ho2t, t2oSize, ht2o, _, -, _, -, h⟩ := h
  have ho2t' := onWireSize_eq_ok ho2t
  have ht2o' := onWireSize_eq_ok ht2o
  cases h
  refine ⟨⟨ho2t', rfl, rfl, rfl⟩, ⟨ht2o', rfl, rfl, rfl⟩, ?_⟩
  simp only [ForwardOpenRequest.class1, decide_eq_true_eq, gt_iff_lt, ho2t', ht2o']

/-- The parameters of a direction are written where their size fits, and a request that holds the
written word at an offset has them there. -/
theorem writeParams_spec {r : ForwardOpenRequest} {p : NetworkConnectionParams}
    (h : r.large = false → p.size.toNat < 2 ^ 9) :
    ∃ word, r.writeParams p = .ok word ∧ word.length = wordWidth r.large ∧
      ∀ bytes offset, (bytes.drop offset).take (wordWidth r.large) = word →
        paramsAt r.large bytes offset = p := by
  unfold ForwardOpenRequest.writeParams paramsAt wordWidth
  cases hlarge : r.large with
  | true =>
    have hlt : p.encodeU32.toNat < 256 ^ 4 := p.encodeU32.toNat_lt
    refine ⟨putU32 p.encodeU32, rfl, putU32_length _, ?_⟩
    intro bytes offset hword
    rw [hword, if_pos rfl, putU32, ofLeBytes_leBytes, Nat.mod_eq_of_lt hlt, UInt32.ofNat_toNat]
    exact ParamsWord.decodeU32_encodeU32 p
  | false =>
    obtain ⟨word, hencode, hdecode⟩ := ParamsWord.encodeU16_spec (h hlarge)
    have hlt : word.toNat < 256 ^ 2 := word.toNat_lt
    refine ⟨putU16 word, bind_ok.mpr ⟨word, hencode, rfl⟩, putU16_length _, ?_⟩
    intro bytes offset hword
    rw [hword, if_neg Bool.false_ne_true, putU16, ofLeBytes_leBytes, Nat.mod_eq_of_lt hlt,
      UInt16.ofNat_toNat]
    exact hdecode

/-- The words stand at their offsets in the encoded request. -/
theorem words_of_encode {r : ForwardOpenRequest} {bytes oT tO : Bytes}
    (h : r.encode = .ok bytes) (hoT : r.writeParams r.oTParams = .ok oT)
    (htO : r.writeParams r.tOParams = .ok tO) (hoTlen : oT.length = wordWidth r.large)
    (htOlen : tO.length = wordWidth r.large) :
    (bytes.drop o2tWordOffset).take (wordWidth r.large) = oT ∧
      (bytes.drop (t2oWordOffset r.large)).take (wordWidth r.large) = tO := by
  simp only [ForwardOpenRequest.encode, hoT, htO, bind_ok] at h
  obtain ⟨path, -, words, -, _, hoT', _, htO', h⟩ := h
  cases hoT'
  cases htO'
  cases h
  generalize hfront : putU8 r.priorityTimeTick ++ putU8 r.timeoutTicks ++
    putU32 r.oTConnectionId ++ putU32 r.tOConnectionId ++ putU16 r.connectionSerial ++
    putU16 r.vendorId ++ putU32 r.originatorSerial ++ putU8 r.timeoutMultiplier.code ++ [0, 0, 0] ++
    putU32 r.oTRpi = front
  have hfrontLength : front.length = o2tWordOffset := by
    subst hfront
    simp [o2tWordOffset]
  simp only [List.append_assoc]
  constructor
  · rw [List.drop_left' hfrontLength, List.take_left' hoTlen]
  · have hsecond : (front ++ (oT ++ putU32 r.tORpi)).length = t2oWordOffset r.large := by
      rw [List.length_append, List.length_append, hfrontLength, hoTlen, putU32_length]
      unfold t2oWordOffset
      omega
    rw [← List.append_assoc oT, ← List.append_assoc front, List.drop_left' hsecond,
      List.take_left' htOlen]

/-! ## The frames of a connection -/

/-- A payload that decodes and has the negotiated data is not dropped for its size. -/
theorem consume_ne_sizeMismatch {c : IoConnection} {payload : Bytes} {frame : IoFrame}
    (hdecode : IoFrame.decode c.params.t2oFormat payload = .ok frame)
    (hsize : frame.data.length = c.params.t2oDataSize) (encapSequence : UInt32) (now : Instant) :
    (c.consume payload encapSequence now).2 ≠ .dropped .sizeMismatch := by
  have hfits : (if c.params.t2oFixed then decide (frame.data.length ≠ c.params.t2oDataSize)
      else decide (frame.data.length > c.params.t2oDataSize)) = false := by
    rw [hsize]
    cases c.params.t2oFixed <;> simp
  intro hdrop
  simp only [IoConnection.consume, hdecode, hfits, Bool.false_eq_true, if_false] at hdrop
  cases hseq : frame.sequence with
  | none =>
    rw [hseq] at hdrop
    cases hdrop
  | some seq =>
    cases hlast : c.lastAcceptedSeq with
    | none =>
      simp only [hseq, hlast] at hdrop
      cases hdrop
    | some last =>
      simp only [hseq, hlast] at hdrop
      split_ifs at hdrop
      all_goals cases hdrop

/-- A frame with the negotiated output is as long as the negotiated size. -/
theorem payload_of_producesFor {spec : IoConnectionSpec} {c : IoConnection}
    (hc : ProducesFor spec c) (hfits : negotiatedSize spec.o2t < 2 ^ 16) :
    producedPayload c.produceFrame.2 =
        some (c.advanceSequences.currentFrame.encode c.params.o2tFormat, c.encapSeq + 1) ∧
      (c.advanceSequences.currentFrame.encode c.params.o2tFormat).length =
        negotiatedSize spec.o2t := by
  have hdata : c.params.o2tFormat.overhead + (sentData c).length =
      negotiatedSize spec.o2t := by
    unfold sentData negotiatedSize
    rw [hc.format]
    cases hcarries : spec.o2t.format.carriesData with
    | true =>
      simp only [if_true, hc.output, hc.size]
    | false =>
      simp only [Bool.false_eq_true, if_false, List.length_nil]
  refine ⟨producedPayload_produceFrame c (by rw [hdata]; exact hfits), ?_⟩
  rw [encode_length]
  exact hdata

/-! ## From the spec to the frames -/

/-- The parameters of both directions are written whenever the request is built. -/
theorem writeParams_of_build {spec : IoConnectionSpec} {t2oId originator : UInt32}
    {serial : UInt16} {open_ : ForwardOpenRequest}
    (h : buildClass1Open spec t2oId serial originator = .ok open_) :
    (∃ oT, open_.writeParams open_.oTParams = .ok oT ∧ oT.length = wordWidth open_.large ∧
        ∀ bytes offset, (bytes.drop offset).take (wordWidth open_.large) = oT →
          paramsAt open_.large bytes offset = open_.oTParams) ∧
      ∃ tO, open_.writeParams open_.tOParams = .ok tO ∧ tO.length = wordWidth open_.large ∧
        ∀ bytes offset, (bytes.drop offset).take (wordWidth open_.large) = tO →
          paramsAt open_.large bytes offset = open_.tOParams := by
  obtain ⟨ho2t, ht2o, hlarge⟩ := buildClass1Open_params h
  -- the threshold of the large form lies below what nine bits hold
  have hsmall : open_.large = false →
      negotiatedSize spec.o2t < 2 ^ 9 ∧ negotiatedSize spec.t2o < 2 ^ 9 := by
    intro hstandard
    have hnot : ¬ (largeForwardOpenThreshold < negotiatedSize spec.o2t ∨
        largeForwardOpenThreshold < negotiatedSize spec.t2o) := by
      rw [← hlarge, hstandard]
      exact Bool.false_ne_true
    unfold largeForwardOpenThreshold at hnot
    omega
  constructor
  · exact writeParams_spec fun hstandard => by rw [ho2t.size]; exact (hsmall hstandard).1
  · exact writeParams_spec fun hstandard => by rw [ht2o.size]; exact (hsmall hstandard).2

/-- The words of an encoded request are the parameters of its directions. -/
theorem paramsAt_of_encode {spec : IoConnectionSpec} {t2oId originator : UInt32}
    {serial : UInt16} {open_ : ForwardOpenRequest}
    (h : buildClass1Open spec t2oId serial originator = .ok open_) {bytes : Bytes}
    (hencode : open_.encode = .ok bytes) :
    paramsAt open_.large bytes o2tWordOffset = open_.oTParams ∧
      paramsAt open_.large bytes (t2oWordOffset open_.large) = open_.tOParams := by
  obtain ⟨⟨oT, hoT, hoTlen, hoTparams⟩, tO, htO, htOlen, htOparams⟩ := writeParams_of_build h
  obtain ⟨hfirst, hsecond⟩ := words_of_encode hencode hoT htO hoTlen htOlen
  exact ⟨hoTparams _ _ hfirst, htOparams _ _ hsecond⟩

/-- A class-1 open goes out in the large form exactly when a size is above the threshold, and
its parameters can be written in the form it has; the words of the encoded request say the flags
and the size of each direction, which is the overhead of its format and the data that the format
carries; and a produced frame with the negotiated output has a payload of that size, which a
consumer of the same format and data size does not drop for its size. -/
theorem class1_sizes_agree (spec : IoConnectionSpec) (t2oId originator : UInt32)
    (serial : UInt16) (open_ : ForwardOpenRequest)
    (hopen : buildClass1Open spec t2oId serial originator = .ok open_) :
    (open_.service = largeForwardOpenService ↔
        505 < negotiatedSize spec.o2t ∨ 505 < negotiatedSize spec.t2o) ∧
      ((∃ word, open_.writeParams open_.oTParams = .ok word) ∧
        ∃ word, open_.writeParams open_.tOParams = .ok word) ∧
      (∀ bytes, open_.encode = .ok bytes →
        Describes (paramsAt open_.large bytes o2tWordOffset) spec.o2t (negotiatedSize spec.o2t) ∧
          Describes (paramsAt open_.large bytes (t2oWordOffset open_.large)) spec.t2o
            (negotiatedSize spec.t2o)) ∧
      ∀ producer, ProducesFor spec producer → ∃ payload encapSequence,
        producedPayload producer.produceFrame.2 = some (payload, encapSequence) ∧
          payload.length = negotiatedSize spec.o2t ∧
          (spec.o2t.format.carriesData = true → ∀ consumer now, ConsumesFor spec consumer →
            (consumer.consume payload encapSequence now).2 ≠ .dropped .sizeMismatch) := by
  obtain ⟨ho2t, ht2o, hlarge⟩ := buildClass1Open_params hopen
  obtain ⟨⟨oT, hoT, -⟩, tO, htO, -⟩ := writeParams_of_build hopen
  refine ⟨?_, ⟨⟨oT, hoT⟩, tO, htO⟩, fun bytes hbytes => ?_, fun producer hproducer => ?_⟩
  · have hservice : open_.service = largeForwardOpenService ↔ open_.large = true := by
      unfold ForwardOpenRequest.service
      cases open_.large <;> decide
    rw [hservice, hlarge]
    rfl
  · obtain ⟨hfirst, hsecond⟩ := paramsAt_of_encode hopen hbytes
    rw [hfirst, hsecond]
    exact ⟨ho2t, ht2o⟩
  · have hfits : negotiatedSize spec.o2t < 2 ^ 16 := by
      rw [← ho2t.size]
      exact open_.oTParams.size.toNat_lt
    obtain ⟨hpayload, hlength⟩ := payload_of_producesFor hproducer hfits
    refine ⟨_, _, hpayload, hlength, fun hcarries consumer now hconsumer => ?_⟩
    have hdecode : IoFrame.decode consumer.params.t2oFormat
        (producer.advanceSequences.currentFrame.encode producer.params.o2tFormat) =
          .ok producer.advanceSequences.currentFrame := by
      rw [hconsumer.format, ← hproducer.format]
      exact decode_currentFrame producer
    apply consume_ne_sizeMismatch hdecode
    have hdata : producer.advanceSequences.currentFrame.data = producer.output := by
      show (if producer.params.o2tFormat.carriesData then producer.output else []) = _
      rw [hproducer.format, hcarries, if_pos rfl]
    rw [hdata, hproducer.output, hproducer.size, hconsumer.size]

/-- A direction of a class-1 open. -/
def directionOf (format : RealTimeFormat) (dataSize : ℕ) : DirectionSpec :=
  ⟨Duration.fromMicros 10000, dataSize, format, .p2p, .scheduled, .fixed⟩

/-- An open with an O→T direction of some format and size. -/
def sizedSpec (format : RealTimeFormat) (dataSize : ℕ) : IoConnectionSpec :=
  ⟨⟨none, 150, 100, []⟩, directionOf .modeless 500, directionOf format dataSize, .x16, .cyclic, 1⟩

/-- The data size of a zero-length direction is no part of its size. -/
theorem zero_length_has_no_data :
    ∃ open_ bytes, buildClass1Open (sizedSpec .zeroLength 5) 1 1 1 = .ok open_ ∧
      open_.encode = .ok bytes ∧
      ¬ Describes (paramsAt open_.large bytes o2tWordOffset) (sizedSpec .zeroLength 5).o2t
        (sizeUnlessHeartbeat (sizedSpec .zeroLength 5).o2t) := by
  have hencodes : ((buildClass1Open (sizedSpec .zeroLength 5) 1 1 1).bind
      ForwardOpenRequest.encode).toOption.isSome = true := by decide +kernel
  cases hopen : buildClass1Open (sizedSpec .zeroLength 5) 1 1 1 with
  | error e =>
    rw [hopen] at hencodes
    cases hencodes
  | ok open_ =>
    cases hbytes : open_.encode with
    | error e =>
      rw [hopen] at hencodes
      simp only [Except.bind, hbytes] at hencodes
      cases hencodes
    | ok bytes =>
      refine ⟨open_, bytes, rfl, hbytes, fun hdescribes => ?_⟩
      have hsize := hdescribes.size
      rw [(paramsAt_of_encode hopen hbytes).1, (buildClass1Open_params hopen).1.size] at hsize
      revert hsize
      decide

/-- Five hundred bytes behind a sequence and a header are one byte too many for the standard
form. -/
theorem sized_500_goes_large :
    ∃ open_, buildClass1Open (sizedSpec .header32Bit 500) 1 1 1 = .ok open_ ∧
      open_.service = largeForwardOpenService := by
  have hbuilds : (buildClass1Open (sizedSpec .header32Bit 500) 1 1 1).toOption.isSome = true := by
    decide +kernel
  cases hopen : buildClass1Open (sizedSpec .header32Bit 500) 1 1 1 with
  | error e =>
    rw [hopen] at hbuilds
    cases hbuilds
  | ok open_ =>
    refine ⟨open_, rfl, ?_⟩
    apply (class1_sizes_agree (sizedSpec .header32Bit 500) 1 1 1 open_ hopen).1.mpr
    exact .inl (by decide)

end EnipAdapter.Analysis
