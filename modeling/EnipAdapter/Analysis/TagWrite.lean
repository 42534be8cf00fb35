import EnipAdapter.Analysis.ServedValue
import EnipAdapter.Analysis.ValueRoundTrip

/-!
# The write of a tag, request by request

The chunk loop moves three counters together: the bytes sent, the offset on the wire and the end
of the chunk. Each is a whole number of elements, and the chunks cover the value without a gap;
a write that is not refused has then put every byte where it belongs.
-/

set_option autoImplicit false

namespace EnipAdapter.Analysis

open EnipAdapter.Foundation EnipAdapter.Model EnipAdapter.Interface

/-! ## Requests -/

/-- A target reads the whole value off a single write. -/
theorem writtenPiece_single (tag : TagAddress) (ty : CipType) (count : UInt16) (bytes : Bytes) :
    writtenPiece (writeTagRequest tag ty count bytes) = some ⟨ty.code, count, 0, bytes⟩ := by
  have hservice : (writeTagRequest tag ty count bytes).service ≠ serviceWriteTagFragmented := by
    show serviceWriteTag ≠ serviceWriteTagFragmented
    decide
  simp only [writtenPiece, if_neg hservice]
  simp only [writeTagRequest, WireReader.withContext, List.append_assoc, WireReader.u16_append,
    bind, Except.bind, pure, Except.pure, Except.toOption]

/-- And each chunk, with its offset, off a fragmented one. -/
theorem writtenPiece_chunk (tag : TagAddress) (ty : CipType) (count : UInt16) (offset : UInt32)
    (chunk : Bytes) :
    writtenPiece (writeTagFragmentedRequest tag ty count offset chunk) =
      some ⟨ty.code, count, offset.toNat, chunk⟩ := by
  have hservice : (writeTagFragmentedRequest tag ty count offset chunk).service =
      serviceWriteTagFragmented := rfl
  simp only [writtenPiece, if_pos hservice]
  simp only [writeTagFragmentedRequest, WireReader.withContext, List.append_assoc,
    WireReader.u16_append, WireReader.u32_append, bind, Except.bind, pure, Except.pure,
    Except.toOption]

/-- A request goes through exactly where it is answered with status 0. -/
theorem verdict_eq_ok_iff (t : WriteTurn) : t.verdict = .ok () ↔ TurnAccepted t := by
  unfold WriteTurn.verdict TurnAccepted
  cases t.outcome with
  | error e => simp [bind, Except.bind]
  | ok reply =>
      have hstatus : reply.status.isOk = true ↔ reply.status.general = .success := by
        rw [CipStatus.isOk]
        cases reply.status.general <;> simp [GeneralStatus.isOk]
      by_cases hservice : reply.replyService = t.request.service ||| 0x80
      · simp only [MessageReply.expectService, if_pos hservice, bind, Except.bind]
        by_cases hok : reply.status.isOk = true
        · rw [if_pos hok]
          exact ⟨fun _ => ⟨reply, rfl, hservice, hstatus.mp hok⟩, fun _ => rfl⟩
        · rw [if_neg hok]
          constructor
          · intro h
            cases h
          · rintro ⟨reply', heq, -, hsuccess⟩
            cases heq
            exact absurd (hstatus.mpr hsuccess) hok
      · simp only [MessageReply.expectService, if_neg hservice, bind, Except.bind]
        constructor
        · intro h
          cases h
        · rintro ⟨reply', heq, hsame, -⟩
          cases heq
          exact absurd hsame hservice

/-! ## Chunks -/

/-- A chunk holds whole elements. -/
theorem dvd_chunkBytes (size : ℕ) : size ∣ chunkBytes size := Dvd.intro_left _ rfl

/-- And one of them at least. -/
theorem chunkBytes_pos {size : ℕ} (h : 0 < size) : 0 < chunkBytes size :=
  Nat.mul_pos (by omega) h

section Loop

variable {client : EipClient} {tag : TagAddress} {ty : CipType} {count : UInt16} {bytes : Bytes}
  {chunkLen : ℕ} {peer : Peer} {n : ℕ} {offset : UInt32} {sent : ℕ}

/-- The end of the chunk that starts at `sent`. -/
def chunkStop (bytes : Bytes) (chunkLen sent : ℕ) : ℕ := min (sent + chunkLen) bytes.length

/-- The turn of the loop that sends the chunk from `sent` on. -/
def chunkTurn (client : EipClient) (tag : TagAddress) (ty : CipType) (count : UInt16)
    (bytes : Bytes) (chunkLen : ℕ) (peer : Peer) (n : ℕ) (offset : UInt32) (sent : ℕ) :
    WriteTurn :=
  let request := writeTagFragmentedRequest tag ty count offset
    ((bytes.take (chunkStop bytes chunkLen sent)).drop sent)
  ⟨request, client.sendCip peer n request⟩

/-- A value that was sent ends the loop. -/
theorem writeLoop_done (h : ¬ sent < bytes.length) (fuel : ℕ) :
    writeLoop client tag ty count bytes chunkLen peer (fuel + 1) n offset sent =
      some ([], .ok ()) := by
  rw [writeLoop, if_neg h]

/-- A refused chunk ends it with the error. -/
theorem writeLoop_refused (h : sent < bytes.length) {e : EnipError}
    (hverdict : (chunkTurn client tag ty count bytes chunkLen peer n offset sent).verdict =
      .error e) (fuel : ℕ) :
    writeLoop client tag ty count bytes chunkLen peer (fuel + 1) n offset sent =
      some ([chunkTurn client tag ty count bytes chunkLen peer n offset sent], .error e) := by
  rw [chunkTurn, chunkStop] at hverdict
  rw [writeLoop, if_pos h]
  simp only [hverdict]
  rfl

/-- An accepted one leaves the result to the later chunks. -/
theorem writeLoop_again (h : sent < bytes.length)
    (hverdict : (chunkTurn client tag ty count bytes chunkLen peer n offset sent).verdict =
      .ok ()) {offset' : UInt32}
    (hadvance : advanceOffset offset
      ((bytes.take (chunkStop bytes chunkLen sent)).drop sent).length = some offset')
    {fuel : ℕ} {turns : List WriteTurn} {result : Except EnipError Unit}
    (hlater : writeLoop client tag ty count bytes chunkLen peer fuel (n + 1) offset'
      (chunkStop bytes chunkLen sent) = some (turns, result)) :
    writeLoop client tag ty count bytes chunkLen peer (fuel + 1) n offset sent =
      some (chunkTurn client tag ty count bytes chunkLen peer n offset sent :: turns, result) := by
  rw [chunkTurn, chunkStop] at hverdict
  rw [chunkStop] at hadvance hlater
  rw [writeLoop, if_pos h]
  simp only [hverdict, hadvance, hlater, Option.map_some]
  rfl

end Loop

/-! ## The loop -/

/-- What a run of the chunk loop from `start` on has done. -/
structure WriteRun (tag : TagAddress) (ty : CipType) (size : ℕ) (count : UInt16) (bytes : Bytes)
    (chunkLen start : ℕ) (turns : List WriteTurn) (result : Except EnipError Unit) : Prop where
  requests : ∀ t ∈ turns, ∃ offset chunk,
    t.request = writeTagFragmentedRequest tag ty count offset chunk ∧ chunk.length ≤ chunkLen ∧
      size ∣ offset.toNat ∧ size ∣ offset.toNat + chunk.length
  contiguous : Contiguous start ((piecesOf turns).map WrittenPiece.piece)
  ok_iff : result = .ok () ↔ ∀ t ∈ turns, TurnAccepted t
  covers : result = .ok () → joinedData ((piecesOf turns).map WrittenPiece.piece) = bytes.drop start

section Run

variable {client : EipClient} {tag : TagAddress} {ty : CipType} {size : ℕ} {count : UInt16}
  {bytes : Bytes} {chunkLen : ℕ} {peer : Peer} {n : ℕ} {offset : UInt32} {sent : ℕ}

/-- The pieces of a run that starts with a chunk. -/
theorem pieces_chunkTurn (turns : List WriteTurn) :
    (piecesOf (chunkTurn client tag ty count bytes chunkLen peer n offset sent :: turns)).map
        WrittenPiece.piece =
      ⟨offset.toNat, (bytes.take (chunkStop bytes chunkLen sent)).drop sent⟩ ::
        (piecesOf turns).map WrittenPiece.piece := by
  have hpiece : writtenPiece
      (chunkTurn client tag ty count bytes chunkLen peer n offset sent).request =
      some ⟨ty.code, count, offset.toNat,
        (bytes.take (chunkStop bytes chunkLen sent)).drop sent⟩ :=
    writtenPiece_chunk tag ty count offset _
  simp only [piecesOf, List.filterMap_cons, hpiece, List.map_cons]

/-- The length of the chunk that starts at `sent`. -/
theorem chunk_length (chunkLen : ℕ) (hsent : sent ≤ bytes.length) :
    ((bytes.take (chunkStop bytes chunkLen sent)).drop sent).length =
        chunkStop bytes chunkLen sent - sent ∧
      sent ≤ chunkStop bytes chunkLen sent ∧
      chunkStop bytes chunkLen sent ≤ bytes.length ∧
      chunkStop bytes chunkLen sent ≤ sent + chunkLen := by
  rw [List.length_drop, List.length_take]
  unfold chunkStop
  omega

/-- Every chunk stops between two elements. -/
theorem dvd_chunkStop (hsize : size ∣ chunkLen) (hbytes : size ∣ bytes.length)
    (hsent : size ∣ sent) : size ∣ chunkStop bytes chunkLen sent := by
  unfold chunkStop
  cases Nat.le_total (sent + chunkLen) bytes.length with
  | inl h =>
      rw [Nat.min_eq_left h]
      exact Nat.dvd_add hsent hsize
  | inr h =>
      rw [Nat.min_eq_right h]
      exact hbytes

/-- The request of a chunk is for whole elements. -/
theorem chunkTurn_request (hsent : sent ≤ bytes.length) (hsize : size ∣ chunkLen)
    (hbytes : size ∣ bytes.length) (hdvd : size ∣ sent) (hoffset : offset.toNat = sent) :
    ∃ offset' chunk,
      (chunkTurn client tag ty count bytes chunkLen peer n offset sent).request =
        writeTagFragmentedRequest tag ty count offset' chunk ∧ chunk.length ≤ chunkLen ∧
        size ∣ offset'.toNat ∧ size ∣ offset'.toNat + chunk.length := by
  obtain ⟨hlen, hle, -, hchunk⟩ := chunk_length chunkLen hsent
  refine ⟨offset, _, rfl, by omega, by rwa [hoffset], ?_⟩
  have hstop : offset.toNat + ((bytes.take (chunkStop bytes chunkLen sent)).drop sent).length =
      chunkStop bytes chunkLen sent := by omega
  rw [hstop]
  exact dvd_chunkStop hsize hbytes hdvd

/-- A run that ends with a refused chunk. -/
theorem writeRun_refused (hsent : sent ≤ bytes.length) (hsize : size ∣ chunkLen)
    (hbytes : size ∣ bytes.length) (hdvd : size ∣ sent) (hoffset : offset.toNat = sent)
    {e : EnipError}
    (hverdict : (chunkTurn client tag ty count bytes chunkLen peer n offset sent).verdict =
      .error e) :
    WriteRun tag ty size count bytes chunkLen sent
      [chunkTurn client tag ty count bytes chunkLen peer n offset sent] (.error e) := by
  have hnot : ¬ TurnAccepted (chunkTurn client tag ty count bytes chunkLen peer n offset sent) := by
    intro haccepted
    rw [(verdict_eq_ok_iff _).mpr haccepted] at hverdict
    cases hverdict
  refine ⟨?_, ?_, ?_, ?_⟩
  · intro t ht
    rw [List.mem_singleton.mp ht]
    exact chunkTurn_request hsent hsize hbytes hdvd hoffset
  · rw [pieces_chunkTurn]
    exact ⟨hoffset, trivial⟩
  · constructor
    · intro h
      cases h
    · intro h
      exact absurd (h _ (List.mem_singleton_self _)) hnot
  · intro h
    cases h

/-- A chunk that went through, in front of a run. -/
theorem writeRun_again (hsent : sent ≤ bytes.length) (hsize : size ∣ chunkLen)
    (hbytes : size ∣ bytes.length) (hdvd : size ∣ sent) (hoffset : offset.toNat = sent)
    (hverdict : (chunkTurn client tag ty count bytes chunkLen peer n offset sent).verdict =
      .ok ()) {turns : List WriteTurn} {result : Except EnipError Unit}
    (hrun : WriteRun tag ty size count bytes chunkLen (chunkStop bytes chunkLen sent) turns
      result) :
    WriteRun tag ty size count bytes chunkLen sent
      (chunkTurn client tag ty count bytes chunkLen peer n offset sent :: turns) result := by
  obtain ⟨hlen, hle, -, -⟩ := chunk_length chunkLen hsent
  have haccepted := (verdict_eq_ok_iff _).mp hverdict
  refine ⟨?_, ?_, ?_, ?_⟩
  · exact List.forall_mem_cons.mpr
      ⟨chunkTurn_request hsent hsize hbytes hdvd hoffset, hrun.requests⟩
  · rw [pieces_chunkTurn]
    refine ⟨hoffset, ?_⟩
    have hnext : sent + ((bytes.take (chunkStop bytes chunkLen sent)).drop sent).length =
        chunkStop bytes chunkLen sent := by omega
    show Contiguous (sent + ((bytes.take (chunkStop bytes chunkLen sent)).drop sent).length) _
    rw [hnext]
    exact hrun.contiguous
  · rw [hrun.ok_iff, List.forall_mem_cons]
    exact ⟨fun h => ⟨haccepted, h⟩, fun h => h.2⟩
  · intro hok
    rw [pieces_chunkTurn, joinedData, List.flatMap_cons]
    have hlater := hrun.covers hok
    rw [joinedData] at hlater
    rw [hlater]
    -- the chunk and what is behind it are all that was left
    show (bytes.take (chunkStop bytes chunkLen sent)).drop sent ++
      bytes.drop (chunkStop bytes chunkLen sent) = bytes.drop sent
    conv_rhs => rw [← List.take_append_drop (chunkStop bytes chunkLen sent) bytes]
    rw [List.drop_append_of_le_length]
    rw [List.length_take]
    unfold chunkStop at hle ⊢
    omega

/-- A value that was sent needs no more chunks. -/
theorem writeRun_done (hsent : ¬ sent < bytes.length) :
    WriteRun tag ty size count bytes chunkLen sent [] (.ok ()) := by
  refine ⟨?_, trivial, ⟨fun _ => ?_, fun _ => rfl⟩, fun _ => ?_⟩
  · intro t ht
    cases ht
  · intro t ht
    cases ht
  · rw [List.drop_of_length_le (by omega)]
    rfl

end Run

/-- A run that is over is not changed by a turn more. -/
theorem writeLoop_succ {client : EipClient} {tag : TagAddress} {ty : CipType} {count : UInt16}
    {bytes : Bytes} {chunkLen : ℕ} {peer : Peer} {fuel n : ℕ} {offset : UInt32} {sent : ℕ}
    {run : List WriteTurn × Except EnipError Unit}
    (h : writeLoop client tag ty count bytes chunkLen peer fuel n offset sent =
      some run) :
    writeLoop client tag ty count bytes chunkLen peer (fuel + 1) n offset sent =
      some run := by
  induction fuel generalizing n offset sent run with
  | zero => cases h
  | succ fuel ih =>
      rw [writeLoop] at h ⊢
      by_cases hmore : sent < bytes.length
      · rw [if_pos hmore] at h ⊢
        cases hverdict : (chunkTurn client tag ty count bytes chunkLen peer n offset sent).verdict
          with
        | error e =>
            rw [chunkTurn, chunkStop] at hverdict
            simp only [hverdict] at h ⊢
            exact h
        | ok u =>
            rw [chunkTurn, chunkStop] at hverdict
            simp only [hverdict] at h ⊢
            cases hadvance : advanceOffset offset
                ((bytes.take (min (sent + chunkLen) bytes.length)).drop sent).length with
            | none =>
                simp only [hadvance] at h ⊢
                exact h
            | some offset' =>
                simp only [hadvance] at h ⊢
                obtain ⟨later, hlater, hcons⟩ := Option.map_eq_some_iff.mp h
                rw [ih hlater, Option.map_some, hcons]
      · rw [if_neg hmore] at h ⊢
        exact h

/-- More fuel changes nothing. -/
theorem writeLoop_add {client : EipClient} {tag : TagAddress} {ty : CipType} {count : UInt16}
    {bytes : Bytes} {chunkLen : ℕ} {peer : Peer} {fuel n : ℕ} {offset : UInt32} {sent : ℕ}
    {run : List WriteTurn × Except EnipError Unit}
    (h : writeLoop client tag ty count bytes chunkLen peer fuel n offset sent =
      some run) (extra : ℕ) :
    writeLoop client tag ty count bytes chunkLen peer (fuel + extra) n offset sent =
      some run := by
  induction extra with
  | zero => exact h
  | succ extra ih => exact writeLoop_succ ih

/-- From a point between two elements on, as many turns as there are bytes left, and one more,
are enough. -/
theorem writeLoop_ends (client : EipClient) (tag : TagAddress) (ty : CipType) {size : ℕ}
    (count : UInt16) {bytes : Bytes} {chunkLen : ℕ} (peer : Peer) (n : ℕ) {offset : UInt32}
    {sent : ℕ} (hpos : 0 < chunkLen) (hsize : size ∣ chunkLen) (hbytes : size ∣ bytes.length)
    (hword : bytes.length < 2 ^ 32) (hsent : sent ≤ bytes.length) (hdvd : size ∣ sent)
    (hoffset : offset.toNat = sent) :
    ∃ turns result,
      (∀ fuel, bytes.length - sent < fuel →
        writeLoop client tag ty count bytes chunkLen peer fuel n offset sent =
          some (turns, result)) ∧
      WriteRun tag ty size count bytes chunkLen sent turns result ∧
      (sent < bytes.length → ∃ later,
        turns = chunkTurn client tag ty count bytes chunkLen peer n offset sent :: later) := by
  induction hroom : bytes.length - sent using Nat.strongRecOn generalizing n offset sent with
  | ind room ih =>
      by_cases hmore : sent < bytes.length
      · cases hverdict :
            (chunkTurn client tag ty count bytes chunkLen peer n offset sent).verdict with
        | error e =>
            refine ⟨_, _, ?_, writeRun_refused hsent hsize hbytes hdvd hoffset hverdict,
              fun _ => ⟨[], rfl⟩⟩
            intro fuel hfuel
            obtain ⟨fewer, rfl, -⟩ := fuel_succ hfuel
            exact writeLoop_refused hmore hverdict fewer
        | ok u =>
            obtain ⟨hlen, hle, hstop, hchunk⟩ := chunk_length chunkLen hsent
            have hfar : sent < chunkStop bytes chunkLen sent := by
              unfold chunkStop
              omega
            have hadvance : advanceOffset offset
                ((bytes.take (chunkStop bytes chunkLen sent)).drop sent).length = some _ :=
              advanceOffset_of_lt (by omega)
            have hnext := advanceOffset_eq_some hadvance
            obtain ⟨turns, result, hloop, hrun, -⟩ :=
              ih _ (by omega) (n + 1) hstop (dvd_chunkStop hsize hbytes hdvd)
                (hnext.trans (by omega)) rfl
            refine ⟨_, result, ?_, writeRun_again hsent hsize hbytes hdvd hoffset hverdict hrun,
              fun _ => ⟨turns, rfl⟩⟩
            intro fuel hfuel
            obtain ⟨fewer, rfl, hfewer⟩ := fuel_succ hfuel
            exact writeLoop_again hmore hverdict hadvance (hloop fewer (by omega))
      · refine ⟨[], .ok (), ?_, writeRun_done hmore, fun h => absurd h hmore⟩
        intro fuel hfuel
        obtain ⟨fewer, rfl, -⟩ := fuel_succ hfuel
        exact writeLoop_done hmore fewer

/-! ## The write -/

/-- A value of an elementary type is written with the width of its elements. -/
theorem valueOf_encode {ty : CipType} {size : ℕ} (hsize : ty.elementSize = some size)
    {v : CipValue} (h : ValueOf ty v) :
    ∃ bytes, CipValue.encodeValue v = .ok bytes ∧ bytes.length = v.elementCount * size := by
  cases h with
  | inl hscalar =>
      obtain ⟨bytes, hbytes, hwidth, -⟩ := scalar_encode hscalar
      rw [hsize] at hwidth
      refine ⟨bytes, hbytes, ?_⟩
      have hone : v.elementCount = 1 := by
        cases v <;> first | rfl | exact hscalar.1.elim
      rw [hone, Nat.one_mul, Option.some.inj hwidth]
  | inr harray =>
      obtain ⟨elems, rfl, hall⟩ := harray
      obtain ⟨bytes, hbytes, hlen⟩ := writeMany_scalars hsize hall
      refine ⟨bytes, ?_, hlen⟩
      rw [CipValue.encodeValue, encodeElems_eq, hbytes]

/-- An element takes eight bytes at most. -/
theorem elementSize_le {ty : CipType} {size : ℕ} (h : ty.elementSize = some size) : size ≤ 8 := by
  cases ty <;> simp only [CipType.elementSize, Option.some.injEq, reduceCtorEq] at h <;> omega

/-- The request of a chunk says what it carries. -/
theorem wholeElements_chunk {tag : TagAddress} {ty : CipType} {size : ℕ} {count : UInt16}
    {t : WriteTurn}
    (h : ∃ offset chunk, t.request = writeTagFragmentedRequest tag ty count offset chunk ∧
      size ∣ offset.toNat ∧ size ∣ offset.toNat + chunk.length) :
    WholeElements ty size count.toNat t := by
  obtain ⟨offset, chunk, hrequest, hstart, hstop⟩ := h
  refine ⟨⟨ty.code, count, offset.toNat, chunk⟩, ?_, rfl, rfl, hstart, hstop⟩
  rw [hrequest, writtenPiece_chunk]

/-- The one turn of a write that fits a single request. -/
def singleTurn (client : EipClient) (tag : TagAddress) (ty : CipType) (count : UInt16)
    (bytes : Bytes) (peer : Peer) : WriteTurn :=
  ⟨writeTagRequest tag ty count bytes, client.sendCip peer 0 (writeTagRequest tag ty count bytes)⟩

/-- A single write is one piece. -/
theorem pieces_singleTurn (client : EipClient) (tag : TagAddress) (ty : CipType) (count : UInt16)
    (bytes : Bytes) (peer : Peer) :
    (piecesOf [singleTurn client tag ty count bytes peer]).map WrittenPiece.piece =
      [⟨0, bytes⟩] := by
  have hpiece : writtenPiece (singleTurn client tag ty count bytes peer).request =
      some ⟨ty.code, count, 0, bytes⟩ := writtenPiece_single tag ty count bytes
  simp only [piecesOf, List.filterMap_cons, hpiece, List.filterMap_nil, List.map_cons,
    List.map_nil]

section Write

variable {ty : CipType} {size : ℕ} {value : CipValue} {bytes : Bytes}
  (hsize : ty.elementSize = some size) (hbytes : CipValue.encodeValue value = .ok bytes)
  (hfits : value.elementCount < 2 ^ 16)
include hsize hbytes hfits

/-- A value that fits one request comfortably is written with one. -/
theorem writeTag_single (client : EipClient) (tag : TagAddress) (peer : Peer) (fuel : ℕ)
    (h : bytes.length + 8 ≤ maxRequestBytes) :
    writeTag client tag ty value peer fuel =
      some ([singleTurn client tag ty (UInt16.ofNat value.elementCount) bytes peer],
        (singleTurn client tag ty (UInt16.ofNat value.elementCount) bytes peer).verdict) := by
  simp only [writeTag, hsize, hbytes, liftWire_ok, if_pos hfits, if_pos h]
  rfl

/-- Any other value is written in chunks. -/
theorem writeTag_chunked (client : EipClient) (tag : TagAddress) (peer : Peer) (fuel : ℕ)
    (h : ¬ bytes.length + 8 ≤ maxRequestBytes) :
    writeTag client tag ty value peer fuel =
      writeLoop client tag ty (UInt16.ofNat value.elementCount) bytes (chunkBytes size) peer fuel
        0 0 0 := by
  simp only [writeTag, hsize, hbytes, liftWire_ok, if_pos hfits, if_neg h]

end Write

/-- The chunks of a value of a length that its count and its type allow. -/
theorem writeLoop_value (client : EipClient) (tag : TagAddress) {ty : CipType} {size : ℕ}
    (hsize : ty.elementSize = some size) {value : CipValue} {bytes : Bytes}
    (hlen : bytes.length = value.elementCount * size) (hcount : value.elementCount ≤ 65535)
    (peer : Peer) :
    ∃ turns result,
      (∀ fuel, bytes.length < fuel →
        writeLoop client tag ty (UInt16.ofNat value.elementCount) bytes (chunkBytes size) peer fuel
          0 0 0 = some (turns, result)) ∧
      WriteRun tag ty size (UInt16.ofNat value.elementCount) bytes (chunkBytes size) 0 turns
        result ∧
      (0 < bytes.length → ∃ later,
        turns = chunkTurn client tag ty (UInt16.ofNat value.elementCount) bytes (chunkBytes size)
          peer 0 0 0 :: later) := by
  have hwidth := elementSize_le hsize
  have hbound : value.elementCount * size ≤ 65535 * 8 := Nat.mul_le_mul hcount hwidth
  have hdvd : size ∣ bytes.length := ⟨value.elementCount, by rw [hlen, Nat.mul_comm]⟩
  exact writeLoop_ends client tag ty (UInt16.ofNat value.elementCount) peer 0
    (chunkBytes_pos (elementSize_pos hsize)) (dvd_chunkBytes size) hdvd (by omega)
    (Nat.zero_le _) (Nat.dvd_zero size) (show (0 : UInt32).toNat = 0 from rfl)

/-- Pieces that cover a value leave it where they are stored. -/
theorem applyWrites_covering {turns : List WriteTurn} {bytes : Bytes}
    (hcontiguous : Contiguous 0 ((piecesOf turns).map WrittenPiece.piece))
    (hjoined : joinedData ((piecesOf turns).map WrittenPiece.piece) = bytes) (content : Bytes) :
    applyWrites content (piecesOf turns) = bytes ++ content.drop bytes.length := by
  have hstore := foldl_storeAt (0 : UInt8) [] content hcontiguous
  rwa [hjoined, List.nil_append, List.nil_append] at hstore

/-- The requests of a write of an elementary value, each for whole elements and with the type and
the count of the value, follow one another without a gap; the write succeeds exactly where every
one of them is answered with status 0, and then a target that stores each piece at its offset
holds the bytes of the value. -/
theorem write_delivers_value (client : EipClient) (tag : TagAddress) {ty : CipType} {size : ℕ}
    (hsize : ty.elementSize = some size) {value : CipValue} (hvalue : ValueOf ty value)
    (hcount : value.elementCount ≤ 65535) (peer : Peer) :
    ∃ bytes turns result,
      CipValue.encodeValue value = .ok bytes ∧
      (∀ fuel, bytes.length < fuel →
        writeTag client tag ty value peer fuel = some (turns, result)) ∧
      (∀ t ∈ turns, WholeElements ty size value.elementCount t) ∧
      Contiguous 0 ((piecesOf turns).map WrittenPiece.piece) ∧
      (result = .ok () ↔ ∀ t ∈ turns, TurnAccepted t) ∧
      (result = .ok () → ∀ content,
        applyWrites content (piecesOf turns) = bytes ++ content.drop bytes.length) := by
  obtain ⟨bytes, hbytes, hlen⟩ := valueOf_encode hsize hvalue
  have hfits : value.elementCount < 2 ^ 16 := by omega
  have hfield : (UInt16.ofNat value.elementCount).toNat = value.elementCount :=
    UInt16.toNat_ofNat_of_lt' hfits
  have hdvd : size ∣ bytes.length := ⟨value.elementCount, by rw [hlen, Nat.mul_comm]⟩
  by_cases hsingle : bytes.length + 8 ≤ maxRequestBytes
  · -- one request carries the whole value
    have hpieces := pieces_singleTurn client tag ty (UInt16.ofNat value.elementCount) bytes peer
    have hcontiguous : Contiguous 0 ((piecesOf [singleTurn client tag ty
        (UInt16.ofNat value.elementCount) bytes peer]).map WrittenPiece.piece) := by
      rw [hpieces]
      exact ⟨rfl, trivial⟩
    refine ⟨bytes, _, _, hbytes,
      fun fuel _ => writeTag_single hsize hbytes hfits client tag peer fuel hsingle,
      ?_, hcontiguous, ?_, fun _ => applyWrites_covering hcontiguous ?_⟩
    · intro t ht
      rw [List.mem_singleton.mp ht]
      refine ⟨⟨ty.code, _, 0, bytes⟩, writtenPiece_single tag ty _ bytes, rfl, hfield,
        Nat.dvd_zero size, ?_⟩
      rwa [Nat.zero_add]
    · rw [verdict_eq_ok_iff, List.forall_mem_singleton]
    · rw [hpieces, joinedData, List.flatMap_singleton]
  · obtain ⟨turns, result, hloop, hrun, -⟩ := writeLoop_value client tag hsize hlen hcount peer
    refine ⟨bytes, turns, result, hbytes, ?_, ?_, hrun.contiguous, hrun.ok_iff, ?_⟩
    · intro fuel hfuel
      rw [writeTag_chunked hsize hbytes hfits client tag peer fuel hsingle]
      exact hloop fuel hfuel
    · intro t ht
      obtain ⟨offset, chunk, hrequest, -, hstart, hstop⟩ := hrun.requests t ht
      have hwhole := wholeElements_chunk ⟨offset, chunk, hrequest, hstart, hstop⟩
      rwa [hfield] at hwhole
    · intro hok
      exact applyWrites_covering hrun.contiguous (hrun.covers hok)

/-- Two hundred DINTs, written in chunks to a target that accepts them. -/
theorem write_delivers_dints :
    ∃ bytes turns result,
      CipValue.encodeValue (.array .dint (List.replicate 200 (.dint 7))) = .ok bytes ∧
      (∀ fuel, bytes.length < fuel →
        writeTag {} elementTag .dint (.array .dint (List.replicate 200 (.dint 7)))
          (answering fun _ => (⟨.success, []⟩, [])) fuel = some (turns, result)) ∧
      (∀ t ∈ turns, WholeElements .dint 4 200 t) ∧
      (result = .ok () ↔ ∀ t ∈ turns, TurnAccepted t) := by
  have hvalue : ValueOf .dint (.array .dint (List.replicate 200 (.dint 7))) := by
    refine Or.inr ⟨_, rfl, ?_⟩
    intro e he
    rw [List.eq_of_mem_replicate he]
    exact ⟨trivial, rfl⟩
  have hcount : (CipValue.array .dint (List.replicate 200 (.dint 7))).elementCount = 200 :=
    List.length_replicate
  have hsize : CipType.dint.elementSize = some 4 := rfl
  obtain ⟨bytes, turns, result, hbytes, hwrite, hwhole, -, hok, -⟩ :=
    write_delivers_value {} elementTag hsize hvalue (by rw [hcount]; omega)
      (answering fun _ => (⟨.success, []⟩, []))
  rw [hcount] at hwhole
  exact ⟨bytes, turns, result, hbytes, hwrite, hwhole, hok⟩

end EnipAdapter.Analysis
