import EnipAdapter.Analysis.ChunkIndependence
import EnipAdapter.Analysis.SessionCorrelation
import EnipAdapter.Interface.SessionContract

/-!
# A session is opened by its own reply and loses no byte

The handshake is one bounded read and a list of checks. The read takes the first frame off the
stream however its bytes are cut, the checks pass exactly on a proper reply, and what the read
left in the buffer is where the session's own reads go on.
-/

set_option autoImplicit false

namespace EnipAdapter.Analysis

open EnipAdapter.Foundation
open EnipAdapter.Model
open EnipAdapter.Model.EncapCodec
open EnipAdapter.Interface

/-! ## The checks -/

/-- The body check passes on exactly the four bytes of the request. -/
theorem checkRegisterBody_ok {data : Bytes} :
    checkRegisterBody data = .ok () ↔ data = putU16 protocolVersion ++ putU16 0 := by
  constructor
  · intro h
    unfold checkRegisterBody at h
    cases hversion : (WireReader.withContext data "register reply").u16 with
    | error e => simp [hversion] at h
    | ok p =>
        obtain ⟨version, r⟩ := p
        simp only [hversion] at h
        split_ifs at h with hne
        cases hoptions : r.u16 with
        | error e => simp [hoptions] at h
        | ok q =>
            obtain ⟨sessionOptions, r'⟩ := q
            simp only [hoptions] at h
            split_ifs at h with hne'
            cases hend : r'.expectEnd with
            | error e => simp [hend] at h
            | ok u =>
                have hrest := WireReader.rest_of_expectEnd hend
                have hr := WireReader.eq_unread_of_u16 hoptions
                have hdata := WireReader.eq_unread_of_u16 hversion
                rw [hr] at hdata
                have hbytes := congrArg WireReader.rest hdata
                simp only [WireReader.withContext, WireReader.unread, hrest,
                  List.append_nil] at hbytes
                rw [hbytes, not_not.mp hne, not_not.mp hne']
  · rintro rfl
    unfold checkRegisterBody WireReader.withContext
    have hoptions := WireReader.u16_append 0 [] "register reply"
    rw [List.append_nil] at hoptions
    rw [WireReader.u16_append]
    simp [hoptions, WireReader.expectEnd, WireReader.remaining]

/-- The reply's checks pass on exactly the replies to our request. -/
theorem checkRegisterReply_ok {f : EncapFrame} {handle : UInt32} :
    checkRegisterReply f = .ok handle ↔ RegisterReply f handle := by
  unfold checkRegisterReply
  simp only [bind_ok, refuse_ok, not_not]
  constructor
  · rintro ⟨-, hcontext, -, hcommand, -, hoptions, -, hstatus, -, hzero, u, hbody, hhandle⟩
    cases hhandle
    exact ⟨hcontext, hcommand, hoptions, hstatus, rfl, hzero, checkRegisterBody_ok.mp hbody⟩
  · rintro ⟨hcontext, hcommand, hoptions, hstatus, rfl, hzero, hbody⟩
    exact ⟨⟨⟩, hcontext, ⟨⟩, hcommand, ⟨⟩, hoptions, ⟨⟩, hstatus, ⟨⟩, hzero, (),
      checkRegisterBody_ok.mpr hbody, rfl⟩

/-! ## The one read -/

/-- A buffer the codec fails on carries no frame, whatever arrives behind it. -/
theorem framesOf_append_of_error {src rest : Bytes} {e : WireError} (more : Bytes)
    (h : decode src = (.error e, rest)) : framesOf (src ++ more) = [] := by
  have hspec := decode_spec src
  rw [h] at hspec
  obtain ⟨hframes, hrest, herr⟩ := hspec
  have hstuck : framesOf (rest ++ more) = [] := by
    unfold errorOf at herr
    split at herr
    · rename_i e' consumed hp
      have hstay := peek_append rest more (by rw [hp]; intro hne; cases hne)
      rw [hp] at hstay
      exact encapFraming.frames_of_none (scan_eq_none_of_broken hstay)
    · cases herr
    · cases herr
  have happend := encapFraming.frames_append_rest src more
  rw [show encapFraming.rest src = rest from hrest] at happend
  exact happend.trans (by rw [show encapFraming.frames src = [] from hframes]; exact hstuck)

/-- What a call of the codec finds in a buffer that starts a stream whose first frame is `f`:
that frame, or no whole frame yet. -/
theorem decode_of_framesOf_append {buf more : Bytes} {f : EncapFrame} {fs : List EncapFrame}
    (h : framesOf (buf ++ more) = f :: fs) :
    (∃ rest, decode buf = (.ok (some f), rest)) ∨
      ∃ rest, decode buf = (.ok none, rest) ∧ framesOf buf = [] ∧
        framesOf (rest ++ more) = f :: fs := by
  cases hd : decode buf with
  | mk outcome rest =>
      cases outcome with
      | error e =>
          rw [framesOf_append_of_error more hd] at h
          cases h
      | ok found =>
          cases found with
          | none =>
              have hspec := decode_spec buf
              rw [hd] at hspec
              exact Or.inr ⟨rest, rfl, hspec.1, by rw [← (decodeLoop_none more hd).1, h]⟩
          | some g =>
              have hframes := (decodeLoop_some more hd).1
              rw [h] at hframes
              cases hframes
              exact Or.inl ⟨rest, rfl⟩

/-- The bounded read surfaces the first frame of the chunks, however they were cut. -/
theorem readOutcome_first {chunks : List Bytes} {later : List ReadEvent} {f : EncapFrame}
    {fs : List EncapFrame} (hchunks : ∀ chunk ∈ chunks, chunk ≠ []) (buf : Bytes)
    (h : framesOf (buf ++ chunks.flatten) = f :: fs) :
    (readOutcome (chunks.map ReadEvent.bytes ++ later) buf).1 = .frame f := by
  induction chunks generalizing buf with
  | nil =>
      rcases decode_of_framesOf_append h with ⟨rest, hd⟩ | ⟨rest, -, hnone, -⟩
      · cases later with
        | nil => simp [readOutcome, hd]
        | cons ev evs => simp [readOutcome, hd]
      · rw [List.flatten_nil, List.append_nil, hnone] at h
        cases h
  | cons chunk chunks ih =>
      obtain ⟨hchunk, hrest⟩ := List.forall_mem_cons.mp hchunks
      rcases decode_of_framesOf_append h with ⟨rest, hd⟩ | ⟨rest, hd, -, hframes⟩
      · simp [readOutcome, hd]
      · cases chunk with
        | nil => exact absurd rfl hchunk
        | cons b bs =>
            rw [List.flatten_cons, ← List.append_assoc] at hframes
            have hnext := ih hrest (rest ++ (b :: bs)) hframes
            simpa [readOutcome, hd] using hnext

/-! ## The handshake -/

/-- The request itself encodes. -/
theorem registerRequest_encodes : ∃ bytes, registerRequest.encode = .ok bytes := by
  unfold EncapFrame.encode
  rw [if_neg (by decide)]
  exact ⟨_, rfl⟩

/-- A frame that encodes is out exactly when the write completed. -/
theorem sendFrameBy_ok {frame : EncapFrame} (h : ∃ bytes, frame.encode = .ok bytes)
    {write : WriteEvent} : sendFrameBy frame write = .ok () ↔ write = .written := by
  obtain ⟨bytes, hbytes⟩ := h
  cases write with
  | written => simp [sendFrameBy, hbytes, Except.map]
  | error kind => simp [sendFrameBy, hbytes, bind, Except.bind]
  | elapsed => simp [sendFrameBy, hbytes, bind, Except.bind]

/-- A session comes of a frame that was read and passed the checks. -/
theorem connectOver_ok {stream : List ReadEvent} {write : WriteEvent} {n : UInt32}
    {actor : SessionActor} :
    connectOver stream write n = some (.ok actor) ↔
      write = .written ∧ ∃ f handle, (readOutcome stream []).1 = .frame f ∧
        RegisterReply f handle ∧
        actor = SessionActor.spawn (readOutcome stream []).2.2 (readOutcome stream []).2.1
          handle n := by
  unfold connectOver
  cases hsend : sendFrameBy registerRequest write with
  | error e =>
      have hwrite : write ≠ .written := by
        rintro rfl
        rw [(sendFrameBy_ok registerRequest_encodes).mpr rfl] at hsend
        cases hsend
      simp [hwrite]
  | ok u =>
      have hwrite := (sendFrameBy_ok registerRequest_encodes).mp hsend
      obtain ⟨outcome, buf, rest⟩ := readOutcome stream []
      cases outcome with
      | frame f =>
          simp only [handshakeFrame, Option.map_some, Option.some.injEq, bind_ok,
            checkRegisterReply_ok, hwrite, true_and]
          constructor
          · rintro ⟨f', hf, handle, hreply, hactor⟩
            cases hf
            cases hactor
            exact ⟨f, handle, rfl, hreply, rfl⟩
          · rintro ⟨f', handle, hf, hreply, rfl⟩
            cases hf
            exact ⟨f, rfl, handle, hreply, rfl⟩
      | eof => simp [handshakeFrame, bind, Except.bind]
      | timedOut => simp [handshakeFrame, bind, Except.bind]
      | broken e => simp [handshakeFrame, bind, Except.bind]
      | pending => simp [handshakeFrame]

/-- A frame that was read settles the handshake: it opens the session or refuses it. -/
theorem connectOver_settles {stream : List ReadEvent} {n : UInt32} {f : EncapFrame}
    (h : (readOutcome stream []).1 = .frame f) :
    ∃ result, connectOver stream .written n = some result := by
  unfold connectOver
  rw [(sendFrameBy_ok registerRequest_encodes).mpr rfl]
  generalize readOutcome stream [] = read at h
  obtain ⟨outcome, buf, rest⟩ := read
  cases h
  exact ⟨_, rfl⟩

/-- The handshake keeps its contract on every stream. -/
theorem handshake_opens_own_session (stream : List ReadEvent) (write : WriteEvent)
    (maxConsecutiveTimeouts : UInt32) :
    HandshakeContract stream write maxConsecutiveTimeouts := by
  constructor
  · intro actor hopen
    obtain ⟨-, f, handle, hread, hreply, rfl⟩ := connectOver_ok.mp hopen
    have hstep := readOutcome_step stream []
    generalize readOutcome stream [] = read at hread hstep
    obtain ⟨outcome, buf, rest⟩ := read
    cases hread
    have hframes : framesOf (received stream) = f :: framesOf (buf ++ received rest) := hstep.1
    refine ⟨f, hreply, hframes, rfl, rfl, ?_⟩
    intro txns
    rw [hframes]
    exact List.cons_prefix_cons.mpr ⟨rfl, (run_account txns _).1⟩
  · rintro rfl chunks later f fs rfl hchunks hframes
    have hread : (readOutcome (chunks.map ReadEvent.bytes ++ later) []).1 = .frame f :=
      readOutcome_first hchunks [] hframes
    have hiff : (∃ actor, connectOver (chunks.map ReadEvent.bytes ++ later) .written
        maxConsecutiveTimeouts = some (.ok actor)) ↔ ∃ handle, RegisterReply f handle := by
      constructor
      · rintro ⟨actor, hopen⟩
        obtain ⟨-, f', handle, hread', hreply, -⟩ := connectOver_ok.mp hopen
        rw [hread] at hread'
        cases hread'
        exact ⟨handle, hreply⟩
      · rintro ⟨handle, hreply⟩
        exact ⟨_, connectOver_ok.mpr ⟨rfl, f, handle, hread, hreply, rfl⟩⟩
    refine ⟨hiff, ?_⟩
    intro hrefused
    obtain ⟨result, hresult⟩ := connectOver_settles hread
    cases result with
    | ok actor => exact absurd (hiff.mp ⟨actor, hresult⟩) hrefused
    | error e => exact ⟨e, hresult⟩

end EnipAdapter.Analysis
