import EnipAdapter.Analysis.RequestPayload
import EnipAdapter.Interface.ReadContract

/-!
# One tag read

What the client can put on the wire for a tag, and what `read_one` makes of the outcome of a
tag read: the session changes only by the type it has seen, and the reading depends on nothing
but that type and the replies.
-/

set_option autoImplicit false

namespace EnipAdapter.Analysis

open EnipAdapter.Foundation EnipAdapter.Model EnipAdapter.Interface

/-- The errors `read_one` makes a BAD sample of. -/
def isSample : EnipError → Bool
  | .cip _ => true
  | .timeout _ => true
  | _ => false

/-- The outcomes of a tag read that give a reading. -/
def isSampled : Except EnipError TagReadResult → Bool
  | .ok _ => true
  | .error e => isSample e

/-! ## What the client can send -/

/-- A segment that does not encode is not the target's refusal. -/
theorem segment_encode_error {s : Segment} {e : EnipError} (h : s.encode = .error e) :
    isSample e = false := by
  cases s
  case symbol name =>
    simp only [Segment.encode] at h
    split_ifs at h
    · cases h
      rfl
    · cases h
      rfl
  case port segment =>
    simp only [Segment.encode, PortSegment.encode] at h
    split_ifs at h
    · cases h
      rfl
    · cases h
      rfl
  all_goals cases h

/-- A path that does not encode is no sample. -/
theorem encodeSegments_error {segments : List Segment} {e : EnipError}
    (h : EPath.encodeSegments segments = .error e) : isSample e = false := by
  induction segments with
  | nil => cases h
  | cons s ss ih =>
    simp only [EPath.encodeSegments, bind, Except.bind, pure, Except.pure] at h
    cases hs : s.encode with
    | error e' =>
      rw [hs] at h
      cases h
      exact segment_encode_error hs
    | ok head =>
      cases hss : EPath.encodeSegments ss with
      | error e' =>
        simp only [hs, hss] at h
        cases h
        exact ih hss
      | ok rest =>
        simp only [hs, hss] at h
        cases h

/-- Nor is a path that does not. -/
theorem path_encode_error {p : EPath} {e : EnipError} (h : p.encode = .error e) :
    isSample e = false := by
  simp only [EPath.encode, bind, Except.bind, pure, Except.pure] at h
  cases hs : EPath.encodeSegments p.segments with
  | error e' =>
    simp only [hs] at h
    cases h
    exact encodeSegments_error hs
  | ok bytes =>
    simp only [hs] at h
    split_ifs at h
    · cases h
      rfl
    · cases h
      rfl

/-- A request for a sendable path is put on the wire. -/
theorem payload_of_sendable {client : EipClient} {mr : MessageRequest} (hdata : mr.data.length ≤ 6)
    (h : Sendable client mr.path) : ∃ payload, client.payload mr = .ok payload := by
  obtain ⟨hpath, hroute⟩ := h
  cases hp : mr.path.encode with
  | error e =>
    rw [hp] at hpath
    cases hpath
  | ok pathBytes =>
    obtain ⟨emb, hemb, hlen⟩ := encode_of_path hp
    have hbound := (EPath.length_le_of_encode hp).2
    unfold EipClient.payload
    cases hc : client.connected with
    | some conn =>
      simp only [connectedRequestPayload, hemb, bind, Except.bind]
      apply encapDataWithCpf_pair
      · simp only [CpfItem.connectedAddress, putU32_length]
        omega
      · simp only [CpfItem.connectedData, List.length_append, putU16_length]
        omega
    | none =>
      apply unconnectedPayload_of_route hemb (by omega)
      intro r hr hne
      have hok := hroute hc r hr hne
      cases hbytes : r.toEpath.encode with
      | error e =>
        rw [hbytes] at hok
        cases hok
      | ok bytes => exact ⟨bytes, rfl⟩

/-- A request for any other path never leaves, and its error is not a sample. -/
theorem payload_of_not_sendable {client : EipClient} {mr : MessageRequest}
    (hdata : mr.data.length ≤ 6) (h : ¬ Sendable client mr.path) :
    ∃ e, client.payload mr = .error e ∧ isSample e = false := by
  cases hp : mr.path.encode with
  | error e =>
    have hemb : mr.encode = .error e := by
      simp only [MessageRequest.encode, hp, bind, Except.bind]
    refine ⟨e, ?_, path_encode_error hp⟩
    unfold EipClient.payload
    cases hc : client.connected with
    | some conn => simp only [connectedRequestPayload, hemb, bind, Except.bind]
    | none =>
      cases hr : client.route with
      | none => simp only [unconnectedPayload, hemb, bind, Except.bind, pure, Except.pure]
      | some r =>
        by_cases hempty : r.segments = []
        · simp only [unconnectedPayload, hempty, if_true, hemb, bind, Except.bind, pure,
            Except.pure]
        · simp only [unconnectedPayload, hempty, if_false, wrapUnconnectedSend, hemb, bind,
            Except.bind]
  | ok pathBytes =>
    obtain ⟨emb, hemb, hlen⟩ := encode_of_path hp
    have hbound := (EPath.length_le_of_encode hp).2
    -- the path encodes, so what fails is the route of an unconnected client
    have hroute : client.connected = none ∧ ∃ r ∈ client.route, r.segments ≠ [] ∧
        r.toEpath.encode.isOk = false := by
      by_contra hno
      refine h ⟨by rw [hp]; rfl, fun hc r hr hne => ?_⟩
      by_contra hbad
      exact hno ⟨hc, r, hr, hne, by simpa using hbad⟩
    obtain ⟨hc, r, hr, hne, hbad⟩ := hroute
    cases hbytes : r.toEpath.encode with
    | ok bytes =>
      rw [hbytes] at hbad
      cases hbad
    | error e =>
      refine ⟨e, ?_, path_encode_error hbytes⟩
      have hshort : ¬ emb.length ≥ 2 ^ 16 := by omega
      simp only [EipClient.payload, hc, Option.mem_def.mp hr, unconnectedPayload, hne, if_false,
        wrapUnconnectedSend, hemb, hshort, hbytes, bind, Except.bind]

/-- What the first and the later requests of a tag read carry besides the path. -/
theorem readTagRequest_data (tag : TagAddress) (elements : UInt16) :
    (readTagRequest tag elements).data.length ≤ 6 := by
  simp only [readTagRequest, putU16_length]
  omega

/-- A fragmented request carries six bytes. -/
theorem readTagFragmentedRequest_data (tag : TagAddress) (elements : UInt16) (offset : UInt32) :
    (readTagFragmentedRequest tag elements offset).data.length ≤ 6 := by
  simp only [readTagFragmentedRequest, List.length_append, putU16_length, putU32_length]
  omega

/-- The peer answers what can be sent. -/
theorem sendCip_of_sendable {client : EipClient} {mr : MessageRequest}
    (hdata : mr.data.length ≤ 6) (h : Sendable client mr.path) (peer : Peer) (n : ℕ) :
    client.sendCip peer n mr = peer n mr := by
  obtain ⟨payload, hpayload⟩ := payload_of_sendable hdata h
  simp only [EipClient.sendCip, hpayload]

/-- A tag that cannot be sent gives no reading. -/
theorem readTag_of_not_sendable {client : EipClient} {tag : TagAddress} (elements : UInt16)
    (peer : Peer) (h : ¬ Sendable client tag.path) :
    ∃ e, readTag client tag elements peer = .error e ∧ isSample e = false := by
  obtain ⟨e, hpayload, hsample⟩ := payload_of_not_sendable (readTagRequest_data tag elements) h
  refine ⟨e, ?_, hsample⟩
  simp only [readTag, EipClient.sendCip, hpayload, bind, Except.bind]

/-! ## Replies -/

/-- A reply under the service of its request is accepted as its reply. -/
theorem expectService_own (service : UInt8) (status : CipStatus) (data : Bytes) :
    (⟨service ||| 0x80, status, data⟩ : MessageReply).expectService service = .ok () :=
  if_pos rfl

/-- What a turn of the loop makes of a reply under its own service: a refusal is passed on, a
fragment is checked and then ends the transfer or continues it. -/
theorem fragmentStep_eq (cap : ℕ) (st : Reassembly) {reply : MessageReply}
    (hservice : reply.expectService serviceReadTagFragmented = .ok ()) :
    fragmentStep cap st reply =
      if reply.status.isOk = false ∧ reply.status.hasMore = false then .error (.cip reply.status)
      else
        match fragmentHeader st reply.data with
        | .error e => .error e
        | .ok (code, handle, bytes) =>
          if cap < st.acc.length + bytes.length ∨ 2 ^ 32 ≤ st.acc.length + bytes.length then
            .error (.tooLarge cap)
          else if reply.status.hasMore then
            if bytes = [] then .error (.protocolViolation "fragmented read made no progress")
            else .ok (.more ⟨st.acc ++ bytes, some code, handle⟩)
          else
            match buildFragmentValue (CipType.fromCode code) handle (st.acc ++ bytes) with
            | .error e => .error e
            | .ok value => .ok (.done ⟨value, CipType.fromCode code, true⟩) := by
  simp only [fragmentStep, hservice, bind, Except.bind]
  by_cases hrefused : reply.status.isOk = false ∧ reply.status.hasMore = false
  · rw [if_pos hrefused, if_pos hrefused]
  · rw [if_neg hrefused, if_neg hrefused]
    cases fragmentHeader st reply.data with
    | error e => rfl
    | ok header =>
      simp only
      split_ifs
      · rfl
      · rfl
      · rfl
      · cases buildFragmentValue (CipType.fromCode header.1) header.2.1 (st.acc ++ header.2.2) with
        | error e => rfl
        | ok value => rfl

/-- The loop, by the turn its next reply makes. -/
theorem readFragments_eq {client : EipClient} {tag : TagAddress} {elements : UInt16} {peer : Peer}
    {n : ℕ} {st : Reassembly} {reply : MessageReply}
    (hreply : client.sendCip peer n
      (readTagFragmentedRequest tag elements (UInt32.ofNat st.acc.length)) = .ok reply) :
    readFragments client tag elements peer n st =
      match fragmentStep client.maxValueBytes st reply with
      | .error e => .error e
      | .ok (.done result) => .ok result
      | .ok (.more next) => readFragments client tag elements peer (n + 1) next := by
  rw [readFragments, hreply]
  simp only
  split
  · next e hstep => rw [hstep]
  · next result hstep => rw [hstep]
  · next next hstep => rw [hstep]

/-- The read of a sendable tag, by its first reply. -/
theorem readTag_eq {client : EipClient} {tag : TagAddress} {elements : UInt16} {peer : Peer}
    {status : CipStatus} {data : Bytes} (hsend : Sendable client tag.path)
    (hreply : peer 0 (readTagRequest tag elements) =
      .ok ⟨serviceReadTag ||| 0x80, status, data⟩) :
    readTag client tag elements peer =
      if status.isOk then
        match CipValue.decodeTagged data with
        | .error e => .error (.malformed e)
        | .ok (wireType, value) => .ok ⟨value, wireType, false⟩
      else if status.hasMore ∨ status.general = .replyDataTooLarge then
        readFragments client tag elements peer 1 {}
      else .error (.cip status) := by
  have hsent := sendCip_of_sendable (readTagRequest_data tag elements) hsend peer 0
  simp only [readTag, hsent, hreply, expectService_own, bind, Except.bind]
  split_ifs
  · cases CipValue.decodeTagged data with
    | error e => rfl
    | ok value => rfl
  · rfl
  · rfl

/-! ## One signal -/

/-- The reading of a tag read that gives one. -/
def readingFrom (spec : SignalSpec) : Except EnipError TagReadResult → Reading
  | .ok result => decodeReading spec result.value result.wireType (logicalCount spec)
  | .error (.cip status) => bad spec status.display none
  | .error _ => bad spec "TIMEOUT" none

/-- The session after a tag read: it has seen the type a reply declared. -/
def sessionAfter (session : EipSession) (spec : SignalSpec) :
    Except EnipError TagReadResult → EipSession
  | .ok result => { session with observed := session.observed.insert spec.tagPath result.wireType }
  | .error _ => session

/-- A signal that is asked for: its path parses and its count is in range. -/
structure Asked (spec : SignalSpec) (addr : TagAddress) : Prop where
  parse : TagAddress.parse spec.tagPath = .ok addr
  low : 1 ≤ logicalCount spec
  high : logicalCount spec < 2 ^ 16

/-- Everything a read can do: the signal is refused before anything is sent, the defensive
deadline passes, or the outcome of its tag read decides. -/
theorem readOne_cases (session : EipSession) (spec : SignalSpec) (peer : Peer) (elapsed : Bool) :
    ((∀ addr, ¬ Asked spec addr) ∧
      ∃ raw, readOne session spec peer elapsed = (session, .ok (bad spec raw none))) ∨
    (∃ addr, Asked spec addr ∧ elapsed = true ∧
      ∃ e, readOne session spec peer elapsed = (session, .error e)) ∨
    ∃ addr, Asked spec addr ∧ elapsed = false ∧
      ∃ e, readOne session spec peer elapsed =
        let outcome := readTag session.client addr (session.wireElements spec) peer
        (sessionAfter session spec outcome,
          if isSampled outcome then .ok (readingFrom spec outcome) else .error e) := by
  unfold readOne
  cases hparse : TagAddress.parse spec.tagPath with
  | error e =>
    refine .inl ⟨fun addr hasked => ?_, _, rfl⟩
    have hok := hasked.parse
    rw [hparse] at hok
    cases hok
  | ok addr =>
    by_cases hrange : 1 ≤ logicalCount spec ∧ logicalCount spec < 2 ^ 16
    · have hasked : Asked spec addr := ⟨hparse, hrange.1, hrange.2⟩
      simp only [not_not.mpr hrange, if_false]
      cases elapsed with
      | true => exact .inr (.inl ⟨addr, hasked, rfl, _, rfl⟩)
      | false =>
        refine .inr (.inr ⟨addr, hasked, rfl, ?_⟩)
        simp only [Bool.false_eq_true, if_false]
        cases readTag session.client addr (session.wireElements spec) peer with
        | ok result => exact ⟨.unsupported "", rfl⟩
        | error e =>
          refine ⟨mapEnipError e, ?_⟩
          cases e <;> rfl
    · simp only [if_pos hrange]
      exact .inl ⟨fun _ hasked => hrange ⟨hasked.low, hasked.high⟩, _, rfl⟩

/-- A reading carries the id of its signal. -/
theorem decodeReading_signalId (spec : SignalSpec) (value : CipValue) (wireType : CipType)
    (logical : ℕ) : (decodeReading spec value wireType logical).signalId = spec.tagPath := by
  unfold decodeReading
  simp only
  repeat' split
  all_goals rfl

/-- A reading is of the signal it was taken for. -/
theorem readingFrom_signalId (spec : SignalSpec) (outcome : Except EnipError TagReadResult) :
    (readingFrom spec outcome).signalId = spec.tagPath := by
  cases outcome with
  | ok result => exact decodeReading_signalId ..
  | error e => cases e <;> rfl

/-- Reading a signal leaves the session as it was, or with the type its tag was seen to have. -/
theorem readOne_session (session : EipSession) (spec : SignalSpec) (peer : Peer) (elapsed : Bool) :
    (readOne session spec peer elapsed).1 = session ∨
      ∃ wireType, (readOne session spec peer elapsed).1 =
        { session with observed := session.observed.insert spec.tagPath wireType } := by
  obtain ⟨-, raw, hread⟩ | ⟨addr, -, -, e, hread⟩ | ⟨addr, -, -, e, hread⟩ :=
    readOne_cases session spec peer elapsed
  · exact .inl (by rw [hread])
  · exact .inl (by rw [hread])
  · rw [hread]
    simp only
    cases readTag session.client addr (session.wireElements spec) peer with
    | ok result => exact .inr ⟨result.wireType, rfl⟩
    | error e => exact .inl rfl

/-- A read leaves the client of the session. -/
theorem readOne_client (session : EipSession) (spec : SignalSpec) (peer : Peer) (elapsed : Bool) :
    (readOne session spec peer elapsed).1.client = session.client := by
  obtain hsame | ⟨wireType, hseen⟩ := readOne_session session spec peer elapsed
  · rw [hsame]
  · rw [hseen]

/-- What the session has seen of another tag stays. -/
theorem readOne_observed_ne {spec : SignalSpec} {tagPath : String} (session : EipSession)
    (peer : Peer) (elapsed : Bool) (h : spec.tagPath ≠ tagPath) :
    (readOne session spec peer elapsed).1.observed.lookup tagPath =
      session.observed.lookup tagPath := by
  obtain hsame | ⟨wireType, hseen⟩ := readOne_session session spec peer elapsed
  · rw [hsame]
  · rw [hseen]
    exact AList.lookup_insert_ne h.symm

/-- So is the reading of a session. -/
theorem readOne_signalId {session : EipSession} {spec : SignalSpec} {peer : Peer} {elapsed : Bool}
    {reading : Reading} (h : (readOne session spec peer elapsed).2 = .ok reading) :
    reading.signalId = spec.tagPath := by
  obtain ⟨-, raw, hread⟩ | ⟨addr, -, -, e, hread⟩ | ⟨addr, -, -, e, hread⟩ :=
    readOne_cases session spec peer elapsed
  · rw [hread] at h
    cases h
    rfl
  · rw [hread] at h
    cases h
  · rw [hread] at h
    simp only at h
    split_ifs at h
    cases h
    exact readingFrom_signalId ..

/-- What is read depends on the client, the type last seen for the tag and the replies. -/
theorem readOne_congr {session other : EipSession} {spec : SignalSpec} (peer : Peer)
    (hclient : other.client = session.client)
    (hseen : other.observed.lookup spec.tagPath = session.observed.lookup spec.tagPath) :
    (readOne other spec peer false).2 = (readOne session spec peer false).2 := by
  have helements : other.wireElements spec = session.wireElements spec := by
    unfold EipSession.wireElements EipSession.readsPacked
    rw [hseen]
  unfold readOne
  rw [hclient, helements]
  cases TagAddress.parse spec.tagPath with
  | error e => rfl
  | ok addr =>
    simp only
    split
    · rfl
    · simp only [Bool.false_eq_true, if_false]
      cases readTag session.client addr (session.wireElements spec) peer with
      | ok result => rfl
      | error e => cases e <;> rfl

/-! ## A list of signals -/

/-- A list whose first signal is read: the rest is read from the session it leaves. -/
theorem readSignals_cons_ok {session : EipSession} {spec : SignalSpec} {reading : Reading}
    (envs : ℕ → ReadEnv) (specs : List SignalSpec)
    (h : (readOne session spec (envs 0).peer (envs 0).elapsed).2 = .ok reading) :
    readSignals session envs (spec :: specs) =
      let rest := readSignals (readOne session spec (envs 0).peer (envs 0).elapsed).1
        (fun i => envs (i + 1)) specs
      (rest.1, rest.2.map (reading :: ·)) := by
  cases hread : readOne session spec (envs 0).peer (envs 0).elapsed with
  | mk next result =>
    rw [hread] at h
    cases h
    simp only [readSignals, hread]
    obtain ⟨last, outcome⟩ := readSignals next (fun i => envs (i + 1)) specs
    cases outcome <;> rfl

/-- A list whose first signal is not read gives no readings. -/
theorem readSignals_cons_error {session : EipSession} {spec : SignalSpec} {e : DeviceError}
    (envs : ℕ → ReadEnv) (specs : List SignalSpec)
    (h : (readOne session spec (envs 0).peer (envs 0).elapsed).2 = .error e) :
    (readSignals session envs (spec :: specs)).2 = .error e := by
  cases hread : readOne session spec (envs 0).peer (envs 0).elapsed with
  | mk next result =>
    rw [hread] at h
    cases h
    simp only [readSignals, hread]

/-- The readings of a list are those of its signals, in order. -/
theorem readSignals_inOrder {session : EipSession} {envs : ℕ → ReadEnv} {specs : List SignalSpec}
    {readings : List Reading} (h : (readSignals session envs specs).2 = .ok readings) :
    List.Forall₂ (fun spec r => r.signalId = spec.tagPath) specs readings := by
  induction specs generalizing session envs readings with
  | nil =>
    cases h
    exact .nil
  | cons spec specs ih =>
    cases hfirst : (readOne session spec (envs 0).peer (envs 0).elapsed).2 with
    | error e =>
      rw [readSignals_cons_error envs specs hfirst] at h
      cases h
    | ok reading =>
      rw [readSignals_cons_ok envs specs hfirst] at h
      cases hrest : (readSignals (readOne session spec (envs 0).peer (envs 0).elapsed).1
          (fun i => envs (i + 1)) specs).2 with
      | error e =>
        simp only [hrest, Except.map] at h
        cases h
      | ok rest =>
        simp only [hrest, Except.map] at h
        cases h
        exact .cons (readOne_signalId hfirst) (ih hrest)

end EnipAdapter.Analysis
