import EnipAdapter.Analysis.TagRead

/-!
# Which replies leave a poll read alone

A read keeps its session exactly when every signal is readable: a refusal by the target is a
sample, but a success that does not decode, a fragmented transfer that breaks off and a path
that is too long for the wire end the whole read. The proof follows `read_tag` outwards: what
the client can send, one turn of the fragment loop, the loop, one signal, the list.
-/

set_option autoImplicit false

namespace EnipAdapter.Analysis

open EnipAdapter.Foundation EnipAdapter.Model EnipAdapter.Interface

/-! ## One turn of the fragment loop -/

/-- A status that announces more is no success. -/
theorem isOk_eq_false_of_hasMore {status : CipStatus} (h : status.hasMore = true) :
    status.isOk = false := by
  have hgeneral : status.general = .partialTransfer := by simpa [CipStatus.hasMore] using h
  simp only [CipStatus.isOk, hgeneral, GeneralStatus.isOk]

/-- A success announces no more. -/
theorem hasMore_eq_false_of_isOk {status : CipStatus} (h : status.isOk = true) :
    status.hasMore = false := by
  by_contra hmore
  rw [isOk_eq_false_of_hasMore (by simpa using hmore)] at h
  cases h

/-- A fragment header that does not decode is not the target's refusal. -/
theorem fragmentHeader_error {st : Reassembly} {data : Bytes} {e : EnipError}
    (h : fragmentHeader st data = .error e) : isSample e = false := by
  simp only [fragmentHeader, bind, Except.bind, pure, Except.pure] at h
  cases hcode : (WireReader.withContext data "logix").u16 with
  | error w =>
    simp only [hcode, liftWire] at h
    cases h
    rfl
  | ok code =>
    simp only [hcode, liftWire_ok] at h
    split_ifs at h
    · cases h
      rfl
    · cases hhandle : code.2.u16 with
      | error w =>
        simp only [hhandle, liftWire] at h
        cases h
        rfl
      | ok handle =>
        simp only [hhandle, liftWire_ok] at h
        split_ifs at h
        cases h
        rfl

/-- Nor is a reassembled value that does not decode. -/
theorem buildFragmentValue_error {ty : CipType} {handle : Option UInt16} {acc : Bytes}
    {e : EnipError} (h : buildFragmentValue ty handle acc = .error e) : isSample e = false := by
  cases hdecode : CipValue.decode ty acc with
  | error w =>
    cases ty <;> simp only [buildFragmentValue, hdecode, liftWire] at h <;> cases h <;> rfl
  | ok v => cases ty <;> simp only [buildFragmentValue, hdecode, liftWire] at h <;> cases h

section Turn

variable {cap n : ℕ} {replies : ℕ → TargetReply} {st : Reassembly} {reply : MessageReply}

/-- What the next turn of a transfer has to be for the transfer to be well formed. -/
def TurnGoesOn (cap : ℕ) (replies : ℕ → TargetReply) (n : ℕ) :
    Except EnipError FragmentStep → Prop
  | .error e => isSample e = true
  | .ok (.done _) => True
  | .ok (.more next) => Transfer cap replies (n + 1) next

/-- A transfer that goes on takes its next turn well. -/
theorem turn_of_transfer (hservice : reply.expectService serviceReadTagFragmented = .ok ())
    (hstatus : (replies n).1 = reply.status) (hdata : (replies n).2 = reply.data)
    (h : Transfer cap replies n st) : TurnGoesOn cap replies n (fragmentStep cap st reply) := by
  rw [fragmentStep_eq cap st hservice]
  cases h with
  | refused hok hmore =>
    rw [hstatus] at hok hmore
    rw [if_pos ⟨hok, hmore⟩]
    rfl
  | @last _ _ code handle bytes hok hheader hcap hword hvalue =>
    rw [hstatus] at hok
    rw [hdata] at hheader
    have hfits : ¬ (cap < st.acc.length + bytes.length ∨
        2 ^ 32 ≤ st.acc.length + bytes.length) := by omega
    rw [if_neg (by simp [hok]), hheader]
    simp only [if_neg hfits, hasMore_eq_false_of_isOk hok, Bool.false_eq_true, if_false]
    cases hbuild : buildFragmentValue (CipType.fromCode code) handle (st.acc ++ bytes) with
    | error e =>
      rw [hbuild] at hvalue
      cases hvalue
    | ok value => trivial
  | @more _ _ code handle bytes hmore hheader hcap hword hbytes hrest =>
    rw [hstatus] at hmore
    rw [hdata] at hheader
    have hfits : ¬ (cap < st.acc.length + bytes.length ∨
        2 ^ 32 ≤ st.acc.length + bytes.length) := by omega
    rw [if_neg (by simp [hmore]), hheader]
    simp only [if_neg hfits, hmore, if_true, hbytes, if_false]
    exact hrest

/-- And a turn that goes on is the next of a transfer. -/
theorem transfer_of_turn (hservice : reply.expectService serviceReadTagFragmented = .ok ())
    (hstatus : (replies n).1 = reply.status) (hdata : (replies n).2 = reply.data)
    (h : TurnGoesOn cap replies n (fragmentStep cap st reply)) : Transfer cap replies n st := by
  rw [fragmentStep_eq cap st hservice, ← hstatus, ← hdata] at h
  by_cases hrefused : (replies n).1.isOk = false ∧ (replies n).1.hasMore = false
  · exact .refused hrefused.1 hrefused.2
  · rw [if_neg hrefused] at h
    cases hheader : fragmentHeader st (replies n).2 with
    | error e =>
      simp only [hheader, TurnGoesOn, fragmentHeader_error hheader, Bool.false_eq_true] at h
    | ok header =>
      obtain ⟨code, handle, bytes⟩ := header
      simp only [hheader] at h
      split_ifs at h with hlarge hmore hbytes
      · cases h
      · cases h
      · exact .more hmore hheader (by omega) (by omega) hbytes h
      · have hok : (replies n).1.isOk = true := by
          by_contra hno
          exact hrefused ⟨by simpa using hno, by simpa using hmore⟩
        apply Transfer.last hok hheader (by omega) (by omega)
        cases hbuild : buildFragmentValue (CipType.fromCode code) handle (st.acc ++ bytes) with
        | error e =>
          simp only [hbuild, TurnGoesOn, buildFragmentValue_error hbuild, Bool.false_eq_true] at h
        | ok value => rfl

/-- A well-formed transfer, by its next turn. -/
theorem transfer_iff (hservice : reply.expectService serviceReadTagFragmented = .ok ())
    (hstatus : (replies n).1 = reply.status) (hdata : (replies n).2 = reply.data) :
    Transfer cap replies n st ↔ TurnGoesOn cap replies n (fragmentStep cap st reply) :=
  ⟨turn_of_transfer hservice hstatus hdata, transfer_of_turn hservice hstatus hdata⟩

end Turn

/-! ## The loop and the read -/

variable {client : EipClient} {tag : TagAddress} {replies : ℕ → TargetReply}

/-- The fragment loop of a sendable tag gives a sample exactly for a well-formed transfer. -/
theorem readFragments_sampled (hsend : Sendable client tag.path) (elements : UInt16) (n : ℕ)
    (st : Reassembly) :
    isSampled (readFragments client tag elements (answering replies) n st) = true ↔
      Transfer client.maxValueBytes replies n st := by
  -- on the bytes that still fit under the cap: a turn that goes on brings some
  induction hfuel : client.maxValueBytes - st.acc.length using Nat.strong_induction_on
    generalizing n st with
  | _ fuel ih =>
    have hsent := sendCip_of_sendable (readTagFragmentedRequest_data tag elements
      (UInt32.ofNat st.acc.length)) hsend (answering replies) n
    have hreply : answering replies n
        (readTagFragmentedRequest tag elements (UInt32.ofNat st.acc.length)) =
          .ok ⟨serviceReadTagFragmented ||| 0x80, (replies n).1, (replies n).2⟩ := rfl
    rw [readFragments_eq (hsent.trans hreply), transfer_iff (expectService_own ..) rfl rfl]
    cases hstep : fragmentStep client.maxValueBytes st
        ⟨serviceReadTagFragmented ||| 0x80, (replies n).1, (replies n).2⟩ with
    | error e => rfl
    | ok step =>
      cases step with
      | done result => simp only [isSampled, TurnGoesOn]
      | more next =>
        have hprogress := fragmentStep_more hstep
        exact ih _ (by omega) (n + 1) next rfl

/-- A tag read gives a sample exactly when it can be sent and its replies are well formed. -/
theorem readTag_sampled (client : EipClient) (tag : TagAddress) (elements : UInt16)
    (replies : ℕ → TargetReply) :
    isSampled (readTag client tag elements (answering replies)) = true ↔
      Sendable client tag.path ∧ WellFormed client.maxValueBytes replies := by
  by_cases hsend : Sendable client tag.path
  · have hreply : answering replies 0 (readTagRequest tag elements) =
        .ok ⟨serviceReadTag ||| 0x80, (replies 0).1, (replies 0).2⟩ := rfl
    rw [readTag_eq hsend hreply]
    simp only [hsend, true_and]
    by_cases hok : (replies 0).1.isOk = true
    · have hmore := hasMore_eq_false_of_isOk hok
      have hlarge : (replies 0).1.general ≠ .replyDataTooLarge := by
        intro hgeneral
        simp [CipStatus.isOk, hgeneral, GeneralStatus.isOk] at hok
      rw [if_pos hok]
      cases hvalue : CipValue.decodeTagged (replies 0).2 with
      | error e =>
        simp only [isSampled, isSample, Bool.false_eq_true, false_iff]
        intro hwf
        have := hwf.whole hok
        rw [hvalue] at this
        cases this
      | ok value =>
        simp only [isSampled, true_iff]
        refine ⟨fun _ => by rw [hvalue]; rfl, ?_⟩
        rintro (hmore' | hlarge')
        · rw [hmore] at hmore'
          cases hmore'
        · exact absurd hlarge' hlarge
    · rw [if_neg hok]
      by_cases hfragmented : (replies 0).1.hasMore = true ∨
          (replies 0).1.general = .replyDataTooLarge
      · rw [if_pos hfragmented, readFragments_sampled hsend]
        exact ⟨fun h => ⟨fun hok' => absurd hok' hok, fun _ => h⟩,
          fun h => h.fragmented hfragmented⟩
      · rw [if_neg hfragmented]
        simp only [isSampled, isSample, true_iff]
        exact ⟨fun hok' => absurd hok' hok, fun h => absurd h hfragmented⟩
  · obtain ⟨e, hread, hsample⟩ := readTag_of_not_sendable elements (answering replies) hsend
    simp only [hread, isSampled, hsample, Bool.false_eq_true, hsend, false_and]

/-- A signal gives a reading exactly when it is readable. -/
theorem readOne_isOk_iff (session : EipSession) (spec : SignalSpec) (replies : ℕ → TargetReply) :
    (readOne session spec (answering replies) false).2.isOk = true ↔
      Readable session.client spec replies := by
  obtain ⟨hnever, raw, hread⟩ | ⟨addr, -, helapsed, -⟩ | ⟨addr, hasked, -, e, hread⟩ :=
    readOne_cases session spec (answering replies) false
  · rw [hread]
    refine ⟨fun _ addr hparse hlow hhigh => ?_, fun _ => rfl⟩
    exact absurd ⟨hparse, hlow, hhigh⟩ (hnever addr)
  · cases helapsed
  · have hsampled := readTag_sampled session.client addr (session.wireElements spec) replies
    rw [hread]
    simp only
    constructor
    · intro hok addr' hparse _ _
      rw [hasked.parse] at hparse
      cases hparse
      apply hsampled.mp
      by_contra hno
      rw [if_neg hno] at hok
      cases hok
    · intro hreadable
      rw [if_pos (hsampled.mpr (hreadable addr hasked.parse hasked.low hasked.high))]
      rfl

/-! ## The list -/

/-- The session before a later signal of a list whose first signal is read. -/
theorem sessionBefore_succ {session : EipSession} {spec : SignalSpec} {reading : Reading}
    (replies : ℕ → ℕ → TargetReply) (specs : List SignalSpec) (i : ℕ)
    (h : (readOne session spec (answering (replies 0)) false).2 = .ok reading) :
    sessionBefore session (answeringAll replies) (spec :: specs) (i + 1) =
      sessionBefore (readOne session spec (answering (replies 0)) false).1
        (answeringAll fun i => replies (i + 1)) specs i := by
  have hrest := readSignals_cons_ok (answeringAll replies) (specs.take i) h
  rw [sessionBefore, List.take_succ_cons, hrest]
  rfl

/-- A list is isolated when its first signal is read and the rest is isolated after it. -/
theorem isolated_cons (session : EipSession) (spec : SignalSpec) (specs : List SignalSpec)
    (replies : ℕ → ℕ → TargetReply) :
    Isolated session (spec :: specs) replies ↔
      (readOne session spec (answering (replies 0)) false).2.isOk = true ∧
        Isolated (readOne session spec (answering (replies 0)) false).1 specs
          (fun i => replies (i + 1)) := by
  have hclient := readOne_client session spec (answering (replies 0)) false
  cases hfirst : (readOne session spec (answering (replies 0)) false).2 with
  | error e =>
    have hrun := readSignals_cons_error (answeringAll replies) specs hfirst
    refine ⟨?_, fun h => by cases h.1⟩
    rintro ⟨readings, hok, -⟩
    rw [hrun] at hok
    cases hok
  | ok reading =>
    have hrun : (readSignals session (answeringAll replies) (spec :: specs)).2 =
        (readSignals (readOne session spec (answering (replies 0)) false).1
          (answeringAll fun i => replies (i + 1)) specs).2.map (reading :: ·) :=
      congrArg Prod.snd (readSignals_cons_ok (answeringAll replies) specs hfirst)
    constructor
    · rintro ⟨readings, hok, hlen, hall⟩
      refine ⟨rfl, ?_⟩
      rw [hrun] at hok
      cases hrest : (readSignals (readOne session spec (answering (replies 0)) false).1
          (answeringAll fun i => replies (i + 1)) specs).2 with
      | error e =>
        rw [hrest] at hok
        cases hok
      | ok rest =>
        rw [hrest] at hok
        cases hok
        refine ⟨rest, hrest, by simpa using hlen, fun i spec' hspec => ?_⟩
        obtain ⟨reading', hget, hid, hown⟩ := hall (i + 1) spec' hspec
        refine ⟨reading', hget, hid, fun other hother hseen => ?_⟩
        apply hown other (hother.trans hclient)
        rw [sessionBefore_succ replies specs i hfirst]
        exact hseen
    · rintro ⟨-, rest, hok, hlen, hall⟩
      refine ⟨reading :: rest, ?_, by simpa using hlen, fun i spec' hspec => ?_⟩
      · rw [hrun]
        exact congrArg (Except.map (reading :: ·)) hok
      · cases i with
        | zero =>
          cases hspec
          refine ⟨reading, rfl, readOne_signalId hfirst, fun other hother hseen => ?_⟩
          rw [readOne_congr _ hother hseen]
          exact hfirst
        | succ i =>
          obtain ⟨reading', hget, hid, hown⟩ := hall i spec' hspec
          refine ⟨reading', hget, hid, fun other hother hseen => ?_⟩
          apply hown other (hother.trans hclient.symm)
          rw [← sessionBefore_succ replies specs i hfirst]
          exact hseen

/-- One bad tag leaves the others alone, with one reading for each signal, exactly when every
signal is readable: a tag whose path parses but cannot be sent, whose success does not decode
or whose fragments break off ends the read of the whole list. -/
theorem isolated_iff_readable (session : EipSession) (specs : List SignalSpec)
    (replies : ℕ → ℕ → TargetReply) :
    Isolated session specs replies ↔
      ∀ (i : ℕ) (spec : SignalSpec), specs[i]? = some spec →
        Readable session.client spec (replies i) := by
  induction specs generalizing session replies with
  | nil =>
    refine ⟨fun _ i spec hspec => ?_, fun _ => ⟨[], rfl, rfl, fun i spec hspec => ?_⟩⟩
    · cases hspec
    · cases hspec
  | cons spec specs ih =>
    rw [isolated_cons, readOne_isOk_iff, ih, readOne_client]
    constructor
    · rintro ⟨hfirst, hrest⟩ i spec' hspec
      cases i with
      | zero =>
        cases hspec
        exact hfirst
      | succ i => exact hrest i spec' hspec
    · intro hall
      exact ⟨hall 0 spec rfl, fun i spec' hspec => hall (i + 1) spec' hspec⟩

/-- Two tags of one line. -/
def lineTags : List SignalSpec :=
  [⟨"speed", "Line1.Speed", .dint, none, none, none, {}⟩,
    ⟨"count", "Line1.Count", .dint, none, none, none, {}⟩]

/-- A target that answers the first tag with a success without data and the others with the
DINT 7. -/
def emptyFirst (i : ℕ) (_ : ℕ) : TargetReply :=
  (⟨.success, []⟩, if i = 0 then [] else [0xC4, 0, 7, 0, 0, 0])

/-- The target answers both tags, and neither gets a reading. -/
theorem empty_success_blinds_others : ¬ Isolated (EipSession.new {}) lineTags emptyFirst := by
  rintro ⟨readings, hok, -⟩
  have hfails : (readSignals (EipSession.new {}) (answeringAll emptyFirst) lineTags).2.isOk =
      false := by
    decide +kernel
  rw [hok] at hfails
  cases hfails

end EnipAdapter.Analysis
