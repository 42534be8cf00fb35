import EnipAdapter.Analysis.TagRead
import EnipAdapter.Interface.PackedArrayContract

/-!
# When a packed BOOL array becomes readable

A session learns that a tag is packed from a reply that declares DWORD, and asks for the
packed count from then on. It learns nothing from a refusal. The invariant over a run is
whether the tag is known to be packed: a read of the tag that the target can answer makes it
so, and no other read changes it.
-/

set_option autoImplicit false

namespace EnipAdapter.Analysis

open EnipAdapter.Foundation EnipAdapter.Model EnipAdapter.Interface

/-! ## Decoding words -/

/-- What a reply of DWORDs decodes to: one alone is a scalar. -/
def dwordValue (words : List UInt32) : CipValue :=
  match words with
  | [w] => .dword w
  | ws => .array .dword (ws.map CipValue.dword)

/-- Words take four bytes each. -/
theorem flatMap_putU32_length (words : List UInt32) :
    (words.flatMap putU32).length = 4 * words.length := by
  induction words with
  | nil => rfl
  | cons w words ih =>
    rw [List.flatMap_cons, List.length_append, putU32_length, ih, List.length_cons]
    omega

/-- Words are read back one by one. -/
theorem decodeScalars_dword (words : List UInt32) (rest : Bytes) (context : String) :
    CipValue.decodeScalars .dword words.length ⟨words.flatMap putU32 ++ rest, context⟩ =
      .ok (words.map CipValue.dword, ⟨rest, context⟩) := by
  induction words with
  | nil => rfl
  | cons w words ih =>
    have hhead := WireReader.u32_append w (words.flatMap putU32 ++ rest) context
    rw [List.flatMap_cons, List.append_assoc, List.length_cons]
    simp only [CipValue.decodeScalars, CipValue.decodeScalar, hhead, ih, bind, Except.bind, pure,
      Except.pure, List.map_cons]

/-- Words are read back as the value they make. -/
theorem decode_dword {words : List UInt32} (hwords : words ≠ []) :
    CipValue.decode .dword (words.flatMap putU32) = .ok (dwordValue words) := by
  have hlen := flatMap_putU32_length words
  have hmod : (words.flatMap putU32).length % 4 = 0 := by omega
  have hcount : (words.flatMap putU32).length / 4 = words.length := by omega
  match words with
  | [] => exact absurd rfl hwords
  | [w] =>
    have hread := WireReader.u32_append w [] "cip value"
    have hbytes : [w].flatMap putU32 = putU32 w ++ [] := rfl
    simp only [CipValue.decode, CipType.elementSize, hmod, hcount, List.length_cons,
      List.length_nil, WireReader.withContext]
    rw [hbytes]
    simp only [CipValue.decodeScalar, hread, bind, Except.bind, pure, Except.pure]
    rfl
  | w :: v :: rest =>
    have hread := decodeScalars_dword (w :: v :: rest) [] "cip value"
    rw [List.append_nil] at hread
    have hzero : ¬ (w :: v :: rest).length = 0 := by simp
    have hone : ¬ (w :: v :: rest).length = 1 := by simp
    simp only [CipValue.decode, CipType.elementSize, hmod, hcount, ne_eq, not_true_eq_false,
      if_false, if_neg hzero, if_neg hone, WireReader.withContext, hread, bind, Except.bind, pure,
      Except.pure]
    rfl

/-- A reply of DWORDs is decoded as one. -/
theorem decodeTagged_dwordData {words : List UInt32} (hwords : words ≠ []) :
    CipValue.decodeTagged (dwordData words) = .ok (.dword, dwordValue words) := by
  have hcode := WireReader.u16_append CipType.dword.code (words.flatMap putU32) "cip value"
  have htype : CipType.fromCode CipType.dword.code = .dword := by decide
  simp only [CipValue.decodeTagged, dwordData, WireReader.withContext, hcode, bind, Except.bind,
    htype, WireReader.takeRest, decode_dword hwords]
  rfl

/-- The words of a decoded reply are those that were sent. -/
theorem packedDwords_dwordValue (words : List UInt32) :
    packedDwords (dwordValue words) = some words := by
  have hall : ∀ ws : List UInt32, (ws.map CipValue.dword).mapM dwordOf = some ws := by
    intro ws
    induction ws with
    | nil => rfl
    | cons w ws ih =>
      rw [List.map_cons, List.mapM_cons, ih]
      rfl
  match words with
  | [] => rfl
  | [w] => rfl
  | w :: v :: rest => exact hall (w :: v :: rest)

/-! ## Bits -/

/-- A word has 32 bits. -/
theorem wordBits_length (w : UInt32) : (wordBits w).length = 32 := by
  simp [wordBits, boolsPerDword]

/-- The booleans of the words stand at their place in the bits. -/
theorem flatMap_wordBits_getElem? (words : List UInt32) {n : ℕ} (h : n < 32 * words.length) :
    (words.flatMap wordBits)[n]? = some (bitAt words n) := by
  induction words generalizing n with
  | nil => simp at h
  | cons w words ih =>
    rw [List.flatMap_cons]
    by_cases hfirst : n < 32
    · have hdiv : n / 32 = 0 := by omega
      have hmod : n % 32 = n := by omega
      rw [List.getElem?_append_left (by rw [wordBits_length]; exact hfirst)]
      simp [wordBits, boolsPerDword, bitAt, hdiv, hmod, hfirst]
    · have hdiv : n / 32 = (n - 32) / 32 + 1 := by omega
      have hmod : n % 32 = (n - 32) % 32 := by omega
      rw [List.getElem?_append_right (by rw [wordBits_length]; omega), wordBits_length,
        ih (by rw [List.length_cons] at h; omega)]
      simp only [bitAt, hdiv, hmod, List.getD_cons_succ]

/-- The first booleans, from as many words as hold them. -/
theorem take_flatMap_wordBits {words : List UInt32} {bools : ℕ}
    (h : packedDwordCount bools ≤ words.length) :
    ((words.take (packedDwordCount bools)).flatMap wordBits).take bools =
      (List.range bools).map (bitAt words) := by
  have hcover : bools ≤ 32 * packedDwordCount bools := by
    simp only [packedDwordCount, boolsPerDword]
    omega
  have htake : (words.take (packedDwordCount bools)).length = packedDwordCount bools := by
    rw [List.length_take]
    omega
  apply List.ext_getElem?
  intro n
  by_cases hn : n < bools
  · have hword : n / 32 < packedDwordCount bools := by omega
    rw [List.getElem?_take_of_lt hn, flatMap_wordBits_getElem? _ (by rw [htake]; omega),
      List.getElem?_map, List.getElem?_range hn]
    simp only [bitAt, Option.map_some, List.getD_eq_getElem?_getD,
      List.getElem?_take_of_lt hword]
  · rw [List.getElem?_eq_none (by rw [List.length_take]; omega),
      List.getElem?_eq_none (by rw [List.length_map, List.length_range]; omega)]

/-- As many words as the booleans need are read as the booleans. -/
theorem decodeReading_packed {signal : SignalSpec} {words : List UInt32} {bools : ℕ}
    (harray : isBoolArray signal = true) (h : packedDwordCount bools ≤ words.length) :
    decodeReading signal (dwordValue (words.take (packedDwordCount bools))) .dword bools =
      good signal (publishedBools words bools) (some "DWORD") := by
  have htake : (words.take (packedDwordCount bools)).length = packedDwordCount bools := by
    rw [List.length_take]
    omega
  have hunpack : unpackBools (words.take (packedDwordCount bools)) bools =
      .ok (.arr (((List.range bools).map (bitAt words)).map Json.bool)) := by
    rw [unpackBools, if_neg (not_not.mpr htake), take_flatMap_wordBits h]
  have hcollapse : collapseOneElement (.arr (((List.range bools).map (bitAt words)).map Json.bool))
      bools = publishedBools words bools := by
    unfold collapseOneElement publishedBools
    by_cases hone : bools = 1
    · subst hone
      rfl
    · rw [if_pos hone, if_neg hone, List.map_map]
      rfl
  simp only [decodeReading, harray, if_true, packedDwords_dwordValue, hunpack, hcollapse]
  rfl

/-! ## Asking the target -/

section Target

variable {client : EipClient} {tagPath : String} {addr : TagAddress} {words : List UInt32}
  {peer : Peer}

/-- A read of no more elements than the target has gives them. -/
theorem readTag_served (hparse : TagAddress.parse tagPath = .ok addr)
    (hsend : Sendable client addr.path) (hpeer : ServesPacked tagPath words peer) {k : UInt16}
    (hpos : 1 ≤ k.toNat) (hk : k.toNat ≤ words.length) :
    readTag client addr k peer = .ok ⟨dwordValue (words.take k.toNat), .dword, false⟩ := by
  obtain ⟨status, hok, hreply⟩ := hpeer.whole addr hparse 0 k hk
  have hwords : words.take k.toNat ≠ [] := by
    apply List.ne_nil_of_length_pos
    rw [List.length_take]
    omega
  rw [readTag_eq hsend hreply, if_pos hok, decodeTagged_dwordData hwords]

/-- A read of more is refused, in one reply or by the first fragment. -/
theorem readTag_beyond (hparse : TagAddress.parse tagPath = .ok addr)
    (hsend : Sendable client addr.path) (hpeer : ServesPacked tagPath words peer) {k : UInt16}
    (hk : words.length < k.toNat) :
    ∃ status, readTag client addr k peer = .error (.cip status) := by
  obtain ⟨status, data, ⟨hok, hmore⟩, hreply⟩ := hpeer.beyond addr hparse 0 k hk
  rw [readTag_eq hsend hreply, if_neg (by simp [hok])]
  by_cases hlarge : status.general = .replyDataTooLarge
  · obtain ⟨status', data', hrefuses, hfragment⟩ := hpeer.beyondFragmented addr hparse 1 k
      (UInt32.ofNat ({} : Reassembly).acc.length) hk
    have hsent := sendCip_of_sendable (readTagFragmentedRequest_data addr k
      (UInt32.ofNat ({} : Reassembly).acc.length)) hsend peer 1
    have hstep : fragmentStep client.maxValueBytes {}
        ⟨serviceReadTagFragmented ||| 0x80, status', data'⟩ = .error (.cip status') :=
      (fragmentStep_eq _ _ (expectService_own ..)).trans (if_pos hrefuses)
    have hloop := readFragments_eq (hsent.trans hfragment)
    rw [hstep] at hloop
    refine ⟨status', ?_⟩
    rw [if_pos (.inr hlarge)]
    exact hloop
  · refine ⟨status, ?_⟩
    rw [if_neg (by simp [hmore, hlarge])]

end Target

/-! ## One read -/

/-- The session has seen the tag declare DWORD. -/
def KnownPacked (session : EipSession) (tagPath : String) : Prop :=
  session.observed.lookup tagPath = some .dword

/-- A read of a signal that a target with that many words answers. -/
structure Answerable (session : EipSession) (spec : SignalSpec) (size : ℕ) : Prop where
  addressed : Addressed session.client spec.tagPath
  low : 1 ≤ logicalCount spec
  high : logicalCount spec < 2 ^ 16
  fits : (session.wireElements spec).toNat ≤ size

/-- Before the session knows better it asks for as many elements as there are booleans. -/
theorem wireElements_of_unknown {session : EipSession} {spec : SignalSpec}
    (h : ¬ KnownPacked session spec.tagPath) (hhigh : logicalCount spec < 2 ^ 16) :
    (session.wireElements spec).toNat = logicalCount spec := by
  have hplain : session.readsPacked spec = false := by
    unfold KnownPacked at h
    simp [EipSession.readsPacked, h]
  simp only [EipSession.wireElements, hplain, Bool.false_eq_true, if_false]
  exact UInt16.toNat_ofNat_of_lt' hhigh

/-- Once it knows that they are packed it asks for the words. -/
theorem wireElements_of_known {session : EipSession} {spec : SignalSpec}
    (h : KnownPacked session spec.tagPath) (harray : isBoolArray spec = true)
    (hhigh : logicalCount spec < 2 ^ 16) :
    (session.wireElements spec).toNat = packedDwordCount (logicalCount spec) := by
  have hpacked : session.readsPacked spec = true := by
    unfold KnownPacked at h
    simp [EipSession.readsPacked, harray, h]
  simp only [EipSession.wireElements, hpacked, if_true]
  apply UInt16.toNat_ofNat_of_lt'
  simp only [packedDwordCount, boolsPerDword, UInt16.size]
  omega

/-- A request never asks for nothing. -/
theorem one_le_wireElements (session : EipSession) {spec : SignalSpec}
    (hlow : 1 ≤ logicalCount spec) (hhigh : logicalCount spec < 2 ^ 16) :
    1 ≤ (session.wireElements spec).toNat := by
  by_cases hknown : KnownPacked session spec.tagPath ∧ isBoolArray spec = true
  · rw [wireElements_of_known hknown.1 hknown.2 hhigh]
    simp only [packedDwordCount, boolsPerDword]
    omega
  · have hplain : session.readsPacked spec = false := by
      by_contra hpacked
      simp only [EipSession.readsPacked, Bool.not_eq_false, Bool.and_eq_true, beq_iff_eq] at hpacked
      exact hknown ⟨hpacked.2, hpacked.1⟩
    simp only [EipSession.wireElements, hplain, Bool.false_eq_true, if_false]
    rw [UInt16.toNat_ofNat_of_lt' hhigh]
    exact hlow

section Read

variable {session : EipSession} {spec : SignalSpec} {words : List UInt32} {peer : Peer}

/-- The words asked for are decoded, and the tag is known to be packed. -/
theorem readOne_answered (hpeer : ServesPacked spec.tagPath words peer)
    (h : Answerable session spec words.length) :
    readOne session spec peer false =
      ({ session with observed := session.observed.insert spec.tagPath .dword },
        .ok (decodeReading spec (dwordValue (words.take (session.wireElements spec).toNat)) .dword
          (logicalCount spec))) := by
  obtain ⟨addr, hparse, hsend⟩ := h.addressed
  have hpos := one_le_wireElements session h.low h.high
  obtain ⟨hnever, -⟩ | ⟨-, -, helapsed, -⟩ | ⟨addr', hasked, -, e, hread⟩ :=
    readOne_cases session spec peer false
  · exact absurd ⟨hparse, h.low, h.high⟩ (hnever addr)
  · cases helapsed
  · have hsame := hasked.parse
    rw [hparse] at hsame
    cases hsame
    rw [hread, readTag_served hparse hsend hpeer hpos h.fits]
    rfl

/-- Any other read teaches nothing and is not GOOD. -/
theorem readOne_unanswered (hpeer : ServesPacked spec.tagPath words peer)
    (h : ¬ Answerable session spec words.length) :
    (readOne session spec peer false).1 = session ∧
      ∀ reading, (readOne session spec peer false).2 = .ok reading → reading.quality = .bad := by
  obtain ⟨-, raw, hread⟩ | ⟨addr, -, helapsed, -⟩ | ⟨addr, hasked, -, e, hread⟩ :=
    readOne_cases session spec peer false
  · rw [hread]
    refine ⟨rfl, fun reading hreading => ?_⟩
    cases hreading
    rfl
  · cases helapsed
  · rw [hread]
    simp only
    by_cases hsend : Sendable session.client addr.path
    · have hbeyond : words.length < (session.wireElements spec).toNat := by
        by_contra hfits
        exact h ⟨⟨addr, hasked.parse, hsend⟩, hasked.low, hasked.high, by omega⟩
      obtain ⟨status, houtcome⟩ := readTag_beyond hasked.parse hsend hpeer hbeyond
      rw [houtcome]
      refine ⟨rfl, fun reading hreading => ?_⟩
      cases hreading
      rfl
    · obtain ⟨e', houtcome, hsample⟩ :=
        readTag_of_not_sendable (session.wireElements spec) peer hsend
      rw [houtcome]
      refine ⟨rfl, fun reading hreading => ?_⟩
      simp only [isSampled, hsample, Bool.false_eq_true, if_false] at hreading
      cases hreading

/-- A tag known to be packed stays so. -/
theorem KnownPacked.readOne (hpeer : ServesPacked spec.tagPath words peer)
    (h : KnownPacked session spec.tagPath) :
    KnownPacked (readOne session spec peer false).1 spec.tagPath := by
  by_cases hask : Answerable session spec words.length
  · rw [readOne_answered hpeer hask]
    exact AList.lookup_insert _
  · rw [(readOne_unanswered hpeer hask).1]
    exact h

/-- A tag not known to be packed becomes so by a read the target can answer as it is asked. -/
theorem knownPacked_readOne_iff (hpeer : ServesPacked spec.tagPath words peer)
    (h : ¬ KnownPacked session spec.tagPath) :
    KnownPacked (readOne session spec peer false).1 spec.tagPath ↔
      Addressed session.client spec.tagPath ∧ 1 ≤ logicalCount spec ∧
        logicalCount spec < 2 ^ 16 ∧ logicalCount spec ≤ words.length := by
  by_cases hask : Answerable session spec words.length
  · rw [readOne_answered hpeer hask]
    have hfits := hask.fits
    rw [wireElements_of_unknown h hask.high] at hfits
    refine ⟨fun _ => ⟨hask.addressed, hask.low, hask.high, hfits⟩, fun _ => ?_⟩
    exact AList.lookup_insert _
  · rw [(readOne_unanswered hpeer hask).1]
    refine ⟨fun hknown => absurd hknown h, fun ⟨haddr, hlow, hhigh, hfits⟩ => ?_⟩
    rw [← wireElements_of_unknown h hhigh] at hfits
    exact absurd ⟨haddr, hlow, hhigh, hfits⟩ hask

end Read

/-! ## A run -/

section Run

variable {tagPath : String} {size : ℕ} {read : SignalSpec × ReadEnv}
  {reads : List (SignalSpec × ReadEnv)}

/-- Reads leave the client of the session alone. -/
theorem readRun_client (session : EipSession) (reads : List (SignalSpec × ReadEnv)) :
    (readRun session reads).client = session.client := by
  induction reads generalizing session with
  | nil => rfl
  | cons read reads ih => exact (ih _).trans (readOne_client ..)

/-- `read_signals` over a list is the run of its reads. -/
theorem readSignals_eq_readRun {session : EipSession} {envs : ℕ → ReadEnv}
    {specs : List SignalSpec} {readings : List Reading}
    (h : (readSignals session envs specs).2 = .ok readings) :
    (readSignals session envs specs).1 =
      readRun session (specs.mapIdx fun i spec => (spec, envs i)) := by
  induction specs generalizing session envs readings with
  | nil => rfl
  | cons spec specs ih =>
    cases hfirst : (readOne session spec (envs 0).peer (envs 0).elapsed).2 with
    | error e =>
      rw [readSignals_cons_error envs specs hfirst] at h
      cases h
    | ok reading =>
      rw [readSignals_cons_ok envs specs hfirst] at h ⊢
      cases hrest : (readSignals (readOne session spec (envs 0).peer (envs 0).elapsed).1
          (fun i => envs (i + 1)) specs).2 with
      | error e =>
        simp only [hrest, Except.map] at h
        cases h
      | ok rest =>
        rw [List.mapIdx_cons]
        exact ih hrest

/-- What is served throughout is served in the reads behind the first. -/
theorem servedThroughout_tail (h : ServedThroughout tagPath size (read :: reads)) :
    ServedThroughout tagPath size reads :=
  fun r hr => h r (.tail _ hr)

/-- What a run has taught, by its first read. -/
theorem taught_cons :
    Taught tagPath size (read :: reads) ↔
      (read.1.tagPath = tagPath ∧ 1 ≤ logicalCount read.1 ∧ logicalCount read.1 < 2 ^ 16 ∧
        logicalCount read.1 ≤ size) ∨ Taught tagPath size reads := by
  simp only [Taught, List.mem_cons, exists_eq_or_imp]

/-- One read of a run: a tag known to be packed stays so, and one that is not becomes so by a
read of it that can be answered. -/
theorem knownPacked_step {session : EipSession}
    (hserved : ServedThroughout tagPath size (read :: reads)) :
    KnownPacked (readOne session read.1 read.2.peer read.2.elapsed).1 tagPath ↔
      KnownPacked session tagPath ∨ Addressed session.client tagPath ∧
        read.1.tagPath = tagPath ∧ 1 ≤ logicalCount read.1 ∧ logicalCount read.1 < 2 ^ 16 ∧
          logicalCount read.1 ≤ size := by
  by_cases htag : read.1.tagPath = tagPath
  · obtain ⟨hlive, words, rfl, hpeer⟩ := hserved read (.head _) htag
    subst htag
    rw [hlive]
    by_cases hknown : KnownPacked session read.1.tagPath
    · exact ⟨fun _ => .inl hknown, fun _ => hknown.readOne hpeer⟩
    · rw [knownPacked_readOne_iff hpeer hknown]
      simp only [hknown, false_or, true_and]
  · have hsame := readOne_observed_ne session read.2.peer read.2.elapsed htag
    unfold KnownPacked
    rw [hsame]
    simp only [htag, false_and, and_false, or_false]

/-- A run makes a tag known to be packed exactly by a read of it that can be answered. -/
theorem knownPacked_readRun_iff (session : EipSession)
    (hserved : ServedThroughout tagPath size reads) :
    KnownPacked (readRun session reads) tagPath ↔
      KnownPacked session tagPath ∨
        Addressed session.client tagPath ∧ Taught tagPath size reads := by
  induction reads generalizing session with
  | nil =>
    have hnothing : ¬ Taught tagPath size [] := by
      rintro ⟨r, hr, -⟩
      cases hr
    simp only [hnothing, and_false, or_false]
    rfl
  | cons read reads ih =>
    have hrun : readRun session (read :: reads) =
        readRun (readOne session read.1 read.2.peer read.2.elapsed).1 reads := rfl
    rw [hrun, ih _ (servedThroughout_tail hserved), knownPacked_step hserved, readOne_client,
      taught_cons]
    tauto

end Run

/-! ## The array -/

/-- The reading of a BOOL array whose tag is known to be packed. -/
theorem readsBools_of_known {session : EipSession} {signal : SignalSpec} {words : List UInt32}
    {peer : Peer} (hpeer : ServesPacked signal.tagPath words peer)
    (harray : isBoolArray signal = true) (hlow : 1 ≤ logicalCount signal)
    (hhigh : logicalCount signal < 2 ^ 16)
    (hstored : packedDwordCount (logicalCount signal) ≤ words.length)
    (haddressed : Addressed session.client signal.tagPath)
    (hknown : KnownPacked session signal.tagPath) :
    ReadsBools words (logicalCount signal) (readOne session signal peer false).2 := by
  have hcount := wireElements_of_known hknown harray hhigh
  have hask : Answerable session signal words.length :=
    ⟨haddressed, hlow, hhigh, by rw [hcount]; exact hstored⟩
  rw [readOne_answered hpeer hask, hcount, decodeReading_packed harray hstored]
  exact ⟨_, rfl, rfl, rfl⟩

/-- From the third read on, a packed BOOL array is read GOOD, with its first booleans in
order, exactly when it has no more booleans than the target has words or the tag was read
before for fewer elements: the first request asks for as many elements as there are booleans,
and a target that refuses it teaches nothing. -/
theorem packed_array_readable_iff (client : EipClient) (signal : SignalSpec) (bools : UInt32)
    (size : ℕ) (reads : List (SignalSpec × ReadEnv)) (words : List UInt32) (peer : Peer)
    (hbool : signal.eipType = .bool) (hcount : signal.arrayCount = some bools)
    (hlow : 1 ≤ bools.toNat) (hhigh : bools.toNat ≤ 65535)
    (hstored : packedDwordCount bools.toNat ≤ size)
    (hserved : ServedThroughout signal.tagPath size reads)
    (hread : 2 ≤ reads.countP (fun r => r.1 = signal)) (hsize : words.length = size)
    (hpeer : ServesPacked signal.tagPath words peer) :
    ReadsBools words bools.toNat
        (readOne (readRun (EipSession.new client) reads) signal peer false).2 ↔
      Addressed client signal.tagPath ∧
        (bools.toNat ≤ size ∨ Taught signal.tagPath size reads) := by
  have hlogical : logicalCount signal = bools.toNat := by simp [logicalCount, hcount]
  have harray : isBoolArray signal = true := by simp [isBoolArray, hbool, hcount]
  have hfresh : ¬ KnownPacked (EipSession.new client) signal.tagPath := by
    simp [KnownPacked, EipSession.new]
  have hclient : (readRun (EipSession.new client) reads).client = client := readRun_client ..
  have hrun := knownPacked_readRun_iff (EipSession.new client) hserved
  -- an own read the target can answer is one that teaches
  have hown : bools.toNat ≤ size → Taught signal.tagPath size reads := by
    intro hfits
    have hpos : 0 < reads.countP (fun r => r.1 = signal) := by omega
    obtain ⟨r, hr, hsignal⟩ := List.countP_pos_iff.mp hpos
    have heq : r.1 = signal := by simpa using hsignal
    refine ⟨r, hr, by rw [heq], ?_⟩
    rw [heq, hlogical]
    omega
  subst hsize
  by_cases hknown : KnownPacked (readRun (EipSession.new client) reads) signal.tagPath
  · obtain hnew | ⟨haddressed, htaught⟩ := hrun.mp hknown
    · exact absurd hnew hfresh
    · refine ⟨fun _ => ⟨haddressed, .inr htaught⟩, fun _ => ?_⟩
      rw [← hlogical] at hlow hhigh hstored ⊢
      exact readsBools_of_known hpeer harray hlow (by omega) hstored
        (by rw [hclient]; exact haddressed) hknown
  · have htaught : ¬ (Addressed client signal.tagPath ∧
        (bools.toNat ≤ words.length ∨ Taught signal.tagPath words.length reads)) := by
      rintro ⟨haddressed, hfits | htaught⟩
      · exact hknown (hrun.mpr (.inr ⟨haddressed, hown hfits⟩))
      · exact hknown (hrun.mpr (.inr ⟨haddressed, htaught⟩))
    -- the array is still asked for element by element, and that is refused
    have hask : ¬ Answerable (readRun (EipSession.new client) reads) signal words.length := by
      intro hask
      have hfits := hask.fits
      have haddressed := hask.addressed
      rw [wireElements_of_unknown hknown hask.high, hlogical] at hfits
      rw [hclient] at haddressed
      exact htaught ⟨haddressed, .inl hfits⟩
    refine ⟨?_, fun h => absurd h htaught⟩
    rintro ⟨reading, hreading, hgood, -⟩
    rw [(readOne_unanswered hpeer hask).2 reading hreading] at hgood
    cases hgood

/-! ## A target -/

/-- A target that stores these words under every tag; more than it has is beyond the end of
the tag. -/
def packedTarget (words : List UInt32) : Peer := fun _ mr =>
  let k := ofLeBytes (mr.data.take 2)
  if k ≤ words.length then
    .ok ⟨mr.service ||| 0x80, ⟨.success, []⟩, dwordData (words.take k)⟩
  else .ok ⟨mr.service ||| 0x80, ⟨.extendedError, [0x2105]⟩, []⟩

/-- The target that stores these words serves them. -/
theorem packedTarget_serves (tagPath : String) (words : List UInt32) :
    ServesPacked tagPath words (packedTarget words) := by
  have hcount : ∀ (k : UInt16) (rest : Bytes),
      ofLeBytes ((putU16 k ++ rest).take 2) = k.toNat := by
    intro k rest
    have hlt : k.toNat < 256 ^ 2 := k.toNat_lt
    rw [List.take_left' (putU16_length k), putU16, ofLeBytes_leBytes, Nat.mod_eq_of_lt hlt]
  have hwhole : ∀ (addr : TagAddress) (k : UInt16),
      ofLeBytes ((readTagRequest addr k).data.take 2) = k.toNat := by
    intro addr k
    have hdata := hcount k []
    rw [List.append_nil] at hdata
    exact hdata
  refine ⟨fun addr _ n k hk => ?_, fun addr _ n k hk => ?_, fun addr _ n k offset hk => ?_⟩
  · refine ⟨⟨.success, []⟩, rfl, ?_⟩
    simp only [packedTarget, hwhole, if_pos hk]
    rfl
  · refine ⟨⟨.extendedError, [0x2105]⟩, [], ⟨rfl, rfl⟩, ?_⟩
    simp only [packedTarget, hwhole, if_neg (Nat.not_le.mpr hk)]
    rfl
  · refine ⟨⟨.extendedError, [0x2105]⟩, [], ⟨rfl, rfl⟩, ?_⟩
    have hfragmented : ofLeBytes ((readTagFragmentedRequest addr k offset).data.take 2) = k.toNat :=
      hcount k (putU32 offset)
    simp only [packedTarget, hfragmented, if_neg (Nat.not_le.mpr hk)]
    rfl

/-- A configured BOOL array. -/
def bitsSignal (bools : UInt32) : SignalSpec := ⟨"bits", "Bits", .bool, some bools, none, none, {}⟩

/-- Reads of the array, with the words the target has in each. -/
def bitsReads (bools : UInt32) (states : List (List UInt32)) : List (SignalSpec × ReadEnv) :=
  states.map fun words => (bitsSignal bools, ⟨packedTarget words, false⟩)

/-- Reads of the packed array are served by a target that stores its words. -/
theorem bitsReads_served {bools : UInt32} {states : List (List UInt32)} {size : ℕ}
    (h : ∀ words ∈ states, words.length = size) :
    ServedThroughout "Bits" size (bitsReads bools states) := by
  intro r hr _
  obtain ⟨words, hwords, rfl⟩ := List.mem_map.mp hr
  exact ⟨rfl, words, h words hwords, packedTarget_serves "Bits" words⟩

/-- Thirty-two booleans in one full word are BAD in the third read too. -/
theorem full_word_stays_unreadable :
    packedDwordCount 32 ≤ 1 ∧ ServedThroughout "Bits" 1 (bitsReads 32 [[1], [2]]) ∧
      (bitsReads 32 [[1], [2]]).countP (fun r => r.1 = bitsSignal 32) = 2 ∧
      ServesPacked "Bits" [3] (packedTarget [3]) ∧
      ¬ ReadsBools [3] 32 (readOne (readRun (EipSession.new {}) (bitsReads 32 [[1], [2]]))
        (bitsSignal 32) (packedTarget [3]) false).2 := by
  refine ⟨by decide, bitsReads_served (by decide), by decide +kernel, packedTarget_serves .., ?_⟩
  rintro ⟨reading, hreading, hgood, -⟩
  have hbad : (readOne (readRun (EipSession.new {}) (bitsReads 32 [[1], [2]])) (bitsSignal 32)
      (packedTarget [3]) false).2.toOption.map (·.quality) = some .bad := by
    decide +kernel
  rw [hreading] at hbad
  cases hgood.symm.trans (Option.some.inj hbad)

/-- Two booleans in two words are read in the third read, whatever the words were before. -/
theorem two_bools_become_readable :
    Addressed {} "Bits" ∧
      ReadsBools [3, 0] 2 (readOne (readRun (EipSession.new {}) (bitsReads 2 [[1, 0], [2, 0]]))
        (bitsSignal 2) (packedTarget [3, 0]) false).2 := by
  have haddressed : Addressed {} "Bits" := by
    refine ⟨⟨⟨[.symbol "Bits"]⟩, "Bits"⟩, by decide +kernel, by decide +kernel, fun _ r hr => ?_⟩
    cases hr
  refine ⟨haddressed, ?_⟩
  apply (packed_array_readable_iff {} (bitsSignal 2) 2 2 (bitsReads 2 [[1, 0], [2, 0]]) [3, 0]
    (packedTarget [3, 0]) rfl rfl (by decide) (by decide) (by decide)
    (bitsReads_served (by decide)) (by decide +kernel) rfl (packedTarget_serves ..)).mpr
  exact ⟨haddressed, .inl (by decide)⟩

end EnipAdapter.Analysis
