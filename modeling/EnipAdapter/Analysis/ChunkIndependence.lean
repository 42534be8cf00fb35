import EnipAdapter.Interface.FrameStream

/-!
# The chunks of a stream do not matter

Whatever the codec does with a buffer is a function of the bytes in it: the frames it yields are
the frames of the buffer, it ends where nothing more can be cut, and the only error it can end
with leaves the buffer as it is. The independence of the chunking is then that of the framing.
-/

set_option autoImplicit false

namespace EnipAdapter.Analysis

open EnipAdapter.Foundation
open EnipAdapter.Interface
open EnipAdapter.Model
open EnipAdapter.Model.EncapCodec

/-! ## Reading a header -/

/-- Bytes of a buffer from a position on that are there are taken. -/
theorem take_drop_ok {src : Bytes} {k n : ℕ} (context : String) (h : k + n ≤ src.length) :
    (⟨src.drop k, context⟩ : WireReader).take n =
      .ok ((src.drop k).take n, ⟨src.drop (k + n), context⟩) := by
  have hle : n ≤ (src.drop k).length := by
    rw [List.length_drop]
    omega
  have htake : (⟨src.drop k, context⟩ : WireReader).take n =
      .ok ((src.drop k).take n, ⟨(src.drop k).drop n, context⟩) := if_pos hle
  rwa [List.drop_drop] at htake

/-- A word is read where two bytes are left. -/
theorem u16_drop_ok {src : Bytes} {k : ℕ} (context : String) (h : k + 2 ≤ src.length) :
    (⟨src.drop k, context⟩ : WireReader).u16 =
      .ok (UInt16.ofNat (ofLeBytes ((src.drop k).take 2)), ⟨src.drop (k + 2), context⟩) := by
  simp only [WireReader.u16, take_drop_ok context h]
  rfl

/-- A double word is read where four bytes are left. -/
theorem u32_drop_ok {src : Bytes} {k : ℕ} (context : String) (h : k + 4 ≤ src.length) :
    (⟨src.drop k, context⟩ : WireReader).u32 =
      .ok (UInt32.ofNat (ofLeBytes ((src.drop k).take 4)), ⟨src.drop (k + 4), context⟩) := by
  simp only [WireReader.u32, take_drop_ok context h]
  rfl

/-- The header that the first bytes of a buffer spell. -/
def headerOf (src : Bytes) : EncapHeader where
  command := Command.fromCode (UInt16.ofNat (ofLeBytes ((src.drop 0).take 2)))
  length := UInt16.ofNat (ofLeBytes ((src.drop 2).take 2))
  sessionHandle := UInt32.ofNat (ofLeBytes ((src.drop 4).take 4))
  status := EncapStatus.fromCode (UInt32.ofNat (ofLeBytes ((src.drop 8).take 4)))
  senderContext := (src.drop 12).take 8
  options := UInt32.ofNat (ofLeBytes ((src.drop 20).take 4))

/-- A buffer that is long enough for a header spells one. -/
theorem decodeFrom_eq {src : Bytes} (context : String) (h : headerLen ≤ src.length) :
    EncapHeader.decodeFrom ⟨src, context⟩ =
      .ok (headerOf src, ⟨src.drop headerLen, "encap header"⟩) := by
  unfold headerLen at h
  have h1 := u16_drop_ok (k := 0) "encap header" (show 0 + 2 ≤ src.length by omega)
  have h2 := u16_drop_ok (k := 2) "encap header" (show 2 + 2 ≤ src.length by omega)
  have h3 := u32_drop_ok (k := 4) "encap header" (show 4 + 4 ≤ src.length by omega)
  have h4 := u32_drop_ok (k := 8) "encap header" (show 8 + 4 ≤ src.length by omega)
  have h5 := take_drop_ok (k := 12) (n := 8) "encap header" (show 12 + 8 ≤ src.length by omega)
  have h6 := u32_drop_ok (k := 20) "encap header" (show 20 + 4 ≤ src.length by omega)
  rw [List.drop_zero] at h1
  simp only [EncapHeader.decodeFrom, WireReader.at_, h1, h2, h3, h4, h5, h6, bind, Except.bind,
    pure, Except.pure]
  rfl

/-- The header of a longer buffer is the header of its head. -/
theorem headerOf_take (src : Bytes) {n : ℕ} (h : headerLen ≤ n) :
    headerOf (src.take n) = headerOf src := by
  unfold headerLen at h
  have hfield : ∀ k w, k + w ≤ 24 → ((src.take n).drop k).take w = (src.drop k).take w := by
    intro k w hk
    rw [List.drop_take, List.take_take, Nat.min_eq_left (by omega)]
  unfold headerOf
  rw [hfield 0 2 (by omega), hfield 2 2 (by omega), hfield 4 4 (by omega), hfield 8 4 (by omega),
    hfield 12 8 (by omega), hfield 20 4 (by omega)]

/-- A buffer that holds what its header declares, and nothing else, is a frame. -/
theorem decode_frame_eq {src : Bytes} (h : src.length = headerLen + (headerOf src).length.toNat) :
    EncapFrame.decode src = .ok ⟨headerOf src, src.drop headerLen⟩ := by
  have hheader := decodeFrom_eq "encap frame" (show headerLen ≤ src.length by omega)
  have hdata := take_drop_ok "encap header"
    (show headerLen + (headerOf src).length.toNat ≤ src.length by omega)
  have hall : (src.drop headerLen).take (headerOf src).length.toNat = src.drop headerLen := by
    apply List.take_of_length_le
    rw [List.length_drop]
    omega
  have hend : src.drop (headerLen + (headerOf src).length.toNat) = [] := by
    apply List.drop_of_length_le
    omega
  rw [hall, hend] at hdata
  simp only [EncapFrame.decode, WireReader.withContext, hheader, hdata, bind, Except.bind]
  rfl

/-- One pass over a buffer, in terms of the header it spells. -/
theorem peek_eq (src : Bytes) :
    peek src =
      if src.length < headerLen then .incomplete
      else if (headerOf src).length.toNat > maxDataLen then
        .broken (.malformed "encap codec" "declared length exceeds protocol maximum") 0
      else if src.length < headerLen + (headerOf src).length.toNat then .incomplete
      else .frame (headerOf src).command
        ⟨headerOf src, (src.take (headerLen + (headerOf src).length.toNat)).drop headerLen⟩
        (headerLen + (headerOf src).length.toNat) := by
  by_cases hshort : src.length < headerLen
  · simp only [peek, if_pos hshort]
  · have hlen : (src.take headerLen).length = 24 := by
      rw [List.length_take, headerLen]
      unfold headerLen at hshort
      omega
    have h1 := u16_drop_ok "encap header" (show 0 + 2 ≤ (src.take headerLen).length by omega)
    have h2 := u16_drop_ok "encap header" (show 2 + 2 ≤ (src.take headerLen).length by omega)
    rw [List.drop_zero] at h1
    have hsame := headerOf_take src (Nat.le_refl headerLen)
    have hcommand : Command.fromCode
        (UInt16.ofNat (ofLeBytes ((src.take headerLen).take 2))) = (headerOf src).command := by
      rw [← hsame]
      rfl
    have hlength : UInt16.ofNat (ofLeBytes (((src.take headerLen).drop 2).take 2)) =
        (headerOf src).length := by
      rw [← hsame]
      rfl
    simp only [peek, if_neg hshort, WireReader.withContext, h1, h2, bind, Except.bind, pure,
      Except.pure, hcommand, hlength]
    by_cases hlong : (headerOf src).length.toNat > maxDataLen
    · rw [if_pos hlong, if_pos hlong]
    · rw [if_neg hlong, if_neg hlong]
      by_cases hpart : src.length < headerLen + (headerOf src).length.toNat
      · rw [if_pos hpart, if_pos hpart]
      · rw [if_neg hpart, if_neg hpart]
        have hhead := headerOf_take src
          (Nat.le_add_right headerLen (headerOf src).length.toNat)
        have hlen : (src.take (headerLen + (headerOf src).length.toNat)).length =
            headerLen + (headerOf (src.take
              (headerLen + (headerOf src).length.toNat))).length.toNat := by
          rw [hhead, List.length_take]
          omega
        rw [decode_frame_eq hlen, hhead]

/-- The error a pass over a buffer ends with. -/
def errorOf (src : Bytes) : Option WireError :=
  match peek src with
  | .broken e _ => some e
  | .incomplete | .frame _ _ _ => none

/-- A buffer whose head is no frame is left as it is. -/
theorem consumed_of_broken {src : Bytes} {e : WireError} {consumed : ℕ}
    (h : peek src = .broken e consumed) : consumed = 0 := by
  rw [peek_eq] at h
  split_ifs at h
  cases h
  rfl

/-- The command a frame was peeked to carry is its own. -/
theorem command_of_frame {src : Bytes} {c : Command} {f : EncapFrame} {total : ℕ}
    (h : peek src = .frame c f total) : f.header.command = c := by
  rw [peek_eq] at h
  split_ifs at h
  cases h
  rfl

/-- What is left of a buffer when the codec is done with it. -/
def restOf (src : Bytes) : Bytes := encapFraming.rest src

/-- An incomplete buffer has no next frame. -/
theorem scan_eq_none_of_incomplete {src : Bytes} (h : peek src = .incomplete) :
    encapFraming.scan src = none := by
  show frameScan src = none
  rw [frameScan, h]

/-- Neither has a buffer with a broken one. -/
theorem scan_eq_none_of_broken {src : Bytes} {e : WireError} {consumed : ℕ}
    (h : peek src = .broken e consumed) : encapFraming.scan src = none := by
  show frameScan src = none
  rw [frameScan, h]

/-- A whole frame is the next one; a NOP is passed over. -/
theorem scan_eq_some_of_frame {src : Bytes} {c : Command} {f : EncapFrame} {total : ℕ}
    (h : peek src = .frame c f total) :
    encapFraming.scan src = some (if c = .nop then none else some f, total) := by
  show frameScan src = _
  rw [frameScan, h]

/-! ## One call -/

/-- The bound on the passes of the executable loop is never met. -/
theorem decodeLoop_decodes {fuel : ℕ} {src : Bytes} (h : src.length ≤ fuel) :
    Decodes src (decodeLoop fuel src).1 (decodeLoop fuel src).2 := by
  induction fuel generalizing src with
  | zero =>
      have hshort : src.length < headerLen := by
        unfold headerLen
        omega
      apply Decodes.incomplete
      rw [peek_eq, if_pos hshort]
  | succ fuel ih =>
      rw [decodeLoop]
      cases hp : peek src with
      | incomplete => exact .incomplete hp
      | broken e consumed => exact .broken hp
      | frame c f total =>
          by_cases hnop : c = .nop
          · simp only [if_pos hnop]
            subst hnop
            apply Decodes.filler hp
            apply ih
            have htotal := peek_frame_total hp
            unfold headerLen at htotal
            rw [List.length_drop]
            omega
          · simp only [if_neg hnop]
            exact .frame hp hnop

/-- A call of the codec takes the passes of its loop. -/
theorem decode_decodes (src : Bytes) : Decodes src (decode src).1 (decode src).2 :=
  decodeLoop_decodes le_rfl

/-- What the loop of one call makes of a buffer. -/
def CallSpec (src : Bytes) (outcome : DecodeOutcome) (rest : Bytes) : Prop :=
  match outcome with
  | .ok none => framesOf src = [] ∧ restOf src = rest ∧ errorOf rest = none
  | .error e => framesOf src = [] ∧ restOf src = rest ∧ errorOf rest = some e
  | .ok (some f) =>
      framesOf src = f :: framesOf rest ∧ restOf src = restOf rest ∧
        rest.length < src.length ∧ f.header.command ≠ .nop

/-- What a call's passes come to is what the stream's framing says. -/
theorem decodes_spec {src rest : Bytes} {outcome : DecodeOutcome}
    (h : Decodes src outcome rest) : CallSpec src outcome rest := by
  induction h with
  | @incomplete src h =>
      have hscan := scan_eq_none_of_incomplete h
      refine ⟨encapFraming.frames_of_none hscan, encapFraming.rest_of_none hscan, ?_⟩
      rw [errorOf, h]
  | @broken src e consumed h =>
      have hscan := scan_eq_none_of_broken h
      rw [consumed_of_broken h, List.drop_zero]
      refine ⟨encapFraming.frames_of_none hscan, encapFraming.rest_of_none hscan, ?_⟩
      rw [errorOf, h]
  | @frame src c f total h hc =>
      have hscan := scan_eq_some_of_frame h
      rw [if_neg hc] at hscan
      have htotal := peek_frame_total h
      unfold headerLen at htotal
      refine ⟨encapFraming.frames_of_some hscan, encapFraming.rest_of_some hscan, ?_, ?_⟩
      · rw [List.length_drop]
        omega
      · rwa [command_of_frame h]
  | @filler src rest f total outcome h later ih =>
      -- filler carries no item, so the buffer behind it has the same frames and the same rest
      have hscan := scan_eq_some_of_frame h
      rw [if_pos rfl] at hscan
      have hframes : framesOf src = framesOf (src.drop total) := encapFraming.frames_of_some hscan
      have hrest : restOf src = restOf (src.drop total) := encapFraming.rest_of_some hscan
      have hle : (src.drop total).length ≤ src.length := by simp
      unfold CallSpec at ih ⊢
      split at ih <;> rw [hframes, hrest]
      · exact ih
      · exact ih
      · obtain ⟨hf, hr, hlt, hc⟩ := ih
        exact ⟨hf, hr, by omega, hc⟩

/-- So a call of the codec does what the framing says. -/
theorem decode_spec (src : Bytes) : CallSpec src (decode src).1 (decode src).2 :=
  decodes_spec (decode_decodes src)

/-! ## The calls after one append -/

/-- The calls after an append end, and no frame they yield is a NOP. -/
theorem drains_exists (src : Bytes) :
    ∃ fs err rest, Drains src fs err rest ∧ ∀ f ∈ fs, f.header.command ≠ .nop := by
  induction hlen : src.length using Nat.strongRecOn generalizing src with
  | ind len ih =>
      have hspec := decode_spec src
      cases hd : decode src with
      | mk outcome rest =>
          rw [hd] at hspec
          cases outcome with
          | error e => exact ⟨[], some e, rest, .failing hd, by simp⟩
          | ok found =>
              cases found with
              | none => exact ⟨[], none, rest, .wanting hd, by simp⟩
              | some f =>
                  obtain ⟨-, -, hlt, hc⟩ := hspec
                  have hshorter : rest.length < src.length := hlt
                  obtain ⟨fs, err, rest', hlater, hfs⟩ := ih rest.length (by omega) rest rfl
                  refine ⟨f :: fs, err, rest', .frame hd hlater, ?_⟩
                  intro g hg
                  cases List.mem_cons.mp hg with
                  | inl h => rwa [h]
                  | inr h => exact hfs g h

/-- The calls after an append are determined by the buffer. -/
theorem drains_spec {src rest : Bytes} {fs : List EncapFrame} {err : Option WireError}
    (h : Drains src fs err rest) :
    fs = framesOf src ∧ err = errorOf (restOf src) ∧ rest = restOf src := by
  induction h with
  | @wanting src rest h =>
      have hspec := decode_spec src
      rw [h] at hspec
      obtain ⟨hframes, hrest, herr⟩ := hspec
      exact ⟨hframes.symm, by rw [hrest, herr], hrest.symm⟩
  | @failing src rest e h =>
      have hspec := decode_spec src
      rw [h] at hspec
      obtain ⟨hframes, hrest, herr⟩ := hspec
      exact ⟨hframes.symm, by rw [hrest, herr], hrest.symm⟩
  | @frame src rest rest' f fs err h later ih =>
      have hspec := decode_spec src
      rw [h] at hspec
      obtain ⟨hframes, hrest, -, -⟩ := hspec
      obtain ⟨rfl, rfl, rfl⟩ := ih
      exact ⟨hframes.symm, by rw [hrest], hrest.symm⟩

/-! ## The life of a buffer -/

/-- An error stays where it is when more bytes arrive. -/
theorem errorOf_restOf_append {src : Bytes} {e : WireError} (more : Bytes)
    (h : errorOf src = some e) : errorOf (restOf (src ++ more)) = some e := by
  unfold errorOf at h
  split at h
  · rename_i e' consumed hp
    have hstay := peek_append src more (by rw [hp]; intro hne; cases hne)
    rw [hp] at hstay
    rw [restOf, encapFraming.rest_of_none (scan_eq_none_of_broken hstay), errorOf, hstay]
    exact h
  · cases h
  · cases h

/-- What was left has no frame in it. -/
theorem restOf_restOf (src : Bytes) : restOf (restOf src) = restOf src :=
  encapFraming.rest_of_none (encapFraming.scan_rest src)

/-- A buffer that holds no whole frame, and the chunks that come behind it. -/
theorem feeds_spec {buffer rest : Bytes} {chunks : List Bytes} {fs : List EncapFrame}
    {err : Option WireError} (h : Feeds buffer chunks fs err rest)
    (hbuffer : restOf buffer = buffer) :
    fs = framesOf (buffer ++ chunks.flatten) ∧
      (errorOf buffer).or err = errorOf (restOf (buffer ++ chunks.flatten)) ∧
      rest = restOf (buffer ++ chunks.flatten) := by
  induction h with
  | done buffer =>
      have hscan : encapFraming.scan buffer = none := by
        rw [← hbuffer]
        exact encapFraming.scan_rest buffer
      rw [List.flatten_nil, List.append_nil, hbuffer, Option.or_none]
      exact ⟨(encapFraming.frames_of_none hscan).symm, rfl, rfl⟩
  | @chunk buffer chunk rest rest' chunks fs fs' err err' drained later ih =>
      obtain ⟨rfl, rfl, rfl⟩ := drains_spec drained
      obtain ⟨rfl, herr, rfl⟩ := ih (restOf_restOf _)
      rw [List.flatten_cons, ← List.append_assoc]
      have hrest : restOf (buffer ++ chunk ++ chunks.flatten) =
          restOf (restOf (buffer ++ chunk) ++ chunks.flatten) :=
        encapFraming.rest_append_rest _ _
      refine ⟨(encapFraming.frames_append_rest _ _).symm, ?_, hrest.symm⟩
      rw [herr, ← hrest]
      cases hb : errorOf buffer with
      | none => exact Option.none_or
      | some e =>
          rw [List.append_assoc, errorOf_restOf_append _ hb]
          rfl

/-- Any chunks can be fed, and no NOP comes out. -/
theorem feeds_exists (buffer : Bytes) (chunks : List Bytes) :
    ∃ fs err rest, Feeds buffer chunks fs err rest ∧ ∀ f ∈ fs, f.header.command ≠ .nop := by
  induction chunks generalizing buffer with
  | nil => exact ⟨[], none, buffer, .done buffer, by simp⟩
  | cons chunk chunks ih =>
      obtain ⟨fs, err, rest, hdrains, hfs⟩ := drains_exists (buffer ++ chunk)
      obtain ⟨fs', err', rest', hlater, hfs'⟩ := ih rest
      refine ⟨fs ++ fs', err.or err', rest', .chunk hdrains hlater, ?_⟩
      intro f hf
      cases List.mem_append.mp hf with
      | inl h => exact hfs f h
      | inr h => exact hfs' f h

/-- From an empty buffer, what comes out is a function of the bytes. -/
theorem feeds_iff (chunks : List Bytes) (fs : List EncapFrame) (err : Option WireError)
    (rest : Bytes) :
    Feeds [] chunks fs err rest ↔
      fs = framesOf chunks.flatten ∧ err = errorOf (restOf chunks.flatten) ∧
        rest = restOf chunks.flatten := by
  have hempty : peek [] = .incomplete := by
    rw [peek_eq]
    exact if_pos (by decide)
  have hrest : restOf [] = [] := encapFraming.rest_of_none (scan_eq_none_of_incomplete hempty)
  have herror : errorOf [] = none := by rw [errorOf, hempty]
  constructor
  · intro h
    obtain ⟨hframes, herr, hleft⟩ := feeds_spec h hrest
    rw [herror, Option.none_or, List.nil_append] at herr
    exact ⟨hframes, herr, hleft⟩
  · rintro ⟨rfl, rfl, rfl⟩
    obtain ⟨fs, err, rest, hfeeds, -⟩ := feeds_exists [] chunks
    obtain ⟨hframes, herr, hleft⟩ := feeds_spec hfeeds hrest
    rw [herror, Option.none_or, List.nil_append] at herr
    rw [List.nil_append] at hframes hleft
    rwa [hframes, herr, hleft] at hfeeds

/-- However a byte string is cut into chunks, the reader yields the frames, the first error and
the leftover bytes that it yields for the whole string; every call and every loop of calls ends,
and no frame it yields is a NOP. -/
theorem chunking_independent (chunks : List Bytes) :
    (∀ src, Decodes src (decode src).1 (decode src).2) ∧
      ∃ fs err rest,
        (∀ fs' err' rest', Feeds [] chunks fs' err' rest' ↔
          fs' = fs ∧ err' = err ∧ rest' = rest) ∧
        (∀ fs' err' rest', Feeds [] [chunks.flatten] fs' err' rest' ↔
          fs' = fs ∧ err' = err ∧ rest' = rest) ∧
        ∀ f ∈ fs, f.header.command ≠ .nop := by
  refine ⟨decode_decodes, framesOf chunks.flatten, errorOf (restOf chunks.flatten),
    restOf chunks.flatten, feeds_iff chunks, ?_, ?_⟩
  · intro fs' err' rest'
    rw [feeds_iff, List.flatten_singleton]
  · obtain ⟨fs, err, rest, hfeeds, hnop⟩ := feeds_exists [] chunks
    rwa [((feeds_iff chunks fs err rest).mp hfeeds).1] at hnop

end EnipAdapter.Analysis
