import EnipAdapter.Analysis.ChunkIndependence
import EnipAdapter.Interface.RoundTripContract

/-!
# Encapsulation frames, written and read back

The header first, then the frame, then the stream: the head of a run of encoded frames is cut
exactly where the first of them ends, so the frames of the run are the frames that went in, less
the filler.
-/

set_option autoImplicit false

namespace EnipAdapter.Analysis

open EnipAdapter.Foundation
open EnipAdapter.Interface
open EnipAdapter.Model
open EnipAdapter.Model.EncapCodec

/-! ## The codes -/

/-- A command keeps the code it was read from. -/
theorem command_code_fromCode (code : UInt16) : (Command.fromCode code).code = code := by
  unfold Command.fromCode
  split_ifs <;> simp_all [Command.code]

/-- A status keeps the code it was read from. -/
theorem status_code_fromCode (code : UInt32) : (EncapStatus.fromCode code).code = code := by
  unfold EncapStatus.fromCode
  split_ifs <;> simp_all [EncapStatus.code]

/-- A command that a code stands for is read back from its own code. -/
theorem command_fromCode_code {c : Command} (h : ∃ code, c = Command.fromCode code) :
    Command.fromCode c.code = c := by
  obtain ⟨code, rfl⟩ := h
  rw [command_code_fromCode]

/-- A status that a code stands for is read back from its own code. -/
theorem status_fromCode_code {s : EncapStatus} (h : ∃ code, s = EncapStatus.fromCode code) :
    EncapStatus.fromCode s.code = s := by
  obtain ⟨code, rfl⟩ := h
  rw [status_code_fromCode]

/-! ## The header -/

/-- A header takes 24 bytes. -/
theorem header_write_length {h : EncapHeader} (hcontext : h.senderContext.length = 8) :
    h.write.length = headerLen := by
  simp [EncapHeader.write, hcontext, headerLen]

/-- A written header of named codes is read back. -/
theorem decodeFrom_write {h : EncapHeader} (hcommand : Command.fromCode h.command.code = h.command)
    (hstatus : EncapStatus.fromCode h.status.code = h.status)
    (hcontext : h.senderContext.length = 8) (rest : Bytes) (context : String) :
    EncapHeader.decodeFrom ⟨h.write ++ rest, context⟩ = .ok (h, ⟨rest, "encap header"⟩) := by
  have htake := WireReader.take_append h.senderContext (putU32 h.options ++ rest) "encap header"
  rw [hcontext] at htake
  simp only [EncapHeader.decodeFrom, EncapHeader.write, WireReader.at_, List.append_assoc,
    WireReader.u16_append, WireReader.u32_append, htake, bind, Except.bind, pure, Except.pure,
    hcommand, hstatus]

/-- The header that a run of bytes spells is the one it was written from. -/
theorem headerOf_write {h : EncapHeader} (hcommand : Command.fromCode h.command.code = h.command)
    (hstatus : EncapStatus.fromCode h.status.code = h.status)
    (hcontext : h.senderContext.length = 8) (rest : Bytes) : headerOf (h.write ++ rest) = h := by
  have hlong : headerLen ≤ (h.write ++ rest).length := by
    rw [List.length_append, header_write_length hcontext]
    omega
  have hread := decodeFrom_eq "encap header" hlong
  rw [decodeFrom_write hcommand hstatus hcontext] at hread
  exact (Prod.mk.inj (Except.ok.inj hread)).1.symm

/-- A header that was read is written as the bytes it was read from. -/
theorem write_decodeFrom {r r' : WireReader} {h : EncapHeader}
    (hread : EncapHeader.decodeFrom r = .ok (h, r')) :
    r.rest = h.write ++ r'.rest ∧ h.senderContext.length = 8 := by
  unfold EncapHeader.decodeFrom at hread
  obtain ⟨⟨command, r₁⟩, hcommand, hread⟩ := bind_ok.mp hread
  obtain ⟨⟨length, r₂⟩, hlength, hread⟩ := bind_ok.mp hread
  obtain ⟨⟨session, r₃⟩, hsession, hread⟩ := bind_ok.mp hread
  obtain ⟨⟨status, r₄⟩, hstatus, hread⟩ := bind_ok.mp hread
  obtain ⟨⟨sender, r₅⟩, hsender, hread⟩ := bind_ok.mp hread
  obtain ⟨⟨options, r₆⟩, hoptions, hread⟩ := bind_ok.mp hread
  cases hread
  obtain ⟨hcount, hrest⟩ := WireReader.eq_unread_of_take hsender
  refine ⟨?_, hcount⟩
  have hwhole := WireReader.eq_unread_of_u16 hcommand
  rw [WireReader.eq_unread_of_u16 hlength, WireReader.eq_unread_of_u32 hsession,
    WireReader.eq_unread_of_u32 hstatus, hrest, WireReader.eq_unread_of_u32 hoptions] at hwhole
  have hbytes := congrArg WireReader.rest hwhole
  simp only [WireReader.at_, WireReader.unread] at hbytes
  simp only [hbytes, EncapHeader.write, command_code_fromCode, status_code_fromCode,
    List.append_assoc]

/-! ## The frame -/

/-- The longest payload fits the length field. -/
theorem maxDataLen_lt : maxDataLen < 2 ^ 16 := by decide

/-- What the encoder writes for a frame is its measured header and its data. -/
theorem encode_eq {f : TypedFrame} (h : f.frame.data.length ≤ maxDataLen) :
    f.frame.encode = .ok (f.measured.header.write ++ f.measured.data) :=
  if_neg (by omega)

/-- A frame that was decoded is encoded as the bytes it was decoded from. -/
theorem encap_encode_decode {b : Bytes} {f : EncapFrame} (h : EncapFrame.decode b = .ok f)
    (hlen : f.header.length.toNat ≤ maxDataLen) : f.encode = .ok b := by
  unfold EncapFrame.decode at h
  obtain ⟨⟨header, r⟩, hheader, h⟩ := bind_ok.mp h
  obtain ⟨⟨data, r'⟩, hdata, h⟩ := bind_ok.mp h
  obtain ⟨_, hend, h⟩ := bind_ok.mp h
  cases h
  obtain ⟨hbytes, -⟩ := write_decodeFrom hheader
  obtain ⟨hcount, hrest⟩ := WireReader.eq_unread_of_take hdata
  -- the data is all that is left behind the header
  have hdrop : r.rest = data := by
    rw [hrest]
    simp only [WireReader.unread, WireReader.rest_of_expectEnd hend, List.append_nil]
  have hwhole : b = header.write ++ data := by
    rw [← hdrop]
    exact hbytes
  have hfits : ¬ data.length > maxDataLen := by
    rw [hcount]
    exact Nat.not_lt.mpr hlen
  have hfield : UInt16.ofNat data.length = header.length := by
    rw [hcount, UInt16.ofNat_toNat]
  simp only [EncapFrame.encode, if_neg hfits, hfield, ← hwhole]

/-! ## The stream -/

/-- The head of a run of bytes that starts with an encoded frame is that frame. -/
theorem peek_measured {f : TypedFrame} (h : f.Transmittable) (rest : Bytes) :
    peek (f.measured.header.write ++ f.measured.data ++ rest) =
      .frame f.measured.header.command f.measured (headerLen + f.measured.data.length) := by
  have hlt := maxDataLen_lt
  have hdata : f.measured.data.length ≤ maxDataLen := h.data_le
  have hlength : f.measured.header.length.toNat = f.measured.data.length :=
    UInt16.toNat_ofNat_of_lt' (by
      show f.frame.data.length < 2 ^ 16
      have hle := h.data_le
      omega)
  have hwrite : f.measured.header.write.length = headerLen := header_write_length f.context_length
  have hheader : headerOf (f.measured.header.write ++ f.measured.data ++ rest) =
      f.measured.header := by
    rw [List.append_assoc]
    exact headerOf_write (h := f.measured.header) (command_fromCode_code h.command_named)
      (status_fromCode_code h.status_named) f.context_length _
  have htotal : (f.measured.header.write ++ f.measured.data).length =
      headerLen + f.measured.data.length := by
    rw [List.length_append, hwrite]
  have hwhole : (f.measured.header.write ++ f.measured.data ++ rest).length =
      headerLen + f.measured.data.length + rest.length := by
    rw [List.length_append, htotal]
  have hcut : ((f.measured.header.write ++ f.measured.data ++ rest).take
      (headerLen + f.measured.data.length)).drop headerLen = f.measured.data := by
    rw [← htotal, List.take_left, ← hwrite, List.drop_left]
  rw [peek_eq, hheader, hlength, hwhole, if_neg (by omega), if_neg (by omega),
    if_neg (by omega), hcut]

/-- The codec takes one encoded frame off the head of a stream and goes on behind it. -/
theorem stream_cons {f : TypedFrame} (h : f.Transmittable) (rest : Bytes) :
    framesOf (f.measured.header.write ++ f.measured.data ++ rest) =
        TypedFrame.surfaced [f] ++ framesOf rest ∧
      restOf (f.measured.header.write ++ f.measured.data ++ rest) = restOf rest := by
  have hscan := scan_eq_some_of_frame (peek_measured h rest)
  have hwrite : f.measured.header.write.length = headerLen := header_write_length f.context_length
  have hdrop : (f.measured.header.write ++ f.measured.data ++ rest).drop
      (headerLen + f.measured.data.length) = rest := by
    rw [← hwrite, ← List.length_append, List.drop_left]
  have hframes := encapFraming.frames_of_some hscan
  have hrest := encapFraming.rest_of_some hscan
  rw [hdrop] at hframes hrest
  refine ⟨?_, hrest⟩
  show encapFraming.frames _ = _
  rw [hframes]
  by_cases hnop : f.measured.header.command = .nop
  · simp [TypedFrame.surfaced, hnop, framesOf]
  · simp [TypedFrame.surfaced, hnop, framesOf]

/-- The frames of a run of encodings are the frames that went in, and nothing is left. -/
theorem stream_spec {fs : List TypedFrame} {stream : Bytes} (h : ∀ f ∈ fs, f.Transmittable)
    (hstream : writeMany (fun f : TypedFrame => f.frame.encode) fs = .ok stream) :
    framesOf stream = TypedFrame.surfaced fs ∧ restOf stream = [] := by
  induction fs generalizing stream with
  | nil =>
      cases hstream
      have hpeek : peek [] = .incomplete := by
        rw [peek_eq]
        exact if_pos (by decide)
      have hscan := scan_eq_none_of_incomplete hpeek
      exact ⟨encapFraming.frames_of_none hscan, encapFraming.rest_of_none hscan⟩
  | cons f fs ih =>
      obtain ⟨head, tail, hhead, htail, rfl⟩ := writeMany_cons_eq_ok hstream
      have hf := h f List.mem_cons_self
      rw [encode_eq hf.data_le] at hhead
      cases hhead
      obtain ⟨hframes, hrest⟩ := ih (fun g hg => h g (List.mem_cons_of_mem f hg)) htail
      obtain ⟨hcons, hbehind⟩ := stream_cons hf tail
      refine ⟨?_, by rw [hbehind, hrest]⟩
      rw [hcons, hframes, TypedFrame.surfaced, TypedFrame.surfaced, TypedFrame.surfaced,
        ← List.filter_append, ← List.map_append, List.singleton_append]

/-- A run of transmittable frames is encoded, and the codec yields exactly the frames of the run
that are no filler, in order and with their measured lengths, and leaves nothing behind; a frame
that was decoded is encoded as the bytes it was decoded from. -/
theorem encap_round_trip :
    (∀ fs : List TypedFrame, (∀ f ∈ fs, f.Transmittable) →
      ∃ stream, writeMany (fun f : TypedFrame => f.frame.encode) fs = .ok stream ∧
        ∀ out err rest, Drains stream out err rest ↔
          out = TypedFrame.surfaced fs ∧ err = none ∧ rest = []) ∧
      ∀ b f, EncapFrame.decode b = .ok f → f.header.length.toNat ≤ maxDataLen →
        f.encode = .ok b := by
  refine ⟨?_, fun b f h hlen => encap_encode_decode h hlen⟩
  intro fs hfs
  obtain ⟨stream, hstream⟩ : ∃ stream,
      writeMany (fun f : TypedFrame => f.frame.encode) fs = .ok stream :=
    (writeMany_isOk_iff fs).mpr fun f hf => ⟨_, encode_eq (hfs f hf).data_le⟩
  obtain ⟨hframes, hrest⟩ := stream_spec hfs hstream
  have herror : errorOf [] = none := by
    rw [errorOf, peek_eq, if_pos (by decide)]
  refine ⟨stream, hstream, ?_⟩
  intro out err rest
  constructor
  · intro h
    have hspec := drains_spec h
    rwa [hframes, hrest, herror] at hspec
  · rintro ⟨rfl, rfl, rfl⟩
    obtain ⟨out, err, rest, h, -⟩ := drains_exists stream
    have hspec := drains_spec h
    rw [hframes, hrest, herror] at hspec
    obtain ⟨rfl, rfl, rfl⟩ := hspec
    exact h

end EnipAdapter.Analysis
