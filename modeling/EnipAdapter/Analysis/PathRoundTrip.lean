import EnipAdapter.Analysis.ProducedFrame
import EnipAdapter.Interface.RouteContract
import Mathlib.Data.UInt

/-!
# Paths are read back

Every encoded segment is read back as it was, with one exception that the encoding itself makes:
a port segment without a link address comes back with the link address 0. The same holds of
paths, of Message Router requests and of packets, each by the one before it.
-/

set_option autoImplicit false

namespace EnipAdapter.Analysis

open EnipAdapter.Foundation
open EnipAdapter.Interface
open EnipAdapter.Model

/-! ## Segments -/

/-- A port segment as it comes back. -/
def portOnWire (s : PortSegment) : PortSegment :=
  if s.link = [] then ⟨s.port, [0]⟩ else s

/-- A segment as it comes back. -/
def segmentOnWire : Segment → Segment
  | .port s => .port (portOnWire s)
  | s => s

/-- A map that changes no element of a list changes nothing. -/
theorem map_eq_self_iff {α : Type} (f : α → α) (l : List α) :
    l.map f = l ↔ ∀ a ∈ l, f a = a := by
  have hmap : l.map f = l.map id ↔ ∀ a ∈ l, f a = id a := List.map_inj_left
  rwa [List.map_id] at hmap

/-- A port segment comes back as it is if it names a link. -/
theorem portOnWire_eq_self_iff (s : PortSegment) : portOnWire s = s ↔ s.link ≠ [] := by
  unfold portOnWire
  split_ifs with hlink
  · constructor
    · intro h hne
      have hlinks : [0] = s.link := congrArg PortSegment.link h
      rw [hlink] at hlinks
      cases hlinks
    · intro hne
      exact absurd hlink hne
  · exact ⟨fun _ => hlink, fun _ => rfl⟩

/-- Segments come back as they are if the port segments among them name links. -/
theorem map_segmentOnWire_eq_self_iff (path : List Segment) :
    path.map segmentOnWire = path ↔ LinksNamed path := by
  rw [map_eq_self_iff]
  constructor
  · intro h s hs
    have hport : Segment.port (portOnWire s) = .port s := h (.port s) hs
    exact (portOnWire_eq_self_iff s).mp (Segment.port.inj hport)
  · intro h s hs
    cases s with
    | port s =>
        show Segment.port (portOnWire s) = .port s
        rw [(portOnWire_eq_self_iff s).mpr (h s hs)]
    | _ => rfl

/-- So do the port segments of a route. -/
theorem map_portOnWire_eq_self_iff (route : List PortSegment) :
    route.map portOnWire = route ↔ LinksNamed (route.map .port) := by
  rw [← map_segmentOnWire_eq_self_iff, List.map_map]
  have hport : (segmentOnWire ∘ Segment.port) = (Segment.port ∘ portOnWire) := rfl
  rw [hport, ← List.map_map]
  exact (List.map_inj_right fun _ _ => Segment.port.inj).symm

/-- A word is read back from its bytes. -/
theorem ofLeBytes_putU16 (v : UInt16) : UInt16.ofNat (ofLeBytes (putU16 v)) = v := by
  have hlt : v.toNat < 256 ^ 2 := v.toNat_lt
  rw [putU16, ofLeBytes_leBytes, Nat.mod_eq_of_lt hlt, UInt16.ofNat_toNat]

/-- A double word is read back from its bytes. -/
theorem ofLeBytes_putU32 (v : UInt32) : UInt32.ofNat (ofLeBytes (putU32 v)) = v := by
  have hlt : v.toNat < 256 ^ 4 := v.toNat_lt
  rw [putU32, ofLeBytes_leBytes, Nat.mod_eq_of_lt hlt, UInt32.ofNat_toNat]

/-- A two-byte logical value is read back behind its pad. -/
theorem readWord_putU16 (mk : UInt16 → Segment) (v : UInt16) (rest : Bytes) :
    readWord mk (0 :: (putU16 v ++ rest)) = some (mk v, rest) := by
  have hread : readWord mk (0 :: (putU16 v ++ rest)) =
      some (mk (UInt16.ofNat (ofLeBytes (putU16 v))), rest) := rfl
  rw [hread, ofLeBytes_putU16]

/-- And a four-byte one behind its pad. -/
theorem readDword_putU32 (mk : UInt32 → Segment) (v : UInt32) (rest : Bytes) :
    readDword mk (0 :: (putU32 v ++ rest)) = some (mk v, rest) := by
  have hread : readDword mk (0 :: (putU32 v ++ rest)) =
      some (mk (UInt32.ofNat (ofLeBytes (putU32 v))), rest) := rfl
  rw [hread, ofLeBytes_putU32]

/-- A value that fits a byte survives the narrowing to one. -/
theorem toUInt16_toUInt8 {v : UInt16} (h : v.toNat ≤ 255) : v.toUInt8.toUInt16 = v := by
  apply UInt16.toNat_inj.mp
  rw [UInt8.toNat_toUInt16, UInt16.toNat_toUInt8]
  omega

/-- The same from a double word. -/
theorem toUInt32_toUInt8 {v : UInt32} (h : v.toNat ≤ 255) : v.toUInt8.toUInt32 = v := by
  apply UInt32.toNat_inj.mp
  rw [UInt8.toNat_toUInt32, UInt32.toNat_toUInt8]
  omega

/-- A value that fits a word survives the narrowing to one. -/
theorem toUInt32_toUInt16 {v : UInt32} (h : v.toNat ≤ 65535) : v.toUInt16.toUInt32 = v := by
  apply UInt32.toNat_inj.mp
  rw [UInt16.toNat_toUInt32, UInt32.toNat_toUInt16]
  omega

/-- Counted bytes behind their count, padded to an even count, are read back. -/
theorem readCounted_append (bytes rest : Bytes) (h : bytes.length < 256) :
    readCounted (UInt8.ofNat bytes.length ::
        (bytes ++ ((if bytes.length % 2 = 0 then [] else [0]) ++ rest))) =
      some (bytes, rest) := by
  have hcount : (UInt8.ofNat bytes.length).toNat = bytes.length := UInt8.toNat_ofNat_of_lt' h
  have hpad : (if bytes.length % 2 = 0 then ([] : Bytes) else [0]).length = bytes.length % 2 := by
    split_ifs with heven
    · rw [heven]
      rfl
    · show 1 = bytes.length % 2
      omega
  simp only [readCounted, hcount]
  rw [if_neg, List.take_left, ← List.append_assoc, List.drop_left' _]
  · rw [List.length_append, hpad]
  · simp only [List.length_append, hpad]
    omega

/-- The first byte of a port segment, with and without the bit of a counted link. -/
theorem port_first_byte {port : UInt8} (h : ¬ port > 14) :
    port < 0x20 ∧ port &&& 0x10 = 0 ∧ port &&& 0x0F = port ∧
      port ||| 0x10 < 0x20 ∧ (port ||| 0x10) &&& 0x10 ≠ 0 ∧ (port ||| 0x10) &&& 0x0F = port := by
  have hall : ∀ n : Fin 15,
      UInt8.ofNat n < 0x20 ∧ UInt8.ofNat n &&& 0x10 = 0 ∧ UInt8.ofNat n &&& 0x0F = UInt8.ofNat n ∧
        UInt8.ofNat n ||| 0x10 < 0x20 ∧ (UInt8.ofNat n ||| 0x10) &&& 0x10 ≠ 0 ∧
          (UInt8.ofNat n ||| 0x10) &&& 0x0F = UInt8.ofNat n := by
    decide
  have hle : port.toNat < 15 := by
    have := UInt8.not_lt.mp h
    have hnat := UInt8.le_iff_toNat_le.mp this
    have hmax : (14 : UInt8).toNat = 14 := rfl
    omega
  have hport := hall ⟨port.toNat, hle⟩
  rwa [UInt8.ofNat_toNat] at hport

/-- A port segment is read back with its link as it travels. -/
theorem readSegment_port {s : PortSegment} {bytes : Bytes} (rest : Bytes)
    (h : s.encode = .ok bytes) :
    readSegment (bytes ++ rest) = some (.port (portOnWire s), rest) := by
  unfold PortSegment.encode at h
  split_ifs at h with hport hlong
  obtain ⟨hlow, hbit, hmask, hlow', hbit', hmask'⟩ := port_first_byte hport
  cases hlink : s.link with
  | nil =>
      have hbytes : bytes = [s.port, 0] := by
        rw [hlink] at h
        exact (Except.ok.inj h).symm
      subst hbytes
      simp only [List.cons_append, List.nil_append, readSegment, if_pos hlow, readPort,
        if_pos hbit, hmask, Option.map_some, portOnWire, hlink, if_true]
  | cons first more =>
      have hwire : portOnWire s = s := by
        rw [portOnWire, if_neg]
        rw [hlink]
        exact List.cons_ne_nil _ _
      rw [hwire]
      cases more with
      | nil =>
          have hbytes : bytes = [s.port, first] := by
            rw [hlink] at h
            simpa using h.symm
          subst hbytes
          have hs : (⟨s.port, [first]⟩ : PortSegment) = s := by rw [← hlink]
          simp only [List.cons_append, List.nil_append, readSegment, if_pos hlow, readPort,
            if_pos hbit, hmask, Option.map_some, hs]
      | cons second tail =>
          -- a link of two bytes and more is counted
          have hlen : s.link.length > 1 := by
            rw [hlink]
            simp only [List.length_cons]
            omega
          have hcounted := readCounted_append s.link rest (by omega)
          have hbytes : bytes ++ rest = (s.port ||| 0x10) :: UInt8.ofNat s.link.length ::
              (s.link ++ ((if s.link.length % 2 = 0 then [] else [0]) ++ rest)) := by
            have hbody := (Except.ok.inj h).symm
            rw [hbody]
            simp only [decide_eq_true hlen, if_true, List.cons_append, List.nil_append,
              List.length_cons]
            by_cases heven : s.link.length % 2 = 0
            · rw [if_pos heven, if_pos (by omega)]
              simp
            · rw [if_neg heven, if_neg (by omega)]
              simp
          rw [hbytes]
          simp only [readSegment, if_pos hlow', readPort, if_neg hbit', hmask', hcounted,
            Option.map_some]

/-- A logical segment in the form its magnitude calls for. -/
theorem readSegment_logical {code8 code16 : UInt8} {mk : UInt16 → Segment}
    (h8 : ∀ rest, readSegment (code8 :: rest) = readByte (fun v => mk v.toUInt16) rest)
    (h16 : ∀ rest, readSegment (code16 :: rest) = readWord mk rest) (v : UInt16) (rest : Bytes) :
    readSegment (Segment.encodeLogical code8 code16 v ++ rest) = some (mk v, rest) := by
  unfold Segment.encodeLogical
  split_ifs with hsmall
  · rw [List.cons_append, h8]
    show some (mk v.toUInt8.toUInt16, rest) = _
    rw [toUInt16_toUInt8 hsmall]
  · rw [List.append_assoc, List.cons_append, h16]
    exact readWord_putU16 mk v rest

/-- A logical segment is read back in each of its three widths. -/
theorem readSegment_logicalWide {code8 code16 code32 : UInt8} {mk : UInt32 → Segment}
    (h8 : ∀ rest, readSegment (code8 :: rest) = readByte (fun v => mk v.toUInt32) rest)
    (h16 : ∀ rest, readSegment (code16 :: rest) = readWord (fun v => mk v.toUInt32) rest)
    (h32 : ∀ rest, readSegment (code32 :: rest) = readDword mk rest) (v : UInt32)
    (rest : Bytes) :
    readSegment (Segment.encodeLogicalWide code8 code16 code32 v ++ rest) =
      some (mk v, rest) := by
  unfold Segment.encodeLogicalWide
  split_ifs with hbyte hword
  · rw [List.cons_append, h8]
    show some (mk v.toUInt8.toUInt32, rest) = _
    rw [toUInt32_toUInt8 hbyte]
  · rw [List.append_assoc, List.cons_append, h16]
    show readWord (fun v => mk v.toUInt32) (0 :: (putU16 v.toUInt16 ++ rest)) = _
    rw [readWord_putU16, toUInt32_toUInt16 hword]
  · rw [List.append_assoc, List.cons_append, h32]
    exact readDword_putU32 mk v rest

/-- A symbol is read back. -/
theorem readSegment_symbol {name : String} {bytes : Bytes} (rest : Bytes)
    (h : (Segment.symbol name).encode = .ok bytes) :
    readSegment (bytes ++ rest) = some (.symbol name, rest) := by
  simp only [Segment.encode] at h
  by_cases hlong : name.toUTF8.toList.length ≥ 256
  · rw [if_pos hlong] at h
    cases h
  rw [if_neg hlong] at h
  by_cases hempty : name.toUTF8.toList.length = 0
  · rw [if_pos hempty] at h
    cases h
  rw [if_neg hempty] at h
  have hcounted := readCounted_append name.toUTF8.toList rest (by omega)
  have hbytes : bytes ++ rest = 0x91 :: UInt8.ofNat name.toUTF8.toList.length ::
      (name.toUTF8.toList ++
        ((if name.toUTF8.toList.length % 2 = 0 then [] else [0]) ++ rest)) := by
    rw [← Except.ok.inj h, List.append_assoc, List.append_assoc]
    rfl
  have hkind : ∀ tail, readSegment (0x91 :: tail) =
      (readCounted tail).bind fun counted =>
        (ofUtf8 counted.1).map fun text => (.symbol text, counted.2) := fun _ => rfl
  rw [hbytes, hkind, hcounted]
  simp only [Option.bind_some, ofUtf8_toUTF8, Option.map_some]

/-- An encoded segment is read back. -/
theorem readSegment_encode {s : Segment} {bytes : Bytes} (rest : Bytes)
    (h : s.encode = .ok bytes) :
    readSegment (bytes ++ rest) = some (segmentOnWire s, rest) := by
  cases s with
  | class_ id =>
      cases h
      exact readSegment_logical (fun _ => rfl) (fun _ => rfl) id rest
  | instance_ id =>
      cases h
      exact readSegment_logicalWide (fun _ => rfl) (fun _ => rfl) (fun _ => rfl) id rest
  | «attribute» id =>
      cases h
      exact readSegment_logical (fun _ => rfl) (fun _ => rfl) id rest
  | element index =>
      cases h
      exact readSegment_logicalWide (fun _ => rfl) (fun _ => rfl) (fun _ => rfl) index rest
  | connectionPoint id =>
      cases h
      exact readSegment_logical (fun _ => rfl) (fun _ => rfl) id rest
  | symbol name => exact readSegment_symbol rest h
  | port segment => exact readSegment_port rest h

/-- An encoded segment is not empty. -/
theorem length_pos_of_encode {s : Segment} {bytes : Bytes} (h : s.encode = .ok bytes) :
    0 < bytes.length := by
  cases bytes with
  | nil =>
      have hread := readSegment_encode [] h
      cases hread
  | cons first rest => exact Nat.succ_pos _

/-! ## Paths -/

/-- Segments are read back one after the other. -/
theorem readSegments_encodeSegments {ss : List Segment} {bytes : Bytes} {fuel : ℕ}
    (h : EPath.encodeSegments ss = .ok bytes) (hfuel : bytes.length ≤ fuel) :
    readSegments fuel bytes = some (ss.map segmentOnWire) := by
  induction ss generalizing bytes fuel with
  | nil =>
      cases h
      cases fuel <;> rfl
  | cons s ss ih =>
      rw [EPath.encodeSegments] at h
      cases hs : s.encode with
      | error e => simp [hs, bind, Except.bind] at h
      | ok head =>
          cases hss : EPath.encodeSegments ss with
          | error e => simp [hs, hss, bind, Except.bind] at h
          | ok tail =>
              simp only [hs, hss, bind, Except.bind, pure, Except.pure, Except.ok.injEq] at h
              subst h
              have hpos := length_pos_of_encode hs
              have hread := readSegment_encode tail hs
              rw [List.length_append] at hfuel
              cases fuel with
              | zero => omega
              | succ fuel =>
                  have hrest := ih hss (show tail.length ≤ fuel by omega)
                  cases head with
                  | nil => cases hpos
                  | cons first more =>
                      rw [List.cons_append] at hread ⊢
                      simp only [readSegments, hread, hrest, bind, Option.bind, pure,
                        List.map_cons]

/-- A path that encodes is its segments, padded to words. -/
theorem segments_of_encode {p : EPath} {bytes : Bytes} (h : p.encode = .ok bytes) :
    EPath.encodeSegments p.segments = .ok bytes ∧ bytes.length % 2 = 0 := by
  unfold EPath.encode at h
  cases hs : EPath.encodeSegments p.segments with
  | error e => simp [hs, bind, Except.bind] at h
  | ok b =>
      simp only [hs, bind, Except.bind, pure, Except.pure] at h
      split_ifs at h with hodd hlong
      cases h
      exact ⟨rfl, by omega⟩

/-- A path is read back behind its word count, whatever follows it. -/
theorem readSizedPath_encode {p : EPath} {bytes : Bytes} (rest : Bytes)
    (h : p.encode = .ok bytes) :
    readSizedPath (UInt8.ofNat (bytes.length / 2)) (bytes ++ rest) =
      some (p.segments.map segmentOnWire, rest) := by
  obtain ⟨hsegments, heven⟩ := segments_of_encode h
  have hbound := (EPath.length_le_of_encode h).2
  have hwords : 2 * (UInt8.ofNat (bytes.length / 2)).toNat = bytes.length := by
    rw [UInt8.toNat_ofNat_of_lt' (by show bytes.length / 2 < 256; omega)]
    omega
  have hpath : readPath bytes = some (p.segments.map segmentOnWire) :=
    readSegments_encodeSegments hsegments le_rfl
  rw [readSizedPath, hwords, if_neg (by rw [List.length_append]; omega), List.take_left,
    List.drop_left, hpath]
  rfl

/-! ## Requests and packets -/

/-- An encoded request is read back. -/
theorem readRequest_encode {mr : MessageRequest} {bytes : Bytes} (h : mr.encode = .ok bytes) :
    readRequest bytes = some ⟨mr.service, mr.path.segments.map segmentOnWire, mr.data⟩ := by
  unfold MessageRequest.encode at h
  cases hp : mr.path.encode with
  | error e => simp [hp, bind, Except.bind] at h
  | ok pathBytes =>
      simp only [hp, pathWords_of_encode hp, bind, Except.bind, pure, Except.pure,
        Except.ok.injEq] at h
      subst h
      simp only [List.cons_append, List.nil_append, readRequest, readSizedPath_encode mr.data hp,
        Option.map_some]

/-- The request of a packet that carries it as its unconnected data is read back. -/
theorem readPayload_encapData {mr : MessageRequest} {mrBytes payload : Bytes}
    (extra : List CpfItem) (hmr : mr.encode = .ok mrBytes)
    (hextra : ∀ i ∈ extra, ItemType.fromCode i.typeId.code = i.typeId)
    (h : encapDataWithCpf
        ⟨[CpfItem.nullAddress, CpfItem.unconnectedData mrBytes] ++ extra⟩ = .ok payload) :
    readPayload payload =
      some ⟨mr.service, mr.path.segments.map segmentOnWire, mr.data⟩ := by
  have hknown : ∀ i ∈ [CpfItem.nullAddress, CpfItem.unconnectedData mrBytes] ++ extra,
      ItemType.fromCode i.typeId.code = i.typeId := by
    intro i hi
    simp only [List.mem_append, List.mem_cons, List.not_mem_nil, or_false] at hi
    obtain (rfl | rfl) | hi := hi
    · rfl
    · rfl
    · exact hextra i hi
  unfold encapDataWithCpf at h
  cases hcpf : Cpf.encode ⟨[CpfItem.nullAddress, CpfItem.unconnectedData mrBytes] ++ extra⟩ with
  | error e =>
      rw [hcpf] at h
      cases h
  | ok bytes =>
      rw [hcpf] at h
      cases h
      have hdrop : (putU32 0 ++ putU16 0 ++ bytes).drop 6 = bytes := rfl
      rw [readPayload, hdrop, cpf_decode_encode hknown hcpf]
      show readRequest mrBytes = _
      exact readRequest_encode hmr

end EnipAdapter.Analysis
