import EnipAdapter.Analysis.PathRoundTrip
import EnipAdapter.Model.Client

/-!
# Paths are told apart by their bytes

The segments of a path share one byte string with no length for each of them. A reader that gets
every segment back shows that the byte string determines them, except for a port segment without
a link address, whose padding is a link address of 0. A route is put in front of a path segment
by segment, so its bytes stand in front of those of the path.
-/

set_option autoImplicit false

namespace EnipAdapter.Analysis

open EnipAdapter.Foundation EnipAdapter.Interface EnipAdapter.Model

/-! ## Even lengths -/

/-- A logical segment takes whole words. -/
theorem encodeLogical_even (code8 code16 : UInt8) (v : UInt16) :
    (Segment.encodeLogical code8 code16 v).length % 2 = 0 := by
  unfold Segment.encodeLogical
  split
  · simp
  · simp

/-- So does one with a four-byte form. -/
theorem encodeLogicalWide_even (code8 code16 code32 : UInt8) (v : UInt32) :
    (Segment.encodeLogicalWide code8 code16 code32 v).length % 2 = 0 := by
  unfold Segment.encodeLogicalWide
  split
  · simp
  · split
    · simp
    · simp

/-- A padded body has even length. -/
theorem padded_even (body : Bytes) :
    (if body.length % 2 = 0 then body else body ++ [0]).length % 2 = 0 := by
  by_cases heven : body.length % 2 = 0
  · rw [if_pos heven]
    exact heven
  · rw [if_neg heven, List.length_append, List.length_singleton]
    omega

/-- Every segment pads itself to an even number of bytes. -/
theorem segment_encode_even {s : Segment} {bytes : Bytes} (h : s.encode = .ok bytes) :
    bytes.length % 2 = 0 := by
  cases s with
  | symbol name =>
      simp only [Segment.encode] at h
      split at h
      · cases h
      · split at h
        · cases h
        · cases h
          simp only [List.length_append, List.length_cons, List.length_nil]
          split
          · rw [List.length_nil]
            omega
          · rw [List.length_singleton]
            omega
  | port segment =>
      simp only [Segment.encode, PortSegment.encode] at h
      split at h
      · cases h
      · split at h
        · cases h
        · cases h
          exact padded_even _
  | class_ id =>
      cases h
      exact encodeLogical_even _ _ id
  | «attribute» id =>
      cases h
      exact encodeLogical_even _ _ id
  | connectionPoint id =>
      cases h
      exact encodeLogical_even _ _ id
  | instance_ id =>
      cases h
      exact encodeLogicalWide_even _ _ _ id
  | element index =>
      cases h
      exact encodeLogicalWide_even _ _ _ index

/-- Segments take whole words. -/
theorem encodeSegments_even {ss : List Segment} {bytes : Bytes}
    (h : EPath.encodeSegments ss = .ok bytes) : bytes.length % 2 = 0 := by
  induction ss generalizing bytes with
  | nil =>
      cases h
      rfl
  | cons s ss ih =>
      rw [EPath.encodeSegments] at h
      obtain ⟨head, hhead, h⟩ := bind_ok.mp h
      obtain ⟨rest, hrest, h⟩ := bind_ok.mp h
      cases h
      have heven := segment_encode_even hhead
      have hrestEven := ih hrest
      rw [List.length_append]
      omega

/-- A path whose segments encode does so within the limit. -/
theorem encode_eq_of_segments {p : EPath} {bytes : Bytes}
    (h : EPath.encodeSegments p.segments = .ok bytes) :
    p.encode = if bytes.length ≤ 510 then .ok bytes else .error (.tooLarge maxPathWords) := by
  have heven := encodeSegments_even h
  unfold EPath.encode
  simp only [h, bind, Except.bind, heven, ne_eq, not_true_eq_false, if_false, pure, Except.pure]
  by_cases hlen : bytes.length ≤ 510
  · rw [if_pos hlen, if_neg (by unfold maxPathWords; omega)]
  · rw [if_neg hlen, if_pos (by unfold maxPathWords; omega)]

/-! ## Routes -/

/-- Segments one after the other encode to their bytes one after the other. -/
theorem encodeSegments_append_ok {ss ts : List Segment} {bytes : Bytes} :
    EPath.encodeSegments (ss ++ ts) = .ok bytes ↔
      ∃ a b, EPath.encodeSegments ss = .ok a ∧ EPath.encodeSegments ts = .ok b ∧
        bytes = a ++ b := by
  induction ss generalizing bytes with
  | nil =>
      constructor
      · intro h
        exact ⟨[], bytes, rfl, h, rfl⟩
      · rintro ⟨a, b, ha, hb, rfl⟩
        cases ha
        exact hb
  | cons s ss ih =>
      rw [List.cons_append, EPath.encodeSegments, EPath.encodeSegments]
      constructor
      · intro h
        obtain ⟨head, hhead, h⟩ := bind_ok.mp h
        obtain ⟨rest, hrest, h⟩ := bind_ok.mp h
        cases h
        obtain ⟨a, b, ha, hb, rfl⟩ := ih.mp hrest
        refine ⟨head ++ a, b, ?_, hb, (List.append_assoc head a b).symm⟩
        exact bind_ok.mpr ⟨head, hhead, bind_ok.mpr ⟨a, ha, rfl⟩⟩
      · rintro ⟨a, b, ha, hb, rfl⟩
        obtain ⟨head, hhead, ha⟩ := bind_ok.mp ha
        obtain ⟨rest, hrest, ha⟩ := bind_ok.mp ha
        cases ha
        have htail := ih.mpr ⟨rest, b, hrest, hb, rfl⟩
        refine bind_ok.mpr ⟨head, hhead, bind_ok.mpr ⟨rest ++ b, htail, ?_⟩⟩
        exact congrArg Except.ok (List.append_assoc head rest b).symm

/-- The segments of a prefixed path are those of the route, then those of the path. -/
theorem prefixed_segments (route : RoutePath) (p : EPath) :
    (route.prefixed p).segments = route.toEpath.segments ++ p.segments := by
  unfold RoutePath.prefixed RoutePath.toEpath
  by_cases hempty : route.segments = []
  · rw [if_pos hempty, hempty]
    rfl
  · rw [if_neg hempty]

/-- Two paths with link addresses that encode alike have the same segments; an encoding is even,
at most 510 bytes, and counted in words; and a route in front of a path that both encode gives
the bytes of the route and those of the path, unless they are more than 510 together. -/
theorem epath_encoding_unambiguous :
    (∀ (p q : EPath) bytes, LinksNamed p.segments → LinksNamed q.segments → p.encode = .ok bytes →
      q.encode = .ok bytes → p.segments = q.segments) ∧
    (∀ (p : EPath) bytes, p.encode = .ok bytes → bytes.length % 2 = 0 ∧ bytes.length ≤ 510 ∧
      ∃ words, p.wordLen = .ok words ∧ words.toNat * 2 = bytes.length) ∧
    (∀ (route : RoutePath) (p : EPath) r b, route.toEpath.encode = .ok r → p.encode = .ok b →
      (route.prefixed p).encode =
        if (r ++ b).length ≤ 510 then .ok (r ++ b) else .error (.tooLarge maxPathWords)) ∧
    ∀ (route : RoutePath) (p : EPath) bytes, (route.prefixed p).encode = .ok bytes →
      ∃ r b, route.toEpath.encode = .ok r ∧ p.encode = .ok b ∧ bytes = r ++ b := by
  refine ⟨?_, ?_, ?_, ?_⟩
  · intro p q bytes hp hq hpe hqe
    have hpread := readSegments_encodeSegments (segments_of_encode hpe).1 le_rfl
    have hqread := readSegments_encodeSegments (segments_of_encode hqe).1 le_rfl
    rw [hpread, (map_segmentOnWire_eq_self_iff _).mpr hp,
      (map_segmentOnWire_eq_self_iff _).mpr hq] at hqread
    exact Option.some.inj hqread
  · intro p bytes h
    have heven := (segments_of_encode h).2
    have hlen := (EPath.length_le_of_encode h).2
    refine ⟨heven, hlen, UInt8.ofNat (bytes.length / 2), ?_, ?_⟩
    · rw [EPath.wordLen]
      exact bind_ok.mpr ⟨bytes, h, pathWords_of_encode h⟩
    · rw [UInt8.toNat_ofNat_of_lt' (by show bytes.length / 2 < 256; omega)]
      omega
  · intro route p r b hr hb
    apply encode_eq_of_segments
    rw [prefixed_segments]
    exact encodeSegments_append_ok.mpr
      ⟨r, b, (segments_of_encode hr).1, (segments_of_encode hb).1, rfl⟩
  · intro route p bytes h
    obtain ⟨hsegments, -⟩ := segments_of_encode h
    have hlen := (EPath.length_le_of_encode h).2
    rw [prefixed_segments] at hsegments
    obtain ⟨r, b, hr, hb, rfl⟩ := encodeSegments_append_ok.mp hsegments
    rw [List.length_append] at hlen
    refine ⟨r, b, ?_, ?_, rfl⟩
    · rw [encode_eq_of_segments hr, if_pos (by omega)]
    · rw [encode_eq_of_segments hb, if_pos (by omega)]

/-- Two hops whose link addresses take up what a path can hold, but for two bytes. -/
def longRoute : RoutePath := ⟨[⟨1, List.replicate 255 0⟩, ⟨1, List.replicate 248 0⟩]⟩

/-- Two hops with link addresses of 255 and 248 bytes. -/
theorem encodeSegments_longLinks {a b : Bytes} (ha : a.length = 255) (hb : b.length = 248) :
    EPath.encodeSegments (RoutePath.toEpath ⟨[⟨1, a⟩, ⟨1, b⟩]⟩).segments =
      .ok ([0x11, 255] ++ a ++ [0] ++ ([0x11, 248] ++ b ++ [])) := by
  have hbit : (1 : UInt8) ||| 0x10 = 0x11 := by decide
  have hfirst : PortSegment.encode ⟨1, a⟩ = .ok ([0x11, 255] ++ a ++ [0]) := by
    simp [PortSegment.encode, ha, hbit]
  have hsecond : PortSegment.encode ⟨1, b⟩ = .ok ([0x11, 248] ++ b) := by
    simp [PortSegment.encode, hb, hbit]
  exact bind_ok.mpr ⟨_, hfirst, bind_ok.mpr
    ⟨_, bind_ok.mpr ⟨_, hsecond, bind_ok.mpr ⟨[], rfl, rfl⟩⟩, rfl⟩⟩

/-- The route of 508 bytes and the Message Router path encode, but are too long together. -/
theorem long_route_is_refused :
    ∃ r b, longRoute.toEpath.encode = .ok r ∧ messageRouterPath.encode = .ok b ∧
      (longRoute.prefixed messageRouterPath).encode = .error (.tooLarge maxPathWords) := by
  have ha : (List.replicate 255 (0 : UInt8)).length = 255 := List.length_replicate
  have hb : (List.replicate 248 (0 : UInt8)).length = 248 := List.length_replicate
  have hroute := encodeSegments_longLinks ha hb
  have hpath : EPath.encodeSegments messageRouterPath.segments = .ok [0x20, 2, 0x24, 1] := rfl
  have hboth := encodeSegments_append_ok.mpr ⟨_, _, hroute, hpath, rfl⟩
  have hrouteLen : ([0x11, 255] ++ List.replicate 255 (0 : UInt8) ++ [0] ++
      ([0x11, 248] ++ List.replicate 248 (0 : UInt8) ++ [])).length = 508 := by
    simp only [List.length_append, ha, hb, List.length_cons, List.length_nil]
  refine ⟨_, _, (encode_eq_of_segments hroute).trans (if_pos (by omega)),
    (encode_eq_of_segments hpath).trans (if_pos (by decide)), ?_⟩
  rw [encode_eq_of_segments (p := longRoute.prefixed messageRouterPath) hboth, if_neg]
  rw [List.length_append, hrouteLen]
  decide

end EnipAdapter.Analysis
