import EnipAdapter.Foundation.Framing
import EnipAdapter.Model.Encap

/-!
# The frames a byte stream carries

The abstract side of the framing codec: a byte stream is the list of the frames it carries,
NOP filler left out. The codec works on a buffer that grows by arbitrary chunks, so the
point of this module is that chunking does not matter: each call of `EncapCodec.decode`
takes exactly the next frame of the stream off its head.
-/

set_option autoImplicit false

namespace EnipAdapter.Interface

open EnipAdapter.Foundation EnipAdapter.Model
open EnipAdapter.Model.EncapCodec

/-- A frame found at the head of the buffer takes at least a header and lies inside it. -/
theorem peek_frame_total {src : Bytes} {c : Command} {f : EncapFrame} {total : ℕ}
    (h : peek src = .frame c f total) : headerLen ≤ total ∧ total ≤ src.length := by
  unfold peek at h
  split_ifs at h with hshort
  simp only at h
  split at h
  · cases h
  · split_ifs at h with hlong hpart
    split at h
    · cases h
    · cases h
      constructor <;> omega

/-- What the codec decides on a buffer stands when more bytes arrive behind it. -/
theorem peek_append (src more : Bytes) (h : peek src ≠ .incomplete) :
    peek (src ++ more) = peek src := by
  by_cases hshort : src.length < headerLen
  · exact absurd (by simp [peek, hshort]) h
  · have hhead : (src ++ more).take headerLen = src.take headerLen :=
      List.take_append_of_le_length (Nat.le_of_not_lt hshort)
    have hlen : ¬ (src ++ more).length < headerLen := by
      rw [List.length_append]
      omega
    unfold peek at h ⊢
    rw [if_neg hshort] at h ⊢
    rw [if_neg hlen, hhead]
    simp only at h ⊢
    split
    · rfl
    · rename_i command length heq
      rw [heq] at h
      simp only at h
      by_cases hlong : length > maxDataLen
      · rw [if_pos hlong, if_pos hlong]
      · rw [if_neg hlong] at h ⊢
        rw [if_neg hlong]
        by_cases hpart : src.length < headerLen + length
        · exact absurd (if_pos hpart) h
        · have hwhole : ¬ (src ++ more).length < headerLen + length := by
            rw [List.length_append]
            omega
          rw [if_neg hpart, if_neg hwhole,
            List.take_append_of_le_length (Nat.le_of_not_lt hpart)]

/-- The codec's cut: NOP frames are filler. -/
def frameScan (src : Bytes) : Option (Option EncapFrame × ℕ) :=
  match peek src with
  | .frame command frame total =>
      some (if command = .nop then none else some frame, total)
  | .incomplete | .broken _ _ => none

/-- A cut of the codec is a frame its pass over the buffer found. -/
theorem frameScan_eq_some {src : Bytes} {x : Option EncapFrame} {n : ℕ}
    (h : frameScan src = some (x, n)) :
    ∃ c f, peek src = .frame c f n ∧ x = if c = .nop then none else some f := by
  unfold frameScan at h
  cases hp : peek src with
  | incomplete => simp [hp] at h
  | broken e consumed => simp [hp] at h
  | frame c f total =>
      simp only [hp, Option.some.injEq, Prod.mk.injEq] at h
      obtain ⟨hx, hn⟩ := h
      exact ⟨c, f, by rw [hn], hx.symm⟩

/-- The encapsulation framing of a byte stream. -/
def encapFraming : Framing UInt8 EncapFrame where
  scan := frameScan
  used_pos := by
    intro src x n h
    obtain ⟨c, f, hp, -⟩ := frameScan_eq_some h
    have htotal := (peek_frame_total hp).1
    unfold headerLen at htotal
    omega
  used_le := by
    intro src x n h
    obtain ⟨c, f, hp, -⟩ := frameScan_eq_some h
    exact (peek_frame_total hp).2
  stable := by
    intro src x n more h
    obtain ⟨c, f, hp, hx⟩ := frameScan_eq_some h
    have hstay := peek_append src more (by rw [hp]; intro hne; cases hne)
    rw [frameScan, hstay, hp]
    simp only [hx]

/-- The frames of a byte stream, NOP filler left out, in the order the bytes carry them. -/
def framesOf (bytes : Bytes) : List EncapFrame := encapFraming.frames bytes

/-- A frame at the head of the buffer is the first of every stream the buffer starts. -/
theorem framesOf_append_of_frame {src : Bytes} {c : Command} {f : EncapFrame} {total : ℕ}
    (more : Bytes) (h : peek src = .frame c f total) :
    framesOf (src ++ more) =
      (if c = .nop then [] else [f]) ++ framesOf (src.drop total ++ more) := by
  have hscan : encapFraming.scan src = some (if c = .nop then none else some f, total) := by
    show frameScan src = _
    rw [frameScan, h]
  unfold framesOf
  rw [encapFraming.frames_append more hscan]
  split_ifs <;> rfl

/-! ## The codec takes the next frame off the stream -/

/-- A surfaced frame is the next frame of the stream, whatever arrives behind the buffer,
and it took at least a header. -/
theorem decodeLoop_some {fuel : ℕ} {src rest : Bytes} {f : EncapFrame} (more : Bytes)
    (h : decodeLoop fuel src = (.ok (some f), rest)) :
    framesOf (src ++ more) = f :: framesOf (rest ++ more) ∧ rest.length < src.length := by
  induction fuel generalizing src with
  | zero => simp [decodeLoop] at h
  | succ fuel ih =>
      rw [decodeLoop] at h
      cases hp : peek src with
      | incomplete => simp [hp] at h
      | broken e consumed => simp [hp] at h
      | frame c g total =>
          have hshrink : (src.drop total).length < src.length := by
            have htotal := peek_frame_total hp
            unfold headerLen at htotal
            rw [List.length_drop]
            omega
          rw [framesOf_append_of_frame more hp]
          simp only [hp] at h
          by_cases hnop : c = .nop
          · rw [if_pos hnop] at h ⊢
            obtain ⟨hframes, hlt⟩ := ih h
            exact ⟨hframes, hlt.trans hshrink⟩
          · rw [if_neg hnop] at h ⊢
            simp only [Prod.mk.injEq, Except.ok.injEq, Option.some.injEq] at h
            obtain ⟨rfl, rfl⟩ := h
            exact ⟨rfl, hshrink⟩

/-- When the codec wants more bytes, it has dropped filler only. -/
theorem decodeLoop_none {fuel : ℕ} {src rest : Bytes} (more : Bytes)
    (h : decodeLoop fuel src = (.ok none, rest)) :
    framesOf (src ++ more) = framesOf (rest ++ more) ∧ rest.length ≤ src.length := by
  induction fuel generalizing src with
  | zero =>
      simp only [decodeLoop, Prod.mk.injEq, true_and] at h
      subst h
      exact ⟨rfl, le_rfl⟩
  | succ fuel ih =>
      rw [decodeLoop] at h
      cases hp : peek src with
      | incomplete =>
          simp only [hp, Prod.mk.injEq, true_and] at h
          subst h
          exact ⟨rfl, le_rfl⟩
      | broken e consumed => simp [hp] at h
      | frame c g total =>
          simp only [hp] at h
          by_cases hnop : c = .nop
          · rw [if_pos hnop] at h
            obtain ⟨hframes, hle⟩ := ih h
            rw [framesOf_append_of_frame more hp, if_pos hnop, List.nil_append]
            exact ⟨hframes, hle.trans (by simp)⟩
          · rw [if_neg hnop] at h
            simp at h

/-- The codec's loop never runs out of passes: a buffer it wants more bytes for holds no
whole frame. -/
theorem decodeLoop_none_incomplete {fuel : ℕ} {src rest : Bytes} (hfuel : src.length ≤ fuel)
    (h : decodeLoop fuel src = (.ok none, rest)) : peek rest = .incomplete := by
  induction fuel generalizing src with
  | zero =>
      simp only [decodeLoop, Prod.mk.injEq, true_and] at h
      subst h
      have hlen : src.length < headerLen := by
        unfold headerLen
        omega
      simp [peek, hlen]
  | succ fuel ih =>
      rw [decodeLoop] at h
      cases hp : peek src with
      | incomplete =>
          simp only [hp, Prod.mk.injEq, true_and] at h
          rwa [← h]
      | broken e consumed => simp [hp] at h
      | frame c g total =>
          simp only [hp] at h
          by_cases hnop : c = .nop
          · rw [if_pos hnop] at h
            refine ih ?_ h
            have htotal := peek_frame_total hp
            unfold headerLen at htotal
            rw [List.length_drop]
            omega
          · rw [if_neg hnop] at h
            simp at h

/-!
## Reading a byte stream in chunks

How a reader of the session uses the framing codec: bytes are appended to the buffer as they
arrive, and after each append `EncapCodec.decode` is called until it wants more bytes or fails.

The loops are given as derivations, one rule for each way a turn can go, so that a derivation
exists exactly where the loop ends. `Decodes` is the loop inside one call, without the bound on
its passes that the executable model has; `Drains` is the loop of calls after one append, and
`Feeds` the whole life of a buffer.
-/

/-- What a call of the codec answers: a frame, a wish for more bytes, or an error. -/
abbrev DecodeOutcome := Except WireError (Option EncapFrame)

/-- The loop inside one call: filler is passed over until the head of the buffer decides. -/
inductive Decodes : Bytes → DecodeOutcome → Bytes → Prop
  | incomplete {src : Bytes} (h : peek src = .incomplete) : Decodes src (.ok none) src
  | broken {src : Bytes} {e : WireError} {consumed : ℕ} (h : peek src = .broken e consumed) :
      Decodes src (.error e) (src.drop consumed)
  | frame {src : Bytes} {c : Command} {f : EncapFrame} {total : ℕ}
      (h : peek src = .frame c f total) (hc : c ≠ .nop) :
      Decodes src (.ok (some f)) (src.drop total)
  | filler {src rest : Bytes} {f : EncapFrame} {total : ℕ} {outcome : DecodeOutcome}
      (h : peek src = .frame .nop f total) (later : Decodes (src.drop total) outcome rest) :
      Decodes src outcome rest

/-- The calls after one append: the frames they yield, the error they end with if they do, and
the buffer they leave. -/
inductive Drains : Bytes → List EncapFrame → Option WireError → Bytes → Prop
  | wanting {src rest : Bytes} (h : decode src = (.ok none, rest)) : Drains src [] none rest
  | failing {src rest : Bytes} {e : WireError} (h : decode src = (.error e, rest)) :
      Drains src [] (some e) rest
  | frame {src rest rest' : Bytes} {f : EncapFrame} {fs : List EncapFrame}
      {err : Option WireError} (h : decode src = (.ok (some f), rest))
      (later : Drains rest fs err rest') : Drains src (f :: fs) err rest'

/-- Chunks appended one by one to a buffer, the codec called after each: all the frames, the
first error, and the bytes left in the end. -/
inductive Feeds : Bytes → List Bytes → List EncapFrame → Option WireError → Bytes → Prop
  | done (buffer : Bytes) : Feeds buffer [] [] none buffer
  | chunk {buffer chunk rest rest' : Bytes} {chunks : List Bytes} {fs fs' : List EncapFrame}
      {err err' : Option WireError} (drained : Drains (buffer ++ chunk) fs err rest)
      (later : Feeds rest chunks fs' err' rest') :
      Feeds buffer (chunk :: chunks) (fs ++ fs') (err.or err') rest'

end EnipAdapter.Interface
