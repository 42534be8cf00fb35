import EnipAdapter.Analysis.SignalGate
import EnipAdapter.Interface.PauseContract

/-!
# The flow of samples

Where the samples of one signal go: an engine takes them in through its gate, holds them in an
open window and hands them to the bus. Whatever a pass over the engine does, the samples it
gives out and keeps are, in order, among those it held and those it took in.
-/

set_option autoImplicit false

namespace EnipAdapter.Analysis

open EnipAdapter.Foundation EnipAdapter.Model EnipAdapter.Interface

/-! ## The samples of one signal through the engine -/

/-- What an engine held of a signal and took in covers what it gave out and still holds. An
engine without a window holds nothing. -/
def Flow (batchMs : ℕ) (held gated published left : List Sample) : Prop :=
  (batchMs = 0 → held = []) →
    (batchMs = 0 → left = []) ∧ (published ++ left).Sublist (held ++ gated)

/-- Where nothing happens, samples stay where they are. -/
theorem Flow.refl (batchMs : ℕ) (held : List Sample) : Flow batchMs held [] [] held := by
  intro hzero
  exact ⟨hzero, by simp⟩

/-- Nothing need be left. -/
theorem Flow.dropped {batchMs : ℕ} {held gated published left : List Sample}
    (h : Flow batchMs held gated published left) : Flow batchMs held gated published [] := by
  intro hzero
  obtain ⟨-, hsub⟩ := h hzero
  refine ⟨fun _ => rfl, ?_⟩
  rw [List.append_nil]
  exact (List.sublist_append_left published left).trans hsub

/-- A flow that gates nothing in may gate more. -/
theorem Flow.widen {batchMs : ℕ} {held published left : List Sample}
    (h : Flow batchMs held [] published left) (gated : List Sample) :
    Flow batchMs held gated published left := by
  intro hzero
  obtain ⟨hleft, hsub⟩ := h hzero
  rw [List.append_nil] at hsub
  exact ⟨hleft, hsub.trans (List.sublist_append_left _ _)⟩

/-- Flows compose. -/
theorem Flow.trans {batchMs : ℕ} {held mid left g₁ g₂ p₁ p₂ : List Sample}
    (h₁ : Flow batchMs held g₁ p₁ mid) (h₂ : Flow batchMs mid g₂ p₂ left) :
    Flow batchMs held (g₁ ++ g₂) (p₁ ++ p₂) left := by
  intro hzero
  obtain ⟨hmid, hsub₁⟩ := h₁ hzero
  obtain ⟨hleft, hsub₂⟩ := h₂ hmid
  refine ⟨hleft, ?_⟩
  have hlate : (p₁ ++ (p₂ ++ left)).Sublist (p₁ ++ (mid ++ g₂)) := hsub₂.append_left p₁
  have hearly : ((p₁ ++ mid) ++ g₂).Sublist ((held ++ g₁) ++ g₂) := hsub₁.append_right g₂
  rw [List.append_assoc] at hearly
  simpa only [List.append_assoc] using hlate.trans hearly

/-- A call gives out or keeps what it held and lets in. -/
theorem flow_run (c : EngineCall) (batchMs : ℕ) (e : Engine) (id : String) :
    Flow batchMs (e.signal id).batcher.buffer (gatedIn batchMs c id e)
      (publishedFor id (c.run batchMs e).2).flatten
      ((c.run batchMs e).1.signal id).batcher.buffer := by
  have hgated : gatedIn batchMs c id e = gatedBy c batchMs (itemsOf c id) (e.signal id) := rfl
  rw [hgated, publishedFor_run, signal_run]
  intro hzero
  rcases Nat.eq_zero_or_pos batchMs with rfl | hpos
  · obtain ⟨hbatcher, hout⟩ := call_unbatched c (itemsOf c id) (e.signal id)
    rw [hbatcher, hout, hzero rfl]
    exact ⟨fun _ => rfl, by simp⟩
  · obtain ⟨hbuffer, hout⟩ := call_batched c hpos (itemsOf c id) (e.signal id)
    rw [hbuffer, hout]
    refine ⟨fun h => by omega, by simp⟩

/-- A flush gives out what it takes from a window. -/
theorem flow_takeDue (batchMs : ℕ) (e : Engine) (now : Instant) (id : String) :
    Flow batchMs (e.signal id).batcher.buffer [] (publishedFor id (e.takeDue batchMs now).2).flatten
      ((e.takeDue batchMs now).1.signal id).batcher.buffer := by
  rw [publishedFor_takeDue, signal_takeDue]
  unfold Batcher.takeDue
  intro hzero
  split
  · split
    · exact ⟨fun _ => rfl, by simp⟩
    · exact ⟨hzero, by simp⟩
  · exact ⟨hzero, by simp⟩

/-! ## Publishing -/

/-- Settling moves no buffer. -/
theorem publishAll_batcher (configured : String → Bool) (bus : ℕ → Bool) (i : ℕ) (e : Engine)
    (out : List Publish) (id : String) :
    ((publishAll configured bus i e out).1.signal id).batcher = (e.signal id).batcher := by
  induction out generalizing i e with
  | nil => rfl
  | cons p rest ih =>
    unfold publishAll
    split
    · exact (ih _ _).trans (signal_settle_batcher _ _ _ _)
    · exact (ih _ _).trans (signal_settle_batcher _ _ _ _)

/-- The published samples of two runs follow one another. -/
theorem publishedSamples_append (id : String) (xs ys : List TaskEffect) :
    publishedSamples id (xs ++ ys) = publishedSamples id xs ++ publishedSamples id ys := by
  simp [publishedSamples]

/-- What reaches the bus is among what there was to publish. -/
theorem publishAll_samples (configured : String → Bool) (bus : ℕ → Bool) (i : ℕ) (e : Engine)
    (out : List Publish) (id : String) :
    (publishedSamples id (publishAll configured bus i e out).2).Sublist
      (publishedFor id out).flatten := by
  induction out generalizing i e with
  | nil => exact List.Sublist.refl _
  | cons p rest ih =>
    have hcons : (publishedFor id (p :: rest)).flatten =
        (if p.signalId = id then p.samples else []) ++ (publishedFor id rest).flatten := by
      unfold publishedFor
      by_cases hid : p.signalId = id
      · simp [hid]
      · simp [hid]
    rw [hcons]
    unfold publishAll
    split
    · have hrest := ih (i + 1) (e.settle p.signalId (bus i))
      exact hrest.append_left (if p.signalId = id then p.samples else [])
    · exact (ih i (e.settle p.signalId false)).trans (List.sublist_append_right _ _)

/-- A pass whose publishes go to the bus keeps the flow of the pass. -/
theorem Flow.published {batchMs : ℕ} {held gated : List Sample} {e : Engine}
    {out : List Publish} {id : String}
    (h : Flow batchMs held gated (publishedFor id out).flatten (e.signal id).batcher.buffer)
    (configured : String → Bool) (bus : ℕ → Bool) :
    Flow batchMs held gated (publishedSamples id (publishAll configured bus 0 e out).2)
      ((publishAll configured bus 0 e out).1.signal id).batcher.buffer := by
  rw [publishAll_batcher]
  intro hzero
  obtain ⟨hleft, hsub⟩ := h hzero
  refine ⟨hleft, List.Sublist.trans ?_ hsub⟩
  exact (publishAll_samples configured bus 0 e out id).append_right _

/-- A flush publishes what is held, or leaves it. -/
theorem flow_flushDue (configured : String → Bool) (bus : ℕ → Bool) (batchMs : ℕ) (e : Engine)
    (now : Instant) (id : String) :
    Flow batchMs (e.signal id).batcher.buffer []
      (publishedSamples id (flushDue configured bus batchMs e now).2)
      ((flushDue configured bus batchMs e now).1.signal id).batcher.buffer :=
  (flow_takeDue batchMs e now id).published configured bus

end EnipAdapter.Analysis
