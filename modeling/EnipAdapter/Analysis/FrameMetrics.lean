import Mathlib.Data.List.Chain
import EnipAdapter.Analysis.SamplePipeline

/-!
# Frames, from the stack to the counter

Every accepted frame is in the counter, on its way, or dropped by a latest-wins stage. While
nothing is dropped, the frames on their way are those not yet counted, in the order they were
accepted, so that the counter sees no gap.
-/

set_option autoImplicit false

namespace EnipAdapter.Analysis

open EnipAdapter.Foundation EnipAdapter.Model EnipAdapter.Interface

variable {readingsOf : Bytes → Bool → List Reading}

/-! ## The counters -/

/-- An update with a sequence counts as one frame. -/
theorem consumeUpdate_framesConsumed (io : IoLinkCounters) (update : SeamUpdate) :
    (consumeUpdate io update).framesConsumed.total =
      io.framesConsumed.total + (updateSequence update).toList.length := by
  cases update <;> rfl

/-- A frame that follows the last one counts no gap. -/
theorem recordFrameConsumed_follows {io : IoLinkCounters} {sequence : UInt16}
    (h : ∀ last ∈ io.lastSeq, sequence = last + 1) (receivedAt : Instant) (runMode : Bool) :
    (io.recordFrameConsumed sequence receivedAt runMode).sequenceGaps.total =
      io.sequenceGaps.total := by
  unfold IoLinkCounters.recordFrameConsumed
  cases hlast : io.lastSeq with
  | none => rfl
  | some last =>
      have hone : (sequence - last).toNat = 1 := by
        have hsub : sequence - last = 1 := by
          rw [h last hlast, UInt16.add_comm, UInt16.add_sub_cancel]
        rw [hsub]
        rfl
      simp only [hone]
      rfl

/-- The frames not yet counted are on their way, in order, and no gap was counted among frames
that came in sequence. -/
structure InFlow (before : IoLinkCounters) (s : PushPipeline) : Prop where
  listening : s.queue.rxClosed = false
  counted : ∃ gone, s.accepted = gone ++ sequencesOnTheWay s ∧
    s.io.framesConsumed.total = before.framesConsumed.total + gone.length ∧
    (∀ last ∈ s.io.lastSeq, gone.getLast? = some last) ∧
    (Consecutive s.accepted → s.io.sequenceGaps.total = before.sequenceGaps.total)

/-- Before the first frame nothing is on the way. -/
theorem inFlow_start (capacity : ℕ) (apis : Duration × Duration) {io : IoLinkCounters}
    (hio : io.lastSeq = none) : InFlow io (.start capacity apis io) where
  listening := rfl
  counted := by
    refine ⟨[], rfl, rfl, ?_, fun _ => rfl⟩
    intro last hlast
    have hnone : io.lastSeq = some last := hlast
    rw [hio] at hnone
    cases hnone

/-- A step that drops no sample passes the frames on in order. -/
theorem inFlow_step {before : IoLinkCounters} {s : PushPipeline} {step : PipelineStep}
    (h : InFlow before s) (hkeep : ¬ DropsSample s step) :
    InFlow before (s.step readingsOf step) := by
  obtain ⟨hopen, gone, hgone, hframes, hlast, hgaps⟩ := h
  obtain ⟨hopen', hflow⟩ := step_keeps readingsOf hopen hkeep
  refine ⟨hopen', ?_⟩
  cases hflow with
  | accepted sequence haccepted hway hio =>
      rw [hio, haccepted, hway]
      refine ⟨gone, ?_, hframes, hlast, ?_⟩
      · rw [hgone, List.append_assoc]
      · intro hchain
        exact hgaps (List.isChain_append.mp hchain).1
  | onward haccepted hway hio =>
      rw [hio, haccepted, hway]
      exact ⟨gone, hgone, hframes, hlast, hgaps⟩
  | counted update haccepted hway hio =>
      rw [hio, haccepted]
      refine ⟨gone ++ (updateSequence update).toList, ?_, ?_, ?_, ?_⟩
      · rw [hgone, hway, List.append_assoc]
      · rw [consumeUpdate_framesConsumed, hframes, List.length_append]
        omega
      · intro last hmem
        cases update with
        | up o2t t2o =>
            show (gone ++ []).getLast? = some last
            rw [List.append_nil]
            exact hlast last hmem
        | data readings sequence runMode receivedAt =>
            have hsequence : some sequence = some last := hmem
            show (gone ++ [sequence]).getLast? = some last
            rw [List.getLast?_concat]
            exact hsequence
        | lost error => cases hmem
      · intro hchain
        cases update with
        | up o2t t2o => exact hgaps hchain
        | lost error => exact hgaps hchain
        | data readings sequence runMode receivedAt =>
            have hfollows : ∀ last ∈ s.io.lastSeq, sequence = last + 1 := by
              intro last hmem
              rw [hgone, hway] at hchain
              exact (List.isChain_append.mp hchain).2.2 last (hlast last hmem) sequence rfl
            exact (recordFrameConsumed_follows hfollows receivedAt runMode).trans (hgaps hchain)

/-! ## Whole schedules -/

variable (readingsOf) in
/-- A step counts or keeps at most the frames it was given. -/
theorem step_account {s : PushPipeline} (step : PipelineStep) (hopen : s.queue.rxClosed = false) :
    (s.step readingsOf step).queue.rxClosed = false ∧
      (s.step readingsOf step).io.framesConsumed.total +
          (sequencesOnTheWay (s.step readingsOf step)).length + s.accepted.length ≤
        s.io.framesConsumed.total + (sequencesOnTheWay s).length +
          (s.step readingsOf step).accepted.length := by
  by_cases hdrop : DropsSample s step
  · obtain ⟨hopen', hio, hcount⟩ := step_drops readingsOf hopen hdrop
    rw [hio]
    exact ⟨hopen', by omega⟩
  · obtain ⟨hopen', hflow⟩ := step_keeps readingsOf hopen hdrop
    refine ⟨hopen', ?_⟩
    cases hflow with
    | accepted sequence haccepted hway hio =>
        rw [haccepted, hway, hio, List.length_append, List.length_append]
        omega
    | onward haccepted hway hio =>
        rw [haccepted, hway, hio]
    | counted update haccepted hway hio =>
        rw [haccepted, hway, hio, consumeUpdate_framesConsumed, List.length_append]
        omega

variable (readingsOf) in
/-- No frame is counted that was not accepted, over any run. -/
theorem run_frameAccount {s : PushPipeline} (steps : List PipelineStep)
    (hopen : s.queue.rxClosed = false) :
    (runPipeline readingsOf s steps).io.framesConsumed.total +
        (sequencesOnTheWay (runPipeline readingsOf s steps)).length + s.accepted.length ≤
      s.io.framesConsumed.total + (sequencesOnTheWay s).length +
        (runPipeline readingsOf s steps).accepted.length := by
  induction steps generalizing s with
  | nil => exact Nat.le_refl _
  | cons step rest ih =>
      obtain ⟨hopen', hstep⟩ := step_account readingsOf step hopen
      have hrest := ih hopen'
      have hrun : runPipeline readingsOf s (step :: rest) =
          runPipeline readingsOf (s.step readingsOf step) rest := rfl
      rw [hrun]
      omega

variable (readingsOf) in
/-- A schedule that drops a sample counts fewer frames than were accepted. -/
theorem run_drops {s : PushPipeline} {steps : List PipelineStep}
    (hopen : s.queue.rxClosed = false) (hdrops : ¬ DropsNothing readingsOf s steps) :
    (runPipeline readingsOf s steps).io.framesConsumed.total +
        (sequencesOnTheWay (runPipeline readingsOf s steps)).length + s.accepted.length <
      s.io.framesConsumed.total + (sequencesOnTheWay s).length +
        (runPipeline readingsOf s steps).accepted.length := by
  induction steps generalizing s with
  | nil => exact absurd trivial hdrops
  | cons step rest ih =>
      have hrun : runPipeline readingsOf s (step :: rest) =
          runPipeline readingsOf (s.step readingsOf step) rest := rfl
      rw [hrun]
      by_cases hdrop : DropsSample s step
      · obtain ⟨hopen', hio, hcount⟩ := step_drops readingsOf hopen hdrop
        have hrest := run_frameAccount readingsOf rest hopen'
        rw [hio] at hrest
        omega
      · obtain ⟨hopen', hstep⟩ := step_account readingsOf step hopen
        have hrest := ih hopen' (fun hguard => hdrops ⟨hdrop, hguard⟩)
        omega

/-- A drained pipeline has nothing on the way. -/
theorem sequencesOnTheWay_of_drained {s : PushPipeline} (h : Drained s) :
    sequencesOnTheWay s = [] := by
  have hheld : heldSequences s.phase = [] := by
    obtain hphase | hphase := h.quiet
    · rw [hphase]
      rfl
    · rw [hphase]
      rfl
  rw [sequencesOnTheWay, h.channel, h.outbox, hheld, h.queue]
  rfl

/-- When the stream is drained, the counters describe what the stack accepted exactly if no step
of the schedule dropped a sample. -/
theorem counts_network_iff_drops_nothing (readingsOf : Bytes → Bool → List Reading)
    (capacity : ℕ) (apis : Duration × Duration) (io : IoLinkCounters)
    (steps : List PipelineStep) (hfresh : io.lastSeq = none)
    (hchain : Consecutive (runPipeline readingsOf (.start capacity apis io) steps).accepted)
    (hdrained : Drained (runPipeline readingsOf (.start capacity apis io) steps)) :
    CountsTheNetwork io (runPipeline readingsOf (.start capacity apis io) steps) ↔
      DropsNothing readingsOf (.start capacity apis io) steps := by
  have hway := sequencesOnTheWay_of_drained hdrained
  constructor
  · intro hcounts
    by_contra hdrops
    have hopen : (PushPipeline.start capacity apis io).queue.rxClosed = false := rfl
    have hlt := run_drops readingsOf hopen hdrops
    have hstart : sequencesOnTheWay (.start capacity apis io) = [] := rfl
    have hnone : (PushPipeline.start capacity apis io).accepted = [] := rfl
    have hio : (PushPipeline.start capacity apis io).io = io := rfl
    rw [hway, hstart, hnone, hio, hcounts.1] at hlt
    simp only [List.length_nil] at hlt
    omega
  · intro hguard
    have hflow : InFlow io (runPipeline readingsOf (.start capacity apis io) steps) :=
      runSteps_invariant (fun _ _ h hkeep => inFlow_step h hkeep)
        (inFlow_start capacity apis hfresh) hguard
    obtain ⟨-, gone, hgone, hframes, -, hgaps⟩ := hflow
    rw [hway, List.append_nil] at hgone
    refine ⟨?_, hgaps hchain⟩
    rw [hframes, hgone]

/-- A frame of the given sequence number, arriving at the given instant. -/
def sampleFrame (sequence : UInt16) (receivedAt : Instant) : IoUpdate where
  data := []
  runMode := true
  sequence := sequence
  encapSequence := 0
  receivedAt := receivedAt

/-- The schedule that takes one frame through before the next one comes. -/
def oneAtATime : List PipelineStep :=
  [.accept (sampleFrame 1 10), .receive, .send, .consume, .receive, .tryReceive, .send, .consume,
    .accept (sampleFrame 2 20), .receive, .tryReceive, .send, .consume]

/-- Frames that pass one at a time are all counted. -/
theorem counts_network_oneAtATime :
    CountsTheNetwork {} (runPipeline (fun _ _ => []) (.start 256 (10, 10) {}) oneAtATime) := by
  refine (counts_network_iff_drops_nothing (fun _ _ => []) 256 (10, 10) {} oneAtATime rfl
    ?_ ?_).mpr ?_
  · show List.IsChain _ [1, 2]
    decide
  · exact ⟨rfl, .inl rfl, rfl, rfl⟩
  · decide

/-- The schedule in which the second and the third frame come while the translator is away. -/
def twoAtOnce : List PipelineStep :=
  [.accept (sampleFrame 1 10), .receive, .send, .consume, .receive, .tryReceive, .send, .consume,
    .accept (sampleFrame 2 20), .accept (sampleFrame 3 30), .receive, .tryReceive, .tryReceive,
    .send, .consume]

/-- Three frames in sequence, of which two are counted, and a gap that was not on the network. -/
theorem burst_counted_as_gap :
    (runPipeline (fun _ _ => []) (.start 256 (10, 10) {}) twoAtOnce).accepted = [1, 2, 3] ∧
      Consecutive [1, 2, 3] ∧
      Drained (runPipeline (fun _ _ => []) (.start 256 (10, 10) {}) twoAtOnce) ∧
      ¬ CountsTheNetwork {} (runPipeline (fun _ _ => []) (.start 256 (10, 10) {}) twoAtOnce) := by
  refine ⟨rfl, ?_, ⟨rfl, .inl rfl, rfl, rfl⟩, ?_⟩
  · show List.IsChain _ [1, 2, 3]
    decide
  · intro h
    have hgaps : 1 = 0 := h.2
    exact absurd hgaps (by decide)

end EnipAdapter.Analysis
