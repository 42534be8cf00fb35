import EnipAdapter.Interface.TranslatorContract

/-!
# The translator delivers

The three places where the translator reads the stream split it in every possible way. What holds
at each of them, about the events taken so far and the updates sent so far, is one invariant; the
step lemmas follow the stream one event at a time.
-/

set_option autoImplicit false

namespace EnipAdapter.Analysis

open EnipAdapter.Model EnipAdapter.Interface

/-! ## Streams, one event longer -/

/-- One sample more is one event more. -/
theorem streamEvents_snoc (up : Option (Duration × Duration)) (samples : List IoUpdate)
    (u : IoUpdate) :
    streamEvents up (samples ++ [u]) none = streamEvents up samples none ++ [.data u] := by
  simp [streamEvents]

/-- A loss is the last event. -/
theorem streamEvents_lost (up : Option (Duration × Duration)) (samples : List IoUpdate)
    (reason : LostReason) :
    streamEvents up samples (some reason) = streamEvents up samples none ++ [.lost reason] := by
  simp [streamEvents]

/-- What the last event of a stream can be, and the stream before it. -/
theorem events_snoc {s : StreamShape} {events : List IoEvent} {ev : IoEvent}
    (h : events ++ [ev] = s.events) :
    (∃ o2t t2o, ev = .up o2t t2o ∧ events = [] ∧ s.up = some (o2t, t2o) ∧ s.samples = [] ∧
      s.lost = none) ∨
    (∃ u init, ev = .data u ∧ s.samples = init ++ [u] ∧ s.up ≠ none ∧ s.lost = none ∧
      events = streamEvents s.up init none) ∨
    (∃ reason, ev = .lost reason ∧ s.lost = some reason ∧
      events = streamEvents s.up s.samples none) := by
  obtain ⟨up, samples, lost, started⟩ := s
  simp only [StreamShape.events] at h
  cases lost with
  | some reason =>
      rw [streamEvents_lost] at h
      obtain ⟨hevents, hev⟩ := List.append_inj' h rfl
      exact .inr (.inr ⟨reason, List.singleton_inj.mp hev, rfl, hevents⟩)
  | none =>
      rcases List.eq_nil_or_concat' samples with rfl | ⟨init, u, rfl⟩
      · cases up with
        | none => simp [streamEvents] at h
        | some apis =>
            have hone : events ++ [ev] = [] ++ [IoEvent.up apis.1 apis.2] := h
            obtain ⟨hevents, hev⟩ := List.append_inj' hone rfl
            exact .inl ⟨apis.1, apis.2, List.singleton_inj.mp hev, hevents, rfl, rfl, rfl⟩
      · rw [streamEvents_snoc] at h
        obtain ⟨hevents, hev⟩ := List.append_inj' h rfl
        refine .inr (.inl ⟨u, init, List.singleton_inj.mp hev, rfl, ?_, rfl, hevents⟩)
        intro hup
        exact absurd (started hup) (by simp)

/-! ## What holds where the translator stands -/

section Invariant

variable (readingsOf : Bytes → Bool → List Reading)

/-- The events taken off the stream are accounted for: sent, or held where the translator
stands. -/
def PhaseHolds (s : StreamShape) (sent : List SeamUpdate) : TranslatorPhase → Prop
  | .listening => s.lost = none ∧ Delivered readingsOf s sent
  | .ended => Delivered readingsOf s sent
  | .collapsing latest =>
    s.lost = none ∧ ∃ kept : List IoUpdate, (kept ++ [latest]).Sublist s.samples ∧
      s.samples.getLast? = some latest ∧
      sent = (streamEvents s.up kept none).map (seamUpdate readingsOf)
  | .draining drained =>
    s.lost = none ∧ ∃ before : StreamShape, before.lost = none ∧
      before.events ++ drained = s.events ∧ Delivered readingsOf before sent

/-- The invariant of a run, for whatever stream the events taken so far are. -/
def Accounted (r : TranslatorRun) : Prop :=
  ∀ s : StreamShape, r.received = s.events → PhaseHolds readingsOf s r.sent r.phase

variable {readingsOf}

/-- Of a stream that never came up and was not lost, nothing was sent. -/
theorem delivered_empty {s : StreamShape} {sent : List SeamUpdate} (hup : s.up = none)
    (hlost : s.lost = none) (h : Delivered readingsOf s sent) : sent = [] := by
  obtain ⟨kept, hkept, -, rfl⟩ := h
  rw [s.started hup] at hkept
  obtain rfl := List.sublist_nil.mp hkept
  rw [hup, hlost]
  rfl

/-- The stream of the events before a sample. -/
theorem shape_before {s : StreamShape} {init : List IoUpdate} (hup : s.up ≠ none)
    {events : List IoEvent} (hevents : events = streamEvents s.up init none) :
    ∃ before : StreamShape, before.up = s.up ∧ before.samples = init ∧ before.lost = none ∧
      events = before.events :=
  ⟨⟨s.up, init, none, fun h => absurd h hup⟩, rfl, rfl, rfl, hevents⟩

/-! ## The disposition of a refused staging -/

/-- A test that samples pass together keeps all of them or none. -/
theorem filter_samples (p : IoEvent → Bool) (b : Bool) (hp : ∀ u, p (.data u) = b)
    (samples : List IoUpdate) :
    (samples.map IoEvent.data).filter p = if b then samples.map IoEvent.data else [] := by
  cases b with
  | true =>
      apply List.filter_eq_self.mpr
      intro ev hev
      obtain ⟨u, -, rfl⟩ := List.mem_map.mp hev
      exact hp u
  | false =>
      apply List.filter_eq_nil_iff.mpr
      intro ev hev
      obtain ⟨u, -, rfl⟩ := List.mem_map.mp hev
      simp [hp u]

/-- What a disposition carries of a stream: its `Up` and its last sample. -/
theorem carried_stream (up : Option (Duration × Duration)) (samples : List IoUpdate) :
    (carriedUp (streamEvents up samples none)).toList ++
        (carriedData (streamEvents up samples none)).toList =
      streamEvents up samples.getLast?.toList none := by
  have hups := filter_samples IoEvent.isUp false (fun _ => rfl) samples
  have hdata := filter_samples IoEvent.isData true (fun _ => rfl) samples
  cases up with
  | none =>
      simp only [carriedUp, carriedData, streamEvents, Option.map_none, Option.toList_none,
        List.nil_append, List.append_nil, hups, hdata, Bool.false_eq_true, if_false, if_true,
        List.getLast?_nil, List.getLast?_map, Option.toList_map]
  | some apis =>
      simp only [carriedUp, carriedData, streamEvents, Option.map_some, Option.toList_some,
        List.singleton_append, List.filter_cons, Option.map_none, Option.toList_none,
        List.append_nil, hups, hdata, IoEvent.isData, IoEvent.isUp, Bool.false_eq_true, if_false,
        if_true, List.getLast?_singleton, List.getLast?_map, Option.toList_map]

/-- Keeping the last of the rest keeps order, and the freshest. -/
theorem kept_sublist_getLast {kept before : List IoUpdate} (rest : List IoUpdate)
    (hkept : kept.Sublist before) (hlast : kept.getLast? = before.getLast?) :
    (kept ++ rest.getLast?.toList).Sublist (before ++ rest) ∧
      (kept ++ rest.getLast?.toList).getLast? = (before ++ rest).getLast? := by
  rcases List.eq_nil_or_concat' rest with rfl | ⟨init, u, rfl⟩
  · simpa using ⟨hkept, hlast⟩
  · refine ⟨?_, by simp⟩
    rw [List.getLast?_concat]
    exact hkept.append (List.sublist_append_right init [u])

/-- What a disposition owes completes the stream it emptied. -/
theorem tail_delivers {before s : StreamShape} {drained : List IoEvent} {sent : List SeamUpdate}
    (hbefore : before.lost = none) (hs : s.lost = none)
    (hevents : before.events ++ drained = s.events) (h : Delivered readingsOf before sent) :
    Delivered readingsOf s (sent ++ deliverConsultedTail readingsOf none drained) := by
  obtain ⟨up, samples, lost, started⟩ := s
  obtain rfl : lost = none := hs
  cases hup : before.up with
  | none =>
      -- nothing was taken before: the disposition took the whole stream
      have hnothing : before.events = [] := by
        rw [StreamShape.events, hup, before.started hup, hbefore]
        rfl
      rw [hnothing, List.nil_append] at hevents
      obtain ⟨hsub, hlast⟩ := kept_sublist_getLast samples (List.Sublist.refl []) rfl
      rw [delivered_empty hup hbefore h, List.nil_append, hevents]
      refine ⟨samples.getLast?.toList, hsub, hlast, ?_⟩
      show List.map _ (_ ++ _ ++ []) = _
      rw [List.append_nil]
      exact congrArg _ (carried_stream up samples)
  | some apis =>
      obtain ⟨kept, hkept, hlast, rfl⟩ := h
      rw [StreamShape.events, hup, hbefore] at hevents
      cases up with
      | none =>
          -- a stream without the `Up` is empty
          obtain rfl := started rfl
          simp [streamEvents, StreamShape.events] at hevents
      | some apis' =>
          simp only [streamEvents, StreamShape.events, Option.map_some, Option.toList_some,
            Option.map_none, Option.toList_none, List.append_nil, List.cons_append,
            List.nil_append, List.cons.injEq] at hevents
          obtain ⟨hapis, hsamples⟩ := hevents
          obtain ⟨front, rest, rfl, hfront, hdrained⟩ := List.map_eq_append_iff.mp hsamples.symm
          have hinj : Function.Injective IoEvent.data := fun _ _ heq => IoEvent.data.inj heq
          obtain rfl : front = before.samples := List.map_injective_iff.mpr hinj hfront
          obtain ⟨hsub, hgetLast⟩ := kept_sublist_getLast rest hkept hlast
          refine ⟨kept ++ rest.getLast?.toList, hsub, hgetLast, ?_⟩
          have hcarried := carried_stream none rest
          simp only [streamEvents, Option.map_none, Option.toList_none, List.nil_append,
            List.append_nil, hdrained] at hcarried
          simp only [deliverConsultedTail, Option.map_none, Option.toList_none, List.append_nil,
            hcarried, streamEvents, Option.map_some, Option.toList_some, List.map_cons,
            List.map_append, List.cons_append, List.nil_append, hup, hbefore, hapis]

/-- A disposition that finds the loss sends it behind what it owes. -/
theorem deliverConsultedTail_lost (reason : LostReason) (drained : List IoEvent) :
    deliverConsultedTail readingsOf (some reason) drained =
      deliverConsultedTail readingsOf none drained ++ [seamUpdate readingsOf (.lost reason)] := by
  simp [deliverConsultedTail]

/-- The loss at the end of a delivered stream. -/
theorem delivered_lost {s : StreamShape} {reason : LostReason} {sent : List SeamUpdate}
    (hlost : s.lost = some reason)
    (h : ∃ kept : List IoUpdate, kept.Sublist s.samples ∧ kept.getLast? = s.samples.getLast? ∧
      sent = (streamEvents s.up kept none).map (seamUpdate readingsOf)) :
    Delivered readingsOf s (sent ++ [seamUpdate readingsOf (.lost reason)]) := by
  obtain ⟨kept, hkept, hlast, rfl⟩ := h
  refine ⟨kept, hkept, hlast, ?_⟩
  rw [hlost, streamEvents_lost, List.map_append]
  rfl

/-! ## One turn -/

variable {r : TranslatorRun}

/-- A receive keeps the account of what was sent. -/
theorem accounted_recv (hphase : r.phase = .listening) (h : Accounted readingsOf r)
    (ev : Option IoEvent) : Accounted readingsOf (r.next readingsOf (.recv ev)) := by
  intro s hs
  simp only [TranslatorRun.next, hphase] at hs ⊢
  cases ev with
  | none =>
      simp only [takenBy, Option.toList_none, List.append_nil] at hs
      have hheld := h s hs
      rw [hphase] at hheld
      show Delivered readingsOf s (r.sent ++ [])
      rw [List.append_nil]
      exact hheld.2
  | some ev =>
      rcases events_snoc hs with ⟨o2t, t2o, rfl, hnil, hup, hsamples, hlost⟩ |
        ⟨u, init, rfl, hsamples, hup, hlost, hevents⟩ | ⟨reason, rfl, hlost, hevents⟩
      · have hheld := h ⟨none, [], none, fun _ => rfl⟩ hnil
        rw [hphase] at hheld
        have hsent := delivered_empty rfl rfl hheld.2
        refine ⟨hlost, [], by rw [hsamples], by rw [hsamples], ?_⟩
        rw [hsent, hup, hlost]
        rfl
      · obtain ⟨before, hbup, hbsamples, hblost, hbevents⟩ := shape_before hup hevents
        have hheld := h before hbevents
        rw [hphase] at hheld
        obtain ⟨-, kept, hkept, -, hsent⟩ := hheld
        rw [hbsamples] at hkept
        refine ⟨hlost, kept, ?_, ?_, ?_⟩
        · rw [hsamples]
          exact hkept.append (List.Sublist.refl [u])
        · rw [hsamples, List.getLast?_concat]
        · rw [← hbup, ← hblost, ← hsent]
          exact List.append_nil _
      · have hheld := h ⟨s.up, s.samples, none, s.started⟩ hevents
        rw [hphase] at hheld
        exact delivered_lost hlost hheld.2

/-- So does a read that collapses. -/
theorem accounted_collapse {latest : IoUpdate} (hphase : r.phase = .collapsing latest)
    (h : Accounted readingsOf r) (ev : Option IoEvent) :
    Accounted readingsOf (r.next readingsOf (.tryRecv ev)) := by
  intro s hs
  simp only [TranslatorRun.next, hphase] at hs ⊢
  cases ev with
  | none =>
      simp only [takenBy, Option.toList_none, List.append_nil] at hs
      have hheld := h s hs
      rw [hphase] at hheld
      obtain ⟨hlost, kept, hkept, hlast, hsent⟩ := hheld
      refine ⟨hlost, kept ++ [latest], hkept, ?_, ?_⟩
      · rw [hlast, List.getLast?_concat]
      · rw [hlost, streamEvents_snoc, List.map_append, hsent]
        rfl
  | some ev =>
      rcases events_snoc hs with ⟨o2t, t2o, rfl, hnil, hup, hsamples, hlost⟩ |
        ⟨u, init, rfl, hsamples, hup, hlost, hevents⟩ | ⟨reason, rfl, hlost, hevents⟩
      · -- an `Up` opens its stream, and a burst holds a sample
        have hheld := h ⟨none, [], none, fun _ => rfl⟩ hnil
        rw [hphase] at hheld
        obtain ⟨-, kept, -, hlast, -⟩ := hheld
        cases hlast
      · obtain ⟨before, hbup, hbsamples, hblost, hbevents⟩ := shape_before hup hevents
        have hheld := h before hbevents
        rw [hphase] at hheld
        obtain ⟨-, kept, hkept, -, hsent⟩ := hheld
        rw [hbsamples] at hkept
        have hearlier : kept.Sublist init := (List.sublist_append_left kept [latest]).trans hkept
        refine ⟨hlost, kept, ?_, ?_, ?_⟩
        · rw [hsamples]
          exact hearlier.append (List.Sublist.refl [u])
        · rw [hsamples, List.getLast?_concat]
        · rw [← hbup, ← hsent]
          exact List.append_nil _
      · have hheld := h ⟨s.up, s.samples, none, s.started⟩ hevents
        rw [hphase] at hheld
        obtain ⟨-, kept, hkept, hlast, hsent⟩ := hheld
        have hall : r.sent ++ [seamUpdate readingsOf (.data latest)] =
            (streamEvents s.up (kept ++ [latest]) none).map (seamUpdate readingsOf) := by
          rw [streamEvents_snoc, List.map_append, hsent]
          rfl
        have hgetLast : (kept ++ [latest]).getLast? = s.samples.getLast? := by
          rw [List.getLast?_concat]
          exact hlast.symm
        have hdelivered := delivered_lost hlost ⟨kept ++ [latest], hkept, hgetLast, hall⟩
        rw [List.append_assoc] at hdelivered
        exact hdelivered

/-- So does a read of the disposition loop. -/
theorem accounted_drain {drained : List IoEvent} (hphase : r.phase = .draining drained)
    (h : Accounted readingsOf r) (ev : Option IoEvent) :
    Accounted readingsOf (r.next readingsOf (.tryRecv ev)) := by
  intro s hs
  simp only [TranslatorRun.next, hphase] at hs ⊢
  cases ev with
  | none =>
      simp only [takenBy, Option.toList_none, List.append_nil] at hs
      have hheld := h s hs
      rw [hphase] at hheld
      obtain ⟨hlost, before, hbefore, hevents, hdelivered⟩ := hheld
      exact ⟨hlost, tail_delivers hbefore hlost hevents hdelivered⟩
  | some ev =>
      -- the stream before the event, and what the disposition holds of it
      have hstep : ∀ prior : StreamShape, r.received = prior.events →
          ∃ before : StreamShape, before.lost = none ∧
            before.events ++ drained = prior.events ∧ Delivered readingsOf before r.sent ∧
            prior.lost = none := by
        intro prior hprior
        have hheld := h prior hprior
        rw [hphase] at hheld
        obtain ⟨hlost, before, hbefore, hevents, hdelivered⟩ := hheld
        exact ⟨before, hbefore, hevents, hdelivered, hlost⟩
      rcases events_snoc hs with ⟨o2t, t2o, rfl, hnil, hup, hsamples, hlost⟩ |
        ⟨u, init, rfl, hsamples, hup, hlost, hevents⟩ | ⟨reason, rfl, hlost, hevents⟩
      · obtain ⟨before, hbefore, hsplit, hdelivered, -⟩ :=
          hstep ⟨none, [], none, fun _ => rfl⟩ hnil
        refine ⟨hlost, before, hbefore, ?_, ?_⟩
        · rw [← List.append_assoc, hsplit, ← hs]
          exact congrArg (· ++ [_]) hnil.symm
        · show Delivered readingsOf before (r.sent ++ [])
          rw [List.append_nil]
          exact hdelivered
      · obtain ⟨prior, -, -, -, hprior⟩ := shape_before hup hevents
        obtain ⟨before, hbefore, hsplit, hdelivered, -⟩ := hstep prior hprior
        refine ⟨hlost, before, hbefore, ?_, ?_⟩
        · rw [← List.append_assoc, hsplit, ← hprior, ← hs]
          rfl
        · show Delivered readingsOf before (r.sent ++ [])
          rw [List.append_nil]
          exact hdelivered
      · obtain ⟨before, hbefore, hsplit, hdelivered, -⟩ :=
          hstep ⟨s.up, s.samples, none, s.started⟩ hevents
        show Delivered readingsOf s
          (r.sent ++ deliverConsultedTail readingsOf (some reason) drained)
        rw [deliverConsultedTail_lost, ← List.append_assoc]
        exact delivered_lost hlost (tail_delivers hbefore rfl hsplit hdelivered)

/-- A turn that takes nothing off the stream and sends nothing. -/
theorem accounted_silent {turn : TranslatorTurn} (h : Accounted readingsOf r)
    (htaken : takenBy r.phase turn = [])
    (hsent : (translatorTurn readingsOf r.phase turn).2.sent = [])
    (hholds : ∀ s, PhaseHolds readingsOf s r.sent r.phase →
      PhaseHolds readingsOf s r.sent (translatorTurn readingsOf r.phase turn).1) :
    Accounted readingsOf (r.next readingsOf turn) := by
  intro s hs
  simp only [TranslatorRun.next, htaken, hsent, List.append_nil] at hs ⊢
  exact hholds s (h s hs)

/-- A turn that leaves the translator where it stands. -/
theorem accounted_still {phase : TranslatorPhase} {turn : TranslatorTurn}
    (h : Accounted readingsOf r) (hphase : r.phase = phase) (htaken : takenBy phase turn = [])
    (hsent : (translatorTurn readingsOf phase turn).2.sent = [])
    (hstill : (translatorTurn readingsOf phase turn).1 = phase) :
    Accounted readingsOf (r.next readingsOf turn) := by
  subst hphase
  apply accounted_silent h htaken hsent
  intro s hs
  rw [hstill]
  exact hs

/-- A staging that is not refused as closed leaves it there, and one that is begins the disposition
with the stream as it has been delivered. -/
theorem accounted_setOutput (hphase : r.phase = .listening) (h : Accounted readingsOf r)
    (staged : Except EnipError Unit) :
    Accounted readingsOf (r.next readingsOf (.setOutput staged)) := by
  cases staged with
  | ok u => exact accounted_still h hphase rfl rfl rfl
  | error e =>
      cases e
      case closed =>
        apply accounted_silent h <;> rw [hphase]
        · rfl
        · rfl
        · exact fun s hs => ⟨hs.1, s, hs.1, List.append_nil _, hs.2⟩
      all_goals exact accounted_still h hphase rfl rfl rfl

/-- Every turn keeps the account. -/
theorem accounted_next (h : Accounted readingsOf r) (turn : TranslatorTurn) :
    Accounted readingsOf (r.next readingsOf turn) := by
  cases hphase : r.phase with
  | ended => exact accounted_still h hphase rfl rfl rfl
  | collapsing latest =>
      cases turn with
      | tryRecv ev => exact accounted_collapse hphase h ev
      | recv _ | setOutput _ | close | controlClosed => exact accounted_still h hphase rfl rfl rfl
  | draining drained =>
      cases turn with
      | tryRecv ev => exact accounted_drain hphase h ev
      | recv _ | setOutput _ | close | controlClosed => exact accounted_still h hphase rfl rfl rfl
  | listening =>
      cases turn with
      | recv ev => exact accounted_recv hphase h ev
      | tryRecv _ => exact accounted_still h hphase rfl rfl rfl
      | setOutput staged => exact accounted_setOutput hphase h staged
      | close | controlClosed =>
          apply accounted_silent h <;> rw [hphase]
          · rfl
          · rfl
          · exact fun _ hs => hs.2

end Invariant

/-! ## Every run -/

/-- At the start nothing was sent. -/
theorem accounted_start (readingsOf : Bytes → Bool → List Reading) : Accounted readingsOf {} := by
  intro s hs
  have hempty : s.up = none ∧ s.samples = [] ∧ s.lost = none := by
    simpa [StreamShape.events, streamEvents] using hs
  refine ⟨hempty.2.2, [], List.nil_sublist _, by rw [hempty.2.1], ?_⟩
  rw [hempty.1, hempty.2.2]
  rfl

/-- Every run of turns keeps the account. -/
theorem accounted_foldl {readingsOf : Bytes → Bool → List Reading} {r : TranslatorRun}
    (h : Accounted readingsOf r) (turns : List TranslatorTurn) :
    Accounted readingsOf (turns.foldl (TranslatorRun.next readingsOf) r) := by
  induction turns generalizing r with
  | nil => exact h
  | cons turn turns ih => exact ih (accounted_next h turn)

/-- For every stream and every way its events arrive among the control messages: whenever the
translator is in no burst and no disposition, the updates it has sent are those of the stream
with some samples left out but never the last, the `Up` first and the `Lost` last; one read of an
idle stream brings it there; and once it has taken the `Lost` it has ended. -/
theorem translator_delivers (readingsOf : Bytes → Bool → List Reading)
    (turns : List TranslatorTurn) (s : StreamShape)
    (hs : (runTranslator readingsOf turns).received = s.events) :
    (Quiet (runTranslator readingsOf turns).phase →
      Delivered readingsOf s (runTranslator readingsOf turns).sent) ∧
    (Quiet (runTranslator readingsOf (turns ++ [.tryRecv none])).phase ∧
      (runTranslator readingsOf (turns ++ [.tryRecv none])).received = s.events) ∧
    (s.lost ≠ none → (runTranslator readingsOf turns).phase = .ended) := by
  have hholds : PhaseHolds readingsOf s (runTranslator readingsOf turns).sent
      (runTranslator readingsOf turns).phase :=
    accounted_foldl (accounted_start readingsOf) turns s hs
  refine ⟨?_, ?_, ?_⟩
  · rintro (hphase | hphase) <;> rw [hphase] at hholds
    · exact hholds.2
    · exact hholds
  · have hnext : runTranslator readingsOf (turns ++ [.tryRecv none]) =
        (runTranslator readingsOf turns).next readingsOf (.tryRecv none) := by
      rw [runTranslator, List.foldl_append]
      rfl
    rw [hnext]
    unfold TranslatorRun.next Quiet
    cases hphase : (runTranslator readingsOf turns).phase with
    | ended => exact ⟨.inr rfl, by simpa [takenBy] using hs⟩
    | listening | collapsing _ | draining _ => exact ⟨.inl rfl, by simpa [takenBy] using hs⟩
  · intro hlost
    cases hphase : (runTranslator readingsOf turns).phase with
    | ended => rfl
    | listening | collapsing _ | draining _ =>
        rw [hphase] at hholds
        exact absurd hholds.1 hlost

/-- Three samples, the last of them taken by the disposition of a staging that came too late. -/
def lateStaging : List TranslatorTurn :=
  let sample (n : UInt16) : IoEvent := .data ⟨[], n, 0, true, 0⟩
  [.recv (some (.up 0 0)), .recv (some (sample 1)), .tryRecv (some (sample 2)), .tryRecv none,
    .setOutput (.error .closed), .tryRecv (some (sample 3)), .tryRecv (some (.lost .timeout))]

def lateStagingShape : StreamShape where
  up := some (0, 0)
  samples := [⟨[], 1, 0, true, 0⟩, ⟨[], 2, 0, true, 0⟩, ⟨[], 3, 0, true, 0⟩]
  lost := some .timeout
  started := by
    intro h
    cases h

/-- A stream that is drained after a write is delivered. -/
theorem translator_delivers_lateStaging :
    Delivered (fun _ _ => []) lateStagingShape (runTranslator (fun _ _ => []) lateStaging).sent := by
  have h := translator_delivers (fun _ _ => []) lateStaging lateStagingShape rfl
  apply h.1
  right
  apply h.2.2
  decide

end EnipAdapter.Analysis
