import EnipAdapter.Analysis.TranslatorDelivery
import EnipAdapter.Interface.TranslatorContract

/-!
# The way of a sample

What each step does to the samples between the stack and the counter: a step that drops nothing
keeps their order, and a step of a latest-wins stage that finds two keeps one.
-/

set_option autoImplicit false

namespace EnipAdapter.Analysis

open EnipAdapter.Foundation EnipAdapter.Model EnipAdapter.Interface

/-! ## The sequence numbers on their way -/

/-- The sequence number of a sample. -/
def eventSequence : IoEvent → Option UInt16
  | .data u => some u.sequence
  | _ => none

def updateSequence : SeamUpdate → Option UInt16
  | .data _ sequence _ _ => some sequence
  | _ => none

def eventSequences (events : List IoEvent) : List UInt16 := events.filterMap eventSequence

def updateSequences (updates : List SeamUpdate) : List UInt16 := updates.filterMap updateSequence

/-- The sequence number the translator holds. -/
def heldSequences : TranslatorPhase → List UInt16
  | .collapsing latest => [latest.sequence]
  | .draining drained => (carriedData drained).toList.filterMap eventSequence
  | _ => []

/-- The sequence numbers on their way, the next to be counted first. -/
def sequencesOnTheWay (s : PushPipeline) : List UInt16 :=
  updateSequences s.channel ++ updateSequences s.outbox ++ heldSequences s.phase ++
    eventSequences s.queue.deque

variable {readingsOf : Bytes → Bool → List Reading}

/-- An event keeps its sequence across the seam. -/
theorem updateSequence_seamUpdate (ev : IoEvent) :
    updateSequence (seamUpdate readingsOf ev) = eventSequence ev := by
  cases ev <;> rfl

/-- So do events in a list. -/
theorem updateSequences_map (events : List IoEvent) :
    updateSequences (events.map (seamUpdate readingsOf)) = eventSequences events := by
  unfold updateSequences eventSequences
  rw [List.filterMap_map]
  apply List.filterMap_congr
  intro ev _
  exact updateSequence_seamUpdate ev

/-! ## The translator -/

/-- Of the events taken the last sample is carried. -/
theorem carriedData_snoc (drained : List IoEvent) (ev : IoEvent) :
    carriedData (drained ++ [ev]) = if ev.isData then some ev else carriedData drained := by
  cases hdata : ev.isData with
  | true => simp [carriedData, hdata]
  | false => simp [carriedData, hdata]

/-- Where no sample was taken none is. -/
theorem carriedData_of_none {drained : List IoEvent} (h : drained.any IoEvent.isData = false) :
    carriedData drained = none := by
  rw [carriedData, List.filter_eq_nil_iff.mpr]
  · rfl
  · intro ev hev hdata
    rw [List.any_eq_false] at h
    exact h ev hev hdata

/-- The translator holds the sequence of the sample it carries. -/
theorem heldSequences_draining (drained : List IoEvent) :
    heldSequences (.draining drained) = eventSequences (carriedData drained).toList := rfl

/-- What a disposition sends carries the sample it held. -/
theorem tail_sequences (lost : Option LostReason) (drained : List IoEvent) :
    updateSequences (deliverConsultedTail readingsOf lost drained) =
      heldSequences (.draining drained) := by
  have hup : eventSequences (carriedUp drained).toList = [] := by
    cases hcarried : carriedUp drained with
    | none => rfl
    | some ev =>
        have hmem := List.mem_of_getLast? hcarried
        have his := (List.mem_filter.mp hmem).2
        cases ev with
        | up o2t t2o => rfl
        | data u => cases his
        | lost reason => cases his
  have hlost : eventSequences (lost.map IoEvent.lost).toList = [] := by
    cases lost <;> rfl
  rw [deliverConsultedTail, updateSequences_map]
  unfold eventSequences at hup hlost ⊢
  rw [List.filterMap_append, List.filterMap_append, hup, hlost, List.append_nil, List.nil_append]
  rfl

/-- And one at most. -/
theorem length_held_draining (drained : List IoEvent) :
    (heldSequences (.draining drained)).length =
      if drained.any IoEvent.isData then 1 else 0 := by
  rw [heldSequences_draining]
  cases hany : drained.any IoEvent.isData with
  | false =>
      rw [carriedData_of_none hany]
      rfl
  | true =>
      obtain ⟨ev, hev, hdata⟩ := List.any_eq_true.mp hany
      have hne : drained.filter IoEvent.isData ≠ [] :=
        List.ne_nil_of_mem (List.mem_filter.mpr ⟨hev, hdata⟩)
      obtain ⟨last, hlast⟩ := Option.isSome_iff_exists.mp (List.getLast?_isSome.mpr hne)
      have his := (List.mem_filter.mp (List.mem_of_getLast? hlast)).2
      cases last with
      | data u =>
          rw [carriedData, hlast]
          rfl
      | up o2t t2o => cases his
      | lost reason => cases his

/-- A turn that drops no sample passes them on in order. -/
theorem turn_keeps {phase : TranslatorPhase} {turn : TranslatorTurn}
    (h : ∀ ev ∈ takenBy phase turn, ¬ (holdsSample phase = true ∧ ev.isData = true)) :
    updateSequences (translatorTurn readingsOf phase turn).2.sent ++
        heldSequences (translatorTurn readingsOf phase turn).1 =
      heldSequences phase ++ eventSequences (takenBy phase turn) := by
  cases phase with
  | ended => cases turn <;> rfl
  | listening =>
      cases turn with
      | recv ev =>
          cases ev with
          | none => rfl
          | some ev => cases ev <;> rfl
      | setOutput staged =>
          cases staged with
          | ok u => rfl
          | error e => cases e <;> rfl
      | tryRecv _ | close | controlClosed => rfl
  | collapsing latest =>
      cases turn with
      | tryRecv ev =>
          cases ev with
          | none => rfl
          | some ev =>
              cases ev with
              | data u => exact absurd ⟨rfl, rfl⟩ (h (.data u) List.mem_cons_self)
              | up o2t t2o => rfl
              | lost reason => rfl
      | recv _ | setOutput _ | close | controlClosed => rfl
  | draining drained =>
      cases turn with
      | tryRecv ev =>
          cases ev with
          | none =>
              show updateSequences (deliverConsultedTail readingsOf none drained) ++ [] = _ ++ []
              rw [tail_sequences]
          | some ev =>
              cases ev with
              | data u =>
                  have hnone : drained.any IoEvent.isData = false := by
                    rw [← Bool.not_eq_true]
                    exact fun hany => h (.data u) List.mem_cons_self ⟨hany, rfl⟩
                  show [] ++ heldSequences (.draining (drained ++ [.data u])) =
                    heldSequences (.draining drained) ++ [u.sequence]
                  rw [heldSequences_draining, heldSequences_draining, carriedData_snoc,
                    carriedData_of_none hnone]
                  rfl
              | up o2t t2o =>
                  show [] ++ heldSequences (.draining (drained ++ [.up o2t t2o])) = _ ++ []
                  rw [heldSequences_draining, heldSequences_draining, carriedData_snoc,
                    List.append_nil]
                  rfl
              | lost reason =>
                  show updateSequences
                    (deliverConsultedTail readingsOf (some reason) drained) ++ [] = _ ++ []
                  rw [tail_sequences]
      | recv _ | setOutput _ | close | controlClosed => exact (List.append_nil _).symm

variable (readingsOf) in
/-- A turn that takes a sample while it holds one keeps only the later. -/
theorem turn_drops {phase : TranslatorPhase} {ev : IoEvent} (hheld : holdsSample phase = true)
    (hdata : ev.isData = true) :
    (updateSequences (translatorTurn readingsOf phase (.tryRecv (some ev))).2.sent ++
        heldSequences (translatorTurn readingsOf phase (.tryRecv (some ev))).1).length + 1 =
      (heldSequences phase ++ eventSequences [ev]).length := by
  cases ev with
  | up o2t t2o => cases hdata
  | lost reason => cases hdata
  | data u =>
      cases phase with
      | listening => cases hheld
      | ended => cases hheld
      | collapsing latest => rfl
      | draining drained =>
          have hany : drained.any IoEvent.isData = true := hheld
          have hlater : (drained ++ [IoEvent.data u]).any IoEvent.isData = true := by
            rw [List.any_append]
            exact Bool.or_true _
          show ([] ++ heldSequences (.draining (drained ++ [IoEvent.data u]))).length + 1 =
            (heldSequences (.draining drained) ++ [u.sequence]).length
          rw [List.nil_append, length_held_draining, List.length_append, length_held_draining,
            if_pos hany, if_pos hlater]
          rfl

/-! ## The event queue -/

/-- Dropping one sample of a queue drops one sequence. -/
theorem length_eraseP_sequences {deque : List IoEvent} (h : deque.any IoEvent.isData = true) :
    (eventSequences (deque.eraseP IoEvent.isData)).length + 1 = (eventSequences deque).length := by
  obtain ⟨ev, hev, hdata⟩ := List.any_eq_true.mp h
  obtain ⟨oldest, before, after, -, holdest, hsplit, herase⟩ := List.exists_of_eraseP hev hdata
  have hone : eventSequences [oldest] ≠ [] ∧ (eventSequences [oldest]).length = 1 := by
    cases oldest with
    | data u => exact ⟨List.cons_ne_nil _ _, rfl⟩
    | up o2t t2o => cases holdest
    | lost reason => cases holdest
  have hcons : oldest :: after = [oldest] ++ after := rfl
  rw [herase, hsplit, hcons]
  unfold eventSequences at hone ⊢
  rw [List.filterMap_append, List.filterMap_append, List.filterMap_append, List.length_append,
    List.length_append, List.length_append, hone.2]
  omega

/-- The queue a frame meets: before the first one, the `Up` was put there. -/
def openedQueue (s : PushPipeline) : EventQueueState :=
  if s.accepted = [] then (s.queue.pushLatestWins (.up s.apis.1 s.apis.2)).1 else s.queue

/-- An event that is no sample is queued behind the others. -/
theorem pushLatestWins_control {q : EventQueueState} {ev : IoEvent} (hopen : q.rxClosed = false)
    (hev : ev.isData = false) :
    (q.pushLatestWins ev).1 = { q with deque := q.deque ++ [ev] } := by
  rw [EventQueueState.pushLatestWins, if_neg (by rw [hopen]; exact Bool.false_ne_true), if_pos hev]

/-- The `Up` changes neither the samples nor their bound. -/
theorem openedQueue_samples (s : PushPipeline) (hopen : s.queue.rxClosed = false) :
    (openedQueue s).rxClosed = false ∧ (openedQueue s).dataLen = s.queue.dataLen ∧
      (openedQueue s).capacity = s.queue.capacity ∧
      (openedQueue s).deque.any IoEvent.isData = s.queue.deque.any IoEvent.isData ∧
      eventSequences (openedQueue s).deque = eventSequences s.queue.deque := by
  unfold openedQueue
  by_cases hfirst : s.accepted = []
  · rw [if_pos hfirst, pushLatestWins_control hopen rfl]
    refine ⟨hopen, rfl, rfl, ?_, ?_⟩
    · rw [List.any_append]
      exact Bool.or_false _
    · unfold eventSequences
      rw [List.filterMap_append]
      exact List.append_nil _
  · rw [if_neg hfirst]
    exact ⟨hopen, rfl, rfl, rfl, rfl⟩

/-- A frame that finds room is queued behind the others. -/
theorem accept_keeps {s : PushPipeline} (u : IoUpdate) (hopen : s.queue.rxClosed = false)
    (hroom : ¬ (s.queue.dataLen ≥ s.queue.capacity ∧ s.queue.deque.any IoEvent.isData = true)) :
    (s.accept u).queue.rxClosed = false ∧
      eventSequences (s.accept u).queue.deque = eventSequences s.queue.deque ++ [u.sequence] := by
  obtain ⟨hrx, hlen, hcapacity, hany, hsequences⟩ := openedQueue_samples s hopen
  show ((openedQueue s).pushLatestWins (.data u)).1.rxClosed = false ∧
    eventSequences ((openedQueue s).pushLatestWins (.data u)).1.deque = _
  rw [EventQueueState.pushLatestWins, if_neg (by rw [hrx]; exact Bool.false_ne_true),
    if_neg (by exact Bool.noConfusion), if_neg (by rw [hlen, hcapacity, hany]; exact hroom)]
  refine ⟨hrx, ?_⟩
  rw [← hsequences]
  unfold eventSequences
  exact List.filterMap_append

/-- A frame that meets a full queue takes the place of the oldest sample. -/
theorem accept_drops {s : PushPipeline} (u : IoUpdate) (hopen : s.queue.rxClosed = false)
    (hfull : s.queue.dataLen ≥ s.queue.capacity ∧ s.queue.deque.any IoEvent.isData = true) :
    (s.accept u).queue.rxClosed = false ∧
      (eventSequences (s.accept u).queue.deque).length = (eventSequences s.queue.deque).length := by
  obtain ⟨hrx, hlen, hcapacity, hany, hsequences⟩ := openedQueue_samples s hopen
  show ((openedQueue s).pushLatestWins (.data u)).1.rxClosed = false ∧
    (eventSequences ((openedQueue s).pushLatestWins (.data u)).1.deque).length = _
  rw [EventQueueState.pushLatestWins, if_neg (by rw [hrx]; exact Bool.false_ne_true),
    if_neg (by exact Bool.noConfusion), if_pos (by rw [hlen, hcapacity, hany]; exact hfull)]
  refine ⟨hrx, ?_⟩
  have herase := length_eraseP_sequences (hany.trans hfull.2)
  rw [hsequences] at herase
  show (eventSequences ((openedQueue s).deque.eraseP IoEvent.isData ++ [.data u])).length = _
  unfold eventSequences at herase ⊢
  rw [List.filterMap_append, List.length_append]
  exact herase

/-- A pop takes the first event, and leaves the receiver as it is. -/
theorem pop_some {q rest : EventQueueState} {ev : IoEvent} (h : q.pop = some (ev, rest)) :
    q.deque = ev :: rest.deque ∧ rest.rxClosed = q.rxClosed := by
  unfold EventQueueState.pop at h
  cases hdeque : q.deque with
  | nil =>
      rw [hdeque] at h
      cases h
  | cons first others =>
      rw [hdeque] at h
      cases h
      exact ⟨rfl, rfl⟩

/-! ## One step -/

/-- What a step that drops nothing does to the frames: one is accepted, they get on, or the next
update is counted. -/
inductive FrameFlow (s s' : PushPipeline) : Prop where
  | accepted (sequence : UInt16) (haccepted : s'.accepted = s.accepted ++ [sequence])
      (hway : sequencesOnTheWay s' = sequencesOnTheWay s ++ [sequence]) (hio : s'.io = s.io)
  | onward (haccepted : s'.accepted = s.accepted)
      (hway : sequencesOnTheWay s' = sequencesOnTheWay s)
      (hio : s'.io = s.io)
  | counted (update : SeamUpdate) (haccepted : s'.accepted = s.accepted)
      (hway : sequencesOnTheWay s = (updateSequence update).toList ++ sequencesOnTheWay s')
      (hio : s'.io = consumeUpdate s.io update)

/-- With an empty outbox the way is the channel, the translator and the queue. -/
theorem sequencesOnTheWay_of_outbox {s : PushPipeline} (h : s.outbox = []) :
    sequencesOnTheWay s = updateSequences s.channel ++
      (heldSequences s.phase ++ eventSequences s.queue.deque) := by
  rw [sequencesOnTheWay, h]
  show updateSequences s.channel ++ [] ++ _ ++ _ = _
  rw [List.append_nil, List.append_assoc]

/-- A turn of the translator moves sequences from its hands to the channel. -/
theorem sequencesOnTheWay_turn (s : PushPipeline) (queue : EventQueueState)
    (turn : TranslatorTurn) :
    sequencesOnTheWay (s.turn readingsOf queue turn) = updateSequences s.channel ++
      (updateSequences (translatorTurn readingsOf s.phase turn).2.sent ++
        heldSequences (translatorTurn readingsOf s.phase turn).1 ++
          eventSequences queue.deque) := by
  show updateSequences s.channel ++ _ ++ _ ++ _ = _
  simp only [List.append_assoc]
  rfl

/-- A turn that drops nothing only moves the samples on. -/
theorem turn_flows {s : PushPipeline} {queue : EventQueueState} {turn : TranslatorTurn}
    (hout : s.outbox = []) (hsplit : s.queue.deque = takenBy s.phase turn ++ queue.deque)
    (hkeep : ∀ ev ∈ takenBy s.phase turn, ¬ (holdsSample s.phase = true ∧ ev.isData = true)) :
    FrameFlow s (s.turn readingsOf queue turn) := by
  refine .onward rfl ?_ rfl
  rw [sequencesOnTheWay_turn, turn_keeps hkeep, sequencesOnTheWay_of_outbox hout, hsplit]
  unfold eventSequences
  rw [List.filterMap_append, List.append_assoc]

/-- A read takes the event that is there. -/
theorem takenBy_reads {phase : TranslatorPhase} (h : PushPipeline.reads phase = true)
    (ev : Option IoEvent) : takenBy phase (.tryRecv ev) = ev.toList := by
  cases phase with
  | collapsing latest => rfl
  | draining drained => rfl
  | listening => cases h
  | ended => cases h

/-- A translator that holds a sample is reading on. -/
theorem reads_of_holdsSample {phase : TranslatorPhase} (h : holdsSample phase = true) :
    PushPipeline.reads phase = true := by
  cases phase with
  | collapsing latest => rfl
  | draining drained => rfl
  | listening => cases h
  | ended => cases h

/-- A write takes no event. -/
theorem takenBy_setOutput (phase : TranslatorPhase) (staged : Except EnipError Unit) :
    takenBy phase (.setOutput staged) = [] := by
  cases phase <;> rfl

/-- Where nothing happens, frames stay where they are. -/
theorem frameFlow_refl (s : PushPipeline) : FrameFlow s s := .onward rfl rfl rfl

/-- A step that leaves the stream open and drops nothing. -/
structure Keeps (s s' : PushPipeline) : Prop where
  listening : s'.queue.rxClosed = false
  flow : FrameFlow s s'

/-- An accepted frame goes behind the others, if the queue has room. -/
theorem accept_flows {s : PushPipeline} (u : IoUpdate) (hopen : s.queue.rxClosed = false)
    (hkeep : ¬ DropsSample s (.accept u)) :
    Keeps s (s.step readingsOf (.accept u)) := by
  show Keeps s (if s.queue.txClosed = true then s else s.accept u)
  by_cases hclosed : s.queue.txClosed = true
  · rw [if_pos hclosed]
    exact ⟨hopen, frameFlow_refl s⟩
  · rw [if_neg hclosed]
    have hroom : ¬ (s.queue.dataLen ≥ s.queue.capacity ∧
        s.queue.deque.any IoEvent.isData = true) :=
      fun hfull => hkeep ⟨Bool.eq_false_iff.mpr hclosed, hfull.1, hfull.2⟩
    obtain ⟨hrx, hsequences⟩ := accept_keeps u hopen hroom
    refine ⟨hrx, .accepted u.sequence rfl ?_ rfl⟩
    show updateSequences s.channel ++ updateSequences s.outbox ++ heldSequences s.phase ++
      eventSequences (s.accept u).queue.deque = _
    rw [hsequences, ← List.append_assoc]
    rfl

/-- A loss is queued behind the frames. -/
theorem lose_flows {s : PushPipeline} (reason : LostReason) (hopen : s.queue.rxClosed = false) :
    Keeps s (s.step readingsOf (.lose reason)) := by
  show Keeps s (if s.queue.txClosed = true then s else
    { s with queue := (s.queue.pushLatestWins (.lost reason)).1.closeSender })
  by_cases hclosed : s.queue.txClosed = true
  · rw [if_pos hclosed]
    exact ⟨hopen, frameFlow_refl s⟩
  · rw [if_neg hclosed, pushLatestWins_control hopen rfl]
    refine ⟨hopen, .onward rfl ?_ rfl⟩
    have hlost : eventSequences (s.queue.deque ++ [.lost reason]) =
        eventSequences s.queue.deque := by
      unfold eventSequences
      rw [List.filterMap_append]
      exact List.append_nil _
    show _ ++ eventSequences (s.queue.deque ++ [.lost reason]) = _
    rw [hlost]
    rfl

/-- A receive passes the next event on. -/
theorem receive_flows {s : PushPipeline} (hopen : s.queue.rxClosed = false) :
    Keeps s (s.step readingsOf .receive) := by
  by_cases hready : s.outbox = [] ∧ s.phase = .listening
  · have hquiet : holdsSample s.phase = false := by
      rw [hready.2]
      rfl
    cases hpop : s.queue.pop with
    | some popped =>
        obtain ⟨ev, queue⟩ := popped
        have hstep : s.step readingsOf .receive = s.turn readingsOf queue (.recv (some ev)) := by
          rw [PushPipeline.step, if_pos hready, hpop]
        have htaken : takenBy s.phase (.recv (some ev)) = [ev] := by
          rw [hready.2]
          rfl
        obtain ⟨hdeque, hrx⟩ := pop_some hpop
        rw [hstep]
        refine ⟨hrx.trans hopen, turn_flows hready.1 (by rw [htaken]; exact hdeque) ?_⟩
        intro _ _ hdrop
        rw [hquiet] at hdrop
        exact Bool.false_ne_true hdrop.1
    | none =>
        by_cases hclosed : s.queue.txClosed = true
        · have hstep : s.step readingsOf .receive =
              s.turn readingsOf s.queue (.recv none) := by
            rw [PushPipeline.step, if_pos hready, hpop]
            exact if_pos hclosed
          have htaken : takenBy s.phase (.recv none) = [] := by
            rw [hready.2]
            rfl
          rw [hstep]
          refine ⟨hopen, turn_flows hready.1 (by rw [htaken]; rfl) ?_⟩
          intro ev hev
          rw [htaken] at hev
          cases hev
        · have hstep : s.step readingsOf .receive = s := by
            rw [PushPipeline.step, if_pos hready, hpop]
            exact if_neg hclosed
          rw [hstep]
          exact ⟨hopen, frameFlow_refl s⟩
  · rw [PushPipeline.step, if_neg hready]
    exact ⟨hopen, frameFlow_refl s⟩

/-- A write passes nothing on. -/
theorem setOutput_flows {s : PushPipeline} (staged : Except EnipError Unit)
    (hopen : s.queue.rxClosed = false) :
    Keeps s (s.step readingsOf (.setOutput staged)) := by
  show Keeps s (if s.outbox = [] then s.turn readingsOf s.queue (.setOutput staged) else s)
  by_cases hready : s.outbox = []
  · have htaken := takenBy_setOutput s.phase staged
    rw [if_pos hready]
    refine ⟨hopen, turn_flows hready (by rw [htaken]; rfl) ?_⟩
    intro ev hev
    rw [htaken] at hev
    cases hev
  · rw [if_neg hready]
    exact ⟨hopen, frameFlow_refl s⟩

/-- A read that does not collapse passes the next event on. -/
theorem tryReceive_flows {s : PushPipeline} (hopen : s.queue.rxClosed = false)
    (hkeep : ¬ DropsSample s .tryReceive) :
    Keeps s (s.step readingsOf .tryReceive) := by
  by_cases hready : s.outbox = [] ∧ PushPipeline.reads s.phase = true
  · cases hpop : s.queue.pop with
    | some popped =>
        obtain ⟨ev, queue⟩ := popped
        have hstep : s.step readingsOf .tryReceive =
            s.turn readingsOf queue (.tryRecv (some ev)) := by
          rw [PushPipeline.step, if_pos hready, hpop]
        have htaken : takenBy s.phase (.tryRecv (some ev)) = [ev] :=
          takenBy_reads hready.2 (some ev)
        obtain ⟨hdeque, hrx⟩ := pop_some hpop
        rw [hstep]
        refine ⟨hrx.trans hopen, turn_flows hready.1 (by rw [htaken]; exact hdeque) ?_⟩
        intro other hother hdrop
        rw [htaken, List.mem_singleton] at hother
        apply hkeep
        refine ⟨hready.1, hdrop.1, ?_⟩
        rw [hdeque, ← hother]
        exact hdrop.2
    | none =>
        have hstep : s.step readingsOf .tryReceive =
            s.turn readingsOf s.queue (.tryRecv none) := by
          rw [PushPipeline.step, if_pos hready, hpop]
        have htaken : takenBy s.phase (.tryRecv none) = [] := takenBy_reads hready.2 none
        rw [hstep]
        refine ⟨hopen, turn_flows hready.1 (by rw [htaken]; rfl) ?_⟩
        intro ev hev
        rw [htaken] at hev
        cases hev
  · rw [PushPipeline.step, if_neg hready]
    exact ⟨hopen, frameFlow_refl s⟩

/-- A send passes an update on. -/
theorem send_flows {s : PushPipeline} (hopen : s.queue.rxClosed = false) :
    Keeps s (s.step readingsOf .send) := by
  cases hout : s.outbox with
  | nil =>
      rw [PushPipeline.step, hout]
      exact ⟨hopen, frameFlow_refl s⟩
  | cons update rest =>
      by_cases hroom : s.channel.length < updateChannelDepth
      · have hstep : s.step readingsOf .send =
            { s with outbox := rest, channel := s.channel ++ [update] } := by
          rw [PushPipeline.step, hout]
          exact if_pos hroom
        rw [hstep]
        refine ⟨hopen, .onward rfl ?_ rfl⟩
        have hcons : update :: rest = [update] ++ rest := rfl
        show updateSequences (s.channel ++ [update]) ++ updateSequences rest ++ _ ++ _ =
          updateSequences s.channel ++ updateSequences s.outbox ++ _ ++ _
        unfold updateSequences
        rw [hout, hcons, List.filterMap_append, List.filterMap_append]
        simp only [List.append_assoc]
      · have hstep : s.step readingsOf .send = s := by
          rw [PushPipeline.step, hout]
          exact if_neg hroom
        rw [hstep]
        exact ⟨hopen, frameFlow_refl s⟩

/-- A consumed update is counted. -/
theorem consume_flows {s : PushPipeline} (hopen : s.queue.rxClosed = false) :
    Keeps s (s.step readingsOf .consume) := by
  cases hchannel : s.channel with
  | nil =>
      rw [PushPipeline.step, hchannel]
      exact ⟨hopen, frameFlow_refl s⟩
  | cons update rest =>
      have hstep : s.step readingsOf .consume =
          { s with channel := rest, io := consumeUpdate s.io update } := by
        rw [PushPipeline.step, hchannel]
      rw [hstep]
      refine ⟨hopen, .counted update rfl ?_ rfl⟩
      have hcons : updateSequences s.channel =
          (updateSequence update).toList ++ updateSequences rest := by
        rw [hchannel]
        unfold updateSequences
        rw [List.filterMap_cons]
        cases updateSequence update <;> rfl
      show updateSequences s.channel ++ _ ++ _ ++ _ = _
      rw [hcons]
      simp only [sequencesOnTheWay, List.append_assoc]

variable (readingsOf) in
/-- Every step that drops nothing keeps the frames in order. -/
theorem step_keeps {s : PushPipeline} {step : PipelineStep} (hopen : s.queue.rxClosed = false)
    (hkeep : ¬ DropsSample s step) : Keeps s (s.step readingsOf step) := by
  cases step with
  | accept u => exact accept_flows u hopen hkeep
  | lose reason => exact lose_flows reason hopen
  | receive => exact receive_flows hopen
  | setOutput staged => exact setOutput_flows staged hopen
  | tryReceive => exact tryReceive_flows hopen hkeep
  | send => exact send_flows hopen
  | consume => exact consume_flows hopen

/-- A sample at the head of the queue, taken off it. -/
theorem pop_of_head {queue : EventQueueState}
    (hhead : (queue.deque.head?.any IoEvent.isData) = true) :
    ∃ ev queue', queue.pop = some (ev, queue') ∧ ev.isData = true := by
  cases hdeque : queue.deque with
  | nil =>
      rw [hdeque] at hhead
      cases hhead
  | cons first others =>
      rw [hdeque] at hhead
      have hpop : ∃ queue', queue.pop = some (first, queue') := by
        unfold EventQueueState.pop
        rw [hdeque]
        exact ⟨_, rfl⟩
      obtain ⟨queue', hpop⟩ := hpop
      exact ⟨first, queue', hpop, hhead⟩

variable (readingsOf) in
/-- A step that drops a sample has one frame less on its way than it was given. -/
theorem step_drops {s : PushPipeline} {step : PipelineStep} (hopen : s.queue.rxClosed = false)
    (hdrop : DropsSample s step) :
    (s.step readingsOf step).queue.rxClosed = false ∧ (s.step readingsOf step).io = s.io ∧
      (sequencesOnTheWay (s.step readingsOf step)).length + 1 + s.accepted.length =
        (sequencesOnTheWay s).length + (s.step readingsOf step).accepted.length := by
  cases step with
  | accept u =>
      obtain ⟨hclosed, hfull⟩ := hdrop
      have hstep : s.step readingsOf (.accept u) = s.accept u := by
        rw [PushPipeline.step, if_neg (by rw [hclosed]; exact Bool.false_ne_true)]
      obtain ⟨hrx, hsequences⟩ := accept_drops u hopen hfull
      rw [hstep]
      refine ⟨hrx, rfl, ?_⟩
      have hway : (sequencesOnTheWay (s.accept u)).length = (sequencesOnTheWay s).length := by
        show (_ ++ eventSequences (s.accept u).queue.deque).length = _
        rw [List.length_append, hsequences, ← List.length_append]
        rfl
      have haccepted : (s.accept u).accepted.length = s.accepted.length + 1 :=
        List.length_append
      omega
  | tryReceive =>
      obtain ⟨hout, hheld, hhead⟩ := hdrop
      obtain ⟨ev, queue, hpop, hdata⟩ := pop_of_head hhead
      obtain ⟨hdeque, hrx⟩ := pop_some hpop
      have hstep : s.step readingsOf .tryReceive =
          s.turn readingsOf queue (.tryRecv (some ev)) := by
        rw [PushPipeline.step, if_pos ⟨hout, reads_of_holdsSample hheld⟩, hpop]
      have hturn := turn_drops readingsOf hheld hdata
      have hqueue : (eventSequences s.queue.deque).length =
          (eventSequences [ev]).length + (eventSequences queue.deque).length := by
        have hcons : ev :: queue.deque = [ev] ++ queue.deque := rfl
        rw [hdeque, hcons]
        unfold eventSequences
        rw [List.filterMap_append, List.length_append]
      rw [hstep]
      refine ⟨hrx.trans hopen, rfl, ?_⟩
      have haccepted : (s.turn readingsOf queue (.tryRecv (some ev))).accepted = s.accepted := rfl
      rw [sequencesOnTheWay_turn, sequencesOnTheWay_of_outbox hout, haccepted]
      simp only [List.length_append] at hturn ⊢
      omega
  | lose _ | receive | setOutput _ | send | consume => exact hdrop.elim

end EnipAdapter.Analysis
