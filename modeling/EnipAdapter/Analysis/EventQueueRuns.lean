import EnipAdapter.Interface.QueueContract

/-!
# The event queue over any run

The census of samples is kept beside the deque and moved in four places. One invariant says what
the deque, the census and the history have to do with each other; a push finds room, evicts, or
meets a dropped receiver, and each of these, like a pop, keeps it.
-/

set_option autoImplicit false

namespace EnipAdapter.Analysis

open EnipAdapter.Model EnipAdapter.Interface

/-! ## What a push does -/

/-- The three ways of a push: the receiver is gone, the event is queued behind the others, or it
is a sample that takes the place of the oldest one in a full queue. -/
inductive PushStep (q : EventQueueState) (ev : IoEvent) :
    EventQueueState × EventQueueState.PushOutcome → Prop where
  | gone (hclosed : q.rxClosed = true) : PushStep q ev (q, .receiverGone)
  | control (hopen : q.rxClosed = false) (hev : ev.isData = false) :
      PushStep q ev ({ q with deque := q.deque ++ [ev] }, .queued)
  | room (hopen : q.rxClosed = false) (hev : ev.isData = true)
      (hroom : q.dataLen < q.capacity ∨ q.deque.countP IoEvent.isData = 0) :
      PushStep q ev ({ q with deque := q.deque ++ [ev], dataLen := q.dataLen + 1 }, .queued)
  | evict (hopen : q.rxClosed = false) (hev : ev.isData = true) {before behind : List IoEvent}
      {oldest : IoEvent} (hsplit : q.deque = before ++ oldest :: behind)
      (holdest : oldest.isData = true) (hbefore : ∀ e ∈ before, e.isData = false) :
      PushStep q ev
        ({ q with deque := before ++ behind ++ [ev], dataLen := q.dataLen - 1 + 1 },
          .evictedOldest)

/-- A push appends, after dropping one sample if the queue is full of them, or finds the receiver
gone. -/
theorem pushStep (q : EventQueueState) (ev : IoEvent) : PushStep q ev (q.pushLatestWins ev) := by
  unfold EventQueueState.pushLatestWins
  by_cases hclosed : q.rxClosed = true
  · rw [if_pos hclosed]
    exact .gone hclosed
  · have hopen : q.rxClosed = false := Bool.not_eq_true _ |>.mp hclosed
    rw [if_neg hclosed]
    by_cases hev : ev.isData = false
    · rw [if_pos hev]
      exact .control hopen hev
    · have hdata : ev.isData = true := Bool.not_eq_false _ |>.mp hev
      rw [if_neg hev]
      by_cases hfull : q.dataLen ≥ q.capacity ∧ q.deque.any IoEvent.isData
      · rw [if_pos hfull]
        obtain ⟨e, he, hedata⟩ := List.any_eq_true.mp hfull.2
        obtain ⟨oldest, before, behind, hbefore, holdest, hsplit, herase⟩ :=
          List.exists_of_eraseP he hedata
        rw [herase]
        exact .evict hopen hdata hsplit holdest fun x hx =>
          Bool.not_eq_true _ |>.mp (hbefore x hx)
      · rw [if_neg hfull]
        refine .room hopen hdata ?_
        by_cases hlen : q.dataLen < q.capacity
        · exact .inl hlen
        · refine .inr (List.countP_eq_zero.mpr ?_)
          intro x hx hxdata
          exact hfull ⟨Nat.le_of_not_lt hlen, List.any_eq_true.mpr ⟨x, hx, hxdata⟩⟩

/-! ## The invariant -/

/-- What holds of a queue and its history after any sequence of operations. -/
structure QueueInv (capacity : ℕ) (h : QueueHistory) : Prop where
  capacity_eq : h.queue.capacity = max capacity 1
  census : h.queue.dataLen = h.queue.deque.countP IoEvent.isData
  bounded : h.queue.dataLen ≤ max capacity 1
  controls_kept : h.surviving.filter (fun ev => !ev.isData) =
    h.offered.filter (fun ev => !ev.isData)
  in_order : h.surviving.Sublist h.offered
  offered_first : h.offered.Sublist h.pushed
  all_offered : h.queue.rxClosed = false → h.offered = h.pushed
  accounted : h.offered.countP IoEvent.isData =
    h.popped.countP IoEvent.isData + h.queue.deque.countP IoEvent.isData + h.evictions

/-- The history starts with an empty queue. -/
theorem queueInv_start (capacity : ℕ) : QueueInv capacity (QueueHistory.start capacity) where
  capacity_eq := rfl
  census := rfl
  bounded := Nat.zero_le _
  controls_kept := rfl
  in_order := List.Sublist.refl []
  offered_first := List.Sublist.refl []
  all_offered := fun _ => rfl
  accounted := rfl

/-- A push that the receiver is there for, whatever it does to the queue: what survives is what
survived before with the event behind it, or with one sample less. -/
theorem QueueInv.push_open {capacity : ℕ} {h : QueueHistory} (inv : QueueInv capacity h)
    (hopen : h.queue.rxClosed = false) {ev : IoEvent} {queue : EventQueueState} {evictions : ℕ}
    (hcapacity : queue.capacity = h.queue.capacity)
    (hcensus : queue.dataLen = queue.deque.countP IoEvent.isData)
    (hbounded : queue.dataLen ≤ max capacity 1)
    (hcontrols : queue.deque.filter (fun ev => !ev.isData) =
      (h.queue.deque ++ [ev]).filter (fun ev => !ev.isData))
    (horder : queue.deque.Sublist (h.queue.deque ++ [ev]))
    (hcount : queue.deque.countP IoEvent.isData + evictions =
      (h.queue.deque ++ [ev]).countP IoEvent.isData + h.evictions) :
    QueueInv capacity
      ⟨queue, h.pushed ++ [ev], h.offered ++ [ev], h.popped, evictions⟩ where
  capacity_eq := hcapacity.trans inv.capacity_eq
  census := hcensus
  bounded := hbounded
  controls_kept := by
    have hkept := inv.controls_kept
    simp only [QueueHistory.surviving, List.filter_append] at hkept hcontrols ⊢
    rw [hcontrols, ← hkept, List.append_assoc]
  in_order := by
    have hbehind := horder.append_left h.popped
    rw [← List.append_assoc] at hbehind
    exact hbehind.trans (inv.in_order.append (List.Sublist.refl [ev]))
  offered_first := inv.offered_first.append (List.Sublist.refl [ev])
  all_offered := fun _ => by rw [inv.all_offered hopen]
  accounted := by
    have haccounted := inv.accounted
    simp only [List.countP_append] at hcount ⊢
    omega

/-- A push keeps the history in order. -/
theorem QueueInv.push {capacity : ℕ} {h : QueueHistory} (inv : QueueInv capacity h) (ev : IoEvent) :
    QueueInv capacity (h.step (.push ev)) := by
  have hcensus := inv.census
  have hbounded := inv.bounded
  have hcapacity := inv.capacity_eq
  have hpush : h.step (.push ev) = ⟨(h.queue.pushLatestWins ev).1, h.pushed ++ [ev],
      if h.queue.rxClosed then h.offered else h.offered ++ [ev], h.popped,
      if (h.queue.pushLatestWins ev).2 = .evictedOldest then h.evictions + 1
      else h.evictions⟩ := rfl
  have hstep := pushStep h.queue ev
  rw [hpush]
  generalize h.queue.pushLatestWins ev = result at hstep ⊢
  cases hstep with
  | gone hclosed =>
      rw [if_pos hclosed]
      refine ⟨hcapacity, hcensus, hbounded, inv.controls_kept, inv.in_order, ?_, ?_, inv.accounted⟩
      · exact inv.offered_first.trans (List.sublist_append_left _ _)
      · intro hopen
        rw [hclosed] at hopen
        cases hopen
  | control hopen hev =>
      rw [hopen]
      refine inv.push_open hopen rfl ?_ hbounded rfl (List.Sublist.refl _) rfl
      show h.queue.dataLen = _
      simp [hcensus, hev]
  | room hopen hev hroom =>
      rw [hopen]
      refine inv.push_open hopen rfl ?_ ?_ rfl (List.Sublist.refl _) rfl
      · show h.queue.dataLen + 1 = _
        simp [hcensus, hev]
      · show h.queue.dataLen + 1 ≤ _
        cases hroom with
        | inl hlt => omega
        | inr hnone =>
            rw [hcensus, hnone]
            exact le_max_right capacity 1
  | evict hopen hev hsplit holdest hbefore =>
      rename_i before behind oldest
      have hlen : h.queue.dataLen =
          before.countP IoEvent.isData + behind.countP IoEvent.isData + 1 := by
        rw [hcensus, hsplit, List.countP_append, List.countP_cons, if_pos holdest]
        omega
      rw [hopen]
      refine inv.push_open hopen rfl ?_ ?_ ?_ ?_ ?_
      · show h.queue.dataLen - 1 + 1 = _
        simp only [List.countP_append, List.countP_singleton, hev, if_true]
        omega
      · show h.queue.dataLen - 1 + 1 ≤ _
        omega
      · show (before ++ behind ++ [ev]).filter _ = _
        simp [hsplit, holdest]
      · rw [hsplit]
        show (before ++ behind ++ [ev]).Sublist _
        apply List.Sublist.append_right
        exact (List.sublist_cons_self oldest behind).append_left before
      · rw [hsplit]
        show (before ++ behind ++ [ev]).countP _ + (h.evictions + 1) = _
        simp only [List.countP_append, List.countP_cons, holdest, if_true]
        omega

/-- So does a pop. -/
theorem QueueInv.pop {capacity : ℕ} {h : QueueHistory} (inv : QueueInv capacity h) :
    QueueInv capacity (h.step .pop) := by
  have hcensus := inv.census
  have hbounded := inv.bounded
  have haccounted := inv.accounted
  have hkept := inv.controls_kept
  have horder := inv.in_order
  unfold QueueHistory.surviving at hkept horder
  simp only [QueueHistory.step, EventQueueState.pop]
  cases hdeque : h.queue.deque with
  | nil => exact inv
  | cons ev rest =>
      rw [hdeque] at hcensus haccounted hkept horder
      have hmove : h.popped ++ [ev] ++ rest = h.popped ++ ev :: rest :=
        (List.append_cons _ _ _).symm
      refine ⟨inv.capacity_eq, ?_, ?_, ?_, ?_, inv.offered_first, inv.all_offered, ?_⟩
      · show (if ev.isData then h.queue.dataLen - 1 else h.queue.dataLen) = rest.countP _
        rw [List.countP_cons] at hcensus
        split <;> simp_all
      · show (if ev.isData then h.queue.dataLen - 1 else h.queue.dataLen) ≤ _
        split <;> omega
      · show (h.popped ++ [ev] ++ rest).filter _ = _
        rw [hmove]
        exact hkept
      · show (h.popped ++ [ev] ++ rest).Sublist _
        rw [hmove]
        exact horder
      · show h.offered.countP _ = (h.popped ++ [ev]).countP _ + rest.countP _ + h.evictions
        rw [List.countP_cons] at haccounted
        rw [List.countP_append, List.countP_singleton]
        omega

/-- So does every operation. -/
theorem QueueInv.step {capacity : ℕ} {h : QueueHistory} (inv : QueueInv capacity h) (op : QueueOp) :
    QueueInv capacity (h.step op) := by
  cases op with
  | push ev => exact inv.push ev
  | pop => exact inv.pop
  | closeReceiver =>
      refine ⟨inv.capacity_eq, inv.census, inv.bounded, inv.controls_kept, inv.in_order,
        inv.offered_first, ?_, inv.accounted⟩
      intro hopen
      cases hopen

/-- So does every run of them. -/
theorem queueInv_run (capacity : ℕ) (ops : List QueueOp) :
    QueueInv capacity (QueueHistory.run capacity ops) :=
  List.foldlRecOn ops QueueHistory.step (queueInv_start capacity) fun _ inv op _ => inv.step op

/-- An eviction takes the oldest sample, whatever the state of the queue. -/
theorem evictsOldest_of_outcome {q : EventQueueState} {ev : IoEvent}
    (h : (q.pushLatestWins ev).2 = .evictedOldest) : EvictsOldest q ev := by
  unfold EvictsOldest
  have hstep := pushStep q ev
  generalize q.pushLatestWins ev = result at hstep h ⊢
  cases hstep with
  | gone hclosed => cases h
  | control hopen hev => cases h
  | room hopen hev hroom => cases h
  | evict hopen hev hsplit holdest hbefore =>
      exact ⟨_, _, _, hsplit, holdest, hbefore, rfl⟩

/-- For every capacity and every sequence of pushes and pops, the receiver dropped at any point:
the census is exact and bounded, no control event is lost, what was popped and what is queued
stands in the order of the pushes, and every sample offered was popped, is queued, or was evicted
as the oldest of its time. -/
theorem event_queue_latest_wins (capacity : ℕ) (ops : List QueueOp) :
    LatestWins capacity (QueueHistory.run capacity ops) := by
  have inv := queueInv_run capacity ops
  exact ⟨inv.census, inv.bounded, inv.controls_kept, inv.in_order.trans inv.offered_first,
    inv.accounted, fun ev h => evictsOldest_of_outcome h⟩

end EnipAdapter.Analysis
