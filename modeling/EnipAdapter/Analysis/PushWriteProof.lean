import EnipAdapter.Analysis.PushReference
import EnipAdapter.Analysis.PushWriteInvariant
import EnipAdapter.Interface.OpenedPush
import Mathlib.Data.List.Perm.Subperm

/-!
# No refused write reaches the device

The invariant of the push write path, step by step: the session's turn, the translator's and
the manager's, and the clock. Only one turn can break it: a session that gives up on a write
the manager has accepted and the translator has not relayed. A run without that turn keeps its
promise, and one with it does not.
-/

set_option autoImplicit false

namespace EnipAdapter.Analysis

open EnipAdapter.Foundation EnipAdapter.Model EnipAdapter.Interface

variable {s : PushSystem}

/-! ## Tickets move, they are not made -/

/-- Tickets that only move, or are dropped, stay unique and issued. -/
theorem Tickets.of_subperm {s s' : PushSystem} (h : Tickets s)
    (hup : (upward s').Subperm (upward s)) (hdown : (downward s').Subperm (downward s))
    (hcalls : s'.calls = s.calls) (hreturned : s'.returned = s.returned)
    (hstate : s'.state = s.state) : Tickets s' := by
  obtain ⟨up, hupPerm, hupSub⟩ := hup
  obtain ⟨down, hdownPerm, hdownSub⟩ := hdown
  have hupMem : ∀ k ∈ upward s', k ∈ upward s :=
    fun k hk => hupSub.subset (hupPerm.symm.subset hk)
  have hdownMem : ∀ k ∈ downward s', k ∈ downward s :=
    fun k hk => hdownSub.subset (hdownPerm.symm.subset hk)
  constructor
  · intro k hk
    rw [hcalls]
    exact h.upBound k (hupMem k hk)
  · intro k hk
    rw [hcalls]
    exact h.downBound k (hdownMem k hk)
  · exact hupPerm.nodup (hupSub.nodup h.upNodup)
  · exact hdownPerm.nodup (hdownSub.nodup h.downNodup)
  · rw [hcalls, hreturned]
    exact h.returnedBound
  · rw [hcalls, hreturned, hstate]
    exact h.current
  · intro w hw
    rw [hstate] at hw
    obtain ⟨hu, hd⟩ := h.fresh w hw
    exact ⟨fun hk => hu (hupMem _ hk), fun hk => hd (hdownMem _ hk)⟩

/-- A call that returns stays issued. -/
theorem Tickets.finish (h : Tickets s) {w : PendingWrite}
    (hstate : s.state = .handoff w ∨ s.state = .awaiting w) (result : Except DeviceError Unit) :
    Tickets (s.finish w.call result) where
  upBound := h.upBound
  downBound := h.downBound
  upNodup := h.upNodup
  downNodup := h.downNodup
  returnedBound := by
    intro k hk
    rw [PushSystem.finish, List.map_append, List.mem_append] at hk
    rcases hk with hk | hk
    · exact h.returnedBound k hk
    · rw [List.mem_singleton.mp hk]
      exact (h.current w hstate).1
  current := by rintro v (hv | hv) <;> cases hv
  fresh := by
    intro v hv
    cases hv

/-! ## The session's turn -/

/-- While no call awaits an answer, nothing on its way is before its deadline. -/
theorem Deadlines.expired (h : Deadlines s) (hstate : ∀ w : PendingWrite, s.state ≠ .awaiting w) :
    ∀ m ∈ onTheWay s, m.deadline ≤ s.now := by
  intro m hm
  rcases h m hm with hlate | ⟨hawait, -⟩
  · exact hlate
  · exact absurd hawait (hstate m)

/-- A call ends with an error: nothing of it is accepted, and nothing of it can be. -/
theorem PushInv.finishError (h : PushInv s) {w : PendingWrite} (e : DeviceError)
    (hstate : s.state = .handoff w ∨ s.state = .awaiting w) (hrefused : ¬Accepted s w.call)
    (hlate : ∀ m ∈ onTheWay s, m.deadline ≤ s.now) : PushInv (s.finish w.call (.error e)) where
  tickets := h.tickets.finish hstate (.error e)
  queues := ⟨h.queues.commands, h.queues.stopped, h.queues.ended, h.queues.confirming⟩
  deadlines := fun m hm => .inl (hlate m hm)
  answers :=
    { ackOk := h.answers.ackOk
      ackError := h.answers.ackError
      returnedOk := by
        intro k hk
        rcases List.mem_append.mp hk with hk | hk
        · exact h.answers.returnedOk k hk
        · cases List.mem_singleton.mp hk
      returnedError := by
        intro k e' hk
        rcases List.mem_append.mp hk with hk | hk
        · exact h.answers.returnedError k e' hk
        · cases List.mem_singleton.mp hk
          exact hrefused
      relay := h.answers.relay
      disposition := by
        intro k hk
        rcases h.answers.disposition k hk with hok | ⟨v, hv, hcall⟩
        · exact .inl (List.mem_append_left _ hok)
        · -- the only waiting call is the one that was refused
          rcases hstate with hw | hw
          · rw [hw] at hv
            cases hv
          · rw [hw] at hv
            cases hv
            exact absurd (hcall ▸ hk) hrefused
      installed := h.answers.installed }
  image := by
    intro conn hconn haccepted
    constructor
    · intro v hv
      cases hv
    · refine fun _ => (h.image conn hconn haccepted).2 fun v hv => ?_
      rcases hstate with hw | hw
      · rw [hw] at hv
        cases hv
      · rw [hw] at hv
        cases hv
        exact hrefused

/-- A call ends with `Ok`: the session adopts the image the producer holds. -/
theorem PushInv.finishOk (h : PushInv s) {w : PendingWrite} (hstate : s.state = .awaiting w)
    (haccepted : Accepted s w.call) (hlate : ∀ m ∈ onTheWay s, m.deadline ≤ s.now) :
    PushInv { s.finish w.call (.ok ()) with session := { s.session with outBuf := w.bytes } } where
  tickets :=
    let h' := h.tickets.finish (.inr hstate) (.ok ())
    ⟨h'.upBound, h'.downBound, h'.upNodup, h'.downNodup, h'.returnedBound, h'.current, h'.fresh⟩
  queues := ⟨h.queues.commands, h.queues.stopped, h.queues.ended, h.queues.confirming⟩
  deadlines := fun m hm => .inl (hlate m hm)
  answers :=
    { ackOk := h.answers.ackOk
      ackError := h.answers.ackError
      returnedOk := by
        intro k hk
        rcases List.mem_append.mp hk with hk | hk
        · exact h.answers.returnedOk k hk
        · cases List.mem_singleton.mp hk
          exact haccepted
      returnedError := by
        intro k e' hk
        rcases List.mem_append.mp hk with hk | hk
        · exact h.answers.returnedError k e' hk
        · cases List.mem_singleton.mp hk
      relay := h.answers.relay
      disposition := by
        intro k hk
        rcases h.answers.disposition k hk with hok | ⟨v, hv, hcall⟩
        · exact .inl (List.mem_append_left _ hok)
        · rw [hstate] at hv
          cases hv
          rw [← hcall]
          exact .inl (List.mem_append_right _ List.mem_cons_self)
      installed := h.answers.installed }
  image := by
    intro conn hconn hsome
    constructor
    · intro v hv
      cases hv
    · exact fun _ => (h.image conn hconn hsome).1 w hstate haccepted

/-- A call is handed to the translator. -/
theorem PushInv.enqueue (h : PushInv s) {w : PendingWrite} (hstate : s.state = .handoff w)
    (hlive : s.translator ≠ .ended) :
    PushInv { s with control := s.control ++ [w], state := .awaiting w } := by
  obtain ⟨hup, hdown⟩ := h.tickets.fresh w hstate
  obtain ⟨hcall, hopen⟩ := h.tickets.current w (.inl hstate)
  have hidle : ∀ v : PendingWrite, s.state ≠ .awaiting v := by simp [hstate]
  have hupPerm : (upward { s with control := s.control ++ [w], state := .awaiting w }).Perm
      (w.call :: upward s) := by
    simp only [upward, held, List.map_append, List.map_cons, List.map_nil, List.append_assoc,
      List.cons_append, List.nil_append]
    exact List.perm_middle
  have hdownPerm : (downward { s with control := s.control ++ [w], state := .awaiting w }).Perm
      (w.call :: downward s) := by
    simp only [downward, handing, queued, List.map_append, List.map_cons, List.map_nil,
      List.append_assoc, List.cons_append, List.nil_append]
    exact List.perm_middle
  have hnew : ¬Accepted s w.call := fun hk => hdown (List.mem_append_right _ hk.mem)
  refine ⟨⟨?_, ?_, ?_, ?_, h.tickets.returnedBound, ?_, ?_⟩,
    ⟨h.queues.commands, h.queues.stopped, fun hended => absurd hended hlive,
      h.queues.confirming⟩, ?_,
    ⟨h.answers.ackOk, h.answers.ackError, h.answers.returnedOk, h.answers.returnedError,
      h.answers.relay, ?_, h.answers.installed⟩, ?_⟩
  · intro k hk
    rcases List.mem_cons.mp (hupPerm.subset hk) with rfl | hk
    · exact hcall
    · exact h.tickets.upBound k hk
  · intro k hk
    rcases List.mem_cons.mp (hdownPerm.subset hk) with rfl | hk
    · exact hcall
    · exact h.tickets.downBound k hk
  · exact hupPerm.symm.nodup (List.nodup_cons.mpr ⟨hup, h.tickets.upNodup⟩)
  · exact hdownPerm.symm.nodup (List.nodup_cons.mpr ⟨hdown, h.tickets.downNodup⟩)
  · rintro v (hv | hv) <;> cases hv
    exact ⟨hcall, hopen⟩
  · intro v hv
    cases hv
  · intro m hm
    simp only [onTheWay, List.append_assoc, List.mem_append, List.mem_singleton] at hm
    have hold : m ∈ onTheWay s ∨ m = w := by
      simp only [onTheWay, List.append_assoc, List.mem_append]
      rcases hm with hm | hm | hm | hm
      · exact .inl (.inl hm)
      · exact .inr hm
      · exact .inl (.inr (.inl hm))
      · exact .inl (.inr (.inr hm))
    rcases hold with hm | rfl
    · exact .inl (h.deadlines.expired hidle m hm)
    · exact .inr ⟨rfl, fun hk => hup (List.mem_append_right _ hk)⟩
  · intro k hk
    rcases h.answers.disposition k hk with hok | ⟨v, hv, -⟩
    · exact .inl hok
    · exact absurd hv (hidle v)
  · intro conn hconn haccepted
    constructor
    · intro v hv hv'
      cases hv
      exact absurd hv' hnew
    · exact fun _ => (h.image conn hconn haccepted).2 fun v hv => absurd hv (hidle v)

/-- The session's turn keeps the invariant, unless it gives up on an accepted write. -/
theorem PushInv.pollSession (h : PushInv s) (hguard : NoLateAcceptance s .session) :
    PushInv s.pollSession := by
  unfold PushSystem.pollSession
  cases hstate : s.state with
  | idle => exact h
  | handoff w =>
    have hlate := h.deadlines.expired (by simp [hstate])
    have hnew : ¬Accepted s w.call :=
      fun hk => (h.tickets.fresh w hstate).2 (List.mem_append_right _ hk.mem)
    simp only
    split
    · exact h.finishError _ (.inl hstate) hnew hlate
    · rename_i hlive
      split
      · exact h.enqueue hstate hlive
      · split
        · exact h.finishError _ (.inl hstate) hnew hlate
        · exact h
  | awaiting w =>
    -- whatever is on its way and not past its deadline is the call itself, unanswered
    have hcurrent : ∀ m ∈ onTheWay s, m.deadline ≤ s.now ∨
        m = w ∧ w.call ∉ s.acks.map Prod.fst := by
      intro m hm
      rcases h.deadlines m hm with hlate | ⟨hawait, hopen⟩
      · exact .inl hlate
      · rw [hstate] at hawait
        cases hawait
        exact .inr ⟨rfl, hopen⟩
    simp only
    cases hack : s.acks.lookup w.call with
    | some verdict =>
      have hmem := mem_of_lookup hack
      have hlate : ∀ m ∈ onTheWay s, m.deadline ≤ s.now := by
        intro m hm
        rcases hcurrent m hm with hlate | ⟨-, hopen⟩
        · exact hlate
        · exact absurd (List.mem_map_of_mem hmem) hopen
      cases verdict with
      | ok u => exact h.finishOk hstate (h.answers.ackOk w.call hmem) hlate
      | error e =>
        exact h.finishError e (.inr hstate) (h.answers.ackError w.call e hmem) hlate
    | none =>
      have hopen := not_mem_of_lookup hack
      simp only
      split
      · -- the translator is gone: nothing of the call is left, and nothing was accepted
        rename_i hended
        refine h.finishError _ (.inr hstate) (fun hk => ?_) fun m hm => ?_
        · rcases h.answers.relay w.call hk with hacked | ⟨v, hv, -⟩
          · exact hopen hacked
          · rw [hended] at hv
            cases hv
        · rcases hcurrent m hm with hlate | ⟨rfl, -⟩
          · exact hlate
          · simp only [onTheWay, h.queues.ended hended, held, hended, List.nil_append] at hm
            rcases h.queues.confirming m hm with hacked | hconf
            · exact absurd hacked hopen
            · rw [hended] at hconf
              cases hconf
      · split
        · rename_i hdeadline
          refine h.finishError _ (.inr hstate) (fun hk => ?_) fun m hm => ?_
          · have hverdict := h.tickets.lookup_accepted hk
            simp [NoLateAcceptance, givesUpLate, hstate, hack, hdeadline, hverdict] at hguard
          · rcases hcurrent m hm with hlate | ⟨rfl, -⟩
            · exact hlate
            · exact hdeadline
        · exact h

/-- A call is issued with the next number, which is nobody's yet. -/
theorem PushInv.issue (h : PushInv s) (hstate : s.state = .idle) (image : Bytes)
    (deadline : Instant) :
    PushInv { s with calls := s.calls + 1, state := .handoff ⟨s.calls, image, deadline⟩ } := by
  have hidle : ∀ v : PendingWrite, s.state ≠ .awaiting v := by simp [hstate]
  refine ⟨⟨fun k hk => Nat.lt_succ_of_lt (h.tickets.upBound k hk),
      fun k hk => Nat.lt_succ_of_lt (h.tickets.downBound k hk), h.tickets.upNodup,
      h.tickets.downNodup, fun k hk => Nat.lt_succ_of_lt (h.tickets.returnedBound k hk), ?_, ?_⟩,
    ⟨h.queues.commands, h.queues.stopped, h.queues.ended, h.queues.confirming⟩,
    fun m hm => .inl (h.deadlines.expired hidle m hm),
    ⟨h.answers.ackOk, h.answers.ackError, h.answers.returnedOk, h.answers.returnedError,
      h.answers.relay, ?_, h.answers.installed⟩, ?_⟩
  · rintro v (hv | hv) <;> cases hv
    exact ⟨Nat.lt_succ_self _, fun hk => lt_irrefl _ (h.tickets.returnedBound _ hk)⟩
  · intro v hv
    cases hv
    exact ⟨fun hk => lt_irrefl _ (h.tickets.upBound _ hk),
      fun hk => lt_irrefl _ (h.tickets.downBound _ hk)⟩
  · intro k hk
    rcases h.answers.disposition k hk with hok | ⟨v, hv, -⟩
    · exact .inl hok
    · exact absurd hv (hidle v)
  · intro conn hconn haccepted
    constructor
    · intro v hv
      cases hv
    · exact fun _ => (h.image conn hconn haccepted).2 fun v hv => absurd hv (hidle v)

/-- A call begins: it fails at once, or its image waits to be handed over. -/
theorem PushInv.beginCall (h : PushInv s) (field : IoFieldSpec) (value : Json) :
    PushInv (s.beginCall field value) := by
  unfold PushSystem.beginCall
  cases hstate : s.state with
  | handoff w => exact h
  | awaiting w => exact h
  | idle =>
    simp only
    cases s.session.candidate field value with
    | error e =>
      -- a call that fails at once was issued and gave up before it handed anything over
      have hissued := h.issue hstate [] s.now
      have hnew : ¬Accepted s s.calls := fun hk =>
        lt_irrefl _ (h.tickets.downBound _ (List.mem_append_right _ hk.mem))
      exact hissued.finishError e (.inl rfl) hnew
        (hissued.deadlines.expired fun v hv => by cases hv)
    | ok image => exact h.issue hstate image _

/-! ## The translator's turn -/

/-- While the translator waits for no verdict, everything the manager has or had is answered. -/
theorem PushInv.all_answered (h : PushInv s)
    (hfree : ∀ v : PendingWrite, s.translator ≠ .confirming v) :
    (∀ m ∈ queued s, m.call ∈ s.acks.map Prod.fst) ∧
      ∀ k : ℕ, Accepted s k → k ∈ s.acks.map Prod.fst := by
  constructor
  · intro m hm
    exact (h.queues.confirming m hm).resolve_right (hfree m)
  · intro k hk
    rcases h.answers.relay k hk with hacked | ⟨v, hv, -⟩
    · exact hacked
    · exact absurd hv (hfree v)

/-- The translator takes the next write off its queue. -/
theorem PushInv.take (h : PushInv s) {w : PendingWrite} {rest : List PendingWrite}
    (hcontrol : s.control = w :: rest) (htranslator : s.translator = .listening) :
    PushInv { s with control := rest, translator := .handing w } := by
  obtain ⟨hqueued, haccepted⟩ := h.all_answered (by simp [htranslator])
  have hway : ∀ m, m ∈ onTheWay { s with control := rest, translator := .handing w } →
      m ∈ onTheWay s := by
    intro m hm
    simp only [onTheWay, held, queued, hcontrol, htranslator, List.mem_append, List.mem_cons,
      List.not_mem_nil, or_false] at hm ⊢
    tauto
  refine ⟨h.tickets.of_subperm ?_ ?_ rfl rfl rfl,
    ⟨h.queues.commands, h.queues.stopped, ?_, ?_⟩, fun m hm => h.deadlines m (hway m hm),
    ⟨h.answers.ackOk, h.answers.ackError, h.answers.returnedOk, h.answers.returnedError, ?_,
      h.answers.disposition, h.answers.installed⟩, h.image⟩
  · refine List.Perm.subperm ?_
    simp only [upward, held, hcontrol, htranslator, List.map_cons, List.map_nil,
      List.append_assoc, List.cons_append, List.nil_append]
    exact List.perm_middle
  · refine List.Perm.subperm ?_
    simp only [downward, handing, queued, hcontrol, htranslator, List.map_cons, List.map_nil,
      List.append_assoc, List.cons_append, List.nil_append]
    exact List.perm_middle
  · intro hended
    cases hended
  · exact fun m hm => .inl (hqueued m hm)
  · exact fun k hk => .inl (haccepted k hk)

/-- The translator gives an answer and moves on. -/
def reply (s : PushSystem) (call : ℕ) (verdict : Except DeviceError Unit)
    (next : TranslatorState) : PushSystem :=
  { s with acks := s.acks ++ [(call, verdict)], translator := next }

/-- The write the translator holds is unanswered, and its number is no other's: not in the
control queue, and in the manager's queue only for the write itself. -/
theorem PushInv.held_unique (h : PushInv s) {w : PendingWrite}
    (hheld : s.translator = .handing w ∨ s.translator = .confirming w) :
    w.call ∉ s.acks.map Prod.fst ∧ (∀ m ∈ s.control, m.call ≠ w.call) ∧
      ∀ m ∈ queued s, m.call = w.call → m = w := by
  have hheldS : held s = [w] := by
    rcases hheld with hw | hw <;> simp only [held, hw]
  have hnodup := h.tickets.upNodup
  rw [upward, hheldS, List.append_assoc, List.nodup_append] at hnodup
  obtain ⟨-, hnodup, hapart⟩ := hnodup
  have hopen : w.call ∉ s.acks.map Prod.fst := (List.nodup_cons.mp hnodup).1
  refine ⟨hopen, fun m hm => hapart _ (List.mem_map_of_mem hm) _ List.mem_cons_self, ?_⟩
  intro m hm hcall
  rcases h.queues.confirming m hm with hacked | hconf
  · exact absurd (hcall ▸ hacked) hopen
  · rcases hheld with hw | hw <;> rw [hw] at hconf <;> cases hconf
    rfl

/-- The translator answers the write it holds: `Ok` for an accepted one and an error for any
other, which the manager can then no longer accept. -/
theorem PushInv.reply (h : PushInv s) {w : PendingWrite} {verdict : Except DeviceError Unit}
    {next : TranslatorState} (hheld : s.translator = .handing w ∨ s.translator = .confirming w)
    (hverdict : verdict = .ok () ↔ Accepted s w.call)
    (hqueued : w ∈ queued s → w.deadline ≤ s.now)
    (hnext : next = .listening ∨ next = .closing) : PushInv (reply s w.call verdict next) := by
  have hheldS : held s = [w] := by
    rcases hheld with hw | hw <;> simp only [held, hw]
  have hheldR : held (Analysis.reply s w.call verdict next) = [] := by
    rcases hnext with rfl | rfl <;> rfl
  have hhandingR : handing (Analysis.reply s w.call verdict next) = [] := by
    rcases hnext with rfl | rfl <;> rfl
  have hacks : (Analysis.reply s w.call verdict next).acks.map Prod.fst =
      s.acks.map Prod.fst ++ [w.call] := List.map_append
  obtain ⟨-, hcontrol, hsame⟩ := h.held_unique hheld
  refine ⟨h.tickets.of_subperm ?_ ?_ rfl rfl rfl,
    ⟨h.queues.commands, h.queues.stopped, ?_, ?_⟩, ?_,
    ⟨?_, ?_, h.answers.returnedOk, h.answers.returnedError, ?_, h.answers.disposition,
      h.answers.installed⟩, h.image⟩
  · refine List.Perm.subperm ?_
    rw [upward, upward, hheldR, hheldS, hacks, List.map_nil, List.append_nil, List.append_assoc]
    exact List.Perm.append_left _ (List.perm_append_singleton _ _)
  · refine List.Sublist.subperm ?_
    rw [downward, downward, hhandingR, List.map_nil, List.append_nil, List.append_assoc,
      List.append_assoc, List.append_assoc]
    exact (List.sublist_append_right _ _).append_left _
  · intro hended
    rcases hnext with rfl | rfl <;> cases hended
  · intro m hm
    rw [hacks, List.mem_append]
    rcases h.queues.confirming m hm with hacked | hconf
    · exact .inl (.inl hacked)
    · rcases hheld with hw | hw <;> rw [hw] at hconf <;> cases hconf
      exact .inl (.inr List.mem_cons_self)
  · intro m hm
    rw [onTheWay, hheldR, List.append_nil, List.mem_append] at hm
    have hold : m ∈ onTheWay s := by
      rw [onTheWay, List.append_assoc, List.mem_append, List.mem_append]
      exact hm.imp_right Or.inr
    rcases h.deadlines m hold with hlate | ⟨hstate, hunanswered⟩
    · exact .inl hlate
    · by_cases hcall : m.call = w.call
      · rcases hm with hm | hm
        · exact absurd hcall (hcontrol m hm)
        · rw [hsame m hm hcall]
          exact .inl (hqueued (hsame m hm hcall ▸ hm))
      · refine .inr ⟨hstate, ?_⟩
        rw [hacks, List.mem_append, List.mem_singleton]
        rintro (hacked | heq)
        · exact hunanswered hacked
        · exact hcall heq
  · intro k hk
    rcases List.mem_append.mp hk with hk | hk
    · exact h.answers.ackOk k hk
    · cases List.mem_singleton.mp hk
      exact hverdict.mp rfl
  · intro k e hk
    rcases List.mem_append.mp hk with hk | hk
    · exact h.answers.ackError k e hk
    · cases List.mem_singleton.mp hk
      intro haccepted
      cases hverdict.mpr haccepted
  · intro k hk
    rw [hacks, List.mem_append]
    rcases h.answers.relay k hk with hacked | ⟨v, hv, hcall⟩
    · exact .inl (.inl hacked)
    · rcases hheld with hw | hw <;> rw [hw] at hv <;> cases hv
      exact .inl (.inr (List.mem_singleton.mpr hcall.symm))

/-- A write the translator has not handed on is neither accepted nor in the manager's queue. -/
theorem Tickets.handing_apart (h : Tickets s) {w : PendingWrite}
    (htranslator : s.translator = .handing w) : ¬Accepted s w.call ∧ w ∉ queued s := by
  have hnodup := h.downNodup
  rw [downward, List.append_assoc, List.nodup_append] at hnodup
  have hapart := hnodup.2.2 w.call (by simp [handing, htranslator])
  constructor
  · exact fun hk => hapart _ (List.mem_append_right _ hk.mem) rfl
  · exact fun hw => hapart _ (List.mem_append_left _ (List.mem_map_of_mem hw)) rfl

/-- A write with a verdict is not in the manager's queue. -/
theorem Tickets.verdict_apart (h : Tickets s) {w : PendingWrite}
    (hk : w.call ∈ s.verdicts.map Prod.fst) : w ∉ queued s := by
  have hnodup := h.downNodup
  rw [downward, List.nodup_append] at hnodup
  exact fun hw => hnodup.2.2 w.call (List.mem_append_right _ (List.mem_map_of_mem hw)) _ hk rfl

/-- The translator hands a write to the manager. -/
theorem PushInv.push (h : PushInv s) {w : PendingWrite} (htranslator : s.translator = .handing w)
    (hrunning : s.manager.running ≠ false) :
    PushInv { s with
      commands := s.commands ++
        [.setOutput s.handle.connectionId w.bytes (some w.deadline) (some w.call)]
      translator := .confirming w } := by
  obtain ⟨hwaiting, haccepted⟩ := h.all_answered (by simp [htranslator])
  have hqueued : (s.commands ++ [ManagerCommand.setOutput s.handle.connectionId w.bytes
      (some w.deadline) (some w.call)]).filterMap writeOf = s.commands.filterMap writeOf ++ [w] :=
    List.filterMap_append
  refine ⟨h.tickets.of_subperm ?_ ?_ rfl rfl rfl,
    ⟨?_, fun hstopped => absurd hstopped hrunning, ?_, ?_⟩, ?_,
    ⟨h.answers.ackOk, h.answers.ackError, h.answers.returnedOk, h.answers.returnedError, ?_,
      h.answers.disposition, h.answers.installed⟩, h.image⟩
  · refine List.Perm.subperm ?_
    simp only [upward, held, htranslator, List.Perm.refl]
  · refine List.Perm.subperm ?_
    simp only [downward, handing, queued, htranslator, hqueued, List.map_append, List.map_cons,
      List.map_nil, List.append_nil, List.append_assoc, List.cons_append, List.nil_append]
    exact List.Perm.append_left _ List.perm_middle
  · intro c hc
    rcases List.mem_append.mp hc with hc | hc
    · exact h.queues.commands c hc
    · rw [List.mem_singleton.mp hc]
      exact .staging w
  · intro hended
    cases hended
  · intro m hm
    rw [queued, hqueued] at hm
    rcases List.mem_append.mp hm with hm | hm
    · exact .inl (hwaiting m hm)
    · rw [List.mem_singleton.mp hm]
      exact .inr rfl
  · intro m hm
    refine h.deadlines m ?_
    simp only [onTheWay, held, queued, htranslator, hqueued, List.mem_append,
      List.mem_singleton] at hm ⊢
    tauto
  · exact fun k hk => .inl (haccepted k hk)

/-- The translator leaves its loop, or its task: it holds nothing then, and what it adds to the
manager's queue carries no write. -/
theorem PushInv.leave (h : PushInv s) {next : TranslatorState} {control : List PendingWrite}
    (added : List ManagerCommand)
    (htranslator : s.translator = .listening ∨ s.translator = .closing)
    (hnext : next = .closing ∧ control = s.control ∨ next = .ended ∧ control = [])
    (hadded : ∀ c ∈ added, Issued s.handle.connectionId c ∧ writeOf c = none)
    (hstopped : s.manager.running = false → added = []) :
    PushInv { s with
      commands := s.commands ++ added, translator := next, control := control } := by
  have hsub : control.Sublist s.control := by
    rcases hnext with ⟨-, rfl⟩ | ⟨-, rfl⟩
    · exact List.Sublist.refl _
    · exact List.nil_sublist _
  have hheld : held s = [] ∧ handing s = [] := by
    rcases htranslator with ht | ht <;> simp only [held, handing, ht, and_self]
  have hheld' : held { s with
      commands := s.commands ++ added, translator := next, control := control } = [] ∧
      handing { s with
        commands := s.commands ++ added, translator := next, control := control } = [] := by
    rcases hnext with ⟨rfl, -⟩ | ⟨rfl, -⟩ <;> exact ⟨rfl, rfl⟩
  have hqueued : (s.commands ++ added).filterMap writeOf = s.commands.filterMap writeOf := by
    have hnone : added.filterMap writeOf = [] := by
      rw [List.filterMap_eq_nil_iff]
      exact fun c hc => (hadded c hc).2
    rw [List.filterMap_append, hnone, List.append_nil]
  obtain ⟨hwaiting, haccepted⟩ := h.all_answered (by
    rcases htranslator with ht | ht <;> simp [ht])
  refine ⟨h.tickets.of_subperm ?_ ?_ rfl rfl rfl, ⟨?_, ?_, ?_, ?_⟩, ?_,
    ⟨h.answers.ackOk, h.answers.ackError, h.answers.returnedOk, h.answers.returnedError, ?_,
      h.answers.disposition, h.answers.installed⟩, h.image⟩
  · refine List.Sublist.subperm ?_
    rw [upward, upward, hheld.1, hheld'.1]
    exact ((hsub.map _).append_right _).append_right _
  · refine List.Sublist.subperm ?_
    rw [downward, downward, hheld.2, hheld'.2, queued, hqueued]
    exact (((hsub.map _).append_right _).append_right _).append_right _
  · intro c hc
    rcases List.mem_append.mp hc with hc | hc
    · exact h.queues.commands c hc
    · exact (hadded c hc).1
  · intro hrunning
    simp only [h.queues.stopped hrunning, hstopped hrunning, List.append_nil]
  · intro hended
    rcases hnext with ⟨rfl, -⟩ | ⟨-, rfl⟩
    · cases hended
    · rfl
  · intro m hm
    rw [queued, hqueued] at hm
    exact .inl (hwaiting m hm)
  · intro m hm
    refine h.deadlines m ?_
    rw [onTheWay, hheld'.1, queued, hqueued] at hm
    rw [onTheWay, hheld.1]
    exact ((hsub.append_right _).append_right _).subset hm
  · exact fun k hk => .inl (haccepted k hk)

/-- The answer to a closed staging is one of the translator's. -/
theorem answerClosed_eq (s : PushSystem) (call : ℕ) (drained : List IoEvent) :
    ∃ next, (next = .listening ∨ next = .closing) ∧ s.answerClosed call drained =
      reply s call (.error (closedVerdict (PushSystem.lostAmong drained))) next := by
  cases hlost : (PushSystem.lostAmong drained).isSome with
  | true =>
    refine ⟨.closing, .inr rfl, ?_⟩
    simp [PushSystem.answerClosed, PushSystem.answer, reply, hlost]
  | false =>
    refine ⟨.listening, .inl rfl, ?_⟩
    simp [PushSystem.answerClosed, PushSystem.answer, reply, hlost]

/-- The translator refuses the write it holds. -/
theorem PushInv.refuse (h : PushInv s) {w : PendingWrite} (e : DeviceError)
    {next : TranslatorState} (hheld : s.translator = .handing w ∨ s.translator = .confirming w)
    (hrefused : ¬Accepted s w.call) (hqueued : w ∈ queued s → w.deadline ≤ s.now)
    (hnext : next = .listening ∨ next = .closing) :
    PushInv (Analysis.reply s w.call (.error e) next) := by
  refine h.reply hheld ⟨fun he => ?_, fun hk => absurd hk hrefused⟩ hqueued hnext
  cases he

/-- The translator refuses it as closed. -/
theorem PushInv.refuseClosed (h : PushInv s) {w : PendingWrite} (drained : List IoEvent)
    (hheld : s.translator = .handing w ∨ s.translator = .confirming w)
    (hrefused : ¬Accepted s w.call) (hqueued : w ∈ queued s → w.deadline ≤ s.now) :
    PushInv (s.answerClosed w.call drained) := by
  obtain ⟨next, hnext, heq⟩ := answerClosed_eq s w.call drained
  rw [heq]
  exact h.refuse _ hheld hrefused hqueued hnext

/-- The translator looks for the manager's verdict on the write it handed on. -/
theorem PushInv.confirm (h : PushInv s) {w : PendingWrite}
    (htranslator : s.translator = .confirming w) (drained : List IoEvent) :
    PushInv (s.pollTranslator (.staging drained)) := by
  simp only [PushSystem.pollTranslator, htranslator]
  cases hverdict : s.verdicts.lookup w.call with
  | none =>
    have hrefused : ¬Accepted s w.call :=
      fun hk => not_mem_of_lookup hverdict hk.mem
    simp only
    split
    · rename_i hstopped
      refine h.refuseClosed drained (.inr htranslator) hrefused fun hw => ?_
      rw [queued, h.queues.stopped hstopped] at hw
      cases hw
    · split
      · rename_i hdeadline
        exact h.refuse _ (.inr htranslator) hrefused (fun _ => hdeadline) (.inl rfl)
      · exact h
  | some verdict =>
    have hmem := mem_of_lookup hverdict
    have hapart : w ∉ queued s := h.tickets.verdict_apart (List.mem_map_of_mem hmem)
    have hqueued : w ∈ queued s → w.deadline ≤ s.now := fun hw => absurd hw hapart
    cases verdict with
    | ok u =>
      exact h.reply (.inr htranslator) ⟨fun _ => hmem, fun _ => rfl⟩ hqueued (.inl rfl)
    | error e =>
      have hrefused : ¬Accepted s w.call := by
        intro hk
        rw [h.tickets.lookup_accepted hk] at hverdict
        cases hverdict
      cases e <;> simp only
      case closed => exact h.refuseClosed drained (.inr htranslator) hrefused hqueued
      all_goals exact h.refuse _ (.inr htranslator) hrefused hqueued (.inl rfl)

/-- The translator's turn keeps the invariant. -/
theorem PushInv.pollTranslator (h : PushInv s) (poll : TranslatorPoll) :
    PushInv (s.pollTranslator poll) := by
  unfold PushSystem.pollTranslator
  cases htranslator : s.translator with
  | listening =>
    cases poll with
    | staging drained => exact h
    | events taken streamClosed =>
      simp only
      split
      · have hclosing := h.leave [] (.inl htranslator) (.inl ⟨rfl, rfl⟩)
          (fun c hc => absurd hc List.not_mem_nil) (fun _ => rfl)
        simpa only [List.append_nil] using hclosing
      · exact h
    | control =>
      simp only
      cases hcontrol : s.control with
      | nil => exact h
      | cons w rest =>
        have htaken := h.take hcontrol htranslator
        simp only
        cases s.handle.validateOutput w.bytes with
        | ok u => exact htaken
        | error e =>
          obtain ⟨hrefused, hapart⟩ := htaken.tickets.handing_apart rfl
          exact htaken.refuse _ (.inl rfl) hrefused (fun hw => absurd hw hapart) (.inl rfl)
  | handing w =>
    obtain ⟨hrefused, hapart⟩ := h.tickets.handing_apart htranslator
    have hqueued : w ∈ queued s → w.deadline ≤ s.now := fun hw => absurd hw hapart
    cases poll with
    | events taken streamClosed => exact h
    | control => exact h
    | staging drained =>
      simp only
      split
      · exact h.refuseClosed drained (.inl htranslator) hrefused hqueued
      · rename_i hrunning
        split
        · exact h.push htranslator hrunning
        · split
          · exact h.refuse _ (.inl htranslator) hrefused hqueued (.inl rfl)
          · exact h
  | confirming w =>
    cases poll with
    | events taken streamClosed => exact h
    | control => exact h
    | staging drained =>
      have hconfirmed := h.confirm htranslator drained
      simpa only [PushSystem.pollTranslator, htranslator] using hconfirmed
  | closing =>
    simp only
    split
    · have hended := h.leave [] (.inr htranslator) (.inr ⟨rfl, rfl⟩)
        (fun c hc => absurd hc List.not_mem_nil) (fun _ => rfl)
      simpa only [List.append_nil] using hended
    · rename_i hrunning
      split
      · refine h.leave _ (.inr htranslator) (.inr ⟨rfl, rfl⟩) (fun c hc => ?_)
          (fun hstopped => absurd hstopped hrunning)
        rcases List.mem_pair.mp hc with rfl | rfl
        · exact ⟨.removal, rfl⟩
        · exact ⟨.stop, rfl⟩
      · exact h
  | ended => exact h

/-! ## The manager's turn -/

/-- A turn of the manager that accepts nothing and changes no producer. -/
theorem PushInv.turn (h : PushInv s) (manager : Manager) {commands : List ManagerCommand}
    {verdicts : List (ℕ × Except EnipError Unit)}
    (hkeeps : KeepsProducers s.manager.registry.conns manager.registry.conns)
    (hcommands : commands.Sublist s.commands)
    (hstopped : manager.running = false → commands = [])
    (hmoved : ((commands.filterMap writeOf).map (·.call) ++ verdicts.map Prod.fst).Subperm
      ((queued s).map (·.call) ++ s.verdicts.map Prod.fst))
    (haccepted : ∀ k : ℕ, (k, .ok ()) ∈ verdicts ↔ Accepted s k) :
    PushInv { s with manager := manager, commands := commands, verdicts := verdicts } := by
  have hqueued : (commands.filterMap writeOf).Sublist (queued s) := hcommands.filterMap writeOf
  refine ⟨h.tickets.of_subperm (List.Subperm.refl _) ?_ rfl rfl rfl,
    ⟨fun c hc => h.queues.commands c (hcommands.subset hc), hstopped, h.queues.ended,
      fun m hm => h.queues.confirming m (hqueued.subset hm)⟩,
    fun m hm => h.deadlines m ((hqueued.append_left _).subset hm),
    ⟨fun k hk => (haccepted k).mpr (h.answers.ackOk k hk),
      fun k e hk hk' => h.answers.ackError k e hk ((haccepted k).mp hk'),
      fun k hk => (haccepted k).mpr (h.answers.returnedOk k hk),
      fun k e hk hk' => h.answers.returnedError k e hk ((haccepted k).mp hk'),
      fun k hk => h.answers.relay k ((haccepted k).mp hk),
      fun k hk => h.answers.disposition k ((haccepted k).mp hk),
      fun k bytes hk => (haccepted k).mpr (h.answers.installed k bytes hk)⟩, ?_⟩
  · simp only [downward, handing, queued, List.append_assoc]
    rw [List.subperm_append_left, List.subperm_append_left]
    exact hmoved
  · intro conn hconn hsome
    obtain ⟨k, hk⟩ := hsome
    obtain ⟨before, hbefore, hsame⟩ := hkeeps _ conn hconn
    obtain ⟨hcurrent, hother⟩ := h.image before hbefore ⟨k, (haccepted k).mp hk⟩
    rw [hsame.output]
    exact ⟨fun v hv hv' => hcurrent v hv ((haccepted v.call).mp hv'),
      fun hall => hother fun v hv hv' => hall v hv ((haccepted v.call).mpr hv')⟩

/-- A write that gets its verdict leaves the queue: no ticket is made or lost. -/
theorem verdict_moves {w : PendingWrite} {id : UInt32} {rest : List ManagerCommand}
    (hcommands : s.commands = .setOutput id w.bytes (some w.deadline) (some w.call) :: rest)
    (verdict : Except EnipError Unit) :
    ((rest.filterMap writeOf).map (·.call) ++
        (s.verdicts ++ [(w.call, verdict)]).map Prod.fst).Subperm
      ((queued s).map (·.call) ++ s.verdicts.map Prod.fst) := by
  refine List.Perm.subperm ?_
  simp only [queued, hcommands, List.filterMap_cons, writeOf, List.map_append, List.map_cons,
    List.map_nil]
  rw [← List.append_assoc]
  exact List.perm_append_singleton _ _

/-- A write the manager finds before its deadline is the current call's, and the translator
waits for it. -/
theorem PushInv.timely (h : PushInv s) {w : PendingWrite} (hw : w ∈ queued s)
    (hdeadline : s.now < w.deadline) :
    s.state = .awaiting w ∧ s.translator = .confirming w ∧ w.call ∉ s.acks.map Prod.fst ∧
      w.call ∉ s.returned.map Prod.fst := by
  rcases h.deadlines w (List.mem_append_right _ hw) with hlate | ⟨hstate, hopen⟩
  · exact absurd hlate (not_le.mpr hdeadline)
  · exact ⟨hstate, (h.queues.confirming w hw).resolve_left hopen, hopen,
      (h.tickets.current w (.inr hstate)).2⟩

/-- A turn that accepts the write at the head of the queue. -/
theorem PushInv.accept (h : PushInv s) {w : PendingWrite} {rest : List ManagerCommand}
    {conn : IoConnection} (manager : Manager)
    (hcommands : s.commands =
      .setOutput s.handle.connectionId w.bytes (some w.deadline) (some w.call) :: rest)
    (hdeadline : s.now < w.deadline) (hrunning : manager.running = true)
    (hconns : manager.registry.conns =
      s.manager.registry.conns.insert s.handle.connectionId (conn.setOutput w.bytes)) :
    PushInv { s with
      manager := manager
      commands := rest
      verdicts := s.verdicts ++ [(w.call, .ok ())]
      installed := s.installed ++ [(w.call, w.bytes)] } := by
  have hqueued : queued s = w :: rest.filterMap writeOf := by rw [queued, hcommands]; rfl
  have hw : w ∈ queued s := by
    rw [hqueued]
    exact List.mem_cons_self
  obtain ⟨hstate, htranslator, hopen, hunreturned⟩ := h.timely hw hdeadline
  have hsplit : ∀ k : ℕ, (k, .ok ()) ∈ s.verdicts ++ [(w.call, Except.ok ())] →
      Accepted s k ∨ k = w.call := by
    intro k hk
    rcases List.mem_append.mp hk with hk | hk
    · exact .inl hk
    · cases List.mem_singleton.mp hk
      exact .inr rfl
  have hsub : (rest.filterMap writeOf).Sublist (queued s) := by
    rw [hqueued]
    exact List.sublist_cons_self w _
  refine ⟨h.tickets.of_subperm (List.Subperm.refl _) ?_ rfl rfl rfl, ⟨?_, ?_, h.queues.ended,
      fun m hm => h.queues.confirming m (hsub.subset hm)⟩,
    fun m hm => h.deadlines m ((hsub.append_left _).subset hm),
    ⟨fun k hk => List.mem_append_left _ (h.answers.ackOk k hk), ?_,
      fun k hk => List.mem_append_left _ (h.answers.returnedOk k hk), ?_, ?_, ?_, ?_⟩, ?_⟩
  · have hmoved := verdict_moves hcommands (.ok ())
    simp only [downward, handing, List.append_assoc]
    rw [List.subperm_append_left, List.subperm_append_left]
    exact hmoved
  · intro c hc
    refine h.queues.commands c ?_
    rw [hcommands]
    exact List.mem_cons_of_mem _ hc
  · intro hstopped
    rw [hrunning] at hstopped
    cases hstopped
  · intro k e hk hk'
    rcases hsplit k hk' with hold | rfl
    · exact h.answers.ackError k e hk hold
    · exact hopen (List.mem_map_of_mem hk)
  · intro k e hk hk'
    rcases hsplit k hk' with hold | rfl
    · exact h.answers.returnedError k e hk hold
    · exact hunreturned (List.mem_map_of_mem hk)
  · intro k hk
    rcases hsplit k hk with hold | rfl
    · exact h.answers.relay k hold
    · exact .inr ⟨w, htranslator, rfl⟩
  · intro k hk
    rcases hsplit k hk with hold | rfl
    · exact h.answers.disposition k hold
    · exact .inr ⟨w, hstate, rfl⟩
  · intro k bytes hk
    rcases List.mem_append.mp hk with hk | hk
    · exact List.mem_append_left _ (h.answers.installed k bytes hk)
    · cases List.mem_singleton.mp hk
      exact List.mem_append_right _ List.mem_cons_self
  · intro conn' hconn' _
    simp only [hconns, AList.lookup_insert, Option.some.injEq] at hconn'
    subst hconn'
    constructor
    · intro v hv _
      rw [hstate] at hv
      cases hv
      rfl
    · exact fun hall => absurd (List.mem_append_right _ List.mem_cons_self) (hall w hstate)

/-- A turn without a command keeps the invariant. -/
theorem PushInv.settleQuiet (h : PushInv s) {input : ManagerInput}
    (hinput : ∀ cmd env, input ≠ .command cmd env) :
    PushInv (s.settle s.commands (s.manager.step input)) := by
  have hnone : PushSystem.verdictsOf (s.manager.step input).2 = [] := by
    rw [PushSystem.verdictsOf, List.filterMap_eq_nil_iff]
    intro effect heffect
    cases effect with
    | verdict ack result => exact absurd heffect (no_verdict_step s.manager hinput ack result)
    | _ => rfl
  have hsub : (if (s.manager.step input).1.running then s.commands else []).Sublist
      s.commands := by
    split
    · exact List.Sublist.refl _
    · exact List.nil_sublist _
  unfold PushSystem.settle
  rw [hnone, List.append_nil]
  refine h.turn _ (keepsProducers_step s.manager hinput) hsub ?_ ?_ fun k => Iff.rfl
  · intro hstopped
    rw [hstopped]
    rfl
  · exact (((hsub.filterMap writeOf).map _).append_right _).subperm

/-- A manager with a command to handle is running. -/
theorem Queues.running (h : Queues s) {cmd : ManagerCommand} {rest : List ManagerCommand}
    (hcommands : s.commands = cmd :: rest) : s.manager.running = true := by
  cases hrun : s.manager.running with
  | true => rfl
  | false =>
    rw [h.stopped hrun] at hcommands
    cases hcommands

/-- A turn that handles a staging: it is refused as closed, refused as late, or accepted. -/
theorem PushInv.settleStaging (h : PushInv s) {w : PendingWrite} {rest : List ManagerCommand}
    (hcommands : s.commands =
      .setOutput s.handle.connectionId w.bytes (some w.deadline) (some w.call) :: rest) :
    PushInv (s.pollManager .command) := by
  have hrunning := h.queues.running hcommands
  have hrefuse : ∀ e : EnipError, PushInv { s with
      commands := rest
      verdicts := s.verdicts ++ [(w.call, .error e)] } := by
    intro e
    refine h.turn s.manager (KeepsProducers.refl _) ?_ ?_ (verdict_moves hcommands _) ?_
    · rw [hcommands]
      exact List.sublist_cons_self _ rest
    · exact fun hstopped => absurd (hrunning.symm.trans hstopped) (by decide)
    · simp [Accepted]
  simp only [PushSystem.pollManager, PushSystem.managerInput, hcommands, Manager.step, hrunning,
    if_true, Manager.command, Manager.stageOutput]
  cases hlookup : s.manager.registry.conns.lookup s.handle.connectionId with
  | none =>
    simpa [PushSystem.settle, PushSystem.verdictsOf, PushSystem.installedBy, hrunning]
      using hrefuse .closed
  | some conn =>
    simp only
    by_cases hexpired : expired (some w.deadline) s.now = true
    · rw [if_pos hexpired]
      simpa [PushSystem.settle, PushSystem.verdictsOf, PushSystem.installedBy, hrunning]
        using hrefuse (.timeout outputStaging)
    · rw [if_neg hexpired]
      have hdeadline : s.now < w.deadline := by
        simpa [expired] using hexpired
      have haccepted := h.accept { s.manager with registry := { s.manager.registry with
        conns := s.manager.registry.conns.insert s.handle.connectionId
          (conn.setOutput w.bytes) } } hcommands hdeadline hrunning rfl
      simpa [PushSystem.settle, PushSystem.verdictsOf, PushSystem.installedBy, hrunning] using
        haccepted

/-- A turn that handles the next command keeps the invariant. -/
theorem PushInv.settleCommand (h : PushInv s) {cmd : ManagerCommand} {rest : List ManagerCommand}
    (hcommands : s.commands = cmd :: rest) : PushInv (s.pollManager .command) := by
  have hrunning := h.queues.running hcommands
  -- a queue that only gets shorter moves no ticket
  have hmoved : ∀ commands : List ManagerCommand, commands.Sublist s.commands →
      ((commands.filterMap writeOf).map (·.call) ++ s.verdicts.map Prod.fst).Subperm
        ((queued s).map (·.call) ++ s.verdicts.map Prod.fst) :=
    fun commands hsub => (((hsub.filterMap writeOf).map _).append_right _).subperm
  cases h.queues.commands cmd (hcommands ▸ List.mem_cons_self) with
  | staging w => exact h.settleStaging hcommands
  | removal =>
    have hrest : rest.Sublist s.commands := by
      rw [hcommands]
      exact List.sublist_cons_self _ rest
    have hstill : (s.manager.removeConnection s.handle.connectionId).1.running = true := hrunning
    have hremoved := h.turn (s.manager.removeConnection s.handle.connectionId).1
      (KeepsProducers.erase _ s.handle.connectionId) hrest
      (fun hstopped => absurd (hstill.symm.trans hstopped) (by decide))
      (hmoved rest hrest) fun k => Iff.rfl
    have hquiet : PushSystem.verdictsOf
        (s.manager.removeConnection s.handle.connectionId).2 = [] := by
      simp only [PushSystem.verdictsOf, Manager.removeConnection]
      rw [List.filterMap_eq_nil_iff]
      intro effect heffect
      simp only [Option.mem_toList, Option.map_eq_some_iff] at heffect
      obtain ⟨group, -, rfl⟩ := heffect
      rfl
    simpa only [PushSystem.pollManager, PushSystem.managerInput, hcommands, Manager.step,
      hrunning, if_true, Manager.command, PushSystem.settle, hquiet, PushSystem.installedBy,
      hstill, List.append_nil] using hremoved
  | stop =>
    have hexited := h.turn s.manager.exit (KeepsProducers.empty _) (List.nil_sublist _)
      (fun _ => rfl) (hmoved [] (List.nil_sublist _)) fun k => Iff.rfl
    simpa [PushSystem.pollManager, PushSystem.managerInput, hcommands, Manager.step, hrunning,
      Manager.command, Manager.exit, PushSystem.settle, PushSystem.verdictsOf,
      PushSystem.installedBy] using hexited

/-- The manager's turn keeps the invariant. -/
theorem PushInv.pollManager (h : PushInv s) (poll : ManagerPoll) :
    PushInv (s.pollManager poll) := by
  cases hinput : PushSystem.managerInput s.now poll with
  | some input =>
    simp only [PushSystem.pollManager, hinput]
    exact h.settleQuiet (PushSystem.managerInput_ne_command hinput)
  | none =>
    have hpoll : poll = .command := by
      cases poll <;> simp_all [PushSystem.managerInput]
    subst hpoll
    cases hcommands : s.commands with
    | nil =>
      simp only [PushSystem.pollManager, PushSystem.managerInput, hcommands]
      exact h
    | cons cmd rest => exact h.settleCommand hcommands

/-! ## Whole runs -/

/-- Every step but the session's late giving up keeps the invariant. -/
theorem PushInv.step (h : PushInv s) {input : PushInput} (hguard : NoLateAcceptance s input) :
    PushInv (s.step input) := by
  cases input with
  | advance elapsed =>
    refine ⟨h.tickets.of_subperm (List.Subperm.refl _) (List.Subperm.refl _) rfl rfl rfl,
      ⟨h.queues.commands, h.queues.stopped, h.queues.ended, h.queues.confirming⟩, ?_,
      ⟨h.answers.ackOk, h.answers.ackError, h.answers.returnedOk, h.answers.returnedError,
        h.answers.relay, h.answers.disposition, h.answers.installed⟩, h.image⟩
    intro m hm
    exact (h.deadlines m hm).imp_left fun hlate => hlate.trans (Nat.le_add_right _ _)
  | call field value => exact h.beginCall field value
  | session => exact h.pollSession hguard
  | translator poll => exact h.pollTranslator poll
  | manager poll => exact h.pollManager poll

/-- The invariant holds wherever a schedule without a late giving up leads. -/
theorem pushInv_runSteps (session : EipPushSession) (handle : IoConnectionHandle)
    (manager : Manager) (now : Instant) {inputs : List PushInput}
    (hguard : Guarded PushSystem.step NoLateAcceptance
      (PushSystem.start session handle manager now) inputs) :
    PushInv (runSteps PushSystem.step (PushSystem.start session handle manager now) inputs) :=
  runSteps_invariant (fun _ _ h => h.step) (pushInv_start session handle manager now) hguard

/-- In every schedule in which the session never gives up on a write whose acceptance waits at
the translator, a refused write never reaches the producer, and between calls the producer
holds the session's image. -/
theorem refused_push_write_is_final (session : EipPushSession) (handle : IoConnectionHandle)
    (manager : Manager) (now : Instant) (inputs : List PushInput)
    (hguard : Guarded PushSystem.step NoLateAcceptance
      (PushSystem.start session handle manager now) inputs) :
    RefusalFinal
      (runSteps PushSystem.step (PushSystem.start session handle manager now) inputs) :=
  (pushInv_runSteps session handle manager now hguard).refusalFinal

/-! ## A sample session -/

/-- A target that accepts the sample block's open at the requested intervals. -/
def sampleOpenEnv : OpenEnv where
  randomConnectionId := 0x11223344
  randomSerial := 7
  randomOriginator := 0x01020304
  answers := fun _ => .ok ⟨[CpfItem.nullAddress, CpfItem.unconnectedData
    ([0xD4, 0, 0, 0] ++ putU32 0x55667788 ++ putU32 0x11223345 ++ putU16 7 ++ putU16 0x1337 ++
      putU32 0x01020304 ++ putU32 10000 ++ putU32 10000 ++ [0, 0])]⟩
  targetIp := some (.v4 0x0A000007)
  link := .gone
  eventsTx := ⟨0⟩
  now := 0

/-- A block opened against it, with the default two-second request timeout. -/
def openSample (io : IoConfig) : Except DeviceError PushSystem :=
  openPushSession sampleConnection io (Duration.fromSecs 2) 0x1337 40000 (.ok ()) sampleOpenEnv

/-- A session found open meets what was checked of it. -/
theorem exists_of_any {o : Except DeviceError PushSystem} {p : PushSystem → Bool}
    (h : o.toOption.any p = true) : ∃ s, o = .ok s ∧ p s = true := by
  cases o with
  | error e => cases h
  | ok s => exact ⟨s, rfl, h⟩

/-- A write of 42, handed to the manager. -/
def stagedWrite : List PushInput :=
  [.call setpointField (Json.ofNat 42), .session, .translator .control,
    .translator (.staging [])]

/-- A write that is accepted, relayed and adopted. -/
def timelyWrite : List PushInput :=
  stagedWrite ++ [.manager .command, .translator (.staging []), .session]

/-- A write the manager accepts one nanosecond before its deadline, which then passes before
the translator relays the verdict. -/
def lateWrite : List PushInput :=
  stagedWrite ++
    [.advance (Duration.fromSecs 2 - 1), .manager .command, .advance 1, .session]

/-- The timely write returns `Ok`, and its schedule is one the theorem speaks about. -/
theorem refused_push_write_is_final_timely :
    ∃ s, openSample sampleIo = .ok s ∧
      (runSteps PushSystem.step s timelyWrite).returned = [(0, .ok ())] ∧
      RefusalFinal (runSteps PushSystem.step s timelyWrite) := by
  have hrun : (openSample sampleIo).toOption.any (fun s =>
      decide (Guarded PushSystem.step NoLateAcceptance s timelyWrite) &&
      decide ((runSteps PushSystem.step s timelyWrite).returned = [(0, .ok ())])) = true := by
    decide +kernel
  obtain ⟨s, hs, hp⟩ := exists_of_any hrun
  simp only [Bool.and_eq_true, decide_eq_true_eq] at hp
  obtain ⟨hguard, hreturned⟩ := hp
  have hfresh := (openedPush_of_open hs).fresh
  refine ⟨s, hs, hreturned, ?_⟩
  rw [hfresh] at hguard ⊢
  exact refused_push_write_is_final s.session s.handle s.manager s.now timelyWrite hguard

/-- The late write returns an error, and its image is the producer's. -/
theorem late_write_is_installed :
    sampleIo.validate "press-2" = .ok () ∧
      ∃ s, openSample sampleIo = .ok s ∧
        ¬RefusalFinal (runSteps PushSystem.step s lateWrite) := by
  refine ⟨by decide +kernel, ?_⟩
  have hrun : (openSample sampleIo).toOption.any (fun s =>
      decide ((runSteps PushSystem.step s lateWrite).returned =
        [(0, .error (.transient (.text
          "output staging was not confirmed within the request timeout")))]) &&
      decide ((runSteps PushSystem.step s lateWrite).installed = [(0, [42, 0, 0, 0])])) = true := by
    decide +kernel
  obtain ⟨s, hs, hp⟩ := exists_of_any hrun
  simp only [Bool.and_eq_true, decide_eq_true_eq] at hp
  obtain ⟨hreturned, hinstalled⟩ := hp
  refine ⟨s, hs, fun hfinal => ?_⟩
  refine hfinal.refused 0 _ (hreturned ▸ List.mem_cons_self) [42, 0, 0, 0] ?_
  rw [hinstalled]
  exact List.mem_cons_self

end EnipAdapter.Analysis
