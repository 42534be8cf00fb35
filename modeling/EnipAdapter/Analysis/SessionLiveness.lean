import EnipAdapter.Analysis.SessionCorrelation
import EnipAdapter.Interface.SessionContract

/-!
# A session dies of its limit of timeouts in a row

The actor keeps one counter. A step lemma says what a transaction does to it, by the outcome the
caller sees, and along a run the counter is the number of strikes at the end of the outcomes so
far: the induction carries the outcomes that came before.
-/

set_option autoImplicit false

namespace EnipAdapter.Analysis

open EnipAdapter.Model
open EnipAdapter.Model.SessionActor
open EnipAdapter.Interface

/-! ## Strikes at the end of a run -/

/-- A request that never went out leaves the strikes as they are. -/
theorem strikes_snoc_kept {past : List TransactOutcome} {o : TransactOutcome}
    (h : wentOut o = false) : strikes (past ++ [o]) = strikes past := by
  simp [strikes, List.filter_append, h]

/-- A request without a reply is one strike more. -/
theorem strikes_snoc_struck {past : List TransactOutcome} {o : TransactOutcome}
    (h : struck o = true) : strikes (past ++ [o]) = strikes past + 1 := by
  have hout : wentOut o = true := by
    rw [struck, Bool.and_eq_true] at h
    exact h.1
  simp [strikes, List.filter_append, hout, h]

/-- A request that was answered clears them. -/
theorem strikes_snoc_cleared {past : List TransactOutcome} {o : TransactOutcome}
    (hout : wentOut o = true) (h : struck o = false) : strikes (past ++ [o]) = 0 := by
  simp [strikes, List.filter_append, hout, h]

/-! ## One transaction -/

/-- What a transaction does to the strike counter and the timeout counter. -/
structure StrikeSpec (a a' : SessionActor) (o : TransactOutcome) : Prop where
  limit : a'.maxConsecutiveTimeouts = a.maxConsecutiveTimeouts
  kept : wentOut o = false →
    a'.consecutiveTimeouts = a.consecutiveTimeouts ∧ o.liveness = .alive
  raised : struck o = true →
    a'.consecutiveTimeouts.toNat = a.consecutiveTimeouts.toNat + 1 ∧
      (o.liveness = .dead ↔
        a.maxConsecutiveTimeouts.toNat ≤ a.consecutiveTimeouts.toNat + 1) ∧
      (o.liveness = .alive ∨ o.liveness = .dead)
  cleared : wentOut o = true → struck o = false → o.liveness = .alive →
    a'.consecutiveTimeouts = 0
  counted : a'.stats.timeouts = a.stats.timeouts + if overdue o then 1 else 0

/-- The errors a broken read reports are none of the deadline's. -/
def ReadError (e : EnipError) : Prop :=
  (∃ kind, e = .io kind) ∨ (∃ w, e = .malformed w) ∨
    e = .connectionLost "encap frame truncated at eof"

/-- A read breaks on the socket, on the framing or on a cut frame. -/
theorem readOutcome_broken {evs : List ReadEvent} {buf : Bytes} {e : EnipError}
    (h : (readOutcome evs buf).1 = .broken e) : ReadError e := by
  induction evs generalizing buf with
  | nil =>
      rw [readOutcome] at h
      split at h
      · cases h
      · cases h
      · cases h
        exact Or.inr (Or.inl ⟨_, rfl⟩)
  | cons ev evs ih =>
      rw [readOutcome] at h
      split at h
      · cases h
      · cases h
        exact Or.inr (Or.inl ⟨_, rfl⟩)
      · rename_i rest hd
        cases ev with
        | error kind =>
            cases h
            exact Or.inl ⟨kind, rfl⟩
        | elapsed => cases h
        | bytes chunk =>
            cases chunk with
            | nil =>
                simp only [decodeEof] at h
                split at h
                · cases h
                · split_ifs at h
                  cases h
                  exact Or.inr (Or.inr rfl)
                · cases h
                  exact Or.inr (Or.inl ⟨_, rfl⟩)
            | cons b bs => exact ih h

/-- A failure that no deadline caused is no strike. -/
theorem strikeSpec_of_sever {a b : SessionActor} {reads : List (EncapFrame × ReplyFate)}
    {e : EnipError} (hlimit : b.maxConsecutiveTimeouts = a.maxConsecutiveTimeouts)
    (hstruck : struck (b.sever reads e).2 = false)
    (hcounted : b.stats.timeouts =
      a.stats.timeouts + if overdue (b.sever reads e).2 then 1 else 0) :
    StrikeSpec a (b.sever reads e).1 (b.sever reads e).2 := by
  refine ⟨hlimit, ?_, ?_, ?_, hcounted⟩
  · rintro ⟨⟩
  · intro h
    rw [hstruck] at h
    cases h
  · rintro - - ⟨⟩

/-- A reply loop that waits leaves everything as it was. -/
theorem strikeSpec_of_waiting {a b : SessionActor} {reads : List (EncapFrame × ReplyFate)}
    {context : Bytes} (hlimit : b.maxConsecutiveTimeouts = a.maxConsecutiveTimeouts)
    (hcounted : b.stats.timeouts = a.stats.timeouts) :
    StrikeSpec a b ⟨some context, reads, none, .waiting⟩ := by
  refine ⟨hlimit, ?_, ?_, ?_, hcounted⟩
  · rintro ⟨⟩
  · rintro ⟨⟩
  · rintro - - ⟨⟩

/-- A read that hit the deadline is one strike more, and fatal at the limit. -/
theorem readTimedOut_strikes {a b : SessionActor} (reads : List (EncapFrame × ReplyFate))
    (hlimit : b.maxConsecutiveTimeouts = a.maxConsecutiveTimeouts)
    (hcount : b.consecutiveTimeouts = a.consecutiveTimeouts)
    (hstats : b.stats.timeouts = a.stats.timeouts)
    (hbelow : a.consecutiveTimeouts < a.maxConsecutiveTimeouts) :
    StrikeSpec a (b.readTimedOut reads).1 (b.readTimedOut reads).2 := by
  have hlt : a.consecutiveTimeouts.toNat + 1 < 2 ^ 32 := by
    have hbound := UInt32.lt_iff_toNat_lt.mp hbelow
    have hmax := a.maxConsecutiveTimeouts.toNat_lt
    omega
  have hnext : (a.consecutiveTimeouts + 1).toNat = a.consecutiveTimeouts.toNat + 1 := by
    rw [UInt32.toNat_add, UInt32.toNat_one, Nat.mod_eq_of_lt hlt]
  have hge : (a.consecutiveTimeouts + 1 ≥ a.maxConsecutiveTimeouts) ↔
      a.maxConsecutiveTimeouts.toNat ≤ a.consecutiveTimeouts.toNat + 1 := by
    rw [ge_iff_le, UInt32.le_iff_toNat_le, hnext]
  unfold readTimedOut
  simp only [hcount, hlimit, if_pos hlt]
  split_ifs with hdead
  · refine ⟨rfl, ?_, ?_, ?_, ?_⟩
    · rintro ⟨⟩
    · intro _
      exact ⟨hnext, iff_of_true rfl (hge.mp hdead), Or.inr rfl⟩
    · rintro - ⟨⟩
    · exact congrArg (· + 1) hstats
  · refine ⟨rfl, ?_, ?_, ?_, ?_⟩
    · rintro ⟨⟩
    · intro _
      exact ⟨hnext, iff_of_false (by rintro ⟨⟩) (fun h => hdead (hge.mpr h)), Or.inl rfl⟩
    · rintro - ⟨⟩
    · exact congrArg (· + 1) hstats

/-- What the triage of a frame does to the counters: a match clears the row, and nothing else
touches it. -/
structure TriagedStrikes (a : SessionActor) (fate : ReplyFate) (a' : SessionActor) : Prop where
  limit : a'.maxConsecutiveTimeouts = a.maxConsecutiveTimeouts
  timeouts : a'.stats.timeouts = a.stats.timeouts
  delivered : fate = .delivered → a'.consecutiveTimeouts = 0
  discarded : fate = .stale ∨ fate = .badOptions →
    a'.consecutiveTimeouts = a.consecutiveTimeouts

/-- A frame clears the actor's strikes if it is the answer. -/
theorem triageReply_strikes (a : SessionActor) (expected : ReplyExpectation) (f : EncapFrame) :
    TriagedStrikes a (a.triageReply expected f).1 (a.triageReply expected f).2 := by
  unfold triageReply
  by_cases hopt : f.header.options = 0
  · rw [if_neg (not_not.mpr hopt)]
    cases hm : matchReply expected f.header with
    | match_ =>
        by_cases hp : f.header.status.poisonsSession = true
        · simp only [hp, if_true]
          exact ⟨rfl, rfl, fun _ => rfl, by rintro (h | h) <;> cases h⟩
        · simp only [hp]
          exact ⟨rfl, rfl, fun _ => rfl, by rintro (h | h) <;> cases h⟩
    | staleContext => exact ⟨rfl, rfl, (by rintro ⟨⟩), fun _ => rfl⟩
    | headerMismatch field => exact ⟨rfl, rfl, (by rintro ⟨⟩), fun _ => rfl⟩
  · rw [if_pos hopt]
    exact ⟨rfl, rfl, (by rintro ⟨⟩), fun _ => rfl⟩

/-- The reply loop, by induction on its passes: discarded frames leave the row as it is. -/
theorem replyLoop_strikes (fuel : ℕ) (expected : ReplyExpectation)
    (reads : List (EncapFrame × ReplyFate)) (a b : SessionActor)
    (hlimit : b.maxConsecutiveTimeouts = a.maxConsecutiveTimeouts)
    (hcount : b.consecutiveTimeouts = a.consecutiveTimeouts)
    (hstats : b.stats.timeouts = a.stats.timeouts)
    (hbelow : a.consecutiveTimeouts < a.maxConsecutiveTimeouts) :
    StrikeSpec a (replyLoop fuel expected reads b).1 (replyLoop fuel expected reads b).2 := by
  induction fuel generalizing reads b with
  | zero => exact strikeSpec_of_waiting hlimit hstats
  | succ fuel ih =>
      rw [replyLoop]
      have hbroken := fun e => @readOutcome_broken b.stream b.buf e
      generalize readOutcome b.stream b.buf = read at hbroken
      obtain ⟨outcome, buf, stream⟩ := read
      cases outcome with
      | frame f =>
          have htriaged := triageReply_strikes { b with buf := buf, stream := stream } expected f
          simp only
          generalize triageReply { b with buf := buf, stream := stream } expected f = triage
            at htriaged
          obtain ⟨fate, c⟩ := triage
          have hclimit := htriaged.limit.trans hlimit
          have hcstats := htriaged.timeouts.trans hstats
          cases fate with
          | delivered =>
              refine ⟨hclimit, ?_, ?_, ?_, hcstats⟩
              · rintro ⟨⟩
              · rintro ⟨⟩
              · intro _ _ _
                exact htriaged.delivered rfl
          | poison => exact strikeSpec_of_sever hclimit rfl hcstats
          | stale => exact ih _ c hclimit ((htriaged.discarded (Or.inl rfl)).trans hcount) hcstats
          | badOptions =>
              exact ih _ c hclimit ((htriaged.discarded (Or.inr rfl)).trans hcount) hcstats
      | eof => exact strikeSpec_of_sever hlimit rfl hstats
      | broken e =>
          rcases hbroken e rfl with ⟨kind, rfl⟩ | ⟨w, rfl⟩ | rfl
          · exact strikeSpec_of_sever hlimit rfl hstats
          · exact strikeSpec_of_sever hlimit rfl hstats
          · refine strikeSpec_of_sever hlimit ?_ ?_
            · simp [struck, sever]
            · simpa [overdue, sever] using hstats
      | timedOut => exact readTimedOut_strikes reads hlimit hcount hstats hbelow
      | pending => exact strikeSpec_of_waiting hlimit hstats

/-- A transaction moves the actor's strikes as its outcome says. -/
theorem transact_strikes (a : SessionActor) (t : Transaction) (env : TransactScript)
    (hbelow : a.consecutiveTimeouts < a.maxConsecutiveTimeouts) :
    StrikeSpec a (a.transact t env).1 (a.transact t env).2 := by
  unfold transact
  cases preflight t.deadline env.replyClosed env.now with
  | abandoned =>
      refine ⟨rfl, fun _ => ⟨rfl, rfl⟩, ?_, ?_, rfl⟩
      · rintro ⟨⟩
      · rintro ⟨⟩
  | expired =>
      refine ⟨rfl, fun _ => ⟨rfl, rfl⟩, ?_, ?_, rfl⟩
      · rintro ⟨⟩
      · rintro ⟨⟩
  | run =>
      simp only
      split
      · exact strikeSpec_of_sever rfl rfl rfl
      · exact strikeSpec_of_sever rfl rfl rfl
      · refine strikeSpec_of_sever rfl ?_ ?_
        · simp [struck, sever]
        · simp [overdue, sever, advanceContext]
      · exact replyLoop_strikes _ _ [] a a.advanceContext rfl rfl rfl hbelow

/-! ## How a transaction fails -/

/-- A read that hits the deadline fails of the transport. -/
theorem readTimedOut_transport (a : SessionActor) (reads : List (EncapFrame × ReplyFate))
    (status : CipStatus) : (a.readTimedOut reads).2.reply ≠ some (.error (.cip status)) := by
  unfold readTimedOut
  extract_lets _ c
  split <;> rintro ⟨⟩

/-- So does every way the reply loop can fail. -/
theorem replyLoop_transport (fuel : ℕ) (expected : ReplyExpectation)
    (reads : List (EncapFrame × ReplyFate)) (a : SessionActor) (status : CipStatus) :
    (replyLoop fuel expected reads a).2.reply ≠ some (.error (.cip status)) := by
  induction fuel generalizing reads a with
  | zero => rintro ⟨⟩
  | succ fuel ih =>
      rw [replyLoop]
      have hbroken := fun e => @readOutcome_broken a.stream a.buf e
      generalize readOutcome a.stream a.buf = read at hbroken
      obtain ⟨outcome, buf, stream⟩ := read
      cases outcome with
      | frame f =>
          simp only
          generalize triageReply { a with buf := buf, stream := stream } expected f = triage
          obtain ⟨fate, c⟩ := triage
          cases fate with
          | delivered => rintro ⟨⟩
          | poison => rintro ⟨⟩
          | stale => exact ih _ c
          | badOptions => exact ih _ c
      | eof => rintro ⟨⟩
      | broken e => rcases hbroken e rfl with ⟨kind, rfl⟩ | ⟨w, rfl⟩ | rfl <;> rintro ⟨⟩
      | timedOut => exact readTimedOut_transport _ reads status
      | pending => rintro ⟨⟩

/-- A transaction that fails fails of the transport: a CIP status is for its caller to find in the
reply frame. -/
theorem transact_transport (a : SessionActor) (t : Transaction) (env : TransactScript)
    (status : CipStatus) : (a.transact t env).2.reply ≠ some (.error (.cip status)) := by
  unfold transact
  cases preflight t.deadline env.replyClosed env.now with
  | abandoned => rintro ⟨⟩
  | expired => rintro ⟨⟩
  | run =>
      simp only
      split
      · rintro ⟨⟩
      · rintro ⟨⟩
      · rintro ⟨⟩
      · exact replyLoop_transport _ _ [] a.advanceContext status

/-! ## A run -/

/-- An actor that survives a transaction is below its limit. -/
theorem StrikeSpec.below {a a' : SessionActor} {o : TransactOutcome} (h : StrikeSpec a a' o)
    (hbelow : a.consecutiveTimeouts < a.maxConsecutiveTimeouts) (halive : o.liveness = .alive) :
    a'.consecutiveTimeouts < a'.maxConsecutiveTimeouts := by
  rw [h.limit, UInt32.lt_iff_toNat_lt]
  rw [UInt32.lt_iff_toNat_lt] at hbelow
  cases hout : wentOut o with
  | false =>
      rw [(h.kept hout).1]
      exact hbelow
  | true =>
      cases hs : struck o with
      | false =>
          rw [h.cleared hout hs halive]
          exact (Nat.zero_le _).trans_lt hbelow
      | true =>
          obtain ⟨hraised, hdead, -⟩ := h.raised hs
          have hlt := mt hdead.mpr (by rw [halive]; rintro ⟨⟩)
          omega

/-- The counter follows the row of strikes over one transaction. -/
theorem StrikeSpec.row {a a' : SessionActor} {o : TransactOutcome} (h : StrikeSpec a a' o)
    {past : List TransactOutcome} (hcount : a.consecutiveTimeouts.toNat = strikes past)
    (halive : o.liveness = .alive) :
    a'.consecutiveTimeouts.toNat = strikes (past ++ [o]) := by
  cases hout : wentOut o with
  | false => rw [(h.kept hout).1, strikes_snoc_kept hout, hcount]
  | true =>
      cases hs : struck o with
      | false =>
          rw [h.cleared hout hs halive, strikes_snoc_cleared hout hs]
          rfl
      | true => rw [(h.raised hs).1, strikes_snoc_struck hs, hcount]

/-- Along a run the counter is the row of strikes at the end of the outcomes so far. -/
theorem run_strikes (txns : List (Transaction × TransactScript)) (a : SessionActor)
    (past : List TransactOutcome) (hcount : a.consecutiveTimeouts.toNat = strikes past)
    (hbelow : a.consecutiveTimeouts < a.maxConsecutiveTimeouts)
    (before after : List TransactOutcome) (o : TransactOutcome)
    (ho : (a.run txns).2 = before ++ o :: after) (hstruck : struck o = true) :
    o.liveness = .dead ↔ a.maxConsecutiveTimeouts.toNat ≤ strikes (past ++ before ++ [o]) := by
  induction txns generalizing a past before with
  | nil => simp [run] at ho
  | cons p rest ih =>
      obtain ⟨t, env⟩ := p
      have hspec := transact_strikes a t env hbelow
      rw [run_cons] at ho
      generalize a.transact t env = result at hspec ho
      obtain ⟨a', first⟩ := result
      cases before with
      | nil =>
          have hfirst : first = o := by
            split_ifs at ho
            · exact (List.cons.inj ho).1
            · exact (List.cons.inj ho).1
          subst hfirst
          rw [List.append_nil, strikes_snoc_struck hstruck, ← hcount]
          exact (hspec.raised hstruck).2.1
      | cons first' before =>
          split_ifs at ho with halive
          · obtain ⟨rfl, hrest⟩ := List.cons.inj ho
            have hrest' := ih a' (past ++ [first]) (hspec.row hcount halive)
              (hspec.below hbelow halive) before hrest
            rw [hspec.limit] at hrest'
            simpa [List.append_assoc] using hrest'
          · simp at ho

/-- The timeout counter of a run. -/
theorem run_overdue (txns : List (Transaction × TransactScript)) (a : SessionActor)
    (hbelow : a.consecutiveTimeouts < a.maxConsecutiveTimeouts) :
    (a.run txns).1.stats.timeouts =
      a.stats.timeouts + ((a.run txns).2.filter overdue).length := by
  induction txns generalizing a with
  | nil => rfl
  | cons p rest ih =>
      obtain ⟨t, env⟩ := p
      have hspec := transact_strikes a t env hbelow
      rw [run_cons]
      split_ifs with halive
      · rw [ih _ (hspec.below hbelow halive), hspec.counted, List.filter_cons]
        split_ifs
        · simp
          omega
        · simp
      · rw [hspec.counted, List.filter_cons]
        split_ifs <;> simp

/-- Only the last transaction of a run is one the actor did not survive. -/
theorem run_last (txns : List (Transaction × TransactScript)) (a : SessionActor)
    (before after : List TransactOutcome) (o : TransactOutcome)
    (ho : (a.run txns).2 = before ++ o :: after) (hdead : o.liveness ≠ .alive) :
    after = [] := by
  induction txns generalizing a before with
  | nil => simp [run] at ho
  | cons p rest ih =>
      obtain ⟨t, env⟩ := p
      rw [run_cons] at ho
      cases before with
      | nil =>
          split_ifs at ho with halive
          · rw [List.nil_append] at ho
            exact absurd ((List.cons.inj ho).1 ▸ halive) hdead
          · exact ((List.cons.inj ho).2).symm
      | cons first before =>
          split_ifs at ho with halive
          · exact ih _ before (List.cons.inj ho).2
          · simp at ho

/-- A request that never went out leaves the actor alive. -/
theorem run_harmless (txns : List (Transaction × TransactScript)) (a : SessionActor)
    (hbelow : a.consecutiveTimeouts < a.maxConsecutiveTimeouts) (o : TransactOutcome)
    (ho : o ∈ (a.run txns).2) (hout : wentOut o = false) : o.liveness = .alive := by
  induction txns generalizing a with
  | nil => simp [run] at ho
  | cons p rest ih =>
      obtain ⟨t, env⟩ := p
      have hspec := transact_strikes a t env hbelow
      rw [run_cons] at ho
      split_ifs at ho with halive
      · rcases List.mem_cons.mp ho with rfl | hrest
        · exact halive
        · exact ih _ (hspec.below hbelow halive) hrest
      · rw [List.mem_singleton] at ho
        rw [ho] at hout ⊢
        exact (hspec.kept hout).2

/-- Every session gives up exactly at its limit of timeouts in a row: any peer, any chunking of
its bytes, any list of transactions. -/
theorem session_dies_of_strikes (stream : List ReadEvent) (leftover : Bytes) (handle : UInt32)
    (maxConsecutiveTimeouts : UInt32) (txns : List (Transaction × TransactScript)) :
    LivenessContract (max maxConsecutiveTimeouts.toNat 1)
      ((spawn stream leftover handle maxConsecutiveTimeouts).run txns).1
      ((spawn stream leftover handle maxConsecutiveTimeouts).run txns).2 := by
  set a := spawn stream leftover handle maxConsecutiveTimeouts with ha
  have hlimit : a.maxConsecutiveTimeouts.toNat = max maxConsecutiveTimeouts.toNat 1 := by
    show (if maxConsecutiveTimeouts ≤ 1 then 1 else maxConsecutiveTimeouts).toNat = _
    split_ifs with hle
    · have := UInt32.le_iff_toNat_le.mp hle
      exact (max_eq_right this).symm
    · have := mt UInt32.le_iff_toNat_le.mpr hle
      exact (max_eq_left (Nat.le_of_not_le this)).symm
  have hbelow : a.consecutiveTimeouts < a.maxConsecutiveTimeouts := by
    rw [UInt32.lt_iff_toNat_lt, hlimit]
    show 0 < _
    omega
  refine ⟨?_, ?_, ?_, ?_⟩
  · intro before after o ho hstruck
    have hdead := run_strikes txns a [] rfl hbelow before after o ho hstruck
    rwa [hlimit, List.nil_append] at hdead
  · intro o ho hout
    exact run_harmless txns a hbelow o ho hout
  · intro before after o ho hdead
    exact run_last txns a before after o ho (by rw [hdead]; rintro ⟨⟩)
  · rw [run_overdue txns a hbelow]
    exact Nat.zero_add _

end EnipAdapter.Analysis
