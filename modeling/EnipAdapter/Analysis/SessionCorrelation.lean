import EnipAdapter.Interface.SessionContract
import Mathlib.Tactic.Linarith

/-!
# The session actor keeps its contract

The run of the actor is split along its own structure: one bounded read takes the next
frame off the stream, the triage of one frame moves exactly the counter its fate names, the
reply loop is the iteration of the two, and a run is a list of transactions. Late replies
of abandoned transactions need no invariant of their own: they are frames of the stream
like any other, and `once` accounts for all of them.
-/

set_option autoImplicit false

namespace EnipAdapter.Analysis

open EnipAdapter.Model
open EnipAdapter.Model.SessionActor
open EnipAdapter.Interface

/-! ## One bounded read -/

/-- What a bounded read did to the bytes `input` the actor could come to hold. -/
def ReadStep (input : Bytes) : ReadOutcome × Bytes × List ReadEvent → Prop
  | (.frame f, buf, stream) =>
      framesOf input = f :: framesOf (buf ++ received stream) ∧
        (buf ++ received stream).length < input.length
  | (.timedOut, buf, stream) => framesOf input = framesOf (buf ++ received stream)
  | (.pending, buf, stream) =>
      framesOf input = framesOf (buf ++ received stream) ∧ stream = []
  | (.eof, _, _) => True
  | (.broken _, _, _) => True

/-- A read that starts on the same frames and no more bytes may stand in for another. -/
theorem ReadStep.mono {input input' : Bytes} {r : ReadOutcome × Bytes × List ReadEvent}
    (hframes : framesOf input = framesOf input') (hlen : input'.length ≤ input.length)
    (h : ReadStep input' r) : ReadStep input r := by
  obtain ⟨out, buf, stream⟩ := r
  cases out with
  | frame f => exact ⟨hframes.trans h.1, h.2.trans_le hlen⟩
  | eof => trivial
  | timedOut => exact hframes.trans h
  | broken e => trivial
  | pending => exact ⟨hframes.trans h.1, h.2⟩

/-- `readOutcome` takes the next frame off the stream or leaves its frames alone. -/
theorem readOutcome_step (evs : List ReadEvent) (buf : Bytes) :
    ReadStep (buf ++ received evs) (readOutcome evs buf) := by
  induction evs generalizing buf with
  | nil =>
      rw [readOutcome]
      split
      · rename_i frame rest hd
        obtain ⟨hframes, hlt⟩ := decodeLoop_some (received []) hd
        exact ⟨hframes, by simpa [received] using hlt⟩
      · rename_i rest hd
        exact ⟨(decodeLoop_none (received []) hd).1, rfl⟩
      · trivial
  | cons ev evs ih =>
      rw [readOutcome]
      split
      · rename_i frame rest hd
        obtain ⟨hframes, hlt⟩ := decodeLoop_some (received (ev :: evs)) hd
        refine ⟨hframes, ?_⟩
        simp only [List.length_append]
        omega
      · trivial
      · rename_i rest hd
        obtain ⟨hframes, hle⟩ := decodeLoop_none (received (ev :: evs)) hd
        have hlen : (rest ++ received (ev :: evs)).length ≤
            (buf ++ received (ev :: evs)).length := by
          simp only [List.length_append]
          omega
        refine ReadStep.mono hframes hlen ?_
        -- the buffer holds no whole frame: what the next read yields decides
        cases ev with
        | error kind => trivial
        | elapsed => exact rfl
        | bytes chunk =>
            cases chunk with
            | nil =>
                simp only [decodeEof]
                split
                · rename_i frame rest' hd'
                  obtain ⟨hframes', hlt⟩ := decodeLoop_some (received evs) hd'
                  refine ⟨hframes', ?_⟩
                  simp only [received, List.nil_append, List.length_append]
                  omega
                · split_ifs <;> trivial
                · trivial
            | cons b bs =>
                have hread := ih (rest ++ (b :: bs))
                rw [List.append_assoc] at hread
                exact hread

/-! ## The triage of one frame -/

/-- The only match is a full match. -/
theorem matchReply_eq_match {expected : ReplyExpectation} {h : EncapHeader}
    (hm : matchReply expected h = .match_) :
    h.senderContext = expected.context ∧ h.command = expected.command ∧
      (sessionHandleExempt expected.command = false →
        h.sessionHandle = expected.sessionHandle) := by
  unfold matchReply at hm
  split_ifs at hm with hctx hcmd hhandle
  refine ⟨not_not.mp hctx, not_not.mp hcmd, ?_⟩
  intro hexempt
  by_contra hne
  exact hhandle ⟨by rw [hexempt]; exact Bool.false_ne_true, hne⟩

/-- What the triage of a frame did: the counters moved by exactly its fate, nothing else the
contract speaks of moved, and a frame that ends the loop was a full match. -/
structure Triaged (a : SessionActor) (expected : ReplyExpectation) (f : EncapFrame)
    (fate : ReplyFate) (a' : SessionActor) : Prop where
  stream : a'.input = a.input
  handle : a'.sessionHandle = a.sessionHandle
  counter : a'.nextContext = a.nextContext
  stale : a'.stats.staleReplies =
    a.stats.staleReplies + (framesWithFate .stale [(f, fate)]).length
  options : a'.stats.discardedOptions =
    a.stats.discardedOptions + (framesWithFate .badOptions [(f, fate)]).length
  matched : fate = .delivered ∨ fate = .poison →
    f.header.options = 0 ∧ matchReply expected f.header = .match_
  poison : fate = .poison → f.header.status = .invalidSessionHandle

/-- One status only poisons a session. -/
theorem eq_of_poisonsSession {s : EncapStatus} (h : s.poisonsSession = true) :
    s = .invalidSessionHandle := by
  cases s <;> first | rfl | cases h

/-- Every frame is triaged as one of the cases says. -/
theorem triageReply_spec (a : SessionActor) (expected : ReplyExpectation) (f : EncapFrame) :
    Triaged a expected f (a.triageReply expected f).1 (a.triageReply expected f).2 := by
  unfold triageReply
  by_cases hopt : f.header.options = 0
  · rw [if_neg (not_not.mpr hopt)]
    cases hm : matchReply expected f.header with
    | match_ =>
        by_cases hp : f.header.status.poisonsSession = true
        · simp only [hp, if_true]
          exact ⟨rfl, rfl, rfl, rfl, rfl, fun _ => ⟨hopt, hm⟩, fun _ => eq_of_poisonsSession hp⟩
        · simp only [hp]
          exact ⟨rfl, rfl, rfl, rfl, rfl, fun _ => ⟨hopt, hm⟩, by rintro ⟨⟩⟩
    | staleContext =>
        exact ⟨rfl, rfl, rfl, rfl, rfl, (by rintro (h | h) <;> cases h), by rintro ⟨⟩⟩
    | headerMismatch field =>
        exact ⟨rfl, rfl, rfl, rfl, rfl, (by rintro (h | h) <;> cases h), by rintro ⟨⟩⟩
  · rw [if_pos hopt]
    exact ⟨rfl, rfl, rfl, rfl, rfl, (by rintro (h | h) <;> cases h), by rintro ⟨⟩⟩

/-! ## The reply loop -/

/-- The frames of a given fate, read by read. -/
theorem framesWithFate_append (fate : ReplyFate) (xs ys : List (EncapFrame × ReplyFate)) :
    framesWithFate fate (xs ++ ys) = framesWithFate fate xs ++ framesWithFate fate ys := by
  simp [framesWithFate]

/-- The account of the frames `new` read between two states of the actor. -/
structure Account (a : SessionActor) (new : List (EncapFrame × ReplyFate))
    (a' : SessionActor) (liveness : Liveness) : Prop where
  handle : a'.sessionHandle = a.sessionHandle
  counter : a'.nextContext = a.nextContext
  next : new.map Prod.fst <+: framesOf a.input
  rest : liveness ≠ .dead → framesOf a.input = new.map Prod.fst ++ framesOf a'.input
  stale : a'.stats.staleReplies =
    a.stats.staleReplies + (framesWithFate .stale new).length
  options : a'.stats.discardedOptions =
    a.stats.discardedOptions + (framesWithFate .badOptions new).length

/-- No frame read, no frame to account for. -/
theorem Account.idle {a a' : SessionActor} {liveness : Liveness}
    (hhandle : a'.sessionHandle = a.sessionHandle) (hcounter : a'.nextContext = a.nextContext)
    (hstale : a'.stats.staleReplies = a.stats.staleReplies)
    (hoptions : a'.stats.discardedOptions = a.stats.discardedOptions)
    (hrest : liveness ≠ .dead → framesOf a.input = framesOf a'.input) :
    Account a [] a' liveness :=
  ⟨hhandle, hcounter, List.nil_prefix, hrest, hstale, hoptions⟩

/-- One frame read and triaged, then the account of what follows. -/
theorem Account.cons {a b c d : SessionActor} {f : EncapFrame} {fate : ReplyFate}
    {expected : ReplyExpectation} {new : List (EncapFrame × ReplyFate)} {liveness : Liveness}
    (hread : framesOf a.input = f :: framesOf b.input)
    (hhandle : b.sessionHandle = a.sessionHandle) (hcounter : b.nextContext = a.nextContext)
    (hstats : b.stats = a.stats) (ht : Triaged b expected f fate c)
    (h : Account c new d liveness) : Account a ((f, fate) :: new) d liveness := by
  have hsplit : ∀ x, framesWithFate x ((f, fate) :: new) =
      framesWithFate x [(f, fate)] ++ framesWithFate x new :=
    fun x => framesWithFate_append x [(f, fate)] new
  have hframes : framesOf a.input = f :: framesOf c.input := by rw [hread, ht.stream]
  refine ⟨?_, ?_, ?_, ?_, ?_, ?_⟩
  · rw [h.handle, ht.handle, hhandle]
  · rw [h.counter, ht.counter, hcounter]
  · rw [hframes, List.map_cons]
    exact List.cons_prefix_cons.mpr ⟨rfl, h.next⟩
  · intro hlive
    rw [hframes, h.rest hlive]
    rfl
  · rw [h.stale, ht.stale, hstats, hsplit, List.length_append, Nat.add_assoc]
  · rw [h.options, ht.options, hstats, hsplit, List.length_append, Nat.add_assoc]

/-- A list of reads none of which ended the loop. -/
def Discarded (reads : List (EncapFrame × ReplyFate)) : Prop :=
  ∀ p ∈ reads, p.2 = ReplyFate.stale ∨ p.2 = ReplyFate.badOptions

/-- One discarded frame more is discarded with the others. -/
theorem Discarded.snoc {reads : List (EncapFrame × ReplyFate)} {f : EncapFrame}
    {fate : ReplyFate} (h : Discarded reads)
    (hfate : fate = ReplyFate.stale ∨ fate = ReplyFate.badOptions) :
    Discarded (reads ++ [(f, fate)]) := by
  intro p hp
  rcases List.mem_append.mp hp with hp | hp
  · exact h p hp
  · rw [List.mem_singleton.mp hp]
    exact hfate

/-- Nothing was delivered among discarded frames. -/
theorem Discarded.framesWithFate_delivered {reads : List (EncapFrame × ReplyFate)}
    (h : Discarded reads) : framesWithFate .delivered reads = [] := by
  have hnone : reads.filter (fun p => p.2 = ReplyFate.delivered) = [] := by
    rw [List.filter_eq_nil_iff]
    intro p hp hfate
    rcases h p hp with hs | hs <;> simp [hs] at hfate
  rw [framesWithFate, hnone]
  rfl

/-- No discarded frame poisoned the session. -/
theorem Discarded.not_poison {reads : List (EncapFrame × ReplyFate)} (h : Discarded reads)
    (f : EncapFrame) : (f, ReplyFate.poison) ∉ reads := by
  intro hmem
  rcases h _ hmem with hs | hs <;> cases hs

/-- A transaction that only discarded frames and ended without an `Ok` is settled. -/
theorem settled_of_discarded {command : Command} {handle : UInt32} {o : TransactOutcome}
    (h : Discarded o.reads) (hreply : ∀ f, o.reply ≠ some (.ok f)) :
    TransactionSettled command handle o := by
  refine ⟨?_, ?_, ?_⟩
  · intro f hf
    exact absurd hf (hreply f)
  · rw [h.framesWithFate_delivered]
    rcases hr : o.reply with _ | ⟨e | f⟩
    · rfl
    · rfl
    · exact absurd hr (hreply f)
  · intro f hf
    exact absurd hf (h.not_poison f)

/-- A transaction whose last frame was delivered is settled. -/
theorem settled_of_delivered {expected : ReplyExpectation} {f : EncapFrame}
    {reads : List (EncapFrame × ReplyFate)} (h : Discarded reads)
    (hopt : f.header.options = 0) (hm : matchReply expected f.header = .match_) :
    TransactionSettled expected.command expected.sessionHandle
      ⟨some expected.context, reads ++ [(f, .delivered)], some (.ok f), .alive⟩ := by
  obtain ⟨hctx, hcmd, hhandle⟩ := matchReply_eq_match hm
  refine ⟨?_, ?_, ?_⟩
  · intro g hg
    cases hg
    exact ⟨hopt, by rw [hctx], hcmd, hhandle⟩
  · rw [framesWithFate_append, h.framesWithFate_delivered]
    rfl
  · intro g hg
    rcases List.mem_append.mp hg with hg | hg
    · exact absurd hg (h.not_poison g)
    · simp at hg

/-- A transaction whose last frame poisoned the session is settled. -/
theorem settled_of_poison {expected : ReplyExpectation} {f : EncapFrame}
    {reads : List (EncapFrame × ReplyFate)} (h : Discarded reads)
    (hopt : f.header.options = 0) (hm : matchReply expected f.header = .match_)
    (hstatus : f.header.status = .invalidSessionHandle) :
    TransactionSettled expected.command expected.sessionHandle
      ⟨some expected.context, reads ++ [(f, .poison)],
        some (.error (.encap f.header.status)), .dead⟩ := by
  obtain ⟨hctx, hcmd, hhandle⟩ := matchReply_eq_match hm
  refine ⟨?_, ?_, ?_⟩
  · intro g hg
    cases hg
  · rw [framesWithFate_append, h.framesWithFate_delivered]
    rfl
  · intro g hg
    rcases List.mem_append.mp hg with hg | hg
    · exact absurd hg (h.not_poison g)
    · simp only [List.mem_singleton, Prod.mk.injEq, and_true] at hg
      subst hg
      exact ⟨⟨hopt, by rw [hctx], hcmd, hhandle⟩, hstatus, by rw [hstatus], rfl⟩

/-- What the reply loop returns, given the frames it had read before. -/
def LoopSpec (expected : ReplyExpectation) (reads : List (EncapFrame × ReplyFate))
    (a : SessionActor) (r : SessionActor × TransactOutcome) : Prop :=
  ∃ new, r.2.reads = reads ++ new ∧ Account a new r.1 r.2.liveness ∧
    r.2.context = some a.currentContext ∧
    TransactionSettled expected.command expected.sessionHandle r.2

/-- The loop leaves without a frame. -/
theorem loopSpec_of_idle {expected : ReplyExpectation} {a a' : SessionActor}
    {reads : List (EncapFrame × ReplyFate)} {o : TransactOutcome} (h : Discarded reads)
    (hacc : Account a [] a' o.liveness) (hreads : o.reads = reads)
    (hctx : o.context = some a.currentContext) (hreply : ∀ f, o.reply ≠ some (.ok f)) :
    LoopSpec expected reads a (a', o) := by
  refine ⟨[], ?_, hacc, hctx, ?_⟩
  · rw [hreads, List.append_nil]
  · exact settled_of_discarded (by rw [hreads]; exact h) hreply

/-- The loop goes round again after one frame. -/
theorem loopSpec_of_discard {expected : ReplyExpectation} {a b c : SessionActor}
    {f : EncapFrame} {fate : ReplyFate} {reads : List (EncapFrame × ReplyFate)}
    {r : SessionActor × TransactOutcome}
    (hread : framesOf a.input = f :: framesOf b.input)
    (hhandle : b.sessionHandle = a.sessionHandle) (hcounter : b.nextContext = a.nextContext)
    (hstats : b.stats = a.stats) (ht : Triaged b expected f fate c)
    (h : LoopSpec expected (reads ++ [(f, fate)]) c r) : LoopSpec expected reads a r := by
  obtain ⟨new, hnew, hacc, hctx, hset⟩ := h
  refine ⟨(f, fate) :: new, ?_, Account.cons hread hhandle hcounter hstats ht hacc, ?_, hset⟩
  · rw [hnew, List.append_assoc]
    rfl
  · rw [hctx, currentContext, ht.counter, hcounter, ← currentContext]

/-- A read that hit the deadline moves no counter of the contract. -/
theorem readTimedOut_spec {expected : ReplyExpectation} {a b : SessionActor}
    {reads : List (EncapFrame × ReplyFate)} (h : Discarded reads)
    (hhandle : b.sessionHandle = a.sessionHandle) (hcounter : b.nextContext = a.nextContext)
    (hstats : b.stats = a.stats) (hrest : framesOf a.input = framesOf b.input) :
    LoopSpec expected reads a (b.readTimedOut reads) := by
  have hctx : b.currentContext = a.currentContext := by
    unfold currentContext
    rw [hcounter]
  unfold readTimedOut
  extract_lets _ c
  have hacc : ∀ liveness, Account a [] c liveness := by
    intro liveness
    refine Account.idle hhandle hcounter ?_ ?_ (fun _ => hrest)
    · rw [← hstats]
    · rw [← hstats]
  have hsome : some c.currentContext = some a.currentContext := congrArg some hctx
  split
  · refine loopSpec_of_idle h (hacc _) rfl hsome ?_
    intro f hf
    cases hf
  · refine loopSpec_of_idle h (hacc _) rfl hsome ?_
    intro f hf
    cases hf

/-- The reply loop, by induction on its passes: every pass that goes round again adds one
discarded frame. -/
theorem replyLoop_spec (fuel : ℕ) (expected : ReplyExpectation)
    (reads : List (EncapFrame × ReplyFate)) (a : SessionActor) (hquiet : Discarded reads)
    (hctx : expected.context = a.currentContext) :
    LoopSpec expected reads a (replyLoop fuel expected reads a) := by
  induction fuel generalizing reads a with
  | zero =>
      refine loopSpec_of_idle hquiet (Account.idle rfl rfl rfl rfl (fun _ => rfl)) rfl rfl ?_
      intro f hf
      cases hf
  | succ fuel ih =>
      rw [replyLoop]
      have hstep := readOutcome_step a.stream a.buf
      obtain ⟨⟨outcome, buf, stream⟩, hr⟩ : ∃ r, readOutcome a.stream a.buf = r := ⟨_, rfl⟩
      rw [hr] at hstep
      simp only [hr]
      set b : SessionActor := { a with buf := buf, stream := stream } with hb
      cases outcome with
      | frame f =>
          have hread : framesOf a.input = f :: framesOf b.input := hstep.1
          have ht := triageReply_spec b expected f
          obtain ⟨⟨fate, c⟩, htr⟩ : ∃ r, b.triageReply expected f = r := ⟨_, rfl⟩
          rw [htr] at ht
          simp only [htr] at ht ⊢
          have hcctx : c.currentContext = a.currentContext := by
            unfold currentContext
            rw [ht.counter]
          cases fate with
          | delivered =>
              obtain ⟨hopt, hm⟩ := ht.matched (Or.inl rfl)
              refine ⟨[(f, .delivered)], rfl, Account.cons hread rfl rfl rfl ht ?_, ?_, ?_⟩
              · exact Account.idle rfl rfl rfl rfl (fun _ => rfl)
              · simp only [hcctx]
              · simp only [hcctx, ← hctx]
                exact settled_of_delivered hquiet hopt hm
          | poison =>
              obtain ⟨hopt, hm⟩ := ht.matched (Or.inr rfl)
              simp only [sever]
              refine ⟨[(f, .poison)], rfl, Account.cons hread rfl rfl rfl ht ?_, ?_, ?_⟩
              · exact Account.idle rfl rfl rfl rfl (fun _ => rfl)
              · simp only [hcctx]
              · simp only [hcctx, ← hctx]
                exact settled_of_poison hquiet hopt hm (ht.poison rfl)
          | stale =>
              refine loopSpec_of_discard hread rfl rfl rfl ht (ih _ c ?_ ?_)
              · exact hquiet.snoc (Or.inl rfl)
              · rw [hctx, hcctx]
          | badOptions =>
              refine loopSpec_of_discard hread rfl rfl rfl ht (ih _ c ?_ ?_)
              · exact hquiet.snoc (Or.inr rfl)
              · rw [hctx, hcctx]
      | eof =>
          refine loopSpec_of_idle hquiet (Account.idle rfl rfl rfl rfl ?_) rfl rfl ?_
          · intro hdead
            exact absurd rfl hdead
          · intro f hf
            cases hf
      | broken e =>
          refine loopSpec_of_idle hquiet (Account.idle rfl rfl rfl rfl ?_) rfl rfl ?_
          · intro hdead
            exact absurd rfl hdead
          · intro f hf
            cases hf
      | timedOut => exact readTimedOut_spec hquiet rfl rfl rfl hstep
      | pending =>
          refine loopSpec_of_idle hquiet (Account.idle rfl rfl rfl rfl ?_) rfl rfl ?_
          · intro _
            exact hstep.1
          · intro f hf
            cases hf

/-- A read that hit the deadline ends the transaction. -/
theorem readTimedOut_not_waiting (a : SessionActor) (reads : List (EncapFrame × ReplyFate)) :
    (a.readTimedOut reads).2.liveness ≠ .waiting := by
  unfold readTimedOut
  extract_lets _ c
  split <;> rintro ⟨⟩

/-- The loop never runs out of passes: it waits only when the stream has nothing more. -/
theorem replyLoop_waiting (fuel : ℕ) (expected : ReplyExpectation)
    (reads : List (EncapFrame × ReplyFate)) (a : SessionActor) (hfuel : a.input.length < fuel)
    (h : (replyLoop fuel expected reads a).2.liveness = .waiting) :
    (replyLoop fuel expected reads a).1.stream = [] := by
  induction fuel generalizing reads a with
  | zero => omega
  | succ fuel ih =>
      rw [replyLoop] at h ⊢
      have hstep := readOutcome_step a.stream a.buf
      obtain ⟨⟨outcome, buf, stream⟩, hr⟩ : ∃ r, readOutcome a.stream a.buf = r := ⟨_, rfl⟩
      rw [hr] at hstep
      simp only [hr] at h ⊢
      cases outcome with
      | frame f =>
          have hlt : (buf ++ received stream).length < a.input.length := hstep.2
          have ht := triageReply_spec { a with buf := buf, stream := stream } expected f
          obtain ⟨⟨fate, c⟩, htr⟩ : ∃ r,
            triageReply { a with buf := buf, stream := stream } expected f = r := ⟨_, rfl⟩
          rw [htr] at ht
          simp only [htr] at ht h ⊢
          have hc : c.input.length < fuel := by
            rw [ht.stream]
            exact Nat.lt_of_lt_of_le hlt (Nat.le_of_lt_succ hfuel)
          cases fate with
          | delivered => cases h
          | poison => cases h
          | stale => exact ih _ c hc h
          | badOptions => exact ih _ c hc h
      | eof => cases h
      | broken e => cases h
      | timedOut => exact absurd h (readTimedOut_not_waiting _ _)
      | pending => exact hstep.2

/-! ## One transaction, and a run of them -/

structure TransactSpec (a : SessionActor) (t : Transaction) (a' : SessionActor)
    (o : TransactOutcome) : Prop where
  handle : a'.sessionHandle = a.sessionHandle
  next : o.reads.map Prod.fst <+: framesOf a.input
  rest : o.liveness ≠ .dead → framesOf a.input = o.reads.map Prod.fst ++ framesOf a'.input
  stale : a'.stats.staleReplies =
    a.stats.staleReplies + (framesWithFate .stale o.reads).length
  options : a'.stats.discardedOptions =
    a.stats.discardedOptions + (framesWithFate .badOptions o.reads).length
  settled : TransactionSettled t.command a.sessionHandle o
  /-- The context issued, if one is, is the counter's next value. -/
  context : (o.context = none ∧ a'.nextContext = a.nextContext) ∨
    (o.context = some (putU64 (a.nextContext + 1)) ∧ a'.nextContext = a.nextContext + 1)

/-- A transaction whose frames the loop accounts for, after its context was issued. -/
theorem transactSpec_of_loop {a : SessionActor} {t : Transaction} {ctx : Bytes}
    {r : SessionActor × TransactOutcome}
    (h : LoopSpec ⟨t.command, a.sessionHandle, ctx⟩ [] a.advanceContext r) :
    TransactSpec a t r.1 r.2 := by
  obtain ⟨new, hnew, hacc, hctx, hset⟩ := h
  rw [List.nil_append] at hnew
  subst hnew
  exact ⟨hacc.handle, hacc.next, hacc.rest, hacc.stale, hacc.options, hset,
    Or.inr ⟨hctx, hacc.counter⟩⟩

/-- No frame was read before this point of a transaction. -/
theorem discarded_nil : Discarded [] := by
  intro p hp
  cases hp

/-- Every transaction ends as one of the cases says. -/
theorem transact_spec (a : SessionActor) (t : Transaction) (env : TransactScript) :
    TransactSpec a t (a.transact t env).1 (a.transact t env).2 := by
  unfold transact
  cases preflight t.deadline env.replyClosed env.now with
  | abandoned =>
      refine ⟨rfl, List.nil_prefix, fun _ => rfl, rfl, rfl, ?_, Or.inl ⟨rfl, rfl⟩⟩
      exact settled_of_discarded discarded_nil (by rintro f ⟨⟩)
  | expired =>
      refine ⟨rfl, List.nil_prefix, fun _ => rfl, rfl, rfl, ?_, Or.inl ⟨rfl, rfl⟩⟩
      exact settled_of_discarded discarded_nil (by rintro f ⟨⟩)
  | run =>
      have hdead : ∀ (b : SessionActor) (e : EnipError),
          b.sessionHandle = a.sessionHandle → b.nextContext = a.nextContext + 1 →
          b.stats.staleReplies = a.stats.staleReplies →
          b.stats.discardedOptions = a.stats.discardedOptions →
          TransactSpec a t (b.sever [] e).1 (b.sever [] e).2 := by
        intro b e hhandle hcounter hstale hoptions
        refine ⟨hhandle, List.nil_prefix, fun hd => absurd rfl hd, hstale, hoptions, ?_,
          Or.inr ⟨?_, hcounter⟩⟩
        · exact settled_of_discarded discarded_nil (by rintro f ⟨⟩)
        · rw [← hcounter]
          rfl
      simp only
      split
      · exact hdead _ _ rfl rfl rfl rfl
      · exact hdead _ _ rfl rfl rfl rfl
      · exact hdead _ _ rfl rfl rfl rfl
      · exact transactSpec_of_loop
          (replyLoop_spec _ ⟨t.command, a.sessionHandle, a.advanceContext.currentContext⟩ []
            a.advanceContext discarded_nil rfl)

/-- A transaction waits only for a stream that has nothing more to give. -/
theorem transact_waiting (a : SessionActor) (t : Transaction) (env : TransactScript)
    (h : (a.transact t env).2.liveness = .waiting) : (a.transact t env).1.stream = [] := by
  unfold transact at h ⊢
  cases hp : preflight t.deadline env.replyClosed env.now with
  | abandoned => simp [hp] at h
  | expired => simp [hp] at h
  | run =>
      simp only [hp] at h ⊢
      revert h
      split
      · rintro ⟨⟩
      · rintro ⟨⟩
      · rintro ⟨⟩
      · intro h
        exact replyLoop_waiting _ _ _ _ (Nat.lt_succ_self _) h

/-- The two ways a run goes on after its first transaction. -/
theorem run_cons (a : SessionActor) (t : Transaction) (env : TransactScript)
    (rest : List (Transaction × TransactScript)) :
    a.run ((t, env) :: rest) =
      if (a.transact t env).2.liveness = .alive then
        (((a.transact t env).1.run rest).1,
          (a.transact t env).2 :: ((a.transact t env).1.run rest).2)
      else ((a.transact t env).1, [(a.transact t env).2]) := by
  rw [run]
  simp only
  cases hl : (a.transact t env).2.liveness with
  | alive => simp only [if_true]
  | dead => rfl
  | waiting => rfl

/-- The contexts a run issues are successive values of the counter. -/
theorem run_context (txns : List (Transaction × TransactScript)) (a : SessionActor)
    (o : TransactOutcome) (ctx : Bytes) (ho : o ∈ (a.run txns).2)
    (hctx : o.context = some ctx) :
    ∃ k, 1 ≤ k ∧ k ≤ txns.length ∧ ctx = putU64 (a.nextContext + UInt64.ofNat k) := by
  induction txns generalizing a with
  | nil => cases ho
  | cons p rest ih =>
      obtain ⟨t, env⟩ := p
      have hspec := transact_spec a t env
      have hhead : o = (a.transact t env).2 →
          ∃ k, 1 ≤ k ∧ k ≤ rest.length + 1 ∧
            ctx = putU64 (a.nextContext + UInt64.ofNat k) := by
        intro heq
        rw [heq] at hctx
        rcases hspec.context with ⟨hnone, -⟩ | ⟨hsome, -⟩
        · rw [hnone] at hctx
          cases hctx
        · rw [hsome] at hctx
          cases hctx
          exact ⟨1, le_rfl, by omega, rfl⟩
      rw [run_cons] at ho
      by_cases hl : (a.transact t env).2.liveness = .alive
      · rw [if_pos hl] at ho
        rcases List.mem_cons.mp ho with ho | ho
        · exact hhead ho
        · obtain ⟨k, hk1, hk2, hk3⟩ := ih _ ho
          rcases hspec.context with ⟨-, hcount⟩ | ⟨-, hcount⟩
          · exact ⟨k, hk1, by simp only [List.length_cons]; omega, by rw [hk3, hcount]⟩
          · refine ⟨k + 1, by omega, by simp only [List.length_cons]; omega, ?_⟩
            rw [hk3, hcount, UInt64.ofNat_add, UInt64.add_assoc,
              UInt64.add_comm 1]
            rfl
      · rw [if_neg hl] at ho
        exact hhead (List.mem_singleton.mp ho)

/-- Counter values less than `2^64` steps apart are different contexts. -/
theorem putU64_counter_ne {c : UInt64} {k : ℕ} (hk : 1 ≤ k) (hlt : k < 2 ^ 64) :
    putU64 c ≠ putU64 (c + UInt64.ofNat k) := by
  intro h
  have heq := congrArg UInt64.toNat (putU64_inj h)
  rw [UInt64.toNat_add, UInt64.toNat_ofNat'] at heq
  have hc := c.toNat_lt
  omega

/-- No two transactions of a run share a context. -/
theorem run_contexts_pairwise (txns : List (Transaction × TransactScript)) (a : SessionActor)
    (hlen : txns.length < 2 ^ 64) :
    (a.run txns).2.Pairwise
      (fun o o' => ∀ ctx, o.context = some ctx → o'.context ≠ some ctx) := by
  induction txns generalizing a with
  | nil => exact List.Pairwise.nil
  | cons p rest ih =>
      obtain ⟨t, env⟩ := p
      rw [List.length_cons] at hlen
      rw [run_cons]
      by_cases hl : (a.transact t env).2.liveness = .alive
      · rw [if_pos hl]
        refine List.Pairwise.cons ?_ (ih _ (by omega))
        intro o' ho' ctx hctx hctx'
        obtain ⟨k, hk1, hk2, hk3⟩ := run_context rest _ o' ctx ho' hctx'
        rcases (transact_spec a t env).context with ⟨hnone, -⟩ | ⟨hsome, hcount⟩
        · rw [hnone] at hctx
          cases hctx
        · rw [hsome] at hctx
          cases hctx
          rw [hcount] at hk3
          exact putU64_counter_ne hk1 (by omega) hk3
      · rw [if_neg hl]
        exact List.pairwise_singleton _ _

/-- The accounts of a run add up. -/
theorem run_account (txns : List (Transaction × TransactScript)) (a : SessionActor) :
    (a.run txns).2.flatMap (fun o => o.reads.map Prod.fst) <+: framesOf a.input ∧
    (a.run txns).1.stats.staleReplies = a.stats.staleReplies +
      ((a.run txns).2.flatMap (fun o => framesWithFate .stale o.reads)).length ∧
    (a.run txns).1.stats.discardedOptions = a.stats.discardedOptions +
      ((a.run txns).2.flatMap (fun o => framesWithFate .badOptions o.reads)).length := by
  induction txns generalizing a with
  | nil => exact ⟨List.nil_prefix, rfl, rfl⟩
  | cons p rest ih =>
      obtain ⟨t, env⟩ := p
      have hspec := transact_spec a t env
      rw [run_cons]
      by_cases hl : (a.transact t env).2.liveness = .alive
      · rw [if_pos hl]
        obtain ⟨hframes, hstale, hoptions⟩ := ih (a.transact t env).1
        simp only [List.flatMap_cons, List.length_append]
        refine ⟨?_, ?_, ?_⟩
        · rw [hspec.rest (by rw [hl]; rintro ⟨⟩)]
          exact (List.prefix_append_right_inj _).mpr hframes
        · rw [hstale, hspec.stale, Nat.add_assoc]
        · rw [hoptions, hspec.options, Nat.add_assoc]
      · rw [if_neg hl]
        simp only [List.flatMap_cons, List.flatMap_nil, List.append_nil]
        exact ⟨hspec.next, hspec.stale, hspec.options⟩

/-- Every transaction of a run is settled by its own reply. -/
theorem run_settled (txns : List (Transaction × TransactScript)) (a : SessionActor) (i : ℕ)
    (t : Transaction) (env : TransactScript) (o : TransactOutcome)
    (ht : txns[i]? = some (t, env)) (ho : (a.run txns).2[i]? = some o) :
    TransactionSettled t.command a.sessionHandle o := by
  induction txns generalizing a i with
  | nil => simp at ht
  | cons p rest ih =>
      obtain ⟨t', env'⟩ := p
      have hspec := transact_spec a t' env'
      rw [run_cons] at ho
      cases i with
      | zero =>
          simp only [List.getElem?_cons_zero, Option.some.injEq, Prod.mk.injEq] at ht
          obtain ⟨rfl, rfl⟩ := ht
          split_ifs at ho
          · simp only [List.getElem?_cons_zero, Option.some.injEq] at ho
            rw [← ho]
            exact hspec.settled
          · simp only [List.getElem?_cons_zero, Option.some.injEq] at ho
            rw [← ho]
            exact hspec.settled
      | succ i =>
          split_ifs at ho
          · rw [List.getElem?_cons_succ] at ht ho
            have hrest := ih _ i ht ho
            rwa [hspec.handle] at hrest
          · simp at ho

/-- The session contract holds of every run: any peer, any chunking of its bytes, any
deadlines, any list of transactions. -/
theorem session_correlation (stream : List ReadEvent) (leftover : Bytes) (handle : UInt32)
    (maxConsecutiveTimeouts : UInt32) (txns : List (Transaction × TransactScript)) :
    SessionContract handle (leftover ++ received stream) txns
      ((spawn stream leftover handle maxConsecutiveTimeouts).run txns).1
      ((spawn stream leftover handle maxConsecutiveTimeouts).run txns).2 := by
  set a := spawn stream leftover handle maxConsecutiveTimeouts with ha
  obtain ⟨honce, hstale, hoptions⟩ := run_account txns a
  refine ⟨?_, ?_, honce, ?_, ?_⟩
  · intro i t env o ht ho
    exact run_settled txns a i t env o ht ho
  · intro hlen i j o o' ctx hij hi hj hctx hctx'
    have hpair := List.pairwise_iff_getElem.mp (run_contexts_pairwise txns a hlen)
    obtain ⟨hi', rfl⟩ := List.getElem?_eq_some_iff.mp hi
    obtain ⟨hj', rfl⟩ := List.getElem?_eq_some_iff.mp hj
    rcases Nat.lt_or_gt_of_ne hij with hlt | hlt
    · exact hpair i j hi' hj' hlt ctx hctx hctx'
    · exact hpair j i hj' hi' hlt ctx hctx' hctx
  · rw [hstale]
    exact Nat.zero_add _
  · rw [hoptions]
    exact Nat.zero_add _

end EnipAdapter.Analysis
