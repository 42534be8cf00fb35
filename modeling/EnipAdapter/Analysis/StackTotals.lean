import EnipAdapter.Interface.MeterContract
import Mathlib.Algebra.BigOperators.Group.List.Basic
import Mathlib.Algebra.Order.BigOperators.Group.List

/-!
# What becomes of the stack counters

A tick moves the growth since the last folded snapshot into the totals, so a connection leaves in
them what its last tick saw. The end of a connection resets the baseline without another fold:
what was counted after that snapshot is in no total.
-/

set_option autoImplicit false

namespace EnipAdapter.Analysis

open EnipAdapter.Model EnipAdapter.Interface

/-! ## One snapshot -/

/-- A counter that grew has grown by the difference. -/
theorem growth_of_le {last cur : ℕ} (h : last ≤ cur) : growth last cur = cur - last :=
  if_pos h

/-- A fold adds to every total the growth of its counter. -/
theorem totalOf_recordIoStats (io : IoLinkCounters) (s : IoLinkStats) (counter : StackCounter) :
    totalOf (io.recordIoStats s).1 counter =
      totalOf io counter + growth (inStack io.lastStats counter) (inStack s counter) := by
  cases counter <;> rfl

/-- The end of a link leaves the totals. -/
theorem totalOf_endLink (io : IoLinkCounters) (ending : LinkEnd) (counter : StackCounter) :
    totalOf (endLink io ending) counter = totalOf io counter := by
  cases ending <;> cases counter <;> rfl

/-- It forgets the counters of the stack. -/
theorem lastStats_endLink (io : IoLinkCounters) (ending : LinkEnd) :
    (endLink io ending).lastStats = {} := by
  cases ending <;> rfl

/-! ## One connection -/

/-- What was folded is behind the translator's snapshot, and that is behind the stack. -/
structure InOrder (s : MeterState) : Prop where
  folded : ∀ c, inStack s.io.lastStats c ≤ inStack s.shared c
  shared : ∀ c, inStack s.shared c ≤ inStack s.stack c
  refused : s.stack.refusedRedirects ≤ 1

/-- What the steps since a state have moved: each total grows with its baseline, and each newly
refused redirect is told. -/
structure Accounts (s s' : MeterState) : Prop where
  totals : ∀ c, totalOf s'.io c + inStack s.io.lastStats c =
    totalOf s.io c + inStack s'.io.lastStats c
  events : s'.redirectsRefused.length + s.io.lastStats.refusedRedirects =
    s.redirectsRefused.length + s'.io.lastStats.refusedRedirects

/-- Where nothing happens, the account is kept. -/
theorem accounts_refl (s : MeterState) : Accounts s s := ⟨fun _ => rfl, rfl⟩

/-- Accounts compose. -/
theorem accounts_trans {s s' s'' : MeterState} (h : Accounts s s') (h' : Accounts s' s'') :
    Accounts s s'' where
  totals := by
    intro c
    have hfirst := h.totals c
    have hsecond := h'.totals c
    omega
  events := by
    have hfirst := h.events
    have hsecond := h'.events
    omega

/-- A tick accounts for the growth since the last one. -/
theorem tick_accounts {s : MeterState} (h : InOrder s) : Accounts s (meterStep s .tick) where
  totals := by
    intro c
    have hle := h.folded c
    show totalOf (s.io.recordIoStats s.shared).1 c + _ = totalOf s.io c + inStack s.shared c
    rw [totalOf_recordIoStats, growth_of_le hle]
    omega
  events := by
    have hle : s.io.lastStats.refusedRedirects ≤ s.shared.refusedRedirects :=
      h.folded .refusedRedirects
    have hbound : s.shared.refusedRedirects ≤ 1 := le_trans (h.shared .refusedRedirects) h.refused
    show (if decide (0 < growth s.io.lastStats.refusedRedirects s.shared.refusedRedirects) = true
      then s.redirectsRefused ++ [s.shared.refusedRedirects] else s.redirectsRefused).length + _ =
      _ + s.shared.refusedRedirects
    rw [growth_of_le hle]
    split_ifs with hnew
    · rw [decide_eq_true_eq] at hnew
      rw [List.length_append, List.length_singleton]
      omega
    · rw [decide_eq_true_eq] at hnew
      omega

/-- After some steps: the baseline is what the last tick folded, it is behind the stack, and
everything is accounted for. -/
theorem steps_account {steps : List MeterStep} {s : MeterState} (horder : InOrder s)
    (hcounts : CountsUp s.stack steps) :
    (steps.foldl meterStep s).io.lastStats = lastFolded s.stack s.shared s.io.lastStats steps ∧
      Accounts s (steps.foldl meterStep s) ∧
      (∀ c, inStack (steps.foldl meterStep s).io.lastStats c ≤
        inStack (stackAfter s.stack steps) c) ∧
      (stackAfter s.stack steps).refusedRedirects ≤ 1 := by
  induction steps generalizing s with
  | nil =>
      refine ⟨rfl, accounts_refl s, ?_, horder.refused⟩
      intro c
      exact le_trans (horder.folded c) (horder.shared c)
  | cons step steps ih =>
      cases step with
      | counted stats =>
          obtain ⟨hup, hrefused, hlater⟩ := hcounts
          have hnext : InOrder (meterStep s (.counted stats)) :=
            ⟨horder.folded, fun c => le_trans (horder.shared c) (hup c), hrefused⟩
          obtain ⟨hlast, haccounts, hle⟩ := ih hnext hlater
          exact ⟨hlast, ⟨haccounts.totals, haccounts.events⟩, hle⟩
      | refreshed =>
          have hnext : InOrder (meterStep s .refreshed) :=
            ⟨fun c => le_trans (horder.folded c) (horder.shared c), fun _ => le_rfl,
              horder.refused⟩
          obtain ⟨hlast, haccounts, hle⟩ := ih hnext hcounts
          exact ⟨hlast, ⟨haccounts.totals, haccounts.events⟩, hle⟩
      | tick =>
          have hnext : InOrder (meterStep s .tick) :=
            ⟨fun _ => le_rfl, horder.shared, horder.refused⟩
          obtain ⟨hlast, haccounts, hle⟩ := ih hnext hcounts
          exact ⟨hlast, accounts_trans (tick_accounts horder) haccounts, hle⟩

/-- The snapshot a connection leaves in the totals. -/
def foldedStats (c : MeteredConnection) : IoLinkStats := lastFolded {} {} {} c.steps

/-- Before the first link the baselines are in order. -/
theorem inOrder_start {io : IoLinkCounters} (hio : io.lastStats = {}) : InOrder { io := io } where
  folded := by
    intro c
    rw [hio]
  shared := fun _ => le_rfl
  refused := Nat.zero_le 1

/-- A connection leaves in the totals what its last tick folded, which is at most what the stack
counted, and tells once of a refused redirect that a tick folded. -/
theorem meterConnection_spec {io : IoLinkCounters} {c : MeteredConnection}
    (hio : io.lastStats = {}) (hcounts : CountsFromZero c) :
    (∀ counter, totalOf (meterConnection io c).1 counter =
      totalOf io counter + inStack (foldedStats c) counter) ∧
    (meterConnection io c).2.length = (foldedStats c).refusedRedirects ∧
    (meterConnection io c).1.lastStats = {} ∧
    (∀ counter, inStack (foldedStats c) counter ≤ inStack (finalStats c) counter) ∧
    (finalStats c).refusedRedirects ≤ 1 := by
  obtain ⟨hlast, haccounts, hle, hrefused⟩ := steps_account (inOrder_start hio) hcounts
  have hfolded : (c.steps.foldl meterStep { io := io }).io.lastStats = foldedStats c := by
    rw [hlast]
    show lastFolded {} {} io.lastStats c.steps = _
    rw [hio]
    rfl
  refine ⟨?_, ?_, lastStats_endLink _ _, ?_, hrefused⟩
  · intro counter
    have htotal := haccounts.totals counter
    rw [hfolded] at htotal
    have hzero : inStack io.lastStats counter = 0 := by
      rw [hio]
      cases counter <;> rfl
    show totalOf (endLink _ c.ending) counter = _
    rw [totalOf_endLink]
    change _ + inStack io.lastStats counter = totalOf io counter + _ at htotal
    omega
  · have hevents := haccounts.events
    rw [hfolded] at hevents
    change _ + io.lastStats.refusedRedirects = 0 + _ at hevents
    have hzero : io.lastStats.refusedRedirects = 0 := by rw [hio]
    show (c.steps.foldl meterStep { io := io }).redirectsRefused.length = _
    omega
  · intro counter
    rw [← hfolded]
    exact hle counter

/-! ## All connections -/

/-- The totals after a run are what the connections' last ticks folded. -/
theorem meterRun_spec {cs : List MeteredConnection} {io : IoLinkCounters}
    (hio : io.lastStats = {}) (hcounts : ∀ c ∈ cs, CountsFromZero c) :
    (∀ counter, totalOf (meterRun io cs).1 counter =
      totalOf io counter + (cs.map fun c => inStack (foldedStats c) counter).sum) ∧
    (meterRun io cs).2.map List.length = cs.map fun c => (foldedStats c).refusedRedirects := by
  induction cs generalizing io with
  | nil => exact ⟨fun _ => rfl, rfl⟩
  | cons c cs ih =>
      obtain ⟨htotal, hevents, hlast, -, -⟩ :=
        meterConnection_spec hio (hcounts c List.mem_cons_self)
      obtain ⟨hlater, hlaterEvents⟩ :=
        ih hlast fun c' hc' => hcounts c' (List.mem_cons_of_mem _ hc')
      refine ⟨?_, ?_⟩
      · intro counter
        show totalOf (meterRun (meterConnection io c).1 cs).1 counter = _
        rw [hlater counter, htotal counter, List.map_cons, List.sum_cons]
        omega
      · show (meterConnection io c).2.length ::
          (meterRun (meterConnection io c).1 cs).2.map List.length = _
        rw [hevents, hlaterEvents, List.map_cons]

/-- A sum of terms that are below those of another sum equals it only term by term. -/
theorem sum_eq_sum_iff_of_le {α : Type} {f g : α → ℕ} {l : List α} (h : ∀ a ∈ l, f a ≤ g a) :
    (l.map f).sum = (l.map g).sum ↔ ∀ a ∈ l, f a = g a := by
  induction l with
  | nil => simp
  | cons a l ih =>
      have hle : (l.map f).sum ≤ (l.map g).sum :=
        List.sum_le_sum fun b hb => h b (List.mem_cons_of_mem _ hb)
      have hhead := h a List.mem_cons_self
      rw [List.map_cons, List.map_cons, List.sum_cons, List.sum_cons, List.forall_mem_cons,
        ← ih fun b hb => h b (List.mem_cons_of_mem _ hb)]
      omega

/-- Over any run of connections that count up from zero, every total grows by the final values
of its counter and every refused redirect is told once, exactly when each connection is settled:
its last metrics tick folds a snapshot taken after the last counter grew. -/
theorem nothing_lost_iff_settled (cs : List MeteredConnection)
    (hcounts : ∀ c ∈ cs, CountsFromZero c) :
    NothingLost {} cs (meterRun {} cs) ↔ ∀ c ∈ cs, FoldedFinal c := by
  have hstart : ({} : IoLinkCounters).lastStats = {} := rfl
  obtain ⟨htotal, hevents⟩ := meterRun_spec hstart hcounts
  have hbelow : ∀ c ∈ cs, ∀ counter,
      inStack (foldedStats c) counter ≤ inStack (finalStats c) counter :=
    fun c hc => (meterConnection_spec hstart (hcounts c hc)).2.2.2.1
  constructor
  · rintro ⟨hsums, -⟩ c hc counter
    have hsum := hsums counter
    rw [htotal counter, Nat.add_right_inj,
      sum_eq_sum_iff_of_le fun c hc => hbelow c hc counter] at hsum
    exact hsum c hc
  · intro hsettled
    refine ⟨?_, ?_⟩
    · intro counter
      rw [htotal counter, Nat.add_right_inj,
        sum_eq_sum_iff_of_le fun c hc => hbelow c hc counter]
      exact fun c hc => hsettled c hc counter
    · rw [hevents]
      apply List.map_congr_left
      intro c hc
      have hrefused := (meterConnection_spec hstart (hcounts c hc)).2.2.2.2
      have hfolded : (foldedStats c).refusedRedirects = (finalStats c).refusedRedirects :=
        hsettled c hc .refusedRedirects
      rw [hfolded]
      split_ifs <;> omega

/-- Three frames produced and a refused redirect. -/
def threeFrames : IoLinkStats := { framesProduced := 3, refusedRedirects := 1 }

/-- A new connection that counts three frames counts from zero. -/
theorem countsFromZero_threeFrames (later : List MeterStep) (hlater : CountsUp threeFrames later)
    (ending : LinkEnd) : CountsFromZero ⟨.counted threeFrames :: later, ending⟩ := by
  refine ⟨?_, by decide, hlater⟩
  intro counter
  cases counter <;> decide

/-- A link whose frames are folded in before it is lost loses none. -/
theorem nothing_lost_of_tick_before_loss :
    NothingLost {} [⟨[.counted threeFrames, .refreshed, .tick], .lost⟩]
      (meterRun {} [⟨[.counted threeFrames, .refreshed, .tick], .lost⟩]) := by
  refine (nothing_lost_iff_settled _ ?_).mpr ?_
  · intro c hc
    obtain rfl := List.mem_singleton.mp hc
    exact countsFromZero_threeFrames [.refreshed, .tick] trivial .lost
  · intro c hc counter
    obtain rfl := List.mem_singleton.mp hc
    cases counter <;> rfl

/-- A connection that is lost before its first metrics tick leaves nothing in the totals and
tells of no refused redirect. -/
theorem loss_before_tick_loses_counters :
    CountsFromZero ⟨[.counted threeFrames, .refreshed], .lost⟩ ∧
      ¬ NothingLost {} [⟨[.counted threeFrames, .refreshed], .lost⟩]
        (meterRun {} [⟨[.counted threeFrames, .refreshed], .lost⟩]) := by
  refine ⟨countsFromZero_threeFrames [.refreshed] trivial .lost, ?_⟩
  rintro ⟨htotals, -⟩
  exact absurd (htotals .framesProduced) (by decide)

end EnipAdapter.Analysis
