import EnipAdapter.Interface.ProducedFrame

/-!
# Catch-up in closed form

A poll divides the lapse by the period instead of walking the ticks. The division, the step
count of 32 bits and the checked product and sum give the first tick after the poll, and the
quotient is the number of ticks that were passed over, so that over any run every tick up to
the last frame was built or counted.
-/

set_option autoImplicit false

namespace EnipAdapter.Analysis

open EnipAdapter.Foundation EnipAdapter.Model EnipAdapter.Interface

/-! ## One poll -/

/-- A poll before the armed tick does nothing. -/
theorem pollProduce_early {c : IoConnection} {now : Instant} (h : now < c.nextProduceAt) :
    c.pollProduce now = (c, none) :=
  if_pos h

/-- A poll at or after the armed tick builds a frame, counts the ticks passed over, and arms the
next one, provided that the steps to it are counted in 32 bits and it is representable. -/
theorem pollProduce_due {c : IoConnection} {now armed api : ℕ} (harmed : c.nextProduceAt = armed)
    (hapi : c.params.o2tApi = api) (h : armed ≤ now) (hpos : 0 < api) (hmax : api ≤ maxReplyApi)
    (hsteps : (now - armed) / api + 1 < 2 ^ 32)
    (hlimit : armed + api * ((now - armed) / api + 1) < Instant.limit) :
    (c.pollProduce now).2.isSome ∧ (c.pollProduce now).1.params = c.params ∧
      (c.pollProduce now).1.counters.produceOverruns =
        c.counters.produceOverruns + (now - armed) / api ∧
      (c.pollProduce now).1.nextProduceAt = armed + api * ((now - armed) / api + 1) := by
  subst harmed hapi
  have hperiod : max c.params.o2tApi 1 = c.params.o2tApi := max_eq_left hpos
  have hmul : Duration.checkedMul c.params.o2tApi
      ((now - c.nextProduceAt) / c.params.o2tApi + 1) =
        some (c.params.o2tApi * ((now - c.nextProduceAt) / c.params.o2tApi + 1)) := by
    apply if_pos
    have hbound : c.params.o2tApi * ((now - c.nextProduceAt) / c.params.o2tApi + 1) ≤
        maxReplyApi * 2 ^ 32 := Nat.mul_le_mul hmax hsteps.le
    exact hbound.trans (by decide)
  have hadd : Instant.checkedAdd c.nextProduceAt
      (c.params.o2tApi * ((now - c.nextProduceAt) / c.params.o2tApi + 1)) = some _ := if_pos hlimit
  have hearly : ¬ now < c.nextProduceAt := Nat.not_lt.mpr h
  simp only [IoConnection.pollProduce, if_neg hearly, hperiod, if_neg hpos.ne', if_pos hsteps, hmul,
    Option.bind_some, hadd, Option.getD_some]
  exact ⟨rfl, rfl, rfl, rfl⟩

/-! ## A run of polls -/

/-- What a run owes its schedule after a poll at `last`: the next tick after it is armed, and
every tick up to it is accounted for. -/
structure OnSchedule (params : IoConnectionParams) (start last : Instant) (r : ProduceRun) :
    Prop where
  params_eq : r.conn.params = params
  armed : r.conn.nextProduceAt = tickAfter start params.o2tApi last
  accounted : r.frames + r.conn.counters.produceOverruns = ticksUpTo start params.o2tApi last
  served : ticksUpTo start params.o2tApi (r.servedUpTo start) = ticksUpTo start params.o2tApi last

section Poll

variable {params : IoConnectionParams} {start last now : ℕ} {r : ProduceRun}

/-- A poll before the armed tick meets no tick and builds no frame. -/
theorem OnSchedule.poll_early (hpos : 0 < params.o2tApi) (h : OnSchedule params start last r)
    (hle : last ≤ now) (hearly : now < tickAfter start params.o2tApi last) :
    OnSchedule params start now (r.poll now) ∧ (r.conn.pollProduce now).2 = none ∧
      ticksUpTo start params.o2tApi now = ticksUpTo start params.o2tApi last := by
  have hsame := ticksUpTo_of_lt_tickAfter hpos hle hearly
  have hnone := pollProduce_early (lt_of_lt_of_eq hearly h.armed.symm)
  have hpoll : r.poll now = r := by
    simp only [ProduceRun.poll, hnone, Option.isSome_none, Bool.false_eq_true, if_false]
  refine ⟨?_, by rw [hnone], hsame⟩
  rw [hpoll]
  refine ⟨h.params_eq, ?_, ?_, ?_⟩
  · rw [h.armed, tickAfter, tickAfter, hsame]
  · rw [h.accounted, hsame]
  · rw [h.served, hsame]

/-- A poll at the armed tick or after it builds a frame, and the ticks up to it are that frame's
and those passed over. -/
theorem OnSchedule.poll_due (hpos : 0 < params.o2tApi) (hmax : params.o2tApi ≤ maxReplyApi)
    (h : OnSchedule params start last r) (hdue : tickAfter start params.o2tApi last ≤ now)
    (hmissed : ticksUpTo start params.o2tApi now < ticksUpTo start params.o2tApi last + 2 ^ 32)
    (hlimit : tickAfter start params.o2tApi now < Instant.limit) :
    OnSchedule params start now (r.poll now) ∧ (r.conn.pollProduce now).2.isSome ∧
      ticksUpTo start params.o2tApi last < ticksUpTo start params.o2tApi now := by
  have hskipped := div_from_tickAfter hpos hdue
  have hadvance := tickAfter_advance hpos hdue
  obtain ⟨hsome, hparams, hover, hnext⟩ := pollProduce_due h.armed (by rw [h.params_eq]) hdue
    hpos hmax (by omega) (by rw [hadvance]; exact hlimit)
  have hpoll : r.poll now = ⟨(r.conn.pollProduce now).1, r.frames + 1, some now⟩ := if_pos hsome
  have hcount := h.accounted
  rw [hadvance] at hnext
  generalize (now - tickAfter start params.o2tApi last) / params.o2tApi = skipped
    at hskipped hover
  refine ⟨⟨?_, ?_, ?_, ?_⟩, hsome, by omega⟩
  · rw [hpoll, hparams, h.params_eq]
  · rw [hpoll, hnext]
  · rw [hpoll]
    show r.frames + 1 + (r.conn.pollProduce now).1.counters.produceOverruns = _
    rw [hover]
    omega
  · rw [hpoll]
    rfl

/-- A poll builds a frame exactly where the count of ticks has grown, and the run stays on
schedule. -/
theorem OnSchedule.poll (hmin : minReplyApi ≤ params.o2tApi) (hmax : params.o2tApi ≤ maxReplyApi)
    (h : OnSchedule params start last r) (hle : last ≤ now)
    (hmissed : ticksUpTo start params.o2tApi now < ticksUpTo start params.o2tApi last + 2 ^ 32)
    (hlimit : tickAfter start params.o2tApi now < Instant.limit) :
    OnSchedule params start now (r.poll now) ∧
      ((r.conn.pollProduce now).2.isSome ↔
        ticksUpTo start params.o2tApi last < ticksUpTo start params.o2tApi now) := by
  have hpos : 0 < params.o2tApi := lt_of_lt_of_le (by decide) hmin
  by_cases hdue : tickAfter start params.o2tApi last ≤ now
  · obtain ⟨hon, hsome, hgrown⟩ := h.poll_due hpos hmax hdue hmissed hlimit
    exact ⟨hon, iff_of_true hsome hgrown⟩
  · obtain ⟨hon, hnone, hsame⟩ := h.poll_early hpos hle (Nat.lt_of_not_le hdue)
    refine ⟨hon, iff_of_false ?_ ?_⟩
    · rw [hnone]
      exact Bool.false_ne_true
    · rw [hsame]
      exact Nat.lt_irrefl _

end Poll

/-- A connection that was just built is on schedule, its first tick one API out. -/
theorem onSchedule_new {params : IoConnectionParams} {start : Instant}
    (hlimit : start + params.o2tApi < Instant.limit) :
    OnSchedule params start 0 { conn := .new params start } := by
  have hzero : ticksUpTo start params.o2tApi 0 = 0 := by simp [ticksUpTo]
  have hstart : ticksUpTo start params.o2tApi start = 0 := by simp [ticksUpTo]
  have hadd : Instant.checkedAdd start params.o2tApi = some (start + params.o2tApi) := if_pos hlimit
  refine ⟨rfl, ?_, ?_, ?_⟩
  · show (Instant.checkedAdd start params.o2tApi).getD start = _
    rw [hadd, tickAfter, hzero]
    simp
  · rw [hzero]
    rfl
  · rw [hzero]
    exact hstart

/-- A run of paced polls stays on schedule. -/
theorem OnSchedule.polls {params : IoConnectionParams} (hmin : minReplyApi ≤ params.o2tApi)
    (hmax : params.o2tApi ≤ maxReplyApi) {start last : Instant} {r : ProduceRun}
    (h : OnSchedule params start last r) {polls : List Instant} {now : Instant}
    (hpaced : Paced start params.o2tApi last (polls ++ [now]))
    (hlimit : TicksRepresentable start params.o2tApi (polls ++ [now])) :
    ∃ last', OnSchedule params start last' (polls.foldl ProduceRun.poll r) ∧ last' ≤ now ∧
      ticksUpTo start params.o2tApi now < ticksUpTo start params.o2tApi last' + 2 ^ 32 := by
  induction polls generalizing last r with
  | nil => exact ⟨last, h, hpaced.1, hpaced.2.1⟩
  | cons p polls ih =>
      obtain ⟨hle, hmissed, hrest⟩ := hpaced
      have hnext := (h.poll hmin hmax hle hmissed (hlimit p List.mem_cons_self)).1
      exact ih hnext hrest fun q hq => hlimit q (List.mem_cons_of_mem p hq)

/-- As long as the first tick after every poll is an instant the clock can represent: a poll
builds a frame exactly where a tick is due that no frame has served, a frame arms the first tick
after it, and the frames and the overruns together are the ticks up to the last frame. -/
theorem produce_follows_schedule {params : IoConnectionParams}
    (hapi : minReplyApi ≤ params.o2tApi ∧ params.o2tApi ≤ maxReplyApi) {start : Instant}
    {polls : List Instant} {now : Instant} (hpaced : Paced start params.o2tApi 0 (polls ++ [now]))
    (hlimit : TicksRepresentable start params.o2tApi (polls ++ [now])) :
    FollowsSchedule params start polls now := by
  obtain ⟨hmin, hmax⟩ := hapi
  have hpos : 0 < params.o2tApi := lt_of_lt_of_le (by decide) hmin
  have hnow : tickAfter start params.o2tApi now < Instant.limit := hlimit now (by simp)
  have hfirst : start + params.o2tApi < Instant.limit := by
    apply lt_of_le_of_lt _ hnow
    rw [tickAfter, Nat.succ_mul]
    omega
  obtain ⟨last, hon, hle, hmissed⟩ := (onSchedule_new hfirst).polls hmin hmax hpaced hlimit
  obtain ⟨hnext, hframe⟩ := hon.poll hmin hmax hle hmissed hnow
  have hafter : ProduceRun.after params start (polls ++ [now]) =
      (ProduceRun.after params start polls).poll now := by
    simp only [ProduceRun.after, List.foldl_append, List.foldl_cons, List.foldl_nil]
  refine ⟨?_, ?_, ?_⟩
  · rw [exists_tick_iff hpos]
    show _ ↔ ticksUpTo _ _ ((polls.foldl ProduceRun.poll _).servedUpTo start) < _
    rw [hon.served]
    exact hframe
  · intro hsome
    have hconn : ((ProduceRun.after params start polls).poll now).conn =
        ((ProduceRun.after params start polls).conn.pollProduce now).1 := by
      rw [ProduceRun.poll, if_pos hsome]
    have harmed := hnext.armed
    rw [← hconn]
    show IsLeast _ ((polls.foldl ProduceRun.poll _).poll now).conn.nextProduceAt
    rw [harmed]
    exact tickAfter_isLeast hpos
  · rw [hafter, ncard_ticks hpos]
    exact hnext.accounted.trans hnext.served.symm

/-- A heartbeat connection that produces every twenty milliseconds. -/
def tickingParams : IoConnectionParams where
  o2tConnectionId := 1
  t2oConnectionId := 2
  o2tApi := Duration.fromMillis 20
  t2oApi := Duration.fromMillis 20
  timeoutMultiplier := 4
  o2tFormat := .heartbeat
  t2oFormat := .modeless
  o2tDataSize := 0
  t2oDataSize := 4
  o2tFixed := true
  t2oFixed := true
  txEndpoint := ⟨.v4 0, 2222⟩
  expectedSourceIp := .v4 0
  multicastGroup := none

/-- Polls early, at the first tick, and in the fifth period. -/
theorem produce_follows_schedule_ticking :
    FollowsSchedule tickingParams 0 [Duration.fromMillis 19, Duration.fromMillis 20]
      (Duration.fromMillis 95) := by
  have hlimit : ∀ now ∈ [Duration.fromMillis 19, Duration.fromMillis 20, Duration.fromMillis 95],
      tickAfter 0 tickingParams.o2tApi now < Instant.limit := by decide
  exact produce_follows_schedule ⟨by decide, by decide⟩
    ⟨by decide, by decide, by decide, by decide, by decide, by decide, trivial⟩ hlimit

/-- On the last instant of the clock the first tick cannot be represented: the schedule starts
over at once, and a poll builds a frame although no tick is due. -/
theorem produce_at_the_end_of_the_clock :
    minReplyApi ≤ tickingParams.o2tApi ∧ tickingParams.o2tApi ≤ maxReplyApi ∧
      Paced (Instant.limit - 1) tickingParams.o2tApi 0 [Instant.limit - 1] ∧
      ¬ FollowsSchedule tickingParams (Instant.limit - 1) [] (Instant.limit - 1) := by
  refine ⟨by decide, by decide, ⟨Nat.zero_le _, by decide, trivial⟩, ?_⟩
  intro h
  have hframe : ((IoConnection.new tickingParams (Instant.limit - 1)).pollProduce
      (Instant.limit - 1)).2.isSome := by
    have harmed : (IoConnection.new tickingParams (Instant.limit - 1)).nextProduceAt =
        Instant.limit - 1 := by decide
    rw [IoConnection.pollProduce, harmed, if_neg (Nat.lt_irrefl _)]
    rfl
  obtain ⟨t, -, hlast, hnow⟩ := h.frame_iff.mp hframe
  exact absurd hnow (Nat.not_le.mpr hlast)

end EnipAdapter.Analysis
