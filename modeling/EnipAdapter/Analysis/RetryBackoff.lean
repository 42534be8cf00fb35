import EnipAdapter.Analysis.LinkTruth
import EnipAdapter.Foundation.BinaryRounding

/-!
# The waits of the ladder

A wait is the ceiling of its rung times a fraction below one, both floats. Rounding keeps the
order, so the wait is never above the ceiling, and the ceiling of a maximum up to `2 ^ 53` is
exact. Which rung a wait is on, and whether a failed handshake was told before, is what every
step keeps of a link.
-/

set_option autoImplicit false

namespace EnipAdapter.Analysis

open EnipAdapter.Foundation EnipAdapter.Model EnipAdapter.Interface

/-! ## The jitter -/

/-- The jitter is a fraction between zero and one. -/
theorem rand01_fraction (hash : ℕ) :
    F64.Weight (rand01 hash) ∧ (rand01 hash).toRat ≤ 1 := by
  have hsmall : hash % 1000000 < 1000000 := Nat.mod_lt hash (by norm_num)
  have hnumerator : (F64.ofInt ((hash % 1000000 : ℕ) : ℤ)).toRat = (hash % 1000000 : ℕ) := by
    rw [F64.toRat_ofInt (by omega), Int.cast_natCast]
  have hdenominator : (F64.ofInt 1000000).toRat = 1000000 := by
    rw [F64.toRat_ofInt (by norm_num)]
    norm_num
  unfold rand01
  apply F64.div_le_one
  · exact F64.weight_ofInt (by omega)
  · exact F64.weight_ofInt (n := 1000000) (by norm_num)
  · rw [hdenominator]
    norm_num
  · rw [hnumerator, hdenominator]
    exact_mod_cast hsmall.le

/-- A rung fits 64 bits. -/
theorem cap_le (b : Backoff) (attempt : ℕ) : b.cap attempt ≤ 2 ^ 64 := by
  unfold Backoff.cap
  omega

/-- A wait is not above the ceiling of its rung. -/
theorem delay_le (b : Backoff) (attempt hash : ℕ) :
    b.delay attempt (rand01 hash) ≤ rungCeiling b attempt := by
  obtain ⟨hweight, hone⟩ := rand01_fraction hash
  have hcap := F64.weight_ofInt (cap_le b attempt)
  obtain ⟨hproduct, hbits⟩ := F64.mul_le_of_fraction hweight hcap hone
  unfold Backoff.delay rungCeiling Duration.fromMillis
  rw [F64.clampUnit_fraction hweight hone]
  exact Nat.mul_le_mul_right _ (F64.Weight.toU64_mono hproduct hcap hbits)

/-- The rungs end at the twentieth, long before the attempts saturate. -/
theorem cap_saturated (b : Backoff) (failures : ℕ) :
    b.cap (min failures (2 ^ 32 - 1)) = b.cap failures := by
  have hsame : min (min failures (2 ^ 32 - 1)) 20 = min failures 20 := by omega
  unfold Backoff.cap
  rw [hsame]

/-- Up to 2^53 ms the ceiling is the rung itself. -/
theorem rungCeiling_exact (b : Backoff) (hmax : b.maxMs ≤ 2 ^ 53) (failures : ℕ) :
    rungCeiling b failures =
      Duration.fromMillis (min (b.baseMs * 2 ^ min failures 20) b.maxMs) := by
  have hcap : b.cap failures = min (b.baseMs * 2 ^ min failures 20) b.maxMs := by
    unfold Backoff.cap
    omega
  have hsmall : b.cap failures ≤ 2 ^ 53 := by
    rw [hcap]
    exact (Nat.min_le_right _ _).trans hmax
  unfold rungCeiling
  rw [← hcap, (F64.weight_ofInt (cap_le b failures)).toU64, F64.toRat_ofInt (by omega),
    Int.floor_intCast, Int.toNat_natCast, Nat.min_eq_left (by omega)]

/-! ## What a step tells -/

/-- A connect neither waits nor tells of a handshake. -/
theorem waits_connected (cfg : LadderConfig) (env : LadderEnv) (l : Ladder) :
    (l.connected cfg env).2.filterMap waitOf = [] ∧
      (l.connected cfg env).2.any isHandshakeFailed = false := by
  unfold Ladder.connected
  cases cfg.mode with
  | push => exact ⟨rfl, rfl⟩
  | poll =>
    simp only
    split <;> exact ⟨rfl, rfl⟩

/-- The wait of a failed connect. -/
def failedWait (cfg : LadderConfig) (env : LadderEnv) (attempt : ℕ) : Duration :=
  if env.permanent then Duration.fromMillis cfg.backoff.maxMs
  else cfg.backoff.delay attempt (rand01 env.hash)

/-- A failed connect tells of its handshake if that is news, and waits. -/
theorem told_failed (cfg : LadderConfig) (env : LadderEnv) (l : Ladder) :
    (l.failed cfg env).2 =
      (if refuses cfg env = true ∧ l.tlsHandshakeFailing = false
        then [.tlsHandshakeFailed] else []) ++ [.waits (failedWait cfg env l.attempt)] := by
  unfold Ladder.failed failedWait refuses
  simp only [decide_eq_true_eq]
  by_cases hpermanent : env.permanent = true <;>
    by_cases hrefused : cfg.mode = DeviceMode.poll ∧ cfg.tlsInstance = true ∧ env.permanent = true
  all_goals cases hfailing : l.tlsHandshakeFailing <;> simp_all [Ladder.setLink]

/-- It waits once. -/
theorem waits_failed (cfg : LadderConfig) (env : LadderEnv) (l : Ladder) :
    (l.failed cfg env).2.filterMap waitOf = [failedWait cfg env l.attempt] := by
  rw [told_failed]
  split <;> rfl

/-- And tells of the handshake exactly when it was refused and not told yet. -/
theorem handshake_failed (cfg : LadderConfig) (env : LadderEnv) (l : Ladder) :
    (l.failed cfg env).2.any isHandshakeFailed = true ↔
      refuses cfg env = true ∧ l.tlsHandshakeFailing = false := by
  rw [told_failed]
  split
  · rename_i h
    exact iff_of_true rfl h
  · rename_i h
    exact iff_of_false nofun h

section Step

variable {cfg : TaskConfig} {ladder : LadderFor cfg} {s : WatchedLink}
  {input : TaskInput × StepEnv × LadderEnv}

/-- What a step tells, by the move it makes. -/
inductive Tells (cfg : TaskConfig) (ladder : LadderConfig) (s : WatchedLink)
    (input : TaskInput × StepEnv × LadderEnv) : Prop where
  /-- Nothing to wait for, and no failed handshake. -/
  | nothing
      (hevent : ladderEvent s.linked.task.phase (s.linked.step cfg ladder input).1.task.phase
        input.1 ≠ some .failed)
      (hstages : s.stage = .backoff ∨
        stageOf (s.linked.step cfg ladder input).1.task.phase ≠ .backoff)
      (hwaits : (s.linked.step cfg ladder input).2.2.filterMap waitOf = [])
      (hquiet : (s.linked.step cfg ladder input).2.2.any isHandshakeFailed = false)
  | failed
      (hevent : ladderEvent s.linked.task.phase (s.linked.step cfg ladder input).1.task.phase
        input.1 = some .failed)
      (hbefore : s.stage ≠ .backoff)
      (hafter : stageOf (s.linked.step cfg ladder input).1.task.phase = .backoff)
      (htold : (s.linked.step cfg ladder input).2.2 = (s.linked.ladder.failed ladder input.2.2).2)
  | lost
      (hevent : ladderEvent s.linked.task.phase (s.linked.step cfg ladder input).1.task.phase
        input.1 = some .lost)
      (hbefore : s.stage ≠ .backoff)
      (hafter : stageOf (s.linked.step cfg ladder input).1.task.phase = .backoff)
      (htold : (s.linked.step cfg ladder input).2.2 =
        [.waits (ladder.backoff.delay s.linked.ladder.attempt (rand01 input.2.2.hash))])

/-- The ladder takes the steps of its task. -/
theorem step_task (cfg : TaskConfig) (s : LinkedTask) (ladder : LadderConfig)
    (input : TaskInput × StepEnv × LadderEnv) :
    (s.step cfg ladder input).1.task = (taskStep cfg s.task (input.1, input.2.1)).1 := by
  unfold LinkedTask.step
  simp only
  split <;> rfl

/-- What every step tells is what its event says. -/
theorem tells_step (ladder : LadderFor cfg) (h : LinkKept cfg s)
    (input : TaskInput × StepEnv × LadderEnv) : Tells cfg ladder.ladder s input := by
  have htask := step_task cfg s.linked ladder.ladder input
  have hstage : s.stage = stageOf s.linked.task.phase := rfl
  cases linkMove_step h.block (input.1, input.2.1) with
  | stays hsame hevent hmoves =>
    have htold := told_unbooked s ladder.ladder hevent
    apply Tells.nothing
    · rw [htask, hevent]
      nofun
    · rw [htask, hsame, hstage]
      exact em _
    · rw [htold]
      rfl
    · rw [htold]
      rfl
  | leaves hbefore hafter hevent hmoves =>
    have htold := told_unbooked s ladder.ladder hevent
    apply Tells.nothing
    · rw [htask, hevent]
      nofun
    · rw [htask, hafter]
      exact .inr nofun
    · rw [htold]
      rfl
    · rw [htold]
      rfl
  | books event hevent hleads hmoves =>
    have htold := told_booked s ladder.ladder hevent
    rw [← hstage] at hleads
    have hquiet {event : LadderEvent} {stage : LinkStage}
        (hevent : ladderEvent s.linked.task.phase
          (taskStep cfg s.linked.task (input.1, input.2.1)).1.phase input.1 = some event)
        (hother : event ≠ .failed)
        (hafter : stageOf (taskStep cfg s.linked.task (input.1, input.2.1)).1.phase = stage)
        (hstage' : stage ≠ .backoff)
        (hnone : (s.linked.ladder.book ladder.ladder input.2.2 event).2.filterMap waitOf = [] ∧
          (s.linked.ladder.book ladder.ladder input.2.2 event).2.any isHandshakeFailed = false) :
        Tells cfg ladder.ladder s input := by
      have htold := told_booked s ladder.ladder hevent
      apply Tells.nothing
      · rw [htask, hevent]
        exact fun heq => hother (Option.some.inj heq)
      · rw [htask, hafter]
        exact .inr hstage'
      · rw [htold]
        exact hnone.1
      · rw [htold]
        exact hnone.2
    generalize hbefore : s.stage = before at hleads
    generalize hafter : stageOf (taskStep cfg s.linked.task (input.1, input.2.1)).1.phase =
      after at hleads
    cases hleads with
    | polled _ => exact hquiet hevent nofun hafter nofun (waits_connected _ _ _)
    | pushed _ => exact hquiet hevent nofun hafter nofun (waits_connected _ _ _)
    | failed =>
      apply Tells.failed
      · rw [htask]
        exact hevent
      · rw [hbefore]
        nofun
      · rw [htask]
        exact hafter
      · exact htold
    | retried => exact hquiet hevent nofun hafter nofun ⟨rfl, rfl⟩
    | up => exact hquiet hevent nofun hafter nofun ⟨rfl, rfl⟩
    | lost hloop =>
      apply Tells.lost
      · rw [htask]
        exact hevent
      · rw [hbefore]
        rintro rfl
        cases hloop
      · rw [htask]
        exact hafter
      · exact htold
    | replaced _ => exact hquiet hevent nofun hafter nofun ⟨rfl, rfl⟩
    | stopped _ => exact hquiet hevent nofun hafter nofun ⟨rfl, rfl⟩

end Step

/-! ## The contract -/

/-- In every run a task that backs off waits once: the full wait after a permanent failure, else
no longer than the failures since the last connect allow. A failing handshake is told once until a
connect succeeds, and counted every time. -/
theorem retries_are_bounded (cfg : TaskConfig) (ladder : LadderFor cfg) (health : TaskHealth)
    (inputs : List (TaskInput × StepEnv × LadderEnv)) :
    RetryContract cfg ladder.ladder health inputs where
  waits := by
    intro before input after _ s t
    cases tells_step ladder (linkKept_run ladder health before) input with
    | nothing hevent hstages hwaits hquiet =>
      rw [hwaits, if_neg]
      · rfl
      · rintro ⟨hout, hin⟩
        rcases hstages with hstage | hstage
        · exact hout hstage
        · exact hstage hin
    | failed hevent hbefore hafter htold =>
      rw [htold, waits_failed, if_pos ⟨hbefore, hafter⟩]
      rfl
    | lost hevent hbefore hafter htold =>
      rw [htold, if_pos ⟨hbefore, hafter⟩]
      rfl
  bounded := by
    intro before input after _ s t wait hwait
    have hkept := linkKept_run ladder health before
    have hdelay : ladder.ladder.backoff.delay s.linked.ladder.attempt (rand01 input.2.2.hash) ≤
        rungCeiling ladder.ladder.backoff s.watch.failures := by
      have hle := delay_le ladder.ladder.backoff s.linked.ladder.attempt input.2.2.hash
      unfold rungCeiling at hle ⊢
      rw [hkept.rung.rung, cap_saturated] at hle
      rw [hkept.rung.rung]
      exact hle
    cases tells_step ladder hkept input with
    | nothing hevent hstages hwaits hquiet =>
      rw [hwaits] at hwait
      cases hwait
    | failed hevent hbefore hafter htold =>
      rw [htold, waits_failed] at hwait
      rw [List.mem_singleton.mp hwait]
      unfold failedWait
      by_cases hpermanent : input.2.2.permanent = true
      · rw [if_pos ⟨hevent, hpermanent⟩, if_pos hpermanent]
      · rw [if_neg (fun h => hpermanent h.2), if_neg hpermanent]
        exact hdelay
    | lost hevent hbefore hafter htold =>
      rw [htold] at hwait
      rw [List.mem_singleton.mp hwait, if_neg]
      · exact hdelay
      · rintro ⟨hfailed, -⟩
        cases hfailed.symm.trans hevent
  ceiling := rungCeiling_exact ladder.ladder.backoff
  told := by
    intro before input after _ s t
    have hkept := linkKept_run ladder health before
    have hflag : s.linked.ladder.tlsHandshakeFailing = s.watch.told := hkept.rung.failing
    cases tells_step ladder hkept input with
    | nothing hevent hstages hwaits hquiet =>
      apply iff_of_false
      · intro htold
        cases hquiet.symm.trans htold
      · rintro ⟨hfailed, -⟩
        exact hevent hfailed
    | failed hevent hbefore hafter htold =>
      rw [htold, handshake_failed, hflag]
      constructor
      · intro h
        exact ⟨hevent, h⟩
      · rintro ⟨-, h⟩
        exact h
    | lost hevent hbefore hafter htold =>
      rw [htold]
      apply iff_of_false nofun
      rintro ⟨hfailed, -⟩
      cases hfailed.symm.trans hevent
  counted := by
    intro before after _ s
    exact (linkKept_run ladder health before).rung.refused

end EnipAdapter.Analysis
