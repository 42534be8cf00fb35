import EnipAdapter.Analysis.ConnectedSequence
import EnipAdapter.Interface.KeepaliveContract
import Mathlib.Tactic.Ring

/-!
# The keepalive never storms and never lets the window run out

Both results follow one clock, the last activity the task knows of. A probe starts a quiet time
after it and an answered probe moves it, so probes are spaced; the wake-up of a sleeping task is
never behind the quiet time, so the next request is never far. The second induction carries how
late the task can be by the probes it has missed.
-/

set_option autoImplicit false

namespace EnipAdapter.Analysis

open EnipAdapter.Foundation
open EnipAdapter.Model
open EnipAdapter.Interface
open EnipAdapter.Interface.WatchedConnection

/-! ## The due time -/

/-- The longest window a class-3 open derives. -/
def longestWindow : Duration := maxReplyApi * 512

/-- The longest window is 307 200 s. -/
theorem longestWindow_eq : longestWindow = 307200000000000 := by
  unfold longestWindow maxReplyApi Duration.fromSecs
  norm_num

/-- A window a class-3 open derives is the product of a plausible interval and a multiplier. -/
theorem openClass3_window {route : Option RoutePath} {opts : ClientOptions} {env : Class3Env}
    {conn : ConnectedState} (h : (openClass3 route opts env).result = .ok conn) :
    conn.inactivityWindow ≤ longestWindow := by
  have hinterval : ∀ success, class3NegotiatedInterval
      (max minReplyApi (min opts.class3Rpi maxReplyApi)) success ≤ maxReplyApi := by
    intro success
    unfold class3NegotiatedInterval
    simp only
    split_ifs with hplausible
    · exact hplausible.2
    · exact max_le (by decide) (min_le_right _ _)
  have hmultiplier : ∀ m : TimeoutMultiplier, m.multiplier ≤ 512 := by
    intro m
    cases m <;> decide
  have hwindow : ∀ success, class3InactivityWindow
      (max minReplyApi (min opts.class3Rpi maxReplyApi)) opts.class3TimeoutMultiplier success ≤
        longestWindow := by
    intro success
    have hproduct := Nat.mul_le_mul (hinterval success)
      (hmultiplier opts.class3TimeoutMultiplier)
    unfold class3InactivityWindow Duration.checkedMul
    rw [if_pos (hproduct.trans (by decide))]
    exact hproduct
  unfold openClass3 at h
  simp only at h
  split at h
  · cases h
  · split at h
    · cases h
    · split_ifs at h
      split at h
      · cases h
      · split at h
        · cases h
        · cases h
          exact hwindow _

/-- The quiet time as the loop computes it. -/
theorem nextKeepaliveAt_eq {last window : ℕ} (hwindow : window ≤ longestWindow)
    (hclock : last + 2 ^ 64 ≤ Instant.limit) :
    nextKeepaliveAt last window = last + quietTime window := by
  rw [longestWindow_eq] at hwindow
  have hmul : Duration.checkedMul window keepaliveNum = some (window * keepaliveNum) := by
    apply if_pos
    unfold keepaliveNum Duration.max
    omega
  have hadd : Instant.checkedAdd last (window * keepaliveNum / keepaliveDen) =
      some (last + quietTime window) := by
    apply if_pos
    show last + window * 3 / 4 < Instant.limit
    omega
  simp [nextKeepaliveAt, hmul, hadd]

/-- A cap never delays a wake-up. -/
theorem capWake_le (due : Instant) (cap : Option Instant) : capWake due cap ≤ due := by
  cases cap with
  | none => exact Nat.le_refl due
  | some at_ => exact Nat.min_le_left due at_

/-- A task never sleeps past the due time. -/
theorem keepaliveWake_le (now : Instant) {last window : ℕ} (hwindow : window ≤ longestWindow)
    (hclock : last + 2 ^ 64 ≤ Instant.limit) :
    keepaliveWake now last window ≤ last + quietTime window := by
  rw [← nextKeepaliveAt_eq hwindow hclock]
  exact capWake_le _ _

/-- A probe is due exactly when the quiet time has passed since the last exchange. -/
theorem keepaliveDue_iff {now last window : ℕ} (hwindow : window ≤ longestWindow)
    (hclock : last + 2 ^ 64 ≤ Instant.limit) :
    keepaliveDue now last window = true ↔ last + quietTime window ≤ now := by
  rw [keepaliveDue, nextKeepaliveAt_eq hwindow hclock, decide_eq_true_iff]

/-! ## The activity clock -/

/-- The tracker of a connection that opened at `base` has seen activity up to `t`. -/
def ActiveUntil (base : ℕ) (tracker : ActivityTracker) (t : ℕ) : Prop :=
  tracker.base = base ∧ base + tracker.lastNanos = t

/-- A tracker that is exact tells the last exchange. -/
theorem ActiveUntil.last {base t : ℕ} {tracker : ActivityTracker}
    (h : ActiveUntil base tracker t) (ht : t < Instant.limit) : tracker.last = t := by
  obtain ⟨rfl, rfl⟩ := h
  simp [ActivityTracker.last, Instant.checkedAdd, ht]

/-- The instants the tracker can hold are far from the end of the clock. -/
theorem fits_clock {base now : ℕ} (hfits : now < base + 2 ^ 64)
    (hlimit : base + 2 ^ 65 ≤ Instant.limit) :
    now < Instant.limit ∧ now + 2 ^ 64 ≤ Instant.limit := by
  omega

/-- A later reading of the clock is what the tracker stores, as long as it holds it. -/
theorem max_elapsed {base nanos now : ℕ} (hlater : base + nanos ≤ now)
    (hfits : now < base + 2 ^ 64) :
    base + max nanos (min (now - base) (2 ^ 64 - 1)) = now := by
  omega

/-- Activity at a later instant is what the tracker then holds. -/
theorem ActiveUntil.touch {base t now : ℕ} {tracker : ActivityTracker}
    (h : ActiveUntil base tracker t) (hlater : t ≤ now) (hfits : now < base + 2 ^ 64) :
    ActiveUntil base (tracker.touch now) now := by
  obtain ⟨rfl, rfl⟩ := h
  exact ⟨rfl, max_elapsed hlater hfits⟩

/-! ## What an event does to the client -/

/-- A call leaves the window of its connection. -/
theorem sendConnected_window (c : Class3Client) (s : ConnectedSend) :
    (c.sendConnected s).1.conn.inactivityWindow = c.conn.inactivityWindow := by
  rw [sendConnected_conn]
  rfl

/-- A transaction that failed leaves the clock alone. -/
theorem sendConnected_failed {c : Class3Client} {s : ConnectedSend}
    (h : s.answer.isOk = false) : (c.sendConnected s).1.activity = c.activity := by
  unfold Class3Client.sendConnected
  cases connectedRequestPayload c.conn s.request with
  | error e => rfl
  | ok payload =>
      cases ha : s.answer with
      | error e => rfl
      | ok frame => simp [ha, Except.isOk, Except.toBool] at h

/-- A request that was answered moves the clock. -/
theorem sendConnected_touches {c : Class3Client} {s : ConnectedSend} {payload : Bytes}
    (hpayload : connectedRequestPayload c.conn s.request = .ok payload)
    (h : s.answer.isOk = true) :
    (c.sendConnected s).1.activity = c.activity.touch s.completedAt := by
  unfold Class3Client.sendConnected
  simp only [hpayload]
  cases ha : s.answer with
  | error e => simp [ha, Except.isOk, Except.toBool] at h
  | ok frame => rfl

/-- The probe encodes on every connection. -/
theorem keepaliveRequest_encodes (conn : ConnectedState) :
    ∃ payload, connectedRequestPayload conn keepaliveRequest = .ok payload := by
  obtain ⟨mrBytes, hmr, hlen⟩ : ∃ mrBytes, keepaliveRequest.encode = .ok mrBytes ∧
      mrBytes.length = 8 := ⟨_, rfl, rfl⟩
  obtain ⟨bytes, hbytes⟩ := (cpf_encode_isOk_iff ⟨[CpfItem.connectedAddress conn.oTConnectionId,
    CpfItem.connectedData (putU16 conn.nextSequence ++ mrBytes)]⟩).mpr (by
      refine ⟨by simp, ?_⟩
      intro i hi
      rcases List.mem_pair.mp hi with rfl | rfl
      · simp [CpfItem.connectedAddress]
      · simp [CpfItem.connectedData, hlen])
  refine ⟨putU32 0 ++ putU16 0 ++ bytes, ?_⟩
  unfold connectedRequestPayload
  rw [hmr]
  simp [encapDataWithCpf, hbytes, liftWire, bind, Except.bind, pure, Except.pure]

/-- A probe that tells of a living connection was answered, when transactions fail of the
transport only. -/
theorem answered_of_alive {c : Class3Client} {answer : Except EnipError EncapFrame}
    {now : Instant} (htransport : ∀ status, answer ≠ .error (.cip status))
    (h : probeVerdict (attributeResult
      (c.sendConnected ⟨keepaliveRequest, answer, now⟩).2.result) = .alive) :
    answer.isOk = true := by
  obtain ⟨payload, hpayload⟩ := keepaliveRequest_encodes c.conn
  cases answer with
  | ok frame => rfl
  | error e =>
      simp only [Class3Client.sendConnected, hpayload] at h
      cases e <;> first
        | (exact absurd rfl (htransport _))
        | (simp [attributeResult, probeVerdict, bind, Except.bind] at h)

/-! ## What an event does to the task -/

/-- Going to sleep leaves the client alone. -/
theorem rest_client (s : KeepaliveTask) (now : Instant) : (s.rest now).client = s.client := by
  unfold KeepaliveTask.rest
  split <;> rfl

/-- Going to sleep answers no probe. -/
theorem rest_sent (s : KeepaliveTask) (now : Instant) :
    (s.rest now).keepalivesSent = s.keepalivesSent := by
  unfold KeepaliveTask.rest
  split <;> rfl

/-- A task at the top of its loop sleeps or ends. -/
theorem rest_phase (s : KeepaliveTask) (now : Instant) :
    (s.rest now).phase = .ended ∨
      (s.rest now).phase = .sleeping (keepaliveWake now s.client.activity.last s.window) := by
  unfold KeepaliveTask.rest
  split
  · exact Or.inr rfl
  · exact Or.inl rfl

/-- What the end of a sleep leads to. -/
theorem wake_spec (s : KeepaliveTask) (now : Instant) :
    (s.wake now).client = s.client ∧ (s.wake now).keepalivesSent = s.keepalivesSent ∧
    ((s.wake now).phase = .ended ∨
      ((s.wake now).phase = .probing ∧
        keepaliveDue now s.client.activity.last s.window = true) ∨
      (keepaliveDue now s.client.activity.last s.window = false ∧
        (s.wake now).phase =
          .sleeping (keepaliveWake now s.client.activity.last s.window))) := by
  unfold KeepaliveTask.wake
  split_ifs with hheld hdue
  · exact ⟨rfl, rfl, Or.inr (Or.inl ⟨rfl, hdue⟩)⟩
  · refine ⟨rest_client s now, rest_sent s now, ?_⟩
    rcases rest_phase s now with hended | hsleeping
    · exact Or.inl hended
    · exact Or.inr (Or.inr ⟨Bool.eq_false_iff.mpr hdue, hsleeping⟩)
  · exact ⟨rfl, rfl, Or.inl rfl⟩

/-- What the end of a probe leads to: it counts only if it was answered. -/
theorem finishProbe_spec (s : KeepaliveTask) (answer : Except EnipError EncapFrame)
    (now : Instant) (htransport : ∀ status, answer ≠ .error (.cip status)) :
    (s.finishProbe answer now).client =
      (s.client.sendConnected ⟨keepaliveRequest, answer, now⟩).1 ∧
    ((s.finishProbe answer now).keepalivesSent = s.keepalivesSent ∨
      (answer.isOk = true ∧
        (s.finishProbe answer now).keepalivesSent = s.keepalivesSent + 1)) ∧
    ((s.finishProbe answer now).phase = .ended ∨
      (s.finishProbe answer now).phase = .sleeping (keepaliveWake now
        (s.finishProbe answer now).client.activity.last s.window)) := by
  have hwindow := sendConnected_window s.client ⟨keepaliveRequest, answer, now⟩
  have halive := @answered_of_alive s.client answer now htransport
  unfold KeepaliveTask.finishProbe
  generalize s.client.sendConnected ⟨keepaliveRequest, answer, now⟩ = sent at hwindow halive
  obtain ⟨client, outcome⟩ := sent
  simp only at hwindow halive ⊢
  cases hverdict : probeVerdict (attributeResult outcome.result) with
  | gone => exact ⟨rfl, Or.inl rfl, Or.inl rfl⟩
  | alive =>
      refine ⟨rest_client _ _, Or.inr ⟨halive hverdict, rest_sent _ _⟩, ?_⟩
      rw [rest_client]
      rcases rest_phase _ now with hended | hsleeping
      · exact Or.inl hended
      · refine Or.inr (hsleeping.trans ?_)
        simp only [KeepaliveTask.window, hwindow]
  | retry =>
      refine ⟨rest_client _ _, Or.inl (rest_sent _ _), ?_⟩
      rw [rest_client]
      rcases rest_phase _ now with hended | hsleeping
      · exact Or.inl hended
      · refine Or.inr (hsleeping.trans ?_)
        simp only [KeepaliveTask.window, hwindow]

/-! ## One event -/

/-- No event changes the window. -/
theorem step_window (w : WatchedConnection) (e : LinkEvent) : (w.step e).window = w.window := by
  obtain ⟨input, arrived⟩ := e
  unfold WatchedConnection.window KeepaliveTask.window
  cases input with
  | exchanged send => exact sendConnected_window _ send
  | released => rfl
  | woke now =>
      simp only [WatchedConnection.step, KeepaliveTask.step]
      cases w.task.phase with
      | sleeping wake => simp only [(wake_spec w.task now).1]
      | probing => rfl
      | ended => rfl
  | probed answer now =>
      simp only [WatchedConnection.step, KeepaliveTask.step]
      cases w.task.phase with
      | sleeping wake => rfl
      | probing =>
          have hwindow := sendConnected_window w.task.client ⟨keepaliveRequest, answer, now⟩
          unfold KeepaliveTask.finishProbe
          generalize w.task.client.sendConnected ⟨keepaliveRequest, answer, now⟩ = sent at hwindow
          obtain ⟨client, outcome⟩ := sent
          simp only at hwindow ⊢
          cases probeVerdict (attributeResult outcome.result) with
          | gone => exact hwindow
          | alive =>
              simp only [rest_client]
              exact hwindow
          | retry =>
              simp only [rest_client]
              exact hwindow
      | ended => rfl

/-- What an event does to the activity clock: an answered transaction moves it to its end, every
other event leaves it. -/
theorem step_activity {base t : ℕ} {w : WatchedConnection} {e : LinkEvent}
    (hsound : Sound w e) (hactive : ActiveUntil base w.task.client.activity t)
    (hlater : t ≤ e.time w.now) (hfits : e.time w.now < base + 2 ^ 64) :
    ActiveUntil base (w.step e).task.client.activity
      (if e.answered then e.time w.now else t) := by
  obtain ⟨input, arrived⟩ := e
  cases input with
  | exchanged send =>
      show ActiveUntil base (w.task.client.sendConnected send).1.activity
        (if send.answer.isOk then send.completedAt else t)
      cases hanswer : send.answer.isOk with
      | false =>
          rw [sendConnected_failed hanswer]
          exact hactive
      | true =>
          obtain ⟨payload, hpayload⟩ := hsound.1 send rfl hanswer
          rw [sendConnected_touches hpayload hanswer]
          exact hactive.touch hlater hfits
  | released => exact hactive
  | woke now =>
      show ActiveUntil base (w.task.step (.woke now)).client.activity t
      unfold KeepaliveTask.step
      cases w.task.phase with
      | sleeping wake =>
          simp only [(wake_spec w.task now).1]
          exact hactive
      | probing => exact hactive
      | ended => exact hactive
  | probed answer now =>
      have hphase := hsound.2.2 rfl
      have htransport : ∀ status, answer ≠ .error (.cip status) := by
        intro status h
        exact hsound.2.1 status (congrArg some h)
      show ActiveUntil base (w.task.step (.probed answer now)).client.activity
        (if answer.isOk then now else t)
      unfold KeepaliveTask.step
      simp only [hphase, (finishProbe_spec w.task answer now htransport).1]
      cases hanswer : answer.isOk with
      | false =>
          rw [sendConnected_failed hanswer]
          exact hactive
      | true =>
          obtain ⟨payload, hpayload⟩ := keepaliveRequest_encodes w.task.client.conn
          rw [sendConnected_touches hpayload hanswer]
          exact hactive.touch hlater hfits

/-- The ways an event can turn the task, each with what it says about the clock. -/
inductive Turned (w : WatchedConnection) (e : LinkEvent) : Prop
  | kept (hphase : (w.step e).task.phase = w.task.phase)
      (hsent : (w.step e).task.keepalivesSent = w.task.keepalivesSent)
      (hturns : e.turns = true → w.task.phase = .ended ∨ ∃ at_, e.input = .woke at_)
      (hsleep : e.turns = true → ∀ wake, w.task.phase ≠ .sleeping wake)
      (hprobe : e.isProbe = false)
  | ended (hphase : (w.step e).task.phase = .ended)
      (hsent : (w.step e).task.keepalivesSent = w.task.keepalivesSent ∨ w.task.phase = .probing ∧
        e.answered = true ∧
        (w.step e).task.keepalivesSent = w.task.keepalivesSent + 1)
  | started (wake : Instant) (hwas : w.task.phase = .sleeping wake)
      (hphase : (w.step e).task.phase = .probing)
      (hsent : (w.step e).task.keepalivesSent = w.task.keepalivesSent) (hturns : e.turns = true)
      (hquiet : e.answered = false ∧ e.isProbe = false)
      (hdue : keepaliveDue (e.time w.now) w.lastActivity w.window = true)
  | dozed (wake : Instant) (hwas : w.task.phase = .sleeping wake)
      (hphase : (w.step e).task.phase =
        .sleeping (keepaliveWake (e.time w.now) w.lastActivity w.window))
      (hsent : (w.step e).task.keepalivesSent = w.task.keepalivesSent) (hturns : e.turns = true)
      (hquiet : e.answered = false ∧ e.isProbe = false)
      (hdue : keepaliveDue (e.time w.now) w.lastActivity w.window = false)
  | probed (hwas : w.task.phase = .probing)
      (hphase : (w.step e).task.phase =
        .sleeping (keepaliveWake (e.time w.now) (w.step e).lastActivity w.window))
      (hsent : (w.step e).task.keepalivesSent = w.task.keepalivesSent ∨
        e.answered = true ∧
        (w.step e).task.keepalivesSent = w.task.keepalivesSent + 1)
      (hturns : e.turns = true) (hprobe : e.isProbe = true)

/-- Every event of a sound schedule turns the task in one of these ways. -/
theorem step_turned {w : WatchedConnection} {e : LinkEvent} (hsound : Sound w e) :
    Turned w e := by
  obtain ⟨input, arrived⟩ := e
  cases input with
  | exchanged send => exact .kept rfl rfl (by rintro ⟨⟩) (by rintro ⟨⟩) rfl
  | released => exact .kept rfl rfl (by rintro ⟨⟩) (by rintro ⟨⟩) rfl
  | woke now =>
      have htask : ∀ wake, w.task.phase = .sleeping wake →
          (w.step ⟨.woke now, arrived⟩).task = w.task.wake now := by
        intro wake hwas
        simp only [WatchedConnection.step, KeepaliveTask.step, hwas]
      have hstay : (∀ wake, w.task.phase ≠ .sleeping wake) →
          (w.step ⟨.woke now, arrived⟩).task = w.task := by
        intro hawake
        simp only [WatchedConnection.step, KeepaliveTask.step]
        cases hphase : w.task.phase with
        | sleeping wake => exact absurd hphase (hawake wake)
        | probing => rfl
        | ended => rfl
      by_cases hsleeping : ∃ wake, w.task.phase = .sleeping wake
      · obtain ⟨wake, hwas⟩ := hsleeping
        obtain ⟨-, hsent, hcases⟩ := wake_spec w.task now
        rw [← htask wake hwas] at hsent hcases
        rcases hcases with hended | ⟨hphase, hdue⟩ | ⟨hdue, hphase⟩
        · exact .ended hended (Or.inl hsent)
        · exact .started wake hwas hphase hsent rfl ⟨rfl, rfl⟩ hdue
        · exact .dozed wake hwas hphase hsent rfl ⟨rfl, rfl⟩ hdue
      · rw [not_exists] at hsleeping
        have hsame := hstay hsleeping
        exact .kept (by rw [hsame]) (by rw [hsame]) (fun _ => Or.inr ⟨now, rfl⟩)
          (fun _ => hsleeping) rfl
  | probed answer now =>
      have hwas := hsound.2.2 rfl
      have htransport : ∀ status, answer ≠ .error (.cip status) := by
        intro status h
        exact hsound.2.1 status (congrArg some h)
      have htask : (w.step ⟨.probed answer now, arrived⟩).task = w.task.finishProbe answer now := by
        simp only [WatchedConnection.step, KeepaliveTask.step, hwas]
      obtain ⟨-, hsent, hcases⟩ := finishProbe_spec w.task answer now htransport
      rw [← htask] at hsent hcases
      rcases hcases with hended | hphase
      · refine .ended hended ?_
        rcases hsent with hsame | ⟨hok, hmore⟩
        · exact Or.inl hsame
        · exact Or.inr ⟨hwas, hok, hmore⟩
      · exact .probed hwas hphase hsent rfl rfl

/-! ## Probes are spaced -/

/-- Every answered probe so far stands for one quiet time before the last activity, and a probe
under way for one more. -/
structure Spaced (base window : ℕ) (w : WatchedConnection) : Prop where
  unchanged : w.window = window
  fits : w.now < base + 2 ^ 64
  active : ∃ t, ActiveUntil base w.task.client.activity t ∧ t ≤ w.now ∧
    base + w.task.keepalivesSent * quietTime window ≤ t
  started : w.task.phase = .probing →
    base + w.task.keepalivesSent * quietTime window + quietTime window ≤ w.now

/-- Every event keeps the probes spaced. -/
theorem spaced_step {base window : ℕ} {w : WatchedConnection} {e : LinkEvent}
    (hwindow : window ≤ longestWindow) (hlimit : base + 2 ^ 65 ≤ Instant.limit)
    (h : Spaced base window w) (hclock : Clocked base w e) (hsound : Sound w e) :
    Spaced base window (w.step e) := by
  obtain ⟨hlater, hfits⟩ := hclock
  obtain ⟨t, hactive, ht, hsent⟩ := h.active
  have hnext := step_activity hsound hactive (ht.trans hlater) hfits
  have hbelow : t < base + 2 ^ 64 := lt_of_le_of_lt ht h.fits
  have hstays : t ≤ (if e.answered then e.time w.now else t) ∧
      (if e.answered then e.time w.now else t) ≤ e.time w.now := by
    split_ifs
    · exact ⟨ht.trans hlater, le_rfl⟩
    · exact ⟨le_rfl, ht.trans hlater⟩
  refine ⟨(step_window w e).trans h.unchanged, hfits, ⟨_, hnext, hstays.2, ?_⟩, ?_⟩
  · -- a probe that counted was answered, so the clock has moved to its end
    have hcounted : w.task.phase = .probing → e.answered = true →
        base + (w.task.keepalivesSent + 1) * quietTime window ≤
          if e.answered then e.time w.now else t := by
      intro hwas hanswered
      have hstarted := h.started hwas
      rw [if_pos hanswered, Nat.succ_mul, ← Nat.add_assoc]
      exact hstarted.trans hlater
    cases step_turned hsound with
    | kept hphase hsame hturns hsleep hprobe =>
        rw [hsame]
        exact hsent.trans hstays.1
    | ended hphase hcases =>
        rcases hcases with hsame | ⟨hwas, hanswered, hmore⟩
        · rw [hsame]
          exact hsent.trans hstays.1
        · rw [hmore]
          exact hcounted hwas hanswered
    | started wake hwas hphase hsame hturns hquiet hdue =>
        rw [hsame]
        exact hsent.trans hstays.1
    | dozed wake hwas hphase hsame hturns hquiet hdue =>
        rw [hsame]
        exact hsent.trans hstays.1
    | probed hwas hphase hcases hturns hprobe =>
        rcases hcases with hsame | ⟨hanswered, hmore⟩
        · rw [hsame]
          exact hsent.trans hstays.1
        · rw [hmore]
          exact hcounted hwas hanswered
  · intro hprobing
    cases step_turned hsound with
    | kept hphase hsame hturns hsleep hprobe =>
        rw [hphase] at hprobing
        rw [hsame]
        exact (h.started hprobing).trans hlater
    | ended hphase hcases =>
        rw [hphase] at hprobing
        cases hprobing
    | started wake hwas hphase hsame hturns hquiet hdue =>
        rw [hsame]
        have hlast : w.lastActivity = t := hactive.last (fits_clock hbelow hlimit).1
        rw [hlast, h.unchanged, keepaliveDue_iff hwindow (fits_clock hbelow hlimit).2] at hdue
        exact (Nat.add_le_add_right hsent _).trans hdue
    | dozed wake hwas hphase hsame hturns hquiet hdue =>
        rw [hphase] at hprobing
        cases hprobing
    | probed hwas hphase hcases hturns hprobe =>
        rw [hphase] at hprobing
        cases hprobing

/-- A connection that has just opened sleeps. -/
theorem opened_phase (conn : ConnectedState) (openedAt arrival : Instant) :
    (opened conn openedAt arrival).task.phase = .sleeping (keepaliveWake openedAt
      (ActivityTracker.new openedAt).last conn.inactivityWindow) :=
  congrArg KeepaliveTask.phase (if_pos rfl)

/-- At the opening no probe was answered. -/
theorem opened_spaced (conn : ConnectedState) (openedAt arrival : ℕ) :
    Spaced openedAt conn.inactivityWindow (opened conn openedAt arrival) := by
  have hspawn : (opened conn openedAt arrival).task.client = Class3Client.opened conn openedAt :=
    rest_client _ _
  refine ⟨?_, ?_, ⟨openedAt, ?_, le_rfl, ?_⟩, ?_⟩
  · show (opened conn openedAt arrival).task.client.conn.inactivityWindow = _
    rw [hspawn]
    rfl
  · show openedAt < openedAt + 2 ^ 64
    omega
  · rw [hspawn]
    exact ⟨rfl, rfl⟩
  · rw [show (opened conn openedAt arrival).task.keepalivesSent = 0 from rest_sent _ _]
    omega
  · intro hprobing
    rw [opened_phase] at hprobing
    cases hprobing

/-- Probes are spaced: over any run of a class-3 connection, a probe starts a quiet time after the
last exchange the client saw completed at the earliest, and the probes that were answered fit
into the time that has passed, one quiet time each. -/
theorem keepalive_never_storms (route : Option RoutePath) (opts : ClientOptions)
    (env : Class3Env) (conn : ConnectedState)
    (hopen : (openClass3 route opts env).result = .ok conn) (openedAt arrival : Instant)
    (hlimit : openedAt + 2 ^ 65 ≤ Instant.limit) (events : List LinkEvent)
    (hrun : Guarded WatchedConnection.step (fun w e => Clocked openedAt w e ∧ Sound w e)
      (opened conn openedAt arrival) events) :
    Guarded WatchedConnection.step (fun w e => (w.step e).task.phase = .probing →
        w.task.phase = .probing ∨
          w.lastActivity + quietTime conn.inactivityWindow ≤ e.time w.now)
      (opened conn openedAt arrival) events ∧
    openedAt + (runSteps WatchedConnection.step (opened conn openedAt arrival)
        events).task.keepalivesSent * quietTime conn.inactivityWindow ≤
      (runSteps WatchedConnection.step (opened conn openedAt arrival) events).now := by
  have hwindow := openClass3_window hopen
  have hstart := opened_spaced conn openedAt arrival
  constructor
  · refine guarded_of_invariant (Spaced openedAt conn.inactivityWindow)
      (fun w e h hguard => spaced_step hwindow hlimit h hguard.1 hguard.2) ?_ hstart hrun
    intro w e h hguard hprobing
    cases step_turned hguard.2 with
    | kept hphase hsame hturns hsleep hprobe => exact Or.inl (hphase ▸ hprobing)
    | ended hphase hcases => rw [hphase] at hprobing; cases hprobing
    | started wake hwas hphase hsame hturns hquiet hdue =>
        obtain ⟨t, hactive, ht, -⟩ := h.active
        have hbelow : t < openedAt + 2 ^ 64 := lt_of_le_of_lt ht h.fits
        have hlast : w.lastActivity = t := hactive.last (fits_clock hbelow hlimit).1
        rw [hlast, h.unchanged, keepaliveDue_iff hwindow (fits_clock hbelow hlimit).2] at hdue
        rw [hlast]
        exact Or.inr hdue
    | dozed wake hwas hphase hsame hturns hquiet hdue => rw [hphase] at hprobing; cases hprobing
    | probed hwas hphase hcases hturns hprobe => rw [hphase] at hprobing; cases hprobing
  · have hfinal := runSteps_invariant
      (fun w e h hguard => spaced_step hwindow hlimit h (And.left hguard) (And.right hguard))
      hstart hrun
    obtain ⟨t, -, ht, hsent⟩ := hfinal.active
    exact hsent.trans ht

/-- A target that accepts a class-3 open at two seconds. -/
def openedReply : EncapFrame :=
  EncapFrame.new (EncapHeader.request .sendRRData 0 1 (List.replicate 8 0))
    [0, 0, 0, 0, 0, 0, 2, 0, 0, 0, 0, 0, 0xB2, 0, 30, 0, 0xD4, 0, 0, 0, 1, 0, 0, 0, 5, 0, 0, 0,
      7, 0, 0x37, 0x13, 9, 0, 0, 0, 0x80, 0x84, 0x1E, 0, 0x80, 0x84, 0x1E, 0, 0, 0]

/-- Its answer to the first probe: revision 2.1. -/
def revisionReply : EncapFrame :=
  EncapFrame.new (EncapHeader.request .sendUnitData 0 1 (List.replicate 8 0))
    [0, 0, 0, 0, 0, 0, 2, 0, 0xA1, 0, 4, 0, 5, 0, 0, 0, 0xB1, 0, 8, 0, 1, 0, 0x8E, 0, 0, 0, 2, 1]

def defaultClass3 : ClientOptions := ⟨none, 0x1337, Duration.fromSecs 2, .x16⟩

def defaultClass3Env : Class3Env := ⟨4, 6, 9, fun _ => .ok openedReply⟩

def watchedDefault : ConnectedState where
  oTConnectionId := 1
  tOConnectionId := 5
  sequence := 0
  openRequest := class3Open defaultClass3 defaultClass3Env
  inactivityWindow := Duration.fromSecs 32
  negotiatedInterval := Duration.fromSecs 2
  timeoutMultiplier := .x16

/-- The default options open a connection with the default target. -/
theorem watchedDefault_opens :
    (openClass3 none defaultClass3 defaultClass3Env).result = .ok watchedDefault := by
  decide +kernel

/-- Twenty-four quiet seconds, then a probe that is answered. -/
def quietEvents : List LinkEvent :=
  [⟨.woke (Duration.fromSecs 24), none⟩,
    ⟨.probed (.ok revisionReply) (Duration.fromMillis 24003), some (Duration.fromMillis 24001)⟩]

/-- The run of a quiet client is clocked, sound and in time. -/
theorem quietEvents_run : Guarded WatchedConnection.step
    (fun w e => Clocked 0 w e ∧ Sound w e ∧
      Timely (Duration.fromSecs 3) (Duration.fromMillis 1) 1 w e)
    (opened watchedDefault 0 0) quietEvents := by
  refine ⟨⟨⟨by decide, by decide⟩, ⟨?_, ?_, ?_⟩, ?_, ?_, ?_, ?_, ?_⟩,
    ⟨⟨by decide, by decide⟩, ⟨?_, ?_, fun _ => by decide⟩, ?_, ?_, ?_, fun _ => rfl, ?_⟩, trivial⟩
  -- the sleep ends at its wake-up
  · rintro send ⟨⟩
  · rintro status ⟨⟩
  · rintro ⟨⟩
  · intro wake hwake
    rw [← KeepalivePhase.sleeping.inj hwake]
    decide
  · intro hprobing
    exact absurd hprobing (by decide)
  · rintro arrival ⟨⟩
  · rintro ⟨⟩
  · rintro ⟨⟩
  -- the probe is answered three milliseconds later
  · rintro send ⟨⟩
  · rintro status ⟨⟩
  · intro wake hwake
    have hprobing : (step (opened watchedDefault 0 0)
        ⟨.woke (Duration.fromSecs 24), none⟩).task.phase = .probing := by decide
    rw [hprobing] at hwake
    cases hwake
  · intro _
    exact ⟨by rintro at_ ⟨⟩, by decide⟩
  · intro arrival harrival
    rw [← Option.some.inj harrival]
    decide
  · intro _ hlost
    cases hlost

/-- A quiet client that is probed and answered keeps the spacing. -/
theorem keepalive_never_storms_quiet :
    Guarded WatchedConnection.step (fun w e => (w.step e).task.phase = .probing →
        w.task.phase = .probing ∨
          w.lastActivity + quietTime watchedDefault.inactivityWindow ≤ e.time w.now)
      (opened watchedDefault 0 0) quietEvents ∧
    0 + (runSteps WatchedConnection.step (opened watchedDefault 0 0)
        quietEvents).task.keepalivesSent * quietTime watchedDefault.inactivityWindow ≤
      (runSteps WatchedConnection.step (opened watchedDefault 0 0) quietEvents).now :=
  keepalive_never_storms none defaultClass3 defaultClass3Env watchedDefault
    watchedDefault_opens 0 0
    (by decide) quietEvents (guarded_of_invariant (fun _ => True) (fun _ _ _ _ => trivial)
      (fun _ _ _ hguard => ⟨hguard.1, hguard.2.1⟩) trivial quietEvents_run)

/-! ## The watchdog does not run out -/

/-- How far the task can have fallen behind a quiet time after the last activity, `t`: by the
probes it has missed, and by the slack of the timer that started the probe under way. -/
structure Served (base window latency slack limit t : ℕ) (w : WatchedConnection) : Prop where
  unchanged : w.window = window
  fits : w.now < base + 2 ^ 64
  active : ActiveUntil base w.task.client.activity t
  past : t ≤ w.now
  lag : t ≤ w.lastArrival + latency
  turned : w.since ≤ w.now
  missed : w.misses < limit
  armed : w.expired = false
  sleeping : ∀ wake, w.task.phase = .sleeping wake →
    wake ≤ t + quietTime window ∧
      w.since ≤ t + quietTime window + w.misses * (latency + slack)
  probing : w.task.phase = .probing →
    w.since ≤ t + quietTime window + w.misses * (latency + slack) + slack

/-- One probe more is still inside the window. -/
theorem lt_window {now t arrival quiet misses latency slack limit window : ℕ}
    (hroom : latency + quiet + limit * (latency + slack) < window)
    (hnow : now ≤ t + quiet + misses * (latency + slack) + slack + latency)
    (hlag : t ≤ arrival + latency) (hmissed : misses < limit) : now < arrival + window := by
  have hprobes := Nat.mul_le_mul_right (latency + slack) (Nat.succ_le_of_lt hmissed)
  rw [Nat.succ_mul] at hprobes
  omega

/-- How late an event of a task in service can be. -/
theorem time_le_of_served {base window latency slack limit t : ℕ} {w : WatchedConnection}
    {e : LinkEvent} (h : Served base window latency slack limit t w)
    (hrunning : w.task.phase ≠ .ended) (htimely : Timely latency slack limit w e) :
    e.time w.now ≤ t + quietTime window + w.misses * (latency + slack) + slack + latency := by
  cases hphase : w.task.phase with
  | ended => exact absurd hphase hrunning
  | sleeping wake =>
      obtain ⟨hwake, hsince⟩ := h.sleeping wake hphase
      have htime := htimely.1 wake hphase
      have hmax : max wake w.since ≤ t + quietTime window + w.misses * (latency + slack) :=
        max_le (hwake.trans (Nat.le_add_right _ _)) hsince
      exact htime.trans ((Nat.add_le_add_right hmax slack).trans (Nat.le_add_right _ _))
  | probing =>
      have htime := (htimely.2.1 hphase).2
      exact htime.trans (Nat.add_le_add_right (h.probing hphase) latency)

/-- The arrival of an event, and what it does to the target's watchdog. -/
theorem served_arrival {base window latency slack limit t : ℕ} {w : WatchedConnection}
    {e : LinkEvent} (hroom : RoomFor window latency slack limit)
    (h : Served base window latency slack limit t w) (hrunning : w.task.phase ≠ .ended)
    (htimely : Timely latency slack limit w e) :
    (w.step e).expired = false ∧ w.lastArrival ≤ (w.step e).lastArrival ∧
      (e.answered = true → e.time w.now ≤ (w.step e).lastArrival + latency) := by
  have hbefore := lt_window hroom (time_le_of_served h hrunning htimely) h.lag h.missed
  obtain ⟨-, -, harrival, hanswer, -⟩ := htimely
  cases harrived : e.arrived with
  | none =>
      refine ⟨?_, ?_, ?_⟩
      · simp [WatchedConnection.step, harrived, h.armed]
      · simp [WatchedConnection.step, harrived]
      · intro hanswered
        have := hanswer hanswered
        rw [harrived] at this
        cases this
  | some arrival =>
      obtain ⟨hearlier, hlag⟩ := harrival arrival harrived
      have hintime : arrival < w.lastArrival + w.window := by
        rw [h.unchanged]
        exact lt_of_le_of_lt hearlier hbefore
      refine ⟨?_, ?_, ?_⟩
      · simp [WatchedConnection.step, harrived, h.armed, hintime]
      · simp [WatchedConnection.step, harrived]
      · intro _
        refine hlag.trans (Nat.add_le_add_right ?_ latency)
        simp [WatchedConnection.step, harrived]

/-- Every event that comes in time leaves the watchdog running, or the task has ended. -/
theorem served_step {base window latency slack limit t : ℕ} {w : WatchedConnection}
    {e : LinkEvent} (hwindow : window ≤ longestWindow) (hlimit : base + 2 ^ 65 ≤ Instant.limit)
    (hroom : RoomFor window latency slack limit)
    (h : Served base window latency slack limit t w) (hrunning : w.task.phase ≠ .ended)
    (hclock : Clocked base w e) (hsound : Sound w e) (htimely : Timely latency slack limit w e) :
    (w.step e).task.phase = .ended ∨
      ∃ t', Served base window latency slack limit t' (w.step e) := by
  obtain ⟨hlater, hfits⟩ := hclock
  have hnext := step_activity hsound h.active (h.past.trans hlater) hfits
  have hlate := time_le_of_served h hrunning htimely
  obtain ⟨harmed, harrival, hlag⟩ := served_arrival hroom h hrunning htimely
  obtain ⟨hsleepTime, hprobeTime, -, -, hprobes⟩ := htimely
  have hbelow : t < base + 2 ^ 64 := lt_of_le_of_lt h.past h.fits
  have hwas : t ≤ (w.step e).lastArrival + latency :=
    h.lag.trans (Nat.add_le_add_right harrival latency)
  have hnow : (w.step e).now = e.time w.now := rfl
  have hsince : (w.step e).since = if e.turns then e.time w.now else w.since := rfl
  have hmisses : (w.step e).misses =
      if e.answered then 0 else if e.isProbe then w.misses + 1 else w.misses := rfl
  have hturned : (w.step e).since ≤ (w.step e).now := by
    rw [hsince, hnow]
    split_ifs
    · exact le_rfl
    · exact h.turned.trans hlater
  cases hanswered : e.answered with
  | true =>
      -- the clock has moved to the end of the exchange, and no probe is missing
      rw [if_pos hanswered] at hnext hmisses
      have hbehind : (w.step e).since ≤
          e.time w.now + quietTime window + (w.step e).misses * (latency + slack) :=
        hturned.trans ((Nat.le_add_right _ _).trans (Nat.le_add_right _ _))
      by_cases hended : (w.step e).task.phase = .ended
      · exact Or.inl hended
      · refine Or.inr ⟨e.time w.now, (step_window w e).trans h.unchanged, hfits, hnext, le_rfl,
          hlag hanswered, hturned, ?_, harmed, ?_, fun _ => hbehind.trans (Nat.le_add_right _ _)⟩
        · rw [hmisses]
          exact Nat.zero_lt_of_lt h.missed
        · intro wake hwake
          refine ⟨?_, hbehind⟩
          cases step_turned hsound with
          | kept hphase hsame hturns hsleep hprobe =>
              rw [hphase] at hwake
              exact (h.sleeping wake hwake).1.trans
                (Nat.add_le_add_right (h.past.trans hlater) _)
          | ended hphase hcases => exact absurd hphase hended
          | started wake' hslept hphase hsame hturns hquiet hdue =>
              rw [hphase] at hwake
              cases hwake
          | dozed wake' hslept hphase hsame hturns hquiet hdue =>
              rw [hanswered] at hquiet
              cases hquiet.1
          | probed hprobing hphase hcases hturns hprobe =>
              rw [hphase] at hwake
              rw [← KeepalivePhase.sleeping.inj hwake]
              have hlast : (w.step e).lastActivity = e.time w.now :=
                hnext.last (fits_clock hfits hlimit).1
              rw [hlast, h.unchanged]
              exact keepaliveWake_le _ hwindow (fits_clock hfits hlimit).2
  | false =>
      rw [if_neg (by rw [hanswered]; exact Bool.false_ne_true)] at hnext hmisses
      cases step_turned hsound with
      | kept hphase hsame hturns hsleep hprobe =>
          -- neither sleep nor probe was turned, so the task is where it was
          have hstill : e.turns = false := by
            rw [Bool.eq_false_iff]
            intro hturn
            rcases hturns hturn with hended | ⟨at_, hwoke⟩
            · exact hrunning hended
            · cases hwas' : w.task.phase with
              | sleeping wake => exact hsleep hturn wake hwas'
              | probing => exact (hprobeTime hwas').1 at_ hwoke
              | ended => exact hrunning hwas'
          rw [if_neg (by rw [hstill]; exact Bool.false_ne_true)] at hsince
          rw [if_neg (by rw [hprobe]; exact Bool.false_ne_true)] at hmisses
          refine Or.inr ⟨t, (step_window w e).trans h.unchanged, hfits, hnext,
            h.past.trans hlater, hwas, hturned, ?_, harmed, ?_, ?_⟩
          · rw [hmisses]
            exact h.missed
          · rw [hphase, hsince, hmisses]
            exact h.sleeping
          · rw [hphase, hsince, hmisses]
            exact h.probing
      | ended hphase hcases => exact Or.inl hphase
      | started wake hslept hphase hsame hturns hquiet hdue =>
          rw [if_pos hturns] at hsince
          rw [if_neg (by rw [hquiet.2]; exact Bool.false_ne_true)] at hmisses
          refine Or.inr ⟨t, (step_window w e).trans h.unchanged, hfits, hnext,
            h.past.trans hlater, hwas, hturned, ?_, harmed, ?_, ?_⟩
          · rw [hmisses]
            exact h.missed
          · rw [hphase]
            rintro wake' ⟨⟩
          · intro _
            rw [hsince, hmisses]
            obtain ⟨hwake, hbefore⟩ := h.sleeping wake hslept
            exact (hsleepTime wake hslept).trans (Nat.add_le_add_right
              (max_le (hwake.trans (Nat.le_add_right _ _)) hbefore) slack)
      | dozed wake hslept hphase hsame hturns hquiet hdue =>
          rw [if_pos hturns] at hsince
          rw [if_neg (by rw [hquiet.2]; exact Bool.false_ne_true)] at hmisses
          have hlast : w.lastActivity = t := h.active.last (fits_clock hbelow hlimit).1
          rw [hlast, h.unchanged] at hdue hphase
          have hearly : ¬ t + quietTime window ≤ e.time w.now := by
            intro hlate'
            rw [(keepaliveDue_iff hwindow (fits_clock hbelow hlimit).2).mpr hlate'] at hdue
            cases hdue
          refine Or.inr ⟨t, (step_window w e).trans h.unchanged, hfits, hnext,
            h.past.trans hlater, hwas, hturned, ?_, harmed, ?_, ?_⟩
          · rw [hmisses]
            exact h.missed
          · intro wake' hwake'
            rw [hphase] at hwake'
            rw [← KeepalivePhase.sleeping.inj hwake']
            refine ⟨keepaliveWake_le _ hwindow (fits_clock hbelow hlimit).2, ?_⟩
            rw [hsince]
            exact (Nat.le_of_not_le hearly).trans (Nat.le_add_right _ _)
          · rw [hphase]
            rintro ⟨⟩
      | probed hprobing hphase hcases hturns hprobe =>
          rw [if_pos hturns] at hsince
          rw [if_pos hprobe] at hmisses
          have hlast : (w.step e).lastActivity = t := hnext.last (fits_clock hbelow hlimit).1
          rw [hlast, h.unchanged] at hphase
          refine Or.inr ⟨t, (step_window w e).trans h.unchanged, hfits, hnext,
            h.past.trans hlater, hwas, hturned, ?_, harmed, ?_, ?_⟩
          · rw [hmisses]
            exact hprobes hprobe hanswered
          · intro wake' hwake'
            rw [hphase] at hwake'
            rw [← KeepalivePhase.sleeping.inj hwake']
            refine ⟨keepaliveWake_le _ hwindow (fits_clock hbelow hlimit).2, ?_⟩
            rw [hsince, hmisses]
            refine hlate.trans (le_of_eq ?_)
            ring
          · rw [hphase]
            rintro ⟨⟩

/-- At the opening the watchdog has its whole window. -/
theorem opened_served {conn : ConnectedState} {openedAt arrival latency : ℕ} (slack : ℕ)
    {limit : ℕ} (hwindow : conn.inactivityWindow ≤ longestWindow)
    (hlimit : openedAt + 2 ^ 65 ≤ Instant.limit) (hlag : openedAt ≤ arrival + latency)
    (hsome : 0 < limit) :
    Served openedAt conn.inactivityWindow latency slack limit openedAt
      (opened conn openedAt arrival) := by
  have hstart := opened_spaced conn openedAt arrival
  have hspawn : (opened conn openedAt arrival).task.client = Class3Client.opened conn openedAt :=
    rest_client _ _
  have hactive : ActiveUntil openedAt (ActivityTracker.new openedAt) openedAt := ⟨rfl, rfl⟩
  have hclock := fits_clock (show openedAt < openedAt + 2 ^ 64 by omega) hlimit
  refine ⟨hstart.unchanged, hstart.fits, ?_, le_rfl, hlag, le_rfl, hsome, rfl, ?_, ?_⟩
  · rw [hspawn]
    exact hactive
  · intro wake hwake
    have hsince : (opened conn openedAt arrival).since = openedAt := rfl
    rw [hsince]
    refine ⟨?_, (Nat.le_add_right _ _).trans (Nat.le_add_right _ _)⟩
    rw [opened_phase] at hwake
    rw [← KeepalivePhase.sleeping.inj hwake, hactive.last hclock.1]
    exact keepaliveWake_le _ hwindow hclock.2
  · intro hprobing
    rw [opened_phase] at hprobing
    cases hprobing

/-- A task that has ended stays so. -/
theorem step_ended {w : WatchedConnection} (h : w.task.phase = .ended) (e : LinkEvent) :
    (w.step e).task.phase = .ended := by
  obtain ⟨input, arrived⟩ := e
  cases input with
  | exchanged send => exact h
  | released => exact h
  | woke now => simp only [WatchedConnection.step, KeepaliveTask.step, h]
  | probed answer now => simp only [WatchedConnection.step, KeepaliveTask.step, h]

/-- The keepalive does what it is for: over any run of a class-3 connection in which timers fire
and requests are settled in time and the window has room for that, the target's watchdog does not
run out as long as the task is running. -/
theorem keepalive_feeds_watchdog (route : Option RoutePath) (opts : ClientOptions)
    (env : Class3Env) (conn : ConnectedState)
    (hopen : (openClass3 route opts env).result = .ok conn) (openedAt arrival : Instant)
    (latency slack : Duration) (limit : ℕ) (hlimit : openedAt + 2 ^ 65 ≤ Instant.limit)
    (hlag : openedAt ≤ arrival + latency) (hsome : 0 < limit)
    (hroom : RoomFor conn.inactivityWindow latency slack limit) (events : List LinkEvent)
    (hrun : Guarded WatchedConnection.step
      (fun w e => Clocked openedAt w e ∧ Sound w e ∧ Timely latency slack limit w e)
      (opened conn openedAt arrival) events) :
    (runSteps WatchedConnection.step (opened conn openedAt arrival) events).task.phase = .ended ∨
      (runSteps WatchedConnection.step (opened conn openedAt arrival) events).expired = false := by
  have hwindow := openClass3_window hopen
  have hstep : ∀ (w : WatchedConnection) (e : LinkEvent),
      (w.task.phase = .ended ∨
        ∃ t, Served openedAt conn.inactivityWindow latency slack limit t w) →
      (Clocked openedAt w e ∧ Sound w e ∧ Timely latency slack limit w e) →
        (w.step e).task.phase = .ended ∨
          ∃ t, Served openedAt conn.inactivityWindow latency slack limit t (w.step e) := by
    intro w e h hguard
    rcases h with hended | ⟨t, hserved⟩
    · exact Or.inl (step_ended hended e)
    · by_cases hended : w.task.phase = .ended
      · exact Or.inl (step_ended hended e)
      · exact served_step hwindow hlimit hroom hserved hended hguard.1 hguard.2.1 hguard.2.2
  have hfinal := runSteps_invariant hstep
    (Or.inr ⟨openedAt, opened_served slack hwindow hlimit hlag hsome⟩) hrun
  rcases hfinal with hended | ⟨t, hserved⟩
  · exact Or.inl hended
  · exact Or.inr hserved.armed

/-- The probes of a quiet client feed the watchdog. -/
theorem keepalive_feeds_watchdog_quiet :
    (runSteps WatchedConnection.step (opened watchedDefault 0 0)
        quietEvents).task.phase = .ended ∨
      (runSteps WatchedConnection.step (opened watchedDefault 0 0) quietEvents).expired =
        false :=
  keepalive_feeds_watchdog none defaultClass3 defaultClass3Env watchedDefault
    watchedDefault_opens 0 0
    (Duration.fromSecs 3) (Duration.fromMillis 1) 1 (by decide) (by decide) (by decide)
    (by unfold RoomFor; decide) quietEvents quietEvents_run

end EnipAdapter.Analysis
