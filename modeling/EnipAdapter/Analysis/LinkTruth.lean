import EnipAdapter.Analysis.LinkMoves
import EnipAdapter.Analysis.ReconnectLadder

/-!
# A link is what it shows

Every booked move keeps three things: that the link, its gauge and the alarm are where the task
is, that the counters account for every attempt and every session, and that the rung and the
handshake flag are those of the failures since the last connect. A step that is not booked
touches none of them, so they hold at every point of a run.
-/

set_option autoImplicit false

namespace EnipAdapter.Analysis

open EnipAdapter.Foundation EnipAdapter.Model EnipAdapter.Interface

/-! ## What a booked move keeps -/

/-- The link, its gauge and the alarm, where the task is at a stage. -/
structure Shown (mode : DeviceMode) (stage : LinkStage) (l : Ladder) (w : LinkWatch) : Prop where
  gauge : l.connectionState = if l.link = .online then 1 else 0
  polling : stage = .polling → l.link = .online
  pushing : stage = .pushing → l.link = if w.framed then .online else .connecting
  backoff : stage = .backoff → l.link = .backoff
  connecting : stage = .connecting → l.link ≠ .online
  /-- A push ladder shows that it is connecting. -/
  awaiting : mode = .push → stage = .connecting → l.link = .connecting
  alarm : l.link = .online → w.standing = false

/-- The counters of the connection. -/
structure CountersHold (stage : LinkStage) (l : Ladder) (w : LinkWatch) : Prop where
  attempts : stage ≠ .stopped → l.conn.connectAttempts.total =
    l.conn.connectFailures.total + sessions l.conn + if stage = .connecting then 1 else 0
  first : l.conn.everConnected = false → l.conn.reconnects.total = 0
  drops : sessions l.conn = l.conn.connectionDrops.total + if inLoop stage then 1 else 0
  ends : l.conn.connectionDrops.total = l.reconnects + w.ended
  served : l.conn.sessionConnected = inLoop stage
  since : l.conn.connectedSince.isSome = inLoop stage

/-- The rung of the backoff and the flag of the handshake. -/
structure RungKept (mode : DeviceMode) (l : Ladder) (w : LinkWatch) : Prop where
  rung : l.attempt = min w.failures (2 ^ 32 - 1)
  failing : l.tlsHandshakeFailing = w.told
  polled : mode = .push → w.told = false
  refused : l.conn.tlsHandshakeFailures.total = w.refused

section Booked

variable {cfg : LadderConfig} {event : LadderEvent} {stage stage' : LinkStage} {l : Ladder}
  {w : LinkWatch}

/-- The notes after a booked move: the alarm is where the move leaves it. -/
def noted (cfg : LadderConfig) (env : LadderEnv) (w : LinkWatch) (event : LadderEvent) :
    LinkWatch :=
  { w.move cfg env event with
    standing := (eventAlarm cfg.mode event).getLast?.getD w.standing }

/-- A failed connect shows a backoff and a gauge of zero. -/
theorem failed_link (cfg : LadderConfig) (env : LadderEnv) (l : Ladder) :
    (l.failed cfg env).1.link = .backoff ∧ (l.failed cfg env).1.connectionState = 0 := by
  unfold Ladder.failed Ladder.climb
  simp only
  split <;> exact ⟨rfl, rfl⟩

/-- What is shown follows every event of the ladder. -/
theorem shown_book (hleads : Leads cfg.mode event stage stage') (h : Shown cfg.mode stage l w)
    (env : LadderEnv) :
    Shown cfg.mode stage' (l.book cfg env event).1 (noted cfg env w event) := by
  cases hleads with
  | polled hmode =>
    have hbook : (l.book cfg env .connected).1.link = .online ∧
        (l.book cfg env .connected).1.connectionState = 1 := by
      unfold Ladder.book Ladder.connected
      rw [hmode]
      exact ⟨rfl, rfl⟩
    have hstanding : (noted cfg env w .connected).standing = false := by
      unfold noted eventAlarm
      rw [if_pos hmode]
      rfl
    refine ⟨?_, fun _ => hbook.1, nofun, nofun, nofun, fun _ => nofun, fun _ => hstanding⟩
    rw [hbook.1, hbook.2]
    rfl
  | pushed hmode =>
    have hbook : (l.book cfg env .connected).1.link = l.link ∧
        (l.book cfg env .connected).1.connectionState = l.connectionState := by
      unfold Ladder.book Ladder.connected
      rw [hmode]
      exact ⟨rfl, rfl⟩
    have hlink := h.awaiting hmode rfl
    refine ⟨?_, nofun, fun _ => hbook.1.trans hlink, nofun, nofun, fun _ => nofun, ?_⟩
    · rw [hbook.1, hbook.2]
      exact h.gauge
    · intro honline
      rw [hbook.1, hlink] at honline
      cases honline
  | failed =>
    obtain ⟨hlink, hgauge⟩ := failed_link cfg env l
    refine ⟨?_, nofun, nofun, fun _ => hlink, nofun, fun _ => nofun, ?_⟩
    · show (l.failed cfg env).1.connectionState = if (l.failed cfg env).1.link = _ then 1 else 0
      rw [hlink, hgauge]
      rfl
    · intro honline
      cases hlink.symm.trans honline
  | retried =>
    have hlink := h.backoff rfl
    show Shown cfg.mode .connecting (l.attemptConnect cfg) _
    unfold Ladder.attemptConnect
    by_cases hmode : cfg.mode = .push
    · simp only [if_pos hmode]
      exact ⟨rfl, nofun, nofun, nofun, nofun, fun _ _ => rfl, nofun⟩
    · simp only [if_neg hmode]
      refine ⟨h.gauge, nofun, nofun, nofun, ?_, fun hpush => absurd hpush hmode, h.alarm⟩
      intro _ honline
      cases hlink.symm.trans honline
  | up => exact ⟨rfl, nofun, fun _ => rfl, nofun, nofun, fun _ => nofun, fun _ => rfl⟩
  | lost hloop => exact ⟨rfl, nofun, nofun, fun _ => rfl, nofun, fun _ => nofun, nofun⟩
  | replaced hloop =>
    show Shown cfg.mode .connecting ((Ladder.setLink _ .connecting).attemptConnect cfg) _
    unfold Ladder.attemptConnect
    have hlink (next : Ladder) (hnext : next.link = .connecting ∧ next.connectionState = 0) :
        Shown cfg.mode .connecting next (noted cfg env w .replaced) := by
      refine ⟨?_, nofun, nofun, nofun, ?_, fun _ _ => hnext.1, ?_⟩
      · rw [hnext.1, hnext.2]
        rfl
      · intro _ honline
        cases hnext.1.symm.trans honline
      · intro honline
        cases hnext.1.symm.trans honline
    apply hlink
    split <;> exact ⟨rfl, rfl⟩
  | stopped hloop => exact ⟨h.gauge, nofun, nofun, nofun, nofun, fun _ => nofun, h.alarm⟩

/-! ### The counters -/

/-- A connect opens one session more. -/
theorem sessions_onConnected {c : ConnectionCounters}
    (h : c.everConnected = false → c.reconnects.total = 0) (latencyMs : ℕ) (now : Instant) :
    sessions (c.onConnected latencyMs now) = sessions c + 1 := by
  unfold sessions ConnectionCounters.onConnected
  cases hever : c.everConnected with
  | false =>
    simp only [Bool.false_eq_true, if_false, if_true, h hever]
  | true => rfl

/-- A drop leaves the other counters alone. -/
theorem onConnectionDropped_spec (c : ConnectionCounters) (now : Instant) :
    (c.onConnectionDropped now).connectAttempts = c.connectAttempts ∧
      (c.onConnectionDropped now).connectFailures = c.connectFailures ∧
      (c.onConnectionDropped now).everConnected = c.everConnected ∧
      (c.onConnectionDropped now).reconnects = c.reconnects ∧
      (c.onConnectionDropped now).tlsHandshakeFailures = c.tlsHandshakeFailures ∧
      (c.onConnectionDropped now).connectionDrops = c.connectionDrops.add 1 := by
  unfold ConnectionCounters.onConnectionDropped ConnectionCounters.accrue
  cases c.connectedSince <;> exact ⟨rfl, rfl, rfl, rfl, rfl, rfl⟩

/-- A drop opens none. -/
theorem sessions_onConnectionDropped (c : ConnectionCounters) (now : Instant) :
    sessions (c.onConnectionDropped now) = sessions c := by
  obtain ⟨-, -, hever, hreconnects, -⟩ := onConnectionDropped_spec c now
  unfold sessions
  rw [hever, hreconnects]

/-- What a failed connect does to the counters. -/
theorem failed_conn (cfg : LadderConfig) (env : LadderEnv) (l : Ladder) :
    (l.failed cfg env).1.conn.connectAttempts = l.conn.connectAttempts ∧
      (l.failed cfg env).1.conn.connectFailures = l.conn.connectFailures.add 1 ∧
      sessions (l.failed cfg env).1.conn = sessions l.conn ∧
      (l.failed cfg env).1.conn.everConnected = l.conn.everConnected ∧
      (l.failed cfg env).1.conn.reconnects = l.conn.reconnects ∧
      (l.failed cfg env).1.conn.connectionDrops = l.conn.connectionDrops ∧
      (l.failed cfg env).1.conn.sessionConnected = l.conn.sessionConnected ∧
      (l.failed cfg env).1.conn.connectedSince = l.conn.connectedSince ∧
      (l.failed cfg env).1.reconnects = l.reconnects := by
  unfold Ladder.failed Ladder.climb
  simp only
  split <;> exact ⟨rfl, rfl, rfl, rfl, rfl, rfl, rfl, rfl, rfl⟩

/-- What a connect does to the counters and to the rung. -/
theorem connected_spec (cfg : LadderConfig) (env : LadderEnv) (l : Ladder) :
    (l.connected cfg env).1.conn = l.conn.onConnected env.latencyMs env.now ∧
      (l.connected cfg env).1.reconnects = l.reconnects ∧
      (l.connected cfg env).1.attempt = 0 := by
  unfold Ladder.connected
  cases cfg.mode <;> exact ⟨rfl, rfl, rfl⟩

/-- An attempt is counted, and moves neither the rung nor what was told. -/
theorem attemptConnect_spec (cfg : LadderConfig) (l : Ladder) :
    (l.attemptConnect cfg).conn = l.conn.onConnectAttempt ∧
      (l.attemptConnect cfg).reconnects = l.reconnects ∧
      (l.attemptConnect cfg).attempt = l.attempt ∧
      (l.attemptConnect cfg).tlsHandshakeFailing = l.tlsHandshakeFailing := by
  unfold Ladder.attemptConnect
  split <;> exact ⟨rfl, rfl, rfl, rfl⟩

/-- A drop that moves to a stage without a session. -/
theorem countersHold_dropped {stage stage' : LinkStage} {l next : Ladder} {w w' : LinkWatch}
    {now : Instant} (h : CountersHold stage l w) (hloop : inLoop stage = true)
    (hout : inLoop stage' = false)
    (hattempts : next.conn = l.conn.onConnectionDropped now ∧ stage' ≠ .connecting ∨
      next.conn = (l.conn.onConnectionDropped now).onConnectAttempt ∧ stage' = .connecting)
    (hends : next.reconnects + w'.ended = l.reconnects + w.ended + 1) :
    CountersHold stage' next w' := by
  obtain ⟨htried, hfailed, hever, hreconnects, -, hdropped⟩ :=
    onConnectionDropped_spec l.conn now
  have hsessions := sessions_onConnectionDropped l.conn now
  have hlive : stage ≠ .stopped ∧ stage ≠ .connecting := by
    refine ⟨?_, ?_⟩ <;> (rintro rfl; cases hloop)
  have hcount := h.attempts hlive.1
  have hdrops := h.drops
  rw [if_neg hlive.2, Nat.add_zero] at hcount
  rw [hloop, if_pos rfl] at hdrops
  have htotal : (l.conn.onConnectionDropped now).connectionDrops.total =
      l.conn.connectionDrops.total + 1 := congrArg Pair.total hdropped
  have hbalance := h.ends
  rcases hattempts with ⟨hconn, hstage⟩ | ⟨hconn, rfl⟩
  · refine ⟨?_, ?_, ?_, ?_, ?_, ?_⟩
    · intro _
      rw [hconn, htried, hfailed, hsessions, if_neg hstage, Nat.add_zero]
      exact hcount
    · rw [hconn, hever, hreconnects]
      exact h.first
    · rw [hconn, hsessions, hout, htotal]
      exact hdrops
    · rw [hconn, htotal]
      omega
    · rw [hconn, hout]
      rfl
    · rw [hconn, hout]
      rfl
  · have hsame : sessions (l.conn.onConnectionDropped now).onConnectAttempt = sessions l.conn :=
      hsessions
    refine ⟨?_, ?_, ?_, ?_, ?_, ?_⟩
    · intro _
      rw [hconn, hsame]
      show (l.conn.onConnectionDropped now).connectAttempts.total + 1 =
        (l.conn.onConnectionDropped now).connectFailures.total + sessions l.conn + 1
      rw [htried, hfailed, hcount]
    · rw [hconn]
      show (l.conn.onConnectionDropped now).everConnected = false →
        (l.conn.onConnectionDropped now).reconnects.total = 0
      rw [hever, hreconnects]
      exact h.first
    · rw [hconn, hsame]
      show sessions l.conn = (l.conn.onConnectionDropped now).connectionDrops.total + 0
      rw [htotal]
      exact hdrops
    · rw [hconn]
      show (l.conn.onConnectionDropped now).connectionDrops.total = _
      rw [htotal]
      omega
    · rw [hconn]
      rfl
    · rw [hconn]
      rfl

/-- The counters follow every event of the ladder. -/
theorem countersHold_book (hleads : Leads cfg.mode event stage stage') (h : CountersHold stage l w)
    (env : LadderEnv) :
    CountersHold stage' (l.book cfg env event).1 (noted cfg env w event) := by
  have hconnected (stage' : LinkStage) (hstage : stage = .connecting) (hloop : inLoop stage' = true)
      (hstage' : stage' ≠ .connecting) :
      CountersHold stage' (l.connected cfg env).1 (noted cfg env w .connected) := by
    obtain ⟨hconn, hlost, -⟩ := connected_spec cfg env l
    have hsessions := sessions_onConnected h.first env.latencyMs env.now
    have hattempts := h.attempts (by rw [hstage]; nofun)
    have hdrops := h.drops
    subst hstage
    refine ⟨?_, ?_, ?_, ?_, ?_, ?_⟩
    · intro _
      rw [hconn, hsessions, if_neg hstage', Nat.add_zero, ← Nat.add_assoc]
      exact hattempts
    · rw [hconn]
      nofun
    · rw [hconn, hsessions, hloop, if_pos rfl]
      exact congrArg (· + 1) hdrops
    · rw [hconn, hlost]
      exact h.ends
    · rw [hconn, hloop]
      rfl
    · rw [hconn, hloop]
      rfl
  cases hleads with
  | polled hmode => exact hconnected .polling rfl rfl nofun
  | pushed hmode => exact hconnected .pushing rfl rfl nofun
  | failed =>
    obtain ⟨htried, hfailed, hsessions, hever, hreconnects, hdropped, hserved, hsince, hlost⟩ :=
      failed_conn cfg env l
    have hattempts := h.attempts nofun
    have hdrops := h.drops
    refine ⟨?_, ?_, ?_, ?_, ?_, ?_⟩
    · intro _
      show (l.failed cfg env).1.conn.connectAttempts.total =
        (l.failed cfg env).1.conn.connectFailures.total + sessions (l.failed cfg env).1.conn + 0
      rw [htried, hfailed, hsessions, hattempts]
      show _ = l.conn.connectFailures.total + 1 + _ + 0
      rw [if_pos rfl]
      omega
    · show (l.failed cfg env).1.conn.everConnected = false → _
      rw [hever]
      intro hnever
      exact (congrArg Pair.total hreconnects).trans (h.first hnever)
    · exact hsessions.trans (hdrops.trans (congrArg (·.total + 0) hdropped.symm))
    · exact (congrArg Pair.total hdropped).trans
        (h.ends.trans (congrArg (· + w.ended) hlost.symm))
    · exact hserved.trans h.served
    · exact (congrArg Option.isSome hsince).trans h.since
  | retried =>
    obtain ⟨hconn, hlost, -⟩ := attemptConnect_spec cfg l
    have hattempts := h.attempts nofun
    show CountersHold .connecting (l.attemptConnect cfg) _
    refine ⟨?_, ?_, ?_, ?_, ?_, ?_⟩
    · intro _
      rw [hconn]
      exact congrArg (· + 1) hattempts
    · rw [hconn]
      exact h.first
    · rw [hconn]
      exact h.drops
    · rw [hconn, hlost]
      exact h.ends
    · rw [hconn]
      exact h.served
    · rw [hconn]
      exact h.since
  | up => exact ⟨fun _ => h.attempts nofun, h.first, h.drops, h.ends, h.served, h.since⟩
  | lost hloop =>
    have hends : l.reconnects + 1 + w.ended = l.reconnects + w.ended + 1 := by omega
    exact countersHold_dropped h hloop rfl (.inl ⟨rfl, nofun⟩) hends
  | replaced hloop =>
    obtain ⟨hconn, hlost, -⟩ := attemptConnect_spec cfg
      (Ladder.setLink { l with conn := l.conn.onConnectionDropped env.now } .connecting)
    apply countersHold_dropped h hloop rfl (.inr ⟨hconn, rfl⟩)
    exact (congrArg (· + (w.ended + 1)) hlost).trans (Nat.add_assoc l.reconnects w.ended 1).symm
  | stopped hloop =>
    exact countersHold_dropped h hloop rfl (.inl ⟨rfl, nofun⟩)
      (Nat.add_assoc l.reconnects w.ended 1).symm

/-! ### The rung and the handshake -/

/-- A rung that saturates climbs with the failures. -/
theorem climb_rung {attempt failures : ℕ} (h : attempt = min failures (2 ^ 32 - 1)) :
    min (attempt + 1) (2 ^ 32 - 1) = min (failures + 1) (2 ^ 32 - 1) := by
  omega

/-- A failed connect, by whether it is one of the handshake. -/
theorem failed_handshake (cfg : LadderConfig) (env : LadderEnv) (l : Ladder) :
    (l.failed cfg env).1.tlsHandshakeFailing = (l.tlsHandshakeFailing || refuses cfg env) ∧
      (l.failed cfg env).1.conn.tlsHandshakeFailures.total =
        (if refuses cfg env then l.conn.tlsHandshakeFailures.total + 1
          else l.conn.tlsHandshakeFailures.total) ∧
      (l.failed cfg env).1.attempt = min (l.attempt + 1) (2 ^ 32 - 1) := by
  show (Ladder.failed cfg env l).1.tlsHandshakeFailing = _ ∧ _
  unfold Ladder.failed Ladder.climb refuses
  simp only [decide_eq_true_eq]
  split
  · rename_i h
    rw [decide_eq_true h, Bool.or_true]
    exact ⟨rfl, rfl, rfl⟩
  · rename_i h
    rw [decide_eq_false h, Bool.or_false]
    exact ⟨rfl, rfl, rfl⟩

/-- A push device refuses no handshake. -/
theorem not_refuses {cfg : LadderConfig} (hmode : cfg.mode = .push) (env : LadderEnv) :
    refuses cfg env = false := by
  unfold refuses
  rw [hmode]
  exact decide_eq_false (fun h => DeviceMode.noConfusion h.1)

/-- The rung follows every event of the ladder. -/
theorem rungKept_book (hleads : Leads cfg.mode event stage stage') (h : RungKept cfg.mode l w)
    (env : LadderEnv) :
    RungKept cfg.mode (l.book cfg env event).1 (noted cfg env w event) := by
  cases hleads with
  | polled hmode =>
    obtain ⟨hconn, -, hattempt⟩ := connected_spec cfg env l
    have hflag : (l.connected cfg env).1.tlsHandshakeFailing = false := by
      unfold Ladder.connected
      rw [hmode]
      rfl
    refine ⟨hattempt, hflag, fun _ => rfl, ?_⟩
    exact (congrArg (·.tlsHandshakeFailures.total) hconn).trans h.refused
  | pushed hmode =>
    obtain ⟨hconn, -, hattempt⟩ := connected_spec cfg env l
    have hflag : (l.connected cfg env).1.tlsHandshakeFailing = false := by
      have hsame : (l.connected cfg env).1.tlsHandshakeFailing = l.tlsHandshakeFailing := by
        unfold Ladder.connected
        rw [hmode]
      exact hsame.trans (h.failing.trans (h.polled hmode))
    refine ⟨hattempt, hflag, fun _ => rfl, ?_⟩
    exact (congrArg (·.tlsHandshakeFailures.total) hconn).trans h.refused
  | failed =>
    obtain ⟨hflag, hcount, hattempt⟩ := failed_handshake cfg env l
    refine ⟨hattempt.trans (climb_rung h.rung), ?_, ?_, ?_⟩
    · exact hflag.trans (congrArg (· || refuses cfg env) h.failing)
    · intro hmode
      show (w.told || refuses cfg env) = false
      rw [h.polled hmode, not_refuses hmode]
      rfl
    · refine hcount.trans ?_
      show _ = if refuses cfg env then w.refused + 1 else w.refused
      rw [h.refused]
  | retried =>
    obtain ⟨hconn, -, hattempt, hflag⟩ := attemptConnect_spec cfg l
    refine ⟨hattempt.trans h.rung, hflag.trans h.failing, h.polled, ?_⟩
    exact (congrArg (·.tlsHandshakeFailures.total) hconn).trans h.refused
  | up => exact ⟨h.rung, h.failing, h.polled, h.refused⟩
  | lost hloop =>
    refine ⟨climb_rung h.rung, h.failing, h.polled, ?_⟩
    exact (congrArg Pair.total (onConnectionDropped_spec l.conn env.now).2.2.2.2.1).trans h.refused
  | replaced hloop =>
    obtain ⟨hconn, -, hattempt, hflag⟩ := attemptConnect_spec cfg
      (Ladder.setLink { l with conn := l.conn.onConnectionDropped env.now } .connecting)
    refine ⟨hattempt.trans h.rung, hflag.trans h.failing, h.polled, ?_⟩
    refine (congrArg (·.tlsHandshakeFailures.total) hconn).trans ?_
    exact (congrArg Pair.total (onConnectionDropped_spec l.conn env.now).2.2.2.2.1).trans h.refused
  | stopped hloop =>
    refine ⟨h.rung, h.failing, h.polled, ?_⟩
    exact (congrArg Pair.total (onConnectionDropped_spec l.conn env.now).2.2.2.2.1).trans h.refused

end Booked

/-! ## Whole runs -/

/-- What every step keeps of a watched link. -/
structure LinkKept (cfg : TaskConfig) (s : WatchedLink) : Prop where
  block : cfg.mode = .push → cfg.io = none → s.linked.task.phase = .stopped
  shown : Shown cfg.mode s.stage s.linked.ladder s.watch
  accounted : CountersHold s.stage s.linked.ladder s.watch
  rung : RungKept cfg.mode s.linked.ladder s.watch

section Steps

variable {cfg : TaskConfig} {ladder : LadderConfig} {s : WatchedLink}
  {input : TaskInput × StepEnv × LadderEnv}

/-- A step that the ladder does not book. -/
theorem step_unbooked
    (hevent : ladderEvent s.linked.task.phase
      (taskStep cfg s.linked.task (input.1, input.2.1)).1.phase input.1 = none)
    (hmoves : alarmMoves (taskStep cfg s.linked.task (input.1, input.2.1)).2 = []) :
    s.step cfg ladder input =
      ⟨⟨(taskStep cfg s.linked.task (input.1, input.2.1)).1, s.linked.ladder⟩, s.watch⟩ := by
  unfold WatchedLink.step LinkedTask.step
  simp only [hevent]
  rw [alarmAfter_eq, hmoves]
  rfl

/-- A step that it books. -/
theorem step_booked {event : LadderEvent}
    (hevent : ladderEvent s.linked.task.phase
      (taskStep cfg s.linked.task (input.1, input.2.1)).1.phase input.1 = some event)
    (hmoves : alarmMoves (taskStep cfg s.linked.task (input.1, input.2.1)).2 =
      eventAlarm ladder.mode event) :
    s.step cfg ladder input =
      ⟨⟨(taskStep cfg s.linked.task (input.1, input.2.1)).1,
        (s.linked.ladder.book ladder input.2.2 event).1⟩,
        noted ladder input.2.2 s.watch event⟩ := by
  unfold WatchedLink.step LinkedTask.step
  simp only [hevent]
  rw [alarmAfter_eq, hmoves]
  rfl

/-- The effects that a step has on the ladder. -/
theorem told_unbooked (s : WatchedLink) (ladder : LadderConfig)
    (hevent : ladderEvent s.linked.task.phase
      (taskStep cfg s.linked.task (input.1, input.2.1)).1.phase input.1 = none) :
    (s.linked.step cfg ladder input).2.2 = [] := by
  unfold LinkedTask.step
  simp only [hevent]

/-- What a step tells of its ladder is what the ladder's event tells. -/
theorem told_booked (s : WatchedLink) (ladder : LadderConfig) {event : LadderEvent}
    (hevent : ladderEvent s.linked.task.phase
      (taskStep cfg s.linked.task (input.1, input.2.1)).1.phase input.1 = some event) :
    (s.linked.step cfg ladder input).2.2 =
      (s.linked.ladder.book ladder input.2.2 event).2 := by
  unfold LinkedTask.step
  simp only [hevent]

end Steps

/-- Every step keeps the ladder in order. -/
theorem linkKept_step {cfg : TaskConfig} (ladder : LadderFor cfg) {s : WatchedLink}
    (h : LinkKept cfg s) (input : TaskInput × StepEnv × LadderEnv) :
    LinkKept cfg (s.step cfg ladder.ladder input) := by
  obtain ⟨hblock, hshown, haccounted, hrung⟩ := h
  have hblock' : cfg.mode = .push → cfg.io = none →
      (taskStep cfg s.linked.task (input.1, input.2.1)).1.phase = .stopped := by
    intro hmode hio
    have hphase := hblock hmode hio
    simp only [taskStep, hphase]
  have hstage : s.stage = stageOf s.linked.task.phase := rfl
  cases linkMove_step hblock (input.1, input.2.1) with
  | stays hsame hevent hmoves =>
    rw [step_unbooked hevent hmoves]
    rw [hstage, ← hsame] at hshown haccounted
    exact ⟨hblock', hshown, haccounted, hrung⟩
  | leaves hbefore hafter hevent hmoves =>
    rw [step_unbooked hevent hmoves]
    have hdrops := haccounted.drops
    have hserved := haccounted.served
    have hsince := haccounted.since
    rw [hstage, hbefore] at hdrops hserved hsince
    refine ⟨hblock', ?_, ?_, hrung⟩
    · show Shown cfg.mode (stageOf _) s.linked.ladder s.watch
      rw [hafter]
      refine ⟨hshown.gauge, ?_, ?_, ?_, ?_, ?_, hshown.alarm⟩
      · intro hother
        cases hother
      · intro hother
        cases hother
      · intro hother
        cases hother
      · intro hother
        cases hother
      · intro _ hother
        cases hother
    · show CountersHold (stageOf _) s.linked.ladder s.watch
      rw [hafter]
      exact ⟨absurd rfl, haccounted.first, hdrops, haccounted.ends, hserved, hsince⟩
  | books event hevent hleads hmoves =>
    rw [← ladder.mode] at hleads hmoves hshown hrung
    rw [step_booked hevent hmoves]
    refine ⟨hblock', ?_, countersHold_book hleads haccounted input.2.2, ?_⟩
    · rw [← ladder.mode]
      exact shown_book hleads hshown input.2.2
    · rw [← ladder.mode]
      exact rungKept_book hleads hrung input.2.2

/-- A ladder starts in order. -/
theorem linkKept_start (cfg : TaskConfig) (ladder : LadderFor cfg) (health : TaskHealth) :
    LinkKept cfg (.start cfg ladder.ladder health) := by
  have hblock := (ladderSettled_start cfg health).block
  have hcases : (DeviceTask.start cfg health).phase = .connecting ∨
      (DeviceTask.start cfg health).phase = .stopped := by
    unfold DeviceTask.start
    cases cfg.mode with
    | poll => exact .inl rfl
    | push =>
      cases cfg.io with
      | none => exact .inr rfl
      | some io => exact .inl rfl
  rcases hcases with hphase | hphase
  · have hstart : WatchedLink.start cfg ladder.ladder health =
        ⟨⟨DeviceTask.start cfg health, ({} : Ladder).attemptConnect ladder.ladder⟩, {}⟩ := by
      unfold WatchedLink.start LinkedTask.start
      simp only [hphase]
    obtain ⟨hconn, hlost, hattempt, hflag⟩ := attemptConnect_spec ladder.ladder {}
    have hlink : (({} : Ladder).attemptConnect ladder.ladder).link = .connecting ∧
        (({} : Ladder).attemptConnect ladder.ladder).connectionState = 0 := by
      unfold Ladder.attemptConnect
      split <;> exact ⟨rfl, rfl⟩
    rw [hstart]
    have hstage : WatchedLink.stage ⟨⟨DeviceTask.start cfg health,
        ({} : Ladder).attemptConnect ladder.ladder⟩, {}⟩ = .connecting := by
      unfold WatchedLink.stage
      rw [hphase]
      rfl
    refine ⟨hblock, ?_, ?_, ⟨hattempt, hflag, fun _ => rfl, ?_⟩⟩
    · rw [hstage]
      refine ⟨?_, nofun, nofun, nofun, ?_, fun _ _ => hlink.1, fun _ => rfl⟩
      · rw [hlink.1, hlink.2]
        rfl
      · intro _ honline
        cases hlink.1.symm.trans honline
    · rw [hstage]
      refine ⟨?_, ?_, ?_, ?_, ?_, ?_⟩
      · intro _
        rw [hconn]
        rfl
      · rw [hconn]
        exact fun _ => rfl
      · rw [hconn]
        rfl
      · rw [hconn, hlost]
        rfl
      · rw [hconn]
        rfl
      · rw [hconn]
        rfl
    · rw [hconn]
      rfl
  · have hstart : WatchedLink.start cfg ladder.ladder health =
        ⟨⟨DeviceTask.start cfg health, {}⟩, {}⟩ := by
      unfold WatchedLink.start LinkedTask.start
      simp only [hphase]
    have hstage : WatchedLink.stage ⟨⟨DeviceTask.start cfg health, {}⟩, {}⟩ = .stopped := by
      unfold WatchedLink.stage
      rw [hphase]
      rfl
    rw [hstart]
    refine ⟨hblock, ?_, ?_, ⟨rfl, rfl, fun _ => rfl, rfl⟩⟩
    · rw [hstage]
      exact ⟨rfl, nofun, nofun, nofun, nofun, fun _ => nofun, fun _ => rfl⟩
    · rw [hstage]
      exact ⟨absurd rfl, fun _ => rfl, rfl, rfl, rfl, rfl⟩

/-- After every run it is in order. -/
theorem linkKept_run {cfg : TaskConfig} (ladder : LadderFor cfg) (health : TaskHealth)
    (inputs : List (TaskInput × StepEnv × LadderEnv)) :
    LinkKept cfg (.run cfg ladder.ladder health inputs) := by
  unfold WatchedLink.run
  apply runSteps_kept
  · intro s input h
    exact linkKept_step ladder h input
  · exact linkKept_start cfg ladder health

/-- The token of a link, with the pause on top. -/
theorem connectivityOf_paused {l : Ladder} (hgauge : l.connectionState =
    if l.link = .online then 1 else 0) (paused : Bool) :
    (connectivityOf l paused).2 = "PAUSED" ↔ paused = true ∧ l.connectionState = 1 := by
  rw [hgauge]
  unfold connectivityOf
  cases l.link <;> cases paused <;> decide

/-- At every point of every run the link, its gauge, its token, its counters and the unreachable
alarm agree with one another and with where the task is. -/
theorem link_is_what_it_shows (cfg : TaskConfig) (ladder : LadderFor cfg) (health : TaskHealth)
    (inputs : List (TaskInput × StepEnv × LadderEnv)) :
    LinkContract cfg ladder.ladder health inputs where
  shows := by
    intro before after _
    obtain ⟨-, hshown, -, -⟩ := linkKept_run ladder health before
    exact ⟨hshown.gauge, hshown.polling, hshown.pushing, hshown.backoff, hshown.connecting,
      hshown.alarm⟩
  accounts := by
    intro before after _
    obtain ⟨-, -, haccounted, -⟩ := linkKept_run ladder health before
    exact ⟨haccounted.attempts, haccounted.drops, haccounted.ends, haccounted.served,
      haccounted.since⟩
  paused := by
    intro before after _ s
    exact connectivityOf_paused (linkKept_run ladder health before).shown.gauge _

end EnipAdapter.Analysis
