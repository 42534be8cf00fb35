import EnipAdapter.Analysis.GroupMembership
import EnipAdapter.Analysis.InertDrops
import EnipAdapter.Interface.LossContract

/-!
# A connection is lost for a reason

The notes of an observer agree with what the manager keeps: each registered connection's watchdog
runs out when its lifeline says so, and its count of failed sends is the noted one. A connection
that stays has fewer than three, so that the bound of the counter is never met. Every step keeps
the agreement, and what it loses is read off the notes.
-/

set_option autoImplicit false

namespace EnipAdapter.Analysis

open EnipAdapter.Foundation EnipAdapter.Interface EnipAdapter.Model

/-! ## One connection -/

/-- The notes agree with the connection. -/
structure LineAgrees (c : IoConnection) (l : Lifeline) : Prop where
  params : c.params = l.params
  deadline : c.watchdogDeadline = l.deadline
  failures : c.consecutiveSendErrors = l.failures
  few : l.failures < maxConsecutiveSendErrors

/-- A new connection has failed nothing since it was opened. -/
theorem lineAgrees_new (params : IoConnectionParams) (openedAt : Instant) :
    LineAgrees (IoConnection.new params openedAt) ⟨params, openedAt, 0⟩ :=
  ⟨rfl, rfl, rfl, Nat.succ_pos 2⟩

/-- An accepted frame feeds the watchdog, and a dropped one does not. -/
theorem consume_lineAgrees {c : IoConnection} {l : Lifeline} (h : LineAgrees c l) (data : Bytes)
    (seq : UInt32) (now : Instant) :
    match (c.consume data seq now).2 with
    | .accepted _ update =>
      update.receivedAt = now ∧ LineAgrees (c.consume data seq now).1 { l with fed := now }
    | .dropped _ => LineAgrees (c.consume data seq now).1 l := by
  obtain ⟨hparams, hdeadline, hfailures, hfew⟩ := h
  have hfed : ∀ window : Instant, (Instant.checkedAdd now
      (watchdogTimeout c.params.t2oApi c.params.timeoutMultiplier)).getD now = window →
        window = Lifeline.deadline { l with fed := now } := by
    intro window hwindow
    rw [← hwindow, hparams]
    rfl
  unfold IoConnection.consume
  cases IoFrame.decode c.params.t2oFormat data with
  | error e => exact ⟨hparams, hdeadline, hfailures, hfew⟩
  | ok frame =>
    simp only
    by_cases hbad : (if c.params.t2oFixed then decide (frame.data.length ≠ c.params.t2oDataSize)
        else decide (frame.data.length > c.params.t2oDataSize)) = true
    · rw [if_pos hbad]
      exact ⟨hparams, hdeadline, hfailures, hfew⟩
    · rw [if_neg hbad]
      cases frame.sequence with
      | none => exact ⟨rfl, hparams, hfed _ rfl, hfailures, hfew⟩
      | some s =>
        cases c.lastAcceptedSeq with
        | none => exact ⟨rfl, hparams, hfed _ rfl, hfailures, hfew⟩
        | some last =>
          simp only
          by_cases hdelta : IoConnection.sequenceDelta s last ≤ 0
          · rw [if_pos hdelta]
            exact ⟨hparams, hdeadline, hfailures, hfew⟩
          · rw [if_neg hdelta]
            exact ⟨rfl, hparams, hfed _ rfl, hfailures, hfew⟩

/-- Producing a frame touches neither the watchdog nor the count. -/
theorem pollProduce_lineAgrees {c : IoConnection} {l : Lifeline} (h : LineAgrees c l)
    (now : Instant) :
    LineAgrees (c.pollProduce now).1 l := by
  unfold IoConnection.pollProduce
  by_cases hdue : now < c.nextProduceAt
  · rw [if_pos hdue]
    exact h
  · rw [if_neg hdue]
    exact ⟨h.params, h.deadline, h.failures, h.few⟩

/-- A send is accounted as it is noted; the connection is dead at the third failure. -/
theorem recordSend_lineAgrees {c : IoConnection} {l : Lifeline} (h : LineAgrees c l)
    (result : Except ErrorKind Unit) :
    ((c.recordSend result).2 = .connectionDead ↔
      maxConsecutiveSendErrors ≤ (l.after (some result)).failures) ∧
    (c.recordSend result).1.watchdogDeadline = l.deadline ∧
    ((l.after (some result)).failures < maxConsecutiveSendErrors →
      LineAgrees (c.recordSend result).1 (l.after (some result))) := by
  have hfew := h.few
  have hfailures := h.failures
  unfold IoConnection.recordSend Lifeline.after
  unfold maxConsecutiveSendErrors at hfew ⊢
  cases result with
  | ok u =>
    refine ⟨⟨nofun, fun hle => absurd hle (Nat.not_succ_le_zero 2)⟩, h.deadline, ?_⟩
    intro hlt
    exact ⟨h.params, h.deadline, rfl, hlt⟩
  | error kind =>
    simp only
    cases hkind : isPerDatagramError kind with
    | true =>
      rw [if_pos rfl, if_pos rfl]
      refine ⟨⟨nofun, fun hle => absurd hle (by omega)⟩, h.deadline, ?_⟩
      intro hlt
      exact ⟨h.params, h.deadline, h.failures, hlt⟩
    | false =>
      simp only [Bool.false_eq_true, if_false]
      have hcount : min (c.consecutiveSendErrors + 1) (2 ^ 32 - 1) = l.failures + 1 := by omega
      rw [hcount]
      by_cases hdead : l.failures + 1 ≥ 3
      · rw [if_pos hdead]
        exact ⟨⟨fun _ => hdead, fun _ => rfl⟩, h.deadline, fun hlt => absurd hlt (by omega)⟩
      · rw [if_neg hdead]
        refine ⟨⟨nofun, fun hle => absurd hle hdead⟩, h.deadline, ?_⟩
        intro hlt
        exact ⟨h.params, h.deadline, rfl, hlt⟩

/-- What a tick makes of a connection is what the notes say. -/
theorem tickConnection_lineAgrees {c : IoConnection} {l : Lifeline} (h : LineAgrees c l)
    (now : Instant)
    (send : Except ErrorKind Unit) :
    (tickConnection c now send).2.2 =
        l.verdict now ((c.pollProduce now).2.map (sendResult · send)) ∧
      (l.verdict now ((c.pollProduce now).2.map (sendResult · send)) = none →
        LineAgrees (tickConnection c now send).1
          (l.after ((c.pollProduce now).2.map (sendResult · send)))) := by
  have hpoll := pollProduce_lineAgrees h now
  unfold tickConnection
  generalize c.pollProduce now = polled at hpoll ⊢
  obtain ⟨c', produced⟩ := polled
  unfold Lifeline.verdict IoConnection.pollWatchdog
  cases produced with
  | none =>
    have hfew : ¬ maxConsecutiveSendErrors ≤ (l.after none).failures := Nat.not_le.mpr h.few
    have hdeadline : c'.watchdogDeadline = l.deadline := hpoll.deadline
    simp only [Option.map_none, if_neg hfew, hdeadline, decide_eq_true_eq, true_and]
    intro _
    exact hpoll
  | some produced =>
    obtain ⟨hdead, hdeadline, hagrees⟩ := recordSend_lineAgrees hpoll (sendResult produced send)
    simp only [Option.map_some, hdead, hdeadline, decide_eq_true_eq, true_and]
    intro hnone
    apply hagrees
    by_contra hmany
    rw [if_pos (Nat.not_lt.mp hmany)] at hnone
    cases hnone

/-! ## The losses of a step -/

/-- The losses told to a consumer are found among what it is sent. -/
theorem lossesTo_eq (id : UInt32) (effects : List ManagerEffect) :
    lossesTo id effects = (sentTo id effects).filterMap fun
      | .lost reason => some reason
      | _ => none := by
  unfold lossesTo sentTo
  rw [List.filterMap_filterMap]
  congr 1
  funext e
  cases e with
  | event i tx ev => cases ev <;> by_cases hi : i = id <;> simp [hi]
  | verdict ack result => rfl
  | send i endpoint datagram => rfl
  | joined group => rfl
  | left group => rfl

/-- Losing a list of connections tells each that still has a consumer once, the first reason. -/
theorem lossesTo_loseConnections (id : UInt32) (ended : List (UInt32 × LostReason))
    (m : Manager) :
    lossesTo id (m.loseConnections ended).2 =
      if id ∈ m.events then (ended.lookup id).toList else [] := by
  induction ended generalizing m with
  | nil =>
    rw [lossesTo_eq]
    split <;> rfl
  | cons p rest ih =>
    obtain ⟨id', reason⟩ := p
    have hsent := sentTo_loseConnection m id' id reason
    have hmem : id ∈ (m.loseConnection id' reason).1.events ↔ id ≠ id' ∧ id ∈ m.events :=
      AList.mem_erase
    simp only [Manager.loseConnections]
    have happend : lossesTo id ((m.loseConnection id' reason).2 ++
        ((m.loseConnection id' reason).1.loseConnections rest).2) =
          lossesTo id (m.loseConnection id' reason).2 ++
            lossesTo id ((m.loseConnection id' reason).1.loseConnections rest).2 :=
      List.filterMap_append
    rw [happend, ih, lossesTo_eq, hsent]
    by_cases hid : id = id'
    · subst hid
      rw [if_neg (fun hin => (hmem.mp hin).1 rfl), List.lookup_cons_self, List.append_nil]
      by_cases hin : id ∈ m.events
      · rw [if_pos ⟨rfl, hin⟩, if_pos hin]
        rfl
      · rw [if_neg (fun hboth => hin hboth.2), if_neg hin]
        rfl
    · have hne : (id == id') = false := beq_eq_false_iff_ne.mpr hid
      rw [if_neg (fun hboth => hid hboth.1), List.lookup_cons, hne]
      by_cases hin : id ∈ m.events
      · rw [if_pos (hmem.mpr ⟨hid, hin⟩), if_pos hin]
        rfl
      · rw [if_neg (fun hboth => hin (hmem.mp hboth).2), if_neg hin]
        rfl

/-- Losing connections leaves the count of receive errors. -/
theorem loseConnections_consecutiveFatal (ended : List (UInt32 × LostReason)) (m : Manager) :
    (m.loseConnections ended).1.consecutiveFatal = m.consecutiveFatal := by
  induction ended generalizing m with
  | nil => rfl
  | cons p rest ih => exact ih (m.loseConnection p.1 p.2).1

/-- The reasons a pass over distinct connections collects are the connections' own. -/
theorem tickLoop_ended_lookup (now : Instant) (sends : UInt32 → Except ErrorKind Unit)
    {ids : List UInt32} (hnodup : ids.Nodup) (conns : Connections) (id : UInt32) :
    (tickLoop now sends ids conns).2.2.lookup id =
      if id ∈ ids then
        (conns.lookup id).bind fun c => (tickConnection c now (sends id)).2.2
      else none := by
  induction ids generalizing conns with
  | nil => rfl
  | cons i ids ih =>
    obtain ⟨hi, hrest⟩ := List.nodup_cons.mp hnodup
    rw [tickLoop]
    cases hc : conns.lookup i with
    | none =>
      simp only
      rw [ih hrest]
      by_cases hid : id = i
      · subst hid
        simp [hi, hc]
      · simp [hid]
    | some c =>
      simp only
      by_cases hid : id = i
      · subst hid
        rw [if_pos List.mem_cons_self, hc, Option.bind_some]
        cases (tickConnection c now (sends id)).2.2 with
        | none => exact (ih hrest _).trans (if_neg hi)
        | some reason => exact List.lookup_cons_self
      · have hne : (id == i) = false := beq_eq_false_iff_ne.mpr hid
        have hlater := ih hrest (conns.insert i (tickConnection c now (sends i)).1)
        rw [AList.lookup_insert_ne hid] at hlater
        simp only [List.mem_cons, hid, false_or]
        cases (tickConnection c now (sends i)).2.2 with
        | none => exact hlater
        | some reason =>
          refine Eq.trans ?_ hlater
          show List.lookup id ((i, reason) :: _) = _
          rw [List.lookup_cons, hne]
          rfl

/-! ## The notes and the manager -/

/-- The notes agree with the manager. A task that left its loop has no connection. -/
structure Tracks (s : ObservedManager) : Prop where
  keys : KeysAgree s.manager
  lines : ∀ id, Option.Rel LineAgrees (s.manager.registry.conns.lookup id) (s.watch.lifelines id)
  row : s.manager.running = true →
    s.watch.row = s.manager.consecutiveFatal ∧ s.watch.row < maxConsecutiveFatalRecvErrors
  stopped : s.manager.running = false → ∀ id, s.watch.lifelines id = none

/-- At the start there is nothing to observe. -/
theorem tracks_start : Tracks ObservedManager.start where
  keys := keysAgree_start
  lines _ := Option.Rel.none
  row _ := ⟨rfl, Nat.succ_pos 2⟩
  stopped _ _ := rfl

/-- A connection and its note stand side by side, or neither does. -/
theorem line_cases {c : Option IoConnection} {l : Option Lifeline} (h : Option.Rel LineAgrees c l) :
    (c = none ∧ l = none) ∨ ∃ c' l', c = some c' ∧ l = some l' ∧ LineAgrees c' l' := by
  cases h with
  | none => exact Or.inl ⟨rfl, rfl⟩
  | some hagrees => exact Or.inr ⟨_, _, rfl, rfl, hagrees⟩

/-- What a step of a running manager keeps and owes. -/
structure StepKept (m : Manager) (w : LossWatch) (input : ManagerInput)
    (r : Manager × List ManagerEffect) : Prop where
  tracks : Tracks ⟨r.1, w.note m r.2 input⟩
  lost : ∀ id, lossesTo id r.2 = (w.owed m id input).toList

/-- A consumer that is sent nothing is told of no loss. -/
theorem lossesTo_of_silent {id : UInt32} {effects : List ManagerEffect}
    (h : sentTo id effects = []) : lossesTo id effects = [] := by
  rw [lossesTo_eq, h]
  rfl

/-- One note is written where one connection is. -/
theorem lines_insert {conns : Connections} {lines : UInt32 → Option Lifeline}
    (h : ∀ id, Option.Rel LineAgrees (conns.lookup id) (lines id)) {c : IoConnection} {l : Lifeline}
    (hagrees : LineAgrees c l) (id : UInt32) :
    ∀ id', Option.Rel LineAgrees ((conns.insert id c).lookup id')
      (Function.update lines id (some l) id') := by
  intro id'
  by_cases hid : id' = id
  · rw [hid, AList.lookup_insert, Function.update_self]
    exact Option.Rel.some hagrees
  · rw [AList.lookup_insert_ne hid, Function.update_of_ne hid]
    exact h id'

/-- A connection and its lifeline go together. -/
theorem lines_erase {conns : Connections} {lines : UInt32 → Option Lifeline}
    (h : ∀ id, Option.Rel LineAgrees (conns.lookup id) (lines id)) (id : UInt32) :
    ∀ id', Option.Rel LineAgrees ((conns.erase id).lookup id')
      (Function.update lines id none id') := by
  intro id'
  by_cases hid : id' = id
  · rw [hid, AList.lookup_erase, Function.update_self]
    exact Option.Rel.none
  · rw [AList.lookup_erase_ne hid, Function.update_of_ne hid]
    exact h id'

/-- A connection written back with the same watchdog and count needs no note. -/
theorem lines_update {conns : Connections} {lines : UInt32 → Option Lifeline}
    (h : ∀ id, Option.Rel LineAgrees (conns.lookup id) (lines id)) {id : UInt32}
    {c c' : IoConnection} (hc : conns.lookup id = some c)
    (hkept : ∀ l, LineAgrees c l → LineAgrees c' l) :
    ∀ id', Option.Rel LineAgrees ((conns.insert id c').lookup id') (lines id') := by
  intro id'
  by_cases hid : id' = id
  · have hline := h id
    rw [hc] at hline
    rw [hid, AList.lookup_insert]
    cases hl : lines id with
    | none =>
      rw [hl] at hline
      cases hline
    | some l =>
      rw [hl] at hline
      cases hline with
      | some hagrees => exact Option.Rel.some (hkept l hagrees)
  · rw [AList.lookup_insert_ne hid]
    exact h id'

section Steps

variable {m : Manager} {w : LossWatch}

/-- The task leaves its loop and drops every connection. -/
theorem tracks_exit (row : ℕ) : Tracks ⟨m.exit, ⟨fun _ => none, row⟩⟩ where
  keys _ := Iff.rfl
  lines _ := Option.Rel.none
  row hrun := absurd hrun Bool.false_ne_true
  stopped _ _ := rfl

/-- Adding a connection starts its lifeline. -/
theorem addConnection_kept (h : Tracks ⟨m, w⟩) (hrun : m.running = true)
    (params : IoConnectionParams) (openedAt : Instant) (tx : IoEventSender) (ack : ℕ)
    (env : CommandEnv) :
    Tracks ⟨(m.addConnection params openedAt tx ack env).1,
      w.command env (.add params openedAt tx ack)⟩ := by
  have hkeys := (addConnection_spec h.keys params openedAt tx ack env).1
  by_cases hjoined : params.multicastGroup = none ∨ env.join = .ok ()
  · have hinsert := lines_insert h.lines (lineAgrees_new params openedAt) params.t2oConnectionId
    simp only [LossWatch.command, if_pos hjoined]
    rw [addConnection_joined m hjoined] at hkeys ⊢
    cases hopen : env.ackOpen with
    | true =>
      rw [hopen] at hkeys
      exact ⟨hkeys, hinsert, fun _ => h.row hrun,
        fun hfalse => Bool.noConfusion (hrun.symm.trans hfalse)⟩
    | false =>
      rw [hopen] at hkeys
      refine ⟨hkeys, ?_, fun _ => h.row hrun,
        fun hfalse => Bool.noConfusion (hrun.symm.trans hfalse)⟩
      have herase := lines_erase hinsert params.t2oConnectionId
      rw [Function.update_idem] at herase
      exact herase
  · have hsame : (m.addConnection params openedAt tx ack env).1 = m := by
      obtain ⟨hsome, hjoin⟩ := not_or.mp hjoined
      obtain ⟨group, hgroup⟩ := Option.ne_none_iff_exists'.mp hsome
      cases hanswer : env.join with
      | ok u => exact absurd hanswer hjoin
      | error kind => rw [addConnection_refused m hgroup hanswer]
    simp only [LossWatch.command, if_neg hjoined, hsame]
    exact h

/-- A command loses nobody, and what it registers or removes is noted. -/
theorem command_kept (h : Tracks ⟨m, w⟩) (hrun : m.running = true) (cmd : ManagerCommand)
    (env : CommandEnv) : StepKept m w (.command cmd env) (m.command cmd env) := by
  have hstopped : m.running = false → ∀ id, w.lifelines id = none :=
    fun hfalse => Bool.noConfusion (hrun.symm.trans hfalse)
  cases cmd with
  | add params openedAt tx ack =>
    refine ⟨addConnection_kept h hrun params openedAt tx ack env, fun id => ?_⟩
    exact lossesTo_of_silent ((addConnection_spec h.keys params openedAt tx ack env).2.1 id)
  | shutdown => exact ⟨tracks_exit w.row, fun _ => rfl⟩
  | remove id =>
    refine ⟨⟨keysAgree_removeConnection h.keys id, lines_erase h.lines id, fun _ => h.row hrun,
      fun hfalse => ?_⟩, fun id' => lossesTo_of_silent (sentTo_removeConnection m id id')⟩
    have hnone := hstopped hfalse
    intro id'
    show Function.update w.lifelines id none id' = none
    by_cases hid : id' = id
    · rw [hid, Function.update_self]
    · rw [Function.update_of_ne hid, hnone]
  | setRun id run =>
    simp only [Manager.command]
    cases hc : m.registry.conns.lookup id with
    | none => exact ⟨h, fun _ => rfl⟩
    | some c =>
      refine ⟨⟨keysAgree_insert h.keys hc _, lines_update h.lines hc ?_, fun _ => h.row hrun,
        hstopped⟩, fun _ => rfl⟩
      intro l hagrees
      exact ⟨hagrees.params, hagrees.deadline, hagrees.failures, hagrees.few⟩
  | setOutput id bytes deadline ack =>
    have hsilent : ∀ verdict id, lossesTo id
        (ack.map (fun a => ManagerEffect.verdict a verdict)).toList = [] := by
      intro verdict id'
      cases ack <;> rfl
    simp only [Manager.command, Manager.stageOutput]
    cases hc : m.registry.conns.lookup id with
    | none => exact ⟨h, fun _ => hsilent _ _⟩
    | some c =>
      simp only
      by_cases hexpired : expired deadline env.now = true
      · rw [if_pos hexpired]
        exact ⟨h, fun _ => hsilent _ _⟩
      · rw [if_neg hexpired]
        refine ⟨⟨keysAgree_insert h.keys hc _, lines_update h.lines hc ?_, fun _ => h.row hrun,
          hstopped⟩, fun _ => hsilent _ _⟩
        intro l hagrees
        exact ⟨hagrees.params, hagrees.deadline, hagrees.failures, hagrees.few⟩

/-! ### Datagrams -/

/-- What routing does to the notes: an accepted datagram feeds one lifeline. -/
def RoutedKept (reg : Registry) (now : Instant) : Registry × Routed → Prop
  | (reg', .accepted id _ update) =>
    ∃ c c', reg.conns.lookup id = some c ∧ reg'.conns = reg.conns.insert id c' ∧
      ∀ l, LineAgrees c l → update.receivedAt = now ∧ LineAgrees c' { l with fed := now }
  | (reg', .dropped _ _) =>
    reg'.conns = reg.conns ∨ ∃ id c c', reg.conns.lookup id = some c ∧
      reg'.conns = reg.conns.insert id c' ∧ ∀ l, LineAgrees c l → LineAgrees c' l

/-- A datagram changes the watchdog of the connection it is accepted for, and of no other. -/
theorem consumeDatagram_kept (reg : Registry) (buf : Bytes) (ip : IpAddr) (now : Instant) :
    RoutedKept reg now (reg.consumeDatagram buf ip now) := by
  unfold Registry.consumeDatagram
  cases Cpf.decode buf with
  | error e => exact Or.inl rfl
  | ok cpf =>
    simp only
    split
    · rename_i addrItem dataItem _ _
      cases SequencedAddress.decode addrItem.data with
      | error e => exact Or.inl rfl
      | ok addr =>
        simp only
        cases hc : reg.conns.lookup addr.connectionId with
        | none => exact Or.inl rfl
        | some conn =>
          simp only
          by_cases hip : ip ≠ conn.params.expectedSourceIp
          · rw [if_pos hip]
            exact Or.inl rfl
          · rw [if_neg hip]
            have hkept : ∀ l, LineAgrees conn l → _ := fun l hagrees =>
              consume_lineAgrees hagrees dataItem.data addr.encapSequence now
            generalize conn.consume dataItem.data addr.encapSequence now = consumed at hkept ⊢
            obtain ⟨conn', outcome⟩ := consumed
            cases outcome with
            | accepted first update => exact ⟨conn, conn', hc, rfl, hkept⟩
            | dropped reason => exact Or.inr ⟨_, conn, conn', hc, rfl, hkept⟩
    · exact Or.inl rfl

/-- A connection was heard when its consumer was sent a sample. -/
theorem heard_eq (id : UInt32) (effects : List ManagerEffect) :
    heard id effects = (sentTo id effects).findSome? fun
      | .data update => some update.receivedAt
      | _ => none := by
  induction effects with
  | nil => rfl
  | cons e es ih =>
    unfold heard sentTo at ih ⊢
    rw [List.findSome?_cons, List.filterMap_cons]
    cases e with
    | event i tx ev =>
      by_cases hi : i = id
      · cases ev <;> simp [hi, ih]
      · cases ev <;> simp [hi, ih]
    | verdict ack result => exact ih
    | send i endpoint datagram => exact ih
    | joined group => exact ih
    | left group => exact ih

/-- A lifeline is fed with nothing when its consumer heard nothing. -/
theorem fed_of_silent {lines : UInt32 → Option Lifeline} {id : UInt32}
    {effects : List ManagerEffect} (h : heard id effects = none) :
    ((lines id).map fun l => { l with fed := (heard id effects).getD l.fed }) = lines id := by
  rw [h]
  exact Option.map_id'

/-- A datagram feeds the lifeline of the connection that hands its sample on, and no other. -/
theorem receive_kept (h : Tracks ⟨m, w⟩) (hrun : m.running = true) (buf : Bytes)
    (src : SocketAddr) (now : Instant) :
    StepKept m w (.datagram buf src now) (m.receive buf src now) := by
  have hkeys := (simulates_receive h.keys buf src now).keys
  have hkept := consumeDatagram_kept m.registry buf src.ip now
  have hlines : ∀ id, Option.Rel LineAgrees (m.registry.conns.lookup id) (w.lifelines id) := h.lines
  unfold Manager.receive at hkeys ⊢
  obtain ⟨⟨reg', routed⟩, hr⟩ :
    ∃ r, m.registry.consumeDatagram buf src.ip now = r := ⟨_, rfl⟩
  rw [hr] at hkept
  simp only [hr] at hkeys ⊢
  cases routed with
  | dropped id reason =>
    have hsame : ∀ id, Option.Rel LineAgrees (reg'.conns.lookup id) (w.lifelines id) := by
      rcases hkept with hconns | ⟨id, c, c', hc, hconns, hagrees⟩
      · rw [hconns]
        exact hlines
      · rw [hconns]
        exact lines_update hlines hc hagrees
    refine ⟨⟨hkeys, fun id => ?_, fun _ => ⟨rfl, Nat.succ_pos 2⟩,
      fun hfalse => Bool.noConfusion (hrun.symm.trans hfalse)⟩, fun _ => rfl⟩
    show Option.Rel LineAgrees (reg'.conns.lookup id) ((w.lifelines id).map fun l =>
      { l with fed := (heard id []).getD l.fed })
    rw [fed_of_silent rfl]
    exact hsame id
  | accepted id first update =>
    obtain ⟨c, c', hc, hconns, hagrees⟩ := hkept
    have hline := hlines id
    rw [hc] at hline
    obtain ⟨l, hl⟩ : ∃ l, w.lifelines id = some l := by
      cases hl : w.lifelines id with
      | none =>
        rw [hl] at hline
        cases hline
      | some l => exact ⟨l, rfl⟩
    rw [hl] at hline
    cases hline with
    | some hold =>
      obtain ⟨hreceived, hnew⟩ := hagrees l hold
      have hmem : id ∈ m.events := by
        rw [← h.keys id, ← AList.lookup_isSome]
        show (m.registry.conns.lookup id).isSome = true
        rw [hc]
        rfl
      rw [← AList.lookup_isSome] at hmem
      obtain ⟨tx, htx⟩ := Option.isSome_iff_exists.mp hmem
      set m₁ : Manager := ⟨reg', m.events, 0, m.running⟩ with hm₁
      have hc' : m₁.registry.conns.lookup id = some c' := by
        simp only [hm₁, hconns, AList.lookup_insert]
      have hsent : ∀ id', sentTo id' (m₁.deliver id first update) = _ :=
        fun id' => sentTo_deliver hc' htx
      refine ⟨⟨hkeys, fun id' => ?_, fun _ => ⟨rfl, Nat.succ_pos 2⟩,
        fun hfalse => Bool.noConfusion (hrun.symm.trans hfalse)⟩, fun id' => ?_⟩
      · show Option.Rel LineAgrees (reg'.conns.lookup id') ((w.lifelines id').map fun l =>
          { l with fed := (heard id' (m₁.deliver id first update)).getD l.fed })
        by_cases hid : id' = id
        · subst hid
          have hheard : heard id' (m₁.deliver id' first update) = some now := by
            rw [heard_eq, hsent, if_pos rfl]
            cases first <;> simp [hreceived]
          rw [hconns, AList.lookup_insert, hl, hheard]
          exact Option.Rel.some hnew
        · have hheard : heard id' (m₁.deliver id first update) = none := by
            rw [heard_eq, hsent, if_neg hid]
            rfl
          rw [fed_of_silent hheard, hconns, AList.lookup_insert_ne hid]
          exact hlines id'
      · show lossesTo id' (m₁.deliver id first update) = []
        rw [lossesTo_eq, hsent]
        by_cases hid : id' = id
        · rw [if_pos hid]
          cases first <;> rfl
        · rw [if_neg hid]
          rfl

/-! ### Receive errors and ticks -/

/-- The notes tell which connections are registered. -/
theorem registered_iff (h : Tracks ⟨m, w⟩) (id : UInt32) :
    (m.registry.conns.lookup id).isSome = (w.lifelines id).isSome := by
  have hline : Option.Rel LineAgrees (m.registry.conns.lookup id) (w.lifelines id) := h.lines id
  generalize m.registry.conns.lookup id = c at hline ⊢
  generalize w.lifelines id = l at hline ⊢
  cases hline with
  | some hagrees => rfl
  | none => rfl

/-- The consumers are those of the connections with a lifeline. -/
theorem mem_events_iff (h : Tracks ⟨m, w⟩) (id : UInt32) :
    id ∈ m.events ↔ (w.lifelines id).isSome = true := by
  rw [← registered_iff h id, AList.lookup_isSome]
  exact (h.keys id).symm

/-- A tick visits the connections with a lifeline. -/
theorem mem_iterationOrder_iff (h : Tracks ⟨m, w⟩) (order : List UInt32) (id : UInt32) :
    id ∈ iterationOrder m.registry.conns order ↔ (w.lifelines id).isSome = true := by
  rw [(iterationOrder_perm m.registry.conns order).mem_iff, ← registered_iff h id,
    AList.lookup_isSome]
  exact Iff.rfl

/-- Every id of a list is lost for the one reason. -/
theorem lookup_map_reason (id : UInt32) (ids : List UInt32) (reason : LostReason) :
    (ids.map fun i => (i, reason)).lookup id = if id ∈ ids then some reason else none := by
  induction ids with
  | nil => rfl
  | cons i ids ih =>
    rw [List.map_cons]
    by_cases hid : id = i
    · rw [hid, List.lookup_cons_self, if_pos List.mem_cons_self]
    · have hne : (id == i) = false := beq_eq_false_iff_ne.mpr hid
      rw [List.lookup_cons, hne]
      simp only [ih, List.mem_cons, hid, false_or]

/-- The manager gives up the socket at the error that the observer says it does. -/
theorem condemns_iff (hrow : w.row = m.consecutiveFatal)
    (hfew : w.row < maxConsecutiveFatalRecvErrors) (kind : ErrorKind) :
    (onRecvError m.consecutiveFatal kind).2 =
        (if w.condemns kind then .fatalSocket else .continue_) ∧
      (w.condemns kind = false → (onRecvError m.consecutiveFatal kind).1 =
          (if isPerDatagramError kind then 0 else w.row + 1) ∧
        (if isPerDatagramError kind then 0 else w.row + 1) < maxConsecutiveFatalRecvErrors) := by
  unfold onRecvError LossWatch.condemns
  rw [← hrow]
  unfold maxConsecutiveFatalRecvErrors at hfew ⊢
  cases isPerDatagramError kind with
  | true => exact ⟨rfl, fun _ => ⟨rfl, Nat.succ_pos 2⟩⟩
  | false =>
    have hcount : min (w.row + 1) (2 ^ 32 - 1) = w.row + 1 := by omega
    simp only [Bool.false_eq_true, if_false, Bool.not_false, Bool.true_and, decide_eq_true_eq,
      decide_eq_false_iff_not, hcount]
    by_cases hthird : 3 ≤ w.row + 1
    · rw [if_pos hthird, if_pos hthird]
      exact ⟨rfl, fun hnot => absurd hthird hnot⟩
    · rw [if_neg hthird, if_neg hthird]
      exact ⟨rfl, fun _ => ⟨rfl, Nat.not_le.mp hthird⟩⟩

/-- A receive error is survived, or it is the third in a row and every connection is lost. -/
theorem receiveError_kept (h : Tracks ⟨m, w⟩) (hrun : m.running = true) (kind : ErrorKind)
    (order : List UInt32) :
    StepKept m w (.recvError kind order) (m.receiveError kind order) := by
  obtain ⟨hrow, hfew⟩ := h.row hrun
  obtain ⟨haction, hcount⟩ := condemns_iff hrow hfew kind
  have hlines : ∀ id, Option.Rel LineAgrees (m.registry.conns.lookup id) (w.lifelines id) := h.lines
  have hkeys : KeysAgree m := h.keys
  unfold Manager.receiveError
  simp only [haction]
  cases hthird : w.condemns kind with
  | false =>
    obtain ⟨hfatal, hsmall⟩ := hcount hthird
    refine ⟨⟨hkeys, ?_, fun _ => ?_, fun hfalse => Bool.noConfusion (hrun.symm.trans hfalse)⟩,
      fun id => ?_⟩
    · simp only [LossWatch.note, hthird]
      exact hlines
    · simp only [LossWatch.note]
      exact ⟨hfatal.symm, hsmall⟩
    · simp only [LossWatch.owed, hthird]
      rfl
  | true =>
    refine ⟨?_, fun id => ?_⟩
    · simp only [LossWatch.note, hthird, if_true]
      exact tracks_exit _
    · simp only [LossWatch.owed, hthird, if_true]
      rw [lossesTo_loseConnections, lookup_map_reason]
      simp only [mem_iterationOrder_iff h order id, mem_events_iff h id]
      cases w.lifelines id <;> rfl

/-- A tick ends the connections whose lifelines say so, and accounts the sends of the others. -/
theorem tick_kept (h : Tracks ⟨m, w⟩) (hrun : m.running = true) (now : Instant)
    (order : List UInt32) (sends : UInt32 → Except ErrorKind Unit) :
    StepKept m w (.tick now order sends) (m.tick now order sends) := by
  have hkeys := (simulates_tick h.keys now order sends).keys
  have hlines : ∀ id, Option.Rel LineAgrees (m.registry.conns.lookup id) (w.lifelines id) := h.lines
  have hnodup : (iterationOrder m.registry.conns order).Nodup :=
    (iterationOrder_perm m.registry.conns order).nodup_iff.mpr m.registry.conns.nodupKeys
  refine ⟨⟨hkeys, fun id => ?_, fun _ => ?_, fun hfalse => ?_⟩, fun id => ?_⟩
  · have hlookup : (m.tick now order sends).1.registry.conns.lookup id =
        (m.registry.conns.lookup id).bind (tickedConnection now (sends id)) := by
      rw [← tickRegistry_lookup m.registry now order sends id]
      simp only [Manager.tick, loseConnections_registry]
      rfl
    show Option.Rel LineAgrees ((m.tick now order sends).1.registry.conns.lookup id) _
    rw [hlookup]
    simp only [LossWatch.note]
    rcases line_cases (hlines id) with ⟨hc, hl⟩ | ⟨c, l, hc, hl, hagrees⟩
    · rw [hc, hl]
      exact Option.Rel.none
    · obtain ⟨hlost, hkept⟩ := tickConnection_lineAgrees hagrees now (sends id)
      have hattempt : attempt m now sends id = (c.pollProduce now).2.map fun produced =>
          sendResult produced (sends id) := by
        rw [attempt, hc]
        rfl
      rw [hc, hl, hattempt]
      simp only [Option.bind_some, tickedConnection, hlost]
      cases hverdict : l.verdict now
          ((c.pollProduce now).2.map fun produced => sendResult produced (sends id)) with
      | none => exact Option.Rel.some (hkept hverdict)
      | some reason => exact Option.Rel.none
  · have hfatal : (m.tick now order sends).1.consecutiveFatal = m.consecutiveFatal := by
      unfold Manager.tick
      exact loseConnections_consecutiveFatal _ _
    exact hfatal ▸ h.row hrun
  · have hrunning : (m.tick now order sends).1.running = m.running := by
      unfold Manager.tick
      exact loseConnections_running _ _
    exact Bool.noConfusion (hrun.symm.trans (hrunning.symm.trans hfalse))
  · unfold Manager.tick
    simp only
    rw [lossesTo_eq, sentTo_append, sentTo_tickLoop, List.nil_append, ← lossesTo_eq,
      lossesTo_loseConnections, tickLoop_ended_lookup now sends hnodup]
    simp only [mem_iterationOrder_iff h order id, mem_events_iff h id, LossWatch.owed, attempt]
    rcases line_cases (hlines id) with ⟨hc, hl⟩ | ⟨c, l, hc, hl, hagrees⟩
    · rw [hc, hl]
      rfl
    · rw [hc, hl]
      simp only [Option.isSome_some, if_true, Option.bind_some]
      rw [(tickConnection_lineAgrees hagrees now (sends id)).1]

/-- A step of a running manager keeps the notes and loses what it owes. -/
theorem step_kept (h : Tracks ⟨m, w⟩) (hrun : m.running = true) (input : ManagerInput) :
    StepKept m w input (m.step input) := by
  unfold Manager.step
  rw [if_pos hrun]
  cases input with
  | command cmd env => exact command_kept h hrun cmd env
  | commandsClosed => exact ⟨tracks_exit w.row, fun _ => rfl⟩
  | datagram buf src now => exact receive_kept h hrun buf src now
  | recvError kind order => exact receiveError_kept h hrun kind order
  | tick now order sends => exact tick_kept h hrun now order sends

end Steps

/-- Every input keeps the observer in step with the manager. -/
theorem tracks_step {s : ObservedManager} (h : Tracks s) (input : ManagerInput) :
    Tracks (s.step input) := by
  unfold ObservedManager.step
  by_cases hrun : s.manager.running = true
  · simp only [if_pos hrun]
    exact (step_kept h hrun input).tracks
  · have hsame : s.manager.step input = (s.manager, []) := if_neg hrun
    simp only [if_neg hrun, hsame]
    exact h

/-- What a step loses is what the notes owe; a task that left its loop loses and owes nothing. -/
theorem lost_eq_owed {s : ObservedManager} (h : Tracks s) (input : ManagerInput) (id : UInt32) :
    lossesTo id (s.manager.step input).2 = (s.watch.owed s.manager id input).toList := by
  by_cases hrun : s.manager.running = true
  · exact (step_kept h hrun input).lost id
  · have hsame : s.manager.step input = (s.manager, []) := if_neg hrun
    have hnone := h.stopped (Bool.eq_false_iff.mpr hrun) id
    rw [hsame]
    unfold LossWatch.owed
    split
    · rw [hnone]
      rfl
    · rw [hnone]
      split <;> rfl
    · rfl

/-- The notes agree with the manager after every run. -/
theorem tracks_run (inputs : List ManagerInput) : Tracks (ObservedManager.run inputs) := by
  have hstep : ∀ (s : ObservedManager) (input : ManagerInput), Tracks s → Tracks (s.step input) :=
    fun _ input h => tracks_step h input
  exact runSteps_kept hstep tracks_start inputs

/-- A run that is one input longer takes one step more. -/
theorem run_concat (before : List ManagerInput) (input : ManagerInput) :
    ObservedManager.run (before ++ [input]) = (ObservedManager.run before).step input :=
  List.foldl_concat _ _ _ _

/-- A lifeline that a tick leaves is not overdue, and its path is not dead. -/
theorem verdict_none {l : Lifeline} {now : Instant} {attempt : Option (Except ErrorKind Unit)}
    (h : l.verdict now attempt = none) :
    now < l.deadline ∧ (l.after attempt).failures < maxConsecutiveSendErrors := by
  unfold Lifeline.verdict at h
  by_cases hdead : maxConsecutiveSendErrors ≤ (l.after attempt).failures
  · rw [if_pos hdead] at h
    cases h
  · rw [if_neg hdead] at h
    by_cases hlate : l.deadline ≤ now
    · rw [if_pos hlate] at h
      cases h
    · exact ⟨Nat.not_le.mp hlate, Nat.not_le.mp hdead⟩

/-- Sending does not move the watchdog's deadline. -/
theorem deadline_after (l : Lifeline) (attempt : Option (Except ErrorKind Unit)) :
    (l.after attempt).deadline = l.deadline := by
  unfold Lifeline.after
  split
  · rfl
  · rfl
  · split <;> rfl

/-- A connection that a tick leaves is not overdue, and has sends to spare. -/
theorem fresh_of_tick {s : ObservedManager} (h : Tracks s) {now : Instant} {order : List UInt32}
    {sends : UInt32 → Except ErrorKind Unit} {id : UInt32} {l : Lifeline}
    (hl : (s.step (.tick now order sends)).watch.lifelines id = some l) :
    now < l.deadline ∧ l.failures < maxConsecutiveSendErrors := by
  by_cases hrun : s.manager.running = true
  · simp only [ObservedManager.step, if_pos hrun, LossWatch.note, Option.bind_eq_some_iff] at hl
    obtain ⟨old, -, hstay⟩ := hl
    cases hverdict : old.verdict now (attempt s.manager now sends id) with
    | some reason =>
      rw [hverdict] at hstay
      cases hstay
    | none =>
      rw [hverdict] at hstay
      obtain ⟨hdeadline, hfew⟩ := verdict_none hverdict
      cases hstay
      rw [deadline_after]
      exact ⟨hdeadline, hfew⟩
  · simp only [ObservedManager.step, if_neg hrun] at hl
    rw [h.stopped (Bool.eq_false_iff.mpr hrun) id] at hl
    cases hl

/-- The window of a connection as an accepted reply opens it fits the clock's types. -/
theorem deadline_eq {l : Lifeline} (hapi : l.params.t2oApi ≤ maxReplyApi)
    (hmultiplier : l.params.timeoutMultiplier ≤ 512)
    (hfed : l.fed + maxReplyApi * 512 < Instant.limit) :
    l.deadline = l.fed + l.params.t2oApi * l.params.timeoutMultiplier := by
  have hproduct : l.params.t2oApi * l.params.timeoutMultiplier ≤ maxReplyApi * 512 :=
    Nat.mul_le_mul hapi hmultiplier
  have hrange : maxReplyApi * 512 ≤ Duration.max := by decide
  have hwindow : watchdogTimeout l.params.t2oApi l.params.timeoutMultiplier =
      l.params.t2oApi * l.params.timeoutMultiplier := by
    unfold watchdogTimeout Duration.checkedMul
    rw [if_pos (hproduct.trans hrange)]
    rfl
  have hclock : l.fed + l.params.t2oApi * l.params.timeoutMultiplier < Instant.limit :=
    lt_of_le_of_lt (Nat.add_le_add_left hproduct _) hfed
  unfold Lifeline.deadline Instant.checkedAdd
  rw [hwindow, if_pos hclock]
  rfl

/-- A connection is lost exactly when its watchdog has run out, its sends keep failing or the
socket is dead; whatever else a datagram brings does not keep it alive. -/
theorem lost_for_a_reason (inputs : List ManagerInput) : LossContract inputs where
  noted before _ id _ := registered_iff (tracks_run before) id
  lost before _ input id _ := lost_eq_owed (tracks_run before) input id
  fresh before _ now order sends id l _ hl := by
    rw [run_concat] at hl
    exact fresh_of_tick (tracks_run before) hl
  window _ _ _ _ _ _ hapi hmultiplier hfed := deadline_eq hapi hmultiplier hfed

end EnipAdapter.Analysis
