import EnipAdapter.Analysis.ProducedFrame
import EnipAdapter.Foundation.AssocList
import EnipAdapter.Foundation.Runs
import EnipAdapter.Interface.StagingContract

/-!
# Staging verdicts tell the truth

A call is one ticket. It enters the manager's queue at most once, and the manager turns it into
one verdict; what the manager accepts on its behalf, and what it answers, are the same decision.
A caller that gives up before its verdict has outlived its deadline, so the command it left in
the queue is refused when the manager comes to it.
-/

set_option autoImplicit false

namespace EnipAdapter.Analysis

open EnipAdapter.Foundation EnipAdapter.Model EnipAdapter.Interface

/-! ## The invariant -/

/-- The call a command is confirmed to. -/
def stagingCall : ManagerCommand → Option ℕ
  | .setOutput _ _ _ ack => ack
  | _ => none

/-- The calls whose command is in the queue. -/
def queuedCalls (commands : List ManagerCommand) : List ℕ := commands.filterMap stagingCall

/-- The calls handed over to the manager: still queued, or answered. -/
def handedOver (s : StagingSystem) : List ℕ := queuedCalls s.commands ++ s.verdicts.map Prod.fst

/-- Every call is handed over at most once, after it began to wait, as what it is. -/
structure Handover (s : StagingSystem) : Prop where
  nodup : (handedOver s).Nodup
  begun : ∀ n ∈ handedOver s, ∃ c, s.calls[n]? = some c ∧ c.state ≠ .sending
  carried : ∀ (id : UInt32) (bytes : Bytes) (deadline : Option Instant) (n : ℕ),
    ManagerCommand.setOutput id bytes deadline (some n) ∈ s.commands →
      ∀ c, s.calls[n]? = some c →
        id = c.handle.connectionId ∧ bytes = c.bytes ∧ deadline = c.deadline
  stopped : s.manager.running = false → s.commands = []

/-- Verdicts, records and what the callers were told agree. -/
structure Agreement (s : StagingSystem) : Prop where
  returnedOk : ∀ (n : ℕ) (c : StageCall), s.calls[n]? = some c →
    c.state = .returned (.ok ()) → (n, .ok ()) ∈ s.verdicts
  /-- A call that was refused is not accepted, and has expired if it is still queued. -/
  returnedError : ∀ (n : ℕ) (c : StageCall) (e : EnipError), s.calls[n]? = some c →
    c.state = .returned (.error e) →
      (n, .ok ()) ∉ s.verdicts ∧ (n ∈ queuedCalls s.commands → expired c.deadline s.now = true)
  accepted : ∀ (n : ℕ) (c : StageCall), s.calls[n]? = some c → (n, .ok ()) ∈ s.verdicts →
    acceptedFor s.record n = [(c.handle.connectionId, c.bytes)]
  unaccepted : ∀ n : ℕ, (n, .ok ()) ∉ s.verdicts → acceptedFor s.record n = []

/-- Every connection of a manager outputs the last buffer a record says was accepted for it. -/
def OutputsRecorded (before : Manager) (record : List StagingRecord) (m : Manager) : Prop :=
  ∀ (id : UInt32) (conn : IoConnection), m.registry.conns.lookup id = some conn →
    conn.output = lastAccepted before record id

structure StagingInv (before : Manager) (s : StagingSystem) : Prop where
  handover : Handover s
  agreement : Agreement s
  outputs : OutputsRecorded before s.record s.manager

/-- At the start no call is handed over. -/
theorem stagingInv_start (m : Manager) (now : Instant) :
    StagingInv m (StagingSystem.start m now) where
  handover :=
    { nodup := by simp [handedOver, queuedCalls, StagingSystem.start]
      begun := by simp [handedOver, queuedCalls, StagingSystem.start]
      carried := by simp [StagingSystem.start]
      stopped := fun _ => rfl }
  agreement :=
    { returnedOk := by simp [StagingSystem.start]
      returnedError := by simp [StagingSystem.start]
      accepted := by simp [StagingSystem.start]
      unaccepted := fun _ _ => rfl }
  outputs := by
    intro id conn hconn
    have hlookup : m.registry.conns.lookup id = some conn := hconn
    simp [lastAccepted, StagingSystem.start, hlookup]

/-- Under the invariant the verdicts tell the truth. -/
theorem StagingInv.verdictsTrue {before : Manager} {s : StagingSystem}
    (h : StagingInv before s) : VerdictsTrue before s where
  confirmed := fun n c hc hstate =>
    h.agreement.accepted n c hc (h.agreement.returnedOk n c hc hstate)
  refused := fun n c e hc hstate =>
    h.agreement.unaccepted n (h.agreement.returnedError n c e hc hstate).1
  output := h.outputs

/-! ## Records -/

section Records

variable {before m : Manager} {record : List StagingRecord}

/-- What was accepted for a call adds up. -/
theorem acceptedFor_append (more : List StagingRecord) (n : ℕ) :
    acceptedFor (record ++ more) n = acceptedFor record n ++ acceptedFor more n :=
  List.filterMap_append

/-- The buffer last accepted is that of the later record, if there is one. -/
theorem lastAccepted_append (more : List StagingRecord) (id : UInt32) :
    lastAccepted before (record ++ more) id =
      more.foldl (recordedOutput id) (lastAccepted before record id) :=
  List.foldl_append

/-- A step that keeps what the connections produce keeps the outputs recorded. -/
theorem OutputsRecorded.keeps (h : OutputsRecorded before record m) {m' : Manager}
    (hkeeps : KeepsProducers m.registry.conns m'.registry.conns) :
    OutputsRecorded before record m' := by
  intro id conn hconn
  obtain ⟨conn₀, hconn₀, hsame⟩ := hkeeps id conn hconn
  rw [hsame.output]
  exact h id conn₀ hconn₀

/-- The manager's decision about a staging, and the output it leaves. -/
theorem stageOutput_cases (id : UInt32) (bytes : Bytes) (deadline : Option Instant)
    (now : Instant) :
    (∃ e, m.stageOutput id bytes deadline now = (m, .error e)) ∨
      ∃ conn, m.registry.conns.lookup id = some conn ∧ expired deadline now = false ∧
        m.stageOutput id bytes deadline now =
          ({ m with registry := { m.registry with
            conns := m.registry.conns.insert id (conn.setOutput bytes) } }, .ok ()) := by
  unfold Manager.stageOutput
  cases hlookup : m.registry.conns.lookup id with
  | none => exact .inl ⟨_, rfl⟩
  | some conn =>
    cases hexpired : expired deadline now with
    | true => exact .inl ⟨_, rfl⟩
    | false => exact .inr ⟨conn, rfl, rfl, rfl⟩

/-- Joining and leaving a group tells nobody anything. -/
theorem any_tellsOk_group (group : Option UInt32) (effect : UInt32 → ManagerEffect)
    (heffect : ∀ g, StagingSystem.tellsOk (effect g) = false) :
    (group.map effect).toList.any StagingSystem.tellsOk = false := by
  cases group with
  | none => rfl
  | some g => simp [heffect g]

/-- A registration is refused and changes nothing; or it is answered `Ok` and the connection is
there; or nobody takes the answer and the connection is not there. -/
theorem addConnection_cases (params : IoConnectionParams) (openedAt : Instant)
    (tx : IoEventSender) (ack : ℕ) (env : CommandEnv) :
    ((m.addConnection params openedAt tx ack env).1 = m ∧
        (m.addConnection params openedAt tx ack env).2.any StagingSystem.tellsOk = false) ∨
      ((m.addConnection params openedAt tx ack env).1.registry.conns =
          m.registry.conns.insert params.t2oConnectionId (IoConnection.new params openedAt) ∧
        (m.addConnection params openedAt tx ack env).2.any StagingSystem.tellsOk = true) ∨
      ((m.addConnection params openedAt tx ack env).1.registry.conns =
          (m.registry.conns.insert params.t2oConnectionId
            (IoConnection.new params openedAt)).erase params.t2oConnectionId ∧
        (m.addConnection params openedAt tx ack env).2.any StagingSystem.tellsOk = false) := by
  have hjoined := any_tellsOk_group params.multicastGroup ManagerEffect.joined fun _ => rfl
  simp only [Manager.addConnection]
  split
  · exact .inl ⟨rfl, rfl⟩
  · split
    · refine .inr (.inl ⟨rfl, ?_⟩)
      rw [List.any_append, hjoined]
      rfl
    · refine .inr (.inr ⟨rfl, ?_⟩)
      rw [List.any_append, hjoined, Bool.false_or]
      exact any_tellsOk_group _ ManagerEffect.left fun _ => rfl

/-- The outputs after a registration: a new connection starts with an empty one. -/
theorem OutputsRecorded.add (h : OutputsRecorded before record m) (params : IoConnectionParams)
    (openedAt : Instant) (tx : IoEventSender) (ack : ℕ) (env : CommandEnv) :
    OutputsRecorded before
      (record ++ StagingSystem.recorded m (.add params openedAt tx ack) env)
      (m.command (.add params openedAt tx ack) env).1 := by
  obtain ⟨hm, hverdict⟩ | ⟨hconns, hverdict⟩ | ⟨hconns, hverdict⟩ :=
    addConnection_cases (m := m) params openedAt tx ack env
  · have hrecord : StagingSystem.recorded m (.add params openedAt tx ack) env = [] :=
      if_neg (Bool.eq_false_iff.mp hverdict)
    rw [hrecord, List.append_nil]
    simp only [Manager.command, hm]
    exact h
  · have hrecord : StagingSystem.recorded m (.add params openedAt tx ack) env =
        [.opened params.t2oConnectionId] := if_pos hverdict
    rw [hrecord]
    intro id conn hconn
    simp only [Manager.command, hconns] at hconn
    rw [lastAccepted_append]
    simp only [List.foldl_cons, List.foldl_nil, recordedOutput]
    by_cases hid : params.t2oConnectionId = id
    · subst hid
      rw [AList.lookup_insert] at hconn
      cases hconn
      rw [if_pos rfl]
      rfl
    · rw [AList.lookup_insert_ne (Ne.symm hid)] at hconn
      rw [if_neg hid]
      exact h id conn hconn
  · have hrecord : StagingSystem.recorded m (.add params openedAt tx ack) env = [] :=
      if_neg (Bool.eq_false_iff.mp hverdict)
    rw [hrecord, List.append_nil]
    intro id conn hconn
    simp only [Manager.command, hconns] at hconn
    by_cases hid : id = params.t2oConnectionId
    · subst hid
      rw [AList.lookup_erase] at hconn
      cases hconn
    · rw [AList.lookup_erase_ne hid, AList.lookup_insert_ne hid] at hconn
      exact h id conn hconn

/-- The outputs after a command are those its record says. -/
theorem OutputsRecorded.command (h : OutputsRecorded before record m) (cmd : ManagerCommand)
    (env : CommandEnv) :
    OutputsRecorded before (record ++ StagingSystem.recorded m cmd env) (m.command cmd env).1 := by
  cases cmd with
  | add params openedAt tx ack => exact h.add params openedAt tx ack env
  | setOutput id bytes deadline ack =>
    obtain ⟨e, hstage⟩ | ⟨conn₀, hlookup, -, hstage⟩ :=
      stageOutput_cases (m := m) id bytes deadline env.now
    · simp only [StagingSystem.recorded, Manager.command, hstage, List.append_nil]
      exact h
    · simp only [StagingSystem.recorded, Manager.command, hstage]
      intro id' conn hconn
      rw [lastAccepted_append]
      simp only [List.foldl_cons, List.foldl_nil, recordedOutput]
      by_cases hid : id = id'
      · subst hid
        rw [if_pos rfl]
        rw [AList.lookup_insert] at hconn
        cases hconn
        rfl
      · rw [if_neg hid]
        rw [AList.lookup_insert_ne (Ne.symm hid)] at hconn
        exact h id' conn hconn
  | setRun id run =>
    simp only [StagingSystem.recorded, Manager.command, List.append_nil]
    split
    · exact h
    · rename_i conn₀ hlookup
      intro id' conn hconn
      by_cases hid : id = id'
      · subst hid
        rw [AList.lookup_insert] at hconn
        cases hconn
        exact h id conn₀ hlookup
      · rw [AList.lookup_insert_ne (Ne.symm hid)] at hconn
        exact h id' conn hconn
  | remove id =>
    simp only [StagingSystem.recorded, List.append_nil]
    exact h.keeps (KeepsProducers.erase m.registry.conns id)
  | shutdown =>
    simp only [StagingSystem.recorded, List.append_nil]
    exact h.keeps (KeepsProducers.empty m.registry.conns)

end Records

/-! ## What the callers do -/

section Callers

variable {before : Manager} {s : StagingSystem}

/-- A deadline that has passed has passed later. -/
theorem expired_later {deadline : Option Instant} {now later : Instant} (hle : now ≤ later)
    (h : expired deadline now = true) : expired deadline later = true := by
  cases deadline with
  | none => cases h
  | some d =>
    simp only [expired, Option.any_some, decide_eq_true_eq] at h ⊢
    exact Nat.le_trans h hle

/-- Time passing keeps the invariant. -/
theorem StagingInv.advance (h : StagingInv before s) (elapsed : Duration) :
    StagingInv before { s with now := s.now + elapsed } where
  handover := ⟨h.handover.nodup, h.handover.begun, h.handover.carried, h.handover.stopped⟩
  agreement :=
    { returnedOk := h.agreement.returnedOk
      returnedError := by
        intro n c e hc hstate
        obtain ⟨hverdict, hqueued⟩ := h.agreement.returnedError n c e hc hstate
        exact ⟨hverdict, fun hn => expired_later (Nat.le_add_right _ _) (hqueued hn)⟩
      accepted := h.agreement.accepted
      unaccepted := h.agreement.unaccepted }
  outputs := h.outputs

/-- A call after one more was made. -/
theorem getElem?_snoc {c₀ c : StageCall} {calls : List StageCall} {n : ℕ}
    (h : (calls ++ [c₀])[n]? = some c) : calls[n]? = some c ∨ n = calls.length ∧ c = c₀ := by
  by_cases hn : n < calls.length
  · rw [List.getElem?_append_left hn] at h
    exact .inl h
  · rw [List.getElem?_append_right (by omega)] at h
    obtain ⟨hn', hc⟩ := List.getElem?_eq_some_iff.mp h
    have hlen : n - calls.length < 1 := hn'
    refine .inr ⟨by omega, ?_⟩
    have hzero : n - calls.length = 0 := by omega
    simp only [hzero, List.getElem_cons_zero] at hc
    exact hc.symm

/-- A call that was not made is not handed over. -/
theorem Handover.fresh (h : Handover s) : s.calls.length ∉ handedOver s := by
  intro hmem
  obtain ⟨c, hc, -⟩ := h.begun _ hmem
  rw [List.getElem?_eq_none (Nat.le_refl _)] at hc
  cases hc

/-- A command that carries a call has it queued. -/
theorem mem_queuedCalls {commands : List ManagerCommand} {id : UInt32} {bytes : Bytes}
    {deadline : Option Instant} {n : ℕ}
    (h : ManagerCommand.setOutput id bytes deadline (some n) ∈ commands) :
    n ∈ queuedCalls commands :=
  List.mem_filterMap.mpr ⟨_, h, rfl⟩

/-- A call that was not handed over is not queued. -/
theorem not_queued_of_fresh {n : ℕ} (h : n ∉ handedOver s) : n ∉ queuedCalls s.commands :=
  fun hn => h (List.mem_append_left _ hn)

/-- And has no verdict. -/
theorem not_verdict_of_fresh {n : ℕ} {v : Except EnipError Unit} (h : n ∉ handedOver s) :
    (n, v) ∉ s.verdicts :=
  fun hn => h (List.mem_append_right _ (List.mem_map_of_mem hn))

/-- A call that is queued has no verdict yet. -/
theorem Handover.unanswered (h : Handover s) {n : ℕ} (hn : n ∈ queuedCalls s.commands)
    (v : Except EnipError Unit) : (n, v) ∉ s.verdicts := fun hmem =>
  (List.nodup_append.mp h.nodup).2.2 n hn n (List.mem_map_of_mem hmem) rfl

/-- A call has one verdict. -/
theorem Handover.lookup_verdict (h : Handover s) {n : ℕ} {v : Except EnipError Unit}
    (hmem : (n, v) ∈ s.verdicts) : s.verdicts.lookup n = some v :=
  lookup_of_mem (List.nodup_append.mp h.nodup).2.1 hmem

/-- A call that begins is sending or refused at once. -/
theorem StagingInv.beginCall (h : StagingInv before s) (handle : IoConnectionHandle)
    (bytes : Bytes) (deadline : Option Instant) :
    StagingInv before (s.beginCall handle bytes deadline) := by
  have hfresh := h.handover.fresh
  have hkept : ∀ {n : ℕ} {c : StageCall}, s.calls[n]? = some c →
      (s.beginCall handle bytes deadline).calls[n]? = some c := by
    intro n c hc
    exact (List.getElem?_append_left (List.getElem?_eq_some_iff.mp hc).1).trans hc
  refine ⟨⟨h.handover.nodup, ?_, ?_, h.handover.stopped⟩, ⟨?_, ?_, ?_, h.agreement.unaccepted⟩,
    h.outputs⟩
  · intro n hn
    obtain ⟨c, hc, hstate⟩ := h.handover.begun n hn
    exact ⟨c, hkept hc, hstate⟩
  · intro id bytes' deadline' n hmem c hc
    obtain hc | ⟨rfl, -⟩ := getElem?_snoc hc
    · exact h.handover.carried id bytes' deadline' n hmem c hc
    · exact absurd (mem_queuedCalls hmem) (not_queued_of_fresh hfresh)
  · intro n c hc hstate
    obtain hc | ⟨-, rfl⟩ := getElem?_snoc hc
    · exact h.agreement.returnedOk n c hc hstate
    · simp only at hstate
      split at hstate <;> cases hstate
  · intro n c e hc hstate
    obtain hc | ⟨rfl, -⟩ := getElem?_snoc hc
    · exact h.agreement.returnedError n c e hc hstate
    · exact ⟨not_verdict_of_fresh hfresh, fun hn => absurd hn (not_queued_of_fresh hfresh)⟩
  · intro n c hc hverdict
    obtain hc | ⟨rfl, -⟩ := getElem?_snoc hc
    · exact h.agreement.accepted n c hc hverdict
    · exact absurd hverdict (not_verdict_of_fresh hfresh)

/-- What a call is after one call moved on. -/
theorem getElem?_setState {k n : ℕ} {state : CallState} {c : StageCall}
    (h : (s.setState k state).calls[n]? = some c) :
    ∃ c₀, s.calls[n]? = some c₀ ∧
      (k = n ∧ c = { c₀ with state := state } ∨ k ≠ n ∧ c = c₀) := by
  simp only [StagingSystem.setState, List.getElem?_modify, Option.map_eq_map,
    Option.map_eq_some_iff] at h
  obtain ⟨c₀, hc₀, hc⟩ := h
  refine ⟨c₀, hc₀, ?_⟩
  by_cases hk : k = n
  · rw [if_pos hk] at hc
    exact .inl ⟨hk, hc.symm⟩
  · rw [if_neg hk] at hc
    exact .inr ⟨hk, hc.symm⟩

/-- A call that moves leaves the others. -/
theorem setState_getElem? {k n : ℕ} {state : CallState} {c : StageCall}
    (h : s.calls[n]? = some c) :
    (s.setState k state).calls[n]? =
      some (if k = n then { c with state := state } else c) := by
  simp only [StagingSystem.setState, List.getElem?_modify, h, Option.map_eq_map,
    Option.map_some]

/-- A call moves on from sending, or returns what its verdict and the clock allow. -/
theorem StagingInv.setState (h : StagingInv before s) (k : ℕ) (state : CallState)
    (hsending : state ≠ .sending)
    (hok : state = .returned (.ok ()) → (k, .ok ()) ∈ s.verdicts)
    (herror : ∀ c e, s.calls[k]? = some c → state = .returned (.error e) →
      (k, .ok ()) ∉ s.verdicts ∧
        (k ∈ queuedCalls s.commands → expired c.deadline s.now = true)) :
    StagingInv before (s.setState k state) := by
  refine ⟨⟨h.handover.nodup, ?_, ?_, h.handover.stopped⟩, ⟨?_, ?_, ?_, h.agreement.unaccepted⟩,
    h.outputs⟩
  · intro n hn
    obtain ⟨c, hc, hstate⟩ := h.handover.begun n hn
    refine ⟨_, setState_getElem? hc, ?_⟩
    split
    · exact hsending
    · exact hstate
  · intro id bytes deadline n hmem c hc
    obtain ⟨c₀, hc₀, ⟨-, rfl⟩ | ⟨-, rfl⟩⟩ := getElem?_setState hc
    · exact h.handover.carried id bytes deadline n hmem c₀ hc₀
    · exact h.handover.carried id bytes deadline n hmem c hc₀
  · intro n c hc hstate
    obtain ⟨c₀, hc₀, ⟨rfl, rfl⟩ | ⟨-, rfl⟩⟩ := getElem?_setState hc
    · exact hok hstate
    · exact h.agreement.returnedOk n c hc₀ hstate
  · intro n c e hc hstate
    obtain ⟨c₀, hc₀, ⟨rfl, rfl⟩ | ⟨-, rfl⟩⟩ := getElem?_setState hc
    · exact herror c₀ e hc₀ hstate
    · exact h.agreement.returnedError n c e hc₀ hstate
  · intro n c hc hverdict
    obtain ⟨c₀, hc₀, ⟨-, rfl⟩ | ⟨-, rfl⟩⟩ := getElem?_setState hc
    · exact h.agreement.accepted n c₀ hc₀ hverdict
    · exact h.agreement.accepted n c hc₀ hverdict

/-- A waiting call that was not handed over enters the queue. -/
theorem StagingInv.enqueue (h : StagingInv before s) {k : ℕ} {c : StageCall}
    (hc : s.calls[k]? = some c) (hstate : c.state = .waiting) (hfresh : k ∉ handedOver s)
    (hrunning : s.manager.running ≠ false) :
    StagingInv before { s with commands := s.commands ++
      [.setOutput c.handle.connectionId c.bytes c.deadline (some k)] } := by
  have hqueued : queuedCalls (s.commands ++
      [.setOutput c.handle.connectionId c.bytes c.deadline (some k)]) =
        queuedCalls s.commands ++ [k] := by
    simp [queuedCalls, stagingCall]
  have hperm : (handedOver { s with commands := s.commands ++
      [.setOutput c.handle.connectionId c.bytes c.deadline (some k)] }).Perm
        (k :: handedOver s) := by
    simp only [handedOver, hqueued, List.append_assoc, List.singleton_append]
    exact List.perm_middle
  refine ⟨⟨hperm.nodup_iff.mpr (List.nodup_cons.mpr ⟨hfresh, h.handover.nodup⟩), ?_, ?_, ?_⟩,
    ⟨h.agreement.returnedOk, ?_, h.agreement.accepted, h.agreement.unaccepted⟩, h.outputs⟩
  · intro n hn
    obtain rfl | hn := List.mem_cons.mp (hperm.mem_iff.mp hn)
    · exact ⟨c, hc, by rw [hstate]; exact CallState.noConfusion⟩
    · exact h.handover.begun n hn
  · intro id bytes deadline n hmem c' hc'
    obtain hmem | hmem := List.mem_append.mp hmem
    · exact h.handover.carried id bytes deadline n hmem c' hc'
    · obtain ⟨rfl, rfl, rfl, rfl⟩ : id = c.handle.connectionId ∧ bytes = c.bytes ∧
          deadline = c.deadline ∧ n = k := by
        simpa using hmem
      rw [hc] at hc'
      cases hc'
      exact ⟨rfl, rfl, rfl⟩
  · intro hstop
    exact absurd hstop hrunning
  · intro n c' e hc' hreturned
    obtain ⟨hverdict, hexpired⟩ := h.agreement.returnedError n c' e hc' hreturned
    refine ⟨hverdict, fun hn => ?_⟩
    simp only [hqueued, List.mem_append, List.mem_singleton] at hn
    obtain hn | rfl := hn
    · exact hexpired hn
    · rw [hc] at hc'
      cases hc'
      rw [hstate] at hreturned
      cases hreturned

/-- A caller whose command is not in the queue is told an error. -/
theorem StagingInv.refuse (h : StagingInv before s) {k : ℕ} (hfresh : k ∉ handedOver s)
    (e : EnipError) : StagingInv before (s.setState k (.returned (.error e))) := by
  refine h.setState k _ (by simp) (by simp) fun _ _ _ _ => ?_
  exact ⟨not_verdict_of_fresh hfresh, fun hn => absurd hn (not_queued_of_fresh hfresh)⟩

/-- A caller is told its verdict. -/
theorem StagingInv.deliver (h : StagingInv before s) {k : ℕ} {verdict : Except EnipError Unit}
    (hlookup : s.verdicts.lookup k = some verdict) :
    StagingInv before (s.setState k (.returned verdict)) := by
  have hmem := mem_of_lookup hlookup
  refine h.setState k _ (by simp) ?_ fun c e hc herror => ⟨fun hok => ?_, fun hqueued => ?_⟩
  · intro heq
    cases heq
    exact hmem
  · cases herror
    have hother := h.handover.lookup_verdict hok
    rw [hlookup] at hother
    cases hother
  · exact absurd hmem (h.handover.unanswered hqueued verdict)

/-- A caller gives up on a verdict that is not there: its command is gone, or has expired. -/
theorem StagingInv.giveUp (h : StagingInv before s) {k : ℕ} (e : EnipError)
    (hlookup : s.verdicts.lookup k = none)
    (hqueued : ∀ c, s.calls[k]? = some c → k ∈ queuedCalls s.commands →
      expired c.deadline s.now = true) :
    StagingInv before (s.setState k (.returned (.error e))) := by
  refine h.setState k _ (by simp) (by simp) fun c e' hc _ => ⟨fun hmem => ?_, hqueued c hc⟩
  exact not_mem_of_lookup hlookup (List.mem_map_of_mem hmem)

/-- A poll of a caller. -/
theorem StagingInv.pollCall (h : StagingInv before s) (k : ℕ) (granted : Bool) :
    StagingInv before (s.pollCall k granted) := by
  simp only [StagingSystem.pollCall]
  cases hc : s.calls[k]? with
  | none => exact h
  | some c =>
    cases hstate : c.state with
    | returned result =>
      simp only [hstate]
      exact h
    | sending =>
      -- a call that is sending has handed nothing over
      have hfresh : k ∉ handedOver s := by
        intro hmem
        obtain ⟨c', hc', hne⟩ := h.handover.begun k hmem
        rw [hc] at hc'
        cases hc'
        exact hne hstate
      simp only [hstate]
      split
      · exact h.refuse hfresh _
      · rename_i hrunning
        split
        · have hwait := h.setState k .waiting (by simp) (by simp) (by simp)
          have hc' : (s.setState k .waiting).calls[k]? = some { c with state := .waiting } := by
            rw [setState_getElem? hc, if_pos rfl]
          have hqueued := hwait.enqueue hc' rfl hfresh hrunning
          exact hqueued
        · split
          · exact h.refuse hfresh _
          · exact h
    | waiting =>
      simp only [hstate]
      split
      · rename_i verdict hlookup
        exact h.deliver hlookup
      · rename_i hlookup
        split
        · rename_i hstopped
          refine h.giveUp _ hlookup fun c' _ hqueued => ?_
          rw [h.handover.stopped hstopped] at hqueued
          cases hqueued
        · split
          · rename_i hexpired
            refine h.giveUp _ hlookup fun c' hc' _ => ?_
            rw [hc] at hc'
            cases hc'
            exact hexpired
          · exact h

end Callers

/-! ## What the manager does -/

section ManagerTurns

variable {before : Manager} {s : StagingSystem}

/-- A step that hands over nothing new and answers nobody: the queue loses commands or gains
ones nobody waits for, and the record gains nothing on behalf of a call. -/
theorem StagingInv.turn (h : StagingInv before s) (commands : List ManagerCommand)
    (added : List StagingRecord) (m : Manager)
    (hqueued : (queuedCalls commands).Sublist (queuedCalls s.commands))
    (hcarried : ∀ id bytes deadline n,
      ManagerCommand.setOutput id bytes deadline (some n) ∈ commands →
        ManagerCommand.setOutput id bytes deadline (some n) ∈ s.commands)
    (hstopped : m.running = false → commands = [])
    (hadded : ∀ n, acceptedFor added n = [])
    (houtputs : OutputsRecorded before (s.record ++ added) m) :
    StagingInv before
      { s with manager := m, commands := commands, record := s.record ++ added } := by
  have hsub : (queuedCalls commands ++ s.verdicts.map Prod.fst).Sublist (handedOver s) :=
    hqueued.append (List.Sublist.refl _)
  have hrecord : ∀ n, acceptedFor (s.record ++ added) n = acceptedFor s.record n := by
    intro n
    rw [acceptedFor_append, hadded, List.append_nil]
  refine ⟨⟨h.handover.nodup.sublist hsub, ?_, ?_, hstopped⟩,
    ⟨h.agreement.returnedOk, ?_, ?_, ?_⟩, houtputs⟩
  · intro n hn
    exact h.handover.begun n (hsub.subset hn)
  · intro id bytes deadline n hmem
    exact h.handover.carried id bytes deadline n (hcarried id bytes deadline n hmem)
  · intro n c e hc hstate
    obtain ⟨hverdict, hexpired⟩ := h.agreement.returnedError n c e hc hstate
    exact ⟨hverdict, fun hn => hexpired (hqueued.subset hn)⟩
  · intro n c hc hverdict
    rw [hrecord]
    exact h.agreement.accepted n c hc hverdict
  · intro n hverdict
    rw [hrecord]
    exact h.agreement.unaccepted n hverdict

/-- Somebody else's command carries no call. -/
theorem stagingCall_toCommand {other : OtherCommand} {cmd : ManagerCommand}
    (h : other.toCommand = some cmd) : stagingCall cmd = none := by
  cases other with
  | setOutput handle bytes =>
    simp only [OtherCommand.toCommand] at h
    split at h
    · cases h
    · cases h
      rfl
  | setRun handle run =>
    cases h
    rfl
  | add params openedAt eventsTx ack =>
    cases h
    rfl
  | remove handle =>
    cases h
    rfl
  | shutdown =>
    cases h
    rfl

/-- Another command keeps the invariant. -/
theorem StagingInv.send (h : StagingInv before s) (other : OtherCommand) :
    StagingInv before (s.send other) := by
  simp only [StagingSystem.send]
  cases hcmd : other.toCommand with
  | none => exact h
  | some cmd =>
    have hcall := stagingCall_toCommand hcmd
    simp only
    split
    · rename_i hroom
      have hqueued : queuedCalls (s.commands ++ [cmd]) = queuedCalls s.commands := by
        simp [queuedCalls, hcall]
      have hturn := h.turn (s.commands ++ [cmd]) [] s.manager (by rw [hqueued]) ?_ ?_
        (fun _ => rfl) (by rw [List.append_nil]; exact h.outputs)
      · rw [List.append_nil] at hturn
        exact hturn
      · intro id bytes deadline n hmem
        obtain hmem | hmem := List.mem_append.mp hmem
        · exact hmem
        · rw [List.mem_singleton] at hmem
          rw [← hmem] at hcall
          cases hcall
      · intro hstop
        rw [hroom.1] at hstop
        cases hstop
    · exact h

/-- The queue a turn of the manager leaves is part of what it was. -/
theorem settled_sublist (m : Manager) {rest commands : List ManagerCommand}
    (hrest : rest.Sublist commands) : (if m.running then rest else []).Sublist commands := by
  split
  · exact hrest
  · exact List.nil_sublist _

/-- A manager that has stopped keeps no commands. -/
theorem settled_stopped {m : Manager} {rest : List ManagerCommand} (h : m.running = false) :
    (if m.running then rest else []) = [] := by
  rw [h]
  exact if_neg Bool.false_ne_true

/-- A turn of the manager that answers no call. -/
theorem StagingInv.settle (h : StagingInv before s) {rest : List ManagerCommand}
    (hrest : rest.Sublist s.commands) (m : Manager) (added : List StagingRecord)
    (hadded : ∀ n, acceptedFor added n = [])
    (houtputs : OutputsRecorded before (s.record ++ added) m) :
    StagingInv before { s.settle rest m with record := s.record ++ added } := by
  have hsub := settled_sublist m hrest
  refine h.turn _ added m (hsub.filterMap _) ?_ settled_stopped hadded houtputs
  intro id bytes deadline n hmem
  exact hsub.subset hmem

/-- A turn of the manager that handles no command. -/
theorem StagingInv.settle_input (h : StagingInv before s) {input : ManagerInput}
    (hinput : ∀ cmd env, input ≠ .command cmd env) :
    StagingInv before (s.settle s.commands (s.manager.step input).1) := by
  have hout := h.outputs.keeps (keepsProducers_step s.manager hinput)
  have hturn := h.settle (List.Sublist.refl _) _ [] (fun _ => rfl)
    (by rw [List.append_nil]; exact hout)
  rw [List.append_nil] at hturn
  exact hturn

/-- What one accepted buffer is recorded on behalf of. -/
theorem acceptedFor_accepted (id : UInt32) (bytes : Bytes) (n k : ℕ) :
    acceptedFor [.accepted id bytes (some n)] k = if n = k then [(id, bytes)] else [] := by
  by_cases hk : n = k
  · simp [acceptedFor, hk]
  · simp [acceptedFor, hk]

/-- What a decision about a call's buffer is recorded as. -/
def decided (id : UInt32) (bytes : Bytes) (n : ℕ) (verdict : Except EnipError Unit) :
    List StagingRecord :=
  match verdict with
  | .ok () => [.accepted id bytes (some n)]
  | .error _ => []

/-- A decision is recorded on behalf of no other call. -/
theorem acceptedFor_decided_ne (id : UInt32) (bytes : Bytes) {n k : ℕ} (hne : k ≠ n)
    (verdict : Except EnipError Unit) : acceptedFor (decided id bytes n verdict) k = [] := by
  cases verdict with
  | error e => rfl
  | ok u => exact (acceptedFor_accepted id bytes n k).trans (if_neg (Ne.symm hne))

section Answer

variable {id : UInt32} {bytes : Bytes} {deadline : Option Instant} {n : ℕ}
  {rest : List ManagerCommand}

/-- The first command of the queue is a call's, and is answered: it is handed over as before. -/
theorem Handover.answered (h : Handover s)
    (hcommands : s.commands = .setOutput id bytes deadline (some n) :: rest)
    (m : Manager) (verdict : Except EnipError Unit) (record : List StagingRecord)
    (hrunning : m.running = true) :
    Handover
      { s with
        manager := m, commands := rest, verdicts := s.verdicts ++ [(n, verdict)]
        record := record } := by
  have hqueued : queuedCalls s.commands = n :: queuedCalls rest := by
    rw [hcommands]
    rfl
  have hperm : (queuedCalls rest ++ (s.verdicts ++ [(n, verdict)]).map Prod.fst).Perm
      (handedOver s) := by
    rw [handedOver, hqueued, List.map_append, ← List.append_assoc]
    exact List.perm_append_singleton n _
  refine ⟨hperm.nodup_iff.mpr h.nodup, ?_, ?_, ?_⟩
  · intro k hk
    exact h.begun k (hperm.mem_iff.mp hk)
  · intro id' bytes' deadline' k hmem
    apply h.carried id' bytes' deadline' k
    rw [hcommands]
    exact List.mem_cons_of_mem _ hmem
  · intro hstop
    rw [hrunning] at hstop
    cases hstop

/-- The decision is recorded and answered at once, and an expired command is never accepted. -/
theorem Agreement.answered (h : Agreement s) (hover : Handover s)
    (hcommands : s.commands = .setOutput id bytes deadline (some n) :: rest)
    (m : Manager) (verdict : Except EnipError Unit)
    (hexpired : verdict = .ok () → expired deadline s.now = false) :
    Agreement
      { s with
        manager := m, commands := rest, verdicts := s.verdicts ++ [(n, verdict)]
        record := s.record ++ decided id bytes n verdict } := by
  have hhead : ManagerCommand.setOutput id bytes deadline (some n) ∈ s.commands := by
    rw [hcommands]
    exact List.mem_cons_self
  have hnone := hover.unanswered (mem_queuedCalls hhead)
  refine ⟨?_, ?_, ?_, ?_⟩
  · intro k c hc hstate
    exact List.mem_append_left _ (h.returnedOk k c hc hstate)
  · intro k c e hc hstate
    obtain ⟨hverdict, hlate⟩ := h.returnedError k c e hc hstate
    refine ⟨fun hmem => ?_, fun hk => hlate ?_⟩
    · obtain hmem | hmem := List.mem_append.mp hmem
      · exact hverdict hmem
      · -- the caller gave up on this very command: it has expired
        cases List.mem_singleton.mp hmem
        have hdeadline := (hover.carried id bytes deadline n hhead c hc).2.2
        have hpassed := hlate (mem_queuedCalls hhead)
        rw [← hdeadline, hexpired rfl] at hpassed
        cases hpassed
    · rw [hcommands]
      exact List.mem_cons_of_mem _ hk
  · intro k c hc hverdict
    rw [acceptedFor_append]
    obtain hmem | hmem := List.mem_append.mp hverdict
    · have hk : k ≠ n := by
        intro heq
        exact hnone _ (heq ▸ hmem)
      rw [acceptedFor_decided_ne id bytes hk, List.append_nil]
      exact h.accepted k c hc hmem
    · cases List.mem_singleton.mp hmem
      obtain ⟨hid, hbytes, -⟩ := hover.carried id bytes deadline n hhead c hc
      rw [h.unaccepted n (hnone _), List.nil_append, ← hid, ← hbytes]
      exact (acceptedFor_accepted id bytes n n).trans (if_pos rfl)
  · intro k hverdict
    rw [acceptedFor_append, h.unaccepted k fun hmem =>
      hverdict (List.mem_append_left _ hmem), List.nil_append]
    by_cases hk : k = n
    · subst hk
      cases verdict with
      | error e => rfl
      | ok u => exact absurd (List.mem_append_right _ List.mem_cons_self) hverdict
    · exact acceptedFor_decided_ne id bytes hk verdict

/-- An answered call keeps the invariant, if the record says what became of it. -/
theorem StagingInv.answered (h : StagingInv before s)
    (hcommands : s.commands = .setOutput id bytes deadline (some n) :: rest)
    (m : Manager) (verdict : Except EnipError Unit) (hrunning : m.running = true)
    (hexpired : verdict = .ok () → expired deadline s.now = false)
    (houtputs : OutputsRecorded before (s.record ++ decided id bytes n verdict) m) :
    StagingInv before
      { s with
        manager := m, commands := rest, verdicts := s.verdicts ++ [(n, verdict)]
        record := s.record ++ decided id bytes n verdict } where
  handover := h.handover.answered hcommands m verdict _ hrunning
  agreement := h.agreement.answered h.handover hcommands m verdict hexpired
  outputs := houtputs

end Answer

/-- The manager is given the first command of its queue. -/
theorem pollManager_cons {cmd : ManagerCommand} {rest : List ManagerCommand}
    (hcommands : s.commands = cmd :: rest) (hrunning : s.manager.running = true)
    (join : Except ErrorKind Unit) (ackOpen : Bool) :
    s.pollManager .command join ackOpen =
      { s.settle rest (s.manager.command cmd ⟨s.now, join, ackOpen⟩).1 with
        verdicts := s.verdicts ++
          StagingSystem.verdictsOn cmd (s.manager.command cmd ⟨s.now, join, ackOpen⟩).2
        record := s.record ++
          StagingSystem.recorded s.manager cmd ⟨s.now, join, ackOpen⟩ } := by
  simp only [StagingSystem.pollManager, PushSystem.managerInput, hcommands, Manager.step,
    if_pos hrunning]

/-- The manager handles a confirmed staging. -/
theorem StagingInv.confirmed (h : StagingInv before s) {id : UInt32} {bytes : Bytes}
    {deadline : Option Instant} {n : ℕ} {rest : List ManagerCommand}
    (hcommands : s.commands = .setOutput id bytes deadline (some n) :: rest)
    (hrunning : s.manager.running = true) (join : Except ErrorKind Unit) (ackOpen : Bool) :
    StagingInv before (s.pollManager .command join ackOpen) := by
  have houtputs := h.outputs.command (.setOutput id bytes deadline (some n)) ⟨s.now, join, ackOpen⟩
  rw [pollManager_cons hcommands hrunning]
  obtain ⟨e, hstage⟩ | ⟨conn, -, hexpired, hstage⟩ :=
    stageOutput_cases (m := s.manager) id bytes deadline s.now
  · simp only [StagingSystem.recorded, StagingSystem.verdictsOn, StagingSystem.settle,
      Manager.command, hstage, hrunning] at houtputs ⊢
    exact h.answered hcommands s.manager (.error e) hrunning (fun hok => by cases hok) houtputs
  · simp only [StagingSystem.recorded, StagingSystem.verdictsOn, StagingSystem.settle,
      Manager.command, hstage, hrunning] at houtputs ⊢
    exact h.answered hcommands _ (.ok ()) rfl (fun _ => hexpired) houtputs

/-- What a command nobody waits for is recorded as is on behalf of no call. -/
theorem acceptedFor_recorded {m : Manager} {cmd : ManagerCommand} (hcall : stagingCall cmd = none)
    (env : CommandEnv) (n : ℕ) : acceptedFor (StagingSystem.recorded m cmd env) n = [] := by
  cases cmd with
  | setOutput id bytes deadline ack =>
    cases hcall
    simp only [StagingSystem.recorded]
    split <;> rfl
  | add params openedAt tx ack =>
    simp only [StagingSystem.recorded]
    split <;> rfl
  | setRun id run => rfl
  | remove id => rfl
  | shutdown => rfl

/-- A command that carries no call gives no verdict. -/
theorem verdictsOn_unconfirmed {cmd : ManagerCommand} (hcall : stagingCall cmd = none)
    (effects : List ManagerEffect) : StagingSystem.verdictsOn cmd effects = [] := by
  cases cmd with
  | setOutput id bytes deadline ack =>
    cases hcall
    rfl
  | _ => rfl

/-- The manager handles a command nobody waits for. -/
theorem StagingInv.unconfirmed (h : StagingInv before s) {cmd : ManagerCommand}
    {rest : List ManagerCommand} (hcommands : s.commands = cmd :: rest)
    (hcall : stagingCall cmd = none) (hrunning : s.manager.running = true)
    (join : Except ErrorKind Unit) (ackOpen : Bool) :
    StagingInv before (s.pollManager .command join ackOpen) := by
  have hrest : rest.Sublist s.commands := by
    rw [hcommands]
    exact List.sublist_cons_self cmd rest
  rw [pollManager_cons hcommands hrunning, verdictsOn_unconfirmed hcall, List.append_nil]
  exact h.settle hrest _ _ (acceptedFor_recorded hcall _) (h.outputs.command cmd _)

/-- Every poll of the manager keeps the invariant. -/
theorem StagingInv.pollManager (h : StagingInv before s) (poll : ManagerPoll)
    (join : Except ErrorKind Unit) (ackOpen : Bool) :
    StagingInv before (s.pollManager poll join ackOpen) := by
  cases hinput : PushSystem.managerInput s.now poll with
  | some input =>
    have hturn := h.settle_input (PushSystem.managerInput_ne_command hinput)
    simp only [StagingSystem.pollManager, hinput]
    exact hturn
  | none =>
    have hpoll : poll = .command := by
      cases poll with
      | command => rfl
      | _ => cases hinput
    subst hpoll
    cases hcommands : s.commands with
    | nil =>
      simp only [StagingSystem.pollManager, hinput, hcommands]
      exact h
    | cons cmd rest =>
      have hrunning : s.manager.running = true := by
        by_contra hstop
        have hempty := h.handover.stopped (Bool.eq_false_of_not_eq_true hstop)
        rw [hcommands] at hempty
        cases hempty
      cases hcall : stagingCall cmd with
      | none => exact h.unconfirmed hcommands hcall hrunning join ackOpen
      | some n =>
        cases cmd with
        | setOutput id bytes deadline ack =>
          cases hcall
          exact h.confirmed hcommands hrunning join ackOpen
        | _ => cases hcall

end ManagerTurns

/-! ## Every run -/

/-- So does every step. -/
theorem StagingInv.step {before : Manager} {s : StagingSystem} (h : StagingInv before s)
    (input : StagingInput) : StagingInv before (s.step input) := by
  cases input with
  | advance elapsed => exact h.advance elapsed
  | call handle bytes deadline => exact h.beginCall handle bytes deadline
  | poll k granted => exact h.pollCall k granted
  | other cmd => exact h.send cmd
  | manager poll join ackOpen => exact h.pollManager poll join ackOpen
  | sendersDropped =>
    simp only [StagingSystem.step]
    split
    · rename_i hempty
      have hclosed : ∀ cmd env, ManagerInput.commandsClosed ≠ .command cmd env :=
        fun _ _ => ManagerInput.noConfusion
      have hturn := h.settle_input hclosed
      rw [hempty] at hturn
      exact hturn
    · exact h

/-- A call that moves on had not returned. -/
theorem keepsReturned_setState (s : StagingSystem) {k : ℕ} {c : StageCall} (state : CallState)
    (hc : s.calls[k]? = some c) (hstate : ∀ result, c.state ≠ .returned result) :
    KeepsReturned s (s.setState k state) where
  calls := by
    intro n c' result hc' hreturned
    have hne : k ≠ n := by
      intro heq
      subst heq
      rw [hc] at hc'
      cases hc'
      exact hstate result hreturned
    rw [setState_getElem? hc', if_neg hne]
  record := List.prefix_refl s.record

/-- Polling a call leaves the calls that have returned. -/
theorem keepsReturned_pollCall (s : StagingSystem) (k : ℕ) (granted : Bool) :
    KeepsReturned s (s.pollCall k granted) := by
  simp only [StagingSystem.pollCall]
  cases hc : s.calls[k]? with
  | none => exact KeepsReturned.refl s
  | some c =>
    cases hstate : c.state with
    | returned result =>
      simp only [hstate]
      exact KeepsReturned.refl s
    | sending =>
      have hmoves := fun state => keepsReturned_setState s state hc (by simp [hstate])
      simp only [hstate]
      split
      · exact hmoves _
      · split
        · exact (hmoves .waiting).trans (KeepsReturned.of_calls rfl (List.prefix_refl _))
        · split
          · exact hmoves _
          · exact KeepsReturned.refl s
    | waiting =>
      have hmoves := fun state => keepsReturned_setState s state hc (by simp [hstate])
      simp only [hstate]
      split
      · exact hmoves _
      · split
        · exact hmoves _
        · split
          · exact hmoves _
          · exact KeepsReturned.refl s

/-- So does every step. -/
theorem keepsReturned_step (s : StagingSystem) (input : StagingInput) :
    KeepsReturned s (s.step input) := by
  cases input with
  | advance elapsed => exact KeepsReturned.of_calls rfl (List.prefix_refl _)
  | call handle bytes deadline =>
    refine ⟨fun n c result hc _ => ?_, List.prefix_refl _⟩
    exact (List.getElem?_append_left (List.getElem?_eq_some_iff.mp hc).1).trans hc
  | poll k granted => exact keepsReturned_pollCall s k granted
  | other cmd =>
    simp only [StagingSystem.step, StagingSystem.send]
    split
    · exact KeepsReturned.refl s
    · split
      · exact KeepsReturned.of_calls rfl (List.prefix_refl _)
      · exact KeepsReturned.refl s
  | manager poll join ackOpen =>
    simp only [StagingSystem.step, StagingSystem.pollManager]
    split
    · exact KeepsReturned.of_calls rfl (List.prefix_refl _)
    · split
      · exact KeepsReturned.refl s
      · exact KeepsReturned.of_calls rfl (List.prefix_append _ _)
  | sendersDropped =>
    simp only [StagingSystem.step]
    split
    · exact KeepsReturned.of_calls rfl (List.prefix_refl _)
    · exact KeepsReturned.refl s

/-- What a run leaves of the calls that have returned. -/
theorem keepsReturned_run (s : StagingSystem) (inputs : List StagingInput) :
    KeepsReturned s (runSteps StagingSystem.step s inputs) := by
  induction inputs generalizing s with
  | nil => exact KeepsReturned.refl s
  | cons input inputs ih => exact (keepsReturned_step s input).trans (ih (s.step input))

/-- Every run keeps the invariant. -/
theorem stagingInv_run {before : Manager} {s : StagingSystem} (h : StagingInv before s)
    (inputs : List StagingInput) : StagingInv before (runSteps StagingSystem.step s inputs) := by
  induction inputs generalizing s with
  | nil => exact h
  | cons input inputs ih => exact ih (h.step input)

/-- In every run over any manager, a call that returned `Ok` had its buffer accepted exactly
once, for its own connection; a call that returned an error has not had it accepted and will
not, however the run goes on; and every connection outputs the last buffer accepted for it. -/
theorem staging_verdicts_true (m : Manager) (now : Instant) (inputs more : List StagingInput) :
    VerdictsTrue m (runSteps StagingSystem.step (.start m now) inputs) ∧
      KeepsReturned (runSteps StagingSystem.step (.start m now) inputs)
        (runSteps StagingSystem.step (.start m now) (inputs ++ more)) := by
  refine ⟨(stagingInv_run (stagingInv_start m now) inputs).verdictsTrue, ?_⟩
  have happend : runSteps StagingSystem.step (.start m now) (inputs ++ more) =
      runSteps StagingSystem.step (runSteps StagingSystem.step (.start m now) inputs) more :=
    List.foldl_append
  rw [happend]
  exact keepsReturned_run _ more

end EnipAdapter.Analysis
