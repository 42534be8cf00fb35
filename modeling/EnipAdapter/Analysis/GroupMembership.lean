import EnipAdapter.Analysis.SequenceAgreement
import EnipAdapter.Interface.MembershipContract

/-!
# Multicast membership over the runs of a manager

Every step of the manager is one of four to the holders of groups: nothing, one connection that
enters, some that are released, or the end of the socket. A release leaves the group whoever else
names it, so membership follows the registered connections as long as none is left behind, which
is always where a join of a joined group fails.
-/

set_option autoImplicit false

namespace EnipAdapter.Analysis

open EnipAdapter.Foundation EnipAdapter.Interface EnipAdapter.Model
open IoSocket (groupOf)

/-! ## The groups that are named -/

/-- A connection whose parameters stay keeps its group. -/
theorem groupOf_insert {conns : Connections} {id : UInt32} {c c' : IoConnection}
    (hlookup : conns.lookup id = some c) (hparams : c'.params = c.params) :
    groupOf (conns.insert id c') = groupOf conns := by
  funext k
  unfold groupOf
  by_cases hk : k = id
  · rw [hk, AList.lookup_insert, hlookup, Option.bind_some, Option.bind_some, hparams]
  · rw [AList.lookup_insert_ne hk]

/-- A new connection holds the group of its parameters. -/
theorem groupOf_insert_new (conns : Connections) (id : UInt32) (c : IoConnection) :
    groupOf (conns.insert id c) =
      Function.update (groupOf conns) id c.params.multicastGroup := by
  funext k
  unfold groupOf
  by_cases hk : k = id
  · rw [hk, AList.lookup_insert, Function.update_self, Option.bind_some]
  · rw [AList.lookup_insert_ne hk, Function.update_of_ne hk]

/-- A connection that is gone holds no group. -/
theorem groupOf_erase (conns : Connections) (id : UInt32) :
    groupOf (conns.erase id) = Function.update (groupOf conns) id none := by
  funext k
  unfold groupOf
  by_cases hk : k = id
  · rw [hk, AList.lookup_erase, Function.update_self, Option.bind_none]
  · rw [AList.lookup_erase_ne hk, Function.update_of_ne hk]

/-- No connection, no group. -/
theorem groupOf_empty : groupOf ∅ = fun _ => none := by
  funext k
  rw [groupOf, AList.lookup_empty, Option.bind_none]

/-- Routing a datagram changes no group. -/
theorem groupOf_consumeDatagram (reg : Registry) (buf : Bytes) (srcIp : IpAddr) (now : Instant) :
    groupOf (reg.consumeDatagram buf srcIp now).1.conns = groupOf reg.conns := by
  unfold Registry.consumeDatagram
  split
  · rfl
  · split
    · split
      · rfl
      · split
        · rfl
        · rename_i addr _ _ conn hlookup
          split
          · rfl
          · simp only
            split <;> exact groupOf_insert hlookup (sameProducer_consume conn _ _ now).params
    · rfl

/-- Neither does a pass over the connections, and what it does to the outside is to send. -/
theorem tickLoop_groups (now : Instant) (sends : UInt32 → Except ErrorKind Unit)
    (ids : List UInt32) (conns : Connections) (groups : Finset UInt32) :
    groupOf (tickLoop now sends ids conns).1 = groupOf conns ∧
      (tickLoop now sends ids conns).2.1.foldl onSocket groups = groups := by
  induction ids generalizing conns with
  | nil => exact ⟨rfl, rfl⟩
  | cons id ids ih =>
    unfold tickLoop
    split
    · exact ih conns
    · rename_i conn hlookup
      obtain ⟨hgroups, hfold⟩ := ih (conns.insert id (tickConnection conn now (sends id)).1)
      simp only
      refine ⟨hgroups.trans ?_, ?_⟩
      · exact groupOf_insert hlookup (tickConnection_spec conn now (sends id)).1.params
      · rw [List.foldl_append]
        cases (tickConnection conn now (sends id)).2.1 with
        | none => exact hfold
        | some datagram => exact hfold

/-! ## Releases -/

/-- Taking a connection out releases its group. -/
theorem removeConnection_holding (m : Manager) (id : UInt32) (groups : Finset UInt32) :
    (⟨groupOf (m.removeConnection id).1.registry.conns,
        (m.removeConnection id).2.foldl onSocket groups⟩ : Holding UInt32 UInt32) =
      Holding.release ⟨groupOf m.registry.conns, groups⟩ id := by
  have hgroup : ((m.registry.conns.lookup id).bind (·.params.multicastGroup)) =
      groupOf m.registry.conns id := rfl
  simp only [Manager.removeConnection, Holding.release, groupOf_erase, hgroup]
  congr 1
  cases groupOf m.registry.conns id <;> rfl

/-- Losing a connection tells its stream, and takes it out. -/
theorem loseConnection_holding (m : Manager) (id : UInt32) (reason : LostReason)
    (groups : Finset UInt32) :
    (⟨groupOf (m.loseConnection id reason).1.registry.conns,
        (m.loseConnection id reason).2.foldl onSocket groups⟩ : Holding UInt32 UInt32) =
      Holding.release ⟨groupOf m.registry.conns, groups⟩ id := by
  rw [← removeConnection_holding]
  simp only [Manager.loseConnection, List.foldl_append]
  cases m.events.lookup id <;> rfl

/-- Losing connections releases their groups one after the other. -/
theorem loseConnections_holding (ended : List (UInt32 × LostReason)) (m : Manager)
    (groups : Finset UInt32) :
    (⟨groupOf (m.loseConnections ended).1.registry.conns,
        (m.loseConnections ended).2.foldl onSocket groups⟩ : Holding UInt32 UInt32) =
      Holding.releaseAll ⟨groupOf m.registry.conns, groups⟩ (ended.map Prod.fst) := by
  induction ended generalizing m groups with
  | nil => rfl
  | cons p rest ih =>
    obtain ⟨id, reason⟩ := p
    have hfirst := loseConnection_holding m id reason groups
    have hrest := ih (m.loseConnection id reason).1
      ((m.loseConnection id reason).2.foldl onSocket groups)
    rw [hfirst] at hrest
    simp only [Manager.loseConnections, List.foldl_append, List.map_cons]
    exact hrest

/-- And does not stop the manager. -/
theorem loseConnections_running (ended : List (UInt32 × LostReason)) (m : Manager) :
    (m.loseConnections ended).1.running = m.running := by
  induction ended generalizing m with
  | nil => rfl
  | cons p rest ih => exact ih (m.loseConnection p.1 p.2).1

/-- A delivery joins and leaves no group. -/
theorem deliver_groups (m : Manager) (id : UInt32) (first : Bool) (update : IoUpdate)
    (groups : Finset UInt32) : (m.deliver id first update).foldl onSocket groups = groups := by
  unfold Manager.deliver
  cases m.events.lookup id with
  | none => rfl
  | some tx =>
    cases first with
    | false => rfl
    | true => cases m.registry.conns.lookup id <;> rfl

/-! ## One step -/

/-- The holders after a step that does not end the socket. -/
def moved (s : IoSocket) : ManagerInput → Holding UInt32 UInt32
  | .command (.add params _ _ _) env =>
    if params.multicastGroup = none ∨ env.join = .ok () then
      if env.ackOpen then s.holding.enter params.t2oConnectionId params.multicastGroup
      else (s.holding.enter params.t2oConnectionId params.multicastGroup).releaseAll
        [params.t2oConnectionId]
    else s.holding
  | .command (.remove id) _ => s.holding.releaseAll [id]
  | .tick now order sends => s.holding.releaseAll (s.lostInTick now order sends)
  | _ => s.holding

section Step

variable {s : IoSocket}

/-- What a step that keeps the task running makes of the holders. -/
theorem holding_of_running {input : ManagerInput} (hrun : (s.manager.step input).1.running = true) :
    (s.step input).holding =
      ⟨groupOf (s.manager.step input).1.registry.conns,
        (s.manager.step input).2.foldl onSocket s.groups⟩ := by
  simp only [IoSocket.step, IoSocket.holding, hrun, if_true]

/-- A task that has ended has dropped its connections and its socket. -/
theorem holding_of_exit {input : ManagerInput}
    (hexit : ∃ m : Manager, (s.manager.step input).1 = m.exit) :
    (s.step input).manager.running = false ∧ (s.step input).holding = .empty := by
  obtain ⟨m, hexit⟩ := hexit
  have hrun : m.exit.running = false := rfl
  simp only [IoSocket.step, IoSocket.holding, hexit, hrun, Bool.false_eq_true, if_false]
  refine ⟨trivial, ?_⟩
  show (⟨groupOf ∅, ∅⟩ : Holding UInt32 UInt32) = _
  rw [groupOf_empty]
  rfl

/-- The manager with a connection registered. -/
def registered (m : Manager) (params : IoConnectionParams) (openedAt : Instant)
    (tx : IoEventSender) : Manager :=
  { m with
    registry := { m.registry with
      conns := m.registry.conns.insert params.t2oConnectionId
        (IoConnection.new params openedAt) }
    events := m.events.insert params.t2oConnectionId tx }

/-- An Add whose join fails is refused with the failure, and changes nothing. -/
theorem addConnection_refused (m : Manager) {params : IoConnectionParams} {group : UInt32}
    (hgroup : params.multicastGroup = some group) {env : CommandEnv} {kind : ErrorKind}
    (hjoin : env.join = .error kind) (openedAt : Instant) (tx : IoEventSender) (ack : ℕ) :
    m.addConnection params openedAt tx ack env = (m, [.verdict ack (.error (.io kind))]) := by
  simp only [Manager.addConnection, hgroup, hjoin]

/-- Any other Add registers its connection, and takes it out again where nobody waits for it. -/
theorem addConnection_joined (m : Manager) {params : IoConnectionParams} {env : CommandEnv}
    (h : params.multicastGroup = none ∨ env.join = .ok ()) (openedAt : Instant)
    (tx : IoEventSender) (ack : ℕ) :
    m.addConnection params openedAt tx ack env =
      if env.ackOpen then
        (registered m params openedAt tx,
          (params.multicastGroup.map ManagerEffect.joined).toList ++ [.verdict ack (.ok ())])
      else
        (((registered m params openedAt tx).removeConnection params.t2oConnectionId).1,
          (params.multicastGroup.map ManagerEffect.joined).toList ++
            ((registered m params openedAt tx).removeConnection params.t2oConnectionId).2) := by
  unfold Manager.addConnection registered
  cases hgroup : params.multicastGroup with
  | none => rfl
  | some group =>
    rw [hgroup] at h
    have hjoin : env.join = .ok () := h.resolve_left fun hnone => by cases hnone
    rw [hjoin]

/-- A registration enters the connection with its group. -/
theorem registered_holding (m : Manager) (params : IoConnectionParams) (openedAt : Instant)
    (tx : IoEventSender) (groups : Finset UInt32) :
    (⟨groupOf (registered m params openedAt tx).registry.conns,
        (params.multicastGroup.map ManagerEffect.joined).toList.foldl onSocket groups⟩ :
          Holding UInt32 UInt32) =
      Holding.enter ⟨groupOf m.registry.conns, groups⟩ params.t2oConnectionId
        params.multicastGroup := by
  simp only [registered, groupOf_insert_new, Holding.enter, IoConnection.new]
  congr 1
  cases params.multicastGroup <;> rfl

/-- An Add enters its connection unless its join fails, and releases it where nobody waits. -/
theorem addConnection_holding (m : Manager) (params : IoConnectionParams) (openedAt : Instant)
    (tx : IoEventSender) (ack : ℕ) (env : CommandEnv) (groups : Finset UInt32) :
    (m.addConnection params openedAt tx ack env).1.running = m.running ∧
      (⟨groupOf (m.addConnection params openedAt tx ack env).1.registry.conns,
          (m.addConnection params openedAt tx ack env).2.foldl onSocket groups⟩ :
            Holding UInt32 UInt32) =
        if params.multicastGroup = none ∨ env.join = .ok () then
          if env.ackOpen then
            Holding.enter ⟨groupOf m.registry.conns, groups⟩ params.t2oConnectionId
              params.multicastGroup
          else
            (Holding.enter ⟨groupOf m.registry.conns, groups⟩ params.t2oConnectionId
              params.multicastGroup).releaseAll [params.t2oConnectionId]
        else ⟨groupOf m.registry.conns, groups⟩ := by
  by_cases hjoined : params.multicastGroup = none ∨ env.join = .ok ()
  · rw [addConnection_joined m hjoined, if_pos hjoined]
    have henter := registered_holding m params openedAt tx groups
    by_cases hopen : env.ackOpen = true
    · rw [if_pos hopen, if_pos hopen, List.foldl_append]
      exact ⟨rfl, henter⟩
    · rw [if_neg hopen, if_neg hopen, List.foldl_append]
      refine ⟨rfl, ?_⟩
      rw [← henter]
      exact removeConnection_holding (registered m params openedAt tx) params.t2oConnectionId _
  · rw [if_neg hjoined]
    obtain ⟨hsome, hjoin⟩ := not_or.mp hjoined
    obtain ⟨group, hgroup⟩ := Option.ne_none_iff_exists'.mp hsome
    cases hanswer : env.join with
    | ok u => exact absurd hanswer hjoin
    | error kind =>
      rw [addConnection_refused m hgroup hanswer]
      exact ⟨rfl, rfl⟩

/-- One step ends the socket, or moves the holders as the input says. -/
theorem step_spec (hrun : s.manager.running = true) (input : ManagerInput) :
    ((s.step input).manager.running = true ∧ (s.step input).holding = moved s input) ∨
      ((s.step input).manager.running = false ∧ (s.step input).holding = .empty) := by
  -- a step that keeps the task in its loop is read off its manager and its effects
  have hgoes : ∀ r : Manager × List ManagerEffect, s.manager.step input = r →
      r.1.running = s.manager.running →
      (⟨groupOf r.1.registry.conns, r.2.foldl onSocket s.groups⟩ : Holding UInt32 UInt32) =
        moved s input →
      (s.step input).manager.running = true ∧ (s.step input).holding = moved s input := by
    rintro r rfl hkeeps hmoved
    have hrunning : (s.manager.step input).1.running = true := hkeeps.trans hrun
    exact ⟨hrunning, (holding_of_running hrunning).trans hmoved⟩
  cases input with
  | command cmd env =>
    cases cmd with
    | add params openedAt tx ack =>
      obtain ⟨hkeeps, hmoved⟩ :=
        addConnection_holding s.manager params openedAt tx ack env s.groups
      exact .inl
        (hgoes (s.manager.addConnection params openedAt tx ack env) (if_pos hrun) hkeeps hmoved)
    | setOutput id bytes deadline ack =>
      refine .inl (hgoes (s.manager.command (.setOutput id bytes deadline ack) env) (if_pos hrun)
        ?_ ?_)
      · simp only [Manager.command, Manager.stageOutput]
        cases s.manager.registry.conns.lookup id with
        | none => rfl
        | some conn =>
          simp only
          split_ifs <;> rfl
      · have hsilent : ∀ verdict, (ack.map (fun a => ManagerEffect.verdict a verdict)).toList.foldl
            onSocket s.groups = s.groups := by
          intro verdict
          cases ack <;> rfl
        simp only [Manager.command, Manager.stageOutput, hsilent]
        cases hlookup : s.manager.registry.conns.lookup id with
        | none => rfl
        | some conn =>
          simp only
          split_ifs
          · rfl
          · have hsame : groupOf (s.manager.registry.conns.insert id (conn.setOutput bytes)) =
                groupOf s.manager.registry.conns := groupOf_insert hlookup rfl
            simp only [hsame]
            rfl
    | setRun id run =>
      refine .inl (hgoes (s.manager.command (.setRun id run) env) (if_pos hrun) ?_ ?_)
      · simp only [Manager.command]
        cases s.manager.registry.conns.lookup id <;> rfl
      · simp only [Manager.command]
        cases hlookup : s.manager.registry.conns.lookup id with
        | none => rfl
        | some conn =>
          have hsame : groupOf (s.manager.registry.conns.insert id (conn.setRun run)) =
              groupOf s.manager.registry.conns := groupOf_insert hlookup rfl
          simp only [hsame]
          rfl
    | remove id =>
      exact .inl (hgoes (s.manager.removeConnection id) (if_pos hrun) rfl
        (removeConnection_holding s.manager id s.groups))
    | shutdown =>
      refine .inr (holding_of_exit ⟨s.manager, ?_⟩)
      simp only [Manager.step, hrun, if_true, Manager.command]
  | commandsClosed =>
    refine .inr (holding_of_exit ⟨s.manager, ?_⟩)
    simp only [Manager.step, hrun, if_true]
  | datagram buf src now =>
    have hgroups := groupOf_consumeDatagram s.manager.registry buf src.ip now
    obtain ⟨⟨registry, routed⟩, hrouted⟩ :
        ∃ r, s.manager.registry.consumeDatagram buf src.ip now = r := ⟨_, rfl⟩
    rw [hrouted] at hgroups
    refine .inl (hgoes (s.manager.receive buf src now) (if_pos hrun) ?_ ?_)
    · simp only [Manager.receive, hrouted]
      cases routed <;> rfl
    · simp only [Manager.receive, hrouted]
      cases routed with
      | accepted id first update =>
        simp only [deliver_groups, hgroups]
        rfl
      | dropped id reason =>
        simp only [List.foldl_nil, hgroups]
        rfl
  | recvError kind order =>
    cases haction : (onRecvError s.manager.consecutiveFatal kind).2 with
    | continue_ =>
      refine .inl (hgoes (s.manager.receiveError kind order) (if_pos hrun) ?_ ?_)
      · simp only [Manager.receiveError, haction]
      · simp only [Manager.receiveError, haction]
        rfl
    | fatalSocket =>
      refine .inr (holding_of_exit ?_)
      simp only [Manager.step, hrun, if_true, Manager.receiveError, haction]
      exact ⟨_, rfl⟩
  | tick now order sends =>
    refine .inl (hgoes (s.manager.tick now order sends) (if_pos hrun) ?_ ?_)
    · exact loseConnections_running _ _
    · obtain ⟨hgroups, hsent⟩ := tickLoop_groups now sends
        (iterationOrder s.manager.registry.conns order) s.manager.registry.conns s.groups
      simp only [Manager.tick, List.foldl_append, hsent, loseConnections_holding, hgroups]
      rfl

end Step

/-! ## Runs -/

/-- A step from an ended task leaves it as it is. -/
theorem step_of_ended {s : IoSocket} (hrun : s.manager.running = false)
    (hempty : s.holding = .empty) (input : ManagerInput) :
    (s.step input).manager.running = false ∧ (s.step input).holding = .empty := by
  have hstep : s.manager.step input = (s.manager, []) :=
    if_neg (by rw [hrun]; exact Bool.false_ne_true)
  simp only [IoSocket.step, IoSocket.holding, hstep, hrun, Bool.false_eq_true, if_false]
  refine ⟨trivial, ?_⟩
  have hholds : groupOf s.manager.registry.conns = _ := congrArg Holding.holds hempty
  rw [hholds]
  rfl

/-- A property of the holders, and an ended task has none. -/
def Kept (inv : Holding UInt32 UInt32 → Prop) (s : IoSocket) : Prop :=
  inv s.holding ∧ (s.manager.running = false → s.holding = .empty)

/-- Where every move under a guard keeps a property that nobody's holding has, every guarded run
does. -/
theorem holding_invariant {guard : IoSocket → ManagerInput → Prop}
    {inv : Holding UInt32 UInt32 → Prop} (hempty : inv .empty)
    (hmoved : ∀ s input, inv s.holding → guard s input → inv (moved s input))
    {inputs : List ManagerInput} (hguard : Guarded IoSocket.step guard .start inputs) :
    inv (runSteps IoSocket.step .start inputs).holding := by
  have hstep : ∀ s input, Kept inv s → guard s input → Kept inv (s.step input) := by
    rintro s input ⟨hinv, hended⟩ hinput
    by_cases hrun : s.manager.running = true
    · rcases step_spec hrun input with ⟨hruns, hholding⟩ | ⟨-, hholding⟩
      · refine ⟨?_, fun hstopped => ?_⟩
        · rw [hholding]
          exact hmoved s input hinv hinput
        · rw [hruns] at hstopped
          cases hstopped
      · exact ⟨by rw [hholding]; exact hempty, fun _ => hholding⟩
    · rw [Bool.not_eq_true] at hrun
      obtain ⟨-, hholding⟩ := step_of_ended hrun (hended hrun) input
      exact ⟨by rw [hholding]; exact hempty, fun _ => hholding⟩
  have hstart : IoSocket.start.holding = .empty := by
    show (⟨groupOf ∅, ∅⟩ : Holding UInt32 UInt32) = _
    rw [groupOf_empty]
    rfl
  have hall : Kept inv (runSteps IoSocket.step .start inputs) :=
    runSteps_invariant hstep ⟨by rw [hstart]; exact hempty, fun _ => hstart⟩ hguard
  exact hall.1

section Moves

variable {s : IoSocket} {input : ManagerInput}

/-- An id that is not registered holds no group. -/
theorem holds_of_fresh {params : IoConnectionParams}
    (hfresh : s.manager.registry.conns.lookup params.t2oConnectionId = none) :
    s.holding.holds params.t2oConnectionId = none := by
  show groupOf s.manager.registry.conns params.t2oConnectionId = none
  rw [groupOf, hfresh, Option.bind_none]

/-- What is joined is named after every move of fresh connections. -/
theorem covered_moved (hcovered : s.holding.Covered) (hfresh : s.FreshAdd input) :
    (moved s input).Covered := by
  cases input with
  | command cmd env =>
    cases cmd with
    | add params openedAt tx ack =>
      have hentered := hcovered.enter (holds_of_fresh hfresh) params.multicastGroup
      simp only [moved]
      split_ifs
      · exact hentered
      · exact hentered.releaseAll _
      · exact hcovered
    | remove id => exact hcovered.releaseAll _
    | _ => exact hcovered
  | tick now order sends => exact hcovered.releaseAll _
  | _ => exact hcovered

/-- What is joined is what is named after every move of fresh connections that leaves no
connection behind. -/
theorem exact_moved (hexact : s.holding.Exact) (hfresh : s.FreshAdd input)
    (hleaves : s.LeavesNoneBehind input) : (moved s input).Exact := by
  cases input with
  | command cmd env =>
    cases cmd with
    | add params openedAt tx ack =>
      have hentered := hexact.enter (holds_of_fresh hfresh) params.multicastGroup
      simp only [moved]
      split_ifs with hjoined hopen
      · exact hentered
      · apply hentered.releaseAll
        intro k hk k' hk' g hg hg'
        obtain rfl := List.mem_singleton.mp hk
        have hne : k' ≠ params.t2oConnectionId := fun h => hk' (List.mem_singleton.mpr h)
        rw [Holding.enter_holds_self] at hg
        rw [Holding.enter_holds_ne hne] at hg'
        exact hleaves (Bool.eq_false_iff.mpr hopen) g hg k' hg'
      · exact hexact
    | remove id => exact hexact.releaseAll hleaves
    | _ => exact hexact
  | tick now order sends => exact hexact.releaseAll hleaves
  | _ => exact hexact

/-- Where a join of a joined group fails, a group is held by one connection, and nothing is left
behind. -/
theorem sole_moved (hsole : s.holding.Sole) (hfresh : s.FreshAdd input)
    (hfails : s.JoinedFails input) : (moved s input).Sole := by
  cases input with
  | command cmd env =>
    cases cmd with
    | add params openedAt tx ack =>
      simp only [moved]
      by_cases hjoined : params.multicastGroup = none ∨ env.join = .ok ()
      · have hnew : ∀ g, params.multicastGroup = some g → ∀ k, s.holding.holds k ≠ some g := by
          intro g hg k hk
          obtain ⟨kind, hkind⟩ := hfails g hg ((hsole.exact_ g).mpr ⟨k, hk⟩)
          rw [hg, hkind] at hjoined
          rcases hjoined with h | h <;> cases h
        have hentered : (s.holding.enter params.t2oConnectionId params.multicastGroup).Sole :=
          ⟨hsole.exact_.enter (holds_of_fresh hfresh) _, hsole.exclusive.enter hnew⟩
        rw [if_pos hjoined]
        split_ifs
        · exact hentered
        · exact hentered.releaseAll _
      · rw [if_neg hjoined]
        exact hsole
    | remove id => exact hsole.releaseAll _
    | _ => exact hsole
  | tick now order sends => exact hsole.releaseAll _
  | _ => exact hsole

end Moves

/-! ## Every interleaving -/

/-- A group is named exactly if some connection holds it. -/
theorem named_iff {s : IoSocket} {group : UInt32} :
    s.Named group ↔ ∃ id, s.holding.holds id = some group := by
  refine exists_congr fun id => ?_
  show _ ↔ groupOf s.manager.registry.conns id = some group
  rw [groupOf, Option.bind_eq_some_iff]

/-- A group that is joined is named by a registered connection, and every group that is named is
joined as long as no connection that goes shares its group with one that stays. Where a join of
a joined group fails, that is so throughout, and a group is named by one connection. An Add whose
group is joined is refused with nothing changed where its join fails, and registered where the
join changes nothing. -/
theorem membership_follows_connections (inputs : List ManagerInput) :
    (Guarded IoSocket.step IoSocket.FreshAdd .start inputs →
      ∀ group ∈ (runSteps IoSocket.step .start inputs).groups,
        (runSteps IoSocket.step .start inputs).Named group) ∧
      (Guarded IoSocket.step (fun s i => s.FreshAdd i ∧ s.LeavesNoneBehind i) .start inputs →
        ∀ group, group ∈ (runSteps IoSocket.step .start inputs).groups ↔
          (runSteps IoSocket.step .start inputs).Named group) ∧
      (Guarded IoSocket.step (fun s i => s.FreshAdd i ∧ s.JoinedFails i) .start inputs →
        (∀ group, group ∈ (runSteps IoSocket.step .start inputs).groups ↔
          (runSteps IoSocket.step .start inputs).Named group) ∧
          (runSteps IoSocket.step .start inputs).holding.Exclusive) ∧
      ∀ (s : IoSocket) (params : IoConnectionParams) (openedAt : Instant) (tx : IoEventSender)
        (ack : ℕ) (env : CommandEnv) (group : UInt32), s.manager.running = true →
        params.multicastGroup = some group → group ∈ s.groups →
          (∀ kind, env.join = .error kind →
            s.step (.command (.add params openedAt tx ack) env) = s ∧
              (s.manager.step (.command (.add params openedAt tx ack) env)).2 =
                [.verdict ack (.error (.io kind))]) ∧
          (env.join = .ok () → env.ackOpen = true →
            (s.step (.command (.add params openedAt tx ack) env)).manager.registry.conns.lookup
              params.t2oConnectionId = some (IoConnection.new params openedAt)) := by
  refine ⟨fun hguard group hgroup => ?_, fun hguard group => ?_, fun hguard => ?_, ?_⟩
  · have hcovered := holding_invariant Holding.exact_empty.covered
      (fun _ _ hinv hinput => covered_moved hinv hinput) hguard
    exact named_iff.mpr (hcovered group hgroup)
  · have hexact := holding_invariant Holding.exact_empty
      (fun _ _ hinv hinput => exact_moved hinv hinput.1 hinput.2) hguard
    exact (hexact group).trans named_iff.symm
  · have hsole := holding_invariant Holding.sole_empty
      (fun _ _ hinv hinput => sole_moved hinv hinput.1 hinput.2) hguard
    exact ⟨fun group => (hsole.exact_ group).trans named_iff.symm, hsole.exclusive⟩
  · intro s params openedAt tx ack env group hrun hgroup _
    have hstep : s.manager.step (.command (.add params openedAt tx ack) env) =
        s.manager.addConnection params openedAt tx ack env := if_pos hrun
    refine ⟨fun kind hjoin => ?_, fun hjoin hopen => ?_⟩
    · have hrefused := addConnection_refused s.manager hgroup hjoin openedAt tx ack
      rw [hstep, hrefused]
      refine ⟨?_, rfl⟩
      simp only [IoSocket.step, hstep, hrefused, hrun, if_true]
      rfl
    · have hanswer : params.multicastGroup = none ∨ env.join = .ok () := .inr hjoin
      have hjoined := addConnection_joined s.manager hanswer openedAt tx ack
      rw [if_pos hopen] at hjoined
      simp only [IoSocket.step, hstep, hjoined]
      exact AList.lookup_insert _

/-- A connection that consumes from a group. -/
def groupParams (id : UInt32) : IoConnectionParams :=
  { heartbeatParams with t2oConnectionId := id, multicastGroup := some 0xEF000001 }

/-- An Add on the group, with what its join answers. -/
def addToGroup (id : UInt32) (join : Except ErrorKind Unit) : ManagerInput :=
  .command (.add (groupParams id) 0 ⟨0⟩ 0) ⟨0, join, true⟩

/-- Where the join of a joined group fails, the second connection of a group is not registered;
where it changes nothing, the first one that goes takes the group from the second. -/
theorem second_connection_refused_or_left :
    (0xEF000001 ∈ (runSteps IoSocket.step .start [addToGroup 1 (.ok ())]).groups ∧
        (runSteps IoSocket.step .start [addToGroup 1 (.ok ()),
          addToGroup 3 (.error (.other 98))]).manager.registry.conns.lookup 3 = none) ∧
      0xEF000001 ∉ (runSteps IoSocket.step .start [addToGroup 1 (.ok ()), addToGroup 3 (.ok ()),
          .command (.remove 1) ⟨0, .ok (), true⟩]).groups ∧
        (runSteps IoSocket.step .start [addToGroup 1 (.ok ()), addToGroup 3 (.ok ()),
          .command (.remove 1) ⟨0, .ok (), true⟩]).Named 0xEF000001 := by
  refine ⟨⟨by decide +kernel, by decide +kernel⟩, by decide +kernel,
    3, IoConnection.new (groupParams 3) 0, by decide +kernel, rfl⟩

/-- A connection that is refused leaves the group to the one that has it. -/
theorem membership_follows_refused_connection :
    ∀ group, group ∈ (runSteps IoSocket.step .start [addToGroup 1 (.ok ()),
        addToGroup 3 (.error (.other 98))]).groups ↔
      (runSteps IoSocket.step .start [addToGroup 1 (.ok ()),
        addToGroup 3 (.error (.other 98))]).Named group := by
  apply ((membership_follows_connections [addToGroup 1 (.ok ()),
    addToGroup 3 (.error (.other 98))]).2.2.1 ?_).1
  refine ⟨⟨?_, ?_⟩, ⟨?_, ?_⟩, trivial⟩
  · show AList.lookup 1 IoSocket.start.manager.registry.conns = none
    decide +kernel
  · intro group _ hjoined
    cases hjoined
  · show AList.lookup 3 (IoSocket.start.step (addToGroup 1 (.ok ()))).manager.registry.conns = none
    decide +kernel
  · intro group _ _
    exact ⟨.other 98, rfl⟩

end EnipAdapter.Analysis
