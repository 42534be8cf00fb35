import EnipAdapter.Interface.MetricsContract

/-!
# What a call and a drain do to a row

A call counts in one row and leaves the others alone (`record_grown`); a part of an emission shows
the counters of its rows and starts their intervals again (`collect_rowStep`). Either keeps the
ledger of a counter balanced (`pairOf_grown`, `posted_rowStep`).
-/

set_option autoImplicit false

namespace EnipAdapter.Analysis

open EnipAdapter.Foundation
open EnipAdapter.Interface
open EnipAdapter.Model

/-! ## Counting -/

/-- Every counter of the row was added to, or left alone. -/
def Grown (a b : List (String × Pair)) : Prop :=
  List.Forall₂ (fun x y => y.1 = x.1 ∧ ∃ n, y.2 = x.2.add n) a b

/-- Counters that stay have grown by nothing. -/
theorem grown_refl (a : List (String × Pair)) : Grown a a := by
  apply List.forall₂_same.mpr
  intro x _
  exact ⟨rfl, 0, rfl⟩

/-- A counter is the first of its name. -/
theorem pairOf_cons (stem : String) (x : String × Pair) (a : List (String × Pair)) :
    pairOf stem (x :: a) = if stem = x.1 then x.2 else pairOf stem a := by
  obtain ⟨name, p⟩ := x
  unfold pairOf
  rw [List.lookup_cons]
  by_cases h : stem = name
  · simp [h]
  · have hbeq : (stem == name) = false := beq_eq_false_iff_ne.mpr h
    simp only [hbeq, h, if_false]

/-- Each counter of grown counters has grown. -/
theorem pairOf_grown {a b : List (String × Pair)} (h : Grown a b) (stem : String) :
    ∃ n, pairOf stem b = (pairOf stem a).add n := by
  induction h with
  | nil => exact ⟨0, rfl⟩
  | @cons x y a b hxy _ ih =>
      obtain ⟨hname, n, hpair⟩ := hxy
      rw [pairOf_cons, pairOf_cons, hname]
      split
      · exact ⟨n, hpair⟩
      · exact ih

/-- A counter that stays has grown by nothing. -/
@[simp] theorem exists_same (p : Pair) : ∃ k, p = p.add k := ⟨0, rfl⟩

/-- A counter that is counted in one case has grown in either. -/
@[simp] theorem exists_ite (c : Prop) [Decidable c] (p q : Pair) :
    (∃ k, (if c then q else p) = p.add k) ↔ (c → ∃ k, q = p.add k) := by
  by_cases hc : c <;> simp [hc]

/-- The same with the cases exchanged. -/
@[simp] theorem exists_ite_else (c : Prop) [Decidable c] (p q : Pair) :
    (∃ k, (if c then p else q) = p.add k) ↔ (¬c → ∃ k, q = p.add k) := by
  by_cases hc : c <;> simp [hc]

/-! ### By families -/

/-- Counting in the connection family grows the rows. -/
theorem grown_conn {s : MetricState} {c : ConnFamilyCounters}
    (h : Grown s.conn.counters c.counters) (combo : MetricCombo) :
    Grown (rowCounters s combo) (rowCounters { s with conn := c } combo) := by
  cases combo with
  | connection => exact h
  | _ => exact grown_refl _

/-- Counting in the class-1 family grows the rows. -/
theorem grown_io {s : MetricState} {io : IoFamilyCounters}
    (h : Grown s.io.counters io.counters) (combo : MetricCombo) :
    Grown (rowCounters s combo) (rowCounters { s with io := io } combo) := by
  cases combo with
  | io => exact h
  | _ => exact grown_refl _

/-- An update is for one row. -/
theorem entry_updateRow {κ σ : Type} [DecidableEq κ] [Inhabited σ] (m : AList (fun _ : κ => σ))
    (k k' : κ) (f : σ → σ) :
    entry (updateRow m k f) k' = if k' = k then f (entry m k) else entry m k' := by
  unfold updateRow
  split
  · rename_i heq
    rw [heq, entry_insert_self]
  · rename_i hne
    exact entry_insert_ne m _ hne

/-- A row of a map counts; the others are left alone. -/
theorem updateRow_grown {κ σ : Type} [DecidableEq κ] [Inhabited σ]
    (counters : σ → List (String × Pair)) {f : σ → σ}
    (hf : ∀ c, Grown (counters c) (counters (f c))) (m : AList (fun _ : κ => σ)) (k k' : κ) :
    Grown (counters (entry m k')) (counters (entry (updateRow m k f) k')) := by
  rw [entry_updateRow]
  split
  · rename_i heq
    rw [heq]
    exact hf _
  · exact grown_refl _

/-- A poll cycle only counts up. -/
theorem recordPollCycle_grown (cycle : PollCycle) (c : PollCounters) :
    Grown c.counters (c.recordPollCycle cycle).counters := by
  simp [Grown, PollCounters.counters, PollCounters.recordPollCycle]

/-- So does a message. -/
theorem recordPublish_grown (samples : ℕ) (fromBatch : Bool) (latencyMs : ℕ) (ok : Bool)
    (c : PubCounters) :
    Grown c.counters (c.recordPublish samples fromBatch latencyMs ok).counters := by
  simp [Grown, PubCounters.counters, PubCounters.recordPublish]

/-- So does a command. -/
theorem recordCommand_grown (verb : CommandVerb) (ok : Bool) (latencyMs : ℕ)
    (tally : CommandCounts) (c : CmdCounters) :
    Grown c.counters (c.recordCommand verb ok latencyMs tally).counters := by
  simp [Grown, CmdCounters.counters, CmdCounters.recordCommand]

/-- A call adds to counters and takes nothing from any. -/
theorem record_grown (s : MetricState) (call : MetricCall) (combo : MetricCombo) :
    Grown (rowCounters s combo) (rowCounters (s.record call) combo) := by
  cases call with
  | counted counter => cases combo <;> exact grown_refl _
  | setLink state => cases combo <;> exact grown_refl _
  | pollLatency ms => cases combo <;> exact grown_refl _
  | publishLatency ms => cases combo <;> exact grown_refl _
  | staleSignals n => cases combo <;> exact grown_refl _
  | connectAttempt =>
      apply grown_conn
      simp [Grown, ConnFamilyCounters.counters, ConnectionCounters.onConnectAttempt]
  | connected latencyMs now =>
      apply grown_conn
      simp [Grown, ConnFamilyCounters.counters, ConnectionCounters.onConnected]
  | connectFailure =>
      apply grown_conn
      simp [Grown, ConnFamilyCounters.counters, ConnectionCounters.onConnectFailure]
  | tlsHandshakeFailure =>
      apply grown_conn
      simp [Grown, ConnFamilyCounters.counters, ConnectionCounters.onTlsHandshakeFailure]
  | certReload =>
      apply grown_conn
      simp [Grown, ConnFamilyCounters.counters, ConnFamilyCounters.onCertReload]
  | certExpiryDays days =>
      apply grown_conn
      exact grown_refl _
  | estEnrollment success =>
      apply grown_conn
      cases success <;>
        simp [Grown, ConnFamilyCounters.counters, ConnFamilyCounters.onEstEnrollment]
  | connectionDropped now =>
      apply grown_conn
      cases hsince : s.conn.connectedSince <;>
        simp [Grown, ConnFamilyCounters.counters, ConnectionCounters.onConnectionDropped,
          ConnectionCounters.accrue, hsince]
  | pollCycle group result cycle =>
      cases combo with
      | poll group' result' =>
          exact updateRow_grown PollCounters.counters
            (recordPollCycle_grown cycle) s.poll _ _
      | _ => exact grown_refl _
  | publish mode samples fromBatch latencyMs ok =>
      cases combo with
      | publish mode' =>
          exact updateRow_grown PubCounters.counters
            (recordPublish_grown samples fromBatch latencyMs ok) s.publish _ _
      | _ => exact grown_refl _
  | command verb ok latencyMs tally =>
      cases combo with
      | command verb' result' =>
          exact updateRow_grown CmdCounters.counters
            (recordCommand_grown verb ok latencyMs tally) s.command _ _
      | _ => exact grown_refl _
  | forwardOpen ok =>
      apply grown_io
      cases ok <;> simp [Grown, IoFamilyCounters.counters, IoFamilyCounters.onForwardOpen]
  | ioUp o2tApiMs t2oApiMs =>
      apply grown_io
      exact grown_refl _
  | frameConsumed sequence receivedAt runMode =>
      apply grown_io
      simp [Grown, IoFamilyCounters.counters, IoLinkCounters.recordFrameConsumed]
  | ioStats stats =>
      apply grown_io
      simp [Grown, IoFamilyCounters.counters, IoLinkCounters.recordIoStats]
  | ioLost =>
      apply grown_io
      simp [Grown, IoFamilyCounters.counters, IoLinkCounters.onIoLost,
        IoLinkCounters.endConnection]
  | ioLinkReplaced =>
      apply grown_io
      exact grown_refl _

/-! ## Draining -/

/-- The intervals start again. -/
def settled (a : List (String × Pair)) : List (String × Pair) :=
  a.map fun x => (x.1, x.2.drained)

/-- A drained row has its counters drained. -/
theorem pairOf_settled (stem : String) (a : List (String × Pair)) :
    pairOf stem (settled a) = (pairOf stem a).drained := by
  induction a with
  | nil => rfl
  | cons x a ih =>
      unfold settled at ih ⊢
      rw [List.map_cons, pairOf_cons, pairOf_cons, ih]
      split <;> rfl

/-- A drain of a row shows its counters and settles them. -/
structure SettledDrain {σ : Type} (counters : σ → List (String × Pair))
    (drain : σ → σ × MetricValues) : Prop where
  shown : ∀ c, (drain c).2.counters = counters c
  after : ∀ c, counters (drain c).1 = settled (counters c)

/-- A poll row is drained as it shows. -/
theorem settles_poll : SettledDrain PollCounters.counters PollCounters.drain :=
  ⟨fun _ => rfl, fun _ => rfl⟩

/-- So is a publish row. -/
theorem settles_publish : SettledDrain PubCounters.counters PubCounters.drain :=
  ⟨fun _ => rfl, fun _ => rfl⟩

/-- So is a command row. -/
theorem settles_command : SettledDrain CmdCounters.counters CmdCounters.drain :=
  ⟨fun _ => rfl, fun _ => rfl⟩

/-- So is the class-1 row. -/
theorem settles_io : SettledDrain IoFamilyCounters.counters IoFamilyCounters.drain :=
  ⟨fun _ => rfl, fun _ => rfl⟩

/-- The time connected is none of the counters. -/
theorem counters_accrue (c : ConnFamilyCounters) (now : Instant) :
    ConnFamilyCounters.counters { c with toConnectionCounters := c.accrue now } = c.counters := by
  unfold ConnectionCounters.accrue
  cases c.connectedSince <;> rfl

/-- So the connection row is drained as it shows. -/
theorem settles_conn (now : Instant) :
    SettledDrain ConnFamilyCounters.counters (ConnFamilyCounters.drain now) where
  shown c := counters_accrue c now
  after c := congrArg settled (counters_accrue c now)

section Pass

variable {κ σ : Type} [DecidableEq κ] [Inhabited σ]

omit [Inhabited σ] in
/-- The rows in their order have every key once. -/
theorem filter_inOrder (name : κ → String × String) (m : AList (fun _ : κ => σ)) (k : κ) :
    (inOrder name m).filter (fun i => i = k) = if k ∈ m then [k] else [] := by
  have hperm : ((inOrder name m).filter fun i => decide (i = k)).Perm
      (m.keys.filter fun i => decide (i = k)) :=
    (List.mergeSort_perm _ _).filter _
  rw [filter_keys] at hperm
  split at hperm <;> rename_i hmem
  · rw [if_pos hmem]
    exact List.perm_singleton.mp hperm
  · rw [if_neg hmem]
    exact List.perm_nil.mp hperm

/-- A pass drains a row that is there once, and no other. -/
theorem drainRows_at (name : κ → String × String) (drain : σ → σ × MetricValues)
    (m : AList (fun _ : κ => σ)) (k : κ) :
    (entry (drainRows name drain m).1 k, outputsOf k (drainRows name drain m).2) =
      if k ∈ m then ((drain (entry m k)).1, [(drain (entry m k)).2]) else (entry m k, []) := by
  unfold drainRows
  rw [foldKeyed_at]
  simp only [id]
  rw [filter_inOrder]
  split <;> rfl

end Pass

/-! ## The rows of an emission -/

variable {setup : MetricSetup}

/-- No two publish modes have one name. -/
theorem asStr_publishMode : Function.Injective PublishMode.asStr := by
  intro a b h
  cases a <;> cases b <;> first | rfl | (revert h; decide +kernel)

/-- No two verbs have one name. -/
theorem asStr_verb : Function.Injective CommandVerb.asStr := by
  intro a b h
  cases a <;> cases b <;> first | rfl | (revert h; decide +kernel)

/-- No two results have one name. -/
theorem asStr_result : Function.Injective MetricResult.asStr := by
  intro a b h
  cases a <;> cases b <;> first | rfl | (revert h; decide +kernel)

/-- The name and the dimensions tell rows apart. -/
theorem combo_eq {a b : MetricCombo} (hfamily : a.family = b.family)
    (hdimensions : setup.dimensions a = setup.dimensions b) : a = b := by
  cases a <;> cases b <;>
    simp_all [MetricCombo.family, MetricSetup.dimensions, asStr_publishMode.eq_iff,
      asStr_verb.eq_iff, asStr_result.eq_iff]

/-- An emission is of the row it was made from, and of no other. -/
theorem isRow_emitCombo (combo : MetricCombo) (now : Bool) (row : MetricCombo × MetricValues) :
    IsRow setup combo (emitCombo setup now row) ↔ row.1 = combo := by
  constructor
  · rintro ⟨hname, hdimensions⟩
    exact combo_eq hname hdimensions
  · rintro rfl
    exact ⟨rfl, rfl⟩

/-- What the values of a row say of a counter. -/
def reportOf (stem : String) (v : MetricValues) : ℕ × ℕ :=
  ((pairOf stem v.counters).total, (pairOf stem v.counters).interval)

/-- The reports on a counter are those of its own rows. -/
theorem reportsOf_rows (combo : MetricCombo) (stem : String) (now : Bool)
    (rows : List (MetricCombo × MetricValues)) :
    reportsOf setup combo stem (rows.map (emitCombo setup now)) =
      (outputsOf combo rows).map (reportOf stem) := by
  induction rows with
  | nil => rfl
  | cons row rows ih =>
      unfold reportsOf outputsOf at ih ⊢
      rw [List.map_cons, List.filter_cons, List.filterMap_cons]
      by_cases hrow : row.1 = combo
      · have his : IsRow setup combo (emitCombo setup now row) :=
          (isRow_emitCombo combo now row).mpr hrow
        simp only [his, hrow, decide_true, if_true, List.map_cons, ih]
        rfl
      · have his : ¬IsRow setup combo (emitCombo setup now row) := by
          rwa [isRow_emitCombo]
        simp only [his, hrow, decide_false, if_false, Bool.false_eq_true, ih]

/-- Rows of one family are found under their keys. -/
theorem outputsOf_named {κ : Type} [DecidableEq κ] {name : κ → MetricCombo}
    (hname : Function.Injective name) (rows : List (κ × MetricValues)) (k : κ) :
    outputsOf (name k) (rows.map fun row => (name row.1, row.2)) = outputsOf k rows := by
  unfold outputsOf
  rw [List.filterMap_map]
  congr 1
  funext row
  simp only [Function.comp_apply, hname.eq_iff]

/-- Rows of other families are not. -/
theorem outputsOf_eq_nil {combo : MetricCombo} {rows : List (MetricCombo × MetricValues)}
    (h : ∀ row ∈ rows, row.1 ≠ combo) : outputsOf combo rows = [] := by
  apply List.filterMap_eq_nil_iff.mpr
  intro row hrow
  rw [if_neg (h row hrow)]

/-! ## A part of an emission -/

/-- What a part of an emission does to a row: it drains it, it does not touch it, or the row has no
counters. -/
inductive RowStep (before after : List (String × Pair)) (shown : List MetricValues) : Prop where
  | drained (v : MetricValues) (hshown : shown = [v]) (hcounters : v.counters = before)
      (hafter : after = settled before)
  | untouched (hshown : shown = []) (hafter : after = before)
  | bare (hshown : ∀ v ∈ shown, v.counters = []) (hbefore : before = []) (hafter : after = [])

/-- A pass over a family drains each of its rows once. -/
theorem rowStep_pass {κ σ : Type} [DecidableEq κ] [Inhabited σ]
    {counters : σ → List (String × Pair)} {drain : σ → σ × MetricValues}
    (hsettles : SettledDrain counters drain) (name : κ → String × String)
    (m : AList (fun _ : κ => σ)) (k : κ) :
    RowStep (counters (entry m k)) (counters (entry (drainRows name drain m).1 k))
      (outputsOf k (drainRows name drain m).2) := by
  have hat := drainRows_at name drain m k
  by_cases hmem : k ∈ m
  · rw [if_pos hmem] at hat
    obtain ⟨hafter, hshown⟩ := Prod.mk.inj hat
    rw [hafter, hshown]
    exact .drained _ rfl (hsettles.shown _) (hsettles.after _)
  · rw [if_neg hmem] at hat
    obtain ⟨hafter, hshown⟩ := Prod.mk.inj hat
    rw [hafter, hshown]
    exact .untouched rfl rfl

/-- The names that the rows of a map have. -/
theorem publish_injective : Function.Injective MetricCombo.publish := by
  intro a b h
  cases h
  rfl

/-- The command rows are named by verb and result. -/
theorem command_injective :
    Function.Injective fun k : CommandVerb × MetricResult => MetricCombo.command k.1 k.2 := by
  rintro ⟨verb, result⟩ ⟨verb', result'⟩ h
  cases h
  rfl

/-- The poll rows are named by group and result. -/
theorem poll_injective :
    Function.Injective fun k : String × MetricResult => MetricCombo.poll k.1 k.2 := by
  rintro ⟨group, result⟩ ⟨group', result'⟩ h
  cases h
  rfl

/-- The part of an emission that a row belongs to. -/
def partOf : MetricCombo → EmitPart
  | .health => .health
  | .connection => .connection
  | .inventory _ => .inventory
  | .poll _ _ => .poll
  | .publish _ => .publish
  | .command _ _ => .command
  | .io => .io

/-- A part of the emission drains the rows of that part. -/
theorem partOf_collect {s : MetricState} {now : Instant} {part : EmitPart}
    {row : MetricCombo × MetricValues} (h : row ∈ (s.collect setup now part).2) :
    partOf row.1 = part := by
  cases part with
  | health =>
      rw [List.mem_singleton.mp h]
      rfl
  | connection =>
      rw [List.mem_singleton.mp h]
      rfl
  | io =>
      rw [List.mem_singleton.mp h]
      rfl
  | inventory | publish | command | poll =>
      obtain ⟨source, -, rfl⟩ := List.mem_map.mp h
      rfl

/-- And leaves the counters of the others. -/
theorem rowCounters_collect {s : MetricState} {now : Instant} {part : EmitPart}
    {combo : MetricCombo} (h : partOf combo ≠ part) :
    rowCounters (s.collect setup now part).1 combo = rowCounters s combo := by
  cases part <;> cases combo <;> first | rfl | exact absurd rfl h

/-- So each part drains a row once or leaves it. -/
theorem collect_rowStep (s : MetricState) (now : Instant) (part : EmitPart)
    (combo : MetricCombo) :
    RowStep (rowCounters s combo) (rowCounters (s.collect setup now part).1 combo)
      (outputsOf combo (s.collect setup now part).2) := by
  by_cases hpart : partOf combo = part
  · subst hpart
    cases combo with
    | health => exact .bare (by simp [outputsOf, partOf, MetricState.collect, drainHealth]) rfl rfl
    | connection => exact .drained _ rfl ((settles_conn now).shown _) ((settles_conn now).after _)
    | io => exact .drained _ rfl (settles_io.shown _) (settles_io.after _)
    | inventory group =>
        refine .bare ?_ rfl rfl
        intro v hv
        obtain ⟨row, hrow, hsome⟩ := List.mem_filterMap.mp hv
        obtain ⟨inventoryRow, -, rfl⟩ := List.mem_map.mp hrow
        split at hsome
        · cases hsome
          rfl
        · cases hsome
    | publish mode =>
        have hpass := rowStep_pass settles_publish (fun mode => (mode.asStr, "")) s.publish mode
        rw [← outputsOf_named publish_injective] at hpass
        exact hpass
    | command verb result =>
        have hpass := rowStep_pass settles_command (fun k => (k.1.asStr, k.2.asStr)) s.command
          (verb, result)
        rw [← outputsOf_named command_injective] at hpass
        exact hpass
    | poll group result =>
        have hpass := rowStep_pass settles_poll (fun k => (k.1, k.2.asStr)) s.poll
          (group, result)
        rw [← outputsOf_named poll_injective] at hpass
        exact hpass
  · refine .untouched ?_ (rowCounters_collect hpart)
    apply outputsOf_eq_nil
    intro row hrow heq
    rw [← heq] at hpart
    exact hpart (partOf_collect hrow)

/-! ## The ledger of a counter -/

/-- A row that is drained posts what it counted. -/
theorem posted_rowStep {before after : List (String × Pair)} {shown : List MetricValues}
    (h : RowStep before after shown) {reports : List (ℕ × ℕ)} {stem : String}
    (hposted : Posted reports (pairOf stem before).total (pairOf stem before).interval) :
    Posted (reports ++ shown.map (reportOf stem))
      (pairOf stem after).total (pairOf stem after).interval := by
  cases h with
  | drained v hshown hcounters hafter =>
      rw [hshown, hafter, pairOf_settled]
      show Posted (reports ++ [reportOf stem v]) _ 0
      rw [reportOf, hcounters]
      exact hposted.report
  | untouched hshown hafter =>
      rw [hshown, hafter]
      simpa using hposted
  | bare hshown hbefore hafter =>
      rw [hbefore] at hposted
      rw [hafter]
      apply Posted.zeros hposted
      intro r hr
      obtain ⟨v, hv, rfl⟩ := List.mem_map.mp hr
      rw [reportOf, hshown v hv]
      rfl

/-- The reports of two lists of emissions follow one another. -/
theorem reportsOf_append (combo : MetricCombo) (stem : String) (es es' : List Emission) :
    reportsOf setup combo stem (es ++ es') =
      reportsOf setup combo stem es ++ reportsOf setup combo stem es' := by
  unfold reportsOf
  rw [List.filter_append, List.map_append]

end EnipAdapter.Analysis
