import EnipAdapter.Foundation.Refuse
import EnipAdapter.Foundation.Runs
import EnipAdapter.Interface.RenewalContract
import EnipAdapter.Interface.VaultContract

/-!
# When a renewal reaches the session

The watcher keeps the fingerprint of its last observation, and the first one is only a baseline.
So a tick rotates exactly when there is a baseline and the vault, read back after the tick's own
enrollment, has another fingerprint. An enrollment on the first successful read of a task
becomes the baseline itself and nobody is told.
-/

set_option autoImplicit false

namespace EnipAdapter.Analysis

open EnipAdapter.Foundation EnipAdapter.Model EnipAdapter.Interface

/-! ## Effects -/

/-- Effects that neither reconnect nor announce a rotation. -/
structure NoRotation (effects : List LifecycleEffect) : Prop where
  reconnects : reconnects effects = 0
  announces : announces "cert-rotated" effects = false

section Effects

variable {V : Type} (plan : LifecyclePlan)

/-- The reconnects add up. -/
theorem reconnects_append (effects more : List LifecycleEffect) :
    reconnects (effects ++ more) = reconnects effects + reconnects more :=
  List.countP_append

/-- Either of two effects announces what both do. -/
theorem announces_append (kind : String) (effects more : List LifecycleEffect) :
    announces kind (effects ++ more) = (announces kind effects || announces kind more) :=
  List.any_append

/-- An enrollment attempt is no rotation. -/
theorem quiet_enrollEffects (a : EnrollAttempt V) :
    NoRotation (SecurityLifecycle.enrollEffects plan a) := by
  cases a with
  | idle => exact ⟨rfl, rfl⟩
  | failed err creds => exact ⟨rfl, rfl⟩
  | succeeded reenroll outcome creds => exact ⟨rfl, rfl⟩

/-- Neither is a new number of days. -/
theorem quiet_expiryDaysSet (days : Option ℤ) :
    NoRotation (days.map LifecycleEffect.expiryDaysSet).toList := by
  cases days with
  | none => exact ⟨rfl, rfl⟩
  | some d => exact ⟨rfl, rfl⟩

/-- Neither is an action about the expiry. -/
theorem quiet_expiryActions (controlOpen : Bool) (c : ClientCertInfo) (next : ExpiryState) :
    NoRotation (SecurityLifecycle.actionEffects plan controlOpen
      (CertWatcher.expiryActions c next)).1 := by
  cases next with
  | unknown => exact ⟨rfl, rfl⟩
  | ok => exact ⟨rfl, rfl⟩
  | expiring => exact ⟨rfl, rfl⟩
  | expired => exact ⟨rfl, rfl⟩

/-- The effects of one rotation and quiet actions after it. -/
theorem rotated_effects (controlOpen : Bool) (serial notAfter : Option String)
    {rest : List WatchAction}
    (hrest : NoRotation (SecurityLifecycle.actionEffects plan controlOpen rest).1) :
    reconnects (SecurityLifecycle.actionEffects plan controlOpen
        (.rotated serial notAfter :: rest)).1 = controlOpen.toNat ∧
      announces "cert-rotated" (SecurityLifecycle.actionEffects plan controlOpen
        (.rotated serial notAfter :: rest)).1 = true := by
  cases controlOpen with
  | false => exact ⟨rfl, rfl⟩
  | true =>
    simp only [SecurityLifecycle.actionEffects, if_true]
    refine ⟨?_, rfl⟩
    rw [reconnects_append]
    have hcons : reconnects (.reconnect ::
        (SecurityLifecycle.actionEffects plan true rest).1) =
          reconnects (SecurityLifecycle.actionEffects plan true rest).1 + 1 :=
      List.countP_cons_of_pos rfl
    rw [hcons, hrest.reconnects]
    rfl

end Effects

/-! ## The watcher -/

section Watcher

/-- The watcher reports a rotation. -/
def Rotates (w : CertWatcher) (state : Rotation.ReloadState) : Prop :=
  ∃ prev, w.lastFingerprint = some prev ∧ prev ≠ state.fingerprint

/-- Where nothing rotates, none is reported. -/
theorem rotation_of_not {w : CertWatcher} {state : Rotation.ReloadState} (h : ¬Rotates w state) :
    w.rotation state = [] := by
  unfold CertWatcher.rotation
  split
  · rfl
  · rename_i prev hprev
    rw [if_neg fun hne => h ⟨prev, hprev, hne⟩]

/-- A rotation is reported once. -/
theorem rotation_of {w : CertWatcher} {state : Rotation.ReloadState} (h : Rotates w state) :
    ∃ serial notAfter, w.rotation state = [.rotated serial notAfter] := by
  obtain ⟨prev, hprev, hne⟩ := h
  refine ⟨state.client.bind (·.serial), state.client.bind (·.notAfter), ?_⟩
  simp only [CertWatcher.rotation, hprev, if_pos hne]

/-- An observation becomes the baseline, and its actions are the rotation and then at most a
warning about expiry. -/
theorem observe_spec (plan : LifecyclePlan) (controlOpen : Bool) (w : CertWatcher)
    (state : Rotation.ReloadState) (renewBeforeDays : ℤ) :
    (w.observe state renewBeforeDays).1.lastFingerprint = some state.fingerprint ∧
      ∃ rest, (w.observe state renewBeforeDays).2.actions = w.rotation state ++ rest ∧
        NoRotation (SecurityLifecycle.actionEffects plan controlOpen rest).1 := by
  unfold CertWatcher.observe
  simp only
  split
  · exact ⟨rfl, [], (List.append_nil _).symm, ⟨rfl, rfl⟩⟩
  · rename_i c _
    split
    · exact ⟨rfl, _, rfl, quiet_expiryActions plan controlOpen c _⟩
    · exact ⟨rfl, [], (List.append_nil _).symm, ⟨rfl, rfl⟩⟩

end Watcher

/-! ## One tick -/

section Tick

variable {V : Type} {p : TlsPlatform V} {plan : LifecyclePlan} {s : SecurityLifecycle}
  {i : TickInput V}

/-- The enrollment leaves the watcher and what was observed. -/
theorem enrollPhase_keeps :
    (s.enrollPhase p plan i).watcher = s.watcher ∧
      (s.enrollPhase p plan i).observed = s.observed := by
  unfold SecurityLifecycle.enrollPhase
  split <;> exact ⟨rfl, rfl⟩

/-- The effects of a tick are those of its watch, but for quiet ones. -/
theorem tick_effects (hreturned : s.returned = false) :
    reconnects (s.tick p plan i).2 = reconnects
        ((s.enrollPhase p plan i).watchPhase plan i (s.reread p plan i)).2 ∧
      announces "cert-rotated" (s.tick p plan i).2 = announces "cert-rotated"
        ((s.enrollPhase p plan i).watchPhase plan i (s.reread p plan i)).2 := by
  have hquiet := quiet_enrollEffects plan (s.attempt p plan i)
  unfold SecurityLifecycle.tick
  rw [hreturned]
  simp only [Bool.false_eq_true, if_false]
  rw [reconnects_append, announces_append, hquiet.reconnects, hquiet.announces, Nat.zero_add,
    Bool.false_or]
  exact ⟨rfl, rfl⟩

/-- A tick whose read fails does nothing. -/
theorem tick_unread (hreturned : s.returned = false) {e : String}
    (hread : s.reread p plan i = .error e) : reconnects (s.tick p plan i).2 = 0 := by
  rw [(tick_effects hreturned).1, hread]
  rfl

/-- The effects of a watch of what was read. -/
theorem watchPhase_effects (plan : LifecyclePlan) (t : SecurityLifecycle) (i : TickInput V)
    (material : SessionMaterial) (state : Rotation.ReloadState) :
    ∃ rest, NoRotation (SecurityLifecycle.actionEffects plan i.controlOpen rest).1 ∧
      reconnects (t.watchPhase plan i (.ok (material, state))).2 =
        reconnects (SecurityLifecycle.actionEffects plan i.controlOpen
          (t.watcher.rotation state ++ rest)).1 ∧
      announces "cert-rotated" (t.watchPhase plan i (.ok (material, state))).2 =
        announces "cert-rotated" (SecurityLifecycle.actionEffects plan i.controlOpen
          (t.watcher.rotation state ++ rest)).1 := by
  obtain ⟨-, rest, hactions, hrest⟩ :=
    observe_spec plan i.controlOpen t.watcher state plan.renewBeforeDays
  have hdays := quiet_expiryDaysSet (t.watcher.observe state plan.renewBeforeDays).2.expiryDays
  refine ⟨rest, hrest, ?_, ?_⟩
  · simp only [SecurityLifecycle.watchPhase, hactions]
    rw [reconnects_append, hdays.reconnects, Nat.zero_add]
  · simp only [SecurityLifecycle.watchPhase, hactions]
    rw [announces_append, hdays.announces, Bool.false_or]

/-- A tick that sees a rotation announces it, and reconnects if anybody receives. -/
theorem tick_rotates (hreturned : s.returned = false) {material : SessionMaterial}
    {state : Rotation.ReloadState} (hread : s.reread p plan i = .ok (material, state))
    (hrotates : Rotates s.watcher state) :
    reconnects (s.tick p plan i).2 = i.controlOpen.toNat ∧
      announces "cert-rotated" (s.tick p plan i).2 = true := by
  obtain ⟨rest, hrest, hreconnects, hannounces⟩ :=
    watchPhase_effects plan (s.enrollPhase p plan i) i material state
  rw [enrollPhase_keeps.1] at hreconnects hannounces
  obtain ⟨serial, notAfter, hrotation⟩ := rotation_of hrotates
  rw [(tick_effects hreturned).1, (tick_effects hreturned).2, hread, hreconnects, hannounces,
    hrotation]
  exact rotated_effects plan i.controlOpen serial notAfter hrest

/-- A tick that sees none does neither. -/
theorem tick_steady (hreturned : s.returned = false) {material : SessionMaterial}
    {state : Rotation.ReloadState} (hread : s.reread p plan i = .ok (material, state))
    (hrotates : ¬Rotates s.watcher state) : reconnects (s.tick p plan i).2 = 0 := by
  obtain ⟨rest, hrest, hreconnects, -⟩ :=
    watchPhase_effects plan (s.enrollPhase p plan i) i material state
  rw [enrollPhase_keeps.1] at hreconnects
  rw [(tick_effects hreturned).1, hread, hreconnects, rotation_of_not hrotates]
  exact hrest.reconnects

/-- What is read is what was observed. -/
theorem step_observed (hreturned : s.returned = false) {material : SessionMaterial}
    {state : Rotation.ReloadState} (hread : s.reread p plan i = .ok (material, state)) :
    (s.step p plan i).observed = some material := by
  simp only [SecurityLifecycle.step, SecurityLifecycle.tick, hreturned, hread]
  rfl

/-- A tick without an enrollment does not count as an attempt. -/
theorem step_estLastAttempt (hreturned : s.returned = false)
    (hidle : s.attempt p plan i = .idle) :
    (s.step p plan i).estLastAttempt = s.estLastAttempt := by
  have henroll : s.enrollPhase p plan i = s := by
    unfold SecurityLifecycle.enrollPhase
    rw [hidle]
    split
    · rfl
    · rfl
    · rename_i hother
      exact absurd rfl hother
  have hwatch : ∀ read, (s.watchPhase plan i read).1.estLastAttempt = s.estLastAttempt := by
    rintro (e | ⟨material, state⟩)
    · rfl
    · rfl
  simp only [SecurityLifecycle.step, SecurityLifecycle.tick, hreturned, henroll]
  exact hwatch _

/-! ## The invariant -/

/-- The watcher's baseline is the fingerprint of what was observed last. -/
def BaselineObserved (p : TlsPlatform V) (s : SecurityLifecycle) : Prop :=
  s.watcher.lastFingerprint =
    s.observed.map fun material => p.fingerprint material.certPem material.caPems

/-- When a read succeeds, and with what. -/
theorem reread_eq_ok_iff {material : SessionMaterial} {state : Rotation.ReloadState} :
    s.reread p plan i = .ok (material, state) ↔
      VaultHolds p plan s i material ∧ ∃ client, clientFacts p material.certPem i.now = .ok client ∧
        state = ⟨p.fingerprint material.certPem material.caPems, client⟩ := by
  unfold SecurityLifecycle.reread
  cases hup : i.outage with
  | some e =>
    refine ⟨fun hread => ?_, fun hholds => ?_⟩
    · cases hread
    · have hnone := hholds.1.up
      rw [hup] at hnone
      cases hnone
  | none =>
    constructor
    · intro hread
      obtain ⟨m, hmaterial, hread⟩ := bind_ok.mp hread
      obtain ⟨st, hsummary, hread⟩ := bind_ok.mp hread
      cases hread
      obtain ⟨client, hclient, hsummary⟩ := bind_ok.mp hsummary
      cases hsummary
      exact ⟨⟨hup, hmaterial, client, hclient⟩, client, hclient, rfl⟩
    · rintro ⟨⟨-, hmaterial, -⟩, client, hclient, rfl⟩
      refine bind_ok.mpr ⟨material, hmaterial, bind_ok.mpr ⟨_, ?_, rfl⟩⟩
      exact bind_ok.mpr ⟨client, hclient, rfl⟩

/-- What a read finds is summarised under its own fingerprint. -/
theorem reread_fingerprint {material : SessionMaterial} {state : Rotation.ReloadState}
    (hread : s.reread p plan i = .ok (material, state)) :
    state.fingerprint = p.fingerprint material.certPem material.caPems := by
  obtain ⟨-, client, -, rfl⟩ := reread_eq_ok_iff.mp hread
  rfl

/-- A read succeeds with the material that the vault holds. -/
theorem reread_ok_iff {material : SessionMaterial} :
    (∃ state, s.reread p plan i = .ok (material, state)) ↔ VaultHolds p plan s i material := by
  constructor
  · rintro ⟨state, hread⟩
    exact (reread_eq_ok_iff.mp hread).1
  · intro hholds
    obtain ⟨client, hclient⟩ := hholds.parses
    exact ⟨_, reread_eq_ok_iff.mpr ⟨hholds, client, hclient, rfl⟩⟩

/-- The driver starts without a baseline. -/
theorem baselineObserved_start (p : TlsPlatform V) (plan : LifecyclePlan) :
    BaselineObserved p (SecurityLifecycle.start plan) := rfl

/-- Every tick keeps the baseline one that was observed. -/
theorem BaselineObserved.step (h : BaselineObserved p s) :
    BaselineObserved p (s.step p plan i) := by
  unfold SecurityLifecycle.step SecurityLifecycle.tick
  split
  · exact h
  · cases hread : s.reread p plan i with
    | error e =>
      show (s.enrollPhase p plan i).watcher.lastFingerprint = _
      rw [enrollPhase_keeps.1]
      show _ = (s.enrollPhase p plan i).observed.map _
      rw [enrollPhase_keeps.2]
      exact h
    | ok found =>
      obtain ⟨material, state⟩ := found
      show ((s.enrollPhase p plan i).watcher.observe state plan.renewBeforeDays).1.lastFingerprint
        = some (p.fingerprint material.certPem material.caPems)
      rw [← reread_fingerprint hread]
      exact (observe_spec plan i.controlOpen _ state plan.renewBeforeDays).1

/-- Where fingerprints distinguish, a rotation is a change of what is observed. -/
theorem rotates_iff (h : BaselineObserved p s) (hdistinct : FingerprintsDistinguish p plan s i)
    {material : SessionMaterial} {state : Rotation.ReloadState}
    (hread : s.reread p plan i = .ok (material, state)) :
    Rotates s.watcher state ↔ ∃ prev, s.observed = some prev ∧ prev ≠ material := by
  rw [Rotates, h, reread_fingerprint hread]
  constructor
  · rintro ⟨fp, hprev, hne⟩
    obtain ⟨prev, hobserved, rfl⟩ := Option.map_eq_some_iff.mp hprev
    refine ⟨prev, hobserved, fun heq => hne ?_⟩
    rw [heq]
  · rintro ⟨prev, hobserved, hne⟩
    refine ⟨_, Option.map_eq_some_iff.mpr ⟨prev, hobserved, rfl⟩, fun heq => hne ?_⟩
    exact hdistinct prev material ⟨hobserved, reread_ok_iff.mp ⟨state, hread⟩⟩ heq

/-- A tick reconnects exactly when it observes a change and somebody receives. -/
theorem reconnects_iff (h : BaselineObserved p s) (hdistinct : FingerprintsDistinguish p plan s i)
    (hreturned : s.returned = false) :
    0 < reconnects (s.tick p plan i).2 ↔
      i.controlOpen = true ∧ ∃ prev material, Observes p plan s i prev material ∧
        prev ≠ material := by
  cases hread : s.reread p plan i with
  | error e =>
    rw [tick_unread hreturned hread]
    refine ⟨fun hlt => absurd hlt (Nat.lt_irrefl 0), ?_⟩
    rintro ⟨-, prev, material, ⟨-, hholds⟩, -⟩
    obtain ⟨state, hfound⟩ := reread_ok_iff.mpr hholds
    rw [hread] at hfound
    cases hfound
  | ok found =>
    obtain ⟨material, state⟩ := found
    by_cases hrotates : Rotates s.watcher state
    · rw [(tick_rotates hreturned hread hrotates).1]
      obtain ⟨prev, hobserved, hne⟩ := (rotates_iff h hdistinct hread).mp hrotates
      constructor
      · intro hlt
        have hopen : i.controlOpen = true := by
          cases hcontrol : i.controlOpen with
          | true => rfl
          | false =>
            rw [hcontrol] at hlt
            exact absurd hlt (Nat.lt_irrefl 0)
        exact ⟨hopen, prev, material, ⟨hobserved, reread_ok_iff.mp ⟨state, hread⟩⟩, hne⟩
      · rintro ⟨hopen, -⟩
        rw [hopen]
        exact Nat.one_pos
    · rw [tick_steady hreturned hread hrotates]
      refine ⟨fun hlt => absurd hlt (Nat.lt_irrefl 0), ?_⟩
      rintro ⟨-, prev, material', ⟨hobserved, hholds⟩, hne⟩
      obtain ⟨state', hfound⟩ := reread_ok_iff.mpr hholds
      rw [hread] at hfound
      cases hfound
      exact absurd ((rotates_iff h hdistinct hread).mpr ⟨prev, hobserved, hne⟩) hrotates

/-- A tick that reconnects does so once, and announces the rotation. -/
theorem reconnects_once (hreturned : s.returned = false)
    (hlt : 0 < reconnects (s.tick p plan i).2) :
    announces "cert-rotated" (s.tick p plan i).2 = true ∧
      reconnects (s.tick p plan i).2 = 1 := by
  cases hread : s.reread p plan i with
  | error e =>
    rw [tick_unread hreturned hread] at hlt
    exact absurd hlt (Nat.lt_irrefl 0)
  | ok found =>
    obtain ⟨material, state⟩ := found
    by_cases hrotates : Rotates s.watcher state
    · obtain ⟨hcount, hannounced⟩ := tick_rotates hreturned hread hrotates
      rw [hcount] at hlt ⊢
      refine ⟨hannounced, ?_⟩
      have hle := Bool.toNat_le i.controlOpen
      omega
    · rw [tick_steady hreturned hread hrotates] at hlt
      exact absurd hlt (Nat.lt_irrefl 0)

/-- Material that differs is not the same. -/
theorem materialDiffers_ne {prev material : SessionMaterial}
    (h : MaterialDiffers prev material) : prev ≠ material := by
  rintro rfl
  obtain hcert | hcas := h
  · exact hcert rfl
  · exact hcas fun _ => Iff.rfl

/-- A tick that enrolls keeps its promise exactly under the condition. -/
theorem renewal_applies_iff (h : BaselineObserved p s)
    (hdistinct : FingerprintsDistinguish p plan s i) (henrolls : Enrolls p plan s i) :
    TickApplies p plan s i ↔ RenewalObserved p plan s i := by
  constructor
  · intro happlies
    refine ⟨fun hreturned _ => ?_, fun _ hnot => absurd henrolls hnot⟩
    obtain ⟨-, hone⟩ := happlies.renewal hreturned henrolls
    exact (reconnects_iff h hdistinct hreturned).mp (by omega)
  · intro hcondition
    refine ⟨fun hreturned _ => ?_, fun _ hnot => absurd henrolls hnot⟩
    have hlt := (reconnects_iff h hdistinct hreturned).mpr
      (hcondition.renewal hreturned henrolls)
    exact reconnects_once hreturned hlt

/-- The condition is enough on every tick. -/
theorem tickApplies_of (h : BaselineObserved p s) (hdistinct : FingerprintsDistinguish p plan s i)
    (hcondition : RenewalObserved p plan s i) : TickApplies p plan s i := by
  by_cases henrolls : Enrolls p plan s i
  · exact (renewal_applies_iff h hdistinct henrolls).mpr hcondition
  · refine ⟨fun _ hyes => absurd hyes henrolls, fun hreturned _ => ?_⟩
    rw [reconnects_iff h hdistinct hreturned]
    constructor
    · rintro ⟨-, prev, material, hobserves, hne⟩
      exact ⟨prev, material, hobserves,
        (hcondition.watch hreturned henrolls prev material hobserves hne).2⟩
    · rintro ⟨prev, material, hobserves, hdiffers⟩
      have hne := materialDiffers_ne hdiffers
      exact ⟨(hcondition.watch hreturned henrolls prev material hobserves hne).1, prev, material,
        hobserves, hne⟩

end Tick

/-! ## Every run -/

/-- In every run in which different material has different fingerprints: where every tick meets
the condition, every tick keeps its promise; and a tick that enrolls keeps it exactly under the
condition. -/
theorem renewal_reaches_session {V : Type} (p : TlsPlatform V) (plan : LifecyclePlan)
    (inputs : List (TickInput V))
    (hdistinct : Guarded (SecurityLifecycle.step p plan) (FingerprintsDistinguish p plan)
      (.start plan) inputs) :
    (Guarded (SecurityLifecycle.step p plan) (RenewalObserved p plan) (.start plan) inputs →
      Guarded (SecurityLifecycle.step p plan) (TickApplies p plan) (.start plan) inputs) ∧
    Guarded (SecurityLifecycle.step p plan)
      (fun s i => Enrolls p plan s i → (TickApplies p plan s i ↔ RenewalObserved p plan s i))
      (.start plan) inputs := by
  have hstart := baselineObserved_start p plan
  constructor
  · intro hcondition
    refine guarded_of_invariant (BaselineObserved p) (fun s i hbaseline _ => hbaseline.step) ?_
      hstart (guarded_and hdistinct hcondition)
    intro s i hbaseline h
    exact tickApplies_of hbaseline h.1 h.2
  · refine guarded_of_invariant (BaselineObserved p) (fun s i hbaseline _ => hbaseline.step) ?_
      hstart hdistinct
    intro s i hbaseline h henrolls
    exact renewal_applies_iff hbaseline h henrolls

/-- A TLS instance that enrolls its bundle. -/
def renewalSec : SecurityConfig where
  mode := .tls
  client := some { certSecret := some "ot/originator" }
  reloadIntervalSecs := some 1
  est := some { enabled := true, server := some "https://est.plant.example/.well-known/est" }

def renewalPlan : LifecyclePlan where
  id := "plc-1"
  endpoint := "127.0.0.1:2221"
  sec := renewalSec
  est := renewalSec.est
  estRenewDays := 30
  estBackoff := Duration.fromSecs 3600
  tickSecs := 1
  renewBeforeDays := 30

/-- A vault with the old identity, whose certificate ends on day 10. -/
def renewalVault : List (String × Bytes) :=
  [("ot/originator", bundleBytes (certText "old") (keyText "old"))]

/-- A tick on some day, with an EST server that issues the new certificate. -/
def tickOn (day : ℤ) (instant : Instant) : TickInput (List (String × Bytes)) where
  creds := some renewalVault
  now := days day
  instant := instant
  exchange :=
    { prepared := .ok ()
      issued := .ok ⟨certText "new", keyText "new", none, none, 1⟩
      firstPut := .ok ()
      secondPut := .ok () }
  outage := none
  controlOpen := true

/-- What the instance reads is the bundle's certificate. -/
theorem readMaterial_bundle {cert key : String} (v : List (String × Bytes))
    (hparse : parseBundle (bundleBytes cert key) = some (cert, key)) :
    readMaterial listPlatform renewalSec (some (("ot/originator", bundleBytes cert key) :: v)) =
      .ok ⟨some cert, []⟩ := by
  have hbundle : listPlatform.getTlsBundle (("ot/originator", bundleBytes cert key) :: v)
      "ot/originator" = .ok (some ⟨cert, key, none⟩) :=
    listPlatform_getTlsBundle List.lookup_cons_self hparse
  have hsource : sourceClientMaterial listPlatform renewalSec.client
      (some (("ot/originator", bundleBytes cert key) :: v)) =
        .ok ⟨some cert, some key, none⟩ := by
    simp only [sourceClientMaterial, renewalSec, hbundle]
  simp only [readMaterial, hsource]
  rfl

/-- The facts of a client with this certificate are those of its first block. -/
theorem clientFacts_cert {cert : String} {der : Bytes} (hder : derOf cert = [der])
    (now : OffsetDateTime) :
    clientFacts listPlatform (some cert) now =
      .ok (some (clientCertInfo listPlatform now der)) := by
  have hcerts : listPlatform.pemCerts cert = .ok [der] := congrArg Except.ok hder
  simp only [clientFacts, certsFromPem, hcerts]
  rfl

/-- The days left of the old certificate. -/
theorem currentDays_old (day : ℤ) (instant : Instant) :
    SecurityLifecycle.currentDays listPlatform renewalPlan (tickOn day instant) =
      (some (daysUntil (days 10) (days day))).filter (· ≠ noExpiryDays) := by
  have hread : readMaterial listPlatform renewalPlan.sec (tickOn day instant).creds =
      .ok ⟨some (certText "old"), []⟩ := readMaterial_bundle [] parseBundle_old
  have hclient := clientFacts_cert derOf_old (tickOn day instant).now
  have hreload : readReloadState listPlatform renewalPlan.sec (tickOn day instant).creds
      (tickOn day instant).now = .ok ⟨listPlatform.fingerprint (some (certText "old")) [],
        some (clientCertInfo listPlatform (days day) [0x30, 0x01])⟩ :=
    bind_ok.mpr ⟨_, hread, bind_ok.mpr ⟨_, hclient, rfl⟩⟩
  rw [SecurityLifecycle.currentDays, hreload]
  rfl

/-- Four hundred days before its end the certificate is not due. -/
theorem attempt_early (s : SecurityLifecycle) :
    s.attempt listPlatform renewalPlan (tickOn (-390) 0) = .idle := by
  have hdays : SecurityLifecycle.currentDays listPlatform renewalPlan (tickOn (-390) 0) =
      some 400 := by
    rw [currentDays_old]
    decide
  have hdecide : ∀ since backoff, EstScheduler.decide (some 400) 30 since backoff = .idle := by
    intro since backoff
    unfold EstScheduler.decide
    split
    · rfl
    · rfl
  simp only [SecurityLifecycle.attempt, renewalPlan, renewalSec] at hdays ⊢
  rw [hdays, hdecide]

/-- Five days before its end it is, and the enrollment succeeds. -/
theorem attempt_due {s : SecurityLifecycle} (hlast : s.estLastAttempt = none) :
    s.attempt listPlatform renewalPlan (tickOn 5 0) =
      .succeeded true ⟨none, none, "ot/originator", 1⟩
        (some (("ot/originator", bundleBytes (certText "new") (keyText "new")) ::
          renewalVault)) := by
  have hdays : SecurityLifecycle.currentDays listPlatform renewalPlan (tickOn 5 0) = some 5 := by
    rw [currentDays_old]
    decide
  simp only [SecurityLifecycle.attempt, renewalPlan, renewalSec] at hdays ⊢
  rw [hdays, hlast]
  rfl

/-- A vault with one of the certificates holds it for the watcher. -/
theorem vaultHolds_cert {s : SecurityLifecycle} {i : TickInput (List (String × Bytes))}
    {cert key : String} {der : Bytes} {v : List (String × Bytes)} (hup : i.outage = none)
    (hcreds : (s.attempt listPlatform renewalPlan i).credsAfter i.creds =
      some (("ot/originator", bundleBytes cert key) :: v))
    (hparse : parseBundle (bundleBytes cert key) = some (cert, key))
    (hder : derOf cert = [der]) : VaultHolds listPlatform renewalPlan s i ⟨some cert, []⟩ where
  up := hup
  read := by
    rw [hcreds]
    exact readMaterial_bundle v hparse
  parses := ⟨_, clientFacts_cert hder i.now⟩

/-- The task after a first tick on which nothing was due. -/
def watchingOld : SecurityLifecycle :=
  SecurityLifecycle.step listPlatform renewalPlan (.start renewalPlan) (tickOn (-390) 0)

/-- The driver has observed the old certificate. -/
theorem watchingOld_observed : watchingOld.observed = some ⟨some (certText "old"), []⟩ := by
  have hholds : VaultHolds listPlatform renewalPlan (.start renewalPlan) (tickOn (-390) 0)
      ⟨some (certText "old"), []⟩ := by
    refine vaultHolds_cert (v := []) rfl ?_ parseBundle_old derOf_old
    rw [attempt_early]
    rfl
  obtain ⟨state, hread⟩ := reread_ok_iff.mpr hholds
  exact step_observed rfl hread

/-- And attempted no enrollment. -/
theorem watchingOld_estLastAttempt : watchingOld.estLastAttempt = none :=
  step_estLastAttempt rfl (attempt_early _)

/-- What a tick that enrolls reads back is the new certificate. -/
theorem vaultHolds_new {s : SecurityLifecycle} (hlast : s.estLastAttempt = none) :
    VaultHolds listPlatform renewalPlan s (tickOn 5 0) ⟨some (certText "new"), []⟩ := by
  refine vaultHolds_cert (v := renewalVault) rfl ?_ parseBundle_new derOf_new
  rw [attempt_due hlast]
  rfl

/-- The fingerprints of the two certificates differ. -/
theorem fingerprint_old_ne_new : listPlatform.fingerprint (some (certText "old")) [] ≠
    listPlatform.fingerprint (some (certText "new")) [] := by
  simp only [listPlatform, Option.toList_some, List.append_nil, List.flatMap_singleton, derOf_old,
    derOf_new]
  decide

/-- A renewal on the second tick reaches the session. -/
theorem renewal_reaches_session_second_tick :
    Guarded (SecurityLifecycle.step listPlatform renewalPlan)
        (RenewalObserved listPlatform renewalPlan) (.start renewalPlan)
        [tickOn (-390) 0, tickOn 5 0] ∧
      Guarded (SecurityLifecycle.step listPlatform renewalPlan)
        (TickApplies listPlatform renewalPlan) (.start renewalPlan)
        [tickOn (-390) 0, tickOn 5 0] := by
  have hidle : ¬Enrolls listPlatform renewalPlan (.start renewalPlan) (tickOn (-390) 0) := by
    rintro ⟨reenroll, outcome, creds, hattempt⟩
    rw [attempt_early] at hattempt
    cases hattempt
  have henrolls : Enrolls listPlatform renewalPlan watchingOld (tickOn 5 0) :=
    ⟨true, _, _, attempt_due watchingOld_estLastAttempt⟩
  have hnew := vaultHolds_new watchingOld_estLastAttempt
  have hdistinct : Guarded (SecurityLifecycle.step listPlatform renewalPlan)
      (FingerprintsDistinguish listPlatform renewalPlan) (.start renewalPlan)
      [tickOn (-390) 0, tickOn 5 0] := by
    refine ⟨?_, ?_, trivial⟩
    · rintro prev material ⟨hobserved, -⟩
      cases hobserved
    · rintro prev material ⟨hobserved, hholds⟩ hsame
      obtain rfl := Option.some.inj (watchingOld_observed.symm.trans hobserved)
      obtain rfl := Except.ok.inj (hnew.read.symm.trans hholds.read)
      exact absurd hsame fingerprint_old_ne_new
  have hcondition : Guarded (SecurityLifecycle.step listPlatform renewalPlan)
      (RenewalObserved listPlatform renewalPlan) (.start renewalPlan)
      [tickOn (-390) 0, tickOn 5 0] := by
    refine ⟨⟨fun _ h => absurd h hidle, ?_⟩, ⟨?_, fun _ h => absurd henrolls h⟩, trivial⟩
    · rintro - - prev material ⟨hobserved, -⟩
      cases hobserved
    · intro _ _
      refine ⟨rfl, _, _, ⟨watchingOld_observed, hnew⟩, fun heq => ?_⟩
      have hcert := Option.some.inj (congrArg SessionMaterial.certPem heq)
      exact old_ne_new (certText_inj hcert)
  exact ⟨hcondition, (renewal_reaches_session listPlatform renewalPlan _ hdistinct).1 hcondition⟩

/-- The certificate is due when the task starts: the first tick enrolls, and what it wrote
becomes the watcher's baseline. -/
theorem first_tick_renewal_unannounced :
    lifecyclePlan "plc-1" "127.0.0.1:2221" renewalSec = some renewalPlan ∧
      Guarded (SecurityLifecycle.step listPlatform renewalPlan)
        (FingerprintsDistinguish listPlatform renewalPlan) (.start renewalPlan) [tickOn 5 0] ∧
      ¬Guarded (SecurityLifecycle.step listPlatform renewalPlan)
        (TickApplies listPlatform renewalPlan) (.start renewalPlan) [tickOn 5 0] := by
  refine ⟨rfl, ⟨?_, trivial⟩, ?_⟩
  · rintro prev material ⟨hobserved, -⟩
    cases hobserved
  · rintro ⟨happlies, -⟩
    have henrolls : Enrolls listPlatform renewalPlan (.start renewalPlan) (tickOn 5 0) :=
      ⟨true, _, _, attempt_due rfl⟩
    obtain ⟨state, hread⟩ :=
      reread_ok_iff.mpr (vaultHolds_new (s := .start renewalPlan) rfl)
    have hone := (happlies.renewal rfl henrolls).2
    -- there is no baseline to differ from
    have hsteady : ¬Rotates (SecurityLifecycle.start renewalPlan).watcher state := by
      rintro ⟨prev, hprev, -⟩
      cases hprev
    rw [tick_steady rfl hread hsteady] at hone
    cases hone

end EnipAdapter.Analysis
