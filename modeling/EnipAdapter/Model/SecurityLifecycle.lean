import EnipAdapter.Model.Commands
import EnipAdapter.Model.Est

/-!
# The certificate lifecycle

One task per TLS instance (`security_lifecycle.rs`). Every tick it first enrolls or renews the
client certificate, if that is due, and then re-reads the vault and lets a watcher
(`eip/rotation.rs`) compare what it finds with the last observation. A rotation is announced and
the device task is told to reconnect.

A tick is one step. What the environment decides about it is its input: the vault as the tick
begins, the clocks, the enrollment exchange, whether the vault can be read again afterwards, and
whether the device task still receives.
-/

set_option autoImplicit false

namespace EnipAdapter.Model

/-! ## What the watcher is shown -/

/-- The client certificate's facts; an unreadable `notAfter` never counts as expiring. -/
structure ClientCertInfo where
  notAfter : Option String
  serial : Option String
  expiryDays : ℤ
deriving DecidableEq, Repr

/-- `i64::MAX`, the days left of a certificate whose `notAfter` cannot be read. -/
def noExpiryDays : ℤ := 2 ^ 63 - 1

structure Rotation.ReloadState where
  fingerprint : UInt64
  client : Option ClientCertInfo
deriving DecidableEq, Repr

/-- The material a session would be built from: the client certificate, and the trust anchors
in the order they are sourced. -/
structure SessionMaterial where
  certPem : Option String
  caPems : List String
deriving DecidableEq, Repr

section

variable {V : Type} (p : TlsPlatform V)

def configuredCas (sec : SecurityConfig) (creds : Option V) : Except String (List String) :=
  match sec.ca with
  | none => .ok []
  | some ca => sourceCaPems p ca creds

/-- Read the client certificate and every trust anchor. -/
def readMaterial (sec : SecurityConfig) (creds : Option V) : Except String SessionMaterial := do
  let material ← sourceClientMaterial p sec.client creds
  let configured ← configuredCas p sec creds
  pure ⟨material.certPem, material.bundleCa.toList ++ configured⟩

/-- The facts of the first certificate of a chain. -/
def clientCertInfo (now : OffsetDateTime) (der : Bytes) : ClientCertInfo where
  notAfter := certNotAfter p der
  serial := certSerial p der
  expiryDays := ((p.notAfterTime der).map (daysUntil · now)).getD noExpiryDays

def clientFacts (certPem : Option String) (now : OffsetDateTime) :
    Except String (Option ClientCertInfo) :=
  match certPem with
  | none => .ok none
  | some pem =>
    (certsFromPem p pem "client certificate").map fun chain =>
      chain.head?.map (clientCertInfo p now)

/-- The watcher's view of some material. -/
def summarize (material : SessionMaterial) (now : OffsetDateTime) :
    Except String Rotation.ReloadState := do
  let client ← clientFacts p material.certPem now
  pure ⟨p.fingerprint material.certPem material.caPems, client⟩

def readReloadState (sec : SecurityConfig) (creds : Option V) (now : OffsetDateTime) :
    Except String Rotation.ReloadState := do
  let material ← readMaterial p sec creds
  summarize p material now

end

/-! ## The watcher -/

inductive ExpiryState where
  | unknown
  | ok
  | expiring
  | expired
deriving DecidableEq, Repr

inductive WatchAction where
  | rotated (serial notAfter : Option String)
  | expiring (days : ℤ) (notAfter : Option String)
  | expired (days : ℤ) (notAfter : Option String)
deriving DecidableEq, Repr

structure CertWatcher where
  lastFingerprint : Option UInt64 := none
  expiryState : ExpiryState := .unknown
deriving DecidableEq, Repr

structure WatchOutcome where
  actions : List WatchAction
  expiryDays : Option ℤ
deriving DecidableEq, Repr

namespace CertWatcher

/-- A rotation, when there is a last observation and it had another fingerprint. -/
def rotation (w : CertWatcher) (state : Rotation.ReloadState) : List WatchAction :=
  match w.lastFingerprint with
  | none => []
  | some prev =>
    if prev ≠ state.fingerprint then
      [.rotated (state.client.bind (·.serial)) (state.client.bind (·.notAfter))]
    else []

def expiryStateOf (days renewBeforeDays : ℤ) : ExpiryState :=
  if days < 0 then .expired else if days ≤ renewBeforeDays then .expiring else .ok

/-- The one-shot warning of a transition. -/
def expiryActions (c : ClientCertInfo) : ExpiryState → List WatchAction
  | .expired => [.expired c.expiryDays c.notAfter]
  | .expiring => [.expiring c.expiryDays c.notAfter]
  | .ok | .unknown => []

/-- Compare a state with the last observation. The first one is the baseline: it is no rotation,
but its expiry counts. -/
def observe (w : CertWatcher) (state : Rotation.ReloadState) (renewBeforeDays : ℤ) :
    CertWatcher × WatchOutcome :=
  let rotated := w.rotation state
  let w := { w with lastFingerprint := some state.fingerprint }
  match state.client with
  | none => (w, ⟨rotated, none⟩)
  | some c =>
    let next := expiryStateOf c.expiryDays renewBeforeDays
    if next ≠ w.expiryState then
      ({ w with expiryState := next }, ⟨rotated ++ expiryActions c next, some c.expiryDays⟩)
    else (w, ⟨rotated, some c.expiryDays⟩)

end CertWatcher

/-! ## The driver -/

def optionalString (s : Option String) : Json := s.elim .null .str

/-- An `i64` as a JSON number. -/
def integerJson (n : ℤ) : Json :=
  if h : Int64.ofInt n < 0 then .num (.negInt (Int64.ofInt n) h)
  else .num (.posInt (UInt64.ofNat n.toNat))

/-- What a tick does to the outside. `reconnect` is a `DeviceControl::Reconnect` the device task
was handed. -/
inductive LifecycleEffect where
  | emit (severity : Severity) (kind message : String) (context : List (String × Json))
  | enrollmentCounted (ok : Bool)
  | certReloadCounted
  | expiryDaysSet (days : ℤ)
  | reconnect
deriving Repr

/-- The instance a lifecycle task serves, and how it is configured. -/
structure LifecyclePlan where
  id : String
  endpoint : String
  sec : SecurityConfig
  est : Option EstConfig
  estRenewDays : ℤ
  estBackoff : Duration
  tickSecs : ℕ
  renewBeforeDays : ℤ

/-- The plan of an instance; one that is not TLS, or has nothing to watch and nothing to enroll,
has no lifecycle task. -/
def lifecyclePlan (id endpoint : String) (sec : SecurityConfig) : Option LifecyclePlan :=
  let intervalSecs := sec.reloadIntervalSecs.getD defaultReloadIntervalSecs
  let est := sec.estEnabled
  if sec.isTls = false then none
  else if intervalSecs = 0 ∧ est = none then none
  else
    some {
      id := id
      endpoint := endpoint
      sec := sec
      est := est
      estRenewDays := (est.map (·.renewDays sec)).getD defaultRenewBeforeDays
      estBackoff := (est.map (·.retryBackoff)).getD (Duration.fromSecs 3600)
      tickSecs := if intervalSecs = 0 then defaultReloadIntervalSecs else intervalSecs
      renewBeforeDays :=
        ((sec.client.bind (·.renewBeforeDays)).map Int.ofNat).getD defaultRenewBeforeDays }

/-- What one tick is given. -/
structure TickInput (V : Type) where
  /-- The vault as the tick begins, if one is configured. -/
  creds : Option V
  now : OffsetDateTime
  /-- The monotonic clock. -/
  instant : Instant
  exchange : EstExchange
  /-- The vault's refusal of the read after the enrollment, if it is down by then. -/
  outage : Option String
  /-- Whether the device task still receives. -/
  controlOpen : Bool

/-- The task between ticks. `observed` records the material of the last successful observation;
the task itself keeps only its fingerprint. -/
structure SecurityLifecycle where
  watcher : CertWatcher
  estLastAttempt : Option Instant
  est : Option EstStatus
  observed : Option SessionMaterial
  returned : Bool

/-- How the enrollment of a tick went, with the vault it leaves. -/
inductive EnrollAttempt (V : Type) where
  | idle
  | failed (err : String) (creds : Option V)
  | succeeded (reenroll : Bool) (outcome : EnrollOutcome) (creds : Option V)
deriving DecidableEq

def EnrollAttempt.credsAfter {V : Type} (a : EnrollAttempt V) (creds : Option V) : Option V :=
  match a with
  | .idle => creds
  | .failed _ after => after
  | .succeeded _ _ after => after

namespace SecurityLifecycle

variable {V : Type} (p : TlsPlatform V) (plan : LifecyclePlan)

/-- A task that has just been started. -/
def start : SecurityLifecycle where
  watcher := {}
  estLastAttempt := none
  est := plan.est.map fun e => { enabled := true, server := e.server }
  observed := none
  returned := false

/-- The days left of the certificate in the vault, as far as they can be read. -/
def currentDays (i : TickInput V) : Option ℤ :=
  ((readReloadState p plan.sec i.creds i.now).toOption.bind fun state =>
    state.client.map (·.expiryDays)).filter (· ≠ noExpiryDays)

/-- The enrollment of a tick, if one is configured and due. -/
def attempt (s : SecurityLifecycle) (i : TickInput V) : EnrollAttempt V :=
  match plan.est with
  | none => .idle
  | some est =>
    match EstScheduler.decide (currentDays p plan i) plan.estRenewDays
        (s.estLastAttempt.map (i.instant - ·)) plan.estBackoff with
    | .idle => .idle
    | .enroll reenroll =>
      match enrollOnce p est plan.sec i.creds i.exchange with
      | (.ok outcome, creds) => .succeeded reenroll outcome creds
      | (.error err, creds) => .failed err creds

/-- The status after an enrollment. -/
def estStatusAfter (est : EstConfig) (prev : Option EstStatus) (now : OffsetDateTime) :
    EnrollAttempt V → Option EstStatus
  | .idle => prev
  | .succeeded _ outcome _ =>
    let prev := prev.getD {}
    some {
      enabled := true
      server := est.server
      lastEnroll := p.formatRfc3339 now
      nextRenew := nextRenewRfc3339 p outcome.notAfter plan.estRenewDays
      lastError := none
      enrollments := prev.enrollments + 1
      failures := prev.failures }
  | .failed err _ =>
    let prev := prev.getD {}
    some {
      enabled := true
      server := est.server
      lastEnroll := prev.lastEnroll
      nextRenew := prev.nextRenew
      lastError := some err
      enrollments := prev.enrollments
      failures := prev.failures + 1 }

/-- What an enrollment is announced as. -/
def enrollEffects : EnrollAttempt V → List LifecycleEffect
  | .idle => []
  | .succeeded reenroll outcome _ =>
    [.enrollmentCounted true,
      .emit .info "cert-enrolled"
        ("EST " ++ (if reenroll then "re-enrollment" else "enrollment") ++ " succeeded for " ++
          plan.endpoint ++ " — wrote the new certificate to `" ++ outcome.writtenTo ++ "`")
        [("instance", .str plan.id), ("security", .str "tls"),
          ("serial", optionalString outcome.serial),
          ("notAfter", optionalString outcome.notAfter), ("reenroll", .bool reenroll)]]
  | .failed err _ =>
    [.enrollmentCounted false,
      .emit .warning "cert-enroll-failed"
        ("EST enrollment for " ++ plan.endpoint ++ " failed: " ++ err ++
          " — keeping the current certificate; will retry")
        [("instance", .str plan.id), ("security", .str "tls")]]

/-- Enroll first: the write-back is then observed in the same tick. -/
def enrollPhase (s : SecurityLifecycle) (i : TickInput V) : SecurityLifecycle :=
  match plan.est, attempt p plan s i with
  | none, _ => s
  | some _, .idle => s
  | some est, a =>
    { s with estLastAttempt := some i.instant, est := estStatusAfter p plan est s.est i.now a }

/-- The effects of the watcher's actions, in order, and whether the task goes on: a reconnect
nobody receives ends it. -/
def actionEffects (controlOpen : Bool) : List WatchAction → List LifecycleEffect × Bool
  | [] => ([], true)
  | .rotated serial notAfter :: rest =>
    let announced : List LifecycleEffect :=
      [.certReloadCounted,
        .emit .info "cert-rotated"
          ("client certificate / trust store rotated for " ++ plan.endpoint ++
            " — reconnecting to apply the new material")
          [("instance", .str plan.id), ("security", .str "tls"),
            ("serial", optionalString serial), ("notAfter", optionalString notAfter)]]
    if controlOpen then
      let (effects, goesOn) := actionEffects controlOpen rest
      (announced ++ .reconnect :: effects, goesOn)
    else (announced, false)
  | .expiring days notAfter :: rest =>
    let (effects, goesOn) := actionEffects controlOpen rest
    (.emit .warning "cert-expiring"
      ("adapter client certificate expires in " ++ toString days ++
        " day(s) — rotate it (e.g. ec-secrets) before it lapses")
      [("instance", .str plan.id), ("security", .str "tls"),
        ("daysRemaining", integerJson days), ("notAfter", optionalString notAfter)]
      :: effects, goesOn)
  | .expired days notAfter :: rest =>
    let (effects, goesOn) := actionEffects controlOpen rest
    (.emit .warning "cert-expired"
      ("adapter client certificate EXPIRED " ++ toString (-days) ++
        " day(s) ago — TLS connects will fail until it is rotated")
      [("instance", .str plan.id), ("security", .str "tls"),
        ("notAfter", optionalString notAfter)]
      :: effects, goesOn)

/-- What the tick finds in the vault after its enrollment. -/
def reread (s : SecurityLifecycle) (i : TickInput V) :
    Except String (SessionMaterial × Rotation.ReloadState) :=
  match i.outage with
  | some e => .error e
  | none => do
    let material ← readMaterial p plan.sec ((attempt p plan s i).credsAfter i.creds)
    let state ← summarize p material i.now
    pure (material, state)

/-- Then watch: a read that fails leaves the watcher as it is. -/
def watchPhase (s : SecurityLifecycle) (i : TickInput V)
    (read : Except String (SessionMaterial × Rotation.ReloadState)) :
    SecurityLifecycle × List LifecycleEffect :=
  match read with
  | .error _ => (s, [])
  | .ok (material, state) =>
    let (watcher, outcome) := s.watcher.observe state plan.renewBeforeDays
    let (effects, goesOn) := actionEffects plan i.controlOpen outcome.actions
    ({ s with watcher := watcher, observed := some material, returned := !goesOn },
      (outcome.expiryDays.map LifecycleEffect.expiryDaysSet).toList ++ effects)

/-- One tick. A task that has returned ticks no more. -/
def tick (s : SecurityLifecycle) (i : TickInput V) : SecurityLifecycle × List LifecycleEffect :=
  if s.returned then (s, [])
  else
    let (next, effects) := watchPhase plan (enrollPhase p plan s i) i (reread p plan s i)
    (next, enrollEffects plan (attempt p plan s i) ++ effects)

def step (s : SecurityLifecycle) (i : TickInput V) : SecurityLifecycle := (tick p plan s i).1

end SecurityLifecycle

end EnipAdapter.Model
