import EnipAdapter.Model.Time
import EnipAdapter.Model.TlsMaterial

/-!
# Enrollment of the client certificate

The parts of `eip/est.rs` that decide: where enrolled material is written back, when to enroll,
and the write-back itself. The exchange with the EST server (endpoint, trust, authentication,
CSR, request) is the environment's: it yields a certificate chain for a fresh key, or an error.
-/

set_option autoImplicit false

namespace EnipAdapter.Model

/-- The explicit write-back destination of `est.into`. -/
structure EstDestination where
  certSecret : Option String := none
  cert : Option String := none
  key : Option String := none
deriving DecidableEq, Repr

structure EstConfig where
  enabled : Bool := false
  server : Option String := none
  into : Option EstDestination := none
  renewBeforeDays : Option ℕ := none
  retryBackoffMins : Option ℕ := none
deriving DecidableEq, Repr

inductive SecurityMode where
  | plaintext
  | tls
deriving DecidableEq, Repr

/-- The `security` block of a connection. -/
structure SecurityConfig where
  mode : SecurityMode := .plaintext
  client : Option ClientIdentity := none
  ca : Option CaSource := none
  verifyPeer : Bool := true
  serverName : Option String := none
  checkExpiration : Bool := true
  cipherSuites : Option (List String) := none
  reloadIntervalSecs : Option ℕ := none
  est : Option EstConfig := none
deriving DecidableEq, Repr

def SecurityConfig.isTls (sec : SecurityConfig) : Bool := sec.mode == .tls

def SecurityConfig.estEnabled (sec : SecurityConfig) : Option EstConfig :=
  sec.est.filter (·.enabled)

def defaultReloadIntervalSecs : ℕ := 300

def defaultRenewBeforeDays : ℤ := 30

def defaultRetryBackoffMins : ℕ := 60

/-- The resolved write-back target. -/
inductive ResolvedDestination where
  | bundle (name : String)
  | pair (cert key : String)
deriving DecidableEq, Repr

namespace EstConfig

/-- The renew threshold: the enrollment's own, else the client identity's, else the default. -/
def renewDays (est : EstConfig) (sec : SecurityConfig) : ℤ :=
  match est.renewBeforeDays, sec.client.bind (·.renewBeforeDays) with
  | some days, _ => days
  | none, some days => days
  | none, none => defaultRenewBeforeDays

def retryBackoff (est : EstConfig) : Duration :=
  Duration.fromSecs ((est.retryBackoffMins.getD defaultRetryBackoffMins * 60) % 2 ^ 64)

/-- The explicit destination, else where the client identity is read from. -/
def resolveDestination (est : EstConfig) (sec : SecurityConfig) :
    Except String ResolvedDestination :=
  match est.into with
  | some into =>
    match into.certSecret, into.cert, into.key with
    | some b, none, none => .ok (.bundle b)
    | none, some c, some k => .ok (.pair c k)
    | none, none, none =>
      .error "security.est.into is empty — set certSecret (bundle) or cert+key (secret pair)"
    | _, _, _ =>
      .error ("security.est.into mixes styles — use certSecret (bundle) OR cert+key " ++
        "(secret pair)")
  | none =>
    match sec.client with
    | none =>
      .error ("security.est needs a write-back destination — set est.into or a vault-backed " ++
        "security.client (certSecret, or cert+key inline \x7b\"$secret\": …\x7d)")
    | some client =>
      match client.certSecret, client.cert, client.key with
      | some name, _, _ => .ok (.bundle name)
      | none, some cert, some key => .ok (.pair cert.secret key.secret)
      | none, _, _ =>
        .error ("security.est cannot derive a write-back destination from a file-based " ++
          "security.client — set est.into (certSecret, or cert+key secrets)")

end EstConfig

/-! ## The write-back -/

/-- A put: the vault afterwards, if it succeeded. -/
def vaultPut {V : Type} (p : TlsPlatform V) (vault : V) (name : String) (bytes : Bytes)
    (answer : Except String Unit) : Except String V :=
  answer.map fun _ => p.put vault name bytes

/-- What the write-back did: the states the vault was in, in order, and what it returned. -/
structure WriteBack (V : Type) where
  vaults : List V
  result : Except String String

/-- Write the enrolled material to its destination. `first` and `second` are what the vault
answers to the puts, as far as they are made. -/
def writeEnrolled {V : Type} (p : TlsPlatform V) (dest : ResolvedDestination)
    (certPem keyPem : String) (creds : Option V) (first second : Except String Unit) :
    WriteBack V :=
  match creds with
  | none =>
    ⟨[], .error "security.est enrolled a cert but no vault is configured to store it"⟩
  | some vault =>
    match dest with
    | .bundle name =>
      match p.encodeBundle certPem keyPem with
      | .error e => ⟨[vault], .error ("encoding the TLS bundle: " ++ e)⟩
      | .ok bytes =>
        match vaultPut p vault name bytes first with
        | .error e =>
          ⟨[vault], .error ("vault put(`" ++ name ++ "`) for the enrolled bundle: " ++ e)⟩
        | .ok vault₁ => ⟨[vault, vault₁], .ok name⟩
    | .pair cert key =>
      match vaultPut p vault cert certPem.toUTF8.toList first with
      | .error e =>
        ⟨[vault], .error ("vault put(`" ++ cert ++ "`) for the enrolled cert: " ++ e)⟩
      | .ok vault₁ =>
        match vaultPut p vault₁ key keyPem.toUTF8.toList second with
        | .error e =>
          ⟨[vault, vault₁], .error ("vault put(`" ++ key ++ "`) for the enrolled key: " ++ e)⟩
        | .ok vault₂ => ⟨[vault, vault₁, vault₂], .ok (cert ++ " + " ++ key)⟩

/-- The vault the write-back leaves. -/
def WriteBack.vault {V : Type} (w : WriteBack V) : Option V := w.vaults.getLast?

/-! ## One enrollment -/

/-- What the exchange with the EST server yields: the issued chain as PEM, what its leaf says,
and the fresh key it was issued for. -/
structure IssuedIdentity where
  certPem : String
  keyPem : String
  notAfter : Option String
  serial : Option String
  chainLen : ℕ
deriving DecidableEq, Repr

structure EnrollOutcome where
  notAfter : Option String
  serial : Option String
  writtenTo : String
  chainLen : ℕ
deriving DecidableEq, Repr

/-- What the environment decides about one enrollment: whether the endpoint, the trust anchors
and the authentication material resolve, what the EST server answers, and what the vault answers
to the puts. -/
structure EstExchange where
  prepared : Except String Unit
  issued : Except String IssuedIdentity
  firstPut : Except String Unit
  secondPut : Except String Unit

/-- One enrollment: the destination is resolved before anything is asked for, and the vault is
written last. -/
def enrollOnce {V : Type} (p : TlsPlatform V) (est : EstConfig) (sec : SecurityConfig)
    (creds : Option V) (exchange : EstExchange) : Except String EnrollOutcome × Option V :=
  match est.server with
  | none => (.error "security.est.server is not set", creds)
  | some _ =>
    match exchange.prepared, est.resolveDestination sec, exchange.issued with
    | .error e, _, _ => (.error e, creds)
    | .ok (), .error e, _ => (.error e, creds)
    | .ok (), .ok _, .error e => (.error e, creds)
    | .ok (), .ok dest, .ok issued =>
      let written := writeEnrolled p dest issued.certPem issued.keyPem creds
        exchange.firstPut exchange.secondPut
      (written.result.map fun name =>
        ⟨issued.notAfter, issued.serial, name, issued.chainLen⟩, written.vault)

/-! ## When to enroll -/

inductive EstDecision where
  | idle
  | enroll (reenroll : Bool)
deriving DecidableEq, Repr

/-- Enroll without a usable certificate or within the renew window, at most once per backoff. -/
def EstScheduler.decide (currentExpiryDays : Option ℤ) (renewBeforeDays : ℤ)
    (sinceLastAttempt : Option Duration) (backoff : Duration) : EstDecision :=
  if sinceLastAttempt.any (· < backoff) then .idle
  else
    match currentExpiryDays with
    | none => .enroll false
    | some days =>
      if days < 0 then .enroll false
      else if days ≤ renewBeforeDays then .enroll true
      else .idle

/-- The enrollment state shown on the status surface. -/
structure EstStatus where
  enabled : Bool := false
  server : Option String := none
  lastEnroll : Option String := none
  nextRenew : Option String := none
  lastError : Option String := none
  enrollments : ℕ := 0
  failures : ℕ := 0
deriving DecidableEq, Repr

/-- When the next renewal is expected. -/
def nextRenewRfc3339 {V : Type} (p : TlsPlatform V) (notAfter : Option String)
    (renewBeforeDays : ℤ) : Option String := do
  let parsed ← p.parseRfc3339 (← notAfter)
  p.formatRfc3339 (parsed - renewBeforeDays * (86400 * 10 ^ 9))

end EnipAdapter.Model
