import EnipAdapter.Interface.VaultContract
import EnipAdapter.Model.TlsConnect

/-!
# What an expired certificate means

A certificate has expired once its `notAfter` is past. "With `true`, an already-expired client
certificate is refused at connect rather than attempted", `cert-expired` is announced for it, and
it "can't authenticate a re-enroll", so the scheduler enrolls anew. The three are decided at
different places, each from a count of whole days that is "negative ⇒ expired".
-/

set_option autoImplicit false

namespace EnipAdapter.Interface

open EnipAdapter.Model

/-- The Unix seconds of an instant fit an `i64`, as those of every `OffsetDateTime` do. -/
def OnClock (t : ℤ) : Prop := -(2 ^ 63) * 10 ^ 9 ≤ t ∧ t < 2 ^ 63 * 10 ^ 9

section

variable {K N V : Type} (lib : TlsLibrary K N) (p : TlsPlatform V) (sec : SecurityConfig)
  (creds : Option V)

/-- A client certificate in service: certificate and key are sourced and parse, the trust anchors
are accepted, and the leaf says when it ends. -/
structure ServedCertificate where
  certPem : String
  keyPem : String
  bundleCa : Option String
  configured : List String
  store : TrustStore
  leaf : Bytes
  issuers : List Bytes
  key : K
  notAfter : OffsetDateTime
  sourced : sourceClientMaterial p sec.client creds = .ok ⟨some certPem, some keyPem, bundleCa⟩
  anchored : configuredCas p sec creds = .ok configured
  trusted : trustStoreOf lib p (bundleCa.toList ++ configured) = .ok store
  parsed : certsFromPem p certPem "client certificate" = .ok (leaf :: issuers)
  keyed : keyFromPem lib keyPem = .ok key
  ends : p.notAfterTime leaf = some notAfter
  onClock : OnClock notAfter

variable (endpoint : String) (now : OffsetDateTime)

/-- The connect path refuses the client certificate as expired. -/
def RefusedAsExpired : Prop := ∃ days notAfter,
  connectTls lib p sec endpoint creds now =
    .error (.permanent (.text (expiredRefusal days notAfter)))

/-- The connect path dials with this leaf certificate. -/
def Presents (leaf : Bytes) : Prop := ∃ options info,
  connectTls lib p sec endpoint creds now = .ok (options, info) ∧
    options.identity.bind (·.leaf) = some leaf

variable {lib p sec creds}

/-- What is promised of a certificate at an instant, at the three places that decide. -/
structure ExpiredMeansPast (c : ServedCertificate lib p sec creds) : Prop where
  connect : RefusedAsExpired lib p sec creds endpoint now ↔ c.notAfter < now
  presented : Presents lib p sec creds endpoint now c.leaf → ¬c.notAfter < now
  watcher : ∃ state, readReloadState p sec creds now = .ok state ∧
    ∀ (w : CertWatcher) (renewBeforeDays : ℤ),
      (w.observe state renewBeforeDays).1.expiryState = .expired ↔ c.notAfter < now
  /-- Whatever instance the lifecycle task serves, once it is outside the backoff. -/
  scheduler : ∀ (plan : LifecyclePlan) (i : TickInput V), plan.sec = sec → i.creds = creds →
    i.now = now → ∀ (renewBeforeDays : ℤ) (since : Option Duration) (backoff : Duration),
      since.any (· < backoff) = false →
        (EstScheduler.decide (SecurityLifecycle.currentDays p plan i) renewBeforeDays since
          backoff = .enroll false ↔ c.notAfter < now)

/-- Within the day after its end a certificate has been expired for no whole day. -/
def JustExpired (c : ServedCertificate lib p sec creds) : Prop :=
  now - days 1 < c.notAfter ∧ c.notAfter < now

end

end EnipAdapter.Interface
