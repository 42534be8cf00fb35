import EnipAdapter.Analysis.WriteBackPair
import EnipAdapter.Foundation.Text
import EnipAdapter.Foundation.Ticks
import EnipAdapter.Interface.ExpiryContract

/-!
# The day after a certificate ends

The connect path, the watcher and the scheduler all ask whether a count of whole days is
negative. The count is cut towards zero, so it is negative only from a full day after `notAfter`
on; until then the connect path presents the certificate, the watcher calls it expiring and the
scheduler has it authenticate its own renewal. Before `notAfter`, and from the full day on, the
three are right.
-/

set_option autoImplicit false

namespace EnipAdapter.Analysis

open EnipAdapter.Foundation EnipAdapter.Model EnipAdapter.Interface

/-! ## The count of days -/

/-- The count is negative from a full day after the end on. -/
theorem daysUntil_neg_iff {notAfter now : ℤ} :
    daysUntil notAfter now < 0 ↔ notAfter ≤ now - days 1 := by
  have hday : (0 : ℤ) < 86400 * 10 ^ 9 := by omega
  rw [daysUntil, tdiv_neg_iff hday, days]
  constructor
  · intro h
    omega
  · intro h
    omega

/-- It says that the certificate is past exactly outside the day after its end. -/
theorem counted_iff_past_iff {notAfter now : ℤ} :
    (notAfter ≤ now - days 1 ↔ notAfter < now) ↔ ¬(now - days 1 < notAfter ∧ notAfter < now) := by
  rw [days]
  omega

/-- No two instants of the clock are so far apart that the count is the one of an unreadable
`notAfter`. -/
theorem daysUntil_ne_noExpiryDays {notAfter now : ℤ} (hend : OnClock notAfter)
    (hnow : OnClock now) : daysUntil notAfter now ≠ noExpiryDays := by
  obtain ⟨hend_ge, hend_lt⟩ := hend
  obtain ⟨hnow_ge, hnow_lt⟩ := hnow
  have habs := Int.natAbs_tdiv (notAfter - now) (86400 * 10 ^ 9)
  change _ = (notAfter - now).natAbs / (86400 * 10 ^ 9) at habs
  unfold daysUntil noExpiryDays
  omega

/-! ## The refusals of the connect path -/

section

variable {K N V : Type} {lib : TlsLibrary K N} {p : TlsPlatform V} {sec : SecurityConfig}
  {creds : Option V} {endpoint : String} {now : OffsetDateTime}

/-- A list of suites is refused in words of its own. -/
theorem providerFor_error {e : String} (h : providerFor lib sec = .error e) :
    e.toList.head? = some 's' := by
  unfold providerFor at h
  split at h
  · cases h
  · dsimp only at h
    split at h
    · cases h
      simp only [String.append_assoc]
      exact head?_append rfl _
    · cases h

/-- A message of the verifier's construction begins with a `v` or a `b`. -/
theorem serverCertVerifier_error {store : TrustStore} {suites : List String} {e : String}
    (h : serverCertVerifier lib sec store suites = .error e) :
    e.toList.head? = some 'v' ∨ e.toList.head? = some 'b' := by
  unfold serverCertVerifier at h
  split at h
  · split at h
    · cases h
      exact .inl (head?_append rfl _)
    · obtain hbuild | ⟨_, -, h⟩ := bind_error.mp h
      · obtain ⟨e', -, rfl⟩ := mapError_error.mp hbuild
        exact .inr (head?_append rfl _)
      · cases h
  · cases h

/-- A message about the server name begins with an `i`. -/
theorem resolveServerName_error {e : String}
    (h : resolveServerName lib sec endpoint = .error e) : e.toList.head? = some 'i' := by
  unfold resolveServerName at h
  dsimp only at h
  split at h
  · cases h
  · obtain ⟨e', -, rfl⟩ := mapError_error.mp h
    simp only [String.append_assoc]
    exact head?_append rfl _

/-- What the configuration fails with after the expiry check does not begin as an expiry does. -/
theorem tlsOptions_error {store : TrustStore} {identity : Option (PresentedIdentity K)}
    {e : String} (h : tlsOptions lib sec endpoint store identity = .error e) :
    e.toList.head? ≠ some 'c' := by
  have hother : ∀ c, e.toList.head? = some c → c ≠ 'c' → e.toList.head? ≠ some 'c' := by
    intro c hc hne heq
    exact hne (Option.some.inj (hc.symm.trans heq))
  unfold tlsOptions at h
  obtain hsuites | ⟨suites, -, h⟩ := bind_error.mp h
  · exact hother _ (providerFor_error hsuites) (by decide)
  obtain hversions | ⟨_, -, h⟩ := bind_error.mp h
  · obtain ⟨e', -, rfl⟩ := mapError_error.mp hversions
    exact hother 't' (head?_append rfl _) (by decide)
  obtain hverifier | ⟨verifier, -, h⟩ := bind_error.mp h
  · obtain hv | hb := serverCertVerifier_error hverifier
    · exact hother _ hv (by decide)
    · exact hother _ hb (by decide)
  have hname : ∀ suites verifier, (do
      let serverName ← resolveServerName lib sec endpoint
      pure (⟨suites, verifier, identity, serverName⟩ : TlsOptions K N)) = .error e →
        e.toList.head? ≠ some 'c' := by
    intro suites verifier h
    obtain hname | ⟨serverName, -, h⟩ := bind_error.mp h
    · exact hother _ (resolveServerName_error hname) (by decide)
    · cases h
  cases identity with
  | none => exact hname suites verifier h
  | some presented =>
    obtain hcert | ⟨_, -, h⟩ := bind_error.mp h
    · obtain ⟨e', -, rfl⟩ := mapError_error.mp hcert
      exact hother 'i' (head?_append rfl _) (by decide)
    · exact hname suites verifier h

/-- The refusal of an expired certificate begins with a `c`. -/
theorem expiredRefusal_head (days : ℤ) (notAfter : Option String) :
    (expiredRefusal days notAfter).toList.head? = some 'c' := by
  unfold expiredRefusal
  simp only [String.append_assoc]
  exact head?_append rfl _

/-- So that no later step can be taken for that refusal. -/
theorem tlsOptions_ne_expiredRefusal {store : TrustStore} {identity : Option (PresentedIdentity K)}
    {days : ℤ} {notAfter : Option String} :
    tlsOptions lib sec endpoint store identity ≠ .error (expiredRefusal days notAfter) :=
  fun h => tlsOptions_error h (expiredRefusal_head days notAfter)

/-! ## The certificate at the three places -/

variable (c : ServedCertificate lib p sec creds)

/-- The identity the connect path would present. -/
def servedIdentity : PresentedIdentity K := ⟨c.leaf :: c.issuers, c.key⟩

/-- The vault's material is read as the identity that was stored. -/
theorem clientIdentity_served : clientIdentity lib p ⟨some c.certPem, some c.keyPem, c.bundleCa⟩ =
    .ok (some (servedIdentity c)) := by
  show ((certsFromPem p c.certPem "client certificate") >>= fun chain => _) = _
  rw [c.parsed]
  show ((keyFromPem lib c.keyPem) >>= fun key => _) = _
  rw [c.keyed]
  rfl

/-- What the status would show of it. -/
def servedMeta (now : OffsetDateTime) : TlsMeta :=
  tlsMeta p sec c.store (some (servedIdentity c)) now

/-- The days in the metadata are those until the end of the certificate. -/
theorem servedMeta_expiryDays :
    (servedMeta c now).clientCertExpiryDays = some (daysUntil c.notAfter now) := by
  show (p.notAfterTime c.leaf).map (daysUntil · now) = _
  rw [c.ends]
  rfl

/-- With the credentials in service, the connect path is the expiry check and what follows it. -/
theorem buildClientConfig_served : buildClientConfig lib p sec endpoint creds now = (do
    refuseExpired sec (servedMeta c now)
    let options ← tlsOptions lib sec endpoint c.store (some (servedIdentity c))
    pure (options, servedMeta c now)) := by
  unfold buildClientConfig
  rw [c.sourced]
  show ((configuredCas p sec creds) >>= fun configured => _) = _
  rw [c.anchored]
  show ((trustStoreOf lib p (c.bundleCa.toList ++ c.configured)) >>= fun store => _) = _
  rw [c.trusted]
  show ((clientIdentity lib p ⟨some c.certPem, some c.keyPem, c.bundleCa⟩) >>= fun identity => _)
    = _
  rw [clientIdentity_served]
  rfl

/-- With the check on, a connect is refused exactly when these days are negative. -/
theorem refuseExpired_served (hcheck : sec.checkExpiration = true) :
    refuseExpired sec (servedMeta c now) = refuse (daysUntil c.notAfter now < 0)
      (expiredRefusal (daysUntil c.notAfter now) (servedMeta c now).clientCertNotAfter) := by
  simp only [refuseExpired, servedMeta_expiryDays, hcheck, true_and]

/-- The connect path refuses by the count of days. -/
theorem refusedAsExpired_iff (hcheck : sec.checkExpiration = true) :
    RefusedAsExpired lib p sec creds endpoint now ↔ daysUntil c.notAfter now < 0 := by
  unfold RefusedAsExpired connectTls
  rw [buildClientConfig_served c, refuseExpired_served c hcheck]
  constructor
  · rintro ⟨days, notAfter, h⟩
    obtain ⟨e, hbuild, htext⟩ := mapError_error.mp h
    cases htext
    by_contra hdays
    obtain hrefuse | ⟨_, -, hrest⟩ := bind_error.mp hbuild
    · exact hdays (refuse_error.mp hrefuse).1
    · obtain hoptions | ⟨_, -, hpure⟩ := bind_error.mp hrest
      · exact tlsOptions_ne_expiredRefusal hoptions
      · cases hpure
  · intro hdays
    refine ⟨daysUntil c.notAfter now, (servedMeta c now).clientCertNotAfter, ?_⟩
    apply mapError_error.mpr
    exact ⟨_, bind_error.mpr (.inl (refuse_error.mpr ⟨hdays, rfl⟩)), rfl⟩

/-- So a connect that presents the certificate found no negative days. -/
theorem presents_not_expired (hcheck : sec.checkExpiration = true)
    (h : Presents lib p sec creds endpoint now c.leaf) : ¬daysUntil c.notAfter now < 0 := by
  obtain ⟨options, info, hconnect, -⟩ := h
  rw [connectTls, mapError_ok, buildClientConfig_served c,
    refuseExpired_served c hcheck] at hconnect
  obtain ⟨_, hrefuse, -⟩ := bind_ok.mp hconnect
  exact refuse_ok.mp hrefuse

variable (now) in
/-- What the watcher is shown. -/
theorem readReloadState_served : ∃ fingerprint, readReloadState p sec creds now =
    .ok ⟨fingerprint, some (clientCertInfo p now c.leaf)⟩ := by
  have hread : readMaterial p sec creds =
      .ok ⟨some c.certPem, c.bundleCa.toList ++ c.configured⟩ :=
    bind_ok.mpr ⟨_, c.sourced, bind_ok.mpr ⟨_, c.anchored, rfl⟩⟩
  have hfacts : clientFacts p (some c.certPem) now = .ok (some (clientCertInfo p now c.leaf)) := by
    rw [clientFacts, c.parsed]
    rfl
  exact ⟨_, bind_ok.mpr ⟨_, hread, bind_ok.mpr ⟨_, hfacts, rfl⟩⟩⟩

/-- The watcher reads the same days off the certificate. -/
theorem clientCertInfo_expiryDays :
    (clientCertInfo p now c.leaf).expiryDays = daysUntil c.notAfter now := by
  rw [clientCertInfo, c.ends]
  rfl

/-- What the scheduler is given. -/
theorem currentDays_served (hnow : OnClock now) {plan : LifecyclePlan} {i : TickInput V}
    (hsec : plan.sec = sec) (hcreds : i.creds = creds) (hinow : i.now = now) :
    SecurityLifecycle.currentDays p plan i = some (daysUntil c.notAfter now) := by
  obtain ⟨fingerprint, hread⟩ := readReloadState_served now c
  have hdays : (some (daysUntil c.notAfter now)).filter (· ≠ noExpiryDays) =
      some (daysUntil c.notAfter now) := by
    apply Option.filter_eq_some_iff.mpr
    exact ⟨rfl, decide_eq_true (daysUntil_ne_noExpiryDays c.onClock hnow)⟩
  rw [SecurityLifecycle.currentDays, hsec, hcreds, hinow, hread, ← hdays,
    ← clientCertInfo_expiryDays c]
  rfl

end

/-- The watcher's state after an observation is the one of the days it was shown. -/
theorem observe_expiryState (w : CertWatcher) {state : Rotation.ReloadState} {info : ClientCertInfo}
    (hclient : state.client = some info) (renewBeforeDays : ℤ) :
    (w.observe state renewBeforeDays).1.expiryState =
      CertWatcher.expiryStateOf info.expiryDays renewBeforeDays := by
  simp only [CertWatcher.observe, hclient]
  split
  · rfl
  · rename_i hsame
    exact (not_not.mp hsame).symm

/-- And calls a certificate expired exactly when they are negative. -/
theorem expiryStateOf_expired_iff {days renewBeforeDays : ℤ} :
    CertWatcher.expiryStateOf days renewBeforeDays = .expired ↔ days < 0 := by
  unfold CertWatcher.expiryStateOf
  split
  · rename_i h
    simp [h]
  · rename_i h
    split
    · simp [h]
    · simp [h]

/-- Outside the backoff the scheduler enrolls anew by the count of days. -/
theorem decide_initial_iff {days renewBeforeDays : ℤ} {since : Option Duration}
    {backoff : Duration} (hsince : since.any (· < backoff) = false) :
    EstScheduler.decide (some days) renewBeforeDays since backoff = .enroll false ↔ days < 0 := by
  unfold EstScheduler.decide
  rw [hsince, if_neg Bool.false_ne_true]
  show (if days < 0 then EstDecision.enroll false else _) = _ ↔ _
  split
  · rename_i h
    simp [h]
  · rename_i h
    split
    · simp [h]
    · simp [h]

/-! ## Expired and past -/

/-- With expiration enforced, the three places agree on every certificate in service at every
instant, and agree that it has expired exactly when it is past, unless it has ended within the
last day; and there they do not. -/
theorem expired_means_past_iff {K N V : Type} {lib : TlsLibrary K N} {p : TlsPlatform V}
    {sec : SecurityConfig} {creds : Option V} (endpoint : String) {now : OffsetDateTime}
    (hcheck : sec.checkExpiration = true) (hnow : OnClock now)
    (c : ServedCertificate lib p sec creds) :
    ExpiredMeansPast endpoint now c ↔ ¬JustExpired now c := by
  have hcounted : (daysUntil c.notAfter now < 0 ↔ c.notAfter < now) ↔ ¬JustExpired now c := by
    rw [daysUntil_neg_iff]
    exact counted_iff_past_iff
  constructor
  · intro h
    exact hcounted.mp ((refusedAsExpired_iff c hcheck).symm.trans h.connect)
  · intro hfar
    have hdays := hcounted.mpr hfar
    obtain ⟨fingerprint, hread⟩ := readReloadState_served now c
    refine ⟨(refusedAsExpired_iff c hcheck).trans hdays, ?_, ⟨_, hread, ?_⟩, ?_⟩
    · intro hpresents hpast
      exact presents_not_expired c hcheck hpresents (hdays.mpr hpast)
    · intro w renewBeforeDays
      rw [observe_expiryState w rfl, expiryStateOf_expired_iff, clientCertInfo_expiryDays]
      exact hdays
    · intro plan i hsec hcreds hinow renewBeforeDays since backoff hsince
      rw [currentDays_served c hnow hsec hcreds hinow, decide_initial_iff hsince]
      exact hdays

/-! ## An instance with an originator certificate -/

/-- A TLS library for which both key texts parse and nothing fails. -/
def textLibrary : TlsLibrary String String where
  privateKey pem := .ok (
    if pem = keyText "old" then some "old" else if pem = keyText "new" then some "new" else none)
  subject _ := some "CN=Plant Root CA"
  addRoot _ := .ok ()
  defaultSuites := ["TLS13_AES_128_GCM_SHA256", "TLS_ECDHE_ECDSA_WITH_AES_128_GCM_SHA256"]
  debugNames := toString
  safeDefaultProtocolVersions _ := .ok ()
  buildVerifier _ _ := .ok ()
  withClientAuthCert _ _ := .ok ()
  parseIp raw := if raw = "127.0.0.1" then some raw else none
  dnsName raw := .ok raw

def originatorSec : SecurityConfig where
  mode := .tls
  client := some { certSecret := some "ot/originator" }
  verifyPeer := false

def originatorVault : List (String × Bytes) :=
  [("ot/originator", bundleBytes (certText "old") (keyText "old"))]

/-- Its certificate is the old one, which ends on day 10. -/
def originatorCertificate :
    ServedCertificate textLibrary listPlatform originatorSec (some originatorVault) where
  certPem := certText "old"
  keyPem := keyText "old"
  bundleCa := none
  configured := []
  store := {}
  leaf := [0x30, 0x01]
  issuers := []
  key := "old"
  notAfter := days 10
  sourced := by
    have hbundle : listPlatform.getTlsBundle originatorVault "ot/originator" =
        .ok (some ⟨certText "old", keyText "old", none⟩) :=
      listPlatform_getTlsBundle List.lookup_cons_self parseBundle_old
    exact (source_bundle rfl originatorVault _).mpr ⟨_, hbundle, rfl⟩
  anchored := rfl
  trusted := rfl
  parsed := by
    rw [certsFromPem, show listPlatform.pemCerts (certText "old") = .ok [[0x30, 0x01]] from
      congrArg Except.ok derOf_old]
    rfl
  keyed := by
    rw [keyFromPem, show textLibrary.privateKey (keyText "old") = .ok (some "old") from
      congrArg Except.ok (if_pos rfl)]
  ends := by
    show endOf [0x30, 0x01] = _
    exact if_pos rfl
  onClock := by
    unfold OnClock days
    omega

/-- Two days after its end it has expired for all three. -/
theorem expired_means_past_two_days_on :
    ExpiredMeansPast "127.0.0.1:2221" (days 12) originatorCertificate := by
  have hclock : OnClock (days 12) := by
    unfold OnClock days
    omega
  apply (expired_means_past_iff "127.0.0.1:2221" rfl hclock originatorCertificate).mpr
  rintro ⟨hwithin, -⟩
  exact absurd hwithin (by decide)

def hourAfterEnd : OffsetDateTime := days 10 + 3600 * 10 ^ 9

/-- An hour after its end the certificate has been expired for no whole day. -/
theorem daysUntil_hourAfterEnd : daysUntil originatorCertificate.notAfter hourAfterEnd = 0 := by
  decide

/-- What the connect path dials with where the expiry check passes. -/
def originatorOptions : TlsOptions String String where
  suites := textLibrary.defaultSuites
  verifier := .noVerify
  identity := some (servedIdentity originatorCertificate)
  serverName := "127.0.0.1"

/-- The originator's identity and trust make options for a loopback endpoint. -/
theorem tlsOptions_originator : tlsOptions textLibrary originatorSec "127.0.0.1:2221"
    originatorCertificate.store (some (servedIdentity originatorCertificate)) =
      .ok originatorOptions := by
  have hhost : resolveServerName textLibrary originatorSec "127.0.0.1:2221" = .ok "127.0.0.1" := by
    decide
  unfold tlsOptions
  rw [hhost]
  rfl

/-- An hour after its end the connect path presents the certificate, the watcher has it expiring
and the scheduler renews with it. -/
theorem presented_hour_after_end :
    originatorCertificate.notAfter < hourAfterEnd ∧
      Presents textLibrary listPlatform originatorSec (some originatorVault) "127.0.0.1:2221"
        hourAfterEnd originatorCertificate.leaf ∧
      (∃ state, readReloadState listPlatform originatorSec (some originatorVault) hourAfterEnd =
        .ok state ∧ (({} : CertWatcher).observe state 30).1.expiryState = .expiring) ∧
      EstScheduler.decide (some (daysUntil originatorCertificate.notAfter hourAfterEnd)) 30 none
        (Duration.fromSecs 3600) = .enroll true ∧
      ¬ExpiredMeansPast "127.0.0.1:2221" hourAfterEnd originatorCertificate := by
  have hpast : originatorCertificate.notAfter < hourAfterEnd := by decide
  have hpresents : Presents textLibrary listPlatform originatorSec (some originatorVault)
      "127.0.0.1:2221" hourAfterEnd originatorCertificate.leaf := by
    refine ⟨originatorOptions, servedMeta originatorCertificate hourAfterEnd, ?_, rfl⟩
    rw [connectTls, mapError_ok, buildClientConfig_served originatorCertificate,
      refuseExpired_served originatorCertificate rfl, daysUntil_hourAfterEnd]
    exact bind_ok.mpr ⟨_, rfl, bind_ok.mpr ⟨_, tlsOptions_originator, rfl⟩⟩
  refine ⟨hpast, hpresents, ?_, ?_, fun h => h.presented hpresents hpast⟩
  · obtain ⟨fingerprint, hread⟩ := readReloadState_served hourAfterEnd originatorCertificate
    refine ⟨_, hread, ?_⟩
    rw [observe_expiryState _ rfl, clientCertInfo_expiryDays, daysUntil_hourAfterEnd]
    rfl
  · rw [daysUntil_hourAfterEnd]
    rfl

end EnipAdapter.Analysis
