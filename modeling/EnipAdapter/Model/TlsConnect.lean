import EnipAdapter.Foundation.Refuse
import EnipAdapter.Model.DeviceError
import EnipAdapter.Model.SecurityLifecycle

/-!
# The TLS connect path

What a TLS instance dials with (`eip/tls.rs`, `build_client_config`; `eip/live.rs`, `connect`):
the credentials are sourced and parsed, an expired client certificate is refused, and the rest of
the session's TLS configuration is put together around them.

The TLS library and the key, address and name parsers are a `TlsLibrary`; `K` is what a private
key is and `N` what a server name is.
-/

set_option autoImplicit false

namespace EnipAdapter.Model

open EnipAdapter.Foundation

structure TlsLibrary (K N : Type) where
  /-- The first private key of a PEM text, if it holds one. -/
  privateKey : String → Except String (Option K)
  /-- The subject of a certificate as text, if the certificate parses. -/
  subject : Bytes → Option String
  /-- Whether a certificate can be a trust anchor. -/
  addRoot : Bytes → Except String Unit
  /-- The cipher suites the provider has, by name. -/
  defaultSuites : List String
  /-- The debug format of a list of names. -/
  debugNames : List String → String
  safeDefaultProtocolVersions : List String → Except String Unit
  buildVerifier : List Bytes → List String → Except String Unit
  withClientAuthCert : List Bytes → K → Except String Unit
  parseIp : String → Option N
  dnsName : String → Except String N

/-- One anchor of the trust store, as the status shows it. -/
structure TrustAnchorSummary where
  subject : Option String
  notAfter : Option String
deriving DecidableEq, Repr

/-- The anchors the device is verified against, and their summaries. -/
structure TrustStore where
  roots : List Bytes := []
  anchors : List TrustAnchorSummary := []
deriving DecidableEq, Repr

/-- What the status shows of a TLS session's own credentials. -/
structure TlsMeta where
  clientCertNotAfter : Option String
  clientCertSerial : Option String
  clientCertExpiryDays : Option ℤ
  trustAnchors : List TrustAnchorSummary
  verifyPeer : Bool
deriving DecidableEq, Repr

/-- How the device's certificate is verified. -/
inductive ServerCertVerifier where
  | webPki (roots : List Bytes)
  | expiryTolerant (roots : List Bytes)
  | noVerify
deriving DecidableEq, Repr

/-- What the adapter presents: a certificate chain and its key. -/
structure PresentedIdentity (K : Type) where
  chain : List Bytes
  key : K

structure TlsOptions (K N : Type) where
  suites : List String
  verifier : ServerCertVerifier
  identity : Option (PresentedIdentity K)
  serverName : N

/-- The leaf certificate a session presents. -/
def PresentedIdentity.leaf {K : Type} (identity : PresentedIdentity K) : Option Bytes :=
  identity.chain.head?

/-! ## Server name and cipher suites -/

/-- An endpoint without what looks like a port. -/
def stripPort (endpoint : String) : String :=
  let rev := endpoint.toList.reverse
  let port := rev.takeWhile (· ≠ ':')
  if ':' ∈ rev ∧ port ≠ [] ∧ port.all Char.isDigit then
    String.ofList (rev.dropWhile (· ≠ ':')).tail.reverse
  else endpoint

/-- The host of an endpoint; a bracketed address is what stands between the brackets. -/
def hostOf (endpoint : String) : String :=
  match endpoint.toList with
  | '[' :: rest =>
    if ']' ∈ rest then String.ofList (rest.takeWhile (· ≠ ']')) else stripPort endpoint
  | _ => stripPort endpoint

section

variable {K N : Type} (lib : TlsLibrary K N)

def resolveServerName (sec : SecurityConfig) (endpoint : String) : Except String N :=
  let raw := sec.serverName.getD (hostOf endpoint)
  match lib.parseIp raw with
  | some ip => .ok ip
  | none => (lib.dnsName raw).mapError fun e => "invalid serverName `" ++ raw ++ "`: " ++ e

/-- The provider's cipher suites, cut down to an allow-list if there is one. -/
def providerFor (sec : SecurityConfig) : Except String (List String) :=
  match sec.cipherSuites with
  | none => .ok lib.defaultSuites
  | some names =>
    let wanted := names.map fun s => s.map Char.toUpper
    let suites := lib.defaultSuites.filter fun cs => wanted.contains (cs.map Char.toUpper)
    if suites = [] then
      .error ("security.cipherSuites " ++ lib.debugNames names ++
        " matched no supported suite — rustls speaks the GCM/TLS1.3 suites (e.g. " ++
        "TLS_ECDHE_ECDSA_WITH_AES_128_GCM_SHA256, TLS13_AES_128_GCM_SHA256), not CBC/NULL/PSK")
    else .ok suites

def serverCertVerifier (sec : SecurityConfig) (store : TrustStore) (suites : List String) :
    Except String ServerCertVerifier :=
  if sec.verifyPeer then
    if store.roots = [] then
      .error ("verifyPeer is on but no CA certificates were sourced (ca.secret/ca.file or a " ++
        "certSecret bundle with caPem)")
    else do
      (lib.buildVerifier store.roots suites).mapError fun e =>
        "building the device-certificate verifier: " ++ e
      pure (if sec.checkExpiration then .webPki store.roots else .expiryTolerant store.roots)
  else .ok .noVerify

/-! ## Credentials -/

/-- Parse the first private key of a PEM text. -/
def keyFromPem (pem : String) : Except String K :=
  match lib.privateKey pem with
  | .error e => .error ("parsing private key PEM: " ++ e)
  | .ok none => .error "no private key found in key PEM"
  | .ok (some key) => .ok key

def certSubject (der : Bytes) : Option String := (lib.subject der).filter (· ≠ "")

variable {V : Type} (p : TlsPlatform V)

/-- Add a certificate to the trust store. -/
def TrustStore.add (store : TrustStore) (cert : Bytes) : Except String TrustStore :=
  match lib.addRoot cert with
  | .error e => .error ("adding CA certificate to the trust store: " ++ e)
  | .ok () =>
    .ok ⟨store.roots ++ [cert], store.anchors ++ [⟨certSubject lib cert, certNotAfter p cert⟩]⟩

/-- Add every certificate of a PEM text. -/
def TrustStore.addPem (store : TrustStore) (pem : String) : Except String TrustStore := do
  let certs ← certsFromPem p pem "CA"
  certs.foldlM (fun store cert => store.add lib p cert) store

/-- The trust store of all sourced PEM texts. -/
def trustStoreOf (rootPems : List String) : Except String TrustStore :=
  rootPems.foldlM (fun store pem => store.addPem lib p pem) {}

/-- The client identity, when certificate and key are both there. -/
def clientIdentity (material : ClientMaterial) : Except String (Option (PresentedIdentity K)) :=
  match material.certPem, material.keyPem with
  | some certPem, some keyPem => do
    let chain ← certsFromPem p certPem "client certificate"
    if chain = [] then .error "client certificate PEM held no certificates"
    else do
      let key ← keyFromPem lib keyPem
      pure (some ⟨chain, key⟩)
  | _, _ => .ok none

/-- What the status will show of these credentials. -/
def tlsMeta (sec : SecurityConfig) (store : TrustStore)
    (identity : Option (PresentedIdentity K)) (now : OffsetDateTime) : TlsMeta :=
  let leaf := identity.bind (·.leaf)
  { clientCertNotAfter := leaf.bind (certNotAfter p)
    clientCertSerial := leaf.bind (certSerial p)
    clientCertExpiryDays := (leaf.bind p.notAfterTime).map (daysUntil · now)
    trustAnchors := store.anchors
    verifyPeer := sec.verifyPeer }

/-! ## The connect path -/

def expiredRefusal (days : ℤ) (notAfter : Option String) : String :=
  "client certificate expired " ++ toString (-days) ++ " day(s) ago (notAfter " ++
    notAfter.getD "?" ++ ") — rotate it in the vault (e.g. ec-secrets) before connecting; " ++
    "refusing to connect with an expired cert"

/-- Refuse a client certificate that has expired, when expiration is enforced. -/
def refuseExpired (sec : SecurityConfig) (info : TlsMeta) : Except String PUnit :=
  match info.clientCertExpiryDays with
  | none => .ok ⟨⟩
  | some days =>
    refuse (sec.checkExpiration = true ∧ days < 0) (expiredRefusal days info.clientCertNotAfter)

/-- The rest of the configuration, around the credentials. -/
def tlsOptions (sec : SecurityConfig) (endpoint : String) (store : TrustStore)
    (identity : Option (PresentedIdentity K)) : Except String (TlsOptions K N) := do
  let suites ← providerFor lib sec
  (lib.safeDefaultProtocolVersions suites).mapError fun e => "tls provider setup: " ++ e
  let verifier ← serverCertVerifier lib sec store suites
  match identity with
  | none => pure ()
  | some presented =>
    (lib.withClientAuthCert presented.chain presented.key).mapError fun e =>
      "installing the client certificate/key: " ++ e
  let serverName ← resolveServerName lib sec endpoint
  pure ⟨suites, verifier, identity, serverName⟩

/-- Source the credentials, refuse an expired certificate and build the configuration. `now` is
what the clock shows in between. -/
def buildClientConfig (sec : SecurityConfig) (endpoint : String) (creds : Option V)
    (now : OffsetDateTime) : Except String (TlsOptions K N × TlsMeta) := do
  let material ← sourceClientMaterial p sec.client creds
  let configured ← configuredCas p sec creds
  let store ← trustStoreOf lib p (material.bundleCa.toList ++ configured)
  let identity ← clientIdentity lib p material
  let info := tlsMeta p sec store identity now
  refuseExpired sec info
  let options ← tlsOptions lib sec endpoint store identity
  pure (options, info)

/-- What the connect path of a TLS instance dials with, or why it does not dial. -/
def connectTls (sec : SecurityConfig) (endpoint : String) (creds : Option V)
    (now : OffsetDateTime) : Except DeviceError (TlsOptions K N × TlsMeta) :=
  (buildClientConfig lib p sec endpoint creds now).mapError fun e => .permanent (.text e)

end

end EnipAdapter.Model
