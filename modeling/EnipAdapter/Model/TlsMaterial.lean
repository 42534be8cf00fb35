import EnipAdapter.Model.Error
import EnipAdapter.Model.Json

/-!
# TLS material and the credentials vault

Where a TLS instance takes its client identity and its trust anchors from (`eip/tls.rs`): a
vault bundle, a pair of vault secrets or a pair of files for the identity, and five styles for
the anchors. The vault client, the file system, the JSON encoder, the PEM and X.509 parsers and
the hasher are libraries of their own; what the adapter asks of them is a `TlsPlatform`.
-/

set_option autoImplicit false

namespace EnipAdapter.Model

/-- An inline `$secret` reference: a whole secret, or one JSON field of it. -/
structure SecretRef where
  secret : String
  field : Option String := none
deriving DecidableEq, Repr

/-- The adapter's client identity: a bundle secret, two inline references, or two files. -/
structure ClientIdentity where
  certSecret : Option String := none
  certFile : Option String := none
  keyFile : Option String := none
  cert : Option SecretRef := none
  key : Option SecretRef := none
  renewBeforeDays : Option ℕ := none
deriving DecidableEq, Repr

/-- The trust anchors for verifying the device, by one of five styles. -/
structure CaSource where
  secret : Option String := none
  file : Option String := none
  cert : Option SecretRef := none
  trustStore : Option String := none
  list : Option (List SecretRef) := none
deriving DecidableEq, Repr

/-- A point on the wall clock, in nanoseconds since the epoch. -/
abbrev OffsetDateTime := ℤ

structure TlsBundle where
  certPem : String
  keyPem : String
  caPem : Option String
deriving DecidableEq, Repr

/-- What the adapter asks of its libraries. `V` is what a vault holds at one moment; `put` is
what a put that succeeds makes of it. -/
structure TlsPlatform (V : Type) where
  get : V → String → Except String (Option Bytes)
  getString : V → String → Except String (Option String)
  getTlsBundle : V → String → Except String (Option TlsBundle)
  versions : V → String → Except String (List String)
  getVersion : V → String → String → Except String (Option Bytes)
  put : V → String → Bytes → V
  /-- `Secret::as_str` and `Secret::as_json`. -/
  asStr : Bytes → Except String String
  asJson : Bytes → Except String Json
  /-- `serde_json::to_vec` of the `certPem` and `keyPem` of a bundle. -/
  encodeBundle : String → String → Except String Bytes
  readToString : String → Except String String
  /-- The certificates of a PEM text, as DER. -/
  pemCerts : String → Except String (List Bytes)
  /-- The `notAfter` of a certificate, if it parses and is in range. -/
  notAfterTime : Bytes → Option OffsetDateTime
  serialNumber : Bytes → Option Bytes
  formatRfc3339 : OffsetDateTime → Option String
  parseRfc3339 : String → Option OffsetDateTime
  /-- `DefaultHasher` over the client certificate and then each CA. -/
  fingerprint : Option String → List String → UInt64

section

variable {V : Type} (p : TlsPlatform V)

/-- Resolve a reference to PEM text; `what` names the credential for errors. -/
def SecretRef.resolve (r : SecretRef) (creds : Option V) (what : String) :
    Except String String :=
  match creds with
  | none =>
    .error (what ++ " uses \x7b\"$secret\": \"" ++ r.secret ++
      "\"\x7d but no credentials vault is configured")
  | some vault =>
    match p.get vault r.secret with
    | .error e => .error ("vault get(`" ++ r.secret ++ "`) for " ++ what ++ ": " ++ e)
    | .ok none =>
      .error ("vault secret `" ++ r.secret ++ "` (referenced by " ++ what ++ ") not found")
    | .ok (some secret) =>
      match r.field with
      | none =>
        (p.asStr secret).mapError fun e => "secret `" ++ r.secret ++ "` for " ++ what ++ ": " ++ e
      | some f =>
        match p.asJson secret with
        | .error e => .error ("secret `" ++ r.secret ++ "` for " ++ what ++ ": " ++ e)
        | .ok json =>
          match (json.get f).bind Json.asStr with
          | some text => .ok text
          | none =>
            .error ("secret `" ++ r.secret ++ "` field `" ++ f ++ "` (for " ++ what ++
              ") missing or not a string")

def readPemFile (path what : String) : Except String String :=
  (p.readToString path).mapError fun e => "reading " ++ what ++ " `" ++ path ++ "`: " ++ e

/-- The client identity PEMs: certificate, key, and the CA of a bundle. -/
structure ClientMaterial where
  certPem : Option String
  keyPem : Option String
  bundleCa : Option String
deriving DecidableEq, Repr

/-- Source the client identity by the style that is configured; without one the connection is
anonymous. -/
def sourceClientMaterial (client : Option ClientIdentity) (creds : Option V) :
    Except String ClientMaterial :=
  match client with
  | none => .ok ⟨none, none, none⟩
  | some c =>
    match c.certSecret with
    | some name =>
      match creds with
      | none =>
        .error ("client.certSecret `" ++ name ++ "` is set but no credentials vault is configured")
      | some vault =>
        match p.getTlsBundle vault name with
        | .error e => .error ("vault get_tls_bundle(`" ++ name ++ "`): " ++ e)
        | .ok none => .error ("vault TLS bundle `" ++ name ++ "` not found")
        | .ok (some bundle) => .ok ⟨some bundle.certPem, some bundle.keyPem, bundle.caPem⟩
    | none =>
      match c.cert, c.key with
      | some cert, some key => do
        let certPem ← cert.resolve p creds "client.cert"
        let keyPem ← key.resolve p creds "client.key"
        pure ⟨some certPem, some keyPem, none⟩
      | _, _ =>
        match c.certFile, c.keyFile with
        | some certFile, some keyFile => do
          let certPem ← readPemFile p certFile "client certificate"
          let keyPem ← readPemFile p keyFile "client key"
          pure ⟨some certPem, some keyPem, none⟩
        | _, _ => .ok ⟨none, none, none⟩

/-- The same while others write to the vault. A bundle is one `get_tls_bundle`; a certificate and a
key that are referenced are a `get` each, the key's in the state the vault has by then. -/
def sourceClientMaterialAcross (client : Option ClientIdentity) (creds later : Option V) :
    Except String ClientMaterial :=
  match client with
  | none => sourceClientMaterial p none creds
  | some c =>
    match c.certSecret, c.cert, c.key with
    | none, some cert, some key => do
      let certPem ← cert.resolve p creds "client.cert"
      let keyPem ← key.resolve p later "client.key"
      pure ⟨some certPem, some keyPem, none⟩
    | _, _, _ => sourceClientMaterial p (some c) creds

/-- In a vault nobody writes to, both are the same. -/
theorem sourceClientMaterialAcross_self (client : Option ClientIdentity) (creds : Option V) :
    sourceClientMaterialAcross p client creds creds = sourceClientMaterial p client creds := by
  cases client with
  | none => rfl
  | some c =>
    cases hbundle : c.certSecret with
    | some name => simp only [sourceClientMaterialAcross, hbundle]
    | none =>
      cases hcert : c.cert with
      | none => simp only [sourceClientMaterialAcross, hbundle, hcert]
      | some cert =>
        cases hkey : c.key with
        | none => simp only [sourceClientMaterialAcross, hbundle, hcert, hkey]
        | some key =>
          simp only [sourceClientMaterialAcross, sourceClientMaterial, hbundle, hcert, hkey]

/-- Every retained version of a trust store, oldest roots and newest alike. -/
def trustStoreVersions (vault : V) (name : String) : List String → Except String (List String)
  | [] => .ok []
  | v :: rest =>
    match p.getVersion vault name v with
    | .error e => .error ("vault get_version(`" ++ name ++ "`, `" ++ v ++ "`): " ++ e)
    | .ok none => trustStoreVersions vault name rest
    | .ok (some secret) => do
      let pem ← (p.asStr secret).mapError fun e =>
        "trust-store `" ++ name ++ "` version `" ++ v ++ "`: " ++ e
      let pems ← trustStoreVersions vault name rest
      pure (pem :: pems)

/-- The references of an anchor list, each named by its place. -/
def resolveList (creds : Option V) : ℕ → List SecretRef → Except String (List String)
  | _, [] => .ok []
  | i, r :: rest => do
    let pem ← r.resolve p creds ("ca.list[" ++ toString i ++ "]")
    let pems ← resolveList creds (i + 1) rest
    pure (pem :: pems)

/-- Source the trust anchors by the style that is configured. -/
def sourceCaPems (ca : CaSource) (creds : Option V) : Except String (List String) :=
  match ca.secret with
  | some name =>
    match creds with
    | none =>
      .error ("ca.secret `" ++ name ++ "` is set but no credentials vault is configured")
    | some vault =>
      match p.getString vault name with
      | .error e => .error ("vault get_string(`" ++ name ++ "`): " ++ e)
      | .ok none => .error ("vault CA secret `" ++ name ++ "` not found")
      | .ok (some pem) => .ok [pem]
  | none =>
    match ca.cert, ca.file, ca.trustStore, ca.list with
    | some cert, _, _, _ => (cert.resolve p creds "ca.cert").map fun pem => [pem]
    | none, some file, _, _ => (readPemFile p file "CA certificate").map fun pem => [pem]
    | none, none, some name, _ =>
      match creds with
      | none =>
        .error ("ca.trustStore `" ++ name ++ "` is set but no credentials vault is configured")
      | some vault =>
        match p.versions vault name with
        | .error e => .error ("vault versions(`" ++ name ++ "`) for ca.trustStore: " ++ e)
        | .ok versions =>
          if versions = [] then
            .error ("vault trust-store secret `" ++ name ++ "` (ca.trustStore) not found")
          else trustStoreVersions p vault name versions
    | none, none, none, some list => resolveList p creds 0 list
    | none, none, none, none => .ok []

/-- Parse a PEM text into a chain; `what` names it for errors. -/
def certsFromPem (pem what : String) : Except String (List Bytes) :=
  (p.pemCerts pem).mapError fun e => "parsing " ++ what ++ " PEM: " ++ e

def certNotAfter (der : Bytes) : Option String := (p.notAfterTime der).bind p.formatRfc3339

/-- A certificate's serial number in upper-case hex. -/
def certSerial (der : Bytes) : Option String :=
  match p.serialNumber der with
  | none => none
  | some bytes =>
    if bytes = [] then none else some (String.join (bytes.map fun b => hexUpper 2 b.toNat))

end

/-- Whole days from `now` until `notAfter`, cut towards zero; negative once it has expired. -/
def daysUntil (notAfter now : OffsetDateTime) : ℤ := (notAfter - now).tdiv (86400 * 10 ^ 9)

end EnipAdapter.Model
