import EnipAdapter.Foundation.Refuse
import EnipAdapter.Interface.VaultContract

/-!
# When a write-back keeps the identity whole

A bundle is one put, and an identity that is the bundle is one read: it loads the old pair before
the put and the new pair after it. A certificate and a key in secrets of their own are two puts,
and between them, or for good when the second one fails, the identity loads the new certificate
with the old key. An identity of two references is two reads, and a put between them is enough. So
a write-back keeps the identity only when none of its puts reaches a secret the identity is read
from, but for a bundle that is read as one.
-/

set_option autoImplicit false

namespace EnipAdapter.Analysis

open EnipAdapter.Foundation EnipAdapter.Model EnipAdapter.Interface

variable {V : Type} {p : TlsPlatform V} {belongs : String → String → Prop}

/-! ## Reading after a put -/

/-- A reference to another secret resolves as before. -/
theorem resolve_put_ne (laws : VaultLaws p) {r : SecretRef} {name : String}
    (hne : r.secret ≠ name) (v : V) (bytes : Bytes) (what : String) :
    r.resolve p (some (p.put v name bytes)) what = r.resolve p (some v) what := by
  simp only [SecretRef.resolve, laws.get_put_ne v name r.secret bytes hne]

/-- What a reference to the secret that was put resolves to. -/
theorem resolve_put_ok (laws : VaultLaws p) {r : SecretRef} {v : V} {bytes : Bytes}
    {what text : String} (h : r.resolve p (some (p.put v r.secret bytes)) what = .ok text) :
    (r.field = none ∧ p.asStr bytes = .ok text) ∨
      ∃ f json, r.field = some f ∧ p.asJson bytes = .ok json ∧
        (json.get f).bind Json.asStr = some text := by
  simp only [SecretRef.resolve, laws.get_put] at h
  cases hfield : r.field with
  | none =>
    simp only [hfield] at h
    exact .inl ⟨rfl, mapError_ok.mp h⟩
  | some f =>
    simp only [hfield] at h
    split at h
    · cases h
    · rename_i json hjson
      split at h
      · rename_i text' htext
        cases h
        exact .inr ⟨f, json, rfl, hjson, htext⟩
      · cases h

/-- The secret of a PEM text resolves to that text or not at all. -/
theorem resolve_put_pem (laws : VaultLaws p) {pem : String} (hpem : PemSecret p pem)
    {r : SecretRef} {v : V} {what text : String}
    (h : r.resolve p (some (p.put v r.secret pem.toUTF8.toList)) what = .ok text) : text = pem := by
  obtain ⟨-, hstr⟩ | ⟨f, json, -, hjson, -⟩ := resolve_put_ok laws h
  · rw [hpem.asStr] at hstr
    cases hstr
    rfl
  · exact absurd hjson (hpem.noJson json)

/-- What an identity of two references loads. -/
theorem source_inline {c : ClientIdentity} {cert key : SecretRef} (hbundle : c.certSecret = none)
    (hcert : c.cert = some cert) (hkey : c.key = some key) (creds : Option V)
    (m : ClientMaterial) :
    sourceClientMaterial p (some c) creds = .ok m ↔
      ∃ certPem keyPem, cert.resolve p creds "client.cert" = .ok certPem ∧
        key.resolve p creds "client.key" = .ok keyPem ∧ m = ⟨some certPem, some keyPem, none⟩ := by
  have hsource : sourceClientMaterial p (some c) creds = (do
      let certPem ← cert.resolve p creds "client.cert"
      let keyPem ← key.resolve p creds "client.key"
      pure ⟨some certPem, some keyPem, none⟩) := by
    simp only [sourceClientMaterial, hbundle, hcert, hkey]
  rw [hsource]
  constructor
  · intro h
    obtain ⟨certPem, hc, h⟩ := bind_ok.mp h
    obtain ⟨keyPem, hk, h⟩ := bind_ok.mp h
    cases h
    exact ⟨certPem, keyPem, hc, hk, rfl⟩
  · rintro ⟨certPem, keyPem, hc, hk, rfl⟩
    rw [hc, hk]
    rfl

/-- What an identity that is a bundle loads. -/
theorem source_bundle {c : ClientIdentity} {name : String} (hbundle : c.certSecret = some name)
    (v : V) (m : ClientMaterial) :
    sourceClientMaterial p (some c) (some v) = .ok m ↔
      ∃ bundle, p.getTlsBundle v name = .ok (some bundle) ∧
        m = ⟨some bundle.certPem, some bundle.keyPem, bundle.caPem⟩ := by
  simp only [sourceClientMaterial, hbundle]
  split
  · rename_i e he
    simp [he]
  · rename_i hnone
    simp [hnone]
  · rename_i bundle hsome
    simp only [hsome, Except.ok.injEq, Option.some.injEq, exists_eq_left']
    exact eq_comm

/-- What an identity of two references loads across two states of the vault. -/
theorem across_inline {c : ClientIdentity} {cert key : SecretRef} (hbundle : c.certSecret = none)
    (hcert : c.cert = some cert) (hkey : c.key = some key) (creds later : Option V)
    (m : ClientMaterial) :
    sourceClientMaterialAcross p (some c) creds later = .ok m ↔
      ∃ certPem keyPem, cert.resolve p creds "client.cert" = .ok certPem ∧
        key.resolve p later "client.key" = .ok keyPem ∧
          m = ⟨some certPem, some keyPem, none⟩ := by
  simp only [sourceClientMaterialAcross, hbundle, hcert, hkey]
  constructor
  · intro h
    obtain ⟨certPem, hc, h⟩ := bind_ok.mp h
    obtain ⟨keyPem, hk, h⟩ := bind_ok.mp h
    cases h
    exact ⟨certPem, keyPem, hc, hk, rfl⟩
  · rintro ⟨certPem, keyPem, hc, hk, rfl⟩
    rw [hc, hk]
    rfl

/-- An identity that is a bundle is read in one state. -/
theorem across_bundle {c : ClientIdentity} {name : String} (hbundle : c.certSecret = some name)
    (creds later : Option V) :
    sourceClientMaterialAcross p (some c) creds later =
      sourceClientMaterial p (some c) creds := by
  simp only [sourceClientMaterialAcross, hbundle]

/-- In one state of the vault the identity loads one pair. -/
theorem loadsPair_self {client : Option ClientIdentity} {v : V} :
    LoadsPair p belongs client v v ↔ ∃ cert key ca,
      sourceClientMaterial p client (some v) = .ok ⟨some cert, some key, ca⟩ ∧
        belongs cert key := by
  unfold LoadsPair
  rw [sourceClientMaterialAcross_self]

/-! ## Puts the identity does not see -/

/-- To a connect of this identity the two states of the vault are the same, at either read. -/
structure ReadAlike (p : TlsPlatform V) (client : Option ClientIdentity) (v w : V) : Prop where
  first : ∀ later, sourceClientMaterialAcross p client (some v) later =
    sourceClientMaterialAcross p client (some w) later
  later : ∀ first, sourceClientMaterialAcross p client first (some v) =
    sourceClientMaterialAcross p client first (some w)

/-- A vault is read as itself. -/
theorem ReadAlike.refl (client : Option ClientIdentity) (v : V) : ReadAlike p client v v :=
  ⟨fun _ => rfl, fun _ => rfl⟩

/-- Vaults that are read alike with one are read alike. -/
theorem ReadAlike.trans {client : Option ClientIdentity} {u v w : V} (h : ReadAlike p client u v)
    (h' : ReadAlike p client v w) : ReadAlike p client u w :=
  ⟨fun later => (h.first later).trans (h'.first later),
    fun first => (h.later first).trans (h'.later first)⟩

/-- Alike states load the same. -/
theorem ReadAlike.source_eq {client : Option ClientIdentity} {v w : V}
    (h : ReadAlike p client v w) :
    sourceClientMaterial p client (some v) = sourceClientMaterial p client (some w) := by
  rw [← sourceClientMaterialAcross_self, h.first, h.later, sourceClientMaterialAcross_self]

/-- A pair that is loaded from one state is loaded across states like it. -/
theorem ReadAlike.loadsPair {client : Option ClientIdentity} {v w vault : V}
    (hv : ReadAlike p client v vault) (hw : ReadAlike p client w vault)
    (h : LoadsPair p belongs client vault vault) : LoadsPair p belongs client v w := by
  obtain ⟨cert, key, ca, hloads, hbelongs⟩ := h
  refine ⟨cert, key, ca, ?_, hbelongs⟩
  rw [hv.first, hw.later]
  exact hloads

/-- A put to a secret the identity is not read from changes nothing for it. -/
theorem readAlike_put (laws : VaultLaws p) {client : Option ClientIdentity} {name : String}
    (hunread : ¬ReadsSecret client name) (v : V) (bytes : Bytes) :
    ReadAlike p client (p.put v name bytes) v := by
  cases client with
  | none => exact ⟨fun _ => rfl, fun _ => rfl⟩
  | some c =>
    cases hbundle : c.certSecret with
    | some other =>
      have hne : other ≠ name := by
        rintro rfl
        exact hunread ⟨c, rfl, .inl hbundle⟩
      refine ⟨fun later => ?_, fun first => ?_⟩
      · simp only [across_bundle hbundle, sourceClientMaterial, hbundle,
          laws.bundle_put_ne v name other bytes hne]
      · simp only [across_bundle hbundle]
    | none =>
      cases hcert : c.cert with
      | none =>
        refine ⟨fun later => ?_, fun first => ?_⟩ <;>
          simp only [sourceClientMaterialAcross, sourceClientMaterial, hbundle, hcert]
      | some cert =>
        cases hkey : c.key with
        | none =>
          refine ⟨fun later => ?_, fun first => ?_⟩ <;>
            simp only [sourceClientMaterialAcross, sourceClientMaterial, hbundle, hcert, hkey]
        | some key =>
          have hread : ∀ r : SecretRef, r = cert ∨ r = key → r.secret ≠ name := by
            rintro r hr rfl
            refine hunread ⟨c, rfl, .inr ⟨hbundle, cert, key, hcert, hkey, ?_⟩⟩
            obtain rfl | rfl := hr
            · exact .inl rfl
            · exact .inr rfl
          refine ⟨fun later => ?_, fun first => ?_⟩
          · simp only [sourceClientMaterialAcross, hbundle, hcert, hkey,
              resolve_put_ne laws (hread cert (.inl rfl))]
          · simp only [sourceClientMaterialAcross, hbundle, hcert, hkey,
              resolve_put_ne laws (hread key (.inr rfl))]

/-! ## Half a pair -/

/-- What a reference that resolved before resolves to after a put: what was put, or the same. -/
theorem resolve_put_cases (laws : VaultLaws p) {pem : String} (hpem : PemSecret p pem)
    {r : SecretRef} {name : String} {v : V} {what old text : String}
    (hold : r.resolve p (some v) what = .ok old)
    (h : r.resolve p (some (p.put v name pem.toUTF8.toList)) what = .ok text) :
    (r.secret = name ∧ text = pem) ∨ (r.secret ≠ name ∧ text = old) := by
  by_cases hname : r.secret = name
  · subst hname
    exact .inl ⟨rfl, resolve_put_pem laws hpem h⟩
  · rw [resolve_put_ne laws hname, hold] at h
    cases h
    exact .inr ⟨hname, rfl⟩

/-- A PEM text that makes no pair with what was there, nor with itself, put to a secret the
identity is read from, leaves the identity without a pair. -/
theorem not_loadsPair_pem (laws : VaultLaws p) {client : Option ClientIdentity} {name pem : String}
    {v : V} {oldCert oldKey : String} {ca : Option String} (hreads : ReadsSecret client name)
    (hold : sourceClientMaterial p client (some v) = .ok ⟨some oldCert, some oldKey, ca⟩)
    (hpem : PemSecret p pem) (hself : ¬belongs pem pem) (hkey : ¬belongs pem oldKey)
    (hcert : ¬belongs oldCert pem) :
    ¬LoadsPair p belongs client (p.put v name pem.toUTF8.toList)
      (p.put v name pem.toUTF8.toList) := by
  intro hafter
  obtain ⟨cert, key, ca', hloads, hbelongs⟩ := loadsPair_self.mp hafter
  obtain ⟨c, rfl, hbundle | ⟨hnone, certRef, keyRef, hc, hk, hname⟩⟩ := hreads
  · obtain ⟨bundle, hput, -⟩ := (source_bundle hbundle _ _).mp hloads
    exact hpem.noBundle v name bundle hput
  · obtain ⟨x₀, y₀, hx₀, hy₀, heq₀⟩ := (source_inline hnone hc hk _ _).mp hold
    obtain ⟨x, y, hx, hy, heq⟩ := (source_inline hnone hc hk _ _).mp hloads
    cases heq₀
    cases heq
    obtain ⟨-, rfl⟩ | ⟨hcertRef, rfl⟩ := resolve_put_cases laws hpem hx₀ hx
    · obtain ⟨-, rfl⟩ | ⟨-, rfl⟩ := resolve_put_cases laws hpem hy₀ hy
      · exact hself hbelongs
      · exact hkey hbelongs
    · obtain ⟨-, rfl⟩ | ⟨hkeyRef, rfl⟩ := resolve_put_cases laws hpem hy₀ hy
      · exact hcert hbelongs
      · exact hname.elim hcertRef hkeyRef

/-! ## A whole bundle -/

section Bundle

variable {certPem keyPem : String} {bytes : Bytes}

/-- The JSON a bundle is encoded as. -/
def bundleJson (certPem keyPem : String) : Json :=
  .obj [("certPem", .str certPem), ("keyPem", .str keyPem)]

/-- A bundle has the two fields and no other. -/
theorem bundleJson_get (certPem keyPem f : String) :
    ((bundleJson certPem keyPem).get f).bind Json.asStr =
      if f = "certPem" then some certPem else if f = "keyPem" then some keyPem else none := by
  by_cases hcert : f = "certPem"
  · subst hcert
    rfl
  · have hfirst : (f == "certPem") = false := beq_false_of_ne hcert
    rw [if_neg hcert]
    simp only [bundleJson, Json.get, List.lookup_cons, hfirst]
    by_cases hkey : f = "keyPem"
    · subst hkey
      rfl
    · have hsecond : (f == "keyPem") = false := beq_false_of_ne hkey
      rw [if_neg hkey]
      simp only [hsecond]
      rfl

/-- An identity that is read as a bundle loads the bundle that was put. -/
theorem loadsPair_bundle (hsecret : BundleSecret p belongs certPem keyPem bytes)
    (hissued : belongs certPem keyPem)
    {client : Option ClientIdentity} {name : String}
    (hreads : ReadsBundle client name) (v later : V) :
    LoadsPair p belongs client (p.put v name bytes) later := by
  obtain ⟨c, rfl, hbundle⟩ := hreads
  refine ⟨certPem, keyPem, none, ?_, hissued⟩
  rw [across_bundle hbundle]
  exact (source_bundle hbundle _ _).mpr ⟨⟨certPem, keyPem, none⟩, hsecret.bundle v name, rfl⟩

/-- What a reference into a bundle that was put resolves to: the certificate, the key, or the
encoded text. -/
theorem resolve_put_bundle (laws : VaultLaws p)
    (hsecret : BundleSecret p belongs certPem keyPem bytes) {r : SecretRef} {v : V}
    {what text : String} (h : r.resolve p (some (p.put v r.secret bytes)) what = .ok text) :
    (r.field = some "certPem" ∧ text = certPem) ∨ (r.field = some "keyPem" ∧ text = keyPem) ∨
      p.asStr bytes = .ok text := by
  obtain ⟨-, hstr⟩ | ⟨f, json, hfield, hjson, htext⟩ := resolve_put_ok laws h
  · exact .inr (.inr hstr)
  · rw [hsecret.asJson] at hjson
    cases hjson
    rw [← bundleJson, bundleJson_get] at htext
    by_cases hcert : f = "certPem"
    · subst hcert
      rw [if_pos rfl] at htext
      cases htext
      exact .inl ⟨hfield, rfl⟩
    · rw [if_neg hcert] at htext
      by_cases hkey : f = "keyPem"
      · subst hkey
        rw [if_pos rfl] at htext
        cases htext
        exact .inr (.inl ⟨hfield, rfl⟩)
      · rw [if_neg hkey] at htext
        cases htext

/-- What a reference that resolved before resolves to after a bundle was put somewhere. -/
theorem resolve_bundle_cases (laws : VaultLaws p)
    (hsecret : BundleSecret p belongs certPem keyPem bytes) {r : SecretRef} {name : String}
    {v : V} {what old text : String} (hold : r.resolve p (some v) what = .ok old)
    (h : r.resolve p (some (p.put v name bytes)) what = .ok text) :
    (r = ⟨name, some "certPem"⟩ ∧ text = certPem) ∨ (r = ⟨name, some "keyPem"⟩ ∧ text = keyPem) ∨
      p.asStr bytes = .ok text ∨ (r.secret ≠ name ∧ text = old) := by
  by_cases hname : r.secret = name
  · subst hname
    obtain ⟨hfield, htext⟩ | ⟨hfield, htext⟩ | hstr := resolve_put_bundle laws hsecret h
    · refine .inl ⟨?_, htext⟩
      rw [← hfield]
    · refine .inr (.inl ⟨?_, htext⟩)
      rw [← hfield]
    · exact .inr (.inr (.inl hstr))
  · rw [resolve_put_ne laws hname, hold] at h
    cases h
    exact .inr (.inr (.inr ⟨hname, rfl⟩))

/-- A bundle put to a secret that is read, but not in one go, leaves a connect without a pair: one
that reads both after the put, or one that reads the certificate before it. -/
theorem readsBundle_of_loadsPair (laws : VaultLaws p) {client : Option ClientIdentity}
    {name : String} {v : V} {oldCert oldKey : String} {ca : Option String}
    (hreads : ReadsSecret client name)
    (hold : sourceClientMaterial p client (some v) = .ok ⟨some oldCert, some oldKey, ca⟩)
    (hfresh : IssuedAfresh p belongs certPem keyPem oldCert oldKey)
    (hsecret : BundleSecret p belongs certPem keyPem bytes)
    (hafter : LoadsPair p belongs client (p.put v name bytes) (p.put v name bytes))
    (hacross : LoadsPair p belongs client v (p.put v name bytes)) : ReadsBundle client name := by
  obtain ⟨cert, key, ca', hloads, hbelongs⟩ := loadsPair_self.mp hafter
  obtain ⟨c, rfl, hbundle | ⟨hnone, certRef, keyRef, hc, hk, hname⟩⟩ := hreads
  · exact ⟨c, rfl, hbundle⟩
  · obtain ⟨x₀, y₀, hx₀, hy₀, heq₀⟩ := (source_inline hnone hc hk _ _).mp hold
    obtain ⟨x, y, hx, hy, heq⟩ := (source_inline hnone hc hk _ _).mp hloads
    cases heq₀
    cases heq
    -- a certificate that belongs to a key is the bundle's or the old one, and so is a key
    have hcert : (certRef = ⟨name, some "certPem"⟩ ∧ cert = certPem) ∨
        (certRef.secret ≠ name ∧ cert = oldCert) := by
      obtain h | ⟨-, rfl⟩ | hstr | h := resolve_bundle_cases laws hsecret hx₀ hx
      · exact .inl h
      · exact absurd hbelongs (hfresh.keyNoCert key)
      · exact absurd hbelongs (hsecret.noCert cert key hstr)
      · exact .inr h
    have hkey : (keyRef = ⟨name, some "keyPem"⟩ ∧ key = keyPem) ∨
        (keyRef.secret ≠ name ∧ key = oldKey) := by
      obtain ⟨-, rfl⟩ | h | hstr | h := resolve_bundle_cases laws hsecret hy₀ hy
      · exact absurd hbelongs (hfresh.certNoKey cert)
      · exact .inl h
      · exact absurd hbelongs (hsecret.noKey key cert hstr)
      · exact .inr h
    obtain ⟨rfl, rfl⟩ | ⟨hcs, rfl⟩ := hcert
    · obtain ⟨rfl, rfl⟩ | ⟨-, rfl⟩ := hkey
      · -- the two fields, with the put between their reads
        obtain ⟨_, _, _, hloads', hbelongs'⟩ := hacross
        obtain ⟨x', y', hx', hy', heq'⟩ := (across_inline hnone hc hk _ _ _).mp hloads'
        cases heq'
        cases Except.ok.inj (hx₀.symm.trans hx')
        cases Except.ok.inj (hy.symm.trans hy')
        exact absurd hbelongs' hfresh.otherCert
      · exact absurd hbelongs hfresh.otherKey
    · obtain ⟨-, rfl⟩ | ⟨hks, -⟩ := hkey
      · exact absurd hbelongs hfresh.otherCert
      · exact (hname.elim hcs hks).elim

end Bundle

/-! ## The write-back -/

section WriteBack

variable {certPem keyPem oldCert oldKey : String} {ca : Option String}
  {client : Option ClientIdentity} {vault : V}

/-- A write-back whose puts the identity does not see keeps it. -/
theorem keepsIdentity_of_alike (hbefore : LoadsPair p belongs client vault vault)
    {after : List V} (hafter : ∀ v ∈ after, ReadAlike p client v vault)
    (result : Except String String) :
    KeepsIdentity p belongs client vault ⟨vault :: after, result⟩ := by
  have halike : ∀ v ∈ vault :: after, ReadAlike p client v vault :=
    List.forall_mem_cons.mpr ⟨ReadAlike.refl client vault, hafter⟩
  refine ⟨fun e _ v hv => ?_, fun i j first later _ hfirst hlater => ?_⟩
  · exact (halike v (List.mem_of_getLast? hv)).source_eq
  · have hv := halike first (List.mem_of_getElem? hfirst)
    have hw := halike later (List.mem_of_getElem? hlater)
    exact hv.loadsPair hw hbefore

/-- A write-back whose first put fails leaves the vault alone. -/
theorem keepsIdentity_untouched (hbefore : LoadsPair p belongs client vault vault)
    (result : Except String String) : KeepsIdentity p belongs client vault ⟨[vault], result⟩ := by
  apply keepsIdentity_of_alike hbefore
  intro v hv
  cases hv

/-- A bundle is written whole. -/
theorem keepsIdentity_bundle_iff (laws : VaultLaws p)
    (hold : sourceClientMaterial p client (some vault) = .ok ⟨some oldCert, some oldKey, ca⟩)
    (hbelongs : belongs oldCert oldKey)
    (hfresh : IssuedAfresh p belongs certPem keyPem oldCert oldKey) (name : String)
    (first second : Except String Unit) :
    KeepsIdentity p belongs client vault
        (writeEnrolled p (.bundle name) certPem keyPem (some vault) first second) ↔
      (Succeeds first → ReadsSecret client name → ReadsBundle client name) := by
  have hbefore : LoadsPair p belongs client vault vault :=
    loadsPair_self.mpr ⟨oldCert, oldKey, ca, hold, hbelongs⟩
  obtain ⟨bytes, hsecret⟩ := hfresh.bundle
  cases first with
  | error e =>
    simp only [writeEnrolled, hsecret.encoded, vaultPut, Except.map]
    refine ⟨fun _ hok => ?_, fun _ => keepsIdentity_untouched hbefore _⟩
    cases hok
  | ok u =>
    simp only [writeEnrolled, hsecret.encoded, vaultPut, Except.map]
    constructor
    · intro hkeeps _ hreads
      have hafter := hkeeps.matched 1 1 _ _ le_rfl rfl rfl
      have hacross := hkeeps.matched 0 1 _ _ (Nat.zero_le 1) rfl rfl
      exact readsBundle_of_loadsPair laws hreads hold hfresh hsecret hafter hacross
    · intro hcondition
      by_cases hreads : ReadsSecret client name
      · have hbundle := hcondition rfl hreads
        refine ⟨fun e herror => ?_, fun i j first later hij hfirst hlater => ?_⟩
        · cases herror
        have hmem := List.mem_of_getElem? hfirst
        simp only [List.mem_cons, List.not_mem_nil, or_false] at hmem
        obtain rfl | rfl := hmem
        · -- the bundle was read before the put
          obtain ⟨c, rfl, hsecretOf⟩ := hbundle
          refine ⟨oldCert, oldKey, ca, ?_, hbelongs⟩
          rw [across_bundle hsecretOf]
          exact hold
        · exact loadsPair_bundle hsecret hfresh.issued hbundle vault later
      · apply keepsIdentity_of_alike hbefore
        rw [List.forall_mem_singleton]
        exact readAlike_put laws hreads vault bytes

/-- The certificate, put where the identity is read, makes no pair with the old key. -/
theorem put_cert_torn (laws : VaultLaws p)
    (hold : sourceClientMaterial p client (some vault) = .ok ⟨some oldCert, some oldKey, ca⟩)
    (hfresh : IssuedAfresh p belongs certPem keyPem oldCert oldKey) {cert : String}
    (hreads : ReadsSecret client cert) :
    ¬LoadsPair p belongs client (p.put vault cert certPem.toUTF8.toList)
      (p.put vault cert certPem.toUTF8.toList) :=
  not_loadsPair_pem laws hreads hold hfresh.certSecret (hfresh.certNoKey certPem)
    hfresh.otherKey (hfresh.certNoKey oldCert)

/-- The key, put where the identity is read, makes no pair with the old certificate. -/
theorem put_key_torn (laws : VaultLaws p)
    (hold : sourceClientMaterial p client (some vault) = .ok ⟨some oldCert, some oldKey, ca⟩)
    (hfresh : IssuedAfresh p belongs certPem keyPem oldCert oldKey) {key : String}
    (hreads : ReadsSecret client key) :
    ¬LoadsPair p belongs client (p.put vault key keyPem.toUTF8.toList)
      (p.put vault key keyPem.toUTF8.toList) :=
  not_loadsPair_pem laws hreads hold hfresh.keySecret (hfresh.keyNoCert keyPem)
    (hfresh.keyNoCert oldKey) hfresh.otherCert

/-- Only the certificate was put. -/
theorem keepsIdentity_half_iff (laws : VaultLaws p)
    (hold : sourceClientMaterial p client (some vault) = .ok ⟨some oldCert, some oldKey, ca⟩)
    (hbelongs : belongs oldCert oldKey)
    (hfresh : IssuedAfresh p belongs certPem keyPem oldCert oldKey) (cert e : String) :
    KeepsIdentity p belongs client vault
        ⟨[vault, p.put vault cert certPem.toUTF8.toList], .error e⟩ ↔
      ¬ReadsSecret client cert := by
  constructor
  · intro hkeeps hreads
    exact put_cert_torn laws hold hfresh hreads (hkeeps.matched 1 1 _ _ le_rfl rfl rfl)
  · intro hunread
    apply keepsIdentity_of_alike (loadsPair_self.mpr ⟨oldCert, oldKey, ca, hold, hbelongs⟩)
    rw [List.forall_mem_singleton]
    exact readAlike_put laws hunread vault _

/-- The certificate was put, and then the key. -/
theorem keepsIdentity_whole_iff (laws : VaultLaws p)
    (hold : sourceClientMaterial p client (some vault) = .ok ⟨some oldCert, some oldKey, ca⟩)
    (hbelongs : belongs oldCert oldKey)
    (hfresh : IssuedAfresh p belongs certPem keyPem oldCert oldKey) (cert key name : String) :
    KeepsIdentity p belongs client vault
        ⟨[vault, p.put vault cert certPem.toUTF8.toList,
          p.put (p.put vault cert certPem.toUTF8.toList) key keyPem.toUTF8.toList], .ok name⟩ ↔
      ¬ReadsSecret client cert ∧ ¬ReadsSecret client key := by
  constructor
  · intro hkeeps
    have hunread : ¬ReadsSecret client cert := fun hreads =>
      put_cert_torn laws hold hfresh hreads (hkeeps.matched 1 1 _ _ le_rfl rfl rfl)
    refine ⟨hunread, fun hreads => ?_⟩
    -- the certificate went elsewhere, so it is the old one the key meets
    have hkept := (readAlike_put laws hunread vault certPem.toUTF8.toList).source_eq
    exact put_key_torn laws (hkept.trans hold) hfresh hreads
      (hkeeps.matched 2 2 _ _ le_rfl rfl rfl)
  · rintro ⟨hcert, hkey⟩
    have hfirst := readAlike_put laws hcert vault certPem.toUTF8.toList
    have hsecond := readAlike_put laws hkey (p.put vault cert certPem.toUTF8.toList)
      keyPem.toUTF8.toList
    apply keepsIdentity_of_alike (loadsPair_self.mpr ⟨oldCert, oldKey, ca, hold, hbelongs⟩)
    rw [List.forall_mem_cons, List.forall_mem_singleton]
    exact ⟨hfirst, hsecond.trans hfirst⟩

/-- A pair is written whole only where the identity is not read. -/
theorem keepsIdentity_pair_iff (laws : VaultLaws p)
    (hold : sourceClientMaterial p client (some vault) = .ok ⟨some oldCert, some oldKey, ca⟩)
    (hbelongs : belongs oldCert oldKey)
    (hfresh : IssuedAfresh p belongs certPem keyPem oldCert oldKey) (cert key : String)
    (first second : Except String Unit) :
    KeepsIdentity p belongs client vault
        (writeEnrolled p (.pair cert key) certPem keyPem (some vault) first second) ↔
      (Succeeds first →
        ¬ReadsSecret client cert ∧ (Succeeds second → ¬ReadsSecret client key)) := by
  cases first with
  | error e =>
    simp only [writeEnrolled, vaultPut, Except.map]
    refine ⟨fun _ hok => ?_, fun _ =>
      keepsIdentity_untouched (loadsPair_self.mpr ⟨_, _, _, hold, hbelongs⟩) _⟩
    cases hok
  | ok u =>
    have hfirst : Succeeds (Except.ok u : Except String Unit) := rfl
    cases second with
    | error e =>
      simp only [writeEnrolled, vaultPut, Except.map]
      rw [keepsIdentity_half_iff laws hold hbelongs hfresh]
      refine ⟨fun hunread _ => ⟨hunread, fun hok => ?_⟩, fun h => (h hfirst).1⟩
      cases hok
    | ok u' =>
      simp only [writeEnrolled, vaultPut, Except.map]
      rw [keepsIdentity_whole_iff laws hold hbelongs hfresh]
      constructor
      · rintro ⟨hcert, hkey⟩ -
        exact ⟨hcert, fun _ => hkey⟩
      · intro h
        exact ⟨(h hfirst).1, (h hfirst).2 rfl⟩

end WriteBack

/-- For every identity, every destination, every vault in which the identity loads a pair, and
every outcome of the puts: a write-back keeps the identity, failed or not and at every moment,
exactly when no put of half a pair to a secret it is read from succeeds and a bundle is only put
where it is read in one go. -/
theorem write_back_keeps_identity_iff (laws : VaultLaws p) (client : Option ClientIdentity)
    (dest : ResolvedDestination) (vault : V) (certPem keyPem oldCert oldKey : String)
    (ca : Option String) (first second : Except String Unit)
    (hold : sourceClientMaterial p client (some vault) = .ok ⟨some oldCert, some oldKey, ca⟩)
    (hbelongs : belongs oldCert oldKey)
    (hfresh : IssuedAfresh p belongs certPem keyPem oldCert oldKey) :
    KeepsIdentity p belongs client vault
        (writeEnrolled p dest certPem keyPem (some vault) first second) ↔
      WritesWhole client dest first second := by
  cases dest with
  | bundle name => exact keepsIdentity_bundle_iff laws hold hbelongs hfresh name first second
  | pair cert key => exact keepsIdentity_pair_iff laws hold hbelongs hfresh cert key first second

/-- An identity in two secrets of its own. -/
def pairClient : ClientIdentity where
  cert := some ⟨"tls/cert", none⟩
  key := some ⟨"tls/key", none⟩

/-- An identity in one bundle. -/
def bundleClient : ClientIdentity where
  certSecret := some "ot/originator"

/-- A vault with the old identity in both forms. -/
def oldVault : List (String × Bytes) :=
  [("tls/cert", (certText "old").toUTF8.toList), ("tls/key", (keyText "old").toUTF8.toList),
    ("ot/originator", bundleBytes (certText "old") (keyText "old"))]

/-- The pair is loaded from its two secrets. -/
theorem pairClient_loads {v : List (String × Bytes)} {cert key : String}
    (hcert : v.lookup "tls/cert" = some cert.toUTF8.toList)
    (hkey : v.lookup "tls/key" = some key.toUTF8.toList) :
    sourceClientMaterial listPlatform (some pairClient) (some v) =
      .ok ⟨some cert, some key, none⟩ := by
  refine (source_inline rfl rfl rfl _ _).mpr ⟨cert, key, ?_, ?_, rfl⟩
  · exact listPlatform_resolve rfl hcert _
  · exact listPlatform_resolve rfl hkey _

/-- The vault holds the old certificate. -/
theorem oldVault_cert : oldVault.lookup "tls/cert" = some (certText "old").toUTF8.toList :=
  List.lookup_cons_self

/-- It holds the old key. -/
theorem oldVault_key : oldVault.lookup "tls/key" = some (keyText "old").toUTF8.toList := by
  have hne : ("tls/key" == "tls/cert") = false := by simp
  rw [oldVault, List.lookup_cons, hne]
  exact List.lookup_cons_self

/-- It holds the old bundle. -/
theorem oldVault_bundle : oldVault.lookup "ot/originator" =
    some (bundleBytes (certText "old") (keyText "old")) := by
  have hcert : ("ot/originator" == "tls/cert") = false := by simp
  have hkey : ("ot/originator" == "tls/key") = false := by simp
  rw [oldVault, List.lookup_cons, hcert]
  simp only
  rw [List.lookup_cons, hkey]
  exact List.lookup_cons_self

/-- A field of the old bundle resolves to what it holds. -/
theorem oldVault_field {f text : String} (what : String)
    (htext : ((bundleJson (certText "old") (keyText "old")).get f).bind Json.asStr = some text) :
    SecretRef.resolve listPlatform ⟨"ot/originator", some f⟩ (some oldVault) what = .ok text := by
  have hget : listPlatform.get oldVault "ot/originator" =
      .ok (some (bundleBytes (certText "old") (keyText "old"))) :=
    congrArg Except.ok oldVault_bundle
  have hjson : listPlatform.asJson (bundleBytes (certText "old") (keyText "old")) =
      .ok (bundleJson (certText "old") (keyText "old")) := by
    simp only [listPlatform, parseBundle_old, bundleJson]
  simp only [SecretRef.resolve, hget, hjson, htext]

/-- The bundle's identity, read field by field. -/
def fieldsClient : ClientIdentity where
  cert := some ⟨"ot/originator", some "certPem"⟩
  key := some ⟨"ot/originator", some "keyPem"⟩

/-- A bundle that is written where the identity reads it as one keeps the identity; where its fields
are read one after the other it does not. -/
theorem write_back_keeps_identity_bundle :
    KeepsIdentity listPlatform OnePair (some bundleClient) oldVault
        (writeEnrolled listPlatform (.bundle "ot/originator") (certText "new") (keyText "new")
          (some oldVault) (.ok ()) (.ok ())) ∧
      ¬KeepsIdentity listPlatform OnePair (some fieldsClient) oldVault
        (writeEnrolled listPlatform (.bundle "ot/originator") (certText "new") (keyText "new")
          (some oldVault) (.ok ()) (.ok ())) := by
  have hbundle : sourceClientMaterial listPlatform (some bundleClient) (some oldVault) =
      .ok ⟨some (certText "old"), some (keyText "old"), none⟩ :=
    (source_bundle rfl _ _).mpr
      ⟨_, listPlatform_getTlsBundle oldVault_bundle parseBundle_old, rfl⟩
  have hfields : sourceClientMaterial listPlatform (some fieldsClient) (some oldVault) =
      .ok ⟨some (certText "old"), some (keyText "old"), none⟩ := by
    refine (source_inline rfl rfl rfl _ _).mpr ⟨certText "old", keyText "old", ?_, ?_, rfl⟩
    · exact oldVault_field _ rfl
    · exact oldVault_field _ rfl
  refine ⟨?_, ?_⟩
  · apply (write_back_keeps_identity_iff listPlatform_laws (some bundleClient)
      (.bundle "ot/originator") oldVault (certText "new") (keyText "new") (certText "old")
      (keyText "old") none (.ok ()) (.ok ()) hbundle onePair_old listPlatform_issued).mpr
    exact fun _ _ => ⟨bundleClient, rfl, rfl⟩
  · intro hkeeps
    have hwhole := (write_back_keeps_identity_iff listPlatform_laws (some fieldsClient)
      (.bundle "ot/originator") oldVault (certText "new") (keyText "new") (certText "old")
      (keyText "old") none (.ok ()) (.ok ()) hfields onePair_old listPlatform_issued).mp hkeeps
    have hreads : ReadsSecret (some fieldsClient) "ot/originator" :=
      ⟨fieldsClient, rfl, .inr ⟨rfl, _, _, rfl, rfl, .inl rfl⟩⟩
    obtain ⟨c, hclient, hsecret⟩ := hwhole rfl hreads
    cases hclient
    cases hsecret

/-- The identity is in two secrets, the certificate is put and the put of its key fails: the
write-back fails, and what the identity loads from then on is the new certificate with the old
key. -/
theorem pair_write_back_tears_identity :
    sourceClientMaterial listPlatform (some pairClient) (some oldVault) =
        .ok ⟨some (certText "old"), some (keyText "old"), none⟩ ∧
      OnePair (certText "old") (keyText "old") ∧
      ∃ after e, (writeEnrolled listPlatform (.pair "tls/cert" "tls/key") (certText "new")
          (keyText "new") (some oldVault) (.ok ()) (.error "disk full")) =
            ⟨[oldVault, after], .error e⟩ ∧
        sourceClientMaterial listPlatform (some pairClient) (some after) =
          .ok ⟨some (certText "new"), some (keyText "old"), none⟩ ∧
        ¬OnePair (certText "new") (keyText "old") ∧
        ¬KeepsIdentity listPlatform OnePair (some pairClient) oldVault
          (writeEnrolled listPlatform (.pair "tls/cert" "tls/key") (certText "new")
            (keyText "new") (some oldVault) (.ok ()) (.error "disk full")) := by
  have hold := pairClient_loads oldVault_cert oldVault_key
  have htorn : sourceClientMaterial listPlatform (some pairClient)
      (some (("tls/cert", (certText "new").toUTF8.toList) :: oldVault)) =
        .ok ⟨some (certText "new"), some (keyText "old"), none⟩ := by
    refine pairClient_loads List.lookup_cons_self ?_
    have hne : ("tls/key" == "tls/cert") = false := by simp
    rw [List.lookup_cons, hne]
    exact oldVault_key
  refine ⟨hold, onePair_old, ("tls/cert", (certText "new").toUTF8.toList) :: oldVault, _, rfl,
    htorn, not_onePair old_ne_new.symm, ?_⟩
  intro hkeeps
  have hfailed := hkeeps.failed _ rfl _ rfl
  have hsame := htorn.symm.trans (hfailed.trans hold)
  have hcert := Option.some.inj (congrArg ClientMaterial.certPem (Except.ok.inj hsame))
  exact old_ne_new (certText_inj hcert).symm

end EnipAdapter.Analysis
