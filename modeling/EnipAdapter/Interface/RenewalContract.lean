import EnipAdapter.Model.SecurityLifecycle

/-!
# What a renewal promises

The driver enrolls before it watches, so that "a fresh enrollment's vault write is observed by
the watcher this same tick": the tick that enrolls announces `cert-rotated` and has the device
task reconnect. On every other tick a reconnect follows exactly from a change of what is
observed.
-/

set_option autoImplicit false

namespace EnipAdapter.Interface

open EnipAdapter.Model

/-- The reconnects a tick hands to the device task. -/
def reconnects (effects : List LifecycleEffect) : ℕ :=
  effects.countP fun
    | .reconnect => true
    | _ => false

/-- Whether a tick announces an event. -/
def announces (kind : String) (effects : List LifecycleEffect) : Bool :=
  effects.any fun
    | .emit _ k _ _ => k == kind
    | _ => false

/-- Another client certificate, or another set of trust anchors. -/
def MaterialDiffers (prev material : SessionMaterial) : Prop :=
  prev.certPem ≠ material.certPem ∨ ¬∀ pem, pem ∈ prev.caPems ↔ pem ∈ material.caPems

section

variable {V : Type} (p : TlsPlatform V) (plan : LifecyclePlan) (s : SecurityLifecycle)
  (i : TickInput V)

/-- The enrollment of a tick succeeds. -/
def Enrolls : Prop := ∃ reenroll outcome creds,
  s.attempt p plan i = .succeeded reenroll outcome creds

/-- The vault a tick reads after its enrollment holds this material, and the certificate in it
parses. -/
structure VaultHolds (material : SessionMaterial) : Prop where
  up : i.outage = none
  read : readMaterial p plan.sec ((s.attempt p plan i).credsAfter i.creds) = .ok material
  parses : ∃ client, clientFacts p material.certPem i.now = .ok client

/-- A tick observes `material` after `prev` was the last material observed. -/
def Observes (prev material : SessionMaterial) : Prop :=
  s.observed = some prev ∧ VaultHolds p plan s i material

/-- What is promised of a tick of a task that is still there. -/
structure TickApplies : Prop where
  renewal : s.returned = false → Enrolls p plan s i →
    announces "cert-rotated" (s.tick p plan i).2 = true ∧ reconnects (s.tick p plan i).2 = 1
  watch : s.returned = false → ¬Enrolls p plan s i →
    (0 < reconnects (s.tick p plan i).2 ↔
      ∃ prev material, Observes p plan s i prev material ∧ MaterialDiffers prev material)

/-- Different material that is observed one after the other has different fingerprints. -/
def FingerprintsDistinguish : Prop :=
  ∀ prev material, Observes p plan s i prev material →
    p.fingerprint prev.certPem prev.caPems = p.fingerprint material.certPem material.caPems →
      prev = material

/-- The condition under which a tick does apply what it finds: a tick that enrolls comes after a
successful observation, reads the vault back, and finds other material there than was observed
last; what changed on another tick is not only the order or the number of the anchors; and the
device task still receives. -/
structure RenewalObserved : Prop where
  renewal : s.returned = false → Enrolls p plan s i →
    i.controlOpen = true ∧
      ∃ prev material, Observes p plan s i prev material ∧ prev ≠ material
  watch : s.returned = false → ¬Enrolls p plan s i →
    ∀ prev material, Observes p plan s i prev material → prev ≠ material →
      i.controlOpen = true ∧ MaterialDiffers prev material

end

end EnipAdapter.Interface
