import Mathlib.Algebra.Group.Nat.Defs

/-!
# Instants and durations

Both are counted in nanoseconds. The source's types are bounded, and its checked
operations answer `None` past the bound, so the bounds are kept: a `Duration` holds `2^64`
whole seconds, an `Instant` (a `timespec` on the deployment targets) `2^63`.
-/

set_option autoImplicit false

namespace EnipAdapter.Model

/-- A span of time, in nanoseconds. -/
abbrev Duration := ℕ

/-- A point on the monotonic clock, in nanoseconds. -/
abbrev Instant := ℕ

def Duration.max : Duration := 2 ^ 64 * 10 ^ 9 - 1

/-- The first nanosecond an `Instant` cannot represent. -/
def Instant.limit : ℕ := 2 ^ 63 * 10 ^ 9

def Duration.fromMicros (n : ℕ) : Duration := n * 1000

def Duration.fromMillis (n : ℕ) : Duration := n * 1000000

def Duration.fromSecs (n : ℕ) : Duration := n * 1000000000

def Duration.checkedMul (d k : ℕ) : Option Duration :=
  if d * k ≤ Duration.max then some (d * k) else none

def Instant.checkedAdd (t : Instant) (d : Duration) : Option Instant :=
  if t + d < Instant.limit then some (t + d) else none

end EnipAdapter.Model
