import Mathlib.Data.List.Basic
import Mathlib.Tactic.Ring

/-!
# Fixed-width integers as byte strings

`leBytes w v` writes the low `w` bytes of `v`, least significant byte first, and
`ofLeBytes` reads a byte string back as a number. Both directions are total: a value
that does not fit is written modulo `256 ^ w`, exactly as a machine integer of that
width is. `beBytes` and `ofBeBytes` are the most-significant-first spelling.
-/

set_option autoImplicit false

namespace EnipAdapter.Foundation

/-- The low `w` bytes of `v`, least significant first. -/
def leBytes : ℕ → ℕ → List UInt8
  | 0, _ => []
  | w + 1, v => UInt8.ofNat (v % 256) :: leBytes w (v / 256)

/-- The number a little-endian byte string denotes. -/
def ofLeBytes : List UInt8 → ℕ
  | [] => 0
  | b :: bs => b.toNat + 256 * ofLeBytes bs

/-- The low `w` bytes of `v`, most significant first. -/
def beBytes (w v : ℕ) : List UInt8 := (leBytes w v).reverse

/-- The number a big-endian byte string denotes. -/
def ofBeBytes (bs : List UInt8) : ℕ := ofLeBytes bs.reverse

/-- A `w`-byte encoding has `w` bytes. -/
@[simp] theorem leBytes_length (w v : ℕ) : (leBytes w v).length = w := by
  induction w generalizing v with
  | zero => rfl
  | succ w ih => simp [leBytes, ih]

/-- A `w`-byte encoding has `w` bytes, in either byte order. -/
@[simp] theorem beBytes_length (w v : ℕ) : (beBytes w v).length = w := by
  simp [beBytes]

/-- Reading back what was written loses exactly what did not fit. -/
@[simp] theorem ofLeBytes_leBytes (w v : ℕ) : ofLeBytes (leBytes w v) = v % 256 ^ w := by
  induction w generalizing v with
  | zero => simp [leBytes, ofLeBytes, Nat.mod_one]
  | succ w ih =>
      have hlow : (UInt8.ofNat (v % 256)).toNat = v % 256 := by
        simp [UInt8.toNat_ofNat']
      rw [leBytes, ofLeBytes, ih, hlow, pow_succ, Nat.mul_comm (256 ^ w) 256, Nat.mod_mul]

/-- Two values below the width's bound that are written alike are equal: the byte string
identifies the number. -/
theorem leBytes_inj {w u v : ℕ} (hu : u < 256 ^ w) (hv : v < 256 ^ w)
    (h : leBytes w u = leBytes w v) : u = v := by
  have hread : ofLeBytes (leBytes w u) = ofLeBytes (leBytes w v) := by rw [h]
  rw [ofLeBytes_leBytes, ofLeBytes_leBytes, Nat.mod_eq_of_lt hu, Nat.mod_eq_of_lt hv] at hread
  exact hread

/-- A byte string denotes a number below the bound of its width. -/
theorem ofLeBytes_lt (bs : List UInt8) : ofLeBytes bs < 256 ^ bs.length := by
  induction bs with
  | nil => simp [ofLeBytes]
  | cons b bs ih =>
      have hb : b.toNat < 256 := b.toNat_lt
      rw [ofLeBytes, List.length_cons, pow_succ]
      omega

/-- Writing the number a byte string denotes gives the byte string back. -/
theorem leBytes_ofLeBytes (bs : List UInt8) : leBytes bs.length (ofLeBytes bs) = bs := by
  induction bs with
  | nil => rfl
  | cons b bs ih =>
      have hb : b.toNat < 256 := b.toNat_lt
      have hlow : (b.toNat + 256 * ofLeBytes bs) % 256 = b.toNat := by omega
      have hhigh : (b.toNat + 256 * ofLeBytes bs) / 256 = ofLeBytes bs := by omega
      rw [List.length_cons, ofLeBytes, leBytes, hlow, hhigh, ih, UInt8.ofNat_toNat]

/-- The same three facts in the other byte order. -/
theorem ofBeBytes_beBytes (w v : ℕ) : ofBeBytes (beBytes w v) = v % 256 ^ w := by
  rw [ofBeBytes, beBytes, List.reverse_reverse, ofLeBytes_leBytes]

/-- The bytes bound the number they spell. -/
theorem ofBeBytes_lt (bs : List UInt8) : ofBeBytes bs < 256 ^ bs.length := by
  have h := ofLeBytes_lt bs.reverse
  rwa [List.length_reverse] at h

/-- Bytes are recovered from the number they spell. -/
theorem beBytes_ofBeBytes (bs : List UInt8) : beBytes bs.length (ofBeBytes bs) = bs := by
  rw [beBytes, ofBeBytes, ← List.length_reverse, leBytes_ofLeBytes, List.reverse_reverse]

end EnipAdapter.Foundation
