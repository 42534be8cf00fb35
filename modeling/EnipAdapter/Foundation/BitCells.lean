import Mathlib.Data.List.Basic
import Mathlib.Data.Set.Basic
import Mathlib.Tactic.Ring

/-!
# A byte string as a memory of bits

Fields of a byte string may share bytes without sharing bits, so what a write touches and what
a read depends on is said in bits. A region is a set of cells; two byte strings of one length
that agree on the cells of a range of bytes have the same bytes there.
-/

set_option autoImplicit false

namespace EnipAdapter.Foundation

/-- A bit of a byte string: the index of its byte, and its place in the byte from the lowest. -/
structure Cell where
  byte : ℕ
  bit : ℕ
deriving DecidableEq, Repr

/-- What a byte string holds in a cell; a cell past its end is clear. -/
def cellBit (bytes : List UInt8) (c : Cell) : Bool := (bytes.getD c.byte 0).toNat.testBit c.bit

/-- Every bit of the bytes from `first` on, `count` of them. -/
def byteCells (first count : ℕ) : Set Cell :=
  fun c => first ≤ c.byte ∧ c.byte < first + count ∧ c.bit < 8

/-- The two byte strings hold the same in every cell of the region. -/
def AgreeOn (region : Set Cell) (a b : List UInt8) : Prop := ∀ c ∈ region, cellBit a c = cellBit b c

instance (first count : ℕ) (c : Cell) : Decidable (c ∈ byteCells first count) :=
  inferInstanceAs (Decidable (first ≤ c.byte ∧ c.byte < first + count ∧ c.bit < 8))

/-! ## Bits and bytes -/

/-- A byte is its bits. -/
theorem byte_eq_of_bits {a b : UInt8} (h : ∀ j, a.toNat.testBit j = b.toNat.testBit j) : a = b :=
  UInt8.toNat_inj.mp (Nat.eq_of_testBit_eq h)

/-- No byte has a ninth bit. -/
theorem testBit_byte_of_le (a : UInt8) {j : ℕ} (h : 8 ≤ j) : a.toNat.testBit j = false :=
  Nat.testBit_lt_two_pow (a.toNat_lt.trans_le (Nat.pow_le_pow_right (by decide) h))

/-- Past the eighth bit of a byte there is nothing to read. -/
theorem cellBit_of_le (bytes : List UInt8) {c : Cell} (h : 8 ≤ c.bit) : cellBit bytes c = false :=
  testBit_byte_of_le _ h

/-- Byte strings of one length that agree on a range of bytes are the same there. -/
theorem slice_eq_of_agreeOn {a b : List UInt8} (hlen : a.length = b.length) {first count : ℕ}
    (h : AgreeOn (byteCells first count) a b) :
    (a.drop first).take count = (b.drop first).take count := by
  apply List.ext_getElem
  · simp only [List.length_take, List.length_drop, hlen]
  · intro i ha hb
    simp only [List.length_take, List.length_drop, lt_min_iff] at ha hb
    simp only [List.getElem_take, List.getElem_drop]
    have hia : first + i < a.length := by omega
    have hib : first + i < b.length := by omega
    apply byte_eq_of_bits
    intro j
    have hbit : cellBit a ⟨first + i, j⟩ = cellBit b ⟨first + i, j⟩ := by
      by_cases hj : j < 8
      · apply h
        exact ⟨Nat.le_add_right first i, Nat.add_lt_add_left ha.1 first, hj⟩
      · rw [cellBit_of_le a (Nat.le_of_not_lt hj), cellBit_of_le b (Nat.le_of_not_lt hj)]
    simpa only [cellBit, List.getD_eq_getElem?_getD, List.getElem?_eq_getElem hia,
      List.getElem?_eq_getElem hib, Option.getD_some] using hbit

/-! ## Writing bytes -/

/-- Bytes written over a stretch that has room for them are there; the other bytes stay. -/
theorem getD_splice {buf bytes : List UInt8} {first : ℕ}
    (hroom : first + bytes.length ≤ buf.length) (i : ℕ) :
    (buf.take first ++ bytes ++ buf.drop (first + bytes.length)).getD i 0 =
      if first ≤ i ∧ i < first + bytes.length then bytes.getD (i - first) 0 else buf.getD i 0 := by
  have htake : (buf.take first).length = first := List.length_take_of_le (by omega)
  simp only [List.getD_eq_getElem?_getD]
  by_cases hlow : i < first
  · rw [if_neg (by omega), List.append_assoc, List.getElem?_append_left (by omega),
      List.getElem?_take_of_lt hlow]
  · by_cases hhigh : i < first + bytes.length
    · rw [if_pos (by omega), List.append_assoc, List.getElem?_append_right (by omega), htake,
        List.getElem?_append_left (by omega)]
    · rw [if_neg (by omega), List.getElem?_append_right (by simp only [List.length_append]; omega),
        List.length_append, htake, List.getElem?_drop]
      congr 2
      omega

/-- Written bytes hold their own bits, and every other cell stays. -/
theorem cellBit_splice {buf bytes : List UInt8} {first : ℕ}
    (hroom : first + bytes.length ≤ buf.length) (c : Cell) :
    cellBit (buf.take first ++ bytes ++ buf.drop (first + bytes.length)) c =
      if c ∈ byteCells first bytes.length then cellBit bytes ⟨c.byte - first, c.bit⟩
      else cellBit buf c := by
  rw [cellBit, getD_splice hroom]
  by_cases hcell : c ∈ byteCells first bytes.length
  · rw [if_pos hcell, if_pos ⟨hcell.1, hcell.2.1⟩]
    rfl
  · rw [if_neg hcell]
    by_cases hrange : first ≤ c.byte ∧ c.byte < first + bytes.length
    · have hhigh : 8 ≤ c.bit := by
        by_contra hlow
        exact hcell ⟨hrange.1, hrange.2, Nat.lt_of_not_le hlow⟩
      rw [testBit_byte_of_le _ hhigh, cellBit_of_le buf hhigh]
    · rw [if_neg hrange]
      rfl

/-- The stretch that was written holds what was written. -/
theorem slice_splice {buf bytes : List UInt8} {first : ℕ}
    (hroom : first + bytes.length ≤ buf.length) :
    ((buf.take first ++ bytes ++ buf.drop (first + bytes.length)).drop first).take bytes.length =
      bytes := by
  have htake : (buf.take first).length = first := List.length_take_of_le (by omega)
  rw [List.append_assoc, List.drop_append_of_le_length (by omega),
    List.drop_of_length_le (by omega), List.nil_append, List.take_left']
  rfl

/-! ## Writing one bit -/

/-- One shifted by `k` has its bit `k` set and no other. -/
theorem testBit_one_shiftLeft {k : UInt8} (hk : k < 8) (j : ℕ) :
    ((1 : UInt8) <<< k).toNat.testBit j = decide (k.toNat = j) := by
  have hlt : k.toNat < 8 := UInt8.lt_iff_toNat_lt.mp hk
  rw [UInt8.toNat_shiftLeft, Nat.mod_eq_of_lt hlt, UInt8.toNat_one, Nat.one_shiftLeft,
    Nat.mod_eq_of_lt (Nat.pow_lt_pow_right (by decide) hlt), Nat.testBit_two_pow]

/-- The low eight bits are those of a byte, and the complement flips them. -/
theorem testBit_not (a : UInt8) (j : ℕ) :
    (~~~a).toNat.testBit j = (decide (j < 8) && !a.toNat.testBit j) := by
  have hlt : a.toNat < 2 ^ 8 := a.toNat_lt
  have hflip : (~~~a).toNat = 2 ^ 8 - (a.toNat + 1) := by
    rw [UInt8.toNat_not]
    simp only [UInt8.size]
    omega
  rw [hflip]
  exact Nat.testBit_two_pow_sub_succ hlt j

/-- The byte with one bit of it set or cleared: that bit is as asked, the others stay. -/
theorem testBit_put {slot k : UInt8} (hk : k < 8) (set : Bool) (j : ℕ) :
    (if set then slot ||| (1 <<< k) else slot &&& ~~~(1 <<< k)).toNat.testBit j =
      if k.toNat = j then set else slot.toNat.testBit j := by
  have hlt : k.toNat < 8 := UInt8.lt_iff_toNat_lt.mp hk
  cases set with
  | true =>
      simp only [if_true, UInt8.toNat_or, Nat.testBit_or, testBit_one_shiftLeft hk]
      by_cases hj : k.toNat = j
      · simp [hj]
      · simp [hj]
  | false =>
      simp only [Bool.false_eq_true, if_false, UInt8.toNat_and, Nat.testBit_and, testBit_not,
        testBit_one_shiftLeft hk]
      by_cases hj : k.toNat = j
      · simp [hj]
      · by_cases hbound : j < 8
        · simp [hj, hbound]
        · simp [hj, hbound, testBit_byte_of_le slot (Nat.le_of_not_lt hbound)]

/-- One bit set or cleared in place: its cell is as asked, every other cell stays. -/
theorem cellBit_put {buf : List UInt8} {i : ℕ} (hi : i < buf.length) {k : UInt8} (hk : k < 8)
    (set : Bool) (c : Cell) :
    cellBit (buf.set i (if set then buf[i] ||| (1 <<< k) else buf[i] &&& ~~~(1 <<< k))) c =
      if c = ⟨i, k.toNat⟩ then set else cellBit buf c := by
  obtain ⟨byte, bit⟩ := c
  simp only [cellBit, List.getD_eq_getElem?_getD, Cell.mk.injEq]
  by_cases hbyte : i = byte
  · subst hbyte
    rw [List.getElem?_set_self hi, List.getElem?_eq_getElem hi, Option.getD_some, Option.getD_some,
      testBit_put hk]
    simp only [true_and, eq_comm]
  · rw [List.getElem?_set_ne hbyte, if_neg fun h => hbyte h.1.symm]

end EnipAdapter.Foundation
