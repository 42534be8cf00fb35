import EnipAdapter.Foundation.PagedWalk

/-!
# Pages of a keyed enumeration

An enumeration whose entries stand under ascending keys is resumed at a key: a page starts at the
first entry at or past it, and a page that leaves entries names the key behind its last one. The
place where a page starts can be told from the page.
-/

set_option autoImplicit false

namespace EnipAdapter.Foundation

structure Enumeration (α : Type) where
  entries : List (ℕ × α)
  ascending : entries.Pairwise fun a b => a.1 < b.1

namespace Enumeration

variable {α : Type} (inv : Enumeration α)

/-- The place of the first entry at or past a key; behind the last entry where there is none. -/
def place (key : ℕ) : ℕ := inv.entries.findIdx fun e => key ≤ e.1

/-- A page from a place on, with the key it resumes at while entries are left. -/
def page (i size : ℕ) : Page ℕ α :=
  let shown := (inv.entries.drop i).take size
  ⟨shown.map Prod.snd,
    if i + size < inv.entries.length then shown.getLast?.map (·.1 + 1) else none⟩

/-- A key has its place within the inventory. -/
theorem place_le_length (key : ℕ) : inv.place key ≤ inv.entries.length := List.findIdx_le_length

/-- From the place of a key on stand the entries at or past it. -/
theorem drop_place (key : ℕ) :
    inv.entries.drop (inv.place key) = inv.entries.filter fun e => key ≤ e.1 := by
  obtain ⟨entries, hascending⟩ := inv
  unfold place
  simp only
  induction entries with
  | nil => rfl
  | cons e entries ih =>
    rw [List.pairwise_cons] at hascending
    rw [List.findIdx_cons]
    by_cases he : key ≤ e.1
    · have hall : (e :: entries).filter (fun e => key ≤ e.1) = e :: entries := by
        apply List.filter_eq_self.mpr
        intro a ha
        rcases List.mem_cons.mp ha with rfl | hlater
        · exact decide_eq_true he
        · exact decide_eq_true (Nat.le_trans he (Nat.le_of_lt (hascending.1 a hlater)))
      rw [hall, decide_eq_true he]
      rfl
    · rw [decide_eq_false he, List.filter_cons_of_neg (by simpa using he), ← ih hascending.2]
      rfl

/-- A key leads to the first entry exactly when that entry is at or past it. -/
theorem place_eq_zero_iff {first : ℕ × α} {rest : List (ℕ × α)}
    (h : inv.entries = first :: rest) (key : ℕ) : inv.place key = 0 ↔ key ≤ first.1 := by
  rw [place, h, List.findIdx_cons]
  by_cases hkey : key ≤ first.1
  · simp [hkey]
  · simp [hkey]

/-- Every entry is at or past the first one. -/
theorem first_le {first : ℕ × α} {rest : List (ℕ × α)} (h : inv.entries = first :: rest)
    {e : ℕ × α} (he : e ∈ inv.entries) : first.1 ≤ e.1 := by
  have hascending := inv.ascending
  rw [h] at he hascending
  rcases List.mem_cons.mp he with rfl | hlater
  · exact Nat.le_refl _
  · exact Nat.le_of_lt ((List.pairwise_cons.mp hascending).1 e hlater)

/-- Keys ascend with their place. -/
theorem key_lt_of_lt {i j : ℕ} (hij : i < j) (hj : j < inv.entries.length) :
    (inv.entries[i]).1 < (inv.entries[j]).1 :=
  List.pairwise_iff_getElem.mp inv.ascending i j (by omega) hj hij

/-- The last entry of a full page. -/
theorem getLast?_page {i size : ℕ} (hpos : 0 < size) (h : i + size < inv.entries.length) :
    ((inv.entries.drop i).take size).getLast? = some inv.entries[i + size - 1] := by
  have hlen : ((inv.entries.drop i).take size).length = size := by
    rw [List.length_take, List.length_drop]
    omega
  have hsub : i + (size - 1) = i + size - 1 := by omega
  rw [List.getLast?_eq_getElem?, hlen, List.getElem?_take_of_lt (by omega), List.getElem?_drop,
    hsub, List.getElem?_eq_getElem]

/-- Where a page that leaves entries resumes: behind an entry, and not past the next one. -/
theorem next_page {i size key : ℕ} (h : (inv.page i size).next = some key) :
    ∃ j, ∃ hj : j + 1 < inv.entries.length,
      key = (inv.entries[j]).1 + 1 ∧ key ≤ (inv.entries[j + 1]).1 := by
  unfold page at h
  simp only at h
  split_ifs at h with hleft
  have hpos : 0 < size := by
    by_contra hzero
    have hnone : size = 0 := by omega
    rw [hnone, List.take_zero] at h
    cases h
  rw [inv.getLast?_page hpos hleft] at h
  cases h
  refine ⟨i + size - 1, by omega, rfl, ?_⟩
  exact inv.key_lt_of_lt (Nat.lt_succ_self _) (by omega)

/-- A page from a later place is not one from the first entry on. -/
theorem page_ne_first {i size size' : ℕ} (hi : 0 < i) (hle : i ≤ inv.entries.length)
    (hpos : 0 < size) (hpos' : 0 < size') : inv.page i size ≠ inv.page 0 size' := by
  intro h
  have hitems := congrArg (fun p => p.items.length) h
  have hnext := congrArg Page.next h
  simp only [page, List.length_map, List.length_take, List.length_drop, Nat.zero_add] at hitems hnext
  by_cases hleft : i + size < inv.entries.length
  · -- both pages leave entries, and resume behind different ones
    have hsize : size' = size := by omega
    subst hsize
    have hfirst : 0 + size' < inv.entries.length := by omega
    have hbehind := inv.key_lt_of_lt (show 0 + size' - 1 < i + size' - 1 by omega) (by omega)
    rw [if_pos hleft, if_pos (by omega), inv.getLast?_page hpos hleft,
      inv.getLast?_page hpos hfirst] at hnext
    have hkeys : (inv.entries[i + size' - 1]).1 + 1 = (inv.entries[0 + size' - 1]).1 + 1 :=
      Option.some.inj hnext
    omega
  · -- the page ends the enumeration, and the other would have to show all of it
    rw [if_neg hleft] at hnext
    by_cases hcut : size' < inv.entries.length
    · have hfirst : 0 + size' < inv.entries.length := by omega
      rw [if_pos hcut, inv.getLast?_page hpos' hfirst] at hnext
      cases hnext
    · omega

end Enumeration

end EnipAdapter.Foundation
