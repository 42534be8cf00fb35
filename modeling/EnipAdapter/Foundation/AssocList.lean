import Mathlib.Data.List.Nodup

/-!
# Lists of keys and values

What `List.lookup` finds, where the keys are distinct: an entry is found under its key, what is
found is an entry, and a key that is not found has none.
-/

set_option autoImplicit false

namespace EnipAdapter.Foundation

universe u v

variable {κ : Type u} [DecidableEq κ] {α : Type v} {l : List (κ × α)} {k : κ} {v : α}

/-- With distinct keys, an entry is what looking up its key finds. -/
theorem lookup_of_mem (hkeys : (l.map Prod.fst).Nodup) (h : (k, v) ∈ l) :
    l.lookup k = some v := by
  induction l with
  | nil => cases h
  | cons first rest ih =>
      obtain ⟨hfresh, hrest⟩ := List.nodup_cons.mp hkeys
      obtain rfl | hmem := List.mem_cons.mp h
      · exact List.lookup_cons_self
      · have hne : k ≠ first.1 := by
          intro heq
          exact hfresh (List.mem_map.mpr ⟨(k, v), hmem, heq⟩)
        rw [List.lookup_cons, beq_false_of_ne hne]
        exact ih hrest hmem

/-- An entry that is found is there. -/
theorem mem_of_lookup (h : l.lookup k = some v) : (k, v) ∈ l := by
  obtain ⟨front, back, rfl, -⟩ := List.lookup_eq_some_iff.mp h
  exact List.mem_append_right _ List.mem_cons_self

/-- A key that is not found is not there. -/
theorem not_mem_of_lookup (h : l.lookup k = none) : k ∉ l.map Prod.fst := by
  intro hmem
  obtain ⟨entry, hentry, rfl⟩ := List.mem_map.mp hmem
  have hne := List.lookup_eq_none_iff.mp h entry hentry
  rw [bne_self_eq_false] at hne
  cases hne

/-- Records whose keys are distinct are searched for a key with one outcome. -/
theorem find_of_nodup {β : Type u} {key : β → String} {items : List β}
    (h : (items.map key).Nodup) {a : β} (hmem : a ∈ items) :
    items.find? (key · == key a) = some a := by
  obtain ⟨b, hb⟩ : ∃ b, items.find? (key · == key a) = some b := by
    apply Option.isSome_iff_exists.mp
    rw [List.find?_isSome]
    exact ⟨a, hmem, beq_self_eq_true _⟩
  have hkey := beq_iff_eq.mp (List.find?_some (p := (key · == key a)) hb)
  rw [hb, List.inj_on_of_nodup_map h (List.mem_of_find?_eq_some hb) hmem hkey]

end EnipAdapter.Foundation
