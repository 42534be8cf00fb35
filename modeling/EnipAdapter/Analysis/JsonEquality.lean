import EnipAdapter.Foundation.AssocList
import EnipAdapter.Model.Reload

/-!
# Equality of documents

A document in which no object has a key twice equals itself, and so does every part of it that a
plan compares.
-/

set_option autoImplicit false

namespace EnipAdapter.Analysis

open EnipAdapter.Foundation EnipAdapter.Model

/-- A number is the same as itself. -/
theorem sameNumber_self (n : Number) : Json.sameNumber n n = true := by
  cases n with
  | posInt n => exact beq_self_eq_true n
  | negInt n negative => exact beq_self_eq_true n
  | float x finite =>
      have hbelow := of_decide_eq_true finite
      have hnan : x.isNaN = false := decide_eq_false (Nat.lt_asymm hbelow)
      show x.eqv x = true
      unfold F64.eqv
      simp [hnan]

mutual

/-- So is a value without double keys. -/
theorem same_self : (v : Json) → v.DistinctKeys → Json.same v v = true
  | .null, _ => rfl
  | .bool b, _ => beq_self_eq_true b
  | .num n, _ => sameNumber_self n
  | .str s, _ => beq_self_eq_true s
  | .arr items, h => sameItems_self items h
  | .obj fields, h => by
      unfold Json.same
      rw [beq_self_eq_true, Bool.true_and]
      exact sameMembers_self fields fields h.2 (fun _ hp => lookup_of_mem h.1 hp)

/-- So are the items of an array. -/
theorem sameItems_self : (items : List Json) → Json.DistinctItems items →
    Json.sameItems items items = true
  | [], _ => rfl
  | v :: rest, h => by
      unfold Json.sameItems
      rw [same_self v h.1, sameItems_self rest h.2]
      rfl

/-- Members are the same as what is looked up under their keys. -/
theorem sameMembers_self : (members fields : List (String × Json)) →
    Json.DistinctMembers members → (∀ p ∈ members, fields.lookup p.1 = some p.2) →
    Json.sameMembers members fields = true
  | [], _, _, _ => rfl
  | (key, v) :: rest, fields, h, hlookup => by
      unfold Json.sameMembers
      rw [hlookup (key, v) List.mem_cons_self, Option.any_some, same_self v h.1,
        sameMembers_self rest fields h.2 (fun p hp => hlookup p (List.mem_cons_of_mem _ hp))]
      rfl

end

/-! ## The parts of a document -/

/-- Items have no double keys exactly if each of them has none. -/
theorem distinctItems_iff {items : List Json} :
    Json.DistinctItems items ↔ ∀ v ∈ items, v.DistinctKeys := by
  induction items with
  | nil => simp [Json.DistinctItems]
  | cons v rest ih =>
      rw [List.forall_mem_cons, ← ih]
      rfl

/-- Members have no double keys inside exactly if no value has. -/
theorem distinctMembers_iff {fields : List (String × Json)} :
    Json.DistinctMembers fields ↔ ∀ p ∈ fields, p.2.DistinctKeys := by
  induction fields with
  | nil => simp [Json.DistinctMembers]
  | cons field rest ih =>
      rw [List.forall_mem_cons, ← ih]
      rfl

/-- A member of a value without double keys has none. -/
theorem get_distinctKeys {v w : Json} {key : String} (hv : v.DistinctKeys)
    (h : v.get key = some w) : w.DistinctKeys := by
  cases v with
  | obj fields => exact distinctMembers_iff.mp hv.2 (key, w) (mem_of_lookup h)
  | null | bool _ | num _ | str _ | arr _ => cases h

/-- Neither has an item of an array. -/
theorem asArray_distinctKeys {v : Json} {items : List Json} (hv : v.DistinctKeys)
    (h : v.asArray = some items) : ∀ entry ∈ items, entry.DistinctKeys := by
  cases v with
  | arr entries =>
      cases h
      exact distinctItems_iff.mp hv
  | null | bool _ | num _ | str _ | obj _ => cases h

/-- Leaving out the instances leaves no double keys. -/
theorem withoutInstances_distinctKeys {v : Json} (h : v.DistinctKeys) :
    (withoutInstances v).DistinctKeys := by
  cases v with
  | obj fields =>
      refine ⟨h.1.sublist (List.filter_sublist.map _), distinctMembers_iff.mpr ?_⟩
      intro p hp
      exact distinctMembers_iff.mp h.2 p (List.mem_filter.mp hp).1
  | null | bool _ | num _ | str _ | arr _ => exact h

/-- Neither does the view of a document without its instances. -/
theorem nonInstanceView_distinctKeys {v : Json} (h : v.DistinctKeys) :
    (nonInstanceView v).DistinctKeys := by
  cases v with
  | obj fields =>
      have hkeys : (fields.map fun p =>
          if p.1 = "component" then (p.1, withoutInstances p.2) else p).map Prod.fst =
            fields.map Prod.fst := by
        rw [List.map_map]
        apply List.map_congr_left
        intro p _
        show (if p.1 = "component" then (p.1, withoutInstances p.2) else p).1 = p.1
        by_cases hp : p.1 = "component"
        · rw [if_pos hp]
        · rw [if_neg hp]
      refine ⟨?_, distinctMembers_iff.mpr ?_⟩
      · rw [hkeys]
        exact h.1
      · intro q hq
        obtain ⟨p, hp, rfl⟩ := List.mem_map.mp hq
        have hvalue := distinctMembers_iff.mp h.2 p hp
        by_cases hcomponent : p.1 = "component"
        · rw [if_pos hcomponent]
          exact withoutInstances_distinctKeys hvalue
        · rw [if_neg hcomponent]
          exact hvalue
  | null | bool _ | num _ | str _ | arr _ => exact h

end EnipAdapter.Analysis
