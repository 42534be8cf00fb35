import Mathlib.Data.List.AList

/-!
# One state for each key

A map from keys to states whose absent entries stand for a default. Loops over such a map
visit one key at a time, so what becomes of a key is a loop over the items of that key alone:
`entry_foldKeyed` and `outputs_foldKeyed` reduce every loop over the map to a loop over one
state, and `entry_overKeys` does so for a pass over all the keys there are.
-/

set_option autoImplicit false

namespace EnipAdapter.Foundation

universe u

variable {κ ι ο : Type u} [DecidableEq κ] {σ : Type u} [Inhabited σ]

/-- The state under a key, or the default. -/
def entry (m : AList (fun _ : κ => σ)) (k : κ) : σ := (m.lookup k).getD default

@[simp] theorem entry_empty (k : κ) : entry (∅ : AList (fun _ : κ => σ)) k = default := by
  simp [entry]

@[simp] theorem entry_insert_self (m : AList (fun _ : κ => σ)) (k : κ) (s : σ) :
    entry (m.insert k s) k = s := by
  simp [entry]

/-- A state written under one key is not seen under another. -/
theorem entry_insert_ne (m : AList (fun _ : κ => σ)) {k k' : κ} (s : σ) (h : k' ≠ k) :
    entry (m.insert k s) k' = entry m k' := by
  simp [entry, AList.lookup_insert_ne h]

/-! ## A loop over items -/

/-- Run `f` over a list of items, each on the state of its own key; an absent state is created
from the default. -/
def foldKeyed (key : ι → κ) (f : ι → σ → σ × ο) :
    List ι → AList (fun _ : κ => σ) → AList (fun _ : κ => σ) × List (κ × ο)
  | [], m => (m, [])
  | i :: is, m =>
      let (s, out) := f i (entry m (key i))
      let (m, outs) := foldKeyed key f is (m.insert (key i) s)
      (m, (key i, out) :: outs)

/-- The same loop on one state: the state after it and what each item gave. -/
def foldState (f : ι → σ → σ × ο) : List ι → σ → σ × List ο
  | [], s => (s, [])
  | i :: is, s =>
      let (s, out) := f i s
      let (s, outs) := foldState f is s
      (s, out :: outs)

/-- The outputs under one key. -/
def outputsOf (k : κ) (outs : List (κ × ο)) : List ο :=
  outs.filterMap (fun p => if p.1 = k then some p.2 else none)

/-- A loop over the map is, key by key, the loop over the items of that key. -/
theorem foldKeyed_at (key : ι → κ) (f : ι → σ → σ × ο) (items : List ι)
    (m : AList (fun _ : κ => σ)) (k : κ) :
    (entry (foldKeyed key f items m).1 k, outputsOf k (foldKeyed key f items m).2) =
      foldState f (items.filter (fun i => key i = k)) (entry m k) := by
  induction items generalizing m with
  | nil => rfl
  | cons i is ih =>
    have hrest := ih (m.insert (key i) (f i (entry m (key i))).1)
    by_cases hk : key i = k
    · subst hk
      rw [entry_insert_self] at hrest
      simp only [foldKeyed, decide_true, List.filter_cons_of_pos, foldState, ← hrest]
      simp [outputsOf]
    · rw [entry_insert_ne m _ (fun h => hk h.symm)] at hrest
      simp only [foldKeyed, hk, decide_false, Bool.false_eq_true, not_false_eq_true,
        List.filter_cons_of_neg, ← hrest]
      simp [outputsOf, hk]

/-- The state a loop leaves under a key is that of the loop over the items of that key. -/
theorem entry_foldKeyed (key : ι → κ) (f : ι → σ → σ × ο) (items : List ι)
    (m : AList (fun _ : κ => σ)) (k : κ) :
    entry (foldKeyed key f items m).1 k =
      (foldState f (items.filter (fun i => key i = k)) (entry m k)).1 :=
  congrArg Prod.fst (foldKeyed_at key f items m k)

/-- What a loop gives under a key is what the loop over the items of that key gives. -/
theorem outputs_foldKeyed (key : ι → κ) (f : ι → σ → σ × ο) (items : List ι)
    (m : AList (fun _ : κ => σ)) (k : κ) :
    outputsOf k (foldKeyed key f items m).2 =
      (foldState f (items.filter (fun i => key i = k)) (entry m k)).2 :=
  congrArg Prod.snd (foldKeyed_at key f items m k)

/-! ## A pass over the keys -/

/-- Run `f` on every state of the map. -/
def overKeys (f : σ → σ × ο) (m : AList (fun _ : κ => σ)) :
    AList (fun _ : κ => σ) × List (κ × ο) :=
  foldKeyed id (fun _ => f) m.keys m

omit [Inhabited σ] in
/-- A key stands at most once among the keys of a map. -/
theorem filter_keys (m : AList (fun _ : κ => σ)) (k : κ) :
    m.keys.filter (fun i => i = k) = if k ∈ m then [k] else [] := by
  have hnodup : m.keys.Nodup := m.nodupKeys
  split
  · rename_i hmem
    have hcount : m.keys.count k = 1 := List.count_eq_one_of_mem hnodup hmem
    have hfilter : m.keys.filter (fun i => i = k) = List.replicate (m.keys.count k) k := by
      rw [← List.filter_eq]
    rw [hfilter, hcount]
    rfl
  · rename_i hmem
    apply List.filter_eq_nil_iff.mpr
    intro i hi
    have hne : i ≠ k := by
      intro h
      exact hmem (h ▸ hi)
    simpa using hne

/-- A pass visits a key that is there once, and no other. -/
theorem overKeys_at (f : σ → σ × ο) (m : AList (fun _ : κ => σ)) (k : κ) :
    (entry (overKeys f m).1 k, outputsOf k (overKeys f m).2) =
      if k ∈ m then ((f (entry m k)).1, [(f (entry m k)).2]) else (entry m k, []) := by
  unfold overKeys
  rw [foldKeyed_at]
  simp only [id]
  rw [filter_keys]
  split <;> rfl

/-- A pass that leaves the default alone treats every key alike. -/
theorem entry_overKeys {f : σ → σ × ο} (hdefault : (f default).1 = default)
    (m : AList (fun _ : κ => σ)) (k : κ) : entry (overKeys f m).1 k = (f (entry m k)).1 := by
  have hat := congrArg Prod.fst (overKeys_at f m k)
  simp only at hat
  rw [hat]
  split
  · rfl
  · rename_i hmem
    have hnone : entry m k = default := by
      rw [entry, AList.lookup_eq_none.mpr hmem]
      rfl
    rw [hnone, hdefault]

end EnipAdapter.Foundation
