import Mathlib.Data.Finset.Insert
import Mathlib.Data.Finset.Erase
import Mathlib.Logic.Function.Basic

/-!
# Holders of shared resources

Holders each name at most one resource, and a resource is joined or not, whoever names it.
Entering joins the resource that the new holder names, and a holder that is released leaves the
one it named. Nothing counts the holders of a resource, so what is joined is what is named as
long as no holder that goes shares its resource with one that stays.
-/

set_option autoImplicit false

namespace EnipAdapter.Foundation

structure Holding (κ γ : Type) where
  holds : κ → Option γ
  joined : Finset γ

namespace Holding

variable {κ γ : Type}

def empty : Holding κ γ := ⟨fun _ => none, ∅⟩

/-- What is joined is named by some holder. -/
def Covered (h : Holding κ γ) : Prop := ∀ g ∈ h.joined, ∃ k, h.holds k = some g

/-- What is joined is what the holders name. -/
def Exact (h : Holding κ γ) : Prop := ∀ g, g ∈ h.joined ↔ ∃ k, h.holds k = some g

/-- No two holders name the same resource. -/
def Exclusive (h : Holding κ γ) : Prop :=
  ∀ k k' g, h.holds k = some g → h.holds k' = some g → k = k'

/-- What is joined is named by one holder, and what is named is joined. -/
structure Sole (h : Holding κ γ) : Prop where
  exact_ : h.Exact
  exclusive : h.Exclusive

/-- None of these holders names the resource of another one. -/
def SharesNothing (h : Holding κ γ) (ks : List κ) : Prop :=
  ∀ k ∈ ks, ∀ k', k' ∉ ks → ∀ g, h.holds k = some g → h.holds k' ≠ some g

/-- Where nobody holds anything, nothing is joined. -/
theorem exact_empty : (empty : Holding κ γ).Exact := by
  intro g
  simp only [empty, Finset.notMem_empty, reduceCtorEq, exists_false]

/-- Where nobody holds anything, nothing is shared. -/
theorem sole_empty : (empty : Holding κ γ).Sole where
  exact_ := exact_empty
  exclusive := by
    intro k k' g hk
    cases hk

/-- Exactness is more than cover. -/
theorem Exact.covered {h : Holding κ γ} (hexact : h.Exact) : h.Covered := fun g => (hexact g).mp

/-- Exclusive holders share nothing, whichever of them are singled out. -/
theorem Exclusive.sharesNothing {h : Holding κ γ} (hexclusive : h.Exclusive) (ks : List κ) :
    h.SharesNothing ks := by
  intro k hk k' hk' g hg hg'
  rw [hexclusive k k' g hg hg'] at hk
  exact hk' hk

/-! ## Entering -/

variable [DecidableEq κ] [DecidableEq γ]

/-- A new holder, with the resource it names. -/
def enter (h : Holding κ γ) (k : κ) (resource : Option γ) : Holding κ γ :=
  ⟨Function.update h.holds k resource, resource.elim h.joined fun g => insert g h.joined⟩

def release (h : Holding κ γ) (k : κ) : Holding κ γ :=
  ⟨Function.update h.holds k none, (h.holds k).elim h.joined h.joined.erase⟩

def releaseAll (h : Holding κ γ) (ks : List κ) : Holding κ γ := ks.foldl release h

variable {h : Holding κ γ} {k : κ} {ks : List κ}

/-- The new holder names its resource. -/
theorem enter_holds_self (resource : Option γ) : (h.enter k resource).holds k = resource :=
  Function.update_self ..

/-- The other holders keep what they name. -/
theorem enter_holds_ne {k' : κ} (hne : k' ≠ k) (resource : Option γ) :
    (h.enter k resource).holds k' = h.holds k' :=
  Function.update_of_ne hne ..

/-- Entering joins the resource named and parts with none. -/
theorem mem_enter {resource : Option γ} {g : γ} :
    g ∈ (h.enter k resource).joined ↔ resource = some g ∨ g ∈ h.joined := by
  cases resource with
  | none => simp only [enter, Option.elim_none, reduceCtorEq, false_or]
  | some x =>
    simp only [enter, Option.elim_some, Finset.mem_insert, Option.some.injEq]
    exact or_congr_left eq_comm

/-- A holder that was not there names its resource beside what the others name. -/
theorem named_enter (hfresh : h.holds k = none) {resource : Option γ} {g : γ} :
    (∃ k', (h.enter k resource).holds k' = some g) ↔
      resource = some g ∨ ∃ k', h.holds k' = some g := by
  constructor
  · rintro ⟨k', hk'⟩
    by_cases hself : k' = k
    · rw [hself, enter_holds_self] at hk'
      exact .inl hk'
    · rw [enter_holds_ne hself] at hk'
      exact .inr ⟨k', hk'⟩
  · rintro (hresource | ⟨k', hk'⟩)
    · exact ⟨k, by rw [enter_holds_self, hresource]⟩
    · have hne : k' ≠ k := by
        rintro rfl
        rw [hfresh] at hk'
        cases hk'
      exact ⟨k', by rw [enter_holds_ne hne, hk']⟩

/-- A new holder covers what it joins. -/
theorem Covered.enter (hcovered : h.Covered) (hfresh : h.holds k = none) (resource : Option γ) :
    (h.enter k resource).Covered := by
  intro g hg
  rw [named_enter hfresh]
  exact (mem_enter.mp hg).imp_right (hcovered g)

/-- A holder that named nothing before keeps exactness as it enters. -/
theorem Exact.enter (hexact : h.Exact) (hfresh : h.holds k = none) (resource : Option γ) :
    (h.enter k resource).Exact := by
  intro g
  rw [mem_enter, named_enter hfresh, hexact g]

/-- A resource nobody names can be entered alone. -/
theorem Exclusive.enter (hexclusive : h.Exclusive) {resource : Option γ}
    (hnew : ∀ g, resource = some g → ∀ k', h.holds k' ≠ some g) :
    (h.enter k resource).Exclusive := by
  intro a b g ha hb
  by_cases hak : a = k
  · by_cases hbk : b = k
    · rw [hak, hbk]
    · rw [hak, enter_holds_self] at ha
      rw [enter_holds_ne hbk] at hb
      exact absurd hb (hnew g ha b)
  · rw [enter_holds_ne hak] at ha
    by_cases hbk : b = k
    · rw [hbk, enter_holds_self] at hb
      exact absurd ha (hnew g hb a)
    · rw [enter_holds_ne hbk] at hb
      exact hexclusive a b g ha hb

/-! ## Releasing -/

/-- A release parts with the resource of its holder and with no other. -/
theorem mem_release {g : γ} : g ∈ (h.release k).joined ↔ g ∈ h.joined ∧ h.holds k ≠ some g := by
  unfold release
  cases h.holds k with
  | none => simp only [Option.elim_none, ne_eq, reduceCtorEq, not_false_eq_true, and_true]
  | some x =>
    simp only [Option.elim_some, Finset.mem_erase, ne_eq, Option.some.injEq]
    rw [and_comm, eq_comm]

/-- Holders are released one after the other. -/
theorem releaseAll_cons : h.releaseAll (k :: ks) = (h.release k).releaseAll ks := rfl

/-- Those released name nothing and the others what they named. -/
theorem releaseAll_holds (k' : κ) :
    (h.releaseAll ks).holds k' = if k' ∈ ks then none else h.holds k' := by
  induction ks generalizing h with
  | nil => rfl
  | cons k ks ih =>
    rw [releaseAll_cons, ih]
    by_cases hself : k' = k
    · rw [hself, if_pos List.mem_cons_self]
      split_ifs
      · rfl
      · exact Function.update_self ..
    · have hmem : k' ∈ k :: ks ↔ k' ∈ ks := by
        rw [List.mem_cons]
        exact or_iff_right hself
      simp only [hmem, release, Function.update_of_ne hself]

/-- What stays joined is what none of those released named. -/
theorem mem_releaseAll {g : γ} :
    g ∈ (h.releaseAll ks).joined ↔ g ∈ h.joined ∧ ∀ k ∈ ks, h.holds k ≠ some g := by
  induction ks generalizing h with
  | nil =>
    show g ∈ h.joined ↔ _
    simp only [List.not_mem_nil, false_implies, implies_true, and_true]
  | cons k ks ih =>
    rw [releaseAll_cons, ih, mem_release, and_assoc, List.forall_mem_cons]
    apply and_congr_right
    intro _
    apply and_congr_right
    intro hk
    -- released already, a holder leaves nothing
    refine forall₂_congr fun k' _ => ?_
    by_cases hself : k' = k
    · rw [hself]
      simp only [release, Function.update_self, ne_eq, reduceCtorEq, not_false_eq_true, true_iff]
      exact hk
    · simp only [release, Function.update_of_ne hself]

/-- A resource is still named when a holder that stays names it. -/
theorem named_releaseAll {g : γ} :
    (∃ k, (h.releaseAll ks).holds k = some g) ↔ ∃ k, k ∉ ks ∧ h.holds k = some g := by
  refine exists_congr fun k => ?_
  rw [releaseAll_holds]
  split_ifs with hmem
  · simp only [hmem, not_true_eq_false, false_and]
  · simp only [hmem, not_false_eq_true, true_and]

/-- What is still joined after releases is named by a holder that stays. -/
theorem Covered.releaseAll (hcovered : h.Covered) (ks : List κ) : (h.releaseAll ks).Covered := by
  intro g hg
  obtain ⟨hjoined, hleft⟩ := mem_releaseAll.mp hg
  obtain ⟨k, hk⟩ := hcovered g hjoined
  exact named_releaseAll.mpr ⟨k, fun hmem => hleft k hmem hk, hk⟩

/-- Releases keep exactness when those that go share nothing with those that stay. -/
theorem Exact.releaseAll (hexact : h.Exact) (hshares : h.SharesNothing ks) :
    (h.releaseAll ks).Exact := by
  intro g
  rw [mem_releaseAll, named_releaseAll, hexact g]
  constructor
  · rintro ⟨⟨k, hk⟩, hleft⟩
    exact ⟨k, fun hmem => hleft k hmem hk, hk⟩
  · rintro ⟨k, hstays, hk⟩
    exact ⟨⟨k, hk⟩, fun k' hmem hk' => hshares k' hmem k hstays g hk' hk⟩

/-- Releases keep holders exclusive. -/
theorem Exclusive.releaseAll (hexclusive : h.Exclusive) (ks : List κ) :
    (h.releaseAll ks).Exclusive := by
  intro a b g ha hb
  rw [releaseAll_holds] at ha hb
  split_ifs at ha hb
  exact hexclusive a b g ha hb

/-- Releases keep a sole holder for every resource joined. -/
theorem Sole.releaseAll (hsole : h.Sole) (ks : List κ) : (h.releaseAll ks).Sole where
  exact_ := hsole.exact_.releaseAll (hsole.exclusive.sharesNothing ks)
  exclusive := hsole.exclusive.releaseAll ks

end Holding

end EnipAdapter.Foundation
