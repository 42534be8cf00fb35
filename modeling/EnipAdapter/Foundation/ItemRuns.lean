import EnipAdapter.Foundation.Refuse
import Mathlib.Data.List.Basic

/-!
# Runs of encoded items

Items written one after the other and read back by count. The item's own reader and writer are
parameters; the reader works on a state that symbols can be put back in front of, which is all
the two directions of a round trip need: what one item does, a run of items does.

The way back allows for a writer that normalises: it may write other symbols than were read, as
long as it does so symbol by symbol.
-/

set_option autoImplicit false

namespace EnipAdapter.Foundation

/-- A state that symbols can be put back in front of. -/
structure Tape (β σ : Type) where
  unread : List β → σ → σ
  unread_nil : ∀ s, unread [] s = s
  unread_append : ∀ as bs s, unread (as ++ bs) s = unread as (unread bs s)

section Runs

variable {β σ V ε : Type}

/-- A number of items read one after the other. -/
def readMany (read : σ → Except ε (V × σ)) : ℕ → σ → Except ε (List V × σ)
  | 0, s => .ok ([], s)
  | n + 1, s => do
      let first ← read s
      let later ← readMany read n first.2
      pure (first.1 :: later.1, later.2)

/-- Items written one after the other; the first that cannot be written fails the whole. -/
def writeMany (write : V → Except ε (List β)) : List V → Except ε (List β)
  | [] => .ok []
  | v :: vs => do
      let head ← write v
      let tail ← writeMany write vs
      pure (head ++ tail)

variable {read : σ → Except ε (V × σ)} {write : V → Except ε (List β)}

/-- One more item is read before the items that are read after it. -/
theorem readMany_succ_ok {n : ℕ} {s s' s'' : σ} {v : V} {vs : List V} (hv : read s = .ok (v, s'))
    (hvs : readMany read n s' = .ok (vs, s'')) :
    readMany read (n + 1) s = .ok (v :: vs, s'') := by
  simp only [readMany, hv, hvs, bind, Except.bind, pure, Except.pure]

/-- A read of several items is a read of the first and then of the others. -/
theorem readMany_succ_eq_ok {n : ℕ} {s s' : σ} {vs : List V}
    (h : readMany read (n + 1) s = .ok (vs, s')) :
    ∃ v s₁ vs', read s = .ok (v, s₁) ∧ readMany read n s₁ = .ok (vs', s') ∧ vs = v :: vs' := by
  rw [readMany] at h
  obtain ⟨first, hfirst, h⟩ := bind_ok.mp h
  obtain ⟨later, hlater, h⟩ := bind_ok.mp h
  cases h
  exact ⟨first.1, first.2, later.1, hfirst, hlater, rfl⟩

/-- As many items are read as were asked for. -/
theorem length_of_readMany {n : ℕ} {s s' : σ} {vs : List V}
    (h : readMany read n s = .ok (vs, s')) : vs.length = n := by
  induction n generalizing s vs with
  | zero =>
      cases h
      rfl
  | succ n ih =>
      obtain ⟨v, s₁, vs', -, hvs, rfl⟩ := readMany_succ_eq_ok h
      rw [List.length_cons, ih hvs]

/-- What holds of every item that can be read holds of the items of a run. -/
theorem forall_of_readMany {P : V → Prop} (hitem : ∀ s v s', read s = .ok (v, s') → P v) {n : ℕ}
    {s s' : σ} {vs : List V} (h : readMany read n s = .ok (vs, s')) : ∀ v ∈ vs, P v := by
  induction n generalizing s vs with
  | zero =>
      cases h
      intro v hv
      cases hv
  | succ n ih =>
      obtain ⟨v, s₁, vs', hv, hvs, rfl⟩ := readMany_succ_eq_ok h
      intro w hw
      cases List.mem_cons.mp hw with
      | inl heq => exact heq ▸ hitem s v s₁ hv
      | inr hmem => exact ih hvs w hmem

/-- Where every item takes the same room, a run is read from a state that has room for it. -/
theorem readMany_isOk (room : σ → ℕ) {size : ℕ}
    (hitem : ∀ s, size ≤ room s → ∃ v s', read s = .ok (v, s') ∧ room s = size + room s')
    {n : ℕ} {s : σ} (h : n * size ≤ room s) :
    ∃ vs s', readMany read n s = .ok (vs, s') ∧ room s = n * size + room s' := by
  induction n generalizing s with
  | zero => exact ⟨[], s, rfl, by omega⟩
  | succ n ih =>
      have hsplit : (n + 1) * size = n * size + size := Nat.succ_mul n size
      obtain ⟨v, s₁, hv, hroom⟩ := hitem s (by omega)
      obtain ⟨vs, s', hvs, hlater⟩ := ih (s := s₁) (by omega)
      exact ⟨v :: vs, s', readMany_succ_ok hv hvs, by omega⟩

/-- Items are written one behind the other. -/
theorem writeMany_cons_ok {v : V} {vs : List V} {head tail : List β} (hv : write v = .ok head)
    (hvs : writeMany write vs = .ok tail) : writeMany write (v :: vs) = .ok (head ++ tail) := by
  simp only [writeMany, hv, hvs, bind, Except.bind, pure, Except.pure]

/-- What is written for several items starts with what is written for the first. -/
theorem writeMany_cons_eq_ok {v : V} {vs : List V} {bs : List β}
    (h : writeMany write (v :: vs) = .ok bs) :
    ∃ head tail, write v = .ok head ∧ writeMany write vs = .ok tail ∧ bs = head ++ tail := by
  rw [writeMany] at h
  obtain ⟨head, hhead, h⟩ := bind_ok.mp h
  obtain ⟨tail, htail, h⟩ := bind_ok.mp h
  cases h
  exact ⟨head, tail, hhead, htail, rfl⟩

/-- A run can be written exactly where each of its items can. -/
theorem writeMany_isOk_iff (vs : List V) :
    (∃ bs, writeMany write vs = .ok bs) ↔ ∀ v ∈ vs, ∃ bs, write v = .ok bs := by
  induction vs with
  | nil => simp [writeMany]
  | cons v vs ih =>
      constructor
      · rintro ⟨bs, h⟩ w hw
        obtain ⟨head, tail, hhead, htail, -⟩ := writeMany_cons_eq_ok h
        cases List.mem_cons.mp hw with
        | inl heq => exact ⟨head, by rw [heq, hhead]⟩
        | inr hmem => exact ih.mp ⟨tail, htail⟩ w hmem
      · intro h
        obtain ⟨head, hhead⟩ := h v List.mem_cons_self
        obtain ⟨tail, htail⟩ := ih.mpr fun w hw => h w (List.mem_cons_of_mem v hw)
        exact ⟨head ++ tail, writeMany_cons_ok hhead htail⟩

variable (T : Tape β σ)
include T

/-- If each item is read back from where it was written, so is a run of them. -/
theorem readMany_of_writeMany {vs : List V} {bs : List β}
    (hitem : ∀ v ∈ vs, ∀ bytes s, write v = .ok bytes → read (T.unread bytes s) = .ok (v, s))
    (h : writeMany write vs = .ok bs) (s : σ) :
    readMany read vs.length (T.unread bs s) = .ok (vs, s) := by
  induction vs generalizing bs with
  | nil =>
      cases h
      rw [T.unread_nil]
      rfl
  | cons v vs ih =>
      obtain ⟨head, tail, hhead, htail, rfl⟩ := writeMany_cons_eq_ok h
      rw [T.unread_append]
      apply readMany_succ_ok (hitem v List.mem_cons_self head _ hhead)
      exact ih (fun w hw => hitem w (List.mem_cons_of_mem v hw)) htail

/-- If writing an item gives back the symbols it was read from, each of them normalised, so does
writing a run of items. -/
theorem writeMany_of_readMany (norm : β → β)
    (hitem : ∀ s v s', read s = .ok (v, s') →
      ∃ bytes, s = T.unread bytes s' ∧ write v = .ok (bytes.map norm))
    {n : ℕ} {s s' : σ} {vs : List V} (h : readMany read n s = .ok (vs, s')) :
    ∃ bytes, s = T.unread bytes s' ∧ writeMany write vs = .ok (bytes.map norm) := by
  induction n generalizing s vs with
  | zero =>
      cases h
      exact ⟨[], (T.unread_nil _).symm, rfl⟩
  | succ n ih =>
      obtain ⟨v, s₁, vs', hv, hvs, rfl⟩ := readMany_succ_eq_ok h
      obtain ⟨tail, hs₁, htail⟩ := ih hvs
      obtain ⟨head, hs, hhead⟩ := hitem s v s₁ hv
      refine ⟨head ++ tail, ?_, ?_⟩
      · rw [T.unread_append, ← hs₁, hs]
      · rw [List.map_append]
        exact writeMany_cons_ok hhead htail

end Runs

end EnipAdapter.Foundation
