import EnipAdapter.Interface.ComponentContract

/-!
# A launched instance is stopped once

The runtimes that were launched are, up to their order, those that are held and those that were
stopped. An access moves runtimes between hands, a stop turns what a hand held into what was
stopped, and a launch adds an object that nobody has seen. That is the invariant of every step.
-/

set_option autoImplicit false

namespace EnipAdapter.Analysis

open EnipAdapter.Foundation
open EnipAdapter.Model
open EnipAdapter.Interface

/-! ## What a stop does to one runtime -/

/-- What was done to a runtime adds up. -/
theorem actsOn_append (object : ℕ) (a b : List StopAct) :
    actsOn object (a ++ b) = actsOn object a ++ actsOn object b :=
  List.filter_append ..

/-- Acts on others do nothing to it. -/
theorem actsOn_eq_nil {object : ℕ} {acts : List StopAct}
    (h : ∀ act ∈ acts, StopAct.object act ≠ object) : actsOn object acts = [] := by
  apply List.filter_eq_nil_iff.mpr
  intro act hact
  simpa using h act hact

/-- The stop engine touches the runtimes it is given. -/
theorem object_of_mem_stopRuntimes {takes : ℕ → ℕ → Option Duration} {budget : Duration}
    {runtimes : List DeviceRuntime} {act : StopAct}
    (h : act ∈ stopRuntimes takes budget runtimes) :
    ∃ rt ∈ runtimes, StopAct.object act = rt.object := by
  unfold stopRuntimes stopTasks at h
  obtain hcancel | hend := List.mem_append.mp h
  · obtain ⟨rt, hrt, rfl⟩ := List.mem_map.mp hcancel
    exact ⟨rt, hrt, rfl⟩
  · obtain ⟨rt, hrt, htask⟩ := List.mem_flatMap.mp hend
    obtain ⟨task, -, rfl⟩ := List.mem_map.mp htask
    exact ⟨rt, hrt, rfl⟩

/-- Stopping others does nothing to it. -/
theorem actsOn_stopRuntimes_of_not_mem (takes : ℕ → ℕ → Option Duration) (budget : Duration)
    {runtimes : List DeviceRuntime} {object : ℕ}
    (h : object ∉ runtimes.map DeviceRuntime.object) :
    actsOn object (stopRuntimes takes budget runtimes) = [] := by
  apply actsOn_eq_nil
  intro act hact heq
  obtain ⟨rt, hrt, hobject⟩ := object_of_mem_stopRuntimes hact
  exact h (List.mem_map.mpr ⟨rt, hrt, hobject.symm.trans heq⟩)

/-- One runtime more: its cancellation comes first, its tasks' ends come with the others'. -/
theorem actsOn_stopRuntimes_cons (takes : ℕ → ℕ → Option Duration) (budget : Duration)
    (rt : DeviceRuntime) (runtimes : List DeviceRuntime) (object : ℕ) :
    actsOn object (stopRuntimes takes budget (rt :: runtimes)) =
      actsOn object [.cancelled rt.object] ++
        actsOn object (runtimes.map fun other => .cancelled other.object) ++
        actsOn object (stopTasks takes budget [rt]) ++
        actsOn object (stopTasks takes budget runtimes) := by
  rw [← actsOn_append, ← actsOn_append, ← actsOn_append]
  apply congrArg
  simp [stopRuntimes, stopTasks]

/-- Of distinct runtimes each is stopped as if it were the only one. -/
theorem actsOn_stopRuntimes_of_mem (takes : ℕ → ℕ → Option Duration) (budget : Duration)
    {runtimes : List DeviceRuntime} (hobjects : (runtimes.map DeviceRuntime.object).Nodup)
    {rt : DeviceRuntime} (hrt : rt ∈ runtimes) :
    actsOn rt.object (stopRuntimes takes budget runtimes) = stopRuntimes takes budget [rt] := by
  have hwhole : ∀ acts : List StopAct, (∀ act ∈ acts, StopAct.object act = rt.object) →
      actsOn rt.object acts = acts := by
    intro acts hacts
    apply List.filter_eq_self.mpr
    intro act hact
    exact decide_eq_true (hacts act hact)
  induction runtimes with
  | nil => cases hrt
  | cons first rest ih =>
      obtain ⟨hfresh, hrest⟩ := List.nodup_cons.mp hobjects
      rw [actsOn_stopRuntimes_cons]
      obtain rfl | hmem := List.mem_cons.mp hrt
      · have hnone := actsOn_stopRuntimes_of_not_mem takes budget hfresh
        unfold stopRuntimes at hnone
        rw [actsOn_append, List.append_eq_nil_iff] at hnone
        rw [hnone.1, hnone.2, List.append_nil, List.append_nil, ← actsOn_append]
        apply hwhole
        intro act hact
        obtain ⟨other, hother, hobject⟩ :=
          @object_of_mem_stopRuntimes takes budget [rt] act hact
        rw [hobject, List.mem_singleton.mp hother]
      · have hne : rt.object ∉ [first].map DeviceRuntime.object := by
          intro hsame
          have heq := List.mem_singleton.mp hsame
          exact hfresh (List.mem_map.mpr ⟨rt, hmem, heq⟩)
        have hnone := actsOn_stopRuntimes_of_not_mem takes budget hne
        unfold stopRuntimes at hnone
        rw [actsOn_append, List.append_eq_nil_iff, List.map_singleton] at hnone
        rw [hnone.1, hnone.2, List.nil_append, List.append_nil, ← actsOn_append]
        exact ih hrest hmem

/-! ## The invariant -/

/-- The launched runtimes are the held ones, which nobody touched, and the stopped ones. -/
structure HandsKept (t : Teardown) : Prop where
  objects : (t.launched.map DeviceRuntime.object).Nodup
  made : ∀ rt ∈ t.launched, rt.object < t.launches
  strangers : ∀ act ∈ t.acts, ∃ rt ∈ t.launched, StopAct.object act = rt.object
  places : ∃ stopped, t.launched.Perm (Teardown.held t ++ stopped) ∧
    (∀ rt ∈ Teardown.held t, actsOn rt.object t.acts = []) ∧
    ∀ rt ∈ stopped, StoppedOnce rt t.acts

/-- An access that only moves runtimes from hand to hand keeps the account. -/
theorem handsKept_of_moved {t : Teardown} (t' : Teardown) (h : HandsKept t)
    (hheld : (Teardown.held t).Perm (Teardown.held t')) (hlaunched : t'.launched = t.launched)
    (hlaunches : t'.launches = t.launches) (hacts : t'.acts = t.acts) : HandsKept t' := by
  obtain ⟨hobjects, hmade, hstrangers, stopped, hperm, huntouched, hstopped⟩ := h
  refine ⟨by rw [hlaunched]; exact hobjects, ?_, ?_, stopped, ?_, ?_, ?_⟩
  · rw [hlaunched, hlaunches]
    exact hmade
  · rw [hlaunched, hacts]
    exact hstrangers
  · rw [hlaunched]
    exact hperm.trans (hheld.append_right stopped)
  · intro rt hrt
    rw [hacts]
    exact huntouched rt (hheld.mem_iff.mpr hrt)
  · rw [hacts]
    exact hstopped

/-- A stop turns what one hand held into what was stopped. -/
theorem handsKept_of_stopped {t : Teardown} (t' : Teardown) (h : HandsKept t)
    (takes : ℕ → ℕ → Option Duration) (budget : Duration) {hand : List DeviceRuntime}
    (hheld : (Teardown.held t).Perm (Teardown.held t' ++ hand))
    (hlaunched : t'.launched = t.launched) (hlaunches : t'.launches = t.launches)
    (hacts : t'.acts = t.acts ++ stopRuntimes takes budget hand) : HandsKept t' := by
  obtain ⟨hobjects, hmade, hstrangers, stopped, hperm, huntouched, hstopped⟩ := h
  have hparts : t.launched.Perm (Teardown.held t' ++ (hand ++ stopped)) := by
    rw [← List.append_assoc]
    exact hperm.trans (hheld.append_right stopped)
  have hdistinct := (hparts.map DeviceRuntime.object).nodup_iff.mp hobjects
  rw [List.map_append, List.map_append] at hdistinct
  obtain ⟨-, htail, hapart⟩ := List.nodup_append.mp hdistinct
  obtain ⟨hhand, -, hbehind⟩ := List.nodup_append.mp htail
  have hmem : ∀ rt ∈ hand, rt ∈ Teardown.held t := by
    intro rt hrt
    exact hheld.mem_iff.mpr (List.mem_append_right _ hrt)
  refine ⟨by rw [hlaunched]; exact hobjects, ?_, ?_, hand ++ stopped, ?_, ?_, ?_⟩
  · rw [hlaunched, hlaunches]
    exact hmade
  · rw [hlaunched, hacts]
    intro act hact
    obtain hold | hnew := List.mem_append.mp hact
    · exact hstrangers act hold
    · obtain ⟨rt, hrt, hobject⟩ := object_of_mem_stopRuntimes hnew
      exact ⟨rt, hparts.mem_iff.mpr (by simp [hrt]), hobject⟩
  · rw [hlaunched]
    exact hparts
  · intro rt hrt
    have hother : rt.object ∉ hand.map DeviceRuntime.object := by
      intro hsame
      exact hapart _ (List.mem_map_of_mem hrt) _ (List.mem_append_left _ hsame) rfl
    rw [hacts, actsOn_append, actsOn_stopRuntimes_of_not_mem takes budget hother,
      huntouched rt (hheld.mem_iff.mpr (List.mem_append_left _ hrt)), List.append_nil]
  · intro rt hrt
    rw [hacts]
    obtain hnew | hold := List.mem_append.mp hrt
    · refine ⟨takes, budget, ?_⟩
      rw [actsOn_append, huntouched rt (hmem rt hnew), List.nil_append]
      exact actsOn_stopRuntimes_of_mem takes budget hhand hnew
    · obtain ⟨takes', budget', honce⟩ := hstopped rt hold
      have hother : rt.object ∉ hand.map DeviceRuntime.object := by
        intro hsame
        exact hbehind _ hsame _ (List.mem_map_of_mem hold) rfl
      refine ⟨takes', budget', ?_⟩
      rw [actsOn_append, honce, actsOn_stopRuntimes_of_not_mem takes budget hother,
        List.append_nil]

/-- An insertion puts one runtime more into the registry's hand. -/
theorem held_insert (t : Teardown) (rt : DeviceRuntime) (launches : ℕ)
    (launched : List DeviceRuntime) :
    (Teardown.held { t with
      registry := t.registry.insert rt
      launches := launches
      launched := launched }).Perm (rt :: Teardown.held t) := by
  simp only [Teardown.held, DeviceRegistry.insert, List.append_assoc, List.singleton_append]
  exact List.perm_middle

/-- A launch adds an object that is held and that nobody has seen. -/
theorem handsKept_launch {t : Teardown} (h : HandsKept t) (cfg : DeviceConfig) (raw : Json)
    (outcome : LaunchOutcome) : HandsKept (teardownStep t (.launch cfg raw outcome)) := by
  obtain ⟨hobjects, hmade, hstrangers, stopped, hperm, huntouched, hstopped⟩ := h
  have hfailed : HandsKept { t with launches := t.launches + 1 } :=
    ⟨hobjects, fun rt hrt => Nat.lt_succ_of_lt (hmade rt hrt), hstrangers, stopped, hperm,
      huntouched, hstopped⟩
  cases outcome with
  | unknownAdapter e => exact hfailed
  | failed e => exact hfailed
  | launched tasks =>
      have hfresh : ∀ rt ∈ t.launched, rt.object ≠ t.launches := by
        intro rt hrt
        exact (hmade rt hrt).ne
      refine ⟨?_, ?_, ?_, stopped, ?_, ?_, hstopped⟩
      · simp only [teardownStep]
        rw [List.map_append, List.nodup_append]
        refine ⟨hobjects, List.nodup_singleton _, ?_⟩
        intro object hobject other hother
        obtain ⟨rt, hrt, rfl⟩ := List.mem_map.mp hobject
        rw [List.map_singleton, List.mem_singleton] at hother
        rw [hother]
        exact hfresh rt hrt
      · intro rt hrt
        obtain hold | hnew := List.mem_append.mp hrt
        · exact Nat.lt_succ_of_lt (hmade rt hold)
        · rw [List.mem_singleton.mp hnew]
          exact Nat.lt_succ_self t.launches
      · intro act hact
        obtain ⟨rt, hrt, hobject⟩ := hstrangers act hact
        exact ⟨rt, List.mem_append_left _ hrt, hobject⟩
      · apply (hperm.append_right _).trans
        apply List.perm_append_comm.trans
        exact ((held_insert t _ _ _).append_right stopped).symm
      · intro rt hrt
        obtain rfl | hold := List.mem_cons.mp ((held_insert t _ _ _).mem_iff.mp hrt)
        · apply actsOn_eq_nil
          intro act hact
          obtain ⟨other, hother, hobject⟩ := hstrangers act hact
          rw [hobject]
          exact hfresh other hother
        · exact huntouched rt hold

/-- What is taken out of the registry is in the hand, and the rest stays. -/
theorem remove_perm {r r' : DeviceRegistry} {id : String} {rt : DeviceRuntime}
    (h : r.remove id = some (rt, r')) : r.devices.Perm (rt :: r'.devices) := by
  unfold DeviceRegistry.remove at h
  cases hfind : r.devices.find? (·.id == id) with
  | none =>
      rw [hfind] at h
      cases h
  | some found =>
      rw [hfind] at h
      cases h
      obtain ⟨hid, front, back, hsplit, hfront⟩ := List.find?_eq_some_iff_append.mp hfind
      have herase : r.devices.eraseP (·.id == id) = front ++ back := by
        rw [hsplit, List.eraseP_append_right _ (by simpa using hfront),
          List.eraseP_cons_of_pos (by exact hid)]
      show r.devices.Perm (rt :: r.devices.eraseP (·.id == id))
      rw [herase, hsplit]
      exact List.perm_middle

/-- A pass of the shutdown finds nothing and returns, or it takes all there is. -/
theorem takeAll_looping {t : Teardown} (h : t.drain = .looping) :
    (t.registry.devices = [] ∧ teardownStep t .takeAll = { t with drain := .returned }) ∨
      teardownStep t .takeAll =
        { t with
          registry := { t.registry with devices := [] }
          drain := .holding t.registry.devices } := by
  obtain ⟨⟨devices, global⟩, launches, detached, drain, acts, launched⟩ := t
  cases (h : drain = .looping)
  cases devices with
  | nil => exact .inl ⟨rfl, rfl⟩
  | cons rt rest => exact .inr rfl

/-- Every access of either side keeps the account. -/
theorem handsKept_step (t : Teardown) (step : TeardownStep) (h : HandsKept t) :
    HandsKept (teardownStep t step) := by
  cases step with
  | launch cfg raw outcome => exact handsKept_launch h cfg raw outcome
  | setGlobal global => exact handsKept_of_moved _ h (List.Perm.refl _) rfl rfl rfl
  | detach id =>
      cases hremove : t.registry.remove id with
      | none =>
          have hsame : teardownStep t (.detach id) = t := by simp only [teardownStep, hremove]
          rw [hsame]
          exact h
      | some p =>
          obtain ⟨rt, registry⟩ := p
          have hnext : teardownStep t (.detach id) =
              { t with registry := registry, detached := t.detached ++ [rt] } := by
            simp only [teardownStep, hremove]
          rw [hnext]
          refine handsKept_of_moved _ h ?_ rfl rfl rfl
          unfold Teardown.held
          apply List.Perm.append_right
          apply ((remove_perm hremove).append_right t.detached).trans
          rw [List.cons_append, ← List.append_assoc]
          exact (List.perm_append_singleton rt _).symm
  | stopDetached takes budget =>
      refine handsKept_of_stopped _ h takes budget (?_ : List.Perm _ (_ ++ t.detached)) rfl rfl rfl
      simp only [teardownStep, Teardown.held, List.append_nil, List.append_assoc]
      exact List.perm_append_comm.append_left _
  | cancelRoot =>
      cases hdrain : t.drain with
      | idle =>
          refine handsKept_of_moved _ h ?_ ?_ ?_ ?_ <;>
            simp [teardownStep, hdrain, Teardown.held, Drain.taken]
      | looping | holding taken | returned =>
          simp only [teardownStep, hdrain]
          exact h
  | takeAll =>
      cases hdrain : t.drain with
      | looping =>
          obtain ⟨-, hnext⟩ | hnext := takeAll_looping hdrain
          · rw [hnext]
            refine handsKept_of_moved _ h ?_ rfl rfl rfl
            simp [Teardown.held, hdrain, Drain.taken]
          · rw [hnext]
            refine handsKept_of_moved _ h ?_ rfl rfl rfl
            simp only [Teardown.held, hdrain, Drain.taken, List.append_nil, List.nil_append]
            exact List.perm_append_comm
      | idle | holding taken | returned =>
          simp only [teardownStep, hdrain]
          exact h
  | stopTaken takes budget =>
      cases hdrain : t.drain with
      | holding taken =>
          have hnext : teardownStep t (.stopTaken takes budget) =
              { t with drain := .looping, acts := t.acts ++ stopRuntimes takes budget taken } := by
            simp only [teardownStep, hdrain]
          rw [hnext]
          refine handsKept_of_stopped _ h takes budget (?_ : List.Perm _ (_ ++ taken)) rfl rfl rfl
          simp [Teardown.held, hdrain, Drain.taken]
      | idle | looping | returned =>
          simp only [teardownStep, hdrain]
          exact h

/-- Every run keeps the account of the hands. -/
theorem handsKept_run {t : Teardown} (h : HandsKept t) (steps : List TeardownStep) :
    HandsKept (runSteps teardownStep t steps) :=
  runSteps_kept handsKept_step h steps

/-- At the start nothing is in any hands. -/
theorem handsKept_start (global : GlobalConfig) :
    HandsKept { registry := { global := global } } := by
  refine ⟨List.nodup_nil, ?_, ?_, [], List.Perm.refl [], ?_, ?_⟩
  · intro rt hrt
    cases hrt
  · intro act hact
    cases hact
  · intro rt hrt
    cases hrt
  · intro rt hrt
    cases hrt

/-- A launched runtime that nobody holds was stopped, and one that is held was not touched. -/
theorem owned_of_handsKept {t : Teardown} (h : HandsKept t) :
    ∀ rt ∈ t.launched, (rt ∈ Teardown.held t ∧ actsOn rt.object t.acts = []) ∨
      (rt ∉ Teardown.held t ∧ StoppedOnce rt t.acts) := by
  intro rt hrt
  obtain ⟨hobjects, -, -, stopped, hperm, huntouched, hstopped⟩ := h
  have hdistinct := (hperm.map DeviceRuntime.object).nodup_iff.mp hobjects
  rw [List.map_append] at hdistinct
  obtain ⟨-, -, hapart⟩ := List.nodup_append.mp hdistinct
  obtain hheld | hgone := List.mem_append.mp (hperm.mem_iff.mp hrt)
  · exact .inl ⟨hheld, huntouched rt hheld⟩
  · refine .inr ⟨?_, hstopped rt hgone⟩
    intro hheld
    exact hapart _ (List.mem_map_of_mem hheld) _ (List.mem_map_of_mem hgone) rfl

/-! ## What is gone stays gone -/

/-- A runtime that was launched and that nobody holds any more. -/
def Gone (rt : DeviceRuntime) (t : Teardown) : Prop := rt ∈ t.launched ∧ rt ∉ Teardown.held t

/-- An access hands out nothing but what was held, and a launch what is new. -/
theorem held_step {t : Teardown} {step : TeardownStep} {rt : DeviceRuntime}
    (h : rt ∈ Teardown.held (teardownStep t step)) :
    rt ∈ Teardown.held t ∨ rt.object = t.launches := by
  cases step with
  | launch cfg raw outcome =>
      cases outcome with
      | unknownAdapter e => exact .inl h
      | failed e => exact .inl h
      | launched tasks =>
          obtain rfl | hold := List.mem_cons.mp ((held_insert t _ _ _).mem_iff.mp h)
          · exact .inr rfl
          · exact .inl hold
  | setGlobal global => exact .inl h
  | detach id =>
      cases hremove : t.registry.remove id with
      | none =>
          simp only [teardownStep, hremove] at h
          exact .inl h
      | some p =>
          obtain ⟨other, registry⟩ := p
          simp only [teardownStep, hremove] at h
          simp only [Teardown.held, List.mem_append, List.mem_singleton] at h ⊢
          rw [(remove_perm hremove).mem_iff, List.mem_cons]
          tauto
  | stopDetached takes budget =>
      simp only [teardownStep, Teardown.held, List.mem_append, List.not_mem_nil] at h ⊢
      tauto
  | cancelRoot =>
      cases hdrain : t.drain <;>
        simp only [teardownStep, hdrain, Teardown.held, Drain.taken] at h ⊢ <;> exact .inl h
  | takeAll =>
      cases hdrain : t.drain with
      | looping =>
          obtain ⟨-, hnext⟩ | hnext := takeAll_looping hdrain
          all_goals
            rw [hnext] at h
            simp only [Teardown.held, hdrain, Drain.taken, List.mem_append, List.not_mem_nil] at h ⊢
            tauto
      | idle | holding taken | returned =>
          simp only [teardownStep, hdrain] at h
          exact .inl h
  | stopTaken takes budget =>
      cases hdrain : t.drain with
      | holding taken =>
          simp only [teardownStep, hdrain, Teardown.held, Drain.taken, List.append_nil] at h ⊢
          exact .inl (List.mem_append_left _ h)
      | idle | looping | returned =>
          simp only [teardownStep, hdrain] at h
          exact .inl h

/-- The history only grows. -/
theorem launched_step (t : Teardown) (step : TeardownStep) :
    t.launched ⊆ (teardownStep t step).launched := by
  cases step with
  | launch cfg raw outcome =>
      cases outcome with
      | launched tasks => exact List.subset_append_left _ _
      | unknownAdapter e => exact List.Subset.refl _
      | failed e => exact List.Subset.refl _
  | setGlobal global => exact List.Subset.refl _
  | detach id =>
      cases hremove : t.registry.remove id <;> simp only [teardownStep, hremove] <;>
        exact List.Subset.refl _
  | stopDetached takes budget => exact List.Subset.refl _
  | cancelRoot =>
      cases hdrain : t.drain <;> simp only [teardownStep, hdrain] <;> exact List.Subset.refl _
  | takeAll =>
      cases hdrain : t.drain with
      | looping =>
          obtain ⟨-, hnext⟩ | hnext := takeAll_looping hdrain <;> rw [hnext] <;>
            exact List.Subset.refl _
      | idle | holding taken | returned =>
          simp only [teardownStep, hdrain]
          exact List.Subset.refl _
  | stopTaken takes budget =>
      cases hdrain : t.drain <;> simp only [teardownStep, hdrain] <;> exact List.Subset.refl _

/-- What was launched stays in the record of launches. -/
theorem launched_run (t : Teardown) (steps : List TeardownStep) :
    t.launched ⊆ (runSteps teardownStep t steps).launched := by
  induction steps generalizing t with
  | nil => exact List.Subset.refl _
  | cons step steps ih => exact List.Subset.trans (launched_step t step) (ih _)

/-- What is gone stays gone. -/
theorem gone_run {t : Teardown} {rt : DeviceRuntime} (h : HandsKept t) (hgone : Gone rt t)
    (steps : List TeardownStep) : Gone rt (runSteps teardownStep t steps) := by
  induction steps generalizing t with
  | nil => exact hgone
  | cons step steps ih =>
      apply ih (handsKept_step t step h)
      refine ⟨launched_step t step hgone.1, ?_⟩
      intro hheld
      obtain hold | hnew := held_step hheld
      · exact hgone.2 hold
      · have hlt := h.made rt hgone.1
        omega

/-! ## The contract -/

/-- A shutdown that returns found nothing in the registry. -/
theorem devices_of_returned {t : Teardown} (hlooping : t.drain = .looping)
    (hreturned : (teardownStep t .takeAll).drain = .returned) : t.registry.devices = [] := by
  obtain ⟨hdevices, -⟩ | hnext := takeAll_looping hlooping
  · exact hdevices
  · rw [hnext] at hreturned
    cases hreturned

/-- The contract of a teardown holds after any steps of either side. -/
theorem teardown_stops_once (global : GlobalConfig) (steps : List TeardownStep) :
    TeardownContract global steps := by
  have haccount : ∀ steps, HandsKept (runTeardown global steps) :=
    handsKept_run (handsKept_start global)
  obtain ⟨hobjects, -, hstrangers, stopped, hperm, -, -⟩ := haccount steps
  refine ⟨hobjects, ?_, owned_of_handsKept (haccount steps), hstrangers, ?_⟩
  · have hdistinct := (hperm.map DeviceRuntime.object).nodup_iff.mp hobjects
    rw [List.map_append] at hdistinct
    exact hdistinct.of_append_left
  · rintro before later rfl hlooping hreturned rt hrt hnot
    have hnext : runTeardown global (before ++ [.takeAll]) =
        teardownStep (runTeardown global before) .takeAll := List.foldl_append ..
    rw [hnext] at hreturned
    have hdevices := devices_of_returned hlooping hreturned
    have hgone : Gone rt (runTeardown global before) := by
      refine ⟨hrt, ?_⟩
      simp only [Teardown.held, hdevices, hlooping, Drain.taken, List.nil_append, List.append_nil]
      exact hnot
    have hrun : runTeardown global (before ++ .takeAll :: later) =
        runSteps teardownStep (runTeardown global before) (.takeAll :: later) :=
      List.foldl_append ..
    have hend := gone_run (haccount before) hgone (.takeAll :: later)
    rw [← hrun] at hend
    obtain ⟨hheld, -⟩ | ⟨-, honce⟩ := owned_of_handsKept (haccount _) rt hend.1
    · exact absurd hheld hend.2
    · exact honce

end EnipAdapter.Analysis
