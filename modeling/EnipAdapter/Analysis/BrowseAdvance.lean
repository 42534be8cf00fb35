import EnipAdapter.Analysis.BrowseWalk

/-!
# Browsing any device

A walk follows the cursors a device makes the session return. The guards of a page look at its
last record; a page that is cut to the caller's size resumes behind another one. The cursor
advances unless that record lies below the start of the request, and a walk whose cursors advance
is finite.
-/

set_option autoImplicit false

namespace EnipAdapter.Analysis

open EnipAdapter.Foundation EnipAdapter.Model EnipAdapter.Interface

section AnyDevice

variable {session : EipSession} {peer : Peer} {elapsed : ℕ → Bool} {n maxTags : ℕ}
  {cursor : Option String} {start : UInt32}

/-- A cursor that is returned names the instance behind the last record that is returned; a page
that was not cut has passed the advance guard with that record. -/
theorem next_of_page {page : BrowsePage} {next : String}
    (hstart : parseBrowseCursor cursor = .ok start)
    (hpage : session.browse peer elapsed n cursor maxTags = .ok page)
    (hnext : page.nextCursor = some next) :
    ∃ reply records last resume, elapsed n = false ∧
      session.client.sendCip peer n (listTagsRequest start .controller) = .ok reply ∧
      PassesGuards start reply records ∧
      page.tags = (records.take (max maxTags 1)).map SymbolInfo.browsed ∧
      (records.take (max maxTags 1)).getLast? = some last ∧
      resume.toNat = last.instanceId.toNat + 1 ∧ parseBrowseCursor (some next) = .ok resume ∧
      (start ≤ last.instanceId ∨ max maxTags 1 < records.length) := by
  obtain ⟨hlate, reply, records, hsend, hguards, rfl⟩ := (browse_eq_ok hstart).mp hpage
  simp only [paginateBrowse_records, paginateBrowse_next] at hnext ⊢
  obtain ⟨resume, hresume, rfl⟩ := Option.map_eq_some_iff.mp hnext
  split_ifs at hresume with hmore
  obtain ⟨last, hlast, hsucc⟩ := Option.bind_eq_some_iff.mp hresume
  refine ⟨reply, records, last, resume, hlate, hsend, hguards, rfl, hlast,
    checkedSucc_eq_some.mp hsucc, parseBrowseCursor_toString resume, ?_⟩
  by_cases hlong : max maxTags 1 < records.length
  · exact .inr hlong
  · left
    rw [List.take_of_length_le (by omega)] at hlast
    have hstatus := hmore.resolve_left hlong
    exact hguards.advances hstatus last (Option.mem_def.mpr hlast)

/-- The cursor of a page lies above its start exactly when no cut falls behind a record below
the start. -/
theorem cursorAdvances_iff (hstart : parseBrowseCursor cursor = .ok start) :
    CursorAdvances session peer elapsed n cursor start maxTags ↔
      ¬ CutsBelow session peer elapsed n start maxTags := by
  constructor
  · rintro hadvances ⟨hlate, reply, records, hsend, hguards, hlong, last, hlast, hbelow⟩
    have hbound := start.toNat_lt
    rw [UInt32.lt_iff_toNat_lt] at hbelow
    cases hnext : checkedSucc last.instanceId with
    | none =>
        have hend := checkedSucc_eq_none.mp hnext
        omega
    | some resume =>
        have hresume := checkedSucc_eq_some.mp hnext
        have hpage : session.browse peer elapsed n cursor maxTags = .ok _ :=
          (browse_eq_ok hstart).mpr ⟨hlate, reply, records, hsend, hguards, rfl⟩
        rw [paginateBrowse_next, if_pos (.inl hlong), Option.mem_def.mp hlast, Option.bind_some,
          hnext] at hpage
        obtain ⟨resume', hparsed, hlt⟩ := hadvances _ _ hpage rfl
        rw [parseBrowseCursor_toString] at hparsed
        obtain rfl : resume = resume' := Except.ok.inj hparsed
        rw [UInt32.lt_iff_toNat_lt] at hlt
        omega
  · intro hcut page next hpage hnext
    obtain ⟨reply, records, last, resume, hlate, hsend, hguards, -, hlast, hsucc, hparsed, hcase⟩ :=
      next_of_page hstart hpage hnext
    refine ⟨resume, hparsed, ?_⟩
    have hle : start ≤ last.instanceId := by
      rcases hcase with hle | hlong
      · exact hle
      · apply UInt32.not_lt.mp
        intro hbelow
        exact hcut ⟨hlate, reply, records, hsend, hguards, hlong, last, Option.mem_def.mpr hlast,
          hbelow⟩
    rw [UInt32.le_iff_toNat_le] at hle
    rw [UInt32.lt_iff_toNat_lt]
    omega

/-- A page without records below the start cannot be cut behind one. -/
theorem not_cutsBelow_of_noneBelow (h : NoneBelow session peer n start maxTags) :
    ¬ CutsBelow session peer elapsed n start maxTags := by
  rintro ⟨-, reply, records, hsend, hguards, -, last, hlast, hbelow⟩
  have hmem := List.mem_of_getLast? (Option.mem_def.mp hlast)
  exact UInt32.not_lt.mpr (h reply records hsend hguards.decodes last hmem) hbelow

end AnyDevice

/-- The instance a cursor names. -/
def instanceOf (cursor : Option String) : ℕ :=
  match parseBrowseCursor cursor with
  | .ok start => start.toNat
  | .error _ => 0

/-- A cursor that parses names the instance it parses to. -/
theorem instanceOf_eq {cursor : Option String} {start : UInt32}
    (h : parseBrowseCursor cursor = .ok start) : instanceOf cursor = start.toNat := by
  rw [instanceOf, h]

/-- The instance a cursor names is a 32-bit number. -/
theorem instanceOf_lt (cursor : Option String) : instanceOf cursor < 2 ^ 32 := by
  unfold instanceOf
  split
  · exact UInt32.toNat_lt _
  · omega

/-- Without records below the start, the tags of a page lie between the start and its cursor. -/
theorem tags_between {session : EipSession} {peer : Peer} {elapsed : ℕ → Bool} {n maxTags : ℕ}
    {cursor : Option String} {start : UInt32} {page : BrowsePage}
    (hstart : parseBrowseCursor cursor = .ok start)
    (hpage : session.browse peer elapsed n cursor maxTags = .ok page)
    (hnone : NoneBelow session peer n start maxTags) :
    (∀ a ∈ page.tags, instanceOf cursor ≤ a.instanceId.toNat) ∧
      ∀ next, page.nextCursor = some next → instanceOf cursor ≤ instanceOf (some next) ∧
        ∀ a ∈ page.tags, a.instanceId.toNat < instanceOf (some next) := by
  rw [instanceOf_eq hstart]
  refine ⟨?_, ?_⟩
  · obtain ⟨-, reply, records, hsend, hguards, rfl⟩ := (browse_eq_ok hstart).mp hpage
    intro a ha
    simp only [paginateBrowse_records] at ha
    obtain ⟨r, hr, rfl⟩ := List.mem_map.mp ha
    exact UInt32.le_iff_toNat_le.mp (hnone reply records hsend hguards.decodes r hr)
  · intro next hnext
    obtain ⟨reply, records, last, resume, -, hsend, hguards, htags, hlast, hsucc, hparsed, -⟩ :=
      next_of_page hstart hpage hnext
    have habove := hnone reply records hsend hguards.decodes last (List.mem_of_getLast? hlast)
    rw [instanceOf_eq hparsed, htags]
    rw [UInt32.le_iff_toNat_le] at habove
    refine ⟨by omega, ?_⟩
    intro a ha
    obtain ⟨r, hr, rfl⟩ := List.mem_map.mp ha
    have hbelow := le_last_of_ascends (hguards.ascends.sublist (List.take_sublist _ _)) hlast hr
    rw [UInt32.le_iff_toNat_le] at hbelow
    show r.instanceId.toNat < resume.toNat
    omega

/-- A step of a walk is a page of the session, from a start that its cursor names. -/
theorem browse_of_step {session : EipSession} {peer : Peer} {elapsed : ℕ → Bool} {sizes : ℕ → ℕ}
    {fuel n : ℕ} {cursor : Option String} {step : WalkStep String BrowsedTag}
    (h : step ∈ (walk (sessionPages session peer elapsed sizes) fuel n cursor).steps) :
    ∃ start, parseBrowseCursor step.cursor = .ok start ∧
      session.browse peer elapsed step.place step.cursor (sizes step.place) =
        .ok ⟨step.page.items, step.page.next⟩ := by
  have hask := ask_of_mem_steps h
  unfold sessionPages at hask
  cases hbrowse : session.browse peer elapsed step.place step.cursor (sizes step.place) with
  | error e =>
      rw [hbrowse] at hask
      cases hask
  | ok page =>
      rw [hbrowse] at hask
      have hpage : (⟨page.tags, page.nextCursor⟩ : Page String BrowsedTag) = step.page :=
        Except.ok.inj hask
      cases hstart : parseBrowseCursor step.cursor with
      | error e => simp [EipSession.browse, hstart, bind, Except.bind] at hbrowse
      | ok start =>
          refine ⟨start, rfl, ?_⟩
          rw [← hpage]

/-- The answer to every request of a walk decides what becomes of it: the cursor of one page
lies above the start of its request exactly when no cut falls behind a record below the start; a
walk without such cuts makes at most 2^32 requests; and a walk whose pages hold no record below
the start of their request, up to the page size, never returns an instance twice. -/
theorem cursor_advances_iff_not_cut_below (session : EipSession) (peer : Peer)
    (elapsed : ℕ → Bool) (sizes : ℕ → ℕ) (cursor : Option String) (fuel : ℕ) :
    (∀ n start, parseBrowseCursor cursor = .ok start →
      (CursorAdvances session peer elapsed n cursor start (sizes n) ↔
        ¬ CutsBelow session peer elapsed n start (sizes n))) ∧
    (AtEveryRequest (walk (sessionPages session peer elapsed sizes) fuel 0 cursor)
        (fun n start => ¬ CutsBelow session peer elapsed n start (sizes n)) →
      (walk (sessionPages session peer elapsed sizes) fuel 0 cursor).requests ≤ 2 ^ 32) ∧
    (AtEveryRequest (walk (sessionPages session peer elapsed sizes) fuel 0 cursor)
        (fun n start => NoneBelow session peer n start (sizes n)) →
      (walk (sessionPages session peer elapsed sizes) fuel 0 cursor).requests ≤ 2 ^ 32 ∧
        NeverTwice (walk (sessionPages session peer elapsed sizes) fuel 0 cursor)) := by
  have hbounded : AtEveryRequest (walk (sessionPages session peer elapsed sizes) fuel 0 cursor)
      (fun n start => ¬ CutsBelow session peer elapsed n start (sizes n)) →
      (walk (sessionPages session peer elapsed sizes) fuel 0 cursor).requests ≤ 2 ^ 32 := by
    intro hcut
    have hadvance : ∀ step ∈ (walk (sessionPages session peer elapsed sizes) fuel 0 cursor).steps,
        ∀ next, step.page.next = some next → instanceOf step.cursor < instanceOf (some next) ∧
          instanceOf (some next) < 2 ^ 32 := by
      intro step hstep next hnext
      obtain ⟨start, hstart, hpage⟩ := browse_of_step hstep
      obtain ⟨resume, hresume, hlt⟩ :=
        (cursorAdvances_iff hstart).mpr (hcut step hstep start hstart) _ next hpage hnext
      rw [instanceOf_eq hstart, instanceOf_eq hresume]
      exact ⟨UInt32.lt_iff_toNat_lt.mp hlt, resume.toNat_lt⟩
    have hrequests := walk_requests_le hadvance (instanceOf_lt cursor)
    omega
  refine ⟨fun n start hstart => cursorAdvances_iff hstart, hbounded, ?_⟩
  intro hnone
  have hcut : AtEveryRequest (walk (sessionPages session peer elapsed sizes) fuel 0 cursor)
      (fun n start => ¬ CutsBelow session peer elapsed n start (sizes n)) := by
    intro step hstep start hstart
    exact not_cutsBelow_of_noneBelow (hnone step hstep start hstart)
  refine ⟨hbounded hcut, ?_⟩
  have hbetween : ∀ step ∈ (walk (sessionPages session peer elapsed sizes) fuel 0 cursor).steps,
      (∀ a ∈ step.page.items, instanceOf step.cursor ≤ a.instanceId.toNat) ∧
        ∀ next, step.page.next = some next → instanceOf step.cursor ≤ instanceOf (some next) ∧
          ∀ a ∈ step.page.items, a.instanceId.toNat < instanceOf (some next) := by
    intro step hstep
    obtain ⟨start, hstart, hpage⟩ := browse_of_step hstep
    exact tags_between hstart hpage (hnone step hstep start hstart)
  refine (walk_disjoint hbetween).imp ?_
  intro first second hdistinct a ha b hb heq
  exact hdistinct a ha b hb (by rw [heq])

/-- A peer that answers every request with the instances 5 and 200, and more to follow. -/
def backwardPeer : Peer := fun _ _ =>
  .ok ⟨0xD5, ⟨.partialTransfer, []⟩,
    [⟨5, "A", ⟨0xC4⟩⟩, ⟨200, "B", ⟨0xC4⟩⟩].flatMap recordBytes⟩

/-- Asked from instance 6 on, the target has the client hand out the cursor it was given. -/
theorem backwardPeer_page (n : ℕ) :
    (EipSession.new {}).browse backwardPeer (fun _ => false) n (some "6") 1 =
      .ok ⟨[⟨"A", "DINT", none, 5⟩], some "6"⟩ := by
  have hstart : parseBrowseCursor (some "6") = .ok 6 := by decide
  have hshort : ∀ s ∈ [(⟨5, "A", ⟨0xC4⟩⟩ : SymbolInfo), ⟨200, "B", ⟨0xC4⟩⟩],
      s.name.toUTF8.toList.length < 2 ^ 16 := by
    intro s
    rw [byteArray_toList]
    revert s
    decide
  have hguards : PassesGuards 6 ⟨0xD5, ⟨.partialTransfer, []⟩, _⟩ _ :=
    ⟨rfl, .inr rfl, parseTagList_recordBytes hshort, by decide, by decide⟩
  have hroute : (EipSession.new {}).client.route = Option.map RoutePath.backplaneSlot none := rfl
  have hsend := sendCip_of_sendable (by decide) (sendable_listTags hroute 6) backwardPeer n
  have hpage : (EipSession.new {}).browse backwardPeer (fun _ => false) n (some "6") 1 = .ok _ :=
    (browse_eq_ok hstart).mpr ⟨rfl, _, _, hsend, hguards, rfl⟩
  exact hpage

/-- Asked from instance 6 for one tag, the session returns instance 5 and the cursor 6 again. -/
theorem browse_stands_still :
    ¬ CursorAdvances (EipSession.new {}) backwardPeer (fun _ => false) 0 (some "6") 6 1 ∧
      ¬ NeverTwice (walk (sessionPages (EipSession.new {}) backwardPeer (fun _ => false)
        fun _ => 1) 2 0 (some "6")) := by
  refine ⟨?_, ?_⟩
  · intro hadvances
    obtain ⟨resume, hresume, hlt⟩ := hadvances _ "6" (backwardPeer_page 0) rfl
    have hsix : parseBrowseCursor (some "6") = .ok 6 := by decide
    obtain rfl : (6 : UInt32) = resume := Except.ok.inj (hsix.symm.trans hresume)
    exact absurd hlt (by decide)
  · intro hnever
    have hask : ∀ n, sessionPages (EipSession.new {}) backwardPeer (fun _ => false) (fun _ => 1) n
        (some "6") = .ok ⟨[⟨"A", "DINT", none, 5⟩], some "6"⟩ := by
      intro n
      rw [sessionPages, backwardPeer_page]
      rfl
    rw [NeverTwice, walk_follow 1 (hask 0) rfl, walk_follow 0 (hask 1) rfl] at hnever
    have hpair := (List.pairwise_cons.mp hnever).1 _ List.mem_cons_self
    exact hpair _ (List.mem_singleton_self _) _ (List.mem_singleton_self _) rfl

end EnipAdapter.Analysis
