import EnipAdapter.Analysis.TagRead
import EnipAdapter.Interface.BrowseContract

/-!
# One page of a tag list

The two descriptions of a page that the walks need: what a session returns is decided by the
records of a reply that passes the guards, and the records of a table are read back from the
wire as they were written.
-/

set_option autoImplicit false

namespace EnipAdapter.Analysis

open EnipAdapter.Foundation EnipAdapter.Model EnipAdapter.Interface

/-! ## Cursors -/

/-- A successor is one more. -/
theorem checkedSucc_eq_some {n m : UInt32} : checkedSucc n = some m ↔ m.toNat = n.toNat + 1 := by
  unfold checkedSucc
  constructor
  · intro h
    split_ifs at h with hlt
    cases h
    rw [UInt32.toNat_add]
    exact Nat.mod_eq_of_lt hlt
  · intro h
    have hlt : n.toNat + 1 < 2 ^ 32 := h ▸ m.toNat_lt
    rw [if_pos hlt]
    congr 1
    apply UInt32.toNat_inj.mp
    rw [UInt32.toNat_add, h]
    exact Nat.mod_eq_of_lt hlt

/-- Only the largest instance has none. -/
theorem checkedSucc_eq_none {n : UInt32} : checkedSucc n = none ↔ n.toNat + 1 = 2 ^ 32 := by
  have hlt := n.toNat_lt
  unfold checkedSucc
  split_ifs <;> simp <;> omega

/-- A cursor that was written from an instance is read back as it. -/
theorem parseBrowseCursor_toString (n : UInt32) :
    parseBrowseCursor (some (toString n.toNat)) = .ok n := by
  have htrim : trimText (toString n.toNat).toList = (toString n.toNat).toList :=
    trimText_digits fun c hc => isDigit_of_mem_toString hc
  simp only [parseBrowseCursor, htrim, parseUnsigned_toString n.toNat_lt, UInt32.ofNat_toNat]

/-! ## The guards -/

/-- The guard passes instances that ascend, from the previous page on. -/
theorem orderingGuard_iff (previous : Option UInt32) (records : List SymbolInfo) :
    orderingGuard previous records = true ↔
      (records.Pairwise fun a b => a.instanceId < b.instanceId) ∧
        ∀ p ∈ previous, ∀ r ∈ records, p < r.instanceId := by
  induction records generalizing previous with
  | nil => simp [orderingGuard]
  | cons record records ih =>
      simp only [orderingGuard]
      split_ifs with hback
      · -- the first record does not ascend
        obtain ⟨p, hp, hle⟩ := (Option.any_eq_true _ _).mp hback
        constructor
        · intro h
          cases h
        · rintro ⟨-, habove⟩
          have hlt := habove p hp record List.mem_cons_self
          exact absurd hlt (UInt32.not_lt.mpr (of_decide_eq_true hle))
      · rw [ih (some record.instanceId), List.pairwise_cons]
        constructor
        · rintro ⟨hsorted, habove⟩
          have hrecord : ∀ r ∈ records, record.instanceId < r.instanceId :=
            habove record.instanceId rfl
          refine ⟨⟨hrecord, hsorted⟩, ?_⟩
          intro p hp r hr
          have hfirst : p < record.instanceId := by
            apply UInt32.not_le.mp
            intro hle
            apply hback
            rw [Option.mem_def.mp hp]
            exact decide_eq_true hle
          rcases List.mem_cons.mp hr with rfl | hlater
          · exact hfirst
          · exact UInt32.lt_trans hfirst (hrecord r hlater)
        · rintro ⟨⟨hrecord, hsorted⟩, -⟩
          refine ⟨hsorted, ?_⟩
          intro p hp
          obtain rfl : record.instanceId = p := Option.some.inj hp
          exact hrecord

/-- Where the device's own next page starts. -/
def deviceNext (reply : MessageReply) (records : List SymbolInfo) : Option UInt32 :=
  if reply.status.hasMore then records.getLast?.bind fun s => checkedSucc s.instanceId else none

/-- The advance guard: the resume point lies above the start exactly when the last record does
not lie below it. -/
theorem advanceGuard_iff (start : UInt32) (records : List SymbolInfo) :
    (records.getLast?.bind fun s => checkedSucc s.instanceId).any (· ≤ start) = false ↔
      ∀ last ∈ records.getLast?, start ≤ last.instanceId := by
  cases records.getLast? with
  | none => simp
  | some last =>
      simp only [Option.bind_some, Option.mem_def, Option.some.injEq, forall_eq']
      cases hnext : checkedSucc last.instanceId with
      | none =>
          have hlast := checkedSucc_eq_none.mp hnext
          have hstart := start.toNat_lt
          simp only [Option.any_none, true_iff, UInt32.le_iff_toNat_le]
          omega
      | some next =>
          have hsucc := checkedSucc_eq_some.mp hnext
          simp only [Option.any_some, decide_eq_false_iff_not, UInt32.le_iff_toNat_le]
          omega

/-- What the protocol crate makes of a reply. -/
theorem tagListPage_eq_ok {start : UInt32} {reply : MessageReply} {records : List SymbolInfo}
    {next : Option UInt32} :
    tagListPage start reply = .ok (records, next) ↔
      PassesGuards start reply records ∧ next = deviceNext reply records := by
  unfold tagListPage deviceNext
  constructor
  · intro h
    cases hservice : reply.expectService serviceGetInstanceAttributeList with
    | error e => simp [hservice, bind, Except.bind] at h
    | ok u =>
        simp only [hservice, bind, Except.bind, pure, Except.pure] at h
        split at h
        · cases h
        · rename_i hstatus
          cases hparse : parseTagList reply.data with
          | error e => simp [hparse, liftWire] at h
          | ok rs =>
              simp only [hparse, liftWire_ok] at h
              split_ifs at h with hguard hmore hadvance
              · cases h
                rw [Bool.not_eq_false] at hguard
                rw [Bool.not_eq_true] at hadvance
                refine ⟨⟨hservice, ?_, hparse, ((orderingGuard_iff none _).mp hguard).1, ?_⟩, ?_⟩
                · exact .inr hmore
                · intro _
                  exact (advanceGuard_iff start _).mp hadvance
                · rw [if_pos hmore]
              · cases h
                rw [Bool.not_eq_false] at hguard
                refine ⟨⟨hservice, ?_, hparse, ((orderingGuard_iff none _).mp hguard).1, ?_⟩, ?_⟩
                · left
                  by_contra hok
                  exact hstatus ⟨by simpa using hok, by simpa using hmore⟩
                · intro hm
                  exact absurd hm hmore
                · rw [if_neg hmore]
  · rintro ⟨⟨hservice, hstatus, hparse, hascends, hadvances⟩, rfl⟩
    have hguard : orderingGuard none records = true :=
      (orderingGuard_iff none records).mpr ⟨hascends, by simp⟩
    have hserved : ¬ (reply.status.isOk = false ∧ reply.status.hasMore = false) := by
      rintro ⟨hok, hmore⟩
      rcases hstatus with h | h
      · rw [h] at hok
        cases hok
      · rw [h] at hmore
        cases hmore
    simp only [hservice, bind, Except.bind, pure, Except.pure, if_neg hserved, hparse, liftWire_ok,
      hguard, Bool.true_eq_false, if_false]
    by_cases hmore : reply.status.hasMore = true
    · have hadvance := (advanceGuard_iff start records).mpr (hadvances hmore)
      simp only [hmore, if_true, hadvance, Bool.false_eq_true, if_false]
    · simp only [hmore, Bool.false_eq_true, if_false]

/-- A failed page is no answer. -/
theorem browseOutcome_error (start : UInt32) (maxTags : ℕ) (e : EnipError) (page : BrowsePage) :
    browseOutcome start maxTags (.error e) ≠ .ok page := by
  intro h
  unfold browseOutcome at h
  split at h
  · cases ‹Except.error _ = Except.ok _›
  · split_ifs at h
  · cases h

/-- A page that the session returns, and what it was cut from. -/
theorem browse_eq_ok {session : EipSession} {peer : Peer} {elapsed : ℕ → Bool} {n : ℕ}
    {cursor : Option String} {start : UInt32} {maxTags : ℕ} {page : BrowsePage}
    (hstart : parseBrowseCursor cursor = .ok start) :
    session.browse peer elapsed n cursor maxTags = .ok page ↔
      elapsed n = false ∧ ∃ reply records,
        session.client.sendCip peer n (listTagsRequest start .controller) = .ok reply ∧
        PassesGuards start reply records ∧
        page = ⟨(paginateBrowse records (deviceNext reply records) maxTags).1.map
            SymbolInfo.browsed,
          (paginateBrowse records (deviceNext reply records) maxTags).2.map
            fun n => toString n.toNat⟩ := by
  simp only [EipSession.browse, hstart, bind, Except.bind]
  cases hlate : elapsed n with
  | true => simp
  | false =>
      simp only [Bool.false_eq_true, if_false, true_and]
      unfold listTags
      cases hsend : session.client.sendCip peer n (listTagsRequest start .controller) with
      | error e =>
          simp only [bind, Except.bind, reduceCtorEq, false_and, exists_false, iff_false]
          exact browseOutcome_error start maxTags e page
      | ok reply =>
          simp only [bind, Except.bind]
          cases hpage : tagListPage start reply with
          | error e =>
              constructor
              · intro h
                exact absurd h (browseOutcome_error start maxTags e page)
              · rintro ⟨reply', records, hreply, hguards, -⟩
                obtain rfl : reply = reply' := Except.ok.inj hreply
                have hok := tagListPage_eq_ok.mpr ⟨hguards, rfl⟩
                rw [hpage] at hok
                cases hok
          | ok result =>
              obtain ⟨records, next⟩ := result
              obtain ⟨hguards, rfl⟩ := tagListPage_eq_ok.mp hpage
              constructor
              · intro h
                exact ⟨reply, records, rfl, hguards, (Except.ok.inj h).symm⟩
              · rintro ⟨reply', records', hreply, hguards', rfl⟩
                obtain rfl : reply = reply' := Except.ok.inj hreply
                obtain rfl : records = records' :=
                  Except.ok.inj (hguards.decodes.symm.trans hguards'.decodes)
                rfl

/-! ## The caller's cut -/

/-- A page shows the first records, one at least. -/
theorem paginateBrowse_records (records : List SymbolInfo) (next : Option UInt32) (maxTags : ℕ) :
    (paginateBrowse records next maxTags).1 = records.take (max maxTags 1) := by
  simp only [paginateBrowse]
  split_ifs with hlong
  · rfl
  · show records = records.take (max maxTags 1)
    exact (List.take_of_length_le (by omega)).symm

/-- A page resumes behind the last record it returns, or not at all. -/
theorem paginateBrowse_next (records : List SymbolInfo) (reply : MessageReply) (maxTags : ℕ) :
    (paginateBrowse records (deviceNext reply records) maxTags).2 =
      if max maxTags 1 < records.length ∨ reply.status.hasMore = true then
        (records.take (max maxTags 1)).getLast?.bind fun s => checkedSucc s.instanceId
      else none := by
  unfold paginateBrowse deviceNext
  by_cases hlong : max maxTags 1 < records.length
  · rw [if_pos hlong, if_pos (.inl hlong)]
  · rw [if_neg (by omega), List.take_of_length_le (by omega)]
    simp only [hlong, false_or]

/-- In an ascending list every record is at or below the last. -/
theorem le_last_of_ascends {records : List SymbolInfo} {last : SymbolInfo}
    (hascends : records.Pairwise fun a b => a.instanceId < b.instanceId)
    (hlast : records.getLast? = some last) {r : SymbolInfo} (hr : r ∈ records) :
    r.instanceId ≤ last.instanceId := by
  obtain ⟨front, rfl⟩ := List.getLast?_eq_some_iff.mp hlast
  rcases List.mem_append.mp hr with hfront | hend
  · have hlt := (List.pairwise_append.mp hascends).2.2 r hfront last (List.mem_singleton_self _)
    exact UInt32.le_of_lt hlt
  · obtain rfl := List.mem_singleton.mp hend
    exact UInt32.le_refl _

/-! ## The records of a table -/

/-- A record is read back. -/
theorem decode_recordBytes {s : SymbolInfo} (h : s.name.toUTF8.toList.length < 2 ^ 16)
    (rest : Bytes) :
    SymbolInfo.decode ⟨recordBytes s ++ rest, "logix"⟩ = .ok (s, ⟨rest, "logix"⟩) := by
  have hlen : (UInt16.ofNat s.name.toUTF8.toList.length).toNat = s.name.toUTF8.toList.length := by
    rw [UInt16.toNat_ofNat']
    exact Nat.mod_eq_of_lt h
  simp only [SymbolInfo.decode, recordBytes, List.append_assoc, WireReader.u32_append,
    WireReader.u16_append, bind, Except.bind, hlen, WireReader.take_append, ofUtf8_toUTF8, pure,
    Except.pure]

/-- The records of a page are read back, in order. -/
theorem parseTagList_recordBytes {records : List SymbolInfo}
    (h : ∀ s ∈ records, s.name.toUTF8.toList.length < 2 ^ 16) :
    parseTagList (records.flatMap recordBytes) = .ok records := by
  unfold parseTagList WireReader.withContext
  induction records with
  | nil =>
      rw [List.flatMap_nil, parseRecords]
      rfl
  | cons s records ih =>
      have hne : (⟨recordBytes s ++ records.flatMap recordBytes, "logix"⟩ : WireReader).remaining ≠
          0 := by
        simp only [WireReader.remaining, recordBytes, List.length_append, putU32_length]
        omega
      have hrest := ih fun t ht => h t (List.mem_cons_of_mem _ ht)
      rw [List.flatMap_cons, parseRecords, if_neg hne]
      split
      · rename_i e hdecode
        rw [decode_recordBytes (h s List.mem_cons_self)] at hdecode
        cases hdecode
      · rename_i info r' hdecode
        rw [decode_recordBytes (h s List.mem_cons_self)] at hdecode
        cases hdecode
        rw [hrest]

end EnipAdapter.Analysis
