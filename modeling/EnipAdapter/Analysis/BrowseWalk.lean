import EnipAdapter.Analysis.TagListPage

/-!
# Browsing a device that serves its table

The pages of a walk are cut twice, by the device and by the caller, and the cursor of whichever
cut is shorter stands for exactly the entries that were not returned. So the pages are the table,
whatever the cuts are, and so is the inventory that the hierarchical form collects.
-/

set_option autoImplicit false

namespace EnipAdapter.Analysis

open EnipAdapter.Foundation EnipAdapter.Model EnipAdapter.Interface

/-! ## One page of the table -/

section Served

variable {table : SymbolTable} {peer : Peer} {elapsed : ℕ → Bool}

/-- From an instance on are the entries with that instance or a later one. -/
theorem mem_startingAt {start : UInt32} {e : SymbolInfo} :
    e ∈ table.startingAt start ↔ e ∈ table.entries ∧ start ≤ e.instanceId := by
  simp [SymbolTable.startingAt]

/-- What is left of the table from an instance on still ascends. -/
theorem startingAt_ascends (table : SymbolTable) (start : UInt32) :
    (table.startingAt start).Pairwise fun a b => a.instanceId < b.instanceId :=
  table.ascending.sublist List.filter_sublist

/-- From instance zero on is the whole table. -/
theorem startingAt_zero (table : SymbolTable) : table.startingAt 0 = table.entries := by
  apply List.filter_eq_self.mpr
  intro e _
  exact decide_eq_true (UInt32.le_iff_toNat_le.mpr (Nat.zero_le _))

/-- Behind the last record of a front come the entries that were left. -/
theorem startingAt_behind {start resume : UInt32} {front left : List SymbolInfo}
    {last : SymbolInfo} (hsplit : table.startingAt start = front ++ left)
    (hlast : front.getLast? = some last) (hresume : resume.toNat = last.instanceId.toNat + 1) :
    start < resume ∧ table.startingAt resume = left := by
  have hmem : last ∈ front := List.mem_of_getLast? hlast
  have hstart : start ≤ last.instanceId := by
    have hin : last ∈ table.startingAt start := by
      rw [hsplit]
      exact List.mem_append_left _ hmem
    exact (mem_startingAt.mp hin).2
  have hascends := startingAt_ascends table start
  rw [hsplit, List.pairwise_append] at hascends
  obtain ⟨hfrontAscends, -, hcross⟩ := hascends
  have hlt : start < resume := by
    rw [UInt32.le_iff_toNat_le] at hstart
    rw [UInt32.lt_iff_toNat_lt]
    omega
  refine ⟨hlt, ?_⟩
  have hfilter : table.startingAt resume =
      (table.startingAt start).filter fun e => resume ≤ e.instanceId := by
    unfold SymbolTable.startingAt
    rw [List.filter_filter]
    apply List.filter_congr
    intro e _
    rw [UInt32.lt_iff_toNat_lt] at hlt
    rw [← Bool.decide_and]
    apply decide_eq_decide.mpr
    rw [UInt32.le_iff_toNat_le, UInt32.le_iff_toNat_le]
    omega
  have hgone : front.filter (fun e => resume ≤ e.instanceId) = [] := by
    apply List.filter_eq_nil_iff.mpr
    intro e he hle
    have hbelow := le_last_of_ascends hfrontAscends hlast he
    rw [decide_eq_true_eq, UInt32.le_iff_toNat_le] at hle
    rw [UInt32.le_iff_toNat_le] at hbelow
    omega
  have hkept : left.filter (fun e => resume ≤ e.instanceId) = left := by
    apply List.filter_eq_self.mpr
    intro e he
    have habove := hcross last hmem e he
    rw [UInt32.lt_iff_toNat_lt] at habove
    rw [decide_eq_true_eq, UInt32.le_iff_toNat_le]
    omega
  rw [hfilter, hsplit, List.filter_append, hgone, hkept, List.nil_append]

/-- A reply of the target passes the guards with the front it serves. -/
theorem passesGuards_of_answers {start : UInt32} {count : ℕ} {status : CipStatus}
    (hstatus : status.general =
      if count < (table.startingAt start).length then .partialTransfer else .success) :
    PassesGuards start ⟨serviceGetInstanceAttributeList ||| 0x80, status,
      ((table.startingAt start).take count).flatMap recordBytes⟩
      ((table.startingAt start).take count) where
  service := expectService_own _ _ _
  status := by
    split_ifs at hstatus
    · right
      show (status.general == .partialTransfer) = true
      rw [hstatus]
      rfl
    · left
      show status.general.isOk = true
      rw [hstatus]
      rfl
  decodes := by
    apply parseTagList_recordBytes
    intro s hs
    exact table.named s (mem_startingAt.mp (List.mem_of_mem_take hs)).1
  ascends := (startingAt_ascends table start).sublist (List.take_sublist _ _)
  advances := by
    intro _ last hlast
    have hmem := List.mem_of_getLast? (Option.mem_def.mp hlast)
    exact (mem_startingAt.mp (List.mem_of_mem_take hmem)).2

/-- The controller's tag list can be asked for over the route of a slot, or over none. -/
theorem sendable_listTags {session : EipSession} {slot : Option UInt8}
    (hroute : session.client.route = slot.map RoutePath.backplaneSlot) (start : UInt32) :
    Sendable session.client (listTagsRequest start .controller).path := by
  have hpath : ∃ bytes, EPath.encode ⟨[.class_ classSymbol, .instance_ start]⟩ = .ok bytes := by
    have hwide : ∃ bytes, Segment.encode (.instance_ start) = .ok bytes ∧
        bytes.length % 2 = 0 ∧ bytes.length ≤ 6 := by
      refine ⟨_, rfl, ?_⟩
      unfold Segment.encodeLogicalWide
      split_ifs <;> simp
    obtain ⟨bytes, hbytes, heven, hshort⟩ := hwide
    refine ⟨[0x20, 0x6B] ++ bytes, ?_⟩
    simp only [EPath.encode, EPath.encodeSegments, hbytes, bind, Except.bind, pure, Except.pure,
      List.append_nil]
    rw [show Segment.encode (.class_ classSymbol) = .ok [0x20, 0x6B] from rfl]
    simp only [List.length_append, List.length_cons, List.length_nil, maxPathWords]
    rw [if_neg (by omega), if_neg (by omega)]
  obtain ⟨bytes, hbytes⟩ := hpath
  refine ⟨?_, ?_⟩
  · show (EPath.encode ⟨[.class_ classSymbol, .instance_ start]⟩).isOk = true
    rw [hbytes]
    rfl
  · intro _ route hr _
    rw [hroute] at hr
    obtain ⟨s, -, rfl⟩ := Option.map_eq_some_iff.mp (Option.mem_def.mp hr)
    have hencoded : (RoutePath.backplaneSlot s).toEpath.encode = .ok [1, s] := by
      simp [RoutePath.toEpath, RoutePath.backplaneSlot, EPath.encode, EPath.encodeSegments,
        Segment.encode, PortSegment.encode, bind, Except.bind, pure, Except.pure, maxPathWords]
    rw [hencoded]
    rfl

/-- Where entries are left behind the front of a page, the last entry of the front has an instance
behind it. -/
theorem resume_of_front {table : SymbolTable} {start : UInt32} {front left : List SymbolInfo}
    (hsplit : table.startingAt start = front ++ left) (hleft : left ≠ []) {last : SymbolInfo}
    (hlast : front.getLast? = some last) :
    ∃ resume, checkedSucc last.instanceId = some resume ∧ start < resume ∧
      table.startingAt resume = left := by
  cases hnext : checkedSucc last.instanceId with
  | none =>
      -- the last instance there is has no entry behind it
      exfalso
      obtain ⟨behind, hbehind⟩ := List.exists_mem_of_ne_nil _ hleft
      have hascends := startingAt_ascends table start
      rw [hsplit, List.pairwise_append] at hascends
      have habove := hascends.2.2 last (List.mem_of_getLast? hlast) behind hbehind
      have hmax := checkedSucc_eq_none.mp hnext
      have hbound := behind.instanceId.toNat_lt
      rw [UInt32.lt_iff_toNat_lt] at habove
      omega
  | some resume =>
      obtain ⟨hlt, hrest⟩ := startingAt_behind hsplit hlast (checkedSucc_eq_some.mp hnext)
      exact ⟨resume, rfl, hlt, hrest⟩

/-- One answered request: both cuts together leave the entries behind the shorter one, and the
cursor is behind the last entry that is shown. -/
theorem browse_answered {session : EipSession} {slot : Option UInt8}
    (hroute : session.client.route = slot.map RoutePath.backplaneSlot) {n : ℕ}
    {cursor : Option String} {start : UInt32} (hlate : elapsed n = false)
    (hanswer : AnswersFrom table start (peer n (listTagsRequest start .controller)))
    (hstart : parseBrowseCursor cursor = .ok start) (maxTags : ℕ) :
    ∃ k, (table.startingAt start ≠ [] → 0 < k) ∧
      session.browse peer elapsed n cursor maxTags =
        .ok ⟨((table.startingAt start).take k).map SymbolInfo.browsed,
          (if k < (table.startingAt start).length then
            ((table.startingAt start).take k).getLast?.bind fun s => checkedSucc s.instanceId
          else none).map fun n => toString n.toNat⟩ := by
  obtain ⟨count, status, hanswer, hcount, hstatus⟩ := hanswer
  have hdata : (listTagsRequest start .controller).data.length ≤ 6 := by
    simp [listTagsRequest]
  have hsend := sendCip_of_sendable hdata (sendable_listTags hroute start) peer n
  rw [hanswer] at hsend
  have hguards := passesGuards_of_answers hstatus
  have hok : session.browse peer elapsed n cursor maxTags = .ok _ :=
    (browse_eq_ok hstart).mpr ⟨hlate, _, _, hsend, hguards, rfl⟩
  rw [paginateBrowse_records, paginateBrowse_next, List.take_take] at hok
  have hmore : (max maxTags 1 < ((table.startingAt start).take count).length ∨
      status.hasMore = true) ↔ min (max maxTags 1) count < (table.startingAt start).length := by
    have hmoreThere : status.hasMore = true ↔ count < (table.startingAt start).length := by
      show (status.general == .partialTransfer) = true ↔ _
      rw [hstatus, beq_iff_eq]
      split_ifs with hlt <;> simp [hlt]
    rw [hmoreThere, List.length_take]
    omega
  refine ⟨min (max maxTags 1) count, ?_, ?_⟩
  · intro hne
    have hpos := hcount hne
    omega
  · simp only [hmore] at hok
    exact hok

/-- One page against the table: the front of the entries from the start on, with a cursor that
stands for what is left and lies above the start, or with none when nothing is left. -/
theorem browse_served {session : EipSession} {slot : Option UInt8}
    (hroute : session.client.route = slot.map RoutePath.backplaneSlot)
    (hserves : Serves table peer elapsed) {n : ℕ} {cursor : Option String} {start : UInt32}
    (hstart : parseBrowseCursor cursor = .ok start) (maxTags : ℕ) :
    ∃ (front left : List SymbolInfo) (next : Option UInt32),
      session.browse peer elapsed n cursor maxTags =
        .ok ⟨front.map SymbolInfo.browsed, next.map fun n => toString n.toNat⟩ ∧
      table.startingAt start = front ++ left ∧
      ((next = none ∧ left = []) ∨
        ∃ resume, next = some resume ∧ front ≠ [] ∧ start < resume ∧
          table.startingAt resume = left) := by
  obtain ⟨hlate, hanswer⟩ := hserves n start
  obtain ⟨k, hpos, hok⟩ := browse_answered hroute hlate hanswer hstart maxTags
  refine ⟨(table.startingAt start).take k, (table.startingAt start).drop k, _, hok,
    (List.take_append_drop k _).symm, ?_⟩
  by_cases hleft : k < (table.startingAt start).length
  · right
    rw [if_pos hleft]
    have hne : table.startingAt start ≠ [] := List.ne_nil_of_length_pos (by omega)
    have hfront : (table.startingAt start).take k ≠ [] := by
      have hsome := hpos hne
      apply List.ne_nil_of_length_pos
      rw [List.length_take]
      omega
    have hdrop : (table.startingAt start).drop k ≠ [] := by
      apply List.ne_nil_of_length_pos
      rw [List.length_drop]
      omega
    obtain ⟨last, hlast⟩ := List.getLast?_isSome.mpr hfront |> Option.isSome_iff_exists.mp
    obtain ⟨resume, hnext, hlt, hrest⟩ :=
      resume_of_front (List.take_append_drop k (table.startingAt start)).symm hdrop hlast
    refine ⟨resume, ?_, hfront, hlt, hrest⟩
    rw [hlast]
    exact hnext
  · left
    refine ⟨if_neg hleft, ?_⟩
    exact List.drop_of_length_le (by omega)

/-- A cursor of a session stands for the entries from its instance on. -/
def sessionStandsFor (table : SymbolTable) (cursor : Option String) (rest : List BrowsedTag) :
    Prop :=
  ∃ start, parseBrowseCursor cursor = .ok start ∧
    rest = (table.startingAt start).map SymbolInfo.browsed

/-- No cursor stands for the whole table. -/
theorem sessionStandsFor_none (table : SymbolTable) :
    sessionStandsFor table none (table.entries.map SymbolInfo.browsed) :=
  ⟨0, rfl, by rw [startingAt_zero]⟩

/-- Each page of a session is a front of what its cursor stands for, and its own cursor stands for
the rest. -/
theorem sessionPages_serves {session : EipSession} {slot : Option UInt8}
    (hroute : session.client.route = slot.map RoutePath.backplaneSlot)
    (hserves : Serves table peer elapsed) (sizes : ℕ → ℕ) (n : ℕ) (cursor : Option String)
    (rest : List BrowsedTag) (hcursor : sessionStandsFor table cursor rest) :
    ∃ page, sessionPages session peer elapsed sizes n cursor = .ok page ∧
      ServesFront (sessionStandsFor table) page rest := by
  obtain ⟨start, hstart, rfl⟩ := hcursor
  obtain ⟨front, left, next, hbrowse, hsplit, hnext⟩ :=
    browse_served hroute hserves (n := n) hstart (sizes n)
  refine ⟨⟨front.map SymbolInfo.browsed, next.map fun n => toString n.toNat⟩, ?_, ?_⟩
  · rw [sessionPages, hbrowse]
    rfl
  · rw [hsplit, List.map_append]
    rcases hnext with ⟨rfl, rfl⟩ | ⟨resume, rfl, hne, -, hleft⟩
    · left
      exact ⟨rfl, by simp⟩
    · right
      refine ⟨toString resume.toNat, left.map SymbolInfo.browsed, rfl, ?_, rfl, ?_⟩
      · simpa using hne
      · exact ⟨resume, parseBrowseCursor_toString resume, by rw [hleft]⟩

/-- The hierarchical form collects what a walk of its page size brings within the page cap. -/
theorem collectTags_of_walk {session : EipSession} {slot : Option UInt8}
    (hroute : session.client.route = slot.map RoutePath.backplaneSlot)
    (hserves : Serves table peer elapsed) (describe : DeviceError → String) (cfg : DeviceConfig)
    {size pages n : ℕ} {cursor : Option String} {start : UInt32}
    (hstart : parseBrowseCursor cursor = .ok start)
    (hend : (walk (sessionPages session peer elapsed fun _ => size) pages n cursor).outcome =
      .complete) :
    collectTags cfg (fun n cursor => browsingTask describe session peer elapsed n cursor size)
        pages n cursor start.toNat =
      .ok ((walk (sessionPages session peer elapsed fun _ => size) pages n cursor).items.map
        (tagEntry cfg)) := by
  induction pages generalizing n cursor start with
  | zero => cases hend
  | succ pages ih =>
      obtain ⟨front, left, next, hbrowse, hsplit, hnext⟩ :=
        browse_served hroute hserves (n := n) hstart size
      have hask : sessionPages session peer elapsed (fun _ => size) n cursor =
          .ok ⟨front.map SymbolInfo.browsed, next.map fun n => toString n.toNat⟩ := by
        rw [sessionPages, hbrowse]
        rfl
      have hanswer : browseAnswer (browsingTask describe session peer elapsed n cursor size) =
          .ok ⟨front.map SymbolInfo.browsed, next.map fun n => toString n.toNat⟩ := by
        rw [browsingTask, hbrowse]
        rfl
      rw [collectTags, hanswer]
      rcases hnext with ⟨rfl, -⟩ | ⟨resume, rfl, -, hlt, -⟩
      · rw [walk_last pages hask rfl]
        simp [Walk.items]
      · rw [walk_follow pages hask rfl] at hend ⊢
        have hresume : resume.toNat < 2 ^ 64 := by
          have hbound := resume.toNat_lt
          omega
        have hadvances : ¬ resume.toNat ≤ start.toNat := by
          rw [UInt32.lt_iff_toNat_lt] at hlt
          omega
        have hlater := ih (parseBrowseCursor_toString resume) hend
        simp only [Option.map_some, parseUnsigned_toString hresume, if_neg hadvances, hlater]
        simp [Walk.items]

end Served

/-! ## The layout of a push device -/

/-- A cursor of the layout stands for the fields from its index on. -/
def layoutStandsFor (cfg : DeviceConfig) (cursor : Option String) (rest : List Json) : Prop :=
  ∃ start, parsePushBrowseCursor cursor = .ok start ∧ rest = (pushFields layoutTag cfg).drop start

/-- A push cursor is read back as the index it was made of. -/
theorem parsePushBrowseCursor_toString {n : ℕ} (h : n < 2 ^ 64) :
    parsePushBrowseCursor (some (toString n)) = .ok n := by
  have htrim : trimText (toString n).toList = (toString n).toList :=
    trimText_digits fun c hc => isDigit_of_mem_toString hc
  simp only [parsePushBrowseCursor, htrim, parseUnsigned_toString h]

/-- Each page of a layout is a front of what its cursor stands for, and its own cursor stands for
the rest. -/
theorem layoutPages_serves {cfg : DeviceConfig}
    (hfits : (pushFields layoutTag cfg).length < 2 ^ 64) (sizes : ℕ → ℕ) (n : ℕ)
    (cursor : Option String) (rest : List Json) (hcursor : layoutStandsFor cfg cursor rest) :
    ∃ page, layoutPages cfg sizes n cursor = .ok page ∧
      ServesFront (layoutStandsFor cfg) page rest := by
  obtain ⟨start, hstart, rfl⟩ := hcursor
  generalize hall : pushFields layoutTag cfg = all at hfits
  generalize hsize : max (sizes n) 1 = size
  have hpos : 1 ≤ size := by omega
  by_cases hlong : size < (all.drop start).length
  · -- the page is cut, and its cursor is the index behind it
    have hlt : start + size < all.length := by
      rw [List.length_drop] at hlong
      omega
    have htaken : ((all.drop start).take size).length = size := by
      rw [List.length_take]
      omega
    refine ⟨⟨(all.drop start).take size, some (toString (start + size))⟩, ?_, .inr ?_⟩
    · have hstop : min (start + size) (2 ^ 64 - 1) = start + size := by omega
      simp only [layoutPages, browsePushLayout, hstart, hall, hsize, htaken, hstop, if_pos hlt, bind,
        Except.bind, pure, Except.pure, Except.map]
      rfl
    · refine ⟨_, all.drop (start + size), rfl, ?_, ?_, ?_⟩
      · apply List.ne_nil_of_length_pos
        show 0 < ((all.drop start).take size).length
        omega
      · show all.drop start = (all.drop start).take size ++ all.drop (start + size)
        rw [← List.drop_drop, List.take_append_drop]
      · exact ⟨start + size, parsePushBrowseCursor_toString (by omega), by rw [hall]⟩
  · refine ⟨⟨all.drop start, none⟩, ?_, .inl ⟨rfl, rfl⟩⟩
    have htaken : (all.drop start).take size = all.drop start :=
      List.take_of_length_le (by omega)
    have hstop : ¬ min (start + (all.drop start).length) (2 ^ 64 - 1) < all.length := by
      rw [List.length_drop]
      omega
    simp only [layoutPages, browsePushLayout, hstart, hall, hsize, htaken, if_neg hstop, bind,
      Except.bind, pure, Except.pure, Except.map]
    rfl

/-! ## Every tag exactly once -/

/-- A walk over pages that serve their cursors comes to its end with every item, once and in order.
-/
theorem exhausts_of_serves {ε α : Type} {ask : ℕ → Option String → Except ε (Page String α)}
    {standsFor : Option String → List α → Prop}
    (hpage : ∀ n cursor rest, standsFor cursor rest →
      ∃ page, ask n cursor = .ok page ∧ ServesFront standsFor page rest)
    {items : List α} (hfirst : standsFor none items) :
    Exhausts (walk ask (items.length + 1) 0 none) items := by
  have hcomplete := walk_complete hpage (n := 0) hfirst (Nat.lt_succ_self items.length)
  exact ⟨hcomplete.1, walk_items_of_complete hpage hfirst hcomplete.1, hcomplete.2⟩

/-- Against a device that serves its symbol table, whatever pages it cuts and whatever page sizes
are asked for, the walk of a session ends and its pages are the table; the hierarchical form
collects the same list when the walk of its page size stays within the page cap; and the walk of
a push device is its input fields followed by its output fields. A layout is a vector, whose
length is a `usize`. -/
theorem browse_lists_every_tag_once (table : SymbolTable) (peer : Peer) (elapsed : ℕ → Bool)
    (session : EipSession) (conn : ConnectionConfig) (pollCfg pushCfg : DeviceConfig)
    (sizes : ℕ → ℕ) (describe : DeviceError → String)
    (hroute : session.client.route = conn.slot.map RoutePath.backplaneSlot)
    (hserves : Serves table peer elapsed) (hpoll : pollCfg.mode = .poll)
    (hfits : (pushFields layoutTag pushCfg).length < 2 ^ 64) :
    Exhausts
        (walk (sessionPages session peer elapsed sizes) (table.entries.length + 1) 0 none)
        (table.entries.map SymbolInfo.browsed) ∧
      ((walk (sessionPages session peer elapsed fun _ => hierarchicalPageSize) maxBrowsePages 0
          none).outcome = .complete →
        inventory pollCfg (browsingTask describe session peer elapsed) =
          .ok (table.entries.map fun s => tagEntry pollCfg s.browsed)) ∧
      Exhausts
        (walk (layoutPages pushCfg sizes) ((pushFields layoutTag pushCfg).length + 1) 0 none)
        (pushFields layoutTag pushCfg) := by
  refine ⟨?_, ?_, ?_⟩
  · have hwalk := exhausts_of_serves (sessionPages_serves hroute hserves sizes)
      (sessionStandsFor_none table)
    rwa [List.length_map] at hwalk
  · intro hend
    have hitems := walk_items_of_complete
      (sessionPages_serves hroute hserves fun _ => hierarchicalPageSize)
      (sessionStandsFor_none table) hend
    have hstart : parseBrowseCursor none = .ok 0 := rfl
    have hcollect := collectTags_of_walk hroute hserves describe pollCfg hstart hend
    rw [hitems, List.map_map] at hcollect
    simp only [inventory, hpoll]
    exact hcollect
  · exact exhausts_of_serves (layoutPages_serves hfits sizes) ⟨0, rfl, rfl⟩

/-- A target that serves its table a number of entries at a time. -/
def tableTarget (table : SymbolTable) (count : ℕ) : Peer := fun _ mr =>
  match mr.path.segments with
  | [.class_ _, .instance_ start] =>
    .ok ⟨serviceGetInstanceAttributeList ||| 0x80,
      ⟨if count < (table.startingAt start).length then .partialTransfer else .success, []⟩,
      ((table.startingAt start).take count).flatMap recordBytes⟩
  | _ => .error .closed

/-- A target that answers some entries of a table at a time serves the table. -/
theorem tableTarget_serves (table : SymbolTable) {count : ℕ} (h : 0 < count) :
    Serves table (tableTarget table count) fun _ => false := by
  intro n start
  exact ⟨rfl, count, _, rfl, fun _ => h, rfl⟩

/-- The first and the last instance there are. -/
def endsOfSpace : SymbolTable where
  entries := [⟨0, "A", ⟨0xC4⟩⟩, ⟨0xFFFFFFFF, "B", ⟨0x20CA⟩⟩]
  ascending := by decide
  named := by
    intro e he
    rw [byteArray_toList]
    revert e
    decide

def slotTwo : ConnectionConfig := ⟨"plc:44818", some 2, false, .absent⟩

def slotTwoSession : EipSession := .new { route := some (RoutePath.backplaneSlot 2) }

def browsedPoll : DeviceConfig := ⟨"plc", .poll, slotTwo, [], none, ⟨[]⟩⟩

/-- A push device with one field in each direction. -/
def browsedIo : IoConfig where
  rpiMs := 10
  o2tRpiMs := none
  assemblies := ⟨none, 150, 100⟩
  input := { sizeBytes := 2, signals := [⟨"speed", 0, .uint, none, none, none, none, none⟩] }
  output := some ⟨2, .header32, true, [⟨"demand", 0, .uint, none, none, none, none, none⟩]⟩

def browsedPush : DeviceConfig := ⟨"io", .push, slotTwo, [], some browsedIo, ⟨[]⟩⟩

/-- A table whose instances are the ends of the number space is listed, and so is the layout of a
push device. -/
theorem browse_lists_endsOfSpace :
    Exhausts
        (walk (sessionPages slotTwoSession (tableTarget endsOfSpace 1) (fun _ => false) id) 3 0 none)
        (endsOfSpace.entries.map SymbolInfo.browsed) ∧
      Exhausts (walk (layoutPages browsedPush id) 3 0 none) (pushFields layoutTag browsedPush) := by
  have h := browse_lists_every_tag_once endsOfSpace (tableTarget endsOfSpace 1) (fun _ => false)
    slotTwoSession slotTwo browsedPoll browsedPush id (fun _ => "") rfl
    (tableTarget_serves endsOfSpace (by decide)) rfl (by decide)
  exact ⟨h.1, h.2.2⟩

end EnipAdapter.Analysis
