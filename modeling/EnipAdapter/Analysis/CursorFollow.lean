import EnipAdapter.Analysis.BrowseWalk
import EnipAdapter.Interface.CursorContract

/-!
# When a browse cursor is followed or refused

Both modes read the cursor of the body as a string, and what is no string is no cursor: the page
is then the first one. A string is parsed, and the page starts at the entry it names. So a cursor
is honoured exactly when it is a string that names nothing at or before the first entry.
-/

set_option autoImplicit false

namespace EnipAdapter.Analysis

open EnipAdapter.Foundation EnipAdapter.Model EnipAdapter.Interface

/-! ## What is followed -/

/-- The number that a command follows for a cursor of the body, where it follows one. -/
def followedNumber (limit : ℕ) (cursor : Json) : Option ℕ :=
  cursor.asStr.elim (some 0) fun s => parseUnsigned limit (trimText s.toList)

/-- A number that is followed from an issued cursor is the number the page issued. -/
theorem eq_toString_of_issued {inv : Enumeration Json} {cursor : Json} {limit n : ℕ}
    (hkeys : ∀ e ∈ inv.entries, e.1 < limit) (hissued : CursorIssued inv cursor)
    (hn : followedNumber limit cursor = some n) :
    ∃ i size, (inv.page i size).next = some n := by
  obtain ⟨i, size, m, hnext, rfl⟩ := hissued
  obtain ⟨j, hj, -, hle⟩ := inv.next_page hnext
  have hlimit : m < limit := Nat.lt_of_le_of_lt hle (hkeys _ (List.getElem_mem hj))
  have htrim : trimText (toString m).toList = (toString m).toList :=
    trimText_digits fun c hc => isDigit_of_mem_toString hc
  have hread : followedNumber limit (.str (toString m)) = some m := by
    show parseUnsigned limit (trimText (toString m).toList) = some m
    rw [htrim, parseUnsigned_toString hlimit]
  rw [hread] at hn
  cases hn
  exact ⟨i, size, hnext⟩

/-- An issued cursor names a number past the first entry. -/
theorem first_lt_of_issued {inv : Enumeration Json} {cursor : Json} {limit n : ℕ}
    (hkeys : ∀ e ∈ inv.entries, e.1 < limit) (hissued : CursorIssued inv cursor)
    (hn : followedNumber limit cursor = some n) {first : ℕ × Json}
    (hfirst : first ∈ inv.entries.head?) : first.1 < n := by
  obtain ⟨i, size, hnext⟩ := eq_toString_of_issued hkeys hissued hn
  obtain ⟨j, hj, rfl, -⟩ := inv.next_page hnext
  obtain ⟨rest, hentries⟩ := List.head?_eq_some_iff.mp (Option.mem_def.mp hfirst)
  have hle := inv.first_le hentries (List.getElem_mem (show j < inv.entries.length by omega))
  omega

/-- A page from a place that is not the first is not the first page. -/
theorem showsFirst_iff {inv : Enumeration Json} {i : ℕ} (hle : i ≤ inv.entries.length)
    {reply : Json} (h : ShowsFrom inv i reply) :
    ShowsFirst inv reply ↔ inv.entries ≠ [] ∧ i = 0 := by
  refine and_congr_right fun _ => ⟨fun hzero => ?_, fun hi => hi ▸ h⟩
  by_contra hi
  obtain ⟨size, hpos, hpage⟩ := h
  obtain ⟨size', hpos', hpage'⟩ := hzero
  rw [hpage] at hpage'
  apply inv.page_ne_first (Nat.pos_of_ne_zero hi) hle hpos hpos'
  have hitems := congrArg Page.items hpage'
  have hnext := congrArg Page.next hpage'
  have hinjective : Function.Injective fun n : ℕ => toString n := by
    intro a b hab
    have ha := parseUnsigned_toString (show a < a + b + 1 by omega)
    have hb := parseUnsigned_toString (show b < a + b + 1 by omega)
    have hsame : toString a = toString b := hab
    rw [hsame, hb] at ha
    exact (Option.some.inj ha).symm
  calc inv.page i size = ⟨(inv.page i size).items, (inv.page i size).next⟩ := rfl
    _ = ⟨(inv.page 0 size').items, (inv.page 0 size').next⟩ := by
      rw [hitems, Option.map_injective hinjective hnext]
    _ = inv.page 0 size' := rfl

/-- A cursor that is honoured with a page from the number that is followed names past the first
entry: it is a string, since the page starts where it says, and no first page is shown for it. -/
theorem namesPast_of_honours {limit : ℕ} {inv : Enumeration Json} {cursor : Json}
    {outcome : Except BrowseFailure Json} (hkeys : ∀ e ∈ inv.entries, e.1 < limit)
    (h : Honours limit inv cursor outcome) {n : ℕ} (hn : followedNumber limit cursor = some n)
    {reply : Json} (hreply : outcome = .ok reply) (hshows : ShowsFrom inv (inv.place n) reply) :
    NamesPast limit inv cursor := by
  obtain ⟨m, ⟨s, rfl, hm⟩, -⟩ := h.followed reply hreply
  have hnumber : followedNumber limit (.str s) = parseUnsigned limit (trimText s.toList) := rfl
  rw [hnumber] at hn
  obtain rfl : m = n := Option.some.inj (hm.symm.trans hn)
  refine ⟨s, rfl, fun k hk first hfirst => ?_⟩
  obtain rfl : m = k := Option.some.inj (hm.symm.trans hk)
  by_contra hbefore
  obtain ⟨rest, hentries⟩ := List.head?_eq_some_iff.mp (Option.mem_def.mp hfirst)
  have hzero : inv.place m = 0 := (inv.place_eq_zero_iff hentries m).mpr (by omega)
  have hissued : ¬ CursorIssued inv (.str s) := fun hissued =>
    hbefore (first_lt_of_issued hkeys hissued (hnumber.trans hm) hfirst)
  apply h.notFirst reply hreply hissued
  rw [showsFirst_iff (inv.place_le_length m) hshows]
  exact ⟨by rw [hentries]; exact List.cons_ne_nil _ _, hzero⟩

/-- A cursor that names past the first entry is honoured with pages from where it says. -/
theorem honours_of_namesPast {limit : ℕ} {inv : Enumeration Json} {cursor : Json}
    {outcome : Except BrowseFailure Json} (hpast : NamesPast limit inv cursor)
    (hstart : ∀ reply, outcome = .ok reply →
      ∃ n, followedNumber limit cursor = some n ∧ ShowsFrom inv (inv.place n) reply) :
    Honours limit inv cursor outcome := by
  obtain ⟨s, rfl, hpast⟩ := hpast
  refine ⟨fun reply hreply => ?_, fun reply hreply _ hfirst => ?_⟩
  · obtain ⟨n, hn, hshows⟩ := hstart reply hreply
    exact ⟨n, ⟨s, rfl, hn⟩, hshows⟩
  · obtain ⟨n, hn, hshows⟩ := hstart reply hreply
    obtain ⟨hne, hzero⟩ := (showsFirst_iff (inv.place_le_length n) hshows).mp hfirst
    obtain ⟨first, rest, hentries⟩ := List.exists_cons_of_ne_nil hne
    have hbefore := (inv.place_eq_zero_iff hentries n).mp hzero
    have hlt := hpast n hn first (by rw [hentries]; rfl)
    omega

/-- Where the command answers each number it follows from the place of the number, or fails, a
cursor is honoured exactly when it names past the first entry or is not answered. -/
theorem honours_iff {limit : ℕ} {inv : Enumeration Json} {cursor : Json}
    {outcome : Except BrowseFailure Json} {answers : ℕ → Prop}
    (hkeys : ∀ e ∈ inv.entries, e.1 < limit)
    (hanswered : ∀ n, followedNumber limit cursor = some n → answers n →
      ∃ reply, outcome = .ok reply ∧ ShowsFrom inv (inv.place n) reply)
    (hfails : ∀ reply, outcome = .ok reply →
      ∃ n, followedNumber limit cursor = some n ∧ answers n) :
    Honours limit inv cursor outcome ↔
      NamesPast limit inv cursor ∨
        ∀ n, followedNumber limit cursor = some n → ¬ answers n := by
  constructor
  · intro h
    by_contra hnot
    obtain ⟨hpast, hsome⟩ := not_or.mp hnot
    simp only [not_forall, not_not] at hsome
    obtain ⟨n, hn, hanswer⟩ := hsome
    obtain ⟨reply, hreply, hshows⟩ := hanswered n hn hanswer
    exact hpast (namesPast_of_honours hkeys h hn hreply hshows)
  · rintro (hpast | hnever)
    · apply honours_of_namesPast hpast
      intro reply hreply
      obtain ⟨n, hn, hanswer⟩ := hfails reply hreply
      obtain ⟨reply', hreply', hshows⟩ := hanswered n hn hanswer
      rw [hreply] at hreply'
      cases hreply'
      exact ⟨n, hn, hshows⟩
    · have hnone : ∀ reply, outcome ≠ .ok reply := by
        intro reply hreply
        obtain ⟨n, hn, hanswer⟩ := hfails reply hreply
        exact hnever n hn hanswer
      exact ⟨fun reply h => absurd h (hnone reply), fun reply h => absurd h (hnone reply)⟩

/-! ## The layout of a push device -/

/-- The push parser accepts the cursors that name a 64-bit number, as that number. -/
theorem parsePush_eq (cursor : Json) (start : ℕ) :
    parsePushBrowseCursor cursor.asStr = .ok start ↔
      followedNumber (2 ^ 64) cursor = some start := by
  unfold parsePushBrowseCursor followedNumber
  cases cursor.asStr with
  | none =>
    simp only [Option.elim_none, Option.some.injEq, Except.ok.injEq]
  | some s =>
    simp only [Option.elim_some]
    cases parseUnsigned (2 ^ 64) (trimText s.toList) with
    | none => simp only [reduceCtorEq]
    | some n => simp only [Option.some.injEq, Except.ok.injEq]

/-- The layout has an entry for every field. -/
theorem layoutInventory_length (cfg : DeviceConfig) :
    (layoutInventory cfg).entries.length = (pushFields layoutTag cfg).length :=
  List.length_mapIdx

/-- A field stands at its index. -/
theorem layoutInventory_place (cfg : DeviceConfig) (n : ℕ) :
    (layoutInventory cfg).place n = min n (pushFields layoutTag cfg).length := by
  by_cases hn : n < (pushFields layoutTag cfg).length
  · have hlt : n < (layoutInventory cfg).entries.length := by rwa [layoutInventory_length]
    rw [Nat.min_eq_left hn.le]
    apply (List.findIdx_eq hlt).mpr
    refine ⟨?_, fun j hj => ?_⟩
    · simp only [layoutInventory, List.getElem_mapIdx, decide_eq_true_eq, Nat.le_refl]
    · simp only [layoutInventory, List.getElem_mapIdx, decide_eq_false_iff_not, Nat.not_le]
      exact hj
  · rw [Nat.min_eq_right (Nat.le_of_not_lt hn), ← layoutInventory_length]
    apply List.findIdx_eq_length.mpr
    intro e he
    obtain ⟨i, hi, rfl⟩ := List.mem_iff_getElem.mp he
    rw [layoutInventory_length] at hi
    simp only [layoutInventory, List.getElem_mapIdx, decide_eq_false_iff_not, Nat.not_le]
    omega

/-- And these are the fields, in order. -/
theorem map_snd_layoutInventory (cfg : DeviceConfig) :
    (layoutInventory cfg).entries.map Prod.snd = pushFields layoutTag cfg := by
  apply List.ext_getElem
  · rw [List.length_map, layoutInventory_length]
  · intro i _ _
    simp only [layoutInventory, List.getElem_map, List.getElem_mapIdx]

/-- The fields of a page of the layout. -/
theorem layoutPage_items (cfg : DeviceConfig) (start size : ℕ) :
    ((layoutInventory cfg).page (min start (pushFields layoutTag cfg).length) size).items =
      ((pushFields layoutTag cfg).drop start).take size := by
  simp only [Enumeration.page, List.map_take, List.map_drop, map_snd_layoutInventory]
  by_cases hin : start ≤ (pushFields layoutTag cfg).length
  · rw [Nat.min_eq_left hin]
  · rw [Nat.min_eq_right (by omega), List.drop_of_length_le (Nat.le_refl _),
      List.drop_of_length_le (by omega)]

/-- A page of the layout that leaves fields over resumes behind its last one. -/
theorem layoutPage_next (cfg : DeviceConfig) (start : ℕ) {size : ℕ} (hpos : 0 < size) :
    ((layoutInventory cfg).page (min start (pushFields layoutTag cfg).length) size).next =
      if start + size < (pushFields layoutTag cfg).length then some (start + size) else none := by
  have hlength := layoutInventory_length cfg
  by_cases hleft : start + size < (pushFields layoutTag cfg).length
  · have hroom : start + size < (layoutInventory cfg).entries.length := by omega
    have hindex : ((layoutInventory cfg).entries[start + size - 1]).1 = start + size - 1 := by
      simp only [layoutInventory, List.getElem_mapIdx]
    rw [Nat.min_eq_left (by omega), if_pos hleft]
    simp only [Enumeration.page]
    rw [if_pos hroom, (layoutInventory cfg).getLast?_page hpos hroom, Option.map_some, hindex]
    congr 1
    omega
  · simp only [Enumeration.page, hlength]
    rw [if_neg (by omega), if_neg hleft]

/-- A page of the layout starts at the index that was read. -/
theorem browsePushLayout_shows {cfg : DeviceConfig}
    (hfits : (pushFields layoutTag cfg).length < 2 ^ 64) {cursor : Option String} {start : ℕ}
    (hstart : parsePushBrowseCursor cursor = .ok start) (maxTags : ℕ) :
    ∃ reply, browsePushLayout cfg cursor maxTags = .ok reply ∧
      ShowsFrom (layoutInventory cfg) ((layoutInventory cfg).place start) reply := by
  have hpos : 0 < max maxTags 1 := by omega
  have hitems := layoutPage_items cfg start (max maxTags 1)
  have hnext := layoutPage_next cfg start hpos
  rw [layoutInventory_place]
  generalize hfields : pushFields layoutTag cfg = all at hfits hitems hnext ⊢
  generalize hsize : max maxTags 1 = size at hpos hitems hnext
  have htaken : ((all.drop start).take size).length = min size (all.length - start) := by
    rw [List.length_take, List.length_drop]
  -- the resume index saturates at the end of `usize`, which no layout reaches
  generalize hstop : min (start + ((all.drop start).take size).length) (2 ^ 64 - 1) = stop
  have hresume : (if start + size < all.length then some (start + size) else none) =
      if stop < all.length then some stop else none := by
    by_cases hleft : start + size < all.length
    · have hsame : stop = start + size := by omega
      rw [hsame]
    · rw [if_neg hleft, if_neg (by omega)]
  refine ⟨.obj ([("id", .str cfg.id), ("tags", .arr ((all.drop start).take size))] ++
    (if stop < all.length then [("cursor", Json.str (toString stop))] else [])), ?_, size, hpos, ?_⟩
  · simp only [browsePushLayout, hstart, hfields, hsize, hstop, bind, Except.bind, pure,
      Except.pure]
  · rw [hitems, hnext, hresume]
    by_cases hleft : stop < all.length
    · rw [if_pos hleft, if_pos hleft]
      rfl
    · rw [if_neg hleft, if_neg hleft]
      rfl

/-! ## The tags of a poll device -/

/-- The poll parser accepts the cursors that name a 32-bit number, as that number. -/
theorem parseBrowse_eq (cursor : Json) (start : UInt32) :
    parseBrowseCursor cursor.asStr = .ok start ↔
      followedNumber (2 ^ 32) cursor = some start.toNat := by
  unfold parseBrowseCursor followedNumber
  cases cursor.asStr with
  | none =>
    simp only [Option.elim_none, Option.some.injEq, Except.ok.injEq]
    exact ⟨fun h => h ▸ rfl, fun h => UInt32.toNat_inj.mp h⟩
  | some s =>
    simp only [Option.elim_some]
    cases hread : parseUnsigned (2 ^ 32) (trimText s.toList) with
    | none => simp only [reduceCtorEq]
    | some n =>
      have hn : (UInt32.ofNat n).toNat = n := UInt32.toNat_ofNat_of_lt' (parseUnsigned_lt hread)
      simp only [Option.some.injEq, Except.ok.injEq]
      rw [← UInt32.toNat_inj, hn]

/-- The first symbol at or past an instance starts the entries from the instance on. -/
theorem tagInventory_drop (cfg : DeviceConfig) (table : SymbolTable) (start : UInt32) :
    (tagInventory cfg table).entries.drop ((tagInventory cfg table).place start.toNat) =
      (table.startingAt start).map fun s => (s.instanceId.toNat, tagJson cfg s.browsed) := by
  rw [Enumeration.drop_place, tagInventory, List.filter_map]
  congr 1

/-- The JSON of a page is read back as the page. -/
theorem replyPage_browsePageJson (cfg : DeviceConfig) (page : BrowsePage) :
    replyPage (browsePageJson cfg page) = ⟨page.tags.map (tagJson cfg), page.nextCursor⟩ := by
  obtain ⟨tags, next⟩ := page
  cases next <;> rfl

/-- An answered request gives a page from the instance on that was followed. -/
theorem browse_shows (cfg : DeviceConfig) {table : SymbolTable} {peer : Peer} {elapsed : ℕ → Bool}
    {session : EipSession} {slot : Option UInt8}
    (hroute : session.client.route = slot.map RoutePath.backplaneSlot) {n : ℕ}
    {cursor : Option String} {start : UInt32} (hlate : elapsed n = false)
    (hanswer : AnswersFrom table start (peer n (listTagsRequest start .controller)))
    (hstart : parseBrowseCursor cursor = .ok start) (maxTags : ℕ) :
    ∃ page, session.browse peer elapsed n cursor maxTags = .ok page ∧
      ShowsFrom (tagInventory cfg table) ((tagInventory cfg table).place start.toNat)
        (browsePageJson cfg page) := by
  obtain ⟨k, hpos, hok⟩ := browse_answered hroute hlate hanswer hstart maxTags
  have hdrop := tagInventory_drop cfg table start
  have hle := (tagInventory cfg table).place_le_length start.toNat
  have hlength := congrArg List.length hdrop
  rw [List.length_drop, List.length_map] at hlength
  refine ⟨_, hok, ?_⟩
  rw [ShowsFrom, replyPage_browsePageJson]
  simp only [Enumeration.page, hdrop]
  by_cases hnone : table.startingAt start = []
  · rw [hnone, List.length_nil] at hlength ⊢
    refine ⟨1, Nat.one_pos, ?_⟩
    rw [if_neg (by omega), if_neg (by omega), List.take_nil]
    rfl
  · refine ⟨k, hpos hnone, ?_⟩
    rw [← List.map_take, List.map_map, List.map_map]
    congr 1
    by_cases hleft : k < (table.startingAt start).length
    · rw [if_pos hleft, if_pos (by omega)]
      have hfront : (table.startingAt start).take k ≠ [] := by
        have hsome := hpos hnone
        apply List.ne_nil_of_length_pos
        rw [List.length_take]
        omega
      have hbehind : (table.startingAt start).drop k ≠ [] := by
        apply List.ne_nil_of_length_pos
        rw [List.length_drop]
        omega
      obtain ⟨last, hlast⟩ := List.getLast?_isSome.mpr hfront |> Option.isSome_iff_exists.mp
      obtain ⟨resume, hresume, -, -⟩ :=
        resume_of_front (List.take_append_drop k (table.startingAt start)).symm hbehind hlast
      rw [List.getLast?_map, hlast]
      simp only [Option.bind_some, Option.map_some, hresume, checkedSucc_eq_some.mp hresume]
    · rw [if_neg hleft, if_neg (by omega)]
      rfl

/-- A page of the session was served from the instance that its cursor names. -/
theorem pageServed_of_browse {session : EipSession} {peer : Peer} {elapsed : ℕ → Bool}
    {cursor : Option String} {maxTags : ℕ} {page : BrowsePage}
    (h : session.browse peer elapsed 0 cursor maxTags = .ok page) :
    ∃ start, parseBrowseCursor cursor = .ok start ∧
      PageServed session.client peer elapsed start := by
  cases hstart : parseBrowseCursor cursor with
  | error e =>
    simp only [EipSession.browse, hstart, bind, Except.bind, reduceCtorEq] at h
  | ok start =>
    obtain ⟨hlate, reply, records, hsend, hguards, -⟩ := (browse_eq_ok hstart).mp h
    refine ⟨start, rfl, hlate, (records, deviceNext reply records), ?_⟩
    rw [listTags, hsend]
    exact tagListPage_eq_ok.mpr ⟨hguards, rfl⟩

/-! ## The command -/

section Command

variable {cfg : DeviceConfig} {body cursor : Json}
  {task : ℕ → Option String → ℕ → ChannelAnswer (Except BrowseError BrowsePage)}

/-- A paged request has no reference. -/
theorem ref_of_paged (hpaged : hasAny body ["ref", "depth", "maxRefs"] = false) :
    (body.get "ref").isSome = false := by
  by_contra hsome
  rw [Bool.not_eq_false] at hsome
  have hany : hasAny body ["ref", "depth", "maxRefs"] = true :=
    List.any_eq_true.mpr ⟨"ref", List.mem_cons_self, hsome⟩
  rw [hpaged] at hany
  cases hany

/-- A paged request of a push device. -/
theorem browseReply_push (hpaged : hasAny body ["ref", "depth", "maxRefs"] = false)
    (hcursor : body.get "cursor" = some cursor) (hmode : cfg.mode = .push) :
    (browseReply cfg body task).1 =
      (browsePushLayout cfg cursor.asStr (clampedMember body "max" 200 1 1000)).mapError
        .refused := by
  simp only [browseReply, hpaged, Bool.false_eq_true, false_and, if_false, ref_of_paged hpaged,
    hcursor, Option.bind_some, hmode]

/-- A paged request of a poll device. -/
theorem browseReply_poll (hpaged : hasAny body ["ref", "depth", "maxRefs"] = false)
    (hcursor : body.get "cursor" = some cursor) (hmode : cfg.mode = .poll) :
    (browseReply cfg body task).1 =
      (browseAnswer (task 0 cursor.asStr (clampedMember body "max" 200 1 1000))).map
        (browsePageJson cfg) := by
  simp only [browseReply, hpaged, Bool.false_eq_true, false_and, if_false, ref_of_paged hpaged,
    hcursor, Option.bind_some, hmode]
  cases task 0 cursor.asStr (clampedMember body "max" 200 1 1000) <;> rfl

/-- A poll device answers with a page of its task, or with a failure. -/
theorem browseAnswer_eq_ok {answer : ChannelAnswer (Except BrowseError BrowsePage)}
    {page : BrowsePage} : browseAnswer answer = .ok page ↔ answer = .answered (.ok page) := by
  constructor
  · intro h
    cases answer with
    | answered outcome =>
      cases outcome with
      | ok page' =>
        cases h
        rfl
      | error e => cases e <;> cases h
    | _ => cases h
  · rintro rfl
    rfl

/-- A poll browse succeeds with the page of the session. -/
theorem pollBrowse_eq_ok (describe : DeviceError → String)
    {outcome : Except DeviceError BrowsePage} {page : BrowsePage} :
    pollBrowse describe outcome = .ok page ↔ outcome = .ok page := by
  constructor
  · intro h
    cases outcome with
    | ok page' =>
      cases h
      rfl
    | error e => cases e <;> cases h
  · rintro rfl
    rfl

/-- On a push device a cursor is honoured exactly when it is a string that names nothing at or
before the first field. -/
theorem push_cursor_iff (hpaged : hasAny body ["ref", "depth", "maxRefs"] = false)
    (hcursor : body.get "cursor" = some cursor) (hmode : cfg.mode = .push)
    (hfits : (pushFields layoutTag cfg).length < 2 ^ 64) :
    Honours (2 ^ 64) (layoutInventory cfg) cursor (browseReply cfg body task).1 ↔
      NamesPast (2 ^ 64) (layoutInventory cfg) cursor := by
  have hkeys : ∀ e ∈ (layoutInventory cfg).entries, e.1 < 2 ^ 64 := by
    intro e he
    obtain ⟨i, hi, rfl⟩ := List.mem_iff_getElem.mp he
    rw [layoutInventory_length] at hi
    simp only [layoutInventory, List.getElem_mapIdx]
    omega
  rw [browseReply_push hpaged hcursor hmode]
  have hiff : Honours (2 ^ 64) (layoutInventory cfg) cursor ((browsePushLayout cfg cursor.asStr
      (clampedMember body "max" 200 1 1000)).mapError .refused) ↔
        NamesPast (2 ^ 64) (layoutInventory cfg) cursor ∨
          ∀ n, followedNumber (2 ^ 64) cursor = some n → ¬ True := by
    apply honours_iff hkeys
    · intro n hn _
      obtain ⟨reply, hreply, hshows⟩ :=
        browsePushLayout_shows hfits ((parsePush_eq cursor n).mpr hn)
          (clampedMember body "max" 200 1 1000)
      exact ⟨reply, by rw [hreply]; rfl, hshows⟩
    · intro reply hreply
      cases hstart : parsePushBrowseCursor cursor.asStr with
      | error e =>
        simp only [browsePushLayout, hstart, bind, Except.bind, Except.mapError,
          reduceCtorEq] at hreply
      | ok n => exact ⟨n, (parsePush_eq cursor n).mp hstart, trivial⟩
  rw [hiff]
  refine ⟨fun h => h.elim id fun hnever => ?_, .inl⟩
  -- a string that is not followed names nothing, and anything else is followed
  cases cursor with
  | str s => exact ⟨s, rfl, fun n hn => absurd trivial (hnever n hn)⟩
  | _ => exact absurd trivial (hnever 0 rfl)

/-- On a poll device a cursor is honoured exactly when it is a string that names nothing at or
before the first instance, or no page is served from the instance that is followed. -/
theorem poll_cursor_iff (hpaged : hasAny body ["ref", "depth", "maxRefs"] = false)
    (hcursor : body.get "cursor" = some cursor) (hmode : cfg.mode = .poll) {table : SymbolTable}
    {describe : DeviceError → String} {session : EipSession} {peer : Peer} {elapsed : ℕ → Bool}
    {slot : Option UInt8} (hroute : session.client.route = slot.map RoutePath.backplaneSlot)
    (hserves : ServesOrRefuses table session.client peer)
    (htask : ∀ given maxTags,
      task 0 given maxTags = browsingTask describe session peer elapsed 0 given maxTags) :
    Honours (2 ^ 32) (tagInventory cfg table) cursor (browseReply cfg body task).1 ↔
      NamesPast (2 ^ 32) (tagInventory cfg table) cursor ∨
        ∀ start, parseBrowseCursor cursor.asStr = .ok start →
          ¬ PageServed session.client peer elapsed start := by
  have hkeys : ∀ e ∈ (tagInventory cfg table).entries, e.1 < 2 ^ 32 := by
    intro e he
    obtain ⟨s, -, rfl⟩ := List.mem_map.mp he
    exact s.instanceId.toNat_lt
  have hanswer : ∀ page, browseAnswer (task 0 cursor.asStr
      (clampedMember body "max" 200 1 1000)) = .ok page ↔
        session.browse peer elapsed 0 cursor.asStr (clampedMember body "max" 200 1 1000) =
          .ok page := by
    intro page
    rw [browseAnswer_eq_ok, htask, browsingTask, ← pollBrowse_eq_ok describe]
    exact ⟨ChannelAnswer.answered.inj, congrArg ChannelAnswer.answered⟩
  rw [browseReply_poll hpaged hcursor hmode]
  generalize browseAnswer (task 0 cursor.asStr (clampedMember body "max" 200 1 1000)) = answer
    at hanswer
  have hiff : Honours (2 ^ 32) (tagInventory cfg table) cursor
      (answer.map (browsePageJson cfg)) ↔ NamesPast (2 ^ 32) (tagInventory cfg table) cursor ∨
        ∀ n, followedNumber (2 ^ 32) cursor = some n → ¬ ∃ start : UInt32, start.toNat = n ∧
          PageServed session.client peer elapsed start := by
    apply honours_iff hkeys
    · rintro n hn ⟨start, rfl, hlate, page, hpage⟩
      obtain ⟨shown, hshown, hshows⟩ := browse_shows cfg hroute hlate
        (hserves start page hpage) ((parseBrowse_eq cursor start).mpr hn)
        (clampedMember body "max" 200 1 1000)
      rw [(hanswer shown).mpr hshown]
      exact ⟨_, rfl, hshows⟩
    · intro reply hreply
      cases hpage : answer with
      | error e =>
        rw [hpage] at hreply
        cases hreply
      | ok page =>
        obtain ⟨start, hstart, hserved⟩ := pageServed_of_browse ((hanswer page).mp hpage)
        exact ⟨start.toNat, (parseBrowse_eq cursor start).mp hstart, start, rfl, hserved⟩
  rw [hiff]
  apply or_congr_right
  constructor
  · intro h start hstart hserved
    exact h start.toNat ((parseBrowse_eq cursor start).mp hstart) ⟨start, rfl, hserved⟩
  · rintro h n hn ⟨start, rfl, hserved⟩
    exact h start ((parseBrowse_eq cursor start).mpr hn) hserved

end Command

/-! ## Every cursor -/

/-- A cursor that is given to a paged browse is followed or refused exactly when it is a string
and any number it names is past the first entry, on poll also when the device serves no page from
the instance that is followed; a command whose task gives no page fails. What is no string is
followed as no cursor is. -/
theorem cursor_honoured_iff (cfg : DeviceConfig) (body cursor : Json)
    (task : ℕ → Option String → ℕ → ChannelAnswer (Except BrowseError BrowsePage))
    (hpaged : hasAny body ["ref", "depth", "maxRefs"] = false)
    (hcursor : body.get "cursor" = some cursor) :
    (cfg.mode = .push → (pushFields layoutTag cfg).length < 2 ^ 64 →
      (Honours (2 ^ 64) (layoutInventory cfg) cursor (browseReply cfg body task).1 ↔
        NamesPast (2 ^ 64) (layoutInventory cfg) cursor)) ∧
      (cfg.mode = .poll → ∀ (table : SymbolTable) (describe : DeviceError → String)
        (session : EipSession) (peer : Peer) (elapsed : ℕ → Bool) (slot : Option UInt8),
        session.client.route = slot.map RoutePath.backplaneSlot →
        ServesOrRefuses table session.client peer →
        (∀ given maxTags,
          task 0 given maxTags = browsingTask describe session peer elapsed 0 given maxTags) →
        (Honours (2 ^ 32) (tagInventory cfg table) cursor (browseReply cfg body task).1 ↔
          NamesPast (2 ^ 32) (tagInventory cfg table) cursor ∨
            ∀ start, parseBrowseCursor cursor.asStr = .ok start →
              ¬ PageServed session.client peer elapsed start)) ∧
      (cfg.mode = .poll → (∀ given maxTags page, task 0 given maxTags ≠ .answered (.ok page)) →
        ∀ limit inv, Honours limit inv cursor (browseReply cfg body task).1) := by
  refine ⟨push_cursor_iff hpaged hcursor, ?_, ?_⟩
  · intro hmode table describe session peer elapsed slot hroute hserves htask
    exact poll_cursor_iff hpaged hcursor hmode hroute hserves htask
  · intro hmode hnone limit inv
    have hfails : ∀ reply, (browseReply cfg body task).1 ≠ .ok reply := by
      intro reply hreply
      rw [browseReply_poll hpaged hcursor hmode] at hreply
      cases hanswer : browseAnswer
          (task 0 cursor.asStr (clampedMember body "max" 200 1 1000)) with
      | error e =>
        rw [hanswer] at hreply
        cases hreply
      | ok page => exact hnone _ _ page (browseAnswer_eq_ok.mp hanswer)
    exact ⟨fun reply h => absurd h (hfails reply), fun reply h => absurd h (hfails reply)⟩

/-- A body with a cursor. -/
def cursorBody (cursor : Json) : Json := .obj [("cursor", cursor)]

/-- A number is answered with the first page of the layout. -/
theorem number_cursor_restarts :
    (∃ reply, (browseReply browsedPush (cursorBody (.num (.posInt 5))) fun _ _ _ => .closed).1 =
        .ok reply ∧ ShowsFirst (layoutInventory browsedPush) reply) ∧
      ¬ Honours (2 ^ 64) (layoutInventory browsedPush) (.num (.posInt 5))
        (browseReply browsedPush (cursorBody (.num (.posInt 5))) fun _ _ _ => .closed).1 := by
  have hfits : (pushFields layoutTag browsedPush).length < 2 ^ 64 := by decide
  obtain ⟨reply, hreply, hshows⟩ := browsePushLayout_shows hfits
    (show parsePushBrowseCursor (Json.num (.posInt 5)).asStr = .ok 0 from rfl) 200
  have houtcome : (browseReply browsedPush (cursorBody (.num (.posInt 5)))
      fun _ _ _ => .closed).1 = .ok reply := by
    rw [browseReply_push rfl rfl rfl,
      show clampedMember (cursorBody (.num (.posInt 5))) "max" 200 1 1000 = 200 by decide, hreply]
    rfl
  refine ⟨⟨reply, houtcome, List.cons_ne_nil _ _, hshows⟩, fun h => ?_⟩
  obtain ⟨n, ⟨s, hs, -⟩, -⟩ := h.followed reply houtcome
  cases hs

/-- The index of the second field is followed to it. -/
theorem second_field_is_followed :
    Honours (2 ^ 64) (layoutInventory browsedPush) (.str "1")
      (browseReply browsedPush (cursorBody (.str "1")) fun _ _ _ => .closed).1 := by
  apply ((cursor_honoured_iff browsedPush (cursorBody (.str "1")) (.str "1") (fun _ _ _ => .closed)
    rfl rfl).1 rfl (by decide)).mpr
  refine ⟨"1", rfl, fun n hn first hfirst => ?_⟩
  have hone : parseUnsigned (2 ^ 64) (trimText "1".toList) = some 1 := by decide +kernel
  have hzero : first.1 = 0 := by
    cases hfirst
    rfl
  rw [hone] at hn
  cases hn
  omega

end EnipAdapter.Analysis
