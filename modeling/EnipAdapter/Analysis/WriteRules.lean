import EnipAdapter.Analysis.WriteBatch

/-!
# The rules of the write command

A refused batch writes nothing unless a malformed entry stands behind an entry that was
sent; only allow-listed signals are ever written; every attempt is audited unless the device
task drops an acknowledgement.
-/

set_option autoImplicit false

namespace EnipAdapter.Analysis

open EnipAdapter.Foundation EnipAdapter.Model EnipAdapter.Interface

/-! ## From the command to its loop -/

/-- The metric is not a message. -/
@[simp] theorem sentMessages_writeTally (effects : List WriteEffect) (entries : List Json)
    (result : Except CommandError (Json × CommandTally)) :
    sentMessages (effects ++ [writeTally entries result]) = sentMessages effects := by
  rcases result with e | ⟨v, tally⟩ <;> simp [sentMessages, writeTally]

/-- The metric is not an audit event. -/
@[simp] theorem auditsOf_writeTally (i : ℕ) (effects : List WriteEffect) (entries : List Json)
    (result : Except CommandError (Json × CommandTally)) :
    auditsOf i (effects ++ [writeTally entries result]) = auditsOf i effects := by
  rcases result with e | ⟨v, tally⟩ <;> simp [auditsOf, writeTally]

section Command

variable {render : Json → String} {registry : List DeviceHandle} {addressed : Option String}
  {body : Json} {cfg : DeviceConfig} {entries : List Json} {loop : WriteLoop}

/-- A dispatched command is its loop, with the metric at the end. -/
theorem write_dispatched (hd : Dispatched render registry addressed body cfg entries loop)
    (answer : ℕ → DeviceAnswer) :
    write render registry addressed body answer =
      ((writeAll cfg loop answer entries).1.map Prod.fst,
        (writeAll cfg loop answer entries).2 ++
          [writeTally entries (writeAll cfg loop answer entries).1]) := by
  obtain ⟨hrouted, hparsed, hselected⟩ := hd
  unfold loopOf at hselected
  unfold write
  rw [hrouted]
  simp only [hparsed]
  cases hmode : cfg.mode with
  | poll =>
    rw [hmode] at hselected
    cases hselected
    rfl
  | push =>
    rw [hmode] at hselected
    cases hio : cfg.io with
    | none => simp [hio] at hselected
    | some io =>
      simp only [hio, Option.map_some, Option.some.injEq] at hselected
      subst hselected
      simp only [writePush, hio]

/-- Routing never answers with the all-refused error. -/
theorem resolve_code {e : CommandError} (h : resolve registry addressed = .error e) :
    e.code ≠ .writeNotAllowed := by
  unfold resolve at h
  split at h
  · split at h
    · cases h
    · cases h
      simp
  · split at h
    · cases h
    · cases h
      simp
    · cases h
      simp

/-- A command that does not get to its loop sends nothing and accounts for no entry. -/
theorem write_undispatched
    (h : ∀ cfg entries loop, ¬Dispatched render registry addressed body cfg entries loop)
    (answer : ℕ → DeviceAnswer) :
    sentMessages (write render registry addressed body answer).2 = [] ∧
      accountsForAll (write render registry addressed body answer).1 = false := by
  cases hrouted : resolve registry addressed with
  | error e =>
    have hcode := resolve_code hrouted
    have heq : write render registry addressed body answer = (.error e, []) := by
      simp [write, hrouted]
    rw [heq]
    exact ⟨rfl, by simpa [accountsForAll] using hcode⟩
  | ok handle =>
    cases hparsed : writeEntries body with
    | error e =>
      have hcode : e.code = .badArgs := by
        unfold writeEntries at hparsed
        split at hparsed
        · cases hparsed
        · split at hparsed
          · cases hparsed
          · cases hparsed
            rfl
      have heq : write render registry addressed body answer = (.error e, []) := by
        simp [write, hrouted, hparsed]
      rw [heq]
      exact ⟨rfl, by simp [accountsForAll, hcode]⟩
    | ok entries =>
      -- the one loop that can be missing is that of a push device without its block
      cases hselected : loopOf render handle.cfg with
      | some loop => exact absurd ⟨hrouted, hparsed, hselected⟩ (h handle.cfg entries loop)
      | none =>
        unfold loopOf at hselected
        cases hmode : handle.cfg.mode with
        | poll => simp [hmode] at hselected
        | push =>
          have hio : handle.cfg.io = none := by simpa [hmode] using hselected
          have hpush : writePush handle.cfg answer entries =
              (.error ⟨.badArgs, "push device missing io block"⟩, []) := by
            simp [writePush, hio]
          have heq : write render registry addressed body answer =
              (.error ⟨.badArgs, "push device missing io block"⟩,
                [] ++ [writeTally entries
                  (.error ⟨.badArgs, "push device missing io block"⟩)]) := by
            simp [write, hrouted, hparsed, hmode, hpush, Except.map]
          rw [heq, sentMessages_writeTally]
          exact ⟨rfl, rfl⟩

/-- The messages of a dispatched command are those of its loop. -/
theorem sentMessages_write (hd : Dispatched render registry addressed body cfg entries loop)
    (answer : ℕ → DeviceAnswer) :
    sentMessages (write render registry addressed body answer).2 =
      sentMessages (writeAll cfg loop answer entries).2 := by
  rw [write_dispatched hd, sentMessages_writeTally]

/-- The audit events of a dispatched command are those of its loop. -/
theorem auditsOf_write (hd : Dispatched render registry addressed body cfg entries loop)
    (answer : ℕ → DeviceAnswer) (i : ℕ) :
    auditsOf i (write render registry addressed body answer).2 =
      auditsOf i (writeAll cfg loop answer entries).2 := by
  rw [write_dispatched hd, auditsOf_writeTally]

end Command

/-! ## A refused batch -/

section Refused

variable {render : Json → String} {registry : List DeviceHandle} {addressed : Option String}
  {body : Json} {answer : ℕ → DeviceAnswer} {cfg : DeviceConfig} {entries : List Json}
  {loop : WriteLoop}

/-- A malformed entry that the command gets to ends it, and the answer is a refusal. -/
theorem refused_of_malformed (hd : Dispatched render registry addressed body cfg entries loop)
    {j : ℕ} {second : Json} (hsecond : entries[j]? = some second)
    (hmal : malformed loop second = true) (hreached : Reached cfg loop answer entries j) :
    refusal (write render registry addressed body answer).1 = true := by
  have hstopped := (handled cfg loop answer second j).stops_iff.mpr (.inl hmal)
  obtain ⟨e, he⟩ := Option.isSome_iff_exists.mp hstopped
  have hcode := (handled cfg loop answer second j).code he
  rw [hmal, if_pos rfl] at hcode
  have hend := (writeAll_stop cfg loop answer).mpr ⟨j, second, hsecond, he, hreached⟩
  rw [write_dispatched hd]
  obtain ⟨e', he', hreply⟩ | ⟨hnone, -⟩ := writeAll_cases cfg loop answer entries
  · rw [hend] at he'
    cases he'
    simp [hreply, refusal, Except.map, hcode]
  · rw [hend] at hnone
    cases hnone

/-- A refused batch was ended by a malformed entry, or nothing of it was sent. -/
theorem malformed_of_refused (hd : Dispatched render registry addressed body cfg entries loop)
    (hrefused : refusal (write render registry addressed body answer).1 = true) :
    sentMessages (writeAll cfg loop answer entries).2 = [] ∨
      ∃ j second, entries[j]? = some second ∧ malformed loop second = true ∧
        Reached cfg loop answer entries j := by
  rw [write_dispatched hd] at hrefused
  obtain ⟨e, hend, hreply⟩ | ⟨-, ⟨message, hreply, hnone⟩ | ⟨reply, tally, items, hreply, -⟩⟩ :=
    writeAll_cases cfg loop answer entries
  · obtain ⟨j, second, hsecond, hstop, hreached⟩ := (writeAll_stop cfg loop answer).mp hend
    have hcode := (handled cfg loop answer second j).code hstop
    have hmal : malformed loop second = true := by
      by_contra hmal
      rw [if_neg hmal] at hcode
      simp [hreply, refusal, Except.map, hcode] at hrefused
    exact .inr ⟨j, second, hsecond, hmal, hreached⟩
  · exact .inl hnone
  · simp [hreply, refusal, Except.map] at hrefused

end Refused

/-- A refused batch wrote nothing exactly when no malformed entry that the command got to
stands behind an entry that is sent. -/
theorem refused_batch_writes_nothing_iff (render : Json → String) (registry : List DeviceHandle)
    (addressed : Option String) (body : Json) (answer : ℕ → DeviceAnswer) :
    RefusedWritesNothing (write render registry addressed body answer) ↔
      ∀ (cfg : DeviceConfig) (entries : List Json) (loop : WriteLoop),
        Dispatched render registry addressed body cfg entries loop →
        ∀ (i j : ℕ) (first second : Json), i < j → entries[i]? = some first →
          entries[j]? = some second → malformed loop second = true →
          Reached cfg loop answer entries j → sendable cfg loop first = false := by
  constructor
  · intro hrule cfg entries loop hd i j first second hij hfirst hsecond hmal hreached
    have hnothing := hrule (refused_of_malformed hd hsecond hmal hreached)
    rw [sentMessages_write hd] at hnothing
    have hreachedi : Reached cfg loop answer entries i :=
      fun k entry hk => hreached k entry (hk.trans hij)
    obtain ⟨m, hm, -, -⟩ | ⟨-, hclosed⟩ := (handled cfg loop answer first i).sent
    · have hmem := (mem_sentMessages cfg loop answer).mpr
        ⟨first, hfirst, hreachedi, hm ▸ List.mem_singleton.mpr rfl⟩
      rw [hnothing] at hmem
      cases hmem
    · by_contra hsend
      rw [Bool.not_eq_false] at hsend
      refine hreached i first hij hfirst (.inr ⟨hsend, fun result => ?_⟩)
      simp [hclosed hsend]
  · intro hcond hrefused
    by_cases hdisp : ∃ cfg entries loop, Dispatched render registry addressed body cfg entries loop
    · obtain ⟨cfg, entries, loop, hd⟩ := hdisp
      rw [sentMessages_write hd]
      obtain hnone | ⟨j, second, hsecond, hmal, hreached⟩ := malformed_of_refused hd hrefused
      · exact hnone
      · rw [List.eq_nil_iff_forall_not_mem]
        rintro ⟨i, message⟩ hmem
        obtain ⟨first, hfirst, hreachedi, hm⟩ := (mem_sentMessages cfg loop answer).mp hmem
        obtain ⟨-, hrequest, -⟩ := (handled cfg loop answer first i).of_sent hm
        obtain ⟨hsend, hwell⟩ := sendable_of_request hrequest
        -- the entry lies before the malformed one: at it nothing is sent, past it nothing runs
        have hij : i < j := by
          rcases Nat.lt_trichotomy i j with hlt | heq | hgt
          · exact hlt
          · subst heq
            rw [hfirst] at hsecond
            cases hsecond
            rw [hwell] at hmal
            cases hmal
          · exact absurd (.inl hmal) (hreachedi j second hgt hsecond)
        have hnot := hcond cfg entries loop hd i j first second hij hfirst hsecond hmal hreached
        rw [hsend] at hnot
        cases hnot
    · have hnone : ∀ cfg entries loop,
          ¬Dispatched render registry addressed body cfg entries loop :=
        fun cfg entries loop hd => hdisp ⟨cfg, entries, loop, hd⟩
      exact (write_undispatched hnone answer).1

/-- A poll device with one writable tag. -/
def samplePoll : DeviceConfig where
  id := "press-1"
  mode := .poll
  connection := { endpoint := "10.0.0.5", slot := none, connected := false }
  pollGroups := [
    { id := some "group-1"
      signals := [
        { name := "speed", tagPath := "Speed", eipType := .dint, arrayCount := none,
          scale := none, offset := none, deadband := {} }] }]
  io := none
  writes := ⟨["Speed"]⟩

/-- A batch whose second entry asks for zero elements. -/
def halfMalformed : Json :=
  .obj [("writes", .arr [
    .obj [("name", .str "speed"), ("value", Json.ofNat 1)],
    .obj [("tagPath", .str "Speed"), ("type", .str "dint"), ("arrayCount", Json.ofNat 0),
      ("value", Json.ofNat 2)]])]

/-- On an accepted configuration the batch is refused with `BAD_ARGS` after its first entry was
written. -/
theorem refused_batch_wrote :
    samplePoll.validate = .ok samplePoll ∧
      ¬RefusedWritesNothing
        (write (fun _ => "0") [⟨samplePoll⟩] none halfMalformed fun _ => .acked (.ok ())) := by
  refine ⟨by decide +kernel, ?_⟩
  intro h
  have hsent := h (by decide +kernel)
  have hlength := congrArg List.length hsent
  revert hlength
  decide +kernel

/-! ## Allow-listing -/

section Allow

variable {render : Json → String} {cfg : DeviceConfig} {loop : WriteLoop} {entry : Json}

/-- A friendly or explicit push reference resolves to a declared output field under that
field's own id. -/
theorem resolvePushWriteRef_ok {io : IoConfig} {r : Json} {id : String} {field : IoFieldSpec}
    (h : resolvePushWriteRef io r = .ok (id, field)) :
    field ∈ io.outputSignals ∧ id = field.signalId io.assemblies.output := by
  unfold resolvePushWriteRef at h
  simp only at h
  split at h
  · split at h
    · rename_i f hf
      cases h
      exact ⟨List.mem_of_find?_eq_some hf, rfl⟩
    · split at h <;> cases h
  · split at h
    · split at h
      · cases h
      · split at h
        · rename_i f hf
          cases h
          exact ⟨List.mem_of_find?_eq_some hf, rfl⟩
        · cases h
    · cases h

/-- In an accepted configuration no field is declared in both directions. -/
theorem outputField_not_input {io : IoConfig} (haccepted : AcceptedIo io) {field : IoFieldSpec}
    (hout : field ∈ io.outputSignals) : field ∉ io.input.signals := by
  intro hin
  have hnames := haccepted.names
  rw [List.map_append, List.nodup_append] at hnames
  exact hnames.2.2 _ (List.mem_map_of_mem hin) _ (List.mem_map_of_mem hout) rfl

/-- What an entry sends is what it asks for, and is allow-listed. -/
theorem authorised_of_request (hloop : loopOf render cfg = some loop) {message : DeviceControl}
    (h : Request cfg loop entry message) : Authorised render cfg entry message := by
  obtain ⟨id, request, value, hr, hp, hv, rfl⟩ := h
  have hallow := Writes.permits_iff.mp hp
  unfold loopOf at hloop
  cases hmode : cfg.mode with
  | poll =>
    rw [hmode] at hloop
    cases hloop
    simp only [pollLoop] at hr
    split at hr
    · rename_i spec hspec
      cases hr
      exact ⟨hmode, hspec, hallow, hv⟩
    · cases hr
    · cases hr
  | push =>
    rw [hmode] at hloop
    cases hio : cfg.io with
    | none => simp [hio] at hloop
    | some io =>
      simp only [hio, Option.map_some, Option.some.injEq] at hloop
      subst hloop
      simp only [pushLoop] at hr
      split at hr
      · rename_i id' field hfield
        cases hr
        obtain ⟨hmem, rfl⟩ := resolvePushWriteRef_ok hfield
        refine ⟨hmode, io, hio, hfield, hmem, fun cfg' hvalid => ?_, hallow, hv⟩
        obtain ⟨-, io', hblock, haccepted⟩ := acceptedPush_of_validate hvalid hmode
        rw [hio] at hblock
        cases hblock
        exact outputField_not_input haccepted hmem
      · cases hr

end Allow

/-- Only allow-listed signals are written, each with its entry's own value, at most one
message an entry and in entry order; a success reports every entry. -/
theorem only_allow_listed_written (render : Json → String) (registry : List DeviceHandle)
    (addressed : Option String) (body : Json) (answer : ℕ → DeviceAnswer) :
    WriteDiscipline render registry addressed body
      (write render registry addressed body answer) := by
  by_cases hdisp : ∃ cfg entries loop, Dispatched render registry addressed body cfg entries loop
  · obtain ⟨cfg, entries, loop, hd⟩ := hdisp
    refine ⟨?_, ?_, ?_⟩
    · intro i message hmem
      rw [sentMessages_write hd] at hmem
      obtain ⟨entry, hentry, -, hm⟩ := (mem_sentMessages cfg loop answer).mp hmem
      obtain ⟨-, hrequest, -⟩ := (handled cfg loop answer entry i).of_sent hm
      exact ⟨cfg, entries, loop, entry, hd, hentry, authorised_of_request hd.selected hrequest⟩
    · rw [sentMessages_write hd]
      exact sentMessages_ordered cfg loop answer entries
    · intro reply hreply
      rw [write_dispatched hd] at hreply
      obtain ⟨e, -, herr⟩ | ⟨-, ⟨message, herr, -⟩ | ⟨v, tally, items, hok, hitems, hall, hcount⟩⟩ :=
        writeAll_cases cfg loop answer entries
      · simp [herr, Except.map] at hreply
      · simp [herr, Except.map] at hreply
      · simp only [hok, Except.map, Except.ok.injEq] at hreply
        subst hreply
        exact ⟨cfg, entries, loop, items, hd, hitems, hall, hcount⟩
  · have hnone : ∀ cfg entries loop,
        ¬Dispatched render registry addressed body cfg entries loop :=
      fun cfg entries loop hd => hdisp ⟨cfg, entries, loop, hd⟩
    obtain ⟨hsent, haccount⟩ := write_undispatched hnone answer
    refine ⟨?_, ?_, ?_⟩
    · intro i message hmem
      rw [hsent] at hmem
      cases hmem
    · rw [hsent]
      exact List.Pairwise.nil
    · intro reply hreply
      simp [hreply, accountsForAll] at haccount

/-! ## Auditing -/

section Audit

variable {render : Json → String} {registry : List DeviceHandle} {addressed : Option String}
  {body : Json} {cfg : DeviceConfig} {entries : List Json} {loop : WriteLoop}
  {answer : ℕ → DeviceAnswer}

/-- An entry that was sent and whose acknowledgement was not dropped does not end the
command. -/
theorem stopAt_of_sent {i : ℕ} {entry : Json} {message : DeviceControl}
    (hm : (i, message) ∈ sentMessages (contribution cfg loop answer (entry, i)).effects)
    (hkept : answer i ≠ .dropped) : stopAt cfg loop answer (entry, i) = none := by
  obtain ⟨-, hrequest, hopen⟩ := (handled cfg loop answer entry i).of_sent hm
  rw [stopAt_eq_none_iff]
  rintro (hmal | ⟨-, hnack⟩)
  · rw [(sendable_of_request hrequest).2] at hmal
    cases hmal
  · cases ha : answer i with
    | closed => exact hopen ha
    | dropped => exact hkept ha
    | acked result => exact hnack result ha

/-- A message that was handed over is audited under its entry's label, once, if no entry that
the command sends has its acknowledgement dropped. -/
theorem handed_audited (hd : Dispatched render registry addressed body cfg entries loop)
    (hkept : ∀ (i : ℕ) (entry : Json), entries[i]? = some entry →
      sendable cfg loop entry = true → Reached cfg loop answer entries i → answer i ≠ .dropped)
    {i : ℕ} {message : DeviceControl}
    (hmem : (i, message) ∈ sentMessages (write render registry addressed body answer).2) :
    ∃ (entry : Json) (record : AuditRecord), entries[i]? = some entry ∧
      auditsOf i (write render registry addressed body answer).2 = [record] ∧
      record.signalId = entryLabel loop entry := by
  rw [sentMessages_write hd] at hmem
  obtain ⟨entry, hentry, hreached, hm⟩ := (mem_sentMessages cfg loop answer).mp hmem
  have hcase := handled cfg loop answer entry i
  obtain ⟨-, hrequest, -⟩ := hcase.of_sent hm
  have hsend := (sendable_of_request hrequest).1
  rw [stopAt_of_sent hm (hkept i entry hentry hsend hreached)] at hcase
  obtain ⟨record, hrecord, hsignal, -⟩ := hcase.audits
  refine ⟨entry, record, hentry, ?_, hsignal⟩
  rw [auditsOf_write hd, auditsOf_writeAll cfg loop answer hentry hreached, hrecord]

/-- A reply that accounts for every entry comes from a loop that ran to its end. -/
theorem no_stop_of_accounts (hd : Dispatched render registry addressed body cfg entries loop)
    (haccount : accountsForAll (write render registry addressed body answer).1 = true) :
    entries.zipIdx.findSome? (stopAt cfg loop answer) = none := by
  obtain ⟨e, hend, hreply⟩ | ⟨hnone, -⟩ := writeAll_cases cfg loop answer entries
  · obtain ⟨j, second, -, hstop, -⟩ := (writeAll_stop cfg loop answer).mp hend
    have hcode := (handled cfg loop answer second j).code hstop
    rw [write_dispatched hd] at haccount
    simp only [hreply, Except.map, accountsForAll, beq_iff_eq, hcode] at haccount
    split at haccount <;> cases haccount
  · exact hnone

/-- In such a reply, an entry without a message is audited once, with `ok` false. -/
theorem others_audited (hd : Dispatched render registry addressed body cfg entries loop)
    (haccount : accountsForAll (write render registry addressed body answer).1 = true) {i : ℕ}
    (hi : i < entries.length) (hnot : ∀ message : DeviceControl,
      (i, message) ∉ sentMessages (write render registry addressed body answer).2) :
    ∃ record : AuditRecord,
      auditsOf i (write render registry addressed body answer).2 = [record] ∧
      record.ok = false := by
  have hreached := reached_of_no_stop cfg loop answer (no_stop_of_accounts hd haccount)
  obtain ⟨entry, hentry⟩ : ∃ entry, entries[i]? = some entry :=
    ⟨entries[i], List.getElem?_eq_getElem hi⟩
  have hcase := handled cfg loop answer entry i
  have hstop : stopAt cfg loop answer (entry, i) = none := by
    rw [stopAt_eq_none_iff]
    exact hreached (i + 1) i entry (Nat.lt_succ_self i) hentry
  rw [hstop] at hcase
  obtain ⟨record, hrecord, -, hfalse⟩ := hcase.audits
  refine ⟨record, ?_, hfalse ?_⟩
  · rw [auditsOf_write hd, auditsOf_writeAll cfg loop answer hentry (hreached i), hrecord]
  · rw [List.eq_nil_iff_forall_not_mem]
    rintro ⟨k, message⟩ hm
    obtain ⟨rfl, -, -⟩ := hcase.of_sent hm
    refine hnot message ?_
    rw [sentMessages_write hd, mem_sentMessages]
    exact ⟨entry, hentry, hreached k, hm⟩

end Audit

/-- Every attempt is audited exactly when no entry that is sent, and that the command gets to,
has its acknowledgement dropped. -/
theorem every_attempt_audited_iff (render : Json → String) (registry : List DeviceHandle)
    (addressed : Option String) (body : Json) (answer : ℕ → DeviceAnswer) :
    EveryAttemptAudited render registry addressed body
        (write render registry addressed body answer) ↔
      ∀ (cfg : DeviceConfig) (entries : List Json) (loop : WriteLoop),
        Dispatched render registry addressed body cfg entries loop →
        ∀ (i : ℕ) (entry : Json), entries[i]? = some entry → sendable cfg loop entry = true →
          Reached cfg loop answer entries i → answer i ≠ .dropped := by
  constructor
  · intro haudited cfg entries loop hd i entry hentry hsend hreached hdropped
    -- a dropped acknowledgement leaves the hand-off without an audit event
    have hstop : stops cfg loop answer entry i := .inr ⟨hsend, fun result => by simp [hdropped]⟩
    have hcase := handled cfg loop answer entry i
    have hnoaudit := hcase.audits_of_stop (hcase.stops_iff.mpr hstop)
    obtain ⟨m, hsent, -, -⟩ | ⟨-, hclosed⟩ := hcase.sent
    · have hmem := (mem_sentMessages cfg loop answer).mpr
        ⟨entry, hentry, hreached, hsent ▸ List.mem_singleton.mpr rfl⟩
      rw [← sentMessages_write hd] at hmem
      obtain ⟨-, -, -, -, record, -, -, hrecord, -⟩ := haudited.handed i m hmem
      rw [auditsOf_write hd, auditsOf_writeAll cfg loop answer hentry hreached, hnoaudit] at hrecord
      cases hrecord
    · have hgone := hclosed hsend
      rw [hdropped] at hgone
      cases hgone
  · intro hcond
    by_cases hdisp : ∃ cfg entries loop, Dispatched render registry addressed body cfg entries loop
    · obtain ⟨cfg, entries, loop, hd⟩ := hdisp
      constructor
      · intro i message hmem
        obtain ⟨entry, record, hentry, hrecord, hsignal⟩ :=
          handed_audited hd (hcond cfg entries loop hd) hmem
        exact ⟨cfg, entries, loop, entry, record, hd, hentry, hrecord, hsignal⟩
      · intro haccount
        exact ⟨cfg, entries, loop, hd, fun i hi hnot => others_audited hd haccount hi hnot⟩
    · have hnone : ∀ cfg entries loop,
          ¬Dispatched render registry addressed body cfg entries loop :=
        fun cfg entries loop hd => hdisp ⟨cfg, entries, loop, hd⟩
      obtain ⟨hsent, haccount⟩ := write_undispatched hnone answer
      constructor
      · intro i message hmem
        rw [hsent] at hmem
        cases hmem
      · intro h
        rw [haccount] at h
        cases h

def singleWrite : Json := .obj [("name", .str "speed"), ("value", Json.ofNat 1)]

/-- A write that the device task took and then dropped, on a reconnect, leaves no audit
event. -/
theorem dropped_ack_not_audited :
    samplePoll.validate = .ok samplePoll ∧
      ¬EveryAttemptAudited (fun _ => "0") [⟨samplePoll⟩] none singleWrite
        (write (fun _ => "0") [⟨samplePoll⟩] none singleWrite fun _ => .dropped) := by
  refine ⟨by decide +kernel, fun h => ?_⟩
  have hmem : ∃ message, (0, message) ∈ sentMessages
      (write (fun _ => "0") [⟨samplePoll⟩] none singleWrite fun _ => .dropped).2 :=
    ⟨_, List.mem_singleton.mpr rfl⟩
  obtain ⟨message, hmem⟩ := hmem
  obtain ⟨-, -, -, -, record, -, -, hrecord, -⟩ := h.handed 0 message hmem
  have hnone : auditsOf 0
      (write (fun _ => "0") [⟨samplePoll⟩] none singleWrite fun _ => .dropped).2 = [] := rfl
  rw [hnone] at hrecord
  cases hrecord

end EnipAdapter.Analysis
