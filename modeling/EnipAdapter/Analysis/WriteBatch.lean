import EnipAdapter.Interface.WriteContract

/-!
# The write loop

One iteration of the loop does one of eight things (`Handled`), and what it does depends on
the entry and the device's answer alone. The loop is therefore the concatenation of what its
visited entries do, and an entry is visited exactly when no entry before it stopped the
command. The three rules of the contract follow from that.
-/

set_option autoImplicit false

namespace EnipAdapter.Analysis

open EnipAdapter.Foundation EnipAdapter.Model EnipAdapter.Interface

/-! ## One entry -/

def joined (a b : WriteBatch) : WriteBatch where
  results := a.results ++ b.results
  written := a.written + b.written
  refused := a.refused + b.refused
  failures := a.failures + b.failures
  effects := a.effects ++ b.effects

section Entry

variable (cfg : DeviceConfig) (loop : WriteLoop) (answer : ℕ → DeviceAnswer)

def contribution (p : Json × ℕ) : WriteBatch := (writeEntry cfg loop answer {} p).1

/-- Whether and how one entry ends the command. -/
def stopAt (p : Json × ℕ) : Option CommandError := (writeEntry cfg loop answer {} p).2

/-- An entry's contribution does not depend on what came before it. -/
theorem writeEntry_eq (acc : WriteBatch) (p : Json × ℕ) :
    writeEntry cfg loop answer acc p =
      (joined acc (contribution cfg loop answer p), stopAt cfg loop answer p) := by
  unfold contribution stopAt writeEntry
  obtain ⟨entry, i⟩ := p
  cases hr : loop.resolve entry with
  | unresolved label error => simp [hr, joined, WriteBatch.fail]
  | malformed message => simp [hr, joined]
  | target id request =>
    by_cases hp : cfg.writes.permits id = false
    · simp [hr, hp, joined, WriteBatch.fail]
    · cases hv : entry.get "value" with
      | none => simp [hr, hp, hv, joined, WriteBatch.fail]
      | some value =>
        rcases ha : answer i with _ | ⟨_ | _⟩ | _ <;>
          simp [hr, hp, hv, ha, joined, WriteBatch.fail, WriteBatch.send, WriteBatch.succeed]

/-- The message of an entry that is sent. -/
def Request (entry : Json) (message : DeviceControl) : Prop :=
  ∃ (id : String) (request : Json → DeviceControl) (value : Json),
    loop.resolve entry = .target id request ∧ cfg.writes.permits id = true ∧
      entry.get "value" = some value ∧ message = request value

/-- What an iteration can do with an entry: its contribution, and the error it stops with. -/
inductive Handled (entry : Json) (i : ℕ) : WriteBatch → Option CommandError → Prop
  | refused {id : String} {request : Json → DeviceControl}
      (hr : loop.resolve entry = .target id request) (hp : cfg.writes.permits id = false) :
      Handled entry i
        { WriteBatch.fail {} cfg i id (entry.get "value") none "not in writes.allow" with
          refused := 1 } none
  | missing {id : String} {request : Json → DeviceControl}
      (hr : loop.resolve entry = .target id request) (hp : cfg.writes.permits id = true)
      (hv : entry.get "value" = none) :
      Handled entry i (WriteBatch.fail {} cfg i id none none "missing value") none
  | closed {id : String} {request : Json → DeviceControl} {value : Json}
      (hr : loop.resolve entry = .target id request) (hp : cfg.writes.permits id = true)
      (hv : entry.get "value" = some value) (ha : answer i = .closed) :
      Handled entry i {} (some deviceUnavailable)
  | written {id : String} {request : Json → DeviceControl} {value : Json}
      (hr : loop.resolve entry = .target id request) (hp : cfg.writes.permits id = true)
      (hv : entry.get "value" = some value) (ha : answer i = .acked (.ok ())) :
      Handled entry i
        ((WriteBatch.send {} i (request value)).succeed cfg i id value loop.applied) none
  | failed {id : String} {request : Json → DeviceControl} {value : Json} {error : String}
      (hr : loop.resolve entry = .target id request) (hp : cfg.writes.permits id = true)
      (hv : entry.get "value" = some value) (ha : answer i = .acked (.error error)) :
      Handled entry i
        ((WriteBatch.send {} i (request value)).fail cfg i id (some value) (some value) error)
        none
  | dropped {id : String} {request : Json → DeviceControl} {value : Json}
      (hr : loop.resolve entry = .target id request) (hp : cfg.writes.permits id = true)
      (hv : entry.get "value" = some value) (ha : answer i = .dropped) :
      Handled entry i (WriteBatch.send {} i (request value)) (some deviceUnavailable)
  | unresolved {label error : String} (hr : loop.resolve entry = .unresolved label error) :
      Handled entry i (WriteBatch.fail {} cfg i label (entry.get "value") none error) none
  | malformed {message : String} (hr : loop.resolve entry = .malformed message) :
      Handled entry i {} (some ⟨.badArgs, message⟩)

/-- Every iteration is one of those. -/
theorem handled (entry : Json) (i : ℕ) :
    Handled cfg loop answer entry i (contribution cfg loop answer (entry, i))
      (stopAt cfg loop answer (entry, i)) := by
  unfold contribution stopAt writeEntry
  cases hr : loop.resolve entry with
  | unresolved label error => simpa [hr] using Handled.unresolved hr
  | malformed message => simpa [hr] using Handled.malformed hr
  | target id request =>
    cases hp : cfg.writes.permits id with
    | false => simpa [hr, hp] using Handled.refused hr hp
    | true =>
      cases hv : entry.get "value" with
      | none => simpa [hr, hp, hv] using Handled.missing hr hp hv
      | some value =>
        rcases ha : answer i with _ | ⟨error | ⟨⟨⟩⟩⟩ | _
        · simpa [hr, hp, hv, ha] using Handled.closed hr hp hv ha
        · simpa [hr, hp, hv, ha] using Handled.failed hr hp hv ha
        · simpa [hr, hp, hv, ha] using Handled.written hr hp hv ha
        · simpa [hr, hp, hv, ha] using Handled.dropped hr hp hv ha

end Entry

/-- An audit event read back under its number. -/
theorem auditsOf_audited (i : ℕ) (record : AuditRecord) :
    auditsOf i [.audited i record] = [record] := by
  simp [auditsOf]

/-- A message does not hide the audit event after it. -/
theorem auditsOf_sent_audited (i : ℕ) (message : DeviceControl) (record : AuditRecord) :
    auditsOf i [.sent i message, .audited i record] = [record] := by
  simp [auditsOf]

/-- An entry that asks for a message is sendable, and not malformed. -/
theorem sendable_of_request {cfg : DeviceConfig} {loop : WriteLoop} {entry : Json}
    {message : DeviceControl} (h : Request cfg loop entry message) :
    sendable cfg loop entry = true ∧ malformed loop entry = false := by
  obtain ⟨id, request, value, hr, hp, hv, -⟩ := h
  simp [sendable, malformed, hr, hp, hv]

namespace Handled

variable {cfg : DeviceConfig} {loop : WriteLoop} {answer : ℕ → DeviceAnswer} {entry : Json}
  {i : ℕ} {c : WriteBatch} {stop : Option CommandError}

/-- An entry ends the command exactly when it is malformed or sent and not acknowledged. -/
theorem stops_iff (h : Handled cfg loop answer entry i c stop) :
    stop.isSome = true ↔ stops cfg loop answer entry i := by
  unfold stops
  cases h with
  | refused hr hp => simp [Interface.malformed, sendable, hr, hp]
  | missing hr hp hv => simp [Interface.malformed, sendable, hr, hv]
  | closed hr hp hv ha => simp [Interface.malformed, sendable, hr, hp, hv, ha]
  | written hr hp hv ha => simp [Interface.malformed, hr, ha]
  | failed hr hp hv ha => simp [Interface.malformed, hr, ha]
  | dropped hr hp hv ha => simp [Interface.malformed, sendable, hr, hp, hv, ha]
  | unresolved hr => simp [Interface.malformed, sendable, hr]
  | malformed hr => simp [Interface.malformed, hr]

/-- The error an entry stops the command with is `BAD_ARGS` when the entry is malformed and
`DEVICE_UNAVAILABLE` otherwise. -/
theorem code (h : Handled cfg loop answer entry i c stop) {e : CommandError} (he : stop = some e) :
    e.code = if Interface.malformed loop entry then .badArgs else .deviceUnavailable := by
  cases h with
  | refused hr hp => cases he
  | missing hr hp hv => cases he
  | written hr hp hv ha => cases he
  | failed hr hp hv ha => cases he
  | unresolved hr => cases he
  | closed hr hp hv ha =>
    cases he
    simp [Interface.malformed, hr, deviceUnavailable]
  | dropped hr hp hv ha =>
    cases he
    simp [Interface.malformed, hr, deviceUnavailable]
  | malformed hr =>
    cases he
    simp [Interface.malformed, hr]

/-- An entry hands over one message or none: one exactly when it is sendable and the channel
is open. -/
theorem sent (h : Handled cfg loop answer entry i c stop) :
    (∃ message, sentMessages c.effects = [(i, message)] ∧ Request cfg loop entry message ∧
        answer i ≠ .closed) ∨
      sentMessages c.effects = [] ∧ (sendable cfg loop entry = true → answer i = .closed) := by
  cases h with
  | refused hr hp =>
    exact .inr ⟨by simp [sentMessages, WriteBatch.fail], by simp [sendable, hr, hp]⟩
  | missing hr hp hv =>
    exact .inr ⟨by simp [sentMessages, WriteBatch.fail], by simp [sendable, hr, hv]⟩
  | closed hr hp hv ha => exact .inr ⟨by simp [sentMessages], fun _ => ha⟩
  | written hr hp hv ha =>
    refine .inl ⟨_, ?_, ⟨_, _, _, hr, hp, hv, rfl⟩, by simp [ha]⟩
    simp [sentMessages, WriteBatch.send, WriteBatch.succeed]
  | failed hr hp hv ha =>
    refine .inl ⟨_, ?_, ⟨_, _, _, hr, hp, hv, rfl⟩, by simp [ha]⟩
    simp [sentMessages, WriteBatch.send, WriteBatch.fail]
  | dropped hr hp hv ha =>
    refine .inl ⟨_, ?_, ⟨_, _, _, hr, hp, hv, rfl⟩, by simp [ha]⟩
    simp [sentMessages, WriteBatch.send]
  | unresolved hr =>
    exact .inr ⟨by simp [sentMessages, WriteBatch.fail], by simp [sendable, hr]⟩
  | malformed hr => exact .inr ⟨by simp [sentMessages], by simp [sendable, hr]⟩

/-- A message handed over for an entry is the one it asks for, over an open channel. -/
theorem of_sent (h : Handled cfg loop answer entry i c stop) {k : ℕ} {message : DeviceControl}
    (hm : (k, message) ∈ sentMessages c.effects) :
    k = i ∧ Request cfg loop entry message ∧ answer i ≠ .closed := by
  obtain ⟨m, hsent, hrequest, hopen⟩ | ⟨hnil, -⟩ := h.sent
  · rw [hsent, List.mem_singleton, Prod.mk.injEq] at hm
    obtain ⟨rfl, rfl⟩ := hm
    exact ⟨rfl, hrequest, hopen⟩
  · rw [hnil] at hm
    cases hm

/-- An entry is counted as refused at most once, and then nothing was sent for it. -/
theorem refused_le (h : Handled cfg loop answer entry i c stop) :
    c.refused ≤ 1 ∧ (c.refused = 1 → sentMessages c.effects = []) := by
  cases h with
  | refused hr hp => simp [sentMessages, WriteBatch.fail]
  | missing hr hp hv => simp [WriteBatch.fail]
  | closed hr hp hv ha => simp
  | written hr hp hv ha => simp [WriteBatch.send, WriteBatch.succeed]
  | failed hr hp hv ha => simp [WriteBatch.send, WriteBatch.fail]
  | dropped hr hp hv ha => simp [WriteBatch.send]
  | unresolved hr => simp [WriteBatch.fail]
  | malformed hr => simp

/-- An entry that does not stop the command has one result item, under its own label, and is
counted as written exactly when the item says so. -/
theorem item (h : Handled cfg loop answer entry i c none) :
    ∃ item, c.results = [item] ∧ item.get "signal" = some (.str (entryLabel loop entry)) ∧
      c.written = if okItem item then 1 else 0 := by
  cases h with
  | refused hr hp =>
    refine ⟨_, rfl, by simp [failedItem, Json.get, entryLabel, hr], ?_⟩
    simp [failedItem, okItem, Json.get, Json.asBool, WriteBatch.fail, List.lookup_cons]
  | missing hr hp hv =>
    refine ⟨_, rfl, by simp [failedItem, Json.get, entryLabel, hr], ?_⟩
    simp [failedItem, okItem, Json.get, Json.asBool, WriteBatch.fail, List.lookup_cons]
  | written hr hp hv ha =>
    refine ⟨_, rfl, by simp [writtenItem, Json.get, entryLabel, hr], ?_⟩
    simp [writtenItem, okItem, Json.get, Json.asBool, WriteBatch.succeed, WriteBatch.send,
      List.lookup_cons]
  | failed hr hp hv ha =>
    refine ⟨_, rfl, by simp [failedItem, Json.get, entryLabel, hr], ?_⟩
    simp [failedItem, okItem, Json.get, Json.asBool, WriteBatch.fail, WriteBatch.send,
      List.lookup_cons]
  | unresolved hr =>
    refine ⟨_, rfl, by simp [failedItem, Json.get, entryLabel, hr], ?_⟩
    simp [failedItem, okItem, Json.get, Json.asBool, WriteBatch.fail, List.lookup_cons]

/-- An entry audits under its own number only. -/
theorem audits_ne (h : Handled cfg loop answer entry i c stop) {j : ℕ} (hne : i ≠ j) :
    auditsOf j c.effects = [] := by
  cases h <;> simp [auditsOf, WriteBatch.fail, WriteBatch.send, WriteBatch.succeed, hne]

/-- An entry that does not stop the command has one audit event, which names its label and
reports failure when nothing was sent. -/
theorem audits (h : Handled cfg loop answer entry i c none) :
    ∃ record, auditsOf i c.effects = [record] ∧ record.signalId = entryLabel loop entry ∧
      (sentMessages c.effects = [] → record.ok = false) := by
  cases h with
  | refused hr hp =>
    exact ⟨_, auditsOf_audited i _, by simp [audit, entryLabel, hr], fun _ => rfl⟩
  | missing hr hp hv =>
    exact ⟨_, auditsOf_audited i _, by simp [audit, entryLabel, hr], fun _ => rfl⟩
  | written hr hp hv ha =>
    refine ⟨_, auditsOf_sent_audited i _ _, by simp [audit, entryLabel, hr], ?_⟩
    simp [sentMessages, WriteBatch.send, WriteBatch.succeed]
  | failed hr hp hv ha =>
    exact ⟨_, auditsOf_sent_audited i _ _, by simp [audit, entryLabel, hr], fun _ => rfl⟩
  | unresolved hr =>
    exact ⟨_, auditsOf_audited i _, by simp [audit, entryLabel, hr], fun _ => rfl⟩

/-- An entry that stops the command has no audit event. -/
theorem audits_of_stop (h : Handled cfg loop answer entry i c stop) (hstop : stop.isSome = true) :
    auditsOf i c.effects = [] := by
  cases h with
  | refused hr hp => cases hstop
  | missing hr hp hv => cases hstop
  | written hr hp hv ha => cases hstop
  | failed hr hp hv ha => cases hstop
  | unresolved hr => cases hstop
  | closed hr hp hv ha => simp [auditsOf]
  | dropped hr hp hv ha => simp [auditsOf, WriteBatch.send]
  | malformed hr => simp [auditsOf]

end Handled

/-! ## The whole loop -/

section Loop

variable (cfg : DeviceConfig) (loop : WriteLoop) (answer : ℕ → DeviceAnswer)

/-- The entries the loop gets to, with their numbers. -/
def visited (entries : List Json) : List (Json × ℕ) :=
  upTo (stopAt cfg loop answer) entries.zipIdx

/-- What a list of entries contributes together. -/
def gathered (ps : List (Json × ℕ)) : WriteBatch where
  results := ps.flatMap fun p => (contribution cfg loop answer p).results
  written := (ps.map fun p => (contribution cfg loop answer p).written).sum
  refused := (ps.map fun p => (contribution cfg loop answer p).refused).sum
  failures := (ps.map fun p => (contribution cfg loop answer p).failures).sum
  effects := ps.flatMap fun p => (contribution cfg loop answer p).effects

/-- What the entries contribute is gathered in their order. -/
theorem foldl_joined (ps : List (Json × ℕ)) (acc : WriteBatch) :
    ps.foldl (fun acc p => joined acc (contribution cfg loop answer p)) acc =
      joined acc (gathered cfg loop answer ps) := by
  induction ps generalizing acc with
  | nil => simp [joined, gathered]
  | cons p ps ih =>
    rw [List.foldl_cons, ih]
    simp [joined, gathered, Nat.add_assoc]

/-- The loop gathers what the visited entries contribute. -/
theorem runUntil_writeEntry (entries : List Json) :
    runUntil (writeEntry cfg loop answer) {} entries.zipIdx =
      (gathered cfg loop answer (visited cfg loop answer entries),
        entries.zipIdx.findSome? (stopAt cfg loop answer)) := by
  rw [runUntil_eq_foldl (writeEntry_eq cfg loop answer), foldl_joined]
  simp [joined, gathered, visited]

/-- An entry does not end the command exactly when its iteration returns nothing. -/
theorem stopAt_eq_none_iff {entry : Json} {i : ℕ} :
    stopAt cfg loop answer (entry, i) = none ↔ ¬stops cfg loop answer entry i := by
  rw [← (handled cfg loop answer entry i).stops_iff]
  simp

/-- An entry is at its index. -/
theorem zipIdx_getElem? {entries : List Json} {k : ℕ} {p : Json × ℕ} :
    entries.zipIdx[k]? = some p ↔ ∃ entry, entries[k]? = some entry ∧ p = (entry, k) := by
  rw [List.getElem?_zipIdx]
  cases entries[k]? with
  | none => simp
  | some entry => simp [eq_comm]

/-- An entry is visited exactly when the command gets to it. -/
theorem visited_getElem? {entries : List Json} {k : ℕ} {p : Json × ℕ} :
    (visited cfg loop answer entries)[k]? = some p ↔
      ∃ entry, entries[k]? = some entry ∧ p = (entry, k) ∧
        Reached cfg loop answer entries k := by
  unfold visited Reached
  rw [getElem?_upTo, zipIdx_getElem?]
  constructor
  · rintro ⟨⟨entry, hentry, rfl⟩, hbefore⟩
    refine ⟨entry, hentry, rfl, fun j e hj he => ?_⟩
    rw [← stopAt_eq_none_iff]
    exact hbefore j (e, j) hj (zipIdx_getElem?.mpr ⟨e, he, rfl⟩)
  · rintro ⟨entry, hentry, rfl, hreached⟩
    refine ⟨⟨entry, hentry, rfl⟩, fun j y hj hy => ?_⟩
    obtain ⟨e, he, rfl⟩ := zipIdx_getElem?.mp hy
    rw [stopAt_eq_none_iff]
    exact hreached j e hj he

/-- The effects of a loop, however it ends. -/
theorem writeAll_effects (entries : List Json) :
    (writeAll cfg loop answer entries).2 =
      (gathered cfg loop answer (visited cfg loop answer entries)).effects := by
  unfold writeAll
  rw [runUntil_writeEntry]
  simp only
  split
  · rfl
  · split <;> rfl

/-- The messages of several stretches of effects. -/
theorem sentMessages_flatMap {α : Type} (ps : List α) (g : α → List WriteEffect) :
    sentMessages (ps.flatMap g) = ps.flatMap fun p => sentMessages (g p) := by
  unfold sentMessages
  rw [List.filterMap_flatMap]

/-- A message was handed over exactly when the command got to its entry and the entry hands
it over. -/
theorem mem_sentMessages {entries : List Json} {i : ℕ} {message : DeviceControl} :
    (i, message) ∈ sentMessages (writeAll cfg loop answer entries).2 ↔
      ∃ entry, entries[i]? = some entry ∧ Reached cfg loop answer entries i ∧
        (i, message) ∈ sentMessages (contribution cfg loop answer (entry, i)).effects := by
  rw [writeAll_effects, gathered, sentMessages_flatMap, List.mem_flatMap]
  constructor
  · rintro ⟨p, hp, hm⟩
    obtain ⟨k, hk⟩ := List.mem_iff_getElem?.mp hp
    obtain ⟨entry, hentry, rfl, hreached⟩ := (visited_getElem? cfg loop answer).mp hk
    obtain ⟨rfl, -, -⟩ := (handled cfg loop answer entry k).of_sent hm
    exact ⟨entry, hentry, hreached, hm⟩
  · rintro ⟨entry, hentry, hreached, hm⟩
    have hk := (visited_getElem? cfg loop answer).mpr ⟨entry, hentry, rfl, hreached⟩
    exact ⟨(entry, i), List.mem_iff_getElem?.mpr ⟨i, hk⟩, hm⟩

/-- The audit events of an entry the command got to are the ones its iteration made. -/
theorem auditsOf_writeAll {entries : List Json} {i : ℕ} {entry : Json}
    (hentry : entries[i]? = some entry) (hreached : Reached cfg loop answer entries i) :
    auditsOf i (writeAll cfg loop answer entries).2 =
      auditsOf i (contribution cfg loop answer (entry, i)).effects := by
  have hk := (visited_getElem? cfg loop answer).mpr ⟨entry, hentry, rfl, hreached⟩
  rw [writeAll_effects, gathered]
  have hflat : auditsOf i ((visited cfg loop answer entries).flatMap
      fun p => (contribution cfg loop answer p).effects) =
      (visited cfg loop answer entries).flatMap
        fun p => auditsOf i (contribution cfg loop answer p).effects := by
    unfold auditsOf
    rw [List.filterMap_flatMap]
  rw [hflat, flatMap_eq_at (i := i)]
  · rw [hk]
    rfl
  · intro k p hp hne
    obtain ⟨e, _, rfl, _⟩ := (visited_getElem? cfg loop answer).mp hp
    exact (handled cfg loop answer e k).audits_ne hne

/-- Messages go out in entry order, at most one an entry. -/
theorem sentMessages_ordered (entries : List Json) :
    ((sentMessages (writeAll cfg loop answer entries).2).map Prod.fst).Pairwise (· < ·) := by
  rw [writeAll_effects, gathered, sentMessages_flatMap, List.map_flatMap]
  have hsub : ((visited cfg loop answer entries).flatMap fun p =>
      (sentMessages (contribution cfg loop answer p).effects).map Prod.fst).Sublist
        ((visited cfg loop answer entries).map Prod.snd) := by
    induction visited cfg loop answer entries with
    | nil => exact List.Sublist.refl []
    | cons p ps ih =>
      obtain ⟨entry, i⟩ := p
      rw [List.flatMap_cons, List.map_cons]
      obtain ⟨m, hm, -, -⟩ | ⟨hnil, -⟩ := (handled cfg loop answer entry i).sent
      · rw [hm]
        exact ih.cons_cons i
      · rw [hnil]
        exact ih.cons i
  refine List.Pairwise.sublist hsub ?_
  have hprefix : ((visited cfg loop answer entries).map Prod.snd) <+: entries.zipIdx.map Prod.snd :=
    (upTo_initial_segment _ _).map Prod.snd
  refine List.Pairwise.sublist hprefix.sublist ?_
  rw [List.zipIdx_map_snd]
  exact List.pairwise_lt_range'

/-- The command ends early exactly at the first entry that stops it. -/
theorem writeAll_stop {entries : List Json} {e : CommandError} :
    entries.zipIdx.findSome? (stopAt cfg loop answer) = some e ↔
      ∃ (j : ℕ) (entry : Json), entries[j]? = some entry ∧
        stopAt cfg loop answer (entry, j) = some e ∧ Reached cfg loop answer entries j := by
  rw [findSome?_eq_some_index]
  constructor
  · rintro ⟨j, p, hp, hstop, hbefore⟩
    obtain ⟨entry, hentry, rfl⟩ := zipIdx_getElem?.mp hp
    refine ⟨j, entry, hentry, hstop, fun k e' hk he' => ?_⟩
    rw [← stopAt_eq_none_iff]
    exact hbefore k (e', k) hk (zipIdx_getElem?.mpr ⟨e', he', rfl⟩)
  · rintro ⟨j, entry, hentry, hstop, hreached⟩
    refine ⟨j, (entry, j), zipIdx_getElem?.mpr ⟨entry, hentry, rfl⟩, hstop, fun k p hk hp => ?_⟩
    obtain ⟨e', he', rfl⟩ := zipIdx_getElem?.mp hp
    rw [stopAt_eq_none_iff]
    exact hreached k e' hk he'

/-- A loop nothing stopped got to every entry. -/
theorem reached_of_no_stop {entries : List Json}
    (h : entries.zipIdx.findSome? (stopAt cfg loop answer) = none) (i : ℕ) :
    Reached cfg loop answer entries i := by
  intro j entry _ hentry
  rw [← stopAt_eq_none_iff]
  rw [List.findSome?_eq_none_iff] at h
  exact h (entry, j) (List.mem_iff_getElem?.mpr ⟨j, zipIdx_getElem?.mpr ⟨entry, hentry, rfl⟩⟩)

/-- Counts of at most one add up to at most the number of entries, and to that number only
when all are one. -/
theorem sum_le_length {α : Type} {f : α → ℕ} {ps : List α} (hle : ∀ p ∈ ps, f p ≤ 1) :
    (ps.map f).sum ≤ ps.length ∧ ((ps.map f).sum = ps.length → ∀ p ∈ ps, f p = 1) := by
  induction ps with
  | nil => simp
  | cons a ps ih =>
    have ha : f a ≤ 1 := hle a List.mem_cons_self
    obtain ⟨hbound, hall⟩ := ih fun p hp => hle p (List.mem_cons_of_mem a hp)
    simp only [List.map_cons, List.sum_cons, List.length_cons]
    refine ⟨by omega, fun hsum p hp => ?_⟩
    rcases List.mem_cons.mp hp with rfl | hmem
    · omega
    · exact hall (by omega) p hmem

/-- A command that counted every entry as refused sent nothing. -/
theorem sentMessages_of_all_refused {entries : List Json}
    (hstop : entries.zipIdx.findSome? (stopAt cfg loop answer) = none)
    (hall : (gathered cfg loop answer (visited cfg loop answer entries)).refused =
      entries.length) :
    sentMessages (writeAll cfg loop answer entries).2 = [] := by
  have hvisited : visited cfg loop answer entries = entries.zipIdx := upTo_eq_self hstop
  rw [hvisited] at hall
  have hbound : ∀ p ∈ entries.zipIdx, (contribution cfg loop answer p).refused ≤ 1 :=
    fun p _ => (handled cfg loop answer p.1 p.2).refused_le.1
  have hone := (sum_le_length hbound).2 (by simpa [gathered] using hall)
  rw [writeAll_effects, gathered, sentMessages_flatMap, List.flatMap_eq_nil_iff, hvisited]
  intro p hp
  exact (handled cfg loop answer p.1 p.2).refused_le.2 (hone p hp)

/-- Entries that do not stop the command have one item each, in order, and the written count
is the number of items that report success. -/
theorem gathered_results (ps : List (Json × ℕ))
    (h : ∀ p ∈ ps, stopAt cfg loop answer p = none) :
    List.Forall₂ (fun p item => item.get "signal" = some (.str (entryLabel loop p.1))) ps
        (gathered cfg loop answer ps).results ∧
      (gathered cfg loop answer ps).written =
        (gathered cfg loop answer ps).results.countP okItem := by
  induction ps with
  | nil => exact ⟨List.Forall₂.nil, rfl⟩
  | cons p ps ih =>
    have hp := handled cfg loop answer p.1 p.2
    rw [h p List.mem_cons_self] at hp
    obtain ⟨item, hitem, hsignal, hwritten⟩ := hp.item
    obtain ⟨hforall, hcount⟩ := ih fun q hq => h q (List.mem_cons_of_mem p hq)
    simp only [gathered, List.flatMap_cons, List.map_cons, List.sum_cons] at hforall hcount ⊢
    rw [hitem, hwritten, hcount]
    refine ⟨List.Forall₂.cons hsignal hforall, ?_⟩
    rw [List.singleton_append, List.countP_cons]
    exact Nat.add_comm _ _

/-- How a loop can end: stopped by an entry, with every entry refused, or with an answer that
lists every entry and counts the written ones. -/
theorem writeAll_cases (entries : List Json) :
    (∃ e, entries.zipIdx.findSome? (stopAt cfg loop answer) = some e ∧
        (writeAll cfg loop answer entries).1 = .error e) ∨
      entries.zipIdx.findSome? (stopAt cfg loop answer) = none ∧
        ((∃ message, (writeAll cfg loop answer entries).1 = .error ⟨.writeNotAllowed, message⟩ ∧
            sentMessages (writeAll cfg loop answer entries).2 = []) ∨
          ∃ reply tally items, (writeAll cfg loop answer entries).1 = .ok (reply, tally) ∧
            reply.get "results" = some (.arr items) ∧
            List.Forall₂
              (fun entry item => item.get "signal" = some (.str (entryLabel loop entry)))
              entries items ∧
            reply.get "written" = some (Json.ofNat (items.countP okItem))) := by
  have heq : writeAll cfg loop answer entries = writeAll cfg loop answer entries := rfl
  conv at heq => rhs; rw [writeAll, runUntil_writeEntry]
  cases hstop : entries.zipIdx.findSome? (stopAt cfg loop answer) with
  | some e =>
    rw [hstop] at heq
    exact .inl ⟨e, rfl, by rw [heq]⟩
  | none =>
    rw [hstop] at heq
    simp only at heq
    refine .inr ⟨rfl, ?_⟩
    split at heq
    · rename_i hall
      exact .inl ⟨_, by rw [heq], sentMessages_of_all_refused cfg loop answer hstop hall.2⟩
    · have hvisited : visited cfg loop answer entries = entries.zipIdx := upTo_eq_self hstop
      obtain ⟨hforall, hcount⟩ := gathered_results cfg loop answer entries.zipIdx
        (List.findSome?_eq_none_iff.mp hstop)
      rw [hvisited] at heq
      refine .inr ⟨_, _, _, by rw [heq], rfl, ?_, ?_⟩
      · have hentries := List.zipIdx_map_fst 0 entries
        nth_rewrite 1 [← hentries]
        exact List.forall₂_map_left_iff.mpr hforall
      · rw [← hcount]
        rfl

end Loop

end EnipAdapter.Analysis
