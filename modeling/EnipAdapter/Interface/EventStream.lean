import EnipAdapter.Model.IoManager

/-!
# The life of one class-1 connection, as its consumer sees it

A connection is absent, registered and silent, or registered and up. The moves between the
three are all a consumer can observe, and the event list of any life that registers at most
once is `Up Data Data*` or nothing, then at most one `Lost`.
-/

set_option autoImplicit false

namespace EnipAdapter.Interface

open EnipAdapter.Model

/-- Where a connection stands: `none` is not registered, `some up` is registered. -/
abbrev Phase := Option Bool

/-- A stream that is up: the `Up`, one sample, and any number of further samples. -/
def Streaming (events : List IoEvent) : Prop :=
  ∃ (o2t t2o : Duration) (first : IoUpdate) (rest : List IoUpdate),
    events = .up o2t t2o :: .data first :: rest.map IoEvent.data

/-- The grammar of an event stream: nothing or a streaming part, then at most one `Lost`. -/
def EventGrammar (events : List IoEvent) : Prop :=
  ∃ body tail, events = body ++ tail ∧ (body = [] ∨ Streaming body) ∧
    (tail = [] ∨ ∃ reason, tail = [.lost reason])

/-- One move of a registered or absent connection, with the events it sends. -/
inductive Move : Phase → List IoEvent → Phase → Prop
  | stay (p : Phase) : Move p [] p
  | start (o2t t2o : Duration) (u : IoUpdate) :
      Move (some false) [.up o2t t2o, .data u] (some true)
  | sample (u : IoUpdate) : Move (some true) [.data u] (some true)
  | lose (up : Bool) (reason : LostReason) : Move (some up) [.lost reason] none
  | drop (p : Phase) : Move p [] none

/-- What the events sent so far look like in each phase. -/
def PhaseHistory : Phase → List IoEvent → Prop
  | none, events => EventGrammar events
  | some false, events => events = []
  | some true, events => Streaming events

/-- A streaming part takes one more sample. -/
theorem Streaming.snoc {events : List IoEvent} (h : Streaming events) (u : IoUpdate) :
    Streaming (events ++ [.data u]) := by
  obtain ⟨o2t, t2o, first, rest, rfl⟩ := h
  exact ⟨o2t, t2o, first, rest ++ [u], by simp⟩

/-- Every history is in the grammar, whatever the phase. -/
theorem PhaseHistory.grammar {p : Phase} {events : List IoEvent} (h : PhaseHistory p events) :
    EventGrammar events := by
  rcases p with _ | up
  · exact h
  · cases up with
    | false => exact ⟨[], [], h, Or.inl rfl, Or.inl rfl⟩
    | true => exact ⟨events, [], by simp, Or.inr h, Or.inl rfl⟩

/-- A registered connection's history becomes a finished one by a `Lost`. -/
theorem PhaseHistory.lost {up : Bool} {events : List IoEvent}
    (h : PhaseHistory (some up) events) (reason : LostReason) :
    EventGrammar (events ++ [.lost reason]) := by
  cases up with
  | false => exact ⟨[], [.lost reason], by rw [show events = [] from h], Or.inl rfl,
      Or.inr ⟨reason, rfl⟩⟩
  | true => exact ⟨events, [.lost reason], rfl, Or.inr h, Or.inr ⟨reason, rfl⟩⟩

/-- A move of the stream takes a history to a history. -/
theorem PhaseHistory.move {p p' : Phase} {events sent : List IoEvent}
    (h : PhaseHistory p events) (hm : Move p sent p') : PhaseHistory p' (events ++ sent) := by
  cases hm with
  | stay => rwa [List.append_nil]
  | start o2t t2o u =>
      rw [show events = [] from h]
      exact ⟨o2t, t2o, u, [], rfl⟩
  | sample u => exact Streaming.snoc h u
  | lose up reason => exact PhaseHistory.lost h reason
  | drop =>
      rw [List.append_nil]
      exact h.grammar

/-- An absent connection sends nothing and stays absent. -/
theorem Move.of_absent {sent : List IoEvent} {p : Phase} (h : Move none sent p) :
    sent = [] ∧ p = none := by
  cases h <;> exact ⟨rfl, rfl⟩

/-! ## The streams of a run -/

/-- Both maps of the task have the same keys. -/
def KeysAgree (m : Manager) : Prop := ∀ id, id ∈ m.registry.conns ↔ id ∈ m.events

/-- The events of a list of effects that went to one connection. -/
def sentTo (id : UInt32) (effects : List ManagerEffect) : List IoEvent :=
  effects.filterMap fun
    | .event i _ ev => if i = id then some ev else none
    | _ => none

/-- The id an input asks to register, if it does. -/
def addedId : ManagerInput → Option UInt32
  | .command (.add params _ _ _) _ => some params.t2oConnectionId
  | _ => none

/-! ## What the grammar rules out -/

def isLost : IoEvent → Bool
  | .lost _ => true
  | _ => false

/-- A streaming part has one `Up` and no `Lost`. -/
theorem Streaming.counts {events : List IoEvent} (h : Streaming events) :
    events.countP IoEvent.isUp = 1 ∧ events.countP isLost = 0 := by
  obtain ⟨o2t, t2o, first, rest, rfl⟩ := h
  have hup : (rest.map IoEvent.data).countP IoEvent.isUp = 0 := by
    rw [List.countP_eq_zero]
    intro ev hev
    obtain ⟨u, -, rfl⟩ := List.mem_map.mp hev
    simp [IoEvent.isUp]
  have hlost : (rest.map IoEvent.data).countP isLost = 0 := by
    rw [List.countP_eq_zero]
    intro ev hev
    obtain ⟨u, -, rfl⟩ := List.mem_map.mp hev
    simp [isLost]
  constructor
  · simp [List.countP_cons, IoEvent.isUp, hup]
  · simp [isLost, hlost]

/-- No stream has two `Up` or two `Lost`. -/
theorem EventGrammar.counts {events : List IoEvent} (h : EventGrammar events) :
    events.countP IoEvent.isUp ≤ 1 ∧ events.countP isLost ≤ 1 := by
  obtain ⟨body, tail, rfl, hbody, htail⟩ := h
  have hb : body.countP IoEvent.isUp ≤ 1 ∧ body.countP isLost = 0 := by
    rcases hbody with rfl | hbody
    · simp
    · rw [hbody.counts.1, hbody.counts.2]
      exact ⟨le_rfl, rfl⟩
  have ht : tail.countP IoEvent.isUp = 0 ∧ tail.countP isLost ≤ 1 := by
    rcases htail with rfl | ⟨reason, rfl⟩
    · simp
    · simp [List.countP_cons, IoEvent.isUp, isLost]
  rw [List.countP_append, List.countP_append]
  omega

/-- Whatever precedes a sample holds the `Up`. -/
theorem EventGrammar.up_of_data {pre post : List IoEvent} {u : IoUpdate}
    (h : EventGrammar (pre ++ .data u :: post)) : ∃ ev ∈ pre, IoEvent.isUp ev = true := by
  obtain ⟨body, tail, heq, hbody, htail⟩ := h
  rcases hbody with rfl | ⟨o2t, t2o, first, rest, rfl⟩
  · have hmem : IoEvent.data u ∈ tail := by
      rw [List.nil_append] at heq
      rw [← heq]
      simp
    rcases htail with rfl | ⟨reason, rfl⟩
    · cases hmem
    · simp at hmem
  · cases pre with
    | nil => simp at heq
    | cons ev pre =>
        simp only [List.cons_append, List.cons.injEq] at heq
        exact ⟨ev, List.mem_cons_self, by rw [heq.1]; rfl⟩

end EnipAdapter.Interface
