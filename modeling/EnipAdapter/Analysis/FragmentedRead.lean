import EnipAdapter.Analysis.TagRead
import EnipAdapter.Interface.TransferContract

/-!
# The fragmented read, turn by turn

A turn that goes round again has moved the accumulator, under the cap, by what it moved the
offset. So the loop ends, asks for what it does not have yet, and, from a target that serves a
value, ends with the whole of it.
-/

set_option autoImplicit false

namespace EnipAdapter.Analysis

open EnipAdapter.Foundation EnipAdapter.Model EnipAdapter.Interface

/-! ## One turn -/

/-- An offset that advances has counted the bytes. -/
theorem advanceOffset_eq_some {offset next : UInt32} {len : ℕ}
    (h : advanceOffset offset len = some next) : next.toNat = offset.toNat + len := by
  unfold advanceOffset at h
  split at h
  · rename_i hfits
    cases h
    rw [UInt32.toNat_add, UInt32.toNat_ofNat_of_lt' hfits.1]
    exact Nat.mod_eq_of_lt hfits.2
  · cases h

/-- It fails to only past 32 bits. -/
theorem advanceOffset_eq_none {offset : UInt32} {len : ℕ}
    (h : advanceOffset offset len = none) : 2 ^ 32 ≤ offset.toNat + len := by
  unfold advanceOffset at h
  split at h
  · cases h
  · rename_i hlong
    by_contra hshort
    exact hlong ⟨by omega, by omega⟩

/-- Below 32 bits it advances. -/
theorem advanceOffset_of_lt {offset : UInt32} {len : ℕ} (h : offset.toNat + len < 2 ^ 32) :
    advanceOffset offset len = some (offset + UInt32.ofNat len) :=
  if_pos ⟨by omega, h⟩

/-- The invariant of the loop: the offset counts the bytes accumulated, which the cap allows. -/
structure Aligned (cap : ℕ) (st : FragmentLocals) : Prop where
  offset_eq : st.offset.toNat = st.acc.length
  acc_le : st.acc.length ≤ cap

/-- What the outcome of a turn makes of the transfer. -/
def turnStep (next : FragmentLocals) : Except EnipError Bool → Except EnipError FragmentStep
  | .error e => .error e
  | .ok true => .ok (.more next.reassembly)
  | .ok false => next.finish.map .done

/-- What a turn promises about the locals it leaves. -/
structure TurnSpec (cap : ℕ) (st next : FragmentLocals) (outcome : Except EnipError Bool) :
    Prop where
  acc_le : next.acc.length ≤ cap
  again : outcome = .ok true → Aligned cap next ∧ st.acc.length < next.acc.length

/-- A turn that ends the loop without taking anything in. -/
theorem turnSpec_refused {cap : ℕ} {st : FragmentLocals} (hst : Aligned cap st) (e : EnipError) :
    TurnSpec cap st st (.error e) where
  acc_le := hst.acc_le
  again := by
    intro h
    cases h

/-- Taking a fragment in leaves the accumulator under the cap, and where the loop goes round
again it has moved the accumulator and the offset alike. -/
theorem takeFragment_spec {cap : ℕ} {st : FragmentLocals} (hst : Aligned cap st) (more : Bool)
    (code : UInt16) (handle : Option UInt16) (bytes : Bytes) :
    TurnSpec cap st (takeFragment cap st more code handle bytes).1
      (takeFragment cap st more code handle bytes).2 := by
  have hoffset := hst.offset_eq
  unfold takeFragment
  by_cases hlong : cap < st.acc.length + bytes.length
  · rw [if_pos hlong]
    exact turnSpec_refused hst _
  · rw [if_neg hlong]
    have hacc : (st.acc ++ bytes).length ≤ cap := by
      rw [List.length_append]
      omega
    cases hadvance : advanceOffset st.offset bytes.length with
    | none => exact ⟨hacc, fun h => by cases h⟩
    | some offset =>
        have hmoved := advanceOffset_eq_some hadvance
        have hnext : offset.toNat = (st.acc ++ bytes).length := by
          rw [List.length_append]
          omega
        cases more with
        | false => exact ⟨hacc, fun h => by cases h⟩
        | true =>
            simp only [Bool.true_eq_false, if_false]
            by_cases hbytes : bytes = []
            · rw [if_pos hbytes]
              exact ⟨hacc, fun h => by cases h⟩
            · rw [if_neg hbytes]
              have hpos := List.length_pos_of_ne_nil hbytes
              refine ⟨hacc, fun _ => ⟨⟨hnext, hacc⟩, ?_⟩⟩
              show st.acc.length < (st.acc ++ bytes).length
              rw [List.length_append]
              omega

/-- Each turn keeps the offset on the bytes accumulated. -/
theorem fragmentTurn_spec {cap : ℕ} {st : FragmentLocals} (hst : Aligned cap st)
    (reply : MessageReply) :
    TurnSpec cap st (fragmentTurn cap st reply).1 (fragmentTurn cap st reply).2 := by
  unfold fragmentTurn
  cases reply.expectService serviceReadTagFragmented with
  | error e => exact turnSpec_refused hst e
  | ok u =>
      by_cases hrefused : reply.status.isOk = false ∧ reply.status.hasMore = false
      · simp only [if_pos hrefused]
        exact turnSpec_refused hst _
      · simp only [if_neg hrefused]
        cases fragmentHeader st.reassembly reply.data with
        | error e => exact turnSpec_refused hst e
        | ok header => exact takeFragment_spec hst _ _ _ _

/-! ## The loop -/

section Loop

variable {client : EipClient} {tag : TagAddress} {elements : UInt16} {peer : Peer} {fuel n : ℕ}
  {st next : FragmentLocals} {reply : MessageReply}

/-- A request that comes back with an error ends the loop. -/
theorem fragmentLoop_unsent {e : EnipError}
    (hsend : client.sendCip peer n (readTagFragmentedRequest tag elements st.offset) = .error e) :
    fragmentLoop client tag elements peer (fuel + 1) n st =
      some ([⟨readTagFragmentedRequest tag elements st.offset, st, st⟩], .error e) := by
  simp only [fragmentLoop, hsend]

variable (hsend : client.sendCip peer n (readTagFragmentedRequest tag elements st.offset) =
  .ok reply)
include hsend

/-- A turn that fails ends the loop with its error. -/
theorem fragmentLoop_refused {e : EnipError}
    (hturn : fragmentTurn client.maxValueBytes st reply = (next, .error e)) :
    fragmentLoop client tag elements peer (fuel + 1) n st =
      some ([⟨readTagFragmentedRequest tag elements st.offset, st, next⟩], .error e) := by
  simp only [fragmentLoop, hsend, hturn]

/-- A turn that asks for no more ends the loop with what was accumulated. -/
theorem fragmentLoop_last
    (hturn : fragmentTurn client.maxValueBytes st reply = (next, .ok false)) :
    fragmentLoop client tag elements peer (fuel + 1) n st =
      some ([⟨readTagFragmentedRequest tag elements st.offset, st, next⟩], next.finish) := by
  simp only [fragmentLoop, hsend, hturn]

/-- A turn that asks for more leaves the result to the later ones. -/
theorem fragmentLoop_again {turns : List FragmentTurn} {result : Except EnipError TagReadResult}
    (hturn : fragmentTurn client.maxValueBytes st reply = (next, .ok true))
    (hlater : fragmentLoop client tag elements peer fuel (n + 1) next = some (turns, result)) :
    fragmentLoop client tag elements peer (fuel + 1) n st =
      some (⟨readTagFragmentedRequest tag elements st.offset, st, next⟩ :: turns, result) := by
  simp only [fragmentLoop, hsend, hturn, hlater, Option.map_some]

end Loop

/-- Enough turns to end with are more than none. -/
theorem fuel_succ {a fuel : ℕ} (h : a < fuel) : ∃ fewer, fuel = fewer + 1 ∧ a ≤ fewer :=
  ⟨fuel - 1, by omega, by omega⟩

/-- The loop ends from some locals on, within a number of turns. -/
def EndsWithin (client : EipClient) (tag : TagAddress) (elements : UInt16) (peer : Peer) (n : ℕ)
    (st : FragmentLocals) (room : ℕ) : Prop :=
  ∃ turns result,
    (∀ fuel, room < fuel →
      fragmentLoop client tag elements peer fuel n st = some (turns, result)) ∧
    turns.length ≤ room + 1 ∧
    ∀ t ∈ turns, TurnTaken client tag elements t

/-- A turn that is the last one is enough. -/
theorem endsWithin_of_last {client : EipClient} {tag : TagAddress} {elements : UInt16}
    {peer : Peer} {n room : ℕ} {st : FragmentLocals} {t : FragmentTurn}
    {result : Except EnipError TagReadResult} (htaken : TurnTaken client tag elements t)
    (h : ∀ fewer, fragmentLoop client tag elements peer (fewer + 1) n st = some ([t], result)) :
    EndsWithin client tag elements peer n st room := by
  refine ⟨[t], result, ?_, by simp, ?_⟩
  · intro fuel hfuel
    obtain ⟨fewer, rfl, -⟩ := fuel_succ hfuel
    exact h fewer
  · intro t' ht'
    rwa [List.mem_singleton.mp ht']

/-- From locals that are aligned, as many turns as there are bytes left under the cap, and one
more, are enough; more turns than that change nothing. -/
theorem fragmentLoop_ends (client : EipClient) (tag : TagAddress) (elements : UInt16)
    (peer : Peer) (n : ℕ) {st : FragmentLocals} (hst : Aligned client.maxValueBytes st) :
    EndsWithin client tag elements peer n st (client.maxValueBytes - st.acc.length) := by
  induction hroom : client.maxValueBytes - st.acc.length using Nat.strongRecOn
    generalizing n st with
  | ind room ih =>
      cases hsend : client.sendCip peer n (readTagFragmentedRequest tag elements st.offset) with
      | error e =>
          exact endsWithin_of_last ⟨hst.acc_le, hst.acc_le, hst.offset_eq, rfl⟩
            fun _ => fragmentLoop_unsent hsend
      | ok reply =>
          have hspec := fragmentTurn_spec hst reply
          cases hturn : fragmentTurn client.maxValueBytes st reply with
          | mk next outcome =>
              rw [hturn] at hspec
              have htaken : TurnTaken client tag elements
                  ⟨readTagFragmentedRequest tag elements st.offset, st, next⟩ :=
                ⟨hst.acc_le, hspec.acc_le, hst.offset_eq, rfl⟩
              cases outcome with
              | error e => exact endsWithin_of_last htaken fun _ => fragmentLoop_refused hsend hturn
              | ok again =>
                  cases again with
                  | false => exact endsWithin_of_last htaken fun _ => fragmentLoop_last hsend hturn
                  | true =>
                      obtain ⟨hnext, hmoved⟩ := hspec.again rfl
                      have hle := hnext.acc_le
                      have hfar : st.acc.length < next.acc.length := hmoved
                      have hmoves : client.maxValueBytes - next.acc.length < room := by omega
                      obtain ⟨turns, result, hloop, hlen, hturns⟩ := ih _ hmoves (n + 1) hnext rfl
                      refine ⟨⟨_, st, next⟩ :: turns, result, ?_, ?_,
                        List.forall_mem_cons.mpr ⟨htaken, hturns⟩⟩
                      · intro fuel hfuel
                        obtain ⟨fewer, rfl, hfewer⟩ := fuel_succ hfuel
                        exact fragmentLoop_again hsend hturn (hloop fewer (by omega))
                      · rw [List.length_cons]
                        omega

/-- The fragmented read ends for every peer: with at most one request more than the cap has
bytes, no accumulator past the cap, and every request for the offset that has been reached. -/
theorem fragmented_read_ends (client : EipClient) (tag : TagAddress) (elements : UInt16)
    (peer : Peer) (first : ℕ) :
    ∃ turns result,
      (∀ fuel, client.maxValueBytes < fuel →
        readTagFragmented client tag elements peer first fuel = some (turns, result)) ∧
      turns.length ≤ client.maxValueBytes + 1 ∧
      ∀ t ∈ turns, TurnTaken client tag elements t := by
  have hstart : Aligned client.maxValueBytes {} := ⟨rfl, Nat.zero_le _⟩
  exact fragmentLoop_ends client tag elements peer first hstart

/-! ## The loop and the transfer -/

/-- Taking a fragment in, as the transfer counts it. -/
theorem takeFragment_step {cap : ℕ} {st next : FragmentLocals} (hst : Aligned cap st) {more : Bool}
    {code : UInt16} {handle : Option UInt16} {bytes : Bytes} {outcome : Except EnipError Bool}
    (h : takeFragment cap st more code handle bytes = (next, outcome)) :
    (if cap < st.acc.length + bytes.length ∨ 2 ^ 32 ≤ st.acc.length + bytes.length then
        .error (.tooLarge cap)
      else if more then
        if bytes = [] then .error (.protocolViolation "fragmented read made no progress")
        else .ok (.more ⟨st.acc ++ bytes, some code, handle⟩)
      else (buildFragmentValue (CipType.fromCode code) handle (st.acc ++ bytes)).map fun value =>
        .done ⟨value, CipType.fromCode code, true⟩ : Except EnipError FragmentStep) =
      turnStep next outcome := by
  have hoffset := hst.offset_eq
  unfold takeFragment at h
  by_cases hlong : cap < st.acc.length + bytes.length
  · rw [if_pos hlong] at h
    cases h
    exact if_pos (Or.inl hlong)
  · rw [if_neg hlong] at h
    cases hadvance : advanceOffset st.offset bytes.length with
    | none =>
        rw [hadvance] at h
        cases h
        have hword := advanceOffset_eq_none hadvance
        exact if_pos (Or.inr (by omega))
    | some offset =>
        have hmoved := advanceOffset_eq_some hadvance
        have hword : offset.toNat < 2 ^ 32 := offset.toNat_lt
        simp only [hadvance] at h
        rw [if_neg (by omega)]
        cases more with
        | false =>
            rw [if_pos rfl] at h
            cases h
            rw [if_neg (by decide)]
            simp only [turnStep, FragmentLocals.finish, Option.map_some, Option.getD_some, bind,
              Except.bind]
            cases buildFragmentValue (CipType.fromCode code) handle (st.acc ++ bytes) with
            | error e => rfl
            | ok value => rfl
        | true =>
            rw [if_neg (by decide)] at h
            rw [if_pos rfl]
            by_cases hbytes : bytes = []
            · rw [if_pos hbytes] at h ⊢
              cases h
              rfl
            · rw [if_neg hbytes] at h ⊢
              cases h
              rfl

/-- A turn of the loop is the transfer's, where the offset counts the bytes accumulated. -/
theorem fragmentTurn_step {cap : ℕ} {st next : FragmentLocals} (hst : Aligned cap st)
    {reply : MessageReply} {outcome : Except EnipError Bool}
    (h : fragmentTurn cap st reply = (next, outcome)) :
    fragmentStep cap st.reassembly reply = turnStep next outcome := by
  unfold fragmentTurn at h
  cases hservice : reply.expectService serviceReadTagFragmented with
  | error e =>
      rw [hservice] at h
      cases h
      simp only [fragmentStep, hservice, bind, Except.bind]
      rfl
  | ok u =>
      rw [fragmentStep_eq cap st.reassembly hservice]
      simp only [hservice] at h
      by_cases hrefused : reply.status.isOk = false ∧ reply.status.hasMore = false
      · rw [if_pos hrefused] at h ⊢
        cases h
        rfl
      · rw [if_neg hrefused] at h ⊢
        cases hheader : fragmentHeader st.reassembly reply.data with
        | error e =>
            rw [hheader] at h
            cases h
            rfl
        | ok header =>
            rw [hheader] at h
            rw [← takeFragment_step hst h]
            simp only [FragmentLocals.reassembly]
            cases buildFragmentValue (CipType.fromCode header.1) header.2.1
                (st.acc ++ header.2.2) with
            | error e => rfl
            | ok value => rfl

/-- The loop with its own offset ends with what the transfer that counts its bytes ends with. -/
theorem fragmentLoop_result {client : EipClient} {tag : TagAddress} {elements : UInt16}
    {peer : Peer} {fuel n : ℕ} {st : FragmentLocals} {turns : List FragmentTurn}
    {result : Except EnipError TagReadResult} (hst : Aligned client.maxValueBytes st)
    (h : fragmentLoop client tag elements peer fuel n st = some (turns, result)) :
    readFragments client tag elements peer n st.reassembly = result := by
  induction fuel generalizing n st turns with
  | zero => cases h
  | succ fuel ih =>
      have hoffset : UInt32.ofNat st.reassembly.acc.length = st.offset := by
        show UInt32.ofNat st.acc.length = st.offset
        rw [← hst.offset_eq, UInt32.ofNat_toNat]
      cases hsend : client.sendCip peer n (readTagFragmentedRequest tag elements st.offset) with
      | error e =>
          rw [fragmentLoop_unsent hsend] at h
          cases h
          rw [readFragments, hoffset, hsend]
      | ok reply =>
          have hsame := hsend
          rw [← hoffset] at hsame
          rw [readFragments_eq hsame]
          cases hturn : fragmentTurn client.maxValueBytes st reply with
          | mk next outcome =>
              have hspec := fragmentTurn_spec hst reply
              rw [hturn] at hspec
              rw [fragmentTurn_step hst hturn]
              cases outcome with
              | error e =>
                  rw [fragmentLoop_refused hsend hturn] at h
                  cases h
                  rfl
              | ok again =>
                  cases again with
                  | false =>
                      rw [fragmentLoop_last hsend hturn] at h
                      cases h
                      rw [turnStep]
                      cases next.finish with
                      | error e => rfl
                      | ok result => rfl
                  | true =>
                      cases hlater : fragmentLoop client tag elements peer fuel (n + 1) next with
                      | none =>
                          simp only [fragmentLoop, hsend, hturn, hlater] at h
                          cases h
                      | some later =>
                          rw [fragmentLoop_again hsend hturn hlater] at h
                          cases h
                          exact ih (hspec.again rfl).1 hlater

end EnipAdapter.Analysis
