import EnipAdapter.Analysis.CpfRoundTrip
import EnipAdapter.Interface.KeepaliveContract

/-!
# A late reply is never the answer on a class-3 connection

The counter is followed through a list of calls in closed form: the count of a call is a function
of the count before the list and of the call's place in it. Everything a call decides about its
reply it decides against its own count, so the contract is read off call by call.
-/

set_option autoImplicit false

namespace EnipAdapter.Analysis

open EnipAdapter.Foundation
open EnipAdapter.Model
open EnipAdapter.Interface

/-! ## The counter -/

/-- The count of the `i`-th call behind the count `c`: the counts go round without 0. -/
def countAt (c i : ℕ) : ℕ := (c + i) % 65535 + 1

/-- The next count of a connection, as a number. -/
theorem nextSequence_toNat (conn : ConnectedState) :
    conn.nextSequence.toNat = countAt conn.sequence.toNat 0 := by
  have hlt := conn.sequence.toNat_lt
  unfold ConnectedState.nextSequence countAt
  split_ifs with hzero
  · have hwrap : (conn.sequence.toNat + 1) % 2 ^ 16 = 0 := by
      rw [← UInt16.toNat_one, ← UInt16.toNat_add, hzero]
      rfl
    rw [UInt16.toNat_one]
    omega
  · have hstay : (conn.sequence.toNat + 1) % 2 ^ 16 ≠ 0 := by
      rw [← UInt16.toNat_one, ← UInt16.toNat_add]
      intro h
      exact hzero (UInt16.toNat_inj.mp h)
    rw [UInt16.toNat_add, UInt16.toNat_one]
    omega

/-- One call further the counts go on from the one just handed out. -/
theorem countAt_advance (conn : ConnectedState) (i : ℕ) :
    countAt conn.advance.sequence.toNat i = countAt conn.sequence.toNat (i + 1) := by
  have hnext := nextSequence_toNat conn
  unfold countAt at *
  show (conn.nextSequence.toNat + i) % 65535 + 1 = _
  omega

/-- Counts of calls that lie fewer than 65535 apart differ. -/
theorem countAt_ne (c : ℕ) {i j : ℕ} (hij : i < j) (hnear : j < i + 65535) :
    countAt c j ≠ countAt c i := by
  unfold countAt
  omega

/-! ## One call -/

/-- Every call moves the connection by exactly its count. -/
theorem sendConnected_conn (c : Class3Client) (s : ConnectedSend) :
    (c.sendConnected s).1.conn = c.conn.advance := by
  unfold Class3Client.sendConnected
  cases connectedRequestPayload c.conn s.request with
  | error e => rfl
  | ok payload => cases s.answer <;> rfl

/-- A call carries the connection's next count. -/
theorem sendConnected_sequence (c : Class3Client) (s : ConnectedSend) :
    (c.sendConnected s).2.sequence = c.conn.nextSequence := by
  unfold Class3Client.sendConnected
  cases connectedRequestPayload c.conn s.request with
  | error e => rfl
  | ok payload => cases s.answer <;> rfl

/-- A call puts its payload on the wire, if it has one. -/
theorem sendConnected_issued {c : Class3Client} {s : ConnectedSend} {payload : Bytes} :
    (c.sendConnected s).2.issued = some payload ↔
      connectedRequestPayload c.conn s.request = .ok payload := by
  unfold Class3Client.sendConnected
  cases connectedRequestPayload c.conn s.request with
  | error e => simp
  | ok payload' => cases s.answer <;> simp

/-- What became of a call that was answered with a frame. -/
theorem sendConnected_answered {c : Class3Client} {s : ConnectedSend} {frame : EncapFrame}
    (hissued : (c.sendConnected s).2.issued.isSome = true) (hframe : s.answer = .ok frame) :
    ((c.sendConnected s).2.result, (c.sendConnected s).2.discarded) =
      parseConnectedReply frame c.conn.nextSequence c.conn.tOConnectionId := by
  unfold Class3Client.sendConnected at *
  cases hp : connectedRequestPayload c.conn s.request with
  | error e => simp [hp] at hissued
  | ok payload => simp [hframe, ConnectedState.advance]

/-- A call that succeeded was answered with a frame. -/
theorem sendConnected_ok {c : Class3Client} {s : ConnectedSend} {reply : MessageReply}
    (h : (c.sendConnected s).2.result = .ok reply) :
    (c.sendConnected s).2.issued.isSome = true ∧ ∃ frame, s.answer = .ok frame := by
  unfold Class3Client.sendConnected at *
  cases hp : connectedRequestPayload c.conn s.request with
  | error e => simp [hp] at h
  | ok payload =>
      cases ha : s.answer with
      | error e => simp [hp, ha] at h
      | ok frame => exact ⟨rfl, frame, rfl⟩

/-- A call adds to the tally what it discards. -/
theorem sendConnected_tally (c : Class3Client) (s : ConnectedSend) :
    (c.sendConnected s).1.connectedSeqMismatches =
      c.connectedSeqMismatches + if (c.sendConnected s).2.discarded then 1 else 0 := by
  unfold Class3Client.sendConnected
  cases connectedRequestPayload c.conn s.request with
  | error e => rfl
  | ok payload => cases s.answer <;> rfl

/-! ## The reply -/

/-- A reply is handed on only when it echoes the count and carries the identifier. -/
theorem parseConnectedReply_ok {frame : EncapFrame} {seq : UInt16} {addr : UInt32}
    {reply : MessageReply} (h : (parseConnectedReply frame seq addr).1 = .ok reply) :
    ∃ mrBytes, MessageReply.decode mrBytes = .ok reply ∧
      connectedReplyItems frame = .ok (addr, seq, mrBytes) := by
  unfold parseConnectedReply at h
  cases hitems : connectedReplyItems frame with
  | error e => simp [hitems] at h
  | ok items =>
      obtain ⟨addr', seq', mrBytes⟩ := items
      simp only [hitems] at h
      split_ifs at h with hne
      obtain ⟨hseq, haddr⟩ := not_or.mp hne
      rw [not_not] at hseq haddr
      subst hseq haddr
      exact ⟨mrBytes, liftWire_eq_ok.mp h, rfl⟩

/-- A reply that echoes another count is discarded. -/
theorem parseConnectedReply_other {frame : EncapFrame} {seq seq' : UInt16} {addr : UInt32}
    (hreply : RepliesTo frame seq' addr) (hne : seq' ≠ seq) :
    parseConnectedReply frame seq addr = (.error sequenceMismatch, true) := by
  obtain ⟨mrBytes, hitems⟩ := hreply
  unfold parseConnectedReply
  simp only [hitems]
  rw [if_pos (Or.inl hne)]

/-- A request read off the wire: the items of its payload are those it was built from. -/
theorem connectedReplyItems_request {conn : ConnectedState} {mr : MessageRequest}
    {payload : Bytes} {header : EncapHeader}
    (hpayload : connectedRequestPayload conn mr = .ok payload) (hok : header.status.isOk = true) :
    ∃ mrBytes, mr.encode = .ok mrBytes ∧ connectedReplyItems ⟨header, payload⟩ =
      .ok (conn.oTConnectionId, conn.nextSequence, mrBytes) := by
  unfold connectedRequestPayload at hpayload
  obtain ⟨mrBytes, hmr, hdata⟩ := bind_ok.mp hpayload
  unfold encapDataWithCpf at hdata
  obtain ⟨bytes, hbytes, hdata⟩ := bind_ok.mp hdata
  cases hdata
  refine ⟨mrBytes, hmr, ?_⟩
  have hdecode : Cpf.decode bytes = .ok ⟨[CpfItem.connectedAddress conn.oTConnectionId,
      CpfItem.connectedData (putU16 conn.nextSequence ++ mrBytes)]⟩ := by
    refine cpf_decode_encode ?_ (liftWire_eq_ok.mp hbytes)
    intro i hi
    rcases List.mem_pair.mp hi with rfl | rfl <;> rfl
  have haddr := WireReader.u32_append conn.oTConnectionId [] "connected address"
  rw [List.append_nil] at haddr
  have hseq := WireReader.u16_append conn.nextSequence mrBytes "connected data"
  have hinterface := WireReader.u32_append 0 (putU16 0 ++ bytes) "sendunitdata reply"
  have htimeout := WireReader.u16_append 0 bytes "sendunitdata reply"
  simp [connectedReplyItems, hok, WireReader.withContext, List.append_assoc, hinterface,
    htimeout, WireReader.takeRest, hdecode, Cpf.find, CpfItem.connectedAddress,
    CpfItem.connectedData, haddr, hseq, bind, Except.bind, pure, Except.pure]

/-! ## A list of calls -/

/-- The call at a place of the list: it is a call on the same connection, and the count it takes
is that of its place. -/
theorem sendAll_call (sends : List ConnectedSend) (c : Class3Client) (i : ℕ)
    (o : ConnectedOutcome) (ho : (c.sendAll sends).2[i]? = some o) :
    ∃ (s : ConnectedSend) (c' : Class3Client), sends[i]? = some s ∧
      o = (c'.sendConnected s).2 ∧ c'.conn.oTConnectionId = c.conn.oTConnectionId ∧
      c'.conn.tOConnectionId = c.conn.tOConnectionId ∧
      c'.conn.nextSequence.toNat = countAt c.conn.sequence.toNat i := by
  induction sends generalizing c i with
  | nil => simp [Class3Client.sendAll] at ho
  | cons s rest ih =>
      rw [Class3Client.sendAll] at ho
      cases i with
      | zero =>
          simp only [List.getElem?_cons_zero, Option.some.injEq] at ho
          exact ⟨s, c, rfl, ho.symm, rfl, rfl, nextSequence_toNat c.conn⟩
      | succ i =>
          rw [List.getElem?_cons_succ] at ho
          obtain ⟨s', c', hs', hout, hoT, htO, hcount⟩ := ih (c.sendConnected s).1 i ho
          rw [sendConnected_conn] at hoT htO hcount
          rw [countAt_advance] at hcount
          exact ⟨s', c', hs', hout, hoT, htO, hcount⟩

/-- A list of calls has an outcome each. -/
theorem sendAll_length (sends : List ConnectedSend) (c : Class3Client) :
    (c.sendAll sends).2.length = sends.length := by
  induction sends generalizing c with
  | nil => rfl
  | cons s rest ih =>
      rw [Class3Client.sendAll]
      simp [ih]

/-- The tally of a list of calls. -/
theorem sendAll_tally (sends : List ConnectedSend) (c : Class3Client) :
    (c.sendAll sends).1.connectedSeqMismatches =
      c.connectedSeqMismatches +
        ((c.sendAll sends).2.filter ConnectedOutcome.discarded).length := by
  induction sends generalizing c with
  | nil => rfl
  | cons s rest ih =>
      rw [Class3Client.sendAll]
      simp only [ih, sendConnected_tally, List.filter_cons]
      split_ifs
      · rw [List.length_cons]
        omega
      · rfl

/-- The count of a call is that of its place. -/
theorem sendAll_sequence {sends : List ConnectedSend} {c : Class3Client} {i : ℕ}
    {o : ConnectedOutcome} (ho : (c.sendAll sends).2[i]? = some o) :
    o.sequence.toNat = countAt c.conn.sequence.toNat i := by
  obtain ⟨s, c', -, rfl, -, -, hcount⟩ := sendAll_call sends c i o ho
  rw [sendConnected_sequence, hcount]

/-- Calls that lie fewer than 65535 apart carry different counts. -/
theorem sendAll_sequence_ne {sends : List ConnectedSend} {c : Class3Client} {i j : ℕ}
    {o o' : ConnectedOutcome} (ho : (c.sendAll sends).2[i]? = some o)
    (ho' : (c.sendAll sends).2[j]? = some o') (hij : i < j) (hnear : j < i + 65535) :
    o'.sequence ≠ o.sequence := by
  intro hsame
  have hcounts := countAt_ne c.conn.sequence.toNat hij hnear
  rw [← sendAll_sequence ho, ← sendAll_sequence ho', hsame] at hcounts
  exact hcounts rfl

/-- Connected messaging keeps its contract: any connection, any requests, any frames and
errors the transactions end with. -/
theorem late_reply_never_delivered (conn : ConnectedState) (openedAt : Instant)
    (sends : List ConnectedSend) :
    ConnectedContract conn sends ((Class3Client.opened conn openedAt).sendAll sends).1
      ((Class3Client.opened conn openedAt).sendAll sends).2 := by
  refine ⟨sendAll_length sends _, ?_, ?_, ?_, ?_, ?_⟩
  · intro i o ho
    refine ⟨?_, fun j o' ho' => sendAll_sequence_ne ho ho'⟩
    intro hzero
    have hcount := sendAll_sequence ho
    rw [hzero] at hcount
    simp [countAt] at hcount
  · intro i s o payload header hs ho hissued hok
    obtain ⟨s', c', hs', rfl, hoT, -, -⟩ := sendAll_call sends _ i o ho
    rw [hs] at hs'
    cases hs'
    obtain ⟨mrBytes, hmr, hitems⟩ :=
      connectedReplyItems_request (sendConnected_issued.mp hissued) hok
    refine ⟨mrBytes, hmr, ?_⟩
    rw [hitems, sendConnected_sequence, hoT]
    rfl
  · intro i s o reply hs ho hresult
    obtain ⟨s', c', hs', rfl, -, htO, -⟩ := sendAll_call sends _ i o ho
    rw [hs] at hs'
    cases hs'
    obtain ⟨hissued, frame, hframe⟩ := sendConnected_ok hresult
    have hparsed := congrArg Prod.fst (sendConnected_answered hissued hframe)
    rw [hresult] at hparsed
    obtain ⟨mrBytes, hdecode, hitems⟩ := parseConnectedReply_ok hparsed.symm
    refine ⟨frame, mrBytes, hframe, hdecode, ?_⟩
    rw [hitems, sendConnected_sequence, htO]
    rfl
  · intro k i s o o' frame hki hnear ho' hs ho hissued hframe hreply
    have hne := sendAll_sequence_ne ho' ho hki hnear
    obtain ⟨s', c', hs', rfl, -, htO, -⟩ := sendAll_call sends _ i o ho
    rw [hs] at hs'
    cases hs'
    have hparsed := sendConnected_answered hissued hframe
    rw [sendConnected_sequence] at hne
    rw [parseConnectedReply_other (by rw [htO]; exact hreply) hne.symm] at hparsed
    exact ⟨congrArg Prod.snd hparsed, congrArg Prod.fst hparsed⟩
  · rw [sendAll_tally]
    exact Nat.zero_add _

end EnipAdapter.Analysis
