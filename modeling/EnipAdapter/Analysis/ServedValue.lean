import EnipAdapter.Analysis.FragmentedRead

/-!
# Reading a served value

However a target cuts a value into fragments, the client puts the same value together: after
every turn it holds the part of the value in front of its offset. What the reassembled bytes
decode to is then what a whole reply decodes to, for the types that are interpreted and for
those that are not.
-/

set_option autoImplicit false

namespace EnipAdapter.Analysis

open EnipAdapter.Foundation EnipAdapter.Model EnipAdapter.Interface

/-! ## The type prefix -/

/-- The type of a code is written as that code. -/
theorem cipType_code_fromCode (code : UInt16) : (CipType.fromCode code).code = code := by
  unfold CipType.fromCode
  split <;> first | rfl | (rename_i h; apply UInt16.toNat_inj.mp; rw [h]; rfl)

/-- A client part of the way through a served value: it holds what is in front of its offset,
and either nothing of the type yet or all of it. -/
structure Partway (img : TagImage) (cap : ℕ) (st : FragmentLocals) : Prop where
  aligned : Aligned cap st
  acc_eq : st.acc = img.value.take st.acc.length
  header : st.wireCode = none ∧ st.structHandle = none ∨
    st.wireCode = some img.code ∧ st.structHandle = img.wireHandle

/-- Every fragment of the value passes the comparison with the first. -/
theorem fragmentHeader_served {img : TagImage} {cap : ℕ} {st : FragmentLocals}
    (hst : Partway img cap st) (bytes : Bytes) :
    fragmentHeader st.reassembly (img.typePrefix ++ bytes) =
      .ok (img.code, img.wireHandle, bytes) := by
  have hcode : st.wireCode.any (· != img.code) = false := by
    obtain ⟨h, -⟩ | ⟨h, -⟩ := hst.header
    · rw [h]
      rfl
    · rw [h]
      simp
  unfold fragmentHeader TagImage.typePrefix TagImage.wireHandle
  by_cases hstruct : CipType.fromCode img.code = .struct
  · have hhandle : st.structHandle.any (· != img.handle) = false ∧
        st.structHandle.getD img.handle = img.handle := by
      obtain ⟨-, h⟩ | ⟨-, h⟩ := hst.header
      · rw [h]
        exact ⟨rfl, rfl⟩
      · rw [h, TagImage.wireHandle, if_pos hstruct]
        simp
    simp only [WireReader.withContext, if_pos hstruct, List.append_assoc, WireReader.u16_append,
      liftWire_ok, bind, Except.bind, FragmentLocals.reassembly, hcode, hhandle.1, hhandle.2,
      Bool.false_eq_true, if_false, WireReader.takeRest, pure, Except.pure]
  · have hhandle : st.structHandle = none := by
      obtain ⟨-, h⟩ | ⟨-, h⟩ := hst.header
      · exact h
      · rw [h, TagImage.wireHandle, if_neg hstruct]
    simp only [WireReader.withContext, if_neg hstruct, List.append_nil, WireReader.u16_append,
      liftWire_ok, bind, Except.bind, FragmentLocals.reassembly, hcode, hhandle,
      Bool.false_eq_true, if_false, WireReader.takeRest, pure, Except.pure]

/-- The whole of the bytes under the type of the first fragment is the whole value: as a
structure, as bytes that are not interpreted, or as elements. -/
theorem finish_whole (img : TagImage) (offset : UInt32) :
    (⟨offset, img.value, some img.code, img.wireHandle⟩ : FragmentLocals).finish = img.whole := by
  have hround := cipType_code_fromCode img.code
  simp only [FragmentLocals.finish, TagImage.whole, Option.map_some, Option.getD_some,
    CipValue.decodeTagged, TagImage.typePrefix, TagImage.wireHandle, WireReader.withContext]
  cases hty : CipType.fromCode img.code with
  | struct =>
    simp only [if_true, List.append_assoc, WireReader.u16_append, bind, Except.bind, pure,
      Except.pure, hty, buildFragmentValue, WireReader.remaining, liftWire_ok, Option.getD_some]
  | string =>
    rw [hty] at hround
    simp only [reduceCtorEq, if_false, List.append_nil, WireReader.u16_append, bind, Except.bind,
      pure, Except.pure, hty, buildFragmentValue, WireReader.remaining, liftWire_ok, hround]
  | unknown c =>
    rw [hty] at hround
    simp only [reduceCtorEq, if_false, List.append_nil, WireReader.u16_append, bind, Except.bind,
      pure, Except.pure, hty, buildFragmentValue, WireReader.remaining, liftWire_ok, hround]
  | _ =>
    simp only [reduceCtorEq, if_false, List.append_nil, WireReader.u16_append, bind, Except.bind,
      pure, Except.pure, hty, buildFragmentValue, WireReader.takeRest]
    cases CipValue.decode _ img.value with
    | error e => rfl
    | ok value => rfl

/-! ## One fragment -/

/-- A fragment is taken in: its bytes go behind those in front of the offset. -/
theorem fragmentTurn_served {img : TagImage} {cap k : ℕ} {st : FragmentLocals}
    {reply : MessageReply} (hst : Partway img cap st)
    (hreply : img.Fragment st.acc.length k reply) :
    fragmentTurn cap st reply = takeFragment cap st
      (decide (st.acc.length + k < img.value.length)) img.code img.wireHandle
      ((img.value.drop st.acc.length).take k) := by
  have hservice : reply.expectService serviceReadTagFragmented = .ok () := if_pos hreply.service
  have hheader := fragmentHeader_served hst ((img.value.drop st.acc.length).take k)
  have hstatus := hreply.status
  rw [← hreply.data] at hheader
  by_cases hmore : st.acc.length + k < img.value.length
  · rw [if_pos hmore] at hstatus
    have hpart : reply.status.hasMore = true := by
      rw [CipStatus.hasMore, hstatus]
      rfl
    simp only [fragmentTurn, hservice, hpart, Bool.true_eq_false, and_false, if_false, hheader,
      decide_eq_true hmore]
  · rw [if_neg hmore] at hstatus
    have hlast : reply.status.hasMore = false := by
      rw [CipStatus.hasMore, hstatus]
      rfl
    have hok : reply.status.isOk = true := by
      rw [CipStatus.isOk, hstatus]
      rfl
    simp only [fragmentTurn, hservice, hlast, hok, Bool.true_eq_false, false_and, if_false,
      hheader, decide_eq_false hmore]

section Serving

variable {img : TagImage} {cap k : ℕ} {st : FragmentLocals}

/-- A fragment inside the value has its full length. -/
theorem fragment_length (hinside : st.acc.length + k ≤ img.value.length) :
    ((img.value.drop st.acc.length).take k).length = k := by
  rw [List.length_take, List.length_drop]
  omega

/-- What is in front of the offset and the fragment behind it are what is in front of the next
offset. -/
theorem acc_append_fragment (hst : Partway img cap st) :
    st.acc ++ (img.value.drop st.acc.length).take k = img.value.take (st.acc.length + k) := by
  have hacc := hst.acc_eq
  rw [List.take_add]
  conv_lhs => rw [hacc]
  rw [← hacc]

/-- The locals after a fragment: the client is further on its way. -/
theorem partway_next (hinside : st.acc.length + k ≤ img.value.length)
    (hcap : img.value.length ≤ cap) {offset : UInt32} (hoffset : offset.toNat = st.acc.length + k) :
    Partway img cap ⟨offset, img.value.take (st.acc.length + k), some img.code,
      img.wireHandle⟩ := by
  have hlen : (img.value.take (st.acc.length + k)).length = st.acc.length + k :=
    List.length_take_of_le hinside
  refine ⟨⟨by rw [hlen]; exact hoffset, by rw [hlen]; omega⟩, ?_, Or.inr ⟨rfl, rfl⟩⟩
  rw [hlen]

/-- A fragment that reaches past what the offset can count is refused. -/
theorem takeFragment_past (hst : Partway img cap st)
    (hinside : st.acc.length + k ≤ img.value.length) (hcap : img.value.length ≤ cap)
    (hpast : 2 ^ 32 ≤ st.acc.length + k) (more : Bool) :
    ∃ next, takeFragment cap st more img.code img.wireHandle
      ((img.value.drop st.acc.length).take k) = (next, .error (.tooLarge cap)) := by
  have hoffset := hst.aligned.offset_eq
  have hlen := fragment_length hinside
  have hfits : ¬ cap < st.acc.length + ((img.value.drop st.acc.length).take k).length := by
    rw [hlen]
    omega
  have hadvance : advanceOffset st.offset ((img.value.drop st.acc.length).take k).length =
      none := by
    rw [hlen]
    exact if_neg (by omega)
  simp only [takeFragment, if_neg hfits, hadvance]
  exact ⟨_, rfl⟩

/-- Any other fragment moves the offset. -/
theorem takeFragment_moves (hst : Partway img cap st)
    (hinside : st.acc.length + k ≤ img.value.length) (hcap : img.value.length ≤ cap)
    (hword : st.acc.length + k < 2 ^ 32) (hk : 1 ≤ k ∨ img.value = []) :
    ∃ offset, offset.toNat = st.acc.length + k ∧
      takeFragment cap st (decide (st.acc.length + k < img.value.length)) img.code img.wireHandle
          ((img.value.drop st.acc.length).take k) =
        (⟨offset, img.value.take (st.acc.length + k), some img.code, img.wireHandle⟩,
          .ok (decide (st.acc.length + k < img.value.length))) := by
  have hoffset := hst.aligned.offset_eq
  have hlen := fragment_length hinside
  have hfits : ¬ cap < st.acc.length + k := by omega
  have hadvance : advanceOffset st.offset k = some (st.offset + UInt32.ofNat k) :=
    advanceOffset_of_lt (by omega)
  refine ⟨st.offset + UInt32.ofNat k, ?_, ?_⟩
  · rw [advanceOffset_eq_some hadvance]
    omega
  · simp only [takeFragment, hlen, if_neg hfits, hadvance, acc_append_fragment hst]
    by_cases hmore : st.acc.length + k < img.value.length
    · have hsome : (img.value.drop st.acc.length).take k ≠ [] := by
        apply List.ne_nil_of_length_pos
        rw [hlen]
        cases hk with
        | inl h => exact h
        | inr h =>
            rw [h] at hmore
            exact absurd hmore (Nat.not_lt_zero _)
      rw [decide_eq_true hmore, if_neg (by decide), if_neg hsome]
    · rw [decide_eq_false hmore, if_pos rfl]

end Serving

/-! ## The whole value -/

/-- What a client makes of a served value: the value, unless the offset cannot count its bytes. -/
def servedResult (img : TagImage) (cap : ℕ) : Except EnipError TagReadResult :=
  if img.value.length < 2 ^ 32 then img.whole else .error (.tooLarge cap)

/-- The reply to the request for the next offset of a served value. -/
theorem served_reply {img : TagImage} {client : EipClient} {tag : TagAddress} {elements : UInt16}
    {peer : Peer} (hserved : img.ServedTo client tag elements peer) (n : ℕ) {st : FragmentLocals}
    (hst : Partway img client.maxValueBytes st)
    (hleft : st.acc.length < img.value.length ∨ img.value = []) :
    ∃ k reply, (1 ≤ k ∨ img.value = []) ∧ st.acc.length + k ≤ img.value.length ∧
      client.sendCip peer n (readTagFragmentedRequest tag elements st.offset) = .ok reply ∧
      img.Fragment st.acc.length k reply := by
  have hoffset := hst.aligned.offset_eq
  cases hleft with
  | inl hinside =>
      obtain ⟨k, reply, hk, hle, hsend, hfragment⟩ := hserved.inside n st.offset (by omega)
      rw [hoffset] at hle hfragment
      exact ⟨k, reply, Or.inl hk, hle, hsend, hfragment⟩
  | inr hempty =>
      have hacc : st.acc.length = 0 := by
        rw [hst.acc_eq, hempty, List.take_nil]
        rfl
      have hzero : st.offset = 0 := by
        apply UInt32.toNat_inj.mp
        rw [hoffset, hacc]
        rfl
      obtain ⟨reply, hsend, hfragment⟩ := hserved.empty hempty n
      rw [hacc, hzero]
      exact ⟨0, reply, Or.inr hempty, Nat.zero_le _, hsend, hfragment⟩

/-- From any point of a served value on, the loop ends with the whole of it. -/
theorem fragmentLoop_served {img : TagImage} {client : EipClient} {tag : TagAddress}
    {elements : UInt16} {peer : Peer} (hserved : img.ServedTo client tag elements peer)
    (hcap : img.value.length ≤ client.maxValueBytes) {fuel : ℕ} (n : ℕ) {st : FragmentLocals}
    (hst : Partway img client.maxValueBytes st)
    (hleft : st.acc.length < img.value.length ∨ img.value = [])
    (hfuel : img.value.length - st.acc.length < fuel) :
    ∃ turns, fragmentLoop client tag elements peer fuel n st =
      some (turns, servedResult img client.maxValueBytes) := by
  induction fuel generalizing n st with
  | zero => omega
  | succ fuel ih =>
      obtain ⟨k, reply, hk, hinside, hsend, hfragment⟩ := served_reply hserved n hst hleft
      have hturn := fragmentTurn_served hst hfragment
      by_cases hword : st.acc.length + k < 2 ^ 32
      · obtain ⟨offset, hnext, htake⟩ := takeFragment_moves hst hinside hcap hword hk
        rw [htake] at hturn
        by_cases hmore : st.acc.length + k < img.value.length
        · rw [decide_eq_true hmore] at hturn
          have hlen : (img.value.take (st.acc.length + k)).length = st.acc.length + k :=
            List.length_take_of_le hinside
          have hpos : 1 ≤ k := by
            cases hk with
            | inl h => exact h
            | inr h =>
                rw [h] at hmore
                exact absurd hmore (Nat.not_lt_zero _)
          obtain ⟨turns, hlater⟩ := ih (n + 1) (partway_next hinside hcap hnext)
            (Or.inl (by rw [hlen]; exact hmore)) (by rw [hlen]; omega)
          exact ⟨_, fragmentLoop_again hsend hturn hlater⟩
        · have hall : st.acc.length + k = img.value.length := by omega
          rw [decide_eq_false hmore, hall, List.take_length] at hturn
          have hshort : img.value.length < 2 ^ 32 := by omega
          have hloop : fragmentLoop _ _ _ _ (fuel + 1) _ _ = _ := fragmentLoop_last hsend hturn
          rw [finish_whole] at hloop
          rw [servedResult, if_pos hshort]
          exact ⟨_, hloop⟩
      · obtain ⟨next, hpast⟩ := takeFragment_past hst hinside hcap (by omega)
          (decide (st.acc.length + k < img.value.length))
        rw [hpast] at hturn
        rw [servedResult, if_neg (by omega)]
        exact ⟨_, fragmentLoop_refused hsend hturn⟩

/-- A target that serves a value is read to its end, or to the cap. -/
theorem readTagFragmented_served {img : TagImage} {client : EipClient} {tag : TagAddress}
    {elements : UInt16} {peer : Peer} (hserved : img.ServedTo client tag elements peer)
    (hcap : img.value.length ≤ client.maxValueBytes) (first : ℕ) {fuel : ℕ}
    (hfuel : client.maxValueBytes < fuel) :
    ∃ turns, readTagFragmented client tag elements peer first fuel =
      some (turns, servedResult img client.maxValueBytes) := by
  have hstart : Partway img client.maxValueBytes {} :=
    ⟨⟨rfl, Nat.zero_le _⟩, rfl, Or.inl ⟨rfl, rfl⟩⟩
  have hleft : ({} : FragmentLocals).acc.length < img.value.length ∨ img.value = [] := by
    cases hvalue : img.value with
    | nil => exact Or.inr rfl
    | cons b bs => exact Or.inl (Nat.succ_pos _)
  exact fragmentLoop_served hserved hcap first hstart hleft (by omega)

/-- A client that reads a served value of a length that the cap allows and the offset can count
is told what one reply with the whole value would tell it, whatever the fragments. -/
theorem fragmented_read_whole {img : TagImage} {client : EipClient} {tag : TagAddress}
    {elements : UInt16} {peer : Peer} (hserved : img.ServedTo client tag elements peer)
    (hcap : img.value.length ≤ client.maxValueBytes) (hword : img.value.length < 2 ^ 32)
    (first : ℕ) :
    ∃ turns, ∀ fuel, client.maxValueBytes < fuel →
      readTagFragmented client tag elements peer first fuel = some (turns, img.whole) := by
  have hresult : servedResult img client.maxValueBytes = img.whole := if_pos hword
  have hstart : Aligned client.maxValueBytes {} := ⟨rfl, Nat.zero_le _⟩
  obtain ⟨turns, result, hloop, -, -⟩ := fragmentLoop_ends client tag elements peer first hstart
  obtain ⟨turns', hserve⟩ := readTagFragmented_served hserved hcap first
    (Nat.lt_succ_self client.maxValueBytes)
  have hsame : readTagFragmented client tag elements peer first (client.maxValueBytes + 1) =
      some (turns, result) := hloop _ (Nat.lt_succ_self _)
  rw [hsame, hresult] at hserve
  cases hserve
  exact ⟨turns, hloop⟩

/-! ## A target that serves byte by byte -/

/-- The offset a read request asks for, as the target reads it. -/
theorem requested_offset (tag : TagAddress) (elements : UInt16) (offset : UInt32) :
    ofLeBytes ((readTagFragmentedRequest tag elements offset).data.drop 2) = offset.toNat := by
  have hdrop : (readTagFragmentedRequest tag elements offset).data.drop 2 = putU32 offset := by
    show (putU16 elements ++ putU32 offset).drop 2 = putU32 offset
    rw [List.drop_append, putU16_length, List.drop_of_length_le (by rw [putU16_length])]
    rfl
  have hlt : offset.toNat < 256 ^ 4 := offset.toNat_lt
  rw [hdrop, putU32, ofLeBytes_leBytes, Nat.mod_eq_of_lt hlt]

/-- A target that answers byte by byte serves its value. -/
theorem servedTo_bytewise (img : TagImage) {client : EipClient} {tag : TagAddress}
    (elements : UInt16) (hsend : Sendable client tag.path) :
    img.ServedTo client tag elements img.bytewise where
  inside := by
    intro n offset hinside
    refine ⟨1, _, le_rfl, by omega, sendCip_of_sendable ?_ hsend _ _, rfl, ?_, ?_⟩
    · simp [readTagFragmentedRequest]
    · simp only [requested_offset]
    · simp only [requested_offset]
  empty := by
    intro hempty n
    refine ⟨_, sendCip_of_sendable ?_ hsend _ _, rfl, ?_, ?_⟩
    · simp [readTagFragmentedRequest]
    · simp [hempty]
    · simp [hempty]

/-- A tag of one element segment, which any client can ask for. -/
def elementTag : TagAddress := ⟨⟨[.element 5]⟩, "5"⟩

/-- The sample tag can be sent. -/
theorem sendable_elementTag (cap : ℕ) : Sendable { maxValueBytes := cap } elementTag.path := by
  refine ⟨by decide, ?_⟩
  intro _ route hroute
  cases hroute

/-- A DINT served byte by byte, and what is read of it. -/
theorem fragmented_read_whole_dint :
    ∃ turns, ∀ fuel, 16 < fuel →
      readTagFragmented { maxValueBytes := 16 } elementTag 1
        (⟨0xC4, 0, [7, 0, 0, 0]⟩ : TagImage).bytewise 1 fuel =
          some (turns, .ok ⟨.dint 7, .dint, true⟩) :=
  fragmented_read_whole
    (show TagImage.ServedTo _ { maxValueBytes := 16 } elementTag 1 _ from
      servedTo_bytewise ⟨0xC4, 0, [7, 0, 0, 0]⟩ 1 (sendable_elementTag 16))
    (by decide) (by decide) 1

/-- A STRING is told by its length, however long. -/
theorem whole_string (value : Bytes) :
    ∃ result, (⟨0xD0, 0, value⟩ : TagImage).whole = .ok result :=
  ⟨_, (finish_whole ⟨0xD0, 0, value⟩ 0).symm.trans rfl⟩

/-- A STRING of four gigabytes is under a cap that allows it, and still is refused. -/
theorem fragmented_read_past_offset :
    ¬ ∀ (img : TagImage) (client : EipClient) (tag : TagAddress) (elements : UInt16) (peer : Peer),
      img.ServedTo client tag elements peer → img.value.length ≤ client.maxValueBytes →
        ∀ first, ∃ turns, ∀ fuel, client.maxValueBytes < fuel →
          readTagFragmented client tag elements peer first fuel = some (turns, img.whole) := by
  intro hclaim
  generalize himg : (⟨0xD0, 0, List.replicate (2 ^ 32) 0⟩ : TagImage) = img at *
  have hlen : img.value.length = 2 ^ 32 := by
    rw [← himg]
    exact List.length_replicate
  have hserved := servedTo_bytewise img 1 (sendable_elementTag (2 ^ 32))
  obtain ⟨turns, hread⟩ := hclaim img _ elementTag 1 _ hserved (by rw [hlen]) 1
  obtain ⟨turns', hserve⟩ := readTagFragmented_served hserved (by rw [hlen]) 1
    (Nat.lt_succ_self (2 ^ 32))
  rw [hread _ (Nat.lt_succ_self (2 ^ 32))] at hserve
  have hresult : img.whole = servedResult img (2 ^ 32) := (Prod.mk.inj (Option.some.inj hserve)).2
  rw [servedResult, if_neg (by omega)] at hresult
  obtain ⟨result, hok⟩ := whole_string (List.replicate (2 ^ 32) 0)
  rw [← himg, hok] at hresult
  cases hresult

end EnipAdapter.Analysis
