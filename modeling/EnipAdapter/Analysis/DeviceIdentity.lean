import EnipAdapter.Analysis.SessionOpening
import EnipAdapter.Interface.IdentityContract

/-!
# An identity is read from the bytes that spell it

Every reader of the layouts is exact: it succeeds on the bytes of a value followed by anything, and
on nothing else. The layouts are sequences of such readers. On the stream the probe is the
handshake's one bounded read again, with checks of its own.
-/

set_option autoImplicit false

namespace EnipAdapter.Analysis

open EnipAdapter.Foundation
open EnipAdapter.Model
open EnipAdapter.Interface

/-! ## Exact readers -/

/-- A short string is read where its length and its bytes stand. -/
theorem shortString_ok {r r' : WireReader} {text : String} :
    r.shortString = .ok (text, r') ↔
      text.toUTF8.toList.length < 256 ∧ r = r'.unread (shortStringBytes text) := by
  unfold WireReader.shortString
  simp only [bind_ok, Prod.exists]
  constructor
  · rintro ⟨len, r₁, hlen, bytes, r₂, htake, htext⟩
    rw [WireReader.u8_ok] at hlen
    obtain ⟨hlength, hr₁⟩ := WireReader.take_ok.mp htake
    cases hutf8 : ofUtf8 bytes with
    | none => simp [hutf8] at htext
    | some found =>
        simp only [hutf8, Except.ok.injEq, Prod.mk.injEq] at htext
        obtain ⟨rfl, rfl⟩ := htext
        rw [ofUtf8_eq_some] at hutf8
        rw [← hutf8]
        have hbound : len.toNat < 256 := len.toNat_lt
        refine ⟨by omega, ?_⟩
        rw [hlen, hr₁, WireReader.unread_unread, shortStringBytes, ← hutf8, hlength,
          UInt8.ofNat_toNat]
  · rintro ⟨hbound, rfl⟩
    have hlength : (UInt8.ofNat text.toUTF8.toList.length).toNat = text.toUTF8.toList.length :=
      UInt8.toNat_ofNat_of_lt' hbound
    refine ⟨UInt8.ofNat text.toUTF8.toList.length, r'.unread text.toUTF8.toList, ?_,
      text.toUTF8.toList, r', ?_, ?_⟩
    · rw [WireReader.u8_ok, WireReader.unread_unread]
      rfl
    · rw [WireReader.take_ok]
      exact ⟨hlength.symm, rfl⟩
    · rw [ofUtf8_toUTF8]

/-- A socket address is exactly its sixteen bytes. -/
theorem sockAddr_decode_ok {data : Bytes} {address : SockAddrInfo} :
    SockAddrInfo.decode data = .ok address ↔
      address.sinZero.length = 8 ∧ data = address.encode := by
  unfold SockAddrInfo.decode
  simp only [bind_ok, Prod.exists]
  constructor
  · rintro ⟨family, r₁, h₁, port, r₂, h₂, addr, r₃, h₃, zero, r₄, h₄, u, hend, hvalue⟩
    cases hvalue
    rw [WireReader.u16Be_ok] at h₁ h₂
    rw [WireReader.u32Be_ok] at h₃
    obtain ⟨hzero, h₄⟩ := WireReader.take_ok.mp h₄
    have hnil := WireReader.rest_of_expectEnd hend
    refine ⟨hzero, ?_⟩
    have hdata := congrArg WireReader.rest h₁
    rw [h₂, h₃, h₄] at hdata
    simpa [WireReader.withContext, WireReader.unread, hnil, SockAddrInfo.encode] using hdata
  · rintro ⟨hzero, rfl⟩
    obtain ⟨family, port, addr, zero⟩ := address
    have hend : (⟨[], "sockaddr info"⟩ : WireReader).expectEnd = .ok () := rfl
    refine ⟨family.toUInt16, ⟨putU16Be port ++ (putU32Be addr ++ zero), "sockaddr info"⟩, ?_,
      port, ⟨putU32Be addr ++ zero, "sockaddr info"⟩, ?_, addr, ⟨zero, "sockaddr info"⟩, ?_,
      zero, ⟨[], "sockaddr info"⟩, ?_, (), hend, rfl⟩
    · rw [WireReader.u16Be_ok]
      simp [WireReader.withContext, WireReader.unread, SockAddrInfo.encode]
    · rw [WireReader.u16Be_ok]
      rfl
    · rw [WireReader.u32Be_ok]
      rfl
    · rw [WireReader.take_ok]
      exact ⟨hzero, by simp [WireReader.unread]⟩

/-- The attributes are exactly their block. -/
theorem identityObject_read_ok {r r' : WireReader} {object : IdentityObject} :
    IdentityObject.read r = .ok (object, r') ↔
      NameFits object ∧ r = r'.unread (attributeBlock object) := by
  unfold IdentityObject.read
  simp only [bind_ok, Prod.exists, WireReader.u8_ok, WireReader.u16_ok, WireReader.u32_ok,
    shortString_ok]
  constructor
  · rintro ⟨vendor, r₁, rfl, deviceType, r₂, rfl, code, r₃, rfl, major, r₄, rfl, minor, r₅, rfl,
      status, r₆, rfl, serial, r₇, rfl, name, r₈, ⟨hname, rfl⟩, hvalue⟩
    cases hvalue
    refine ⟨hname, ?_⟩
    simp only [WireReader.unread_unread, attributeBlock, List.append_assoc]
  · rintro ⟨hname, rfl⟩
    obtain ⟨⟨vendor⟩, ⟨deviceType⟩, code, major, minor, status, serial, name⟩ := object
    refine ⟨vendor, _, ?_, deviceType, _, rfl, code, _, rfl, major, _, rfl, minor, _, rfl,
      status, _, rfl, serial, _, rfl, name, r', ⟨hname, rfl⟩, rfl⟩
    simp only [WireReader.unread_unread, attributeBlock, List.append_assoc]

/-- An attribute reply is read exactly when it begins with the attributes. -/
theorem parseGetAttributesAll_ok {data : Bytes} {object : IdentityObject} :
    IdentityObject.parseGetAttributesAll data = .ok object ↔
      NameFits object ∧ ∃ tail, data = attributeBlock object ++ tail := by
  unfold IdentityObject.parseGetAttributesAll
  simp only [bind_ok, Prod.exists, identityObject_read_ok]
  constructor
  · rintro ⟨found, r, ⟨hname, hr⟩, hvalue⟩
    cases hvalue
    exact ⟨hname, r.rest, congrArg WireReader.rest hr⟩
  · rintro ⟨hname, tail, rfl⟩
    exact ⟨object, ⟨tail, "identity"⟩, ⟨hname, rfl⟩, rfl⟩

/-- An Identity item is read exactly when it begins with its layout. -/
theorem parseItem_ok {data : Bytes} {id : DeviceIdentity} :
    DeviceIdentity.parseItem data = .ok id ↔
      NameFits id.toIdentityObject ∧ id.socketAddr.sinZero.length = 8 ∧
        ∃ tail, data = identityItem id ++ tail := by
  unfold DeviceIdentity.parseItem
  simp only [bind_ok, Prod.exists, WireReader.u16_ok, WireReader.u8_ok, WireReader.take_ok,
    sockAddr_decode_ok, identityObject_read_ok]
  constructor
  · rintro ⟨version, r₁, h₁, address, r₂, ⟨-, rfl⟩, socketAddr, ⟨hzero, rfl⟩, object, r₃,
      ⟨hname, rfl⟩, state, r₄, rfl, hvalue⟩
    cases hvalue
    refine ⟨hname, hzero, r₄.rest, ?_⟩
    have hdata := congrArg WireReader.rest h₁
    simpa [WireReader.withContext, WireReader.unread, identityItem] using hdata
  · rintro ⟨hname, hzero, tail, rfl⟩
    obtain ⟨object, version, socketAddr, state⟩ := id
    have hlength : socketAddr.encode.length = 16 := by
      simp [SockAddrInfo.encode, putU16Be, putU32Be, hzero]
    refine ⟨version, _, ?_, socketAddr.encode, _, ⟨hlength, rfl⟩, socketAddr, ⟨hzero, rfl⟩,
      object, _, ⟨hname, rfl⟩, state, ⟨tail, "identity"⟩, rfl, rfl⟩
    simp [WireReader.withContext, WireReader.unread, identityItem]

/-! ## The probe -/

/-- The reply's checks pass on exactly the answers to our request. -/
theorem checkListIdentityReply_ok {f : EncapFrame} {id : DeviceIdentity} :
    checkListIdentityReply f = .ok id ↔ ListIdentityReply f id := by
  have hparse : liftWire (DeviceIdentity.parseReply f.data) = .ok id ↔
      ∃ cpf item, Cpf.decode f.data = .ok cpf ∧ cpf.find .identity = some item ∧
        DeviceIdentity.parseItem item.data = .ok id := by
    rw [liftWire_eq_ok]
    unfold DeviceIdentity.parseReply
    simp only [bind_ok]
    constructor
    · rintro ⟨cpf, hcpf, hitem⟩
      cases hfind : cpf.find .identity with
      | none => simp [hfind] at hitem
      | some item =>
          rw [hfind] at hitem
          exact ⟨cpf, item, hcpf, hfind, hitem⟩
    · rintro ⟨cpf, item, hcpf, hfind, hitem⟩
      refine ⟨cpf, hcpf, ?_⟩
      rw [hfind]
      exact hitem
  unfold checkListIdentityReply
  simp only [bind_ok, refuse_ok, not_not, hparse, parseItem_ok]
  constructor
  · rintro ⟨-, hcontext, -, hcommand, -, hstatus, cpf, item, hcpf, hfind, hname, hzero, tail,
      hitem⟩
    exact ⟨hcontext, hcommand, hstatus, hname, hzero, cpf, item, tail, hcpf, hfind, hitem⟩
  · rintro ⟨hcontext, hcommand, hstatus, hname, hzero, cpf, item, tail, hcpf, hfind, hitem⟩
    exact ⟨⟨⟩, hcontext, ⟨⟩, hcommand, ⟨⟩, hstatus, cpf, item, hcpf, hfind, hname, hzero, tail,
      hitem⟩

/-- The probe's request can be encoded. -/
theorem listIdentityRequest_encodes : ∃ bytes, listIdentityRequest.encode = .ok bytes := by
  unfold EncapFrame.encode
  rw [if_neg (by decide)]
  exact ⟨_, rfl⟩

/-- An identity comes of a frame that was read and passed the checks. -/
theorem listIdentityOver_ok {stream : List ReadEvent} {write : WriteEvent}
    {id : DeviceIdentity} :
    listIdentityOver stream write = some (.ok id) ↔
      write = .written ∧ ∃ f, (readOutcome stream []).1 = .frame f ∧ ListIdentityReply f id := by
  unfold listIdentityOver
  cases hsend : sendFrameBy listIdentityRequest write with
  | error e =>
      have hwrite : write ≠ .written := by
        rintro rfl
        rw [(sendFrameBy_ok listIdentityRequest_encodes).mpr rfl] at hsend
        cases hsend
      simp [hwrite]
  | ok u =>
      have hwrite := (sendFrameBy_ok listIdentityRequest_encodes).mp hsend
      cases hread : (readOutcome stream []).1 with
      | frame f =>
          simp only [handshakeFrame, Option.map_some, Option.some.injEq, bind_ok,
            checkListIdentityReply_ok, hwrite, true_and]
          constructor
          · rintro ⟨f', hf, hreply⟩
            cases hf
            exact ⟨f, rfl, hreply⟩
          · rintro ⟨f', hf, hreply⟩
            cases hf
            exact ⟨f, rfl, hreply⟩
      | eof => simp [handshakeFrame, bind, Except.bind]
      | timedOut => simp [handshakeFrame, bind, Except.bind]
      | broken e => simp [handshakeFrame, bind, Except.bind]
      | pending => simp [handshakeFrame]

/-- A frame that was read settles the probe. -/
theorem listIdentityOver_settles {stream : List ReadEvent} {f : EncapFrame}
    (h : (readOutcome stream []).1 = .frame f) :
    ∃ result, listIdentityOver stream .written = some result := by
  unfold listIdentityOver
  rw [(sendFrameBy_ok listIdentityRequest_encodes).mpr rfl, h]
  exact ⟨_, rfl⟩

/-! ## What is shown -/

/-- An identity is read off exactly the replies that begin with its attribute block. -/
theorem readIdentity_some {reply : Except EnipError Bytes} {shown : Device.DeviceIdentity} :
    readIdentity reply = some shown ↔
      ∃ object tail, NameFits object ∧
        reply = .ok (attributeBlock object ++ tail) ∧ shown = toSeam object := by
  cases reply with
  | error e => simp [readIdentity]
  | ok data =>
      simp only [readIdentity, Option.map_eq_some_iff, Except.ok.injEq]
      constructor
      · rintro ⟨object, hparse, rfl⟩
        have hok : IdentityObject.parseGetAttributesAll data = .ok object := by
          cases hresult : IdentityObject.parseGetAttributesAll data with
          | error e =>
              rw [hresult] at hparse
              cases hparse
          | ok found =>
              rw [hresult] at hparse
              cases hparse
              rfl
        obtain ⟨hname, tail, hdata⟩ := parseGetAttributesAll_ok.mp hok
        exact ⟨object, tail, hname, hdata, rfl⟩
      · rintro ⟨object, tail, hname, hdata, rfl⟩
        refine ⟨object, ?_, rfl⟩
        rw [parseGetAttributesAll_ok.mpr ⟨hname, tail, hdata⟩]
        rfl

/-- The probe and the read keep the contract of the identity. -/
theorem identity_spells_device (stream : List ReadEvent) (write : WriteEvent) :
    IdentityContract stream write := by
  have hanswered : ∀ id, listIdentityOver stream write = some (.ok id) →
      write = .written ∧
        ∃ f later, framesOf (received stream) = f :: later ∧ ListIdentityReply f id := by
    intro id hid
    obtain ⟨hwritten, f, hread, hreply⟩ := listIdentityOver_ok.mp hid
    have hstep := readOutcome_step stream []
    obtain ⟨⟨outcome, buf, rest⟩, hresult⟩ : ∃ read, readOutcome stream [] = read := ⟨_, rfl⟩
    rw [hresult] at hread hstep
    cases hread
    exact ⟨hwritten, f, _, hstep.1, hreply⟩
  refine ⟨hanswered, ?_, fun reply shown => readIdentity_some, ?_⟩
  · rintro rfl chunks later f fs rfl hchunks hframes
    have hread : (readOutcome (chunks.map ReadEvent.bytes ++ later) []).1 = .frame f :=
      readOutcome_first hchunks [] hframes
    have hiff : ∀ id, listIdentityOver (chunks.map ReadEvent.bytes ++ later) .written =
        some (.ok id) ↔ ListIdentityReply f id := by
      intro id
      constructor
      · intro hid
        obtain ⟨-, f', hread', hreply⟩ := listIdentityOver_ok.mp hid
        rw [hread] at hread'
        cases hread'
        exact hreply
      · intro hreply
        exact listIdentityOver_ok.mpr ⟨rfl, f, hread, hreply⟩
    refine ⟨hiff, ?_⟩
    intro hrefused
    obtain ⟨result, hresult⟩ := listIdentityOver_settles hread
    cases result with
    | ok id => exact absurd ⟨id, (hiff id).mp hresult⟩ hrefused
    | error e => exact ⟨e, hresult⟩
  · intro id hid tail
    obtain ⟨-, f, -, -, hreply⟩ := hanswered id hid
    exact readIdentity_some.mpr ⟨id.toIdentityObject, tail, hreply.name, rfl, rfl⟩

end EnipAdapter.Analysis
