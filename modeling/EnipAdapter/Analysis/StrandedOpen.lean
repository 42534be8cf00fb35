import EnipAdapter.Analysis.RequestPayload
import EnipAdapter.Interface.OpenContract

/-!
# What happens to a connection the target has opened

Past the target's success reply the target believes a connection is open. Both openers must
then either own the connection or take it down again. They do so exactly when the body of
the success reply decodes: the failure to decode it is the one exit between the success
status and the teardown.
-/

set_option autoImplicit false

namespace EnipAdapter.Analysis

open EnipAdapter.Interface EnipAdapter.Model

/-! ## The teardown always goes out -/

/-- The close of an open that was encoded can be encoded, and is short. -/
theorem closesFor_of_encode {open_ : ForwardOpenRequest} {data : Bytes}
    (h : open_.encode = .ok data) :
    ∃ closeData, (ForwardCloseRequest.forOpen open_).encode = .ok closeData ∧
      closeData.length ≤ 522 ∧ ClosesFor open_ closeData := by
  obtain ⟨pathBytes, hpath, -⟩ := ForwardOpenRequest.path_of_encode h
  have hbound := (EPath.length_le_of_encode hpath).2
  obtain ⟨closeData, henc, hlen⟩ :=
    ForwardCloseRequest.encode_of_path (r := ForwardCloseRequest.forOpen open_) hpath
  exact ⟨closeData, henc, by omega, ForwardCloseRequest.forOpen open_, rfl, rfl, rfl, rfl, henc⟩

/-- A close is shorter than its open. -/
theorem closesFor_length_add_two_le {open_ : ForwardOpenRequest} {data closeData : Bytes}
    (hc : ClosesFor open_ closeData) (h : open_.encode = .ok data) :
    closeData.length + 2 ≤ data.length := by
  obtain ⟨close, -, -, -, hpath, henc⟩ := hc
  obtain ⟨pathBytes, hopen, hlen⟩ := ForwardOpenRequest.path_of_encode h
  obtain ⟨bytes, henc', hlen'⟩ :=
    ForwardCloseRequest.encode_of_path (r := close) (by rw [hpath]; exact hopen)
  rw [henc] at henc'
  cases henc'
  omega

/-- Wrapping a Connection-Manager request adds its six-byte head to the body. -/
theorem wrapConnectionManager_eq {r : RoutePath} {routeBytes : Bytes} (service : UInt8)
    (data : Bytes) (hroute : r.toEpath.encode = .ok routeBytes) :
    ∃ body, body.length = data.length + data.length % 2 + routeBytes.length + 12 ∧
      wrapUnconnectedSend ⟨service, connectionManagerPath, data⟩ r =
        if data.length + 6 ≥ 2 ^ 16 then .error (.tooLarge 65535)
        else .ok ⟨unconnectedSendService, connectionManagerPath, body⟩ := by
  obtain ⟨body, hbody, hwrap⟩ :=
    wrapUnconnectedSend_eq (encode_connectionManager service data) hroute
  have hlen : ([service, 2, 0x20, 0x06, 0x24, 0x01] ++ data).length = data.length + 6 := by
    simp only [List.length_append, List.length_cons, List.length_nil]
    omega
  rw [hlen] at hbody hwrap
  exact ⟨body, by omega, hwrap⟩

/-- A short Connection-Manager request goes out along every route the open went out along. -/
theorem unconnectedPayload_of_short {route : Option RoutePath} {mr : MessageRequest}
    {data payload : Bytes} (service : UInt8)
    (hopen : unconnectedPayload route mr = .ok payload) (hlen : data.length ≤ 522) :
    ∃ payload', unconnectedPayload route ⟨service, connectionManagerPath, data⟩ =
      .ok payload' := by
  apply unconnectedPayload_of_route (encode_connectionManager service data)
  · simp only [List.length_append, List.length_cons, List.length_nil]
    omega
  · -- the route was encoded for the open
    intro r hr hne
    cases hr
    simp only [unconnectedPayload, hne, if_false] at hopen
    cases hw : wrapUnconnectedSend mr r with
    | error e => simp [hw, bind, Except.bind] at hopen
    | ok outer => exact route_of_wrap hw

/-- Two Connection-Manager requests whose lengths differ by two or more have different
payloads on the same route. -/
theorem unconnectedPayload_ne {route : Option RoutePath} {service service' : UInt8}
    {data data' payload payload' : Bytes}
    (h : unconnectedPayload route ⟨service, connectionManagerPath, data⟩ = .ok payload)
    (h' : unconnectedPayload route ⟨service', connectionManagerPath, data'⟩ = .ok payload')
    (hlen : data'.length + 2 ≤ data.length) : payload' ≠ payload := by
  have hdirect : ∀ (s : UInt8) (d p : Bytes), (do
      let mrBytes ← MessageRequest.encode ⟨s, connectionManagerPath, d⟩
      encapDataWithCpf ⟨[CpfItem.nullAddress, CpfItem.unconnectedData mrBytes]⟩) = .ok p →
        p.length = d.length + 22 := by
    intro s d p hp
    rw [encode_connectionManager] at hp
    rw [encapData_length hp]
    simp only [List.length_append, List.length_cons, List.length_nil]
    omega
  suffices hlt : payload'.length < payload.length by
    rintro rfl
    exact lt_irrefl _ hlt
  rcases route with _ | r
  · rw [hdirect _ _ _ h, hdirect _ _ _ h']
    omega
  · unfold unconnectedPayload at h h'
    by_cases hempty : r.segments = []
    · simp only [hempty, if_true] at h h'
      rw [hdirect _ _ _ h, hdirect _ _ _ h']
      omega
    · simp only [hempty, if_false] at h h'
      cases hw : wrapUnconnectedSend ⟨service, connectionManagerPath, data⟩ r with
      | error e => simp [hw, bind, Except.bind] at h
      | ok outer =>
          obtain ⟨routeBytes, hroute⟩ := route_of_wrap hw
          obtain ⟨body, hbody, hwrap⟩ := wrapConnectionManager_eq service data hroute
          obtain ⟨body', hbody', hwrap'⟩ := wrapConnectionManager_eq service' data' hroute
          rw [hwrap] at hw h
          by_cases hlong : data.length + 6 ≥ 2 ^ 16
          · rw [if_pos hlong] at hw
            cases hw
          · rw [if_neg hlong] at h
            rw [hwrap', if_neg (by omega)] at h'
            have hp := hdirect _ _ _ h
            have hp' := hdirect _ _ _ h'
            omega

/-! ## The class-1 opener -/

/-- An `Ok` verdict of the manager task means the connection is registered. -/
theorem armConnection_registered {params : IoConnectionParams} {env : OpenEnv}
    {m : Option Manager} (h : armConnection params env = (m, .ok ())) :
    ∃ m' conn, m = some m' ∧ m'.registry.conns.lookup params.t2oConnectionId = some conn := by
  unfold armConnection at h
  cases hl : env.link with
  | gone => simp [hl] at h
  | ackDropped => simp [hl] at h
  | served m₀ join =>
      simp only [hl, Prod.mk.injEq] at h
      obtain ⟨hm, hverdict⟩ := h
      refine ⟨_, IoConnection.new params env.now, hm.symm, ?_⟩
      unfold Manager.step at hverdict ⊢
      by_cases hrun : m₀.running = true
      · rw [if_pos hrun] at hverdict ⊢
        simp only [Manager.command, Manager.addConnection] at hverdict ⊢
        split at hverdict
        · simp [verdictOn] at hverdict
        · simp only [if_true, AList.lookup_insert]
      · rw [if_neg hrun] at hverdict
        simp [verdictOn] at hverdict

/-- What the class-1 opener does after a success reply, up to the body of that reply. -/
theorem forwardOpen_of_success (localPort : UInt16) {spec : IoConnectionSpec} {env : OpenEnv}
    {open_ : ForwardOpenRequest} {cpf : Cpf} {reply : MessageReply}
    (h : Class1Succeeded spec env open_ cpf reply) :
    ∃ issued : CmRequest, issued.1.service = open_.service ∧
      match ForwardOpenSuccess.decode reply.data with
      | .error e => forwardOpen localPort spec env =
          ⟨[issued], none, .error (.malformed e)⟩
      | .ok success =>
          match negotiate spec open_ cpf success env.targetIp with
          | .error e => forwardOpen localPort spec env =
              ⟨issued :: bestEffortForwardClose open_, none, .error e⟩
          | .ok params =>
              match armConnection params env with
              | (m, .error e) => forwardOpen localPort spec env =
                  ⟨issued :: bestEffortForwardClose open_, m, .error e⟩
              | (m, .ok ()) => ∃ handle, handle.connectionId = open_.tOConnectionId ∧
                  forwardOpen localPort spec env = ⟨[issued], m, .ok handle⟩ := by
  obtain ⟨data, henc⟩ := h.encoded
  refine ⟨(⟨open_.service, connectionManagerPath, data⟩,
    [⟨.sockAddrOtoT, (SockAddrInfo.ipv4 0 localPort).encode⟩,
      ⟨.sockAddrTtoO, (SockAddrInfo.ipv4 0 localPort).encode⟩]), rfl, ?_⟩
  unfold forwardOpen
  simp only [h.built, henc, h.answered, h.matched, h.success, bind, Except.bind, pure,
    Except.pure, not_true_eq_false, if_false]
  cases ForwardOpenSuccess.decode reply.data with
  | error e => rfl
  | ok success =>
      simp only [liftWire_ok]
      cases negotiate spec open_ cpf success env.targetIp with
      | error e => rfl
      | ok params =>
          simp only
          obtain ⟨m, verdict⟩ := armConnection params env
          cases verdict with
          | error e => rfl
          | ok v => exact ⟨_, rfl, rfl⟩

/-- The close of an open that went out is the one request of the teardown. -/
theorem bestEffortForwardClose_of_encode {open_ : ForwardOpenRequest} {data : Bytes}
    (h : open_.encode = .ok data) :
    ∃ closeData, ClosesFor open_ closeData ∧ bestEffortForwardClose open_ =
      [(⟨forwardCloseService, connectionManagerPath, closeData⟩, [])] := by
  obtain ⟨closeData, henc, -, hcloses⟩ := closesFor_of_encode h
  refine ⟨closeData, hcloses, ?_⟩
  unfold bestEffortForwardClose
  rw [henc]

/-- No ForwardOpen goes out under the ForwardClose service. -/
theorem service_ne_forwardClose (open_ : ForwardOpenRequest) :
    open_.service ≠ forwardCloseService := by
  unfold ForwardOpenRequest.service
  split_ifs <;> decide

/-- Class 1: after a success reply, nothing is stranded exactly when the body decodes. -/
theorem class1_settled_iff_decodes {localPort : UInt16} {spec : IoConnectionSpec}
    {env : OpenEnv} {open_ : ForwardOpenRequest} {cpf : Cpf} {reply : MessageReply}
    (h : Class1Succeeded spec env open_ cpf reply) :
    ((∃ handle m conn, (forwardOpen localPort spec env).result = .ok handle ∧
      (forwardOpen localPort spec env).manager = some m ∧
      m.registry.conns.lookup handle.connectionId = some conn) ∨
    (∃ e data, (forwardOpen localPort spec env).result = .error e ∧ ClosesFor open_ data ∧
      (⟨forwardCloseService, connectionManagerPath, data⟩, []) ∈
        (forwardOpen localPort spec env).issued)) ↔
    ∃ success, ForwardOpenSuccess.decode reply.data = .ok success := by
  obtain ⟨issued, hservice, hrun⟩ := forwardOpen_of_success localPort h
  obtain ⟨data, henc⟩ := h.encoded
  obtain ⟨closeData, hcloses, hclose⟩ := bestEffortForwardClose_of_encode henc
  cases hd : ForwardOpenSuccess.decode reply.data with
  | error e =>
      simp only [hd] at hrun
      rw [hrun]
      constructor
      · rintro (⟨handle, m, conn, hres, -, -⟩ | ⟨e', closeData', -, -, hmem⟩)
        · cases hres
        · simp only [List.mem_singleton] at hmem
          rw [← hmem] at hservice
          exact absurd hservice.symm (service_ne_forwardClose open_)
      · rintro ⟨success, hs⟩
        cases hs
  | ok success =>
      refine ⟨fun _ => ⟨success, rfl⟩, fun _ => ?_⟩
      simp only [hd] at hrun
      cases hn : negotiate spec open_ cpf success env.targetIp with
      | error e =>
          simp only [hn] at hrun
          rw [hrun]
          exact Or.inr ⟨e, closeData, rfl, hcloses, by simp [hclose]⟩
      | ok params =>
          simp only [hn] at hrun
          obtain ⟨⟨m, verdict⟩, harm⟩ : ∃ r, armConnection params env = r := ⟨_, rfl⟩
          rw [harm] at hrun
          cases verdict with
          | error e =>
              simp only at hrun
              rw [hrun]
              exact Or.inr ⟨e, closeData, rfl, hcloses, by simp [hclose]⟩
          | ok v =>
              obtain ⟨handle, hid, heq⟩ := hrun
              obtain ⟨m', conn, rfl, hconn⟩ := armConnection_registered harm
              rw [heq]
              refine Or.inl ⟨handle, m', conn, rfl, rfl, ?_⟩
              rw [hid, ← (negotiate_ok hn).2]
              exact hconn

/-! ## The class-3 opener -/

/-- What the class-3 opener does after a success reply, up to the body of that reply. -/
theorem openClass3_of_success {route : Option RoutePath} {opts : ClientOptions}
    {env : Class3Env} {reply : MessageReply} (h : Class3Succeeded route opts env reply) :
    ∃ data payload, (class3Open opts env).encode = .ok data ∧
      unconnectedPayload route ⟨(class3Open opts env).service, connectionManagerPath, data⟩ =
        .ok payload ∧
      match ForwardOpenSuccess.decode reply.data with
      | .error e => openClass3 route opts env =
          ⟨[(.sendRRData, payload)], .error (.malformed e)⟩
      | .ok success =>
          match verifyForwardOpenEcho (class3Open opts env) success with
          | .error e => openClass3 route opts env =
              ⟨(.sendRRData, payload) ::
                class3ForwardClose route (class3Open opts env) (env.answers 1), .error e⟩
          | .ok () => ∃ state,
              openClass3 route opts env = ⟨[(.sendRRData, payload)], .ok state⟩ := by
  obtain ⟨data, payload, henc, hpayload⟩ := h.sent
  obtain ⟨frame, hanswer, hparse⟩ := h.answered
  refine ⟨data, payload, henc, hpayload, ?_⟩
  unfold openClass3
  simp only [henc, sendUnconnected, hpayload, hanswer, Except.bind, hparse, bind, h.matched,
    pure, Except.pure, h.success, not_true_eq_false, if_false]
  cases ForwardOpenSuccess.decode reply.data with
  | error e => rfl
  | ok success =>
      simp only [liftWire_ok]
      cases verifyForwardOpenEcho (class3Open opts env) success with
      | error e => rfl
      | ok v => exact ⟨_, rfl⟩

/-- Class 3: after a success reply, nothing is stranded exactly when the body decodes. -/
theorem class3_settled_iff_decodes {route : Option RoutePath} {opts : ClientOptions}
    {env : Class3Env} {reply : MessageReply} (h : Class3Succeeded route opts env reply) :
    ((∃ state, (openClass3 route opts env).result = .ok state) ∨
    (∃ e data payload, (openClass3 route opts env).result = .error e ∧
      ClosesFor (class3Open opts env) data ∧
      unconnectedPayload route ⟨forwardCloseService, connectionManagerPath, data⟩ =
        .ok payload ∧
      (.sendRRData, payload) ∈ (openClass3 route opts env).issued)) ↔
    ∃ success, ForwardOpenSuccess.decode reply.data = .ok success := by
  obtain ⟨data, payload, henc, hpayload, hrun⟩ := openClass3_of_success h
  cases hd : ForwardOpenSuccess.decode reply.data with
  | error e =>
      simp only [hd] at hrun
      rw [hrun]
      constructor
      · rintro (⟨state, hres⟩ | ⟨e', closeData, payload', -, hcloses, hpayload', hmem⟩)
        · cases hres
        · simp only [List.mem_singleton, Prod.mk.injEq, true_and] at hmem
          exact absurd hmem
            (unconnectedPayload_ne hpayload hpayload' (closesFor_length_add_two_le hcloses henc))
      · rintro ⟨success, hs⟩
        cases hs
  | ok success =>
      refine ⟨fun _ => ⟨success, rfl⟩, fun _ => ?_⟩
      simp only [hd] at hrun
      cases hv : verifyForwardOpenEcho (class3Open opts env) success with
      | error e =>
          simp only [hv] at hrun
          obtain ⟨closeData, hclose, hshort, hcloses⟩ := closesFor_of_encode henc
          obtain ⟨payload', hpayload'⟩ :=
            unconnectedPayload_of_short forwardCloseService hpayload hshort
          rw [hrun]
          refine Or.inr ⟨e, closeData, payload', rfl, hcloses, hpayload', ?_⟩
          simp [class3ForwardClose, hclose, sendUnconnected, hpayload']
      | ok v =>
          simp only [hv] at hrun
          obtain ⟨state, heq⟩ := hrun
          rw [heq]
          exact Or.inl ⟨state, rfl⟩

/-- A successful ForwardOpen is not left stranded exactly when the body of its success reply
decodes, for the class-1 and for the class-3 opener. -/
theorem forward_open_not_stranded_iff (localPort : UInt16) (spec : IoConnectionSpec)
    (env : OpenEnv) (route : Option RoutePath) (opts : ClientOptions) (env3 : Class3Env) :
    (Class1NotStranded localPort spec env ↔
      ∀ open_ cpf reply, Class1Succeeded spec env open_ cpf reply →
        ∃ success, ForwardOpenSuccess.decode reply.data = .ok success) ∧
    (Class3NotStranded route opts env3 ↔
      ∀ reply, Class3Succeeded route opts env3 reply →
        ∃ success, ForwardOpenSuccess.decode reply.data = .ok success) := by
  constructor
  · constructor
    · intro h open_ cpf reply hsuccess
      exact (class1_settled_iff_decodes hsuccess).mp (h open_ cpf reply hsuccess)
    · intro h open_ cpf reply hsuccess
      exact (class1_settled_iff_decodes hsuccess).mpr (h open_ cpf reply hsuccess)
  · constructor
    · intro h reply hsuccess
      exact (class3_settled_iff_decodes hsuccess).mp (h reply hsuccess)
    · intro h reply hsuccess
      exact (class3_settled_iff_decodes hsuccess).mpr (h reply hsuccess)

/-! ## A success reply without a body -/

/-- A connection to assemblies 100 and 150. -/
def sampleSpec : IoConnectionSpec where
  assembly := ⟨none, 100, 150, []⟩
  t2o := ⟨Duration.fromMillis 10, 4, .modeless, .p2p, .scheduled, .fixed⟩
  o2t := ⟨Duration.fromMillis 10, 4, .header32Bit, .p2p, .scheduled, .fixed⟩
  timeoutMultiplier := .x4
  trigger := .cyclic
  vendorId := 0x1337

/-- A target that answers the class-1 ForwardOpen with success and no body. -/
def bodilessEnv : OpenEnv where
  randomConnectionId := 0x11223344
  randomSerial := 7
  randomOriginator := 0x01020304
  answers := fun _ => .ok ⟨[CpfItem.nullAddress, CpfItem.unconnectedData [0xD4, 0, 0, 0]]⟩
  targetIp := some (.v4 0x0A000001)
  link := .gone
  eventsTx := ⟨0⟩
  now := 0

def sampleOptions : ClientOptions := ⟨none, 0x1337, Duration.fromSecs 2, .x16⟩

/-- A target that answers the class-3 ForwardOpen with success and no body. -/
def bodilessClass3Env : Class3Env where
  randomConnectionId := 0x11223344
  randomSerial := 7
  randomOriginator := 0x01020304
  answers := fun _ => .ok
    ⟨EncapHeader.request .sendRRData 20 1 (List.replicate 8 0),
      [0, 0, 0, 0, 0, 0, 2, 0, 0, 0, 0, 0, 0xB2, 0, 4, 0, 0xD4, 0, 0, 0]⟩

/-- Both openers leave that connection open. -/
theorem forward_open_stranded :
    ¬ Class1NotStranded 40000 sampleSpec bodilessEnv ∧
    ¬ Class3NotStranded none sampleOptions bodilessClass3Env := by
  constructor
  · intro h
    have hsuccess : Class1Succeeded sampleSpec bodilessEnv
        (ForwardOpenRequest.class1 0x11223345 7 0x1337 0x01020304 .x4 10000
          (.io 10 .fixed .scheduled .p2p) 10000 (.io 6 .fixed .scheduled .p2p) 0x01
          (ioConnectionPath none 100 150) false)
        ⟨[CpfItem.nullAddress, CpfItem.unconnectedData [0xD4, 0, 0, 0]]⟩
        ⟨0xD4, ⟨.success, []⟩, []⟩ :=
      ⟨by decide, ⟨_, rfl⟩, rfl, by decide, rfl⟩
    obtain ⟨success, hdecode⟩ :=
      (class1_settled_iff_decodes hsuccess).mp (h _ _ _ hsuccess)
    cases hdecode
  · intro h
    have hsuccess : Class3Succeeded none sampleOptions bodilessClass3Env
        ⟨0xD4, ⟨.success, []⟩, []⟩ :=
      ⟨⟨_, _, rfl, rfl⟩, ⟨_, rfl, by decide⟩, by decide, rfl⟩
    obtain ⟨success, hdecode⟩ :=
      (class3_settled_iff_decodes hsuccess).mp (h _ hsuccess)
    cases hdecode

end EnipAdapter.Analysis
