import EnipAdapter.Model.Client

/-!
# Whether a request can be put on the wire

The lengths of what an unconnected request becomes on its way out: the Message Router bytes,
the Unconnected_Send around them, and the packet. A request with a short payload goes out
whenever its path and its route encode.
-/

set_option autoImplicit false

namespace EnipAdapter.Analysis

open EnipAdapter.Model

/-- A message on the Connection Manager path encodes to its data and a six-byte head. -/
theorem encode_connectionManager (service : UInt8) (data : Bytes) :
    MessageRequest.encode ⟨service, connectionManagerPath, data⟩ =
      .ok ([service, 2, 0x20, 0x06, 0x24, 0x01] ++ data) := rfl

/-- The encapsulation data of one unconnected message: sixteen bytes and the message, if
its length fits the item's length field. -/
theorem encapData_eq (bytes : Bytes) :
    encapDataWithCpf ⟨[CpfItem.nullAddress, CpfItem.unconnectedData bytes]⟩ =
      if bytes.length < 2 ^ 16 then
        .ok (putU32 0 ++ putU16 0 ++ (putU16 2 ++ ([0, 0, 0, 0] ++
          (putU16 ItemType.unconnectedData.code ++ putU16 (UInt16.ofNat bytes.length) ++
            bytes))))
      else .error (.malformed (.overflow "cpf")) := by
  have hnull : CpfItem.nullAddress.write = .ok [0, 0, 0, 0] := rfl
  have hitem : (CpfItem.unconnectedData bytes).write =
      if bytes.length < 2 ^ 16 then
        .ok (putU16 ItemType.unconnectedData.code ++ putU16 (UInt16.ofNat bytes.length) ++
          bytes)
      else .error (.overflow "cpf") := rfl
  by_cases hlen : bytes.length < 2 ^ 16
  · rw [if_pos hlen] at hitem ⊢
    simp only [encapDataWithCpf, Cpf.encode, Cpf.writeItems, hitem, hnull, bind, Except.bind,
      pure, Except.pure, List.append_nil]
    rfl
  · rw [if_neg hlen] at hitem ⊢
    simp only [encapDataWithCpf, Cpf.encode, Cpf.writeItems, hitem, hnull, bind, Except.bind]
    rfl

/-- An unconnected request takes 16 bytes more than its Message Router bytes. -/
theorem encapData_length {bytes payload : Bytes}
    (h : encapDataWithCpf ⟨[CpfItem.nullAddress, CpfItem.unconnectedData bytes]⟩ =
      .ok payload) : payload.length = bytes.length + 16 := by
  rw [encapData_eq] at h
  split_ifs at h
  cases h
  simp only [List.length_append, List.length_cons, List.length_nil, putU16_length,
    putU32_length]
  omega

/-- Two items that fit their length fields always make a packet. -/
theorem encapDataWithCpf_pair {a b : CpfItem} (ha : a.data.length < 2 ^ 16)
    (hb : b.data.length < 2 ^ 16) : ∃ payload, encapDataWithCpf ⟨[a, b]⟩ = .ok payload := by
  have hwa : a.write =
      .ok (putU16 a.typeId.code ++ putU16 (UInt16.ofNat a.data.length) ++ a.data) := if_pos ha
  have hwb : b.write =
      .ok (putU16 b.typeId.code ++ putU16 (UInt16.ofNat b.data.length) ++ b.data) := if_pos hb
  have hcount : [a, b].length < 2 ^ 16 := by
    simp only [List.length_cons, List.length_nil]
    omega
  simp only [encapDataWithCpf, Cpf.encode, Cpf.writeItems, hwa, hwb, if_pos hcount, bind,
    Except.bind, pure, Except.pure, liftWire_ok]
  exact ⟨_, rfl⟩

/-- A request encodes when its path does. -/
theorem encode_of_path {mr : MessageRequest} {pathBytes : Bytes}
    (h : mr.path.encode = .ok pathBytes) :
    ∃ emb, mr.encode = .ok emb ∧ emb.length = pathBytes.length + mr.data.length + 2 := by
  refine ⟨[mr.service, UInt8.ofNat (pathBytes.length / 2)] ++ pathBytes ++ mr.data, ?_, ?_⟩
  · simp only [MessageRequest.encode, h, pathWords_of_encode h, bind, Except.bind, pure,
      Except.pure]
  · simp only [List.length_append, List.length_cons, List.length_nil]
    omega

/-- Wrapping a request along a route that encodes: the body of the Unconnected_Send, if the
request fits it. -/
theorem wrapUnconnectedSend_eq {r : RoutePath} {mr : MessageRequest} {emb routeBytes : Bytes}
    (hmr : mr.encode = .ok emb) (hroute : r.toEpath.encode = .ok routeBytes) :
    ∃ body, body.length = emb.length + emb.length % 2 + routeBytes.length + 6 ∧
      wrapUnconnectedSend mr r =
        if emb.length ≥ 2 ^ 16 then .error (.tooLarge 65535)
        else .ok ⟨unconnectedSendService, connectionManagerPath, body⟩ := by
  simp only [wrapUnconnectedSend, hmr, hroute, pathWords_of_encode hroute, bind, Except.bind,
    pure, Except.pure]
  refine ⟨_, ?_, rfl⟩
  simp only [List.length_append, List.length_cons, List.length_nil, putU16_length]
  split_ifs <;> simp only [List.length_cons, List.length_nil] <;> omega

/-- A request that was wrapped along a route shows that the route encodes. -/
theorem route_of_wrap {inner outer : MessageRequest} {r : RoutePath}
    (h : wrapUnconnectedSend inner r = .ok outer) :
    ∃ routeBytes, r.toEpath.encode = .ok routeBytes := by
  unfold wrapUnconnectedSend at h
  cases hi : inner.encode with
  | error e => simp [hi, bind, Except.bind] at h
  | ok emb =>
      simp only [hi, bind, Except.bind] at h
      by_cases hlong : emb.length ≥ 2 ^ 16
      · rw [if_pos hlong] at h
        cases h
      · rw [if_neg hlong] at h
        cases hr : r.toEpath.encode with
        | error e => simp [hr] at h
        | ok routeBytes => exact ⟨routeBytes, rfl⟩

/-- A short request goes out along every route that encodes. -/
theorem unconnectedPayload_of_route {route : Option RoutePath} {mr : MessageRequest} {emb : Bytes}
    (hmr : mr.encode = .ok emb) (hlen : emb.length ≤ 1050)
    (hroute : ∀ r ∈ route, r.segments ≠ [] → ∃ bytes, r.toEpath.encode = .ok bytes) :
    ∃ payload, unconnectedPayload route mr = .ok payload := by
  have hdirect : ∀ {outer : MessageRequest} {bytes : Bytes}, outer.encode = .ok bytes →
      bytes.length < 2 ^ 16 → ∃ payload, (do
        let mrBytes ← outer.encode
        encapDataWithCpf ⟨[CpfItem.nullAddress, CpfItem.unconnectedData mrBytes]⟩) =
          .ok payload := by
    intro outer bytes houter hshort
    rw [houter]
    exact encapDataWithCpf_pair (by decide) hshort
  cases route with
  | none => exact hdirect hmr (by omega)
  | some r =>
    unfold unconnectedPayload
    by_cases hempty : r.segments = []
    · simp only [hempty, if_true]
      exact hdirect hmr (by omega)
    · obtain ⟨routeBytes, hbytes⟩ := hroute r rfl hempty
      obtain ⟨body, hbody, hwrap⟩ := wrapUnconnectedSend_eq hmr hbytes
      have hbound := (EPath.length_le_of_encode hbytes).2
      rw [if_neg (by omega)] at hwrap
      simp only [hempty, if_false, hwrap]
      apply hdirect (encode_connectionManager unconnectedSendService body)
      simp only [List.length_append, List.length_cons, List.length_nil]
      omega

end EnipAdapter.Analysis
