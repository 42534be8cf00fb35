import EnipAdapter.Analysis.PathRoundTrip
import EnipAdapter.Analysis.RequestPayload

/-!
# Which requests travel their route once

The journey of every request a client sends, and from it the exact condition under which the
route is travelled once. An Unconnected_Send and a connection path carry a route each; a class-3
connection is opened and closed with the route in both.
-/

set_option autoImplicit false

namespace EnipAdapter.Analysis

open EnipAdapter.Foundation
open EnipAdapter.Interface
open EnipAdapter.Model

/-! ## Routes on the wire -/

/-- Only the path of the Connection Manager is read as it. -/
theorem map_segmentOnWire_ne {path : EPath} (h : path ≠ connectionManagerPath) :
    path.segments.map segmentOnWire ≠ connectionManagerPath.segments := by
  intro hwire
  apply h
  have hself : path.segments.map segmentOnWire = path.segments := by
    rw [map_segmentOnWire_eq_self_iff]
    intro s hs
    have hmem : segmentOnWire (.port s) ∈ connectionManagerPath.segments := by
      rw [← hwire]
      exact List.mem_map_of_mem hs
    -- the Connection Manager's path has no port segment
    cases hmem with
    | tail _ hmem =>
        cases hmem with
        | tail _ hmem => cases hmem
  have hsegments : path.segments = connectionManagerPath.segments := by rw [← hself, hwire]
  cases path with
  | mk segments =>
      have heq : segments = connectionManagerPath.segments := hsegments
      rw [heq]

/-- A list of port segments is read as the ports it is. -/
theorem portsOf_map (route : List PortSegment) :
    portsOf ((route.map Segment.port).map segmentOnWire) = some (route.map portOnWire) := by
  induction route with
  | nil => rfl
  | cons s route ih =>
      show (portsOf ((route.map Segment.port).map segmentOnWire)).map (portOnWire s :: ·) = _
      rw [ih]
      rfl

/-- A path that does not start with a port segment. -/
def StartsAtObject (path : List Segment) : Prop := splitRoute path = ([], path)

/-- A route in front of an object's path is split off as it was put there. -/
theorem splitRoute_map (route : List PortSegment) {base : List Segment}
    (hbase : StartsAtObject (base.map segmentOnWire)) :
    splitRoute ((route.map Segment.port ++ base).map segmentOnWire) =
      (route.map portOnWire, base.map segmentOnWire) := by
  induction route with
  | nil => exact hbase
  | cons s route ih =>
      show (portOnWire s :: (splitRoute ((route.map Segment.port ++ base).map segmentOnWire)).1,
        (splitRoute ((route.map Segment.port ++ base).map segmentOnWire)).2) = _
      rw [ih]
      rfl

/-! ## The wrapper -/

/-- An Unconnected_Send, read at the length in front of its embedded request. -/
theorem readUnconnectedSend_of_drop {a b words reserved : UInt8} {rest tail : Bytes}
    (hdrop : rest.drop (ofLeBytes [a, b] + ofLeBytes [a, b] % 2) = words :: reserved :: tail)
    (tick ticks : UInt8) :
    readUnconnectedSend (tick :: ticks :: a :: b :: rest) = (do
      let request ← readRequest (rest.take (ofLeBytes [a, b]))
      let sized ← readSizedPath words tail
      let route ← portsOf sized.1
      pure (route, request)) := by
  simp only [readUnconnectedSend, hdrop]

/-- A wrapped request and its route are read back, whether the request has an odd or an even
length. -/
theorem readUnconnectedSend_wrap {inner outer : MessageRequest} {r : RoutePath}
    (h : wrapUnconnectedSend inner r = .ok outer) :
    outer.service = unconnectedSendService ∧ outer.path = connectionManagerPath ∧
      readUnconnectedSend outer.data = some (r.segments.map portOnWire,
        ⟨inner.service, inner.path.segments.map segmentOnWire, inner.data⟩) := by
  unfold wrapUnconnectedSend at h
  cases hi : inner.encode with
  | error e => simp [hi, bind, Except.bind] at h
  | ok emb =>
    simp only [hi, bind, Except.bind] at h
    by_cases hlong : emb.length ≥ 2 ^ 16
    · rw [if_pos hlong] at h
      cases h
    rw [if_neg hlong] at h
    cases hr : r.toEpath.encode with
    | error e => simp [hr] at h
    | ok routeBytes =>
      simp only [hr, pathWords_of_encode hr, pure, Except.pure, Except.ok.injEq] at h
      subst h
      refine ⟨rfl, rfl, ?_⟩
      have hsize : ofLeBytes (putU16 (UInt16.ofNat emb.length)) = emb.length := by
        have hlt : (UInt16.ofNat emb.length).toNat = emb.length :=
          UInt16.toNat_ofNat_of_lt' (Nat.lt_of_not_le hlong)
        rw [putU16, ofLeBytes_leBytes, hlt]
        omega
      have hpad : (if emb.length % 2 = 1 then ([0] : Bytes) else []).length =
          emb.length % 2 := by
        split_ifs with hodd
        · rw [hodd]
          rfl
        · show 0 = emb.length % 2
          omega
      -- the four bytes in front of the embedded request carry its length
      obtain ⟨a, b, hbytes⟩ := List.length_eq_two.mp (putU16_length (UInt16.ofNat emb.length))
      rw [hbytes] at hsize
      have hdrop : (emb ++ ((if emb.length % 2 = 1 then [0] else []) ++
          (UInt8.ofNat (routeBytes.length / 2) :: 0 :: routeBytes))).drop
            (ofLeBytes [a, b] + ofLeBytes [a, b] % 2) =
          UInt8.ofNat (routeBytes.length / 2) :: 0 :: routeBytes := by
        rw [hsize, ← List.append_assoc]
        apply List.drop_left'
        rw [List.length_append, hpad]
      have hroute := readSizedPath_encode [] hr
      rw [List.append_nil] at hroute
      have hshape : [0x03, 0xFA] ++ putU16 (UInt16.ofNat emb.length) ++ emb ++
          (if emb.length % 2 = 1 then [0] else []) ++
            [UInt8.ofNat (routeBytes.length / 2), 0] ++ routeBytes =
          0x03 :: 0xFA :: a :: b :: (emb ++ ((if emb.length % 2 = 1 then [0] else []) ++
            (UInt8.ofNat (routeBytes.length / 2) :: 0 :: routeBytes))) := by
        rw [hbytes]
        simp only [List.append_assoc, List.cons_append, List.nil_append]
      show readUnconnectedSend ([0x03, 0xFA] ++ putU16 (UInt16.ofNat emb.length) ++ emb ++
          (if emb.length % 2 = 1 then [0] else []) ++
            [UInt8.ofNat (routeBytes.length / 2), 0] ++ routeBytes) = _
      rw [hshape, readUnconnectedSend_of_drop hdrop, hsize, List.take_left, readRequest_encode hi,
        hroute]
      have hports : portsOf (r.toEpath.segments.map segmentOnWire) =
          some (r.segments.map portOnWire) := portsOf_map r.segments
      simp only [bind, Option.bind_some, hports, pure]

/-! ## Journeys -/

/-- A packet with the request as it is. -/
theorem readPayload_of_encode {mr : MessageRequest} {payload : Bytes}
    (h : (do
      let mrBytes ← mr.encode
      encapDataWithCpf ⟨[CpfItem.nullAddress, CpfItem.unconnectedData mrBytes]⟩) = .ok payload) :
    readPayload payload =
      some ⟨mr.service, mr.path.segments.map segmentOnWire, mr.data⟩ := by
  cases hmr : mr.encode with
  | error e => simp [hmr, bind, Except.bind] at h
  | ok mrBytes =>
      rw [hmr] at h
      exact readPayload_encapData [] hmr (by simp) h

/-- A request that is no Unconnected_Send itself arrives along the client's route, if it has
one. -/
theorem journey_unconnected {route : Option RoutePath} {mr : MessageRequest} {payload : Bytes}
    (hplain : ¬ (mr.service = unconnectedSendService ∧
      mr.path.segments.map segmentOnWire = connectionManagerPath.segments))
    (h : unconnectedPayload route mr = .ok payload) :
    journey payload = arrive (((route.map (·.segments)).getD []).map portOnWire)
      ⟨mr.service, mr.path.segments.map segmentOnWire, mr.data⟩ := by
  have hdirect : ∀ {payload : Bytes}, (do
      let mrBytes ← mr.encode
      encapDataWithCpf ⟨[CpfItem.nullAddress, CpfItem.unconnectedData mrBytes]⟩) = .ok payload →
        journey payload = arrive []
          ⟨mr.service, mr.path.segments.map segmentOnWire, mr.data⟩ := by
    intro payload hpayload
    simp only [journey, readPayload_of_encode hpayload, bind, Option.bind, if_neg hplain]
  cases route with
  | none => exact hdirect h
  | some r =>
      show journey payload = arrive (r.segments.map portOnWire) _
      unfold unconnectedPayload at h
      by_cases hempty : r.segments = []
      · simp only [hempty, if_true] at h
        rw [hempty]
        exact hdirect h
      · simp only [hempty, if_false] at h
        cases hwrap : wrapUnconnectedSend mr r with
        | error e => simp [hwrap, bind, Except.bind] at h
        | ok outer =>
            rw [hwrap] at h
            obtain ⟨hservice, hpath, hread⟩ := readUnconnectedSend_wrap hwrap
            have hmanager : outer.service = unconnectedSendService ∧
                outer.path.segments.map segmentOnWire = connectionManagerPath.segments := by
              rw [hservice, hpath]
              exact ⟨rfl, rfl⟩
            simp only [journey, readPayload_of_encode h, bind, Option.bind, if_pos hmanager, hread]

/-- An encoded ForwardOpen is its fields, the length of its path and its path. -/
theorem forwardOpen_encode {r : ForwardOpenRequest} {data : Bytes} (h : r.encode = .ok data) :
    ∃ fields pathBytes, openFields r = .ok fields ∧ r.connectionPath.encode = .ok pathBytes ∧
      data = fields ++ (UInt8.ofNat (pathBytes.length / 2) :: pathBytes) ∧
      connectionFields r.service = some (fields.length, 0) := by
  unfold ForwardOpenRequest.encode at h
  cases hp : r.connectionPath.encode with
  | error e => simp [hp, bind, Except.bind] at h
  | ok pathBytes =>
    simp only [hp, pathWords_of_encode hp, bind, Except.bind, pure, Except.pure] at h
    cases hoT : r.writeParams r.oTParams with
    | error e => simp [hoT] at h
    | ok oT =>
      cases htO : r.writeParams r.tOParams with
      | error e => simp [hoT, htO] at h
      | ok tO =>
        simp only [hoT, htO, Except.ok.injEq] at h
        have hparams : ∀ {p : NetworkConnectionParams} {bytes : Bytes},
            r.writeParams p = .ok bytes → bytes.length = if r.large then 4 else 2 := by
          intro p bytes hbytes
          unfold ForwardOpenRequest.writeParams at hbytes
          split_ifs at hbytes ⊢ with hlarge
          · cases hbytes
            exact putU32_length _
          · cases hu : p.encodeU16 with
            | error e => simp [hu, bind, Except.bind] at hbytes
            | ok v =>
              rw [hu] at hbytes
              cases hbytes
              exact putU16_length _
        refine ⟨_, pathBytes, by simp only [openFields, hoT, htO]; rfl, rfl, ?_, ?_⟩
        · rw [← h]
          simp [putU8]
        · have hlengths := And.intro (hparams hoT) (hparams htO)
          simp only [List.length_append, putU8_length, putU16_length, putU32_length,
            List.length_cons, List.length_nil, hlengths.1, hlengths.2,
            ForwardOpenRequest.service]
          cases r.large <;> rfl

/-- A ForwardClose is its fields, and its path behind the word count and a pad. -/
theorem forwardClose_encode {r : ForwardCloseRequest} {data : Bytes} (h : r.encode = .ok data) :
    ∃ pathBytes, r.connectionPath.encode = .ok pathBytes ∧
      data = closeFields r ++ (UInt8.ofNat (pathBytes.length / 2) :: 0 :: pathBytes) ∧
      connectionFields forwardCloseService = some ((closeFields r).length, 1) := by
  unfold ForwardCloseRequest.encode at h
  cases hp : r.connectionPath.encode with
  | error e => simp [hp, bind, Except.bind] at h
  | ok pathBytes =>
    simp only [hp, pathWords_of_encode hp, bind, Except.bind, pure, Except.pure,
      Except.ok.injEq] at h
    refine ⟨pathBytes, rfl, ?_, ?_⟩
    · rw [← h]
      simp [closeFields, putU8]
    · simp only [closeFields, List.length_append, putU8_length, putU16_length, putU32_length]
      rfl

/-- A Connection Manager service arrives with its fields and its connection path apart. -/
theorem arrive_manager {service : UInt8} {fields pathBytes : Bytes} {path : EPath}
    (wrapper : List PortSegment) (reserved : Bytes)
    (hkind : connectionFields service = some (fields.length, reserved.length))
    (hpath : path.encode = .ok pathBytes) :
    arrive wrapper ⟨service, connectionManagerPath.segments,
        fields ++ (UInt8.ofNat (pathBytes.length / 2) :: (reserved ++ pathBytes))⟩ =
      some ⟨wrapper, service, connectionManagerPath.segments, fields,
        (splitRoute (path.segments.map segmentOnWire)).1,
        (splitRoute (path.segments.map segmentOnWire)).2⟩ := by
  have hread := readSizedPath_encode [] hpath
  rw [List.append_nil] at hread
  simp only [arrive, hkind, if_true, List.drop_left, List.take_left, hread, bind, Option.bind,
    pure]

/-- The Message Router path starts at an object. -/
theorem startsAtObject_messageRouter :
    StartsAtObject (messageRouterPath.segments.map segmentOnWire) := rfl

/-- So does the path of a class-1 connection. -/
theorem startsAtObject_ioConnectionPath (config : Option UInt16) (output input : UInt16) :
    StartsAtObject ((ioConnectionPath config output input).segments.map segmentOnWire) := by
  cases config <;> rfl

/-- Its segments travel as they are. -/
theorem map_segmentOnWire_ioConnectionPath (config : Option UInt16) (output input : UInt16) :
    (ioConnectionPath config output input).segments.map segmentOnWire =
      (ioConnectionPath config output input).segments := by
  cases config <;> rfl

/-- The path of a class-3 connection is the route and then the Message Router. -/
theorem class3Open_connectionPath (opts : ClientOptions) (env : Class3Env) :
    (Model.class3Open opts env).connectionPath.segments =
      ((opts.route.map (·.segments)).getD []).map Segment.port ++ messageRouterPath.segments := by
  cases hroute : opts.route with
  | none => simp only [Model.class3Open, ForwardOpenRequest.class3, hroute]; rfl
  | some r =>
      simp only [Model.class3Open, ForwardOpenRequest.class3, hroute, RoutePath.prefixed,
        Option.map_some, Option.getD_some]
      by_cases hempty : r.segments = []
      · simp only [hempty, if_true, List.map_nil, List.nil_append]
      · simp only [hempty, if_false]

/-- The path of an I/O connection is the route and then the assembly. -/
theorem class1Request_connectionPath {spec : IoConnectionSpec} {env : OpenEnv}
    {open_ : ForwardOpenRequest} (h : class1Request spec env = .ok open_) :
    open_.connectionPath.segments = spec.assembly.route.map Segment.port ++
      (ioConnectionPath spec.assembly.config spec.assembly.output
        spec.assembly.input).segments := by
  unfold class1Request buildClass1Open at h
  simp only [bind_ok] at h
  obtain ⟨o2tSize, -, t2oSize, -, o2tRpi, -, t2oRpi, -, h⟩ := h
  cases h
  rfl

/-- The route of the wrapper a request comes in. -/
def wrapperOf : RoutedRequest → List PortSegment
  | q@(.tag _ _ _) | q@(.class3Open _ _) | q@(.class3Close _ _) => q.route.map portOnWire
  | .class1Open _ _ _ | .class1Close _ _ => []

/-- The route in front of the connection path of a request. -/
def connectionRouteOf : RoutedRequest → List PortSegment
  | .tag _ _ _ => []
  | q => q.route.map portOnWire

/-- Another service is no Unconnected_Send, whatever its path. -/
theorem not_unconnectedSend_of_ne {service : UInt8} (path : List Segment)
    (h : service ≠ unconnectedSendService) :
    ¬ (service = unconnectedSendService ∧ path = connectionManagerPath.segments) :=
  fun hboth => h hboth.1

/-- An open that is sent unwrapped, with any further items in its packet. -/
theorem journey_cmUcmm {mr : MessageRequest} {extra : List CpfItem} {payload : Bytes}
    (hservice : mr.service ≠ unconnectedSendService)
    (hextra : ∀ i ∈ extra, ItemType.fromCode i.typeId.code = i.typeId)
    (h : cmUcmmPayload mr extra = .ok payload) :
    journey payload =
      arrive [] ⟨mr.service, mr.path.segments.map segmentOnWire, mr.data⟩ := by
  unfold cmUcmmPayload at h
  cases hmr : mr.encode with
  | error e => simp [hmr, bind, Except.bind] at h
  | ok mrBytes =>
      rw [hmr] at h
      have hread := readPayload_encapData extra hmr hextra h
      simp only [journey, hread, bind, Option.bind,
        if_neg (not_unconnectedSend_of_ne _ hservice)]

/-- A ForwardOpen is none, in either form. -/
theorem forwardOpen_service_ne (r : ForwardOpenRequest) :
    r.service ≠ unconnectedSendService := by
  unfold ForwardOpenRequest.service
  split_ifs <;> decide

/-- Where an encoded open arrives, its connection path being a route and then an object. -/
theorem arrive_open {r : ForwardOpenRequest} {data : Bytes} {route : List PortSegment}
    {base : List Segment} (wrapper : List PortSegment) (h : r.encode = .ok data)
    (hpath : r.connectionPath.segments = route.map Segment.port ++ base)
    (hbase : StartsAtObject (base.map segmentOnWire)) :
    ∃ fields, openFields r = .ok fields ∧
      arrive wrapper ⟨r.service, connectionManagerPath.segments, data⟩ =
        some ⟨wrapper, r.service, connectionManagerPath.segments, fields,
          route.map portOnWire, base.map segmentOnWire⟩ := by
  obtain ⟨fields, pathBytes, hfields, hbytes, rfl, hkind⟩ := forwardOpen_encode h
  refine ⟨fields, hfields, ?_⟩
  have harrive := arrive_manager wrapper [] hkind hbytes
  rwa [hpath, splitRoute_map route hbase] at harrive

/-- Where an encoded close arrives. -/
theorem arrive_close {r : ForwardCloseRequest} {data : Bytes} {route : List PortSegment}
    {base : List Segment} (wrapper : List PortSegment) (h : r.encode = .ok data)
    (hpath : r.connectionPath.segments = route.map Segment.port ++ base)
    (hbase : StartsAtObject (base.map segmentOnWire)) :
    arrive wrapper ⟨forwardCloseService, connectionManagerPath.segments, data⟩ =
      some ⟨wrapper, forwardCloseService, connectionManagerPath.segments, closeFields r,
        route.map portOnWire, base.map segmentOnWire⟩ := by
  obtain ⟨pathBytes, hbytes, rfl, hkind⟩ := forwardClose_encode h
  have harrive := arrive_manager wrapper [0] hkind hbytes
  rwa [hpath, splitRoute_map route hbase] at harrive

/-- The bytes of a request travel as the request is meant. -/
def Arrives (q : RoutedRequest) (payload : Bytes) : Prop :=
  ∃ intent, q.intent = .ok intent ∧
    journey payload = some ⟨wrapperOf q, intent.service, intent.object.map segmentOnWire,
      intent.data, connectionRouteOf q, intent.connectionPath⟩

/-- A tag request arrives as it was made. -/
theorem arrives_tag {route : Option RoutePath} {mr : MessageRequest}
    {other : mr.path ≠ connectionManagerPath} {payload : Bytes}
    (h : (RoutedRequest.tag route mr other).payload = .ok payload) :
    Arrives (.tag route mr other) payload := by
  refine ⟨⟨mr.service, mr.path.segments, mr.data, []⟩, rfl, ?_⟩
  have hne := map_segmentOnWire_ne other
  have hplain : ¬ (mr.service = unconnectedSendService ∧
      mr.path.segments.map segmentOnWire = connectionManagerPath.segments) :=
    fun hboth => hne hboth.2
  have hjourney := journey_unconnected hplain h
  have harrive : ∀ wrapper, arrive wrapper
      ⟨mr.service, mr.path.segments.map segmentOnWire, mr.data⟩ =
        some ⟨wrapper, mr.service, mr.path.segments.map segmentOnWire, mr.data, [], []⟩ := by
    intro wrapper
    simp only [arrive, if_neg hne]
    split <;> rfl
  rw [hjourney, harrive]
  rfl

/-- So does a class-3 ForwardOpen. -/
theorem arrives_class3Open {opts : ClientOptions} {env : Class3Env} {payload : Bytes}
    (h : (RoutedRequest.class3Open opts env).payload = .ok payload) :
    Arrives (.class3Open opts env) payload := by
  simp only [RoutedRequest.payload] at h
  cases hdata : (Model.class3Open opts env).encode with
  | error e => simp [hdata, bind, Except.bind] at h
  | ok data =>
      rw [hdata] at h
      have hservice := forwardOpen_service_ne (Model.class3Open opts env)
      have hjourney := journey_unconnected (not_unconnectedSend_of_ne _ hservice) h
      obtain ⟨fields, hfields, harrive⟩ := arrive_open
        (((opts.route.map (·.segments)).getD []).map portOnWire) hdata
        (class3Open_connectionPath opts env) startsAtObject_messageRouter
      refine ⟨_, by simp only [RoutedRequest.intent, hfields]; rfl, ?_⟩
      exact hjourney.trans harrive

/-- So does its ForwardClose. -/
theorem arrives_class3Close {opts : ClientOptions} {env : Class3Env} {payload : Bytes}
    (h : (RoutedRequest.class3Close opts env).payload = .ok payload) :
    Arrives (.class3Close opts env) payload := by
  simp only [RoutedRequest.payload] at h
  cases hdata : (ForwardCloseRequest.forOpen (Model.class3Open opts env)).encode with
  | error e => simp [hdata, bind, Except.bind] at h
  | ok data =>
      rw [hdata] at h
      have hservice : forwardCloseService ≠ unconnectedSendService := by decide
      have hjourney := journey_unconnected (not_unconnectedSend_of_ne _ hservice) h
      have harrive := arrive_close (((opts.route.map (·.segments)).getD []).map portOnWire)
        hdata (class3Open_connectionPath opts env) startsAtObject_messageRouter
      exact ⟨_, rfl, hjourney.trans harrive⟩

/-- So does a class-1 ForwardOpen. -/
theorem arrives_class1Open {localPort : UInt16} {spec : IoConnectionSpec} {env : OpenEnv}
    {payload : Bytes} (h : (RoutedRequest.class1Open localPort spec env).payload = .ok payload) :
    Arrives (.class1Open localPort spec env) payload := by
  simp only [RoutedRequest.payload] at h
  cases hopen : class1Request spec env with
  | error e => simp [hopen, bind, Except.bind] at h
  | ok open_ =>
      simp only [hopen, bind, Except.bind] at h
      cases hdata : open_.encode with
      | error e => simp [hdata] at h
      | ok data =>
          simp only [hdata] at h
          have hknown : ∀ i ∈ [(⟨.sockAddrOtoT, (SockAddrInfo.ipv4 0 localPort).encode⟩ :
              CpfItem), ⟨.sockAddrTtoO, (SockAddrInfo.ipv4 0 localPort).encode⟩],
              ItemType.fromCode i.typeId.code = i.typeId := by
            intro i hi
            simp only [List.mem_cons, List.not_mem_nil, or_false] at hi
            obtain rfl | rfl := hi <;> rfl
          have hjourney := journey_cmUcmm (forwardOpen_service_ne _) hknown h
          obtain ⟨fields, hfields, harrive⟩ := arrive_open [] hdata
            (class1Request_connectionPath hopen) (startsAtObject_ioConnectionPath _ _ _)
          rw [map_segmentOnWire_ioConnectionPath] at harrive
          refine ⟨_, by
            simp only [RoutedRequest.intent, hopen, hfields, bind, Except.bind]; rfl, ?_⟩
          exact hjourney.trans harrive

/-- So does its ForwardClose. -/
theorem arrives_class1Close {spec : IoConnectionSpec} {env : OpenEnv} {payload : Bytes}
    (h : (RoutedRequest.class1Close spec env).payload = .ok payload) :
    Arrives (.class1Close spec env) payload := by
  simp only [RoutedRequest.payload] at h
  cases hopen : class1Request spec env with
  | error e => simp [hopen, bind, Except.bind] at h
  | ok open_ =>
      simp only [hopen, bind, Except.bind] at h
      cases hdata : (ForwardCloseRequest.forOpen open_).encode with
      | error e => simp [hdata] at h
      | ok data =>
          simp only [hdata] at h
          have hservice : forwardCloseService ≠ unconnectedSendService := by decide
          have hjourney := journey_cmUcmm hservice (by simp) h
          have harrive := arrive_close [] hdata (class1Request_connectionPath hopen)
            (startsAtObject_ioConnectionPath _ _ _)
          rw [map_segmentOnWire_ioConnectionPath] at harrive
          refine ⟨_, by simp only [RoutedRequest.intent, hopen]; rfl, ?_⟩
          exact hjourney.trans harrive

/-- The journey of every request that is sent. -/
theorem journey_payload {q : RoutedRequest} {payload : Bytes} (h : q.payload = .ok payload) :
    Arrives q payload := by
  cases q with
  | tag route mr other => exact arrives_tag h
  | class3Open opts env => exact arrives_class3Open h
  | class3Close opts env => exact arrives_class3Close h
  | class1Open localPort spec env => exact arrives_class1Open h
  | class1Close spec env => exact arrives_class1Close h

/-- The object path of everything but a tag service is the Connection Manager's. -/
theorem object_of_intent {q : RoutedRequest} {intent : Intent} (h : q.intent = .ok intent) :
    (∃ route mr other, q = .tag route mr other ∧ intent.object = mr.path.segments) ∨
      intent.object.map segmentOnWire = intent.object := by
  cases q with
  | tag route mr other =>
      cases h
      exact .inl ⟨route, mr, other, rfl, rfl⟩
  | class3Open opts env =>
      simp only [RoutedRequest.intent, bind_ok] at h
      obtain ⟨fields, -, h⟩ := h
      cases h
      exact .inr rfl
  | class3Close opts env =>
      cases h
      exact .inr rfl
  | class1Open localPort spec env =>
      simp only [RoutedRequest.intent, bind_ok] at h
      obtain ⟨open_, -, fields, -, h⟩ := h
      cases h
      exact .inr rfl
  | class1Close spec env =>
      simp only [RoutedRequest.intent, bind_ok] at h
      obtain ⟨open_, -, h⟩ := h
      cases h
      exact .inr rfl

/-! ## What the two opens put on the wire -/

/-- What a send puts on the wire is the payload of its request. -/
theorem sendUnconnected_issued {route : Option RoutePath} {mr : MessageRequest}
    {answer : Except EnipError EncapFrame} {command : Command} {bytes : Bytes}
    (h : (command, bytes) ∈ (sendUnconnected route mr answer).1) :
    command = .sendRRData ∧ unconnectedPayload route mr = .ok bytes := by
  unfold sendUnconnected at h
  cases hp : unconnectedPayload route mr with
  | error e => simp [hp] at h
  | ok data =>
      simp only [hp, List.mem_cons, Prod.mk.injEq, List.not_mem_nil, or_false] at h
      exact ⟨h.1, by rw [h.2]⟩

/-- What a class-3 close puts on the wire is the payload of its request. -/
theorem class3ForwardClose_issued {opts : ClientOptions} {env : Class3Env} {command : Command}
    {bytes : Bytes} (h : (command, bytes) ∈
      class3ForwardClose opts.route (Model.class3Open opts env) (env.answers 1)) :
    command = .sendRRData ∧ (RoutedRequest.class3Close opts env).payload = .ok bytes := by
  unfold class3ForwardClose at h
  cases hdata : (ForwardCloseRequest.forOpen (Model.class3Open opts env)).encode with
  | error e => simp [hdata] at h
  | ok closeData =>
      simp only [hdata] at h
      obtain ⟨hcommand, hp⟩ := sendUnconnected_issued h
      refine ⟨hcommand, ?_⟩
      simp only [RoutedRequest.payload, hdata]
      exact hp

/-- Everything a class-3 open sends is one of the two requests of a class-3 connection. -/
theorem openClass3_issued {opts : ClientOptions} {env : Class3Env} {command : Command}
    {bytes : Bytes} (h : (command, bytes) ∈ (openClass3 opts.route opts env).issued) :
    command = .sendRRData ∧
      ((RoutedRequest.class3Open opts env).payload = .ok bytes ∨
        (RoutedRequest.class3Close opts env).payload = .ok bytes) := by
  unfold openClass3 at h
  cases hopen : (Model.class3Open opts env).encode with
  | error e => simp [hopen] at h
  | ok data =>
      simp only [hopen] at h
      have hfirst : (command, bytes) ∈ (sendUnconnected opts.route
          ⟨(Model.class3Open opts env).service, connectionManagerPath, data⟩ (env.answers 0)).1 →
          command = .sendRRData ∧
            ((RoutedRequest.class3Open opts env).payload = .ok bytes ∨
              (RoutedRequest.class3Close opts env).payload = .ok bytes) := by
        intro hmem
        obtain ⟨hcommand, hp⟩ := sendUnconnected_issued hmem
        refine ⟨hcommand, .inl ?_⟩
        simp only [RoutedRequest.payload, hopen]
        exact hp
      -- only an open whose reply cannot be used is followed by its close
      split at h
      · exact hfirst h
      · split at h
        · exact hfirst h
        · split at h
          · exact hfirst h
          · split at h
            · obtain hmem | hmem := List.mem_append.mp h
              · exact hfirst hmem
              · obtain ⟨hcommand, hp⟩ := class3ForwardClose_issued hmem
                exact ⟨hcommand, .inr hp⟩
            · exact hfirst h

/-- What a class-1 close asks for is its request. -/
theorem bestEffortForwardClose_issued {spec : IoConnectionSpec} {env : OpenEnv}
    {open_ : ForwardOpenRequest} (hopen : class1Request spec env = .ok open_)
    {request : CmRequest} (h : request ∈ bestEffortForwardClose open_) :
    cmUcmmPayload request.1 request.2 = (RoutedRequest.class1Close spec env).payload := by
  unfold bestEffortForwardClose at h
  cases hbytes : (ForwardCloseRequest.forOpen open_).encode with
  | error e => simp [hbytes] at h
  | ok closeData =>
      simp only [hbytes, List.mem_cons, List.not_mem_nil, or_false] at h
      rw [h]
      simp only [RoutedRequest.payload, hopen, hbytes, bind, Except.bind]

/-- Everything the open of an I/O connection hands to the session is one of its two requests. -/
theorem forwardOpen_issued {localPort : UInt16} {spec : IoConnectionSpec} {env : OpenEnv}
    {request : CmRequest} (h : request ∈ (forwardOpen localPort spec env).issued) :
    cmUcmmPayload request.1 request.2 =
        (RoutedRequest.class1Open localPort spec env).payload ∨
      cmUcmmPayload request.1 request.2 = (RoutedRequest.class1Close spec env).payload := by
  unfold forwardOpen at h
  cases hopen : class1Request spec env with
  | error e =>
      unfold class1Request at hopen
      simp [hopen, bind, Except.bind] at h
  | ok open_ =>
      have hbuild := hopen
      unfold class1Request at hbuild
      simp only [hbuild, bind, Except.bind] at h
      cases hdata : open_.encode with
      | error e => simp [hdata] at h
      | ok data =>
          simp only [hdata, pure, Except.pure] at h
          have hfirst : request ∈ [((⟨open_.service, connectionManagerPath, data⟩,
              [⟨.sockAddrOtoT, (SockAddrInfo.ipv4 0 localPort).encode⟩,
                ⟨.sockAddrTtoO, (SockAddrInfo.ipv4 0 localPort).encode⟩]) : CmRequest)] →
              cmUcmmPayload request.1 request.2 =
                (RoutedRequest.class1Open localPort spec env).payload := by
            intro hmem
            rw [List.mem_singleton.mp hmem]
            simp only [RoutedRequest.payload, hopen, hdata, bind, Except.bind]
          have hboth : ∀ m r,
              request ∈ (⟨_ ++ bestEffortForwardClose open_, m, r⟩ : OpenRun).issued → _ :=
            fun m r hmem => Or.imp hfirst (bestEffortForwardClose_issued hopen)
              (List.mem_append.mp hmem)
          split at h
          · exact .inl (hfirst h)
          · split at h
            · exact .inl (hfirst h)
            · split at h
              · exact .inl (hfirst h)
              · split at h
                · exact .inl (hfirst h)
                · split at h
                  · exact hboth _ _ h
                  · split at h
                    · exact hboth _ _ h
                    · exact .inl (hfirst h)

/-! ## The route is travelled once -/

/-- A route in the wrapper alone. -/
theorem wrapperOnly_iff (route : List PortSegment) :
    ((route.map portOnWire = route ∧ ([] : List PortSegment) = []) ∨
      (route.map portOnWire = [] ∧ [] = route)) ↔ LinksNamed (route.map .port) := by
  rw [← map_portOnWire_eq_self_iff]
  constructor
  · rintro (⟨hroute, -⟩ | ⟨hempty, hroute⟩)
    · exact hroute
    · rw [hempty, hroute]
  · intro hroute
    exact .inl ⟨hroute, rfl⟩

/-- A route in front of the connection path alone. -/
theorem prefixOnly_iff (route : List PortSegment) :
    (([] = route ∧ route.map portOnWire = []) ∨
      (([] : List PortSegment) = [] ∧ route.map portOnWire = route)) ↔
        LinksNamed (route.map .port) ∧ True := by
  rw [and_true, ← map_portOnWire_eq_self_iff]
  constructor
  · rintro (⟨hroute, hempty⟩ | ⟨-, hroute⟩)
    · rw [hempty, hroute]
    · exact hroute
  · intro hroute
    exact .inr ⟨rfl, hroute⟩

/-- A route in both places is travelled twice, unless there is none. -/
theorem bothWays_iff (route : List PortSegment) :
    ((route.map portOnWire = route ∧ route.map portOnWire = []) ∨
      (route.map portOnWire = [] ∧ route.map portOnWire = route)) ↔
        LinksNamed (route.map .port) ∧ route = [] := by
  constructor
  · intro h
    have hempty : route = [] := by
      obtain ⟨hroute, hempty⟩ | ⟨hempty, hroute⟩ := h <;> rw [← hroute, hempty]
    rw [hempty]
    exact ⟨by simp [LinksNamed], rfl⟩
  · rintro ⟨-, rfl⟩
    exact .inl ⟨rfl, rfl⟩

/-- A request arrives as it was meant, its route travelled exactly once, if and only if it does
not open or close a class-3 connection along a route and every port segment in it names a link. -/
theorem travelsOnce_iff (q : RoutedRequest) (payload : Bytes) (h : q.payload = .ok payload) :
    TravelsOnce q payload ↔ RoutedCleanly q := by
  obtain ⟨intent, hintent, hjourney⟩ := journey_payload h
  have hreduce : TravelsOnce q payload ↔
      intent.object.map segmentOnWire = intent.object ∧
        ((wrapperOf q = q.route ∧ connectionRouteOf q = []) ∨
          (wrapperOf q = [] ∧ connectionRouteOf q = q.route)) := by
    constructor
    · rintro ⟨intent', j, hintent', hj, hsame, hroute⟩
      rw [hintent] at hintent'
      rw [hjourney] at hj
      cases hintent'
      cases hj
      exact ⟨congrArg Intent.object hsame, hroute⟩
    · rintro ⟨hobject, hroute⟩
      refine ⟨intent, _, hintent, hjourney, ?_, hroute⟩
      rw [hobject]
  rw [hreduce]
  cases q with
  | tag route mr other =>
      cases hintent
      rw [map_segmentOnWire_eq_self_iff, and_comm]
      exact and_congr_left fun _ => wrapperOnly_iff _
  | class3Open opts env =>
      have hobject := (object_of_intent hintent).resolve_left (by simp)
      rw [and_iff_right hobject]
      exact bothWays_iff _
  | class3Close opts env =>
      have hobject := (object_of_intent hintent).resolve_left (by simp)
      rw [and_iff_right hobject]
      exact bothWays_iff _
  | class1Open localPort spec env =>
      have hobject := (object_of_intent hintent).resolve_left (by simp)
      rw [and_iff_right hobject]
      exact prefixOnly_iff _
  | class1Close spec env =>
      have hobject := (object_of_intent hintent).resolve_left (by simp)
      rw [and_iff_right hobject]
      exact prefixOnly_iff _

/-- A tag list request, of odd length, to a controller in slot 3. -/
def slotThreeTagList : RoutedRequest :=
  .tag (some ⟨[⟨1, [3]⟩]⟩) ⟨0x55, ⟨[.class_ 0x6B, .instance_ 70000]⟩, [2, 0, 1, 0, 2]⟩ (by decide)

def slotThreeTagListBytes : Bytes :=
  [0, 0, 0, 0, 0, 0, 2, 0, 0, 0, 0, 0, 178, 0, 30, 0, 82, 2, 32, 6, 36, 1, 3, 250, 15, 0, 85, 4,
    32, 107, 38, 0, 112, 17, 1, 0, 2, 0, 1, 0, 2, 0, 1, 0, 1, 3]

/-- A tag list asked of slot three, with what decides whether it travels once. -/
theorem travelsOnce_iff_slotThree :
    slotThreeTagList.payload = .ok slotThreeTagListBytes ∧
      (TravelsOnce slotThreeTagList slotThreeTagListBytes ↔ RoutedCleanly slotThreeTagList) := by
  have hpayload : slotThreeTagList.payload = .ok slotThreeTagListBytes := by rfl
  exact ⟨hpayload, travelsOnce_iff slotThreeTagList slotThreeTagListBytes hpayload⟩

/-- The class-3 open of a client whose controller is in slot 0. -/
def slotZeroClass3Open : RoutedRequest :=
  .class3Open ⟨some ⟨[⟨1, [0]⟩]⟩, 0x1337, Duration.fromSecs 2, .x16⟩
    ⟨1, 1, 1, fun _ => .error .closed⟩

/-- The route to slot 0 is in the wrapper and in front of the connection path. -/
theorem class3Open_slotZero_travels_twice :
    ∃ payload, slotZeroClass3Open.payload = .ok payload ∧
      ¬ TravelsOnce slotZeroClass3Open payload := by
  have hpayload : ∃ payload, slotZeroClass3Open.payload = .ok payload ∧
      (journey payload).map (fun j => (j.wrapper, j.connectionRoute)) =
        some ([⟨1, [0]⟩], [⟨1, [0]⟩]) :=
    ⟨_, rfl, by decide +kernel⟩
  obtain ⟨payload, hsent, hseen⟩ := hpayload
  refine ⟨payload, hsent, ?_⟩
  rintro ⟨intent, j, -, hj, -, hroute⟩
  rw [hj] at hseen
  simp only [Option.map_some, Option.some.injEq, Prod.mk.injEq] at hseen
  rw [hseen.1, hseen.2] at hroute
  obtain ⟨-, hnone⟩ | ⟨hnone, -⟩ := hroute <;> cases hnone

end EnipAdapter.Analysis
