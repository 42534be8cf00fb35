import EnipAdapter.Foundation.Text
import EnipAdapter.Model.ReadCommand
import EnipAdapter.Model.ReadSession

/-!
# Browsing

The tag list of a poll device, page by page: Get Instance Attribute List over the Symbol class
(`logix.rs`), the session's cut of a page to the caller's page size (`eip/session.rs`), and
`sb/browse` in its paged and its hierarchical form (`commands.rs`). A push device is browsed from
its configured layout.

What a peer answers to a request is the environment, as it is for a tag read; `elapsed` says that
the defensive deadline around the request ran out.
-/

set_option autoImplicit false

namespace EnipAdapter.Model

open EnipAdapter.Foundation

/-! ## Symbols -/

def serviceGetInstanceAttributeList : UInt8 := 0x55

def classSymbol : UInt16 := 0x6B

/-- The symbol-type word: a structure flag, the number of dimensions, and a type code. -/
structure SymbolType where
  word : UInt16
deriving DecidableEq, Repr

namespace SymbolType

def isStruct (t : SymbolType) : Bool := t.word &&& 0x8000 != 0

/-- The number of array dimensions, 0 to 3. -/
def dims (t : SymbolType) : UInt8 := ((t.word >>> 13) &&& 3).toUInt8

def typeCode (t : SymbolType) : Option UInt8 :=
  if t.isStruct then none else some (t.word &&& 0xFF).toUInt8

def cipType (t : SymbolType) : Option CipType :=
  t.typeCode.map fun code => CipType.fromCode code.toUInt16

end SymbolType

/-- One symbol instance of a tag-list page. -/
structure SymbolInfo where
  instanceId : UInt32
  name : String
  symbolType : SymbolType
deriving DecidableEq, Repr

/-- One record of a page: instance id, name length, name, symbol type. -/
def SymbolInfo.decode (r : WireReader) : Except WireError (SymbolInfo × WireReader) := do
  let (instanceId, r) ← r.u32
  let (nameLen, r) ← r.u16
  let (nameBytes, r) ← r.take nameLen.toNat
  match ofUtf8 nameBytes with
  | none => .error (.invalidUtf8 "logix")
  | some name =>
    let (symbolType, r) ← r.u16
    pure (⟨instanceId, name, ⟨symbolType⟩⟩, r)

/-- Taking bytes leaves the rest. -/
theorem WireReader.take_rest {r r' : WireReader} {n : ℕ} {bytes : Bytes}
    (h : r.take n = .ok (bytes, r')) : r'.remaining = r.remaining - n ∧ n ≤ r.remaining := by
  unfold WireReader.take at h
  split_ifs at h with hle
  cases h
  exact ⟨List.length_drop, hle⟩

/-- Reading a word leaves fewer bytes. -/
theorem WireReader.u32_rest {r r' : WireReader} {v : UInt32} (h : r.u32 = .ok (v, r')) :
    r'.remaining < r.remaining := by
  unfold WireReader.u32 at h
  cases htake : r.take 4 with
  | error e => simp [htake, bind, Except.bind] at h
  | ok taken =>
    obtain ⟨hrest, hle⟩ := take_rest htake
    simp only [htake, bind, Except.bind, pure, Except.pure] at h
    cases h
    omega

/-- Reading a half word leaves no more bytes. -/
theorem WireReader.u16_rest {r r' : WireReader} {v : UInt16} (h : r.u16 = .ok (v, r')) :
    r'.remaining ≤ r.remaining := by
  unfold WireReader.u16 at h
  cases htake : r.take 2 with
  | error e => simp [htake, bind, Except.bind] at h
  | ok taken =>
    obtain ⟨hrest, hle⟩ := take_rest htake
    simp only [htake, bind, Except.bind, pure, Except.pure] at h
    cases h
    omega

/-- A record that decodes has taken bytes from the page. -/
theorem SymbolInfo.decode_rest {r r' : WireReader} {info : SymbolInfo}
    (h : SymbolInfo.decode r = .ok (info, r')) : r'.remaining < r.remaining := by
  unfold SymbolInfo.decode at h
  cases hid : r.u32 with
  | error e => simp [hid, bind, Except.bind] at h
  | ok id =>
    simp only [hid, bind, Except.bind] at h
    cases hlen : id.2.u16 with
    | error e => simp [hlen] at h
    | ok len =>
      simp only [hlen] at h
      cases hname : len.2.take len.1.toNat with
      | error e => simp [hname] at h
      | ok name =>
        simp only [hname] at h
        split at h
        · cases h
        · cases htype : name.2.u16 with
          | error e => simp [htype] at h
          | ok type =>
            simp only [htype, pure, Except.pure] at h
            cases h
            have hfirst := WireReader.u32_rest hid
            have hsecond := WireReader.u16_rest hlen
            have hthird := (WireReader.take_rest hname).1
            have hfourth := WireReader.u16_rest htype
            omega

/-- The records left in a page; one that fails fails the page. -/
def parseRecords (r : WireReader) : Except WireError (List SymbolInfo) :=
  if r.remaining = 0 then .ok []
  else
    match h : SymbolInfo.decode r with
    | .error e => .error e
    | .ok (info, r') =>
      match parseRecords r' with
      | .error e => .error e
      | .ok infos => .ok (info :: infos)
  termination_by r.remaining
  decreasing_by exact SymbolInfo.decode_rest h

def parseTagList (data : Bytes) : Except WireError (List SymbolInfo) :=
  parseRecords (WireReader.withContext data "logix")

/-! ## One page of the device -/

/-- Where a tag enumeration runs. -/
inductive Scope where
  | controller
  | program (name : String)
deriving DecidableEq, Repr

/-- The request for the page from a start instance on: the names and the types. -/
def listTagsRequest (startInstance : UInt32) (scope : Scope) : MessageRequest :=
  let base : List Segment :=
    match scope with
    | .controller => []
    | .program name => [.symbol ("Program:" ++ name)]
  ⟨serviceGetInstanceAttributeList, ⟨base ++ [.class_ classSymbol, .instance_ startInstance]⟩,
    putU16 2 ++ putU16 1 ++ putU16 2⟩

/-- `checked_add(1)`. -/
def checkedSucc (n : UInt32) : Option UInt32 := if n.toNat + 1 < 2 ^ 32 then some (n + 1) else none

/-- The ordering guard: every record is above the one before it. -/
def orderingGuard : Option UInt32 → List SymbolInfo → Bool
  | _, [] => true
  | previous, record :: records =>
    if previous.any (record.instanceId ≤ ·) then false
    else orderingGuard (some record.instanceId) records

/-- What a reply makes of the page: its records, and where the next page starts. -/
def tagListPage (startInstance : UInt32) (reply : MessageReply) :
    Except EnipError (List SymbolInfo × Option UInt32) := do
  reply.expectService serviceGetInstanceAttributeList
  let more := reply.status.hasMore
  if reply.status.isOk = false ∧ more = false then .error (.cip reply.status)
  else
    let records ← liftWire (parseTagList reply.data)
    if orderingGuard none records = false then
      .error (.protocolViolation "tag list page is not in ascending instance order")
    else if more then
      let next := records.getLast?.bind fun s => checkedSucc s.instanceId
      if next.any (· ≤ startInstance) then
        .error (.protocolViolation "tag list page did not advance")
      -- the last instance there is, or an empty page: the enumeration ends
      else pure (records, next)
    else pure (records, none)

/-- `list_tags`: the n-th request of a walk. -/
def listTags (client : EipClient) (peer : Peer) (n : ℕ) (startInstance : UInt32) (scope : Scope) :
    Except EnipError (List SymbolInfo × Option UInt32) := do
  let reply ← client.sendCip peer n (listTagsRequest startInstance scope)
  tagListPage startInstance reply

/-! ## One page of the session -/

/-- The start instance a cursor names; no cursor is instance 0. -/
def parseBrowseCursor (cursor : Option String) : Except DeviceError UInt32 :=
  match cursor with
  | none => .ok 0
  | some c =>
    match parseUnsigned (2 ^ 32) (trimText c.toList) with
    | some n => .ok (UInt32.ofNat n)
    | none =>
      .error (.permanent (.text ("invalid browse cursor `" ++ c ++
        "` (expected the numeric cursor from the previous page)")))

/-- Cut a page to the caller's size. What is past the cut has to be served again, so a cut page
resumes behind the last record it returns. -/
def paginateBrowse (records : List SymbolInfo) (deviceNext : Option UInt32) (maxTags : ℕ) :
    List SymbolInfo × Option UInt32 :=
  let size := max maxTags 1
  if records.length > size then
    let page := records.take size
    (page, page.getLast?.bind fun s => checkedSucc s.instanceId)
  else (records, deviceNext)

def symbolTypeName (t : SymbolType) : String :=
  if t.isStruct then "STRUCT"
  else
    match t.cipType with
    | some ty => cipTypeName ty
    | none => "0x" ++ hexUpper 4 t.word.toNat

/-- A symbol as the session reports it. -/
def SymbolInfo.browsed (s : SymbolInfo) : BrowsedTag where
  name := s.name
  typeName := symbolTypeName s.symbolType
  arrayDim := if s.symbolType.dims > 0 then some s.symbolType.dims.toUInt32 else none
  instanceId := s.instanceId

/-- What a page of the device makes of the answer of the session. -/
def browseOutcome (start : UInt32) (maxTags : ℕ) :
    Except EnipError (List SymbolInfo × Option UInt32) → Except DeviceError BrowsePage
  | .ok (records, deviceNext) =>
    let (page, next) := paginateBrowse records deviceNext maxTags
    .ok ⟨page.map SymbolInfo.browsed, next.map fun n => toString n.toNat⟩
  | .error (.cip status) =>
    if status.general = .serviceNotSupported then
      if start = 0 then .error (.unsupported "BROWSE_UNSUPPORTED")
      -- the device has served a page before: it is the start it refuses, not the service
      else
        .error (.permanent (.text ("device refused to resume the tag list at symbol instance " ++
          toString start.toNat ++ " (CIP 0x08): it serves the enumeration only from the start " ++
          "of the instance space")))
    else .error (mapEnipError (.cip status))
  | .error e => .error (mapEnipError e)

/-- `EipSession::browse`: the n-th request of a walk, for at most `maxTags` tags. -/
def EipSession.browse (session : EipSession) (peer : Peer) (elapsed : ℕ → Bool) (n : ℕ)
    (cursor : Option String) (maxTags : ℕ) : Except DeviceError BrowsePage := do
  let start ← parseBrowseCursor cursor
  if elapsed n then
    .error (.transient (.text "browse exceeded the defensive request backstop"))
  else browseOutcome start maxTags (listTags session.client peer n start .controller)

/-- The answer of the poll loop to a browse message. A failure does not break the link;
`describe` is the printer of a device error. -/
def pollBrowse (describe : DeviceError → String) :
    Except DeviceError BrowsePage → Except BrowseError BrowsePage
  | .ok page => .ok page
  | .error (.unsupported _) => .error .unsupported
  | .error e => .error (.failed (describe e))

/-! ## The command -/

/-- Why a browse command fails. -/
inductive BrowseFailure where
  | refused (error : CommandError)
  | unsupported
  | failed (message : String)
deriving DecidableEq, Repr

def BrowseFailure.token : BrowseFailure → String
  | .refused error => error.code.token
  | .unsupported => "BROWSE_UNSUPPORTED"
  | .failed _ => "BROWSE_FAILED"

def BrowseFailure.message : BrowseFailure → String
  | .refused error => error.message
  | .unsupported => "device has no tag-list service"
  | .failed message => message

/-- A page from the device task. -/
def browseAnswer : ChannelAnswer (Except BrowseError BrowsePage) → Except BrowseFailure BrowsePage
  | .closed => .error (.refused deviceUnavailable)
  | .answered (.ok page) => .ok page
  | .answered (.error .unsupported) => .error .unsupported
  | .answered (.error (.failed e)) => .error (.failed e)
  | .dropped => .error (.refused deviceUnavailable)

/-- The type names that can be decoded. -/
def typeSupported (typeName : String) : Bool :=
  ["BOOL", "SINT", "USINT", "INT", "UINT", "DINT", "UDINT", "LINT", "ULINT", "REAL",
    "LREAL"].contains typeName

/-- Whether a browsed tag can be configured as a signal: its type and its shape. -/
def tagSupported (typeName : String) (arrayDim : Option UInt32) : Bool :=
  arrayDim.getD 0 ≤ 1 && typeSupported typeName

/-- Whether a poll device has a signal on the tag. -/
def isConfigured (cfg : DeviceConfig) (tag : String) : Bool :=
  cfg.signals.any fun s => s.tagPath == tag

def arrayDimMember (arrayDim : Option UInt32) : List (String × Json) :=
  (arrayDim.map fun dim => ("arrayDim", Json.ofNat dim.toNat)).toList

/-- The answer to a paged browse of a poll device. -/
def browsePageJson (cfg : DeviceConfig) (page : BrowsePage) : Json :=
  let tag (t : BrowsedTag) : Json :=
    .obj ([("name", .str t.name), ("type", .str t.typeName),
      ("configured", .bool (isConfigured cfg t.name)),
      ("supported", .bool (tagSupported t.typeName t.arrayDim))] ++ arrayDimMember t.arrayDim)
  .obj ([("id", .str cfg.id), ("tags", .arr (page.tags.map tag))] ++
    (page.nextCursor.map fun cursor => ("cursor", Json.str cursor)).toList)

/-! ### Push devices -/

/-- The resume index a cursor names; no cursor is the start of the layout. -/
def parsePushBrowseCursor (cursor : Option String) : Except CommandError ℕ :=
  match cursor with
  | none => .ok 0
  | some c =>
    match parseUnsigned (2 ^ 64) (trimText c.toList) with
    | some n => .ok n
    | none =>
      .error ⟨.badArgs, "invalid browse cursor `" ++ c ++
        "` (expected the numeric cursor from the previous page)"⟩

def layoutTag (f : IoFieldSpec) (assembly : UInt16) (direction : String) : Json :=
  .obj [("name", .str f.name), ("id", .str (f.signalId assembly)), ("type", .str f.eipType.wire),
    ("direction", .str direction), ("configured", .bool true), ("supported", .bool true)]

/-- The configured fields, inputs before outputs, each as `entry` shows it. -/
def pushFields {α : Type} (entry : IoFieldSpec → UInt16 → String → α) (cfg : DeviceConfig) :
    List α :=
  match cfg.io with
  | none => []
  | some io =>
    io.input.signals.map (fun f => entry f io.assemblies.input "input") ++
      io.outputSignals.map (fun f => entry f io.assemblies.output "output")

/-- `browse_push_layout`: a page of the layout, and a cursor while entries remain. -/
def browsePushLayout (cfg : DeviceConfig) (cursor : Option String) (maxTags : ℕ) :
    Except CommandError Json := do
  let start ← parsePushBrowseCursor cursor
  let all := pushFields layoutTag cfg
  let tags := (all.drop start).take (max maxTags 1)
  -- `saturating_add`
  let stop := min (start + tags.length) (2 ^ 64 - 1)
  pure (.obj ([("id", .str cfg.id), ("tags", .arr tags)] ++
    (if stop < all.length then [("cursor", Json.str (toString stop))] else [])))

/-! ### The hierarchical form -/

/-- An entry of the inventory the hierarchical form shows. -/
structure HierEntry where
  nodeId : String
  name : String
  dataType : Json
  extra : List (String × Json)

def hierEntry (f : IoFieldSpec) (assembly : UInt16) (direction : String) : HierEntry :=
  ⟨f.signalId assembly, f.name, .str f.eipType.wire,
    [("direction", .str direction), ("configured", .bool true)]⟩

/-- The inventory entry of a tag. -/
def tagEntry (cfg : DeviceConfig) (t : BrowsedTag) : HierEntry :=
  ⟨t.name, t.name, .str t.typeName,
    [("configured", .bool (isConfigured cfg t.name)),
      ("supported", .bool (tagSupported t.typeName t.arrayDim))] ++ arrayDimMember t.arrayDim⟩

/-- How many pages the hierarchical form follows. -/
def maxBrowsePages : ℕ := 1024

/-- The page size the hierarchical form asks for. -/
def hierarchicalPageSize : ℕ := 1000

/-- The collecting loop: `pages` requests are left, and `prevStart` is the last resume point
that was followed. -/
def collectTags (cfg : DeviceConfig)
    (task : ℕ → Option String → ChannelAnswer (Except BrowseError BrowsePage)) :
    ℕ → ℕ → Option String → ℕ → Except BrowseFailure (List HierEntry)
  | 0, _, _, _ => .error (.failed "browse exceeded the page cap without completing")
  | pages + 1, n, cursor, prevStart =>
    match browseAnswer (task n cursor) with
    | .error e => .error e
    | .ok page =>
      let entries := page.tags.map (tagEntry cfg)
      match page.nextCursor with
      | none => .ok entries
      | some next =>
        match parseUnsigned (2 ^ 64) next.toList with
        | none => .error (.failed ("device returned a non-numeric browse cursor `" ++ next ++ "`"))
        | some resume =>
          if resume ≤ prevStart then .error (.failed "browse cursor did not advance")
          else
            match collectTags cfg task pages (n + 1) (some next) resume with
            | .error e => .error e
            | .ok rest => .ok (entries ++ rest)

/-- The inventory: the configured layout of a push device, the whole tag list of a poll device. -/
def inventory (cfg : DeviceConfig)
    (task : ℕ → Option String → ℕ → ChannelAnswer (Except BrowseError BrowsePage)) :
    Except BrowseFailure (List HierEntry) :=
  match cfg.mode with
  | .push => .ok (pushFields hierEntry cfg)
  | .poll =>
    collectTags cfg (fun n cursor => task n cursor hierarchicalPageSize) maxBrowsePages 0 none 0

/-- An unsigned member of the body, with its default and its range. -/
def clampedMember (body : Json) (key : String) (default low high : ℕ) : ℕ :=
  max low (min (((body.get key).bind Json.asU64).elim default UInt64.toNat) high)

/-- `browse_hierarchical`: the device with its inventory, or one entry of it. -/
def browseHierarchical (cfg : DeviceConfig) (body : Json)
    (task : ℕ → Option String → ℕ → ChannelAnswer (Except BrowseError BrowsePage)) :
    Except BrowseFailure Json :=
  match ((body.get "ref").bind Json.asStr).filter (· ≠ "") with
  | none => .error (.refused ⟨.badArgs, "`ref` must be a non-empty string"⟩)
  | some refId => do
    let depth := clampedMember body "depth" 1 1 4
    let maxRefs := clampedMember body "maxRefs" 200 1 1000
    let entries ← inventory cfg task
    let node (e : HierEntry) : List (String × Json) :=
      [("nodeId", .str e.nodeId), ("name", .str e.name), ("nodeClass", .str "signal"),
        ("dataType", e.dataType)] ++ e.extra
    let reply (root : List (String × Json)) (refCount : ℕ) (truncated : Bool) : Json :=
      .obj [("id", .str cfg.id), ("mode", .str "hierarchical"), ("root", .obj root),
        ("refCount", Json.ofNat refCount), ("depth", Json.ofNat depth),
        ("truncated", .bool truncated)]
    if refId = "root" then
      let refs := (entries.take maxRefs).map fun e =>
        Json.obj [("referenceType", .str "contains"), ("target", .obj (node e))]
      pure (reply [("nodeId", .str "root"), ("name", .str cfg.id), ("nodeClass", .str "device"),
        ("dataType", .null), ("refs", .arr refs)] refs.length (entries.length > maxRefs))
    else
      match entries.find? (·.nodeId == refId) with
      | none => .error (.refused ⟨.badArgs, "unknown browse ref `" ++ refId ++ "`"⟩)
      | some e => pure (reply (node e ++ [("refs", .arr [])]) 0 false)

/-- The members that select the hierarchical and the paged form. -/
def hasAny (body : Json) (keys : List String) : Bool := keys.any fun key => (body.get key).isSome

/-- The answer of `sb/browse` for an instance, and whether it counts in the metric: a paged
request that cannot be handed to the device task does not. -/
def browseReply (cfg : DeviceConfig) (body : Json)
    (task : ℕ → Option String → ℕ → ChannelAnswer (Except BrowseError BrowsePage)) :
    Except BrowseFailure Json × Bool :=
  if hasAny body ["ref", "depth", "maxRefs"] ∧ hasAny body ["cursor", "max"] then
    (.error (.refused ⟨.badArgs, "`ref`/`depth`/`maxRefs` (hierarchical) and `cursor`/`max` " ++
      "(paged) are mutually exclusive"⟩), true)
  else if hasAny body ["ref", "depth", "maxRefs"] ∧ (body.get "ref").isNone then
    (.error (.refused ⟨.badArgs,
      "`depth`/`maxRefs` are hierarchical-mode arguments and require `ref`"⟩), true)
  else if (body.get "ref").isSome then (browseHierarchical cfg body task, true)
  else
    let cursor := (body.get "cursor").bind Json.asStr
    let maxTags := clampedMember body "max" 200 1 1000
    match cfg.mode with
    | .push => ((browsePushLayout cfg cursor maxTags).mapError .refused, true)
    | .poll =>
      match task 0 cursor maxTags with
      | .closed => (.error (.refused deviceUnavailable), false)
      | answer => ((browseAnswer answer).map (browsePageJson cfg), true)

/-- How many tags an answer shows: its `refCount`, or its `tags`. -/
def browsedTags (body reply : Json) : ℕ :=
  if (body.get "ref").isSome then ((reply.get "refCount").bind Json.asU64).elim 0 UInt64.toNat
  else ((reply.get "tags").bind Json.asArray).elim 0 List.length

/-- `sb/browse`: the answer, and the metric of the instance that served it. -/
def browse (registry : List DeviceHandle) (addressed : Option String) (body : Json)
    (task : ℕ → Option String → ℕ → ChannelAnswer (Except BrowseError BrowsePage)) :
    Except BrowseFailure Json × Option (Bool × ℕ) :=
  match resolve registry addressed with
  | .error e => (.error (.refused e), none)
  | .ok h =>
    let (result, counted) := browseReply h.cfg body task
    let tally := result.toOption.elim (false, 0) fun reply => (true, browsedTags body reply)
    (result, if counted then some tally else none)

end EnipAdapter.Model
