import EnipAdapter.Model.Error

/-!
# EPATHs and the CIP Message Router

Padded path encoding (`cip/epath.rs`) and the request and reply of the Message Router
(`cip/message.rs`).
-/

set_option autoImplicit false

namespace EnipAdapter.Model

/-! ## Paths -/

/-- The longest path, in 16-bit words. -/
def maxPathWords : ℕ := 255

structure PortSegment where
  port : UInt8
  link : Bytes
deriving DecidableEq, Repr

/-- The bytes of a port segment, padded to an even count. Ports above 14 are refused. -/
def PortSegment.encode (s : PortSegment) : Except EnipError Bytes :=
  if s.port > 14 then .error (.unsupported "route port > 14 (D-ENIP-13)")
  else if s.link.length ≥ 256 then .error (.tooLarge 255)
  else
    let extended : Bool := s.link.length > 1
    let first : Bytes := if extended then [s.port ||| 0x10, UInt8.ofNat s.link.length] else [s.port]
    let body := first ++ s.link
    .ok (if body.length % 2 = 0 then body else body ++ [0])

inductive Segment where
  | class_ (id : UInt16)
  | instance_ (id : UInt32)
  | attribute (id : UInt16)
  | element (index : UInt32)
  | connectionPoint (id : UInt16)
  | symbol (name : String)
  | port (segment : PortSegment)
deriving DecidableEq, Repr

namespace Segment

/-- An 8- or 16-bit logical segment. -/
def encodeLogical (code8 code16 : UInt8) (value : UInt16) : Bytes :=
  if value.toNat ≤ 255 then [code8, value.toUInt8] else [code16, 0] ++ putU16 value

/-- An 8-, 16- or 32-bit logical segment. -/
def encodeLogicalWide (code8 code16 code32 : UInt8) (value : UInt32) : Bytes :=
  if value.toNat ≤ 255 then [code8, value.toUInt8]
  else if value.toNat ≤ 65535 then [code16, 0] ++ putU16 value.toUInt16
  else [code32, 0] ++ putU32 value

def encode : Segment → Except EnipError Bytes
  | .class_ v => .ok (encodeLogical 0x20 0x21 v)
  | .instance_ v => .ok (encodeLogicalWide 0x24 0x25 0x26 v)
  | .attribute v => .ok (encodeLogical 0x30 0x31 v)
  | .connectionPoint v => .ok (encodeLogical 0x2C 0x2D v)
  | .element v => .ok (encodeLogicalWide 0x28 0x29 0x2A v)
  | .symbol name =>
      let bytes := name.toUTF8.toList
      if bytes.length ≥ 256 then .error (.tooLarge 255)
      else if bytes.length = 0 then
        .error (.malformed (.malformed "epath" "empty symbolic segment"))
      else
        .ok ([0x91, UInt8.ofNat bytes.length] ++ bytes ++
          (if bytes.length % 2 = 0 then [] else [0]))
  | .port segment => segment.encode

end Segment

structure EPath where
  segments : List Segment
deriving DecidableEq, Repr

namespace EPath

/-- The segments one after the other; the first that fails fails the path. -/
def encodeSegments : List Segment → Except EnipError Bytes
  | [] => .ok []
  | s :: ss => do
      let head ← s.encode
      let rest ← encodeSegments ss
      pure (head ++ rest)

/-- Encode the path: even, and at most 255 words. -/
def encode (p : EPath) : Except EnipError Bytes := do
  let bytes ← encodeSegments p.segments
  if bytes.length % 2 ≠ 0 then
    .error (.malformed (.malformed "epath" "epath encoded to odd length"))
  else if bytes.length / 2 > maxPathWords then .error (.tooLarge maxPathWords)
  else pure bytes

/-- An encoded path is at most 255 words long. -/
theorem length_le_of_encode {p : EPath} {bytes : Bytes} (h : p.encode = .ok bytes) :
    bytes.length / 2 ≤ maxPathWords ∧ bytes.length ≤ 510 := by
  unfold encode at h
  cases hs : encodeSegments p.segments with
  | error e => simp [hs, bind, Except.bind] at h
  | ok b =>
      simp only [hs, bind, Except.bind, pure, Except.pure] at h
      split_ifs at h with hodd hlong
      cases h
      unfold maxPathWords at hlong ⊢
      omega

end EPath

/-! ## Requests and replies -/

structure MessageRequest where
  service : UInt8
  path : EPath
  data : Bytes
deriving DecidableEq, Repr

/-- The path length byte every wire record with a path carries. -/
def pathWords (pathBytes : Bytes) : Except EnipError UInt8 :=
  if pathBytes.length / 2 < 256 then .ok (UInt8.ofNat (pathBytes.length / 2))
  else .error (.tooLarge 255)

/-- The encoded length of a path in 16-bit words. -/
def EPath.wordLen (p : EPath) : Except EnipError UInt8 := do
  let bytes ← p.encode
  pathWords bytes

/-- The length byte of an encoded path never overflows. -/
theorem pathWords_of_encode {p : EPath} {bytes : Bytes} (h : p.encode = .ok bytes) :
    pathWords bytes = .ok (UInt8.ofNat (bytes.length / 2)) := by
  have hlen := (EPath.length_le_of_encode h).1
  unfold maxPathWords at hlen
  rw [pathWords, if_pos (by omega)]

/-- Encode: service, path length in words, path, data. -/
def MessageRequest.encode (m : MessageRequest) : Except EnipError Bytes := do
  let pathBytes ← m.path.encode
  let words ← pathWords pathBytes
  pure ([m.service, words] ++ pathBytes ++ m.data)

structure MessageReply where
  replyService : UInt8
  status : CipStatus
  data : Bytes
deriving DecidableEq, Repr

namespace MessageReply

def decodeWords : ℕ → WireReader → Except WireError (List UInt16 × WireReader)
  | 0, r => .ok ([], r)
  | n + 1, r => do
      let (w, r) ← r.u16
      let (ws, r) ← decodeWords n r
      pure (w :: ws, r)

/-- Decode a reply; a non-zero status keeps its data. -/
def decode (buf : Bytes) : Except WireError MessageReply := do
  let r := WireReader.withContext buf "cip reply"
  let (replyService, r) ← r.u8
  let (_, r) ← r.u8
  let (general, r) ← r.u8
  let (extSize, r) ← r.u8
  let extBytes := extSize.toNat * 2
  if r.remaining < extBytes then .error (.truncated extBytes r.remaining "cip reply")
  else
    let (extended, r) ← decodeWords extSize.toNat r
    let (data, _) := r.takeRest
    pure ⟨replyService, ⟨GeneralStatus.fromCode general, extended⟩, data⟩

/-- The reply service is the request's with the reply bit. -/
def expectService (m : MessageReply) (requestService : UInt8) : Except EnipError Unit :=
  if m.replyService = requestService ||| 0x80 then .ok ()
  else .error (.protocolViolation "reply service does not match request | 0x80")

end MessageReply

end EnipAdapter.Model
